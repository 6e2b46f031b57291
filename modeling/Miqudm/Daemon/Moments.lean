/-
Every fork and every launch of every run, in its surroundings.

`Moment E e s` says under which conditions the daemon forks and launches: with which descriptors open, for which
request, and for which user and session; and that the listening socket is gone when `run` returns. `history_moments` is
the invariant: it holds at every moment of every watched run, whatever the surroundings answer. Between connections the
listening socket is the only one of the two sockets open (`Idle`), and while a connection is handled the client's is
open as well (`Busy`).
-/
import Miqudm.Daemon.Frames

namespace Miqudm

open Miqudm.Core Prog

/-! ## The sockets -/

def listeningDesc (s : St) : Desc := ⟨s.serverSocketFd, .listening, false⟩

/-- the sockets that are open: the listening one, and that of the client whose connection is handled -/
def Sockets (s : St) : Prop :=
  match s.frame with
  | none => s.fds = [listeningDesc s]
  | some f => s.fds = [listeningDesc s, ⟨f.clientFd, .client, false⟩]

/-- between two connections -/
structure Idle (s : St) : Prop where
  frame : s.frame = none
  fds : s.fds = [listeningDesc s]
  fd : s.serverSocketFd < s.nextFd
  socket : 0 ≤ s.serverSocketFd ∧ s.socketPath ≠ []

/-- while a connection is handled -/
structure Busy (s : St) (f : Frame) : Prop where
  frame : s.frame = some f
  fds : s.fds = [listeningDesc s, ⟨f.clientFd, .client, false⟩]
  fd : s.serverSocketFd < f.clientFd
  next : f.clientFd < s.nextFd
  socket : 0 ≤ s.serverSocketFd ∧ s.socketPath ≠ []

theorem Idle.sockets {s : St} (h : Idle s) : Sockets s := by
  rw [Sockets, h.frame]
  exact h.fds

theorem Busy.sockets {s : St} {f : Frame} (h : Busy s f) : Sockets s := by
  rw [Sockets, h.frame]
  exact h.fds

/-- handling a request keeps the sockets and the connection -/
theorem Busy.of_request {s t : St} {f : Frame} (hb : Busy s f) (h : apartRequest s = apartRequest t) : Busy t f where
  frame := (same_of_erased h fun _ => rfl : s.frame = t.frame) ▸ hb.frame
  fds := by
    have hfds : s.fds = t.fds := same_of_erased h fun _ => rfl
    have hl : listeningDesc s = listeningDesc t := same_of_erased h fun _ => rfl
    rw [← hfds, ← hl]
    exact hb.fds
  fd := (same_of_erased h fun _ => rfl : s.serverSocketFd = t.serverSocketFd) ▸ hb.fd
  next := (same_of_erased h fun _ => rfl : s.nextFd = t.nextFd) ▸ hb.next
  socket := by
    have hfd : s.serverSocketFd = t.serverSocketFd := same_of_erased h fun _ => rfl
    have hpath : s.socketPath = t.socketPath := same_of_erased h fun _ => rfl
    rw [← hfd, ← hpath]
    exact hb.socket

/-- the clock and the locals of the connection do not matter -/
theorem Busy.map {s : St} {f : Frame} (hb : Busy s f) (g : Frame → Frame) (hg : (g f).clientFd = f.clientFd) (b : Bool)
    (n : ℕ) : Busy (({ s.setRunning b with frame := s.frame.map g } : St).tick n) (g f) where
  frame := congrArg (Option.map g) hb.frame
  fds := by rw [hg]; exact hb.fds
  fd := by rw [hg]; exact hb.fd
  next := by rw [hg]; exact hb.next
  socket := hb.socket

theorem Busy.tick {s : St} {f : Frame} (hb : Busy s f) (b : Bool) (n : ℕ) :
    Busy ((s.setRunning b).tick n) f := ⟨hb.frame, hb.fds, hb.fd, hb.next, hb.socket⟩

theorem Idle.tick {s : St} (hi : Idle s) (b : Bool) (n : ℕ) : Idle ((s.setRunning b).tick n) :=
  ⟨hi.frame, hi.fds, hi.fd, hi.socket⟩

theorem Busy.of_login {s t : St} {f : Frame} (hb : Busy s f) (h : apartLogin s = apartLogin t) : Busy t f :=
  hb.of_request (same_of_erased h fun _ => rfl)

theorem Idle.of_login {s t : St} (hi : Idle s) (h : apartLogin s = apartLogin t) : Idle t where
  frame := (same_of_erased h fun _ => rfl : s.frame = t.frame) ▸ hi.frame
  fds := by
    have hfds : s.fds = t.fds := same_of_erased h fun _ => rfl
    have hl : listeningDesc s = listeningDesc t := same_of_erased h fun _ => rfl
    rw [← hfds, ← hl]
    exact hi.fds
  fd := by
    have hfd : s.serverSocketFd = t.serverSocketFd := same_of_erased h fun _ => rfl
    have hnext : s.nextFd = t.nextFd := same_of_erased h fun _ => rfl
    rw [← hfd, ← hnext]
    exact hi.fd
  socket := by
    have hfd : s.serverSocketFd = t.serverSocketFd := same_of_erased h fun _ => rfl
    have hpath : s.socketPath = t.socketPath := same_of_erased h fun _ => rfl
    rw [← hfd, ← hpath]
    exact hi.socket

/-! ## The moments -/

/-- the fork of a session: its child runs `sessionChild` for the user and the session the request leads to -/
def SessionFork (E : Env) (req : IpcMessage) (r : Option (Pid × Child)) (s : St) : Prop :=
  ∃ t pamEnvs vt s', s.now = t + 1 ∧ r = (E.fork t).map fun pid => (pid,
    sessionChild E (findUser s.cachedUsers req.username) (findSession s.cachedSessions req) pamEnvs vt s' (E.child t))

def Moment (E : Env) : Event → St → Prop
  | .fork .greeter r, s => Inherits r s ∧ Sockets s ∧ ∀ f, s.frame = some f → f.req.type = .login
  | .fork .session r, s => Inherits r s ∧ Sockets s ∧
      ∃ f, s.frame = some f ∧ f.req.type = .login ∧ SessionFork E f.req r s
  | .launch user session, s => ∃ f, s.frame = some f ∧ f.req.type = .login ∧
      user = findUser s.cachedUsers f.req.username ∧ session = findSession s.cachedSessions f.req
  | .finished, s => s.fds = [] ∧ s.socketPath ∉ s.sockets
  | _, _ => True

theorem Moment.of_calm {E : Env} {e : Event} {s : St} (h : e.calm) : Moment E e s := by
  unfold Moment
  split <;> trivial

/-- a quiet event between connections, or while a login is served -/
theorem Moment.of_quiet {E : Env} {e : Event} {s : St} (h : e.quiet s) (hs : Sockets s)
    (hf : ∀ f, s.frame = some f → f.req.type = .login) : Moment E e s := by
  unfold Event.quiet at h
  split at h
  · exact ⟨h.2, hs, hf⟩
  · exact Moment.of_calm h

variable (E : Env)

/-- a calm part shows no special moment -/
theorem moments_of_calm {α : Type} {x : Sys α} {g : St → St} {s t : St} (h : Within (calmly g) x) (hst : g s = g t) :
    Safe (Moment E) x t (fun _ u => g s = g u) := Calm.safe h hst fun _ _ he _ => Moment.of_calm he

theorem reply_moments (resp : IpcMessage) (s : St) :
    Safe (Moment E) (reply E resp) s (fun _ t => apartClock s = apartClock t) := by
  refine safe_bind (safe_op E trivial fun b => ⟨trivial, safe_bind (safe_get (safe_ite (fun _ => safe_halt) fun _ => ?_))⟩)
  exact safe_pure rfl

/-! ## Serving a session -/

theorem sessionChild_inherits {user : UserInfo} {session : SessionInfo} {pamEnvs : List Str} {vt : ℤ} {s : St}
    {a : ChildAnswers} {image : Image} (h : (sessionChild E user session pamEnvs vt s a).fate = .exec image) :
    image.fds = keptAcrossExec s.fds := by
  simp only [sessionChild] at h
  -- the three calls of the privilege drop, then the programs
  split at h
  · cases h
  split at h
  · cases h
  split at h
  · cases h
  simp only [] at h
  split at h
  · cases h
  · cases h
    rfl

/-- `launch` for the user and the session of the request that is served -/
theorem launch_moments {f : Frame} {s : St} (hb : Busy s f) (hlogin : f.req.type = .login) (pamEnvs : List Str)
    (vt : ℤ) :
    Safe (Moment E) (launch E (findUser s.cachedUsers f.req.username) (findSession s.cachedSessions f.req) pamEnvs vt) s
      (fun _ t => apartLogin s = apartLogin t) := by
  refine safe_bind (safe_op E trivial fun b => ⟨⟨f, hb.frame, hlogin, rfl, rfl⟩, ?_⟩)
  refine Safe.seq (moments_of_calm E (isRunning_calm E) (s := s) rfl) fun running t ht => ?_
  have hlogin' : apartLogin s = apartLogin t := same_of_erased ht fun _ => rfl
  refine safe_ite (fun _ => safe_pure hlogin') fun _ => ?_
  -- the fork: nothing that the child depends on has changed
  refine safe_bind (safe_bind (safe_get (safe_bind (safe_op E trivial fun b => ⟨?_, safe_pure ?_⟩))))
  · have hbt := hb.of_login hlogin'
    have husers : s.cachedUsers = t.cachedUsers := same_of_erased ht fun _ => rfl
    have hsessions : s.cachedSessions = t.cachedSessions := same_of_erased ht fun _ => rfl
    rw [husers, hsessions]
    exact ⟨inherits_map rfl fun _ => sessionChild_inherits E, hbt.sockets, f, hbt.frame, hlogin, t.now, pamEnvs, vt, t,
      rfl, rfl⟩
  · split
    · exact safe_pure hlogin'
    · exact safe_bind (safe_op E trivial fun b' => ⟨trivial, safe_pure hlogin'⟩)

/-- starting a greeter while a login is served, or between connections -/
theorem startGreeter_moments {s : St} (hs : Sockets s) (hf : ∀ f, s.frame = some f → f.req.type = .login) :
    Safe (Moment E) (startGreeter E) s (fun _ t => apartGreeter s = apartGreeter t) := by
  refine Quiet.safe (startGreeter_quiet E) rfl fun e t he ht => Moment.of_quiet he ?_ ?_
  · have hsockets : Sockets s = Sockets t := same_of_erased ht fun _ => rfl
    exact hsockets ▸ hs
  · have hframe : s.frame = t.frame := same_of_erased ht fun _ => rfl
    exact hframe ▸ hf

theorem serveSession_moments {f : Frame} {s : St} (hb : Busy s f) (hlogin : f.req.type = .login) (pam : PamAuth) :
    Safe (Moment E) (serveSession E f.req pam) s (fun _ t => apartLogin s = apartLogin t) := by
  have part : ∀ {α : Type} {x : Sys α} {t : St}, Within (calmly apartLogin) x → apartLogin s = apartLogin t →
      Safe (Moment E) x t (fun _ u => apartLogin s = apartLogin u) := fun hx ht => moments_of_calm E hx ht
  refine safe_bind (safe_bind (safe_op E trivial fun b => ⟨trivial, ?_⟩))
  refine Safe.mono (part (Calm.wider (releaseGreeter_calm E) fun _ => rfl) rfl) fun _ t ht => ?_
  have hremember : Within (calmly apartLogin) (rememberLastUser E f.req) :=
    Calm.wider (rememberLastUser_calm E _) fun _ => rfl
  refine safe_bind (safe_get (Safe.seq (part hremember ht) fun _ u hu => ?_))
  refine Safe.seq (part (Calm.wider (setActivePam_calm E pam) fun _ => rfl) hu) fun _ u hu => ?_
  refine Safe.seq (part (Calm.wider (onPam_calm E _) fun _ => rfl) hu) fun pamEnvs u hu => ?_
  -- the user and the session were looked up before, in caches that are still the same
  have husers : t.cachedUsers = u.cachedUsers :=
    same_of_erased (p := St.cachedUsers) (Eq.trans ht.symm hu) fun _ => rfl
  have hsessions : t.cachedSessions = u.cachedSessions :=
    same_of_erased (p := St.cachedSessions) (Eq.trans ht.symm hu) fun _ => rfl
  rw [husers, hsessions]
  apply Safe.seq (launch_moments E (hb.of_login hu) hlogin pamEnvs _)
  intro launched v hv
  have hv := Eq.trans hu hv
  have hwait : Within (calmly apartLogin) (waitForExit E) := Calm.wider (waitForExit_calm E) fun _ => rfl
  refine Safe.seq (part (within_when (within_bind hwait fun _ => within_pure ())) hv) ?_
  intro _ v hv
  refine Safe.seq (part (Calm.wider (releaseActivePam_calm E) fun _ => rfl) hv) fun _ v hv => ?_
  refine Safe.seq (part (Calm.wider (readRunning_calm E) fun _ => rfl) hv) fun running v hv => ?_
  refine safe_ite (fun _ => ?_) fun _ => safe_pure hv
  have hbv := hb.of_login hv
  refine Safe.mono (startGreeter_moments E hbv.sockets fun g hg => ?_) fun _ w hw => ?_
  · rw [hbv.frame] at hg
    exact Option.some_inj.1 hg ▸ hlogin
  · exact Eq.trans hv (same_of_erased hw fun _ => rfl)

/-! ## Requests -/

/-- a PAM step of a login shows no special moment -/
theorem loginStep_moments {step : PamM (Bool × PamAuth)} {failure : Str} {next : PamAuth → Sys Unit} {s t : St}
    (ht : apartLogin s = apartLogin t)
    (hnext : ∀ pam u, apartLogin s = apartLogin u →
      Safe (Moment E) (next pam) u (fun _ v => apartLogin s = apartLogin v)) :
    Safe (Moment E) (loginStep E step failure next) t (fun _ v => apartLogin s = apartLogin v) := by
  have pamPart : ∀ {α : Type} (x : PamM α) {t : St}, apartLogin s = apartLogin t →
      Safe (Moment E) (onPam E x) t (fun _ u => apartLogin s = apartLogin u) :=
    fun x _ ht => moments_of_calm E (Calm.wider (onPam_calm E x) fun _ => rfl) ht
  apply Safe.seq (pamPart step ht)
  rintro ⟨ok, pam⟩ u hu
  refine safe_ite (fun _ => ?_) fun _ => hnext pam u hu
  apply Safe.seq (reply_moments E _ u)
  intro _ v hv
  have hv := Eq.trans hu (same_of_erased hv fun _ => rfl)
  exact Safe.seq (pamPart _ hv) fun _ w hw => safe_pure hw

theorem handleLoginRequest_moments {f : Frame} {s : St} (hb : Busy s f) (hlogin : f.req.type = .login) :
    Safe (Moment E) (handleLoginRequest E f.req) s (fun _ t => apartLogin s = apartLogin t) := by
  refine loginStep_moments E (s := s) rfl fun pam t ht => loginStep_moments E ht fun pam t ht =>
    loginStep_moments E ht fun pam t ht => loginStep_moments E ht fun pam t ht => ?_
  have henv : Within (calmly apartLogin) (setLoginEnv E f.req pam) := Calm.wider (setLoginEnv_calm E _ _) fun _ => rfl
  refine Safe.seq (moments_of_calm E henv ht) fun _ t ht => loginStep_moments E ht fun pam t ht => ?_
  apply Safe.seq (reply_moments E _ t)
  intro _ u hu
  have hu := Eq.trans ht (same_of_erased hu fun _ => rfl)
  exact Safe.mono (serveSession_moments E (hb.of_login hu) hlogin pam) fun _ v hv => Eq.trans hu hv

theorem processMessage_moments {f : Frame} {s : St} (hb : Busy s f) :
    Safe (Moment E) (processMessage E f.req) s (fun _ t => apartRequest s = apartRequest t) := by
  have answer : ∀ {t : St} resp, apartRequest s = apartRequest t →
      Safe (Moment E) (reply E resp) t (fun _ u => apartRequest s = apartRequest u) := fun resp ht =>
    Safe.mono (reply_moments E resp _) fun _ u hu => Eq.trans ht (same_of_erased hu fun _ => rfl)
  have part : ∀ {α : Type} {x : Sys α}, Within (calmly apartRequest) x →
      Safe (Moment E) x s (fun _ u => apartRequest s = apartRequest u) := fun hx => moments_of_calm E hx rfl
  unfold processMessage
  split
  case _ => exact answer _ rfl
  case _ =>
    refine Safe.seq (part (op_calm E (fun _ => rfl) rfl fun _ => rfl)) fun _ t ht => ?_
    exact safe_bind (safe_get (answer _ ht))
  case _ =>
    have hscan : Within (scanning apartRequest) (cacheSessions E) :=
      Scanning.wider (cacheSessions_scanning E) fun _ => rfl
    refine Safe.seq (Scanning.safe hscan (s := s) rfl fun _ _ he _ => Moment.of_calm he) fun _ t ht => ?_
    exact safe_bind (safe_get (answer _ ht))
  case _ =>
    refine Safe.seq (part (Calm.wider (powerCall_calm E _) fun _ => rfl)) fun ok t ht => ?_
    exact answer _ ht
  case _ hlogin =>
    exact Safe.mono (handleLoginRequest_moments E hb hlogin) fun _ t ht => same_of_erased ht fun _ => rfl
  case _ => exact answer _ rfl

/-! ## Connections and the loop -/

/-- a line: it is decoded and handled -/
theorem serveLine_moments (line rest : Str) {f : Frame} {s : St} (hb : Busy s f) :
    Safe (Moment E) (serveLine E line rest) s (fun _ t => ∃ g, g.clientFd = f.clientFd ∧ Busy t g) := by
  refine safe_bind (safe_op E trivial fun b => ⟨trivial, ?_⟩)
  have hb := hb.map (fun f => { f with line := line, accumulated := rest }) rfl b (s.now + 1)
  split
  · exact safe_halt
  · case _ req _ =>
    refine safe_bind (safe_op E trivial fun b => ⟨trivial, ?_⟩)
    have hb := hb.map (fun f => { f with req := req }) rfl b (s.now + 1 + 1)
    apply Safe.seq (processMessage_moments E hb)
    intro _ t ht
    exact safe_op E trivial fun b =>
      ⟨trivial, { f with line, accumulated := rest, req }, rfl, (hb.of_request ht).tick b _⟩

theorem readLoop_moments : ∀ (chunks : List Str) (accumulated : Str) (f : Frame) (s : St), Busy s f →
    Safe (Moment E) (readLoop E accumulated chunks) s (fun _ t => ∃ g, g.clientFd = f.clientFd ∧ Busy t g) := by
  intro chunks
  induction chunks with
  | nil => exact fun _ f s hb => safe_op E trivial fun b => ⟨trivial, f, rfl, hb.tick b _⟩
  | cons chunk chunks ih =>
    intro accumulated f s hb
    refine safe_ite (fun _ => safe_op E trivial fun b => ⟨trivial, f, rfl, hb.tick b _⟩) fun _ => ?_
    refine safe_bind (safe_op E trivial fun b => ⟨trivial, ?_⟩)
    have hb := hb.map (fun f => f.readChunk chunk) rfl b (s.now + 1)
    split
    · exact ih _ (f.readChunk chunk) _ hb
    · exact serveLine_moments E _ _ (f := f.readChunk chunk) hb

theorem acceptClient_moments {s : St} (hi : Idle s) : Safe (Moment E) (acceptClient E) s (fun _ t => Idle t) := by
  refine safe_bind (safe_get ?_)
  split
  · exact safe_op E trivial fun b => ⟨trivial, hi.tick b _⟩
  · refine safe_bind (safe_op E trivial fun b => ⟨trivial, ?_⟩)
    refine safe_bind (safe_bind (safe_op E trivial fun b => ⟨trivial, ?_⟩))
    -- the client's socket is open and the connection begins
    refine Safe.seq (readLoop_moments E _ _ { clientFd := s.nextFd } _ ?_) ?_
    · refine ⟨rfl, ?_, hi.fd, Int.lt_succ _, hi.socket⟩
      exact congrArg (· ++ [(⟨s.nextFd, .client, false⟩ : Desc)]) hi.fds
    · rintro _ t ⟨g, hg, hb⟩
      refine safe_op E trivial fun b => ⟨trivial, safe_op E trivial fun b => ⟨trivial, ?_⟩⟩
      have hg : g.clientFd = s.nextFd := hg
      have hfd := hb.fd
      have hnext := hb.next
      have hkeep : (listeningDesc t).fd ≠ s.nextFd := by
        simp only [listeningDesc]
        omega
      refine ⟨rfl, ?_, Int.lt_trans hfd hnext, hb.socket⟩
      show t.fds.filter (fun d => d.fd ≠ s.nextFd) = [listeningDesc t]
      simp [hb.fds, hg, hkeep]

theorem turn_moments {s : St} (hi : Idle s) : Safe (Moment E) (turn E) s (fun _ t => Idle t) := by
  have watch : ∀ {t : St}, Idle t → Safe (Moment E) (watchGreeter E) t (fun _ u => Idle u) := by
    intro t ht
    refine Safe.mono (Quiet.safe (watchGreeter_quiet E) rfl fun e u he hu => ?_) fun _ u hu => ?_
    · have hu := ht.of_login (same_of_erased hu fun _ => rfl)
      exact Moment.of_quiet he hu.sockets fun f hf => by rw [hu.frame] at hf; cases hf
    · exact ht.of_login (same_of_erased hu fun _ => rfl)
  refine safe_bind (safe_op E trivial fun b => ⟨trivial, ?_⟩)
  have hi := hi.tick b (s.now + 1)
  refine safe_bind (safe_get (safe_ite (fun _ => safe_pure hi) fun _ => ?_))
  refine safe_bind (safe_get (safe_bind (safe_op E trivial fun b => ⟨trivial, ?_⟩)))
  have hi := hi.tick b (s.now + 1 + 1)
  split
  · exact safe_pure hi
  · exact safe_pure hi
  · apply Safe.seq (acceptClient_moments E hi)
    intro _ t ht
    exact Safe.seq (watch ht) fun _ u hu => safe_pure hu
  · exact Safe.seq (watch hi) fun _ u hu => safe_pure hu

theorem createSocket_moments {s : St} (hframe : s.frame = none) (hfds : s.fds = []) (hnext : 0 ≤ s.nextFd)
    (hpath : s.socketPath ≠ []) : Safe (Moment E) (createSocket E) s (fun ok t => ok = true → Idle t) := by
  refine safe_bind (safe_get (safe_bind (safe_op E trivial fun b => ⟨trivial, safe_pure fun hcreated => ?_⟩)))
  have hcreated : E.socket s.now = true := hcreated
  simp only [hcreated, if_true]
  exact ⟨hframe, congrArg (· ++ [(⟨s.nextFd, .listening, false⟩ : Desc)]) hfds, Int.lt_succ _, hnext, hpath⟩

theorem bindAndListen_moments {s : St} (hi : Idle s) (path : Str) (fd : ℤ) :
    Safe (Moment E) (bindAndListen E path fd) s (fun ok t => ok = true → Idle t) := by
  have abandons : ∀ {t : St}, Safe (Moment E) (abandonSocket E fd) t (fun ok u => ok = true → Idle u) := by
    intro t
    refine safe_bind (safe_op E trivial fun b => ⟨trivial, safe_bind (safe_op E trivial fun b => ⟨trivial, ?_⟩)⟩)
    exact safe_pure (by simp)
  refine safe_bind (safe_get (safe_bind (safe_op E trivial fun b => ⟨trivial, safe_ite (fun _ => abandons) fun _ => ?_⟩)))
  refine safe_bind (safe_get (safe_bind (safe_op E trivial fun b => ⟨trivial, safe_ite (fun _ => abandons) fun _ => ?_⟩)))
  exact safe_pure fun _ => ⟨hi.frame, hi.fds, hi.fd, hi.socket⟩

theorem getSocketPath_ne_nil (pathExists : Str → Bool) : getSocketPath pathExists ≠ [] := by
  unfold getSocketPath
  split_ifs <;> decide

/-- what `setup_ipc_socket` leaves from a state without descriptors: a listening socket, if it succeeds -/
theorem setupIpcSocket_moments {s : St} (hframe : s.frame = none) (hfds : s.fds = []) (hnext : 0 ≤ s.nextFd) :
    Safe (Moment E) (setupIpcSocket E) s (fun ok t => ok = true → Idle t) := by
  refine safe_bind (safe_get (safe_bind (safe_op E trivial fun b => ⟨trivial, ?_⟩)))
  apply Safe.seq (moments_of_calm E (createDirectories_calm E _) rfl)
  intro _ t ht
  have htframe : t.frame = none := (same_of_erased (p := St.frame) ht fun _ => rfl).symm.trans hframe
  have htfds : t.fds = [] := (same_of_erased (p := St.fds) ht fun _ => rfl).symm.trans hfds
  have htnext : 0 ≤ t.nextFd := (same_of_erased (p := St.nextFd) ht fun _ => rfl) ▸ hnext
  have htpath : t.socketPath ≠ [] :=
    (same_of_erased (p := St.socketPath) ht fun _ => rfl) ▸ getSocketPath_ne_nil (s.pathExists E)
  refine safe_bind (safe_op E trivial fun b => ⟨trivial, ?_⟩)
  refine Safe.seq (createSocket_moments E htframe htfds htnext htpath) fun ok u hu => ?_
  apply safe_ite (fun hok => safe_bind (safe_get (bindAndListen_moments E (hu hok) _ _)))
  intro _
  exact safe_pure (by simp)

/-- what `init` leaves: a listening socket, if it succeeds -/
theorem init_moments : Safe (Moment E) (init E) (boot E) (fun ok t => ok = true → Idle t) := by
  refine safe_bind (safe_loadConfig E (safe_op E trivial fun b => ⟨trivial, ?_⟩))
  refine safe_bind (safe_op E trivial fun b => ⟨trivial, ?_⟩)
  refine safe_bind (safe_cacheSessions E fun sessions _ => safe_op E trivial fun b => ⟨trivial, ?_⟩)
  exact setupIpcSocket_moments E rfl rfl (by decide : (0 : ℤ) ≤ 3)

/-- `cleanup_ipc_socket` closes the listening socket and removes its path -/
theorem cleanupIpcSocket_moments {s : St} (hi : Idle s) :
    Safe (Moment E) (cleanupIpcSocket E) s (fun _ t => t.fds = [] ∧ t.socketPath ∉ t.sockets) := by
  have hfds : s.fds.filter (fun d => d.fd ≠ s.serverSocketFd) = [] := by simp [hi.fds, listeningDesc]
  refine safe_bind (safe_get (safe_bind (safe_when (fun _ => ?_) fun hfd => absurd hi.socket.1 hfd)))
  refine safe_bind (safe_op E trivial fun b => ⟨trivial, safe_op E trivial fun b => ⟨trivial, ?_⟩⟩)
  refine safe_ite (fun _ => safe_op E trivial fun b => ⟨trivial, hfds, ?_⟩) fun hpath => absurd hi.socket.2 hpath
  show s.socketPath ∉ s.sockets.filter fun p => p ≠ s.socketPath
  simp

theorem run_moments (n : ℕ) {s : St} (hi : Idle s) : Safe (Moment E) (run E n) s (fun _ _ => True) := by
  refine safe_bind (safe_op E trivial fun b => ⟨trivial, ?_⟩)
  have hi : Idle ((s.setRunning true).tick (s.now + 1)) := hi.tick true _
  refine Safe.seq (startGreeter_moments E hi.sockets fun f hf => ?_) fun _ t ht => ?_
  · exact absurd (hi.frame.symm.trans hf) (by simp)
  have hi : Idle t := hi.of_login (same_of_erased ht fun _ => rfl)
  refine safe_bind (Watched.mono (watched_loop (I := fun _ t => Idle t) (q := fun _ _ t => Idle t)
    (fun _ _ _ => trivial) (fun _ t ht => ?_) n () t hi) fun _ _ u hu => ?_)
  · exact Safe.mono (turn_moments E ht) fun ok u hu => by split <;> exact hu
  refine safe_bind (safe_bind (safe_op E trivial fun b => ⟨trivial, ?_⟩))
  apply Safe.mono (moments_of_calm E (releaseGreeter_calm E) rfl)
  intro _ v hv
  have hv : Idle v := (hu.tick b _).of_login (same_of_erased hv fun _ => rfl)
  apply Safe.seq (moments_of_calm E (terminate_calm E) rfl)
  intro _ w hw
  have hw : Idle w := hv.of_login (same_of_erased hw fun _ => rfl)
  apply Safe.seq (cleanupIpcSocket_moments E hw)
  intro _ x hx
  exact safe_op E trivial fun b => ⟨hx, trivial⟩

/-- **Every fork, every launch, and the end.** At every moment of every watched run, in any surroundings. -/
theorem history_moments (n : ℕ) : ∀ p ∈ history E n, Moment E p.1 p.2 := by
  refine Safe.log (q := fun _ _ => True) (Safe.seq (init_moments E) fun ok s hs => ?_)
  exact safe_ite (fun hok => run_moments E n (hs hok)) fun _ => safe_pure trivial

end Miqudm
