/-
The daemon as the server of its socket.

`Phase` is how far the endpoint has come: the socket is made, bound and put into listening, one client at a time is
served on it, and it is closed. `Ruled` says which events a phase allows, and `Phase.descs` which descriptors are open
in it.

- `endpoint_rules`: every moment of every run is allowed by the phase the run has reached, and the open descriptors are
  those of the phase, whether `setup_ipc_socket` fails, a client is served or `run` shuts down; so no close is of a
  descriptor that is not open, and a run that returns has none open;
- `clients_closed`: an accepted client's descriptor is closed before anything else is polled for or accepted, or the
  process ends while it serves this client.
-/
import Miqudm.Daemon.Domestic
import Miqudm.Daemon.Moments

namespace Miqudm.Endpoint

open Miqudm.Core Prog

/-! ## The endpoint -/

inductive Phase where
  | absent
  | created
  | bound
  | listening
  | serving (fd : ℤ)
  /-- `bind` or `listen` failed -/
  | failed
  | closed
deriving DecidableEq, Repr

namespace Phase

def step (p : Phase) (e : Event) : Phase :=
  match e with
  | .socket ok => if ok then .created else .closed
  | .bind _ ok => if ok then .bound else .failed
  | .listen ok => if ok then .listening else .failed
  | .accept (some fd) => .serving fd
  | .close _ => match p with
    | .serving _ => .listening
    | _ => .closed
  | _ => p

/-- the descriptors that are open, when the socket has the number `fd` -/
def descs (fd : ℤ) : Phase → List Desc
  | .absent => []
  | .created => [⟨fd, .listening, false⟩]
  | .bound => [⟨fd, .listening, false⟩]
  | .listening => [⟨fd, .listening, false⟩]
  | .serving client => [⟨fd, .listening, false⟩, ⟨client, .client, false⟩]
  | .failed => [⟨fd, .listening, false⟩]
  | .closed => []

/-- clients can connect -/
def Up (p : Phase) : Prop := p = .listening ∨ ∃ fd, p = .serving fd

def Serves (p : Phase) : Prop := ∃ fd, p = .serving fd

end Phase

/-- what may come next -/
def Ruled (p : Phase) (e : Event) (s : St) : Prop :=
  match e with
  | .unlink _ => p = .absent ∨ p = .closed
  | .socket _ => p = .absent
  | .bind _ _ => p = .created
  | .listen _ => p = .bound
  | .head => p = .listening
  | .poll _ => p = .listening
  | .accept fd => p = .listening ∧ fd ≠ some s.serverSocketFd
  | .read _ => p.Serves
  | .received _ => p.Serves
  | .logind _ _ => p.Serves
  | .reply _ => p.Serves
  | .served => p.Serves
  | .close fd => p = .serving fd ∨ (p = .failed ∨ p = .listening) ∧ fd = s.serverSocketFd
  | .launch _ _ => p.Up
  | .fork _ _ => p.Up
  | .kill _ _ => p.Up
  | .waitpid _ _ => p.Up
  | .waiting _ => p.Up
  | .waitInterrupted _ => p.Up
  | .waitDone _ _ => p.Up
  | .finished => p = .closed
  | _ => True

/-- the phase a run has reached -/
def phase (es : List Event) : Phase := es.foldl Phase.step .absent

def endpoint : Monitor Event St Halt Phase where
  step := Phase.step
  good p e s := Ruled p e s ∧ s.fds = (p.step e).descs s.serverSocketFd
  stops p e := (e = .cut ∧ p = .listening ∨ e ≠ .cut ∧ p.Serves) ∨ e = .filesystemError ∧ p = .absent

theorem after_eq_phase (l : List (Event × St)) : endpoint.after .absent l = phase (events l) := List.foldl_map.symm

/-! ## Descriptors -/

/-- the descriptors of the phase are open, and the next one is another -/
structure Stands (p : Phase) (s : St) : Prop where
  fds : s.fds = p.descs s.serverSocketFd
  fresh : s.serverSocketFd < s.nextFd ∧ 0 ≤ s.nextFd
  made : p = .absent ∨ p = .closed ∨ 0 ≤ s.serverSocketFd
  client : ∀ fd, p = .serving fd → s.serverSocketFd < fd ∧ fd < s.nextFd

def descriptors (s : St) : List Desc × ℤ × ℤ := (s.fds, s.nextFd, s.serverSocketFd)

theorem Stands.of_descriptors {p : Phase} {s t : St} (h : Stands p s) (hst : descriptors s = descriptors t) :
    Stands p t := by
  simp only [descriptors, Prod.mk.injEq] at hst
  obtain ⟨hfds, hnext, hfd⟩ := hst
  obtain ⟨hopen, hfresh, hmade, hclient⟩ := h
  rw [hfds, hfd] at hopen
  rw [hnext, hfd] at hfresh
  rw [hfd] at hmade
  rw [hnext, hfd] at hclient
  exact ⟨hopen, hfresh, hmade, hclient⟩

theorem Stands.of_sockets {p : Phase} {s t : St} (h : Stands p s) (hst : s.outward.sockets = t.outward.sockets) :
    Stands p t := by
  simp only [Outward.sockets, St.outward, Prod.mk.injEq] at hst
  obtain ⟨hfds, hnext, hfd, -⟩ := hst
  exact h.of_descriptors (Prod.ext hfds (Prod.ext hnext hfd))

/-- the socket is there, and no client -/
def Phase.Made (p : Phase) : Prop := ∀ fd, p.descs fd = [⟨fd, .listening, false⟩]

theorem Stands.number {p : Phase} {s : St} (h : Stands p s) (hp : p.descs 0 ≠ []) : 0 ≤ s.serverSocketFd := by
  rcases h.made with rfl | rfl | hnumber
  · exact absurd rfl hp
  · exact absurd rfl hp
  · exact hnumber

/-- from one phase of the socket to another one -/
theorem Stands.turn {p q : Phase} {s t : St} (h : Stands p s) (hst : descriptors s = descriptors t) (hp : p.Made)
    (hq : q.Made) : Stands q t := by
  have ht := h.of_descriptors hst
  refine ⟨?_, ht.fresh, Or.inr (Or.inr (ht.number (by simp [hp 0]))), ?_⟩
  · rw [ht.fds, hp, hq]
  · rintro fd rfl
    cases hq 0

theorem Stands.tick {p : Phase} {s : St} (h : Stands p s) (b : Bool) (n : ℕ) : Stands p ((s.setRunning b).tick n) :=
  ⟨h.fds, h.fresh, h.made, h.client⟩

/-- from one phase to another, each with its descriptors -/
def Leads {α : Type} (p : Phase) (x : Sys α) (s : St) (q : Phase) : Prop :=
  Watched endpoint p x s fun p' _ t => p' = q ∧ Stands q t

theorem Leads.seq {α β : Type} {p q : Phase} {x : Sys β} {f : β → Sys α} {s : St} {r : Phase → α → St → Prop}
    (hx : Leads p x s q) (hf : ∀ b t, Stands q t → Watched endpoint q (f b) t r) :
    Watched endpoint p (x >>= f) s r := by
  apply Watched.seq hx
  intro _ b t ⟨hp, ht⟩
  subst hp
  exact hf b t ht

/-! ## Parts that leave the descriptors alone -/

/-- an event that deals with no client leaves the phase alone, and is allowed while the endpoint is up -/
theorem step_offline {e : Event} (he : e.offline) (p : Phase) : p.step e = p := by
  cases e <;> first | rfl | cases he

theorem ruled_offline {p : Phase} {e : Event} {s : St} (he : e.offline) (hp : p.Up) : Ruled p e s := by
  cases e <;> first | exact trivial | exact hp | cases he

theorem up_offline {α : Type} {x : Sys α} {p : Phase} {s : St} (hx : Within offline x) (hp : p.Up) (hs : Stands p s) :
    Leads p x s p := by
  refine Watched.mono (Within.watched (J := (· = p)) hx rfl ?_ fun _ _ _ => False.elim) fun _ _ _ h => ?_
  · intro _ e t hk he hst
    subst hk
    refine ⟨⟨ruled_offline he hp, ?_⟩, step_offline he _⟩
    rw [step_offline he]
    exact (hs.of_sockets hst).fds
  · exact ⟨h.1, hs.of_sockets h.2⟩

/-- an event of a connection between its accept and its close -/
def Event.inside : Event → Bool
  | .read _ => true
  | .received _ => true
  | .logind _ _ => true
  | .reply _ => true
  | .served => true
  | e => e.offline

/-- the process may end in there, but not the observation -/
def inside : Footprint St Event Halt where
  allow e _ := Event.inside e
  halts e := e ≠ .cut
  rel s t := descriptors s = descriptors t
  refl _ := rfl
  trans := Eq.trans

theorem inside_of_offline {e : Event} (he : e.offline) : Event.inside e := by
  cases e <;> first | rfl | cases he

theorem Offline.inside {α : Type} {x : Sys α} (hx : Within offline x) : Within inside x := by
  refine hx.mono (fun _ _ => inside_of_offline) (fun _ => False.elim) fun s t hst => ?_
  have hst : s.outward.sockets = t.outward.sockets := hst
  simp only [Outward.sockets, St.outward, Prod.mk.injEq] at hst
  obtain ⟨hfds, hnext, hfd, -⟩ := hst
  exact Prod.ext hfds (Prod.ext hnext hfd)

theorem serving_leads {α : Type} {x : Sys α} {fd : ℤ} {s : St} (hx : Within inside x) (hs : Stands (.serving fd) s) :
    Leads (.serving fd) x s (.serving fd) := by
  have hserves : (Phase.serving fd).Serves := ⟨fd, rfl⟩
  refine Watched.mono (Within.watched (J := (· = .serving fd)) hx rfl ?_ ?_) fun _ _ _ h => ?_
  · intro _ e t hk he hst
    subst hk
    have hfds := (hs.of_descriptors hst).fds
    cases e <;> first | exact ⟨⟨trivial, hfds⟩, rfl⟩ | exact ⟨⟨hserves, hfds⟩, rfl⟩ |
      exact ⟨⟨Or.inr hserves, hfds⟩, rfl⟩ | cases he
  · intro _ e hk he
    subst hk
    exact Or.inl (Or.inr ⟨he, hserves⟩)
  · exact ⟨h.1, hs.of_descriptors h.2⟩

section Parts

variable (E : Env)

theorem inside_op {e : Event} (he : Event.inside e) {f : St → St} (hf : ∀ s, descriptors (f s) = descriptors s) :
    Within inside (op E e f) :=
  within_bind (within_get_bind fun _ => within_ite (within_act (fun _ => rfl) fun _ => rfl) (within_pure ())) fun _ =>
    within_act (fun _ => he) fun s => (hf s).symm

theorem reply_inside (resp : IpcMessage) : Within inside (reply E resp) := by
  refine within_bind (inside_op E rfl fun _ => rfl) fun _ => within_get_bind fun _ => ?_
  exact within_ite (within_halt (by simp [inside])) (within_pure _)

theorem handleLoginRequest_inside (req : IpcMessage) : Within inside (handleLoginRequest E req) := by
  rw [handleLoginRequest_eq]
  refine within_bind (Offline.inside (Domestic.offline (attempt_domestic E req))) fun ⟨failure, pam⟩ => ?_
  cases failure with
  | some message =>
    refine within_bind (reply_inside E _) fun _ => Offline.inside ?_
    exact within_bind (Domestic.offline (domestic_onPam E _)) fun _ => within_pure _
  | none => exact within_bind (reply_inside E _) fun _ => Offline.inside (serveSession_offline E req pam)

theorem processMessage_inside (req : IpcMessage) : Within inside (processMessage E req) := by
  unfold processMessage
  split
  · exact reply_inside E _
  · exact within_bind (inside_op E rfl fun _ => rfl) fun _ => within_get_bind fun _ => reply_inside E _
  · have hscan : Within inside (cacheSessions E) :=
      within_cacheSessions E (by simp [inside]) fun _ => inside_op E rfl fun _ => rfl
    exact within_bind hscan fun _ => within_get_bind fun _ => reply_inside E _
  · refine within_bind (within_ite (within_get_bind fun _ => ?_) (within_pure _)) fun _ => reply_inside E _
    exact within_bind (inside_op E rfl fun _ => rfl) fun _ => within_pure _
  · exact handleLoginRequest_inside E req
  · exact reply_inside E _

theorem readLoop_inside : ∀ (chunks : List Str) (accumulated : Str), Within inside (readLoop E accumulated chunks) := by
  intro chunks
  induction chunks with
  | nil => exact fun _ => inside_op E rfl fun _ => rfl
  | cons chunk chunks ih =>
    intro accumulated
    refine within_ite (inside_op E rfl fun _ => rfl) (within_bind (inside_op E rfl fun _ => rfl) fun _ => ?_)
    split
    · exact ih _
    · refine within_bind (inside_op E rfl fun _ => rfl) fun _ => ?_
      split
      · exact within_halt (by simp [inside])
      · refine within_bind (inside_op E rfl fun _ => rfl) fun _ => ?_
        exact within_bind (processMessage_inside E _) fun _ => inside_op E rfl fun _ => rfl

/-! ## Clients -/

variable {s : St}

/-- an operation under the endpoint's rules: the signal handler may have run before it -/
theorem endpoint_op {p : Phase} {e : Event} {f : St → St} {q : Phase → Unit → St → Prop} (hs : Stands p s)
    (hgood : ∀ b, endpoint.good p e ((f (s.setRunning b)).tick (s.now + 1)))
    (hq : ∀ b, q (p.step e) () ((f (s.setRunning b)).tick (s.now + 1))) : Watched endpoint p (op E e f) s q :=
  watched_op E ⟨trivial, hs.fds⟩ rfl fun b => ⟨hgood b, hq b⟩

/-- an operation that the phase allows, and that changes neither -/
theorem aside_op {p : Phase} {e : Event} {f : St → St} (hs : Stands p s) (hruled : ∀ t, Ruled p e t)
    (hstep : p.step e = p) (hf : ∀ t, descriptors (f t) = descriptors t) : Leads p (op E e f) s p := by
  have hstands : ∀ b, Stands p ((f (s.setRunning b)).tick (s.now + 1)) := fun b =>
    (hs.tick b (s.now + 1)).of_descriptors (hf (s.setRunning b)).symm
  exact endpoint_op E hs (fun b => ⟨hruled _, hstep.symm ▸ (hstands b).fds⟩) fun b => ⟨hstep, hstands b⟩

/-- a client is accepted: its descriptor is the next one -/
theorem accept_leads (hs : Stands .listening s) : Leads .listening (op E (.accept (some s.nextFd)) fun s => { s with
    fds := s.fds ++ [⟨s.nextFd, .client, false⟩], nextFd := s.nextFd + 1 }) s (.serving s.nextFd) := by
  obtain ⟨hlt, hnext⟩ := hs.fresh
  have hfds : s.fds ++ [⟨s.nextFd, .client, false⟩] = (Phase.serving s.nextFd).descs s.serverSocketFd :=
    congrArg (· ++ [(⟨s.nextFd, .client, false⟩ : Desc)]) hs.fds
  have hne : some s.nextFd ≠ some s.serverSocketFd := by
    simp only [ne_eq, Option.some.injEq]
    omega
  have hfresh : s.serverSocketFd < s.nextFd + 1 ∧ 0 ≤ s.nextFd + 1 := by omega
  have hnumber : 0 ≤ s.serverSocketFd := hs.number (List.cons_ne_nil _ _)
  refine endpoint_op E hs (fun b => ⟨⟨rfl, hne⟩, hfds⟩) fun b => ⟨rfl, hfds, hfresh, Or.inr (Or.inr hnumber), ?_⟩
  rintro fd heq
  cases heq
  exact ⟨hlt, Int.lt_succ _⟩

/-- the client's descriptor goes, the listening one stays -/
theorem close_leads {fd : ℤ} (hs : Stands (.serving fd) s) : Leads (.serving fd) (close E fd) s .listening := by
  obtain ⟨hlt, -⟩ := hs.client fd rfl
  have hkeep : s.fds.filter (fun d => d.fd ≠ fd) = Phase.listening.descs s.serverSocketFd := by
    have : s.serverSocketFd ≠ fd := by omega
    simp [hs.fds, Phase.descs, this]
  have hnumber : 0 ≤ s.serverSocketFd := hs.number (List.cons_ne_nil _ _)
  refine endpoint_op E hs (fun b => ⟨Or.inl rfl, hkeep⟩) fun b => ⟨rfl, hkeep, hs.fresh, Or.inr (Or.inr hnumber), ?_⟩
  rintro fd heq
  cases heq

theorem acceptClient_leads (hs : Stands .listening s) : Leads .listening (acceptClient E) s .listening := by
  refine watched_bind (watched_get ?_)
  split
  · exact aside_op E (e := .accept none) hs (fun _ => ⟨rfl, by simp⟩) rfl fun _ => rfl
  · rename_i chunks hchunks
    refine (accept_leads E hs).seq fun _ t ht => ?_
    have hconnection : Within inside (handleClientConnection E s.nextFd chunks) :=
      within_bind (inside_op E rfl fun _ => rfl) fun _ => within_bind (readLoop_inside E _ []) fun _ =>
        inside_op E rfl fun _ => rfl
    exact (serving_leads hconnection ht).seq fun _ u hu => close_leads E hu

theorem turn_leads (hs : Stands .listening s) : Leads .listening (turn E) s .listening := by
  have watch : ∀ t, Stands .listening t → Leads .listening (do watchGreeter E; return true) t .listening := by
    intro t ht
    exact (up_offline (watchGreeter_offline E) (Or.inl rfl) ht).seq fun _ u hu => watched_pure ⟨rfl, hu⟩
  refine (aside_op E (e := .head) hs (fun _ => rfl) rfl fun _ => rfl).seq fun _ t ht => watched_bind (watched_get ?_)
  refine watched_ite (fun _ => watched_pure ⟨rfl, ht⟩) fun _ => watched_bind (watched_get ?_)
  refine (aside_op E (e := .poll _) ht (fun _ => rfl) rfl fun _ => rfl).seq fun _ u hu => ?_
  split
  · exact watched_pure ⟨rfl, hu⟩
  · exact watched_pure ⟨rfl, hu⟩
  · exact (acceptClient_leads E hu).seq fun _ v hv => watch v hv
  · exact watch u hu

/-! ## The socket -/

/-- the socket is closed, whatever it was made for -/
theorem closed_leads {p : Phase} (hs : Stands p s) (hp : p = .failed ∨ p = .listening) :
    Leads p (close E s.serverSocketFd) s .closed := by
  have hmade : p.Made := by rcases hp with rfl | rfl <;> exact fun _ => rfl
  have hstep : p.step (.close s.serverSocketFd) = .closed := by rcases hp with rfl | rfl <;> rfl
  have hnone : s.fds.filter (fun d => d.fd ≠ s.serverSocketFd) = [] := by simp [hs.fds, hmade s.serverSocketFd]
  refine endpoint_op E hs (fun b => ⟨Or.inr ⟨hp, rfl⟩, hstep.symm ▸ hnone⟩) fun b => ⟨hstep, hnone, hs.fresh, ?_, ?_⟩
  · exact Or.inr (Or.inl rfl)
  · rintro fd heq
    cases heq

/-- its number is forgotten -/
theorem forget_leads (hs : Stands .closed s) :
    Leads .closed (op E .assign fun s => { s with serverSocketFd := -1 }) s .closed := by
  have hfresh : -1 < s.nextFd ∧ 0 ≤ s.nextFd := by
    have := hs.fresh.2
    omega
  refine endpoint_op E hs (fun b => ⟨trivial, hs.fds⟩) fun b => ⟨rfl, hs.fds, hfresh, Or.inr (Or.inl rfl), ?_⟩
  rintro fd heq
  cases heq

/-- what the setup comes to -/
def Settled (p : Phase) (ok : Bool) (t : St) : Prop :=
  ok = true ∧ p = .listening ∧ Stands .listening t ∨ ok = false ∧ p = .closed ∧ t.fds = []

theorem abandonSocket_settled (hs : Stands .failed s) :
    Watched endpoint .failed (abandonSocket E s.serverSocketFd) s Settled :=
  (closed_leads E hs (Or.inl rfl)).seq fun _ _ ht => (forget_leads E ht).seq fun _ _ hu =>
    watched_pure (Or.inr ⟨rfl, rfl, hu.fds⟩)

theorem bindAndListen_settled (path : Str) (hs : Stands .created s) :
    Watched endpoint .created (bindAndListen E path s.serverSocketFd) s Settled := by
  have abandons : ∀ {t : St}, descriptors s = descriptors t →
      Watched endpoint .failed (abandonSocket E s.serverSocketFd) t Settled := by
    intro t hst
    have hfd : s.serverSocketFd = t.serverSocketFd := congrArg (fun d => d.2.2) hst
    rw [hfd]
    exact abandonSocket_settled E (hs.turn hst (fun _ => rfl) fun _ => rfl)
  refine watched_bind (watched_get ?_)
  cases hbound : E.bind s.now with
  | false => exact watched_bind (endpoint_op E hs (fun b => ⟨rfl, hs.fds⟩) fun b => abandons rfl)
  | true =>
    refine Watched.seq (q := fun p _ t => p = .bound ∧ descriptors s = descriptors t) ?_ ?_
    · exact endpoint_op E hs (fun b => ⟨rfl, hs.fds⟩) fun b => ⟨rfl, rfl⟩
    intro _ _ t ⟨hp, hst⟩
    subst hp
    have ht : Stands .bound t := hs.turn hst (fun _ => rfl) fun _ => rfl
    refine watched_ite (fun hno => absurd rfl hno) fun _ => watched_bind (watched_get ?_)
    cases hlisten : E.listen t.now with
    | false => exact watched_bind (endpoint_op E ht (fun b => ⟨rfl, ht.fds⟩) fun b => abandons hst)
    | true =>
      refine watched_bind (endpoint_op E ht (fun b => ⟨rfl, ht.fds⟩) fun b => watched_pure (Or.inl ⟨rfl, rfl, ?_⟩))
      exact ht.turn rfl (fun _ => rfl) fun _ => rfl

theorem createSocket_endpoint (hs : Stands .absent s) :
    Watched endpoint .absent (createSocket E) s fun p ok t =>
      ok = true ∧ p = .created ∧ Stands .created t ∨ ok = false ∧ p = .closed ∧ t.fds = [] := by
  refine watched_bind (watched_get (watched_bind ?_))
  cases hcreated : E.socket s.now with
  | false => exact endpoint_op E hs (fun b => ⟨rfl, hs.fds⟩) fun b => watched_pure (Or.inr ⟨rfl, rfl, hs.fds⟩)
  | true =>
    obtain ⟨-, hnext⟩ := hs.fresh
    have hfds : s.fds ++ [⟨s.nextFd, .listening, false⟩] = Phase.created.descs s.nextFd :=
      congrArg (· ++ [(⟨s.nextFd, .listening, false⟩ : Desc)]) hs.fds
    have hfresh : s.nextFd < s.nextFd + 1 ∧ 0 ≤ s.nextFd + 1 := by omega
    refine endpoint_op E hs (fun b => ⟨rfl, hfds⟩) fun b => watched_pure (Or.inl ⟨rfl, rfl, hfds, hfresh, ?_, ?_⟩)
    · exact Or.inr (Or.inr hnext)
    · rintro fd heq
      cases heq

theorem init_settled : Watched endpoint .absent (init E) (boot E) Settled := by
  have aside : ∀ {e : Event} {f : St → St} {t : St}, (∀ u, Ruled .absent e u) → Phase.absent.step e = .absent →
      (∀ u, descriptors (f u) = descriptors u) → Stands .absent t → Leads .absent (op E e f) t .absent :=
    fun hruled hstep hf ht => aside_op E ht hruled hstep hf
  have hfresh : (-1 : ℤ) < 3 ∧ (0 : ℤ) ≤ 3 := by decide
  have hboot : Stands .absent (boot E) := ⟨rfl, hfresh, Or.inl rfl, fun fd h => by cases h⟩
  have hload : Leads .absent (loadConfig E) (boot E) .absent :=
    watched_loadConfig E (Or.inr ⟨rfl, rfl⟩) (aside (fun _ => trivial) rfl (fun _ => rfl) hboot)
  refine hload.seq fun _ t ht => ?_
  refine Leads.seq (aside (e := .assign) (fun _ => trivial) rfl (fun _ => rfl) ht) fun _ t ht => ?_
  have hscan : Leads .absent (cacheSessions E) t .absent :=
    watched_cacheSessions E (fun _ => Or.inr ⟨rfl, rfl⟩) fun _ _ => aside (fun _ => trivial) rfl (fun _ => rfl) ht
  refine hscan.seq fun _ t ht => watched_bind (watched_get ?_)
  refine Leads.seq (aside (e := .assign) (fun _ => trivial) rfl (fun _ => rfl) ht) fun _ t ht => ?_
  have hdirs : ∀ path, Leads .absent (createDirectories E path) t .absent := fun path =>
    watched_bind (watched_get (aside (fun _ => trivial) rfl (fun _ => rfl) ht))
  refine (hdirs _).seq fun _ t ht => ?_
  refine Leads.seq (aside (e := .unlink _) (fun _ => Or.inl rfl) rfl (fun _ => rfl) ht) fun _ t ht => ?_
  apply Watched.seq (createSocket_endpoint E ht)
  intro p ok t h
  rcases h with ⟨rfl, rfl, ht⟩ | ⟨rfl, rfl, hnone⟩
  · exact watched_bind (watched_get (bindAndListen_settled E _ ht))
  · exact watched_pure (Or.inr ⟨rfl, rfl, hnone⟩)

theorem cleanupIpcSocket_leads (hs : Stands .listening s) : Leads .listening (cleanupIpcSocket E) s .closed := by
  have hclose : Leads .listening (Prog.when (s.serverSocketFd ≥ 0) do
      close E s.serverSocketFd
      op E .assign fun s => { s with serverSocketFd := -1 }) s .closed := by
    refine watched_when (fun _ => (closed_leads E hs (Or.inr rfl)).seq fun _ _ ht => forget_leads E ht) fun hno => ?_
    exact absurd (hs.number (List.cons_ne_nil _ _)) hno
  refine watched_bind (watched_get (hclose.seq fun _ t ht => watched_ite (fun _ => ?_) fun _ => watched_pure ⟨rfl, ht⟩))
  exact aside_op E (e := .unlink _) ht (fun _ => Or.inr rfl) rfl fun _ => rfl

theorem run_endpoint (n : ℕ) (hs : Stands .listening s) :
    Watched endpoint .listening (run E n) s fun p _ t => p = .closed ∧ t.fds = [] := by
  have up : ∀ {α : Type} {x : Sys α} {t : St}, Within offline x → Stands .listening t →
      Leads .listening x t .listening := fun hx ht => up_offline hx (Or.inl rfl) ht
  refine Leads.seq (aside_op E (e := .assign) hs (fun _ => trivial) rfl fun _ => rfl) fun _ t ht => ?_
  refine (up (startGreeter_offline E) ht).seq fun _ t ht => ?_
  have hloop : Leads .listening (Prog.loop .cut (turn E) n) t .listening := by
    refine watched_loop (I := fun p t => p = .listening ∧ Stands .listening t)
      (fun p _ h => Or.inl (Or.inl ⟨rfl, h.1⟩)) ?_ n _ t
      ⟨rfl, ht⟩
    intro _ t ⟨hp, ht⟩
    subst hp
    exact Watched.mono (turn_leads E ht) fun _ goes _ h => by cases goes <;> exact h
  refine hloop.seq fun _ t ht => ?_
  refine (up (stopGreeter_offline E) ht).seq fun _ t ht => ?_
  refine (up (terminate_offline E) ht).seq fun _ t ht => ?_
  refine (cleanupIpcSocket_leads E ht).seq fun _ t ht => ?_
  exact endpoint_op E ht (fun b => ⟨rfl, ht.fds⟩) fun b => ⟨rfl, ht.fds⟩

theorem main_endpoint (n : ℕ) :
    Watched endpoint .absent (main E n) (boot E) fun p _ t => p = .closed ∧ t.fds = [] := by
  apply Watched.seq (init_settled E)
  intro p ok t h
  rcases h with ⟨rfl, rfl, ht⟩ | ⟨rfl, rfl, hnone⟩
  · exact run_endpoint E n ht
  · exact watched_pure ⟨rfl, hnone⟩

end Parts

/-- **The rules of the endpoint.** At every moment of every run the event is one that the phase allows, the descriptors
that are open are those of the phase, and the path of the socket is gone when `run` returns; and a run that returns,
whether the setup succeeded or not, leaves no descriptor open. -/
theorem endpoint_rules (E : Env) (n : ℕ) :
    (∀ pre post e s, history E n = pre ++ (e, s) :: post → Ruled (phase (events pre)) e s ∧
      s.fds = ((phase (events pre)).step e).descs s.serverSocketFd ∧
      (e = .finished → s.socketPath ∉ s.sockets)) ∧
    ∀ u, (main E n (boot E)).fin = .ok u → (main E n (boot E)).st.fds = [] := by
  have hmain := main_endpoint E n
  constructor
  · intro pre post e s hsplit
    have hgood := endpoint.accepts_split (Watched.accepts hmain) hsplit
    rw [after_eq_phase] at hgood
    refine ⟨hgood.1, hgood.2, fun he => ?_⟩
    subst he
    exact (history_moments E n (.finished, s) (by simp [hsplit])).2
  · intro u hu
    exact (Sat.of_ok hmain hu).2.2

/-! ## Clients are closed -/

/-- a client is served, or closed -/
theorem serving_step {fd : ℤ} {e : Event} {s : St} (h : Ruled (.serving fd) e s) :
    e = .close fd ∨ Event.inside e ∧ (Phase.serving fd).step e = .serving fd := by
  cases e with
  | unlink path => rcases h with h | h <;> cases h
  | close fd' =>
    rcases h with h | ⟨h | h, -⟩
    · cases h
      exact Or.inl rfl
    · cases h
    · cases h
  | accept fd' => cases h.1
  | socket ok => cases h
  | bind path ok => cases h
  | listen ok => cases h
  | head => cases h
  | poll answer => cases h
  | finished => cases h
  | _ => exact Or.inr ⟨rfl, rfl⟩

/-- from the accept on: closed after events of the connection, or still served -/
theorem since_accept {fd : ℤ} {l : List (Event × St)} (h : endpoint.accepts (.serving fd) l) :
    (∃ mid t rest, l = mid ++ (.close fd, t) :: rest ∧ ∀ p ∈ mid, Event.inside p.1) ∨
    (∀ p ∈ l, Event.inside p.1) ∧ endpoint.after (.serving fd) l = .serving fd := by
  induction l with
  | nil => exact Or.inr ⟨by simp, rfl⟩
  | cons p l ih =>
    obtain ⟨e, s⟩ := p
    rcases serving_step h.1.1 with rfl | ⟨hinside, hstep⟩
    · exact Or.inl ⟨[], s, l, rfl, by simp⟩
    have hrest : endpoint.accepts ((Phase.serving fd).step e) l := h.2
    rw [hstep] at hrest
    have hafter : endpoint.after (.serving fd) ((e, s) :: l) = endpoint.after (.serving fd) l := by
      rw [Monitor.after_cons, show endpoint.step (.serving fd) e = .serving fd from hstep]
    rcases ih hrest with ⟨mid, t, rest, rfl, hmid⟩ | ⟨hl, hserving⟩
    · exact Or.inl ⟨(e, s) :: mid, t, rest, rfl, List.forall_mem_cons.2 ⟨hinside, hmid⟩⟩
    · exact Or.inr ⟨List.forall_mem_cons.2 ⟨hinside, hl⟩, hafter.trans hserving⟩

/-- **Clients are closed.** After a client was accepted, its descriptor is closed before anything else is accepted or
polled for; or the process ends while it serves this client. -/
theorem clients_closed {E : Env} {n : ℕ} {pre post : List (Event × St)} {fd : ℤ} {s : St}
    (h : history E n = pre ++ (.accept (some fd), s) :: post) :
    (∃ mid t rest, post = mid ++ (.close fd, t) :: rest ∧ ∀ p ∈ mid, Event.inside p.1) ∨
    (∀ p ∈ post, Event.inside p.1) ∧ ∃ halt, (main E n (boot E)).fin = .error halt ∧ halt ≠ .cut := by
  have hmain := main_endpoint E n
  have haccepts : endpoint.accepts .absent (pre ++ (.accept (some fd), s) :: post) := h ▸ Watched.accepts hmain
  rw [Monitor.accepts_append, Monitor.accepts_cons] at haccepts
  have hrest : endpoint.accepts (.serving fd) post := haccepts.2.2
  rcases since_accept hrest with hclosed | ⟨hinside, hafter⟩
  · exact Or.inl hclosed
  refine Or.inr ⟨hinside, ?_⟩
  have hserving : endpoint.after .absent (history E n) = .serving fd := by
    rw [h, Monitor.after_append, Monitor.after_cons]
    exact hafter
  cases hfin : (main E n (boot E)).fin with
  | ok u =>
    have hclosed : endpoint.after .absent (history E n) = .closed := (Sat.of_ok hmain hfin).2.1
    rw [hserving] at hclosed
    cases hclosed
  | error halt =>
    have hstops : endpoint.stops (endpoint.after .absent (history E n)) halt := (Sat.of_error hmain hfin).2
    rw [hserving] at hstops
    rcases hstops with (⟨-, hp⟩ | ⟨hne, -⟩) | ⟨-, hp⟩
    · cases hp
    · exact ⟨halt, rfl, hne⟩
    · cases hp

/-! ## Witnesses -/

/-- alice logs in -/
def demo : Env := machine [greeterAccount, alice] [] (loginOf "alice")

def launchesOnClient : Event × St → Bool
  | (.launch _ _, s) => s.serverSocketFd = 3
  | _ => false

/-- her session is launched while her client is served: both sockets are open -/
theorem endpoint_rules_demo : ∃ pre post e s, history demo 1 = pre ++ (e, s) :: post ∧
    phase (events pre) = .serving 4 ∧ s.fds = [⟨3, .listening, false⟩, ⟨4, .client, false⟩] := by
  obtain ⟨⟨e, s⟩, hlaunch, hsplit⟩ :=
    split_any (l := history demo 1) (m := 103) (f := launchesOnClient) (by decide +kernel)
  have hphase : phase (events ((history demo 1).take 103)) = .serving 4 := by decide +kernel
  obtain ⟨-, hfds, -⟩ := (endpoint_rules demo 1).1 _ _ e s hsplit
  refine ⟨_, _, e, s, hsplit, hphase, ?_⟩
  cases e with
  | launch user session =>
    have hfd : s.serverSocketFd = 3 := of_decide_eq_true hlaunch
    rw [hfds, hphase, hfd]
    rfl
  | _ => cases hlaunch

/-- her client is closed -/
theorem clients_closed_demo : ∃ pre post s, history demo 1 = pre ++ (.accept (some 4), s) :: post ∧
    ∃ mid t rest, post = mid ++ (.close 4, t) :: rest ∧ ∀ p ∈ mid, Event.inside p.1 := by
  obtain ⟨s, -, hsplit⟩ := split_at (l := history demo 1) (m := 26) (a := .accept (some 4)) (by decide +kernel)
  refine ⟨_, _, s, hsplit, ?_⟩
  rcases clients_closed hsplit with hclosed | ⟨-, halt, hfin, hne⟩
  · exact hclosed
  · have hcut : (main demo 1 (boot demo)).fin = .error .cut := by decide +kernel
    rw [hcut] at hfin
    cases hfin
    exact absurd rfl hne

end Miqudm.Endpoint
