/-
What each part of the daemon leaves alone.

An erasure such as `apartGreeter` resets the members that a part of the daemon may change; two states with the same
erasure agree on every other member. `calmly g` is the footprint of a part that always returns, keeps `g`, and shows none
of the moments the results are about (a fork, a reply, the bounds of a request, a launch, a greeter being stopped, the
head of the loop, the return of `run`). `quietly g` also allows the fork of a greeter while none is tracked.

Every child inherits the descriptors of the moment it was forked at (`Inherits`).
-/
import Miqudm.Daemon.Daemon

namespace Miqudm

open Miqudm.Core Prog

/-! ## Erasures -/

/-- everything but the clock and the flag that a signal clears -/
def apartClock (s : St) : St := { s with now := 0, running := false }

def apartPam (s : St) : St := { s with now := 0, running := false, pam := {} }

def apartDirs (s : St) : St := { s with now := 0, running := false, dirs := [] }

def apartGreeterPam (s : St) : St := { s with now := 0, running := false, pam := {}, greeterPam := none }

def apartActivePam (s : St) : St := { s with now := 0, running := false, pam := {}, activePam := none }

def apartSession (s : St) : St := { s with now := 0, running := false, sessionPid := 0 }

def apartConfig (s : St) : St := { s with now := 0, running := false, config := {}, files := [] }

/-- what starting a greeter changes before the fork -/
def apartRuntime (s : St) : St := { s with now := 0, running := false, pam := {}, dirs := [], greeterPam := none }

def apartGreeter (s : St) : St :=
  { s with now := 0, running := false, pam := {}, dirs := [], greeterPam := none, greeterPid := 0 }

/-- what serving a session changes -/
def apartLogin (s : St) : St := { s with
  now := 0, running := false, pam := {}, dirs := [], greeterPam := none, greeterPid := 0
  activePam := none, sessionPid := 0, config := {}, files := [] }

/-- what handling a request changes -/
def apartRequest (s : St) : St := { s with
  now := 0, running := false, pam := {}, dirs := [], greeterPam := none, greeterPid := 0
  activePam := none, sessionPid := 0, config := {}, files := [], cachedUsers := [], cachedSessions := [] }

def apartSessions (s : St) : St := { s with now := 0, running := false, cachedSessions := [] }

def apartSockets (s : St) : St := { s with
  now := 0, running := false, dirs := [], sockets := [], fds := [], nextFd := 0, serverSocketFd := 0, socketPath := [] }

/-- what `init` changes -/
def apartSetup (s : St) : St := { s with
  now := 0, running := false, dirs := [], sockets := [], fds := [], nextFd := 0, serverSocketFd := 0, socketPath := []
  config := {}, cachedUsers := [], cachedSessions := [] }

/-- a part that may change anything -/
def apartAll (_ : St) : St := {}

/-- what does not look at the erased members is the same: a member that is kept, or a larger erasure -/
theorem same_of_erased {γ : Type} {g : St → St} {s t : St} (h : g s = g t) {p : St → γ} (hp : ∀ s, p (g s) = p s) :
    p s = p t := by
  rw [← hp s, h, hp t]

/-! ## Footprints -/

def Event.calm : Event → Bool
  | .fork _ _ => false
  | .reply _ => false
  | .received _ => false
  | .served => false
  | .stopGreeter => false
  | .launch _ _ => false
  | .head => false
  | .finished => false
  | _ => true

/-- the child of a fork inherits the descriptors of the moment, except for those that close on exec -/
def Inherits (r : Option (Pid × Child)) (s : St) : Prop :=
  ∀ pid child image, r = some (pid, child) → child.fate = .exec image → image.fds = keptAcrossExec s.fds

theorem inherits_map {r : Option Pid} {child : Child} {s t : St} (hfds : s.fds = t.fds)
    (h : ∀ image, child.fate = .exec image → image.fds = keptAcrossExec s.fds) :
    Inherits (r.map fun pid => (pid, child)) t := by
  rintro pid child' image hr himage
  obtain ⟨_, -, heq⟩ := Option.map_eq_some_iff.1 hr
  rw [← (Prod.mk.inj heq).2] at himage
  rw [← hfds]
  exact h image himage

def Event.quiet : Event → St → Prop
  | .fork .greeter r, s => s.greeterPid ≤ 0 ∧ Inherits r s
  | e, _ => e.calm

theorem Event.quiet_of_calm {e : Event} {s : St} (h : e.calm) : e.quiet s := by
  unfold Event.quiet
  split
  · simp [Event.calm] at h
  · exact h

def calmly (g : St → St) : Footprint St Event Halt where
  allow e _ := e.calm
  halts _ := False
  rel s t := g s = g t
  refl _ := rfl
  trans := Eq.trans

/-- a calm part that looks for the configuration, or scans for sessions, which may end it -/
def scanning (g : St → St) : Footprint St Event Halt where
  allow e _ := e.calm
  halts h := h = .filesystemError
  rel s t := g s = g t
  refl _ := rfl
  trans := Eq.trans

def quietly (g : St → St) : Footprint St Event Halt where
  allow := Event.quiet
  halts _ := False
  rel s t := g s = g t
  refl _ := rfl
  trans := Eq.trans

section Wider

variable {α : Type} {x : Sys α} {g g' : St → St}

theorem Calm.wider (h : Within (calmly g) x) (hg : ∀ s, g' (g s) = g' s) : Within (calmly g') x :=
  h.mono (fun _ _ => id) (fun _ => id) fun _ _ h => same_of_erased h hg

theorem Calm.quiet (h : Within (calmly g) x) : Within (quietly g) x :=
  h.mono (fun _ _ => Event.quiet_of_calm) (fun _ => id) fun _ _ => id

theorem Calm.scanning (h : Within (calmly g) x) : Within (scanning g) x :=
  h.mono (fun _ _ => id) (fun _ => False.elim) fun _ _ => id

theorem Scanning.wider (h : Within (scanning g) x) (hg : ∀ s, g' (g s) = g' s) : Within (scanning g') x :=
  h.mono (fun _ _ => id) (fun _ => id) fun _ _ h => same_of_erased h hg

theorem Quiet.wider (h : Within (quietly g) x) (hg : ∀ s, g' (g s) = g' s) : Within (quietly g') x :=
  h.mono (fun _ _ => id) (fun _ => id) fun _ _ h => same_of_erased h hg

/-- a calm part that starts where earlier ones led, with a guarantee for the moments on the way -/
theorem Scanning.safe {G : Event → St → Prop} {s t : St} (h : Within (scanning g) x) (hst : g s = g t)
    (hG : ∀ e u, e.calm → g s = g u → G e u) : Safe G x t (fun _ u => g s = g u) :=
  Safe.mono (Within.safe h fun e u he hr => hG e u he (Eq.trans hst hr)) fun _ _ hr => Eq.trans hst hr

theorem Calm.safe {G : Event → St → Prop} {s t : St} (h : Within (calmly g) x) (hst : g s = g t)
    (hG : ∀ e u, e.calm → g s = g u → G e u) : Safe G x t (fun _ u => g s = g u) := Scanning.safe (Calm.scanning h) hst hG

theorem Quiet.safe {G : Event → St → Prop} {s t : St} (h : Within (quietly g) x) (hst : g s = g t)
    (hG : ∀ e u, e.quiet u → g s = g u → G e u) : Safe G x t (fun _ u => g s = g u) :=
  Safe.mono (Within.safe h fun e u he hr => hG e u he (Eq.trans hst hr)) fun _ _ hr => Eq.trans hst hr

end Wider

section Parts

variable (E : Env)

/-- an operation under a monitor: the signal handler may have run before it -/
theorem watched_op {κ : Type} {M : Monitor Event St Halt κ} {k : κ} {s : St} {e : Event} {f : St → St}
    {q : κ → Unit → St → Prop} (hstop : M.good k .stop (s.setRunning false)) (hk : M.step k .stop = k)
    (h : ∀ b, M.good k e ((f (s.setRunning b)).tick (s.now + 1)) ∧
      q (M.step k e) () ((f (s.setRunning b)).tick (s.now + 1))) : Watched M k (op E e f) s q := by
  refine watched_bind (watched_bind (watched_get (watched_ite (fun _ => watched_act hstop ?_) fun _ => watched_pure ?_)))
  · rw [hk]
    exact watched_act (h false).1 (h false).2
  · exact watched_act (h s.running).1 (h s.running).2

theorem safe_op {G : Event → St → Prop} {s : St} {e : Event} {f : St → St} {q : Unit → St → Prop}
    (hstop : G .stop (s.setRunning false))
    (h : ∀ b, G e ((f (s.setRunning b)).tick (s.now + 1)) ∧ q () ((f (s.setRunning b)).tick (s.now + 1))) :
    Safe G (op E e f) s q := watched_op E hstop rfl h

/-- the search for the configuration under a monitor: it ends the process, or the configuration is loaded -/
theorem watched_loadConfig {κ : Type} {M : Monitor Event St Halt κ} {k : κ} {s : St} {q : κ → Unit → St → Prop}
    (hhalt : M.stops k .filesystemError)
    (h : Watched M k (op E .assign fun s => { s with config := (s.config.load s.readable (s.pathExists E) []).2 }) s q) :
    Watched M k (loadConfig E) s q :=
  watched_bind (watched_get (watched_ite (fun _ => watched_halt hhalt) fun _ => h))

theorem safe_loadConfig {G : Event → St → Prop} {s : St} {q : Unit → St → Prop}
    (h : Safe G (op E .assign fun s => { s with config := (s.config.load s.readable (s.pathExists E) []).2 }) s q) :
    Safe G (loadConfig E) s q := watched_loadConfig E trivial h

/-- a session scan under a monitor: it ends the process, or the sessions it finds are kept -/
theorem watched_cacheSessions {κ : Type} {M : Monitor Event St Halt κ} {k : κ} {s : St} {q : κ → Unit → St → Prop}
    (hhalt : scanAll (E.listing s.now) = none → M.stops k .filesystemError)
    (h : ∀ sessions, scanAll (E.listing s.now) = some sessions →
      Watched M k (op E .assign fun s => { s with cachedSessions := sessions }) s q) :
    Watched M k (cacheSessions E) s q := by
  refine watched_bind (watched_get ?_)
  split
  case _ hscan => exact watched_halt (hhalt hscan)
  case _ sessions hscan => exact h sessions hscan

theorem safe_cacheSessions {G : Event → St → Prop} {s : St} {q : Unit → St → Prop}
    (h : ∀ sessions, scanAll (E.listing s.now) = some sessions →
      Safe G (op E .assign fun s => { s with cachedSessions := sessions }) s q) : Safe G (cacheSessions E) s q :=
  watched_cacheSessions E (fun _ => trivial) h

/-- a footprint that allows for the exception of a scan -/
theorem within_loadConfig {F : Footprint St Event Halt} (hhalt : F.halts .filesystemError)
    (h : Within F (op E .assign fun s => { s with config := (s.config.load s.readable (s.pathExists E) []).2 })) :
    Within F (loadConfig E) := within_get_bind fun _ => within_ite (within_halt hhalt) h

theorem within_cacheSessions {F : Footprint St Event Halt} (hhalt : F.halts .filesystemError)
    (h : ∀ sessions, Within F (op E .assign fun s => { s with cachedSessions := sessions })) :
    Within F (cacheSessions E) := by
  refine within_get_bind fun _ => ?_
  split
  · exact within_halt hhalt
  · exact h _

/-- the log of an operation: a signal may have been handled, then comes its event with the state it leads to -/
theorem op_spec (e : Event) (f : St → St) (s : St) :
    Sat (op E e f) s (fun l _ t => ∃ pre, l = pre ++ [(e, t)] ∧ ∀ p ∈ pre, p.1 = .stop) (fun _ _ _ => False) := by
  simp only [op, interfere, sat_bind, sat_get, sat_ite, sat_act, sat_pure]
  exact ⟨fun _ => ⟨_, rfl, by simp⟩, fun _ => ⟨[], rfl, by simp⟩⟩

theorem interfere_calm : Within (calmly apartClock) (interfere E) :=
  within_get_bind fun _ => within_ite (within_act (fun _ => rfl) fun _ => rfl) (within_pure ())

/-- an operation that changes only what the erasure resets -/
theorem op_calm {g : St → St} (hg : ∀ s, g (apartClock s) = g s) {e : Event} (he : e.calm)
    {f : St → St} (hf : ∀ s, g ((f s).tick (s.now + 1)) = g s) : Within (calmly g) (op E e f) :=
  within_bind (Calm.wider (interfere_calm E) hg) fun _ => within_act (fun _ => he) fun s => (hf s).symm

theorem op_id_calm {e : Event} (he : e.calm) : Within (calmly apartClock) (op E e id) :=
  op_calm E (fun _ => rfl) he fun _ => rfl

theorem onPam_calm {α : Type} (x : PamM α) : Within (calmly apartPam) (onPam E x) :=
  within_bind (Calm.wider (interfere_calm E) fun _ => rfl) fun _ =>
    within_zoom x (fun _ _ _ => rfl) fun _ _ => rfl

theorem readRunning_calm : Within (calmly apartClock) (readRunning E) :=
  within_bind (op_id_calm E rfl) fun _ => within_get_bind fun _ => within_pure _

theorem isRunning_calm : Within (calmly apartClock) (isRunning E) :=
  within_get_bind fun _ => within_ite (within_pure _) (within_bind (op_id_calm E rfl) fun _ => within_pure _)

theorem killBoth_calm (pid : ℤ) (sig : Signal) : Within (calmly apartClock) (killBoth E pid sig) :=
  within_bind (op_id_calm E rfl) fun _ => op_id_calm E rfl

theorem powerCall_calm (action : Str) : Within (calmly apartClock) (powerCall E action) :=
  within_ite (within_get_bind fun _ => within_bind (op_id_calm E rfl) fun _ => within_pure _) (within_pure _)

/-! ## Directories and sockets -/

theorem createDirectories_calm (path : Str) : Within (calmly apartDirs) (createDirectories E path) :=
  within_get_bind fun _ => op_calm E (fun _ => rfl) rfl fun _ => rfl

theorem close_calm (fd : ℤ) : Within (calmly apartSockets) (close E fd) := op_calm E (fun _ => rfl) rfl fun _ => rfl

theorem unlink_calm (path : Str) : Within (calmly apartSockets) (unlink E path) :=
  op_calm E (fun _ => rfl) rfl fun _ => rfl

theorem cleanupIpcSocket_calm : Within (calmly apartSockets) (cleanupIpcSocket E) :=
  within_get_bind fun _ => within_bind (within_when (within_bind (close_calm E _) fun _ =>
    op_calm E (fun _ => rfl) rfl fun _ => rfl)) fun _ => within_ite (unlink_calm E _) (within_pure ())

theorem setupIpcSocket_calm : Within (calmly apartSockets) (setupIpcSocket E) := by
  have step : ∀ {e : Event} {f : St → St}, e.calm → (∀ s, apartSockets ((f s).tick (s.now + 1)) = apartSockets s) →
      Within (calmly apartSockets) (op E e f) := fun he hf => op_calm E (fun _ => rfl) he hf
  have abandons : ∀ fd, Within (calmly apartSockets) (abandonSocket E fd) := fun fd =>
    within_bind (close_calm E fd) fun _ => within_bind (step rfl fun _ => rfl) fun _ => within_pure _
  refine within_get_bind fun s => within_bind (step rfl fun _ => rfl) fun _ => ?_
  refine within_bind (Calm.wider (createDirectories_calm E _) fun _ => rfl) fun _ => ?_
  apply within_bind (unlink_calm E _)
  intro _
  refine within_bind (within_get_bind fun _ => within_bind (step rfl fun s => ?_) fun _ => within_pure _) ?_
  · split_ifs <;> rfl
  refine fun _ => within_ite (within_get_bind fun _ => ?_) (within_pure _)
  refine within_get_bind fun _ => within_bind (step rfl fun _ => rfl) fun _ => within_ite (abandons _) ?_
  exact within_get_bind fun _ => within_bind (step rfl fun _ => rfl) fun _ => within_ite (abandons _) (within_pure _)

theorem cacheSessions_scanning : Within (scanning apartSessions) (cacheSessions E) :=
  within_cacheSessions E rfl fun _ => Calm.scanning (op_calm E (fun _ => rfl) rfl fun _ => rfl)

theorem init_scanning : Within (scanning apartSetup) (init E) := by
  have step : ∀ {f : St → St}, (∀ s, apartSetup ((f s).tick (s.now + 1)) = apartSetup s) →
      Within (scanning apartSetup) (op E .assign f) := fun hf => Calm.scanning (op_calm E (fun _ => rfl) rfl hf)
  exact within_bind (within_loadConfig E rfl (step fun _ => rfl)) fun _ => within_bind (step fun _ => rfl) fun _ =>
    within_bind (Scanning.wider (cacheSessions_scanning E) fun _ => rfl) fun _ =>
    Calm.scanning (Calm.wider (setupIpcSocket_calm E) fun _ => rfl)

/-- `init` finds out where its configuration is, and scans for the sessions (at the instants 0 and 2) -/
def Looks : Prop :=
  Config.searchThrows (E.statusTold 0) ((boot E).pathExists E) [] = false ∧ (scanAll (E.listing 2)).isSome

/-- `init` returns exactly if it can look for what it needs -/
theorem init_looks : Sat (init E) (boot E) (fun _ _ _ => Looks E) (fun _ e _ => e = .filesystemError ∧ ¬ Looks E) := by
  have step : ∀ {f : St → St} {s : St} {n : ℕ}, s.now = n →
      Sat (op E .assign f) s (fun _ _ t => t.now = n + 1) (fun _ _ _ => False) := by
    intro f s n hnow
    simp [op, interfere, sat_bind, sat_ite, St.tick, St.setRunning, hnow]
  refine (sat_bind _ _).2 ((sat_bind _ _).2 (sat_get.2 ((sat_ite _ _ _).2 ⟨fun hthrows => ?_, fun hfound => ?_⟩)))
  · refine ⟨rfl, fun h => ?_⟩
    exact Bool.false_ne_true (h.1.symm.trans hthrows)
  refine Sat.mono (step (n := 0) (s := boot E) rfl) (fun _ _ s hs => ?_) fun _ _ _ => False.elim
  refine (sat_bind _ _).2 (Sat.mono (step (n := 1) hs) (fun _ _ t ht => ?_) fun _ _ _ => False.elim)
  refine (sat_bind _ _).2 ((sat_bind _ _).2 (sat_get.2 ?_))
  rw [show t.now = 2 from ht]
  split
  case _ hscan =>
    refine ⟨rfl, fun h => ?_⟩
    rw [Looks, hscan] at h
    cases h.2
  case _ sessions hscan =>
    refine Sat.mono (step ht) (fun _ _ u _ => ?_) fun _ _ _ => False.elim
    have hlooks : Looks E := ⟨Bool.eq_false_iff.2 hfound, by rw [hscan]; rfl⟩
    exact Sat.mono (setupIpcSocket_calm E u) (fun _ _ _ _ => hlooks) fun _ _ _ h => h.2.elim

/-! ## Releasing PAM objects -/

theorem releasePam_calm (pam : PamAuth) : Within (calmly apartPam) (releasePam E pam) :=
  within_bind (onPam_calm E _) fun ⟨_, _⟩ => within_bind (onPam_calm E _) fun ⟨_, _⟩ =>
    within_bind (onPam_calm E _) fun _ => within_bind (onPam_calm E _) fun _ => within_pure _

theorem destroy_calm (old : Option PamAuth) : Within (calmly apartPam) (destroy E old) := by
  cases old with
  | none => exact within_pure _
  | some pam => exact within_bind (onPam_calm E _) fun _ => within_pure _

theorem releaseGreeterPam_calm : Within (calmly apartGreeterPam) (releaseGreeterPam E) := by
  apply within_get_bind
  intro s
  split
  · refine within_bind ?_ fun _ => op_calm E (fun _ => rfl) rfl fun _ => rfl
    exact Calm.wider (releasePam_calm E _) fun _ => rfl
  · exact within_pure _

theorem releaseActivePam_calm : Within (calmly apartActivePam) (releaseActivePam E) := by
  apply within_get_bind
  intro s
  split
  · refine within_bind ?_ fun _ => op_calm E (fun _ => rfl) rfl fun _ => rfl
    exact Calm.wider (releasePam_calm E _) fun _ => rfl
  · exact within_pure _

/-! ## The greeter -/

theorem renewGreeterPam_calm : Within (calmly apartGreeterPam) (renewGreeterPam E) :=
  within_get_bind fun _ => within_bind (op_calm E (fun _ => rfl) rfl fun _ => rfl) fun _ =>
    Calm.wider (destroy_calm E _) fun _ => rfl

theorem setGreeterPam_calm (pam : PamAuth) : Within (calmly apartGreeterPam) (setGreeterPam E pam) :=
  op_calm E (fun _ => rfl) rfl fun _ => rfl

theorem openGreeterPam_calm (pam : PamAuth) (vt : ℤ) : Within (calmly apartGreeterPam) (openGreeterPam E pam vt) := by
  have step : ∀ {α : Type} (x : PamM α), Within (calmly apartGreeterPam) (onPam E x) :=
    fun x => Calm.wider (onPam_calm E x) fun _ => rfl
  exact within_bind (step _) fun _ => within_bind (step _) fun _ => within_bind (step _) fun _ =>
    within_bind (step _) fun _ => within_bind (step _) fun ⟨_, _⟩ => within_bind (setGreeterPam_calm E _) fun _ =>
    within_bind (step _) fun ⟨_, _⟩ => setGreeterPam_calm E _

theorem makeRuntimeDir_calm (pw : Option Passwd) : Within (calmly apartDirs) (makeRuntimeDir E pw) := by
  unfold makeRuntimeDir
  split
  · exact within_get_bind fun _ => within_bind (within_when (createDirectories_calm E _)) fun _ => within_pure _
  · exact within_bind (createDirectories_calm E _) fun _ => within_pure _

theorem awaitGreeter_calm : ∀ n, Within (calmly apartGreeter) (awaitGreeter E n) := by
  intro n
  induction n with
  | zero => exact within_pure _
  | succ n ih =>
    have step : ∀ {e : Event}, e.calm → Within (calmly apartGreeter) (op E e id) :=
      fun he => Calm.wider (op_id_calm E he) fun _ => rfl
    refine within_get_bind fun s => within_bind (step rfl) fun _ => ?_
    refine within_ite (within_bind (step rfl) fun _ => ih) ?_
    exact op_calm E (fun _ => rfl) rfl fun _ => rfl

theorem stopGreeterProcess_calm (pid : ℤ) : Within (calmly apartGreeter) (stopGreeterProcess E pid) := by
  have kill : ∀ sig, Within (calmly apartGreeter) (killBoth E pid sig) :=
    fun sig => Calm.wider (killBoth_calm E pid sig) fun _ => rfl
  have step : ∀ {e : Event}, e.calm → Within (calmly apartGreeter) (op E e id) :=
    fun he => Calm.wider (op_id_calm E he) fun _ => rfl
  refine within_bind (kill _) fun _ => within_bind (awaitGreeter_calm E 20) fun _ => within_get_bind fun _ => ?_
  refine within_ite (within_bind (kill _) fun _ => within_get_bind fun _ => within_bind (step rfl) fun _ => ?_)
    (within_pure _)
  exact op_calm E (fun _ => rfl) rfl fun _ => rfl

theorem greeterChild_inherits (pw : Option Passwd) (cmd runtimeDir : Str) (s : St) (a : ChildAnswers) {image : Image}
    (h : (greeterChild E pw cmd runtimeDir s a).fate = .exec image) : image.fds = keptAcrossExec s.fds := by
  simp only [greeterChild] at h
  split at h
  · cases h
  · split at h
    · cases h
    · cases h
      rfl

/-- **Starting a greeter, moment by moment.** Up to the fork nothing but the runtime changes; the fork happens while no
greeter is tracked, for the account resolved at the start; after it the pid may be noted. -/
theorem startGreeter_safe {G : Event → St → Prop} {s : St}
    (hcalm : ∀ e t, e.calm → apartRuntime s = apartRuntime t → G e t)
    (hfork : s.greeterPid ≤ 0 → ∀ t, apartRuntime s = apartRuntime t → ∀ runtimeDir u, u.now = t.now + 1 →
      apartClock t = apartClock u → G (.fork .greeter ((E.fork t.now).map fun pid => (pid,
        greeterChild E (resolveGreeterUser (E.passwd s.now) s.config.general.greeterUser).1
          s.config.general.greeterCommand runtimeDir t (E.child t.now)))) u)
    (hpid : ∀ e t, e.calm → apartGreeter s = apartGreeter t → G e t) :
    Safe G (startGreeter E) s (fun _ t => apartGreeter s = apartGreeter t) := by
  have part : ∀ {α : Type} {x : Sys α} {t : St}, Within (calmly apartRuntime) x → apartRuntime s = apartRuntime t →
      Safe G x t (fun _ u => apartRuntime s = apartRuntime u) := fun hx ht => Calm.safe hx ht hcalm
  have toGreeter : ∀ {t}, apartRuntime s = apartRuntime t → apartGreeter s = apartGreeter t :=
    fun h => same_of_erased h fun _ => rfl
  refine safe_bind (safe_get (safe_ite (fun _ => safe_pure rfl) fun hc => ?_))
  have hpid0 : s.greeterPid ≤ 0 := by
    by_contra hlt
    exact hc (Or.inl (by omega))
  refine Safe.seq (part (Calm.wider (renewGreeterPam_calm E) fun _ => rfl) rfl) fun _ t ht => ?_
  refine Safe.seq (part (Calm.wider (onPam_calm E _) fun _ => rfl) ht) ?_
  rintro ⟨ok, pam⟩ t ht
  refine Safe.seq (part (Calm.wider (setGreeterPam_calm E pam) fun _ => rfl) ht) fun _ t ht => ?_
  have hopen : Within (calmly apartRuntime) (Prog.when ok (openGreeterPam E pam s.config.general.vt)) :=
    Calm.wider (within_when (openGreeterPam_calm E pam _)) fun _ => rfl
  apply Safe.seq (part hopen ht)
  intro _ t ht
  refine Safe.seq (part (Calm.wider (makeRuntimeDir_calm E _) fun _ => rfl) ht) fun runtimeDir t ht => ?_
  -- the fork, and the pid when there is a child
  refine safe_bind (safe_bind (safe_get (safe_bind (safe_op E (hcalm _ _ rfl ht) fun b => ⟨?_, ?_⟩))))
  · exact hfork hpid0 t ht runtimeDir _ rfl rfl
  · have ht' : apartGreeter s = apartGreeter ((t.setRunning b).tick (t.now + 1)) := toGreeter ht
    apply safe_pure
    split
    · exact safe_pure ht'
    · refine safe_op E (hpid _ _ rfl ht') fun b' => ⟨hpid _ _ rfl ?_, ?_⟩ <;> exact ht'

theorem Calm.returns {α : Type} {x : Sys α} {g : St → St} (h : Within (calmly g) x) : Returns x :=
  Within.returns h fun _ => id

theorem startGreeter_returns : Returns (startGreeter E) := by
  refine returns_get_bind fun s => returns_ite (returns_pure ()) ?_
  apply returns_bind (Calm.returns (renewGreeterPam_calm E))
  intro _
  apply returns_bind (Calm.returns (onPam_calm E _))
  intro ⟨ok, pam⟩
  apply returns_bind (Calm.returns (setGreeterPam_calm E pam))
  intro _
  apply returns_bind (Calm.returns (within_when (openGreeterPam_calm E pam _)))
  intro _
  apply returns_bind (Calm.returns (makeRuntimeDir_calm E _))
  intro _
  have hop : ∀ e f, Returns (op E e f) := fun e f =>
    returns_bind (Calm.returns (interfere_calm E)) fun _ => fun _ => trivial
  refine returns_bind (returns_get_bind fun t => returns_bind (hop _ _) fun _ => returns_pure _) fun r => ?_
  cases r with
  | none => exact returns_pure ()
  | some pid => exact hop _ _

theorem startGreeter_quiet : Within (quietly apartGreeter) (startGreeter E) := by
  refine (startGreeter_returns E).within fun s => startGreeter_safe E ?_ ?_ ?_
  · exact fun e t he ht => ⟨Event.quiet_of_calm he, same_of_erased ht fun _ => rfl⟩
  · intro hpid t ht runtimeDir u hnow hu
    have hgreeter : s.greeterPid = t.greeterPid := same_of_erased ht fun _ => rfl
    have hgreeter' : t.greeterPid = u.greeterPid := same_of_erased hu fun _ => rfl
    have hfds : t.fds = u.fds := same_of_erased hu fun _ => rfl
    have htu : apartGreeter t = apartGreeter u := same_of_erased hu fun _ => rfl
    refine ⟨⟨by omega, inherits_map hfds fun image h => ?_⟩, Eq.trans (same_of_erased ht fun _ => rfl) htu⟩
    exact greeterChild_inherits E _ _ _ _ _ h
  · exact fun e t he ht => ⟨Event.quiet_of_calm he, ht⟩

theorem releaseGreeter_calm : Within (calmly apartGreeter) (releaseGreeter E) :=
  within_get_bind fun _ => within_bind (within_when (stopGreeterProcess_calm E _)) fun _ =>
    within_bind (Calm.wider (releaseGreeterPam_calm E) fun _ => rfl) fun _ => op_calm E (fun _ => rfl) rfl fun _ => rfl

theorem watchGreeter_quiet : Within (quietly apartGreeter) (watchGreeter E) := by
  have calm : ∀ {x : Sys Unit}, Within (calmly apartGreeter) x → Within (quietly apartGreeter) x := Calm.quiet
  refine within_get_bind fun s => within_ite ?_ (within_pure ())
  refine within_bind (Calm.quiet (Calm.wider (isRunning_calm E) fun _ => rfl)) fun running => ?_
  refine within_ite (within_get_bind fun t => ?_) (within_pure ())
  refine within_bind (calm (op_calm E (fun _ => rfl) rfl fun _ => rfl)) fun _ => ?_
  split
  · exact within_bind (calm (op_calm E (fun _ => rfl) rfl fun _ => rfl)) fun _ =>
      within_bind (calm (op_calm E (fun _ => rfl) rfl fun _ => rfl)) fun _ => startGreeter_quiet E
  · exact within_pure ()

/-! ## A login and its session -/

theorem setLoginEnv_calm (req : IpcMessage) (pam : PamAuth) : Within (calmly apartPam) (setLoginEnv E req pam) :=
  within_get_bind fun _ => within_bind (onPam_calm E _) fun _ => within_bind (onPam_calm E _) fun _ =>
    within_bind (onPam_calm E _) fun _ => within_bind (onPam_calm E _) fun _ =>
    within_ite (within_bind (onPam_calm E _) fun _ => within_bind (onPam_calm E _) fun _ => within_pure ())
      (within_pure ())

theorem setActivePam_calm (pam : PamAuth) : Within (calmly apartActivePam) (setActivePam E pam) :=
  within_get_bind fun _ => within_bind (op_calm E (fun _ => rfl) rfl fun _ => rfl) fun _ =>
    Calm.wider (destroy_calm E _) fun _ => rfl

theorem rememberLastUser_calm (req : IpcMessage) : Within (calmly apartConfig) (rememberLastUser E req) :=
  within_get_bind fun _ => within_ite (within_bind (op_calm E (fun _ => rfl) rfl fun _ => rfl) fun _ =>
    within_get_bind fun _ => op_calm E (fun _ => rfl) rfl fun _ => rfl) (within_pure ())

theorem waitLoop_calm (pid : ℤ) : ∀ n, Within (calmly apartSession) (waitLoop E pid n) := by
  intro n
  induction n with
  | zero =>
    exact within_bind (op_calm E (fun _ => rfl) rfl fun _ => rfl) fun _ => within_get_bind fun _ =>
      within_bind (op_calm E (fun _ => rfl) rfl fun _ => rfl) fun _ =>
      within_bind (op_calm E (fun _ => rfl) rfl fun _ => rfl) fun _ => within_pure _
  | succ n ih =>
    exact within_bind (op_calm E (fun _ => rfl) rfl fun _ => rfl) fun _ =>
      within_bind (op_calm E (fun _ => rfl) rfl fun _ => rfl) fun _ => ih

theorem waitForExit_calm : Within (calmly apartSession) (waitForExit E) :=
  within_get_bind fun _ => within_ite (within_pure _) (waitLoop_calm E _ _)

theorem terminateLoop_calm : ∀ n, Within (calmly apartClock) (terminateLoop E n) := by
  intro n
  induction n with
  | zero => exact within_pure _
  | succ n ih =>
    exact within_bind (isRunning_calm E) fun _ => within_ite (within_bind (op_id_calm E rfl) fun _ => ih)
      (within_pure _)

theorem terminate_calm : Within (calmly apartSession) (terminate E) := by
  have clock : ∀ {α : Type} {x : Sys α}, Within (calmly apartClock) x → Within (calmly apartSession) x :=
    fun h => Calm.wider h fun _ => rfl
  refine within_get_bind fun s => within_ite ?_ (within_pure ())
  refine within_bind (clock (killBoth_calm E _ _)) fun _ => within_bind (clock (terminateLoop_calm E 20)) fun gone => ?_
  refine within_bind (within_when (clock ?_)) fun _ => op_calm E (fun _ => rfl) rfl fun _ => rfl
  refine within_bind (isRunning_calm E) fun _ => within_when (within_bind (killBoth_calm E _ _) fun _ => ?_)
  exact within_get_bind fun _ => op_id_calm E rfl

end Parts

end Miqudm
