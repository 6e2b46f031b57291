/-
Process and PAM ownership over every run.

The daemon tracks its two children by pids and owns two PAM objects. `Owned` says what holds of them at every moment:
never two live children, no fork beside a tracked child of the same kind, and at the head of the loop of `run` no
session, no session's PAM object, and a PAM object wherever there is a greeter (`Parked`). When `run` returns everything
is gone. The PAM handles themselves are accounted for by the books of the daemon.
-/
import Miqudm.Daemon.Moments
import Miqudm.Daemon.DaemonLedger

namespace Miqudm.Ownership

open Miqudm.Core Prog

/-! ## What the daemon tracks -/

def Exclusive (s : St) : Prop := ¬ (0 < s.greeterPid ∧ 0 < s.sessionPid)

/-- at the head of the loop -/
structure Parked (s : St) : Prop where
  session : s.sessionPid ≤ 0
  active : s.activePam = none
  greeter : 0 < s.greeterPid → s.greeterPam.isSome

/-- when `run` returns -/
structure Gone (s : St) : Prop where
  greeter : s.greeterPid ≤ 0
  session : s.sessionPid ≤ 0
  greeterPam : s.greeterPam = none
  active : s.activePam = none

/-- what an event asks of the state it leads to -/
def Asks : Event → St → Prop
  | .fork .greeter _, s => s.greeterPid ≤ 0
  | .fork .session _, s => s.sessionPid ≤ 0
  | .head, s => Parked s
  | .finished, s => Gone s
  | _, _ => True

def Owned (e : Event) (s : St) : Prop := Exclusive s ∧ Asks e s

theorem asks_of_calm {e : Event} (h : e.calm) (s : St) : Asks e s := by
  unfold Asks
  split <;> trivial

theorem Exclusive.of_session {s : St} (h : s.sessionPid ≤ 0) : Exclusive s := fun hs => by
  have := hs.2
  omega

theorem Exclusive.of_greeter {s : St} (h : s.greeterPid ≤ 0) : Exclusive s := fun hs => by
  have := hs.1
  omega

theorem Parked.exclusive {s : St} (h : Parked s) : Exclusive s := Exclusive.of_session h.session

theorem Parked.tick {s : St} (h : Parked s) (b : Bool) (n : ℕ) : Parked ((s.setRunning b).tick n) :=
  ⟨h.session, h.active, h.greeter⟩

/-- states that agree on what is tracked -/
theorem Parked.of_erased {g : St → St} {s t : St} (hs : Parked s) (h : g s = g t)
    (hg : ∀ s, ((g s).sessionPid, (g s).activePam, (g s).greeterPid, (g s).greeterPam) =
      (s.sessionPid, s.activePam, s.greeterPid, s.greeterPam)) : Parked t := by
  have heq : (s.sessionPid, s.activePam, s.greeterPid, s.greeterPam) =
      (t.sessionPid, t.activePam, t.greeterPid, t.greeterPam) :=
    same_of_erased (p := fun s => (s.sessionPid, s.activePam, s.greeterPid, s.greeterPam)) h hg
  obtain ⟨h1, h2, h3, h4⟩ : s.sessionPid = t.sessionPid ∧ s.activePam = t.activePam ∧ s.greeterPid = t.greeterPid ∧
      s.greeterPam = t.greeterPam := by simpa using heq
  exact ⟨h1 ▸ hs.session, h2 ▸ hs.active, h3 ▸ h4 ▸ hs.greeter⟩

variable (E : Env)

/-- a calm part that keeps one of the pids down -/
theorem owned_calm {α : Type} {x : Sys α} {g : St → St} {s t : St} (hx : Within (calmly g) x) (hst : g s = g t)
    (hex : ∀ u, g s = g u → Exclusive u) : Safe Owned x t (fun _ u => g s = g u) :=
  Calm.safe hx hst fun _ u he hu => ⟨hex u hu, asks_of_calm he u⟩

/-! ## The greeter -/

/-- a greeter is started while there is no session -/
theorem startGreeter_owned {s : St} (hs : s.sessionPid ≤ 0) :
    Safe Owned (startGreeter E) s (fun _ t => apartGreeter s = apartGreeter t) := by
  have hex : ∀ t, apartGreeter s = apartGreeter t → Exclusive t := fun t ht =>
    Exclusive.of_session ((same_of_erased (p := St.sessionPid) ht fun _ => rfl) ▸ hs)
  refine startGreeter_safe E (fun _ t he ht => ⟨hex t (same_of_erased ht fun _ => rfl), asks_of_calm he t⟩) ?_
    fun _ t he ht => ⟨hex t ht, asks_of_calm he t⟩
  intro hpid t ht runtimeDir u _ hu
  have hgreeter : s.greeterPid = t.greeterPid := same_of_erased ht fun _ => rfl
  have hgreeter' : t.greeterPid = u.greeterPid := same_of_erased hu fun _ => rfl
  refine ⟨hex u (Eq.trans (same_of_erased ht fun _ => rfl) (same_of_erased hu fun _ => rfl : apartGreeter t = _)), ?_⟩
  show u.greeterPid ≤ 0
  omega

/-- a start that does anything leaves a PAM object -/
theorem startGreeter_pam (s : St) : Safe (fun _ _ => True) (startGreeter E) s
    (fun _ t => t.greeterPam.isSome ∨ (t.greeterPid = s.greeterPid ∧ t.greeterPam = s.greeterPam)) := by
  have calm : ∀ {α : Type} {x : Sys α} {g : St → St} {t : St}, Within (calmly g) x →
      Safe (fun _ _ => True) x t (fun _ u => g t = g u) := fun hx => Calm.safe hx rfl fun _ _ _ _ => trivial
  have set : ∀ (pam : PamAuth) (t : St),
      Safe (fun _ _ => True) (setGreeterPam E pam) t (fun _ u => u.greeterPam.isSome) := fun pam t =>
    safe_op E trivial fun b => ⟨trivial, rfl⟩
  refine safe_bind (safe_get (safe_ite (fun _ => safe_pure (Or.inr ⟨rfl, rfl⟩)) fun _ => ?_))
  apply Safe.seq (calm (renewGreeterPam_calm E))
  intro _ t _
  apply Safe.seq (calm (onPam_calm E _))
  intro ⟨ok, pam⟩ t _
  apply Safe.seq (set pam t)
  intro _ t ht
  refine Safe.seq (q := fun _ u => u.greeterPam.isSome) (safe_when (fun _ => ?_) fun _ => ht)
    fun _ t ht => ?_
  · apply Safe.seq (calm (onPam_calm E _))
    intro _ t _
    apply Safe.seq (calm (onPam_calm E _))
    intro _ t _
    apply Safe.seq (calm (onPam_calm E _))
    intro _ t _
    refine Safe.seq (calm (onPam_calm E _)) fun _ t _ => Safe.seq (calm (onPam_calm E _)) ?_
    intro ⟨_, pam⟩ t _
    refine Safe.seq (set pam t) fun _ t _ => Safe.seq (calm (onPam_calm E _)) ?_
    intro ⟨_, pam⟩ t _
    exact set pam t
  apply Safe.seq (calm (makeRuntimeDir_calm E _))
  intro runtimeDir u hu
  have hu : u.greeterPam.isSome := (same_of_erased (p := St.greeterPam) hu fun _ => rfl) ▸ ht
  refine safe_bind (safe_bind (safe_get (safe_bind (safe_op E trivial fun b => ⟨trivial, safe_pure ?_⟩))))
  split
  · exact safe_pure (Or.inl hu)
  · exact safe_op E trivial fun b => ⟨trivial, Or.inl hu⟩

theorem startGreeter_parked {s : St} (hs : Parked s) :
    Safe Owned (startGreeter E) s (fun _ t => Parked t) := by
  refine Safe.mono (Watched.and_sat (startGreeter_owned E hs.session)
    (Sat.mono (startGreeter_pam E s) (fun _ _ _ h => h.2) fun _ _ _ _ => trivial)) fun _ t ht => ?_
  have hsession : s.sessionPid = t.sessionPid := same_of_erased ht.1 fun _ => rfl
  have hactive : s.activePam = t.activePam := same_of_erased ht.1 fun _ => rfl
  refine ⟨hsession ▸ hs.session, hactive ▸ hs.active, fun hpid => ?_⟩
  rcases ht.2 with h | ⟨hsame, hpam⟩
  · exact h
  · rw [hpam]
    exact hs.greeter (hsame ▸ hpid)

theorem stopGreeterProcess_owned {s : St} (hs : s.sessionPid ≤ 0) (pid : ℤ) :
    Safe Owned (stopGreeterProcess E pid) s (fun _ t => apartGreeter s = apartGreeter t ∧ t.greeterPid ≤ 0) := by
  have hex : ∀ t, apartGreeter s = apartGreeter t → Exclusive t := fun t ht =>
    Exclusive.of_session ((same_of_erased (p := St.sessionPid) ht fun _ => rfl) ▸ hs)
  have kill : ∀ sig, Within (calmly apartGreeter) (killBoth E pid sig) :=
    fun sig => Calm.wider (killBoth_calm E pid sig) fun _ => rfl
  apply Safe.seq (owned_calm (kill _) rfl hex)
  intro _ t ht
  refine Safe.seq (owned_calm (awaitGreeter_calm E 20) ht hex) fun _ t ht => safe_bind (safe_get ?_)
  refine safe_ite (fun _ => ?_) fun hpid => safe_pure ⟨ht, by omega⟩
  refine Safe.seq (owned_calm (kill _) ht hex) fun _ t ht => safe_bind (safe_get (safe_bind ?_))
  refine safe_op E ⟨hex _ ht, trivial⟩ fun b => ⟨⟨hex _ ht, trivial⟩, ?_⟩
  refine safe_op E ⟨hex _ ht, trivial⟩ fun b => ⟨⟨hex _ ht, trivial⟩, ht, ?_⟩
  exact (by decide : (-1 : ℤ) ≤ 0)

/-- **Stopping the greeter.** However it ends, it is no longer tracked and its PAM object is gone. -/
theorem releaseGreeter_owned {s : St} (hs : s.sessionPid ≤ 0) :
    Safe Owned (releaseGreeter E) s (fun _ t => apartGreeter s = apartGreeter t ∧ t.greeterPid ≤ 0 ∧
      t.greeterPam = none) := by
  have hex : ∀ t, apartGreeter s = apartGreeter t → Exclusive t := fun t ht =>
    Exclusive.of_session ((same_of_erased (p := St.sessionPid) ht fun _ => rfl) ▸ hs)
  refine safe_bind (safe_get (Safe.seq (q := fun _ t => apartGreeter s = apartGreeter t ∧ t.greeterPid ≤ 0)
    (safe_when (fun _ => stopGreeterProcess_owned E hs _) fun hpid => ⟨rfl, by omega⟩) fun _ t ⟨ht, hpid⟩ => ?_))
  refine Safe.seq (q := fun _ u => apartGreeter s = apartGreeter u ∧ u.greeterPid ≤ 0 ∧ u.greeterPam = none)
    (safe_bind (safe_get ?_)) fun _ u ⟨hu, hpid, hnone⟩ => ?_
  · split
    · have hex' : ∀ u, apartPam t = apartPam u → Exclusive u := fun u hu =>
        hex u (Eq.trans ht (same_of_erased hu fun _ => rfl))
      apply Safe.seq (owned_calm (releasePam_calm E _) rfl hex')
      intro _ u hu
      have hpid : u.greeterPid ≤ 0 := (same_of_erased (p := St.greeterPid) hu fun _ => rfl) ▸ hpid
      have hu : apartGreeter s = apartGreeter u := Eq.trans ht (same_of_erased hu fun _ => rfl)
      exact safe_op E ⟨hex u hu, trivial⟩ fun b => ⟨⟨hex u hu, trivial⟩, hu, hpid, rfl⟩
    · case _ hnone => exact safe_pure ⟨ht, hpid, hnone⟩
  · exact safe_op E ⟨hex _ hu, trivial⟩ fun b => ⟨⟨hex _ hu, trivial⟩, hu, hpid, hnone⟩

/-! ## The session -/

/-- a session is launched while nothing is tracked -/
theorem launch_owned {s : St} (hg : s.greeterPid ≤ 0) (hs : s.sessionPid ≤ 0) (user : UserInfo) (session : SessionInfo)
    (pamEnvs : List Str) (vt : ℤ) :
    Safe Owned (launch E user session pamEnvs vt) s (fun launched t => apartSession s = apartSession t ∧
      (launched = false → t.sessionPid ≤ 0)) := by
  have hex : Exclusive s := Exclusive.of_greeter hg
  refine safe_bind (safe_op E ⟨hex, trivial⟩ fun b => ⟨⟨hex, trivial⟩, ?_⟩)
  refine Safe.seq (owned_calm (isRunning_calm E) rfl fun u hu => ?_) fun running t ht => ?_
  · exact Exclusive.of_greeter ((same_of_erased (p := St.greeterPid) hu fun _ => rfl) ▸ hg)
  have hg : t.greeterPid ≤ 0 := (same_of_erased (p := St.greeterPid) ht fun _ => rfl) ▸ hg
  have hs : t.sessionPid ≤ 0 := (same_of_erased (p := St.sessionPid) ht fun _ => rfl) ▸ hs
  have ht : apartSession s = apartSession t := same_of_erased (p := apartSession) ht fun _ => rfl
  have hex : Exclusive t := Exclusive.of_greeter hg
  refine safe_ite (fun _ => safe_pure ⟨ht, fun _ => hs⟩) fun _ => ?_
  refine safe_bind (safe_bind (safe_get (safe_bind (safe_op E ⟨hex, trivial⟩ fun b => ⟨⟨hex, hs⟩, safe_pure ?_⟩))))
  split
  · exact safe_pure ⟨ht, fun _ => hs⟩
  · refine safe_bind (safe_op E ⟨hex, trivial⟩ fun b' => ⟨⟨Exclusive.of_greeter hg, trivial⟩, safe_pure ⟨ht, ?_⟩⟩)
    exact fun h => by cases h

theorem waitLoop_owned (pid : ℤ) : ∀ (n : ℕ) (s : St), s.greeterPid ≤ 0 →
    Safe Owned (waitLoop E pid n) s (fun _ t => apartSession s = apartSession t ∧ t.sessionPid ≤ 0) := by
  intro n
  induction n with
  | zero =>
    intro s hg
    have hex : Exclusive s := Exclusive.of_greeter hg
    refine safe_bind (safe_op E ⟨hex, trivial⟩ fun b => ⟨⟨hex, trivial⟩, ?_⟩)
    refine safe_bind (safe_get (safe_bind (safe_op E ⟨hex, trivial⟩ fun b => ⟨⟨hex, trivial⟩, ?_⟩)))
    refine safe_bind (safe_op E ⟨hex, trivial⟩ fun b => ⟨⟨Exclusive.of_greeter hg, trivial⟩, safe_pure ⟨rfl, ?_⟩⟩)
    exact (by decide : (-1 : ℤ) ≤ 0)
  | succ n ih =>
    intro s hg
    have hex : Exclusive s := Exclusive.of_greeter hg
    exact safe_bind (safe_op E ⟨hex, trivial⟩ fun b => ⟨⟨hex, trivial⟩,
      safe_bind (safe_op E ⟨hex, trivial⟩ fun b => ⟨⟨hex, trivial⟩, ih _ hg⟩)⟩)

/-- a session that was waited for is no longer tracked -/
theorem waitForExit_owned {s : St} (hg : s.greeterPid ≤ 0) :
    Safe Owned (waitForExit E) s (fun _ t => apartSession s = apartSession t ∧ t.sessionPid ≤ 0) :=
  safe_bind (safe_get (safe_ite (fun h => safe_pure ⟨rfl, h⟩) fun _ => waitLoop_owned E _ _ s hg))

theorem terminate_owned {s : St} (hg : s.greeterPid ≤ 0) :
    Safe Owned (terminate E) s (fun _ t => apartSession s = apartSession t ∧ t.sessionPid ≤ 0) := by
  have hex : ∀ t, apartClock s = apartClock t → Exclusive t := fun t ht =>
    Exclusive.of_greeter ((same_of_erased (p := St.greeterPid) ht fun _ => rfl) ▸ hg)
  refine safe_bind (safe_get (safe_ite (fun _ => ?_) fun h => safe_pure ⟨rfl, by omega⟩))
  apply Safe.seq (owned_calm (killBoth_calm E _ _) rfl hex)
  intro _ t ht
  apply Safe.seq (owned_calm (terminateLoop_calm E 20) ht hex)
  intro gone t ht
  have hkill : Within (calmly apartClock) (Prog.when (¬ gone) do
      let running ← isRunning E
      Prog.when running do
        killBoth E s.sessionPid .sigkill
        op E (.waitDone s.sessionPid (E.waitEnd (← Prog.get).now)) id) :=
    within_when (within_bind (isRunning_calm E) fun _ => within_when (within_bind (killBoth_calm E _ _) fun _ =>
      within_get_bind fun _ => op_id_calm E rfl))
  apply Safe.seq (owned_calm hkill ht hex)
  intro _ t ht
  have hg : t.greeterPid ≤ 0 := (same_of_erased (p := St.greeterPid) ht fun _ => rfl) ▸ hg
  have ht' : apartSession s = apartSession t := same_of_erased ht fun _ => rfl
  refine safe_op E ⟨hex t ht, trivial⟩ fun b => ⟨⟨Exclusive.of_greeter hg, trivial⟩, ht', ?_⟩
  exact (by decide : (-1 : ℤ) ≤ 0)

theorem releaseActivePam_owned {s : St} (hg : s.greeterPid ≤ 0) :
    Safe Owned (releaseActivePam E) s (fun _ t => apartActivePam s = apartActivePam t ∧ t.activePam = none) := by
  have hex : ∀ t, apartPam s = apartPam t → Exclusive t := fun t ht =>
    Exclusive.of_greeter ((same_of_erased (p := St.greeterPid) ht fun _ => rfl) ▸ hg)
  refine safe_bind (safe_get ?_)
  split
  · apply Safe.seq (owned_calm (releasePam_calm E _) rfl hex)
    intro _ t ht
    have ht' : apartActivePam s = apartActivePam t := same_of_erased ht fun _ => rfl
    exact safe_op E ⟨hex t ht, trivial⟩ fun b => ⟨⟨hex t ht, trivial⟩, ht', rfl⟩
  · case _ hnone => exact safe_pure ⟨rfl, hnone⟩

/-- **A session.** The greeter goes before it comes, and it has gone, with its PAM object, before a greeter comes. -/
theorem serveSession_owned {s : St} (hs : Parked s) (req : IpcMessage) (pam : PamAuth) :
    Safe Owned (serveSession E req pam) s (fun _ t => Parked t) := by
  refine safe_bind (safe_bind (safe_op E ⟨hs.exclusive, trivial⟩ fun b => ⟨⟨hs.exclusive, trivial⟩, ?_⟩))
  refine Safe.mono (releaseGreeter_owned E hs.session) fun _ t ⟨ht, hg, _⟩ => ?_
  have hsession : t.sessionPid ≤ 0 := (same_of_erased (p := St.sessionPid) ht fun _ => rfl) ▸ hs.session
  have greeter : ∀ {g : St → St} {u v : St}, g u = g v → (∀ s, (g s).greeterPid = s.greeterPid) → u.greeterPid ≤ 0 →
      v.greeterPid ≤ 0 := fun h hg hu => (same_of_erased (p := St.greeterPid) h hg) ▸ hu
  have session : ∀ {g : St → St} {u v : St}, g u = g v → (∀ s, (g s).sessionPid = s.sessionPid) → u.sessionPid ≤ 0 →
      v.sessionPid ≤ 0 := fun h hg hu => (same_of_erased (p := St.sessionPid) h hg) ▸ hu
  have calm : ∀ {α : Type} {x : Sys α} {g : St → St} {u : St}, Within (calmly g) x →
      (∀ s, (g s).greeterPid = s.greeterPid) → u.greeterPid ≤ 0 → Safe Owned x u (fun _ v => g u = g v) := fun hx hg hu =>
    owned_calm hx rfl fun v hv => Exclusive.of_greeter (greeter hv hg hu)
  refine safe_bind (safe_get (Safe.seq (calm (rememberLastUser_calm E req) (fun _ => rfl) hg) ?_))
  intro _ u hu
  have hg := greeter hu (fun _ => rfl) hg
  have hsession := session hu (fun _ => rfl) hsession
  apply Safe.seq (calm (setActivePam_calm E pam) (fun _ => rfl) hg)
  intro _ u hu
  have hg := greeter hu (fun _ => rfl) hg
  have hsession := session hu (fun _ => rfl) hsession
  apply Safe.seq (calm (onPam_calm E _) (fun _ => rfl) hg)
  intro pamEnvs u hu
  have hg := greeter hu (fun _ => rfl) hg
  have hsession := session hu (fun _ => rfl) hsession
  -- the session runs and ends
  apply Safe.seq (launch_owned E hg hsession _ _ pamEnvs _)
  intro launched u ⟨hu, hdown⟩
  have hg := greeter hu (fun _ => rfl) hg
  refine Safe.seq (q := fun _ v => v.greeterPid ≤ 0 ∧ v.sessionPid ≤ 0)
    (safe_when (fun _ => ?_) fun hnot => ?_) fun _ v ⟨hg, hsession⟩ => ?_
  · refine Safe.seq (waitForExit_owned E hg) fun _ v ⟨hv, hsession⟩ => safe_pure ⟨?_, hsession⟩
    exact greeter hv (fun _ => rfl) hg
  · exact ⟨hg, hdown (by simpa using hnot)⟩
  apply Safe.seq (releaseActivePam_owned E hg)
  intro _ w ⟨hw, hactive⟩
  have hg := greeter hw (fun _ => rfl) hg
  have hparked : Parked w := ⟨session hw (fun _ => rfl) hsession, hactive, fun h => by omega⟩
  apply Safe.seq (calm (readRunning_calm E) (fun _ => rfl) hg)
  intro running x hx
  have hparked : Parked x := hparked.of_erased hx fun _ => rfl
  exact safe_ite (fun _ => startGreeter_parked E hparked) fun _ => safe_pure hparked

/-! ## Requests, connections and the loop -/

/-- a calm part, or one that a session scan may end, that leaves alone what is tracked -/
theorem parked_scanning {α : Type} {x : Sys α} {g : St → St} {s : St} (hs : Parked s) (hx : Within (scanning g) x)
    (hg : ∀ s, ((g s).sessionPid, (g s).activePam, (g s).greeterPid, (g s).greeterPam) =
      (s.sessionPid, s.activePam, s.greeterPid, s.greeterPam)) : Safe Owned x s (fun _ t => Parked t) :=
  Safe.mono (Scanning.safe hx rfl fun _ u he hu => ⟨(hs.of_erased hu hg).exclusive, asks_of_calm he u⟩)
    fun _ _ ht => hs.of_erased ht hg

theorem parked_calm {α : Type} {x : Sys α} {g : St → St} {s : St} (hs : Parked s) (hx : Within (calmly g) x)
    (hg : ∀ s, ((g s).sessionPid, (g s).activePam, (g s).greeterPid, (g s).greeterPam) =
      (s.sessionPid, s.activePam, s.greeterPid, s.greeterPam)) : Safe Owned x s (fun _ t => Parked t) :=
  parked_scanning hs (Calm.scanning hx) hg

theorem parked_op {s : St} (hs : Parked s) {e : Event} {f : St → St} (he : ∀ t, Parked t → Asks e t)
    (hf : ∀ b, Parked ((f (s.setRunning b)).tick (s.now + 1))) : Safe Owned (op E e f) s (fun _ t => Parked t) :=
  safe_op E ⟨hs.exclusive, trivial⟩ fun b => ⟨⟨(hf b).exclusive, he _ (hf b)⟩, hf b⟩

theorem reply_owned {s : St} (hs : Parked s) (resp : IpcMessage) :
    Safe Owned (reply E resp) s (fun _ t => Parked t) := by
  refine Safe.seq (parked_op E hs (fun _ _ => trivial) fun b => hs.tick b _) fun _ t ht => ?_
  exact safe_bind (safe_get (safe_ite (fun _ => safe_halt) fun _ => safe_pure ht))

theorem handleLoginRequest_owned {s : St} (hs : Parked s) (req : IpcMessage) :
    Safe Owned (handleLoginRequest E req) s (fun _ t => Parked t) := by
  rw [handleLoginRequest_eq]
  refine Safe.seq (parked_calm hs (attempt_calm E req) fun _ => rfl) ?_
  intro ⟨failure, pam⟩ t ht
  cases failure with
  | some message =>
    apply Safe.seq (reply_owned E ht _)
    intro _ u hu
    exact Safe.seq (parked_calm hu (onPam_calm E _) fun _ => rfl) fun _ v hv => safe_pure hv
  | none => exact Safe.seq (reply_owned E ht _) fun _ u hu => serveSession_owned E hu req pam

theorem processMessage_owned {s : St} (hs : Parked s) (req : IpcMessage) :
    Safe Owned (processMessage E req) s (fun _ t => Parked t) := by
  have cache : ∀ {f : St → St}, (∀ b, Parked ((f (s.setRunning b)).tick (s.now + 1))) →
      Safe Owned (op E .assign f) s (fun _ t => Parked t) := fun hf => parked_op E hs (fun _ _ => trivial) hf
  unfold processMessage
  split
  · exact reply_owned E hs _
  · refine Safe.seq (cache fun _ => ⟨hs.session, hs.active, hs.greeter⟩) fun _ t ht => ?_
    exact safe_bind (safe_get (reply_owned E ht _))
  · refine Safe.seq (parked_scanning hs (cacheSessions_scanning E) fun _ => rfl) fun _ t ht => ?_
    exact safe_bind (safe_get (reply_owned E ht _))
  · exact Safe.seq (parked_calm hs (powerCall_calm E _) fun _ => rfl) fun ok t ht => reply_owned E ht _
  · exact handleLoginRequest_owned E hs req
  · exact reply_owned E hs _

theorem serveLine_owned {s : St} (hs : Parked s) (line rest : Str) :
    Safe Owned (serveLine E line rest) s (fun _ t => Parked t) := by
  refine Safe.seq (parked_op E hs (fun _ _ => trivial) fun _ => ⟨hs.session, hs.active, hs.greeter⟩) ?_
  intro _ t ht
  split
  · exact safe_halt
  · case _ req _ =>
    refine Safe.seq (parked_op E ht (fun _ _ => trivial) fun _ => ⟨ht.session, ht.active, ht.greeter⟩) ?_
    intro _ u hu
    apply Safe.seq (processMessage_owned E hu req)
    intro _ v hv
    exact parked_op E hv (fun _ _ => trivial) fun b => hv.tick b _

theorem readLoop_owned : ∀ (chunks : List Str) (accumulated : Str) (s : St), Parked s →
    Safe Owned (readLoop E accumulated chunks) s (fun _ t => Parked t) := by
  have eof : ∀ {s : St}, Parked s → Safe Owned (op E (.read []) id) s (fun _ t => Parked t) :=
    fun hs => parked_op E hs (fun _ _ => trivial) fun b => hs.tick b _
  intro chunks
  induction chunks with
  | nil => exact fun _ s hs => eof hs
  | cons chunk chunks ih =>
    intro accumulated s hs
    apply safe_ite (fun _ => eof hs)
    intro _
    refine Safe.seq (parked_op E hs (fun _ _ => trivial) fun _ => ⟨hs.session, hs.active, hs.greeter⟩) ?_
    intro _ t ht
    split
    · exact ih _ t ht
    · exact serveLine_owned E ht _ _

theorem acceptClient_owned {s : St} (hs : Parked s) : Safe Owned (acceptClient E) s (fun _ t => Parked t) := by
  refine safe_bind (safe_get ?_)
  split
  · exact parked_op E hs (fun _ _ => trivial) fun b => hs.tick b _
  · refine Safe.seq (parked_op E hs (fun _ _ => trivial) fun _ => ⟨hs.session, hs.active, hs.greeter⟩) ?_
    intro _ t ht
    refine Safe.seq (q := fun _ u => Parked u) ?_ fun _ u hu => ?_
    · refine Safe.seq (parked_op E ht (fun _ _ => trivial) fun _ => ⟨ht.session, ht.active, ht.greeter⟩) ?_
      intro _ u hu
      apply Safe.seq (readLoop_owned E _ [] u hu)
      intro _ v hv
      exact parked_op E hv (fun _ _ => trivial) fun _ => ⟨hv.session, hv.active, hv.greeter⟩
    · exact parked_op E hu (fun _ _ => trivial) fun _ => ⟨hu.session, hu.active, hu.greeter⟩

/-- a greeter that died is no longer tracked before the next one is started -/
theorem watchGreeter_owned {s : St} (hs : Parked s) : Safe Owned (watchGreeter E) s (fun _ t => Parked t) := by
  refine safe_bind (safe_get (safe_ite (fun _ => ?_) fun _ => safe_pure hs))
  refine Safe.seq (parked_calm hs (isRunning_calm E) fun _ => rfl) fun running t ht => ?_
  refine safe_ite (fun _ => safe_bind (safe_get ?_)) fun _ => safe_pure ht
  refine Safe.seq (parked_op E ht (fun _ _ => trivial) fun b => ht.tick b _) fun _ u hu => ?_
  split
  · refine Safe.seq (parked_op E hu (fun _ _ => trivial) fun _ => ⟨hu.session, hu.active, ?_⟩) ?_
    · exact fun h => absurd h (by decide : ¬ (0 : ℤ) < -1)
    intro _ v hv
    refine Safe.seq (parked_op E hv (fun _ _ => trivial) fun b => hv.tick b _) fun _ w hw => ?_
    exact startGreeter_parked E hw
  · exact safe_pure hu

theorem turn_owned {s : St} (hs : Parked s) : Safe Owned (turn E) s (fun _ t => Parked t) := by
  have watch : ∀ {t : St}, Parked t →
      Safe Owned (do watchGreeter E; return true) t (fun _ u => Parked u) := fun ht =>
    Safe.seq (watchGreeter_owned E ht) fun _ _ hu => safe_pure hu
  refine Safe.seq (parked_op E hs (fun _ ht => ht) fun b => hs.tick b _) fun _ t ht => ?_
  refine safe_bind (safe_get (safe_ite (fun _ => safe_pure ht) fun _ => safe_bind (safe_get ?_)))
  refine Safe.seq (parked_op E ht (fun _ _ => trivial) fun b => ht.tick b _) fun _ u hu => ?_
  split
  · exact safe_pure hu
  · exact safe_pure hu
  · exact Safe.seq (acceptClient_owned E hu) fun _ v hv => watch hv
  · exact watch hu

/-- when the loop is left, everything is released -/
theorem shutdown_owned {s : St} (hs : Parked s) :
    Safe Owned (do stopGreeter E; terminate E; cleanupIpcSocket E; op E .finished id) s (fun _ _ => True) := by
  refine safe_bind (safe_bind (safe_op E ⟨hs.exclusive, trivial⟩ fun b => ⟨⟨hs.exclusive, trivial⟩, ?_⟩))
  refine Safe.mono (releaseGreeter_owned E hs.session) fun _ t ⟨ht, hg, hpam⟩ => ?_
  have hactive : t.activePam = none := (same_of_erased (p := St.activePam) ht fun _ => rfl) ▸ hs.active
  apply Safe.seq (terminate_owned E hg)
  intro _ u ⟨hu, hsession⟩
  have hgone : Gone u := by
    have hg' : u.greeterPid ≤ 0 := (same_of_erased (p := St.greeterPid) hu fun _ => rfl) ▸ hg
    have hpam' : u.greeterPam = none := (same_of_erased (p := St.greeterPam) hu fun _ => rfl) ▸ hpam
    have hactive' : u.activePam = none := (same_of_erased (p := St.activePam) hu fun _ => rfl) ▸ hactive
    exact ⟨hg', hsession, hpam', hactive'⟩
  have hparked : Parked u := ⟨hsession, hgone.active, fun h => absurd h (by have := hgone.greeter; omega)⟩
  have hfree : ∀ v, apartSockets u = apartSockets v → Gone v := fun v hv => by
    have hg' : v.greeterPid ≤ 0 := (same_of_erased (p := St.greeterPid) hv fun _ => rfl) ▸ hgone.greeter
    have hs' : v.sessionPid ≤ 0 := (same_of_erased (p := St.sessionPid) hv fun _ => rfl) ▸ hgone.session
    have hpam' : v.greeterPam = none := (same_of_erased (p := St.greeterPam) hv fun _ => rfl) ▸ hgone.greeterPam
    have hactive' : v.activePam = none := (same_of_erased (p := St.activePam) hv fun _ => rfl) ▸ hgone.active
    exact ⟨hg', hs', hpam', hactive'⟩
  refine Safe.seq (owned_calm (cleanupIpcSocket_calm E) rfl fun v hv => ?_) fun _ v hv => ?_
  · exact Exclusive.of_greeter (hfree v hv).greeter
  · have hgone := hfree v hv
    have hex : Exclusive v := Exclusive.of_greeter hgone.greeter
    exact safe_op E ⟨hex, trivial⟩ fun b =>
      ⟨⟨hex, hgone.greeter, hgone.session, hgone.greeterPam, hgone.active⟩, trivial⟩

theorem run_owned (n : ℕ) {s : St} (hs : Parked s) : Safe Owned (run E n) s (fun _ _ => True) := by
  refine Safe.seq (parked_op E hs (fun _ _ => trivial) fun _ => ⟨hs.session, hs.active, hs.greeter⟩) ?_
  intro _ t ht
  apply Safe.seq (startGreeter_parked E ht)
  intro _ u hu
  refine safe_bind (Watched.mono (watched_loop (I := fun _ t => Parked t) (q := fun _ _ t => Parked t)
    (fun _ _ _ => trivial) (fun _ v hv => ?_) n () u hu) fun _ _ v hv => shutdown_owned E hv)
  exact Safe.mono (turn_owned E hv) fun b w hw => by split <;> exact hw

/-- **Every moment of every watched run is in order.** -/
theorem history_owned (n : ℕ) : ∀ p ∈ history E n, Owned p.1 p.2 := by
  have hboot : Parked (boot E) := ⟨(by decide : (-1 : ℤ) ≤ 0), rfl, fun h => absurd h (by decide : ¬ (0 : ℤ) < -1)⟩
  refine Safe.log (q := fun _ _ => True) (Safe.seq (parked_scanning hboot (init_scanning E) fun _ => rfl) ?_)
  exact fun ok t ht => safe_ite (fun _ => run_owned E n ht) fun _ => safe_pure trivial

/-- the last moment shown is the return of `run` -/
def Finishes (x : Sys Unit) : Prop :=
  ∀ s, Sat x s (fun l _ t => ∃ pre, l = pre ++ [(.finished, t)]) (fun _ _ _ => True)

theorem finishes_bind {α : Type} {x : Sys α} {f : α → Sys Unit} (hf : ∀ a, Finishes (f a)) : Finishes (x >>= f) := by
  refine fun s => (sat_bind x f).2 (Sat.mono (sat_run x s) (fun l a t _ => ?_) fun _ _ _ _ => trivial)
  exact Sat.mono (hf a t) (fun l' _ u ⟨pre, hl⟩ => ⟨l ++ pre, by rw [hl, List.append_assoc]⟩) fun _ _ _ _ => trivial

theorem run_finishes (n : ℕ) : Finishes (run E n) := by
  refine finishes_bind fun _ => finishes_bind fun _ => finishes_bind fun _ => finishes_bind fun _ => ?_
  refine finishes_bind fun _ => finishes_bind fun _ s => ?_
  exact Sat.mono (op_spec E _ _ s) (fun _ _ _ ⟨pre, hl, _⟩ => ⟨pre, hl⟩) fun _ _ _ _ => trivial

/-- a daemon that was set up and returns shows the return of `run` as its last moment -/
theorem main_finishes (n : ℕ) : Sat (main E n) (boot E)
    (fun l _ t => (init E (boot E)).fin = .ok true → ∃ pre, l = pre ++ [(.finished, t)]) (fun _ _ _ => True) := by
  refine (sat_bind _ _).2 (Sat.mono (sat_run (init E) (boot E)) (fun l ok s hinit => ?_) fun _ _ _ _ => trivial)
  refine (sat_ite _ _ _).2 ⟨fun _ => ?_, fun hno => ?_⟩
  · exact Sat.mono (run_finishes E n s) (fun l' _ u ⟨pre, hl⟩ _ => ⟨l ++ pre, by rw [hl, List.append_assoc]⟩)
      fun _ _ _ _ => trivial
  · rw [sat_pure, hinit]
    intro h
    cases h
    exact absurd rfl hno

/-! ## The PAM handles -/

/-- a handle started for a service and not ended since -/
def Live (cs : List PamCall) (wanted : Str) (h : ℕ) : Prop :=
  ∃ service user pre post, cs = pre ++ .start service user wanted (some h) :: post ∧ .pamEnd h ∉ post

/-- no call changes what a handle was wanted for -/
theorem wanted_change {e : Event} {h : ℕ} {f : Held → Held} (he : e.use = .change h f) (b : Held) :
    (f b).wanted = b.wanted := by
  cases e with
  | pam call =>
    rcases PamCall.use_change he with ⟨fn, ok, -, hsame⟩ | hsame
    · rw [hsame]
      cases fn <;> cases ok <;> rfl
    · rw [hsame]
  | _ => cases he

/-- a live handle is one that the ledger holds -/
theorem held_of_live {l : List (Event × St)} (hl : daemonLedger.accepts {} l) {wanted : Str} {h : ℕ}
    (hlive : Live (pamCalls (events l)) wanted h) :
    ∃ b, (daemonLedger.after {} l).held h = some b ∧ b.wanted = wanted := by
  obtain ⟨service, user, pre, post, hsplit, hnot⟩ := hlive
  obtain ⟨l1, s, l2, rfl, -, rfl⟩ := split_calls hsplit
  have hl : handleLedger.accepts {} (l1 ++ (.pam (.start service user wanted (some h)), s) :: l2) :=
    handleLedger_accepts hl
  rw [handleLedger, Monitor.accepts_append, Monitor.accepts_cons] at hl
  obtain ⟨hl1, hgood, hl2⟩ := hl
  rw [← handleLedger_after, handleLedger, Monitor.after_append, Monitor.after_cons]
  have hfresh := Ledger.fresh_after Ledger.fresh_empty hl1
  refine Ledger.held_along (P := fun b : Held => b.wanted = wanted) (fun p _ f b hp hb => ?_) (fun p hp hgive => ?_)
    (b := ⟨wanted, false, false⟩) ?_ rfl (Ledger.fresh_step hfresh hgood.1) hl2
  · rw [wanted_change hp]
    exact hb
  · refine hnot (List.mem_filterMap.2 ⟨p.1, List.mem_map_of_mem hp, ?_⟩)
    rw [eq_pamEnd hgive]
    rfl
  · exact Function.update_self _ _ _

theorem history_accepted (n : ℕ) : daemonLedger.accepts {} (history E n) := Watched.accepts (main_ledger E n)

/-- at every moment, at most one live handle for a service -/
theorem live_unique {n : ℕ} {pre post : List (Event × St)} (hsplit : history E n = pre ++ post) {wanted : Str}
    {h h' : ℕ} (hh : Live (pamCalls (events pre)) wanted h) (hh' : Live (pamCalls (events pre)) wanted h') : h = h' := by
  have hpre : daemonLedger.accepts {} pre := ((Monitor.accepts_append _ _ _ _).1 (hsplit ▸ history_accepted E n)).1
  obtain ⟨b, hb, hw⟩ := held_of_live hpre hh
  obtain ⟨b', hb', hw'⟩ := held_of_live hpre hh'
  have hsingle : Single (daemonLedger.after {} pre) :=
    Ledger.extra_after (by simp [Single]) (handleLedger_accepts hpre)
  exact hsingle h h' b b' hb hb' (hw.trans hw'.symm)

/-- when `run` returns, every started handle was ended once -/
theorem ended_once {n : ℕ} {pre post : List (Event × St)} {s : St}
    (hsplit : history E n = pre ++ (.finished, s) :: post) {service user wanted : Str} {h : ℕ}
    (hstart : .start service user wanted (some h) ∈ pamCalls (events pre)) :
    (pamCalls (events pre)).count (.pamEnd h) = 1 := by
  have hgood := daemonLedger.accepts_split (history_accepted E n) hsplit
  have hpre : daemonLedger.accepts {} pre := ((Monitor.accepts_append _ _ _ _).1 (hsplit ▸ history_accepted E n)).1
  rw [← givesIn_eq]
  exact Ledger.gives_eq_one Ledger.fresh_empty (handleLedger_accepts hpre) (congrFun (hgood.2 rfl) h)
    (takesIn_pos hstart)

/-- **Ownership over whole runs.** At every moment of every watched run the two children and the two PAM objects are in
order; a service has at most one live handle; and a run that returns shows it as its last moment, at which nothing is
tracked, every handle was ended once, and the listening socket is closed and its path gone. -/
theorem ownership (E : Env) (n : ℕ) :
    (∀ p ∈ history E n, Owned p.1 p.2) ∧
    (∀ pre post, history E n = pre ++ post → ∀ wanted h h', Live (pamCalls (events pre)) wanted h →
      Live (pamCalls (events pre)) wanted h' → h = h') ∧
    ((init E (boot E)).fin = .ok true → (main E n (boot E)).fin = .ok () →
      ∃ pre s, history E n = pre ++ [(.finished, s)] ∧ s = (main E n (boot E)).st ∧ Gone s ∧ s.fds = [] ∧
        s.socketPath ∉ s.sockets ∧ ∀ service user wanted h,
          .start service user wanted (some h) ∈ pamCalls (events pre) →
          (pamCalls (events pre)).count (.pamEnd h) = 1) := by
  refine ⟨history_owned E n, fun pre post hsplit wanted h h' => live_unique E hsplit, fun hinit hreturns => ?_⟩
  obtain ⟨pre, hpre⟩ := Sat.of_ok (main_finishes E n) hreturns hinit
  have hmem : (.finished, (main E n (boot E)).st) ∈ history E n := by
    rw [history, hpre]
    simp
  have howned := history_owned E n _ hmem
  have hmoment := history_moments E n _ hmem
  exact ⟨pre, _, hpre, rfl, howned.2, hmoment.1, hmoment.2, fun service user wanted h => ended_once E hpre⟩

/-! ## Witnesses -/

/-- alice logs in, and then polling fails -/
def demo : Env :=
  { machine [greeterAccount, alice] [] (loginOf "alice") with
    poll := fun n => if n < 60 then .ready else .failed }

/-- the greeter's handles and alice's are all ended when `run` returns -/
theorem ownership_demo : ∃ s, (.finished, s) ∈ history demo 3 ∧ Gone s := by
  obtain ⟨pre, s, hpre, -, hgone, -⟩ := (ownership demo 3).2.2 (by decide +kernel) (by decide +kernel)
  exact ⟨s, by rw [hpre]; simp, hgone⟩

end Miqudm.Ownership
