/-
Whether there is a login screen.

A greeter is started at the entry of `run`, after a session, and when the greeter that is tracked has died. None of the
three is repeated: when the fork fails no greeter is tracked, and the check for a dead greeter looks only at one that is.
So at the head of the loop a greeter is tracked exactly if the last fork of one gave a child (`login_screen`), and a
failed fork leaves a loop without a greeter, a session or an attempt to start one (`no_login_screen`).
-/
import Miqudm.Daemon.Supervision

namespace Miqudm.LoginScreen

open Miqudm.Core Prog

/-! ## The forks of greeters -/

def forkStep (b : Bool) : Event → Bool
  | .fork .greeter r => r.isSome
  | _ => b

/-- did the last fork of a greeter give a child? -/
def lastFork (es : List Event) : Bool := es.foldl forkStep false

theorem greeter_step (k : Watch) (e : Event) : (k.step e).greeter = forkStep k.greeter e := by
  unfold Watch.step
  split <;> first | rfl | skip
  unfold forkStep
  split
  · simp_all
  · rfl

/-- no greeter is forked before the entry of `run` -/
theorem forkStep_setup (b : Bool) (e : Event) (he : e.setup) : forkStep b e = b := by
  cases e <;> first | rfl | exact absurd he Bool.false_ne_true

/-! ## The head of the loop -/

/-- a greeter is tracked, or the turn that follows tries to start one -/
def Attended (s : St) (post : List (Event × St)) : Prop :=
  0 < s.greeterPid ∨ ∃ p ∈ post.takeWhile fun p => p.1 ≠ .head, ∃ r, p.1 = .fork .greeter r

/-- **The login screen.** Whenever the head of the loop finds the flag up, in any run with a greeter command, a greeter is
tracked exactly if the last fork of one gave a child. -/
theorem login_screen (E : Env) (n : ℕ) {pre post : List (Event × St)} {s : St}
    (hsplit : history E n = pre ++ (.head, s) :: post) (hrunning : s.running = true)
    (hcommand : s.config.general.greeterCommand ≠ []) :
    (lastFork (events pre) = true → Attended s post) ∧ (0 < s.greeterPid ↔ lastFork (events pre) = true) := by
  obtain ⟨before, t, after, rfl, hbefore, haccepts, -⟩ := (history_supervised E n).reach hsplit rfl
  -- the monitor remembers the last fork
  have hlast : lastFork (events (before ++ (.assign, t) :: after)) = (supervision.after {} after).greeter :=
    view_entered greeter_step forkStep_setup fun q hq => (hbefore q hq).1
  have hgood := supervision.accepts_split haccepts rfl
  have htracked : 0 < s.greeterPid ↔ lastFork (events (before ++ (.assign, t) :: after)) = true := by
    rw [hlast]
    exact hgood.head rfl hrunning hcommand
  exact ⟨fun h => Or.inl (htracked.2 h), htracked⟩

/-! ## Witnesses -/

/-- no client comes, and no greeter dies -/
def quiet : Env := { machine [greeterAccount] [] {} with poll := fun _ => .quiet }

theorem login_screen_quiet : ∃ s, (history quiet 2)[24]? = some (.head, s) ∧ Attended s ((history quiet 2).drop 25) := by
  obtain ⟨s, hs, hsplit⟩ := split_at (show (history quiet 2)[24]?.map Prod.fst = some .head by decide +kernel)
  have hstate : ((history quiet 2)[24]?.map fun p => p.2.running && p.2.config.general.greeterCommand ≠ []) = some true := by
    decide +kernel
  rw [hs] at hstate
  obtain ⟨hrunning, hcommand⟩ : s.running = true ∧ s.config.general.greeterCommand ≠ [] := by simpa using hstate
  exact ⟨s, hs, (login_screen quiet 2 hsplit hrunning hcommand).1 (by decide +kernel)⟩

/-- every fork fails -/
def failing : Env := { quiet with fork := fun _ => none }

/-- without a greeter and without a client, the daemon polls on -/
theorem no_login_screen : ¬ ∀ (E : Env) (n : ℕ) pre s post, history E n = pre ++ (.head, s) :: post → s.running = true →
    s.config.general.greeterCommand ≠ [] → Attended s post := by
  intro h
  obtain ⟨s, hs, hsplit⟩ := split_at (show (history failing 2)[23]?.map Prod.fst = some .head by decide +kernel)
  have hstate : ((history failing 2)[23]?.map fun p => p.2.running && p.2.config.general.greeterCommand ≠ [] &&
      decide (p.2.greeterPid ≤ 0)) = some true := by decide +kernel
  rw [hs] at hstate
  obtain ⟨⟨hrunning, hcommand⟩, hpid⟩ : (s.running = true ∧ s.config.general.greeterCommand ≠ []) ∧ s.greeterPid ≤ 0 := by
    simpa using hstate
  have hturn : (((history failing 2).drop 24).takeWhile fun p => p.1 ≠ .head).all
      (fun p => decide (p.1 = .poll .quiet)) = true := by decide +kernel
  rcases h failing 2 _ s _ hsplit hrunning hcommand with hpos | ⟨p, hp, r, hfork⟩
  · omega
  · have hquiet := of_decide_eq_true (List.all_eq_true.1 hturn p hp)
    rw [hfork] at hquiet
    cases hquiet

end Miqudm.LoginScreen
