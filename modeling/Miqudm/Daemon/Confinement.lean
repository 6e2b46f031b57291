/-
Which of the daemon's sockets an exec'ed program still has open.

No descriptor of the daemon closes on exec: `socket` and `accept` are called without the flag, nothing sets it later.
`exec_sockets`: at every exec of every run the listening socket is open in the new program, and the client's socket is
open exactly when the exec happens while a Login is served. That is every exec of a session, and the one of the greeter
that is started again at the end of the Login; the first greeter, and the one that `run` starts after a death, have the
listening socket only. `exec_keeps_sockets` is a run in which a session has both.
-/
import Miqudm.Daemon.Moments

namespace Miqudm.Confinement

open Miqudm.Core

/-- the program that a forked child executes -/
def execs : Event → Option (ChildKind × Image)
  | .fork what (some (_, child)) => match child.fate with
    | .exec image => some (what, image)
    | _ => none
  | _ => none

/-- the sockets of the daemon that are open in a program -/
def openSockets (image : Image) : List Channel := image.fds.map Desc.what

def ServingLogin (s : St) : Prop := ∃ f, s.frame = some f ∧ f.req.type = .login

theorem fork_of_execs {e : Event} {what : ChildKind} {image : Image} (h : execs e = some (what, image)) :
    ∃ pid child, e = .fork what (some (pid, child)) ∧ child.fate = .exec image := by
  unfold execs at h
  split at h
  · case _ kind pid child =>
    split at h
    · case _ img himg =>
      obtain ⟨rfl, rfl⟩ := Prod.mk.inj (Option.some_inj.1 h)
      exact ⟨pid, child, rfl, himg⟩
    · cases h
  · cases h

/-- what a fork shows of the sockets, whichever child it is -/
theorem fork_sockets (E : Env) {what : ChildKind} {r : Option (Pid × Child)} {s : St} (h : Moment E (.fork what r) s) :
    Inherits r s ∧ Sockets s ∧ (∀ f, s.frame = some f → f.req.type = .login) ∧ (what = .session → ServingLogin s) := by
  cases what with
  | greeter => exact ⟨h.1, h.2.1, h.2.2, by simp⟩
  | session =>
    obtain ⟨hi, hs, f, hf, hlogin, -⟩ := h
    refine ⟨hi, hs, fun g hg => ?_, fun _ => ⟨f, hf, hlogin⟩⟩
    rw [hf] at hg
    exact Option.some_inj.1 hg ▸ hlogin

/-- **What a program inherits.** At every exec of every run, whatever the surroundings answer. -/
theorem exec_sockets (E : Env) (n : ℕ) : ∀ p ∈ history E n, ∀ what image, execs p.1 = some (what, image) →
    Channel.listening ∈ openSockets image ∧ (Channel.client ∈ openSockets image ↔ ServingLogin p.2) ∧
    (what = .session → ServingLogin p.2) := by
  rintro ⟨e, s⟩ hp what image hexec
  obtain ⟨pid, child, rfl, himage⟩ := fork_of_execs hexec
  obtain ⟨hinherits, hsockets, hlogin, hsession⟩ := fork_sockets E (history_moments E n _ hp)
  have hfds : image.fds = keptAcrossExec s.fds := hinherits pid child image rfl himage
  rw [Sockets] at hsockets
  cases hframe : s.frame with
  | none =>
    simp only [hframe] at hsockets
    have hno : ¬ ServingLogin s := by simp [ServingLogin, hframe]
    simp [openSockets, hfds, hsockets, keptAcrossExec, listeningDesc, hno]
    exact fun h => hno (hsession h)
  | some f =>
    simp only [hframe] at hsockets
    have hyes : ServingLogin s := ⟨f, hframe, hlogin f hframe⟩
    simp [openSockets, hfds, hsockets, keptAcrossExec, listeningDesc, hyes]

/-! ## Witnesses -/

def demo : Env := machine [greeterAccount, alice] [] (loginOf "alice")

/-- the exec of alice's session -/
theorem demo_exec : ∃ p ∈ history demo 1, ∃ image, execs p.1 = some (.session, image) ∧
    openSockets image = [.listening, .client] := by
  have h : ((history demo 1).any fun p => (execs p.1).any fun r =>
      r.1 = .session ∧ openSockets r.2 = [.listening, .client]) = true := by decide +kernel
  obtain ⟨p, hp, hexec⟩ := List.any_eq_true.1 h
  obtain ⟨⟨what, image⟩, hsome, hr⟩ := (Option.any_eq_true _ _).1 hexec
  obtain ⟨rfl, hopen⟩ := of_decide_eq_true hr
  exact ⟨p, hp, image, hsome, hopen⟩

theorem exec_sockets_demo : ∃ p ∈ history demo 1, ServingLogin p.2 := by
  obtain ⟨p, hp, image, hexec, hopen⟩ := demo_exec
  exact ⟨p, hp, (exec_sockets demo 1 p hp .session image hexec).2.1.1 (by simp [hopen])⟩

/-- no exec keeps the listening socket or the client's: this is not so -/
theorem exec_keeps_sockets : ¬ ∀ E n, ∀ p ∈ history E n, ∀ what image, execs p.1 = some (what, image) →
    Channel.listening ∉ openSockets image ∧ Channel.client ∉ openSockets image := by
  intro h
  obtain ⟨p, hp, image, hexec, hopen⟩ := demo_exec
  exact (h demo 1 p hp .session image hexec).1 (by simp [hopen])

end Miqudm.Confinement
