/-
The privileges of the greeter.

The child of `start_greeter` calls initgroups, setgid and setuid only for an account other than uid 0, reports a failure
of any of them, and goes on to execute the command; the child of `launch` exits instead (`sessionChild`).
`greeter_privileges`: when some candidate for the greeter resolves to an account other than root, the child keeps the
rule exactly when `Dropped` holds: the shell cannot be executed, or the account has no home or no shell and the child
crashes before it, or the resolved account is not uid 0 and the three calls succeed, or it is uid 0 and the daemon
already has its credentials. `greeter_as_root` is a start in which setuid fails and the greeter is executed with uid 0.
-/
import Miqudm.Daemon.Frames

namespace Miqudm.GreeterPrivileges

open Miqudm.Core Prog

/-- the credentials of an account -/
def credOf (E : Env) (pw : Passwd) : Cred := ⟨pw.pwUid, pw.pwGid, E.getgrouplist pw.pwName.chars pw.pwGid⟩

/-- the command is executed only with the credentials of the account, and not when one of the calls failed -/
def KeepsRule (E : Env) (pw : Passwd) (a : ChildAnswers) (child : Child) : Prop :=
  ∀ image, child.fate = .exec image → image.cred = credOf E pw ∧
    (child.initgroups.isSome → a.initgroups) ∧ (child.setgid.isSome → a.setgid) ∧ (child.setuid.isSome → a.setuid)

def Dropped (E : Env) (pw : Passwd) (a : ChildAnswers) : Prop :=
  ¬ a.execl (lit "/bin/sh") ∨ lacksFields pw ∨ (pw.pwUid ≠ 0 ∧ a.initgroups ∧ a.setgid ∧ a.setuid) ∨
    (pw.pwUid = 0 ∧ E.self = credOf E pw)

/-- the configured user and the fallbacks, as they are looked up -/
def candidates (greeterUser : Str) : List Str :=
  (if greeterUser ≠ [] then [cstr greeterUser] else []) ++ greeterFallbacks

/-- a candidate that resolves makes the whole search resolve -/
theorem resolve_isSome {db : List Passwd} {greeterUser : Str}
    (h : ∃ candidate ∈ candidates greeterUser, (getpwnam db candidate).isSome) :
    ((resolveGreeterUser db greeterUser).1).isSome := by
  obtain ⟨candidate, hmem, hsome⟩ := h
  unfold resolveGreeterUser
  simp only []
  split
  · rfl
  · case _ hnone =>
    -- the configured user does not resolve, so the candidate is a fallback
    have hfallback : candidate ∈ greeterFallbacks := by
      rw [candidates, List.mem_append] at hmem
      rcases hmem with hmem | hmem
      · split_ifs at hmem hnone
        · rw [List.mem_singleton.1 hmem, hnone] at hsome
          cases hsome
        · cases hmem
      · exact hmem
    cases hfind : greeterFallbacks.find? fun candidate => (getpwnam db candidate).isSome with
    | none => exact absurd hsome (by simpa using List.find?_eq_none.1 hfind candidate hfallback)
    | some found => simpa using List.find?_some hfind

theorem greeterChild_rule (E : Env) (pw : Passwd) (cmd runtimeDir : Str) (s : St) (a : ChildAnswers) :
    KeepsRule E pw a (greeterChild E (some pw) cmd runtimeDir s a) ↔ Dropped E pw a := by
  by_cases hcrash : lacksFields pw
  · simp [KeepsRule, Dropped, greeterChild, hcrash]
  by_cases hexec : a.execl (lit "/bin/sh")
  · by_cases hroot : pw.pwUid = 0
    · simp [KeepsRule, Dropped, greeterChild, greeterCred, hcrash, hexec, hroot]
    · -- the three calls are made, and the command is executed whatever they answer
      have hdrops : (some pw).filter (fun pw => decide (pw.pwUid ≠ 0)) = some pw := by simp [hroot]
      simp only [KeepsRule, greeterChild, hdrops, hexec, Option.any_some, hcrash, not_true_eq_false, if_false]
      constructor
      · intro h
        obtain ⟨-, hi, hg, hu⟩ := h _ rfl
        exact Or.inr (Or.inr (Or.inl ⟨hroot, hi rfl, hg rfl, hu rfl⟩))
      · rintro (h | h | ⟨-, hi, hg, hu⟩ | ⟨h, -⟩) image himage
        · exact absurd hexec h
        · exact absurd h hcrash
        · obtain rfl := Fate.exec.inj himage
          simp [greeterCred, credOf, hroot, hi, hg, hu]
        · exact absurd h hroot
  · simp [KeepsRule, Dropped, greeterChild, hcrash, hexec]

/-- **The greeter drops its privileges, exactly when the calls succeed.** For every start of a greeter and any state. -/
theorem greeter_privileges (E : Env) (s : St)
    (h : ∃ candidate ∈ candidates s.config.general.greeterUser, ∃ pw,
      getpwnam (E.passwd s.now) candidate = some pw ∧ pw.pwUid ≠ 0) :
    ∃ pw, (resolveGreeterUser (E.passwd s.now) s.config.general.greeterUser).1 = some pw ∧
      ∀ p ∈ (startGreeter E s).log, ∀ pid child, p.1 = .fork .greeter (some (pid, child)) →
        (KeepsRule E pw (E.child (p.2.now - 1)) child ↔ Dropped E pw (E.child (p.2.now - 1))) := by
  obtain ⟨candidate, hmem, pw', hpw', -⟩ := h
  obtain ⟨pw, hpw⟩ := Option.isSome_iff_exists.1 (resolve_isSome ⟨candidate, hmem, by rw [hpw']; rfl⟩)
  refine ⟨pw, hpw, ?_⟩
  set Rule : Event → St → Prop := fun e t => ∀ pid child, e = .fork .greeter (some (pid, child)) →
    (KeepsRule E pw (E.child (t.now - 1)) child ↔ Dropped E pw (E.child (t.now - 1))) with hRule
  have calm : ∀ e t, e.calm → Rule e t := by
    rintro e t he pid child rfl
    cases he
  refine Safe.log (startGreeter_safe E (fun e t he _ => calm e t he) ?_ fun e t he _ => calm e t he)
  intro _ t _ runtimeDir u hnow _ pid child hfork
  obtain ⟨_, -, hchild⟩ := Option.map_eq_some_iff.1 (Event.fork.inj hfork).2
  obtain ⟨-, rfl⟩ := Prod.mk.inj hchild
  rw [hpw, show u.now - 1 = t.now by omega]
  exact greeterChild_rule E pw _ _ _ _

/-! ## Witnesses -/

/-- the greeter is started on a machine where its child cannot set the uid -/
def demo (setuid : Bool) : Env :=
  { machine [greeterAccount, alice] [] {} with
    child := fun _ => { initgroups := true, setgid := true, setuid := setuid, chdir := fun _ => true, execl := fun _ => true } }

/-- the child of that start -/
theorem demo_fork (setuid : Bool) (uid : UInt32)
    (h : ((startGreeter (demo setuid) {}).log.any fun p => match p.1 with
      | .fork .greeter (some (_, child)) => match child.fate with
        | .exec image => image.cred.uid = uid
        | _ => false
      | _ => false) = true) :
    ∃ p ∈ (startGreeter (demo setuid) {}).log, ∃ pid child image,
      p.1 = .fork .greeter (some (pid, child)) ∧ child.fate = .exec image ∧ image.cred.uid = uid := by
  obtain ⟨p, hp, hfork⟩ := List.any_eq_true.1 h
  split at hfork
  · split at hfork
    · exact ⟨p, hp, _, _, _, by assumption, by assumption, of_decide_eq_true hfork⟩
    · cases hfork
  · cases hfork

theorem greeter_privileges_demo : ∃ p ∈ (startGreeter (demo true) {}).log, ∃ pid child image,
    p.1 = .fork .greeter (some (pid, child)) ∧ child.fate = .exec image ∧
      image.cred = credOf (demo true) greeterAccount := by
  obtain ⟨p, hp, pid, child, image, hfork, himage, -⟩ := demo_fork true 200 (by decide +kernel)
  obtain ⟨pw, hpw, hrule⟩ := greeter_privileges (demo true) {} ⟨lit "greeter", by decide, greeterAccount, by decide⟩
  obtain rfl : greeterAccount = pw := Option.some_inj.1 (Eq.trans (by decide) hpw)
  have hdropped : Dropped (demo true) greeterAccount ((demo true).child (p.2.now - 1)) :=
    Or.inr (Or.inr (Or.inl ⟨by decide, rfl, rfl, rfl⟩))
  exact ⟨p, hp, pid, child, image, hfork, himage, ((hrule p hp pid child hfork).2 hdropped image himage).1⟩

/-- setuid fails, and the greeter is executed with uid 0 -/
theorem greeter_as_root : ¬ ∀ E s pw, (resolveGreeterUser (E.passwd s.now) s.config.general.greeterUser).1 = some pw →
    pw.pwUid ≠ 0 → ∀ p ∈ (startGreeter E s).log, ∀ pid child, p.1 = .fork .greeter (some (pid, child)) →
      KeepsRule E pw (E.child (p.2.now - 1)) child := by
  intro h
  obtain ⟨p, hp, pid, child, image, hfork, himage, huid⟩ := demo_fork false 0 (by decide +kernel)
  have hrule := h (demo false) {} greeterAccount (by decide) (by decide) p hp pid child hfork image himage
  rw [hrule.1] at huid
  exact absurd huid (by decide)

end Miqudm.GreeterPrivileges
