/-
Whose session it is: the ids that the child of a session hands to initgroups, setgid and setuid.

The user of a session is looked up in the cached scan by the whole user name, PAM and the passwd database see the name
up to its first NUL, and a name that is not cached leads to a user with uid 0 and gid 0. `session_ids`: at the fork of
a session in any run, and for the passwd database of any instant, the ids are those of the account whenever `IdsCurrent`
holds; when the child gets as far as setuid, only then. `IdsCurrent` asks that the first cached entry of the whole name
has the ids that the database has, or, when no entry has it, that the account itself is uid 0 and gid 0.
`ids_of_uncached_account` is a run in which the session of uid 500 is made with uid 0.
-/
import Miqudm.Daemon.Moments

namespace Miqudm.Identity

open Miqudm.Core

/-- the ids handed to the three calls are the ones the database has for the account that PAM authenticated -/
def RightIds (db : List Passwd) (username : Str) (child : Child) : Prop :=
  (∀ p ∈ child.initgroups, (getpwnam db (cstr username)).map Passwd.pwGid = some p.2) ∧
  (∀ gid ∈ child.setgid, (getpwnam db (cstr username)).map Passwd.pwGid = some gid) ∧
  (∀ uid ∈ child.setuid, (getpwnam db (cstr username)).map Passwd.pwUid = some uid)

/-- the account in the database has the ids of the first cached entry for the whole name, or 0 and 0 without one -/
def IdsCurrent (cached : List UserInfo) (db : List Passwd) (username : Str) : Prop :=
  match cached.find? fun u => u.username = username with
  | some u => ∃ pw, getpwnam db (cstr username) = some pw ∧ pw.pwUid = u.uid ∧ pw.pwGid = u.gid
  | none => ∃ pw, getpwnam db (cstr username) = some pw ∧ pw.pwUid = 0 ∧ pw.pwGid = 0

/-- the ids a login looks up -/
theorem idsCurrent_iff (cached : List UserInfo) (db : List Passwd) (username : Str) :
    IdsCurrent cached db username ↔
      (getpwnam db (cstr username)).map Passwd.pwUid = some (findUser cached username).uid ∧
      (getpwnam db (cstr username)).map Passwd.pwGid = some (findUser cached username).gid := by
  have hpw : ∀ uid gid, (∃ pw, getpwnam db (cstr username) = some pw ∧ pw.pwUid = uid ∧ pw.pwGid = gid) ↔
      (getpwnam db (cstr username)).map Passwd.pwUid = some uid ∧
        (getpwnam db (cstr username)).map Passwd.pwGid = some gid := by
    intro uid gid
    cases getpwnam db (cstr username) <;> simp
  cases h : cached.find? fun u => u.username = username <;> simp only [IdsCurrent, findUser, h] <;> exact hpw _ _

instance (cached : List UserInfo) (db : List Passwd) (username : Str) : Decidable (IdsCurrent cached db username) :=
  decidable_of_iff _ (idsCurrent_iff cached db username).symm

/-- the arguments of the child: every call that is made gets the ids of the user, and setuid is the last -/
theorem sessionChild_ids (E : Env) (user : UserInfo) (session : SessionInfo) (pamEnvs : List Str) (vt : ℤ) (s : St)
    (a : ChildAnswers) :
    let child := sessionChild E user session pamEnvs vt s a
    child.initgroups = some (cstr user.username, user.gid) ∧ (∀ gid ∈ child.setgid, gid = user.gid) ∧
      (∀ uid ∈ child.setuid, uid = user.uid) := by
  unfold sessionChild
  split_ifs <;> simp

/-- **The session is the account's, exactly when the lookup is current.** At every fork of a session of every run, and
for the passwd database of any instant `t`. -/
theorem session_ids (E : Env) (n : ℕ) : ∀ p ∈ history E n, ∀ pid child, p.1 = .fork .session (some (pid, child)) →
    ∃ f, p.2.frame = some f ∧ f.req.type = .login ∧ ∀ t,
      (IdsCurrent p.2.cachedUsers (E.passwd t) f.req.username → RightIds (E.passwd t) f.req.username child) ∧
      (child.setuid.isSome → RightIds (E.passwd t) f.req.username child →
        IdsCurrent p.2.cachedUsers (E.passwd t) f.req.username) := by
  rintro ⟨e, s⟩ hp pid child hfork
  have hmoment : Moment E e s := history_moments E n _ hp
  have hfork : e = .fork .session (some (pid, child)) := hfork
  subst hfork
  obtain ⟨-, -, f, hframe, hlogin, t₀, pamEnvs, vt, s', -, hr⟩ := hmoment
  obtain ⟨_, -, hchild⟩ := Option.map_eq_some_iff.1 hr.symm
  obtain ⟨-, rfl⟩ := Prod.mk.inj hchild
  refine ⟨f, hframe, hlogin, fun t => ?_⟩
  rw [idsCurrent_iff]
  set user := findUser s.cachedUsers f.req.username
  obtain ⟨hgroups, hgid, huid⟩ := sessionChild_ids E user (findSession s.cachedSessions f.req) pamEnvs vt s' (E.child t₀)
  constructor
  · rintro ⟨hu, hg⟩
    refine ⟨fun p hp => ?_, fun gid h => ?_, fun uid h => ?_⟩
    · rw [hgroups] at hp
      rw [← Option.some_inj.1 hp]
      exact hg
    · rw [hgid gid h]
      exact hg
    · rw [huid uid h]
      exact hu
  · rintro hcalls ⟨hi, -, hu⟩
    obtain ⟨uid, h⟩ := Option.isSome_iff_exists.1 hcalls
    constructor
    · rw [← huid uid h]
      exact hu uid h
    · exact hi _ hgroups

/-! ## Witnesses -/

/-- a system account that can log in: its uid is below those of the scan -/
def backup : Passwd :=
  ⟨⟨lit "backup", by decide⟩, 500, 500, none, some ⟨lit "/home/backup", by decide⟩, some ⟨lit "/bin/bash", noNul_bash⟩⟩

def demo (username : String) : Env := machine [greeterAccount, backup, alice] [] (loginOf username)

/-- a run of one login, what its session hands to setuid, and whether the lookup is current -/
theorem demo_fork (username : String) (uid : UInt32) (current : Bool)
    (h : ((history (demo username) 1).any fun p => match p.1 with
      | .fork .session (some (_, child)) => (p.2.frame.map fun f => f.req.username) = some (lit username) ∧
          child.setuid = some uid ∧
          decide (IdsCurrent p.2.cachedUsers [greeterAccount, backup, alice] (lit username)) = current
      | _ => false) = true) :
    ∃ p ∈ history (demo username) 1, ∃ pid child, p.1 = .fork .session (some (pid, child)) ∧
      (p.2.frame.map fun f => f.req.username) = some (lit username) ∧ child.setuid = some uid ∧
      decide (IdsCurrent p.2.cachedUsers [greeterAccount, backup, alice] (lit username)) = current := by
  obtain ⟨p, hp, hfork⟩ := List.any_eq_true.1 h
  split at hfork
  · exact ⟨p, hp, _, _, by assumption, of_decide_eq_true hfork⟩
  · cases hfork

/-- alice is in the cache as she is in the database, so her session is made with her ids -/
theorem session_ids_alice : ∃ p ∈ history (demo "alice") 1, ∃ pid child, p.1 = .fork .session (some (pid, child)) ∧
    child.setuid = some 1000 ∧ RightIds [greeterAccount, backup, alice] (lit "alice") child := by
  obtain ⟨p, hp, pid, child, hfork, hname, hu, hcurrent⟩ := demo_fork "alice" 1000 true (by decide +kernel)
  obtain ⟨f, hf, -, hids⟩ := session_ids (demo "alice") 1 p hp pid child hfork
  obtain ⟨g, hg, hgname⟩ := Option.map_eq_some_iff.1 hname
  obtain rfl : f = g := Option.some_inj.1 (hf.symm.trans hg)
  have hright := (hids 0).1
  rw [hgname] at hright
  exact ⟨p, hp, pid, child, hfork, hu, hright (of_decide_eq_true hcurrent)⟩

/-- the session of `backup`, uid 500, is made with uid 0 -/
theorem ids_of_uncached_account : ¬ ∀ E n, ∀ p ∈ history E n, ∀ pid child, p.1 = .fork .session (some (pid, child)) →
    ∀ f, p.2.frame = some f → ∀ t, RightIds (E.passwd t) f.req.username child := by
  intro h
  obtain ⟨p, hp, pid, child, hfork, hname, hu, -⟩ := demo_fork "backup" 0 false (by decide +kernel)
  obtain ⟨f, hf, hfname⟩ := Option.map_eq_some_iff.1 hname
  have hright := (h (demo "backup") 1 p hp pid child hfork f hf 0).2.2 0 hu
  rw [hfname] at hright
  exact absurd hright (by decide)

end Miqudm.Identity
