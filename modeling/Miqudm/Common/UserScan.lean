/-
What the user scan finds.

The scan offers the interactive accounts of the passwd database, each once and in the order of the database
(`scanUsers_spec`). When there is none it offers one made up from the calling process, whatever its uid: a daemon that
runs as root then offers uid 0 (`root_offered`). That is the only way a uid below 1000 gets into the list.
-/
import Miqudm.Common.Framing
import Miqudm.Common.UserScanner

namespace Miqudm

/-- an interactive account, as the scan means it -/
def Interactive (pw : Passwd) : Prop :=
  (1000 ≤ pw.pwUid.toNat ∧ pw.pwUid.toNat < 60000) ∧ pw.pwName.chars ≠ lit "nobody" ∧
    ¬ lit "nologin" <:+: orEmpty pw.pwShell ∧ ¬ lit "false" <:+: orEmpty pw.pwShell

theorem interactive_iff (pw : Passwd) : interactive pw = true ↔ Interactive pw := by
  simp only [interactive, Interactive, contains, decide_eq_true_eq, not_or, UInt32.le_iff_toNat_le, UInt32.lt_iff_toNat_lt,
    and_assoc]
  rfl

instance : DecidablePred Interactive := fun pw => decidable_of_iff _ (interactive_iff pw)

/-- name, home, uid and gid of an account, and of an entry of the list -/
def accountOf (pw : Passwd) : Str × Str × UInt32 × UInt32 := (pw.pwName.chars, orEmpty pw.pwDir, pw.pwUid, pw.pwGid)

def UserInfo.account (u : UserInfo) : Str × Str × UInt32 × UInt32 := (u.username, u.homeDir, u.uid, u.gid)

theorem userInfoOf_account (isFile : Str → Bool) (pw : Passwd) : (userInfoOf isFile pw).account = accountOf pw := rfl

/-- what is shown of an account: its user name, or a text without comma -/
theorem displayNameOf_spec (pw : Passwd) :
    displayNameOf pw = pw.pwName.chars ∨ (displayNameOf pw ≠ [] ∧ ',' ∉ displayNameOf pw) := by
  cases hsplit : splitFirst ',' (orEmpty pw.pwGecos) with
  | none =>
    simp only [displayNameOf, hsplit]
    split_ifs with hname
    · exact Or.inl rfl
    · exact Or.inr ⟨hname, notMem_of_splitFirst_none hsplit⟩
  | some p =>
    simp only [displayNameOf, hsplit]
    split_ifs with hname
    · exact Or.inl rfl
    · exact Or.inr ⟨hname, (splitFirst_eq_some hsplit).2⟩

theorem filter_interactive (db : List Passwd) : db.filter interactive = db.filter Interactive := by
  apply List.filter_congr
  intro pw _
  rw [Bool.eq_iff_iff, interactive_iff, decide_eq_true_eq]

/-- the list, with the test written out -/
theorem scanUsers_eq (db : List Passwd) (login : Option CStr) (uid gid : UInt32) (isFile : Str → Bool) :
    scanUsers db login uid gid isFile =
      if db.filter Interactive = [] then [fallbackUser login uid gid]
      else (db.filter Interactive).map (userInfoOf isFile) := by
  simp only [scanUsers, filter_interactive, List.map_eq_nil_iff]

/-- **The list offers the interactive accounts of the database, in its order**; the caller itself, and a uid outside the
range, only if there is none. -/
theorem scanUsers_spec (db : List Passwd) (login : Option CStr) (uid gid : UInt32) (isFile : Str → Bool) :
    let users := scanUsers db login uid gid isFile
    let caller := (login.map CStr.chars).getD (lit "user")
    users.map UserInfo.account =
      (if ∃ pw ∈ db, Interactive pw then (db.filter Interactive).map accountOf
      else [(caller, lit "/home/" ++ caller, uid, gid)]) ∧
    (∀ u ∈ users, u.displayName = u.username ∨ (u.displayName ≠ [] ∧ ',' ∉ u.displayName)) ∧
    ∀ u ∈ users, ¬ (1000 ≤ u.uid.toNat ∧ u.uid.toNat < 60000) → (∀ pw ∈ db, ¬ Interactive pw) ∧ u.uid = uid := by
  have hnil : db.filter Interactive = [] ↔ ¬ ∃ pw ∈ db, Interactive pw := by simp
  have hfallback : fallbackUser login uid gid =
      { username := (login.map CStr.chars).getD (lit "user"), displayName := (login.map CStr.chars).getD (lit "user"),
        homeDir := lit "/home/" ++ (login.map CStr.chars).getD (lit "user"), uid := uid, gid := gid } := by
    cases login <;> rfl
  intro users caller
  have husers : users = scanUsers db login uid gid isFile := rfl
  rw [scanUsers_eq] at husers
  by_cases hsome : ∃ pw ∈ db, Interactive pw
  · rw [if_neg (fun h => hnil.1 h hsome)] at husers
    rw [husers, if_pos hsome]
    refine ⟨?_, ?_, ?_⟩
    · rw [List.map_map]
      exact List.map_congr_left fun pw _ => userInfoOf_account isFile pw
    · intro u hu
      obtain ⟨pw, -, rfl⟩ := List.mem_map.1 hu
      exact displayNameOf_spec pw
    · intro u hu hrange
      obtain ⟨pw, hpw, rfl⟩ := List.mem_map.1 hu
      have hinteractive : Interactive pw := by simpa using (List.mem_filter.1 hpw).2
      exact absurd hinteractive.1 hrange
  · rw [if_pos (hnil.2 hsome), hfallback] at husers
    rw [husers, if_neg hsome]
    refine ⟨rfl, ?_, ?_⟩
    · intro u hu
      rw [List.mem_singleton.1 hu]
      exact Or.inl rfl
    · intro u hu _
      rw [List.mem_singleton.1 hu]
      exact ⟨fun pw hpw h => hsome ⟨pw, hpw, h⟩, rfl⟩

/-! ## A database without interactive accounts -/

def systemAccounts : List Passwd := [
  ⟨⟨lit "root", by decide⟩, 0, 0, none, some ⟨lit "/root", by decide⟩, some ⟨lit "/bin/bash", noNul_bash⟩⟩,
  ⟨⟨lit "nobody", by decide⟩, 65534, 65534, none, none, some ⟨lit "/usr/sbin/nologin", by decide⟩⟩]

/-- a daemon that runs as root offers an account of its own making, with uid 0 -/
theorem root_offered :
    (scanUsers systemAccounts none 0 0 fun _ => false).map UserInfo.account = [(lit "user", lit "/home/user", 0, 0)] ∧
    ¬ ∀ u ∈ scanUsers systemAccounts none 0 0 fun _ => false, ∃ pw ∈ systemAccounts,
      Interactive pw ∧ u.account = accountOf pw := by
  refine ⟨by decide, fun h => ?_⟩
  obtain ⟨pw, hpw, hinteractive, -⟩ := h _ (show fallbackUser none 0 0 ∈ _ by decide)
  have hnone : ∀ pw ∈ systemAccounts, ¬ Interactive pw := by decide
  exact hnone pw hpw hinteractive

end Miqudm
