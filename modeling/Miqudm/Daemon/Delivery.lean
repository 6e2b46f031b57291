/-
The PAM environment on its way to the children.

`set_env` and the PAM modules put entries, libpam keeps them, `get_environment_list` reads them back, and a child splits
them and sets them over its base environment. `lastPut` is what this is for: a map from the names to the last value put
for each. libpam's list refines it (`Holds.put`), through any calls on a handle (`useAll_holds`), and the overlay reads
it off again (`Holds.overlaid`). `delivered` puts the pieces together, for the child of `launch` and for the one of
`start_greeter`.
-/
import Miqudm.Common.ConfigText
import Miqudm.Daemon.Confinement
import Miqudm.Daemon.DesktopNames

namespace Miqudm.Delivery

open Miqudm.Core Prog DesktopNames Confinement

/-! ## What is put -/

/-- what an entry is to `pam_putenv`: `NAME=value` gives the name a value, and `NAME` takes its value away -/
def assignment (entry : Str) : Str × Option Str :=
  match splitFirst '=' entry with
  | some (name, value) => (name, some value)
  | none => (entry, none)

/-- the last value put for each name -/
def lastPut (puts : List (Str × Option Str)) : Str → Option Str :=
  puts.foldl (fun values put => Function.update values put.1 put.2) fun _ => none

theorem lastPut_append (puts : List (Str × Option Str)) (put : Str × Option Str) :
    lastPut (puts ++ [put]) = Function.update (lastPut puts) put.1 put.2 := by
  rw [lastPut, List.foldl_append]
  rfl

/-! ## libpam's list -/

theorem takeWhile_notMem {s : Str} (h : '=' ∉ s) : s.takeWhile (· ≠ '=') = s := by
  rw [List.takeWhile_eq_self_iff]
  intro c hc
  have hne : c ≠ '=' := fun he => h (he ▸ hc)
  simpa using hne

theorem assignment_fst (entry : Str) : (assignment entry).1 = entry.takeWhile (· ≠ '=') := by
  unfold assignment
  split
  · case _ name value hsplit =>
    obtain ⟨rfl, hname⟩ := splitFirst_eq_some hsplit
    rw [takeWhile_name hname]
  · case _ hsplit => rw [takeWhile_notMem (notMem_of_splitFirst_none hsplit)]

theorem entryName_of_noNul {entry : Str} (h : nul ∉ entry) : entryName entry = (assignment entry).1 := by
  rw [assignment_fst, entryName, cstr_of_noNul]
  exact fun hmem => h ((List.takeWhile_prefix _).subset hmem)

theorem assignment_snd_none {entry : Str} : (assignment entry).2 = none ↔ '=' ∉ entry := by
  unfold assignment
  split
  · case _ hsplit =>
    obtain ⟨rfl, -⟩ := splitFirst_eq_some hsplit
    simp
  · case _ hsplit => simp [notMem_of_splitFirst_none hsplit]

/-- an entry that gives its name a value -/
theorem entryValue_assignment {entry value : Str} (h : nul ∉ entry) (hvalue : (assignment entry).2 = some value) :
    entryValue (assignment entry).1 entry = some value := by
  unfold assignment at hvalue ⊢
  split at hvalue
  · case _ name value' hsplit =>
    obtain ⟨rfl, -⟩ := splitFirst_eq_some hsplit
    simp only [List.mem_append, List.mem_cons, not_or] at h
    obtain rfl : value' = value := Option.some_inj.1 hvalue
    unfold entryValue
    simp only [hsplit, cstr_of_noNul h.1, cstr_of_noNul h.2.2, if_true]
  · cases hvalue

/-- **libpam's list refines the map.** It holds entries with a value, and for each name the last one put for it. -/
structure Holds (puts : List (Str × Option Str)) (env : List Str) : Prop where
  entries : ∀ e ∈ env, '=' ∈ e ∧ nul ∉ e
  values : ∀ name, VarName name → told name env = (lastPut puts name).toList

theorem holds_nil : Holds [] [] where
  entries := by simp
  values _ _ := rfl

section Put

variable {puts : List (Str × Option Str)} {env : List Str} {entry : Str}

/-- the value that an entry of the list has for its name -/
theorem value_of_entry {e : Str} (he : '=' ∈ e ∧ nul ∉ e) : ∃ value, entryValue (assignment e).1 e = some value := by
  have hsome : (assignment e).2 ≠ none := fun h => assignment_snd_none.1 h he.1
  obtain ⟨value, hvalue⟩ := Option.ne_none_iff_exists'.1 hsome
  exact ⟨value, entryValue_assignment he.2 hvalue⟩

/-- replacing by name replaces the values of the name -/
theorem told_replace (henv : ∀ e ∈ env, '=' ∈ e ∧ nul ∉ e) {value : Str}
    (hvalue : entryValue (assignment entry).1 entry = some value) :
    told (assignment entry).1 (env.map fun e => if e.takeWhile (· ≠ '=') = entry.takeWhile (· ≠ '=') then entry else e) =
      (told (assignment entry).1 env).map fun _ => value := by
  rw [told, told, List.filterMap_map, List.map_filterMap]
  apply List.filterMap_congr
  intro e he
  simp only [Function.comp_apply, ← assignment_fst]
  split_ifs with hsame
  · obtain ⟨old, hold⟩ := value_of_entry (henv e he)
    rw [hvalue, ← hsame, hold]
    rfl
  · rw [entryValue_other (by rwa [entryName_of_noNul (henv e he).2])]
    rfl

/-- a value is given: it is the one value from then on -/
theorem told_put_value (h : Holds puts env) (hvar : VarName (assignment entry).1) {value : Str} (hentry : '=' ∈ entry)
    (hvalue : entryValue (assignment entry).1 entry = some value) :
    told (assignment entry).1 (putEntry env entry) = [value] := by
  unfold putEntry
  simp only []
  rw [if_neg (not_not.2 hentry)]
  split_ifs with hany
  · -- there is one, and it is replaced
    obtain ⟨e, he, hsame⟩ := List.any_eq_true.1 hany
    have hsame : (assignment e).1 = (assignment entry).1 := by simpa only [assignment_fst] using of_decide_eq_true hsame
    obtain ⟨old, hold⟩ := value_of_entry (h.entries e he)
    have hmem : old ∈ told (assignment entry).1 env := List.mem_filterMap.2 ⟨e, he, hsame ▸ hold⟩
    rw [told_replace h.entries hvalue]
    rw [h.values _ hvar] at hmem ⊢
    rw [Option.mem_toList.1 hmem]
    rfl
  · -- it is the first one
    have hsilent : Silent (assignment entry).1 env := by
      intro e he hsame
      rw [entryName_of_noNul (h.entries e he).2, assignment_fst, assignment_fst] at hsame
      exact hany (List.any_eq_true.2 ⟨e, he, decide_eq_true hsame⟩)
    calc told (assignment entry).1 (env ++ [entry])
        = told (assignment entry).1 env ++ [value] := by simp [told, hvalue]
      _ = [value] := by rw [told_of_silent hsilent, List.nil_append]

/-- a value is taken away -/
theorem told_put_none (h : Holds puts env) (hentry : '=' ∉ entry) :
    told (assignment entry).1 (putEntry env entry) = [] := by
  unfold putEntry
  rw [if_pos hentry]
  apply told_of_silent
  intro e he
  obtain ⟨hmem, hne⟩ := List.mem_filter.1 he
  rw [entryName_of_noNul (h.entries e hmem).2, assignment_fst, assignment_fst, takeWhile_notMem hentry]
  simpa using hne

/-- **One entry.** -/
theorem Holds.put (h : Holds puts env) (hentry : nul ∉ entry) :
    Holds (puts ++ [assignment entry]) (putEntry env entry) := by
  constructor
  · intro e he
    by_cases heq : '=' ∈ entry
    · rcases mem_putEntry he with hmem | rfl
      · exact h.entries e hmem
      · exact ⟨heq, hentry⟩
    · unfold putEntry at he
      rw [if_pos heq] at he
      exact h.entries e (List.mem_filter.1 he).1
  · intro name hvar
    rw [lastPut_append]
    by_cases hname : (assignment entry).1 = name
    · subst hname
      rw [Function.update_self]
      cases hvalue : (assignment entry).2 with
      | none => exact told_put_none h (assignment_snd_none.1 hvalue)
      | some value =>
        have heq : '=' ∈ entry := by
          by_contra hno
          rw [assignment_snd_none.2 hno] at hvalue
          cases hvalue
        exact told_put_value h hvar heq (entryValue_assignment hentry hvalue)
    · rw [Function.update_of_ne (Ne.symm hname), told_put_other (by rwa [entryName_of_noNul hentry])]
      exact h.values name hvar

/-- what the modules put -/
theorem Holds.modules : ∀ (entries : List Str) {puts : List (Str × Option Str)} {env : List Str}, Holds puts env →
    (∀ entry ∈ entries, nul ∉ entry) → Holds (puts ++ entries.map assignment) (entries.foldl putEntry env) := by
  intro entries
  induction entries with
  | nil => exact fun h _ => by simpa using h
  | cons entry entries ih =>
    intro puts env h hentries
    rw [List.forall_mem_cons] at hentries
    have hrest := ih (h.put hentries.1) hentries.2
    simpa using hrest

end Put

/-! ## The environment of a child -/

/-- what both children do with the environment they inherit: it is cleared, then come the variables that the code sets
itself, and over them the PAM environment -/
def childEnviron (inherited vars : List (Str × Str)) (pamEnvs : List Str) : List (Str × Str) :=
  overlay pamEnvs (vars.foldl (fun env v => setenv v.1 v.2 env) (clearenv inherited))

/-- the variables that the child of `launch` sets, in order -/
def sessionVariables (user : UserInfo) (session : SessionInfo) (vt : ℤ) : List (Str × Str) :=
  let desktop := if session.desktopNames ≠ [] then session.desktopNames else session.name
  let runtimeDir := lit "/run/user/" ++ decimal user.uid.toNat
  [(lit "HOME", user.homeDir), (lit "USER", user.username), (lit "LOGNAME", user.username), (lit "SHELL", user.shell),
    (lit "PATH", lit "/usr/local/bin:/usr/bin:/bin:/usr/local/sbin:/usr/sbin"),
    (lit "XDG_DATA_DIRS", lit "/usr/local/share:/usr/share"), (lit "XDG_CONFIG_DIRS", lit "/etc/xdg"),
    (lit "XDG_SESSION_TYPE", lit "wayland"), (lit "XDG_SESSION_CLASS", lit "user"), (lit "XDG_SEAT", lit "seat0"),
    (lit "XDG_VTNR", decimal vt), (lit "XDG_CURRENT_DESKTOP", desktop), (lit "XDG_SESSION_DESKTOP", desktop),
    (lit "XDG_RUNTIME_DIR", runtimeDir), (lit "DBUS_SESSION_BUS_ADDRESS", lit "unix:path=" ++ runtimeDir ++ lit "/bus")]

/-- the variables that the child of `start_greeter` sets, in order -/
def greeterVariables (pw : Option Passwd) (vt : ℤ) (runtimeDir : Str) : List (Str × Str) :=
  (match pw with
    | some pw => [(lit "HOME", orEmpty pw.pwDir), (lit "USER", pw.pwName.chars), (lit "LOGNAME", pw.pwName.chars),
        (lit "SHELL", orEmpty pw.pwShell)]
    | none => []) ++
  [(lit "PATH", lit "/usr/local/bin:/usr/bin:/bin"), (lit "XDG_SESSION_CLASS", lit "greeter"),
    (lit "XDG_SESSION_TYPE", lit "wayland"), (lit "XDG_SEAT", lit "seat0"), (lit "XDG_VTNR", decimal vt),
    (lit "XDG_RUNTIME_DIR", runtimeDir)]

theorem childEnviron_session (inherited : List (Str × Str)) (user : UserInfo) (session : SessionInfo) (vt : ℤ)
    (pamEnvs : List Str) : childEnviron inherited (sessionVariables user session vt) pamEnvs =
      overlay pamEnvs (sessionBaseEnv inherited user session vt) := by
  simp only [childEnviron, sessionVariables, sessionBaseEnv, List.foldl_cons, List.foldl_nil]

theorem childEnviron_greeter (inherited : List (Str × Str)) (pw : Option Passwd) (vt : ℤ) (runtimeDir : Str)
    (pamEnvs : List Str) : childEnviron inherited (greeterVariables pw vt runtimeDir) pamEnvs =
      overlay pamEnvs (greeterBaseEnv inherited pw vt runtimeDir) := by
  cases pw <;> simp only [childEnviron, greeterVariables, greeterBaseEnv, List.cons_append, List.nil_append,
    List.foldl_cons, List.foldl_nil]

/-- variables with proper names, each of them once -/
structure Proper (env : List (Str × Str)) : Prop where
  named : ∀ v ∈ env, VarName v.1
  once : (env.map Prod.fst).Nodup

theorem Proper.setenv {env : List (Str × Str)} (h : Proper env) (name value : Str) :
    Proper (Miqudm.setenv name value env) := by
  unfold Miqudm.setenv
  simp only []
  split_ifs with hbad hany
  · exact h
  · -- the names stay
    have hnames : (env.map fun v => if v.1 = cstr name then (cstr name, cstr value) else v).map Prod.fst =
        env.map Prod.fst := by
      rw [List.map_map]
      apply List.map_congr_left
      intro v _
      simp only [Function.comp_apply]
      split_ifs with hv
      · exact hv.symm
      · rfl
    refine ⟨fun v hv => ?_, hnames ▸ h.once⟩
    have hmem : v.1 ∈ env.map Prod.fst := hnames ▸ List.mem_map_of_mem hv
    obtain ⟨w, hw, hname⟩ := List.mem_map.1 hmem
    exact hname ▸ h.named w hw
  · have hbad := not_or.1 hbad
    have hnul : nul ∉ cstr name := fun hmem => by simpa using List.mem_takeWhile_imp hmem
    constructor
    · intro v hv
      rcases List.mem_append.1 hv with hv | hv
      · exact h.named v hv
      · rw [List.mem_singleton.1 hv]
        exact ⟨hbad.1, hbad.2, hnul⟩
    · rw [List.map_append, List.nodup_append]
      refine ⟨h.once, by simp, ?_⟩
      intro a ha b hb
      obtain ⟨v, hv, rfl⟩ := List.mem_map.1 ha
      obtain rfl : b = cstr name := by simpa using hb
      exact fun hsame => hany (List.any_eq_true.2 ⟨v, hv, decide_eq_true hsame⟩)

theorem Proper.overlay (pamEnvs : List Str) : ∀ {env : List (Str × Str)}, Proper env →
    Proper (Miqudm.overlay pamEnvs env) := by
  induction pamEnvs with
  | nil => exact fun h => h
  | cons entry pamEnvs ih =>
    intro env h
    apply ih
    simp only []
    split
    · exact h.setenv _ _
    · exact h

theorem Proper.vars (vars : List (Str × Str)) : ∀ {env : List (Str × Str)}, Proper env →
    Proper (vars.foldl (fun env v => Miqudm.setenv v.1 v.2 env) env) := by
  induction vars with
  | nil => exact fun h => h
  | cons v vars ih => exact fun h => ih (h.setenv v.1 v.2)

/-- setenv adds no name but its own -/
theorem fst_setenv {name value : Str} {env : List (Str × Str)} {v : Str × Str} (h : v ∈ setenv name value env) :
    v.1 = cstr name ∨ v.1 ∈ env.map Prod.fst := by
  unfold setenv at h
  simp only [] at h
  split_ifs at h
  · exact Or.inr (List.mem_map_of_mem h)
  · obtain ⟨w, hw, rfl⟩ := List.mem_map.1 h
    split_ifs
    · exact Or.inl rfl
    · exact Or.inr (List.mem_map_of_mem hw)
  · rcases List.mem_append.1 h with h | h
    · exact Or.inr (List.mem_map_of_mem h)
    · exact Or.inl (congrArg Prod.fst (List.mem_singleton.1 h))

theorem fst_vars (vars : List (Str × Str)) : ∀ {env : List (Str × Str)} {v : Str × Str},
    v ∈ vars.foldl (fun env v => setenv v.1 v.2 env) env → v.1 ∈ vars.map (fun v => cstr v.1) ∨ v.1 ∈ env.map Prod.fst := by
  induction vars with
  | nil => exact fun h => Or.inr (List.mem_map_of_mem h)
  | cons w vars ih =>
    intro env v h
    rcases ih h with h | h
    · exact Or.inl (List.mem_cons_of_mem _ h)
    · obtain ⟨u, hu, hname⟩ := List.mem_map.1 h
      rcases fst_setenv hu with hu | hu
      · exact Or.inl (hname ▸ hu ▸ List.mem_cons_self ..)
      · exact Or.inr (hname ▸ hu)

/-- a name that is there once has the value it is there with -/
theorem Proper.lookup {env : List (Str × Str)} (h : Proper env) {v : Str × Str} (hv : v ∈ env) :
    env.lookup v.1 = some v.2 := by
  have hone := h.once
  clear h
  induction env with
  | nil => cases hv
  | cons w env ih =>
    rw [List.map_cons, List.nodup_cons] at hone
    rcases List.mem_cons.1 hv with rfl | hv
    · exact List.lookup_cons_self
    · have hne : v.1 ≠ w.1 := fun hsame => hone.1 (hsame ▸ List.mem_map_of_mem hv)
      rw [List.lookup_cons, beq_false_of_ne hne]
      exact ih hv hone.2

/-- **What is put arrives**, over the base environment that the variables make. A name has the last value put for it, and
without one what it has in the base environment; each name is there once; and nothing is there that was neither put nor
set, whatever was inherited. -/
structure Delivered (puts : List (Str × Option Str)) (vars : List (Str × Str)) (env : List (Str × Str)) : Prop where
  value : ∀ name, VarName name →
    env.lookup name = (lastPut puts name).or ((childEnviron [] vars []).lookup name)
  proper : Proper env
  own : ∀ v ∈ env, lastPut puts v.1 = some v.2 ∨ v.1 ∈ vars.map fun v => cstr v.1

theorem Holds.overlaid {puts : List (Str × Option Str)} {pamEnvs : List Str} (h : Holds puts pamEnvs)
    (inherited vars : List (Str × Str)) : Delivered puts vars (childEnviron inherited vars pamEnvs) := by
  have hvalue : ∀ name, VarName name → (childEnviron inherited vars pamEnvs).lookup name =
      (lastPut puts name).or ((childEnviron [] vars []).lookup name) := by
    intro name hname
    have hlast : (told name pamEnvs).getLast? = lastPut puts name := by
      rw [h.values name hname]
      cases lastPut puts name <;> rfl
    rw [childEnviron, lookup_overlay hname, hlast]
    rfl
  have hproper : ∀ inherited pamEnvs, Proper (childEnviron inherited vars pamEnvs) := fun inherited pamEnvs =>
    Proper.overlay _ (Proper.vars _ ⟨by simp [clearenv], by simp [clearenv]⟩)
  refine ⟨hvalue, hproper _ _, fun v hv => ?_⟩
  have hlookup := (hproper inherited pamEnvs).lookup hv
  rw [hvalue _ ((hproper inherited pamEnvs).named v hv)] at hlookup
  cases hput : lastPut puts v.1 with
  | some value =>
    rw [hput, Option.some_or] at hlookup
    exact Or.inl hlookup
  | none =>
    -- the base has it
    rw [hput, Option.none_or] at hlookup
    obtain ⟨l, l', heq, -⟩ := List.lookup_eq_some_iff.1 hlookup
    have hmem : (v.1, v.2) ∈ childEnviron [] vars [] := by simp [heq]
    exact Or.inr ((fst_vars vars hmem).resolve_right (by simp [clearenv]))

/-! ## Calls on a PAM object -/

/-- what is done with a PAM object between its start and the fork -/
inductive PamUse where
  | setEnv (name value : Str)
  | authenticate (password : Str)
  | checkAccount
  | establishCredentials
  | openSession
deriving DecidableEq, Repr

namespace PamUse

/-- `set_env` is given a name that is not empty and has no '=', and a value without NUL -/
def Fit : PamUse → Prop
  | .setEnv name value => name ≠ [] ∧ '=' ∉ name ∧ nul ∉ value
  | _ => True

variable (E : PamEnv)

def run (self : PamAuth) : PamUse → PamM PamAuth
  | .setEnv name value => do
    let _ ← self.setEnv E name value
    return self
  | .authenticate password => do return (← self.authenticate E password).2
  | .checkAccount => do return (← self.checkAccount E).2
  | .establishCredentials => do return (← self.establishCredentials E).2
  | .openSession => do return (← self.openSession E).2

/-- how many calls of libpam it makes, the first of which is its `n`-th -/
def calls (n : ℕ) : PamUse → ℕ
  | .authenticate _ => if E.ret n = pamSuccess then 2 else 1
  | _ => 1

/-- what it puts. A `set_env` that fails puts nothing, and a name that libpam sees end at a NUL is one without a value -/
def puts (n : ℕ) : PamUse → List (Str × Option Str)
  | .setEnv name value =>
    if E.ret n ≠ pamSuccess then [] else if nul ∈ name then [(cstr name, none)] else [(name, some value)]
  | .authenticate _ => if E.ret n = pamSuccess then (E.modules (n + 1)).map assignment else []
  | _ => (E.modules n).map assignment

end PamUse

def useAll (E : PamEnv) (self : PamAuth) : List PamUse → PamM PamAuth
  | [] => return self
  | use :: uses => do
    let self ← use.run E self
    useAll E self uses

/-- what the calls put, in order -/
def putAll (E : PamEnv) (n : ℕ) : List PamUse → List (Str × Option Str)
  | [] => []
  | use :: uses => use.puts E n ++ putAll E (n + use.calls E n) uses

/-- the entry of a `set_env` -/
theorem assignment_setEnv {name value : Str} (hname : '=' ∉ name) (hvalue : nul ∉ value) :
    assignment (cstr (name ++ lit "=" ++ value)) = if nul ∈ name then (cstr name, none) else (name, some value) := by
  split_ifs with hnul
  · have hcut : cstr (name ++ lit "=" ++ value) = cstr name := by
      obtain ⟨a, b, rfl, ha⟩ := List.eq_append_cons_of_mem hnul
      have hstop : ∀ rest, cstr (a ++ nul :: rest) = a := by
        intro rest
        rw [cstr_append ha]
        simp [cstr]
      simp only [List.append_assoc, List.cons_append, hstop]
    have hnone : splitFirst '=' (cstr name) = none := splitFirst_eq_none fun hmem => hname (mem_of_mem_cstr hmem)
    rw [hcut, assignment, hnone]
  · have hentry : name ++ lit "=" ++ value = name ++ '=' :: value := by simp [lit]
    rw [hentry, cstr_append hnul, cstr_cons (by decide), cstr_of_noNul hvalue, assignment,
      splitFirst_of_notMem hname]

section Uses

variable {E : PamEnv} (hE : ∀ n, ∀ entry ∈ E.modules n, nul ∉ entry) {self : PamAuth} {p : Libpam} {h : ℕ}
  {puts : List (Str × Option Str)}

include hE in
theorem pamRun_holds (he : EnvAt h (Holds puts) p) (fn : PamFn) : Ends (pamRun E fn h) p fun _ p' =>
    p'.calls = p.calls + 1 ∧ EnvAt h (Holds (puts ++ (E.modules p.calls).map assignment)) p' := by
  refine ends_get_bind (Ends.seq (ends_act ⟨rfl, ?_⟩) fun _ _ he => ends_pure he)
  exact he.onHandle (fun _ => rfl) fun hd hhd => hhd.modules _ (hE p.calls)

include hE in
theorem runStep_holds (hh : self.pamHandle = some h) (he : EnvAt h (Holds puts) p) (fn : PamFn) {noted : PamAuth}
    (hn : noted.pamHandle = some h) : Ends (self.runStep E fn noted) p fun r p' => r.2.pamHandle = some h ∧
      p'.calls = p.calls + 1 ∧ EnvAt h (Holds (puts ++ (E.modules p.calls).map assignment)) p' := by
  simp only [PamAuth.runStep, hh]
  apply Ends.seq (pamRun_holds hE he fn)
  intro ret p' he'
  apply ends_ite
  · exact fun _ => ends_pure ⟨rfl, he'⟩
  · exact fun _ => ends_pure ⟨hn, he'⟩

theorem setEnv_holds (hh : self.pamHandle = some h) (he : EnvAt h (Holds puts) p) {name value : Str}
    (hfit : (PamUse.setEnv name value).Fit) : Ends (self.setEnv E name value) p fun _ p' =>
      p'.calls = p.calls + 1 ∧ EnvAt h (Holds (puts ++ (PamUse.setEnv name value).puts E p.calls)) p' := by
  have hnul : nul ∉ cstr (name ++ lit "=" ++ value) := fun hmem => by simpa using List.mem_takeWhile_imp hmem
  simp only [PamAuth.setEnv, hh]
  refine Ends.seq (ends_get_bind (Ends.seq (ends_act ⟨rfl, ?_⟩) fun _ _ he => ends_pure he)) fun _ _ he => ends_pure he
  apply he.onHandle
  · intro hd
    split_ifs <;> rfl
  · intro hd hhd
    by_cases hret : E.ret p.calls = pamSuccess
    · rw [if_pos hret]
      have hput := hhd.put hnul
      rw [assignment_setEnv hfit.2.1 hfit.2.2] at hput
      simp only [PamUse.puts, hret, ne_eq, not_true_eq_false, if_false]
      split_ifs at hput ⊢ <;> exact hput
    · rw [if_neg hret]
      simpa [PamUse.puts, hret] using hhd

include hE in
theorem authenticate_holds (hh : self.pamHandle = some h) (he : EnvAt h (Holds puts) p) (password : Str) :
    Ends (self.authenticate E password) p fun r p' => r.2.pamHandle = some h ∧
      p'.calls = p.calls + (PamUse.authenticate password).calls E p.calls ∧
      EnvAt h (Holds (puts ++ (PamUse.authenticate password).puts E p.calls)) p' := by
  -- the life of the password leaves the handles alone, and is no call of libpam
  have act : ∀ {p : Libpam} {puts : List (Str × Option Str)} {n : ℕ} (c : PamCall) {f : Libpam → Libpam},
      (∀ p, (f p).handles = p.handles ∧ (f p).calls = p.calls) → p.calls = n ∧ EnvAt h (Holds puts) p →
      Ends (Prog.act c f : PamM Unit) p fun _ p' => p'.calls = n ∧ EnvAt h (Holds puts) p' := by
    intro p puts n c f hf hp
    obtain ⟨hcalls, hd, hhd, hholds⟩ := hp
    exact ends_act ⟨(hf p).2.trans hcalls, hd, by rw [Libpam.handle?, (hf p).1]; exact hhd, hholds⟩
  simp only [PamAuth.authenticate, hh, PamUse.calls, PamUse.puts]
  refine Ends.seq (q := fun _ p' => p'.calls = p.calls ∧ EnvAt h (Holds puts) p') ?_ fun d p1 h1 => ?_
  · exact ends_get_bind (Ends.seq (act _ (fun _ => ⟨rfl, rfl⟩) ⟨rfl, he⟩) fun _ _ he => ends_pure he)
  have hconv : Ends (pamSetConv E h d) p1 fun ret p' => ret = E.ret p.calls ∧ p'.calls = p.calls + 1 ∧
      EnvAt h (Holds puts) p' := by
    refine ends_get_bind (Ends.seq (q := fun _ p' => p'.calls = p.calls + 1 ∧ EnvAt h (Holds puts) p')
      (ends_act ⟨congrArg (· + 1) h1.1, ?_⟩) fun _ _ he => ends_pure ⟨by rw [h1.1], he⟩)
    apply h1.2.onHandle
    · intro hd
      split_ifs <;> rfl
    · intro hd hhd
      split_ifs <;> exact hhd
  apply Ends.seq hconv
  intro ret p2 h2
  obtain ⟨hret, h2⟩ := h2
  apply ends_ite
  · intro hfail
    rw [hret] at hfail
    refine Ends.seq (act _ (fun _ => ⟨rfl, rfl⟩) h2) fun _ p3 h3 => ends_pure ⟨rfl, ?_⟩
    rw [if_neg hfail, if_neg hfail, List.append_nil]
    exact h3
  · intro hok
    rw [hret, not_not] at hok
    rw [if_pos hok, if_pos hok]
    apply ends_get_bind
    have hrun := pamRun_holds hE h2.2 (.authenticate (p2.answer h))
    rw [h2.1] at hrun
    apply Ends.seq hrun
    intro ret3 p3 h3
    have hwipe : Ends (Prog.when (password ≠ []) (wipeUserData d)) p3 fun _ p' => p'.calls = p.calls + 1 + 1 ∧
        EnvAt h (Holds (puts ++ (E.modules (p.calls + 1)).map assignment)) p' :=
      ends_when (fun _ => act _ (fun _ => ⟨rfl, rfl⟩) h3) fun _ => h3
    refine Ends.seq hwipe fun _ p4 h4 => ?_
    refine Ends.seq (act _ (fun _ => ⟨rfl, rfl⟩) h4) fun _ p5 h5 => ends_ite (fun _ => ends_pure ?_) fun _ => ends_pure ?_
    · exact ⟨rfl, h5⟩
    · exact ⟨hh, h5⟩

include hE in
/-- **One call.** -/
theorem use_holds (hh : self.pamHandle = some h) (he : EnvAt h (Holds puts) p) {use : PamUse} (hfit : use.Fit) :
    Ends (use.run E self) p fun self' p' => self'.pamHandle = some h ∧ p'.calls = p.calls + use.calls E p.calls ∧
      EnvAt h (Holds (puts ++ use.puts E p.calls)) p' := by
  cases use with
  | setEnv name value => exact Ends.seq (setEnv_holds hh he hfit) fun _ _ hr => ends_pure ⟨hh, hr⟩
  | authenticate password => exact Ends.seq (authenticate_holds hE hh he password) fun _ _ hr => ends_pure hr
  | checkAccount => exact Ends.seq (runStep_holds hE hh he _ hh) fun _ _ hr => ends_pure hr
  | establishCredentials => exact Ends.seq (runStep_holds hE hh he _ hh) fun _ _ hr => ends_pure hr
  | openSession => exact Ends.seq (runStep_holds hE hh he _ hh) fun _ _ hr => ends_pure hr

include hE in
/-- **Any calls.** -/
theorem useAll_holds (uses : List PamUse) : ∀ {self : PamAuth} {p : Libpam} {puts : List (Str × Option Str)},
    (∀ use ∈ uses, use.Fit) → self.pamHandle = some h → EnvAt h (Holds puts) p →
    Ends (useAll E self uses) p fun self' p' => self'.pamHandle = some h ∧
      EnvAt h (Holds (puts ++ putAll E p.calls uses)) p' := by
  induction uses with
  | nil =>
    intro self p puts _ hh he
    rw [putAll, List.append_nil]
    exact ends_pure ⟨hh, he⟩
  | cons use uses ih =>
    intro self p puts hfit hh he
    rw [List.forall_mem_cons] at hfit
    apply Ends.seq (use_holds hE hh he hfit.1)
    intro self' p' hr
    obtain ⟨hh', hcalls, he'⟩ := hr
    have hrest := ih hfit.2 hh' he'
    rw [hcalls, List.append_assoc] at hrest
    exact hrest

end Uses

/-! ## The two children -/

theorem greeterChild_env {E : Env} {pw : Option Passwd} {cmd runtimeDir : Str} {s : St} {a : ChildAnswers} {image : Image}
    (h : (greeterChild E pw cmd runtimeDir s a).fate = .exec image) :
    image.env = overlay (greeterPamEnv s) (greeterBaseEnv E.environ pw s.config.general.vt runtimeDir) := by
  simp only [greeterChild] at h
  split at h
  · cases h
  · split at h
    · cases h
    · cases h
      rfl

/-- what a log executes in a child -/
def Executes (log : List (Event × St)) (what : ChildKind) (image : Image) : Prop :=
  ∃ pid child s, (.fork what (some (pid, child)), s) ∈ log ∧ child.fate = .exec image

section Children

variable {E : Env} {s : St}

/-- a session that is forked runs the child of these arguments -/
def Launched (E : Env) (user : UserInfo) (session : SessionInfo) (pamEnvs : List Str) (vt : ℤ) (e : Event) (_ : St) :
    Prop :=
  ∀ pid child, e = .fork .session (some (pid, child)) → ∃ t a, child = sessionChild E user session pamEnvs vt t a

theorem launched_of_not_forks {user : UserInfo} {session : SessionInfo} {pamEnvs : List Str} {vt : ℤ} {e : Event} {t : St}
    (he : e.forksSession = false) : Launched E user session pamEnvs vt e t := by
  rintro pid child rfl
  cases he

theorem launch_executes {user : UserInfo} {session : SessionInfo} {pamEnvs : List Str} {vt : ℤ} {image : Image}
    (h : Executes (launch E user session pamEnvs vt s).log .session image) :
    image.env = overlay pamEnvs (sessionBaseEnv E.environ user session vt) := by
  have hsafe : Safe (Launched E user session pamEnvs vt) (launch E user session pamEnvs vt) s (fun _ _ => True) := by
    apply safe_bind
    apply safe_op
    · exact launched_of_not_forks rfl
    intro b
    refine ⟨launched_of_not_forks rfl, ?_⟩
    apply Safe.seq (Calm.safe (isRunning_calm E) rfl fun e t he _ => ?_)
    · intro running t _
      apply safe_ite
      · exact fun _ => safe_pure trivial
      intro _
      apply safe_bind
      apply safe_bind
      apply safe_get
      apply safe_bind
      apply safe_op
      · exact launched_of_not_forks rfl
      intro b'
      constructor
      · intro pid child hfork
        obtain ⟨_, -, hpair⟩ := Option.map_eq_some_iff.1 (Event.fork.inj hfork).2
        exact ⟨t, _, (Prod.mk.inj hpair).2.symm⟩
      · apply safe_pure
        split
        · exact safe_pure trivial
        · apply safe_bind
          apply safe_op
          · exact launched_of_not_forks rfl
          · exact fun _ => ⟨launched_of_not_forks rfl, safe_pure trivial⟩
    · rintro pid child rfl
      cases he
  obtain ⟨pid, child, t, hfork, himage⟩ := h
  obtain ⟨t', a, rfl⟩ := Safe.log hsafe _ hfork pid child rfl
  exact sessionChild_env himage

/-! ### The start of a greeter -/

/-- the calls of `start_greeter` on the object it has started -/
def greeterUses (vt : ℤ) : List PamUse := [
  .setEnv (lit "XDG_SESSION_CLASS") (lit "greeter"),
  .setEnv (lit "XDG_SESSION_TYPE") (lit "wayland"),
  .setEnv (lit "XDG_SEAT") (lit "seat0"),
  .setEnv (lit "XDG_VTNR") (decimal vt),
  .establishCredentials,
  .openSession]

/-- what is put for the greeter: what these calls put, or nothing when the start failed and there is no handle -/
def GreeterPuts (E : Env) (vt : ℤ) (s : St) (puts : List (Str × Option Str)) : Prop :=
  (s.greeterPam.bind PamAuth.pamHandle = none ∧ puts = []) ∨ ∃ n, puts = putAll E.pam n (greeterUses vt)

/-- its list holds just that -/
def GreeterHolds (E : Env) (vt : ℤ) (s : St) : Prop := ∃ puts, GreeterPuts E vt s puts ∧ Holds puts (greeterPamEnv s)

theorem nul_notMem_decimal (i : ℤ) : nul ∉ decimal i := by
  have hdigits : ∀ n, nul ∉ Nat.toDigits 10 n := by
    intro n hmem
    have hdigit : nul.isDigit = true := Nat.isDigit_of_mem_toDigits (by decide) (by decide) hmem
    exact absurd hdigit (by decide)
  cases i with
  | ofNat n =>
    rw [Int.ofNat_eq_natCast, decimal_ofNat]
    exact hdigits n
  | negSucc n =>
    rw [decimal_negSucc, List.mem_cons, not_or]
    exact ⟨by decide, hdigits (n + 1)⟩

theorem greeterUses_fit (vt : ℤ) : ∀ use ∈ greeterUses vt, use.Fit := by
  have hvt := nul_notMem_decimal vt
  have hnames : ∀ name ∈ [lit "XDG_SESSION_CLASS", lit "XDG_SESSION_TYPE", lit "XDG_SEAT", lit "XDG_VTNR"],
      name ≠ [] ∧ '=' ∉ name := by decide
  have hvalues : ∀ value ∈ [lit "greeter", lit "wayland", lit "seat0"], nul ∉ value := by decide
  simp only [List.forall_mem_cons] at hnames hvalues
  obtain ⟨hclass, htype, hseat, hvtnr, -⟩ := hnames
  obtain ⟨hgreeter, hwayland, hseat0, -⟩ := hvalues
  simp only [greeterUses, List.forall_mem_cons]
  exact ⟨⟨hclass.1, hclass.2, hgreeter⟩, ⟨htype.1, htype.2, hwayland⟩, ⟨hseat.1, hseat.2, hseat0⟩,
    ⟨hvtnr.1, hvtnr.2, hvt⟩, trivial, trivial, by simp⟩

theorem openGreeterPam_holds (hE : ∀ n, ∀ entry ∈ E.pam.modules n, nul ∉ entry) {pam : PamAuth} {h : ℕ}
    (hh : pam.pamHandle = some h) (he : EnvAt h (Holds []) s.pam) (vt : ℤ) :
    Ends (openGreeterPam E pam vt) s fun _ t => GreeterHolds E vt t := by
  have hfit := greeterUses_fit vt
  simp only [greeterUses, List.forall_mem_cons] at hfit
  obtain ⟨hclass, htype, hseat, hvtnr, -⟩ := hfit
  apply Ends.seq (onPam_ends (setEnv_holds hh he hclass))
  intro _ t1 h1
  apply Ends.seq (onPam_ends (setEnv_holds hh h1.2 htype))
  intro _ t2 h2
  apply Ends.seq (onPam_ends (setEnv_holds hh h2.2 hseat))
  intro _ t3 h3
  apply Ends.seq (onPam_ends (setEnv_holds hh h3.2 hvtnr))
  intro _ t4 h4
  have hestablish : Ends (pam.establishCredentials E.pam) t4.pam _ := runStep_holds hE hh h4.2 .establishCred hh
  apply Ends.seq (onPam_ends hestablish)
  intro ⟨_, pam5⟩ t5 h5
  obtain ⟨hh5, hcalls5, he5⟩ := h5
  refine Ends.seq (q := fun _ t => t.pam = t5.pam) (ends_op fun _ => rfl) fun _ t6 h6 => ?_
  rw [← h6] at he5 hcalls5
  have hopen : Ends (pam5.openSession E.pam) t6.pam _ := runStep_holds hE hh5 he5 .openSession hh5
  apply Ends.seq (onPam_ends hopen)
  intro ⟨_, pam7⟩ t7 h7
  obtain ⟨hh7, -, hd, hhd, hholds⟩ := h7
  -- the member is this object, and its handle has the list
  refine ends_op fun b => ⟨putAll E.pam s.pam.calls (greeterUses vt), Or.inr ⟨_, rfl⟩, ?_⟩
  have henv : greeterPamEnv (({ t7.setRunning b with greeterPam := some pam7 } : St).tick (t7.now + 1)) = hd.env := by
    obtain ⟨pamHandle, _⟩ := pam7
    obtain rfl : pamHandle = some h := hh7
    exact congrArg (fun hd => (hd.map Handle.env).getD []) hhd
  have hputs : putAll E.pam s.pam.calls (greeterUses vt) = [] ++ (PamUse.setEnv (lit "XDG_SESSION_CLASS")
      (lit "greeter")).puts E.pam s.pam.calls ++ (PamUse.setEnv (lit "XDG_SESSION_TYPE") (lit "wayland")).puts E.pam
      t1.pam.calls ++ (PamUse.setEnv (lit "XDG_SEAT") (lit "seat0")).puts E.pam t2.pam.calls ++
      (PamUse.setEnv (lit "XDG_VTNR") (decimal vt)).puts E.pam t3.pam.calls ++
      (E.pam.modules t4.pam.calls).map assignment ++ (E.pam.modules t6.pam.calls).map assignment := by
    simp only [hcalls5, h4.1, h3.1, h2.1, h1.1, greeterUses, putAll, PamUse.calls, PamUse.puts, List.append_assoc,
      List.nil_append, List.append_nil]
    rfl
  rw [henv, hputs]
  exact hholds

theorem greeterHolds_nil {vt : ℤ} {pam : PamAuth} (h : s.greeterPam = some pam) (hnone : pam.pamHandle = none) :
    GreeterHolds E vt s := by
  have henv : greeterPamEnv s = [] := by
    unfold greeterPamEnv
    rw [h]
    obtain ⟨pamHandle, _⟩ := pam
    obtain rfl : pamHandle = none := hnone
    rfl
  refine ⟨[], Or.inl ⟨?_, rfl⟩, ?_⟩
  · rw [h]
    exact hnone
  · rw [henv]
    exact holds_nil

/-- it is read off libpam and the member -/
theorem GreeterHolds.of_holdings {vt : ℤ} {t : St} (hs : GreeterHolds E vt s) (h : holdings s = holdings t) :
    GreeterHolds E vt t := by
  obtain ⟨hpam, hmember, -⟩ := holdings_eq h
  unfold GreeterHolds GreeterPuts greeterPamEnv at hs ⊢
  rwa [hpam, hmember] at hs

/-- at the fork of the greeter -/
theorem startGreeter_holds (hE : ∀ n, ∀ entry ∈ E.pam.modules n, nul ∉ entry) :
    Safe (fun e t => e.calm = false → GreeterHolds E s.config.general.vt t) (startGreeter E) s (fun _ _ => True) := by
  have calm : ∀ (e : Event) (t : St), e.calm → e.calm = false → GreeterHolds E s.config.general.vt t := by
    intro e t he hno
    rw [hno] at he
    cases he
  have part : ∀ {α : Type} {x : Sys α} {g : St → St} {t : St} {q : α → St → Prop}, Within (calmly g) x → Ends x t q →
      Safe (fun e t => e.calm = false → GreeterHolds E s.config.general.vt t) x t q := fun hx hq =>
    Watched.mono (Watched.and_sat (Calm.safe hx rfl fun e t he _ => calm e t he) hq) fun _ _ _ h => h.2
  have hstart : ∀ (p : Libpam) username service, Ends (PamAuth.start E.pam {} username service) p fun r p' =>
      (r.1 = true → HasEnv (· = []) r.2 p') ∧ (r.1 = false → r.2.pamHandle = none) := fun p username service =>
    (start_empty _ _).and (Sat.ends (PamAuth.start_spec _ _) fun _ _ _ h hfail => congrArg Prod.fst (h.2.2 hfail))
  refine safe_bind (safe_get (safe_ite (fun _ => safe_pure trivial) fun _ => ?_))
  refine Safe.seq (part (renewGreeterPam_calm E) (ends_any _ _)) fun _ t _ => ?_
  refine Safe.seq (part (onPam_calm E _) (onPam_ends (hstart _ _ _))) ?_
  intro ⟨ok, pam⟩ t hpam
  have hset : Ends (setGreeterPam E pam) t fun _ u => u.greeterPam = some pam ∧ u.pam = t.pam :=
    ends_op fun _ => ⟨rfl, rfl⟩
  refine Safe.seq (part (setGreeterPam_calm E pam) hset) fun _ u hu => ?_
  obtain ⟨hmember, hsame⟩ := hu
  have hopen : Ends (Prog.when ok (openGreeterPam E pam s.config.general.vt)) u fun _ t =>
      GreeterHolds E s.config.general.vt t := by
    apply ends_when
    · intro hok
      obtain ⟨h, hh, hd, hhd, hempty⟩ := hpam.1 hok
      exact openGreeterPam_holds hE hh ⟨hd, hsame ▸ hhd, by rw [hempty]; exact holds_nil⟩ _
    · intro hfail
      exact greeterHolds_nil hmember (hpam.2 (by simpa using hfail))
  refine Safe.seq (part (within_when (openGreeterPam_calm E pam _)) hopen) fun _ v hv => ?_
  have hdir : Ends (makeRuntimeDir E (resolveGreeterUser (E.passwd s.now) s.config.general.greeterUser).1) v fun _ t =>
      GreeterHolds E s.config.general.vt t :=
    Ends.mono (aside_ends (makeRuntimeDir_aside E _) v) fun _ _ => hv.of_holdings
  refine Safe.seq (part (makeRuntimeDir_calm E _) hdir) fun runtimeDir w hw => ?_
  apply safe_bind
  apply safe_bind
  apply safe_get
  apply safe_bind
  apply safe_op
  · exact calm _ _ rfl
  intro b
  refine ⟨fun _ => hw, safe_pure ?_⟩
  split
  · exact safe_pure trivial
  · apply safe_op
    · exact calm _ _ rfl
    · exact fun b' => ⟨calm _ _ rfl, trivial⟩

/-- **The child of `start_greeter`.** -/
theorem startGreeter_executes (hE : ∀ n, ∀ entry ∈ E.pam.modules n, nul ∉ entry) {u : St} {pid : Pid} {child : Child}
    {image : Image} (hfork : (.fork .greeter (some (pid, child)), u) ∈ (startGreeter E s).log)
    (himage : child.fate = .exec image) : GreeterHolds E s.config.general.vt u ∧ ∃ runtimeDir,
      image.env = overlay (greeterPamEnv u) (greeterBaseEnv E.environ
        (resolveGreeterUser (E.passwd s.now) s.config.general.greeterUser).1 s.config.general.vt runtimeDir) := by
  have hchild := Safe.log (startGreeter_safe (G := fun e u => ∀ pid child, e = .fork .greeter (some (pid, child)) →
    ∃ runtimeDir t a, apartRuntime s = apartRuntime t ∧ apartClock t = apartClock u ∧
      child = greeterChild E (resolveGreeterUser (E.passwd s.now) s.config.general.greeterUser).1
        s.config.general.greeterCommand runtimeDir t a) E (fun e u he _ pid child hevent => ?_)
    (fun _ t ht runtimeDir u _ hu pid child hevent => ?_) fun e u he _ pid child hevent => ?_) _ hfork pid child rfl
  · obtain ⟨runtimeDir, t, a, ht, hu, rfl⟩ := hchild
    have hconfig : s.config = t.config := same_of_erased ht fun _ => rfl
    have henv : greeterPamEnv t = greeterPamEnv u := by
      have hpam : t.pam = u.pam := same_of_erased hu fun _ => rfl
      have hmember : t.greeterPam = u.greeterPam := same_of_erased hu fun _ => rfl
      unfold greeterPamEnv
      rw [hpam, hmember]
    refine ⟨Safe.log (startGreeter_holds hE) _ hfork rfl, runtimeDir, ?_⟩
    rw [greeterChild_env himage, ← hconfig, henv]
  · subst hevent
    cases he
  · obtain ⟨_, -, hpair⟩ := Option.map_eq_some_iff.1 (Event.fork.inj hevent).2
    exact ⟨runtimeDir, t, _, ht, hu, (Prod.mk.inj hpair).2.symm⟩
  · subst hevent
    cases he

/-- the list that is read back after the calls -/
theorem getEnvironmentList_holds {self : PamAuth} {h : ℕ} {p : Libpam} {puts : List (Str × Option Str)}
    (hh : self.pamHandle = some h) (he : EnvAt h (Holds puts) p) {pamEnvs : List Str}
    (hread : (self.getEnvironmentList p).fin = .ok pamEnvs) : Holds puts pamEnvs :=
  Sat.of_ok (getEnvironmentList_env hh he) hread

theorem greeterPamEnv_holds {self : PamAuth} {h : ℕ} {puts : List (Str × Option Str)} (hh : self.pamHandle = some h)
    (he : EnvAt h (Holds puts) s.pam) (hmember : s.greeterPam = some self) : Holds puts (greeterPamEnv s) := by
  obtain ⟨hd, hhd, hholds⟩ := he
  have henv : greeterPamEnv s = hd.env := by
    unfold greeterPamEnv
    rw [hmember]
    obtain ⟨pamHandle, _⟩ := self
    obtain rfl : pamHandle = some h := hh
    exact congrArg (fun hd => (hd.map Handle.env).getD []) hhd
  exact henv ▸ hholds

end Children

/-- **The PAM environment is delivered intact.** After any calls on a PAM object whose handle starts with an empty
environment: to the child of `launch` that is given the list read back, and to the child of `start_greeter` when it is
the object of the greeter. The calls that `start_greeter` itself makes are of this kind. -/
theorem delivered (E : Env) (hE : ∀ n, ∀ entry ∈ E.pam.modules n, nul ∉ entry) :
    (∀ (uses : List PamUse) (self : PamAuth) (h : ℕ) (p : Libpam), (∀ use ∈ uses, use.Fit) → self.pamHandle = some h →
      EnvAt h (· = []) p → Ends (useAll E.pam self uses) p fun self' p' => ∀ s : St, s.pam.handle? h = p'.handle? h →
        (∀ pamEnvs, (self'.getEnvironmentList s.pam).fin = .ok pamEnvs → ∀ user session vt t image,
          Executes (launch E user session pamEnvs vt t).log .session image →
          Delivered (putAll E.pam p.calls uses) (sessionVariables user session vt) image.env) ∧
        (s.greeterPam = some self' → ∀ pw cmd runtimeDir a image,
          (greeterChild E pw cmd runtimeDir s a).fate = .exec image →
          Delivered (putAll E.pam p.calls uses) (greeterVariables pw s.config.general.vt runtimeDir) image.env)) ∧
    (∀ (s u : St) (pid : Pid) (child : Child) (image : Image),
      (.fork .greeter (some (pid, child)), u) ∈ (startGreeter E s).log → child.fate = .exec image →
      ∃ puts runtimeDir, GreeterPuts E s.config.general.vt u puts ∧
        Delivered puts (greeterVariables (resolveGreeterUser (E.passwd s.now) s.config.general.greeterUser).1
          s.config.general.vt runtimeDir) image.env) := by
  constructor
  · intro uses self h p hfit hh he
    have hempty : EnvAt h (Holds []) p := by
      obtain ⟨hd, hhd, hnil⟩ := he
      exact ⟨hd, hhd, by rw [hnil]; exact holds_nil⟩
    apply Ends.mono (useAll_holds hE uses hfit hh hempty)
    intro self' p' hr s hs
    obtain ⟨hh', he'⟩ := hr
    have he' : EnvAt h (Holds (putAll E.pam p.calls uses)) s.pam := he'.of_handle hs
    constructor
    · intro pamEnvs hread user session vt t image himage
      have hdelivered := (getEnvironmentList_holds hh' he' hread).overlaid E.environ
        (sessionVariables user session vt)
      rwa [childEnviron_session, ← launch_executes himage] at hdelivered
    · intro hmember pw cmd runtimeDir a image himage
      have hdelivered := (greeterPamEnv_holds hh' he' hmember).overlaid E.environ
        (greeterVariables pw s.config.general.vt runtimeDir)
      rwa [childEnviron_greeter, ← greeterChild_env himage] at hdelivered
  · intro s u pid child image hfork himage
    obtain ⟨⟨puts, hputs, hholds⟩, runtimeDir, henv⟩ := startGreeter_executes hE hfork himage
    refine ⟨puts, runtimeDir, hputs, ?_⟩
    have hdelivered := hholds.overlaid E.environ (greeterVariables (resolveGreeterUser (E.passwd s.now)
      s.config.general.greeterUser).1 s.config.general.vt runtimeDir)
    rwa [childEnviron_greeter, ← henv] at hdelivered

/-! ## Witnesses -/

/-- a module sets one variable twice and takes another away when the session is opened -/
def demo : Env :=
  let E := machine [greeterAccount, alice] [] {}
  { E with pam := { E.pam with
      modules := fun n => if n = 2 then [lit "LANG=de", lit "XDG_SEAT", lit "LANG=fr"] else [] } }

def demoUses : List PamUse :=
  [.setEnv (lit "OPTS") (lit "a=1"), .setEnv (lit "XDG_SEAT") (lit "seat1"), .openSession, .setEnv (lit "OPTS") (lit "b=2"),
    .setEnv (lit "EMPTY") []]

/-- a handle as it is started -/
def demoPam : Libpam := { handles := [⟨0, lit "alice", lit "miqudm", none, []⟩], nextHandle := 1 }

theorem demo_modules : ∀ n, ∀ entry ∈ demo.pam.modules n, nul ∉ entry := by
  intro n
  simp only [demo]
  split_ifs
  · decide
  · simp

/-- what is read back -/
def demoEnvs : List Str := [lit "OPTS=b=2", lit "LANG=fr", lit "EMPTY="]

def demoUser : UserInfo := { username := lit "alice", homeDir := lit "/home/alice", uid := 1000, gid := 1000 }

/-- the session that is launched with it -/
theorem demo_executes : ∃ image, Executes (launch demo demoUser {} demoEnvs 1 {}).log .session image := by
  have hany : ((launch demo demoUser {} demoEnvs 1 {}).log.any fun p => (execs p.1).any fun r => r.1 = .session) = true := by
    decide +kernel
  obtain ⟨⟨e, s⟩, hp, hexec⟩ := List.any_eq_true.1 hany
  obtain ⟨⟨what, image⟩, hsome, hwhat⟩ := (Option.any_eq_true _ _).1 hexec
  obtain rfl : what = .session := of_decide_eq_true hwhat
  obtain ⟨pid, child, rfl, hfate⟩ := fork_of_execs hsome
  exact ⟨image, pid, child, s, hp, hfate⟩

/-- a module sets a variable whenever it is called -/
def greeting : Env :=
  let E := machine [greeterAccount] [] {}
  { E with pam := { E.pam with modules := fun _ => [lit "LANG=fr"] } }

/-- the greeter that is started, and its PAM handle -/
theorem greeting_executes : ∃ u pid child image, (.fork .greeter (some (pid, child)), u) ∈ (startGreeter greeting {}).log ∧
    child.fate = .exec image ∧ (u.greeterPam.bind PamAuth.pamHandle).isSome := by
  have hany : ((startGreeter greeting {}).log.any fun p => (execs p.1).any fun r =>
      r.1 = .greeter ∧ (p.2.greeterPam.bind PamAuth.pamHandle).isSome) = true := by decide +kernel
  obtain ⟨⟨e, u⟩, hp, hexec⟩ := List.any_eq_true.1 hany
  obtain ⟨⟨what, image⟩, hsome, hwhat⟩ := (Option.any_eq_true _ _).1 hexec
  obtain ⟨rfl, hhandle⟩ := of_decide_eq_true hwhat
  obtain ⟨pid, child, rfl, hfate⟩ := fork_of_execs hsome
  exact ⟨u, pid, child, image, hp, hfate, hhandle⟩

/-- in the session the last value that is put arrives, also an empty one and one with '=', and what was taken away has
its base value; the greeter has what its module set, and its home -/
theorem delivered_demo :
    (∃ image, Executes (launch demo demoUser {} demoEnvs 1 {}).log .session image ∧
      image.env.lookup (lit "OPTS") = some (lit "b=2") ∧ image.env.lookup (lit "EMPTY") = some [] ∧
      image.env.lookup (lit "LANG") = some (lit "fr") ∧ image.env.lookup (lit "XDG_SEAT") = some (lit "seat0")) ∧
    ∃ image, Executes (startGreeter greeting {}).log .greeter image ∧
      image.env.lookup (lit "LANG") = some (lit "fr") ∧ image.env.lookup (lit "HOME") = some (lit "/var/greeter") := by
  constructor
  · obtain ⟨image, himage⟩ := demo_executes
    refine ⟨image, himage, ?_⟩
    have hfit : ∀ use ∈ demoUses, use.Fit := by
      simp only [demoUses, List.forall_mem_cons]
      exact ⟨by unfold PamUse.Fit; decide, by unfold PamUse.Fit; decide, trivial, by unfold PamUse.Fit; decide,
        by unfold PamUse.Fit; decide, by simp⟩
    have hends := (delivered demo demo_modules).1 demoUses { pamHandle := some 0 } 0 demoPam hfit rfl
      ⟨⟨0, lit "alice", lit "miqudm", none, []⟩, rfl, rfl⟩
    set after := useAll demo.pam { pamHandle := some 0 } demoUses demoPam
    have hsession := (Sat.of_ok hends (a := { pamHandle := some 0, sessionOpened := true }) rfl { pam := after.st } rfl).1
      demoEnvs rfl demoUser {} 1 {} image himage
    have hvalue := hsession.value
    refine ⟨?_, ?_, ?_, ?_⟩
    all_goals
      rw [hvalue _ (by decide)]
      decide +kernel
  · obtain ⟨u, pid, child, image, hfork, himage, hhandle⟩ := greeting_executes
    refine ⟨image, ⟨pid, child, u, hfork, himage⟩, ?_⟩
    have hmodules : ∀ n, ∀ entry ∈ greeting.pam.modules n, nul ∉ entry := by
      intro n
      show ∀ entry ∈ [lit "LANG=fr"], nul ∉ entry
      decide
    obtain ⟨puts, runtimeDir, hputs, hdelivered⟩ := (delivered greeting hmodules).2 {} u pid child image hfork himage
    obtain ⟨n, rfl⟩ : ∃ n, puts = putAll greeting.pam n (greeterUses 1) := by
      rcases hputs with ⟨hnone, -⟩ | hputs
      · rw [hnone] at hhandle
        cases hhandle
      · exact hputs
    constructor
    · rw [hdelivered.value _ (by decide)]
      rfl
    · rw [hdelivered.value _ (by decide)]
      rfl

end Miqudm.Delivery
