/-
The options of the daemon (`main` of `src/daemon/main.cpp`).

`options` is the loop over the arguments. `Reads` says of a whole command line that it starts the daemon, and which paths
its `-c` and `--config` options give, in order; `options_eq_start` is that the loop ends with the last of them. It is a
local variable of `main`: the daemon is constructed, initialised and run without it.
-/
import Miqudm.Daemon.Daemon

namespace Miqudm.CommandLine

open Miqudm.Core Prog

def IsHelp (arg : Str) : Prop := arg = lit "-h" ∨ arg = lit "--help"

def IsVersion (arg : Str) : Prop := arg = lit "-v" ∨ arg = lit "--version"

def IsConfig (arg : Str) : Prop := arg = lit "-c" ∨ arg = lit "--config"

instance (arg : Str) : Decidable (IsHelp arg) := inferInstanceAs (Decidable (_ ∨ _))

instance (arg : Str) : Decidable (IsVersion arg) := inferInstanceAs (Decidable (_ ∨ _))

instance (arg : Str) : Decidable (IsConfig arg) := inferInstanceAs (Decidable (_ ∨ _))

inductive Options where
  | help
  | version
  | start (configPath : Str)
deriving DecidableEq, Repr

/-- the loop over the arguments after the program's name; `configPath` is the local variable -/
def options (configPath : Str) : List Str → Options
  | [] => .start configPath
  | [arg] => if IsHelp arg then .help else if IsVersion arg then .version else .start configPath
  | arg :: next :: args =>
    if IsHelp arg then .help
    else if IsVersion arg then .version
    else if IsConfig arg then options next args
    else options configPath (next :: args)

/-- `main`, watched like the daemon: after help and version it returns at once -/
def main (E : Env) (argv : List Str) (n : ℕ) : Sys Unit :=
  match options [] argv with
  | .help => return ()
  | .version => return ()
  | .start _ => Miqudm.main E n

/-- the command line starts the daemon, and gives these paths -/
inductive Reads : List Str → List Str → Prop where
  | done : Reads [] []
  | config {arg path : Str} {args paths : List Str} (h : IsConfig arg) (rest : Reads args paths) :
    Reads (arg :: path :: args) (path :: paths)
  | unfinished {arg : Str} (h : IsConfig arg) : Reads [arg] []
  | other {arg : Str} {args paths : List Str} (hhelp : ¬ IsHelp arg) (hversion : ¬ IsVersion arg)
    (hconfig : ¬ IsConfig arg) (rest : Reads args paths) : Reads (arg :: args) paths

theorem not_help_of_config {arg : Str} (h : IsConfig arg) : ¬ IsHelp arg ∧ ¬ IsVersion arg := by
  rcases h with rfl | rfl <;> decide

theorem options_of_reads {args paths : List Str} (h : Reads args paths) :
    ∀ configPath, options configPath args = .start (paths.getLast?.getD configPath) := by
  induction h with
  | done => exact fun _ => rfl
  | config hconfig _ ih =>
    intro configPath
    obtain ⟨hhelp, hversion⟩ := not_help_of_config hconfig
    rw [options, if_neg hhelp, if_neg hversion, if_pos hconfig, ih, List.getLast?_cons, Option.getD_some]
  | unfinished hconfig =>
    intro configPath
    obtain ⟨hhelp, hversion⟩ := not_help_of_config hconfig
    rw [options, if_neg hhelp, if_neg hversion]
    rfl
  | @other arg args paths hhelp hversion hconfig rest ih =>
    intro configPath
    cases args with
    | nil =>
      rw [options, if_neg hhelp, if_neg hversion, ← ih configPath]
      rfl
    | cons next args => rw [options, if_neg hhelp, if_neg hversion, if_neg hconfig, ih]

theorem reads_of_options (configPath : Str) (args : List Str) : ∀ path, options configPath args = .start path →
    ∃ paths, Reads args paths := by
  fun_induction options configPath args with
  | case1 => exact fun _ _ => ⟨[], .done⟩
  | case2 => exact fun _ h => by cases h
  | case3 => exact fun _ h => by cases h
  | case4 configPath arg hhelp hversion =>
    intro path _
    by_cases hconfig : IsConfig arg
    · exact ⟨[], .unfinished hconfig⟩
    · exact ⟨[], .other hhelp hversion hconfig .done⟩
  | case5 => exact fun _ h => by cases h
  | case6 => exact fun _ h => by cases h
  | case7 configPath arg next args hhelp hversion hconfig ih =>
    intro path h
    obtain ⟨paths, hpaths⟩ := ih path h
    exact ⟨next :: paths, .config hconfig hpaths⟩
  | case8 configPath arg next args hhelp hversion hconfig ih =>
    intro path h
    obtain ⟨paths, hpaths⟩ := ih path h
    exact ⟨paths, .other hhelp hversion hconfig hpaths⟩

/-- **The path that `main` ends with** is the one of the last option, if any. -/
theorem options_eq_start {args : List Str} {path : Str} :
    options [] args = .start path ↔ ∃ paths, Reads args paths ∧ path = paths.getLast?.getD [] := by
  constructor
  · intro h
    obtain ⟨paths, hpaths⟩ := reads_of_options [] args path h
    rw [options_of_reads hpaths] at h
    exact ⟨paths, hpaths, (Options.start.inj h).symm⟩
  · rintro ⟨paths, hpaths, rfl⟩
    exact options_of_reads hpaths []

/-- the daemon that is run does not depend on it -/
theorem main_of_reads {args paths : List Str} (h : Reads args paths) (E : Env) (n : ℕ) :
    main E args n = Miqudm.main E n := by
  rw [main, options_of_reads h]

end Miqudm.CommandLine
