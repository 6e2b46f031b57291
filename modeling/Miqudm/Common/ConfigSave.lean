/-
Saving on a disk that fills up.

`saveStream` is `Config::save` insertion by insertion, over a stream that writes when it likes and is closed when it goes
out of scope; its state is never looked at. What reaches the file does not depend on when the stream writes, so this is
`Config.save` (`saveStream_eq`). `save_iff`: the file is all or nothing, and the answer says which, exactly when the file
cannot be opened or the whole text fits. Otherwise the old text is gone, the answer is still true, and what a later start
reads is the beginning of the new text (`load_cut`).
-/
import Miqudm.Common.ConfigFile
import Miqudm.Core.Stream

namespace Miqudm

open Miqudm.Core

namespace Config

/-- the insertions of `Config::save`, in order -/
def savePieces (c : Config) : List Str := [
  lit "[General]\n",
  lit "default_session=", c.general.defaultSession, lit "\n",
  lit "remember_last_user=", boolText c.general.rememberLastUser, lit "\n",
  lit "last_user=", c.general.lastUser, lit "\n",
  lit "greeter_command=", c.general.greeterCommand, lit "\n",
  lit "greeter_user=", c.general.greeterUser, lit "\n",
  lit "vt=", decimal c.general.vt, lit "\n",
  lit "numlock=", boolText c.general.numlock, lit "\n\n",
  lit "[Autologin]\n",
  lit "enabled=", boolText c.autologin.enabled, lit "\n",
  lit "user=", c.autologin.user, lit "\n",
  lit "session=", c.autologin.session, lit "\n"]

/-- `Config::save`, where the `i`-th insertion writes the first `amounts i` characters that are pending; a file that is
opened starts empty, and takes `room` characters in all -/
def saveStream (c : Config) (files : Files) (customPath : Str) (opened : Bool) (room : Option ℕ) (amounts : ℕ → ℕ) :
    Bool × Files :=
  if ¬ opened then (false, files)
  else
    let file := (({ device := { room } } : Stream Char).insertAll amounts c.savePieces).close.2
    (true, writeFile files (c.savePath customPath) file.taken)

theorem flatten_savePieces (c : Config) : c.savePieces.flatten = c.saveText := by
  unfold savePieces saveText
  simp only [List.flatten_cons, List.flatten_nil, List.append_nil, List.append_assoc]

theorem saveStream_eq (c : Config) (files : Files) (customPath : Str) (opened : Bool) (room : Option ℕ)
    (amounts : ℕ → ℕ) : c.saveStream files customPath opened room amounts = c.save files customPath opened room := by
  unfold saveStream save
  rw [Stream.close_insertAll, flatten_savePieces]
  cases opened with
  | false => rfl
  | true => cases room <;> rfl

/-- a save is all or nothing, and its answer says which: the file holds the complete text, or every load that finds it
gives what it gave before -/
def AllOrNothing (c : Config) (files : Files) (customPath : Str) (answer : Bool × Files) : Prop :=
  (answer.1 = true ∧ readFile answer.2 (c.savePath customPath) = some c.saveText) ∨
  (answer.1 = false ∧ ∀ (d : Config) (pathExists : Str → Bool) (loadPath : Str),
    findConfigFile pathExists loadPath = c.savePath customPath →
    d.load answer.2 pathExists loadPath = d.load files pathExists loadPath)

/-- what an opened file holds in the end -/
theorem readFile_save (c : Config) (files : Files) (customPath : Str) (room : Option ℕ) :
    readFile (c.save files customPath true room).2 (c.savePath customPath) = some (cut room c.saveText) := by
  simp only [save, if_true, readFile, writeFile, List.lookup_cons_self]
  cases room <;> rfl

/-- **All or nothing, exactly when the text fits.** Whatever was in the file, and whenever the stream writes. -/
theorem save_iff (c : Config) (files : Files) (customPath : Str) (opened : Bool) (room : Option ℕ) (amounts : ℕ → ℕ) :
    c.AllOrNothing files customPath (c.saveStream files customPath opened room amounts) ↔
      opened = false ∨ ∀ n, room = some n → c.saveText.length ≤ n := by
  rw [saveStream_eq]
  cases opened with
  | false => exact ⟨fun _ => Or.inl rfl, fun _ => Or.inr ⟨rfl, fun _ _ _ _ => rfl⟩⟩
  | true =>
    constructor
    · rintro (⟨-, hwhole⟩ | ⟨hfail, -⟩)
      · rw [readFile_save] at hwhole
        exact Or.inr (fits_of_cut (Option.some_inj.1 hwhole))
      · cases hfail
    · rintro (hopen | hfits)
      · cases hopen
      · refine Or.inl ⟨rfl, ?_⟩
        rw [readFile_save, cut_of_fits hfits]

/-- what is read from the file afterwards -/
theorem load_cut (c d : Config) (files : Files) {customPath loadPath : Str} {pathExists : Str → Bool}
    (h : findConfigFile pathExists loadPath = c.savePath customPath) (room : Option ℕ) :
    d.load (c.save files customPath true room).2 pathExists loadPath =
      (true, { d with loadedPath := c.savePath customPath }.loadText (cut room c.saveText)) := by
  simp only [load, h, readFile_save, if_neg (savePath_ne_nil c customPath)]

/-! ## A full disk -/

/-- a configuration that was loaded from a file of its own text, with another last user -/
def remembered : Config :=
  { general := { greeterCommand := lit "/usr/bin/greeter-shell", lastUser := lit "alice" },
    loadedPath := lit "/etc/miqudm/miqudm.conf" }

def before : Files := [(lit "/etc/miqudm/miqudm.conf", { remembered with general.lastUser := lit "bob" }.saveText)]

/-- it is saved on a disk that takes nothing more -/
def fullDisk : Bool × Files := remembered.saveStream before [] true (some 0) fun _ => 0

/-- the answer is true, the file is empty, and a later start has the defaults -/
theorem save_full_disk : ¬ remembered.AllOrNothing before [] fullDisk ∧ fullDisk.1 = true ∧
    ∀ pathExists, findConfigFile pathExists [] = remembered.savePath [] →
      (({} : Config).load before pathExists []).2.general.greeterCommand = lit "/usr/bin/greeter-shell" ∧
      (({} : Config).load fullDisk.2 pathExists []).2.general = {} := by
  have hfull : fullDisk = (true, [(lit "/etc/miqudm/miqudm.conf", [])]) := by decide +kernel
  refine ⟨?_, by rw [hfull], ?_⟩
  · rintro (⟨-, hwhole⟩ | ⟨hfail, -⟩)
    · rw [hfull] at hwhole
      exact absurd hwhole (by decide +kernel)
    · rw [hfull] at hfail
      cases hfail
  · intro pathExists hfind
    have hpath : findConfigFile pathExists [] = lit "/etc/miqudm/miqudm.conf" := hfind
    rw [hfull]
    simp only [load, hpath]
    decide +kernel

end Config

end Miqudm
