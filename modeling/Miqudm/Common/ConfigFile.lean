/-
What a configuration file says.

`load` is a reader of a text in sections (`loadLine_eq`), so it folds over the assignments of the file. `assigned` lists
the values that the file gives to a key in its section, in order; every field of the loaded configuration is read off
the list of its own key (`loadText_eq`, `load_last_wins`). From the same lists it follows when a configuration survives
being written and read again: exactly when every field that no line assigned was fit to be written in the first place
(`reload_iff`).
-/
import Miqudm.Common.ConfigText
import Miqudm.Core.Sections

namespace Miqudm

open Miqudm.Core

namespace Config

/-! ## The lines of a configuration file -/

/-- what a line is to `load`: comments, blank lines and lines without '=' are nothing; keys and values are trimmed -/
def lineOf (raw : Str) : Line Str (Str × Str) :=
  let line := trim raw
  if line = [] ∨ line.head? = some '#' ∨ line.head? = some ';' then .neither
  else if line.head? = some '[' ∧ line.getLast? = some ']' then .header ((line.drop 1).take (line.length - 2))
  else match splitFirst '=' line with
    | none => .neither
    | some (k, v) => .entry (trim k, trim v)

/-- the assignments of a text, each with its section; the text starts in the empty one -/
def assignments (text : Str) : List (Str × Str × Str) := Line.entries [] ((lines text).map lineOf)

/-- the value an assignment gives to `key` of `sections` -/
def given (sections : List Str) (key : Str) (a : Str × Str × Str) : Option Str :=
  if a.1 ∈ sections ∧ a.2.1 = key then some a.2.2 else none

/-- the values a text gives to `key` of `sections`, in order -/
def assigned (sections : List Str) (key : Str) (text : Str) : List Str := (assignments text).filterMap (given sections key)

/-- the first section may be left without a name -/
def inGeneral : List Str := [lit "General", []]

def inAutologin : List Str := [lit "Autologin"]

def assign (c : Config) (a : Str × Str × Str) : Config :=
  if a.1 = lit "General" ∨ a.1 = [] then { c with general := setGeneral c.general a.2.1 a.2.2 }
  else if a.1 = lit "Autologin" then { c with autologin := setAutologin c.autologin a.2.1 a.2.2 }
  else c

theorem loadLine_eq (st : Str × Config) (raw : Str) : loadLine st raw = Line.step assign st (lineOf raw) := by
  cases hsplit : splitFirst '=' (trim raw) with
  | none =>
    simp only [loadLine, lineOf, hsplit]
    split_ifs <;> rfl
  | some p =>
    simp only [loadLine, lineOf, hsplit]
    split_ifs with hskip hheader hgeneral hautologin
    · rfl
    · rfl
    · exact congrArg (Prod.mk st.1) (if_pos hgeneral).symm
    · exact congrArg (Prod.mk st.1) ((if_neg hgeneral).trans (if_pos hautologin)).symm
    · exact congrArg (Prod.mk st.1) ((if_neg hgeneral).trans (if_neg hautologin)).symm

theorem loadText_assignments (c : Config) (text : Str) : c.loadText text = (assignments text).foldl assign c := by
  have hlines : (lines text).foldl loadLine ([], c) = ((lines text).map lineOf).foldl (Line.step assign) ([], c) := by
    rw [List.foldl_map]
    congr 1
    funext st raw
    exact loadLine_eq st raw
  rw [loadText, hlines, Line.foldl_step, assignments]

/-! ## Field by field -/

/-- one setting of the first section, field by field -/
theorem setGeneral_eq (g : GeneralConfig) (key val : Str) : setGeneral g key val = {
    defaultSession := if key = lit "default_session" then val else g.defaultSession
    rememberLastUser := if key = lit "remember_last_user" then parseBool val true else g.rememberLastUser
    lastUser := if key = lit "last_user" then val else g.lastUser
    greeterCommand := if key = lit "greeter_command" then val else g.greeterCommand
    greeterUser := if key = lit "greeter_user" then val else g.greeterUser
    vt := if key = lit "vt" then (stoi val).getD g.vt else g.vt
    numlock := if key = lit "numlock" then parseBool val false else g.numlock } := by
  by_cases hsession : key = lit "default_session"
  · subst hsession
    rfl
  by_cases hremember : key = lit "remember_last_user"
  · subst hremember
    rfl
  by_cases hlast : key = lit "last_user"
  · subst hlast
    rfl
  by_cases hcommand : key = lit "greeter_command"
  · subst hcommand
    rfl
  by_cases huser : key = lit "greeter_user"
  · subst huser
    rfl
  by_cases hvt : key = lit "vt"
  · subst hvt
    exact setGeneral_stoi g val
  by_cases hnumlock : key = lit "numlock"
  · subst hnumlock
    rfl
  simp only [setGeneral, hsession, hremember, hlast, hcommand, huser, hvt, hnumlock, if_false]

theorem setAutologin_eq (a : AutologinConfig) (key val : Str) : setAutologin a key val = {
    enabled := if key = lit "enabled" then parseBool val false else a.enabled
    user := if key = lit "user" then val else a.user
    session := if key = lit "session" then val else a.session } := by
  by_cases henabled : key = lit "enabled"
  · subst henabled
    rfl
  by_cases huser : key = lit "user"
  · subst huser
    rfl
  by_cases hsession : key = lit "session"
  · subst hsession
    rfl
  simp only [setAutologin, henabled, huser, hsession, if_false]

/-- a field that the assignments to `key` of `sections` move, each by its value as `read` reads it -/
def Follows {β : Type} (field : Config → β) (sections : List Str) (key : Str) (read : Str → Option β) : Prop :=
  ∀ c a, field (assign c a) = ((given sections key a).bind read).getD (field c)

/-- a setting of the first section -/
theorem follows_general {β : Type} {field : GeneralConfig → β} {key : Str} {read : Str → Option β}
    (h : ∀ g k val, field (setGeneral g k val) = if k = key then (read val).getD (field g) else field g) :
    Follows (fun c => field c.general) inGeneral key read := by
  intro c a
  by_cases hgeneral : a.1 = lit "General" ∨ a.1 = []
  · have hmem : a.1 ∈ inGeneral := by simpa [inGeneral] using hgeneral
    have hassign : (assign c a).general = setGeneral c.general a.2.1 a.2.2 := by rw [assign, if_pos hgeneral]
    simp only [hassign, h, given, hmem, true_and]
    split_ifs <;> rfl
  · have hmem : a.1 ∉ inGeneral := by simpa [inGeneral] using hgeneral
    have hassign : (assign c a).general = c.general := by
      rw [assign, if_neg hgeneral]
      split_ifs <;> rfl
    simp [hassign, given, hmem]

theorem follows_autologin {β : Type} {field : AutologinConfig → β} {key : Str} {read : Str → Option β}
    (h : ∀ g k val, field (setAutologin g k val) = if k = key then (read val).getD (field g) else field g) :
    Follows (fun c => field c.autologin) inAutologin key read := by
  intro c a
  by_cases hautologin : a.1 = lit "Autologin"
  · have hmem : a.1 ∈ inAutologin := by simpa [inAutologin] using hautologin
    have hgeneral : ¬ (a.1 = lit "General" ∨ a.1 = []) := by
      rw [hautologin]
      decide
    have hassign : (assign c a).autologin = setAutologin c.autologin a.2.1 a.2.2 := by
      rw [assign, if_neg hgeneral, if_pos hautologin]
    simp only [hassign, h, given, hmem, true_and]
    split_ifs <;> rfl
  · have hmem : a.1 ∉ inAutologin := by simpa [inAutologin] using hautologin
    have hassign : (assign c a).autologin = c.autologin := by
      rw [assign, if_neg hautologin]
      split_ifs <;> rfl
    simp [hassign, given, hmem]

/-- the last value that can be read decides -/
theorem Follows.loadText {β : Type} {field : Config → β} {sections : List Str} {key : Str} {read : Str → Option β}
    (h : Follows field sections key read) (c : Config) (text : Str) :
    field (c.loadText text) = (((assigned sections key text).filterMap read).getLast?).getD (field c) := by
  rw [loadText_assignments, foldl_last h, assigned, List.filterMap_filterMap]

theorem Follows.loadText_text {field : Config → Str} {sections : List Str} {key : Str}
    (h : Follows field sections key some) (c : Config) (text : Str) :
    field (c.loadText text) = ((assigned sections key text).getLast?).getD (field c) := by
  rw [h.loadText, List.filterMap_some]

theorem Follows.loadText_bool {field : Config → Bool} {sections : List Str} {key : Str} {d : Bool}
    (h : Follows field sections key fun v => some (parseBool v d)) (c : Config) (text : Str) :
    field (c.loadText text) =
      (((assigned sections key text).getLast?).map fun v => parseBool v d).getD (field c) := by
  rw [h.loadText, List.filterMap_eq_map', List.getLast?_map]

/-- the configuration a text makes of `c` -/
def readFrom (c : Config) (text : Str) : Config :=
  let last := fun sections key => (assigned (sections) (lit key) text).getLast?
  { general := {
      defaultSession := (last inGeneral "default_session").getD c.general.defaultSession
      rememberLastUser := ((last inGeneral "remember_last_user").map fun v => parseBool v true).getD
        c.general.rememberLastUser
      lastUser := (last inGeneral "last_user").getD c.general.lastUser
      greeterCommand := (last inGeneral "greeter_command").getD c.general.greeterCommand
      greeterUser := (last inGeneral "greeter_user").getD c.general.greeterUser
      vt := (((assigned inGeneral (lit "vt") text).filterMap stoi).getLast?).getD c.general.vt
      numlock := ((last inGeneral "numlock").map fun v => parseBool v false).getD c.general.numlock }
    autologin := {
      enabled := ((last inAutologin "enabled").map fun v => parseBool v false).getD c.autologin.enabled
      user := (last inAutologin "user").getD c.autologin.user
      session := (last inAutologin "session").getD c.autologin.session }
    loadedPath := c.loadedPath }

/-- **The last assignment of a key in its section decides its field.** -/
theorem loadText_eq (c : Config) (text : Str) : c.loadText text = c.readFrom text := by
  have hsession : Follows (fun c => c.general.defaultSession) inGeneral (lit "default_session") some :=
    follows_general fun g k val => by rw [setGeneral_eq]; rfl
  have hremember : Follows (fun c => c.general.rememberLastUser) inGeneral (lit "remember_last_user")
      (fun v => some (parseBool v true)) := follows_general fun g k val => by rw [setGeneral_eq]; rfl
  have hlast : Follows (fun c => c.general.lastUser) inGeneral (lit "last_user") some :=
    follows_general fun g k val => by rw [setGeneral_eq]; rfl
  have hcommand : Follows (fun c => c.general.greeterCommand) inGeneral (lit "greeter_command") some :=
    follows_general fun g k val => by rw [setGeneral_eq]; rfl
  have huser : Follows (fun c => c.general.greeterUser) inGeneral (lit "greeter_user") some :=
    follows_general fun g k val => by rw [setGeneral_eq]; rfl
  have hvt : Follows (fun c => c.general.vt) inGeneral (lit "vt") stoi :=
    follows_general fun g k val => by rw [setGeneral_eq]
  have hnumlock : Follows (fun c => c.general.numlock) inGeneral (lit "numlock") (fun v => some (parseBool v false)) :=
    follows_general fun g k val => by rw [setGeneral_eq]; rfl
  have henabled : Follows (fun c => c.autologin.enabled) inAutologin (lit "enabled")
      (fun v => some (parseBool v false)) := follows_autologin fun g k val => by rw [setAutologin_eq]; rfl
  have hauto : Follows (fun c => c.autologin.user) inAutologin (lit "user") some :=
    follows_autologin fun g k val => by rw [setAutologin_eq]; rfl
  have hautoSession : Follows (fun c => c.autologin.session) inAutologin (lit "session") some :=
    follows_autologin fun g k val => by rw [setAutologin_eq]; rfl
  have hgeneral : (c.loadText text).general = (c.readFrom text).general := by
    simp only [readFrom, ← hsession.loadText_text, ← hremember.loadText_bool, ← hlast.loadText_text,
      ← hcommand.loadText_text, ← huser.loadText_text, ← hvt.loadText, ← hnumlock.loadText_bool]
  have hautologin : (c.loadText text).autologin = (c.readFrom text).autologin := by
    simp only [readFrom, ← henabled.loadText_bool, ← hauto.loadText_text, ← hautoSession.loadText_text]
  have hpath : (c.loadText text).loadedPath = (c.readFrom text).loadedPath := loadText_path c text
  calc c.loadText text
      = ⟨(c.loadText text).general, (c.loadText text).autologin, (c.loadText text).loadedPath⟩ := rfl
    _ = c.readFrom text := by rw [hgeneral, hautologin, hpath]

/-- a line that is no header and does not assign `key` in its own section may as well not be there -/
theorem assigned_insert {sections : List Str} {key l : Str} {pre post : List Str} {text text' : Str}
    (htext : lines text = pre ++ post) (htext' : lines text' = pre ++ l :: post) (hheader : ∀ s, lineOf l ≠ .header s)
    (hl : ∀ a : Str × Str, lineOf l = .entry a → given sections key (Line.sectionAfter [] (pre.map lineOf), a) = none) :
    assigned sections key text' = assigned sections key text := by
  rw [assigned, assigned, assignments, assignments, htext, htext', List.map_append, List.map_append, List.map_cons,
    Line.entries_append, Line.entries_append, List.filterMap_append, List.filterMap_append]
  congr 1
  cases hline : lineOf l with
  | header s => exact absurd hline (hheader s)
  | entry a => exact List.filterMap_cons_none (hl a hline)
  | neither => rfl

/-- **Loading is last-assignment-wins, by section and key**: what `load` returns and leaves, for every file and every
configuration before; and no other line, wherever it stands, changes what is assigned to a key. -/
theorem load_last_wins (c : Config) (files : Files) (pathExists : Str → Bool) (customPath : Str) :
    (c.load files pathExists customPath =
      let path := findConfigFile pathExists customPath
      match (if path = [] then none else readFile files path) with
      | none => (false, { c with loadedPath := path })
      | some text => (true, { c.readFrom text with loadedPath := path })) ∧
    ∀ sections key pre l post text text', lines text = pre ++ post ∧ lines text' = pre ++ l :: post ∧
      (∀ s, lineOf l ≠ .header s) ∧
      (∀ a, lineOf l = .entry a → given sections key (Line.sectionAfter [] (pre.map lineOf), a) = none) →
      assigned sections key text' = assigned sections key text := by
  constructor
  · by_cases hpath : findConfigFile pathExists customPath = []
    · simp [load, hpath]
    · cases hfile : readFile files (findConfigFile pathExists customPath) with
      | none => simp [load, hpath, hfile]
      | some text =>
        simp only [load, hpath, hfile, if_false, loadText_eq]
        rfl
  · intro sections key pre l post text text' h
    obtain ⟨htext, htext', hheader, hl⟩ := h
    exact assigned_insert htext htext' hheader hl

/-! ## Written and read again -/

/-- what a text assigns is trimmed, and part of a line -/
theorem clean_of_assigned {sections : List Str} {key text val : Str} (h : val ∈ assigned sections key text) :
    Miqudm.Clean val := by
  obtain ⟨⟨s, k, v⟩, hmem, hgiven⟩ := List.mem_filterMap.1 h
  rw [given] at hgiven
  split_ifs at hgiven
  cases hgiven
  obtain ⟨pre, post, hsplit, -⟩ := Line.mem_entries.1 hmem
  have hline : Line.entry (k, v) ∈ (lines text).map lineOf := by
    rw [hsplit]
    exact List.mem_append_right _ List.mem_cons_self
  obtain ⟨raw, hraw, hentry⟩ := List.mem_map.1 hline
  simp only [lineOf] at hentry
  split_ifs at hentry
  split at hentry
  · cases hentry
  · rename_i k' v' hfirst
    cases hentry
    apply clean_trim
    intro hnl
    apply notMem_of_mem_lines hraw
    apply mem_of_mem_trim
    rw [(splitFirst_eq_some hfirst).1]
    exact List.mem_append_right _ (List.mem_cons_of_mem _ hnl)

/-- what an assignment leaves alone is as it was -/
theorem getLast_getD_iff {α : Type} {P : α → Prop} {l : List α} (h : ∀ v ∈ l, P v) (x : α) :
    P ((l.getLast?).getD x) ↔ (l = [] → P x) := by
  rcases List.eq_nil_or_concat l with rfl | ⟨l, v, rfl⟩
  · simp
  · have hv : P v := h v (by simp)
    simp [hv]

/-- every field that the text does not assign can be written: a string without newline and without blanks around it,
an `int` -/
structure Fit (c : Config) (text : Str) : Prop where
  defaultSession : assigned inGeneral (lit "default_session") text = [] → Miqudm.Clean c.general.defaultSession
  lastUser : assigned inGeneral (lit "last_user") text = [] → Miqudm.Clean c.general.lastUser
  greeterCommand : assigned inGeneral (lit "greeter_command") text = [] → Miqudm.Clean c.general.greeterCommand
  greeterUser : assigned inGeneral (lit "greeter_user") text = [] → Miqudm.Clean c.general.greeterUser
  vt : (assigned inGeneral (lit "vt") text).filterMap stoi = [] →
    -2147483648 ≤ c.general.vt ∧ c.general.vt ≤ 2147483647
  user : assigned inAutologin (lit "user") text = [] → Miqudm.Clean c.autologin.user
  session : assigned inAutologin (lit "session") text = [] → Miqudm.Clean c.autologin.session

theorem clean_loadText_iff (c : Config) (text : Str) : (c.loadText text).Clean ↔ c.Fit text := by
  have hvt : ∀ i ∈ (assigned inGeneral (lit "vt") text).filterMap stoi, -2147483648 ≤ i ∧ i ≤ 2147483647 := by
    intro i hi
    obtain ⟨v, -, hv⟩ := List.mem_filterMap.1 hi
    exact stoi_range hv
  have hclean : ∀ sections key, ∀ v ∈ assigned sections key text, Miqudm.Clean v := fun _ _ _ => clean_of_assigned
  rw [loadText_eq]
  constructor
  · intro h
    exact {
      defaultSession := (getLast_getD_iff (hclean _ _) _).1 h.defaultSession
      lastUser := (getLast_getD_iff (hclean _ _) _).1 h.lastUser
      greeterCommand := (getLast_getD_iff (hclean _ _) _).1 h.greeterCommand
      greeterUser := (getLast_getD_iff (hclean _ _) _).1 h.greeterUser
      vt := (getLast_getD_iff hvt _).1 h.vt
      user := (getLast_getD_iff (hclean _ _) _).1 h.user
      session := (getLast_getD_iff (hclean _ _) _).1 h.session }
  · intro h
    exact {
      defaultSession := (getLast_getD_iff (hclean _ _) _).2 h.defaultSession
      lastUser := (getLast_getD_iff (hclean _ _) _).2 h.lastUser
      greeterCommand := (getLast_getD_iff (hclean _ _) _).2 h.greeterCommand
      greeterUser := (getLast_getD_iff (hclean _ _) _).2 h.greeterUser
      vt := (getLast_getD_iff hvt _).2 h.vt
      user := (getLast_getD_iff (hclean _ _) _).2 h.user
      session := (getLast_getD_iff (hclean _ _) _).2 h.session }

/-- written, then read into any configuration, it comes back; so another save writes the same bytes -/
def Survives (c : Config) : Prop :=
  ∀ (d : Config) (files : Files) (customPath : Str) (pathExists : Str → Bool) (loadPath : Str),
    findConfigFile pathExists loadPath = c.savePath customPath →
      ∃ c', d.load (c.save files customPath true none).2 pathExists loadPath = (true, c') ∧
        c'.general = c.general ∧ c'.autologin = c.autologin ∧ c'.saveText = c.saveText

theorem savePath_ne_nil (c : Config) (customPath : Str) : c.savePath customPath ≠ [] := by
  simp only [savePath]
  split_ifs with hcustom hloaded
  · exact hcustom
  · exact fun h => absurd h (by decide)
  · exact hloaded

/-- reading the file that was just written -/
theorem load_save (c d : Config) (files : Files) {customPath loadPath : Str} {pathExists : Str → Bool}
    (h : findConfigFile pathExists loadPath = c.savePath customPath) :
    d.load (c.save files customPath true none).2 pathExists loadPath =
      (true, { d with loadedPath := c.savePath customPath }.loadText c.saveText) := by
  have hread : readFile (c.save files customPath true none).2 (c.savePath customPath) = some c.saveText := by
    simp [save, readFile, writeFile]
  simp only [load, h, hread, if_neg (savePath_ne_nil c customPath)]

theorem survives_iff_clean (c : Config) : c.Survives ↔ c.Clean := by
  constructor
  · intro h
    -- a fresh configuration is clean, and what it reads leaves it so
    obtain ⟨c', hload, hgeneral, hautologin, -⟩ := h {} [] (lit "/c") (fun _ => true) (lit "/c") rfl
    rw [load_save c {} [] rfl] at hload
    have hc' : c'.Clean := by
      have hfresh : ({ loadedPath := c.savePath (lit "/c") } : Config).Clean := { clean_fresh with }
      have hclean := loadText_clean hfresh c.saveText
      rwa [(Prod.mk.inj hload).2] at hclean
    exact ⟨hgeneral ▸ hc'.defaultSession, hgeneral ▸ hc'.lastUser, hgeneral ▸ hc'.greeterCommand,
      hgeneral ▸ hc'.greeterUser, hgeneral ▸ hc'.vt, hautologin ▸ hc'.user, hautologin ▸ hc'.session⟩
  · intro hc d files customPath pathExists loadPath hpath
    have hread : ({ d with loadedPath := c.savePath customPath } : Config).loadText c.saveText =
        { c with loadedPath := c.savePath customPath } := by
      have hwritten := loadText_saveText hc hc.lastUser.1 { d with loadedPath := c.savePath customPath }
      rw [hc.lastUser.2] at hwritten
      exact hwritten
    refine ⟨_, load_save c d files hpath, ?_⟩
    rw [hread]
    exact ⟨rfl, rfl, rfl⟩

/-- **A loaded configuration survives being written and read, into any other one, exactly if every field its text did
not assign was fit to be written.** So it does when it comes from the fresh one by loads alone. -/
theorem reload_iff (c : Config) (text : Str) :
    ((c.loadText text).Survives ↔ c.Fit text) ∧ (c.Clean → c.Fit text) ∧ (c.Loaded → c.Fit text) := by
  have hclean : c.Clean → c.Fit text := fun hc => (clean_loadText_iff c text).1 (loadText_clean hc text)
  refine ⟨(survives_iff_clean _).trans (clean_loadText_iff c text), hclean, fun h => hclean h.clean⟩

/-- a name of two lines comes back as its first one -/
theorem two_lines_lost : ¬ (({ general := { lastUser := lit "ali\nce" } } : Config).loadText []).Survives := by
  rw [survives_iff_clean, clean_loadText_iff]
  intro h
  exact absurd (h.lastUser rfl) (by decide)

end Config

end Miqudm
