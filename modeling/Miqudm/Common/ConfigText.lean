/-
The text of a configuration.

`save` writes a line for every field, and `load` reads a file line by line, trimming lines, keys and values. So a field
comes back if its text is `Clean`: without newline, and with no blanks around it. What `load` reads is clean
(`loadText_clean`), and a clean configuration is read back from its text by any configuration
(`loadText_saveText`; the last user may also have blanks around it, which are lost).
-/
import Miqudm.Common.Config
import Miqudm.Common.Framing

namespace Miqudm

/-! ## Trimming -/

theorem rdropWhile_append_cons {p : Char → Bool} {c : Char} (hc : p c = false) (a x : Str) :
    (a ++ c :: x).rdropWhile p = a ++ c :: x.rdropWhile p := by
  induction x using List.reverseRecOn with
  | nil => rw [List.rdropWhile_concat_neg _ _ _ (by simp [hc]), List.rdropWhile_nil]
  | append_singleton x d ih =>
    have hassoc : a ++ c :: (x ++ [d]) = (a ++ c :: x) ++ [d] := by simp
    rw [hassoc, List.rdropWhile_concat, List.rdropWhile_concat]
    split_ifs
    · exact ih
    · exact hassoc.symm

/-- the two ends are trimmed independently -/
theorem dropWhile_rdropWhile (p : Char → Bool) (x : Str) :
    (x.rdropWhile p).dropWhile p = (x.dropWhile p).rdropWhile p := by
  cases hx : x.dropWhile p with
  | nil =>
    have hall : ∀ c ∈ x, p c = true := List.dropWhile_eq_nil_iff.1 hx
    rw [List.rdropWhile_eq_nil_iff.2 hall, List.dropWhile_nil, List.rdropWhile_nil]
  | cons c y =>
    have hsplit : x.takeWhile p ++ c :: y = x := hx ▸ List.takeWhile_append_dropWhile
    have hfront : ∀ d ∈ x.takeWhile p, p d = true := fun d hd => List.mem_takeWhile_imp hd
    have hc : p c = false := by
      have hne : x.dropWhile p ≠ [] := by simp [hx]
      have hhead := List.head_dropWhile_not p hne
      simpa [hx] using hhead
    rw [← hsplit, rdropWhile_append_cons hc, List.dropWhile_append_of_pos hfront,
      List.dropWhile_cons_of_neg (by simp [hc])]
    exact (rdropWhile_append_cons hc [] y).symm

theorem trim_rdropWhile (x : Str) : trim (x.rdropWhile blank) = trim x := by
  rw [trim, dropWhile_rdropWhile, List.rdropWhile_idempotent, trim]

theorem trim_trim (x : Str) : trim (trim x) = trim x := by
  show trim ((x.dropWhile blank).rdropWhile blank) = trim x
  rw [trim_rdropWhile, trim, List.dropWhile_idempotent, trim]

theorem mem_of_mem_trim {c : Char} {x : Str} (h : c ∈ trim x) : c ∈ x :=
  (List.dropWhile_suffix blank).subset ((List.rdropWhile_prefix blank _).subset h)

/-- a text that reads back as it is: one line, with no blanks around it -/
def Clean (x : Str) : Prop := '\n' ∉ x ∧ trim x = x

instance (x : Str) : Decidable (Clean x) := inferInstanceAs (Decidable (_ ∧ _))

theorem clean_trim {x : Str} (h : '\n' ∉ x) : Clean (trim x) := ⟨fun hx => h (mem_of_mem_trim hx), trim_trim x⟩

/-! ## Lines -/

theorem linesFrom_line {a : Str} (h : '\n' ∉ a) (b : Str) :
    ∀ cur, linesFrom cur (a ++ '\n' :: b) = (cur ++ a) :: lines b := by
  induction a with
  | nil =>
    intro cur
    simp [linesFrom, lines]
  | cons c a ih =>
    intro cur
    have hc : c ≠ '\n' := fun e => h (e ▸ List.mem_cons_self)
    have ha : '\n' ∉ a := fun e => h (List.mem_cons_of_mem c e)
    simp [linesFrom, hc, ih ha]

theorem lines_line {a : Str} (h : '\n' ∉ a) (b : Str) : lines (a ++ '\n' :: b) = a :: lines b :=
  linesFrom_line h b []

/-- a text written line by line -/
def unlines (ls : List Str) : Str := ls.flatMap (· ++ ['\n'])

theorem lines_unlines {ls : List Str} (h : ∀ l ∈ ls, '\n' ∉ l) : lines (unlines ls) = ls := by
  induction ls with
  | nil => rfl
  | cons l ls ih =>
    rw [List.forall_mem_cons] at h
    have hsplit : unlines (l :: ls) = l ++ '\n' :: unlines ls := by simp [unlines]
    rw [hsplit, lines_line h.1, ih h.2]

theorem notMem_of_mem_linesFrom (s : Str) :
    ∀ cur, '\n' ∉ cur → ∀ l ∈ linesFrom cur s, '\n' ∉ l := by
  induction s with
  | nil =>
    intro cur hcur l hl
    rw [linesFrom] at hl
    split_ifs at hl
    · cases hl
    · rwa [List.mem_singleton.1 hl]
  | cons c s ih =>
    intro cur hcur l hl
    rw [linesFrom] at hl
    split_ifs at hl with hc
    · rcases List.mem_cons.1 hl with rfl | hl
      · exact hcur
      · exact ih [] (by simp) l hl
    · refine ih (cur ++ [c]) ?_ l hl
      simpa [hcur] using Ne.symm hc

/-- a line has no newline -/
theorem notMem_of_mem_lines {s l : Str} (h : l ∈ lines s) : '\n' ∉ l := notMem_of_mem_linesFrom s [] (by simp) l h

/-! ## Reading one line -/

/-- the configuration keys: letters, as far as `load` is concerned -/
def IsKey (key : Str) : Prop :=
  key ≠ [] ∧ ∀ c ∈ key, blank c = false ∧ c ≠ '=' ∧ c ≠ '#' ∧ c ≠ ';' ∧ c ≠ '[' ∧ c ≠ '\n'

instance (key : Str) : Decidable (IsKey key) :=
  @instDecidableAnd _ _ _ (List.decidableBAll _ key)

def assignment (key val : Str) : Str := key ++ '=' :: val

/-- a text without blanks -/
theorem trim_of_notBlank {x : Str} (h : ∀ c ∈ x, blank c = false) : trim x = x := by
  have hfront : x.dropWhile blank = x := by
    cases x with
    | nil => rfl
    | cons c x => exact List.dropWhile_cons_of_neg (by simp [h c List.mem_cons_self])
  rw [trim, hfront, List.rdropWhile_eq_self_iff]
  intro hne
  simp [h _ (List.getLast_mem hne)]

theorem trim_key {key : Str} (h : IsKey key) : trim key = key := trim_of_notBlank fun c hc => (h.2 c hc).1

/-- only what follows the key is trimmed -/
theorem trim_assignment {key : Str} (h : IsKey key) (val : Str) :
    trim (assignment key val) = assignment key (val.rdropWhile blank) := by
  have hfront : (assignment key val).dropWhile blank = assignment key val := by
    cases key with
    | nil => exact absurd rfl h.1
    | cons c key => exact List.dropWhile_cons_of_neg (by simp [(h.2 c List.mem_cons_self).1])
  rw [trim, hfront]
  exact rdropWhile_append_cons (by decide) key val

/-- a line that assigns a key -/
theorem loadLine_assignment {key : Str} (h : IsKey key) (sect : Str) (c : Config) (val : Str) :
    Config.loadLine (sect, c) (assignment key val) =
      if sect = lit "General" ∨ sect = [] then
        (sect, { c with general := Config.setGeneral c.general key (trim val) })
      else if sect = lit "Autologin" then
        (sect, { c with autologin := Config.setAutologin c.autologin key (trim val) })
      else (sect, c) := by
  obtain ⟨d, key', hkey⟩ := List.exists_cons_of_ne_nil h.1
  have hd := h.2 d (hkey ▸ List.mem_cons_self)
  have hhead : (assignment key (val.rdropWhile blank)).head? = some d := by rw [assignment, hkey]; rfl
  have hsplit : splitFirst '=' (assignment key (val.rdropWhile blank)) = some (key, val.rdropWhile blank) :=
    splitFirst_of_notMem (fun hmem => (h.2 _ hmem).2.1 rfl) _
  have hne : assignment key (val.rdropWhile blank) ≠ [] := by simp [assignment]
  simp only [Config.loadLine, trim_assignment h, hhead, hsplit, trim_key h, trim_rdropWhile]
  simp [hne, hd]

/-! ## What is read is clean -/

/-- a configuration whose text reads back as it is -/
structure Config.Clean (c : Config) : Prop where
  defaultSession : Miqudm.Clean c.general.defaultSession
  lastUser : Miqudm.Clean c.general.lastUser
  greeterCommand : Miqudm.Clean c.general.greeterCommand
  greeterUser : Miqudm.Clean c.general.greeterUser
  vt : -2147483648 ≤ c.general.vt ∧ c.general.vt ≤ 2147483647
  user : Miqudm.Clean c.autologin.user
  session : Miqudm.Clean c.autologin.session

theorem clean_fresh : ({} : Config).Clean := by
  constructor <;> decide

theorem stoi_range {s : Str} {i : ℤ} (h : stoi s = some i) : -2147483648 ≤ i ∧ i ≤ 2147483647 := by
  simp only [stoi] at h
  split_ifs at h
  all_goals
    cases h
    assumption

theorem setGeneral_clean {c : Config} (hc : c.Clean) (key : Str) {val : Str} (hval : Clean val) :
    ({ c with general := Config.setGeneral c.general key val } : Config).Clean := by
  unfold Config.setGeneral
  split_ifs
  · exact { hc with defaultSession := hval }
  · exact { hc with }
  · exact { hc with lastUser := hval }
  · exact { hc with greeterCommand := hval }
  · exact { hc with greeterUser := hval }
  · split
    · case _ vt hvt => exact { hc with vt := stoi_range hvt }
    · exact hc
  · exact { hc with }
  · exact hc

theorem setAutologin_clean {c : Config} (hc : c.Clean) (key : Str) {val : Str} (hval : Clean val) :
    ({ c with autologin := Config.setAutologin c.autologin key val } : Config).Clean := by
  unfold Config.setAutologin
  split_ifs
  · exact { hc with }
  · exact { hc with user := hval }
  · exact { hc with session := hval }
  · exact hc

theorem loadLine_clean {st : Str × Config} (hc : st.2.Clean) {raw : Str} (hraw : '\n' ∉ raw) :
    (Config.loadLine st raw).2.Clean := by
  cases hsplit : splitFirst '=' (trim raw) with
  | none =>
    simp only [Config.loadLine, hsplit]
    split_ifs <;> exact hc
  | some p =>
    obtain ⟨k, v⟩ := p
    have hv : Clean (trim v) := by
      apply clean_trim
      intro h
      apply hraw
      apply mem_of_mem_trim
      rw [(splitFirst_eq_some hsplit).1]
      exact List.mem_append_right _ (List.mem_cons_of_mem _ h)
    simp only [Config.loadLine, hsplit]
    split_ifs
    · exact hc
    · exact hc
    · exact setGeneral_clean hc _ hv
    · exact setAutologin_clean hc _ hv
    · exact hc

/-- **What is read is clean.** -/
theorem loadText_clean {c : Config} (hc : c.Clean) (text : Str) : (c.loadText text).Clean := by
  have key : ∀ (ls : List Str) (st : Str × Config), (∀ l ∈ ls, '\n' ∉ l) → st.2.Clean →
      (ls.foldl Config.loadLine st).2.Clean := by
    intro ls
    induction ls with
    | nil => exact fun _ _ h => h
    | cons l ls ih =>
      intro st hls hst
      rw [List.forall_mem_cons] at hls
      exact ih _ hls.2 (loadLine_clean hst hls.1)
  exact key _ _ (fun l hl => notMem_of_mem_lines hl) hc

/-! ## Configurations that were read -/

/-- what loading files makes of the configuration a program starts with -/
inductive Config.Loaded : Config → Prop where
  | fresh : Config.Loaded {}
  | load {c : Config} (files : Files) (pathExists : Str → Bool) (customPath : Str) :
    c.Loaded → Config.Loaded (c.load files pathExists customPath).2

theorem Config.Clean.withPath {c : Config} (hc : c.Clean) (path : Str) : ({ c with loadedPath := path } : Config).Clean :=
  { hc with }

theorem load_clean {c : Config} (hc : c.Clean) (files : Files) (pathExists : Str → Bool) (customPath : Str) :
    (c.load files pathExists customPath).2.Clean := by
  simp only [Config.load]
  split_ifs
  · exact hc.withPath _
  · split
    · exact hc.withPath _
    · exact loadText_clean (hc.withPath _) _

theorem Config.Loaded.clean {c : Config} (h : c.Loaded) : c.Clean := by
  induction h with
  | fresh => exact clean_fresh
  | load files pathExists customPath _ ih => exact load_clean ih files pathExists customPath

/-! ## What is written is read back -/

theorem parseBool_boolText (b d : Bool) : Config.parseBool (Config.boolText b) d = b := by
  cases b <;> cases d <;> decide

theorem boolText_clean (b : Bool) : Clean (Config.boolText b) := by
  cases b <;> decide

theorem decimal_ofNat (n : ℕ) : decimal n = Nat.toDigits 10 n := Nat.toList_repr

theorem decimal_negSucc (n : ℕ) : decimal (Int.negSucc n) = '-' :: Nat.toDigits 10 (n + 1) := by
  simp [decimal, toString, Int.repr]

/-- the digits of a number give the number -/
theorem foldl_digits (n : ℕ) :
    (Nat.toDigits 10 n).foldl (fun (n : ℤ) c => 10 * n + (c.toNat - '0'.toNat : ℕ)) 0 = n := by
  have hcast : ∀ (l : List Char) (k : ℕ), l.foldl (fun (n : ℤ) c => 10 * n + (c.toNat - '0'.toNat : ℕ)) k =
      (Nat.ofDigitChars 10 l k : ℕ) := by
    intro l
    induction l with
    | nil => exact fun _ => rfl
    | cons c l ih =>
      intro k
      rw [List.foldl_cons, Nat.ofDigitChars_cons, ← ih]
      push_cast
      rfl
  have hdigits := hcast (Nat.toDigits 10 n) 0
  rwa [Nat.ofDigitChars_ten_toDigits] at hdigits

theorem takeWhile_digits (n : ℕ) : (Nat.toDigits 10 n).takeWhile Char.isDigit = Nat.toDigits 10 n :=
  List.takeWhile_eq_self_iff.2 fun _ hc => Nat.isDigit_of_mem_toDigits (by decide) (by decide) hc

/-- the digits of a natural number start with a digit, which is no blank and no sign -/
theorem toDigits_cons (n : ℕ) : ∃ d ds, Nat.toDigits 10 n = d :: ds ∧ isSpace d = false ∧ d ≠ '-' ∧ d ≠ '+' := by
  obtain ⟨d, ds, hds⟩ := List.exists_cons_of_ne_nil (Nat.toDigits_ne_nil (n := n) (b := 10))
  have hd : d.isDigit = true := Nat.isDigit_of_mem_toDigits (by decide) (by decide) (hds ▸ List.mem_cons_self)
  have hrange : 48 ≤ d.toNat ∧ d.toNat ≤ 57 := by
    simpa [Char.isDigit, UInt32.le_iff_toNat_le] using hd
  have hne : ∀ c : Char, c.toNat < 48 → d ≠ c := by
    intro c hc e
    rw [e] at hrange
    omega
  refine ⟨d, ds, hds, ?_, hne _ (by decide), hne _ (by decide)⟩
  have hblank : d ≠ ' ' := hne _ (by decide)
  have hnot : ¬ (9 ≤ d.toNat ∧ d.toNat ≤ 13) := by omega
  simp [isSpace, hblank, hnot]

/-- `std::stoi` reads what `std::to_string` writes -/
theorem stoi_decimal {i : ℤ} (h : -2147483648 ≤ i ∧ i ≤ 2147483647) : stoi (decimal i) = some i := by
  cases i with
  | ofNat n =>
    obtain ⟨d, ds, hds, hspace, hminus, hplus⟩ := toDigits_cons n
    have hdrop : (Nat.toDigits 10 n).dropWhile isSpace = Nat.toDigits 10 n := by
      rw [hds, List.dropWhile_cons_of_neg (by simp [hspace])]
    simp only [stoi]
    rw [Int.ofNat_eq_natCast, decimal_ofNat, hdrop]
    split
    · case _ e =>
      rw [hds] at e
      exact absurd (List.cons.inj e).1 hminus
    · case _ e =>
      rw [hds] at e
      exact absurd (List.cons.inj e).1 hplus
    · simp only [takeWhile_digits, if_neg Nat.toDigits_ne_nil, foldl_digits]
      exact if_pos h
  | negSucc n =>
    simp only [stoi]
    rw [decimal_negSucc, List.dropWhile_cons_of_neg (by decide)]
    simp only [takeWhile_digits, if_neg Nat.toDigits_ne_nil, foldl_digits, if_true]
    exact if_pos h

theorem decimal_clean (i : ℤ) : Clean (decimal i) := by
  have hdigits : ∀ n, ∀ c ∈ Nat.toDigits 10 n, blank c = false := by
    intro n c hc
    have hdigit : c.isDigit = true := Nat.isDigit_of_mem_toDigits (by decide) (by decide) hc
    cases hblank : blank c with
    | false => rfl
    | true =>
      simp only [blank, decide_eq_true_eq] at hblank
      obtain rfl | rfl | rfl | rfl := hblank <;> cases hdigit
  have hall : ∀ c ∈ decimal i, blank c = false := by
    cases i with
    | ofNat n => exact fun c hc => hdigits n c (decimal_ofNat n ▸ hc)
    | negSucc n =>
      rw [decimal_negSucc, List.forall_mem_cons]
      exact ⟨by decide, hdigits (n + 1)⟩
  exact ⟨fun h => absurd (hall _ h) (by decide), trim_of_notBlank hall⟩

/-- the lines of a saved configuration -/
def Config.saveLines (c : Config) : List Str := [
  lit "[General]",
  assignment (lit "default_session") c.general.defaultSession,
  assignment (lit "remember_last_user") (boolText c.general.rememberLastUser),
  assignment (lit "last_user") c.general.lastUser,
  assignment (lit "greeter_command") c.general.greeterCommand,
  assignment (lit "greeter_user") c.general.greeterUser,
  assignment (lit "vt") (decimal c.general.vt),
  assignment (lit "numlock") (boolText c.general.numlock),
  [],
  lit "[Autologin]",
  assignment (lit "enabled") (boolText c.autologin.enabled),
  assignment (lit "user") c.autologin.user,
  assignment (lit "session") c.autologin.session]

theorem saveText_eq (c : Config) : c.saveText = unlines c.saveLines := by
  have hgeneral : lit "[General]\n" = lit "[General]" ++ ['\n'] := rfl
  have hautologin : lit "[Autologin]\n" = lit "[Autologin]" ++ ['\n'] := rfl
  have hend : lit "\n" = ['\n'] := rfl
  have hgap : lit "\n\n" = ['\n', '\n'] := rfl
  have hdefault : lit "default_session=" = lit "default_session" ++ ['='] := rfl
  have hremember : lit "remember_last_user=" = lit "remember_last_user" ++ ['='] := rfl
  have hlast : lit "last_user=" = lit "last_user" ++ ['='] := rfl
  have hcommand : lit "greeter_command=" = lit "greeter_command" ++ ['='] := rfl
  have huser : lit "greeter_user=" = lit "greeter_user" ++ ['='] := rfl
  have hvt : lit "vt=" = lit "vt" ++ ['='] := rfl
  have hnumlock : lit "numlock=" = lit "numlock" ++ ['='] := rfl
  have henabled : lit "enabled=" = lit "enabled" ++ ['='] := rfl
  have hauto : lit "user=" = lit "user" ++ ['='] := rfl
  have hsession : lit "session=" = lit "session" ++ ['='] := rfl
  delta Config.saveText
  simp only [Config.saveLines, unlines, assignment, List.flatMap_cons, List.flatMap_nil, List.append_assoc,
    List.cons_append, List.nil_append, List.append_nil, hgeneral, hautologin, hend, hgap, hdefault, hremember, hlast, hcommand,
    huser, hvt, hnumlock, henabled, hauto, hsession]

theorem notMem_assignment {key val : Str} (hkey : IsKey key) (hval : '\n' ∉ val) : '\n' ∉ assignment key val := by
  intro h
  rcases List.mem_append.1 h with h | h
  · exact (hkey.2 _ h).2.2.2.2.2 rfl
  · rcases List.mem_cons.1 h with h | h
    · exact absurd h (by decide)
    · exact hval h

/-- a key of the first section, read within it -/
theorem loadLine_general {key : Str} (h : IsKey key) (c : Config) (val : Str) :
    Config.loadLine (lit "General", c) (assignment key val) =
      (lit "General", { c with general := Config.setGeneral c.general key (trim val) }) := by
  rw [loadLine_assignment h, if_pos (Or.inl rfl)]

theorem loadLine_autologin {key : Str} (h : IsKey key) (c : Config) (val : Str) :
    Config.loadLine (lit "Autologin", c) (assignment key val) =
      (lit "Autologin", { c with autologin := Config.setAutologin c.autologin key (trim val) }) := by
  rw [loadLine_assignment h, if_neg (by decide), if_pos rfl]

section Keys

variable (g : GeneralConfig) (a : AutologinConfig) (val : Str)

theorem setGeneral_default_session :
    Config.setGeneral g (lit "default_session") val = { g with defaultSession := val } := rfl

theorem setGeneral_remember_last_user (b : Bool) :
    Config.setGeneral g (lit "remember_last_user") (Config.boolText b) = { g with rememberLastUser := b } :=
  congrArg (fun b => { g with rememberLastUser := b }) (parseBool_boolText b true)

theorem setGeneral_last_user : Config.setGeneral g (lit "last_user") val = { g with lastUser := val } := rfl

theorem setGeneral_greeter_command :
    Config.setGeneral g (lit "greeter_command") val = { g with greeterCommand := val } := rfl

theorem setGeneral_greeter_user : Config.setGeneral g (lit "greeter_user") val = { g with greeterUser := val } := rfl

theorem setGeneral_stoi : Config.setGeneral g (lit "vt") val = { g with vt := (stoi val).getD g.vt } := by
  have hother : ∀ key ∈ [lit "default_session", lit "remember_last_user", lit "last_user", lit "greeter_command",
      lit "greeter_user"], lit "vt" ≠ key := by decide
  simp only [List.forall_mem_cons] at hother
  cases hvt : stoi val <;> simp [Config.setGeneral, hother, hvt]

theorem setGeneral_vt {i : ℤ} (h : -2147483648 ≤ i ∧ i ≤ 2147483647) :
    Config.setGeneral g (lit "vt") (decimal i) = { g with vt := i } := by
  rw [setGeneral_stoi, stoi_decimal h, Option.getD_some]

theorem setGeneral_numlock (b : Bool) :
    Config.setGeneral g (lit "numlock") (Config.boolText b) = { g with numlock := b } :=
  congrArg (fun b => { g with numlock := b }) (parseBool_boolText b false)

theorem setAutologin_enabled (b : Bool) :
    Config.setAutologin a (lit "enabled") (Config.boolText b) = { a with enabled := b } :=
  congrArg (fun b => { a with enabled := b }) (parseBool_boolText b false)

theorem setAutologin_user : Config.setAutologin a (lit "user") val = { a with user := val } := rfl

theorem setAutologin_session : Config.setAutologin a (lit "session") val = { a with session := val } := rfl

end Keys

/-- **What is written is read back**, by any configuration, when it is clean; of a last user without newline, what is
left of it without the blanks around it. -/
theorem loadText_saveText {c : Config} (hc : c.Clean) {lastUser : Str} (hline : '\n' ∉ lastUser) (c₀ : Config) :
    c₀.loadText ({ c with general.lastUser := lastUser } : Config).saveText =
      { c with general.lastUser := trim lastUser, loadedPath := c₀.loadedPath } := by
  have hkey : ∀ key ∈ [lit "default_session", lit "remember_last_user", lit "last_user", lit "greeter_command",
      lit "greeter_user", lit "vt", lit "numlock", lit "enabled", lit "user", lit "session"], IsKey key := by decide
  simp only [List.forall_mem_cons] at hkey
  obtain ⟨hdefault, hremember, hlast, hcommand, huser, hvt, hnumlock, henabled, hauto, hsession, -⟩ := hkey
  have hlines : ∀ l ∈ ({ c with general.lastUser := lastUser } : Config).saveLines, '\n' ∉ l := by
    simp only [Config.saveLines, List.forall_mem_cons]
    refine ⟨by decide, notMem_assignment hdefault hc.defaultSession.1, notMem_assignment hremember (boolText_clean _).1,
      notMem_assignment hlast hline, notMem_assignment hcommand hc.greeterCommand.1,
      notMem_assignment huser hc.greeterUser.1, notMem_assignment hvt (decimal_clean _).1,
      notMem_assignment hnumlock (boolText_clean _).1, by decide, by decide,
      notMem_assignment henabled (boolText_clean _).1, notMem_assignment hauto hc.user.1,
      notMem_assignment hsession hc.session.1, by simp⟩
  -- the two headers and the blank line
  have hgeneral : Config.loadLine ([], c₀) (lit "[General]") = (lit "General", c₀) := rfl
  have hblank : ∀ st, Config.loadLine st [] = st := fun _ => rfl
  have hautologin : ∀ c, Config.loadLine (lit "General", c) (lit "[Autologin]") = (lit "Autologin", c) := fun _ => rfl
  rw [Config.loadText, saveText_eq, lines_unlines hlines]
  simp only [Config.saveLines, List.foldl_cons, List.foldl_nil, hgeneral, hblank, hautologin,
    loadLine_general hdefault, loadLine_general hremember, loadLine_general hlast, loadLine_general hcommand,
    loadLine_general huser, loadLine_general hvt, loadLine_general hnumlock, loadLine_autologin henabled,
    loadLine_autologin hauto, loadLine_autologin hsession, hc.defaultSession.2, hc.greeterCommand.2, hc.greeterUser.2,
    hc.user.2, hc.session.2, (boolText_clean _).2, (decimal_clean _).2, setGeneral_default_session,
    setGeneral_remember_last_user, setGeneral_last_user, setGeneral_greeter_command, setGeneral_greeter_user,
    setGeneral_vt _ hc.vt, setGeneral_numlock, setAutologin_enabled, setAutologin_user, setAutologin_session]

/-! ## Paths -/

theorem loadLine_path (st : Str × Config) (raw : Str) : (Config.loadLine st raw).2.loadedPath = st.2.loadedPath := by
  simp only [Config.loadLine]
  split_ifs
  · rfl
  · rfl
  · split
    · rfl
    · rfl
  · split
    · rfl
    · rfl
  · split <;> rfl

theorem loadText_path (c : Config) (text : Str) : (c.loadText text).loadedPath = c.loadedPath := by
  have key : ∀ (ls : List Str) (st : Str × Config), (ls.foldl Config.loadLine st).2.loadedPath = st.2.loadedPath := by
    intro ls
    induction ls with
    | nil => exact fun _ => rfl
    | cons l ls ih => exact fun st => (ih _).trans (loadLine_path st l)
  exact key _ _

/-- a configuration is saved to one of the places where it is looked for -/
theorem savePath_load (c : Config) (files : Files) (pathExists : Str → Bool) :
    (c.load files pathExists []).2.savePath [] ∈ configPaths := by
  have hfind : Config.findConfigFile pathExists [] = [] ∨ Config.findConfigFile pathExists [] ∈ configPaths := by
    have hsearch : Config.findConfigFile pathExists [] = (configPaths.find? fun path => pathExists path).getD [] := rfl
    rw [hsearch]
    cases hfound : configPaths.find? fun path => pathExists path with
    | none => exact Or.inl rfl
    | some path => exact Or.inr (List.mem_of_find?_eq_some hfound)
  have hpath : (c.load files pathExists []).2.loadedPath = Config.findConfigFile pathExists [] := by
    simp only [Config.load]
    split_ifs
    · rfl
    · split
      · rfl
      · exact loadText_path _ _
  rw [Config.savePath, hpath]
  rcases hfind with hfind | hfind
  · simp [hfind, configPaths]
  · by_cases hempty : Config.findConfigFile pathExists [] = []
    · simp [hempty, configPaths]
    · simpa [hempty] using hfind

theorem readFile_writeFile (files : Files) (path text : Str) : readFile (writeFile files path text) path = some text := by
  simp [readFile, writeFile]

theorem readFile_writeFile_ne {path path' : Str} (h : path' ≠ path) (files : Files) (text : Str) :
    readFile (writeFile files path text) path' = readFile files path' := by
  have hskip : ∀ (f : Str × Str) (fs : Files), f.1 = path → readFile (f :: fs) path' = readFile fs path' := by
    rintro ⟨name, content⟩ fs rfl
    simp [readFile, List.lookup_cons, beq_false_of_ne h]
  rw [writeFile, hskip _ _ rfl]
  induction files with
  | nil => rfl
  | cons f files ih =>
    by_cases hname : f.1 = path
    · rw [hskip f _ hname, ← ih, List.filter_cons_of_neg (by simp [hname])]
    · rw [List.filter_cons_of_pos (by simp [hname])]
      obtain ⟨name, content⟩ := f
      simp only [readFile, List.lookup_cons] at ih ⊢
      rw [ih]

end Miqudm
