/-
What the session scan finds.

The scan visits the entries of the two directories in the order their iterators give, and keeps the session of an entry
unless one kept before has its id or its name. `visit_cases` says what one entry does. From it follows, by induction
over the entries visited, that what is kept is usable and has ids and names of its own (`kept_scanned`), and that no
session is missing without another one in its place (`kept_complete`).

A scan comes to its end exactly if the directories are `Scannable`: the status of every entry can be told, and the
iteration does not break off. `scanAll_iff`: then it returns what it should, and otherwise it returns no list.
-/
import Miqudm.Common.DesktopEntry

namespace Miqudm

/-! ## One entry -/

/-- the session of an entry, if it is one -/
def parsed (e : DirEntry) : SessionInfo := parseDesktopFile e.path e.text true

/-- a session: a regular `.desktop` file that names a program -/
def Qualifies (e : DirEntry) : Prop :=
  e.isRegularFile = some true ∧ extension e.path = lit ".desktop" ∧ (parsed e).exec ≠ []

/-- two sessions a user could not tell apart -/
def Clash (s t : SessionInfo) : Prop := s.id = t.id ∨ s.name = t.name

/-- a file name with an extension has something before it -/
theorem stem_ne_nil {p : Str} (h : extension p ≠ []) : stem p ≠ [] := by
  simp only [extension, splitExtension] at h
  simp only [stem, splitExtension]
  split_ifs at h ⊢ with hdots hbase
  · exact absurd rfl h
  · exact absurd rfl h
  · exact fun hnil => hbase (Or.inl hnil)

/-- a session has a name: that of its file if it declares none -/
theorem Qualifies.name_ne_nil {e : DirEntry} (h : Qualifies e) : (parsed e).name ≠ [] := by
  obtain ⟨-, hext, hexec⟩ := h
  have hstem : stem e.path ≠ [] := stem_ne_nil (by rw [hext]; decide)
  cases htext : e.text with
  | none =>
    rw [parsed, htext] at hexec
    exact absurd rfl hexec
  | some text =>
    rw [parsed, htext, parseDesktopFile_eq]
    simp only [desktopEntry]
    split_ifs with hname
    · exact hstem
    · exact hname

/-- what an entry does to the sessions kept so far, if its status can be told -/
def visit (out : List SessionInfo) (e : DirEntry) : List SessionInfo :=
  if e.isRegularFile = some true then scanFile true out e else out

theorem scanEntry_eq (out : List SessionInfo) (e : DirEntry) :
    scanEntry true out e = if e.isRegularFile = none then none else some (visit out e) := by
  rcases e with ⟨path, _ | _ | _, text⟩ <;> rfl

theorem scanFile_eq (out : List SessionInfo) (e : DirEntry) : scanFile true out e =
    if extension e.path ≠ lit ".desktop" then out
    else if (parsed e).name = [] ∨ (parsed e).exec = [] then out
    else if (out.find? fun s => s.id = (parsed e).id ∨ s.name = (parsed e).name).isSome then out
    else out ++ [parsed e] := rfl

theorem visit_cases (out : List SessionInfo) (e : DirEntry) :
    (¬ Qualifies e ∧ visit out e = out) ∨
    (Qualifies e ∧ (∃ s ∈ out, Clash s (parsed e)) ∧ visit out e = out) ∨
    (Qualifies e ∧ (∀ s ∈ out, ¬ Clash s (parsed e)) ∧ visit out e = out ++ [parsed e]) := by
  by_cases hq : Qualifies e
  · have hname := hq.name_ne_nil
    have hparsed : ¬ ((parsed e).name = [] ∨ (parsed e).exec = []) := by
      intro hr
      rcases hr with h | h
      · exact hname h
      · exact hq.2.2 h
    have hscan : visit out e =
        if (out.find? fun s => s.id = (parsed e).id ∨ s.name = (parsed e).name).isSome then out
        else out ++ [parsed e] := by
      rw [visit, if_pos hq.1, scanFile_eq, if_neg (not_not.2 hq.2.1), if_neg hparsed]
    right
    by_cases hclash : ∃ s ∈ out, Clash s (parsed e)
    · left
      have hfound : (out.find? fun s => s.id = (parsed e).id ∨ s.name = (parsed e).name).isSome := by
        rw [List.find?_isSome]
        obtain ⟨s, hs, hsame⟩ := hclash
        exact ⟨s, hs, by simpa [Clash] using hsame⟩
      exact ⟨hq, hclash, by rw [hscan, if_pos hfound]⟩
    · right
      have hfound : ¬ (out.find? fun s => s.id = (parsed e).id ∨ s.name = (parsed e).name).isSome := by
        rw [List.find?_isSome]
        intro ⟨s, hs, hsame⟩
        exact hclash ⟨s, hs, by simpa [Clash] using hsame⟩
      refine ⟨hq, ?_, by rw [hscan, if_neg hfound]⟩
      intro s hs hsame
      exact hclash ⟨s, hs, hsame⟩
  · left
    refine ⟨hq, ?_⟩
    rw [visit]
    split_ifs with hfile
    · rw [scanFile_eq]
      split_ifs with hext hparsed hfound
      · rfl
      · rfl
      · rfl
      · -- nothing else keeps a regular `.desktop` file from being a session
        exact absurd ⟨hfile, not_not.1 hext, fun h => hparsed (Or.inr h)⟩ hq
    · rfl

/-! ## All entries -/

/-- what is kept of the entries visited -/
def kept (es : List DirEntry) : List SessionInfo := es.foldl visit []

theorem kept_concat (es : List DirEntry) (e : DirEntry) : kept (es ++ [e]) = visit (kept es) e := by
  rw [kept, List.foldl_append]
  rfl

/-- sessions found among the entries `es`: usable, each from one of them, and none twice -/
structure Scanned (es : List DirEntry) (out : List SessionInfo) : Prop where
  usable : ∀ s ∈ out, s.name ≠ [] ∧ s.exec ≠ []
  apart : out.Pairwise fun s t => ¬ Clash s t
  found : ∀ s ∈ out, ∃ e ∈ es, Qualifies e ∧ s = parsed e

theorem kept_scanned (es : List DirEntry) : Scanned es (kept es) := by
  induction es using List.reverseRecOn with
  | nil => exact ⟨by simp [kept], List.Pairwise.nil, by simp [kept]⟩
  | append_singleton es e ih =>
    have hfound : ∀ s ∈ kept es, ∃ e' ∈ es ++ [e], Qualifies e' ∧ s = parsed e' := by
      intro s hs
      obtain ⟨e', he', hs'⟩ := ih.found s hs
      exact ⟨e', List.mem_append_left _ he', hs'⟩
    rw [kept_concat]
    rcases visit_cases (kept es) e with ⟨-, heq⟩ | ⟨-, -, heq⟩ | ⟨hq, hfresh, heq⟩
    · rw [heq]
      exact ⟨ih.usable, ih.apart, hfound⟩
    · rw [heq]
      exact ⟨ih.usable, ih.apart, hfound⟩
    · rw [heq]
      constructor
      · intro s hs
        rcases List.mem_append.1 hs with hs | hs
        · exact ih.usable s hs
        · rw [List.mem_singleton.1 hs]
          exact ⟨hq.name_ne_nil, hq.2.2⟩
      · rw [List.pairwise_append]
        refine ⟨ih.apart, List.pairwise_singleton _ _, ?_⟩
        intro s hs t ht
        rw [List.mem_singleton.1 ht]
        exact hfresh s hs
      · intro s hs
        rcases List.mem_append.1 hs with hs | hs
        · exact hfound s hs
        · exact ⟨e, by simp, hq, List.mem_singleton.1 hs⟩

/-- what was kept stays -/
theorem kept_subset (pre post : List DirEntry) : kept pre ⊆ kept (pre ++ post) := by
  induction post using List.reverseRecOn with
  | nil => rw [List.append_nil]; exact List.Subset.refl _
  | append_singleton post e ih =>
    rw [← List.append_assoc, kept_concat]
    rcases visit_cases (kept (pre ++ post)) e with ⟨-, heq⟩ | ⟨-, -, heq⟩ | ⟨-, -, heq⟩
    · rwa [heq]
    · rwa [heq]
    · rw [heq]
      exact List.subset_append_of_subset_left _ ih

/-- a session is kept, or one that was kept before stands in its place -/
theorem kept_complete {es pre post : List DirEntry} {e : DirEntry} (hes : es = pre ++ e :: post) (hq : Qualifies e) :
    parsed e ∈ kept es ∨ ∃ s ∈ kept pre, s ∈ kept es ∧ Clash s (parsed e) := by
  have hsplit : es = (pre ++ [e]) ++ post := by simp [hes]
  rcases visit_cases (kept pre) e with ⟨hno, -⟩ | ⟨-, ⟨s, hs, hclash⟩, -⟩ | ⟨-, -, heq⟩
  · exact absurd hq hno
  · right
    exact ⟨s, hs, hes ▸ kept_subset pre (e :: post) hs, hclash⟩
  · left
    rw [hsplit]
    apply kept_subset (pre ++ [e]) post
    rw [kept_concat, heq]
    exact List.mem_append_right _ (List.mem_singleton_self _)

/-! ## The scan -/

def sessionDirs : List Str := [lit "/usr/share/wayland-sessions", lit "/usr/local/share/wayland-sessions"]

/-- the iteration comes to its end, and the status of every entry can be told -/
def Listing.Complete (l : Listing) : Prop :=
  (∀ e ∈ l.entries, e.isRegularFile ≠ none) ∧ (l.breaksOff = true → l.entries = [])

instance (l : Listing) : Decidable l.Complete := inferInstanceAs (Decidable (_ ∧ _))

/-- nothing is thrown while the directories are scanned -/
def Scannable (listing : Str → Option Listing) : Prop := ∀ dir ∈ sessionDirs, ∀ l ∈ listing dir, l.Complete

instance (listing : Str → Option Listing) : Decidable (Scannable listing) :=
  inferInstanceAs (Decidable (∀ dir ∈ sessionDirs, ∀ l ∈ listing dir, l.Complete))

/-- the entries of a directory -/
def entriesOf (listing : Option Listing) : List DirEntry := (listing.map Listing.entries).getD []

/-- the entries the scan visits, in order -/
def visited (listing : Str → Option Listing) : List DirEntry := sessionDirs.flatMap fun dir => entriesOf (listing dir)

theorem foldlM_scanEntry (es : List DirEntry) : ∀ out, es.foldlM (scanEntry true) out =
    if ∀ e ∈ es, e.isRegularFile ≠ none then some (es.foldl visit out) else none := by
  induction es with
  | nil => simp
  | cons e es ih =>
    intro out
    rw [List.foldlM_cons, scanEntry_eq]
    by_cases he : e.isRegularFile = none
    · rw [if_pos he, if_neg fun h => h e List.mem_cons_self he]
      rfl
    · rw [if_neg he, Option.bind_eq_bind, Option.bind_some, ih]
      simp only [List.forall_mem_cons, List.foldl_cons, ne_eq, he, not_false_eq_true, true_and]

theorem scanDirectory_eq (listing : Option Listing) (out : List SessionInfo) : scanDirectory listing true out =
    if ∀ l ∈ listing, l.Complete then some ((entriesOf listing).foldl visit out) else none := by
  cases listing with
  | none => simp [scanDirectory, entriesOf]
  | some l =>
    simp only [scanDirectory, foldlM_scanEntry, entriesOf, Option.mem_def, Option.some_inj, forall_eq', Listing.Complete,
      Option.map_some, Option.getD_some]
    split_ifs <;> simp_all

theorem scannable_iff (listing : Str → Option Listing) : Scannable listing ↔
    (∀ l ∈ listing (lit "/usr/share/wayland-sessions"), l.Complete) ∧
      ∀ l ∈ listing (lit "/usr/local/share/wayland-sessions"), l.Complete := by
  simp [Scannable, sessionDirs]

theorem scanAll_eq (listing : Str → Option Listing) : scanAll listing =
    if Scannable listing then some (if kept (visited listing) = [] then [fallbackSession] else kept (visited listing))
    else none := by
  rw [if_congr (scannable_iff listing) rfl rfl]
  simp only [scanAll, scanDirectory_eq]
  have hvisited : kept (visited listing) = (entriesOf (listing (lit "/usr/local/share/wayland-sessions"))).foldl visit
      ((entriesOf (listing (lit "/usr/share/wayland-sessions"))).foldl visit []) := by
    simp [kept, visited, sessionDirs, List.foldl_append]
  rw [hvisited]
  split_ifs <;> simp_all

/-- the fallback is no file's session -/
theorem fallback_ne_parsed {e : DirEntry} (h : Qualifies e) : fallbackSession ≠ parsed e := by
  intro heq
  have hfile : (parsed e).desktopFile = e.path := by
    cases htext : e.text with
    | none =>
      rw [parsed, htext]
      rfl
    | some text => rw [parsed, htext, parseDesktopFile_eq]; rfl
  have hpath : e.path = [] := by
    rw [← hfile, ← heq]
    rfl
  have hext := h.2.1
  rw [hpath] at hext
  exact absurd hext (by decide)

theorem kept_eq_nil_iff (es : List DirEntry) : kept es = [] ↔ ∀ e ∈ es, ¬ Qualifies e := by
  constructor
  · intro hnil e he hq
    obtain ⟨pre, post, hes⟩ := List.append_of_mem he
    rcases kept_complete hes hq with h | ⟨s, -, h, -⟩
    · rw [hnil] at h
      cases h
    · rw [hnil] at h
      cases h
  · intro h
    rw [List.eq_nil_iff_forall_not_mem]
    intro s hs
    obtain ⟨e, he, hq, -⟩ := (kept_scanned es).found s hs
    exact h e he hq

/-- what a scan should return: usable sessions, none twice, each from a file, and missing none without another one in its
place; or the one fallback, exactly if no file is a session -/
structure ScanResult (listing : Str → Option Listing) (sessions : List SessionInfo) : Prop where
  nonempty : sessions ≠ []
  usable : ∀ s ∈ sessions, s.name ≠ [] ∧ s.exec ≠ []
  ids : (sessions.map SessionInfo.id).Nodup
  names : (sessions.map SessionInfo.name).Nodup
  complete : ∀ pre e post, visited listing = pre ++ e :: post → Qualifies e →
    parsed e ∈ sessions ∨ ∃ s ∈ kept pre, s ∈ sessions ∧ (s.id = (parsed e).id ∨ s.name = (parsed e).name)
  found : ∀ s ∈ sessions, s ≠ fallbackSession → ∃ e ∈ visited listing, Qualifies e ∧ s = parsed e
  fallback : fallbackSession ∈ sessions ↔ ∀ e ∈ visited listing, ¬ Qualifies e
  single : fallbackSession ∈ sessions → sessions = [fallbackSession]

theorem scanResult_fallback {listing : Str → Option Listing} (hnil : kept (visited listing) = []) :
    ScanResult listing [fallbackSession] := by
  have hnone := (kept_eq_nil_iff _).1 hnil
  refine ⟨by simp, by decide, by simp, by simp, ?_, ?_, ?_, fun _ => rfl⟩
  · intro pre e post hsplit hq
    exact absurd hq (hnone e (by rw [hsplit]; simp))
  · intro s hs hne
    exact absurd (List.mem_singleton.1 hs) hne
  · exact ⟨fun _ => hnone, fun _ => List.mem_singleton_self _⟩

theorem scanResult_kept {listing : Str → Option Listing} (hne : kept (visited listing) ≠ []) :
    ScanResult listing (kept (visited listing)) := by
  have hscanned := kept_scanned (visited listing)
  have hfallback : fallbackSession ∉ kept (visited listing) := by
    intro h
    obtain ⟨e, -, hq, heq⟩ := hscanned.found _ h
    exact fallback_ne_parsed hq heq
  refine ⟨hne, hscanned.usable, ?_, ?_, ?_, ?_, ?_, fun h => absurd h hfallback⟩
  · exact List.pairwise_map.2 (hscanned.apart.imp fun h e => h (Or.inl e))
  · exact List.pairwise_map.2 (hscanned.apart.imp fun h e => h (Or.inr e))
  · intro pre e post hsplit hq
    exact kept_complete hsplit hq
  · exact fun s hs _ => hscanned.found s hs
  · exact ⟨fun h => absurd h hfallback, fun h => absurd ((kept_eq_nil_iff _).2 h) hne⟩

/-- a list that a scan returns is as it should be -/
theorem scanResult {listing : Str → Option Listing} {sessions : List SessionInfo} (h : scanAll listing = some sessions) :
    ScanResult listing sessions := by
  rw [scanAll_eq] at h
  split_ifs at h with hscannable hnil
  · cases h
    exact scanResult_fallback hnil
  · cases h
    exact scanResult_kept hnil

theorem scanAll_isSome (listing : Str → Option Listing) : (scanAll listing).isSome ↔ Scannable listing := by
  rw [scanAll_eq]
  split_ifs with hscannable <;> simp [hscannable]

/-- **What the scan returns.** It returns what it should exactly if the directories can be scanned; otherwise it returns no
list, and what is thrown ends the process. -/
theorem scanAll_iff (listing : Str → Option Listing) :
    ((∃ sessions, scanAll listing = some sessions ∧ ScanResult listing sessions) ↔ Scannable listing) ∧
    (¬ Scannable listing → scanAll listing = none) := by
  rw [← scanAll_isSome]
  refine ⟨⟨?_, fun h => ?_⟩, fun h => ?_⟩
  · rintro ⟨sessions, h, -⟩
    rw [h]
    rfl
  · obtain ⟨sessions, hsome⟩ := Option.isSome_iff_exists.1 h
    exact ⟨sessions, hsome, scanResult hsome⟩
  · simpa using h

/-- a session beside a symbolic link that points to itself -/
def looping (dir : Str) : Option Listing :=
  if dir = lit "/usr/share/wayland-sessions" then
    some { entries := [⟨lit "/usr/share/wayland-sessions/plain.desktop", some true,
        some (lit "[Desktop Entry]\nName=Plain\nExec=plain\n")⟩,
      ⟨lit "/usr/share/wayland-sessions/loop.desktop", none, none⟩] }
  else none

/-- the scan throws on the link, and the session is lost with it -/
theorem scan_throws : ¬ ∀ listing, ∃ sessions, scanAll listing = some sessions ∧ ScanResult listing sessions := by
  intro h
  obtain ⟨sessions, hscan, -⟩ := h looping
  have hnone : scanAll looping = none := by decide
  rw [hnone] at hscan
  cases hscan

end Miqudm
