/-
The configuration in force.

`asked` is the configuration a command line asks for: what the first existing file says among the path of its last `-c`
or `--config` option and the standard ones. A daemon runs with the one it has loaded: only a login changes it, and only
its last user (`history_runsAs`). Every file it saves is the one it has loaded from, or the first standard one when there
was none (`history_savesOne`), so the next start reads it (`restart`). But what it loads is what is asked for without any
option, and `in_force_iff` says when that makes no difference.
-/
import Miqudm.Common.ConfigText
import Miqudm.Daemon.CommandLine
import Miqudm.Daemon.Connection
import Miqudm.Daemon.Supervision

namespace Miqudm.ConfigInForce

open Miqudm.Core Prog CommandLine

/-! ## The run keeps its configuration -/

/-- the configuration `c`, but for a last user that one of the requests has logged in -/
def RunsWith (c : Config) (heard : List IpcMessage) (config : Config) : Prop :=
  ∃ lastUser, config = { c with general.lastUser := lastUser } ∧
    (lastUser = c.general.lastUser ∨ ∃ req ∈ heard, req.type = .login ∧ req.username = lastUser)

theorem runsWith_self (c : Config) (heard : List IpcMessage) : RunsWith c heard c := ⟨_, rfl, Or.inl rfl⟩

theorem RunsWith.mono {c config : Config} {heard heard' : List IpcMessage} (h : RunsWith c heard config)
    (hsub : heard ⊆ heard') : RunsWith c heard' config := by
  obtain ⟨lastUser, hconfig, hlast⟩ := h
  refine ⟨lastUser, hconfig, ?_⟩
  rcases hlast with hlast | ⟨req, hreq, hlogin⟩
  · exact Or.inl hlast
  · exact Or.inr ⟨req, hsub hreq, hlogin⟩

theorem RunsWith.loadedPath {c config : Config} {heard : List IpcMessage} (h : RunsWith c heard config) :
    config.loadedPath = c.loadedPath := by
  obtain ⟨lastUser, rfl, -⟩ := h
  rfl

/-- a login changes the last user -/
theorem RunsWith.login {c config : Config} {heard : List IpcMessage} (h : RunsWith c heard config)
    {req : IpcMessage} (hreq : req ∈ heard) (hlogin : req.type = .login) :
    RunsWith c heard { config with general.lastUser := req.username } := by
  obtain ⟨lastUser, rfl, -⟩ := h
  exact ⟨req.username, rfl, Or.inr ⟨req, hreq, hlogin, rfl⟩⟩

/-- it remembers the requests; the handler of a signal may run before anything is loaded -/
def keeping (c : Config) : Monitor Event St Halt (List IpcMessage) where
  step heard e := e.request?.toList ++ heard
  good heard e s := e ≠ .stop → RunsWith c heard s.config

theorem after_eq (c : Config) (l : List (Event × St)) : ∀ heard,
    (keeping c).after heard l = (requests (events l)).reverse ++ heard := by
  induction l with
  | nil => exact fun _ => rfl
  | cons p l ih =>
    intro heard
    rw [Monitor.after_cons, ih, events_cons]
    cases hp : p.1.request? <;> simp [keeping, hp, requests]

/-- a part that keeps the configuration, given that these requests have come -/
def Steady (c : Config) (known : List IpcMessage) {α : Type} (x : Sys α) : Prop :=
  ∀ heard s, known ⊆ heard → RunsWith c heard s.config →
    Watched (keeping c) heard x s (fun heard' _ t => heard ⊆ heard' ∧ RunsWith c heard' t.config)

section Rules

variable {E : Env} {c : Config} {known : List IpcMessage} {α β : Type}

theorem steady_pure (a : α) : Steady c known (pure a : Sys α) := fun _ _ _ h => watched_pure ⟨List.Subset.refl _, h⟩

theorem steady_bind {x : Sys α} {f : α → Sys β} (hx : Steady c known x) (hf : ∀ a, Steady c known (f a)) :
    Steady c known (x >>= f) := by
  intro heard s hknown h
  apply Watched.seq (hx heard s hknown h)
  intro heard' a t ht
  obtain ⟨hsub, ht⟩ := ht
  exact Watched.mono (hf a heard' t (List.Subset.trans hknown hsub) ht) fun _ _ _ hu => ⟨List.Subset.trans hsub hu.1, hu.2⟩

theorem steady_get_bind {f : St → Sys β} (hf : ∀ s, Steady c known (f s)) : Steady c known (Prog.get >>= f) :=
  fun heard s hknown h => watched_bind (watched_get (hf s heard s hknown h))

theorem steady_ite {p : Prop} [Decidable p] {x y : Sys α} (hx : Steady c known x) (hy : Steady c known y) :
    Steady c known (if p then x else y) := by
  split_ifs
  · exact hx
  · exact hy

theorem steady_when {p : Prop} [Decidable p] {x : Sys Unit} (hx : Steady c known x) : Steady c known (Prog.when p x) :=
  steady_ite hx (steady_pure ())

theorem steady_halt (h : Halt) : Steady c known (Prog.halt h : Sys α) := fun _ _ _ _ => watched_halt trivial

theorem steady_loop {body : Sys Bool} (h : Steady c known body) : ∀ n, Steady c known (Prog.loop .cut body n) := by
  intro n
  induction n with
  | zero => exact steady_halt _
  | succ n ih => exact steady_bind h fun _ => steady_ite ih (steady_pure ())

/-- a part that takes no request and does not touch the configuration -/
theorem steady_of_within {F : Footprint St Event Halt} {x : Sys α} (h : Within F x)
    (hallow : ∀ e s, F.allow e s → e.request? = none) (hrel : ∀ s t, F.rel s t → s.config = t.config) :
    Steady c known x := by
  intro heard s _ hs
  apply Watched.mono (Within.watched (J := fun heard' => heard' = heard) h rfl ?_ fun _ _ _ _ => trivial)
  · rintro heard' _ t ⟨rfl, ht⟩
    exact ⟨List.Subset.refl _, hrel _ _ ht ▸ hs⟩
  · rintro heard' e t rfl he ht
    refine ⟨fun _ => hrel _ _ ht ▸ hs, ?_⟩
    simp [keeping, hallow e t he]

theorem steady_of_calm {g : St → St} {x : Sys α} (h : Within (calmly g) x) (hg : ∀ s, (g s).config = s.config) :
    Steady c known x :=
  steady_of_within h (fun e _ he => by cases e <;> first | rfl | cases he) fun _ _ ht => same_of_erased ht hg

theorem steady_of_quiet {g : St → St} {x : Sys α} (h : Within (quietly g) x) (hg : ∀ s, (g s).config = s.config) :
    Steady c known x :=
  steady_of_within h (fun e _ he => by cases e <;> first | rfl | cases he) fun _ _ ht => same_of_erased ht hg

theorem steady_op {e : Event} (he : e.request? = none) {f : St → St} (hf : ∀ s, (f s).config = s.config) :
    Steady c known (op E e f) := by
  intro heard s _ hs
  refine watched_op E (fun h => absurd rfl h) rfl fun b => ⟨fun _ => ?_, ?_⟩
  · exact (hf (s.setRunning b)).symm ▸ hs
  · simp only [keeping, he, Option.toList_none, List.nil_append]
    exact ⟨List.Subset.refl _, (hf (s.setRunning b)).symm ▸ hs⟩

end Rules

/-! ## A login -/

section Parts

variable {c : Config} {known : List IpcMessage} (E : Env)

theorem reply_steady (resp : IpcMessage) : Steady c known (reply E resp) :=
  steady_bind (steady_op rfl fun _ => rfl) fun _ => steady_get_bind fun _ => steady_ite (steady_halt _) (steady_pure ())

theorem stopGreeter_steady : Steady c known (stopGreeter E) :=
  steady_bind (steady_op rfl fun _ => rfl) fun _ => steady_of_calm (releaseGreeter_calm E) fun _ => rfl

theorem launch_steady (user : UserInfo) (session : SessionInfo) (pamEnvs : List Str) (vt : ℤ) :
    Steady c known (launch E user session pamEnvs vt) := by
  refine steady_bind (steady_op rfl fun _ => rfl) fun _ => ?_
  refine steady_bind (steady_of_calm (isRunning_calm E) fun _ => rfl) fun running => ?_
  refine steady_ite (steady_pure _) (steady_bind ?_ fun r => ?_)
  · exact steady_get_bind fun s => steady_bind (steady_op rfl fun _ => rfl) fun _ => steady_pure _
  · split
    · exact steady_pure _
    · exact steady_bind (steady_op rfl fun _ => rfl) fun _ => steady_pure _

/-- the one assignment to the configuration of a run -/
theorem rememberLastUser_steady {req : IpcMessage} (hreq : req ∈ known) (hlogin : req.type = .login) :
    Steady c known (rememberLastUser E req) := by
  refine steady_get_bind fun _ => steady_ite ?_ (steady_pure ())
  refine steady_bind ?_ fun _ => steady_get_bind fun _ => steady_op rfl fun _ => rfl
  intro heard s hknown h
  refine watched_op E (fun hstop => absurd rfl hstop) rfl fun b => ?_
  have hnow : RunsWith c heard { s.config with general.lastUser := req.username } := h.login (hknown hreq) hlogin
  exact ⟨fun _ => hnow, List.Subset.refl _, hnow⟩

theorem serveSession_steady {req : IpcMessage} (hreq : req ∈ known) (hlogin : req.type = .login) (pam : PamAuth) :
    Steady c known (serveSession E req pam) := by
  refine steady_bind (stopGreeter_steady E) fun _ => steady_get_bind fun s => ?_
  apply steady_bind (rememberLastUser_steady E hreq hlogin)
  intro _
  apply steady_bind (steady_of_calm (setActivePam_calm E pam) fun _ => rfl)
  intro _
  apply steady_bind (steady_of_calm (onPam_calm E _) fun _ => rfl)
  intro pamEnvs
  apply steady_bind (launch_steady E _ _ _ _)
  intro launched
  refine steady_bind (steady_when (steady_bind (steady_of_calm (waitForExit_calm E) fun _ => rfl) fun _ => steady_pure _))
    fun _ => ?_
  apply steady_bind (steady_of_calm (releaseActivePam_calm E) fun _ => rfl)
  intro _
  apply steady_bind (steady_of_calm (readRunning_calm E) fun _ => rfl)
  intro running
  exact steady_ite (steady_of_quiet (startGreeter_quiet E) fun _ => rfl) (steady_pure ())

theorem handleLoginRequest_steady {req : IpcMessage} (hreq : req ∈ known) (hlogin : req.type = .login) :
    Steady c known (handleLoginRequest E req) := by
  rw [handleLoginRequest_eq]
  apply steady_bind (steady_of_calm (attempt_calm E req) fun _ => rfl)
  rintro ⟨failure, pam⟩
  cases failure with
  | some message =>
    exact steady_bind (reply_steady E _) fun _ => steady_bind (steady_of_calm (onPam_calm E _) fun _ => rfl) fun _ =>
      steady_pure _
  | none => exact steady_bind (reply_steady E _) fun _ => serveSession_steady E hreq hlogin pam

theorem cacheSessions_steady : Steady c known (cacheSessions E) := by
  refine steady_get_bind fun _ => ?_
  split
  · exact steady_halt _
  · exact steady_op rfl fun _ => rfl

theorem processMessage_steady {req : IpcMessage} (hreq : req ∈ known) : Steady c known (processMessage E req) := by
  unfold processMessage
  split
  · exact reply_steady E _
  · exact steady_bind (steady_op rfl fun _ => rfl) fun _ => steady_get_bind fun _ => reply_steady E _
  · exact steady_bind (cacheSessions_steady E) fun _ => steady_get_bind fun _ => reply_steady E _
  · exact steady_bind (steady_of_calm (powerCall_calm E _) fun _ => rfl) fun _ => reply_steady E _
  · case _ hlogin => exact handleLoginRequest_steady E hreq hlogin
  · exact reply_steady E _

/-! ## Connections and the loop -/

/-- the request that is processed has been received -/
theorem serveLine_steady (line rest : Str) : Steady c [] (serveLine E line rest) := by
  refine steady_bind (steady_op rfl fun _ => rfl) fun _ => ?_
  split
  · exact steady_halt _
  · case _ req _ =>
    intro heard s _ h
    have hmore : RunsWith c (req :: heard) s.config := h.mono (List.subset_cons_self req heard)
    have hreceive : Watched (keeping c) heard
        (op E (.received req) fun s => { s with frame := s.frame.map fun f => { f with req := req } }) s
        (fun heard' _ t => heard' = req :: heard ∧ RunsWith c heard' t.config) :=
      watched_op E (fun hstop => absurd rfl hstop) rfl fun b => ⟨fun _ => h, rfl, hmore⟩
    apply Watched.seq hreceive
    rintro heard' _ t ⟨rfl, ht⟩
    have hserve : Steady c [req] (do
        processMessage E req
        op E .served id) :=
      steady_bind (processMessage_steady E (List.mem_singleton.2 rfl)) fun _ => steady_op rfl fun _ => rfl
    apply Watched.mono (hserve (req :: heard) t (by simp) ht)
    intro heard' _ u hu
    exact ⟨List.Subset.trans (List.subset_cons_self req heard) hu.1, hu.2⟩

theorem readLoop_steady : ∀ (chunks : List Str) (accumulated : Str), Steady c [] (readLoop E accumulated chunks) := by
  intro chunks
  induction chunks with
  | nil => exact fun _ => steady_op rfl fun _ => rfl
  | cons chunk chunks ih =>
    intro accumulated
    refine steady_ite (steady_op rfl fun _ => rfl) (steady_bind (steady_op rfl fun _ => rfl) fun _ => ?_)
    split
    · exact ih _
    · exact serveLine_steady E _ _

theorem handleClientConnection_steady (fd : ℤ) (chunks : List Str) : Steady c [] (handleClientConnection E fd chunks) :=
  steady_bind (steady_op rfl fun _ => rfl) fun _ => steady_bind (readLoop_steady E chunks []) fun _ =>
    steady_op rfl fun _ => rfl

theorem acceptClient_steady : Steady c [] (acceptClient E) := by
  apply steady_get_bind
  intro s
  split
  · exact steady_op rfl fun _ => rfl
  · exact steady_bind (steady_op rfl fun _ => rfl) fun _ => steady_bind (handleClientConnection_steady E _ _) fun _ =>
      steady_of_calm (close_calm E _) fun _ => rfl

theorem turn_steady : Steady c [] (turn E) := by
  have watch : Steady c [] (do watchGreeter E; return true) :=
    steady_bind (steady_of_quiet (watchGreeter_quiet E) fun _ => rfl) fun _ => steady_pure _
  refine steady_bind (steady_op rfl fun _ => rfl) fun _ => steady_get_bind fun s => steady_ite (steady_pure _) ?_
  refine steady_get_bind fun t => steady_bind (steady_op rfl fun _ => rfl) fun _ => ?_
  split
  · exact steady_pure _
  · exact steady_pure _
  · exact steady_bind (acceptClient_steady E) fun _ => watch
  · exact watch

theorem run_steady (n : ℕ) : Steady c [] (run E n) := by
  refine steady_bind (steady_op rfl fun _ => rfl) fun _ => ?_
  refine steady_bind (steady_of_quiet (startGreeter_quiet E) fun _ => rfl) fun _ => ?_
  refine steady_bind (steady_loop (turn_steady E) n) fun _ => steady_bind (stopGreeter_steady E) fun _ => ?_
  refine steady_bind (steady_of_calm (terminate_calm E) fun _ => rfl) fun _ => ?_
  exact steady_bind (steady_of_calm (cleanupIpcSocket_calm E) fun _ => rfl) fun _ => steady_op rfl fun _ => rfl

end Parts

/-! ## The whole run -/

/-- what a daemon loads at its start -/
def loaded (E : Env) : Config := (({} : Config).load (boot E).readable ((boot E).pathExists E) []).2

/-- a watched run with the configuration `c`: nothing but a login changes it -/
def RunsAs (c : Config) (log : List (Event × St)) : Prop :=
  ∀ (pre post : List (Event × St)) (e : Event) (s : St), log = pre ++ (e, s) :: post → e ≠ .stop →
    RunsWith c (requests (events pre)) s.config

/-- before `init` loads the configuration, only the handler of a signal may run -/
theorem init_watched (E : Env) : Watched (keeping (loaded E)) [] (init E) (boot E)
    (fun heard _ t => RunsWith (loaded E) heard t.config) := by
  apply Watched.seq (q := fun heard _ t => heard = [] ∧ t.config = loaded E)
  · apply watched_loadConfig E trivial
    exact watched_op E (fun hstop => absurd rfl hstop) rfl fun b => ⟨fun _ => runsWith_self _ _, rfl, rfl⟩
  rintro heard _ s ⟨rfl, hs⟩
  have hrest : Steady (loaded E) [] (do
      cacheUsers E
      cacheSessions E
      setupIpcSocket E) :=
    steady_bind (steady_op rfl fun _ => rfl) fun _ => steady_bind (cacheSessions_steady E) fun _ =>
      steady_of_calm (setupIpcSocket_calm E) fun _ => rfl
  exact Watched.mono (hrest [] s (List.Subset.refl _) (hs ▸ runsWith_self _ _)) fun _ _ _ h => h.2

theorem main_watched (E : Env) (n : ℕ) : Watched (keeping (loaded E)) [] (Miqudm.main E n) (boot E) (fun _ _ _ => True) := by
  apply Watched.seq (init_watched E)
  intro heard ok s hs
  have hrun : Steady (loaded E) [] (if ok = true then run E n else pure ()) := steady_ite (run_steady E n) (steady_pure ())
  exact Watched.mono (hrun heard s (List.nil_subset _) hs) fun _ _ _ _ => trivial

/-- **A run keeps what it has loaded.** -/
theorem history_runsAs (E : Env) (n : ℕ) : RunsAs (loaded E) (history E n) := by
  intro pre post e s hsplit hstop
  have hgood := (keeping (loaded E)).accepts_split (Watched.accepts (main_watched E n)) hsplit hstop
  rw [after_eq, List.append_nil] at hgood
  exact hgood.mono (List.reverse_subset.2 (List.Subset.refl _))

/-! ## What is asked for -/

/-- the first of these paths with a file -/
def firstFile (files : Files) (paths : List Str) : Option Str := paths.find? fun path => (readFile files path).isSome

/-- the configuration that the file at this path says -/
def readFrom (files : Files) (path : Str) : Config :=
  ({ loadedPath := path } : Config).loadText ((readFile files path).getD [])

/-- what the first of these files says; without any, the defaults -/
def readFirst (files : Files) (paths : List Str) : Config :=
  match firstFile files paths with
  | some path => readFrom files path
  | none => {}

/-- the path of the last option, and the standard ones -/
def candidates (paths : List Str) : List Str := paths.getLast?.toList ++ configPaths

/-- the configuration that a command line with these paths asks for -/
def asked (files : Files) (paths : List Str) : Config := readFirst files (candidates paths)

/-- whatever exists of the configuration files can be read, and it can be told what exists -/
structure Readable (E : Env) (paths : List Str) : Prop where
  unnamed : readFile E.files [] = none
  files : ∀ path ∈ candidates paths, path ∉ E.dirs ∧ ∀ n, E.pathExists n path = false
  told : ∀ path ∈ candidates paths, ∀ n, E.statusTold n path = true

theorem mem_candidates {paths : List Str} {path : Str} (h : path ∈ configPaths) : path ∈ candidates paths :=
  List.mem_append_right _ h

theorem Readable.exists_eq {E : Env} {paths : List Str} (h : Readable E paths) {path : Str}
    (hpath : path ∈ candidates paths) : (boot E).pathExists E path = (readFile E.files path).isSome := by
  obtain ⟨hdir, hother⟩ := h.files path hpath
  simp [St.pathExists, boot, hdir, hother]

theorem Readable.found {E : Env} {paths : List Str} (h : Readable E paths) :
    Config.searchThrows (E.statusTold 0) ((boot E).pathExists E) [] = false := by
  refine (Option.any_eq_false _ _).2 fun path hpath => ?_
  have hmem : path ∈ configPaths := List.mem_of_find?_eq_some hpath
  simp [h.told path (mem_candidates hmem) 0]

theorem ne_nil_of_mem {path : Str} (h : path ∈ configPaths) : path ≠ [] := by
  rintro rfl
  exact absurd h (by decide)

theorem readFrom_path (files : Files) (path : Str) : (readFrom files path).loadedPath = path := loadText_path _ _

theorem readFile_readable {s : St} {path : Str} (h : path ∉ s.dirs) : readFile s.readable path = readFile s.files path := by
  have hdirs : (s.dirs.map fun dir => (dir, ([] : Str))).lookup path = none := by
    rw [List.lookup_eq_none_iff]
    intro p hp
    obtain ⟨dir, hdir, rfl⟩ := List.mem_map.1 hp
    simpa using fun heq : path = dir => h (heq ▸ hdir)
  rw [readFile, St.readable, List.lookup_append, hdirs, Option.or_none, readFile]

/-- **What is loaded** is what is asked for without any option. -/
theorem loaded_eq {E : Env} {paths : List Str} (h : Readable E paths) : loaded E = readFirst E.files configPaths := by
  have hexists : ∀ path ∈ configPaths, (boot E).pathExists E path = (readFile E.files path).isSome := fun path hpath =>
    h.exists_eq (mem_candidates hpath)
  have hsearch : Config.findConfigFile ((boot E).pathExists E) [] = (firstFile E.files configPaths).getD [] := by
    simp only [configPaths, List.forall_mem_cons] at hexists
    simp [Config.findConfigFile, firstFile, configPaths, List.find?_cons, hexists]
  simp only [loaded, Config.load, hsearch, readFirst]
  cases hfirst : firstFile E.files configPaths with
  | none => rfl
  | some path =>
    have hne : path ≠ [] := ne_nil_of_mem (List.mem_of_find?_eq_some hfirst)
    have hsome : (readFile E.files path).isSome := List.find?_some (p := fun path => (readFile E.files path).isSome) hfirst
    obtain ⟨text, htext⟩ := Option.isSome_iff_exists.1 hsome
    have hdir : path ∉ (boot E).dirs := (h.files path (mem_candidates (List.mem_of_find?_eq_some hfirst))).1
    have hread : readFile (boot E).readable path = some text := (readFile_readable hdir).trans htext
    simp [hne, htext, hread, readFrom]

/-! ## The file that is saved -/

/-- of the files, only the one that is saved to has changed -/
structure Written (files : Files) (loadedPath : Str) (k : Kept) : Prop where
  loaded : k.loadedPath = loadedPath
  others : ∀ path, path ≠ Config.savePath { loadedPath := loadedPath } [] → readFile k.files path = readFile files path

theorem written_step {E : Env} {files : Files} {loadedPath : Str} {k k' : Kept} {e : Event}
    (h : Written files loadedPath k) (hstep : k.runStep E e k') : Written files loadedPath k' ∧
      ∀ path, e = .save path → path = Config.savePath { loadedPath := loadedPath } [] := by
  rcases hstep with hstep | ⟨rfl, rfl⟩
  · cases e with
    | bind path ok => exact hstep.elim
    | stop =>
      obtain rfl : k' = { k with running := false } := hstep
      exact ⟨⟨h.loaded, h.others⟩, by simp⟩
    | createDirectories path ok =>
      obtain ⟨-, rfl⟩ := hstep
      exact ⟨⟨h.loaded, h.others⟩, by simp⟩
    | save path =>
      obtain ⟨rfl, hfiles⟩ := hstep
      have hpath : Config.savePath { loadedPath := k.loadedPath } [] = Config.savePath { loadedPath := loadedPath } [] := by
        rw [h.loaded]
      rw [hpath] at hfiles
      refine ⟨?_, fun path hsave => (Event.save.inj hsave).symm.trans hpath⟩
      rcases hfiles with rfl | ⟨text, rfl⟩
      · exact h
      · exact ⟨h.loaded, fun path hpath => (readFile_writeFile_ne hpath _ _).trans (h.others path hpath)⟩
    | _ =>
      obtain rfl : k' = k := hstep
      exact ⟨h, by simp⟩
  · exact ⟨⟨h.loaded, h.others⟩, by simp⟩

/-- every file that is saved is the one that was loaded -/
def SavesOne (E : Env) (log : List (Event × St)) : Prop :=
  ∀ p ∈ log, ∀ path, p.1 = .save path → path = (loaded E).savePath [] ∧ Written E.files (loaded E).loadedPath p.2.kept

theorem savesOne_of_setup {E : Env} {l : List (Event × St)} (hl : ∀ p ∈ l, p.1.setup) : SavesOne E l := by
  intro p hp path hsave
  have hsetup := hl p hp
  rw [hsave] at hsetup
  cases hsetup

theorem savesOne_of_trail {E : Env} {s u : St} {l : List (Event × St)} (hs : Written E.files (loaded E).loadedPath s.kept)
    (h : Trail St.kept (Kept.runStep E) s.kept l u) : SavesOne E l := by
  intro p hp path hsave
  obtain ⟨hwritten, hpath⟩ := h.forall_moment (fun _ _ _ hk hstep => written_step hk hstep) hs p hp
  exact ⟨hpath path hsave, hwritten⟩

/-- **What a run saves** goes to one file. -/
theorem history_savesOne (E : Env) (n : ℕ) : SavesOne E (history E n) := by
  have hmain : Sat (Miqudm.main E n) (boot E) (fun l _ _ => SavesOne E l) (fun l _ _ => SavesOne E l) := by
    apply (sat_bind _ _).2
    apply Sat.mono (Sat.and (Sat.and (init_setup E (boot E)) (init_scanning E (boot E))) (init_watched E))
    · intro l ok s ⟨⟨hsetup, hcalm⟩, hconfig⟩
      have hl : SavesOne E l := savesOne_of_setup fun p hp => (hsetup.1 p hp).1
      have hstart : Written E.files (loaded E).loadedPath s.kept := by
        have hfiles : E.files = s.files := same_of_erased (p := St.files) hcalm.2 fun _ => rfl
        exact ⟨hconfig.2.loadedPath, fun path _ => by rw [hfiles]; rfl⟩
      have hrun : ∀ l' u, Trail St.kept (Kept.runStep E) s.kept l' u → SavesOne E (l ++ l') := fun l' u htrail =>
        List.forall_mem_append.2 ⟨hl, savesOne_of_trail hstart htrail⟩
      apply (sat_ite _ _ _).2
      constructor
      · exact fun _ => Sat.mono (run_follows E n s) (fun l' _ u => hrun l' u) fun l' _ u => hrun l' u
      · exact fun _ => by simpa using hl
    · exact fun l _ _ h => savesOne_of_setup fun p hp => (h.1.1.1 p hp).1
  exact hmain.log

theorem readFirst_eq {files : Files} {paths : List Str} {path : Str} (h : firstFile files paths = some path) :
    readFirst files paths = readFrom files path := by
  rw [readFirst, h]

/-- a search that finds one thing finds it again when nothing else has changed -/
theorem find_again {α : Type} {p q : α → Bool} {a : α} {l : List α} (h : l.find? p = some a) (ha : q a = true)
    (hsame : ∀ b ∈ l, b ≠ a → q b = p b) : l.find? q = some a := by
  induction l with
  | nil => cases h
  | cons b l ih =>
    by_cases hb : b = a
    · rw [hb, List.find?_cons_of_pos ha]
    · cases hp : p b with
      | true =>
        rw [List.find?_cons_of_pos hp] at h
        exact absurd (Option.some.inj h) hb
      | false =>
        have hq : q b = false := (hsame b (List.mem_cons_self ..) hb).trans hp
        rw [List.find?_cons_of_neg (by simp [hp])] at h
        rw [List.find?_cons_of_neg (by simp [hq])]
        exact ih h fun c hc => hsame c (List.mem_cons_of_mem b hc)

/-- **The file that was saved is found** at the next start. -/
theorem saved_found {files files' : Files} {path : Str} (hpath : path = (readFirst files configPaths).savePath [])
    (hfile : (readFile files' path).isSome) (hothers : ∀ path', path' ≠ path → readFile files' path' = readFile files path') :
    firstFile files' configPaths = some path := by
  cases hfirst : firstFile files configPaths with
  | none =>
    -- nothing existed at first: the first of the standard places
    have hhead : path = lit "/etc/miqudm/miqudm.conf" := by
      rw [hpath, readFirst, hfirst]
      rfl
    rw [hhead] at hfile ⊢
    exact List.find?_cons_of_pos (p := fun path => (readFile files' path).isSome) hfile
  | some path₀ =>
    have hne : path₀ ≠ [] := ne_nil_of_mem (List.mem_of_find?_eq_some hfirst)
    have hsame : path = path₀ := by
      rw [hpath, readFirst_eq hfirst, Config.savePath, readFrom_path]
      simp [hne]
    rw [← hsame] at hfirst
    exact find_again hfirst hfile fun b _ hb => congrArg Option.isSome (hothers b hb)

/-! ## The configuration in force -/

/-- the daemon that is started with `argv` runs with the configuration that its paths ask for, and what a login saves is
what the next start with `argv` runs with -/
structure InForce (E : Env) (argv paths : List Str) : Prop where
  runs : ∀ n, RunsAs (asked E.files paths) (CommandLine.main E argv n (boot E)).log
  persists : ∀ n path u, (.save path, u) ∈ (CommandLine.main E argv n (boot E)).log → (readFile u.files path).isSome →
    ∀ E', E'.files = u.files → Readable E' paths →
      ∀ n', RunsAs (readFrom u.files path) (CommandLine.main E' argv n' (boot E')).log

theorem log_main {argv paths : List Str} (hreads : Reads argv paths) (E : Env) (n : ℕ) :
    (CommandLine.main E argv n (boot E)).log = history E n := by
  rw [main_of_reads hreads]
  rfl

/-- with the files of a save, the next start reads the file that was written -/
theorem restart {E E' : Env} {paths : List Str} {n : ℕ} {path : Str} {u : St} (hfiles : Readable E paths)
    (hsave : (.save path, u) ∈ history E n) (hfile : (readFile u.files path).isSome) (hnext : E'.files = u.files)
    (hfiles' : Readable E' paths) : loaded E' = readFrom u.files path := by
  obtain ⟨hpath, hwritten⟩ := history_savesOne E n _ hsave path rfl
  rw [loaded_eq hfiles] at hpath
  have hothers : ∀ path', path' ≠ path → readFile u.files path' = readFile E.files path' := by
    intro path' hne
    apply hwritten.others path'
    intro heq
    apply hne
    rw [heq, hpath, ← loaded_eq hfiles]
    rfl
  calc loaded E' = readFirst E'.files configPaths := loaded_eq hfiles'
    _ = readFirst u.files configPaths := by rw [hnext]
    _ = readFrom u.files path := readFirst_eq (saved_found hpath hfile hothers)

/-- the log shows the moment after the configuration was loaded -/
def Loads (E : Env) (log : List (Event × St)) : Prop :=
  ∃ (pre post : List (Event × St)) (s : St), log = pre ++ (.assign, s) :: post ∧ requests (events pre) = [] ∧
    s.config = loaded E

theorem Loads.append {E : Env} {l : List (Event × St)} (h : Loads E l) (l' : List (Event × St)) : Loads E (l ++ l') := by
  obtain ⟨pre, post, s, rfl, hpre, hs⟩ := h
  exact ⟨pre, post ++ l', s, by simp, hpre, hs⟩

theorem history_loads {E : Env} {paths : List Str} (hfiles : Readable E paths) (n : ℕ) : Loads E (history E n) := by
  have hload : Sat (loadConfig E) (boot E) (fun l _ _ => Loads E l) (fun l _ _ => Loads E l) := by
    refine (sat_bind _ _).2 (sat_get.2 ((sat_ite _ _ _).2 ⟨fun hthrows => ?_, fun _ => ?_⟩))
    · exact absurd (hfiles.found.symm.trans hthrows) Bool.false_ne_true
    simp only [op, interfere, sat_bind, sat_get, sat_ite, sat_act, sat_pure]
    exact ⟨fun _ => ⟨[(.stop, _)], [], _, rfl, rfl, rfl⟩, fun _ => ⟨[], [], _, rfl, rfl, rfl⟩⟩
  have rest : ∀ {α β : Type} {x : Sys α} {f : α → Sys β} {s : St},
      Sat x s (fun l _ _ => Loads E l) (fun l _ _ => Loads E l) →
      Sat (x >>= f) s (fun l _ _ => Loads E l) (fun l _ _ => Loads E l) := by
    intro α β x f s hx
    apply (sat_bind x f).2
    apply Sat.mono hx
    · exact fun l a t hl => Sat.mono (sat_run (f a) t) (fun l' _ _ _ => hl.append l') fun l' _ _ _ => hl.append l'
    · exact fun _ _ _ hl => hl
  exact (rest (rest hload)).log

/-- a file that is asked for first, and in force, is the first of the standard ones -/
theorem first_of_runs {E : Env} {paths : List Str} {n : ℕ} (hfiles : Readable E paths)
    (hruns : RunsAs (asked E.files paths) (history E n)) {path : Str} (hlast : paths.getLast? = some path)
    (hexists : (readFile E.files path).isSome) : firstFile E.files configPaths = some path := by
  obtain ⟨pre, post, s, hsplit, hpre, hs⟩ := history_loads hfiles n
  have hasked : firstFile E.files (candidates paths) = some path := by
    rw [candidates, hlast]
    exact List.find?_cons_of_pos (p := fun path => (readFile E.files path).isSome) hexists
  have hpath : (readFirst E.files configPaths).loadedPath = path := by
    calc (readFirst E.files configPaths).loadedPath = s.config.loadedPath := by rw [hs, loaded_eq hfiles]
      _ = (asked E.files paths).loadedPath := (hruns pre post .assign s hsplit (by simp)).loadedPath
      _ = path := by rw [asked, readFirst_eq hasked, readFrom_path]
  cases hfirst : firstFile E.files configPaths with
  | none =>
    -- the file would have no name
    rw [readFirst, hfirst] at hpath
    obtain rfl : [] = path := hpath
    rw [hfiles.unnamed] at hexists
    cases hexists
  | some path' =>
    rw [readFirst_eq hfirst, readFrom_path] at hpath
    rw [hpath]

/-- the options that make no difference -/
theorem asked_eq {files : Files} {paths : List Str} (h : ∀ path, paths.getLast? = some path →
    (readFile files path).isSome → firstFile files configPaths = some path) :
    asked files paths = readFirst files configPaths := by
  have hfirst : firstFile files (candidates paths) = firstFile files configPaths := by
    cases hlast : paths.getLast? with
    | none => rw [candidates, hlast, Option.toList_none, List.nil_append]
    | some path =>
      rw [candidates, hlast, Option.toList_some, List.singleton_append]
      by_cases hexists : (readFile files path).isSome
      · rw [h path hlast hexists]
        exact List.find?_cons_of_pos (p := fun path => (readFile files path).isSome) hexists
      · exact List.find?_cons_of_neg (p := fun path => (readFile files path).isSome) hexists
  rw [asked, readFirst, readFirst, hfirst]

/-- **When the configuration in force is the one that is asked for.** Let a command line start the daemon, and let
whatever exists of the configuration files be readable. The daemon runs with the configuration that is asked for, and a
saved one is found again at the next start, exactly if the path of the last option names no file, or names the first of
the standard ones. -/
theorem in_force_iff (E : Env) {argv paths : List Str} (hreads : Reads argv paths) (hfiles : Readable E paths) :
    InForce E argv paths ↔ ∀ path, paths.getLast? = some path → (readFile E.files path).isSome →
      firstFile E.files configPaths = some path := by
  constructor
  · intro h path hlast hexists
    have hruns := h.runs 0
    rw [log_main hreads] at hruns
    exact first_of_runs hfiles hruns hlast hexists
  · intro h
    constructor
    · intro n
      rw [log_main hreads, asked_eq h, ← loaded_eq hfiles]
      exact history_runsAs E n
    · intro n path u hsave hfile E' hnext hfiles' n'
      rw [log_main hreads] at hsave
      rw [log_main hreads, ← restart hfiles hsave hfile hnext hfiles']
      exact history_runsAs E' n'

/-! ## Witnesses -/

def standardPath : Str := lit "/etc/miqudm/miqudm.conf"

def customPath : Str := lit "/root/test.conf"

def conf : Str := lit "[General]\ngreeter_command = /usr/bin/greeter-shell\n"

/-- a machine with this one configuration file -/
def configured (path : Str) : Env := { machine [alice] [] (loginOf "alice") with files := [(path, conf)] }

theorem reads_one (path : Str) : Reads [lit "-c", path] [path] := .config (Or.inl rfl) .done

theorem readable_one {path : Str} (hpath : path ≠ []) : Readable (configured path) [path] where
  unnamed := by simp [configured, readFile, beq_false_of_ne (Ne.symm hpath)]
  files path' _ := ⟨by simp [configured, machine], fun _ => rfl⟩
  told _ _ _ := rfl

/-- the option names the standard file -/
theorem in_force_standard : InForce (configured standardPath) [lit "-c", standardPath] [standardPath] ∧
    (asked (configured standardPath).files [standardPath]).general.greeterCommand = lit "/usr/bin/greeter-shell" := by
  refine ⟨(in_force_iff (configured standardPath) (reads_one standardPath) (readable_one (by decide))).2 ?_, by decide +kernel⟩
  intro path hlast _
  obtain rfl : standardPath = path := Option.some.inj hlast
  decide +kernel

/-- the option names a file of its own, and the daemon runs with the defaults -/
theorem custom_ignored : Reads [lit "-c", customPath] [customPath] ∧ Readable (configured customPath) [customPath] ∧
    (asked (configured customPath).files [customPath]).general.greeterCommand = lit "/usr/bin/greeter-shell" ∧
    ¬ InForce (configured customPath) [lit "-c", customPath] [customPath] ∧
    RunsAs {} (CommandLine.main (configured customPath) [lit "-c", customPath] 0 (boot (configured customPath))).log := by
  have hreads : Reads [lit "-c", customPath] [customPath] := reads_one customPath
  have hfiles : Readable (configured customPath) [customPath] := readable_one (by decide)
  refine ⟨hreads, hfiles, by decide +kernel, ?_, ?_⟩
  · intro h
    have hruns := h.runs 0
    rw [log_main hreads] at hruns
    have hfirst := first_of_runs hfiles hruns rfl (by decide +kernel)
    revert hfirst
    decide +kernel
  · have hloaded : loaded (configured customPath) = {} := by decide +kernel
    rw [log_main hreads, ← hloaded]
    exact history_runsAs (configured customPath) 0

end Miqudm.ConfigInForce
