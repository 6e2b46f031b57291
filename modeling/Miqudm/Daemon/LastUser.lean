/-
What a login writes into the configuration file.

`handle_login_request` saves the configuration once, with the user name of the request as the last user
(`handleLoginRequest_saves`). A daemon that starts with the written file reads every other field as it was, and the user
name without the blanks around it, as long as the name is one line; it is the configuration of the daemon that wrote the
file exactly when the name is one line without blanks around it (`last_user`). The name is written as it comes, so a
newline in it starts a line of its own.
-/
import Miqudm.Common.ConfigText
import Miqudm.Daemon.Moves

namespace Miqudm

open Miqudm.Core Prog

/-! ## The one file a login writes -/

/-- a file that was found and read is the one that is saved to -/
theorem load_path {c c' : Config} {files : Files} {pathExists : Str → Bool} {customPath : Str}
    (h : c.load files pathExists customPath = (true, c')) : c'.loadedPath ≠ [] ∧ c'.savePath [] = c'.loadedPath := by
  simp only [Config.load] at h
  split_ifs at h with hpath
  · cases h
  · split at h
    · cases h
    · cases h
      have hloaded := loadText_path { c with loadedPath := Config.findConfigFile pathExists customPath }
      simp [Config.savePath, hloaded, hpath]

/-- a file written on behalf of `req` holds the configuration `c` with its user name -/
def Saves (c : Config) (req : IpcMessage) (e : Event) (u : St) : Prop :=
  ∀ path, e = .save path → path = c.savePath [] ∧
    readFile u.files path = some ({ c with general.lastUser := req.username } : Config).saveText

section Saves

variable {E : Env} {c : Config} {req : IpcMessage} {s : St}

theorem saves_of_mild {e : Event} {u : St} (h : e.mild) : Saves c req e u := by
  rintro path rfl
  cases h

/-- a part that writes no file, with what is known of where it leads -/
theorem mild_saves {α : Type} {x : Sys α} (h : Follows St.kept (Kept.mildStep E) x) {r : α → St → Prop}
    (hr : Sat x s (fun _ a t => r a t) (fun _ _ _ => True)) : Safe (Saves c req) x s r :=
  Watched.mono (Watched.and_sat (h.safe (fun _ _ _ hstep => saves_of_mild hstep.2) s) hr) fun _ _ _ h => h.2

theorem mild_saves_any {α : Type} {x : Sys α} (h : Follows St.kept (Kept.mildStep E) x) :
    Safe (Saves c req) x s (fun _ _ => True) := h.safe (fun _ _ _ hstep => saves_of_mild hstep.2) s

/-- a calm part that leaves the configuration alone -/
theorem calm_saves {α : Type} {x : Sys α} {g : St → St} (h : Follows St.kept (Kept.mildStep E) x)
    (hcalm : Within (calmly g) x) (hg : ∀ s, (g s).config = s.config) (hc : s.config = c) :
    Safe (Saves c req) x s (fun _ t => t.config = c) :=
  mild_saves h (Sat.mono (hcalm s) (fun _ _ _ hl => (same_of_erased hl.2 hg) ▸ hc) fun _ _ _ _ => trivial)

variable (E)

theorem rememberLastUser_saves (hopen : ∀ n, E.openFile n = true) (hroom : ∀ n, E.room n = none) (hc : s.config = c) :
    Safe (Saves c req) (rememberLastUser E req) s (fun _ _ => True) := by
  apply safe_bind
  apply safe_get
  apply safe_ite
  · intro _
    apply safe_bind
    apply safe_op
    · exact saves_of_mild rfl
    intro b
    refine ⟨saves_of_mild rfl, safe_bind (safe_get ?_)⟩
    apply safe_op
    · exact saves_of_mild rfl
    intro b'
    refine ⟨?_, trivial⟩
    intro path hpath
    cases hpath
    refine ⟨by rw [← hc]; rfl, ?_⟩
    simp only [Config.save, hopen, hroom, if_true]
    rw [← hc]
    exact readFile_writeFile _ _ _
  · exact fun _ => safe_pure trivial

/-- **The one file a login writes.** -/
theorem handleLoginRequest_saves (hopen : ∀ n, E.openFile n = true) (hroom : ∀ n, E.room n = none)
    (hc : s.config = c) : Safe (Saves c req) (handleLoginRequest E req) s (fun _ _ => True) := by
  rw [handleLoginRequest_eq]
  apply Safe.seq (calm_saves (attempt_mild E req) (attempt_calm E req) (fun _ => rfl) hc)
  rintro ⟨failure, pam⟩ t ht
  cases failure with
  | some message =>
    exact mild_saves_any (follows_bind (reply_mild E _) fun _ => follows_bind (onPam_mild E _) fun _ => follows_pure _)
  | none =>
    apply safe_bind
    have hreply := Sat.mono (reply_spec (E := E) { type := .response, success := true, message := lit "Login successful" } t)
      (fun _ _ u hl => (same_of_erased (p := St.config) hl.2.2 fun _ => rfl).symm.trans ht) fun _ _ _ h => h
    apply Safe.mono (mild_saves (reply_mild E _) hreply)
    intro _ u hu
    -- the greeter is stopped, the file is written, and the session runs
    have hstop : Within (calmly apartGreeter) (releaseGreeter E) := releaseGreeter_calm E
    apply safe_bind
    apply safe_bind
    apply safe_op
    · exact saves_of_mild rfl
    intro b
    have hu' : ((u.setRunning b).tick (u.now + 1)).config = c := hu
    refine ⟨saves_of_mild rfl, ?_⟩
    apply Safe.mono (calm_saves (releaseGreeter_mild E) hstop (fun _ => rfl) hu')
    intro _ v hv
    apply safe_bind
    apply safe_get
    apply Safe.seq (rememberLastUser_saves E hopen hroom hv)
    intro _ w _
    -- nothing else is written
    let T : Kept → Event → Kept → Prop := fun _ e _ => ∀ path, e ≠ .save path
    have mild : ∀ {α : Type} {x : Sys α}, Follows St.kept (Kept.mildStep E) x → Follows St.kept T x := by
      intro α x h
      apply h.mono
      rintro _ e _ hstep path rfl
      cases hstep.2
    have hread : Follows St.kept T (readRunning E) :=
      follows_bind (op_follows E (fun _ _ h => by cases h) fun _ _ h => by cases h) fun _ =>
        follows_get_bind fun _ => follows_pure _
    refine Follows.safe (v := St.kept) (T := T) ?_ (fun _ _ _ hstep path hpath => absurd hpath (hstep path)) w
    refine follows_bind (mild (setActivePam_mild E pam)) fun _ => follows_bind (mild (onPam_mild E _)) fun pamEnvs => ?_
    apply follows_bind (mild (launch_mild E _ _ _ _))
    intro launched
    refine follows_bind (mild (follows_when (follows_bind (waitForExit_mild E) fun _ => follows_pure _))) fun _ => ?_
    refine follows_bind (mild (releaseActivePam_mild E)) fun _ => follows_bind hread fun running => ?_
    exact follows_ite (mild (startGreeter_mild E)) (follows_pure _)

end Saves

namespace LastUser

/-- what a daemon that starts with these files reads -/
def reloaded (files : Files) (pathExists : Str → Bool) (customPath : Str) : Config :=
  (({} : Config).load files pathExists customPath).2

/-- **Remembering the last user.** Let a login save the configuration `c` that was loaded. A fresh daemon that finds the
written file has `c` with the user name of the request as the last user exactly when that name is one line without blanks
around it; as long as it is one line, only the blanks around it are lost. -/
theorem last_user (E : Env) (hopen : ∀ n, E.openFile n = true) (hroom : ∀ n, E.room n = none) (c₀ c : Config)
    (files : Files) (pathExists : Str → Bool) (customPath : Str) (hloaded : c₀.Loaded)
    (hload : c₀.load files pathExists customPath = (true, c)) (s : St) (hs : s.config = c) (req : IpcMessage)
    (path : Str) (u : St) (hsave : (.save path, u) ∈ (handleLoginRequest E req s).log) (pathExists' : Str → Bool)
    (customPath' : Str) (hfind : Config.findConfigFile pathExists' customPath' = path) :
    (reloaded u.files pathExists' customPath' = { c with general.lastUser := req.username } ↔ Clean req.username) ∧
      ('\n' ∉ req.username →
        reloaded u.files pathExists' customPath' = { c with general.lastUser := trim req.username }) := by
  have hclean : c.Clean := by
    have hc := (Config.Loaded.load files pathExists customPath hloaded).clean
    rwa [hload] at hc
  obtain ⟨hne, hpath⟩ := load_path hload
  have hsaves : Safe (Saves c req) (handleLoginRequest E req) s (fun _ _ => True) :=
    handleLoginRequest_saves E hopen hroom hs
  obtain ⟨hsaved, hfile⟩ := Safe.log hsaves _ hsave path rfl
  have hread : reloaded u.files pathExists' customPath' =
      ({ loadedPath := path } : Config).loadText ({ c with general.lastUser := req.username } : Config).saveText := by
    rw [reloaded, Config.load, hfind, if_neg (hsaved.trans hpath ▸ hne), hfile]
  have hline : '\n' ∉ req.username →
      reloaded u.files pathExists' customPath' = { c with general.lastUser := trim req.username } := by
    intro hline
    rw [hread, loadText_saveText hclean hline, hsaved.trans hpath]
  refine ⟨⟨fun h => ?_, fun h => ?_⟩, hline⟩
  · -- what is read is clean
    have hlast := (load_clean clean_fresh u.files pathExists' customPath').lastUser
    rw [reloaded] at h
    rw [h] at hlast
    exact hlast
  · rw [hline h.1, h.2]

/-! ## Witnesses -/

def confPath : Str := lit "/etc/miqudm/miqudm.conf"

def conf : Str := lit "[General]\nvt = 2\ngreeter_command = /usr/bin/greeter-shell\n"

def found (path : Str) : Bool := path = confPath

/-- the configuration of a daemon that starts with this file -/
def configured : Config := reloaded [(confPath, conf)] found []

def waiting (req : IpcMessage) : Env := machine [alice] [] req

def started (req : IpcMessage) : St := { boot (waiting req) with config := configured, files := [(confPath, conf)] }

/-- the moments at which a login writes the file -/
def saved (req : IpcMessage) : List (Event × St) :=
  (handleLoginRequest (waiting req) req (started req)).log.filter fun p => p.1 = .save confPath

/-- alice is remembered, and everything else is as it was -/
theorem last_user_alice : ∃ p ∈ saved (loginOf "alice"),
    reloaded p.2.files found [] = { configured with general.lastUser := lit "alice" } := by
  have hsome : (saved (loginOf "alice")).isEmpty = false := by decide +kernel
  obtain ⟨p, hp⟩ := List.exists_mem_of_ne_nil (saved (loginOf "alice")) (by simpa using hsome)
  obtain ⟨hlog, hevent⟩ := List.mem_filter.1 hp
  have hsave : (.save confPath, p.2) ∈ (handleLoginRequest (waiting (loginOf "alice")) (loginOf "alice")
      (started (loginOf "alice"))).log := by
    have hpair : p = (.save confPath, p.2) := Prod.ext (by simpa using hevent) rfl
    exact hpair ▸ hlog
  refine ⟨p, hp, ?_⟩
  exact (last_user (waiting (loginOf "alice")) (fun _ => rfl) (fun _ => rfl) {} configured [(confPath, conf)] found []
    .fresh (by decide +kernel) (started (loginOf "alice")) rfl (loginOf "alice") confPath p.2 hsave found []
    (by decide)).1.2 (by decide)

/-- alice with lines of her own behind the end of the C string that libpam sees -/
def injected : IpcMessage := loginOf "alice\x00\ngreeter_command=/tmp/x\n[Autologin]"

/-- the file starts another greeter from then on -/
theorem last_user_injected : ∃ p ∈ saved injected,
    (reloaded p.2.files found []).general.greeterCommand = lit "/tmp/x" ∧
      configured.general.greeterCommand = lit "/usr/bin/greeter-shell" := by
  decide +kernel

end LastUser

end Miqudm
