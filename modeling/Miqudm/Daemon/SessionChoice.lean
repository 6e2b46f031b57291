/-
The session that was picked and the one that is launched.

The greeter sends the exec line and the id of the selected entry, and the daemon takes the first entry of its cache that
has this id or name or exec line. `picked_is_launched`: when both hold the same list, with distinct ids, a Login for the
selected entry launches exactly that entry if and only if no earlier entry has its id as name or has its exec line
(`NoEarlierMatch`). `shared_exec_line` is a run in which the second of two sessions with the same exec line is picked
and the first is launched.
-/
import Miqudm.Daemon.Moments
import Miqudm.Greeter.LoginForm
import Mathlib.Data.List.Nodup

namespace Miqudm.SessionChoice

open Miqudm.Core

/-- no entry before the one at `i` is taken for it -/
def NoEarlierMatch (sessions : List SessionInfo) (i : ℕ) (picked : SessionInfo) : Prop :=
  ∀ s ∈ sessions.take i, s.name ≠ picked.id ∧ s.exec ≠ picked.exec

instance (sessions : List SessionInfo) (i : ℕ) (picked : SessionInfo) : Decidable (NoEarlierMatch sessions i picked) :=
  inferInstanceAs (Decidable (∀ s ∈ sessions.take i, s.name ≠ picked.id ∧ s.exec ≠ picked.exec))

theorem split_at_entry {sessions : List SessionInfo} {i : ℕ} {picked : SessionInfo} (h : sessions[i]? = some picked) :
    sessions = sessions.take i ++ picked :: sessions.drop (i + 1) := by
  obtain ⟨hi, rfl⟩ := List.getElem?_eq_some_iff.1 h
  rw [← List.drop_eq_getElem_cons hi, List.take_append_drop]

/-- with distinct ids, no earlier entry has the id of a later one -/
theorem earlier_id_ne {sessions : List SessionInfo} (hids : (sessions.map SessionInfo.id).Nodup) {i : ℕ}
    {picked : SessionInfo} (h : sessions[i]? = some picked) : ∀ s ∈ sessions.take i, s.id ≠ picked.id := by
  rw [split_at_entry h, List.map_append, List.map_cons, List.nodup_append] at hids
  intro s hs
  exact hids.2.2 s.id (List.mem_map_of_mem hs) picked.id (by simp)

/-- the daemon's lookup for the request of an entry finds that entry iff no earlier one matches -/
theorem findSession_eq_iff {sessions : List SessionInfo} (hids : (sessions.map SessionInfo.id).Nodup) {i : ℕ}
    {picked : SessionInfo} (h : sessions[i]? = some picked) {req : IpcMessage} (hexec : req.sessionExec = picked.exec)
    (hid : req.desktopName = picked.id) :
    findSession sessions req = picked ↔ NoEarlierMatch sessions i picked := by
  set matches_ : SessionInfo → Bool := fun si =>
    si.id = req.desktopName ∨ si.name = req.desktopName ∨ si.exec = req.sessionExec with hmatches
  have hpicked : matches_ picked = true := by simp [hmatches, hid]
  -- the search: what comes first among the earlier entries, else the entry itself
  have hfind : sessions.find? matches_ = ((sessions.take i).find? matches_).or (some picked) := by
    conv_lhs => rw [split_at_entry h]
    rw [List.find?_append, List.find?_cons, hpicked]
  have hnone : (sessions.take i).find? matches_ = none ↔ NoEarlierMatch sessions i picked := by
    rw [List.find?_eq_none]
    apply forall₂_congr
    intro s hs
    have hne := earlier_id_ne hids h s hs
    simp [hmatches, hid, hexec, hne]
  cases hfirst : (sessions.take i).find? matches_ with
  | none =>
    have hfound : findSession sessions req = picked := by
      simp only [findSession, ← hmatches, hfind, hfirst, Option.none_or]
    exact ⟨fun _ => hnone.1 hfirst, fun _ => hfound⟩
  | some s =>
    have hfound : findSession sessions req = s := by
      simp only [findSession, ← hmatches, hfind, hfirst, Option.some_or]
    have hne : s ≠ picked := fun he => earlier_id_ne hids h s (List.mem_of_find?_eq_some hfirst) (by rw [he])
    constructor
    · intro heq
      exact absurd (hfound.symm.trans heq) hne
    · intro hno
      rw [hnone.2 hno] at hfirst
      cases hfirst

/-- the request of the greeter names the entry at its selection -/
theorem request_entry {app : GreeterApp} {req : IpcMessage} (h : app.request = some req) :
    ∃ (i : ℕ) (picked : SessionInfo), app.selectedSessionIdx = i ∧ app.sessions[i]? = some picked ∧
      req.sessionExec = picked.exec ∧ req.desktopName = picked.id := by
  obtain ⟨-, user, picked, -, hpicked, rfl⟩ := GreeterApp.request_spec h
  rw [GreeterApp.selectedSession] at hpicked
  split_ifs at hpicked with hneg
  exact ⟨app.selectedSessionIdx.toNat, picked, by omega, hpicked, rfl, rfl⟩

/-- **The picked session, exactly when no earlier one matches.** In every run, at every launch for a Login that carries
the session fields of the greeter's request, while the daemon caches the list the greeter shows. -/
theorem picked_is_launched (E : Env) (n : ℕ) (app : GreeterApp) (hids : (app.sessions.map SessionInfo.id).Nodup)
    (req : IpcMessage) (hreq : app.request = some req) :
    ∃ (i : ℕ) (picked : SessionInfo), app.selectedSessionIdx = i ∧ app.sessions[i]? = some picked ∧
      ∀ p ∈ history E n, ∀ user session f, p.1 = .launch user session → p.2.frame = some f →
        f.req.sessionExec = req.sessionExec → f.req.desktopName = req.desktopName →
        p.2.cachedSessions = app.sessions →
        (session = picked ↔ NoEarlierMatch app.sessions i picked) := by
  obtain ⟨i, picked, hi, hpicked, hexec, hid⟩ := request_entry hreq
  refine ⟨i, picked, hi, hpicked, ?_⟩
  rintro ⟨e, s⟩ hp user session f hlaunch hframe hfexec hfid hcached
  have hmoment : Moment E e s := history_moments E n _ hp
  have hlaunch : e = .launch user session := hlaunch
  subst hlaunch
  obtain ⟨g, hg, -, -, hsession⟩ := hmoment
  obtain rfl : f = g := Option.some_inj.1 (hframe.symm.trans hg)
  rw [hsession, show s.cachedSessions = app.sessions from hcached]
  exact findSession_eq_iff hids hpicked (hfexec.trans hexec) (hfid.trans hid)

/-! ## Witnesses -/

def desktopFile (id exec : String) : DirEntry where
  path := lit ("/usr/share/wayland-sessions/" ++ id ++ ".desktop")
  isRegularFile := some true
  text := some (lit ("[Desktop Entry]\nName=Session " ++ id ++ "\nExec=" ++ exec ++ "\n"))

/-- a greeter with two sessions, the second one selected and the password typed -/
def demoApp (exec exec' : String) : GreeterApp where
  users := [{ username := lit "alice" }]
  sessions := [desktopFile "a" exec, desktopFile "b" exec'].map fun file => parseDesktopFile file.path file.text true
  selectedSessionIdx := 1
  passwordInput := some (lit "secret")

def demo (exec exec' : String) : Env :=
  machine [greeterAccount, alice] [desktopFile "a" exec, desktopFile "b" exec'] ((demoApp exec exec').request.getD {})

/-- a run of the daemon on the same sessions: what the login for the second one launches -/
theorem demo_launch (exec exec' id : String)
    (h : ((history (demo exec exec') 1).any fun p => match p.1 with
      | .launch _ session => session.id = lit id ∧ p.2.cachedSessions = (demoApp exec exec').sessions ∧
          (p.2.frame.map fun f => (f.req.sessionExec, f.req.desktopName)) = some (lit exec', lit "b")
      | _ => false) = true) :
    ∃ p ∈ history (demo exec exec') 1, ∃ user session f, p.1 = .launch user session ∧ session.id = lit id ∧
      p.2.cachedSessions = (demoApp exec exec').sessions ∧ p.2.frame = some f ∧ f.req.sessionExec = lit exec' ∧
      f.req.desktopName = lit "b" := by
  obtain ⟨p, hp, hlaunch⟩ := List.any_eq_true.1 h
  split at hlaunch
  · case _ user session hp1 =>
    obtain ⟨hid, hcached, hfields⟩ := of_decide_eq_true hlaunch
    obtain ⟨f, hf, hreq⟩ := Option.map_eq_some_iff.1 hfields
    exact ⟨p, hp, user, session, f, hp1, hid, hcached, hf, congrArg Prod.fst hreq, congrArg Prod.snd hreq⟩
  · cases hlaunch

theorem picked_is_launched_demo : ∃ p ∈ history (demo "run-a" "run-b") 1, ∃ user session,
    p.1 = .launch user session ∧ (demoApp "run-a" "run-b").sessions[1]? = some session := by
  obtain ⟨p, hp, user, session, f, hlaunch, -, hcached, hf, hexec, hid⟩ :=
    demo_launch "run-a" "run-b" "b" (by decide +kernel)
  obtain ⟨hids, hreq, hsecond⟩ : ((demoApp "run-a" "run-b").sessions.map SessionInfo.id).Nodup ∧
      (demoApp "run-a" "run-b").request = some (loginRequest (lit "alice") (lit "secret") (lit "run-b") (lit "b")) ∧
      NoEarlierMatch (demoApp "run-a" "run-b").sessions 1 ((demoApp "run-a" "run-b").sessions[1]?.getD {}) := by
    decide +kernel
  obtain ⟨i, picked, hi, hpicked, hiff⟩ := picked_is_launched (demo "run-a" "run-b") 1 (demoApp "run-a" "run-b")
    hids (loginRequest (lit "alice") (lit "secret") (lit "run-b") (lit "b")) hreq
  have hone : (1 : ℤ) = i := hi
  obtain rfl : 1 = i := by omega
  rw [hpicked] at hsecond
  have hsession := (hiff p hp user session f hlaunch hf hexec hid hcached).2 hsecond
  exact ⟨p, hp, user, session, hlaunch, hsession ▸ hpicked⟩

/-- two sessions with one exec line: the second is picked, and the first is launched -/
theorem shared_exec_line : ¬ ∀ E n (app : GreeterApp) i picked req, (app.sessions.map SessionInfo.id).Nodup →
    (app.sessions.map SessionInfo.name).Nodup → app.selectedSessionIdx = (i : ℕ) → app.sessions[i]? = some picked →
    app.request = some req → ∀ p ∈ history E n, ∀ user session f, p.1 = .launch user session → p.2.frame = some f →
      f.req.sessionExec = req.sessionExec → f.req.desktopName = req.desktopName →
      p.2.cachedSessions = app.sessions → session = picked := by
  intro h
  obtain ⟨p, hp, user, session, f, hlaunch, hsession, hcached, hf, hexec, hid⟩ :=
    demo_launch "run" "run" "a" (by decide +kernel)
  obtain ⟨hids, hnames, hsecond, hreq, hne⟩ : ((demoApp "run" "run").sessions.map SessionInfo.id).Nodup ∧
      ((demoApp "run" "run").sessions.map SessionInfo.name).Nodup ∧
      (demoApp "run" "run").sessions[1]? = some ((demoApp "run" "run").sessions[1]?.getD ({} : SessionInfo)) ∧
      (demoApp "run" "run").request = some (loginRequest (lit "alice") (lit "secret") (lit "run") (lit "b")) ∧
      ((demoApp "run" "run").sessions[1]?.getD ({} : SessionInfo)).id ≠ lit "a" := by
    decide +kernel
  have hpicked := h (demo "run" "run") 1 (demoApp "run" "run") 1 _ _ hids hnames rfl hsecond hreq p hp user session f
    hlaunch hf hexec hid hcached
  rw [hpicked] at hsession
  exact hne hsession

end Miqudm.SessionChoice
