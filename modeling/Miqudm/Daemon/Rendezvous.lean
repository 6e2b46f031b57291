/-
Where the daemon listens, and where its greeters look for it.

Both sides compute the path of the socket from whether `/run/miqudm` exists: the daemon once, before it binds, and a
client when it is constructed. In between the daemon makes `/run/miqudm/runtime` whenever it starts a greeter and finds
no account for it, and with that `/run/miqudm`, which stays even if `runtime` cannot be made in it.

`track` follows the directory through a run: it is there exactly if it was there when the run began or was made since on
the way to the shared runtime directory. `meet_iff` puts this together with `init`: a client finds the daemon exactly if
`/run/miqudm` was there from the beginning or is still not there.
-/
import Miqudm.Common.ConfigText
import Miqudm.Daemon.Moves
import Miqudm.Greeter.IpcClient

namespace Miqudm.Rendezvous

open Miqudm.Core Prog

/-! ## The directory -/

def sharedRoot : Str := lit "/run/miqudm"

/-- the directory is among those the daemon has made or met -/
def present (k : Kept) : Bool := sharedRoot ∈ k.dirs || (readFile k.files sharedRoot).isSome

theorem pathExists_root (E : Env) (t : St) :
    t.pathExists E sharedRoot = (present t.kept || E.pathExists t.now sharedRoot) := rfl

theorem prefix_of_mem_ancestors {p q : Str} (h : q ∈ ancestors p) : q <+: p := by
  obtain ⟨k, -, rfl⟩ := List.mem_map.1 h
  exact List.take_prefix k p

/-- the directory of a user is elsewhere -/
theorem notMem_user (name : Str) : sharedRoot ∉ ancestors (lit "/run/user/" ++ name) := by
  intro h
  obtain ⟨t, ht⟩ := prefix_of_mem_ancestors h
  have hroot : (sharedRoot ++ t).take 6 = lit "/run/m" := rfl
  have huser : (lit "/run/user/" ++ name).take 6 = lit "/run/u" := rfl
  rw [ht, huser] at hroot
  exact absurd hroot (by decide)

section Steps

variable {E : Env} {g g' : Kept} {e : Event}

/-- on the way to the shared runtime directory, `/run/miqudm` is made or found -/
def shares : Event → Bool
  | .createDirectories path made => path = sharedRuntimeDir ∧ sharedRoot ∈ made
  | _ => false

/-- what one event of a run does to the directory, and what it leaves alone -/
structure Steady (E : Env) (g : Kept) (e : Event) (g' : Kept) : Prop where
  present : present g' = true ↔ present g = true ∨ shares e
  greeterUser : g'.greeterUser = g.greeterUser
  loadedPath : g'.loadedPath = g.loadedPath
  cause : shares e → ∃ n, NoAccount E g.greeterUser n
  unbound : ∀ path ok, e ≠ .bind path ok

theorem steady_of_eq (h : g' = g) (he : ¬ shares e) (hbind : ∀ path ok, e ≠ .bind path ok) : Steady E g e g' := by
  subst h
  exact ⟨by simp [he], rfl, rfl, fun h => absurd h he, hbind⟩

theorem step_steady (hpath : Config.savePath { loadedPath := g.loadedPath } [] ∈ configPaths)
    (h : Kept.runStep E g e g') : Steady E g e g' := by
  rcases h with h | ⟨rfl, rfl⟩
  · cases e with
    | bind path ok => exact h.elim
    | stop =>
      obtain rfl : g' = { g with running := false } := h
      exact ⟨by simp [shares, Rendezvous.present], rfl, rfl, by simp [shares], by simp⟩
    | createDirectories path made =>
      obtain ⟨⟨hdir, hmade⟩, rfl⟩ := h
      cases hdir with
      | shared hn =>
        refine ⟨?_, rfl, rfl, fun _ => ⟨_, hn⟩, by simp⟩
        simp [shares, Rendezvous.present, or_right_comm]
      | ofUser uid =>
        have hnot : sharedRoot ∉ made := fun hmem => notMem_user _ (hmade.subset hmem)
        refine ⟨?_, rfl, rfl, ?_, by simp⟩ <;>
          simp [shares, Rendezvous.present, hnot]
    | save path =>
      obtain ⟨rfl, rfl | ⟨text, rfl⟩⟩ := h
      · exact steady_of_eq rfl (by simp [shares]) (by simp)
      · refine ⟨?_, rfl, rfl, by simp [shares], by simp⟩
        have hne : sharedRoot ≠ Config.savePath { loadedPath := g.loadedPath } [] := by
          intro heq
          rw [← heq] at hpath
          exact absurd hpath (by decide)
        simp [shares, Rendezvous.present, readFile_writeFile_ne hne]
    | _ => exact steady_of_eq h (by simp [shares]) (by simp)
  · exact ⟨by simp [shares, Rendezvous.present], rfl, rfl, by simp [shares], by simp⟩

/-- the directory at a moment of a run, and how it came to be -/
structure Track (E : Env) (g : Kept) (l : List (Event × St)) (u : St) : Prop where
  present : present u.kept = true ↔ present g = true ∨ ∃ p ∈ l, shares p.1
  greeterUser : u.kept.greeterUser = g.greeterUser
  cause : ∀ p ∈ l, shares p.1 → ∃ n, NoAccount E g.greeterUser n
  unbound : ∀ p ∈ l, ∀ path ok, p.1 ≠ .bind path ok

/-- **The directory through a run.** -/
theorem track {l : List (Event × St)} {t : St} : ∀ {g : Kept}, Trail St.kept (Kept.runStep E) g l t →
    Config.savePath { loadedPath := g.loadedPath } [] ∈ configPaths →
    ∀ {pre e u post}, l = pre ++ (e, u) :: post → Track E g (pre ++ [(e, u)]) u := by
  induction l with
  | nil => simp
  | cons p l ih =>
    intro g htrail hpath pre e u post hl
    have hstep := step_steady hpath htrail.1
    cases pre with
    | nil =>
      obtain ⟨rfl, rfl⟩ : p = (e, u) ∧ l = post := by simpa using hl
      exact ⟨by simpa using hstep.present, hstep.greeterUser, by simpa using hstep.cause, by simpa using hstep.unbound⟩
    | cons q pre =>
      obtain ⟨rfl, rfl⟩ : p = q ∧ l = pre ++ (e, u) :: post := by simpa using hl
      have hrest := ih htrail.2 (by rw [hstep.loadedPath]; exact hpath) rfl
      refine ⟨?_, hrest.greeterUser.trans hstep.greeterUser, ?_, ?_⟩
      · rw [hrest.present, hstep.present, List.cons_append, List.exists_mem_cons_iff, or_assoc]
      · rw [List.cons_append, List.forall_mem_cons]
        exact ⟨hstep.cause, fun r hr hshares => hstep.greeterUser ▸ hrest.cause r hr hshares⟩
      · rw [List.cons_append, List.forall_mem_cons]
        exact ⟨hstep.unbound, hrest.unbound⟩

end Steps

/-! ## The daemon's socket -/

section Init

variable (E : Env)

/-- the path that the daemon finds at the start -/
def startPath : Str := getSocketPath ((boot E).pathExists E)

/-- the events of `init`: the socket is bound at that path, and no greeter is started -/
def Binds (e : Event) : Prop :=
  (∀ path, e = .bind path true → path = startPath E) ∧ ¬ shares e ∧ ∀ r, e ≠ .fork .greeter r

/-- the state `init` leaves -/
structure Bound (s : St) : Prop where
  root : (present s.kept || E.pathExists 0 sharedRoot) = (boot E).pathExists E sharedRoot
  saved : s.config.savePath [] ∈ configPaths

variable {E}

theorem binds_of_plain {e : Event} (hbind : ∀ path ok, e ≠ .bind path ok) (hdir : ¬ shares e)
    (hfork : ∀ what r, e ≠ .fork what r) : Binds E e :=
  ⟨fun path h => absurd h (hbind path true), hdir, hfork _⟩

variable (E)

/-- an operation of `init` other than a bind or the making of a directory -/
theorem init_op {e : Event} (hbind : ∀ path ok, e ≠ .bind path ok) (hdir : ¬ shares e)
    (hfork : ∀ what r, e ≠ .fork what r) {f : St → St} {s : St} {q : Unit → St → Prop}
    (hq : ∀ b, q () ((f (s.setRunning b)).tick (s.now + 1))) : Safe (fun e _ => Binds E e) (op E e f) s q :=
  safe_op E (binds_of_plain (by simp) (by simp [shares]) (by simp)) fun b => ⟨binds_of_plain hbind hdir hfork, hq b⟩

theorem bindAndListen_bound {s : St} (hs : Bound E s) (fd : ℤ) :
    Safe (fun e _ => Binds E e) (bindAndListen E (startPath E) fd) s (fun ok t => ok = true → Bound E t) := by
  have abandons : ∀ {t : St}, Safe (fun e _ => Binds E e) (abandonSocket E fd) t (fun ok u => ok = true → Bound E u) := by
    intro t
    apply safe_bind (init_op E (by simp) (by simp [shares]) (by simp) fun b => ?_)
    apply safe_bind (init_op E (by simp) (by simp [shares]) (by simp) fun b => ?_)
    exact safe_pure (by simp)
  refine safe_bind (safe_get (safe_bind (safe_op E (binds_of_plain (by simp) (by simp [shares]) (by simp)) fun b => ⟨?_, ?_⟩)))
  · refine ⟨?_, by simp [shares], by simp⟩
    intro path h
    exact (Event.bind.inj h).1.symm
  · apply safe_ite (fun _ => abandons)
    intro _
    refine safe_bind (safe_get (safe_bind (init_op E (by simp) (by simp [shares]) (by simp) fun b => ?_)))
    exact safe_ite (fun _ => abandons) fun _ => safe_pure fun _ => ⟨hs.root, hs.saved⟩

/-- the directory of the socket is made, which is there already if it is the shared one -/
theorem root_of_createDirectories {made : List Str} (hmade : made <+: ancestors (parentPath (startPath E))) {k : Kept}
    (hk : (present k || E.pathExists 0 sharedRoot) = (boot E).pathExists E sharedRoot) :
    (present { k with dirs := k.dirs ++ made } || E.pathExists 0 sharedRoot) = (boot E).pathExists E sharedRoot := by
  cases hroot : (boot E).pathExists E sharedRoot with
  | true =>
    rw [hroot, Bool.or_eq_true] at hk
    rw [Bool.or_eq_true]
    apply hk.imp_left
    intro hpresent
    simp only [present, Bool.or_eq_true, decide_eq_true_eq] at hpresent ⊢
    exact hpresent.imp_left fun h => by simp [h]
  | false =>
    have hpath : startPath E = fallbackSocketPath := by
      rw [startPath, getSocketPath, show lit "/run/miqudm" = sharedRoot from rfl, hroot]
      rfl
    have hnot : sharedRoot ∉ made := by
      intro hmem
      have hmem' := hmade.subset hmem
      rw [hpath] at hmem'
      exact absurd hmem' (by decide)
    rw [hroot, Bool.or_eq_false_iff] at hk
    rw [Bool.or_eq_false_iff]
    refine ⟨?_, hk.2⟩
    simp only [present, Bool.or_eq_false_iff, decide_eq_false_iff_not] at hk ⊢
    simpa [hnot] using hk.1

theorem createDirectories_bound {s : St} (hs : Bound E s) :
    Safe (fun e _ => Binds E e) (createDirectories E (parentPath (startPath E))) s (fun _ t => Bound E t) := by
  have hdir : parentPath (startPath E) ≠ sharedRuntimeDir := by
    rw [startPath, getSocketPath]
    split_ifs <;> decide
  refine safe_bind (safe_get (safe_op E (binds_of_plain (by simp) (by simp [shares]) (by simp)) fun b => ⟨?_, ?_⟩))
  · exact binds_of_plain (by simp) (by simp [shares, hdir]) (by simp)
  · exact ⟨root_of_createDirectories E (List.takeWhile_prefix _) hs.root, hs.saved⟩

theorem createSocket_bound {s : St} (hs : Bound E s) :
    Safe (fun e _ => Binds E e) (createSocket E) s (fun _ t => Bound E t) := by
  refine safe_bind (safe_get (safe_bind (init_op E (by simp) (by simp [shares]) (by simp) fun b => safe_pure ?_)))
  cases E.socket s.now with
  | false => exact ⟨hs.root, hs.saved⟩
  | true => exact ⟨hs.root, hs.saved⟩

theorem setupIpcSocket_bound (hext : ∀ n, E.pathExists n sharedRoot = E.pathExists 0 sharedRoot) {s : St}
    (hs : Bound E s) : Safe (fun e _ => Binds E e) (setupIpcSocket E) s (fun ok t => ok = true → Bound E t) := by
  have hpath : getSocketPath (s.pathExists E) = startPath E := by
    have hroot : s.pathExists E sharedRoot = (boot E).pathExists E sharedRoot := by
      rw [pathExists_root, hext, hs.root]
    rw [startPath, getSocketPath, getSocketPath, show lit "/run/miqudm" = sharedRoot from rfl, hroot]
  refine safe_bind (safe_get ?_)
  simp only [hpath]
  refine safe_bind (init_op E (by simp) (by simp [shares]) (by simp) fun b => ?_)
  have hs' : Bound E (({ s.setRunning b with socketPath := startPath E } : St).tick (s.now + 1)) := ⟨hs.root, hs.saved⟩
  apply Safe.seq (createDirectories_bound E hs')
  intro _ t ht
  refine safe_bind (init_op E (by simp) (by simp [shares]) (by simp) fun b => ?_)
  refine Safe.seq (createSocket_bound E ⟨ht.root, ht.saved⟩) fun created u hu => ?_
  exact safe_ite (fun _ => safe_bind (safe_get (bindAndListen_bound E hu _))) fun _ => safe_pure (by simp)

/-- **What `init` leaves.** -/
theorem init_bound (hext : ∀ n, E.pathExists n sharedRoot = E.pathExists 0 sharedRoot) :
    Safe (fun e _ => Binds E e) (init E) (boot E) (fun ok t => ok = true → Bound E t) := by
  refine safe_bind (safe_loadConfig E (init_op E (by simp) (by simp [shares]) (by simp) fun b => ?_))
  refine safe_bind (init_op E (by simp) (by simp [shares]) (by simp) fun b => ?_)
  refine safe_bind (safe_cacheSessions E fun sessions _ => ?_)
  refine init_op E (by simp) (by simp [shares]) (by simp) fun b => ?_
  exact setupIpcSocket_bound E hext ⟨rfl, savePath_load _ _ _⟩

end Init

/-! ## Meeting -/

/-- where a client looks, from the directory -/
theorem client_path (E : Env) (t : St) : (IpcClient.new (t.pathExists E)).socketPath =
    if t.pathExists E sharedRoot then defaultSocketPath else fallbackSocketPath := rfl

/-- a run of the daemon: `init`, and `run` if a socket was bound -/
theorem history_shape (E : Env) (n : ℕ) (hext : ∀ m, E.pathExists m sharedRoot = E.pathExists 0 sharedRoot) :
    (∀ p ∈ history E n, Binds E p.1) ∨ ∃ l l' s u, history E n = l ++ l' ∧ (∀ p ∈ l, Binds E p.1) ∧ Bound E s ∧
      Trail St.kept (Kept.runStep E) s.kept l' u := by
  apply Sat.log (P := fun log => (∀ p ∈ log, Binds E p.1) ∨ ∃ l l' s u, log = l ++ l' ∧ (∀ p ∈ l, Binds E p.1) ∧
    Bound E s ∧ Trail St.kept (Kept.runStep E) s.kept l' u)
  apply (sat_bind _ _).2
  apply Sat.mono (init_bound E hext)
  · intro l ok s ⟨hl, hs⟩
    rw [Monitor.accepts_always] at hl
    apply (sat_ite _ _ _).2
    constructor
    · intro hok
      apply Sat.mono (run_follows E n s)
      · exact fun l' _ u htrail => Or.inr ⟨l, l', s, u, rfl, hl, hs hok, htrail⟩
      · exact fun l' _ u htrail => Or.inr ⟨l, l', s, u, rfl, hl, hs hok, htrail⟩
    · exact fun _ => Or.inl (by simpa using hl)
  · intro l _ _ ⟨hl, _⟩
    exact Or.inl (Monitor.accepts_always.1 hl)

/-- **Where a client meets the daemon.** After a greeter was started, at every moment of every run, a client that is
constructed at this moment looks for the socket where the daemon has bound it exactly if `/run/miqudm` was there at the
start, or has not been made on the way to the shared runtime directory; and it is made so only for a greeter for which no
account was found. -/
theorem meet_iff (E : Env) (n : ℕ) (hext : ∀ m, E.pathExists m sharedRoot = E.pathExists 0 sharedRoot)
    {pre post : List (Event × St)} {e : Event} {t : St} {path : Str} (hsplit : history E n = pre ++ (e, t) :: post)
    (hbound : ∃ p ∈ pre ++ [(e, t)], p.1 = .bind path true)
    (hgreeter : ∃ p ∈ pre ++ [(e, t)], ∃ child, p.1 = .fork .greeter (some child)) :
    ((IpcClient.new (t.pathExists E)).socketPath = path ↔
      (boot E).pathExists E sharedRoot = true ∨ ∀ p ∈ pre ++ [(e, t)], ¬ shares p.1) ∧
    ∀ p ∈ pre ++ [(e, t)], shares p.1 → ∃ m, NoAccount E t.config.general.greeterUser m := by
  rcases history_shape E n hext with hnone | ⟨l, l', s, u, hlog, hbinds, hs, htrail⟩
  · obtain ⟨p, hp, child, hchild⟩ := hgreeter
    have hp : p ∈ history E n := by
      rw [hsplit, List.append_cons]
      exact List.mem_append_left _ hp
    exact absurd hchild ((hnone p hp).2.2 _)
  -- the moment is in `run`, after `init` has bound the socket
  have hinit : ∀ q ∈ l, ¬ ∃ child, q.1 = .fork .greeter (some child) := fun q hq ⟨child, h⟩ => (hbinds q hq).2.2 _ h
  obtain ⟨a, rfl, rfl⟩ := split_second (hlog.symm.trans hsplit) hinit hgreeter
  have htrack := track htrail hs.saved rfl
  have hunshared : ∀ q ∈ l, ¬ shares q.1 := fun q hq => (hbinds q hq).2.1
  have hroot : t.pathExists E sharedRoot = true ↔
      (boot E).pathExists E sharedRoot = true ∨ ∃ p ∈ a ++ [(e, t)], shares p.1 := by
    rw [pathExists_root, hext, ← hs.root, Bool.or_eq_true, Bool.or_eq_true, htrack.present, or_right_comm]
  have hpath : path = startPath E := by
    obtain ⟨p, hp, hbind⟩ := hbound
    rw [List.append_assoc] at hp
    rcases List.mem_append.1 hp with hp | hp
    · exact (hbinds p hp).1 path hbind
    · exact absurd hbind (htrack.unbound p hp path true)
  have hshares : (∀ p ∈ (l ++ a) ++ [(e, t)], ¬ shares p.1) ↔ ¬ ∃ p ∈ a ++ [(e, t)], shares p.1 := by
    rw [List.append_assoc, List.forall_mem_append]
    simp only [not_exists, not_and]
    exact and_iff_right hunshared
  constructor
  · rw [client_path, hpath, startPath, getSocketPath, show lit "/run/miqudm" = sharedRoot from rfl, hshares]
    have hne : defaultSocketPath ≠ fallbackSocketPath := by decide
    by_cases hthere : (boot E).pathExists E sharedRoot = true
    · simp [hroot.2 (Or.inl hthere), hthere]
    · by_cases hmade : ∃ p ∈ a ++ [(e, t)], shares p.1
      · rw [if_pos (hroot.2 (Or.inr hmade)), if_neg hthere]
        exact ⟨fun h => absurd h hne, fun h => h.elim (fun h => absurd h hthere) fun h => absurd hmade h⟩
      · have hnot : ¬ t.pathExists E sharedRoot = true := fun h => (hroot.1 h).elim hthere hmade
        rw [if_neg hnot, if_neg hthere]
        exact ⟨fun _ => Or.inr hmade, fun _ => rfl⟩
  · intro p hp hp'
    rw [List.append_assoc] at hp
    rcases List.mem_append.1 hp with hp | hp
    · exact absurd hp' (hunshared p hp)
    · obtain ⟨m, hm⟩ := htrack.cause p hp hp'
      have hsame : t.config.general.greeterUser = s.kept.greeterUser := htrack.greeterUser
      rw [hsame]
      exact ⟨m, hm⟩

/-! ## Witnesses -/

/-- a machine without `/run/miqudm`, where the greeter has an account or not -/
def demo (users : List Passwd) : Env := machine users [] {}

/-- what the moment after the first greeter was started needs: the split, the bind, the fork, and where a client looks -/
theorem demo_split {users : List Passwd} {path : Str}
    (hpath : ((history (demo users) 0).getLast?.map fun p => (IpcClient.new (p.2.pathExists (demo users))).socketPath) =
      some path)
    (hbind : ((history (demo users) 0).any fun p => p.1 = .bind fallbackSocketPath true) = true)
    (hfork : ((history (demo users) 0).any fun p => match p.1 with
      | .fork .greeter (some _) => true
      | _ => false) = true) :
    ∃ pre e t, history (demo users) 0 = pre ++ [(e, t)] ∧
      (IpcClient.new (t.pathExists (demo users))).socketPath = path ∧
      (∃ p ∈ pre ++ [(e, t)], p.1 = .bind fallbackSocketPath true) ∧
      ∃ p ∈ pre ++ [(e, t)], ∃ child, p.1 = .fork .greeter (some child) := by
  rcases List.eq_nil_or_concat (history (demo users) 0) with hnil | ⟨pre, ⟨e, t⟩, hsplit⟩
  · rw [hnil] at hbind
    cases hbind
  · rw [List.concat_eq_append] at hsplit
    rw [hsplit] at hpath hbind hfork
    obtain ⟨p, hp, hbound⟩ := List.any_eq_true.1 hbind
    obtain ⟨q, hq, hchild⟩ := List.any_eq_true.1 hfork
    refine ⟨pre, e, t, hsplit, by simpa using hpath, ⟨p, hp, of_decide_eq_true hbound⟩, q, hq, ?_⟩
    split at hchild
    · exact ⟨_, by assumption⟩
    · cases hchild

/-- with an account for the greeter, they meet -/
theorem meet_iff_demo : ∃ pre e t, history (demo [greeterAccount]) 0 = pre ++ [(e, t)] ∧
    (IpcClient.new (t.pathExists (demo [greeterAccount]))).socketPath = fallbackSocketPath := by
  obtain ⟨pre, e, t, hsplit, -, hbound, hgreeter⟩ :=
    @demo_split [greeterAccount] fallbackSocketPath (by decide +kernel) (by decide +kernel) (by decide +kernel)
  have hmeet := (meet_iff (demo [greeterAccount]) 0 (fun _ => rfl) hsplit hbound hgreeter).1
  have hunshared : ((history (demo [greeterAccount]) 0).all fun p =>
      decide (¬ shares p.1)) = true := by decide +kernel
  rw [hsplit] at hunshared
  exact ⟨pre, e, t, hsplit, hmeet.2 (Or.inr fun p hp => of_decide_eq_true (List.all_eq_true.1 hunshared p hp))⟩

/-- without one, the client looks in the directory that was made for the greeter -/
theorem apart_without_account : ¬ ∀ (E : Env) (n : ℕ), (∀ m, E.pathExists m sharedRoot = E.pathExists 0 sharedRoot) →
    ∀ pre e t post path, history E n = pre ++ (e, t) :: post → (∃ p ∈ pre ++ [(e, t)], p.1 = .bind path true) →
      (∃ p ∈ pre ++ [(e, t)], ∃ child, p.1 = .fork .greeter (some child)) →
      (IpcClient.new (t.pathExists E)).socketPath = path := by
  intro h
  obtain ⟨pre, e, t, hsplit, hlooks, hbound, hgreeter⟩ :=
    @demo_split [] defaultSocketPath (by decide +kernel) (by decide +kernel) (by decide +kernel)
  have hmeet := h (demo []) 0 (fun _ => rfl) pre e t [] _ hsplit hbound hgreeter
  rw [hlooks] at hmeet
  exact absurd hmeet (by decide)

end Miqudm.Rendezvous
