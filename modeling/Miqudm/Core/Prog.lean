/-
Programs that can be watched: a state, a log of what happened, and a way to end.

A program `Prog σ η ε α` starts in a state of `σ`, goes through a finite list of moments, and either returns a value of
`α` or halts for a reason of `ε` (the process is gone, or the observation ends). A moment is an event of `η` together
with the state right after it. `act` is the only way to change the state, so the log shows every state the program
passes through: what holds at every moment of the log holds at all times.

Nothing here depends on what the states and events are. The judgements about programs, each with its rule for every
constructor (return, sequence, test, step, halt, loop, run on a component of the state):
- `Sat x s Q R`: from `s`, if `x` returns then `Q` holds of log, value and end state, and if it halts then `R` does. The
  rules are equivalences, so they compute the weakest precondition;
- `Ends x s q`: if `x` returns from `s`, then `q` holds of value and end state;
- `Watched M k x s Q`: a monitor `M` (an automaton that reads the moments) started in `k` accepts the log, and on return
  `Q` holds of the monitor's state, the value and the end state;
- `Safe G x s Q`: the monitor without memory that asks `G` of every moment;
- `Within F x`: from every start, `x` shows only moments the footprint `F` allows, halts only for its reasons, and every
  state it passes through is related to the start by its preorder;
- `Follows v T x`: seen through the view `v`, every run of `x` is a path of the transition system `T`.
`watched_loop` and `within_loop` are the induction principles: what one turn of a loop keeps, any number of turns keeps.
-/
import Mathlib.Tactic.Common
import Mathlib.Data.List.Basic

namespace Miqudm.Core

/-- what a run leaves behind: the moments it went through, how it ended, and the state it ended in -/
structure Out (σ η ε α : Type) where
  log : List (η × σ)
  fin : Except ε α
  st : σ

def Prog (σ η ε α : Type) : Type := σ → Out σ η ε α

namespace Prog

variable {σ τ η ζ ε α β : Type}

instance : Monad (Prog σ η ε) where
  pure a := fun s => ⟨[], .ok a, s⟩
  bind x f := fun s =>
    match x s with
    | ⟨l, .ok a, t⟩ => let o := f a t; ⟨l ++ o.log, o.fin, o.st⟩
    | ⟨l, .error e, t⟩ => ⟨l, .error e, t⟩

/-- read the state -/
def get : Prog σ η ε σ := fun s => ⟨[], .ok s, s⟩

/-- one step: the state changes by `f`, and the log shows `e` with the new state -/
def act (e : η) (f : σ → σ) : Prog σ η ε Unit := fun s => ⟨[(e, f s)], .ok (), f s⟩

def halt (e : ε) : Prog σ η ε α := fun s => ⟨[], .error e, s⟩

/-- run `x` if `c` holds -/
def when (c : Prop) [Decidable c] (x : Prog σ η ε Unit) : Prog σ η ε Unit := if c then x else pure ()

/-- run a program that never halts on a component of the state: `view` reads the component, `put` writes it back, and
`ev` says how its events show in the log -/
def zoom (view : σ → τ) (put : τ → σ → σ) (ev : ζ → η) (x : Prog τ ζ Empty α) : Prog σ η ε α := fun s =>
  match x (view s) with
  | ⟨l, .ok a, t⟩ => ⟨l.map fun p => (ev p.1, put p.2 s), .ok a, put t s⟩
  | ⟨_, .error e, _⟩ => e.elim

/-- a loop watched for at most `n` turns: `body` says whether to go on, and `cut` is how the observation ends -/
def loop (cut : ε) (body : Prog σ η ε Bool) : ℕ → Prog σ η ε Unit
  | 0 => halt cut
  | n + 1 => do
    if ← body then loop cut body n else pure ()

theorem bind_assoc' (x : Prog σ η ε α) {γ : Type} (f : α → Prog σ η ε β) (g : β → Prog σ η ε γ) :
    (x >>= f) >>= g = x >>= fun a => f a >>= g := by
  funext s
  simp only [bind]
  rcases x s with ⟨l, e | a, t⟩
  · rfl
  · simp only []
    rcases f a t with ⟨l', e' | b, u⟩
    · rfl
    · simp [List.append_assoc]

/-! ## `Sat`: the weakest precondition -/

def Sat (x : Prog σ η ε α) (s : σ) (Q : List (η × σ) → α → σ → Prop) (R : List (η × σ) → ε → σ → Prop) : Prop :=
  match x s with
  | ⟨l, .ok a, t⟩ => Q l a t
  | ⟨l, .error e, t⟩ => R l e t

variable {s : σ} {Q Q' : List (η × σ) → α → σ → Prop} {R R' : List (η × σ) → ε → σ → Prop}

theorem Sat.mono {x : Prog σ η ε α} (h : Sat x s Q R) (hQ : ∀ l a t, Q l a t → Q' l a t)
    (hR : ∀ l e t, R l e t → R' l e t) : Sat x s Q' R' := by
  unfold Sat at *
  split at h
  · exact hQ _ _ _ h
  · exact hR _ _ _ h

theorem Sat.and {x : Prog σ η ε α} (h : Sat x s Q R) (h' : Sat x s Q' R') :
    Sat x s (fun l a t => Q l a t ∧ Q' l a t) (fun l e t => R l e t ∧ R' l e t) := by
  unfold Sat at *
  split at h <;> simp_all

/-- reading `Sat` off a run that returned -/
theorem Sat.of_ok {x : Prog σ η ε α} (h : Sat x s Q R) {a : α} (ha : (x s).fin = .ok a) : Q (x s).log a (x s).st := by
  unfold Sat at h
  split at h <;> simp_all

/-- reading `Sat` off a run that halted -/
theorem Sat.of_error {x : Prog σ η ε α} (h : Sat x s Q R) {e : ε} (he : (x s).fin = .error e) :
    R (x s).log e (x s).st := by
  unfold Sat at h
  split at h <;> simp_all

/-- a run as it is -/
theorem sat_run (x : Prog σ η ε α) (s : σ) :
    Sat x s (fun l a t => x s = ⟨l, .ok a, t⟩) (fun l e t => x s = ⟨l, .error e, t⟩) := by
  unfold Sat
  split <;> simp_all

/-- a property of the log that holds however the run ends -/
theorem Sat.log {x : Prog σ η ε α} {P : List (η × σ) → Prop} (h : Sat x s (fun l _ _ => P l) (fun l _ _ => P l)) :
    P (x s).log := by
  unfold Sat at h
  split at h <;> simp_all

@[simp] theorem sat_pure (a : α) : Sat (pure a : Prog σ η ε α) s Q R ↔ Q [] a s := Iff.rfl

@[simp] theorem sat_get {Q : List (η × σ) → σ → σ → Prop} : Sat (get : Prog σ η ε σ) s Q R ↔ Q [] s s := Iff.rfl

@[simp] theorem sat_act (e : η) (f : σ → σ) {Q : List (η × σ) → Unit → σ → Prop} :
    Sat (act e f : Prog σ η ε Unit) s Q R ↔ Q [(e, f s)] () (f s) := Iff.rfl

@[simp] theorem sat_halt (e : ε) : Sat (halt e : Prog σ η ε α) s Q R ↔ R [] e s := Iff.rfl

theorem sat_bind (x : Prog σ η ε β) (f : β → Prog σ η ε α) :
    Sat (x >>= f) s Q R ↔
      Sat x s (fun l b t => Sat (f b) t (fun l' => Q (l ++ l')) (fun l' => R (l ++ l'))) R := by
  simp only [Sat, bind]
  rcases x s with ⟨l, b | e, t⟩
  · rfl
  · rcases h : f e t with ⟨l', a | e', u⟩ <;> simp [h]

theorem sat_ite (c : Prop) [Decidable c] (x y : Prog σ η ε α) :
    Sat (if c then x else y) s Q R ↔ (c → Sat x s Q R) ∧ (¬ c → Sat y s Q R) := by
  split_ifs with h <;> simp [h]

theorem sat_when (c : Prop) [Decidable c] (x : Prog σ η ε Unit) {Q : List (η × σ) → Unit → σ → Prop} :
    Sat (when c x) s Q R ↔ (c → Sat x s Q R) ∧ (¬ c → Q [] () s) := sat_ite c x (pure ())

theorem sat_zoom (view : σ → τ) (put : τ → σ → σ) (ev : ζ → η) (x : Prog τ ζ Empty α) :
    Sat (zoom view put ev x : Prog σ η ε α) s Q R ↔
      Sat x (view s) (fun l a t => Q (l.map fun p => (ev p.1, put p.2 s)) a (put t s)) (fun _ _ _ => True) := by
  simp only [Sat, zoom]
  rcases x (view s) with ⟨l, e | a, t⟩
  · exact e.elim
  · rfl

/-! ## `Ends`: partial correctness -/

def Ends (x : Prog σ η ε α) (s : σ) (q : α → σ → Prop) : Prop := Sat x s (fun _ a t => q a t) (fun _ _ _ => True)

section Ends

variable {q q' : α → σ → Prop}

/-- what is known of a run, as a result about its end -/
theorem Sat.ends {x : Prog σ η ε α} (h : Sat x s Q R) (hq : ∀ l a t, Q l a t → q a t) : Ends x s q :=
  Sat.mono h hq fun _ _ _ _ => trivial

theorem Ends.mono {x : Prog σ η ε α} (h : Ends x s q) (hq : ∀ a t, q a t → q' a t) : Ends x s q' :=
  Sat.ends h fun _ => hq

theorem Ends.and {x : Prog σ η ε α} (h : Ends x s q) (h' : Ends x s q') : Ends x s (fun a t => q a t ∧ q' a t) :=
  Sat.ends (Sat.and h h') fun _ _ _ h => h

theorem ends_any (x : Prog σ η ε α) (s : σ) : Ends x s (fun _ _ => True) := Sat.ends (sat_run x s) fun _ _ _ _ => trivial

theorem ends_pure {a : α} (h : q a s) : Ends (pure a : Prog σ η ε α) s q := h

theorem ends_act {e : η} {f : σ → σ} {q : Unit → σ → Prop} (h : q () (f s)) :
    Ends (act e f : Prog σ η ε Unit) s q := h

theorem Ends.seq {x : Prog σ η ε β} {f : β → Prog σ η ε α} {q : β → σ → Prop} (hx : Ends x s q)
    (hf : ∀ b t, q b t → Ends (f b) t q') : Ends (x >>= f) s q' :=
  (sat_bind x f).2 (Sat.mono hx (fun _ b t h => hf b t h) fun _ _ _ h => h)

theorem ends_get_bind {f : σ → Prog σ η ε α} (h : Ends (f s) s q) : Ends (get >>= f) s q := (sat_bind get f).2 h

theorem ends_ite {c : Prop} [Decidable c] {x y : Prog σ η ε α} (hx : c → Ends x s q) (hy : ¬ c → Ends y s q) :
    Ends (if c then x else y) s q := (sat_ite c x y).2 ⟨hx, hy⟩

theorem ends_when {c : Prop} [Decidable c] {x : Prog σ η ε Unit} {q : Unit → σ → Prop} (hx : c → Ends x s q)
    (hn : ¬ c → q () s) : Ends (when c x) s q := ends_ite hx fun hc => ends_pure (hn hc)

end Ends

/-! ## `Watched`: a monitor reads along -/

/-- an automaton that reads a log: how it moves on an event, what it asks of a moment, and where a program may halt -/
structure Monitor (η σ ε κ : Type) where
  step : κ → η → κ
  good : κ → η → σ → Prop
  stops : κ → ε → Prop := fun _ _ => True

namespace Monitor

variable {κ : Type} (M : Monitor η σ ε κ)

/-- the state after a log -/
def after (k : κ) (l : List (η × σ)) : κ := l.foldl (fun k p => M.step k p.1) k

def accepts (M : Monitor η σ ε κ) : κ → List (η × σ) → Prop
  | _, [] => True
  | k, p :: l => M.good k p.1 p.2 ∧ accepts M (M.step k p.1) l

@[simp] theorem after_nil (k : κ) : M.after k [] = k := rfl

@[simp] theorem after_cons (k : κ) (p : η × σ) (l : List (η × σ)) :
    M.after k (p :: l) = M.after (M.step k p.1) l := rfl

theorem after_append (k : κ) (l l' : List (η × σ)) : M.after k (l ++ l') = M.after (M.after k l) l' :=
  List.foldl_append

/-- what is remembered of one kind depends on the events alone -/
theorem after_view {β : Type} {f : κ → β} {g : β → η → β} (h : ∀ k e, f (M.step k e) = g (f k) e)
    (l : List (η × σ)) : ∀ k, f (M.after k l) = (l.map Prod.fst).foldl g (f k) := by
  induction l with
  | nil => exact fun _ => rfl
  | cons p l ih =>
    intro k
    rw [after_cons, ih, h, List.map_cons, List.foldl_cons]

@[simp] theorem accepts_nil (k : κ) : M.accepts k [] := trivial

@[simp] theorem accepts_cons (k : κ) (p : η × σ) (l : List (η × σ)) :
    M.accepts k (p :: l) ↔ M.good k p.1 p.2 ∧ M.accepts (M.step k p.1) l := Iff.rfl

theorem accepts_append (k : κ) (l l' : List (η × σ)) :
    M.accepts k (l ++ l') ↔ M.accepts k l ∧ M.accepts (M.after k l) l' := by
  induction l generalizing k with
  | nil => simp
  | cons p l ih => simp [ih, and_assoc]

/-- every moment of an accepted log was good in the state the monitor had reached -/
theorem accepts_split {k : κ} {l : List (η × σ)} (h : M.accepts k l) {pre post : List (η × σ)} {p : η × σ}
    (hl : l = pre ++ p :: post) : M.good (M.after k pre) p.1 p.2 := by
  rw [hl, accepts_append, accepts_cons] at h
  exact h.2.1

/-- what good moments keep of the monitor's state holds along an accepted log, with what it says of each moment -/
theorem accepts_forall {J : κ → Prop} {P : η → σ → Prop}
    (hstep : ∀ k e s, J k → M.good k e s → P e s ∧ J (M.step k e)) {l : List (η × σ)} :
    ∀ {k}, J k → M.accepts k l → ∀ p ∈ l, P p.1 p.2 := by
  induction l with
  | nil => simp
  | cons q l ih =>
    intro k hk h
    obtain ⟨hq, hk'⟩ := hstep k q.1 q.2 hk h.1
    exact List.forall_mem_cons.2 ⟨hq, ih hk' h.2⟩

/-- what good moments keep of the monitor's state holds after an accepted log -/
theorem accepts_keeps {J : κ → Prop} (hstep : ∀ k e s, J k → M.good k e s → J (M.step k e)) {l : List (η × σ)} :
    ∀ {k}, J k → M.accepts k l → J (M.after k l) := by
  induction l with
  | nil => exact fun hk _ => hk
  | cons p l ih => exact fun hk h => ih (hstep _ p.1 p.2 hk h.1) h.2

/-- a monitor that moves in the same way and asks for less accepts as well -/
theorem accepts_of_good {M M' : Monitor η σ ε κ} (hstep : ∀ k e, M.step k e = M'.step k e)
    (hgood : ∀ k e s, M.good k e s → M'.good k e s) {k : κ} {l : List (η × σ)} (h : M.accepts k l) :
    M'.accepts k l := by
  induction l generalizing k with
  | nil => trivial
  | cons p l ih => exact ⟨hgood _ _ _ h.1, hstep k p.1 ▸ ih h.2⟩

/-- a monitor that moves as another one does, seen through `f`, and asks for less -/
theorem accepts_map {ε' κ' : Type} {M' : Monitor η σ ε' κ'} {f : κ → κ'} (hstep : ∀ k e, f (M.step k e) = M'.step (f k) e)
    (hgood : ∀ k e s, M.good k e s → M'.good (f k) e s) {l : List (η × σ)} :
    ∀ {k}, M.accepts k l → M'.accepts (f k) l := by
  induction l with
  | nil => exact fun _ => trivial
  | cons p l ih => exact fun h => ⟨hgood _ _ _ h.1, hstep _ p.1 ▸ ih h.2⟩

theorem after_map {ε' κ' : Type} {M' : Monitor η σ ε' κ'} {f : κ → κ'} (hstep : ∀ k e, f (M.step k e) = M'.step (f k) e)
    (l : List (η × σ)) : ∀ k, f (M.after k l) = M'.after (f k) l := by
  induction l with
  | nil => exact fun _ => rfl
  | cons p l ih =>
    intro k
    rw [after_cons, ih, hstep, after_cons]

/-- the monitor without memory that asks `G` of every moment -/
def always (G : η → σ → Prop) : Monitor η σ ε Unit where
  step _ _ := ()
  good _ := G

theorem accepts_always {G : η → σ → Prop} {l : List (η × σ)} :
    (always G : Monitor η σ ε Unit).accepts () l ↔ ∀ p ∈ l, G p.1 p.2 := by
  induction l with
  | nil => simp
  | cons p l ih => rw [accepts_cons, List.forall_mem_cons]; exact and_congr Iff.rfl ih

end Monitor

def Watched {κ : Type} (M : Monitor η σ ε κ) (k : κ) (x : Prog σ η ε α) (s : σ) (Q : κ → α → σ → Prop) : Prop :=
  Sat x s (fun l a t => M.accepts k l ∧ Q (M.after k l) a t) (fun l e _ => M.accepts k l ∧ M.stops (M.after k l) e)

section Watched

variable {κ : Type} {M : Monitor η σ ε κ} {k : κ} {q q' : κ → α → σ → Prop}

theorem Watched.mono {x : Prog σ η ε α} (h : Watched M k x s q) (hq : ∀ k a t, q k a t → q' k a t) :
    Watched M k x s q' :=
  Sat.mono h (fun _ _ _ h => ⟨h.1, hq _ _ _ h.2⟩) (fun _ _ _ h => h)

theorem Watched.accepts {x : Prog σ η ε α} (h : Watched M k x s q) : M.accepts k (x s).log :=
  Sat.log (Sat.mono h (fun _ _ _ h => h.1) (fun _ _ _ h => h.1))

theorem watched_pure {a : α} (h : q k a s) : Watched M k (pure a : Prog σ η ε α) s q := ⟨trivial, h⟩

theorem watched_get {q : κ → σ → σ → Prop} (h : q k s s) : Watched M k (get : Prog σ η ε σ) s q := ⟨trivial, h⟩

theorem watched_act {e : η} {f : σ → σ} {q : κ → Unit → σ → Prop} (hg : M.good k e (f s))
    (h : q (M.step k e) () (f s)) : Watched M k (act e f : Prog σ η ε Unit) s q := ⟨⟨hg, trivial⟩, h⟩

theorem watched_halt {e : ε} (h : M.stops k e) : Watched M k (halt e : Prog σ η ε α) s q := ⟨trivial, h⟩

theorem watched_bind {x : Prog σ η ε β} {f : β → Prog σ η ε α}
    (h : Watched M k x s (fun k b t => Watched M k (f b) t q)) : Watched M k (x >>= f) s q := by
  refine (sat_bind x f).2 (Sat.mono h (fun l b t h => ?_) (fun _ _ _ h => h))
  refine Sat.mono h.2 (fun l' a u h' => ?_) (fun l' e u h' => ?_)
  · exact ⟨(M.accepts_append k l l').2 ⟨h.1, h'.1⟩, by rw [M.after_append]; exact h'.2⟩
  · exact ⟨(M.accepts_append k l l').2 ⟨h.1, h'.1⟩, by rw [M.after_append]; exact h'.2⟩

/-- what the first part leaves is where the second starts -/
theorem Watched.seq {x : Prog σ η ε β} {f : β → Prog σ η ε α} {q : κ → β → σ → Prop} (hx : Watched M k x s q)
    (hf : ∀ k b t, q k b t → Watched M k (f b) t q') : Watched M k (x >>= f) s q' :=
  watched_bind (Watched.mono hx hf)

/-- a first part that leaves the monitor in one state -/
theorem Watched.seq_at {x : Prog σ η ε β} {f : β → Prog σ η ε α} {k' : κ} (hx : Watched M k x s fun k _ _ => k = k')
    (hf : ∀ b t, Watched M k' (f b) t q') : Watched M k (x >>= f) s q' := by
  apply Watched.seq hx
  intro k b t h
  subst h
  exact hf b t

theorem watched_ite {c : Prop} [Decidable c] {x y : Prog σ η ε α} (hx : c → Watched M k x s q)
    (hy : ¬ c → Watched M k y s q) : Watched M k (if c then x else y) s q := (sat_ite c x y).2 ⟨hx, hy⟩

theorem watched_when {c : Prop} [Decidable c] {x : Prog σ η ε Unit} {q : κ → Unit → σ → Prop}
    (hx : c → Watched M k x s q) (hn : ¬ c → q k () s) : Watched M k (when c x) s q :=
  watched_ite hx fun hc => watched_pure (hn hc)

/-- what is known of the value and the end state anyway -/
theorem Watched.and_sat {x : Prog σ η ε α} {r : α → σ → Prop} (h : Watched M k x s q) (hr : Ends x s r) :
    Watched M k x s (fun k a t => q k a t ∧ r a t) :=
  Sat.mono (Sat.and h hr) (fun _ _ _ h => ⟨h.1.1, h.1.2, h.2⟩) (fun _ _ _ h => h.1)

/-- a program on a component, watched by its own monitor: the outer monitor follows if each of its moves on an event of
the component is the inner monitor's move -/
theorem watched_zoom {κ' : Type} {M' : Monitor ζ τ Empty κ'} {i : κ' → κ} {k' : κ'} {view : σ → τ} {put : τ → σ → σ}
    {ev : ζ → η} {x : Prog τ ζ Empty α} {r : κ' → α → τ → Prop} (h : Watched M' k' x (view s) r)
    (hstep : ∀ k e, M.step (i k) (ev e) = i (M'.step k e))
    (hgood : ∀ k e t, M'.good k e t → M.good (i k) (ev e) (put t s))
    (hq : ∀ k a t, r k a t → q (i k) a (put t s)) :
    Watched M (i k') (zoom view put ev x : Prog σ η ε α) s q := by
  have key : ∀ (l : List (ζ × τ)) k, M.after (i k) (l.map fun p => (ev p.1, put p.2 s)) = i (M'.after k l) ∧
      (M'.accepts k l → M.accepts (i k) (l.map fun p => (ev p.1, put p.2 s))) := by
    intro l
    induction l with
    | nil => intro k; simp
    | cons p l ih =>
      intro k
      obtain ⟨h1, h2⟩ := ih (M'.step k p.1)
      simp only [List.map_cons, Monitor.after_cons, Monitor.accepts_cons, hstep]
      exact ⟨h1, fun h => ⟨hgood _ _ _ h.1, h2 h.2⟩⟩
  refine (sat_zoom view put ev x).2 (Sat.mono h (fun l a t h => ?_) (fun _ _ _ _ => trivial))
  exact ⟨(key l k').2 h.1, by rw [(key l k').1]; exact hq _ _ _ h.2⟩

/-- **Loops keep an invariant.** If a turn from `I` is accepted and either goes on in `I` or stops in `q`, then the
whole loop is accepted and stops in `q`. -/
theorem watched_loop {I : κ → σ → Prop} {q : κ → Unit → σ → Prop} {body : Prog σ η ε Bool} {cut : ε}
    (hcut : ∀ k s, I k s → M.stops k cut)
    (hbody : ∀ k s, I k s → Watched M k body s (fun k b t => if b then I k t else q k () t)) :
    ∀ n k s, I k s → Watched M k (loop cut body n) s q := by
  intro n
  induction n with
  | zero => exact fun k s hs => watched_halt (hcut k s hs)
  | succ n ih =>
    intro k s hs
    apply Watched.seq (hbody k s hs)
    intro k b t h
    cases b with
    | false => exact watched_pure (by simpa using h)
    | true => exact ih k t (by simpa using h)

end Watched

/-- a moment that comes after one of a kind that the first part does not have is in the second part -/
theorem split_second {α : Type} {F : α → Prop} {l l' pre post : List α} {p : α} (h : l ++ l' = pre ++ p :: post)
    (hl : ∀ q ∈ l, ¬ F q) (hF : ∃ q ∈ pre ++ [p], F q) : ∃ a, pre = l ++ a ∧ l' = a ++ p :: post := by
  rcases List.append_eq_append_iff.1 h with ⟨a, hpre, hl'⟩ | ⟨c, hpre, hpost⟩
  · exact ⟨a, hpre, hl'⟩
  · cases c with
    | nil => exact ⟨[], by simpa using hpre.symm, by simpa using hpost.symm⟩
    | cons q c =>
      obtain ⟨rfl, rfl⟩ : p = q ∧ post = c ++ l' := by simpa using hpost
      obtain ⟨r, hr, hFr⟩ := hF
      refine absurd hFr (hl r ?_)
      rw [hpre]
      rcases List.mem_append.1 hr with hr | hr
      · simp [hr]
      · simp [List.mem_singleton.1 hr]

/-- a log from one of its moments on -/
theorem drop_at {α β : Type} {l : List (α × β)} {m : ℕ} {a : α} (h : l[m]?.map Prod.fst = some a) :
    ∃ b, l[m]? = some (a, b) ∧ l.drop m = (a, b) :: l.drop (m + 1) := by
  obtain ⟨⟨a', b⟩, hm, rfl⟩ := Option.map_eq_some_iff.1 h
  obtain ⟨hlt, hget⟩ := List.getElem?_eq_some_iff.1 hm
  exact ⟨b, hm, by rw [← hget, ← List.drop_eq_getElem_cons hlt]⟩

/-- a log around one of its moments -/
theorem split_at {α β : Type} {l : List (α × β)} {m : ℕ} {a : α} (h : l[m]?.map Prod.fst = some a) :
    ∃ b, l[m]? = some (a, b) ∧ l = l.take m ++ (a, b) :: l.drop (m + 1) := by
  obtain ⟨b, hm, hdrop⟩ := drop_at h
  exact ⟨b, hm, by rw [← hdrop, List.take_append_drop]⟩

/-- a list around an element that is known by a test -/
theorem split_any {α : Type} {l : List α} {m : ℕ} {f : α → Bool} (h : l[m]?.any f = true) :
    ∃ a, f a = true ∧ l = l.take m ++ a :: l.drop (m + 1) := by
  obtain ⟨a, hm, ha⟩ := (Option.any_eq_true _ _).1 h
  obtain ⟨hlt, hget⟩ := List.getElem?_eq_some_iff.1 hm
  exact ⟨a, ha, by rw [← hget, ← List.drop_eq_getElem_cons hlt, List.take_append_drop]⟩

/-! ## `Safe`: a guarantee at every moment -/

def Safe (G : η → σ → Prop) (x : Prog σ η ε α) (s : σ) (Q : α → σ → Prop) : Prop :=
  Watched (Monitor.always G) () x s (fun _ => Q)

section Safe

variable {G : η → σ → Prop} {q q' : α → σ → Prop}

theorem Safe.mono {x : Prog σ η ε α} (h : Safe G x s q) (hq : ∀ a t, q a t → q' a t) : Safe G x s q' :=
  Watched.mono h fun _ => hq

theorem Safe.log {x : Prog σ η ε α} (h : Safe G x s q) : ∀ p ∈ (x s).log, G p.1 p.2 :=
  Monitor.accepts_always.1 (Watched.accepts h)

theorem safe_pure {a : α} (h : q a s) : Safe G (pure a : Prog σ η ε α) s q := watched_pure h

theorem safe_get {q : σ → σ → Prop} (h : q s s) : Safe G (get : Prog σ η ε σ) s q := watched_get h

theorem safe_halt {e : ε} : Safe G (halt e : Prog σ η ε α) s q := watched_halt trivial

theorem safe_bind {x : Prog σ η ε β} {f : β → Prog σ η ε α} (h : Safe G x s (fun b t => Safe G (f b) t q)) :
    Safe G (x >>= f) s q := watched_bind h

theorem Safe.seq {x : Prog σ η ε β} {f : β → Prog σ η ε α} {q : β → σ → Prop} (hx : Safe G x s q)
    (hf : ∀ b t, q b t → Safe G (f b) t q') : Safe G (x >>= f) s q' := safe_bind (Safe.mono hx hf)

theorem safe_ite {c : Prop} [Decidable c] {x y : Prog σ η ε α} (hx : c → Safe G x s q) (hy : ¬ c → Safe G y s q) :
    Safe G (if c then x else y) s q := watched_ite hx hy

theorem safe_when {c : Prop} [Decidable c] {x : Prog σ η ε Unit} {q : Unit → σ → Prop} (hx : c → Safe G x s q)
    (hn : ¬ c → q () s) : Safe G (when c x) s q := watched_when hx hn

end Safe

/-! ## `Within`: a footprint -/

/-- what a program may do: the moments it may show, the reasons it may halt for, and a preorder between the state it
starts in and every state it passes through -/
structure Footprint (σ η ε : Type) where
  allow : η → σ → Prop
  halts : ε → Prop
  rel : σ → σ → Prop
  refl : ∀ s, rel s s
  trans : ∀ {s t u}, rel s t → rel t u → rel s u

def Within (F : Footprint σ η ε) (x : Prog σ η ε α) : Prop :=
  ∀ s, Sat x s (fun l _ t => (∀ p ∈ l, F.allow p.1 p.2 ∧ F.rel s p.2) ∧ F.rel s t)
    (fun l e _ => (∀ p ∈ l, F.allow p.1 p.2 ∧ F.rel s p.2) ∧ F.halts e)

section Within

variable {F : Footprint σ η ε}

theorem within_pure (a : α) : Within F (pure a : Prog σ η ε α) := fun s => ⟨by simp, F.refl s⟩

theorem within_get : Within F (get : Prog σ η ε σ) := fun s => ⟨by simp, F.refl s⟩

theorem within_act {e : η} {f : σ → σ} (ha : ∀ s, F.allow e (f s)) (hf : ∀ s, F.rel s (f s)) :
    Within F (act e f : Prog σ η ε Unit) := fun s => ⟨by simp [ha, hf], hf s⟩

theorem within_halt {e : ε} (h : F.halts e) : Within F (halt e : Prog σ η ε α) := fun _ => ⟨by simp, h⟩

/-- what follows the first part may use where that part led -/
theorem within_bind_of {s : σ} {x : Prog σ η ε β} {f : β → Prog σ η ε α} (hx : Within F x)
    (hf : ∀ b t, F.rel s t → Sat (f b) t (fun l _ u => (∀ p ∈ l, F.allow p.1 p.2 ∧ F.rel s p.2) ∧ F.rel s u)
      (fun l e _ => (∀ p ∈ l, F.allow p.1 p.2 ∧ F.rel s p.2) ∧ F.halts e)) :
    Sat (x >>= f) s (fun l _ t => (∀ p ∈ l, F.allow p.1 p.2 ∧ F.rel s p.2) ∧ F.rel s t)
      (fun l e _ => (∀ p ∈ l, F.allow p.1 p.2 ∧ F.rel s p.2) ∧ F.halts e) := by
  refine (sat_bind x f).2 (Sat.mono (hx s) (fun l b t h => ?_) (fun _ _ _ h => h))
  refine Sat.mono (hf b t h.2) (fun l' _ u h' => ?_) (fun l' e u h' => ?_)
  · exact ⟨List.forall_mem_append.2 ⟨h.1, h'.1⟩, h'.2⟩
  · exact ⟨List.forall_mem_append.2 ⟨h.1, h'.1⟩, h'.2⟩

/-- a program that starts where the footprint leads to stays in the footprint -/
theorem Within.after {s t : σ} {x : Prog σ η ε α} (h : Within F x) (hst : F.rel s t) :
    Sat x t (fun l _ u => (∀ p ∈ l, F.allow p.1 p.2 ∧ F.rel s p.2) ∧ F.rel s u)
      (fun l e _ => (∀ p ∈ l, F.allow p.1 p.2 ∧ F.rel s p.2) ∧ F.halts e) :=
  Sat.mono (h t)
    (fun _ _ _ h => ⟨fun p hp => ⟨(h.1 p hp).1, F.trans hst (h.1 p hp).2⟩, F.trans hst h.2⟩)
    (fun _ _ _ h => ⟨fun p hp => ⟨(h.1 p hp).1, F.trans hst (h.1 p hp).2⟩, h.2⟩)

theorem within_bind {x : Prog σ η ε β} {f : β → Prog σ η ε α} (hx : Within F x) (hf : ∀ b, Within F (f b)) :
    Within F (x >>= f) := fun _ => within_bind_of hx fun b _ h => (hf b).after h

/-- the state read by `get` may be used in what follows -/
theorem within_get_bind {f : σ → Prog σ η ε α} (h : ∀ s, Within F (f s)) : Within F (get >>= f) :=
  within_bind within_get h

theorem within_ite {c : Prop} [Decidable c] {x y : Prog σ η ε α} (hx : Within F x) (hy : Within F y) :
    Within F (if c then x else y) := by
  split_ifs
  · exact hx
  · exact hy

theorem within_when {c : Prop} [Decidable c] {x : Prog σ η ε Unit} (hx : Within F x) : Within F (when c x) :=
  within_ite hx (within_pure ())

theorem within_zoom {view : σ → τ} {put : τ → σ → σ} {ev : ζ → η} (x : Prog τ ζ Empty α)
    (ha : ∀ e t s, F.allow (ev e) (put t s)) (hp : ∀ s t, F.rel s (put t s)) :
    Within F (zoom view put ev x : Prog σ η ε α) := by
  intro s
  refine (sat_zoom view put ev x).2 (Sat.mono (sat_run x (view s)) (fun l a t _ => ⟨?_, hp s t⟩) fun _ _ _ _ => trivial)
  intro p h
  obtain ⟨p', -, rfl⟩ := List.mem_map.1 h
  exact ⟨ha _ _ _, hp s p'.2⟩

/-- a wider footprint -/
theorem Within.mono {F' : Footprint σ η ε} {x : Prog σ η ε α} (h : Within F x)
    (ha : ∀ e s, F.allow e s → F'.allow e s) (hh : ∀ e, F.halts e → F'.halts e)
    (hr : ∀ s t, F.rel s t → F'.rel s t) : Within F' x := fun s =>
  Sat.mono (h s)
    (fun _ _ _ h => ⟨fun p hp => ⟨ha _ _ (h.1 p hp).1, hr _ _ (h.1 p hp).2⟩, hr _ _ h.2⟩)
    (fun _ _ _ h => ⟨fun p hp => ⟨ha _ _ (h.1 p hp).1, hr _ _ (h.1 p hp).2⟩, hh _ h.2⟩)

/-- a monitor that lets every moment of the footprint pass, and whose state keeps `J` on them -/
theorem Within.watched {κ : Type} {M : Monitor η σ ε κ} {k : κ} {x : Prog σ η ε α} {s : σ} {J : κ → Prop}
    (h : Within F x) (hk : J k)
    (hM : ∀ k e t, J k → F.allow e t → F.rel s t → M.good k e t ∧ J (M.step k e))
    (hstops : ∀ k e, J k → F.halts e → M.stops k e) :
    Watched M k x s (fun k' _ t => J k' ∧ F.rel s t) := by
  have key : ∀ (l : List (η × σ)) k, J k → (∀ p ∈ l, F.allow p.1 p.2 ∧ F.rel s p.2) →
      M.accepts k l ∧ J (M.after k l) := by
    intro l
    induction l with
    | nil => intro k hk _; exact ⟨trivial, hk⟩
    | cons p l ih =>
      intro k hk hl
      rw [List.forall_mem_cons] at hl
      obtain ⟨hg, hk'⟩ := hM k p.1 p.2 hk hl.1.1 hl.1.2
      exact ⟨⟨hg, (ih _ hk' hl.2).1⟩, (ih _ hk' hl.2).2⟩
  refine Sat.mono (h s) (fun l _ t h => ?_) (fun l e _ h => ?_)
  · exact ⟨(key l k hk h.1).1, (key l k hk h.1).2, h.2⟩
  · exact ⟨(key l k hk h.1).1, hstops _ e (key l k hk h.1).2 h.2⟩

theorem Within.safe {G : η → σ → Prop} {x : Prog σ η ε α} {s : σ} (h : Within F x)
    (hG : ∀ e t, F.allow e t → F.rel s t → G e t) : Safe G x s (fun _ t => F.rel s t) :=
  Watched.mono (Within.watched (J := fun _ => True) h trivial (fun _ e t _ ha hr => ⟨hG e t ha hr, trivial⟩)
    fun _ _ _ _ => trivial) fun _ _ _ h => h.2

/-! ## `Follows`: a transition system -/

/-- seen through `v`, the log leads from `g` to `t` by steps of `T` -/
def Trail {γ : Type} (v : σ → γ) (T : γ → η → γ → Prop) : γ → List (η × σ) → σ → Prop
  | g, [], t => v t = g
  | g, p :: l, t => T g p.1 (v p.2) ∧ Trail v T (v p.2) l t

def Follows {γ : Type} (v : σ → γ) (T : γ → η → γ → Prop) (x : Prog σ η ε α) : Prop :=
  ∀ s, Sat x s (fun l _ t => Trail v T (v s) l t) (fun l _ t => Trail v T (v s) l t)

section Follows

variable {γ : Type} {v : σ → γ} {T T' : γ → η → γ → Prop}

theorem Trail.append {l l' : List (η × σ)} {t u : σ} :
    ∀ {g}, Trail v T g l t → Trail v T (v t) l' u → Trail v T g (l ++ l') u := by
  induction l with
  | nil =>
    intro g h h'
    cases h
    exact h'
  | cons p l ih => exact fun h h' => ⟨h.1, ih h.2 h'⟩

theorem Trail.mono (hT : ∀ g e g', T g e g' → T' g e g') {l : List (η × σ)} {t : σ} :
    ∀ {g}, Trail v T g l t → Trail v T' g l t := by
  induction l with
  | nil => exact fun h => h
  | cons p l ih => exact fun h => ⟨hT _ _ _ h.1, ih h.2⟩

/-- what every step keeps holds at every moment, with what the step makes sure of -/
theorem Trail.forall_moment {I : γ → Prop} {P : η → Prop} (hT : ∀ g e g', I g → T g e g' → I g' ∧ P e)
    {l : List (η × σ)} {t : σ} : ∀ {g}, Trail v T g l t → I g → ∀ p ∈ l, I (v p.2) ∧ P p.1 := by
  induction l with
  | nil => simp
  | cons q l ih =>
    intro g h hg p hp
    have hstep := hT _ _ _ hg h.1
    rcases List.mem_cons.1 hp with rfl | hp
    · exact hstep
    · exact ih h.2 hstep.1 p hp

/-- what a step makes sure of holds of every event of a trail -/
theorem Trail.forall_event {P : η → Prop} (hT : ∀ g e g', T g e g' → P e) {l : List (η × σ)} {t : σ} {g : γ}
    (h : Trail v T g l t) : ∀ p ∈ l, P p.1 := by
  have hstep : ∀ g e g', True → T g e g' → True ∧ P e := fun g e g' _ hg => ⟨trivial, hT g e g' hg⟩
  exact fun p hp => (Trail.forall_moment hstep h trivial p hp).2

theorem follows_pure (a : α) : Follows v T (pure a : Prog σ η ε α) := fun _ => rfl

theorem follows_halt (e : ε) : Follows v T (halt e : Prog σ η ε α) := fun _ => rfl

theorem follows_act {e : η} {f : σ → σ} (h : ∀ s, T (v s) e (v (f s))) : Follows v T (act e f : Prog σ η ε Unit) :=
  fun s => ⟨h s, rfl⟩

theorem follows_bind {x : Prog σ η ε β} {f : β → Prog σ η ε α} (hx : Follows v T x) (hf : ∀ b, Follows v T (f b)) :
    Follows v T (x >>= f) := by
  intro s
  apply (sat_bind x f).2
  apply Sat.mono (hx s)
  · intro l b t h
    exact Sat.mono (hf b t) (fun _ _ _ h' => h.append h') (fun _ _ _ h' => h.append h')
  · exact fun _ _ _ h => h

theorem follows_get_bind {f : σ → Prog σ η ε α} (h : ∀ s, Follows v T (f s)) : Follows v T (get >>= f) :=
  follows_bind (fun _ => rfl) h

theorem follows_ite {c : Prop} [Decidable c] {x y : Prog σ η ε α} (hx : Follows v T x) (hy : Follows v T y) :
    Follows v T (if c then x else y) := by
  split_ifs
  · exact hx
  · exact hy

theorem follows_when {c : Prop} [Decidable c] {x : Prog σ η ε Unit} (hx : Follows v T x) : Follows v T (when c x) :=
  follows_ite hx (follows_pure ())

/-- a component that the view does not show -/
theorem follows_zoom {view : σ → τ} {put : τ → σ → σ} {ev : ζ → η} (x : Prog τ ζ Empty α)
    (hput : ∀ p s, v (put p s) = v s) (hev : ∀ g e, T g (ev e) g) :
    Follows v T (zoom view put ev x : Prog σ η ε α) := by
  intro s
  apply (sat_zoom view put ev x).2
  apply Sat.mono (sat_run x (view s))
  · intro l a t h
    clear h
    induction l with
    | nil => exact hput t s
    | cons p l ih =>
      have hp : v (put p.2 s) = v s := hput p.2 s
      exact ⟨by simpa only [hp] using hev (v s) p.1, by simpa only [hp] using ih⟩
  · exact fun _ _ _ _ => trivial

theorem follows_loop {body : Prog σ η ε Bool} {cut : ε} (h : Follows v T body) : ∀ n, Follows v T (loop cut body n) := by
  intro n
  induction n with
  | zero => exact follows_halt cut
  | succ n ih => exact follows_bind h fun b => follows_ite ih (follows_pure ())

theorem Follows.mono {x : Prog σ η ε α} (h : Follows v T x) (hT : ∀ g e g', T g e g' → T' g e g') : Follows v T' x :=
  fun s => Sat.mono (h s) (fun _ _ _ h => h.mono hT) (fun _ _ _ h => h.mono hT)

/-- **The step rule.** A relation between the monitor and the view that every step keeps, and that makes every moment
good, is kept by the whole; the steps may be taken to be those of a footprint. -/
theorem Follows.watched {κ : Type} {M : Monitor η σ ε κ} {k : κ} {x : Prog σ η ε α} {s : σ} {J : κ → γ → Prop}
    {F : Footprint σ η ε} (h : Follows v T x) (hF : Within F x) (hk : J k (v s))
    (hM : ∀ k g e t, J k g → T g e (v t) → F.allow e t → F.rel s t → M.good k e t ∧ J (M.step k e) (v t))
    (hstops : ∀ k g e, J k g → F.halts e → M.stops k e) :
    Watched M k x s (fun k' _ t => J k' (v t) ∧ F.rel s t) := by
  have key : ∀ (l : List (η × σ)) k g t, J k g → Trail v T g l t → (∀ p ∈ l, F.allow p.1 p.2 ∧ F.rel s p.2) →
      M.accepts k l ∧ J (M.after k l) (v t) := by
    intro l
    induction l with
    | nil =>
      intro k g t hk htrail _
      exact ⟨trivial, htrail ▸ hk⟩
    | cons p l ih =>
      intro k g t hk htrail hl
      rw [List.forall_mem_cons] at hl
      obtain ⟨hgood, hk'⟩ := hM k g p.1 p.2 hk htrail.1 hl.1.1 hl.1.2
      obtain ⟨haccepts, hafter⟩ := ih _ _ t hk' htrail.2 hl.2
      exact ⟨⟨hgood, haccepts⟩, hafter⟩
  apply Sat.mono (Sat.and (h s) (hF s))
  · intro l a t ⟨htrail, hl⟩
    obtain ⟨haccepts, hafter⟩ := key l k _ t hk htrail hl.1
    exact ⟨haccepts, hafter, hl.2⟩
  · intro l e t ⟨htrail, hl⟩
    obtain ⟨haccepts, hafter⟩ := key l k _ t hk htrail hl.1
    exact ⟨haccepts, hstops _ _ _ hafter hl.2⟩

/-- what every step guarantees holds at every moment -/
theorem Follows.safe {G : η → σ → Prop} {x : Prog σ η ε α} (h : Follows v T x) (hG : ∀ g e t, T g e (v t) → G e t)
    (s : σ) : Safe G x s (fun _ _ => True) := by
  have key : ∀ (l : List (η × σ)) g t, Trail v T g l t → ∀ p ∈ l, G p.1 p.2 := by
    intro l
    induction l with
    | nil => simp
    | cons p l ih =>
      intro g t htrail
      rw [List.forall_mem_cons]
      exact ⟨hG _ _ _ htrail.1, ih _ t htrail.2⟩
  apply Sat.mono (h s)
  · exact fun l _ t htrail => ⟨Monitor.accepts_always.2 (key l _ t htrail), trivial⟩
  · exact fun l _ t htrail => ⟨Monitor.accepts_always.2 (key l _ t htrail), trivial⟩

end Follows

/-! ## Programs that always return -/

def Returns (x : Prog σ η ε α) : Prop := ∀ s, Sat x s (fun _ _ _ => True) (fun _ _ _ => False)

theorem returns_pure (a : α) : Returns (pure a : Prog σ η ε α) := fun _ => trivial

theorem returns_get_bind {f : σ → Prog σ η ε α} (hf : ∀ s, Returns (f s)) : Returns (get >>= f) :=
  fun s => (sat_bind get f).2 (hf s s)

theorem returns_bind {x : Prog σ η ε β} {f : β → Prog σ η ε α} (hx : Returns x) (hf : ∀ b, Returns (f b)) :
    Returns (x >>= f) := fun s => (sat_bind x f).2 (Sat.mono (hx s) (fun _ b t _ => hf b t) fun _ _ _ h => h)

theorem returns_ite {c : Prop} [Decidable c] {x y : Prog σ η ε α} (hx : Returns x) (hy : Returns y) :
    Returns (if c then x else y) := by
  split_ifs
  · exact hx
  · exact hy

theorem Within.returns {x : Prog σ η ε α} (h : Within F x) (hF : ∀ e, ¬ F.halts e) : Returns x :=
  fun s => Sat.mono (h s) (fun _ _ _ _ => trivial) fun _ e _ h => hF e h.2

/-- a program that is safe from every start and always returns, as a footprint -/
theorem Returns.within {x : Prog σ η ε α} (hr : Returns x)
    (h : ∀ s, Safe (fun e t => F.allow e t ∧ F.rel s t) x s (fun _ t => F.rel s t)) : Within F x := fun s =>
  Sat.mono (Sat.and (h s) (hr s)) (fun _ _ _ h => ⟨Monitor.accepts_always.1 h.1.1, h.1.2⟩) fun _ _ _ h => h.2.elim

end Within

end Prog

end Miqudm.Core
