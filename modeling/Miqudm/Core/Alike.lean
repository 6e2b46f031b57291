/-
Runs that an observer cannot tell apart.

An `Observer` sees a state, and an event, with some parts blanked. `Alike O x y` compares two programs through his eyes:
from states that look alike their runs look alike, moment by moment, and they return the same value, or halt for the same
reason, in states that look alike. When `y` is `x` on another input, the observer learns nothing about the input. There
is a rule for every constructor. A test on the state is the same in both runs when it does not depend on the blanked
parts (`alike_read`), and a step that commutes with the blanking shows nothing new (`alike_act`).

Nothing here depends on what the states and events are.
-/
import Miqudm.Core.Prog

namespace Miqudm.Core

/-- what is left of a state and of an event when the hidden parts are blanked -/
structure Observer (σ η : Type) where
  state : σ → σ
  event : η → η

variable {σ τ η ζ ε α β : Type}

/-- what an observer sees of a log -/
def Observer.log (O : Observer σ η) (l : List (η × σ)) : List (η × σ) := l.map fun p => (O.event p.1, O.state p.2)

theorem Observer.log_append (O : Observer σ η) (l l' : List (η × σ)) : O.log (l ++ l') = O.log l ++ O.log l' :=
  List.map_append

namespace Prog

/-- two runs that look alike -/
structure LooksLike (O : Observer σ η) (o o' : Out σ η ε α) : Prop where
  log : O.log o.log = O.log o'.log
  fin : o.fin = o'.fin
  st : O.state o.st = O.state o'.st

def Alike (O : Observer σ η) (x y : Prog σ η ε α) : Prop :=
  ∀ s t, O.state s = O.state t → LooksLike O (x s) (y t)

section Alike

variable {O : Observer σ η}

theorem alike_pure (a : α) : Alike O (pure a : Prog σ η ε α) (pure a) := fun _ _ h => ⟨rfl, rfl, h⟩

theorem alike_halt (e : ε) : Alike O (halt e : Prog σ η ε α) (halt e) := fun _ _ h => ⟨rfl, rfl, h⟩

theorem alike_bind {x y : Prog σ η ε β} {f g : β → Prog σ η ε α} (hx : Alike O x y) (hf : ∀ b, Alike O (f b) (g b)) :
    Alike O (x >>= f) (y >>= g) := by
  intro s t hst
  have h := hx s t hst
  simp only [bind]
  generalize x s = o at h ⊢
  generalize y t = o' at h ⊢
  obtain ⟨l, e | b, u⟩ := o
  · obtain ⟨l', e' | b', v⟩ := o'
    · exact ⟨h.log, congrArg Except.error (Except.error.inj h.fin), h.st⟩
    · cases h.fin
  · obtain ⟨l', e' | b', v⟩ := o'
    · cases h.fin
    · obtain rfl : b = b' := Except.ok.inj h.fin
      have hrest := hf b u v h.st
      have hlog : O.log (l ++ (f b u).log) = O.log (l' ++ (g b v).log) := by
        rw [O.log_append, O.log_append, hrest.log]
        exact congrArg (· ++ _) h.log
      exact ⟨hlog, hrest.fin, hrest.st⟩

theorem alike_get_bind {f g : σ → Prog σ η ε α} (h : ∀ s t, O.state s = O.state t → Alike O (f s) (g t)) :
    Alike O (get >>= f) (get >>= g) := fun s t hst => h s t hst s t hst

/-- what follows does not depend on what is blanked -/
theorem alike_read {f g : σ → Prog σ η ε α} (hg : ∀ s, g (O.state s) = g s) (h : ∀ s, Alike O (f s) (g s)) :
    Alike O (get >>= f) (get >>= g) := by
  refine alike_get_bind fun s t hst => ?_
  have ht : g t = g s := by rw [← hg t, ← hst, hg s]
  exact ht ▸ h s

/-- two steps that change what is seen in the same way -/
theorem alike_acts {e e' : η} {f g k : σ → σ} (he : O.event e = O.event e') (hf : ∀ s, O.state (f s) = k (O.state s))
    (hg : ∀ s, O.state (g s) = k (O.state s)) : Alike O (act e f : Prog σ η ε Unit) (act e' g) := by
  intro s t hst
  have hseen : O.state (f s) = O.state (g t) := by rw [hf, hg, hst]
  have hlog : O.log [(e, f s)] = O.log [(e', g t)] := by
    simp only [Observer.log, List.map_cons, List.map_nil, he, hseen]
  exact ⟨hlog, rfl, hseen⟩

/-- a step that commutes with the blanking -/
theorem alike_act {e : η} {f : σ → σ} (hf : ∀ s, O.state (f s) = f (O.state s)) :
    Alike O (act e f : Prog σ η ε Unit) (act e f) := alike_acts rfl hf hf

theorem alike_ite {c : Prop} [Decidable c] {x x' y y' : Prog σ η ε α} (hx : Alike O x x') (hy : Alike O y y') :
    Alike O (if c then x else y) (if c then x' else y') := by
  split_ifs
  · exact hx
  · exact hy

theorem alike_when {c : Prop} [Decidable c] {x y : Prog σ η ε Unit} (hx : Alike O x y) :
    Alike O (when c x) (when c y) := alike_ite hx (alike_pure ())

/-- two tests that come out alike -/
theorem alike_tests {c c' : Prop} [Decidable c] [Decidable c'] (hc : c ↔ c') {x x' y y' : Prog σ η ε α}
    (hx : Alike O x x') (hy : Alike O y y') : Alike O (if c then x else y) (if c' then x' else y') := by
  by_cases h : c
  · rw [if_pos h, if_pos (hc.1 h)]
    exact hx
  · rw [if_neg h, if_neg (mt hc.2 h)]
    exact hy

theorem alike_loop {x y : Prog σ η ε Bool} {cut : ε} (h : Alike O x y) :
    ∀ n, Alike O (loop cut x n) (loop cut y n) := by
  intro n
  induction n with
  | zero => exact alike_halt cut
  | succ n ih => exact alike_bind h fun b => alike_ite ih (alike_pure ())

/-- two programs on a component, alike in the eyes of somebody who sees no less of it -/
theorem alike_zoom {O' : Observer τ ζ} {view : σ → τ} {put : τ → σ → σ} {ev : ζ → η} {x y : Prog τ ζ Empty α}
    (h : Alike O' x y) (hview : ∀ s t, O.state s = O.state t → O'.state (view s) = O'.state (view t))
    (hev : ∀ e e', O'.event e = O'.event e' → O.event (ev e) = O.event (ev e'))
    (hput : ∀ p q s t, O'.state p = O'.state q → O.state s = O.state t → O.state (put p s) = O.state (put q t)) :
    Alike O (zoom view put ev x : Prog σ η ε α) (zoom view put ev y) := by
  intro s t hst
  have hrun := h (view s) (view t) (hview s t hst)
  simp only [zoom]
  generalize x (view s) = o at hrun ⊢
  generalize y (view t) = o' at hrun ⊢
  obtain ⟨l, e | a, p⟩ := o
  · exact e.elim
  · obtain ⟨l', e' | a', q⟩ := o'
    · exact e'.elim
    · refine ⟨?_, congrArg Except.ok (Except.ok.inj hrun.fin), hput p q s t hrun.st hst⟩
      have hlog := hrun.log
      clear hrun
      induction l generalizing l' with
      | nil =>
        cases l' with
        | nil => rfl
        | cons p' l' => cases hlog
      | cons p l ih =>
        cases l' with
        | nil => cases hlog
        | cons p' l' =>
          obtain ⟨hp, hl⟩ := List.cons.inj hlog
          have hmoment : (O.event (ev p.1), O.state (put p.2 s)) = (O.event (ev p'.1), O.state (put p'.2 t)) := by
            rw [hev _ _ (congrArg Prod.fst hp), hput _ _ _ _ (congrArg Prod.snd hp) hst]
          exact congrArg₂ List.cons hmoment (ih l' hl)

end Alike

end Prog

end Miqudm.Core
