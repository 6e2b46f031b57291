/-
Monitors that mirror a part of the state.

`Mirrors v M x`: a monitor `M` that starts where the view `v` of the state is accepts the run of `x`, and when `x`
returns it is where the view is then. On the way the two may part: the state may have changed and no event have shown it
yet. There is a rule for every constructor; parts of a footprint that leaves both alone are mirrored (`Within.mirrors`),
and so is a loop whose turns are.

Nothing here depends on what the states and events are.
-/
import Miqudm.Core.Prog

namespace Miqudm.Core

namespace Prog

variable {σ η ε κ α β : Type}

def Mirrors (v : σ → κ) (M : Monitor η σ ε κ) (x : Prog σ η ε α) : Prop :=
  ∀ s, Watched M (v s) x s fun k _ t => k = v t

section Mirrors

variable {v : σ → κ} {M : Monitor η σ ε κ}

theorem mirrors_pure (a : α) : Mirrors v M (pure a : Prog σ η ε α) := fun _ => watched_pure rfl

theorem mirrors_bind {x : Prog σ η ε β} {f : β → Prog σ η ε α} (hx : Mirrors v M x) (hf : ∀ b, Mirrors v M (f b)) :
    Mirrors v M (x >>= f) := by
  intro s
  apply Watched.seq (hx s)
  intro k b t hk
  subst hk
  exact hf b t

theorem mirrors_get_bind {f : σ → Prog σ η ε α} (h : ∀ s, Mirrors v M (f s)) : Mirrors v M (get >>= f) :=
  fun s => watched_bind (watched_get (h s s))

theorem mirrors_ite {c : Prop} [Decidable c] {x y : Prog σ η ε α} (hx : Mirrors v M x) (hy : Mirrors v M y) :
    Mirrors v M (if c then x else y) := fun s => watched_ite (fun _ => hx s) fun _ => hy s

theorem mirrors_loop {body : Prog σ η ε Bool} {cut : ε} (hcut : ∀ k, M.stops k cut) (h : Mirrors v M body) :
    ∀ n, Mirrors v M (loop cut body n) := by
  intro n s
  refine watched_loop (I := fun k t => k = v t) (fun k _ _ => hcut k) ?_ n (v s) s rfl
  intro _ t hk
  subst hk
  apply Watched.mono (h t)
  intro k b u hk
  cases b <;> exact hk

/-- a part that leaves the view alone, and whose events leave the monitor alone -/
theorem Within.mirrors {F : Footprint σ η ε} {x : Prog σ η ε α} (h : Within F x)
    (hM : ∀ s e t, F.allow e t → F.rel s t → M.good (v s) e t ∧ M.step (v s) e = v s)
    (hrel : ∀ s t, F.rel s t → v s = v t) (hstops : ∀ k e, F.halts e → M.stops k e) : Mirrors v M x := by
  intro s
  refine Watched.mono (Within.watched (J := fun k => k = v s) h rfl ?_ fun k e _ => hstops k e) ?_
  · intro _ e t hk he hr
    subst hk
    exact hM s e t he hr
  · intro k _ t ⟨hk, hr⟩
    rw [hk, hrel s t hr]

end Mirrors

end Prog

end Miqudm.Core
