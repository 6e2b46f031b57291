/-
A place with one tenant at a time.

`Deed τ` is what an event does to the place: a tenant enters a vacant place, an event meets the tenant (who may change,
or leave, by it), an event needs the place vacant, or it is no matter of the place. `Tenancy.monitor` reads a log of
events through a reading `deed : η → Deed τ`.

- `enters_add_tenant`: in an accepted log the tenants who entered, and the one who was there before, are those who left
  and the one who is still there;
- `entered_before`: whoever an event meets has entered before it, and nobody has left since;
- `vacated_between`: between two entries somebody left.

Nothing here depends on what the events and tenants are.
-/
import Miqudm.Core.Prog
import Mathlib.Data.List.Induction

namespace Miqudm.Core

open Prog

/-- what an event does to a place -/
inductive Deed (τ : Type) where
  | enter (t : τ)
  /-- the tenant is one that `may` allows, and becomes `f` of it: `none` when it leaves -/
  | meet (may : τ → Prop) (f : τ → Option τ)
  | vacant
  | pass

namespace Tenancy

variable {τ η σ ε : Type}

def step (k : Option τ) : Deed τ → Option τ
  | .enter t => some t
  | .meet _ f => k.bind f
  | .vacant => k
  | .pass => k

/-- a tenant enters a vacant place only, and is there for the events that meet it -/
def good (k : Option τ) : Deed τ → Prop
  | .enter _ => k = none
  | .meet may _ => ∃ t, k = some t ∧ may t
  | .vacant => k = none
  | .pass => True

def monitor (deed : η → Deed τ) : Monitor η σ ε (Option τ) where
  step k e := step k (deed e)
  good k e _ := good k (deed e)

/-- does the event let a tenant in? -/
def enters : Deed τ → Bool
  | .enter _ => true
  | _ => false

/-- does the tenant leave by the event? -/
def leaves (k : Option τ) (d : Deed τ) : Bool := k.isSome && (step k d).isNone

section Balance

variable {deed : η → Deed τ} {k : Option τ} {l : List (η × σ)}

def entersIn (deed : η → Deed τ) (l : List (η × σ)) : ℕ := l.countP fun p => enters (deed p.1)

/-- how often a tenant leaves in a log -/
def leavesIn (deed : η → Deed τ) : Option τ → List (η × σ) → ℕ
  | _, [] => 0
  | k, p :: l => (leaves k (deed p.1)).toNat + leavesIn deed (step k (deed p.1)) l

/-- one if there is a tenant -/
def tenants (k : Option τ) : ℕ := k.isSome.toNat

theorem enters_add_tenant_step {d : Deed τ} (h : good k d) :
    (enters d).toNat + tenants k = (leaves k d).toNat + tenants (step k d) := by
  cases d with
  | enter t =>
    have hk : k = none := h
    subst hk
    rfl
  | meet may f =>
    obtain ⟨t, rfl, -⟩ := h
    cases hf : f t <;> simp [enters, leaves, tenants, step, hf]
  | vacant => cases k <;> rfl
  | pass => cases k <;> rfl

/-- **The books balance.** Who was there or entered has left or is there. -/
theorem enters_add_tenant (h : (monitor deed : Monitor η σ ε (Option τ)).accepts k l) :
    entersIn deed l + tenants k =
      leavesIn deed k l + tenants ((monitor deed : Monitor η σ ε (Option τ)).after k l) := by
  induction l generalizing k with
  | nil => rfl
  | cons p l ih =>
    have hstep : (enters (deed p.1)).toNat + tenants k =
        (leaves k (deed p.1)).toNat + tenants (step k (deed p.1)) := enters_add_tenant_step h.1
    have hrest : entersIn deed l + tenants (step k (deed p.1)) = leavesIn deed (step k (deed p.1)) l +
        tenants ((monitor deed : Monitor η σ ε (Option τ)).after (step k (deed p.1)) l) := ih h.2
    have hcount : entersIn deed (p :: l) = entersIn deed l + (enters (deed p.1)).toNat := by
      rw [entersIn, List.countP_cons]
      cases enters (deed p.1) <;> rfl
    calc entersIn deed (p :: l) + tenants k
        = entersIn deed l + ((leaves k (deed p.1)).toNat + tenants (step k (deed p.1))) := by rw [hcount]; omega
      _ = (leaves k (deed p.1)).toNat + (leavesIn deed (step k (deed p.1)) l +
            tenants ((monitor deed : Monitor η σ ε (Option τ)).after (step k (deed p.1)) l)) := by omega
      _ = leavesIn deed k (p :: l) + tenants ((monitor deed : Monitor η σ ε (Option τ)).after k (p :: l)) :=
          (Nat.add_assoc _ _ _).symm

theorem leavesIn_append (l l' : List (η × σ)) : leavesIn deed k (l ++ l') =
    leavesIn deed k l + leavesIn deed ((monitor deed : Monitor η σ ε (Option τ)).after k l) l' := by
  induction l generalizing k with
  | nil => exact (Nat.zero_add _).symm
  | cons p l ih =>
    have hrest : leavesIn deed (step k (deed p.1)) (l ++ l') = _ := ih
    exact (congrArg _ hrest).trans (Nat.add_assoc _ _ _).symm

/-- **Whoever is there has entered.** The last entry let in a tenant who has become the present one without leaving; what
no event changes of a tenant is the same of both. -/
theorem entered_before {κ : Type} {g : τ → κ} (hg : ∀ e may f, deed e = .meet may f → ∀ t t', f t = some t' → g t' = g t)
    (h : (monitor deed : Monitor η σ ε (Option τ)).accepts none l) {t : τ}
    (ht : (monitor deed : Monitor η σ ε (Option τ)).after none l = some t) :
    ∃ (pre post : List (η × σ)) (p : η × σ) (t₀ : τ), l = pre ++ p :: post ∧ deed p.1 = .enter t₀ ∧ g t₀ = g t ∧
      entersIn deed post = 0 ∧ leavesIn deed (some t₀) post = 0 := by
  induction l using List.reverseRecOn generalizing t with
  | nil => cases ht
  | append_singleton l q ih =>
    rw [Monitor.accepts_append] at h
    obtain ⟨hl, hq, -⟩ := h
    rw [Monitor.after_append] at ht
    generalize hk : (monitor deed : Monitor η σ ε (Option τ)).after none l = k at ht hq
    have hgood : good k (deed q.1) := hq
    have hafter : step k (deed q.1) = some t := ht
    -- a tenant who was there before `q` has entered before it
    have past : ∀ {t'}, k = some t' → enters (deed q.1) = false → g t' = g t →
        ∃ (pre post : List (η × σ)) (p : η × σ) (t₀ : τ), l ++ [q] = pre ++ p :: post ∧ deed p.1 = .enter t₀ ∧
          g t₀ = g t ∧ entersIn deed post = 0 ∧ leavesIn deed (some t₀) post = 0 := by
      intro t' hk' hno hsame
      obtain ⟨pre, post, p, t₀, rfl, hp, hg', hin, hout⟩ := ih hl (hk.trans hk')
      have hmid : (monitor deed : Monitor η σ ε (Option τ)).after (some t₀) post = some t' := by
        rw [Monitor.after_append, Monitor.after_cons] at hk
        have henter : (monitor deed : Monitor η σ ε (Option τ)).step
            ((monitor deed : Monitor η σ ε (Option τ)).after none pre) p.1 = some t₀ := by
          show step _ (deed p.1) = _
          rw [hp]
          rfl
        rw [henter] at hk
        exact hk.trans hk'
      refine ⟨pre, post ++ [q], p, t₀, by simp, hp, hg'.trans hsame, ?_, ?_⟩
      · rw [entersIn, List.countP_append]
        simp only [List.countP_singleton, hno, Bool.false_eq_true, if_false, Nat.add_zero]
        exact hin
      · have hstay : leaves (some t') (deed q.1) = false := by
          rw [leaves, ← hk', hafter]
          simp
        rw [leavesIn_append (ε := ε), hmid, hout]
        simp [leavesIn, hstay]
    cases hd : deed q.1 with
    | enter t₁ =>
      rw [hd] at hafter
      obtain rfl : t₁ = t := Option.some_inj.1 hafter
      exact ⟨l, [], q, t₁, rfl, hd, rfl, rfl, rfl⟩
    | meet may f =>
      rw [hd] at hgood hafter
      obtain ⟨t', rfl, -⟩ := hgood
      exact past rfl (by rw [hd]; rfl) (hg _ _ _ hd t' t hafter).symm
    | vacant =>
      rw [hd] at hafter
      exact past hafter (by rw [hd]; rfl) rfl
    | pass =>
      rw [hd] at hafter
      exact past hafter (by rw [hd]; rfl) rfl

/-- **One after another.** Between two entries a tenant left. -/
theorem vacated_between (h : (monitor deed : Monitor η σ ε (Option τ)).accepts k l) {pre mid post : List (η × σ)}
    {p q : η × σ} (hl : l = pre ++ p :: mid ++ q :: post) (hp : enters (deed p.1)) (hq : enters (deed q.1)) :
    0 < leavesIn deed (step ((monitor deed : Monitor η σ ε (Option τ)).after k pre) (deed p.1)) mid := by
  rw [hl, Monitor.accepts_append, Monitor.accepts_append, Monitor.accepts_cons] at h
  obtain ⟨⟨-, -, hmid⟩, hlast, -⟩ := h
  rw [Monitor.after_append, Monitor.after_cons] at hlast
  have hbooks := enters_add_tenant hmid
  have hvacant : ((monitor deed : Monitor η σ ε (Option τ)).after
      (step ((monitor deed : Monitor η σ ε (Option τ)).after k pre) (deed p.1)) mid) = none := by
    have hgood : good _ (deed q.1) := hlast
    cases hd : deed q.1 with
    | enter t =>
      rw [hd] at hgood
      exact hgood
    | _ => rw [hd] at hq; cases hq
  have hthere : tenants (step ((monitor deed : Monitor η σ ε (Option τ)).after k pre) (deed p.1)) = 1 := by
    cases hd : deed p.1 with
    | enter t => rfl
    | _ => rw [hd] at hp; cases hp
  rw [show (monitor deed : Monitor η σ ε (Option τ)).step ((monitor deed : Monitor η σ ε (Option τ)).after k pre) p.1 =
    step ((monitor deed : Monitor η σ ε (Option τ)).after k pre) (deed p.1) from rfl, hvacant, hthere] at hbooks
  simp only [tenants, Option.isSome_none, Bool.toNat_false, Nat.add_zero] at hbooks
  omega

end Balance

end Tenancy

end Miqudm.Core
