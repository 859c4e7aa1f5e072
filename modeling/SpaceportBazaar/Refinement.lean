import SpaceportBazaar.Machine

namespace Machine

variable {σ τ ε δ : Type*}

/-- Where its invariant holds, a step of the coarse machine is a run of the fine
one, seen through `view`. -/
def Unfolds (coarse : σ → ε → σ → Prop) (fine : τ → δ → τ → Prop) (view : σ → τ)
    (I : σ → Prop) : Prop :=
  ∀ s l t, I s → coarse s l t → I t ∧ ∃ ms, Run fine (view s) ms (view t)

variable {coarse : σ → ε → σ → Prop} {fine : τ → δ → τ → Prop} {view : σ → τ} {I : σ → Prop}
  {s t : σ} {l : ε}

/-- What the fine machine keeps, a step of the coarse one keeps. -/
theorem Unfolds.step_keeps {P : τ → Prop} (h : Unfolds coarse fine view I) (hs : I s)
    (hstep : coarse s l t) (hP : P (view s)) (preserve : ∀ a m b, P a → fine a m b → P b) :
    I t ∧ P (view t) := by
  obtain ⟨ht, ms, hfine⟩ := h s l t hs hstep
  exact ⟨ht, hfine.preserves hP preserve⟩

end Machine
