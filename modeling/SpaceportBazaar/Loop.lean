import Mathlib.Data.List.Basic

namespace Loop

variable {ω α σ : Type*} {xs : List α} {body : α → σ → Except ω (ForInStep σ)} {s t : σ}

/-- What a round must establish: the invariant for the elements still to come if the
loop goes on, the loop's result if it ends here. -/
def Establishes (I Q : σ → Prop) : ForInStep σ → Prop
  | .yield t => I t
  | .done t => Q t

/-- The rule for a loop that may stop early or raise: with an invariant that speaks of
the elements still to come, and that no round raises under, the loop returns. -/
theorem returns {I : List α → σ → Prop} {Q : σ → Prop} (start : I xs s) (round :
      ∀ x rest s, I (x :: rest) s → ∃ step, body x s = .ok step ∧ Establishes (I rest) Q step)
    (finish : ∀ s, I [] s → Q s) : ∃ t, forIn xs s body = .ok t ∧ Q t := by
  induction xs generalizing s with
  | nil => exact ⟨s, rfl, finish s start⟩
  | cons x rest ih =>
    obtain ⟨step, hb, hstep⟩ := round x rest s start
    rw [List.forIn_cons, hb]
    cases step with
    | done u => exact ⟨u, rfl, hstep⟩
    | yield u => exact ih hstep

/-- The rule for a loop known to have returned. -/
theorem ensures {I : List α → σ → Prop}
    {Q : σ → Prop} (h : forIn xs s body = .ok t) (start : I xs s)
    (round : ∀ x rest s step, I (x :: rest) s → body x s = .ok step → Establishes (I rest) Q step)
    (finish : ∀ s, I [] s → Q s) : Q t := by
  induction xs generalizing s with
  | nil =>
    cases Except.ok.inj h
    exact finish _ start
  | cons x rest ih =>
    rw [List.forIn_cons] at h
    cases hb : body x s with
    | error w =>
      rw [hb] at h
      cases h
    | ok step =>
      rw [hb] at h
      have hstep := round x rest s step start hb
      cases step with
      | done u =>
        cases Except.ok.inj h
        exact hstep
      | yield u => exact ih h hstep

/-- What every round keeps, a loop that has returned has kept. -/
theorem keeps {P : σ → Prop} (h : forIn xs s body = .ok t) (start : P s)
    (round : ∀ x s step, P s → body x s = .ok step → Establishes P P step) : P t :=
  ensures (I := fun _ => P) h start (fun x _ s step => round x s step) fun _ hs => hs

end Loop
