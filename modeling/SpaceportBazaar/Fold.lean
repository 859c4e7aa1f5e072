import Mathlib.Data.List.Induction

namespace Fold

variable {σ β : Type*} {f : σ → β → σ} {s : σ} {xs : List β} {x : β}

/-- A fold none of whose steps changes where it starts ends there. -/
theorem unchanged (h : ∀ y ∈ xs, f s y = s) : xs.foldl f s = s := by
  induction xs with
  | nil => rfl
  | cons y ys ih =>
    rw [List.foldl_cons, h y List.mem_cons_self]
    exact ih fun z hz => h z (List.mem_cons_of_mem y hz)

/-- What one step brings about, and no step undoes, holds at the end. -/
theorem settles {P : σ → Prop} (hx : x ∈ xs) (settle : ∀ s, P (f s x))
    (keep : ∀ s, ∀ y ∈ xs, P s → P (f s y)) :
    P (xs.foldl f s) := by
  obtain ⟨before, after, rfl⟩ := List.append_of_mem hx
  rw [List.foldl_append, List.foldl_cons]
  exact List.foldlRecOn (motive := P) after f (settle _) fun t ht y hy => keep t y (by simp [hy]) ht

/-- The rule for what a fold knows of all it has taken in so far. -/
theorem history {I : List β → σ → Prop} (start : I [] s)
    (step : ∀ past y later, xs = past ++ y :: later → I past (past.foldl f s) →
      I (past ++ [y]) (f (past.foldl f s) y)) : I xs (xs.foldl f s) := by
  suffices h : ∀ past later, xs = past ++ later → I past (past.foldl f s) from h xs [] (by simp)
  intro past
  induction past using List.reverseRecOn with
  | nil => exact fun _ _ => start
  | append_singleton past y ih =>
    intro later hxs
    have hsplit : xs = past ++ y :: later := by simpa using hxs
    rw [List.foldl_append]
    exact step past y later hsplit (ih (y :: later) hsplit)

/-- Where taking something in again changes nothing, neither does any number of times. -/
theorem repeated (again : ∀ s, f (f s x) x = f s x) (past later : List β) (n : Nat) :
    (past ++ List.replicate (n + 1) x ++ later).foldl f s = (past ++ x :: later).foldl f s := by
  have hall : ∀ t, (List.replicate (n + 1) x).foldl f t = f t x := by
    intro t
    rw [List.replicate_succ, List.foldl_cons]
    exact unchanged fun y hy => by rw [List.eq_of_mem_replicate hy, again]
  rw [List.foldl_append, List.foldl_append, hall, List.foldl_append, List.foldl_cons]

end Fold
