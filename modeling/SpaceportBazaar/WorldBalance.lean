import SpaceportBazaar.World
import Mathlib.Algebra.BigOperators.Intervals
import Mathlib.Algebra.BigOperators.Ring.List
import Mathlib.Algebra.BigOperators.Ring.Finset
import Mathlib.Algebra.Order.Ring.Rat
import Mathlib.Algebra.Order.BigOperators.Group.Finset
import Mathlib.Algebra.Order.BigOperators.Group.List
import Mathlib.Tactic.Ring
import Mathlib.Tactic.Positivity

namespace SpaceportBazaar

/-- `sum(produce(tick, i) for tick in range(ticks) for i in producers)` -/
def producedOver (produce : Production) (producers : List Nat) (ticks : Nat) : Except Raised Int :=
  (List.range ticks).foldlM (fun total tick => producers.foldlM (fun total i => do
    let units ← produce tick i
    return total + units) total) 0

section Sums

theorem foldlM_add {α : Type} {f : α → Except Raised Int} {g : α → Int} {xs : List α}
    (h : ∀ x ∈ xs, f x = .ok (g x)) (start : Int) :
    xs.foldlM (fun total x => do return total + (← f x)) start = .ok (start + (xs.map g).sum) := by
  induction xs generalizing start with
  | nil => simp [pure, Except.pure]
  | cons x xs ih =>
    rw [List.foldlM_cons, h x List.mem_cons_self]
    show xs.foldlM _ (start + g x) = _
    rw [ih fun y hy => h y (List.mem_cons_of_mem x hy), List.map_cons, List.sum_cons, add_assoc]

/-- Adding up tick by tick and adding up producer by producer come to the same. -/
theorem sum_swap (made : Nat → Nat → Int) (producers : List Nat) (ticks : Nat) :
    ∑ tick ∈ Finset.range ticks, (producers.map (made tick)).sum =
      (producers.map fun i => ∑ tick ∈ Finset.range ticks, made tick i).sum := by
  induction producers with
  | nil => simp
  | cons i producers ih => simp only [List.map_cons, List.sum_cons, Finset.sum_add_distrib, ih]

theorem producedOver_eq {produce : Production} {producers : List Nat} {made : Nat → Nat → Int}
    (h : ∀ tick, ∀ i ∈ producers, produce tick i = .ok (made tick i)) (ticks : Nat) :
    producedOver produce producers ticks =
      .ok (producers.map fun i => ∑ tick ∈ Finset.range ticks, made tick i).sum := by
  have hround :
    ∀ total tick, producers.foldlM (fun total i => do return total + (← produce tick i)) total =
      .ok (total + (producers.map (made tick)).sum) := fun total tick => foldlM_add (h tick) total
  rw [← sum_swap]
  unfold producedOver
  induction ticks with
  | zero => rfl
  | succ ticks ih =>
    rw [List.range_succ, List.foldlM_append, ih, Finset.sum_range_succ]
    show ([ticks].foldlM (fun total tick =>
      producers.foldlM (fun total i => do return total + (← produce tick i)) total)
      (∑ tick ∈ Finset.range ticks, (producers.map (made tick)).sum) : Except Raised Int) = _
    rw [List.foldlM_cons, hround]
    rfl

/-- A list of sums grows as its terms do, and stays the same only if each of them does. -/
theorem sum_map_eq_iff {producers : List Nat} {low high : Nat → Int}
    (h : ∀ i ∈ producers, low i ≤ high i) :
    (producers.map high).sum = (producers.map low).sum ↔ ∀ i ∈ producers, high i = low i := by
  induction producers with
  | nil => simp
  | cons i producers ih =>
    have hi := h i List.mem_cons_self
    have hrest : ∀ j ∈ producers, low j ≤ high j := fun j hj => h j (List.mem_cons_of_mem i hj)
    have hle : (producers.map low).sum ≤ (producers.map high).sum := List.sum_le_sum hrest
    have hiff := ih hrest
    rw [List.map_cons, List.map_cons, List.sum_cons, List.sum_cons, List.forall_mem_cons, ← hiff]
    omega

/-- Cutting terms off at zero leaves a sum as it is just when none of them was negative. -/
theorem sum_clamped_eq_iff (f : Nat → Int) (n : Nat) :
    ∑ t ∈ Finset.range n, max 0 (f t) = ∑ t ∈ Finset.range n, f t ↔ ∀ t < n, 0 ≤ f t := by
  induction n with
  | zero => simp
  | succ n ih =>
    have hle : ∑ t ∈ Finset.range n, f t ≤ ∑ t ∈ Finset.range n, max 0 (f t) :=
      Finset.sum_le_sum fun t _ => le_max_right 0 (f t)
    rw [Finset.sum_range_succ, Finset.sum_range_succ, Nat.forall_lt_succ_right, ← ih]
    omega

end Sums

section Cycle

theorem swing_periodic (variation i t : Nat) :
    swing variation (((36 + t) / phaseTicks + i) % 3) =
      swing variation ((t / phaseTicks + i) % 3) := by
  have hphase : ((36 + t) / phaseTicks + i) % 3 = (t / phaseTicks + i) % 3 := by
    simp only [phaseTicks]
    omega
  rw [hphase]

theorem swing_phase (variation i p : Nat) :
    ∑ t ∈ Finset.range phaseTicks, swing variation (((phaseTicks * p + t) / phaseTicks + i) % 3) =
      phaseTicks * swing variation ((p + i) % 3) := by
  have hsame : ∀ t ∈ Finset.range phaseTicks,
      swing variation (((phaseTicks * p + t) / phaseTicks + i) % 3) =
      swing variation ((p + i) % 3) := by
    intro t ht
    have hdiv : (phaseTicks * p + t) / phaseTicks = p := by
      rw [Nat.mul_add_div (by decide), Nat.div_eq_of_lt (Finset.mem_range.mp ht), Nat.add_zero]
    rw [hdiv]
  rw [Finset.sum_congr rfl hsame, Finset.sum_const, Finset.card_range, nsmul_eq_mul]

theorem swing_phases (variation i phases : Nat) :
    ∑ t ∈ Finset.range (phaseTicks * phases), swing variation ((t / phaseTicks + i) % 3) =
      phaseTicks * ∑ p ∈ Finset.range phases, swing variation ((p + i) % 3) := by
  induction phases with
  | zero => simp
  | succ phases ih =>
    rw [Nat.mul_succ, Finset.sum_range_add, ih, swing_phase, Finset.sum_range_succ, mul_add]

/-- Over one cycle a producer is low, level and high for a phase each. -/
theorem swing_cycle (variation i : Nat) :
    ∑ t ∈ Finset.range 36, swing variation ((t / phaseTicks + i) % 3) = 0 := by
  have hthirds : ∑ p ∈ Finset.range 3, swing variation ((p + i) % 3) = 0 := by
    have hthree : i % 3 = 0 ∨ i % 3 = 1 ∨ i % 3 = 2 := by omega
    rcases hthree with h | h | h <;> simp [Finset.sum_range_succ, Nat.add_mod, h, swing]
  rw [show 36 = phaseTicks * 3 from rfl, swing_phases, hthirds, mul_zero]

theorem swing_cancels (variation i cycles : Nat) :
    ∑ t ∈ Finset.range (36 * cycles), swing variation ((t / phaseTicks + i) % 3) = 0 := by
  induction cycles with
  | zero => rfl
  | succ cycles ih =>
    rw [Nat.mul_succ, Nat.add_comm, Finset.sum_range_add, swing_cycle]
    simp only [swing_periodic, ih, add_zero]

variable {surplus : ℚ}

theorem truncate_of_nonneg {x : ℚ} (h : 0 ≤ x) : truncate x = ⌊x⌋ := if_pos h

theorem bonusAt_eq (pos : 0 ≤ surplus) (base tick : Nat) :
    bonusAt surplus base tick =
      ⌊((tick + 1 : Nat) : ℚ) * base * surplus⌋ - ⌊(tick : ℚ) * base * surplus⌋ := by
  unfold bonusAt
  rw [truncate_of_nonneg (by positivity), truncate_of_nonneg (by positivity)]

/-- What the surplus adds over some ticks is the whole of it, rounded down once. -/
theorem bonus_telescopes (pos : 0 ≤ surplus) (base ticks : Nat) :
    ∑ t ∈ Finset.range ticks, bonusAt surplus base t = ⌊(ticks : ℚ) * base * surplus⌋ := by
  induction ticks with
  | zero => simp
  | succ ticks ih =>
    rw [Finset.sum_range_succ, ih, bonusAt_eq pos]
    ring

theorem bonusAt_nonneg (pos : 0 ≤ surplus) (base tick : Nat) : 0 ≤ bonusAt surplus base tick := by
  rw [bonusAt_eq pos, sub_nonneg]
  refine Int.floor_le_floor ?_
  have hmore : (tick : ℚ) ≤ ((tick + 1 : Nat) : ℚ) := by exact_mod_cast Nat.le_succ tick
  gcongr

end Cycle

theorem sum_range_list (f : Nat → Nat) (n : Nat) :
    ((List.range n).map f).sum = ∑ k ∈ Finset.range n, f k := by
  induction n with
  | zero => rfl
  | succ n ih =>
    rw [List.range_succ, List.map_append, List.sum_append, ih, Finset.sum_range_succ]; simp

section Shares

variable {planets upkeep : Nat} {r : Resource}

/-- What a producer makes before surplus and swing. -/
def shareOf (planets upkeep i : Nat) : Nat := ((baseOutput planets upkeep).get? i).getD 0

theorem producers_ne_nil (three : 3 ≤ planets) (r : Resource) : producersOf planets r ≠ [] := by
  have hmem : r.value - 1 ∈ producersOf planets r := by
    refine List.mem_filter.mpr ⟨List.mem_range.mpr ?_, by cases r <;> decide⟩
    have hvalue : r.value ≤ 3 := by cases r <;> decide
    omega
  exact List.ne_nil_of_mem hmem

theorem splitNeed_keys (planets upkeep : Nat) (r : Resource) :
    (splitNeed planets upkeep r).map Prod.fst = producersOf planets r := by
  apply List.ext_getElem
  · simp [splitNeed]
  · intro i hi hj
    simp [splitNeed]

theorem allNeeds_nodup (planets upkeep : Nat) :
    ((Resource.all.flatMap (splitNeed planets upkeep)).map Prod.fst).Nodup := by
  rw [List.map_flatMap]
  simp only [splitNeed_keys]
  refine List.nodup_flatMap.mpr ⟨fun r _ => List.nodup_range.filter _, ?_⟩
  refine List.Pairwise.imp ?_ (show Resource.all.Nodup by decide)
  intro r r' hne i hi hi'
  have hr := of_decide_eq_true (List.mem_filter.mp hi).2
  have hr' := of_decide_eq_true (List.mem_filter.mp hi').2
  exact hne (hr.symm.trans hr')

theorem baseOutput_get? {i base : Nat} (h : (i, base) ∈ splitNeed planets upkeep r) :
    (baseOutput planets upkeep).get? i = some base :=
  Dict.get?_ofList_of_mem (allNeeds_nodup planets upkeep)
    (List.mem_flatMap.mpr ⟨r, Resource.mem_all r, h⟩)

theorem baseOutput_of_producer {i : Nat} (h : i ∈ producersOf planets r) :
    (baseOutput planets upkeep).get? i = some (shareOf planets upkeep i) := by
  rw [← splitNeed_keys planets upkeep r] at h
  obtain ⟨e, he, rfl⟩ := List.mem_map.mp h
  have hget := baseOutput_get? (show (e.1, e.2) ∈ splitNeed planets upkeep r from he)
  unfold shareOf
  rw [hget]
  rfl

theorem shares_eq (planets upkeep : Nat) (r : Resource) :
    (producersOf planets r).map (shareOf planets upkeep) =
      (splitNeed planets upkeep r).map Prod.snd := by
  rw [← splitNeed_keys planets upkeep r, List.map_map]
  refine List.map_congr_left fun e he => ?_
  show shareOf planets upkeep e.1 = e.2
  unfold shareOf
  rw [baseOutput_get? (show (e.1, e.2) ∈ splitNeed planets upkeep r from he)]
  rfl

theorem sum_extra (extra count : Nat) :
    ∑ rank ∈ Finset.range count, (if rank < extra then 1 else 0) = min extra count := by
  induction count with
  | zero => simp
  | succ count ih =>
    rw [Finset.sum_range_succ, ih]
    split <;> omega

/-- The producers of a resource together make what the world needs of it. -/
theorem shares_sum (three : 3 ≤ planets) (upkeep : Nat) (r : Resource) :
    ((producersOf planets r).map (shareOf planets upkeep)).sum = planets * upkeep := by
  have hpos : 0 < (producersOf planets r).length :=
    List.length_pos_iff.mpr (producers_ne_nil three r)
  have hsplit :
      (splitNeed planets upkeep r).map Prod.snd = (List.range (producersOf planets r).length).map
      (fun rank => planets * upkeep / (producersOf planets r).length +
        if rank < planets * upkeep % (producersOf planets r).length then 1 else 0) := by
    apply List.ext_getElem
    · simp [splitNeed]
    · intro i hi hj
      simp [splitNeed]
  have hextra := Nat.mod_lt (planets * upkeep) hpos
  have hdivision := Nat.div_add_mod (planets * upkeep) (producersOf planets r).length
  rw [shares_eq, hsplit, sum_range_list, Finset.sum_add_distrib, Finset.sum_const,
    Finset.card_range, sum_extra, nsmul_eq_mul, Nat.cast_id, Nat.min_eq_left hextra.le]
  exact hdivision

end Shares

section Balance

variable {planets ticks : Nat} {surplus : ℚ}

/-- What a producer would make of a tick if output could be negative. -/
def unclamped (planets upkeep variation : Nat) (surplus : ℚ) (tick i : Nat) : Int :=
  shareOf planets upkeep i + bonusAt surplus (shareOf planets upkeep i) tick +
    swing variation ((tick / phaseTicks + i) % 3)

theorem unclamped_total (pos : 0 ≤ surplus) (cycles : 36 ∣ ticks) (upkeep variation i : Nat) :
    ∑ tick ∈ Finset.range ticks, unclamped planets upkeep variation surplus tick i =
      ticks * shareOf planets upkeep i + ⌊(ticks : ℚ) * shareOf planets upkeep i * surplus⌋ := by
  obtain ⟨k, rfl⟩ := cycles
  unfold unclamped
  rw [Finset.sum_add_distrib, Finset.sum_add_distrib, swing_cancels, bonus_telescopes pos,
    Finset.sum_const, Finset.card_range, nsmul_eq_mul, add_zero]

/-- Only the low phase can bring output below zero. -/
theorem unclamped_nonneg_iff (pos : 0 ≤ surplus) (upkeep variation tick i : Nat) :
    0 ≤ unclamped planets upkeep variation surplus tick i ↔ ((tick / phaseTicks + i) % 3 = 0 →
      (variation : Int) ≤ shareOf planets upkeep i + bonusAt surplus
        (shareOf planets upkeep i) tick) := by
  have hbonus := bonusAt_nonneg pos (shareOf planets upkeep i) tick
  have hlt := Nat.mod_lt (tick / phaseTicks + i) (show 3 > 0 by decide)
  unfold unclamped
  generalize (tick / phaseTicks + i) % 3 = phase at hlt
  have hthree : phase = 0 ∨ phase = 1 ∨ phase = 2 := by omega
  rcases hthree with rfl | rfl | rfl <;> simp [swing] <;> omega

theorem balancedProduction_ok (three : 3 ≤ planets) (upkeep variation : Nat) (surplus : ℚ) :
    ∃ produce,
    balancedProduction planets upkeep variation surplus = .ok produce ∧
      ∀ r, ∀ tick, ∀ i ∈ producersOf planets r,
        produce tick i = .ok (max 0 (unclamped planets upkeep variation surplus tick i)) := by
  refine ⟨_, if_neg (not_lt.mpr three), fun r tick i hi => ?_⟩
  simp only [baseOutput_of_producer hi]
  rfl

theorem sum_shares_scaled (three : 3 ≤ planets) (upkeep : Nat) (r : Resource) :
    ((producersOf planets r).map fun i => (ticks : Int) * shareOf planets upkeep i).sum =
      ticks * planets * upkeep := by
  have hsum := congrArg (Nat.cast : Nat → Int) (shares_sum three upkeep r)
  rw [List.sum_map_mul_left, mul_assoc, ← Nat.cast_mul, ← hsum, Nat.cast_list_sum, List.map_map]
  rfl

/-- A resource is made as it is consumed, surplus and all, just when no low phase takes
more off a producer than it makes. -/
theorem balanced_iff (three : 3 ≤ planets) (pos : 0 ≤ surplus) (cycles : 36 ∣ ticks)
    (upkeep variation : Nat) (r : Resource) :
    ∃ produce, balancedProduction planets upkeep variation surplus = .ok produce ∧
      (producedOver produce (producersOf planets r) ticks =
        .ok (ticks * planets * upkeep +
          ((producersOf planets r).map fun i =>
            ⌊(ticks : ℚ) * shareOf planets upkeep i * surplus⌋).sum) ↔
      ∀ i ∈ producersOf planets r, ∀ tick < ticks, (tick / phaseTicks + i) % 3 = 0 →
        (variation : Int) ≤ shareOf planets upkeep i + bonusAt surplus
          (shareOf planets upkeep i) tick) := by
  obtain ⟨produce, hproduce, hmade⟩ := balancedProduction_ok three upkeep variation surplus
  have htotal : ticks * planets * upkeep +
      ((producersOf planets r).map fun i =>
      ⌊(ticks : ℚ) * shareOf planets upkeep i * surplus⌋).sum =
      ((producersOf planets r).map fun i =>
        ∑ tick ∈ Finset.range ticks, unclamped planets upkeep variation surplus tick i).sum := by
    simp only [unclamped_total pos cycles, List.sum_map_add, sum_shares_scaled three]
  have hle : ∀ i ∈ producersOf planets r,
      ∑ tick ∈ Finset.range ticks, unclamped planets upkeep variation surplus tick i ≤
      ∑ tick ∈ Finset.range ticks, max 0 (unclamped planets upkeep variation surplus tick i) :=
    fun i _ => Finset.sum_le_sum fun tick _ => le_max_right 0 _
  refine ⟨produce, hproduce, ?_⟩
  rw [producedOver_eq (hmade r), htotal, Except.ok.injEq, sum_map_eq_iff hle]
  refine forall₂_congr fun i _ => ?_
  rw [sum_clamped_eq_iff]
  exact forall₂_congr fun tick _ => unclamped_nonneg_iff pos upkeep variation tick i

/-- Three planets of base output three, swinging by two: in balance over a cycle. -/
theorem balanced_small_swing : ∃ produce, balancedProduction 3 1 2 0 = .ok produce ∧
    producedOver produce (producersOf 3 .water) 36 = .ok (36 * 3 * 1 +
      ((producersOf 3 .water).map fun i => ⌊(36 : ℚ) * shareOf 3 1 i * 0⌋).sum) := by
  obtain ⟨produce, hproduce, hiff⟩ :=
    @balanced_iff 3 36 0 (le_refl 3) (le_refl 0) (dvd_refl 36) 1 2 .water
  refine ⟨produce, hproduce, hiff.mpr fun i hi tick _ _ => ?_⟩
  have hbase : shareOf 3 1 i = 3 := by
    have hall : ∀ i ∈ producersOf 3 .water, shareOf 3 1 i = 3 := by decide +kernel
    exact hall i hi
  have hbonus := bonusAt_nonneg (le_refl 0) (shareOf 3 1 i) tick
  omega

/-- Swinging by five, the low phase is cut off at nothing and the world makes too much. -/
theorem wide_swing_overproduces : ∃ produce, balancedProduction 3 1 5 0 = .ok produce ∧
    producedOver produce (producersOf 3 .water) 36 = .ok 132 ∧
      producedOver produce (producersOf 3 .water) 36 ≠ .ok (36 * 3 * 1 +
        ((producersOf 3 .water).map fun i => ⌊(36 : ℚ) * shareOf 3 1 i * 0⌋).sum) := by
  refine ⟨_, rfl, ?_, ?_⟩
  · decide +kernel
  · decide +kernel

end Balance

end SpaceportBazaar
