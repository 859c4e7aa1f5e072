import Mathlib.Data.Int.Log
import Mathlib.Data.Rat.Floor
import Mathlib.Algebra.Order.Floor.Ring
import Mathlib.Algebra.Order.Field.Power
import Mathlib.Tactic.FieldSimp
import Mathlib.Tactic.Linarith
import Mathlib.Tactic.NormNum
import Mathlib.Tactic.Positivity
import Mathlib.Tactic.Ring

namespace Binary64

/-- The integer nearest a number, ties to even. -/
def nearest (x : ℚ) : Int :=
  let rest := x - ⌊x⌋
  if rest < 1 / 2 ∨ (rest = 1 / 2 ∧ ⌊x⌋ % 2 = 0) then ⌊x⌋ else ⌊x⌋ + 1

section Nearest

variable {x y : ℚ}

theorem nearest_near (x : ℚ) : |x - nearest x| ≤ 1 / 2 := by
  have hlow := Int.floor_le x
  have hhigh := Int.lt_floor_add_one x
  unfold nearest
  dsimp only
  split_ifs with h
  · rw [abs_le]
    constructor
    · linarith
    · rcases h with h | h <;> linarith [h]
  · push Not at h
    rw [abs_le]
    push_cast
    constructor <;> linarith [h.1]

theorem nearest_of_near {n : Int} (h : |x - n| < 1 / 2) : nearest x = n := by
  have hnear := nearest_near x
  rw [abs_lt] at h
  rw [abs_le] at hnear
  have hbelow : (nearest x : ℚ) < (n + 1 : Int) := by
    push_cast
    linarith
  have habove : ((n - 1 : Int) : ℚ) < nearest x := by
    push_cast
    linarith
  have := Int.cast_lt.mp hbelow
  have := Int.cast_lt.mp habove
  omega

@[simp] theorem nearest_intCast (n : Int) : nearest n = n := nearest_of_near (by norm_num)

theorem nearest_mono (h : x ≤ y) : nearest x ≤ nearest y := by
  have hfloor : ⌊x⌋ ≤ ⌊y⌋ := Int.floor_mono h
  have hup : ∀ z : ℚ, nearest z ≤ ⌊z⌋ + 1 := by
    intro z
    unfold nearest
    dsimp only
    split_ifs <;> omega
  have hdown : ∀ z : ℚ, ⌊z⌋ ≤ nearest z := by
    intro z
    unfold nearest
    dsimp only
    split_ifs <;> omega
  by_cases hsame : ⌊x⌋ = ⌊y⌋
  · unfold nearest
    simp only [hsame]
    split_ifs with hx hy hy
    · exact le_rfl
    · omega
    · refine absurd ?_ hx
      rcases hy with hy | hy
      · exact Or.inl (by linarith)
      · rcases lt_or_eq_of_le (show x - ⌊y⌋ ≤ 1 / 2 by linarith [hy.1]) with hless | heq
        · exact Or.inl hless
        · exact Or.inr ⟨heq, hy.2⟩
    · exact le_rfl
  · have := hup x
    have := hdown y
    omega

/-- No other integer is nearer. -/
theorem nearest_le (x : ℚ) (n : Int) : |x - nearest x| ≤ |x - n| := by
  by_cases h : |x - n| < 1 / 2
  · rw [nearest_of_near h]
  · exact (nearest_near x).trans (not_lt.mp h)

end Nearest

/-- The exponent of the last of the 53 binary digits a number is rounded to. -/
def lastPlace (x : ℚ) : Int := Int.log 2 |x| - 52

/-- The double nearest a number, ties to even. The exponent has no bounds here. -/
def round (x : ℚ) : ℚ := nearest (x / 2 ^ lastPlace x) * 2 ^ lastPlace x

/-- The numbers that 53 binary digits write out. -/
def IsDouble (x : ℚ) : Prop := ∃ m e : Int, |m| ≤ 2 ^ 53 ∧ x = m * 2 ^ e

section Round

variable {x y : ℚ}

@[simp] theorem round_zero : round 0 = 0 := by
  have hnone : nearest ((0 : ℚ) / 2 ^ lastPlace 0) = 0 := by
    rw [zero_div]
    exact nearest_intCast 0
  rw [round, hnone, Int.cast_zero, zero_mul]

theorem scale_pos (x : ℚ) : (0 : ℚ) < 2 ^ lastPlace x := zpow_pos two_pos _

theorem lastPlace_mono (hx : 0 < |x|) (h : |x| ≤ |y|) : lastPlace x ≤ lastPlace y :=
  sub_le_sub_right (Int.log_mono_right hx h) 52

/-- Scaled to its last place, a number has 53 binary digits before the point. -/
theorem scaled_bounds (hx : x ≠ 0) :
    2 ^ 52 ≤ |x| / 2 ^ lastPlace x ∧ |x| / 2 ^ lastPlace x < 2 ^ 53 := by
  have hpos : 0 < |x| := abs_pos.mpr hx
  have hlow := Int.zpow_log_le_self (b := 2) one_lt_two hpos
  have hhigh := Int.lt_zpow_succ_log_self (b := 2) one_lt_two |x|
  have hscale := scale_pos x
  have hsplit : ∀ k : Int, (2 : ℚ) ^ (Int.log 2 |x| + k) = 2 ^ (52 + k) * 2 ^ lastPlace x := by
    intro k
    rw [← zpow_add₀ two_ne_zero, lastPlace]
    ring_nf
  rw [le_div_iff₀ hscale, div_lt_iff₀ hscale]
  constructor
  · have := hsplit 0
    simp only [add_zero] at this
    push_cast at hlow
    rw [this] at hlow
    exact_mod_cast hlow
  · have := hsplit 1
    push_cast at hhigh
    rw [this] at hhigh
    exact_mod_cast hhigh

theorem div_scale (x : ℚ) (e : Int) : x / 2 ^ e * 2 ^ e = x :=
  div_mul_cancel₀ x (zpow_ne_zero e two_ne_zero)

/-- A whole multiple of its last place is not changed. -/
theorem round_of_multiple {n : Int} (h : x = n * 2 ^ lastPlace x) : round x = x := by
  have hscaled : x / 2 ^ lastPlace x = n := (div_eq_iff (zpow_ne_zero _ two_ne_zero)).mpr h
  rw [round, hscaled, nearest_intCast]
  exact h.symm

theorem round_isDouble (x : ℚ) : IsDouble (round x) := by
  refine ⟨nearest (x / 2 ^ lastPlace x), lastPlace x, ?_, rfl⟩
  by_cases hx : x = 0
  · subst hx
    rw [zero_div, show ((0 : ℚ)) = ((0 : Int) : ℚ) from Int.cast_zero.symm, nearest_intCast]
    norm_num
  have hbound : |x / 2 ^ lastPlace x| ≤ ((2 ^ 53 : Int) : ℚ) := by
    rw [abs_div, abs_of_pos (scale_pos x)]
    exact_mod_cast (scaled_bounds hx).2.le
  rw [abs_le] at hbound ⊢
  constructor
  · have := nearest_mono hbound.1
    rwa [← Int.cast_neg, nearest_intCast] at this
  · have := nearest_mono hbound.2
    rwa [nearest_intCast] at this

theorem round_of_isDouble (h : IsDouble x) : round x = x := by
  by_cases hx : x = 0
  · rw [hx, round_zero]
  obtain ⟨m, e, hm, hvalue⟩ := h
  have habs : |x| = |(m : ℚ)| * 2 ^ e := by
    rw [hvalue, abs_mul, abs_of_pos (show (0 : ℚ) < 2 ^ e from zpow_pos two_pos e)]
  have hm' : |(m : ℚ)| ≤ 2 ^ 53 := by exact_mod_cast hm
  have hlow := (scaled_bounds hx).1
  rw [le_div_iff₀ (scale_pos x)] at hlow
  have hplace : lastPlace x ≤ e + 1 := by
    by_contra hlate
    have hscale : (2 : ℚ) ^ (e + 2) ≤ 2 ^ lastPlace x := zpow_le_zpow_right₀ one_le_two (by omega)
    rw [zpow_add₀ two_ne_zero] at hscale
    have hpos : (0 : ℚ) < 2 ^ e := zpow_pos two_pos e
    rw [habs] at hlow
    have := mul_le_mul_of_nonneg_right hm' hpos.le
    norm_num at hscale
    linarith
  rcases lt_or_eq_of_le hplace with hplace | hplace
  · obtain ⟨k, hk⟩ := Int.eq_ofNat_of_zero_le (show 0 ≤ e - lastPlace x by omega)
    refine round_of_multiple (n := m * 2 ^ k) (hvalue.trans ?_)
    push_cast
    rw [mul_assoc, ← zpow_natCast, ← zpow_add₀ two_ne_zero, ← hk, sub_add_cancel]
  · have hpos : (0 : ℚ) < 2 ^ e := zpow_pos two_pos e
    rw [hplace, zpow_add_one₀ two_ne_zero, habs] at hlow
    have hfull : (2 : ℚ) ^ 53 ≤ |(m : ℚ)| := by
      refine le_of_mul_le_mul_right ?_ hpos
      linarith
    have hfull : |m| = 2 ^ 53 := le_antisymm hm (by exact_mod_cast hfull)
    have hhalf : m = m / 2 * 2 := by
      rcases (abs_eq (by norm_num)).mp hfull with rfl | rfl <;> norm_num
    refine round_of_multiple (n := m / 2) ?_
    rw [hplace, zpow_add_one₀ two_ne_zero]
    have : (m : ℚ) = ((m / 2 : Int) : ℚ) * 2 := by exact_mod_cast hhalf
    refine hvalue.trans ?_
    rw [this]
    ring

theorem round_nonneg (h : 0 ≤ x) : 0 ≤ round x := by
  have := nearest_mono (div_nonneg h (scale_pos x).le)
  rw [show (0 : ℚ) = ((0 : Int) : ℚ) from Int.cast_zero.symm, nearest_intCast] at this
  exact mul_nonneg (by exact_mod_cast this) (scale_pos x).le

/-- Rounding keeps the order. -/
theorem round_mono (hx : 0 ≤ x) (h : x ≤ y) : round x ≤ round y := by
  rcases hx.eq_or_lt with rfl | hx
  · rw [round_zero]
    exact round_nonneg h
  have hy := hx.trans_le h
  have habs : |x| ≤ |y| := by rwa [abs_of_pos hx, abs_of_pos hy]
  rcases (lastPlace_mono (abs_pos.mpr hx.ne') habs).eq_or_lt with hplace | hplace
  · rw [round, round, hplace]
    have := Int.cast_le (R := ℚ).mpr (nearest_mono (div_le_div_of_nonneg_right h (scale_pos y).le))
    exact mul_le_mul_of_nonneg_right this (scale_pos y).le
  · have hbelow : (nearest (x / 2 ^ lastPlace x) : ℚ) ≤ 2 ^ 53 := by
      have := (scaled_bounds hx.ne').2.le
      rw [abs_of_pos hx] at this
      have := nearest_mono (this.trans_eq (show (2 : ℚ) ^ 53 = ((2 ^ 53 : Int) : ℚ) by norm_num))
      rw [nearest_intCast] at this
      exact_mod_cast this
    have habove : (2 : ℚ) ^ 52 ≤ nearest (y / 2 ^ lastPlace y) := by
      have := (scaled_bounds hy.ne').1
      rw [abs_of_pos hy] at this
      have := nearest_mono ((show ((2 ^ 52 : Int) : ℚ) = 2 ^ 52 by norm_num).trans_le this)
      rw [nearest_intCast] at this
      exact_mod_cast this
    have hscale : (2 : ℚ) ^ (lastPlace x + 1) ≤ 2 ^ lastPlace y :=
      zpow_le_zpow_right₀ one_le_two hplace
    rw [zpow_add_one₀ two_ne_zero] at hscale
    calc round x ≤ 2 ^ 53 * 2 ^ lastPlace x := mul_le_mul_of_nonneg_right hbelow (scale_pos x).le
      _ = 2 ^ 52 * (2 ^ lastPlace x * 2) := by ring
      _ ≤ 2 ^ 52 * 2 ^ lastPlace y := mul_le_mul_of_nonneg_left hscale (by norm_num)
      _ ≤ round y := mul_le_mul_of_nonneg_right habove (scale_pos y).le

theorem le_round (double : IsDouble x) (hx : 0 ≤ x) (h : x ≤ y) : x ≤ round y :=
  (round_of_isDouble double).symm.trans_le (round_mono hx h)

theorem round_le (double : IsDouble y) (hx : 0 ≤ x) (h : x ≤ y) : round x ≤ y :=
  (round_mono hx h).trans_eq (round_of_isDouble double)

/-- Rounding loses far less than a quarter. -/
theorem le_round_of_nonneg (hx : 0 ≤ x) : 3 / 4 * x ≤ round x := by
  rcases hx.eq_or_lt with rfl | hx
  · simp
  have hnear := (abs_le.mp (nearest_near (x / 2 ^ lastPlace x))).2
  have hlow := (scaled_bounds hx.ne').1
  rw [abs_of_pos hx] at hlow
  have hscaled : 3 / 4 * (x / 2 ^ lastPlace x) ≤ nearest (x / 2 ^ lastPlace x) := by
    norm_num at hlow
    linarith
  have := mul_le_mul_of_nonneg_right hscaled (scale_pos x).le
  rwa [mul_assoc, div_scale] at this

theorem round_pos (hx : 0 < x) : 0 < round x := by
  have := le_round_of_nonneg hx.le
  linarith

/-- A double that is not smaller than another number's leading digit is a
multiple of its last place. -/
theorem multiple_of_le (double : IsDouble y) (h : (2 : ℚ) ^ (lastPlace x + 52) ≤ y) :
    ∃ n : Int, y = n * 2 ^ lastPlace x := by
  have hy : 0 < y := (zpow_pos two_pos _).trans_le h
  have hplace : lastPlace x ≤ lastPlace y := by
    have := (Int.zpow_le_iff_le_log (b := 2) one_lt_two hy).mp h
    unfold lastPlace at this ⊢
    rw [abs_of_pos hy]
    omega
  obtain ⟨k, hk⟩ := Int.eq_ofNat_of_zero_le (show 0 ≤ lastPlace y - lastPlace x by omega)
  refine ⟨nearest (y / 2 ^ lastPlace y) * 2 ^ k, ?_⟩
  push_cast
  rw [mul_assoc, ← zpow_natCast, ← zpow_add₀ two_ne_zero, ← hk, sub_add_cancel]
  exact (round_of_isDouble double).symm

/-- No double is nearer to a number than the one it is rounded to. -/
theorem round_nearest (hx : 0 < x) (double : IsDouble y) : |x - round x| ≤ |x - y| := by
  have hmultiple : ∀ n : Int, |x - round x| ≤ |x - n * 2 ^ lastPlace x| := by
    intro n
    have hn := nearest_le (x / 2 ^ lastPlace x) n
    have hscale : ∀ z :
        ℚ, |x - z * 2 ^ lastPlace x| = |x / 2 ^ lastPlace x - z| * 2 ^ lastPlace x := by
      intro z
      rw [← abs_of_pos (scale_pos x), ← abs_mul, abs_of_pos (scale_pos x), sub_mul, div_scale]
    rw [round, hscale, hscale]
    exact mul_le_mul_of_nonneg_right hn (scale_pos x).le
  by_cases hy : (2 : ℚ) ^ (lastPlace x + 52) ≤ y
  · obtain ⟨n, rfl⟩ := multiple_of_le double hy
    exact hmultiple n
  · have hlead : ((2 ^ 52 : Int) : ℚ) * 2 ^ lastPlace x = 2 ^ (lastPlace x + 52) := by
      rw [add_comm, zpow_add₀ two_ne_zero]
      norm_num
    have hlow := (scaled_bounds hx.ne').1
    rw [le_div_iff₀ (scale_pos x), abs_of_pos hx] at hlow
    have hlow : (2 : ℚ) ^ (lastPlace x + 52) ≤ x := by
      rw [← hlead]
      exact_mod_cast hlow
    have := hmultiple (2 ^ 52)
    rw [hlead] at this
    refine this.trans ?_
    rw [abs_of_nonneg (by linarith), abs_of_nonneg (by linarith)]
    linarith

/-- What rounding takes off a sum, or adds to it, is a double if one of the doubles added is a
multiple of the last digit of the other. -/
theorem isDouble_error {m n k : Int} (hx : 0 ≤ x) (hy : 0 ≤ y) (dy : IsDouble y) (hm : |m| ≤ 2 ^ 53)
    (x_eq : x = m * 2 ^ k) (y_eq : y = n * 2 ^ k) : IsDouble (x + y - round (x + y)) := by
  rcases (add_nonneg hx hy).eq_or_lt with hzero | hpos
  · rw [← hzero, round_zero, sub_zero]
    exact ⟨0, 0, by norm_num, by norm_num⟩
  have hsum : x + y = (m + n : Int) * 2 ^ k := by
    rw [x_eq, y_eq]
    push_cast
    ring
  have hshift : ∀ (j : Nat) (a b : Int), b - a = j → (2 : ℚ) ^ b = 2 ^ j * 2 ^ a := by
    intro j a b h
    rw [← zpow_natCast, ← zpow_add₀ two_ne_zero, ← h, sub_add_cancel]
  rcases le_total (lastPlace (x + y)) k with hplace | hplace
  · obtain ⟨j, hj⟩ := Int.eq_ofNat_of_zero_le (show 0 ≤ k - lastPlace (x + y) by omega)
    have hexact : round (x + y) = x + y := by
      refine round_of_multiple (n := (m + n) * 2 ^ j) (hsum.trans ?_)
      rw [hshift j _ k hj]
      push_cast
      ring
    rw [hexact, sub_self]
    exact ⟨0, 0, by norm_num, by norm_num⟩
  · obtain ⟨j, hj⟩ := Int.eq_ofNat_of_zero_le (show 0 ≤ lastPlace (x + y) - k by omega)
    have herror : x + y - round (x + y) =
        (m + n - nearest ((x + y) / 2 ^ lastPlace (x + y)) * 2 ^ j : Int) * 2 ^ k := by
      unfold round
      rw [hshift j k _ hj]
      generalize nearest _ = q
      rw [hsum]
      push_cast
      ring
    refine ⟨_, k, ?_, herror⟩
    have hnear := round_nearest hpos dy
    have hsize : |x| = |(m : ℚ)| * |2 ^ k| := by rw [x_eq, abs_mul]
    rw [herror, add_sub_cancel_right, hsize, abs_mul] at hnear
    have := le_of_mul_le_mul_right hnear (abs_pos.mpr (zpow_ne_zero k two_ne_zero))
    have :
      |m + n - nearest ((x + y) / 2 ^ lastPlace (x + y)) * 2 ^ j| ≤ |m| := by exact_mod_cast this
    exact this.trans hm

/-- What is lost in adding two doubles is a double. -/
theorem isDouble_add_error (hx : 0 ≤ x) (hy : 0 ≤ y) (dx : IsDouble x) (dy : IsDouble y) :
    IsDouble (x + y - round (x + y)) := by
  obtain ⟨m, k, hm, hvalue⟩ := dx
  obtain ⟨n, l, hn, hvalue'⟩ := dy
  have hshift :
      ∀ (a b : Int) (q : Int), a ≤ b → (q : ℚ) * 2 ^ b = (q * 2 ^ (b - a).toNat : Int) * 2 ^ a := by
    intro a b q h
    push_cast
    rw [mul_assoc, ← zpow_natCast, ← zpow_add₀ two_ne_zero,
      Int.toNat_of_nonneg (by omega), sub_add_cancel]
  rcases le_total k l with h | h
  · exact isDouble_error hx hy ⟨n, l, hn, hvalue'⟩ hm hvalue (hvalue'.trans (hshift k l n h))
  · rw [add_comm]
    exact isDouble_error hy hx ⟨m, k, hm, hvalue⟩ hn hvalue' (hvalue.trans (hshift l k m h))

end Round

def ofNat (n : Nat) : ℚ := round n

def add (x y : ℚ) : ℚ := round (x + y)

def mul (x y : ℚ) : ℚ := round (x * y)

def div (x y : ℚ) : ℚ := round (x / y)

/-- A sum under way: the total so far, and what rounding it has lost. -/
structure Summed where
  total : ℚ
  lost : ℚ

/-- What one addition loses is itself a double, so it is found without a further rounding. -/
def Summed.add (s : Summed) (x : ℚ) : Summed :=
  let total := round (s.total + x)
  ⟨total, round (s.lost + (s.total + x - total))⟩

/-- The sum of doubles as an interpreter with compensated summation has it. -/
def sum (xs : List ℚ) : ℚ :=
  let s := xs.foldl Summed.add ⟨0, 0⟩
  round (s.total + s.lost)

section Sum

variable {x y : ℚ}

theorem Summed.add_zero {s : Summed} (total : IsDouble s.total) (lost : IsDouble s.lost) :
    s.add 0 = s := by
  simp [Summed.add, round_of_isDouble total, round_of_isDouble lost]

theorem Summed.first (double : IsDouble x) : (⟨0, 0⟩ : Summed).add x = ⟨x, 0⟩ := by
  simp [Summed.add, round_of_isDouble double]

theorem Summed.pair (hx : 0 ≤ x) (hy : 0 ≤ y) (dx : IsDouble x) (dy : IsDouble y) :
    (⟨x, 0⟩ : Summed).add y = ⟨round (x + y), x + y - round (x + y)⟩ := by
  simp only [Summed.add, zero_add, round_of_isDouble (isDouble_add_error hx hy dx dy)]

/-- Two doubles are summed as by one addition, -/
theorem sum_pair (hx : 0 ≤ x) (hy : 0 ≤ y) (dx : IsDouble x) (dy : IsDouble y) :
    sum [x, y] = round (x + y) := by
  simp [sum, Summed.first dx, Summed.pair hx hy dx dy]

/-- wherever a zero stands beside them. -/
theorem sum_with_zero (hx : 0 ≤ x) (hy : 0 ≤ y) (dx : IsDouble x) (dy : IsDouble y) :
    sum [0, x, y] = round (x + y) ∧ sum [x, 0, y] = round (x + y) ∧
    sum [x, y, 0] = round (x + y) := by
  have hzero : IsDouble 0 := ⟨0, 0, by norm_num, by norm_num⟩
  have hlost := isDouble_add_error hx hy dx dy
  simp [sum, Summed.first dx,
    Summed.first hzero, Summed.pair hx hy dx dy, @Summed.add_zero ⟨x, 0⟩ dx hzero,
    Summed.add_zero (s := ⟨round (x + y), x + y - round (x + y)⟩) (round_isDouble _) hlost]

end Sum

end Binary64
