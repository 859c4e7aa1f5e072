import Mathlib.Algebra.BigOperators.Group.List.Basic
import Mathlib.Algebra.Ring.Nat
import Mathlib.Data.Fintype.Basic

namespace SpaceportBazaar

inductive Resource
  | water | food | components
  deriving DecidableEq, Repr

def Resource.all : List Resource := [.water, .food, .components]

def Resource.value : Resource → Nat
  | .water => 1
  | .food => 2
  | .components => 3

def Resource.name : Resource → String
  | .water => "WATER"
  | .food => "FOOD"
  | .components => "COMPONENTS"

@[simp] theorem Resource.mem_all (r : Resource) :
    r ∈ Resource.all := by cases r <;> simp [Resource.all]

instance : Fintype Resource := ⟨⟨Resource.all, by decide⟩, Resource.mem_all⟩

/-- Exceptions the modelled code raises, with what their messages are built from. -/
inductive Raised
  | negativeBundleError (resource : Resource) (quantity : Int)
  | keyError (key : String)
  | valueError (message : String)
  | cannotAfford (message : String)
  | wireFormatError (message : String)
  | typeError (message : String)
  deriving DecidableEq, Repr

theorem bind_eq_ok_iff {ω α β : Type} {x : Except ω α} {f : α → Except ω β} {b : β} :
    (x >>= f) = .ok b ↔ ∃ a, x = .ok a ∧ f a = .ok b := by
  cases x with
  | error w => simp [bind, Except.bind]
  | ok a => simp [bind, Except.bind]

theorem toOption_eq_some_iff {ω α : Type} {x : Except ω α} {a : α} :
    x.toOption = some a ↔ x = .ok a := by
  cases x <;> simp [Except.toOption]

/-- Nonnegative in every resource by construction: `make` is where the source's
constructor raises. -/
@[ext] structure Bundle where
  water : Nat
  food : Nat
  components : Nat
  deriving DecidableEq, Repr

namespace Bundle

def get (b : Bundle) : Resource → Nat
  | .water => b.water
  | .food => b.food
  | .components => b.components

def ofFn (q : Resource → Nat) : Bundle := ⟨q .water, q .food, q .components⟩

def make (q : Resource → Int) : Except Raised Bundle :=
  match Resource.all.find? (fun r => q r < 0) with
  | some r => .error (.negativeBundleError r (q r))
  | none => .ok (ofFn (fun r => (q r).toNat))

def zero : Bundle := ⟨0, 0, 0⟩

def only (resource : Resource) (quantity : Nat) : Bundle :=
  ofFn (fun r => if r = resource then quantity else 0)

def single (resource : Resource) (quantity : Int) : Except Raised Bundle :=
  make (fun r => if r = resource then quantity else 0)

def add (a b : Bundle) : Bundle := ofFn (fun r => a.get r + b.get r)

def sub (a b : Bundle) : Except Raised Bundle := make (fun r => a.get r - b.get r)

def saturatingSub (a b : Bundle) : Bundle := ofFn (fun r => a.get r - b.get r)

def dominates (a b : Bundle) : Bool := Resource.all.all (fun r => b.get r ≤ a.get r)

def isZero (b : Bundle) : Bool := Resource.all.all (fun r => b.get r = 0)

def total (b : Bundle) : Nat := (Resource.all.map b.get).sum

theorem ext_get {a b : Bundle} (h : ∀ r, a.get r = b.get r) : a = b :=
  Bundle.ext (h .water) (h .food) (h .components)

@[simp] theorem get_ofFn (q : Resource → Nat) (r : Resource) : (ofFn q).get r = q r := by
  cases r <;> rfl

@[simp] theorem get_zero (r : Resource) : zero.get r = 0 := by cases r <;> rfl

@[simp] theorem get_only (resource r : Resource) (quantity : Nat) :
    (only resource quantity).get r = if r = resource then quantity else 0 := by simp [only]

@[simp] theorem get_saturatingSub (a b : Bundle) (r : Resource) :
    (a.saturatingSub b).get r = a.get r - b.get r := by simp [saturatingSub]

instance : Zero Bundle := ⟨zero⟩

instance : Add Bundle := ⟨add⟩

@[simp] theorem get_zero' (r : Resource) : (0 : Bundle).get r = 0 := get_zero r

@[simp] theorem get_add (a b : Bundle) (r : Resource) : (a + b).get r = a.get r + b.get r :=
  get_ofFn _ r

instance : AddCommMonoid Bundle where
  add_assoc a b c := ext_get (fun r => by simp [Nat.add_assoc])
  zero_add a := ext_get (fun r => by simp)
  add_zero a := ext_get (fun r => by simp)
  add_comm a b := ext_get (fun r => by simp [Nat.add_comm])
  nsmul := nsmulRec

instance : LE Bundle := ⟨fun a b => ∀ r, a.get r ≤ b.get r⟩

instance (a b : Bundle) : Decidable (a ≤ b) := inferInstanceAs (Decidable (∀ r, a.get r ≤ b.get r))

theorem le_iff {a b : Bundle} : a ≤ b ↔ ∀ r, a.get r ≤ b.get r := Iff.rfl

theorem only_le_only {resource : Resource} {m n : Nat} (h : m ≤ n) :
    only resource m ≤ only resource n := by
  intro r
  rw [get_only, get_only]
  split
  · exact h
  · exact Nat.le_refl 0

theorem dominates_iff {a b : Bundle} : a.dominates b = true ↔ b ≤ a := by
  simp [dominates, le_iff, List.all_eq_true]

theorem isZero_iff {b : Bundle} : b.isZero = true ↔ b = 0 := by
  constructor
  · intro h
    apply ext_get
    intro r
    simpa [isZero, List.all_eq_true] using List.all_eq_true.mp h r (Resource.mem_all r)
  · rintro rfl
    simp [isZero, List.all_eq_true]

theorem get_sum (bs : List Bundle) (r : Resource) :
    bs.sum.get r = (bs.map (fun b => b.get r)).sum := by
  induction bs with
  | nil => simp
  | cons b bs ih => simp [ih]

@[simp] theorem get_nsmul (n : Nat) (b : Bundle) (r : Resource) : (n • b).get r = n * b.get r := by
  induction n with
  | zero => simp
  | succ n ih => rw [succ_nsmul, get_add, ih, Nat.succ_mul]

@[simp] theorem total_only (resource : Resource) (quantity : Nat) :
    (only resource quantity).total = quantity := by
  cases resource <;> simp [total, Resource.all]

theorem total_eq_zero_iff {b : Bundle} : b.total = 0 ↔ b = 0 := by
  constructor
  · intro h
    have hsum : b.water + (b.food + b.components) = 0 := by
      simpa [total, Resource.all, get] using h
    exact Bundle.ext (by change b.water = 0; omega) (by change b.food = 0; omega)
      (by change b.components = 0; omega)
  · rintro rfl
    rfl

/-- The constructor succeeds exactly on nonnegative quantities, and keeps them. -/
theorem make_eq_ok_iff {q : Resource → Int} {b : Bundle} :
    make q = .ok b ↔ ∀ r, q r = b.get r := by
  unfold make
  split
  next r hr =>
    have hneg : q r < 0 := by simpa using List.find?_some hr
    constructor
    · intro h; simp at h
    · intro h
      have := h r
      omega
  next hr =>
    have hpos : ∀ r, 0 ≤ q r := by
      intro r
      simpa using List.find?_eq_none.mp hr r (Resource.mem_all r)
    constructor
    · intro h r
      cases Except.ok.inj h
      simp [hpos r]
    · intro h
      congr 1
      apply ext_get
      intro r
      simp [h r]

theorem make_ok {q : Resource → Int} {n : Resource → Nat} (h : ∀ r, q r = n r) :
    make q = .ok (ofFn n) := make_eq_ok_iff.mpr (fun r => by simp [h r])

theorem single_ok (resource : Resource) (quantity : Nat) :
    single resource quantity = .ok (only resource quantity) :=
  make_eq_ok_iff.mpr (fun r => by simp only [get_only]; split <;> simp)

theorem single_eq_ok_iff {resource : Resource} {quantity : Int} {b : Bundle} :
    single resource quantity = .ok b ↔ 0 ≤ quantity ∧ b = only resource quantity.toNat := by
  constructor
  · intro h
    have hq := make_eq_ok_iff.mp h resource
    have hpos : 0 ≤ quantity := by
      simp only [if_true] at hq
      omega
    refine ⟨hpos, ?_⟩
    obtain ⟨n, rfl⟩ := Int.eq_ofNat_of_zero_le hpos
    simpa [single_ok] using h.symm
  · rintro ⟨hpos, rfl⟩
    obtain ⟨n, rfl⟩ := Int.eq_ofNat_of_zero_le hpos
    simpa using single_ok resource n

/-- Strict subtraction succeeds exactly when the first bundle covers the second. -/
theorem sub_eq_ok_iff {a b c : Bundle} : a.sub b = .ok c ↔ b ≤ a ∧ c = a.saturatingSub b := by
  unfold sub
  rw [make_eq_ok_iff]
  constructor
  · intro h
    have hle : b ≤ a := fun r => by have := h r; omega
    refine ⟨hle, ext_get fun r => ?_⟩
    have := h r
    have := hle r
    simp only [get_saturatingSub]
    omega
  · rintro ⟨hle, rfl⟩ r
    have := hle r
    simp only [get_saturatingSub]
    omega

theorem sub_ok {a b : Bundle} (h : b ≤ a) : a.sub b = .ok (a.saturatingSub b) :=
  sub_eq_ok_iff.mpr ⟨h, rfl⟩

end Bundle

end SpaceportBazaar
