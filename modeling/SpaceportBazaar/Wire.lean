import Mathlib.Data.List.Basic
import Mathlib.Data.Nat.Basic

/-- An encoding that tells where it ends: whatever follows, the encoded value
and the rest can be told apart. -/
structure Code (α : Type*) where
  enc : α → List UInt8
  cancel : ∀ {a b r s}, enc a ++ r = enc b ++ s → a = b ∧ r = s

namespace Code

variable {α β : Type*}

theorem injective (c : Code α) {a b : α} (h : c.enc a = c.enc b) : a = b := by
  have hnil : c.enc a ++ [] = c.enc b ++ [] := by rw [h]
  exact (c.cancel hnil).1

def comap (c : Code β) (f : α → β) (hf : ∀ {a b}, f a = f b → a = b) : Code α where
  enc a := c.enc (f a)
  cancel h := by
    obtain ⟨hab, hr⟩ := c.cancel h
    exact ⟨hf hab, hr⟩

def pair (c : Code α) (d : Code β) : Code (α × β) where
  enc p := c.enc p.1 ++ d.enc p.2
  cancel {a b r s} h := by
    simp only [List.append_assoc] at h
    obtain ⟨hfst, h⟩ := c.cancel h
    obtain ⟨hsnd, hr⟩ := d.cancel h
    exact ⟨Prod.ext hfst hsnd, hr⟩

/-- A field is its tag byte followed by its value. -/
def field (tag : UInt8) (c : Code α) : Code α where
  enc a := tag :: c.enc a
  cancel h := c.cancel (List.cons.inj h).2

/-- Base 128, lowest group first; every byte but the last has its high bit set. -/
def varintBytes (n : Nat) : List UInt8 :=
  if n < 128 then [n.toUInt8] else (n % 128 + 128).toUInt8 :: varintBytes (n / 128)
termination_by n
decreasing_by omega

theorem toUInt8_inj {m n : Nat} (hm : m < 256) (hn : n < 256)
    (h : m.toUInt8 = n.toUInt8) : m = n := by
  have hnat := congrArg UInt8.toNat h
  simpa [Nat.mod_eq_of_lt hm, Nat.mod_eq_of_lt hn] using hnat

theorem varintBytes_cancel {m n : Nat} {r s : List UInt8}
    (h : varintBytes m ++ r = varintBytes n ++ s) : m = n ∧ r = s := by
  induction m using Nat.strongRecOn generalizing n with
  | ind m ih =>
    rw [varintBytes, varintBytes.eq_def n] at h
    split at h
    next hm =>
      split at h
      next hn =>
        obtain ⟨hb, hr⟩ := List.cons.inj h
        exact ⟨toUInt8_inj (by omega) (by omega) hb, hr⟩
      next hn =>
        have := toUInt8_inj (by omega) (by omega) (List.cons.inj h).1
        omega
    next hm =>
      split at h
      next hn =>
        have := toUInt8_inj (by omega) (by omega) (List.cons.inj h).1
        omega
      next hn =>
        obtain ⟨hb, ht⟩ := List.cons.inj h
        have hlow := toUInt8_inj (by omega) (by omega) hb
        obtain ⟨hhigh, hr⟩ := ih (m / 128) (by omega) ht
        exact ⟨by omega, hr⟩

def varint : Code Nat := ⟨varintBytes, varintBytes_cancel⟩

/-- Bytes behind their length. -/
def delimited : Code (List UInt8) where
  enc bs := varintBytes bs.length ++ bs
  cancel {a b r s} h := by
    simp only [List.append_assoc] at h
    obtain ⟨hlen, h⟩ := varintBytes_cancel h
    exact List.append_inj h hlen

/-- Without an outer length a run of fields still determines the list, as long
as no field is empty. -/
theorem flatMap_injective (c : Code α) (hc : ∀ a, c.enc a ≠ []) {as bs : List α}
    (h : as.flatMap c.enc = bs.flatMap c.enc) : as = bs := by
  induction as generalizing bs with
  | nil =>
    cases bs with
    | nil => rfl
    | cons b bs =>
      simp only [List.flatMap_nil, List.flatMap_cons] at h
      exact absurd (List.append_eq_nil_iff.mp h.symm).1 (hc b)
  | cons a as ih =>
    cases bs with
    | nil =>
      simp only [List.flatMap_nil, List.flatMap_cons] at h
      exact absurd (List.append_eq_nil_iff.mp h).1 (hc a)
    | cons b bs =>
      simp only [List.flatMap_cons] at h
      obtain ⟨hab, h⟩ := c.cancel h
      rw [hab, ih h]

end Code
