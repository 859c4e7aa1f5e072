import Mathlib.Data.List.Basic

namespace Delimited

variable {α β : Type*} [DecidableEq α] {a x : α} {xs ys : List α}

/-- The parts of a list that a separator ends. -/
def ended (a : α) (xs : List α) : List (List α) := (xs.splitOn a).dropLast

/-- What follows the last separator. -/
def rest (a : α) (xs : List α) : List α := (xs.splitOn a).getLast (List.splitOn_ne_nil a xs)

theorem splitOn_eq (a : α) (xs : List α) : xs.splitOn a = ended a xs ++ [rest a xs] :=
  (List.dropLast_append_getLast (List.splitOn_ne_nil a xs)).symm

theorem parts {yss : List (List α)} (h : xs.splitOn a = yss ++ [ys]) :
    ended a xs = yss ∧ rest a xs = ys := by
  rw [splitOn_eq] at h
  obtain ⟨hended, hrest⟩ := List.append_inj' h rfl
  exact ⟨hended, List.singleton_inj.mp hrest⟩

@[simp] theorem ended_nil : ended a [] = [] := by simp [ended]

@[simp] theorem rest_nil : rest a [] = [] := by simp [rest]

theorem splitOn_cons_of_ne (hx : x ≠ a) (xs : List α) :
    (x :: xs).splitOn a = (xs.splitOn a).modifyHead (List.cons x) := by
  simp [List.splitOn_cons_eq_if_modifyHead, hx]

theorem splitOn_cons_self : (a :: xs).splitOn a = [] :: xs.splitOn a := by
  simp [List.splitOn_cons_eq_if_modifyHead]

/-- What comes later only reaches the part that is still open. -/
theorem splitOn_append (a : α) (xs ys : List α) :
    (xs ++ ys).splitOn a = ended a xs ++ (rest a xs ++ ys).splitOn a := by
  induction xs with
  | nil => simp
  | cons x xs ih =>
    by_cases hx : x = a
    · subst hx
      obtain ⟨hended, hrest⟩ : ended x (x :: xs) = [] :: ended x xs ∧
          rest x (x :: xs) = rest x xs :=
        parts (by rw [splitOn_cons_self, splitOn_eq]; rfl)
      rw [hended, hrest, List.cons_append, splitOn_cons_self, ih, List.cons_append]
    · have hsplit := splitOn_cons_of_ne hx xs
      rw [splitOn_eq a xs] at hsplit
      rw [List.cons_append, splitOn_cons_of_ne hx, ih]
      cases hopen : ended a xs with
      | nil =>
        rw [hopen] at hsplit
        obtain ⟨hended, hrest⟩ :
          ended a (x :: xs) = [] ∧ rest a (x :: xs) = x :: rest a xs := parts hsplit
        rw [hended, hrest, List.cons_append, splitOn_cons_of_ne hx, List.nil_append,
          List.nil_append]
      | cons l ls =>
        rw [hopen] at hsplit
        obtain ⟨hended, hrest⟩ : ended a (x :: xs) = (x :: l) :: ls ∧
          rest a (x :: xs) = rest a xs := parts hsplit
        rw [hended, hrest, List.cons_append, List.modifyHead_cons, List.cons_append]

theorem ended_append (a : α) (xs ys : List α) :
    ended a (xs ++ ys) = ended a xs ++ ended a (rest a xs ++ ys) :=
  (parts (by rw [splitOn_append, splitOn_eq a (rest a xs ++ ys), List.append_assoc])).1

theorem rest_append (a : α) (xs ys : List α) : rest a (xs ++ ys) = rest a (rest a xs ++ ys) :=
  (parts (by rw [splitOn_append, splitOn_eq a (rest a xs ++ ys), List.append_assoc])).2

theorem notMem_of_mem_splitOn {l : List α} (hl : l ∈ xs.splitOn a) : a ∉ l := by
  induction xs generalizing l with
  | nil => simp_all
  | cons x xs ih =>
    by_cases hx : x = a
    · subst hx
      rw [splitOn_cons_self] at hl
      rcases List.mem_cons.mp hl with rfl | hl
      · simp
      · exact ih hl
    · rw [splitOn_cons_of_ne hx] at hl
      cases hxs : xs.splitOn a with
      | nil => exact absurd hxs (List.splitOn_ne_nil a xs)
      | cons l' ls =>
        rw [hxs, List.modifyHead_cons] at hl
        rcases List.mem_cons.mp hl with rfl | hl
        · have hl' : a ∉ l' := ih (by simp [hxs])
          simp [hl', Ne.symm hx]
        · exact ih (by simp [hxs, hl])

theorem splitOn_append_of_notMem (h : a ∉ xs) :
    (xs ++ ys).splitOn a = (ys.splitOn a).modifyHead (xs ++ ·) := by
  induction xs with
  | nil => cases hys : ys.splitOn a <;> simp_all
  | cons x xs ih =>
    obtain ⟨hx, hxs⟩ := not_or.mp (mt List.mem_cons.mpr h)
    rw [List.cons_append, splitOn_cons_of_ne (Ne.symm hx), ih hxs, List.modifyHead_modifyHead]
    rfl

/-- The open part is the beginning of one of the parts there are in the end. -/
theorem rest_prefix (a : α) (xs ys : List α) : ∃ l ∈ (xs ++ ys).splitOn a, rest a xs <+: l := by
  have hrest : a ∉ rest a xs :=
    notMem_of_mem_splitOn (show rest a xs ∈ xs.splitOn a by simp [splitOn_eq])
  rw [splitOn_append, splitOn_append_of_notMem hrest]
  cases hys : ys.splitOn a with
  | nil => exact absurd hys (List.splitOn_ne_nil a ys)
  | cons l ls => exact ⟨rest a xs ++ l, by simp, List.prefix_append _ _⟩

/-- Batches shortened one by one make up the whole only when none of them lost anything. -/
theorem flatMap_eq_iff {γ : Type*} {f g h : β → List γ} (hg : ∀ b, g b = f b ++ h b) (bs : List β) :
    bs.flatMap f = bs.flatMap g ↔ ∀ b ∈ bs, h b = [] := by
  have hlength : (bs.flatMap g).length = (bs.flatMap f).length + (bs.flatMap h).length := by
    induction bs with
    | nil => rfl
    | cons b bs ih =>
      simp only [List.flatMap_cons, List.length_append, hg b, ih]
      omega
  constructor
  · intro heq b hb
    have hnone : bs.flatMap h = [] := List.eq_nil_of_length_eq_zero (by rw [heq] at hlength; omega)
    exact List.flatMap_eq_nil_iff.mp hnone b hb
  · intro hnone
    exact List.flatMap_congr fun b hb => by rw [hg b, hnone b hb, List.append_nil]

end Delimited
