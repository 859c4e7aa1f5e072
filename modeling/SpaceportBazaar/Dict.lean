import Mathlib.Data.List.Nodup
import Mathlib.Algebra.BigOperators.Group.List.Basic
import Mathlib.Algebra.Order.BigOperators.Group.List
import Mathlib.Algebra.Order.Group.Nat
import Mathlib.Data.List.Perm.Subperm
import Mathlib.Tactic.Abel

theorem List.Subperm.sum_map_le {ι : Type*} {xs ys : List ι} (h : xs.Subperm ys) (f : ι → Nat) :
    (xs.map f).sum ≤ (ys.map f).sum := by
  obtain ⟨zs, hperm, hsub⟩ := h
  rw [← (hperm.map f).sum_eq]
  exact (hsub.map f).sum_le_sum (fun _ _ => Nat.zero_le _)

/-- A finite map that remembers the order in which its keys were first set. -/
structure Dict (κ α : Type*) where
  entries : List (κ × α)
  nodup : (entries.map Prod.fst).Nodup

namespace Dict

variable {κ α β : Type*}

def empty : Dict κ α := ⟨[], List.nodup_nil⟩

def mapValues (f : α → β) (d : Dict κ α) : Dict κ β :=
  ⟨d.entries.map (fun e => (e.1, f e.2)), by simpa [List.map_map, Function.comp_def] using d.nodup⟩

/-- Rewrites every value, knowing its place in the key order. -/
def mapIdxValues (f : Nat → α → β) (d : Dict κ α) : Dict κ β :=
  ⟨d.entries.mapIdx (fun i e => (e.1, f i e.2)), by
    have hkeys :
        (d.entries.mapIdx (fun i e => (e.1, f i e.2))).map Prod.fst = d.entries.map Prod.fst := by
      apply List.ext_getElem <;> simp
    rw [hkeys]
    exact d.nodup⟩

/-- Rewrites every value, knowing its key. -/
def mapEntries (f : κ → α → β) (d : Dict κ α) : Dict κ β :=
  ⟨d.entries.map (fun e => (e.1, f e.1 e.2)),
    by simpa [List.map_map, Function.comp_def] using d.nodup⟩

def filterKeys (p : κ → Bool) (d : Dict κ α) : Dict κ α :=
  ⟨d.entries.filter (fun e => p e.1), d.nodup.sublist (List.filter_sublist.map Prod.fst)⟩

def keys (d : Dict κ α) : List κ := d.entries.map Prod.fst

def values (d : Dict κ α) : List α := d.entries.map Prod.snd

def size (d : Dict κ α) : Nat := d.entries.length

theorem mapEntries_self {d : Dict κ α} {f : κ → α → α} (h : ∀ e ∈ d.entries, f e.1 e.2 = e.2) :
    d.mapEntries f = d := by
  obtain ⟨es, nodup⟩ := d
  simp only [mapEntries, mk.injEq]
  have hsame : ∀ e ∈ es, (e.1, f e.1 e.2) = id e := fun e he => Prod.ext rfl (h e he)
  exact (List.map_congr_left hsame).trans (List.map_id es)

@[simp] theorem filterKeys_filterKeys (d : Dict κ α) (p : κ → Bool) :
    (d.filterKeys p).filterKeys p = d.filterKeys p := by
  simp [filterKeys, List.filter_filter]

@[simp] theorem keys_nodup (d : Dict κ α) : d.keys.Nodup := d.nodup

@[simp] theorem keys_mapValues (f : α → β) (d : Dict κ α) : (d.mapValues f).keys = d.keys := by
  simp [keys, mapValues, List.map_map, Function.comp_def]

@[simp] theorem values_mapValues (f : α → β) (d : Dict κ α) :
    (d.mapValues f).values = d.values.map f := by
  simp [values, mapValues, List.map_map, Function.comp_def]

variable [DecidableEq κ]

/-- An existing key keeps its place, a new one goes last. -/
def setEntry (k : κ) (v : α) : List (κ × α) → List (κ × α)
  | [] => [(k, v)]
  | e :: es => if e.1 = k then (k, v) :: es else e :: setEntry k v es

theorem setEntry_keys (k : κ) (v : α) (es : List (κ × α)) :
    (setEntry k v es).map Prod.fst =
      if k ∈ es.map Prod.fst then es.map Prod.fst else es.map Prod.fst ++ [k] := by
  induction es with
  | nil => simp [setEntry]
  | cons e es ih =>
    by_cases he : e.1 = k
    · simp [setEntry, he]
    · have hk : k ≠ e.1 := fun h => he h.symm
      simp only [setEntry, he, if_false, List.map_cons, ih, List.mem_cons, hk, false_or]
      split <;> simp

theorem setEntry_nodup {k : κ} {v : α} {es : List (κ × α)} (h : (es.map Prod.fst).Nodup) :
    ((setEntry k v es).map Prod.fst).Nodup := by
  rw [setEntry_keys]
  split
  next => exact h
  next hk =>
    refine List.nodup_append.mpr ⟨h, by simp, ?_⟩
    intro a ha b hb hab
    have hbk : b = k := by simpa using hb
    exact hk (hbk ▸ hab ▸ ha)

def get? (d : Dict κ α) (k : κ) : Option α := d.entries.lookup k

def set (d : Dict κ α) (k : κ) (v : α) : Dict κ α :=
  ⟨setEntry k v d.entries, setEntry_nodup d.nodup⟩

def erase (d : Dict κ α) (k : κ) : Dict κ α :=
  ⟨d.entries.filter (fun e => e.1 ≠ k), d.nodup.sublist (List.filter_sublist.map Prod.fst)⟩

def contains (d : Dict κ α) (k : κ) : Bool := (d.get? k).isSome

/-- Rewrites the value under a key, if there is one. -/
def update (d : Dict κ α) (k : κ) (f : α → α) : Dict κ α :=
  match d.get? k with
  | some v => d.set k (f v)
  | none => d

/-- The value under a key, which is set first when the key is missing. -/
def setDefault (d : Dict κ α) (k : κ) (v : α) : α × Dict κ α :=
  match d.get? k with
  | some old => (old, d)
  | none => (v, d.set k v)

/-- Later pairs overwrite earlier ones. -/
def ofList (ps : List (κ × α)) : Dict κ α := ps.foldl (fun d p => d.set p.1 p.2) empty

theorem lookup_entry (k i : κ) (w : α) (es : List (κ × α)) :
    ((i, w) :: es).lookup k = if k = i then some w else es.lookup k := by
  rw [List.lookup_cons]
  by_cases hk : k = i
  · simp [hk]
  · have hb : (k == i) = false := beq_eq_false_iff_ne.mpr hk
    simp [hk, hb]

theorem lookup_setEntry (k j : κ) (v : α) (es : List (κ × α)) :
    (setEntry k v es).lookup j = if j = k then some v else es.lookup j := by
  induction es with
  | nil => simp [setEntry, lookup_entry]
  | cons e es ih =>
    obtain ⟨i, w⟩ := e
    by_cases hi : i = k
    · subst i
      by_cases hj : j = k <;> simp [setEntry, lookup_entry, hj]
    · simp only [setEntry, hi, if_false, lookup_entry, ih]
      by_cases hj : j = i
      · subst j; simp [hi]
      · simp [hj]

@[simp] theorem get?_empty (k : κ) : (empty : Dict κ α).get? k = none := rfl

theorem get?_set (d : Dict κ α) (k j : κ) (v : α) :
    (d.set k v).get? j = if j = k then some v else d.get? j := lookup_setEntry k j v d.entries

@[simp] theorem get?_set_self (d : Dict κ α) (k : κ) (v : α) : (d.set k v).get? k = some v := by
  simp [get?_set]

theorem get?_set_of_ne (d : Dict κ α) {k j : κ} (v : α) (h : j ≠ k) :
    (d.set k v).get? j = d.get? j := by
  simp [get?_set, h]

/-- What stands under a key after a write is what was written, or an older value under another
key. -/
theorem get?_set_some {d : Dict κ α} {k j : κ} {v w : α} (h : (d.set k w).get? j = some v) :
    j = k ∧ v = w ∨ j ≠ k ∧ d.get? j = some v := by
  rw [get?_set] at h
  split at h
  next heq => exact .inl ⟨heq, (Option.some.inj h).symm⟩
  next hne => exact .inr ⟨hne, h⟩

theorem get?_update (d : Dict κ α) (k j : κ) (f : α → α) :
    (d.update k f).get? j = if j = k then (d.get? j).map f else d.get? j := by
  unfold update
  split
  next v hv =>
    rw [get?_set]
    by_cases hj : j = k
    · simp [hj, hv]
    · simp [hj]
  next hnone =>
    by_cases hj : j = k
    · simp [hj, hnone]
    · simp [hj]

theorem lookup_filter_ne (k j : κ) (es : List (κ × α)) :
    (es.filter (fun e => e.1 ≠ k)).lookup j = if j = k then none else es.lookup j := by
  induction es with
  | nil => simp
  | cons e es ih =>
    obtain ⟨i, w⟩ := e
    by_cases hi : i = k
    · have hdrop : ((i, w) :: es).filter (fun e => e.1 ≠ k) = es.filter (fun e => e.1 ≠ k) := by
        simp [hi]
      rw [hdrop, ih, lookup_entry, hi]
      by_cases hj : j = k <;> simp [hj]
    · have hkeep : ((i, w) :: es).filter (fun e => e.1 ≠ k) =
          (i, w) :: es.filter (fun e => e.1 ≠ k) := by simp [hi]
      rw [hkeep, lookup_entry, ih, lookup_entry]
      by_cases hj : j = i
      · subst j; simp [hi]
      · simp [hj]

theorem get?_erase (d : Dict κ α) (k j : κ) :
    (d.erase k).get? j = if j = k then none else d.get? j := lookup_filter_ne k j d.entries

theorem get?_erase_of_ne (d : Dict κ α) {k j : κ} (h : j ≠ k) : (d.erase k).get? j = d.get? j := by
  simp [get?_erase, h]

theorem get?_erase_some {d : Dict κ α} {k j : κ} {v : α} (h : (d.erase k).get? j = some v) :
    j ≠ k ∧ d.get? j = some v := by
  rw [get?_erase] at h
  split at h
  next => cases h
  next hne => exact ⟨hne, h⟩

theorem get?_mapValues (f : α → β) (d : Dict κ α) (k : κ) :
    (d.mapValues f).get? k = (d.get? k).map f := by
  obtain ⟨es, nodup⟩ := d
  simp only [get?, mapValues]
  induction es with
  | nil => rfl
  | cons e es ih =>
    obtain ⟨i, w⟩ := e
    have htail := ih (List.nodup_cons.mp nodup).2
    rw [List.map_cons, lookup_entry, lookup_entry, htail]
    by_cases hk : k = i <;> simp [hk]

/-- With distinct keys a lookup and a membership say the same. -/
theorem mem_entries_iff {d : Dict κ α} {k : κ} {v : α} :
    (k, v) ∈ d.entries ↔ d.get? k = some v := by
  obtain ⟨es, nodup⟩ := d
  simp only [get?]
  induction es with
  | nil => simp
  | cons e es ih =>
    obtain ⟨i, w⟩ := e
    have hn := List.nodup_cons.mp nodup
    rw [List.mem_cons, lookup_entry, ih hn.2]
    by_cases hk : k = i
    · subst k
      have hnone : ¬ es.lookup i = some v := by
        intro h
        exact hn.1 (List.mem_map.mpr ⟨(i, v), (ih hn.2).mpr h, rfl⟩)
      simp [hnone, eq_comm]
    · simp [hk]

theorem mem_keys_iff {d : Dict κ α} {k : κ} : k ∈ d.keys ↔ ∃ v, d.get? k = some v := by
  simp only [keys, List.mem_map, Prod.exists, exists_and_right, exists_eq_right, mem_entries_iff]

theorem mem_values_iff {d : Dict κ α} {v : α} : v ∈ d.values ↔ ∃ k, d.get? k = some v := by
  simp only [values, List.mem_map, Prod.exists, exists_eq_right, mem_entries_iff]

theorem get?_filterKeys (d : Dict κ α) (p : κ → Bool) (k : κ) :
    (d.filterKeys p).get? k = if p k then d.get? k else none := by
  ext v
  rw [← mem_entries_iff]
  simp only [filterKeys, List.mem_filter, mem_entries_iff]
  split_ifs with hk <;> simp [hk]

/-- Dictionaries that hold something under the same keys are of the same size. -/
theorem size_congr {d : Dict κ α} {e : Dict κ β} (h : ∀ k, (d.get? k).isSome = (e.get? k).isSome) :
    d.size = e.size := by
  have hkeys : ∀ k, k ∈ d.keys ↔ k ∈ e.keys := by
    intro k
    rw [mem_keys_iff, mem_keys_iff, ← Option.isSome_iff_exists, ← Option.isSome_iff_exists, h]
  have hperm := (List.perm_ext_iff_of_nodup d.keys_nodup e.keys_nodup).mpr hkeys
  simpa [keys, size] using hperm.length_eq

theorem get?_mapEntries {f : κ → α → β} {d : Dict κ α} {k : κ} {w : β} :
    (d.mapEntries f).get? k = some w ↔ ∃ v, d.get? k = some v ∧ f k v = w := by
  rw [← mem_entries_iff]
  simp only [mapEntries, List.mem_map, Prod.mk.injEq, Prod.exists, mem_entries_iff]
  constructor
  · rintro ⟨i, v, hv, rfl, hw⟩
    exact ⟨v, hv, hw⟩
  · rintro ⟨v, hv, hw⟩
    exact ⟨k, v, hv, rfl, hw⟩

theorem get?_mapIdxValues {f : Nat → α → β} {d : Dict κ α} {k : κ} {w : β}
    (h : (d.mapIdxValues f).get? k = some w) : ∃ i v, d.get? k = some v ∧ w = f i v := by
  have hm := mem_entries_iff.mpr h
  simp only [mapIdxValues, List.mem_mapIdx] at hm
  obtain ⟨i, hi, he⟩ := hm
  obtain ⟨rfl, rfl⟩ := Prod.mk.inj he
  exact ⟨i, d.entries[i].2, mem_entries_iff.mp (List.getElem_mem hi), rfl⟩

theorem get?_mapIdxValues_of_some {f : Nat → α → β} {d : Dict κ α} {k : κ} {v : α}
    (h : d.get? k = some v) : ∃ i, (d.mapIdxValues f).get? k = some (f i v) := by
  obtain ⟨i, hi, he⟩ := List.getElem_of_mem (mem_entries_iff.mpr h)
  refine ⟨i, mem_entries_iff.mp ?_⟩
  simp only [mapIdxValues, List.mem_mapIdx]
  exact ⟨i, hi, by rw [he]⟩

@[simp] theorem values_mapIdxValues (f : Nat → α → β) (d : Dict κ α) :
    (d.mapIdxValues f).values = d.values.mapIdx f := by
  apply List.ext_getElem <;> simp [values, mapIdxValues]

@[simp] theorem keys_mapIdxValues (f : Nat → α → β) (d : Dict κ α) :
    (d.mapIdxValues f).keys = d.keys := by
  apply List.ext_getElem <;> simp [keys, mapIdxValues]

/-- Dictionaries with the same keys, read side by side. -/
theorem values_congr {d : Dict κ α} {e : Dict κ β} (keys : d.keys = e.keys) :
    List.Forall₂ (fun v w => ∃ k, d.get? k = some v ∧ e.get? k = some w) d.values e.values := by
  have hlength :
    d.entries.length = e.entries.length := by simpa [Dict.keys] using congrArg List.length keys
  refine List.forall₂_iff_get.mpr ⟨by simpa [values] using hlength, fun i hi hj => ?_⟩
  have hi : i < d.entries.length := by simpa [values] using hi
  have hj : i < e.entries.length := hlength ▸ hi
  have hkey : d.entries[i].1 = e.entries[i].1 := by
    have hat := congrArg (fun l => l[i]?) keys
    simpa [Dict.keys, List.getElem?_eq_getElem hi, List.getElem?_eq_getElem hj] using hat
  refine ⟨d.entries[i].1, ?_, ?_⟩
  · simpa [values] using mem_entries_iff.mp (List.getElem_mem hi)
  · rw [hkey]
    simpa [values] using mem_entries_iff.mp (List.getElem_mem hj)

theorem keys_set_of_mem {d : Dict κ α} {k : κ} {v w : α} (h : d.get? k = some w) :
    (d.set k v).keys = d.keys := by
  have hk : k ∈ d.entries.map Prod.fst := mem_keys_iff.mpr ⟨w, h⟩
  simp only [keys, set, setEntry_keys, hk, if_true]

theorem size_set_of_none {d : Dict κ α} {k : κ} {v : α} (h : d.get? k = none) :
    (d.set k v).size = d.size + 1 := by
  have hk : k ∉ d.entries.map Prod.fst := by
    intro hm
    obtain ⟨w, hw⟩ := mem_keys_iff.mp hm
    simp [h] at hw
  have hkeys : (setEntry k v d.entries).map Prod.fst = d.entries.map Prod.fst ++ [k] := by
    rw [setEntry_keys, if_neg hk]
  simpa [size, set] using congrArg List.length hkeys

theorem ext_get? {d e : Dict κ α} (hk : d.keys = e.keys) (h : ∀ k, d.get? k = e.get? k) :
    d = e := by
  obtain ⟨ds, dn⟩ := d
  obtain ⟨es, en⟩ := e
  have hes : ds = es := by
    apply List.ext_getElem (by simpa [keys] using congrArg List.length hk)
    intro i hi hj
    have hkey : ds[i].1 = es[i].1 := by
      have := congrArg (fun l => l[i]?) hk
      simpa [keys, hi, hj] using this
    have hval : (es[i].1, ds[i].2) ∈ es := by
      refine mem_entries_iff (d := ⟨es, en⟩).mpr ?_
      rw [← h, ← hkey]
      exact mem_entries_iff (d := ⟨ds, dn⟩).mp (List.getElem_mem hi)
    have hval' : (es[i].1, es[i].2) ∈ es := List.getElem_mem hj
    have := (mem_entries_iff (d := ⟨es, en⟩).mp hval).symm.trans
      (mem_entries_iff (d := ⟨es, en⟩).mp hval')
    exact Prod.ext hkey (Option.some.inj this)
  subst hes
  rfl

theorem set_self {d : Dict κ α} {k : κ} {v : α} (h : d.get? k = some v) : d.set k v = d := by
  refine ext_get? (keys_set_of_mem h) fun j => ?_
  rw [get?_set]
  by_cases hj : j = k
  · rw [if_pos hj, hj, h]
  · rw [if_neg hj]

/-- Only the last value written under each of two present keys counts. -/
theorem set_alternating {d : Dict κ α} {a b : κ} {v v' w w' x y : α} (hab : a ≠ b)
    (ha : d.get? a = some x) (hb : d.get? b = some y) :
    (((d.set a v).set b w).set a v').set b w' = (d.set a v').set b w' := by
  have hba : b ≠ a := fun h => hab h.symm
  have hkeys : ((d.set a v').set b w').keys = d.keys := by
    rw [keys_set_of_mem (w := y) (by simp [get?_set, hba, hb]), keys_set_of_mem ha]
  have hkeys' : ((((d.set a v).set b w).set a v').set b w').keys = d.keys := by
    rw [keys_set_of_mem (w := w) (by simp [get?_set, hba]),
      keys_set_of_mem (w := v) (by simp [get?_set, hab]),
      keys_set_of_mem (w := y) (by simp [get?_set, hba, hb]), keys_set_of_mem ha]
  refine ext_get? (hkeys'.trans hkeys.symm) (fun k => ?_)
  simp only [get?_set]
  by_cases hkb : k = b
  · simp [hkb]
  · by_cases hka : k = a <;> simp [hkb, hka]

/-- Replacing one value changes a sum over all values by that one difference. -/
theorem sum_values_set {M : Type*} [AddCommMonoid M] (f : α → M) {d : Dict κ α} {k : κ} {v w : α}
    (h : d.get? k = some v) :
    ((d.set k w).values.map f).sum + f v = (d.values.map f).sum + f w := by
  obtain ⟨es, nodup⟩ := d
  simp only [get?, values, set] at h ⊢
  induction es with
  | nil => simp at h
  | cons e es ih =>
    obtain ⟨i, x⟩ := e
    rw [lookup_entry] at h
    by_cases hi : k = i
    · subst k
      have hx : x = v := by simpa using h
      subst x
      simp only [setEntry, if_true, List.map_cons, List.sum_cons]
      abel
    · have hne : i ≠ k := fun he => hi he.symm
      have hl : es.lookup k = some v := by simpa [hi] using h
      have := ih (List.nodup_cons.mp nodup).2 hl
      simp only [setEntry, hne, if_false, List.map_cons, List.sum_cons, add_assoc]
      rw [this]

/-- What distinct keys hold does not add up to more than all the values. -/
theorem sum_le_sum_values
    {ι : Type*} {xs : List ι} {key : ι → κ} {f : ι → Nat} {g : α → Nat} {d : Dict κ α}
    (nodup : (xs.map key).Nodup) (h : ∀ x ∈ xs, ∃ v, d.get? (key x) = some v ∧ f x ≤ g v) :
    (xs.map f).sum ≤ (d.values.map g).sum := by
  have hkeys : (xs.map key).Subperm d.keys := by
    refine nodup.subperm (fun k hk => ?_)
    obtain ⟨x, hx, rfl⟩ := List.mem_map.mp hk
    exact mem_keys_iff.mpr ((h x hx).imp fun v hv => hv.1)
  have hvalues : d.keys.map (fun k => ((d.get? k).map g).getD 0) = d.values.map g := by
    simp only [keys, values, List.map_map]
    refine List.map_congr_left fun e he => ?_
    simp [mem_entries_iff.mp he]
  calc (xs.map f).sum ≤ (xs.map (fun x => ((d.get? (key x)).map g).getD 0)).sum := by
        refine List.sum_le_sum fun x hx => ?_
        obtain ⟨v, hv, hle⟩ := h x hx
        simpa [hv] using hle
    _ = ((xs.map key).map (fun k => ((d.get? k).map g).getD 0)).sum := by rw [List.map_map]; rfl
    _ ≤ (d.keys.map (fun k => ((d.get? k).map g).getD 0)).sum := hkeys.sum_map_le _
    _ = (d.values.map g).sum := by rw [hvalues]

section Traverse

variable {ω : Type*}

def traverseEntries (f : α → Except ω β) : List (κ × α) → Except ω (List (κ × β))
  | [] => .ok []
  | e :: es =>
    match f e.2, traverseEntries f es with
    | .ok v, .ok vs => .ok ((e.1, v) :: vs)
    | .error x, _ => .error x
    | .ok _, .error x => .error x

omit [DecidableEq κ] in
theorem traverseEntries_keys {f : α → Except ω β} {es : List (κ × α)} {fs : List (κ × β)}
    (h : traverseEntries f es = .ok fs) : fs.map Prod.fst = es.map Prod.fst := by
  induction es generalizing fs with
  | nil => cases h; rfl
  | cons e es ih =>
    simp only [traverseEntries] at h
    split at h
    next v vs _ hvs => cases h; simp [ih hvs]
    next => simp at h
    next => simp at h

/-- Rewrites every value in key order, stopping at the first failure. -/
def traverse (f : α → Except ω β) (d : Dict κ α) : Except ω (Dict κ β) :=
  match h : traverseEntries f d.entries with
  | .ok fs => .ok ⟨fs, traverseEntries_keys h ▸ d.nodup⟩
  | .error x => .error x

omit [DecidableEq κ] in
theorem traverseEntries_eq_map {f : α → Except ω β} {g : α → β} {es : List (κ × α)}
    {fs : List (κ × β)} (h : traverseEntries f es = .ok fs)
    (hg : ∀ v w, f v = .ok w → w = g v) : fs = es.map (fun e => (e.1, g e.2)) := by
  induction es generalizing fs with
  | nil => cases h; rfl
  | cons e es ih =>
    simp only [traverseEntries] at h
    split at h
    next v vs hv hvs => cases h; simp [ih hvs, hg _ _ hv]
    next => simp at h
    next => simp at h

omit [DecidableEq κ] in
theorem traverse_eq_mapValues {f : α → Except ω β} {g : α → β} {d : Dict κ α} {e : Dict κ β}
    (h : d.traverse f = .ok e) (hg : ∀ v w, f v = .ok w → w = g v) : e = d.mapValues g := by
  unfold traverse at h
  split at h
  next fs hfs =>
    cases h
    simp only [mapValues, mk.injEq]
    exact traverseEntries_eq_map hfs hg
  next => simp at h

omit [DecidableEq κ] in
theorem traverseEntries_ok {f : α → Except ω β} (es : List (κ × α))
    (h : ∀ e ∈ es, ∃ w, f e.2 = .ok w) : ∃ fs, traverseEntries f es = .ok fs := by
  induction es with
  | nil => exact ⟨[], rfl⟩
  | cons e es ih =>
    obtain ⟨w, hw⟩ := h e (by simp)
    obtain ⟨fs, hfs⟩ := ih (fun e he => h e (List.mem_cons_of_mem _ he))
    exact ⟨(e.1, w) :: fs, by simp [traverseEntries, hw, hfs]⟩

omit [DecidableEq κ] in
theorem traverse_ok {f : α → Except ω β} {d : Dict κ α}
    (h : ∀ v ∈ d.values, ∃ w, f v = .ok w) : ∃ e, d.traverse f = .ok e := by
  obtain ⟨fs, hfs⟩ := traverseEntries_ok (f := f) d.entries
    (fun e he => h e.2 (List.mem_map_of_mem he))
  unfold traverse
  split
  next fs' _ => exact ⟨_, rfl⟩
  next x hx => simp [hfs] at hx

omit [DecidableEq κ] in
theorem traverseEntries_each {f : α → Except ω β} {es : List (κ × α)} {fs : List (κ × β)}
    (h : traverseEntries f es = .ok fs) : ∀ e ∈ es, ∃ w, f e.2 = .ok w := by
  induction es generalizing fs with
  | nil => simp
  | cons e es ih =>
    simp only [traverseEntries] at h
    split at h
    next v vs hv hvs => simpa using ⟨⟨v, hv⟩, fun k a ha => ih hvs (k, a) ha⟩
    next => cases h
    next => cases h

omit [DecidableEq κ] in
theorem traverse_each {f : α → Except ω β} {d : Dict κ α} {e : Dict κ β}
    (h : d.traverse f = .ok e) :
    ∀ v ∈ d.values, ∃ w, f v = .ok w := by
  unfold traverse at h
  split at h
  next fs hfs =>
    intro v hv
    obtain ⟨entry, hentry, rfl⟩ := List.mem_map.mp hv
    exact traverseEntries_each hfs entry hentry
  next => cases h

end Traverse

section Build

theorem foldl_set_get? (ps : List (κ × α)) (d : Dict κ α) {k : κ} {v : α}
    (h : (ps.foldl (fun d p => d.set p.1 p.2) d).get? k = some v) :
    (k, v) ∈ ps ∨ d.get? k = some v := by
  induction ps generalizing d with
  | nil => exact Or.inr h
  | cons p ps ih =>
    rcases ih _ h with hm | hg
    · exact Or.inl (List.mem_cons_of_mem p hm)
    · rw [get?_set] at hg
      split at hg
      next hk =>
        have hv := Option.some.inj hg
        exact Or.inl (by simp [hk, ← hv])
      next => exact Or.inr hg

/-- What a dictionary built from a list holds was in the list. -/
theorem mem_of_get?_ofList {ps : List (κ × α)} {k : κ} {v : α}
    (h : (ofList ps).get? k = some v) : (k, v) ∈ ps := by
  rcases foldl_set_get? ps empty h with hm | hg
  · exact hm
  · simp at hg

theorem foldl_set_get?_of_notMem (ps : List (κ × α)) (d : Dict κ α) {k : κ}
    (h : k ∉ ps.map Prod.fst) :
    (ps.foldl (fun d p => d.set p.1 p.2) d).get? k = d.get? k := by
  induction ps generalizing d with
  | nil => rfl
  | cons p ps ih =>
    rw [List.map_cons, List.mem_cons, not_or] at h
    rw [List.foldl_cons, ih _ h.2, get?_set_of_ne _ _ h.1]

/-- Pairs under other keys do not change what a key holds. -/
theorem get?_ofList_append {ps qs : List (κ × α)} {k : κ} (h : k ∉ qs.map Prod.fst) :
    (ofList (ps ++ qs)).get? k = (ofList ps).get? k := by
  unfold ofList
  rw [List.foldl_append, foldl_set_get?_of_notMem qs _ h]

theorem setEntry_of_notMem {k : κ} {v : α} {es : List (κ × α)} (h : k ∉ es.map Prod.fst) :
    setEntry k v es = es ++ [(k, v)] := by
  induction es with
  | nil => rfl
  | cons e es ih =>
    rw [List.map_cons, List.mem_cons, not_or] at h
    rw [setEntry, if_neg (fun heq => h.1 heq.symm), ih h.2, List.cons_append]

theorem entries_foldl_set {ps : List (κ × α)} {d : Dict κ α}
    (nodup : ((d.entries ++ ps).map Prod.fst).Nodup) :
    (ps.foldl (fun d p => d.set p.1 p.2) d).entries = d.entries ++ ps := by
  induction ps generalizing d with
  | nil => simp
  | cons p ps ih =>
    have hnew : p.1 ∉ d.entries.map Prod.fst := by
      rw [List.map_append] at nodup
      exact fun hmem => (List.nodup_append.mp nodup).2.2 p.1 hmem p.1 (by simp) rfl
    have hset : (d.set p.1 p.2).entries = d.entries ++ [p] := setEntry_of_notMem hnew
    rw [List.foldl_cons, ih (by rw [hset]; simpa using nodup), hset]
    simp

/-- Built from pairs under different keys, a dictionary holds the pairs as they came. -/
theorem entries_ofList {ps : List (κ × α)} (nodup : (ps.map Prod.fst).Nodup) :
    (ofList ps).entries = ps :=
  entries_foldl_set (d := empty) nodup

theorem get?_ofList_of_mem {ps : List (κ × α)} {k : κ} {v : α} (nodup : (ps.map Prod.fst).Nodup)
    (h : (k, v) ∈ ps) :
    (ofList ps).get? k = some v := by
  obtain ⟨before, after, rfl⟩ := List.append_of_mem h
  rw [List.map_append, List.map_cons] at nodup
  have hafter := (List.nodup_cons.mp (List.nodup_append.mp nodup).2.1).1
  unfold ofList
  rw [List.foldl_append, List.foldl_cons, foldl_set_get?_of_notMem _ _ hafter, get?_set_self]

/-- A loop over entries whose rounds change only what is seen under their own key: each key
sees one round at most. -/
theorem foldl_entries {σ τ : Type*} {es : List (κ × α)}
    (nodup : (es.map Prod.fst).Nodup) (seen : σ → κ → τ) (f : τ → κ → α → τ) (step : σ → κ × α → σ)
    (own : ∀ s e k, seen (step s e) k = if k = e.1 then f (seen s k) e.1 e.2 else seen s k) (s : σ)
    (k : κ) :
    seen (es.foldl step s) k = match es.lookup k with
      | some v => f (seen s k) k v
      | none => seen s k := by
  induction es generalizing s with
  | nil => rfl
  | cons e es ih =>
    obtain ⟨i, v⟩ := e
    have hnodup := List.nodup_cons.mp nodup
    rw [List.foldl_cons, ih hnodup.2, lookup_entry, own]
    by_cases hk : k = i
    · subst k
      have hnone : es.lookup i = none := by
        rw [List.lookup_eq_none_iff]
        intro e he
        have hne : e.1 ≠ i := fun h => hnodup.1 (List.mem_map.mpr ⟨e, he, h⟩)
        simpa using Ne.symm hne
      rw [hnone, if_pos rfl, if_pos rfl]
    · rw [if_neg hk, if_neg hk]

end Build

end Dict
