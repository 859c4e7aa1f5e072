import Mathlib.Data.List.Nodup
import Mathlib.Data.List.DropRight
import Mathlib.Data.List.GetD

namespace SpaceportBazaar

def isRequestIdChar (c : Char) : Bool := c.isAlphanum || c = '_' || c = '-'

/-- `[A-Za-z0-9_-]{1,64}`, from the first character to the last. -/
def fitsRequestId (cs : List Char) : Bool :=
  1 ≤ cs.length && cs.length ≤ 64 && cs.all isRequestIdChar

/-- The pattern's `$` also matches before a line break at the very end. -/
def isValidRequestId (requestId : String) : Bool :=
  fitsRequestId requestId.toList ||
    (requestId.toList.getLast? = some '\n' && fitsRequestId requestId.toList.dropLast)

/-- `re.sub(r"[^A-Za-z0-9_-]", "", text)` -/
def clean (text : String) : String := String.ofList (text.toList.filter isRequestIdChar)

def orElse (text fallback : String) : String := if text = "" then fallback else text

structure AssertionError where
  message : String
  deriving DecidableEq, Repr

/-- Its parts are clean, and there is always a station part. -/
structure RequestIdGenerator where
  stationId : String
  idPrefix : String
  counter : Nat
  station_ne : stationId ≠ ""
  station_clean : stationId.toList.all isRequestIdChar = true
  prefix_clean : idPrefix.toList.all isRequestIdChar = true

theorem clean_clean (text : String) : (clean text).toList.all isRequestIdChar = true := by
  simp [clean]

theorem clean_length (text : String) :
    (clean text).length = (text.toList.filter isRequestIdChar).length := by
  rw [clean, String.length_ofList]

theorem orElse_ne {text fallback : String} (h : fallback ≠ "") : orElse text fallback ≠ "" := by
  unfold orElse
  split <;> assumption

theorem orElse_clean {text fallback : String} (h : fallback.toList.all isRequestIdChar = true) :
    (orElse (clean text) fallback).toList.all isRequestIdChar = true := by
  unfold orElse
  split
  · exact h
  · exact clean_clean text

namespace RequestIdGenerator

def new (stationId : String) (idPrefix : String := "") : RequestIdGenerator where
  stationId := orElse (clean stationId) "sta"
  idPrefix := clean idPrefix
  counter := 1
  station_ne := orElse_ne (by decide)
  station_clean := orElse_clean (by decide)
  prefix_clean := clean_clean idPrefix

def kindPart (kind : String) : String := orElse (clean kind) "cmd"

/-- The parts joined by hyphens, before anything is cut off. -/
def joined (g : RequestIdGenerator) (kind : String) (n : Nat) : List Char :=
  ("-".intercalate ([g.idPrefix, kindPart kind, g.stationId, toString n].filter (· ≠ ""))).toList

def next (g : RequestIdGenerator)
    (kind : String) : Except AssertionError String × RequestIdGenerator :=
  let requestId := String.ofList ((g.joined kind g.counter).take 64)
  let g := { g with counter := g.counter + 1 }
  if isValidRequestId requestId then (.ok requestId, g) else (.error ⟨requestId⟩, g)

/-- What the generator returns for one command after another. -/
def nexts (g : RequestIdGenerator) : List String → List (Except AssertionError String)
  | [] => []
  | kind :: kinds =>
    let (requestId, g) := g.next kind
    requestId :: g.nexts kinds

variable {g : RequestIdGenerator} {kind kind' : String} {n n' : Nat}

/-- Everything before the number, down to the last hyphen. -/
def lead (g : RequestIdGenerator) (kind : String) : List Char :=
  (if g.idPrefix = "" then [] else g.idPrefix.toList ++ ['-']) ++ (kindPart kind).toList ++ '-' ::
    g.stationId.toList

theorem joined_eq (g : RequestIdGenerator) (kind : String) (n : Nat) :
    g.joined kind n = g.lead kind ++ '-' :: Nat.toDigits 10 n := by
  have hkind : kindPart kind ≠ "" := orElse_ne (by decide)
  unfold joined lead
  rw [String.toList_intercalate]
  by_cases hstart : g.idPrefix = ""
  · simp [hstart, hkind, g.station_ne]
  · simp [hstart, hkind, g.station_ne]

theorem joined_clean (g : RequestIdGenerator) (kind : String) (n : Nat) :
    (g.joined kind n).all isRequestIdChar = true := by
  have hdigits : ∀ c ∈ Nat.toDigits 10 n, isRequestIdChar c = true := by
    intro c hc
    have hdigit := Nat.isDigit_of_mem_toDigits (by decide) (by decide) hc
    simp [isRequestIdChar, Char.isAlphanum, hdigit]
  have hkind := List.all_eq_true.mp
    (show (kindPart kind).toList.all isRequestIdChar = true from orElse_clean (by decide))
  have hstation := List.all_eq_true.mp g.station_clean
  have hstart := List.all_eq_true.mp g.prefix_clean
  have hhyphen : isRequestIdChar '-' = true := by decide
  rw [List.all_eq_true, joined_eq]
  unfold lead
  intro c hc
  simp only [List.mem_append, List.mem_cons] at hc
  rcases hc with ((hc | hc) | rfl | hc) | rfl | hc
  · split at hc
    · simp at hc
    · rcases List.mem_append.mp hc with hc | hc
      · exact hstart c hc
      · rw [List.mem_singleton.mp hc]
        exact hhyphen
  · exact hkind c hc
  · exact hhyphen
  · exact hstation c hc
  · exact hhyphen
  · exact hdigits c hc

/-- The number stands behind the last hyphen, so a whole id tells it. -/
theorem joined_number (h : g.joined kind n = g.joined kind' n') : n = n' := by
  have hafter : ∀ (front : List Char) (m : Nat),
      (front ++ '-' :: Nat.toDigits 10 m).rtakeWhile (· ≠ '-') = Nat.toDigits 10 m := by
    intro front m
    have hdigits : ∀ c ∈ Nat.toDigits 10 m, c ≠ '-' := by
      rintro c hc rfl
      exact absurd (Nat.isDigit_of_mem_toDigits (by decide) (by decide) hc) (by decide)
    generalize Nat.toDigits 10 m = digits at hdigits
    induction digits using List.reverseRecOn with
    | nil => rw [List.rtakeWhile_concat_neg _ _ _ (by simp)]
    | append_singleton digits c ih =>
      have hc : c ≠ '-' := hdigits c (by simp)
      rw [← List.cons_append, ← List.append_assoc, List.rtakeWhile_concat_pos _ _ _
        (by simpa using hc), ih fun d hd => hdigits d (by simp [hd])]
  have hdigits := congrArg (fun cs : List Char => cs.rtakeWhile (· ≠ '-')) h
  simp only [joined_eq, hafter] at hdigits
  calc n = Nat.ofDigitChars 10 (Nat.toDigits 10 n) 0 := Nat.ofDigitChars_ten_toDigits.symm
    _ = Nat.ofDigitChars 10 (Nat.toDigits 10 n') 0 := by rw [hdigits]
    _ = n' := Nat.ofDigitChars_ten_toDigits

theorem fits_take (g : RequestIdGenerator) (kind : String) (n : Nat) :
    fitsRequestId ((g.joined kind n).take 64) = true := by
  have hall := List.all_eq_true.mp (g.joined_clean kind n)
  have hlength : 1 ≤ (g.joined kind n).length := by
    rw [joined_eq]
    simp
    omega
  simp only [fitsRequestId, Bool.and_eq_true, decide_eq_true_eq, List.length_take, List.all_eq_true]
  exact ⟨⟨by omega, by omega⟩, fun c hc => hall c (List.mem_of_mem_take hc)⟩

theorem next_eq (g : RequestIdGenerator) (kind : String) : g.next kind =
    (.ok (String.ofList ((g.joined kind g.counter).take 64)),
      { g with counter := g.counter + 1 }) := by
  have hvalid : isValidRequestId (String.ofList ((g.joined kind g.counter).take 64)) = true := by
    unfold isValidRequestId
    rw [String.toList_ofList, g.fits_take kind g.counter]
    rfl
  unfold next
  simp only [hvalid, if_true]

def cut (g : RequestIdGenerator) (kind : String) (n : Nat) : String :=
  String.ofList ((g.joined kind n).take 64)

theorem getElem?_nexts (g : RequestIdGenerator) (kinds : List String) (i : Nat) :
    (g.nexts kinds)[i]? = kinds[i]?.map fun kind => .ok (g.cut kind (g.counter + i)) := by
  induction kinds generalizing g i with
  | nil => rfl
  | cons kind kinds ih =>
    unfold nexts
    rw [next_eq]
    cases i with
    | zero => rfl
    | succ i =>
      have hcount : g.counter + (i + 1) = g.counter + 1 + i := by omega
      rw [List.getElem?_cons_succ, List.getElem?_cons_succ, ih, hcount]
      rfl

theorem length_nexts (g : RequestIdGenerator) (kinds : List String) :
    (g.nexts kinds).length = kinds.length := by
  induction kinds generalizing g with
  | nil => rfl
  | cons kind kinds ih =>
    unfold nexts
    rw [next_eq, List.length_cons, List.length_cons, ih]

theorem nexts_valid (g : RequestIdGenerator) (kinds : List String) :
    ∀ returned ∈ g.nexts kinds, ∃ requestId, returned = .ok requestId ∧
    fitsRequestId requestId.toList = true := by
  intro returned hmem
  obtain ⟨i, hi⟩ := List.mem_iff_getElem?.mp hmem
  rw [getElem?_nexts] at hi
  obtain ⟨kind, _, rfl⟩ := Option.map_eq_some_iff.mp hi
  refine ⟨_, rfl, ?_⟩
  rw [cut, String.toList_ofList]
  exact g.fits_take kind _

/-- What the generator joins for one command of a sequence, counted from nothing. -/
def text (g : RequestIdGenerator) (kinds : List String) (i : Nat) : List Char :=
  g.joined (kinds.getD i "") (g.counter + i)

theorem nodup_nexts_iff (g : RequestIdGenerator) (kinds : List String) : (g.nexts kinds).Nodup ↔
    ∀ i j, i < j → j < kinds.length → (g.text kinds i).take 64 ≠ (g.text kinds j).take 64 := by
  rw [List.nodup_iff_getElem?_ne_getElem?, length_nexts]
  refine forall₄_congr fun i j hij hj => ?_
  have hi : i < kinds.length := hij.trans hj
  rw [getElem?_nexts, getElem?_nexts, List.getElem?_eq_getElem hi, List.getElem?_eq_getElem hj]
  simp [cut, text, hi, hj, String.ofList_inj]

/-- Two ids that were not cut tell their numbers, and these are different. -/
theorem text_ne {kinds : List String} {i j : Nat} (hij : i < j) (hi : (g.text kinds i).length ≤ 64)
    (hj : (g.text kinds j).length ≤ 64) : (g.text kinds i).take 64 ≠ (g.text kinds j).take 64 := by
  rw [List.take_of_length_le hi, List.take_of_length_le hj]
  intro hsame
  have hnumber := joined_number hsame
  omega

/-- The room taken by all but the kind and the number. -/
def frame (g : RequestIdGenerator) : Nat :=
  (if g.idPrefix = "" then 0 else g.idPrefix.length + 1) + 1 + g.stationId.length + 1

theorem joined_length (g : RequestIdGenerator) (kind : String) (n : Nat) :
    (g.joined kind n).length = g.frame + (kindPart kind).length + (Nat.toDigits 10 n).length := by
  rw [joined_eq]
  unfold lead frame
  split <;> simp [← String.length_toList] <;> omega

theorem length_toDigits_mono (h : n ≤ n') :
    (Nat.toDigits 10 n).length ≤ (Nat.toDigits 10 n').length := by
  refine (Nat.length_toDigits_le_iff (by decide) Nat.length_toDigits_pos).mpr (h.trans_lt ?_)
  exact (Nat.length_toDigits_le_iff (by decide) Nat.length_toDigits_pos).mp (le_refl _)

/-- With too little room, an earlier command of the same kind already got this id. -/
theorem joined_clashes {count : Nat} (two : 2 ≤ count)
    (tight : 64 < g.frame + (kindPart kind).length + (Nat.toDigits 10 count).length) :
    ∃ n, 1 ≤ n ∧ n < count ∧ (g.joined kind n).take 64 = (g.joined kind count).take 64 := by
  rcases Nat.lt_or_ge count 10 with hsmall | hlarge
  · have hlead : 64 ≤ (g.lead kind ++ ['-']).length := by
      have hlength := g.joined_length kind 1
      have hone : (Nat.toDigits 10 count).length = 1 := by rw [Nat.toDigits_of_lt_base hsmall]; rfl
      rw [joined_eq] at hlength
      simp at hlength ⊢
      omega
    have htake : ∀ m, (g.joined kind m).take 64 = (g.lead kind ++ ['-']).take 64 := by
      intro m
      rw [joined_eq, ← List.singleton_append, ← List.append_assoc,
        List.take_append_of_le_length hlead]
    exact ⟨1, le_refl 1, by omega, by rw [htake, htake]⟩
  · have hdigits :
        Nat.toDigits 10 count = Nat.toDigits 10 (count / 10) ++ [(count % 10).digitChar] :=
      Nat.toDigits_of_base_le (by decide) hlarge
    have hjoined :
        g.joined kind count = g.joined kind (count / 10) ++ [(count % 10).digitChar] := by
      rw [joined_eq, joined_eq, hdigits]
      simp
    have hlength : 64 ≤ (g.joined kind (count / 10)).length := by
      rw [hdigits, List.length_append, List.length_singleton] at tight
      rw [joined_length]
      omega
    exact ⟨count / 10, by omega, by omega, by rw [hjoined, List.take_append_of_le_length hlength]⟩

/-- A kind of any length the pattern leaves alone. -/
def plainKind (length : Nat) : String := String.ofList (List.replicate length 'a')

theorem kindPart_plain {length : Nat} (h : 1 ≤ length) :
    (kindPart (plainKind length)).length = length := by
  have hclean : clean (plainKind length) = plainKind length := by
    unfold clean plainKind
    rw [String.toList_ofList, List.filter_eq_self.mpr]
    intro c hc
    rw [List.eq_of_mem_replicate hc]
    decide
  have hne : plainKind length ≠ "" := by
    intro hempty
    have hlist := congrArg String.toList hempty
    simp [plainKind] at hlist
    omega
  unfold kindPart orElse
  rw [hclean, if_neg hne]
  simp [plainKind]

/-- Sequences of kinds up to a length, as many as a count, are told apart just
when the longest id fits. -/
theorem nodup_all_iff (g : RequestIdGenerator) (first : g.counter = 1) {longest count : Nat}
    (one : 1 ≤ longest) (two : 2 ≤ count) : (∀ kinds :
      List String, kinds.length ≤ count → (∀ kind ∈ kinds, (kindPart kind).length ≤ longest) →
        (g.nexts kinds).Nodup) ↔ g.frame + longest + (Nat.toDigits 10 count).length ≤ 64 := by
  constructor
  · intro hall
    by_contra htight
    have hplain := kindPart_plain one
    obtain ⟨n, hn, hlt, hsame⟩ := joined_clashes (g := g) two (by rw [hplain]; omega)
    have hnodup := hall (List.replicate count (plainKind longest)) (by simp) fun kind hkind => by
      rw [List.eq_of_mem_replicate hkind, hplain]
    refine (nodup_nexts_iff g _).mp hnodup (n - 1) (count - 1) (by omega) (by simp; omega) ?_
    have htext : ∀ m, 1 ≤ m → m ≤ count →
        g.text (List.replicate count (plainKind longest)) (m - 1) =
        g.joined (plainKind longest) m := by
      intro m hm hle
      have hindex : m - 1 < count := by omega
      have hnumber : 1 + (m - 1) = m := by omega
      unfold text
      rw [first, hnumber]
      simp [hindex]
    rw [htext n hn hlt.le, htext count (by omega) (le_refl _), hsame]
  · intro hroom kinds hlength hkinds
    have hfits : ∀ i, i < kinds.length → (g.text kinds i).length ≤ 64 := by
      intro i hi
      have hkind : kinds.getD i "" ∈ kinds := by
        rw [List.getD_eq_getElem _ _ hi]
        exact List.getElem_mem hi
      have hshort := hkinds _ hkind
      have hdigits := length_toDigits_mono (show g.counter + i ≤ count by omega)
      unfold text
      rw [joined_length]
      omega
    refine (nodup_nexts_iff g kinds).mpr fun i j hij hj => ?_
    exact text_ne hij (hfits i (hij.trans hj)) (hfits j hj)

/-- Every id is valid. Two are the same just when one was cut, and down to the same text. -/
theorem ids_distinct_iff (stationId idPrefix : String) :
    (∀ kinds, (∀ returned ∈ (new stationId idPrefix).nexts kinds,
        ∃ requestId, returned = .ok requestId ∧ fitsRequestId requestId.toList = true) ∧
      (((new stationId idPrefix).nexts kinds).Nodup ↔ ∀ i j, i < j → j < kinds.length →
        64 < ((new stationId idPrefix).text kinds i).length ∨
        64 < ((new stationId idPrefix).text kinds j).length →
          ((new stationId idPrefix).text kinds i).take 64 ≠
            ((new stationId idPrefix).text kinds j).take 64)) ∧
    ∀ longest count, 1 ≤ longest → 2 ≤ count →
      ((∀ kinds :
        List String, kinds.length ≤ count → (∀ kind ∈ kinds, (kindPart kind).length ≤ longest) →
        ((new stationId idPrefix).nexts kinds).Nodup) ↔
          (new stationId idPrefix).frame + longest + (Nat.toDigits 10 count).length ≤ 64) := by
  refine ⟨fun kinds => ⟨nexts_valid _ kinds, ?_⟩, fun longest count one two =>
    nodup_all_iff _ rfl one two⟩
  rw [nodup_nexts_iff]
  refine forall₄_congr fun i j hij hj => ⟨fun hne _ => hne, fun hcut => ?_⟩
  by_cases hlong : 64 < ((new stationId idPrefix).text kinds i).length ∨
      64 < ((new stationId idPrefix).text kinds j).length
  · exact hcut hlong
  · rw [not_or, not_lt, not_lt] at hlong
    exact text_ne hij hlong.1 hlong.2

/-- The station part alone may leave no room for a number. -/
theorem long_station_clashes {stationId : String} (h : 61 ≤ (clean stationId).length)
    (kind : String) :
    ¬ ((new stationId).nexts [kind, kind]).Nodup := by
  have hne : clean stationId ≠ "" := by
    intro hempty
    rw [hempty] at h
    exact absurd h (by decide)
  have hstation : (new stationId).stationId = clean stationId := if_neg hne
  have hkind : 1 ≤ (kindPart kind).length := by
    rw [Nat.one_le_iff_ne_zero, Ne, String.length_eq_zero_iff]
    exact orElse_ne (by decide)
  have hdigits : (Nat.toDigits 10 2).length = 1 := rfl
  have tight :
      64 < (new stationId).frame + (kindPart kind).length + (Nat.toDigits 10 2).length := by
    unfold frame
    rw [hstation, hdigits]
    omega
  obtain ⟨n, hn, hlt, hsame⟩ := joined_clashes (le_refl 2) tight
  obtain rfl : n = 1 := by omega
  intro hnodup
  exact (nodup_nexts_iff _ _).mp hnodup 0 1 (by omega) (by simp) hsame

/-- A station named by thirty characters three times over leaves no room for the number. -/
theorem long_station_shares_id :
    ¬ ((new "a-very-long-station-identifiera-very-long-station-identifiera-very-long-station-identifier").nexts
      ["advertise", "advertise"]).Nodup := by
  refine long_station_clashes ?_ "advertise"
  rw [clean_length]
  decide +kernel

end RequestIdGenerator

end SpaceportBazaar
