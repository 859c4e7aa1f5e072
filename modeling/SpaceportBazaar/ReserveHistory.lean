import SpaceportBazaar.Reserves

namespace SpaceportBazaar

/-- One call of `compute_reserve`: everything it is given but the stored balance. -/
structure ReserveCall where
  rules : Rules
  station : StationObservation
  memory : PolicyMemory
  available : Bundle

namespace ReserveCall

/-- The memory of a call, holding the balance the calls before it stored. -/
def remembering (call : ReserveCall) (stored : Bundle) : PolicyMemory :=
  { call.memory with storedReserve := stored }

def compute (call : ReserveCall) (stored : Bundle) : Except Raised (Bundle × PolicyMemory) :=
  computeReserve call.rules call.station (call.remembering stored) call.available

def buffer (call : ReserveCall) (r : Resource) : Nat :=
  upkeepBuffer call.rules call.station call.memory r

/-- The balance left by one call over the balance it found. -/
def bank (stored : Bundle) (call : ReserveCall) : Except Raised Bundle := do
  let (_, memory) ← call.compute stored
  return memory.storedReserve

end ReserveCall

/-- The largest excess over the storage threshold in any of these calls. -/
def largestExcess (r : Resource) (calls : List ReserveCall) : Nat :=
  (calls.map (fun call => call.available.get r - storageThreshold)).foldr max 0

theorem largestExcess_append (r : Resource) (calls : List ReserveCall) (call : ReserveCall) :
    largestExcess r (calls ++ [call]) =
      max (largestExcess r calls) (call.available.get r - storageThreshold) := by
  induction calls with
  | nil => simp [largestExcess]
  | cons first calls ih =>
    simp only [largestExcess, List.cons_append, List.map_cons, List.foldr_cons] at ih ⊢
    rw [ih]
    omega

section Saved

variable {base stored stock : Nat}

theorem savedStock_le_stock (base stored stock : Nat) : savedStock base stored stock ≤ stock := by
  simp only [savedStock]
  omega

/-- What is stored grows only to the excess that is there. -/
theorem savedStock_le_excess (base stored stock : Nat) :
    savedStock base stored stock ≤ max stored (stock - storageThreshold : Nat) := by
  simp only [savedStock]
  omega

theorem savedStock_twice (h : 0 ≤ savedStock base stored stock) :
    savedStock base (savedStock base stored stock).toNat stock = savedStock base stored stock := by
  simp only [savedStock] at h ⊢
  omega

end Saved

/-- What one call of `compute_reserve` returns and stores, resource by resource. -/
structure Banked (call : ReserveCall) (stored reserve stored' : Bundle) : Prop where
  saved :
    ∀ r, (stored'.get r : Int) = savedStock (call.buffer r) (stored.get r) (call.available.get r)
  asked : ∀ r, reserve.get r = call.buffer r + stored'.get r
  capped : ∀ r, reserve.get r ≤ maxReserveUnits

theorem ReserveCall.compute_banked (call : ReserveCall) (stored : Bundle) :
    ∃ reserve stored' : Bundle,
    call.compute stored = .ok (reserve, call.remembering stored') ∧
    Banked call stored reserve stored' := by
  obtain ⟨reserve, stored', hcompute, hspec⟩ :=
    computeReserve_spec call.rules call.station (call.remembering stored) call.available
  exact ⟨reserve, stored', hcompute,
    ⟨fun r => (hspec r).1, fun r => (hspec r).2.1, fun r => (hspec r).2.2⟩⟩

/-- Both bundles are settled by the call and the balance it found. -/
theorem Banked.unique {call : ReserveCall} {stored reserve stored' reserve' stored'' : Bundle}
    (h : Banked call stored reserve stored') (h' : Banked call stored reserve' stored'') :
    reserve = reserve' ∧ stored' = stored'' := by
  have hstored : ∀ r, stored'.get r = stored''.get r := fun r => by
    have hsame := (h.saved r).trans (h'.saved r).symm
    omega
  have hreserve : ∀ r, reserve.get r = reserve'.get r := fun r => by
    rw [h.asked r, h'.asked r, hstored r]
  exact ⟨Bundle.ext_get hreserve, Bundle.ext_get hstored⟩

/-- Over its own balance a call finds nothing more to store. -/
theorem Banked.again {call : ReserveCall} {stored reserve stored' : Bundle}
    (h : Banked call stored reserve stored') : Banked call stored' reserve stored' := by
  refine ⟨fun r => ?_, h.asked, h.capped⟩
  have hsaved := h.saved r
  have hpositive : 0 ≤ savedStock (call.buffer r) (stored.get r) (call.available.get r) := by omega
  have htwice := savedStock_twice hpositive
  rw [← hsaved] at htwice
  exact htwice.symm

theorem ReserveCall.compute_again {call : ReserveCall} {stored reserve stored' : Bundle}
    (h : Banked call stored reserve stored') :
    call.compute stored' = .ok (reserve, call.remembering stored') := by
  obtain ⟨reserve', stored'', hcompute, hbanked⟩ := call.compute_banked stored'
  obtain ⟨rfl, rfl⟩ := hbanked.unique h.again
  exact hcompute

theorem ReserveCall.bank_banked (call : ReserveCall) (stored : Bundle) : ∃ reserve stored' : Bundle,
    bank stored call = .ok stored' ∧ Banked call stored reserve stored' := by
  obtain ⟨reserve, stored', hcompute, hbanked⟩ := call.compute_banked stored
  refine ⟨reserve, stored', ?_, hbanked⟩
  unfold bank
  rw [hcompute]
  rfl

theorem bank_repeated {call : ReserveCall} {stored reserve stored' : Bundle}
    (h : Banked call stored reserve stored') (n : Nat) :
    (List.replicate n call).foldlM ReserveCall.bank stored' = .ok stored' := by
  induction n with
  | zero => rfl
  | succ n ih =>
    obtain ⟨reserve', stored'', hbank, hbanked⟩ := call.bank_banked stored'
    obtain ⟨rfl, rfl⟩ := hbanked.unique h.again
    rw [List.replicate_succ, List.foldlM_cons, hbank]
    exact ih

/-- Over any calls from nothing stored, no balance outgrows what there was to store. -/
theorem bank_all (calls : List ReserveCall) :
    ∃ stored, calls.foldlM ReserveCall.bank .zero = .ok stored ∧
    ∀ r, stored.get r ≤ largestExcess r calls ∧ ∀ last ∈ calls.getLast?,
    stored.get r ≤ last.available.get r := by
  induction calls using List.reverseRecOn with
  | nil => exact ⟨.zero, rfl, fun r => by cases r <;> simp [largestExcess, Bundle.zero, Bundle.get]⟩
  | append_singleton calls call ih =>
    obtain ⟨stored, hcalls, hstored⟩ := ih
    obtain ⟨reserve, stored', hbank, hbanked⟩ := call.bank_banked stored
    refine ⟨stored', ?_, fun r => ⟨?_, fun last hlast => ?_⟩⟩
    · rw [List.foldlM_append, hcalls]
      show (List.foldlM ReserveCall.bank stored [call]) = _
      rw [List.foldlM_cons, hbank]
      rfl
    · have hsaved := hbanked.saved r
      have hexcess := savedStock_le_excess (call.buffer r) (stored.get r) (call.available.get r)
      have hbefore := (hstored r).1
      rw [largestExcess_append]
      omega
    · have hsame : call = last := by simpa using hlast
      have hsaved := hbanked.saved r
      have hstock := savedStock_le_stock (call.buffer r) (stored.get r) (call.available.get r)
      rw [← hsame]
      omega

/-- `compute_reserve` asks for no less than the buffer and no more than the cap, banks what
it finds to store once however often it is called, and never stores what the stock did not hold. -/
theorem computeReserve_history :
    (∀ (call : ReserveCall) (stored : Bundle), ∃ reserve stored' : Bundle,
      call.compute stored = .ok (reserve, call.remembering stored') ∧
      (∀ r, (stored'.get r : Int) =
        savedStock (call.buffer r) (stored.get r) (call.available.get r) ∧
        reserve.get r = call.buffer r + stored'.get r) ∧
      (∀ r, call.buffer r ≤ reserve.get r ∧ reserve.get r ≤ maxReserveUnits) ∧
      call.compute stored' = .ok (reserve, call.remembering stored') ∧
      ∀ n, (List.replicate (n + 1) call).foldlM ReserveCall.bank stored = .ok stored') ∧
    ∀ calls : List ReserveCall, ∃ stored, calls.foldlM ReserveCall.bank .zero = .ok stored ∧
      ∀ r, stored.get r ≤ largestExcess r calls ∧
        ∀ last ∈ calls.getLast?, stored.get r ≤ last.available.get r := by
  refine ⟨fun call stored => ?_, bank_all⟩
  obtain ⟨reserve, stored', hcompute, hbanked⟩ := call.compute_banked stored
  refine ⟨reserve, stored', hcompute, fun r => ⟨hbanked.saved r, hbanked.asked r⟩, fun r =>
    ⟨?_, hbanked.capped r⟩, ReserveCall.compute_again hbanked, fun n => ?_⟩
  · have hreserve := hbanked.asked r
    omega
  · obtain ⟨reserve', stored'', hbank, hagain⟩ := call.bank_banked stored
    obtain ⟨rfl, rfl⟩ := hagain.unique hbanked
    rw [List.replicate_succ, List.foldlM_cons, hbank]
    exact bank_repeated hbanked n

end SpaceportBazaar
