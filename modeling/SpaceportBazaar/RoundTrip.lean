import SpaceportBazaar.Economy
import SpaceportBazaar.Mappers

namespace SpaceportBazaar

/-- Every integer an observer finds in the record. -/
def Bundle.integers (b : Bundle) : List Nat := [b.water, b.food, b.components]

def Rules.integers (r : Rules) : List Nat :=
  [r.durationTicks, r.tickDurationMs,
    r.maxHealth, r.shortageDamagePerUnit, r.recoveryPerFullySuppliedTick, r.maxPublicationTtlTicks,
    r.maxOfferTtlTicks, r.newCommandsPerStationPerTick, r.maxRequestRecordsPerStation,
    r.maxOpenOutgoingOffers, r.maxCommandBytes]

def StationObservation.integers (o : StationObservation) : List Nat :=
  [o.health, o.fullySuppliedTicks,
    o.shortageTicks, o.currentShortageStreak, o.longestShortageStreak] ++
    o.firstFailureTick.toList ++
    [o.inventory, o.lastProduction, o.lastUnmetUpkeep, o.producedTotal, o.consumedTotal,
    o.unmetTotal, o.importedTotal, o.exportedTotal, o.upkeepPerTick].flatMap Bundle.integers

def Offer.integers (o : Offer) : List Nat :=
  [o.createdTick, o.createdVersion, o.expiresTick] ++ o.closedTick.toList ++
    [o.give, o.receive].flatMap Bundle.integers

def Transaction.integers (t : Transaction) : List Nat :=
  [t.settledTick, t.settledVersion] ++ [t.give, t.receive].flatMap Bundle.integers

def Advertisement.integers (a : Advertisement) : List Nat :=
  [a.createdTick, a.expiresTick, a.createdVersion]

def CommandResult.integers (r : CommandResult) : List Nat :=
  [r.processedTick, r.processedVersion] ++ r.retryAfterTick.toList

def Snapshot.integers (s : Snapshot) : List Nat :=
  [s.snapshotSequence, s.worldVersion, s.tick] ++ s.rules.integers ++ s.me.integers ++
    s.offers.flatMap Offer.integers ++ s.advertisements.flatMap Advertisement.integers ++
    s.transactions.flatMap Transaction.integers ++ s.requestResults.flatMap CommandResult.integers

/-- The integers fit the `uint64` fields of the messages. -/
def Fits (ns : List Nat) : Prop := ∀ n ∈ ns, n < 2 ^ 64

theorem fits_cons {n : Nat} {ns : List Nat} : Fits (n :: ns) ↔ n < 2 ^ 64 ∧ Fits ns := by
  simp [Fits]

theorem fits_append {ns ms : List Nat} : Fits (ns ++ ms) ↔ Fits ns ∧ Fits ms := by
  simp only [Fits, List.mem_append]
  constructor
  · intro h
    exact ⟨fun n hn => h n (Or.inl hn), fun n hn => h n (Or.inr hn)⟩
  · rintro ⟨hns, hms⟩ n (hn | hn)
    · exact hns n hn
    · exact hms n hn

theorem fits_flatMap {α : Type} {f : α → List Nat} {xs : List α} :
    Fits (xs.flatMap f) ↔ ∀ x ∈ xs, Fits (f x) := by
  simp only [Fits, List.mem_flatMap]
  constructor
  · intro h x hx n hn
    exact h n ⟨x, hx, hn⟩
  · rintro h n ⟨x, hx, hn⟩
    exact h x hx n hn

theorem uint64_eq {n : Nat} (h : n < 2 ^ 64) : uint64 n = .ok (UInt64.ofNat n) := if_pos h

theorem toNat_uint64 {n : Nat} (h : n < 2 ^ 64) : (UInt64.ofNat n).toNat = n :=
  UInt64.toNat_ofNat_of_lt' h

/-- What is written can be read back, item by item. -/
theorem mapM_round_trip {α β : Type} {write : α → Except Raised β} {read : β → Except Raised α}
    {xs : List α} (h : ∀ x ∈ xs, (write x >>= read) = .ok x) :
    (xs.mapM write >>= fun ys => ys.mapM read) = .ok xs := by
  induction xs with
  | nil => rfl
  | cons x xs ih =>
    obtain ⟨y, hy, hx⟩ := bind_eq_ok_iff.mp (h x List.mem_cons_self)
    obtain ⟨ys, hys, hxs⟩ := bind_eq_ok_iff.mp (ih (fun z hz => h z (List.mem_cons_of_mem _ hz)))
    refine bind_eq_ok_iff.mpr ⟨y :: ys, ?_, ?_⟩
    · rw [List.mapM_cons, hy, hys]
      rfl
    · rw [List.mapM_cons, hx, hxs]
      rfl

theorem bundle_round_trip {b : Bundle} (h : Fits b.integers) :
    ∃ pb, bundleToPb b = .ok pb ∧ bundleFromPb pb = b := by
  simp only [Bundle.integers, fits_cons] at h
  obtain ⟨hwater, hfood, hcomponents, _⟩ := h
  refine ⟨⟨UInt64.ofNat b.water, UInt64.ofNat b.food, UInt64.ofNat b.components⟩, ?_, ?_⟩
  · simp only [bundleToPb, uint64_eq hwater, uint64_eq hfood, uint64_eq hcomponents]
    rfl
  · simp only [bundleFromPb, toNat_uint64 hwater, toNat_uint64 hfood, toNat_uint64 hcomponents]

theorem nullable_round_trip
    {α β : Type} {name : String} {write : α → Except Raised β} {read : β → Except Raised α}
    {value : Option α} (h : ∀ a, value = some a → (write a >>= read) = .ok a) :
    (nullableToPb write value >>= nullableFromPb name read) = .ok value := by
  cases value with
  | none => rfl
  | some a =>
    obtain ⟨b, hb, ha⟩ := bind_eq_ok_iff.mp (h a rfl)
    refine bind_eq_ok_iff.mpr ⟨.value b, ?_, ?_⟩
    · simp only [nullableToPb, hb]
      rfl
    · simp only [nullableFromPb, ha]
      rfl

theorem nullableStr_round_trip (value : Option String) :
    (nullableStrToPb value >>= nullableStrFromPb) = .ok value :=
  nullable_round_trip (fun _ _ => rfl)

theorem nullableBool_round_trip (value : Option Bool) :
    (nullableBoolToPb value >>= nullableBoolFromPb) = .ok value :=
  nullable_round_trip (fun _ _ => rfl)

theorem nullableUint_round_trip {value : Option Nat} (h : Fits value.toList) :
    (nullableUintToPb value >>= nullableUintFromPb) = .ok value := by
  refine nullable_round_trip ?_
  rintro n rfl
  have hn : n < 2 ^ 64 := h n (by simp)
  rw [uint64_eq hn]
  exact congrArg Except.ok (toNat_uint64 hn)

theorem mapM_of_value (rs : List Resource) : (rs.map Resource.value).mapM Resource.of = .ok rs := by
  induction rs with
  | nil => rfl
  | cons r rs ih =>
    rw [List.map_cons, List.mapM_cons, Resource.of_value, ih]
    rfl

/-- The resources of a list, in the order of their numbers. -/
def Resource.sorted (rs : List Resource) : List Resource :=
  rs.insertionSort (fun a b => a.value ≤ b.value)

theorem map_value_sorted (rs : List Resource) :
    (rs.map Resource.value).insertionSort (· ≤ ·) = (Resource.sorted rs).map Resource.value :=
  (List.map_insertionSort (fun a b : Resource => a.value ≤ b.value) (· ≤ ·) Resource.value rs
    (fun _ _ _ _ => Iff.rfl)).symm

theorem resourceList_round_trip (rs : List Resource) :
    (resourceListToPb rs).items.mapM Resource.of = .ok (Resource.sorted rs) := by
  rw [resourceListToPb, map_value_sorted, mapM_of_value]

theorem resourceSet_round_trip (rs : Finset Resource) :
    resourceListFromPb (resourceListToPb (Resource.elements rs)) = .ok rs := by
  unfold resourceListFromPb
  rw [resourceList_round_trip]
  refine congrArg Except.ok (Finset.ext fun r => ?_)
  simp [Resource.sorted, Resource.elements, (List.perm_insertionSort _ _).mem_iff]

/-- All of the rules come back as they were but the resource order, which comes back sorted. -/
theorem rules_round_trip {r : Rules} (h : Fits r.integers) :
    (rulesToPb r >>= rulesFromPb) =
      .ok { r with resourceOrder := Resource.sorted r.resourceOrder } := by
  simp only [Rules.integers, fits_cons] at h
  obtain ⟨h₁, h₂, h₃, h₄, h₅, h₆, h₇, h₈, h₉, h₁₀, h₁₁, _⟩ := h
  simp only [rulesToPb, uint64_eq h₁, uint64_eq h₂, uint64_eq h₃, uint64_eq h₄, uint64_eq h₅,
    uint64_eq h₆, uint64_eq h₇, uint64_eq h₈, uint64_eq h₉, uint64_eq h₁₀, uint64_eq h₁₁, bind,
    Except.bind, pure, Except.pure]
  simp only [rulesFromPb, resourceList_round_trip, toNat_uint64 h₁, toNat_uint64 h₂,
    toNat_uint64 h₃, toNat_uint64 h₄, toNat_uint64 h₅, toNat_uint64 h₆, toNat_uint64 h₇,
    toNat_uint64 h₈, toNat_uint64 h₉, toNat_uint64 h₁₀, toNat_uint64 h₁₁]
  rfl

theorem stationObservation_round_trip {o : StationObservation} (h : Fits o.integers) :
    (stationObservationToPb o >>= stationObservationFromPb) = .ok o := by
  simp only [StationObservation.integers, fits_append, fits_cons, fits_flatMap,
    List.forall_mem_cons] at h
  obtain ⟨⟨⟨h₁, h₂, h₃, h₄, h₅, _⟩, hfailure⟩, b₁, b₂, b₃, b₄, b₅, b₆, b₇, b₈, b₉, _⟩ := h
  obtain ⟨inventory, w₁, r₁⟩ := bundle_round_trip b₁
  obtain ⟨lastProduction, w₂, r₂⟩ := bundle_round_trip b₂
  obtain ⟨lastUnmet, w₃, r₃⟩ := bundle_round_trip b₃
  obtain ⟨produced, w₄, r₄⟩ := bundle_round_trip b₄
  obtain ⟨consumed, w₅, r₅⟩ := bundle_round_trip b₅
  obtain ⟨unmet, w₆, r₆⟩ := bundle_round_trip b₆
  obtain ⟨imported, w₇, r₇⟩ := bundle_round_trip b₇
  obtain ⟨exported, w₈, r₈⟩ := bundle_round_trip b₈
  obtain ⟨upkeep, w₉, r₉⟩ := bundle_round_trip b₉
  obtain ⟨failure, wf, rf⟩ := bind_eq_ok_iff.mp (nullableUint_round_trip hfailure)
  simp only [stationObservationToPb, uint64_eq h₁, uint64_eq h₂, uint64_eq h₃, uint64_eq h₄,
    uint64_eq h₅, w₁, w₂, w₃, w₄, w₅, w₆, w₇, w₈, w₉, wf, bind, Except.bind, pure, Except.pure]
  simp only [stationObservationFromPb, rf, Resource.of_value, toNat_uint64 h₁, toNat_uint64 h₂,
    toNat_uint64 h₃, toNat_uint64 h₄, toNat_uint64 h₅, r₁, r₂, r₃, r₄, r₅, r₆, r₇, r₈, r₉]
  rfl

theorem offer_round_trip {o : Offer} (h : Fits o.integers) :
    (offerToPb o >>= offerFromPb) = .ok o := by
  simp only [Offer.integers, fits_append, fits_cons, fits_flatMap, List.forall_mem_cons] at h
  obtain ⟨⟨⟨h₁, h₂, h₃, _⟩, hclosed⟩, b₁, b₂, _⟩ := h
  obtain ⟨give, w₁, r₁⟩ := bundle_round_trip b₁
  obtain ⟨receive, w₂, r₂⟩ := bundle_round_trip b₂
  obtain ⟨closed, wc, rc⟩ := bind_eq_ok_iff.mp (nullableUint_round_trip hclosed)
  obtain ⟨txn, wt, rt⟩ := bind_eq_ok_iff.mp (nullableStr_round_trip o.transactionId)
  simp only [offerToPb, uint64_eq h₁, uint64_eq h₂, uint64_eq h₃, w₁, w₂, wc, wt, bind, Except.bind,
    pure, Except.pure]
  simp only [offerFromPb, OfferStatus.of_value, rc, rt, r₁, r₂, toNat_uint64 h₁, toNat_uint64 h₂,
    toNat_uint64 h₃]
  rfl

theorem transaction_round_trip {t : Transaction} (h : Fits t.integers) :
    (transactionToPb t >>= fun pb => .ok (transactionFromPb pb)) = .ok t := by
  simp only [Transaction.integers, fits_append, fits_cons, fits_flatMap, List.forall_mem_cons] at h
  obtain ⟨⟨h₁, h₂, _⟩, b₁, b₂, _⟩ := h
  obtain ⟨give, w₁, r₁⟩ := bundle_round_trip b₁
  obtain ⟨receive, w₂, r₂⟩ := bundle_round_trip b₂
  simp only [transactionToPb, uint64_eq h₁, uint64_eq h₂, w₁, w₂, bind, Except.bind,
    pure, Except.pure]
  simp only [transactionFromPb, r₁, r₂, toNat_uint64 h₁, toNat_uint64 h₂]

theorem advertisement_round_trip {a : Advertisement} (h : Fits a.integers) :
    (advertisementToPb a >>= advertisementFromPb) = .ok a := by
  simp only [Advertisement.integers, fits_cons] at h
  obtain ⟨h₁, h₂, h₃, _⟩ := h
  simp only [advertisementToPb, uint64_eq h₁, uint64_eq h₂, uint64_eq h₃, bind, Except.bind,
    pure, Except.pure]
  simp only [advertisementFromPb, resourceSet_round_trip, PublicationStatus.of_value,
    toNat_uint64 h₁, toNat_uint64 h₂, toNat_uint64 h₃]
  rfl

theorem result_round_trip {r : CommandResult} (h : Fits r.integers) (runId : String) :
    (resultToPb r runId >>= resultFromPb) = .ok r := by
  simp only [CommandResult.integers, fits_append, fits_cons] at h
  obtain ⟨⟨h₁, h₂, _⟩, hretry⟩ := h
  obtain ⟨object, wo, ro⟩ := bind_eq_ok_iff.mp (nullableStr_round_trip r.objectId)
  obtain ⟨txn, wt, rt⟩ := bind_eq_ok_iff.mp (nullableStr_round_trip r.transactionId)
  obtain ⟨retry, wr, rr⟩ := bind_eq_ok_iff.mp (nullableUint_round_trip hretry)
  simp only [resultToPb, uint64_eq h₁, uint64_eq h₂, wo, wt, wr, bind, Except.bind,
    pure, Except.pure]
  simp only [resultFromPb, ResultCode.of_value, ro, rt, rr, toNat_uint64 h₁, toNat_uint64 h₂]
  rfl

theorem playerOutcome_round_trip (o : PlayerOutcome) :
    (playerOutcomeToPb o >>= playerOutcomeFromPb) = .ok o := by
  obtain ⟨success, ws, rs⟩ := bind_eq_ok_iff.mp (nullableBool_round_trip o.collectiveSuccess)
  simp only [playerOutcomeToPb, ws, bind, Except.bind, pure, Except.pure]
  simp only [playerOutcomeFromPb, rs]
  rfl

theorem nullableOutcome_round_trip (outcome : Option PlayerOutcome) :
    (nullableOutcomeToPb outcome >>= nullableOutcomeFromPb) = .ok outcome :=
  nullable_round_trip (fun o _ => playerOutcome_round_trip o)

/-- A state decodes to itself but for the resource order of its rules, which comes
back sorted. -/
theorem snapshot_round_trip {s : Snapshot} (h : Fits s.integers) :
    (snapshotToPb s >>= snapshotFromPb) =
      .ok { s with rules :=
        { s.rules with resourceOrder := Resource.sorted s.rules.resourceOrder } } := by
  simp only [Snapshot.integers, fits_append, fits_cons, fits_flatMap] at h
  obtain ⟨⟨⟨⟨⟨⟨⟨h₁, h₂, h₃, _⟩, hrules⟩, hme⟩, hoffers⟩, hads⟩, htxns⟩, hresults⟩ := h
  obtain ⟨rules, wrules, rrules⟩ := bind_eq_ok_iff.mp (rules_round_trip hrules)
  obtain ⟨me, wme, rme⟩ := bind_eq_ok_iff.mp (stationObservation_round_trip hme)
  obtain ⟨offers, woffers, roffers⟩ := bind_eq_ok_iff.mp
    (mapM_round_trip (fun o ho => offer_round_trip (hoffers o ho)))
  obtain ⟨ads, wads, rads⟩ := bind_eq_ok_iff.mp
    (mapM_round_trip (fun a ha => advertisement_round_trip (hads a ha)))
  obtain ⟨txns, wtxns, rtxns⟩ := bind_eq_ok_iff.mp
    (mapM_round_trip (fun t ht => transaction_round_trip (htxns t ht)))
  obtain ⟨results, wresults, rresults⟩ := bind_eq_ok_iff.mp
    (mapM_round_trip (fun r hr => result_round_trip (hresults r hr) s.runId))
  obtain ⟨outcome, woutcome, routcome⟩ := bind_eq_ok_iff.mp (nullableOutcome_round_trip s.outcome)
  have hdirectory :
      (s.directory.map directoryEntryToPb).map directoryEntryFromPb = s.directory := by
    rw [List.map_map]
    exact List.map_id _
  have htransactions : txns.map transactionFromPb = s.transactions :=
    Except.ok.inj (List.mapM_pure.symm.trans rtxns)
  simp only [snapshotToPb, uint64_eq h₁, uint64_eq h₂, uint64_eq h₃, wrules, wme, woffers, wads,
    wtxns, wresults, woutcome, bind, Except.bind, pure, Except.pure]
  simp only [snapshotFromPb, Phase.of_value, rrules, rme, roffers, rads, rresults, routcome,
    hdirectory, htransactions, toNat_uint64 h₁, toNat_uint64 h₂, toNat_uint64 h₃]
  rfl

instance : Std.Total (fun a b : Resource => a.value ≤ b.value) :=
  ⟨fun a b => Nat.le_total a.value b.value⟩

instance : IsTrans Resource (fun a b => a.value ≤ b.value) := ⟨fun _ _ _ => Nat.le_trans⟩

theorem sorted_eq_iff {rs : List Resource} :
    Resource.sorted rs = rs ↔ rs.Pairwise (fun a b => a.value ≤ b.value) := by
  constructor
  · intro h
    rw [← h]
    exact List.pairwise_insertionSort _ _
  · exact List.Pairwise.insertionSort_eq

/-- The state survives the wire exactly when its resource order is in numerical order. -/
theorem snapshot_round_trip_iff {s : Snapshot} (h : Fits s.integers) :
    (snapshotToPb s >>= snapshotFromPb) = .ok s ↔
      s.rules.resourceOrder.Pairwise (fun a b => a.value ≤ b.value) := by
  rw [snapshot_round_trip h, ← sorted_eq_iff, Except.ok.injEq]
  constructor
  · intro heq
    exact congrArg (fun s => s.rules.resourceOrder) heq
  · intro heq
    rw [heq]

/-- A state with something in every field that can be empty. -/
def busyMarket (rules : Rules) : Snapshot where
  runId := "sim"
  snapshotSequence := 9
  worldVersion := 12
  tick := 7
  phase := .finished
  selfStationId := "P01"
  rules := rules
  directory := [⟨"P01", "Vega"⟩, ⟨"P02", "Altair"⟩]
  me := {
    SimStation.observation
    { stationId := "P01", specialty := .water, inventory := ⟨30, 12, 4⟩ } with
    failedOnce := true
    firstFailureTick := some 5
    lastUnmetUpkeep := ⟨0, 0, 2⟩ }
  offers := [
    ⟨"offer-1", "P01", "P02", ⟨4, 0, 0⟩, ⟨0, 3, 0⟩, 1, 2, 9, .accepted, some 3, some "txn-4"⟩,
    ⟨"offer-6", "P02", "P01", ⟨0, 0, 1⟩, ⟨0, 0, 0⟩, 6, 10, 11, .opened, none, none⟩]
  advertisements := [⟨"ad-2", "P01", {.water}, {.food, .components}, 1, 20, 3, .active⟩]
  transactions := [⟨"txn-4", "offer-1", "P01", "P02", ⟨4, 0, 0⟩, ⟨0, 3, 0⟩, 3, 6⟩]
  requestResults := [
    ⟨"r1", true, .ok, 1, 2, some "offer-1", none, none⟩,
    ⟨"r2", false, .rateLimited, 6, 9, none, none, some 7⟩]
  outcome := some ⟨some false, true, false⟩

theorem snapshot_round_trip_busy :
    (snapshotToPb (busyMarket defaultRules) >>= snapshotFromPb) = .ok (busyMarket defaultRules) :=
  (snapshot_round_trip_iff (by unfold Fits; decide +kernel)).mpr (by decide)

def foodFirst : Rules := { defaultRules with resourceOrder := [.food, .water, .components] }

theorem food_first_reordered :
    Fits (busyMarket foodFirst).integers ∧
      (snapshotToPb (busyMarket foodFirst) >>= snapshotFromPb) ≠ .ok (busyMarket foodFirst) := by
  refine ⟨by unfold Fits; decide +kernel, fun h => ?_⟩
  have horder : ((snapshotToPb (busyMarket foodFirst) >>= snapshotFromPb).map
    (fun s => s.rules.resourceOrder)) =
      .ok [.water, .food, .components] := by decide +kernel
  rw [h] at horder
  exact absurd (Except.ok.inj horder) (by decide)

end SpaceportBazaar
