import SpaceportBazaar.Reserves
import Mathlib.Order.WithBot
import Mathlib.Data.Bool.Basic
import Mathlib.Algebra.Order.Ring.Unbundled.Rat

namespace SpaceportBazaar

def recencyWindow : ℚ := 10
def weightSellsWhatWeNeed : ℚ := 3
def weightSeeksWhatWeOffer : ℚ := 2
def weightRecency : ℚ := 1
def weightReliability : ℚ := 1

structure Candidate where
  stationId : String
  want : Resource
  give : Resource
  score : WithBot ℚ

def ratioOf (shown : Bool) : ℚ := if shown then 1 else 0

def scoreCounterparty (stats : CounterpartyStats) (want give : Resource) (tick : Nat) : WithBot ℚ :=
  if stats.stationFailed then ⊥
  else
    let recency : ℚ := if 0 ≤ stats.lastAdTick then
      max 0 (Binary64.round (1 - Binary64.div (tick - stats.lastAdTick) recencyWindow)) else 0
    let advertised :=
      Binary64.add (Binary64.mul weightSellsWhatWeNeed (ratioOf (want ∈ stats.selling)))
      (Binary64.mul weightSeeksWhatWeOffer (ratioOf (give ∈ stats.seeking)))
    (Binary64.add (Binary64.add advertised (Binary64.mul weightRecency recency))
      (Binary64.mul weightReliability stats.acceptRate) : ℚ)

/-- The (planet, payment) pairs that could answer one want. -/
def pairings (stations : List CounterpartyStats) (payable : List Resource)
    (pending : List (String × Resource)) (want : Resource) : List (CounterpartyStats × Resource) :=
  (stations.flatMap (fun stats => payable.map (fun give => (stats, give)))).filter (fun pair =>
    pair.2 ≠ want && (pair.1.stationId, want) ∉ pending)

def bestPairing (options : List (CounterpartyStats × Resource))
    (want : Resource) (preferredGive : Option Resource)
    (surplus : Bundle) (tick : Nat) : Option (CounterpartyStats × Resource) :=
  options.argmax (fun pair =>
    toLex (!pair.1.stationFailed, toLex (decide (some pair.2 = preferredGive),
    toLex (scoreCounterparty pair.1 want pair.2 tick, surplus.get pair.2))))

def candidateFor (stations : List CounterpartyStats) (payable : List Resource)
    (pending : List (String × Resource)) (preferredGive : Option Resource) (surplus : Bundle)
    (tick : Nat) (want : Resource) : Option Candidate :=
  match bestPairing (pairings stations payable pending want) want preferredGive surplus tick with
  | none => none
  | some (stats, give) =>
    let best := scoreCounterparty stats want give tick
    if best = ⊥ then none else some ⟨stats.stationId, want, give, best⟩

/-- What is wanted, most urgent first and then by quantity. -/
def neededOf (urgency : Resource → Urgency) (wanted : Resource → Option Int) : List Resource :=
  (Resource.all.filter (fun r => (wanted r).any (0 < ·))).insertionSort (fun a b =>
    toLex (-((urgency a).level : Int), -(wanted a).getD 0) ≤
      toLex (-((urgency b).level : Int), -(wanted b).getD 0))

/-- One best candidate for each resource we want, most urgent first. -/
def rankCounterparties (model : CounterpartyModel)
    (urgency : Resource → Urgency) (wanted : Resource → Option Int) (surplus : Bundle) (tick : Nat)
    (alreadyPending : List (String × Resource)) (preferredGive : Option Resource) :
    List Candidate :=
  let payable := Resource.all.filter (fun r => 0 < surplus.get r)
  let stations := model.trading
  if payable.isEmpty || stations.isEmpty then []
  else (neededOf urgency wanted).filterMap
    (candidateFor stations payable alreadyPending preferredGive surplus tick)

section Ranking

variable {model : CounterpartyModel} {urgency : Resource → Urgency} {wanted : Resource → Option Int}
  {surplus : Bundle} {tick : Nat} {pending : List (String × Resource)} {preferred : Option Resource}
  {stations : List CounterpartyStats} {payable : List Resource} {want : Resource}
  {candidate : Candidate}

theorem mem_pairings_iff {stats : CounterpartyStats} {give : Resource} :
    (stats, give) ∈ pairings stations payable pending want ↔
      (stats ∈ stations ∧ give ∈ payable) ∧ give ≠ want ∧ (stats.stationId, want) ∉ pending := by
  simp [pairings]

theorem candidateFor_best
    (h : candidateFor stations payable pending preferred surplus tick want = some candidate) :
    ∃ stats, (stats, candidate.give) ∈
        bestPairing (pairings stations payable pending want) want preferred surplus tick ∧
      candidate.want = want ∧ candidate.stationId = stats.stationId := by
  unfold candidateFor at h
  split at h
  next => cases h
  next stats give hbest =>
    simp only at h
    split_ifs at h
    cases Option.some.inj h
    exact ⟨stats, hbest, rfl, rfl⟩

theorem candidateFor_spec
    (h : candidateFor stations payable pending preferred surplus tick want = some candidate) :
    candidate.want = want ∧ candidate.give ∈ payable ∧ candidate.give ≠ want ∧
      (candidate.stationId, want) ∉ pending ∧ ∃ stats ∈ stations,
      stats.stationId = candidate.stationId := by
  obtain ⟨stats, hbest, hwant, hid⟩ := candidateFor_best h
  obtain ⟨⟨hstats, hgive⟩, hne, hfree⟩ := mem_pairings_iff.mp (List.argmax_mem hbest)
  exact ⟨hwant, hgive, hne, hid ▸ hfree, stats, hstats, hid.symm⟩

/-- Every candidate answers a want, with something we can pay and a planet still trading. -/
theorem rankCounterparties_spec
    (h : candidate ∈ rankCounterparties model urgency wanted surplus tick pending preferred) :
    (∃ quantity, wanted candidate.want = some quantity ∧ 0 < quantity) ∧
      0 < surplus.get candidate.give ∧
      candidate.give ≠ candidate.want ∧ (candidate.stationId, candidate.want) ∉ pending ∧
      ∃ stats ∈ model.trading, stats.stationId = candidate.stationId := by
  unfold rankCounterparties at h
  simp only at h
  split_ifs at h
  · simp at h
  · obtain ⟨want, hwant, hcandidate⟩ := List.mem_filterMap.mp h
    obtain ⟨rfl, hgive, hne, hfree, hknown⟩ := candidateFor_spec hcandidate
    have hneeded := List.of_mem_filter ((List.mem_insertionSort _).mp hwant)
    have hpayable := List.of_mem_filter hgive
    refine ⟨?_, by simpa using hpayable, hne, hfree, hknown⟩
    exact (Option.any_eq_true _ _).mp hneeded |>.imp fun q hq => ⟨hq.1, by simpa using hq.2⟩

/-- No want is answered twice. -/
theorem rankCounterparties_wants_nodup :
    ((rankCounterparties model urgency wanted surplus tick pending preferred).map
      Candidate.want).Nodup := by
  unfold rankCounterparties
  simp only
  split_ifs
  · simp
  · have hneeded : (neededOf urgency wanted).Nodup :=
      (List.perm_insertionSort _ _).nodup_iff.mpr (List.Nodup.filter _ (by decide))
    generalize neededOf urgency wanted = needs at hneeded
    induction needs with
    | nil => simp
    | cons want needs ih =>
      have hw := List.nodup_cons.mp hneeded
      rw [List.filterMap_cons]
      split
      next => exact ih hw.2
      next candidate hc =>
        rw [List.map_cons, List.nodup_cons]
        refine ⟨?_, ih hw.2⟩
        intro hmem
        obtain ⟨other, hother, hsame⟩ := List.mem_map.mp hmem
        obtain ⟨want', hwant', hother⟩ := List.mem_filterMap.mp hother
        have hfirst := (candidateFor_spec hc).1
        have hsecond := (candidateFor_spec hother).1
        exact hw.1 (by rwa [← hfirst, ← hsame, hsecond])

end Ranking

end SpaceportBazaar
