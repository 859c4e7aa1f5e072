import SpaceportBazaar.DecideBalance

namespace SpaceportBazaar

def Action.advertises : Action → Bool
  | .advertise .. => true
  | _ => false

section Commands

variable {observation : Snapshot} {ticksLeft : Option Nat} {reserve : Bundle}
  {model : CounterpartyModel} {start a : Account} {hist : List Deed} {d : Deed}

theorem Allowed.acceptedId (h : Allowed observation ticksLeft reserve model hist a d) :
    (d.action observation).acceptedId? = d.accepted?.map Offer.offerId := by
  cases d with
  | notice action => obtain ⟨_, _, _, rfl, _⟩ | ⟨_, _, rfl⟩ := h <;> rfl
  | _ => rfl

/-- The accepts of a decision name the offers its accepting deeds took. -/
theorem run_acceptedIds (run :
      Machine.GuardedRun (deedGuard observation ticksLeft reserve model) Deed.step start hist a) :
    (hist.map (Deed.action observation)).filterMap Action.acceptedId? =
      (hist.filterMap Deed.accepted?).map Offer.offerId := by
  rw [List.filterMap_map, List.map_filterMap]
  refine List.filterMap_congr fun d hd => ?_
  obtain ⟨past, b, _, ⟨_, hallowed⟩, _⟩ := run.allowed hd
  exact hallowed.acceptedId

/-- What the withdrawals of a decision name, and the one change of its advertisement. -/
structure Retracts (observation : Snapshot) (hist : List Deed)
    (ads : List Advertisement) : Prop where
  named : (hist.map (Deed.action observation)).filterMap Action.withdrawnId? =
    (hist.filterMap Deed.withdrawn?).map Offer.offerId ++ ads.map Advertisement.advertisementId
  own : ∀ ad ∈ ads, observation.ownAdvertisement = some ad
  once : ads.length + (hist.map (Deed.action observation)).countP Action.advertises ≤ 1
  before : (∀ e ∈ hist, e.stage < 3) →
    ads = [] ∧ (hist.map (Deed.action observation)).countP Action.advertises = 0

/-- A deed that neither withdraws nor advertises leaves the account of both as it was. -/
theorem Retracts.other {ads : List Advertisement} (h : Retracts observation hist ads)
    (kept : (d.action observation).withdrawnId? = none) (taken : d.withdrawn? = none)
    (quiet : (d.action observation).advertises = false) :
    Retracts observation (hist ++ [d]) ads where
  named := by
    rw [List.map_append, List.filterMap_append, List.filterMap_append, h.named]
    simp [kept, taken]
  own := h.own
  once := by
    rw [List.map_append, List.countP_append]
    simpa [quiet] using h.once
  before := by
    intro early
    rw [List.map_append, List.countP_append]
    simpa [quiet] using h.before fun e he => early e (List.mem_append_left _ he)

theorem run_retracts (run :
      Machine.GuardedRun (deedGuard observation ticksLeft reserve model) Deed.step start hist a) :
    ∃ ads, Retracts observation hist ads := by
  refine run.invariant (I := fun hist _ => ∃ ads, Retracts observation hist ads)
    ⟨[], rfl, by simp, Nat.zero_le 1, fun _ => ⟨rfl, rfl⟩⟩ ?_
  intro hist a d b hretracts hguard _
  obtain ⟨ads, h⟩ := hretracts
  obtain ⟨hfollows, hallowed⟩ := hguard
  cases d with
  | accept late offer cost => exact ⟨ads, h.other rfl rfl rfl⟩
  | giveExcess recipient resource quantity => exact ⟨ads, h.other rfl rfl rfl⟩
  | propose candidate paid asked => exact ⟨ads, h.other rfl rfl rfl⟩
  | aid gift => exact ⟨ads, h.other rfl rfl rfl⟩
  | withdraw offer =>
    -- Offers are withdrawn before the advertisement is looked at.
    have hearly : ∀ e ∈ hist, e.stage < 3 :=
      fun e he => lt_of_le_of_lt (hfollows.1 e he) (by simp [Deed.stage])
    obtain ⟨rfl, hnone⟩ := h.before hearly
    have hnamed := h.named
    have hcount : ((hist ++ [Deed.withdraw offer]).map (Deed.action observation)).countP
        Action.advertises = 0 := by
      rw [List.map_append, List.countP_append, hnone]
      rfl
    refine ⟨[], ?_, by simp, by rw [hcount]; exact Nat.zero_le 1, fun _ => ⟨rfl, hcount⟩⟩
    rw [List.map_append, List.filterMap_append, List.filterMap_append, hnamed]
    simp [Deed.action, Action.withdrawnId?, Deed.withdrawn?]
  | notice action =>
    have hearly : ∀ e ∈ hist, e.stage < 3 := hfollows.2 (Or.inl rfl)
    obtain ⟨rfl, hnone⟩ := h.before hearly
    have hnamed := h.named
    have hnotice : ¬∀ e ∈ hist ++ [Deed.notice action], e.stage < 3 := fun early => by
      have := early (.notice action) (by simp)
      simp [Deed.stage] at this
    obtain ⟨selling, seeking, ttl, rfl, _⟩ | ⟨ad, had, rfl⟩ := hallowed
    · refine ⟨[], ?_, by simp, ?_, fun early => absurd early hnotice⟩
      · rw [List.map_append, List.filterMap_append, List.filterMap_append, hnamed]
        simp [List.filterMap_cons, Deed.action, Action.withdrawnId?, Deed.withdrawn?]
      · rw [List.map_append, List.countP_append, hnone]
        exact le_rfl
    · refine ⟨[ad], ?_, by simpa using had, ?_, fun early => absurd early hnotice⟩
      · rw [List.map_append, List.filterMap_append, List.filterMap_append, hnamed]
        simp [Deed.action, Action.withdrawnId?, Deed.withdrawn?]
      · rw [List.map_append, List.countP_append, hnone]
        exact le_rfl

end Commands

theorem gateReason_ne_none {observation : Snapshot} {memory : PolicyMemory}
    (h : observation.phase ≠ .running ∨ observation.me.failedOnce = true ∨
      observation.tick < memory.blockedUntilTick ∨
      observation.rules.durationTicks ≤ observation.tick) :
    gateReason observation memory ≠ none := by
  unfold gateReason
  split_ifs
  · simp
  · simp
  · simp
  · simp
  next hphase hfailed hblocked hover =>
    exact absurd h (by tauto)

/-- A gated decision does nothing; any other stays within its commands, and each of its
accepts, withdrawals and advertisement changes is one the snapshot has room for. -/
theorem decide_commands (observation : Snapshot) (memory : PolicyMemory)
    (commitments : CommitmentTracker) (commandBudget : Option Int) : ∃ decision memory',
    Policy.decide observation memory commitments commandBudget = .ok (decision, memory') ∧
    (observation.phase ≠ .running ∨ observation.me.failedOnce = true ∨
      observation.tick < memory.blockedUntilTick ∨
      observation.rules.durationTicks ≤ observation.tick →
        decision.actions = []) ∧
    decision.actions.length ≤ observation.rules.newCommandsPerStationPerTick ∧
    (∀ limit, commandBudget = some limit → decision.actions.length ≤ (max 0 limit).toNat) ∧
    (∃ accepted : List Offer, accepted.Subperm observation.incomingOpenOffers ∧
      decision.actions.filterMap Action.acceptedId? = accepted.map Offer.offerId) ∧
    ∃ (withdrawn : List Offer) (ads : List Advertisement),
    withdrawn.Sublist observation.outgoingOpenOffers ∧
      (∀ ad ∈ ads, observation.ownAdvertisement = some ad) ∧
      decision.actions.filterMap Action.withdrawnId? =
        withdrawn.map Offer.offerId ++ ads.map Advertisement.advertisementId ∧
      ads.length + decision.actions.countP Action.advertises ≤ 1 := by
  obtain ⟨decision, memory', hist, stored, hdecide, _, _, _, hrecords, hgated, _⟩ :=
    decide_records observation memory commitments commandBudget
  obtain ⟨account, run⟩ := hrecords.run
  have hleft := (deeds_conserve run).2
  have hallowance := commandAllowance_le observation commandBudget
  have hlength : decision.actions.length ≤ commandAllowance observation commandBudget := by
    have hleft : account.left + hist.length = commandAllowance observation commandBudget := hleft
    rw [hrecords.actions, List.length_map]
    omega
  obtain ⟨ads, hretracts⟩ := run_retracts run
  refine ⟨decision, memory', hdecide, fun hgate => ?_, hlength.trans hallowance.1,
    fun limit h => hlength.trans (hallowance.2 limit h), ⟨_, run_accepts run, ?_⟩,
    _, ads, run_withdraws run, hretracts.own, ?_, ?_⟩
  · have hnone : hist = [] := by
      by_contra hne
      exact gateReason_ne_none hgate (hgated hne)
    rw [hrecords.actions, hnone]
    rfl
  · rw [hrecords.actions]
    exact run_acceptedIds run
  · rw [hrecords.actions]
    exact hretracts.named
  · rw [hrecords.actions]
    exact hretracts.once

end SpaceportBazaar
