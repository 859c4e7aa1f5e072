import SpaceportBazaar.DecideCourse

namespace SpaceportBazaar

section Wants

variable {observation : Snapshot} {available earlier reserve : Bundle} {r : Resource}
  {quantity : Int}

/-- What is asked for brings no stock above the cap, provided nothing came in since the
deficit was measured. -/
theorem wantedQuantities_within (spent : ∀ r, available.get r ≤ earlier.get r)
    (capped : reserve.get r ≤ maxReserveUnits) (h : wantedQuantities observation available reserve
      (deficitBelowReserve earlier reserve) r = some quantity) :
    quantity + available.get r ≤ stockCap := by
  have hspent := spent r
  have hdeficit : (deficitBelowReserve earlier reserve).get r = reserve.get r - earlier.get r :=
    Bundle.get_saturatingSub _ _ _
  unfold wantedQuantities at h
  simp only [hdeficit, maxReserveUnits, stockCap] at h capped ⊢
  split_ifs at h
  · cases Option.some.inj h
    omega
  · cases hc : importCeiling r available (some observation.me.specialty) with
    | none =>
      simp only [hc, Option.getD_none] at *
      cases Option.some.inj h
      omega
    | some c =>
      have := importCeilingFloor_le hc
      simp only [hc, Option.getD_some, importCeilingFloor, watchStock] at *
      cases Option.some.inj h
      omega
  · cases Option.some.inj h
    omega
  · cases Option.some.inj h
    omega

end Wants

section Run

variable {observation : Snapshot} {ticksLeft : Option Nat} {reserve : Bundle}
  {memory : PolicyMemory} {model : CounterpartyModel} {start a : Account} {hist more : List Deed}
  {draft draft' : Plan} {p : Passage} {d : Deeds} {e : Deed}

/-- Before any paid offer, a resource that was given away is still held in full. -/
theorem run_gifts_leave_cap (run :
      Machine.GuardedRun (deedGuard observation ticksLeft reserve model) Deed.step start hist a)
    (early : ∀ e ∈ hist, e.stage ≤ 3) {recipient : String} {r : Resource} {quantity : Nat}
    (given : .giveExcess recipient r quantity ∈ hist) : stockCap ≤ a.balance.get r := by
  refine run.invariant (I := fun hist a => (∀ e ∈ hist, e.stage ≤ 3) → ∀ recipient r quantity,
    .giveExcess recipient r quantity ∈ hist → stockCap ≤ a.balance.get r) nofun ?_ early recipient
    r quantity given
  rintro hist a e b ih ⟨hfollows, hallowed⟩ ⟨_, rfl⟩ hearly recipient r quantity hmem
  have hlast := hearly e (List.mem_append_right _ List.mem_cons_self)
  have hbefore := ih fun e he => hearly e (List.mem_append_left _ he)
  show stockCap ≤ (a.balance.saturatingSub e.payment).get r
  rw [Bundle.get_saturatingSub]
  cases e with
  | accept late offer cost =>
    -- accepts come before every gift, or after the paid offers
    rcases List.mem_append.mp hmem with hold | hnew
    · have hstage := hfollows.1 _ hold
      cases late with
      | false => simp [Deed.stage] at hstage
      | true => simp [Deed.stage] at hlast
    · simp at hnew
  | giveExcess recipient' r' quantity' =>
    obtain ⟨_, hcap, _⟩ := hallowed
    by_cases hr : r = r'
    · subst hr
      simp only [Deed.payment, Bundle.get_only, if_pos]
      omega
    · have hold := hbefore recipient r quantity (by simpa [hr] using hmem)
      simpa [Deed.payment, hr] using hold
  | withdraw offer => simpa [Deed.payment] using hbefore recipient r quantity (by simpa using hmem)
  | notice action => simpa [Deed.payment] using hbefore recipient r quantity (by simpa using hmem)
  | propose candidate paid asked => simp [Deed.stage] at hlast
  | aid gift => simp [Deed.stage] at hlast

theorem Tracks.spends (h : Tracks observation ticksLeft reserve memory start hist draft)
    (h' : Tracks observation ticksLeft reserve memory start (hist ++ more) draft') (r : Resource) :
    draft'.available.get r ≤ draft.available.get r := by
  rw [h.since h', Bundle.get_add]
  exact Nat.le_add_right _ _

/-- Each deed of a draft was allowed at the balance it was done at. -/
theorem Tracks.allowed (h : Tracks observation ticksLeft reserve memory start hist draft)
    (mem : e ∈ hist) :
    ∃ past a, Allowed observation ticksLeft reserve memory.counterparties past a e := by
  obtain ⟨past, a, _, ⟨_, hallowed⟩, _⟩ := h.run.allowed mem
  exact ⟨past, a, hallowed⟩

theorem Traced.early (h : Traced observation ticksLeft reserve memory start p d) :
    ∀ e ∈ d.beforeOffers, e.stage ≤ 3 := by
  intro e he
  simp only [Deeds.beforeOffers, Deeds.beforeListing, List.mem_append] at he
  rcases he with ((he | he) | he) | he
  · simp [h.taken e he]
  · simp [h.withdrawn e he]
  · simp [h.given e he]
  · simp [h.noticed e he]

theorem sum_payments_eq_zero {r : Resource} (h : ∀ e ∈ hist, e.payment.get r = 0) :
    (hist.map Deed.payment).sum.get r = 0 := by
  rw [Bundle.get_sum, List.map_map]
  refine List.sum_eq_zero fun n hn => ?_
  obtain ⟨e, he, rfl⟩ := List.mem_map.mp hn
  exact h e he

/-- Withdrawals and advertisements promise nothing. -/
theorem Deed.payment_eq_zero (free : e.stage = 1 ∨ e.stage = 3) : e.payment = .zero := by
  cases e with
  | withdraw _ => rfl
  | notice _ => rfl
  | accept late _ _ => cases late <;> simp [Deed.stage] at free
  | _ => simp [Deed.stage] at free

/-- What is given away over the cap aside, nothing takes stock between the first accepts and the
advertisement. -/
theorem Traced.given_stock (h : Traced observation ticksLeft reserve memory start p d)
    (r : Resource) :
    stockCap ≤ p.given.available.get r ∨
    p.given.available.get r = p.intake.draft.available.get r := by
  have hgives := h.gives
  by_cases hgift : ∃ recipient quantity, .giveExcess recipient r quantity ∈ d.given
  · obtain ⟨recipient, quantity, hgiven⟩ := hgift
    exact Or.inl (run_gifts_leave_cap hgives.run (fun e he => h.early e (List.mem_append_left _ he))
      (List.mem_append_right _ hgiven))
  · right
    rw [Deeds.beforeListing, List.append_assoc] at hgives
    rw [h.intake.since hgives, Bundle.get_add, sum_payments_eq_zero, Nat.add_zero]
    intro e he
    rcases List.mem_append.mp he with he | he
    · rw [Deed.payment_eq_zero (Or.inl (h.withdrawn e he)), Bundle.get_zero]
    · have hstage := h.given e he
      cases e with
      | giveExcess recipient r' quantity =>
        have hr : r ≠ r' := fun hr => hgift ⟨recipient, quantity, hr ▸ he⟩
        simp [Deed.payment, hr]
      | accept late _ _ => cases late <;> simp [Deed.stage] at hstage
      | _ => simp [Deed.stage] at hstage

theorem Traced.asked (h : Traced observation ticksLeft reserve memory start p d)
    (capped : ∀ r, reserve.get r ≤ maxReserveUnits) {candidate : Candidate} {paid asked : Nat}
    (mem : .propose candidate paid asked ∈ d.proposed) :
    asked + p.listed.available.get candidate.want ≤ stockCap := by
  obtain ⟨candidate', _, paid', asked', quantity, heq, hwanted, hasked⟩ := h.asks _ mem
  cases heq
  have hlists := h.lists
  have hshape : d.beforeOffers = d.taken ++ (d.withdrawn ++ (d.given ++ d.noticed)) := by
    simp [Deeds.beforeOffers, Deeds.beforeListing]
  rw [hshape] at hlists
  have hwithin := wantedQuantities_within (h.intake.spends hlists) (capped candidate.want) hwanted
  omega

/-- What is given away over the cap is not asked for. -/
theorem Traced.gift_unasked (h : Traced observation ticksLeft reserve memory start p d)
    (capped : ∀ r, reserve.get r ≤ maxReserveUnits) {recipient : String} {r : Resource}
    {quantity : Nat} (given : .giveExcess recipient r quantity ∈ d.given) {candidate : Candidate}
    {paid asked : Nat} (mem : .propose candidate paid asked ∈ d.proposed) : candidate.want ≠ r := by
  rintro rfl
  obtain ⟨_, _, hallowed⟩ := h.poses.allowed (List.mem_append_right _ mem)
  obtain ⟨_, _, _, _, _, _, _, hpriced⟩ := hallowed
  have hpositive := hpriced.positive
  have hasked := h.asked capped mem
  have hcap := run_gifts_leave_cap h.lists.run h.early
    (List.mem_append_left _ (List.mem_append_right _ given))
  simp only at hcap
  omega

/-- Which deeds an offer of a decision can come from. -/
theorem Allowed.offer_cases
    {model : CounterpartyModel} {past : List Deed} {station : String} {give receive : Bundle}
    {expires : Nat} (allowed : Allowed observation ticksLeft reserve model past a e)
    (same : e.action observation = .offer station give receive expires) :
    (∃ r quantity, e = .giveExcess station r quantity ∧ give = .only r quantity ∧ receive = .zero) ∨
    (∃ candidate paid asked, e = .propose candidate paid asked ∧ station = candidate.stationId ∧
      give = .only candidate.give paid ∧ receive = .only candidate.want asked) ∨
    ∃ gift, e = .aid gift ∧ station = gift.stationId ∧ give = .only gift.resource gift.quantity ∧
    receive = .zero := by
  cases e with
  | accept _ _ _ => cases same
  | withdraw _ => cases same
  | giveExcess recipient r quantity =>
    cases same
    exact Or.inl ⟨r, quantity, rfl, rfl, rfl⟩
  | notice action =>
    rcases allowed with ⟨_, _, _, rfl, _⟩ | ⟨_, _, rfl⟩ <;> cases same
  | propose candidate paid asked =>
    cases same
    exact Or.inr (Or.inl ⟨candidate, paid, asked, rfl, rfl, rfl, rfl⟩)
  | aid gift =>
    cases same
    exact Or.inr (Or.inr ⟨gift, rfl, rfl, rfl, rfl⟩)

/-- A deed belongs to the list of its stage. -/
theorem Traced.of_stage (h : Traced observation ticksLeft reserve memory start p d)
    (mem : e ∈ d.beforeAid) :
    (e.stage = 2 → e ∈ d.given) ∧ (e.stage = 4 → e ∈ d.proposed) ∧ (e.stage = 3 → e ∈ d.noticed) ∧
    e.stage ≠ 6 := by
  simp only [Deeds.beforeAid, Deeds.beforeOffers, Deeds.beforeListing, List.mem_append] at mem
  rcases mem with ((((he | he) | he) | he) | he) | he
  · simp [h.taken e he]
  · simp [h.withdrawn e he]
  · simp [h.given e he, he]
  · simp [h.noticed e he, he]
  · simp [h.proposed e he, he]
  · simp [h.late e he]

end Run

section Outcome

variable {observation : Snapshot} {memory : PolicyMemory} {commitments : CommitmentTracker}
  {commandBudget : Option Int} {draft last : Plan} {p : Passage} {d : Deeds} {station : String}
  {give receive : Bundle} {expires : Nat}

/-- The offers of a decision: gifts of excess, paid offers, and the distress gift that was due. -/
theorem Conducted.offer_cases
    (h : Conducted observation memory commitments commandBudget draft p d last)
    (mem : .offer station give receive expires ∈ last.decision.actions) :
    expires = observation.tick + offerLifetime observation ∧
    ((∃ r quantity, .giveExcess station r quantity ∈ d.given ∧
      give = .only r quantity ∧ receive = .zero) ∨
      (∃ candidate paid asked,
        .propose candidate paid asked ∈ d.proposed ∧ station = candidate.stationId ∧
        give = .only candidate.give paid ∧ receive = .only candidate.want asked) ∨
      ∃ gift, aidDue observation (some (observation.rules.durationTicks - observation.tick))
          (surplusAboveReserve p.reviewed.available draft.decision.reserve) p.urgency p.reviewed =
            some gift ∧
        station = gift.stationId ∧ give = .only gift.resource gift.quantity ∧ receive = .zero) := by
  rw [h.actions] at mem
  obtain ⟨e, he, haction⟩ := List.mem_map.mp mem
  rcases List.mem_append.mp he with hbefore | haid
  · obtain ⟨_, _, hallowed⟩ := h.traced.reviews.allowed hbefore
    obtain ⟨hgiven, hproposed, _, hnoAid⟩ := h.traced.of_stage hbefore
    rcases hallowed.offer_cases haction with
      ⟨r, quantity, rfl, hgive, hreceive⟩ |
        ⟨candidate, paid, asked, rfl, hid, hgive, hreceive⟩ | ⟨gift, rfl, _⟩
    · cases haction
      exact ⟨rfl, Or.inl ⟨r, quantity, hgiven rfl, hgive, hreceive⟩⟩
    · cases haction
      exact ⟨rfl, Or.inr (Or.inl ⟨candidate, paid, asked, hproposed rfl, hid, hgive, hreceive⟩)⟩
    · exact absurd rfl hnoAid
  · obtain ⟨gift, hgift, rfl⟩ := List.mem_map.mp haid
    cases haction
    exact ⟨rfl, Or.inr (Or.inr ⟨gift, Option.mem_toList.mp hgift, rfl, rfl, rfl⟩)⟩

end Outcome

end SpaceportBazaar
