import SpaceportBazaar.EconomyParties

namespace SpaceportBazaar

open SimulatedEconomy

/-- The offer rules of the field manual. -/
structure Offer.Lawful (e : SimulatedEconomy) (o : Offer) : Prop where
  parties : o.proposerId ≠ o.recipientId
  proposer : o.proposerId ∈ e.stations.keys
  recipient : o.recipientId ∈ e.stations.keys
  gives : o.give ≠ 0
  sides : ∀ r, o.give.get r = 0 ∨ o.receive.get r = 0

/-- No resource is both given and asked for. -/
def Action.KeepsSides : Action → Prop
  | .offer _ give receive _ => ∀ r, give.get r = 0 ∨ receive.get r = 0
  | _ => True

/-- The book holds what the offer commands answered OK put into it, and nothing else. -/
structure Posted (hist : List Processed) (e : SimulatedEconomy) : Prop where
  given : ∀ o ∈ e.offers, o.give ≠ 0
  commanded : ∀ o ∈ e.offers, ∃ p ∈ hist, p.outcome.code = .ok ∧
    ∃ expiresTick, p.action = .offer o.recipientId o.give o.receive expiresTick
  kept : ∀ p ∈ hist, p.outcome.code = .ok → ∀ recipientId give receive expiresTick,
    p.action = .offer recipientId give receive expiresTick → ∃ o ∈ e.offers, o.give = give ∧
    o.receive = receive

section Posted

variable {hist : List Processed} {e e' : SimulatedEconomy} {p : Processed} {stationId : String}
  {action : Action} {out : CommandOutcome}

theorem Posted.of_map (h : Posted hist e) {f : Offer → Offer} (offers : e'.offers = e.offers.map f)
    (terms : ∀ o, (f o).recipientId = o.recipientId ∧ (f o).give = o.give ∧
      (f o).receive = o.receive) : Posted hist e' := by
  constructor
  case given =>
    intro o' ho'
    rw [offers] at ho'
    obtain ⟨o, ho, rfl⟩ := List.mem_map.mp ho'
    rw [(terms o).2.1]
    exact h.given o ho
  case commanded =>
    intro o' ho'
    rw [offers] at ho'
    obtain ⟨o, ho, rfl⟩ := List.mem_map.mp ho'
    obtain ⟨hrecipient, hgive, hreceive⟩ := terms o
    rw [hrecipient, hgive, hreceive]
    exact h.commanded o ho
  case kept =>
    intro p hp hok recipientId give receive expiresTick haction
    obtain ⟨o, ho, hgive, hreceive⟩ := h.kept p hp hok recipientId give receive expiresTick haction
    refine ⟨f o, by rw [offers]; exact List.mem_map_of_mem ho, ?_, ?_⟩
    · rw [(terms o).2.1, hgive]
    · rw [(terms o).2.2, hreceive]

theorem Posted.same (h : Posted hist e) (offers : e'.offers = e.offers) : Posted hist e' :=
  h.of_map (f := id) (by rw [offers, List.map_id]) fun _ => ⟨rfl, rfl, rfl⟩

theorem Posted.closed (h : Posted hist e) {q : Offer → Bool} {status : OfferStatus} {tick : Nat}
    (offers : e'.offers = closeOpen q status tick e.offers) : Posted hist e' :=
  h.of_map offers fun o => by split <;> exact ⟨rfl, rfl, rfl⟩

/-- A command that posts nothing changes nothing. -/
theorem Posted.idle (h : Posted hist e) (idle : p.outcome.code = .ok → p.action.isOffer = false) :
    Posted (hist ++ [p]) e where
  given := h.given
  commanded := by
    intro o ho
    obtain ⟨q, hq, hposted⟩ := h.commanded o ho
    exact ⟨q, List.mem_append_left _ hq, hposted⟩
  kept := by
    intro q hq hok recipientId give receive expiresTick haction
    rcases List.mem_append.mp hq with hq | hq
    · exact h.kept q hq hok recipientId give receive expiresTick haction
    · cases List.mem_singleton.mp hq
      have := idle hok
      rw [haction] at this
      simp [Action.isOffer] at this

theorem Posted.executed (h : Posted hist e) (hx : Executed e stationId action out e') :
    Posted (hist ++ [⟨stationId, action, out⟩]) e' := by
  cases hx with
  | refused hp =>
    exact h.idle fun hok => absurd hok (precheck_refused_ne_ok hp).1
  | failed admitted hout =>
    exact (h.idle fun hok => absurd hok hout).same rfl
  | advertised => exact (h.idle (p := ⟨_, _, _⟩) fun _ => rfl).same rfl
  | adWithdrawn => exact (h.idle (p := ⟨_, _, _⟩) fun _ => rfl).same rfl
  | offerWithdrawn =>
    refine (h.idle (p := ⟨_, _, _⟩) fun _ => rfl).of_map rfl fun o => ?_
    split <;> exact ⟨rfl, rfl, rfl⟩
  | settled =>
    refine (h.idle (p := ⟨_, _, _⟩) fun _ => rfl).of_map rfl fun o => ?_
    split <;> exact ⟨rfl, rfl, rfl⟩
  | @posted recipientId give receive expiresTick s admitted =>
    have hgives : give ≠ 0 := by
      have hcheck := admitted.checked
      simp only [precheckAction] at hcheck
      split at hcheck
      next => simp at hcheck
      next =>
        obtain ⟨_, _, _, hgives, _⟩ := precheckOffer_eq_none_iff.mp hcheck
        exact hgives
    constructor
    case given =>
      intro o ho
      rcases List.mem_append.mp ho with ho | ho
      · exact h.given o ho
      · cases List.mem_singleton.mp ho
        exact hgives
    case commanded =>
      intro o ho
      rcases List.mem_append.mp ho with ho | ho
      · obtain ⟨q, hq, hposted⟩ := h.commanded o ho
        exact ⟨q, List.mem_append_left _ hq, hposted⟩
      · cases List.mem_singleton.mp ho
        exact ⟨_, List.mem_append_right _ (List.mem_singleton_self _), rfl, expiresTick, rfl⟩
    case kept =>
      intro q hq hok recipientId' give' receive' expiresTick' haction
      rcases List.mem_append.mp hq with hq | hq
      · obtain ⟨o, ho, hterms⟩ := h.kept q hq hok _ _ _ _ haction
        exact ⟨o, List.mem_append_left _ ho, hterms⟩
      · cases List.mem_singleton.mp hq
        obtain ⟨_, rfl, rfl, _⟩ := Action.offer.inj haction
        exact ⟨_, List.mem_append_right _ (List.mem_singleton_self _), rfl, rfl⟩

theorem Posted.ticked (h : Posted hist e) : Posted hist e.ticked := by
  have hexpired : Posted hist { e with
      offers := closeOpen (fun o => o.expiresTick ≤ e.tick + 1) .expired (e.tick + 1) e.offers
      } := h.closed rfl
  exact hexpired.closed rfl

end Posted

section Runs

variable {stations : List SimStation} {rules : Rules} {runId : String}
  {ls : List (Operation × List Processed)} {e : SimulatedEconomy}

theorem run_posted (run : Machine.Run Performs (create stations rules runId) ls e) :
    Posted (processed ls) e := by
  have both : Book e ∧ Posted (processed ls) e := by
    refine operations_invariant (I := fun hist e => Book e ∧ Posted hist e) ?_ ?_ ?_ ?_ run
      ⟨Book.create ..,
        fun o ho => by simp [create] at ho, fun o ho => by simp [create] at ho, by simp⟩
    · intro hist a stationId action out b ha hx
      exact ⟨ha.1.executed hx, ha.2.executed hx⟩
    · intro hist a worldVersion rejections ha
      exact ⟨ha.1.frame rfl rfl rfl rfl le_rfl, ha.2.same rfl⟩
    · intro hist a b ha hadvance
      rw [advanceTick_eq_ticked ha.1.distinct hadvance]
      exact ⟨ha.1.ticked, ha.2.ticked⟩
    · intro hist a ha
      refine ⟨ha.1.ended, ?_⟩
      rw [endRun_eq ha.1.distinct]
      exact ha.2.closed rfl
  exact both.2

/-- The book obeys the manual exactly when no posted offer puts a resource on both sides;
whatever else would break it is refused and leaves the market as it was. -/
theorem run_offer_rules (run : Machine.Run Performs (create stations rules runId) ls e) :
    ((∀ o ∈ e.offers, o.Lawful e) ↔
      ∀ p ∈ processed ls, p.outcome.code = .ok → p.action.KeepsSides) ∧
    ∀ stationId recipientId give receive expiresTick out e',
      e.execute stationId (.offer recipientId give receive expiresTick) = .ok (out, e') →
      recipientId = stationId ∨ recipientId ∉ e.stations.keys ∨ give = 0 →
      out.code ≠ .ok ∧ e' = e := by
  have hposted := run_posted run
  have hparties := (run_parties run).1
  constructor
  · constructor
    · intro hlawful p hp hok
      cases haction : p.action with
      | offer recipientId give receive expiresTick =>
        obtain ⟨o, ho, rfl, rfl⟩ := hposted.kept p hp hok _ _ _ _ haction
        exact (hlawful o ho).sides
      | advertise _ _ _ => trivial
      | accept _ => trivial
      | withdraw _ => trivial
      | sync => trivial
    · intro hsides o ho
      obtain ⟨hne, hproposer, hrecipient⟩ := hparties o ho
      obtain ⟨p, hp, hok, expiresTick, haction⟩ := hposted.commanded o ho
      have hkeeps := hsides p hp hok
      rw [haction] at hkeeps
      exact ⟨hne, hproposer, hrecipient, hposted.given o ho, hkeeps⟩
  · intro stationId recipientId give receive expiresTick out e' hexecute hbreaks
    obtain ⟨refused, hp, h⟩ := bind_eq_ok_iff.mp hexecute
    cases refused with
    | some code =>
      obtain ⟨rfl, rfl⟩ := Prod.mk.inj (Except.ok.inj h)
      exact ⟨(precheck_refused_ne_ok hp).1, rfl⟩
    | none =>
      obtain ⟨s, admitted⟩ := precheck_eq_none_iff.mp hp
      have hcheck := admitted.checked
      simp only [precheckAction] at hcheck
      split at hcheck
      next => simp at hcheck
      next =>
        obtain ⟨r, hr, hne, hgives, _⟩ := precheckOffer_eq_none_iff.mp hcheck
        rcases hbreaks with hself | hunknown | hzero
        · exact absurd hself hne
        · exact absurd (Dict.mem_keys_iff.mpr ⟨r, hr⟩) hunknown
        · exact absurd hzero hgives

theorem run_offer_rules_trade :
    ∃ ls e, Machine.Run Performs (create tradingPair defaultRules "sim") ls e ∧ e.offers ≠ [] ∧
      ∀ o ∈ e.offers, o.Lawful e := by
  obtain ⟨⟨ls, e⟩, hall, hposted, hsides⟩ : ∃ r,
      (create tradingPair defaultRules "sim").performAll oneTrade = .ok r ∧ r.2.offers ≠ [] ∧
      processed r.1 = [⟨"P01", .offer "P02" ⟨2, 0, 0⟩ ⟨0, 2, 0⟩ 5, ⟨.ok, some "offer-1", none⟩⟩,
        ⟨"P02", .accept "offer-1", ⟨.ok, some "offer-1", some "txn-2"⟩⟩] := ⟨_, rfl, by decide, rfl⟩
  have run := run_of_performAll hall
  refine ⟨ls, e, run, hposted, (run_offer_rules run).1.mpr fun p hp _ => ?_⟩
  rw [hsides] at hp
  rcases List.mem_cons.mp hp with rfl | hp
  · intro r
    cases r <;> decide
  · cases List.mem_singleton.mp hp
    trivial

/-- Water for water: the market takes the offer. -/
theorem water_for_water :
    ∃ ls e, Machine.Run Performs (create tradingPair defaultRules "sim") ls e ∧
      ∃ o ∈ e.offers, o.status = .opened ∧ 0 < o.give.get .water ∧ 0 < o.receive.get .water := by
  obtain ⟨⟨ls, e⟩, hall, hposted⟩ : ∃ r, (create tradingPair defaultRules "sim").performAll
      [.execute "P01" (.offer "P02" ⟨1, 0, 0⟩ ⟨1, 0, 0⟩ 5)] = .ok r ∧
      ∃ o ∈ r.2.offers, o.status = .opened ∧ 0 < o.give.get .water ∧ 0 < o.receive.get .water :=
    ⟨_, rfl, _, List.mem_singleton_self _, rfl, by decide, by decide⟩
  exact ⟨ls, e, run_of_performAll hall, hposted⟩

end Runs

end SpaceportBazaar
