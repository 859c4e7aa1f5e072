import SpaceportBazaar.DecideBalance
import SpaceportBazaar.DecideKnown
import SpaceportBazaar.DecideOffers

namespace SpaceportBazaar

section Memory

/-- No offer and no transaction has the snapshot's own planet on both sides. -/
structure TwoSided (s : Snapshot) : Prop where
  offers : ∀ o ∈ s.offers, ¬(o.proposerId = s.selfStationId ∧ o.recipientId = s.selfStationId)
  transactions :
    ∀ t ∈ s.transactions, ¬(t.proposerId = s.selfStationId ∧ t.recipientId = s.selfStationId)

/-- A memory one planet has built from such snapshots; whatever else happens to it, planets
can be marked as failed. -/
inductive Built (stationId : String) : PolicyMemory → Prop
  | new : Built stationId .new
  | observed {memory : PolicyMemory} {s : Snapshot} :
    Built stationId memory → s.selfStationId = stationId →
    TwoSided s → Built stationId (memory.observe s)
  | failed {memory : PolicyMemory} (other : String) : Built stationId memory →
    Built stationId { memory with counterparties := memory.counterparties.markFailed other }
  | noted {memory memory' : PolicyMemory} :
    Built stationId memory → memory'.counterparties = memory.counterparties →
    Built stationId memory'

variable {stationId : String} {memory : PolicyMemory} {s : Snapshot}

theorem TwoSided.mentions (h : TwoSided s) :
    CounterpartyModel.Mentions (· ≠ s.selfStationId) s where
  directory := fun _ _ hother => hother
  advertisements := fun _ _ hother => hother
  proposers := fun o ho hto hfrom => h.offers o ho ⟨hfrom, hto⟩
  recipients := fun o ho hfrom hto => h.offers o ho ⟨hfrom, hto⟩
  sellers := fun t ht hto hfrom => h.transactions t ht ⟨hfrom, hto⟩
  buyers := fun t ht hfrom hto => h.transactions t ht ⟨hfrom, hto⟩

/-- Records are kept of other planets only, each under its own id. -/
def Proper (stationId : String) (model : CounterpartyModel) : Prop :=
  model.Filed fun key id => id = key ∧ id ≠ stationId

theorem Proper.update {model : CounterpartyModel} (h : Proper s.selfStationId model)
    (two : TwoSided s) :
    Proper s.selfStationId (model.update s) :=
  CounterpartyModel.Filed.update (fun _ hother => ⟨rfl, hother⟩) h two.mentions

theorem Proper.markFailed {model : CounterpartyModel} (h : Proper stationId model)
    (other : String) :
    Proper stationId (model.markFailed other) := by
  intro key stats hstats
  unfold CounterpartyModel.markFailed at hstats
  rw [Dict.get?_update] at hstats
  split at hstats
  next =>
    obtain ⟨old, hold, rfl⟩ := Option.map_eq_some_iff.mp hstats
    exact h key old hold
  next => exact h key stats hstats

theorem Built.proper (h : Built stationId memory) : Proper stationId memory.counterparties := by
  induction h with
  | new =>
    intro key stats hstats
    simp [PolicyMemory.new, CounterpartyModel.empty] at hstats
  | observed _ hself htwo ih =>
    subst hself
    rw [PolicyMemory.observe_counterparties]
    exact ih.update htwo
  | failed other _ ih => exact ih.markFailed other
  | noted _ hsame ih => exact hsame ▸ ih

end Memory

/-- An offer every clause of the trading rules agrees with: whom it goes to, what it pays
and asks for, and how long it stands. -/
structure FairOffer (observation : Snapshot) (model : CounterpartyModel) (balance : Bundle)
    (station : String) (give receive : Bundle) (expires : Nat) : Prop where
  other : station ≠ observation.selfStationId
  trading : ∃ stats, model.stations.get? station = some stats ∧ stats.stationFailed = false
  terms : ∃ paying paid, 0 < paid ∧ give = .only paying paid ∧ (receive = .zero ∨
    ∃ want asked, want ≠ paying ∧ 0 < asked ∧ receive = .only want asked ∧ paid ≤ 8 * asked ∧
      (observation.rules.durationTicks - observation.tick ≤ 10 →
      paying = observation.me.specialty → paid ≤ 2 * asked) ∧
      asked + balance.get want ≤ stockCap ∧
      ∀ o ∈ observation.outgoingOpenOffers, o.recipientId = station → o.receive.get want = 0)
  future : observation.tick < expires
  ttl : expires ≤ observation.tick + observation.rules.maxOfferTtlTicks
  ends : expires ≤ observation.rules.durationTicks

/-- The action is a paid offer for this resource. -/
def Action.asks (r : Resource) : Action → Prop
  | .offer _ _ receive _ => 0 < receive.get r
  | _ => False

section Run

variable {observation : Snapshot} {ticksLeft : Option Nat} {reserve : Bundle}
  {model : CounterpartyModel} {start a : Account} {hist : List Deed} {station : String}
  {want : Resource}

theorem trading_known (proper : Proper observation.selfStationId model)
    (known : ∃ stats ∈ model.trading, stats.stationId = station) :
    station ≠ observation.selfStationId ∧
      ∃ stats, model.stations.get? station = some stats ∧ stats.stationFailed = false := by
  obtain ⟨stats, hstats, rfl⟩ := known
  obtain ⟨hvalue, halive⟩ := List.mem_filter.mp hstats
  obtain ⟨key, hkey⟩ := Dict.mem_values_iff.mp hvalue
  obtain ⟨hid, hother⟩ := proper key stats hkey
  exact ⟨hother, stats, hid ▸ hkey, by simpa using halive⟩

theorem unpending (h : (station, want) ∉ pendingPairs observation) :
    ∀ o ∈ observation.outgoingOpenOffers, o.recipientId = station → o.receive.get want = 0 := by
  rintro o ho rfl
  by_contra hasks
  refine h (List.mem_flatMap.mpr
    ⟨o, ho, List.mem_map.mpr ⟨want, List.mem_filter.mpr ⟨Resource.mem_all want, ?_⟩, rfl⟩⟩)
  exact decide_eq_true (Nat.pos_of_ne_zero hasks)

/-- No want is asked for twice. -/
theorem run_wants_nodup (run :
      Machine.GuardedRun (deedGuard observation ticksLeft reserve model) Deed.step start hist a) :
    (hist.filterMap Deed.wanted?).Nodup := by
  refine run.invariant (I := fun hist _ => (hist.filterMap Deed.wanted?).Nodup) List.nodup_nil ?_
  rintro hist a e b hnodup ⟨_, hallowed⟩ _
  rw [List.filterMap_append]
  cases e with
  | propose candidate paid asked =>
    obtain ⟨_, hfresh, _⟩ := hallowed
    exact List.nodup_append.mpr ⟨hnodup, List.nodup_singleton _, fun w hw w' hw' => by
      cases List.mem_singleton.mp hw'
      exact fun hsame => hfresh (hsame ▸ hw)⟩
  | _ =>
    show (hist.filterMap Deed.wanted? ++ []).Nodup
    rwa [List.append_nil]

end Run

section Outcome

variable {observation : Snapshot} {memory : PolicyMemory} {commitments : CommitmentTracker}
  {commandBudget : Option Int} {draft last : Plan} {p : Passage} {d : Deeds} {station : String}
  {give receive : Bundle} {expires : Nat}

theorem lifetime_bounds (lasts : 0 < offerLifetime observation) :
    observation.tick < observation.tick + offerLifetime observation ∧
    observation.tick + offerLifetime observation ≤
      observation.tick + observation.rules.maxOfferTtlTicks ∧
    observation.tick + offerLifetime observation ≤ observation.rules.durationTicks := by
  unfold offerLifetime at *
  omega

/-- Every offer of a decision is fair, if the records of other planets are proper. -/
theorem Conducted.fair (h : Conducted observation memory commitments commandBudget draft p d last)
    (proper : Proper observation.selfStationId (memory.observe observation).counterparties)
    (mem : .offer station give receive expires ∈ last.decision.actions) :
    FairOffer observation (memory.observe observation).counterparties p.listed.available station
      give receive expires := by
  rw [← h.model] at proper ⊢
  obtain ⟨rfl, hkind⟩ := h.offer_cases mem
  rcases hkind with ⟨r, quantity, hgiven, rfl, rfl⟩ |
      ⟨candidate, paid, asked, hproposed, rfl, rfl, rfl⟩ |
    ⟨gift, hdue, rfl, rfl, rfl⟩
  · obtain ⟨_, _, hpos, _, hlasts, _, hknown⟩ :=
      h.traced.gives.allowed (List.mem_append_right _ hgiven)
    obtain ⟨hother, htrading⟩ := trading_known proper hknown
    obtain ⟨hfuture, httl, hends⟩ := lifetime_bounds hlasts
    exact ⟨hother, htrading, ⟨r, quantity, hpos, rfl, Or.inl rfl⟩, hfuture, httl, hends⟩
  · obtain ⟨_, _, hlasts, _, _, hknown, hfree, limit, hlimit, hpriced⟩ :=
      h.traced.poses.allowed (List.mem_append_right _ hproposed)
    obtain ⟨hother, htrading⟩ := trading_known proper hknown
    obtain ⟨hfuture, httl, hends⟩ := lifetime_bounds hlasts
    have hpositive := hpriced.positive
    refine ⟨hother, htrading, ⟨candidate.give, paid, hpositive.1, rfl,
      Or.inr ⟨candidate.want, asked, hpriced.distinct, hpositive.2, rfl, ?_, fun hend hgive =>
      ?_, h.traced.asked h.reserve_le hproposed, unpending hfree⟩⟩, hfuture, httl, hends⟩
    · rcases hlimit with hnone | ⟨hhalf, _⟩
      · exact (hpriced.normal hnone).2
      · have hcapped : (paid : ℚ) ≤ 1 / 2 * asked := hpriced.capped _ hhalf
        have hloose : (paid : ℚ) ≤ 8 * asked := by
          have : (0 : ℚ) ≤ asked := Nat.cast_nonneg asked
          linarith
        exact_mod_cast hloose
    · rcases hlimit with hnone | ⟨_, hearly⟩
      · exact hpriced.atEnd hnone (inEndGame_iff.mpr hend) hgive
      · exact absurd hend (not_le.mpr (inEndGame_eq_false_iff.mp hearly))
  · have hchecked := aidDue_due hdue
    obtain ⟨_, hpos, _, _, _, hknown⟩ := scanForDistress_spec hchecked.found
    rw [h.traced.reviews.model] at hknown
    obtain ⟨hother, htrading⟩ := trading_known proper hknown
    obtain ⟨hfuture, httl, hends⟩ := lifetime_bounds hchecked.lasts
    exact ⟨hother, htrading, ⟨gift.resource, gift.quantity, hpos, rfl, Or.inl rfl⟩,
      hfuture, httl, hends⟩

/-- A decision asks for each resource in one paid offer at most. -/
theorem Conducted.asks_once
    (h : Conducted observation memory commitments commandBudget draft p d last) :
    last.decision.actions.Pairwise fun a b => ∀ r, a.asks r → ¬b.asks r := by
  have hwants : (d.beforeAid ++ Deeds.aids observation draft.decision.reserve p).Pairwise
      fun a b => ∀ r ∈ a.wanted?, ∀ r' ∈ b.wanted?, r ≠ r' := by
    have hnodup := run_wants_nodup h.traced.reviews.run
    have hnone : (Deeds.aids observation draft.decision.reserve p).filterMap Deed.wanted? = [] := by
      refine List.filterMap_eq_nil_iff.mpr fun e he => ?_
      obtain ⟨gift, _, rfl⟩ := List.mem_map.mp he
      rfl
    rw [← List.append_nil (d.beforeAid.filterMap Deed.wanted?), ← hnone,
      ← List.filterMap_append] at hnodup
    exact List.pairwise_filterMap.mp hnodup
  have hasks : ∀ e ∈ d.beforeAid ++ Deeds.aids observation draft.decision.reserve p, ∀ r,
      (e.action observation).asks r → e.wanted? = some r := by
    intro e he r hr
    cases e with
    | propose candidate paid asked =>
      by_contra hne
      have hwant : r ≠ candidate.want := fun hsame => hne (hsame ▸ rfl)
      simp [Deed.action, Action.asks, hwant] at hr
    | notice action =>
      rcases List.mem_append.mp he with hbefore | haid
      · obtain ⟨_, _, hallowed⟩ := h.traced.reviews.allowed hbefore
        obtain ⟨_, _, _, rfl, _⟩ | ⟨_, _, rfl⟩ := hallowed <;> exact absurd hr id
      · obtain ⟨_, _, hne⟩ := List.mem_map.mp haid
        cases hne
    | accept _ _ _ => exact absurd hr id
    | withdraw _ => exact absurd hr id
    | giveExcess _ _ _ => simp [Deed.action, Action.asks] at hr
    | aid _ => simp [Deed.action, Action.asks] at hr
  rw [h.actions, List.pairwise_map]
  refine hwants.imp_of_mem fun {a b} ha hb hapart r hr hr' => ?_
  exact hapart r (hasks a ha r hr) r (hasks b hb r hr') rfl

variable (observation memory commitments commandBudget)

/-- The offers of a decision keep to every rule of shape, price, quantity and deadline. -/
theorem decide_terms (two : TwoSided observation) (built : Built observation.selfStationId memory) :
    ∃ decision memory', Policy.decide observation memory commitments commandBudget =
      .ok (decision, memory') ∧
    (gateReason observation memory ≠ none → decision.actions = []) ∧
    (gateReason observation memory = none → ∃ draft p,
      assess observation memory commitments commandBudget = .ok draft ∧
      Course observation (some (observation.rules.durationTicks - observation.tick)) draft p ∧
      (∀ station give receive expires, .offer station give receive expires ∈ decision.actions →
        FairOffer observation (memory.observe observation).counterparties
          p.listed.available station give receive
          expires) ∧
      decision.actions.Pairwise fun a b => ∀ r, a.asks r → ¬b.asks r) := by
  have hproper : Proper observation.selfStationId (memory.observe observation).counterparties := by
    rw [PolicyMemory.observe_counterparties]
    exact built.proper.update two
  exact decide_rule observation memory commitments commandBudget fun draft p d last h =>
    ⟨fun station give receive expires hmem => h.fair hproper hmem, h.asks_once⟩

end Outcome

theorem decide_terms_market : ∃ decision memory',
    Policy.decide (marketView 6
      ⟨60, 12, 12⟩ [marketOffer ⟨0, 4, 0⟩ ⟨4, 0, 0⟩] [marketAd {.food} {.water}]) .new =
      .ok (decision, memory') ∧
    (∀ station give receive expires,
      .offer station give receive expires ∈ decision.actions → station ≠ "P01") ∧
    decision.actions.Pairwise fun a b => ∀ r, a.asks r → ¬b.asks r := by
  obtain ⟨decision, memory', hdecide, _, htrades⟩ := decide_terms
    (marketView 6 ⟨60, 12, 12⟩ [marketOffer ⟨0, 4, 0⟩ ⟨4, 0, 0⟩] [marketAd {.food} {.water}]) .new
      .new none
    ⟨by simp [marketView, marketOffer], by simp [marketView]⟩ .new
  obtain ⟨_, _, _, _, hfair, honce⟩ := htrades (by decide)
  exact ⟨decision, memory', hdecide, fun _ _ _ _ hmem => (hfair _ _ _ _ hmem).other, honce⟩

end SpaceportBazaar
