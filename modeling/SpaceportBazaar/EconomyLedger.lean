import SpaceportBazaar.EconomyBook

namespace SpaceportBazaar

open SimulatedEconomy

/-- What a planet received through a transaction; both sides count when it is both. -/
def Transaction.received (t : Transaction) (k : String) : Bundle :=
  (if t.proposerId = k then t.receive else 0) + (if t.recipientId = k then t.give else 0)

def Transaction.paid (t : Transaction) (k : String) : Bundle :=
  (if t.proposerId = k then t.give else 0) + (if t.recipientId = k then t.receive else 0)

/-- A station whose books are still empty. -/
structure SimStation.Fresh (s : SimStation) : Prop where
  produced : s.producedTotal = 0
  consumed : s.consumedTotal = 0
  unmet : s.unmetTotal = 0
  imported : s.imported = 0
  exported : s.exported = 0
  production : 0 ≤ s.production

/-- The books of one station after some ticks, against the station it started as. -/
structure Accounts (ticks : Nat) (s₀ s : SimStation) : Prop where
  goods : s.inventory + s.consumedTotal + s.exported = s₀.inventory + s.producedTotal + s.imported
  demand : s.consumedTotal + s.unmetTotal = ticks • s₀.upkeep
  upkeep : s.upkeep = s₀.upkeep
  production : 0 ≤ s.production

/-- The invariant of the station accounts and of the transactions behind them. -/
structure Ledger (e₀ e : SimulatedEconomy) : Prop where
  keys : e.stations.keys = e₀.stations.keys
  accounts : ∀ k s, e.stations.get? k = some s →
    ∃ s₀, e₀.stations.get? k = some s₀ ∧ Accounts e.tick s₀ s
  imported : ∀ k s, e.stations.get? k = some s →
    s.imported = (e.transactions.map (fun t => t.received k)).sum
  exported :
    ∀ k s, e.stations.get? k = some s → s.exported = (e.transactions.map (fun t => t.paid k)).sum
  world : (e.stations.values.map SimStation.imported).sum =
    (e.stations.values.map SimStation.exported).sum

namespace SimStation

def traded (s : SimStation) (pays gets : Bundle) : SimStation :=
  { s with
    inventory := s.inventory.saturatingSub pays + gets
    exported := s.exported + pays
    imported := s.imported + gets }

theorem afterTick_fields (rules : Rules) (tick : Nat) (s : SimStation) :
    (s.afterTick rules tick).imported = s.imported ∧
    (s.afterTick rules tick).exported = s.exported ∧
    (s.afterTick rules tick).upkeep = s.upkeep ∧ (s.afterTick rules tick).production =
      s.production := by
  simp only [afterTick]
  split <;> exact ⟨rfl, rfl, rfl, rfl⟩

/-- One tick in every resource: what was there and produced is kept or consumed,
and what the upkeep asks for is consumed or unmet. -/
theorem afterTick_get (rules : Rules) (tick : Nat) (s : SimStation) (r : Resource) :
    (s.afterTick rules tick).inventory.get r +
      (s.afterTick rules tick).consumedTotal.get r + s.producedTotal.get r =
      s.inventory.get r + s.consumedTotal.get r + (s.afterTick rules tick).producedTotal.get r ∧
    (s.afterTick rules tick).consumedTotal.get r + (s.afterTick rules tick).unmetTotal.get r =
      s.consumedTotal.get r + s.unmetTotal.get r + s.upkeep.get r := by
  simp only [afterTick]
  split <;> simp only [supplied, short, Bundle.get_add, Bundle.get_saturatingSub] <;> omega

end SimStation

theorem Accounts.traded {ticks : Nat} {s₀ s : SimStation} (h : Accounts ticks s₀ s)
    {pays gets : Bundle} (hle : pays ≤ s.inventory) : Accounts ticks s₀ (s.traded pays gets) where
  goods := by
    apply Bundle.ext_get
    intro r
    have hr := congrArg (fun b => b.get r) h.goods
    have := hle r
    simp only [SimStation.traded, Bundle.get_add, Bundle.get_saturatingSub] at hr ⊢
    omega
  demand := h.demand
  upkeep := h.upkeep
  production := h.production

theorem Accounts.ticked {ticks tick : Nat} {rules : Rules} {s₀ s : SimStation}
    (h : Accounts ticks s₀ s) :
    Accounts (ticks + 1) s₀ (s.afterTick rules tick) := by
  obtain ⟨himp, hexp, hup, hprod⟩ := s.afterTick_fields rules tick
  constructor
  case goods =>
    apply Bundle.ext_get
    intro r
    have hr := congrArg (fun b => b.get r) h.goods
    have hg := (s.afterTick_get rules tick r).1
    simp only [Bundle.get_add, himp, hexp] at hr ⊢
    omega
  case demand =>
    apply Bundle.ext_get
    intro r
    have hr := congrArg (fun b => b.get r) h.demand
    have hd := (s.afterTick_get rules tick r).2
    simp only [Bundle.get_add, Bundle.get_nsmul, h.upkeep, Nat.succ_mul] at hr hd ⊢
    omega
  case upkeep => exact hup.trans h.upkeep
  case production => exact hprod ▸ h.production

/-- Between two different planets that can both pay, the goods move and nothing raises. -/
theorem moveGoods_eq_ok {e : SimulatedEconomy} {offer : Offer} {p r : SimStation}
    (hp : e.stations.get? offer.proposerId = some p)
    (hr : e.stations.get? offer.recipientId = some r) (hne : offer.proposerId ≠ offer.recipientId)
    (hgive : offer.give ≤ p.inventory) (hreceive : offer.receive ≤ r.inventory) :
    e.moveGoods offer = .ok { e with
      stations := (e.stations.set offer.proposerId (p.traded offer.give offer.receive)).set
        offer.recipientId (r.traded offer.receive offer.give) } := by
  have hne' : offer.recipientId ≠ offer.proposerId := fun h => hne h.symm
  simp only [moveGoods, bind_eq_ok_iff, station_eq_ok_iff]
  refine ⟨p, hp, _, Bundle.sub_ok hgive, r, ?_, _, Bundle.sub_ok hreceive,
    { p with inventory := p.inventory.saturatingSub offer.give + offer.receive }, ?_,
    { r with inventory := r.inventory.saturatingSub offer.receive + offer.give }, ?_, ?_⟩
  · simpa [putStation, Dict.get?_set_of_ne _ _ hne'] using hr
  · simp only [putStation]
    rw [Dict.get?_set_of_ne _ _ hne, Dict.get?_set_self]
  · simp only [putStation]
    rw [Dict.get?_set_of_ne _ _ hne', Dict.get?_set_self]
  · simp only [putStation, pure, Except.pure, Except.ok.injEq]
    congr 1
    exact Dict.set_alternating hne hp hr

namespace Ledger

variable {e₀ e e' : SimulatedEconomy}

theorem frame (h : Ledger e₀ e) (hs : e'.stations = e.stations) (ht : e'.tick = e.tick)
    (hx : e'.transactions = e.transactions) : Ledger e₀ e' where
  keys := hs ▸ h.keys
  accounts := by rw [hs, ht]; exact h.accounts
  imported := by rw [hs, hx]; exact h.imported
  exported := by rw [hs, hx]; exact h.exported
  world := hs ▸ h.world

theorem settled (h : Ledger e₀ e) (hb : Book e) {acceptingId : String} {offer : Offer}
    {moved : SimulatedEconomy} (settles : Settles e acceptingId offer moved) :
    Ledger e₀ (e.settled moved offer) := by
  obtain ⟨p, hp, _, hgive⟩ := settles.proposer
  obtain ⟨r, hr, _, hreceive⟩ := settles.recipient
  have hne := (hb.live offer (findOffer_spec settles.found).1 settles.opened).parties
  have hne' : offer.recipientId ≠ offer.proposerId := fun h => hne h.symm
  have hstations :
      moved.stations = (e.stations.set offer.proposerId (p.traded offer.give offer.receive)).set
      offer.recipientId (r.traded offer.receive offer.give) := by
    cases Except.ok.inj (settles.goods.symm.trans (moveGoods_eq_ok hp hr hne hgive hreceive))
    rfl
  have hr' :
    (e.stations.set offer.proposerId (p.traded offer.give offer.receive)).get? offer.recipientId =
      some r := by rw [Dict.get?_set_of_ne _ _ hne', hr]
  -- every station after the settlement is the proposer, the recipient or untouched
  have hcases : ∀ k s, (e.settled moved offer).stations.get? k = some s →
      (k = offer.recipientId ∧ s = r.traded offer.receive offer.give) ∨
      (k = offer.proposerId ∧ s = p.traded offer.give offer.receive) ∨
      (k ≠ offer.recipientId ∧ k ≠ offer.proposerId ∧ e.stations.get? k = some s) := by
    intro k s hs
    rw [show (e.settled moved offer).stations = moved.stations from rfl, hstations] at hs
    rcases Dict.get?_set_some hs with hrecipient | ⟨hk, hs⟩
    · exact Or.inl hrecipient
    · rcases Dict.get?_set_some hs with hproposer | ⟨hk', hs⟩
      · exact Or.inr (Or.inl hproposer)
      · exact Or.inr (Or.inr ⟨hk, hk', hs⟩)
  constructor
  case keys =>
    rw [show (e.settled moved offer).stations = moved.stations from rfl, hstations,
      Dict.keys_set_of_mem hr', Dict.keys_set_of_mem hp]
    exact h.keys
  case accounts =>
    intro k s hs
    rcases hcases k s hs with ⟨rfl, rfl⟩ | ⟨rfl, rfl⟩ | ⟨_, _, hold⟩
    · obtain ⟨s₀, hs₀, ha⟩ := h.accounts _ r hr
      exact ⟨s₀, hs₀, ha.traded hreceive⟩
    · obtain ⟨s₀, hs₀, ha⟩ := h.accounts _ p hp
      exact ⟨s₀, hs₀, ha.traded hgive⟩
    · exact h.accounts k s hold
  case imported =>
    intro k s hs
    simp only [SimulatedEconomy.settled, List.map_append, List.sum_append, List.map_cons,
      List.map_nil, List.sum_cons, List.sum_nil, newTransaction, Transaction.received]
    rcases hcases k s hs with ⟨rfl, rfl⟩ | ⟨rfl, rfl⟩ | ⟨hk, hk', hold⟩
    · simp only [SimStation.traded, h.imported _ r hr, Transaction.received]
      simp [hne]
    · simp only [SimStation.traded, h.imported _ p hp, Transaction.received]
      simp [hne']
    · simp only [h.imported k s hold, Transaction.received]
      simp [Ne.symm hk, Ne.symm hk']
  case exported =>
    intro k s hs
    simp only [SimulatedEconomy.settled, List.map_append, List.sum_append, List.map_cons,
      List.map_nil, List.sum_cons, List.sum_nil, newTransaction, Transaction.paid]
    rcases hcases k s hs with ⟨rfl, rfl⟩ | ⟨rfl, rfl⟩ | ⟨hk, hk', hold⟩
    · simp only [SimStation.traded, h.exported _ r hr, Transaction.paid]
      simp [hne]
    · simp only [SimStation.traded, h.exported _ p hp, Transaction.paid]
      simp [hne']
    · simp only [h.exported k s hold, Transaction.paid]
      simp [Ne.symm hk, Ne.symm hk']
  case world =>
    have hi := Dict.sum_values_set SimStation.imported (w := p.traded offer.give offer.receive) hp
    have hi' := Dict.sum_values_set SimStation.imported (w := r.traded offer.receive offer.give) hr'
    have hx := Dict.sum_values_set SimStation.exported (w := p.traded offer.give offer.receive) hp
    have hx' := Dict.sum_values_set SimStation.exported (w := r.traded offer.receive offer.give) hr'
    rw [show (e.settled moved offer).stations = moved.stations from rfl, hstations]
    apply Bundle.ext_get
    intro q
    have hw := congrArg (fun b => b.get q) h.world
    have hi := congrArg (fun b => b.get q) hi
    have hi' := congrArg (fun b => b.get q) hi'
    have hx := congrArg (fun b => b.get q) hx
    have hx' := congrArg (fun b => b.get q) hx'
    simp only [SimStation.traded, Bundle.get_add] at hw hi hi' hx hx' ⊢
    omega

theorem executed (h : Ledger e₀ e) (hb : Book e) {stationId : String} {action : Action}
    {out : CommandOutcome} (hx : Executed e stationId action out e') : Ledger e₀ e' := by
  cases hx with
  | refused => exact h
  | failed => exact h.frame rfl rfl rfl
  | advertised => exact h.frame rfl rfl rfl
  | posted => exact h.frame rfl rfl rfl
  | adWithdrawn => exact h.frame rfl rfl rfl
  | offerWithdrawn => exact h.frame rfl rfl rfl
  | settled admitted settles =>
    have hc : Ledger e₀ (e.countCommand stationId) := h.frame rfl rfl rfl
    exact hc.settled (hb.counted stationId) settles

theorem ticked (h : Ledger e₀ e) : Ledger e₀ e.ticked := by
  constructor
  case keys => exact (Dict.keys_mapValues _ _).trans h.keys
  case accounts =>
    intro k s hs
    obtain ⟨old, hold, rfl⟩ := get?_ticked hs
    obtain ⟨s₀, hs₀, ha⟩ := h.accounts k old hold
    exact ⟨s₀, hs₀, ha.ticked⟩
  case imported =>
    intro k s hs
    obtain ⟨old, hold, rfl⟩ := get?_ticked hs
    exact (old.afterTick_fields _ _).1.trans (h.imported k old hold)
  case exported =>
    intro k s hs
    obtain ⟨old, hold, rfl⟩ := get?_ticked hs
    exact (old.afterTick_fields _ _).2.1.trans (h.exported k old hold)
  case world =>
    have hi :
        SimStation.imported ∘ SimStation.afterTick e.rules (e.tick + 1) = SimStation.imported :=
      funext fun s => (s.afterTick_fields _ _).1
    have hx :
        SimStation.exported ∘ SimStation.afterTick e.rules (e.tick + 1) = SimStation.exported :=
      funext fun s => (s.afterTick_fields _ _).2.1
    simp only [SimulatedEconomy.ticked, Dict.values_mapValues, List.map_map, hi, hx]
    exact h.world

theorem ended (h : Ledger e₀ e) (hb : Book e) : Ledger e₀ e.endRun := by
  rw [endRun_eq hb.distinct]
  exact h.frame rfl rfl rfl

theorem create {stations : List SimStation} (fresh : ∀ s ∈ stations, s.Fresh) (rules : Rules)
    (runId : String) :
    Ledger (SimulatedEconomy.create stations rules runId)
      (SimulatedEconomy.create stations rules runId) := by
  have hfresh :
      ∀ k s, (SimulatedEconomy.create stations rules runId).stations.get? k = some s → s.Fresh := by
    intro k s hs
    obtain ⟨t, ht, heq⟩ := List.mem_map.mp (Dict.mem_of_get?_ofList hs)
    obtain ⟨_, rfl⟩ := Prod.mk.inj heq
    exact fresh t ht
  have hvalues : ∀ s ∈ (SimulatedEconomy.create stations rules runId).stations.values, s.Fresh := by
    intro s hs
    obtain ⟨k, hk⟩ := Dict.mem_values_iff.mp hs
    exact hfresh k s hk
  constructor
  case keys => rfl
  case accounts =>
    intro k s hs
    have hf := hfresh k s hs
    refine ⟨s, hs, ?_, ?_, rfl, hf.production⟩
    · rw [hf.consumed, hf.exported, hf.produced, hf.imported]
    · rw [hf.consumed, hf.unmet]
      exact (zero_nsmul s.upkeep).symm
  case imported => exact fun k s hs => (hfresh k s hs).imported
  case exported => exact fun k s hs => (hfresh k s hs).exported
  case world =>
    congr 1
    apply List.map_congr_left
    intro s hs
    rw [(hvalues s hs).imported, (hvalues s hs).exported]

end Ledger

/-- An accept never raises: the parties of an open offer are known and distinct,
and both were just seen to hold what they pay. -/
theorem accept_ne_error {e : SimulatedEconomy} (hb : Book e) {acceptingId offerId : String}
    {raised : Raised} :
    e.accept acceptingId offerId ≠ .error raised := by
  intro h
  unfold accept at h
  split at h
  next => simp at h
  next offer hfind =>
    split_ifs at h with ha ho hx
    have hlive := hb.live offer (findOffer_spec hfind).1 (by simpa using ho)
    obtain ⟨p, hp, _⟩ := hlive.proposer
    obtain ⟨r, hr, _⟩ := hlive.recipient
    rw [station_eq_ok_iff.mpr hp, station_eq_ok_iff.mpr hr] at h
    simp only [bind, Except.bind] at h
    split_ifs at h with hf hd
    · simp [pure, Except.pure] at h
    · simp [pure, Except.pure] at h
    · simp only [Bool.or_eq_true, not_or, Bool.not_eq_true, Bool.not_eq_false',
        Bundle.dominates_iff] at hd
      have hm := moveGoods_eq_ok hp hr hlive.parties hd.1 hd.2
      unfold settle at h
      rw [hm] at h
      simp [bind, Except.bind, pure, Except.pure] at h

theorem execute_error {e : SimulatedEconomy} (hb : Book e) {stationId : String} {action : Action}
    {raised : Raised} (h : e.execute stationId action = .error raised) :
    raised = .keyError stationId ∧ e.stations.get? stationId = none := by
  cases hs : e.stations.get? stationId with
  | none =>
    have herr := station_eq_error_iff.mpr ⟨hs, rfl⟩
    refine ⟨?_, rfl⟩
    simp only [execute, precheck, herr, bind, Except.bind, Except.error.injEq] at h
    exact h.symm
  | some s =>
    exfalso
    obtain ⟨refused, hp⟩ : ∃ refused, e.precheck stationId action = .ok refused :=
      ⟨_, precheck_eq_ok_iff.mpr ⟨s, hs, rfl⟩⟩
    unfold execute at h
    rw [hp] at h
    simp only [bind, Except.bind] at h
    split at h
    next => simp [pure, Except.pure] at h
    next =>
      cases action with
      | accept offerId => exact accept_ne_error (hb.counted stationId) h
      | _ => simp [process] at h

theorem advanceTick_ne_error {e₀ e : SimulatedEconomy} (h : Ledger e₀ e) {raised : Raised} :
    e.advanceTick ≠ .error raised := by
  intro herr
  have hstations : e.beginTick.expire.stations = e.stations := by
    unfold expire
    rw [closeWhere_frame]
    rfl
  obtain ⟨stations, hs⟩ := Dict.traverse_ok
    (f := SimStation.settleTick e.beginTick.expire.rules e.beginTick.expire.tick)
        (d := e.stations) (by
      intro s hs
      obtain ⟨k, hk⟩ := Dict.mem_values_iff.mp hs
      obtain ⟨_, _, ha⟩ := h.accounts k s hk
      exact ⟨_, SimStation.settleTick_eq_ok_iff.mpr ⟨ha.production, rfl⟩⟩)
  simp only [advanceTick] at herr
  rw [hstations, hs] at herr
  simp [bind, Except.bind, pure, Except.pure] at herr

section Runs

variable {e₀ e e' : SimulatedEconomy} {ls : List (Operation × List Processed)}

theorem applyActions_error
    (hb : Book e) (h : Ledger e₀ e) {stationId : String} {actions : List Action}
    {raised : Raised} (herr : e.applyActions stationId actions = .error raised) :
    raised = .keyError stationId ∧ stationId ∉ e₀.stations.keys := by
  induction actions generalizing e with
  | nil => simp [applyActions] at herr
  | cons action actions ih =>
    unfold applyActions at herr
    cases hx : e.execute stationId action with
    | error raised' =>
      obtain ⟨rfl, hnone⟩ := execute_error hb hx
      rw [hx] at herr
      simp only [bind, Except.bind, Except.error.injEq] at herr
      refine ⟨herr.symm, ?_⟩
      rw [← h.keys]
      intro hk
      obtain ⟨s, hs⟩ := Dict.mem_keys_iff.mp hk
      simp [hnone] at hs
    | ok r =>
      obtain ⟨out, m⟩ := r
      have hx := execute_executed hx
      rw [show e.execute stationId action = .ok (out, m) from ‹_›] at herr
      simp only [bind, Except.bind] at herr
      split at herr
      next raised' hrest =>
        simp only [Except.error.injEq] at herr
        subst herr
        refine ih ?_ ?_ hrest
        · split
          next => exact hb.executed hx
          next => exact (hb.executed hx).frame rfl rfl rfl rfl le_rfl
        · split
          next => exact h.executed hb hx
          next => exact (h.executed hb hx).frame rfl rfl rfl
      next => simp [pure, Except.pure] at herr

theorem perform_error (hb : Book e) (h : Ledger e₀ e) {op : Operation} {raised : Raised}
    (herr : e.perform op = .error raised) :
    ∃ stationId, raised = .keyError stationId ∧ stationId ∉ e₀.stations.keys := by
  cases op with
  | execute stationId action =>
    refine ⟨stationId, ?_⟩
    cases hx : e.execute stationId action with
    | error raised' =>
      obtain ⟨rfl, hnone⟩ := execute_error hb hx
      simp only [perform, hx, bind, Except.bind, Except.error.injEq] at herr
      refine ⟨herr.symm, ?_⟩
      rw [← h.keys]
      intro hk
      obtain ⟨s, hs⟩ := Dict.mem_keys_iff.mp hk
      simp [hnone] at hs
    | ok r => simp [perform, hx, bind, Except.bind, pure, Except.pure] at herr
  | apply stationId actions =>
    refine ⟨stationId, ?_⟩
    cases hx : e.applyActions stationId actions with
    | error raised' =>
      simp only [perform, apply, hx, bind, Except.bind, Except.error.injEq] at herr
      subst herr
      exact applyActions_error hb h hx
    | ok r => simp [perform, apply, hx, bind, Except.bind, pure, Except.pure] at herr
  | advanceTick =>
    cases hx : e.advanceTick with
    | error raised' => exact absurd hx (advanceTick_ne_error h)
    | ok r => simp [perform, hx, bind, Except.bind, pure, Except.pure] at herr
  | endRun => simp [perform] at herr

variable {stations : List SimStation} {rules : Rules} {runId : String}

theorem run_ledger (fresh : ∀ s ∈ stations, s.Fresh)
    (run : Machine.Run Performs (create stations rules runId) ls e) :
    Book e ∧ Ledger (create stations rules runId) e := by
  refine operations_invariant (I := fun _ e => Book e ∧ Ledger (create stations rules runId) e)
    ?_ ?_ ?_ ?_ run ⟨Book.create .., Ledger.create fresh ..⟩
  · rintro _ e _ _ _ e' ⟨hb, h⟩ hx
    exact ⟨hb.executed hx, h.executed hb hx⟩
  · rintro _ e _ _ ⟨hb, h⟩
    exact ⟨hb.frame rfl rfl rfl rfl le_rfl, h.frame rfl rfl rfl⟩
  · rintro _ e e' ⟨hb, h⟩ ha
    rw [advanceTick_eq_ticked hb.distinct ha]
    exact ⟨hb.ticked, h.ticked⟩
  · rintro _ e ⟨hb, h⟩
    exact ⟨hb.ended, h.ended hb⟩

theorem executed_tick {stationId : String} {action : Action} {out : CommandOutcome}
    (hx : Executed e stationId action out e') : e'.tick = e.tick := by
  cases hx <;> rfl

theorem applyActions_tick {stationId : String} {actions : List Action}
    {outs : List (Action × CommandOutcome)}
    (h : e.applyActions stationId actions = .ok (outs, e')) :
    e'.tick = e.tick := by
  refine applyActions_invariant (I := fun _ a => a.tick = e.tick) ?_ ?_ [] rfl h
  · exact fun _ a _ _ _ b ha hx => (executed_tick hx).trans ha
  · exact fun _ a _ _ ha => ha

/-- The clock counts the ticks: no other operation moves it. -/
theorem perform_tick (hb : Book e) {op : Operation} {outs : List Processed}
    (h : e.perform op = .ok (outs, e')) :
    e'.tick = e.tick + if op = .advanceTick then 1 else 0 := by
  cases perform_performed h with
  | execute hx => exact executed_tick (execute_executed hx)
  | @apply _ _ _ u hbatch => exact (applyActions_tick hbatch : u.tick = e.tick)
  | advanceTick hx =>
    rw [advanceTick_eq_ticked hb.distinct hx]
    rfl
  | endRun =>
    rw [endRun_eq hb.distinct]
    rfl

theorem run_tick (run : Machine.Run Performs (create stations rules runId) ls e) :
    e.tick = (ls.map Prod.fst).count .advanceTick := by
  have both : Book e ∧ e.tick = (ls.map Prod.fst).count .advanceTick := by
    refine run.invariant (I := fun ls e => Book e ∧ e.tick = (ls.map Prod.fst).count .advanceTick)
      ⟨Book.create .., rfl⟩ ?_
    rintro ls a ⟨op, outs⟩ b ⟨hb, ht⟩ hstep
    refine ⟨(run_keeps hb (Machine.Run.single hstep)).1, ?_⟩
    rw [perform_tick hb hstep, ht, List.map_append, List.count_append]
    by_cases hop : op = .advanceTick <;> simp [hop]
  exact both.2

/-- Goods are conserved station by station and across the world, upkeep is
consumed or recorded as unmet, and nothing but an unknown station raises. -/
theorem run_conserves (fresh : ∀ s ∈ stations, s.Fresh)
    (run : Machine.Run Performs (create stations rules runId) ls e) :
    (∀ k s, e.stations.get? k = some s → ∃ s₀,
      (create stations rules runId).stations.get? k = some s₀ ∧
      s.inventory + s.consumedTotal + s.exported = s₀.inventory + s.producedTotal + s.imported ∧
      s.consumedTotal + s.unmetTotal = (ls.map Prod.fst).count .advanceTick • s₀.upkeep ∧
      s.imported = (e.transactions.map (fun t => t.received k)).sum ∧
      s.exported = (e.transactions.map (fun t => t.paid k)).sum) ∧
    (e.stations.values.map SimStation.imported).sum =
      (e.stations.values.map SimStation.exported).sum ∧
    (∀ op raised, e.perform op = .error raised →
      ∃ stationId, raised = .keyError stationId ∧ e.stations.get? stationId = none) := by
  obtain ⟨hb, h⟩ := run_ledger fresh run
  refine ⟨?_, h.world, ?_⟩
  · intro k s hs
    obtain ⟨s₀, hs₀, ha⟩ := h.accounts k s hs
    exact ⟨s₀, hs₀, ha.goods, run_tick run ▸ ha.demand, h.imported k s hs, h.exported k s hs⟩
  · intro op raised herr
    obtain ⟨stationId, hr, hk⟩ := perform_error hb h herr
    refine ⟨stationId, hr, ?_⟩
    rw [← h.keys] at hk
    cases hs : e.stations.get? stationId with
    | none => rfl
    | some s => exact absurd (Dict.mem_keys_iff.mpr ⟨s, hs⟩) hk

/-- Two planets, and one trade between them that settles before the first tick. -/
theorem run_conserves_trade :
    ∃ ls e, Machine.Run Performs (create tradingPair defaultRules "sim") ls e ∧
      (∃ s, e.stations.get? "P01" = some s ∧ s.exported = ⟨2, 0, 0⟩ ∧
        s.exported = (e.transactions.map (fun t => t.paid "P01")).sum) ∧
      (e.stations.values.map SimStation.imported).sum =
        (e.stations.values.map SimStation.exported).sum := by
  obtain ⟨⟨ls, e⟩, hall, hs⟩ :
    ∃ r, (create tradingPair defaultRules "sim").performAll oneTrade = .ok r ∧
      (r.2.stations.get? "P01").map SimStation.exported = some ⟨2, 0, 0⟩ := ⟨_, rfl, rfl⟩
  have fresh : ∀ s ∈ tradingPair, s.Fresh := by
    intro s hs
    simp only [tradingPair, List.mem_cons, List.not_mem_nil, or_false] at hs
    rcases hs with rfl | rfl <;> exact ⟨rfl, rfl, rfl, rfl, rfl, by decide⟩
  have run := run_of_performAll hall
  obtain ⟨hstations, hworld, _⟩ := run_conserves fresh run
  obtain ⟨s, hs, hx⟩ := Option.map_eq_some_iff.mp hs
  obtain ⟨_, _, _, _, _, hpaid⟩ := hstations "P01" s hs
  exact ⟨ls, e, run, ⟨s, hs, hx, hpaid⟩, hworld⟩

end Runs

end SpaceportBazaar
