import SpaceportBazaar.Economy
import SpaceportBazaar.Machine

namespace SpaceportBazaar

namespace SimulatedEconomy

variable {e e' : SimulatedEconomy} {stationId : String} {action : Action} {out : CommandOutcome}

theorem station_eq_ok_iff {s : SimStation} :
    e.station stationId = .ok s ↔ e.stations.get? stationId = some s := by
  unfold station
  split
  next t ht => simp [ht]
  next ht => simp [ht]

theorem station_eq_error_iff {raised : Raised} :
    e.station stationId = .error raised ↔
      e.stations.get? stationId = none ∧ raised = .keyError stationId := by
  unfold station
  split
  next t ht => simp [ht]
  next ht => simp [ht, eq_comm]

theorem deadlineAllowed_iff {ttl expiresTick : Nat} :
    e.deadlineAllowed ttl expiresTick = true ↔
      e.tick < expiresTick ∧ expiresTick ≤ e.tick + ttl ∧ expiresTick ≤ e.rules.durationTicks := by
  simp [deadlineAllowed]

theorem precheckOffer_eq_none_iff {s : SimStation} {recipientId : String} {give : Bundle} :
    e.precheckOffer stationId s recipientId give = none ↔
      ∃ recipient, e.stations.get? recipientId = some recipient ∧ recipientId ≠ stationId ∧
        give ≠ 0 ∧ recipient.failedOnce = false ∧ give ≤ s.inventory ∧
        e.openCount stationId < e.rules.maxOpenOutgoingOffers := by
  unfold precheckOffer
  split
  next h => simp [h]
  next recipient h =>
    simp only [h, Option.some.injEq, exists_eq_left']
    by_cases hself : recipientId = stationId
    · simp [hself]
    · by_cases hzero : give = 0
      · simp [hzero, Bundle.isZero_iff.mpr]
      · have hz : give.isZero = false := by
          simpa [← Bundle.isZero_iff] using hzero
        by_cases hfail : recipient.failedOnce = true
        · simp [hself, hz, hfail]
        · by_cases hdom : s.inventory.dominates give = true
          · have hle := Bundle.dominates_iff.mp hdom
            simp [hself, hz, hfail, hdom, hle, hzero]
          · have hle : ¬ give ≤ s.inventory := fun hg => hdom (Bundle.dominates_iff.mpr hg)
            simp [hself, hz, hfail, hdom, hle]

theorem precheckAction_ne_ok {s : SimStation} {code : ResultCode}
    (h : e.precheckAction stationId s action = some code) :
    code ≠ .ok ∧ code ≠ .expired ∧ code ≠ .requestIdConflict ∧ code ≠ .rateLimited := by
  cases action with
  | offer recipientId give receive expiresTick =>
    simp only [precheckAction] at h
    split at h
    next => cases h; decide
    next =>
      unfold precheckOffer at h
      split at h
      next => cases h; decide
      next => split_ifs at h <;> cases h <;> decide
  | advertise selling seeking expiresTick =>
    simp only [precheckAction] at h
    split at h
    next => cases h; decide
    next => simp at h
  | accept offerId => simp [precheckAction] at h
  | withdraw objectId => simp [precheckAction] at h
  | sync => simp [precheckAction] at h

theorem precheck_eq_ok_iff {refused : Option ResultCode} :
    e.precheck stationId action = .ok refused ↔
      ∃ s, e.stations.get? stationId = some s ∧ refused =
        if s.failedOnce then some .stationFailed
        else if e.rules.durationTicks ≤ e.tick then some .runNotRunning
        else if e.rules.newCommandsPerStationPerTick ≤ e.countOf stationId then some .rateLimited
        else e.precheckAction stationId s action := by
  unfold precheck
  rw [bind_eq_ok_iff]
  constructor
  · rintro ⟨s, hs, hr⟩
    exact ⟨s, station_eq_ok_iff.mp hs, (Except.ok.inj hr).symm⟩
  · rintro ⟨s, hs, rfl⟩
    exact ⟨s, station_eq_ok_iff.mpr hs, rfl⟩

/-- What lets a command through to be processed and counted. -/
structure Admitted (e : SimulatedEconomy) (stationId : String) (action : Action)
    (s : SimStation) : Prop where
  known : e.stations.get? stationId = some s
  standing : s.failedOnce = false
  running : e.tick < e.rules.durationTicks
  quota : e.countOf stationId < e.rules.newCommandsPerStationPerTick
  checked : e.precheckAction stationId s action = none

theorem precheck_eq_none_iff :
    e.precheck stationId action = .ok none ↔ ∃ s, Admitted e stationId action s := by
  rw [precheck_eq_ok_iff]
  constructor
  · rintro ⟨s, hs, h⟩
    split_ifs at h with hf ht hq
    exact ⟨s, hs, by simpa using hf, by omega, by omega, h.symm⟩
  · rintro ⟨s, hs, hf, ht, hq, ha⟩
    refine ⟨s, hs, ?_⟩
    rw [hf, if_neg Bool.false_ne_true, if_neg (by omega), if_neg (by omega), ha]

theorem precheck_refused_ne_ok {code : ResultCode}
    (h : e.precheck stationId action = .ok (some code)) :
    code ≠ .ok ∧ code ≠ .expired ∧ code ≠ .requestIdConflict := by
  obtain ⟨s, _, h⟩ := precheck_eq_ok_iff.mp h
  split_ifs at h
  · cases h; decide
  · cases h; decide
  · cases h; decide
  · obtain ⟨hok, hexpired, hconflict, _⟩ := precheckAction_ne_ok h.symm
    exact ⟨hok, hexpired, hconflict⟩

/-- A command is refused for its number only when the quota is used up. -/
theorem precheck_rateLimited (h : e.precheck stationId action = .ok (some .rateLimited)) :
    e.rules.newCommandsPerStationPerTick ≤ e.countOf stationId := by
  obtain ⟨s, _, h⟩ := precheck_eq_ok_iff.mp h
  split_ifs at h with _ _ hquota
  · simp at h
  · simp at h
  · exact hquota
  · exact absurd rfl (precheckAction_ne_ok h.symm).2.2.2

/-- An accept that goes through: the guards it passed, and where the goods went. -/
structure Settles (e : SimulatedEconomy) (acceptingId : String) (offer : Offer)
    (moved : SimulatedEconomy) : Prop where
  found : e.findOffer offer.offerId = some offer
  addressed : offer.recipientId = acceptingId
  opened : offer.status = .opened
  inTime : e.tick < offer.expiresTick
  proposer : ∃ p, e.stations.get? offer.proposerId = some p ∧ p.failedOnce = false ∧
    offer.give ≤ p.inventory
  recipient : ∃ r, e.stations.get? offer.recipientId = some r ∧ r.failedOnce = false ∧
    offer.receive ≤ r.inventory
  goods : e.moveGoods offer = .ok moved

def settled (e moved : SimulatedEconomy) (offer : Offer) : SimulatedEconomy :=
  { e with
    stations := moved.stations
    ids := e.ids + 1
    offers := e.offers.map (fun o =>
      if o.offerId ≠ offer.offerId then o
      else o.closed .accepted e.tick (some (issuedId "txn" e.ids)))
    transactions := e.transactions ++ [e.newTransaction (issuedId "txn" e.ids) offer] }

/-- The goods move between stations and nothing else changes. -/
theorem moveGoods_frame {offer : Offer} (h : e.moveGoods offer = .ok e') :
    e' = { e with stations := e'.stations } := by
  simp only [moveGoods, bind_eq_ok_iff] at h
  obtain ⟨p, _, paid, _, r, _, paid', _, p', _, r', _, h⟩ := h
  cases Except.ok.inj h
  rfl

theorem settle_eq_ok_iff {offer : Offer} :
    e.settle offer = .ok (out, e') ↔ ∃ moved, e.moveGoods offer = .ok moved ∧
      out = ⟨.ok, some offer.offerId, some (issuedId "txn" e.ids)⟩ ∧
      e' = e.settled moved offer := by
  unfold settle
  rw [bind_eq_ok_iff]
  constructor
  · rintro ⟨m, hm, h⟩
    obtain ⟨rfl, rfl⟩ := Prod.mk.inj (Except.ok.inj h)
    have hf := moveGoods_frame hm
    refine ⟨m, hm, ?_, ?_⟩
    · rw [hf]
    · rw [hf]; rfl
  · rintro ⟨m, hm, rfl, rfl⟩
    refine ⟨m, hm, ?_⟩
    have hf := moveGoods_frame hm
    rw [hf]; rfl

theorem findOffer_spec {offer : Offer} {offerId : String} (h : e.findOffer offerId = some offer) :
    offer ∈ e.offers ∧ offer.offerId = offerId :=
  ⟨List.mem_of_find?_eq_some h, by simpa using List.find?_some h⟩

theorem accept_cases {offerId : String} (h : e.accept stationId offerId = .ok (out, e')) :
    (out.code ≠ .ok ∧ (out.code ≠ .requestIdConflict ∧ out.code ≠ .rateLimited) ∧
      e' = e ∧ (out.code = .expired →
      ∃ o ∈ e.offers, o.status = .opened ∧ o.expiresTick ≤ e.tick)) ∨
    ∃ offer moved, Settles e stationId offer moved ∧ offer.offerId = offerId ∧
      out = ⟨.ok, some offerId, some (issuedId "txn" e.ids)⟩ ∧ e' = e.settled moved offer := by
  unfold accept at h
  split at h
  next => cases Except.ok.inj h; exact Or.inl ⟨by decide, by decide, rfl, by simp⟩
  next offer hfind =>
    obtain ⟨hmem, hid⟩ := findOffer_spec hfind
    split_ifs at h with ha ho hx
    · cases Except.ok.inj h; exact Or.inl ⟨by decide, by decide, rfl, by simp⟩
    · cases Except.ok.inj h; exact Or.inl ⟨by decide, by decide, rfl, by simp⟩
    · cases Except.ok.inj h
      refine Or.inl ⟨by decide, by decide, rfl, fun _ => ⟨offer, hmem, by simpa using ho, ?_⟩⟩
      simpa [Offer.isExpiredAt] using hx
    · obtain ⟨p, hp, h⟩ := bind_eq_ok_iff.mp h
      obtain ⟨r, hr, h⟩ := bind_eq_ok_iff.mp h
      have hp := station_eq_ok_iff.mp hp
      have hr := station_eq_ok_iff.mp hr
      split_ifs at h with hf hd
      · cases Except.ok.inj h; exact Or.inl ⟨by simp, by simp, rfl, by simp⟩
      · cases Except.ok.inj h; exact Or.inl ⟨by simp, by simp, rfl, by simp⟩
      · obtain ⟨moved, hm, rfl, rfl⟩ := settle_eq_ok_iff.mp h
        simp only [Bool.or_eq_true, not_or, Bool.not_eq_true] at hf
        simp only [Bool.or_eq_true, not_or, Bool.not_eq_true, Bool.not_eq_false',
          Bundle.dominates_iff] at hd
        refine Or.inr ⟨offer, moved, ?_, hid, by rw [hid], rfl⟩
        exact {
          found := hid ▸ hfind
          addressed := by simpa using ha
          opened := by simpa using ho
          inTime := by simpa [Offer.isExpiredAt] using hx
          proposer := ⟨p, hp, hf.1, hd.1⟩
          recipient := ⟨r, hr, hf.2, hd.2⟩
          goods := hm }

/-- Everything one command can do to the economy. -/
inductive Executed (e : SimulatedEconomy) (stationId : String) :
    Action → CommandOutcome → SimulatedEconomy → Prop
  | refused {action code} (h : e.precheck stationId action = .ok (some code)) :
    Executed e stationId action ⟨code, none, none⟩ e
  | failed {action out s} (admitted : Admitted e stationId action s) (hout : out.code ≠ .ok)
    (engine : out.code ≠ .requestIdConflict ∧ out.code ≠ .rateLimited)
    (late : out.code = .expired → ∃ o ∈ e.offers, o.status = .opened ∧ o.expiresTick ≤ e.tick) :
    Executed e stationId action out (e.countCommand stationId)
  | advertised {selling seeking expiresTick s}
    (admitted : Admitted e stationId (.advertise selling seeking expiresTick) s) :
    Executed e stationId (.advertise selling seeking expiresTick)
      ⟨.ok, some (issuedId "ad" e.ids), none⟩
      { e.countCommand stationId with
        ids := e.ids + 1
        advertisements := e.advertisements.filter (fun a => a.stationId ≠ stationId) ++
          [e.newAdvertisement (issuedId "ad" e.ids) stationId selling seeking expiresTick] }
  | posted {recipientId give receive expiresTick s}
    (admitted : Admitted e stationId (.offer recipientId give receive expiresTick) s) :
    Executed e stationId (.offer recipientId give receive expiresTick)
      ⟨.ok, some (issuedId "offer" e.ids), none⟩
      { e.countCommand stationId with
        ids := e.ids + 1
        offers := e.offers ++
          [e.newOffer (issuedId "offer" e.ids) stationId recipientId give receive expiresTick] }
  | adWithdrawn {ad s} (admitted : Admitted e stationId (.withdraw ad.advertisementId) s)
    (found : ad ∈ e.advertisements) (own : ad.stationId = stationId) :
    Executed e stationId (.withdraw ad.advertisementId) ⟨.ok, some ad.advertisementId, none⟩
      { e.countCommand stationId with advertisements := e.advertisements.erase ad }
  | offerWithdrawn {offer s} (admitted : Admitted e stationId (.withdraw offer.offerId) s)
    (found : e.findOffer offer.offerId = some offer) (own : offer.proposerId = stationId)
    (opened : offer.status = .opened) :
    Executed e stationId (.withdraw offer.offerId) ⟨.ok, some offer.offerId, none⟩
      ((e.countCommand stationId).close offer.offerId .withdrawn none)
  | settled {offer s moved} (admitted : Admitted e stationId (.accept offer.offerId) s)
    (settles : Settles (e.countCommand stationId) stationId offer moved) :
    Executed e stationId (.accept offer.offerId)
      ⟨.ok, some offer.offerId, some (issuedId "txn" e.ids)⟩
      ((e.countCommand stationId).settled moved offer)

theorem withdraw_executed {objectId : String} {s : SimStation}
    (admitted : Admitted e stationId (.withdraw objectId) s) :
    Executed e stationId (.withdraw objectId)
      ((e.countCommand stationId).withdraw stationId objectId).1
      ((e.countCommand stationId).withdraw stationId objectId).2 := by
  unfold withdraw
  split
  next ad hfind =>
    have hid : ad.advertisementId = objectId := by simpa using List.find?_some hfind
    subst hid
    split
    next => exact Executed.failed admitted (by simp) (by simp) (by simp)
    next hown =>
      exact Executed.adWithdrawn admitted (List.mem_of_find?_eq_some hfind) (by simpa using hown)
  next =>
    split
    next => exact Executed.failed admitted (by simp) (by simp) (by simp)
    next offer hfind =>
      obtain ⟨_, hid⟩ := findOffer_spec hfind
      subst hid
      split
      next => exact Executed.failed admitted (by simp) (by simp) (by simp)
      next hown =>
        split
        next => exact Executed.failed admitted (by simp) (by simp) (by simp)
        next hopen =>
          exact Executed.offerWithdrawn admitted hfind (by simpa using hown) (by simpa using hopen)

theorem execute_executed (h : e.execute stationId action = .ok (out, e')) :
    Executed e stationId action out e' := by
  obtain ⟨refused, hp, h⟩ := bind_eq_ok_iff.mp h
  cases refused with
  | some code =>
    obtain ⟨rfl, rfl⟩ := Prod.mk.inj (Except.ok.inj h)
    exact Executed.refused hp
  | none =>
    obtain ⟨s, admitted⟩ := precheck_eq_none_iff.mp hp
    cases action with
    | advertise selling seeking expiresTick =>
      obtain ⟨rfl, rfl⟩ := Prod.mk.inj (Except.ok.inj h)
      exact Executed.advertised admitted
    | offer recipientId give receive expiresTick =>
      obtain ⟨rfl, rfl⟩ := Prod.mk.inj (Except.ok.inj h)
      exact Executed.posted admitted
    | accept offerId =>
      rcases accept_cases h with ⟨hout, hengine, rfl, hlate⟩ |
        ⟨offer, moved, settles, rfl, rfl, rfl⟩
      · exact Executed.failed admitted hout hengine hlate
      · exact Executed.settled admitted settles
    | withdraw objectId =>
      obtain ⟨rfl, rfl⟩ := Prod.mk.inj (Except.ok.inj h)
      exact withdraw_executed admitted
    | sync =>
      obtain ⟨rfl, rfl⟩ := Prod.mk.inj (Except.ok.inj h)
      exact Executed.failed admitted (by simp) (by simp) (by simp)

/-- REQUEST_ID_CONFLICT is the server's word, not the engine's. -/
theorem Executed.code_ne_conflict (h : Executed e stationId action out e') :
    out.code ≠ .requestIdConflict := by
  cases h with
  | refused hp => exact (precheck_refused_ne_ok hp).2.2
  | failed _ _ engine _ => exact engine.1
  | advertised => simp
  | posted => simp
  | adWithdrawn => simp
  | offerWithdrawn => simp
  | settled => simp

theorem Executed.rateLimited (h : Executed e stationId action out e')
    (hcode : out.code = .rateLimited) :
    e.rules.newCommandsPerStationPerTick ≤ e.countOf stationId := by
  cases h with
  | refused hp =>
    subst hcode
    exact precheck_rateLimited hp
  | failed _ _ engine _ => exact absurd hcode engine.2
  | advertised => simp at hcode
  | posted => simp at hcode
  | adWithdrawn => simp at hcode
  | offerWithdrawn => simp at hcode
  | settled => simp at hcode

theorem countOf_countCommand (e : SimulatedEconomy) (stationId p : String) :
    (e.countCommand stationId).countOf p = e.countOf p + if p = stationId then 1 else 0 := by
  simp only [countOf, countCommand, Dict.get?_set]
  split
  next hp => simp [hp]
  next => simp

/-- A command counts once at most, and only against its own station. -/
theorem Executed.countOf (h : Executed e stationId action out e') (p : String) :
    e'.countOf p ≤ e.countOf p + if p = stationId then 1 else 0 := by
  cases h with
  | refused => omega
  | failed | advertised | posted | adWithdrawn | offerWithdrawn | settled =>
    exact (countOf_countCommand e stationId p).le

/-- What closing does to a book when every OPEN offer that `p` picks out goes. -/
def closeOpen (p : Offer → Bool) (status : OfferStatus) (tick : Nat)
    (os : List Offer) : List Offer :=
  os.map (fun o => if o.status = .opened && p o then o.closed status tick none else o)

theorem foldl_close (p : Offer → Bool) (status : OfferStatus) (os : List Offer)
    (e : SimulatedEconomy) :
    os.foldl (fun e o => if o.status = .opened && p o then e.close o.offerId status none else e) e =
      { e with offers := e.offers.map (fun o =>
          if os.any (fun q => q.status = .opened && p q && q.offerId = o.offerId)
          then o.closed status e.tick none else o) } := by
  induction os generalizing e with
  | nil => simp
  | cons q os ih =>
    rw [List.foldl_cons, ih]
    by_cases hq : (q.status = .opened && p q) = true
    · simp only [hq, if_true, close, List.map_map, List.any_cons, Bool.true_and]
      congr 1
      apply List.map_congr_left
      intro o _
      by_cases hid : o.offerId = q.offerId
      · simp [hid, Offer.closed]
      · have hid' : q.offerId ≠ o.offerId := fun h => hid h.symm
        simp [hid, hid']
    · simp [hq]

theorem closeWhere_frame (e : SimulatedEconomy) (p : Offer → Bool) (status : OfferStatus) :
    e.closeWhere p status = { e with offers := (e.closeWhere p status).offers } := by
  unfold closeWhere
  rw [foldl_close]

/-- Under distinct ids the fold over the old book touches each offer at most once. -/
theorem closeWhere_eq {p : Offer → Bool} {status : OfferStatus}
    (hn : (e.offers.map Offer.offerId).Nodup) :
    e.closeWhere p status = { e with offers := closeOpen p status e.tick e.offers } := by
  unfold closeWhere closeOpen
  rw [foldl_close]
  congr 1
  apply List.map_congr_left
  intro o ho
  have hany : (e.offers.any (fun q => q.status = .opened && p q && q.offerId = o.offerId)) =
      (o.status = .opened && p o) := by
    rw [Bool.eq_iff_iff, List.any_eq_true]
    constructor
    · rintro ⟨q, hq, h⟩
      simp only [Bool.and_eq_true, decide_eq_true_eq] at h
      have hqo : q = o := List.inj_on_of_nodup_map hn hq ho h.2
      simpa [hqo] using h.1
    · intro h
      exact ⟨o, ho, by simpa using h⟩
  rw [hany]

theorem closeOpen_ids (p : Offer → Bool) (status : OfferStatus) (tick : Nat) (os : List Offer) :
    (closeOpen p status tick os).map Offer.offerId = os.map Offer.offerId := by
  unfold closeOpen
  rw [List.map_map]
  apply List.map_congr_left
  intro o _
  simp only [Function.comp_apply]
  split <;> rfl

theorem mem_closeOpen_opened {p : Offer → Bool} {status : OfferStatus} {tick : Nat}
    {os : List Offer} {o : Offer} (hstatus : status ≠ .opened) :
    (o ∈ closeOpen p status tick os ∧ o.status = .opened) ↔
    (o ∈ os ∧ o.status = .opened ∧ p o = false) := by
  simp only [closeOpen, List.mem_map]
  constructor
  · rintro ⟨⟨q, hq, rfl⟩, ho⟩
    split at ho
    next => exact absurd ho hstatus
    next hkeep =>
      rw [if_neg hkeep]
      exact ⟨hq, ho, by simpa [ho] using hkeep⟩
  · rintro ⟨ho, hopen, hp⟩
    exact ⟨⟨o, ho, by simp [hp]⟩, hopen⟩

/-- Withdrawing an open offer closes that offer and no other. -/
theorem close_eq_closeOpen {offer : Offer} {status : OfferStatus}
    (hn : (e.offers.map Offer.offerId).Nodup) (hm : offer ∈ e.offers)
    (ho : offer.status = .opened) :
    e.close offer.offerId status none =
      { e with
        offers := closeOpen (fun o => o.offerId = offer.offerId) status e.tick e.offers } := by
  unfold close closeOpen
  congr 1
  apply List.map_congr_left
  intro o hmo
  by_cases hid : o.offerId = offer.offerId
  · have heq : o = offer := List.inj_on_of_nodup_map hn hmo hm hid
    simp [heq, ho]
  · simp [hid]

end SimulatedEconomy

namespace SimStation

/-- The record `settleTick` leaves when it does not raise. -/
def afterTick (rules : Rules) (tick : Nat) (s : SimStation) : SimStation :=
  let produced := Bundle.only s.specialty s.production.toNat
  let inventory := s.inventory + produced
  let unmet := s.upkeep.saturatingSub inventory
  let s := { s with
    inventory := inventory.saturatingSub s.upkeep
    lastProduction := produced
    producedTotal := s.producedTotal + produced
    lastUnmet := unmet
    consumedTotal := s.consumedTotal + s.upkeep.saturatingSub unmet
    unmetTotal := s.unmetTotal + unmet }
  if unmet.isZero then s.supplied rules else s.short rules tick unmet

theorem settleTick_eq_ok_iff {rules : Rules} {tick : Nat} {s s' : SimStation} :
    s.settleTick rules tick = .ok s' ↔ 0 ≤ s.production ∧ s' = s.afterTick rules tick := by
  unfold settleTick
  rw [bind_eq_ok_iff]
  constructor
  · rintro ⟨produced, hp, h⟩
    obtain ⟨consumed, hc, h⟩ := bind_eq_ok_iff.mp h
    obtain ⟨hpos, rfl⟩ := Bundle.single_eq_ok_iff.mp hp
    obtain ⟨_, rfl⟩ := Bundle.sub_eq_ok_iff.mp hc
    exact ⟨hpos, (Except.ok.inj h).symm⟩
  · rintro ⟨hpos, rfl⟩
    refine ⟨_, Bundle.single_eq_ok_iff.mpr ⟨hpos, rfl⟩, ?_⟩
    rw [bind_eq_ok_iff]
    refine ⟨_, Bundle.sub_ok ?_, rfl⟩
    intro r
    simp

@[simp] theorem afterTick_stationId (rules : Rules) (tick : Nat) (s : SimStation) :
    (s.afterTick rules tick).stationId = s.stationId := by
  simp only [afterTick]
  split <;> rfl

end SimStation

namespace SimulatedEconomy

variable {e e' : SimulatedEconomy}

/-- The economy a tick leaves when it does not raise and offer ids are distinct. -/
def ticked (e : SimulatedEconomy) : SimulatedEconomy :=
  let stations := e.stations.mapValues (SimStation.afterTick e.rules (e.tick + 1))
  let failed := (stations.values.filter SimStation.failedOnce).map SimStation.stationId
  { e with
    tick := e.tick + 1
    commandCounts := Dict.empty
    worldVersion := e.worldVersion + 1
    stations := stations
    offers :=
      closeOpen (fun o => o.proposerId ∈ failed || o.recipientId ∈ failed) .withdrawn (e.tick + 1)
      (closeOpen (fun o => o.expiresTick ≤ e.tick + 1) .expired (e.tick + 1) e.offers)
    advertisements := (e.advertisements.filter (fun a => e.tick + 1 < a.expiresTick)).filter
      (fun a => a.stationId ∉ failed) }

theorem get?_ticked {k : String} {s : SimStation} (h : e.ticked.stations.get? k = some s) :
    ∃ old, e.stations.get? k = some old ∧ s = old.afterTick e.rules (e.tick + 1) := by
  rw [show e.ticked.stations = e.stations.mapValues _ from rfl, Dict.get?_mapValues] at h
  obtain ⟨old, hold, rfl⟩ := Option.map_eq_some_iff.mp h
  exact ⟨old, hold, rfl⟩

theorem advanceTick_eq_ticked (hn : (e.offers.map Offer.offerId).Nodup)
    (h : e.advanceTick = .ok e') :
    e' = e.ticked := by
  unfold advanceTick at h
  obtain ⟨stations, hs, h⟩ := bind_eq_ok_iff.mp h
  have hbegin : (e.beginTick.offers.map Offer.offerId).Nodup := hn
  have hexpire : e.beginTick.expire = { e.beginTick with
      offers := closeOpen (fun o => o.expiresTick ≤ e.tick + 1) .expired (e.tick + 1) e.offers
      advertisements := e.advertisements.filter (fun a => e.tick + 1 < a.expiresTick) } := by
    unfold expire
    rw [closeWhere_eq hbegin]
    rfl
  rw [hexpire] at hs h
  have hstations : stations = e.stations.mapValues (SimStation.afterTick e.rules (e.tick + 1)) :=
    Dict.traverse_eq_mapValues hs (fun v w hw => (SimStation.settleTick_eq_ok_iff.mp hw).2)
  have hids : ((closeOpen (fun o => o.expiresTick ≤ e.tick + 1) .expired (e.tick + 1) e.offers).map
      Offer.offerId).Nodup := by
    rw [closeOpen_ids]
    exact hn
  cases Except.ok.inj h
  unfold dropFailed
  rw [closeWhere_eq (by exact hids)]
  subst hstations
  rfl

theorem advanceTick_worldVersion (h : e.advanceTick = .ok e') :
    e'.worldVersion = e.worldVersion + 1 := by
  obtain ⟨stations, _, h⟩ := bind_eq_ok_iff.mp h
  cases Except.ok.inj h
  unfold dropFailed expire
  rw [closeWhere_frame]
  simp only
  rw [closeWhere_frame]
  rfl

theorem endRun_worldVersion (e : SimulatedEconomy) :
    e.endRun.worldVersion = e.worldVersion + 1 := by
  unfold endRun
  rw [closeWhere_frame]

theorem endRun_eq (hn : (e.offers.map Offer.offerId).Nodup) :
    e.endRun = { e with
      offers := closeOpen (fun _ => true) .runEnded e.tick e.offers
      advertisements := []
      worldVersion := e.worldVersion + 1 } := by
  unfold endRun
  rw [closeWhere_eq hn]

/-- Bookkeeping around the operations: the version counter and the list of rejections. -/
def noted (e : SimulatedEconomy) (worldVersion : Nat) (rejections : List (String × ResultCode)) :
    SimulatedEconomy :=
  { e with worldVersion := worldVersion, rejections := rejections }

section Operations

variable {I : List Processed → SimulatedEconomy → Prop}
  (onExecute : ∀ hist e stationId action out e', I hist e → Executed e stationId action out e' →
    I (hist ++ [⟨stationId, action, out⟩]) e')
  (onNote : ∀ hist e worldVersion rejections, I hist e → I hist (e.noted worldVersion rejections))
  (onAdvance : ∀ hist e e', I hist e → e.advanceTick = .ok e' → I hist e')
  (onEnd : ∀ hist e, I hist e → I hist e.endRun)

include onExecute onNote in
theorem applyActions_invariant {stationId : String} {actions : List Action}
    {outs : List (Action × CommandOutcome)} (hist : List Processed) (hI : I hist e)
    (h : e.applyActions stationId actions = .ok (outs, e')) :
    I (hist ++ outs.map (fun p => ⟨stationId, p.1, p.2⟩)) e' := by
  induction actions generalizing e hist outs with
  | nil =>
    obtain ⟨rfl, rfl⟩ := Prod.mk.inj (Except.ok.inj h)
    simpa using hI
  | cons action actions ih =>
    obtain ⟨⟨out, m⟩, hx, h⟩ := bind_eq_ok_iff.mp h
    obtain ⟨⟨rest, u⟩, hr, h⟩ := bind_eq_ok_iff.mp h
    obtain ⟨rfl, rfl⟩ := Prod.mk.inj (Except.ok.inj h)
    have hstep := onExecute _ _ _ _ _ _ hI (execute_executed hx)
    have hnoted : I (hist ++ [⟨stationId, action, out⟩]) (if out.ok then m else
        { m with rejections := m.rejections ++ [(stationId, out.code)] }) := by
      split
      next => exact hstep
      next => exact onNote _ _ m.worldVersion _ hstep
    simpa using ih _ hnoted hr

/-- What an operation that returned has done. -/
inductive Performed (e : SimulatedEconomy) :
    Operation → List Processed → SimulatedEconomy → Prop
  | execute {stationId action out after}
    (executed : e.execute stationId action = .ok (out, after)) :
    Performed e (.execute stationId action) [⟨stationId, action, out⟩] after
  | apply {stationId actions outs u} (batch : e.applyActions stationId actions = .ok (outs, u)) :
    Performed e (.apply stationId actions) (outs.map (fun p => ⟨stationId, p.1, p.2⟩))
      { u with worldVersion := u.worldVersion + 1 }
  | advanceTick {after} (advanced : e.advanceTick = .ok after) : Performed e .advanceTick [] after
  | endRun : Performed e .endRun [] e.endRun

theorem perform_performed {op : Operation} {outs : List Processed}
    (h : e.perform op = .ok (outs, e')) : Performed e op outs e' := by
  cases op with
  | execute stationId action =>
    obtain ⟨⟨out, m⟩, hx, h⟩ := bind_eq_ok_iff.mp h
    obtain ⟨rfl, rfl⟩ := Prod.mk.inj (Except.ok.inj h)
    exact .execute hx
  | apply stationId actions =>
    obtain ⟨⟨outs', m⟩, hx, h⟩ := bind_eq_ok_iff.mp h
    obtain ⟨⟨outs'', u⟩, hbatch, hm⟩ := bind_eq_ok_iff.mp hx
    obtain ⟨rfl, rfl⟩ := Prod.mk.inj (Except.ok.inj hm)
    obtain ⟨rfl, rfl⟩ := Prod.mk.inj (Except.ok.inj h)
    exact .apply hbatch
  | advanceTick =>
    obtain ⟨m, hx, h⟩ := bind_eq_ok_iff.mp h
    obtain ⟨rfl, rfl⟩ := Prod.mk.inj (Except.ok.inj h)
    exact .advanceTick hx
  | endRun =>
    obtain ⟨rfl, rfl⟩ := Prod.mk.inj (Except.ok.inj h)
    exact .endRun

include onExecute onNote onAdvance onEnd in
theorem perform_invariant {op : Operation} {outs hist : List Processed} (hI : I hist e)
    (h : e.perform op = .ok (outs, e')) : I (hist ++ outs) e' := by
  cases perform_performed h with
  | execute hx => exact onExecute _ _ _ _ _ _ hI (execute_executed hx)
  | @apply _ _ _ u hbatch =>
    exact onNote _ _ _ u.rejections (applyActions_invariant onExecute onNote _ hI hbatch)
  | advanceTick hx => simpa using onAdvance _ _ _ hI hx
  | endRun => simpa using onEnd _ _ hI

/-- One operation that returned, with the commands it processed. -/
def Performs (e : SimulatedEconomy) (l : Operation × List Processed)
    (e' : SimulatedEconomy) : Prop :=
  e.perform l.1 = .ok (l.2, e')

/-- Performs the operations one after the other. -/
def performAll (e : SimulatedEconomy) :
    List Operation → Except Raised (List (Operation × List Processed) × SimulatedEconomy)
  | [] => .ok ([], e)
  | op :: ops => do
    let (outs, e) ← e.perform op
    let (ls, e) ← performAll e ops
    return ((op, outs) :: ls, e)

theorem run_of_performAll {ops : List Operation} {ls : List (Operation × List Processed)}
    (h : e.performAll ops = .ok (ls, e')) : Machine.Run Performs e ls e' := by
  induction ops generalizing e ls with
  | nil =>
    obtain ⟨rfl, rfl⟩ := Prod.mk.inj (Except.ok.inj h)
    exact Machine.Run.start
  | cons op ops ih =>
    obtain ⟨⟨outs, m⟩, hfirst, h⟩ := bind_eq_ok_iff.mp h
    obtain ⟨⟨rest, u⟩, hrest, h⟩ := bind_eq_ok_iff.mp h
    obtain ⟨rfl, rfl⟩ := Prod.mk.inj (Except.ok.inj h)
    have hstep : Machine.Run Performs e [(op, outs)] m := Machine.Run.single hfirst
    exact hstep.trans (ih hrest)

def processed (ls : List (Operation × List Processed)) : List Processed := ls.flatMap Prod.snd

include onExecute onNote onAdvance onEnd in
/-- The induction rule for runs of the economy: an invariant of single commands,
notes, ticks and run ends holds after every run of operations. -/
theorem operations_invariant {e₀ : SimulatedEconomy} {ls : List (Operation × List Processed)}
    (run : Machine.Run Performs e₀ ls e) (start : I [] e₀) : I (processed ls) e := by
  refine run.invariant (I := fun ls e => I (processed ls) e) start ?_
  intro ls s l t hI hstep
  have := perform_invariant onExecute onNote onAdvance onEnd hI hstep
  simpa [processed] using this

end Operations

end SimulatedEconomy

end SpaceportBazaar
