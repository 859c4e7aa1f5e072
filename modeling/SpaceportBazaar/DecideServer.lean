import SpaceportBazaar.DecideKnown
import SpaceportBazaar.DecideCourse

namespace SpaceportBazaar

open SimulatedEconomy

namespace SimulatedEconomy

variable {e e' : SimulatedEconomy} {stationId : String} {action : Action} {out : CommandOutcome}
  {s : SimStation} {o : Offer}

theorem Executed.rules_eq (hx : Executed e stationId action out e') : e'.rules = e.rules := by
  cases hx <;> rfl

/-- A command closes no offer but the one it names. -/
theorem Executed.keeps_offer (hx : Executed e stationId action out e') (ho : o ∈ e.offers)
    (spared : action ≠ .accept o.offerId ∧ action ≠ .withdraw o.offerId) : o ∈ e'.offers := by
  cases hx with
  | refused => exact ho
  | failed => exact ho
  | advertised => exact ho
  | adWithdrawn => exact ho
  | posted => exact List.mem_append_left _ ho
  | @offerWithdrawn offer =>
    exact List.mem_map.mpr ⟨o, ho, if_pos fun hid => spared.2 (by rw [hid])⟩
  | @settled offer =>
    exact List.mem_map.mpr ⟨o, ho, if_pos fun hid => spared.1 (by rw [hid])⟩

/-- Notices change only by advertising or by withdrawing one. -/
theorem Executed.keeps_notices (hx : Executed e stationId action out e')
    (silent : ∀ selling seeking expiresTick, action ≠ .advertise selling seeking expiresTick)
    (spared : ∀ a ∈ e.advertisements, action ≠ .withdraw a.advertisementId) :
    e'.advertisements = e.advertisements := by
  cases hx with
  | advertised => exact absurd rfl (silent _ _ _)
  | adWithdrawn admitted found own => exact absurd rfl (spared _ found)
  | _ => rfl

/-- Only a settlement moves the acting planet's stock: what it pays goes, what it gets comes. -/
theorem Executed.stock (hb : Book e) (hx : Executed e stationId action out e')
    (hs : e.stations.get? stationId = some s) :
    ∃ s', e'.stations.get? stationId = some s' ∧ s'.failedOnce = s.failedOnce ∧
      (s' = s ∨ ∃ o ∈ e.offers, action = .accept o.offerId ∧
        s'.inventory = s.inventory.saturatingSub o.receive + o.give) := by
  cases hx with
  | @settled offer s₀ moved admitted settles =>
    have hmem : offer ∈ e.offers := (findOffer_spec settles.found).1
    obtain ⟨p, hp, _, hgive⟩ := settles.proposer
    obtain ⟨r, hr, _, hreceive⟩ := settles.recipient
    have hne := ((hb.counted stationId).live offer hmem settles.opened).parties
    have hmoved :=
      Except.ok.inj (settles.goods.symm.trans (moveGoods_eq_ok hp hr hne hgive hreceive))
    have hsame : r = s := by
      rw [settles.addressed] at hr
      exact Option.some.inj (hr.symm.trans hs)
    subst hsame
    refine ⟨r.traded offer.receive offer.give, ?_, rfl, Or.inr ⟨offer, hmem, rfl, rfl⟩⟩
    show moved.stations.get? stationId = _
    rw [hmoved, ← settles.addressed]
    exact Dict.get?_set_self _ _ _
  | _ => exact ⟨s, hs, rfl, Or.inl rfl⟩

/-- Accepting an open offer that one can pay for fails only if its proposer cannot. -/
theorem accept_covered (hb : Book e) (ho : o ∈ e.offers) (addressed : o.recipientId = stationId)
    (opened : o.status = .opened) (hs : e.stations.get? stationId = some s)
    (covered : o.receive ≤ s.inventory) :
    ∃ out e', e.accept stationId o.offerId = .ok (out, e') ∧ (out.code = .ok ∨
      out.code = .insufficientResources ∧ ∃ p, e.stations.get? o.proposerId = some p ∧
      ¬o.give ≤ p.inventory) := by
  have hlive := hb.live o ho opened
  obtain ⟨p, hp, hpf⟩ := hlive.proposer
  obtain ⟨r, hr, hrf⟩ := hlive.recipient
  have hsame : r = s := Option.some.inj (hr.symm.trans (addressed ▸ hs))
  subst hsame
  have hdue : o.isExpiredAt e.tick = false := by
    simpa [Offer.isExpiredAt] using hlive.inTime
  have hpays : r.inventory.dominates o.receive = true := Bundle.dominates_iff.mpr covered
  cases h : e.accept stationId o.offerId with
  | error raised => exact absurd h (accept_ne_error hb)
  | ok answer =>
    refine ⟨answer.1, answer.2, rfl, ?_⟩
    unfold accept at h
    rw [hb.findOffer_eq ho] at h
    simp only [addressed, opened, hdue, ne_eq, not_true_eq_false, if_false, Bool.false_eq_true] at h
    rw [station_eq_ok_iff.mpr hp, station_eq_ok_iff.mpr hs] at h
    simp only [bind, Except.bind, hpf, hrf, hpays, Bool.or_false, Bool.false_eq_true, if_false,
      Bool.not_true] at h
    split at h
    next hshort =>
      cases Except.ok.inj h
      refine Or.inr ⟨rfl, p, hp, fun hle => ?_⟩
      simp [Bundle.dominates_iff.mpr hle] at hshort
    next =>
      obtain ⟨_, _, hout, _⟩ := settle_eq_ok_iff.mp h
      exact Or.inl (by rw [hout])

/-- Runs a planet's actions one after the other, with the state each one met. -/
def executeAll (e : SimulatedEconomy) (stationId : String) :
    List Action → Except Raised
      (List (SimulatedEconomy × Action × CommandOutcome) × SimulatedEconomy)
  | [] => .ok ([], e)
  | action :: actions => do
    let (out, next) ← e.execute stationId action
    let (answers, last) ← next.executeAll stationId actions
    return ((e, action, out) :: answers, last)

end SimulatedEconomy

/-- How a decision's own actions may be answered: OK, or refused for a reason that no
planet can see or that another one caused. -/
inductive Answered (e : SimulatedEconomy) (stationId : String) : Action → ResultCode → Prop
  | ok {action : Action} : Answered e stationId action .ok
  | unpaid {o : Offer} {p s : SimStation} : o ∈ e.offers → e.stations.get? o.proposerId = some p →
    ¬o.give ≤ p.inventory → e.stations.get? stationId = some s → o.receive ≤ s.inventory →
    Answered e stationId (.accept o.offerId) .insufficientResources
  | failed {recipientId : String} {r : SimStation} {give receive : Bundle} {expiresTick : Nat} :
    recipientId ≠ stationId → e.stations.get? recipientId = some r → r.failedOnce = true →
    Answered e stationId (.offer recipientId give receive expiresTick) .stationFailed
  | limited {recipientId : String} {give receive : Bundle} {expiresTick : Nat} :
    e.rules.maxOpenOutgoingOffers ≤ e.openCount stationId →
    Answered e stationId (.offer recipientId give receive expiresTick) .limitReached

section Answers

variable {e e' : SimulatedEconomy} {stationId : String} {s : SimStation}

theorem offer_answered (hs : e.stations.get? stationId = some s) (standing : s.failedOnce = false)
    (running : e.tick < e.rules.durationTicks)
    (quota : e.countOf stationId < e.rules.newCommandsPerStationPerTick)
    {recipientId : String} {give receive : Bundle} {expiresTick : Nat}
    (deadline : e.deadlineAllowed e.rules.maxOfferTtlTicks expiresTick = true)
    (known : recipientId ∈ e.stations.keys) (other : recipientId ≠ stationId) (gives : give ≠ 0)
    (covered : give ≤ s.inventory) :
    ∃ out e', e.execute stationId (.offer recipientId give receive expiresTick) = .ok (out, e') ∧
      Answered e stationId (.offer recipientId give receive expiresTick) out.code := by
  obtain ⟨r, hr⟩ := Dict.mem_keys_iff.mp known
  have hzero : give.isZero = false := by
    rw [← Bool.not_eq_true, Bundle.isZero_iff]
    exact gives
  have hpays : s.inventory.dominates give = true := Bundle.dominates_iff.mpr covered
  have hcheck : e.precheckAction stationId s (.offer recipientId give receive expiresTick) =
      if r.failedOnce then some .stationFailed
      else if e.rules.maxOpenOutgoingOffers ≤ e.openCount stationId then
        some .limitReached else none := by
    simp only [precheckAction, deadline, Bool.not_true, Bool.false_eq_true, if_false, precheckOffer,
      hr, hzero, hpays, other, decide_false, Bool.or_false]
  have hpre : e.precheck stationId (.offer recipientId give receive expiresTick) =
      .ok (e.precheckAction stationId s (.offer recipientId give receive expiresTick)) := by
    refine precheck_eq_ok_iff.mpr ⟨s, hs, ?_⟩
    rw [standing, if_neg Bool.false_ne_true, if_neg (by omega), if_neg (by omega)]
  unfold execute
  rw [hpre, hcheck]
  by_cases hfailed : r.failedOnce = true
  · rw [if_pos hfailed]
    exact ⟨_, _, rfl, .failed other hr hfailed⟩
  · rw [if_neg hfailed]
    by_cases hroom : e.rules.maxOpenOutgoingOffers ≤ e.openCount stationId
    · rw [if_pos hroom]
      exact ⟨_, _, rfl, .limited hroom⟩
    · rw [if_neg hroom]
      exact ⟨_, _, rfl, .ok⟩

end Answers

section Ready

variable (view : Snapshot) (ticksLeft : Option Nat) (reserve : Bundle) (model : CounterpartyModel)

/-- A market in which the deeds still to come find what they were decided on. -/
structure Ready (e : SimulatedEconomy) (rest : List Deed) : Prop where
  book : Book e
  board : Board e
  clock : e.tick = view.tick
  rules : e.rules = view.rules
  running : e.tick < e.rules.durationTicks
  fellows : ∀ stats ∈ model.trading, stats.stationId ∈ e.stations.keys ∧
    stats.stationId ≠ view.selfStationId
  stock : ∃ s, e.stations.get? view.selfStationId = some s ∧ s.failedOnce = false ∧
    (rest.map Deed.payment).sum ≤ s.inventory
  quota : e.countOf view.selfStationId + rest.length ≤ e.rules.newCommandsPerStationPerTick
  allowed : ∀ d ∈ rest, ∃ hist a, Allowed view ticksLeft reserve model hist a d
  accepts : ∀ o ∈ rest.filterMap Deed.accepted?, o ∈ e.offers ∧ o.recipientId = view.selfStationId ∧
    o.status = .opened
  withdraws : ∀ o ∈ rest.filterMap Deed.withdrawn?, o ∈ e.offers ∧
    o.proposerId = view.selfStationId ∧ o.status = .opened
  notices : ∀ d ∈ rest, d.stage = 3 → ∀ a, view.ownAdvertisement = some a → a ∈ e.advertisements
  apart : (rest.filterMap Deed.accepted?).Nodup ∧ (rest.filterMap Deed.withdrawn?).Nodup
  once : rest.Pairwise (fun d d' => d'.stage = 3 → d.stage ≠ 3)

end Ready

section Ready

variable {view : Snapshot} {ticksLeft : Option Nat} {reserve : Bundle} {model : CounterpartyModel}
  {e e' : SimulatedEconomy} {d : Deed} {rest : List Deed} {out : CommandOutcome}

theorem offer_deadline (clock : e.tick = view.tick) (rules : e.rules = view.rules)
    (lasts : 0 < offerLifetime view) :
    e.deadlineAllowed e.rules.maxOfferTtlTicks (view.tick + offerLifetime view) = true := by
  rw [deadlineAllowed_iff, clock, rules]
  simp only [offerLifetime] at lasts ⊢
  omega

theorem Bundle.only_ne_zero {resource : Resource} {quantity : Nat} (h : 0 < quantity) :
    Bundle.only resource quantity ≠ 0 := by
  intro hzero
  have hget := congrArg (fun b => b.get resource) hzero
  simp only [Bundle.get_only, Bundle.get_zero', if_true] at hget
  omega

theorem Ready.admitted (h : Ready view ticksLeft reserve model e (d :: rest)) {action : Action}
    (checked : ∀ s, e.precheckAction view.selfStationId s action = none) :
    ∃ s, Admitted e view.selfStationId action s := by
  obtain ⟨s, hs, hstanding, _⟩ := h.stock
  have hquota := h.quota
  rw [List.length_cons] at hquota
  exact ⟨s, hs, hstanding, h.running, by omega, checked s⟩

theorem Ready.offers (h : Ready view ticksLeft reserve model e (d :: rest)) {recipientId : String}
    {give receive : Bundle} (known : ∃ stats ∈ model.trading, stats.stationId = recipientId)
    (gives : give ≠ 0) (paid : d.payment = give) (lasts : 0 < offerLifetime view) :
    ∃ out e', e.execute view.selfStationId
      (.offer recipientId give receive (view.tick + offerLifetime view)) =
        .ok (out, e') ∧
      Answered e view.selfStationId
        (.offer recipientId give receive (view.tick + offerLifetime view)) out.code := by
  obtain ⟨s, hs, hstanding, hstock⟩ := h.stock
  obtain ⟨stats, hstats, rfl⟩ := known
  obtain ⟨hknown, hother⟩ := h.fellows stats hstats
  have hquota := h.quota
  rw [List.length_cons] at hquota
  refine offer_answered hs hstanding h.running (by omega)
    (offer_deadline h.clock h.rules lasts) hknown hother gives ?_
  intro r
  have hr := hstock r
  rw [List.map_cons, List.sum_cons, Bundle.get_add, paid] at hr
  omega

theorem Ready.cost {late : Bool} {offer : Offer} {cost : Bundle}
    (h : Ready view ticksLeft reserve model e (.accept late offer cost :: rest)) :
    cost = offer.receive := by
  obtain ⟨hist, a, hallowed⟩ := h.allowed _ List.mem_cons_self
  obtain ⟨hmem, hto, hopen⟩ := h.accepts offer (by simp [Deed.accepted?])
  have hpays := hallowed.2.1
  have hne := (h.book.live offer hmem hopen).parties
  unfold Offer.whatStationPays at hpays
  rw [if_neg (fun hself => hne (by rw [← hself, hto])), if_pos hto.symm] at hpays
  exact (Except.ok.inj hpays).symm

/-- The next deed is answered as its decision could expect. -/
theorem Ready.answers (h : Ready view ticksLeft reserve model e (d :: rest)) :
    ∃ out e', e.execute view.selfStationId (d.action view) = .ok (out, e') ∧
      Answered e view.selfStationId (d.action view) out.code := by
  obtain ⟨hist, a, hallowed⟩ := h.allowed d List.mem_cons_self
  cases d with
  | accept late offer cost =>
    obtain ⟨hmem, hto, hopen⟩ := h.accepts offer (by simp [Deed.accepted?])
    obtain ⟨s, hs, _, hstock⟩ := h.stock
    obtain ⟨_, hadmitted⟩ := @Ready.admitted _ _ _ _ _ _ _ h (.accept offer.offerId) fun _ => rfl
    have hcovered : offer.receive ≤ s.inventory := by
      intro r
      have hr := hstock r
      rw [List.map_cons, List.sum_cons, Bundle.get_add] at hr
      rw [← h.cost]
      exact (Nat.le_add_right _ _).trans hr
    obtain ⟨out, e', haccept, hcode⟩ :=
      @accept_covered (e.countCommand view.selfStationId) view.selfStationId s offer
      (h.book.counted _) hmem hto hopen hs hcovered
    refine ⟨out, e', (execute_admitted hadmitted).trans haccept, ?_⟩
    rcases hcode with hok | ⟨hshort, p, hp, hunpaid⟩
    · rw [hok]
      exact .ok
    · rw [hshort]
      exact .unpaid hmem hp hunpaid hs hcovered
  | withdraw offer =>
    obtain ⟨hmem, hfrom, hopen⟩ := h.withdraws offer (by simp [Deed.withdrawn?])
    obtain ⟨s, hadmitted⟩ := @Ready.admitted _ _ _ _ _ _ _ h (.withdraw offer.offerId) fun _ => rfl
    have hcode := (withdraw_offer_ok (h.book.counted view.selfStationId)
        (h.board.counted hadmitted.quota) hmem).mpr
      ⟨hfrom, hopen⟩
    refine ⟨_, _, execute_admitted hadmitted, ?_⟩
    show Answered e view.selfStationId _
      ((e.countCommand view.selfStationId).withdraw view.selfStationId offer.offerId).1.code
    rw [hcode]
    exact .ok
  | notice action =>
    obtain ⟨selling, seeking, ttl, rfl, hpos, hterm, hend⟩ | ⟨ad, hown, rfl⟩ := hallowed
    · have hchecked : ∀ s, e.precheckAction view.selfStationId s
          (.advertise selling seeking (view.tick + ttl)) = none := by
        intro s
        have hdeadline :
            e.deadlineAllowed e.rules.maxPublicationTtlTicks (view.tick + ttl) = true := by
          rw [deadlineAllowed_iff, h.clock, h.rules]
          omega
        simp only [precheckAction, hdeadline, Bool.not_true, Bool.false_eq_true, if_false]
      obtain ⟨s, hadmitted⟩ := h.admitted hchecked
      exact ⟨_, _, execute_admitted hadmitted, .ok⟩
    · have hmem := h.notices _ List.mem_cons_self rfl ad hown
      obtain ⟨s, hadmitted⟩ :=
        @Ready.admitted _ _ _ _ _ _ _ h (.withdraw ad.advertisementId) fun _ => rfl
      have hcode := (withdraw_ad_ok (h.board.counted hadmitted.quota) hmem).mpr
        (Snapshot.ownAdvertisement_spec hown).2
      refine ⟨_, _, execute_admitted hadmitted, ?_⟩
      show Answered e view.selfStationId _
        ((e.countCommand view.selfStationId).withdraw view.selfStationId ad.advertisementId).1.code
      rw [hcode]
      exact .ok
  | giveExcess recipient resource quantity =>
    exact h.offers hallowed.2.2.2.2 (Bundle.only_ne_zero hallowed.1) rfl hallowed.2.2.1
  | propose candidate paid asked =>
    obtain ⟨hlasts, _, _, hknown, _, _, _, hpriced⟩ := hallowed
    exact h.offers hknown (Bundle.only_ne_zero hpriced.positive.1) rfl hlasts
  | aid gift =>
    obtain ⟨hlasts, hpos, _, _, _, _, hknown, _⟩ := hallowed
    exact h.offers hknown (Bundle.only_ne_zero hpos) rfl hlasts

/-- A deed names no offer but the one it accepts or withdraws. -/
theorem Ready.spares {o : Offer} (h : Ready view ticksLeft reserve model e (d :: rest))
    (ho : o ∈ e.offers) (accepted : ∀ offer, d.accepted? = some offer → offer ≠ o)
    (withdrawn : ∀ offer, d.withdrawn? = some offer → offer ≠ o) :
    d.action view ≠ .accept o.offerId ∧ d.action view ≠ .withdraw o.offerId := by
  cases d with
  | accept late offer cost =>
    obtain ⟨hmem, _, _⟩ := h.accepts offer (by simp [Deed.accepted?])
    refine ⟨fun heq => accepted offer rfl (h.book.same_id hmem ho (Action.accept.inj heq)), ?_⟩
    simp [Deed.action]
  | withdraw offer =>
    obtain ⟨hmem, _, _⟩ := h.withdraws offer (by simp [Deed.withdrawn?])
    refine ⟨by simp [Deed.action], fun heq => ?_⟩
    exact withdrawn offer rfl (h.book.same_id hmem ho (Action.withdraw.inj heq))
  | notice action =>
    obtain ⟨hist, a, hallowed⟩ := h.allowed _ List.mem_cons_self
    obtain ⟨selling, seeking, ttl, rfl, _⟩ | ⟨ad, hown, rfl⟩ := hallowed
    · exact ⟨by simp [Deed.action], by simp [Deed.action]⟩
    · have hmem := h.notices _ List.mem_cons_self rfl ad hown
      have hother := List.find?_eq_none.mp (h.board.findAd_none h.book ho) ad hmem
      refine ⟨by simp [Deed.action], fun heq => hother ?_⟩
      simpa using Action.withdraw.inj heq
  | _ => exact ⟨by simp [Deed.action], by simp [Deed.action]⟩

theorem Ready.keeps_notices (h : Ready view ticksLeft reserve model e (d :: rest))
    (hx : Executed e view.selfStationId (d.action view) out e') (other : d.stage ≠ 3) :
    e'.advertisements = e.advertisements := by
  refine hx.keeps_notices (fun selling seeking expiresTick => ?_) fun a ha => ?_
  · cases d with
    | notice action => exact absurd rfl other
    | _ => simp [Deed.action]
  · cases d with
    | notice action => exact absurd rfl other
    | withdraw offer =>
      obtain ⟨hmem, _, _⟩ := h.withdraws offer (by simp [Deed.withdrawn?])
      have hother := List.find?_eq_none.mp (h.board.findAd_none h.book hmem) a ha
      intro heq
      exact hother (by simpa using (Action.withdraw.inj heq).symm)
    | _ => simp [Deed.action]

theorem Ready.stock_next (h : Ready view ticksLeft reserve model e (d :: rest))
    (hx : Executed e view.selfStationId (d.action view) out e') :
    ∃ s, e'.stations.get? view.selfStationId = some s ∧ s.failedOnce = false ∧
      (rest.map Deed.payment).sum ≤ s.inventory := by
  obtain ⟨s, hs, hstanding, hstock⟩ := h.stock
  have hrest : ∀ r, d.payment.get r + (rest.map Deed.payment).sum.get r ≤ s.inventory.get r := by
    intro r
    have hr := hstock r
    rw [List.map_cons, List.sum_cons, Bundle.get_add] at hr
    exact hr
  obtain ⟨s', hs', hstanding', hmoved⟩ := hx.stock h.book hs
  refine ⟨s', hs', hstanding'.trans hstanding, fun r => ?_⟩
  rcases hmoved with rfl | ⟨o, ho, haction, hinventory⟩
  · exact (Nat.le_add_left _ _).trans (hrest r)
  · cases d with
    | accept late offer cost =>
      obtain ⟨hmem, _, _⟩ := h.accepts offer (by simp [Deed.accepted?])
      have hsame : offer = o := h.book.same_id hmem ho (Action.accept.inj haction)
      subst hsame
      have hr := hrest r
      rw [show (Deed.accept late offer cost).payment = offer.receive from h.cost] at hr
      rw [hinventory, Bundle.get_add, Bundle.get_saturatingSub]
      omega
    | notice action =>
      obtain ⟨hist, a, hallowed⟩ := h.allowed _ List.mem_cons_self
      obtain ⟨selling, seeking, ttl, rfl, _⟩ | ⟨ad, _, rfl⟩ :=
        hallowed <;> simp [Deed.action] at haction
    | _ => simp [Deed.action] at haction

/-- Whatever the answer, the deeds after it still find what they were decided on. -/
theorem Ready.next (h : Ready view ticksLeft reserve model e (d :: rest))
    (hx : Executed e view.selfStationId (d.action view) out e') :
    Ready view ticksLeft reserve model e' rest := by
  have hrules := hx.rules_eq
  have htick := executed_tick hx
  have parties : ∀ o o', o ∈ e.offers → o.status = .opened → o.recipientId = view.selfStationId →
      o'.proposerId = view.selfStationId → o ≠ o' := by
    intro o o' ho hopen hto hfrom heq
    subst heq
    exact (h.book.live o ho hopen).parties (hfrom.trans hto.symm)
  constructor
  case book => exact h.book.executed hx
  case board => exact h.board.executed h.book hx
  case clock => exact htick.trans h.clock
  case rules => exact hrules.trans h.rules
  case running =>
    rw [hrules, htick]
    exact h.running
  case fellows =>
    intro stats hstats
    obtain ⟨hknown, hother⟩ := h.fellows stats hstats
    exact ⟨((hx.kept h.book).keys _).mpr hknown, hother⟩
  case stock => exact h.stock_next hx
  case quota =>
    have hcount := hx.countOf view.selfStationId
    have hquota := h.quota
    rw [if_pos rfl] at hcount
    rw [List.length_cons] at hquota
    rw [hrules]
    omega
  case allowed => exact fun d' hd' => h.allowed d' (List.mem_cons_of_mem _ hd')
  case accepts =>
    intro o ho
    have hlater : o ∈ (d :: rest).filterMap Deed.accepted? := by
      rw [List.mem_filterMap] at ho ⊢
      obtain ⟨d', hd', hsome⟩ := ho
      exact ⟨d', List.mem_cons_of_mem _ hd', hsome⟩
    obtain ⟨hmem, hto, hopen⟩ := h.accepts o hlater
    refine ⟨hx.keeps_offer hmem (h.spares hmem ?_ ?_), hto, hopen⟩
    · intro offer hoffer heq
      subst heq
      have hapart := h.apart.1
      rw [List.filterMap_cons_some hoffer] at hapart
      exact (List.nodup_cons.mp hapart).1 ho
    · intro offer hoffer
      obtain ⟨_, hfrom, _⟩ :=
        h.withdraws offer (by rw [List.filterMap_cons_some hoffer]; exact List.mem_cons_self)
      exact (parties o offer hmem hopen hto hfrom).symm
  case withdraws =>
    intro o ho
    have hlater : o ∈ (d :: rest).filterMap Deed.withdrawn? := by
      rw [List.mem_filterMap] at ho ⊢
      obtain ⟨d', hd', hsome⟩ := ho
      exact ⟨d', List.mem_cons_of_mem _ hd', hsome⟩
    obtain ⟨hmem, hfrom, hopen⟩ := h.withdraws o hlater
    refine ⟨hx.keeps_offer hmem (h.spares hmem ?_ ?_), hfrom, hopen⟩
    · intro offer hoffer
      obtain ⟨hmem', hto, hopen'⟩ :=
        h.accepts offer (by rw [List.filterMap_cons_some hoffer]; exact List.mem_cons_self)
      exact parties offer o hmem' hopen' hto hfrom
    · intro offer hoffer heq
      subst heq
      have hapart := h.apart.2
      rw [List.filterMap_cons_some hoffer] at hapart
      exact (List.nodup_cons.mp hapart).1 ho
  case notices =>
    intro d' hd' hstage a ha
    have hother := (List.pairwise_cons.mp h.once).1 d' hd' hstage
    rw [h.keeps_notices hx hother]
    exact h.notices d' (List.mem_cons_of_mem _ hd') hstage a ha
  case apart =>
    have hsub : rest.Sublist (d :: rest) := List.sublist_cons_self d rest
    exact ⟨h.apart.1.sublist (hsub.filterMap _), h.apart.2.sublist (hsub.filterMap _)⟩
  case once => exact (List.pairwise_cons.mp h.once).2

/-- A market ready for a list of deeds takes them all. -/
theorem Ready.executes (h : Ready view ticksLeft reserve model e rest) :
    ∃ answers last, e.executeAll view.selfStationId (rest.map (Deed.action view)) =
      .ok (answers, last) ∧
      answers.map (fun answer => answer.2.1) = rest.map (Deed.action view) ∧
      ∀ answer ∈ answers, Answered answer.1 view.selfStationId answer.2.1 answer.2.2.code := by
  induction rest generalizing e with
  | nil => exact ⟨[], e, rfl, rfl, by simp⟩
  | cons d rest ih =>
    obtain ⟨out, e', hexecute, hanswered⟩ := h.answers
    obtain ⟨answers, last, hall, hsame, hanswers⟩ := ih (h.next (execute_executed hexecute))
    refine ⟨(e, d.action view, out) :: answers, last, ?_,
      by rw [List.map_cons, List.map_cons, hsame], ?_⟩
    · rw [List.map_cons, executeAll, hexecute]
      simp only [bind, Except.bind]
      rw [hall]
      rfl
    · intro answer hmem
      rcases List.mem_cons.mp hmem with rfl | hmem
      · exact hanswered
      · exact hanswers answer hmem

variable {start a : Account} {hist : List Deed}

/-- A decision speaks of its own advertisement once at most. -/
theorem run_once (run :
      Machine.GuardedRun (deedGuard view ticksLeft reserve model) Deed.step start hist a) :
    hist.Pairwise (fun d d' => d'.stage = 3 → d.stage ≠ 3) := by
  refine run.invariant
    (I := fun hist _ => hist.Pairwise (fun d d' => d'.stage = 3 → d.stage ≠ 3)) .nil ?_
  intro hist a d b hpair hguard _
  refine List.pairwise_append.mpr ⟨hpair, List.pairwise_singleton _ _, fun e he d' hd' hstage => ?_⟩
  cases List.mem_singleton.mp hd'
  have hearlier := hguard.1.2 (Or.inl hstage) e he
  omega

/-- What a planet decided on from a view, the market it viewed is ready for. -/
theorem Views.ready {stationId : String} {s : SimStation}
    {commitments : CommitmentTracker} {left n : Nat} (h : Views e stationId s view)
    (book : Book e) (board : Board e) (running : e.tick < e.rules.durationTicks)
    (standing : s.failedOnce = false) (unused : e.countOf stationId = 0) (fellows :
      ∀ stats ∈ model.trading, stats.stationId ∈ e.stations.keys ∧ stats.stationId ≠ stationId)
    (allowance : left ≤ e.rules.newCommandsPerStationPerTick)
    (run : Machine.GuardedRun (deedGuard view ticksLeft reserve model) Deed.step
      ⟨commitments.availableToCommit view, left⟩ hist a) :
    Ready view ticksLeft reserve model { e with sequence := n } hist := by
  obtain ⟨hsum, hleft⟩ := deeds_conserve run
  have hoffers : e.offers.Nodup := List.Nodup.of_map _ book.distinct
  have hview : view.offers.Nodup := h.offers ▸ hoffers.filter _
  have shown : ∀ o ∈ view.offers, o ∈ e.offers := fun o ho => (List.mem_filter.mp (h.offers ▸ ho)).1
  constructor
  case book => exact book.frame rfl rfl rfl rfl le_rfl
  case board =>
    exact board.frame rfl rfl (List.Sublist.refl _) le_rfl (fun _ => rfl) (fun _ ho _ => ho)
      (fun _ => le_rfl) board.quota
  case clock => exact h.tick.symm
  case rules => exact h.rules.symm
  case running => exact running
  case fellows =>
    rw [h.self]
    exact fellows
  case stock =>
    rw [h.self]
    refine ⟨s, h.known, standing, fun r => ?_⟩
    have hr := congrArg (fun b => b.get r) hsum
    have hinventory : view.me.inventory = s.inventory := by rw [h.me]; rfl
    simp only [Bundle.get_add, commitments.availableToCommit_get, hinventory] at hr
    omega
  case quota =>
    rw [h.self]
    show e.countOf stationId + hist.length ≤ e.rules.newCommandsPerStationPerTick
    simp only at hleft
    omega
  case allowed =>
    intro d hd
    obtain ⟨past, b, _, ⟨_, hallowed⟩, _⟩ := run.allowed hd
    exact ⟨past, b, hallowed⟩
  case accepts =>
    intro o ho
    obtain ⟨hmem, hto, hopen, _⟩ := Snapshot.mem_incomingOpenOffers.mp ((run_accepts run).subset ho)
    exact ⟨shown o hmem, hto, hopen⟩
  case withdraws =>
    intro o ho
    obtain ⟨hmem, hfrom, hopen, _⟩ :=
      Snapshot.mem_outgoingOpenOffers.mp ((run_withdraws run).subset ho)
    exact ⟨shown o hmem, hfrom, hopen⟩
  case notices =>
    intro d _ _ ad had
    exact h.advertisements ▸ (Snapshot.ownAdvertisement_spec had).1
  case apart =>
    obtain ⟨l, hperm, hsub⟩ := run_accepts run
    have hincoming : view.incomingOpenOffers.Nodup := hview.filter _
    have houtgoing : view.outgoingOpenOffers.Nodup := hview.filter _
    exact ⟨hperm.nodup_iff.mp (hincoming.sublist hsub), houtgoing.sublist (run_withdraws run)⟩
  case once => exact run_once run

end Ready

section Market

variable {stations : List SimStation} {rules : Rules} {runId stationId : String}
  {ls : List (Operation × List Processed)} {e e' : SimulatedEconomy} {sequence : Option Nat}
  {phase : Phase} {results : List CommandResult} {outcome : Option PlayerOutcome} {view : Snapshot}
  {memory : PolicyMemory} {s : SimStation}

/-- In every reachable state, the actions a planet decides on from its view are all
accepted by the market, save for what that planet could not know. -/
theorem decide_answered (run : Machine.Run Performs (create stations rules runId) ls e)
    (running : e.tick < e.rules.durationTicks) (known : e.stations.get? stationId = some s)
    (standing : s.failedOnce = false) (unused : e.countOf stationId = 0)
    (informed : Informed stations rules runId stationId memory)
    (seen : e.observationFor stationId sequence phase results outcome = .ok (view, e'))
    (commitments : CommitmentTracker) (commandBudget : Option Int) :
    ∃ decision memory', Policy.decide view memory commitments commandBudget =
      .ok (decision, memory') ∧
      ∃ answers last, e'.executeAll stationId decision.actions = .ok (answers, last) ∧
        answers.map (fun answer => answer.2.1) = decision.actions ∧
        ∀ answer ∈ answers, Answered answer.1 stationId answer.2.1 answer.2.2.code := by
  obtain ⟨decision, memory', hist, stored, hdecide, _, _, _, hrecords, _⟩ :=
    decide_records view memory commitments commandBudget
  obtain ⟨hb, hd, _⟩ := run_board run
  obtain ⟨_, hkeys⟩ := run_parties run
  obtain ⟨t, n, hviews, rfl⟩ := observationFor_views seen
  obtain ⟨a, deeds⟩ := hrecords.run
  cases Option.some.inj (hviews.known.symm.trans known)
  have hobserved : Informed stations rules runId stationId (memory.observe view) :=
    informed.observed run seen
  have hfellows : ∀ stats ∈ (memory.observe view).counterparties.trading,
      stats.stationId ∈ e.stations.keys ∧ stats.stationId ≠ stationId := by
    intro stats hstats
    obtain ⟨hkey, hother⟩ := hobserved.within stats (List.mem_of_mem_filter hstats)
    exact ⟨(hkeys _).mpr hkey, hother⟩
  have hready := hviews.ready (n := n) hb hd running standing unused hfellows
    (hviews.rules ▸ (commandAllowance_le view commandBudget).1) deeds
  obtain ⟨answers, last, hall, hsame, hanswers⟩ := hready.executes
  rw [hviews.self, ← hrecords.actions] at hall
  rw [← hrecords.actions] at hsame
  rw [hviews.self] at hanswers
  exact ⟨decision, memory', hdecide, answers, last, hall, hsame, hanswers⟩

theorem decide_answered_trade :
    ∃ ls e e' view decision memory' answers last,
      Machine.Run Performs (create tradingPair defaultRules "sim") ls e ∧
      e.observationFor "P02" = .ok (view, e') ∧
      Policy.decide view .new .new none = .ok (decision, memory') ∧
      e'.executeAll "P02" decision.actions = .ok (answers, last) ∧
      ∀ answer ∈ answers, Answered answer.1 "P02" answer.2.1 answer.2.2.code := by
  obtain ⟨⟨ls, e⟩, hall, ht, ⟨s, hs, hf⟩, hq, ⟨view, e', hv⟩⟩ :
      ∃ r, (create tradingPair defaultRules "sim").performAll
        [.execute "P01" (.offer "P02" ⟨2, 0, 0⟩ ⟨0, 2, 0⟩ 5)] = .ok r ∧
      r.2.tick < r.2.rules.durationTicks ∧
      (∃ s, r.2.stations.get? "P02" = some s ∧ s.failedOnce = false) ∧
      r.2.countOf "P02" = 0 ∧ (∃ view e', r.2.observationFor "P02" = .ok (view, e')) :=
    ⟨_, rfl, by decide, ⟨_, rfl, rfl⟩, rfl, ⟨_, _, rfl⟩⟩
  have run := run_of_performAll hall
  obtain ⟨decision, memory', hdecide, answers, last, hexecuted, _, hanswers⟩ :=
    decide_answered run ht hs hf hq .new hv .new none
  exact ⟨ls, e, e', view, decision, memory', answers, last, run, hv, hdecide, hexecuted, hanswers⟩

end Market

end SpaceportBazaar
