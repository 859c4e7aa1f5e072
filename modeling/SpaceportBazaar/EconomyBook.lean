import SpaceportBazaar.EconomySteps

namespace SpaceportBazaar

open SimulatedEconomy

/-- What an accepted offer and its transaction must agree on. -/
structure Receipt where
  transactionId : Option String
  offerId : String
  proposerId : String
  recipientId : String
  give : Bundle
  receive : Bundle
  settledTick : Option Nat
  deriving DecidableEq

def Offer.receipt (o : Offer) : Receipt :=
  ⟨o.transactionId, o.offerId, o.proposerId, o.recipientId, o.give, o.receive, o.closedTick⟩

def Transaction.receipt (t : Transaction) : Receipt :=
  ⟨some t.transactionId, t.offerId, t.proposerId, t.recipientId, t.give, t.receive,
    some t.settledTick⟩

def Offer.isAccepted (o : Offer) : Bool := o.status = .accepted

/-- Parties, terms, creation and deadline; what is left is how the offer ended. -/
structure Offer.SameTerms (o o' : Offer) : Prop where
  offerId : o'.offerId = o.offerId
  proposerId : o'.proposerId = o.proposerId
  recipientId : o'.recipientId = o.recipientId
  give : o'.give = o.give
  receive : o'.receive = o.receive
  createdTick : o'.createdTick = o.createdTick
  createdVersion : o'.createdVersion = o.createdVersion
  expiresTick : o'.expiresTick = o.expiresTick

theorem Offer.SameTerms.refl (o : Offer) : o.SameTerms o := ⟨rfl, rfl, rfl, rfl, rfl, rfl, rfl, rfl⟩

theorem Offer.SameTerms.trans {o o' o'' : Offer} (h : o.SameTerms o') (h' : o'.SameTerms o'') :
    o.SameTerms o'' :=
  ⟨h'.offerId.trans h.offerId, h'.proposerId.trans h.proposerId, h'.recipientId.trans h.recipientId,
    h'.give.trans h.give, h'.receive.trans h.receive, h'.createdTick.trans h.createdTick,
    h'.createdVersion.trans h.createdVersion, h'.expiresTick.trans h.expiresTick⟩

theorem Offer.sameTerms_closed (o : Offer) (status : OfferStatus) (tick : Nat)
    (txn : Option String) :
    o.SameTerms (o.closed status tick txn) := ⟨rfl, rfl, rfl, rfl, rfl, rfl, rfl, rfl⟩

def idKinds : List String := ["ad", "offer", "txn"]

/-- Numbers are never reused and the kinds do not collide, so ids are distinct. -/
theorem issuedId_injective {kind kind' : String} {n n' : Nat} (hk : kind ∈ idKinds)
    (hk' : kind' ∈ idKinds) (h : issuedId kind n = issuedId kind' n') : kind = kind' ∧ n = n' := by
  have hkind : kind = kind' := by
    have hl := congrArg String.toList h
    simp only [idKinds, List.mem_cons, List.not_mem_nil, or_false] at hk hk'
    rcases hk with rfl | rfl | rfl <;> rcases hk' with rfl | rfl | rfl <;>
      first | rfl | simp [issuedId, String.toList_append] at hl
  subst hkind
  refine ⟨rfl, ?_⟩
  have hrepr : n.repr = n'.repr := (String.append_right_inj _).mp h
  have hdigits : Nat.toDigits 10 n = Nat.toDigits 10 n' := by
    simpa [Nat.toList_repr] using congrArg String.toList hrepr
  calc n = Nat.ofDigitChars 10 (Nat.toDigits 10 n) 0 := Nat.ofDigitChars_ten_toDigits.symm
    _ = Nat.ofDigitChars 10 (Nat.toDigits 10 n') 0 := by rw [hdigits]
    _ = n' := Nat.ofDigitChars_ten_toDigits

def Processed.issuedIds (p : Processed) : List String :=
  match p.action, p.outcome with
  | .advertise .., ⟨.ok, objectId, _⟩ => objectId.toList
  | .offer .., ⟨.ok, objectId, _⟩ => objectId.toList
  | .accept _, ⟨.ok, _, transactionId⟩ => transactionId.toList
  | _, _ => []

def issuedIds (hist : List Processed) : List String := hist.flatMap Processed.issuedIds

@[simp] theorem issuedIds_append (hist : List Processed) (p : Processed) :
    issuedIds (hist ++ [p]) = issuedIds hist ++ p.issuedIds := by
  simp [issuedIds]

theorem issuedIds_of_not_ok {p : Processed} (h : p.outcome.code ≠ .ok) : p.issuedIds = [] := by
  obtain ⟨stationId, action, code, objectId, transactionId⟩ := p
  cases action <;> cases code <;> first | rfl | exact absurd rfl h

/-- An OPEN offer stands between two different planets that are both alive. -/
structure LiveOffer (e : SimulatedEconomy) (o : Offer) : Prop where
  unclosed : o.closedTick = none
  unsettled : o.transactionId = none
  inTime : e.tick < o.expiresTick
  parties : o.proposerId ≠ o.recipientId
  proposer : ∃ p, e.stations.get? o.proposerId = some p ∧ p.failedOnce = false
  recipient : ∃ r, e.stations.get? o.recipientId = some r ∧ r.failedOnce = false

/-- The invariant of the order book. -/
structure Book (e : SimulatedEconomy) : Prop where
  keyed : ∀ k s, e.stations.get? k = some s → s.stationId = k
  distinct : (e.offers.map Offer.offerId).Nodup
  numbered : ∀ o ∈ e.offers, ∃ n < e.ids, o.offerId = issuedId "offer" n
  live : ∀ o ∈ e.offers, o.status = .opened → LiveOffer e o
  receipts : ((e.offers.filter Offer.isAccepted).map Offer.receipt).Perm
    (e.transactions.map Transaction.receipt)

/-- The invariant of the id counter, tied to the commands processed so far. -/
structure Issued (hist : List Processed) (e : SimulatedEconomy) : Prop where
  distinct : (issuedIds hist).Nodup
  numbered : ∀ id ∈ issuedIds hist, ∃ kind ∈ idKinds, ∃ n < e.ids, id = issuedId kind n
  offers : (e.offers.map Offer.offerId).Sublist (issuedIds hist)
  advertisements : (e.advertisements.map Advertisement.advertisementId).Sublist (issuedIds hist)
  transactions : (e.transactions.map Transaction.transactionId).Sublist (issuedIds hist)

/-- Later books extend earlier ones: terms stay, and a closed record stays whole. -/
def Keeps (e e' : SimulatedEconomy) : Prop :=
  ∀ o ∈ e.offers, ∃ o' ∈ e'.offers, o.SameTerms o' ∧ (o.status ≠ .opened → o' = o)

theorem Keeps.refl (e : SimulatedEconomy) : Keeps e e :=
  fun o ho => ⟨o, ho, Offer.SameTerms.refl o, fun _ => rfl⟩

theorem Keeps.trans {a b c : SimulatedEconomy} (h : Keeps a b) (h' : Keeps b c) : Keeps a c := by
  intro o ho
  obtain ⟨o', ho', hterms, hclosed⟩ := h o ho
  obtain ⟨o'', ho'', hterms', hclosed'⟩ := h' o' ho'
  refine ⟨o'', ho'', hterms.trans hterms', fun hne => ?_⟩
  have heq := hclosed hne
  subst heq
  exact hclosed' hne

theorem Keeps.of_map {e e' : SimulatedEconomy} {f : Offer → Offer} (h : e'.offers = e.offers.map f)
    (hf : ∀ o ∈ e.offers, o.SameTerms (f o) ∧ (o.status ≠ .opened → f o = o)) : Keeps e e' := by
  intro o ho
  exact ⟨f o, by rw [h]; exact List.mem_map_of_mem ho, hf o ho⟩

theorem Keeps.of_closeOpen {e e' : SimulatedEconomy} {p : Offer → Bool} {status : OfferStatus}
    {tick : Nat} (h : e'.offers = closeOpen p status tick e.offers) : Keeps e e' := by
  refine Keeps.of_map h (fun o _ => ?_)
  split
  next hp =>
    refine ⟨o.sameTerms_closed status tick none, fun hne => ?_⟩
    exact absurd (by simp only [Bool.and_eq_true, decide_eq_true_eq] at hp; exact hp.1) hne
  next => exact ⟨Offer.SameTerms.refl o, fun _ => rfl⟩

theorem Keeps.of_append {e e' : SimulatedEconomy} {new : List Offer}
    (h : e'.offers = e.offers ++ new) : Keeps e e' :=
  fun o ho => ⟨o, by rw [h]; exact List.mem_append_left _ ho, Offer.SameTerms.refl o, fun _ => rfl⟩

section Closing

variable {p : Offer → Bool} {status : OfferStatus} {tick : Nat}

/-- Closing without a transaction leaves the accepted offers alone. -/
theorem closeOpen_accepted (hs : status ≠ .accepted) (os : List Offer) :
    (closeOpen p status tick os).filter Offer.isAccepted = os.filter Offer.isAccepted := by
  induction os with
  | nil => rfl
  | cons o os ih =>
    unfold closeOpen at ih ⊢
    by_cases hp : (o.status = .opened && p o) = true
    · have hopen : o.status = .opened := by
        simp only [Bool.and_eq_true, decide_eq_true_eq] at hp; exact hp.1
      have hout : (o.closed status tick none).isAccepted = false := by
        simp [Offer.isAccepted, Offer.closed, hs]
      have hin : o.isAccepted = false := by simp [Offer.isAccepted, hopen]
      simp only [List.map_cons, if_pos hp, List.filter_cons, hout, hin, ih,
        Bool.false_eq_true, if_false]
    · simp only [List.map_cons, if_neg hp, List.filter_cons, ih]

theorem closeOpen_numbered {n : Nat} {os : List Offer}
    (h : ∀ o ∈ os, ∃ m < n, o.offerId = issuedId "offer" m) :
    ∀ o ∈ closeOpen p status tick os, ∃ m < n, o.offerId = issuedId "offer" m := by
  intro o ho
  have hid : o.offerId ∈ (closeOpen p status tick os).map Offer.offerId := List.mem_map_of_mem ho
  rw [closeOpen_ids] at hid
  obtain ⟨q, hq, hqo⟩ := List.mem_map.mp hid
  exact hqo ▸ h q hq

end Closing

/-- Accepting one open offer adds exactly its receipt. -/
theorem accepted_receipts {os : List Offer} {offer : Offer} (tick : Nat) (txn : String)
    (hn : (os.map Offer.offerId).Nodup) (hm : offer ∈ os) (ho : offer.status = .opened) :
    (((os.map (fun o => if o.offerId ≠ offer.offerId then o
        else o.closed .accepted tick (some txn))).filter Offer.isAccepted).map Offer.receipt).Perm
      ((os.filter Offer.isAccepted).map Offer.receipt ++
        [(offer.closed .accepted tick (some txn)).receipt]) := by
  induction os with
  | nil => simp at hm
  | cons o os ih =>
    have hn' := List.nodup_cons.mp hn
    rcases List.mem_cons.mp hm with rfl | hm'
    · have hrest : os.map (fun o => if o.offerId ≠ offer.offerId then o
          else o.closed .accepted tick (some txn)) = os := by
        refine (List.map_congr_left ?_).trans os.map_id
        intro q hq
        have hne : q.offerId ≠ offer.offerId := fun h => hn'.1 (h ▸ List.mem_map_of_mem hq)
        simp [hne]
      have hopen : offer.isAccepted = false := by simp [Offer.isAccepted, ho]
      have hclosed : (offer.closed .accepted tick (some txn)).isAccepted = true := by
        simp [Offer.isAccepted, Offer.closed]
      simp only [List.map_cons, ne_eq, not_true_eq_false, if_false, List.filter_cons, hopen,
        hclosed, Bool.false_eq_true, if_true]
      rw [hrest]
      exact List.perm_append_singleton _ _ |>.symm
    · have hne : o.offerId ≠ offer.offerId :=
        fun h => hn'.1 (h ▸ List.mem_map_of_mem hm')
      have := ih hn'.2 hm'
      simp only [List.map_cons, if_pos hne, List.filter_cons]
      split
      next => simpa using this.cons o.receipt
      next => exact this

/-- The stations keep their ids and whether they failed. -/
def Standing (ss ss' : Dict String SimStation) : Prop :=
  ∀ k, (ss'.get? k).map (fun s => (s.stationId, s.failedOnce)) =
    (ss.get? k).map (fun s => (s.stationId, s.failedOnce))

theorem Standing.put {ss ss' : Dict String SimStation} {k : String} {s s' : SimStation}
    (h : Standing ss ss') (hs : ss'.get? k = some s) (hid : s'.stationId = s.stationId)
    (hf : s'.failedOnce = s.failedOnce) : Standing ss (ss'.set k s') := by
  intro j
  rw [← h j, Dict.get?_set]
  split
  next hj => simp [hj, hs, hid, hf]
  next => rfl

theorem Standing.alive {ss ss' : Dict String SimStation} (h : Standing ss ss') {k : String}
    (hs : ∃ s, ss.get? k = some s ∧ s.failedOnce = false) :
    ∃ s, ss'.get? k = some s ∧ s.failedOnce = false := by
  obtain ⟨s, hs, hf⟩ := hs
  have hk := h k
  rw [hs] at hk
  obtain ⟨s', hs', he⟩ := Option.map_eq_some_iff.mp hk
  exact ⟨s', hs', (Prod.mk.inj he).2.trans hf⟩

theorem moveGoods_standing {e m : SimulatedEconomy} {offer : Offer}
    (h : e.moveGoods offer = .ok m) :
    Standing e.stations m.stations := by
  simp only [moveGoods, bind_eq_ok_iff, station_eq_ok_iff] at h
  obtain ⟨p, hp, paid, _, r, hr, paid', _, p', hp', r', hr', h⟩ := h
  cases Except.ok.inj h
  have hstart : Standing e.stations e.stations := fun _ => rfl
  refine Standing.put (Standing.put
      (Standing.put (Standing.put hstart hp ?_ ?_) hr ?_ ?_) hp' ?_ ?_)
    hr' ?_ ?_ <;> rfl

theorem LiveOffer.of_standing {e e' : SimulatedEconomy} {o : Offer} (h : LiveOffer e o)
    (hs : Standing e.stations e'.stations) (ht : e'.tick = e.tick) : LiveOffer e' o :=
  ⟨h.unclosed, h.unsettled, ht ▸ h.inTime, h.parties, hs.alive h.proposer, hs.alive h.recipient⟩

namespace Book

variable {e e' : SimulatedEconomy}

theorem same_id (h : Book e) {o o' : Offer} (ho : o ∈ e.offers) (ho' : o' ∈ e.offers)
    (hid : o.offerId = o'.offerId) : o = o' :=
  List.inj_on_of_nodup_map h.distinct ho ho' hid

/-- Whatever leaves stations, clock and both lists alone keeps the book. -/
theorem frame (h : Book e) (hs : e'.stations = e.stations) (ht : e'.tick = e.tick)
    (ho : e'.offers = e.offers) (hx : e'.transactions = e.transactions) (hn : e.ids ≤ e'.ids) :
    Book e' where
  keyed := hs ▸ h.keyed
  distinct := ho ▸ h.distinct
  numbered o hm := by
    obtain ⟨n, hlt, hid⟩ := h.numbered o (ho ▸ hm)
    exact ⟨n, by omega, hid⟩
  live o hm hopen := (h.live o (ho ▸ hm) hopen).of_standing (hs ▸ fun _ => rfl) ht
  receipts := by
    rw [ho, hx]
    exact h.receipts

theorem closed (h : Book e) (p : Offer → Bool) {status : OfferStatus} (hopen : status ≠ .opened)
    (hacc : status ≠ .accepted) :
    Book { e with offers := closeOpen p status e.tick e.offers } where
  keyed := h.keyed
  distinct := (closeOpen_ids ..).symm ▸ h.distinct
  numbered := closeOpen_numbered h.numbered
  live o hm ho := by
    obtain ⟨hm, ho, _⟩ := (mem_closeOpen_opened hopen).mp ⟨hm, ho⟩
    exact (h.live o hm ho).of_standing (fun _ => rfl) rfl
  receipts := by
    rw [closeOpen_accepted hacc]
    exact h.receipts

theorem posted (h : Book e)
    {stationId recipientId : String} {give receive : Bundle} {expiresTick : Nat} {s : SimStation}
    (admitted : Admitted e stationId (.offer recipientId give receive expiresTick) s) :
    Book { e with
      ids := e.ids + 1
      offers := e.offers ++
        [e.newOffer (issuedId "offer" e.ids) stationId recipientId give receive expiresTick] } := by
  have hcheck := admitted.checked
  simp only [precheckAction] at hcheck
  split at hcheck
  next => simp at hcheck
  next hdeadline =>
    obtain ⟨hnow, _, _⟩ := deadlineAllowed_iff.mp (by simpa using hdeadline)
    obtain ⟨r, hr, hne, _, hrf, _, _⟩ := precheckOffer_eq_none_iff.mp hcheck
    have hfresh : issuedId "offer" e.ids ∉ e.offers.map Offer.offerId := by
      intro hm
      obtain ⟨o, ho, hid⟩ := List.mem_map.mp hm
      obtain ⟨n, hlt, hn⟩ := h.numbered o ho
      have := (issuedId_injective (by simp [idKinds]) (by simp [idKinds]) (hn.symm.trans hid)).2
      omega
    constructor
    case keyed => exact h.keyed
    case distinct =>
      simpa [newOffer, List.nodup_append] using ⟨h.distinct, by simpa using hfresh⟩
    case numbered =>
      intro o ho
      rcases List.mem_append.mp ho with ho | ho
      · obtain ⟨n, hlt, hid⟩ := h.numbered o ho
        exact ⟨n, by simp only; omega, hid⟩
      · cases List.mem_singleton.mp ho
        exact ⟨e.ids, by simp, rfl⟩
    case live =>
      intro o ho hopen
      rcases List.mem_append.mp ho with ho | ho
      · exact (h.live o ho hopen).of_standing (fun _ => rfl) rfl
      · cases List.mem_singleton.mp ho
        exact ⟨rfl, rfl, hnow, fun heq =>
          hne heq.symm, ⟨s, admitted.known, admitted.standing⟩, ⟨r, hr, hrf⟩⟩
    case receipts =>
      have hnew : (e.newOffer (issuedId "offer" e.ids) stationId recipientId give receive
          expiresTick).isAccepted = false := by simp [newOffer, Offer.isAccepted]
      simpa [hnew] using h.receipts

theorem settled (h : Book e) {acceptingId : String} {offer : Offer} {moved : SimulatedEconomy}
    (settles : Settles e acceptingId offer moved) : Book (e.settled moved offer) := by
  have hm := (findOffer_spec settles.found).1
  have hstanding := moveGoods_standing settles.goods
  have hids : ((e.settled moved offer).offers.map Offer.offerId) = e.offers.map Offer.offerId := by
    simp only [SimulatedEconomy.settled, List.map_map]
    apply List.map_congr_left
    intro o _
    simp only [Function.comp_apply]
    split <;> rfl
  constructor
  case keyed =>
    intro k s hs
    have hk := hstanding k
    rw [show moved.stations.get? k = some s from hs] at hk
    obtain ⟨s', hs', heq⟩ := Option.map_eq_some_iff.mp hk.symm
    exact (Prod.mk.inj heq).1 ▸ h.keyed k s' hs'
  case distinct => exact hids ▸ h.distinct
  case numbered =>
    intro o ho
    have hid : o.offerId ∈ e.offers.map Offer.offerId := hids ▸ List.mem_map_of_mem ho
    obtain ⟨q, hq, hqo⟩ := List.mem_map.mp hid
    obtain ⟨n, hlt, hn⟩ := h.numbered q hq
    exact ⟨n, by simp only [SimulatedEconomy.settled]; omega, hqo ▸ hn⟩
  case live =>
    intro o ho hopen
    obtain ⟨q, hq, rfl⟩ := List.mem_map.mp ho
    split at hopen
    next hne =>
      rw [if_pos hne]
      exact (h.live q hq hopen).of_standing hstanding rfl
    next => simp [Offer.closed] at hopen
  case receipts =>
    have hadd := accepted_receipts e.tick (issuedId "txn" e.ids) h.distinct hm settles.opened
    have hold := h.receipts.append_right
      [(offer.closed .accepted e.tick (some (issuedId "txn" e.ids))).receipt]
    have hlast : (offer.closed .accepted e.tick (some (issuedId "txn" e.ids))).receipt =
        (e.newTransaction (issuedId "txn" e.ids) offer).receipt := rfl
    simpa [SimulatedEconomy.settled, hlast] using hadd.trans hold

theorem counted (h : Book e) (stationId : String) : Book (e.countCommand stationId) :=
  h.frame rfl rfl rfl rfl le_rfl

theorem executed (h : Book e) {stationId : String} {action : Action} {out : CommandOutcome}
    (hx : Executed e stationId action out e') : Book e' := by
  cases hx with
  | refused => exact h
  | failed => exact h.counted stationId
  | advertised => exact h.frame rfl rfl rfl rfl (Nat.le_succ _)
  | posted admitted => exact (h.posted admitted).frame rfl rfl rfl rfl le_rfl
  | adWithdrawn => exact h.frame rfl rfl rfl rfl le_rfl
  | offerWithdrawn admitted found own opened =>
    have hc := h.counted stationId
    rw [close_eq_closeOpen hc.distinct (findOffer_spec found).1 opened]
    exact hc.closed _ (by decide) (by decide)
  | settled admitted settles => exact (h.counted stationId).settled settles

theorem ended (h : Book e) : Book e.endRun := by
  have hc : Book { e with offers := closeOpen (fun _ => true) .runEnded e.tick e.offers } :=
    h.closed _ (by decide) (by decide)
  rw [endRun_eq h.distinct]
  exact hc.frame rfl rfl rfl rfl le_rfl

/-- Expiry and failure close, in the middle of a tick, every offer that the new
clock or the newly failed planets would leave without a live counterparty. -/
theorem ticked (h : Book e) : Book e.ticked := by
  have hkeyed : ∀ k s, e.ticked.stations.get? k = some s → s.stationId = k := by
    intro k s hs
    obtain ⟨old, hold, rfl⟩ := get?_ticked hs
    rw [SimStation.afterTick_stationId]
    exact h.keyed k old hold
  have halive : ∀ k, (∃ s, e.stations.get? k = some s ∧ s.failedOnce = false) →
      k ∉ e.ticked.failedIds → ∃ s, e.ticked.stations.get? k = some s ∧ s.failedOnce = false := by
    rintro k ⟨old, hold, _⟩ hk
    have hs : e.ticked.stations.get? k = some (old.afterTick e.rules (e.tick + 1)) := by
      rw [show e.ticked.stations = e.stations.mapValues _ from rfl, Dict.get?_mapValues, hold]
      rfl
    refine ⟨_, hs, ?_⟩
    by_contra hf
    refine hk (List.mem_map.mpr
      ⟨_, List.mem_filter.mpr ⟨Dict.mem_values_iff.mpr ⟨k, hs⟩, ?_⟩, hkeyed k _ hs⟩)
    simpa using hf
  constructor
  case keyed => exact hkeyed
  case distinct =>
    simp only [SimulatedEconomy.ticked, closeOpen_ids]
    exact h.distinct
  case numbered => exact closeOpen_numbered (closeOpen_numbered h.numbered)
  case live =>
    intro o ho hopen
    obtain ⟨ho, _, hparty⟩ := (mem_closeOpen_opened (by decide)).mp ⟨ho, hopen⟩
    obtain ⟨ho, _, hdue⟩ := (mem_closeOpen_opened (by decide)).mp ⟨ho, hopen⟩
    simp only [Bool.or_eq_false_iff, decide_eq_false_iff_not] at hparty hdue
    have hlive := h.live o ho hopen
    exact ⟨hlive.unclosed, hlive.unsettled,
        by simp only [SimulatedEconomy.ticked]; omega, hlive.parties,
      halive _ hlive.proposer hparty.1, halive _ hlive.recipient hparty.2⟩
  case receipts =>
    simp only [SimulatedEconomy.ticked]
    rw [closeOpen_accepted (by decide), closeOpen_accepted (by decide)]
    exact h.receipts

theorem create (stations : List SimStation) (rules : Rules) (runId : String) :
    Book (SimulatedEconomy.create stations rules runId) where
  keyed k s hs := by
    obtain ⟨t, _, heq⟩ := List.mem_map.mp (Dict.mem_of_get?_ofList hs)
    obtain ⟨hk, rfl⟩ := Prod.mk.inj heq
    exact hk
  distinct := List.nodup_nil
  numbered o ho := by simp [SimulatedEconomy.create] at ho
  live o ho := by simp [SimulatedEconomy.create] at ho
  receipts := List.Perm.refl _

end Book

namespace Issued

variable {e e' : SimulatedEconomy} {hist hist' : List Processed}

/-- Steps that hand out no id may still close offers and drop advertisements. -/
theorem frame (h : Issued hist e) (hq : issuedIds hist' = issuedIds hist) (hn : e.ids ≤ e'.ids)
    (ho : e'.offers.map Offer.offerId = e.offers.map Offer.offerId)
    (ha : e'.advertisements.Sublist e.advertisements) (ht : e'.transactions = e.transactions) :
    Issued hist' e' where
  distinct := hq ▸ h.distinct
  numbered id hid := by
    obtain ⟨kind, hk, n, hlt, heq⟩ := h.numbered id (hq ▸ hid)
    exact ⟨kind, hk, n, by omega, heq⟩
  offers := by rw [ho, hq]; exact h.offers
  advertisements := by rw [hq]; exact (ha.map _).trans h.advertisements
  transactions := by rw [ht, hq]; exact h.transactions

theorem fresh (h : Issued hist e) {kind : String} (hk : kind ∈ idKinds) :
    issuedId kind e.ids ∉ issuedIds hist := by
  intro hm
  obtain ⟨kind', hk', n, hlt, heq⟩ := h.numbered _ hm
  have := (issuedId_injective hk hk' heq).2
  omega

theorem issue (h : Issued hist e) (kind : String) (hk : kind ∈ idKinds)
    (hq : issuedIds hist' = issuedIds hist ++ [issuedId kind e.ids]) (hn : e'.ids = e.ids + 1)
    (ho : (e'.offers.map Offer.offerId).Sublist (issuedIds hist ++ [issuedId kind e.ids]))
    (ha : (e'.advertisements.map Advertisement.advertisementId).Sublist
      (issuedIds hist ++ [issuedId kind e.ids]))
    (ht : (e'.transactions.map Transaction.transactionId).Sublist
      (issuedIds hist ++ [issuedId kind e.ids])) :
    Issued hist' e' where
  distinct := by
    rw [hq]
    refine List.nodup_append.mpr ⟨h.distinct, by simp, ?_⟩
    intro a ha b hb hab
    cases List.mem_singleton.mp hb
    exact h.fresh hk (hab ▸ ha)
  numbered id hid := by
    rw [hq] at hid
    rcases List.mem_append.mp hid with hid | hid
    · obtain ⟨kind', hk', n, hlt, heq⟩ := h.numbered id hid
      exact ⟨kind', hk', n, by omega, heq⟩
    · exact ⟨kind, hk, e.ids, by omega, List.mem_singleton.mp hid⟩
  offers := hq ▸ ho
  advertisements := hq ▸ ha
  transactions := hq ▸ ht

theorem executed (h : Issued hist e) {stationId : String} {action : Action} {out : CommandOutcome}
    (hx : Executed e stationId action out e') : Issued (hist ++ [⟨stationId, action, out⟩]) e' := by
  have quiet : ∀ {p : Processed}, p.issuedIds = [] → issuedIds (hist ++ [p]) = issuedIds hist := by
    intro p hp
    simp [hp]
  have longer : ∀ {l : List String} (id : String), l.Sublist (issuedIds hist) →
      l.Sublist (issuedIds hist ++ [id]) := fun id hl => hl.trans (List.sublist_append_left _ _)
  cases hx with
  | @refused _ code hp =>
    have hq := quiet (issuedIds_of_not_ok (p := ⟨stationId, action, ⟨code, none, none⟩⟩)
      (precheck_refused_ne_ok hp).1)
    exact h.frame hq le_rfl rfl (List.Sublist.refl _) rfl
  | failed admitted hout =>
    have hq := quiet (issuedIds_of_not_ok (p := ⟨stationId, action, out⟩) hout)
    exact h.frame hq le_rfl rfl (List.Sublist.refl _) rfl
  | advertised =>
    refine h.issue "ad" (by simp [idKinds]) (by simp [Processed.issuedIds]) rfl (longer _ h.offers)
      ?_ (longer _ h.transactions)
    simp only [List.map_append]
    exact ((List.filter_sublist.map _).trans h.advertisements).append (List.Sublist.refl _)
  | posted =>
    refine h.issue "offer" (by simp [idKinds]) (by simp [Processed.issuedIds]) rfl ?_
      (longer _ h.advertisements) (longer _ h.transactions)
    simp only [List.map_append]
    exact h.offers.append (List.Sublist.refl _)
  | adWithdrawn => exact h.frame (quiet rfl) le_rfl rfl List.erase_sublist rfl
  | @offerWithdrawn offer =>
    refine h.frame (quiet rfl) le_rfl ?_ (List.Sublist.refl _) rfl
    simp only [close, countCommand, List.map_map]
    apply List.map_congr_left
    intro o _
    simp only [Function.comp_apply]
    split <;> rfl
  | @settled offer s moved =>
    refine h.issue "txn" (by simp [idKinds]) (by simp [Processed.issuedIds]) rfl ?_
      (longer _ h.advertisements) ?_
    · have hids : ((e.countCommand stationId).settled moved offer).offers.map Offer.offerId =
          e.offers.map Offer.offerId := by
        simp only [SimulatedEconomy.settled, countCommand, List.map_map]
        apply List.map_congr_left
        intro o _
        simp only [Function.comp_apply]
        split <;> rfl
      rw [hids]
      exact longer _ h.offers
    · simp only [SimulatedEconomy.settled, List.map_append]
      exact h.transactions.append (List.Sublist.refl _)

theorem ticked (h : Issued hist e) : Issued hist e.ticked :=
  h.frame rfl le_rfl (by simp only [SimulatedEconomy.ticked, closeOpen_ids])
    (List.filter_sublist.trans List.filter_sublist) rfl

theorem ended (h : Issued hist e) (hb : Book e) : Issued hist e.endRun := by
  rw [endRun_eq hb.distinct]
  exact h.frame rfl le_rfl (closeOpen_ids ..) (List.nil_sublist _) rfl

theorem create (stations : List SimStation) (rules : Rules) (runId : String) :
    Issued [] (SimulatedEconomy.create stations rules runId) where
  distinct := List.nodup_nil
  numbered id hid := by simp [issuedIds] at hid
  offers := List.nil_sublist _
  advertisements := List.nil_sublist _
  transactions := List.nil_sublist _

end Issued

theorem executed_keeps {e e' : SimulatedEconomy} {stationId : String} {action : Action}
    {out : CommandOutcome} (hb : Book e) (hx : Executed e stationId action out e') :
    Keeps e e' := by
  cases hx with
  | refused => exact Keeps.refl e
  | failed => exact fun o ho => ⟨o, ho, Offer.SameTerms.refl o, fun _ => rfl⟩
  | advertised => exact fun o ho => ⟨o, ho, Offer.SameTerms.refl o, fun _ => rfl⟩
  | posted => exact Keeps.of_append rfl
  | adWithdrawn => exact fun o ho => ⟨o, ho, Offer.SameTerms.refl o, fun _ => rfl⟩
  | offerWithdrawn admitted found own opened =>
    rw [close_eq_closeOpen (hb.counted stationId).distinct (findOffer_spec found).1 opened]
    exact Keeps.of_closeOpen rfl
  | settled admitted settles =>
    refine Keeps.of_map rfl (fun o ho => ?_)
    split
    next => exact ⟨Offer.SameTerms.refl o, fun _ => rfl⟩
    next hid =>
      refine ⟨o.sameTerms_closed _ _ _, fun hne => ?_⟩
      have heq := hb.same_id ho (findOffer_spec settles.found).1 (by simpa using hid)
      exact absurd (heq ▸ settles.opened) hne

theorem ticked_keeps (e : SimulatedEconomy) : Keeps e e.ticked := by
  have hexpired : Keeps e { e with
      offers := closeOpen (fun o => o.expiresTick ≤ e.tick + 1) .expired (e.tick + 1) e.offers } :=
    Keeps.of_closeOpen rfl
  exact hexpired.trans (Keeps.of_closeOpen rfl)

theorem ended_keeps {e : SimulatedEconomy} (hb : Book e) : Keeps e e.endRun := by
  rw [endRun_eq hb.distinct]
  exact Keeps.of_closeOpen rfl

/-- No open offer is ever past its deadline, so no accept comes too late. -/
theorem executed_not_expired {e e' : SimulatedEconomy} {stationId : String} {action : Action}
    {out : CommandOutcome} (hb : Book e) (hx : Executed e stationId action out e') :
    out.code ≠ .expired := by
  cases hx with
  | refused hp => exact (precheck_refused_ne_ok hp).2.1
  | failed admitted hout engine late =>
    intro hexp
    obtain ⟨o, ho, hopen, hdue⟩ := late hexp
    have := (hb.live o ho hopen).inTime
    omega
  | advertised => simp
  | posted => simp
  | adWithdrawn => simp
  | offerWithdrawn => simp
  | settled => simp

section Runs

variable {stations : List SimStation} {rules : Rules} {runId : String} {e e' : SimulatedEconomy}
  {ls ms : List (Operation × List Processed)}

/-- The history invariant of runs that start from an empty book. -/
theorem run_book (run : Machine.Run Performs (create stations rules runId) ls e) :
    Book e ∧ Issued (processed ls) e ∧ ∀ p ∈ processed ls, p.outcome.code ≠ .expired := by
  refine operations_invariant
    (I := fun hist e => Book e ∧ Issued hist e ∧ ∀ p ∈ hist, p.outcome.code ≠ .expired)
    ?_ ?_ ?_ ?_ run ⟨Book.create .., Issued.create .., by simp⟩
  · rintro hist e stationId action out e' ⟨hb, hi, hlate⟩ hx
    refine ⟨hb.executed hx, hi.executed hx, ?_⟩
    intro p hp
    rcases List.mem_append.mp hp with hp | hp
    · exact hlate p hp
    · cases List.mem_singleton.mp hp
      exact executed_not_expired hb hx
  · rintro hist e worldVersion rejections ⟨hb, hi, hlate⟩
    exact ⟨hb.frame rfl rfl rfl rfl le_rfl,
      hi.frame rfl le_rfl rfl (List.Sublist.refl _) rfl, hlate⟩
  · rintro hist e e' ⟨hb, hi, hlate⟩ ha
    rw [advanceTick_eq_ticked hb.distinct ha]
    exact ⟨hb.ticked, hi.ticked, hlate⟩
  · rintro hist e ⟨hb, hi, hlate⟩
    exact ⟨hb.ended, hi.ended hb, hlate⟩

theorem run_keeps (hb : Book e) (run : Machine.Run Performs e ms e') : Book e' ∧ Keeps e e' := by
  refine operations_invariant (I := fun _ e' => Book e' ∧ Keeps e e') ?_ ?_ ?_ ?_ run
    ⟨hb, Keeps.refl e⟩
  · rintro _ a _ _ _ b ⟨hb, hk⟩ hx
    exact ⟨hb.executed hx, hk.trans (executed_keeps hb hx)⟩
  · rintro _ a _ _ ⟨hb, hk⟩
    exact ⟨hb.frame rfl rfl rfl rfl le_rfl, hk⟩
  · rintro _ a b ⟨hb, hk⟩ ha
    rw [advanceTick_eq_ticked hb.distinct ha]
    exact ⟨hb.ticked, hk.trans (ticked_keeps a)⟩
  · rintro _ a ⟨hb, hk⟩
    exact ⟨hb.ended, hk.trans (ended_keeps hb)⟩

theorem Book.transactions_offerIds (h : Book e) :
    (e.transactions.map Transaction.offerId).Nodup := by
  have hids : ((e.offers.filter Offer.isAccepted).map Offer.offerId).Nodup :=
    h.distinct.sublist (List.filter_sublist.map _)
  have hperm := h.receipts.map Receipt.offerId
  simp only [List.map_map] at hperm
  exact hperm.nodup_iff.mp hids

theorem Book.receipt_of_accepted (h : Book e) {o : Offer} (ho : o ∈ e.offers)
    (ha : o.status = .accepted) :
    ∃! t, t ∈ e.transactions ∧ t.receipt = o.receipt := by
  have hm : o.receipt ∈ e.transactions.map Transaction.receipt :=
    h.receipts.subset (List.mem_map_of_mem
      (List.mem_filter.mpr ⟨ho, by simp [Offer.isAccepted, ha]⟩))
  obtain ⟨t, ht, hr⟩ := List.mem_map.mp hm
  refine ⟨t, ⟨ht, hr⟩, ?_⟩
  rintro t' ⟨ht', hr'⟩
  exact List.inj_on_of_nodup_map h.transactions_offerIds ht' ht
    (congrArg Receipt.offerId (hr'.trans hr.symm))

theorem Book.accepted_of_receipt (h : Book e) {t : Transaction} (ht : t ∈ e.transactions) :
    ∃! o, o ∈ e.offers ∧ o.status = .accepted ∧ o.receipt = t.receipt := by
  have hm : t.receipt ∈ (e.offers.filter Offer.isAccepted).map Offer.receipt :=
    h.receipts.symm.subset (List.mem_map_of_mem ht)
  obtain ⟨o, ho, hr⟩ := List.mem_map.mp hm
  obtain ⟨ho, ha⟩ := List.mem_filter.mp ho
  refine ⟨o, ⟨ho, by simpa [Offer.isAccepted] using ha, hr⟩, ?_⟩
  rintro o' ⟨ho', _, hr'⟩
  exact h.same_id ho' ho (congrArg Receipt.offerId (hr'.trans hr.symm))

/-- Over every run from an empty book: ids are never reused, what an offer says
never changes and a closed offer not at all, open offers are live, and the
accepted offers and the transactions answer each other one to one. -/
theorem run_book_laws (run : Machine.Run Performs (create stations rules runId) ls e) :
    (issuedIds (processed ls)).Nodup ∧
    (e.offers.map Offer.offerId).Sublist (issuedIds (processed ls)) ∧
    (e.advertisements.map Advertisement.advertisementId).Sublist (issuedIds (processed ls)) ∧
    (e.transactions.map Transaction.transactionId).Sublist (issuedIds (processed ls)) ∧
    (∀ ms e', Machine.Run Performs e ms e' → ∀ o ∈ e.offers, ∃ o' ∈ e'.offers,
      o.SameTerms o' ∧ (o.status ≠ .opened → o' = o) ∧
      ∀ q ∈ e'.offers, q.offerId = o.offerId → q = o') ∧
    (∀ o ∈ e.offers, o.status = .opened → LiveOffer e o) ∧
    (∀ o ∈ e.offers, o.status = .accepted → ∃! t, t ∈ e.transactions ∧ t.receipt = o.receipt) ∧
    (∀ t ∈ e.transactions, ∃! o, o ∈ e.offers ∧ o.status = .accepted ∧ o.receipt = t.receipt) ∧
    (e.transactions.map Transaction.offerId).Nodup ∧
    (∀ p ∈ processed ls, p.outcome.code ≠ .expired) ∧
    (∀ stationId action out e', e.execute stationId action = .ok (out, e') →
      out.code ≠ .expired) := by
  obtain ⟨hb, hi, hlate⟩ := run_book run
  refine ⟨hi.distinct, hi.offers, hi.advertisements, hi.transactions, ?_, hb.live, fun o =>
    hb.receipt_of_accepted, fun t => hb.accepted_of_receipt, hb.transactions_offerIds, hlate, ?_⟩
  · intro ms e' later o ho
    obtain ⟨hb', hk⟩ := run_keeps hb later
    obtain ⟨o', ho', hterms, hclosed⟩ := hk o ho
    exact ⟨o', ho', hterms, hclosed, fun q hq hid =>
      hb'.same_id hq ho' (hid.trans hterms.offerId.symm)⟩
  · intro stationId action out e' hx
    exact executed_not_expired hb (execute_executed hx)

def tradingPair : List SimStation :=
  [{ stationId := "P01", specialty := .water, inventory := ⟨30, 30, 30⟩ },
   { stationId := "P02", specialty := .food, inventory := ⟨30, 30, 30⟩ }]

def oneTrade : List Operation :=
  [.execute "P01" (.offer "P02" ⟨2, 0, 0⟩ ⟨0, 2, 0⟩ 5),
    .execute "P02" (.accept "offer-1"), .advanceTick]

theorem run_book_laws_trade :
    ∃ ls e, Machine.Run Performs (create tradingPair defaultRules "sim") ls e ∧
      issuedIds (processed ls) = ["offer-1", "txn-2"] ∧ (issuedIds (processed ls)).Nodup ∧
      (e.transactions.map Transaction.offerId).Nodup := by
  obtain ⟨⟨ls, e⟩, hall, hids⟩ :
    ∃ r, (create tradingPair defaultRules "sim").performAll oneTrade = .ok r ∧
      issuedIds (processed r.1) = ["offer-1", "txn-2"] := ⟨_, rfl, rfl⟩
  have run := run_of_performAll hall
  obtain ⟨hnodup, _, _, _, _, _, _, _, hoffers, _⟩ := run_book_laws run
  exact ⟨ls, e, run, hids, hnodup, hoffers⟩

end Runs

end SpaceportBazaar
