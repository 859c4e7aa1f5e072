import SpaceportBazaar.Commitments
import SpaceportBazaar.LinkNews

namespace SpaceportBazaar

def Action.gives : Action → Option Bundle
  | .offer _ give _ _ => some give
  | _ => none

namespace CommitmentTracker

variable {c : CommitmentTracker} {requestId other : String} {give give' : Bundle}

/-- At least this much is held under the request id. -/
def Holds (c : CommitmentTracker) (requestId : String) (give : Bundle) : Prop :=
  ∃ hold, c.inflight.get? requestId = some hold ∧ give ≤ hold

theorem holds_registerInflight :
    (c.registerInflight requestId give).Holds other give' ↔ if other = requestId then give' ≤ give
    else c.Holds other give' := by
  unfold Holds registerInflight
  simp only [Dict.get?_set]
  split <;> simp

theorem holds_resolveInflight :
    (c.resolveInflight requestId).Holds other give ↔ other ≠ requestId ∧ c.Holds other give := by
  unfold Holds resolveInflight
  simp only [Dict.get?_erase]
  split <;> simp [*]

end CommitmentTracker

namespace Link

open BazaarServer (PlanetEffect)

variable {w : Wiring} {l t : Link} {lab : Label} {c c' : CommitmentTracker}
  {requestId : String} {o : Offer}

/-- The record of the command that posted the offer. -/
def Posts (w : Wiring) (s : BazaarServer) (requestId : String) (o : Offer) : Prop :=
  ∃ x, s.storedFor w.stationId requestId = some x ∧
    x.result.ok = true ∧ x.result.objectId = some o.offerId ∧
    o.createdVersion < x.result.processedVersion

/-- The held snapshot is later than the version. -/
def Reaches (s : BazaarSession) (version : Nat) : Prop :=
  ∃ held, s.latest = some held ∧ version ≤ held.worldVersion

/-- A command under this id may yet be processed. -/
def Unanswered (w : Wiring) (s : BazaarServer) (requestId : String) : Prop :=
  stationOf s w.connection = some w.stationId ∧ s.storedFor w.stationId requestId = none ∧
    ¬ s.Doomed w.stationId requestId

/-- Nothing comes of a command under this id that the held snapshot does not show. -/
def Freed (w : Wiring) (l : Link) (requestId : String) : Prop :=
  stationOf l.server w.connection = some w.stationId → l.server.Doomed w.stationId requestId ∨
    ∃ x, l.server.storedFor w.stationId requestId = some x ∧
      (x.result.ok = false ∨ Reaches l.session x.result.processedVersion)

def Used (s : BazaarSession) (requestId : String) : Prop :=
  (s.tracker.sent.get? requestId).isSome = true

/-- Every offer that is posted or on its way is in sight or in the commitments. -/
structure Backs (w : Wiring) (l : Link) (c : CommitmentTracker) : Prop where
  informed : Informed w l
  promised : ∀ payload ∈ l.up, ∀ requestId body give, IsCommand requestId body payload →
    body.action.gives = some give → Unanswered w l.server requestId → c.Holds requestId give
  posted : ∀ o ∈ l.server.economy.offers, o.proposerId = w.stationId → o.status = .opened →
    ∃ requestId, Posts w l.server requestId o ∧
    (Reaches l.session (o.createdVersion + 1) ∨ c.Holds requestId o.give)

theorem Knows.used {s : BazaarSession} {payload : List UInt8} (h : Knows w s requestId payload) :
    Used s requestId := by
  obtain ⟨sent, hsent, _⟩ := h
  simp [Used, hsent]

theorem Unanswered.not_freed (h : Unanswered w l.server requestId) : ¬ Freed w l requestId := by
  intro hfreed
  rcases hfreed h.1 with hdoomed | ⟨x, hx, _⟩
  · exact h.2.2 hdoomed
  · cases h.2.1.symm.trans hx

/-- An offer whose command is done with is in sight. -/
theorem Posts.reaches (h : Posts w l.server requestId o)
    (station : stationOf l.server w.connection = some w.stationId) (hfreed : Freed w l requestId) :
    Reaches l.session (o.createdVersion + 1) := by
  obtain ⟨x, hx, hok, _, hcreated⟩ := h
  rcases hfreed station with hdoomed | ⟨y, hy, hdone⟩
  · cases hdoomed.1.symm.trans hx
  · obtain rfl := Option.some.inj (hx.symm.trans hy)
    rcases hdone with hrefused | ⟨held, hheld, hle⟩
    · simp [hok] at hrefused
    · exact ⟨held, hheld, Nat.succ_le_of_lt (hcreated.trans_le hle)⟩

/-- Only what is held for a command that was sent and is not done with counts. -/
theorem Backs.mono (h : Backs w l c)
    (keeps : ∀ requestId give, Used l.session requestId → ¬ Freed w l requestId →
      c.Holds requestId give → c'.Holds requestId give) : Backs w l c' := by
  refine ⟨h.informed, fun payload hpayload requestId body give hcommand hgive hunanswered =>
    ?_, fun o ho hown hopen => ?_⟩
  · exact keeps requestId give
        (h.informed.sent payload hpayload requestId body hcommand).used hunanswered.not_freed
      (h.promised payload hpayload requestId body give hcommand hgive hunanswered)
  · obtain ⟨requestId, hposts, hcounted⟩ := h.posted o ho hown hopen
    refine ⟨requestId, hposts, ?_⟩
    rcases hcounted with hshown | hheld
    · exact .inl hshown
    · obtain ⟨x, hx⟩ : ∃ x, l.server.storedFor w.stationId requestId = some x :=
        hposts.imp fun x hx => hx.1
      obtain ⟨hstation, _, _, _, hknows, _⟩ := h.informed.recorded requestId x hx
      by_cases hfreed : Freed w l requestId
      · exact .inl (hposts.reaches hstation hfreed)
      · exact .inr (keeps requestId o.give hknows.used hfreed hheld)

theorem Backs.release (h : Backs w l c) (hfreed : Freed w l requestId) :
    Backs w l (c.resolveInflight requestId) := by
  refine h.mono fun other give _ hopen hheld =>
    CommitmentTracker.holds_resolveInflight.mpr ⟨?_, hheld⟩
  rintro rfl
  exact hopen hfreed

theorem Backs.register {give : Bundle} (h : Backs w l c) (covers :
      ∀ hold, c.inflight.get? requestId = some hold → Used l.session requestId → hold ≤ give) :
    Backs w l (c.registerInflight requestId give) := by
  refine h.mono fun other held hused _ hheld => CommitmentTracker.holds_registerInflight.mpr ?_
  split
  next heq =>
    subst heq
    obtain ⟨hold, hhold, hle⟩ := hheld
    exact fun r => (hle r).trans (covers hold hhold hused r)
  next => exact hheld

section Steps

variable {event : BazaarServer.Event} {outs : List Output}

theorem Posts.step (h : Posts w l.server requestId o)
    (hs : BazaarServer.Step w.sha256 l.server (event, outs) t.server) :
    Posts w t.server requestId o := by
  obtain ⟨x, hx, hrest⟩ := h
  exact ⟨x, BazaarServer.step_storedFor hs hx, hrest⟩

/-- What may yet be processed might have been all along. -/
theorem Unanswered.before
    (informed : Informed w l) (hs : BazaarServer.Step w.sha256 l.server (event, outs) t.server)
    {payload : List UInt8} (hpayload : payload ∈ l.up) (h : Unanswered w t.server requestId) :
    Unanswered w l.server requestId := by
  obtain ⟨hstation, hnone, hopen⟩ := h
  obtain ⟨p, hp, _⟩ := informed.going payload hpayload
  refine ⟨?_, ?_, fun hdoomed => hopen (BazaarServer.step_doomed informed.server hs hdoomed)⟩
  · obtain rfl : p = w.stationId := Option.some.inj ((station_step hs hp).symm.trans hstation)
    exact hp
  · by_contra hstored
    obtain ⟨x, hx⟩ := Option.ne_none_iff_exists'.mp hstored
    cases hnone.symm.trans (BazaarServer.step_storedFor hs hx)

/-- The server posts an offer of the planet for a command that was on its way. -/
theorem Backs.opened (h : Backs w l c) (faithful : w.Faithful)
    (hs : BazaarServer.Step w.sha256 l.server (event, outs) t.server)
    (ours : ∀ c frame, event = .receive c frame → stationOf l.server c = some w.stationId →
      c = w.connection ∧ ∃ payload ∈ l.up, frame = .binary (w.parse payload))
    (ho : o ∈ t.server.economy.offers) (hown : o.proposerId = w.stationId)
    (hopen : o.status = .opened) :
    o ∈ l.server.economy.offers ∨ ∃ requestId, Posts w t.server requestId o ∧
    c.Holds requestId o.give := by
  cases BazaarServer.step_planet h.informed.server.book hs w.stationId with
  | kept _ offers => exact .inl (offers o ho hown hopen)
  | @recorded d requestId body x table serving received was new room records _ _ dated offers =>
    rcases offers o ho hown hopen with hold | hopens
    · exact .inl hold
    · have hstation : stationOf l.server d = some w.stationId := by simp [stationOf, serving]
      obtain ⟨rfl, payload, hpayload, hcommand⟩ :=
        h.informed.uplinked faithful ours hstation received
      have hunanswered : Unanswered w l.server requestId := by
        refine ⟨hstation, by simp [BazaarServer.storedFor, was, new], ?_⟩
        rintro ⟨_, table', htable', hfull⟩
        obtain rfl := Option.some.inj (was.symm.trans htable')
        omega
      refine .inr ⟨requestId,
        ⟨x, by simp [BazaarServer.storedFor, records], hopens.ok, hopens.named, ?_⟩, ?_⟩
      · rw [hopens.created, dated]
        exact hopens.version
      · exact h.promised payload hpayload requestId body o.give hcommand
          (by rw [hopens.action]; rfl) hunanswered

theorem Backs.server_step (h : Backs w l c) (faithful : w.Faithful) (informed : Informed w t)
    (hs : BazaarServer.Step w.sha256 l.server (event, outs) t.server)
    (session : t.session = l.session) (up : ∀ payload ∈ t.up, payload ∈ l.up)
    (ours : ∀ c frame, event = .receive c frame → stationOf l.server c = some w.stationId →
      c = w.connection ∧ ∃ payload ∈ l.up, frame = .binary (w.parse payload)) : Backs w t c := by
  refine ⟨informed, fun payload hpayload requestId body give hcommand hgive hunanswered =>
    ?_, fun o ho hown hopen => ?_⟩
  · exact h.promised payload (up payload hpayload) requestId body give hcommand hgive
      (hunanswered.before h.informed hs (up payload hpayload))
  · rw [session]
    rcases h.opened faithful hs ours ho hown hopen with hold | ⟨requestId, hposts, hheld⟩
    · obtain ⟨requestId, hposts, hcounted⟩ := h.posted o hold hown hopen
      exact ⟨requestId, hposts.step hs, hcounted⟩
    · exact ⟨requestId, hposts, .inr hheld⟩

end Steps

theorem init_backs (w : Wiring) (config : Config) (throttle : CommandThrottle) :
    Backs w (init config throttle) .new where
  informed := init_informed w config throttle
  promised payload hpayload := absurd hpayload (List.not_mem_nil)
  posted o ho := by
    have hoffers : (init config throttle).server.economy.offers = [] :=
      SimulatedEconomy.applyProduction_offers _ config.production
    simp [hoffers] at ho

/-- One step of the link keeps every offer counted, if what it sends is held. -/
theorem Backs.step (h : Backs w l c) (faithful : w.Faithful)
    (built : ∀ event outs, sessionLabel lab = some (event, outs) → Built l.session event)
    (sends : ∀ payload ∈ lab.2.2.filterMap outgoing,
      ∀ requestId body give, IsCommand requestId body payload →
      body.action.gives = some give → c.Holds requestId give) (hs : Step w l lab t) :
    Backs w t c ∧ BazaarSession.Keeps l.session t.session := by
  obtain ⟨hinformed, hkeeps⟩ := h.informed.step faithful built hs
  refine ⟨?_, hkeeps⟩
  cases step_advances hs with
  | server _ _ step session _ up ours => exact h.server_step faithful hinformed step session up ours
  | @session event label step server down up =>
    refine ⟨hinformed, fun payload hpayload requestId body give hcommand hgive hunanswered =>
      ?_, fun o ho hown hopen => ?_⟩
    · rw [up] at hpayload
      rw [server] at hunanswered
      rcases List.mem_append.mp hpayload with hpayload | hpayload
      · exact h.promised payload hpayload requestId body give hcommand hgive hunanswered
      · exact sends payload hpayload requestId body give hcommand hgive
    · rw [server] at ho ⊢
      obtain ⟨requestId, hposts, hcounted⟩ := h.posted o ho hown hopen
      refine ⟨requestId, hposts, hcounted.imp (fun hreaches => ?_) id⟩
      obtain ⟨held, hheld, hle⟩ := hreaches
      rcases BazaarSession.step_latest h.informed.session step with hsame | ⟨snapshot, rfl, hnew⟩
      · exact ⟨held, hsame.trans hheld, hle⟩
      · obtain ⟨message, heq, hdown⟩ := down.resolve_right (fun hno => hno.1 _ rfl)
        obtain rfl : ServerEvent.state snapshot = message := by simpa using heq
        exact ⟨snapshot, hnew, hle.trans (h.informed.ordered hheld hdown)⟩

/-- A step without a call to send a command sends none. -/
theorem plain_sends (h : Informed w l) (hs : Step w l lab t)
    (plain : ∀ event outs, sessionLabel lab = some (event, outs) →
      ∀ call draft kind requestId, event ≠ .sendCommand call draft kind requestId)
    {payload : List UInt8} {body : CommandBody} (hpayload : payload ∈ lab.2.2.filterMap outgoing) :
    ¬ IsCommand requestId body payload := by
  cases step_advances hs with
  | server _ silent =>
    rw [silent] at hpayload
    cases hpayload
  | session label step => exact outgoing_plain h.session step (plain _ _ label) hpayload

section Counted

variable {snapshot : Snapshot}

/-- Our offers that can still be accepted. -/
def openOffers (w : Wiring) (e : SimulatedEconomy) : List Offer :=
  e.offers.filter (fun o => o.proposerId = w.stationId && o.status = .opened)

theorem mem_openOffers {e : SimulatedEconomy} :
    o ∈ openOffers w e ↔ o ∈ e.offers ∧ o.proposerId = w.stationId ∧ o.status = .opened := by
  simp [openOffers]

/-- The state was told, and every open offer of ours that is later is held. -/
structure Dated (w : Wiring) (l : Link) (c : CommitmentTracker) (snapshot : Snapshot) : Prop where
  told : Says w l.server (.state snapshot)
  offers : ∀ o ∈ l.server.economy.offers, o.proposerId = w.stationId → o.status = .opened →
    ∃ requestId, Posts w l.server requestId o ∧
    (o.createdVersion < snapshot.worldVersion ∨ c.Holds requestId o.give)

theorem Backs.dated (h : Backs w l c) (hlatest : l.session.latest = some snapshot) :
    Dated w l c snapshot where
  told := h.informed.heard.latest snapshot hlatest
  offers o ho hown hopen := by
    obtain ⟨requestId, hposts, hcounted⟩ := h.posted o ho hown hopen
    refine ⟨requestId, hposts, hcounted.imp (fun hreaches => ?_) id⟩
    obtain ⟨held, hheld, hle⟩ := hreaches
    obtain rfl := Option.some.inj (hlatest.symm.trans hheld)
    exact hle

/-- While nothing else comes to be held, what was counted stays counted. -/
theorem Dated.step (h : Dated w l c snapshot) (backs : Backs w l c) (faithful : w.Faithful)
    (hs : Step w l lab t) :
    Dated w t c snapshot := by
  refine ⟨backs.informed.says_step faithful hs h.told, fun o ho hown hopen => ?_⟩
  cases step_advances hs with
  | server _ _ step _ _ _ ours =>
    rcases backs.opened faithful step ours ho hown hopen with hold | ⟨requestId, hposts, hheld⟩
    · obtain ⟨requestId, hposts, hcounted⟩ := h.offers o hold hown hopen
      exact ⟨requestId, hposts.step step, hcounted⟩
    · exact ⟨requestId, hposts, .inr hheld⟩
  | session _ _ server =>
    rw [server] at ho ⊢
    exact h.offers o ho hown hopen

/-- Every open offer stands in the snapshot, or its command is held. -/
theorem Dated.counted (h : Dated w l c snapshot) (informed : Informed w l)
    (ho : o ∈ openOffers w l.server.economy) :
    o ∈ snapshot.outgoingOpenOffers ∨ ∃ requestId, Posts w l.server requestId o ∧
    c.Holds requestId o.give := by
  obtain ⟨ho, hown, hopen⟩ := mem_openOffers.mp ho
  obtain ⟨requestId, hposts, hcounted⟩ := h.offers o ho hown hopen
  rcases hcounted with hle | hheld
  · obtain ⟨x, hx⟩ : ∃ x, l.server.storedFor w.stationId requestId = some x :=
      hposts.imp fun x hx => hx.1
    obtain ⟨hstation, _⟩ := informed.recorded requestId x hx
    obtain ⟨p, hp, htold⟩ := h.told.state
    have hreflects := htold (Option.some.inj (hp.symm.trans hstation))
    have htick := (informed.server.book.live o ho hopen).inTime
    refine .inl (Snapshot.mem_outgoingOpenOffers.mpr ⟨?_, ?_, hopen, hreflects.tick.trans_lt htick⟩)
    · obtain rfl : p = w.stationId := Option.some.inj (hp.symm.trans hstation)
      exact hreflects.offers o ho hown hopen hle
    · rw [hown, hreflects.self]
  · exact .inr ⟨requestId, hposts, hheld⟩

theorem Backs.counted (h : Backs w l c) (hlatest : l.session.latest = some snapshot)
    (ho : o ∈ openOffers w l.server.economy) :
    o ∈ snapshot.outgoingOpenOffers ∨ ∃ requestId, Posts w l.server requestId o ∧
    c.Holds requestId o.give :=
  (h.dated hlatest).counted h.informed ho

theorem Posts.inj {o' : Offer} (h : Posts w l.server requestId o)
    (h' : Posts w l.server requestId o') :
    o.offerId = o'.offerId := by
  obtain ⟨x, hx, _, hnamed, _⟩ := h
  obtain ⟨y, hy, _, hnamed', _⟩ := h'
  obtain rfl := Option.some.inj (hx.symm.trans hy)
  exact Option.some.inj (hnamed.symm.trans hnamed')

/-- What our open offers promise is within what the snapshot and the holds add up to. -/
theorem Dated.promised_le (h : Dated w l c snapshot) (informed : Informed w l) (r : Resource) :
    ((openOffers w l.server.economy).map Offer.give).sum.get r ≤
      (CommitmentTracker.outstandingConfirmedGive snapshot).get r + c.inflightTotal.get r := by
  have hids : ((openOffers w l.server.economy).map Offer.offerId).Nodup :=
    informed.server.book.distinct.sublist (List.filter_sublist.map _)
  have hnodup := List.Nodup.of_map _ hids
  let shown (o : Offer) : Bool := o ∈ snapshot.outgoingOpenOffers
  have hshown :
      ((openOffers w l.server.economy).filter shown).Subperm snapshot.outgoingOpenOffers :=
    (hnodup.filter _).subperm fun o ho => by simpa [shown] using (List.mem_filter.mp ho).2
  have hheld : ∀ o ∈ (openOffers w l.server.economy).filter (fun o => !shown o),
      ∃ requestId, Posts w l.server requestId o ∧ c.Holds requestId o.give := by
    intro o ho
    obtain ⟨ho, hhidden⟩ := List.mem_filter.mp ho
    exact (h.counted informed ho).resolve_left (by simpa [shown] using hhidden)
  choose! key hposts hholds using hheld
  have hkeys : (((openOffers w l.server.economy).filter (fun o => !shown o)).map key).Nodup := by
    refine (hnodup.filter _).map_on fun o ho o' ho' heq => ?_
    have hsame := (hposts o ho).inj (heq ▸ hposts o' ho')
    exact List.inj_on_of_nodup_map hids (List.mem_of_mem_filter ho)
      (List.mem_of_mem_filter ho') hsame
  have hsplit :=
    (List.filter_append_perm shown (openOffers w l.server.economy)).map (fun o => o.give.get r)
  have hgives : ∀ os :
      List Offer, (os.map Offer.give).sum.get r = (os.map (fun o => o.give.get r)).sum := by
    intro os
    rw [Bundle.get_sum, List.map_map]
    rfl
  rw [CommitmentTracker.outstandingConfirmedGive, CommitmentTracker.inflightTotal, hgives, hgives,
    Bundle.get_sum, ← hsplit.sum_eq, List.map_append, List.sum_append]
  refine Nat.add_le_add (hshown.sum_map_le _) (Dict.sum_le_sum_values hkeys fun o ho => ?_)
  obtain ⟨hold, hhold, hle⟩ := hholds o ho
  exact ⟨hold, hhold, hle r⟩

theorem Backs.promised_le (h : Backs w l c) (hlatest : l.session.latest = some snapshot)
    (r : Resource) :
    ((openOffers w l.server.economy).map Offer.give).sum.get r ≤
      (CommitmentTracker.outstandingConfirmedGive snapshot).get r + c.inflightTotal.get r :=
  (h.dated hlatest).promised_le h.informed r

end Counted

end Link

end SpaceportBazaar
