import SpaceportBazaar.EconomyBoard

namespace SpaceportBazaar

open SimulatedEconomy

section Lists

variable {α κ : Type*} {key : α → κ} {before after : List α} {x : α}

theorem ne_of_nodup_split (hn : ((before ++ x :: after).map key).Nodup) :
    ∀ y ∈ before ++ after, key y ≠ key x := by
  intro y hy heq
  have hperm : ((before ++ x :: after).map key).Perm (key x :: (before ++ after).map key) :=
    (List.perm_middle.map key)
  exact (List.nodup_cons.mp (hperm.nodup_iff.mp hn)).1 (heq ▸ List.mem_map_of_mem hy)

theorem erase_split [BEq α] [LawfulBEq α] (hn : ((before ++ x :: after).map key).Nodup) :
    (before ++ x :: after).erase x = before ++ after := by
  have hrest := ne_of_nodup_split hn
  have hx : x ∉ before := fun hm => hrest x (List.mem_append_left _ hm) rfl
  rw [List.erase_append_right _ hx, List.erase_cons_head]

variable [DecidableEq κ]

/-- Rewriting the one record with a given key leaves the rest in place. -/
theorem map_split {k : κ} {f : α → α} (hn : ((before ++ x :: after).map key).Nodup)
    (hk : key x = k) :
    (before ++ x :: after).map (fun y => if key y ≠ k then y else f y) =
      before ++ f x :: after := by
  subst hk
  have hrest := ne_of_nodup_split hn
  have same : ∀ ys : List α, (∀ y ∈ ys, key y ≠ key x) →
      ys.map (fun y => if key y ≠ key x then y else f y) = ys := by
    intro ys hys
    refine (List.map_congr_left ?_).trans ys.map_id
    intro y hy
    simp [hys y hy]
  rw [List.map_append, List.map_cons, same before (fun y hy => hrest y (List.mem_append_left _ hy)),
    same after (fun y hy => hrest y (List.mem_append_right _ hy))]
  simp

theorem filter_split {k : κ} (hn : ((before ++ x :: after).map key).Nodup) (hk : key x = k) :
    (before ++ x :: after).filter (fun y => key y ≠ k) = before ++ after := by
  subst hk
  have hrest := ne_of_nodup_split hn
  rw [List.filter_append, List.filter_cons]
  simp only [ne_eq, not_true_eq_false, decide_false, Bool.false_eq_true, if_false]
  rw [← List.filter_append, List.filter_eq_self]
  intro y hy
  simp [hrest y hy]

end Lists

namespace SimulatedEconomy

/-- Exactly one object is created, replaced, closed or settled, here written out record by record.
-/
inductive Change (e : SimulatedEconomy) (stationId : String) : Action → SimulatedEconomy → Prop
  | adCreated {selling seeking expiresTick}
    (none : ∀ a ∈ e.advertisements, a.stationId ≠ stationId) :
    Change e stationId (.advertise selling seeking expiresTick) { e with
      ids := e.ids + 1
      advertisements := e.advertisements ++ [{
        advertisementId := issuedId "ad" e.ids, stationId, selling, seeking, createdTick := e.tick,
        createdVersion := e.worldVersion, expiresTick, status := .active }] }
  | adReplaced {selling seeking expiresTick before old after}
    (place : e.advertisements = before ++ old :: after) (own : old.stationId = stationId) :
    Change e stationId (.advertise selling seeking expiresTick) { e with
      ids := e.ids + 1
      advertisements := before ++ after ++ [{
        advertisementId := issuedId "ad" e.ids, stationId, selling, seeking, createdTick := e.tick,
        createdVersion := e.worldVersion, expiresTick, status := .active }] }
  | adClosed {before ad after} (place : e.advertisements = before ++ ad :: after)
    (own : ad.stationId = stationId) :
    Change e stationId (.withdraw ad.advertisementId) { e with advertisements := before ++ after }
  | offerCreated {recipientId give receive expiresTick} :
    Change e stationId (.offer recipientId give receive expiresTick) { e with
      ids := e.ids + 1
      offers := e.offers ++ [{
        offerId := issuedId "offer" e.ids, proposerId := stationId, recipientId, give, receive,
        createdTick := e.tick, createdVersion := e.worldVersion, expiresTick, status := .opened,
        closedTick := none, transactionId := none }] }
  | offerClosed {before offer after} (place : e.offers = before ++ offer :: after)
    (own : offer.proposerId = stationId) (opened : offer.status = .opened) :
    Change e stationId (.withdraw offer.offerId) { e with
      offers :=
        before ++ { offer with status := .withdrawn, closedTick := some e.tick, transactionId :=
          none } :: after }
  | offerSettled {before offer after p r} (place : e.offers = before ++ offer :: after)
    (addressed : offer.recipientId = stationId) (opened : offer.status = .opened)
    (parties : offer.proposerId ≠ offer.recipientId)
    (proposer : e.stations.get? offer.proposerId = some p)
    (recipient : e.stations.get? offer.recipientId = some r)
    (covered : offer.give ≤ p.inventory ∧ offer.receive ≤ r.inventory) :
    Change e stationId (.accept offer.offerId) { e with
      stations := (e.stations.set offer.proposerId { p with
          inventory := p.inventory.saturatingSub offer.give + offer.receive
          exported := p.exported + offer.give
          imported := p.imported + offer.receive }).set offer.recipientId { r with
          inventory := r.inventory.saturatingSub offer.receive + offer.give
          exported := r.exported + offer.receive
          imported := r.imported + offer.give }
      ids := e.ids + 1
      offers := before ++ { offer with
        status := .accepted, closedTick := some e.tick,
        transactionId := some (issuedId "txn" e.ids) } :: after
      transactions := e.transactions ++ [{
        transactionId := issuedId "txn" e.ids, offerId := offer.offerId,
        proposerId := offer.proposerId, recipientId := offer.recipientId, give := offer.give,
        receive := offer.receive, settledTick := e.tick, settledVersion := e.worldVersion }] }

/-- The stations an action deals with: those of the offer it accepts. -/
def party (e : SimulatedEconomy) (action : Action) (k : String) : Bool :=
  match action with
  | .accept offerId => e.offers.any (fun o => o.offerId = offerId &&
    (o.proposerId = k || o.recipientId = k))
  | _ => false

variable {e e' : SimulatedEconomy} {stationId : String} {action : Action} {out : CommandOutcome}

theorem Change.stations_untouched (h : Change e stationId action e') {k : String}
    (hk : e.party action k = false) : e'.stations.get? k = e.stations.get? k := by
  cases h with
  | adCreated | adReplaced | adClosed | offerCreated | offerClosed => rfl
  | @offerSettled before offer after p r place =>
    simp only [party, List.any_eq_false, Bool.and_eq_true,
      decide_eq_true_eq, Bool.or_eq_true, not_and, not_or] at hk
    obtain ⟨hp, hr⟩ := hk offer (by simp [place]) rfl
    show ((e.stations.set _ _).set _ _).get? k = _
    rw [Dict.get?_set_of_ne _ _ (Ne.symm hr), Dict.get?_set_of_ne _ _ (Ne.symm hp)]

theorem Executed.change (hb : Book e) (hd : Board e) (h : Executed e stationId action out e') :
    (out.code ≠ .ok ∧ e' = (if e.admits stationId action then e.countCommand stationId else e)) ∨
      (out.code = .ok ∧ e.admits stationId action = true ∧
        ∃ c, Change e stationId action c ∧ e' = c.countCommand stationId) := by
  have admitted : ∀ {action s}, Admitted e stationId action s → e.admits stationId action = true :=
    fun hs => admits_iff.mpr (precheck_eq_none_iff.mpr ⟨_, hs⟩)
  have hcount := hb.counted stationId
  cases h with
  | refused hp =>
    have hno : e.admits stationId action = false := by simp [admits, hp]
    exact Or.inl ⟨(precheck_refused_ne_ok hp).1, by simp [hno]⟩
  | failed hs hout => exact Or.inl ⟨hout, by simp [admitted hs]⟩
  | @advertised selling seeking expiresTick s hs =>
    refine Or.inr ⟨rfl, admitted hs, ?_⟩
    by_cases hown : ∃ a ∈ e.advertisements, a.stationId = stationId
    · obtain ⟨old, hold, hstation⟩ := hown
      obtain ⟨before, after, hplace⟩ := List.mem_iff_append.mp hold
      refine ⟨_, Change.adReplaced hplace hstation, ?_⟩
      have hsingle := hd.single
      rw [hplace] at hsingle
      rw [hplace, filter_split hsingle hstation]
      rfl
    · push Not at hown
      refine ⟨_, Change.adCreated hown, ?_⟩
      rw [List.filter_eq_self.mpr (by simpa using hown)]
      rfl
  | posted hs => exact Or.inr ⟨rfl, admitted hs, _, Change.offerCreated, rfl⟩
  | adWithdrawn hs found own =>
    obtain ⟨before, after, hplace⟩ := List.mem_iff_append.mp found
    refine Or.inr ⟨rfl, admitted hs, _, Change.adClosed hplace own, ?_⟩
    have hdistinct := hd.distinct
    rw [hplace] at hdistinct
    rw [hplace, erase_split hdistinct]
    rfl
  | @offerWithdrawn offer s hs found own opened =>
    obtain ⟨before, after, hplace⟩ := List.mem_iff_append.mp (findOffer_spec found).1
    refine Or.inr ⟨rfl, admitted hs, _, Change.offerClosed hplace own opened, ?_⟩
    have hdistinct := hb.distinct
    rw [hplace] at hdistinct
    have hmap := map_split (f := fun o : Offer =>
      { o with status := .withdrawn, closedTick := some e.tick, transactionId :=
        none }) hdistinct rfl
    rw [← hplace] at hmap
    rw [← hmap]
    rfl
  | @settled offer s moved hs settles =>
    obtain ⟨hmem, _⟩ := findOffer_spec settles.found
    obtain ⟨before, after, hplace⟩ := List.mem_iff_append.mp hmem
    obtain ⟨p, hp, _, hgive⟩ := settles.proposer
    obtain ⟨r, hr, _, hreceive⟩ := settles.recipient
    have hne := (hcount.live offer hmem settles.opened).parties
    refine Or.inr ⟨rfl, admitted hs, _,
      Change.offerSettled hplace settles.addressed settles.opened hne hp hr ⟨hgive, hreceive⟩, ?_⟩
    have hdistinct := hb.distinct
    rw [show e.offers = before ++ offer :: after from hplace] at hdistinct
    have hmap := map_split (f := fun o : Offer => { o with
      status := .accepted, closedTick := some e.tick,
      transactionId := some (issuedId "txn" e.ids) }) hdistinct rfl
    rw [← show e.offers = before ++ offer :: after from hplace] at hmap
    have hmoved :=
      Except.ok.inj (settles.goods.symm.trans (moveGoods_eq_ok hp hr hne hgive hreceive))
    rw [hmoved, ← hmap]
    rfl

section Runs

variable {stations : List SimStation} {rules : Rules} {runId : String}
  {ls : List (Operation × List Processed)}

/-- In every reachable state a command of a known station is answered; refused or
failed it changes nothing but the count, and otherwise it changes one object. -/
theorem run_atomic (run : Machine.Run Performs (create stations rules runId) ls e)
    (known : stationId ∈ e.stations.keys) (action : Action) :
    ∃ out e', e.execute stationId action = .ok (out, e') ∧
      (∀ k, e'.countOf k =
        e.countOf k + if k = stationId ∧ e.admits stationId action then 1 else 0) ∧
      (out.code ≠ .ok → e' =
        if e.admits stationId action then
          { e with commandCounts := e.commandCounts.set stationId (e.countOf stationId + 1) }
        else e) ∧
      (out.code = .ok → e.admits stationId action = true ∧
        ∃ c, Change e stationId action c ∧
          e' = { c with commandCounts := c.commandCounts.set stationId (c.countOf stationId + 1) } ∧
          ∀ k, e.party action k = false → e'.stations.get? k = e.stations.get? k) := by
  obtain ⟨hb, hd, _⟩ := run_board run
  cases h : e.execute stationId action with
  | error raised =>
    have hnone := (execute_error hb h).2
    obtain ⟨s, hs⟩ := Dict.mem_keys_iff.mp known
    simp [hnone] at hs
  | ok answer =>
    obtain ⟨out, e'⟩ := answer
    have hx := execute_executed h
    refine ⟨out, e', rfl, ?_, ?_, ?_⟩
    · intro k
      rw [hx.countOf_eq k]
      by_cases hk : k = stationId <;> simp [hk]
    · intro hout
      rcases hx.change hb hd with ⟨_, hsame⟩ | ⟨hok, _⟩
      · exact hsame
      · exact absurd hok hout
    · intro hok
      rcases hx.change hb hd with ⟨hout, _⟩ | ⟨_, hadmits, c, hc, rfl⟩
      · exact absurd hok hout
      · exact ⟨hadmits, c, hc, rfl, fun k hk => hc.stations_untouched hk⟩

theorem run_atomic_trade :
    ∃ (e e' : SimulatedEconomy) (out : CommandOutcome),
      e.execute "P02" (.accept "offer-1") = .ok (out, e') ∧ out.code = .ok ∧
      ∀ k, e.party (.accept "offer-1") k = false → e'.stations.get? k = e.stations.get? k := by
  obtain ⟨⟨ls, e⟩, hall, hk, hok⟩ : ∃ r, (create tradingPair defaultRules "sim").performAll
      [.execute "P01" (.offer "P02" ⟨2, 0, 0⟩ ⟨0, 2, 0⟩ 5)] = .ok r ∧ "P02" ∈ r.2.stations.keys ∧
      ∀ out e', r.2.execute "P02" (.accept "offer-1") = .ok (out, e') → out.code = .ok := by
    refine ⟨_, rfl, by decide, ?_⟩
    intro out e' h
    cases Except.ok.inj h
    rfl
  obtain ⟨out, e', hx, _, _, hchange⟩ := run_atomic (run_of_performAll hall) hk (.accept "offer-1")
  obtain ⟨_, _, _, _, hothers⟩ := hchange (hok out e' hx)
  exact ⟨e, e', out, hx, hok out e' hx, hothers⟩

end Runs

end SimulatedEconomy

end SpaceportBazaar
