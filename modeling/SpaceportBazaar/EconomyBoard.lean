import SpaceportBazaar.EconomyLedger

namespace SpaceportBazaar

open SimulatedEconomy

/-- A deadline that was allowed when it was set and has not passed. -/
structure InTerm (e : SimulatedEconomy) (ttl createdTick expiresTick : Nat) : Prop where
  future : createdTick < expiresTick
  within : expiresTick ≤ min (createdTick + ttl) e.rules.durationTicks
  pending : e.tick < expiresTick

/-- The invariant of the notice board and of the limits checked when something is posted. -/
structure Board (e : SimulatedEconomy) : Prop where
  numbered : ∀ a ∈ e.advertisements, ∃ n < e.ids, a.advertisementId = issuedId "ad" n
  distinct : (e.advertisements.map Advertisement.advertisementId).Nodup
  single : (e.advertisements.map Advertisement.stationId).Nodup
  active : ∀ a ∈ e.advertisements, a.status = .active
  published :
    ∀ a ∈ e.advertisements, InTerm e e.rules.maxPublicationTtlTicks a.createdTick a.expiresTick
  alive : ∀ a ∈ e.advertisements, ∃ s, e.stations.get? a.stationId = some s ∧ s.failedOnce = false
  offered : ∀ o ∈ e.offers, o.status = .opened →
    InTerm e e.rules.maxOfferTtlTicks o.createdTick o.expiresTick
  slots : ∀ k, e.openCount k ≤ e.rules.maxOpenOutgoingOffers
  quota : ∀ k, e.countOf k ≤ e.rules.newCommandsPerStationPerTick

theorem InTerm.frame {e e' : SimulatedEconomy} {ttl createdTick expiresTick : Nat}
    (h : InTerm e ttl createdTick expiresTick) (hr : e'.rules = e.rules) (ht : e'.tick = e.tick) :
    InTerm e' ttl createdTick expiresTick := ⟨h.future, hr ▸ h.within, ht ▸ h.pending⟩

theorem InTerm.of_allowed {e : SimulatedEconomy} {ttl expiresTick : Nat}
    (h : e.deadlineAllowed ttl expiresTick = true) : InTerm e ttl e.tick expiresTick := by
  obtain ⟨hnow, httl, hend⟩ := deadlineAllowed_iff.mp h
  exact ⟨hnow, Nat.le_min.mpr ⟨httl, hend⟩, hnow⟩

/-- Offers that change only by being closed leave no station with more open ones. -/
theorem openCount_le_of_map {e e' : SimulatedEconomy} {f : Offer → Offer}
    (h : e'.offers = e.offers.map f) (hf : ∀ o ∈ e.offers, f o = o ∨ (f o).status ≠ .opened)
    (k : String) : e'.openCount k ≤ e.openCount k := by
  unfold openCount
  rw [h, List.countP_map]
  refine List.countP_mono_left ?_
  intro o ho hopen
  rcases hf o ho with hsame | hclosed
  · simpa [hsame] using hopen
  · simp [hclosed] at hopen

theorem openCount_le_of_closeOpen {e e' : SimulatedEconomy} {p : Offer → Bool}
    {status : OfferStatus} {tick : Nat} (h : e'.offers = closeOpen p status tick e.offers)
    (hs : status ≠ .opened) (k : String) :
    e'.openCount k ≤ e.openCount k := by
  refine openCount_le_of_map h ?_ k
  intro o _
  split
  next => exact Or.inr (by simpa [Offer.closed] using hs)
  next => exact Or.inl rfl

namespace Board

variable {e e' : SimulatedEconomy}

/-- Whatever takes notices down and closes offers keeps the board. -/
theorem frame (h : Board e) (hr : e'.rules = e.rules) (ht : e'.tick = e.tick)
    (ha : e'.advertisements.Sublist e.advertisements) (hn : e.ids ≤ e'.ids)
    (hs : Standing e.stations e'.stations)
    (ho : ∀ o ∈ e'.offers, o.status = .opened → o ∈ e.offers)
    (hopen : ∀ k, e'.openCount k ≤ e.openCount k)
    (hcount : ∀ k, e'.countOf k ≤ e'.rules.newCommandsPerStationPerTick) : Board e' where
  numbered a hm := by
    obtain ⟨n, hlt, hid⟩ := h.numbered a (ha.subset hm)
    exact ⟨n, by omega, hid⟩
  distinct := h.distinct.sublist (ha.map _)
  single := h.single.sublist (ha.map _)
  active a hm := h.active a (ha.subset hm)
  published a hm := by
    rw [hr]
    exact (h.published a (ha.subset hm)).frame hr ht
  alive a hm := hs.alive (h.alive a (ha.subset hm))
  offered o hm hopened := by
    rw [hr]
    exact (h.offered o (ho o hm hopened) hopened).frame hr ht
  slots k := by
    rw [hr]
    exact (hopen k).trans (h.slots k)
  quota := hcount

theorem noted (h : Board e) (worldVersion : Nat) (rejections : List (String × ResultCode)) :
    Board (e.noted worldVersion rejections) :=
  h.frame rfl rfl (List.Sublist.refl _) le_rfl (fun _ => rfl) (fun _ ho _ => ho)
    (fun _ => le_rfl) h.quota

theorem counted (h : Board e) {stationId : String}
    (hquota : e.countOf stationId < e.rules.newCommandsPerStationPerTick) :
    Board (e.countCommand stationId) := by
  refine h.frame rfl rfl (List.Sublist.refl _) le_rfl (fun _ => rfl) (fun _ ho _ => ho)
    (fun _ => le_rfl) ?_
  intro k
  rw [countOf_countCommand]
  have hk := h.quota k
  by_cases hkey : k = stationId
  · subst hkey
    simp only [if_true]
    exact hquota
  · simp only [hkey, if_false, Nat.add_zero]
    exact hk

/-- A new notice takes the place of the station's old one. -/
theorem advertised (h : Board e)
    {stationId : String} {selling seeking : Finset Resource} {expiresTick : Nat}
    {s : SimStation} (known : e.stations.get? stationId = some s) (standing : s.failedOnce = false)
    (allowed : e.deadlineAllowed e.rules.maxPublicationTtlTicks expiresTick = true) :
    Board { e with
      ids := e.ids + 1
      advertisements := e.advertisements.filter (fun a => a.stationId ≠ stationId) ++
        [e.newAdvertisement (issuedId "ad" e.ids) stationId selling seeking expiresTick] } := by
  have hmem : ∀ a ∈ e.advertisements.filter (fun a => a.stationId ≠ stationId),
      a ∈ e.advertisements :=
    fun a ha => (List.mem_filter.mp ha).1
  have hfresh : issuedId "ad" e.ids ∉ e.advertisements.map Advertisement.advertisementId := by
    intro hm
    obtain ⟨a, ha, hid⟩ := List.mem_map.mp hm
    obtain ⟨n, hlt, hn⟩ := h.numbered a ha
    have := (issuedId_injective (by simp [idKinds]) (by simp [idKinds]) (hn.symm.trans hid)).2
    omega
  have cases_mem : ∀ {p : Advertisement → Prop}, (∀ a ∈ e.advertisements, p a) →
      p (e.newAdvertisement (issuedId "ad" e.ids) stationId selling seeking expiresTick) →
      ∀ a ∈ e.advertisements.filter (fun a => a.stationId ≠ stationId) ++
        [e.newAdvertisement (issuedId "ad" e.ids) stationId selling seeking expiresTick], p a := by
    intro p hold hnew a ha
    rcases List.mem_append.mp ha with ha | ha
    · exact hold a (hmem a ha)
    · rw [List.mem_singleton.mp ha]
      exact hnew
  constructor
  case numbered =>
    refine cases_mem ?_ ⟨e.ids, Nat.lt_succ_self _, rfl⟩
    intro a ha
    obtain ⟨n, hlt, hid⟩ := h.numbered a ha
    exact ⟨n, Nat.lt_succ_of_lt hlt, hid⟩
  case distinct =>
    rw [List.map_append]
    refine List.nodup_append.mpr ⟨h.distinct.sublist (List.filter_sublist.map _), by simp, ?_⟩
    intro x hx y hy hxy
    rw [List.map_singleton, List.mem_singleton] at hy
    refine hfresh ?_
    show (e.newAdvertisement
      (issuedId "ad" e.ids) stationId selling seeking expiresTick).advertisementId ∈ _
    rw [← hy, ← hxy]
    exact (List.filter_sublist.map _).subset hx
  case single =>
    rw [List.map_append]
    refine List.nodup_append.mpr ⟨h.single.sublist (List.filter_sublist.map _), by simp, ?_⟩
    intro x hx y hy hxy
    obtain ⟨a, ha, rfl⟩ := List.mem_map.mp hx
    have hne : a.stationId ≠ stationId := by simpa using (List.mem_filter.mp ha).2
    rw [List.map_singleton, List.mem_singleton] at hy
    exact hne (hxy.trans hy)
  case active => exact cases_mem h.active rfl
  case published =>
    exact cases_mem (fun a ha => (h.published a ha).frame rfl rfl) (InTerm.of_allowed allowed)
  case alive => exact cases_mem h.alive ⟨s, known, standing⟩
  case offered => exact fun o ho hopened => (h.offered o ho hopened).frame rfl rfl
  case slots => exact h.slots
  case quota => exact h.quota

theorem posted (h : Board e) {stationId recipientId : String} {give receive : Bundle}
    {expiresTick : Nat} (allowed : e.deadlineAllowed e.rules.maxOfferTtlTicks expiresTick = true)
    (room : e.openCount stationId < e.rules.maxOpenOutgoingOffers) :
    Board { e with
      ids := e.ids + 1
      offers := e.offers ++
        [e.newOffer (issuedId "offer" e.ids) stationId recipientId give receive expiresTick] } where
  numbered a ha := by
    obtain ⟨n, hlt, hid⟩ := h.numbered a ha
    exact ⟨n, Nat.lt_succ_of_lt hlt, hid⟩
  distinct := h.distinct
  single := h.single
  active := h.active
  published a ha := (h.published a ha).frame rfl rfl
  alive := h.alive
  offered := by
    intro o ho hopened
    rcases List.mem_append.mp ho with ho | ho
    · exact (h.offered o ho hopened).frame rfl rfl
    · rw [List.mem_singleton.mp ho]
      exact InTerm.of_allowed allowed
  slots := by
    intro k
    have hk := h.slots k
    unfold openCount at hk room ⊢
    show _ ≤ e.rules.maxOpenOutgoingOffers
    rw [List.countP_append]
    by_cases hkey : stationId = k
    · subst hkey
      have hone :
          List.countP (fun o => decide (o.proposerId = stationId) && decide (o.status = .opened))
          [e.newOffer (issuedId "offer" e.ids) stationId recipientId give receive expiresTick] =
              1 := by
        simp [newOffer]
      omega
    · have hnone : List.countP (fun o => decide (o.proposerId = k) && decide (o.status = .opened))
          [e.newOffer (issuedId "offer" e.ids) stationId recipientId give receive expiresTick] =
              0 := by
        simp [newOffer, hkey]
      omega
  quota := h.quota

theorem executed (h : Board e) (hb : Book e) {stationId : String} {action : Action}
    {out : CommandOutcome} (hx : Executed e stationId action out e') : Board e' := by
  cases hx with
  | refused => exact h
  | failed admitted => exact h.counted admitted.quota
  | advertised admitted =>
    have hcheck := admitted.checked
    simp only [precheckAction] at hcheck
    split at hcheck
    next => simp at hcheck
    next hallowed =>
      simp only [Bool.not_eq_true, Bool.not_eq_false'] at hallowed
      exact (h.counted admitted.quota).advertised admitted.known admitted.standing hallowed
  | posted admitted =>
    have hcheck := admitted.checked
    simp only [precheckAction] at hcheck
    split at hcheck
    next => simp at hcheck
    next hallowed =>
      simp only [Bool.not_eq_true, Bool.not_eq_false'] at hallowed
      obtain ⟨_, _, _, _, _, _, hroom⟩ := precheckOffer_eq_none_iff.mp hcheck
      exact (h.counted admitted.quota).posted hallowed hroom
  | adWithdrawn admitted =>
    have hc := h.counted admitted.quota
    exact hc.frame rfl rfl List.erase_sublist le_rfl (fun _ => rfl) (fun _ ho _ => ho)
      (fun _ => le_rfl) hc.quota
  | offerWithdrawn admitted found own opened =>
    have hc := h.counted admitted.quota
    rw [close_eq_closeOpen (hb.counted stationId).distinct (findOffer_spec found).1 opened]
    refine hc.frame rfl rfl (List.Sublist.refl _) le_rfl (fun _ => rfl) ?_
      (openCount_le_of_closeOpen rfl (by decide)) hc.quota
    intro o ho hopened
    exact ((mem_closeOpen_opened (by decide)).mp ⟨ho, hopened⟩).1
  | @settled offer s moved admitted settles =>
    have hc := h.counted admitted.quota
    have hstanding : Standing
      (e.countCommand stationId).stations moved.stations := moveGoods_standing settles.goods
    refine hc.frame rfl rfl (List.Sublist.refl _) (Nat.le_succ _) hstanding ?_
      (openCount_le_of_map rfl ?_) hc.quota
    · intro o ho hopened
      obtain ⟨q, hq, rfl⟩ := List.mem_map.mp ho
      split at hopened
      next hne =>
        rw [if_pos hne]
        exact hq
      next => simp [Offer.closed] at hopened
    · intro o _
      split
      next => exact Or.inl rfl
      next => exact Or.inr (by simp [Offer.closed])

/-- A tick takes down what the new clock ends and what a failed planet published. -/
theorem ticked (h : Board e) (hb : Book e) : Board e.ticked := by
  have hbook := hb.ticked
  have hads : e.ticked.advertisements.Sublist e.advertisements :=
    List.filter_sublist.trans List.filter_sublist
  have hopened : ∀ o ∈ e.ticked.offers, o.status = .opened → o ∈ e.offers := by
    intro o ho hopen
    obtain ⟨ho, _, _⟩ := (mem_closeOpen_opened (by decide)).mp ⟨ho, hopen⟩
    exact ((mem_closeOpen_opened (by decide)).mp ⟨ho, hopen⟩).1
  constructor
  case numbered => exact fun a ha => h.numbered a (hads.subset ha)
  case distinct => exact h.distinct.sublist (hads.map _)
  case single => exact h.single.sublist (hads.map _)
  case active => exact fun a ha => h.active a (hads.subset ha)
  case published =>
    intro a ha
    have hold := h.published a (hads.subset ha)
    have hdue := (List.mem_filter.mp (List.mem_filter.mp ha).1).2
    simp only [decide_eq_true_eq] at hdue
    exact ⟨hold.future, hold.within, hdue⟩
  case alive =>
    intro a ha
    obtain ⟨s, hs, _⟩ := h.alive a (hads.subset ha)
    have hticked :
        e.ticked.stations.get? a.stationId = some (s.afterTick e.rules (e.tick + 1)) := by
      rw [show e.ticked.stations = e.stations.mapValues _ from rfl, Dict.get?_mapValues, hs]
      rfl
    refine ⟨_, hticked, ?_⟩
    by_contra hf
    have hmem : a.stationId ∈ e.ticked.failedIds := by
      refine List.mem_map.mpr ⟨_,
        List.mem_filter.mpr ⟨Dict.mem_values_iff.mpr ⟨_, hticked⟩, by simpa using hf⟩, ?_⟩
      exact hbook.keyed _ _ hticked
    have hkept := (List.mem_filter.mp ha).2
    simp only [decide_eq_true_eq] at hkept
    exact hkept hmem
  case offered =>
    intro o ho hopen
    have hold := h.offered o (hopened o ho hopen) hopen
    exact ⟨hold.future, hold.within, (hbook.live o ho hopen).inTime⟩
  case slots =>
    intro k
    have hexpired : ∀ e₁ : SimulatedEconomy, e₁.offers =
        closeOpen (fun o => o.expiresTick ≤ e.tick + 1) .expired (e.tick + 1) e.offers →
        e₁.openCount k ≤ e.openCount k := fun _ h₁ => openCount_le_of_closeOpen h₁ (by decide) k
    have hdropped : e.ticked.openCount k ≤ SimulatedEconomy.openCount { e with
        offers :=
          closeOpen (fun o => o.expiresTick ≤ e.tick + 1) .expired (e.tick + 1) e.offers } k :=
      openCount_le_of_closeOpen rfl (by decide) k
    exact (hdropped.trans (hexpired _ rfl)).trans (h.slots k)
  case quota =>
    intro k
    have hzero : e.ticked.countOf k = 0 := rfl
    rw [hzero]
    exact Nat.zero_le _

theorem ended (h : Board e) (hb : Book e) : Board e.endRun := by
  rw [endRun_eq hb.distinct]
  refine h.frame rfl rfl (List.nil_sublist _) le_rfl (fun _ => rfl) ?_
    (openCount_le_of_closeOpen rfl (by decide)) h.quota
  intro o ho hopened
  exact ((mem_closeOpen_opened (by decide)).mp ⟨ho, hopened⟩).1

theorem create (stations : List SimStation) (rules : Rules) (runId : String) :
    Board (SimulatedEconomy.create stations rules runId) where
  numbered a ha := by simp [SimulatedEconomy.create] at ha
  distinct := List.nodup_nil
  single := List.nodup_nil
  active a ha := by simp [SimulatedEconomy.create] at ha
  published a ha := by simp [SimulatedEconomy.create] at ha
  alive a ha := by simp [SimulatedEconomy.create] at ha
  offered o ho := by simp [SimulatedEconomy.create] at ho
  slots k := Nat.zero_le _
  quota k := Nat.zero_le _

end Board

namespace SimulatedEconomy

/-- The command passes the checks made before it is processed. -/
def admits (e : SimulatedEconomy) (stationId : String) (action : Action) : Bool :=
  match e.precheck stationId action with
  | .ok none => true
  | _ => false

/-- How many commands of a batch are processed, each in the state the one before left. -/
def admittedOf (e : SimulatedEconomy) (stationId : String) : List Action → Nat
  | [] => 0
  | action :: actions =>
    (if e.admits stationId action then 1 else 0) +
      match e.execute stationId action with
      | .ok (out, e) =>
        (if out.ok then e
            else { e with rejections := e.rejections ++ [(stationId, out.code)] }).admittedOf
          stationId actions
      | .error _ => 0

/-- How many commands of station `k` an operation processes. -/
def processedBy (e : SimulatedEconomy) (k : String) : Operation → Nat
  | .execute stationId action => if stationId = k then e.admittedOf stationId [action] else 0
  | .apply stationId actions => if stationId = k then e.admittedOf stationId actions else 0
  | .advanceTick => 0
  | .endRun => 0

/-- The economy next to a count, for each station, of the commands processed since
the last tick. -/
def Tallies (s : SimulatedEconomy × (String → Nat)) (l : Operation × List Processed)
    (t : SimulatedEconomy × (String → Nat)) : Prop :=
  Performs s.1 l t.1 ∧ t.2 = fun k => if l.1 = .advanceTick then 0
    else s.2 k + s.1.processedBy k l.1

variable {e e' : SimulatedEconomy} {stationId : String} {action : Action} {out : CommandOutcome}

theorem admits_iff : e.admits stationId action = true ↔ e.precheck stationId action = .ok none := by
  unfold admits
  split
  next h => simp [h]
  next h => simpa using h

theorem Executed.countOf_eq (h : Executed e stationId action out e') (k : String) :
    e'.countOf k = e.countOf k + if k = stationId then
  (if e.admits stationId action then 1 else 0) else 0 := by
  have admitted : ∀ {action s}, Admitted e stationId action s →
      (e.countCommand stationId).countOf k =
        e.countOf k + if k = stationId then
    (if e.admits stationId action then 1 else 0) else 0 := by
    intro action s hs
    rw [countOf_countCommand, admits_iff.mpr (precheck_eq_none_iff.mpr ⟨s, hs⟩), if_pos rfl]
  cases h with
  | refused hp =>
    have hno : e.admits stationId action = false := by simp [admits, hp]
    simp [hno]
  | failed hs | advertised hs | posted hs | adWithdrawn hs | offerWithdrawn hs | settled hs =>
    exact admitted hs

theorem applyActions_countOf {actions : List Action} {outs : List (Action × CommandOutcome)}
    (h : e.applyActions stationId actions = .ok (outs, e')) (k : String) :
    e'.countOf k = e.countOf k + if stationId = k then e.admittedOf stationId actions else 0 := by
  induction actions generalizing e outs with
  | nil =>
    obtain ⟨_, rfl⟩ := Prod.mk.inj (Except.ok.inj h)
    simp [admittedOf]
  | cons action actions ih =>
    obtain ⟨⟨out, m⟩, hx, h⟩ := bind_eq_ok_iff.mp h
    obtain ⟨⟨rest, u⟩, hr, h⟩ := bind_eq_ok_iff.mp h
    obtain ⟨_, rfl⟩ := Prod.mk.inj (Except.ok.inj h)
    have hfirst := (execute_executed hx).countOf_eq k
    have hrest := ih hr
    have hnoted : ∀ b : Bool, SimulatedEconomy.countOf (if b then m else
        { m with rejections := m.rejections ++ [(stationId, out.code)] }) k = m.countOf k := by
      intro b
      cases b <;> rfl
    simp only [admittedOf, hx]
    rw [hrest, hnoted, hfirst]
    by_cases hk : stationId = k
    · simp only [hk, if_true]
      omega
    · have hk' : k ≠ stationId := fun hne => hk hne.symm
      simp [hk, hk']

/-- A tick clears the counts; any other operation adds what it processes. -/
theorem perform_countOf (hb : Book e) {op : Operation} {outs : List Processed}
    (h : e.perform op = .ok (outs, e')) (k : String) :
    e'.countOf k = if op = .advanceTick then 0 else e.countOf k + e.processedBy k op := by
  cases perform_performed h with
  | @execute stationId action _ _ hx =>
    rw [(execute_executed hx).countOf_eq k]
    have hone : e.admittedOf stationId [action] = if e.admits stationId action then 1 else 0 := by
      simp [admittedOf, hx]
    by_cases hk : stationId = k
    · subst hk
      simp [processedBy, hone]
    · have hk' : k ≠ stationId := fun hne => hk hne.symm
      simp [processedBy, hk, hk']
  | apply hbatch => exact applyActions_countOf hbatch k
  | advanceTick hx =>
    rw [advanceTick_eq_ticked hb.distinct hx]
    rfl
  | endRun =>
    rw [endRun_eq hb.distinct]
    rfl

section Runs

variable {stations : List SimStation} {rules : Rules} {runId : String}
  {ls : List (Operation × List Processed)}

theorem run_board (run : Machine.Run Performs (create stations rules runId) ls e) :
    Book e ∧ Board e ∧ e.rules = rules := by
  refine operations_invariant (I := fun _ e => Book e ∧ Board e ∧ e.rules = rules) ?_ ?_ ?_ ?_ run
    ⟨Book.create .., Board.create .., rfl⟩
  · rintro _ e stationId action out e' ⟨hb, hd, hr⟩ hx
    refine ⟨hb.executed hx, hd.executed hb hx, ?_⟩
    rw [← hr]
    cases hx <;> rfl
  · rintro _ e worldVersion rejections ⟨hb, hd, hr⟩
    exact ⟨hb.frame rfl rfl rfl rfl le_rfl, hd.noted _ _, hr⟩
  · rintro _ e e' ⟨hb, hd, hr⟩ ha
    rw [advanceTick_eq_ticked hb.distinct ha]
    exact ⟨hb.ticked, hd.ticked hb, hr⟩
  · rintro _ e ⟨hb, hd, hr⟩
    refine ⟨hb.ended, hd.ended hb, ?_⟩
    rw [endRun_eq hb.distinct]
    exact hr

/-- Every run has its tallies, and they are what the economy counts. -/
theorem run_tallies {s : SimulatedEconomy × (String → Nat)}
    (run : Machine.Run Tallies (create stations rules runId, fun _ => 0) ls s) :
    Machine.Run Performs (create stations rules runId) ls s.1 ∧ s.2 = s.1.countOf := by
  refine run.invariant
    (I := fun ls s => Machine.Run Performs (create stations rules runId) ls s.1 ∧ s.2 = s.1.countOf)
    ⟨Machine.Run.start, rfl⟩ ?_
  rintro ls s ⟨op, outs⟩ t ⟨hrun, hcount⟩ ⟨hstep, htally⟩
  refine ⟨hrun.next hstep, ?_⟩
  funext k
  rw [htally, hcount, perform_countOf (run_board hrun).1 hstep k]

theorem tallied (run : Machine.Run Performs (create stations rules runId) ls e) :
    Machine.Run Tallies (create stations rules runId, fun _ => 0) ls (e, e.countOf) := by
  induction run with
  | start => exact Machine.Run.start
  | @next ls s l t hrun hstep ih =>
    refine ih.next ⟨hstep, ?_⟩
    funext k
    exact perform_countOf (run_board hrun).1 hstep k

/-- Over every run: the limits checked at posting time hold ever after. -/
theorem run_limits {processed : String → Nat}
    (run : Machine.Run Tallies (create stations rules runId, fun _ => 0) ls (e, processed)) :
    (∀ k, e.openCount k ≤ rules.maxOpenOutgoingOffers) ∧
      (∀ k, e.advertisements.countP (fun a => a.stationId = k) ≤ 1) ∧
      (∀ a ∈ e.advertisements, a.createdTick < a.expiresTick ∧
        a.expiresTick ≤ min (a.createdTick + rules.maxPublicationTtlTicks) rules.durationTicks ∧
        e.tick < a.expiresTick) ∧
      (∀ o ∈ e.offers, o.status = .opened → o.createdTick < o.expiresTick ∧
        o.expiresTick ≤ min (o.createdTick + rules.maxOfferTtlTicks) rules.durationTicks ∧
        e.tick < o.expiresTick) ∧
      (∀ k, processed k ≤ rules.newCommandsPerStationPerTick) := by
  obtain ⟨hrun, hcount⟩ := run_tallies run
  obtain ⟨_, hd, hr⟩ := run_board hrun
  subst hr
  refine ⟨hd.slots, ?_, ?_, ?_, ?_⟩
  · intro k
    have hone := List.nodup_iff_count_le_one.mp hd.single k
    rwa [List.count, List.countP_map] at hone
  · intro a ha
    have hterm := hd.published a ha
    exact ⟨hterm.future, hterm.within, hterm.pending⟩
  · intro o ho hopened
    have hterm := hd.offered o ho hopened
    exact ⟨hterm.future, hterm.within, hterm.pending⟩
  · intro k
    rw [show processed k = e.countOf k from congrFun hcount k]
    exact hd.quota k

theorem run_limits_trade :
    ∃ ls e processed, Machine.Run Tallies
      (create tradingPair defaultRules "sim", fun _ => 0) ls (e, processed) ∧
      processed "P01" = 1 ∧ e.openCount "P01" ≤ 6 ∧ processed "P01" ≤ 4 := by
  obtain ⟨⟨ls, e⟩, hall, hcount⟩ : ∃ r, (create tradingPair defaultRules "sim").performAll
      [.execute "P01" (.offer "P02" ⟨2, 0, 0⟩ ⟨0, 2, 0⟩ 5)] = .ok r ∧
        r.2.countOf "P01" = 1 := ⟨_, rfl, rfl⟩
  have run := tallied (run_of_performAll hall)
  obtain ⟨hslots, _, _, _, hquota⟩ := run_limits run
  exact ⟨ls, e, _, run, hcount, hslots "P01", hquota "P01"⟩

end Runs

end SimulatedEconomy

end SpaceportBazaar
