import SpaceportBazaar.DecideServer
import SpaceportBazaar.Opponents

namespace SpaceportBazaar

open SimulatedEconomy

/-- A loop whose steps all succeed under an invariant of what is left of it succeeds. -/
theorem foldlM_invariant {ε α σ : Type} {f : σ → α → Except ε σ} {I : List α → σ → Prop}
    (step : ∀ x xs s, I (x :: xs) s → ∃ s', f s x = .ok s' ∧ I xs s') {xs : List α} {s : σ}
    (start : I xs s) :
    ∃ s', xs.foldlM f s = .ok s' ∧ I [] s' := by
  induction xs generalizing s with
  | nil => exact ⟨s, rfl, start⟩
  | cons x xs ih =>
    obtain ⟨m, hm, hnext⟩ := step x xs s start
    obtain ⟨s', hs', hend⟩ := ih hnext
    refine ⟨s', ?_, hend⟩
    rw [List.foldlM_cons, hm]
    exact hs'

namespace Snapshot

variable (view : Snapshot)

/-- A deadline the economy takes. -/
def InTime (ttl expiresTick : Nat) : Prop :=
  view.tick < expiresTick ∧ expiresTick ≤ view.tick + ttl ∧ expiresTick ≤ view.rules.durationTicks

/-- A command the economy takes whatever else its planet has done this tick. -/
def Proper : Action → Prop
  | .offer recipientId give _ expiresTick => give ≠ 0 ∧ recipientId ≠ view.selfStationId ∧
    (∃ entry ∈ view.directory, entry.stationId = recipientId) ∧
    view.InTime view.rules.maxOfferTtlTicks expiresTick
  | .advertise _ _ expiresTick => view.InTime view.rules.maxPublicationTtlTicks expiresTick
  | _ => False

/-- Accepts of offers in the view, and then commands that are always proper. -/
structure Suits (actions : List Action) : Prop where
  count : actions.length ≤ view.rules.newCommandsPerStationPerTick
  parts : ∃ (accepted : List Offer) (more : List Action),
    accepted.Sublist view.incomingOpenOffers ∧ (∀ action ∈ more, view.Proper action) ∧
    actions = accepted.map (fun o => .accept o.offerId) ++ more

end Snapshot

section Turns

variable {stationId : String} {e e' : SimulatedEconomy} {actions : List Action}

/-- What a planet is refused for though its command is in order. -/
def marketRefusals : List ResultCode := [.insufficientResources, .stationFailed, .limitReached]

/-- A turn under an invariant that answers each command in time, and that noting a refusal keeps. -/
theorem applyActions_refusals {I : List Action → SimulatedEconomy → Prop} (answers : ∀ action
      actions e, I (action :: actions) e → ∃ out e', e.execute stationId action = .ok (out, e') ∧
      (out.code = .ok ∨ out.code ∈ marketRefusals) ∧ I actions e')
    (noting : ∀ actions e rejections, I actions e → I actions { e with rejections := rejections })
    (start : I actions e) :
    ∃ outs e' refused, e.applyActions stationId actions = .ok (outs, e') ∧
      e'.rejections = e.rejections ++ refused ∧
      ∀ r ∈ refused, r.2 ∈ marketRefusals := by
  induction actions generalizing e with
  | nil => exact ⟨[], e, [], rfl, by simp, by simp⟩
  | cons action actions ih =>
    obtain ⟨out, m, hexecute, hcode, hnext⟩ := answers action actions e start
    have hsame : m.rejections = e.rejections := by
      cases execute_executed hexecute <;> rfl
    cases hok : out.ok with
    | true =>
      obtain ⟨outs, e', refused, hrest, hrejections, hall⟩ := ih hnext
      refine ⟨(action, out) :: outs, e', refused, ?_, by rw [hrejections, hsame], hall⟩
      unfold applyActions
      rw [hexecute]
      simp only [bind, Except.bind, hok, if_true, hrest]
      rfl
    | false =>
      obtain ⟨outs, e', refused, hrest, hrejections, hall⟩ :=
        ih (noting _ _ (m.rejections ++ [(stationId, out.code)]) hnext)
      have hrefused : out.code ∈ marketRefusals :=
        hcode.resolve_left fun h => by simp [CommandOutcome.ok, h] at hok
      refine ⟨(action, out) :: outs, e', (stationId, out.code) :: refused, ?_, ?_, ?_⟩
      · unfold applyActions
        rw [hexecute]
        simp only [bind, Except.bind, hok, Bool.false_eq_true, if_false, hrest]
        rfl
      · rw [hrejections, hsame, List.append_assoc]
        rfl
      · intro r hr
        rcases List.mem_cons.mp hr with rfl | hr
        · exact hrefused
        · exact hall r hr

/-- A planet on its turn: the accepts it has still to send, and the commands it has left. -/
structure Seated (view : Snapshot) (standing : List Offer) (left : Nat)
    (e : SimulatedEconomy) : Prop where
  book : Book e
  board : Board e
  clock : e.tick = view.tick
  rules : e.rules = view.rules
  running : view.tick < view.rules.durationTicks
  self : ∃ s, e.stations.get? view.selfStationId = some s ∧ s.failedOnce = false
  fellows : ∀ entry ∈ view.directory, entry.stationId ∈ e.stations.keys
  quota : e.countOf view.selfStationId + left ≤ view.rules.newCommandsPerStationPerTick
  open_ : ∀ o ∈ standing, o ∈ e.offers ∧ o.recipientId = view.selfStationId ∧ o.status = .opened
  distinct : standing.Nodup

variable {view : Snapshot} {standing : List Offer} {left : Nat} {action : Action}
  {out : CommandOutcome}

theorem Seated.noted (h : Seated view standing left e) (rejections : List (String × ResultCode)) :
    Seated view standing left { e with rejections := rejections } where
  book := h.book.frame rfl rfl rfl rfl le_rfl
  board := h.board.frame rfl rfl (List.Sublist.refl _) le_rfl (fun _ => rfl) (fun _ ho _ => ho)
    (fun _ => le_rfl) h.board.quota
  clock := h.clock
  rules := h.rules
  running := h.running
  self := h.self
  fellows := h.fellows
  quota := h.quota
  open_ := h.open_
  distinct := h.distinct

/-- A command takes no more of a turn than itself. -/
theorem Seated.next {later : List Offer}
    (h : Seated view standing (left + 1) e) (sub : later.Sublist standing)
    (spared : ∀ o ∈ later, action ≠ .accept o.offerId ∧ action ≠ .withdraw o.offerId)
    (hx : Executed e view.selfStationId action out e') : Seated view later left e' where
  book := h.book.executed hx
  board := h.board.executed h.book hx
  clock := (executed_tick hx).trans h.clock
  rules := hx.rules_eq.trans h.rules
  running := h.running
  self := by
    obtain ⟨s, hs, hstanding⟩ := h.self
    obtain ⟨s', hs', hsame, _⟩ := hx.stock h.book hs
    exact ⟨s', hs', hsame.trans hstanding⟩
  fellows := fun entry hentry => ((hx.kept h.book).keys _).mpr (h.fellows entry hentry)
  quota := by
    have hcount := hx.countOf view.selfStationId
    have hquota := h.quota
    rw [if_pos rfl] at hcount
    omega
  open_ := fun o ho => by
    obtain ⟨hmem, hto, hopen⟩ := h.open_ o (sub.subset ho)
    exact ⟨hx.keeps_offer hmem (spared o ho), hto, hopen⟩
  distinct := h.distinct.sublist sub

theorem Seated.admitted {s : SimStation}
    (h : Seated view standing (left + 1) e) (hs : e.stations.get? view.selfStationId = some s)
    (checked : e.precheckAction view.selfStationId s action = none) :
    Admitted e view.selfStationId action s := by
  obtain ⟨s', hs', hstanding⟩ := h.self
  cases hs.symm.trans hs'
  have hquota := h.quota
  refine ⟨hs, hstanding, ?_, ?_, checked⟩
  · rw [h.clock, h.rules]
    exact h.running
  · rw [h.rules]
    omega

theorem Seated.refused {s : SimStation} {code : ResultCode} (h : Seated view standing (left + 1) e)
    (hs : e.stations.get? view.selfStationId = some s)
    (checked : e.precheckAction view.selfStationId s action = some code) :
    e.execute view.selfStationId action = .ok (⟨code, none, none⟩, e) := by
  obtain ⟨s', hs', hstanding⟩ := h.self
  cases hs.symm.trans hs'
  have hquota := h.quota
  have hrunning := h.running
  have hrefused : e.precheck view.selfStationId action = .ok (some code) := by
    refine precheck_eq_ok_iff.mpr ⟨s, hs, ?_⟩
    rw [hstanding, if_neg Bool.false_ne_true, h.clock, h.rules, if_neg (by omega),
      if_neg (by omega), checked]
  unfold execute
  rw [hrefused]
  rfl

/-- An offer seen open is still there to accept. -/
theorem Seated.accepts {o : Offer} (h : Seated view (o :: standing) (left + 1) e) :
    ∃ out e', e.execute view.selfStationId (.accept o.offerId) = .ok (out, e') ∧
      (out.code = .ok ∨ out.code ∈ marketRefusals) ∧ Seated view standing left e' := by
  obtain ⟨s, hs, _⟩ := h.self
  have hadmitted : Admitted e view.selfStationId (.accept o.offerId) s := h.admitted hs rfl
  obtain ⟨hmem, hto, hopen⟩ := h.open_ o List.mem_cons_self
  obtain ⟨out, e', haccept, hcode⟩ :=
    (accept_answers (h.book.counted view.selfStationId) hmem).mpr ⟨hto, hopen⟩
  have hexecute : e.execute view.selfStationId (.accept o.offerId) = .ok (out, e') :=
    (execute_admitted hadmitted).trans haccept
  refine ⟨out, e', hexecute,
    ?_, h.next (List.sublist_cons_self _ _) (fun p hp => ⟨fun heq => ?_, by simp⟩)
    (execute_executed hexecute)⟩
  · rcases List.mem_pair.mp hcode with hok | hshort
    · exact Or.inl hok
    · exact Or.inr (by simp [hshort, marketRefusals])
  · obtain ⟨hpmem, _⟩ := h.open_ p (List.mem_cons_of_mem _ hp)
    cases h.book.same_id hmem hpmem (Action.accept.inj heq)
    exact (List.nodup_cons.mp h.distinct).1 hp

theorem precheckOffer_refusals {recipientId : String} {give : Bundle}
    {s r : SimStation} {code : ResultCode} (known : e.stations.get? recipientId = some r)
    (other : recipientId ≠ stationId) (gives : give ≠ 0)
    (h : e.precheckOffer stationId s recipientId give = some code) : code ∈ marketRefusals := by
  have hgives : give.isZero = false :=
    Bool.eq_false_iff.mpr fun hzero => gives (Bundle.isZero_iff.mp hzero)
  unfold precheckOffer at h
  simp only [known, other, hgives, decide_false, Bool.or_false, Bool.false_eq_true, if_false] at h
  split_ifs at h <;> cases h <;> simp [marketRefusals]

/-- A proper command is answered whatever came before it. -/
theorem Seated.proper (h : Seated view [] (left + 1) e) (proper : view.Proper action) :
    ∃ out e', e.execute view.selfStationId action = .ok (out, e') ∧
      (out.code = .ok ∨ out.code ∈ marketRefusals) ∧ Seated view [] left e' := by
  have answered : ∀ {out e'}, e.execute view.selfStationId action = .ok (out, e') →
      (out.code = .ok ∨ out.code ∈ marketRefusals) → ∃ out e',
      e.execute view.selfStationId action = .ok (out, e') ∧
        (out.code = .ok ∨ out.code ∈ marketRefusals) ∧ Seated view [] left e' :=
    fun hexecute hcode =>
    ⟨_, _, hexecute, hcode, h.next (List.Sublist.refl _) (by simp) (execute_executed hexecute)⟩
  have htime : ∀ {ttl expiresTick : Nat}, view.InTime ttl expiresTick →
      e.deadlineAllowed ttl expiresTick = true := by
    intro ttl expiresTick hallowed
    rw [deadlineAllowed_iff, h.clock, h.rules]
    exact hallowed
  obtain ⟨s, hs, _⟩ := h.self
  cases action with
  | accept offerId => exact proper.elim
  | withdraw objectId => exact proper.elim
  | sync => exact proper.elim
  | advertise selling seeking expiresTick =>
    have hallowed := htime proper
    rw [← h.rules] at hallowed
    have hchecked :
        e.precheckAction view.selfStationId s (.advertise selling seeking expiresTick) = none := by
      rw [precheckAction, hallowed]
      rfl
    exact answered (execute_admitted (h.admitted hs hchecked)) (Or.inl rfl)
  | offer recipientId give receive expiresTick =>
    obtain ⟨hgive, hother, ⟨entry, hentry, rfl⟩, hterm⟩ := proper
    have hallowed := htime hterm
    rw [← h.rules] at hallowed
    obtain ⟨r, hr⟩ := Dict.mem_keys_iff.mp (h.fellows entry hentry)
    have hchecked :
        e.precheckAction view.selfStationId s (.offer entry.stationId give receive expiresTick) =
        e.precheckOffer view.selfStationId s entry.stationId give := by
      rw [precheckAction, hallowed]
      rfl
    cases hoffer : e.precheckOffer view.selfStationId s entry.stationId give with
    | none => exact answered (execute_admitted (h.admitted hs (hchecked.trans hoffer))) (Or.inl rfl)
    | some code =>
      exact answered (h.refused hs (hchecked.trans hoffer))
        (Or.inr (precheckOffer_refusals hr hother hgive hoffer))

/-- The actions a seated planet still has to send. -/
inductive Sends (view : Snapshot) : List Action → SimulatedEconomy → Prop
  | mk {standing more e} :
    Seated view standing (standing.length + more.length) e → (∀ action ∈ more, view.Proper action) →
    Sends view (standing.map (fun o => .accept o.offerId) ++ more) e

/-- A turn that suits the view comes to its end, and only the market refuses any of it. -/
theorem Sends.turn (h : Sends view actions e) :
    ∃ outs e' refused, e.applyActions view.selfStationId actions = .ok (outs, e') ∧
      e'.rejections = e.rejections ++ refused ∧ ∀ r ∈ refused, r.2 ∈ marketRefusals := by
  refine applyActions_refusals (I := Sends view) ?_ ?_ h
  · intro action actions e h
    generalize hall : action :: actions = all at h
    obtain ⟨hseated, hproper⟩ := h
    rename_i standing more
    cases standing with
    | cons o standing =>
      obtain ⟨rfl, rfl⟩ := List.cons.inj hall
      rw [List.length_cons, Nat.add_right_comm] at hseated
      obtain ⟨out, e', hexecute, hcode, hnext⟩ := hseated.accepts
      exact ⟨out, e', hexecute, hcode, .mk hnext hproper⟩
    | nil =>
      obtain rfl : action :: actions = more := hall
      have hleft : Seated view [] (actions.length + 1) e := by simpa using hseated
      obtain ⟨out, e', hexecute, hcode, hnext⟩ := hleft.proper (hproper action List.mem_cons_self)
      refine ⟨out, e', hexecute, hcode, ?_⟩
      exact @Sends.mk view [] actions e' (by simpa using hnext) fun a ha =>
        hproper a (List.mem_cons_of_mem _ ha)
  · rintro actions e rejections ⟨hseated, hproper⟩
    exact .mk (hseated.noted rejections) hproper

end Turns

namespace Opponents

/-- Rules that leave room for what the stand-ins send. -/
structure Roomy (rules : Rules) : Prop where
  commands : 3 ≤ rules.newCommandsPerStationPerTick
  offerTerm : 5 ≤ rules.maxOfferTtlTicks
  noticeTerm : 8 ≤ rules.maxPublicationTtlTicks

/-- A view on which a stand-in sends only what the economy takes. -/
structure Playable (view : Snapshot) : Prop where
  running : view.tick < view.rules.durationTicks
  roomy : Roomy view.rules
  fellows : othersOf view ≠ []

variable {view : Snapshot}

theorem expiry_inTime {ttl limit : Nat} (running : view.tick < view.rules.durationTicks)
    (positive : 0 < ttl) (within : ttl ≤ limit) : view.InTime limit (expiry view ttl) := by
  unfold Snapshot.InTime expiry
  omega

theorem othersOf_mem {stationId : String} (h : stationId ∈ othersOf view) :
    stationId ≠ view.selfStationId ∧ ∃ entry ∈ view.directory, entry.stationId = stationId := by
  obtain ⟨hmem, hother⟩ := List.mem_filter.mp h
  exact ⟨by simpa using hother, List.mem_map.mp hmem⟩

/-- The accepts are of some of the offers, in their order, and no more than the limit allows. -/
theorem acceptFrom_accepted {onlySpecialty : Bool} {limit : Nat} {offers : List Offer}
    {accepts : List Action} {inventory : Bundle} (room : accepts.length < limit) :
    ∃ accepted : List Offer, acceptFrom view onlySpecialty limit offers accepts inventory =
        .ok (accepts ++ accepted.map (fun o => .accept o.offerId)) ∧
      accepted.Sublist offers ∧ accepts.length + accepted.length ≤ limit := by
  induction offers generalizing accepts inventory with
  | nil => exact ⟨[], by simp [acceptFrom], List.nil_sublist _, room.le⟩
  | cons offer offers ih =>
    have hpassed :
        ∃ accepted : List Offer, acceptFrom view onlySpecialty limit offers accepts inventory =
        .ok (accepts ++ accepted.map (fun o => .accept o.offerId)) ∧
        accepted.Sublist (offer :: offers) ∧ accepts.length + accepted.length ≤ limit := by
      obtain ⟨accepted, haccepted, hsub, hlimit⟩ := @ih accepts inventory room
      exact ⟨accepted, haccepted, hsub.cons _, hlimit⟩
    unfold acceptFrom
    simp only
    split
    next => exact hpassed
    next hworth =>
      split
      next => exact hpassed
      next =>
        have hpays : offer.receive ≤ inventory := by
          rw [← Bundle.dominates_iff]
          simp only [Bool.or_eq_true, decide_eq_true_eq, Bool.not_eq_true', not_or,
            Bool.not_eq_false] at hworth
          exact hworth.2
        rw [Bundle.sub_ok hpays]
        simp only [bind, Except.bind, List.length_append, List.length_singleton]
        split
        next hfull => exact ⟨[offer], rfl, by simp, Nat.succ_le_of_lt room⟩
        next hroom =>
          obtain ⟨accepted, haccepted, hsub, hlimit⟩ :=
            @ih (accepts ++ [.accept offer.offerId]) (inventory.saturatingSub offer.receive)
            (by simpa using hroom)
          refine ⟨offer :: accepted, by rw [haccepted]; simp, hsub.cons_cons _, ?_⟩
          simp only [List.length_append, List.length_cons, List.length_nil] at hlimit ⊢
          omega

theorem acceptIfNotWorse_suits (playable : Playable view) (onlySpecialty : Bool) :
    ∃ actions, acceptIfNotWorse view onlySpecialty = .ok actions ∧ view.Suits actions ∧
    actions.length ≤ 2 := by
  obtain ⟨accepted, haccepted, hsub, hlimit⟩ :=
    @acceptFrom_accepted view onlySpecialty 2 view.incomingOpenOffers []
    view.me.inventory Nat.zero_lt_two
  have hcommands := playable.roomy.commands
  rw [List.length_nil, Nat.zero_add] at hlimit
  refine ⟨_, haccepted, ⟨?_, accepted, [], hsub, by simp, by simp⟩, ?_⟩
  · rw [List.nil_append, List.length_map]
    omega
  · rw [List.nil_append, List.length_map]
    exact hlimit

theorem suits_more {actions : List Action} {action : Action} (h : view.Suits actions)
    (room : actions.length < view.rules.newCommandsPerStationPerTick)
    (proper : view.Proper action) :
    view.Suits (actions ++ [action]) := by
  obtain ⟨accepted, more, hsub, hproper, rfl⟩ := h.parts
  refine ⟨?_, accepted, more ++ [action], hsub, fun a ha => ?_, by rw [List.append_assoc]⟩
  · rw [List.length_append, List.length_singleton]
    exact room
  · rcases List.mem_append.mp ha with ha | ha
    · exact hproper a ha
    · cases List.mem_singleton.mp ha
      exact proper

theorem nextChoice_mem {position : Nat} {choices : List String} (h : choices ≠ []) :
    ∃ choice, nextChoice position choices = .ok (choice, position + 1) ∧ choice ∈ choices := by
  unfold nextChoice
  rw [dif_neg h]
  exact ⟨_, rfl, List.get_mem _ _⟩

/-- An offer of some of the specialty to the next planet is proper. -/
theorem offer_proper {recipientId : String} {give : Nat} {receive : Bundle}
    {ttl : Nat} (playable : Playable view) (other : recipientId ∈ othersOf view) (gives : 0 < give)
    (positive : 0 < ttl) (within : ttl ≤ 5) :
    view.Proper (.offer recipientId (.only view.me.specialty give) receive (expiry view ttl)) :=
  ⟨Bundle.only_ne_zero gives, (othersOf_mem other).1, (othersOf_mem other).2,
    expiry_inTime playable.running positive (within.trans playable.roomy.offerTerm)⟩

theorem offerTo_suits {give take : Nat} {want : Resource}
    {ttl : Nat} {turn : Turn} (playable : Playable view) (h : view.Suits turn.actions)
    (room : turn.actions.length < view.rules.newCommandsPerStationPerTick)
    (gives : 0 < give) (positive : 0 < ttl) (within : ttl ≤ 5) :
    ∃ turn', offerTo view give want take ttl turn = .ok turn' ∧ view.Suits turn'.actions := by
  obtain ⟨recipientId, hchoice, hother⟩ := @nextChoice_mem turn.position _ playable.fellows
  unfold offerTo
  rw [hchoice, Bundle.single_ok, Bundle.single_ok]
  exact ⟨_, rfl, suits_more h room (offer_proper playable hother gives positive within)⟩

theorem greedyOffer_suits {want : Resource} {turn : Turn} (playable : Playable view)
    (h : view.Suits turn.actions) :
    ∃ turn', greedyOffer view want turn = .ok turn' ∧ view.Suits turn'.actions := by
  unfold greedyOffer
  split
  next => exact ⟨turn, rfl, h⟩
  next hroom =>
    simp only [Bool.or_eq_true, decide_eq_true_eq, not_or, Nat.not_le] at hroom
    exact @offerTo_suits view 2 4 want 5 turn playable h hroom.1 (by omega) (by omega) le_rfl

theorem greedyWants_suits {turn : Turn} (playable : Playable view) (h : view.Suits turn.actions) :
    ∃ turn', (importsOf view).foldlM (greedyWant view) turn = .ok turn' ∧
    view.Suits turn'.actions := by
  refine foldlM_invariant (I := fun _ (turn : Turn) => view.Suits turn.actions) ?_ h
  intro want _ turn h
  unfold greedyWant
  split
  next => exact ⟨turn, rfl, h⟩
  next =>
    obtain ⟨once, honce, hsuits⟩ := @greedyOffer_suits view want turn playable h
    rw [honce]
    exact greedyOffer_suits playable hsuits

theorem greedy_suits (playable : Playable view) (position : Nat) :
    ∃ actions position', greedy view position = .ok (actions, position') ∧ view.Suits actions := by
  obtain ⟨accepts, haccepts, hsuits, _⟩ := acceptIfNotWorse_suits playable false
  obtain ⟨turn, hturn, hend⟩ :=
    @greedyWants_suits view ⟨accepts, view.me.inventory.get view.me.specialty, position⟩
    playable hsuits
  refine ⟨turn.actions, turn.position, ?_, hend⟩
  unfold greedy
  rw [haccepts]
  simp only [bind, Except.bind, Except.mapError, hturn]
  rfl

theorem smallFairWants_suits {size : Nat} {target : Int} {turn : Turn} (playable : Playable view)
    (sized : 0 < size) (h : view.Suits turn.actions) :
    ∃ turn', (importsOf view).foldlM (smallFairWant size target view) turn = .ok turn' ∧
    view.Suits turn'.actions := by
  refine foldlM_invariant (I := fun _ (turn : Turn) => view.Suits turn.actions) ?_ h
  intro want _ turn h
  unfold smallFairWant
  split
  next => exact ⟨turn, rfl, h⟩
  next =>
    split
    next => exact ⟨turn, rfl, h⟩
    next hroom => exact offerTo_suits playable h (by omega) sized (by omega) (by omega)

theorem smallFair_suits {size target : Int} {quitAt : Option Nat} (playable : Playable view)
    (sized : 0 < size) (position : Nat) :
    ∃ actions position', smallFair size target quitAt view
      position = .ok (actions, position') ∧ view.Suits actions := by
  unfold smallFair
  split
  next => exact ⟨[], position, rfl, Nat.zero_le _, [], [], List.nil_sublist _, by simp, rfl⟩
  next =>
    obtain ⟨accepts, haccepts, haccepted, hlength⟩ := acceptIfNotWorse_suits playable true
    have hcommands := playable.roomy.commands
    obtain ⟨units, rfl⟩ := Int.eq_ofNat_of_zero_le sized.le
    rw [haccepts]
    simp only [bind, Except.bind, Except.mapError]
    generalize hactions : (if view.tick % 5 = 0 then
      accepts ++ [Action.advertise
        {view.me.specialty} (importsOf view).toFinset (expiry view 8)] else accepts) = actions
    have hstart : view.Suits actions := by
      subst hactions
      split
      next => exact suits_more haccepted (by omega) (expiry_inTime playable.running
        (by omega) playable.roomy.noticeTerm)
      next => exact haccepted
    obtain ⟨turn, hturn, hend⟩ := @smallFairWants_suits view units target
      ⟨actions, (view.me.inventory.get view.me.specialty : Int) - 3, position⟩ playable
        (by omega) hstart
    exact ⟨turn.actions, turn.position, by rw [hturn]; rfl, hend⟩

theorem gifter_suits (playable : Playable view) (position : Nat) :
    ∃ actions position', gifter view position = .ok (actions, position') ∧ view.Suits actions := by
  obtain ⟨accepts, haccepts, hsuits, hlength⟩ := acceptIfNotWorse_suits playable false
  obtain ⟨recipientId, hchoice, hother⟩ := @nextChoice_mem position _ playable.fellows
  have hcommands := playable.roomy.commands
  unfold gifter
  rw [haccepts]
  simp only [bind, Except.bind, Except.mapError]
  split
  next =>
    have hgive : Bundle.single view.me.specialty 2 = .ok (.only view.me.specialty 2) :=
      Bundle.single_ok _ 2
    rw [hchoice, hgive]
    exact ⟨_, _, rfl, suits_more hsuits (by omega)
      (offer_proper playable hother (by omega) (by omega) (by omega))⟩
  next => exact ⟨accepts, position, rfl, hsuits⟩

end Opponents

end SpaceportBazaar
