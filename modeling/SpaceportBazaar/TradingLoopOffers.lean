import SpaceportBazaar.DecideBalance
import SpaceportBazaar.TradingLoopViews

namespace SpaceportBazaar

namespace RequestIdGenerator

variable {g : RequestIdGenerator} {n m : Nat}

/-- No command kind is longer than `advertise`. -/
theorem kindPart_length (action : Action) : (kindPart action.kind).length ≤ 9 := by
  cases action with
  | advertise | offer | accept | withdraw | sync => simp only [Action.kind]; decide

/-- The ids up to the counter fit without a cut. -/
def Roomy (g : RequestIdGenerator) : Prop := g.frame + 9 + (Nat.toDigits 10 g.counter).length ≤ 64

theorem Roomy.joined_length (h : g.Roomy) (action : Action) (hn : n ≤ g.counter) :
    (g.joined action.kind n).length ≤ 64 := by
  have hkind := kindPart_length action
  have hdigits := length_toDigits_mono hn
  rw [RequestIdGenerator.joined_length]
  unfold Roomy at h
  omega

/-- Ids of different commands differ while they fit. -/
theorem Roomy.cut_ne (h : g.Roomy) (action other : Action) (hlt : n < m) (hm : m ≤ g.counter) :
    g.cut action.kind n ≠ g.cut other.kind m := by
  intro hsame
  have hsame := String.ofList_injective hsame
  rw [List.take_of_length_le (h.joined_length action (hlt.le.trans hm)),
    List.take_of_length_le (h.joined_length other hm)] at hsame
  have hnumber := joined_number hsame
  omega

theorem Roomy.before (h : Roomy { g with counter := g.counter + 1 }) : g.Roomy := by
  have hdigits := length_toDigits_mono (Nat.le_add_right g.counter 1)
  have hframe : frame { g with counter := g.counter + 1 } = g.frame := rfl
  unfold Roomy at *
  simp only [hframe] at h
  omega

end RequestIdGenerator

namespace Trading

variable {w : Wiring} {t t' : Trading} {x : Execution} {out : Outputs}

/-- From one state to the other, holds only go. -/
def Releases (t t' : Trading) : Prop :=
  ∀ requestId hold, t'.executor.commitments.inflight.get? requestId = some hold →
    t.executor.commitments.inflight.get? requestId = some hold

theorem Releases.refl (t : Trading) : Releases t t := fun _ _ => id

theorem release_releases {e : Executor} {requestId other : String} {hold : Bundle}
    (h : (e.release requestId).commitments.inflight.get? other = some hold) :
    e.commitments.inflight.get? other = some hold := by
  simp only [Executor.release, CommitmentTracker.resolveInflight, Dict.get?_erase] at h
  split at h
  next => cases h
  next => exact h

theorem conclude_releases (t : Trading) (x : Execution) (outcome : BazaarSession.CommandOutcome) :
    Releases t (t.conclude x outcome).2 := fun _ _ h => release_releases h

theorem confirm_releases (t : Trading) (x : Execution) (outcome : BazaarSession.CommandOutcome)
    (result : CommandResult) (sequence : Nat) :
    Releases t (t.confirm x outcome result sequence).2 := by
  unfold confirm
  dsimp only
  split
  next => exact conclude_releases _ x outcome
  next => exact fun _ _ => id

theorem answered_releases (t : Trading) (x : Execution) (outcome : BazaarSession.CommandOutcome) :
    Releases t (t.answered x outcome).2 := by
  have hexecutor : Releases t { t with executor :=
      if outcome.ok then t.executor.recordOutcome x.action outcome
      else (t.executor.recordOutcome x.action outcome).release x.requestId } := by
    intro requestId hold h
    rw [← recordOutcome_commitments t.executor x.action outcome]
    dsimp only at h
    split at h
    next => exact h
    next => exact release_releases h
  unfold answered
  dsimp only
  split
  next => exact fun _ _ h => hexecutor _ _ (conclude_releases _ x outcome _ _ h)
  next result _ => exact fun _ _ h => hexecutor _ _ (confirm_releases _ x outcome result 1 _ _ h)

theorem resume_releases (t : Trading) (x : Execution)
    (reply : Except SessionError BazaarSession.Answer) :
    Releases t (t.resume x reply).2 := by
  cases reply with
  | error error =>
    cases error with
    | commandBlocked text => exact fun _ _ h => release_releases h
    | _ => exact fun _ _ => id
  | ok answer =>
    unfold resume
    dsimp only
    split
    next outcome _ => exact answered_releases t x outcome
    next outcome result snapshot _ =>
      split
      next => exact conclude_releases t x outcome
      next => exact confirm_releases t x outcome result _
    next => exact .refl t

theorem proceed_releases (t : Trading) (outs : List SessionOutput) :
    Releases t (t.proceed outs).2 := by
  unfold proceed
  split
  next => exact .refl t
  next x _ =>
    split
    next => exact .refl t
    next reply _ => exact resume_releases t x reply

theorem turn_releases {event : Link.Event} (hs : Step w t (.link event, out) t') :
    Releases t t' := by
  obtain ⟨_, l', _, hproceed⟩ := turn_cases hs
  have hreleases := proceed_releases { t with link := l' } out.1.2
  rw [hproceed] at hreleases
  exact hreleases

/-- An `execute` call holds stock under its own id, if at all. -/
theorem execute_holds {action : Action} {requestId other : String} {hold : Bundle}
    (hs : t.execute w action requestId = some (out, t'))
    (h : t'.executor.commitments.inflight.get? other = some hold) :
    other = requestId ∨ t.executor.commitments.inflight.get? other = some hold := by
  unfold execute at hs
  split at hs
  next =>
    cases hs
    exact .inr h
  next runId _ =>
    split at hs
    next =>
      cases hs
      exact .inr h
    next message _ =>
      obtain ⟨⟨outs, l'⟩, _, heq⟩ := Option.map_eq_some_iff.mp hs
      cases heq
      have hregistered :=
        proceed_releases { link := l', executor := { t.executor.register action requestId with
        current :=
          some ⟨action, requestId, t.link.session.freshCall, .answer⟩ } } outs.2 other hold h
      cases action with
      | offer recipientId give receive expiresTick =>
        simp only [Executor.register, CommitmentTracker.registerInflight,
          Dict.get?_set] at hregistered
        split at hregistered
        next heq => exact .inl heq
        next => exact .inr hregistered
      | advertise | accept | withdraw | sync => exact .inr hregistered

end Trading

namespace Core

variable {w : Wiring} {c : LoopConfig} {core core' : Core} {label : Option Trading.Label}

/-- What is held is held under ids of commands before the counter. -/
def Numbered (core : Core) : Prop :=
  ∀ requestId hold, core.trading.executor.commitments.inflight.get? requestId = some hold →
    ∃ g action n, core.ids = some g ∧ n < g.counter ∧ requestId = g.cut (Action.kind action) n

def Roomy (core : Core) : Prop := ∀ g, core.ids = some g → g.Roomy

theorem micro_roomy (h : Micro w c core label core') (roomy : Roomy core') : Roomy core := by
  cases h with
  | turn | shared => exact roomy
  | execute =>
    rintro g hg
    obtain rfl := Option.some.inj hg
    exact (roomy _ rfl).before
  | named => exact fun g hg => by cases hg

theorem micro_numbered (h :
      Micro w c core label core') (numbered : Numbered core) : Numbered core' := by
  cases h with
  | turn step => exact fun requestId hold
    hheld => numbered requestId hold (Trading.turn_releases step requestId hold hheld)
  | @execute generator t action out t' step =>
    intro requestId hold hheld
    rcases Trading.execute_holds (Trading.execute_of_step step).2 hheld with rfl | hold
    · exact ⟨_, action, generator.counter, rfl, Nat.lt_succ_self _, rfl⟩
    · obtain ⟨g, other, n, hg, hn, hid⟩ := numbered _ _ hold
      obtain rfl := Option.some.inj hg
      exact ⟨_, other, n, rfl, Nat.lt_succ_of_lt hn, hid⟩
  | shared => exact numbered
  | named =>
    intro requestId hold hheld
    obtain ⟨g, _, _, hg, _⟩ := numbered requestId hold hheld
    cases hg

/-- The next id has nothing held under it. -/
theorem Numbered.fresh {g : RequestIdGenerator} (h : Numbered core) (ids : core.ids = some g)
    (roomy : g.Roomy) (action : Action) :
    core.trading.executor.commitments.inflight.get? (g.cut action.kind g.counter) = none := by
  by_contra hheld
  obtain ⟨hold, hheld⟩ := Option.ne_none_iff_exists'.mp hheld
  obtain ⟨g', other, n, hg, hn, hid⟩ := h _ hold hheld
  obtain rfl := Option.some.inj (ids.symm.trans hg)
  exact roomy.cut_ne other action hn le_rfl hid.symm

/-- Every open offer is counted, as long as ids fit. -/
theorem micro_ledger (h : Micro w c core label core') (faithful : w.Faithful)
    (numbered : Numbered core) (roomy : Roomy core) (ledger : Trading.Ledger w core.trading) :
    Trading.Ledger w core'.trading := by
  cases h with
  | turn step =>
    exact Trading.step_ledger ledger faithful (fun _ _ _ _ _ hevent => by cases hevent) step
  | @execute generator t action out t' step =>
    refine Trading.step_ledger ledger faithful ?_ step
    intro action' requestId runId message hold hevent _ _ hhold
    cases hevent
    cases hhold.symm.trans (numbered.fresh rfl (roomy generator rfl) action)
  | shared model => exact ⟨ledger.backs, ledger.awaits⟩
  | named => exact ledger

end Core

namespace TradingLoop

variable {w : Wiring} {c : LoopConfig} {t t' : TradingLoop} {ds : List Nat} {label : Label}

/-- Ids only come to be used up. -/
theorem step_roomy (paired : Paired t) (hs : Step w c t label t') (roomy : Core.Roomy t'.core) :
    Core.Roomy t.core :=
  ((step_unfolds w c).step_keeps paired hs (P := fun core => Core.Roomy core → Core.Roomy t.core) id
    (fun _ _ _ hback hm roomy => hback (Core.micro_roomy hm roomy))).2 roomy

/-- The loop's own account of its promises, as long as ids fit: what the server holds open is
counted, also against the state that a decision is being made on. -/
structure Solvent (w : Wiring) (ds : List Nat) (t : TradingLoop) : Prop where
  paced : Paced ds t
  numbered : Core.Numbered t.core
  ledger : Core.Roomy t.core → Trading.Ledger w t.trading
  dated : Core.Roomy t.core → ∀ sighting budget, t.stage = .deciding sighting budget →
    Link.Dated w t.trading.link t.trading.executor.commitments sighting.snapshot

theorem step_ledger (h : Solvent w ds t) (faithful : w.Faithful) (hs : Step w c t label t') :
    Core.Numbered t'.core ∧ (Core.Roomy t'.core → Trading.Ledger w t'.trading) := by
  refine ((step_unfolds w c).step_keeps h.paced.paired hs
    (P := fun core => Core.Numbered core ∧ (Core.Roomy core → Trading.Ledger w core.trading))
    ⟨h.numbered, h.ledger⟩ ?_).2
  rintro core m core' ⟨hnumbered, hledger⟩ hm
  refine ⟨Core.micro_numbered hm hnumbered, fun roomy => ?_⟩
  have hroomy := Core.micro_roomy hm roomy
  exact Core.micro_ledger hm faithful hnumbered hroomy (hledger hroomy)

theorem step_solvent (h : Solvent w ds t) (faithful : w.Faithful) (hs : Step w c t label t') :
    Solvent w (ds ++ (decidedSequence label).toList) t' := by
  obtain ⟨hnumbered, hledger⟩ := step_ledger h faithful hs
  refine ⟨step_paced h.paced hs, hnumbered, hledger, fun roomy sighting budget hstage => ?_⟩
  rcases step_arrives h.paced.paired h.paced.viewing h.paced.pace hs with
    harrives | ⟨_, _, hstays, event, out, hturn⟩
  · exact (hledger roomy).backs.dated (harrives.fresh sighting budget hstage)
  · -- the executor is idle: it holds what it held
    have hroomy := step_roomy h.paced.paired hs roomy
    have hdeciding : t.stage = .deciding sighting budget := hstays.symm.trans hstage
    have hidle := h.paced.paired.resting (by simp [hdeciding])
    obtain ⟨_, hexecutor⟩ := Trading.turn_idle hidle hturn
    obtain ⟨_, l', hlink, hproceed⟩ := Trading.turn_cases hturn
    rw [Trading.proceed_idle (t := { t.trading with link := l' }) hidle] at hproceed
    have hl' : t'.trading.link = l' := (congrArg (fun r => r.2.link) hproceed).symm
    rw [hexecutor, hl']
    exact (h.dated hroomy sighting budget hdeciding).step (h.ledger hroomy).backs faithful hlink

variable {config : Config} {throttle : CommandThrottle} {memory : PolicyMemory}
  {runId : Option String} {stats : TradingStats} {evidence : EvidenceLog} {hist : List Label}

theorem init_solvent (w : Wiring) :
    Solvent w [] (init config throttle memory runId stats evidence) where
  paced := init_paced
  numbered requestId hold hheld := by cases hheld
  ledger _ := ⟨Link.init_backs w config throttle, fun _ hx => by cases hx⟩
  dated _ sighting budget hstage := by cases hstage

theorem run_invariants (faithful : w.Faithful)
    (run : Machine.Run (Step w c) (init config throttle memory runId stats evidence) hist t) :
    Solvent w (decidedSequences hist) t := by
  refine run.invariant (I := fun hist t => Solvent w (decidedSequences hist) t) (init_solvent w) ?_
  intro hist t label t' h hs
  rw [decidedSequences_snoc]
  exact step_solvent h faithful hs

/-- What a decision of a registered strategy promises is stock it was told it may commit. -/
theorem strategies_promise (strategy : Strategy) (known : strategy ∈ Strategy.strategies)
    {snapshot : Snapshot} {memory memory' : PolicyMemory}
    {commitments : CommitmentTracker} {budget : Int} {decision : Decision}
    (h : strategy.decide snapshot memory commitments (some budget) = .ok (decision, memory')) :
    ∃ payments, List.Forall₂ (Promises snapshot) decision.actions payments ∧
      ∀ r, payments.sum.get r ≤ (commitments.availableToCommit snapshot).get r := by
  rcases List.mem_cons.mp known with rfl | known
  · obtain ⟨decision', memory₁, hist, stored, hdecide, _, _, _, hrecords, _⟩ :=
      decide_records snapshot memory commitments (some budget)
    have hsame :
      Policy.decide snapshot memory commitments (some budget) = .ok (decision, memory') := h
    cases hsame.symm.trans hdecide
    obtain ⟨account, run⟩ := hrecords.run
    refine ⟨hist.map Deed.payment, hrecords.promises, fun r => ?_⟩
    have hsum := congrArg (fun b => b.get r) (deeds_conserve run).1
    simp only [Bundle.get_add] at hsum
    omega
  · cases List.mem_singleton.mp known
    cases h
    exact ⟨[], .nil, fun r => by simp⟩

/-- The loop never promises stock twice: at every decision each open offer of ours stands in
the state decided on or is held, and what the decision promises comes on top of them all. -/
theorem run_solvent (faithful : w.Faithful) (known : c.strategy ∈ Strategy.strategies)
    (run : Machine.Run (Step w c) (init config throttle memory runId stats evidence) hist t)
    (roomy : Core.Roomy t.core) {snapshot : Snapshot} {decision : Decision}
    (hs : Step w c t label t') (decided : label.2.2 = some (snapshot, decision)) :
    (∀ o ∈ Link.openOffers w t.trading.link.server.economy, o ∈ snapshot.outgoingOpenOffers ∨
      ∃ hold ∈ t.trading.executor.commitments.inflight.values, o.give ≤ hold) ∧
    ∃ payments, List.Forall₂ (Promises snapshot) decision.actions payments ∧
      ∀ r, payments.sum.get r = 0 ∨
      ((Link.openOffers w t.trading.link.server.economy).map Offer.give).sum.get r +
        payments.sum.get r ≤
        snapshot.me.inventory.get r := by
  have hsolvent := run_invariants faithful run
  obtain ⟨sighting, budget, hstage, rfl, memory', hdecide⟩ := step_decided hs decided
  have hdated := hsolvent.dated roomy sighting budget hstage
  have hinformed := (hsolvent.ledger roomy).backs.informed
  refine ⟨fun o ho => ?_, ?_⟩
  · refine (hdated.counted hinformed ho).imp id ?_
    rintro ⟨requestId, _, hold, hhold, hle⟩
    exact ⟨hold, Dict.mem_values_iff.mpr ⟨requestId, hhold⟩, hle⟩
  · obtain ⟨payments, hpromises, hbound⟩ := strategies_promise c.strategy known hdecide
    refine ⟨payments, hpromises, fun r => ?_⟩
    have hpaid := hbound r
    have hopen := hdated.promised_le hinformed r
    rw [CommitmentTracker.availableToCommit_get] at hpaid
    omega

section Samples

noncomputable def offerWiring : Wiring where
  connection := 0
  stationId := "P01"
  sha256 := plainDigest
  bodyFingerprint := plainDigest
  parse := Trading.parseListed [.ready "2.0" "sim" true 1,
    .command "2.0" "sim" "run-advertise-P01-1" (.advertise [.water] [.food, .components] 8),
    .command "2.0" "sim" "run-offer-P01-2" (.offer "P02" ⟨4, 0, 0⟩ ⟨0, 4, 0⟩ 6)]

theorem offerWiring_faithful :
    offerWiring.Faithful := ⟨Trading.parseListed_serializeToString _, plainDigest_injective⟩

def serves (event : BazaarServer.Event) : Turn := .link (.server event)

/-- The other planet connects and advertises food for water. -/
def neighbour : List Turn :=
  [.connect 1 true "key-2", .resume 1, BazaarServer.hears 1 (.ready "2.0" "sim" true 1), .resume 1,
    BazaarServer.hears 1 (.command "2.0" "sim" "x1" (.advertise [.food] [.water] 8)),
    .resume 1].map serves

/-- Decided, sent, processed in the next tick, answered and confirmed. -/
def round (call : Nat) (downs : Nat) : List Turn :=
  [.decided, serves (.resume 0),
    .link (.session (.payloadSent call true)), .link .up, serves .advance, serves (.resume 0)] ++
    List.replicate downs (.link .down) ++ [.link (.session (.resume call))]

/-- The loop advertises, then offers four units of water, and is about to decide again. -/
def offered : List Turn :=
  untilDeciding ++ neighbour ++ [.decided, .link (.session (.payloadSent 1 true)),
    .link .up, serves .advance, serves (.resume 0)] ++ List.replicate 4
    (.link .down) ++ [.link (.session (.resume 1))] ++ round 2 3

theorem run_solvent_offered :
    offerWiring.Faithful ∧ Strategy.reserveTrader ∈ Strategy.strategies ∧
    ∃ hist t label t' snapshot decision,
    Machine.Run (Step offerWiring (sampleLoop .reserveTrader)) start hist t ∧
      Step offerWiring (sampleLoop .reserveTrader) t label t' ∧
      label.2.2 = some (snapshot, decision) ∧
      (Link.openOffers offerWiring t.trading.link.server.economy).map Offer.give = [⟨4, 0, 0⟩] ∧
      decision.actions.map Action.gives = [some ⟨4, 0, 0⟩] ∧
      ∃ payments, List.Forall₂ (Promises snapshot) decision.actions payments ∧
        ∀ r, payments.sum.get r = 0 ∨
        ((Link.openOffers offerWiring t.trading.link.server.economy).map Offer.give).sum.get r +
          payments.sum.get r ≤
          snapshot.me.inventory.get r := by
  refine ⟨offerWiring_faithful, by simp [Strategy.strategies], ?_⟩
  have hall : (Machine.replay (step? offerWiring (sampleLoop .reserveTrader)) start
      (schedule offerWiring (sampleLoop .reserveTrader) start offered)).bind (fun r =>
        (step? offerWiring (sampleLoop .reserveTrader) r.2 .decided).bind
            (fun s => s.1.2.map (fun d =>
          ((Link.openOffers offerWiring r.2.trading.link.server.economy).map Offer.give,
            d.2.actions.map Action.gives, r.2.ids.map (fun g => (g.frame, g.counter)))))) =
      some ([⟨4, 0, 0⟩], [some ⟨4, 0, 0⟩], some (9, 3)) := by decide +kernel
  obtain ⟨⟨hist, t⟩, hreplay, hall⟩ := Option.bind_eq_some_iff.mp hall
  obtain ⟨⟨out, t'⟩, hstep, hall⟩ := Option.bind_eq_some_iff.mp hall
  obtain ⟨⟨snapshot, decision⟩, hdecided, hall⟩ := Option.map_eq_some_iff.mp hall
  simp only [Prod.mk.injEq] at hall
  obtain ⟨hopen, hgives, hids⟩ := hall
  have run := Machine.run_of_replay hreplay
  have hs : Step offerWiring (sampleLoop .reserveTrader) t (.decided, out) t' := hstep
  have roomy : Core.Roomy t.core := by
    intro g hg
    have hg : t.ids = some g := hg
    rw [hg] at hids
    obtain ⟨hframe, hcounter⟩ := Prod.mk.inj (Option.some.inj hids)
    unfold RequestIdGenerator.Roomy
    rw [hframe, hcounter]
    decide
  exact ⟨hist, t, _, t', snapshot, decision, run, hs, hdecided, hopen, hgives, (run_solvent
    offerWiring_faithful (by simp [sampleLoop, Strategy.strategies]) run roomy hs hdecided).2⟩

end Samples

end TradingLoop

end SpaceportBazaar
