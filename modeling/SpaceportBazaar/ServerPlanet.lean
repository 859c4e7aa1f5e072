import SpaceportBazaar.ServerConnection
import SpaceportBazaar.ServerVersions

namespace SpaceportBazaar

open SimulatedEconomy

namespace SimulatedEconomy

variable {e e' : SimulatedEconomy} {stationId : String} {action : Action}
  {out : CommandOutcome} {o : Offer}

theorem ticked_opened (ho : o ∈ e.ticked.offers) (hopen : o.status = .opened) : o ∈ e.offers := by
  obtain ⟨ho, _, _⟩ := (mem_closeOpen_opened (by simp)).mp ⟨ho, hopen⟩
  exact ((mem_closeOpen_opened (by simp)).mp ⟨ho, hopen⟩).1

/-- A command opens no offer but the one it posts. -/
theorem Executed.opened (hb : Book e) (hx : Executed e stationId action out e') (ho : o ∈ e'.offers)
    (hopen : o.status = .opened) :
    o ∈ e.offers ∨ action = .offer o.recipientId o.give o.receive o.expiresTick ∧
      out = ⟨.ok, some o.offerId, none⟩ ∧
      o.proposerId = stationId ∧ o.createdVersion = e.worldVersion := by
  cases hx with
  | refused | failed | advertised | adWithdrawn => exact Or.inl ho
  | posted =>
    rcases List.mem_append.mp ho with ho | ho
    · exact Or.inl ho
    · cases List.mem_singleton.mp ho
      exact Or.inr ⟨rfl, rfl, rfl, rfl⟩
  | offerWithdrawn _ found _ opened =>
    have hmem : _ ∈ (e.countCommand stationId).offers := (findOffer_spec found).1
    have hdistinct : ((e.countCommand stationId).offers.map Offer.offerId).Nodup := hb.distinct
    rw [close_eq_closeOpen hdistinct hmem opened] at ho
    exact Or.inl ((mem_closeOpen_opened (by simp)).mp ⟨ho, hopen⟩).1
  | @settled offer _ _ _ _ =>
    obtain ⟨q, hq, rfl⟩ := List.mem_map.mp ho
    by_cases hid : q.offerId = offer.offerId
    · simp [hid, Offer.closed] at hopen
    · rw [if_pos hid]
      exact Or.inl hq

theorem applyProduction_offers (e : SimulatedEconomy) (production : Option (Nat → Nat → Nat)) :
    (e.applyProduction production).offers = e.offers := by
  cases production <;> rfl

end SimulatedEconomy

theorem EconomyMoves.opened {production : Option (Nat → Nat → Nat)} {e e' : SimulatedEconomy}
    {o : Offer} (hb : Book e) (h : EconomyMoves production e e') (ho : o ∈ e'.offers)
    (hopen : o.status = .opened) : o ∈ e.offers := by
  cases h with
  | same => exact ho
  | bumped => exact ho
  | ticked ha =>
    rw [applyProduction_offers, advanceTick_eq_ticked hb.distinct ha] at ho
    exact ticked_opened ho hopen
  | ended ha =>
    have hbook :=
      (Continues.ticked hb).trans (Continues.applyProduction (Continues.ticked hb).book production)
    rw [advanceTick_eq_ticked hb.distinct ha, endRun_eq hbook.book.distinct] at ho
    simp only [applyProduction_offers] at ho
    exact ticked_opened ((mem_closeOpen_opened (by simp)).mp ⟨ho, hopen⟩).1 hopen

namespace BazaarServer

variable {sha256 : List UInt8 → String} {s s' : BazaarServer} {p : String} {ev : Event}
  {outs : List Output}

/-- The offer a command has just opened, and the result that names it. -/
structure Opens (s s' : BazaarServer) (p : String) (body : CommandBody) (x : StoredResult)
    (o : Offer) : Prop where
  action : body.action = .offer o.recipientId o.give o.receive o.expiresTick
  ok : x.result.ok = true
  named : x.result.objectId = some o.offerId
  created : o.createdVersion = s.economy.worldVersion
  version : s.economy.worldVersion < s'.economy.worldVersion

/-- What one step means for the records and the open offers of a planet. -/
inductive PlanetEffect (sha256 : List UInt8 → String) (p : String) (s : BazaarServer) (ev : Event)
    (s' : BazaarServer) :
    Prop
  | kept (records : s'.results.get? p = s.results.get? p)
    (offers : ∀ o ∈ s'.economy.offers, o.proposerId = p → o.status = .opened → o ∈ s.economy.offers)
  | recorded {c : Nat} {requestId : String} {body : CommandBody} {x : StoredResult}
    {table : Dict String StoredResult}
    (serving : s.handlers.get? c = some ⟨p, .serving []⟩)
    (received :
    ev = .receive c (.binary (.message (.command protocolVersion s.economy.runId requestId body))))
    (was : s.results.get? p = some table) (new : table.get? requestId = none)
    (room : table.size < s.economy.rules.maxRequestRecordsPerStation)
    (records : s'.results.get? p = some (table.set requestId x))
    (fingerprint : x.fingerprint = fingerprintOf sha256 body)
    (keyed : x.result.requestId = requestId)
    (dated : x.result.processedVersion = s'.economy.worldVersion)
    (offers : ∀ o ∈ s'.economy.offers, o.proposerId = p → o.status = .opened →
      o ∈ s.economy.offers ∨ Opens s s' p body x o)

theorem processCommand_opened {c : Nat} {stationId requestId : String} {action : Action}
    {outcome : CommandOutcome} {economy : SimulatedEconomy} {o : Offer} (hb : Book s.economy)
    (h : s.processCommand c stationId requestId action = .ok (outs, outcome, economy))
    (ho : o ∈ economy.offers) (hopen : o.status = .opened) :
    o ∈ s.economy.offers ∨ action = .offer o.recipientId o.give o.receive o.expiresTick ∧
      outcome = ⟨.ok, some o.offerId, none⟩ ∧
      o.proposerId = stationId ∧ o.createdVersion = s.economy.worldVersion ∧
      s.economy.worldVersion < economy.worldVersion := by
  unfold processCommand at h
  split at h
  next =>
    cases Except.ok.inj h
    exact Or.inl ho
  next =>
    obtain ⟨⟨out, e⟩, hx, h⟩ := bind_eq_ok_iff.mp h
    simp only [pure, Except.pure, Except.ok.injEq, Prod.mk.injEq] at h
    obtain ⟨_, rfl, rfl⟩ := h
    have hx := execute_executed hx
    have hversion := hx.worldVersion
    have hmem : o ∈ e.offers := by
      split at ho
      next => exact ho
      next => exact ho
    rcases hx.opened hb hmem hopen with hold | ⟨haction, hout, hproposer, hcreated⟩
    · exact Or.inl hold
    · refine Or.inr ⟨haction, hout, hproposer, hcreated, ?_⟩
      rw [if_pos (by rw [hout])]
      show s.economy.worldVersion < e.worldVersion + 1
      omega

theorem step_planet (hb : Book s.economy) (h : Step sha256 s (ev, outs) s') (p : String) :
    PlanetEffect sha256 p s ev s' := by
  cases step_effect h with
  | calm hc =>
    exact .kept (by rw [hc.results]) (fun o ho _ hopen => hc.economy.opened hb ho hopen)
  | @commanded c stationId requestId body _ _ s₁ serving ready hcommand =>
    cases hcommand with
    | replayed => exact .kept rfl (fun o ho _ _ => ho)
    | conflicted => exact .kept rfl (fun o ho _ _ => ho)
    | full => exact .kept rfl (fun o ho _ _ => ho)
    | @recorded table outs outcome economy was new room processed =>
      by_cases hp : p = stationId
      · subst hp
        refine .recorded serving rfl was new room (Dict.get?_set_self _ _ _) rfl rfl rfl
          (fun o ho _ hopen => ?_)
        rcases processCommand_opened hb processed ho hopen with hold |
          ⟨haction, rfl, _, hcreated, hversion⟩
        · exact Or.inl hold
        · exact Or.inr ⟨haction, rfl, rfl, hcreated, hversion⟩
      · refine .kept (Dict.get?_set_of_ne _ _ hp) (fun o ho hproposer hopen => ?_)
        rcases processCommand_opened hb processed ho hopen with hold | ⟨_, _, hstation, _⟩
        · exact hold
        · exact absurd (hproposer.symm.trans hstation) hp

theorem step_continues (hb : Book s.economy) (h : Step sha256 s (ev, outs) s') :
    Continues s.economy s'.economy := by
  cases step_effect h with
  | calm hc => exact Continues.moves hb hc.economy
  | commanded _ _ hcommand =>
    cases hcommand with
    | replayed => exact Continues.refl hb
    | conflicted => exact Continues.refl hb
    | full => exact Continues.refl hb
    | recorded _ _ _ processed => exact processCommand_continues hb processed

end BazaarServer

end SpaceportBazaar
