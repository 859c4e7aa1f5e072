import SpaceportBazaar.ServerResults

namespace SpaceportBazaar

open SimulatedEconomy

/-- Production, the end of the run and version bumps leave the clock and the counts. -/
theorem SimulatedEconomy.applyProduction_clock (e : SimulatedEconomy)
    (production : Option (Nat → Nat → Nat)) :
    (e.applyProduction production).tick = e.tick ∧
      (e.applyProduction production).commandCounts = e.commandCounts := by
  cases production with
  | none => exact ⟨rfl, rfl⟩
  | some production => exact ⟨rfl, rfl⟩

/-- Between commands a planet's count stays, or a new tick sets it to zero. -/
theorem EconomyMoves.clock {production : Option (Nat → Nat → Nat)} {e e' : SimulatedEconomy}
    (hb : Book e) (h : EconomyMoves production e e') (p : String) :
    (e'.tick = e.tick ∧ e'.countOf p = e.countOf p) ∨ (e.tick < e'.tick ∧ e'.countOf p = 0) := by
  have hticked : e.ticked.tick = e.tick + 1 ∧ e.ticked.commandCounts = Dict.empty := ⟨rfl, rfl⟩
  cases h with
  | same => exact Or.inl ⟨rfl, rfl⟩
  | bumped => exact Or.inl ⟨rfl, rfl⟩
  | ticked ha =>
    rw [advanceTick_eq_ticked hb.distinct ha]
    obtain ⟨htick, hcounts⟩ := applyProduction_clock e.ticked production
    refine Or.inr ⟨by omega, ?_⟩
    simp [SimulatedEconomy.countOf, hcounts, hticked.2]
  | ended ha =>
    rw [advanceTick_eq_ticked hb.distinct ha]
    obtain ⟨htick, hcounts⟩ := applyProduction_clock e.ticked production
    rw [endRun_eq (Continues.applyProduction hb.ticked production).book.distinct]
    refine Or.inr ⟨?_, ?_⟩
    · show e.tick < (e.ticked.applyProduction production).tick
      omega
    · simp [SimulatedEconomy.countOf, hcounts, hticked.2]

namespace BazaarServer

variable {sha256 : List UInt8 → String} {s s' : BazaarServer} {ev : Event}
  {outs : List Output} {p : String}

/-- What one step means for the quota of a planet: nothing, a new tick, or one
command that had no record before. -/
inductive QuotaEffect (p : String) (s : BazaarServer) (ev : Event) (s' : BazaarServer) : Prop
  | kept (tick : s'.economy.tick = s.economy.tick)
    (count : s'.economy.countOf p ≤ s.economy.countOf p)
    (stored : ∀ rid, s'.storedFor p rid = s.storedFor p rid)
  | renewed (tick : s.economy.tick < s'.economy.tick) (count : s'.economy.countOf p = 0)
    (stored : ∀ rid, s'.storedFor p rid = s.storedFor p rid)
  | answered {c requestId body x}
    (received :
    ev = .receive c (.binary (.message (.command protocolVersion s.economy.runId requestId body))))
    (serving : s.handlers.get? c = some ⟨p, .serving []⟩) (new : s.storedFor p requestId = none)
    (tick : s'.economy.tick = s.economy.tick)
    (count : s'.economy.countOf p ≤ s.economy.countOf p + 1)
    (stored : ∀ rid, s'.storedFor p rid = if rid = requestId then some x else s.storedFor p rid)
    (limited : x.result.code = .rateLimited →
      s.economy.rules.newCommandsPerStationPerTick ≤ s.economy.countOf p)

/-- The engine counts a command against its own planet, and refuses it for its
number only when that planet's quota is used up. -/
theorem processCommand_quota {c : Nat} {stationId requestId : String} {action : Action}
    {outcome : CommandOutcome} {economy : SimulatedEconomy}
    (h : s.processCommand c stationId requestId action = .ok (outs, outcome, economy)) :
    economy.tick = s.economy.tick ∧
      (∀ p, economy.countOf p ≤ s.economy.countOf p + if p = stationId then 1 else 0) ∧
      (outcome.code = .rateLimited →
        s.economy.rules.newCommandsPerStationPerTick ≤ s.economy.countOf stationId) := by
  unfold processCommand at h
  split at h
  next =>
    cases Except.ok.inj h
    exact ⟨rfl, fun p => Nat.le_add_right _ _, by simp⟩
  next =>
    obtain ⟨⟨out, e⟩, hx, h⟩ := bind_eq_ok_iff.mp h
    simp only [pure, Except.pure, Except.ok.injEq, Prod.mk.injEq] at h
    obtain ⟨_, rfl, rfl⟩ := h
    have hexecuted := execute_executed hx
    have hframe : ∀ b : Bool, (if b then e.bumpVersion else e).tick = e.tick ∧
        ∀ p, (if b then e.bumpVersion else e).countOf p = e.countOf p := by
      intro b
      cases b with
      | true => exact ⟨rfl, fun _ => rfl⟩
      | false => exact ⟨rfl, fun _ => rfl⟩
    obtain ⟨htick, hcount⟩ := hframe (decide (out.code = .ok))
    simp only [decide_eq_true_eq] at htick hcount
    refine ⟨htick.trans (executed_tick hexecuted), ?_, hexecuted.rateLimited⟩
    intro p
    rw [hcount p]
    exact hexecuted.countOf p

theorem step_quota (hb : Book s.economy) (h : Step sha256 s (ev, outs) s') (p : String) :
    QuotaEffect p s ev s' := by
  cases step_effect h with
  | calm hc =>
    have hstored : ∀ rid, s'.storedFor p rid = s.storedFor p rid := by
      intro rid
      simp [storedFor, hc.results]
    rcases hc.economy.clock hb p with ⟨htick, hcount⟩ | ⟨htick, hcount⟩
    · exact .kept htick hcount.le hstored
    · exact .renewed htick hcount hstored
  | @commanded c stationId requestId body _ _ _ serving ready hcommand =>
    cases hcommand with
    | replayed => exact .kept rfl (Nat.le_refl _) (fun _ => rfl)
    | conflicted => exact .kept rfl (Nat.le_refl _) (fun _ => rfl)
    | full => exact .kept rfl (Nat.le_refl _) (fun _ => rfl)
    | @recorded stored outs outcome economy table new room processed =>
      obtain ⟨htick, hcount, hlimited⟩ := processCommand_quota processed
      have hstored := fun x rid =>
        @storedFor_record { s with economy := economy } stationId requestId p rid stored x table
      by_cases hp : p = stationId
      · subst hp
        have hcount : economy.countOf p ≤ s.economy.countOf p + 1 := by simpa using hcount p
        refine .answered (x :=
            ⟨fingerprintOf sha256 body, { s with economy := economy }.resultOf requestId outcome⟩)
          rfl serving (by simp [storedFor, table, new]) htick hcount
            (fun rid => (hstored _ rid).trans ?_) hlimited
        simp only [true_and]
        rfl
      · have hcount : economy.countOf p ≤ s.economy.countOf p := by simpa [hp] using hcount p
        refine .kept htick hcount (fun rid => (hstored _ rid).trans ?_)
        simp [hp, storedFor]

/-- The states sent in a step show what it leaves behind. -/
theorem step_current (h : Step sha256 s (ev, outs) s') : ∀ o ∈ outs, o.Shows s' := by
  intro o ho
  cases step_effect h with
  | calm hc => exact hc.current o ho
  | commanded serving ready hcommand =>
    cases hcommand with
    | replayed => cases List.mem_singleton.mp ho; trivial
    | conflicted => cases List.mem_singleton.mp ho; trivial
    | full => cases List.mem_singleton.mp ho; trivial
    | recorded table new room processed =>
      rcases List.mem_append.mp ho with ho | ho
      · rcases processCommand_cases processed with ⟨_, rfl, _⟩ | ⟨_, rfl, _⟩
        · simp at ho
        · cases List.mem_singleton.mp ho; trivial
      · cases List.mem_singleton.mp ho; trivial

end BazaarServer

end SpaceportBazaar
