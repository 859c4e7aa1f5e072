import SpaceportBazaar.ServerResults

namespace SpaceportBazaar

def Output.isFenceTo (o : Output) (c : Nat) : Bool :=
  match o with
  | .send _ d (.protocolError e) => d = c && e.code = .sessionFenced
  | _ => false

namespace BazaarServer

variable {sha256 : List UInt8 → String} {s s' : BazaarServer}

/-- The server has told connection `c` that another one takes its place. -/
def Fenced (hist : List (Event × List Output)) (c : Nat) : Prop :=
  ∃ p e, .send p c (.protocolError e) ∈ outputs hist ∧ e.code = .sessionFenced

/-- The handler of `c` is in its message loop for this planet. -/
def Served (s : BazaarServer) (c : Nat) (stationId : String) : Prop :=
  ∃ jobs, s.handlers.get? c = some ⟨stationId, .serving jobs⟩

/-- What one step does to the seats and the handlers. -/
inductive SeatEffect (s : BazaarServer) :
    Event → List Output → Dict String Nat → Dict Nat Handler → Prop
  | idle {ev outs} : SeatEffect s ev outs s.seats s.handlers
  | connected {ev outs c p} (new : s.handlers.get? c = none) :
    SeatEffect s ev outs s.seats (s.handlers.set c ⟨p, .arriving⟩)
  | moved {ev outs c p jobs stage} (was : s.handlers.get? c = some ⟨p, .serving jobs⟩)
    (stays : ∀ previous, stage ≠ .fencing previous ∧ stage ≠ .replacing previous) :
    SeatEffect s ev outs s.seats (s.handlers.set c ⟨p, stage⟩)
  | refused {ev outs c p} (was : s.handlers.get? c = some ⟨p, .refusing⟩) :
    SeatEffect s ev outs s.seats (s.handlers.set c ⟨p, .leaving⟩)
  | left {ev outs c p} :
    SeatEffect s ev outs (if s.seats.get? p = some c then s.seats.erase p else s.seats)
      (s.handlers.set c ⟨p, .finished⟩)
  | fenced {ev c p previous} (seat : s.seats.get? p = some previous) :
    SeatEffect s ev [.send p previous s.fence] s.seats (s.handlers.set c ⟨p, .fencing previous⟩)
  | closed {ev outs c p previous} (was : s.handlers.get? c = some ⟨p, .fencing previous⟩) :
    SeatEffect s ev outs s.seats (s.handlers.set c ⟨p, .replacing previous⟩)
  | opened {ev outs c p} (seat : s.seats.get? p = none) :
    SeatEffect s ev outs (s.seats.set p c) (s.handlers.set c ⟨p, .serving []⟩)
  | replaced {outs c p previous} (was : s.handlers.get? c = some ⟨p, .replacing previous⟩) :
    SeatEffect s (.resume c) outs (s.seats.set p c) (s.handlers.set c ⟨p, .serving []⟩)

theorem register_seats (s : BazaarServer) (c : Nat) (p : String) :
    (s.register c p).2.seats = s.seats.set p c ∧
    (s.register c p).2.handlers = s.handlers.set c ⟨p, .serving []⟩ := by
  obtain ⟨seatOf, hs⟩ := sendState_frame { s with
    seats := s.seats.set p c
    seatOf := s.seatOf.set c { stationId := p } } c
  simp only [register]
  rw [hs]
  exact ⟨rfl, rfl⟩

/-- A coroutine other than a handler leaves the seats, the handlers and the claims alone. -/
theorem runJob_frame (s : BazaarServer) (job : Job) : ∃ economy phase finished seatOf background,
    (s.runJob job).2.2 = { s with
      economy := economy, phase := phase, finished := finished, seatOf := seatOf,
      background := background } := by
  cases job with
  | sendState c =>
    obtain ⟨seatOf, hs⟩ := s.sendState_frame c
    exact ⟨_, _, _, _, _, hs⟩
  | maybeStart =>
    simp only [runJob, BazaarServer.maybeStart]
    split <;> exact ⟨_, _, _, _, _, rfl⟩
  | broadcast =>
    obtain ⟨seatOf, hs⟩ := s.broadcast_frame
    exact ⟨_, _, _, _, _, hs⟩
  | startRun =>
    simp only [runJob, BazaarServer.startRun]
    split
    next => exact ⟨_, _, _, _, _, rfl⟩
    next =>
      obtain ⟨seatOf, hs⟩ :=
        broadcast_frame { s with phase := .running, economy := s.economy.bumpVersion }
      exact ⟨_, _, _, _, _, hs⟩
  | setFinished => exact ⟨_, _, _, _, _, rfl⟩

theorem advance_frame (s : BazaarServer) : ∃ economy phase finished seatOf background,
    s.advance.2 = { s with
      economy := economy, phase := phase, finished := finished, seatOf := seatOf,
      background := background } := by
  unfold advance
  split
  next => exact ⟨_, _, _, _, _, rfl⟩
  next =>
    split
    next => exact ⟨_, _, _, _, _, rfl⟩
    next m _ =>
      simp only
      split
      next =>
        obtain ⟨seatOf, hs⟩ := broadcast_frame { s with
          economy := (m.applyProduction s.production).endRun, phase := .finished }
        rw [hs]
        exact ⟨_, _, _, _, _, rfl⟩
      next =>
        obtain ⟨seatOf, hs⟩ := broadcast_frame { s with economy := m.applyProduction s.production }
        rw [hs]
        exact ⟨_, _, _, _, _, rfl⟩

theorem runJob_seats (s : BazaarServer) (job : Job) :
    (s.runJob job).2.2.seats = s.seats ∧ (s.runJob job).2.2.handlers = s.handlers := by
  obtain ⟨economy, phase, finished, seatOf, background, hs⟩ := s.runJob_frame job
  rw [hs]
  exact ⟨rfl, rfl⟩

theorem advance_seats (s : BazaarServer) :
    s.advance.2.seats = s.seats ∧ s.advance.2.handlers = s.handlers := by
  obtain ⟨economy, phase, finished, seatOf, background, hs⟩ := s.advance_frame
  rw [hs]
  exact ⟨rfl, rfl⟩

theorem leave_seats (s : BazaarServer) (c : Nat) (p : String) :
    (s.leave c p).seats = (if s.seats.get? p = some c then s.seats.erase p else s.seats) ∧
    (s.leave c p).handlers = s.handlers.set c ⟨p, .finished⟩ := by
  unfold leave
  split
  next h => exact ⟨by simp [setStage], rfl⟩
  next h => exact ⟨by simp [setStage], rfl⟩

theorem command_seats {c : Nat}
    {p requestId fingerprint : String} {action : Action} {outs : List Output}
    {jobs : List Job} (h : s.command c p requestId action fingerprint = some (outs, jobs, s')) :
    s'.seats = s.seats ∧ s'.handlers = s.handlers := by
  cases command_commanded h with
  | replayed => exact ⟨rfl, rfl⟩
  | conflicted => exact ⟨rfl, rfl⟩
  | full => exact ⟨rfl, rfl⟩
  | recorded => exact ⟨rfl, rfl⟩

/-- A message moves the handler it reaches, or ends it, and touches no other. -/
theorem onMessage_seats (sha256 : List UInt8 → String) {c : Nat} {p : String} (payload : Payload)
    (ev : Event) (outs : List Output) (serving : s.handlers.get? c = some ⟨p, .serving []⟩) :
    SeatEffect s ev outs (s.onMessage sha256 c p payload).2.seats
      (s.onMessage sha256 c p payload).2.handlers := by
  have stay : ∀ jobs : List Job, ∀ previous, Stage.serving jobs ≠ .fencing previous ∧
      Stage.serving jobs ≠ .replacing previous := fun _ _ => ⟨by simp, by simp⟩
  unfold onMessage
  split
  next => exact .moved serving (stay _)
  next message _ =>
    split
    next => exact .moved serving (fun _ => ⟨by simp, by simp⟩)
    next =>
      split
      next => exact .moved serving (fun _ => ⟨by simp, by simp⟩)
      next =>
        split
        next => exact .moved serving (stay _)
        next =>
          obtain ⟨seatOf, hs⟩ := s.sendState_frame c
          simp only
          rw [hs]
          exact .moved serving (stay _)
        next =>
          split
          next => exact .moved serving (stay _)
          next =>
            split
            next =>
              rw [(leave_seats s c p).1, (leave_seats s c p).2]
              exact .left
            next outs' jobs s₁ hcommand =>
              obtain ⟨hseats, hhandlers⟩ := command_seats hcommand
              simp only [setStage]
              rw [hseats, hhandlers]
              exact .moved serving (stay _)

theorem step_seats {l : Event × List Output} (h : Step sha256 s l s') :
    SeatEffect s l.1 l.2 s'.seats s'.handlers := by
  obtain ⟨ev, outs⟩ := l
  cases step_enabled h with
  | rejected _ _ said same =>
    subst said same
    exact .idle
  | connected new _ silent moved =>
    subst silent moved
    exact .connected new
  | @received c p frame serving read =>
    cases frame with
    | text =>
      cases read
      exact .moved serving (fun _ => ⟨by simp, by simp⟩)
    | binary payload =>
      have hmessage := onMessage_seats sha256 payload (.receive c (.binary payload)) outs serving
      rwa [show s.onMessage sha256 c p payload = (outs, s') from read] at hmessage
  | @disconnected c p _ silent moved | @left c p _ silent moved =>
    subst silent moved
    rw [(leave_seats s c p).1, (leave_seats s c p).2]
    exact .left
  | @arrived c p _ arrives =>
    have hregister := register_seats s c p
    unfold arrive at arrives
    split at arrives
    next hseat =>
      rw [arrives] at hregister
      rw [show s'.seats = _ from hregister.1, show s'.handlers = _ from hregister.2]
      exact .opened hseat
    next previous hseat =>
      cases arrives
      exact .fenced hseat
  | closed was said moved =>
    subst said moved
    exact .closed was
  | @replaced c p _ was registers =>
    have hregister := register_seats s c p
    rw [registers] at hregister
    rw [show s'.seats = _ from hregister.1, show s'.handlers = _ from hregister.2]
    exact .replaced was
  | @worked c p job jobs was said moved =>
    subst said moved
    obtain ⟨hseats, hhandlers⟩ := runJob_seats s job
    change SeatEffect s (.resume c) _ (s.runJob job).2.2.seats ((s.runJob job).2.2.handlers.set c _)
    rw [hseats, hhandlers]
    exact .moved was (fun _ => ⟨by simp, by simp⟩)
  | refused was said moved =>
    subst said moved
    exact .refused was
  | @background i job _ _ said moved =>
    subst said moved
    obtain ⟨hseats, hhandlers⟩ := runJob_seats s job
    change SeatEffect s (.resumeTask i) _ (s.runJob job).2.2.seats (s.runJob job).2.2.handlers
    rw [hseats, hhandlers]
    exact .idle
  | advanced advances =>
    obtain ⟨hseats, hhandlers⟩ := advance_seats s
    rw [advances] at hseats hhandlers
    rw [show s'.seats = _ from hseats, show s'.handlers = _ from hhandlers]
    exact .idle

theorem Fenced.append {hist : List (Event × List Output)} {c : Nat} (h : Fenced hist c)
    (l : Event × List Output) : Fenced (hist ++ [l]) c := by
  obtain ⟨p, e, hm, hcode⟩ := h
  exact ⟨p, e, by rw [outputs_append]; exact List.mem_append_left _ hm, hcode⟩

/-- A message that would take its command to the engine: a ready connection of a
running world sends a request id its planet has no record of, and there is room. -/
def ReachesEngine (s : BazaarServer) : Event → Prop
  | .receive c (.binary (.message (.command version runId requestId _))) =>
    version = protocolVersion ∧ runId = s.economy.runId ∧ s.phase = .running ∧
    ((s.seatOf.get? c).map Seat.ready).getD false = true ∧
    ∃ p stored, s.handlers.get? c = some ⟨p, .serving []⟩ ∧ s.results.get? p = some stored ∧
      stored.get? requestId = none ∧ stored.size < s.economy.rules.maxRequestRecordsPerStation
  | _ => False

/-- No arrival registers over a seat other than the one it found and fenced, and
no command for the engine comes late from a fenced connection. -/
structure Orderly (hist : List (Event × List Output)) (s : BazaarServer)
    (l : Event × List Output) : Prop where
  registers : ∀ c p previous, l.1 = .resume c → s.handlers.get? c = some ⟨p, .replacing previous⟩ →
    s.seats.get? p = none ∨ s.seats.get? p = some previous
  late : ∀ c frame, l.1 = .receive c frame → Fenced hist c → ¬ ReachesEngine s l.1

/-- The invariant of the seats: who is served without holding the seat was fenced. -/
structure Seated (hist : List (Event × List Output)) (s : BazaarServer) : Prop where
  served : ∀ c p, Served s c p → s.seats.get? p = some c ∨ Fenced hist c
  warned : ∀ c p previous, s.handlers.get? c = some ⟨p, .fencing previous⟩ ∨
    s.handlers.get? c = some ⟨p, .replacing previous⟩ → Fenced hist previous

namespace Seated

variable {hist : List (Event × List Output)}

theorem init (c : Config) : Seated [] (BazaarServer.init c) where
  served c p h := by
    obtain ⟨jobs, h⟩ := h
    simp [BazaarServer.init] at h
  warned c p previous h := by simp [BazaarServer.init] at h

/-- A step that sets one handler keeps the invariant if what it does to that handler's seat, to
the other seats and to the warnings is in order. -/
theorem set {hist' : List (Event × List Output)} {c : Nat}
    {q : String} {stage : Stage} (h : Seated hist s) (later : ∀ d, Fenced hist d → Fenced hist' d)
    (hhandlers : s'.handlers = s.handlers.set c ⟨q, stage⟩)
    (mine : ∀ jobs, stage = .serving jobs → s'.seats.get? q = some c ∨ Fenced hist' c)
    (others : ∀ d p, d ≠ c → s.seats.get? p = some d → s'.seats.get? p = some d ∨ Fenced hist' d)
    (warns :
      ∀ previous, stage = .fencing previous ∨ stage = .replacing previous → Fenced hist' previous) :
    Seated hist' s' := by
  have hcases {d : Nat} {h' : Handler} (hd : s'.handlers.get? d = some h') :
      d = c ∧ h' = ⟨q, stage⟩ ∨ d ≠ c ∧ s.handlers.get? d = some h' :=
    Dict.get?_set_some (hhandlers ▸ hd)
  constructor
  · rintro d p ⟨jobs, hd⟩
    rcases hcases hd with ⟨rfl, he⟩ | ⟨hne, hold⟩
    · obtain ⟨rfl, hstage⟩ := Handler.mk.inj he
      exact mine jobs hstage.symm
    · rcases h.served d p ⟨jobs, hold⟩ with hseat | hf
      · exact others d p hne hseat
      · exact Or.inr (later d hf)
  · rintro d p previous (hd | hd) <;> rcases hcases hd with ⟨_, he⟩ | ⟨_, hold⟩
    · exact warns previous (Or.inl (Handler.mk.inj he).2.symm)
    · exact later previous (h.warned d p previous (Or.inl hold))
    · exact warns previous (Or.inr (Handler.mk.inj he).2.symm)
    · exact later previous (h.warned d p previous (Or.inr hold))

theorem step (h : Seated hist s) {l : Event × List Output} (orderly : Orderly hist s l)
    (hs : Step sha256 s l s') : Seated (hist ++ [l]) s' := by
  have later : ∀ c, Fenced hist c → Fenced (hist ++ [l]) c := fun c hf => hf.append l
  have heffect := step_seats hs
  obtain ⟨ev, outs⟩ := l
  generalize hseats : s'.seats = seats at heffect
  generalize hhandlers : s'.handlers = handlers at heffect
  have kept (same : seats = s.seats) : ∀ d p, s.seats.get? p = some d →
      s'.seats.get? p = some d ∨ Fenced (hist ++ [(ev, outs)]) d :=
    fun d p hseat => Or.inl (by rw [hseats, same, hseat])
  cases heffect with
  | idle =>
    constructor
    · rintro d p ⟨jobs, hd⟩
      rw [hseats]
      exact (h.served d p ⟨jobs, hhandlers ▸ hd⟩).imp id (later d)
    · intro d p previous hd
      exact later previous (h.warned d p previous (hhandlers ▸ hd))
  | @connected _ _ c q new =>
    exact h.set later hhandlers (by simp) (fun d p _ => kept rfl d p) (by simp)
  | @moved _ _ c q js stage was stays =>
    refine h.set later hhandlers (fun jobs _ => ?_) (fun d p _ => kept rfl d p)
      fun previous hstage => ?_
    · rw [hseats]
      exact (h.served c q ⟨js, was⟩).imp id (later c)
    · rcases hstage with hstage | hstage
      · exact absurd hstage (stays previous).1
      · exact absurd hstage (stays previous).2
  | @refused _ _ c q was =>
    exact h.set later hhandlers (by simp) (fun d p _ => kept rfl d p) (by simp)
  | @left _ _ c q =>
    refine h.set later hhandlers (by simp) (fun d p hne hseat => Or.inl ?_) (by simp)
    rw [hseats]
    split
    next hc =>
      -- the planet that is freed is not the one `d` sits on
      have hpq : p ≠ q := by
        rintro rfl
        exact hne (Option.some.inj (hseat.symm.trans hc))
      rw [Dict.get?_erase_of_ne _ hpq]
      exact hseat
    next => exact hseat
  | @fenced _ c q old seat =>
    have hfenced : Fenced (hist ++ [(ev, [.send q old s.fence])]) old :=
      ⟨q, _, by
        rw [outputs_append]; exact List.mem_append_right _ (List.mem_singleton.mpr rfl), rfl⟩
    refine h.set later hhandlers (by simp) (fun d p _ => kept rfl d p) fun previous hstage => ?_
    cases Stage.fencing.inj (hstage.resolve_right (by simp))
    exact hfenced
  | @closed _ _ c q old was =>
    refine h.set later hhandlers (by simp) (fun d p _ => kept rfl d p) fun previous hstage => ?_
    cases Stage.replacing.inj (hstage.resolve_left (by simp))
    exact later old (h.warned c q old (Or.inl was))
  | @opened _ _ c q seat =>
    refine h.set later hhandlers (fun _ _ => ?_) (fun d p _ hseat => Or.inl ?_) (by simp)
    · rw [hseats, Dict.get?_set_self]
      exact Or.inl rfl
    · have hpq : p ≠ q := by
        rintro rfl
        simp [seat] at hseat
      rw [hseats, Dict.get?_set_of_ne _ _ hpq]
      exact hseat
  | @replaced _ c q old was =>
    refine h.set later hhandlers (fun _ _ => ?_) (fun d p _ hseat => ?_) (by simp)
    · rw [hseats, Dict.get?_set_self]
      exact Or.inl rfl
    · by_cases hpq : p = q
      · subst hpq
        -- whoever sat there is the connection this arrival has fenced
        rcases orderly.registers c p old rfl was with hnone | hold
        · simp [hnone] at hseat
        · cases Option.some.inj (hold.symm.trans hseat)
          exact Or.inr (later _ (h.warned c p _ (Or.inr was)))
      · rw [hseats, Dict.get?_set_of_ne _ _ hpq]
        exact Or.inl hseat

end Seated

/-- An execution is the work of a served connection whose message reached the engine. -/
theorem step_executed {l : Event × List Output} {c : Nat} {p requestId : String} {action : Action}
    {outcome : CommandOutcome} (hs : Step sha256 s l s')
    (ho : Output.executed c p requestId action outcome ∈ l.2) :
    (∃ frame, l.1 = .receive c frame) ∧ ReachesEngine s l.1 ∧ Served s c p := by
  obtain ⟨ev, outs⟩ := l
  cases step_effect hs with
  | calm hc =>
    have := (hc.quiet _ ho).execution p requestId
    simp [Output.isExecution] at this
  | @commanded d q rid body outs' jobs s₁ serving ready hcommand =>
    cases hcommand with
    | replayed => simp at ho
    | conflicted => simp at ho
    | full => simp at ho
    | recorded table new room processed =>
      rcases List.mem_append.mp ho with ho | ho
      · rcases processCommand_cases processed with ⟨_, rfl, _⟩ | ⟨hphase, rfl, _⟩
        · simp at ho
        · obtain ⟨rfl, rfl, _⟩ := Output.executed.inj (List.mem_singleton.mp ho)
          exact ⟨⟨_, rfl⟩, ⟨rfl, rfl, hphase, ready, _, _, serving, table, new, room⟩, [], serving⟩
      · simp at ho

/-- In every orderly run commands are executed for registered connections only,
never for fenced ones, and two connections of a planet are served together only
when one of them has been fenced. -/
theorem run_seats {config : Config} {ls : List (Event × List Output)}
    (run : Machine.GuardedRun Orderly (Step sha256) (init config) ls s) :
    (∀ l s', Orderly ls s l → Step sha256 s l s' → ∀ c p requestId action outcome,
      Output.executed c p requestId action outcome ∈ l.2 →
      s.seats.get? p = some c ∧ ¬ Fenced ls c) ∧
    (∀ c d p, c ≠ d → Served s c p → Served s d p → Fenced ls c ∨ Fenced ls d) := by
  have h : Seated ls s :=
    run.invariant (Seated.init config) (fun _ _ _ _ h orderly hs => h.step orderly hs)
  constructor
  · intro l s' orderly hs c p requestId action outcome ho
    obtain ⟨⟨frame, hl⟩, hreaches, hserved⟩ := step_executed hs ho
    have hunfenced : ¬ Fenced ls c := fun hf => orderly.late c frame hl hf hreaches
    exact ⟨(h.served c p hserved).resolve_right hunfenced, hunfenced⟩
  · intro c d p hne hc hd
    by_contra hcontra
    obtain ⟨hcf, hdf⟩ := not_or.mp hcontra
    have hcs := (h.served c p hc).resolve_right hcf
    have hds := (h.served d p hd).resolve_right hdf
    exact hne (Option.some.inj (hcs.symm.trans hds))

theorem fenced_iff {hist : List (Event × List Output)} {c : Nat} :
    Fenced hist c ↔ (outputs hist).any (fun o => o.isFenceTo c) = true := by
  rw [List.any_eq_true]
  constructor
  · rintro ⟨p, e, hm, hcode⟩
    exact ⟨_, hm, by simp [Output.isFenceTo, hcode]⟩
  · rintro ⟨o, hm, ho⟩
    unfold Output.isFenceTo at ho
    split at ho
    next p d e =>
      simp only [Bool.and_eq_true, decide_eq_true_eq] at ho
      exact ⟨p, e, ho.1 ▸ hm, ho.2⟩
    next => simp at ho

def orderly? (hist : List (Event × List Output)) (s : BazaarServer)
    (l : Event × List Output) : Bool :=
  match l.1 with
  | .resume c =>
    match s.handlers.get? c with
    | some ⟨p, .replacing previous⟩ => s.seats.get? p = none || s.seats.get? p = some previous
    | _ => true
  | .receive c _ => !(outputs hist).any (fun o => o.isFenceTo c)
  | _ => true

theorem orderly_of_check (hist : List (Event × List Output)) (s : BazaarServer)
    (l : Event × List Output) (h : orderly? hist s l = true) : Orderly hist s l := by
  obtain ⟨ev, outs⟩ := l
  constructor
  · rintro c p previous rfl hstage
    simpa [orderly?, hstage] using h
  · rintro c frame rfl hf
    simp only [orderly?, fenced_iff.mp hf] at h
    simp at h

/-- The planet's second connection takes over from the first and trades. -/
def takeover : List Event :=
  opening ++ [.connect 1 true "key-1", .resume 1, .resume 1, .resume 1,
    hears 1 (.ready "2.0" "sim" true 1), .resume 1]

theorem run_seats_takeover :
    ∃ ls s, Machine.GuardedRun Orderly (Step plainDigest) (init pairConfig) ls s ∧ Fenced ls 0 ∧
      ∃ l s', Step plainDigest s l s' ∧
        Output.executed 1 "P01" "r1" (.accept "offer-9") ⟨.notFound, none, none⟩ ∈ l.2 ∧
        s.seats.get? "P01" = some 1 ∧ ¬ Fenced ls 1 := by
  have hall : ((Machine.replayGuarded (step? plainDigest) orderly? []
      (init pairConfig) takeover).bind (fun r =>
      (step? plainDigest r.2 (sendsCommand 1 "r1" (.accept "offer-9"))).map (fun f =>
        ((outputs r.1).any (fun o => o.isFenceTo 0),
          decide (Output.executed 1 "P01" "r1" (.accept "offer-9") ⟨.notFound, none, none⟩ ∈ f.1),
          orderly? r.1 r.2 (sendsCommand 1 "r1" (.accept "offer-9"), f.1))))) = some (true,
          true, true) := by
    decide +kernel
  obtain ⟨⟨ls, s⟩, hreplay, hall⟩ := Option.bind_eq_some_iff.mp hall
  obtain ⟨⟨outs, s'⟩, hstep, hall⟩ := Option.map_eq_some_iff.mp hall
  simp only [Prod.mk.injEq, decide_eq_true_eq] at hall
  have run := Machine.guardedRun_of_replay orderly_of_check Machine.GuardedRun.start hreplay
  have hlast := (run_seats run).1 _ s' (orderly_of_check _ _ _ hall.2.2) hstep 1 _ _ _ _ hall.2.1
  exact ⟨ls, s, run, fenced_iff.mpr hall.1, (sendsCommand 1 "r1" (.accept "offer-9"), outs), s',
    hstep, hall.2.1, hlast⟩

def arrives (c : Nat) : List Event := [.connect c true "key-1", .resume c]

/-- A command its peer sent before it saw the close is executed for a connection
that has been replaced, and of two arrivals that overlap neither is ever fenced. -/
theorem late_command_and_overlap :
    (∃ ls s s' outs, Machine.Run (Step plainDigest) (init pairConfig) ls s ∧
      s.seats.get? "P01" = some 1 ∧ Fenced ls 0 ∧
      Step plainDigest s (sendsCommand 0 "r1" (.accept "offer-9"), outs) s' ∧
      Output.executed 0 "P01" "r1" (.accept "offer-9") ⟨.notFound, none, none⟩ ∈ outs) ∧
    (∃ ls s, Machine.Run (Step plainDigest) (init pairConfig) ls s ∧
      Served s 1 "P01" ∧ Served s 2 "P01" ∧ ¬ Fenced ls 1 ∧ ¬ Fenced ls 2) := by
  constructor
  · have hall : ((Machine.replay (step? plainDigest) (init pairConfig)
        (opening ++ arrives 1 ++ [.resume 1, .resume 1])).bind (fun r =>
        (step? plainDigest r.2 (sendsCommand 0 "r1" (.accept "offer-9"))).map (fun f =>
          (r.2.seats.get? "P01", (outputs r.1).any (fun o => o.isFenceTo 0),
            decide (Output.executed 0 "P01" "r1" (.accept "offer-9")
            ⟨.notFound, none, none⟩ ∈ f.1))))) =
        some (some 1, true, true) := by decide +kernel
    obtain ⟨⟨ls, s⟩, hreplay, hall⟩ := Option.bind_eq_some_iff.mp hall
    obtain ⟨⟨outs, s'⟩, hstep, hall⟩ := Option.map_eq_some_iff.mp hall
    simp only [Prod.mk.injEq, decide_eq_true_eq] at hall
    exact ⟨ls, s, s', outs, Machine.run_of_replay hreplay, hall.1, fenced_iff.mpr hall.2.1,
      hstep, hall.2.2⟩
  · have hall : (Machine.replay (step? plainDigest) (init pairConfig)
        (opening ++ arrives 1 ++ arrives 2 ++ [.resume 1, .resume 2, .resume 1, .resume 2])).map
        (fun r =>
        (r.2.handlers.get? 1, r.2.handlers.get? 2, (outputs r.1).any (fun o => o.isFenceTo 1),
          (outputs r.1).any (fun o => o.isFenceTo 2))) =
        some (some ⟨"P01", .serving []⟩, some ⟨"P01", .serving []⟩, false,
        false) := by decide +kernel
    obtain ⟨⟨ls, s⟩, hreplay, hall⟩ := Option.map_eq_some_iff.mp hall
    simp only [Prod.mk.injEq] at hall
    obtain ⟨hone, htwo, hfone, hftwo⟩ := hall
    refine ⟨ls, s, Machine.run_of_replay hreplay, ⟨[], hone⟩, ⟨[], htwo⟩, ?_, ?_⟩
    · rw [fenced_iff, hfone]
      simp
    · rw [fenced_iff, hftwo]
      simp

end BazaarServer

end SpaceportBazaar
