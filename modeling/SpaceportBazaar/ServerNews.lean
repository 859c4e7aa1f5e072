import SpaceportBazaar.ServerPlanet

namespace SpaceportBazaar

namespace BazaarServer

variable {sha256 : List UInt8 → String} {s s' : BazaarServer} {c : Nat} {p requestId : String}
  {ev : Event} {outs : List Output} {r : CommandResult} {snapshot : Snapshot}

/-- The result is the one on record. -/
def Stored (s : BazaarServer) (p : String) (r : CommandResult) : Prop :=
  ∃ x, s.storedFor p r.requestId = some x ∧ x.result = r

/-- The planet's table takes no further records. -/
def Full (s : BazaarServer) (p : String) : Prop :=
  ∃ table, s.results.get? p = some table ∧ s.economy.rules.maxRequestRecordsPerStation ≤ table.size

/-- No command under this request id will ever be processed. -/
def Doomed (s : BazaarServer) (p requestId : String) : Prop :=
  s.storedFor p requestId = none ∧ s.Full p

/-- A state a planet was sent: what it shows of the planet's open offers goes by its
version, and so do the results in it. -/
structure Reflects (s : BazaarServer) (p : String) (snapshot : Snapshot) : Prop where
  runId : snapshot.runId = s.economy.runId
  self : snapshot.selfStationId = p
  tick : snapshot.tick ≤ s.economy.tick
  version : snapshot.worldVersion ≤ s.economy.worldVersion
  results : ∀ r ∈ snapshot.requestResults, s.Stored p r ∧ r.processedVersion ≤ snapshot.worldVersion
  offers : ∀ o ∈ s.economy.offers,
    o.proposerId = p → o.status = .opened → o.createdVersion < snapshot.worldVersion →
    o ∈ snapshot.offers

/-- What every message to the connection of a planet says. -/
def Tells (s : BazaarServer) (c : Nat) (p : String) : ServerEvent → Prop
  | .state snapshot => s.Reflects p snapshot
  | .result r => s.Stored p r
  | .protocolError error => ∀ requestId, error.requestId = some requestId → s.Doomed p requestId
  | .readiness ack => ack.ready = true → s.seatKey c = some (p, true)

/-- The server's own order: its book, its records and its seats. -/
structure InOrder (s : BazaarServer) : Prop where
  book : Book s.economy
  keyed : ∀ p requestId x, s.storedFor p requestId = some x → x.result.requestId = requestId
  dated : ∀ p requestId x, s.storedFor p requestId = some x →
    x.result.processedVersion ≤ s.economy.worldVersion
  enrolled : Enrolled s

theorem step_tick (hb : Book s.economy) (hs : Step sha256 s (ev, outs) s') :
    s.economy.tick ≤ s'.economy.tick := by
  cases step_quota hb hs "" with
  | kept tick => omega
  | renewed tick => omega
  | answered _ _ _ tick => omega

theorem step_inOrder (h : InOrder s) (hs : Step sha256 s (ev, outs) s') : InOrder s' := by
  have hversion := (step_ahead hs).version
  have records : ∀ p requestId x, s'.storedFor p requestId = some x →
      x.result.requestId = requestId ∧ x.result.processedVersion ≤ s'.economy.worldVersion := by
    intro p requestId x hx
    have old : s.storedFor p requestId = some x →
        x.result.requestId = requestId ∧ x.result.processedVersion ≤ s'.economy.worldVersion :=
      fun hx => ⟨h.keyed p requestId x hx, (h.dated p requestId x hx).trans hversion⟩
    cases step_planet h.book hs p with
    | kept records => exact old (by rwa [storedFor, ← records])
    | recorded _ _ was _ _ records _ keyed dated =>
      simp only [storedFor, records, Option.bind_some, Dict.get?_set] at hx
      split at hx
      next hid =>
        cases Option.some.inj hx
        exact ⟨keyed.trans hid.symm, dated.le⟩
      next => exact old (by simpa [storedFor, was] using hx)
  exact ⟨(step_continues h.book hs).book, fun p requestId x hx => (records p requestId x hx).1,
    fun p requestId x hx => (records p requestId x hx).2, step_enrolled h.enrolled hs⟩

theorem init_inOrder (config : Config) : InOrder (init config) where
  book := (Recorded.init config).book
  keyed p requestId x hx := by simp [init_storedFor] at hx
  dated p requestId x hx := by simp [init_storedFor] at hx
  enrolled := init_enrolled config

theorem step_stored (hs : Step sha256 s (ev, outs) s') (h : s.Stored p r) : s'.Stored p r := by
  obtain ⟨x, hx, hr⟩ := h
  exact ⟨x, step_storedFor hs hx, hr⟩

theorem step_full (h : InOrder s) (hs : Step sha256 s (ev, outs) s') (hfull : s.Full p) :
    s'.results.get? p = s.results.get? p ∧ s'.Full p := by
  obtain ⟨table, htable, hle⟩ := hfull
  have hrules := (step_continues h.book hs).rules
  cases step_planet h.book hs p with
  | kept records => exact ⟨records, table, records.trans htable, by rwa [hrules]⟩
  | recorded _ _ was _ room =>
    obtain rfl := Option.some.inj (htable.symm.trans was)
    omega

theorem step_doomed (h : InOrder s) (hs : Step sha256 s (ev, outs) s')
    (hdoomed : s.Doomed p requestId) :
    s'.Doomed p requestId := by
  obtain ⟨hrecords, hfull⟩ := step_full h hs hdoomed.2
  exact ⟨by rw [storedFor, hrecords]; exact hdoomed.1, hfull⟩

theorem step_reflects (h : InOrder s) (hs : Step sha256 s (ev, outs) s')
    (hr : s.Reflects p snapshot) :
    s'.Reflects p snapshot := by
  have hcont := step_continues h.book hs
  refine ⟨hr.runId.trans hcont.runId.symm, hr.self, hr.tick.trans (step_tick h.book hs),
    hr.version.trans (step_ahead hs).version, fun r hmem => ?_, fun o ho hown hopen hlt => ?_⟩
  · obtain ⟨hstored, hdated⟩ := hr.results r hmem
    exact ⟨step_stored hs hstored, hdated⟩
  · cases step_planet h.book hs p with
    | kept _ offers => exact hr.offers o (offers o ho hown hopen) hown hopen hlt
    | recorded _ _ _ _ _ _ _ _ _ offers =>
      rcases offers o ho hown hopen with hold | hopens
      · exact hr.offers o hold hown hopen hlt
      · have hversion := hr.version
        have hcreated := hopens.created
        omega

/-- What is on record is dated, so a state shows every offer its results name. -/
theorem snapshotFor_reflects (h : InOrder s) {seat : Seat} (hstation : seat.stationId = p)
    (hs : s.snapshotFor seat = .ok snapshot) : s.Reflects p snapshot := by
  obtain ⟨hresults, htick, _, hversion, _⟩ := snapshotFor_shown hs
  have hfields : snapshot.runId = s.economy.runId ∧ snapshot.selfStationId = seat.stationId ∧
      snapshot.offers = s.economy.offers.filter
      (fun o => seat.stationId = o.proposerId || seat.stationId = o.recipientId) := by
    simp only [snapshotFor, SimulatedEconomy.observationFor, SimulatedEconomy.nextSequence] at hs
    obtain ⟨outcome, _, hs⟩ := bind_eq_ok_iff.mp hs
    obtain ⟨⟨snap, e⟩, hview, hs⟩ := bind_eq_ok_iff.mp hs
    obtain ⟨me, _, hview⟩ := bind_eq_ok_iff.mp hview
    obtain ⟨rfl, _⟩ := Prod.mk.inj (Except.ok.inj hview)
    cases Except.ok.inj hs
    exact ⟨rfl, rfl, rfl⟩
  obtain ⟨hrun, hself, hoffers⟩ := hfields
  refine ⟨hrun, hself.trans hstation, htick.le, hversion.le, fun r hr =>
    ?_, fun o ho hown _ _ => ?_⟩
  · rw [hresults] at hr
    obtain ⟨x, hx, rfl⟩ := List.mem_map.mp hr
    cases htable : s.results.get? seat.stationId with
    | none => simp [htable] at hx
    | some table =>
      simp only [htable, Option.map_some, Option.getD_some] at hx
      obtain ⟨rid, hrid⟩ := Dict.mem_values_iff.mp hx
      have hstored : s.storedFor p rid = some x := by simp [storedFor, ← hstation, htable, hrid]
      refine ⟨⟨x, ?_, rfl⟩, ?_⟩
      · rw [h.keyed p rid x hstored]
        exact hstored
      · rw [hversion]
        exact h.dated p rid x hstored
  · rw [hoffers, hstation]
    exact List.mem_filter.mpr ⟨ho, by simp [hown]⟩

/-- What a client's connection delivers: its declaration, or commands that agree with
what is on record under their request ids. -/
def ClientSends (sha256 : List UInt8 → String) (s : BazaarServer) (c : Nat) (p : String)
    (message : ClientMessage) : Prop :=
  (∃ snapshotSequence, message = .ready protocolVersion s.economy.runId true snapshotSequence) ∨
    ∃ requestId body, message = .command protocolVersion s.economy.runId requestId body ∧
      s.seatKey c = some (p, true) ∧
      ∀ x, s.storedFor p requestId = some x → x.fingerprint = fingerprintOf sha256 body

/-- Every frame on the connection is one its client sends. -/
def FromClient (sha256 : List UInt8 → String) (s : BazaarServer) (c : Nat) (p : String)
    (ev : Event) : Prop :=
  ∀ frame, ev = .receive c frame → (s.handlers.get? c).map Handler.stationId = some p →
    ∃ message, frame = .binary (.message message) ∧ ClientSends sha256 s c p message

theorem FromClient.stands (h : FromClient sha256 s c p ev) (enrolled : Enrolled s)
    (hready : s.seatKey c = some (p, true)) (payload : Payload) (message : ClientCommand)
    (ready : Bool) (snapshotSequence : Nat) (received : ev = .receive c (.binary payload))
    (decoded : decodeClientMessage sha256 payload = .ok message)
    (request : message.request = .ready ready snapshotSequence) : ready = true := by
  obtain ⟨stage, hhandler, _⟩ := enrolled c p true hready
  obtain ⟨m, hframe, hsends⟩ := h _ received (by rw [hhandler]; rfl)
  rw [Frame.binary.inj hframe] at decoded
  rcases hsends with ⟨seq, rfl⟩ | ⟨rid, body, rfl, _⟩
  · cases Except.ok.inj decoded
    exact (Request.ready.inj request).1.symm
  · cases Except.ok.inj decoded
    simp at request

/-- What a message says stays true. -/
theorem step_tells {event : ServerEvent} (h : InOrder s) (hs : Step sha256 s (ev, outs) s')
    (client : FromClient sha256 s c p ev) (ht : s.Tells c p event) : s'.Tells c p event := by
  cases event with
  | state snapshot => exact step_reflects h hs ht
  | result r => exact step_stored hs ht
  | protocolError error => exact fun rid hrid => step_doomed h hs (ht rid hrid)
  | readiness ack =>
    exact fun hack => step_ready h.enrolled hs (ht hack) (client.stands h.enrolled (ht hack))

/-- A declaration is acknowledged as it was made. -/
theorem receive_ready {runId : String}
    {snapshotSequence : Nat} (serving : s.handlers.get? c = some ⟨p, .serving []⟩)
    (hrun : runId = s.economy.runId) (hs : Step sha256 s (.receive c
      (.binary (.message (.ready protocolVersion runId true snapshotSequence))), outs) s') :
    outs = [.send p c (.readiness ⟨s.economy.runId, true, snapshotSequence⟩)] ∧
      s'.seatKey c = some (((s.seatKey c).map Prod.fst).getD p, true) := by
  have hs : step? sha256 s
    (.receive c (.binary (.message (.ready protocolVersion runId true snapshotSequence)))) =
      some (outs, s') := hs
  simp only [step?, serving, receive, onMessage, decodeClientMessage, hrun, ne_eq,
    not_true_eq_false, if_false] at hs
  obtain ⟨rfl, rfl⟩ := Prod.mk.inj (Option.some.inj hs)
  refine ⟨rfl, ?_⟩
  simp only [seatKey, setStage, Dict.get?_set_self, Option.map_some]
  cases s.seatOf.get? c <;> rfl

/-- A command of a planet that is ready goes to the records. -/
theorem receive_command {body : CommandBody} (serving : s.handlers.get? c = some ⟨p, .serving []⟩)
    (hready : s.seatKey c = some (p, true)) (hs : Step sha256 s (.receive c
      (.binary (.message (.command protocolVersion s.economy.runId requestId body))), outs) s') :
    outs = [] ∨ ∃ jobs s₁,
    Commanded s c p requestId body.action (fingerprintOf sha256 body) outs jobs s₁ ∧
      s' = s₁.setStage c p (.serving jobs) := by
  have hs : step? sha256 s
    (.receive c (.binary (.message (.command protocolVersion s.economy.runId requestId body)))) =
      some (outs, s') := hs
  obtain ⟨seat, hseat, _, hflag⟩ := seatKey_eq_some.mp hready
  simp only [step?, serving, receive, onMessage, decodeClientMessage, ne_eq, not_true_eq_false,
    if_false, hseat, Option.map_some, Option.getD_some, hflag, Bool.true_eq_false] at hs
  split at hs
  next =>
    obtain ⟨rfl, _⟩ := Prod.mk.inj (Option.some.inj hs)
    exact Or.inl rfl
  next outs' jobs s₁ hcommand =>
    obtain ⟨rfl, rfl⟩ := Prod.mk.inj (Option.some.inj hs)
    exact Or.inr ⟨jobs, s₁, command_commanded hcommand, rfl⟩

theorem Unasked.tells {q : String} {event : ServerEvent} (h : InOrder s) (hu : Unasked s q c event)
    (hstation : (s.handlers.get? c).map Handler.stationId = some p)
    (hshows : (Output.send q c event).Shows s) :
    s.Tells c p event := by
  rcases hu with ⟨snapshot, r, rfl, hkey⟩ | ⟨error, rfl, hnone⟩
  · obtain ⟨stage, hhandler, _⟩ := h.enrolled c q r hkey
    obtain rfl : q = p := by simpa [hhandler] using hstation
    obtain ⟨seat, hseat, hsnapshot⟩ := hshows
    exact snapshotFor_reflects h hseat hsnapshot
  · intro rid hrid
    simp [hnone] at hrid

/-- Whatever a step answers to a frame of its planet is so when the step is done. -/
theorem Commanded.tells
    {q : String} {body : CommandBody} {event : ServerEvent} {jobs : List Job} (h : InOrder s)
    (hc : Commanded s c p requestId body.action (fingerprintOf sha256 body) outs jobs s')
    (agrees : ∀ x, s.storedFor p requestId = some x → x.fingerprint = fingerprintOf sha256 body)
    (ho : Output.send q c event ∈ outs) : s'.Tells c p event := by
  cases hc with
  | @replayed previous stored =>
    obtain ⟨_, _, rfl⟩ := Output.send.inj (List.mem_singleton.mp ho)
    refine ⟨previous, ?_, rfl⟩
    rwa [h.keyed p requestId previous stored]
  | conflicted stored differs => exact absurd (agrees _ stored) differs
  | full table new full =>
    obtain ⟨_, _, rfl⟩ := Output.send.inj (List.mem_singleton.mp ho)
    rintro rid hrid
    obtain rfl := Option.some.inj hrid
    exact ⟨by simp [storedFor, table, new], _, table, full⟩
  | @recorded stored _ outcome economy table _ _ processed =>
    have hsent : event = .result ({ s with economy := economy }.resultOf requestId outcome) := by
      rcases List.mem_append.mp ho with ho | ho
      · rcases processCommand_cases processed with ⟨_, rfl, _⟩ | ⟨_, rfl, _⟩ <;> simp at ho
      · exact (Output.send.inj (List.mem_singleton.mp ho)).2.2
    rw [hsent]
    exact ⟨_, (storedFor_record (s := { s with economy := economy }) table).trans
      (if_pos ⟨rfl, rfl⟩), rfl⟩

/-- What a step sends to its planet is so when the step is done. -/
theorem step_news {q : String} {event : ServerEvent}
    (h : InOrder s) (hs : Step sha256 s (ev, outs) s') (client : FromClient sha256 s c p ev)
    (hstation : (s'.handlers.get? c).map Handler.stationId = some p)
    (ho : Output.send q c event ∈ outs) : s'.Tells c p event := by
  have h' := step_inOrder h hs
  rcases step_sends hs ho with hunasked | ⟨frame, rfl⟩
  · exact hunasked.tells h' hstation (step_current hs _ ho)
  · have hserving : ∃ sid, s.handlers.get? c = some ⟨sid, .serving []⟩ := by
      have hs : step? sha256 s (.receive c frame) = some (outs, s') := hs
      simp only [step?] at hs
      split at hs
      next sid hserving => exact ⟨sid, hserving⟩
      next => simp at hs
    obtain ⟨sid, hserving⟩ := hserving
    have hsid := (step_tenure hs c).station (p := sid) (by simp [hserving])
    obtain rfl : sid = p := Option.some.inj (hsid.symm.trans hstation)
    obtain ⟨message, rfl, ⟨seq, rfl⟩ | ⟨rid, body, rfl, hready, agrees⟩⟩ :=
      client frame rfl (by simp [hserving])
    · obtain ⟨rfl, hkey⟩ := receive_ready hserving rfl hs
      obtain ⟨_, _, rfl⟩ := Output.send.inj (List.mem_singleton.mp ho)
      intro _
      obtain ⟨stage, hhandler, _⟩ := h'.enrolled c _ _ hkey
      have hp : ((s.seatKey c).map Prod.fst).getD sid = sid := by simpa [hhandler] using hstation
      rw [hkey, hp]
    · rcases receive_command hserving hready hs with rfl | ⟨jobs, s₁, hcommanded, rfl⟩
      · simp at ho
      · have htells := hcommanded.tells h agrees ho
        cases event with
        | readiness ack => exact htells
        | state snapshot => exact ⟨htells.runId, htells.self, htells.tick, htells.version,
          htells.results, htells.offers⟩
        | result r => exact htells
        | protocolError error => exact htells

end BazaarServer

end SpaceportBazaar
