import SpaceportBazaar.Commands
import SpaceportBazaar.Link
import SpaceportBazaar.ServerNews
import SpaceportBazaar.SessionNews

namespace SpaceportBazaar

/-- The library code between the client and the server: bytes parse to the message they
were made from, and no two share a fingerprint. -/
structure Wiring.Faithful (w : Wiring) : Prop where
  preserves : ∀ message : ClientMessage, w.parse message.serializeToString = .message message
  injective : ∀ {a b}, w.bodyFingerprint a = w.bodyFingerprint b → a = b

namespace Link

open BazaarServer (InOrder FromClient)
open BazaarSession (Heard Offline)

variable {w : Wiring} {l t : Link} {lab : Label} {requestId : String} {payload : List UInt8}
  {body : CommandBody}

/-- What a message to the client says: nothing but that it is fenced, or what it tells the
planet the client plays. -/
def Says (w : Wiring) (s : BazaarServer) (event : ServerEvent) : Prop :=
  (∃ error, event = .protocolError error ∧ error.requestId = none) ∨
    ∃ p, stationOf s w.connection = some p ∧
    (p = w.stationId → s.Tells w.connection w.stationId event)

/-- A payload of the client declares it ready, or is a command of a client that is. -/
def Sends (w : Wiring) (s : BazaarServer) (payload : List UInt8) : Prop :=
  ∃ p, stationOf s w.connection = some p ∧ (p = w.stationId → ∃ message : ClientMessage,
    payload = message.serializeToString ∧
      ((∃ snapshotSequence, message =
      .ready protocolVersion s.economy.runId true snapshotSequence) ∨
        ∃ requestId body, message = .command protocolVersion s.economy.runId requestId body ∧
          s.seatKey w.connection = some (w.stationId, true)))

/-- The payload is this command, of some run. -/
def IsCommand (requestId : String) (body : CommandBody) (payload : List UInt8) : Prop :=
  ∃ runId, payload = (ClientMessage.command protocolVersion runId requestId body).serializeToString

/-- The session remembers the id by the fingerprint of these bytes. -/
def Knows (w : Wiring) (s : BazaarSession) (requestId : String) (payload : List UInt8) : Prop :=
  ∃ sent, s.tracker.sent.get? requestId = some sent ∧ sent.fingerprint = w.bodyFingerprint payload

/-- The versions in sight, from the held snapshot's to the server's. -/
abbrev versions (l : Link) : List Nat := l.views Snapshot.worldVersion SimulatedEconomy.worldVersion

/-- Both sides and the queues between them, as far as what is said goes. -/
structure Informed (w : Wiring) (l : Link) : Prop where
  server : InOrder l.server
  session : Offline l.session
  heard : Heard (Says w l.server) l.session
  coming : ∀ event ∈ l.down, Says w l.server event
  going : ∀ payload ∈ l.up, Sends w l.server payload
  dated : l.versions.Pairwise (· ≤ ·)
  sent : ∀ payload ∈ l.up, ∀ requestId body, IsCommand requestId body payload →
    Knows w l.session requestId payload
  recorded : ∀ requestId x, l.server.storedFor w.stationId requestId = some x →
    stationOf l.server w.connection = some w.stationId ∧
      ∃ payload body, IsCommand requestId body payload ∧
      Knows w l.session requestId payload ∧ x.fingerprint = fingerprintOf w.sha256 body

theorem IsCommand.inj {requestId' : String} {body' : CommandBody}
    (h : IsCommand requestId body payload) (h' : IsCommand requestId' body' payload) :
    requestId = requestId' ∧ body = body' := by
  obtain ⟨runId, hpayload⟩ := h
  obtain ⟨runId', hpayload'⟩ := h'
  have hsame := ClientMessage.serializeToString_inj (hpayload.symm.trans hpayload')
  simp only [ClientMessage.command.injEq] at hsame
  exact ⟨hsame.2.2.1, hsame.2.2.2⟩

/-- A step of one side, with what it does to both queues. -/
inductive Advances (w : Wiring) (l : Link) (lab : Label) (t : Link) : Prop
  | server {event outs} (label : serverLabel w lab = some (event, outs)) (silent : lab.2.2 = [])
    (step : BazaarServer.Step w.sha256 l.server (event, outs) t.server)
    (session : t.session = l.session) (down : t.down = l.down ++ outs.filterMap (incoming w))
    (up : ∀ payload ∈ t.up, payload ∈ l.up)
    (ours : ∀ c frame, event = .receive c frame → stationOf l.server c = some w.stationId →
      c = w.connection ∧ ∃ payload ∈ l.up, frame = .binary (w.parse payload))
  | session {event} (label : sessionLabel lab = some (event, lab.2.2))
    (step : BazaarSession.Step w.bodyFingerprint l.session (event, lab.2.2) t.session)
    (server : t.server = l.server)
    (down : (∃ message, event = .item (.message message) ∧ l.down = message :: t.down) ∨
      (∀ message, event ≠ .item (.message message)) ∧ t.down = l.down)
    (up : t.up = l.up ++ lab.2.2.filterMap outgoing)

theorem step_advances (h : Step w l lab t) : Advances w l lab t := by
  have hmoves := step_moves h
  obtain ⟨ev, outs, souts⟩ := lab
  have h : step? w l ev = some ((outs, souts), t) := h
  cases ev with
  | server event =>
    cases hmoves with
    | session label => cases label
    | server label _ step session down ours =>
      cases label
      obtain ⟨_, h⟩ := Option.ite_none_right_eq_some.mp h
      obtain ⟨r, _, h⟩ := Option.map_eq_some_iff.mp h
      cases h
      refine .server rfl rfl step session down (fun _ => id) fun c frame hframe hstation => ?_
      obtain ⟨payload, huplink, _⟩ := ours c frame hframe hstation
      cases huplink
  | uplink payload =>
    cases hmoves with
    | session label => cases label
    | server label _ step session down =>
      cases label
      simp only [step?] at h
      split at h
      next => cases h
      next head up hup =>
        obtain ⟨hhead, h⟩ := Option.ite_none_right_eq_some.mp h
        obtain ⟨r, _, h⟩ := Option.map_eq_some_iff.mp h
        cases h
        simp only [Bool.and_eq_true, decide_eq_true_eq] at hhead
        refine .server rfl rfl step session down
          (fun _ hmem => by rw [hup]; exact List.mem_cons_of_mem _ hmem) ?_
        intro c frame hframe _
        obtain ⟨rfl, rfl⟩ := BazaarServer.Event.receive.inj hframe
        exact ⟨rfl, payload, by simp [hup, hhead.1], rfl⟩
  | downlink message =>
    cases hmoves with
    | server label => cases label
    | session label _ step server down =>
      cases label
      simp only [step?] at h
      split at h
      next => cases h
      next head rest _ =>
        obtain ⟨_, h⟩ := Option.ite_none_right_eq_some.mp h
        obtain ⟨r, _, h⟩ := Option.map_eq_some_iff.mp h
        cases h
        exact .session rfl step server down rfl
  | session event =>
    cases hmoves with
    | server label => cases label
    | session label _ step server down =>
      cases label
      simp only [step?] at h
      split at h
      next => cases h
      next =>
        obtain ⟨r, _, h⟩ := Option.map_eq_some_iff.mp h
        cases h
        exact .session rfl step server down rfl

section Server

variable {event : BazaarServer.Event} {outs : List Output}

/-- The frames on the client's connection are the payloads it sent. -/
theorem Informed.fromClient (h : Informed w l) (faithful : w.Faithful)
    (ours : ∀ c frame, event = .receive c frame → stationOf l.server c = some w.stationId →
      c = w.connection ∧ ∃ payload ∈ l.up, frame = .binary (w.parse payload)) :
    FromClient w.sha256 l.server w.connection w.stationId event := by
  intro frame hframe hstation
  obtain ⟨_, payload, hmem, rfl⟩ := ours _ frame hframe hstation
  obtain ⟨p, hp, hsends⟩ := h.going payload hmem
  obtain rfl : p = w.stationId := Option.some.inj (hp.symm.trans hstation)
  obtain ⟨message, rfl, hmessage⟩ := hsends rfl
  refine ⟨message, by rw [faithful.preserves], hmessage.imp id ?_⟩
  rintro ⟨requestId, body, rfl, hready⟩
  refine ⟨requestId, body, rfl, hready, fun x hx => ?_⟩
  have hcommand : IsCommand requestId body
      (ClientMessage.command protocolVersion l.server.economy.runId requestId
        body).serializeToString := ⟨_, rfl⟩
  obtain ⟨sent, hsent, hfingerprint⟩ := h.sent _ hmem requestId body hcommand
  obtain ⟨_, payload', body', hcommand', ⟨sent', hsent', hfingerprint'⟩, hx⟩ :=
    h.recorded requestId x hx
  obtain rfl : sent = sent' := Option.some.inj (hsent.symm.trans hsent')
  obtain rfl := faithful.injective (hfingerprint'.symm.trans hfingerprint)
  rw [hx, (hcommand.inj hcommand').2]

/-- A state that is sent shows the version of the world. -/
theorem shown_version (hs : BazaarServer.Step w.sha256 l.server (event, outs) t.server) {q : String}
    {snapshot : Snapshot} (h : Output.send q w.connection (.state snapshot) ∈ outs) :
    snapshot.worldVersion = t.server.economy.worldVersion := by
  obtain ⟨seat, _, hsnapshot⟩ := BazaarServer.step_current hs _ h
  exact (BazaarServer.snapshotFor_shown hsnapshot).version

theorem station_step (hs : BazaarServer.Step w.sha256 l.server (event, outs) t.server) {p : String}
    (hp : stationOf l.server w.connection = some p) : stationOf t.server w.connection = some p :=
  (BazaarServer.step_tenure hs w.connection).station hp

theorem Says.step {message : ServerEvent} (h : InOrder l.server)
    (hs : BazaarServer.Step w.sha256 l.server (event, outs) t.server)
    (client : FromClient w.sha256 l.server w.connection w.stationId event)
    (htold : Says w l.server message) :
    Says w t.server message := by
  rcases htold with herror | ⟨p, hp, htells⟩
  · exact .inl herror
  · exact .inr ⟨p, station_step hs hp, fun hours =>
      BazaarServer.step_tells h hs client (htells hours)⟩

theorem Sends.step (h : InOrder l.server)
    (hs : BazaarServer.Step w.sha256 l.server (event, outs) t.server)
    (client : FromClient w.sha256 l.server w.connection w.stationId event)
    (hsends : Sends w l.server payload) :
    Sends w t.server payload := by
  obtain ⟨p, hp, hmessage⟩ := hsends
  have hrun := (BazaarServer.step_continues h.book hs).runId
  refine ⟨p, station_step hs hp, fun hours => ?_⟩
  obtain ⟨message, hpayload, hmessage⟩ := hmessage hours
  refine ⟨message, hpayload, ?_⟩
  rw [hrun]
  rcases hmessage with hready | ⟨requestId, body, hcommand, hkey⟩
  · exact .inl hready
  · exact .inr ⟨requestId, body, hcommand, BazaarServer.step_ready h.enrolled hs hkey
      (client.stands h.enrolled hkey)⟩

/-- What the server sends to a connection comes to a handler it has, unless it is about fencing. -/
theorem says_new {message : ServerEvent} (h : InOrder l.server)
    (hs : BazaarServer.Step w.sha256 l.server (event, outs) t.server)
    (client : FromClient w.sha256 l.server w.connection w.stationId event)
    (hmessage : message ∈ outs.filterMap (incoming w)) : Says w t.server message := by
  obtain ⟨q, ho⟩ := mem_incoming hmessage
  have hstation : (∃ error, message = .protocolError error ∧ error.requestId = none) ∨
      ∃ p, stationOf t.server w.connection = some p := by
    rcases BazaarServer.step_sends hs ho with (⟨snapshot, r, _, hkey⟩ | herror) | ⟨frame, rfl⟩
    · obtain ⟨stage, hhandler, _⟩ := (BazaarServer.step_inOrder h hs).enrolled w.connection q r hkey
      exact .inr ⟨q, by simp [stationOf, hhandler]⟩
    · exact .inl herror
    · cases BazaarServer.step_enabled hs with
      | @received _ p _ serving _ => exact .inr ⟨p, station_step hs (by simp [stationOf, serving])⟩
  rcases hstation with herror | ⟨p, hp⟩
  · exact .inl herror
  · refine .inr ⟨p, hp, ?_⟩
    rintro rfl
    exact BazaarServer.step_news h hs client hp ho

/-- A command the server reads of the client's planet was on its way. -/
theorem Informed.uplinked (h : Informed w l) (faithful : w.Faithful)
    (ours : ∀ c frame, event = .receive c frame → stationOf l.server c = some w.stationId →
      c = w.connection ∧ ∃ payload ∈ l.up, frame = .binary (w.parse payload))
    {c : Nat} {version runId : String} (hstation : stationOf l.server c = some w.stationId)
    (received : event = .receive c (.binary (.message (.command version runId requestId body)))) :
    c = w.connection ∧ ∃ payload ∈ l.up, IsCommand requestId body payload := by
  obtain ⟨rfl, payload, hpayload, hframe⟩ := ours c _ received hstation
  obtain ⟨p, hp, hsends⟩ := h.going payload hpayload
  obtain rfl : p = w.stationId := Option.some.inj (hp.symm.trans hstation)
  obtain ⟨message, rfl, hmessage⟩ := hsends rfl
  rw [faithful.preserves] at hframe
  cases hframe
  rcases hmessage with ⟨snapshotSequence, hready⟩ | ⟨rid, body', hcommand, _⟩
  · cases hready
  · cases hcommand
    exact ⟨rfl, _, hpayload, _, rfl⟩

theorem Informed.server_step (h : Informed w l) (faithful : w.Faithful) (hs :
      BazaarServer.Step w.sha256 l.server (event, outs) t.server) (session : t.session = l.session)
    (down : t.down = l.down ++ outs.filterMap (incoming w)) (up : ∀ payload ∈ t.up, payload ∈ l.up)
    (ours : ∀ c frame, event = .receive c frame → stationOf l.server c = some w.stationId →
      c = w.connection ∧ ∃ payload ∈ l.up, frame = .binary (w.parse payload)) : Informed w t := by
  have client := h.fromClient faithful ours
  refine ⟨BazaarServer.step_inOrder h.server hs, session ▸ h.session, ?_, ?_,
    ?_, views_server h.dated session down
    (BazaarServer.step_ahead hs).version (shown_version hs), ?_, ?_⟩
  · rw [session]
    exact h.heard.mono fun message => Says.step h.server hs client
  · intro message hmessage
    rw [down] at hmessage
    rcases List.mem_append.mp hmessage with hmessage | hmessage
    · exact (h.coming message hmessage).step h.server hs client
    · exact says_new h.server hs client hmessage
  · exact fun payload hpayload => (h.going payload (up payload hpayload)).step h.server hs client
  · rw [session]
    exact fun payload hpayload => h.sent payload (up payload hpayload)
  · intro requestId x hx
    rw [session]
    have hold : ∀ x, l.server.storedFor w.stationId requestId = some x →
        stationOf t.server w.connection = some w.stationId ∧
        ∃ payload body, IsCommand requestId body payload ∧ Knows w l.session requestId payload ∧
          x.fingerprint = fingerprintOf w.sha256 body :=
      fun x hx => ⟨station_step hs (h.recorded requestId x hx).1, (h.recorded requestId x hx).2⟩
    cases BazaarServer.step_planet h.server.book hs w.stationId with
    | kept records =>
      unfold BazaarServer.storedFor at hx
      rw [records] at hx
      exact hold x hx
    | @recorded c rid body y table serving received was _ _ records fingerprint =>
      unfold BazaarServer.storedFor at hx
      rw [records, Option.bind_some, Dict.get?_set] at hx
      split at hx
      next hrid =>
        subst hrid
        obtain rfl := Option.some.inj hx
        have hstation : stationOf l.server c = some w.stationId := by simp [stationOf, serving]
        obtain ⟨rfl, payload, hpayload, hcommand⟩ := h.uplinked faithful ours hstation received
        exact ⟨station_step hs hstation, payload, body, hcommand,
          h.sent payload hpayload requestId body hcommand, fingerprint⟩
      next => exact hold x (by rwa [BazaarServer.storedFor, was])

end Server

section Session

variable {event : BazaarSession.Event} {outs : List SessionOutput}

/-- An id that was used stays known by the same bytes. -/
theorem Knows.step {s s' : BazaarSession} (ho : Offline s)
    (hs : BazaarSession.Step w.bodyFingerprint s (event, outs) s')
    (h : Knows w s requestId payload) : Knows w s' requestId payload := by
  obtain ⟨known, hknown, hfingerprint⟩ := h
  have hsame : s'.tracker.sent = s.tracker.sent → Knows w s' requestId payload :=
    fun hsame => ⟨known, hsame ▸ hknown, hfingerprint⟩
  cases (BazaarSession.step_turn ho hs).1 with
  | idle _ _ _ sent => exact hsame sent
  | stopped _ sent => exact hsame sent
  | routed _ _ _ sent => exact hsame sent
  | @commanded call draft kind rid _ _ commanding =>
    by_cases hrid : requestId = rid
    · subst rid
      cases commanding with
      | refused => exact hsame rfl
      | retried _ retry =>
        obtain ⟨previous, hprevious, hretry⟩ := PendingRequestTracker.isExactRetry_iff.mp retry
        obtain rfl : previous = known := Option.some.inj (hprevious.symm.trans hknown)
        exact ⟨_, Dict.get?_set_self _ _ _, hretry.symm.trans hfingerprint⟩
      | charged _ new =>
        rw [new] at hknown
        cases hknown
    · cases commanding with
      | refused => exact hsame rfl
      | retried | charged =>
        exact ⟨known, (Dict.get?_set_of_ne _ _ hrid).trans hknown, hfingerprint⟩

/-- A step that sends a command sends one for the run of the session, under the id it was asked
to. -/
def Built (s : BazaarSession) (event : BazaarSession.Event) : Prop :=
  ∀ call draft kind requestId, event = .sendCommand call draft kind requestId →
    ∃ runId body, draft = .complete (.command protocolVersion runId requestId body) ∧
    s.lifecycle.runId = some runId

theorem Says.state {snapshot : Snapshot} (h : Says w l.server (.state snapshot)) :
    ∃ p, stationOf l.server w.connection = some p ∧
      (p = w.stationId → l.server.Reflects w.stationId snapshot) := by
  rcases h with ⟨error, herror, _⟩ | htold
  · cases herror
  · exact htold

/-- A client that is told it is ready sends commands for its run. -/
theorem Informed.sends_command
    (h : Informed w l) {draft : Draft} {runId : String} {snapshot : Snapshot}
    (clears : BazaarSession.Clears w.bodyFingerprint l.session draft requestId payload snapshot)
    (hdraft : draft = .complete (.command protocolVersion runId requestId body))
    (hrun : l.session.lifecycle.runId = some runId) :
    Sends w l.server payload ∧ IsCommand requestId body payload := by
  have hencoded := clears.encoded
  rw [hdraft] at hencoded
  have hpayload := encodeClientMessage_bytes hencoded
  obtain ⟨state, hstate, hid⟩ := h.heard.run runId hrun
  obtain ⟨p, hp, hreflects⟩ := hstate.state
  obtain ⟨_, hcan, _⟩ := BazaarSession.eligible_eq_some_iff.mp clears.eligible
  obtain ⟨ack, hready, hack⟩ :=
    h.heard.active (SessionLifecycle.canSendTradingCommands_iff.mp hcan).1
  refine ⟨⟨p, hp, fun hours => ⟨_, hpayload, .inr ⟨requestId, body, ?_, ?_⟩⟩⟩, runId, hpayload⟩
  · rw [← (hreflects hours).runId, hid]
  · rcases hack with ⟨error, herror, _⟩ | ⟨q, hq, htells⟩
    · cases herror
    · obtain rfl : q = p := Option.some.inj (hq.symm.trans hp)
      exact htells hours hready

/-- What the session puts on the socket: its declaration for a state it took, or
the command of a call. -/
inductive Outgoing (w : Wiring) (s : BazaarSession) (event : BazaarSession.Event)
    (s' : BazaarSession) (payload : List UInt8) :
    Prop
  | ready {snapshot : Snapshot} {snapshotSequence : Nat}
    (took : event = .item (.message (.state snapshot)))
    (bytes : payload =
    (ClientMessage.ready protocolVersion snapshot.runId true snapshotSequence).serializeToString) :
    Outgoing w s event s' payload
  | command {call : Nat} {draft : Draft} {kind requestId : String} {snapshot : Snapshot}
    (called : event = .sendCommand call draft kind requestId)
    (clears : BazaarSession.Clears w.bodyFingerprint s draft requestId payload snapshot)
    (knows : Knows w s' requestId payload) : Outgoing w s event s' payload

theorem outgoing_cases {s s' : BazaarSession}
    (ho : Offline s) (hs : BazaarSession.Step w.bodyFingerprint s (event, outs) s')
    (hpayload : payload ∈ outs.filterMap outgoing) : Outgoing w s event s' payload := by
  obtain ⟨o, hmem, hout⟩ := List.mem_filterMap.mp hpayload
  cases (BazaarSession.step_turn ho hs).1 with
  | idle _ replies =>
    obtain ⟨call, reply, rfl⟩ := replies o hmem
    cases hout
  | stopped => cases hmem
  | @routed message directive lifecycle _ _ _ accepted _ _ _ declared =>
    have hready : o ∈ BazaarSession.readies directive := by
      rcases declared with rfl | ⟨rfl, _⟩
      · exact hmem
      · cases hmem
    cases directive with
    | none => cases hready
    | some directive =>
      cases directive with
      | sendReady runId snapshotSequence =>
        obtain rfl := List.mem_singleton.mp hready
        cases hout
        obtain ⟨snapshot, rfl, rfl⟩ := SessionLifecycle.onEvent_sendReady accepted
        exact .ready rfl rfl
      | abort | reconnect => cases hready
  | commanded commanding =>
    cases commanding with
    | refused =>
      obtain rfl := List.mem_singleton.mp hmem
      cases hout
    | retried clears =>
      obtain rfl := List.mem_singleton.mp hmem
      cases hout
      exact .command rfl clears ⟨_, Dict.get?_set_self _ _ _, rfl⟩
    | charged clears =>
      rcases List.mem_cons.mp hmem with rfl | hmem
      · cases hout
      · obtain rfl := List.mem_singleton.mp hmem
        cases hout
        exact .command rfl clears ⟨_, Dict.get?_set_self _ _ _, rfl⟩

/-- Only a call to send a command puts one on the socket. -/
theorem outgoing_plain {s s' : BazaarSession} (ho : Offline s)
    (hs : BazaarSession.Step w.bodyFingerprint s (event, outs) s')
    (plain : ∀ call draft kind requestId, event ≠ .sendCommand call draft kind requestId)
    (hpayload : payload ∈ outs.filterMap outgoing) : ¬ IsCommand requestId body payload := by
  rintro ⟨runId, hcommand⟩
  cases outgoing_cases ho hs hpayload with
  | ready _ bytes => cases ClientMessage.serializeToString_inj (bytes.symm.trans hcommand)
  | command called => exact plain _ _ _ _ called

theorem Informed.outgoing_new (h : Informed w l) (built : Built l.session event)
    (hs : BazaarSession.Step w.bodyFingerprint l.session (event, outs) t.session)
    (coming : ∀ message, event = .item (.message message) → Says w l.server message)
    (hpayload : payload ∈ outs.filterMap outgoing) :
    Sends w l.server payload ∧ ∀ requestId body, IsCommand requestId body payload →
    Knows w t.session requestId payload := by
  cases outgoing_cases h.session hs hpayload with
  | @ready snapshot snapshotSequence took bytes =>
    obtain ⟨p, hp, hreflects⟩ := (coming _ took).state
    refine ⟨⟨p, hp, fun hours =>
      ⟨_, bytes, .inl ⟨snapshotSequence, by rw [(hreflects hours).runId]⟩⟩⟩, ?_⟩
    rintro requestId body ⟨runId, hcommand⟩
    cases ClientMessage.serializeToString_inj (bytes.symm.trans hcommand)
  | @command call draft kind rid _ called clears knows =>
    obtain ⟨runId, body, hdraft, hrun⟩ := built call draft kind rid called
    obtain ⟨hsends, hcommand⟩ := h.sends_command clears hdraft hrun
    refine ⟨hsends, fun requestId body' hcommand' => ?_⟩
    rw [(hcommand'.inj hcommand).1]
    exact knows

/-- A state goes with the results it contains. -/
theorem Says.results {snapshot : Snapshot} {r : CommandResult}
    (h : Says w l.server (.state snapshot)) (hr : r ∈ snapshot.requestResults) :
    Says w l.server (.result r) := by
  obtain ⟨p, hp, hreflects⟩ := h.state
  refine .inr ⟨p, hp, ?_⟩
  rintro rfl
  exact ((hreflects rfl).results r hr).1

theorem Informed.ordered (h : Informed w l)
    {snapshot held : Snapshot} (hheld : l.session.latest = some held) {down : List ServerEvent}
    (hdown : l.down = .state snapshot :: down) : held.worldVersion ≤ snapshot.worldVersion := by
  have hdated := h.dated
  simp only [versions, views, hheld, hdown, Option.map_some, Option.toList_some,
    List.filterMap_cons, stateView, List.cons_append] at hdated
  exact (List.pairwise_cons.mp hdated).1 _ List.mem_cons_self

theorem Informed.session_step (h : Informed w l) (built : Built l.session event)
    (hs : BazaarSession.Step w.bodyFingerprint l.session (event, outs) t.session)
    (server : t.server = l.server)
    (down : (∃ message, event = .item (.message message) ∧ l.down = message :: t.down) ∨
      (∀ message, event ≠ .item (.message message)) ∧ t.down = l.down)
    (up : t.up = l.up ++ outs.filterMap outgoing) :
    Informed w t ∧ BazaarSession.Keeps l.session t.session := by
  have coming : ∀ message, event = .item (.message message) → Says w l.server message ∧
      l.down = message :: t.down := by
    rintro message rfl
    obtain ⟨head, heq, hdown⟩ := down.resolve_right (fun hno => hno.1 _ rfl)
    obtain rfl : message = head := by simpa using heq
    exact ⟨h.coming message (by rw [hdown]; exact List.mem_cons_self), hdown⟩
  have hdown : ∀ message ∈ t.down, message ∈ l.down := by
    intro message hmessage
    rcases down with ⟨head, _, hdown⟩ | ⟨_, hdown⟩
    · rw [hdown]
      exact List.mem_cons_of_mem _ hmessage
    · rwa [← hdown]
  obtain ⟨hheard, hkeeps⟩ :=
    BazaarSession.step_heard h.session h.heard (fun message hm => (coming message hm).1)
    (fun snapshot htold r => htold.results)
      (fun snapshot held hm hheld => h.ordered hheld (coming _ hm).2) hs
  have hnew : ∀ payload ∈ outs.filterMap outgoing, Sends w l.server payload ∧
      ∀ requestId body, IsCommand requestId body payload → Knows w t.session requestId payload :=
    fun payload => h.outgoing_new built hs (fun message hm => (coming message hm).1)
  refine ⟨⟨?_, (BazaarSession.step_turn h.session hs).2, ?_, ?_, ?_, ?_, ?_, ?_⟩, hkeeps⟩
  · rw [server]
    exact h.server
  · rw [server]
    exact hheard
  · rw [server]
    exact fun message hmessage => h.coming message (hdown message hmessage)
  · rw [server, up]
    intro payload hpayload
    exact (List.mem_append.mp hpayload).elim (h.going payload)
      (fun hpayload => (hnew payload hpayload).1)
  · exact h.dated.sublist (views_session server down (BazaarSession.step_latest h.session hs))
  · rw [up]
    intro payload hpayload requestId body hcommand
    rcases List.mem_append.mp hpayload with hpayload | hpayload
    · exact (h.sent payload hpayload requestId body hcommand).step h.session hs
    · exact (hnew payload hpayload).2 requestId body hcommand
  · rw [server]
    intro requestId x hx
    obtain ⟨hstation, payload, body, hcommand, hknows, hfingerprint⟩ := h.recorded requestId x hx
    exact ⟨hstation, payload, body, hcommand, hknows.step h.session hs, hfingerprint⟩

end Session

/-- What is said between the two stays so, whatever either side does next. -/
theorem Informed.step (h : Informed w l) (faithful : w.Faithful)
    (built : ∀ event outs, sessionLabel lab = some (event, outs) → Built l.session event)
    (hs : Step w l lab t) :
    Informed w t ∧ BazaarSession.Keeps l.session t.session := by
  cases step_advances hs with
  | server _ _ step session down up ours =>
    exact ⟨h.server_step faithful step session down up ours, .of_calls (by rw [session])⟩
  | session label step server down up => exact h.session_step (built _ _ label) step server down up

/-- What was said of a connection stays so. -/
theorem Informed.says_step (h : Informed w l) (faithful : w.Faithful) (hs : Step w l lab t)
    {message : ServerEvent} (htold : Says w l.server message) : Says w t.server message := by
  cases step_advances hs with
  | server _ _ step _ _ _ ours => exact htold.step h.server step (h.fromClient faithful ours)
  | session _ _ server =>
    rw [server]
    exact htold

/-- What an entered call comes back with was said. -/
theorem Informed.replied (h : Informed w l) (hs : Step w l lab t)
    {call : Nat} {c : BazaarSession.Call} {reply : Except SessionError BazaarSession.Answer}
    (known : l.session.calls.get? call = some c) (hr : SessionOutput.reply call reply ∈ lab.2.2) :
    BazaarSession.Replied (Says w t.server) t.session.latest c.awaited reply := by
  cases step_advances hs with
  | server _ silent =>
    rw [silent] at hr
    cases hr
  | session _ step server =>
    rw [server]
    exact BazaarSession.step_replied h.session h.heard known step hr

theorem init_informed (w : Wiring) (config : Config) (throttle : CommandThrottle) :
    Informed w (init config throttle) where
  server := BazaarServer.init_inOrder config
  session := BazaarSession.init_offline throttle
  heard := BazaarSession.init_heard throttle
  coming message hmessage := absurd hmessage (List.not_mem_nil)
  going payload hpayload := absurd hpayload (List.not_mem_nil)
  dated := by simp [versions, views, init, BazaarSession.init, BazaarSession.start]
  sent payload hpayload := absurd hpayload (List.not_mem_nil)
  recorded requestId x hx := by simp [init, BazaarServer.init_storedFor] at hx

end Link

end SpaceportBazaar
