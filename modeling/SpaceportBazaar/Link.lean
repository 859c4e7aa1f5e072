import SpaceportBazaar.ServerQuota
import SpaceportBazaar.SessionGate

namespace SpaceportBazaar

/-- The client of one planet and the server, and what is on its way between them:
both directions of the socket are queues. -/
structure Link where
  server : BazaarServer
  session : BazaarSession
  up : List (List UInt8) := []
  down : List ServerEvent := []

/-- Which connection the client is on, which planet it plays, and the library code
both sides rely on. -/
structure Wiring where
  connection : Nat
  stationId : String
  sha256 : List UInt8 → String
  bodyFingerprint : List UInt8 → String
  parse : List UInt8 → Payload

namespace Link

variable (w : Wiring)

/-- The bytes an output of the session puts on the socket. -/
def outgoing : SessionOutput → Option (List UInt8)
  | .ready runId snapshotSequence =>
    some (ClientMessage.ready protocolVersion runId true snapshotSequence).serializeToString
  | .transmitted _ payload => some payload
  | _ => none

/-- The message an output of the server puts on the socket of the connection. -/
def incoming : Output → Option ServerEvent
  | .send _ c event => if c = w.connection then some event else none
  | _ => none

def stationOf (s : BazaarServer) (c : Nat) : Option String :=
  (s.handlers.get? c).map Handler.stationId

/-- The planet has this one client: no other connection sends messages for it, and
what arrives on the client's own connection came over the link. -/
def foreign (s : BazaarServer) : BazaarServer.Event → Bool
  | .receive c _ => c ≠ w.connection && stationOf s c ≠ some w.stationId
  | _ => true

inductive Event
  | server (event : BazaarServer.Event)
  | uplink (payload : List UInt8)
  | downlink (event : ServerEvent)
  | session (event : BazaarSession.Event)
  deriving DecidableEq

def serverTurn (l : Link) (event : BazaarServer.Event) (up : List (List UInt8)) :
    Option ((List Output × List SessionOutput) × Link) :=
  (BazaarServer.step? w.sha256 l.server event).map (fun r =>
    ((r.1, []), { l with server := r.2, up := up, down := l.down ++ r.1.filterMap (incoming w) }))

def sessionTurn (l : Link) (event : BazaarSession.Event) (down : List ServerEvent) :
    Option ((List Output × List SessionOutput) × Link) :=
  (BazaarSession.step? w.bodyFingerprint l.session event).map (fun r =>
    (([], r.1), { l with session := r.2, up := l.up ++ r.1.filterMap outgoing, down := down }))

/-- One turn of either side. Messages of the server reach the session only from the
head of the queue; frames of the client reach the handler of its connection so. -/
def step? (l : Link) : Event → Option ((List Output × List SessionOutput) × Link)
  | .server event => if foreign w l.server event then serverTurn w l event l.up else none
  | .uplink payload =>
    match l.up with
    | [] => none
    | head :: up =>
      if head = payload && stationOf l.server w.connection = some w.stationId then
        serverTurn w l (.receive w.connection (.binary (w.parse payload))) up
      else none
  | .downlink event =>
    match l.down with
    | [] => none
    | head :: down => if head = event then sessionTurn w l (.item (.message event)) down else none
  | .session event =>
    match event with
    | .item (.message _) => none
    | event => sessionTurn w l event l.down

abbrev Label : Type := Event × List Output × List SessionOutput

def Step : Link → Label → Link → Prop := Machine.ofFunction (step? w)

def init (config : Config) (throttle : CommandThrottle) : Link where
  server := .init config
  session := .init throttle

/-- The server's part of a step. -/
def serverLabel (l : Label) : Option (BazaarServer.Event × List Output) :=
  match l.1 with
  | .server event => some (event, l.2.1)
  | .uplink payload => some (.receive w.connection (.binary (w.parse payload)), l.2.1)
  | _ => none

/-- The session's part of a step. -/
def sessionLabel (l : Label) : Option (BazaarSession.Event × List SessionOutput) :=
  match l.1 with
  | .downlink event => some (.item (.message event), l.2.2)
  | .session event => some (event, l.2.2)
  | _ => none

def serverHist (hist : List Label) : List (BazaarServer.Event × List Output) :=
  hist.filterMap (serverLabel w)

def sessionHist (hist : List Label) : List (BazaarSession.Event × List SessionOutput) :=
  hist.filterMap sessionLabel

section Steps

variable {w} {hist : List Label} {l t : Link} {lab : Label}

theorem serverHist_snoc (hist : List Label) (lab : Label) :
    serverHist w (hist ++ [lab]) = serverHist w hist ++ (serverLabel w lab).toList := by
  cases h : serverLabel w lab <;> simp [serverHist, h]

theorem sessionHist_snoc (hist : List Label) (lab : Label) :
    sessionHist (hist ++ [lab]) = sessionHist hist ++ (sessionLabel lab).toList := by
  cases h : sessionLabel lab <;> simp [sessionHist, h]

/-- A step is a step of one side; the other side stands still. -/
inductive Moves (w : Wiring) (l : Link) (lab : Label) (t : Link) : Prop
  | server {event outs} (label : serverLabel w lab = some (event, outs))
    (silent : sessionLabel lab = none)
    (step : BazaarServer.Step w.sha256 l.server (event, outs) t.server)
    (session : t.session = l.session)
    (down : t.down = l.down ++ outs.filterMap (incoming w))
    (ours : ∀ c frame, event = .receive c frame → stationOf l.server c = some w.stationId →
      ∃ payload, lab.1 = .uplink payload ∧ frame = .binary (w.parse payload))
  | session {event outs} (label : sessionLabel lab = some (event, outs))
    (silent : serverLabel w lab = none)
    (step : BazaarSession.Step w.bodyFingerprint l.session (event, outs) t.session)
    (server : t.server = l.server)
    (down : (∃ message, event = .item (.message message) ∧ l.down = message :: t.down) ∨
      (∀ message, event ≠ .item (.message message)) ∧ t.down = l.down)

theorem step_moves (h : Step w l lab t) : Moves w l lab t := by
  obtain ⟨ev, outs, souts⟩ := lab
  have h : step? w l ev = some ((outs, souts), t) := h
  cases ev with
  | server event =>
    simp only [step?] at h
    split at h
    next hforeign =>
      obtain ⟨⟨outs', server⟩, hs, h⟩ := Option.map_eq_some_iff.mp h
      simp only [Prod.mk.injEq] at h
      obtain ⟨⟨rfl, rfl⟩, rfl⟩ := h
      refine .server rfl rfl hs rfl rfl ?_
      rintro c frame rfl hstation
      simp [foreign, hstation] at hforeign
    next => simp at h
  | uplink payload =>
    simp only [step?] at h
    split at h
    next => simp at h
    next head up hup =>
      split at h
      next =>
        obtain ⟨⟨outs', server⟩, hs, h⟩ := Option.map_eq_some_iff.mp h
        simp only [Prod.mk.injEq] at h
        obtain ⟨⟨rfl, rfl⟩, rfl⟩ := h
        refine .server rfl rfl hs rfl rfl ?_
        intro c frame hframe _
        exact ⟨payload, rfl, (BazaarServer.Event.receive.inj hframe).2.symm⟩
      next => simp at h
  | downlink event =>
    simp only [step?] at h
    split at h
    next => simp at h
    next head down hdown =>
      split at h
      next hhead =>
        obtain ⟨⟨outs', session⟩, hs, h⟩ := Option.map_eq_some_iff.mp h
        simp only [Prod.mk.injEq] at h
        obtain ⟨⟨rfl, rfl⟩, rfl⟩ := h
        exact .session rfl rfl hs rfl (Or.inl ⟨event, rfl, by rw [hdown, hhead]⟩)
      next => simp at h
  | session event =>
    simp only [step?] at h
    split at h
    next => simp at h
    next hplain =>
      obtain ⟨⟨outs', session⟩, hs, h⟩ := Option.map_eq_some_iff.mp h
      simp only [Prod.mk.injEq] at h
      obtain ⟨⟨rfl, rfl⟩, rfl⟩ := h
      exact .session rfl rfl hs rfl (Or.inr ⟨hplain, rfl⟩)

end Steps

section Views

variable {w} {l t : Link} {ofState : Snapshot → Nat} {clock : SimulatedEconomy → Nat}

def stateView (ofState : Snapshot → Nat) : ServerEvent → Option Nat
  | .state snapshot => some (ofState snapshot)
  | _ => none

/-- A count of the world as it is in sight, from the oldest view to the newest: the held
snapshot, the states on their way, the server. -/
def views (ofState : Snapshot → Nat) (clock : SimulatedEconomy → Nat) (l : Link) : List Nat :=
  (l.session.latest.map ofState).toList ++
    (l.down.filterMap (stateView ofState) ++ [clock l.server.economy])

/-- A count that moves on stays ahead of all that was seen of it, and of what is seen now. -/
theorem pairwise_grow {old new : List Nat} {n n' : Nat} (h : (old ++ [n]).Pairwise (· ≤ ·))
    (hle : n ≤ n') (hnew : ∀ a ∈ new, a = n') : (old ++ (new ++ [n'])).Pairwise (· ≤ ·) := by
  obtain ⟨hold, -, hbelow⟩ := List.pairwise_append.mp h
  have hsame : ∀ a ∈ new ++ [n'], a = n' := by simpa [or_imp, forall_and] using hnew
  refine List.pairwise_append.mpr ⟨hold, ?_, fun a ha b hb => ?_⟩
  · refine List.pairwise_of_forall_mem_list fun a ha b hb => ?_
    rw [hsame a ha, hsame b hb]
  · rw [hsame b hb]
    exact (hbelow a ha n (List.mem_singleton_self n)).trans hle

theorem mem_incoming {outs : List Output} {event : ServerEvent}
    (h : event ∈ outs.filterMap (incoming w)) :
    ∃ q, Output.send q w.connection event ∈ outs := by
  obtain ⟨o, ho, hincoming⟩ := List.mem_filterMap.mp h
  cases o with
  | send q c message =>
    simp only [incoming] at hincoming
    split at hincoming
    next hc => exact ⟨q, by rwa [← hc, ← Option.some.inj hincoming]⟩
    next => cases hincoming
  | rejected | closing | executed => cases hincoming

/-- The server's count moves on and the states it sends show it. -/
theorem views_server {outs : List Output} (h : (l.views ofState clock).Pairwise (· ≤ ·))
    (session : t.session = l.session) (down : t.down = l.down ++ outs.filterMap (incoming w))
    (ahead : clock l.server.economy ≤ clock t.server.economy)
    (shows : ∀ {q snapshot}, Output.send q w.connection (.state snapshot) ∈ outs →
      ofState snapshot = clock t.server.economy) : (t.views ofState clock).Pairwise (· ≤ ·) := by
  have hnew : ∀ a ∈ (outs.filterMap (incoming w)).filterMap (stateView ofState),
      a = clock t.server.economy := by
    intro a ha
    obtain ⟨event, hevent, hstate⟩ := List.mem_filterMap.mp ha
    obtain ⟨q, hsent⟩ := mem_incoming hevent
    cases event with
    | state snapshot => exact (Option.some.inj hstate).symm.trans (shows hsent)
    | readiness | result | protocolError => cases hstate
  unfold views at h ⊢
  rw [← List.append_assoc] at h
  have hgrown := pairwise_grow h ahead hnew
  simpa only [session, down, List.filterMap_append, List.append_assoc] using hgrown

/-- A session step drops views from the front and adds none. -/
theorem views_session {event : BazaarSession.Event} (server : t.server = l.server)
    (down : (∃ message, event = .item (.message message) ∧ l.down = message :: t.down) ∨
      (∀ message, event ≠ .item (.message message)) ∧ t.down = l.down)
    (latest : t.session.latest = l.session.latest ∨
      ∃ snapshot, event = .item (.message (.state snapshot)) ∧ t.session.latest = some snapshot) :
    (t.views ofState clock).Sublist (l.views ofState clock) := by
  rcases latest with hsame | ⟨snapshot, rfl, hnew⟩
  · have hsub : t.down.Sublist l.down := by
      rcases down with ⟨message, _, hdown⟩ | ⟨_, hdown⟩
      · rw [hdown]
        exact List.sublist_cons_self _ _
      · rw [hdown]
    simp only [views, hsame, server]
    exact ((hsub.filterMap _).append (List.Sublist.refl _)).append_left _
  · obtain ⟨message, heq, hdown⟩ := down.resolve_right (fun hno => hno.1 _ rfl)
    obtain rfl : ServerEvent.state snapshot = message := by simpa using heq
    simp only [views, hnew, server, hdown, List.filterMap_cons, stateView, Option.map_some,
      Option.toList_some]
    exact List.sublist_append_right _ _

end Views

end Link

end SpaceportBazaar
