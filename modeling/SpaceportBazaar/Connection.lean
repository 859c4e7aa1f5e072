import SpaceportBazaar.Codec
import SpaceportBazaar.Dict

namespace SpaceportBazaar

inductive SessionError
  | sessionClosed (text : String)
  | sessionAborted (text : String) (code : Option ControlCode)
  | commandBlocked (text : String)
  | runIdChanged (text : String)
  | requestIdConflict (text : String)
  | uninitializedMessage (text : String)
  | messageTooLarge (text : String)
  | notConnected (text : String)
  | connectionLost
  | timeout
  deriving DecidableEq, Repr

/-- A command message as its caller built it: protobuf lets required fields and
the command arm stay unset. -/
inductive Draft
  | incomplete (missing : List String)
  | noArm
  | complete (message : ClientMessage)
  deriving DecidableEq

def encodeClientMessage (draft : Draft)
    (maxBytes : Option Nat) : Except SessionError (List UInt8) :=
  match draft with
  | .incomplete missing =>
    .error (.uninitializedMessage
      ("refusing to send message missing required fields: " ++ ", ".intercalate missing))
  | .noArm => .error (.uninitializedMessage "ClientMessage selected no command arm")
  | .complete message =>
    let payload := message.serializeToString
    match maxBytes with
    | none => .ok payload
    | some limit =>
      if limit < payload.length then
        .error (.messageTooLarge s!"command is {payload.length} bytes, limit is {limit}")
      else .ok payload

def ControlCode.name : ControlCode → String
  | .badMessage => "BAD_MESSAGE"
  | .requestCapacityExceeded => "REQUEST_CAPACITY_EXCEEDED"
  | .unsupportedVersion => "UNSUPPORTED_VERSION"
  | .runMismatch => "RUN_MISMATCH"
  | .invalidAuthentication => "INVALID_AUTHENTICATION"
  | .sessionFenced => "SESSION_FENCED"

/-- Retrying these with the same token, version or run id cannot succeed. -/
def fatalControlCodes : List ControlCode :=
  [.unsupportedVersion, .runMismatch, .invalidAuthentication]

inductive SessionState
  | disconnected | awaitingFirstState | awaitingReadiness | active | closed
  deriving DecidableEq, Repr

inductive Directive
  | sendReady (runId : String) (snapshotSequence : Nat)
  | reconnect (reason : String)
  | abort (reason : String) (code : Option ControlCode)
  deriving DecidableEq, Repr

structure SessionLifecycle where
  state : SessionState := .disconnected
  runId : Option String := none
  phase : Option Phase := none
  readySequence : Option Nat := none
  lastSnapshotSequence : Nat := 0
  deriving DecidableEq, Repr

namespace SessionLifecycle

/-- Trading needs both a confirmed readiness and a RUNNING phase. -/
def canSendTradingCommands (l : SessionLifecycle) : Bool :=
  l.state = .active && l.phase = some .running

def onConnected (l : SessionLifecycle) : SessionLifecycle :=
  { l with state := .awaitingFirstState, readySequence := none, lastSnapshotSequence := 0 }

def onDisconnected (l : SessionLifecycle) : SessionLifecycle :=
  if l.state ≠ .closed then { l with state := .disconnected } else l

def onSnapshot (l : SessionLifecycle) (snapshot : Snapshot) :
    Except SessionError (Option Directive × SessionLifecycle) :=
  if l.runId.isSome && l.runId ≠ some snapshot.runId then
    .error (.runIdChanged
      ("connected to run " ++ snapshot.runId ++ ", previously " ++ l.runId.getD "None" ++
      "; discard pending commands and object ids"))
  else if snapshot.snapshotSequence ≤ l.lastSnapshotSequence then .ok (none, l)
  else
    let l := { l with
      runId := some snapshot.runId
      phase := some snapshot.phase
      lastSnapshotSequence := max l.lastSnapshotSequence snapshot.snapshotSequence }
    if l.state = .awaitingFirstState then
      .ok (some (.sendReady snapshot.runId snapshot.snapshotSequence),
        { l with state := .awaitingReadiness, readySequence := some snapshot.snapshotSequence })
    else .ok (none, l)

def onReadiness (l : SessionLifecycle) (ack : ReadinessAck) : Option Directive × SessionLifecycle :=
  if l.state ≠ .awaitingReadiness then (none, l)
  else if some ack.runId ≠ l.runId then
    (some (.abort ("readiness for run " ++ ack.runId ++ ", expected " ++ l.runId.getD "None") none),
      l)
  else if some ack.snapshotSequence ≠ l.readySequence then
    (some (.abort
      ("readiness acknowledged sequence " ++ toString ack.snapshotSequence ++ ", declared " ++
      (l.readySequence.map toString).getD "None") none), l)
  else if !ack.ready then (none, l)
  else (none, { l with state := .active })

def onProtocolError (l : SessionLifecycle)
    (event : ProtocolErrorEvent) : Option Directive × SessionLifecycle :=
  if event.code ∈ fatalControlCodes then
    (some (.abort s!"fatal control error {event.code.name}" (some event.code)),
      { l with state := .closed })
  else if event.closeSession then
    (some (.reconnect s!"server closed session after {event.code.name}"),
      { l with state := .disconnected })
  else (none, l)

def onEvent (l : SessionLifecycle) : ServerEvent →
    Except SessionError (Option Directive × SessionLifecycle)
  | .state snapshot => l.onSnapshot snapshot
  | .readiness ack => .ok (l.onReadiness ack)
  | .protocolError event => .ok (l.onProtocolError event)
  | .result _ => .ok (none, l)

theorem canSendTradingCommands_iff {l : SessionLifecycle} :
    l.canSendTradingCommands = true ↔ l.state = .active ∧ l.phase = some .running := by
  simp [canSendTradingCommands]

/-- The states no event leads out of: the session has ended. -/
def Over (l : SessionLifecycle) : Prop := l.state = .disconnected ∨ l.state = .closed

theorem Over.cannotSend {l : SessionLifecycle} (h : l.Over) : l.canSendTradingCommands = false := by
  rcases h with h | h <;> simp [canSendTradingCommands, h]

theorem onDisconnected_over (l : SessionLifecycle) : l.onDisconnected.Over := by
  unfold onDisconnected Over
  split
  next => exact Or.inl rfl
  next h => exact Or.inr (not_not.mp h)

/-- What a state of the right run does: nothing when it is old, else it moves the
lifecycle along, and the first one of a connection asks for readiness. -/
inductive Followed (l : SessionLifecycle) (snapshot : Snapshot) :
    Option Directive → SessionLifecycle → Prop
  | old (h : snapshot.snapshotSequence ≤ l.lastSnapshotSequence) : Followed l snapshot none l
  | first (h : l.lastSnapshotSequence < snapshot.snapshotSequence)
    (waiting : l.state = .awaitingFirstState) :
    Followed l snapshot (some (.sendReady snapshot.runId snapshot.snapshotSequence))
      { l with
        state := .awaitingReadiness
        runId := some snapshot.runId
        phase := some snapshot.phase
        readySequence := some snapshot.snapshotSequence
        lastSnapshotSequence := snapshot.snapshotSequence }
  | later (h : l.lastSnapshotSequence < snapshot.snapshotSequence)
    (started : l.state ≠ .awaitingFirstState)
    (sameRun : l.runId = none ∨ l.runId = some snapshot.runId) :
    Followed l snapshot none
      { l with
        runId := some snapshot.runId
        phase := some snapshot.phase
        lastSnapshotSequence := snapshot.snapshotSequence }

theorem onSnapshot_followed {l l' : SessionLifecycle} {snapshot : Snapshot}
    {directive : Option Directive} (h : l.onSnapshot snapshot = .ok (directive, l')) :
    Followed l snapshot directive l' := by
  unfold onSnapshot at h
  simp only at h
  split at h
  next => simp at h
  next hrun =>
    have hsame : l.runId = none ∨ l.runId = some snapshot.runId := by
      cases hid : l.runId with
      | none => exact Or.inl rfl
      | some runId =>
        have hr : runId = snapshot.runId := by simpa [hid] using hrun
        exact Or.inr (by rw [hr])
    split at h
    next hold =>
      obtain ⟨rfl, rfl⟩ := Prod.mk.inj (Except.ok.inj h)
      exact .old hold
    next hnew =>
      have hlt : l.lastSnapshotSequence < snapshot.snapshotSequence := by omega
      rw [Nat.max_eq_right hlt.le] at h
      split at h
      next hwaiting =>
        obtain ⟨rfl, rfl⟩ := Prod.mk.inj (Except.ok.inj h)
        exact .first hlt hwaiting
      next hstarted =>
        obtain ⟨rfl, rfl⟩ := Prod.mk.inj (Except.ok.inj h)
        exact .later hlt hstarted hsame

theorem onSnapshot_state {l l' : SessionLifecycle} {snapshot : Snapshot}
    {directive : Option Directive} (h : l.onSnapshot snapshot = .ok (directive, l'))
    (hs : l.state ≠ .awaitingFirstState) : l'.state = l.state := by
  cases onSnapshot_followed h with
  | old => rfl
  | first _ hwaiting => exact absurd hwaiting hs
  | later => rfl

theorem onProtocolError_over {l : SessionLifecycle} (event : ProtocolErrorEvent) (h : l.Over) :
    (l.onProtocolError event).2.Over := by
  unfold onProtocolError
  split
  next => exact Or.inr rfl
  next =>
    split
    next => exact Or.inl rfl
    next => exact h

theorem onEvent_over {l l' : SessionLifecycle} {event : ServerEvent} {directive : Option Directive}
    (h : l.onEvent event = .ok (directive, l')) (ho : l.Over) : l'.Over := by
  cases event with
  | state snapshot =>
    have hs : l.state ≠ .awaitingFirstState := by rcases ho with hs | hs <;> simp [hs]
    have := onSnapshot_state h hs
    unfold Over
    rwa [this]
  | readiness ack =>
    have hs : l.state ≠ .awaitingReadiness := by rcases ho with hs | hs <;> simp [hs]
    have heq := congrArg Prod.snd (Except.ok.inj h)
    simp only [onReadiness, if_pos hs] at heq
    rwa [← heq]
  | protocolError event =>
    have heq := congrArg Prod.snd (Except.ok.inj h)
    rw [← show (l.onProtocolError event).2 = l' from heq]
    exact onProtocolError_over event ho
  | result result =>
    have heq := congrArg Prod.snd (Except.ok.inj h)
    rwa [← show l = l' from heq]

/-- Only a protocol error asks for a reconnect, and it ends the session first. -/
theorem onEvent_reconnect {l l' : SessionLifecycle} {event : ServerEvent} {reason : String}
    (h : l.onEvent event = .ok (some (.reconnect reason), l')) : l'.Over := by
  cases event with
  | state snapshot =>
    have h : l.onSnapshot snapshot = .ok (some (.reconnect reason), l') := h
    unfold onSnapshot at h
    simp only at h
    split_ifs at h <;> simp at h
  | readiness ack =>
    have heq : l.onReadiness ack = (some (.reconnect reason), l') := Except.ok.inj h
    unfold onReadiness at heq
    split_ifs at heq <;> simp at heq
  | protocolError event =>
    have heq : l.onProtocolError event = (some (.reconnect reason), l') := Except.ok.inj h
    unfold onProtocolError at heq
    split_ifs at heq
    · simp at heq
    · rw [← (Prod.mk.inj heq).2]
      exact Or.inl rfl
    · simp at heq
  | result result => simp [onEvent] at h

end SessionLifecycle

/-- Per-tick command budget. One throttle outlives the connections that use it. -/
structure CommandThrottle where
  limit : Nat
  tick : Nat := 0
  sent : Nat := 0
  blockedUntilTick : Nat := 0
  deriving DecidableEq, Repr

namespace CommandThrottle

def updateLimit (t : CommandThrottle) (limitPerTick : Nat) : CommandThrottle :=
  { t with limit := limitPerTick }

def rollTo (t : CommandThrottle) (tick : Nat) : CommandThrottle :=
  if tick ≠ t.tick then { t with tick := tick, sent := 0 } else t

def remaining (t : CommandThrottle) (tick : Nat) : Nat × CommandThrottle :=
  let t := t.rollTo tick
  if tick < t.blockedUntilTick then (0, t) else (t.limit - t.sent, t)

def recordSent (t : CommandThrottle) (tick : Nat) : CommandThrottle :=
  let t := t.rollTo tick
  { t with sent := t.sent + 1 }

/-- Honour RESULT_CODE_RATE_LIMITED's `retry_after_tick`. -/
def blockUntil (t : CommandThrottle) : Option Nat → CommandThrottle
  | none => t
  | some tick => { t with blockedUntilTick := max t.blockedUntilTick tick }

@[simp] theorem rollTo_tick (t : CommandThrottle) (tick : Nat) : (t.rollTo tick).tick = tick := by
  unfold rollTo
  split
  next => rfl
  next h => exact (not_not.mp h).symm

@[simp] theorem rollTo_limit (t : CommandThrottle) (tick : Nat) :
    (t.rollTo tick).limit = t.limit := by
  unfold rollTo
  split <;> rfl

@[simp] theorem rollTo_blockedUntilTick (t : CommandThrottle) (tick : Nat) :
    (t.rollTo tick).blockedUntilTick = t.blockedUntilTick := by
  unfold rollTo
  split <;> rfl

theorem rollTo_self (t : CommandThrottle) : t.rollTo t.tick = t := by simp [rollTo]

@[simp] theorem rollTo_rollTo (t : CommandThrottle) (tick : Nat) :
    (t.rollTo tick).rollTo tick = t.rollTo tick := by
  have h := rollTo_self (t.rollTo tick)
  rwa [rollTo_tick] at h

@[simp] theorem remaining_snd (t : CommandThrottle) (tick : Nat) :
    (t.remaining tick).2 = t.rollTo tick := by
  simp only [remaining]
  split <;> rfl

/-- A slot is left exactly when the block has passed and the tick's count is below the limit. -/
theorem remaining_pos_iff {t : CommandThrottle} {tick : Nat} :
    0 < (t.remaining tick).1 ↔ t.blockedUntilTick ≤ tick ∧ (t.rollTo tick).sent < t.limit := by
  simp only [remaining, rollTo_blockedUntilTick, rollTo_limit]
  split
  next h =>
    have hlate : ¬ t.blockedUntilTick ≤ tick := by omega
    simp [hlate]
  next h =>
    show 0 < t.limit - (t.rollTo tick).sent ↔ _
    omega

end CommandThrottle

structure PendingRequest where
  requestId : String
  fingerprint : String
  kind : String
  sentTick : Nat
  deriving DecidableEq, Repr

/-- Remembers what each id was used for, so retries stay exact. -/
structure PendingRequestTracker where
  sent : Dict String PendingRequest := Dict.empty
  opened : Finset String := ∅

namespace PendingRequestTracker

def register (t : PendingRequestTracker) (requestId fingerprint kind : String) (sentTick : Nat) :
    Except SessionError PendingRequestTracker :=
  let registered : PendingRequestTracker :=
    { sent := t.sent.set requestId ⟨requestId, fingerprint, kind, sentTick⟩
      opened := insert requestId t.opened }
  match t.sent.get? requestId with
  | none => .ok registered
  | some previous =>
    if previous.fingerprint ≠ fingerprint then
      .error (.requestIdConflict
        (s!"request_id {requestId} was already used for different content; " ++
        "use a new id instead"))
    else .ok registered

def isExactRetry (t : PendingRequestTracker) (requestId fingerprint : String) : Bool :=
  match t.sent.get? requestId with
  | none => false
  | some previous => previous.fingerprint = fingerprint

def resolve (t : PendingRequestTracker) (requestId : String) : PendingRequestTracker :=
  { t with opened := t.opened.erase requestId }

theorem isExactRetry_iff {t : PendingRequestTracker} {requestId fingerprint : String} :
    t.isExactRetry requestId fingerprint = true ↔
      ∃ previous, t.sent.get? requestId = some previous ∧ previous.fingerprint = fingerprint := by
  unfold isExactRetry
  split
  next h => simp [h]
  next previous h => simp [h]

/-- Registering succeeds for a new id and for an exact retry, and only for these. -/
theorem register_eq_ok_iff {t t' : PendingRequestTracker} {requestId fingerprint kind : String}
    {sentTick : Nat} :
    t.register requestId fingerprint kind sentTick = .ok t' ↔
      (t.sent.get? requestId = none ∨ t.isExactRetry requestId fingerprint = true) ∧
        t' = { sent := t.sent.set requestId ⟨requestId, fingerprint, kind, sentTick⟩
               opened := insert requestId t.opened } := by
  unfold register isExactRetry
  cases h : t.sent.get? requestId with
  | none => simp [eq_comm]
  | some previous =>
    by_cases hf : previous.fingerprint = fingerprint
    · simp [hf, eq_comm]
    · simp [hf]

theorem register_refused
    {t : PendingRequestTracker} {requestId fingerprint kind : String} {sentTick : Nat}
    {error : SessionError} (h : t.register requestId fingerprint kind sentTick = .error error) :
    t.sent.get? requestId ≠ none ∧ ¬ t.isExactRetry requestId fingerprint = true := by
  unfold register at h
  unfold isExactRetry
  cases hsent : t.sent.get? requestId with
  | none => simp [hsent] at h
  | some previous =>
    by_cases hf : previous.fingerprint = fingerprint
    · simp [hsent, hf] at h
    · simp [hf]

end PendingRequestTracker

end SpaceportBazaar
