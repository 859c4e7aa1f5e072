import SpaceportBazaar.Executor
import SpaceportBazaar.LinkOffers
import SpaceportBazaar.LinkQuota

namespace SpaceportBazaar

/-- What is built for an action is a command for the run under the request id, and an
offer stays an offer of the same goods. -/
theorem build_command {action : Action} {runId requestId : String} {message : ClientMessage}
    (h : build action runId requestId = .ok message) :
    ∃ body, message = .command protocolVersion runId requestId body ∧
    body.action.gives = action.gives := by
  cases action with
  | advertise selling seeking expiresTick =>
    obtain ⟨_, _, h⟩ := bind_eq_ok_iff.mp h
    cases h
    exact ⟨_, rfl, rfl⟩
  | offer recipientId give receive expiresTick =>
    obtain ⟨_, _, h⟩ := bind_eq_ok_iff.mp h
    obtain ⟨_, _, h⟩ := bind_eq_ok_iff.mp h
    obtain ⟨_, _, h⟩ := bind_eq_ok_iff.mp h
    cases h
    exact ⟨_, rfl, rfl⟩
  | accept offerId | withdraw objectId =>
    cases h
    exact ⟨_, rfl, rfl⟩
  | sync => cases h

namespace BazaarSession

variable {bodyFingerprint : List UInt8 → String} {s t : BazaarSession} {call : Nat} {draft : Draft}
  {kind requestId : String}

theorem freshCall_new (s : BazaarSession) : s.calls.get? s.freshCall = none := by
  have hbelow : ∀ {keys : List Nat} {n : Nat}, n ∈ keys →
      n < keys.foldr (fun n m => max (n + 1) m) 0 := by
    intro keys n hn
    induction keys with
    | nil => cases hn
    | cons k keys ih =>
      rcases List.mem_cons.mp hn with rfl | hn
      · exact Nat.lt_of_succ_le (Nat.le_max_left _ _)
      · exact (ih hn).trans_le (Nat.le_max_right _ _)
  by_contra hknown
  obtain ⟨c, hc⟩ := Option.ne_none_iff_exists'.mp hknown
  exact Nat.lt_irrefl _ (hbelow (Dict.mem_keys_iff.mpr ⟨c, hc⟩))

/-- When `send_command` says that it was blocked: the request still has a waiter, trading
is over, or a first send finds no slot. -/
def Blocks (bodyFingerprint : List UInt8 → String) (s : BazaarSession) (draft : Draft)
    (requestId : String) : Prop :=
  ∃ payload, s.encode draft = .ok payload ∧
    (s.commandWaiters.contains requestId = true ∨ s.eligible = none ∨
    ∃ snapshot, s.eligible = some snapshot ∧
      s.tracker.isExactRetry requestId (bodyFingerprint payload) = false ∧
      (s.throttle.remaining snapshot.tick).1 = 0)

theorem encode_error {error : SessionError} (h : s.encode draft = .error error) (text : String) :
    error ≠ .commandBlocked text := by
  rintro rfl
  simp only [encode, encodeClientMessage] at h
  split at h
  next => cases h
  next => cases h
  next =>
    split at h
    next => cases h
    next => split at h <;> cases h

theorem register_error {tracker : PendingRequestTracker} {fingerprint : String} {tick : Nat}
    {error : SessionError} (h : tracker.register requestId fingerprint kind tick = .error error)
    (text : String) : error ≠ .commandBlocked text := by
  rintro rfl
  unfold PendingRequestTracker.register at h
  split at h
  next => cases h
  next => split at h <;> cases h

theorem transmit_unblocked {payload : List UInt8} {retry : Bool} {tick : Nat} (text : String) :
    SessionOutput.reply call (.error (.commandBlocked text)) ∉
      (s.transmit call requestId payload retry tick).1 := by
  cases retry <;> cases hconnected : s.connected <;> simp [transmit, charge, hconnected]

theorem sendCommand_blocked {outs : List SessionOutput} {text : String}
    (called : s.sendCommand bodyFingerprint call draft kind requestId = (outs, t))
    (hmem : SessionOutput.reply call (.error (.commandBlocked text)) ∈ outs) :
    Blocks bodyFingerprint s draft requestId := by
  have h : SessionOutput.reply call (.error (.commandBlocked text)) ∈
      (s.sendCommand bodyFingerprint call draft kind requestId).1 := by rwa [called]
  have hrefuse :
      ∀ {u : BazaarSession} {error : SessionError}, (∀ text, error ≠ .commandBlocked text) →
      SessionOutput.reply call (.error (.commandBlocked text)) ∉ (u.refuse call error).1 := by
    intro u error hne hmem
    simp only [refuse, List.mem_singleton, SessionOutput.reply.injEq, Except.error.injEq,
      true_and] at hmem
    exact hne text hmem.symm
  unfold sendCommand at h
  split at h
  next error herror => exact absurd h (hrefuse (encode_error herror))
  next payload hpayload =>
    refine ⟨payload, hpayload, ?_⟩
    simp only at h
    split at h
    next hpending => exact .inl hpending
    next =>
      split at h
      next hnone => exact .inr (.inl hnone)
      next snapshot hsnapshot =>
        split at h
        next hslot =>
          refine .inr (.inr ⟨snapshot, hsnapshot, ?_⟩)
          cases hretry : s.tracker.isExactRetry requestId (bodyFingerprint payload) with
          | true => simp [hretry, checkBudget_retry] at hslot
          | false => exact ⟨rfl, by simpa [hretry, checkBudget_new hsnapshot] using hslot⟩
        next =>
          split at h
          next error herror => exact absurd h (hrefuse (register_error herror))
          next => exact absurd h (transmit_unblocked text)

/-- A call to send a command is answered at once only if it is refused. -/
theorem commanding_cases {outs : List SessionOutput}
    (h : Commanding bodyFingerprint s call draft kind requestId outs t) :
    (∃ error throttle, outs = [.reply call (.error error)] ∧ t = { s with throttle := throttle }) ∨
      (∀ j reply, SessionOutput.reply j reply ∉ outs) ∧
        ∃ c, t.calls.get? call = some c ∧ c.awaited = .command requestId := by
  cases h with
  | refused => exact .inl ⟨_, _, rfl, rfl⟩
  | retried | charged => exact .inr ⟨by simp, _, Dict.get?_set_self _ _ _, rfl⟩

/-- The confirmation is at hand, or it is awaited like any newer state. -/
theorem waitForResultSnapshot_cases (s : BazaarSession) (call : Nat) (result : CommandResult)
    (sequence : Nat) :
    (∃ snapshot, s.latest = some snapshot ∧ result ∈ snapshot.requestResults ∧
      s.waitForResultSnapshot call result sequence = (some snapshot, s)) ∨
      ∃ minSequence t, s.waitForResultSnapshot call result sequence = (none, t) ∧
        s.waitForSnapshot call minSequence = ([], t) ∧
        t.calls.get? call = some { awaited := .snapshot minSequence, stage := .waiting } := by
  have hwaits :
      ∀ minSequence, (∀ held, s.latest = some held → ¬ minSequence ≤ held.snapshotSequence) →
      ∃ t, s.waitForSnapshot call minSequence = ([], t) ∧
        t.calls.get? call = some { awaited := .snapshot minSequence, stage := .waiting } := by
    intro minSequence hbelow
    simp only [waitForSnapshot]
    split
    next => exact ⟨_, rfl, Dict.get?_set_self _ _ _⟩
    next held hheld =>
      rw [if_neg (hbelow held hheld)]
      exact ⟨_, rfl, Dict.get?_set_self _ _ _⟩
  by_cases hready : ∃ held, s.latest = some held ∧ sequence ≤ held.snapshotSequence
  · obtain ⟨held, hheld, hle⟩ := hready
    have hwait : s.waitForSnapshot call sequence = ([.reply call (.ok (.snapshot held))], s) := by
      simp [waitForSnapshot, hheld, hle]
    by_cases hmem : result ∈ held.requestResults
    · exact .inl ⟨held, hheld, hmem, by simp [waitForResultSnapshot, hwait, hmem]⟩
    · obtain ⟨t, ht, hentered⟩ := hwaits (held.snapshotSequence + 1) (fun held' hheld' => by
        obtain rfl := Option.some.inj (hheld.symm.trans hheld')
        omega)
      exact .inr ⟨_, t, by simp [waitForResultSnapshot, hwait, hmem, ht], ht, hentered⟩
  · obtain ⟨t, ht, hentered⟩ := hwaits sequence (fun held hheld hle => hready ⟨held, hheld, hle⟩)
    exact .inr ⟨_, t, by simp [waitForResultSnapshot, ht], ht, hentered⟩

end BazaarSession

namespace Link

open BazaarSession (Replied Answered Backed)

variable {w : Wiring} {l t : Link} {requestId : String} {r : CommandResult}

/-- A refused command posted nothing. -/
theorem freed_of_refusal (htold : Says w l.server (.result r)) (hrefused : r.ok = false) :
    Freed w l r.requestId := by
  intro hstation
  rcases htold with ⟨_, herror, _⟩ | ⟨p, hp, hstored⟩
  · cases herror
  · obtain ⟨x, hx, rfl⟩ := hstored (Option.some.inj (hp.symm.trans hstation))
    exact .inr ⟨x, hx, .inl hrefused⟩

/-- A protocol error about a request says that the server has no room for it, ever. -/
theorem freed_of_error {error : ProtocolErrorEvent} (htold : Says w l.server (.protocolError error))
    (hid : error.requestId = some requestId) : Freed w l requestId := by
  intro hstation
  rcases htold with ⟨error', herror, hnone⟩ | ⟨p, hp, hdoomed⟩
  · cases herror
    cases hnone.symm.trans hid
  · exact .inl (hdoomed (Option.some.inj (hp.symm.trans hstation)) requestId hid)

/-- A result in a state the session has is in sight. -/
theorem freed_of_state {snapshot : Snapshot} (htold : Says w l.server (.state snapshot))
    (hr : r ∈ snapshot.requestResults) (hheld : Reaches l.session snapshot.worldVersion) :
    Freed w l r.requestId := by
  intro hstation
  obtain ⟨p, hp, hreflects⟩ := htold.state
  obtain ⟨⟨x, hx, rfl⟩, hdated⟩ :=
    (hreflects (Option.some.inj (hp.symm.trans hstation))).results r hr
  obtain ⟨held, hheld, hle⟩ := hheld
  exact .inr ⟨x, hx, .inr ⟨held, hheld, hdated.trans hle⟩⟩

/-- A call to send a command puts nothing else on the socket. -/
theorem Informed.sends_own (h : Informed w l)
    {call : Nat} {runId kind other : String} {body body' : CommandBody} {outs : List SessionOutput}
    {s' : BazaarSession} {payload : List UInt8} (hrun : l.session.lifecycle.runId = some runId)
    (hs : BazaarSession.Step w.bodyFingerprint l.session
      (.sendCommand call (.complete (.command protocolVersion runId requestId body)) kind requestId,
        outs) s') (hpayload : payload ∈ outs.filterMap outgoing)
    (hcommand : IsCommand other body' payload) :
    other = requestId ∧ body' = body := by
  cases outgoing_cases h.session hs hpayload with
  | ready took => cases took
  | command called clears =>
    cases called
    exact hcommand.inj (h.sends_command clears rfl hrun).2

/-- Waiting for a newer state is a step of the link. -/
theorem waits_step {call minSequence : Nat}
    {session : BazaarSession} (new : l.session.calls.get? call = none)
    (hwait : l.session.waitForSnapshot call minSequence = ([], session)) :
    Step w l (.session (.waitForSnapshot call minSequence), [], [])
      { l with session := session } := by
  have hcontains : l.session.calls.contains call = false := by simp [Dict.contains, new]
  show step? w l _ = _
  simp [step?, sessionTurn, BazaarSession.step?, hcontains, hwait]

end Link

namespace Trading

open Link (Backs Says Freed Reaches Used)
open BazaarSession (Replied Answered)

variable {w : Wiring} {t t' : Trading} {x : Execution} {outcome : BazaarSession.CommandOutcome}
  {result : CommandResult}

/-- The call an execution awaits is entered, for its own request. -/
def Awaits (w : Wiring) (l : Link) (x : Execution) : Prop :=
  ∃ c, l.session.calls.get? x.call = some c ∧
    match x.awaiting with
    | .answer => c.awaited = .command x.requestId
    | .confirmation _ result => result.requestId = x.requestId ∧ Says w l.server (.result result)

structure Ledger (w : Wiring) (t : Trading) : Prop where
  backs : Backs w t.link t.executor.commitments
  awaits : ∀ x, t.executor.current = some x → Awaits w t.link x

theorem conclude_ledger (h : Backs w t.link t.executor.commitments)
    (hfreed : Freed w t.link x.requestId) :
    Ledger w (t.conclude x outcome).2 :=
  ⟨h.release hfreed, fun _ hx => by cases hx⟩

theorem confirm_ledger (h : Backs w t.link t.executor.commitments) (faithful : w.Faithful)
    (hid : result.requestId = x.requestId) (htold : Says w t.link.server (.result result))
    (sequence : Nat) :
    Ledger w (t.confirm x outcome result sequence).2 := by
  rcases t.link.session.waitForResultSnapshot_cases t.link.session.freshCall result sequence with
    ⟨snapshot, hlatest, hmem, heq⟩ | ⟨minSequence, session, heq, hwait, hentered⟩
  · simp only [confirm, heq]
    refine conclude_ledger h ?_
    rw [← hid]
    exact Link.freed_of_state (h.informed.heard.latest snapshot hlatest) hmem
      ⟨snapshot, hlatest, le_rfl⟩
  · simp only [confirm, heq]
    have hstep : Link.Step w t.link _ _ := Link.waits_step t.link.session.freshCall_new hwait
    have hbuilt : ∀ event outs, Link.sessionLabel
        (.session (.waitForSnapshot t.link.session.freshCall minSequence), [], []) =
        some (event, outs) → Link.Built t.link.session event := by
      rintro event outs hlabel
      cases hlabel
      exact fun _ _ _ _ hsend => by cases hsend
    obtain ⟨hbacks, _⟩ := h.step faithful hbuilt (by simp) hstep
    refine ⟨hbacks, fun y hy => ?_⟩
    obtain rfl := Option.some.inj hy
    exact ⟨_, hentered, hid, htold⟩

theorem recordOutcome_commitments (e : Executor) (action : Action)
    (outcome : BazaarSession.CommandOutcome) :
    (e.recordOutcome action outcome).commitments = e.commitments := by
  unfold Executor.recordOutcome
  split
  next => split <;> rfl
  next => rfl

theorem freed_of_outcome {l : Link} (hid : outcome.requestId = x.requestId)
    (hbacked : BazaarSession.Backed (Says w l.server) outcome) (hrefused : outcome.ok = false) :
    Freed w l x.requestId := by
  rw [← hid]
  rcases hbacked with ⟨r, hr, hrid, htold⟩ | ⟨_, error, herror, htold⟩
  · rw [← hrid]
    exact Link.freed_of_refusal htold
      (by simpa [BazaarSession.CommandOutcome.ok, hr] using hrefused)
  · exact Link.freed_of_error htold herror

theorem answered_ledger (h : Backs w t.link t.executor.commitments) (faithful : w.Faithful)
    (hid : outcome.requestId = x.requestId) (hbacked :
      BazaarSession.Backed (Says w t.link.server) outcome) : Ledger w (t.answered x outcome).2 := by
  have hbacks : Backs w t.link (if outcome.ok then t.executor.recordOutcome x.action outcome
      else (t.executor.recordOutcome x.action outcome).release x.requestId).commitments := by
    cases hok : outcome.ok with
    | true => simpa [recordOutcome_commitments] using h
    | false => simpa [Executor.release, recordOutcome_commitments]
      using h.release (freed_of_outcome hid hbacked hok)
  unfold answered
  dsimp only
  generalize (if outcome.ok then t.executor.recordOutcome x.action outcome
    else (t.executor.recordOutcome x.action outcome).release x.requestId) = executor at hbacks ⊢
  split
  next hnone =>
    exact conclude_ledger hbacks
      (freed_of_outcome hid hbacked (by simp [BazaarSession.CommandOutcome.ok, hnone]))
  next result hresult =>
    rcases hbacked with ⟨r, hr, hrid, htold⟩ | ⟨hnone, _⟩
    · obtain rfl := Option.some.inj (hresult.symm.trans hr)
      exact confirm_ledger (t := ⟨t.link, executor⟩) hbacks faithful (hrid.trans hid) htold 1
    · cases hresult.symm.trans hnone

theorem fail_unblocked {e : Executor} {requestId : String} {error : SessionError}
    (h : ∀ text, error ≠ .commandBlocked text) :
    e.fail requestId error = { e with current := none } := by
  cases error with
  | commandBlocked text => exact absurd rfl (h text)
  | _ => rfl

/-- A call that was under way is never told it was blocked. -/
theorem resume_ledger {reply : Except SessionError BazaarSession.Answer}
    (h : Ledger w t) (faithful : w.Faithful)
    (hx : t.executor.current = some x) (replied : ∀ c, t.link.session.calls.get? x.call = some c →
      Replied (Says w t.link.server) t.link.session.latest c.awaited reply) :
    Ledger w (t.resume x reply).2 := by
  obtain ⟨c, hc, hawaits⟩ := h.awaits x hx
  have hreplied := replied c hc
  cases reply with
  | error error =>
    simp only [resume, fail_unblocked hreplied]
    exact ⟨h.backs, fun y hy => by cases hy⟩
  | ok answer =>
    unfold resume
    dsimp only
    split
    next outcome hawaiting =>
      rw [hawaiting] at hawaits
      obtain ⟨hawaited, hbacked⟩ := hreplied
      rw [hawaits] at hawaited
      exact answered_ledger h.backs faithful
        (BazaarSession.Awaited.command.inj hawaited).symm hbacked
    next outcome result snapshot hawaiting =>
      rw [hawaiting] at hawaits
      obtain ⟨hid, htold⟩ := hawaits
      obtain ⟨hstate, hreaches⟩ := hreplied
      split
      next hmem =>
        refine conclude_ledger h.backs ?_
        rw [← hid]
        exact Link.freed_of_state hstate hmem hreaches
      next => exact confirm_ledger h.backs faithful hid htold _
    next => exact h

theorem replyTo_eq_some {call : Nat} {o : SessionOutput}
    {reply : Except SessionError BazaarSession.Answer} :
    replyTo call o = some reply ↔ o = .reply call reply := by
  cases o with
  | reply c answer =>
    simp only [replyTo]
    split
    next hc => simp [hc]
    next hc => simp [hc]
  | ready | charged | transmitted => simp [replyTo]

/-- What the step answers the execution goes on with. -/
theorem proceed_ledger {outs : List SessionOutput} (h : Ledger w t) (faithful : w.Faithful)
    (replied : ∀ x reply c, t.executor.current = some x → SessionOutput.reply x.call reply ∈ outs →
      t.link.session.calls.get? x.call = some c →
      Replied (Says w t.link.server) t.link.session.latest c.awaited reply) :
    Ledger w (t.proceed outs).2 := by
  unfold proceed
  split
  next => exact h
  next x hx =>
    split
    next => exact h
    next reply hreply =>
      obtain ⟨o, ho, hto⟩ := List.exists_of_findSome?_eq_some hreply
      rw [replyTo_eq_some.mp hto] at ho
      exact resume_ledger h faithful hx (fun c hc => replied x reply c hx ho hc)

/-- An `execute` call under an id that was sent and is still held: it is an offer of no less,
if it is one, and it is not blocked. -/
def Careful (w : Wiring) (t : Trading) (event : Event) : Prop :=
  ∀ action requestId runId message hold,
    event = .execute action requestId → t.link.session.lifecycle.runId = some runId →
    build action runId requestId = .ok message →
    t.executor.commitments.inflight.get? requestId = some hold →
    Used t.link.session requestId → (∀ give, action.gives = some give → hold ≤ give) ∧
      ¬ BazaarSession.Blocks w.bodyFingerprint t.link.session (.complete message) requestId

theorem awaits_step {l l' : Link} {lab : Link.Label} (h : Awaits w l x)
    (informed : Link.Informed w l) (faithful : w.Faithful) (hs : Link.Step w l lab l')
    (keeps : BazaarSession.Keeps l.session l'.session) :
    Awaits w l' x := by
  obtain ⟨c, hc, hawaits⟩ := h
  obtain ⟨c', hc', hawaited⟩ := keeps x.call c hc
  refine ⟨c', hc', ?_⟩
  split at hawaits
  next => exact hawaited.trans hawaits
  next => exact ⟨hawaits.1, informed.says_step faithful hs hawaits.2⟩

theorem link_ledger {event : Link.Event} {outs : List Output × List SessionOutput}
    {l' : Link} (h : Ledger w t) (faithful : w.Faithful) (plain : sendsCommand event = false)
    (hs : Link.Step w t.link (event, outs) l') :
    Ledger w (({ t with link := l' } : Trading).proceed outs.2).2 := by
  have hplain : ∀ ev souts, Link.sessionLabel (event, outs) = some (ev, souts) →
      ∀ call draft kind requestId, ev ≠ .sendCommand call draft kind requestId := by
    rintro ev souts hlabel call draft kind requestId rfl
    cases event with
    | server | uplink | downlink => cases hlabel
    | session ev =>
      cases hlabel
      cases plain
  obtain ⟨hbacks, hkeeps⟩ := h.backs.step faithful
    (fun ev souts hlabel _ _ _ _ hsend => absurd hsend (hplain ev souts hlabel _ _ _ _))
    (fun payload hpayload _ _ _ hcommand =>
      absurd hcommand (Link.plain_sends h.backs.informed hs hplain hpayload)) hs
  have hledger : Ledger w { t with link := l' } :=
    ⟨hbacks, fun x hx => awaits_step (h.awaits x hx) h.backs.informed faithful hs hkeeps⟩
  refine proceed_ledger hledger faithful fun x reply c hx hreply hc => ?_
  obtain ⟨c₀, hc₀, _⟩ := h.awaits x hx
  obtain ⟨c', hc', hawaited⟩ := hkeeps x.call c₀ hc₀
  obtain rfl := Option.some.inj (hc.symm.trans hc')
  rw [hawaited]
  exact h.backs.informed.replied hs hc₀ hreply

/-- An offer is held before it is sent. -/
theorem register_backs
    {e : Executor} {l : Link} {action : Action} {requestId : String} (h : Backs w l e.commitments)
    (covers : ∀ hold, e.commitments.inflight.get? requestId = some hold → Used l.session requestId →
      ∀ give, action.gives = some give → hold ≤ give) :
    Backs w l (e.register action requestId).commitments ∧
      ∀ give, action.gives = some give →
      (e.register action requestId).commitments.Holds requestId give := by
  cases action with
  | offer recipientId give receive expiresTick =>
    refine ⟨h.register (fun hold hhold hused => covers hold hhold hused give rfl),
      fun give' hgive => ?_⟩
    cases hgive
    exact ⟨give, Dict.get?_set_self _ _ _, fun r => le_rfl⟩
  | advertise | accept | withdraw | sync => exact ⟨h, fun _ hgive => by cases hgive⟩

theorem register_other {e : Executor} {action : Action} {requestId other : String} {give : Bundle}
    (hne : other ≠ requestId) (h : e.commitments.Holds other give) :
    (e.register action requestId).commitments.Holds other give := by
  cases action with
  | offer => exact CommitmentTracker.holds_registerInflight.mpr (by rwa [if_neg hne])
  | advertise | accept | withdraw | sync => exact h

/-- A call that is refused at once leaves its hold, unless it was blocked: then nothing
is held under its id. -/
theorem fail_ledger {e : Executor} {l : Link} {action : Action} {requestId : String}
    {error : SessionError} (hregistered : Backs w l (e.register action requestId).commitments)
    (h : Backs w l e.commitments) (blocked : ∀ text, error = .commandBlocked text → ∀ hold,
      e.commitments.inflight.get? requestId = some hold →
      ¬ Used l.session requestId) :
    Ledger w ⟨l, Executor.fail
      { e.register action requestId with current := some x } requestId error⟩ := by
  by_cases hblocked : ∃ text, error = .commandBlocked text
  · obtain ⟨text, rfl⟩ := hblocked
    refine ⟨h.mono fun other give hused _ hheld => ?_, fun y hy => by cases hy⟩
    have hne : other ≠ requestId := by
      rintro rfl
      obtain ⟨hold, hhold, _⟩ := hheld
      exact blocked text rfl hold hhold hused
    exact CommitmentTracker.holds_resolveInflight.mpr ⟨hne, register_other hne hheld⟩
  · rw [fail_unblocked (fun text heq => hblocked ⟨text, heq⟩)]
    exact ⟨hregistered, fun y hy => by cases hy⟩

/-- The call goes to the session with its stock held. -/
theorem sent_ledger {action : Action}
    {runId requestId : String} {body : CommandBody} {outs : List Output × List SessionOutput}
    {l' : Link} (h : Backs w t.link t.executor.commitments)
    (faithful : w.Faithful) (hrun : t.link.session.lifecycle.runId = some runId)
    (hgives : body.action.gives = action.gives) (covers : ∀ hold,
      t.executor.commitments.inflight.get? requestId = some hold → Used t.link.session requestId →
      (∀ give, action.gives = some give → hold ≤ give) ∧
      ¬ BazaarSession.Blocks w.bodyFingerprint t.link.session
        (.complete (.command protocolVersion runId requestId body)) requestId)
      (hs : Link.Step w t.link (.session (.sendCommand t.link.session.freshCall
      (.complete (.command protocolVersion runId requestId body)) action.kind requestId), outs)
        l') :
    Ledger w (proceed { link := l', executor := { t.executor.register action requestId with
      current := some ⟨action, requestId, t.link.session.freshCall, .answer⟩ } } outs.2).2 := by
  obtain ⟨hregistered, hholds⟩ :=
    register_backs h (fun hold hhold hused => (covers hold hhold hused).1)
  have hbuilt : ∀ event souts, Link.sessionLabel (.session (.sendCommand t.link.session.freshCall
      (.complete (.command protocolVersion runId requestId body)) action.kind requestId), outs) =
      some (event, souts) →
      Link.Built t.link.session event := by
    rintro event souts hlabel call draft kind requestId' rfl
    cases hlabel
    exact ⟨runId, body, rfl, hrun⟩
  cases Link.step_advances hs with
  | server label => cases label
  | @session event label step =>
    cases label
    have hsends : ∀ payload ∈ outs.2.filterMap Link.outgoing, ∀ other body' give,
        Link.IsCommand other body' payload →
        body'.action.gives = some give →
        (t.executor.register action requestId).commitments.Holds other give := by
      intro payload hpayload other body' give hcommand hgive
      obtain ⟨rfl, rfl⟩ := h.informed.sends_own hrun step hpayload hcommand
      exact hholds give (hgives.symm.trans hgive)
    obtain ⟨hbacks, _⟩ := hregistered.step faithful hbuilt hsends hs
    cases BazaarSession.step_enabled step with
    | sendCommand _ called =>
      have hcommanding :=
        BazaarSession.sendCommand_commanding w.bodyFingerprint t.link.session.freshCall
        (.complete (.command protocolVersion runId requestId body)) action.kind requestId
          h.informed.session.ineligible
      rw [called] at hcommanding
      rcases BazaarSession.commanding_cases hcommanding with ⟨error, throttle, houts, hsession⟩ |
        ⟨hsilent, c, hc, hawaited⟩
      · have houts : outs.2 = [.reply t.link.session.freshCall (.error error)] := houts
        have hsession : l'.session = { t.link.session with throttle := throttle } := hsession
        have hproceed :
            (proceed { link := l', executor := { t.executor.register action requestId with
            current := some ⟨action, requestId, t.link.session.freshCall, .answer⟩ } } outs.2).2 =
            ⟨l', Executor.fail { t.executor.register action requestId with
              current :=
                some ⟨action, requestId, t.link.session.freshCall, .answer⟩ } requestId error⟩ := by
          simp [proceed, houts, replyTo, resume]
        rw [hproceed]
        obtain ⟨hbefore, _⟩ := h.step faithful hbuilt (by simp [houts, Link.outgoing]) hs
        refine fail_ledger hbacks hbefore ?_
        rintro text rfl hold hhold hused
        rw [hsession] at hused
        have hmem : SessionOutput.reply t.link.session.freshCall
            (.error (.commandBlocked text)) ∈ outs.2 := by
          rw [houts]
          exact List.mem_singleton_self _
        exact (covers hold hhold hused).2 (BazaarSession.sendCommand_blocked called hmem)
      · refine proceed_ledger ⟨hbacks, fun x hx => ?_⟩ faithful fun x reply c hx hreply =>
          absurd hreply (hsilent _ _)
        obtain rfl := Option.some.inj hx
        exact ⟨c, hc, hawaited⟩

theorem execute_ledger {action : Action} {requestId : String} {out : Outputs}
    (h : Ledger w t) (faithful : w.Faithful) (careful : Careful w t (.execute action requestId))
    (hs : t.execute w action requestId = some (out, t')) :
    Ledger w t' := by
  unfold execute at hs
  split at hs
  next =>
    cases hs
    exact h
  next runId hrun =>
    split at hs
    next =>
      cases hs
      exact h
    next message hbuild =>
      obtain ⟨⟨outs, l'⟩, hlink, heq⟩ := Option.map_eq_some_iff.mp hs
      cases heq
      have hcareful := fun hold => careful action requestId runId message hold rfl hrun hbuild
      obtain ⟨body, rfl, hgives⟩ := build_command hbuild
      exact sent_ledger h.backs faithful hrun hgives hcareful hlink

theorem step_ledger {label : Label} (h : Ledger w t) (faithful : w.Faithful)
    (careful : Careful w t label.1) (hs : Step w t label t') : Ledger w t' := by
  obtain ⟨event, out⟩ := label
  have hs : step? w t event = some (out, t') := hs
  cases event with
  | link event =>
    simp only [step?] at hs
    split at hs
    next => cases hs
    next hplain =>
      obtain ⟨⟨outs, l'⟩, hlink, heq⟩ := Option.map_eq_some_iff.mp hs
      cases heq
      exact link_ledger h faithful (by simpa using hplain) hlink
  | execute action requestId =>
    simp only [step?] at hs
    split at hs
    next => cases hs
    next => exact execute_ledger h faithful careful hs

section Runs

variable {config : Config} {throttle : CommandThrottle} {hist : List Label}

theorem init_ledger (w : Wiring) (config : Config) (throttle : CommandThrottle) :
    Ledger w (init config throttle) :=
  ⟨Link.init_backs w config throttle, fun _ hx => by cases hx⟩

theorem run_ledger (faithful : w.Faithful) (run : Machine.GuardedRun (fun _ t l => Careful w t l.1)
      (Step w) (init config throttle) hist t) : Ledger w t :=
  run.invariant (I := fun _ t => Ledger w t) (init_ledger w config throttle)
    (fun _ _ _ _ h careful hs => step_ledger h faithful careful hs)

/-- Whatever is decided from the newest snapshot, every open offer of ours is in it or held,
and what is available to commit leaves what they promise alone. -/
theorem run_counted (faithful : w.Faithful)
    (run : Machine.GuardedRun (fun _ t l => Careful w t l.1) (Step w) (init config throttle) hist t)
    {snapshot : Snapshot} (hlatest : t.link.session.latest = some snapshot) :
    (∀ o ∈ Link.openOffers w t.link.server.economy, o ∈ snapshot.outgoingOpenOffers ∨
      ∃ hold ∈ t.executor.commitments.inflight.values, o.give ≤ hold) ∧
    ∀ r, (t.executor.commitments.availableToCommit snapshot).get r ≤ snapshot.me.inventory.get r -
      ((Link.openOffers w t.link.server.economy).map Offer.give).sum.get r := by
  have hbacks := (run_ledger faithful run).backs
  refine ⟨fun o ho => ?_, fun r => ?_⟩
  · refine (hbacks.counted hlatest ho).imp id ?_
    rintro ⟨requestId, _, hold, hhold, hle⟩
    exact ⟨hold, Dict.mem_values_iff.mpr ⟨requestId, hhold⟩, hle⟩
  · rw [CommitmentTracker.availableToCommit_get]
    exact Nat.sub_le_sub_left (hbacks.promised_le hlatest r) _

end Runs

section Samples

/-- The parser by its contract, read off a table where it can be. -/
noncomputable def parseListed (messages : List ClientMessage) (payload : List UInt8) : Payload :=
  match messages.find? (fun message => message.serializeToString = payload) with
  | some message => .message message
  | none => ClientMessage.parseBytes payload

theorem parseListed_serializeToString (messages : List ClientMessage) (message : ClientMessage) :
    parseListed messages message.serializeToString = .message message := by
  unfold parseListed
  split
  next found hfound =>
    have hbytes := List.find?_some hfound
    have hfound : found = message := ClientMessage.serializeToString_inj (by simpa using hbytes)
    rw [hfound]
  next => exact ClientMessage.parseBytes_serializeToString message

def waterFor (quantity : Nat) : Action := .offer "P02" ⟨quantity, 0, 0⟩ ⟨0, 1, 0⟩ 5

noncomputable def sampleWiring : Wiring where
  connection := 0
  stationId := "P01"
  sha256 := plainDigest
  bodyFingerprint := plainDigest
  parse := parseListed
    [.ready "2.0" "sim" true 1, .command "2.0" "sim" "r1" (.offer "P02" ⟨6, 0, 0⟩ ⟨0, 1, 0⟩ 5)]

theorem sampleWiring_faithful : sampleWiring.Faithful :=
  ⟨parseListed_serializeToString _, plainDigest_injective⟩

/-- A turn of the link, or a call of the executor. -/
inductive Turn
  | link (turn : Link.Turn)
  | execute (action : Action) (requestId : String)

def Turn.event (t : Trading) : Turn → Option Event
  | .link turn => (turn.event t.link).map Event.link
  | .execute action requestId => some (.execute action requestId)

def schedule (w : Wiring) : Trading → List Turn → List Event
  | _, [] => []
  | t, turn :: turns =>
    match turn.event t with
    | none => []
    | some event => event :: ((step? w t event).map (fun r => schedule w r.2 turns)).getD []

/-- The offer is sent and processed, and its call gives up before the answer is in. -/
def givenUp : List Turn :=
  Link.greeting.map Turn.link ++ [.execute (waterFor 6) "r1"] ++
    [.session (.payloadSent 0 true), .up, .session (.timeout 0), .session (.resume 0)].map Turn.link

def start : Trading := init BazaarServer.pairConfig ⟨4, 0, 0, 0⟩

/-- Neither the snapshot nor a hold counts the offer, and its stock passes for free. -/
def Uncounted (t : Trading) (snapshot : Snapshot) (o : Offer) : Prop :=
  o ∉ snapshot.outgoingOpenOffers ∧
    (∀ hold ∈ t.executor.commitments.inflight.values, ¬ o.give ≤ hold) ∧
    ∃ r ∈ Resource.all,
      snapshot.me.inventory.get r - o.give.get r <
      (t.executor.commitments.availableToCommit snapshot).get r

instance (t : Trading) (snapshot : Snapshot) (o : Offer) : Decidable (Uncounted t snapshot o) :=
  inferInstanceAs (Decidable (o ∉ snapshot.outgoingOpenOffers ∧
    (∀ hold ∈ t.executor.commitments.inflight.values, ¬ o.give ≤ hold) ∧ ∃ r ∈ Resource.all,
      snapshot.me.inventory.get r - o.give.get r <
      (t.executor.commitments.availableToCommit snapshot).get r))

/-- Then another client of the planet connects, and the session is fenced. -/
def fenced : List Turn :=
  givenUp ++ [.server (.connect 1 true "key-1"), .server (.resume 1), .down, .down].map Turn.link

/-- The call that gave up is made again, exactly: trading is over, so it is blocked, and the
hold goes though the offer is open. -/
theorem blocked_retry_uncounted :
    sampleWiring.Faithful ∧ ∃ hist t snapshot o, Machine.Run (Step sampleWiring) start hist t ∧
      t.executor.current.isNone = true ∧ t.link.session.latest = some snapshot ∧
      o ∈ Link.openOffers sampleWiring t.link.server.economy ∧ Uncounted t snapshot o := by
  refine ⟨sampleWiring_faithful, ?_⟩
  have hall : (Machine.replay (step? sampleWiring) start
      (schedule sampleWiring start (fenced ++ [.execute (waterFor 6) "r1"]))).map (fun r =>
        r.2.executor.current.isNone && r.2.link.session.latest.any (fun snapshot =>
          (Link.openOffers sampleWiring r.2.link.server.economy).any
            (fun o => Uncounted r.2 snapshot o))) =
      some true := by decide +kernel
  obtain ⟨⟨hist, t⟩, hreplay, hcheck⟩ := Option.map_eq_some_iff.mp hall
  obtain ⟨hidle, hcheck⟩ := (Bool.and_eq_true _ _).mp hcheck
  obtain ⟨snapshot, hlatest, hcheck⟩ := (Option.any_eq_true _ _).mp hcheck
  obtain ⟨o, ho, huncounted⟩ := List.any_eq_true.mp hcheck
  exact ⟨hist, t, snapshot, o, Machine.run_of_replay hreplay, hidle, hlatest, ho,
    of_decide_eq_true huncounted⟩

/-- No request id is used while something is held under it. -/
def fresh? (t : Trading) : Event → Bool
  | .execute _ requestId => (t.executor.commitments.inflight.get? requestId).isNone
  | .link _ => true

theorem fresh?_sound (_ : List Label) (t : Trading) (l : Label) (h : fresh? t l.1 = true) :
    Careful sampleWiring t l.1 := by
  rintro action requestId runId message hold hevent _ _ hhold _
  rw [hevent] at h
  simp [fresh?, hhold] at h

theorem run_counted_given_up :
    ∃ hist t snapshot, Machine.GuardedRun (fun _ t l => Careful sampleWiring t l.1)
      (Step sampleWiring) start hist t ∧
      t.link.session.latest = some snapshot ∧
      (Link.openOffers sampleWiring t.link.server.economy).length = 1 ∧
      (∀ o ∈ Link.openOffers sampleWiring t.link.server.economy, o ∈ snapshot.outgoingOpenOffers ∨
        ∃ hold ∈ t.executor.commitments.inflight.values, o.give ≤ hold) := by
  have hall : (Machine.replayGuarded (step? sampleWiring) (fun _ t l => fresh? t l.1) [] start
      (schedule sampleWiring start givenUp)).map (fun r => r.2.link.session.latest.isSome &&
        (Link.openOffers sampleWiring r.2.link.server.economy).length = 1) =
        some true := by decide +kernel
  obtain ⟨⟨hist, t⟩, hreplay, hcheck⟩ := Option.map_eq_some_iff.mp hall
  obtain ⟨hlatest, hopen⟩ := (Bool.and_eq_true _ _).mp hcheck
  obtain ⟨snapshot, hlatest⟩ := Option.isSome_iff_exists.mp hlatest
  have run := Machine.guardedRun_of_replay fresh?_sound Machine.GuardedRun.start hreplay
  exact ⟨hist, t, snapshot, run, hlatest,
    by simpa using hopen, (run_counted sampleWiring_faithful run hlatest).1⟩

end Samples

end Trading

end SpaceportBazaar
