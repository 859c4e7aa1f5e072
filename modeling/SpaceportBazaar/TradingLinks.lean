import SpaceportBazaar.ExecutorOffers
import SpaceportBazaar.Refinement
import SpaceportBazaar.SessionShown

namespace SpaceportBazaar

namespace Link

variable {w : Wiring} {l : Link} {event : BazaarSession.Event} {souts : List SessionOutput}
  {session : BazaarSession}

/-- A step of the session that puts nothing on the socket. -/
theorem quiet_step (plain : ∀ message, event ≠ .item (.message message))
    (hs : BazaarSession.step? w.bodyFingerprint l.session event = some (souts, session))
    (quiet : souts.filterMap outgoing = []) :
    Step w l (.session event, [], souts) { l with session := session } := by
  show step? w l _ = _
  unfold step?
  dsimp only
  split
  next message => exact absurd rfl (plain message)
  next => simp [sessionTurn, hs, quiet]

end Link

namespace BazaarSession

variable {bodyFingerprint : List UInt8 → String} {s : BazaarSession} {call : Nat}

theorem waitForSnapshot_quiet (s : BazaarSession) (call minSequence : Nat) :
    (s.waitForSnapshot call minSequence).1.filterMap Link.outgoing = [] := by
  unfold waitForSnapshot
  split
  next => rfl
  next => split <;> rfl

theorem waitForReadiness_quiet (s : BazaarSession) (call : Nat) :
    (s.waitForReadiness call).1.filterMap Link.outgoing = [] := by
  unfold waitForReadiness
  split <;> rfl

/-- No command is answered before it left. -/
theorem sendCommand_unanswered (s : BazaarSession) (draft : Draft) (kind requestId : String)
    (other : Nat) (answer : Answer) :
    SessionOutput.reply other
      (.ok answer) ∉ (s.sendCommand bodyFingerprint call draft kind requestId).1 := by
  have htransmit : ∀ (u : BazaarSession) payload retry tick,
      SessionOutput.reply other
      (.ok answer) ∉ (u.transmit call requestId payload retry tick).1 := by
    intro u payload retry tick
    cases retry <;> cases hconnected : u.connected <;> simp [transmit, charge, hconnected]
  unfold sendCommand
  split
  next => simp [refuse]
  next payload _ =>
    dsimp only
    split
    next => simp [refuse]
    next =>
      split
      next => simp [refuse]
      next =>
        split
        next => simp [refuse]
        next =>
          split
          next => simp [refuse]
          next => exact htransmit _ _ _ _

end BazaarSession

namespace Trading

variable {w : Wiring} {t t' : Trading} {x : Execution} {out : Outputs}

/-- What becomes of the execution under way when its call has come to `conclusion`. -/
def Follows (x : Execution) (conclusion : Option Conclusion) (t : Trading) : Prop :=
  match conclusion with
  | none => ∃ y, t.executor.current = some y ∧ y.action = x.action ∧ y.requestId = x.requestId
  | some _ => t.executor.current = none

theorem conclude_follows (x : Execution) (outcome : BazaarSession.CommandOutcome) :
    Follows x (t.conclude x outcome).1 (t.conclude x outcome).2 := rfl

theorem confirm_follows (t : Trading) (x : Execution) (outcome : BazaarSession.CommandOutcome)
    (result : CommandResult) (sequence : Nat) :
    Follows x (t.confirm x outcome result sequence).1 (t.confirm x outcome result sequence).2 := by
  unfold confirm
  dsimp only
  split
  next => exact conclude_follows x outcome
  next => exact ⟨_, rfl, rfl, rfl⟩

theorem resume_follows (hx : t.executor.current = some x)
    (reply : Except SessionError BazaarSession.Answer) :
    Follows x (t.resume x reply).1 (t.resume x reply).2 := by
  cases reply with
  | error error =>
    show (t.executor.fail x.requestId error).current = none
    cases error <;> rfl
  | ok answer =>
    unfold resume
    dsimp only
    split
    next outcome _ =>
      unfold answered
      dsimp only
      split
      next => exact conclude_follows x outcome
      next => exact confirm_follows _ x outcome _ 1
    next outcome result snapshot _ =>
      split
      next => exact conclude_follows x outcome
      next => exact confirm_follows t x outcome result _
    next => exact ⟨x, hx, rfl, rfl⟩

theorem proceed_follows (hx : t.executor.current = some x) (outs : List SessionOutput) :
    Follows x (t.proceed outs).1 (t.proceed outs).2 := by
  unfold proceed
  rw [hx]
  dsimp only
  split
  next => exact ⟨x, hx, rfl, rfl⟩
  next reply _ => exact resume_follows hx reply

/-- What nothing answers ends in an error, if it ends. -/
theorem proceed_error (hx : t.executor.current = some x)
    {outs : List SessionOutput} {conclusion : Conclusion}
    (unanswered : ∀ answer, SessionOutput.reply x.call (.ok answer) ∉ outs)
    (ended : (t.proceed outs).1 = some conclusion) :
    ∃ error, conclusion = .error error := by
  unfold proceed at ended
  rw [hx] at ended
  dsimp only at ended
  split at ended
  next => cases ended
  next reply hreply =>
    obtain ⟨o, ho, hto⟩ := List.exists_of_findSome?_eq_some hreply
    rw [replyTo_eq_some.mp hto] at ho
    cases reply with
    | error error => exact ⟨_, (Option.some.inj ended).symm⟩
    | ok answer => exact absurd ho (unanswered answer)

/-- Nothing comes back to an executor that awaits nothing. -/
theorem proceed_idle (idle : t.executor.current = none) (outs : List SessionOutput) :
    t.proceed outs = (none, t) := by
  simp [proceed, idle]

/-- A turn of the link as the executor sees it. -/
theorem turn_cases {event : Link.Event} (hs : Step w t (.link event, out) t') :
    sendsCommand event = false ∧ ∃ l', Link.Step w t.link (event, out.1) l' ∧
      ({ t with link := l' } : Trading).proceed out.1.2 = (out.2, t') := by
  have hs : step? w t (.link event) = some (out, t') := hs
  simp only [step?] at hs
  split at hs
  next => cases hs
  next hplain =>
    obtain ⟨⟨outs, l'⟩, hlink, heq⟩ := Option.map_eq_some_iff.mp hs
    cases heq
    exact ⟨by simpa using hplain, l', hlink, rfl⟩

theorem turn_idle {event : Link.Event} (idle : t.executor.current = none)
    (hs : Step w t (.link event, out) t') :
    out.2 = none ∧ t'.executor = t.executor := by
  obtain ⟨_, l', _, hproceed⟩ := turn_cases hs
  rw [proceed_idle (t := { t with link := l' }) idle] at hproceed
  obtain ⟨hnone, rfl⟩ := Prod.mk.inj hproceed
  exact ⟨hnone.symm, rfl⟩

theorem turn_follows {event : Link.Event} (hx : t.executor.current = some x)
    (hs : Step w t (.link event, out) t') :
    Follows x out.2 t' := by
  obtain ⟨_, l', _, hproceed⟩ := turn_cases hs
  have hfollows := proceed_follows (t := { t with link := l' }) hx out.1.2
  rwa [hproceed] at hfollows

/-- A session call made beside an idle executor is a turn of the link. -/
theorem idle_turn {event : Link.Event} {outs : List Output × List SessionOutput} {l' : Link}
    (idle : t.executor.current = none) (plain : sendsCommand event = false)
    (hs : Link.Step w t.link (event, outs) l') : Step w t (.link event, outs, none)
      { t with link := l' } := by
  have hs : Link.step? w t.link event = some (outs, l') := hs
  show step? w t _ = _
  simp [step?, plain, hs, proceed_idle (t := { t with link := l' }) idle]

/-- How `execute` leaves off at its first `await`: under way, or refused before anything was sent.
-/
theorem execute_follows {action : Action} {requestId : String} (idle : t.executor.current = none)
    (hs : t.execute w action requestId = some (out, t')) :
    match out.2 with
    | none => ∃ y, t'.executor.current = some y ∧ y.action = action ∧ y.requestId = requestId
    | some _ => t'.executor.current = none := by
  unfold execute at hs
  split at hs
  next =>
    cases hs
    exact idle
  next runId _ =>
    split at hs
    next =>
      cases hs
      exact idle
    next message _ =>
      obtain ⟨⟨outs, l'⟩, _, heq⟩ := Option.map_eq_some_iff.mp hs
      cases heq
      let x : Execution := ⟨action, requestId, t.link.session.freshCall, .answer⟩
      have hfollows := proceed_follows (x := x)
        (t := { link := l', executor :=
          { t.executor.register action requestId with current := some x } }) rfl outs.2
      exact hfollows

/-- What ends a call to `execute` at once is an error. -/
theorem execute_refused {action : Action} {requestId : String} {conclusion : Conclusion}
    (hs : t.execute w action requestId = some (out, t')) (ended : out.2 = some conclusion) :
    ∃ error, conclusion = .error error := by
  unfold execute at hs
  split at hs
  next =>
    cases hs
    exact ⟨_, (Option.some.inj ended).symm⟩
  next runId _ =>
    split at hs
    next =>
      cases hs
      exact ⟨_, (Option.some.inj ended).symm⟩
    next message _ =>
      obtain ⟨⟨outs, l'⟩, hlink, heq⟩ := Option.map_eq_some_iff.mp hs
      cases heq
      let x : Execution := ⟨action, requestId, t.link.session.freshCall, .answer⟩
      refine proceed_error (x := x)
        (t := { link := l', executor :=
          { t.executor.register action requestId with current := some x } }) rfl ?_ ended
      intro answer hmem
      obtain ⟨⟨souts, session⟩, hsession, heq⟩ := Option.map_eq_some_iff.mp hlink
      obtain ⟨_, hcall⟩ := Option.ite_none_left_eq_some.mp hsession
      cases heq
      have hsend := congrArg Prod.fst (Option.some.inj hcall)
      exact absurd (hsend ▸ hmem) (BazaarSession.sendCommand_unanswered _ _ _ _ _ _)

theorem execute_step {action : Action} {requestId : String} (idle : t.executor.current = none)
    (hs : t.execute w action requestId = some (out, t')) :
    Step w t (.execute action requestId, out) t' := by
  show step? w t _ = _
  simp [step?, idle, hs]

theorem execute_of_step {action : Action} {requestId : String}
    (hs : Step w t (.execute action requestId, out) t') :
    t.executor.current = none ∧ t.execute w action requestId = some (out, t') := by
  have hs : step? w t (.execute action requestId) = some (out, t') := hs
  simp only [step?] at hs
  split at hs
  next => cases hs
  next hidle => exact ⟨by simpa using hidle, hs⟩

end Trading

namespace BazaarSession

variable {bodyFingerprint : List UInt8 → String} {s t : BazaarSession} {ev : Event}
  {outs : List SessionOutput} {a b d : Option Snapshot}

/-- The view only moves on to states of a higher sequence. -/
def Onward (a b : Option Snapshot) : Prop :=
  ∀ held, a = some held → ∃ held', b = some held' ∧
    (held = held' ∨ held.snapshotSequence < held'.snapshotSequence)

theorem Onward.refl (a : Option Snapshot) : Onward a a := fun held h => ⟨held, h, .inl rfl⟩

theorem Onward.trans (h : Onward a b) (h' : Onward b d) : Onward a d := by
  intro held hheld
  obtain ⟨held', hheld', hle⟩ := h held hheld
  obtain ⟨held'', hheld'', hle'⟩ := h' held' hheld'
  refine ⟨held'', hheld'', ?_⟩
  rcases hle with rfl | hlt
  · exact hle'
  · rcases hle' with rfl | hlt'
    · exact .inr hlt
    · exact .inr (hlt.trans hlt')

theorem step_onward (offline : Offline s) (hs : Step bodyFingerprint s (ev, outs) t) :
    Onward s.latest t.latest := by
  cases (step_turn offline hs).1 with
  | idle _ _ _ _ latest | stopped _ _ latest =>
    rw [latest]
    exact .refl _
  | routed _ _ _ _ view =>
    generalize t.latest = latest at view
    generalize t.throttle = throttle at view
    cases view with
    | stale | result | readiness | protocolError => exact .refl _
    | newer newer => exact fun held hheld => ⟨_, rfl, .inr (newer held hheld)⟩
  | commanded commanding =>
    cases commanding with
    | refused | retried | charged => exact .refl _

/-- The session stops for good once it is offline, and what it shows its callers is in order. -/
structure Viewing (s : BazaarSession) : Prop where
  offline : Offline s
  shows : Shows (fun _ => True) s

theorem init_viewing (throttle : CommandThrottle) : Viewing (init throttle) :=
  ⟨init_offline throttle, init_shows throttle⟩

end BazaarSession

namespace Link

variable {w : Wiring} {l t : Link} {lab : Label}

/-- A step of the link that sends commands as the executor builds them. -/
def BuiltStep (w : Wiring) (l : Link) (lab : Label) (t : Link) : Prop :=
  Step w l lab t ∧ ∀ event outs, sessionLabel lab = some (event, outs) → Built l.session event

/-- A step that sends no command builds none. -/
theorem BuiltStep.of_plain
    (hs : Step w l lab t) (plain : ∀ event outs, sessionLabel lab = some (event, outs) →
    ∀ call draft kind requestId, event ≠ .sendCommand call draft kind requestId) :
    BuiltStep w l lab t :=
  ⟨hs, fun event outs label call draft kind requestId heq =>
    absurd heq (plain event outs label call draft kind requestId)⟩

theorem step_viewing (h : l.session.Viewing) (hs : BuiltStep w l lab t) :
    t.session.Viewing ∧ BazaarSession.Onward l.session.latest t.session.latest ∧
      BazaarSession.Keeps l.session t.session := by
  cases step_advances hs.1 with
  | server _ _ _ session =>
    rw [session]
    exact ⟨h, .refl _, .refl _⟩
  | session _ step =>
    obtain ⟨hshows, hkeeps⟩ :=
      BazaarSession.step_carries h.offline step (fun _ _ => BazaarSession.explains_any _) h.shows
    exact ⟨⟨(BazaarSession.step_turn h.offline step).2, hshows⟩,
      BazaarSession.step_onward h.offline step, hkeeps⟩

/-- An outcome without a result brings the error that the server reported for its request. -/
def Explained (w : Wiring) (server : BazaarServer)
    (outcome : BazaarSession.CommandOutcome) : Prop :=
  outcome.result = none →
    ∃ error, outcome.error = some error ∧ error.requestId = some outcome.requestId ∧
    Says w server (.protocolError error)

theorem Says.explains {server : BazaarServer} {event : ServerEvent} (h : Says w server event) :
    BazaarSession.Explains (Explained w server) event := by
  cases event with
  | state snapshot => exact fun r _ hnone => by cases hnone
  | result r => exact fun hnone => by cases hnone
  | protocolError error => exact fun requestId hid _ => ⟨error, rfl, hid, h⟩
  | readiness => trivial

/-- What is on its way is true, and what came in was explained. -/
structure Abreast (w : Wiring) (l : Link) : Prop where
  informed : Informed w l
  shows : l.session.Shows (Explained w l.server)

theorem step_abreast (h : Abreast w l) (faithful : w.Faithful) (hs : BuiltStep w l lab t) :
    Abreast w t := by
  have htells {event : ServerEvent} (htold : Says w l.server event) : Says w t.server event :=
    h.informed.says_step faithful hs.1 htold
  refine ⟨(h.informed.step faithful hs.2 hs.1).1, ?_⟩
  have hexplained : ∀ outcome, Explained w l.server outcome → Explained w t.server outcome := by
    intro outcome h hnone
    obtain ⟨error, herror, hid, htold⟩ := h hnone
    exact ⟨error, herror, hid, htells htold⟩
  cases step_advances hs.1 with
  | server _ _ _ session =>
    rw [session]
    exact h.shows.mono hexplained
  | session _ step _ down =>
    refine (BazaarSession.step_carries h.informed.session step ?_ (h.shows.mono hexplained)).1
    rintro event rfl
    rcases down with ⟨message, hmessage, hdown⟩ | ⟨plain, _⟩
    · cases hmessage
      exact (htells (h.informed.coming event (hdown ▸ List.mem_cons_self))).explains
    · exact absurd rfl (plain event)

/-- An outcome that a call comes back with was explained. -/
theorem Abreast.explained
    {call : Nat} {c : BazaarSession.Call} {outcome : BazaarSession.CommandOutcome} (h : Abreast w l)
    (hs : Step w l lab t) (known : l.session.calls.get? call = some c)
    (hr : SessionOutput.reply call (.ok (.outcome outcome)) ∈ lab.2.2) :
    Explained w t.server outcome := by
  cases step_advances hs with
  | server _ silent =>
    rw [silent] at hr
    cases hr
  | session _ step server =>
    obtain ⟨hfuture, _⟩ := BazaarSession.step_held h.informed.session known step hr
    rw [server]
    exact h.shows.outcomes call c outcome known hfuture

theorem init_abreast (w : Wiring) (config : Config) (throttle : CommandThrottle) :
    Abreast w (init config throttle) :=
  ⟨init_informed w config throttle, BazaarSession.init_shows throttle⟩

end Link

namespace Trading

variable {w : Wiring} {t t' : Trading} {label : Label}

theorem confirm_links (w : Wiring) (t : Trading) (x : Execution)
    (outcome : BazaarSession.CommandOutcome) (result : CommandResult) (sequence : Nat) :
    ∃ ls, Machine.Run (Link.BuiltStep w) t.link ls
      (t.confirm x outcome result sequence).2.link := by
  rcases t.link.session.waitForResultSnapshot_cases t.link.session.freshCall result sequence with
    ⟨snapshot, _, _, heq⟩ | ⟨minSequence, session, heq, hwait, _⟩
  · simp only [confirm, heq]
    exact ⟨[], .start⟩
  · simp only [confirm, heq]
    refine ⟨_, .single (.of_plain (Link.waits_step t.link.session.freshCall_new hwait) ?_)⟩
    rintro event outs label call draft kind requestId rfl
    cases label

theorem resume_links (w : Wiring) (t : Trading) (x : Execution)
    (reply : Except SessionError BazaarSession.Answer) :
    ∃ ls, Machine.Run (Link.BuiltStep w) t.link ls (t.resume x reply).2.link := by
  cases reply with
  | error error => exact ⟨[], .start⟩
  | ok answer =>
    unfold resume
    dsimp only
    split
    next outcome _ =>
      unfold answered
      dsimp only
      split
      next => exact ⟨[], .start⟩
      next result _ =>
        exact confirm_links w { t with executor :=
          if outcome.ok then t.executor.recordOutcome x.action outcome
          else (t.executor.recordOutcome x.action outcome).release x.requestId } x outcome result 1
    next outcome result snapshot _ =>
      split
      next => exact ⟨[], .start⟩
      next => exact confirm_links w t x outcome result _
    next => exact ⟨[], .start⟩

theorem proceed_links (w : Wiring) (t : Trading) (outs : List SessionOutput) :
    ∃ ls, Machine.Run (Link.BuiltStep w) t.link ls (t.proceed outs).2.link := by
  unfold proceed
  split
  next => exact ⟨[], .start⟩
  next x _ =>
    split
    next => exact ⟨[], .start⟩
    next reply _ => exact resume_links w t x reply

theorem plain_label {event : Link.Event} {outs : List Output × List SessionOutput}
    (plain : sendsCommand event = false) (ev : BazaarSession.Event) (souts : List SessionOutput)
    (label : Link.sessionLabel (event, outs) = some (ev, souts)) (call : Nat) (draft : Draft)
    (kind requestId : String) : ev ≠ .sendCommand call draft kind requestId := by
  rintro rfl
  cases event with
  | server | uplink | downlink => cases label
  | session ev =>
    cases label
    cases plain

/-- What the executor does with the link are steps of the link. -/
theorem step_links (w : Wiring) :
    Machine.Unfolds (Step w) (Link.BuiltStep w) Trading.link (fun _ => True) := by
  rintro t ⟨event, out⟩ t' _ hs
  refine ⟨trivial, ?_⟩
  have hs : step? w t event = some (out, t') := hs
  cases event with
  | link event =>
    simp only [step?] at hs
    split at hs
    next => cases hs
    next hplain =>
      obtain ⟨⟨outs, l'⟩, hlink, heq⟩ := Option.map_eq_some_iff.mp hs
      cases heq
      have hlink : Link.Step w t.link (event, outs) l' := hlink
      obtain ⟨ls, hrun⟩ := proceed_links w { t with link := l' } outs.2
      exact ⟨_, (Machine.Run.single (.of_plain hlink (plain_label (by simpa using hplain)))).trans
        hrun⟩
  | execute action requestId =>
    simp only [step?] at hs
    split at hs
    next => cases hs
    next =>
      unfold execute at hs
      split at hs
      next =>
        cases hs
        exact ⟨[], .start⟩
      next runId hrun =>
        split at hs
        next =>
          cases hs
          exact ⟨[], .start⟩
        next message hbuild =>
          obtain ⟨⟨outs, l'⟩, hlink, heq⟩ := Option.map_eq_some_iff.mp hs
          cases heq
          obtain ⟨body, rfl, _⟩ := build_command hbuild
          have hbuilt : Link.BuiltStep w t.link (.session (.sendCommand t.link.session.freshCall
              (.complete (.command protocolVersion runId requestId body)) action.kind requestId),
              outs) l' := by
            refine ⟨hlink, ?_⟩
            rintro event souts label call draft kind requestId' rfl
            cases label
            exact ⟨runId, body, rfl, hrun⟩
          obtain ⟨ls, hmore⟩ :=
            proceed_links w { link := l', executor := { t.executor.register action requestId with
            current := some ⟨action, requestId, t.link.session.freshCall, .answer⟩ } } outs.2
          exact ⟨_, (Machine.Run.single hbuilt).trans hmore⟩

/-- What a step leaves of the session's views and calls. -/
theorem step_viewing (h : t.link.session.Viewing) (hs : Step w t label t') :
    t'.link.session.Viewing ∧ BazaarSession.Onward t.link.session.latest t'.link.session.latest ∧
      BazaarSession.Keeps t.link.session t'.link.session := by
  obtain ⟨_, ls, hrun⟩ := step_links w t label t' trivial hs
  refine hrun.preserves (P := fun l => l.session.Viewing ∧
    BazaarSession.Onward t.link.session.latest l.session.latest ∧
    BazaarSession.Keeps t.link.session l.session)
    ⟨h, .refl _, .refl _⟩ ?_
  rintro l lab l' ⟨hviewing, honward, hkeeps⟩ hstep
  obtain ⟨hviewing', honward', hkeeps'⟩ := Link.step_viewing hviewing hstep
  exact ⟨hviewing', honward.trans honward', hkeeps.trans hkeeps'⟩

theorem step_abreast (h : Link.Abreast w t.link) (faithful : w.Faithful) (hs : Step w t label t') :
    Link.Abreast w t'.link := by
  obtain ⟨_, ls, hrun⟩ := step_links w t label t' trivial hs
  exact hrun.preserves h fun _ _ _ h hstep => Link.step_abreast h faithful hstep

/-- Beside an idle executor, a call that waits for a state comes back with one the session shows. -/
theorem turn_shown {event : Link.Event} {out : Outputs} {call : Nat} {d : BazaarSession.Call}
    {snapshot : Snapshot} (idle : t.executor.current = none) (h : t.link.session.Viewing)
    (hs : Step w t (.link event, out) t') (known : t.link.session.calls.get? call = some d)
    (hr : SessionOutput.reply call (.ok (.snapshot snapshot)) ∈ out.1.2) :
    BazaarSession.Shown t'.link.session.latest d.awaited snapshot := by
  obtain ⟨_, l', hlink, hproceed⟩ := turn_cases hs
  rw [proceed_idle (t := { t with link := l' }) idle] at hproceed
  obtain rfl := congrArg Prod.snd hproceed
  cases Link.step_advances hlink with
  | server _ silent =>
    rw [silent] at hr
    cases hr
  | session _ step => exact BazaarSession.step_shown h.offline h.shows known step hr

end Trading

end SpaceportBazaar
