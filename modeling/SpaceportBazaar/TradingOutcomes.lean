import SpaceportBazaar.TradingLinks

namespace SpaceportBazaar

/-- Nothing is transmitted but commands. -/
theorem BazaarSession.step_silent
    {bodyFingerprint : List UInt8 → String} {s t : BazaarSession} {event : Event}
    {outs : List SessionOutput} (offline : Offline s) (hs : Step bodyFingerprint s (event, outs) t)
    (plain : ∀ call draft kind requestId, event ≠ .sendCommand call draft kind requestId) :
    sentIds outs = [] := by
  refine List.filterMap_eq_nil_iff.mpr fun o ho => ?_
  cases (step_turn offline hs).1 with
  | idle _ replies =>
    obtain ⟨call, reply, rfl⟩ := replies _ ho
    rfl
  | stopped => cases ho
  | @routed _ directive _ _ _ _ _ _ _ _ declared =>
    rcases declared with rfl | ⟨rfl, _⟩
    · unfold readies at ho
      split at ho
      next =>
        obtain rfl := List.mem_singleton.mp ho
        rfl
      next => cases ho
    · cases ho
  | commanded => exact absurd rfl (plain _ _ _ _)

namespace Trading

open Link (Says Abreast BuiltStep)
open BazaarSession (Replied)

variable {w : Wiring} {t t' : Trading} {x : Execution} {outcome : BazaarSession.CommandOutcome}
  {result : CommandResult} {out : Outputs}

/-- An outcome is what the server says of its request: a result, or that there will be none. -/
def Sourced (w : Wiring) (s : BazaarServer) (outcome : BazaarSession.CommandOutcome) : Prop :=
  (∃ r, outcome.result = some r ∧ r.requestId = outcome.requestId ∧ Says w s (.result r)) ∨
    outcome.result = none ∧
      ∃ error, outcome.error = some error ∧ error.requestId = some outcome.requestId ∧
      Says w s (.protocolError error)

theorem Sourced.mono {s s' : BazaarServer} (h : Sourced w s outcome)
    (stays : ∀ event, Says w s event → Says w s' event) :
    Sourced w s' outcome := by
  rcases h with ⟨r, hr, hid, htold⟩ | ⟨hnone, error, herror, hid, htold⟩
  · exact .inl ⟨r, hr, hid, stays _ htold⟩
  · exact .inr ⟨hnone, error, herror, hid, stays _ htold⟩

/-- An outcome that was taken down is the server's own, and so is the result that
waits to be confirmed. -/
def Taken (w : Wiring) (s : BazaarServer) (x : Execution) : Prop :=
  match x.awaiting with
  | .answer => True
  | .confirmation outcome _ => outcome.requestId = x.requestId ∧ Sourced w s outcome

/-- What an `execute` call that went out can come to: the server's answer to it, or an error
other than that it was blocked. -/
def Concludes (w : Wiring) (s : BazaarServer) (x : Execution) : Conclusion → Prop
  | .ok outcome => outcome.requestId = x.requestId ∧ Sourced w s outcome
  | .error error => ∀ text, error ≠ .session (.commandBlocked text)

/-- The call under way is entered for its own request, and what it took down is true. -/
structure Attended (w : Wiring) (t : Trading) : Prop where
  abreast : Abreast w t.link
  awaits : ∀ x, t.executor.current = some x → Awaits w t.link x
  taken : ∀ x, t.executor.current = some x → Taken w t.link.server x

/-- What a turn of the executor leaves behind. -/
structure Leaves (w : Wiring) (x : Execution) (conclusion : Option Conclusion)
    (t : Trading) : Prop where
  attended : Attended w t
  concludes : ∀ c, conclusion = some c → Concludes w t.link.server x c

theorem conclude_leaves (abreast : Abreast w t.link) (hid : outcome.requestId = x.requestId)
    (sourced : Sourced w t.link.server outcome) :
    Leaves w x (t.conclude x outcome).1 (t.conclude x outcome).2 where
  attended := ⟨abreast, (fun _ hx => by cases hx), (fun _ hx => by cases hx)⟩
  concludes c hc := by
    cases hc
    exact ⟨hid, sourced⟩

theorem confirm_leaves
    (abreast : Abreast w t.link) (faithful : w.Faithful) (hid : outcome.requestId = x.requestId)
    (sourced : Sourced w t.link.server outcome) (hresult : result.requestId = x.requestId)
    (told : Says w t.link.server (.result result)) (sequence : Nat) :
    Leaves w x (t.confirm x outcome result sequence).1 (t.confirm x outcome result sequence).2 := by
  rcases t.link.session.waitForResultSnapshot_cases t.link.session.freshCall result sequence with
    ⟨snapshot, _, _, heq⟩ | ⟨minSequence, session, heq, hwait, hentered⟩
  · simp only [confirm, heq]
    exact conclude_leaves abreast hid sourced
  · simp only [confirm, heq]
    have hstep : BuiltStep w t.link _ _ :=
      .of_plain (Link.waits_step t.link.session.freshCall_new hwait) (by
      rintro event outs label call draft kind requestId rfl
      cases label)
    refine ⟨⟨Link.step_abreast abreast faithful hstep, fun y hy => ?_, fun y hy => ?_⟩,
      fun c hc => by cases hc⟩
    · obtain rfl := Option.some.inj hy
      exact ⟨_, hentered, hresult, told⟩
    · obtain rfl := Option.some.inj hy
      exact ⟨hid, sourced⟩

theorem answered_leaves (abreast : Abreast w t.link) (faithful : w.Faithful)
    (hid : outcome.requestId = x.requestId) (sourced : Sourced w t.link.server outcome) :
    Leaves w x (t.answered x outcome).1 (t.answered x outcome).2 := by
  unfold answered
  dsimp only
  generalize (if outcome.ok then t.executor.recordOutcome x.action outcome
    else (t.executor.recordOutcome x.action outcome).release x.requestId) = executor
  split
  next => exact conclude_leaves (t := ⟨t.link, executor⟩) abreast hid sourced
  next result hresult =>
    have htold : result.requestId = outcome.requestId ∧ Says w t.link.server (.result result) := by
      rcases sourced with ⟨r, hr, hrid, htold⟩ | ⟨hnone, _⟩
      · obtain rfl := Option.some.inj (hresult.symm.trans hr)
        exact ⟨hrid, htold⟩
      · cases hresult.symm.trans hnone
    exact confirm_leaves (t := ⟨t.link, executor⟩) abreast faithful hid sourced
      (htold.1.trans hid) htold.2 1

theorem resume_leaves {reply : Except SessionError BazaarSession.Answer}
    (h : Attended w t) (faithful : w.Faithful)
    (hx : t.executor.current = some x) (replied : ∀ c, t.link.session.calls.get? x.call = some c →
      Replied (Says w t.link.server) t.link.session.latest c.awaited reply) (explained :
      ∀ outcome, reply = .ok (.outcome outcome) → Link.Explained w t.link.server outcome) :
    Leaves w x (t.resume x reply).1 (t.resume x reply).2 := by
  obtain ⟨c, hc, hawaits⟩ := h.awaits x hx
  have htaken := h.taken x hx
  have hreplied := replied c hc
  unfold Taken at htaken
  cases reply with
  | error error =>
    have hidle : (t.executor.fail x.requestId error).current = none := by cases error <;> rfl
    refine ⟨⟨h.abreast, fun y hy => ?_, fun y hy => ?_⟩, fun conclusion hconclusion => ?_⟩
    · cases hidle.symm.trans hy
    · cases hidle.symm.trans hy
    · cases hconclusion
      rintro text heq
      cases heq
      exact hreplied text rfl
  | ok answer =>
    unfold resume
    dsimp only
    split
    next outcome hawaiting =>
      rw [hawaiting] at hawaits
      obtain ⟨hawaited, hbacked⟩ := hreplied
      rw [hawaits] at hawaited
      refine answered_leaves h.abreast faithful (BazaarSession.Awaited.command.inj hawaited).symm ?_
      rcases hbacked with hresult | ⟨hnone, _⟩
      · exact .inl hresult
      · exact .inr ⟨hnone, explained outcome rfl hnone⟩
    next outcome result snapshot hawaiting =>
      rw [hawaiting] at hawaits htaken
      split
      next => exact conclude_leaves h.abreast htaken.1 htaken.2
      next => exact confirm_leaves h.abreast faithful htaken.1 htaken.2 hawaits.1 hawaits.2 _
    next => exact ⟨h, fun c hc => by cases hc⟩

theorem proceed_leaves (outs : List SessionOutput) (h : Attended w t) (faithful : w.Faithful)
    (hx : t.executor.current = some x) (replied : ∀ reply c,
      SessionOutput.reply x.call reply ∈ outs → t.link.session.calls.get? x.call = some c →
      Replied (Says w t.link.server) t.link.session.latest c.awaited reply)
    (explained : ∀ outcome, SessionOutput.reply x.call (.ok (.outcome outcome)) ∈ outs →
      Link.Explained w t.link.server outcome) :
    Leaves w x (t.proceed outs).1 (t.proceed outs).2 := by
  unfold proceed
  rw [hx]
  dsimp only
  split
  next => exact ⟨h, fun c hc => by cases hc⟩
  next reply hreply =>
    obtain ⟨o, ho, hto⟩ := List.exists_of_findSome?_eq_some hreply
    rw [replyTo_eq_some.mp hto] at ho
    exact resume_leaves h faithful hx (fun c hc => replied reply c ho hc) fun outcome heq =>
      explained outcome (heq ▸ ho)

theorem Taken.mono {s s' : BazaarServer} (h : Taken w s x)
    (stays : ∀ event, Says w s event → Says w s' event) :
    Taken w s' x := by
  unfold Taken at h ⊢
  split at h
  next => trivial
  next => exact ⟨h.1, h.2.mono stays⟩

/-- A turn of the link keeps what was taken down, and what it concludes is the server's answer. -/
theorem turn_leaves {event : Link.Event} (h : Attended w t) (faithful : w.Faithful)
    (hs : Step w t (.link event, out) t') :
    Attended w t' ∧ ∀ x c, t.executor.current = some x → out.2 = some c →
    Concludes w t'.link.server x c := by
  obtain ⟨plain, l', hlink, hproceed⟩ := turn_cases hs
  have hbuilt : BuiltStep w t.link (event, out.1) l' := .of_plain hlink (plain_label plain)
  obtain ⟨_, hkeeps⟩ := h.abreast.informed.step faithful hbuilt.2 hlink
  have hattended : Attended w { t with link := l' } := by
    refine ⟨Link.step_abreast h.abreast faithful hbuilt, fun x hx => ?_, fun x hx => ?_⟩
    · exact awaits_step (h.awaits x hx) h.abreast.informed faithful hlink hkeeps
    · exact (h.taken x hx).mono fun _ => h.abreast.informed.says_step faithful hlink
  cases hx : t.executor.current with
  | none =>
    rw [proceed_idle (t := { t with link := l' }) hx] at hproceed
    obtain rfl := congrArg Prod.snd hproceed
    exact ⟨hattended, fun x c hx => by cases hx⟩
  | some x =>
    obtain ⟨c₀, hc₀, _⟩ := h.awaits x hx
    have hleaves := proceed_leaves out.1.2 hattended faithful hx (fun reply c hreply hc => by
      obtain ⟨c', hc', hawaited⟩ := hkeeps x.call c₀ hc₀
      obtain rfl := Option.some.inj (hc.symm.trans hc')
      rw [hawaited]
      exact h.abreast.informed.replied hlink hc₀ hreply) fun outcome hreply =>
        h.abreast.explained hlink hc₀ hreply
    rw [hproceed] at hleaves
    refine ⟨hleaves.attended, fun y c hy hc => ?_⟩
    cases hy
    exact hleaves.concludes c hc

/-- A command goes out once, or not at all. -/
theorem execute_leaves {action : Action} {requestId : String}
    (h : Attended w t) (faithful : w.Faithful) (idle : t.executor.current = none)
    (hs : t.execute w action requestId = some (out, t')) : Attended w t' ∧
      match out.2 with
      | none => BazaarSession.sentIds out.1.2 = [requestId]
      | some _ => BazaarSession.sentIds out.1.2 = [] := by
  have habreast := step_abreast h.abreast faithful (execute_step idle hs)
  unfold execute at hs
  split at hs
  next =>
    cases hs
    exact ⟨h, rfl⟩
  next runId _ =>
    split at hs
    next =>
      cases hs
      exact ⟨h, rfl⟩
    next message hbuild =>
      obtain ⟨⟨outs, l'⟩, hlink, heq⟩ := Option.map_eq_some_iff.mp hs
      cases heq
      obtain ⟨⟨souts, session⟩, hsession, heq⟩ := Option.map_eq_some_iff.mp hlink
      obtain ⟨_, hcall⟩ := Option.ite_none_left_eq_some.mp hsession
      cases heq
      have hcommanding :=
        BazaarSession.sendCommand_commanding w.bodyFingerprint t.link.session.freshCall
        (.complete message) action.kind requestId h.abreast.informed.session.ineligible
      rw [Option.some.inj hcall] at hcommanding
      rcases BazaarSession.commanding_cases hcommanding with ⟨error, throttle, rfl, rfl⟩ |
        ⟨hsilent, c, hc, hawaited⟩
      · have hidle : ∀ e : Executor, (e.fail requestId error).current = none :=
          fun e => by cases error <;> rfl
        simp only [proceed, replyTo, List.findSome?_cons, if_true, resume] at habreast ⊢
        exact ⟨⟨habreast, (fun x hx => by cases (hidle _).symm.trans hx),
          (fun x hx => by cases (hidle _).symm.trans hx)⟩, rfl⟩
      · have hnone : souts.findSome? (replyTo t.link.session.freshCall) = none := by
          refine List.findSome?_eq_none_iff.mpr fun o ho => ?_
          by_contra hto
          obtain ⟨reply, hto⟩ := Option.ne_none_iff_exists'.mp hto
          rw [replyTo_eq_some.mp hto] at ho
          exact hsilent _ _ ho
        simp only [proceed, hnone] at habreast ⊢
        refine ⟨⟨habreast, fun x hx => ?_, fun x hx => ?_⟩, ?_⟩
        · obtain rfl := Option.some.inj hx
          exact ⟨c, hc, hawaited⟩
        · obtain rfl := Option.some.inj hx
          trivial
        · cases hcommanding with
          | refused => exact absurd (List.mem_singleton_self _) (hsilent _ _)
          | retried | charged => rfl

theorem turn_silent {event : Link.Event} (h : Attended w t) (hs : Step w t (.link event, out) t') :
    BazaarSession.sentIds out.1.2 = [] := by
  obtain ⟨plain, l', hlink, _⟩ := turn_cases hs
  cases Link.step_advances hlink with
  | server _ silent =>
    rw [silent]
    rfl
  | session label step =>
    exact BazaarSession.step_silent h.abreast.informed.session step (plain_label plain _ _ label)

/-- What was said stays true. -/
theorem step_says {label : Label} {message : ServerEvent} (h : Link.Abreast w t.link)
    (faithful : w.Faithful) (hs : Step w t label t') (told : Says w t.link.server message) :
    Says w t'.link.server message := by
  obtain ⟨_, ls, hrun⟩ := step_links w t label t' trivial hs
  refine (hrun.preserves (P := fun l => Link.Abreast w l ∧ Says w l.server message) ⟨h, told⟩ ?_).2
  rintro l lab l' ⟨habreast, htold⟩ hstep
  exact ⟨Link.step_abreast habreast faithful hstep,
    habreast.informed.says_step faithful hstep.1 htold⟩

end Trading

end SpaceportBazaar
