import SpaceportBazaar.Link

namespace SpaceportBazaar

namespace BazaarSession

variable {bodyFingerprint : List UInt8 → String} {s t : BazaarSession}
  {hist : List (Event × List SessionOutput)}

/-- Requests charged to one tick are told apart by their ids. -/
theorem length_le_charges {ids : List String} {tick : Nat} (hnodup : ids.Nodup)
    (h : ∀ rid ∈ ids, SessionOutput.charged rid tick ∈ outputs hist) :
    ids.length ≤ charges hist tick := by
  have hinj : (ids.map (fun rid => SessionOutput.charged rid tick)).Nodup := by
    refine hnodup.map ?_
    intro a b hab
    exact (SessionOutput.charged.inj hab).1
  have hsub : ids.map (fun rid => SessionOutput.charged rid tick) ⊆ (outputs hist).filter
      (isChargeAt tick) := by
    intro o ho
    obtain ⟨rid, hrid, rfl⟩ := List.mem_map.mp ho
    exact List.mem_filter.mpr ⟨h rid hrid, by simp [isChargeAt]⟩
  have hle := (hinj.subperm hsub).length_le
  rwa [List.length_map, ← List.countP_eq_length_filter] at hle

/-- When all states agree on the rules, the charges of a tick stay below their limit. -/
theorem charges_le_limit {rules : Rules} (hcount : Counted hist s)
    (hrules : ∀ snapshot ∈ received hist, snapshot.rules = rules) (tick : Nat) :
    charges hist tick ≤ rules.newCommandsPerStationPerTick := by
  have hlimit : largestLimit hist ≤ [rules.newCommandsPerStationPerTick].foldr max 0 := by
    apply foldr_max_le
    intro x hx
    obtain ⟨snapshot, hs, rfl⟩ := List.mem_map.mp hx
    rw [hrules snapshot hs]
    exact List.mem_singleton_self _
  have hle := hcount.bounded tick
  simp only [List.foldr_cons, List.foldr_nil] at hlimit
  omega

end BazaarSession

namespace Link

open BazaarServer (Recorded QuotaEffect)
open BazaarSession (Ordered Counted)

/-- A command the server has no record of reaches it in the tick it was charged to. -/
def InTime (w : Wiring) (hist : List Label) (l : Link) (lab : Label) : Prop :=
  ∀ payload pv runId requestId body, lab.1 = .uplink payload →
    w.parse payload = .message (.command pv runId requestId body) →
    l.server.storedFor w.stationId requestId = none →
    SessionOutput.charged requestId l.server.economy.tick ∈ BazaarSession.outputs (sessionHist hist)

def stateTick : ServerEvent → Option Nat
  | .state snapshot => some snapshot.tick
  | _ => none

/-- The ticks in sight, from the oldest view to the clock: the held snapshot, the
states on their way, the server. -/
def ticks (l : Link) : List Nat :=
  (l.session.latest.map Snapshot.tick).toList ++
    (l.down.filterMap stateTick ++ [l.server.economy.tick])

/-- The server's count of the tick is backed by recorded requests, each of which the
client charged to that same tick. -/
structure Synced (w : Wiring) (config : Config) (throttle : CommandThrottle) (hist : List Label)
    (l : Link) : Prop where
  server : Recorded config.rules (serverHist w hist) l.server
  session : Machine.GuardedRun (fun _ s l => Ordered s l.1) (BazaarSession.Step w.bodyFingerprint)
    (BazaarSession.init throttle) (sessionHist hist) l.session
  clock : l.ticks.Pairwise (· ≤ ·)
  rules : ∀ snapshot, snapshot ∈ BazaarSession.received (sessionHist hist) ∨
    ServerEvent.state snapshot ∈ l.down →
    snapshot.rules = config.rules
  quota : ∃ ids :
    List String, ids.Nodup ∧ l.server.economy.countOf w.stationId ≤ ids.length ∧ ∀ rid ∈ ids,
    (l.server.storedFor w.stationId rid).isSome ∧
      SessionOutput.charged rid l.server.economy.tick ∈ BazaarSession.outputs (sessionHist hist)
  unlimited : ∀ rid x, l.server.storedFor w.stationId rid = some x → x.result.code ≠ .rateLimited

variable {w : Wiring} {config : Config} {throttle : CommandThrottle} {hist : List Label}
  {l t : Link} {lab : Label}

theorem ticks_eq (l : Link) : l.ticks = l.views Snapshot.tick SimulatedEconomy.tick := by
  have hstate : stateTick = stateView Snapshot.tick := by
    funext event
    cases event <;> rfl
  simp [ticks, views, hstate]

theorem snapshots_server {outs : List Output}
    (hdown : t.down = l.down ++ outs.filterMap (incoming w)) (hshows : ∀ o ∈ outs, o.Shows t.server)
    {snapshot : Snapshot} (h : ServerEvent.state snapshot ∈ t.down) :
    ServerEvent.state snapshot ∈ l.down ∨ snapshot.rules = t.server.economy.rules := by
  rw [hdown] at h
  rcases List.mem_append.mp h with h | h
  · exact Or.inl h
  · obtain ⟨q, hsent⟩ := mem_incoming h
    obtain ⟨seat, _, hsnapshot⟩ := hshows _ hsent
    exact Or.inr (BazaarServer.snapshotFor_shown hsnapshot).rules

/-- Nothing the client has charged in the tick exceeds the limit of the rules. -/
theorem Synced.charges_le (h : Synced w config throttle hist l) (tick : Nat) :
    BazaarSession.charges (sessionHist hist) tick ≤ config.rules.newCommandsPerStationPerTick := by
  obtain ⟨_, hcount, _⟩ := BazaarSession.run_gated h.session
  exact BazaarSession.charges_le_limit hcount (fun snapshot hs => h.rules snapshot (Or.inl hs)) tick

/-- A new request backs one more count, and its own charge rules out a refusal. -/
theorem Synced.answered {hist' : List Label}
    (h : Synced w config throttle hist l) {requestId : String} {x : StoredResult}
    (charged : SessionOutput.charged requestId l.server.economy.tick ∈ BazaarSession.outputs
      (sessionHist hist)) (hhist : sessionHist hist' = sessionHist hist)
    (new : l.server.storedFor w.stationId requestId = none)
    (tick : t.server.economy.tick = l.server.economy.tick)
    (count : t.server.economy.countOf w.stationId ≤ l.server.economy.countOf w.stationId + 1)
    (stored : ∀ rid, t.server.storedFor w.stationId rid =
      if rid = requestId then some x else l.server.storedFor w.stationId rid)
    (limited : x.result.code = .rateLimited →
      l.server.economy.rules.newCommandsPerStationPerTick ≤ l.server.economy.countOf w.stationId) :
    (∃ ids :
      List String, ids.Nodup ∧ t.server.economy.countOf w.stationId ≤ ids.length ∧ ∀ rid ∈ ids,
      (t.server.storedFor w.stationId rid).isSome ∧
        SessionOutput.charged rid t.server.economy.tick ∈ BazaarSession.outputs
          (sessionHist hist')) ∧
      x.result.code ≠ .rateLimited := by
  obtain ⟨ids, hnodup, hle, hids⟩ := h.quota
  have hfresh : requestId ∉ ids := by
    intro hmem
    simpa [new] using (hids requestId hmem).1
  have hnodup' : (requestId :: ids).Nodup := List.nodup_cons.mpr ⟨hfresh, hnodup⟩
  have hcharged : ∀ rid ∈ requestId :: ids,
      SessionOutput.charged rid l.server.economy.tick ∈ BazaarSession.outputs
      (sessionHist hist) := by
    intro rid hrid
    rcases List.mem_cons.mp hrid with rfl | hrid
    · exact charged
    · exact (hids rid hrid).2
  constructor
  · refine ⟨requestId :: ids, hnodup', ?_, ?_⟩
    · simp only [List.length_cons]
      omega
    · intro rid hrid
      rw [tick, hhist, stored rid]
      refine ⟨?_, hcharged rid hrid⟩
      rcases List.mem_cons.mp hrid with rfl | hrid
      · simp
      · split
        next => rfl
        next => exact (hids rid hrid).1
  · intro hcode
    have hroom : (requestId :: ids).length ≤ config.rules.newCommandsPerStationPerTick :=
      (BazaarSession.length_le_charges hnodup' hcharged).trans (h.charges_le _)
    have hfull := limited hcode
    rw [h.server.rules] at hfull
    simp only [List.length_cons] at hroom
    omega

theorem Synced.server_step (h : Synced w config throttle hist l) (hg : InTime w hist l lab)
    {event : BazaarServer.Event} {outs : List Output}
    (label : serverLabel w lab = some (event, outs)) (silent : sessionLabel lab = none)
    (hstep : BazaarServer.Step w.sha256 l.server (event, outs) t.server)
    (session : t.session = l.session) (down : t.down = l.down ++ outs.filterMap (incoming w))
    (ours : ∀ c frame, event = .receive c frame → stationOf l.server c = some w.stationId →
      ∃ payload, lab.1 = .uplink payload ∧ frame = .binary (w.parse payload)) :
    Synced w config throttle (hist ++ [lab]) t := by
  have hserver : serverHist w (hist ++ [lab]) = serverHist w hist ++ [(event, outs)] := by
    simp [serverHist_snoc, label]
  have hsession : sessionHist (hist ++ [lab]) = sessionHist hist := by
    simp [sessionHist_snoc, silent]
  have hrecorded := h.server.step hstep
  have hshows := BazaarServer.step_current hstep
  have hquota := BazaarServer.step_quota h.server.book hstep w.stationId
  have htick : l.server.economy.tick ≤ t.server.economy.tick := by
    cases hquota with
    | kept tick => omega
    | renewed tick => omega
    | answered _ _ _ tick => omega
  have hback : (∃ ids :
      List String, ids.Nodup ∧ t.server.economy.countOf w.stationId ≤ ids.length ∧ ∀ rid ∈ ids,
      (t.server.storedFor w.stationId rid).isSome ∧
      SessionOutput.charged rid t.server.economy.tick ∈
        BazaarSession.outputs (sessionHist (hist ++ [lab]))) ∧
      ∀ rid x, t.server.storedFor w.stationId rid = some x → x.result.code ≠ .rateLimited := by
    cases hquota with
    | kept tick count stored =>
      obtain ⟨ids, hnodup, hle, hids⟩ := h.quota
      refine ⟨⟨ids, hnodup, count.trans hle, ?_⟩, ?_⟩
      · intro rid hrid
        rw [stored rid, tick, hsession]
        exact hids rid hrid
      · intro rid x hx
        exact h.unlimited rid x (by rwa [← stored rid])
    | renewed tick count stored =>
      refine ⟨⟨[], List.nodup_nil, by simp [count], by simp⟩, ?_⟩
      intro rid x hx
      exact h.unlimited rid x (by rwa [← stored rid])
    | @answered c requestId body x received serving new tick count stored limited =>
      obtain ⟨payload, huplink, hframe⟩ := ours c _ received (by simp [stationOf, serving])
      have hparse : w.parse payload =
          .message (.command protocolVersion l.server.economy.runId requestId body) :=
        (Frame.binary.inj hframe).symm
      have hcharged := hg payload _ _ requestId body huplink hparse new
      obtain ⟨hquota, hcode⟩ := h.answered hcharged hsession new tick count stored limited
      refine ⟨hquota, ?_⟩
      intro rid y hy
      rw [stored rid] at hy
      split at hy
      next =>
        cases Option.some.inj hy
        exact hcode
      next => exact h.unlimited rid y hy
  constructor
  case server =>
    rw [hserver]
    exact hrecorded
  case session =>
    rw [hsession, session]
    exact h.session
  case clock =>
    rw [ticks_eq]
    refine views_server (ticks_eq l ▸ h.clock) session down htick (fun hsent => ?_)
    obtain ⟨seat, _, hsnapshot⟩ := hshows _ hsent
    exact (BazaarServer.snapshotFor_shown hsnapshot).tick
  case rules =>
    intro snapshot hs
    rw [hsession] at hs
    rcases hs with hs | hs
    · exact h.rules snapshot (Or.inl hs)
    · rcases snapshots_server down hshows hs with hs | hs
      · exact h.rules snapshot (Or.inr hs)
      · exact hs.trans hrecorded.rules
  case quota => exact hback.1
  case unlimited => exact hback.2

theorem Synced.session_step (h : Synced w config throttle hist l)
    {event : BazaarSession.Event} {outs : List SessionOutput}
    (label : sessionLabel lab = some (event, outs)) (silent : serverLabel w lab = none)
    (hstep : BazaarSession.Step w.bodyFingerprint l.session (event, outs) t.session)
    (server : t.server = l.server)
    (down : (∃ message, event = .item (.message message) ∧ l.down = message :: t.down) ∨
      (∀ message, event ≠ .item (.message message)) ∧ t.down = l.down) :
    Synced w config throttle (hist ++ [lab]) t := by
  have hserver :
    serverHist w (hist ++ [lab]) = serverHist w hist := by simp [serverHist_snoc, silent]
  have hsession : sessionHist (hist ++ [lab]) = sessionHist hist ++ [(event, outs)] := by
    simp [sessionHist_snoc, label]
  obtain ⟨hoffline, _⟩ := BazaarSession.run_gated h.session
  have hordered : Ordered l.session event := by
    rintro snapshot held rfl hheld _
    obtain ⟨message, heq, hdown⟩ := down.resolve_right (fun hno => hno.1 _ rfl)
    obtain rfl : ServerEvent.state snapshot = message := by simpa using heq
    have hclock := h.clock
    simp only [ticks, hheld, hdown, Option.map_some, Option.toList_some, List.filterMap_cons,
      stateTick, List.cons_append] at hclock
    exact (List.pairwise_cons.mp hclock).1 _ List.mem_cons_self
  constructor
  case server =>
    rw [hserver, server]
    exact h.server
  case session =>
    rw [hsession]
    exact h.session.next hordered hstep
  case clock =>
    rw [ticks_eq]
    exact (ticks_eq l ▸ h.clock).sublist
      (views_session server down (BazaarSession.step_latest hoffline hstep))
  case rules =>
    intro snapshot hs
    have hdown : ∀ message, message ∈ t.down → message ∈ l.down := by
      intro message hm
      rcases down with ⟨head, _, hdown⟩ | ⟨_, hdown⟩
      · rw [hdown]
        exact List.mem_cons_of_mem _ hm
      · rwa [← hdown]
    rcases hs with hs | hs
    · rw [hsession, BazaarSession.received_snoc] at hs
      rcases List.mem_append.mp hs with hs | hs
      · exact h.rules snapshot (Or.inl hs)
      · have hevent : event = .item (.message (.state snapshot)) := by
          simp only [Option.mem_toList, BazaarSession.receivedIn] at hs
          split at hs
          next => rw [← Option.some.inj hs]
          next => simp at hs
        obtain ⟨message, heq, hdown⟩ := down.resolve_right (fun hno => hno.1 _ hevent)
        rw [hevent] at heq
        obtain rfl : ServerEvent.state snapshot = message := by simpa using heq
        exact h.rules snapshot (Or.inr (by rw [hdown]; exact List.mem_cons_self))
    · exact h.rules snapshot (Or.inr (hdown _ hs))
  case quota =>
    obtain ⟨ids, hnodup, hle, hids⟩ := h.quota
    refine ⟨ids, hnodup, by rwa [server], ?_⟩
    intro rid hrid
    rw [server, hsession, BazaarSession.outputs_snoc]
    exact ⟨(hids rid hrid).1, List.mem_append_left _ (hids rid hrid).2⟩
  case unlimited =>
    rw [server]
    exact h.unlimited

theorem step_synced (h : Synced w config throttle hist l) (hg : InTime w hist l lab)
    (hstep : Step w l lab t) :
    Synced w config throttle (hist ++ [lab]) t := by
  cases step_moves hstep with
  | server label silent step session down ours =>
    exact h.server_step hg label silent step session down ours
  | session label silent step server down => exact h.session_step label silent step server down

theorem init_synced (w : Wiring) (config : Config) (throttle : CommandThrottle) :
    Synced w config throttle [] (init config throttle) where
  server := Recorded.init config
  session := Machine.GuardedRun.start
  clock := by simp [ticks, init, BazaarSession.init, BazaarSession.start]
  rules := by
    intro snapshot hs
    simp [sessionHist, BazaarSession.received, init] at hs
  quota := by
    refine ⟨[], List.nodup_nil, ?_, by simp⟩
    have hcounts : (init config throttle).server.economy.commandCounts = Dict.empty :=
      (SimulatedEconomy.applyProduction_clock _ config.production).2
    simp [SimulatedEconomy.countOf, hcounts]
  unlimited := by
    intro rid x hx
    exact absurd ((BazaarServer.init_storedFor config w.stationId rid).symm.trans hx) (by simp)

theorem run_synced (run : Machine.GuardedRun (InTime w) (Step w) (init config throttle) hist l) :
    Synced w config throttle hist l :=
  run.invariant (I := Synced w config throttle) (init_synced w config throttle)
    (fun _ _ _ _ h hg hstep => step_synced h hg hstep)

/-- The two quotas agree as long as no command crosses a tick boundary on its way. -/
theorem run_quota (run : Machine.GuardedRun (InTime w) (Step w) (init config throttle) hist l) :
    (∀ o ∈ BazaarServer.outputs (serverHist w hist),
      ∀ r, o.Carries w.stationId r → r.code ≠ .rateLimited) ∧
      l.server.economy.countOf w.stationId ≤
        BazaarSession.charges (sessionHist hist) l.server.economy.tick ∧
      ∀ tick, BazaarSession.charges (sessionHist hist) tick ≤
        config.rules.newCommandsPerStationPerTick := by
  have h := run_synced run
  refine ⟨?_, ?_, h.charges_le⟩
  · intro o ho r hcarries hcode
    obtain ⟨rid, x, hx, hxr⟩ := h.server.answered o ho w.stationId r hcarries (by simp [hcode])
    exact h.unlimited rid x hx (hxr ▸ hcode)
  · obtain ⟨ids, hnodup, hle, hids⟩ := h.quota
    exact hle.trans (BazaarSession.length_le_charges hnodup (fun rid hrid => (hids rid hrid).2))

section Samples

def callOf : BazaarSession.Event → Option Nat
  | .sendCommand call _ _ _ => some call
  | _ => none

def resultsOf (hist : List (BazaarSession.Event × List SessionOutput))
    (call : Nat) : List CommandResult :=
  (BazaarSession.outputs hist).filterMap (fun o =>
    match o with
    | .reply c (.ok (.outcome outcome)) => if c = call then outcome.result else none
    | _ => none)

/-- Every command so far came back with a result, and a received state contains it. -/
def Confirmed (hist : List (BazaarSession.Event × List SessionOutput)) : Prop :=
  ∀ l ∈ hist, ∀ call ∈ (callOf l.1).toList, ∃ result ∈ resultsOf hist call,
    ∃ q ∈ BazaarSession.received hist, result ∈ q.requestResults

instance (hist : List (BazaarSession.Event × List SessionOutput)) : Decidable (Confirmed hist) :=
  inferInstanceAs
    (Decidable (∀ l ∈ hist, ∀ call ∈ (callOf l.1).toList, ∃ result ∈ resultsOf hist call,
    ∃ q ∈ BazaarSession.received hist, result ∈ q.requestResults))

/-- A client that runs `Executor.execute` to its end before the next command. -/
def OneAtATime (hist : List Label) (_ : Link) (lab : Label) : Prop :=
  ((sessionLabel lab).bind (fun l => callOf l.1)).isSome = true → Confirmed (sessionHist hist)

instance (hist : List Label) (l : Link) (lab : Label) : Decidable (OneAtATime hist l lab) :=
  inferInstanceAs (Decidable (((sessionLabel lab).bind (fun l => callOf l.1)).isSome = true →
    Confirmed (sessionHist hist)))

def inTime? (w : Wiring) (hist : List Label) (l : Link) (lab : Label) : Bool :=
  match lab.1 with
  | .uplink payload =>
    match w.parse payload with
    | .message (.command _ _ requestId _) =>
      (l.server.storedFor w.stationId requestId).isSome ||
        (BazaarSession.outputs (sessionHist hist)).any (fun o =>
          match o with
          | .charged rid tick => rid = requestId && tick = l.server.economy.tick
          | _ => false)
    | _ => true
  | _ => true

theorem inTime?_sound (hist : List Label) (l : Link) (lab : Label)
    (h : inTime? w hist l lab = true) :
    InTime w hist l lab := by
  intro payload pv runId requestId body huplink hparse hnew
  simp only [inTime?, huplink, hparse, hnew, Option.isSome_none, Bool.false_or] at h
  obtain ⟨o, ho, hcharged⟩ := List.any_eq_true.mp h
  cases o with
  | charged rid tick =>
    simp only [Bool.and_eq_true, decide_eq_true_eq] at hcharged
    rwa [hcharged.1, hcharged.2] at ho
  | ready | transmitted | reply => simp at hcharged

/-- Turns that take whatever message is at the head of a queue. -/
inductive Turn
  | server (event : BazaarServer.Event)
  | up
  | down
  | session (event : BazaarSession.Event)

def Turn.event (l : Link) : Turn → Option Event
  | .server event => some (.server event)
  | .up => l.up.head?.map Event.uplink
  | .down => l.down.head?.map Event.downlink
  | .session event => some (.session event)

def schedule (w : Wiring) : Link → List Turn → List Event
  | _, [] => []
  | l, turn :: turns =>
    match turn.event l with
    | none => []
    | some event => event :: ((step? w l event).map (fun r => schedule w r.2 turns)).getD []

/-- Two planets, one command each per tick. -/
def hurriedConfig : Config :=
  { BazaarServer.pairConfig with rules := { defaultRules with newCommandsPerStationPerTick := 1 } }

def withdrawMessage (requestId : String) : ClientMessage :=
  .command "2.0" "sim" requestId (.withdraw "offer-1")

/-- The parser, on the messages these runs send. -/
def parseSample (payload : List UInt8) : Payload :=
  match [.ready "2.0" "sim" true 1, withdrawMessage "r1", withdrawMessage "r2"].find?
      (fun message => message.serializeToString = payload) with
  | some message => .message message
  | none => .undecodable "not in the sample"

def sampleWiring : Wiring where
  connection := 0
  stationId := "P01"
  sha256 := plainDigest
  bodyFingerprint := plainDigest
  parse := parseSample

/-- The planet connects, declares itself ready and sees the run start. -/
def greeting : List Turn :=
  [.server (.connect 0 true "key-1"), .server (.resume 0), .down, .session (.readySent true), .up,
    .server (.resume 0), .server (.resumeTask 0), .down, .down]

def sends (call : Nat) (requestId : String) : List Turn :=
  [.session (.sendCommand call (.complete (withdrawMessage requestId)) "withdraw" requestId),
    .session (.payloadSent call true)]

/-- The first command is charged to tick 0 and processed in tick 1; its result and the
state that confirms it come back before the second command is sent. -/
def crossing : List Turn :=
  greeting ++ sends 0 "r1" ++
    [.server .advance, .up, .server (.resume 0), .down, .down, .down, .session (.resume 0)] ++
    sends 1 "r2" ++ [.up]

def isLimited : Output → Bool
  | .send p _ (.result r) => p = "P01" && r.requestId = "r2" && r.code = .rateLimited
  | _ => false

/-- A tick passes after the first command is processed, and the second goes out in it. -/
def spaced : List Turn :=
  greeting ++ sends 0 "r1" ++
    [.up, .server (.resume 0), .server .advance, .down, .down, .down, .session (.resume 0)] ++
    sends 1 "r2" ++ [.up]

theorem run_quota_spaced :
    ∃ hist l, Machine.GuardedRun
      (InTime sampleWiring) (Step sampleWiring) (init hurriedConfig ⟨1, 0, 0, 0⟩) hist l ∧
      (∀ o ∈ BazaarServer.outputs (serverHist sampleWiring hist),
        ∀ r, o.Carries "P01" r → r.code ≠ .rateLimited) ∧
      [0, 1].map (BazaarSession.charges (sessionHist hist)) = [1, 1] ∧
      ["r1", "r2"].map (fun requestId =>
        (l.server.storedFor "P01" requestId).map (fun x => x.result.processedTick)) =
        [some 0, some 1] := by
  have hall : (Machine.replayGuarded
      (step? sampleWiring) (inTime? sampleWiring) [] (init hurriedConfig ⟨1, 0, 0, 0⟩)
      (schedule sampleWiring (init hurriedConfig ⟨1, 0, 0, 0⟩) spaced)).map (fun r =>
        ([0, 1].map (BazaarSession.charges (sessionHist r.1)),
          ["r1", "r2"].map (fun requestId =>
          (r.2.server.storedFor "P01" requestId).map (fun x => x.result.processedTick)))) =
      some ([1, 1], [some 0, some 1]) := by decide +kernel
  obtain ⟨⟨hist, l⟩, hreplay, hall⟩ := Option.map_eq_some_iff.mp hall
  obtain ⟨hcharges, hticks⟩ := Prod.mk.inj hall
  have run := Machine.guardedRun_of_replay inTime?_sound Machine.GuardedRun.start hreplay
  exact ⟨hist, l, run, (run_quota run).1, hcharges, hticks⟩

/-- One tick passes while a command is on its way, and the next command is refused. -/
theorem command_crosses_tick :
    ∃ hist l, Machine.GuardedRun OneAtATime
      (Step sampleWiring) (init hurriedConfig ⟨1, 0, 0, 0⟩) hist l ∧
      ∃ o ∈ BazaarServer.outputs (serverHist sampleWiring hist), ∃ r, o.Carries "P01" r ∧
        r.requestId = "r2" ∧
        r.code = .rateLimited := by
  have hall : (Machine.replayGuarded
      (step? sampleWiring) (fun hist l lab => decide (OneAtATime hist l lab)) []
      (init hurriedConfig ⟨1, 0, 0, 0⟩)
      (schedule sampleWiring (init hurriedConfig ⟨1, 0, 0, 0⟩) crossing)).map
        (fun r => (BazaarServer.outputs (serverHist sampleWiring r.1)).any isLimited) =
          some true := by decide +kernel
  obtain ⟨⟨hist, l⟩, hreplay, hlimited⟩ := Option.map_eq_some_iff.mp hall
  have run := Machine.guardedRun_of_replay
    (fun _ _ _ h => of_decide_eq_true h) Machine.GuardedRun.start hreplay
  obtain ⟨o, ho, hlimited⟩ := List.any_eq_true.mp hlimited
  refine ⟨hist, l, run, o, ho, ?_⟩
  cases o with
  | send p c event =>
    cases event with
    | result r =>
      simp only [isLimited, Bool.and_eq_true, decide_eq_true_eq] at hlimited
      exact ⟨r, ⟨hlimited.1.1, rfl⟩, hlimited.1.2, hlimited.2⟩
    | state | readiness | protocolError => simp [isLimited] at hlimited
  | rejected | closing | executed => simp [isLimited] at hlimited

end Samples

end Link

end SpaceportBazaar
