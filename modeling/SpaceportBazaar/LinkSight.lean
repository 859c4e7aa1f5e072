import SpaceportBazaar.LinkNews

namespace SpaceportBazaar

open SimulatedEconomy

namespace SimulatedEconomy

/-- Every id in the ledger was handed out, and none of them twice. -/
def Numbers (e : SimulatedEconomy) : Prop := ∃ hist, Issued hist e

theorem Numbers.distinct {e : SimulatedEconomy} (h : e.Numbers) :
    (e.transactions.map Transaction.transactionId).Nodup := by
  obtain ⟨_, hissued⟩ := h
  exact hissued.distinct.sublist hissued.transactions

theorem Numbers.frame {e e' : SimulatedEconomy} (h : e.Numbers) (ids : e'.ids = e.ids)
    (offers : e'.offers = e.offers) (advertisements : e'.advertisements = e.advertisements)
    (transactions : e'.transactions = e.transactions) : e'.Numbers := by
  obtain ⟨hist, hissued⟩ := h
  exact ⟨hist, hissued.frame rfl ids.ge (by rw [offers]) (by rw [advertisements]) transactions⟩

theorem Numbers.applyProduction {e : SimulatedEconomy} (h : e.Numbers)
    (production : Option (Nat → Nat → Nat)) :
    (e.applyProduction production).Numbers := by
  cases production with
  | none => exact h
  | some production => exact h.frame rfl rfl rfl rfl

end SimulatedEconomy

theorem EconomyMoves.numbers {production : Option (Nat → Nat → Nat)} {e e' : SimulatedEconomy}
    (hb : Book e) (h : EconomyMoves production e e') (numbers : e.Numbers) : e'.Numbers := by
  have hticked : e.ticked.Numbers := numbers.imp fun _ hissued => hissued.ticked
  cases h with
  | same => exact numbers
  | bumped => exact numbers.frame rfl rfl rfl rfl
  | ticked ha =>
    rw [advanceTick_eq_ticked hb.distinct ha]
    exact hticked.applyProduction production
  | ended ha =>
    rw [advanceTick_eq_ticked hb.distinct ha]
    obtain ⟨hist, hissued⟩ := hticked.applyProduction production
    exact ⟨hist, hissued.ended (Continues.applyProduction hb.ticked production).book⟩

namespace BazaarServer

variable {sha256 : List UInt8 → String} {s s' : BazaarServer} {ev : Event} {outs : List Output}

theorem step_numbers (hb : Book s.economy) (hs : Step sha256 s (ev, outs) s')
    (numbers : s.economy.Numbers) :
    s'.economy.Numbers := by
  cases step_effect hs with
  | calm hc => exact hc.economy.numbers hb numbers
  | commanded serving ready hcommand =>
    cases hcommand with
    | replayed | conflicted | full => exact numbers
    | recorded table new room processed =>
      rcases processCommand_cases processed with ⟨_, _, rfl⟩ | ⟨_, _, e, hx, heconomy⟩
      · exact numbers
      · obtain ⟨hist, hissued⟩ := numbers
        have hexecuted : e.Numbers := ⟨_, hissued.executed (execute_executed hx)⟩
        rcases heconomy with rfl | rfl
        · exact hexecuted
        · exact hexecuted.frame rfl rfl rfl rfl

end BazaarServer

/-- No trade is in the state twice. -/
def Snapshot.TradesOnce (snapshot : Snapshot) : Prop :=
  (snapshot.transactions.map Transaction.transactionId).Nodup

namespace Link

variable {w : Wiring} {l t : Link} {lab : Label}

/-- The client holds the state, or it is on its way to it. -/
def InSight (l : Link) (snapshot : Snapshot) : Prop :=
  l.session.latest = some snapshot ∨ ServerEvent.state snapshot ∈ l.down

/-- The ticks in sight, from the held state's to the server's. -/
abbrev tickViews (l : Link) : List Nat := l.views Snapshot.tick SimulatedEconomy.tick

/-- Nothing in sight is older than the tick. -/
def Since (l : Link) (tick : Nat) : Prop := ∀ n ∈ l.tickViews, tick ≤ n

/-- The states in sight come in the order of their ticks, each with a ledger in order. It
takes no promise about bytes or fingerprints, and a client that starts anew keeps it. -/
structure Timed (l : Link) : Prop where
  server : BazaarServer.InOrder l.server
  session : BazaarSession.Offline l.session
  numbers : l.server.economy.Numbers
  ordered : l.tickViews.Pairwise (· ≤ ·)
  once : ∀ snapshot, l.InSight snapshot → snapshot.TradesOnce

theorem tick_mem {held : Snapshot} (latest : l.session.latest = some held) :
    held.tick ∈ l.tickViews := by
  simp [tickViews, views, latest]

theorem Timed.since_held {held : Snapshot} (h : l.Timed) (latest : l.session.latest = some held) :
    l.Since held.tick := by
  have hordered := h.ordered
  simp only [tickViews, views, latest, Option.map_some, Option.toList_some,
    List.singleton_append] at hordered
  intro n hn
  simp only [tickViews, views, latest, Option.map_some, Option.toList_some,
    List.singleton_append] at hn
  rcases List.mem_cons.mp hn with rfl | hn
  · exact le_rfl
  · exact (List.pairwise_cons.mp hordered).1 n hn

/-- A session shows nothing that was not in sight before. -/
theorem inSight_session {event : BazaarSession.Event} {snapshot : Snapshot}
    (down : (∃ message, event = .item (.message message) ∧ l.down = message :: t.down) ∨
      (∀ message, event ≠ .item (.message message)) ∧ t.down = l.down)
    (latest : t.session.latest = l.session.latest ∨
      ∃ snapshot, event = .item (.message (.state snapshot)) ∧ t.session.latest = some snapshot)
    (h : t.InSight snapshot) : l.InSight snapshot := by
  rcases h with hheld | hcoming
  · rcases latest with hsame | ⟨new, rfl, hnew⟩
    · exact .inl (hsame ▸ hheld)
    · obtain ⟨message, heq, hdown⟩ := down.resolve_right (fun hno => hno.1 _ rfl)
      obtain rfl : ServerEvent.state new = message := by simpa using heq
      obtain rfl := Option.some.inj (hnew.symm.trans hheld)
      exact .inr (by simp [hdown])
  · rcases down with ⟨message, _, hdown⟩ | ⟨_, hdown⟩
    · exact .inr (by simp [hdown, hcoming])
    · exact .inr (hdown ▸ hcoming)

/-- Whatever either side does, the states in sight stay in order, and no older one comes up. -/
theorem step_timed (h : l.Timed) (hs : Step w l lab t) :
    t.Timed ∧ ∀ tick, l.Since tick → t.Since tick := by
  cases step_advances hs with
  | @server event outs _ _ step session down =>
    have hahead := BazaarServer.step_tick h.server.book step
    have hshown {q : String} {snapshot : Snapshot}
      (hsent : Output.send q w.connection (.state snapshot) ∈ outs) :
        ∃ seat, seat.stationId = q ∧ t.server.snapshotFor seat = .ok snapshot :=
      BazaarServer.step_current step _ hsent
    have htick {q : String} {snapshot : Snapshot}
        (hsent : Output.send q w.connection (.state snapshot) ∈ outs) :
        snapshot.tick = t.server.economy.tick := by
      obtain ⟨_, _, hsnapshot⟩ := hshown hsent
      exact (BazaarServer.snapshotFor_shown hsnapshot).tick
    have hnumbers := BazaarServer.step_numbers h.server.book step h.numbers
    refine ⟨⟨BazaarServer.step_inOrder h.server step, session ▸ h.session, hnumbers,
      views_server h.ordered session down hahead htick, ?_⟩, fun tick hsince n hn => ?_⟩
    · rintro snapshot (hheld | hcoming)
      · exact h.once snapshot (.inl (session ▸ hheld))
      · rw [down] at hcoming
        rcases List.mem_append.mp hcoming with hold | hnew
        · exact h.once snapshot (.inr hold)
        · obtain ⟨q, hsent⟩ := mem_incoming hnew
          obtain ⟨_, _, hsnapshot⟩ := hshown hsent
          exact hnumbers.distinct.sublist ((BazaarServer.snapshotFor_shown hsnapshot).transactions.map _)
    · have hserver : tick ≤ t.server.economy.tick :=
        (hsince _ (by simp [tickViews, views])).trans hahead
      simp only [tickViews, views, session, down, List.filterMap_append, List.mem_append,
        List.mem_singleton] at hn
      rcases hn with hheld | (hold | hnew) | rfl
      · exact hsince n (by simp [tickViews, views, hheld])
      · exact hsince n (List.mem_append_right _ (List.mem_append_left _ hold))
      · obtain ⟨event, hevent, hstate⟩ := List.mem_filterMap.mp hnew
        obtain ⟨q, hsent⟩ := mem_incoming hevent
        cases event with
        | state snapshot =>
          rw [← Option.some.inj hstate, htick hsent]
          exact hserver
        | readiness | result | protocolError => cases hstate
      · exact hserver
  | session _ step server down =>
    have hlatest := BazaarSession.step_latest h.session step
    have hviews : t.tickViews.Sublist l.tickViews := views_session server down hlatest
    refine ⟨⟨server ▸ h.server, (BazaarSession.step_turn h.session step).2,
      server ▸ h.numbers, h.ordered.sublist hviews, fun snapshot hsight =>
      h.once snapshot (inSight_session down hlatest hsight)⟩, fun tick hsince n hn => ?_⟩
    exact hsince n (hviews.subset hn)

theorem init_timed (config : Config) (throttle : CommandThrottle) :
    (init config throttle).Timed where
  server := BazaarServer.init_inOrder config
  session := BazaarSession.init_offline throttle
  numbers := Numbers.applyProduction
    ⟨[], Issued.create config.stations config.rules config.runId⟩ config.production
  ordered := by simp [tickViews, views, init, BazaarSession.init, BazaarSession.start]
  once snapshot h := by rcases h with hheld | hcoming <;> cases ‹_›

/-- A new session over the same server. -/
theorem Timed.renewed (h : l.Timed) (throttle : CommandThrottle) :
    (Link.mk l.server (.init throttle) [] []).Timed ∧
      ∀ tick, l.Since tick → (Link.mk l.server (.init throttle) [] []).Since tick := by
  have hticks : (Link.mk l.server (.init throttle) [] []).tickViews = [l.server.economy.tick] := rfl
  refine ⟨⟨h.server, BazaarSession.init_offline throttle, h.numbers, by simp [hticks], ?_⟩,
    fun tick hsince n hn => ?_⟩
  · rintro snapshot (hheld | hcoming) <;> cases ‹_›
  · rw [hticks] at hn
    obtain rfl := List.mem_singleton.mp hn
    exact hsince _ (by simp [tickViews, views])

end Link

end SpaceportBazaar
