import SpaceportBazaar.ServerHandshake

namespace SpaceportBazaar

namespace BazaarServer

/-- The planets `_authenticate` chooses from when it is open to anyone. -/
def free (s : BazaarServer) : List String :=
  s.economy.stations.keys.filter (fun sid => sid ∉ s.claimed)

/-- A live connection for this planet. -/
def LiveOn (s : BazaarServer) (c : Nat) (p : String) : Prop :=
  ∃ stage, s.handlers.get? c = some ⟨p, stage⟩ ∧ stage ≠ .finished

theorem authenticate_open {s : BazaarServer} (hopen : s.openAuth = true) (token : String) :
    s.authenticate true token =
      s.free.head?.map (fun sid => (sid, { s with claimed := sid :: s.claimed })) := by
  unfold authenticate free
  rw [if_neg (by simp), if_pos hopen]
  split
  next h => rw [h]; rfl
  next sid _ h => rw [h]; rfl

end BazaarServer

namespace Lobby

variable {sha256 : List UInt8 → String} {l l' : Lobby} {ev : Event} {outs : List Output}
  {hist : List (Event × List Output)}

/-- What one step does to the connections, the claims and the handshakes. -/
inductive Passage (l : Lobby) : Event → Lobby → Prop
  | refused {c offersSubprotocol token} : Passage l (.request c offersSubprotocol token) l
  | claimed {c p token server} (new : l.server.handlers.get? c = none)
    (fresh : l.pending.get? c = none)
    (free : p ∉ l.server.claimed)
    (server_eq : server = { l.server with claimed := p :: l.server.claimed }) :
    Passage l (.request c true token) ⟨server, l.pending.set c p⟩
  | failed {c p} (was : l.pending.get? c = some p) :
    Passage l (.fail c) { l with pending := l.pending.erase c }
  | seated {c p server} (was : l.pending.get? c = some p)
    (seats : server.seats = l.server.seats.set p c)
    (handlers : server.handlers = l.server.handlers.set c ⟨p, .serving []⟩)
    (claims : server.claimed = l.server.claimed)
    (openAuth : server.openAuth = true) : Passage l (.complete c) ⟨server, l.pending.erase c⟩
  | turned {event server} (turnover : l.server.Turnover server)
    (openAuth : server.openAuth = true) :
    Passage l (.serve event) { l with server := server }

/-- Who holds what, in every run of an open server. -/
structure Exclusive (l : Lobby) : Prop where
  openAuth : l.server.openAuth = true
  stages : ∀ c p stage, l.server.handlers.get? c = some ⟨p, stage⟩ → stage = .finished ∨
    stage.settled = true
  seated : ∀ c p stage, l.server.handlers.get? c = some ⟨p, stage⟩ → stage.settled = true →
    l.server.seats.get? p = some c
  holder : ∀ c p, l.server.seats.get? p = some c →
    p ∈ l.server.claimed ∧ ∃ stage, l.server.handlers.get? c = some ⟨p, stage⟩ ∧
    stage.settled = true
  waiting : ∀ c p, l.pending.get? c = some p →
    p ∈ l.server.claimed ∧ l.server.seats.get? p = none ∧ l.server.handlers.get? c = none
  apart : ∀ c d p, l.pending.get? c = some p → l.pending.get? d = some p → c = d

theorem arrive_seated {s : BazaarServer} {c : Nat} {p : String} (hseat : s.seats.get? p = none) :
    (s.arrive c p).2.seats = s.seats.set p c ∧
      (s.arrive c p).2.handlers = s.handlers.set c ⟨p, .serving []⟩ ∧
      (s.arrive c p).2.claimed = s.claimed ∧ (s.arrive c p).2.openAuth = s.openAuth := by
  obtain ⟨seatOf, hs⟩ := BazaarServer.sendState_frame { s with
    seats := s.seats.set p c
    seatOf := s.seatOf.set c { stationId := p } } c
  unfold BazaarServer.arrive
  rw [hseat]
  simp only [BazaarServer.register]
  rw [hs]
  exact ⟨rfl, rfl, rfl, rfl⟩

theorem step_passage (h : Exclusive l) (hs : Step sha256 l (ev, outs) l') : Passage l ev l' := by
  have hs : step? sha256 l ev = some (outs, l') := hs
  cases ev with
  | request c offersSubprotocol token =>
    simp only [step?] at hs
    split at hs
    next => cases hs
    next hnew =>
      obtain ⟨hfresh, hnone⟩ : l.pending.get? c = none ∧ l.server.handlers.get? c = none := by
        simpa [Dict.contains] using hnew
      cases offersSubprotocol with
      | false =>
        cases hs
        exact .refused
      | true =>
        rw [BazaarServer.authenticate_open h.openAuth] at hs
        cases hfree : l.server.free with
        | nil =>
          rw [hfree] at hs
          cases hs
          exact .refused
        | cons p later =>
          rw [hfree] at hs
          cases hs
          have hp : p ∈ l.server.free := by rw [hfree]; exact List.mem_cons_self
          exact .claimed hnone hfresh (by simpa using (List.mem_filter.mp hp).2) rfl
  | fail c =>
    simp only [step?] at hs
    split at hs
    next => cases hs
    next p hp =>
      cases hs
      exact .failed hp
  | complete c =>
    simp only [step?] at hs
    split at hs
    next => cases hs
    next p hp =>
      cases hs
      obtain ⟨hseats, hhandlers, hclaimed, hopen⟩ := arrive_seated (c := c) (h.waiting c p hp).2.1
      exact .seated hp hseats hhandlers hclaimed (hopen.trans h.openAuth)
  | serve event =>
    have hconnect : ∀ c o t, event ≠ .connect c o t := by
      rintro c o t rfl
      cases hs
    have hserve : (l.server.step? sha256 event).map (fun r => (r.1, { l with server := r.2 })) =
        some (outs, l') := by
      cases event with
      | connect c o t => exact absurd rfl (hconnect c o t)
      | _ => exact hs
    obtain ⟨r, hr, heq⟩ := Option.map_eq_some_iff.mp hserve
    cases heq
    obtain ⟨hturn, hopen⟩ := BazaarServer.step_turnover h.openAuth hconnect h.stages hr
    exact .turned hturn hopen

theorem Exclusive.init {config : Config} (hopen : config.openAuth = true) :
    Exclusive (init config) where
  openAuth := hopen
  stages c p stage h := by simp [Lobby.init, BazaarServer.init] at h
  seated c p stage h := by simp [Lobby.init, BazaarServer.init] at h
  holder c p h := by simp [Lobby.init, BazaarServer.init] at h
  waiting c p h := by simp [Lobby.init] at h
  apart c d p h := by simp [Lobby.init] at h

/-- A handler moves on at its seat. -/
theorem Exclusive.moved {c : Nat}
    {p : String} {stage stage' : Stage} {server : BazaarServer} (h : Exclusive l)
    (hopen : server.openAuth = true) (was : l.server.handlers.get? c = some ⟨p, stage⟩)
    (live : stage.settled = true) (stays : stage'.settled = true)
    (seats : server.seats = l.server.seats) (claimed : server.claimed = l.server.claimed)
    (handlers : server.handlers = l.server.handlers.set c ⟨p, stage'⟩) :
    Exclusive { l with server := server } := by
  refine ⟨hopen, ?_, ?_, ?_, ?_, h.apart⟩
  · intro d q st hd
    rw [handlers] at hd
    rcases Dict.get?_set_some hd with ⟨-, heq⟩ | ⟨-, hd⟩
    · cases heq
      exact .inr stays
    · exact h.stages d q st hd
  · intro d q st hd hst
    rw [handlers] at hd
    rw [seats]
    rcases Dict.get?_set_some hd with ⟨rfl, heq⟩ | ⟨-, hd⟩
    · cases heq
      exact h.seated _ _ stage was live
    · exact h.seated d q st hd hst
  · intro d q hd
    rw [seats] at hd
    rw [claimed, handlers]
    obtain ⟨hq, st, hst, hsettled⟩ := h.holder d q hd
    refine ⟨hq, ?_⟩
    by_cases hdc : d = c
    · subst hdc
      rw [was] at hst
      cases hst
      exact ⟨stage', Dict.get?_set_self _ _ _, stays⟩
    · exact ⟨st, by rwa [Dict.get?_set_of_ne _ _ hdc], hsettled⟩
  · intro d q hd
    obtain ⟨hq, hseat, hnone⟩ := h.waiting d q hd
    have hdc : d ≠ c := by
      rintro rfl
      rw [was] at hnone
      cases hnone
    rw [claimed, seats, handlers]
    exact ⟨hq, hseat, by rwa [Dict.get?_set_of_ne _ _ hdc]⟩

/-- A handler that ends gives back its seat and its claim. -/
theorem Exclusive.left {c : Nat} {p : String}
    {stage : Stage} {server : BazaarServer} (h : Exclusive l)
    (hopen : server.openAuth = true) (was : l.server.handlers.get? c = some ⟨p, stage⟩)
    (seats : server.seats = l.server.seats.erase p)
    (claimed : server.claimed = l.server.claimed.filter (fun sid => sid ≠ p))
    (handlers : server.handlers = l.server.handlers.set c ⟨p, .finished⟩)
    (seat : l.server.seats.get? p = some c) :
    Exclusive { l with server := server } := by
  have hother : ∀ d q, d ≠ c → l.server.seats.get? q = some d → q ≠ p := by
    rintro d q hd hq rfl
    rw [seat] at hq
    exact hd (Option.some.inj hq).symm
  refine ⟨hopen, ?_, ?_, ?_, ?_, h.apart⟩
  · intro d q st hd
    rw [handlers] at hd
    rcases Dict.get?_set_some hd with ⟨-, heq⟩ | ⟨-, hd⟩
    · cases heq
      exact .inl rfl
    · exact h.stages d q st hd
  · intro d q st hd hst
    rw [handlers] at hd
    rcases Dict.get?_set_some hd with ⟨-, heq⟩ | ⟨hdc, hd⟩
    · cases heq
      cases hst
    · have hq := h.seated d q st hd hst
      rw [seats, Dict.get?_erase_of_ne _ (hother d q hdc hq)]
      exact hq
  · intro d q hd
    rw [seats] at hd
    obtain ⟨hqp, hd⟩ := Dict.get?_erase_some hd
    obtain ⟨hq, st, hst, hsettled⟩ := h.holder d q hd
    have hdc : d ≠ c := by
      rintro rfl
      rw [was] at hst
      cases hst
      exact hqp rfl
    rw [claimed, handlers]
    exact ⟨List.mem_filter.mpr ⟨hq, by simpa using hqp⟩, st,
      by rwa [Dict.get?_set_of_ne _ _ hdc], hsettled⟩
  · intro d q hd
    obtain ⟨hq, hseat, hnone⟩ := h.waiting d q hd
    have hqp : q ≠ p := by
      rintro rfl
      rw [seat] at hseat
      cases hseat
    have hdc : d ≠ c := by
      rintro rfl
      rw [was] at hnone
      cases hnone
    rw [claimed, seats, handlers]
    exact ⟨List.mem_filter.mpr ⟨hq, by simpa using hqp⟩, by rwa [Dict.get?_erase_of_ne _ hqp],
      by rwa [Dict.get?_set_of_ne _ _ hdc]⟩

/-- A planet is claimed for a handshake that goes on. -/
theorem Exclusive.claim {c : Nat} {p : String} (h : Exclusive l)
    (hnew : l.server.handlers.get? c = none) (hfree : p ∉ l.server.claimed) :
    Exclusive ⟨{ l.server with claimed := p :: l.server.claimed }, l.pending.set c p⟩ := by
  refine ⟨h.openAuth, h.stages, h.seated, ?_, ?_, ?_⟩
  · intro d q hd
    obtain ⟨hq, hhandler⟩ := h.holder d q hd
    exact ⟨List.mem_cons_of_mem _ hq, hhandler⟩
  · intro d q hd
    rcases Dict.get?_set_some hd with ⟨rfl, rfl⟩ | ⟨-, hd⟩
    · refine ⟨List.mem_cons_self, ?_, hnew⟩
      cases hseat : l.server.seats.get? q with
      | none => rfl
      | some e => exact absurd (h.holder e q hseat).1 hfree
    · obtain ⟨hq, hrest⟩ := h.waiting d q hd
      exact ⟨List.mem_cons_of_mem _ hq, hrest⟩
  · intro d e q hd he
    rcases Dict.get?_set_some hd with ⟨rfl, rfl⟩ | ⟨-, hd'⟩ <;>
      rcases Dict.get?_set_some he with ⟨rfl, heq⟩ | ⟨-, he'⟩
    · rfl
    · exact absurd (h.waiting e q he').1 hfree
    · exact absurd (heq ▸ (h.waiting d q hd').1) hfree
    · exact h.apart d e q hd' he'

/-- A handshake that is completed takes the seat it was given. -/
theorem Exclusive.arrived {c : Nat} {p : String} {server : BazaarServer} (h : Exclusive l)
    (hopen : server.openAuth = true)
    (was : l.pending.get? c = some p) (seats : server.seats = l.server.seats.set p c)
    (handlers : server.handlers = l.server.handlers.set c ⟨p, .serving []⟩)
    (claimed : server.claimed = l.server.claimed) : Exclusive ⟨server, l.pending.erase c⟩ := by
  obtain ⟨hclaim, hseat, hnone⟩ := h.waiting c p was
  have hother : ∀ d q, l.server.seats.get? q = some d → q ≠ p := by
    rintro d q hq rfl
    rw [hseat] at hq
    cases hq
  refine ⟨hopen, ?_, ?_, ?_, ?_, ?_⟩
  · intro d q st hd
    rw [handlers] at hd
    rcases Dict.get?_set_some hd with ⟨-, heq⟩ | ⟨-, hd⟩
    · cases heq
      exact .inr rfl
    · exact h.stages d q st hd
  · intro d q st hd hst
    rw [handlers] at hd
    rw [seats]
    rcases Dict.get?_set_some hd with ⟨rfl, heq⟩ | ⟨-, hd⟩
    · cases heq
      exact Dict.get?_set_self _ _ _
    · have hq := h.seated d q st hd hst
      rwa [Dict.get?_set_of_ne _ _ (hother d q hq)]
  · intro d q hd
    rw [seats] at hd
    rw [claimed, handlers]
    rcases Dict.get?_set_some hd with ⟨rfl, rfl⟩ | ⟨-, hd⟩
    · exact ⟨hclaim, _, Dict.get?_set_self _ _ _, rfl⟩
    · obtain ⟨hq, st, hst, hsettled⟩ := h.holder d q hd
      have hdc : d ≠ c := by
        rintro rfl
        rw [hnone] at hst
        cases hst
      exact ⟨hq, st, by rwa [Dict.get?_set_of_ne _ _ hdc], hsettled⟩
  · intro d q hd
    obtain ⟨hdc, hd⟩ := Dict.get?_erase_some hd
    obtain ⟨hq, hseat', hnone'⟩ := h.waiting d q hd
    have hqp : q ≠ p := fun hqp => hdc (h.apart d c p (hqp ▸ hd) was)
    rw [claimed, seats, handlers]
    exact ⟨hq, by rwa [Dict.get?_set_of_ne _ _ hqp], by rwa [Dict.get?_set_of_ne _ _ hdc]⟩
  · exact fun d e q hd he => h.apart d e q (Dict.get?_erase_some hd).2 (Dict.get?_erase_some he).2

theorem Exclusive.step (h : Exclusive l) (hp : Passage l ev l') : Exclusive l' := by
  cases hp with
  | refused => exact h
  | @claimed c p _ server hnew _ hfree hserver =>
    subst hserver
    exact h.claim hnew hfree
  | @failed c p _ =>
    refine ⟨h.openAuth, h.stages, h.seated, h.holder, ?_, ?_⟩
    · exact fun d q hd => h.waiting d q (Dict.get?_erase_some hd).2
    · exact fun d e q hd he => h.apart d e q (Dict.get?_erase_some hd).2 (Dict.get?_erase_some he).2
  | @seated c p server was seats handlers claims hopen =>
    exact h.arrived hopen was seats handlers claims
  | @turned event server hturn hopen =>
    cases hturn with
    | idle seats claimed handlers =>
      exact ⟨hopen, by rw [handlers]; exact h.stages, by rw [handlers, seats]; exact h.seated,
        by rw [handlers, seats, claimed]; exact h.holder, by
          rw [handlers, seats, claimed]; exact h.waiting, h.apart⟩
    | moved was live stays seats claimed handlers =>
      exact h.moved hopen was live stays seats claimed handlers
    | @left c p stage was live seats claimed handlers =>
      have seat := h.seated c p stage was live
      rw [if_pos seat] at seats claimed
      exact h.left hopen was seats claimed handlers seat

/-- A planet that is claimed for no one: it has no connection, and no handshake under way. -/
def Lost (l : Lobby) (p : String) : Prop :=
  p ∈ l.server.claimed ∧ l.server.seats.get? p = none ∧ ∀ c, l.pending.get? c ≠ some p

/-- A lost planet stays lost. -/
theorem Lost.step {p : String} (h : Lost l p) (hp : Passage l ev l') : Lost l' p := by
  obtain ⟨hclaimed, hseat, hpending⟩ := h
  cases hp with
  | refused => exact ⟨hclaimed, hseat, hpending⟩
  | @claimed c q _ server hnew hfresh hfree hserver =>
    subst hserver
    refine ⟨List.mem_cons_of_mem _ hclaimed, hseat, fun d hd => ?_⟩
    rcases Dict.get?_set_some hd with ⟨-, rfl⟩ | ⟨-, hd⟩
    · exact hfree hclaimed
    · exact hpending d hd
  | failed hwas => exact ⟨hclaimed, hseat, fun d hd => hpending d (Dict.get?_erase_some hd).2⟩
  | @seated c q server hwas seats handlers claims _ =>
    have hqp : p ≠ q := by
      rintro rfl
      exact hpending c hwas
    exact ⟨claims ▸ hclaimed, by rwa [seats, Dict.get?_set_of_ne _ _ hqp],
      fun d hd => hpending d (Dict.get?_erase_some hd).2⟩
  | turned hturn _ =>
    cases hturn with
    | idle seats claimed _ => exact ⟨claimed ▸ hclaimed, seats ▸ hseat, hpending⟩
    | moved _ _ _ seats claimed _ => exact ⟨claimed ▸ hclaimed, seats ▸ hseat, hpending⟩
    | @left c q _ _ _ seats claimed _ =>
      unfold Lost
      rw [seats, claimed]
      split
      next hq =>
        have hqp : p ≠ q := by
          rintro rfl
          rw [hseat] at hq
          cases hq
        exact ⟨List.mem_filter.mpr ⟨hclaimed, by simpa using hqp⟩,
          by rwa [Dict.get?_erase_of_ne _ hqp], hpending⟩
      next => exact ⟨hclaimed, hseat, hpending⟩

/-- Only a handshake that fails loses a planet. -/
theorem Lost.back {p : String} (h : Lost l' p) (hp : Passage l ev l')
    (hfail : ∀ c, ev ≠ .fail c) : Lost l p := by
  obtain ⟨hclaimed, hseat, hpending⟩ := h
  cases hp with
  | refused => exact ⟨hclaimed, hseat, hpending⟩
  | @claimed c q _ server hnew hfresh hfree hserver =>
    subst hserver
    have hqp : p ≠ q := by
      rintro rfl
      exact hpending c (Dict.get?_set_self _ _ _)
    refine ⟨(List.mem_cons.mp hclaimed).resolve_left hqp, hseat, fun d hd => hpending d ?_⟩
    have hdc : d ≠ c := by
      rintro rfl
      rw [hfresh] at hd
      cases hd
    rwa [Dict.get?_set_of_ne _ _ hdc]
  | @failed c _ _ => exact absurd rfl (hfail c)
  | @seated c q server hwas seats handlers claims _ =>
    rw [seats, Dict.get?_set] at hseat
    split at hseat
    next => cases hseat
    next hqp =>
      refine ⟨claims ▸ hclaimed, hseat, fun d hd => hpending d ?_⟩
      have hdc : d ≠ c := by
        rintro rfl
        rw [hwas] at hd
        exact hqp (Option.some.inj hd).symm
      rwa [Dict.get?_erase_of_ne _ hdc]
  | turned hturn _ =>
    cases hturn with
    | idle seats claimed _ => exact ⟨claimed ▸ hclaimed, seats ▸ hseat, hpending⟩
    | moved _ _ _ seats claimed _ => exact ⟨claimed ▸ hclaimed, seats ▸ hseat, hpending⟩
    | @left c q _ _ _ seats claimed _ =>
      rw [seats] at hseat
      rw [claimed] at hclaimed
      split at hclaimed
      next hq =>
        obtain ⟨hclaimed, hqp⟩ := List.mem_filter.mp hclaimed
        rw [if_pos hq, Dict.get?_erase_of_ne _ (by simpa using hqp)] at hseat
        exact ⟨hclaimed, hseat, hpending⟩
      next hq =>
        rw [if_neg hq] at hseat
        exact ⟨hclaimed, hseat, hpending⟩

theorem Exclusive.loses {c : Nat} (h : Exclusive l) (hp : Passage l (.fail c) l') :
    ∃ p, Lost l' p := by
  cases hp with
  | @failed _ p hwas =>
    obtain ⟨hclaimed, hseat, -⟩ := h.waiting c p hwas
    refine ⟨p, hclaimed, hseat, fun d hd => ?_⟩
    obtain ⟨hdc, hd⟩ := Dict.get?_erase_some hd
    exact hdc (h.apart d c p hd hwas)

/-- Some planet is lost once a handshake that was let through has failed, and not before. -/
theorem run_lost {config : Config} (hopen : config.openAuth = true)
    (run : Machine.Run (Step sha256) (init config) hist l) :
    Exclusive l ∧ ((∃ p, Lost l p) ↔ ∃ e ∈ hist, ∃ c, e.1 = .fail c) := by
  refine run.invariant
      (I := fun hist l => Exclusive l ∧ ((∃ p, Lost l p) ↔ ∃ e ∈ hist, ∃ c, e.1 = .fail c))
    ⟨.init hopen, by simp [Lost, init, BazaarServer.init]⟩ ?_
  rintro hist l ⟨ev, outs⟩ l' ⟨hexclusive, hlost⟩ hs
  have hp := step_passage hexclusive hs
  refine ⟨hexclusive.step hp, ?_, ?_⟩
  · rintro ⟨p, h⟩
    by_cases hfail : ∃ c, ev = .fail c
    · exact ⟨(ev, outs), by simp, hfail⟩
    · obtain ⟨e, he, hc⟩ := hlost.mp ⟨p, h.back hp fun c hc => hfail ⟨c, hc⟩⟩
      exact ⟨e, List.mem_append_left _ he, hc⟩
  · rintro ⟨e, he, c, hc⟩
    rcases List.mem_append.mp he with he | he
    · obtain ⟨p, h⟩ := hlost.mpr ⟨e, he, c, hc⟩
      exact ⟨p, h.step hp⟩
    · cases List.mem_singleton.mp he
      cases hc
      exact hexclusive.loses hp

/-- Claims and connections belong together, one to one, and what nobody has is there to be had. -/
structure InStep (s : BazaarServer) : Prop where
  claimed_iff : ∀ p, p ∈ s.claimed ↔ ∃ c, s.LiveOn c p ∧ s.seats.get? p = some c
  alone : ∀ c d p, s.LiveOn c p → s.LiveOn d p → c = d
  again : ∀ p ∈ s.economy.stations.keys, (∀ c, ¬s.LiveOn c p) →
    p ∈ s.free ∧ ∀ token, (s.authenticate true token).isSome

theorem Exclusive.liveOn_iff {c : Nat} {p : String} (h : Exclusive l) :
    l.server.LiveOn c p ↔ l.server.seats.get? p = some c := by
  constructor
  · rintro ⟨stage, hc, hlive⟩
    exact h.seated c p stage hc ((h.stages c p stage hc).resolve_left hlive)
  · intro hseat
    obtain ⟨-, stage, hc, hsettled⟩ := h.holder c p hseat
    exact ⟨stage, hc, by rintro rfl; cases hsettled⟩

theorem Exclusive.inStep (h : Exclusive l) (hidle : ∀ c, l.pending.get? c = none)
    (hlost : ∀ p, ¬Lost l p) :
    InStep l.server := by
  have hclaimed : ∀ p, p ∈ l.server.claimed ↔ ∃ c, l.server.LiveOn c p ∧
      l.server.seats.get? p = some c := by
    intro p
    constructor
    · intro hp
      cases hseat : l.server.seats.get? p with
      | none => exact absurd ⟨hp, hseat, fun c hc => by rw [hidle c] at hc; cases hc⟩ (hlost p)
      | some c => exact ⟨c, h.liveOn_iff.mpr hseat, rfl⟩
    · rintro ⟨c, -, hseat⟩
      exact (h.holder c p hseat).1
  refine ⟨hclaimed, ?_, ?_⟩
  · intro c d p hc hd
    exact Option.some.inj ((h.liveOn_iff.mp hc).symm.trans (h.liveOn_iff.mp hd))
  · intro p hp hnone
    have hfree : p ∈ l.server.free := by
      refine List.mem_filter.mpr ⟨hp, ?_⟩
      have hnot : p ∉ l.server.claimed := fun hp => by
        obtain ⟨c, hc, -⟩ := (hclaimed p).mp hp
        exact hnone c hc
      simpa using hnot
    refine ⟨hfree, fun token => ?_⟩
    rw [BazaarServer.authenticate_open h.openAuth]
    cases hlist : l.server.free with
    | nil => rw [hlist] at hfree; cases hfree
    | cons q later => rfl

/-- With no handshake under way, claims and connections belong together exactly if every handshake
that was let through has been completed. -/
theorem inStep_iff {config : Config} (hopen : config.openAuth = true)
    (run : Machine.Run (Step sha256) (init config) hist l) (hidle : ∀ c, l.pending.get? c = none) :
    InStep l.server ↔ ∀ e ∈ hist, ∀ c, e.1 ≠ .fail c := by
  obtain ⟨hexclusive, hlost⟩ := run_lost hopen run
  constructor
  · intro h e he c hc
    obtain ⟨p, hp, hseat, -⟩ := hlost.mpr ⟨e, he, c, hc⟩
    obtain ⟨d, -, hd⟩ := (h.claimed_iff p).mp hp
    rw [hseat] at hd
    cases hd
  · intro hnone
    refine hexclusive.inStep hidle fun p hp => ?_
    obtain ⟨e, he, c, hc⟩ := hlost.mp ⟨p, hp⟩
    exact hnone e he c hc

def openConfig : Config := { BazaarServer.pairConfig with openAuth := true }

/-- A visitor comes, is seated and goes. -/
def visit : List Event :=
  [.request 0 true "", .complete 0, .serve (.disconnect 0), .request 1 true "", .complete 1]

theorem visit_inStep : ∃ hist l, Machine.Run (Step plainDigest) (init openConfig) hist l ∧
    l.server.claimed = ["P01"] ∧ InStep l.server := by
  have hall : (Machine.replay (step? plainDigest) (init openConfig) visit).map (fun r =>
      (r.1.map Prod.fst, r.2.server.claimed, r.2.pending.entries)) = some (visit, ["P01"],
        []) := by decide +kernel
  obtain ⟨⟨hist, l⟩, hreplay, hall⟩ := Option.map_eq_some_iff.mp hall
  simp only [Prod.mk.injEq] at hall
  obtain ⟨hevents, hclaimed, hpending⟩ := hall
  have run := Machine.run_of_replay hreplay
  have hidle : ∀ c, l.pending.get? c = none := fun c => by simp [Dict.get?, hpending]
  refine ⟨hist, l, run, hclaimed, (inStep_iff rfl run hidle).mpr ?_⟩
  intro e he c hc
  have hmem : e.1 ∈ visit := hevents ▸ List.mem_map_of_mem he
  rw [hc] at hmem
  simp [visit] at hmem

/-- Handshakes dropped after they were let through leave the planets claimed, with no one on them,
and nobody else gets in. -/
theorem dropped_handshakes_shut_out : ∃ hist l,
    Machine.Run (Step plainDigest) (init openConfig) hist l ∧ (∀ c, l.pending.get? c = none) ∧
    (∀ c p, ¬l.server.LiveOn c p) ∧ l.server.claimed = ["P02", "P01"] ∧
    (∀ token, l.server.authenticate true token = none) ∧ ¬InStep l.server := by
  have hall : (Machine.replay (step? plainDigest) (init openConfig)
      [.request 0 true "", .fail 0, .request 1 true "", .fail 1]).map (fun r =>
        (r.2.server.openAuth,
          r.2.server.claimed, r.2.server.free, r.2.server.handlers.entries.isEmpty,
          r.2.pending.entries.isEmpty)) = some (true, ["P02", "P01"], [], true,
          true) := by decide +kernel
  obtain ⟨⟨hist, l⟩, hreplay, hall⟩ := Option.map_eq_some_iff.mp hall
  simp only [Prod.mk.injEq, List.isEmpty_iff] at hall
  obtain ⟨hopen, hclaimed, hfree, hhandlers, hpending⟩ := hall
  have hnobody : ∀ c p, ¬l.server.LiveOn c p := by
    rintro c p ⟨stage, hc, -⟩
    simp [Dict.get?, hhandlers] at hc
  refine ⟨hist, l, Machine.run_of_replay hreplay,
    fun c => by simp [Dict.get?, hpending], hnobody, hclaimed, ?_, ?_⟩
  · intro token
    rw [BazaarServer.authenticate_open hopen, hfree]
    rfl
  · intro h
    obtain ⟨c, hc, -⟩ := (h.claimed_iff "P01").mp (by simp [hclaimed])
    exact hnobody c "P01" hc

end Lobby

end SpaceportBazaar
