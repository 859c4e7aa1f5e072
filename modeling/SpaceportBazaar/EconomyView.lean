import SpaceportBazaar.EconomyBoard

namespace SpaceportBazaar

open SimulatedEconomy

theorem find?_unique {α : Type*} {p : α → Bool} {xs : List α} {x : α} (hx : x ∈ xs)
    (hp : p x = true) (unique : ∀ y ∈ xs, p y = true → y = x) : xs.find? p = some x := by
  cases hf : xs.find? p with
  | none => exact absurd hp (by simpa using List.find?_eq_none.mp hf x hx)
  | some y => rw [unique y (List.mem_of_find?_eq_some hf) (List.find?_some hf)]

theorem Book.findOffer_eq {e : SimulatedEconomy} (hb : Book e) {o : Offer} (ho : o ∈ e.offers) :
    e.findOffer o.offerId = some o :=
  find?_unique ho (by simp) (fun q hq hid => hb.same_id hq ho (by simpa using hid))

theorem Board.findAd_eq {e : SimulatedEconomy} (hd : Board e) {a : Advertisement}
    (ha : a ∈ e.advertisements) :
    e.advertisements.find? (fun b => b.advertisementId = a.advertisementId) = some a :=
  find?_unique ha (by simp)
    (fun b hb hid => List.inj_on_of_nodup_map hd.distinct hb ha (by simpa using hid))

/-- Notices and offers are numbered from one counter under different names. -/
theorem Board.findAd_none {e : SimulatedEconomy} (hd : Board e) (hb : Book e) {o : Offer}
    (ho : o ∈ e.offers) :
    e.advertisements.find? (fun a => a.advertisementId = o.offerId) = none := by
  rw [List.find?_eq_none]
  intro a ha hid
  obtain ⟨n, _, hn⟩ := hd.numbered a ha
  obtain ⟨m, _, hm⟩ := hb.numbered o ho
  have hsame : issuedId "ad" n = issuedId "offer" m := by
    rw [← hn, ← hm]
    simpa using hid
  have hkind := (issuedId_injective (by simp [idKinds]) (by simp [idKinds]) hsame).1
  simp at hkind

namespace SimulatedEconomy

variable {e e' : SimulatedEconomy} {stationId : String} {action : Action}
  {s : SimStation} {o : Offer}

theorem execute_admitted (h : Admitted e stationId action s) :
    e.execute stationId action = (e.countCommand stationId).process stationId action := by
  unfold execute
  rw [precheck_eq_none_iff.mpr ⟨s, h⟩]
  rfl

/-- The command returned, and its answer was one of `codes`. -/
def Answers (e : SimulatedEconomy) (stationId : String) (action : Action)
    (codes : List ResultCode) : Prop :=
  ∃ out e', e.execute stationId action = .ok (out, e') ∧ out.code ∈ codes

theorem accept_answers (hb : Book e) (ho : o ∈ e.offers) :
    (∃ out e', e.accept stationId o.offerId = .ok (out, e') ∧
      out.code ∈ [.ok, .insufficientResources]) ↔
      o.recipientId = stationId ∧ o.status = .opened := by
  constructor
  · rintro ⟨out, e', h, hcode⟩
    unfold accept at h
    rw [hb.findOffer_eq ho] at h
    simp only at h
    split_ifs at h with hrecipient hstatus
    · cases Except.ok.inj h
      simp at hcode
    · cases Except.ok.inj h
      simp at hcode
    all_goals exact ⟨by simpa using hrecipient, by simpa using hstatus⟩
  · rintro ⟨hrecipient, hopen⟩
    have hlive := hb.live o ho hopen
    obtain ⟨p, hp, hpf⟩ := hlive.proposer
    obtain ⟨r, hr, hrf⟩ := hlive.recipient
    have hdue : o.isExpiredAt e.tick = false := by
      simpa [Offer.isExpiredAt] using hlive.inTime
    cases h : e.accept stationId o.offerId with
    | error raised => exact absurd h (accept_ne_error hb)
    | ok answer =>
      refine ⟨answer.1, answer.2, rfl, ?_⟩
      unfold accept at h
      rw [hb.findOffer_eq ho] at h
      simp only [hrecipient, hopen, hdue, ne_eq, not_true_eq_false, if_false,
        Bool.false_eq_true] at h
      rw [station_eq_ok_iff.mpr hp, ← hrecipient, station_eq_ok_iff.mpr hr] at h
      simp only [bind, Except.bind, hpf, hrf, Bool.or_false, Bool.false_eq_true, if_false] at h
      split at h
      next => cases Except.ok.inj h; simp
      next =>
        obtain ⟨_, _, hout, _⟩ := settle_eq_ok_iff.mp h
        simp [hout]

theorem withdraw_offer_ok (hb : Book e) (hd : Board e) (ho : o ∈ e.offers) :
    (e.withdraw stationId o.offerId).1.code = .ok ↔ o.proposerId = stationId ∧
    o.status = .opened := by
  unfold withdraw
  rw [hd.findAd_none hb ho, hb.findOffer_eq ho]
  by_cases hown : o.proposerId = stationId
  · by_cases hopen : o.status = .opened
    · simp [hown, hopen]
    · simp [hown, hopen]
  · simp [hown]

theorem withdraw_ad_ok (hd : Board e) {a : Advertisement} (ha : a ∈ e.advertisements) :
    (e.withdraw stationId a.advertisementId).1.code = .ok ↔ a.stationId = stationId := by
  unfold withdraw
  rw [hd.findAd_eq ha]
  by_cases hown : a.stationId = stationId
  · simp [hown]
  · simp [hown]

/-- What a view holds of the economy it was taken from. -/
theorem observationFor_view {sequence : Option Nat} {phase : Phase} {results : List CommandResult}
    {outcome : Option PlayerOutcome} {view : Snapshot}
    (h : e.observationFor stationId sequence phase results outcome = .ok (view, e')) :
    view.selfStationId = stationId ∧ view.tick = e.tick ∧ view.advertisements = e.advertisements ∧
      view.offers = e.offers.filter
        (fun o => stationId = o.proposerId || stationId = o.recipientId) := by
  obtain ⟨s, _, h⟩ := bind_eq_ok_iff.mp h
  obtain ⟨rfl, _⟩ := Prod.mk.inj (Except.ok.inj h)
  cases sequence <;> exact ⟨rfl, rfl, rfl, rfl⟩

section Runs

variable {stations : List SimStation} {rules : Rules}
  {runId : String} {ls : List (Operation × List Processed)} {sequence : Option Nat} {phase : Phase}
  {results : List CommandResult} {outcome : Option PlayerOutcome} {view : Snapshot}

/-- In every reachable state what a station sees as open is what the economy lets
it accept or withdraw. -/
theorem run_view (run : Machine.Run Performs (create stations rules runId) ls e)
    (running : e.tick < e.rules.durationTicks) (known : e.stations.get? stationId = some s)
    (standing : s.failedOnce = false)
    (quota : e.countOf stationId < e.rules.newCommandsPerStationPerTick)
    (seen : e.observationFor stationId sequence phase results outcome = .ok (view, e')) :
    (∀ o ∈ e.offers, o ∈ view.incomingOpenOffers ↔
      e.Answers stationId (.accept o.offerId) [.ok, .insufficientResources]) ∧
    (∀ o ∈ e.offers, o ∈ view.outgoingOpenOffers ↔
      e.Answers stationId (.withdraw o.offerId) [.ok]) ∧
    (∀ a, view.ownAdvertisement = some a ↔ a ∈ e.advertisements ∧
      e.Answers stationId (.withdraw a.advertisementId) [.ok] ∧
      ∀ b ∈ e.advertisements, e.Answers stationId (.withdraw b.advertisementId) [.ok] → b = a) := by
  obtain ⟨hb, hd, _⟩ := run_board run
  obtain ⟨hself, htick, hads, hoffers⟩ := observationFor_view seen
  have hcount : Book (e.countCommand stationId) := hb.counted stationId
  have hboard : Board (e.countCommand stationId) := hd.counted quota
  have withdraws : ∀ id, e.Answers stationId (.withdraw id) [.ok] ↔
      ((e.countCommand stationId).withdraw stationId id).1.code = .ok := by
    intro id
    unfold Answers
    rw [execute_admitted (s := s) ⟨known, standing, running, quota, rfl⟩]
    constructor
    · rintro ⟨out, e', h, hcode⟩
      have hout : ((e.countCommand stationId).withdraw stationId id).1 = out :=
        congrArg Prod.fst (Except.ok.inj h)
      rw [hout]
      exact List.mem_singleton.mp hcode
    · intro hcode
      exact ⟨_, _, rfl, List.mem_singleton.mpr hcode⟩
  have hown : ∀ a ∈ e.advertisements, e.Answers stationId (.withdraw a.advertisementId) [.ok] ↔
      a.stationId = stationId := fun a ha => (withdraws _).trans (withdraw_ad_ok hboard ha)
  refine ⟨?_, ?_, ?_⟩
  · intro o ho
    unfold Answers
    rw [execute_admitted (s := s) ⟨known, standing, running, quota, rfl⟩, process, accept_answers
      hcount ho, Snapshot.mem_incomingOpenOffers, hself, htick, hoffers, List.mem_filter]
    constructor
    · rintro ⟨_, hrecipient, hopen, _⟩
      exact ⟨hrecipient, hopen⟩
    · rintro ⟨hrecipient, hopen⟩
      exact ⟨⟨ho, by simp [hrecipient]⟩, hrecipient, hopen, (hb.live o ho hopen).inTime⟩
  · intro o ho
    rw [withdraws, withdraw_offer_ok hcount hboard ho, Snapshot.mem_outgoingOpenOffers, hself,
      htick, hoffers, List.mem_filter]
    constructor
    · rintro ⟨_, hproposer, hopen, _⟩
      exact ⟨hproposer, hopen⟩
    · rintro ⟨hproposer, hopen⟩
      exact ⟨⟨ho, by simp [hproposer]⟩, hproposer, hopen, (hb.live o ho hopen).inTime⟩
  · intro a
    constructor
    · intro h
      obtain ⟨ha, hstation⟩ := Snapshot.ownAdvertisement_spec h
      rw [hads] at ha
      rw [hself] at hstation
      refine ⟨ha, (hown a ha).mpr hstation, ?_⟩
      intro b hb' hanswer
      exact List.inj_on_of_nodup_map hd.single hb' ha
        (((hown b hb').mp hanswer).trans hstation.symm)
    · rintro ⟨ha, hanswer, hunique⟩
      have hstation := (hown a ha).mp hanswer
      unfold Snapshot.ownAdvertisement
      rw [hads, hself]
      refine find?_unique ha (by simp [hstation, hd.active a ha]) ?_
      intro b hb' hp
      simp only [Bool.and_eq_true, decide_eq_true_eq] at hp
      exact hunique b hb' ((hown b hb').mpr hp.1)

/-- After one offer the recipient sees it, and accepting it is answered. -/
theorem run_view_offer :
    ∃ ls e, ∃ o ∈ e.offers, Machine.Run Performs (create tradingPair defaultRules "sim") ls e ∧
      e.Answers "P02" (.accept o.offerId) [.ok, .insufficientResources] := by
  obtain ⟨⟨ls, e⟩, hall, ht, ⟨s, hs, hf⟩, hq, ⟨view, e', hv⟩, ⟨o, ho, hr, hopen, hdue⟩⟩ :
      ∃ r, (create tradingPair defaultRules "sim").performAll
        [.execute "P01" (.offer "P02" ⟨2, 0, 0⟩ ⟨0, 2, 0⟩ 5)] = .ok r ∧
      r.2.tick < r.2.rules.durationTicks ∧
      (∃ s, r.2.stations.get? "P02" = some s ∧ s.failedOnce = false) ∧
      r.2.countOf "P02" < r.2.rules.newCommandsPerStationPerTick ∧
      (∃ view e', r.2.observationFor "P02" = .ok (view, e')) ∧
      ∃ o ∈ r.2.offers, o.recipientId = "P02" ∧ o.status = .opened ∧ r.2.tick < o.expiresTick :=
    ⟨_, rfl, by decide, ⟨_, rfl, rfl⟩, by
      decide, ⟨_, _, rfl⟩, _, List.mem_singleton_self _, rfl, rfl, by decide⟩
  have run := run_of_performAll hall
  obtain ⟨hself, htick, _, hoffers⟩ := observationFor_view hv
  obtain ⟨hincoming, _, _⟩ := run_view run ht hs hf hq hv
  refine ⟨ls, e, o, ho, run, (hincoming o ho).mp (Snapshot.mem_incomingOpenOffers.mpr ?_)⟩
  rw [hself, htick, hoffers]
  exact ⟨List.mem_filter.mpr ⟨ho, by simp [hr]⟩, hr, hopen, hdue⟩

end Runs

end SimulatedEconomy

end SpaceportBazaar
