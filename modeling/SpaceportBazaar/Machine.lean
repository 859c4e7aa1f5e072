import Mathlib.Data.List.Basic

namespace Machine

variable {σ ε : Type*}

/-- Finite runs of a labelled step relation. The labels, oldest first, are the
history of the run; a property of the past is a property of this list. -/
inductive Run (step : σ → ε → σ → Prop) (s₀ : σ) : List ε → σ → Prop
  | start : Run step s₀ [] s₀
  | next {ls s l t} : Run step s₀ ls s → step s l t → Run step s₀ (ls ++ [l]) t

/-- Runs whose every step meets a condition on the history, the state and the label. -/
inductive GuardedRun (guard : List ε → σ → ε → Prop) (step : σ → ε → σ → Prop) (s₀ : σ) :
    List ε → σ → Prop
  | start : GuardedRun guard step s₀ [] s₀
  | next {ls s l t} : GuardedRun guard step s₀ ls s → guard ls s l → step s l t →
    GuardedRun guard step s₀ (ls ++ [l]) t

variable {step : σ → ε → σ → Prop} {s₀ s t : σ} {ls : List ε} {l : ε}

/-- The invariant rule, for invariants that may mention the history. -/
theorem Run.invariant {I : List ε → σ → Prop} (run : Run step s₀ ls s) (start : I [] s₀)
    (preserve : ∀ ls s l t, I ls s → step s l t → I (ls ++ [l]) t) : I ls s := by
  induction run with
  | start => exact start
  | next _ hstep ih => exact preserve _ _ _ _ ih hstep

/-- The invariant rule for predicates of the state alone. -/
theorem Run.preserves {P : σ → Prop} (run : Run step s₀ ls s) (start : P s₀)
    (preserve : ∀ s l t, P s → step s l t → P t) : P s :=
  run.invariant (I := fun _ s => P s) start (fun _ s l t => preserve s l t)

/-- A reflexive and transitive relation that every step respects relates the
ends of every run, provided an invariant of the run backs each step. -/
theorem Run.relates {P : σ → Prop} {R : σ → σ → Prop} (run : Run step s₀ ls s) (start : P s₀)
    (refl : ∀ s, R s s) (trans : ∀ a b c, R a b → R b c → R a c)
    (preserve : ∀ s l t, P s → step s l t → P t)
    (respect : ∀ s l t, P s → step s l t → R s t) : R s₀ s := by
  have both : P s ∧ R s₀ s := by
    refine run.preserves (P := fun s => P s ∧ R s₀ s) ⟨start, refl s₀⟩ ?_
    rintro s l t ⟨hp, hr⟩ hstep
    exact ⟨preserve s l t hp hstep, trans _ _ _ hr (respect s l t hp hstep)⟩
  exact both.2

theorem Run.trans {ms : List ε} (first : Run step s₀ ls s) (second : Run step s ms t) :
    Run step s₀ (ls ++ ms) t := by
  induction second with
  | start => simpa using first
  | next _ hstep ih =>
    rw [← List.append_assoc]
    exact Run.next ih hstep

theorem Run.of_nil (run : Run step s₀ [] s) : s = s₀ := by
  generalize hls : ([] : List ε) = ls at run
  cases run with
  | start => rfl
  | next _ _ => simp at hls

theorem Run.last (run : Run step s₀ (ls ++ [l]) t) : ∃ s, Run step s₀ ls s ∧ step s l t := by
  generalize hms : ls ++ [l] = ms at run
  cases run with
  | start => simp at hms
  | @next ls' s' l' t hrun hstep =>
    obtain ⟨rfl, hl⟩ := List.append_inj' hms rfl
    obtain ⟨rfl, _⟩ := List.cons.inj hl
    exact ⟨s', hrun, hstep⟩

/-- Where a step is determined by its label, a run is determined by its labels. -/
theorem Run.functional (determined : ∀ s l t u, step s l t → step s l u → t = u)
    (run : Run step s₀ ls s) (other : Run step s₀ ls t) : s = t := by
  induction run generalizing t with
  | start => exact other.of_nil.symm
  | next _ hstep ih =>
    obtain ⟨u, hu, hstep'⟩ := other.last
    rw [← ih hu] at hstep'
    exact determined _ _ _ _ hstep hstep'

theorem Run.single (hstep : step s l t) : Run step s [l] t := Run.next Run.start hstep

theorem GuardedRun.run {guard : List ε → σ → ε → Prop} (h : GuardedRun guard step s₀ ls s) :
    Run step s₀ ls s := by
  induction h with
  | start => exact Run.start
  | next _ _ hstep ih => exact Run.next ih hstep

theorem GuardedRun.invariant {guard : List ε → σ → ε → Prop} {I : List ε → σ → Prop}
    (run : GuardedRun guard step s₀ ls s) (start : I [] s₀)
    (preserve : ∀ ls s l t, I ls s → guard ls s l → step s l t → I (ls ++ [l]) t) : I ls s := by
  induction run with
  | start => exact start
  | next _ hguard hstep ih => exact preserve _ _ _ _ ih hguard hstep

/-- A guarded run, cut before one of its steps. -/
theorem GuardedRun.cut {guard : List ε → σ → ε → Prop} {past later : List ε}
    (run : GuardedRun guard step s₀ (past ++ l :: later) t) :
    ∃ s, GuardedRun guard step s₀ past s ∧ guard past s l := by
  generalize hls : past ++ l :: later = ls at run
  induction run generalizing later with
  | start => simp at hls
  | @next ls' s l' t hrun hguard _ ih =>
    rcases List.eq_nil_or_concat later with rfl | ⟨init, last, rfl⟩
    · obtain ⟨rfl, h⟩ := List.append_inj' hls rfl
      obtain ⟨rfl, _⟩ := List.cons.inj h
      exact ⟨s, hrun, hguard⟩
    · have hinit : (past ++ l :: init) ++ [last] = ls' ++ [l'] := by simpa using hls
      exact ih (List.append_inj' hinit rfl).1

/-- Whatever a guarded run did, its guard held when it did it. -/
theorem GuardedRun.allowed {guard : List ε → σ → ε → Prop} (run : GuardedRun guard step s₀ ls s)
    (h : l ∈ ls) :
    ∃ past s', GuardedRun guard step s₀ past s' ∧ guard past s' l ∧ past ++ [l] <+: ls := by
  induction run with
  | start => simp at h
  | @next ls' s' l' t hrun hguard hstep ih =>
    rcases List.mem_append.mp h with h | h
    · obtain ⟨past, u, hpast, hl, hprefix⟩ := ih h
      exact ⟨past, u, hpast, hl, hprefix.trans (List.prefix_append _ _)⟩
    · cases List.mem_singleton.mp h
      exact ⟨ls', s', hrun, hguard, List.prefix_rfl⟩

/-- A partial step function, read as a step relation whose labels carry the
event together with what the step put out. -/
def ofFunction {ω : Type*} (f : σ → ε → Option (ω × σ)) (s : σ) (l : ε × ω) (t : σ) : Prop :=
  f s l.1 = some (l.2, t)

/-- Replays a list of events through a partial step function. -/
def replay {ω : Type*} (f : σ → ε → Option (ω × σ)) : σ → List ε → Option (List (ε × ω) × σ)
  | s, [] => some ([], s)
  | s, e :: es =>
    match f s e with
    | none => none
    | some (out, t) => (replay f t es).map (fun rest => ((e, out) :: rest.1, rest.2))

theorem run_of_replay {ω : Type*} {f : σ → ε → Option (ω × σ)} {es : List ε}
    {hist : List (ε × ω)} (h : replay f s es = some (hist, t)) : Run (ofFunction f) s hist t := by
  induction es generalizing s hist with
  | nil =>
    obtain ⟨rfl, rfl⟩ := Prod.mk.inj (Option.some.inj h)
    exact Run.start
  | cons e es ih =>
    simp only [replay] at h
    split at h
    next => simp at h
    next out u hf =>
      obtain ⟨⟨rest, v⟩, hr, h⟩ := Option.map_eq_some_iff.mp h
      obtain ⟨rfl, rfl⟩ := Prod.mk.inj h
      have hfirst : Run (ofFunction f) s [(e, out)] u := Run.single hf
      exact hfirst.trans (ih hr)

/-- Replays a list of events, checking a condition before each step. -/
def replayGuarded {ω : Type*} (f : σ → ε → Option (ω × σ))
    (check : List (ε × ω) → σ → ε × ω → Bool) :
    List (ε × ω) → σ → List ε → Option (List (ε × ω) × σ)
  | hist, s, [] => some (hist, s)
  | hist, s, e :: es =>
    match f s e with
    | none => none
    | some (out, t) =>
      if check hist s (e, out) then replayGuarded f check (hist ++ [(e, out)]) t es else none

theorem guardedRun_of_replay {ω : Type*} {f : σ → ε → Option (ω × σ)}
    {check : List (ε × ω) → σ → ε × ω → Bool} {guard : List (ε × ω) → σ → ε × ω → Prop}
    (sound : ∀ hist s l, check hist s l = true → guard hist s l)
    {es : List ε} {hist hist' : List (ε × ω)} (run : GuardedRun guard (ofFunction f) s₀ hist s)
    (h : replayGuarded f check hist s es = some (hist', t)) :
    GuardedRun guard (ofFunction f) s₀ hist' t := by
  induction es generalizing s hist with
  | nil =>
    obtain ⟨rfl, rfl⟩ := Prod.mk.inj (Option.some.inj h)
    exact run
  | cons e es ih =>
    simp only [replayGuarded] at h
    split at h
    next => simp at h
    next out u hf =>
      split at h
      next hc => exact ih (run.next (sound _ _ _ hc) hf) h
      next => simp at h

end Machine
