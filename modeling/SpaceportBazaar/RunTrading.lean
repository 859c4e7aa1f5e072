import SpaceportBazaar.Domain
import Mathlib.Data.List.DropRight
import Mathlib.Algebra.Order.Field.Rat
import Mathlib.Tactic.Linarith
import Mathlib.Tactic.NormNum
import Mathlib.Tactic.Positivity

namespace SpaceportBazaar

inductive FailureKind
  | configuration | authentication | protocol | network | application
  deriving DecidableEq, Repr

/-- Only a network failure can fix itself; the others need a person. -/
def FailureKind.retryable (kind : FailureKind) : Bool := kind = .network

/-- The exceptions `diagnose` tells apart; `coded` is one that carries a control code. -/
inductive Failure
  | configurationError | invalidURI | invalidStatus (statusCode : Nat) | coded (code : ControlCode)
  | subprotocolNotSelected | uninitializedMessageError | messageTooLargeError | wireFormatError
  | unknownServerMessageError | runIdChanged | invalidHandshake | connectionRefusedError | gaierror
  | timeoutError | osError | connectionClosed | sessionClosedError | other (name : String)
  deriving DecidableEq, Repr

def diagnoseHttp (status : Nat) : FailureKind :=
  if status = 401 ∨ status = 403 then .authentication
  else if status = 404 then .configuration
  else if status = 400 then .protocol
  else if 500 ≤ status then .network
  else .protocol

def diagnose : Failure → FailureKind
  | .configurationError | .invalidURI => .configuration
  | .invalidStatus statusCode => diagnoseHttp statusCode
  | .coded .invalidAuthentication => .authentication
  | .coded _ => .protocol
  | .subprotocolNotSelected | .uninitializedMessageError | .messageTooLargeError | .wireFormatError
  | .unknownServerMessageError | .runIdChanged => .protocol
  | .invalidHandshake => .protocol
  | .connectionRefusedError | .gaierror | .timeoutError => .network
  | .osError | .connectionClosed | .sessionClosedError => .network
  | .other _ => .application

structure OverflowError where
  message : String
  deriving DecidableEq, Repr

def intTooLarge : OverflowError := ⟨"int too large to convert to float"⟩

/-- An integer as a float, exactly: it is only used at powers of two. -/
def floatOfInt (n : Int) : Except OverflowError ℚ :=
  if |n| < 2 ^ 1024 then .ok n else .error intTooLarge

/-- Exponential with jitter, which is what `random.uniform` returned. -/
def backoffDelay (attempt : Int) (cap jitter : ℚ) : Except OverflowError ℚ := do
  let factor ← floatOfInt (2 ^ (max 0 (attempt - 1)).toNat)
  let base := min cap (1 * factor)
  return base * jitter

/-- How an attempt ended: the trading loop returned, with the session's abort reason
if it has one, or an exception came out. -/
inductive Ending
  | returned (abortReason : Option String)
  | sessionAborted
  | failed (failure : Failure)
  deriving DecidableEq, Repr

/-- One connection attempt, and what it added to the statistics. -/
structure Attempt where
  decisions : Nat
  finalPhase : Option Phase
  ending : Ending
  deriving DecidableEq, Repr

def terminalPhases : List Phase := [.finished, .aborted]

/-- What leaves `run_trading` as an exception. -/
inductive RunError
  | failure (failure : Failure)
  | overflowError (error : OverflowError)
  deriving DecidableEq, Repr

/-- The variables of `run_trading` that last from one attempt to the next. -/
structure RunTrading where
  attempt : Nat := 0
  sessionNumber : Nat := 0
  decisions : Nat := 0
  finalPhase : Option Phase := none
  deriving DecidableEq, Repr

namespace RunTrading

/-- How the loop body left off: asleep before the next attempt, returned, or raising. -/
inductive Turn
  | sleeps (delay : ℚ) (next : RunTrading)
  | returns (stats : RunTrading)
  | raises (error : RunError)

def reconnect (cap jitter : ℚ) (s : RunTrading) : Turn :=
  match backoffDelay s.attempt cap jitter with
  | .ok delay => .sleeps delay s
  | .error e => .raises (.overflowError e)

/-- What an attempt leaves in the statistics, whichever way it ends. -/
def record (s : RunTrading) (a : Attempt) : RunTrading where
  attempt := s.attempt + 1
  sessionNumber := s.sessionNumber + 1
  decisions := s.decisions + a.decisions
  finalPhase := a.finalPhase <|> s.finalPhase

/-- The body of the loop around one attempt. -/
def turn (cap : ℚ) (maxDecisions : Option Nat) (s : RunTrading) (a : Attempt) (jitter : ℚ) : Turn :=
  let decisionsBefore := s.decisions
  let s := s.record a
  match a.ending with
  | .returned abortReason =>
    -- a later drop retries quickly; an attempt that raised leaves the counter as it is
    let s := if decisionsBefore < s.decisions then { s with attempt := 0 } else s
    if abortReason ≠ none then .returns s
    else if ∃ phase ∈ s.finalPhase, phase ∈ terminalPhases then .returns s
    else if ∃ limit ∈ maxDecisions, limit ≤ s.decisions then .returns s
    else s.reconnect cap jitter
  | .sessionAborted => .returns s
  | .failed failure =>
    if (diagnose failure).retryable then s.reconnect cap jitter else .raises (.failure failure)

/-- Where the loop stands when the attempts it is given run out, or how it ended before. -/
inductive Outcome
  | trading (s : RunTrading)
  | returned (stats : RunTrading)
  | raised (error : RunError)
  deriving DecidableEq, Repr

/-- The loop over attempts and jitters to come, with the delays slept between them. -/
def loop (cap : ℚ) (maxDecisions maxAttempts : Option Nat) (s : RunTrading)
    (script : List (Attempt × ℚ)) :
    List ℚ × Outcome :=
  if ∃ limit ∈ maxAttempts, limit ≤ s.attempt then ([], .returned s)
  else match script with
  | [] => ([], .trading s)
  | (a, jitter) :: rest =>
    match s.turn cap maxDecisions a jitter with
    | .sleeps delay next =>
      let (delays, outcome) := next.loop cap maxDecisions maxAttempts rest
      (delay :: delays, outcome)
    | .returns stats => ([], .returned stats)
    | .raises error => ([], .raised error)

end RunTrading

def runTrading (cap : ℚ) (maxDecisions maxAttempts : Option Nat) (script : List (Attempt × ℚ)) :
    List ℚ × RunTrading.Outcome :=
  RunTrading.loop cap maxDecisions maxAttempts {} script

section Delay

variable {cap jitter : ℚ}

/-- Between 0.8 and 1.2 times the delay before the jitter. -/
def Jittered (base delay : ℚ) : Prop := 4 / 5 * base ≤ delay ∧ delay ≤ 6 / 5 * base

theorem jittered_mul {base : ℚ} (hbase : 0 ≤ base) (hjitter : Jittered 1 jitter) :
    Jittered base (base * jitter) := by
  obtain ⟨hlow, hhigh⟩ := hjitter
  constructor
  · have := mul_le_mul_of_nonneg_left hlow hbase
    linarith
  · have := mul_le_mul_of_nonneg_left hhigh hbase
    linarith

theorem floatOfInt_two_pow (k : Nat) :
    floatOfInt (2 ^ k) = if k < 1024 then .ok (2 ^ k) else .error intTooLarge := by
  have habs : |(2 : Int) ^ k| = 2 ^ k := abs_of_pos (by positivity)
  have hlt : (2 : Int) ^ k < 2 ^ 1024 ↔ k < 1024 := pow_lt_pow_iff_right₀ (by norm_num)
  unfold floatOfInt
  rw [habs, if_congr hlt rfl rfl]
  push_cast
  rfl

/-- The delay before the jitter: doubled by every attempt up to the cap. -/
def backoffBase (cap : ℚ) (attempt : Nat) : ℚ := min cap (2 ^ (attempt - 1))

theorem backoffDelay_eq (attempt : Nat) (cap jitter : ℚ) :
    backoffDelay attempt cap jitter = if attempt ≤ 1024 then .ok (backoffBase cap attempt * jitter)
      else .error intTooLarge := by
  have hexp : (max 0 ((attempt : Int) - 1)).toNat = attempt - 1 := by omega
  unfold backoffDelay backoffBase
  rw [hexp, floatOfInt_two_pow]
  by_cases h : attempt ≤ 1024
  · rw [if_pos (show attempt - 1 < 1024 by omega), if_pos h]
    change Except.ok (min cap (1 * 2 ^ (attempt - 1)) * jitter) = _
    rw [one_mul]
  · rw [if_neg (show ¬ attempt - 1 < 1024 by omega), if_neg h]
    rfl

theorem backoffBase_pos (hcap : 0 < cap) (attempt : Nat) : 0 < backoffBase cap attempt :=
  lt_min hcap (by positivity)

end Delay

/-- A session that made a decision and then ended without an exception. -/
def Attempt.worked (a : Attempt) : Bool :=
  match a.ending with
  | .returned _ => 0 < a.decisions
  | _ => false

/-- An attempt that failed in a way the loop retries. -/
def Attempt.retried (a : Attempt) : Bool :=
  match a.ending with
  | .failed failure => (diagnose failure).retryable
  | _ => false

/-- The attempts since the last session that worked. -/
def consecutiveFailures (past : List Attempt) : Nat := (past.rtakeWhile (fun a => !a.worked)).length

def Attempt.count (failures : Nat) (a : Attempt) : Nat := if a.worked then 0 else failures + 1

theorem consecutiveFailures_concat (past : List Attempt) (a : Attempt) :
    consecutiveFailures (past ++ [a]) = a.count (consecutiveFailures past) := by
  unfold consecutiveFailures Attempt.count
  rw [List.rtakeWhile_concat]
  cases a.worked <;> simp

namespace RunTrading

variable {cap : ℚ} {maxDecisions : Option Nat} {s t : RunTrading} {a : Attempt} {jitter : ℚ}
  {past : List Attempt} {script : List (Attempt × ℚ)}

/-- The three ways an attempt goes on: the run ends, a failure nobody retries comes out, or
the loop works out the delay before the next attempt. -/
theorem turn_reconnects (cap : ℚ) (maxDecisions : Option Nat) (s : RunTrading) (a : Attempt)
    (jitter : ℚ) :
    (∃ stats, s.turn cap maxDecisions a jitter = .returns stats) ∨
    (∃ failure, s.turn cap maxDecisions a jitter = .raises (.failure failure)) ∨
    ∃ next : RunTrading, next.attempt = a.count s.attempt ∧
      s.turn cap maxDecisions a jitter = next.reconnect cap jitter := by
  cases hend : a.ending with
  | returned abortReason =>
    obtain ⟨final, hfinal⟩ : ∃ final, final =
      if s.decisions < (s.record a).decisions then { s.record a with attempt := 0 }
      else s.record a := ⟨_, rfl⟩
    have hattempt : final.attempt = a.count s.attempt := by
      have hworked : a.worked = decide (0 < a.decisions) := by rw [Attempt.worked, hend]
      rw [hfinal, Attempt.count, hworked]
      simp only [record, Nat.lt_add_right_iff_pos, decide_eq_true_eq]
      split <;> rfl
    simp only [turn, hend, ← hfinal]
    split_ifs
    · exact Or.inl ⟨final, rfl⟩
    · exact Or.inl ⟨final, rfl⟩
    · exact Or.inl ⟨final, rfl⟩
    · exact Or.inr (Or.inr ⟨final, hattempt, rfl⟩)
  | sessionAborted => exact Or.inl ⟨_, by rw [turn, hend]⟩
  | failed failure =>
    have hattempt : (s.record a).attempt = a.count s.attempt := by
      have hworked : a.worked = false := by rw [Attempt.worked, hend]
      rw [Attempt.count, hworked]
      rfl
    simp only [turn, hend]
    split_ifs
    · exact Or.inr (Or.inr ⟨s.record a, hattempt, rfl⟩)
    · exact Or.inr (Or.inl ⟨failure, rfl⟩)

theorem turn_retried (h : a.retried = true) :
    s.turn cap maxDecisions a jitter = (s.record a).reconnect cap jitter := by
  unfold Attempt.retried at h
  cases hend : a.ending with
  | returned _ => simp [hend] at h
  | sessionAborted => simp [hend] at h
  | failed failure =>
    rw [hend] at h
    simp only [turn, hend, if_pos h]

theorem reconnect_eq (cap jitter : ℚ) (s : RunTrading) :
    s.reconnect cap jitter = if s.attempt ≤ 1024 then .sleeps (backoffBase cap s.attempt * jitter) s
      else .raises (.overflowError intTooLarge) := by
  unfold reconnect
  rw [backoffDelay_eq]
  split_ifs <;> rfl

/-- The ways an attempt goes on, by how many failures in a row there are after it. -/
theorem turn_cases (cap : ℚ) (maxDecisions : Option Nat) (s : RunTrading) (a : Attempt)
    (jitter : ℚ) :
    (∃ stats, s.turn cap maxDecisions a jitter = .returns stats) ∨
    (∃ failure, s.turn cap maxDecisions a jitter = .raises (.failure failure)) ∨
    (1024 < a.count s.attempt ∧
      s.turn cap maxDecisions a jitter = .raises (.overflowError intTooLarge)) ∨
    ∃ next : RunTrading, next.attempt = a.count s.attempt ∧ next.attempt ≤ 1024 ∧
      s.turn cap maxDecisions a jitter = .sleeps (backoffBase cap next.attempt * jitter) next := by
  obtain ⟨stats, hturn⟩ | ⟨failure, hturn⟩ | ⟨next, hnext, hturn⟩ :=
    turn_reconnects cap maxDecisions s a jitter
  · exact Or.inl ⟨stats, hturn⟩
  · exact Or.inr (Or.inl ⟨failure, hturn⟩)
  · rw [reconnect_eq] at hturn
    by_cases hsmall : next.attempt ≤ 1024
    · rw [if_pos hsmall] at hturn
      exact Or.inr (Or.inr (Or.inr ⟨next, hnext, hsmall, hturn⟩))
    · rw [if_neg hsmall] at hturn
      exact Or.inr (Or.inr (Or.inl ⟨by omega, hturn⟩))

/-- The counter goes with the failures in a row. -/
theorem attempt_concat {next : RunTrading} (hs : s.attempt = consecutiveFailures past)
    (hnext : next.attempt = a.count s.attempt) :
    next.attempt = consecutiveFailures (past ++ [a]) := by
  rw [hnext, hs, consecutiveFailures_concat]

theorem loop_nil : s.loop cap maxDecisions none [] = ([], .trading s) := rfl

theorem loop_returns {stats : RunTrading} (h : s.turn cap maxDecisions a jitter = .returns stats) :
    s.loop cap maxDecisions none ((a, jitter) :: script) =
      ([], .returned stats) := by simp [loop, h]

theorem loop_raises {error : RunError} (h : s.turn cap maxDecisions a jitter = .raises error) :
    s.loop cap maxDecisions none ((a, jitter) :: script) = ([], .raised error) := by simp [loop, h]

theorem loop_sleeps {delay : ℚ} {next : RunTrading}
    (h : s.turn cap maxDecisions a jitter = .sleeps delay next) :
    s.loop cap maxDecisions none ((a, jitter) :: script) =
      (delay :: (next.loop cap maxDecisions none script).1,
        (next.loop cap maxDecisions none script).2) := by
  simp [loop, h]

/-- Each delay the loop sleeps is the one for the failures in a row before it. -/
theorem loop_jittered (hcap : 0 < cap) (hs : s.attempt = consecutiveFailures past)
    (jitters : ∀ p ∈ script, Jittered 1 p.2) {i : Nat} {delay : ℚ}
    (h : (s.loop cap maxDecisions none script).1[i]? = some delay) :
    Jittered (backoffBase cap (consecutiveFailures (past ++ (script.map Prod.fst).take (i + 1))))
      delay := by
  induction script generalizing s past i with
  | nil => simp [loop_nil] at h
  | cons p script ih =>
    obtain ⟨a, jitter⟩ := p
    obtain ⟨_, hturn⟩ | ⟨_, hturn⟩ | ⟨_, hturn⟩ | ⟨next, hnext, _, hturn⟩ :=
      turn_cases cap maxDecisions s a jitter
    · simp [loop_returns hturn] at h
    · simp [loop_raises hturn] at h
    · simp [loop_raises hturn] at h
    have hcount := attempt_concat hs hnext
    have hcut : past ++ (((a, jitter) :: script).map Prod.fst).take (i + 1) =
        (past ++ [a]) ++ (script.map Prod.fst).take i := by simp
    rw [loop_sleeps hturn] at h
    rw [hcut]
    cases i with
    | zero =>
      have hdelay : backoffBase cap next.attempt * jitter = delay := by simpa using h
      rw [List.take_zero, List.append_nil, ← hcount, ← hdelay]
      exact jittered_mul (backoffBase_pos hcap _).le (jitters _ (List.mem_cons_self ..))
    | succ i =>
      exact ih hcount (fun p hp => jitters p (List.mem_cons_of_mem _ hp)) (by simpa using h)

/-- With never more than 1024 failures in a row no delay overflows. -/
theorem loop_ne_overflow (hs : s.attempt = consecutiveFailures past)
    (outage : ∀ i, consecutiveFailures (past ++ (script.map Prod.fst).take i) ≤ 1024)
    (error : OverflowError) :
    (s.loop cap maxDecisions none script).2 ≠ .raised (.overflowError error) := by
  induction script generalizing s past with
  | nil => simp [loop_nil]
  | cons p script ih =>
    obtain ⟨a, jitter⟩ := p
    have hfirst : a.count s.attempt ≤ 1024 := by
      simpa [hs, consecutiveFailures_concat] using outage 1
    obtain ⟨_, hturn⟩ | ⟨_, hturn⟩ | ⟨hmany, _⟩ | ⟨next, hnext, _, hturn⟩ :=
      turn_cases cap maxDecisions s a jitter
    · simp [loop_returns hturn]
    · simp [loop_raises hturn]
    · omega
    rw [loop_sleeps hturn]
    have hrest (i : Nat) :
        consecutiveFailures ((past ++ [a]) ++ (script.map Prod.fst).take i) ≤ 1024 := by
      simpa using outage (i + 1)
    exact ih (attempt_concat hs hnext) hrest

/-- A loop still trading after some attempts has counted the failures they end in, and
goes on from there. -/
theorem loop_trading (hs : s.attempt = consecutiveFailures past) (hsmall : s.attempt ≤ 1024)
    (h : (s.loop cap maxDecisions none script).2 = .trading t) :
    t.attempt = consecutiveFailures (past ++ script.map Prod.fst) ∧ t.attempt ≤ 1024 ∧
      ∀ later, (s.loop cap maxDecisions none (script ++ later)).2 =
        (t.loop cap maxDecisions none later).2 := by
  induction script generalizing s past with
  | nil =>
    rw [loop_nil] at h
    cases h
    exact ⟨by simpa using hs, hsmall, fun later => rfl⟩
  | cons p script ih =>
    obtain ⟨a, jitter⟩ := p
    obtain ⟨_, hturn⟩ | ⟨_, hturn⟩ | ⟨_, hturn⟩ | ⟨next, hnext, hle, hturn⟩ :=
      turn_cases cap maxDecisions s a jitter
    · simp [loop_returns hturn] at h
    · simp [loop_raises hturn] at h
    · simp [loop_raises hturn] at h
    rw [loop_sleeps hturn] at h
    have hcount := attempt_concat hs hnext
    obtain ⟨hattempt, hbound, hlater⟩ := ih hcount hle h
    refine ⟨by simpa using hattempt, hbound, ?_⟩
    intro later
    rw [List.cons_append, loop_sleeps hturn]
    exact hlater later

/-- Through an outage the loop goes on as long as its counter stays within 1024; the next
delay overflows. -/
theorem loop_outage (outage : ∀ p ∈ script, p.1.retried = true) (hsmall : s.attempt ≤ 1024) :
    (s.attempt + script.length ≤ 1024 ∧ ∃ t, (s.loop cap maxDecisions none script).2 = .trading t) ∨
    (1024 < s.attempt + script.length ∧
      (s.loop cap maxDecisions none script).2 = .raised (.overflowError intTooLarge)) := by
  induction script generalizing s with
  | nil => exact Or.inl ⟨hsmall, s, rfl⟩
  | cons p script ih =>
    obtain ⟨a, jitter⟩ := p
    have hturn : s.turn cap maxDecisions a jitter = (s.record a).reconnect cap jitter :=
      turn_retried (outage _ (List.mem_cons_self ..))
    have hcount : (s.record a).attempt = s.attempt + 1 := rfl
    rw [reconnect_eq] at hturn
    rw [List.length_cons]
    by_cases hle : (s.record a).attempt ≤ 1024
    · rw [if_pos hle] at hturn
      rw [loop_sleeps hturn]
      have hlen : s.attempt + (script.length + 1) = (s.record a).attempt + script.length := by omega
      rw [hlen]
      exact ih (fun p hp => outage p (List.mem_cons_of_mem _ hp)) hle
    · rw [if_neg hle] at hturn
      rw [loop_raises hturn]
      exact Or.inr ⟨by omega, rfl⟩

end RunTrading

/-- The retry loop with no limit on the attempts, whatever they come to: a delay can be
worked out for 1024 failures in a row and for no more. -/
theorem runTrading_backoff {cap : ℚ} (hcap : 0 < cap) :
    (∀ (attempt : Nat) (jitter : ℚ), Jittered 1 jitter →
      ((∃ delay, backoffDelay attempt cap jitter = .ok delay ∧
        Jittered (min cap (2 ^ (attempt - 1))) delay) ↔
        attempt ≤ 1024)) ∧
    ∀ (maxDecisions : Option Nat) (script : List (Attempt × ℚ)), (∀ p ∈ script, Jittered 1 p.2) →
      (∀ i delay, (runTrading cap maxDecisions none script).1[i]? = some delay →
        Jittered (min cap (2 ^ (consecutiveFailures ((script.map Prod.fst).take (i + 1)) - 1)))
          delay) ∧
      ((∀ i, consecutiveFailures ((script.map Prod.fst).take i) ≤ 1024) →
        ∀ error, (runTrading cap maxDecisions none script).2 ≠ .raised (.overflowError error)) ∧
      ((∃ s, (runTrading cap maxDecisions none script).2 = .trading s) →
        ∀ outage : List (Attempt × ℚ), (∀ p ∈ outage, p.1.retried = true) →
          ((∃ s, (runTrading cap maxDecisions none (script ++ outage)).2 = .trading s) ↔
            consecutiveFailures (script.map Prod.fst) + outage.length ≤ 1024)) := by
  constructor
  · intro attempt jitter hjitter
    rw [backoffDelay_eq]
    constructor
    · rintro ⟨delay, hdelay, _⟩
      by_contra hmany
      rw [if_neg hmany] at hdelay
      cases hdelay
    · intro hfew
      rw [if_pos hfew]
      exact ⟨_, rfl, jittered_mul (backoffBase_pos hcap attempt).le hjitter⟩
  · intro maxDecisions script jitters
    have hstart : ({} : RunTrading).attempt = consecutiveFailures [] := rfl
    refine ⟨?_, ?_, ?_⟩
    · intro i delay h
      exact RunTrading.loop_jittered hcap hstart jitters h
    · intro houtage error
      exact RunTrading.loop_ne_overflow hstart (by simpa using houtage) error
    · rintro ⟨s, htrading⟩ outage hfailed
      obtain ⟨hcount, hsmall, hlater⟩ := RunTrading.loop_trading hstart (Nat.zero_le 1024) htrading
      rw [List.nil_append] at hcount
      unfold runTrading
      rw [hlater, ← hcount]
      obtain ⟨hfew, hgoes⟩ | ⟨hmany, hover⟩ := RunTrading.loop_outage hfailed hsmall
      · exact iff_of_true hgoes hfew
      · rw [hover]
        refine iff_of_false ?_ (by omega)
        rintro ⟨_, ⟨⟩⟩

/-- A server that refuses the connection. -/
def refused : Attempt := ⟨0, none, .failed .connectionRefusedError⟩

/-- A session that traded and was dropped, then two refusals. -/
theorem runTrading_backoff_dropped :
    (∃ delay, backoffDelay 6 30 1 = .ok delay ∧ Jittered (min 30 (2 ^ (6 - 1))) delay) ∧
    ∃ s, (runTrading 30 none none ([(refused, 1), (⟨3, some .running, .returned none⟩, 9 / 10)] ++
      [(refused, 1), (refused, 11 / 10)])).2 = .trading s := by
  obtain ⟨hdelay, hrun⟩ := @runTrading_backoff 30 (by norm_num)
  refine ⟨(hdelay 6 1 ?_).mpr (by norm_num), ?_⟩
  · norm_num [Jittered]
  · refine ((hrun none [(refused, 1), (⟨3, some .running, .returned none⟩, 9 / 10)] ?_).2.2 ?_
      [(refused, 1), (refused, 11 / 10)] ?_).mpr ?_
    · norm_num [Jittered]
    · exact ⟨⟨0, 2, 3, some .running⟩, by decide +kernel⟩
    · simp [refused, Attempt.retried, diagnose, FailureKind.retryable]
    · decide

/-- Refused 1025 times in a row, the client ends on its own exception. -/
theorem runTrading_overflows :
    backoffDelay 1025 30 1 = .error intTooLarge ∧
    (runTrading 30 none none (List.replicate 1025 (refused, 1))).2 =
      .raised (.overflowError intTooLarge) := by
  constructor
  · rw [show (1025 : Int) = (1025 : Nat) from rfl, backoffDelay_eq, if_neg (by decide)]
  · have houtage : ∀ p ∈ List.replicate 1025 (refused, (1 : ℚ)), p.1.retried = true := by
      intro p hp
      rw [List.eq_of_mem_replicate hp]
      rfl
    have hstart : ({} : RunTrading).attempt ≤ 1024 := Nat.zero_le 1024
    obtain ⟨hfew, _⟩ | ⟨_, hover⟩ := RunTrading.loop_outage houtage hstart
    · rw [List.length_replicate] at hfew
      omega
    · exact hover

end SpaceportBazaar
