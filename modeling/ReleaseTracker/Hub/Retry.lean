import ReleaseTracker.Number.Binary32
import ReleaseTracker.Program

/-! Repeating an operation that failed, with growing pauses, until it succeeds, fails for good, or
all repetitions are used up. -/

namespace ReleaseTracker

structure RetryPolicy where
  firstDelay : Nat
  maxDelay : Nat
  retries : Nat
  jitter : Bool
deriving DecidableEq, Repr

namespace RetryPolicy

def default : RetryPolicy := ⟨500, 10000, 3, true⟩

def fixed (delay retries : Nat) : RetryPolicy := ⟨delay, delay, retries, false⟩

def once : RetryPolicy := { default with retries := 0 }

def perMillisecond : Nat := 1000000

def perSecond : Nat := 1000000000

/-- Nanoseconds as seconds in single precision: the whole seconds and the rest are rounded on their
own, and so is their sum. -/
def seconds (nanoseconds : Nat) : Nat × Nat :=
  let whole := Binary32.nearest (nanoseconds / perSecond) 1
  let rest := Binary32.nearest (nanoseconds % perSecond) 1
  Binary32.add whole (Binary32.divide rest perSecond)

/-- Twice as long, reckoned in seconds of single precision and read back to the nanosecond. -/
def doubled (nanoseconds : Nat) : Nat :=
  let (num, den) := seconds nanoseconds
  Binary64.roundDiv (2 * num * perSecond) den

/-- The pause after another, in nanoseconds: doubled while below the maximum, and never above
it. -/
def nextDelay (policy : RetryPolicy) (delay : Nat) : Nat :=
  let greatest := policy.maxDelay * perMillisecond
  if delay < greatest then min (doubled delay) greatest else greatest

end RetryPolicy

inductive Repetition where
  | attempt
  | pause (nanoseconds : Nat)
deriving DecidableEq, Repr

def Repeating (ε α : Type) : Interface where
  Query := Repetition
  Answer
    | .attempt => Except ε α
    | .pause _ => Unit

def RetryPolicy.attempt {ε α φ : Type} (policy : RetryPolicy) (worthRetrying : ε → Bool) :
    (retries delay : Nat) → Program (Repeating ε α) φ (Except ε α)
  | 0, _ => .query (I := Repeating ε α) .attempt
  | retries + 1, delay =>
    .ask (I := Repeating ε α) .attempt fun (result : Except ε α) =>
      match result with
      | .ok a => .done (.ok a)
      | .error e =>
        if worthRetrying e then
          .ask (I := Repeating ε α) (.pause delay) fun _ =>
            attempt policy worthRetrying retries (policy.nextDelay delay)
        else .done (.error e)

/-- An operation under a policy. The first pause may be above the maximum. -/
def RetryPolicy.repeating {ε α φ : Type} (policy : RetryPolicy) (worthRetrying : ε → Bool) :
    Program (Repeating ε α) φ (Except ε α) :=
  policy.attempt worthRetrying policy.retries (policy.firstDelay * perMillisecond)

end ReleaseTracker
