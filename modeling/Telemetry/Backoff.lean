/-!
# Trying again

An operation that may fail is tried again on a fixed schedule of pauses: as many
pauses, plus one, are the attempts it gets at most. Only a failure that is worth
another attempt uses up a pause; any other ends the run. What happened is kept as a
whole: the errors in order, or the value, and the pauses that were made.
-/

namespace Telemetry

/-- A schedule of pauses, in milliseconds. -/
structure Backoff where
  /-- The pauses between attempts. -/
  pauses : List Nat
deriving DecidableEq, Repr

/-- The errors of all attempts, the oldest first. -/
structure RetryError (ε : Type) where
  /-- The errors. -/
  errors : List ε
deriving Repr

namespace RetryError

variable {ε : Type}

/-- How many attempts were made. -/
def attempts (e : RetryError ε) : Nat := e.errors.length

/-- The error of the last attempt. -/
def last (e : RetryError ε) : Option ε := e.errors.getLast?

/-- The error of the last attempt, where all others are given up on the way to it. -/
def intoLast (e : RetryError ε) : Option ε := e.errors.foldl (fun _ last => some last) none

/-- The wording of all errors. -/
def message (describe : ε → String) (e : RetryError ε) : String :=
  "failed after " ++ toString e.attempts ++ " attempt(s): " ++
    "; ".intercalate (e.errors.map describe)

end RetryError

/-- How a run of attempts ended. -/
structure Run (ε σ α : Type) where
  /-- The value, or what went wrong. -/
  result : Except (RetryError ε) α
  /-- The state that the attempts left behind. -/
  state : σ
  /-- The pauses that were made, in order. -/
  slept : List Nat

/-- The time that went by in pauses. -/
def Run.waited {ε σ α : Type} (r : Run ε σ α) : Nat := r.slept.foldr (· + ·) 0

namespace Backoff

variable {ε σ α : Type}

/-- The schedule that is used unless another one is configured: one, three and five
seconds. -/
def standard : Backoff := ⟨[1000, 3000, 5000]⟩

/-- A single attempt. -/
def none : Backoff := ⟨[]⟩

/-- How many attempts there are at most. -/
def maxAttempts (b : Backoff) : Nat := b.pauses.length + 1

/-- Attempts on the pauses that are left, behind the errors so far, which are held
in reverse. An attempt sees the state and the pause that led up to it. -/
def runFrom (retriable : ε → Bool) (attempt : σ → Except ε α × σ) (pass : Nat → σ → σ) :
    (pauses : List Nat) → (errors : List ε) → (slept : List Nat) → σ → Run ε σ α
  | pauses, errors, slept, s =>
    match attempt s with
    | (.ok a, s) => ⟨.ok a, s, slept.reverse⟩
    | (.error e, s) =>
      match pauses with
      | [] => ⟨.error ⟨(e :: errors).reverse⟩, s, slept.reverse⟩
      | pause :: pauses =>
        if retriable e then
          runFrom retriable attempt pass pauses (e :: errors) (pause :: slept) (pass pause s)
        else ⟨.error ⟨(e :: errors).reverse⟩, s, slept.reverse⟩

/-- Attempts until one succeeds, one fails for good or the schedule is used up.
`pass` is what a pause does to the state. -/
def run (b : Backoff) (retriable : ε → Bool) (attempt : σ → Except ε α × σ)
    (pass : Nat → σ → σ) (s : σ) : Run ε σ α :=
  runFrom retriable attempt pass b.pauses [] [] s

end Backoff

end Telemetry
