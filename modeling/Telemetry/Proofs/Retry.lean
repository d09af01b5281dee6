import Mathlib
import Telemetry.Backoff

/-!
# What a run of attempts establishes

Attempts are made until one succeeds, one fails for good or the schedule is used up.
Whatever every failed attempt and every pause leaves intact is therefore intact when
the run ends in failure, and where it ends in success, exactly one attempt has
succeeded and it was the last one. This is the one induction along a schedule; what is
retried decides nothing but the two conditions of `Backoff.ends_run`.
-/

namespace Telemetry

variable {ε σ α : Type}

/-- A run that succeeded satisfies `Q` of its value, and one that failed left the
invariant `I` intact. -/
structure Run.Ends (I : σ → Prop) (Q : α → σ → Prop) (r : Run ε σ α) : Prop where
  /-- A value satisfies `Q` in the state that it came with. -/
  ok : ∀ a, r.result = .ok a → Q a r.state
  /-- A failure left a state that satisfies `I`. -/
  error : ∀ e, r.result = .error e → I r.state

/-- What one attempt establishes: it fails and keeps the invariant, or it succeeds. -/
def AttemptKeeps (I : σ → Prop) (Q : α → σ → Prop) (attempt : σ → Except ε α × σ) : Prop :=
  ∀ s, I s → match attempt s with
    | (.ok a, s') => Q a s'
    | (.error _, s') => I s'

section

variable {I : σ → Prop} {Q : α → σ → Prop} {attempt : σ → Except ε α × σ}

theorem AttemptKeeps.ok (h : AttemptKeeps I Q attempt) {s s' : σ} {a : α} (hs : I s)
    (hr : attempt s = (.ok a, s')) : Q a s' := by
  simpa only [hr] using h s hs

theorem AttemptKeeps.error (h : AttemptKeeps I Q attempt) {s s' : σ} {e : ε} (hs : I s)
    (hr : attempt s = (.error e, s')) : I s' := by
  simpa only [hr] using h s hs

theorem Run.ends_ok {a : α} {s : σ} (h : Q a s) (slept : List Nat) :
    (⟨.ok a, s, slept⟩ : Run ε σ α).Ends I Q := by
  refine ⟨?_, nofun⟩
  rintro b ⟨rfl⟩
  exact h

theorem Run.ends_error {s : σ} (h : I s) (errors : RetryError ε) (slept : List Nat) :
    (⟨.error errors, s, slept⟩ : Run ε σ α).Ends I Q :=
  ⟨nofun, fun _ _ => h⟩

end

namespace Backoff

variable {I : σ → Prop} {Q : α → σ → Prop} {retriable : ε → Bool}
  {attempt : σ → Except ε α × σ} {pass : Nat → σ → σ}

theorem ends_runFrom (hattempt : AttemptKeeps I Q attempt) (hpass : ∀ p s, I s → I (pass p s))
    {pauses : List Nat} {errors : List ε} {slept : List Nat} {s : σ} (hs : I s) :
    (runFrom retriable attempt pass pauses errors slept s).Ends I Q := by
  -- the errors and pauses so far are only recorded, so they may be any
  induction pauses generalizing errors slept s with
  | nil =>
    rw [runFrom]
    rcases hr : attempt s with ⟨e | a, s'⟩
    · exact Run.ends_error (hattempt.error hs hr) _ _
    · exact Run.ends_ok (hattempt.ok hs hr) _
  | cons pause pauses ih =>
    rw [runFrom]
    rcases hr : attempt s with ⟨e | a, s'⟩
    · have hs' : I s' := hattempt.error hs hr
      simp only
      split
      · exact ih (hpass pause s' hs')
      · exact Run.ends_error hs' _ _
    · exact Run.ends_ok (hattempt.ok hs hr) _

/-- **A run of attempts keeps what failed attempts keep, until one succeeds.** -/
theorem ends_run (b : Backoff) (retriable : ε → Bool) (hattempt : AttemptKeeps I Q attempt)
    (hpass : ∀ p s, I s → I (pass p s)) {s : σ} (hs : I s) :
    (b.run retriable attempt pass s).Ends I Q :=
  ends_runFrom hattempt hpass hs

end Backoff

end Telemetry
