/-
  MinePanel.Lib.Machine
  ─────────────────────
  **EVENT-DRIVEN MACHINES.**

  A component that reacts to events one at a time, each handler running to its
  end: the state, and what an event does to it where it can happen.

    * `Machine.Reach` — the states of every sequence of events;
    * `Machine.run` — the executable version, for concrete sequences.
-/
import Mathlib.Tactic.TypeStar

namespace MinePanel.Lib

/-- What an event does to a state; `none` where it cannot happen now. -/
structure Machine (σ ε : Type) where
  step : σ → ε → Option σ

namespace Machine

variable {σ ε : Type} (M : Machine σ ε)

/-- The states that sequences of events reach from `s₀`. -/
inductive Reach (s₀ : σ) : σ → Prop where
  | start : Reach s₀ s₀
  | step {s s' : σ} {e : ε} : Reach s₀ s → M.step s e = some s' → Reach s₀ s'

/-- A list of events. -/
def run (s : σ) : List ε → Option σ
  | [] => some s
  | e :: es => (M.step s e).bind fun s' => run s' es

variable {M}

/-- Sequences of events compose. -/
theorem Reach.trans {s₀ s₁ s₂ : σ} (h : M.Reach s₀ s₁) (h' : M.Reach s₁ s₂) : M.Reach s₀ s₂ := by
  induction h' with
  | start => exact h
  | step _ hs ih => exact ih.step hs

/-- A list of events is a sequence of steps. -/
theorem Reach.of_run {s₀ s s' : σ} (es : List ε) (h : M.Reach s₀ s)
    (hr : M.run s es = some s') : M.Reach s₀ s' := by
  induction es generalizing s with
  | nil =>
      cases hr
      exact h
  | cons e es ih =>
      obtain ⟨s₁, hs, hr⟩ := Option.bind_eq_some_iff.mp hr
      exact ih (h.step hs) hr

/-- A list of events that ends in a state passing the test `t`. -/
theorem Reach.of_test {s₀ : σ} (es : List ε) (t : σ → Bool)
    (h : (M.run s₀ es).any t = true) : ∃ s, M.Reach s₀ s ∧ t s = true := by
  obtain ⟨s, hs, ht⟩ := (Option.any_eq_true _ _).mp h
  exact ⟨s, Reach.of_run es .start hs, ht⟩

end Machine

end MinePanel.Lib
