/-
  MinePanel.Lib.Interference
  ──────────────────────────
  **ONE CALL AND ITS SURROUNDINGS.**

  A claim about ONE call says what it comes to whatever happens between its
  actions, as long as the surroundings keep to a relation `R` (nobody else
  writes this row, a later change carries a later timestamp).  Here the other
  calls are not programs: they are any moves in `R`.

      R s s₁ ,  X a s₁ b s₂ ,  then the rest from s₂

    * `Prog.Under` — the finished runs of one call under interference `R`;
    * `Under.sound` — the rule: a weakest precondition over the states;
    * `Under.of_alone` — the executable runs, where nothing interferes.
-/
import MinePanel.Lib.System

namespace MinePanel.Lib

universe u

namespace Prog

section

variable {Act : Type → Type u} {ε α σ : Type} {R R' : σ → σ → Prop}
  {X : ∀ β : Type, Act β → σ → β → σ → Prop}

/-- What a call comes to: before each of its actions the surroundings move in
`R`; the action itself is executed by `X`. -/
inductive Under (R : σ → σ → Prop) (X : ∀ β : Type, Act β → σ → β → σ → Prop) :
    Prog Act ε α → σ → Except ε α → σ → Prop where
  | ret {a : α} {s : σ} : Under R X (ret a) s (.ok a) s
  | fail {e : ε} {s : σ} : Under R X (fail e) s (.error e) s
  | act {β : Type} {a : Act β} {k : β → Prog Act ε α} {s s₁ s₂ s' : σ} {b : β}
      {r : Except ε α} (hr : R s s₁) (hx : X β a s₁ b s₂) (hk : Under R X (k b) s₂ r s') :
      Under R X (act a k) s r s'

/-- The states of a call under interference, as a monitor. -/
def surrounded (R : σ → σ → Prop) (X : ∀ β : Type, Act β → σ → β → σ → Prop) :
    Monitor Act σ where
  allow := fun _ _ => True
  next := fun s a b s' => ∃ s₁, R s s₁ ∧ X _ a s₁ b s'

/-- The two postconditions of a call, at what it came to. -/
def Meets (Q : α → σ → Prop) (E : ε → σ → Prop) : Except ε α → σ → Prop
  | .ok a, s => Q a s
  | .error e, s => E e s

/-- **THE RULE.**  What holds after every run. -/
theorem Under.sound {Q : α → σ → Prop} {E : ε → σ → Prop} {p : Prog Act ε α} {s s' : σ}
    {r : Except ε α} (h : Under R X p s r s') (hp : wp (surrounded R X) Q E p s) :
    Meets Q E r s' := by
  -- along the run: the precondition of what is left
  induction h with
  | ret => exact hp
  | fail => exact hp
  | act hr hx _ ih => exact ih (hp.2 _ _ ⟨_, hr, hx⟩)

/-- Fewer moves of the surroundings. -/
theorem Under.mono (hR : ∀ s s₁, R s s₁ → R' s s₁) {p : Prog Act ε α} {s s' : σ}
    {r : Except ε α} (h : Under R X p s r s') : Under R' X p s r s' := by
  induction h with
  | ret => exact .ret
  | fail => exact .fail
  | act hr hx _ ih => exact .act (hR _ _ hr) hx ih

/-- **Frame rule**: a part of the call whose actions, and the moves around
them, keep `J`. -/
theorem wp_surrounded_of_only {K : ∀ β : Type, Act β → Prop} {T : ε → Prop} {J : σ → Prop}
    {Q : α → σ → Prop} {E : ε → σ → Prop} (hR : ∀ s s₁, J s → R s s₁ → J s₁)
    (hX : ∀ {β : Type} (a : Act β) s b s', K β a → J s → X β a s b s' → J s')
    (hQ : ∀ a s, J s → Q a s) (hE : ∀ e s, T e → J s → E e s) {p : Prog Act ε α}
    (hp : Only K T p) {s : σ} (hs : J s) : wp (surrounded R X) Q E p s := by
  refine wp_of_inv (J := J) (fun a s ha hs => ⟨trivial, ?_⟩) hQ hE hp hs
  rintro b s' ⟨s₁, hr, hx⟩
  exact hX a s₁ b s' ha (hR s s₁ hs hr) hx

end

section

variable {Act : Type → Type u} {ε α Env W τ : Type} {R : W → W → Prop}
  {X : ∀ β : Type, Act β → W → β → W → Prop}

/-- A call that runs alone is a run. -/
theorem Under.of_alone (exec : ∀ β : Type, Act β → Env → W → Option (β × W))
    (note : ∀ β : Type, Act β → τ) (hR : ∀ w, R w w)
    (hX : ∀ {β : Type} (a : Act β) e w b w', exec β a e w = some (b, w') → X β a w b w')
    {p : Prog Act ε α} {es : List Env} {w : W} {out : System.Outcome ε α W τ}
    (h : System.alone (exec _) (note _) p es w = some out) :
    Under R X p w out.result out.world := by
  induction p generalizing es w out with
  | ret a =>
      cases h
      exact .ret
  | fail e =>
      cases h
      exact .fail
  | act a k ih =>
      cases es with
      | nil => cases h
      | cons e es =>
          obtain ⟨⟨b, w'⟩, hx, h⟩ := Option.bind_eq_some_iff.mp h
          obtain ⟨out', hout, rfl⟩ := Option.map_eq_some_iff.mp h
          have hk := ih b hout
          exact .act (hR w) (hX a e w b w' hx) hk

end

end Prog

end MinePanel.Lib
