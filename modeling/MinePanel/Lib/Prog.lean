/-
  MinePanel.Lib.Prog
  ──────────────────
  **CALLS AS TREES OF ATOMIC STEPS.**

  An asynchronous service call is a sequence of atomic actions (one SQL
  statement, one request to a daemon, one clock reading) with arbitrary code
  of other calls running between two of them.  `Prog Act ε α` is such a call:
  it returns an `α`, fails with an `ε`, or performs ONE action `a : Act β` and
  continues with the answer.  `Act` is left uninterpreted here, so the same
  program can be run alone, in a pool of calls, or against a specification.

  The reasoning principle is a weakest precondition relative to a MONITOR: a
  ghost automaton that sees every action of one call with its answer, says
  which actions the call may perform, and which answers it can get.

    * `Prog`, its monad and its `try … catch`;
    * `Monitor`, `Prog.wp` and the rules `wp_bind`, `wp_tryCatch`, `wp_mono`;
    * `Prog.Run`, the runs of one call, and the rule `Run.sound`.
-/
import Mathlib.Logic.Function.Basic
import Mathlib.Tactic.TypeStar

namespace MinePanel.Lib

universe u v w

/-! ## §1. Programs. -/

/-- A call over the actions `Act`: `ret` and `fail` are its two ways to end,
`act a k` performs `a` and continues with the answer. -/
inductive Prog (Act : Type → Type u) (ε α : Type) : Type (max 1 u) where
  | ret (a : α) : Prog Act ε α
  | fail (e : ε) : Prog Act ε α
  | act {β : Type} (a : Act β) (k : β → Prog Act ε α) : Prog Act ε α

namespace Prog

variable {Act : Type → Type u} {ε α β γ : Type}

/-- Sequencing: a failure skips the continuation. -/
def bind : Prog Act ε α → (α → Prog Act ε β) → Prog Act ε β
  | ret a, f => f a
  | fail e, _ => fail e
  | act a k, f => act a fun b => (k b).bind f

/-- `try p catch h`: the handler runs where `p` fails. -/
def tryCatch : Prog Act ε α → (ε → Prog Act ε α) → Prog Act ε α
  | ret a, _ => ret a
  | fail e, h => h e
  | act a k, h => act a fun b => (k b).tryCatch h

instance : Monad (Prog Act ε) where
  pure := ret
  bind := bind

instance : MonadExceptOf ε (Prog Act ε) where
  throw := fail
  tryCatch := tryCatch

/-- A single action as a program. -/
def perform {β : Type} (a : Act β) : Prog Act ε β := act a ret

@[simp] theorem pure_eq (a : α) : (pure a : Prog Act ε α) = ret a := rfl

@[simp] theorem bind_eq (p : Prog Act ε α) (f : α → Prog Act ε β) :
    (p >>= f) = p.bind f := rfl

@[simp] theorem map_eq (f : α → β) (p : Prog Act ε α) :
    (f <$> p) = p.bind fun a => ret (f a) := rfl

@[simp] theorem throw_eq (e : ε) : (throw e : Prog Act ε α) = fail e := rfl

@[simp] theorem tryCatch_eq (p : Prog Act ε α) (h : ε → Prog Act ε α) :
    (MonadExcept.tryCatch p h) = p.tryCatch h := rfl

@[simp] theorem bind_ret (a : α) (f : α → Prog Act ε β) : (ret a).bind f = f a := rfl

@[simp] theorem bind_fail (e : ε) (f : α → Prog Act ε β) : (fail e).bind f = fail e := rfl

@[simp] theorem bind_act {δ : Type} (a : Act δ) (k : δ → Prog Act ε α)
    (f : α → Prog Act ε β) : (act a k).bind f = act a fun b => (k b).bind f := rfl

@[simp] theorem tryCatch_ret (a : α) (h : ε → Prog Act ε α) :
    (ret a : Prog Act ε α).tryCatch h = ret a := rfl

@[simp] theorem tryCatch_fail (e : ε) (h : ε → Prog Act ε α) :
    (fail e : Prog Act ε α).tryCatch h = h e := rfl

@[simp] theorem tryCatch_act {δ : Type} (a : Act δ) (k : δ → Prog Act ε α)
    (h : ε → Prog Act ε α) : (act a k).tryCatch h = act a fun b => (k b).tryCatch h := rfl

theorem bind_assoc (p : Prog Act ε α) (f : α → Prog Act ε β) (g : β → Prog Act ε γ) :
    (p.bind f).bind g = p.bind fun a => (f a).bind g := by
  induction p with
  | ret a => rfl
  | fail e => rfl
  | act a k ih => simp only [bind_act, ih]

/-- Whether a call has ended. -/
def isDone : Prog Act ε α → Bool
  | ret _ => true
  | fail _ => true
  | act _ _ => false

end Prog

/-! ## §2. Monitors and weakest preconditions. -/

/-- A ghost automaton following one call.  `allow m a` says that a call in
state `m` may perform `a`; `next m a b m'` says that it can get the answer `b`
and is then in state `m'`. -/
structure Monitor (Act : Type → Type u) (μ : Type v) where
  allow : ∀ {β : Type}, μ → Act β → Prop
  next : ∀ {β : Type}, μ → Act β → β → μ → Prop

namespace Prog

variable {Act : Type → Type u} {ε α β : Type} {μ : Type v}

/-- The weakest precondition of a call for the two postconditions `Q` (it
returns) and `E` (it fails), against the monitor `M`. -/
def wp (M : Monitor Act μ) (Q : α → μ → Prop) (E : ε → μ → Prop) :
    Prog Act ε α → μ → Prop
  | ret a, m => Q a m
  | fail e, m => E e m
  | act a k, m => M.allow m a ∧ ∀ b m', M.next m a b m' → wp M Q E (k b) m'

variable {M : Monitor Act μ} {Q Q' : α → μ → Prop} {E E' : ε → μ → Prop}

@[simp] theorem wp_ret (a : α) (m : μ) : wp M Q E (ret a) m ↔ Q a m := Iff.rfl

@[simp] theorem wp_fail (e : ε) (m : μ) : wp M Q E (fail e) m ↔ E e m := Iff.rfl

@[simp] theorem wp_act {δ : Type} (a : Act δ) (k : δ → Prog Act ε α) (m : μ) :
    wp M Q E (act a k) m ↔
      M.allow m a ∧ ∀ b m', M.next m a b m' → wp M Q E (k b) m' := Iff.rfl

/-- **Sequencing rule.** -/
theorem wp_bind (p : Prog Act ε α) (f : α → Prog Act ε β) {R : β → μ → Prop} (m : μ) :
    wp M R E (p.bind f) m ↔ wp M (fun a m' => wp M R E (f a) m') E p m := by
  induction p generalizing m with
  | ret a => rfl
  | fail e => rfl
  | act a k ih => simp only [bind_act, wp_act, ih]

/-- The sequencing rule, read backwards. -/
theorem wp_seq {p : Prog Act ε α} {f : α → Prog Act ε β} {R : β → μ → Prop} {m : μ}
    (h : wp M (fun a m' => wp M R E (f a) m') E p m) : wp M R E (p.bind f) m :=
  (wp_bind p f m).mpr h

/-- A guard that throws. -/
theorem wp_guard {c : Prop} [Decidable c] {e : ε} {k : Prog Act ε α} {m : μ} (hE : c → E e m)
    (hk : ¬ c → wp M Q E k m) : wp M Q E (if c then fail e else k) m := by
  split
  next hc => exact hE hc
  next hc => exact hk hc

/-- **Handler rule**: the exceptional postcondition of the body is the
precondition of the handler. -/
theorem wp_tryCatch (p : Prog Act ε α) (h : ε → Prog Act ε α) (m : μ) :
    wp M Q E (p.tryCatch h) m ↔ wp M Q (fun e m' => wp M Q E (h e) m') p m := by
  induction p generalizing m with
  | ret a => rfl
  | fail e => rfl
  | act a k ih => simp only [tryCatch_act, wp_act, ih]

/-- **Consequence rule.** -/
theorem wp_mono (p : Prog Act ε α) (m : μ) (hQ : ∀ a m', Q a m' → Q' a m')
    (hE : ∀ e m', E e m' → E' e m') (h : wp M Q E p m) : wp M Q' E' p m := by
  induction p generalizing m with
  | ret a => exact hQ _ _ h
  | fail e => exact hE _ _ h
  | act a k ih => exact ⟨h.1, fun b m' hb => ih b m' (h.2 b m' hb)⟩

end Prog

/-! ## §3. Programs that a monitor does not notice. -/

/-- The monitor allows every action in `K` at `m` and stays there. -/
def Monitor.Ignores {Act : Type → Type u} {μ : Type v} (M : Monitor Act μ)
    (K : ∀ β : Type, Act β → Prop) (m : μ) : Prop :=
  ∀ ⦃β : Type⦄ (a : Act β), K β a → M.allow m a ∧ ∀ b m', M.next m a b m' → m' = m

/-- The same monitor, allowing only the actions in `K`. -/
def Monitor.restrict {Act : Type → Type u} {μ : Type v} (M : Monitor Act μ)
    (K : ∀ β : Type, Act β → Prop) : Monitor Act μ where
  allow := fun m a => M.allow m a ∧ K _ a
  next := fun m a b m' => M.next m a b m'

/-- The same monitor, allowing actions only under `J`. -/
def Monitor.under {Act : Type → Type u} {μ : Type v} (M : Monitor Act μ) (J : μ → Prop) :
    Monitor Act μ where
  allow := fun m a => M.allow m a ∧ J m
  next := fun m a b m' => M.next m a b m'

namespace Prog

variable {Act : Type → Type u} {ε α β : Type} {μ : Type v} {K : ∀ β : Type, Act β → Prop}
  {T : ε → Prop}

/-- Every action `p` can perform satisfies `K`, every failure satisfies `T`. -/
def Only (K : ∀ β : Type, Act β → Prop) (T : ε → Prop) : Prog Act ε α → Prop
  | ret _ => True
  | fail e => T e
  | act a k => K _ a ∧ ∀ b, Only K T (k b)

theorem only_bind {p : Prog Act ε α} {f : α → Prog Act ε β} (hp : Only K T p)
    (hf : ∀ a, Only K T (f a)) : Only K T (p.bind f) := by
  induction p with
  | ret a => exact hf a
  | fail e => exact hp
  | act a k ih => exact ⟨hp.1, fun b => ih b (hp.2 b)⟩

theorem only_tryCatch {S : ε → Prop} {p : Prog Act ε α} {h : ε → Prog Act ε α}
    (hp : Only K S p) (hh : ∀ e, S e → Only K T (h e)) : Only K T (p.tryCatch h) := by
  induction p with
  | ret a => trivial
  | fail e => exact hh e hp
  | act a k ih => exact ⟨hp.1, fun b => ih b (hp.2 b)⟩

theorem only_guard {c : Prop} [Decidable c] {e : ε} {k : Prog Act ε α} (he : c → T e)
    (hk : ¬ c → Only K T k) : Only K T (if c then fail e else k) := by
  split
  next hc => exact he hc
  next hc => exact hk hc

theorem only_mono {K' : ∀ β : Type, Act β → Prop} {T' : ε → Prop}
    (hK : ∀ {β : Type} (a : Act β), K β a → K' β a) (hT : ∀ e, T e → T' e)
    {p : Prog Act ε α} (hp : Only K T p) : Only K' T' p := by
  induction p with
  | ret a => trivial
  | fail e => exact hT e hp
  | act a k ih => exact ⟨hK a hp.1, fun b => ih b (hp.2 b)⟩

/-- **Stuttering rule**: where the monitor ignores every action of `p` at `m`,
`p` can be skipped. -/
theorem wp_of_only {M : Monitor Act μ} {Q : α → μ → Prop} {E : ε → μ → Prop} {m : μ}
    {p : Prog Act ε α} (hp : Only K T p) (hK : M.Ignores K m) (hQ : ∀ a, Q a m)
    (hE : ∀ e, T e → E e m) : wp M Q E p m := by
  induction p with
  | ret a => exact hQ a
  | fail e => exact hE e hp
  | act a k ih =>
      obtain ⟨hallow, hnext⟩ := hK a hp.1
      refine ⟨hallow, fun b m' hb => ?_⟩
      rw [hnext b m' hb]
      exact ih b (hp.2 b)

/-- **Invariant rule**: where every action of `p` is allowed under `J` and keeps
it, `p` meets any postconditions that `J` gives. -/
theorem wp_of_inv {M : Monitor Act μ} {Q : α → μ → Prop} {E : ε → μ → Prop} {J : μ → Prop}
    (hJ : ∀ {β : Type} (a : Act β) m, K β a → J m →
      M.allow m a ∧ ∀ b m', M.next m a b m' → J m')
    (hQ : ∀ a m, J m → Q a m) (hE : ∀ e m, T e → J m → E e m) {p : Prog Act ε α}
    (hp : Only K T p) {m : μ} (hm : J m) : wp M Q E p m := by
  induction p generalizing m with
  | ret a => exact hQ a m hm
  | fail e => exact hE e m hp hm
  | act a k ih =>
      obtain ⟨hallow, hnext⟩ := hJ a m hp.1 hm
      exact ⟨hallow, fun b m' hb => ih b (hp.2 b) (hnext b m' hb)⟩

/-- A call that meets a monitor and performs only actions in `K` meets the
monitor that allows no others. -/
theorem wp_restrict {M : Monitor Act μ} {Q : α → μ → Prop} {E : ε → μ → Prop}
    {p : Prog Act ε α} (ho : Only K T p) {m : μ} (hp : wp M Q E p m) :
    wp (M.restrict K) Q E p m := by
  induction p generalizing m with
  | ret a => exact hp
  | fail e => exact hp
  | act a k ih => exact ⟨⟨hp.1, ho.1⟩, fun b m' hb => ih b (ho.2 b) (hp.2 b m' hb)⟩

/-- What every step of the monitor keeps holds all along. -/
theorem wp_under {M : Monitor Act μ} {Q : α → μ → Prop} {E : ε → μ → Prop} {J : μ → Prop}
    (hJ : ∀ {β : Type} (a : Act β) m b m', J m → M.next m a b m' → J m')
    {p : Prog Act ε α} {m : μ} (hp : wp M Q E p m) (hm : J m) :
    wp (M.under J) (fun a m => Q a m ∧ J m) (fun e m => E e m ∧ J m) p m := by
  induction p generalizing m with
  | ret a => exact ⟨hp, hm⟩
  | fail e => exact ⟨hp, hm⟩
  | act a k ih => exact ⟨⟨hp.1, hm⟩, fun b m' hb => ih b (hp.2 b m' hb) (hJ a m b m' hm hb)⟩

end Prog

/-! ## §4. Runs of one call, and calls over other actions. -/

namespace Prog

variable {Act : Type → Type u} {Act' : Type → Type w} {ε α τ : Type} {μ : Type v}

/-- Every action of `p` replaced by a call over other actions. -/
def hoist (h : ∀ {β : Type}, Act β → Prog Act' ε β) : Prog Act ε α → Prog Act' ε α
  | ret a => ret a
  | fail e => fail e
  | act a k => (h a).bind fun b => (k b).hoist h

/-- **Translation rule**: where the call for every action meets the monitor `M`
and gets what `M'` says, a call over the old actions can be reasoned about
with `M'`. -/
theorem wp_hoist {M : Monitor Act' μ} {M' : Monitor Act μ} {Q : α → μ → Prop} {E : ε → μ → Prop}
    {h : ∀ {β : Type}, Act β → Prog Act' ε β}
    (hh : ∀ {β : Type} (a : Act β) m, M'.allow m a → wp M (fun b m' => M'.next m a b m') E (h a) m)
    {p : Prog Act ε α} {m : μ} (hp : wp M' Q E p m) : wp M Q E (p.hoist h) m := by
  induction p generalizing m with
  | ret a => exact hp
  | fail e => exact hp
  | act a k ih =>
      refine wp_seq (wp_mono _ _ (fun b m' hb => ?_) (fun _ _ he => he) (hh a m hp.1))
      exact ih b (hp.2 b m' hb)

/-- What is left of `p` after some of its actions, with a note on each of them;
`R` says which answers an action can get. -/
inductive Run (R : ∀ β : Type, Act β → β → Prop) (note : ∀ β : Type, Act β → τ)
    (p : Prog Act ε α) : List τ → Prog Act ε α → Prop where
  | start : Run R note p [] p
  | step {ts : List τ} {β : Type} {a : Act β} {k : β → Prog Act ε α} {b : β}
      (h : Run R note p ts (act a k)) (hb : R β a b) : Run R note p (ts ++ [note β a]) (k b)

/-- What `p` comes to with every action answered by `f`; `none` where `f` has
no answer. -/
def eval (f : ∀ {β : Type}, Act β → Option β) : Prog Act ε α → Option (Except ε α)
  | ret a => some (.ok a)
  | fail e => some (.error e)
  | act a k => (f a).bind fun b => (k b).eval f

/-- What is left of `p` after `n` actions, each answered by `f`. -/
def drive (f : ∀ {β : Type}, Act β → Option β) : Nat → Prog Act ε α → Option (Prog Act ε α)
  | 0, p => some p
  | n + 1, act a k => (f a).bind fun b => (k b).drive f n
  | _ + 1, _ => none

/-- The executable runs are runs. -/
theorem Run.of_drive {R : ∀ β : Type, Act β → β → Prop} {note : ∀ β : Type, Act β → τ}
    {f : ∀ {β : Type}, Act β → Option β} (hf : ∀ {β : Type} (a : Act β) b, f a = some b → R β a b)
    {p q r : Prog Act ε α} {ts : List τ} (n : Nat) (h : Run R note p ts q)
    (hq : q.drive f n = some r) : ∃ ts', Run R note p ts' r := by
  induction n generalizing q ts with
  | zero =>
      cases hq
      exact ⟨ts, h⟩
  | succ n ih =>
      cases q with
      | ret a => cases hq
      | fail e => cases hq
      | act a k =>
          obtain ⟨b, hb, hk⟩ := Option.bind_eq_some_iff.mp hq
          exact ih (h.step (hf a b hb)) hk

section Eval

variable {f : ∀ {β : Type}, Act β → Option β} {p : Prog Act ε α}

theorem eval_bind {β : Type} (p : Prog Act ε α) (k : α → Prog Act ε β) :
    (p.bind k).eval f = (p.eval f).bind fun
      | .ok a => (k a).eval f
      | .error e => some (.error e) := by
  induction p with
  | ret a => rfl
  | fail e => rfl
  | act a k' ih =>
      show (f a).bind (fun b => ((k' b).bind k).eval f) = ((f a).bind _).bind _
      simp only [ih, Option.bind_assoc]

/-- A call that returns goes on with what it returned. -/
theorem eval_bind_ok {β : Type} {a : α} {k : α → Prog Act ε β} (h : p.eval f = some (.ok a)) :
    (p.bind k).eval f = (k a).eval f := by
  rw [eval_bind, h]
  rfl

/-- A call that returns leaves its handler alone. -/
theorem eval_tryCatch_ok {a : α} {k : ε → Prog Act ε α} (h : p.eval f = some (.ok a)) :
    (p.tryCatch k).eval f = some (.ok a) := by
  induction p with
  | ret a' => exact h
  | fail e => cases h
  | act a' k' ih =>
      obtain ⟨b, hb, hk⟩ := Option.bind_eq_some_iff.mp h
      exact Option.bind_eq_some_iff.mpr ⟨b, hb, ih b hk⟩

theorem eval_hoist {g : ∀ {β : Type}, Act' β → Option β}
    {h : ∀ {β : Type}, Act β → Prog Act' ε β}
    (hh : ∀ {β : Type} (a : Act β), (h a).eval g = (f a).map Except.ok) (p : Prog Act ε α) :
    (p.hoist h).eval g = p.eval f := by
  induction p with
  | ret a => rfl
  | fail e => rfl
  | act a k ih =>
      show ((h a).bind _).eval g = (f a).bind _
      rw [eval_bind, hh]
      cases f a with
      | none => rfl
      | some b => exact ih b

end Eval

/-- **Run rule**: a monitor that has a next state for every answer, and a
property `J` of the notes that its steps keep. -/
theorem Run.sound {R : ∀ β : Type, Act β → β → Prop} {note : ∀ β : Type, Act β → τ}
    {M : Monitor Act μ} {Q : α → μ → Prop} {E : ε → μ → Prop} {J : List τ → μ → Prop}
    (hJ : ∀ {β : Type} (a : Act β) (b : β) ts m, J ts m → M.allow m a → R β a b →
      ∃ m', M.next m a b m' ∧ J (ts ++ [note β a]) m')
    {p q : Prog Act ε α} {m : μ} (hp : wp M Q E p m) (hm : J [] m) {ts : List τ}
    (h : Run R note p ts q) : ∃ m', wp M Q E q m' ∧ J ts m' := by
  -- along the run: the monitor moves with it
  induction h with
  | start => exact ⟨m, hp, hm⟩
  | step _ hb ih =>
      obtain ⟨m₁, ⟨hallow, hk⟩, hJ₁⟩ := ih
      obtain ⟨m₂, hnext, hJ₂⟩ := hJ _ _ _ _ hJ₁ hallow hb
      exact ⟨m₂, hk _ m₂ hnext, hJ₂⟩

end Prog

end MinePanel.Lib
