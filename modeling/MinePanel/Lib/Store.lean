/-
  MinePanel.Lib.Store
  ───────────────────
  **A DATABASE UNDER READ COMMITTED.**

  A `Store` is the committed data, the writes each open transaction has made so
  far, and who holds which lock.  A statement of a call that is in no
  transaction commits at once; inside a transaction it is appended to the
  pending writes and keeps its locks until the transaction ends.  A call sees
  the committed data with its own pending writes on top, and never those of
  another call.

  The data `D`, the writes `W` and the lock names `K` are arbitrary.  Two
  relations say what a lock protects: `touches w k` (the write `w` moves what
  `k` protects) and `same k d d'` (nothing that `k` protects has moved).

    * `Store.view`, `Store.put`, `Store.commit`, `Store.rollback`, `Store.crash`;
    * `Store.Step` — everything one call can do to the store;
    * `Store.Sound.still` — **TWO-PHASE LOCKING**: what one call has locked no
      other call moves.
-/
import MinePanel.Lib.System
import Mathlib.Data.List.Basic

namespace MinePanel.Lib

/-- Committed data, pending writes, lock owners. -/
structure Store (D W K : Type) where
  committed : D
  pending : Pid → Option (List W)
  owner : K → Option Pid

namespace Store

variable {D W K : Type}

/-! ## §1. Operations. -/

/-- A store in which nothing runs. -/
def quiet (d : D) : Store D W K := ⟨d, fun _ => none, fun _ => none⟩

section Operations

variable (apply : D → W → D)

/-- What a call sees: the committed data under its own writes. -/
def view (s : Store D W K) (p : Pid) : D := ((s.pending p).getD []).foldl apply s.committed

/-- No other call holds the lock. -/
def isFree (s : Store D W K) (p : Pid) (k : K) : Bool :=
  match s.owner k with
  | none => true
  | some q => decide (q = p)

/-- BEGIN. -/
def begin (s : Store D W K) (p : Pid) : Store D W K :=
  { s with pending := Function.update s.pending p (some []) }

/-- The locks and the pending writes of a call are gone. -/
def rollback (s : Store D W K) (p : Pid) : Store D W K where
  committed := s.committed
  pending := Function.update s.pending p none
  owner := fun k => if s.owner k = some p then none else s.owner k

/-- COMMIT: what the call sees becomes the data. -/
def commit (s : Store D W K) (p : Pid) : Store D W K :=
  { s.rollback p with committed := s.view apply p }

/-- The process dies: every open transaction is rolled back. -/
def crash (s : Store D W K) : Store D W K := quiet s.committed

variable [DecidableEq K]

/-- The writes `ws` of one statement, which takes the locks `takes`. -/
def put (s : Store D W K) (p : Pid) (takes : List K) (ws : List W) : Store D W K :=
  match s.pending p with
  | none => { s with committed := ws.foldl apply s.committed }
  | some ws₀ =>
      { s with
        pending := Function.update s.pending p (some (ws₀ ++ ws))
        owner := fun k => if k ∈ takes then some p else s.owner k }

/-- One statement: it waits for its locks, so it cannot run where another call
holds one of them. -/
def run (s : Store D W K) (p : Pid) (waits takes : List K) (ws : List W) :
    Option (Store D W K) :=
  if (waits ++ takes).all (s.isFree p) then some (s.put apply p takes ws) else none

end Operations

/-! ## §2. Reading the store after an operation. -/

section Reading

variable {apply : D → W → D} {s : Store D W K} {p q : Pid}

theorem isFree_iff {k : K} : s.isFree p k = true ↔ s.owner k = none ∨ s.owner k = some p := by
  unfold isFree
  cases s.owner k with
  | none => simp
  | some r => simp

@[simp] theorem isFree_quiet (d : D) (p : Pid) (k : K) :
    (quiet d : Store D W K).isFree p k = true := rfl

@[simp] theorem view_quiet (d : D) (p : Pid) : (quiet d : Store D W K).view apply p = d := rfl

theorem view_of_none (h : s.pending p = none) : s.view apply p = s.committed := by
  unfold view
  rw [h]
  rfl

theorem view_of_some {ws : List W} (h : s.pending p = some ws) :
    s.view apply p = ws.foldl apply s.committed := by
  unfold view
  rw [h]
  rfl

@[simp] theorem begin_committed : (s.begin p).committed = s.committed := rfl

@[simp] theorem begin_owner : (s.begin p).owner = s.owner := rfl

@[simp] theorem begin_pending_self : (s.begin p).pending p = some [] := by
  unfold begin
  simp

theorem begin_pending_of_ne (h : q ≠ p) : (s.begin p).pending q = s.pending q := by
  unfold begin
  simp [h]

@[simp] theorem rollback_committed : (s.rollback p).committed = s.committed := rfl

@[simp] theorem commit_committed : (s.commit apply p).committed = s.view apply p := rfl

@[simp] theorem rollback_pending_self : (s.rollback p).pending p = none := by
  unfold rollback
  simp

@[simp] theorem commit_pending_self : (s.commit apply p).pending p = none :=
  rollback_pending_self

theorem rollback_pending_of_ne (h : q ≠ p) : (s.rollback p).pending q = s.pending q := by
  unfold rollback
  simp [h]

theorem rollback_owner {k : K} : (s.rollback p).owner k = some q ↔ s.owner k = some q ∧ q ≠ p := by
  unfold rollback
  dsimp only
  split
  next h =>
    rw [h]
    simp only [Option.some.injEq, reduceCtorEq, false_iff, not_and, not_not]
    exact Eq.symm
  next h =>
    constructor
    · intro hq
      refine ⟨hq, fun hqp => h ?_⟩
      rw [hq, hqp]
    · exact And.left

variable [DecidableEq K] {takes : List K} {ws : List W}

theorem put_of_none (h : s.pending p = none) :
    s.put apply p takes ws = { s with committed := ws.foldl apply s.committed } := by
  unfold put
  rw [h]

theorem put_of_some {ws₀ : List W} (h : s.pending p = some ws₀) :
    s.put apply p takes ws =
      { s with
        pending := Function.update s.pending p (some (ws₀ ++ ws))
        owner := fun k => if k ∈ takes then some p else s.owner k } := by
  unfold put
  rw [h]

/-- A call sees its own statement. -/
theorem view_put : (s.put apply p takes ws).view apply p = ws.foldl apply (s.view apply p) := by
  cases h : s.pending p with
  | none =>
      rw [put_of_none h, view_of_none h]
      exact view_of_none h
  | some ws₀ =>
      have hpending : (s.put apply p takes ws).pending p = some (ws₀ ++ ws) := by
        rw [put_of_some h]
        simp
      rw [view_of_some hpending, view_of_some h, List.foldl_append, put_of_some h]

/-- A statement without writes leaves the data. -/
theorem put_nil_committed : (s.put apply p takes []).committed = s.committed := by
  cases h : s.pending p with
  | none => rw [put_of_none h]; rfl
  | some ws₀ => rw [put_of_some h]

/-- Inside a transaction no statement moves the committed data. -/
theorem put_committed_of_some {ws₀ : List W} (h : s.pending p = some ws₀) :
    (s.put apply p takes ws).committed = s.committed := by
  rw [put_of_some h]

theorem put_pending_of_some {ws₀ : List W} (h : s.pending p = some ws₀) :
    (s.put apply p takes ws).pending p = some (ws₀ ++ ws) := by
  rw [put_of_some h]
  simp

theorem put_pending_of_none (h : s.pending p = none) :
    (s.put apply p takes ws).pending p = none := by
  rw [put_of_none h]
  exact h

/-- Inside a transaction a statement keeps the locks it takes. -/
theorem put_owner_of_some {ws₀ : List W} (h : s.pending p = some ws₀) {k : K} (hk : k ∈ takes) :
    (s.put apply p takes ws).owner k = some p := by
  rw [put_of_some h]
  exact if_pos hk

/-- A lock the call holds stays with it. -/
theorem put_owner_self {k : K} (hk : s.owner k = some p) :
    (s.put apply p takes ws).owner k = some p := by
  cases h : s.pending p with
  | none =>
      rw [put_of_none h]
      exact hk
  | some ws₀ =>
      rw [put_of_some h]
      dsimp only
      split
      next => rfl
      next => exact hk

theorem run_eq_some {waits : List K} {s' : Store D W K}
    (h : s.run apply p waits takes ws = some s') :
    (∀ k ∈ waits, s.isFree p k = true) ∧ (∀ k ∈ takes, s.isFree p k = true) ∧
      s' = s.put apply p takes ws := by
  unfold run at h
  split at h
  next hfree =>
    rw [List.all_eq_true] at hfree
    cases h
    exact ⟨fun k hk => hfree k (List.mem_append_left _ hk),
      fun k hk => hfree k (List.mem_append_right _ hk), rfl⟩
  next => cases h

end Reading

/-! ## §3. What a lock protects. -/

section Locks

/-- `same` says that what `k` protects has not moved: only a write that touches
`k` can move it. -/
structure Protects (apply : D → W → D) (touches : W → K → Prop) (k : K) (same : D → D → Prop) :
    Prop where
  refl : ∀ d, same d d
  trans : ∀ {d d' d''}, same d d' → same d' d'' → same d d''
  frame : ∀ d w, ¬ touches w k → same d (apply d w)

/-- Writes that do not touch `k`. -/
theorem Protects.foldl {apply : D → W → D} {touches : W → K → Prop} {k : K} {same : D → D → Prop}
    (hk : Protects apply touches k same) (ws : List W) (h : ∀ w ∈ ws, ¬ touches w k) (d : D) :
    same d (ws.foldl apply d) := by
  induction ws generalizing d with
  | nil => exact hk.refl d
  | cons w ws ih =>
      have hhead : same d (apply d w) := hk.frame d w (h w List.mem_cons_self)
      have htail : same (apply d w) (ws.foldl apply (apply d w)) :=
        ih (fun w' hw' => h w' (List.mem_cons_of_mem _ hw')) _
      exact hk.trans hhead htail

/-- Every pending write is covered by a lock of its own call. -/
def Sound (touches : W → K → Prop) (s : Store D W K) : Prop :=
  ∀ (p : Pid) (ws : List W) (w : W) (k : K), s.pending p = some ws → w ∈ ws → touches w k →
    s.owner k = some p

theorem Sound.quiet {touches : W → K → Prop} (d : D) :
    Sound touches (Store.quiet d : Store D W K) := nofun

theorem Sound.crash {touches : W → K → Prop} (s : Store D W K) : Sound touches s.crash :=
  Sound.quiet _

end Locks

/-! ## §4. What one call can do. -/

section Steps

variable [DecidableEq K] (apply : D → W → D) (touches : W → K → Prop) (may : W → Prop)

/-- **One step of call `p`**, whose writes all satisfy `may`.  Every write of a
statement is covered: the call takes or holds each lock that protects what the
write moves. -/
inductive Step (p : Pid) (s : Store D W K) : Store D W K → Prop where
  | idle : Step p s s
  | begin : s.pending p = none → Step p s (s.begin p)
  | put {takes : List K} {ws : List W} : (∀ k ∈ takes, s.isFree p k = true) →
      (∀ w ∈ ws, may w) → (∀ w ∈ ws, ∀ k, touches w k → k ∈ takes ∨ s.owner k = some p) →
      Step p s (s.put apply p takes ws)
  | commit : Step p s (s.commit apply p)
  | rollback : Step p s (s.rollback p)

variable {apply touches may} {s s' : Store D W K} {p q : Pid}

/-- The same step, under locks that protect something else. -/
theorem Step.retouch {touches' : W → K → Prop} (h : Step apply touches may p s s')
    (hcover : ∀ w, may w → ∀ k, touches' w k → touches w k ∨ s.owner k = some p) :
    Step apply touches' may p s s' := by
  cases h with
  | idle => exact .idle
  | begin hp => exact .begin hp
  | put hfree hmay htakes =>
      refine .put hfree hmay fun w hw k hk => ?_
      rcases hcover w (hmay w hw) k hk with ht | howner
      · exact htakes w hw k ht
      · exact Or.inr howner
  | commit => exact .commit
  | rollback => exact .rollback

/-- The transaction of another call is untouched. -/
theorem Step.pending_of_ne (h : Step apply touches may p s s') (hq : q ≠ p) :
    s'.pending q = s.pending q := by
  cases h with
  | idle => rfl
  | begin _ => exact begin_pending_of_ne hq
  | put _ _ _ =>
      cases hp : s.pending p with
      | none => rw [put_of_none hp]
      | some ws₀ =>
          rw [put_of_some hp]
          exact Function.update_of_ne hq _ _
  | commit => exact rollback_pending_of_ne hq
  | rollback => exact rollback_pending_of_ne hq

/-- The locks of another call stay with it. -/
theorem Step.owner_of_ne (h : Step apply touches may p s s') (hq : q ≠ p) {k : K}
    (hk : s.owner k = some q) : s'.owner k = some q := by
  cases h with
  | idle => exact hk
  | begin _ => exact hk
  | @put takes ws hfree _ _ =>
      cases hp : s.pending p with
      | none =>
          rw [put_of_none hp]
          exact hk
      | some ws₀ =>
          rw [put_of_some hp]
          have hnot : k ∉ takes := by
            intro hmem
            rcases isFree_iff.mp (hfree k hmem) with hnone | hsome
            · rw [hk] at hnone
              cases hnone
            · rw [hk, Option.some.injEq] at hsome
              exact hq hsome
          dsimp only
          rw [if_neg hnot]
          exact hk
  | commit => exact rollback_owner.mpr ⟨hk, hq⟩
  | rollback => exact rollback_owner.mpr ⟨hk, hq⟩

/-- A step that ends or opens the transaction of `p` leaves the pending writes
of the others covered. -/
theorem Step.sound (hs : Sound touches s) (h : Step apply touches may p s s') :
    Sound touches s' := by
  intro q ws w k hpending hw ht
  by_cases hq : q = p
  · subst hq
    cases h with
    | idle => exact hs _ _ _ _ hpending hw ht
    | begin _ =>
        rw [begin_pending_self, Option.some.injEq] at hpending
        subst hpending
        exact absurd hw List.not_mem_nil
    | @put takes ws' hfree _ hcover =>
        cases hp : s.pending q with
        | none =>
            rw [put_pending_of_none hp] at hpending
            cases hpending
        | some ws₀ =>
            rw [put_pending_of_some hp, Option.some.injEq] at hpending
            subst hpending
            rcases List.mem_append.mp hw with hold | hnew
            · exact put_owner_self (hs _ _ _ _ hp hold ht)
            · rcases hcover w hnew k ht with htakes | howner
              · exact put_owner_of_some hp htakes
              · exact put_owner_self howner
    | commit =>
        rw [commit_pending_self] at hpending
        cases hpending
    | rollback =>
        rw [rollback_pending_self] at hpending
        cases hpending
  · rw [h.pending_of_ne hq] at hpending
    exact h.owner_of_ne hq (hs _ _ _ _ hpending hw ht)

/-- What holds of every pending write of `p` and of every write it may make
still holds of its pending writes. -/
theorem Step.pending_all {P : W → Prop} (h : Step apply touches may p s s')
    (hold : ∀ {ws}, s.pending p = some ws → ∀ w ∈ ws, P w) (hmay : ∀ w, may w → P w)
    {ws : List W} (hws : s'.pending p = some ws) : ∀ w ∈ ws, P w := by
  cases h with
  | idle => exact hold hws
  | begin _ =>
      rw [begin_pending_self, Option.some.injEq] at hws
      subst hws
      exact fun w hw => absurd hw List.not_mem_nil
  | @put takes ws' _ hnew _ =>
      cases hp : s.pending p with
      | none =>
          rw [put_pending_of_none hp] at hws
          cases hws
      | some ws₀ =>
          rw [put_pending_of_some hp, Option.some.injEq] at hws
          subst hws
          intro w hw
          rcases List.mem_append.mp hw with hw | hw
          · exact hold hp w hw
          · exact hmay w (hnew w hw)
  | commit =>
      rw [commit_pending_self] at hws
      cases hws
  | rollback =>
      rw [rollback_pending_self] at hws
      cases hws

/-- The committed data moves by writes of `p`: those of the statement, or those
that were pending. -/
theorem Step.committed_eq {P : W → Prop} (h : Step apply touches may p s s')
    (hold : ∀ {ws}, s.pending p = some ws → ∀ w ∈ ws, P w) (hmay : ∀ w, may w → P w) :
    ∃ ws : List W, s'.committed = ws.foldl apply s.committed ∧ ∀ w ∈ ws, P w := by
  have hstay : s.committed = ([] : List W).foldl apply s.committed ∧ ∀ w ∈ ([] : List W), P w :=
    ⟨rfl, fun w hw => absurd hw List.not_mem_nil⟩
  cases h with
  | idle => exact ⟨[], hstay⟩
  | begin _ => exact ⟨[], hstay⟩
  | @put takes ws _ hnew _ =>
      cases hp : s.pending p with
      | none =>
          rw [put_of_none hp]
          exact ⟨ws, rfl, fun w hw => hmay w (hnew w hw)⟩
      | some ws₀ =>
          rw [put_committed_of_some hp]
          exact ⟨[], hstay⟩
  | commit =>
      cases hp : s.pending p with
      | none =>
          rw [commit_committed, view_of_none hp]
          exact ⟨[], hstay⟩
      | some ws =>
          rw [commit_committed, view_of_some hp]
          exact ⟨ws, rfl, hold hp⟩
  | rollback => exact ⟨[], hstay⟩

/-- **Two-phase locking.**  A step of `p` moves nothing that another call has
locked. -/
theorem Sound.still {k : K} {same : D → D → Prop} (hs : Sound touches s)
    (h : Step apply touches may p s s') (hprotects : Protects apply touches k same)
    (hk : s.owner k = some q) (hq : q ≠ p) : same s.committed s'.committed := by
  have hnot : s.owner k ≠ some p := by
    rw [hk, ne_eq, Option.some.injEq]
    exact hq
  cases h with
  | idle => exact hprotects.refl _
  | begin _ => exact hprotects.refl _
  | @put takes ws hfree _ hcover =>
      cases hp : s.pending p with
      | none =>
          rw [put_of_none hp]
          refine hprotects.foldl ws (fun w hw ht => ?_) _
          rcases hcover w hw k ht with htakes | howner
          · rcases isFree_iff.mp (hfree k htakes) with hnone | hsome
            · rw [hk] at hnone
              cases hnone
            · exact hnot hsome
          · exact hnot howner
      | some ws₀ =>
          rw [put_committed_of_some hp]
          exact hprotects.refl _
  | commit =>
      rw [commit_committed]
      cases hp : s.pending p with
      | none =>
          rw [view_of_none hp]
          exact hprotects.refl _
      | some ws =>
          rw [view_of_some hp]
          exact hprotects.foldl ws (fun w hw ht => hnot (hs _ _ _ _ hp hw ht)) _
  | rollback => exact hprotects.refl _

end Steps

end Store

end MinePanel.Lib
