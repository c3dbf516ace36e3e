/-
  MinePanel.Lib.Keys
  ──────────────────
  **UNIQUE KEYS UNDER TWO-PHASE LOCKING.**

  The rows `ι` of a store hold keys, and no two rows may hold the same one.  A
  statement checks this against what its call sees only: the committed data
  under its own writes, never the pending writes of another call.  What makes
  the check enough is the lock on every key a pending write claims.

    * `Unique` — no key has two holders;
    * `Keys` — what writes do to the holders of a key;
    * `Keyed` — every call sees unique keys, and locks the keys it claims;
    * `Keyed.step` — **A STEP THAT KEEPS ITS OWN VIEW UNIQUE KEEPS THEM ALL SO**.
-/
import MinePanel.Lib.Store

namespace MinePanel.Lib

namespace Store

variable {D W K ι : Type}

/-! ## §1. Holders of a key. -/

/-- No key has two holders. -/
def Unique (holds : D → K → ι → Prop) (d : D) : Prop :=
  ∀ k i j, holds d k i → holds d k j → i = j

/-- No key has a new holder. -/
def NoNew (holds : D → K → ι → Prop) (k : K) (d d' : D) : Prop := ∀ i, holds d' k i → holds d k i

/-- Every row is still there. -/
def Later (has : D → ι → Prop) (d d' : D) : Prop := ∀ i, has d i → has d' i

theorem Unique.noNew {holds : D → K → ι → Prop} {d d' : D} (h : Unique holds d)
    (hnew : ∀ k, NoNew holds k d d') : Unique holds d' :=
  fun k i j hi hj => h k i j (hnew k i hi) (hnew k j hj)

/-- What writes do to the holders of a key.  A write that finds its row
(`lands`) gives a key to the same row in any later data. -/
structure Keys (apply : D → W → D) (touches : W → K → Prop) (holds : D → K → ι → Prop)
    (has : D → ι → Prop) (lands : D → W → Prop) : Prop where
  frame : ∀ {d w k}, ¬ touches w k → NoNew holds k d (apply d w)
  mono : ∀ {d d' w k}, lands d w → Later has d d' → NoNew holds k d d' →
    NoNew holds k (apply d w) (apply d' w)
  grows : ∀ d w, Later has d (apply d w)
  keeps : ∀ {d d'} w, Later has d d' → Later has (apply d w) (apply d' w)
  lands_later : ∀ {d d' w}, lands d w → Later has d d' → lands d' w

/-- Every write finds its row. -/
def Landed (apply : D → W → D) (lands : D → W → Prop) : D → List W → Prop
  | _, [] => True
  | d, w :: ws => lands d w ∧ Landed apply lands (apply d w) ws

section Writes

variable {apply : D → W → D} {touches : W → K → Prop} {holds : D → K → ι → Prop}
  {has : D → ι → Prop} {lands : D → W → Prop} {d d' : D} {k : K}

theorem Landed.append {ws ws' : List W} (h : Landed apply lands d ws)
    (h' : Landed apply lands (ws.foldl apply d) ws') : Landed apply lands d (ws ++ ws') := by
  induction ws generalizing d with
  | nil => exact h'
  | cons w ws ih => exact ⟨h.1, ih h.2 h'⟩

namespace Keys

variable (H : Keys apply touches holds has lands)

include H

/-- Only a write that touches `k` gives it a holder. -/
theorem protects (k : K) : Protects apply touches k (NoNew holds k) :=
  ⟨fun _ _ h => h, fun h h' i hi => h i (h' i hi), fun _ _ hw => H.frame hw⟩

theorem landed_later {ws : List W} (h : Landed apply lands d ws) (hl : Later has d d') :
    Landed apply lands d' ws := by
  induction ws generalizing d d' with
  | nil => trivial
  | cons w ws ih => exact ⟨H.lands_later h.1 hl, ih h.2 (H.keeps w hl)⟩

theorem later_foldl (ws : List W) (d : D) : Later has d (ws.foldl apply d) := by
  induction ws generalizing d with
  | nil => exact fun _ h => h
  | cons w ws ih => exact fun i hi => ih _ i (H.grows d w i hi)

/-- The same writes on later data give no key to a row that had it not. -/
theorem noNew_foldl {ws : List W} (h : Landed apply lands d ws) (hl : Later has d d')
    (hnew : NoNew holds k d d') : NoNew holds k (ws.foldl apply d) (ws.foldl apply d') := by
  induction ws generalizing d d' with
  | nil => exact hnew
  | cons w ws ih => exact ih h.2 (H.keeps w hl) (H.mono h.1 hl hnew)

/-- The writes of a transaction keep the keys unique on later data, where the
keys they claim have no new holder. -/
theorem unique_foldl {ws : List W} (h : Landed apply lands d ws) (hl : Later has d d')
    (hlocked : ∀ w ∈ ws, ∀ k, touches w k → NoNew holds k d d')
    (hview : Unique holds (ws.foldl apply d)) (hu : Unique holds d') :
    Unique holds (ws.foldl apply d') := by
  intro k i j hi hj
  by_cases hclaimed : ∃ w ∈ ws, touches w k
  · -- a claimed key: whoever holds it now held it in the old view
    obtain ⟨w, hw, ht⟩ := hclaimed
    have hnew := H.noNew_foldl h hl (hlocked w hw k ht)
    exact hview k i j (hnew i hi) (hnew j hj)
  · -- any other key: whoever holds it holds it without these writes
    have hframe := (H.protects k).foldl ws (fun w hw ht => hclaimed ⟨w, hw, ht⟩) d'
    exact hu k i j (hframe i hi) (hframe j hj)

end Keys

end Writes

/-! ## §2. The invariant. -/

/-- Every call sees unique keys, and has locked the keys it claims. -/
structure Keyed (apply : D → W → D) (touches : W → K → Prop) (holds : D → K → ι → Prop)
    (lands : D → W → Prop) (s : Store D W K) : Prop where
  sound : Sound touches s
  landed : ∀ p ws, s.pending p = some ws → Landed apply lands s.committed ws
  committed : Unique holds s.committed
  view : ∀ p, Unique holds (s.view apply p)

section Invariant

variable {apply : D → W → D} {touches : W → K → Prop} {holds : D → K → ι → Prop}
  {has : D → ι → Prop} {lands : D → W → Prop} {s s' : Store D W K} {p : Pid}

theorem Keyed.quiet {d : D} (h : Unique holds d) :
    Keyed apply touches holds lands (Store.quiet d : Store D W K) :=
  ⟨Sound.quiet d, nofun, h, fun _ => h⟩

theorem Keyed.crash (h : Keyed apply touches holds lands s) :
    Keyed apply touches holds lands s.crash :=
  Keyed.quiet h.committed

/-- Other committed data with the same rows and holders. -/
theorem Keyed.rebase (H : Keys apply touches holds has lands)
    (h : Keyed apply touches holds lands s) (hpending : s'.pending = s.pending)
    (howner : s'.owner = s.owner) (hlater : Later has s.committed s'.committed)
    (hnew : ∀ k, NoNew holds k s.committed s'.committed) :
    Keyed apply touches holds lands s' := by
  have hcommitted : Unique holds s'.committed := h.committed.noNew hnew
  refine ⟨?_, fun q ws hq => ?_, hcommitted, fun q => ?_⟩
  · intro q ws w k hq hw ht
    rw [howner]
    rw [hpending] at hq
    exact h.sound q ws w k hq hw ht
  · rw [hpending] at hq
    exact H.landed_later (h.landed q ws hq) hlater
  · have hview := h.view q
    cases hq : s.pending q with
    | none =>
        rw [view_of_none (by rw [hpending, hq])]
        exact hcommitted
    | some ws =>
        rw [view_of_some hq] at hview
        rw [view_of_some (by rw [hpending, hq])]
        exact H.unique_foldl (h.landed q ws hq) hlater (fun _ _ k _ => hnew k) hview hcommitted

variable [DecidableEq K] {may : W → Prop}

/-- After a step the committed data is what it was, or what the call sees. -/
theorem Step.committed_or_view (h : Step apply touches may p s s') :
    s'.committed = s.committed ∨ s'.committed = s'.view apply p := by
  cases h with
  | idle => exact Or.inl rfl
  | begin _ => exact Or.inl rfl
  | put _ _ _ =>
      cases hp : s.pending p with
      | none => exact Or.inr (view_of_none (put_pending_of_none hp)).symm
      | some ws => exact Or.inl (put_committed_of_some hp)
  | commit => exact Or.inr (view_of_none commit_pending_self).symm
  | rollback => exact Or.inl rfl

/-- **A step that keeps its own view unique keeps them all so.** -/
theorem Keyed.step (H : Keys apply touches holds has lands)
    (h : Keyed apply touches holds lands s) (hstep : Step apply touches may p s s')
    (hlanded : ∀ ws, s'.pending p = some ws → Landed apply lands s'.committed ws)
    (hview : Unique holds (s'.view apply p)) : Keyed apply touches holds lands s' := by
  have hcommitted : Unique holds s'.committed := by
    rcases hstep.committed_or_view with heq | heq
    · rw [heq]
      exact h.committed
    · rw [heq]
      exact hview
  have hlater : Later has s.committed s'.committed := by
    obtain ⟨ws, hws, -⟩ := hstep.committed_eq (P := fun _ => True) (fun _ _ _ => trivial)
      fun _ _ => trivial
    rw [hws]
    exact H.later_foldl ws _
  refine ⟨hstep.sound h.sound, fun q ws hq => ?_, hcommitted, fun q => ?_⟩
  · by_cases hqp : q = p
    · subst hqp
      exact hlanded ws hq
    · rw [hstep.pending_of_ne hqp] at hq
      exact H.landed_later (h.landed q ws hq) hlater
  · by_cases hqp : q = p
    · subst hqp
      exact hview
    · -- another call: the keys it claims are locked, so `p` gave them to nobody
      have hold := h.view q
      cases hq : s.pending q with
      | none =>
          rw [view_of_none (by rw [hstep.pending_of_ne hqp, hq])]
          exact hcommitted
      | some ws =>
          rw [view_of_some hq] at hold
          rw [view_of_some (by rw [hstep.pending_of_ne hqp, hq])]
          refine H.unique_foldl (h.landed q ws hq) hlater (fun w hw k ht => ?_) hold hcommitted
          exact h.sound.still hstep (H.protects k) (h.sound q ws w k hq hw ht) hqp

end Invariant

end Store

end MinePanel.Lib
