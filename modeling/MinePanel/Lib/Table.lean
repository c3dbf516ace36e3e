/-
  MinePanel.Lib.Table
  ───────────────────
  **TABLES WITH A PRIMARY KEY.**

  A `Table key` is a list of rows in which no key occurs twice; the uniqueness
  is a field, so a table that breaks its primary key cannot be built.  The
  three write shapes of SQL are `modify` (UPDATE), `remove` (DELETE) and
  `insert` (INSERT, refused where the key is taken), and `get` is the lookup by
  key.  Every later proof reads a table through `get_modify`, `get_remove`,
  `get_insert` and `mem_rows`.
-/
import Mathlib.Data.List.Nodup
import Mathlib.Algebra.BigOperators.Group.List.Basic
import Mathlib.Algebra.Order.BigOperators.Group.List
import Mathlib.Algebra.Order.Group.Nat
import Mathlib.Algebra.Ring.Nat

namespace MinePanel.Lib

variable {κ ρ : Type}

/-- Rows of type `ρ` with a unique `key`. -/
structure Table (key : ρ → κ) where
  rows : List ρ
  nodup : (rows.map key).Nodup

namespace Table

variable {key : ρ → κ}

/-! ## §1. Rows, writes and sums. -/

/-- The table with no row. -/
def empty : Table key := ⟨[], List.nodup_nil⟩

/-- UPDATE: `f` on every row; `f` may not touch the key. -/
def modify (t : Table key) (f : ρ → ρ) (hf : ∀ r, key (f r) = key r) : Table key :=
  ⟨t.rows.map f, by
    rw [List.map_map, show key ∘ f = key from funext hf]
    exact t.nodup⟩

/-- DELETE: the rows satisfying `p` go. -/
def remove (t : Table key) (p : ρ → Bool) : Table key :=
  ⟨t.rows.filter fun r => !p r, t.nodup.sublist (List.filter_sublist.map key)⟩

/-- A table is its rows. -/
theorem eq_of_rows {t t' : Table key} (h : t.rows = t'.rows) : t = t' := by
  cases t
  cases t'
  cases h
  rfl

/-- Two tables are compared by their rows. -/
instance [DecidableEq ρ] : DecidableEq (Table key) := fun t t' =>
  decidable_of_iff (t.rows = t'.rows) ⟨eq_of_rows, fun h => by rw [h]⟩

@[simp] theorem rows_modify (t : Table key) (f : ρ → ρ) (hf : ∀ r, key (f r) = key r) :
    (t.modify f hf).rows = t.rows.map f := rfl

@[simp] theorem rows_remove (t : Table key) (p : ρ → Bool) :
    (t.remove p).rows = t.rows.filter fun r => !p r := rfl

theorem modify_eq_self {t : Table key} {f : ρ → ρ} {hf : ∀ r, key (f r) = key r}
    (h : ∀ r ∈ t.rows, f r = r) : t.modify f hf = t := by
  refine eq_of_rows ?_
  rw [rows_modify, List.map_congr_left h, List.map_id']

theorem remove_eq_self {t : Table key} {p : ρ → Bool} (h : ∀ r ∈ t.rows, p r = false) :
    t.remove p = t := by
  refine eq_of_rows ?_
  rw [rows_remove, List.filter_eq_self]
  intro r hr
  rw [h r hr]
  rfl

/-- The sum of a column over the rows satisfying `c`. -/
def sumIf (t : Table key) (c : ρ → Bool) (g : ρ → Nat) : Nat := ((t.rows.filter c).map g).sum

/-- The sum of a column. -/
def sum (t : Table key) (g : ρ → Nat) : Nat := (t.rows.map g).sum

theorem sumIf_true (t : Table key) (g : ρ → Nat) : t.sumIf (fun _ => true) g = t.sum g := by
  simp [sumIf, sum]

/-- An UPDATE that touches neither the condition nor the column. -/
theorem sumIf_modify (t : Table key) (c : ρ → Bool) (g : ρ → Nat) (f : ρ → ρ)
    (hf : ∀ r, key (f r) = key r) (hc : ∀ r, c (f r) = c r) (hg : ∀ r, g (f r) = g r) :
    (t.modify f hf).sumIf c g = t.sumIf c g := by
  simp only [sumIf, rows_modify, List.filter_map, List.map_map]
  rw [show c ∘ f = c from funext hc, show g ∘ f = g from funext hg]

theorem sumIf_remove_le (t : Table key) (c : ρ → Bool) (g : ρ → Nat) (p : ρ → Bool) :
    (t.remove p).sumIf c g ≤ t.sumIf c g := by
  simp only [sumIf, rows_remove]
  exact ((List.filter_sublist.filter c).map g).sum_le_sum fun _ _ => Nat.zero_le _

/-- Fewer rows, a smaller sum. -/
theorem sumIf_le_of_imp (t : Table key) {c d : ρ → Bool} (g : ρ → Nat)
    (h : ∀ r, c r = true → d r = true) : t.sumIf c g ≤ t.sumIf d g := by
  have hsub : t.rows.filter c = (t.rows.filter d).filter c := by
    rw [List.filter_filter]
    congr 1
    funext r
    cases hc : c r with
    | false => rfl
    | true => rw [h r hc]; rfl
  unfold sumIf
  rw [hsub]
  exact (List.filter_sublist.map g).sum_le_sum fun _ _ => Nat.zero_le _

/-- One row and any sum over other rows stay below the whole sum. -/
theorem add_sumIf_le {t : Table key} {r : ρ} (g : ρ → Nat) (c : ρ → Bool)
    (hr : r ∈ t.rows) (hc : c r = false) : g r + t.sumIf c g ≤ t.sum g := by
  have hsplit : ∀ l : List ρ, r ∈ l → g r + ((l.filter c).map g).sum ≤ (l.map g).sum := by
    intro l
    induction l with
    | nil => intro h; cases h
    | cons x xs ih =>
        intro h
        have hle : ((xs.filter c).map g).sum ≤ (xs.map g).sum :=
          (List.filter_sublist.map g).sum_le_sum fun _ _ => Nat.zero_le _
        rcases List.mem_cons.mp h with rfl | hx
        · simp only [List.filter_cons, hc, Bool.false_eq_true, if_false, List.map_cons,
            List.sum_cons]
          omega
        · have hxs := ih hx
          by_cases hcx : c x = true
          · simp only [List.filter_cons, hcx, if_true, List.map_cons, List.sum_cons]
            omega
          · simp only [List.filter_cons, hcx, List.map_cons, List.sum_cons]
            simp only [Bool.false_eq_true, if_false]
            omega
  exact hsplit t.rows hr

section Lookup

variable [DecidableEq κ]

/-! ## §2. Lookup and insertion. -/

/-- The row with key `k`. -/
def get (t : Table key) (k : κ) : Option ρ := t.rows.find? fun r => decide (key r = k)

/-- INSERT: refused where the key is taken. -/
def insert (t : Table key) (r : ρ) : Option (Table key) :=
  if h : ∀ r' ∈ t.rows, key r' ≠ key r then
    some ⟨t.rows ++ [r], by
      rw [List.map_append, List.nodup_append]
      refine ⟨t.nodup, List.nodup_singleton _, ?_⟩
      intro a ha b hb
      obtain ⟨r', hr', rfl⟩ := List.mem_map.mp ha
      rw [List.map_singleton, List.mem_singleton] at hb
      rw [hb]
      exact h r' hr'⟩
  else none

theorem get_eq_some {t : Table key} {k : κ} {r : ρ} :
    t.get k = some r ↔ r ∈ t.rows ∧ key r = k := by
  constructor
  · intro h
    exact ⟨List.mem_of_find?_eq_some h, by simpa using List.find?_some h⟩
  · rintro ⟨hr, rfl⟩
    have hsome : (t.get (key r)).isSome := by
      rw [get, List.find?_isSome]
      exact ⟨r, hr, by simp⟩
    obtain ⟨r', hr'⟩ := Option.isSome_iff_exists.mp hsome
    have hm : r' ∈ t.rows := List.mem_of_find?_eq_some hr'
    have hk : key r' = key r := by simpa using List.find?_some hr'
    rw [hr', List.inj_on_of_nodup_map t.nodup hm hr hk]

theorem get_key {t : Table key} {k : κ} {r : ρ} (h : t.get k = some r) : key r = k :=
  (get_eq_some.mp h).2

/-- Membership is lookup by the row's own key. -/
theorem mem_rows {t : Table key} {r : ρ} : r ∈ t.rows ↔ t.get (key r) = some r := by
  simp [get_eq_some]

theorem get_eq_none {t : Table key} {k : κ} : t.get k = none ↔ ∀ r ∈ t.rows, key r ≠ k := by
  simp [get, List.find?_eq_none]

@[simp] theorem get_empty (k : κ) : (empty : Table key).get k = none := rfl

@[simp] theorem get_modify (t : Table key) (f : ρ → ρ) (hf : ∀ r, key (f r) = key r) (k : κ) :
    (t.modify f hf).get k = (t.get k).map f := by
  simp only [get, rows_modify, List.find?_map]
  congr 2
  funext r
  simp [hf]

@[simp] theorem get_remove (t : Table key) (p : ρ → Bool) (k : κ) :
    (t.remove p).get k = (t.get k).filter fun r => !p r := by
  cases h : t.get k with
  | none =>
      rw [get_eq_none] at h
      simp only [Option.filter_none, get_eq_none, rows_remove, List.mem_filter]
      exact fun r hr => h r hr.1
  | some r =>
      obtain ⟨hr, hk⟩ := get_eq_some.mp h
      by_cases hp : p r = true
      · rw [Option.filter_some, hp, Bool.not_true, if_neg (by simp), get_eq_none]
        intro r' hr' hk'
        have hmem := List.mem_filter.mp hr'
        have : r' = r := List.inj_on_of_nodup_map t.nodup hmem.1 hr (hk'.trans hk.symm)
        simp [this, hp] at hmem
      · rw [Option.filter_some, if_pos (by simp [hp]), get_eq_some]
        exact ⟨List.mem_filter.mpr ⟨hr, by simp [hp]⟩, hk⟩

/-- An accepted insertion, row by row. -/
theorem insert_rows {t t' : Table key} {r : ρ} (h : t.insert r = some t') :
    t'.rows = t.rows ++ [r] ∧ t.get (key r) = none := by
  unfold insert at h
  split at h
  next hk =>
    injection h with h
    subst h
    exact ⟨rfl, get_eq_none.mpr hk⟩
  next => cases h

theorem get_insert {t t' : Table key} {r : ρ} (h : t.insert r = some t') (k : κ) :
    t'.get k = if key r = k then some r else t.get k := by
  obtain ⟨hrows, hnone⟩ := insert_rows h
  split
  next hk => exact get_eq_some.mpr ⟨by simp [hrows], hk⟩
  next hk =>
    simp only [get, hrows, List.find?_append, List.find?_singleton]
    cases hf : t.rows.find? fun r => decide (key r = k) with
    | none => simp [hk]
    | some _ => simp

/-- A key that is free can be inserted. -/
theorem insert_isSome {t : Table key} {r : ρ} (h : t.get (key r) = none) :
    ∃ t', t.insert r = some t' := by
  unfold insert
  rw [dif_pos (get_eq_none.mp h)]
  exact ⟨_, rfl⟩

theorem sum_insert {t t' : Table key} {r : ρ} (g : ρ → Nat) (h : t.insert r = some t') :
    t'.sum g = t.sum g + g r := by
  simp [sum, (insert_rows h).1]

end Lookup

end Table

end MinePanel.Lib
