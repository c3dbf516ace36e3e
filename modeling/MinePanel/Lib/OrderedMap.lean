/-
  MinePanel.Lib.OrderedMap
  ────────────────────────
  **MAPS THAT REMEMBER THE ORDER OF INSERTION** (JavaScript's `Map`).

  The entries are a table keyed by their first component: `set` of a known key
  keeps its place, `set` of a new key appends it, so the head is the oldest key.
-/
import MinePanel.Lib.Table

namespace MinePanel.Lib

/-- Entries `(key, value)` in the order their keys were inserted. -/
abbrev OrderedMap (κ ν : Type) := Table (Prod.fst : κ × ν → κ)

namespace OrderedMap

variable {κ ν : Type} [DecidableEq κ]

/-- `get`. -/
def find (m : OrderedMap κ ν) (k : κ) : Option ν := (m.get k).map Prod.snd

/-- `set`. -/
def set (m : OrderedMap κ ν) (k : κ) (v : ν) : OrderedMap κ ν :=
  match m.insert (k, v) with
  | some m' => m'
  | none => m.modify (fun r => if r.1 = k then (r.1, v) else r) fun r => by split <;> rfl

/-- `delete`. -/
def delete (m : OrderedMap κ ν) (k : κ) : OrderedMap κ ν := m.remove fun r => decide (r.1 = k)

/-- `size`. -/
def size (m : OrderedMap κ ν) : Nat := m.rows.length

/-- The least recently inserted keys go until at most `bound` are left. -/
def shrink (m : OrderedMap κ ν) (bound : Nat) : OrderedMap κ ν where
  rows := m.rows.drop (m.rows.length - bound)
  nodup := m.nodup.sublist ((List.drop_sublist _ _).map _)

@[simp] theorem find_empty (k : κ) : find (Table.empty : OrderedMap κ ν) k = none := rfl

@[simp] theorem find_delete_self (m : OrderedMap κ ν) (k : κ) : find (delete m k) k = none := by
  unfold find delete
  rw [Table.get_remove]
  cases h : m.get k with
  | none => rfl
  | some r => simp [Table.get_key h]

theorem find_delete_of_ne (m : OrderedMap κ ν) {k j : κ} (h : j ≠ k) :
    find (delete m k) j = find m j := by
  unfold find delete
  rw [Table.get_remove]
  cases hj : m.get j with
  | none => rfl
  | some r =>
      have hr : r.1 ≠ k := by rw [Table.get_key hj]; exact h
      rw [Option.filter_some, if_pos (by simpa using hr)]

theorem find_set (m : OrderedMap κ ν) (k : κ) (v : ν) (j : κ) :
    find (set m k v) j = if k = j then some v else find m j := by
  unfold find set
  cases hins : m.insert (k, v) with
  | some m' =>
      show (m'.get j).map Prod.snd = _
      rw [Table.get_insert hins]
      split
      next => rfl
      next => rfl
  | none =>
      -- the key is there: its entry changes in place
      have hk : (m.get k).isSome = true := by
        by_contra hnone
        obtain ⟨m', hm'⟩ := Table.insert_isSome (r := (k, v)) (t := m) (by simpa using hnone)
        rw [hins] at hm'
        cases hm'
      show ((m.modify _ _).get j).map Prod.snd = _
      rw [Table.get_modify]
      cases hj : m.get j with
      | none =>
          have hne : k ≠ j := by
            rintro rfl
            rw [hj] at hk
            cases hk
          simp [hne]
      | some r =>
          have hr : r.1 = j := Table.get_key hj
          by_cases hkj : k = j
          · simp [hr, hkj]
          · have hne : j ≠ k := fun h => hkj h.symm
            simp [hr, hkj, hne]

/-- What the rows that go do to a lookup. -/
theorem find_remove (m : OrderedMap κ ν) (p : κ × ν → Bool) (k : κ) :
    find (m.remove p) k = (find m k).filter fun v => !p (k, v) := by
  unfold find
  rw [Table.get_remove]
  cases hk : m.get k with
  | none => rfl
  | some r =>
      obtain ⟨j, v⟩ := r
      have hj : j = k := Table.get_key hk
      subst hj
      cases hp : p (j, v) <;> simp [Option.filter, hp]

/-- What is left after shrinking was there before. -/
theorem find_of_find_shrink {m : OrderedMap κ ν} {bound : Nat} {k : κ} {v : ν}
    (h : find (shrink m bound) k = some v) : find m k = some v := by
  obtain ⟨r, hr, rfl⟩ := Option.map_eq_some_iff.mp h
  obtain ⟨hmem, hk⟩ := Table.get_eq_some.mp hr
  have hget : m.get k = some r := Table.get_eq_some.mpr ⟨List.mem_of_mem_drop hmem, hk⟩
  simp [find, hget]

omit [DecidableEq κ] in
theorem size_remove_le (m : OrderedMap κ ν) (p : κ × ν → Bool) : size (m.remove p) ≤ size m :=
  List.length_filter_le _ _

theorem size_set_le (m : OrderedMap κ ν) (k : κ) (v : ν) : size (set m k v) ≤ size m + 1 := by
  unfold size set
  cases hins : m.insert (k, v) with
  | some m' =>
      unfold Table.insert at hins
      split at hins
      next =>
        cases hins
        simp
      next => cases hins
  | none => simp

omit [DecidableEq κ] in
theorem size_shrink_le (m : OrderedMap κ ν) (bound : Nat) : size (shrink m bound) ≤ bound := by
  unfold size shrink
  rw [List.length_drop]
  omega

omit [DecidableEq κ] in
/-- Nothing goes from a map that fits. -/
theorem shrink_of_size_le {m : OrderedMap κ ν} {bound : Nat} (h : size m ≤ bound) :
    shrink m bound = m := by
  refine Table.eq_of_rows ?_
  show m.rows.drop (m.rows.length - bound) = m.rows
  rw [show m.rows.length - bound = 0 from Nat.sub_eq_zero_of_le h, List.drop_zero]

end OrderedMap

end MinePanel.Lib
