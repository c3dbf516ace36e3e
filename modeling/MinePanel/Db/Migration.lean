/-
  MinePanel.Db.Migration
  ──────────────────────
  **MIGRATION 0005: LOWER-CASE USER NAMES.**

  The migration counts the values of `lower(username)` that several accounts
  share, raises where there is one, and sets `username = lower(username)`
  otherwise.  PostgreSQL checks `unique(username)` at every row it rewrites,
  against the rows as they are by then: some rewritten, some not, in the order
  of its own scan.

    * `preflight`, `updateRow`, `update` — the two statements;
    * `rewritten` — the table between two rows of the UPDATE;
    * `updateRow_rewritten` — one row, without a conflict;
    * `username_migration_preserves_accounts` — **every table, every order**.
-/
import Mathlib.Data.List.Dedup
import MinePanel.Db.Schema

namespace MinePanel.Db.Migration

open MinePanel.Lib

/-- The table `users`. -/
abbrev Users := Table User.id

/-- Why the migration stops. -/
inductive Failure where
  | raised (message : String)
  | uniqueViolation (constraint : String)
  deriving Repr, DecidableEq

variable (lower : String → String)

/-! ## §1. The two statements. -/

/-- `SELECT lower(username) … GROUP BY lower(username) HAVING count(*) > 1`. -/
def conflicts (t : Users) : List String :=
  let canons := t.rows.map fun u => lower u.username
  canons.dedup.filter fun canon => decide (1 < canons.count canon)

/-- The text of `RAISE EXCEPTION`. -/
def collisionMessage (conflictingCount : Nat) : String :=
  "Username case-collision detected: " ++ toString conflictingCount ++
    " lowercase-canonical value(s) map to multiple accounts; " ++
    "resolve manually before applying migration 0005"

/-- The `DO` block. -/
def preflight (t : Users) : Except Failure Unit :=
  let conflictingCount := (conflicts lower t).length
  if conflictingCount > 0 then .error (.raised (collisionMessage conflictingCount)) else .ok ()

/-- `SET username = lower(username)`, in one row. -/
def canonicalize (u : User) : User := { u with username := lower u.username }

/-- The UPDATE at one row: the new name may not be another row's present one. -/
def updateRow (t : Users) (id : UserId) : Except Failure Users :=
  match t.get id with
  | none => .ok t
  | some u =>
    if t.rows.any fun r => decide (r.id ≠ id) && decide (r.username = lower u.username) then
      .error (.uniqueViolation "users_username_unique")
    else
      .ok (t.modify (fun r => if r.id = id then canonicalize lower r else r) fun r => by
        split <;> rfl)

/-- `UPDATE users SET username = lower(username)`, its scan in the order `order`. -/
def update (order : List UserId) (t : Users) : Except Failure Users :=
  order.foldlM (updateRow lower) t

/-- A transaction: what fails leaves the table as it was. -/
def transaction (body : Users → Except Failure Users) (t : Users) : Except Failure Unit × Users :=
  match body t with
  | .ok t' => (.ok (), t')
  | .error e => (.error e, t)

/-- Migration 0005. -/
def migrate (order : List UserId) (t : Users) : Except Failure Unit × Users :=
  transaction (fun t => do preflight lower t; update lower order t) t

/-! ## §2. The preflight. -/

/-- Two accounts have the same name up to case. -/
def Collides (t : Users) : Prop :=
  ∃ u ∈ t.rows, ∃ v ∈ t.rows, u.id ≠ v.id ∧ lower u.username = lower v.username

theorem collides_iff_not_nodup (t : Users) :
    Collides lower t ↔ ¬ (t.rows.map fun u => lower u.username).Nodup := by
  constructor
  · rintro ⟨u, hu, v, hv, hne, hsame⟩ hnodup
    have heq : u = v := List.inj_on_of_nodup_map hnodup hu hv hsame
    exact hne (congrArg User.id heq)
  · intro hdup
    by_contra hclean
    refine hdup (List.Nodup.map_on (fun u hu v hv hsame => ?_) (List.Nodup.of_map _ t.nodup))
    by_contra hne
    exact hclean ⟨u, hu, v, hv, fun hid => hne (List.inj_on_of_nodup_map t.nodup hu hv hid), hsame⟩

/-- The query finds a value exactly where two accounts collide. -/
theorem conflicts_pos_iff (t : Users) : 0 < (conflicts lower t).length ↔ Collides lower t := by
  rw [collides_iff_not_nodup, List.nodup_iff_count_le_one, List.length_pos_iff_exists_mem]
  unfold conflicts
  simp only [List.mem_filter, List.mem_dedup, decide_eq_true_eq, not_forall, not_le]
  constructor
  · rintro ⟨canon, -, hcount⟩
    exact ⟨canon, hcount⟩
  · rintro ⟨canon, hcount⟩
    exact ⟨canon, List.count_pos_iff.mp (by omega), hcount⟩

/-! ## §3. The UPDATE. -/

/-- The table while the UPDATE runs: the rows of `done` are rewritten. -/
def rewritten (t : Users) (done : List UserId) : Users :=
  t.modify (fun r => if r.id ∈ done then canonicalize lower r else r) fun r => by split <;> rfl

/-- **One row.**  Rewritten or not, no other row has the new name: its own
lower-case name would be the same. -/
theorem updateRow_rewritten (hidem : ∀ s, lower (lower s) = lower s) {t : Users}
    (hclean : ¬ Collides lower t) {done : List UserId} {id : UserId} (hid : id ∉ done) :
    updateRow lower (rewritten lower t done) id = .ok (rewritten lower t (id :: done)) := by
  unfold updateRow
  have hget : (rewritten lower t done).get id =
      (t.get id).map fun r => if r.id ∈ done then canonicalize lower r else r :=
    Table.get_modify _ _ _ _
  rw [hget]
  cases hu : t.get id with
  | none =>
      -- no such row, so it makes no difference whether it is done
      have hnone := Table.get_eq_none.mp hu
      refine congrArg Except.ok (Table.eq_of_rows (List.map_congr_left fun r hr => ?_))
      simp [hnone r hr]
  | some u =>
      obtain ⟨hmem, rfl⟩ := Table.get_eq_some.mp hu
      simp only [Option.map_some, if_neg hid]
      rw [if_neg]
      · refine congrArg Except.ok (Table.eq_of_rows ?_)
        simp only [rewritten, Table.rows_modify, List.map_map]
        refine List.map_congr_left fun r _ => ?_
        by_cases hr : r.id = u.id <;> by_cases hdone : r.id ∈ done <;>
          simp_all [canonicalize]
      · intro hany
        obtain ⟨r', hr', hclash⟩ := List.any_eq_true.mp hany
        obtain ⟨r, hr, rfl⟩ := List.mem_map.mp hr'
        simp only [Bool.and_eq_true, decide_eq_true_eq] at hclash
        obtain ⟨hid', hname⟩ := hclash
        split at hid'
        next hdone =>
          -- a row already rewritten
          rw [if_pos hdone] at hname
          exact hclean ⟨r, hr, u, hmem, hid', hname⟩
        next hdone =>
          -- a row still to come: its name is in lower case as it stands
          rw [if_neg hdone] at hname
          exact hclean ⟨r, hr, u, hmem, hid', by rw [hname, hidem]⟩

/-- **The whole scan**, by induction on the rows still to come. -/
theorem update_rewritten (hidem : ∀ s, lower (lower s) = lower s) {t : Users}
    (hclean : ¬ Collides lower t) (order : List UserId) (hnodup : order.Nodup) :
    ∀ done : List UserId, (∀ id ∈ order, id ∉ done) →
      update lower order (rewritten lower t done) =
        .ok (rewritten lower t (order.reverse ++ done)) := by
  induction order with
  | nil => exact fun done _ => rfl
  | cons id order ih =>
      intro done hfresh
      obtain ⟨hid, hrest⟩ := List.nodup_cons.mp hnodup
      have hstep := updateRow_rewritten lower hidem hclean (hfresh id List.mem_cons_self)
      have htail := ih hrest (id :: done) fun x hx hxdone => by
        rcases List.mem_cons.mp hxdone with rfl | hxdone
        · exact hid hx
        · exact hfresh x (List.mem_cons_of_mem _ hx) hxdone
      unfold update at htail ⊢
      rw [List.foldlM_cons, hstep, List.reverse_cons, List.append_assoc]
      exact htail

theorem rewritten_nil (t : Users) : rewritten lower t [] = t := by
  refine Table.modify_eq_self fun r _ => ?_
  simp

/-- All rows are done. -/
theorem rewritten_all {t : Users} {done : List UserId} (h : ∀ u ∈ t.rows, u.id ∈ done) :
    (rewritten lower t done).rows = t.rows.map (canonicalize lower) :=
  List.map_congr_left fun u hu => if_pos (h u hu)

/-! ## §4. The migration. -/

/-- **The migration keeps the accounts apart.**  For every table and every order
in which the UPDATE visits its rows: where two accounts have the same lower-case
name it raises and nothing has changed; otherwise it succeeds, every row is still
there with its name in lower case, and the names are unique.  The check of
`unique(username)` never fails. -/
theorem username_migration_preserves_accounts (hidem : ∀ s, lower (lower s) = lower s)
    (t : Users) (order : List UserId) (horder : order.Perm (t.rows.map User.id)) :
    (Collides lower t ∧ 0 < (conflicts lower t).length ∧
      migrate lower order t =
        (.error (.raised (collisionMessage (conflicts lower t).length)), t)) ∨
    (¬ Collides lower t ∧ (migrate lower order t).1 = .ok () ∧
      (migrate lower order t).2.rows = t.rows.map (canonicalize lower) ∧
      ((migrate lower order t).2.rows.map User.username).Nodup) := by
  by_cases hcollides : Collides lower t
  · left
    have hpos := (conflicts_pos_iff lower t).mpr hcollides
    refine ⟨hcollides, hpos, ?_⟩
    simp [migrate, transaction, preflight, hpos, bind, Except.bind]
  · right
    have hpos : ¬ 0 < (conflicts lower t).length := fun h =>
      hcollides ((conflicts_pos_iff lower t).mp h)
    have hupdate := update_rewritten lower hidem hcollides order
      (horder.nodup_iff.mpr t.nodup) [] fun _ _ => List.not_mem_nil
    rw [rewritten_nil, List.append_nil] at hupdate
    have hrows : (rewritten lower t order.reverse).rows = t.rows.map (canonicalize lower) :=
      rewritten_all lower fun u hu =>
        List.mem_reverse.mpr (horder.mem_iff.mpr (List.mem_map_of_mem hu))
    have hmigrate : migrate lower order t = (.ok (), rewritten lower t order.reverse) := by
      simp [migrate, transaction, preflight, hpos, bind, Except.bind, hupdate]
    rw [hmigrate]
    refine ⟨hcollides, rfl, hrows, ?_⟩
    rw [hrows, List.map_map]
    by_contra hdup
    exact hcollides ((collides_iff_not_nodup lower t).mpr hdup)

/-- An account of which only the name matters. -/
def account (id : UserId) (username : String) : User where
  id := id
  email := username
  username := username
  passwordHash := none
  googleId := none
  githubId := none
  role := .user
  status := .active
  totpSecret := none
  totpEnabled := false
  totpBackupCodes := none
  tempPasswordHash := none
  tempPasswordExpiresAt := none
  mustChangePassword := false
  minecraftUUID := none
  minecraftName := none
  minecraftVerified := false
  createdAt := 0
  updatedAt := 0

/-- `lower` where the letters are ASCII. -/
def lowerAscii (s : String) : String := String.ofList (s.toList.map Char.toLower)

theorem toLower_idem (c : Char) : c.toLower.toLower = c.toLower := by
  unfold Char.toLower
  split
  next hupper =>
    rw [dif_neg]
    rintro ⟨-, hle⟩
    -- what a capital letter becomes lies behind the capital letters
    have hlow : 65 ≤ c.val.toNat := hupper.1
    have hhigh : c.val.toNat ≤ 90 := hupper.2
    have hsum : (c.val + 32).toNat ≤ 90 := hle
    rw [UInt32.toNat_add] at hsum
    have h32 : (32 : UInt32).toNat = 32 := rfl
    omega
  next => rfl

theorem lowerAscii_idem (s : String) : lowerAscii (lowerAscii s) = lowerAscii s := by
  unfold lowerAscii
  rw [String.toList_ofList, List.map_map]
  exact congrArg String.ofList (List.map_congr_left fun c _ => toLower_idem c)

/-- Steve, visited first, takes no name of Bob's. -/
theorem bobAndSteve_migrated :
    (migrate lowerAscii [2, 1] ⟨[account 1 "Bob", account 2 "steve"], by decide⟩).1 = .ok () ∧
      (migrate lowerAscii [2, 1]
        ⟨[account 1 "Bob", account 2 "steve"], by decide⟩).2.rows.map User.username =
        ["bob", "steve"] := by
  rcases username_migration_preserves_accounts lowerAscii lowerAscii_idem
    ⟨[account 1 "Bob", account 2 "steve"], by decide⟩ [2, 1] (by decide) with h | h
  · exact absurd h.2.1 (by decide)
  · exact ⟨h.2.1, (congrArg (List.map User.username) h.2.2.1).trans (by decide)⟩

end MinePanel.Db.Migration
