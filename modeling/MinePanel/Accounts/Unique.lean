/-
  MinePanel.Accounts.Unique
  ─────────────────────────
  **THE UNIQUE COLUMNS OF `users`.**

  E-mail, user name and the two provider identities are UNIQUE.  A statement
  looks for a conflict in what its call sees; the key locks of `plan` do the
  rest, so no interleaving commits two rows with one value.

    * `keysOf` — the values of the unique columns of a row;
    * `Db.holds` — who holds such a value;
    * `keysOf_disjoint` — a row without a conflict shares no key;
    * `KeysUnique` — **THE COLUMNS STAY UNIQUE** in every step.
-/
import MinePanel.Lib.Keys
import MinePanel.Accounts.Steps

namespace MinePanel.Accounts

open MinePanel.Db MinePanel.Lib

/-! ## §1. Keys. -/

/-- The values of the unique columns of a row, as locks. -/
def keysOf (u : User) : List Lock :=
  [.email u.email, .username u.username]
    ++ u.googleId.toList.map Lock.googleId ++ u.githubId.toList.map Lock.githubId

/-- The keys an UPDATE claims. -/
def UserPatch.claims (set : UserPatch) : List Lock :=
  set.username.toList.map Lock.username ++ (set.googleId.bind fun g => g).toList.map Lock.googleId

/-- The keys an UPDATE gives up. -/
def UserPatch.Frees (set : UserPatch) : Lock → Prop
  | .username _ => set.username.isSome = true
  | .googleId _ => set.googleId.isSome = true
  | _ => False

/-- The patched row has the keys it claims and those it does not give up. -/
theorem mem_keysOf_apply {set : UserPatch} {now : Timestamp} {u : User} {k : Lock} :
    k ∈ keysOf (set.apply now u) ↔ k ∈ set.claims ∨ (k ∈ keysOf u ∧ ¬ set.Frees k) := by
  unfold keysOf UserPatch.claims UserPatch.apply
  cases k with
  | username name =>
      show _ ↔ _ ∨ (_ ∧ ¬ (set.username.isSome = true))
      cases set.username <;> simp
  | googleId g =>
      show _ ↔ _ ∨ (_ ∧ ¬ (set.googleId.isSome = true))
      cases set.googleId <;> simp
  | email value =>
      show _ ↔ _ ∨ (_ ∧ ¬ False)
      simp
  | githubId value =>
      show _ ↔ _ ∨ (_ ∧ ¬ False)
      simp
  | _ => simp

/-- Who holds a value of a unique column. -/
def Db.holds (d : Db) (k : Lock) (u : UserId) : Prop :=
  ∃ r, d.users.get u = some r ∧ k ∈ keysOf r

/-- The keys a write claims. -/
def Write.claims : Write → Lock → Prop
  | .insertUser row, k => k ∈ keysOf row
  | .updateUser _ set _, k => k ∈ set.claims
  | _, _ => False

/-- An UPDATE finds its row. -/
def Write.Lands (d : Db) (x : Write) : Prop := ∀ id set, x.patch = some (id, set) → d.has id

/-- The locks of a statement cover the keys it claims. -/
theorem plan_claims {α : Type} (now : Timestamp) (e : Env) (d : Db) (s : Stmt α) :
    ∀ x ∈ (plan now e d s).writes, ∀ k, x.claims k → k ∈ (plan now e d s).takes := by
  cases s with
  | insertUser v =>
      simp only [plan]
      split
      next => simp [Plan.refuse]
      next =>
        split
        next => simp [Plan.refuse]
        next =>
          intro x hx k hk
          obtain rfl := List.mem_singleton.mp hx
          exact List.mem_cons_of_mem _ hk
  | updateUser id cond set =>
      simp only [plan]
      split
      next => simp [Plan.read]
      next =>
        split
        next => simp [Plan.refuse]
        next =>
          intro x hx k hk
          obtain rfl := List.mem_singleton.mp hx
          exact List.mem_cons_of_mem _ hk
  | _ =>
      simp only [plan, Plan.read, Plan.refuse]
      (repeat' split) <;> simp [Write.claims]

/-! ## §2. Writes. -/

section Writes

variable {d d' : Db} {x : Write} {k : Lock} {u : UserId}

/-- Who holds a key after an INSERT. -/
theorem holds_insert {row : User} (h : (d.apply (.insertUser row)).holds k u) :
    d.holds k u ∨ (d.users.get row.id = none ∧ u = row.id ∧ k ∈ keysOf row) := by
  obtain ⟨r, hr, hk⟩ := h
  change ((d.users.insert row).getD d.users).get u = some r at hr
  cases hins : d.users.insert row with
  | none =>
      rw [hins] at hr
      exact Or.inl ⟨r, hr, hk⟩
  | some t =>
      rw [hins, Option.getD_some, Table.get_insert hins] at hr
      split at hr
      next heq =>
        obtain rfl := Option.some.inj hr
        exact Or.inr ⟨(Table.insert_rows hins).2, heq.symm, hk⟩
      next => exact Or.inl ⟨r, hr, hk⟩

/-- A free row is inserted. -/
theorem get_insert_self {row : User} (h : d.users.get row.id = none) :
    (d.apply (.insertUser row)).users.get row.id = some row := by
  obtain ⟨t, ht⟩ := Table.insert_isSome (t := d.users) (r := row) h
  show ((d.users.insert row).getD d.users).get row.id = some row
  rw [ht, Option.getD_some, Table.get_insert ht, if_pos rfl]

/-- An INSERT leaves the other rows. -/
theorem get_insert_of_some {row r : User} (h : d.users.get u = some r) :
    (d.apply (.insertUser row)).users.get u = some r := by
  show ((d.users.insert row).getD d.users).get u = some r
  cases hins : d.users.insert row with
  | none => exact h
  | some t =>
      rw [Option.getD_some, Table.get_insert hins, if_neg]
      · exact h
      · rintro rfl
        rw [(Table.insert_rows hins).2] at h
        cases h

/-- The row of `u` after an UPDATE. -/
theorem get_update {id : UserId} {set : UserPatch} {now : Timestamp} :
    (d.apply (.updateUser id set now)).users.get u =
      (d.users.get u).map (patchUser id set now) := Table.get_modify _ _ (patchUser_id id set now) _

/-- Who holds a key after an UPDATE. -/
theorem holds_update {id : UserId} {set : UserPatch} {now : Timestamp} :
    (d.apply (.updateUser id set now)).holds k u ↔
      if u = id then d.has u ∧ (k ∈ set.claims ∨ (d.holds k u ∧ ¬ set.Frees k))
      else d.holds k u := by
  unfold Db.holds Db.has
  rw [get_update]
  cases hget : d.users.get u with
  | none => simp
  | some r =>
      have hid : r.id = u := Table.get_key hget
      by_cases hu : u = id
      · rw [if_pos hu]
        have hpatch : patchUser id set now r = set.apply now r := if_pos (hid.trans hu)
        simp [hpatch, mem_keysOf_apply]
      · rw [if_neg hu]
        have hpatch : patchUser id set now r = r := if_neg fun h => hu (hid.symm.trans h)
        simp [hpatch]

/-- **What writes do to the unique columns.** -/
theorem users_keys : Store.Keys Db.apply Write.claims Db.holds Db.has Write.Lands where
  frame := by
    intro d x k hx u hu
    cases x with
    | insertUser row =>
        rcases holds_insert hu with h | ⟨-, -, hk⟩
        · exact h
        · exact absurd hk hx
    | updateUser id set now =>
        rw [holds_update] at hu
        split at hu
        next =>
          rcases hu.2 with hk | ⟨h, -⟩
          · exact absurd hk hx
          · exact h
        next => exact hu
    | _ => exact hu
  mono := by
    intro d d' x k hland hlater hnew u hu
    cases x with
    | insertUser row =>
        rcases holds_insert hu with h | ⟨hfree, rfl, hk⟩
        · obtain ⟨r, hr, hk⟩ := hnew u h
          exact ⟨r, get_insert_of_some hr, hk⟩
        · -- the row is new in the later data, so it is new in the earlier
          have hnone : d.users.get row.id = none := by
            cases hget : d.users.get row.id with
            | none => rfl
            | some r =>
                have := hlater row.id (by rw [Db.has, hget]; rfl)
                rw [Db.has, hfree] at this
                cases this
          exact ⟨row, get_insert_self hnone, hk⟩
    | updateUser id set now =>
        rw [holds_update] at hu ⊢
        split at hu
        next heq =>
          rw [if_pos heq]
          exact ⟨heq ▸ hland id set rfl, hu.2.imp_right fun h => ⟨hnew u h.1, h.2⟩⟩
        next hne =>
          rw [if_neg hne]
          exact hnew u hu
    | _ => exact hnew u hu
  grows := fun d x u hu => (has_apply d x u).mpr (Or.inl hu)
  keeps := by
    intro d d' x hlater u hu
    rw [has_apply] at hu ⊢
    exact hu.imp_left (hlater u)
  lands_later := fun h hlater id set hp => hlater id (h id set hp)

end Writes

/-! ## §3. Statements. -/

section Statements

variable {d : Db} {u r : User} {k : Lock}

/-- A row without a conflict shares no key with another. -/
theorem keysOf_disjoint (h : d.userConflict u = none) (hr : r ∈ d.users.rows) (hid : r.id ≠ u.id)
    (hk : k ∈ keysOf u) : k ∉ keysOf r := by
  unfold Db.userConflict at h
  split at h
  next => cases h
  next hemail =>
    split at h
    next => cases h
    next hname =>
      split at h
      next => cases h
      next hgoogle =>
        split at h
        next => cases h
        next hgithub =>
          simp only [List.any_eq_true, not_exists, not_and, Bool.and_eq_true, bne_iff_ne, ne_eq,
            beq_iff_eq] at hemail hname hgoogle hgithub
          intro hkr
          cases k with
          | email value =>
              have he : value = u.email := by simpa [keysOf] using hk
              have her : value = r.email := by simpa [keysOf] using hkr
              exact hemail r hr hid (her.symm.trans he)
          | username value =>
              have he : value = u.username := by simpa [keysOf] using hk
              have her : value = r.username := by simpa [keysOf] using hkr
              exact hname r hr hid (her.symm.trans he)
          | googleId value =>
              have he : u.googleId = some value := by simpa [keysOf] using hk
              have her : r.googleId = some value := by simpa [keysOf] using hkr
              exact hgoogle r hr ⟨hid, by rw [he]; rfl⟩ (her.trans he.symm)
          | githubId value =>
              have he : u.githubId = some value := by simpa [keysOf] using hk
              have her : r.githubId = some value := by simpa [keysOf] using hkr
              exact hgithub r hr ⟨hid, by rw [he]; rfl⟩ (her.trans he.symm)
          | _ => simp [keysOf] at hk

/-- The unique columns are unique. -/
abbrev Db.KeysUnique (d : Db) : Prop := Store.Unique Db.holds d

/-- An INSERT without a conflict keeps the keys unique. -/
theorem unique_insert {row : User} (h : d.KeysUnique) (hc : d.userConflict row = none) :
    (d.apply (.insertUser row)).KeysUnique := by
  -- a holder of a key of the new row is the new row
  have hclash : ∀ {k u}, d.holds k u → k ∈ keysOf row → u = row.id := by
    rintro k u ⟨r, hr, hk⟩ hrow
    obtain ⟨hmem, rfl⟩ := Table.get_eq_some.mp hr
    by_contra hne
    exact keysOf_disjoint hc hmem hne hrow hk
  intro k u v hu hv
  rcases holds_insert hu with hu | ⟨-, rfl, hku⟩
  · rcases holds_insert hv with hv | ⟨-, rfl, hkv⟩
    · exact h k u v hu hv
    · exact hclash hu hkv
  · rcases holds_insert hv with hv | ⟨-, rfl, -⟩
    · exact (hclash hv hku).symm
    · rfl

/-- An UPDATE without a conflict keeps the keys unique. -/
theorem unique_update {id : UserId} {set : UserPatch} {now : Timestamp} (h : d.KeysUnique)
    (hget : d.users.get id = some u) (hc : d.userConflict (set.apply now u) = none) :
    (d.apply (.updateUser id set now)).KeysUnique := by
  have hid : u.id = id := Table.get_key hget
  -- a holder of a key that the patched row has is that row
  have hclash : ∀ {k v}, d.holds k v → k ∈ keysOf (set.apply now u) → v = id := by
    rintro k v ⟨r, hr, hk⟩ hrow
    obtain ⟨hmem, rfl⟩ := Table.get_eq_some.mp hr
    by_contra hne
    exact keysOf_disjoint hc hmem (fun heq => hne (heq.trans hid)) hrow hk
  -- what the row of `id` holds now is a key of the patched row
  have hpatched : ∀ {k}, (k ∈ set.claims ∨ (d.holds k id ∧ ¬ set.Frees k)) →
      k ∈ keysOf (set.apply now u) := by
    intro k hk
    rw [mem_keysOf_apply]
    refine hk.imp_right fun ⟨⟨r, hr, hkr⟩, hfree⟩ => ⟨?_, hfree⟩
    rw [hget, Option.some.injEq] at hr
    rw [hr]
    exact hkr
  intro k v v' hv hv'
  rw [holds_update] at hv hv'
  split at hv
  next heq =>
    split at hv'
    next heq' => rw [heq, heq']
    next =>
      rw [heq] at hv ⊢
      exact (hclash hv' (hpatched hv.2)).symm
  next =>
    split at hv'
    next heq' =>
      rw [heq'] at hv' ⊢
      exact hclash hv (hpatched hv'.2)
    next => exact h k v v' hv hv'

/-- **A statement keeps the columns unique** in what its call sees. -/
theorem plan_unique {α : Type} (now : Timestamp) (e : Env) (s : Stmt α) (h : d.KeysUnique) :
    ((plan now e d s).writes.foldl Db.apply d).KeysUnique := by
  cases s with
  | insertUser v =>
      simp only [plan]
      split
      next => exact h
      next =>
        split
        next => exact h
        next hc => exact unique_insert h hc
  | updateUser id cond set =>
      simp only [plan]
      split
      next => exact h
      next u hfound =>
        split
        next => exact h
        next hc => exact unique_update h (Option.filter_eq_some_iff.mp hfound).1 hc
  | _ =>
      simp only [plan, Plan.read, Plan.refuse]
      (repeat' split) <;> exact h

/-- Writes that land, in the terms of the store. -/
theorem landed_of_lands {ws : List Write} {d : Db} (h : Lands d ws) :
    Store.Landed Db.apply Write.Lands d ws := by
  induction ws generalizing d with
  | nil => trivial
  | cons x ws ih => exact ⟨h.1, ih h.2⟩

end Statements

/-! ## §4. Steps. -/

/-- Every call sees unique columns, and has locked the values it claims. -/
abbrev KeysUnique (t : Tables) : Prop :=
  Store.Keyed Db.apply Write.claims Db.holds Write.Lands t

namespace KeysUnique

variable {S : Settings} {p : Pid} {β : Type} {a : Act β} {e : Env} {b : β} {w w' : World}

/-- Tables nobody is writing. -/
theorem of_quiet (hquiet : w.tables = Store.quiet w.db) (h : w.db.KeysUnique) :
    KeysUnique w.tables := by
  rw [hquiet]
  exact Store.Keyed.quiet h

/-- What the call itself sees after its step. -/
theorem own_view (h : KeysUnique w.tables) (hx : exec S p a e w = some (b, w')) :
    (∀ ws, w'.tables.pending p = some ws →
      Store.Landed Db.apply Write.Lands w'.tables.committed ws) ∧
      Db.KeysUnique (w'.tables.view Db.apply p) := by
  have hclosed : ∀ t : Tables, t.pending p = none → t.committed.KeysUnique →
      (∀ ws, t.pending p = some ws → Store.Landed Db.apply Write.Lands t.committed ws) ∧
        Db.KeysUnique (t.view Db.apply p) := by
    intro t hnone hu
    refine ⟨fun ws hws => ?_, ?_⟩
    · rw [hnone] at hws
      cases hws
    · rw [Store.view_of_none hnone]
      exact hu
  cases a with
  | query s =>
      rcases exec_query hx with ⟨-, rfl⟩ | ⟨-, -, -, rfl⟩
      · exact ⟨h.landed p, h.view p⟩
      · refine ⟨fun ws hws => ?_, ?_⟩
        · cases hp : w.tables.pending p with
          | none =>
              rw [Store.put_pending_of_none hp] at hws
              cases hws
          | some ws₀ =>
              rw [Store.put_pending_of_some hp, Option.some.injEq] at hws
              subst hws
              rw [Store.put_committed_of_some hp]
              refine (h.landed p ws₀ hp).append (landed_of_lands ?_)
              rw [← Store.view_of_some hp]
              exact plan_lands _ _ _ s
        · rw [Store.view_put]
          exact plan_unique _ _ s (h.view p)
  | begin =>
      rcases exec_begin hx with ⟨-, rfl⟩ | ⟨-, hp, rfl⟩
      · exact ⟨h.landed p, h.view p⟩
      · refine ⟨fun ws hws => ?_, ?_⟩
        · rw [Store.begin_pending_self, Option.some.injEq] at hws
          subst hws
          trivial
        · rw [Store.view_of_some Store.begin_pending_self]
          exact h.committed
  | commit =>
      rcases exec_commit hx with ⟨-, rfl⟩ | ⟨-, rfl⟩
      · exact hclosed _ Store.rollback_pending_self h.committed
      · exact hclosed _ Store.commit_pending_self (h.view p)
  | rollback =>
      rw [exec_rollback hx]
      exact hclosed _ Store.rollback_pending_self h.committed
  | _ =>
      rw [exec_silent rfl hx]
      exact ⟨h.landed p, h.view p⟩

/-- **A step keeps the columns unique.** -/
theorem step (h : KeysUnique w.tables) (hx : exec S p a e w = some (b, w')) :
    KeysUnique w'.tables := by
  obtain ⟨hlanded, hview⟩ := own_view h hx
  exact Store.Keyed.step users_keys h (exec_step_of plan_claims hx) hlanded hview

/-- The surroundings keep the keys. -/
theorem ambient (h : KeysUnique w.tables) (hx : Accounts.ambient e w = some w') :
    KeysUnique w'.tables := by
  obtain ⟨hpending, howner, husers, -⟩ := ambient_frame hx
  have hholds : ∀ k u, w'.db.holds k u ↔ w.db.holds k u := fun k u => by
    unfold Db.holds
    rw [husers]
  refine h.rebase users_keys hpending howner (fun u hu => ?_) fun k u hu => (hholds k u).mp hu
  show (w'.db.users.get u).isSome = true
  rw [husers]
  exact hu

/-- A restart keeps the keys. -/
theorem reboot (h : KeysUnique w.tables) (hx : Accounts.reboot e w = some w') :
    KeysUnique w'.tables := by
  cases hx
  exact h.crash

end KeysUnique

/-! ## §5. Columns. -/

section Columns

variable {d : Db} {u v : User}

/-- Two rows with a common key are one. -/
theorem Db.KeysUnique.eq_of_mem (h : d.KeysUnique) (hu : u ∈ d.users.rows)
    (hv : v ∈ d.users.rows) {k : Lock} (hku : k ∈ keysOf u) (hkv : k ∈ keysOf v) : u = v := by
  have hid := h k u.id v.id ⟨u, Table.mem_rows.mp hu, hku⟩ ⟨v, Table.mem_rows.mp hv, hkv⟩
  exact List.inj_on_of_nodup_map d.users.nodup hu hv hid

theorem email_mem_keysOf (u : User) : .email u.email ∈ keysOf u := by simp [keysOf]

theorem username_mem_keysOf (u : User) : .username u.username ∈ keysOf u := by simp [keysOf]

theorem googleId_mem_keysOf {g : String} : .googleId g ∈ keysOf u ↔ u.googleId = some g := by
  simp [keysOf]

end Columns

end MinePanel.Accounts
