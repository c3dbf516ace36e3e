/-
  MinePanel.Admin.Grants
  ──────────────────────
  **GRANTS BELONG TO MODERATORS.**

  A grant is inserted under the lock that every change of a role takes, after
  the target was read as a moderator; a change of a role deletes the grants of
  its target before it commits, under the same lock.  So a grant that is there
  was committed after the last change of its user's role.  The server of a
  grant is locked by its foreign key until the grant commits, and the grants of
  a deleted server go with it.

  The property is proved in every interleaving of every account operation, with
  servers coming and going, statement failures and process deaths anywhere.
-/
import MinePanel.Accounts.Steps

namespace MinePanel.Accounts

open MinePanel.Db MinePanel.Lib Prog

/-! ## §1. Roles and grants under a write. -/

/-- The role of a user. -/
def Db.roleOf (d : Db) (u : UserId) : Option Role := (d.users.get u).map User.role

/-- The user whose role a write sets. -/
def Write.setsRole : Write → Option UserId
  | .updateUser id set _ => if set.role.isSome then some id else none
  | _ => none

/-- The user whose role a statement sets. -/
def Stmt.setsRole : ∀ {α : Type}, Stmt α → Option UserId
  | _, .updateUser id _ set => if set.role.isSome then some id else none
  | _, _ => none

/-- The user a write adds a grant for. -/
def Write.grantsTo : Write → Option UserId
  | .insertPermission row => some row.userId
  | _ => none

/-- The user a statement adds a grant for. -/
def Stmt.grantsTo : ∀ {α : Type}, Stmt α → Option UserId
  | _, .insertPermission userId _ _ => some userId
  | _, _ => none

/-- Writes of the surroundings. -/
def Write.movesServers : Write → Bool
  | .insertServer _ => true
  | .deleteServer _ => true
  | _ => false

/-- Neither a role nor a new grant. -/
def Write.IsPlain (x : Write) : Prop := x.setsRole = none ∧ x.grantsTo = none

/-- A statement that sets no role and adds no grant. -/
def Stmt.IsPlain {α : Type} (s : Stmt α) : Prop := s.setsRole = none ∧ s.grantsTo = none

/-- A plain write that adds no account either. -/
def Write.IsQuiet (x : Write) : Prop := x.IsPlain ∧ Power.account ∉ x.powers

/-- A plain statement that adds no account either. -/
def Stmt.IsQuiet {α : Type} (s : Stmt α) : Prop := s.IsPlain ∧ Power.account ∉ s.powers

theorem plan_grants {α : Type} (now : Timestamp) (e : Env) (d : Db) (s : Stmt α) :
    ∀ x ∈ (plan now e d s).writes,
      x.setsRole = s.setsRole ∧ x.grantsTo = s.grantsTo ∧ x.movesServers = false := by
  cases s <;> simp only [plan, Plan.read, Plan.refuse] <;> (repeat' split) <;>
    simp [Write.setsRole, Stmt.setsRole, Write.grantsTo, Stmt.grantsTo, Write.movesServers]

/-- Every role but the excepted user's is kept. -/
def RoleKept (exempt : Option UserId) (d d' : Db) : Prop :=
  ∀ (u : UserId) (r : Role), some u ≠ exempt → d.roleOf u = some r → d'.roleOf u = some r

theorem RoleKept.refl {exempt : Option UserId} (d : Db) : RoleKept exempt d d :=
  fun _ _ _ hr => hr

theorem RoleKept.of_users {exempt : Option UserId} {d d' : Db} (h : d'.users = d.users) :
    RoleKept exempt d d' := by
  intro u r _ hr
  unfold Db.roleOf at hr ⊢
  rw [h]
  exact hr

/-- A write keeps every role but the one it sets. -/
theorem RoleKept.apply {exempt : Option UserId} (d : Db) (x : Write)
    (h : x.setsRole = none ∨ x.setsRole = exempt) : RoleKept exempt d (d.apply x) := by
  cases x with
  | insertUser row =>
      intro u r _ hr
      unfold Db.roleOf at hr ⊢
      show (((d.users.insert row).getD d.users).get u).map User.role = some r
      cases hins : d.users.insert row with
      | none => exact hr
      | some users =>
          have hne : row.id ≠ u := by
            intro heq
            rw [← heq, (Table.insert_rows hins).2] at hr
            cases hr
          rw [Option.getD_some, Table.get_insert hins, if_neg hne]
          exact hr
  | updateUser id set now =>
      intro u r hu hr
      obtain ⟨row, hrow, hrole⟩ := Option.map_eq_some_iff.mp hr
      have hkey : row.id = u := Table.get_key hrow
      unfold Db.roleOf
      show ((d.users.modify (patchUser id set now) (patchUser_id id set now)).get u).map User.role
        = some r
      rw [Table.get_modify, hrow]
      show some (patchUser id set now row).role = some r
      unfold patchUser
      split
      next hid =>
        -- the row of the write: its role is not set, or its user is excepted
        have hnone : set.role = none := by
          by_contra hsome
          have hsets : (Write.updateUser id set now).setsRole = some id :=
            if_pos (Option.isSome_iff_ne_none.mpr hsome)
          rw [hsets] at h
          rcases h with h | h
          · cases h
          · exact hu (by rw [← h, ← hkey, hid])
        show some (set.role.getD row.role) = some r
        rw [hnone, ← hrole]
        rfl
      next => rw [hrole]
  | _ => exact RoleKept.of_users rfl

theorem RoleKept.foldl {exempt : Option UserId} (ws : List Write)
    (h : ∀ x ∈ ws, x.setsRole = none ∨ x.setsRole = exempt) (d : Db) :
    RoleKept exempt d (ws.foldl Db.apply d) := by
  induction ws generalizing d with
  | nil => exact RoleKept.refl d
  | cons x ws ih =>
      intro u r hu hr
      have hhead := RoleKept.apply d x (h x List.mem_cons_self) u r hu hr
      exact ih (fun y hy => h y (List.mem_cons_of_mem _ hy)) (d.apply x) u r hu hhead

/-- Quiet writes leave every role. -/
theorem foldl_roleOf {ws : List Write} (h : ∀ x ∈ ws, x.IsQuiet) (d : Db) (u : UserId) :
    (ws.foldl Db.apply d).roleOf u = d.roleOf u := by
  induction ws generalizing d with
  | nil => rfl
  | cons x ws ih =>
      rw [List.foldl_cons, ih fun y hy => h y (List.mem_cons_of_mem _ hy)]
      obtain ⟨⟨hrole, -⟩, haccount⟩ := h x List.mem_cons_self
      cases hd : d.roleOf u with
      | some r => exact RoleKept.apply d x (Or.inl hrole : _ ∨ _ = none) u r nofun hd
      | none =>
          unfold Db.roleOf at hd ⊢
          rw [Option.map_eq_none_iff] at hd ⊢
          cases x with
          | insertUser row => exact absurd List.mem_cons_self haccount
          | updateUser id set now =>
              show (d.users.modify (patchUser id set now) (patchUser_id id set now)).get u = none
              rw [Table.get_modify, hd]
              rfl
          | _ => exact hd

/-- The grants a write leaves. -/
def Write.spares (x : Write) (r : ModPermissionRow) : Prop :=
  match x with
  | .deletePermissions ids => r.id ∉ ids
  | .deleteServer id => r.serverId ≠ some id
  | _ => True

/-- The grants after a write that adds none. -/
theorem mem_apply {x : Write} (d : Db) (h : x.grantsTo = none) (r : ModPermissionRow) :
    r ∈ (d.apply x).modPermissions.rows ↔ r ∈ d.modPermissions.rows ∧ x.spares r := by
  cases x with
  | insertPermission row => cases h
  | deletePermissions ids => simp [Db.apply, Write.spares]
  | deleteServer id => simp [Db.apply, Write.spares]
  | _ => simp [Db.apply, Write.spares]

theorem mem_foldl {ws : List Write} (h : ∀ x ∈ ws, x.grantsTo = none) (d : Db)
    (r : ModPermissionRow) :
    r ∈ (ws.foldl Db.apply d).modPermissions.rows ↔
      r ∈ d.modPermissions.rows ∧ ∀ x ∈ ws, x.spares r := by
  induction ws generalizing d with
  | nil => simp
  | cons x ws ih =>
      rw [List.foldl_cons, ih (fun y hy => h y (List.mem_cons_of_mem _ hy)),
        mem_apply d (h x List.mem_cons_self)]
      simp [and_assoc]

/-- A grant after some writes was there, or was added by one of them. -/
theorem mem_foldl_or {ws : List Write} {d : Db} {r : ModPermissionRow}
    (h : r ∈ (ws.foldl Db.apply d).modPermissions.rows) :
    r ∈ d.modPermissions.rows ∨ .insertPermission r ∈ ws := by
  induction ws generalizing d with
  | nil => exact Or.inl h
  | cons x ws ih =>
      rcases ih h with hr | hr
      · cases hx : x.grantsTo with
        | none => exact Or.inl ((mem_apply d hx r).mp hr).1
        | some u =>
            cases x with
            | insertPermission row =>
                cases hins : d.modPermissions.insert row with
                | none =>
                    simp only [Db.apply, hins, Option.getD_none] at hr
                    exact Or.inl hr
                | some rows =>
                    simp only [Db.apply, hins, Option.getD_some, (Table.insert_rows hins).1,
                      List.mem_append, List.mem_singleton] at hr
                    rcases hr with hr | rfl
                    · exact Or.inl hr
                    · exact Or.inr List.mem_cons_self
            | _ => cases hx
      · exact Or.inr (List.mem_cons_of_mem _ hr)

theorem foldl_servers {ws : List Write} (h : ∀ x ∈ ws, x.movesServers = false) (d : Db) :
    (ws.foldl Db.apply d).servers = d.servers := by
  induction ws generalizing d with
  | nil => rfl
  | cons x ws ih =>
      rw [List.foldl_cons, ih fun y hy => h y (List.mem_cons_of_mem _ hy)]
      have hx := h x List.mem_cons_self
      cases x <;> first | rfl | cases hx

/-- What the advisory lock protects: every role, and that no grant is added. -/
def Fixed (d d' : Db) : Prop :=
  RoleKept none d d' ∧ ∀ r ∈ d'.modPermissions.rows, r ∈ d.modPermissions.rows

/-- The advisory lock protects roles and new grants; row locks protect rows. -/
def grantTouches (x : Write) (k : Lock) : Prop :=
  x.touches k ∨ (k = .advisory lastAdminLockKey ∧ ¬ x.IsPlain)

theorem grant_protects :
    Store.Protects Db.apply grantTouches (.advisory lastAdminLockKey) Fixed := by
  refine ⟨fun d => ⟨RoleKept.refl d, fun _ hr => hr⟩, fun h h' => ⟨?_, fun r hr => ?_⟩,
    fun d x hx => ?_⟩
  · intro u r hu hr
    exact h'.1 u r hu (h.1 u r hu hr)
  · exact h.2 r (h'.2 r hr)
  · have hplain : x.IsPlain := by
      by_contra hnot
      exact hx (Or.inr ⟨rfl, hnot⟩)
    exact ⟨RoleKept.apply d x (Or.inl hplain.1), fun r hr => ((mem_apply d hplain.2 r).mp hr).1⟩

namespace Grants

/-! ## §2. The monitor. -/

/-- How far a guarded transition has come. -/
inductive Phase where
  /-- A call that sets no role and adds no grant. -/
  | other
  /-- Before the transaction, or after its end. -/
  | out
  | opened
  | locked
  /-- The target was read with its role under the lock. -/
  | read (u : UserId) (r : Role)
  /-- A grant of a moderator is pending. -/
  | granted (u : UserId)
  /-- A new role is pending; the old grants are still there. -/
  | changed (u : UserId)
  /-- The grants to delete. -/
  | scanned (u : UserId) (ids : List PermissionId)
  /-- A new role is pending, and no grant is left. -/
  | cleared (u : UserId)
  deriving DecidableEq

namespace Phase

/-- Inside the transaction. -/
def isInside : Phase → Bool
  | .other | .out => false
  | _ => true

/-- Holding the advisory lock. -/
def isLocked : Phase → Bool
  | .other | .out | .opened => false
  | _ => true

/-- A role that is pending with grants left may not be committed. -/
def mayCommit : Phase → Bool
  | .changed _ | .scanned _ _ | .out => false
  | _ => true

/-- What is pending. -/
def Covers (m : Phase) (x : Write) : Prop :=
  x.movesServers = false ∧
    match m with
    | .granted u => x.setsRole = none ∧ (x.grantsTo = none ∨ x.grantsTo = some u)
    | .changed u | .scanned u _ | .cleared u =>
        x.grantsTo = none ∧ (x.setsRole = none ∨ x.setsRole = some u)
    | .other | .out => x.IsPlain
    | _ => x.IsQuiet

/-- The DELETE of a role change looks at the grants of its target. -/
def Asks (m : Phase) : ∀ {α : Type}, Stmt α → Prop
  | _, .scanPermissions cond => ∀ u, m = .changed u → cond = fun r => r.userId == u
  | _, .deletePermissions ids => ∀ u ids', m = .scanned u ids' → ids = ids'
  | _, _ => True

/-- What a call may do next: a role is set only of the target read under the
lock, a grant is added only for a target read as a moderator. -/
def allow (m : Phase) : ∀ {β : Type}, Act β → Prop
  | _, .query s =>
      (m = .other ∧ s.IsPlain) ∨
      (m.isInside = true ∧ m.Asks s ∧
        (s.IsQuiet ∨ (∃ u r, m = .read u r ∧ s.setsRole = some u ∧ s.grantsTo = none) ∨
          ∃ u, m = .read u .mod ∧ s.grantsTo = some u ∧ s.setsRole = none))
  | _, .begin => m = .other ∨ m = .out
  | _, .commit => m.mayCommit = true
  | _, .rollback => m = .other ∨ m.isInside = true
  | _, _ => True

/-- What a statement teaches. -/
def after (m : Phase) : ∀ {α : Type}, Stmt α → α → Phase
  | _, .advisoryLock key, _ =>
      match m with
      | .opened => if key = lastAdminLockKey then .locked else .opened
      | m => m
  | _, .selectUser id, r =>
      match m, r with
      | .locked, some u => .read id u.role
      | m, _ => m
  | _, .updateUser _ _ set, r =>
      match m, r with
      | .read u role, some _ => if set.role.isSome then .changed u else .read u role
      | m, _ => m
  | _, .insertPermission _ _ _, r =>
      match m, r with
      | .read u _, some _ => .granted u
      | m, _ => m
  | _, .scanPermissions _, ids =>
      match m with
      | .changed u => .scanned u ids
      | m => m
  | _, .deletePermissions _, _ =>
      match m with
      | .scanned u _ => .cleared u
      | m => m
  | _, _, _ => m

/-- The phase after a step. -/
def next (m : Phase) : ∀ {β : Type}, Act β → β → Phase
  | _, .query s, b =>
      match b with
      | .ok r => m.after s r
      | .error _ => m
  | _, .begin, b =>
      match m, b with
      | .out, .ok _ => .opened
      | m, _ => m
  | _, .commit, _ => if m.isInside then .out else m
  | _, .rollback, _ => if m.isInside then .out else m
  | _, _, _ => m

theorem next_other {β : Type} (a : Act β) (b : β) : next .other a b = .other := by
  cases a with
  | query s =>
      cases b with
      | ok r => cases s <;> rfl
      | error e => rfl
  | _ => rfl

end Phase

/-- The monitor of every operation. -/
def monitor : Monitor Act Phase where
  allow := fun m a => m.allow a
  next := fun m a b m' => m' = m.next a b

/-! ## §3. Every operation follows the monitor. -/

/-- Where a call starts. -/
def start (op : Op) : Phase := if op.isTransition then .out else .other

/-- A call that has ended has left its transaction. -/
def Ended (m : Phase) : Prop := m.isInside = false

section Calls

variable {α : Type} {Q : α → Phase → Prop} {m : Phase}

/-- A statement inside the transaction. -/
theorem wp_inside {s : Stmt α} (hm : m.isInside = true) (hasks : m.Asks s) (hs : s.IsQuiet)
    (hQ : ∀ r, Q r (m.after s r)) :
    wp monitor Q (fun _ m => m.isInside = true) (query s) m := by
  refine wp_query (Or.inr ⟨hm, hasks, Or.inl hs⟩) (fun r m' h => ?_) fun e m' h => ?_
  · have h : m' = m.after s r := h
    rw [h]
    exact hQ r
  · have h : m' = m := h
    rw [h]
    exact hm

theorem wp_guardedTransaction {p : Call α}
    (hp : wp monitor (fun _ m => m.isInside = true ∧ m.mayCommit = true)
      (fun _ m => m.isInside = true) p .opened) :
    wp monitor (fun _ => Ended) (fun _ => Ended) (transaction p) .out := by
  have hout : ∀ {m : Phase}, m.isInside = true → (if m.isInside then Phase.out else m) = .out :=
    fun hm => if_pos hm
  refine wp_transaction (R := fun _ m => m.isInside = true ∧ m.mayCommit = true)
    (F := fun _ m => m.isInside = true) (Or.inr rfl) (fun e m' h => ?_) (fun m' h => ?_)
    (fun r m hm => ?_) (fun e m hm => ?_)
  · have h : m' = .out := h
    rw [h]
    rfl
  · have h : m' = .opened := h
    rw [h]
    exact hp
  · refine ⟨hm.2, fun m'' h => ?_, fun e m'' h => ?_⟩
    · have h : m'' = if m.isInside then .out else m := h
      rw [h, hout hm.1]
      rfl
    · have h : m'' = if m.isInside then .out else m := h
      rw [h, hout hm.1]
      rfl
  · refine ⟨Or.inr hm, fun m'' h => ?_⟩
    have h : m'' = if m.isInside then .out else m := h
    rw [h, hout hm]
    rfl

/-- `lockedTarget`: afterwards the target's role is known under the lock. -/
theorem lockedTarget_keeps {userId : UserId} {Q : User → Phase → Prop}
    (hQ : ∀ u : User, Q u (.read userId u.role)) :
    wp monitor Q (fun _ m => m.isInside = true) (lockedTarget userId) .opened := by
  unfold lockedTarget
  refine wp_seq (wp_inside rfl trivial ⟨⟨rfl, rfl⟩, by simp [Stmt.powers]⟩ fun _ => ?_)
  show wp monitor Q _ _ Phase.locked
  refine wp_seq (wp_inside rfl trivial ⟨⟨rfl, rfl⟩, by simp [Stmt.powers]⟩ fun target => ?_)
  cases target with
  | none => exact (rfl : Phase.locked.isInside = true)
  | some u => exact hQ u

/-- `assertActiveAdminsRemain` leaves the phase alone. -/
theorem assertActiveAdminsRemain_keeps {u : UserId} {r : Role} {Q : Unit → Phase → Prop}
    (hQ : Q () (.read u r)) :
    wp monitor Q (fun _ m => m.isInside = true) assertActiveAdminsRemain (.read u r) := by
  unfold assertActiveAdminsRemain
  refine wp_seq (wp_inside rfl trivial ⟨⟨rfl, rfl⟩, by simp [Stmt.powers]⟩ fun n => ?_)
  exact wp_guard (fun _ => rfl) fun _ => hQ

/-- An optional check of the remaining administrators. -/
theorem guard_keeps {u : UserId} {r : Role} {c : Bool} {rest : Call α}
    (hrest : wp monitor Q (fun _ m => m.isInside = true) rest (.read u r)) :
    wp monitor Q (fun _ m => m.isInside = true)
      (if c = true then assertActiveAdminsRemain.bind fun _ => rest else rest) (.read u r) := by
  split
  next => exact wp_seq (assertActiveAdminsRemain_keeps hrest)
  next => exact hrest

/-- A result that may be committed. -/
theorem toPublicUserOrThrow_keeps {row : Option User} (hm : m.isInside = true)
    (hc : row.isSome = true → m.mayCommit = true) :
    wp monitor (fun _ m => m.isInside = true ∧ m.mayCommit = true)
      (fun _ m => m.isInside = true) (toPublicUserOrThrow row) m := by
  cases row with
  | none => exact hm
  | some u => exact ⟨hm, hc rfl⟩

/-- `updateStatus`. -/
theorem updateStatus_keeps (userId : UserId) (status : UserStatus) :
    wp monitor (fun _ => Ended) (fun _ => Ended) (updateStatus userId status) .out := by
  refine wp_guardedTransaction ?_
  refine wp_seq (lockedTarget_keeps fun target => ?_)
  refine wp_guard (fun _ => rfl) fun _ => guard_keeps ?_
  refine wp_seq (wp_inside rfl trivial ⟨⟨rfl, rfl⟩, by simp [Stmt.powers, UserPatch.powers]⟩ fun updated => ?_)
  have hafter : (Phase.read userId target.role).after
      (.updateUser userId (fun _ => true) { status := some status }) updated
      = .read userId target.role := by
    cases updated <;> rfl
  rw [hafter]
  show wp monitor _ _ (if status = .banned then _ else _) _
  split
  next =>
    refine wp_seq (wp_seq (wp_inside rfl trivial ⟨⟨rfl, rfl⟩, by simp [Stmt.powers]⟩ fun ids => ?_))
    refine wp_seq (wp_inside rfl trivial ⟨⟨rfl, rfl⟩, by simp [Stmt.powers]⟩ fun _ => ?_)
    exact toPublicUserOrThrow_keeps rfl fun _ => rfl
  next => exact toPublicUserOrThrow_keeps rfl fun _ => rfl

/-- The end of a role change whose UPDATE found no row: nothing to clear. -/
theorem missed_keeps {u : UserId} {r : Role} {cond : ModPermissionRow → Bool} :
    wp monitor (fun _ m => m.isInside = true ∧ m.mayCommit = true)
      (fun _ m => m.isInside = true)
      ((deletePermissionsWhere cond).bind fun _ => toPublicUserOrThrow none) (.read u r) := by
  unfold deletePermissionsWhere
  refine wp_seq (wp_seq (wp_inside rfl (fun _ h => by cases h) ⟨⟨rfl, rfl⟩, by simp [Stmt.powers]⟩ fun ids => ?_))
  exact wp_inside rfl (fun _ _ h => by cases h) ⟨⟨rfl, rfl⟩, by simp [Stmt.powers]⟩ fun _ => rfl

/-- `updateRole`. -/
theorem updateRole_keeps (userId : UserId) (role : Role) :
    wp monitor (fun _ => Ended) (fun _ => Ended) (updateRole userId role) .out := by
  refine wp_guardedTransaction ?_
  refine wp_seq (lockedTarget_keeps fun target => ?_)
  refine wp_guard (fun _ => rfl) fun _ => guard_keeps ?_
  have hallow : monitor.allow (.read userId target.role)
      (.query (.updateUser userId (fun _ => true) { role := some role })) :=
    Or.inr ⟨rfl, trivial, Or.inr (Or.inl ⟨userId, target.role, rfl, rfl, rfl⟩)⟩
  refine wp_seq (wp_query hallow (fun updated m' h => ?_) fun e m' h => ?_)
  · cases updated with
    | none =>
        have h : m' = .read userId target.role := h
        rw [h]
        exact missed_keeps
    | some updated =>
        have h : m' = .changed userId := h
        rw [h]
        unfold deletePermissionsWhere
        refine wp_seq (wp_seq (wp_inside rfl ?_ ⟨⟨rfl, rfl⟩, by simp [Stmt.powers]⟩ fun ids => ?_))
        · intro u hu
          cases hu
          rfl
        · show wp monitor _ _ _ (Phase.scanned userId ids)
          refine wp_inside rfl ?_ ⟨⟨rfl, rfl⟩, by simp [Stmt.powers]⟩ fun _ => ⟨rfl, rfl⟩
          intro u ids' hids
          cases hids
          rfl
  · have h : m' = .read userId target.role := h
    rw [h]
    rfl

theorem grantedServer_keeps {u : UserId} {r : Role} {rawServerId : Option ServerIdText}
    {Q : Option ServerId → Phase → Prop} (hQ : ∀ s, Q s (.read u r)) :
    wp monitor Q (fun _ m => m.isInside = true) (grantedServer rawServerId) (.read u r) := by
  unfold grantedServer
  cases rawServerId with
  | none => exact hQ none
  | some text =>
      cases text with
      | blank => exact (rfl : (Phase.read u r).isInside = true)
      | trimmed id =>
          refine wp_seq (wp_inside rfl trivial ⟨⟨rfl, rfl⟩, by simp [Stmt.powers]⟩ fun found => ?_)
          exact wp_guard (fun _ => rfl) fun _ => hQ _

/-- `grantModPermission`. -/
theorem grantModPermission_keeps (userId : UserId) (permission : ModPermission)
    (rawServerId : Option ServerIdText) :
    wp monitor (fun _ => Ended) (fun _ => Ended)
      (grantModPermission userId permission rawServerId) .out := by
  refine wp_guardedTransaction ?_
  refine wp_seq (lockedTarget_keeps fun target => ?_)
  refine wp_guard (fun _ => rfl) fun hmod => ?_
  have hmod : target.role = .mod := not_not.mp hmod
  rw [hmod]
  refine wp_seq (grantedServer_keeps fun serverId => ?_)
  have hallow : monitor.allow (.read userId .mod)
      (.query (.insertPermission userId permission serverId)) :=
    Or.inr ⟨rfl, trivial, Or.inr (Or.inr ⟨userId, rfl, rfl, rfl⟩)⟩
  refine wp_seq (wp_query hallow (fun inserted m' h => ?_) fun e m' h => ?_)
  · cases inserted with
    | some inserted =>
        have h : m' = .granted userId := h
        rw [h]
        exact ⟨rfl, rfl⟩
    | none =>
        have h : m' = .read userId .mod := h
        rw [h]
        exact wp_seq (wp_inside rfl trivial ⟨⟨rfl, rfl⟩, by simp [Stmt.powers]⟩ fun _ => rfl)
  · have h : m' = .read userId .mod := h
    rw [h]
    rfl

/-- A plain statement of a call that is no transition. -/
theorem wp_plain {s : Stmt α} {Q : α → Phase → Prop} (hs : s.IsPlain) (hQ : ∀ r, Q r .other) :
    wp monitor Q (fun _ => Ended) (query s) .other := by
  refine wp_query (Or.inl ⟨rfl, hs⟩) (fun r m' h => ?_) fun e m' h => ?_
  · have h : m' = Phase.next .other (.query s) (.ok r) := h
    rw [h, Phase.next_other]
    exact hQ r
  · have h : m' = .other := h
    rw [h]
    rfl

/-- `revokeModPermission` only deletes. -/
theorem revokeModPermission_keeps (userId : UserId) (permId : PermissionId) :
    wp monitor (fun _ => Ended) (fun _ => Ended) (revokeModPermission userId permId) .other := by
  unfold revokeModPermission existingTarget deletePermissionsWhere
  refine wp_seq (wp_seq (wp_plain ⟨rfl, rfl⟩ fun target => ?_))
  cases target with
  | none => exact (rfl : Ended .other)
  | some target =>
      refine wp_seq (wp_seq (wp_plain ⟨rfl, rfl⟩ fun ids => ?_))
      refine wp_plain ⟨rfl, rfl⟩ fun result => ?_
      exact wp_guard (fun _ => rfl) fun _ => rfl

end Calls

/-- The monitor does not notice an operation without power over standings and
grants. -/
theorem ignores_other {ps : List Power} (hstanding : Power.standing ∉ ps)
    (hgrant : Power.grant ∉ ps) : monitor.Ignores (fun _ a => a.powers ⊆ ps) .other := by
  intro β a ha
  refine ⟨?_, fun b m' h => ?_⟩
  · cases a with
    | query s =>
        refine Or.inl ⟨rfl, ?_, ?_⟩
        · cases s with
          | updateUser id cond set =>
              refine if_neg fun hrole => hstanding (ha ?_)
              show Power.standing ∈ set.powers
              unfold UserPatch.powers
              simp [hrole]
          | _ => rfl
        · cases s with
          | insertPermission u permission serverId => exact absurd (ha List.mem_cons_self) hgrant
          | _ => rfl
    | begin => exact Or.inl rfl
    | commit => exact (rfl : Phase.other.mayCommit = true)
    | rollback => exact Or.inl rfl
    | _ => exact trivial
  · have h : m' = Phase.next .other a b := h
    rw [h, Phase.next_other]

/-- **Every operation follows the monitor.** -/
theorem body_keeps (S : Settings) (op : Op) :
    wp monitor (fun _ => Ended) (fun _ => Ended) (body S op) (start op) := by
  have hmap : ∀ {α : Type} {p : Call α} {m : Phase} (f : α → Reply),
      wp monitor (fun _ => Ended) (fun _ => Ended) p m →
      wp monitor (fun _ => Ended) (fun _ => Ended) (f <$> p) m := fun f h => wp_seq h
  have hother : op.isTransition = false → Power.standing ∉ op.powers → Power.grant ∉ op.powers →
      wp monitor (fun _ => Ended) (fun _ => Ended) (body S op) (start op) := by
    intro hop hstanding hgrant
    have hstart : start op = .other := by
      unfold start
      rw [hop]
      rfl
    rw [hstart]
    exact wp_of_only (body_within S op) (ignores_other hstanding hgrant) (fun _ => rfl)
      fun _ _ => rfl
  cases op with
  | updateStatus userId status => exact hmap _ (updateStatus_keeps userId status)
  | updateRole userId role => exact hmap _ (updateRole_keeps userId role)
  | grantModPermission userId permission serverId =>
      exact hmap _ (grantModPermission_keeps userId permission serverId)
  | revokeModPermission userId permId => exact hmap _ (revokeModPermission_keeps userId permId)
  | _ => exact hother rfl (by simp [Op.powers]) (by simp [Op.powers])

/-! ## §4. The history and the invariant. -/

/-- When each grant was committed, and when each role last changed, in steps of
the run. -/
structure Diary where
  now : Nat
  madeAt : UserId × ModPermission × Option ServerId → Nat
  changedAt : UserId → Nat

/-- Nothing has happened. -/
def Diary.blank : Diary := ⟨0, fun _ => 0, fun _ => 0⟩

/-- The diary after a step that leads from the tables `d` to `d'`. -/
def Diary.step (o : Diary) (d d' : Db) : Diary where
  now := o.now + 1
  madeAt := fun g =>
    if (d'.modPermissions.get g).isSome ∧ (d.modPermissions.get g).isNone then o.now + 1
    else o.madeAt g
  changedAt := fun u => if d'.roleOf u ≠ d.roleOf u then o.now + 1 else o.changedAt u

/-- Every interleaving, with its diary. -/
def diary : Watch Act World Env Op Diary where
  onStep := fun o w _ _ _ _ _ w' => o.step w.db w'.db

/-- What a call knows of a role. -/
def Phase.knows : Phase → Option (UserId × Role)
  | .read u r => some (u, r)
  | .granted u => some (u, .mod)
  | _ => none

/-- What a phase says about the world. -/
structure Holds (m : Phase) (w : World) (p : Pid) : Prop where
  writes : ∀ {ws}, w.tables.pending p = some ws → ∀ x ∈ ws, m.Covers x
  inside : m.isInside = true → (w.tables.pending p).isSome = true
  lock : m.isLocked = true → w.tables.owner (.advisory lastAdminLockKey) = some p
  role : ∀ {u r}, m.knows = some (u, r) → w.db.roleOf u = some r
  server : ∀ {ws row s}, w.tables.pending p = some ws → .insertPermission row ∈ ws →
    row.serverId = some s → s ∈ w.db.servers
  scan : ∀ {u ids}, m = .scanned u ids → ∀ r ∈ (w.view p).modPermissions.rows, r.userId = u →
    r.id ∈ ids
  clear : ∀ {u}, m = .cleared u → ∀ r ∈ (w.view p).modPermissions.rows, r.userId ≠ u

/-- What is known of a role is known under the lock. -/
theorem Phase.locked_of_knows {m : Phase} {u : UserId} {r : Role} (h : m.knows = some (u, r)) :
    m.isLocked = true := by
  cases m <;> first | rfl | cases h

/-- A pending role or grant is covered by the phase's lock. -/
theorem Phase.Covers.plain {m : Phase} {x : Write} (h : m.Covers x) (hm : m.isLocked = false) :
    x.IsPlain := by
  cases m with
  | other => exact h.2
  | out => exact h.2
  | opened => exact h.2.1
  | _ => cases hm

/-- Fewer committed grants, fewer grants in the view of a call that adds none. -/
theorem view_grants {w w' : World} {q : Pid}
    (hpending : w'.tables.pending q = w.tables.pending q)
    (hadds : ∀ {ws}, w.tables.pending q = some ws → ∀ x ∈ ws, x.grantsTo = none)
    (hrows : ∀ r ∈ w'.db.modPermissions.rows, r ∈ w.db.modPermissions.rows)
    {r : ModPermissionRow} (hr : r ∈ (w'.view q).modPermissions.rows) :
    r ∈ (w.view q).modPermissions.rows := by
  unfold World.view at hr ⊢
  cases hws : w.tables.pending q with
  | none =>
      rw [Store.view_of_none (hpending.trans hws)] at hr
      rw [Store.view_of_none hws]
      exact hrows r hr
  | some ws =>
      rw [Store.view_of_some (hpending.trans hws), mem_foldl (hadds hws)] at hr
      rw [Store.view_of_some hws, mem_foldl (hadds hws)]
      exact ⟨hrows r hr.1, hr.2⟩

/-- A phase is carried over where its call's transaction and lock stay, and so
does what the lock protects. -/
theorem Holds.transfer {m : Phase} {w w' : World} {q : Pid} (h : Holds m w q)
    (hpending : w'.tables.pending q = w.tables.pending q)
    (hlock : w.tables.owner (.advisory lastAdminLockKey) = some q →
      w'.tables.owner (.advisory lastAdminLockKey) = some q ∧ Fixed w.db w'.db)
    (hserver : ∀ {ws row s}, w.tables.pending q = some ws → .insertPermission row ∈ ws →
      row.serverId = some s → s ∈ w.db.servers → s ∈ w'.db.servers) : Holds m w' q := by
  have hclear : ∀ {u : UserId}, m = .cleared u ∨ (∃ ids, m = .scanned u ids) →
      ∀ {ws}, w.tables.pending q = some ws → ∀ x ∈ ws, x.grantsTo = none := by
    rintro u (rfl | ⟨ids, rfl⟩) ws hws x hx
    · exact (h.writes hws x hx).2.1
    · exact (h.writes hws x hx).2.1
  refine ⟨fun hws => h.writes (hpending ▸ hws), fun hm => ?_, fun hm => (hlock (h.lock hm)).1,
    fun {u r} hm => ?_, fun {ws row s} hws hrow hs => ?_, fun {u ids} hm r hr hu => ?_,
    fun {u} hm r hr => ?_⟩
  · rw [hpending]
    exact h.inside hm
  · exact (hlock (h.lock (Phase.locked_of_knows hm))).2.1 u r nofun (h.role hm)
  · rw [hpending] at hws
    exact hserver hws hrow hs (h.server hws hrow hs)
  · have hfixed := (hlock (h.lock (by rw [hm]; rfl))).2
    exact h.scan hm r (view_grants hpending (hclear (Or.inr ⟨ids, hm⟩)) hfixed.2 hr) hu
  · have hfixed := (hlock (h.lock (by rw [hm]; rfl))).2
    exact h.clear hm r (view_grants hpending (hclear (Or.inl hm)) hfixed.2 hr)

/-- A phase outside a transaction promises nothing about it. -/
theorem Holds.outside {m : Phase} {w : World} {p : Pid} (hm : m.isInside = false)
    (hnone : w.tables.pending p = none) : Holds m w p := by
  have hend : m = .other ∨ m = .out := by
    cases m <;> first | exact Or.inl rfl | exact Or.inr rfl | cases hm
  refine ⟨fun hws => ?_, fun h => ?_, fun h => ?_, fun h => ?_, fun hws => ?_, fun h => ?_,
    fun h => ?_⟩
  · rw [hnone] at hws
    cases hws
  · rw [hm] at h
    cases h
  · rcases hend with rfl | rfl <;> cases h
  · rcases hend with rfl | rfl <;> cases h
  · rw [hnone] at hws
    cases hws
  · rcases hend with rfl | rfl <;> cases h
  · rcases hend with rfl | rfl <;> cases h

/-- A grant is where it belongs. -/
structure Rightful (d : Db) (o : Diary) (r : ModPermissionRow) : Prop where
  role : d.roleOf r.userId = some .mod
  server : ∀ s, r.serverId = some s → s ∈ d.servers
  since : o.changedAt r.userId < o.madeAt r.grant

/-- The invariant of every run. -/
structure Kept (w : World) (o : Diary) (gs : Pid → Phase) : Prop where
  sound : Store.Sound grantTouches w.tables
  holds : ∀ p, Holds (gs p) w p
  rows : ∀ r ∈ w.db.modPermissions.rows, Rightful w.db o r
  past : ∀ u, o.changedAt u ≤ o.now

/-- The diary after a step in which the roles of all users with grants stay. -/
theorem Rightful.step {d d' : Db} {o : Diary} (hold : ∀ r ∈ d.modPermissions.rows, Rightful d o r)
    (hpast : ∀ u, o.changedAt u ≤ o.now) {r : ModPermissionRow}
    (hr : r ∈ d'.modPermissions.rows) (hrole : d.roleOf r.userId = some .mod)
    (hrole' : d'.roleOf r.userId = some .mod) (hserver : ∀ s, r.serverId = some s → s ∈ d'.servers) :
    Rightful d' (o.step d d') r := by
  refine ⟨hrole', hserver, ?_⟩
  have hget : d'.modPermissions.get r.grant = some r := Table.mem_rows.mp hr
  have hchanged : (o.step d d').changedAt r.userId = o.changedAt r.userId := by
    refine if_neg fun hne => hne ?_
    rw [hrole', hrole]
  rw [hchanged]
  show _ < if (d'.modPermissions.get r.grant).isSome ∧ (d.modPermissions.get r.grant).isNone
    then o.now + 1 else o.madeAt r.grant
  cases hg : d.modPermissions.get r.grant with
  | none =>
      rw [hget, if_pos ⟨rfl, rfl⟩]
      have hle := hpast r.userId
      omega
  | some r₀ =>
      -- the same grant was there, of the same user
      rw [if_neg (by simp)]
      obtain ⟨hmem, hkey⟩ := Table.get_eq_some.mp hg
      have hsince := (hold r₀ hmem).since
      have huser : r₀.userId = r.userId := congrArg Prod.fst hkey
      rw [huser, hkey] at hsince
      exact hsince

theorem past_step {d d' : Db} {o : Diary} (hpast : ∀ u, o.changedAt u ≤ o.now) :
    ∀ u, (o.step d d').changedAt u ≤ (o.step d d').now := by
  intro u
  show (if d'.roleOf u ≠ d.roleOf u then o.now + 1 else o.changedAt u) ≤ o.now + 1
  have hle := hpast u
  split <;> omega

/-! ## §5. Steps. -/

/-- A role is set and a grant added only under the lock. -/
theorem locked_of_allow {m : Phase} {β : Type} {a : Act β} (ha : m.allow a) {x : Write}
    (hx : a.May x) (hnot : ¬ x.IsPlain) : m.isLocked = true := by
  cases a with
  | query s =>
      obtain ⟨now, e, d, hmem⟩ := hx.planned
      obtain ⟨hrole, hgrant, -⟩ := plan_grants now e d s x hmem
      have hs : ¬ s.IsPlain := by
        intro hs
        exact hnot ⟨hrole.trans hs.1, hgrant.trans hs.2⟩
      rcases ha with ⟨-, hplain⟩ | ⟨-, -, hplain | ⟨u, r, rfl, -⟩ | ⟨u, rfl, -⟩⟩
      · exact absurd hplain hs
      · exact absurd hplain.1 hs
      · rfl
      · rfl
  | _ => exact hx.planned.elim

section Steps

variable {S : Settings} {w w' : World} {o : Diary} {gs : Pid → Phase} {p : Pid} {e : Env}

/-- An allowed step is a step under the locks. -/
theorem allowed_step {m : Phase} {β : Type} {a : Act β} {b : β} (ha : m.allow a)
    (h : Holds m w p) (hx : exec S p a e w = some (b, w')) :
    Store.Step Db.apply grantTouches a.May p w.tables w'.tables :=
  (exec_step hx).retouch fun x hmay k hk => by
    rcases hk with hk | ⟨rfl, hnot⟩
    · exact Or.inl hk
    · exact Or.inr (h.lock (locked_of_allow ha hmay hnot))

/-- **Only `p` moves**: it is left to say where `p` is now and that the grants
are where they belong. -/
theorem Kept.move {may : Write → Prop} {m : Phase} (h : Kept w o gs)
    (hstep : Store.Step Db.apply grantTouches may p w.tables w'.tables)
    (hservers : w'.db.servers = w.db.servers)
    (hrows : ∀ r ∈ w'.db.modPermissions.rows, w.db.roleOf r.userId = some .mod ∧
      w'.db.roleOf r.userId = some .mod ∧ ∀ s, r.serverId = some s → s ∈ w'.db.servers)
    (hm : Holds m w' p) : Kept w' (o.step w.db w'.db) (Function.update gs p m) := by
  refine ⟨hstep.sound h.sound, fun q => ?_, fun r hr => ?_, past_step h.past⟩
  · by_cases hq : q = p
    · subst hq
      rw [Function.update_self]
      exact hm
    · rw [Function.update_of_ne hq]
      refine (h.holds q).transfer (hstep.pending_of_ne hq) (fun hk => ?_) fun _ _ _ hs => ?_
      · exact ⟨hstep.owner_of_ne hq hk, h.sound.still hstep grant_protects hk hq⟩
      · rw [hservers]
        exact hs
  · obtain ⟨hrole, hrole', hserver⟩ := hrows r hr
    exact Rightful.step h.rows h.past hr hrole hrole' hserver

/-- A step that leaves the committed tables. -/
theorem Kept.still {may : Write → Prop} {m : Phase} (h : Kept w o gs)
    (hstep : Store.Step Db.apply grantTouches may p w.tables w'.tables) (hdb : w'.db = w.db)
    (hm : Holds m w' p) : Kept w' (o.step w.db w'.db) (Function.update gs p m) := by
  refine h.move hstep (by rw [hdb]) (fun r hr => ?_) hm
  rw [hdb] at hr ⊢
  exact ⟨(h.rows r hr).role, (h.rows r hr).role, (h.rows r hr).server⟩

/-- Plain writes leave every grant where it belongs. -/
theorem Kept.plain_rows {ws : List Write} (h : Kept w o gs)
    (heq : w'.db = ws.foldl Db.apply w.db)
    (hws : ∀ x ∈ ws, x.IsPlain ∧ x.movesServers = false) :
    w'.db.servers = w.db.servers ∧
      ∀ r ∈ w'.db.modPermissions.rows, w.db.roleOf r.userId = some .mod ∧
        w'.db.roleOf r.userId = some .mod ∧ ∀ s, r.serverId = some s → s ∈ w'.db.servers := by
  have hservers : w'.db.servers = w.db.servers := by
    rw [heq]
    exact foldl_servers (fun x hx => (hws x hx).2) _
  refine ⟨hservers, fun r hr => ?_⟩
  rw [heq, mem_foldl fun x hx => (hws x hx).1.2] at hr
  have hold := h.rows r hr.1
  refine ⟨hold.role, ?_, fun s hs => ?_⟩
  · have hkept : RoleKept none w.db (ws.foldl Db.apply w.db) :=
      RoleKept.foldl ws (fun x hx => Or.inl (hws x hx).1.1) _
    rw [heq]
    exact hkept _ _ nofun hold.role
  · rw [hservers]
    exact hold.server s hs

/-- Any step of a call that is no transition. -/
theorem Kept.step_other {β : Type} {a : Act β} {b : β} (h : Kept w o gs) (hother : gs p = .other)
    (ha : (gs p).allow a) (hx : exec S p a e w = some (b, w')) :
    Kept w' (o.step w.db w'.db) (Function.update gs p .other) := by
  have hp := h.holds p
  have hstep := allowed_step ha hp hx
  rw [hother] at ha hp
  have hmay : ∀ x, a.May x → Phase.other.Covers x := by
    intro x hx
    have hplain : x.IsPlain := by
      by_contra hnot
      cases locked_of_allow ha hx hnot
    refine ⟨?_, hplain⟩
    cases a with
    | query s =>
        obtain ⟨now, e, d, hmem⟩ := hx.planned
        exact (plan_grants now e d s x hmem).2.2
    | _ => exact hx.planned.elim
  obtain ⟨ws, heq, hws⟩ := hstep.committed_eq (P := Phase.other.Covers) hp.writes hmay
  obtain ⟨hservers, hrows⟩ := h.plain_rows heq fun x hx => ⟨(hws x hx).2, (hws x hx).1⟩
  refine h.move hstep hservers hrows ⟨fun hws => hstep.pending_all hp.writes hmay hws, nofun, nofun,
    nofun, fun {ws row s} hws hrow _ => ?_, nofun, nofun⟩
  -- such a call adds no grant
  have hcovers := hstep.pending_all hp.writes hmay hws _ hrow
  cases hcovers.2.2

/-- An UPDATE that returns no row writes nothing. -/
theorem plan_updateUser (e : Env) (now : Timestamp) (d : Db) (id : UserId) (cond : User → Bool)
    (set : UserPatch) :
    (∃ u, (plan now e d (.updateUser id cond set)).answer = .ok (some u)) ∨
      (plan now e d (.updateUser id cond set)).writes = [] := by
  simp only [plan]
  split
  next => exact Or.inr rfl
  next u _ =>
    split
    next => exact Or.inr rfl
    next => exact Or.inl ⟨_, rfl⟩

/-- A grant that returns no row writes nothing; one that does names a server
that is there. -/
theorem plan_insertPermission (e : Env) (now : Timestamp) (d : Db) (u : UserId)
    (permission : ModPermission) (serverId : Option ServerId) :
    ((∃ row, (plan now e d (.insertPermission u permission serverId)).answer = .ok (some row)) ∧
      ∀ s, serverId = some s → s ∈ d.servers) ∨
      (plan now e d (.insertPermission u permission serverId)).writes = [] := by
  simp only [plan]
  split
  next => exact Or.inr rfl
  next hfound =>
    split
    next => exact Or.inr rfl
    next =>
      refine Or.inl ⟨⟨_, rfl⟩, fun s hs => ?_⟩
      rw [hs] at hfound
      simpa using (not_or.mp (Bool.or_eq_true_iff.not.mp hfound)).2

theorem plan_updateUser_writes {now : Timestamp} {d : Db} {id : UserId} {cond : User → Bool}
    {set : UserPatch} {row : User}
    (h : (plan now e d (.updateUser id cond set)).answer = .ok (some row)) :
    (plan now e d (.updateUser id cond set)).writes = [.updateUser id set now] := by
  simp only [plan] at h ⊢
  split at h
  next => cases h
  next u hu =>
    split at h
    next => cases h
    next => simp

theorem plan_insertPermission_writes {now : Timestamp} {d : Db} {u : UserId}
    {permission : ModPermission} {serverId : Option ServerId} {row : ModPermissionRow}
    (h : (plan now e d (.insertPermission u permission serverId)).answer = .ok (some row)) :
    (plan now e d (.insertPermission u permission serverId)).writes = [.insertPermission row] := by
  simp only [plan] at h ⊢
  split at h
  next => cases h
  next hfound =>
    rw [if_neg hfound]
    split at h
    next => cases h
    next hfree =>
      rw [if_neg hfree]
      cases h
      rfl

theorem plan_insertPermission_server {now : Timestamp} {d : Db} {u : UserId}
    {permission : ModPermission} {serverId : Option ServerId} {row : ModPermissionRow}
    (h : .insertPermission row ∈ (plan now e d (.insertPermission u permission serverId)).writes) :
    row.serverId = serverId := by
  simp only [plan] at h
  split at h
  next => exact absurd h List.not_mem_nil
  next =>
    split at h
    next => exact absurd h List.not_mem_nil
    next =>
      cases List.mem_singleton.mp h
      rfl

/-- The writes of a quiet statement are quiet. -/
theorem plan_quiet {α : Type} {s : Stmt α} (hs : s.IsQuiet) {now : Timestamp} {d : Db} {x : Write}
    (hx : x ∈ (plan now e d s).writes) : x.IsQuiet ∧ x.movesServers = false := by
  obtain ⟨hrole, hgrant, hservers⟩ := plan_grants now e d s x hx
  refine ⟨⟨⟨hrole.trans hs.1.1, hgrant.trans hs.1.2⟩, ?_⟩, hservers⟩
  rw [plan_powers now e d s x hx]
  exact hs.2

theorem Phase.covers_quiet (m : Phase) {x : Write} (hx : x.IsQuiet) (hs : x.movesServers = false) :
    m.Covers x := by
  refine ⟨hs, ?_⟩
  cases m with
  | other => exact hx.1
  | out => exact hx.1
  | granted u => exact ⟨hx.1.1, Or.inl hx.1.2⟩
  | changed u => exact ⟨hx.1.2, Or.inl hx.1.1⟩
  | scanned u ids => exact ⟨hx.1.2, Or.inl hx.1.1⟩
  | cleared u => exact ⟨hx.1.2, Or.inl hx.1.1⟩
  | _ => exact hx

/-- A transition is not set back by a statement whose writes its phase covers,
among them no new grant. -/
theorem Holds.put {m : Phase} {takes : List Lock} {ws₀ ws : List Write} (h : Holds m w p)
    (hws₀ : w.tables.pending p = some ws₀) (hws : ∀ x ∈ ws, x.IsQuiet ∧ x.movesServers = false)
    (htables : w'.tables = w.tables.put Db.apply p takes ws) : Holds m w' p := by
  have hpending : w'.tables.pending p = some (ws₀ ++ ws) := by
    rw [htables]
    exact Store.put_pending_of_some hws₀
  have hdb : w'.db = w.db := by
    show w'.tables.committed = w.tables.committed
    rw [htables]
    exact Store.put_committed_of_some hws₀
  have hview : ∀ r ∈ (w'.view p).modPermissions.rows, r ∈ (w.view p).modPermissions.rows := by
    intro r hr
    unfold World.view at hr ⊢
    rw [htables, Store.view_put, mem_foldl fun x hx => (hws x hx).1.1.2] at hr
    exact hr.1
  have hcovers : ∀ x ∈ ws₀ ++ ws, m.Covers x := by
    intro x hx
    rcases List.mem_append.mp hx with hx | hx
    · exact h.writes hws₀ x hx
    · exact m.covers_quiet (hws x hx).1 (hws x hx).2
  refine ⟨fun hws' => ?_, fun _ => by rw [hpending]; rfl, fun hm => ?_, fun hm => ?_,
    fun {ws' row s} hws' hrow hs => ?_, fun hm r hr hu => h.scan hm r (hview r hr) hu,
    fun hm r hr => h.clear hm r (hview r hr)⟩
  · rw [hpending, Option.some.injEq] at hws'
    rw [← hws']
    exact hcovers
  · rw [htables]
    exact Store.put_owner_self (h.lock hm)
  · rw [hdb]
    exact h.role hm
  · rw [hpending, Option.some.injEq] at hws'
    rw [← hws', List.mem_append] at hrow
    rw [hdb]
    rcases hrow with hrow | hrow
    · exact h.server hws₀ hrow hs
    · cases (hws _ hrow).1.1.2

/-- What a transition learns from a quiet statement. -/
theorem Holds.learn {m : Phase} {α : Type} {s : Stmt α} {r : α} (h : Holds m w p)
    (h' : Holds m w' p) {ws₀ : List Write} (hws₀ : w.tables.pending p = some ws₀)
    (hasks : m.Asks s) (hs : s.IsQuiet) (hans : (plan w.clock e (w.view p) s).answer = .ok r)
    (htables : w'.tables = w.tables.put Db.apply p (plan w.clock e (w.view p) s).takes
      (plan w.clock e (w.view p) s).writes) : Holds (m.after s r) w' p := by
  -- the next phase covers the same writes under the same lock
  have hmore : ∀ {m' : Phase}, (∀ x, m.Covers x → m'.Covers x) →
      (m'.isInside = true → m.isInside = true) →
      (m'.isLocked = true → w'.tables.owner (.advisory lastAdminLockKey) = some p) →
      (∀ {u r}, m'.knows = some (u, r) → w'.db.roleOf u = some r) →
      (∀ {u ids}, m' = .scanned u ids → ∀ r ∈ (w'.view p).modPermissions.rows, r.userId = u →
        r.id ∈ ids) →
      (∀ {u}, m' = .cleared u → ∀ r ∈ (w'.view p).modPermissions.rows, r.userId ≠ u) →
      Holds m' w' p := fun hc hi hl hr hsc hcl =>
    ⟨fun hws x hx => hc x (h'.writes hws x hx), fun hm => h'.inside (hi hm), hl, hr, h'.server, hsc,
      hcl⟩
  have hview : (w'.view p).modPermissions.rows
      = ((plan w.clock e (w.view p) s).writes.foldl Db.apply (w.view p)).modPermissions.rows := by
    show (w'.tables.view Db.apply p).modPermissions.rows = _
    rw [htables, Store.view_put]
    rfl
  cases s with
  | advisoryLock key =>
      cases m with
      | opened =>
          show Holds (if key = lastAdminLockKey then .locked else .opened) w' p
          split
          next hkey =>
            refine hmore (fun _ hx => hx) (fun _ => rfl) (fun _ => ?_) nofun nofun nofun
            rw [htables, ← hkey]
            exact Store.put_owner_of_some hws₀ List.mem_cons_self
          next => exact h'
      | _ => exact h'
  | selectUser id =>
      cases m with
      | locked =>
          cases r with
          | none => exact h'
          | some u =>
              refine hmore (fun _ hx => hx) (fun _ => rfl) (fun _ => h'.lock rfl)
                (fun {v r} hk => ?_) nofun nofun
              -- nothing it has written so far sets a role
              have hkeep : w.db.roleOf id = some u.role := by
                have hget : (w.tables.view Db.apply p).users.get id = some u := Except.ok.inj hans
                have hroles : (w.tables.view Db.apply p).roleOf id = w.db.roleOf id := by
                  rw [Store.view_of_some hws₀]
                  exact foldl_roleOf (fun x hx => (h.writes hws₀ x hx).2) _ id
                rw [← hroles]
                unfold Db.roleOf
                rw [hget]
                rfl
              cases hk
              show w'.tables.committed.roleOf _ = _
              rw [htables, Store.put_committed_of_some hws₀]
              exact hkeep
      | _ => exact h'
  | updateUser id cond set =>
      -- a plain UPDATE sets no role
      have hnone : set.role.isSome = false := by
        have hsets := hs.1.1
        cases hrole : set.role.isSome with
        | false => rfl
        | true =>
            have hsome : (Stmt.updateUser id cond set).setsRole = some id := if_pos hrole
            rw [hsome] at hsets
            cases hsets
      cases m with
      | read u role =>
          cases r with
          | none => exact h'
          | some row =>
              show Holds (if set.role.isSome then .changed u else .read u role) w' p
              rw [hnone]
              exact h'
      | _ => exact h'
  | insertPermission u permission serverId => cases hs.1.2
  | scanPermissions cond =>
      cases m with
      | changed u =>
          refine hmore (fun _ hx => hx) (fun _ => rfl) (fun _ => h'.lock rfl) nofun
            (fun {v ids} hm r hr hu => ?_) nofun
          cases hm
          have hids := Except.ok.inj hans
          rw [← hids, List.mem_map]
          refine ⟨r, ?_, rfl⟩
          have hmem : r ∈ (w.view p).modPermissions.rows := by
            rw [hview] at hr
            exact hr
          rw [List.mem_filter, hasks u rfl]
          exact ⟨hmem, by simpa using hu⟩
      | _ => exact h'
  | deletePermissions ids =>
      cases m with
      | scanned u ids' =>
          refine hmore (fun _ hx => hx) (fun _ => rfl) (fun _ => h'.lock rfl) nofun nofun
            (fun {v} hm r hr hu => ?_)
          cases hm
          have hids : ids = ids' := hasks u ids' rfl
          -- every grant of the target was in the snapshot, and is deleted
          rw [hview] at hr
          have hdel := (mem_foldl (fun x hx => (plan_quiet hs hx).1.1.2) (w.view p) r).mp hr
          have hin := h.scan rfl r hdel.1 hu
          refine hdel.2 (.deletePermissions _) List.mem_cons_self ?_
          rw [List.mem_map]
          refine ⟨r, ?_, rfl⟩
          rw [List.mem_filter, hids]
          exact ⟨hdel.1, by simpa using hin⟩
      | _ => exact h'
  | _ => exact h'

/-- A statement of a transition that sets a role or adds a grant. -/
theorem Holds.put_loud {m m' : Phase} {takes : List Lock} {ws₀ ws : List Write} (h : Holds m w p)
    (hws₀ : w.tables.pending p = some ws₀)
    (htables : w'.tables = w.tables.put Db.apply p takes ws)
    (hold : ∀ x, m.Covers x → m'.Covers x) (hnew : ∀ x ∈ ws, m'.Covers x)
    (hlocked : m.isLocked = true) (hknows : ∀ {u r}, m'.knows = some (u, r) → m.knows = some (u, r))
    (hserver : ∀ row s, .insertPermission row ∈ ws → row.serverId = some s → s ∈ w.db.servers)
    (hscan : ∀ u ids, m' ≠ .scanned u ids) (hclear : ∀ u, m' ≠ .cleared u) : Holds m' w' p := by
  have hpending : w'.tables.pending p = some (ws₀ ++ ws) := by
    rw [htables]
    exact Store.put_pending_of_some hws₀
  have hdb : w'.db = w.db := by
    show w'.tables.committed = w.tables.committed
    rw [htables]
    exact Store.put_committed_of_some hws₀
  refine ⟨fun {ws'} hws' x hx => ?_, fun _ => by rw [hpending]; rfl, fun _ => ?_,
    fun hm => ?_, fun {ws' row s} hws' hrow hs => ?_, fun hm => absurd hm (hscan _ _),
    fun hm => absurd hm (hclear _)⟩
  · rw [hpending, Option.some.injEq] at hws'
    rw [← hws', List.mem_append] at hx
    rcases hx with hx | hx
    · exact hold x (h.writes hws₀ x hx)
    · exact hnew x hx
  · rw [htables]
    exact Store.put_owner_self (h.lock hlocked)
  · rw [hdb]
    exact h.role (hknows hm)
  · rw [hpending, Option.some.injEq] at hws'
    rw [← hws', List.mem_append] at hrow
    rw [hdb]
    rcases hrow with hrow | hrow
    · exact h.server hws₀ hrow hs
    · exact hserver row s hrow hs

/-- The servers a call sees are the committed ones. -/
theorem view_servers {m : Phase} (h : Holds m w p) : (w.view p).servers = w.db.servers := by
  show (w.tables.view Db.apply p).servers = w.tables.committed.servers
  cases hws : w.tables.pending p with
  | none => rw [Store.view_of_none hws]
  | some ws =>
      rw [Store.view_of_some hws]
      exact foldl_servers (fun x hx => (h.writes hws x hx).1) _

/-- A role is set. -/
theorem Holds.setRole {α : Type} {s : Stmt α} {b : Except Exn α} {u : UserId} {r : Role}
    {ws₀ : List Write} (h : Holds (.read u r) w p) (hws₀ : w.tables.pending p = some ws₀)
    (hsets : s.setsRole = some u) (hgrant : s.grantsTo = none)
    (hb : b = (plan w.clock e (w.view p) s).answer)
    (htables : w'.tables = w.tables.put Db.apply p (plan w.clock e (w.view p) s).takes
      (plan w.clock e (w.view p) s).writes) :
    Holds ((Phase.read u r).next (.query s) b) w' p := by
  cases s with
  | updateUser id cond set =>
      have hrole : set.role.isSome = true := by
        by_contra hnot
        have hnone : (Stmt.updateUser id cond set).setsRole = none := if_neg hnot
        rw [hnone] at hsets
        cases hsets
      rcases plan_updateUser e w.clock (w.view p) id cond set with ⟨row, hans⟩ | hnil
      · rw [hans] at hb
        subst hb
        show Holds (if set.role.isSome then .changed u else .read u r) w' p
        rw [if_pos hrole]
        refine h.put_loud hws₀ htables (fun x hx => ⟨hx.1, hx.2.1.2, Or.inl hx.2.1.1⟩)
          (fun x hx => ?_) rfl nofun (fun row s hrow => ?_) nofun nofun
        · obtain ⟨hrole', hgrant', hservers⟩ := plan_grants _ _ _ _ x hx
          exact ⟨hservers, hgrant'.trans hgrant, Or.inr (hrole'.trans hsets)⟩
        · have hadds := (plan_grants _ _ _ _ _ hrow).2.1
          cases hadds
      · -- no row was hit: nothing is written
        rw [hnil] at htables
        have hsame : Holds (.read u r) w' p :=
          h.put hws₀ (fun x hx => absurd hx List.not_mem_nil) htables
        cases b with
        | error err => exact hsame
        | ok row =>
            cases row with
            | none => exact hsame
            | some row =>
                have hwrites := plan_updateUser_writes hb.symm
                rw [hnil] at hwrites
                cases hwrites
  | _ => cases hsets

/-- A grant is added. -/
theorem Holds.addGrant {α : Type} {s : Stmt α} {b : Except Exn α} {u : UserId}
    {ws₀ : List Write} (h : Holds (.read u .mod) w p) (hws₀ : w.tables.pending p = some ws₀)
    (hgrant : s.grantsTo = some u) (hsets : s.setsRole = none)
    (hb : b = (plan w.clock e (w.view p) s).answer)
    (htables : w'.tables = w.tables.put Db.apply p (plan w.clock e (w.view p) s).takes
      (plan w.clock e (w.view p) s).writes) :
    Holds ((Phase.read u .mod).next (.query s) b) w' p := by
  cases s with
  | insertPermission u' permission serverId =>
      rcases plan_insertPermission e w.clock (w.view p) u' permission serverId with
        ⟨⟨row, hans⟩, hserver⟩ | hnil
      · rw [hans] at hb
        subst hb
        show Holds (.granted u) w' p
        refine h.put_loud hws₀ htables (fun x hx => ⟨hx.1, hx.2.1.1, Or.inl hx.2.1.2⟩)
          (fun x hx => ?_) rfl (fun hk => hk) (fun row s hrow hs => ?_) nofun nofun
        · obtain ⟨hrole', hgrant', hservers⟩ := plan_grants _ _ _ _ x hx
          exact ⟨hservers, hrole'.trans hsets, Or.inr (hgrant'.trans hgrant)⟩
        · rw [← view_servers h]
          refine hserver s ?_
          rw [← hs]
          exact (plan_insertPermission_server hrow).symm
      · rw [hnil] at htables
        have hsame : Holds (.read u .mod) w' p :=
          h.put hws₀ (fun x hx => absurd hx List.not_mem_nil) htables
        cases b with
        | error err => exact hsame
        | ok row =>
            cases row with
            | none => exact hsame
            | some row =>
                have hwrites := plan_insertPermission_writes hb.symm
                rw [hnil] at hwrites
                cases hwrites
  | _ => cases hgrant

/-- A statement of a transition. -/
theorem Kept.step_query {α : Type} {s : Stmt α} {b : Except Exn α} (h : Kept w o gs)
    (hin : (gs p).isInside = true) (ha : (gs p).allow (.query s))
    (hx : exec S p (.query s) e w = some (b, w')) :
    Kept w' (o.step w.db w'.db) (Function.update gs p ((gs p).next (.query s) b)) := by
  have hp := h.holds p
  have hstep := allowed_step ha hp hx
  obtain ⟨ws₀, hws₀⟩ := Option.isSome_iff_exists.mp (hp.inside hin)
  rcases exec_query hx with ⟨rfl, rfl⟩ | ⟨hb, -, -, hw⟩
  · exact h.still hstep rfl hp
  have htables : w'.tables = w.tables.put Db.apply p (plan w.clock e (w.view p) s).takes
      (plan w.clock e (w.view p) s).writes := by
    rw [hw]
  have hdb : w'.db = w.db := by
    show w'.tables.committed = w.tables.committed
    rw [htables]
    exact Store.put_committed_of_some hws₀
  refine h.still hstep hdb ?_
  rcases ha with ⟨hother, -⟩ | ⟨-, hasks, hquiet | ⟨u, r, hm, hsets, hgrant⟩ | ⟨u, hm, hgrant, hsets⟩⟩
  · rw [hother] at hin
    cases hin
  · have hsame : Holds (gs p) w' p := hp.put hws₀ (fun x hx => plan_quiet hquiet hx) htables
    cases b with
    | error err => exact hsame
    | ok r => exact hp.learn hsame hws₀ hasks hquiet hb.symm htables
  · rw [hm] at hp ⊢
    exact hp.setRole hws₀ hsets hgrant hb htables
  · rw [hm] at hp ⊢
    exact hp.addGrant hws₀ hgrant hsets hb htables

/-- A transition commits. -/
theorem Kept.step_commit (h : Kept w o gs) (hin : (gs p).isInside = true)
    (hmay : (gs p).mayCommit = true)
    (hstep : Store.Step Db.apply grantTouches (Act.May .commit) p w.tables w'.tables)
    (hw : w'.tables = w.tables.commit Db.apply p) :
    Kept w' (o.step w.db w'.db) (Function.update gs p .out) := by
  have hp := h.holds p
  obtain ⟨ws, hws⟩ := Option.isSome_iff_exists.mp (hp.inside hin)
  have heq : w'.db = ws.foldl Db.apply w.db := by
    show w'.tables.committed = ws.foldl Db.apply w.tables.committed
    rw [hw, Store.commit_committed, Store.view_of_some hws]
  have hview : w'.db = w.view p := by
    show w'.tables.committed = w.tables.view Db.apply p
    rw [hw, Store.commit_committed]
  have hservers : w'.db.servers = w.db.servers := by
    rw [heq]
    exact foldl_servers (fun x hx => (hp.writes hws x hx).1) _
  have hout : Holds .out w' p := by
    refine Holds.outside rfl ?_
    rw [hw]
    exact Store.commit_pending_self
  -- roles of users other than the target stay; grants are old, or the target's
  have hquiet : (∀ x ∈ ws, x.IsPlain ∧ x.movesServers = false) →
      Kept w' (o.step w.db w'.db) (Function.update gs p .out) := by
    intro hplain
    obtain ⟨hservers, hrows⟩ := h.plain_rows heq hplain
    exact h.move hstep hservers hrows hout
  cases hm : gs p with
  | other =>
      rw [hm] at hin
      cases hin
  | out =>
      rw [hm] at hin
      cases hin
  | changed u =>
      rw [hm] at hmay
      cases hmay
  | scanned u ids =>
      rw [hm] at hmay
      cases hmay
  | opened =>
      rw [hm] at hp
      exact hquiet fun x hx => ⟨(hp.writes hws x hx).2.1, (hp.writes hws x hx).1⟩
  | locked =>
      rw [hm] at hp
      exact hquiet fun x hx => ⟨(hp.writes hws x hx).2.1, (hp.writes hws x hx).1⟩
  | read u r =>
      rw [hm] at hp
      exact hquiet fun x hx => ⟨(hp.writes hws x hx).2.1, (hp.writes hws x hx).1⟩
  | granted u =>
      rw [hm] at hp
      have hkept : RoleKept none w.db w'.db := by
        rw [heq]
        exact RoleKept.foldl ws (fun x hx => Or.inl (hp.writes hws x hx).2.1) _
      refine h.move hstep hservers (fun r hr => ?_) hout
      rw [heq] at hr
      rcases mem_foldl_or hr with hold | hnew
      · have hright := h.rows r hold
        refine ⟨hright.role, hkept _ _ nofun hright.role, fun s hs => ?_⟩
        rw [hservers]
        exact hright.server s hs
      · -- the new grant is the target's, who is a moderator
        have huser : r.userId = u := by
          rcases (hp.writes hws _ hnew).2.2 with hnone | hsome
          · cases hnone
          · exact Option.some.inj hsome
        have hrole : w.db.roleOf u = some .mod := hp.role rfl
        rw [huser]
        refine ⟨hrole, hkept _ _ nofun hrole, fun s hs => ?_⟩
        rw [hservers]
        exact hp.server hws hnew hs
  | cleared u =>
      rw [hm] at hp
      have hkept : RoleKept (some u) w.db w'.db := by
        rw [heq]
        exact RoleKept.foldl ws (fun x hx => (hp.writes hws x hx).2.2) _
      refine h.move hstep hservers (fun r hr => ?_) hout
      -- no grant of the target is left
      have hne : r.userId ≠ u := by
        rw [hview] at hr
        exact hp.clear rfl r hr
      rw [heq, mem_foldl fun x hx => (hp.writes hws x hx).2.1] at hr
      have hright := h.rows r hr.1
      refine ⟨hright.role, hkept _ _ (fun heq => hne (Option.some.inj heq)) hright.role,
        fun s hs => ?_⟩
      rw [hservers]
      exact hright.server s hs

/-- **One step.** -/
theorem Kept.step {β : Type} {a : Act β} {b : β} (h : Kept w o gs) (ha : (gs p).allow a)
    (hx : exec S p a e w = some (b, w')) :
    Kept w' (o.step w.db w'.db) (Function.update gs p ((gs p).next a b)) := by
  by_cases hother : gs p = .other
  · have hnext : (gs p).next a b = .other := by
      rw [hother]
      exact Phase.next_other a b
    rw [hnext]
    exact h.step_other hother ha hx
  have hstep := allowed_step ha (h.holds p) hx
  have hdone : ∀ {w' : World} {may : Write → Prop}, w'.tables = w.tables.rollback p →
      Store.Step Db.apply grantTouches may p w.tables w'.tables → (gs p).isInside = true →
      Kept w' (o.step w.db w'.db) (Function.update gs p .out) := by
    intro w' may hw hstep hin
    refine h.still hstep ?_ (Holds.outside rfl ?_)
    · show w'.tables.committed = w.tables.committed
      rw [hw]
      rfl
    · rw [hw]
      exact Store.rollback_pending_self
  have hinside : (gs p).mayCommit = true → (gs p).isInside = true := by
    intro hmay
    cases hm : gs p with
    | other => exact absurd hm hother
    | out =>
        rw [hm] at hmay
        cases hmay
    | _ => rfl
  cases a with
  | query s =>
      refine h.step_query ?_ ha hx
      rcases ha with ⟨hc, -⟩ | ⟨hin, -⟩
      · exact absurd hc hother
      · exact hin
  | begin =>
      have hout : gs p = .out := ha.resolve_left hother
      rcases exec_begin hx with ⟨rfl, rfl⟩ | ⟨rfl, -, rfl⟩
      · rw [hout]
        have hp := h.holds p
        rw [hout] at hp
        exact h.still hstep rfl hp
      · rw [hout]
        show Kept _ _ (Function.update gs p .opened)
        refine h.still hstep rfl ⟨fun {ws} hws x hmem => ?_, fun _ => ?_, nofun, nofun,
          fun {ws row s} hws hmem => ?_, nofun, nofun⟩
        · rw [Store.begin_pending_self, Option.some.injEq] at hws
          rw [← hws] at hmem
          exact absurd hmem List.not_mem_nil
        · show ((w.tables.begin p).pending p).isSome = true
          rw [Store.begin_pending_self]
          rfl
        · rw [Store.begin_pending_self, Option.some.injEq] at hws
          rw [← hws] at hmem
          exact absurd hmem List.not_mem_nil
  | commit =>
      have hin := hinside ha
      have hout : (gs p).next .commit b = .out := if_pos hin
      rw [hout]
      rcases exec_commit hx with ⟨-, hw⟩ | ⟨-, hw⟩
      · exact hdone (by rw [hw]) hstep hin
      · exact h.step_commit hin ha hstep (by rw [hw])
  | rollback =>
      have hin : (gs p).isInside = true := ha.resolve_left hother
      have hout : (gs p).next .rollback b = .out := if_pos hin
      rw [hout]
      exact hdone (by rw [exec_rollback hx]) hstep hin
  | _ =>
      have htables := exec_silent (by rfl) hx
      have hdb : w'.db = w.db := by
        unfold World.db
        rw [htables]
      refine h.still hstep hdb ((h.holds p).transfer (by rw [htables]) (fun hk => ?_)
        fun _ _ _ hs => ?_)
      · rw [htables, hdb]
        exact ⟨hk, grant_protects.refl _⟩
      · rw [hdb]
        exact hs

end Steps

/-! ## §6. Runs. -/

/-- A new call. -/
theorem Kept.invoke {w : World} {o : Diary} {gs : Pid → Phase} {p : Pid} (op : Op)
    (h : Kept w o gs) (hp : gs p = .other) :
    Kept w o (Function.update gs p (start op)) := by
  refine ⟨h.sound, fun q => ?_, h.rows, h.past⟩
  by_cases hq : q = p
  · subst hq
    rw [Function.update_self]
    have hold := h.holds q
    rw [hp] at hold
    unfold start
    split
    next => exact ⟨hold.writes, nofun, nofun, nofun, hold.server, nofun, nofun⟩
    next => exact hold
  · rw [Function.update_of_ne hq]
    exact h.holds q

/-- A server comes or goes: its grants go with it, and it stays while a grant
for it is pending. -/
theorem Kept.ambient {w w' : World} {o : Diary} {gs : Pid → Phase} {e : Env}
    (h : Kept w o gs) (hx : Accounts.ambient e w = some w') : Kept w' o gs := by
  have hframe := ambient_frame hx
  obtain ⟨hpending, howner, husers, -, -, -, -⟩ := hframe
  have hrole : ∀ u, w'.db.roleOf u = w.db.roleOf u := by
    intro u
    unfold Db.roleOf
    rw [husers]
  -- what goes is a server nobody holds, with its grants
  have hgone : (∀ r ∈ w'.db.modPermissions.rows, r ∈ w.db.modPermissions.rows) ∧
      (∀ s ∈ w.db.servers, (w.tables.owner (.server s)).isSome = true → s ∈ w'.db.servers) ∧
      ∀ r ∈ w'.db.modPermissions.rows, ∀ s, r.serverId = some s → s ∈ w.db.servers →
        s ∈ w'.db.servers := by
    unfold Accounts.ambient at hx
    split at hx
    next now _ =>
      split at hx
      next =>
        cases hx
        exact ⟨fun _ hr => hr, fun _ hs _ => hs, fun _ _ _ _ hs => hs⟩
      next => cases hx
    next id _ =>
      cases hx
      exact ⟨fun _ hr => hr, fun _ hs _ => List.mem_cons_of_mem _ hs,
        fun _ _ _ _ hs => List.mem_cons_of_mem _ hs⟩
    next id _ =>
      split at hx
      next => cases hx
      next hfree =>
        cases hx
        refine ⟨fun r hr => (List.mem_filter.mp hr).1, fun s hs howned => ?_,
          fun r hr s hsid hs => ?_⟩
        · refine List.mem_filter.mpr ⟨hs, ?_⟩
          simp only [decide_eq_true_eq]
          rintro rfl
          exact hfree howned
        · refine List.mem_filter.mpr ⟨hs, ?_⟩
          have hkept := (List.mem_filter.mp hr).2
          simp only [decide_eq_true_eq]
          rintro rfl
          simp [hsid] at hkept
  obtain ⟨hrows, hheld, hserver⟩ := hgone
  have hfixed : Fixed w.db w'.db :=
    ⟨RoleKept.of_users husers, hrows⟩
  refine ⟨fun q ws x k hws hxw hk => ?_, fun q => ?_, fun r hr => ?_, h.past⟩
  · rw [hpending] at hws
    rw [howner]
    exact h.sound q ws x k hws hxw hk
  · refine (h.holds q).transfer (by rw [hpending]) (fun hk => ?_) fun {ws row s} hws hrow hs hmem => ?_
    · rw [howner]
      exact ⟨hk, hfixed⟩
    · -- the pending grant holds its server
      have hlock : w.tables.owner (.server s) = some q :=
        h.sound q ws (.insertPermission row) (.server s) hws hrow (Or.inl ⟨s, hs, rfl⟩)
      exact hheld s hmem (by rw [hlock]; rfl)
  · have hright := h.rows r (hrows r hr)
    refine ⟨(hrole _).trans hright.role, fun s hs => ?_, hright.since⟩
    exact hserver r hr s hs (hright.server s hs)

/-- The process dies. -/
theorem Kept.reboot {w w' : World} {o : Diary} {gs : Pid → Phase} {e : Env} {alive : Pid → Bool}
    (h : Kept w o gs) (hx : Accounts.reboot e w = some w')
    (hended : ∀ p, alive p = true → (gs p).isInside = false) :
    Kept w' o fun p => if alive p then gs p else .other := by
  cases hx
  refine ⟨Store.Sound.crash _, fun q => ?_, fun r hr => ?_, h.past⟩
  · split
    next hq => exact Holds.outside (hended q hq) rfl
    next => exact Holds.outside rfl rfl
  · have hright := h.rows r hr
    exact ⟨hright.role, hright.server, hright.since⟩

/-- The invariant in every run. -/
theorem kept_run {S : Settings} {w₀ : World} (hquiet : w₀.tables = Store.quiet w₀.db)
    (hempty : w₀.db.modPermissions.rows = []) {c : Conf} {o : Diary}
    (h : (system S).Reach diary (Config.init w₀) Diary.blank c o) : ∃ gs, Kept c.world o gs := by
  have hrun : ∃ gs, Kept c.world o gs ∧
      System.Tracks (fun _ => monitor) .other (fun _ _ => Ended) (fun _ _ => Ended) c gs := by
    refine System.Reach.sound (M := fun _ => monitor) start Kept ?_ ?_ ?_ ?_ ?_ ?_ h
    · intro o w p op _
      exact body_keeps S op
    · intro w o gs p op hI hp _
      exact hI.invoke op hp
    · intro w o gs p op β a e b w' hI ha _ hx
      exact ⟨_, rfl, hI.step ha hx⟩
    · intro w o gs e w' hI hx
      exact hI.ambient hx
    · intro w o gs e w' alive hI hx hended _
      refine hI.reboot (e := e) hx fun p hp => ?_
      obtain ⟨op, ⟨r, hr⟩ | ⟨err, herr⟩⟩ := hended p hp
      · exact hr
      · exact herr
    · refine ⟨?_, fun q => Holds.outside rfl ?_, fun r hr => ?_, fun _ => le_rfl⟩
      · rw [hquiet]
        exact Store.Sound.quiet _
      · rw [hquiet]
        rfl
      · rw [hempty] at hr
        exact absurd hr List.not_mem_nil
  obtain ⟨gs, hI, -⟩ := hrun
  exact ⟨gs, hI⟩

/-- **Grants belong to moderators.**  In every run from tables without grants:
a grant belongs to a user who is a moderator now, it is global or of a server
that exists, it is the only one of its user, permission and server, and it was
committed after the last change of its user's role. -/
theorem grants_belong_to_mods (S : Settings) (w₀ : World)
    (hquiet : w₀.tables = Store.quiet w₀.db) (hempty : w₀.db.modPermissions.rows = []) (c : Conf)
    (o : Diary) (h : (system S).Reach diary (Config.init w₀) Diary.blank c o) :
    ∀ r ∈ c.world.db.modPermissions.rows,
      (∃ u, c.world.db.users.get r.userId = some u ∧ u.role = .mod) ∧
      (∀ s, r.serverId = some s → s ∈ c.world.db.servers) ∧
      (∀ r' ∈ c.world.db.modPermissions.rows, r'.userId = r.userId →
        r'.permission = r.permission → r'.serverId = r.serverId → r' = r) ∧
      o.changedAt r.userId < o.madeAt r.grant := by
  obtain ⟨gs, hI⟩ := kept_run hquiet hempty h
  intro r hr
  obtain ⟨hrole, hserver, hsince⟩ := hI.rows r hr
  refine ⟨Option.map_eq_some_iff.mp hrole, hserver, fun r' hr' huser hperm hsid => ?_, hsince⟩
  have hgrant : r'.grant = r.grant := by
    unfold ModPermissionRow.grant
    rw [huser, hperm, hsid]
  exact List.inj_on_of_nodup_map c.world.db.modPermissions.nodup hr' hr hgrant

/-- Steve becomes a moderator with a grant for server 9, is demoted, promoted
again, and gets a global grant. -/
def promotions : List (Event Env Op) :=
  ([.ambient { ambient := .insertServer 9 }, .invoke 0 (.updateRole 3 .mod)] : List (Event Env Op))
    ++ (List.replicate 7 (.step 0 {}) : List (Event Env Op))
    ++ ([.invoke 1 (.grantModPermission 3 .serverLifecycle (some (.trimmed 9)))] :
      List (Event Env Op))
    ++ (List.replicate 6 (.step 1 { uuid := 1 }) : List (Event Env Op))
    ++ ([.invoke 2 (.updateRole 3 .user)] : List (Event Env Op))
    ++ (List.replicate 7 (.step 2 {}) : List (Event Env Op))
    ++ ([.invoke 3 (.updateRole 3 .mod)] : List (Event Env Op))
    ++ (List.replicate 7 (.step 3 {}) : List (Event Env Op))
    ++ ([.invoke 4 (.grantModPermission 3 .fileManager none)] : List (Event Env Op))
    ++ (List.replicate 5 (.step 4 { uuid := 2 }) : List (Event Env Op))

/-- Only the grant made after the second promotion is there. -/
theorem promotions_one_grant :
    ∃ c o, (system sampleSettings).Reach diary (Config.init sampleWorld) Diary.blank c o ∧
      c.world.db.modPermissions.rows = [⟨2, 3, .fileManager, none, 1700000000000⟩] ∧
      o.changedAt 3 < o.madeAt (3, .fileManager, none) := by
  obtain ⟨c, o, h, ht⟩ := System.Reach.of_replay (S := system sampleSettings) (V := diary)
    sampleWorld Diary.blank promotions
    (fun c _ => c.world.db.modPermissions.rows == [⟨2, 3, .fileManager, none, 1700000000000⟩])
    (by decide +kernel)
  rw [beq_iff_eq] at ht
  have hright := grants_belong_to_mods sampleSettings sampleWorld rfl rfl c o h
    ⟨2, 3, .fileManager, none, 1700000000000⟩ (by rw [ht]; exact List.mem_cons_self)
  exact ⟨c, o, h, ht, hright.2.2.2⟩

end Grants

end MinePanel.Accounts
