/-
  MinePanel.Admin.LastAdmin
  ─────────────────────────
  **AT LEAST ONE ACTIVE ADMINISTRATOR, ALWAYS.**

  Only `updateStatus` and `updateRole` can change a role or a status, and they
  do it holding one advisory lock from before they read their target until
  they commit.  So between the count of active administrators and the commit
  nobody else's standing moves: another active administrator that was there is
  still there when the target loses its place.

  The property is proved in every interleaving of every account operation, with
  statement failures and process deaths anywhere.
-/
import MinePanel.Accounts.Steps

namespace MinePanel.Accounts

open MinePanel.Db MinePanel.Lib Prog

/-! ## §1. Writes that move a standing. -/

/-- The user whose role or status a write sets. -/
def Write.standingOf (x : Write) : Option UserId :=
  if Power.standing ∈ x.powers then x.updates else none

/-- The user whose role or status a statement sets. -/
def Stmt.standingOf {α : Type} (s : Stmt α) : Option UserId :=
  if Power.standing ∈ s.powers then s.updates else none

/-- What is counted is active administrators. -/
def Stmt.CountsAdmins : ∀ {α : Type}, Stmt α → Prop
  | _, .countUsers cond => cond = isActiveAdmin
  | _, _ => True

/-- The advisory lock protects every standing. -/
def standingTouches (x : Write) (k : Lock) : Prop :=
  k = .advisory lastAdminLockKey ∧ x.standingOf ≠ none

/-- Every user but the excepted keeps its role and status. -/
def StandsBut (exempt : Option UserId) (d d' : Db) : Prop :=
  ∀ (id : UserId) (u : User), some id ≠ exempt → d.users.get id = some u →
    ∃ u', d'.users.get id = some u' ∧ u'.role = u.role ∧ u'.status = u.status

theorem standing_mem {set : UserPatch} :
    Power.standing ∈ set.powers ↔ set.role.isSome = true ∨ set.status.isSome = true := by
  unfold UserPatch.powers
  simp only [List.mem_append]
  repeat' split
  all_goals simp_all

/-- A step's write moves no standing but the one its statement names. -/
theorem standingOf_may {α : Type} {s : Stmt α} {x : Write} (h : (Act.query s).May x) :
    x.standingOf = none ∨ x.standingOf = s.standingOf := by
  unfold Write.standingOf Stmt.standingOf
  by_cases hx : Power.standing ∈ x.powers
  · have hs : Power.standing ∈ s.powers := h.1 hx
    rw [if_pos hx, if_pos hs]
    exact Or.inr h.2
  · rw [if_neg hx]
    exact Or.inl rfl

/-- Only `updateUser` has the power over standings. -/
theorem standingOf_eq_none {x : Write} (h : x.updates = none) : x.standingOf = none := by
  unfold Write.standingOf
  rw [h]
  exact ite_self _

/-- A patch of another user, or one that sets neither role nor status. -/
theorem patchUser_stands {id : UserId} {set : UserPatch} {now : Timestamp} {u : User}
    (h : Power.standing ∈ set.powers → u.id ≠ id) :
    (patchUser id set now u).role = u.role ∧ (patchUser id set now u).status = u.status := by
  unfold patchUser
  split
  next hid =>
    have hnot : ¬ (set.role.isSome = true ∨ set.status.isSome = true) := by
      rw [← standing_mem]
      exact fun hmem => h hmem hid
    rw [not_or, Option.not_isSome_iff_eq_none, Option.not_isSome_iff_eq_none] at hnot
    unfold UserPatch.apply
    rw [hnot.1, hnot.2]
    exact ⟨rfl, rfl⟩
  next => exact ⟨rfl, rfl⟩

theorem StandsBut.refl {exempt : Option UserId} (d : Db) : StandsBut exempt d d :=
  fun _ u _ hu => ⟨u, hu, rfl, rfl⟩

theorem StandsBut.trans {exempt : Option UserId} {d d' d'' : Db} (h : StandsBut exempt d d')
    (h' : StandsBut exempt d' d'') : StandsBut exempt d d'' := by
  intro id u hid hu
  obtain ⟨u', hu', hrole, hstatus⟩ := h id u hid hu
  obtain ⟨u'', hu'', hrole', hstatus'⟩ := h' id u' hid hu'
  exact ⟨u'', hu'', hrole'.trans hrole, hstatus'.trans hstatus⟩

theorem StandsBut.of_users_eq {exempt : Option UserId} {d d' : Db} (h : d'.users = d.users) :
    StandsBut exempt d d' := by
  intro id u _ hu
  exact ⟨u, by rw [h]; exact hu, rfl, rfl⟩

/-- A write moves only the standing it names. -/
theorem StandsBut.apply {exempt : Option UserId} (d : Db) (x : Write)
    (h : x.standingOf = none ∨ x.standingOf = exempt) : StandsBut exempt d (d.apply x) := by
  cases x with
  | insertUser row =>
      intro id u _ hu
      refine ⟨u, ?_, rfl, rfl⟩
      show ((d.users.insert row).getD d.users).get id = some u
      cases hins : d.users.insert row with
      | none => exact hu
      | some users =>
          -- the key was free, so it is not the key of `u`
          have hne : row.id ≠ id := by
            intro heq
            rw [← heq, (Table.insert_rows hins).2] at hu
            cases hu
          rw [Option.getD_some, Table.get_insert hins, if_neg hne]
          exact hu
  | updateUser id' set now =>
      intro id u hid hu
      have hkey : u.id = id := Table.get_key hu
      have hstands : Power.standing ∈ set.powers → u.id ≠ id' := by
        intro hmem heq
        have hof : (Write.updateUser id' set now).standingOf = some id' := if_pos hmem
        rw [hof] at h
        rcases h with hnone | hexempt
        · cases hnone
        · exact hid (by rw [← hexempt, ← hkey, heq])
      refine ⟨patchUser id' set now u, ?_, patchUser_stands hstands⟩
      show (d.users.modify (patchUser id' set now) (patchUser_id id' set now)).get id = _
      rw [Table.get_modify, hu]
      rfl
  | _ => exact StandsBut.of_users_eq rfl

theorem StandsBut.foldl {exempt : Option UserId} (ws : List Write)
    (h : ∀ x ∈ ws, x.standingOf = none ∨ x.standingOf = exempt) (d : Db) :
    StandsBut exempt d (ws.foldl Db.apply d) := by
  have hprotects : Store.Protects Db.apply
      (fun x (_ : Unit) => ¬ (x.standingOf = none ∨ x.standingOf = exempt)) () (StandsBut exempt) :=
    ⟨StandsBut.refl, StandsBut.trans, fun d x hx => StandsBut.apply d x (not_not.mp hx)⟩
  exact hprotects.foldl ws (fun x hx hnot => hnot (h x hx)) d

/-- What the advisory lock protects. -/
theorem standing_protects :
    Store.Protects Db.apply standingTouches (.advisory lastAdminLockKey) (StandsBut none) :=
  ⟨StandsBut.refl, StandsBut.trans, fun d x hx =>
    StandsBut.apply d x (Or.inl (not_not.mp fun hne => hx ⟨rfl, hne⟩))⟩

/-- An active administrator other than `exempt`. -/
def HasAdmin (exempt : Option UserId) (d : Db) : Prop :=
  ∃ id u, some id ≠ exempt ∧ d.users.get id = some u ∧ isActiveAdmin u = true

theorem HasAdmin.stands {exempt : Option UserId} {d d' : Db} (h : HasAdmin exempt d)
    (hs : StandsBut exempt d d') : HasAdmin exempt d' := by
  obtain ⟨id, u, hid, hu, hadmin⟩ := h
  obtain ⟨u', hu', hrole, hstatus⟩ := hs id u hid hu
  refine ⟨id, u', hid, hu', ?_⟩
  unfold isActiveAdmin at hadmin ⊢
  rw [hrole, hstatus]
  exact hadmin

theorem HasAdmin.weaken {exempt : Option UserId} {d : Db} (h : HasAdmin exempt d) :
    HasAdmin none d := by
  obtain ⟨id, u, -, hu, hadmin⟩ := h
  exact ⟨id, u, nofun, hu, hadmin⟩

theorem hasAdmin_iff {d : Db} :
    HasAdmin none d ↔ ∃ u ∈ d.users.rows, isActiveAdmin u = true := by
  constructor
  · rintro ⟨id, u, -, hu, hadmin⟩
    exact ⟨u, (Table.get_eq_some.mp hu).1, hadmin⟩
  · rintro ⟨u, hu, hadmin⟩
    exact ⟨u.id, u, nofun, Table.mem_rows.mp hu, hadmin⟩

namespace LastAdmin

/-! ## §2. The monitor. -/

/-- How far a guarded transition has come. -/
inductive Phase where
  /-- A call of another operation. -/
  | other
  /-- Before the transaction, or after its rollback. -/
  | out
  | opened
  | locked
  /-- The target was read as an active administrator. -/
  | read (id : UserId)
  /-- There is an active administrator other than the target. -/
  | safe (id : UserId)
  /-- Committed. -/
  | done
  deriving DecidableEq

namespace Phase

/-- The target, once another administrator is safe. -/
def exempt : Phase → Option UserId
  | .safe id => some id
  | _ => none

/-- Holding the advisory lock. -/
def isLocked : Phase → Bool
  | .locked | .read _ | .safe _ => true
  | _ => false

/-- What a call may write: nothing to `users` before it is safe, then only the
standing of its target. -/
def Covers (m : Phase) (x : Write) : Prop :=
  match m with
  | .safe id => x.standingOf = none ∨ x.standingOf = some id
  | .opened | .locked | .read _ => x.updates = none ∧ Power.account ∉ x.powers
  | _ => x.standingOf = none

/-- Inside the transaction. -/
def isInside : Phase → Bool
  | .opened | .locked | .read _ | .safe _ => true
  | _ => false

/-- What a call may do next: a standing is moved only where another
administrator is safe. -/
def allow (m : Phase) : ∀ {β : Type}, Act β → Prop
  | _, .query s =>
      (m = .other ∧ s.standingOf = none) ∨
      (m.isInside = true ∧ s.CountsAdmins ∧
        (s.updates = none ∧ Power.account ∉ s.powers ∨
          ∃ id, m = .safe id ∧ (s.standingOf = none ∨ s.standingOf = some id)))
  | _, .begin => m = .other ∨ m = .out
  | _, .commit => m = .other ∨ m.isInside = true
  | _, .rollback => m = .other ∨ m.isInside = true
  | _, _ => True

/-- What a statement teaches. -/
def after (m : Phase) : ∀ {α : Type}, Stmt α → α → Phase
  | _, .advisoryLock key, _ =>
      match m with
      | .opened => if key = lastAdminLockKey then .locked else .opened
      | m => m
  | _, .selectUser id, r =>
      match m, r with
      | .locked, some u => if isActiveAdmin u then .read id else .safe id
      | m, _ => m
  | _, .countUsers _, n =>
      match m with
      | .read id => if 2 ≤ n then .safe id else .read id
      | m => m
  | _, _, _ => m

/-- The phase after a step. -/
def next (m : Phase) : ∀ {β : Type}, Act β → β → Phase → Prop
  | _, .query s, b, m' =>
      match b with
      | .ok r => m' = m.after s r
      | .error _ => m' = m
  | _, .begin, b, m' =>
      match b with
      | .ok _ => m' = if m = .other then .other else .opened
      | .error _ => m' = m
  | _, .commit, b, m' =>
      match b with
      | .ok _ => m' = if m = .other then .other else .done
      | .error _ => m' = if m = .other then .other else .out
  | _, .rollback, _, m' => m' = if m = .other then .other else .out
  | _, _, _, m' => m' = m

/-- A call of another operation stays what it is. -/
theorem after_other {α : Type} (s : Stmt α) (r : α) : after .other s r = .other := by
  cases s <;> rfl

theorem next_other {β : Type} (a : Act β) (b : β) : next .other a b .other := by
  cases a with
  | query s =>
      cases b with
      | ok r => exact (after_other s r).symm
      | error e => rfl
  | begin => cases b <;> rfl
  | commit => cases b <;> rfl
  | _ => rfl

end Phase

/-- The monitor of every operation. -/
def monitor : Monitor Act Phase where
  allow := fun m a => m.allow a
  next := fun m a b m' => m.next a b m'

/-! ## §3. Every operation follows the monitor. -/

/-- Where a call starts. -/
def start (op : Op) : Phase := if op.isTransition then .out else .other

/-- A call that has returned has left its transaction. -/
def Returned (_ : Reply) (m : Phase) : Prop := m.isInside = false

/-- A transition that has thrown has not committed. -/
def Thrown (op : Op) (_ : Exn) (m : Phase) : Prop := m = start op

theorem start_cases (op : Op) : start op = .out ∨ start op = .other := by
  unfold start
  split
  next => exact Or.inl rfl
  next => exact Or.inr rfl

section Calls

variable {α : Type} {Q : α → Phase → Prop} {E : Exn → Phase → Prop} {m : Phase}

/-- A statement that leaves `users` alone, inside the transaction. -/
theorem wp_inside {s : Stmt α} (hm : m.isInside = true) (hu : s.updates = none)
    (ha : Power.account ∉ s.powers) (hcount : s.CountsAdmins) (hE : ∀ e, E e m)
    (hQ : ∀ r, Q r (m.after s r)) : wp monitor Q E (query s) m := by
  refine wp_query (Or.inr ⟨hm, hcount, Or.inl ⟨hu, ha⟩⟩) (fun r m' h => ?_) fun e m' h => ?_
  · have h : m' = m.after s r := h
    rw [h]
    exact hQ r
  · have h : m' = m := h
    rw [h]
    exact hE e

/-- What a phase inside the transaction turns into, and back. -/
theorem wp_guardedTransaction {p : Call α} {op : Op} {Q : α → Phase → Prop}
    (hop : op.isTransition = true)
    (hp : wp monitor (fun _ m => m.isInside = true) (fun _ m => m.isInside = true) p .opened)
    (hQ : ∀ r, Q r .done) : wp monitor Q (Thrown op) (transaction p) (start op) := by
  have hstart : start op = .out := by
    unfold start
    rw [if_pos hop]
  have hne : ∀ {m : Phase}, m.isInside = true → m ≠ .other := by
    intro m hm heq
    rw [heq] at hm
    cases hm
  unfold Thrown
  rw [hstart]
  refine wp_transaction (R := fun _ m => m.isInside = true) (F := fun _ m => m.isInside = true)
    (Or.inr rfl) (fun e m' h => h) (fun m' h => ?_) (fun r m hm => ?_)
    (fun e m hm => ?_)
  · have h : m' = .opened := h
    rw [h]
    exact hp
  · refine ⟨Or.inr hm, fun m'' h => ?_, fun e m'' h => ?_⟩
    · have h : m'' = if m = .other then .other else .done := h
      rw [h, if_neg (hne hm)]
      exact hQ r
    · have h : m'' = if m = .other then .other else .out := h
      rw [h, if_neg (hne hm)]
  · refine ⟨Or.inr hm, fun m'' h => ?_⟩
    have h : m'' = if m = .other then .other else .out := h
    rw [h, if_neg (hne hm)]

/-- `lockedTarget`: afterwards the target is known under the lock. -/
theorem lockedTarget_keeps {userId : UserId} {Q : User → Phase → Prop}
    (hQ : ∀ u : User, Q u (if isActiveAdmin u then .read userId else .safe userId)) :
    wp monitor Q (fun _ m => m.isInside = true) (lockedTarget userId) .opened := by
  unfold lockedTarget
  refine wp_seq (wp_inside rfl rfl (by simp [Stmt.powers]) trivial (fun _ => rfl) fun _ => ?_)
  show wp monitor Q _ _ Phase.locked
  refine wp_seq (wp_inside rfl rfl (by simp [Stmt.powers]) trivial (fun _ => rfl) fun target => ?_)
  cases target with
  | none => exact (rfl : Phase.locked.isInside = true)
  | some u => exact hQ u

/-- `assertActiveAdminsRemain` of a target that is an active administrator. -/
theorem assertActiveAdminsRemain_keeps {id : UserId} {Q : Unit → Phase → Prop}
    (hQ : Q () (.safe id)) :
    wp monitor Q (fun _ m => m.isInside = true) assertActiveAdminsRemain (.read id) := by
  unfold assertActiveAdminsRemain
  refine wp_seq (wp_inside rfl rfl (by simp [Stmt.powers]) rfl (fun _ => rfl) fun n => ?_)
  show wp monitor Q _ (if n ≤ 1 then _ else _) (if 2 ≤ n then Phase.safe id else .read id)
  by_cases hn : n ≤ 1
  · rw [if_pos hn, if_neg (by omega)]
    rfl
  · rw [if_neg hn, if_pos (by omega)]
    exact hQ

/-- What is safe stays safe under every statement. -/
theorem after_safe {id : UserId} (s : Stmt α) (r : α) :
    (Phase.safe id).after s r = .safe id := by
  cases s <;> rfl

/-- A statement in the safe phase. -/
theorem wp_safe {id : UserId} {s : Stmt α} (hs : s.standingOf = none ∨ s.standingOf = some id)
    (hcount : s.CountsAdmins) (hQ : ∀ r, Q r (.safe id)) :
    wp monitor Q (fun _ m => m.isInside = true) (query s) (.safe id) := by
  refine wp_query (Or.inr ⟨rfl, hcount, Or.inr ⟨id, rfl, hs⟩⟩) (fun r m' h => ?_) fun e m' h => ?_
  · have h : m' = (Phase.safe id).after s r := h
    rw [h, after_safe]
    exact hQ r
  · have h : m' = .safe id := h
    rw [h]
    rfl

/-- No statement leaves the transaction. -/
theorem after_isInside (hm : m.isInside = true) (s : Stmt α) (r : α) :
    (m.after s r).isInside = true := by
  have hif : ∀ {c : Prop} [Decidable c] {m m' : Phase}, m.isInside = true → m'.isInside = true →
      (if c then m else m').isInside = true := by
    intro c _ m m' hm hm'
    split
    next => exact hm
    next => exact hm'
  cases s with
  | advisoryLock key =>
      cases m with
      | opened => exact hif rfl rfl
      | _ => exact hm
  | selectUser id =>
      cases m with
      | locked =>
          cases r with
          | none => exact hm
          | some u => exact hif rfl rfl
      | _ => exact hm
  | countUsers cond =>
      cases m with
      | read id => exact hif rfl rfl
      | _ => exact hm
  | _ => exact hm

/-- A statement of a transaction that leaves `users` alone. -/
theorem wp_stays {s : Stmt α} (hm : m.isInside = true) (hu : s.updates = none)
    (ha : Power.account ∉ s.powers) (hcount : s.CountsAdmins)
    (hQ : ∀ r m', m'.isInside = true → Q r m') :
    wp monitor Q (fun _ m => m.isInside = true) (query s) m :=
  wp_inside hm hu ha hcount (fun _ => hm) fun r => hQ r _ (after_isInside hm s r)

/-- The guard of a transition: unless the target is no active administrator
anyway, two are counted. -/
theorem guard_keeps {id : UserId} {u : User} {guarded : Bool} {rest : Call α}
    (hguard : isActiveAdmin u = true → guarded = true)
    (hnot : guarded = true → isActiveAdmin u = true)
    (hrest : wp monitor Q (fun _ m => m.isInside = true) rest (.safe id)) :
    wp monitor Q (fun _ m => m.isInside = true)
      (if guarded = true then assertActiveAdminsRemain.bind fun _ => rest else rest)
      (if isActiveAdmin u then .read id else .safe id) := by
  by_cases hu : isActiveAdmin u = true
  · rw [if_pos hu, if_pos (hguard hu)]
    exact wp_seq (assertActiveAdminsRemain_keeps hrest)
  · rw [if_neg hu, if_neg fun h => hu (hnot h)]
    exact hrest

theorem deleteTokensWhere_keeps {id : UserId} {cond : RefreshToken → Bool}
    {Q : Unit → Phase → Prop} (hQ : Q () (.safe id)) :
    wp monitor Q (fun _ m => m.isInside = true) (deleteTokensWhere cond) (.safe id) := by
  unfold deleteTokensWhere
  refine wp_seq (wp_safe (Or.inl rfl) trivial fun ids => ?_)
  exact wp_seq (wp_safe (Or.inl rfl) trivial fun _ => hQ)

theorem deletePermissionsWhere_keeps {id : UserId} {cond : ModPermissionRow → Bool}
    {Q : List PermissionId → Phase → Prop} (hQ : ∀ r, Q r (.safe id)) :
    wp monitor Q (fun _ m => m.isInside = true) (deletePermissionsWhere cond) (.safe id) := by
  unfold deletePermissionsWhere
  refine wp_seq (wp_safe (Or.inl rfl) trivial fun ids => ?_)
  exact wp_safe (Or.inl rfl) trivial hQ

theorem toPublicUserOrThrow_keeps {row : Option User} (hm : m.isInside = true) :
    wp monitor (fun _ m => m.isInside = true) (fun _ m => m.isInside = true)
      (toPublicUserOrThrow row) m := by
  cases row with
  | none => exact hm
  | some u => exact hm

/-- `updateStatus`. -/
theorem updateStatus_keeps (userId : UserId) (status : UserStatus) {Q : PublicUser → Phase → Prop}
    (hQ : ∀ r, Q r .done) :
    wp monitor Q (Thrown (.updateStatus userId status)) (updateStatus userId status)
      (start (.updateStatus userId status)) := by
  refine wp_guardedTransaction rfl ?_ hQ
  refine wp_seq (lockedTarget_keeps fun target => ?_)
  refine wp_guard (fun _ => ?_) fun hchange => ?_
  · split <;> rfl
  refine guard_keeps (fun hadmin => ?_) (fun hguarded => ?_) ?_
  · -- an active administrator changes status, so it is deactivated
    unfold isActiveAdmin at hadmin
    unfold deactivates
    rw [hadmin, Bool.true_and]
    have hactive : target.status = .active := by simpa using (Bool.and_eq_true_iff.mp hadmin).2
    rw [hactive] at hchange
    simpa using fun h => hchange h.symm
  · unfold deactivates at hguarded
    exact (Bool.and_eq_true_iff.mp hguarded).1
  refine wp_seq (wp_safe (Or.inr rfl) trivial fun updated => ?_)
  show wp monitor _ _ (if status = .banned then _ else _) _
  split
  next => exact wp_seq (deleteTokensWhere_keeps (toPublicUserOrThrow_keeps rfl))
  next => exact toPublicUserOrThrow_keeps rfl

/-- `updateRole`. -/
theorem updateRole_keeps (userId : UserId) (role : Role) {Q : PublicUser → Phase → Prop}
    (hQ : ∀ r, Q r .done) :
    wp monitor Q (Thrown (.updateRole userId role)) (updateRole userId role)
      (start (.updateRole userId role)) := by
  refine wp_guardedTransaction rfl ?_ hQ
  refine wp_seq (lockedTarget_keeps fun target => ?_)
  refine wp_guard (fun _ => ?_) fun hchange => ?_
  · split <;> rfl
  refine guard_keeps (fun hadmin => ?_) (fun hguarded => ?_) ?_
  · unfold isActiveAdmin at hadmin
    unfold demotes
    rw [hadmin, Bool.true_and]
    have hrole : target.role = .admin := by simpa using (Bool.and_eq_true_iff.mp hadmin).1
    rw [hrole] at hchange
    simpa using fun h => hchange h.symm
  · unfold demotes at hguarded
    exact (Bool.and_eq_true_iff.mp hguarded).1
  refine wp_seq (wp_safe (Or.inr rfl) trivial fun updated => ?_)
  exact wp_seq (deletePermissionsWhere_keeps fun _ => toPublicUserOrThrow_keeps rfl)

theorem grantedServer_keeps {rawServerId : Option ServerIdText}
    {Q : Option ServerId → Phase → Prop} (hm : m.isInside = true)
    (hQ : ∀ r m', m'.isInside = true → Q r m') :
    wp monitor Q (fun _ m => m.isInside = true) (grantedServer rawServerId) m := by
  unfold grantedServer
  cases rawServerId with
  | none => exact hQ none m hm
  | some text =>
      cases text with
      | blank => exact hm
      | trimmed id =>
          refine wp_seq (wp_stays hm rfl (by simp [Stmt.powers]) trivial fun found m hm => ?_)
          exact wp_guard (fun _ => hm) fun _ => hQ _ _ hm

/-- `grantModPermission`. -/
theorem grantModPermission_keeps (userId : UserId) (permission : ModPermission)
    (rawServerId : Option ServerIdText) {Q : ModPermissionRow → Phase → Prop}
    (hQ : ∀ r, Q r .done) :
    wp monitor Q (Thrown (.grantModPermission userId permission rawServerId))
      (grantModPermission userId permission rawServerId)
      (start (.grantModPermission userId permission rawServerId)) := by
  refine wp_guardedTransaction rfl ?_ hQ
  refine wp_seq (lockedTarget_keeps fun target => ?_)
  have htarget : (if isActiveAdmin target then Phase.read userId else .safe userId).isInside
      = true := by
    split <;> rfl
  refine wp_guard (fun _ => htarget) fun _ => ?_
  refine wp_seq (grantedServer_keeps htarget fun serverId m hm => ?_)
  refine wp_seq (wp_stays hm rfl (by simp [Stmt.powers]) trivial fun inserted m hm => ?_)
  cases inserted with
  | some inserted => exact hm
  | none => exact wp_seq (wp_stays hm rfl (by simp [Stmt.powers]) trivial fun _ m hm => hm)

end Calls

/-- The monitor does not notice an operation without power over standings. -/
theorem ignores_other {ps : List Power} (h : Power.standing ∉ ps) :
    monitor.Ignores (fun _ a => a.powers ⊆ ps) .other := by
  intro β a ha
  cases a with
  | query s =>
      refine ⟨Or.inl ⟨rfl, if_neg fun hs => h (ha hs)⟩, fun b m' hnext => ?_⟩
      cases b with
      | ok r => exact Eq.trans hnext (Phase.after_other s r)
      | error e => exact hnext
  | begin =>
      refine ⟨Or.inl rfl, fun b m' hnext => ?_⟩
      cases b with
      | ok r => exact hnext
      | error e => exact hnext
  | commit =>
      refine ⟨Or.inl rfl, fun b m' hnext => ?_⟩
      cases b with
      | ok r => exact hnext
      | error e => exact hnext
  | rollback => exact ⟨Or.inl rfl, fun b m' hnext => hnext⟩
  | _ => exact ⟨trivial, fun b m' hnext => hnext⟩

/-- **Every operation follows the monitor.** -/
theorem body_keeps (S : Settings) (op : Op) :
    wp monitor Returned (Thrown op) (body S op) (start op) := by
  have hmap : ∀ {α : Type} {p : Call α} {m : Phase} (f : α → Reply),
      wp monitor (fun r => Returned (f r)) (Thrown op) p m →
      wp monitor Returned (Thrown op) (f <$> p) m := fun f h => wp_seq h
  have hother : op.isTransition = false → Power.standing ∉ op.powers →
      wp monitor Returned (Thrown op) (body S op) (start op) := by
    intro hop hpowers
    have hstart : start op = .other := by
      unfold start
      rw [hop]
      rfl
    unfold Thrown
    rw [hstart]
    exact wp_of_only (body_within S op) (ignores_other hpowers) (fun _ => rfl) fun _ _ => rfl
  cases op with
  | updateStatus userId status => exact hmap _ (updateStatus_keeps userId status fun _ => rfl)
  | updateRole userId role => exact hmap _ (updateRole_keeps userId role fun _ => rfl)
  | grantModPermission userId permission serverId =>
      exact hmap _ (grantModPermission_keeps userId permission serverId fun _ => rfl)
  | _ => exact hother rfl (by simp [Op.powers])

/-! ## §4. The invariant. -/

/-- What a phase says about the world. -/
structure Holds (m : Phase) (w : World) (p : Pid) : Prop where
  writes : ∀ {ws}, w.tables.pending p = some ws → ∀ x ∈ ws, m.Covers x
  inside : m.isInside = true → (w.tables.pending p).isSome = true
  lock : m.isLocked = true → w.tables.owner (.advisory lastAdminLockKey) = some p
  admin : HasAdmin m.exempt w.db

theorem Phase.Covers.standing {m : Phase} {x : Write} (h : m.Covers x) :
    x.standingOf = none ∨ x.standingOf = m.exempt := by
  cases m with
  | safe id => exact h
  | other => exact Or.inl h
  | out => exact Or.inl h
  | done => exact Or.inl h
  | opened => exact Or.inl (standingOf_eq_none h.1)
  | locked => exact Or.inl (standingOf_eq_none h.1)
  | read id => exact Or.inl (standingOf_eq_none h.1)

/-- A phase is carried over where its call's transaction and lock stay, and so
does every standing under the lock. -/
theorem Holds.transfer {m : Phase} {w w' : World} {q : Pid} (h : Holds m w q)
    (hpending : w'.tables.pending q = w.tables.pending q) (hadmin : HasAdmin none w'.db)
    (hlock : w.tables.owner (.advisory lastAdminLockKey) = some q →
      w'.tables.owner (.advisory lastAdminLockKey) = some q ∧ StandsBut none w.db w'.db) :
    Holds m w' q := by
  refine ⟨fun hws => h.writes (by rw [← hpending]; exact hws), fun hm => ?_, fun hm => ?_, ?_⟩
  · rw [hpending]
    exact h.inside hm
  · exact (hlock (h.lock hm)).1
  · cases m with
    | safe id =>
        exact h.admin.stands fun i u hi hu => (hlock (h.lock rfl)).2 i u nofun hu
    | _ => exact hadmin

/-- The invariant of every run. -/
structure Guarded (w : World) (o : Ledger) (gs : Pid → Phase) : Prop where
  admin : HasAdmin none w.db
  sound : Store.Sound standingTouches w.tables
  holds : ∀ p, Holds (gs p) w p
  /-- A transition that has not committed has changed nothing. -/
  quiet : ∀ {p}, gs p ≠ .other → gs p ≠ .done → o p = []

/-- A call with power over standings holds the lock. -/
theorem standing_allowed {m : Phase} {β : Type} {a : Act β} {w : World} {p : Pid}
    (ha : m.allow a) (h : Holds m w p) {x : Write} (hx : a.May x) (hne : x.standingOf ≠ none) :
    w.tables.owner (.advisory lastAdminLockKey) = some p := by
  have hmem : Power.standing ∈ x.powers := by
    by_contra hnot
    exact hne (if_neg hnot)
  cases a with
  | query s =>
      have hs : x.standingOf = s.standingOf := (standingOf_may hx).resolve_left hne
      rw [hs] at hne
      rcases ha with ⟨-, hnone⟩ | ⟨-, -, ⟨hu, -⟩ | ⟨id, rfl, -⟩⟩
      · exact absurd hnone hne
      · refine absurd ?_ hne
        unfold Stmt.standingOf
        rw [hu]
        exact ite_self _
      · exact h.lock rfl
  | sign payload ttl =>
      have hpowers := hx.1 hmem
      cases payload <;> simp [Act.powers] at hpowers
  | _ =>
      have hpowers := hx.1 hmem
      simp [Act.powers] at hpowers

/-- An allowed step writes only what the phase covers. -/
theorem allow_covers {m : Phase} {β : Type} {a : Act β} (ha : m.allow a) {x : Write}
    (hx : a.May x) : m.Covers x := by
  -- writes that leave `users` alone are always covered
  have hplain : x.updates = none → Power.account ∉ x.powers → m.Covers x := by
    intro hu hacc
    cases m with
    | safe id => exact Or.inl (standingOf_eq_none hu)
    | opened => exact ⟨hu, hacc⟩
    | locked => exact ⟨hu, hacc⟩
    | read id => exact ⟨hu, hacc⟩
    | _ => exact standingOf_eq_none hu
  cases a with
  | query s =>
      rcases ha with ⟨rfl, hnone⟩ | ⟨-, -, ⟨hu, hacc⟩ | ⟨id, rfl, hs⟩⟩
      · rcases standingOf_may hx with h | h
        · exact h
        · exact h.trans hnone
      · exact hplain (hx.2.trans hu) fun h => hacc (hx.1 h)
      · rcases standingOf_may hx with h | h
        · exact Or.inl h
        · rw [← h] at hs
          exact hs
  | sign payload ttl =>
      refine hplain hx.2 fun h => ?_
      have hpowers := hx.1 h
      cases payload <;> simp [Act.powers] at hpowers
  | _ =>
      refine hplain hx.2 fun h => ?_
      have hpowers := hx.1 h
      simp [Act.powers] at hpowers

/-- Of two active administrators one is not the target. -/
theorem hasAdmin_of_count {d : Db} {id : UserId} (h : 2 ≤ d.users.rows.countP isActiveAdmin) :
    HasAdmin (some id) d := by
  rw [List.countP_eq_length_filter] at h
  have hnodup : ((d.users.rows.filter isActiveAdmin).map User.id).Nodup :=
    d.users.nodup.sublist (List.filter_sublist.map _)
  match hrows : d.users.rows.filter isActiveAdmin with
  | [] => simp [hrows] at h
  | [u] => simp [hrows] at h
  | u :: v :: rest =>
      have hmem : ∀ {x : User}, x ∈ u :: v :: rest → d.users.get x.id = some x ∧
          isActiveAdmin x = true := by
        intro x hx
        rw [← hrows, List.mem_filter] at hx
        exact ⟨Table.mem_rows.mp hx.1, hx.2⟩
      have hne : u.id ≠ v.id := by
        intro heq
        rw [hrows, List.map_cons, List.map_cons, heq] at hnodup
        exact (List.nodup_cons.mp hnodup).1 List.mem_cons_self
      by_cases hu : u.id = id
      · obtain ⟨hget, hadmin⟩ := hmem (x := v) (by simp)
        exact ⟨v.id, v, fun h => hne (hu.trans (Option.some.inj h).symm), hget, hadmin⟩
      · obtain ⟨hget, hadmin⟩ := hmem (x := u) (by simp)
        exact ⟨u.id, u, fun h => hu (Option.some.inj h), hget, hadmin⟩

/-- Where the target is no active administrator, another one is. -/
theorem hasAdmin_of_read {d : Db} {id : UserId} {u : User} (h : HasAdmin none d)
    (hu : d.users.get id = some u) (hnot : isActiveAdmin u = false) : HasAdmin (some id) d := by
  obtain ⟨i, v, -, hv, hadmin⟩ := h
  refine ⟨i, v, fun heq => ?_, hv, hadmin⟩
  rw [Option.some.inj heq, hu] at hv
  rw [← Option.some.inj hv, hnot] at hadmin
  cases hadmin

/-- What the answer of a statement teaches a transition is true. -/
theorem Holds.learn {m : Phase} {w' : World} {p : Pid} {α : Type} {s : Stmt α} {r : α}
    {now : Timestamp} {e : Env} {d : Db} (h : Holds m w' p) (hcount : s.CountsAdmins)
    (hr : (plan now e d s).answer = .ok r)
    (htakes : ∀ k ∈ (plan now e d s).takes, w'.tables.owner k = some p)
    (hview : m.exempt = none → d.users = w'.db.users) : Holds (m.after s r) w' p := by
  -- the next phase promises more, with the same transaction and lock
  have hmore : ∀ {m' : Phase}, (∀ x, m.Covers x → m'.Covers x) →
      (m'.isInside = true → m.isInside = true) →
      (m'.isLocked = true → w'.tables.owner (.advisory lastAdminLockKey) = some p) →
      HasAdmin m'.exempt w'.db → Holds m' w' p := fun hc hi hl ha =>
    ⟨fun hws x hx => hc x (h.writes hws x hx), fun hm => h.inside (hi hm), hl, ha⟩
  have hsafe : ∀ {x : Write} {id : UserId}, x.updates = none ∧ Power.account ∉ x.powers →
      (Phase.safe id).Covers x := fun hx => Or.inl (standingOf_eq_none hx.1)
  cases s with
  | advisoryLock key =>
      cases m with
      | opened =>
          show Holds (if key = lastAdminLockKey then .locked else .opened) w' p
          split
          next hkey =>
            refine hmore (fun _ hx => hx) (fun _ => rfl) (fun _ => ?_) h.admin
            rw [← hkey]
            exact htakes _ List.mem_cons_self
          next => exact h
      | _ => exact h
  | selectUser id =>
      cases m with
      | locked =>
          cases r with
          | none => exact h
          | some u =>
              have hget : w'.db.users.get id = some u := by
                rw [← hview rfl]
                exact Except.ok.inj hr
              show Holds (if isActiveAdmin u then .read id else .safe id) w' p
              split
              next => exact hmore (fun _ hx => hx) (fun _ => rfl) (fun _ => h.lock rfl) h.admin
              next hu =>
                exact hmore (fun _ hx => hsafe hx) (fun _ => rfl) (fun _ => h.lock rfl)
                  (hasAdmin_of_read h.admin hget (by simpa using hu))
      | _ => exact h
  | countUsers cond =>
      cases m with
      | read id =>
          have hn : w'.db.users.rows.countP isActiveAdmin = r := by
            rw [← hview rfl, ← hcount]
            exact Except.ok.inj hr
          show Holds (if 2 ≤ r then .safe id else .read id) w' p
          split
          next htwo =>
            exact hmore (fun _ hx => hsafe hx) (fun _ => rfl) (fun _ => h.lock rfl)
              (hasAdmin_of_count (by rw [hn]; exact htwo))
          next => exact h
      | _ => exact h
  | _ => exact h

/-- What `p` sees of `users` before it has written to it. -/
theorem view_users {m : Phase} {w : World} {p : Pid} (h : Holds m w p) (hm : m.isInside = true)
    (hexempt : m.exempt = none) : (w.view p).users = w.db.users := by
  obtain ⟨ws, hws⟩ := Option.isSome_iff_exists.mp (h.inside hm)
  unfold World.view
  rw [Store.view_of_some hws]
  refine foldl_users _ fun x hx => ?_
  have hcovers := h.writes hws x hx
  cases m with
  | safe id => cases hexempt
  | opened => exact hcovers
  | locked => exact hcovers
  | read id => exact hcovers
  | other => cases hm
  | out => cases hm
  | done => cases hm

/-- A phase outside the transaction promises nothing about it. -/
theorem Holds.outside {m : Phase} {w : World} {p : Pid} (hm : m.isInside = false)
    (hnone : w.tables.pending p = none) (hadmin : HasAdmin none w.db) : Holds m w p := by
  refine ⟨fun hws => ?_, fun h => ?_, fun h => ?_, ?_⟩
  · rw [hnone] at hws
    cases hws
  · rw [hm] at h
    cases h
  · cases m with
    | locked => cases hm
    | read id => cases hm
    | safe id => cases hm
    | _ => cases h
  · cases m with
    | safe id => cases hm
    | _ => exact hadmin

section Steps

variable {S : Settings} {w w' : World} {o : Ledger} {gs : Pid → Phase} {p : Pid} {m : Phase}
  {e : Env}

/-- An allowed step is a step under the advisory lock. -/
theorem allowed_step {β : Type} {a : Act β} {b : β} (ha : m.allow a) (h : Holds m w p)
    (hx : exec S p a e w = some (b, w')) :
    Store.Step Db.apply standingTouches a.May p w.tables w'.tables :=
  (exec_step hx).retouch fun x hmay k hk => by
    rw [hk.1]
    exact Or.inr (standing_allowed ha h hmay hk.2)

/-- It leaves the promised administrator, -/
theorem allowed_admin {β : Type} {a : Act β} {b : β} (ha : m.allow a) (h : Holds m w p)
    (hx : exec S p a e w = some (b, w')) : HasAdmin m.exempt w'.db := by
  obtain ⟨ws, heq, hws⟩ := (allowed_step ha h hx).committed_eq (P := m.Covers) h.writes
    fun x hmay => allow_covers ha hmay
  refine h.admin.stands ?_
  show StandsBut _ w.tables.committed w'.tables.committed
  rw [heq]
  exact StandsBut.foldl ws (fun x hmem => (hws x hmem).standing) _

/-- and its pending writes covered. -/
theorem allowed_writes {β : Type} {a : Act β} {b : β} (ha : m.allow a) (h : Holds m w p)
    (hx : exec S p a e w = some (b, w')) {ws : List Write} (hws : w'.tables.pending p = some ws) :
    ∀ x ∈ ws, m.Covers x :=
  (allowed_step ha h hx).pending_all h.writes (fun _ hmay => allow_covers ha hmay) hws

/-- **Only `p` moves**: it is left to say where `p` is now. -/
theorem Guarded.move {may : Write → Prop} (h : Guarded w o gs)
    (hstep : Store.Step Db.apply standingTouches may p w.tables w'.tables)
    (hadmin : HasAdmin none w'.db) (hm : Holds m w' p)
    (hquiet : m ≠ .other → m ≠ .done → o.step w p w' p = []) :
    Guarded w' (o.step w p w') (Function.update gs p m) := by
  refine ⟨hadmin, hstep.sound h.sound, fun q => ?_, fun {q} hne hne' => ?_⟩
  · by_cases hq : q = p
    · rw [hq, Function.update_self]
      exact hm
    · rw [Function.update_of_ne hq]
      exact (h.holds q).transfer (hstep.pending_of_ne hq) hadmin fun hk =>
        ⟨hstep.owner_of_ne hq hk, h.sound.still hstep standing_protects hk hq⟩
  · by_cases hq : q = p
    · rw [hq, Function.update_self] at hne hne'
      rw [hq]
      exact hquiet hne hne'
    · rw [Function.update_of_ne hq] at hne hne'
      rw [Ledger.step_of_ne hq]
      exact h.quiet hne hne'

/-- A step that leaves the committed tables leaves the ledger. -/
theorem Guarded.still (h : Guarded w o gs) (hdb : w'.db = w.db) (hne : gs p ≠ .other)
    (hne' : gs p ≠ .done) : o.step w p w' p = [] := by
  rw [Ledger.step_of_eq hdb]
  exact h.quiet hne hne'

theorem inside_ne {m : Phase} (hm : m.isInside = true) : m ≠ .other ∧ m ≠ .done := by
  constructor
  · intro heq
    rw [heq] at hm
    cases hm
  · intro heq
    rw [heq] at hm
    cases hm

/-- Any step of a call that is no transition. -/
theorem Guarded.step_other {β : Type} {a : Act β} {b : β} (h : Guarded w o gs)
    (hother : gs p = .other) (ha : (gs p).allow a) (hx : exec S p a e w = some (b, w')) :
    ∃ m, (gs p).next a b m ∧ Guarded w' (o.step w p w') (Function.update gs p m) := by
  have hp := h.holds p
  rw [hother] at ha hp ⊢
  have hadmin : HasAdmin none w'.db := allowed_admin ha hp hx
  have hholds : Holds .other w' p := ⟨allowed_writes ha hp hx, nofun, nofun, hadmin⟩
  exact ⟨.other, Phase.next_other a b,
    h.move (allowed_step ha hp hx) hadmin hholds fun hne => absurd rfl hne⟩

/-- A statement of a transition. -/
theorem Guarded.step_query {α : Type} {s : Stmt α} {b : Except Exn α} (h : Guarded w o gs)
    (hin : (gs p).isInside = true) (ha : (gs p).allow (.query s))
    (hx : exec S p (.query s) e w = some (b, w')) :
    ∃ m, (gs p).next (.query s) b m ∧ Guarded w' (o.step w p w') (Function.update gs p m) := by
  have hp := h.holds p
  have hstep := allowed_step ha hp hx
  have hadmin := allowed_admin ha hp hx
  have hwrites : ∀ {ws}, w'.tables.pending p = some ws → ∀ x ∈ ws, (gs p).Covers x :=
    fun hws => allowed_writes ha hp hx hws
  have hcount : s.CountsAdmins := by
    rcases ha with ⟨hother, -⟩ | ⟨-, hcount, -⟩
    · exact absurd hother (inside_ne hin).1
    · exact hcount
  obtain ⟨ws₀, hws₀⟩ := Option.isSome_iff_exists.mp (hp.inside hin)
  rcases exec_query hx with ⟨rfl, rfl⟩ | ⟨rfl, -, -, hw'⟩
  · exact ⟨gs p, rfl, h.move hstep hadmin.weaken hp fun hne hne' => h.still rfl hne hne'⟩
  -- inside the transaction nothing is committed yet
  have htables : w'.tables = w.tables.put Db.apply p (plan w.clock e (w.view p) s).takes
      (plan w.clock e (w.view p) s).writes := by
    rw [hw']
  have hdb : w'.db = w.db := by
    show w'.tables.committed = w.tables.committed
    rw [htables]
    exact Store.put_committed_of_some hws₀
  have hquiet : o.step w p w' p = [] := h.still hdb (inside_ne hin).1 (inside_ne hin).2
  have hsame : Holds (gs p) w' p := by
    refine ⟨hwrites, fun _ => ?_, fun hl => ?_, hadmin⟩
    · rw [htables, Store.put_pending_of_some hws₀]
      rfl
    · rw [htables]
      exact Store.put_owner_self (hp.lock hl)
  cases hans : (plan w.clock e (w.view p) s).answer with
  | error err => exact ⟨gs p, rfl, h.move hstep hadmin.weaken hsame fun _ _ => hquiet⟩
  | ok r =>
      have hlearn : Holds ((gs p).after s r) w' p := by
        refine hsame.learn hcount hans (fun k hk => ?_) fun hexempt => ?_
        · rw [htables]
          exact Store.put_owner_of_some hws₀ hk
        · rw [view_users hp hin hexempt, hdb]
      exact ⟨(gs p).after s r, rfl, h.move hstep hadmin.weaken hlearn fun _ _ => hquiet⟩

/-- A transition begins. -/
theorem Guarded.step_begin {b : Except Exn Unit} (h : Guarded w o gs) (hout : gs p = .out)
    (ha : (gs p).allow .begin) (hx : exec S p .begin e w = some (b, w')) :
    ∃ m, (gs p).next .begin b m ∧ Guarded w' (o.step w p w') (Function.update gs p m) := by
  have hp := h.holds p
  have hstep := allowed_step ha hp hx
  have hadmin := (allowed_admin ha hp hx).weaken
  have hne : gs p ≠ .other ∧ gs p ≠ .done := by
    rw [hout]
    exact ⟨nofun, nofun⟩
  rcases exec_begin hx with ⟨rfl, rfl⟩ | ⟨rfl, -, rfl⟩
  · exact ⟨gs p, rfl, h.move hstep hadmin hp fun hne hne' => h.still rfl hne hne'⟩
  · refine ⟨.opened, ?_, h.move hstep hadmin ⟨fun hws x hmem => ?_, fun _ => ?_, nofun, hadmin⟩
      fun _ _ => h.still rfl hne.1 hne.2⟩
    · show Phase.opened = if gs p = .other then .other else .opened
      rw [if_neg hne.1]
    · rw [Store.begin_pending_self, Option.some.injEq] at hws
      rw [← hws] at hmem
      exact absurd hmem List.not_mem_nil
    · show ((w.tables.begin p).pending p).isSome = true
      rw [Store.begin_pending_self]
      rfl

/-- A transition commits, or its commit fails. -/
theorem Guarded.step_commit {b : Except Exn Unit} (h : Guarded w o gs)
    (hin : (gs p).isInside = true) (ha : (gs p).allow .commit)
    (hx : exec S p .commit e w = some (b, w')) :
    ∃ m, (gs p).next .commit b m ∧ Guarded w' (o.step w p w') (Function.update gs p m) := by
  have hstep := allowed_step ha (h.holds p) hx
  have hadmin := (allowed_admin ha (h.holds p) hx).weaken
  obtain ⟨hne, hne'⟩ := inside_ne hin
  rcases exec_commit hx with ⟨rfl, rfl⟩ | ⟨rfl, rfl⟩
  · refine ⟨.out, ?_, h.move hstep hadmin
      (Holds.outside rfl Store.rollback_pending_self hadmin) fun _ _ => h.still rfl hne hne'⟩
    show Phase.out = if gs p = .other then .other else .out
    rw [if_neg hne]
  · refine ⟨.done, ?_, h.move hstep hadmin
      (Holds.outside rfl Store.commit_pending_self hadmin) fun _ hdone => absurd rfl hdone⟩
    show Phase.done = if gs p = .other then .other else .done
    rw [if_neg hne]

/-- A transition rolls back. -/
theorem Guarded.step_rollback {b : Unit} (h : Guarded w o gs) (hin : (gs p).isInside = true)
    (ha : (gs p).allow .rollback) (hx : exec S p .rollback e w = some (b, w')) :
    ∃ m, (gs p).next .rollback b m ∧ Guarded w' (o.step w p w') (Function.update gs p m) := by
  have hstep := allowed_step ha (h.holds p) hx
  have hadmin := (allowed_admin ha (h.holds p) hx).weaken
  obtain ⟨hne, hne'⟩ := inside_ne hin
  cases exec_rollback hx
  refine ⟨.out, ?_, h.move hstep hadmin
    (Holds.outside rfl Store.rollback_pending_self hadmin) fun _ _ => h.still rfl hne hne'⟩
  show Phase.out = if gs p = .other then .other else .out
  rw [if_neg hne]

/-- **One step.** -/
theorem Guarded.step {β : Type} {a : Act β} {b : β} (h : Guarded w o gs) (ha : (gs p).allow a)
    (hx : exec S p a e w = some (b, w')) :
    ∃ m, (gs p).next a b m ∧ Guarded w' (o.step w p w') (Function.update gs p m) := by
  by_cases hother : gs p = .other
  · exact h.step_other hother ha hx
  cases a with
  | query s => exact h.step_query ((ha.resolve_left fun hc => hother hc.1).1) ha hx
  | begin => exact h.step_begin (ha.resolve_left hother) ha hx
  | commit => exact h.step_commit (ha.resolve_left hother) ha hx
  | rollback => exact h.step_rollback (ha.resolve_left hother) ha hx
  | _ =>
      have htables := exec_silent (by rfl) hx
      have hadmin := (allowed_admin ha (h.holds p) hx).weaken
      have hdb : w'.db = w.db := by
        unfold World.db
        rw [htables]
      have hholds : Holds (gs p) w' p := by
        refine (h.holds p).transfer (by rw [htables]) hadmin fun hk => ?_
        rw [htables, hdb]
        exact ⟨hk, StandsBut.refl _⟩
      exact ⟨gs p, rfl, h.move (allowed_step ha (h.holds p) hx) hadmin hholds
        fun hne hne' => h.still hdb hne hne'⟩

end Steps

/-! ## §5. Runs. -/

/-- A new call. -/
theorem Guarded.invoke {w : World} {o : Ledger} {gs : Pid → Phase} {p : Pid} (op : Op)
    (h : Guarded w o gs) (hp : gs p = .other) :
    Guarded w (o.opened p) (Function.update gs p (start op)) := by
  refine ⟨h.admin, h.sound, fun q => ?_, fun {q} hne hne' => ?_⟩
  · by_cases hq : q = p
    · rw [hq, Function.update_self]
      have hold := h.holds p
      rw [hp] at hold
      rcases start_cases op with hs | hs
      · rw [hs]
        exact ⟨hold.writes, nofun, nofun, hold.admin⟩
      · rw [hs]
        exact hold
    · rw [Function.update_of_ne hq]
      exact h.holds q
  · by_cases hq : q = p
    · rw [hq]
      exact Function.update_self ..
    · rw [Function.update_of_ne hq] at hne hne'
      rw [Ledger.opened, Function.update_of_ne hq]
      exact h.quiet hne hne'

/-- The surroundings move on. -/
theorem Guarded.ambient {w w' : World} {o : Ledger} {gs : Pid → Phase} {e : Env}
    (h : Guarded w o gs) (hx : Accounts.ambient e w = some w') : Guarded w' o gs := by
  obtain ⟨hpending, howner, husers, -, -, -, -⟩ := ambient_frame hx
  have hstands : StandsBut none w.db w'.db := StandsBut.of_users_eq husers
  refine ⟨h.admin.stands hstands, fun q ws x k hws hxw hk => ?_, fun q => ?_, h.quiet⟩
  · rw [hpending] at hws
    rw [howner]
    exact h.sound q ws x k hws hxw hk
  · refine (h.holds q).transfer (by rw [hpending]) (h.admin.stands hstands) fun hk => ?_
    rw [howner]
    exact ⟨hk, hstands⟩

/-- The process dies; the calls that survive had left their transactions. -/
theorem Guarded.reboot {w w' : World} {o : Ledger} {gs : Pid → Phase} {e : Env}
    {alive : Pid → Bool} (h : Guarded w o gs) (hx : Accounts.reboot e w = some w')
    (hended : ∀ p, alive p = true → (gs p).isInside = false) :
    Guarded w' o fun p => if alive p then gs p else .other := by
  cases hx
  refine ⟨h.admin, Store.Sound.crash _, fun q => ?_, fun {q} hne hne' => ?_⟩
  · split
    next hq => exact Holds.outside (hended q hq) rfl h.admin
    next => exact Holds.outside rfl rfl h.admin
  · split at hne
    next hq =>
      rw [if_pos hq] at hne'
      exact h.quiet hne hne'
    next => exact absurd rfl hne

/-- The invariant in every run. -/
theorem guarded_run {S : Settings} {w₀ : World} (hquiet : w₀.tables = Store.quiet w₀.db)
    (hadmin : HasAdmin none w₀.db) {c : Conf} {o : Ledger}
    (h : (system S).Reach ledger (Config.init w₀) Ledger.blank c o) :
    ∃ gs, Guarded c.world o gs ∧
      System.Tracks (fun _ => monitor) .other (fun _ => Returned) Thrown c gs := by
  refine System.Reach.sound (M := fun _ => monitor) start Guarded ?_ ?_ ?_ ?_ ?_ ?_ h
  · intro o w p op _
    exact body_keeps S op
  · intro w o gs p op hI hp _
    exact hI.invoke op hp
  · intro w o gs p op β a e b w' hI ha _ hx
    exact hI.step ha hx
  · intro w o gs e w' hI hx
    exact hI.ambient hx
  · intro w o gs e w' alive hI hx hended _
    refine hI.reboot (e := e) hx fun p hp => ?_
    obtain ⟨op, ⟨r, hr⟩ | ⟨err, herr⟩⟩ := hended p hp
    · exact hr
    · have herr : gs p = start op := herr
      rw [herr]
      rcases start_cases op with hs | hs <;> rw [hs] <;> rfl
  · refine ⟨hadmin, ?_, fun q => Holds.outside rfl ?_ hadmin, fun hne => absurd rfl hne⟩
    · rw [hquiet]
      exact Store.Sound.quiet _
    · rw [hquiet]
      rfl

/-- **The last administrator.**  From any tables with an active administrator
and no open transaction, every interleaving of account operations keeps one,
and a transition that is rejected has changed nothing. -/
theorem active_admin_remains (S : Settings) (w₀ : World) (hquiet : w₀.tables = Store.quiet w₀.db)
    (hadmin : ∃ u ∈ w₀.db.users.rows, isActiveAdmin u = true) (c : Conf) (o : Ledger)
    (h : (system S).Reach ledger (Config.init w₀) Ledger.blank c o) :
    (∃ u ∈ c.world.db.users.rows, isActiveAdmin u = true) ∧
      ∀ {p : Pid} {op : Op} {e : Exn}, op.isTransition = true → c.failed p op e → o p = [] := by
  obtain ⟨gs, hI, hT⟩ := guarded_run hquiet (hasAdmin_iff.mpr hadmin) h
  refine ⟨hasAdmin_iff.mp hI.admin, fun {p op e} hop hp => ?_⟩
  have hout : gs p = .out := by
    have hthrown : gs p = start op := hT.failed hp
    rw [hthrown, start, if_pos hop]
  refine hI.quiet ?_ ?_
  · rw [hout]
    exact nofun
  · rw [hout]
    exact nofun

/-- Both administrators ban each other; the second call waits for the lock. -/
def mutualBan : List (Event Env Op) :=
  [.invoke 0 (.updateStatus 1 .banned), .invoke 1 (.updateStatus 2 .banned), .step 0 {}, .step 1 {},
   .step 0 {}, .step 0 {}, .step 0 {}, .step 0 {}, .step 0 {}, .step 0 {}, .step 0 {},
   .step 1 {}, .step 1 {}, .step 1 {}, .step 1 {}]

/-- The second ban is rejected, and bob is still an active administrator. -/
theorem mutualBan_leaves_one :
    ∃ c o, (system sampleSettings).Reach ledger (Config.init sampleWorld) Ledger.blank c o ∧
      c.failed 1 (.updateStatus 2 .banned) (.conflict "Cannot deactivate the last active admin") ∧
      o 1 = [] ∧ ∃ u ∈ c.world.db.users.rows, isActiveAdmin u = true := by
  obtain ⟨c, o, h, ht⟩ := System.Reach.of_replay (S := system sampleSettings) (V := ledger)
    sampleWorld Ledger.blank mutualBan
    (fun c _ => c.failure 1 ==
      some (.updateStatus 2 .banned, .conflict "Cannot deactivate the last active admin"))
    (by decide +kernel)
  rw [beq_iff_eq] at ht
  have hfailed := Config.failed_of_failure ht
  obtain ⟨hadmin, hrejected⟩ := active_admin_remains sampleSettings sampleWorld rfl
    ⟨sampleAccount 1 "alice@example.com" "alice" .admin, by decide, rfl⟩ c o h
  exact ⟨c, o, h, hfailed, hrejected rfl hfailed, hadmin⟩

end LastAdmin

end MinePanel.Accounts
