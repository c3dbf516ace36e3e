/-
  MinePanel.Accounts.Steps
  ────────────────────────
  **WHAT ONE STEP OF AN ACCOUNT CALL DOES TO THE TABLES.**

  Every step is a `Store.Step`: it begins, commits, rolls back, or runs one
  statement whose writes hold their row locks and stay within the powers of the
  step.  The proofs about runs read steps through these lemmas only.

    * `exec_query`, `exec_step`, `exec_silent`, `ambient_frame`;
    * the rules of `query` and `transaction` for any monitor;
    * `Ledger` — which call has changed the committed tables.
-/
import MinePanel.Accounts.Powers

namespace MinePanel.Accounts

open MinePanel.Db MinePanel.Lib Prog

/-! ## §1. Row locks. -/

/-- The row locks a write needs. -/
def Write.touches : Write → Lock → Prop
  | .insertUser row, k => k = .user row.id
  | .updateUser id _ _, k => k = .user id
  | .insertToken row, k => k = .token row.id
  | .deleteTokens ids, k => ∃ id ∈ ids, k = .token id
  | .insertPermission row, k => ∃ id, row.serverId = some id ∧ k = .server id
  | _, _ => False

/-- A planned write is covered by the locks its statement takes. -/
theorem plan_covers {α : Type} (now : Timestamp) (e : Env) (d : Db) (s : Stmt α) :
    ∀ x ∈ (plan now e d s).writes, ∀ k, x.touches k → k ∈ (plan now e d s).takes := by
  cases s <;> simp only [plan, Plan.read, Plan.refuse] <;> (repeat' split) <;>
    simp [Write.touches]
  · intro k id hid hthere hk
    exact ⟨id, ⟨hid, hthere⟩, hk.symm⟩
  · intro k id hid hk
    exact Or.inr ⟨id, hid, hk.symm⟩

/-- The row of `users` a write updates. -/
def Write.updates : Write → Option UserId
  | .updateUser id _ _ => some id
  | _ => none

/-- The row of `users` a statement updates. -/
def Stmt.updates : ∀ {α : Type}, Stmt α → Option UserId
  | _, .updateUser id _ _ => some id
  | _, _ => none

/-- The row of `users` a step updates. -/
def Act.updates : ∀ {β : Type}, Act β → Option UserId
  | _, .query s => s.updates
  | _, _ => none

/-- The step stores a session. -/
def Act.stores : ∀ {β : Type}, Act β → Bool
  | _, .query (.insertToken _) => true
  | _, _ => false

/-- A statement plans updates of the row it names only. -/
theorem plan_updates {α : Type} (now : Timestamp) (e : Env) (d : Db) (s : Stmt α) :
    ∀ x ∈ (plan now e d s).writes, x.updates = s.updates := by
  cases s <;> simp only [plan, Plan.read, Plan.refuse] <;> (repeat' split) <;>
    simp [Write.updates, Stmt.updates]

/-- What a step plans to write. -/
def Act.Plans : ∀ {β : Type}, Act β → Write → Prop
  | _, .query s, x => ∃ now e d, x ∈ (plan now e d s).writes
  | _, _, _ => False

/-- What a step may write: nothing beyond its powers, no other user's row, and
nothing it does not plan. -/
structure Act.May {β : Type} (a : Act β) (x : Write) : Prop where
  powers : x.powers ⊆ a.powers
  updates : x.updates = a.updates
  planned : a.Plans x

/-- A write that leaves `users` alone. -/
theorem apply_users {x : Write} (d : Db) (hu : x.updates = none) (ha : Power.account ∉ x.powers) :
    (d.apply x).users = d.users := by
  cases x with
  | insertUser row => exact absurd List.mem_cons_self ha
  | updateUser id set now => cases hu
  | _ => rfl

theorem foldl_users {ws : List Write} (d : Db)
    (h : ∀ x ∈ ws, x.updates = none ∧ Power.account ∉ x.powers) :
    (ws.foldl Db.apply d).users = d.users := by
  induction ws generalizing d with
  | nil => rfl
  | cons x ws ih =>
      obtain ⟨hu, ha⟩ := h x List.mem_cons_self
      rw [List.foldl_cons, ih _ fun y hy => h y (List.mem_cons_of_mem _ hy), apply_users d hu ha]

/-! ## §2. Rows of `users`. -/

/-- The user has a row. -/
def Db.has (d : Db) (u : UserId) : Prop := (d.users.get u).isSome = true

/-- The patch of an UPDATE of `users`. -/
def Write.patch : Write → Option (UserId × UserPatch)
  | .updateUser id set _ => some (id, set)
  | _ => none

/-- The row an INSERT into `users` adds. -/
def Write.births : Write → UserId → Prop
  | .insertUser row, u => row.id = u
  | _, _ => False

/-- A row is there after a write if it was there or is born. -/
theorem has_apply (d : Db) (x : Write) (u : UserId) : (d.apply x).has u ↔ d.has u ∨ x.births u := by
  cases x with
  | insertUser row =>
      show ((d.users.insert row).getD d.users |>.get u).isSome = true ↔ _
      cases hins : d.users.insert row with
      | none =>
          have htaken : (d.users.get row.id).isSome = true := by
            by_contra hfree
            obtain ⟨t, ht⟩ := Table.insert_isSome (t := d.users) (r := row) (by simpa using hfree)
            rw [hins] at ht
            cases ht
          constructor
          · exact Or.inl
          · rintro (h | rfl)
            · exact h
            · exact htaken
      | some t =>
          show (t.get u).isSome = true ↔ _
          rw [Table.get_insert hins]
          split
          next h => simp [Write.births, h]
          next h => simp [Write.births, Db.has, h]
  | updateUser id set now => simp [Db.apply, Db.has, Write.births]
  | _ => exact ⟨Or.inl, fun h => h.resolve_right id⟩

/-- Rows of `users` are never deleted. -/
theorem has_foldl {d : Db} {u : UserId} (h : d.has u) (ws : List Write) :
    (ws.foldl Db.apply d).has u := by
  induction ws generalizing d with
  | nil => exact h
  | cons x ws ih => exact ih ((has_apply d x u).mpr (Or.inl h))

/-- Every UPDATE finds its row. -/
def Lands : Db → List Write → Prop
  | _, [] => True
  | d, x :: ws => (∀ id set, x.patch = some (id, set) → d.has id) ∧ Lands (d.apply x) ws

/-- Writes land wherever there are more rows. -/
theorem Lands.mono {d d' : Db} {ws : List Write} (h : Lands d ws)
    (hd : ∀ u, d.has u → d'.has u) : Lands d' ws := by
  induction ws generalizing d d' with
  | nil => trivial
  | cons x ws ih =>
      refine ⟨fun id set hp => hd id (h.1 id set hp), ih h.2 fun u hu => ?_⟩
      rw [has_apply] at hu ⊢
      exact hu.imp_left (hd u)

/-- Writes land one after the other. -/
theorem Lands.append {d : Db} {ws ws' : List Write} (h : Lands d ws)
    (h' : Lands (ws.foldl Db.apply d) ws') : Lands d (ws ++ ws') := by
  induction ws generalizing d with
  | nil => exact h'
  | cons x ws ih => exact ⟨h.1, ih h.2 h'⟩

/-- An UPDATE of `users` finds a row that meets its condition, or writes
nothing. -/
theorem plan_update (now : Timestamp) (e : Env) (d : Db) (id : UserId) (cond : User → Bool)
    (set : UserPatch) :
    (∃ user, d.users.get id = some user ∧ cond user = true ∧
        (plan now e d (.updateUser id cond set)).answer = .ok (some (set.apply now user)) ∧
        (plan now e d (.updateUser id cond set)).writes = [.updateUser id set now]) ∨
      ((plan now e d (.updateUser id cond set)).writes = [] ∧
        ∀ row, (plan now e d (.updateUser id cond set)).answer ≠ .ok (some row)) := by
  simp only [plan]
  split
  next => exact Or.inr ⟨rfl, fun row h => by cases h⟩
  next user hfound =>
    obtain ⟨hget, hcond⟩ := Option.filter_eq_some_iff.mp hfound
    split
    next => exact Or.inr ⟨rfl, fun row h => by cases h⟩
    next => exact Or.inl ⟨user, hget, hcond, rfl, rfl⟩

/-- **What is planned lands.** -/
theorem plan_lands {α : Type} (now : Timestamp) (e : Env) (d : Db) (s : Stmt α) :
    Lands d (plan now e d s).writes := by
  cases s with
  | updateUser id cond set =>
      rcases plan_update now e d id cond set with ⟨user, hget, -, -, hwrites⟩ | ⟨hwrites, -⟩
      · rw [hwrites]
        refine ⟨fun id' set' h => ?_, trivial⟩
        obtain ⟨rfl, -⟩ := Prod.mk.inj (Option.some.inj h)
        rw [Db.has, hget]
        rfl
      · rw [hwrites]
        trivial
  | _ =>
      simp only [plan, Plan.read, Plan.refuse]
      (repeat' split) <;> simp [Lands, Write.patch]

/-! ## §3. Steps of a call. -/

section Steps

variable {S : Settings} {p : Pid} {β : Type} {a : Act β} {e : Env} {b : β} {w w' : World}

/-- A statement fails and changes nothing, or gives its planned answer, holding
no lock another call holds. -/
theorem exec_query {α : Type} {s : Stmt α} {b : Except Exn α}
    (h : exec S p (.query s) e w = some (b, w')) :
    (b = .error .statementFailed ∧ w' = w) ∨
    (b = (plan w.clock e (w.view p) s).answer ∧
      (∀ k ∈ (plan w.clock e (w.view p) s).waits, w.tables.isFree p k = true) ∧
      (∀ k ∈ (plan w.clock e (w.view p) s).takes, w.tables.isFree p k = true) ∧
      w' = { w with tables := w.tables.put Db.apply p (plan w.clock e (w.view p) s).takes
                                (plan w.clock e (w.view p) s).writes }) := by
  simp only [exec] at h
  split at h
  next =>
    cases h
    exact Or.inl ⟨rfl, rfl⟩
  next =>
    obtain ⟨tables, hrun, heq⟩ := Option.map_eq_some_iff.mp h
    obtain ⟨hwaits, htakes, rfl⟩ := Store.run_eq_some hrun
    cases heq
    exact Or.inr ⟨rfl, hwaits, htakes, rfl⟩

/-- What a BEGIN does. -/
theorem exec_begin {b : Except Exn Unit} (h : exec S p .begin e w = some (b, w')) :
    (b = .error .statementFailed ∧ w' = w) ∨
    (b = .ok () ∧ w.tables.pending p = none ∧ w' = { w with tables := w.tables.begin p }) := by
  simp only [exec] at h
  split at h
  next =>
    cases h
    exact Or.inl ⟨rfl, rfl⟩
  next =>
    split at h
    next => cases h
    next hp =>
      cases h
      exact Or.inr ⟨rfl, by simpa using hp, rfl⟩

/-- What a COMMIT does, where it goes through and where it fails. -/
theorem exec_commit {b : Except Exn Unit} (h : exec S p .commit e w = some (b, w')) :
    (b = .error .statementFailed ∧ w' = { w with tables := w.tables.rollback p }) ∨
    (b = .ok () ∧ w' = { w with tables := w.tables.commit Db.apply p }) := by
  simp only [exec] at h
  split at h
  next =>
    cases h
    exact Or.inl ⟨rfl, rfl⟩
  next =>
    cases h
    exact Or.inr ⟨rfl, rfl⟩

/-- What a ROLLBACK does. -/
theorem exec_rollback {b : Unit} (h : exec S p .rollback e w = some (b, w')) :
    w' = { w with tables := w.tables.rollback p } := by
  cases h
  rfl

/-- A step of the store, under any locks that every statement takes for what it
writes. -/
theorem exec_step_of {touches : Write → Lock → Prop}
    (hcovers : ∀ {α : Type} (now : Timestamp) (e : Env) (d : Db) (s : Stmt α),
      ∀ x ∈ (plan now e d s).writes, ∀ k, touches x k → k ∈ (plan now e d s).takes)
    (h : exec S p a e w = some (b, w')) :
    Store.Step Db.apply touches a.May p w.tables w'.tables := by
  cases a with
  | query s =>
      rcases exec_query h with ⟨-, rfl⟩ | ⟨-, -, htakes, rfl⟩
      · exact .idle
      · refine .put htakes (fun x hx => ?_) fun x hx k hk => Or.inl (hcovers _ _ _ s x hx k hk)
        refine ⟨?_, plan_updates _ _ _ s x hx, w.clock, e, w.view p, hx⟩
        rw [plan_powers _ _ _ s x hx]
        exact List.Subset.refl _
  | begin =>
      rcases exec_begin h with ⟨-, rfl⟩ | ⟨-, hp, rfl⟩
      · exact .idle
      · exact .begin hp
  | commit =>
      rcases exec_commit h with ⟨-, rfl⟩ | ⟨-, rfl⟩
      · exact .rollback
      · exact .commit
  | rollback =>
      rw [exec_rollback h]
      exact .rollback
  | randomInt min max =>
      simp only [exec] at h
      split at h
      next =>
        cases h
        exact .idle
      next => cases h
  | createRefreshTokenId =>
      simp only [exec] at h
      split at h
      next =>
        cases h
        exact .idle
      next => cases h
  | _ =>
      cases h
      exact .idle

/-- **Every step is a step of the store**, within its powers. -/
theorem exec_step (h : exec S p a e w = some (b, w')) :
    Store.Step Db.apply Write.touches a.May p w.tables w'.tables :=
  exec_step_of plan_covers h

/-- No row of `users` goes. -/
theorem has_step (hx : exec S p a e w = some (b, w')) {u : UserId}
    (h : w.db.has u) : w'.db.has u := by
  obtain ⟨ws, hws, -⟩ := (exec_step hx).committed_eq (P := fun _ => True) (fun _ _ _ => trivial)
    fun _ _ => trivial
  show w'.tables.committed.has u
  rw [hws]
  exact has_foldl h ws

/-- A step does not move the clock. -/
theorem exec_clock (h : exec S p a e w = some (b, w')) : w'.clock = w.clock := by
  cases a with
  | query s => rcases exec_query h with ⟨-, rfl⟩ | ⟨-, -, -, rfl⟩ <;> rfl
  | begin => rcases exec_begin h with ⟨-, rfl⟩ | ⟨-, -, rfl⟩ <;> rfl
  | commit => rcases exec_commit h with ⟨-, rfl⟩ | ⟨-, rfl⟩ <;> rfl
  | randomInt min max =>
      simp only [exec] at h
      split at h <;> cases h
      rfl
  | createRefreshTokenId =>
      simp only [exec] at h
      split at h <;> cases h
      rfl
  | _ =>
      cases h
      rfl

/-- The steps that do not look at the tables. -/
def Act.isSilent : ∀ {β : Type}, Act β → Bool
  | _, .query _ => false
  | _, .begin => false
  | _, .commit => false
  | _, .rollback => false
  | _, _ => true

/-- Silent steps leave the tables alone. -/
theorem exec_silent (ha : a.isSilent = true) (h : exec S p a e w = some (b, w')) :
    w'.tables = w.tables := by
  cases a with
  | query s => cases ha
  | begin => cases ha
  | commit => cases ha
  | rollback => cases ha
  | randomInt min max =>
      simp only [exec] at h
      split at h <;> cases h
      rfl
  | createRefreshTokenId =>
      simp only [exec] at h
      split at h <;> cases h
      rfl
  | _ =>
      cases h
      rfl

/-- The surroundings move the clock forward and the servers; every other table
but the grants of a deleted server stays. -/
theorem ambient_frame (h : ambient e w = some w') :
    w'.tables.pending = w.tables.pending ∧ w'.tables.owner = w.tables.owner ∧
      w'.db.users = w.db.users ∧ w'.db.refreshTokens = w.db.refreshTokens ∧
      w'.db.setupState = w.db.setupState ∧ w.clock ≤ w'.clock ∧
      w'.bootstrapToken = w.bootstrapToken := by
  unfold ambient at h
  split at h
  next now _ =>
    split at h
    next hle =>
      cases h
      exact ⟨rfl, rfl, rfl, rfl, rfl, hle, rfl⟩
    next => cases h
  next id _ =>
    cases h
    exact ⟨rfl, rfl, rfl, rfl, rfl, le_rfl, rfl⟩
  next id _ =>
    split at h
    next => cases h
    next =>
      cases h
      exact ⟨rfl, rfl, rfl, rfl, rfl, le_rfl, rfl⟩

/-- What the database throws. -/
def Exn.isDatabase : Exn → Bool
  | .statementFailed => true
  | .uniqueViolation _ => true
  | _ => false

/-- What a step can be answered: statements throw what the database throws, and
a random integer is in its range. -/
def Responds : ∀ {β : Type}, Act β → β → Prop
  | _, .query _, b => ∀ e, b = .error e → Exn.isDatabase e = true
  | _, .begin, b => ∀ e, b = .error e → Exn.isDatabase e = true
  | _, .commit, b => ∀ e, b = .error e → Exn.isDatabase e = true
  | _, .randomInt _ max, n => n < max
  | _, _, _ => True

/-- A statement throws what a database throws. -/
theorem plan_isDatabase {α : Type} (now : Timestamp) (e : Env) (d : Db) (s : Stmt α) (x : Exn)
    (h : (plan now e d s).answer = .error x) : Exn.isDatabase x = true := by
  revert h
  cases s <;> simp only [plan, Plan.read, Plan.refuse] <;> (repeat' split) <;> intro h <;>
    cases h <;> rfl

/-- **Every step answers what it may be answered.** -/
theorem exec_responds (h : exec S p a e w = some (b, w')) : Responds a b := by
  cases a with
  | query s =>
      intro x hx
      rcases exec_query h with ⟨hb, -⟩ | ⟨hb, -⟩
      · cases hb.symm.trans hx
        rfl
      · exact plan_isDatabase _ _ _ s x (hb.symm.trans hx)
  | begin =>
      intro x hx
      rcases exec_begin h with ⟨hb, -⟩ | ⟨hb, -⟩
      · cases hb.symm.trans hx
        rfl
      · cases hb.symm.trans hx
  | commit =>
      intro x hx
      rcases exec_commit h with ⟨hb, -⟩ | ⟨hb, -⟩
      · cases hb.symm.trans hx
        rfl
      · cases hb.symm.trans hx
  | randomInt min max =>
      simp only [exec] at h
      split at h
      next hrange =>
        cases h
        exact hrange.2
      next => cases h
  | _ => trivial

end Steps

/-! ## §4. Rules for any monitor. -/

section Rules

variable {μ : Type} {M : Monitor Act μ} {α : Type} {Q : α → μ → Prop} {E : Exn → μ → Prop} {m : μ}

theorem wp_perform {a : Act α} (hallow : M.allow m a)
    (hQ : ∀ b m', M.next m a b m' → Q b m') : wp M Q E (perform a) m := ⟨hallow, hQ⟩

/-- A step that may throw. -/
theorem wp_orThrow {a : Act (Except Exn α)} (hallow : M.allow m a)
    (hok : ∀ r m', M.next m a (.ok r) m' → Q r m')
    (herror : ∀ e m', M.next m a (.error e) m' → E e m') : wp M Q E (orThrow a) m := by
  refine ⟨hallow, fun b m' hnext => ?_⟩
  cases b with
  | ok r => exact hok r m' hnext
  | error e => exact herror e m' hnext

/-- The rule of a statement. -/
theorem wp_query {s : Stmt α} (hallow : M.allow m (.query s))
    (hok : ∀ r m', M.next m (.query s) (.ok r) m' → Q r m')
    (herror : ∀ e m', M.next m (.query s) (.error e) m' → E e m') : wp M Q E (query s) m :=
  wp_orThrow hallow hok herror

/-- **Transaction rule**: `R` is what the callback returns with, `F` what it
throws with. -/
theorem wp_transaction {p : Call α} {R : α → μ → Prop} {F : Exn → μ → Prop}
    (hbegin : M.allow m .begin) (hrefused : ∀ e m', M.next m .begin (.error e) m' → E e m')
    (hp : ∀ m', M.next m .begin (.ok ()) m' → wp M R F p m')
    (hcommit : ∀ r m', R r m' → M.allow m' .commit ∧
      (∀ m'', M.next m' .commit (.ok ()) m'' → Q r m'') ∧
      ∀ e m'', M.next m' .commit (.error e) m'' → E e m'')
    (hrollback : ∀ e m', F e m' → M.allow m' .rollback ∧
      ∀ m'', M.next m' .rollback () m'' → E e m'') :
    wp M Q E (transaction p) m := by
  unfold transaction guarded
  refine wp_seq (wp_orThrow hbegin (fun _ m' hm' => ?_) hrefused)
  refine wp_seq ?_
  rw [tryCatch_eq, wp_tryCatch]
  refine wp_mono p m' (fun r m₁ hr => ?_) (fun e m₁ he => ?_) (hp m' hm')
  · obtain ⟨hallow, hok, herror⟩ := hcommit r m₁ hr
    exact wp_seq (wp_orThrow hallow (fun _ m₂ hm₂ => hok m₂ hm₂) herror)
  · obtain ⟨hallow, hdone⟩ := hrollback e m₁ he
    exact wp_seq (wp_perform hallow fun _ m₂ hm₂ => hdone m₂ hm₂)

end Rules

/-! ## §5. Who has changed the tables. -/

/-- A change of the committed tables. -/
structure Change where
  before : Db
  after : Db

/-- The changes each call has made. -/
abbrev Ledger := Pid → List Change

namespace Ledger

/-- Nothing has changed. -/
def blank : Ledger := fun _ => []

/-- A new call has changed nothing. -/
def opened (o : Ledger) (p : Pid) : Ledger := Function.update o p []

/-- A step of `p`. -/
def step (o : Ledger) (w : World) (p : Pid) (w' : World) : Ledger :=
  if w'.db = w.db then o else Function.update o p (o p ++ [⟨w.db, w'.db⟩])

theorem step_of_eq {o : Ledger} {w w' : World} {p : Pid} (h : w'.db = w.db) : o.step w p w' = o :=
  if_pos h

theorem step_of_ne {o : Ledger} {w w' : World} {p q : Pid} (h : q ≠ p) : o.step w p w' q = o q := by
  unfold step
  split
  next => rfl
  next => exact Function.update_of_ne h _ _

end Ledger

/-- Every interleaving, with the changes of every call. -/
def ledger : Watch Act World Env Op Ledger where
  onInvoke := fun o _ p _ => o.opened p
  onStep := fun o w p _ _ _ _ w' => o.step w p w'

end MinePanel.Accounts
