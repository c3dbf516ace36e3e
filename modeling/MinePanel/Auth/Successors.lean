/-
  MinePanel.Auth.Successors
  ─────────────────────────
  **WHAT OUTLIVES A LOGOUT EVERYWHERE OR A PASSWORD CHANGE.**

  Neither of the two locks the row of the user, and a password change updates
  that row and deletes the sessions in two statements.  A rotation may then
  commit between the snapshot of the DELETE and the DELETE itself, and a sign-in
  that compared the old password may store its session after the snapshot.
  Where neither happens, nothing that the call was to end can be rotated once it
  has returned.

    * `RevocationTrace.covers` — what a call is to end, with its successors;
    * `RevocationTrace.admits` — the condition on a COMMIT and on an INSERT;
    * `Cleansed` — the invariant of the runs that keep to it;
    * `revocation_final`, `lateSession_rotates`.
-/
import MinePanel.Auth.Lineage

namespace MinePanel.Accounts

open MinePanel.Db MinePanel.Lib Prog

namespace Sessions

/-! ## §1. What a call is to end. -/

/-- The user whose sessions a logout everywhere or an ordinary password change
is to end. -/
def revoked : Op → Option UserId
  | .logoutAll userId => some userId
  | .updatePassword userId _ _ _ temporaryAuth => if temporaryAuth then none else some userId
  | _ => none

/-- The current session, which a password change keeps. -/
def keeps (S : Settings) : Op → RefreshToken → Bool
  | .updatePassword _ _ _ cookie _, r =>
      (cookieJti cookie).any fun jti => r.tokenIdHash == S.sha256 jti
  | _, _ => false

/-- `loginUser`, which compares a password. -/
def comparesPassword : Op → Bool
  | .login _ _ _ => true
  | _ => false

/-- The call has updated a row of `users`. -/
def updates : ∀ {β : Type}, Act β → β → Bool
  | _, .query (.updateUser _ _ _), .ok found => found.isSome
  | _, _, _ => false

/-- The call has taken the snapshot of a DELETE, -/
def snapshots : ∀ {β : Type}, Act β → β → Bool
  | _, .query (.scanTokens _), .ok _ => true
  | _, _, _ => false

/-- and has executed it. -/
def removes : ∀ {β : Type}, Act β → β → Bool
  | _, .query (.deleteTokens _), .ok _ => true
  | _, _, _ => false

/-- A lineage with the revocations of the run. -/
structure RevocationTrace extends Lineage where
  /-- When a call has updated a row of `users`. -/
  updated : Pid → Option Nat
  /-- The revocations between the snapshot and the execution of their DELETE. -/
  deleting : List (Pid × Op)
  /-- The revocations that have executed their DELETE. -/
  deleted : List (Pid × Op)

namespace RevocationTrace

/-- Nothing has happened. -/
def blank : RevocationTrace :=
  { toLineage := Lineage.blank, updated := fun _ => none, deleting := [], deleted := [] }

/-- A new call. -/
def opened (o : RevocationTrace) (w : World) (p : Pid) : RevocationTrace where
  toLineage := o.toLineage.opened w p
  updated := Function.update o.updated p none
  deleting := o.deleting.filter fun s => s.1 != p
  deleted := o.deleted.filter fun s => s.1 != p

/-- A step of call `p`. -/
def step (o : RevocationTrace) (S : Settings) (w : World) (p : Pid) (op : Op) {β : Type}
    (a : Act β) (b : β) (w' : World) : RevocationTrace where
  toLineage := o.toLineage.step S w p op a b w'
  updated := if updates a b then Function.update o.updated p (some o.time) else o.updated
  deleting :=
    if snapshots a b && (revoked op).isSome then (p, op) :: o.deleting
    else if removes a b then o.deleting.filter fun s => s.1 != p
    else o.deleting
  deleted := if removes a b && (revoked op).isSome then (p, op) :: o.deleted else o.deleted

/-- **What call `q` is to end**: a session that goes back to one that was there
when the call was invoked, or to a `loginUser` that had read the row of the user
before the call updated it; but not the current session, nor what was rotated
from it. -/
def covers (o : RevocationTrace) (S : Settings) (q : Pid) (op : Op) (d : Descent) : Bool :=
  (o.history.rows.all fun r => !keeps S op r || decide (r.id ∉ d.line)) &&
    ((o.history.initial q).any (fun r => decide (r.id ∈ d.line)) ||
      (d.op.any comparesPassword && (o.updated q).any fun time => decide (d.read < time)))

/-- The COMMIT of a rotation: no revocation of the user between the snapshot and
the execution of its DELETE is to end the session that is rotated. -/
def admitsCommit (o : RevocationTrace) (S : Settings) (w : World) (op : Op) : Bool :=
  (parent S w op).all fun r => o.deleting.all fun s =>
    revoked s.2 != some r.userId || !o.covers S s.1 s.2 (o.descent r.id)

/-- The INSERT of a sign-in: no revocation of the user that has taken its
snapshot is to end the session that is stored. -/
def admitsInsert (o : RevocationTrace) (S : Settings) (p : Pid) (op : Op)
    (values : NewRefreshToken) : Bool :=
  (o.deleting ++ o.deleted).all fun s => revoked s.2 != some values.userId ||
    !o.covers S s.1 s.2 { op := some op, read := (o.reads p values.userId).getD 0 }

/-- **The condition on a step.** -/
def admits (o : RevocationTrace) (S : Settings) (w : World) (p : Pid) (op : Op) {β : Type}
    (a : Act β) : Bool :=
  (!isCommit a || o.admitsCommit S w op) &&
    (isRefresh op || (inserts a).all fun values => o.admitsInsert S p op values)

end RevocationTrace

/-- Every interleaving, with its revocations. -/
def revoking (S : Settings) : Watch Act World Env Op RevocationTrace where
  accepts := fun o w p op => (watch S).accepts o.history w p op
  guard := fun o w p op _ a e => fresh S o.history w p op a e
  onInvoke := fun o w p _ => o.opened w p
  onStep := fun o w p op _ a b w' => o.step S w p op a b w'
  onReboot := fun o _ _ => { o with deleting := [] }

/-- Every interleaving in which rotations and sign-ins keep to the condition. -/
def yielding (S : Settings) : Watch Act World Env Op RevocationTrace :=
  { revoking S with
    guard := fun o w p op _ a e => fresh S o.history w p op a e && o.admits S w p op a }

/-! ## §2. What is covered. -/

section Covers

variable {S : Settings} {o o' : RevocationTrace} {w w' : World} {p q : Pid} {op : Op}
  {β : Type} {a : Act β} {b : β} {d : Descent} {r : RefreshToken} {userId : UserId}

theorem covers_iff : o.covers S q op d = true ↔
    (∀ r ∈ o.history.rows, keeps S op r = true → r.id ∉ d.line) ∧
    ((∃ r ∈ o.history.initial q, r.id ∈ d.line) ∨
      ((∃ op', d.op = some op' ∧ comparesPassword op' = true) ∧
        ∃ time, o.updated q = some time ∧ d.read < time)) := by
  unfold RevocationTrace.covers
  rw [Bool.and_eq_true, Bool.or_eq_true, Bool.and_eq_true, List.all_eq_true, List.any_eq_true,
    Option.any_eq_true, Option.any_eq_true]
  simp only [Bool.or_eq_true, Bool.not_eq_true', decide_eq_true_eq]
  refine and_congr_left fun _ => forall₂_congr fun r _ => ?_
  cases keeps S op r <;> simp

/-- What is covered later was covered before. -/
theorem covers_mono (h : o'.covers S q op d = true) (hrows : o.history.rows ⊆ o'.history.rows)
    (hinitial : o'.history.initial q = o.history.initial q)
    (hupdated : o'.updated q = o.updated q) : o.covers S q op d = true := by
  rw [covers_iff] at h ⊢
  rw [hinitial, hupdated] at h
  exact ⟨fun r hr => h.1 r (hrows hr), h.2⟩

/-- What was covered before the line grew. -/
theorem covers_of_cons {id : TokenId} (hinitial : ∀ r ∈ o.history.initial q, r.id ≠ id)
    (h : o.covers S q op { d with line := id :: d.line } = true) :
    o.covers S q op d = true := by
  rw [covers_iff] at h ⊢
  refine ⟨fun r hr hkeeps hmem => h.1 r hr hkeeps (List.mem_cons_of_mem _ hmem),
    h.2.imp_left fun hold => ?_⟩
  obtain ⟨r, hr, hmem⟩ := hold
  exact ⟨r, hr, (List.mem_cons.mp hmem).resolve_left (hinitial r hr)⟩

/-- A step of another call leaves what call `q` covers. -/
theorem covers_step (hq : q ≠ p) (h : (o.step S w p op a b w').covers S q op' d = true) :
    o.covers S q op' d = true := by
  refine covers_mono h (List.subset_append_right _ _) rfl ?_
  show (if updates a b then Function.update o.updated p _ else o.updated) q = _
  split
  next => exact Function.update_of_ne hq _ _
  next => rfl

/-- So does a step of its own that updates no user. -/
theorem covers_own (hresets : resets a b = false)
    (h : (o.step S w p op a b w').covers S p op' d = true) : o.covers S p op' d = true := by
  refine covers_mono h (List.subset_append_right _ _) rfl ?_
  show (if updates a b then Function.update o.updated p _ else o.updated) p = _
  rw [if_neg]
  intro hupdates
  cases a with
  | query s =>
      cases s with
      | updateUser id cond set =>
          cases b with
          | error x => cases hupdates
          | ok found => cases hresets
      | _ => cases hupdates
  | _ => cases hupdates

theorem revoked_plain (h : revoked op = some userId) :
    isRefresh op = false ∧ presented op = none ∧ comparesPassword op = false := by
  cases op with
  | logoutAll u => exact ⟨rfl, rfl, rfl⟩
  | updatePassword u oldPassword newPassword cookie temporaryAuth => exact ⟨rfl, rfl, rfl⟩
  | _ => cases h

/-- **What is covered, the call is to delete.** -/
theorem revokes_of_covers (hrevoked : revoked op = some userId) (huser : r.userId = userId)
    (hr : r ∈ o.history.rows) (hline : r.id ∈ d.line) (h : o.covers S q op d = true) :
    Op.Revokes S none r op := by
  have hkept : keeps S op r = true → False := fun hk => (covers_iff.mp h).1 r hr hk hline
  cases op with
  | logoutAll u =>
      obtain rfl : u = userId := Option.some.inj hrevoked
      exact huser
  | updatePassword u oldPassword newPassword cookie temporaryAuth =>
      cases temporaryAuth with
      | true => cases hrevoked
      | false =>
          obtain rfl : u = userId := Option.some.inj hrevoked
          refine ⟨huser, fun _ jti hjti hhash => hkept ?_⟩
          show (cookieJti cookie).any _ = true
          rw [hjti, Option.any_some, hhash]
          exact beq_self_eq_true _
  | _ => cases hrevoked

end Covers

/-! ## §3. The invariant. -/

/-- The snapshot has everything that the operation is to delete. -/
def Complete (S : Settings) (op : Op) (cond : RefreshToken → Bool) : Prop :=
  ∀ r, Op.Revokes S none r op → cond r = true

/-- **The invariant of revocations that nothing slips past.** -/
structure Cleansed (S : Settings) (w : World) (o : RevocationTrace) (gs : Pid → Trail) :
    Prop where
  tidy : Tidy S w o.history gs
  past : ∀ x ∈ o.renewals, x.time < o.time
  line : ∀ r ∈ w.db.refreshTokens.rows, r.id ∈ (o.descent r.id).line
  /-- A revocation with a snapshot is on one of the lists. -/
  deleting : ∀ {q op userId s}, (gs q).op = some op → revoked op = some userId →
    (gs q).scanned = some s → (q, op) ∈ o.deleting ∨ (gs q).purged = some s
  deleted : ∀ {q op userId s}, (gs q).op = some op → revoked op = some userId →
    (gs q).purged = some s → (q, op) ∈ o.deleted
  /-- What it is to end is in its snapshot, -/
  scanned : ∀ {q op userId cond ids r}, (gs q).op = some op → revoked op = some userId →
    (gs q).scanned = some (cond, ids) → Complete S op cond → r ∈ w.db.refreshTokens.rows →
    r.userId = userId → o.covers S q op (o.descent r.id) = true → r.id ∈ ids ∨ Condemned w q r
  /-- and its DELETE has removed it. -/
  purged : ∀ {q op userId cond ids r}, (gs q).op = some op → revoked op = some userId →
    (gs q).purged = some (cond, ids) → Complete S op cond → r ∈ w.db.refreshTokens.rows →
    r.userId = userId → o.covers S q op (o.descent r.id) = true → Condemned w q r

section Invariant

variable {S : Settings} {o : RevocationTrace} {w w' : World} {gs : Pid → Trail} {p q : Pid}
  {op op' : Op} {β : Type} {a : Act β} {e : Env} {b : β} {r : RefreshToken} {userId : UserId}

namespace Cleansed

theorem boot {d : Db} (hd : d.refreshTokens = Table.empty) (S : Settings) (clock : Timestamp) :
    Cleansed S (World.boot d clock) RevocationTrace.blank fun _ => Trail.idle where
  tidy := Tidy.boot hd S clock
  past := fun _ h => absurd h List.not_mem_nil
  line := by
    intro r hr
    have hrows : r ∈ d.refreshTokens.rows := hr
    rw [hd] at hrows
    exact absurd hrows List.not_mem_nil
  deleting := fun h => by cases h
  deleted := fun h => by cases h
  scanned := fun h => by cases h
  purged := fun h => by cases h

/-- The sessions that were there when a call was invoked do not arrive again. -/
theorem initial_ne (h : Cleansed S w o gs) {r₀ : RefreshToken} (hr₀ : r₀ ∈ o.history.initial q)
    (hr : InFlight w r ∨ r.id ∉ o.history.rows.map RefreshToken.id) : r₀.id ≠ r.id := by
  intro hid
  obtain ⟨hknown, hfree⟩ := h.tidy.once (.inl ⟨q, hr₀⟩)
  rcases hr with hflight | hnew
  · refine hfree ?_
    rw [h.tidy.kept.base.issued.eq_of_id hknown (h.tidy.kept.base.known (.inr hflight)) hid]
    exact hflight
  · exact hnew (List.mem_map.mpr ⟨r₀, hknown, hid⟩)

/-- **A covered session that arrives was rotated from a covered one**, and not
while the call is between its snapshot and its DELETE. -/
theorem covered_arrival (h : Cleansed S w o gs) (hinj : Function.Injective S.sha256)
    (hop : (gs p).op = some op) (hallow : (gs p).Handles S op a)
    (hg : fresh S o.history w p op a e = true) (hadmits : o.admits S w p op a = true)
    (hx : exec S p a e w = some (b, w')) (hrevoked : revoked op' = some userId)
    (hlisted : (q, op') ∈ o.deleting ∨ (q, op') ∈ o.deleted) (hr : r ∈ arrivals w w')
    (huser : r.userId = userId) (hcovers : o.covers S q op' (o.descends S w p op r) = true) :
    ∃ shown ∈ w.db.refreshTokens.rows, shown.userId = userId ∧
      o.covers S q op' (o.descent shown.id) = true ∧
      w.tables.owner (.token shown.id) = some p ∧ (q, op') ∉ o.deleting := by
  unfold RevocationTrace.admits at hadmits
  obtain ⟨hcommit, hinsert⟩ := Bool.and_eq_true_iff.mp hadmits
  rcases arrival_cases h.tidy hinj hop hallow hg hx hr with
    ⟨-, hcommits, shown, hrenews⟩ | ⟨hrefresh, hnew, values, hinserts, hvalues⟩
  · rw [descends_renewed hrenews.parent] at hcovers
    have hshown : o.covers S q op' (o.descent shown.id) = true :=
      covers_of_cons (fun r₀ hr₀ => h.initial_ne hr₀ (.inl hrenews.inFlight)) hcovers
    have huser' : shown.userId = userId := hrenews.user.symm.trans huser
    refine ⟨shown, hrenews.there, huser', hshown, hrenews.tokenHeld, fun hmem => ?_⟩
    rw [hcommits, Bool.not_true, Bool.false_or] at hcommit
    unfold RevocationTrace.admitsCommit at hcommit
    rw [hrenews.parent, Option.all_some, List.all_eq_true] at hcommit
    have hor := hcommit _ hmem
    rw [hrevoked, huser', hshown, bne_self_eq_false] at hor
    cases hor
  · -- a sign-in that stores such a session would break the condition
    exfalso
    rw [hrefresh, hinserts, Bool.false_or, Option.all_some] at hinsert
    unfold RevocationTrace.admitsInsert at hinsert
    rw [List.all_eq_true] at hinsert
    have hor := hinsert _ (List.mem_append.mpr hlisted)
    rw [hrevoked, ← hvalues, huser, bne_self_eq_false, Bool.false_or] at hor
    rw [descends_signed hrefresh, huser] at hcovers
    have hcovers' := covers_of_cons (d := { op := some op, read := (o.reads p userId).getD 0 })
      (fun r₀ hr₀ => h.initial_ne hr₀ (.inr hnew)) hcovers
    rw [hcovers'] at hor
    cases hor

/-- **No covered session arrives while a call relies on its snapshot.** -/
theorem no_arrival (h : Cleansed S w o gs) (hinj : Function.Injective S.sha256)
    (hop : (gs p).op = some op) (hallow : (gs p).Handles S op a)
    (hg : fresh S o.history w p op a e = true) (hadmits : o.admits S w p op a = true)
    (hx : exec S p a e w = some (b, w')) (hq : q ≠ p) (hop' : (gs q).op = some op')
    (hrevoked : revoked op' = some userId) {cond : RefreshToken → Bool} {ids : List TokenId}
    (hsnap : (gs q).scanned = some (cond, ids) ∨ (gs q).purged = some (cond, ids))
    (hcomplete : Complete S op' cond) (hr : r ∈ arrivals w w') (huser : r.userId = userId)
    (hcovers : o.covers S q op' (o.descends S w p op r) = true) : False := by
  have hpurged : (q, op') ∉ o.deleting → (gs q).purged = some (cond, ids) := by
    intro hmem
    rcases hsnap with hsnap | hsnap
    · exact (h.deleting hop' hrevoked hsnap).resolve_left hmem
    · exact hsnap
  have hlisted : (q, op') ∈ o.deleting ∨ (q, op') ∈ o.deleted := by
    by_cases hmem : (q, op') ∈ o.deleting
    · exact .inl hmem
    · exact .inr (h.deleted hop' hrevoked (hpurged hmem))
  obtain ⟨shown, hthere, huser', hshown, howner, hmem⟩ :=
    h.covered_arrival hinj hop hallow hg hadmits hx hrevoked hlisted hr huser hcovers
  -- the call has deleted the presented session, and the rotation has locked it
  have hcondemned := h.purged hop' hrevoked (hpurged hmem) hcomplete hthere huser' hshown
  have howner' := hcondemned.held h.tidy.kept.base.sound
  rw [howner, Option.some.injEq] at howner'
  exact hq howner'.symm

/-- A covered session, after a step of the call itself. -/
theorem old_own (h : Cleansed S w o gs) (hinj : Function.Injective S.sha256)
    (hop : (gs p).op = some op) (hallow : (gs p).Handles S op a)
    (hg : fresh S o.history w p op a e = true) (hx : exec S p a e w = some (b, w'))
    (hrevoked : revoked op = some userId) (hr : r ∈ w'.db.refreshTokens.rows)
    (hcovers : (o.step S w p op a b w').covers S p op
      ((o.step S w p op a b w').descent r.id) = true) : r ∈ w.db.refreshTokens.rows := by
  obtain ⟨hrefresh, -, hcompares⟩ := revoked_plain hrevoked
  have h' := (h.tidy.step hinj hop hallow hg hx).kept.base
  refine (old_or_arrival h.tidy.kept.base h' (List.subset_append_right _ _) hr).resolve_right
    fun harrives => ?_
  rcases arrival_cases h.tidy hinj hop hallow hg hx harrives with ⟨hrefresh', -⟩ |
    ⟨-, hnew, -⟩
  · rw [hrefresh] at hrefresh'
    cases hrefresh'
  · rw [show (o.step S w p op a b w').descent r.id = o.descends S w p op r from
      descent_new harrives, descends_signed hrefresh] at hcovers
    obtain ⟨-, ⟨r₀, hr₀, hmem⟩ | ⟨⟨op', hop', hlogin⟩, -⟩⟩ := covers_iff.mp hcovers
    · exact h.initial_ne hr₀ (.inr hnew) (List.mem_singleton.mp hmem)
    · obtain rfl : op = op' := Option.some.inj hop'
      rw [hcompares] at hlogin
      cases hlogin

/-- The lists, after a step of their call. -/
theorem deleting_own (h : Cleansed S w o gs) (hop : (gs p).op = some op)
    (hallow : (gs p).Handles S op a) (hrevoked : revoked op = some userId)
    {s : (RefreshToken → Bool) × List TokenId} (hs : ((gs p).next a b).scanned = some s) :
    (p, op) ∈ (o.step S w p op a b w').deleting ∨ ((gs p).next a b).purged = some s := by
  have hkeep : snapshots a b = false → removes a b = false → (gs p).scanned = some s →
      ((gs p).next a b).purged = (gs p).purged →
      (p, op) ∈ (o.step S w p op a b w').deleting ∨ ((gs p).next a b).purged = some s := by
    intro hsnapshots hremoves hs hpurged
    show (p, op) ∈ (if snapshots a b && _ then _ else if removes a b then _ else o.deleting) ∨ _
    rw [hsnapshots, hremoves, hpurged]
    exact h.deleting hop hrevoked hs
  cases a with
  | query st =>
      cases b with
      | error x => exact hkeep (by cases st <;> rfl) (by cases st <;> rfl) hs rfl
      | ok found =>
          cases st with
          | scanTokens cond =>
              left
              show (p, op) ∈ (if true && (revoked op).isSome then _ else _)
              rw [hrevoked]
              exact List.mem_cons_self
          | deleteTokens ids =>
              right
              rcases hallow with ⟨-, -, claims, -, -, -, hclaims, -⟩ | ⟨cond, hscanned, -⟩
              · rw [(revoked_plain hrevoked).2.1] at hclaims
                cases hclaims
              · obtain rfl : (cond, ids) = s := Option.some.inj (hscanned.symm.trans hs)
                show (gs p).scanned.filter _ = _
                rw [hscanned, Option.filter_some, if_pos (decide_eq_true rfl)]
          | updateUser id cond set => cases hs
          | _ => exact hkeep rfl rfl hs rfl
  | begin =>
      cases b with
      | error x => exact hkeep rfl rfl hs rfl
      | ok _ => cases hs
  | commit =>
      cases b with
      | error x => cases hs
      | ok _ => exact hkeep rfl rfl hs rfl
  | rollback => cases hs
  | sign payload ttl => cases payload <;> exact hkeep rfl rfl hs rfl
  | _ => exact hkeep rfl rfl hs rfl

theorem deleted_own (h : Cleansed S w o gs) (hop : (gs p).op = some op)
    (hrevoked : revoked op = some userId) {s : (RefreshToken → Bool) × List TokenId}
    (hs : ((gs p).next a b).purged = some s) : (p, op) ∈ (o.step S w p op a b w').deleted := by
  have hkeep : removes a b = false → (gs p).purged = some s →
      (p, op) ∈ (o.step S w p op a b w').deleted := by
    intro hremoves hs
    show (p, op) ∈ (if removes a b && _ then _ else o.deleted)
    rw [hremoves]
    exact h.deleted hop hrevoked hs
  cases a with
  | query st =>
      cases b with
      | error x => exact hkeep (by cases st <;> rfl) hs
      | ok found =>
          cases st with
          | deleteTokens ids =>
              show (p, op) ∈ (if true && (revoked op).isSome then _ else _)
              rw [hrevoked]
              exact List.mem_cons_self
          | updateUser id cond set => cases hs
          | _ => exact hkeep rfl hs
  | begin =>
      cases b with
      | error x => exact hkeep rfl hs
      | ok _ => cases hs
  | commit =>
      cases b with
      | error x => cases hs
      | ok _ => exact hkeep rfl hs
  | rollback => cases hs
  | sign payload ttl => cases payload <;> exact hkeep rfl hs
  | _ => exact hkeep rfl hs

/-- The lists, after a step of another call. -/
theorem deleting_other (hq : q ≠ p) (h : (q, op') ∈ o.deleting) :
    (q, op') ∈ (o.step S w p op a b w').deleting := by
  show (q, op') ∈ (if _ then _ else if _ then _ else _)
  split
  next => exact List.mem_cons_of_mem _ h
  next =>
    split
    next => exact List.mem_filter.mpr ⟨h, bne_iff_ne.mpr hq⟩
    next => exact h

theorem deleted_other (h : (q, op') ∈ o.deleted) :
    (q, op') ∈ (o.step S w p op a b w').deleted := by
  show (q, op') ∈ (if _ then _ else _)
  split
  next => exact List.mem_cons_of_mem _ h
  next => exact h

/-- A line ends in its session. -/
theorem line_step (h : Cleansed S w o gs) (hinj : Function.Injective S.sha256)
    (hop : (gs p).op = some op) (hallow : (gs p).Handles S op a)
    (hg : fresh S o.history w p op a e = true) (hx : exec S p a e w = some (b, w'))
    (hr : r ∈ w'.db.refreshTokens.rows) :
    r.id ∈ ((o.step S w p op a b w').descent r.id).line := by
  have h' := (h.tidy.step hinj hop hallow hg hx).kept.base
  rcases old_or_arrival h.tidy.kept.base h' (List.subset_append_right _ _) hr with
    hthere | harrives
  · rw [show (o.step S w p op a b w').descent r.id = o.descent r.id from descent_old hthere]
    exact h.line r hthere
  · rw [show (o.step S w p op a b w').descent r.id = o.descends S w p op r from
      descent_new harrives]
    unfold Lineage.descends
    split <;> exact List.mem_cons_self

/-- **A step of call `p`.** -/
theorem step (h : Cleansed S w o gs) (hinj : Function.Injective S.sha256)
    (hop : (gs p).op = some op) (hallow : (gs p).Handles S op a)
    (hg : fresh S o.history w p op a e = true) (hadmits : o.admits S w p op a = true)
    (hx : exec S p a e w = some (b, w')) :
    Cleansed S w' (o.step S w p op a b w') (Function.update gs p ((gs p).next a b)) := by
  have htidy := h.tidy.step hinj hop hallow hg hx
  have hrows : o.history.rows ⊆ (o.history.step w p op a b w').rows :=
    List.subset_append_right _ _
  -- what another call covers after the step was there, and covered, before
  have hother : ∀ {q op' userId cond ids r}, q ≠ p → (gs q).op = some op' →
      revoked op' = some userId →
      ((gs q).scanned = some (cond, ids) ∨ (gs q).purged = some (cond, ids)) →
      Complete S op' cond → r ∈ w'.db.refreshTokens.rows → r.userId = userId →
      (o.step S w p op a b w').covers S q op' ((o.step S w p op a b w').descent r.id) = true →
      r ∈ w.db.refreshTokens.rows ∧ o.covers S q op' (o.descent r.id) = true := by
    intro q op' userId cond ids r hq hop' hrevoked hsnap hcomplete hr huser hcovers
    have hcovers := covers_step hq hcovers
    rcases old_or_arrival h.tidy.kept.base htidy.kept.base hrows hr with hthere | harrives
    · rw [show (o.step S w p op a b w').descent r.id = o.descent r.id from
        descent_old hthere] at hcovers
      exact ⟨hthere, hcovers⟩
    · rw [show (o.step S w p op a b w').descent r.id = o.descends S w p op r from
        descent_new harrives] at hcovers
      exact (h.no_arrival hinj hop hallow hg hadmits hx hq hop' hrevoked hsnap hcomplete harrives
        huser hcovers).elim
  -- so was what the call itself covers
  have hown : ∀ {userId r}, revoked op = some userId → resets a b = false →
      r ∈ w'.db.refreshTokens.rows →
      (o.step S w p op a b w').covers S p op ((o.step S w p op a b w').descent r.id) = true →
      r ∈ w.db.refreshTokens.rows ∧ o.covers S p op (o.descent r.id) = true := by
    intro userId r hrevoked hresets hr hcovers
    have hthere := h.old_own hinj hop hallow hg hx hrevoked hr hcovers
    rw [show (o.step S w p op a b w').descent r.id = o.descent r.id from
      descent_old hthere] at hcovers
    exact ⟨hthere, covers_own hresets hcovers⟩
  have hnamed : ∀ {op'}, (Function.update gs p ((gs p).next a b) p).op = some op' → op = op' := by
    intro op' hop'
    rw [Function.update_self, Trail.next_op, hop] at hop'
    exact Option.some.inj hop'
  refine ⟨htidy, fun x hmem => ?_, fun r hr => h.line_step hinj hop hallow hg hx hr,
    fun {q op' userId s} hop' hrevoked hs => ?_, fun {q op' userId s} hop' hrevoked hs => ?_,
    fun {q op' userId cond ids r} hop' hrevoked hs hcomplete hr huser hcovers => ?_,
    fun {q op' userId cond ids r} hop' hrevoked hs hcomplete hr huser hcovers => ?_⟩
  · rcases List.mem_append.mp hmem with hnew | hold
    · rw [(renewed_cases h.tidy.kept hinj hop hallow hx hnew).1]
      exact Nat.lt_succ_self _
    · exact (h.past x hold).trans (Nat.lt_succ_self _)
  · by_cases hq : q = p
    · subst hq
      obtain rfl := hnamed hop'
      rw [Function.update_self] at hs ⊢
      exact h.deleting_own hop hallow hrevoked hs
    · rw [Function.update_of_ne hq] at hop' hs ⊢
      exact (h.deleting hop' hrevoked hs).imp_left (deleting_other hq)
  · by_cases hq : q = p
    · subst hq
      obtain rfl := hnamed hop'
      rw [Function.update_self] at hs
      exact h.deleted_own hop hrevoked hs
    · rw [Function.update_of_ne hq] at hop' hs
      exact deleted_other (h.deleted hop' hrevoked hs)
  · by_cases hq : q = p
    · subst hq
      obtain rfl := hnamed hop'
      rw [Function.update_self] at hs
      cases hresets : resets a b with
      | true =>
          rw [(next_resets (gs q) hresets).1] at hs
          cases hs
      | false =>
          obtain ⟨hthere, hbefore⟩ := hown hrevoked hresets hr hcovers
          have hcond := hcomplete r (revokes_of_covers hrevoked huser
            (h.tidy.kept.base.known (.inl hthere)) (h.line r hthere) hbefore)
          exact scanned_after h.tidy htidy.kept.base hrows hg hx hs hthere hr hcond fun hold =>
            h.scanned hop hrevoked hold hcomplete hthere huser hbefore
    · rw [Function.update_of_ne hq] at hop' hs
      obtain ⟨hthere, hbefore⟩ := hother hq hop' hrevoked (.inl hs) hcomplete hr huser hcovers
      exact (h.scanned hop' hrevoked hs hcomplete hthere huser hbefore).imp_right
        fun hcondemned => condemned_other hcondemned hq hx
  · by_cases hq : q = p
    · subst hq
      obtain rfl := hnamed hop'
      rw [Function.update_self] at hs
      cases hresets : resets a b with
      | true =>
          rw [(next_resets (gs q) hresets).2] at hs
          cases hs
      | false =>
          obtain ⟨hthere, hbefore⟩ := hown hrevoked hresets hr hcovers
          exact purged_after h.tidy htidy.kept.base hrows hg hx hs hthere hr
            (fun hold => h.purged hop hrevoked hold hcomplete hthere huser hbefore)
            fun hscanned => h.scanned hop hrevoked hscanned hcomplete hthere huser hbefore
    · rw [Function.update_of_ne hq] at hop' hs
      obtain ⟨hthere, hbefore⟩ := hother hq hop' hrevoked (.inr hs) hcomplete hr huser hcovers
      exact condemned_other (h.purged hop' hrevoked hs hcomplete hthere huser hbefore) hq hx

/-- A new call covers nothing yet, and the others what they did. -/
theorem invoke (h : Cleansed S w o gs) (hp : gs p = Trail.idle)
    (ha : (watch S).accepts o.history w p op = true) :
    Cleansed S w (o.opened w p) (Function.update gs p (Trail.fresh op)) := by
  have hcovers : ∀ {q op' d}, q ≠ p → (o.opened w p).covers S q op' d = true →
      o.covers S q op' d = true := fun hq hcovers =>
    covers_mono hcovers (List.Subset.refl _) (Function.update_of_ne hq _ _)
      (Function.update_of_ne hq _ _)
  have hne : ∀ {q s}, ((Function.update gs p (Trail.fresh op) q).scanned = some s ∨
      (Function.update gs p (Trail.fresh op) q).purged = some s) → q ≠ p := by
    rintro q s hs rfl
    rw [Function.update_self] at hs
    rcases hs with hs | hs <;> cases hs
  have hfilter : ∀ {q op'} {list : List (Pid × Op)}, q ≠ p → (q, op') ∈ list →
      (q, op') ∈ list.filter fun s => s.1 != p :=
    fun hq hmem => List.mem_filter.mpr ⟨hmem, bne_iff_ne.mpr hq⟩
  refine ⟨h.tidy.invoke hp ha, h.past, h.line, fun {q op' userId s} hop' hrevoked hs => ?_,
    fun {q op' userId s} hop' hrevoked hs => ?_,
    fun {q op' userId cond ids r} hop' hrevoked hs hcomplete hr huser hcov => ?_,
    fun {q op' userId cond ids r} hop' hrevoked hs hcomplete hr huser hcov => ?_⟩
  · have hq := hne (.inl hs)
    rw [Function.update_of_ne hq] at hop' hs ⊢
    exact (h.deleting hop' hrevoked hs).imp_left (hfilter hq)
  · have hq := hne (.inr hs)
    rw [Function.update_of_ne hq] at hop' hs
    exact hfilter hq (h.deleted hop' hrevoked hs)
  · have hq := hne (.inl hs)
    rw [Function.update_of_ne hq] at hop' hs
    exact h.scanned hop' hrevoked hs hcomplete hr huser (hcovers hq hcov)
  · have hq := hne (.inr hs)
    rw [Function.update_of_ne hq] at hop' hs
    exact h.purged hop' hrevoked hs hcomplete hr huser (hcovers hq hcov)

theorem ambient (h : Cleansed S w o gs) (hx : Accounts.ambient e w = some w') :
    Cleansed S w' o gs := by
  obtain ⟨hpending, -, -, htokens, -⟩ := ambient_frame hx
  have hcondemned : ∀ {q r}, Condemned w q r → Condemned w' q r := by
    intro q r hr
    unfold Condemned at hr ⊢
    rwa [hpending]
  refine ⟨h.tidy.ambient hx, h.past, fun r hr => ?_, h.deleting, h.deleted,
    fun {q op' userId cond ids r} hop' hrevoked hs hcomplete hr huser hcov => ?_,
    fun {q op' userId cond ids r} hop' hrevoked hs hcomplete hr huser hcov => ?_⟩
  · rw [htokens] at hr
    exact h.line r hr
  · rw [htokens] at hr
    exact (h.scanned hop' hrevoked hs hcomplete hr huser hcov).imp_right hcondemned
  · rw [htokens] at hr
    exact hcondemned (h.purged hop' hrevoked hs hcomplete hr huser hcov)

/-- A reboot keeps what was deleted outside of transactions. -/
theorem reboot (h : Cleansed S w o gs) (hx : Accounts.reboot e w = some w') (alive : Pid → Bool)
    (hended : ∀ p op, alive p = true → (gs p).op = some op → isRefresh op = true →
      (gs p).stage = .idle ∨ ∃ stored values, (gs p).stage = .rotated stored values) :
    Cleansed S w' { o with deleting := [] } fun p =>
      if alive p then (gs p).settle else Trail.idle := by
  have hscanned : ∀ p, (if alive p then (gs p).settle else Trail.idle).scanned = none := by
    intro p
    split
    next => rfl
    next => rfl
  have hpurged : ∀ {p s}, (if alive p then (gs p).settle else Trail.idle).purged = some s →
      (if alive p then (gs p).settle else Trail.idle).op = (gs p).op ∧
        (gs p).inside = false ∧ (gs p).purged = some s := by
    intro p s hs
    split at hs
    next halive =>
      rw [if_pos halive]
      have hs : (if (gs p).inside then none else (gs p).purged) = some s := hs
      split at hs
      next => cases hs
      next hout => exact ⟨rfl, Bool.eq_false_iff.mpr hout, hs⟩
    next => cases hs
  have hdb : w'.db = w.db := by
    cases hx
    rfl
  refine ⟨h.tidy.reboot hx alive hended, h.past, fun r hr => ?_,
    fun {q op' userId s} hop' hrevoked hs => ?_, fun {q op' userId s} hop' hrevoked hs => ?_,
    fun {q op' userId cond ids r} hop' hrevoked hs => ?_,
    fun {q op' userId cond ids r} hop' hrevoked hs hcomplete hr huser hcov => ?_⟩
  · rw [hdb] at hr
    exact h.line r hr
  · rw [hscanned] at hs
    cases hs
  · obtain ⟨hsame, -, hs⟩ := hpurged hs
    rw [hsame] at hop'
    exact h.deleted hop' hrevoked hs
  · rw [hscanned] at hs
    cases hs
  · obtain ⟨hsame, hout, hs⟩ := hpurged hs
    rw [hsame] at hop'
    rw [hdb] at hr
    have hin := (h.purged hop' hrevoked hs hcomplete hr huser hcov).inside h.tidy.kept.base
    rw [hout] at hin
    cases hin

end Cleansed

end Invariant

/-! ## §4. Runs. -/

section Runs

variable {S : Settings} {d : Db} {clock : Timestamp} {c c' : Conf} {o o' : RevocationTrace}
  {q : Pid} {op : Op} {reply : Reply} {userId : UserId}

/-- The invariant holds in every run that keeps to the condition. -/
theorem cleansed_run (hinj : Function.Injective S.sha256) (hd : d.refreshTokens = Table.empty)
    (h : (system S).Reach (yielding S) (Config.init (World.boot d clock)) RevocationTrace.blank
      c o) : ∃ gs, Cleansed S c.world o gs ∧ Trails S c gs := by
  refine trailed_run (V := yielding S) (Cleansed S) (fun hI hidle ha => hI.invoke hidle ha)
    (fun hI hop hallow hg hx => ?_) (fun hI hx => hI.ambient hx)
    (fun {w o gs e w'} alive hI hx hended => hI.reboot (e := e) hx alive (ended_stages hended))
    (Cleansed.boot hd S clock) h
  obtain ⟨hg, hadmits⟩ := Bool.and_eq_true_iff.mp hg
  exact hI.step hinj hop hallow hg hadmits hx

/-- **Once the call has returned, nothing that it was to end is committed.** -/
theorem none_covered {gs : Pid → Trail} (hI : Cleansed S c.world o gs) (hT : Trails S c gs)
    (hreturned : c.returned q op reply) (hrevoked : revoked op = some userId)
    {r : RefreshToken} (hr : r ∈ c.world.db.refreshTokens.rows) (huser : r.userId = userId) :
    o.covers S q op (o.descent r.id) = false := by
  rw [Bool.eq_false_iff]
  intro hcovers
  obtain ⟨hended, hop⟩ := hT.returned hreturned
  obtain ⟨hout, cond, ids, hpurged, -⟩ := hended.cleared r (revokes_of_covers hrevoked huser
    (hI.tidy.kept.base.known (.inl hr)) (hI.line r hr) hcovers)
  have hcomplete : Complete S op cond := by
    intro r' hr'
    obtain ⟨-, cond', ids', hpurged', hcond⟩ := hended.cleared r' hr'
    obtain ⟨rfl, -⟩ := Prod.mk.inj (Option.some.inj (hpurged.symm.trans hpurged'))
    exact hcond
  have hin := (hI.purged hop hrevoked hpurged hcomplete hr huser hcovers).inside
    hI.tidy.kept.base
  rw [hout] at hin
  cases hin

/-- **NOTHING OUTLIVES A REVOCATION, WHERE NOTHING SLIPS PAST ITS DELETE.**  In
every run whose steps all meet `RevocationTrace.admits`, whatever else is
interleaved: from the moment a logout everywhere or an ordinary password change
has returned, no rotation is accepted of a session that goes back to one from
before the call, or to a `loginUser` that compared the password before the call
changed it; except, after a password change, of the current session and of what
was rotated from it. -/
theorem revocation_final (hinj : Function.Injective S.sha256)
    (hd : d.refreshTokens = Table.empty)
    (h : (system S).Reach (yielding S) (Config.init (World.boot d clock)) RevocationTrace.blank
      c o) (hreturned : c.returned q op reply) (hrevoked : revoked op = some userId)
    (h' : (system S).Reach (yielding S) c o c' o') :
    ∀ x ∈ o'.renewals, o.time ≤ x.time → x.userId = userId →
      o'.covers S q op x.shown = false := by
  -- along the second run: a step of another call covers no more than before
  induction h' with
  | refl =>
      intro x hmem hlater
      obtain ⟨gs, hI, -⟩ := cleansed_run hinj hd h
      exact absurd (hI.past x hmem) (not_lt.mpr hlater)
  | @invoke c₁ o₁ p op₁ hrun hp ha ih =>
      intro x hmem hlater huser
      have hq : q ≠ p := by
        rintro rfl
        rw [hrun.returned hreturned] at hp
        cases hp
      refine Bool.eq_false_iff.mpr fun hcovers => Bool.eq_false_iff.mp (ih x hmem hlater huser) ?_
      exact covers_mono hcovers (List.Subset.refl _) (Function.update_of_ne hq _ _)
        (Function.update_of_ne hq _ _)
  | @step c₁ o₁ p op₁ β a k e b w' hrun hp hg hx ih =>
      intro x hmem hlater huser
      have hthere := hrun.returned hreturned
      have hq : q ≠ p := by
        rintro rfl
        rw [hthere] at hp
        cases hp
      refine Bool.eq_false_iff.mpr fun hcovers => ?_
      have hcovers := covers_step hq hcovers
      obtain ⟨gs, hI, hT⟩ := cleansed_run hinj hd (h.trans hrun)
      have hallow := hT.allow hp
      rcases List.mem_append.mp hmem with hnew | hold
      · obtain ⟨-, -, -, shown, hrow, -, hsame, hshown⟩ :=
          renewed_cases hI.tidy.kept hinj hallow.2 hallow.1 hx hnew
        rw [hshown, none_covered hI hT hthere hrevoked hrow (hsame.symm.trans huser)] at hcovers
        cases hcovers
      · rw [ih x hold hlater huser] at hcovers
        cases hcovers
  | ambient _ _ ih => exact ih
  | reboot _ _ ih => exact ih

end Runs

/-- Alice changes her password, from her first session. -/
def aliceChanges : Op := .updatePassword 1 "old-password" "new-password" aliceCookie false

/-- The steps of that call. -/
def changing (p : Pid) : List (Event Env Op) :=
  [.invoke p aliceChanges, .step p {}, .step p { text := "$2b$10$zyxwvutsrqponmlkjihgfe" },
   .step p {}, .step p {}, .step p {}]

/-- A second sign-in, as call `p`, until it has compared the old password, -/
def aliceCompares (p : Pid) : List (Event Env Op) :=
  [.invoke p (.login "alice" "old-password" none), .step p {}, .step p {}]

/-- and the rest of it. -/
def aliceStores (p : Pid) (jti : String) (id : TokenId) : List (Event Env Op) :=
  [.step p { text := jti }, .step p {}, .step p {}, .step p {}, .step p { uuid := id }]

/-- It compares the old password, and the change runs through. -/
def lateSession : List (Event Env Op) :=
  aliceSignsIn 0 jti₁ 11 ++ aliceCompares 1 ++ changing 2

/-- It stores its session, which is rotated. -/
def lateSessionRest : List (Event Env Op) :=
  aliceStores 1 jti₂ 12 ++ renewing 3 (some (.signed ⟨.refresh 1 jti₂ false, 1700604800⟩)) jti₃ 13

/-- **A session of the old password outlives the change of the password.** -/
theorem lateSession_rotates : ∃ c o c' o' reply x,
    (system sampleSettings).Reach (revoking sampleSettings) (Config.init sampleWorld)
      RevocationTrace.blank c o ∧
    c.returned 2 aliceChanges reply ∧
    (system sampleSettings).Reach (revoking sampleSettings) c o c' o' ∧
    x ∈ o'.renewals ∧ o.time ≤ x.time ∧ x.userId = 1 ∧
    o'.covers sampleSettings 2 aliceChanges x.shown = true := by
  obtain ⟨c, o, c', o', h, h', ht⟩ := System.Reach.of_replays (S := system sampleSettings)
    (V := revoking sampleSettings) sampleWorld RevocationTrace.blank lateSession lateSessionRest
    (fun c o _ o' => decide ((c.result 2).map Prod.fst = some aliceChanges) &&
      o'.renewals.any fun x => decide (o.time ≤ x.time) && decide (x.userId = 1) &&
        o'.covers sampleSettings 2 aliceChanges x.shown) (by decide +kernel)
  rw [Bool.and_eq_true, List.any_eq_true, decide_eq_true_eq] at ht
  obtain ⟨hresult, x, hmem, hx⟩ := ht
  rw [Bool.and_eq_true, Bool.and_eq_true, decide_eq_true_eq, decide_eq_true_eq] at hx
  obtain ⟨⟨hlater, huser⟩, hcovers⟩ := hx
  obtain ⟨⟨op, reply⟩, hreply, hop⟩ := Option.map_eq_some_iff.mp hresult
  obtain rfl : op = aliceChanges := hop
  exact ⟨c, o, c', o', reply, x, h, Config.returned_of_result hreply, h', hmem, hlater, huser,
    hcovers⟩

/-- She signs in twice and changes her password from the first session. -/
def keptSession : List (Event Env Op) :=
  aliceSignsIn 0 jti₁ 11 ++ aliceSignsIn 1 jti₂ 12 ++ changing 2

/-- The first session is rotated afterwards. -/
theorem keptSession_rotates : ∃ c o c' o' reply x,
    (system sampleSettings).Reach (yielding sampleSettings) (Config.init sampleWorld)
      RevocationTrace.blank c o ∧
    c.returned 2 aliceChanges reply ∧
    (system sampleSettings).Reach (yielding sampleSettings) c o c' o' ∧
    x ∈ o'.renewals ∧ o.time ≤ x.time ∧ x.userId = 1 ∧
    o'.covers sampleSettings 2 aliceChanges x.shown = false := by
  obtain ⟨c, o, c', o', h, h', ht⟩ := System.Reach.of_replays (S := system sampleSettings)
    (V := yielding sampleSettings) sampleWorld RevocationTrace.blank keptSession
    (renewing 3 aliceCookie jti₃ 13)
    (fun c o _ o' => decide ((c.result 2).map Prod.fst = some aliceChanges) &&
      o'.renewals.any fun x => decide (o.time ≤ x.time) && decide (x.userId = 1))
    (by decide +kernel)
  rw [Bool.and_eq_true, List.any_eq_true, decide_eq_true_eq] at ht
  obtain ⟨hresult, x, hmem, hx⟩ := ht
  rw [Bool.and_eq_true, decide_eq_true_eq, decide_eq_true_eq] at hx
  obtain ⟨⟨op, reply⟩, hreply, hop⟩ := Option.map_eq_some_iff.mp hresult
  obtain rfl : op = aliceChanges := hop
  have hreturned := Config.returned_of_result hreply
  exact ⟨c, o, c', o', reply, x, h, hreturned, h', hmem, hx.1, hx.2,
    revocation_final sampleSha256_injective rfl h hreturned rfl h' x hmem hx.1 hx.2⟩

end Sessions

end MinePanel.Accounts
