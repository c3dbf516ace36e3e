/-
  MinePanel.Auth.Revocation
  ─────────────────────────
  **WHO ENDS A SESSION, AND THAT IT ENDS.**

  Six operations delete sessions: a logout, a logout everywhere, the deletion of
  one session, a password change, a ban and a reset.  Each of them scans first
  and deletes by id later, inside or outside of a transaction, while sign-ins
  and rotations go on.  A row leaves the table only because an operation that is
  to end it ran (`Doomed`); a row that was there when such an operation was
  invoked is gone when it has returned (`Tidy.purged`); and a ban, which locks
  the row of its user before it scans, is not outrun by a rotation
  (`Tidy.caught`).

    * `Ends` — which operation may end which session;
    * `Condemned` — deleted by a transaction that is still open;
    * `Tidy` — the invariant;
    * `session_removed`, `revocation_complete`, `ban_not_outrun`.
-/
import MinePanel.Auth.Rotation

namespace MinePanel.Accounts

open MinePanel.Db MinePanel.Lib Prog

namespace Sessions

/-! ## §1. Deleted rows. -/

section Deleted

variable {S : Settings} {o : History} {w w' : World} {gs : Pid → Trail} {p q : Pid} {op : Op}
  {β : Type} {a : Act β} {e : Env} {b : β} {r : RefreshToken} {d : Db} {id : TokenId}
  {ws : List Write}

/-- A row that writes remove is deleted by its id. -/
theorem get_foldl_removed (h : d.refreshTokens.get id = some r)
    (hgone : (ws.foldl Db.apply d).refreshTokens.get id ≠ some r) :
    ∃ ids, .deleteTokens ids ∈ ws ∧ id ∈ ids := by
  induction ws generalizing d with
  | nil => exact absurd h hgone
  | cons x ws ih =>
      have hrest : (d.apply x).refreshTokens.get id = some r →
          ∃ ids, .deleteTokens ids ∈ x :: ws ∧ id ∈ ids := by
        intro hx
        obtain ⟨ids, hmem, hid⟩ := ih hx hgone
        exact ⟨ids, List.mem_cons_of_mem _ hmem, hid⟩
      cases x with
      | insertToken row =>
          refine hrest ?_
          rw [get_insertToken, if_neg, h]
          rintro ⟨-, hnone⟩
          rw [h] at hnone
          cases hnone
      | deleteTokens ids =>
          by_cases hid : id ∈ ids
          · exact ⟨ids, List.mem_cons_self, hid⟩
          · refine hrest ?_
            rw [get_deleteTokens, if_neg hid, h]
      | _ => exact hrest h

/-- What is deleted stays away where no row with its id is inserted. -/
theorem get_foldl_deleted {ids : List TokenId} (hmem : .deleteTokens ids ∈ ws) (hid : id ∈ ids)
    (hins : ∀ r, .insertToken r ∈ ws → r.id ≠ id) :
    (ws.foldl Db.apply d).refreshTokens.get id = none := by
  obtain ⟨before, after, rfl⟩ := List.append_of_mem hmem
  cases hget : ((before ++ .deleteTokens ids :: after).foldl Db.apply d).refreshTokens.get id with
  | none => rfl
  | some r =>
      have hrid : r.id = id := Table.get_key hget
      rw [← hrid, ← Table.mem_rows, List.foldl_append, List.foldl_cons] at hget
      rcases mem_foldl hget with hr | hr
      · rw [Table.mem_rows, get_deleteTokens, hrid, if_pos hid] at hr
        cases hr
      · refine absurd hrid (hins r ?_)
        exact List.mem_append_right _ (List.mem_cons_of_mem _ hr)

/-- A known row whose id is not committed, and which nobody inserts, is gone. -/
theorem gone_of_absent (h : Base S w o gs) (hr : r ∈ o.rows) (hfree : ¬ InFlight w r)
    (hnone : w.db.refreshTokens.get r.id = none) : Gone w r := by
  rintro r' (hr' | hr') hid
  · rw [Table.mem_rows, hid, hnone] at hr'
    cases hr'
  · have heq : r' = r := h.issued.eq_of_id (h.known (.inr hr')) hr hid
    exact hfree (heq ▸ hr')

/-- The open transaction of the call has deleted it. -/
def Condemned (w : World) (p : Pid) (r : RefreshToken) : Prop :=
  ∃ ws ids, w.tables.pending p = some ws ∧ .deleteTokens ids ∈ ws ∧ r.id ∈ ids

/-- A known row that a call does not see is gone, or deleted by the call. -/
theorem gone_of_unseen (h : Base S w o gs) (hr : r ∈ o.rows) (hfree : ¬ InFlight w r)
    (hnone : (w.view p).refreshTokens.get r.id = none) : Gone w r ∨ Condemned w p r := by
  cases hget : w.db.refreshTokens.get r.id with
  | none => exact .inl (gone_of_absent h hr hfree hget)
  | some r' =>
      cases hws : w.tables.pending p with
      | none =>
          have hview : w.view p = w.db := Store.view_of_none hws
          rw [hview, hget] at hnone
          cases hnone
      | some ws =>
          have hview : w.view p = ws.foldl Db.apply w.db := Store.view_of_some hws
          rw [hview] at hnone
          obtain ⟨ids, hmem, hid⟩ := get_foldl_removed hget (by rw [hnone]; simp)
          exact .inr ⟨ws, ids, hws, hmem, hid⟩

/-- The step leaves no snapshot to rely on. -/
def resets : ∀ {β : Type}, Act β → β → Bool
  | _, .query (.updateUser _ _ _), b => b.isOk
  | _, .begin, b => b.isOk
  | _, .commit, b => !b.isOk
  | _, .rollback, _ => true
  | _, _, _ => false

theorem next_resets (t : Trail) (h : resets a b = true) :
    (t.next a b).scanned = none ∧ (t.next a b).purged = none := by
  cases a with
  | query s =>
      cases s with
      | updateUser id cond set =>
          cases b with
          | error x => cases h
          | ok r => exact ⟨rfl, rfl⟩
      | _ => cases h
  | begin =>
      cases b with
      | error x => cases h
      | ok _ => exact ⟨rfl, rfl⟩
  | commit =>
      cases b with
      | error x => exact ⟨rfl, rfl⟩
      | ok _ => cases h
  | rollback => exact ⟨rfl, rfl⟩
  | _ => cases h

/-- **What a transaction has deleted stays deleted**, and is gone once it has
committed. -/
theorem condemned_step {o' : History} {gs' : Pid → Trail} (h : Base S w o gs)
    (h' : Base S w' o' gs') (hr : r ∈ o.rows) (hr' : r ∈ o'.rows) (hfree : ¬ InFlight w r)
    (hfree' : ¬ InFlight w' r) (hcondemned : Condemned w p r) (hresets : resets a b = false)
    (hx : exec S p a e w = some (b, w')) : Gone w' r ∨ Condemned w' p r := by
  obtain ⟨ws, ids, hws, hmem, hid⟩ := hcondemned
  have hsilent : a.isSilent = true → Gone w' r ∨ Condemned w' p r := by
    intro ha
    refine .inr ⟨ws, ids, ?_, hmem, hid⟩
    rw [exec_silent ha hx]
    exact hws
  cases a with
  | query s =>
      right
      rcases exec_query hx with ⟨-, rfl⟩ | ⟨-, -, -, rfl⟩
      · exact ⟨ws, ids, hws, hmem, hid⟩
      · exact ⟨_, ids, Store.put_pending_of_some hws, List.mem_append_left _ hmem, hid⟩
  | begin =>
      rcases exec_begin hx with ⟨-, rfl⟩ | ⟨rfl, -⟩
      · exact .inr ⟨ws, ids, hws, hmem, hid⟩
      · cases hresets
  | commit =>
      rcases exec_commit hx with ⟨rfl, -⟩ | ⟨rfl, rfl⟩
      · cases hresets
      · refine .inl (gone_of_absent h' hr' hfree' ?_)
        have hview : w.view p = ws.foldl Db.apply w.db := Store.view_of_some hws
        show (w.view p).refreshTokens.get r.id = none
        rw [hview]
        refine get_foldl_deleted hmem hid fun row hrow heq => hfree ?_
        have hflight : InFlight w row := ⟨p, ws, hws, hrow⟩
        rw [← h.issued.eq_of_id (h.known (.inr hflight)) hr heq]
        exact hflight
  | rollback => cases hresets
  | _ => exact hsilent rfl

/-- The transaction of another call. -/
theorem condemned_other (hcondemned : Condemned w q r) (hq : q ≠ p)
    (hx : exec S p a e w = some (b, w')) : Condemned w' q r := by
  obtain ⟨ws, ids, hws, hmem, hid⟩ := hcondemned
  refine ⟨ws, ids, ?_, hmem, hid⟩
  rw [(exec_step hx).pending_of_ne hq]
  exact hws

/-- The ids that a step is to delete. -/
def deletes : ∀ {β : Type}, Act β → List TokenId
  | _, .query (.deleteTokens ids) => ids
  | _, _ => []

theorem may_deleteTokens {ids : List TokenId} (h : a.May (.deleteTokens ids)) :
    ids ⊆ deletes a := by
  obtain ⟨-, -, hplans⟩ := h
  cases a with
  | query s =>
      obtain ⟨now, e, d, hmem⟩ := hplans
      have hpowers : [Power.revoke] = s.powers := plan_powers now e d s _ hmem
      cases s with
      | deleteTokens ids₀ =>
          have hids : ids = ids₀.filter fun id => (d.refreshTokens.get id).isSome :=
            Write.deleteTokens.inj (List.mem_singleton.mp hmem)
          rw [hids]
          exact List.filter_subset_self _
      | updateUser id cond set =>
          rcases plan_update now e d id cond set with ⟨-, -, -, -, hwrites⟩ | ⟨hwrites, -⟩
          · rw [hwrites, List.mem_singleton] at hmem
            cases hmem
          · rw [hwrites] at hmem
            exact absurd hmem List.not_mem_nil
      | _ => cases hpowers
  | _ => cases hplans

end Deleted

/-! ## §2. Who may end a session. -/

/-- **Which operation may end which session**, at what time: one that is to
delete it, or the rotation of its own token. -/
def Ends (S : Settings) (clock : Timestamp) (r : RefreshToken) (op : Op) : Prop :=
  Op.Revokes S (some clock) r op ∨ ∃ claims, presented op = some claims ∧
    r.userId = claims.sub ∧ r.tokenIdHash = S.sha256 claims.jti

section Doomed

variable {S : Settings} {o o' : History} {w w' : World} {gs : Pid → Trail} {p q : Pid} {op : Op}
  {β : Type} {a : Act β} {e : Env} {b : β} {r : RefreshToken}

/-- Time passes. -/
theorem revokes_mono {now : Option Timestamp} {clock : Timestamp}
    (h : Op.Revokes S now r op) (hle : isRefresh op = true → ∀ t, now = some t → t ≤ clock) :
    Op.Revokes S (some clock) r op := by
  cases op with
  | refresh cookie =>
      obtain ⟨claims, hclaims, huser, t, ht, hexpired⟩ := h
      exact ⟨claims, hclaims, huser, clock, rfl, hexpired.trans (hle rfl t ht)⟩
  | _ => exact h

theorem Ends.mono {clock clock' : Timestamp} (h : Ends S clock r op) (hle : clock ≤ clock') :
    Ends S clock' r op := by
  refine h.imp_left fun hr => revokes_mono hr fun _ t ht => ?_
  rw [← Option.some.inj ht]
  exact hle

/-- The id of a row that the operation may end. -/
def Endable (S : Settings) (w : World) (o : History) (op : Op) (id : TokenId) : Prop :=
  ∃ r ∈ o.rows, r.id = id ∧ Ends S w.clock r op

/-- **A call deletes rows that its operation may end.** -/
theorem endable_of_handles (h : Kept S w o gs) (hinj : Function.Injective S.sha256)
    (hop : (gs p).op = some op) (hallow : (gs p).Handles S op a) :
    ∀ id ∈ deletes a, Endable S w o op id := by
  cases a with
  | query s =>
      cases s with
      | deleteTokens ids =>
          intro id hid
          rcases hallow with hconsumes | ⟨cond, hscanned, hrevokes, hstages⟩
          · obtain ⟨-, -, claims, stored, user, now, hclaims, hstored, rfl, hhash, -⟩ := hconsumes
            have hrow : stored ∈ o.rows := h.base.stored hstored
            have hsub : stored.userId = claims.sub :=
              h.base.issued.owner hinj hrow (h.base.presents hop hclaims) hhash
            exact ⟨stored, hrow, (List.mem_singleton.mp hid).symm,
              .inr ⟨claims, hclaims, hsub, hhash⟩⟩
          · obtain ⟨r, hr, hrid, hcond⟩ := h.base.scanned hscanned id hid
            refine ⟨r, hr, hrid, .inl (revokes_mono (hrevokes r hcond) fun hrefresh t ht => ?_)⟩
            -- the clock reading of a rotation falls into its transaction
            obtain ⟨hinside, -⟩ := hstages hrefresh
            obtain ⟨time, -, -, htimed⟩ := (h.rotating hop hrefresh).timed hinside
            exact (htimed t ht).2.2
      | _ => exact fun id hid => absurd hid List.not_mem_nil
  | _ => exact fun id hid => absurd hid List.not_mem_nil

/-- What the open transactions delete, their operations may end. -/
def Doomed (S : Settings) (w : World) (o : History) (gs : Pid → Trail) : Prop :=
  ∀ p op ws ids, (gs p).op = some op → w.tables.pending p = some ws → .deleteTokens ids ∈ ws →
    ∀ id ∈ ids, Endable S w o op id

theorem Endable.later {id : TokenId} (h : Endable S w o op id) (hclock : w.clock ≤ w'.clock)
    (hrows : o.rows ⊆ o'.rows) : Endable S w' o' op id := by
  obtain ⟨r, hr, hid, hends⟩ := h
  exact ⟨r, hrows hr, hid, hends.mono hclock⟩

/-- What a step of call `p` has pending or commits. -/
theorem endable_step (h : Doomed S w o gs) (hkept : Kept S w o gs)
    (hinj : Function.Injective S.sha256) (hop : (gs p).op = some op)
    (hallow : (gs p).Handles S op a) (hx : exec S p a e w = some (b, w')) :
    (∀ {ws}, w'.tables.pending p = some ws → ∀ x ∈ ws, ∀ ids, x = .deleteTokens ids →
      ∀ id ∈ ids, Endable S w o op id) ∧
    ∃ ws : List Write, w'.db = ws.foldl Db.apply w.db ∧ ∀ x ∈ ws, ∀ ids, x = .deleteTokens ids →
      ∀ id ∈ ids, Endable S w o op id := by
  have hold : ∀ {ws}, w.tables.pending p = some ws → ∀ x ∈ ws, ∀ ids, x = .deleteTokens ids →
      ∀ id ∈ ids, Endable S w o op id := by
    intro ws hws x hmem ids hids id hid
    subst hids
    exact h _ _ _ _ hop hws hmem id hid
  have hmay : ∀ x, a.May x → ∀ ids, x = .deleteTokens ids → ∀ id ∈ ids, Endable S w o op id := by
    intro x hmay ids hids id hid
    subst hids
    exact endable_of_handles hkept hinj hop hallow id (may_deleteTokens hmay hid)
  exact ⟨fun hws => (exec_step hx).pending_all hold hmay hws,
    (exec_step hx).committed_eq hold hmay⟩

/-- **A step of call `p`.** -/
theorem Doomed.step (h : Doomed S w o gs) (hkept : Kept S w o gs)
    (hinj : Function.Injective S.sha256) (hop : (gs p).op = some op)
    (hallow : (gs p).Handles S op a) (hx : exec S p a e w = some (b, w')) :
    Doomed S w' (o.step w p op a b w') (Function.update gs p ((gs p).next a b)) := by
  intro q op' ws ids hop' hws hmem id hid
  have hlater : ∀ {op}, Endable S w o op id → Endable S w' (o.step w p op' a b w') op id :=
    fun h => h.later (exec_clock hx).ge (List.subset_append_right _ _)
  by_cases hq : q = p
  · subst hq
    rw [Function.update_self, Trail.next_op, hop, Option.some.injEq] at hop'
    subst hop'
    exact hlater ((endable_step h hkept hinj hop hallow hx).1 hws _ hmem ids rfl id hid)
  · rw [Function.update_of_ne hq] at hop'
    rw [(exec_step hx).pending_of_ne hq] at hws
    exact hlater (h _ _ _ _ hop' hws hmem id hid)

/-- **What a step removes, its operation may end.** -/
theorem removal_ends (h : Doomed S w o gs) (hkept : Kept S w o gs)
    (hinj : Function.Injective S.sha256) (hop : (gs p).op = some op)
    (hallow : (gs p).Handles S op a) (hx : exec S p a e w = some (b, w')) :
    ∀ x ∈ History.removals w p op w', Ends S x.clock x.row x.op := by
  intro x hmem
  obtain ⟨r, hr, rfl⟩ := List.mem_map.mp hmem
  obtain ⟨hr, hnone⟩ := List.mem_filter.mp hr
  obtain ⟨ws, hdb, hall⟩ := (endable_step h hkept hinj hop hallow hx).2
  rw [hdb, Option.isNone_iff_eq_none] at hnone
  obtain ⟨ids, hids, hid⟩ := get_foldl_removed (Table.mem_rows.mp hr) (by rw [hnone]; simp)
  obtain ⟨r', hr', hrid, hends⟩ := hall _ hids ids rfl _ hid
  rw [← hkept.base.issued.eq_of_id hr' (hkept.base.known (.inl hr)) hrid]
  exact hends

end Doomed

/-! ## §3. The invariant. -/

/-- The row that an accepted rotation has added. -/
def Acceptance.Adds (x : Acceptance) (r : RefreshToken) : Prop :=
  r ∈ x.change.after.refreshTokens.rows ∧ r ∉ x.change.before.refreshTokens.rows

/-- The row was committed at some time. -/
def Once (o : History) (r : RefreshToken) : Prop :=
  (∃ p, r ∈ o.initial p) ∨ ∃ x ∈ o.accepted, r ∈ x.change.after.refreshTokens.rows

/-- **The rows that a snapshot of call `p` cannot miss**: those committed when it
was invoked and, while it holds the row of their user, those that rotations have
added. -/
def Target (o : History) (p : Pid) (t : Trail) (r : RefreshToken) : Prop :=
  r ∈ o.initial p ∨ (t.inside = true ∧ t.seized = some r.userId ∧ ∃ x ∈ o.accepted, x.Adds r)

/-- No session that a rotation has added before the ban is left. -/
def Ban.Complete (ban : Ban) : Prop :=
  ∀ r ∈ ban.after.refreshTokens.rows, r.userId = ban.userId → ∀ x ∈ ban.accepted, ¬ x.Adds r

/-- **The invariant of revocations.** -/
structure Tidy (S : Settings) (w : World) (o : History) (gs : Pid → Trail) : Prop where
  kept : Kept S w o gs
  doomed : Doomed S w o gs
  named : ∀ {p}, (gs p).inside = true → ∃ op, (gs p).op = some op
  /-- Only a rotation inserts a row in a transaction. -/
  plain : ∀ {p op ws r}, (gs p).op = some op → isRefresh op = false →
    w.tables.pending p = some ws → .insertToken r ∉ ws
  once : ∀ {r}, Once o r → r ∈ o.rows ∧ ¬ InFlight w r
  seized : ∀ {p userId}, (gs p).inside = true → (gs p).seized = some userId →
    w.tables.owner (.user userId) = some p
  scanned : ∀ {p cond ids r}, (gs p).scanned = some (cond, ids) → Target o p (gs p) r →
    cond r = true → r.id ∈ ids ∨ Gone w r ∨ Condemned w p r
  purged : ∀ {p cond ids r}, (gs p).purged = some (cond, ids) → Target o p (gs p) r →
    cond r = true → Gone w r ∨ Condemned w p r
  removed : ∀ x ∈ o.removed, Ends S x.clock x.row x.op
  banned : ∀ ban ∈ o.banned, ban.Complete

section Invariant

variable {S : Settings} {o o' : History} {w w' : World} {gs : Pid → Trail} {p q : Pid} {op : Op}
  {β : Type} {a : Act β} {e : Env} {b : β} {r : RefreshToken} {t : Trail}

theorem Target.once (h : Target o p t r) : Once o r := by
  rcases h with h | ⟨-, -, x, hx, hadds⟩
  · exact .inl ⟨p, h⟩
  · exact .inr ⟨x, hx, hadds.1⟩

/-- What is in flight is not committed. -/
theorem uncommitted (hkept : Kept S w o gs)
    (named : ∀ {p}, (gs p).inside = true → ∃ op, (gs p).op = some op)
    (plain : ∀ {p op ws r}, (gs p).op = some op → isRefresh op = false →
      w.tables.pending p = some ws → .insertToken r ∉ ws) (h : InFlight w r) :
    w.db.refreshTokens.get r.id = none := by
  obtain ⟨q, ws, hws, hmem⟩ := h
  have hinside : (gs q).inside = true := by
    rw [hkept.base.inside q, hws]
    rfl
  obtain ⟨op, hop⟩ := named hinside
  cases hrefresh : isRefresh op with
  | true => exact (hkept.rotating hop hrefresh).staged.uncommitted hws hmem
  | false => exact absurd hmem (plain hop hrefresh hws)

theorem not_inFlight_of_committed (hkept : Kept S w o gs)
    (named : ∀ {p}, (gs p).inside = true → ∃ op, (gs p).op = some op)
    (plain : ∀ {p op ws r}, (gs p).op = some op → isRefresh op = false →
      w.tables.pending p = some ws → .insertToken r ∉ ws)
    (h : r ∈ w.db.refreshTokens.rows) : ¬ InFlight w r := by
  intro hflight
  have hnone := uncommitted hkept named plain hflight
  rw [Table.mem_rows.mp h] at hnone
  cases hnone

/-- **What a step accepts**: a rotation under the lock of its user. -/
theorem acceptance_step (h : Kept S w o gs) (hinj : Function.Injective S.sha256)
    (hop : (gs p).op = some op) (hallow : (gs p).Handles S op a)
    (hx : exec S p a e w = some (b, w')) :
    ∀ x ∈ o.acceptance w p op a b w', x.change.after = w'.db ∧
      w.tables.owner (.user x.claims.sub) = some p ∧ ∀ r, x.Adds r → r.userId = x.claims.sub := by
  intro x hmem
  cases a with
  | commit =>
      cases b with
      | error y => exact absurd hmem List.not_mem_nil
      | ok _ =>
          obtain ⟨claims, hclaims, rfl⟩ := List.mem_map.mp hmem
          have hclaims : presented op = some claims := Option.mem_toList.mp hclaims
          have hrefresh := presented_isRefresh hclaims
          obtain ⟨stored, values, hstage⟩ := hallow.rotation hrefresh
          have hstaged := (h.rotating hop hrefresh).staged
          rw [hstage] at hstaged
          obtain ⟨claims', hclaims', -, -, -, -, hrotates, -⟩ :=
            rotates_of_swept h.base hinj hop hstaged
          obtain rfl : claims = claims' := Option.some.inj (hclaims.symm.trans hclaims')
          obtain ⟨-, claims', row, there, hclaims'', hgrip, -⟩ := hstaged
          obtain rfl : claims = claims' := Option.some.inj (hclaims.symm.trans hclaims'')
          refine ⟨rfl, hgrip.userHeld, fun r hadds => ?_⟩
          rcases exec_commit hx with ⟨hb, -⟩ | ⟨-, rfl⟩
          · cases hb
          · obtain ⟨stored', row', swept, -, -, -, -, huser, -, -, -, hrows, -⟩ := hrotates
            rcases (hrows r).mp hadds.1 with rfl | ⟨hr, -⟩
            · exact huser
            · exact absurd hr hadds.2
  | _ => exact absurd hmem List.not_mem_nil

/-- Outside of rotations nothing is inserted in a transaction. -/
theorem plain_step (h : Base S w o gs) (hrefresh : isRefresh op = false)
    (hplain : ∀ {ws r}, w.tables.pending p = some ws → .insertToken r ∉ ws)
    (hallow : (gs p).Handles S op a) (hx : exec S p a e w = some (b, w')) {ws : List Write}
    (hws : w'.tables.pending p = some ws) : .insertToken r ∉ ws := by
  intro hmem
  obtain ⟨may, hstep, hnew⟩ := exec_inserts hx
  have hrow : r ∈ newRows w p a w' := by
    refine hstep.pending_all (P := fun x => ∀ r, x = .insertToken r → r ∈ newRows w p a w')
      (fun {ws} hws x hx r hr => ?_) (fun x hmay r hr => hnew r (hr ▸ hmay)) hws _ hmem r rfl
    subst hr
    exact absurd hx (hplain hws)
  cases a with
  | query s =>
      cases s with
      | insertToken values =>
          have hnone : w.tables.pending p = none := by
            have hinside := hallow.outside hrefresh
            rwa [h.inside p, Option.isSome_eq_false_iff, Option.isNone_iff_eq_none] at hinside
          rcases exec_query hx with ⟨-, rfl⟩ | ⟨-, -, -, rfl⟩
          · rw [hnone] at hws
            cases hws
          · have hnone' := Store.put_pending_of_none hnone ▸ hws
            cases hnone'
      | _ => exact absurd hrow List.not_mem_nil
  | _ => exact absurd hrow List.not_mem_nil

/-- A transaction keeps the lock of the row it has updated. -/
theorem seized_step (h : Base S w o gs) (hsound : Store.Sound Write.touches w'.tables)
    (hseized : ∀ {userId}, (gs p).inside = true → (gs p).seized = some userId →
      w.tables.owner (.user userId) = some p)
    (hx : exec S p a e w = some (b, w')) {userId : UserId}
    (hinside : ((gs p).next a b).inside = true)
    (hnext : ((gs p).next a b).seized = some userId) :
    w'.tables.owner (.user userId) = some p := by
  cases a with
  | query s =>
      have hin : (gs p).inside = true := by
        rw [← hinside]
        cases b with
        | error x => rfl
        | ok r => cases s <;> rfl
      obtain ⟨ws, hws⟩ : ∃ ws, w.tables.pending p = some ws :=
        Option.isSome_iff_exists.mp ((h.inside p).symm.trans hin)
      have hold : (gs p).seized = some userId → w'.tables.owner (.user userId) = some p :=
        fun h => (inside_frame hws hx).2 (hseized hin h)
      cases b with
      | error x => exact hold hnext
      | ok r =>
          cases s with
          | updateUser id cond set =>
              cases r with
              | none => cases hnext
              | some row =>
                  obtain rfl : id = userId := Option.some.inj hnext
                  -- the update is pending, and covered by the lock of its row
                  rcases exec_query hx with ⟨hb, -⟩ | ⟨hb, -, -, rfl⟩
                  · cases hb
                  · rcases plan_update w.clock e (w.view p) id cond set with
                      ⟨-, -, -, -, hwrites⟩ | ⟨-, hnone⟩
                    · refine hsound p _ (.updateUser id set w.clock) _
                        (Store.put_pending_of_some hws) (List.mem_append_right _ ?_) rfl
                      rw [hwrites]
                      exact List.mem_cons_self
                    · exact absurd hb.symm (hnone row)
          | _ => exact hold hnext
  | begin =>
      rcases exec_begin hx with ⟨rfl, rfl⟩ | ⟨rfl, -⟩
      · exact hseized hinside hnext
      · cases hnext
  | commit => cases b <;> cases hinside
  | rollback => cases hinside
  | sign payload ttl =>
      rw [exec_silent rfl hx]
      cases payload <;> exact hseized hinside hnext
  | _ =>
      rw [exec_silent rfl hx]
      exact hseized hinside hnext

/-- A step of its own gives a call no new targets. -/
theorem target_own (hresets : resets a b = false)
    (h : Target (o.step w p op a b w') p ((gs p).next a b) r) : Target o p (gs p) r := by
  rcases h with h | ⟨hinside, hseized, x, hmem, hadds⟩
  · exact .inl h
  · have hsame : ((gs p).next a b).inside = (gs p).inside →
        ((gs p).next a b).seized = (gs p).seized →
        o.acceptance w p op a b w' = [] → Target o p (gs p) r := by
      intro hin hseize hnil
      have hmem : x ∈ o.acceptance w p op a b w' ++ o.accepted := hmem
      rw [hnil] at hmem
      exact .inr ⟨hin.symm.trans hinside, hseize.symm.trans hseized, x, hmem, hadds⟩
    cases a with
    | query s =>
        cases b with
        | error y => exact hsame rfl rfl rfl
        | ok y =>
            cases s with
            | updateUser id cond set => cases hresets
            | _ => exact hsame rfl rfl rfl
    | begin =>
        cases b with
        | error y => exact hsame rfl rfl rfl
        | ok _ => cases hresets
    | commit => cases b <;> cases hinside
    | rollback => cases hinside
    | sign payload ttl => cases payload <;> exact hsame rfl rfl rfl
    | _ => exact hsame rfl rfl rfl

/-- **No rotation adds a session of a user that another call holds.** -/
theorem target_other (hkept : Kept S w o gs) (hinj : Function.Injective S.sha256)
    (hseized : ∀ {userId}, (gs q).inside = true → (gs q).seized = some userId →
      w.tables.owner (.user userId) = some q)
    (hop : (gs p).op = some op) (hallow : (gs p).Handles S op a)
    (hx : exec S p a e w = some (b, w')) (hq : q ≠ p)
    (h : Target (o.step w p op a b w') q (gs q) r) : Target o q (gs q) r := by
  rcases h with h | ⟨hinside, hseize, x, hmem, hadds⟩
  · exact .inl h
  · rcases List.mem_append.mp hmem with hnew | hold
    · obtain ⟨-, howner, huser⟩ := acceptance_step hkept hinj hop hallow hx x hnew
      have howner' := hseized hinside hseize
      rw [huser r hadds, howner, Option.some.injEq] at howner'
      exact absurd howner'.symm hq
    · exact .inr ⟨hinside, hseize, x, hold, hadds⟩

/-- What a DELETE was to remove and its call has seen. -/
theorem deleted_step {gs' : Pid → Trail} (h : Base S w' o' gs') (hr : r ∈ o'.rows)
    (hfree : ¬ InFlight w' r) {ids there : List TokenId} (hid : r.id ∈ ids)
    (hseen : ((w.view p).refreshTokens.get r.id).isSome = true)
    (hx : exec S p (.query (.deleteTokens ids)) e w = some (.ok there, w')) :
    Gone w' r ∨ Condemned w' p r := by
  rcases exec_deleteTokens hx with ⟨hb, -⟩ | ⟨there', hthere, hb, htables⟩
  · cases hb
  · have hmem : r.id ∈ there' := by
      rw [hthere]
      exact List.mem_filter.mpr ⟨hid, hseen⟩
    cases hws : w.tables.pending p with
    | none =>
        refine .inl (gone_of_absent h hr hfree ?_)
        have hdb : w'.db = w.db.apply (.deleteTokens there') := by
          unfold World.db
          rw [htables, Store.put_of_none hws]
          rfl
        rw [hdb, get_deleteTokens, if_pos hmem]
    | some ws =>
        refine .inr ⟨ws ++ [.deleteTokens there'], there', ?_,
          List.mem_append_right ws List.mem_cons_self, hmem⟩
        rw [htables, Store.put_pending_of_some hws]

/-- A known row that is not seen under its id is not seen at all. -/
theorem view_cases (h : Base S w o gs) (hr : r ∈ o.rows) :
    r ∈ (w.view p).refreshTokens.rows ∨ (w.view p).refreshTokens.get r.id = none := by
  cases hget : (w.view p).refreshTokens.get r.id with
  | none => exact .inr rfl
  | some r' =>
      have hrid : r'.id = r.id := Table.get_key hget
      have hr' : r' ∈ (w.view p).refreshTokens.rows := by
        rw [Table.mem_rows, hrid]
        exact hget
      rw [← h.issued.eq_of_id (h.known (source_of_view hr')) hr hrid]
      exact .inl hr'

/-- A row that was committed does not get in flight. -/
theorem not_inFlight_step (hr : r ∈ o.rows) (hfree : ¬ InFlight w r)
    (hg : fresh S o w p op a e = true) (hx : exec S p a e w = some (b, w')) : ¬ InFlight w' r := by
  intro h
  rcases inFlight_step hx h with hold | hnew
  · exact hfree hold
  · exact newRows_id hg hx hnew (List.mem_map.mpr ⟨r, hr, rfl⟩)

/-- What is gone, or deleted by its call, after a step of that call. -/
theorem ended_step {gs' : Pid → Trail} (h : Base S w o gs)
    (h' : Base S w' (o.step w p op a b w') gs') (hr : r ∈ o.rows) (hfree : ¬ InFlight w r)
    (hg : fresh S o w p op a e = true) (hx : exec S p a e w = some (b, w'))
    (hresets : resets a b = false) (hend : Gone w r ∨ Condemned w p r) :
    Gone w' r ∨ Condemned w' p r := by
  rcases hend with hgone | hcondemned
  · exact .inl (hgone.step hr hg hx)
  · exact condemned_step h h' hr (List.mem_append_right _ hr) hfree
      (not_inFlight_step hr hfree hg hx) hcondemned hresets hx

/-- **A ban that commits has expelled its user.** -/
theorem expels_of_bans (hallow : (gs p).Handles S op a) (hx : exec S p a e w = some (b, w'))
    {userId : UserId} (hbans : bans op a b = some userId) :
    op = .updateStatus userId .banned ∧ resets a b = false ∧ w'.tables.pending p = none ∧
      (gs p).Expels userId := by
  unfold bans at hbans
  split at hbans
  next =>
    split at hbans
    next hcommits =>
      obtain rfl := Option.some.inj hbans
      cases a with
      | commit =>
          rcases exec_commit hx with ⟨rfl, -⟩ | ⟨rfl, rfl⟩
          · cases hcommits
          · exact ⟨rfl, rfl, Store.commit_pending_self, hallow.ban _ rfl⟩
      | _ => cases hcommits
    next => cases hbans
  next => cases hbans

namespace Tidy

theorem boot {d : Db} (hd : d.refreshTokens = Table.empty) (S : Settings) (clock : Timestamp) :
    Tidy S (World.boot d clock) History.blank fun _ => Trail.idle where
  kept := Kept.boot hd S clock
  doomed := fun _ _ _ _ h => nomatch h
  named := fun h => nomatch h
  plain := fun h => nomatch h
  once := by
    rintro r (⟨p, h⟩ | ⟨x, h, -⟩)
    · exact absurd h List.not_mem_nil
    · exact absurd h List.not_mem_nil
  seized := fun h => nomatch h
  scanned := fun h => nomatch h
  purged := fun h => nomatch h
  removed := fun _ h => nomatch h
  banned := fun _ h => nomatch h

theorem invoke (h : Tidy S w o gs) (hp : gs p = Trail.idle)
    (ha : (watch S).accepts o w p op = true) :
    Tidy S w (o.opened w p) (Function.update gs p (Trail.fresh op)) := by
  -- call `p` has no transaction and no snapshot yet
  have hother : ∀ {q : Pid} {P : Trail → Prop}, ¬ P (Trail.fresh op) →
      P (Function.update gs p (Trail.fresh op) q) → q ≠ p ∧ P (gs q) := by
    intro q P hnot hP
    by_cases hq : q = p
    · subst hq
      rw [Function.update_self] at hP
      exact absurd hP hnot
    · rw [Function.update_of_ne hq] at hP
      exact ⟨hq, hP⟩
  have hpending : w.tables.pending p = none := by
    have hinside := h.kept.base.inside p
    rw [hp] at hinside
    exact Option.isNone_iff_eq_none.mp (Option.isSome_eq_false_iff.mp hinside.symm)
  have htarget : ∀ {q r}, q ≠ p → Target (o.opened w p) q (gs q) r → Target o q (gs q) r := by
    intro q r hq ht
    refine ht.imp_left fun hr => ?_
    have hr : r ∈ Function.update o.initial p w.db.refreshTokens.rows q := hr
    rwa [Function.update_of_ne hq] at hr
  refine ⟨h.kept.invoke hp ha, fun q op' ws ids hop hws hmem => ?_, fun {q} hin => ?_,
    fun {q op' ws r} hop hrefresh hws => ?_, fun {r} hr => ?_, fun {q userId} hin hs => ?_,
    fun {q cond ids r} hs ht hcond => ?_, fun {q cond ids r} hs ht hcond => ?_, h.removed,
    h.banned⟩
  · by_cases hq : q = p
    · rw [hq, hpending] at hws
      cases hws
    · rw [Function.update_of_ne hq] at hop
      exact h.doomed q op' ws ids hop hws hmem
  · obtain ⟨hq, hin⟩ := hother (P := fun t => t.inside = true) (fun h => by cases h) hin
    rw [Function.update_of_ne hq]
    exact h.named hin
  · by_cases hq : q = p
    · rw [hq, hpending] at hws
      cases hws
    · rw [Function.update_of_ne hq] at hop
      exact h.plain hop hrefresh hws
  · rcases hr with ⟨q, hr⟩ | hr
    · by_cases hq : q = p
      · subst hq
        have hr : r ∈ Function.update o.initial q w.db.refreshTokens.rows q := hr
        rw [Function.update_self] at hr
        exact ⟨h.kept.base.known (.inl hr),
          not_inFlight_of_committed h.kept h.named h.plain hr⟩
      · have hr : r ∈ Function.update o.initial p w.db.refreshTokens.rows q := hr
        rw [Function.update_of_ne hq] at hr
        exact h.once (.inl ⟨q, hr⟩)
    · exact h.once (.inr hr)
  · obtain ⟨hq, hin⟩ := hother (P := fun t => t.inside = true) (fun h => by cases h) hin
    rw [Function.update_of_ne hq] at hs
    exact h.seized hin hs
  · obtain ⟨hq, hs⟩ := hother (P := fun t => t.scanned = some (cond, ids))
      (fun h => by cases h) hs
    rw [Function.update_of_ne hq] at ht
    exact h.scanned hs (htarget hq ht) hcond
  · obtain ⟨hq, hs⟩ := hother (P := fun t => t.purged = some (cond, ids)) (fun h => by cases h) hs
    rw [Function.update_of_ne hq] at ht
    exact h.purged hs (htarget hq ht) hcond

/-- A snapshot, after a step of its call. -/
theorem scanned_own (h : Tidy S w o gs) {gs' : Pid → Trail}
    (h' : Base S w' (o.step w p op a b w') gs') (hg : fresh S o w p op a e = true)
    (hx : exec S p a e w = some (b, w')) {cond : RefreshToken → Bool} {ids : List TokenId}
    (hs : ((gs p).next a b).scanned = some (cond, ids))
    (ht : Target (o.step w p op a b w') p ((gs p).next a b) r) (hcond : cond r = true) :
    r.id ∈ ids ∨ Gone w' r ∨ Condemned w' p r := by
  cases hresets : resets a b with
  | true =>
      rw [(next_resets (gs p) hresets).1] at hs
      cases hs
  | false =>
      have ht := target_own hresets ht
      obtain ⟨hr, hfree⟩ := h.once ht.once
      have hstep := ended_step h.kept.base h' hr hfree hg hx hresets
      rcases scanned_step hx hs with hold | rfl
      · exact (h.scanned hold ht hcond).imp_right hstep
      · rcases view_cases (p := p) h.kept.base hr with hseen | hunseen
        · exact .inl (List.mem_map.mpr ⟨r, List.mem_filter.mpr ⟨hseen, hcond⟩, rfl⟩)
        · exact .inr (hstep (gone_of_unseen h.kept.base hr hfree hunseen))

/-- A snapshot that was deleted, after a step of its call. -/
theorem purged_own (h : Tidy S w o gs) {gs' : Pid → Trail}
    (h' : Base S w' (o.step w p op a b w') gs') (hg : fresh S o w p op a e = true)
    (hx : exec S p a e w = some (b, w')) {cond : RefreshToken → Bool} {ids : List TokenId}
    (hs : ((gs p).next a b).purged = some (cond, ids))
    (ht : Target (o.step w p op a b w') p ((gs p).next a b) r) (hcond : cond r = true) :
    Gone w' r ∨ Condemned w' p r := by
  cases hresets : resets a b with
  | true =>
      rw [(next_resets (gs p) hresets).2] at hs
      cases hs
  | false =>
      have ht := target_own hresets ht
      obtain ⟨hr, hfree⟩ := h.once ht.once
      have hstep := ended_step h.kept.base h' hr hfree hg hx hresets
      have hold : (gs p).purged = some (cond, ids) → Gone w' r ∨ Condemned w' p r :=
        fun hold => hstep (h.purged hold ht hcond)
      cases a with
      | query s =>
          cases b with
          | error y => exact hold hs
          | ok there =>
              cases s with
              | deleteTokens ids₀ =>
                  obtain ⟨hscanned, hids⟩ := Option.filter_eq_some_iff.mp hs
                  obtain rfl : ids = ids₀ := of_decide_eq_true hids
                  rcases h.scanned hscanned ht hcond with hid | hend
                  · rcases view_cases (p := p) h.kept.base hr with hseen | hunseen
                    · refine deleted_step h' (List.mem_append_right _ hr)
                        (not_inFlight_step hr hfree hg hx) hid ?_ hx
                      rw [Table.mem_rows.mp hseen]
                      rfl
                    · exact hstep (gone_of_unseen h.kept.base hr hfree hunseen)
                  · exact hstep hend
              | updateUser id cond' set => cases hresets
              | _ => exact hold hs
      | begin =>
          cases b with
          | error y => exact hold hs
          | ok _ => cases hresets
      | commit =>
          cases b with
          | error y => cases hresets
          | ok _ => exact hold hs
      | rollback => cases hresets
      | sign payload ttl => cases payload <;> exact hold hs
      | _ => exact hold hs

/-- **The COMMIT of a ban.** -/
theorem banned_step (h : Tidy S w o gs) {gs' : Pid → Trail}
    (h' : Base S w' (o.step w p op a b w') gs') (hallow : (gs p).Handles S op a)
    (hg : fresh S o w p op a e = true) (hx : exec S p a e w = some (b, w')) {userId : UserId}
    (hbans : bans op a b = some userId) : Ban.Complete ⟨userId, w'.db, o.accepted⟩ := by
  intro r hr huser x hmem hadds
  obtain ⟨-, hresets, hpending, hinside, hseized, ids, hpurged⟩ := expels_of_bans hallow hx hbans
  have ht : Target o p (gs p) r := by
    refine .inr ⟨hinside, ?_, x, hmem, hadds⟩
    rw [hseized]
    exact congrArg some huser.symm
  obtain ⟨hknown, hfree⟩ := h.once ht.once
  have hend := h.purged hpurged ht (beq_iff_eq.mpr huser)
  rcases ended_step h.kept.base h' hknown hfree hg hx hresets hend with hgone | ⟨ws, -, hws, -⟩
  · exact hgone r (.inl hr) rfl
  · rw [hpending] at hws
    cases hws

/-- **A step of call `p`.** -/
theorem step (h : Tidy S w o gs) (hinj : Function.Injective S.sha256)
    (hop : (gs p).op = some op) (hallow : (gs p).Handles S op a)
    (hg : fresh S o w p op a e = true) (hx : exec S p a e w = some (b, w')) :
    Tidy S w' (o.step w p op a b w') (Function.update gs p ((gs p).next a b)) := by
  have hkept := h.kept.step hinj hop hallow hg hx
  have hnamed : ∀ {q}, (Function.update gs p ((gs p).next a b) q).inside = true →
      ∃ op, (Function.update gs p ((gs p).next a b) q).op = some op := by
    intro q hin
    by_cases hq : q = p
    · subst hq
      rw [Function.update_self, Trail.next_op]
      exact ⟨op, hop⟩
    · rw [Function.update_of_ne hq] at hin ⊢
      exact h.named hin
  have hplain : ∀ {q op' ws r}, (Function.update gs p ((gs p).next a b) q).op = some op' →
      isRefresh op' = false → w'.tables.pending q = some ws → .insertToken r ∉ ws := by
    intro q op' ws r hop' hrefresh hws
    by_cases hq : q = p
    · subst hq
      rw [Function.update_self, Trail.next_op, hop, Option.some.injEq] at hop'
      subst hop'
      exact plain_step h.kept.base hrefresh (fun hws => h.plain hop hrefresh hws) hallow hx hws
    · rw [Function.update_of_ne hq] at hop'
      rw [(exec_step hx).pending_of_ne hq] at hws
      exact h.plain hop' hrefresh hws
  refine ⟨hkept, h.doomed.step h.kept hinj hop hallow hx, hnamed, hplain, fun {r} hr => ?_,
    fun {q userId} hin hs => ?_, fun {q cond ids r} hs ht hcond => ?_,
    fun {q cond ids r} hs ht hcond => ?_, fun x hmem => ?_, fun ban hmem => ?_⟩
  · -- rows that were committed before, and those that a rotation commits now
    have hold : Once o r → r ∈ (o.step w p op a b w').rows ∧ ¬ InFlight w' r := by
      intro hr
      obtain ⟨hr, hfree⟩ := h.once hr
      exact ⟨List.mem_append_right _ hr, not_inFlight_step hr hfree hg hx⟩
    rcases hr with hr | ⟨x, hmem, hr⟩
    · exact hold (.inl hr)
    · rcases List.mem_append.mp hmem with hnew | hmem
      · rw [(acceptance_step h.kept hinj hop hallow hx x hnew).1] at hr
        exact ⟨hkept.base.known (.inl hr), not_inFlight_of_committed hkept hnamed hplain hr⟩
      · exact hold (.inr ⟨x, hmem, hr⟩)
  · by_cases hq : q = p
    · subst hq
      rw [Function.update_self] at hin hs
      exact seized_step h.kept.base hkept.base.sound h.seized hx hin hs
    · rw [Function.update_of_ne hq] at hin hs
      exact (exec_step hx).owner_of_ne hq (h.seized hin hs)
  · by_cases hq : q = p
    · subst hq
      rw [Function.update_self] at hs ht
      exact h.scanned_own hkept.base hg hx hs ht hcond
    · rw [Function.update_of_ne hq] at hs ht
      have ht := target_other h.kept hinj h.seized hop hallow hx hq ht
      rcases h.scanned hs ht hcond with hid | hgone | hcondemned
      · exact .inl hid
      · exact .inr (.inl (hgone.step (h.once ht.once).1 hg hx))
      · exact .inr (.inr (condemned_other hcondemned hq hx))
  · by_cases hq : q = p
    · subst hq
      rw [Function.update_self] at hs ht
      exact h.purged_own hkept.base hg hx hs ht hcond
    · rw [Function.update_of_ne hq] at hs ht
      have ht := target_other h.kept hinj h.seized hop hallow hx hq ht
      rcases h.purged hs ht hcond with hgone | hcondemned
      · exact .inl (hgone.step (h.once ht.once).1 hg hx)
      · exact .inr (condemned_other hcondemned hq hx)
  · rcases List.mem_append.mp hmem with hnew | hold
    · exact removal_ends h.doomed h.kept hinj hop hallow hx x hnew
    · exact h.removed x hold
  · rcases List.mem_append.mp hmem with hnew | hold
    · obtain ⟨userId, hbans, rfl⟩ := List.mem_map.mp hnew
      exact h.banned_step hkept.base hallow hg hx (Option.mem_toList.mp hbans)
    · exact h.banned ban hold

theorem ambient (h : Tidy S w o gs) (hx : Accounts.ambient e w = some w') : Tidy S w' o gs := by
  obtain ⟨hpending, howner, -, htokens, -, hclock, -⟩ := ambient_frame hx
  have hflight : ∀ {r}, InFlight w' r → InFlight w r := by
    intro r hr
    unfold InFlight at hr ⊢
    rwa [hpending] at hr
  have hcondemned : ∀ {q r}, Condemned w q r → Condemned w' q r := by
    intro q r hr
    unfold Condemned at hr ⊢
    rwa [hpending]
  refine ⟨h.kept.ambient hx, fun q op' ws ids hop hws hmem id hid => ?_, h.named,
    fun {q op' ws r} hop hrefresh hws => ?_, fun {r} hr => ?_, fun {q userId} hin hs => ?_,
    fun {q cond ids r} hs ht hcond => ?_, fun {q cond ids r} hs ht hcond => ?_, h.removed,
    h.banned⟩
  · rw [hpending] at hws
    exact (h.doomed q op' ws ids hop hws hmem id hid).later hclock (List.Subset.refl _)
  · rw [hpending] at hws
    exact h.plain hop hrefresh hws
  · exact ⟨(h.once hr).1, fun hr' => (h.once hr).2 (hflight hr')⟩
  · rw [howner]
    exact h.seized hin hs
  · exact (h.scanned hs ht hcond).imp_right
      (Or.imp (fun hgone => hgone.ambient hx) hcondemned)
  · exact (h.purged hs ht hcond).imp (fun hgone => hgone.ambient hx) hcondemned

/-- A reboot drops what was deleted in open transactions only. -/
theorem reboot (h : Tidy S w o gs) (hx : Accounts.reboot e w = some w') (alive : Pid → Bool)
    (hended : ∀ p op, alive p = true → (gs p).op = some op → isRefresh op = true →
      (gs p).stage = .idle ∨ ∃ stored values, (gs p).stage = .rotated stored values) :
    Tidy S w' o fun p => if alive p then (gs p).settle else Trail.idle := by
  have hgs : ∀ p, (if alive p then (gs p).settle else Trail.idle) = (gs p).settle ∨
      (if alive p then (gs p).settle else Trail.idle) = Trail.idle := by
    intro p
    split
    next => exact .inl rfl
    next => exact .inr rfl
  have hinside : ∀ p, (if alive p then (gs p).settle else Trail.idle).inside = false := by
    intro p
    rcases hgs p with hp | hp <;> rw [hp] <;> rfl
  have hpending : ∀ p, w'.tables.pending p = none := by
    cases hx
    exact fun p => rfl
  refine ⟨h.kept.reboot hx alive hended, fun q op' ws ids hop hws => ?_, fun {q} hin => ?_,
    fun {q op' ws r} hop hrefresh hws => ?_, fun {r} hr => ⟨(h.once hr).1, ?_⟩,
    fun {q userId} hin hs => ?_, fun {q cond ids r} hs ht hcond => ?_,
    fun {q cond ids r} hs ht hcond => ?_, h.removed, h.banned⟩
  · rw [hpending] at hws
    cases hws
  · rw [hinside] at hin
    cases hin
  · rw [hpending] at hws
    cases hws
  · rintro ⟨q, ws, hws, -⟩
    rw [hpending] at hws
    cases hws
  · rw [hinside] at hin
    cases hin
  · rcases hgs q with hq | hq <;> rw [hq] at hs <;> cases hs
  · rcases hgs q with hq | hq <;> rw [hq] at hs ht
    · -- outside of transactions nothing is only condemned
      have hs : (if (gs q).inside then none else (gs q).purged) = some (cond, ids) := hs
      split at hs
      next => cases hs
      next hout =>
        rcases ht with ht | ⟨hin, -⟩
        · rcases h.purged hs (.inl ht) hcond with hgone | ⟨ws, -, hws, -⟩
          · exact .inl (hgone.reboot hx)
          · refine absurd ?_ hout
            rw [h.kept.base.inside q, hws]
            rfl
        · cases hin
    · cases hs

end Tidy

end Invariant

/-! ## §4. Runs. -/

/-- The invariant holds in every run. -/
theorem tidy_run {S : Settings} (hinj : Function.Injective S.sha256) {d : Db}
    (hd : d.refreshTokens = Table.empty) {clock : Timestamp} {c : Conf} {o : History}
    (h : (system S).Reach (watch S) (Config.init (World.boot d clock)) History.blank c o) :
    ∃ gs, Tidy S c.world o gs ∧ Trails S c gs := by
  exact trailed_run (V := watch S) (Tidy S) (fun hI hidle ha => hI.invoke hidle ha)
    (fun hI hop hallow hg hx => hI.step hinj hop hallow hg hx) (fun hI hx => hI.ambient hx)
    (fun {w o gs e w'} alive hI hx hended => hI.reboot (e := e) hx alive (ended_stages hended))
    (Tidy.boot hd S clock) h

/-- **NO SESSION ENDS BY ITSELF.**  In every interleaving, a committed row leaves
`refresh_tokens` only through a step of a call whose operation is to end it:
its own user's logout, logout everywhere, deletion or password change, a ban or
a reset of that user, a rotation of that user after its expiry, or the rotation
of its own token. -/
theorem session_removed {S : Settings} (hinj : Function.Injective S.sha256) {d : Db}
    (hd : d.refreshTokens = Table.empty) {clock : Timestamp} {c : Conf} {o : History}
    (h : (system S).Reach (watch S) (Config.init (World.boot d clock)) History.blank c o) :
    ∀ x ∈ o.removed, Ends S x.clock x.row x.op := by
  obtain ⟨gs, hI, -⟩ := tidy_run hinj hd h
  exact hI.removed

/-- **A REVOKED SESSION IS GONE.**  Whatever runs meanwhile, when a call that is
to delete a session has returned, and the session was committed when the call
was invoked, then no row with its id is committed or about to be. -/
theorem revocation_complete {S : Settings} (hinj : Function.Injective S.sha256) {d : Db}
    (hd : d.refreshTokens = Table.empty) {clock : Timestamp} {c : Conf} {o : History}
    (h : (system S).Reach (watch S) (Config.init (World.boot d clock)) History.blank c o)
    {p : Pid} {op : Op} {reply : Reply} (hreturned : c.returned p op reply) {r : RefreshToken}
    (hr : r ∈ o.initial p) (hrevokes : Op.Revokes S none r op) : Gone c.world r := by
  obtain ⟨gs, hI, hT⟩ := tidy_run hinj hd h
  obtain ⟨hended, -⟩ := hT.returned hreturned
  obtain ⟨hinside, cond, ids, hpurged, hcond⟩ := hended.cleared r hrevokes
  rcases hI.purged hpurged (.inl hr) hcond with hgone | ⟨ws, -, hws, -⟩
  · exact hgone
  · rw [hI.kept.base.inside p, hws] at hinside
    cases hinside

/-- **A ROTATION DOES NOT OUTRUN A BAN.**  When a ban commits, no session of its
user is left that an accepted rotation has added, however the two interleave:
the ban updates the row of the user before it scans, and a rotation holds that
row from before it looks at the status until it has committed. -/
theorem ban_not_outrun {S : Settings} (hinj : Function.Injective S.sha256) {d : Db}
    (hd : d.refreshTokens = Table.empty) {clock : Timestamp} {c : Conf} {o : History}
    (h : (system S).Reach (watch S) (Config.init (World.boot d clock)) History.blank c o) :
    ∀ ban ∈ o.banned, ban.Complete := by
  obtain ⟨gs, hI, -⟩ := tidy_run hinj hd h
  exact hI.banned

/-- She is banned while she rotates: the ban waits for the lock of her row. -/
def banRace : List (Event Env Op) :=
  aliceSignsIn 0 jti₁ 11 ++
  ([.invoke 1 (.refresh aliceCookie), .step 1 {}, .step 1 {}, .step 1 {}, .step 1 {},
   .invoke 2 (.updateStatus 1 .banned), .step 2 {},
   .step 1 {}, .step 1 { text := jti₂ }, .step 1 {}, .step 1 {}, .step 1 {}, .step 1 {},
   .step 1 { uuid := 12 }, .step 1 {}, .step 1 {}, .step 1 {}, .step 1 {},
   .step 2 {}, .step 2 {}, .step 2 {}, .step 2 {}, .step 2 {}, .step 2 {}, .step 2 {}] :
   List (Event Env Op))

/-- Her first session is rotated, the second one is deleted by the ban. -/
def banRaceTest (c : Conf) (o : History) : Bool :=
  decide (o.removed.map (fun x => (x.row.id, x.pid)) = [(12, 2), (11, 1)]) &&
    decide (o.banned.map (fun x => (x.userId, x.accepted.map Acceptance.pid)) = [(1, [1])]) &&
    decide ((o.initial 2).map (fun r => (r.id, r.userId)) = [(11, 1)]) &&
    decide ((c.result 2).map Prod.fst = some (.updateStatus 1 .banned))

/-- The run of the race. -/
theorem banRace_reached : ∃ c o,
    (system sampleSettings).Reach (watch sampleSettings) (Config.init sampleWorld) History.blank
      c o ∧ o.removed.map (fun x => (x.row.id, x.pid)) = [(12, 2), (11, 1)] ∧
      o.banned.map (fun x => (x.userId, x.accepted.map Acceptance.pid)) = [(1, [1])] ∧
      (o.initial 2).map (fun r => (r.id, r.userId)) = [(11, 1)] ∧
      ∃ reply, c.returned 2 (.updateStatus 1 .banned) reply := by
  obtain ⟨c, o, h, ht⟩ := System.Reach.of_replay (S := system sampleSettings)
    (V := watch sampleSettings) sampleWorld History.blank banRace banRaceTest (by decide +kernel)
  simp only [banRaceTest, Bool.and_eq_true, decide_eq_true_eq] at ht
  obtain ⟨⟨⟨hremoved, hbanned⟩, hinitial⟩, hresult⟩ := ht
  obtain ⟨⟨op, reply⟩, hreply, hop⟩ := Option.map_eq_some_iff.mp hresult
  obtain rfl : op = .updateStatus 1 .banned := hop
  exact ⟨c, o, h, hremoved, hbanned, hinitial, reply, Config.returned_of_result hreply⟩

theorem banRace_removed : ∃ c o x,
    (system sampleSettings).Reach (watch sampleSettings) (Config.init sampleWorld) History.blank
      c o ∧ x ∈ o.removed ∧ x.row.id = 12 ∧ x.pid = 2 ∧
      Ends sampleSettings x.clock x.row x.op := by
  obtain ⟨c, o, h, hremoved, -⟩ := banRace_reached
  have hmem : ((12, 2) : TokenId × Pid) ∈ o.removed.map fun x => (x.row.id, x.pid) := by
    rw [hremoved]
    exact List.mem_cons_self
  obtain ⟨x, hx, heq⟩ := List.mem_map.mp hmem
  obtain ⟨hid, hpid⟩ := Prod.mk.inj heq
  exact ⟨c, o, x, h, hx, hid, hpid, session_removed sampleSha256_injective rfl h x hx⟩

theorem banRace_complete : ∃ c o r reply,
    (system sampleSettings).Reach (watch sampleSettings) (Config.init sampleWorld) History.blank
      c o ∧ c.returned 2 (.updateStatus 1 .banned) reply ∧ r ∈ o.initial 2 ∧ r.id = 11 ∧
      Gone c.world r := by
  obtain ⟨c, o, h, -, -, hinitial, reply, hreturned⟩ := banRace_reached
  have hmem : ((11, 1) : TokenId × UserId) ∈ (o.initial 2).map fun r => (r.id, r.userId) := by
    rw [hinitial]
    exact List.mem_cons_self
  obtain ⟨r, hr, heq⟩ := List.mem_map.mp hmem
  obtain ⟨hid, huser⟩ := Prod.mk.inj heq
  exact ⟨c, o, r, reply, h, hreturned, hr, hid,
    revocation_complete sampleSha256_injective rfl h hreturned hr ⟨rfl, huser⟩⟩

theorem banRace_not_outrun : ∃ c o ban,
    (system sampleSettings).Reach (watch sampleSettings) (Config.init sampleWorld) History.blank
      c o ∧ o.banned = [ban] ∧ ban.userId = 1 ∧ ban.accepted.map Acceptance.pid = [1] ∧
      ban.Complete := by
  obtain ⟨c, o, h, -, hbanned, -⟩ := banRace_reached
  cases hbans : o.banned with
  | nil =>
      rw [hbans] at hbanned
      cases hbanned
  | cons ban rest =>
      rw [hbans] at hbanned
      obtain ⟨hban, hrest⟩ := List.cons.inj hbanned
      obtain rfl := List.map_eq_nil_iff.mp hrest
      obtain ⟨huser, haccepted⟩ := Prod.mk.inj hban
      refine ⟨c, o, ban, h, hbans, huser, haccepted,
        ban_not_outrun sampleSha256_injective rfl h ban ?_⟩
      rw [hbans]
      exact List.mem_cons_self

end Sessions

end MinePanel.Accounts
