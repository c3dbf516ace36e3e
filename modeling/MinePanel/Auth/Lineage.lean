/-
  MinePanel.Auth.Lineage
  ──────────────────────
  **WHICH SIGN-IN A SESSION GOES BACK TO.**

  A session is stored by a sign-in, or takes the place of the session that a
  rotation was shown.  What a ban or a password change ends is a sign-in with
  all that was rotated from it, so the history of a run also says of every
  session from which ones it descends, and when the call that signed in had
  first read the row of its user.

    * `Descent`, `Lineage` — where sessions come from;
    * `arrival_cases` — a committed row comes from a rotation that commits, or
      from a sign-in that inserts it;
    * `renewed_cases` — what an accepted rotation was shown.
-/
import MinePanel.Auth.Revocation

namespace MinePanel.Accounts

open MinePanel.Db MinePanel.Lib Prog

namespace Sessions

/-! ## §1. Lineages. -/

/-- Where a session comes from. -/
structure Descent where
  /-- Its id, and the ids of the sessions it was rotated from. -/
  line : List TokenId := []
  /-- The operation that signed in. -/
  op : Option Op := none
  /-- When the call that signed in had first read the row of the user. -/
  read : Nat := 0

/-- An accepted rotation: the user, the session that was presented, and when. -/
structure Renewal where
  userId : UserId
  shown : Descent
  time : Nat

/-- The row of `users` that a step reads. -/
def readRow : ∀ {β : Type}, Act β → β → Option User
  | _, .query (.selectUser _), .ok found => found
  | _, .query (.findUser _), .ok found => found
  | _, .query (.selectUserForUpdate _), .ok found => found
  | _, .query (.insertUser _), .ok row => some row
  | _, .query (.updateUser _ _ _), .ok found => found
  | _, _, _ => none

/-- The committed rows that a step adds. -/
def arrivals (w w' : World) : List RefreshToken :=
  w'.db.refreshTokens.rows.filter fun r => (w.db.refreshTokens.get r.id).isNone

/-- The committed row with this id that a step adds. -/
def arrival (w w' : World) (id : TokenId) : Option RefreshToken :=
  (arrivals w w').find? fun r => r.id == id

/-- The committed session that a rotation presents. -/
def parent (S : Settings) (w : World) (op : Op) : Option RefreshToken :=
  (presented op).bind fun claims =>
    w.db.refreshTokens.rows.find? fun r => r.tokenIdHash == S.sha256 claims.jti

/-- The history of a run, with a count of its steps. -/
structure Lineage where
  history : History
  time : Nat
  /-- When a call first read the row of a user. -/
  reads : Pid → UserId → Option Nat
  descent : TokenId → Descent
  renewals : List Renewal

namespace Lineage

/-- Nothing has happened. -/
def blank : Lineage := ⟨History.blank, 0, fun _ _ => none, fun _ => {}, []⟩

/-- A new call. -/
def opened (o : Lineage) (w : World) (p : Pid) : Lineage :=
  { o with
    history := o.history.opened w p
    reads := Function.update o.reads p fun _ => none }

/-- Where the session that a rotation presents comes from. -/
def shown (o : Lineage) (S : Settings) (w : World) (op : Op) : Option Descent :=
  (parent S w op).map fun r => o.descent r.id

/-- Where a session that call `p` adds comes from. -/
def descends (o : Lineage) (S : Settings) (w : World) (p : Pid) (op : Op) (r : RefreshToken) :
    Descent :=
  match o.shown S w op with
  | some d => { d with line := r.id :: d.line }
  | none => { line := [r.id], op := some op, read := (o.reads p r.userId).getD 0 }

/-- The call reads the row of a user. -/
def noted (o : Lineage) (p : Pid) {β : Type} (a : Act β) (b : β) : Pid → UserId → Option Nat :=
  match readRow a b with
  | some user =>
      Function.update o.reads p
        (Function.update (o.reads p) user.id (some ((o.reads p user.id).getD o.time)))
  | none => o.reads

/-- What a step is accepted as. -/
def renewed (o : Lineage) (S : Settings) (w : World) (op : Op) {β : Type} (a : Act β) (b : β) :
    List Renewal :=
  if commits a b then
    (presented op).toList.map fun claims => ⟨claims.sub, (o.shown S w op).getD {}, o.time⟩
  else []

/-- A step of call `p`. -/
def step (o : Lineage) (S : Settings) (w : World) (p : Pid) (op : Op) {β : Type} (a : Act β)
    (b : β) (w' : World) : Lineage where
  history := o.history.step w p op a b w'
  time := o.time + 1
  reads := o.noted p a b
  descent := fun id => ((arrival w w' id).map (o.descends S w p op)).getD (o.descent id)
  renewals := o.renewed S w op a b ++ o.renewals

end Lineage

/-- The step is a COMMIT. -/
def isCommit : ∀ {β : Type}, Act β → Bool
  | _, .commit => true
  | _, _ => false

/-- The row that a step is to insert. -/
def inserts : ∀ {β : Type}, Act β → Option NewRefreshToken
  | _, .query (.insertToken values) => some values
  | _, _ => none

/-! ## §2. Where committed rows come from. -/

section Arrivals

variable {S : Settings} {o : History} {l : Lineage} {w w' : World} {gs : Pid → Trail} {p : Pid}
  {op : Op} {β : Type} {a : Act β} {e : Env} {b : β} {r stored : RefreshToken} {id : TokenId}

theorem mem_arrivals : r ∈ arrivals w w' ↔
    r ∈ w'.db.refreshTokens.rows ∧ w.db.refreshTokens.get r.id = none := by
  unfold arrivals
  rw [List.mem_filter, Option.isNone_iff_eq_none]

theorem arrival_some (h : arrival w w' id = some r) : r ∈ arrivals w w' ∧ r.id = id := by
  unfold arrival at h
  have hid := List.find?_some h
  exact ⟨List.mem_of_find?_eq_some h, eq_of_beq hid⟩

theorem arrival_self (h : r ∈ arrivals w w') : arrival w w' r.id = some r := by
  cases hfind : arrival w w' r.id with
  | none =>
      have hnone := List.find?_eq_none.mp hfind r h
      simp at hnone
  | some r' =>
      obtain ⟨hmem, hid⟩ := arrival_some hfind
      have hr' := Table.mem_rows.mp (mem_arrivals.mp hmem).1
      rw [hid, Table.mem_rows.mp (mem_arrivals.mp h).1] at hr'
      exact hr'.symm

theorem arrival_old (h : r ∈ w.db.refreshTokens.rows) : arrival w w' r.id = none := by
  cases hfind : arrival w w' r.id with
  | none => rfl
  | some r' =>
      obtain ⟨hmem, hid⟩ := arrival_some hfind
      have hnone := (mem_arrivals.mp hmem).2
      rw [hid, Table.mem_rows.mp h] at hnone
      cases hnone

/-- A session keeps its descent, -/
theorem descent_old (h : r ∈ w.db.refreshTokens.rows) :
    (l.step S w p op a b w').descent r.id = l.descent r.id := by
  show ((arrival w w' r.id).map _).getD _ = _
  rw [arrival_old h]
  rfl

/-- and a new one gets it from the step that adds it. -/
theorem descent_new (h : r ∈ arrivals w w') :
    (l.step S w p op a b w').descent r.id = l.descends S w p op r := by
  show ((arrival w w' r.id).map _).getD _ = _
  rw [arrival_self h]
  rfl

/-- A committed row was there, with its descent, or arrives. -/
theorem old_or_arrival (h : Base S w o gs) {o' : History} {gs' : Pid → Trail}
    (h' : Base S w' o' gs') (hrows : o.rows ⊆ o'.rows) (hr : r ∈ w'.db.refreshTokens.rows) :
    r ∈ w.db.refreshTokens.rows ∨ r ∈ arrivals w w' := by
  cases hget : w.db.refreshTokens.get r.id with
  | none => exact .inr (mem_arrivals.mpr ⟨hr, hget⟩)
  | some r' =>
      have hid : r'.id = r.id := Table.get_key hget
      have hr' : r' ∈ w.db.refreshTokens.rows := by
        rw [Table.mem_rows, hid]
        exact hget
      rw [← h'.issued.eq_of_id (hrows (h.known (.inl hr'))) (h'.known (.inl hr)) hid]
      exact .inl hr'

/-- Outside of rotations nothing is presented. -/
theorem parent_plain (h : isRefresh op = false) : parent S w op = none := by
  unfold parent
  cases hclaims : presented op with
  | none => rfl
  | some claims =>
      rw [presented_isRefresh hclaims] at h
      cases h

/-- The presented session is known by its hash. -/
theorem parent_eq (h : Base S w o gs) {claims : RefreshTokenClaims}
    (hclaims : presented op = some claims) (hstored : stored ∈ w.db.refreshTokens.rows)
    (hhash : stored.tokenIdHash = S.sha256 claims.jti) : parent S w op = some stored := by
  unfold parent
  rw [hclaims, Option.bind_some]
  cases hfind : w.db.refreshTokens.rows.find?
      (fun r => r.tokenIdHash == S.sha256 claims.jti) with
  | none =>
      have hnone := List.find?_eq_none.mp hfind stored hstored
      simp [hhash] at hnone
  | some r =>
      have hr : r.tokenIdHash = S.sha256 claims.jti := by
        have hsome := List.find?_some hfind
        exact eq_of_beq hsome
      refine congrArg some (List.inj_on_of_nodup_map h.issued.hashes.once
        (h.known (.inl (List.mem_of_find?_eq_some hfind))) (h.known (.inl hstored)) ?_)
      rw [hr, hhash]

/-- **What a rotation commits**: it holds the presented session and its user,
and adds sessions of that user only. -/
theorem commit_parent (h : Kept S w o gs) (hinj : Function.Injective S.sha256)
    (hop : (gs p).op = some op) (hallow : (gs p).Handles S op .commit)
    (hrefresh : isRefresh op = true) (hx : exec S p .commit e w = some (.ok (), w')) :
    ∃ claims shown, presented op = some claims ∧ parent S w op = some shown ∧
      shown ∈ w.db.refreshTokens.rows ∧ shown.userId = claims.sub ∧
      w.tables.owner (.user shown.userId) = some p ∧ w.tables.owner (.token shown.id) = some p ∧
      ∀ r ∈ arrivals w w', r.userId = shown.userId := by
  obtain ⟨stored, values, hstage⟩ := hallow.rotation hrefresh
  have hstaged := (h.rotating hop hrefresh).staged
  rw [hstage] at hstaged
  obtain ⟨claims, hclaims, hthere, howner, hhash, -, hrotates, -⟩ :=
    rotates_of_swept h.base hinj hop hstaged
  obtain ⟨-, claims', row, there, hclaims', hgrip, -⟩ := hstaged
  obtain rfl : claims = claims' := Option.some.inj (hclaims.symm.trans hclaims')
  have hmem : stored ∈ w.db.refreshTokens.rows := Table.mem_rows.mpr hthere
  have hsub : stored.userId = claims.sub :=
    h.base.issued.owner hinj (h.base.known (.inl hmem)) (h.base.presents hop hclaims) hhash
  refine ⟨claims, stored, hclaims, parent_eq h.base hclaims hmem hhash, hmem, hsub, ?_, howner,
    fun r hr => ?_⟩
  · rw [hsub]
    exact hgrip.userHeld
  · obtain ⟨hr, hnone⟩ := mem_arrivals.mp hr
    rcases exec_commit hx with ⟨hb, -⟩ | ⟨-, rfl⟩
    · cases hb
    · obtain ⟨stored', row', swept, -, -, -, -, huser, -, -, -, hrows, -⟩ := hrotates
      rcases (hrows r).mp hr with rfl | ⟨hold, -⟩
      · exact huser.trans hsub.symm
      · rw [Table.mem_rows.mp hold] at hnone
        cases hnone

/-- How a session that arrives was rotated. -/
structure Renews (S : Settings) (w : World) (p : Pid) (op : Op) (r shown : RefreshToken) :
    Prop where
  parent : parent S w op = some shown
  there : shown ∈ w.db.refreshTokens.rows
  user : r.userId = shown.userId
  userHeld : w.tables.owner (.user shown.userId) = some p
  tokenHeld : w.tables.owner (.token shown.id) = some p
  inFlight : InFlight w r

/-- **A committed row comes from a rotation that commits, or from a sign-in that
inserts it.** -/
theorem arrival_cases (h : Tidy S w o gs) (hinj : Function.Injective S.sha256)
    (hop : (gs p).op = some op) (hallow : (gs p).Handles S op a)
    (hg : fresh S o w p op a e = true) (hx : exec S p a e w = some (b, w'))
    (hr : r ∈ arrivals w w') :
    (isRefresh op = true ∧ isCommit a = true ∧ ∃ shown, Renews S w p op r shown) ∨
      (isRefresh op = false ∧ r.id ∉ o.rows.map RefreshToken.id ∧
        ∃ values, inserts a = some values ∧ r.userId = values.userId) := by
  obtain ⟨hmem, hnone⟩ := mem_arrivals.mp hr
  have hchanged : w'.db ≠ w.db := by
    intro heq
    rw [heq, Table.mem_rows, hnone] at hmem
    cases hmem
  obtain ⟨may, hstep, hnew⟩ := exec_inserts hx
  -- the row was pending in the transaction of the call, or the step inserts it
  obtain ⟨ws, hdb, hall⟩ := hstep.committed_eq (P := fun x => ∀ r, x = .insertToken r →
      (∃ ws, w.tables.pending p = some ws ∧ .insertToken r ∈ ws) ∨ r ∈ newRows w p a w')
    (fun {ws} hws x hx r hr => .inl ⟨ws, hws, hr ▸ hx⟩) fun x hmay r hr => .inr (hnew r (hr ▸ hmay))
  have hdb : w'.db = ws.foldl Db.apply w.db := hdb
  have hins : Write.insertToken r ∈ ws := by
    rw [hdb] at hmem
    rcases mem_foldl hmem with hold | hins
    · rw [Table.mem_rows, hnone] at hold
      cases hold
    · exact hins
  rcases hall _ hins r rfl with ⟨ws', hws', hmem'⟩ | hrow
  · left
    cases hrefresh : isRefresh op with
    | false => exact absurd hmem' (h.plain hop hrefresh hws')
    | true =>
        cases a with
        | query s => exact absurd (inside_frame hws' hx).1 hchanged
        | begin =>
            rcases exec_begin hx with ⟨-, rfl⟩ | ⟨-, -, rfl⟩
            · exact absurd rfl hchanged
            · exact absurd rfl hchanged
        | rollback =>
            rw [exec_rollback hx] at hchanged
            exact absurd rfl hchanged
        | commit =>
            cases b with
            | error x =>
                rcases exec_commit hx with ⟨-, rfl⟩ | ⟨hb, -⟩
                · exact absurd rfl hchanged
                · cases hb
            | ok _ =>
                obtain ⟨claims, shown, -, hparent, hthere, -, huser, htoken, hsame⟩ :=
                  commit_parent h.kept hinj hop hallow hrefresh hx
                exact ⟨rfl, rfl, shown, hparent, hthere, hsame r hr, huser, htoken,
                  p, ws', hws', hmem'⟩
        | _ =>
            refine absurd ?_ hchanged
            unfold World.db
            rw [exec_silent rfl hx]
  · right
    have hid : r.id ∉ o.rows.map RefreshToken.id := newRows_id hg hx hrow
    cases a with
    | query s =>
        cases s with
        | insertToken values =>
            rcases exec_insertToken hx with ⟨-, -, -, -, hnil⟩ | ⟨-, -, -, -, -, hone⟩
            · rw [hnil] at hrow
              exact absurd hrow List.not_mem_nil
            · rw [hone, List.mem_singleton] at hrow
              refine ⟨?_, hid, values, rfl, by rw [hrow]; rfl⟩
              -- a rotation inserts in its transaction, which adds nothing yet
              cases hrefresh : isRefresh op with
              | false => rfl
              | true =>
                  obtain ⟨hinside, -⟩ := hallow.rotation hrefresh
                  obtain ⟨ws', hws'⟩ : ∃ ws, w.tables.pending p = some ws :=
                    Option.isSome_iff_exists.mp ((h.kept.base.inside p).symm.trans hinside)
                  exact absurd (inside_frame hws' hx).1 hchanged
        | _ => exact absurd hrow List.not_mem_nil
    | _ => exact absurd hrow List.not_mem_nil

/-- **What an accepted rotation was shown**: a committed session. -/
theorem renewed_cases (h : Kept S w l.history gs) (hinj : Function.Injective S.sha256)
    (hop : (gs p).op = some op) (hallow : (gs p).Handles S op a)
    (hx : exec S p a e w = some (b, w')) {x : Renewal} (hmem : x ∈ l.renewed S w op a b) :
    x.time = l.time ∧ isRefresh op = true ∧ isCommit a = true ∧
      ∃ shown ∈ w.db.refreshTokens.rows, parent S w op = some shown ∧
        x.userId = shown.userId ∧ x.shown = l.descent shown.id := by
  unfold Lineage.renewed at hmem
  cases a with
  | commit =>
      cases b with
      | error y => exact absurd hmem List.not_mem_nil
      | ok _ =>
          obtain ⟨claims, hclaims, rfl⟩ := List.mem_map.mp hmem
          have hclaims : presented op = some claims := Option.mem_toList.mp hclaims
          have hrefresh := presented_isRefresh hclaims
          obtain ⟨claims', shown, hclaims', hparent, hthere, hsub, -⟩ :=
            commit_parent h hinj hop hallow hrefresh hx
          obtain rfl : claims = claims' := Option.some.inj (hclaims.symm.trans hclaims')
          refine ⟨rfl, hrefresh, rfl, shown, hthere, hparent, hsub.symm, ?_⟩
          show ((parent S w op).map _).getD _ = _
          rw [hparent]
          rfl
  | _ => exact absurd hmem List.not_mem_nil

/-- Where a rotated session comes from. -/
theorem descends_renewed {shown : RefreshToken} (h : parent S w op = some shown) :
    l.descends S w p op r =
      { l.descent shown.id with line := r.id :: (l.descent shown.id).line } := by
  unfold Lineage.descends Lineage.shown
  rw [h]
  rfl

/-- Where a session comes from that a sign-in stores. -/
theorem descends_signed (h : isRefresh op = false) :
    l.descends S w p op r =
      { line := [r.id], op := some op, read := (l.reads p r.userId).getD 0 } := by
  unfold Lineage.descends Lineage.shown
  rw [parent_plain h]
  rfl

end Arrivals

/-! ## §3. A transaction that has taken a snapshot. -/

section Snapshot

variable {S : Settings} {o : History} {w w' : World} {gs : Pid → Trail} {p q : Pid} {op : Op}
  {β : Type} {a : Act β} {e : Env} {b : β} {r : RefreshToken}

/-- What is committed is not gone. -/
theorem not_gone (hr : r ∈ w.db.refreshTokens.rows) : ¬ Gone w r := fun h => h r (.inl hr) rfl

/-- What a call has deleted in its transaction is locked. -/
theorem Condemned.held (h : Condemned w q r) (hsound : Store.Sound Write.touches w.tables) :
    w.tables.owner (.token r.id) = some q := by
  obtain ⟨ws, ids, hws, hmem, hid⟩ := h
  exact hsound q ws _ _ hws hmem ⟨r.id, hid, rfl⟩

/-- Outside of transactions nothing is only condemned. -/
theorem Condemned.inside (h : Condemned w q r) (hbase : Base S w o gs) : (gs q).inside = true := by
  obtain ⟨ws, -, hws, -⟩ := h
  rw [hbase.inside q, hws]
  rfl

/-- **A committed row of a snapshot**: its id is in it, or its call has deleted
it before. -/
theorem snapshot_covers (h : Tidy S w o gs) {cond : RefreshToken → Bool}
    (hr : r ∈ w.db.refreshTokens.rows) (hcond : cond r = true) :
    r.id ∈ ((w.view p).refreshTokens.rows.filter cond).map RefreshToken.id ∨
      Condemned w p r := by
  have hknown := h.kept.base.known (.inl hr)
  rcases view_cases (p := p) h.kept.base hknown with hseen | hunseen
  · exact .inl (List.mem_map.mpr ⟨r, List.mem_filter.mpr ⟨hseen, hcond⟩, rfl⟩)
  · have hfree := not_inFlight_of_committed h.kept h.named h.plain hr
    exact .inr ((gone_of_unseen h.kept.base hknown hfree hunseen).resolve_left (not_gone hr))

/-- **A committed row that was deleted, after a step of the call**: it is still
committed, so it is still only condemned. -/
theorem condemned_own {o' : History} {gs' : Pid → Trail} (h : Tidy S w o gs)
    (h' : Base S w' o' gs') (hrows : o.rows ⊆ o'.rows) (hg : fresh S o w p op a e = true)
    (hresets : resets a b = false) (hx : exec S p a e w = some (b, w'))
    (hr : r ∈ w.db.refreshTokens.rows) (hr' : r ∈ w'.db.refreshTokens.rows)
    (hcondemned : Condemned w p r) : Condemned w' p r := by
  have hknown := h.kept.base.known (.inl hr)
  have hfree := not_inFlight_of_committed h.kept h.named h.plain hr
  exact (condemned_step h.kept.base h' hknown (hrows hknown) hfree
    (not_inFlight_step hknown hfree hg hx) hcondemned hresets hx).resolve_left (not_gone hr')

/-- **A committed row that a DELETE was to remove**: it is still committed, so
it is condemned. -/
theorem condemned_deleted {o' : History} {gs' : Pid → Trail} (h : Tidy S w o gs)
    (h' : Base S w' o' gs') (hrows : o.rows ⊆ o'.rows) {ids there : List TokenId}
    (hg : fresh S o w p op (.query (.deleteTokens ids)) e = true)
    (hx : exec S p (.query (.deleteTokens ids)) e w = some (.ok there, w'))
    (hr : r ∈ w.db.refreshTokens.rows) (hr' : r ∈ w'.db.refreshTokens.rows)
    (hid : r.id ∈ ids ∨ Condemned w p r) : Condemned w' p r := by
  rcases hid with hid | hcondemned
  · have hknown := h.kept.base.known (.inl hr)
    have hfree := not_inFlight_of_committed h.kept h.named h.plain hr
    rcases view_cases (p := p) h.kept.base hknown with hseen | hunseen
    · refine (deleted_step h' (hrows hknown) (not_inFlight_step hknown hfree hg hx) hid ?_
        hx).resolve_left (not_gone hr')
      rw [Table.mem_rows.mp hseen]
      rfl
    · exact condemned_own h h' hrows hg rfl hx hr hr'
        ((gone_of_unseen h.kept.base hknown hfree hunseen).resolve_left (not_gone hr))
  · exact condemned_own h h' hrows hg rfl hx hr hr' hcondemned

/-- **A snapshot, after a step of its call.** -/
theorem scanned_after {o' : History} {gs' : Pid → Trail} (h : Tidy S w o gs)
    (h' : Base S w' o' gs') (hrows : o.rows ⊆ o'.rows) (hg : fresh S o w p op a e = true)
    (hx : exec S p a e w = some (b, w')) {cond : RefreshToken → Bool} {ids : List TokenId}
    (hscanned : ((gs p).next a b).scanned = some (cond, ids))
    (hr : r ∈ w.db.refreshTokens.rows) (hr' : r ∈ w'.db.refreshTokens.rows)
    (hcond : cond r = true)
    (hold : (gs p).scanned = some (cond, ids) → r.id ∈ ids ∨ Condemned w p r) :
    r.id ∈ ids ∨ Condemned w' p r := by
  cases hresets : resets a b with
  | true =>
      rw [(next_resets (gs p) hresets).1] at hscanned
      cases hscanned
  | false =>
      have hcovered : r.id ∈ ids ∨ Condemned w p r := by
        rcases scanned_step hx hscanned with hscanned | rfl
        · exact hold hscanned
        · exact snapshot_covers h hr hcond
      exact hcovered.imp_right (condemned_own h h' hrows hg hresets hx hr hr')

/-- **A snapshot that was deleted, after a step of its call.** -/
theorem purged_after {o' : History} {gs' : Pid → Trail} (h : Tidy S w o gs)
    (h' : Base S w' o' gs') (hrows : o.rows ⊆ o'.rows) (hg : fresh S o w p op a e = true)
    (hx : exec S p a e w = some (b, w')) {cond : RefreshToken → Bool} {ids : List TokenId}
    (hpurged : ((gs p).next a b).purged = some (cond, ids))
    (hr : r ∈ w.db.refreshTokens.rows) (hr' : r ∈ w'.db.refreshTokens.rows)
    (hold : (gs p).purged = some (cond, ids) → Condemned w p r)
    (hscanned : (gs p).scanned = some (cond, ids) → r.id ∈ ids ∨ Condemned w p r) :
    Condemned w' p r := by
  cases hresets : resets a b with
  | true =>
      rw [(next_resets (gs p) hresets).2] at hpurged
      cases hpurged
  | false =>
      have hkeep : (gs p).purged = some (cond, ids) → Condemned w' p r := fun hp =>
        condemned_own h h' hrows hg hresets hx hr hr' (hold hp)
      cases a with
      | query s =>
          cases b with
          | error y => exact hkeep hpurged
          | ok there =>
              cases s with
              | deleteTokens ids₀ =>
                  obtain ⟨hs, hids⟩ := Option.filter_eq_some_iff.mp hpurged
                  obtain rfl : ids = ids₀ := of_decide_eq_true hids
                  exact condemned_deleted h h' hrows hg hx hr hr' (hscanned hs)
              | updateUser id cond' set => cases hresets
              | _ => exact hkeep hpurged
      | begin =>
          cases b with
          | error y => exact hkeep hpurged
          | ok _ => cases hresets
      | commit =>
          cases b with
          | error y => cases hresets
          | ok _ => exact hkeep hpurged
      | rollback => cases hresets
      | sign payload ttl => cases payload <;> exact hkeep hpurged
      | _ => exact hkeep hpurged

end Snapshot

/-- Call `p` rotates the session of a cookie. -/
def renewing (p : Pid) (cookie : Option RawToken) (jti : String) (id : TokenId) :
    List (Event Env Op) :=
  [.invoke p (.refresh cookie), .step p {}, .step p {}, .step p {}, .step p {}, .step p {},
   .step p { text := jti }, .step p {}, .step p {}, .step p {}, .step p {}, .step p { uuid := id },
   .step p {}, .step p {}, .step p {}, .step p {}]

end Sessions

end MinePanel.Accounts
