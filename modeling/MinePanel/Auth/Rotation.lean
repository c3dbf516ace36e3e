/-
  MinePanel.Auth.Rotation
  ───────────────────────
  **A REFRESH TOKEN IS ACCEPTED ONCE.**

  A rotation looks a row up by the hash of its `jti` alone, locks the user that
  the token names, deletes the row by its id and inserts another; sign-ins,
  logouts, bans and resets go on meanwhile.  Every row belongs to one signed
  token of its own user, no id and no hash comes twice (`Issued`), and what a
  rotation has seen under its locks is still there when it commits (`Staged`).

    * `History` — what was signed and stored, and every accepted rotation;
    * `Source` — where a row is: committed, or pending in some transaction;
    * `Kept` — the invariant;
    * `rotation_once` — **single use, and nothing but the rotation changes**.
-/
import MinePanel.Auth.Sessions
import MinePanel.Accounts.Unique
import MinePanel.Lib.Ticket

namespace MinePanel.Lib.Store

variable {D W K : Type} [DecidableEq K] {apply : D → W → D} {s : Store D W K} {p : Pid}
  {takes : List K}

/-- A statement without writes leaves the pending writes. -/
theorem put_nil_pending : (s.put apply p takes []).pending = s.pending := by
  cases h : s.pending p with
  | none => rw [put_of_none h]
  | some ws₀ =>
      rw [put_of_some h, List.append_nil, ← h]
      exact Function.update_eq_self p s.pending

end MinePanel.Lib.Store

namespace MinePanel.Accounts

open MinePanel.Db MinePanel.Lib Prog

namespace Sessions

/-! ## §1. Rows of `refresh_tokens`. -/

section Rows

variable {d : Db} {x : Write} {r : RefreshToken} {w w' : World} {p : Pid}

/-- An INSERT adds its row where the id is free. -/
theorem get_insertToken (d : Db) (row : RefreshToken) (id : TokenId) :
    (d.apply (.insertToken row)).refreshTokens.get id =
      if row.id = id ∧ d.refreshTokens.get id = none then some row
      else d.refreshTokens.get id := by
  show ((d.refreshTokens.insert row).getD d.refreshTokens).get id = _
  cases hins : d.refreshTokens.insert row with
  | some t =>
      have hfree : d.refreshTokens.get row.id = none := (Table.insert_rows hins).2
      rw [Option.getD_some, Table.get_insert hins]
      by_cases hid : row.id = id
      · subst hid
        rw [if_pos rfl, if_pos ⟨rfl, hfree⟩]
      · rw [if_neg hid, if_neg fun h => hid h.1]
  | none =>
      rw [Option.getD_none, if_neg]
      rintro ⟨rfl, hfree⟩
      obtain ⟨t, ht⟩ := Table.insert_isSome (r := row) hfree
      rw [hins] at ht
      cases ht

theorem get_deleteTokens (d : Db) (ids : List TokenId) (id : TokenId) :
    (d.apply (.deleteTokens ids)).refreshTokens.get id =
      if id ∈ ids then none else d.refreshTokens.get id := by
  show (d.refreshTokens.remove fun r => decide (r.id ∈ ids)).get id = _
  rw [Table.get_remove]
  cases hget : d.refreshTokens.get id with
  | none => simp
  | some r =>
      have hid : r.id = id := Table.get_key hget
      by_cases hmem : id ∈ ids
      · simp [Option.filter_some, hid, hmem]
      · simp [Option.filter_some, hid, hmem]

/-- A write that is no INSERT adds no row. -/
theorem mem_apply (h : r ∈ (d.apply x).refreshTokens.rows) :
    r ∈ d.refreshTokens.rows ∨ x = .insertToken r := by
  cases x with
  | insertToken row =>
      rw [Table.mem_rows, get_insertToken] at h
      split at h
      next => exact .inr (by rw [Option.some.inj h])
      next => exact .inl (Table.mem_rows.mpr h)
  | deleteTokens ids =>
      rw [Table.mem_rows, get_deleteTokens] at h
      split at h
      next => cases h
      next => exact .inl (Table.mem_rows.mpr h)
  | _ => exact .inl h

theorem mem_foldl {ws : List Write} (h : r ∈ (ws.foldl Db.apply d).refreshTokens.rows) :
    r ∈ d.refreshTokens.rows ∨ .insertToken r ∈ ws := by
  induction ws generalizing d with
  | nil => exact .inl h
  | cons x ws ih =>
      rcases ih h with h | h
      · rcases mem_apply h with h | rfl
        · exact .inl h
        · exact .inr List.mem_cons_self
      · exact .inr (List.mem_cons_of_mem _ h)

/-- The lock of a row of `refresh_tokens` protects it. -/
theorem token_protects (id : TokenId) : Store.Protects Db.apply Write.touches (.token id)
    fun d d' => d'.refreshTokens.get id = d.refreshTokens.get id where
  refl := fun _ => rfl
  trans := fun h h' => h'.trans h
  frame := by
    intro d x hx
    cases x with
    | insertToken row =>
        rw [get_insertToken, if_neg]
        rintro ⟨rfl, -⟩
        exact hx rfl
    | deleteTokens ids =>
        rw [get_deleteTokens, if_neg]
        intro hid
        exact hx ⟨id, hid, rfl⟩
    | _ => rfl

/-- The lock of a row of `users` protects it. -/
theorem user_protects (id : UserId) : Store.Protects Db.apply Write.touches (.user id)
    fun d d' => d'.users.get id = d.users.get id where
  refl := fun _ => rfl
  trans := fun h h' => h'.trans h
  frame := by
    intro d x hx
    cases x with
    | insertUser row =>
        show ((d.users.insert row).getD d.users).get id = _
        cases hins : d.users.insert row with
        | none => rfl
        | some t =>
            rw [Option.getD_some, Table.get_insert hins, if_neg]
            rintro rfl
            exact hx rfl
    | updateUser id' set now =>
        rw [get_update]
        cases hget : d.users.get id with
        | none => rfl
        | some u =>
            have hid : u.id = id := Table.get_key hget
            have hne : u.id ≠ id' := fun h => hx (by rw [← hid, h]; rfl)
            rw [Option.map_some, patchUser, if_neg hne]
    | _ => rfl

/-- Some transaction is about to add the row. -/
def InFlight (w : World) (r : RefreshToken) : Prop :=
  ∃ q ws, w.tables.pending q = some ws ∧ .insertToken r ∈ ws

/-- **Where a row is**: committed, or in flight. -/
def Source (w : World) (r : RefreshToken) : Prop :=
  r ∈ w.db.refreshTokens.rows ∨ InFlight w r

/-- A call sees rows that are somewhere. -/
theorem source_of_view (h : r ∈ (w.view p).refreshTokens.rows) : Source w r := by
  unfold World.view Store.view at h
  rcases mem_foldl h with h | h
  · exact .inl h
  · cases hp : w.tables.pending p with
    | none =>
        rw [hp] at h
        exact absurd h List.not_mem_nil
    | some ws =>
        rw [hp] at h
        exact .inr ⟨p, ws, hp, h⟩

/-- Only an INSERT into `refresh_tokens` plans such a row. -/
theorem may_insertToken {β : Type} {a : Act β} {r : RefreshToken} (h : a.May (.insertToken r)) :
    Act.stores a = true := by
  obtain ⟨-, -, hplans⟩ := h
  cases a with
  | query s =>
      obtain ⟨now, e, d, hmem⟩ := hplans
      have hpowers : [Power.issue] = s.powers := plan_powers now e d s _ hmem
      cases s with
      | insertToken values => rfl
      | updateUser id cond set =>
          rcases plan_update now e d id cond set with ⟨-, -, -, -, hwrites⟩ | ⟨hwrites, -⟩
          · rw [hwrites, List.mem_singleton] at hmem
            cases hmem
          · rw [hwrites] at hmem
            exact absurd hmem List.not_mem_nil
      | _ => cases hpowers
  | _ => cases hplans

/-- What is in flight was before, or the step may insert it. -/
theorem inFlight_of_step {may : Write → Prop}
    (hstep : Store.Step Db.apply Write.touches may p w.tables w'.tables) (h : InFlight w' r) :
    InFlight w r ∨ may (.insertToken r) := by
  obtain ⟨q, ws, hws, hmem⟩ := h
  by_cases hq : q = p
  · subst hq
    refine hstep.pending_all (P := fun x => ∀ r, x = .insertToken r →
      InFlight w r ∨ may (.insertToken r)) (fun {ws₀} hws₀ x hx r hr => ?_)
      (fun x hmay r hr => .inr (hr ▸ hmay)) hws _ hmem r rfl
    subst hr
    exact .inl ⟨q, ws₀, hws₀, hx⟩
  · rw [hstep.pending_of_ne hq] at hws
    exact .inl ⟨q, ws, hws, hmem⟩

/-- A row comes from where it was, or the step may insert it. -/
theorem source_of_step {may : Write → Prop}
    (hstep : Store.Step Db.apply Write.touches may p w.tables w'.tables) (h : Source w' r) :
    Source w r ∨ may (.insertToken r) := by
  rcases h with h | h
  · have hown : ∀ {ws}, w.tables.pending p = some ws → ∀ x ∈ ws, ∀ r, x = .insertToken r →
        Source w r ∨ may (.insertToken r) := by
      intro ws hws x hx r hr
      subst hr
      exact .inl (.inr ⟨p, ws, hws, hx⟩)
    obtain ⟨ws, hcommitted, hall⟩ := hstep.committed_eq hown fun x hmay r hr => .inr (hr ▸ hmay)
    unfold World.db at h
    rw [hcommitted] at h
    rcases mem_foldl h with h | h
    · exact .inl (.inl h)
    · exact hall _ h r rfl
  · exact (inFlight_of_step hstep h).imp_left .inr

/-- The rows that an INSERT of call `p` adds to what it sees. -/
def newRows (w : World) (p : Pid) {β : Type} (a : Act β) (w' : World) : List RefreshToken :=
  if Act.stores a then
    (w'.view p).refreshTokens.rows.filter fun r => ((w.view p).refreshTokens.get r.id).isNone
  else []

theorem newRows_of_view (p : Pid) {β : Type} (a : Act β) (h : w'.view p = w.view p) :
    newRows w p a w' = [] := by
  unfold newRows
  split
  next =>
    rw [List.filter_eq_nil_iff]
    intro r hr
    rw [h, Table.mem_rows] at hr
    rw [hr]
    simp
  next => rfl

theorem newRows_of_insert {β : Type} {a : Act β} {row : RefreshToken}
    (hfree : (w.view p).refreshTokens.get row.id = none)
    (hview : w'.view p = (w.view p).apply (.insertToken row)) (ha : Act.stores a = true) :
    newRows w p a w' = [row] := by
  obtain ⟨t, ht⟩ := Table.insert_isSome (r := row) hfree
  have hrows : (w'.view p).refreshTokens.rows = (w.view p).refreshTokens.rows ++ [row] := by
    rw [hview, ← (Table.insert_rows ht).1]
    show ((w.view p).refreshTokens.insert row |>.getD _).rows = t.rows
    rw [ht, Option.getD_some]
  unfold newRows
  rw [if_pos ha, hrows, List.filter_append, List.filter_eq_nil_iff.mpr, List.nil_append,
    List.filter_singleton, hfree]
  · rfl
  · intro r hr
    rw [Table.mem_rows.mp hr]
    simp

/-- An INSERT is refused, or adds a row with a new id under its locks. -/
theorem plan_insertToken (now : Timestamp) (e : Env) (d : Db) (values : NewRefreshToken) :
    ((plan now e d (.insertToken values)).answer ≠ .ok () ∧
        (plan now e d (.insertToken values)).writes = []) ∨
      ((plan now e d (.insertToken values)).answer = .ok () ∧
        d.refreshTokens.get e.uuid = none ∧
        (plan now e d (.insertToken values)).takes =
          [.token e.uuid, .tokenIdHash values.tokenIdHash] ∧
        (plan now e d (.insertToken values)).writes = [.insertToken (values.row e.uuid now)]) := by
  simp only [plan, Plan.refuse]
  split
  next => exact .inl ⟨fun h => (by cases h), rfl⟩
  next =>
    split
    next => exact .inl ⟨fun h => (by cases h), rfl⟩
    next hid =>
      split
      next => exact .inl ⟨fun h => (by cases h), rfl⟩
      next => exact .inr ⟨rfl, Option.not_isSome_iff_eq_none.mp hid, rfl, rfl⟩

/-- **What an INSERT into `refresh_tokens` does**: it is refused and adds
nothing, or it adds one row under its locks. -/
theorem exec_insertToken {S : Settings} {values : NewRefreshToken} {e : Env}
    {b : Except Exn Unit} (hx : exec S p (.query (.insertToken values)) e w = some (b, w')) :
    (b ≠ .ok () ∧ w'.db = w.db ∧ w'.tables.pending = w.tables.pending ∧
        Store.Step Db.apply Write.touches (fun _ => False) p w.tables w'.tables ∧
        newRows w p (.query (.insertToken values)) w' = []) ∨
      (b = .ok () ∧ (w.view p).refreshTokens.get e.uuid = none ∧
        w.tables.isFree p (.token e.uuid) = true ∧
        w'.tables = w.tables.put Db.apply p [.token e.uuid, .tokenIdHash values.tokenIdHash]
          [.insertToken (values.row e.uuid w.clock)] ∧
        Store.Step Db.apply Write.touches (fun x => x = .insertToken (values.row e.uuid w.clock))
          p w.tables w'.tables ∧
        newRows w p (.query (.insertToken values)) w' = [values.row e.uuid w.clock]) := by
  rcases exec_query hx with ⟨rfl, rfl⟩ | ⟨rfl, -, htakes, rfl⟩
  · refine .inl ⟨fun h => ?_, rfl, rfl, .idle, newRows_of_view p _ rfl⟩
    cases h
  · rcases plan_insertToken w.clock e (w.view p) values with ⟨hanswer, hwrites⟩ |
      ⟨hanswer, hfree, htake, hwrites⟩
    · rw [hwrites]
      refine .inl ⟨hanswer, Store.put_nil_committed, Store.put_nil_pending, ?_,
        newRows_of_view p _ Store.view_put⟩
      exact .put htakes (fun x hx => absurd hx List.not_mem_nil)
        fun x hx => absurd hx List.not_mem_nil
    · rw [htake] at htakes ⊢
      rw [hwrites]
      refine .inr ⟨hanswer, hfree, htakes _ List.mem_cons_self, rfl, ?_,
        newRows_of_insert hfree Store.view_put rfl⟩
      refine .put htakes (fun x hx => List.mem_singleton.mp hx) fun x hx k hk => .inl ?_
      rw [List.mem_singleton.mp hx] at hk
      rw [hk]
      exact List.mem_cons_self

/-- What a step inserts is new. -/
theorem exec_inserts {S : Settings} {β : Type} {a : Act β} {e : Env} {b : β}
    (hx : exec S p a e w = some (b, w')) :
    ∃ may, Store.Step Db.apply Write.touches may p w.tables w'.tables ∧
      ∀ r, may (.insertToken r) → r ∈ newRows w p a w' := by
  have hother : Act.stores a = false → ∃ may,
      Store.Step Db.apply Write.touches may p w.tables w'.tables ∧
        ∀ r, may (.insertToken r) → r ∈ newRows w p a w' := by
    intro ha
    refine ⟨a.May, exec_step hx, fun r hmay => ?_⟩
    rw [may_insertToken hmay] at ha
    cases ha
  cases a with
  | query s =>
      cases s with
      | insertToken values =>
          rcases exec_insertToken hx with ⟨-, -, -, hstep, -⟩ | ⟨-, -, -, -, hstep, hnew⟩
          · exact ⟨_, hstep, fun r hmay => hmay.elim⟩
          · refine ⟨_, hstep, fun r hmay => ?_⟩
            rw [hnew, Write.insertToken.inj hmay]
            exact List.mem_cons_self
      | _ => exact hother rfl
  | _ => exact hother rfl

/-- **A row comes from where it was, or is new.** -/
theorem source_step {S : Settings} {β : Type} {a : Act β} {e : Env} {b : β}
    (hx : exec S p a e w = some (b, w')) (h : Source w' r) :
    Source w r ∨ r ∈ newRows w p a w' := by
  obtain ⟨may, hstep, hnew⟩ := exec_inserts hx
  exact (source_of_step hstep h).imp_right (hnew r)

theorem inFlight_step {S : Settings} {β : Type} {a : Act β} {e : Env} {b : β}
    (hx : exec S p a e w = some (b, w')) (h : InFlight w' r) :
    InFlight w r ∨ r ∈ newRows w p a w' := by
  obtain ⟨may, hstep, hnew⟩ := exec_inserts hx
  exact (inFlight_of_step hstep h).imp_right (hnew r)

end Rows

/-! ## §2. The history. -/

/-- An accepted rotation: the call, the claims it presented, when its
transaction began, and what its COMMIT did at what time. -/
structure Acceptance where
  pid : Pid
  claims : RefreshTokenClaims
  began : Timestamp
  clock : Timestamp
  change : Change

/-- The token ids that a step draws. -/
def draws : ∀ {β : Type}, Act β → β → List String
  | _, .createRefreshTokenId, text => [text]
  | _, _, _ => []

/-- The refresh tokens that a step signs. -/
def signs : ∀ {β : Type}, Act β → List RefreshTokenClaims
  | _, .sign (.refresh sub jti temporaryAuth) _ => [⟨sub, jti, temporaryAuth⟩]
  | _, _ => []

/-- The step begins a transaction. -/
def begins : ∀ {β : Type}, Act β → β → Bool
  | _, .begin, b => b.isOk
  | _, _, _ => false

/-- The step commits. -/
def commits : ∀ {β : Type}, Act β → β → Bool
  | _, .commit, b => b.isOk
  | _, _, _ => false

/-- A committed row that a step removes: the call, its operation, and when. -/
structure Removal where
  row : RefreshToken
  pid : Pid
  op : Op
  clock : Timestamp

/-- A ban that has committed, and the rotations accepted before it. -/
structure Ban where
  userId : UserId
  after : Db
  accepted : List Acceptance

/-- The user that a step of an operation bans. -/
def bans : ∀ {β : Type}, Op → Act β → β → Option UserId
  | _, .updateStatus userId .banned, a, b => if commits a b then some userId else none
  | _, _, _, _ => none

/-- The history of a run. -/
structure History where
  /-- The token ids drawn so far. -/
  drawn : List String
  /-- The refresh tokens signed so far. -/
  signed : List RefreshTokenClaims
  /-- Every row ever inserted, committed or not. -/
  rows : List RefreshToken
  /-- When the transaction of a call began. -/
  began : Pid → Option Timestamp
  accepted : List Acceptance
  changes : Ledger
  /-- The sessions that were committed when a call was invoked. -/
  initial : Pid → List RefreshToken
  removed : List Removal
  banned : List Ban

namespace History

/-- Nothing has happened. -/
def blank : History := ⟨[], [], [], fun _ => none, [], Ledger.blank, fun _ => [], [], []⟩

/-- A new call. -/
def opened (o : History) (w : World) (p : Pid) : History :=
  { o with
    began := Function.update o.began p none
    changes := o.changes.opened p
    initial := Function.update o.initial p w.db.refreshTokens.rows }

/-- What a step of call `p` is accepted as. -/
def acceptance (o : History) (w : World) (p : Pid) (op : Op) {β : Type} (a : Act β) (b : β)
    (w' : World) : List Acceptance :=
  if commits a b then
    (presented op).toList.map fun claims =>
      ⟨p, claims, (o.began p).getD 0, w.clock, ⟨w.db, w'.db⟩⟩
  else []

/-- The committed rows that a step of call `p` removes. -/
def removals (w : World) (p : Pid) (op : Op) (w' : World) : List Removal :=
  (w.db.refreshTokens.rows.filter fun r => (w'.db.refreshTokens.get r.id).isNone).map
    fun r => ⟨r, p, op, w.clock⟩

/-- A step of call `p`. -/
def step (o : History) (w : World) (p : Pid) (op : Op) {β : Type} (a : Act β) (b : β)
    (w' : World) : History where
  drawn := draws a b ++ o.drawn
  signed := signs a ++ o.signed
  rows := newRows w p a w' ++ o.rows
  began := if begins a b then Function.update o.began p (some w.clock) else o.began
  accepted := o.acceptance w p op a b w' ++ o.accepted
  changes := o.changes.step w p w'
  initial := o.initial
  removed := removals w p op w' ++ o.removed
  banned := ((bans op a b).toList.map fun userId => ⟨userId, w'.db, o.accepted⟩) ++ o.banned

end History

/-- The ids that a step draws are new, and a clock reading of a rotation falls
within the lifetime of a token from the beginning of its transaction. -/
def fresh (S : Settings) (o : History) (w : World) (p : Pid) (op : Op) :
    ∀ {β : Type}, Act β → Env → Bool
  | _, .createRefreshTokenId, e => decide (e.text ∉ o.drawn)
  | _, .query (.insertToken _), e => decide (e.uuid ∉ o.rows.map RefreshToken.id)
  | _, .now, _ =>
      !isRefresh op || (o.began p).all fun time => decide (w.clock < time + S.refreshTtl)
  | _, _, _ => true

/-- Every interleaving in which no token is forged and no id comes twice. -/
def watch (S : Settings) : Watch Act World Env Op History where
  accepts := fun o _ _ op => (presented op).all fun claims => decide (claims ∈ o.signed)
  guard := fun o w p op _ a e => fresh S o w p op a e
  onInvoke := fun o w p _ => o.opened w p
  onStep := fun o w p op _ a b w' => o.step w p op a b w'

/-- **What an accepted rotation does**: the presented row, which is of the same
user and had not expired, gives way to one new row of that user; what else goes
has expired and is of that user, and nothing else changes. -/
def Acceptance.Rotates (S : Settings) (hash : String) (x : Acceptance) : Prop :=
  ∃ (stored row : RefreshToken) (swept : List RefreshToken),
    stored ∈ x.change.before.refreshTokens.rows ∧ stored.userId = x.claims.sub ∧
    stored.tokenIdHash = S.sha256 x.claims.jti ∧ x.began < stored.expiresAt ∧
    row.userId = x.claims.sub ∧ row.tokenIdHash = hash ∧
    (∀ r ∈ swept, r.userId = x.claims.sub ∧ r.expiresAt ≤ x.clock) ∧
    (∀ r ∈ x.change.before.refreshTokens.rows, r.id ≠ row.id) ∧
    (∀ r, r ∈ x.change.after.refreshTokens.rows ↔
      r = row ∨ (r ∈ x.change.before.refreshTokens.rows ∧ r ≠ stored ∧ r ∉ swept)) ∧
    x.change.after = { x.change.before with refreshTokens := x.change.after.refreshTokens }

/-- The user of an accepted rotation, under the lock of its row. -/
def Acceptance.Allowed (x : Acceptance) : Prop :=
  ∃ user, x.change.before.users.get x.claims.sub = some user ∧ user.status = .active ∧
    user.mustChangePassword = x.claims.temporaryAuth

/-! ## §3. Tokens and rows. -/

/-- **Every token has an id of its own, and every row a token of its own.**  An
id that was drawn waits to be signed, a signed one to be stored. -/
structure Issued (S : Settings) (drawn : List String) (signed : List RefreshTokenClaims)
    (rows : List RefreshToken) (gs : Pid → Trail) : Prop where
  jtis : Tickets drawn (signed.map RefreshTokenClaims.jti) fun p => (gs p).drawn
  hashes : Tickets (signed.map fun claims => S.sha256 claims.jti)
    (rows.map RefreshToken.tokenIdHash) fun p => (gs p).signed.map fun s => S.sha256 s.2
  holds : ∀ {p sub jti}, (gs p).signed = some (sub, jti) →
    ∃ claims ∈ signed, claims.sub = sub ∧ claims.jti = jti
  linked : ∀ r ∈ rows, ∃ claims ∈ signed, claims.sub = r.userId ∧
    r.tokenIdHash = S.sha256 claims.jti
  ids : (rows.map RefreshToken.id).Nodup

namespace Issued

variable {S : Settings} {drawn : List String} {signed : List RefreshTokenClaims}
  {rows : List RefreshToken} {gs gs' : Pid → Trail} {p : Pid} {r r' : RefreshToken}

theorem empty (S : Settings) : Issued S [] [] [] fun _ => Trail.idle where
  jtis := Tickets.empty
  hashes := Tickets.empty
  holds := fun h => nomatch h
  linked := fun _ h => nomatch h
  ids := List.nodup_nil

/-- A row is known by its id, -/
theorem eq_of_id (h : Issued S drawn signed rows gs) (hr : r ∈ rows) (hr' : r' ∈ rows)
    (hid : r.id = r'.id) : r = r' := List.inj_on_of_nodup_map h.ids hr hr' hid

/-- and belongs to the user of its token. -/
theorem owner (h : Issued S drawn signed rows gs) (hinj : Function.Injective S.sha256)
    (hr : r ∈ rows) {claims : RefreshTokenClaims} (hclaims : claims ∈ signed)
    (hhash : r.tokenIdHash = S.sha256 claims.jti) : r.userId = claims.sub := by
  obtain ⟨claims', hclaims', hsub, hhash'⟩ := h.linked r hr
  have hjti : claims'.jti = claims.jti := hinj (hhash'.symm.trans hhash)
  rw [← List.inj_on_of_nodup_map h.jtis.once hclaims' hclaims hjti]
  exact hsub.symm

/-- No call draws or signs. -/
theorem keep (h : Issued S drawn signed rows gs)
    (hdrawn : ∀ q k, (gs' q).drawn = some k → (gs q).drawn = some k)
    (hsigned : ∀ q k, (gs' q).signed = some k → (gs q).signed = some k) :
    Issued S drawn signed rows gs' where
  jtis := h.jtis.keep hdrawn
  hashes := by
    refine h.hashes.keep fun q k hk => ?_
    obtain ⟨s, hs, rfl⟩ := Option.map_eq_some_iff.mp hk
    rw [hsigned q s hs]
    rfl
  holds := fun hs => h.holds (hsigned _ _ hs)
  linked := h.linked
  ids := h.ids

/-- Call `p` does not draw or sign. -/
theorem keep_update (h : Issued S drawn signed rows gs) {t : Trail}
    (hdrawn : ∀ k, t.drawn = some k → (gs p).drawn = some k)
    (hsigned : ∀ k, t.signed = some k → (gs p).signed = some k) :
    Issued S drawn signed rows (Function.update gs p t) := by
  refine h.keep (fun q k hk => ?_) fun q k hk => ?_
  · by_cases hq : q = p
    · subst hq
      rw [Function.update_self] at hk
      exact hdrawn k hk
    · rwa [Function.update_of_ne hq] at hk
  · by_cases hq : q = p
    · subst hq
      rw [Function.update_self] at hk
      exact hsigned k hk
    · rwa [Function.update_of_ne hq] at hk

/-- Call `p` draws an id. -/
theorem draw (h : Issued S drawn signed rows gs) {text : String} (hnew : text ∉ drawn)
    {t : Trail} (hdrawn : t.drawn = some text) (hsigned : t.signed = (gs p).signed) :
    Issued S (text :: drawn) signed rows (Function.update gs p t) := by
  have hsame : ∀ q, ((Function.update gs p t) q).signed = (gs q).signed := by
    intro q
    by_cases hq : q = p
    · subst hq
      rw [Function.update_self]
      exact hsigned
    · rw [Function.update_of_ne hq]
  refine ⟨h.jtis.take hnew (by rw [Function.update_self]; exact hdrawn)
    fun q hq => by rw [Function.update_of_ne hq], ?_, fun {q sub jti} hs => ?_, h.linked, h.ids⟩
  · simp only [hsame]
    exact h.hashes
  · rw [hsame] at hs
    exact h.holds hs

/-- Call `p` signs a token with the id it drew. -/
theorem sign (h : Issued S drawn signed rows gs) (hinj : Function.Injective S.sha256)
    {claims : RefreshTokenClaims} (hheld : (gs p).drawn = some claims.jti) {t : Trail}
    (hdrawn : t.drawn = none) (hsigned : t.signed = some (claims.sub, claims.jti)) :
    Issued S drawn (claims :: signed) rows (Function.update gs p t) := by
  have hother : ∀ q, q ≠ p → (Function.update gs p t) q = gs q :=
    fun q hq => Function.update_of_ne hq _ _
  refine ⟨h.jtis.spend hheld (by rw [Function.update_self]; exact hdrawn)
    fun q hq => by rw [hother q hq], h.hashes.take ?_ (by rw [Function.update_self, hsigned]; rfl)
    fun q hq => by rw [hother q hq], fun {q sub jti} hs => ?_, fun r hr => ?_, h.ids⟩
  · -- the id was not signed before, so its hash is new
    intro hmem
    obtain ⟨claims', hclaims', heq⟩ := List.mem_map.mp hmem
    exact (h.jtis.holds hheld).2 (List.mem_map.mpr ⟨claims', hclaims', hinj heq⟩)
  · by_cases hq : q = p
    · subst hq
      rw [Function.update_self, hsigned] at hs
      obtain ⟨rfl, rfl⟩ := Prod.mk.inj (Option.some.inj hs)
      exact ⟨claims, List.mem_cons_self, rfl, rfl⟩
    · rw [hother q hq] at hs
      obtain ⟨claims', hclaims', hsub⟩ := h.holds hs
      exact ⟨claims', List.mem_cons_of_mem _ hclaims', hsub⟩
  · obtain ⟨claims', hclaims', hsub⟩ := h.linked r hr
    exact ⟨claims', List.mem_cons_of_mem _ hclaims', hsub⟩

/-- Call `p` stores the row of the token it signed. -/
theorem store (h : Issued S drawn signed rows gs) (row : RefreshToken) {jti : String}
    (hheld : (gs p).signed = some (row.userId, jti)) (hhash : row.tokenIdHash = S.sha256 jti)
    (hid : row.id ∉ rows.map RefreshToken.id) {t : Trail} (hdrawn : t.drawn = (gs p).drawn)
    (hsigned : t.signed = none) :
    Issued S drawn signed (row :: rows) (Function.update gs p t) := by
  have hother : ∀ q, q ≠ p → (Function.update gs p t) q = gs q :=
    fun q hq => Function.update_of_ne hq _ _
  have hspend : Tickets (signed.map fun claims => S.sha256 claims.jti)
      (S.sha256 jti :: rows.map RefreshToken.tokenIdHash)
      fun q => ((Function.update gs p t) q).signed.map fun s => S.sha256 s.2 :=
    h.hashes.spend (by rw [hheld]; rfl) (by rw [Function.update_self, hsigned]; rfl)
      fun q hq => by rw [hother q hq]
  refine ⟨h.jtis.keep fun q k hk => ?_, ?_, fun {q sub jti} hs => ?_, fun r hr => ?_,
    List.nodup_cons.mpr ⟨hid, h.ids⟩⟩
  · by_cases hq : q = p
    · subst hq
      rwa [Function.update_self, hdrawn] at hk
    · rwa [hother q hq] at hk
  · rw [List.map_cons, hhash]
    exact hspend
  · by_cases hq : q = p
    · subst hq
      rw [Function.update_self, hsigned] at hs
      cases hs
    · rw [hother q hq] at hs
      exact h.holds hs
  · rcases List.mem_cons.mp hr with rfl | hr
    · obtain ⟨claims, hclaims, hsub, hjti⟩ := h.holds hheld
      exact ⟨claims, hclaims, hsub, by rw [hhash, hjti]⟩
    · exact h.linked r hr

/-- A statement that is no INSERT signs and draws nothing. -/
theorem after_held (t : Trail) {α : Type} (s : Stmt α) (r : α)
    (hs : Act.stores (.query s) = false) :
    (t.after s r).drawn = t.drawn ∧ (t.after s r).signed = t.signed := by
  cases s with
  | insertToken values => cases hs
  | _ => exact ⟨rfl, rfl⟩

/-- **A step of call `p`.** -/
theorem step {o : History} {op : Op} {w w' : World} {β : Type} {a : Act β} {e : Env} {b : β}
    (h : Issued S o.drawn o.signed o.rows gs) (hinj : Function.Injective S.sha256)
    (hallow : (gs p).Handles S op a) (hg : fresh S o w p op a e = true)
    (hx : exec S p a e w = some (b, w')) :
    Issued S (o.step w p op a b w').drawn (o.step w p op a b w').signed
      (o.step w p op a b w').rows (Function.update gs p ((gs p).next a b)) := by
  cases a with
  | query s =>
      cases hs : Act.stores (.query s) with
      | false =>
          have hrows : newRows w p (.query s) w' = [] := by
            unfold newRows
            rw [hs]
            rfl
          show Issued S o.drawn o.signed (newRows w p (.query s) w' ++ o.rows) _
          rw [hrows]
          cases b with
          | error x => exact h.keep_update (fun _ hk => hk) fun _ hk => hk
          | ok r =>
              obtain ⟨hdrawn, hsigned⟩ := after_held (gs p) s r hs
              exact h.keep_update (fun _ hk => hdrawn.symm.trans hk)
                fun _ hk => hsigned.symm.trans hk
      | true =>
          cases s with
          | insertToken values =>
              show Issued S o.drawn o.signed (newRows w p _ w' ++ o.rows) _
              rcases exec_insertToken hx with ⟨hb, -, -, -, hnew⟩ | ⟨rfl, -, -, -, -, hnew⟩
              · rw [hnew]
                cases b with
                | error x => exact h.keep_update (fun _ hk => hk) fun _ hk => hk
                | ok r => exact absurd rfl hb
              · rw [hnew]
                obtain ⟨jti, hsigned, hhash⟩ := hallow.signed
                have hid : e.uuid ∉ o.rows.map RefreshToken.id := of_decide_eq_true hg
                exact h.store (values.row e.uuid w.clock) hsigned hhash hid rfl rfl
          | _ => cases hs
  | createRefreshTokenId =>
      simp only [exec] at hx
      split at hx
      next =>
        cases hx
        exact h.draw (of_decide_eq_true hg) rfl rfl
      next => cases hx
  | sign payload ttl =>
      cases payload with
      | refresh sub jti temporaryAuth =>
          have hdrawn : (gs p).drawn = some (⟨sub, jti, temporaryAuth⟩ : RefreshTokenClaims).jti :=
            hallow
          exact h.sign hinj hdrawn rfl rfl
      | _ => exact h.keep_update (fun _ hk => hk) fun _ hk => hk
  | begin => cases b <;> exact h.keep_update (fun _ hk => hk) fun _ hk => hk
  | commit => cases b <;> exact h.keep_update (fun _ hk => hk) fun _ hk => hk
  | _ => exact h.keep_update (fun _ hk => hk) fun _ hk => hk

end Issued

/-! ## §4. What calls have seen. -/

section Seen

variable {S : Settings} {o : History} {w w' : World} {gs : Pid → Trail} {p q : Pid} {op : Op}
  {β : Type} {a : Act β} {e : Env} {b : β} {r : RefreshToken}

/-- Only the transaction of a call is pending. -/
theorem inside_step (h : (gs p).inside = (w.tables.pending p).isSome)
    (hx : exec S p a e w = some (b, w')) :
    ((gs p).next a b).inside = (w'.tables.pending p).isSome := by
  cases a with
  | query s =>
      have hinside : ((gs p).next (.query s) b).inside = (gs p).inside := by
        cases b with
        | error x => rfl
        | ok r => cases s <;> rfl
      rw [hinside, h]
      rcases exec_query hx with ⟨-, rfl⟩ | ⟨-, -, -, rfl⟩
      · rfl
      · cases hp : w.tables.pending p with
        | none => rw [Store.put_pending_of_none hp]
        | some ws => rw [Store.put_pending_of_some hp]; rfl
  | begin =>
      rcases exec_begin hx with ⟨rfl, rfl⟩ | ⟨rfl, -, rfl⟩
      · exact h
      · show true = _
        rw [Store.begin_pending_self]
        rfl
  | commit =>
      rcases exec_commit hx with ⟨rfl, rfl⟩ | ⟨rfl, rfl⟩
      · show false = _
        rw [Store.rollback_pending_self]
        rfl
      · show false = _
        rw [Store.commit_pending_self]
        rfl
  | rollback =>
      rw [exec_rollback hx]
      show false = _
      rw [Store.rollback_pending_self]
      rfl
  | sign payload ttl =>
      rw [exec_silent rfl hx, ← h]
      cases payload <;> rfl
  | _ =>
      rw [exec_silent rfl hx]
      exact h

/-- The row it is shown is somewhere. -/
theorem stored_step (hx : exec S p a e w = some (b, w'))
    (h : ((gs p).next a b).stored = some r) : (gs p).stored = some r ∨ Source w r := by
  cases a with
  | query s =>
      cases b with
      | error x => exact .inl h
      | ok found =>
          cases s with
          | selectToken hash =>
              rcases exec_query hx with ⟨hb, -⟩ | ⟨hb, -⟩
              · cases hb
              · have hfind : (w.view p).refreshTokens.rows.find?
                    (fun r => r.tokenIdHash == hash) = some r := (Except.ok.inj hb).symm.trans h
                exact .inr (source_of_view (List.mem_of_find?_eq_some hfind))
          | _ => exact .inl h
  | begin =>
      cases b with
      | error x => exact .inl h
      | ok _ => cases h
  | commit => cases b <;> exact .inl h
  | sign payload ttl => cases payload <;> exact .inl h
  | _ => exact .inl h

/-- The rows of a snapshot are somewhere, and meet its condition. -/
theorem scanned_step (hx : exec S p a e w = some (b, w')) {cond : RefreshToken → Bool}
    {ids : List TokenId} (h : ((gs p).next a b).scanned = some (cond, ids)) :
    (gs p).scanned = some (cond, ids) ∨
      ids = ((w.view p).refreshTokens.rows.filter cond).map RefreshToken.id := by
  cases a with
  | query s =>
      cases b with
      | error x => exact .inl h
      | ok found =>
          cases s with
          | scanTokens cond' =>
              rcases exec_query hx with ⟨hb, -⟩ | ⟨hb, -⟩
              · cases hb
              · obtain ⟨rfl, rfl⟩ := Prod.mk.inj (Option.some.inj h)
                exact .inr (Except.ok.inj hb)
          | updateUser id cond' set => cases h
          | _ => exact .inl h
  | begin =>
      cases b with
      | error x => exact .inl h
      | ok _ => cases h
  | commit =>
      cases b with
      | error x => cases h
      | ok _ => exact .inl h
  | rollback => cases h
  | sign payload ttl => cases payload <;> exact .inl h
  | _ => exact .inl h

/-- **What holds of all calls**, rotations or not. -/
structure Base (S : Settings) (w : World) (o : History) (gs : Pid → Trail) : Prop where
  sound : Store.Sound Write.touches w.tables
  inside : ∀ p, (gs p).inside = (w.tables.pending p).isSome
  issued : Issued S o.drawn o.signed o.rows gs
  /-- Every row that is somewhere was inserted. -/
  known : ∀ {r}, Source w r → r ∈ o.rows
  /-- What a rotation presents was signed. -/
  presents : ∀ {p op claims}, (gs p).op = some op → presented op = some claims →
    claims ∈ o.signed
  stored : ∀ {p r}, (gs p).stored = some r → r ∈ o.rows
  scanned : ∀ {p cond ids}, (gs p).scanned = some (cond, ids) →
    ∀ id ∈ ids, ∃ r ∈ o.rows, r.id = id ∧ cond r = true

namespace Base

theorem boot {d : Db} (hd : d.refreshTokens = Table.empty) (S : Settings) (clock : Timestamp) :
    Base S (World.boot d clock) History.blank fun _ => Trail.idle where
  sound := Store.Sound.quiet _
  inside := fun _ => rfl
  issued := Issued.empty S
  known := by
    rintro r (h | ⟨q, ws, hws, -⟩)
    · have hrows : r ∈ d.refreshTokens.rows := h
      rw [hd] at hrows
      exact absurd hrows List.not_mem_nil
    · cases hws
  presents := fun h => nomatch h
  stored := fun h => nomatch h
  scanned := fun h => nomatch h

theorem invoke (h : Base S w o gs) (hp : gs p = Trail.idle)
    (ha : (watch S).accepts o w p op = true) :
    Base S w (o.opened w p) (Function.update gs p (Trail.fresh op)) where
  sound := h.sound
  inside := by
    intro q
    by_cases hq : q = p
    · subst hq
      rw [Function.update_self, ← h.inside q, hp]
      rfl
    · rw [Function.update_of_ne hq]
      exact h.inside q
  issued := h.issued.keep_update (fun _ hk => nomatch hk) fun _ hk => nomatch hk
  known := h.known
  presents := by
    intro q op' claims hop hclaims
    by_cases hq : q = p
    · subst hq
      rw [Function.update_self] at hop
      obtain rfl : op = op' := Option.some.inj hop
      have hall : (presented op).all (fun claims => decide (claims ∈ o.signed)) = true := ha
      rw [hclaims] at hall
      exact of_decide_eq_true hall
    · rw [Function.update_of_ne hq] at hop
      exact h.presents hop hclaims
  stored := by
    intro q r hr
    by_cases hq : q = p
    · subst hq
      rw [Function.update_self] at hr
      cases hr
    · rw [Function.update_of_ne hq] at hr
      exact h.stored hr
  scanned := by
    intro q cond ids hids
    by_cases hq : q = p
    · subst hq
      rw [Function.update_self] at hids
      cases hids
    · rw [Function.update_of_ne hq] at hids
      exact h.scanned hids

/-- **A step of call `p`.** -/
theorem step (h : Base S w o gs) (hinj : Function.Injective S.sha256)
    (hallow : (gs p).Handles S op a) (hg : fresh S o w p op a e = true)
    (hx : exec S p a e w = some (b, w')) :
    Base S w' (o.step w p op a b w') (Function.update gs p ((gs p).next a b)) where
  sound := (exec_step hx).sound h.sound
  inside := by
    intro q
    by_cases hq : q = p
    · subst hq
      rw [Function.update_self]
      exact inside_step (h.inside q) hx
    · rw [Function.update_of_ne hq, (exec_step hx).pending_of_ne hq]
      exact h.inside q
  issued := h.issued.step hinj hallow hg hx
  known := by
    intro r hr
    rcases source_step hx hr with hr | hr
    · exact List.mem_append_right _ (h.known hr)
    · exact List.mem_append_left _ hr
  presents := by
    intro q op' claims hop hclaims
    refine List.mem_append_right _ ?_
    by_cases hq : q = p
    · subst hq
      rw [Function.update_self, Trail.next_op] at hop
      exact h.presents hop hclaims
    · rw [Function.update_of_ne hq] at hop
      exact h.presents hop hclaims
  stored := by
    intro q r hr
    refine List.mem_append_right _ ?_
    by_cases hq : q = p
    · subst hq
      rw [Function.update_self] at hr
      exact (stored_step hx hr).elim h.stored h.known
    · rw [Function.update_of_ne hq] at hr
      exact h.stored hr
  scanned := by
    intro q cond ids hids id hid
    have hold : ∀ r ∈ o.rows, r.id = id ∧ cond r = true →
        ∃ r ∈ newRows w p a w' ++ o.rows, r.id = id ∧ cond r = true :=
      fun r hr hcond => ⟨r, List.mem_append_right _ hr, hcond⟩
    by_cases hq : q = p
    · subst hq
      rw [Function.update_self] at hids
      rcases scanned_step hx hids with hids | rfl
      · obtain ⟨r, hr, hcond⟩ := h.scanned hids id hid
        exact hold r hr hcond
      · obtain ⟨r, hr, rfl⟩ := List.mem_map.mp hid
        obtain ⟨hr, hcond⟩ := List.mem_filter.mp hr
        exact hold r (h.known (source_of_view hr)) ⟨rfl, hcond⟩
    · rw [Function.update_of_ne hq] at hids
      obtain ⟨r, hr, hcond⟩ := h.scanned hids id hid
      exact hold r hr hcond

theorem ambient (h : Base S w o gs) (hx : Accounts.ambient e w = some w') : Base S w' o gs := by
  obtain ⟨hpending, howner, -, htokens, -⟩ := ambient_frame hx
  have hsource : ∀ r, Source w' r → Source w r := by
    intro r hr
    unfold Source InFlight at hr ⊢
    rwa [htokens, hpending] at hr
  refine ⟨?_, fun p => ?_, h.issued, fun hr => h.known (hsource _ hr), h.presents, h.stored,
    h.scanned⟩
  · intro q ws x k hws hxws hk
    rw [hpending] at hws
    rw [howner]
    exact h.sound q ws x k hws hxws hk
  · rw [hpending]
    exact h.inside p

theorem reboot (h : Base S w o gs) (hx : Accounts.reboot e w = some w') (alive : Pid → Bool) :
    Base S w' o fun p => if alive p then (gs p).settle else Trail.idle := by
  cases hx
  have hgs : ∀ p, (if alive p then (gs p).settle else Trail.idle) = (gs p).settle ∨
      (if alive p then (gs p).settle else Trail.idle) = Trail.idle := by
    intro p
    split
    next => exact .inl rfl
    next => exact .inr rfl
  refine ⟨Store.Sound.crash _, fun p => ?_, h.issued.keep (fun p k hk => ?_) fun p k hk => ?_,
    fun {r} hr => h.known ?_, fun {p op claims} hop hclaims => ?_, fun {p r} hr => ?_,
    fun {p cond ids} hids => ?_⟩
  · rcases hgs p with hp | hp <;> rw [hp] <;> rfl
  · rcases hgs p with hp | hp <;> rw [hp] at hk <;> cases hk
  · rcases hgs p with hp | hp <;> rw [hp] at hk <;> cases hk
  · rcases hr with hr | ⟨q, ws, hws, -⟩
    · exact .inl hr
    · cases hws
  · rcases hgs p with hp | hp <;> rw [hp] at hop
    · exact h.presents hop hclaims
    · cases hop
  · rcases hgs p with hp | hp <;> rw [hp] at hr
    · exact h.stored hr
    · cases hr
  · rcases hgs p with hp | hp <;> rw [hp] at hids <;> cases hids

end Base

end Seen

/-! ## §5. A rotation, stage by stage. -/

section Stages

variable {S : Settings} {o o' : History} {w w' : World} {gs : Pid → Trail} {p q : Pid} {op : Op}
  {β : Type} {a : Act β} {e : Env} {b : β} {claims : RefreshTokenClaims}
  {stored row : RefreshToken}

/-- The presented row and its user, which the call keeps locked. -/
structure Grip (S : Settings) (w : World) (o : History) (p : Pid) (claims : RefreshTokenClaims)
    (stored : RefreshToken) : Prop where
  there : w.db.refreshTokens.get stored.id = some stored
  held : w.tables.owner (.token stored.id) = some p
  hash : stored.tokenIdHash = S.sha256 claims.jti
  valid : ∃ time, o.began p = some time ∧ time < stored.expiresAt
  user : ∃ user, w.db.users.get claims.sub = some user ∧ user.status = .active ∧
    user.mustChangePassword = claims.temporaryAuth
  userHeld : w.tables.owner (.user claims.sub) = some p

/-- The new row, which nobody else can see. -/
structure Fresh (S : Settings) (w : World) (o : History) (p : Pid) (claims : RefreshTokenClaims)
    (hash : String) (row : RefreshToken) : Prop where
  known : row ∈ o.rows
  free : w.db.refreshTokens.get row.id = none
  held : w.tables.owner (.token row.id) = some p
  userId : row.userId = claims.sub
  hash : row.tokenIdHash = hash
  lasts : ∃ time, o.began p = some time ∧ time + S.refreshTtl ≤ row.expiresAt

/-- The swept rows have expired, before the new one does. -/
def Swept (w : World) (o : History) (claims : RefreshTokenClaims) (row : RefreshToken)
    (there : List TokenId) : Prop :=
  ∀ id ∈ there, ∃ r ∈ o.rows, r.id = id ∧ r.userId = claims.sub ∧ r.expiresAt ≤ w.clock ∧
    r.expiresAt < row.expiresAt

/-- **What the stage of a rotation says about the tables and the history.** -/
def Staged (S : Settings) (w : World) (o : History) (p : Pid) (op : Op) : Stage → Prop
  | .idle => o.changes p = [] ∧ ∀ ws, w.tables.pending p = some ws → ws = []
  | .missed => o.changes p = [] ∧
      ∀ ws, w.tables.pending p = some ws → ∀ r, .insertToken r ∉ ws
  | .consumed stored => o.changes p = [] ∧ ∃ claims, presented op = some claims ∧
      Grip S w o p claims stored ∧ w.tables.pending p = some [.deleteTokens [stored.id]]
  | .replaced stored values => o.changes p = [] ∧ ∃ claims row, presented op = some claims ∧
      Grip S w o p claims stored ∧ Fresh S w o p claims values.tokenIdHash row ∧
      w.tables.pending p = some [.deleteTokens [stored.id], .insertToken row]
  | .swept stored values => o.changes p = [] ∧ ∃ claims row there, presented op = some claims ∧
      Grip S w o p claims stored ∧ Fresh S w o p claims values.tokenIdHash row ∧
      Swept w o claims row there ∧ w.tables.pending p =
        some [.deleteTokens [stored.id], .insertToken row, .deleteTokens there]
  | .rotated _ values => w.tables.pending p = none ∧ ∃ x ∈ o.accepted, x.pid = p ∧
      presented op = some x.claims ∧ o.changes p = [x.change] ∧
      x.Rotates S values.tokenIdHash ∧ x.Allowed

/-- What call `p` can rely on has not moved. -/
structure Later (w : World) (o : History) (p : Pid) (w' : World) (o' : History) : Prop where
  began : o'.began p = o.began p
  changes : o'.changes p = o.changes p
  rows : o.rows ⊆ o'.rows
  accepted : o.accepted ⊆ o'.accepted
  clock : w.clock ≤ w'.clock
  pending : w'.tables.pending p = w.tables.pending p
  owner : ∀ {k}, w.tables.owner k = some p → w'.tables.owner k = some p
  token : ∀ {id}, w.tables.owner (.token id) = some p →
    w'.db.refreshTokens.get id = w.db.refreshTokens.get id
  user : ∀ {id}, w.tables.owner (.user id) = some p → w'.db.users.get id = w.db.users.get id

theorem Grip.later (h : Grip S w o p claims stored) (hl : Later w o p w' o') :
    Grip S w' o' p claims stored where
  there := (hl.token h.held).trans h.there
  held := hl.owner h.held
  hash := h.hash
  valid := by
    rw [hl.began]
    exact h.valid
  user := by
    rw [hl.user h.userHeld]
    exact h.user
  userHeld := hl.owner h.userHeld

theorem Fresh.later {hash : String} (h : Fresh S w o p claims hash row)
    (hl : Later w o p w' o') : Fresh S w' o' p claims hash row where
  known := hl.rows h.known
  free := (hl.token h.held).trans h.free
  held := hl.owner h.held
  userId := h.userId
  hash := h.hash
  lasts := by
    rw [hl.began]
    exact h.lasts

theorem Swept.later {there : List TokenId} (h : Swept w o claims row there)
    (hl : Later w o p w' o') : Swept w' o' claims row there := by
  intro id hid
  obtain ⟨r, hr, hrid, huser, hexpired, hbefore⟩ := h id hid
  exact ⟨r, hl.rows hr, hrid, huser, hexpired.trans hl.clock, hbefore⟩

theorem Staged.later {stage : Stage} (h : Staged S w o p op stage) (hl : Later w o p w' o') :
    Staged S w' o' p op stage := by
  cases stage with
  | idle =>
      refine ⟨hl.changes.trans h.1, fun ws hws => h.2 ws ?_⟩
      rw [← hl.pending]
      exact hws
  | missed =>
      refine ⟨hl.changes.trans h.1, fun ws hws => h.2 ws ?_⟩
      rw [← hl.pending]
      exact hws
  | consumed stored =>
      obtain ⟨hchanges, claims, hclaims, hgrip, hpending⟩ := h
      exact ⟨hl.changes.trans hchanges, claims, hclaims, hgrip.later hl,
        hl.pending.trans hpending⟩
  | replaced stored values =>
      obtain ⟨hchanges, claims, row, hclaims, hgrip, hfresh, hpending⟩ := h
      exact ⟨hl.changes.trans hchanges, claims, row, hclaims, hgrip.later hl, hfresh.later hl,
        hl.pending.trans hpending⟩
  | swept stored values =>
      obtain ⟨hchanges, claims, row, there, hclaims, hgrip, hfresh, hswept, hpending⟩ := h
      exact ⟨hl.changes.trans hchanges, claims, row, there, hclaims, hgrip.later hl,
        hfresh.later hl, hswept.later hl, hl.pending.trans hpending⟩
  | rotated stored values =>
      obtain ⟨hpending, x, hx, hpid, hclaims, hchanges, hrotates⟩ := h
      exact ⟨hl.pending.trans hpending, x, hl.accepted hx, hpid, hclaims,
        hl.changes.trans hchanges, hrotates⟩

/-- A step of another call. -/
theorem later_other (hsound : Store.Sound Write.touches w.tables)
    (hx : exec S p a e w = some (b, w')) (hq : q ≠ p) :
    Later w o q w' (o.step w p op a b w') where
  began := by
    show (if begins a b then Function.update o.began p _ else o.began) q = _
    split
    next => exact Function.update_of_ne hq _ _
    next => rfl
  changes := Ledger.step_of_ne hq
  rows := List.subset_append_right _ _
  accepted := List.subset_append_right _ _
  clock := (exec_clock hx).ge
  pending := (exec_step hx).pending_of_ne hq
  owner := fun hk => (exec_step hx).owner_of_ne hq hk
  token := fun hk => hsound.still (exec_step hx) (token_protects _) hk hq
  user := fun hk => hsound.still (exec_step hx) (user_protects _) hk hq

/-- A step of its own that begins nothing and leaves what is pending. -/
theorem later_own (hx : exec S p a e w = some (b, w')) (hbegins : begins a b = false)
    (hdb : w'.db = w.db) (hpending : w'.tables.pending p = w.tables.pending p)
    (howner : ∀ {k}, w.tables.owner k = some p → w'.tables.owner k = some p) :
    Later w o p w' (o.step w p op a b w') where
  began := by
    show (if begins a b then _ else o.began) p = _
    rw [hbegins]
    rfl
  changes := by
    show o.changes.step w p w' p = _
    rw [Ledger.step_of_eq hdb]
  rows := List.subset_append_right _ _
  accepted := List.subset_append_right _ _
  clock := (exec_clock hx).ge
  pending := hpending
  owner := howner
  token := fun _ => by rw [hdb]
  user := fun _ => by rw [hdb]

theorem later_ambient (hx : ambient e w = some w') : Later w o p w' o := by
  obtain ⟨hpending, howner, husers, htokens, -, hclock, -⟩ := ambient_frame hx
  refine ⟨rfl, rfl, List.Subset.refl _, List.Subset.refl _, hclock, by rw [hpending], fun hk => ?_,
    fun _ => by rw [htokens], fun _ => by rw [husers]⟩
  rw [howner]
  exact hk

/-- The clock readings of a transaction fall into it. -/
def Timed (S : Settings) (w : World) (o : History) (p : Pid) (t : Trail) : Prop :=
  t.inside = true → ∃ time, o.began p = some time ∧ time ≤ w.clock ∧
    ∀ now, t.now = some now → time ≤ now ∧ now < time + S.refreshTtl ∧ now ≤ w.clock

/-- The locked user is as it was read. -/
def Locked (w : World) (p : Pid) (t : Trail) : Prop :=
  t.inside = true → ∀ user, t.locked = some user →
    w.db.users.get user.id = some user ∧ w.tables.owner (.user user.id) = some p

/-- **What holds of a rotation.** -/
structure Rotating (S : Settings) (w : World) (o : History) (p : Pid) (op : Op) (t : Trail) :
    Prop where
  timed : Timed S w o p t
  locked : Locked w p t
  staged : Staged S w o p op t.stage

theorem Timed.later {t : Trail} (h : Timed S w o p t) (hl : Later w o p w' o') :
    Timed S w' o' p t := by
  intro hinside
  obtain ⟨time, hbegan, hclock, hnow⟩ := h hinside
  refine ⟨time, hl.began.trans hbegan, hclock.trans hl.clock, fun now hn => ?_⟩
  obtain ⟨hge, hlt, hle⟩ := hnow now hn
  exact ⟨hge, hlt, hle.trans hl.clock⟩

theorem Locked.later {t : Trail} (h : Locked w p t) (hl : Later w o p w' o') :
    Locked w' p t := by
  intro hinside user huser
  obtain ⟨hget, howner⟩ := h hinside user huser
  exact ⟨(hl.user howner).trans hget, hl.owner howner⟩

theorem Rotating.later {t : Trail} (h : Rotating S w o p op t) (hl : Later w o p w' o') :
    Rotating S w' o' p op t := ⟨h.timed.later hl, h.locked.later hl, h.staged.later hl⟩

/-- A DELETE by ids fails, or removes and locks those that are there. -/
theorem exec_deleteTokens {ids : List TokenId} {b : Except Exn (List TokenId)}
    (hx : exec S p (.query (.deleteTokens ids)) e w = some (b, w')) :
    (b = .error .statementFailed ∧ w' = w) ∨ ∃ there,
      there = ids.filter (fun id => ((w.view p).refreshTokens.get id).isSome) ∧ b = .ok there ∧
      w'.tables = w.tables.put Db.apply p (there.map Lock.token) [.deleteTokens there] := by
  rcases exec_query hx with ⟨rfl, rfl⟩ | ⟨rfl, -, -, rfl⟩
  · exact .inl ⟨rfl, rfl⟩
  · exact .inr ⟨_, rfl, rfl, rfl⟩

/-- A statement inside a transaction leaves the committed tables, and every lock
of its call. -/
theorem inside_frame {α : Type} {s : Stmt α} {b : Except Exn α} {ws : List Write}
    (hp : w.tables.pending p = some ws) (hx : exec S p (.query s) e w = some (b, w')) :
    w'.db = w.db ∧ ∀ {k}, w.tables.owner k = some p → w'.tables.owner k = some p := by
  rcases exec_query hx with ⟨-, rfl⟩ | ⟨-, -, -, rfl⟩
  · exact ⟨rfl, fun hk => hk⟩
  · exact ⟨Store.put_committed_of_some hp, fun hk => Store.put_owner_self hk⟩

/-- What a statement of a transaction does to the history of its call. -/
theorem inside_history {α : Type} {s : Stmt α} {b : Except Exn α} {ws : List Write}
    (hp : w.tables.pending p = some ws) (hx : exec S p (.query s) e w = some (b, w')) :
    (o.step w p op (.query s) b w').began p = o.began p ∧
      (o.step w p op (.query s) b w').changes p = o.changes p := by
  refine ⟨rfl, ?_⟩
  show o.changes.step w p w' p = _
  rw [Ledger.step_of_eq (inside_frame hp hx).1]

/-- What is known of the presented row and its user stays. -/
theorem Grip.inside {α : Type} {s : Stmt α} {b : Except Exn α} {ws : List Write}
    (h : Grip S w o p claims stored) (hp : w.tables.pending p = some ws)
    (hx : exec S p (.query s) e w = some (b, w')) :
    Grip S w' (o.step w p op (.query s) b w') p claims stored := by
  obtain ⟨hdb, howner⟩ := inside_frame hp hx
  refine ⟨?_, howner h.held, h.hash, h.valid, ?_, howner h.userHeld⟩
  · rw [hdb]
    exact h.there
  · rw [hdb]
    exact h.user

theorem Fresh.inside {α : Type} {s : Stmt α} {b : Except Exn α} {ws : List Write} {hash : String}
    (h : Fresh S w o p claims hash row) (hp : w.tables.pending p = some ws)
    (hx : exec S p (.query s) e w = some (b, w')) :
    Fresh S w' (o.step w p op (.query s) b w') p claims hash row := by
  obtain ⟨hdb, howner⟩ := inside_frame hp hx
  refine ⟨List.mem_append_right _ h.known, ?_, howner h.held, h.userId, h.hash, h.lasts⟩
  rw [hdb]
  exact h.free

/-- The presented row is deleted. -/
theorem staged_consume {ids : List TokenId} {b : Except Exn (List TokenId)}
    (h : Base S w o gs) (hr : Rotating S w o p op (gs p)) (hconsumes : (gs p).Consumes S op ids)
    (hx : exec S p (.query (.deleteTokens ids)) e w = some (b, w')) :
    Staged S w' (o.step w p op (.query (.deleteTokens ids)) b w') p op
      ((gs p).next (.query (.deleteTokens ids)) b).stage := by
  obtain ⟨hinside, hstage, claims, stored, user, now, hclaims, hstored, rfl, hhash, hnow, hvalid,
    hlocked, hid, hactive, hmode⟩ := hconsumes
  have hstaged := hr.staged
  rw [hstage] at hstaged
  obtain ⟨hchanges, hempty⟩ := hstaged
  obtain ⟨ws, hws⟩ : ∃ ws, w.tables.pending p = some ws :=
    Option.isSome_iff_exists.mp ((h.inside p).symm.trans hinside)
  obtain rfl := hempty ws hws
  obtain ⟨hdb, howner⟩ := inside_frame hws hx
  have hchanges' : (o.step w p op (.query (.deleteTokens [stored.id])) b w').changes p = [] :=
    (inside_history hws hx).2.trans hchanges
  rcases exec_deleteTokens hx with ⟨rfl, rfl⟩ | ⟨there, hthere, rfl, htables⟩
  · show Staged S w' _ p op (gs p).stage
    rw [hstage]
    exact ⟨hchanges', hempty⟩
  · show Staged S w' _ p op ((gs p).stage.delete (gs p).stored there)
    rw [hstage, hstored]
    have hview : w.view p = w.db := Store.view_of_some hws
    rw [hview] at hthere
    cases hget : w.db.refreshTokens.get stored.id with
    | none =>
        have hnil : there = [] := by simp [hthere, hget]
        rw [hnil] at htables ⊢
        refine ⟨hchanges', fun ws hws' r hmem => ?_⟩
        rw [htables, Store.put_pending_of_some hws, Option.some.injEq] at hws'
        rw [← hws', List.nil_append, List.mem_singleton] at hmem
        cases hmem
    | some r =>
        have hone : there = [stored.id] := by simp [hthere, hget]
        -- ids are unique, so the row is the one that was looked up
        have hrow : r = stored := by
          refine h.issued.eq_of_id (h.known (.inl (Table.mem_rows.mpr ?_))) (h.stored hstored)
            (Table.get_key hget)
          rw [Table.get_key hget]
          exact hget
        subst hrow
        subst hone
        obtain ⟨time, hbegan, -, htimed⟩ := hr.timed hinside
        obtain ⟨huser, hheld⟩ := hr.locked hinside user hlocked
        rw [hid] at huser hheld
        refine ⟨hchanges', claims, hclaims, ⟨?_, ?_, hhash, ⟨time, hbegan, ?_⟩, ⟨user, ?_, hactive,
          hmode⟩, howner hheld⟩, ?_⟩
        · rw [hdb]
          exact hget
        · rw [htables]
          exact Store.put_owner_of_some hws List.mem_cons_self
        · exact lt_of_le_of_lt (htimed now hnow).1 hvalid
        · rw [hdb]
          exact huser
        · rw [htables]
          exact Store.put_pending_of_some hws

/-- An id that a rotation draws for its row is free. -/
theorem uuid_free (h : Base S w o gs) {id : TokenId} (hid : id ∉ o.rows.map RefreshToken.id) :
    w.db.refreshTokens.get id = none := by
  rw [Table.get_eq_none]
  intro r hr hrid
  exact hid (List.mem_map.mpr ⟨r, h.known (.inl hr), hrid⟩)

/-- The new row is inserted. -/
theorem staged_replace {values : NewRefreshToken} {b : Except Exn Unit}
    (h : Base S w o gs) (hr : Rotating S w o p op (gs p)) (hreplaces : (gs p).Replaces S op values)
    (hg : fresh S o w p op (.query (.insertToken values)) e = true)
    (hx : exec S p (.query (.insertToken values)) e w = some (b, w')) :
    Staged S w' (o.step w p op (.query (.insertToken values)) b w') p op
      ((gs p).next (.query (.insertToken values)) b).stage := by
  obtain ⟨hinside, claims, stored, now, hclaims, hstage, huserId, hnow, hexpires⟩ := hreplaces
  have hstaged := hr.staged
  rw [hstage] at hstaged
  obtain ⟨hchanges, claims', hclaims', hgrip, hws⟩ := hstaged
  obtain rfl : claims = claims' := Option.some.inj (hclaims.symm.trans hclaims')
  have hchanges' : (o.step w p op (.query (.insertToken values)) b w').changes p = [] :=
    (inside_history hws hx).2.trans hchanges
  obtain ⟨hdb, -⟩ := inside_frame hws hx
  rcases exec_insertToken hx with ⟨hb, -, hpending, -, -⟩ | ⟨rfl, -, -, htables, -, hnew⟩
  · cases b with
    | ok _ => exact absurd rfl hb
    | error x =>
        show Staged S w' _ p op (gs p).stage
        rw [hstage]
        refine ⟨hchanges', claims, hclaims, hgrip.inside hws hx, ?_⟩
        rw [hpending]
        exact hws
  · show Staged S w' _ p op ((gs p).stage.insert values)
    rw [hstage]
    have hid : e.uuid ∉ o.rows.map RefreshToken.id := of_decide_eq_true hg
    obtain ⟨time, hbegan, -, htimed⟩ := hr.timed hinside
    refine ⟨hchanges', claims, values.row e.uuid w.clock, hclaims, hgrip.inside hws hx,
      ⟨?_, ?_, ?_, huserId, rfl, time, hbegan, ?_⟩, ?_⟩
    · show _ ∈ newRows w p _ w' ++ o.rows
      rw [hnew]
      exact List.mem_cons_self
    · rw [hdb]
      exact uuid_free h hid
    · rw [htables]
      exact Store.put_owner_of_some hws List.mem_cons_self
    · show time + S.refreshTtl ≤ values.expiresAt
      rw [hexpires]
      exact Nat.add_le_add_right (htimed now hnow).1 _
    · rw [htables]
      exact Store.put_pending_of_some hws

/-- The expired rows are deleted. -/
theorem staged_sweep {ids : List TokenId} {b : Except Exn (List TokenId)} (h : Base S w o gs)
    (hrefresh : isRefresh op = true) (hr : Rotating S w o p op (gs p))
    (hpurges : (gs p).Purges S op ids)
    (hx : exec S p (.query (.deleteTokens ids)) e w = some (b, w')) :
    Staged S w' (o.step w p op (.query (.deleteTokens ids)) b w') p op
      ((gs p).next (.query (.deleteTokens ids)) b).stage := by
  obtain ⟨cond, hscanned, hrevokes, hstages⟩ := hpurges
  obtain ⟨hinside, stored, values, hstage⟩ := hstages hrefresh
  have hstaged := hr.staged
  rw [hstage] at hstaged
  obtain ⟨hchanges, claims, row, hclaims, hgrip, hfresh, hws⟩ := hstaged
  have hchanges' : (o.step w p op (.query (.deleteTokens ids)) b w').changes p = [] :=
    (inside_history hws hx).2.trans hchanges
  rcases exec_deleteTokens hx with ⟨rfl, rfl⟩ | ⟨there, hthere, rfl, htables⟩
  · show Staged S w' _ p op (gs p).stage
    rw [hstage]
    exact ⟨hchanges', claims, row, hclaims, hgrip.inside hws hx, hfresh.inside hws hx, hws⟩
  · show Staged S w' _ p op ((gs p).stage.delete (gs p).stored there)
    rw [hstage]
    refine ⟨hchanges', claims, row, there, hclaims, hgrip.inside hws hx, hfresh.inside hws hx,
      fun id hid => ?_, ?_⟩
    · rw [hthere] at hid
      obtain ⟨r, hrow, hrid, hcond⟩ := h.scanned hscanned id (List.mem_filter.mp hid).1
      obtain ⟨claims', hclaims', huser, now, hnow, hexpired⟩ :
          ∃ claims, presented op = some claims ∧ r.userId = claims.sub ∧
            ∃ now, (gs p).now = some now ∧ r.expiresAt ≤ now := by
        cases op with
        | refresh cookie => exact hrevokes r hcond
        | _ => cases hrefresh
      obtain rfl : claims = claims' := Option.some.inj (hclaims.symm.trans hclaims')
      obtain ⟨time, hbegan, -, htimed⟩ := hr.timed hinside
      obtain ⟨time', hbegan', hlasts⟩ := hfresh.lasts
      obtain rfl : time = time' := Option.some.inj (hbegan.symm.trans hbegan')
      obtain ⟨-, hlt, hle⟩ := htimed now hnow
      refine ⟨r, List.mem_append_right _ hrow, hrid, huser, ?_, ?_⟩
      · rw [exec_clock hx]
        exact hexpired.trans hle
      · exact lt_of_lt_of_le (lt_of_le_of_lt hexpired hlt) hlasts
    · rw [htables]
      exact Store.put_pending_of_some hws

/-- The rows after a rotation. -/
theorem get_rotated {d : Db} (stored : RefreshToken) (hfree : d.refreshTokens.get row.id = none)
    (there : List TokenId) (id : TokenId) :
    (((d.apply (.deleteTokens [stored.id])).apply (.insertToken row)).apply
      (.deleteTokens there)).refreshTokens.get id =
      if id ∈ there then none else if row.id = id then some row
      else if id = stored.id then none else d.refreshTokens.get id := by
  rw [get_deleteTokens, get_insertToken, get_deleteTokens]
  split
  next => rfl
  next =>
    by_cases hid : row.id = id
    · subst hid
      have hnone : (if row.id ∈ [stored.id] then none else d.refreshTokens.get row.id) = none := by
        split
        next => rfl
        next => exact hfree
      rw [if_pos ⟨rfl, hnone⟩, if_pos rfl]
    · rw [if_neg fun h => hid h.1, if_neg hid]
      simp only [List.mem_singleton]

/-- **What the COMMIT of a rotation does.** -/
theorem rotates_of_swept {values : NewRefreshToken} (h : Base S w o gs)
    (hinj : Function.Injective S.sha256) (hop : (gs p).op = some op)
    (hstaged : Staged S w o p op (.swept stored values)) :
    ∃ claims, presented op = some claims ∧ w.db.refreshTokens.get stored.id = some stored ∧
      w.tables.owner (.token stored.id) = some p ∧ stored.tokenIdHash = S.sha256 claims.jti ∧
      (w.view p).refreshTokens.get stored.id = none ∧
      Acceptance.Rotates S values.tokenIdHash
        ⟨p, claims, (o.began p).getD 0, w.clock, ⟨w.db, w.view p⟩⟩ ∧
      Acceptance.Allowed ⟨p, claims, (o.began p).getD 0, w.clock, ⟨w.db, w.view p⟩⟩ := by
  obtain ⟨-, claims, row, there, hclaims, hgrip, hfresh, hswept, hws⟩ := hstaged
  have hview : w.view p = ((w.db.apply (.deleteTokens [stored.id])).apply (.insertToken row)).apply
      (.deleteTokens there) := Store.view_of_some hws
  have hget := get_rotated stored hfresh.free there
  have hknown : ∀ r ∈ w.db.refreshTokens.rows, r ∈ o.rows := fun r hr => h.known (.inl hr)
  have hstoredRow : stored ∈ w.db.refreshTokens.rows := Table.mem_rows.mpr hgrip.there
  -- the new row outlives the rows that are swept
  have hrow : row.id ∉ there := by
    intro hid
    obtain ⟨r, hr, hrid, -, -, hbefore⟩ := hswept _ hid
    rw [h.issued.eq_of_id hr hfresh.known hrid] at hbefore
    exact lt_irrefl _ hbefore
  have hne : row.id ≠ stored.id := by
    intro hid
    have hnone := hfresh.free
    rw [hid, hgrip.there] at hnone
    cases hnone
  have hsub : stored.userId = claims.sub :=
    h.issued.owner hinj (hknown _ hstoredRow) (h.presents hop hclaims) hgrip.hash
  obtain ⟨time, hbegan, hvalid⟩ := hgrip.valid
  refine ⟨claims, hclaims, hgrip.there, hgrip.held, hgrip.hash, ?_, ?_, hgrip.user⟩
  · rw [hview, hget, if_neg hne, if_pos rfl]
    split <;> rfl
  · refine ⟨stored, row, w.db.refreshTokens.rows.filter fun r => decide (r.id ∈ there),
      hstoredRow, hsub, hgrip.hash, ?_, hfresh.userId, hfresh.hash, fun r hr => ?_,
      Table.get_eq_none.mp hfresh.free, fun r => ?_, ?_⟩
    · rw [hbegan]
      exact hvalid
    · obtain ⟨hr, hid⟩ := List.mem_filter.mp hr
      obtain ⟨r', hr', hrid, huser, hexpired, -⟩ := hswept _ (of_decide_eq_true hid)
      rw [← h.issued.eq_of_id hr' (hknown r hr) hrid]
      exact ⟨huser, hexpired⟩
    · show r ∈ (w.view p).refreshTokens.rows ↔ _
      rw [Table.mem_rows, hview, hget]
      constructor
      · intro hr
        split at hr
        next => cases hr
        next hid =>
          split at hr
          next => exact .inl (Option.some.inj hr).symm
          next =>
            split at hr
            next => cases hr
            next hstored =>
              refine .inr ⟨Table.mem_rows.mpr hr, fun heq => hstored (by rw [heq]), fun hmem => ?_⟩
              exact hid (of_decide_eq_true (List.mem_filter.mp hmem).2)
      · rintro (rfl | ⟨hr, hstored, hmem⟩)
        · rw [if_neg hrow, if_pos rfl]
        · have hid : r.id ∉ there := fun hid =>
            hmem (List.mem_filter.mpr ⟨hr, decide_eq_true hid⟩)
          have hnew : row.id ≠ r.id := by
            intro heq
            have hnone := hfresh.free
            rw [heq, Table.mem_rows.mp hr] at hnone
            cases hnone
          have hold : r.id ≠ stored.id := fun heq =>
            hstored (h.issued.eq_of_id (hknown r hr) (hknown _ hstoredRow) heq)
          rw [if_neg hid, if_neg hnew, if_neg hold]
          exact Table.mem_rows.mp hr
    · show w.view p = { w.db with refreshTokens := (w.view p).refreshTokens }
      rw [hview]
      rfl

/-- A read leaves the tables, the pending writes and the locks of its call. -/
theorem read_frame {α : Type} {s : Stmt α} {b : Except Exn α} (hs : isRead s = true)
    (hx : exec S p (.query s) e w = some (b, w')) :
    w'.db = w.db ∧ w'.tables.pending = w.tables.pending ∧
      ∀ {k}, w.tables.owner k = some p → w'.tables.owner k = some p := by
  have hwrites : (plan w.clock e (w.view p) s).writes = [] := by
    cases s with
    | selectUserForUpdate id =>
        simp only [plan]
        split <;> rfl
    | selectUser id => rfl
    | selectToken hash => rfl
    | scanTokens cond => rfl
    | _ => cases hs
  rcases exec_query hx with ⟨-, rfl⟩ | ⟨-, -, -, rfl⟩
  · exact ⟨rfl, rfl, fun hk => hk⟩
  · rw [hwrites]
    exact ⟨Store.put_nil_committed, Store.put_nil_pending, fun hk => Store.put_owner_self hk⟩

/-- A read of a rotation keeps its stage. -/
theorem read_stage {α : Type} {s : Stmt α} (hs : isRead s = true) (t : Trail)
    (b : Except Exn α) :
    (t.next (.query s) b).stage = t.stage := by
  cases b with
  | error x => rfl
  | ok r =>
      cases s with
      | selectUserForUpdate id => rfl
      | selectUser id => rfl
      | selectToken hash => rfl
      | scanTokens cond => rfl
      | _ => cases hs

theorem staged_query {α : Type} {s : Stmt α} {b : Except Exn α} (h : Base S w o gs)
    (hrefresh : isRefresh op = true) (hr : Rotating S w o p op (gs p))
    (hallow : (gs p).Handles S op (.query s)) (hg : fresh S o w p op (.query s) e = true)
    (hx : exec S p (.query s) e w = some (b, w')) :
    Staged S w' (o.step w p op (.query s) b w') p op ((gs p).next (.query s) b).stage := by
  have hread : isRead s = true → Staged S w' (o.step w p op (.query s) b w') p op
      ((gs p).next (.query s) b).stage := by
    intro hs
    obtain ⟨hdb, hpending, howner⟩ := read_frame hs hx
    rw [read_stage hs]
    exact hr.staged.later (later_own hx rfl hdb (by rw [hpending]) howner)
  cases s with
  | insertToken values => exact staged_replace h hr (hallow.rotation hrefresh) hg hx
  | deleteTokens ids =>
      rcases hallow with hconsumes | hpurges
      · exact staged_consume h hr hconsumes hx
      · exact staged_sweep h hrefresh hr hpurges hx
  | selectUserForUpdate id => exact hread rfl
  | _ => exact hread (hallow hrefresh)

/-- A silent step. -/
theorem later_silent (ha : a.isSilent = true) (hx : exec S p a e w = some (b, w')) :
    Later w o p w' (o.step w p op a b w') := by
  have htables := exec_silent ha hx
  refine later_own hx ?_ ?_ (by rw [htables]) fun hk => ?_
  · cases a with
    | begin => cases ha
    | _ => rfl
  · unfold World.db
    rw [htables]
  · rw [htables]
    exact hk

/-- Nothing is pending, and nothing is changed. -/
theorem staged_ended (hchanges : o.changes p = []) (hdb : w'.db = w.db)
    (hpending : w'.tables.pending p = none) :
    Staged S w' (o.step w p op a b w') p op .idle := by
  refine ⟨?_, fun ws hws => ?_⟩
  · show o.changes.step w p w' p = []
    rw [Ledger.step_of_eq hdb]
    exact hchanges
  · rw [hpending] at hws
    cases hws

/-- Before a rotation has committed it has changed nothing. -/
theorem Staged.unchanged {stage : Stage} (h : Staged S w o p op stage)
    (hp : w.tables.pending p ≠ none) : o.changes p = [] := by
  cases stage with
  | idle => exact h.1
  | missed => exact h.1
  | consumed stored => exact h.1
  | replaced stored values => exact h.1
  | swept stored values => exact h.1
  | rotated stored values => exact absurd h.1 hp

/-- What a rotation has in flight is not committed. -/
theorem Staged.uncommitted {stage : Stage} (h : Staged S w o p op stage) {ws : List Write}
    (hws : w.tables.pending p = some ws) {r : RefreshToken} (hr : .insertToken r ∈ ws) :
    w.db.refreshTokens.get r.id = none := by
  cases stage with
  | idle =>
      rw [h.2 ws hws] at hr
      exact absurd hr List.not_mem_nil
  | missed => exact absurd hr (h.2 ws hws r)
  | consumed stored =>
      obtain ⟨-, claims, -, -, hpending⟩ := h
      obtain rfl := Option.some.inj (hws.symm.trans hpending)
      simp at hr
  | replaced stored values =>
      obtain ⟨-, claims, row, -, -, hfresh, hpending⟩ := h
      obtain rfl := Option.some.inj (hws.symm.trans hpending)
      obtain rfl : r = row := by simpa using hr
      exact hfresh.free
  | swept stored values =>
      obtain ⟨-, claims, row, there, -, -, hfresh, -, hpending⟩ := h
      obtain rfl := Option.some.inj (hws.symm.trans hpending)
      obtain rfl : r = row := by simpa using hr
      exact hfresh.free
  | rotated stored values =>
      rw [h.1] at hws
      cases hws

/-- The COMMIT of a rotation. -/
theorem staged_commit {b : Except Exn Unit} (h : Base S w o gs)
    (hinj : Function.Injective S.sha256) (hop : (gs p).op = some op)
    (hrefresh : isRefresh op = true) (hr : Rotating S w o p op (gs p))
    (hallow : (gs p).Handles S op .commit) (hx : exec S p .commit e w = some (b, w')) :
    Staged S w' (o.step w p op .commit b w') p op ((gs p).next .commit b).stage := by
  obtain ⟨stored, values, hstage⟩ := hallow.rotation hrefresh
  have hstaged := hr.staged
  rw [hstage] at hstaged
  rcases exec_commit hx with ⟨rfl, rfl⟩ | ⟨rfl, rfl⟩
  · exact staged_ended hstaged.1 rfl Store.rollback_pending_self
  · obtain ⟨claims, hclaims, hthere, -, -, hgone, hrotates, hallowed⟩ :=
      rotates_of_swept h hinj hop hstaged
    show Staged S _ _ p op ((gs p).stage.commit)
    rw [hstage]
    refine ⟨Store.commit_pending_self, ⟨p, claims, (o.began p).getD 0, w.clock, ⟨w.db, w.view p⟩⟩,
      ?_, rfl, hclaims, ?_, hrotates, hallowed⟩
    · show _ ∈ (if true then (presented op).toList.map _ else []) ++ o.accepted
      rw [hclaims]
      exact List.mem_cons_self
    · -- the presented row is gone, so the tables have changed
      have hne : w.view p ≠ w.db := by
        intro heq
        rw [heq, hthere] at hgone
        cases hgone
      show (if w.view p = w.db then o.changes
        else Function.update o.changes p (o.changes p ++ [⟨w.db, w.view p⟩])) p = _
      rw [if_neg hne, Function.update_self, hstaged.1]
      rfl

/-- The clock reading of a step. -/
theorem timed_step (hrefresh : isRefresh op = true) (h : Timed S w o p (gs p))
    (hg : fresh S o w p op a e = true) (hx : exec S p a e w = some (b, w')) :
    Timed S w' (o.step w p op a b w') p ((gs p).next a b) := by
  have hsame : begins a b = false → ((gs p).next a b).inside = (gs p).inside →
      ((gs p).next a b).now = (gs p).now →
      Timed S w' (o.step w p op a b w') p ((gs p).next a b) := by
    intro hbegins hinside hnow hi
    rw [hinside] at hi
    rw [hnow, exec_clock hx]
    have hbegan : (o.step w p op a b w').began = o.began := by
      show (if begins a b then _ else _) = _
      rw [hbegins]
      rfl
    rw [hbegan]
    exact h hi
  cases a with
  | query s =>
      refine hsame rfl ?_ ?_
      · cases b with
        | error x => rfl
        | ok r => cases s <;> rfl
      · cases b with
        | error x => rfl
        | ok r => cases s <;> rfl
  | begin =>
      cases b with
      | error x => exact hsame rfl rfl rfl
      | ok _ =>
          intro _
          refine ⟨w.clock, ?_, (by rw [exec_clock hx]), fun now hnow => ?_⟩
          · show Function.update o.began p (some w.clock) p = _
            exact Function.update_self _ _ _
          · cases hnow
  | commit => cases b <;> exact fun hi => (by cases hi)
  | rollback => exact fun hi => (by cases hi)
  | now =>
      intro hi
      obtain ⟨time, hbegan, hle, -⟩ := h hi
      cases hx
      refine ⟨time, hbegan, hle, fun now hnow => ?_⟩
      obtain rfl : w.clock = now := Option.some.inj hnow
      have hlt : w.clock < time + S.refreshTtl := by
        simp only [fresh, hrefresh, hbegan] at hg
        exact of_decide_eq_true hg
      exact ⟨hle, hlt, le_rfl⟩
  | sign payload ttl => cases payload <;> exact hsame rfl rfl rfl
  | _ => exact hsame rfl rfl rfl

/-- The locked user, after a step. -/
theorem locked_step (h : Base S w o gs) (hrefresh : isRefresh op = true)
    (hr : Rotating S w o p op (gs p)) (hallow : (gs p).Handles S op a)
    (hx : exec S p a e w = some (b, w')) : Locked w' p ((gs p).next a b) := by
  have hsilent : a.isSilent = true → ((gs p).next a b).inside = (gs p).inside →
      ((gs p).next a b).locked = (gs p).locked → Locked w' p ((gs p).next a b) := by
    intro ha hinside hlocked
    have hlater : Later w o p w' (o.step w p op a b w') := later_silent ha hx
    intro hi user huser
    exact hr.locked.later hlater (hinside.symm.trans hi) user (hlocked.symm.trans huser)
  cases a with
  | query s =>
      intro hi user huser
      have hinside : (gs p).inside = true := by
        rw [← hi]
        cases b with
        | error x => rfl
        | ok r => cases s <;> rfl
      obtain ⟨ws, hws⟩ : ∃ ws, w.tables.pending p = some ws :=
        Option.isSome_iff_exists.mp ((h.inside p).symm.trans hinside)
      obtain ⟨hdb, howner⟩ := inside_frame hws hx
      have hold : (gs p).locked = some user →
          w'.db.users.get user.id = some user ∧ w'.tables.owner (.user user.id) = some p := by
        intro hlocked
        obtain ⟨hget, hheld⟩ := hr.locked hinside user hlocked
        rw [hdb]
        exact ⟨hget, howner hheld⟩
      cases b with
      | error x => exact hold huser
      | ok r =>
          cases s with
          | selectUserForUpdate id =>
              obtain ⟨-, hstage⟩ := hallow hrefresh
              have hstaged := hr.staged
              rw [hstage] at hstaged
              obtain rfl := hstaged.2 ws hws
              have hview : w.view p = w.db := Store.view_of_some hws
              rcases exec_query hx with ⟨hb, -⟩ | ⟨hb, -, -, rfl⟩
              · cases hb
              · obtain rfl : r = some user := huser
                simp only [plan, hview] at hb ⊢
                split at hb
                next => cases hb
                next u hget =>
                  obtain rfl : user = u := Option.some.inj (Except.ok.inj hb)
                  have hid : user.id = id := Table.get_key hget
                  rw [hid]
                  refine ⟨?_, ?_⟩
                  · show ((w.tables.put Db.apply p _ _).committed).users.get id = some user
                    rw [Store.put_committed_of_some hws]
                    exact hget
                  · exact Store.put_owner_of_some hws List.mem_cons_self
          | _ => exact hold huser
  | begin =>
      cases b with
      | error x =>
          rcases exec_begin hx with ⟨-, rfl⟩ | ⟨hb, -⟩
          · exact hr.locked
          · cases hb
      | ok _ =>
          intro _ user huser
          cases huser
  | commit => cases b <;> exact fun hi => (by cases hi)
  | rollback => exact fun hi => (by cases hi)
  | sign payload ttl => cases payload <;> exact hsilent rfl rfl rfl
  | _ => exact hsilent rfl rfl rfl

end Stages

/-! ## §6. The invariant. -/

/-- No row with this id is anywhere. -/
def Gone (w : World) (r : RefreshToken) : Prop := ∀ r', Source w r' → r'.id ≠ r.id

/-- **The invariant of rotations.** -/
structure Kept (S : Settings) (w : World) (o : History) (gs : Pid → Trail) : Prop where
  base : Base S w o gs
  rotating : ∀ {p op}, (gs p).op = some op → isRefresh op = true → Rotating S w o p op (gs p)
  once : (o.accepted.map fun x => x.claims.jti).Nodup
  gone : ∀ x ∈ o.accepted, ∃ stored ∈ o.rows, stored.tokenIdHash = S.sha256 x.claims.jti ∧
    Gone w stored
  rotates : ∀ x ∈ o.accepted, (∃ hash, x.Rotates S hash) ∧ x.Allowed

section Invariant

variable {S : Settings} {o : History} {w w' : World} {gs : Pid → Trail} {p q : Pid} {op : Op}
  {β : Type} {a : Act β} {e : Env} {b : β} {r : RefreshToken}

/-- Only a rotation presents anything. -/
theorem presented_isRefresh {claims : RefreshTokenClaims} (h : presented op = some claims) :
    isRefresh op = true := by
  cases op with
  | refresh cookie => rfl
  | _ => cases h

/-- A new row has a new id. -/
theorem newRows_id (hg : fresh S o w p op a e = true) (hx : exec S p a e w = some (b, w'))
    (hr : r ∈ newRows w p a w') : r.id ∉ o.rows.map RefreshToken.id := by
  cases a with
  | query s =>
      cases s with
      | insertToken values =>
          rcases exec_insertToken hx with ⟨-, -, -, -, hnew⟩ | ⟨-, -, -, -, -, hnew⟩
          · rw [hnew] at hr
            exact absurd hr List.not_mem_nil
          · rw [hnew, List.mem_singleton] at hr
            subst hr
            exact of_decide_eq_true hg
      | _ => exact absurd hr List.not_mem_nil
  | _ => exact absurd hr List.not_mem_nil

/-- **What is gone stays gone.** -/
theorem Gone.step (h : Gone w r) (hr : r ∈ o.rows) (hg : fresh S o w p op a e = true)
    (hx : exec S p a e w = some (b, w')) : Gone w' r := by
  intro r' hr'
  rcases source_step hx hr' with hold | hnew
  · exact h r' hold
  · intro hid
    refine newRows_id hg hx hnew (List.mem_map.mpr ⟨r, hr, ?_⟩)
    exact hid.symm

theorem Gone.ambient (h : Gone w r) (hx : Accounts.ambient e w = some w') : Gone w' r := by
  obtain ⟨hpending, -, -, htokens, -⟩ := ambient_frame hx
  intro r' hr'
  refine h r' ?_
  unfold Source InFlight at hr' ⊢
  rwa [htokens, hpending] at hr'

theorem Gone.reboot (h : Gone w r) (hx : Accounts.reboot e w = some w') : Gone w' r := by
  cases hx
  rintro r' (hr' | ⟨q, ws, hws, -⟩)
  · exact h r' (.inl hr')
  · cases hws

/-- The step of a rotation. -/
theorem Rotating.step (h : Base S w o gs) (hinj : Function.Injective S.sha256)
    (hop : (gs p).op = some op) (hrefresh : isRefresh op = true)
    (hr : Rotating S w o p op (gs p)) (hallow : (gs p).Handles S op a)
    (hg : fresh S o w p op a e = true) (hx : exec S p a e w = some (b, w')) :
    Rotating S w' (o.step w p op a b w') p op ((gs p).next a b) := by
  refine ⟨timed_step hrefresh hr.timed hg hx, locked_step h hrefresh hr hallow hx, ?_⟩
  have hsilent : a.isSilent = true → ((gs p).next a b).stage = (gs p).stage →
      Staged S w' (o.step w p op a b w') p op ((gs p).next a b).stage := by
    intro ha hstage
    rw [hstage]
    exact hr.staged.later (later_silent ha hx)
  cases a with
  | query s => exact staged_query h hrefresh hr hallow hg hx
  | begin =>
      obtain ⟨hstage, hinside⟩ := hallow hrefresh
      have hstaged := hr.staged
      rw [hstage] at hstaged
      have hidle : ((gs p).next .begin b).stage = .idle := by
        cases b <;> exact hstage
      rw [hidle]
      rcases exec_begin hx with ⟨rfl, rfl⟩ | ⟨rfl, -, rfl⟩
      · exact hstaged.later (later_own hx rfl rfl rfl fun hk => hk)
      · refine ⟨?_, fun ws hws => ?_⟩
        · exact (congrFun (Ledger.step_of_eq rfl) p).trans hstaged.1
        · have hnil : some [] = some ws := Store.begin_pending_self.symm.trans hws
          exact (Option.some.inj hnil).symm
  | commit => exact staged_commit h hinj hop hrefresh hr hallow hx
  | rollback =>
      have hinside : (gs p).inside = true := hallow hrefresh
      have hpending : w.tables.pending p ≠ none := by
        intro hnone
        rw [h.inside p, hnone] at hinside
        cases hinside
      rw [exec_rollback hx]
      exact staged_ended (hr.staged.unchanged hpending) rfl Store.rollback_pending_self
  | sign payload ttl => cases payload <;> exact hsilent rfl rfl
  | _ => exact hsilent rfl rfl

namespace Kept

theorem boot {d : Db} (hd : d.refreshTokens = Table.empty) (S : Settings) (clock : Timestamp) :
    Kept S (World.boot d clock) History.blank fun _ => Trail.idle where
  base := Base.boot hd S clock
  rotating := fun h => nomatch h
  once := List.nodup_nil
  gone := fun _ h => nomatch h
  rotates := fun _ h => nomatch h

theorem invoke (h : Kept S w o gs) (hp : gs p = Trail.idle)
    (ha : (watch S).accepts o w p op = true) :
    Kept S w (o.opened w p) (Function.update gs p (Trail.fresh op)) where
  base := h.base.invoke hp ha
  rotating := by
    intro q op' hop hrefresh
    by_cases hq : q = p
    · subst hq
      rw [Function.update_self]
      refine ⟨fun hi => (by cases hi), fun hi => (by cases hi), ?_, fun ws hws => ?_⟩
      · exact Function.update_self _ _ _
      · have hnone := h.base.inside q
        rw [hp, hws] at hnone
        cases hnone
    · rw [Function.update_of_ne hq] at hop ⊢
      refine (h.rotating hop hrefresh).later ⟨Function.update_of_ne hq _ _,
        Function.update_of_ne hq _ _, List.Subset.refl _, List.Subset.refl _, le_rfl, rfl,
        fun hk => hk, fun _ => rfl, fun _ => rfl⟩
  once := h.once
  gone := h.gone
  rotates := h.rotates

/-- A step that accepts nothing. -/
theorem step_quiet (h : Kept S w o gs) (hinj : Function.Injective S.sha256)
    (hop : (gs p).op = some op) (hallow : (gs p).Handles S op a)
    (hg : fresh S o w p op a e = true) (hx : exec S p a e w = some (b, w')) :
    (∀ {q op'}, (Function.update gs p ((gs p).next a b) q).op = some op' →
      isRefresh op' = true → Rotating S w' (o.step w p op a b w') q op'
        (Function.update gs p ((gs p).next a b) q)) ∧
      ∀ x ∈ o.accepted, ∃ stored ∈ (o.step w p op a b w').rows,
        stored.tokenIdHash = S.sha256 x.claims.jti ∧ Gone w' stored := by
  refine ⟨fun {q op'} hop' hrefresh => ?_, fun x hmem => ?_⟩
  · by_cases hq : q = p
    · subst hq
      rw [Function.update_self] at hop' ⊢
      rw [Trail.next_op, hop, Option.some.injEq] at hop'
      subst hop'
      exact (h.rotating hop hrefresh).step h.base hinj hop hrefresh hallow hg hx
    · rw [Function.update_of_ne hq] at hop' ⊢
      exact (h.rotating hop' hrefresh).later (later_other h.base.sound hx hq)
  · obtain ⟨stored, hstored, hhash, hgone⟩ := h.gone x hmem
    exact ⟨stored, List.mem_append_right _ hstored, hhash, hgone.step hstored hg hx⟩

/-- A COMMIT that accepts a rotation. -/
theorem step_accept {b : Except Exn Unit} (h : Kept S w o gs)
    (hinj : Function.Injective S.sha256) (hop : (gs p).op = some op)
    (hallow : (gs p).Handles S op .commit) (hg : fresh S o w p op .commit e = true)
    (hx : exec S p .commit e w = some (b, w')) {claims : RefreshTokenClaims}
    (hclaims : presented op = some claims) (hb : commits .commit b = true) :
    Kept S w' (o.step w p op .commit b w')
      (Function.update gs p ((gs p).next .commit b)) := by
  have hrefresh := presented_isRefresh hclaims
  obtain ⟨hrotating, hgone⟩ := h.step_quiet hinj hop hallow hg hx
  obtain ⟨stored, values, hstage⟩ := hallow.rotation hrefresh
  have hstaged := (h.rotating hop hrefresh).staged
  rw [hstage] at hstaged
  rcases exec_commit hx with ⟨rfl, -⟩ | ⟨rfl, rfl⟩
  · cases hb
  obtain ⟨claims', hclaims', hthere, howner, hhash, hremoved, hrotates, hallowed⟩ :=
    rotates_of_swept h.base hinj hop hstaged
  obtain rfl : claims = claims' := Option.some.inj (hclaims.symm.trans hclaims')
  have hstored : stored ∈ o.rows := h.base.known (.inl (Table.mem_rows.mpr hthere))
  have hjti : claims.jti ∉ o.accepted.map fun x => x.claims.jti := by
    intro hmem
    obtain ⟨x, hxmem, hxjti⟩ := List.mem_map.mp hmem
    obtain ⟨stored', hstored', hhash', hgone'⟩ := h.gone x hxmem
    have heq : stored' = stored := by
      refine List.inj_on_of_nodup_map h.base.issued.hashes.once hstored' hstored ?_
      rw [hhash', hhash, hxjti]
    rw [heq] at hgone'
    exact hgone' stored (.inl (Table.mem_rows.mpr hthere)) rfl
  have haccepted : (o.step w p op .commit (.ok ())
      { w with tables := w.tables.commit Db.apply p }).accepted =
      ⟨p, claims, (o.began p).getD 0, w.clock, ⟨w.db, w.view p⟩⟩ :: o.accepted := by
    show (if true then (presented op).toList.map _ else []) ++ o.accepted = _
    rw [hclaims]
    rfl
  refine ⟨h.base.step hinj hallow hg hx, hrotating, ?_, fun x hmem => ?_, fun x hmem => ?_⟩
  · rw [haccepted]
    exact List.nodup_cons.mpr ⟨hjti, h.once⟩
  · rw [haccepted] at hmem
    rcases List.mem_cons.mp hmem with rfl | hmem
    · refine ⟨stored, List.mem_append_right _ hstored, hhash, ?_⟩
      -- nobody else can have a row with this id in flight: its lock is ours
      rintro r' (hr' | ⟨q, ws, hws, hins⟩) hid
      · rw [Table.mem_rows, hid] at hr'
        have hnone : (w.view p).refreshTokens.get stored.id = some r' := hr'
        rw [hremoved] at hnone
        cases hnone
      · by_cases hq : q = p
        · subst hq
          have hnone : none = some ws := Store.commit_pending_self.symm.trans hws
          cases hnone
        · have hws' : w.tables.pending q = some ws :=
            ((exec_step hx).pending_of_ne hq).symm.trans hws
          have howner' := h.base.sound q ws _ (.token stored.id) hws' hins (by rw [← hid]; rfl)
          rw [howner, Option.some.injEq] at howner'
          exact hq howner'.symm
    · exact hgone x hmem
  · rw [haccepted] at hmem
    rcases List.mem_cons.mp hmem with rfl | hmem
    · exact ⟨⟨_, hrotates⟩, hallowed⟩
    · exact h.rotates x hmem

/-- **A step of call `p`.** -/
theorem step (h : Kept S w o gs) (hinj : Function.Injective S.sha256)
    (hop : (gs p).op = some op) (hallow : (gs p).Handles S op a)
    (hg : fresh S o w p op a e = true) (hx : exec S p a e w = some (b, w')) :
    Kept S w' (o.step w p op a b w') (Function.update gs p ((gs p).next a b)) := by
  have hnone : o.acceptance w p op a b w' = [] →
      Kept S w' (o.step w p op a b w') (Function.update gs p ((gs p).next a b)) := by
    intro hnil
    have haccepted : (o.step w p op a b w').accepted = o.accepted := by
      show o.acceptance w p op a b w' ++ o.accepted = o.accepted
      rw [hnil]
      rfl
    obtain ⟨hrotating, hgone⟩ := h.step_quiet hinj hop hallow hg hx
    refine ⟨h.base.step hinj hallow hg hx, hrotating, ?_, ?_, ?_⟩
    · rw [haccepted]
      exact h.once
    · rw [haccepted]
      exact hgone
    · rw [haccepted]
      exact h.rotates
  cases a with
  | commit =>
      cases hb : commits .commit b with
      | false =>
          refine hnone ?_
          unfold History.acceptance
          rw [hb]
          rfl
      | true =>
          cases hclaims : presented op with
          | none =>
              refine hnone ?_
              unfold History.acceptance
              rw [hb, hclaims]
              rfl
          | some claims => exact h.step_accept hinj hop hallow hg hx hclaims hb
  | _ => exact hnone rfl

theorem ambient (h : Kept S w o gs) (hx : Accounts.ambient e w = some w') : Kept S w' o gs where
  base := h.base.ambient hx
  rotating := fun hop hrefresh => (h.rotating hop hrefresh).later (later_ambient hx)
  once := h.once
  gone := by
    intro x hmem
    obtain ⟨stored, hstored, hhash, hgone⟩ := h.gone x hmem
    exact ⟨stored, hstored, hhash, hgone.ambient hx⟩
  rotates := h.rotates

/-- The calls that a reboot leaves have ended: a rotation has committed, or
changed nothing. -/
theorem reboot (h : Kept S w o gs) (hx : Accounts.reboot e w = some w') (alive : Pid → Bool)
    (hended : ∀ p op, alive p = true → (gs p).op = some op → isRefresh op = true →
      (gs p).stage = .idle ∨ ∃ stored values, (gs p).stage = .rotated stored values) :
    Kept S w' o fun p => if alive p then (gs p).settle else Trail.idle := by
  refine ⟨h.base.reboot hx alive, fun {p op} hop hrefresh => ?_, h.once, fun x hmem => ?_,
    h.rotates⟩
  · split at hop
    next halive =>
      rw [if_pos halive]
      have hstaged := (h.rotating hop hrefresh).staged
      refine ⟨fun hi => (by cases hi), fun hi => (by cases hi), ?_⟩
      cases hx
      show Staged S _ o p op (gs p).stage
      rcases hended p op halive hop hrefresh with hstage | ⟨stored, values, hstage⟩
      · rw [hstage] at hstaged ⊢
        exact ⟨hstaged.1, fun ws hws => (by cases hws)⟩
      · rw [hstage] at hstaged ⊢
        exact ⟨rfl, hstaged.2⟩
    next => cases hop
  · obtain ⟨stored, hstored, hhash, hgone⟩ := h.gone x hmem
    exact ⟨stored, hstored, hhash, hgone.reboot hx⟩

end Kept

end Invariant

/-! ## §7. Runs. -/

/-- What a result says, a reboot does not change. -/
theorem Ended.settle {S : Settings} {op : Op} {r : Reply} {t : Trail} (h : Ended S op r t) :
    Ended S op r t.settle := by
  refine ⟨h.rotation, fun x hx => ⟨rfl, ?_⟩⟩
  obtain ⟨hinside, cond, ids, hpurged, hcond⟩ := h.cleared x hx
  refine ⟨cond, ids, ?_, hcond⟩
  show (if t.inside then none else t.purged) = _
  rw [hinside]
  exact hpurged

/-- The trail of an operation, under its own name. -/
def trailed (S : Settings) (op : Op) : Monitor Act Trail :=
  (trailing S op).under fun t => t.op = some op

/-- The calls of a configuration, with their trails. -/
abbrev Trails (S : Settings) (c : Conf) (gs : Pid → Trail) : Prop :=
  System.Tracks (trailed S) Trail.idle (fun op r t => Ended S op r t ∧ t.op = some op)
    (fun op e t => Broken op e t ∧ t.op = some op) c gs

/-- **The invariant rule with the trail of every call.** -/
theorem trailed_run {S : Settings} {O : Type} {V : Watch Act World Env Op O}
    (Inv : World → O → (Pid → Trail) → Prop)
    (invoke : ∀ {w o gs p op}, Inv w o gs → gs p = Trail.idle → V.accepts o w p op = true →
      Inv w (V.onInvoke o w p op) (Function.update gs p (Trail.fresh op)))
    (step : ∀ {w o gs p op} {β : Type} {a : Act β} {e b w'}, Inv w o gs →
      (gs p).op = some op → (gs p).Handles S op a → V.guard o w p op a e = true →
      exec S p a e w = some (b, w') →
      Inv w' (V.onStep o w p op a b w') (Function.update gs p ((gs p).next a b)))
    (ambient : ∀ {w o gs e w'}, Inv w o gs → ambient e w = some w' →
      Inv w' (V.onAmbient o w w') gs)
    (reboot : ∀ {w o gs e w'} (alive : Pid → Bool), Inv w o gs → reboot e w = some w' →
      (∀ p, alive p = true → ∃ op, (gs p).op = some op ∧
        ((∃ r, Ended S op r (gs p)) ∨ ∃ e, Broken op e (gs p))) →
      Inv w' (V.onReboot o w w') fun p => if alive p then (gs p).settle else Trail.idle)
    {d : Db} {clock : Timestamp} {o₀ o : O} {c : Conf}
    (h₀ : Inv (World.boot d clock) o₀ fun _ => Trail.idle)
    (h : (system S).Reach V (Config.init (World.boot d clock)) o₀ c o) :
    ∃ gs, Inv c.world o gs ∧ Trails S c gs := by
  refine System.Reach.sound_settled (S := system S) (V := V) (M := trailed S)
    (Q := fun op r t => Ended S op r t ∧ t.op = some op)
    (E := fun op e t => Broken op e t ∧ t.op = some op) Trail.fresh Trail.settle Inv
    (fun op r t ht => ⟨ht.1.settle, ht.2⟩) (fun op e t ht => ht)
    (fun {_ _ _ op} _ => wp_under (fun a t b t' hop ht => ?_) (body_trails S op) rfl)
    (fun {w o gs p op} hI hidle ha => invoke hI hidle ha)
    (fun {w o gs p op β a e b w'} hI ha hg hx => ?_)
    (fun {w o gs e w'} hI hx => ambient hI hx)
    (fun {w o gs e w'} alive hI hx hended _ => reboot (e := e) alive hI hx fun p hp => ?_) h₀ h
  · rw [ht.1, t.next_op]
    exact hop
  · exact ⟨_, ⟨rfl, exec_hears hx⟩, step hI ha.2 ha.1 hg hx⟩
  · obtain ⟨op, ⟨r, hr, hop⟩ | ⟨x, hbroken, hop⟩⟩ := hended p hp
    · exact ⟨op, hop, .inl ⟨r, hr⟩⟩
    · exact ⟨op, hop, .inr ⟨x, hbroken⟩⟩

/-- The rotations of calls that have ended. -/
theorem ended_stage {S : Settings} {op : Op} {t : Trail} (hrefresh : isRefresh op = true)
    (h : (∃ r, Ended S op r t) ∨ ∃ e, Broken op e t) :
    t.stage = .idle ∨ ∃ stored values, t.stage = .rotated stored values := by
  rcases h with ⟨r, hr⟩ | ⟨x, hx⟩
  · obtain ⟨claims, stored, values, tokens, jti, -, hstage, -⟩ := hr.rotation hrefresh
    exact .inr ⟨stored, values, hstage⟩
  · exact .inl (hx hrefresh)

/-- The same of all calls that survive a reboot. -/
theorem ended_stages {S : Settings} {gs : Pid → Trail} {alive : Pid → Bool}
    (h : ∀ p, alive p = true → ∃ op, (gs p).op = some op ∧
      ((∃ r, Ended S op r (gs p)) ∨ ∃ e, Broken op e (gs p))) (p : Pid) (op : Op)
    (halive : alive p = true) (hop : (gs p).op = some op) (hrefresh : isRefresh op = true) :
    (gs p).stage = .idle ∨ ∃ stored values, (gs p).stage = .rotated stored values := by
  obtain ⟨op', hop', hend⟩ := h p halive
  obtain rfl : op = op' := Option.some.inj (hop.symm.trans hop')
  exact ended_stage hrefresh hend

/-- The invariant holds in every run. -/
theorem kept_run {S : Settings} (hinj : Function.Injective S.sha256) {d : Db}
    (hd : d.refreshTokens = Table.empty) {clock : Timestamp} {c : Conf} {o : History}
    (h : (system S).Reach (watch S) (Config.init (World.boot d clock)) History.blank c o) :
    ∃ gs, Kept S c.world o gs ∧ Trails S c gs := by
  exact trailed_run (V := watch S) (Kept S) (fun hI hidle ha => hI.invoke hidle ha)
    (fun hI hop hallow hg hx => hI.step hinj hop hallow hg hx) (fun hI hx => hI.ambient hx)
    (fun {w o gs e w'} alive hI hx hended => hI.reboot (e := e) hx alive (ended_stages hended))
    (Kept.boot hd S clock) h

/-- **ROTATION.**  In every interleaving of the account services that starts
without sessions, where SHA-256 is injective, tokens are not forged and ids are
new: no refresh token is accepted twice; every accepted rotation replaces the
presented row by one new row of the same user, removes otherwise rows of that
user that have expired, and changes nothing else; a call that has returned was
accepted, made exactly that change, and hands out the token of the new row; a
call that has failed has changed nothing. -/
theorem rotation_once {S : Settings} (hinj : Function.Injective S.sha256) {d : Db}
    (hd : d.refreshTokens = Table.empty) {clock : Timestamp} {c : Conf} {o : History}
    (h : (system S).Reach (watch S) (Config.init (World.boot d clock)) History.blank c o) :
    (o.accepted.map fun x => x.claims.jti).Nodup ∧
    (∀ x ∈ o.accepted, ∃ hash, x.Rotates S hash) ∧
    (∀ p cookie r, c.returned p (.refresh cookie) r → ∃ x ∈ o.accepted, ∃ tokens jti,
      x.pid = p ∧ presented (.refresh cookie) = some x.claims ∧ o.changes p = [x.change] ∧
      r = .rotated tokens ∧ x.Rotates S (S.sha256 jti) ∧
      tokens.refreshToken.payload = .refresh x.claims.sub jti x.claims.temporaryAuth) ∧
    ∀ p cookie e, c.failed p (.refresh cookie) e → o.changes p = [] := by
  obtain ⟨gs, hK, hT⟩ := kept_run hinj hd h
  refine ⟨hK.once, fun x hx => (hK.rotates x hx).1, fun p cookie r hr => ?_,
    fun p cookie e he => ?_⟩
  · obtain ⟨hended, hop⟩ := hT.returned hr
    obtain ⟨claims, stored, values, tokens, jti, hclaims, hstage, hreply, hpayload, hhash⟩ :=
      hended.rotation rfl
    have hstaged := (hK.rotating hop rfl).staged
    rw [hstage] at hstaged
    obtain ⟨-, x, hx, hpid, hclaims', hchanges, hrotates, -⟩ := hstaged
    obtain rfl : claims = x.claims := Option.some.inj (hclaims.symm.trans hclaims')
    rw [hhash] at hrotates
    exact ⟨x, hx, tokens, jti, hpid, hclaims', hchanges, hreply, hrotates, hpayload⟩
  · obtain ⟨hbroken, hop⟩ := hT.failed he
    have hstaged := (hK.rotating hop rfl).staged
    rw [hbroken rfl] at hstaged
    exact hstaged.1

/-- **WHO MAY ROTATE.**  Bans, resets and password changes may run between any
two steps of a rotation; still, when it commits, the row of its user is ACTIVE,
and forced recovery is on exactly if the presented token is for it. -/
theorem rotation_allowed {S : Settings} (hinj : Function.Injective S.sha256) {d : Db}
    (hd : d.refreshTokens = Table.empty) {clock : Timestamp} {c : Conf} {o : History}
    (h : (system S).Reach (watch S) (Config.init (World.boot d clock)) History.blank c o) :
    ∀ x ∈ o.accepted, x.Allowed := by
  obtain ⟨gs, hK, -⟩ := kept_run hinj hd h
  exact fun x hx => (hK.rotates x hx).2

/-- Alice signs in as call `p`. -/
def aliceSignsIn (p : Pid) (jti : String) (id : Nat) : List (Event Env Op) :=
  [.invoke p (.login "alice" "old-password" none), .step p {}, .step p {},
   .step p { text := jti }, .step p {}, .step p {}, .step p {}, .step p { uuid := id }]

/-- The cookie of her first session. -/
def aliceCookie : Option RawToken := some (.signed ⟨.refresh 1 jti₁ false, 1700604800⟩)

/-- She presents it twice at the same time. -/
def rotationRace : List (Event Env Op) :=
  aliceSignsIn 0 jti₁ 11 ++
  ([.invoke 1 (.refresh aliceCookie), .invoke 2 (.refresh aliceCookie),
   .step 1 {}, .step 1 {}, .step 1 {}, .step 1 {}, .step 2 {}, .step 2 {}, .step 2 {}, .step 2 {},
   .step 1 {}, .step 1 { text := jti₂ }, .step 1 {}, .step 1 {}, .step 1 {}, .step 1 {},
   .step 1 { uuid := 12 }, .step 1 {}, .step 1 {}, .step 1 {}, .step 1 {},
   .step 2 {}, .step 2 { text := jti₃ }, .step 2 {}, .step 2 {}, .step 2 {}] : List (Event Env Op))

/-- One of the two rotations is accepted, the other fails. -/
def rotationRaceTest (c : Conf) (o : History) : Bool :=
  decide (o.accepted.map Acceptance.pid = [1]) &&
    decide ((c.failure 2).map Prod.fst = some (.refresh aliceCookie)) &&
    decide ((c.result 1).map Prod.fst = some (.refresh aliceCookie))

/-- The run of the race. -/
theorem rotationRace_reached : ∃ c o x,
    (system sampleSettings).Reach (watch sampleSettings) (Config.init sampleWorld) History.blank
      c o ∧ o.accepted = [x] ∧ x.pid = 1 ∧ ∃ e, c.failed 2 (.refresh aliceCookie) e := by
  obtain ⟨c, o, h, ht⟩ := System.Reach.of_replay (S := system sampleSettings)
    (V := watch sampleSettings) sampleWorld History.blank rotationRace rotationRaceTest
    (by decide +kernel)
  simp only [rotationRaceTest, Bool.and_eq_true, decide_eq_true_eq] at ht
  obtain ⟨⟨hpids, hfailure⟩, -⟩ := ht
  obtain ⟨⟨op, e⟩, he, hop⟩ := Option.map_eq_some_iff.mp hfailure
  obtain rfl : op = .refresh aliceCookie := hop
  cases haccepted : o.accepted with
  | nil =>
      rw [haccepted] at hpids
      cases hpids
  | cons x rest =>
      rw [haccepted] at hpids
      obtain ⟨hpid, hrest⟩ := List.cons.inj hpids
      obtain rfl := List.map_eq_nil_iff.mp hrest
      exact ⟨c, o, x, h, haccepted, hpid, e, Config.failed_of_failure he⟩

theorem rotationRace_once : ∃ c o x,
    (system sampleSettings).Reach (watch sampleSettings) (Config.init sampleWorld) History.blank
      c o ∧ o.accepted = [x] ∧ x.pid = 1 ∧ (∃ hash, x.Rotates sampleSettings hash) ∧
      (∃ e, c.failed 2 (.refresh aliceCookie) e) ∧ o.changes 2 = [] := by
  obtain ⟨c, o, x, h, haccepted, hpid, e, hfailed⟩ := rotationRace_reached
  obtain ⟨-, hrotates, -, hunchanged⟩ := rotation_once sampleSha256_injective rfl h
  have hx : x ∈ o.accepted := by
    rw [haccepted]
    exact List.mem_cons_self
  exact ⟨c, o, x, h, haccepted, hpid, hrotates x hx, ⟨e, hfailed⟩, hunchanged 2 _ e hfailed⟩

theorem rotationRace_allowed : ∃ c o x,
    (system sampleSettings).Reach (watch sampleSettings) (Config.init sampleWorld) History.blank
      c o ∧ o.accepted = [x] ∧ x.Allowed := by
  obtain ⟨c, o, x, h, haccepted, -⟩ := rotationRace_reached
  refine ⟨c, o, x, h, haccepted, rotation_allowed sampleSha256_injective rfl h x ?_⟩
  rw [haccepted]
  exact List.mem_cons_self

end Sessions

end MinePanel.Accounts
