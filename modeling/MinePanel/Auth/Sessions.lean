/-
  MinePanel.Auth.Sessions
  ───────────────────────
  **WHAT A CALL DOES WITH REFRESH TOKENS.**

  A trail is what a call has done with sessions so far: the id it drew, the
  token it signed, the row it looked up, the rows it scanned, and how far its
  rotation has come.  `body_trails` reads off the code of every operation when
  it may sign, insert and delete; the proofs about runs use the trails only.

    * `Trail`, `Trail.next` — what a step adds;
    * `Op.Revokes` — which rows an operation may delete;
    * `Trail.Handles` — when a call may sign, insert, delete and commit;
    * `body_trails` — **every operation handles sessions so**.
-/
import MinePanel.Accounts.Notes

namespace MinePanel.Accounts

open MinePanel.Db MinePanel.Lib Prog

namespace Sessions

/-! ## §1. Trails. -/

/-- How far a rotation has come. -/
inductive Stage where
  | idle
  /-- The presented row was no longer there. -/
  | missed
  /-- The presented row is deleted. -/
  | consumed (stored : RefreshToken)
  /-- The new row is inserted. -/
  | replaced (stored : RefreshToken) (values : NewRefreshToken)
  /-- The expired rows are deleted. -/
  | swept (stored : RefreshToken) (values : NewRefreshToken)
  /-- All of it is committed. -/
  | rotated (stored : RefreshToken) (values : NewRefreshToken)
  deriving DecidableEq

namespace Stage

/-- A DELETE that found the rows `there`. -/
def delete (stage : Stage) (stored : Option RefreshToken) (there : List TokenId) : Stage :=
  match stage with
  | .idle =>
      match stored with
      | some row => if there.isEmpty then .missed else .consumed row
      | none => .missed
  | .replaced row values => .swept row values
  | stage => stage

/-- An INSERT. -/
def insert (stage : Stage) (values : NewRefreshToken) : Stage :=
  match stage with
  | .consumed row => .replaced row values
  | stage => stage

/-- A COMMIT. -/
def commit : Stage → Stage
  | .swept row values => .rotated row values
  | stage => stage

end Stage

/-- What a call has done with sessions. -/
structure Trail where
  op : Option Op := none
  /-- It is in a transaction. -/
  inside : Bool := false
  /-- Its last clock reading in this transaction, or outside of any. -/
  now : Option Timestamp := none
  /-- The token id it drew, until it signs a token with it. -/
  drawn : Option String := none
  /-- The subject and the id of the token it signed, until it stores the row. -/
  signed : Option (UserId × String) := none
  /-- The row it looked up. -/
  stored : Option RefreshToken := none
  /-- The row of `users` it locked. -/
  locked : Option User := none
  /-- The row of `users` it updated last. -/
  seized : Option UserId := none
  /-- The snapshot that its next DELETE works on. -/
  scanned : Option ((RefreshToken → Bool) × List TokenId) := none
  /-- The snapshot that its last DELETE has removed. -/
  purged : Option ((RefreshToken → Bool) × List TokenId) := none
  stage : Stage := .idle

namespace Trail

/-- What a statement adds. -/
def after (t : Trail) : ∀ {α : Type}, Stmt α → α → Trail
  | _, .selectToken _, r => { t with stored := r }
  | _, .selectUserForUpdate _, r => { t with locked := r }
  | _, .updateUser id _ _, r =>
      { t with seized := if r.isSome then some id else none, scanned := none, purged := none }
  | _, .scanTokens cond, ids => { t with scanned := some (cond, ids) }
  | _, .deleteTokens ids, there =>
      { t with
        purged := t.scanned.filter fun s => decide (s.2 = ids)
        stage := t.stage.delete t.stored there }
  | _, .insertToken values, _ => { t with signed := none, stage := t.stage.insert values }
  | _, _, _ => t

/-- The trail after a step. -/
def next (t : Trail) : ∀ {β : Type}, Act β → β → Trail
  | _, .query s, b =>
      match b with
      | .ok r => t.after s r
      | .error _ => t
  | _, .begin, b =>
      match b with
      | .ok _ => { t with
          inside := true, now := none, stored := none, locked := none, seized := none,
          scanned := none, purged := none }
      | .error _ => t
  | _, .commit, b =>
      match b with
      | .ok _ => { t with inside := false, stage := t.stage.commit }
      | .error _ => { t with inside := false, scanned := none, purged := none, stage := .idle }
  | _, .rollback, _ => { t with inside := false, scanned := none, purged := none, stage := .idle }
  | _, .now, time => { t with now := some time }
  | _, .createRefreshTokenId, text => { t with drawn := some text }
  | _, .sign (.refresh sub jti _) _, _ => { t with drawn := none, signed := some (sub, jti) }
  | _, _, _ => t

/-- A call has just been invoked. -/
def fresh (op : Op) : Trail := { op := some op }

/-- No call. -/
def idle : Trail := {}

/-- What is left of the trail of a call that has ended, after a reboot: what
was deleted in an open transaction is back. -/
def settle (t : Trail) : Trail :=
  { t with
    inside := false, drawn := none, signed := none, seized := none, scanned := none
    purged := if t.inside then none else t.purged }

theorem after_op (t : Trail) {α : Type} (s : Stmt α) (r : α) : (t.after s r).op = t.op := by
  cases s <;> rfl

theorem next_op (t : Trail) {β : Type} (a : Act β) (b : β) : (t.next a b).op = t.op := by
  cases a with
  | query s =>
      cases b with
      | error e => rfl
      | ok r => exact t.after_op s r
  | begin => cases b <;> rfl
  | commit => cases b <;> rfl
  | sign payload ttl => cases payload <;> rfl
  | _ => rfl

end Trail

/-- What a step can be answered. -/
def Hears : ∀ {β : Type}, Act β → β → Prop
  | _, .query (.selectToken hash), b => ∀ r, b = .ok (some r) → r.tokenIdHash = hash
  | _, .query (.selectUserForUpdate id), b => ∀ u, b = .ok (some u) → u.id = id
  | _, .sign payload _, jwt => jwt.payload = payload
  | _, _, _ => True

theorem exec_hears {S : Settings} {p : Pid} {β : Type} {a : Act β} {e : Env} {b : β}
    {w w' : World} (h : exec S p a e w = some (b, w')) : Hears a b := by
  cases a with
  | query s =>
      cases s with
      | selectToken hash =>
          intro r hr
          rcases exec_query h with ⟨rfl, -⟩ | ⟨rfl, -⟩
          · cases hr
          · have hfind : (w.view p).refreshTokens.rows.find?
                (fun r => r.tokenIdHash == hash) = some r := Except.ok.inj hr
            have hhash := List.find?_some hfind
            exact eq_of_beq hhash
      | selectUserForUpdate id =>
          intro u hu
          rcases exec_query h with ⟨rfl, -⟩ | ⟨rfl, -⟩
          · cases hu
          · simp only [plan] at hu
            split at hu
            next => cases hu
            next u' hget =>
              obtain rfl : u' = u := Option.some.inj (Except.ok.inj hu)
              exact Table.get_key hget
      | _ => trivial
  | sign payload ttl =>
      cases h
      rfl
  | _ => trivial

/-! ## §2. When a call may act. -/

/-- The claims that a rotation presents with our signature. -/
def presented : Op → Option RefreshTokenClaims
  | .refresh (some (.signed jwt)) => validRefreshTokenClaims jwt
  | _ => none

/-- `refreshTokens`. -/
def isRefresh : Op → Bool
  | .refresh _ => true
  | _ => false

/-- The `jti` that a cookie names, signed or not. -/
def cookieJti : Option RawToken → Option String
  | some (.signed jwt) => (validRefreshTokenClaims jwt).map RefreshTokenClaims.jti
  | some (.forged jwt) => (validRefreshTokenClaims jwt).map RefreshTokenClaims.jti
  | _ => none

/-- **Which rows an operation may delete**, besides the row that a rotation
replaces; `now` is its last clock reading. -/
def Op.Revokes (S : Settings) (now : Option Timestamp) (r : RefreshToken) : Op → Prop
  | .refresh cookie => ∃ claims, presented (.refresh cookie) = some claims ∧
      r.userId = claims.sub ∧ ∃ t, now = some t ∧ r.expiresAt ≤ t
  | .logout u cookie => r.userId = u ∧
      ∃ jti, cookieJti cookie = some jti ∧ r.tokenIdHash = S.sha256 jti
  | .logoutAll u => r.userId = u
  | .deleteSession u id => r.userId = u ∧ r.id = id
  | .updatePassword u _ _ cookie temporaryAuth => r.userId = u ∧
      (temporaryAuth = false → ∀ jti, cookieJti cookie = some jti → r.tokenIdHash ≠ S.sha256 jti)
  | .updateStatus u status => status = .banned ∧ r.userId = u
  | .resetPassword u => r.userId = u
  | _ => False

/-- Statements that write nothing. -/
def isRead : ∀ {α : Type}, Stmt α → Bool
  | _, .selectUser _ => true
  | _, .selectUserForUpdate _ => true
  | _, .selectToken _ => true
  | _, .scanTokens _ => true
  | _, _ => false

namespace Trail

variable (S : Settings) (op : Op) (t : Trail)

/-- A rotation deletes the row it was shown, of the user it has locked. -/
def Consumes (ids : List TokenId) : Prop :=
  t.inside = true ∧ t.stage = .idle ∧ ∃ claims stored user now, presented op = some claims ∧
    t.stored = some stored ∧ ids = [stored.id] ∧ stored.tokenIdHash = S.sha256 claims.jti ∧
    t.now = some now ∧ now < stored.expiresAt ∧
    t.locked = some user ∧ user.id = claims.sub ∧ user.status = .active ∧
    user.mustChangePassword = claims.temporaryAuth

/-- A DELETE removes what its snapshot shows. -/
def Purges (ids : List TokenId) : Prop :=
  ∃ cond, t.scanned = some (cond, ids) ∧ (∀ r, cond r = true → Op.Revokes S t.now r op) ∧
    (isRefresh op = true → t.inside = true ∧ ∃ stored values, t.stage = .replaced stored values)

/-- A rotation inserts one row, for the same user. -/
def Replaces (values : NewRefreshToken) : Prop :=
  t.inside = true ∧ ∃ claims stored now, presented op = some claims ∧
    t.stage = .consumed stored ∧ values.userId = claims.sub ∧ t.now = some now ∧
    values.expiresAt = now + S.refreshTtl

/-- A row is stored for the token signed last, by a rotation in its transaction
and by every other call outside of any. -/
structure Stores (values : NewRefreshToken) : Prop where
  signed : ∃ jti, t.signed = some (values.userId, jti) ∧ values.tokenIdHash = S.sha256 jti
  rotation : isRefresh op = true → t.Replaces S op values
  outside : isRefresh op = false → t.inside = false

/-- The transaction has updated the row of the user, and then purged all of its
sessions. -/
def Expels (userId : UserId) : Prop :=
  t.inside = true ∧ t.seized = some userId ∧
    ∃ ids, t.purged = some (fun r => r.userId == userId, ids)

/-- A transaction commits: a rotation that is through, a ban that has expelled
its user. -/
structure Commits : Prop where
  rotation : isRefresh op = true → ∃ stored values, t.stage = .swept stored values
  ban : ∀ userId, op = .updateStatus userId .banned → t.Expels userId

/-- **When a call may sign, insert, delete, and commit.** -/
def Handles : ∀ {β : Type}, Act β → Prop
  | _, .sign (.refresh _ jti _) _ => t.drawn = some jti
  | _, .query (.insertToken values) => t.Stores S op values
  | _, .query (.deleteTokens ids) => t.Consumes S op ids ∨ t.Purges S op ids
  | _, .query (.selectUserForUpdate _) => isRefresh op = true → t.inside = true ∧ t.stage = .idle
  | _, .query s => isRefresh op = true → isRead s = true
  | _, .begin => isRefresh op = true → t.stage = .idle ∧ t.inside = false
  | _, .commit => t.Commits op
  | _, .rollback => isRefresh op = true → t.inside = true
  | _, _ => True

end Trail

/-- The trail of an operation as a monitor. -/
def trailing (S : Settings) (op : Op) : Monitor Act Trail where
  allow := fun t a => t.Handles S op a
  next := fun t a b t' => t' = t.next a b ∧ Hears a b

/-- A rotation has committed, and hands out the token of its new row. -/
def HandsOut (S : Settings) (op : Op) (r : Reply) (t : Trail) : Prop :=
  ∃ claims stored values tokens jti, presented op = some claims ∧
    t.stage = .rotated stored values ∧ r = .rotated tokens ∧
    tokens.refreshToken.payload = .refresh claims.sub jti claims.temporaryAuth ∧
    values.tokenIdHash = S.sha256 jti

/-- The rows that the operation is to delete were in its snapshot. -/
def Cleared (S : Settings) (op : Op) (t : Trail) : Prop :=
  ∀ r, Op.Revokes S none r op →
    t.inside = false ∧ ∃ cond ids, t.purged = some (cond, ids) ∧ cond r = true

/-- What a result says about the trail. -/
structure Ended (S : Settings) (op : Op) (r : Reply) (t : Trail) : Prop where
  rotation : isRefresh op = true → HandsOut S op r t
  cleared : Cleared S op t

/-- What a failure says about the trail: nothing is left of the rotation. -/
def Broken (op : Op) (_ : Exn) (t : Trail) : Prop := isRefresh op = true → t.stage = .idle

/-! ## §3. Every other operation. -/

section Free

variable {S : Settings} {op : Op} {α β : Type} {i : Bool}

/-- The call handles sessions as it may, whatever it has done before, and ends
in or outside of a transaction as it began. -/
def Free (S : Settings) (op : Op) (i : Bool) (c : Call α) : Prop :=
  ∀ t : Trail, t.inside = i →
    wp (trailing S op) (fun _ t' => t'.inside = i) (fun _ _ => True) c t

theorem free_ret (a : α) : Free S op i (ret a : Call α) := fun _ ht => ht

theorem free_fail (e : Exn) : Free S op i (fail e : Call α) := fun _ _ => trivial

/-- What follows a piece of code without sessions. -/
theorem free_then {p : Call α} {f : α → Call β} {Q : β → Trail → Prop} {t : Trail}
    (ht : t.inside = i) (hp : Free S op i p)
    (hf : ∀ a (t' : Trail), t'.inside = i → wp (trailing S op) Q (fun _ _ => True) (f a) t') :
    wp (trailing S op) Q (fun _ _ => True) (p.bind f) t :=
  wp_seq (wp_mono _ _ (fun a t' ht' => hf a t' ht') (fun _ _ h => h) (hp t ht))

theorem free_bind {p : Call α} {f : α → Call β} (hp : Free S op i p)
    (hf : ∀ a, Free S op i (f a)) : Free S op i (p.bind f) :=
  fun _ ht => free_then ht hp fun a t' ht' => hf a t' ht'

theorem free_ite {c : Prop} [Decidable c] {p q : Call α} (hp : Free S op i p)
    (hq : Free S op i q) : Free S op i (if c then p else q) := by
  split
  next => exact hp
  next => exact hq

theorem trail_ite {c : Prop} [Decidable c] {p q : Call α} {Q : α → Trail → Prop}
    {E : Exn → Trail → Prop} {t : Trail} (hp : wp (trailing S op) Q E p t)
    (hq : wp (trailing S op) Q E q t) : wp (trailing S op) Q E (if c then p else q) t := by
  split
  next => exact hp
  next => exact hq

theorem isRefresh_elim {P : Prop} (hop : isRefresh op = false) (h : isRefresh op = true) : P := by
  rw [hop] at h
  cases h

/-- A step without sessions. -/
theorem handles_of_powers {a : Act α} (hop : isRefresh op = false) (hissue : Power.issue ∉ a.powers)
    (hrevoke : Power.revoke ∉ a.powers)
    (hban : Power.transact ∈ a.powers → ∀ userId, op ≠ .updateStatus userId .banned)
    (t : Trail) : t.Handles S op a := by
  cases a with
  | query s =>
      cases s with
      | insertToken values => exact absurd List.mem_cons_self hissue
      | deleteTokens ids => exact absurd List.mem_cons_self hrevoke
      | _ => exact fun h => isRefresh_elim hop h
  | sign payload ttl =>
      cases payload with
      | refresh sub jti temporaryAuth => exact absurd List.mem_cons_self hissue
      | _ => trivial
  | begin => exact fun h => isRefresh_elim hop h
  | commit =>
      exact ⟨fun h => isRefresh_elim hop h,
        fun userId h => absurd h (hban List.mem_cons_self userId)⟩
  | rollback => exact fun h => isRefresh_elim hop h
  | _ => trivial

/-- A step that does not begin or end a transaction. -/
theorem inside_next {a : Act α} (h : Power.transact ∉ a.powers) (t : Trail) (b : α) :
    (t.next a b).inside = t.inside := by
  cases a with
  | query s =>
      cases b with
      | error e => rfl
      | ok r => cases s <;> rfl
  | begin => exact absurd List.mem_cons_self h
  | commit => exact absurd List.mem_cons_self h
  | rollback => exact absurd List.mem_cons_self h
  | sign payload ttl => cases payload <;> rfl
  | _ => rfl

theorem free_act {a : Act α} (ha : ∀ t : Trail, t.Handles S op a)
    (htransact : Power.transact ∉ a.powers) : Free S op i (perform a : Call α) := by
  intro t ht
  refine wp_perform (ha t) fun b t' h => ?_
  rw [h.1, inside_next htransact]
  exact ht

/-- A piece of code without sessions and transactions. -/
theorem free_within (ps : List Power) {p : Call α} (hop : isRefresh op = false)
    (hp : Within ps p) (hissue : Power.issue ∉ ps) (hrevoke : Power.revoke ∉ ps)
    (htransact : Power.transact ∉ ps) : Free S op i p := by
  intro t ht
  refine wp_of_inv (J := fun t : Trail => t.inside = i) (fun a t' ha ht' => ⟨?_, fun b t'' h => ?_⟩)
    (fun _ _ h => h) (fun _ _ _ _ => trivial) hp ht
  · exact handles_of_powers hop (fun h => hissue (ha h)) (fun h => hrevoke (ha h))
      (fun h => absurd (ha h) htransact) t'
  · rw [h.1, inside_next fun h => htransact (ha h)]
    exact ht'

theorem free_query {s : Stmt α} (hop : isRefresh op = false) (hissue : Power.issue ∉ s.powers)
    (hrevoke : Power.revoke ∉ s.powers) (htransact : Power.transact ∉ s.powers) :
    Free S op i (query s) :=
  free_within _ hop (within_query (List.Subset.refl _)) hissue hrevoke htransact

/-- A read. -/
theorem free_read {s : Stmt α} (hop : isRefresh op = false) (hs : s.powers = []) :
    Free S op i (query s) := by
  refine free_query hop ?_ ?_ ?_ <;>
  · rw [hs]
    exact List.not_mem_nil

/-- An operation without sessions. -/
theorem trail_quiet {ps : List Power} {p : Call α} (hop : isRefresh op = false)
    (hban : ∀ userId, op ≠ .updateStatus userId .banned) (hp : Within ps p)
    (hissue : Power.issue ∉ ps) (hrevoke : Power.revoke ∉ ps) (t : Trail) :
    wp (trailing S op) (fun _ _ => True) (fun _ _ => True) p t := by
  refine wp_of_inv (J := fun _ => True) (fun a t' ha _ => ⟨?_, fun _ _ _ => trivial⟩)
    (fun _ _ _ => trivial) (fun _ _ _ _ => trivial) hp trivial
  exact handles_of_powers hop (fun h => hissue (ha h)) (fun h => hrevoke (ha h))
    (fun _ => hban) t'

/-- `issueSession` draws an id, signs a token with it, and stores its row. -/
theorem trail_issueSession (hop : isRefresh op = false) (user : User) (temporaryAuth : Bool)
    {Q : AuthTokens → Trail → Prop} {t : Trail} (ht : t.inside = false)
    (hQ : ∀ r t', t'.inside = t.inside → t'.purged = t.purged → Q r t') :
    wp (trailing S op) Q (fun _ _ => True) (issueSession S user temporaryAuth) t := by
  unfold issueSession buildIssuedRefreshToken
  refine wp_seq (wp_perform trivial fun jti t₁ h₁ => ?_)
  rw [h₁.1]
  refine wp_seq (wp_perform trivial fun accessToken t₂ h₂ => ?_)
  rw [h₂.1]
  refine wp_seq (wp_seq (wp_perform rfl fun refreshToken t₃ h₃ => ?_))
  rw [h₃.1]
  refine wp_seq (wp_perform trivial fun now t₄ h₄ => ?_)
  rw [h₄.1]
  have hstores : ∀ t' : Trail, t'.signed = some (user.id, jti) → t'.inside = false →
      t'.Stores S op ⟨S.sha256 jti, user.id, now + S.refreshTtl⟩ :=
    fun t' hsigned ht' => ⟨⟨jti, hsigned, rfl⟩, fun h => isRefresh_elim hop h, fun _ => ht'⟩
  refine wp_seq (wp_query (hstores _ rfl ht) (fun _ t₅ h₅ => ?_) fun _ _ _ => trivial)
  rw [h₅.1]
  exact hQ _ _ rfl rfl

theorem free_issueSession (hop : isRefresh op = false) (user : User) (temporaryAuth : Bool) :
    Free S op false (issueSession S user temporaryAuth) :=
  fun _ ht => trail_issueSession hop user temporaryAuth ht fun _ _ h _ => h.trans ht

/-- A DELETE of rows that the operation may delete. -/
theorem trail_deleteTokensWhere {cond : RefreshToken → Bool} (hop : isRefresh op = false)
    (hcond : ∀ now r, cond r = true → Op.Revokes S now r op) {Q : Unit → Trail → Prop} {t : Trail}
    (hQ : ∀ ids t', t'.inside = t.inside → t'.seized = t.seized → t'.purged = some (cond, ids) →
      Q () t') : wp (trailing S op) Q (fun _ _ => True) (deleteTokensWhere cond) t := by
  unfold deleteTokensWhere
  refine wp_seq (wp_query (fun h => ?_) (fun ids t₁ h₁ => ?_) fun _ _ _ => trivial)
  · rfl
  · rw [h₁.1]
    refine wp_seq (wp_query (.inr ⟨cond, rfl, hcond t.now, fun h => isRefresh_elim hop h⟩)
      (fun _ t₂ h₂ => ?_) fun _ _ _ => trivial)
    rw [h₂.1]
    refine hQ ids _ rfl rfl ?_
    show (some (cond, ids)).filter (fun s => decide (s.2 = ids)) = _
    simp

/-- A transaction. -/
theorem trail_transaction {p : Call α} {R Q : α → Trail → Prop} {t : Trail}
    (hop : isRefresh op = false)
    (hp : ∀ t' : Trail, t'.inside = true → wp (trailing S op) R (fun _ _ => True) p t')
    (hban : ∀ userId, op = .updateStatus userId .banned → ∀ r t', R r t' → t'.Expels userId)
    (hQ : ∀ r t' t'', R r t' → t''.inside = false → t''.purged = t'.purged → Q r t'') :
    wp (trailing S op) Q (fun _ _ => True) (transaction p) t := by
  refine wp_transaction (R := R) (F := fun _ _ => True) (fun h => isRefresh_elim hop h)
    (fun _ _ _ => trivial) (fun t₁ h₁ => ?_) (fun r t₂ h₂ => ⟨?_, fun t₃ h₃ => ?_,
      fun _ _ _ => trivial⟩) fun _ _ _ => ⟨fun h => isRefresh_elim hop h, fun _ _ => trivial⟩
  · rw [h₁.1]
    exact hp _ rfl
  · exact ⟨fun h => isRefresh_elim hop h, fun userId h => hban userId h r t₂ h₂⟩
  · rw [h₃.1]
    exact hQ r t₂ _ h₂ rfl rfl

theorem free_recordLoginSuccess (context : Option LoginAttemptContext)
    (hop : isRefresh op = false) : Free S op i (recordLoginSuccess context) :=
  free_within [] hop (within_recordLoginSuccess context) (by decide) (by decide)
    (by decide)

theorem free_assertLoginAllowed (user : User) (hop : isRefresh op = false) :
    Free S op i (assertLoginAllowed user) :=
  free_within [] hop (within_assertLoginAllowed user) (by decide) (by decide) (by decide)

theorem free_consumeTempPassword (user : User) (hop : isRefresh op = false) :
    Free S op i (consumeTempPassword user) :=
  free_within [.credential] hop (within_consumeTempPassword user (by decide)) (by decide)
    (by decide) (by decide)

theorem free_loginUser (identifier password : String) (context : Option LoginAttemptContext)
    (hop : isRefresh op = false) : Free S op false (loginUser S identifier password context) := by
  have hwrong : Free S op false (wrongCredentials context) :=
    free_within [] hop (within_wrongCredentials context) (by decide) (by decide)
      (by decide)
  have hchallenge : ∀ user fingerprint, Free S op false (challenge user fingerprint context) :=
    fun user fingerprint => free_within [.preAuth] hop
      (within_challenge user fingerprint context (by decide)) (by decide)
      (by decide) (by decide)
  have hsession : ∀ (user : User) (temporaryAuth : Bool),
      Free S op false ((issueSession S user temporaryAuth).bind fun session =>
        (recordLoginSuccess context).bind fun _ => ret (LoginResponse.session session)) :=
    fun user temporaryAuth => free_bind (free_issueSession hop user temporaryAuth)
      fun _ => free_bind (free_recordLoginSuccess context hop) fun _ => free_ret _
  unfold loginUser
  refine free_bind (free_within [] hop (within_assertAttemptAllowed context) (by decide)
    (by decide) (by decide)) fun _ => ?_
  refine free_bind (free_read hop rfl) fun user => ?_
  refine free_bind (free_act (fun _ => trivial) (by decide)) fun now => ?_
  split
  next => exact hwrong
  next user _ =>
    refine free_bind (free_assertLoginAllowed user hop) fun _ => ?_
    unfold loginForced loginOrdinary
    refine free_ite (free_ite hwrong (free_ite (hchallenge _ _) ?_)) (free_ite hwrong
      (free_ite (hchallenge _ _) (hsession user false)))
    exact free_bind (free_consumeTempPassword user hop) fun _ => hsession user true

theorem free_verify2FA (bearer : RawToken) (token : String) (hop : isRefresh op = false) :
    Free S op false (verify2FA S bearer token) := by
  have hact : ∀ {β : Type} (a : Act β), (∀ t : Trail, t.Handles S op a) →
      Power.transact ∉ a.powers → Free S op false (perform a : Call β) :=
    fun a ha htransact => free_act ha htransact
  unfold verify2FA
  refine free_bind (hact .now (fun _ => trivial) List.not_mem_nil) fun now => ?_
  split
  next sub fingerprint _ =>
    unfold completeTwoFactorLogin
    refine free_bind (free_read hop rfl) fun found => ?_
    split
    next => exact free_fail _
    next user _ =>
      refine free_bind (free_assertLoginAllowed user hop) fun _ => ?_
      refine free_bind (hact _ (fun _ => trivial) (by simp [Act.powers])) fun locked => ?_
      refine free_ite (free_fail _) (free_ite (free_fail _) ?_)
      refine free_bind (hact .now (fun _ => trivial) List.not_mem_nil) fun now => ?_
      refine free_ite (free_fail _) ?_
      refine free_bind (free_within [.secondFactor] hop (within_verifySecondFactor S user
        token (by decide)) (by decide) (by decide) (by decide)) fun verified => ?_
      refine free_ite (free_bind (hact _ (fun _ => trivial) (by simp [Act.powers])) fun _ =>
        free_fail _) ?_
      refine free_bind (hact _ (fun _ => trivial) (by simp [Act.powers])) fun _ => ?_
      exact free_ite (free_bind (free_consumeTempPassword user hop) fun _ =>
        free_issueSession hop user _) (free_issueSession hop user _)
  next => exact free_fail _

theorem free_googleLogin (credential : String) (hop : isRefresh op = false) :
    Free S op false (googleLogin S credential) := by
  have hsession : ∀ user : User, Free S op false ((issueProviderSession S user).bind
      fun session => (ret (some session) : Call (Option AuthTokens))) := by
    intro user
    refine free_bind ?_ fun _ => free_ret _
    unfold issueProviderSession
    refine free_bind (free_assertLoginAllowed user hop) fun _ => ?_
    exact free_ite (free_fail _) (free_ite (free_fail _) (free_issueSession hop user false))
  unfold googleLogin resolveProviderIdentity
  refine free_bind (free_within [.challenge] hop (within_consumeCredential S credential
    (by decide)) (by decide) (by decide) (by decide)) fun claims => ?_
  refine free_bind (free_ite (free_fail _) ?_) fun resolution => ?_
  · refine free_bind (free_within [] hop (within_lookupIdentity _ _) (by decide)
      (by decide) (by decide)) fun resolution => ?_
    cases resolution with
    | some _ => exact free_ret _
    | none =>
        exact free_ite (free_fail _) (free_within [.account] hop
          (within_createProviderUser S _ _ _ 0 3 (by decide)) (by decide)
          (by decide) (by decide))
  · cases resolution with
    | linkConfirmationRequired _ => exact free_ret _
    | authenticated user => exact hsession user
    | created user => exact hsession user

end Free

/-! ## §4. Revocation. -/

section Revocation

variable {S : Settings} {op : Op} {α : Type}

/-- The call deletes what it is to delete. -/
def Clears (S : Settings) (op : Op) (c : Call α) : Prop :=
  ∀ t : Trail, t.inside = false →
    wp (trailing S op) (fun _ t' => t'.inside = false ∧ Cleared S op t') (fun _ _ => True) c t

/-- What was in the snapshot is cleared. -/
theorem cleared_of_purged {cond : RefreshToken → Bool} {ids : List TokenId} {t : Trail}
    (hcond : ∀ r, Op.Revokes S none r op → cond r = true) (ht : t.inside = false)
    (hpurged : t.purged = some (cond, ids)) : Cleared S op t :=
  fun r hr => ⟨ht, cond, ids, hpurged, hcond r hr⟩

/-- A DELETE outside of transactions. -/
theorem clears_deleteTokensWhere {cond : RefreshToken → Bool} (hop : isRefresh op = false)
    (hrevokes : ∀ now r, Op.Revokes S now r op ↔ cond r = true) :
    Clears S op (deleteTokensWhere cond) := by
  intro t ht
  refine trail_deleteTokensWhere hop (fun now r => (hrevokes now r).mpr)
    fun ids t' hinside _ hpurged => ?_
  have ht' : t'.inside = false := hinside.trans ht
  exact ⟨ht', cleared_of_purged (fun r => (hrevokes none r).mp) ht' hpurged⟩

/-- The cookie of a call. -/
theorem clears_requireRefreshToken {cookie : Option RawToken} {f : RawToken → Call α}
    (hf : ∀ raw, cookie = some raw → Clears S op (f raw)) :
    Clears S op ((requireRefreshToken cookie).bind f) := by
  intro t ht
  refine wp_seq ?_
  unfold requireRefreshToken
  split
  next => trivial
  next => trivial
  next raw _ => exact hf raw rfl t ht

/-- The token id that a cookie names. -/
theorem clears_readRefreshTokenId {raw : RawToken} {f : String → Call α}
    (hf : ∀ jti, cookieJti (some raw) = some jti → Clears S op (f jti)) :
    Clears S op ((readRefreshTokenId raw).bind f) := by
  have hclaims : ∀ (jwt : Jwt) (claims : RefreshTokenClaims), cookieJti (some raw) =
      (validRefreshTokenClaims jwt).map RefreshTokenClaims.jti →
      validRefreshTokenClaims jwt = some claims → Clears S op (f claims.jti) := by
    intro jwt claims hraw hvalid
    refine hf claims.jti ?_
    rw [hraw, hvalid]
    rfl
  intro t ht
  refine wp_seq ?_
  cases raw with
  | empty => trivial
  | garbage => trivial
  | forged jwt =>
      dsimp only [readRefreshTokenId]
      split
      next claims hvalid => exact hclaims jwt claims rfl hvalid t ht
      next => trivial
  | signed jwt =>
      dsimp only [readRefreshTokenId]
      split
      next claims hvalid => exact hclaims jwt claims rfl hvalid t ht
      next => trivial

theorem clears_logoutUser (userId : UserId) (cookie : Option RawToken) :
    Clears S (.logout userId cookie) (logoutUser S userId cookie) := by
  unfold logoutUser
  refine clears_requireRefreshToken fun raw hraw => clears_readRefreshTokenId fun jti hjti => ?_
  refine clears_deleteTokensWhere rfl fun now r => ?_
  rw [Bool.and_eq_true, beq_iff_eq, beq_iff_eq]
  constructor
  · rintro ⟨hid, jti', hjti', hhash⟩
    rw [hraw, hjti, Option.some.injEq] at hjti'
    rw [hjti']
    exact ⟨hid, hhash⟩
  · rintro ⟨hid, hhash⟩
    exact ⟨hid, jti, hraw ▸ hjti, hhash⟩

theorem clears_completeRecovery (userId : UserId) (userData : User)
    (oldPassword newPassword : String) (cookie : Option RawToken) :
    Clears S (.updatePassword userId oldPassword newPassword cookie true)
      (completeRecovery S userId userData oldPassword newPassword) := by
  intro t ht
  unfold completeRecovery
  split
  next => trivial
  next =>
    refine free_then ht (free_within [] rfl (within_bcryptHash S newPassword) (by decide)
      (by decide) (by decide)) fun _ t₁ ht₁ => ?_
    refine wp_seq (trail_transaction (R := fun updated t' => updated.isSome = true →
      ∃ ids, t'.purged = some (fun r => r.userId == userId, ids)) rfl (fun t₂ ht₂ => ?_)
      (fun _ h => by cases h) fun updated t₃ t₄ h₃ ht₄ hpurged => ?_)
    · refine free_then ht₂ (free_query rfl (by simp [Stmt.powers, UserPatch.powers])
        (by simp [Stmt.powers, UserPatch.powers]) (by simp [Stmt.powers, UserPatch.powers]))
        fun updateResult t₃ _ => ?_
      cases updateResult with
      | none => exact fun h => by cases h
      | some _ =>
          refine wp_seq (trail_deleteTokensWhere rfl (fun now r hr => ?_)
            fun ids t' _ _ hpurged _ => ⟨ids, hpurged⟩)
          exact ⟨eq_of_beq hr, fun h => by cases h⟩
    · cases updated with
      | none => trivial
      | some _ =>
          obtain ⟨ids, hids⟩ := h₃ rfl
          refine ⟨ht₄, cleared_of_purged (fun r hr => ?_) ht₄ (hpurged.trans hids)⟩
          exact beq_iff_eq.mpr hr.1

theorem clears_changePassword (userId : UserId) (userData : User)
    (oldPassword newPassword : String) (cookie : Option RawToken) {jti : String}
    (hjti : cookieJti cookie = some jti) (hne : jti ≠ "") :
    Clears S (.updatePassword userId oldPassword newPassword cookie false)
      (changePassword S userId userData oldPassword newPassword (some jti)) := by
  intro t ht
  unfold changePassword
  refine wp_guard (fun _ => trivial) fun _ => ?_
  split
  next => trivial
  next =>
    refine free_then ht (free_within [] rfl (within_bcryptHash S newPassword) (by decide)
      (by decide) (by decide)) fun _ t₁ ht₁ => ?_
    refine free_then ht₁ (free_query rfl (by simp [Stmt.powers, UserPatch.powers])
      (by simp [Stmt.powers, UserPatch.powers]) (by simp [Stmt.powers, UserPatch.powers]))
      fun updateResult t₂ ht₂ => ?_
    refine free_then ht₂ (free_within [] rfl (within_toPublicUserOrThrow updateResult)
      (by decide) (by decide) (by decide)) fun _ t₃ ht₃ => ?_
    have hrevokes : ∀ now r, Op.Revokes S now r
        (.updatePassword userId oldPassword newPassword cookie false) ↔
        (r.userId == userId && r.tokenIdHash != S.sha256 jti) = true := by
      intro now r
      rw [Bool.and_eq_true, beq_iff_eq, bne_iff_ne]
      refine and_congr_right fun _ => ⟨fun h => h rfl jti hjti, fun h _ jti' hjti' => ?_⟩
      rw [hjti, Option.some.injEq] at hjti'
      rw [← hjti']
      exact h
    have hclears := clears_deleteTokensWhere rfl hrevokes t₃ ht₃
    unfold revokeOtherSessions
    rw [show truthy (some jti) = some jti from by simp [truthy, hne]]
    exact wp_seq (wp_mono _ _ (fun _ _ h => h) (fun _ _ h => h) hclears)

/-- A token id is not empty. -/
theorem cookieJti_ne {cookie : Option RawToken} {jti : String} (h : cookieJti cookie = some jti) :
    jti ≠ "" := by
  have hvalid : ∀ jwt : Jwt, (validRefreshTokenClaims jwt).map RefreshTokenClaims.jti = some jti →
      jti ≠ "" := by
    intro jwt h
    obtain ⟨claims, hclaims, rfl⟩ := Option.map_eq_some_iff.mp h
    unfold validRefreshTokenClaims at hclaims
    split at hclaims
    next =>
      split at hclaims
      next hvalid =>
        cases hclaims
        exact hvalid.1
      next => cases hclaims
    next => cases hclaims
  unfold cookieJti at h
  split at h
  next jwt => exact hvalid jwt h
  next jwt => exact hvalid jwt h
  next => cases h

theorem clears_updatePassword (userId : UserId) (oldPassword newPassword : String)
    (cookie : Option RawToken) (temporaryAuth : Bool) {jti : String}
    (hjti : cookieJti cookie = some jti) :
    Clears S (.updatePassword userId oldPassword newPassword cookie temporaryAuth)
      (updatePassword S userId oldPassword newPassword
        (if temporaryAuth then none else some jti) temporaryAuth) := by
  intro t ht
  unfold updatePassword
  refine free_then ht (free_within [] rfl (within_assertPasswordWithinByteLimit _)
    (by decide) (by decide) (by decide)) fun _ t₁ ht₁ => ?_
  refine free_then ht₁ (free_within [] rfl (within_assertPasswordWithinByteLimit _)
    (by decide) (by decide) (by decide)) fun _ t₂ ht₂ => ?_
  refine free_then ht₂ (free_read rfl rfl) fun userData t₃ ht₃ => ?_
  cases userData with
  | none => trivial
  | some userData =>
      cases temporaryAuth with
      | true =>
          exact clears_completeRecovery userId userData oldPassword newPassword cookie t₃ ht₃
      | false =>
          exact clears_changePassword userId userData oldPassword newPassword cookie hjti
            (cookieJti_ne hjti) t₃ ht₃

theorem clears_updateUserPassword (userId : UserId) (oldPassword newPassword : String)
    (cookie : Option RawToken) (temporaryAuth : Bool) :
    Clears S (.updatePassword userId oldPassword newPassword cookie temporaryAuth)
      (updateUserPassword S userId oldPassword newPassword cookie temporaryAuth) := by
  unfold updateUserPassword
  refine clears_requireRefreshToken fun raw hraw => clears_readRefreshTokenId fun jti hjti => ?_
  rw [← hraw] at hjti
  intro t ht
  refine wp_seq (wp_mono _ _ (fun user t₁ h₁ => ?_) (fun _ _ h => h)
    (clears_updatePassword userId oldPassword newPassword cookie temporaryAuth hjti t ht))
  split
  next => exact h₁
  next =>
    -- the new session does not touch the snapshot
    refine wp_seq (wp_query (fun h => isRefresh_elim rfl h) (fun found t₂ h₂ => ?_)
      fun _ _ _ => trivial)
    rw [h₂.1]
    cases found with
    | none => trivial
    | some updatedUser =>
        refine wp_seq (trail_issueSession rfl updatedUser false h₁.1 fun _ t₃ hin hpurged => ?_)
        refine ⟨hin.trans h₁.1, fun r hr => ?_⟩
        obtain ⟨-, cond, ids, hids, hcond⟩ := h₁.2 r hr
        exact ⟨hin.trans h₁.1, cond, ids, hpurged.trans hids, hcond⟩

theorem clears_updateStatus (userId : UserId) (status : UserStatus) :
    Clears S (.updateStatus userId status) (updateStatus userId status) := by
  intro t ht
  unfold updateStatus
  refine trail_transaction (R := fun _ t' => status = .banned → t'.Expels userId) rfl
    (fun t₁ ht₁ => ?_) (fun userId' h r t' h' => ?_)
    fun r t₂ t₃ h₂ ht₃ hpurged => ⟨ht₃, fun r hr => ?_⟩
  · refine free_then ht₁ (free_within [] rfl (within_lockedTarget userId) (by decide)
      (by decide) (by decide)) fun target t₂ ht₂ => ?_
    have hrest : ∀ t' : Trail, t'.inside = true → wp (trailing S (.updateStatus userId status))
        (fun _ t' => status = .banned → t'.Expels userId) (fun _ _ => True)
        ((query (.updateUser userId (fun _ => true) { status := some status })).bind
          fun updated => if status = .banned
            then (deleteTokensWhere fun r => r.userId == userId).bind fun _ =>
              toPublicUserOrThrow updated
            else toPublicUserOrThrow updated) t' := by
      intro t' ht'
      refine wp_seq (wp_query (fun h => isRefresh_elim rfl h) (fun updated t₃ h₃ => ?_)
        fun _ _ _ => trivial)
      rw [h₃.1]
      split
      next hbanned =>
        have hcond : ∀ now (r : RefreshToken), (r.userId == userId) = true →
            Op.Revokes S now r (.updateStatus userId status) :=
          fun _ _ hr => ⟨hbanned, eq_of_beq hr⟩
        refine wp_seq (trail_deleteTokensWhere rfl hcond fun ids t₄ hin hseized hpurged => ?_)
        cases updated with
        | none => trivial
        | some u => exact fun _ => ⟨hin.trans ht', hseized, ids, hpurged⟩
      next hbanned =>
        cases updated with
        | none => trivial
        | some u => exact fun h => absurd h hbanned
    refine wp_guard (fun _ => trivial) fun _ => trail_ite ?_ (hrest t₂ ht₂)
    exact free_then ht₂ (free_within [] rfl (within_assertActiveAdminsRemain)
      (by decide) (by decide) (by decide)) fun _ t₃ ht₃ => hrest t₃ ht₃
  · obtain ⟨rfl, rfl⟩ := Op.updateStatus.inj h
    exact h' rfl
  · obtain ⟨-, -, ids, hids⟩ := h₂ hr.1
    exact ⟨ht₃, _, ids, hpurged.trans hids, beq_iff_eq.mpr hr.2⟩

theorem clears_resetPassword (userId : UserId) :
    Clears S (.resetPassword userId) (resetPassword S userId) := by
  intro t ht
  unfold resetPassword
  refine free_then ht (free_within [] rfl (within_existingTarget userId) (by decide)
    (by decide) (by decide)) fun _ t₁ ht₁ => ?_
  refine free_then ht₁ (free_act (fun _ => trivial) (by decide)) fun password t₂ ht₂ => ?_
  refine free_then ht₂ (free_within [] rfl (within_bcryptHash S password) (by decide)
    (by decide) (by decide)) fun _ t₃ ht₃ => ?_
  refine free_then ht₃ (free_act (fun _ => trivial) (by decide)) fun now t₄ ht₄ => ?_
  refine wp_seq (trail_transaction (R := fun _ t' =>
    ∃ ids, t'.purged = some (fun r => r.userId == userId, ids)) rfl (fun t₅ ht₅ => ?_)
    (fun _ h => by cases h) fun _ t₆ t₇ h₆ ht₇ hpurged => ?_)
  · refine free_then ht₅ (free_query rfl (by simp [Stmt.powers, UserPatch.powers])
      (by simp [Stmt.powers, UserPatch.powers]) (by simp [Stmt.powers, UserPatch.powers]))
      fun _ t₆ _ => ?_
    have hcond : ∀ now (r : RefreshToken), (r.userId == userId) = true →
        Op.Revokes S now r (.resetPassword userId) := fun _ _ hr => eq_of_beq hr
    exact trail_deleteTokensWhere rfl hcond fun ids t' _ _ hpurged => ⟨ids, hpurged⟩
  · obtain ⟨ids, hids⟩ := h₆
    exact ⟨ht₇, cleared_of_purged (fun r hr => beq_iff_eq.mpr hr) ht₇ (hpurged.trans hids)⟩

end Revocation

/-! ## §5. Rotation. -/

section Rotation

variable {S : Settings}

theorem trail_assertLoginAllowed {op : Op} {user : User} {Q : Unit → Trail → Prop}
    {E : Exn → Trail → Prop} {t : Trail} (hE : ∀ e, E e t) (hQ : user.status = .active → Q () t) :
    wp (trailing S op) Q E (assertLoginAllowed user) t := by
  unfold assertLoginAllowed
  split
  next e _ => exact hE e
  next hnone =>
    refine hQ ?_
    unfold loginRefusal at hnone
    cases hstatus : user.status with
    | active => rfl
    | pending =>
        rw [hstatus] at hnone
        cases hnone
    | banned =>
        rw [hstatus] at hnone
        cases hnone

/-- A refused statement of a transaction. -/
theorem refused_inside {op : Op} {α : Type} {s : Stmt α} {e : Exn} {t t' : Trail}
    (h : (trailing S op).next t (.query s) (.error e) t') (ht : t.inside = true) :
    t'.inside = true := by
  rw [h.1]
  exact ht

/-- What the callback of a rotation returns with. -/
def Sweeps (S : Settings) (claims : RefreshTokenClaims) (r : RotatedTokens) (t : Trail) : Prop :=
  ∃ stored values jti, t.stage = .swept stored values ∧
    r.refreshToken.payload = .refresh claims.sub jti claims.temporaryAuth ∧
    values.tokenIdHash = S.sha256 jti

/-- The second half of a rotation: the row is replaced, the expired ones go. -/
theorem trail_replace {cookie : Option RawToken} {claims : RefreshTokenClaims}
    {stored : RefreshToken} {user : User} {jti : String} {accessToken : Jwt} {t : Trail}
    (hpresented : presented (.refresh cookie) = some claims) (hinside : t.inside = true)
    (hstage : t.stage = .consumed stored) (hdrawn : t.drawn = some jti)
    (hid : user.id = claims.sub) :
    wp (trailing S (.refresh cookie)) (Sweeps S claims) (fun _ t => t.inside = true)
      ((buildIssuedRefreshToken S user.id ⟨user.id, jti, claims.temporaryAuth⟩).bind fun issued =>
        (query (.insertToken issued.row)).bind fun _ =>
          (perform .now).bind fun now =>
            (deleteTokensWhere fun r =>
              r.userId == claims.sub && decide (r.expiresAt ≤ now)).bind fun _ =>
                ret { accessToken := accessToken, refreshToken := issued.refreshToken }) t := by
  unfold buildIssuedRefreshToken deleteTokensWhere
  refine wp_seq (wp_seq (wp_perform hdrawn fun refreshToken t₁ h₁ => ?_))
  rw [h₁.1]
  have hpayload : refreshToken.payload = .refresh user.id jti claims.temporaryAuth := h₁.2
  refine wp_seq (wp_perform trivial fun now t₂ h₂ => ?_)
  rw [h₂.1]
  have hstores : ∀ t' : Trail, t'.signed = some (user.id, jti) → t'.inside = true →
      t'.stage = .consumed stored → t'.now = some now →
      t'.Stores S (.refresh cookie) ⟨S.sha256 jti, user.id, now + S.refreshTtl⟩ :=
    fun t' hsigned ht' hstage' hnow => ⟨⟨jti, hsigned, rfl⟩,
      fun _ => ⟨ht', claims, stored, now, hpresented, hstage', hid, hnow, rfl⟩, fun h => by cases h⟩
  refine wp_seq (wp_query (hstores _ rfl hinside hstage rfl) (fun _ t₃ h₃ => ?_)
    fun _ _ h => refused_inside h hinside)
  rw [h₃.1]
  refine wp_seq (wp_perform trivial fun now' t₄ h₄ => ?_)
  rw [h₄.1]
  refine wp_seq (wp_seq (wp_query (fun _ => rfl) (fun ids t₅ h₅ => ?_)
    fun _ _ h => refused_inside h hinside))
  rw [h₅.1]
  refine wp_seq (wp_query (.inr ⟨_, rfl, fun r hr => ?_, fun _ => ⟨hinside, stored,
    ⟨S.sha256 jti, user.id, now + S.refreshTtl⟩, ?_⟩⟩) (fun _ t₆ h₆ => ?_)
    fun _ _ h => refused_inside h hinside)
  · rw [Bool.and_eq_true, beq_iff_eq, decide_eq_true_eq] at hr
    exact ⟨claims, hpresented, hr.1, now', rfl, hr.2⟩
  · show t.stage.insert _ = _
    rw [hstage]
    rfl
  · rw [h₆.1]
    refine ⟨stored, ⟨S.sha256 jti, user.id, now + S.refreshTtl⟩, jti, ?_, ?_, rfl⟩
    · show (t.stage.insert _).delete _ _ = _
      rw [hstage]
      rfl
    · rw [← hid]
      exact hpayload

/-- The callback of a rotation. -/
theorem trail_rotate {cookie : Option RawToken} {claims : RefreshTokenClaims} {t : Trail}
    (hpresented : presented (.refresh cookie) = some claims) (hinside : t.inside = true)
    (hstage : t.stage = .idle) :
    wp (trailing S (.refresh cookie)) (Sweeps S claims) (fun _ t => t.inside = true)
      (rotate S claims) t := by
  unfold rotate
  refine wp_seq (wp_query (fun _ => rfl) (fun found t₁ h₁ => ?_)
    fun _ _ h => refused_inside h hinside)
  rw [h₁.1]
  have hhash : ∀ r, found = some r → r.tokenIdHash = S.sha256 claims.jti :=
    fun r hr => h₁.2 r (congrArg Except.ok hr)
  refine wp_seq (wp_perform trivial fun now t₂ h₂ => ?_)
  rw [h₂.1]
  split
  next => exact hinside
  next stored hfilter =>
    obtain ⟨hfound, hexpiry⟩ := Option.filter_eq_some_iff.mp hfilter
    refine wp_seq (wp_query (fun _ => ⟨hinside, hstage⟩) (fun locked t₃ h₃ => ?_)
      fun _ _ h => refused_inside h hinside)
    rw [h₃.1]
    cases locked with
    | none => exact hinside
    | some user =>
        have hid : user.id = claims.sub := h₃.2 user rfl
        unfold rotateLocked
        refine wp_guard (fun _ => hinside) fun hmode => ?_
        have hmode : user.mustChangePassword = claims.temporaryAuth := by simpa using hmode
        refine wp_seq (trail_assertLoginAllowed (fun _ => hinside) fun hactive => ?_)
        refine wp_seq (wp_perform trivial fun jti t₄ h₄ => ?_)
        rw [h₄.1]
        refine wp_seq (wp_perform trivial fun accessToken t₅ h₅ => ?_)
        rw [h₅.1]
        refine wp_seq (wp_query (.inl ⟨hinside, hstage, claims, stored, user, now, hpresented,
          hfound, rfl, hhash stored hfound, rfl, of_decide_eq_true hexpiry, rfl, hid, hactive,
          hmode⟩) (fun consumed t₆ h₆ => ?_) fun _ _ h => refused_inside h hinside)
        rw [h₆.1]
        refine wp_guard (fun _ => hinside) fun hthere => ?_
        have hconsumed : t.stage.delete found consumed = .consumed stored := by
          rw [hstage, hfound]
          exact if_neg hthere
        exact trail_replace hpresented hinside hconsumed rfl hid

/-- **A rotation.** -/
theorem trail_refresh (cookie : Option RawToken) :
    wp (trailing S (.refresh cookie)) (fun r t => HandsOut S (.refresh cookie) (.rotated r) t)
      (Broken (.refresh cookie)) (refresh S cookie) (Trail.fresh (.refresh cookie)) := by
  unfold refresh refreshTokens requireRefreshToken
  refine wp_seq ?_
  split
  next => exact fun _ => rfl
  next => exact fun _ => rfl
  next raw _ =>
    refine wp_seq (wp_perform trivial fun now t₁ h₁ => ?_)
    rw [h₁.1]
    split
    next => exact fun _ => rfl
    next claims hclaims =>
      obtain ⟨jwt, rfl, hvalid⟩ := refreshClaims_ok hclaims
      have hpresented : presented (.refresh (some (.signed jwt))) = some claims := hvalid
      refine wp_transaction (R := Sweeps S claims) (F := fun _ t => t.inside = true)
        (fun _ => ⟨rfl, rfl⟩)
        (fun _ t₂ h₂ => ?_) (fun t₂ h₂ => ?_) (fun r t₃ h₃ => ⟨⟨fun _ => ?_, fun _ h => ?_⟩,
          fun t₄ h₄ => ?_, fun _ t₄ h₄ => ?_⟩) fun _ t₃ h₃ => ⟨fun _ => h₃, fun t₄ h₄ => ?_⟩
      · rw [h₂.1]
        exact fun _ => rfl
      · rw [h₂.1]
        exact trail_rotate hpresented rfl rfl
      · obtain ⟨stored, values, -, hstage, -⟩ := h₃
        exact ⟨stored, values, hstage⟩
      · cases h
      · obtain ⟨stored, values, jti, hstage, hpayload, hhash⟩ := h₃
        rw [h₄.1]
        refine ⟨claims, stored, values, r, jti, hpresented, ?_, rfl, hpayload, hhash⟩
        show t₃.stage.commit = _
        rw [hstage]
        rfl
      · rw [h₄.1]
        exact fun _ => rfl
      · rw [h₄.1]
        exact fun _ => rfl

end Rotation

/-! ## §6. Every operation. -/

/-- **Every operation handles sessions as it may.** -/
theorem body_trails (S : Settings) (op : Op) :
    wp (trailing S op) (Ended S op) (Broken op) (body S op) (Trail.fresh op) := by
  have hbroken : isRefresh op = false → ∀ e t, Broken op e t :=
    fun hop _ _ h => isRefresh_elim hop h
  have hended : isRefresh op = false → ∀ r t, Cleared S op t → Ended S op r t :=
    fun hop _ _ h => ⟨fun h => isRefresh_elim hop h, h⟩
  -- an operation that is to delete nothing
  have hkeeps : isRefresh op = false → (∀ r, ¬ Op.Revokes S none r op) →
      wp (trailing S op) (fun _ _ => True) (fun _ _ => True) (body S op) (Trail.fresh op) →
      wp (trailing S op) (Ended S op) (Broken op) (body S op) (Trail.fresh op) :=
    fun hop hnone h => wp_mono _ _ (fun r t _ => hended hop r t fun x hx => absurd hx (hnone x))
      (fun e t _ => hbroken hop e t) h
  have hfree : ∀ {α : Type} {p : Call α} (f : α → Reply), Free S op false p →
      wp (trailing S op) (fun _ _ => True) (fun _ _ => True) (f <$> p) (Trail.fresh op) :=
    fun f hp => wp_seq (wp_mono _ _ (fun _ _ _ => trivial) (fun _ _ h => h) (hp _ rfl))
  have hclears : ∀ {α : Type} {p : Call α} (f : α → Reply), isRefresh op = false →
      Clears S op p → wp (trailing S op) (Ended S op) (Broken op) (f <$> p) (Trail.fresh op) :=
    fun f hop hp => wp_seq (wp_mono _ _ (fun a t h => hended hop _ t h.2)
      (fun e t _ => hbroken hop e t) (hp _ rfl))
  have hquiet : isRefresh op = false → (∀ r, ¬ Op.Revokes S none r op) →
      (∀ userId, op ≠ .updateStatus userId .banned) → Power.issue ∉ op.powers →
      Power.revoke ∉ op.powers →
      wp (trailing S op) (Ended S op) (Broken op) (body S op) (Trail.fresh op) :=
    fun hop hnone hban hissue hrevoke =>
      hkeeps hop hnone (trail_quiet hop hban (body_within S op) hissue hrevoke _)
  cases op with
  | refresh cookie =>
      refine wp_seq (wp_mono _ _ (fun r t h => ⟨fun _ => h, fun x hx => ?_⟩) (fun _ _ h => h)
        (trail_refresh cookie))
      obtain ⟨-, -, -, time, htime, -⟩ := hx
      cases htime
  | login identifier password context =>
      exact hkeeps rfl (fun _ h => h) (hfree _ (free_loginUser identifier password context rfl))
  | verify2FA bearer token =>
      exact hkeeps rfl (fun _ h => h) (hfree _ (free_verify2FA bearer token rfl))
  | googleLogin credential =>
      exact hkeeps rfl (fun _ h => h) (hfree _ (free_googleLogin credential rfl))
  | logout userId cookie => exact hclears _ rfl (clears_logoutUser userId cookie)
  | logoutAll userId =>
      exact hclears _ rfl (clears_deleteTokensWhere rfl fun now r => beq_iff_eq.symm)
  | deleteSession userId tokenId =>
      refine hclears _ rfl (clears_deleteTokensWhere rfl fun now r => ?_)
      rw [Bool.and_eq_true, beq_iff_eq, beq_iff_eq]
      exact Iff.rfl
  | updatePassword userId oldPassword newPassword cookie temporaryAuth =>
      exact hclears _ rfl
        (clears_updateUserPassword userId oldPassword newPassword cookie temporaryAuth)
  | updateStatus userId status => exact hclears _ rfl (clears_updateStatus userId status)
  | resetPassword userId => exact hclears _ rfl (clears_resetPassword userId)
  | _ =>
      exact hquiet rfl (fun _ h => h) (fun _ h => by cases h) (by simp [Op.powers])
        (by simp [Op.powers])

end Sessions

end MinePanel.Accounts
