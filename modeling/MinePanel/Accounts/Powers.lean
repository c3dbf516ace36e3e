/-
  MinePanel.Accounts.Powers
  ─────────────────────────
  **WHICH OPERATION CAN CHANGE WHAT.**

  Every write belongs to a family (a `Power`): roles and statuses, credentials,
  sessions, grants, … .  `body_within` reads off the code of every operation
  which families it can write at all.  A property that only one family can
  break then needs a proof only for the operations that have it.

    * `Act.powers`, `Write.powers`, `Op.powers`;
    * `plan_powers` — a statement writes only within its own powers;
    * `body_within` — an operation acts only within its own powers.
-/
import MinePanel.Accounts.System

namespace MinePanel.Accounts

open MinePanel.Db MinePanel.Lib Prog

/-! ## §1. Powers. -/

/-- A family of writes. -/
inductive Power where
  /-- Roles and statuses. -/
  | standing
  /-- Passwords, temporary passwords, forced recovery. -/
  | credential
  /-- TOTP secrets, backup codes. -/
  | secondFactor
  /-- User names. -/
  | name
  /-- Google identities. -/
  | link
  /-- New accounts. -/
  | account
  /-- New refresh tokens. -/
  | issue
  /-- Pre-auth tokens. -/
  | preAuth
  /-- The check of the two-factor lock. -/
  | lockCheck
  /-- The counters of wrong two-factor codes. -/
  | lockout
  /-- Deleted refresh tokens. -/
  | revoke
  /-- Grants of moderators. -/
  | grant
  /-- The row of the setup flag and the bootstrap token. -/
  | setup
  /-- The setup flag itself. -/
  | complete
  /-- OAuth challenges. -/
  | challenge
  /-- Transactions. -/
  | transact
  deriving Repr, DecidableEq

/-- The powers an UPDATE of `users` needs. -/
def UserPatch.powers (set : UserPatch) : List Power :=
  (if set.role.isSome || set.status.isSome then [.standing] else [])
    ++ (if set.passwordHash.isSome || set.tempPasswordHash.isSome
          || set.tempPasswordExpiresAt.isSome || set.mustChangePassword.isSome
        then [.credential] else [])
    ++ (if set.totpSecret.isSome || set.totpEnabled.isSome || set.totpBackupCodes.isSome
        then [.secondFactor] else [])
    ++ (if set.username.isSome then [.name] else [])
    ++ (if set.googleId.isSome then [.link] else [])

/-- The powers a write needs. -/
def Write.powers : Write → List Power
  | .insertUser _ => [.account]
  | .updateUser _ set _ => set.powers
  | .insertToken _ => [.issue]
  | .deleteTokens _ => [.revoke]
  | .insertPermission _ => [.grant]
  | .deletePermissions _ => [.grant]
  | .insertSetup => [.setup]
  | .completeSetup => [.complete]
  | .insertChallenge _ => [.challenge]
  | .deleteChallenge _ => [.challenge]
  | .insertServer _ => []
  | .deleteServer _ => [.grant]

/-- The powers a statement needs. -/
def Stmt.powers : ∀ {α : Type}, Stmt α → List Power
  | _, .insertUser _ => [.account]
  | _, .updateUser _ _ set => set.powers
  | _, .insertToken _ => [.issue]
  | _, .deleteTokens _ => [.revoke]
  | _, .insertPermission _ _ _ => [.grant]
  | _, .deletePermissions _ => [.grant]
  | _, .insertSetup => [.setup]
  | _, .completeSetup => [.complete]
  | _, .insertChallenge _ _ _ => [.challenge]
  | _, .consumeChallenge _ _ _ => [.challenge]
  | _, _ => []

/-- The powers a step needs. -/
def Act.powers : ∀ {β : Type}, Act β → List Power
  | _, .query s => s.powers
  | _, .begin => [.transact]
  | _, .commit => [.transact]
  | _, .rollback => [.transact]
  | _, .createRefreshTokenId => [.issue]
  | _, .sign (.refresh _ _ _) _ => [.issue]
  | _, .sign (.preAuth _ _) _ => [.preAuth]
  | _, .assertTwoFactorNotLocked _ => [.lockCheck]
  | _, .recordTwoFactorFailure _ => [.lockout]
  | _, .clearTwoFactorFailures _ => [.lockout]
  | _, .bootstrapToken => [.setup]
  | _, .getOrGenerateBootstrapToken => [.setup]
  | _, _ => []

/-- The transitions under the lock of the last administrator. -/
def Op.isTransition : Op → Bool
  | .updateStatus _ _ => true
  | .updateRole _ _ => true
  | .grantModPermission _ _ _ => true
  | _ => false

/-- The powers of an operation. -/
def Op.powers : Op → List Power
  | .register _ _ _ => [.account]
  | .login _ _ _ => [.credential, .issue, .preAuth]
  | .verify2FA _ _ => [.secondFactor, .credential, .issue, .lockCheck, .lockout]
  | .createChallenge _ => [.challenge]
  | .googleLogin _ => [.challenge, .account, .issue]
  | .googleLink _ _ => [.challenge, .link, .transact]
  | .refresh _ => [.transact, .issue, .revoke]
  | .logout _ _ => [.revoke]
  | .logoutAll _ => [.revoke]
  | .deleteSession _ _ => [.revoke]
  | .editProfile _ _ => [.name]
  | .updatePassword _ _ _ _ _ => [.credential, .transact, .revoke, .issue]
  | .setup2FA _ => [.secondFactor]
  | .confirm2FA _ _ => [.secondFactor]
  | .disable2FA _ _ => [.secondFactor]
  | .updateStatus _ _ => [.standing, .transact, .revoke]
  | .updateRole _ _ => [.standing, .transact, .grant]
  | .grantModPermission _ _ _ => [.grant, .transact]
  | .revokeModPermission _ _ => [.grant]
  | .resetPassword _ => [.credential, .transact, .revoke]
  | .removeTwoFactor _ => [.secondFactor]
  | .initAdminRegister _ _ _ _ => [.transact, .setup, .complete, .account]
  | .getSetupState => [.setup]
  | .onModuleInit => [.transact, .setup]
  | .authenticate _ _ => []

/-- Every step of the call stays within `ps`. -/
def Within {α : Type} (ps : List Power) (c : Call α) : Prop :=
  Only (fun _ a => a.powers ⊆ ps) (fun _ => True) c

/-- A planned write needs no power its statement has not. -/
theorem plan_powers {α : Type} (now : Timestamp) (e : Env) (d : Db) (s : Stmt α) :
    ∀ x ∈ (plan now e d s).writes, x.powers = s.powers := by
  cases s <;> simp only [plan, Plan.read, Plan.refuse] <;> (repeat' split) <;>
    simp [Write.powers, Stmt.powers]

/-! ## §2. Rules. -/

section Rules

variable {α β : Type} {ps qs : List Power}

theorem within_ret (a : α) : Within ps (ret a : Call α) := trivial

theorem within_fail (e : Exn) : Within ps (fail e : Call α) := trivial

theorem within_act {a : Act β} {k : β → Call α} (ha : a.powers ⊆ ps)
    (hk : ∀ b, Within ps (k b)) : Within ps (act a k) := ⟨ha, hk⟩

/-- Pieces of code within the powers, one after the other. -/
theorem within_bind {p : Call α} {f : α → Call β} (hp : Within ps p)
    (hf : ∀ a, Within ps (f a)) : Within ps (p.bind f) := only_bind hp hf

theorem within_perform {a : Act α} (ha : a.powers ⊆ ps) : Within ps (perform a : Call α) :=
  within_act ha fun b => within_ret b

theorem within_tryCatch {p : Call α} {h : Exn → Call α} (hp : Within ps p)
    (hh : ∀ e, Within ps (h e)) : Within ps (p.tryCatch h) :=
  only_tryCatch hp fun e _ => hh e

theorem within_guard {c : Prop} [Decidable c] {e : Exn} {k : Call α} (hk : Within ps k) :
    Within ps (if c then fail e else k) :=
  only_guard (fun _ => trivial) fun _ => hk

theorem within_ite {c : Prop} [Decidable c] {p q : Call α} (hp : Within ps p)
    (hq : Within ps q) : Within ps (if c then p else q) := by
  split
  next => exact hp
  next => exact hq

theorem within_orThrow {a : Act (Except Exn α)} (ha : a.powers ⊆ ps) : Within ps (orThrow a) := by
  unfold orThrow
  refine within_bind (within_perform ha) fun b => ?_
  cases b with
  | ok r => exact within_ret r
  | error e => exact within_fail e

/-- A statement within the powers. -/
theorem within_query {s : Stmt α} (hs : s.powers ⊆ ps) : Within ps (query s) :=
  within_orThrow hs

/-- A transaction within the powers. -/
theorem within_transaction {p : Call α} (ht : Power.transact ∈ ps) (hp : Within ps p) :
    Within ps (transaction p) := by
  have htransact : [Power.transact] ⊆ ps := by simpa using ht
  unfold transaction guarded
  refine within_bind (within_orThrow htransact) fun _ => ?_
  refine within_bind (within_tryCatch hp fun e => ?_) fun r => ?_
  · exact within_bind (within_perform htransact) fun _ => within_fail e
  · exact within_bind (within_orThrow htransact) fun _ => within_ret r

/-- `DELETE FROM refresh_tokens` revokes. -/
theorem within_deleteTokensWhere {cond : RefreshToken → Bool} (h : Power.revoke ∈ ps) :
    Within ps (deleteTokensWhere cond) := by
  unfold deleteTokensWhere
  refine within_bind (within_query (List.nil_subset _)) fun ids => ?_
  exact within_bind (within_query (by simpa [Stmt.powers] using h)) fun _ => within_ret _

/-- `DELETE FROM mod_permissions` changes grants. -/
theorem within_deletePermissionsWhere {cond : ModPermissionRow → Bool} (h : Power.grant ∈ ps) :
    Within ps (deletePermissionsWhere cond) := by
  unfold deletePermissionsWhere
  refine within_bind (within_query (List.nil_subset _)) fun ids => ?_
  exact within_query (by simpa [Stmt.powers] using h)

theorem within_toPublicUserOrThrow (row : Option User) : Within ps (toPublicUserOrThrow row) := by
  cases row with
  | none => exact within_fail _
  | some u => exact within_ret _

theorem within_assertPasswordWithinByteLimit (data : String) :
    Within ps (assertPasswordWithinByteLimit data) :=
  within_ite (within_ret _) (within_fail _)

theorem within_bcryptHash (S : Settings) (data : String) : Within ps (bcryptHash S data) :=
  within_bind (within_perform (List.nil_subset _)) fun _ => within_ret _

theorem within_assertLoginAllowed (user : User) : Within ps (assertLoginAllowed user) := by
  unfold assertLoginAllowed
  split
  next => exact within_fail _
  next => exact within_ret _

end Rules

/-! ## §3. Sessions. -/

section Sessions

variable {ps : List Power} (S : Settings)

/-- `issueSession` issues. -/
theorem within_issueSession (user : User) (temporaryAuth : Bool) (h : Power.issue ∈ ps) :
    Within ps (issueSession S user temporaryAuth) := by
  have hissue : [Power.issue] ⊆ ps := by simpa using h
  unfold issueSession buildIssuedRefreshToken
  refine within_bind (within_perform hissue) fun jti => ?_
  refine within_bind (within_perform (List.nil_subset _)) fun accessToken => ?_
  refine within_bind (within_bind (within_perform hissue) fun _ => ?_) fun issued => ?_
  · exact within_bind (within_perform (List.nil_subset _)) fun _ => within_ret _
  · exact within_bind (within_query hissue) fun _ => within_ret _

/-- `consumeTempPassword` changes a credential. -/
theorem within_consumeTempPassword (user : User) (h : Power.credential ∈ ps) :
    Within ps (consumeTempPassword user) := by
  unfold consumeTempPassword
  split
  next =>
    refine within_bind (within_perform (List.nil_subset _)) fun now => ?_
    refine within_bind (within_query (by simpa [Stmt.powers, UserPatch.powers] using h))
      fun consumed => ?_
    cases consumed with
    | some _ => exact within_ret _
    | none => exact within_fail _
  next => exact within_fail _

theorem within_recordLoginSuccess (context : Option LoginAttemptContext) :
    Within ps (recordLoginSuccess context) := by
  cases context with
  | none => exact within_ret _
  | some context => exact within_perform (List.nil_subset _)

theorem within_wrongCredentials (context : Option LoginAttemptContext) :
    Within ps (wrongCredentials context) := by
  unfold wrongCredentials recordLoginFailure
  refine within_bind ?_ fun _ => within_fail _
  cases context with
  | none => exact within_ret _
  | some context => exact within_perform (List.nil_subset _)

/-- A challenge is a pre-auth token. -/
theorem within_challenge (user : User) (fingerprint : Option String)
    (context : Option LoginAttemptContext) (h : Power.preAuth ∈ ps) :
    Within ps (challenge user fingerprint context) := by
  unfold challenge
  refine within_bind (within_perform (by simpa [Act.powers] using h)) fun _ => ?_
  exact within_bind (within_recordLoginSuccess context) fun _ => within_ret _

theorem within_assertAttemptAllowed (context : Option LoginAttemptContext) :
    Within ps (assertAttemptAllowed context) := by
  cases context with
  | none => exact within_ret _
  | some context =>
      refine within_bind (within_perform (List.nil_subset _)) fun allowed => ?_
      exact within_ite (within_ret _) (within_fail _)

/-- `loginUser` consumes a credential, and issues a session or a challenge. -/
theorem within_loginUser (identifier password : String) (context : Option LoginAttemptContext)
    (hcredential : Power.credential ∈ ps) (hissue : Power.issue ∈ ps)
    (hpreAuth : Power.preAuth ∈ ps) : Within ps (loginUser S identifier password context) := by
  have hsession : ∀ (user : User) (temporaryAuth : Bool),
      Within ps ((issueSession S user temporaryAuth).bind fun session =>
        (recordLoginSuccess context).bind fun _ => ret (LoginResponse.session session)) :=
    fun user temporaryAuth => within_bind (within_issueSession S user temporaryAuth hissue)
      fun _ => within_bind (within_recordLoginSuccess context) fun _ => within_ret _
  unfold loginUser
  refine within_bind (within_assertAttemptAllowed context) fun _ => ?_
  refine within_bind (within_query (List.nil_subset _)) fun user => ?_
  refine within_bind (within_perform (List.nil_subset _)) fun now => ?_
  split
  next => exact within_wrongCredentials context
  next user _ =>
    refine within_bind (within_assertLoginAllowed user) fun _ => ?_
    unfold loginForced loginOrdinary
    refine within_ite (within_ite (within_wrongCredentials context) (within_ite
      (within_challenge _ _ _ hpreAuth) ?_)) (within_ite (within_wrongCredentials context)
      (within_ite (within_challenge _ _ _ hpreAuth) (hsession user false)))
    exact within_bind (within_consumeTempPassword user hcredential) fun _ => hsession user true

theorem within_issueProviderSession (user : User) (h : Power.issue ∈ ps) :
    Within ps (issueProviderSession S user) := by
  unfold issueProviderSession
  refine within_bind (within_assertLoginAllowed user) fun _ => ?_
  exact within_guard (within_guard (within_issueSession S user false h))

/-- `verifySecondFactor` may take a backup code out. -/
theorem within_verifySecondFactor (user : User) (token : String) (h : Power.secondFactor ∈ ps) :
    Within ps (verifySecondFactor S user token) := by
  unfold verifySecondFactor isValidTotp
  refine within_bind (within_bind (within_perform (List.nil_subset _)) fun _ => within_ret _)
    fun valid => ?_
  refine within_ite (within_ret _) ?_
  unfold verifyAndConsumeBackupCode
  split
  next => exact within_ret _
  next codes _ =>
    split
    next => exact within_ret _
    next =>
      exact within_bind (within_query (by simpa [Stmt.powers, UserPatch.powers] using h))
        fun _ => within_ret _

/-- What follows the lock check. -/
theorem within_evaluate (user : User) (token : String) (temporaryAuth : Bool)
    (hsecond : Power.secondFactor ∈ ps) (hcredential : Power.credential ∈ ps)
    (hissue : Power.issue ∈ ps) (hlockout : Power.lockout ∈ ps) :
    Within ps (do
      let verified ← verifySecondFactor S user token
      if !verified then
        Prog.perform (.recordTwoFactorFailure user.id)
        throw (.unauthorized (some "Invalid two-factor code"))
      Prog.perform (.clearTwoFactorFailures user.id)
      if temporaryAuth then consumeTempPassword user
      issueSession S user temporaryAuth) := by
  have hlock : [Power.lockout] ⊆ ps := by simpa using hlockout
  refine within_bind (within_verifySecondFactor S user token hsecond) fun verified => ?_
  refine within_ite ?_ ?_
  · exact within_bind (within_perform hlock) fun _ => within_fail _
  · refine within_bind (within_perform hlock) fun _ => ?_
    exact within_ite
      (within_bind (within_consumeTempPassword user hcredential)
        fun _ => within_issueSession S user _ hissue)
      (within_issueSession S user _ hissue)

/-- `completeTwoFactorLogin` uses the lockout besides. -/
theorem within_completeTwoFactorLogin (userId : UserId) (token : String)
    (fingerprint : Option String) (hsecond : Power.secondFactor ∈ ps)
    (hcredential : Power.credential ∈ ps) (hissue : Power.issue ∈ ps)
    (hcheck : Power.lockCheck ∈ ps) (hlockout : Power.lockout ∈ ps) :
    Within ps (completeTwoFactorLogin S userId token fingerprint) := by
  unfold completeTwoFactorLogin
  refine within_bind (within_query (List.nil_subset _)) fun found => ?_
  split
  next => exact within_fail _
  next user _ =>
    refine within_bind (within_assertLoginAllowed user) fun _ => ?_
    refine within_bind (within_perform (by simpa [Act.powers] using hcheck)) fun locked => ?_
    refine within_guard (within_guard ?_)
    refine within_bind (within_perform (List.nil_subset _)) fun now => ?_
    exact within_guard (within_evaluate S user token _ hsecond hcredential hissue hlockout)

theorem within_verify2FA (bearer : RawToken) (token : String) (hsecond : Power.secondFactor ∈ ps)
    (hcredential : Power.credential ∈ ps) (hissue : Power.issue ∈ ps)
    (hcheck : Power.lockCheck ∈ ps) (hlockout : Power.lockout ∈ ps) :
    Within ps (verify2FA S bearer token) := by
  unfold verify2FA
  refine within_bind (within_perform (List.nil_subset _)) fun now => ?_
  split
  next =>
    exact within_completeTwoFactorLogin S _ token _ hsecond hcredential hissue hcheck hlockout
  next => exact within_fail _

theorem within_requireRefreshToken (cookie : Option RawToken) :
    Within ps (requireRefreshToken cookie) := by
  unfold requireRefreshToken
  split
  next => exact within_fail _
  next => exact within_fail _
  next => exact within_ret _

theorem within_readRefreshTokenId (raw : RawToken) : Within ps (readRefreshTokenId raw) := by
  cases raw with
  | empty => exact within_fail _
  | garbage => exact within_fail _
  | forged jwt =>
      dsimp only [readRefreshTokenId]
      split
      next => exact within_ret _
      next => exact within_fail _
  | signed jwt =>
      dsimp only [readRefreshTokenId]
      split
      next => exact within_ret _
      next => exact within_fail _

/-- `refresh` revokes one session and issues another in a transaction. -/
theorem within_refresh (cookie : Option RawToken) (htransact : Power.transact ∈ ps)
    (hissue : Power.issue ∈ ps) (hrevoke : Power.revoke ∈ ps) : Within ps (refresh S cookie) := by
  have hissues : [Power.issue] ⊆ ps := by simpa using hissue
  have hrevokes : [Power.revoke] ⊆ ps := by simpa using hrevoke
  unfold refresh refreshTokens
  refine within_bind (within_requireRefreshToken cookie) fun raw => ?_
  refine within_bind (within_perform (List.nil_subset _)) fun now => ?_
  split
  next => exact within_fail _
  next decoded _ =>
    refine within_transaction htransact ?_
    unfold rotate
    refine within_bind (within_query (List.nil_subset _)) fun stored => ?_
    refine within_bind (within_perform (List.nil_subset _)) fun now => ?_
    split
    next => exact within_fail _
    next stored _ =>
      refine within_bind (within_query (List.nil_subset _)) fun user => ?_
      cases user with
      | none => exact within_fail _
      | some user =>
          unfold rotateLocked buildIssuedRefreshToken
          refine within_guard ?_
          refine within_bind (within_assertLoginAllowed user) fun _ => ?_
          refine within_bind (within_perform hissues) fun jti => ?_
          refine within_bind (within_perform (List.nil_subset _)) fun accessToken => ?_
          refine within_bind (within_query hrevokes) fun consumed => ?_
          refine within_guard ?_
          refine within_bind (within_bind (within_perform hissues) fun _ => ?_) fun issued => ?_
          · exact within_bind (within_perform (List.nil_subset _)) fun _ => within_ret _
          refine within_bind (within_query hissues) fun _ => ?_
          refine within_bind (within_perform (List.nil_subset _)) fun now => ?_
          exact within_bind (within_deleteTokensWhere hrevoke) fun _ => within_ret _

/-- `logoutUser` revokes. -/
theorem within_logoutUser (userId : UserId) (cookie : Option RawToken)
    (h : Power.revoke ∈ ps) : Within ps (logoutUser S userId cookie) := by
  unfold logoutUser
  refine within_bind (within_requireRefreshToken cookie) fun raw => ?_
  exact within_bind (within_readRefreshTokenId raw) fun _ => within_deleteTokensWhere h

/-- `updatePassword` changes a credential and revokes. -/
theorem within_updatePassword (userId : UserId) (oldPassword newPassword : String)
    (refreshTokenId : Option String) (temporaryAuth : Bool) (hcredential : Power.credential ∈ ps)
    (htransact : Power.transact ∈ ps) (hrevoke : Power.revoke ∈ ps) :
    Within ps (updatePassword S userId oldPassword newPassword refreshTokenId temporaryAuth) := by
  unfold updatePassword
  refine within_bind (within_assertPasswordWithinByteLimit _) fun _ => ?_
  refine within_bind (within_assertPasswordWithinByteLimit _) fun _ => ?_
  refine within_bind (within_query (List.nil_subset _)) fun userData => ?_
  cases userData with
  | none => exact within_fail _
  | some userData =>
      refine within_ite ?_ ?_
      · unfold completeRecovery
        split
        next => exact within_fail _
        next =>
          refine within_bind (within_bcryptHash S newPassword) fun _ => ?_
          refine within_bind (within_transaction htransact ?_) fun updated => ?_
          · refine within_bind (within_query
              (by simpa [Stmt.powers, UserPatch.powers] using hcredential)) fun updateResult => ?_
            cases updateResult with
            | none => exact within_ret _
            | some _ => exact within_bind (within_deleteTokensWhere hrevoke) fun _ => within_ret _
          · cases updated with
            | none => exact within_fail _
            | some _ => exact within_ret _
      · unfold changePassword revokeOtherSessions
        refine within_guard ?_
        split
        next => exact within_fail _
        next =>
          refine within_bind (within_bcryptHash S newPassword) fun _ => ?_
          refine within_bind (within_query
            (by simpa [Stmt.powers, UserPatch.powers] using hcredential)) fun updateResult => ?_
          refine within_bind (within_toPublicUserOrThrow _) fun _ => ?_
          refine within_bind ?_ fun _ => within_ret _
          split
          next => exact within_deleteTokensWhere hrevoke
          next => exact within_deleteTokensWhere hrevoke

/-- `updateUserPassword` issues a session besides, after a recovery. -/
theorem within_updateUserPassword (userId : UserId) (oldPassword newPassword : String)
    (cookie : Option RawToken) (temporaryAuth : Bool) (hcredential : Power.credential ∈ ps)
    (htransact : Power.transact ∈ ps) (hrevoke : Power.revoke ∈ ps) (hissue : Power.issue ∈ ps) :
    Within ps (updateUserPassword S userId oldPassword newPassword cookie temporaryAuth) := by
  unfold updateUserPassword
  refine within_bind (within_requireRefreshToken cookie) fun raw => ?_
  refine within_bind (within_readRefreshTokenId raw) fun refreshTokenId => ?_
  refine within_bind (within_updatePassword S userId oldPassword newPassword _ temporaryAuth
    hcredential htransact hrevoke) fun user => ?_
  refine within_ite (within_ret _) ?_
  refine within_bind (within_query (List.nil_subset _)) fun updatedUser => ?_
  cases updatedUser with
  | none => exact within_fail _
  | some updatedUser =>
      exact within_bind (within_issueSession S updatedUser false hissue) fun _ => within_ret _

theorem within_generateBackupCodes (n : Nat) : Within ps (generateBackupCodes n) := by
  induction n with
  | zero => exact within_ret _
  | succ n ih =>
      refine within_bind (within_perform (List.nil_subset _)) fun _ => ?_
      exact within_bind ih fun _ => within_ret _

theorem within_hashCodes (codes : List String) : Within ps (hashCodes S codes) := by
  induction codes with
  | nil => exact within_ret _
  | cons code codes ih =>
      refine within_bind (within_bcryptHash S code) fun _ => ?_
      exact within_bind ih fun _ => within_ret _

/-- `setup2FA` writes the second factor. -/
theorem within_setup2FA (userId : UserId) (h : Power.secondFactor ∈ ps) :
    Within ps (setup2FA S userId) := by
  unfold setup2FA
  refine within_bind (within_query (List.nil_subset _)) fun user => ?_
  cases user with
  | none => exact within_fail _
  | some user =>
      refine within_guard ?_
      refine within_bind (within_perform (List.nil_subset _)) fun _ => ?_
      refine within_bind (within_perform (List.nil_subset _)) fun _ => ?_
      exact within_bind (within_query (by simpa [Stmt.powers, UserPatch.powers] using h))
        fun _ => within_ret _

/-- `confirm2FA` writes the second factor. -/
theorem within_confirm2FA (userId : UserId) (token : String) (h : Power.secondFactor ∈ ps) :
    Within ps (confirm2FA S userId token) := by
  unfold confirm2FA isValidTotp
  refine within_bind (within_query (List.nil_subset _)) fun user => ?_
  cases user with
  | none => exact within_fail _
  | some user =>
      refine within_guard (within_guard ?_)
      refine within_bind (within_bind (within_perform (List.nil_subset _)) fun _ => within_ret _)
        fun valid => ?_
      refine within_guard ?_
      refine within_bind (within_generateBackupCodes 8) fun backupCodes => ?_
      refine within_bind (within_hashCodes S backupCodes) fun _ => ?_
      exact within_bind (within_query (by simpa [Stmt.powers, UserPatch.powers] using h))
        fun _ => within_ret _

/-- `disable2FA` writes the second factor. -/
theorem within_disable2FA (userId : UserId) (token : String) (h : Power.secondFactor ∈ ps) :
    Within ps (disable2FA S userId token) := by
  unfold disable2FA
  refine within_bind (within_query (List.nil_subset _)) fun found => ?_
  split
  next => exact within_fail _
  next user _ =>
    refine within_bind (within_verifySecondFactor S user token h) fun verified => ?_
    refine within_guard ?_
    exact within_bind (within_query (by simpa [Stmt.powers, UserPatch.powers] using h))
      fun _ => within_ret _

/-- `updateProfile` writes the name only. -/
theorem within_updateProfile (userId : UserId) (username : Option String) (h : Power.name ∈ ps) :
    Within ps (updateProfile userId username) := by
  unfold updateProfile
  refine within_bind (within_query (List.nil_subset _)) fun userData => ?_
  cases userData with
  | none => exact within_fail _
  | some userData =>
      dsimp only
      split
      next => exact within_fail _
      next =>
        exact within_bind (within_query (by simpa [Stmt.powers, UserPatch.powers] using h))
          fun _ => within_toPublicUserOrThrow _

/-- `registerUser` creates an account. -/
theorem within_registerUser (email username password : String) (h : Power.account ∈ ps) :
    Within ps (registerUser S email username password) := by
  unfold registerUser createUser
  refine within_bind (within_query (List.nil_subset _)) fun userExists => ?_
  refine within_guard ?_
  refine within_bind (within_assertPasswordWithinByteLimit _) fun _ => ?_
  refine within_bind (within_bcryptHash S password) fun _ => ?_
  exact within_bind (within_query (by simpa [Stmt.powers] using h)) fun _ => within_ret _

end Sessions

/-! ## §4. Google. -/

section Google

variable {ps : List Power} (S : Settings)

/-- `createChallenge` stores a challenge. -/
theorem within_createChallenge (provider : OAuthChallengeProvider) (h : Power.challenge ∈ ps) :
    Within ps (createChallenge S provider) := by
  unfold createChallenge
  refine within_bind (within_perform (List.nil_subset _)) fun _ => ?_
  refine within_bind (within_perform (List.nil_subset _)) fun _ => ?_
  exact within_bind (within_query (by simpa [Stmt.powers] using h)) fun _ => within_ret _

/-- `consumeCredential` takes its challenge. -/
theorem within_consumeCredential (credential : String) (h : Power.challenge ∈ ps) :
    Within ps (consumeCredential S credential) := by
  unfold consumeCredential verifyCredential verifyAndConsume
  refine within_bind ?_ fun claims => within_bind ?_ fun consumed => within_guard (within_ret _)
  · split
    next => exact within_fail _
    next =>
      refine within_bind (within_perform (List.nil_subset _)) fun payload => ?_
      refine within_bind (within_perform (List.nil_subset _)) fun now => ?_
      split
      next => exact within_fail _
      next => exact within_ret _
  · refine within_ite (within_ret _) ?_
    refine within_bind (within_perform (List.nil_subset _)) fun now => ?_
    exact within_bind (within_query (by simpa [Stmt.powers] using h)) fun _ => within_ret _

theorem within_lookupIdentity (identity : ProviderIdentity) (providerId : String) :
    Within ps (lookupIdentity identity providerId) := by
  unfold lookupIdentity
  refine within_bind (within_query (List.nil_subset _)) fun linkedUser => ?_
  cases linkedUser with
  | some _ => exact within_ret _
  | none =>
      refine within_bind (within_query (List.nil_subset _)) fun emailUser => ?_
      cases emailUser with
      | some _ => exact within_ret _
      | none => exact within_ret _

/-- `createProviderUser` creates an account. -/
theorem within_createProviderUser (identity : ProviderIdentity) (providerId username : String)
    (attempt left : Nat) (h : Power.account ∈ ps) :
    Within ps (createProviderUser S identity providerId username attempt left) := by
  induction left generalizing attempt with
  | zero => exact within_fail _
  | succ left ih =>
      unfold createProviderUser candidateName insertAccount
      refine within_bind (within_ite (within_ret _)
        (within_bind (within_perform (List.nil_subset _)) fun _ => within_ret _)) fun _ => ?_
      refine within_bind (within_tryCatch (within_bind
        (within_query (by simpa [Stmt.powers] using h)) fun _ => within_ret _) fun _ =>
        within_ite (within_ret _) (within_fail _)) fun created => ?_
      cases created with
      | some _ => exact within_ret _
      | none =>
          refine within_bind (within_lookupIdentity identity providerId) fun resolution => ?_
          cases resolution with
          | some _ => exact within_ret _
          | none => exact ih (attempt + 1)

/-- `googleLogin` takes a challenge, may create an account, and issues a session. -/
theorem within_googleLogin (credential : String) (hchallenge : Power.challenge ∈ ps)
    (haccount : Power.account ∈ ps) (hissue : Power.issue ∈ ps) :
    Within ps (googleLogin S credential) := by
  have hsession : ∀ user : User, Within ps ((issueProviderSession S user).bind fun session =>
      (ret (some session) : Call (Option AuthTokens))) := fun user =>
    within_bind (within_issueProviderSession S user hissue) fun _ => within_ret _
  unfold googleLogin resolveProviderIdentity
  refine within_bind (within_consumeCredential S credential hchallenge) fun claims => ?_
  refine within_bind (within_guard ?_) fun resolution => ?_
  · refine within_bind (within_lookupIdentity _ _) fun resolution => ?_
    cases resolution with
    | some _ => exact within_ret _
    | none => exact within_guard (within_createProviderUser S _ _ _ 0 3 haccount)
  · cases resolution with
    | linkConfirmationRequired _ => exact within_ret _
    | authenticated user => exact hsession user
    | created user => exact hsession user

/-- `googleLink` takes a challenge and links in a transaction. -/
theorem within_googleLink (userId : UserId) (credential : String)
    (hchallenge : Power.challenge ∈ ps) (hlink : Power.link ∈ ps)
    (htransact : Power.transact ∈ ps) : Within ps (googleLink S userId credential) := by
  unfold googleLink linkGoogleIdentity
  refine within_bind (within_consumeCredential S credential hchallenge) fun claims => ?_
  refine within_bind (within_guard (within_transaction htransact ?_)) fun _ => within_ret _
  refine within_bind (within_tryCatch (within_query
    (by simpa [Stmt.powers, UserPatch.powers] using hlink)) fun _ =>
    within_ite (within_fail _) (within_fail _)) fun linkedUser => ?_
  cases linkedUser with
  | some _ => exact within_ret _
  | none =>
      refine within_bind (within_query (List.nil_subset _)) fun user => ?_
      cases user with
      | none => exact within_fail _
      | some user => exact within_ite (within_ret _) (within_fail _)

end Google

/-! ## §5. Administration and setup. -/

section Admin

variable {ps : List Power} (S : Settings)

theorem within_lockedTarget (userId : UserId) : Within ps (lockedTarget userId) := by
  unfold lockedTarget
  refine within_bind (within_query (List.nil_subset _)) fun _ => ?_
  refine within_bind (within_query (List.nil_subset _)) fun target => ?_
  cases target with
  | none => exact within_fail _
  | some _ => exact within_ret _

theorem within_existingTarget (userId : UserId) : Within ps (existingTarget userId) := by
  unfold existingTarget
  refine within_bind (within_query (List.nil_subset _)) fun target => ?_
  cases target with
  | none => exact within_fail _
  | some _ => exact within_ret _

theorem within_assertActiveAdminsRemain : Within ps assertActiveAdminsRemain := by
  unfold assertActiveAdminsRemain
  refine within_bind (within_query (List.nil_subset _)) fun _ => ?_
  exact within_guard (within_ret _)

/-- `updateStatus` changes a standing, and revokes where it bans. -/
theorem within_updateStatus (userId : UserId) (status : UserStatus)
    (hstanding : Power.standing ∈ ps) (htransact : Power.transact ∈ ps)
    (hrevoke : Power.revoke ∈ ps) : Within ps (updateStatus userId status) := by
  unfold updateStatus
  refine within_transaction htransact ?_
  refine within_bind (within_lockedTarget userId) fun target => ?_
  have hrest : Within ps ((query (.updateUser userId (fun _ => true) { status := some status })).bind
      fun updated => if status = .banned
        then (deleteTokensWhere fun r => r.userId == userId).bind fun _ =>
          toPublicUserOrThrow updated
        else toPublicUserOrThrow updated) := by
    refine within_bind (within_query (by simpa [Stmt.powers, UserPatch.powers] using hstanding))
      fun updated => ?_
    exact within_ite (within_bind (within_deleteTokensWhere hrevoke)
      fun _ => within_toPublicUserOrThrow _) (within_toPublicUserOrThrow _)
  exact within_guard (within_ite (within_bind within_assertActiveAdminsRemain fun _ => hrest) hrest)

/-- `updateRole` changes a standing, and the grants with it. -/
theorem within_updateRole (userId : UserId) (role : Role) (hstanding : Power.standing ∈ ps)
    (htransact : Power.transact ∈ ps) (hgrant : Power.grant ∈ ps) :
    Within ps (updateRole userId role) := by
  unfold updateRole
  refine within_transaction htransact ?_
  refine within_bind (within_lockedTarget userId) fun target => ?_
  have hrest : Within ps ((query (.updateUser userId (fun _ => true) { role := some role })).bind
      fun updated => (deletePermissionsWhere fun r => r.userId == userId).bind fun _ =>
        toPublicUserOrThrow updated) := by
    refine within_bind (within_query (by simpa [Stmt.powers, UserPatch.powers] using hstanding))
      fun updated => ?_
    exact within_bind (within_deletePermissionsWhere hgrant)
      fun _ => within_toPublicUserOrThrow _
  exact within_guard (within_ite (within_bind within_assertActiveAdminsRemain fun _ => hrest) hrest)

/-- `grantModPermission` changes grants in a transaction. -/
theorem within_grantModPermission (userId : UserId) (permission : ModPermission)
    (rawServerId : Option ServerIdText) (hgrant : Power.grant ∈ ps)
    (htransact : Power.transact ∈ ps) :
    Within ps (grantModPermission userId permission rawServerId) := by
  unfold grantModPermission grantedServer
  refine within_transaction htransact ?_
  refine within_bind (within_lockedTarget userId) fun target => ?_
  refine within_guard ?_
  refine within_bind ?_ fun serverId => ?_
  · cases rawServerId with
    | none => exact within_ret _
    | some text =>
        cases text with
        | blank => exact within_fail _
        | trimmed id =>
            refine within_bind (within_query (List.nil_subset _)) fun found => ?_
            exact within_guard (within_ret _)
  · refine within_bind (within_query (by simpa [Stmt.powers] using hgrant)) fun inserted => ?_
    cases inserted with
    | some _ => exact within_ret _
    | none => exact within_bind (within_query (List.nil_subset _)) fun _ => within_fail _

/-- `revokeModPermission` changes grants. -/
theorem within_revokeModPermission (userId : UserId) (permId : PermissionId)
    (h : Power.grant ∈ ps) : Within ps (revokeModPermission userId permId) := by
  unfold revokeModPermission
  refine within_bind (within_existingTarget userId) fun _ => ?_
  refine within_bind (within_deletePermissionsWhere h) fun result => ?_
  exact within_guard (within_ret _)

/-- `resetPassword` changes a credential and revokes in a transaction. -/
theorem within_resetPassword (userId : UserId) (hcredential : Power.credential ∈ ps)
    (htransact : Power.transact ∈ ps) (hrevoke : Power.revoke ∈ ps) :
    Within ps (resetPassword S userId) := by
  unfold resetPassword
  refine within_bind (within_existingTarget userId) fun _ => ?_
  refine within_bind (within_perform (List.nil_subset _)) fun tempPassword => ?_
  refine within_bind (within_bcryptHash S tempPassword) fun _ => ?_
  refine within_bind (within_perform (List.nil_subset _)) fun now => ?_
  refine within_bind (within_transaction htransact ?_) fun _ => within_ret _
  exact within_bind (within_query (by simpa [Stmt.powers, UserPatch.powers] using hcredential))
    fun _ => within_deleteTokensWhere hrevoke

/-- `removeTwoFactor` writes the second factor. -/
theorem within_removeTwoFactor (userId : UserId) (h : Power.secondFactor ∈ ps) :
    Within ps (removeTwoFactor userId) := by
  unfold removeTwoFactor
  refine within_bind (within_existingTarget userId) fun target => ?_
  refine within_guard ?_
  exact within_bind (within_query (by simpa [Stmt.powers, UserPatch.powers] using h))
    fun _ => within_toPublicUserOrThrow _

/-- `initAdminRegister` creates the account and completes the setup. -/
theorem within_initAdminRegister (email username password : String) (setupToken : Option String)
    (htransact : Power.transact ∈ ps) (hsetup : Power.setup ∈ ps)
    (hcomplete : Power.complete ∈ ps) (haccount : Power.account ∈ ps) :
    Within ps (initAdminRegister S email username password setupToken) := by
  unfold initAdminRegister expectedSetupToken createFirstAdmin
  refine within_bind ?_ fun expectedToken => within_guard ?_
  · split
    next => exact within_ret _
    next => exact within_perform (by simpa [Act.powers] using hsetup)
  refine within_bind (within_assertPasswordWithinByteLimit _) fun _ => ?_
  refine within_bind (within_bcryptHash S password) fun _ => ?_
  refine within_transaction htransact ?_
  refine within_bind (within_query (List.nil_subset _)) fun _ => ?_
  refine within_bind (within_query (by simpa [Stmt.powers] using hsetup)) fun _ => ?_
  refine within_bind (within_query (List.nil_subset _)) fun state => ?_
  cases state with
  | none => exact within_fail _
  | some initialAdminCreated =>
      refine within_guard ?_
      refine within_bind (within_query (by simpa [Stmt.powers] using haccount)) fun _ => ?_
      exact within_query (by simpa [Stmt.powers] using hcomplete)

/-- `getSetupState` may create the row of the flag. -/
theorem within_getSetupState (h : Power.setup ∈ ps) : Within ps getSetupState := by
  unfold getSetupState
  refine within_bind (within_query (by simpa [Stmt.powers] using h)) fun _ => ?_
  refine within_bind (within_query (List.nil_subset _)) fun state => ?_
  cases state with
  | none => exact within_fail _
  | some _ => exact within_ret _

/-- `onModuleInit` of the setup may create the row of the flag. -/
theorem within_onModuleInit (htransact : Power.transact ∈ ps) (hsetup : Power.setup ∈ ps) :
    Within ps (onModuleInit S) := by
  unfold onModuleInit
  refine within_ite (within_ret _) (within_transaction htransact ?_)
  refine within_bind (within_query (List.nil_subset _)) fun _ => ?_
  refine within_bind (within_query (List.nil_subset _)) fun state => ?_
  exact within_ite (within_ret _) (within_perform (by simpa [Act.powers] using hsetup))

/-- `JwtAuthGuard` needs no power. -/
theorem within_jwtAuthGuard (route : Route) (cookie : Option RawToken) :
    Within ps (jwtAuthGuard route cookie) := by
  unfold jwtAuthGuard
  refine within_ite (within_ret _) ?_
  have hguarded : ∀ token, Within ps (guardedUser route token) := by
    intro token
    unfold guardedUser verifyAccessToken
    refine within_bind (within_bind (within_perform (List.nil_subset _)) fun now => ?_)
      fun principal => ?_
    · split
      next => exact within_fail _
      next payload _ =>
        refine within_bind (within_tryCatch (within_query (List.nil_subset _))
          fun _ => within_fail _) fun user => ?_
        cases user with
        | none => exact within_fail _
        | some user =>
            dsimp only
            split
            next => exact within_fail _
            next => exact within_fail _
            next => exact within_ret _
    · split
      next => exact within_fail _
      next => exact within_ret _
  cases cookie with
  | none => exact within_fail _
  | some token =>
      have htoken : Within ps (MonadExcept.tryCatch (some <$> guardedUser route token)
          fun error => if isForbidden error then throw error
            else (throw (.unauthorized none) : Call (Option GuardedUser))) :=
        within_tryCatch (within_bind (hguarded token) fun _ => within_ret _)
          fun _ => within_ite (within_fail _) (within_fail _)
      cases token with
      | empty => exact within_fail _
      | _ => exact htoken

end Admin

/-! ## §6. Every operation. -/

/-- **An operation acts only within its powers.** -/
theorem body_within (S : Settings) (op : Op) : Within op.powers (body S op) := by
  have hmap : ∀ {α : Type} {ps : List Power} {p : Call α} (f : α → Reply), Within ps p →
      Within ps (f <$> p) := fun f hp => within_bind hp fun _ => within_ret _
  cases op with
  | register email username password =>
      show Within [.account] _
      exact hmap _ (within_registerUser S email username password (by decide))
  | login identifier password context =>
      show Within [.credential, .issue, .preAuth] _
      exact hmap _ (within_loginUser S identifier password context (by decide) (by decide)
        (by decide))
  | verify2FA bearer token =>
      show Within [.secondFactor, .credential, .issue, .lockCheck, .lockout] _
      exact hmap _ (within_verify2FA S bearer token (by decide) (by decide) (by decide)
        (by decide) (by decide))
  | createChallenge provider =>
      show Within [.challenge] _
      exact hmap _ (within_createChallenge S provider (by decide))
  | googleLogin credential =>
      show Within [.challenge, .account, .issue] _
      exact hmap _ (within_googleLogin S credential (by decide) (by decide) (by decide))
  | googleLink userId credential =>
      show Within [.challenge, .link, .transact] _
      exact hmap _ (within_googleLink S userId credential (by decide) (by decide) (by decide))
  | refresh cookie =>
      show Within [.transact, .issue, .revoke] _
      exact hmap _ (within_refresh S cookie (by decide) (by decide) (by decide))
  | logout userId cookie =>
      show Within [.revoke] _
      exact hmap _ (within_logoutUser S userId cookie (by decide))
  | logoutAll userId =>
      show Within [.revoke] _
      exact hmap _ (within_deleteTokensWhere (by decide))
  | deleteSession userId tokenId =>
      show Within [.revoke] _
      exact hmap _ (within_deleteTokensWhere (by decide))
  | editProfile userId username =>
      show Within [.name] _
      exact hmap _ (within_updateProfile userId username (by decide))
  | updatePassword userId oldPassword newPassword cookie temporaryAuth =>
      show Within [.credential, .transact, .revoke, .issue] _
      exact hmap _ (within_updateUserPassword S userId oldPassword newPassword cookie temporaryAuth
        (by decide) (by decide) (by decide) (by decide))
  | setup2FA userId =>
      show Within [.secondFactor] _
      exact hmap _ (within_setup2FA S userId (by decide))
  | confirm2FA userId token =>
      show Within [.secondFactor] _
      exact hmap _ (within_confirm2FA S userId token (by decide))
  | disable2FA userId token =>
      show Within [.secondFactor] _
      exact hmap _ (within_disable2FA S userId token (by decide))
  | updateStatus userId status =>
      show Within [.standing, .transact, .revoke] _
      exact hmap _ (within_updateStatus userId status (by decide) (by decide) (by decide))
  | updateRole userId role =>
      show Within [.standing, .transact, .grant] _
      exact hmap _ (within_updateRole userId role (by decide) (by decide) (by decide))
  | grantModPermission userId permission serverId =>
      show Within [.grant, .transact] _
      exact hmap _ (within_grantModPermission userId permission serverId (by decide) (by decide))
  | revokeModPermission userId permId =>
      show Within [.grant] _
      exact hmap _ (within_revokeModPermission userId permId (by decide))
  | resetPassword userId =>
      show Within [.credential, .transact, .revoke] _
      exact hmap _ (within_resetPassword S userId (by decide) (by decide) (by decide))
  | removeTwoFactor userId =>
      show Within [.secondFactor] _
      exact hmap _ (within_removeTwoFactor userId (by decide))
  | initAdminRegister email username password setupToken =>
      show Within [.transact, .setup, .complete, .account] _
      exact hmap _ (within_initAdminRegister S email username password setupToken (by decide)
        (by decide) (by decide) (by decide))
  | getSetupState =>
      show Within [.setup] _
      exact hmap _ (within_getSetupState (by decide))
  | onModuleInit =>
      show Within [.transact, .setup] _
      exact hmap _ (within_onModuleInit S (by decide) (by decide))
  | authenticate route cookie =>
      show Within [] _
      exact hmap _ (within_jwtAuthGuard route cookie)

end MinePanel.Accounts
