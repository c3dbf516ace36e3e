/-
  MinePanel.Accounts.Action
  ─────────────────────────
  **TOKENS, AND THE ATOMIC STEPS OF AN ACCOUNT CALL.**

  A signed token is its claims with an expiry.  What a client presents is a
  text: nothing, garbage, or a token with a signature that is ours or not; only
  `verifyAsync` looks at the signature.

  `transaction` is drizzle's: BEGIN, the callback, COMMIT, and a ROLLBACK where
  the callback throws.
-/
import MinePanel.Accounts.Database
import MinePanel.Auth.LoginAbuse

namespace MinePanel.Accounts

open MinePanel.Db MinePanel.Lib

/-! ## §1. Tokens. -/

/-- `AccessTokenClaims`, `RefreshTokenSigningClaims` and the pre-auth claims. -/
inductive Payload where
  | access (sub : UserId) (username : String) (role : Role) (temporaryAuth : Bool)
  | refresh (sub : UserId) (jti : String) (temporaryAuth : Bool)
  /-- A temporary flow carries the fingerprint of the matched credential. -/
  | preAuth (sub : UserId) (temporaryCredentialFingerprint : Option String)
  /-- Claims of no known shape; `typed` where they have a `type` other than ours. -/
  | other (typed : Bool)
  deriving Repr, DecidableEq

/-- Claims with their expiry, in seconds. -/
structure Jwt where
  payload : Payload
  exp : Nat
  deriving Repr, DecidableEq

/-- The text a client presents as a token. -/
inductive RawToken where
  | empty
  /-- No payload segment, or none that parses. -/
  | garbage
  /-- Readable claims without our signature. -/
  | forged (jwt : Jwt)
  | signed (jwt : Jwt)
  deriving Repr, DecidableEq

/-- `jwtService.verifyAsync` at the time `now`. -/
inductive Verified where
  | valid (jwt : Jwt)
  | expired
  | invalid
  deriving Repr, DecidableEq

/-- `jwtService.verifyAsync`: the signature, then the expiry in whole seconds. -/
def verifyAsync (raw : RawToken) (now : Timestamp) : Verified :=
  match raw with
  | .signed jwt => if jwt.exp ≤ now / 1000 then .expired else .valid jwt
  | _ => .invalid

/-- `MAX_EXP_SECONDS`. -/
def maxExpSeconds : Nat := JsNumber.maxSafeInteger / 1000

/-- `RefreshTokenClaims`. -/
structure RefreshTokenClaims where
  sub : UserId
  jti : String
  temporaryAuth : Bool
  deriving Repr, DecidableEq

/-- `isValidRefreshTokenClaims`, with the claims it lets through. -/
def validRefreshTokenClaims (jwt : Jwt) : Option RefreshTokenClaims :=
  match jwt.payload with
  | .refresh sub jti temporaryAuth =>
      if jti ≠ "" ∧ 0 < jwt.exp ∧ jwt.exp ≤ maxExpSeconds then some ⟨sub, jti, temporaryAuth⟩
      else none
  | _ => none

/-- `isRefreshTypedPayload(payload) && payload.type !== 'refresh'`. -/
def Payload.isWrongPurpose : Payload → Bool
  | .access _ _ _ _ => true
  | .refresh _ _ _ => false
  | .preAuth _ _ => true
  | .other typed => typed

/-! ## §2. Settings. -/

/-- The configuration, and the functions of other packages. -/
structure Settings extends Text where
  /-- `refreshTokenTtl.milliseconds`. -/
  refreshTtl : Nat
  /-- The lifetime of an access token. -/
  accessTtl : Nat
  /-- `REQUIRE_ADMIN_APPROVAL`. -/
  requireAdminApproval : Bool
  /-- `SETUP_TOKEN`. -/
  setupToken : Option String
  /-- `GOOGLE_CLIENT_ID`. -/
  googleClientId : Option String
  /-- `bcrypt.compare`. -/
  compare : String → String → Bool
  /-- `bcrypt.hash`, with the salt it draws. -/
  hash : String → String → String
  /-- `encrypt`, with the nonce it draws. -/
  encrypt : String → String → String
  /-- `decrypt`. -/
  decrypt : String → String
  /-- `verifySync` of a secret and a six-digit code at a time. -/
  verifySync : String → String → Timestamp → Bool

/-! ## §3. Actions. -/

/-- One atomic step, with what it returns. -/
inductive Act : Type → Type 1 where
  /-- One statement; one that fails answers with what it throws. -/
  | query {α : Type} (s : Stmt α) : Act (Except Exn α)
  | begin : Act (Except Exn Unit)
  | commit : Act (Except Exn Unit)
  | rollback : Act Unit
  /-- `Date.now()`. -/
  | now : Act Timestamp
  /-- `crypto.randomBytes`, a salt, a nonce or a TOTP secret. -/
  | random : Act String
  /-- `crypto.randomInt(min, max)`. -/
  | randomInt (min max : Nat) : Act Nat
  /-- `createRefreshTokenId`. -/
  | createRefreshTokenId : Act String
  /-- `jwtService.signAsync` with a lifetime in milliseconds. -/
  | sign (payload : Payload) (ttl : Nat) : Act Jwt
  /-- Google's `verifyIdToken`; `none` where it throws. -/
  | verifyIdToken (idToken audience : String) : Act (Option GoogleTokenPayload)
  /-- `assertTwoFactorNotLocked`: whether it throws. -/
  | assertTwoFactorNotLocked (userId : UserId) : Act Bool
  | recordTwoFactorFailure (userId : UserId) : Act Unit
  | clearTwoFactorFailures (userId : UserId) : Act Unit
  /-- `loginAbuseService.assertAllowed`: whether it lets the attempt through. -/
  | assertAllowed (context : LoginAttemptContext) : Act Bool
  | recordFailure (context : LoginAttemptContext) : Act Unit
  | recordSuccess (context : LoginAttemptContext) : Act Unit
  /-- `this.bootstrapToken`. -/
  | bootstrapToken : Act (Option String)
  | getOrGenerateBootstrapToken : Act Unit

/-- The calls of the account services. -/
abbrev Call (α : Type) := Prog Act Exn α

/-- A step that may throw. -/
def orThrow {α : Type} (a : Act (Except Exn α)) : Call α := do
  match ← Prog.perform a with
  | .ok r => return r
  | .error e => throw e

/-- A statement: a failure throws. -/
def query {α : Type} (s : Stmt α) : Call α := orThrow (.query s)

/-- The callback of a transaction: where it throws, everything it wrote is
undone. -/
def guarded {α : Type} (body : Call α) : Call α :=
  try body catch error => do
    Prog.perform .rollback
    throw error

/-- `db.transaction(callback)`. -/
def transaction {α : Type} (body : Call α) : Call α := do
  orThrow .begin
  let result ← guarded body
  orThrow .commit
  return result

/-- `DELETE FROM refresh_tokens WHERE …`. -/
def deleteTokensWhere (cond : RefreshToken → Bool) : Call Unit := do
  let ids ← query (.scanTokens cond)
  let _ ← query (.deleteTokens ids)
  return ()

/-- `DELETE FROM mod_permissions WHERE … RETURNING id`. -/
def deletePermissionsWhere (cond : ModPermissionRow → Bool) : Call (List PermissionId) := do
  let ids ← query (.scanPermissions cond)
  query (.deletePermissions ids)

/-- A text that JavaScript takes for true. -/
def truthy (text : Option String) : Option String := text.filter fun t => decide (t ≠ "")

/-! ## §4. Public users. -/

/-- `PublicUser`: a row without its credentials. -/
structure PublicUser where
  id : UserId
  email : String
  username : String
  googleId : Option String
  githubId : Option String
  role : Role
  status : UserStatus
  totpEnabled : Bool
  tempPasswordExpiresAt : Option Timestamp
  mustChangePassword : Bool
  minecraftUUID : Option String
  minecraftName : Option String
  minecraftVerified : Bool
  createdAt : Timestamp
  updatedAt : Timestamp
  deriving Repr, DecidableEq

/-- `toPublicUser`. -/
def toPublicUser (u : User) : PublicUser where
  id := u.id
  email := u.email
  username := u.username
  googleId := u.googleId
  githubId := u.githubId
  role := u.role
  status := u.status
  totpEnabled := u.totpEnabled
  tempPasswordExpiresAt := u.tempPasswordExpiresAt
  mustChangePassword := u.mustChangePassword
  minecraftUUID := u.minecraftUUID
  minecraftName := u.minecraftName
  minecraftVerified := u.minecraftVerified
  createdAt := u.createdAt
  updatedAt := u.updatedAt

/-- `toPublicUser` of the row an UPDATE returned; without one it throws. -/
def toPublicUserOrThrow (row : Option User) : Call PublicUser :=
  match row with
  | some u => return toPublicUser u
  | none => throw (.plain "")

/-! ## §5. Passwords. -/

/-- `MAX_PASSWORD_BYTES`. -/
def maxPasswordBytes : Nat := 72

/-- `isPasswordWithinByteLimit`. -/
def isPasswordWithinByteLimit (data : String) : Bool :=
  decide (data.utf8ByteSize ≤ maxPasswordBytes)

/-- `assertPasswordWithinByteLimit`. -/
def assertPasswordWithinByteLimit (data : String) : Call Unit :=
  if isPasswordWithinByteLimit data then return ()
  else throw (.badRequest "Password must not exceed 72 UTF-8 bytes")

/-- `bcrypt.hash(data, 10)`. -/
def bcryptHash (S : Settings) (data : String) : Call String := do
  let salt ← Prog.perform .random
  return S.hash data salt

end MinePanel.Accounts
