/-
  MinePanel.Auth.Service
  ──────────────────────
  **SESSIONS** (`src/auth/auth.service.ts`).

  Login with and without a second factor, rotation, logout, and the two-factor
  enrolment.  A session is a signed refresh token and a row that holds the
  digest of its `jti`.  Rotation runs in one transaction that locks the user's
  row; every login path reads the user first and inserts the row later, each in
  a statement of its own.
-/
import MinePanel.Users.Service

namespace MinePanel.Accounts

open MinePanel.Db MinePanel.Lib

/-! ## §1. Issuing sessions. -/

/-- `AuthTokens`. -/
structure AuthTokens where
  user : PublicUser
  accessToken : Jwt
  refreshToken : Jwt
  deriving Repr, DecidableEq

/-- `LoginResponse`: a session, or a two-factor challenge. -/
inductive LoginResponse where
  | session (tokens : AuthTokens)
  | requiresTwoFactor (preAuthToken : Jwt)
  deriving Repr, DecidableEq

/-- `refreshTokenUnauthorized`. -/
def refreshTokenUnauthorized (code : String) : Exn := .unauthorized (some code)

/-- `RefreshTokenSigningClaims`. -/
structure RefreshTokenSigningClaims where
  sub : UserId
  jti : String
  temporaryAuth : Bool
  deriving Repr, DecidableEq

/-- `IssuedRefreshToken`. -/
structure IssuedRefreshToken where
  refreshToken : Jwt
  row : NewRefreshToken
  deriving Repr, DecidableEq

/-- `buildIssuedRefreshToken`. -/
def buildIssuedRefreshToken (S : Settings) (userId : UserId)
    (refreshClaims : RefreshTokenSigningClaims) : Call IssuedRefreshToken := do
  let refreshToken ← Prog.perform (.sign
    (.refresh refreshClaims.sub refreshClaims.jti refreshClaims.temporaryAuth) S.refreshTtl)
  let now ← Prog.perform .now
  return { refreshToken := refreshToken
           row := { tokenIdHash := S.sha256 refreshClaims.jti
                    userId := userId
                    expiresAt := now + S.refreshTtl } }

/-- `issueSession`. -/
def issueSession (S : Settings) (user : User) (temporaryAuth : Bool) : Call AuthTokens := do
  let jti ← Prog.perform .createRefreshTokenId
  let accessToken ← Prog.perform (.sign
    (.access user.id user.username user.role temporaryAuth) S.accessTtl)
  let issued ← buildIssuedRefreshToken S user.id ⟨user.id, jti, temporaryAuth⟩
  query (.insertToken issued.row)
  return { user := toPublicUser user
           accessToken := accessToken
           refreshToken := issued.refreshToken }

/-- What `assertLoginAllowed` throws, if it does. -/
def loginRefusal (user : User) : Option Exn :=
  match user.status with
  | .pending => some (.forbidden "AccountPending")
  | .banned => some (.forbidden "AccountBanned")
  | .active => none

/-- `assertLoginAllowed`. -/
def assertLoginAllowed (user : User) : Call Unit :=
  match loginRefusal user with
  | some e => throw e
  | none => return ()

/-- `consumeTempPassword`. -/
def consumeTempPassword (user : User) : Call Unit := do
  match truthy user.tempPasswordHash, user.tempPasswordExpiresAt with
  | some tempPasswordHash, some _ =>
    let now ← Prog.perform .now
    let consumed ← query (.updateUser user.id
      (fun u => u.mustChangePassword && u.tempPasswordHash == some tempPasswordHash
        && u.tempPasswordExpiresAt.any fun t => decide (now < t))
      { tempPasswordExpiresAt := some none })
    match consumed with
    | some _ => return ()
    | none => throw (.unauthorized (some "Wrong credentials"))
  | _, _ => throw (.unauthorized (some "Wrong credentials"))

/-! ## §2. Login. -/

/-- `DUMMY_PASSWORD_HASH`. -/
def dummyPasswordHash : String := "$2b$10$ImDussfxY6I73mT10z0lU.DyrhBuXdRh7CBiLNf0nJM3yNj1asche"

/-- The lifetime of a pre-auth token. -/
def preAuthTtl : Nat := 5 * 60 * 1000

/-- `registerUser`. -/
def registerUser (S : Settings) (email username password : String) : Call Unit := do
  let userExists ← findByIdentifier (if username ≠ "" then username else email)
  if userExists.isSome then
    throw (.conflict "User already exists")
  assertPasswordWithinByteLimit password
  let passwordHash ← bcryptHash S password
  createUser { email := email, username := username, passwordHash := some passwordHash
               status := if S.requireAdminApproval then .pending else .active }

/-- `recordLoginFailure`. -/
def recordLoginFailure (context : Option LoginAttemptContext) : Call Unit :=
  match context with
  | some context => Prog.perform (.recordFailure context)
  | none => return ()

/-- `recordLoginSuccess`. -/
def recordLoginSuccess (context : Option LoginAttemptContext) : Call Unit :=
  match context with
  | some context => Prog.perform (.recordSuccess context)
  | none => return ()

/-- The throttle in front of a login. -/
def assertAttemptAllowed (context : Option LoginAttemptContext) : Call Unit :=
  match context with
  | some context => do
      let allowed ← Prog.perform (.assertAllowed context)
      if allowed then return () else throw (.tooManyRequests "LoginRateLimited")
  | none => return ()

/-- A login that is refused: `recordLoginFailure`, then 401. -/
def wrongCredentials (context : Option LoginAttemptContext) : Call LoginResponse := do
  recordLoginFailure context
  throw (.unauthorized (some "Wrong credentials"))

/-- The two-factor challenge of a login. -/
def challenge (user : User) (fingerprint : Option String)
    (context : Option LoginAttemptContext) : Call LoginResponse := do
  let preAuthToken ← Prog.perform (.sign (.preAuth user.id fingerprint) preAuthTtl)
  recordLoginSuccess context
  return .requiresTwoFactor preAuthToken

/-- A login while forced recovery is active: only the temporary credential. -/
def loginForced (S : Settings) (user : User) (tempMatches : Bool)
    (context : Option LoginAttemptContext) : Call LoginResponse := do
  if !tempMatches then wrongCredentials context
  else if user.totpEnabled then
    challenge user (some (S.sha256 (user.tempPasswordHash.getD ""))) context
  else
    consumeTempPassword user
    let session ← issueSession S user true
    recordLoginSuccess context
    return .session session

/-- An ordinary login. -/
def loginOrdinary (S : Settings) (user : User) (primaryMatches : Bool)
    (context : Option LoginAttemptContext) : Call LoginResponse := do
  if !primaryMatches then wrongCredentials context
  else if user.totpEnabled then challenge user none context
  else
    let session ← issueSession S user false
    recordLoginSuccess context
    return .session session

/-- The hash the temporary credential is compared with. -/
def tempHashAt (user : Option User) (now : Timestamp) : String :=
  (user.bind fun u =>
    (truthy u.tempPasswordHash).filter fun _ =>
      u.tempPasswordExpiresAt.any fun t => decide (now < t)).getD dummyPasswordHash

/-- `loginUser`. -/
def loginUser (S : Settings) (identifier password : String)
    (context : Option LoginAttemptContext) : Call LoginResponse := do
  assertAttemptAllowed context
  let user ← findByIdentifier identifier
  let primaryMatches := S.compare password ((user.bind User.passwordHash).getD dummyPasswordHash)
  let now ← Prog.perform .now
  let tempMatches := S.compare password (tempHashAt user now)
  match user.filter fun _ => isPasswordWithinByteLimit password with
  | none => wrongCredentials context
  | some user =>
    assertLoginAllowed user
    if user.mustChangePassword then loginForced S user tempMatches context
    else loginOrdinary S user primaryMatches context

/-- `issueProviderSession`. -/
def issueProviderSession (S : Settings) (user : User) : Call AuthTokens := do
  assertLoginAllowed user
  if user.mustChangePassword then
    throw (.forbidden "PasswordRecoveryRequired")
  if user.totpEnabled then
    throw (.forbidden "TwoFactorAuthenticationRequired")
  issueSession S user false

/-! ## §3. The second factor. -/

/-- `/^\d{6}$/u`. -/
def isSixDigits (token : String) : Bool :=
  token.toList.length == 6 && token.toList.all Char.isDigit

/-- `isValidTotp`. -/
def isValidTotp (S : Settings) (user : User) (token : String) : Call Bool := do
  let now ← Prog.perform .now
  return isSixDigits token && S.verifySync (S.decrypt (user.totpSecret.getD "")) token now

/-- `verifyAndConsumeBackupCode`. -/
def verifyAndConsumeBackupCode (S : Settings) (user : User) (token : String) : Call Bool := do
  match user.totpBackupCodes with
  | none => return false
  | some codes =>
    match codes.find? (S.compare token) with
    | none => return false
    | some hashedCode =>
      let remainingCodes := codes.filter fun code => code != hashedCode
      let consumed ← query (.updateUser user.id (fun u => u.totpBackupCodes == some codes)
        { totpBackupCodes := some (some remainingCodes) })
      return consumed.isSome

/-- A TOTP code, or else a backup code. -/
def verifySecondFactor (S : Settings) (user : User) (token : String) : Call Bool := do
  let valid ← isValidTotp S user token
  if valid then return true else verifyAndConsumeBackupCode S user token

/-- Whether the temporary credential is still the one matched at login. -/
def fingerprintHolds (S : Settings) (user : User) (fingerprint : String) (now : Timestamp) : Bool :=
  (truthy user.tempPasswordHash).any (fun h => S.sha256 h == fingerprint)
    && user.tempPasswordExpiresAt.any fun t => decide (now < t)

/-- `completeTwoFactorLogin`; a temporary flow carries its fingerprint. -/
def completeTwoFactorLogin (S : Settings) (userId : UserId) (token : String)
    (temporaryCredentialFingerprint : Option String) : Call AuthTokens := do
  match (← findById userId).filter fun u => u.totpEnabled && (truthy u.totpSecret).isSome with
  | none => throw (.unauthorized none)
  | some user =>
    assertLoginAllowed user
    let locked ← Prog.perform (.assertTwoFactorNotLocked user.id)
    if locked then
      throw (.tooManyRequests "Two-factor authentication is temporarily locked")
    let temporaryAuth := temporaryCredentialFingerprint.isSome
    if user.mustChangePassword ≠ temporaryAuth then
      throw (.unauthorized none)
    let now ← Prog.perform .now
    if temporaryCredentialFingerprint.any fun f => !fingerprintHolds S user f now then
      throw (.unauthorized none)
    let verified ← verifySecondFactor S user token
    if !verified then
      Prog.perform (.recordTwoFactorFailure user.id)
      throw (.unauthorized (some "Invalid two-factor code"))
    Prog.perform (.clearTwoFactorFailures user.id)
    if temporaryAuth then consumeTempPassword user
    issueSession S user temporaryAuth

/-- `verify2FA`, behind the pre-auth guard. -/
def verify2FA (S : Settings) (bearer : RawToken) (token : String) : Call AuthTokens := do
  let now ← Prog.perform .now
  match verifyAsync bearer now with
  | .valid ⟨.preAuth sub fingerprint, _⟩ => completeTwoFactorLogin S sub token fingerprint
  | _ => throw (.unauthorized none)

/-- `setup2FA`: the secret. -/
def setup2FA (S : Settings) (userId : UserId) : Call String := do
  match ← findById userId with
  | none => throw (.unauthorized none)
  | some user =>
    if user.totpEnabled then
      throw (.badRequest "Two-factor authentication is already enabled")
    let secret ← Prog.perform .random
    let nonce ← Prog.perform .random
    let _ ← query (.updateUser userId (fun _ => true)
      { totpSecret := some (some (S.encrypt secret nonce)) })
    return secret

/-- `n` backup codes. -/
def generateBackupCodes : Nat → Call (List String)
  | 0 => return []
  | n + 1 => do
      let code ← Prog.perform .random
      let codes ← generateBackupCodes n
      return code :: codes

/-- The hashes of a list of codes. -/
def hashCodes (S : Settings) : List String → Call (List String)
  | [] => return []
  | code :: codes => do
      let hashed ← bcryptHash S code
      let rest ← hashCodes S codes
      return hashed :: rest

/-- `confirm2FA`: the backup codes. -/
def confirm2FA (S : Settings) (userId : UserId) (token : String) : Call (List String) := do
  match ← findById userId with
  | none => throw (.unauthorized none)
  | some user =>
    if user.totpEnabled then
      throw (.badRequest "Two-factor authentication is already enabled")
    if (truthy user.totpSecret).isNone then
      throw (.badRequest "Bad Request")
    let valid ← isValidTotp S user token
    if !valid then
      throw (.badRequest "Bad Request")
    let backupCodes ← generateBackupCodes 8
    let hashedCodes ← hashCodes S backupCodes
    let _ ← query (.updateUser userId (fun _ => true)
      { totpBackupCodes := some (some hashedCodes), totpEnabled := some true })
    return backupCodes

/-- `disable2FA`. -/
def disable2FA (S : Settings) (userId : UserId) (token : String) : Call Unit := do
  match (← findById userId).filter fun u => u.totpEnabled && (truthy u.totpSecret).isSome with
  | none => throw (.badRequest "Bad Request")
  | some user =>
    let verified ← verifySecondFactor S user token
    if !verified then
      throw (.badRequest "Bad Request")
    let _ ← query (.updateUser userId (fun _ => true)
      { totpEnabled := some false, totpSecret := some none, totpBackupCodes := some none })
    return ()

/-! ## §4. Rotation and logout. -/

/-- `requireRefreshToken`. -/
def requireRefreshToken (cookie : Option RawToken) : Call RawToken :=
  match cookie with
  | none => throw (refreshTokenUnauthorized "RefreshTokenMissing")
  | some .empty => throw (refreshTokenUnauthorized "RefreshTokenMalformed")
  | some raw => return raw

/-- `readRefreshTokenId`: the `jti`, without a look at the signature. -/
def readRefreshTokenId (raw : RawToken) : Call String :=
  match raw with
  | .signed jwt | .forged jwt =>
      match validRefreshTokenClaims jwt with
      | some claims => return claims.jti
      | none => throw (refreshTokenUnauthorized "RefreshTokenInvalid")
  | _ => throw (refreshTokenUnauthorized "RefreshTokenMalformed")

/-- What a rotation hands out. -/
structure RotatedTokens where
  accessToken : Jwt
  refreshToken : Jwt
  deriving Repr, DecidableEq

/-- The claims of a verified refresh token. -/
def refreshClaims (raw : RawToken) (now : Timestamp) : Except Exn RefreshTokenClaims :=
  match verifyAsync raw now with
  | .expired => .error (refreshTokenUnauthorized "RefreshTokenExpired")
  | .invalid => .error (refreshTokenUnauthorized "RefreshTokenInvalid")
  | .valid jwt =>
      match validRefreshTokenClaims jwt with
      | some claims => .ok claims
      | none =>
          if jwt.payload.isWrongPurpose then .error (refreshTokenUnauthorized "TokenWrongPurpose")
          else .error (refreshTokenUnauthorized "RefreshTokenMalformed")

/-- The second half of a rotation: the locked `user` loses the row `stored` and
gets a new one. -/
def rotateLocked (S : Settings) (decoded : RefreshTokenClaims) (stored : RefreshToken)
    (user : User) : Call RotatedTokens := do
  if user.mustChangePassword ≠ decoded.temporaryAuth then
    throw (refreshTokenUnauthorized "RefreshTokenInvalid")
  assertLoginAllowed user
  let jti ← Prog.perform .createRefreshTokenId
  let accessToken ← Prog.perform (.sign
    (.access user.id user.username user.role decoded.temporaryAuth) S.accessTtl)
  let consumed ← query (.deleteTokens [stored.id])
  if consumed.isEmpty then
    throw (refreshTokenUnauthorized "RefreshTokenInvalid")
  let issued ← buildIssuedRefreshToken S user.id ⟨user.id, jti, decoded.temporaryAuth⟩
  query (.insertToken issued.row)
  -- lazy sweep of the user's expired rows
  let now ← Prog.perform .now
  deleteTokensWhere fun r => r.userId == decoded.sub && decide (r.expiresAt ≤ now)
  return { accessToken := accessToken, refreshToken := issued.refreshToken }

/-- The callback of the rotation transaction. -/
def rotate (S : Settings) (decoded : RefreshTokenClaims) : Call RotatedTokens := do
  let stored ← query (.selectToken (S.sha256 decoded.jti))
  let now ← Prog.perform .now
  match stored.filter fun r => decide (now < r.expiresAt) with
  | none => throw (refreshTokenUnauthorized "RefreshTokenExpired")
  | some stored =>
    match ← query (.selectUserForUpdate decoded.sub) with
    | none => throw (refreshTokenUnauthorized "RefreshTokenInvalid")
    | some user => rotateLocked S decoded stored user

/-- `refreshTokens`. -/
def refreshTokens (S : Settings) (raw : RawToken) : Call RotatedTokens := do
  let now ← Prog.perform .now
  match refreshClaims raw now with
  | .error e => throw e
  | .ok decoded => transaction (rotate S decoded)

/-- `refresh`, with its cookie. -/
def refresh (S : Settings) (cookie : Option RawToken) : Call RotatedTokens := do
  let raw ← requireRefreshToken cookie
  refreshTokens S raw

/-- `logoutUser`, with its cookie. -/
def logoutUser (S : Settings) (userId : UserId) (cookie : Option RawToken) : Call Unit := do
  let raw ← requireRefreshToken cookie
  let tokenId ← readRefreshTokenId raw
  deleteTokensWhere fun r => r.userId == userId && r.tokenIdHash == S.sha256 tokenId

/-- `logoutAll`. -/
def logoutAll (userId : UserId) : Call Unit := deleteTokensWhere fun r => r.userId == userId

/-- `deleteSingleSession`. -/
def deleteSingleSession (userId : UserId) (tokenId : TokenId) : Call Unit :=
  deleteTokensWhere fun r => r.userId == userId && r.id == tokenId

/-- `PasswordUpdateResult`. -/
structure PasswordUpdateResult where
  user : PublicUser
  session : Option AuthTokens
  deriving Repr, DecidableEq

/-- `updateUserPassword`, with its cookie. -/
def updateUserPassword (S : Settings) (userId : UserId) (oldPassword newPassword : String)
    (cookie : Option RawToken) (temporaryAuth : Bool) : Call PasswordUpdateResult := do
  let raw ← requireRefreshToken cookie
  let refreshTokenId ← readRefreshTokenId raw
  let user ← updatePassword S userId oldPassword newPassword
    (if temporaryAuth then none else some refreshTokenId) temporaryAuth
  if !temporaryAuth then return { user := user, session := none }
  else
    match ← findById userId with
    | none => throw (.unauthorized none)
    | some updatedUser =>
      let session ← issueSession S updatedUser false
      return { user := session.user, session := some session }

end MinePanel.Accounts
