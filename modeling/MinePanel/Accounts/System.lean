/-
  MinePanel.Accounts.System
  ─────────────────────────
  **THE ACCOUNT SERVICES AS ONE SYSTEM.**

  Sign-in, sessions, profile, administration and setup share one database and
  one process: every call of any of them may run between two steps of any
  other.  The process may die between any two steps; PostgreSQL then rolls its
  open transactions back, and its memory (the bootstrap token, the failure
  counters) is gone.
-/
import MinePanel.Auth.Identity
import MinePanel.Auth.Guards
import MinePanel.Admin.Service
import MinePanel.Setup.Service
import Mathlib.Logic.Equiv.Basic

namespace MinePanel.Accounts

open MinePanel.Db MinePanel.Lib

/-! ## §1. The world. -/

/-- The database and the memory of the process. -/
structure World where
  tables : Tables
  clock : Timestamp
  bootstrapToken : Option String
  twoFactorFailures : TwoFactorFailures
  loginAbuse : LoginAbuse

namespace World

/-- The committed tables. -/
def db (w : World) : Db := w.tables.committed

/-- What call `p` sees. -/
def view (w : World) (p : Pid) : Db := w.tables.view Db.apply p

/-- A process that has just started on the tables `d`. -/
def boot (d : Db) (clock : Timestamp) : World where
  tables := Store.quiet d
  clock := clock
  bootstrapToken := none
  twoFactorFailures := Table.empty
  loginAbuse := LoginAbuse.empty

end World

/-! ## §2. Steps. -/

/-- `exec`: one step of call `p`. -/
def exec (S : Settings) (p : Pid) : ∀ {β : Type}, Act β → Env → World → Option (β × World)
  | _, .query s, e, w =>
      -- a failed statement changes nothing; its transaction is rolled back by the caller
      if e.fails then some (.error .statementFailed, w)
      else
        let pl := plan w.clock e (w.view p) s
        (w.tables.run Db.apply p pl.waits pl.takes pl.writes).map fun tables =>
          (pl.answer, { w with tables := tables })
  | _, .begin, e, w =>
      if e.fails then some (.error .statementFailed, w)
      else if (w.tables.pending p).isSome then none
      else some (.ok (), { w with tables := w.tables.begin p })
  | _, .commit, e, w =>
      if e.fails then some (.error .statementFailed, { w with tables := w.tables.rollback p })
      else some (.ok (), { w with tables := w.tables.commit Db.apply p })
  | _, .rollback, _, w => some ((), { w with tables := w.tables.rollback p })
  | _, .now, _, w => some (w.clock, w)
  | _, .random, e, w => some (e.text, w)
  | _, .randomInt min max, e, w =>
      if min ≤ e.number ∧ e.number < max then some (e.number, w) else none
  | _, .createRefreshTokenId, e, w => if e.text ≠ "" then some (e.text, w) else none
  | _, .sign payload ttl, _, w => some (⟨payload, w.clock / 1000 + ttl / 1000⟩, w)
  | _, .verifyIdToken _ _, e, w => some (e.payload, w)
  | _, .assertTwoFactorNotLocked userId, _, w =>
      let r := w.twoFactorFailures.assertNotLocked userId w.clock
      some (r.1, { w with twoFactorFailures := r.2 })
  | _, .recordTwoFactorFailure userId, _, w =>
      some ((), { w with twoFactorFailures := w.twoFactorFailures.recordFailure userId w.clock })
  | _, .clearTwoFactorFailures userId, _, w =>
      some ((), { w with twoFactorFailures := OrderedMap.delete w.twoFactorFailures userId })
  | _, .assertAllowed context, _, w =>
      let r := w.loginAbuse.assertAllowed S.toText context w.clock
      some (r.1, { w with loginAbuse := r.2 })
  | _, .recordFailure context, _, w =>
      some ((), { w with loginAbuse := w.loginAbuse.recordFailure S.toText context w.clock })
  | _, .recordSuccess context, _, w =>
      some ((), { w with loginAbuse := w.loginAbuse.recordSuccess S.toText context })
  | _, .bootstrapToken, _, w => some (w.bootstrapToken, w)
  | _, .getOrGenerateBootstrapToken, e, w =>
      some ((), { w with bootstrapToken := some (w.bootstrapToken.getD e.text) })

/-- A step of the surroundings: the clock never goes back, and a server that a
grant is being given for is not deleted under it. -/
def ambient (e : Env) (w : World) : Option World :=
  match e.ambient with
  | .tick now => if w.clock ≤ now then some { w with clock := now } else none
  | .insertServer id =>
      some { w with tables := { w.tables with committed := w.db.apply (.insertServer id) } }
  | .deleteServer id =>
      if (w.tables.owner (.server id)).isSome then none
      else some { w with tables := { w.tables with committed := w.db.apply (.deleteServer id) } }

/-- The process dies and starts again. -/
def reboot (_ : Env) (w : World) : Option World :=
  some
    { tables := w.tables.crash
      clock := w.clock
      bootstrapToken := none
      twoFactorFailures := Table.empty
      loginAbuse := LoginAbuse.empty }

/-! ## §3. The operations. -/

/-- The routes, and the start-up of the setup module. -/
inductive Op where
  | register (email username password : String)
  | login (identifier password : String) (context : Option LoginAttemptContext)
  | verify2FA (bearer : RawToken) (token : String)
  | createChallenge (provider : OAuthChallengeProvider)
  | googleLogin (credential : String)
  | googleLink (userId : UserId) (credential : String)
  | refresh (cookie : Option RawToken)
  | logout (userId : UserId) (cookie : Option RawToken)
  | logoutAll (userId : UserId)
  | deleteSession (userId : UserId) (tokenId : TokenId)
  | editProfile (userId : UserId) (username : Option String)
  | updatePassword (userId : UserId) (oldPassword newPassword : String) (cookie : Option RawToken)
      (temporaryAuth : Bool)
  | setup2FA (userId : UserId)
  | confirm2FA (userId : UserId) (token : String)
  | disable2FA (userId : UserId) (token : String)
  | updateStatus (userId : UserId) (status : UserStatus)
  | updateRole (userId : UserId) (role : Role)
  | grantModPermission (userId : UserId) (permission : ModPermission)
      (serverId : Option ServerIdText)
  | revokeModPermission (userId : UserId) (permId : PermissionId)
  | resetPassword (userId : UserId)
  | removeTwoFactor (userId : UserId)
  | initAdminRegister (email username password : String) (setupToken : Option String)
  | getSetupState
  | onModuleInit
  /-- The token guard in front of a route. -/
  | authenticate (route : Route) (cookie : Option RawToken)
  deriving Repr, DecidableEq

/-- What a call returns. -/
inductive Reply where
  | done
  | text (value : String)
  | texts (values : List String)
  | user (u : PublicUser)
  | login (r : LoginResponse)
  | session (tokens : AuthTokens)
  | provider (tokens : Option AuthTokens)
  | rotated (tokens : RotatedTokens)
  | password (r : PasswordUpdateResult)
  | permission (row : ModPermissionRow)
  | setup (status : SetupStatus)
  | guarded (user : Option GuardedUser)
  deriving Repr, DecidableEq

/-- A call without a result. -/
def finish {α : Type} (p : Call α) : Call Reply := (fun _ => Reply.done) <$> p

/-- The code of an operation. -/
def body (S : Settings) : Op → Call Reply
  | .register email username password => finish (registerUser S email username password)
  | .login identifier password context => Reply.login <$> loginUser S identifier password context
  | .verify2FA bearer token => Reply.session <$> verify2FA S bearer token
  | .createChallenge provider => Reply.text <$> createChallenge S provider
  | .googleLogin credential => Reply.provider <$> googleLogin S credential
  | .googleLink userId credential => Reply.user <$> googleLink S userId credential
  | .refresh cookie => Reply.rotated <$> refresh S cookie
  | .logout userId cookie => finish (logoutUser S userId cookie)
  | .logoutAll userId => finish (logoutAll userId)
  | .deleteSession userId tokenId => finish (deleteSingleSession userId tokenId)
  | .editProfile userId username => Reply.user <$> updateProfile userId username
  | .updatePassword userId oldPassword newPassword cookie temporaryAuth =>
      Reply.password <$> updateUserPassword S userId oldPassword newPassword cookie temporaryAuth
  | .setup2FA userId => Reply.text <$> setup2FA S userId
  | .confirm2FA userId token => Reply.texts <$> confirm2FA S userId token
  | .disable2FA userId token => finish (disable2FA S userId token)
  | .updateStatus userId status => Reply.user <$> updateStatus userId status
  | .updateRole userId role => Reply.user <$> updateRole userId role
  | .grantModPermission userId permission serverId =>
      Reply.permission <$> grantModPermission userId permission serverId
  | .revokeModPermission userId permId => finish (revokeModPermission userId permId)
  | .resetPassword userId => Reply.text <$> resetPassword S userId
  | .removeTwoFactor userId => Reply.user <$> removeTwoFactor userId
  | .initAdminRegister email username password setupToken =>
      finish (initAdminRegister S email username password setupToken)
  | .getSetupState => Reply.setup <$> getSetupState
  | .onModuleInit => finish (onModuleInit S)
  | .authenticate route cookie => Reply.guarded <$> jwtAuthGuard route cookie

/-- The account services as a system of interleaved calls. -/
def system (S : Settings) : System Act Exn Reply World Env Op where
  body := body S
  exec := fun p _ a e w => exec S p a e w
  ambient := ambient
  reboot := reboot

/-- A configuration of the account services. -/
abbrev Conf := Config Act Exn Reply World Op

/-! ## §4. A small installation, for concrete runs. -/

/-- Four token ids, as `createRefreshTokenId` draws them. -/
def jti₁ : String := "Ayx6eN1UUi5cqv-bcDUX6995v6_Q1kyAp-pZsOWZHtI"
def jti₂ : String := "ct1SyNshAvkYBDpy9xUtqgmfm2ADIMjwjN-HaKI_Pwo"
def jti₃ : String := "KLUXZVu2aIOEWSg7sFN4N7E_IK9y7mQoUAaCWhXbyQU"
def jti₄ : String := "-P_1mXWDIPKvh0vQwy9_tU3d3gTSOuxDwP5ZjCUgY04"

/-- SHA-256 on the texts of the concrete runs. -/
def sampleSha256 (text : String) : String :=
  Equiv.swap jti₁ "aa5653e747c6930562ae434f6c10a2d90f69a2b9d821f27e9c317915cde20667" <|
  Equiv.swap jti₂ "c7e065260042079ea56fdfbdf414e2efc7f6d44c3dad926ac31cd4c777ec0c19" <|
  Equiv.swap jti₃ "3d9ae9274dce7b38a0895db6542afd12c0df1af8544b0132937511f45a16395f" <|
  Equiv.swap jti₄ "17438c5b30e6fb4c9079360c824cc505b1d372168321802cf99fd69791bfb73c" <|
  Equiv.swap "let-me-in" "a3ee786b5707c27d42570785081ec17f5c7db9262a01366af362a1aa61a420b9" text

theorem sampleSha256_injective : Function.Injective sampleSha256 :=
  (Equiv.injective _).comp <| (Equiv.injective _).comp <| (Equiv.injective _).comp <|
    (Equiv.injective _).comp (Equiv.injective _)

/-- The hash of `old-password`. -/
def oldHash : String := "$2b$10$abcdefghijklmnopqrstuuY7z4Ayv.yHBVV3ZN/Lrk1PU7ipqHf02"

/-- The hash of `new-password`. -/
def newHash : String := "$2b$10$zyxwvutsrqponmlkjihgfedhC6xFw2sp/yMTHc3nbCqAlz3dv277W"

/-- Seven-day sessions, no approval, a configured setup token. -/
def sampleSettings : Settings where
  sha256 := sampleSha256
  trim := id
  toLowerCase := id
  refreshTtl := 7 * 86400000
  accessTtl := 15 * 60000
  requireAdminApproval := false
  setupToken := some "let-me-in"
  googleClientId := none
  compare := fun data encrypted =>
    (data == "old-password" && encrypted == oldHash)
      || (data == "new-password" && encrypted == newHash)
  hash := fun data salt =>
    if data = "old-password" ∧ salt = "$2b$10$abcdefghijklmnopqrstuu" then oldHash
    else if data = "new-password" ∧ salt = "$2b$10$zyxwvutsrqponmlkjihgfe" then newHash
    else data
  encrypt := fun secret _ => secret
  decrypt := id
  verifySync := fun _ _ _ => false

/-- An account with the password `old-password`. -/
def sampleAccount (id : UserId) (email username : String) (role : Role) : User where
  id := id
  email := email
  username := username
  passwordHash := some oldHash
  googleId := none
  githubId := none
  role := role
  status := .active
  totpSecret := none
  totpEnabled := false
  totpBackupCodes := none
  tempPasswordHash := none
  tempPasswordExpiresAt := none
  mustChangePassword := false
  minecraftUUID := none
  minecraftName := none
  minecraftVerified := false
  createdAt := 0
  updatedAt := 0

/-- Two administrators and a user, none signed in. -/
def sampleDb : Db where
  users := ⟨[sampleAccount 1 "alice@example.com" "alice" .admin,
    sampleAccount 2 "bob@example.com" "bob" .admin,
    sampleAccount 3 "steve@example.com" "steve" .user], by decide⟩
  refreshTokens := Table.empty
  modPermissions := Table.empty
  setupState := some true
  oauthChallenges := Table.empty
  servers := []

/-- The installation, some time in November 2023. -/
def sampleWorld : World := World.boot sampleDb 1700000000000

end MinePanel.Accounts
