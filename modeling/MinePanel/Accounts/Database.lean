/-
  MinePanel.Accounts.Database
  ───────────────────────────
  **THE ACCOUNT TABLES AND THE STATEMENTS ON THEM.**

  The tables behind sign-in, sessions, administration and setup, as PostgreSQL
  keeps them under READ COMMITTED.  A statement is planned against what its
  call sees: its answer, the locks it waits for and takes, and its writes.  A
  row lock is taken by every UPDATE, DELETE and `FOR UPDATE`; a unique key is
  locked by the INSERT or UPDATE that claims it, so a second one waits for the
  first to end.  A foreign key waits for a `FOR UPDATE` of the row it names.

  A DELETE of several rows is two steps: `scanTokens` is its snapshot (the rows
  committed when it starts), `deleteTokens` locks and removes those of them
  that are still there.
-/
import MinePanel.Lib.Store
import MinePanel.Db.Schema
import MinePanel.Exception

namespace MinePanel.Accounts

open MinePanel.Db MinePanel.Lib

/-! ## §1. Data and writes. -/

/-- The account tables.  Of `setup_state` only the flag of its single row is
read; of `servers` only which exist. -/
structure Db where
  users : Users
  refreshTokens : RefreshTokens
  modPermissions : ModPermissions
  setupState : Option Bool
  oauthChallenges : OAuthChallenges
  servers : List ServerId
  deriving DecidableEq

/-- The columns an UPDATE of `users` sets; `none` leaves a column alone. -/
structure UserPatch where
  username : Option String := none
  passwordHash : Option (Option String) := none
  googleId : Option (Option String) := none
  role : Option Role := none
  status : Option UserStatus := none
  totpSecret : Option (Option String) := none
  totpEnabled : Option Bool := none
  totpBackupCodes : Option (Option (List String)) := none
  tempPasswordHash : Option (Option String) := none
  tempPasswordExpiresAt : Option (Option Timestamp) := none
  mustChangePassword : Option Bool := none
  deriving Repr, DecidableEq

/-- The patched row; `updatedAt` is set by every UPDATE. -/
def UserPatch.apply (set : UserPatch) (now : Timestamp) (u : User) : User :=
  { u with
    username := set.username.getD u.username
    passwordHash := set.passwordHash.getD u.passwordHash
    googleId := set.googleId.getD u.googleId
    role := set.role.getD u.role
    status := set.status.getD u.status
    totpSecret := set.totpSecret.getD u.totpSecret
    totpEnabled := set.totpEnabled.getD u.totpEnabled
    totpBackupCodes := set.totpBackupCodes.getD u.totpBackupCodes
    tempPasswordHash := set.tempPasswordHash.getD u.tempPasswordHash
    tempPasswordExpiresAt := set.tempPasswordExpiresAt.getD u.tempPasswordExpiresAt
    mustChangePassword := set.mustChangePassword.getD u.mustChangePassword
    updatedAt := now }

/-- One change of the tables. -/
inductive Write where
  | insertUser (row : User)
  | updateUser (id : UserId) (set : UserPatch) (now : Timestamp)
  | insertToken (row : RefreshToken)
  | deleteTokens (ids : List TokenId)
  | insertPermission (row : ModPermissionRow)
  | deletePermissions (ids : List PermissionId)
  | insertSetup
  | completeSetup
  | insertChallenge (row : OAuthChallenge)
  | deleteChallenge (id : ChallengeId)
  | insertServer (id : ServerId)
  /-- The grants of a deleted server go with it (`ON DELETE CASCADE`). -/
  | deleteServer (id : ServerId)
  deriving Repr, DecidableEq

/-- A patch applied to the row with key `id`. -/
def patchUser (id : UserId) (set : UserPatch) (now : Timestamp) (u : User) : User :=
  if u.id = id then set.apply now u else u

/-- An UPDATE keeps the key. -/
theorem patchUser_id (id : UserId) (set : UserPatch) (now : Timestamp) (u : User) :
    (patchUser id set now u).id = u.id := by
  unfold patchUser
  split <;> rfl

/-- The tables after a write. -/
def Db.apply (d : Db) : Write → Db
  | .insertUser row => { d with users := (d.users.insert row).getD d.users }
  | .updateUser id set now =>
      { d with users := d.users.modify (patchUser id set now) (patchUser_id id set now) }
  | .insertToken row =>
      { d with refreshTokens := (d.refreshTokens.insert row).getD d.refreshTokens }
  | .deleteTokens ids =>
      { d with refreshTokens := d.refreshTokens.remove fun r => decide (r.id ∈ ids) }
  | .insertPermission row =>
      { d with modPermissions := (d.modPermissions.insert row).getD d.modPermissions }
  | .deletePermissions ids =>
      { d with modPermissions := d.modPermissions.remove fun r => decide (r.id ∈ ids) }
  | .insertSetup => { d with setupState := some (d.setupState.getD false) }
  | .completeSetup => { d with setupState := d.setupState.map fun _ => true }
  | .insertChallenge row =>
      { d with oauthChallenges := (d.oauthChallenges.insert row).getD d.oauthChallenges }
  | .deleteChallenge id =>
      { d with oauthChallenges := d.oauthChallenges.remove fun c => decide (c.id = id) }
  | .insertServer id => { d with servers := id :: d.servers }
  | .deleteServer id =>
      { d with
        servers := d.servers.filter fun s => decide (s ≠ id)
        modPermissions := d.modPermissions.remove fun r => decide (r.serverId = some id) }

/-- What can be locked. -/
inductive Lock where
  /-- `pg_advisory_xact_lock`. -/
  | advisory (key : Nat)
  /-- A row of `users`. -/
  | user (id : UserId)
  /-- The key of a row of `users`, locked by `FOR UPDATE` against foreign keys. -/
  | userKey (id : UserId)
  /-- A row of `refresh_tokens`. -/
  | token (id : TokenId)
  | email (value : String)
  | username (value : String)
  | googleId (value : String)
  | githubId (value : String)
  | tokenIdHash (value : String)
  | grant (value : UserId × ModPermission × Option ServerId)
  | setupState
  | challenge (hash : String)
  | server (id : ServerId)
  deriving Repr, DecidableEq

/-- The committed tables with every open transaction. -/
abbrev Tables := Store Db Write Lock

/-! ## §2. Statements. -/

/-- The values of an INSERT into `users`; the other columns take their
defaults. -/
structure NewUser where
  email : String
  username : String
  passwordHash : Option String
  googleId : Option String := none
  githubId : Option String := none
  role : Role := .user
  status : UserStatus
  deriving Repr, DecidableEq

/-- `NewRefreshToken`. -/
structure NewRefreshToken where
  tokenIdHash : String
  userId : UserId
  expiresAt : Timestamp
  deriving Repr, DecidableEq

/-- One SQL statement, with what it returns. -/
inductive Stmt : Type → Type where
  /-- `SELECT … FROM users WHERE id = …`. -/
  | selectUser (id : UserId) : Stmt (Option User)
  /-- `SELECT … FROM users WHERE … LIMIT 1`. -/
  | findUser (cond : User → Bool) : Stmt (Option User)
  /-- `SELECT … FROM users WHERE id = … FOR UPDATE`. -/
  | selectUserForUpdate (id : UserId) : Stmt (Option User)
  /-- `SELECT count(*) FROM users WHERE …`. -/
  | countUsers (cond : User → Bool) : Stmt Nat
  /-- `INSERT INTO users … RETURNING`. -/
  | insertUser (values : NewUser) : Stmt User
  /-- `UPDATE users SET … WHERE id = … AND … RETURNING`. -/
  | updateUser (id : UserId) (cond : User → Bool) (set : UserPatch) : Stmt (Option User)
  /-- `SELECT … FROM refresh_tokens WHERE token_id_hash = …`. -/
  | selectToken (tokenIdHash : String) : Stmt (Option RefreshToken)
  /-- The snapshot of a DELETE: the rows it will look at. -/
  | scanTokens (cond : RefreshToken → Bool) : Stmt (List TokenId)
  /-- The rest of a DELETE: the rows of its snapshot that are still there go. -/
  | deleteTokens (ids : List TokenId) : Stmt (List TokenId)
  /-- `INSERT INTO refresh_tokens …`. -/
  | insertToken (values : NewRefreshToken) : Stmt Unit
  /-- `SELECT pg_advisory_xact_lock(…)`. -/
  | advisoryLock (key : Nat) : Stmt Unit
  /-- `SELECT … FROM servers WHERE id = …`. -/
  | selectServer (id : ServerId) : Stmt Bool
  /-- `INSERT INTO mod_permissions … ON CONFLICT DO NOTHING RETURNING`. -/
  | insertPermission (userId : UserId) (permission : ModPermission) (serverId : Option ServerId) :
      Stmt (Option ModPermissionRow)
  /-- `SELECT … FROM mod_permissions WHERE …` of one grant. -/
  | selectPermission (userId : UserId) (permission : ModPermission) (serverId : Option ServerId) :
      Stmt (Option ModPermissionRow)
  /-- `SELECT … FROM mod_permissions WHERE … LIMIT 1`. -/
  | findPermission (cond : ModPermissionRow → Bool) : Stmt (Option ModPermissionRow)
  /-- The snapshot of a DELETE of grants. -/
  | scanPermissions (cond : ModPermissionRow → Bool) : Stmt (List PermissionId)
  /-- The rest of a DELETE of grants. -/
  | deletePermissions (ids : List PermissionId) : Stmt (List PermissionId)
  /-- `INSERT INTO setup_state … ON CONFLICT DO NOTHING`. -/
  | insertSetup : Stmt Unit
  /-- `SELECT … FROM setup_state WHERE id = 'singleton'`: the flag. -/
  | selectSetup : Stmt (Option Bool)
  /-- `UPDATE setup_state SET initial_admin_created = true`. -/
  | completeSetup : Stmt Unit
  /-- `INSERT INTO oauth_challenges …`. -/
  | insertChallenge (provider : OAuthChallengeProvider) (challengeHash : String)
      (expiresAt : Timestamp) : Stmt Unit
  /-- `DELETE FROM oauth_challenges WHERE … RETURNING`. -/
  | consumeChallenge (provider : OAuthChallengeProvider) (challengeHash : String)
      (now : Timestamp) : Stmt (Option ChallengeId)

/-! ## §3. What the outside decides. -/

/-- The payload of a Google ID token; a claim of the wrong type is absent. -/
structure GoogleTokenPayload where
  iss : Option String
  sub : Option String
  email : Option String
  emailVerified : Bool
  nonce : Option String
  name : Option String
  iat : Option Int
  exp : Option Int
  deriving Repr, DecidableEq

/-- A step of the surroundings. -/
inductive Ambient where
  /-- The clock moves on. -/
  | tick (now : Timestamp)
  | insertServer (id : ServerId)
  | deleteServer (id : ServerId)
  deriving Repr, DecidableEq

/-- What the outside decides in one step. -/
structure Env where
  /-- The statement fails: connection lost, timeout, deadlock, … . -/
  fails : Bool := false
  /-- A new UUID. -/
  uuid : Nat := 0
  /-- Which row a `LIMIT 1` without an order returns. -/
  pick : Nat := 0
  /-- Random bytes, as text. -/
  text : String := ""
  /-- A random integer. -/
  number : Nat := 0
  /-- What Google's verifier says. -/
  payload : Option GoogleTokenPayload := none
  ambient : Ambient := .tick 0

/-! ## §4. Plans. -/

/-- What a statement does when it runs. -/
structure Plan (α : Type) where
  answer : Except Exn α
  waits : List Lock := []
  takes : List Lock := []
  writes : List Write := []

namespace Plan

/-- Only an answer. -/
def read {α : Type} (a : α) : Plan α := { answer := .ok a }

/-- Nothing but an error. -/
def refuse {α : Type} (e : Exn) : Plan α := { answer := .error e }

end Plan

/-- The row an INSERT into `users` stores. -/
def NewUser.row (v : NewUser) (id : UserId) (now : Timestamp) : User where
  id := id
  email := v.email
  username := v.username
  passwordHash := v.passwordHash
  googleId := v.googleId
  githubId := v.githubId
  role := v.role
  status := v.status
  totpSecret := none
  totpEnabled := false
  totpBackupCodes := none
  tempPasswordHash := none
  tempPasswordExpiresAt := none
  mustChangePassword := false
  minecraftUUID := none
  minecraftName := none
  minecraftVerified := false
  createdAt := now
  updatedAt := now

/-- The row an INSERT into `refresh_tokens` stores. -/
def NewRefreshToken.row (v : NewRefreshToken) (id : TokenId) (now : Timestamp) : RefreshToken where
  id := id
  tokenIdHash := v.tokenIdHash
  userId := v.userId
  expiresAt := v.expiresAt
  createdAt := now

/-- The unique column in which `u` meets another row. -/
def Db.userConflict (d : Db) (u : User) : Option String :=
  if d.users.rows.any fun r => r.id != u.id && r.email == u.email then some "email"
  else if d.users.rows.any fun r => r.id != u.id && r.username == u.username then some "username"
  else if d.users.rows.any fun r => r.id != u.id && u.googleId.isSome && r.googleId == u.googleId
    then some "google_id"
  else if d.users.rows.any fun r => r.id != u.id && u.githubId.isSome && r.githubId == u.githubId
    then some "github_id"
  else none

/-- One of the rows a `LIMIT 1` may return. -/
def pickRow {ρ : Type} (n : Nat) (rows : List ρ) : Option ρ := rows[n % rows.length]?

theorem pickRow_mem {ρ : Type} {n : Nat} {rows : List ρ} {r : ρ} (h : pickRow n rows = some r) :
    r ∈ rows := List.mem_of_getElem? h

/-- The plan of a statement, from what its call sees. -/
def plan (now : Timestamp) (e : Env) (d : Db) : ∀ {α : Type}, Stmt α → Plan α
  | _, .selectUser id => .read (d.users.get id)
  | _, .findUser cond => .read (pickRow e.pick (d.users.rows.filter cond))
  | _, .selectUserForUpdate id =>
      match d.users.get id with
      | none => .read none
      | some u => { answer := .ok (some u), takes := [.user id, .userKey id] }
  | _, .countUsers cond => .read (d.users.rows.countP cond)
  | _, .insertUser v =>
      let row := v.row e.uuid now
      if (d.users.get row.id).isSome then .refuse (.uniqueViolation "id")
      else
        match d.userConflict row with
        | some column => .refuse (.uniqueViolation column)
        | none =>
            { answer := .ok row
              takes := [.user row.id, .email row.email, .username row.username]
                ++ row.googleId.toList.map Lock.googleId ++ row.githubId.toList.map Lock.githubId
              writes := [.insertUser row] }
  | _, .updateUser id cond set =>
      match (d.users.get id).filter cond with
      | none => .read none
      | some u =>
          match d.userConflict (set.apply now u) with
          | some column => .refuse (.uniqueViolation column)
          | none =>
              { answer := .ok (some (set.apply now u))
                takes := .user id :: (set.username.toList.map Lock.username
                  ++ (set.googleId.bind fun g => g).toList.map Lock.googleId)
                writes := [.updateUser id set now] }
  | _, .selectToken hash => .read (d.refreshTokens.rows.find? fun r => r.tokenIdHash == hash)
  | _, .scanTokens cond => .read ((d.refreshTokens.rows.filter cond).map RefreshToken.id)
  | _, .deleteTokens ids =>
      let there := ids.filter fun id => (d.refreshTokens.get id).isSome
      { answer := .ok there, takes := there.map Lock.token, writes := [.deleteTokens there] }
  | _, .insertToken v =>
      let row := v.row e.uuid now
      if (d.users.get row.userId).isNone then .refuse .statementFailed
      else if (d.refreshTokens.get row.id).isSome then .refuse (.uniqueViolation "id")
      else if d.refreshTokens.rows.any fun r => r.tokenIdHash == row.tokenIdHash then
        .refuse (.uniqueViolation "token_id_hash")
      else
        { answer := .ok ()
          waits := [.userKey row.userId]
          takes := [.token row.id, .tokenIdHash row.tokenIdHash]
          writes := [.insertToken row] }
  | _, .advisoryLock key => { answer := .ok (), takes := [.advisory key] }
  | _, .selectServer id => .read (decide (id ∈ d.servers))
  | _, .insertPermission userId permission serverId =>
      let row : ModPermissionRow := ⟨e.uuid, userId, permission, serverId, now⟩
      if (d.users.get userId).isNone || serverId.any (fun id => decide (id ∉ d.servers)) then
        .refuse .statementFailed
      else if (d.modPermissions.get row.grant).isSome then .read none
      else
        { answer := .ok (some row)
          waits := [.userKey userId]
          takes := .grant row.grant :: serverId.toList.map Lock.server
          writes := [.insertPermission row] }
  | _, .selectPermission userId permission serverId =>
      .read (d.modPermissions.get (userId, permission, serverId))
  | _, .findPermission cond => .read (pickRow e.pick (d.modPermissions.rows.filter cond))
  | _, .scanPermissions cond =>
      .read ((d.modPermissions.rows.filter cond).map ModPermissionRow.id)
  | _, .deletePermissions ids =>
      let there := d.modPermissions.rows.filter fun r => decide (r.id ∈ ids)
      { answer := .ok (there.map ModPermissionRow.id)
        takes := there.map fun r => .grant r.grant
        writes := [.deletePermissions (there.map ModPermissionRow.id)] }
  | _, .insertSetup =>
      if d.setupState.isSome then .read ()
      else { answer := .ok (), takes := [.setupState], writes := [.insertSetup] }
  | _, .selectSetup => .read d.setupState
  | _, .completeSetup =>
      if d.setupState.isSome then
        { answer := .ok (), takes := [.setupState], writes := [.completeSetup] }
      else .read ()
  | _, .insertChallenge provider hash expiresAt =>
      let row : OAuthChallenge := ⟨e.uuid, provider, hash, expiresAt, now⟩
      if (d.oauthChallenges.get row.id).isSome then .refuse (.uniqueViolation "id")
      else if d.oauthChallenges.rows.any fun c => c.challengeHash == hash then
        .refuse (.uniqueViolation "challenge_hash")
      else
        { answer := .ok (), takes := [.challenge hash], writes := [.insertChallenge row] }
  | _, .consumeChallenge provider hash now =>
      match d.oauthChallenges.rows.find? fun c =>
          c.provider == provider && c.challengeHash == hash && decide (now < c.expiresAt) with
      | none => .read none
      | some c =>
          { answer := .ok (some c.id), takes := [.challenge hash], writes := [.deleteChallenge c.id] }

end MinePanel.Accounts
