/-
  MinePanel.Db.Schema
  ───────────────────
  **THE TABLES** (`src/db/schema.ts`).

  The enums and the row types of the tables the services read and write.
  Identifiers are opaque: only equality of two of them is ever observed, so a
  UUID, a container id and a key digest are numbers here.  A timestamp counts
  units of the clock of the services that read it: PostgreSQL's microseconds
  for servers and access rows, JavaScript's milliseconds for accounts.
-/
import MinePanel.Lib.Table

namespace MinePanel.Db

open MinePanel.Lib

/-! ## §1. Identifiers and enums. -/

abbrev UserId := Nat
abbrev ServerId := Nat
abbrev ContainerId := Nat
abbrev TokenId := Nat
abbrev PermissionId := Nat
abbrev ChallengeId := Nat
abbrev Timestamp := Nat

/-- `roleEnum`. -/
inductive Role where
  | admin | mod | user
  deriving Repr, DecidableEq

/-- `userStatusEnum`. -/
inductive UserStatus where
  | active | pending | banned
  deriving Repr, DecidableEq

/-- `serverProviderEnum`. -/
inductive ServerProvider where
  | vanilla | paper | purpur | fabric | forge
  deriving Repr, DecidableEq

/-- `serverStatusEnum`. -/
inductive ServerStatus where
  | stopped | creating | starting | running | stopping | error
  deriving Repr, DecidableEq

/-- `DifficultyEnum`. -/
inductive Difficulty where
  | peaceful | easy | normal | hard
  deriving Repr, DecidableEq

/-- `GamemodeEnum`. -/
inductive Gamemode where
  | survival | creative | adventure | spectator
  deriving Repr, DecidableEq

/-- `accessTypeEnum`: OPEN, REQUEST, PRIVATE. -/
inductive AccessType where
  | openAccess | requestAccess | privateAccess
  deriving Repr, DecidableEq

/-- `serverAccessStatusEnum`. -/
inductive ServerAccessStatus where
  | pending | approved
  deriving Repr, DecidableEq

/-- `modPermissionEnum`. -/
inductive ModPermission where
  | serverLifecycle | serverConfig | pluginManagement | whitelistManagement | userManagement
  | fileManager
  deriving Repr, DecidableEq

/-- `OAuthChallengeProvider`: the one provider the table admits. -/
inductive OAuthChallengeProvider where
  | google
  deriving Repr, DecidableEq

/-! ## §2. Rows. -/

/-- A row of `servers`. -/
structure Server where
  id : ServerId
  name : String
  provider : ServerProvider
  version : String
  port : Nat
  containerId : Option ContainerId
  status : ServerStatus
  maxPlayers : Nat
  difficulty : Difficulty
  gamemode : Gamemode
  pvp : Bool
  memoryLimitMb : Nat
  motd : Option String
  levelSeed : Option String
  onlineMode : Bool
  viewDistance : Nat
  allowFlight : Bool
  worldPath : Option String
  rconPassword : Option String
  ownerId : UserId
  accessType : AccessType
  createdAt : Timestamp
  updatedAt : Timestamp
  deriving Repr, DecidableEq

/-- A row of `server_access`. -/
structure ServerAccess where
  id : Nat
  userId : UserId
  serverId : ServerId
  status : ServerAccessStatus
  createdAt : Timestamp
  approvedAt : Option Timestamp
  deriving Repr, DecidableEq

/-- A row of `users`. -/
structure User where
  id : UserId
  email : String
  username : String
  passwordHash : Option String
  googleId : Option String
  githubId : Option String
  role : Role
  status : UserStatus
  totpSecret : Option String
  totpEnabled : Bool
  /-- The JSON array of hashes. -/
  totpBackupCodes : Option (List String)
  tempPasswordHash : Option String
  tempPasswordExpiresAt : Option Timestamp
  mustChangePassword : Bool
  minecraftUUID : Option String
  minecraftName : Option String
  minecraftVerified : Bool
  createdAt : Timestamp
  updatedAt : Timestamp
  deriving Repr, DecidableEq

/-- A row of `refresh_tokens`. -/
structure RefreshToken where
  id : TokenId
  tokenIdHash : String
  userId : UserId
  expiresAt : Timestamp
  createdAt : Timestamp
  deriving Repr, DecidableEq

/-- A row of `mod_permissions`; without a server the grant is global. -/
structure ModPermissionRow where
  id : PermissionId
  userId : UserId
  permission : ModPermission
  serverId : Option ServerId
  createdAt : Timestamp
  deriving Repr, DecidableEq

/-- A row of `oauth_challenges`. -/
structure OAuthChallenge where
  id : ChallengeId
  provider : OAuthChallengeProvider
  challengeHash : String
  expiresAt : Timestamp
  createdAt : Timestamp
  deriving Repr, DecidableEq

/-- The table `servers`. -/
abbrev Servers := Table Server.id

/-- The table `users`. -/
abbrev Users := Table User.id

/-- The columns of `server_access_user_id_server_id_unique`. -/
def ServerAccess.pair (a : ServerAccess) : UserId × ServerId := (a.userId, a.serverId)

/-- The table `server_access`, under its unique pair. -/
abbrev Accesses := Table ServerAccess.pair

/-- The table `refresh_tokens`. -/
abbrev RefreshTokens := Table RefreshToken.id

/-- What a grant is unique in: the two unique indexes of `mod_permissions`, one
for global grants and one for those of a server. -/
def ModPermissionRow.grant (r : ModPermissionRow) : UserId × ModPermission × Option ServerId :=
  (r.userId, r.permission, r.serverId)

/-- The table `mod_permissions`, under its unique grant. -/
abbrev ModPermissions := Table ModPermissionRow.grant

/-- The table `oauth_challenges`. -/
abbrev OAuthChallenges := Table OAuthChallenge.id

/-- Who calls a server route: `ServerPrincipal`. -/
structure ServerPrincipal where
  id : UserId
  role : Role
  deriving Repr, DecidableEq

end MinePanel.Db
