/-
  MinePanel.Servers.Action
  ────────────────────────
  **THE ATOMIC STEPS OF THE SERVER LIFECYCLE.**

  One constructor for every SQL statement of `servers.service.ts` and for every
  Dockerode request of `docker.service.ts`.  A call is a tree of these
  (`MinePanel.Lib.Prog`); another call may run between any two of them.

  Transactions.  The only statements run inside a transaction together with
  others are the advisory lock, the allocation sum and ONE final write.  The
  write is the transaction's last statement, so its step is also the commit: it
  releases the advisory lock its call holds.  `rollback` is the other end of a
  transaction, taken when its body throws.  A write that can break a UNIQUE
  constraint answers with the constraint's name.
-/
import MinePanel.Lib.System
import MinePanel.Db.Schema
import MinePanel.Docker.Errors

namespace MinePanel.Servers

open MinePanel.Db MinePanel.Docker

/-- The columns `createServer` inserts: `NewServer`. -/
structure NewServer where
  name : String
  provider : ServerProvider
  version : String
  port : Nat
  status : ServerStatus
  maxPlayers : Nat
  difficulty : Difficulty
  gamemode : Gamemode
  pvp : Bool
  memoryLimitMb : Nat
  motd : Option String
  levelSeed : Option String
  onlineMode : Bool
  viewDistance : Nat
  allowFlight : Bool
  ownerId : UserId
  accessType : AccessType
  deriving Repr, DecidableEq

/-- What `inspect` reports of a container, as far as the code reads it. -/
structure InspectInfo where
  id : ContainerId
  /-- `info.State?.Running`. -/
  running : Option Bool
  deriving Repr, DecidableEq

/-- An entry of `listContainers`. -/
structure ContainerSummary where
  id : Option ContainerId
  state : String
  deriving Repr, DecidableEq

/-- What `docker.info()` reports. -/
structure DockerInfo where
  memTotal : Option JsNumber
  ncpu : Option JsNumber
  deriving DecidableEq

/-- What `fs.statfs` reports. -/
structure Statfs where
  bsize : JsNumber
  blocks : JsNumber
  bavail : JsNumber
  deriving DecidableEq

/-- How one `rcon-cli` execution inside a container went wrong. -/
inductive RconFailure where
  /-- The daemon rejected one of the requests, or was not reached. -/
  | docker (cause : DockerError)
  /-- Timeout, stream failure, non-zero exit or a malformed result. -/
  | exec
  deriving Repr, DecidableEq

/-- One atomic step of a lifecycle call. -/
inductive Act : Type → Type where
  /-- `loadVisibleServer`: the row with this id, if the principal sees it. -/
  | selectVisibleServer (id : ServerId) (principal : ServerPrincipal) : Act (Option Server)
  /-- `onModuleInit`: the rows that are not STOPPED, in no particular order. -/
  | selectNotStopped : Act (List Server)
  /-- `pg_advisory_xact_lock(LIFECYCLE_LOCK_KEY)`. -/
  | lifecycleLock : Act Unit
  /-- `getCurrentAllocationMb`: the sum of `memoryLimitMb`. -/
  | sumMemoryLimitMb (excludeServerId : Option ServerId) (includeStopped : Bool) : Act Nat
  /-- `INSERT INTO servers … RETURNING`, the last statement of its transaction. -/
  | insertServer (row : NewServer) : Act (Except String Server)
  /-- `transitionInTx`: the compare-and-set UPDATE, the last statement of its
  transaction. -/
  | updateTransition (id : ServerId) (expectedStatus nextStatus : ServerStatus)
      (expectedContainerId : Option ContainerId) (newContainerId : Option (Option ContainerId)) :
      Act (Except String (Option Server))
  /-- `claimContainerId`. -/
  | updateContainerId (id : ServerId) (containerId : ContainerId) :
      Act (Except String (Option Server))
  /-- `compensateCreateFailure`: attach the container found, mark the row ERROR. -/
  | updateCreateError (id : ServerId) (containerId : ContainerId) : Act (Except String Unit)
  /-- `onModuleInit`: the write guarded by the whole snapshot `row`. -/
  | updateReconciled (row : Server) (status : ServerStatus) (containerId : Option ContainerId) :
      Act (Except String Unit)
  /-- `DELETE FROM servers WHERE id AND status`. -/
  | deleteInStatus (id : ServerId) (status : ServerStatus) : Act Unit
  /-- The transaction's body threw. -/
  | rollback : Act Unit
  | dockerCreate (server : Server) : Act (Except DockerError ContainerId)
  | dockerStart (containerId : ContainerId) : Act (Except DockerError Unit)
  | dockerStop (containerId : ContainerId) (timeout : Nat) : Act (Except DockerError Unit)
  | dockerRemove (containerId : ContainerId) : Act (Except DockerError Unit)
  | dockerInspect (containerId : ContainerId) : Act (Except DockerError InspectInfo)
  /-- `listContainers` filtered by the two labels of a managed container. -/
  | dockerList (serverId : ServerId) : Act (Except DockerError (List ContainerSummary))
  | dockerInfo : Act (Except DockerError DockerInfo)
  | rconExec (containerId : ContainerId) (command : List String) : Act (Except RconFailure Unit)
  | statfs : Act (Option Statfs)
  | sleep (ms : Nat) : Act Unit

/-- The calls of this service. -/
abbrev Call (α : Type) := Lib.Prog Act Exn α

namespace Act

/-- The container a Docker start, stop or removal is aimed at. -/
def mutates : ∀ {β : Type}, Act β → Option ContainerId
  | _, .dockerStart cid => some cid
  | _, .dockerStop cid _ => some cid
  | _, .dockerRemove cid => some cid
  | _, _ => none

end Act

end MinePanel.Servers
