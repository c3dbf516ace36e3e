/-
  MinePanel.Docker.Service
  ────────────────────────
  **THE DOCKER SERVICE** (`src/docker/docker.service.ts`).

  Each method performs its Dockerode request and maps the rejection through
  `handleDockerError`, exactly in the order of the source.  The validated
  configuration `readDockerConfig` returns (or the exception it throws) is
  fixed for the life of the process and is part of `Settings`.
-/
import MinePanel.Servers.Action
import MinePanel.Lib.Double
import MinePanel.Lib.Text

namespace MinePanel.Docker

open MinePanel.Db MinePanel.Servers MinePanel.Lib

/-- The fields of `DockerConfig` the lifecycle code reads. -/
structure DockerConfig where
  portMin : Nat
  portMax : Nat
  deriving Repr, DecidableEq

/-- The process configuration, as `configService` resolves it with its
defaults. -/
structure Settings where
  /-- `Number(MIN_FREE_DISK_MB)`. -/
  minFreeDiskMb : JsNumber
  /-- `Number(MAX_MEMORY_RATIO)`. -/
  maxMemoryRatio : JsNumber
  /-- `STOP_WARN_SECONDS`, unparsed. -/
  stopWarnSeconds : String
  /-- The outcome of `readDockerConfig`, or the message of the
  `BadRequestException` it throws. -/
  dockerConfig : Except String DockerConfig
  /-- The double a product of two numbers is rounded to. -/
  round : ℚ → ℚ

/-- `HostInfo`. -/
structure HostInfo where
  totalRamMb : Option Nat
  cpuCount : Option Nat
  deriving Repr, DecidableEq

/-- `DiskInfo`. -/
structure DiskInfo where
  totalDiskMb : Option Nat
  freeDiskMb : Option Nat
  deriving Repr, DecidableEq

/-- `ManagedContainerLookupResult`. -/
inductive ManagedLookup where
  | found (id : ContainerId) (running : Bool)
  | unavailable
  | absent
  deriving Repr, DecidableEq

/-- `MIN_MEMORY_MB`. -/
def minMemoryMb : Nat := 512

/-- `MAX_STOP_TIMEOUT_SECONDS`. -/
def maxStopTimeoutSeconds : Nat := 55

/-- `RCON_MAX_ARG_COUNT`. -/
def rconMaxArgCount : Nat := 2

/-- `RCON_MAX_TOTAL_BYTES`. -/
def rconMaxTotalBytes : Nat := 256

/-! ## §1. Containers. -/

/-- `validateServerForCreate`. -/
def validateServerForCreate (server : Server) (config : DockerConfig) : Call Unit := do
  if server.port < config.portMin ∨ server.port > config.portMax then
    throw (.badRequest
      s!"Port {server.port} is outside the allowed range {config.portMin}-{config.portMax}")
  if server.memoryLimitMb < minMemoryMb then
    throw (.badRequest "Memory limit must be at least 512 MB")
  if Text.trim server.version = "" then
    throw (.badRequest "Server version is required")

/-- `createContainer`. -/
def createContainer (settings : Settings) (server : Server) : Call ContainerId := do
  match settings.dockerConfig with
  | .error message => throw (.badRequest message)
  | .ok config =>
    validateServerForCreate server config
    match ← Prog.perform (.dockerCreate server) with
    | .ok id => return id
    | .error error =>
      -- on create a 404 means a missing image or network
      if isStatusCode error 404 then
        throw (.notFound "Docker image or network not found")
      throw (handleDockerError error "container")

/-- `startContainer`: 304 means it already runs. -/
def startContainer (containerId : ContainerId) : Call Unit := do
  match ← Prog.perform (.dockerStart containerId) with
  | .ok _ => return ()
  | .error error =>
    if isStatusCode error 304 then return ()
    throw (handleDockerError error "container")

/-- `stopContainer`: 304 means it is already stopped. -/
def stopContainer (containerId : ContainerId) (stopTimeoutSeconds : Nat) : Call Unit := do
  if stopTimeoutSeconds > maxStopTimeoutSeconds then
    throw (.badRequest "Invalid stop timeout")
  match ← Prog.perform (.dockerStop containerId stopTimeoutSeconds) with
  | .ok _ => return ()
  | .error error =>
    if isStatusCode error 304 then return ()
    throw (handleDockerError error "container")

/-- `removeContainer`: 404 means it is already gone. -/
def removeContainer (containerId : ContainerId) : Call Unit := do
  match ← Prog.perform (.dockerRemove containerId) with
  | .ok _ => return ()
  | .error error =>
    if isStatusCode error 404 then return ()
    throw (handleDockerError error "container")

/-- `inspectContainer`, keeping the two fields its callers read. -/
def inspectContainer (containerId : ContainerId) : Call (ContainerId × Bool) := do
  match ← Prog.perform (.dockerInspect containerId) with
  | .ok info => return (info.id, info.running.getD false)
  | .error error => throw (handleDockerError error "container")

/-- `findManagedContainer`: never throws; any lookup failure is "unavailable". -/
def findManagedContainer (serverId : ServerId) : Call ManagedLookup := do
  match ← Prog.perform (.dockerList serverId) with
  | .error _ => return .unavailable
  | .ok [] => return .absent
  | .ok (container :: _) =>
    match container.id with
    | none => return .absent
    | some id => return .found id (container.state == "running")

/-! ## §2. RCON. -/

/-- `validateRconCommand`: at most two arguments, none empty or with a line
break, and a bounded number of bytes in total. -/
@[irreducible] def validRconCommand (command : List String) : Bool :=
  0 < command.length && command.length ≤ rconMaxArgCount
    && command.all (fun arg => !arg.isEmpty
        && arg.toList.all fun c => c ≠ '\x00' && c ≠ '\r' && c ≠ '\n')
    && (command.map String.utf8ByteSize).sum ≤ rconMaxTotalBytes

/-- `executeRconCommand`. -/
def executeRconCommand (containerId : ContainerId) (command : List String) : Call Unit := do
  if !validRconCommand command then
    throw (.rconUnavailable "RCON command rejected")
  match ← Prog.perform (.rconExec containerId command) with
  | .ok _ => return ()
  | .error (.docker cause) =>
    -- `isDockerError`: a status, or a transport code of the list
    if cause.statusCode.isSome || isDaemonUnreachable cause then
      throw (handleDockerError cause "container")
    throw (.rconUnavailable "RCON unavailable")
  | .error .exec => throw (.rconUnavailable "RCON unavailable")

/-! ## §3. Host readings. -/

/-- `toMb` of `getHostInfo`: whole positive bytes, in megabytes. -/
def toMb (value : Option JsNumber) : Option Nat :=
  match value.bind JsNumber.toInt? with
  | some n => if n ≤ 0 then none else some (n.toNat / 1024 / 1024)
  | none => none

/-- `getHostInfo`. -/
def getHostInfo : Call HostInfo := do
  match ← Prog.perform .dockerInfo with
  | .ok info =>
    return { totalRamMb := toMb info.memTotal
             cpuCount := match info.ncpu.bind JsNumber.toInt? with
               | some n => if 0 < n then some n.toNat else none
               | none => none }
  | .error error => throw (handleDockerError error "host")

/-- Blocks of a size, in megabytes: a product of doubles, where it is finite. -/
def blocksMb (blocks bsize : Int) : Option Nat :=
  match (Whole.nat blocks.toNat).mul (.nat bsize.toNat) with
  | .nat bytes => some (bytes / 1024 / 1024)
  | _ => none

/-- The disk numbers of one `statfs` answer, where its fields are whole,
non-negative and consistent. -/
def diskInfoOf (stats : Statfs) : DiskInfo :=
  match stats.bsize.toInt?, stats.blocks.toInt?, stats.bavail.toInt? with
  | some bsize, some blocks, some bavail =>
    if 0 < bsize ∧ 0 ≤ blocks ∧ 0 ≤ bavail ∧ bavail ≤ blocks then
      match blocksMb blocks bsize, blocksMb bavail bsize with
      | some total, some free => { totalDiskMb := some total, freeDiskMb := some free }
      | _, _ => { totalDiskMb := none, freeDiskMb := none }
    else { totalDiskMb := none, freeDiskMb := none }
  | _, _, _ => { totalDiskMb := none, freeDiskMb := none }

/-- `getHostDiskInfo`: a bad configuration throws, an unreadable volume is two
nulls. -/
def getHostDiskInfo (settings : Settings) : Call DiskInfo := do
  match settings.dockerConfig with
  | .error message => throw (.badRequest message)
  | .ok _ =>
    match ← Prog.perform .statfs with
    | some stats => return diskInfoOf stats
    | none => return { totalDiskMb := none, freeDiskMb := none }

/-- `Promise.all([getHostInfo(), getHostDiskInfo()])`.  The configuration is
read synchronously, so its exception rejects first; the two readings write
nothing and their order is not observable. -/
def hostReadings (settings : Settings) : Call (HostInfo × DiskInfo) := do
  match settings.dockerConfig with
  | .error message => throw (.badRequest message)
  | .ok _ =>
    let hostInfo ← getHostInfo
    let diskInfo ← getHostDiskInfo settings
    return (hostInfo, diskInfo)

end MinePanel.Docker
