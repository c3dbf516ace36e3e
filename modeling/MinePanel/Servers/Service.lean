/-
  MinePanel.Servers.Service
  ─────────────────────────
  **THE SERVER LIFECYCLE** (`src/servers/servers.service.ts`).

  Every method of `ServersService` that touches a container, statement by
  statement: create, start, stop, restart, delete and the startup
  reconciliation, with their compensation paths.  A `try … catch` of the source
  is a `try … catch` here, in the same place.
-/
import MinePanel.Docker.Service

namespace MinePanel.Servers

open MinePanel.Db MinePanel.Docker MinePanel.Lib

/-- `DTO` of `POST /servers`: `CreateServerDto`. -/
structure CreateServerDto where
  name : String
  provider : ServerProvider
  version : String
  port : Nat
  maxPlayers : Option Nat
  difficulty : Option Difficulty
  gamemode : Option Gamemode
  pvp : Option Bool
  memoryLimitMb : Option Nat
  motd : Option String
  levelSeed : Option String
  onlineMode : Option Bool
  viewDistance : Option Nat
  accessType : Option AccessType
  allowFlight : Option Bool
  deriving Repr, DecidableEq

/-- `PublicServer`: the row without `rconPassword`, `containerId`, `worldPath`. -/
structure PublicServer where
  id : ServerId
  name : String
  provider : ServerProvider
  version : String
  port : Nat
  status : ServerStatus
  maxPlayers : Nat
  difficulty : Difficulty
  gamemode : Gamemode
  pvp : Bool
  memoryLimitMb : Nat
  motd : Option String
  levelSeed : Option String
  onlineMode : Bool
  viewDistance : Nat
  allowFlight : Bool
  ownerId : UserId
  accessType : AccessType
  createdAt : Timestamp
  updatedAt : Timestamp
  deriving Repr, DecidableEq

/-- `toPublicServer`. -/
def toPublicServer (s : Server) : PublicServer where
  id := s.id
  name := s.name
  provider := s.provider
  version := s.version
  port := s.port
  status := s.status
  maxPlayers := s.maxPlayers
  difficulty := s.difficulty
  gamemode := s.gamemode
  pvp := s.pvp
  memoryLimitMb := s.memoryLimitMb
  motd := s.motd
  levelSeed := s.levelSeed
  onlineMode := s.onlineMode
  viewDistance := s.viewDistance
  allowFlight := s.allowFlight
  ownerId := s.ownerId
  accessType := s.accessType
  createdAt := s.createdAt
  updatedAt := s.updatedAt

/-! ## §1. Configuration and admission. -/

/-- `ResourceConfig`. -/
structure ResourceConfig where
  minFreeDiskMb : Nat
  maxMemoryRatio : ℚ
  deriving DecidableEq

/-- `parseResourceConfig`. -/
def parseResourceConfig (settings : Settings) : Except Exn ResourceConfig :=
  match settings.minFreeDiskMb.isSafeInteger, settings.minFreeDiskMb.toInt?,
      settings.maxMemoryRatio with
  | true, some minFreeDiskMb, .finite maxMemoryRatio =>
    if minFreeDiskMb ≤ 0 ∨ maxMemoryRatio ≤ 0 ∨ maxMemoryRatio > 1 then
      .error (.serviceUnavailable "Host resource information unavailable")
    else .ok { minFreeDiskMb := minFreeDiskMb.toNat, maxMemoryRatio := maxMemoryRatio }
  | _, _, _ => .error (.serviceUnavailable "Host resource information unavailable")

/-- `parseStopWarnSeconds`: one or more digits, at most 300. -/
def parseStopWarnSeconds (settings : Settings) : Except Exn Nat :=
  let raw := settings.stopWarnSeconds.toList
  if raw.isEmpty || !raw.all Char.isDigit then
    .error (.serviceUnavailable "Graceful shutdown configuration unavailable")
  else
    let value := raw.foldl (fun n c => 10 * n + (c.toNat - '0'.toNat)) 0
    if value > 300 then
      .error (.serviceUnavailable "Graceful shutdown configuration unavailable")
    else .ok value

/-- `checkDisk`. -/
def checkDisk (diskInfo : DiskInfo) (minFreeDiskMb : Nat) (message : String) : Except Exn Unit :=
  match diskInfo.totalDiskMb, diskInfo.freeDiskMb with
  | some totalDiskMb, some freeDiskMb =>
    if freeDiskMb < minFreeDiskMb then
      .error (.insufficientResources message
        { resource := .disk, availableMb := freeDiskMb, requiredMb := minFreeDiskMb,
          totalMb := totalDiskMb })
    else .ok ()
  | _, _ => .error (.serviceUnavailable "Host resource information unavailable")

/-- `Math.floor(hostInfo.totalRamMb * maxMemoryRatio)`. -/
def allocatableMb (settings : Settings) (totalRamMb : Nat) (maxMemoryRatio : ℚ) : Nat :=
  (settings.round (totalRamMb * maxMemoryRatio)).floor.toNat

/-- `checkMemoryAdmission`. -/
def checkMemoryAdmission (settings : Settings) (hostInfo : HostInfo) (maxMemoryRatio : ℚ)
    (requestedMb currentAllocationMb : Nat) (message : String) : Except Exn Unit :=
  match hostInfo.totalRamMb, hostInfo.cpuCount with
  | some totalRamMb, some _ =>
    let availableMb := allocatableMb settings totalRamMb maxMemoryRatio - currentAllocationMb
    if requestedMb > availableMb then
      .error (.insufficientResources message
        { resource := .memory, availableMb := availableMb, requiredMb := requestedMb,
          totalMb := totalRamMb })
    else .ok ()
  | _, _ => .error (.serviceUnavailable "Host resource information unavailable")

/-- A synchronous check inside a call: its exception is the call's. -/
def check {α : Type} : Except Exn α → Call α
  | .ok a => return a
  | .error e => throw e

/-! ## §2. Statements. -/

/-- A database answer: a broken constraint throws. -/
def statement {α : Type} (a : Act (Except String α)) : Call α := do
  match ← Prog.perform a with
  | .ok r => return r
  | .error constraint => throw (.uniqueViolation constraint)

/-- `this.db.transaction`: the body's last write commits; a throw rolls back. -/
def transaction {α : Type} (body : Call α) : Call α := do
  try body
  catch e =>
    Prog.perform .rollback
    throw e

/-- `transitionInTx`. -/
def transitionInTx (id : ServerId) (expectedStatus nextStatus : ServerStatus)
    (expectedContainerId : Option ContainerId) (newContainerId : Option (Option ContainerId)) :
    Call (Option Server) :=
  statement (.updateTransition id expectedStatus nextStatus expectedContainerId newContainerId)

/-- `transition`: the compare-and-set in a transaction of its own. -/
def transition (id : ServerId) (expectedStatus nextStatus : ServerStatus)
    (expectedContainerId : Option ContainerId) (newContainerId : Option (Option ContainerId)) :
    Call (Option Server) :=
  transaction (transitionInTx id expectedStatus nextStatus expectedContainerId newContainerId)

/-- `loadVisibleServer`. -/
def loadVisibleServer (id : ServerId) (principal : ServerPrincipal) : Call Server := do
  match ← Prog.perform (.selectVisibleServer id principal) with
  | some row => return row
  | none => throw (.notFound "Server not found")

/-- `getServer`. -/
def getServer (id : ServerId) (principal : ServerPrincipal) : Call PublicServer := do
  let row ← loadVisibleServer id principal
  return toPublicServer row

/-- `compensateCreateFailure`. -/
def compensateCreateFailure (serverId : ServerId) : Call Unit := do
  match ← findManagedContainer serverId with
  | .unavailable => return ()
  | .found id _ => statement (.updateCreateError serverId id)
  | .absent => Prog.perform (.deleteInStatus serverId .creating)

/-- `claimContainerId`. -/
def claimContainerId (serverId : ServerId) (containerId : ContainerId) : Call (Option Server) :=
  statement (.updateContainerId serverId containerId)

/-- `gracefulStopContainer`: any RCON failure degrades to the direct stop. -/
def gracefulStopContainer (containerId : ContainerId) (warnSeconds : Nat) : Call Unit := do
  let rconFailed ← try
      executeRconCommand containerId
        ["say", s!"§cServer closing in {warnSeconds} seconds..."]
      if warnSeconds > 0 then
        Prog.perform (.sleep (warnSeconds * 1000))
      executeRconCommand containerId ["save-all"]
      Prog.perform (.sleep 3000)
      pure false
    catch _ => pure true
  stopContainer containerId (if rconFailed then 10 else 15)

/-! ## §3. Create. -/

/-- The row `createServer` inserts, with the service's defaults. -/
def newServer (dto : CreateServerDto) (principal : ServerPrincipal) (requestedMb : Nat) :
    NewServer where
  name := dto.name
  provider := dto.provider
  version := dto.version
  port := dto.port
  status := .creating
  maxPlayers := dto.maxPlayers.getD 20
  difficulty := dto.difficulty.getD .normal
  gamemode := dto.gamemode.getD .survival
  pvp := dto.pvp.getD true
  memoryLimitMb := requestedMb
  motd := dto.motd
  levelSeed := dto.levelSeed
  onlineMode := dto.onlineMode.getD true
  viewDistance := dto.viewDistance.getD 10
  allowFlight := dto.allowFlight.getD false
  ownerId := principal.id
  accessType := dto.accessType.getD .openAccess

/-- `createServer`. -/
def createServer (settings : Settings) (dto : CreateServerDto) (principal : ServerPrincipal) :
    Call PublicServer := do
  let config ← check (parseResourceConfig settings)
  let (hostInfo, diskInfo) ← hostReadings settings
  check (checkDisk diskInfo config.minFreeDiskMb "Insufficient disk space to create server")
  let created ← transaction do
    Prog.perform .lifecycleLock
    let currentAllocationMb ← Prog.perform (.sumMemoryLimitMb none true)
    let requestedMb := dto.memoryLimitMb.getD 2048
    check (checkMemoryAdmission settings hostInfo config.maxMemoryRatio requestedMb
      currentAllocationMb "Insufficient memory to create server")
    statement (.insertServer (newServer dto principal requestedMb))
  let containerId ← try createContainer settings created
    catch error =>
      compensateCreateFailure created.id
      throw error
  let persisted ← claimContainerId created.id containerId
  if persisted.isNone then
    -- the container exists but the claim lost its CAS
    compensateCreateFailure created.id
    throw (.internalServerError "Failed to persist container id")
  try startContainer containerId
  catch error =>
    let _ ← transition created.id .creating .error (some containerId) none
    throw error
  match ← transition created.id .creating .running (some containerId) none with
  | none => throw (.internalServerError "Failed to finalize running server state")
  | some running => return toPublicServer running

/-! ## §4. Start, stop, restart. -/

/-- The admission transaction of start and restart: lock, sum, check, claim. -/
def admitAndClaim (settings : Settings) (hostInfo : HostInfo) (config : ResourceConfig)
    (id : ServerId) (memoryLimitMb : Nat) (fromStatus : ServerStatus) (containerId : ContainerId)
    (message : String) : Call (Option Server) :=
  transaction do
    Prog.perform .lifecycleLock
    let currentAllocationMb ← Prog.perform (.sumMemoryLimitMb (some id) false)
    check (checkMemoryAdmission settings hostInfo config.maxMemoryRatio memoryLimitMb
      currentAllocationMb message)
    transitionInTx id fromStatus .starting (some containerId) none

/-- The start phase, after the row is STARTING: start the container and settle. -/
def startPhase (id : ServerId) (containerId : ContainerId) : Call PublicServer := do
  try startContainer containerId
  catch error =>
    if error.isServiceUnavailable then
      let _ ← transition id .starting .error (some containerId) none
    else
      let _ ← transition id .starting .stopped (some containerId) none
    throw error
  match ← transition id .starting .running (some containerId) none with
  | none =>
    let _ ← transition id .starting .error (some containerId) none
    throw (.internalServerError "Failed to finalize running server state")
  | some running => return toPublicServer running

/-- `startServer`. -/
def startServer (settings : Settings) (id : ServerId) (principal : ServerPrincipal) :
    Call PublicServer := do
  let row ← loadVisibleServer id principal
  if row.status ≠ .stopped then
    throw (.conflict "Server is not in STOPPED state")
  match row.containerId with
  | none => throw (.conflict "Server container is not provisioned")
  | some containerId =>
    let config ← check (parseResourceConfig settings)
    let (hostInfo, diskInfo) ← hostReadings settings
    check (checkDisk diskInfo config.minFreeDiskMb "Insufficient disk space to start server")
    let started ← admitAndClaim settings hostInfo config id row.memoryLimitMb .stopped
      containerId "Insufficient memory to start server"
    if started.isNone then
      throw (.conflict "Server is not in STOPPED state")
    startPhase id containerId

/-- The stop phase, after the row is STOPPING: stop the container; a failure
settles the row and is rethrown. -/
def stopPhase (id : ServerId) (containerId : ContainerId) (warnSeconds : Nat) : Call Unit := do
  try gracefulStopContainer containerId warnSeconds
  catch error =>
    if error.isServiceUnavailable then
      let _ ← transition id .stopping .error (some containerId) none
    else if error.isNotFound then
      -- removed externally: the truthful state is stopped, not running
      let _ ← transition id .stopping .stopped (some containerId) none
    else
      -- known failure: the daemon answered and rejected the stop
      let _ ← transition id .stopping .running (some containerId) none
    throw error

/-- The common head of stop and restart: the visible RUNNING row, claimed. -/
def claimRunning (settings : Settings) (id : ServerId) (principal : ServerPrincipal) :
    Call (Server × ContainerId × Nat) := do
  let row ← loadVisibleServer id principal
  if row.status ≠ .running then
    throw (.conflict "Server is not in RUNNING state")
  match row.containerId with
  | none => throw (.internalServerError "Running server has no container id")
  | some containerId =>
    let warnSeconds ← check (parseStopWarnSeconds settings)
    let stopping ← transition id .running .stopping (some containerId) none
    if stopping.isNone then
      throw (.conflict "Server is not in RUNNING state")
    return (row, containerId, warnSeconds)

/-- `stopServer`. -/
def stopServer (settings : Settings) (id : ServerId) (principal : ServerPrincipal) :
    Call PublicServer := do
  let (_, containerId, warnSeconds) ← claimRunning settings id principal
  stopPhase id containerId warnSeconds
  match ← transition id .stopping .stopped (some containerId) none with
  | none => throw (.internalServerError "Failed to finalize stopped server state")
  | some stopped => return toPublicServer stopped

/-- The second `try` block of `restartServer`: admission, claim, start. -/
def restartStart (settings : Settings) (row : Server) (id : ServerId)
    (containerId : ContainerId) : Call PublicServer := do
  let config ← check (parseResourceConfig settings)
  let (hostInfo, diskInfo) ← hostReadings settings
  check (checkDisk diskInfo config.minFreeDiskMb "Insufficient disk space to restart server")
  let starting ← admitAndClaim settings hostInfo config id row.memoryLimitMb .stopping
    containerId "Insufficient memory to restart server"
  if starting.isNone then
    throw (.conflict "Server is not in STOPPED state")
  startPhase id containerId

/-- `restartServer`.  The outer `catch` fires for EVERY failure of the second
block, also for one whose start phase has already settled the row. -/
def restartServer (settings : Settings) (id : ServerId) (principal : ServerPrincipal) :
    Call PublicServer := do
  let (row, containerId, warnSeconds) ← claimRunning settings id principal
  stopPhase id containerId warnSeconds
  try restartStart settings row id containerId
  catch error =>
    let _ ← transition id .stopping .stopped (some containerId) none
    throw error

/-! ## §5. Delete. -/

/-- `resolveDeleteRemoveFailure`: whether the row is gone. -/
def resolveDeleteRemoveFailure (id : ServerId) (containerId : ContainerId) : Call Bool := do
  try
    let (_, running) ← inspectContainer containerId
    if running then
      let _ ← transition id .stopping .error (some containerId) none
      pure false
    else
      Prog.perform (.deleteInStatus id .stopping)
      pure true
  catch inspectError =>
    if inspectError.isNotFound then
      Prog.perform (.deleteInStatus id .stopping)
      pure true
    else
      let _ ← transition id .stopping .error (some containerId) none
      pure false

/-- `deleteServer`. -/
def deleteServer (id : ServerId) (principal : ServerPrincipal) : Call Unit := do
  let row ← loadVisibleServer id principal
  if row.status ≠ .stopped then
    throw (.conflict "Server is not in STOPPED state")
  match ← transition id .stopped .stopping row.containerId none with
  | none => throw (.conflict "Server is not in STOPPED state")
  | some deleting =>
    match deleting.containerId with
    | none => pure ()
    | some containerId =>
      try removeContainer containerId
      catch error =>
        let removed ← resolveDeleteRemoveFailure id containerId
        if !removed then throw error
    Prog.perform (.deleteInStatus id .stopping)

/-! ## §6. Startup reconciliation. -/

/-- `ReconciliationOutcome`. -/
inductive ReconciliationOutcome where
  | state (status : ServerStatus) (containerId : Option ContainerId)
  | unavailable
  | unchanged
  deriving Repr, DecidableEq

/-- The part of `reconcileRow` after the inspection: the managed lookup. -/
def reconcileLookup (row : Server) : Call ReconciliationOutcome := do
  match ← findManagedContainer row.id with
  | .unavailable => return .unavailable
  | .found id running => return .state (if running then .running else .stopped) (some id)
  | .absent => return .state .stopped none

/-- `reconcileRow`. -/
def reconcileRow (row : Server) : Call ReconciliationOutcome := do
  match row.containerId with
  | none => reconcileLookup row
  | some containerId =>
    let inspected ← try
        let (id, running) ← inspectContainer containerId
        pure (Except.ok (id, running))
      catch error => pure (Except.error error)
    match inspected with
    | .ok (id, running) => return .state (if running then .running else .stopped) (some id)
    | .error error =>
      if error.isServiceUnavailable then return .unavailable
      else if error.isNotFound then reconcileLookup row
      else return .unchanged

/-- The writes of `onModuleInit`, one for each row whose outcome differs.  Under
`Promise.all` every one of them is issued; the first rejection is thrown. -/
def reconcileWrites : List (Server × ReconciliationOutcome) → Call Unit
  | [] => return ()
  | (row, .state status containerId) :: rest => do
    if ¬ (row.status = status ∧ row.containerId = containerId) then
      try statement (.updateReconciled row status containerId)
      catch error =>
        try reconcileWrites rest
        catch _ => pure ()
        throw error
    reconcileWrites rest
  | _ :: rest => reconcileWrites rest

/-- The inspections of `onModuleInit`. -/
def reconcileRows : List Server → Call (List (Server × ReconciliationOutcome))
  | [] => return []
  | row :: rest => do
    let outcome ← reconcileRow row
    let outcomes ← reconcileRows rest
    return (row, outcome) :: outcomes

/-- `onModuleInit`.  The SELECT has no ORDER BY, so the rows come in any order;
the inspections and the writes of different rows touch different rows. -/
def onModuleInit : Call Unit := do
  let rows ← Prog.perform .selectNotStopped
  let outcomes ← reconcileRows rows
  if outcomes.any fun ro => ro.2 = .unavailable then
    return ()
  reconcileWrites outcomes

end MinePanel.Servers
