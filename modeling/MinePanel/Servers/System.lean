/-
  MinePanel.Servers.System
  ────────────────────────
  **THE WORLD OF THE SERVER LIFECYCLE.**

  The `servers` table, the advisory lock, the Docker daemon's containers and a
  clock, and what every atomic step does to them.  SQL is evaluated, and a
  statement fails only where a UNIQUE constraint rejects it: the database is
  always reachable here.  Every Docker answer comes from the environment,
  together with whether the request took effect, so nothing about the daemon is
  assumed.  A result that needs an honest daemon says so in the `guard` of its
  `Watch`.
-/
import MinePanel.Servers.Service

namespace MinePanel.Servers

open MinePanel.Db MinePanel.Docker MinePanel.Lib

/-! ## §1. The world. -/

/-- A container of the daemon with the label `minepanel.server-id`. -/
structure Container where
  id : ContainerId
  serverId : ServerId
  running : Bool
  deriving Repr, DecidableEq

/-- The shared state. -/
structure World where
  servers : Servers
  access : List ServerAccess
  /-- The call holding `pg_advisory_xact_lock(LIFECYCLE_LOCK_KEY)`. -/
  lock : Option Pid
  daemon : Table Container.id
  clock : Timestamp

/-- What the outside decides in one step; each step reads the fields it needs. -/
structure Env where
  /-- The order in which an unordered SELECT returns its rows. -/
  rows : List Server := []
  /-- The fresh UUID of an inserted row. -/
  uuid : ServerId := 0
  /-- The answer to a start, stop or removal, and whether it took effect. -/
  reply : Except DockerError Unit := .ok ()
  effect : Bool := true
  /-- The answer to a creation, and the container it made. -/
  created : Except DockerError ContainerId := .ok 0
  made : Option ContainerId := none
  inspected : Except DockerError InspectInfo := .ok ⟨0, none⟩
  listed : Except DockerError (List ContainerSummary) := .ok []
  info : Except DockerError DockerInfo := .ok ⟨none, none⟩
  rcon : Except RconFailure Unit := .ok ()
  stats : Option Statfs := none

namespace World

/-- The end of a transaction of `p`: its advisory lock is released. -/
def release (w : World) (p : Pid) : World :=
  if w.lock = some p then { w with lock := none } else w

/-- `buildVisibilityPredicate`. -/
def visible (w : World) (principal : ServerPrincipal) (s : Server) : Bool :=
  s.status ≠ .creating &&
    (principal.role == .admin || s.accessType == .openAccess ||
      w.access.any fun a => a.userId == principal.id && a.serverId == s.id
        && a.status == .approved)

/-- Whether another row holds this container id. -/
def containerTaken (w : World) (id : ServerId) (containerId : ContainerId) : Bool :=
  w.servers.rows.any fun s => s.id != id && s.containerId == some containerId

/-- One row of the table changes. -/
def setRow (w : World) (id : ServerId) (f : Server → Server) (hf : ∀ s, (f s).id = s.id) :
    World :=
  { w with
    servers := w.servers.modify (fun s => if s.id = id then f s else s)
      fun s => by split <;> simp [hf] }

/-- The container `cid` is now running, or not. -/
def setRunning (w : World) (cid : ContainerId) (running : Bool) : World :=
  { w with
    daemon := w.daemon.modify (fun c => if c.id = cid then { c with running := running } else c)
      fun c => by split <;> rfl }

/-- Whether the daemon runs the container. -/
def isRunning (w : World) (cid : ContainerId) : Bool :=
  match w.daemon.get cid with
  | some c => c.running
  | none => false

end World

/-- The row an INSERT stores. -/
def NewServer.row (n : NewServer) (id : ServerId) (now : Timestamp) : Server where
  id := id
  name := n.name
  provider := n.provider
  version := n.version
  port := n.port
  containerId := none
  status := n.status
  maxPlayers := n.maxPlayers
  difficulty := n.difficulty
  gamemode := n.gamemode
  pvp := n.pvp
  memoryLimitMb := n.memoryLimitMb
  motd := n.motd
  levelSeed := n.levelSeed
  onlineMode := n.onlineMode
  viewDistance := n.viewDistance
  allowFlight := n.allowFlight
  worldPath := none
  rconPassword := none
  ownerId := n.ownerId
  accessType := n.accessType
  createdAt := now
  updatedAt := now

/-! ## §2. What one step does. -/

/-- An UPDATE of the row `id` under the condition `hit`, setting its status,
its container id and its timestamp; the unique constraint on `container_id` is
checked on the value written.  It ends the transaction of `p`. -/
def updateRow (p : Pid) (id : ServerId) (hit : Server → Bool) (status : Server → ServerStatus)
    (containerId : Server → Option ContainerId) (w : World) :
    Except String (Option Server) × World :=
  match (w.servers.get id).filter hit with
  | none => (.ok none, w.release p)
  | some s =>
    let taken := match containerId s with
      | some cid => w.containerTaken id cid
      | none => false
    if taken then (.error "servers_container_id_unique", w)
    else
      let f := fun s : Server =>
        { s with status := status s, containerId := containerId s, updatedAt := w.clock }
      (.ok (some (f s)), (w.setRow id f fun _ => rfl).release p)

/-- `exec`: one atomic step of call `p`.  No statement fails but by a UNIQUE
constraint; a lost connection or a rejected transaction is not modelled. -/
def exec (p : Pid) : ∀ {β : Type}, Act β → Env → World → Option (β × World)
  | _, .selectVisibleServer id principal, _, w =>
      some ((w.servers.get id).filter (w.visible principal), w)
  | _, .selectNotStopped, e, w =>
      if e.rows.isPerm (w.servers.rows.filter fun s => s.status ≠ .stopped)
      then some (e.rows, w) else none
  | _, .lifecycleLock, _, w =>
      match w.lock with
      | none => some ((), { w with lock := some p })
      | some q => if q = p then some ((), w) else none
  | _, .sumMemoryLimitMb excludeServerId includeStopped, _, w =>
      some (((w.servers.rows.filter fun s =>
        (includeStopped || s.status ≠ .stopped) && some s.id ≠ excludeServerId).map
          Server.memoryLimitMb).sum, w)
  | _, .insertServer new, e, w =>
      let row := new.row e.uuid w.clock
      if w.servers.rows.any fun s => s.port == row.port
      then some (.error "servers_port_unique", w)
      else match w.servers.insert row with
        | some servers => some (.ok row, { w with servers := servers }.release p)
        | none => none
  | _, .updateTransition id expectedStatus nextStatus expectedContainerId newContainerId, _, w =>
      some (updateRow p id
        (fun s => s.status = expectedStatus && s.containerId = expectedContainerId)
        (fun _ => nextStatus) (fun s => newContainerId.getD s.containerId) w)
  | _, .updateContainerId id containerId, _, w =>
      some (updateRow p id (fun s => s.status = .creating && s.containerId = none)
        (fun s => s.status) (fun _ => some containerId) w)
  | _, .updateCreateError id containerId, _, w =>
      let r := updateRow p id (fun s => s.status = .creating) (fun _ => .error)
        (fun _ => some containerId) w
      some (r.1.map fun _ => (), r.2)
  | _, .updateReconciled row status containerId, _, w =>
      -- `updatedAt` is compared in milliseconds
      let r := updateRow p row.id (fun s => s.status = row.status
          && s.containerId = row.containerId && s.updatedAt / 1000 = row.updatedAt / 1000)
        (fun _ => status) (fun _ => containerId) w
      some (r.1.map fun _ => (), r.2)
  | _, .deleteInStatus id status, _, w =>
      let hit := fun s : Server => s.id = id && s.status = status
      some ((), { w with
        servers := w.servers.remove hit
        access := if w.servers.rows.any hit then w.access.filter fun a => a.serverId ≠ id
          else w.access })
  | _, .rollback, _, w => some ((), w.release p)
  | _, .dockerCreate server, e, w =>
      match e.made with
      | none => some (e.created, w)
      | some cid => match w.daemon.insert ⟨cid, server.id, false⟩ with
        | some daemon => some (e.created, { w with daemon := daemon })
        | none => none
  | _, .dockerStart cid, e, w =>
      some (e.reply, if e.effect then w.setRunning cid true else w)
  | _, .dockerStop cid _, e, w =>
      some (e.reply, if e.effect then w.setRunning cid false else w)
  | _, .dockerRemove cid, e, w =>
      some (e.reply,
        if e.effect then { w with daemon := w.daemon.remove fun c => c.id = cid } else w)
  | _, .dockerInspect _, e, w => some (e.inspected, w)
  | _, .dockerList _, e, w => some (e.listed, w)
  | _, .dockerInfo, e, w => some (e.info, w)
  | _, .rconExec _ _, e, w => some (e.rcon, w)
  | _, .statfs, e, w => some (e.stats, w)
  | _, .sleep _, _, w => some ((), w)

/-! ## §3. The system. -/

/-- The operations of `ServersService`. -/
inductive Op where
  | create (dto : CreateServerDto) (principal : ServerPrincipal)
  | start (id : ServerId) (principal : ServerPrincipal)
  | stop (id : ServerId) (principal : ServerPrincipal)
  | restart (id : ServerId) (principal : ServerPrincipal)
  | delete (id : ServerId) (principal : ServerPrincipal)
  | reconcile
  deriving Repr, DecidableEq

namespace Op

/-- The server a lifecycle call names. -/
def target : Op → Option ServerId
  | .start id _ => some id
  | .stop id _ => some id
  | .restart id _ => some id
  | .delete id _ => some id
  | .create _ _ => none
  | .reconcile => none

/-- start, stop, restart or delete. -/
def isLifecycle (op : Op) : Bool := op.target.isSome

end Op

/-- What a call returns. -/
inductive Reply where
  | server (s : PublicServer)
  | done
  deriving Repr, DecidableEq

/-- The code of an operation. -/
def body (settings : Settings) : Op → Call Reply
  | .create dto principal => Reply.server <$> createServer settings dto principal
  | .start id principal => Reply.server <$> startServer settings id principal
  | .stop id principal => Reply.server <$> stopServer settings id principal
  | .restart id principal => Reply.server <$> restartServer settings id principal
  | .delete id principal => (fun _ => Reply.done) <$> deleteServer id principal
  | .reconcile => (fun _ => Reply.done) <$> onModuleInit

/-- The lifecycle service as a system of interleaved calls.  When the process
dies its transactions are rolled back, and with them the advisory lock. -/
def system (settings : Settings) : System Act Exn Reply World Env Op where
  body := body settings
  exec := fun p _ a e w => exec p a e w
  ambient := fun _ w => some { w with clock := w.clock + 1 }
  reboot := fun _ w => some { w with lock := none }

/-- A configuration of the lifecycle service. -/
abbrev Conf := Config Act Exn Reply World Op

/-- The row with this id, in a configuration. -/
def row (c : Conf) (id : ServerId) : Option Server := c.world.servers.get id

/-! ## §4. A small installation, for concrete runs. -/

/-- The defaults of `.env.example`. -/
def sampleSettings : Settings where
  minFreeDiskMb := .finite 2048
  maxMemoryRatio := .finite (9 / 10)
  stopWarnSeconds := "0"
  dockerConfig := .ok ⟨25565, 25665⟩
  round := fun q => q

/-- An administrator. -/
def sampleAdmin : ServerPrincipal := ⟨1, .admin⟩

/-- A server with this status and container. -/
def sampleServer (status : ServerStatus) (containerId : Option ContainerId) : Server where
  id := 1
  name := "survival"
  provider := .paper
  version := "1.21"
  port := 25565
  containerId := containerId
  status := status
  maxPlayers := 20
  difficulty := .normal
  gamemode := .survival
  pvp := true
  memoryLimitMb := 2048
  motd := none
  levelSeed := none
  onlineMode := true
  viewDistance := 10
  allowFlight := false
  worldPath := none
  rconPassword := none
  ownerId := 1
  accessType := .openAccess
  createdAt := 0
  updatedAt := 0

/-- `docker.info()` of a host with 16 GiB and 8 cores. -/
def sampleInfo : Env :=
  { info := .ok ⟨some (.finite 17179869184), some (.finite 8)⟩ }

/-- A data directory with plenty of space. -/
def sampleStats : Env :=
  { stats := some ⟨.finite 4096, .finite 10000000, .finite 9000000⟩ }

/-- A create request with 2048 megabytes. -/
def sampleDto : CreateServerDto where
  name := "survival"
  provider := .paper
  version := "1.21"
  port := 25565
  maxPlayers := none
  difficulty := none
  gamemode := none
  pvp := none
  memoryLimitMb := some 2048
  motd := none
  levelSeed := none
  onlineMode := none
  viewDistance := none
  accessType := none
  allowFlight := none

/-- No server and no container. -/
def emptyWorld : World where
  servers := Table.empty
  access := []
  lock := none
  daemon := Table.empty
  clock := 1

/-- A create that succeeds, as call `p`, with container 7. -/
def sampleCreate (p : Pid) : List (Event Env Op) :=
  [.invoke p (.create sampleDto sampleAdmin), .step p sampleInfo, .step p sampleStats, .step p {},
   .step p {}, .step p { uuid := 1 }, .step p { created := .ok 7, made := some 7 }, .step p {},
   .step p {}, .step p {}]

/-- One server with container 7. -/
def sampleWorld (status : ServerStatus) (running : Bool) : World where
  servers := ⟨[sampleServer status (some 7)], List.nodup_singleton _⟩
  access := []
  lock := none
  daemon := ⟨[⟨7, 1, running⟩], List.nodup_singleton _⟩
  clock := 1

end MinePanel.Servers
