/-
  MinePanel.Access.Service
  ────────────────────────
  **ACCESS REQUESTS** (`src/servers/server-access.service.ts`).

  A user asks for a REQUEST server, an administrator approves or revokes.  No
  transaction is used: every statement commits on its own, an INSERT that meets
  the unique pair does nothing, and the service re-reads and retries once.
  Between any two statements every other call may run.

  The `servers` and `users` tables belong to other services; here they move on
  their own (`ambient`), with rows staying and access types never changing.
-/
import MinePanel.Lib.System
import MinePanel.Db.Schema
import MinePanel.Exception

namespace MinePanel.Access

open MinePanel.Db MinePanel.Lib

/-! ## §1. Statements. -/

/-- One SQL statement, with what it returns. -/
inductive Stmt : Type → Type where
  /-- `loadRequestableServer`, `loadServerForAdmin`: by id, not CREATING. -/
  | selectServer (id : ServerId) : Stmt (Option Server)
  /-- `loadTargetUser`. -/
  | selectUser (id : UserId) : Stmt (Option User)
  /-- `findAccess`. -/
  | selectAccess (serverId : ServerId) (userId : UserId) : Stmt (Option ServerAccess)
  /-- `INSERT … ON CONFLICT DO NOTHING RETURNING`. -/
  | insertAccess (serverId : ServerId) (userId : UserId) (status : ServerAccessStatus) :
      Stmt (Option ServerAccess)
  /-- `tryApprovePending`: `UPDATE … WHERE status = 'PENDING' RETURNING`. -/
  | approvePending (serverId : ServerId) (userId : UserId) : Stmt (Option ServerAccess)
  /-- `revokeAccess`: `DELETE … RETURNING id`. -/
  | deleteAccess (serverId : ServerId) (userId : UserId) : Stmt (Option Nat)

/-- The atomic steps of a call are its statements; one that fails answers with
what it throws. -/
inductive Act : Type → Type 1 where
  | query {α : Type} (s : Stmt α) : Act (Except Exn α)

/-- The calls of this service. -/
abbrev Call (α : Type) := Prog Act Exn α

/-- A statement: a failure throws. -/
def query {α : Type} (s : Stmt α) : Call α := do
  match ← Prog.perform (.query s) with
  | .ok r => return r
  | .error e => throw e

/-! ## §2. The service. -/

/-- `MAX_RACE_RETRIES`. -/
def maxRaceRetries : Nat := 1

/-- `MyAccessRequestProjection`. -/
structure MyAccessRequestProjection where
  status : ServerAccessStatus
  requestedAt : Timestamp
  approvedAt : Option Timestamp
  deriving Repr, DecidableEq

/-- `toMyAccessRequest`. -/
def toMyAccessRequest (row : ServerAccess) : MyAccessRequestProjection where
  status := row.status
  requestedAt := row.createdAt
  approvedAt := row.approvedAt

/-- `AccessRequestProjection`. -/
structure AccessRequestProjection where
  userId : UserId
  username : String
  email : String
  status : ServerAccessStatus
  requestedAt : Timestamp
  approvedAt : Option Timestamp
  deriving Repr, DecidableEq

/-- `loadRequestableServer` and `loadServerForAdmin`. -/
def loadServer (serverId : ServerId) : Call Server := do
  match ← query (.selectServer serverId) with
  | some row => return row
  | none => throw (.notFound "Server not found")

/-- `loadTargetUser`. -/
def loadTargetUser (userId : UserId) : Call User := do
  match ← query (.selectUser userId) with
  | some row => return row
  | none => throw (.notFound "User not found")

/-- One attempt of `upsertPendingWithRetry`; `vanished` is what follows when the
conflicting row is gone again. -/
def upsertPendingAttempt (serverId : ServerId) (userId : UserId) (vanished : Call ServerAccess) :
    Call ServerAccess := do
  match ← query (.insertAccess serverId userId .pending) with
  | some inserted => return inserted
  | none =>
    match ← query (.selectAccess serverId userId) with
    | some existing =>
      if existing.status = .pending then
        throw (.conflict "Access request already pending")
      else throw (.conflict "Server access already approved")
    | none => vanished

/-- `upsertPendingWithRetry`, with the retries left. -/
def upsertPendingWithRetry (serverId : ServerId) (userId : UserId) : Nat → Call ServerAccess
  | 0 => upsertPendingAttempt serverId userId do
      -- the row vanished concurrently; report the actual outcome
      let server ← try some <$> loadServer serverId catch _ => pure none
      if server.map Server.accessType ≠ some .requestAccess then
        throw (.notFound "Server not found")
      else throw (.conflict "Access request state changed, please retry")
  | retries + 1 => upsertPendingAttempt serverId userId do
      let server ← loadServer serverId
      if server.accessType ≠ .requestAccess then
        throw (.notFound "Server not found")
      upsertPendingWithRetry serverId userId retries

/-- `requestAccess`. -/
def requestAccess (serverId : ServerId) (principal : ServerPrincipal) :
    Call MyAccessRequestProjection := do
  if principal.role = .admin then
    throw (.conflict "Admins already have access to all servers")
  let server ← loadServer serverId
  if server.accessType = .openAccess then
    throw (.conflict "Server access is already open")
  if server.accessType = .privateAccess then
    throw (.notFound "Server not found")
  let row ← upsertPendingWithRetry serverId principal.id maxRaceRetries
  return toMyAccessRequest row

/-- `getMyAccessRequest`. -/
def getMyAccessRequest (serverId : ServerId) (principal : ServerPrincipal) :
    Call MyAccessRequestProjection := do
  let server ← loadServer serverId
  if server.accessType = .openAccess then
    throw (.notFound "Access request not found")
  if server.accessType = .privateAccess then
    throw (.notFound "Server not found")
  match ← query (.selectAccess serverId principal.id) with
  | none => throw (.notFound "Access request not found")
  | some row => return toMyAccessRequest row

/-- One attempt of `approveWithRetry`; `stillPending` follows an UPDATE that
missed a row seen PENDING, `lostInsert` an INSERT that met a new row. -/
def approveAttempt (serverAccessType : AccessType) (serverId : ServerId) (userId : UserId)
    (stillPending lostInsert : Call ServerAccess) : Call ServerAccess := do
  match ← query (.approvePending serverId userId) with
  | some approved => return approved
  | none =>
    match ← query (.selectAccess serverId userId) with
    | some existing =>
      if existing.status = .approved then
        throw (.conflict "Server access already approved")
      stillPending
    | none =>
      if serverAccessType = .requestAccess then
        throw (.notFound "Access request not found")
      match ← query (.insertAccess serverId userId .approved) with
      | some inserted => return inserted
      | none => lostInsert

/-- `approveWithRetry`, with the retries left. -/
def approveWithRetry (serverAccessType : AccessType) (serverId : ServerId) (userId : UserId) :
    Nat → Call ServerAccess
  | 0 => approveAttempt serverAccessType serverId userId
      (throw (.conflict "Access request still pending"))
      (do
        -- re-read: report only the observed state
        match ← query (.selectAccess serverId userId) with
        | some existing =>
          if existing.status = .approved then
            throw (.conflict "Server access already approved")
          else throw (.conflict "Access request still pending")
        | none => throw (.notFound "Access request not found"))
  | retries + 1 => approveAttempt serverAccessType serverId userId
      (approveWithRetry serverAccessType serverId userId retries)
      (approveWithRetry serverAccessType serverId userId retries)

/-- `approveAccess`. -/
def approveAccess (serverId : ServerId) (targetUserId : UserId) :
    Call AccessRequestProjection := do
  let server ← loadServer serverId
  let targetUser ← loadTargetUser targetUserId
  if targetUser.role = .admin then
    throw (.badRequest "Cannot assign access to an admin")
  if server.accessType = .openAccess then
    throw (.conflict "Server access is already open")
  let row ← approveWithRetry server.accessType serverId targetUserId maxRaceRetries
  return { userId := targetUser.id, username := targetUser.username, email := targetUser.email,
           status := row.status, requestedAt := row.createdAt, approvedAt := row.approvedAt }

/-- `revokeAccess`. -/
def revokeAccess (serverId : ServerId) (targetUserId : UserId) : Call Unit := do
  let _ ← loadServer serverId
  match ← query (.deleteAccess serverId targetUserId) with
  | some _ => return ()
  | none => throw (.notFound "Access request not found")

/-! ## §3. The world and its steps. -/

/-- The tables this service reads and writes. -/
structure World where
  servers : Servers
  users : Users
  access : Accesses
  clock : Timestamp

/-- What the outside decides in one step. -/
structure Env where
  /-- The statement fails: connection lost, timeout, … . -/
  fails : Bool := false
  /-- The fresh UUID of an inserted row. -/
  uuid : Nat := 0
  /-- Where other services leave their tables. -/
  servers : Servers := Table.empty
  users : Users := Table.empty

/-- The row an INSERT stores; `approvedAt` is set exactly with APPROVED. -/
def newAccess (id : Nat) (serverId : ServerId) (userId : UserId) (status : ServerAccessStatus)
    (now : Timestamp) : ServerAccess where
  id := id
  userId := userId
  serverId := serverId
  status := status
  createdAt := now
  approvedAt := if status = .approved then some now else none

/-- `SET status = 'APPROVED', approved_at = now()`. -/
def approvedRow (now : Timestamp) (row : ServerAccess) : ServerAccess :=
  { row with status := .approved, approvedAt := some now }

/-- A statement that does not fail: its answer and the table it leaves. -/
def run (w : World) (e : Env) : ∀ {α : Type}, Stmt α → Except Exn α × Accesses
  | _, .selectServer id => (.ok ((w.servers.get id).filter (·.status ≠ .creating)), w.access)
  | _, .selectUser id => (.ok (w.users.get id), w.access)
  | _, .selectAccess serverId userId => (.ok (w.access.get (userId, serverId)), w.access)
  | _, .insertAccess serverId userId status =>
      -- the two foreign keys, then the unique pair
      if (w.servers.get serverId).isNone || (w.users.get userId).isNone then
        (.error .statementFailed, w.access)
      else
        let row := newAccess e.uuid serverId userId status w.clock
        match w.access.insert row with
        | some access => (.ok (some row), access)
        | none => (.ok none, w.access)
  | _, .approvePending serverId userId =>
      let hit := fun r : ServerAccess =>
        decide (r.pair = (userId, serverId)) && decide (r.status = .pending)
      (.ok (((w.access.get (userId, serverId)).filter hit).map (approvedRow w.clock)),
        w.access.modify (fun r => if hit r then approvedRow w.clock r else r)
          fun r => by split <;> rfl)
  | _, .deleteAccess serverId userId =>
      (.ok ((w.access.get (userId, serverId)).map ServerAccess.id),
        w.access.remove fun r => r.pair = (userId, serverId))

/-- `exec`: one statement of one call; a failed one changes nothing. -/
def exec : ∀ {β : Type}, Act β → Env → World → Option (β × World)
  | _, .query s, e, w =>
      if e.fails then some (.error .statementFailed, w)
      else some ((run w e s).1, { w with access := (run w e s).2 })

/-! ## §4. The system. -/

/-- The operations that write `server_access`. -/
inductive Op where
  | request (serverId : ServerId) (principal : ServerPrincipal)
  | approve (serverId : ServerId) (targetUserId : UserId)
  | revoke (serverId : ServerId) (targetUserId : UserId)
  deriving Repr, DecidableEq

namespace Op

/-- The user and the server an operation is about. -/
def pair : Op → UserId × ServerId
  | .request serverId principal => (principal.id, serverId)
  | .approve serverId targetUserId => (targetUserId, serverId)
  | .revoke serverId targetUserId => (targetUserId, serverId)

end Op

/-- What a call returns. -/
inductive Reply where
  | mine (r : MyAccessRequestProjection)
  | theirs (r : AccessRequestProjection)
  | done
  deriving Repr, DecidableEq

/-- The code of an operation. -/
def body : Op → Call Reply
  | .request serverId principal => Reply.mine <$> requestAccess serverId principal
  | .approve serverId targetUserId => Reply.theirs <$> approveAccess serverId targetUserId
  | .revoke serverId targetUserId => (fun _ => Reply.done) <$> revokeAccess serverId targetUserId

/-- Other services keep every server with its access type, and every user. -/
def keepsRows (w : World) (e : Env) : Bool :=
  (w.servers.rows.all fun s => (e.servers.get s.id).any fun s' => s'.accessType == s.accessType)
    && w.users.rows.all fun u => (e.users.get u.id).isSome

/-- The service as a system of interleaved calls. -/
def system : System Act Exn Reply World Env Op where
  body := body
  exec := fun _ _ a e w => exec a e w
  ambient := fun e w =>
    if keepsRows w e
    then some { w with servers := e.servers, users := e.users, clock := w.clock + 1 } else none

/-- A configuration of the service. -/
abbrev Conf := Config Act Exn Reply World Op

/-! ## §5. A small installation, for concrete runs. -/

/-- A REQUEST server. -/
def sampleServer : Server where
  id := 1
  name := "survival"
  provider := .paper
  version := "1.21"
  port := 25565
  containerId := some 7
  status := .running
  maxPlayers := 20
  difficulty := .normal
  gamemode := .survival
  pvp := true
  memoryLimitMb := 2048
  motd := none
  levelSeed := none
  onlineMode := true
  viewDistance := 10
  allowFlight := false
  worldPath := none
  rconPassword := none
  ownerId := 1
  accessType := .requestAccess
  createdAt := 0
  updatedAt := 0

/-- A plain user. -/
def sampleUser : User where
  id := 2
  email := "steve@example.com"
  username := "steve"
  passwordHash := none
  googleId := none
  githubId := none
  role := .user
  status := .active
  totpSecret := none
  totpEnabled := false
  totpBackupCodes := none
  tempPasswordHash := none
  tempPasswordExpiresAt := none
  mustChangePassword := false
  minecraftUUID := none
  minecraftName := none
  minecraftVerified := false
  createdAt := 0
  updatedAt := 0

/-- One REQUEST server, one user, no access row. -/
def sampleWorld : World where
  servers := ⟨[sampleServer], List.nodup_singleton _⟩
  users := ⟨[sampleUser], List.nodup_singleton _⟩
  access := Table.empty
  clock := 1

end MinePanel.Access
