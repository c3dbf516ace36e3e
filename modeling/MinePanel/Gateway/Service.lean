/-
  MinePanel.Gateway.Service
  ─────────────────────────
  **THE METRICS GATEWAY** (`src/gateway/events.gateway.ts`,
  `src/gateway/socket-reservation.service.ts`).

  Every handler of the gateway and of the reservation service, as a function of
  the state, and the asynchronous `tick` cut at its `await`s.  Events come one
  at a time and in any order; a handler runs to its end.  Timers fire whenever
  they are armed.

  What runs between two awaits.  When `revalidateAdmins` returns, `tick` goes
  on in a microtask of the same task: between the two only continuations of
  promises run, no event of a socket and no timer (`Stage.returning`).

  Three fields are ghosts, for the statements only: `Socket.cleanedUp`,
  `RawConn.authenticated`, `Reservation.claims`; and so are `Pass`, what one
  revalidation did, and `Emission`, what was sent to whom.
-/
import MinePanel.Auth.Guards
import MinePanel.Lib.Machine

namespace MinePanel.Gateway

open MinePanel.Db MinePanel.Lib
open MinePanel.Accounts (RawToken ParsedAccessClaims verifyAsync parseAccessTokenClaims)

/-- The id of a namespace socket. -/
abbrev SocketId := Nat

/-- The id of a raw Engine.IO connection. -/
abbrev EngineId := String

/-- What the handlers take from outside. -/
structure Settings where
  /-- How the JWT library reads a text. -/
  readToken : String → RawToken
  /-- `String.prototype.trim`. -/
  trim : String → String
  /-- `decodeURIComponent`; `none` where it throws. -/
  decodeURIComponent : String → Option String

/-! ## §1. Tokens. -/

/-- `AccessTokenPrincipal`, with its `exp`. -/
structure Principal extends Accounts.AccessTokenPrincipal where
  exp : Nat
  deriving Repr, DecidableEq

/-- `isEligibleForMetrics`. -/
def isEligibleForMetrics (principal : Principal) : Bool :=
  principal.role == .admin && !principal.temporaryAuth && !principal.mustChangePassword

/-- The claims of a token that `verify` accepts at the time `now`, with the
milliseconds of its `exp`. -/
def claimsOf (S : Settings) (token : String) (now : Nat) : Option (ParsedAccessClaims × Nat) :=
  match verifyAsync (S.readToken token) now with
  | .valid jwt => (parseAccessTokenClaims jwt).map fun claims => (claims, jwt.exp * 1000)
  | _ => none

/-- The second half of `verify`: the row of the user, as the SELECT finds it. -/
def authorize (claims : Option (ParsedAccessClaims × Nat)) (users : Users) :
    Option (Principal × User) := do
  let (payload, exp) ← claims
  let user ← users.get payload.sub
  match user.status with
  | .pending => none
  | .banned => none
  | .active =>
    return ({ id := payload.sub, username := payload.username, role := user.role
              mustChangePassword := user.mustChangePassword
              temporaryAuth := payload.temporaryAuth, exp := exp }, user)

/-- A pending `verify`: the claims as they were read at the call, and the answer
of the SELECT once it is there. -/
structure Verification where
  token : String
  claims : Option (ParsedAccessClaims × Nat)
  answer : Option (Option (Principal × User))
  deriving Repr, DecidableEq

/-- `accessTokenService.verify(token)`. -/
def verify (S : Settings) (token : String) (now : Nat) : Verification :=
  ⟨token, claimsOf S token now, none⟩

/-- The SELECT is answered, or the query fails. -/
def Verification.read (v : Verification) (users : Users) (fails : Bool) : Verification :=
  { v with answer := some (if fails then none else authorize v.claims users) }

/-! ## §2. What a client presents. -/

/-- `socket.handshake.headers.cookie`. -/
inductive CookieHeader where
  | absent
  | one (value : String)
  | many (values : List String)
  deriving Repr, DecidableEq

/-- `CookieParseResult`. -/
inductive CookieParseResult where
  | token (token : String)
  | invalid
  | absent
  deriving Repr, DecidableEq

/-- `COOKIE_HEADER_MAX_BYTES`. -/
def cookieHeaderMaxBytes : Nat := 16 * 1024

/-- `TOKEN_MAX_BYTES`. -/
def tokenMaxBytes : Nat := 8192

/-- The loop of `parseAccessCookie` over the parts of the header. -/
def parseCookieParts (S : Settings) : Option String → List (List Char) → CookieParseResult
  | none, [] => .absent
  | some token, [] => .token token
  | token, part :: parts =>
    if '=' ∉ part then parseCookieParts S token parts
    else
      let name := S.trim (String.ofList (part.takeWhile (· ≠ '=')))
      if name ≠ "access_token" then parseCookieParts S token parts
      else
        let rawValue := S.trim (String.ofList ((part.dropWhile (· ≠ '=')).tail))
        if rawValue = "" then .invalid
        else match S.decodeURIComponent rawValue with
          | none => .invalid
          | some decoded =>
            if decoded.utf8ByteSize > tokenMaxBytes then .invalid
            else if token.isSome then .invalid
            else parseCookieParts S (some decoded) parts

/-- `parseAccessCookie`. -/
def parseAccessCookie (S : Settings) : CookieHeader → CookieParseResult
  | .absent => .absent
  | .many _ => .invalid
  | .one cookieHeader =>
    if cookieHeader.utf8ByteSize > cookieHeaderMaxBytes then .invalid
    else parseCookieParts S none (cookieHeader.toList.splitOn ';')

/-- `AuthEventValue`. -/
inductive AuthEventValue where
  | string (value : String)
  | number
  | boolean
  | null
  | undefined
  | array (values : List AuthEventValue)
  | object (fields : List (String × AuthEventValue))

/-- `parseAuthPayload`: an object with the one key `accessToken`. -/
def parseAuthPayload : AuthEventValue → CookieParseResult
  | .object [(key, .string value)] =>
    if key ≠ "accessToken" ∨ value = "" ∨ value.utf8ByteSize > tokenMaxBytes then .invalid
    else .token value
  | _ => .invalid

/-! ## §3. The state. -/

/-- `AuthStatus`. -/
inductive AuthStatus where
  | pending | verifying | authenticated
  deriving Repr, DecidableEq

/-- The expiry timer: the last one, or one that re-arms. -/
inductive ExpiryTimer where
  | rearm | final
  deriving Repr, DecidableEq

/-- A namespace socket with its `socket.data`. -/
structure Socket where
  id : SocketId
  /-- `socket.client.id`, also `data.engineId`. -/
  engineId : EngineId
  connected : Bool
  /-- `data.authState`. -/
  status : AuthStatus
  deadline : Bool
  listener : Bool
  principal : Option Principal
  accessToken : Option String
  expiryTimer : Option ExpiryTimer
  /-- Ghost: `cleanupSocket` has run. -/
  cleanedUp : Bool
  deriving Repr, DecidableEq

/-- A raw Engine.IO connection. -/
structure RawConn where
  id : EngineId
  isOpen : Bool
  /-- Ghost: an eligible authentication has completed on it. -/
  authenticated : Bool
  deriving Repr, DecidableEq

/-- `Reservation`; its deadline is armed as long as it is there. -/
structure Reservation where
  id : EngineId
  claimed : Bool
  /-- Ghost: how often it was claimed. -/
  claims : Nat
  deriving Repr, DecidableEq

/-- `SystemStats`. -/
structure SystemStats where
  totalRamMb : Nat
  usedRamMb : Nat
  freeDiskMb : Nat
  cpuCount : Nat
  deriving Repr, DecidableEq

/-- Ghost: what one run of `revalidateAdmins` has done. -/
structure Pass where
  /-- How many there were before it. -/
  number : Nat
  /-- The sockets whose token it found eligible, with what it read. -/
  verified : List (SocketId × Principal × User)
  /-- The sockets whose token it did not. -/
  failed : List SocketId
  /-- The sockets that joined the room since it took its list. -/
  joined : List (SocketId × Principal)
  deriving Repr, DecidableEq

/-- Where `tick` waits. -/
inductive Stage where
  /-- For `verify` of the first group, in `revalidateAdmins`. -/
  | revalidating (verification : Verification) (sockets : List SocketId)
      (rest : List (String × List SocketId))
  /-- For its own continuation, after `revalidateAdmins` returned. -/
  | returning (value : Bool)
  /-- For `collectSnapshot`. -/
  | collecting
  deriving Repr, DecidableEq

/-- A `tick` in flight. -/
structure Tick where
  immediate : Bool
  generation : Nat
  /-- The snapshot, once it is collected, and the generation its collection
  began under (a ghost). -/
  snapshot : Option (SystemStats × Nat)
  /-- Ghost: the generation under which `collectSnapshot` was called. -/
  began : Nat
  stage : Stage
  pass : Pass
  deriving Repr, DecidableEq

/-- `cachedSnapshot`, with the generation its collection began under. -/
structure Cached where
  snapshot : SystemStats
  cachedAt : Nat
  began : Nat
  deriving Repr, DecidableEq

/-- Ghost: `system.stats` as it was sent. -/
structure Emission where
  snapshot : SystemStats
  /-- The generation under which its collection began. -/
  began : Nat
  /-- The generation at this instant. -/
  generation : Nat
  /-- The room at this instant, and the pass before it; `none` for the cached
  snapshot sent to one socket. -/
  broadcast : Option (List SocketId × Pass)
  deriving Repr, DecidableEq

/-- The gateway, the reservation service and what is around them. -/
@[ext]
structure EventsGateway where
  users : Users
  now : Nat
  raws : Table RawConn.id
  reservations : Table Reservation.id
  /-- Every socket so far. -/
  sockets : Table Socket.id
  /-- The keys of `this.sockets`. -/
  tracked : List SocketId
  /-- The admin room. -/
  room : List SocketId
  adminCount : Nat
  pollGeneration : Nat
  inFlight : Bool
  pendingImmediate : Bool
  live : Bool
  /-- Whether `this.interval` is set. -/
  interval : Bool
  cachedSnapshot : Option Cached
  /-- The pending `verify` of each socket. -/
  verifying : List (SocketId × Verification)
  tick : Option Tick
  /-- Armed `setTimeout(() => this.tick(true), 0)`. -/
  immediates : Nat
  /-- Ghost: the runs of `revalidateAdmins` so far. -/
  passes : Nat
  /-- Ghost: what was sent, the last first. -/
  emissions : List Emission

namespace EventsGateway

/-- One socket changes. -/
def modify (g : EventsGateway) (id : SocketId) (f : Socket → Socket)
    (hf : ∀ s, (f s).id = s.id := by intro _; rfl) : EventsGateway :=
  { g with
    sockets := g.sockets.modify (fun s => if s.id = id then f s else s)
      fun s => by split <;> simp [hf] }

/-! ## §4. The reservation service. -/

/-- `rawConn.close()`. -/
def closeRaw (g : EventsGateway) (id : EngineId) : EventsGateway :=
  { g with
    raws := g.raws.modify (fun r => if r.id = id then { r with isOpen := false } else r)
      fun r => by split <;> rfl }

/-- `PENDING_CAP`. -/
def pendingCap : Nat := 100

/-- `reserve`. -/
def reserve (g : EventsGateway) (id : EngineId) : EventsGateway :=
  if id = "" then g.closeRaw id
  else if pendingCap ≤ g.reservations.rows.length then g.closeRaw id
  else match g.reservations.insert ⟨id, false, 0⟩ with
    | none => g.closeRaw id
    | some reservations => { g with reservations := reservations }

/-- `claim`. -/
def claim (g : EventsGateway) (id : EngineId) : Bool × EventsGateway :=
  match g.reservations.get id with
  | none => (false, g)
  | some reservation =>
    if reservation.claimed then (false, g)
    else (true, { g with
      reservations := g.reservations.modify
        (fun r => if r.id = id then { r with claimed := true, claims := r.claims + 1 } else r)
        fun r => by split <;> rfl })

/-- `release`, without `closeRaw`. -/
def release (g : EventsGateway) (id : EngineId) : Bool × EventsGateway :=
  match g.reservations.get id with
  | none => (false, g)
  | some _ => (true, { g with reservations := g.reservations.remove fun r => r.id = id })

/-- `release(id, true)`. -/
def releaseAndClose (g : EventsGateway) (id : EngineId) : EventsGateway :=
  match g.release id with
  | (false, g) => g
  | (true, g) => g.closeRaw id

/-! ## §5. Cleanup and disconnection. -/

/-- `stopPolling`. -/
def stopPolling (g : EventsGateway) : EventsGateway :=
  { g with
    interval := false
    cachedSnapshot := none
    pollGeneration := g.pollGeneration + 1
    pendingImmediate := false }

/-- The principal of a socket is dropped, and counted off. -/
def dropPrincipal (g : EventsGateway) (id : SocketId) : EventsGateway :=
  let g := { g.modify id fun s => { s with principal := none } with
    adminCount := g.adminCount - 1 }
  if g.adminCount = 0 then g.stopPolling else g

/-- `cleanupSocket`. -/
def cleanupSocket (g : EventsGateway) (id : SocketId) : EventsGateway :=
  match g.sockets.get id with
  | none => g
  | some socket =>
    let g := g.modify id fun s =>
      { s with deadline := false, listener := false, expiryTimer := none, cleanedUp := true }
    let g := if socket.principal.isSome then g.dropPrincipal id else g
    let g := { g with room := g.room.filter (· ≠ id) }
    if socket.engineId = "" then g else (g.release socket.engineId).2

/-- `handleDisconnect`. -/
def handleDisconnect (g : EventsGateway) (id : SocketId) : EventsGateway :=
  match g.sockets.get id with
  | none => g
  | some socket =>
    let g := g.cleanupSocket id
    let g := { g with tracked := g.tracked.filter (· ≠ id) }
    -- an unauthenticated disconnect must not leave the raw transport alive
    if socket.principal.isSome then g else g.closeRaw socket.engineId

/-- A socket leaves the namespace: it leaves its rooms, is not connected any
more, and the framework calls `handleDisconnect`. -/
def leaveNamespace (g : EventsGateway) (id : SocketId) : EventsGateway :=
  let g := g.modify id fun s => { s with connected := false }
  handleDisconnect { g with room := g.room.filter (· ≠ id) } id

/-- The connected sockets of a raw connection. -/
def socketsOf (g : EventsGateway) (engineId : EngineId) : List SocketId :=
  (g.sockets.rows.filter fun s => s.connected && s.engineId == engineId).map Socket.id

/-- `socket.disconnect(true)`: every socket of the connection leaves, and the
connection is closed. -/
def disconnect (g : EventsGateway) (id : SocketId) : EventsGateway :=
  match g.sockets.get id with
  | none => g
  | some socket =>
    if socket.connected then
      ((g.socketsOf socket.engineId).foldl leaveNamespace g).closeRaw socket.engineId
    else g

/-- `disconnectSilent`. -/
def disconnectSilent (g : EventsGateway) (id : SocketId) : EventsGateway :=
  (g.cleanupSocket id).disconnect id

/-! ## §6. Revalidation and polling. -/

/-- `MAX_TIMEOUT_MS`. -/
def maxTimeoutMs : Nat := 2147483647

/-- `CACHE_TTL_MS`. -/
def cacheTtlMs : Nat := 10000

/-- The first loop of `revalidateAdmins`, over the room as it was: the sockets of
each token, in the order of their first socket.  A socket that has left the
room meanwhile is not visited. -/
def groupByToken (g : EventsGateway) (groups : List (String × List SocketId)) :
    List SocketId → EventsGateway × List (String × List SocketId)
  | [] => (g, groups)
  | id :: rest =>
    if id ∉ g.room then g.groupByToken groups rest
    else match (g.sockets.get id).filter Socket.connected with
      | none => g.groupByToken groups rest
      | some socket =>
        match socket.accessToken with
        | none => (g.disconnectSilent id).groupByToken groups rest
        | some token =>
          if groups.any fun group => group.1 == token
          then g.groupByToken (groups.map fun group =>
            if group.1 = token then (token, group.2 ++ [id]) else group) rest
          else g.groupByToken (groups ++ [(token, [id])]) rest

/-- `tick` waits at `stage`. -/
def await (g : EventsGateway) (tick : Tick) (stage : Stage) : EventsGateway :=
  { g with tick := some { tick with stage := stage } }

/-- The loop of `revalidateAdmins` over the groups, up to its next `await`; after
the last group it returns. -/
def nextGroup (S : Settings) (g : EventsGateway) (tick : Tick) :
    List (String × List SocketId) → EventsGateway
  | (token, sockets) :: rest => g.await tick (.revalidating (verify S token g.now) sockets rest)
  | [] => g.await tick (.returning
      (decide (tick.generation = g.pollGeneration) && g.live && !g.room.isEmpty))

/-- `revalidateAdmins`, up to its first `await`. -/
def revalidateAdmins (S : Settings) (g : EventsGateway) (tick : Tick) : EventsGateway :=
  let tick := { tick with pass := ⟨g.passes, [], [], []⟩ }
  let g := { g with passes := g.passes + 1 }
  if tick.generation ≠ g.pollGeneration ∨ g.live = false then g.await tick (.returning false)
  else if g.room.isEmpty then g.await tick (.returning false)
  else
    match g.groupByToken [] g.room with
    | (g, []) => g.await tick (.returning false)
    | (g, groups) => g.nextGroup S tick groups

/-- `tick`, up to its first `await`. -/
def startTick (S : Settings) (g : EventsGateway) (immediate : Bool) : EventsGateway :=
  if g.inFlight then g
  else { g with inFlight := true }.revalidateAdmins S
    { immediate := immediate, generation := g.pollGeneration, snapshot := none, began := 0
      stage := .returning false, pass := ⟨0, [], [], []⟩ }

/-- The `finally` of `tick`. -/
def endTick (g : EventsGateway) : EventsGateway :=
  let g := { g with inFlight := false, tick := none }
  if g.pendingImmediate && g.live then
    { g with pendingImmediate := false, immediates := g.immediates + 1 }
  else g

/-- `revalidateAdmins` goes on after a `verify`. -/
def resumeRevalidation (S : Settings) (g : EventsGateway) (tick : Tick)
    (answer : Option (Principal × User)) (sockets : List SocketId)
    (rest : List (String × List SocketId)) : EventsGateway :=
  match answer.filter fun found => isEligibleForMetrics found.1 with
  | some found =>
    g.nextGroup S { tick with pass := { tick.pass with
      verified := sockets.map (fun id => (id, found)) ++ tick.pass.verified } } rest
  | none =>
    (sockets.foldl disconnectSilent g).nextGroup S { tick with pass := { tick.pass with
      failed := sockets ++ tick.pass.failed } } rest

/-- `tick` goes on after `revalidateAdmins`. -/
def resumeTick (g : EventsGateway) (tick : Tick) (value : Bool) : EventsGateway :=
  if value = false then { g with cachedSnapshot := none }.endTick
  else match tick.snapshot with
    | none => g.await { tick with began := g.pollGeneration } .collecting
    | some (snapshot, began) =>
      { g with
        cachedSnapshot := some ⟨snapshot, g.now, began⟩
        emissions := ⟨snapshot, began, g.pollGeneration, some (g.room, tick.pass)⟩
          :: g.emissions }.endTick

/-- `tick` goes on after `collectSnapshot`. -/
def collected (S : Settings) (g : EventsGateway) (tick : Tick) :
    Option SystemStats → EventsGateway
  | none => { g with cachedSnapshot := none }.endTick
  | some snapshot =>
    if tick.generation ≠ g.pollGeneration ∨ g.live = false then g.endTick
    else g.revalidateAdmins S { tick with snapshot := some (snapshot, tick.began) }

/-- `startPollingIfNeeded`. -/
def startPollingIfNeeded (S : Settings) (g : EventsGateway) : EventsGateway :=
  if g.interval then g
  else
    let g := { g with interval := true }
    if g.inFlight then { g with pendingImmediate := true } else g.startTick S true

/-! ## §7. Authentication. -/

/-- `arm` of `armExpiry`, for a time that is not over: one timer, or one that
re-arms. -/
def armTimer (g : EventsGateway) (id : SocketId) (exp : Nat) : EventsGateway :=
  g.modify id fun s => { s with
    expiryTimer := some (if exp - g.now > maxTimeoutMs then .rearm else .final) }

/-- `emitCacheIfFresh`. -/
def emitCacheIfFresh (g : EventsGateway) : EventsGateway :=
  match g.cachedSnapshot with
  | none => g
  | some cached =>
    if g.now - cached.cachedAt < cacheTtlMs then
      { g with emissions :=
          ⟨cached.snapshot, cached.began, g.pollGeneration, none⟩ :: g.emissions }
    else g

/-- `socket.join(ADMIN_ROOM)`, with what comes before and after it. -/
def welcome (g : EventsGateway) (id : SocketId) (engineId : EngineId) (principal : Principal)
    (token : String) : EventsGateway :=
  let g := g.modify id fun s =>
    { s with status := .authenticated, principal := some principal, accessToken := some token }
  { g with
    room := if id ∈ g.room then g.room else g.room ++ [id]
    adminCount := g.adminCount + 1
    raws := g.raws.modify
      (fun r => if r.id = engineId then { r with authenticated := true } else r)
      fun r => by split <;> rfl
    tick := g.tick.map fun t =>
      { t with pass := { t.pass with joined := (id, principal) :: t.pass.joined } } }

/-- The rest of `onAuthSuccess`, once the reservation is released and the socket
is still connected. -/
def authenticate (S : Settings) (g : EventsGateway) (id : SocketId) (engineId : EngineId)
    (principal : Principal) (token : String) : EventsGateway :=
  let g := g.modify id fun s => { s with deadline := false }
  if isEligibleForMetrics principal = false then g.disconnect id
  else
    let g := g.welcome id engineId principal token
    if principal.exp ≤ g.now then g.disconnectSilent id
    else ((g.armTimer id principal.exp).emitCacheIfFresh).startPollingIfNeeded S

/-- `onAuthSuccess`. -/
def onAuthSuccess (S : Settings) (g : EventsGateway) (id : SocketId) (principal : Principal)
    (token : String) : EventsGateway :=
  match g.sockets.get id with
  | none => g
  | some socket =>
    if g.live = false then g
    else if socket.engineId = "" then g.disconnectSilent id
    else match g.release socket.engineId with
      | (false, g) => g.disconnectSilent id
      | (true, g) =>
        if socket.connected = false then g
        else g.authenticate S id socket.engineId principal token

/-- A `verify` of a socket is called. -/
def startVerifying (S : Settings) (g : EventsGateway) (id : SocketId) (token : String) :
    EventsGateway :=
  { g with verifying := g.verifying ++ [(id, verify S token g.now)] }

/-- `handleConnection`, of a socket that is not there yet. -/
def handleConnection (S : Settings) (g : EventsGateway) (id : SocketId) (engineId : EngineId)
    (cookie : CookieHeader) : Option EventsGateway := do
  let (claimed, g) := g.claim engineId
  let sockets ← g.sockets.insert
    { id := id, engineId := engineId, connected := true, status := .pending, deadline := false
      listener := false, principal := none, accessToken := none, expiryTimer := none
      cleanedUp := false }
  let g := { g with sockets := sockets, tracked := g.tracked ++ [id] }
  if claimed = false then return g.disconnectSilent id
  let g := g.modify id fun s => { s with deadline := true }
  match parseAccessCookie S cookie with
  | .invalid => return g.disconnectSilent id
  | .token token =>
    return (g.modify id fun s => { s with status := .verifying }).startVerifying S id token
  | .absent => return g.modify id fun s => { s with listener := true }

/-- The listener of the event `auth`. -/
def onAuth (S : Settings) (g : EventsGateway) (socket : Socket) (payload : AuthEventValue) :
    EventsGateway :=
  if socket.status ≠ .pending then g.disconnectSilent socket.id
  else
    let g := g.modify socket.id fun s => { s with status := .verifying }
    match parseAuthPayload payload with
    | .token token => g.startVerifying S socket.id token
    | _ => g.disconnectSilent socket.id

/-- The continuation of a `verify` of a socket. -/
def settle (S : Settings) (g : EventsGateway) (id : SocketId) (token : String) :
    Option (Principal × User) → EventsGateway
  | none => g.disconnectSilent id
  | some (principal, _) => g.onAuthSuccess S id principal token

/-- The expiry timer fires: `arm` again, or `disconnectSilent`. -/
def onExpiry (g : EventsGateway) (socket : Socket) : ExpiryTimer → EventsGateway
  | .final => g.disconnectSilent socket.id
  | .rearm =>
    match socket.principal with
    | none => g
    | some principal =>
      if principal.exp ≤ g.now then g.disconnectSilent socket.id
      else g.armTimer socket.id principal.exp

/-- `onModuleDestroy` of the gateway. -/
def onModuleDestroy (g : EventsGateway) : EventsGateway :=
  let g := { g with live := false, pollGeneration := g.pollGeneration + 1 }.stopPolling
  { g.tracked.foldl cleanupSocket g with tracked := [] }

/-- `onModuleDestroy` of the reservation service. -/
def releaseAll (g : EventsGateway) : EventsGateway :=
  (g.reservations.rows.map Reservation.id).foldl releaseAndClose g

/-! ## §8. Events. -/

/-- `revalidateAdmins` has returned and `tick` has not gone on: microtasks run. -/
def inMicrotasks (g : EventsGateway) : Bool :=
  g.tick.any fun t => match t.stage with
    | .returning _ => true
    | _ => false

/-- The connected socket `id`. -/
def connectedSocket (g : EventsGateway) (id : SocketId) : Option Socket :=
  (g.sockets.get id).filter Socket.connected

/-- The raw connection closes: every socket of it leaves, and the reservation
service's own listener releases. -/
def onRawClose (g : EventsGateway) (id : EngineId) : EventsGateway :=
  let g := g.closeRaw id
  ((g.socketsOf id).foldl leaveNamespace g |>.release id).2

/-- The pending `verify` of a socket is answered. -/
def readVerification (g : EventsGateway) (id : SocketId) (fails : Bool) : EventsGateway :=
  { g with verifying := g.verifying.map fun entry =>
      if entry.1 = id ∧ entry.2.answer = none then (id, entry.2.read g.users fails) else entry }

end EventsGateway

/-- What can happen. -/
inductive Event where
  /-- An Engine.IO connection, and `reserve`. -/
  | rawConnect (id : EngineId)
  | rawClose (id : EngineId)
  /-- The deadline of a reservation. -/
  | reservationDeadline (id : EngineId)
  /-- A socket connects to the namespace. -/
  | connect (id : SocketId) (engineId : EngineId) (cookie : CookieHeader)
  | auth (id : SocketId) (payload : AuthEventValue)
  /-- A client leaves the namespace. -/
  | leave (id : SocketId)
  /-- The deadline of a socket. -/
  | deadline (id : SocketId)
  | expiry (id : SocketId)
  | destroy
  | destroyReservations
  | interval
  | immediate
  /-- The SELECT of a socket's `verify` is answered. -/
  | read (id : SocketId) (fails : Bool)
  /-- The continuation of a socket's `verify`. -/
  | settle (id : SocketId)
  /-- The SELECT of the `verify` that `tick` waits for is answered. -/
  | tickRead (fails : Bool)
  | tickVerified
  | tickReturned
  | tickCollected (snapshot : Option SystemStats)
  /-- The rest of the program writes the table `users`. -/
  | write (users : Users)
  | clock (now : Nat)

namespace EventsGateway

/-- What an event that is a task of its own does. -/
def stepTask (S : Settings) (g : EventsGateway) : Event → Option EventsGateway
  | .rawConnect id => do
    let raws ← g.raws.insert ⟨id, true, false⟩
    return { g with raws := raws }.reserve id
  | .rawClose id => do
    let _ ← g.raws.get id
    return g.onRawClose id
  | .reservationDeadline id => do
    let _ ← g.reservations.get id
    return g.releaseAndClose id
  | .connect id engineId cookie => do
    let raw ← g.raws.get engineId
    guard raw.isOpen
    g.handleConnection S id engineId cookie
  | .auth id payload => do
    let socket ← g.connectedSocket id
    guard socket.listener
    return g.onAuth S socket payload
  | .leave id => do
    let _ ← g.connectedSocket id
    return g.leaveNamespace id
  | .deadline id => do
    let socket ← g.sockets.get id
    guard socket.deadline
    return (g.modify id fun s => { s with deadline := false }).disconnectSilent id
  | .expiry id => do
    let socket ← g.sockets.get id
    let timer ← socket.expiryTimer
    return g.onExpiry socket timer
  | .destroy => return g.onModuleDestroy
  | .destroyReservations => return g.releaseAll
  | .interval => do
    guard g.interval
    return g.startTick S false
  | .immediate => do
    guard (0 < g.immediates)
    return { g with immediates := g.immediates - 1 }.startTick S true
  | .tickCollected snapshot => do
    let tick ← g.tick
    guard (tick.stage = .collecting)
    return g.collected S tick snapshot
  | _ => none

/-- What an event does.  Between the return of `revalidateAdmins` and the rest of
`tick` no task runs. -/
def step (S : Settings) (g : EventsGateway) : Event → Option EventsGateway
  | .read id fails => some (g.readVerification id fails)
  | .settle id => do
    let (_, verification) ← g.verifying.find? fun entry => entry.1 = id
    let answer ← verification.answer
    return { g with verifying := g.verifying.filter fun entry => entry.1 ≠ id }.settle S id
      verification.token answer
  | .tickRead fails => do
    let tick ← g.tick
    match tick.stage with
    | .revalidating verification sockets rest =>
      guard (verification.answer = none)
      return g.await tick (.revalidating (verification.read g.users fails) sockets rest)
    | _ => none
  | .tickVerified => do
    let tick ← g.tick
    match tick.stage with
    | .revalidating verification sockets rest =>
      let answer ← verification.answer
      return g.resumeRevalidation S tick answer sockets rest
    | _ => none
  | .tickReturned => do
    let tick ← g.tick
    match tick.stage with
    | .returning value => return g.resumeTick tick value
    | _ => none
  | .write users => some { g with users := users }
  | .clock now => some { g with now := now }
  | event => if g.inMicrotasks then none else g.stepTask S event

end EventsGateway

/-- The gateway as a machine. -/
def machine (S : Settings) : Machine EventsGateway Event := ⟨EventsGateway.step S⟩

/-- The gateway before anything has happened. -/
def initial (users : Users) (now : Nat) : EventsGateway :=
  { users := users, now := now, raws := .empty, reservations := .empty, sockets := .empty
    tracked := [], room := [], adminCount := 0, pollGeneration := 0, inFlight := false
    pendingImmediate := false, live := true, interval := false, cachedSnapshot := none
    verifying := [], tick := none, immediates := 0, passes := 0, emissions := [] }

end MinePanel.Gateway
