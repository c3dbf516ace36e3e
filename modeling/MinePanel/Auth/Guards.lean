/-
  MinePanel.Auth.Guards
  ─────────────────────
  **THE GUARDS OF A ROUTE** (`src/auth/guards`, `src/auth/access-token.service.ts`).

  A request passes the token guard, the role guard and the permission guard
  before its handler runs.  The token guard trusts nothing but the signature:
  role, status and recovery state are read from the row of the user at every
  request.  A read that fails rejects the request.
-/
import MinePanel.Accounts.Action

namespace MinePanel.Accounts

open MinePanel.Db MinePanel.Lib

/-! ## §1. Routes. -/

/-- `request.method`. -/
inductive HttpMethod where
  | get | post | put | patch | delete | other
  deriving Repr, DecidableEq

/-- A route, with what its decorators say. -/
structure Route where
  method : HttpMethod
  /-- `request.path`. -/
  path : String
  /-- `@Public()`. -/
  isPublic : Bool := false
  /-- `@Roles(…)`. -/
  roles : Option (List Role) := none
  /-- `@RequiresPermission(…)`. -/
  permission : Option ModPermission := none
  /-- `request.params.id`. -/
  id : Option ServerId := none
  deriving Repr, DecidableEq

/-- `isPasswordChangeRoute`. -/
def Route.isPasswordChange (r : Route) : Bool :=
  r.method == .patch && r.path == "/api/auth/password"

/-! ## §2. Access tokens. -/

/-- `AccessTokenClaims`, as parsed. -/
structure ParsedAccessClaims where
  sub : UserId
  username : String
  temporaryAuth : Bool
  deriving Repr, DecidableEq

/-- `parseAccessTokenClaims`. -/
def parseAccessTokenClaims (jwt : Jwt) : Option ParsedAccessClaims :=
  match jwt.payload with
  | .access sub username _ temporaryAuth =>
      if 0 < jwt.exp ∧ jwt.exp ≤ maxExpSeconds then some ⟨sub, username, temporaryAuth⟩ else none
  | _ => none

/-- `AccessTokenPrincipal`. -/
structure AccessTokenPrincipal where
  id : UserId
  username : String
  role : Role
  mustChangePassword : Bool
  temporaryAuth : Bool
  deriving Repr, DecidableEq

/-- The claims of a token that `verify` accepts at the time `now`. -/
def accessClaims (raw : RawToken) (now : Timestamp) : Option ParsedAccessClaims :=
  match verifyAsync raw now with
  | .valid jwt => parseAccessTokenClaims jwt
  | _ => none

/-- `AccessTokenService.verify`. -/
def verifyAccessToken (token : RawToken) : Call AccessTokenPrincipal := do
  let now ← Prog.perform .now
  match accessClaims token now with
  | none => throw (.unauthorized none)
  | some payload =>
    -- a failed query fails closed
    let user ← try query (.selectUser payload.sub) catch _ => throw (.unauthorized none)
    match user with
    | none => throw (.unauthorized none)
    | some user =>
      match user.status with
      | .pending => throw (.forbidden "AccountPending")
      | .banned => throw (.forbidden "AccountBanned")
      | .active =>
        return { id := payload.sub, username := payload.username, role := user.role
                 mustChangePassword := user.mustChangePassword
                 temporaryAuth := payload.temporaryAuth }

/-! ## §3. The guards. -/

/-- `GuardedUser`: `request.user`. -/
structure GuardedUser where
  id : UserId
  username : String
  role : Role
  temporaryAuth : Bool
  deriving Repr, DecidableEq

/-- `error instanceof ForbiddenException`. -/
def isForbidden : Exn → Bool
  | .forbidden _ => true
  | _ => false

/-- What `JwtAuthGuard` refuses of a verified principal. -/
def recoveryRefusal (route : Route) (principal : AccessTokenPrincipal) : Option Exn :=
  if principal.mustChangePassword then
    if !principal.temporaryAuth then some (.unauthorized none)
    else if !route.isPasswordChange then some (.forbidden "PasswordChangeRequired")
    else none
  else if principal.temporaryAuth then some (.unauthorized none)
  else none

/-- The `try` block of `JwtAuthGuard.canActivate`. -/
def guardedUser (route : Route) (token : RawToken) : Call GuardedUser := do
  let principal ← verifyAccessToken token
  match recoveryRefusal route principal with
  | some e => throw e
  | none =>
    return { id := principal.id, username := principal.username, role := principal.role
             temporaryAuth := principal.temporaryAuth }

/-- `JwtAuthGuard.canActivate`: the user it sets, none on a public route. -/
def jwtAuthGuard (route : Route) (cookie : Option RawToken) : Call (Option GuardedUser) := do
  if route.isPublic then return none
  match cookie with
  | none => throw (.unauthorized none)
  | some .empty => throw (.unauthorized none)
  | some token =>
    try some <$> guardedUser route token
    catch error =>
      if isForbidden error then throw error else throw (.unauthorized none)

/-- `RolesGuard.canActivate`. -/
def rolesGuard (route : Route) (user : Option GuardedUser) : Call Unit :=
  match route.roles with
  | none => return ()
  | some roles =>
    match user with
    | none => throw (.forbidden "Forbidden")
    | some user =>
      if user.role = .admin ∨ user.role ∈ roles then return ()
      else throw (.forbidden "Forbidden")

/-- The grants `PermissionsGuard` looks for: of the user, global or of the
server of the route. -/
def grantCovers (userId : UserId) (permission : ModPermission) (serverId : Option ServerId)
    (r : ModPermissionRow) : Bool :=
  r.userId == userId && r.permission == permission &&
    (r.serverId.isNone || (serverId.isSome && r.serverId == serverId))

/-- `PermissionsGuard.canActivate`. -/
def permissionsGuard (route : Route) (user : Option GuardedUser) : Call Unit :=
  match route.permission with
  | none => return ()
  | some permission =>
    match user with
    | none => throw (.forbidden "Forbidden")
    | some user =>
      if user.role = .admin then return ()
      else if user.role ≠ .mod then throw (.forbidden "Forbidden")
      else do
        let row ← try query (.findPermission (grantCovers user.id permission route.id))
          catch _ => throw (.serviceUnavailable "Permission check unavailable")
        match row with
        | none => throw (.forbidden "Forbidden")
        | some _ => return ()

end MinePanel.Accounts
