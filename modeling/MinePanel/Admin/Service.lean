/-
  MinePanel.Admin.Service
  ───────────────────────
  **ADMINISTRATION** (`src/admin/admin.service.ts`).

  Every change of a role, a status or a grant runs in a transaction that first
  takes one advisory lock, so that the count of active administrators cannot
  change between the check and the update.
-/
import MinePanel.Accounts.Action

namespace MinePanel.Accounts

open MinePanel.Db MinePanel.Lib

/-- `LAST_ADMIN_LOCK_KEY`. -/
def lastAdminLockKey : Nat := 7331

/-- `TEMP_PASSWORD_TTL_MS`. -/
def tempPasswordTtlMs : Nat := 24 * 60 * 60 * 1000

/-- `role = 'ADMIN' AND status = 'ACTIVE'`. -/
def isActiveAdmin (u : User) : Bool := u.role == .admin && u.status == .active

/-- `deactivates`. -/
def deactivates (targetRole : Role) (targetStatus nextStatus : UserStatus) : Bool :=
  targetRole == .admin && targetStatus == .active && nextStatus != .active

/-- `demotes`. -/
def demotes (targetRole : Role) (targetStatus : UserStatus) (nextRole : Role) : Bool :=
  targetRole == .admin && targetStatus == .active && nextRole != .admin

/-- `assertActiveAdminsRemain`. -/
def assertActiveAdminsRemain : Call Unit := do
  let activeAdmins ← query (.countUsers isActiveAdmin)
  if activeAdmins ≤ 1 then
    throw (.conflict "Cannot deactivate the last active admin")

/-- The target of a guarded change, read under the lock. -/
def lockedTarget (userId : UserId) : Call User := do
  query (.advisoryLock lastAdminLockKey)
  match ← query (.selectUser userId) with
  | none => throw (.notFound "User not found")
  | some target => return target

/-- `updateStatus`. -/
def updateStatus (userId : UserId) (status : UserStatus) : Call PublicUser :=
  transaction do
    let target ← lockedTarget userId
    if target.status = status then
      throw (.badRequest "No changes")
    if deactivates target.role target.status status then assertActiveAdminsRemain
    let updated ← query (.updateUser userId (fun _ => true) { status := some status })
    if status = .banned then deleteTokensWhere fun r => r.userId == userId
    toPublicUserOrThrow updated

/-- `updateRole`. -/
def updateRole (userId : UserId) (role : Role) : Call PublicUser :=
  transaction do
    let target ← lockedTarget userId
    if target.role = role then
      throw (.badRequest "No changes")
    if demotes target.role target.status role then assertActiveAdminsRemain
    let updated ← query (.updateUser userId (fun _ => true) { role := some role })
    let _ ← deletePermissionsWhere fun r => r.userId == userId
    toPublicUserOrThrow updated

/-- The `serverId` of a grant: a blank text, or one that names a server. -/
inductive ServerIdText where
  | blank
  | trimmed (id : ServerId)
  deriving Repr, DecidableEq

/-- The server of a grant, which must exist; `none` is a global grant. -/
def grantedServer (rawServerId : Option ServerIdText) : Call (Option ServerId) := do
  match rawServerId with
  | none => return none
  | some .blank => throw (.badRequest "serverId must not be blank")
  | some (.trimmed serverId) =>
    let found ← query (.selectServer serverId)
    if !found then
      throw (.notFound "Server not found")
    return some serverId

/-- `grantModPermission`. -/
def grantModPermission (userId : UserId) (permission : ModPermission)
    (rawServerId : Option ServerIdText) : Call ModPermissionRow :=
  transaction do
    let target ← lockedTarget userId
    if target.role ≠ .mod then
      throw (.badRequest "User is not a MOD")
    let serverId ← grantedServer rawServerId
    match ← query (.insertPermission userId permission serverId) with
    | some inserted => return inserted
    | none =>
      let _ ← query (.selectPermission userId permission serverId)
      throw (.conflict "Permission grant already exists")

/-- `SELECT … FROM users WHERE id = …`, outside a transaction. -/
def existingTarget (userId : UserId) : Call User := do
  match ← query (.selectUser userId) with
  | none => throw (.notFound "User not found")
  | some target => return target

/-- `revokeModPermission`. -/
def revokeModPermission (userId : UserId) (permId : PermissionId) : Call Unit := do
  let _ ← existingTarget userId
  let result ← deletePermissionsWhere fun r => r.id == permId && r.userId == userId
  if result.isEmpty then
    throw (.notFound "Permission grant not found")

/-- `resetPassword`: the temporary password. -/
def resetPassword (S : Settings) (userId : UserId) : Call String := do
  let _ ← existingTarget userId
  let tempPassword ← Prog.perform .random
  let tempPasswordHash ← bcryptHash S tempPassword
  let now ← Prog.perform .now
  transaction do
    let _ ← query (.updateUser userId (fun _ => true)
      { tempPasswordHash := some (some tempPasswordHash)
        tempPasswordExpiresAt := some (some (now + tempPasswordTtlMs))
        mustChangePassword := some true })
    -- the new credential is the only way in
    deleteTokensWhere fun r => r.userId == userId
  return tempPassword

/-- `removeTwoFactor`. -/
def removeTwoFactor (userId : UserId) : Call PublicUser := do
  let target ← existingTarget userId
  if !target.totpEnabled then
    throw (.badRequest "Two-factor authentication is not enabled")
  let updated ← query (.updateUser userId (fun _ => true)
    { totpEnabled := some false, totpSecret := some none, totpBackupCodes := some none })
  toPublicUserOrThrow updated

end MinePanel.Accounts
