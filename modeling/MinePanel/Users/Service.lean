/-
  MinePanel.Users.Service
  ───────────────────────
  **USERS** (`src/users/users.service.ts`).

  Creation, lookup, the profile and the two ways to change a password: forced
  recovery in one transaction, the ordinary change as two statements that
  commit on their own.
-/
import MinePanel.Accounts.Action

namespace MinePanel.Accounts

open MinePanel.Db MinePanel.Lib

/-- `createUser`. -/
def createUser (values : NewUser) : Call Unit := do
  let _ ← query (.insertUser values)
  return ()

/-- `findById`. -/
def findById (id : UserId) : Call (Option User) := query (.selectUser id)

/-- `findByIdentifier`. -/
def findByIdentifier (identifier : String) : Call (Option User) :=
  query (.findUser fun u => u.email == identifier || u.username == identifier)

/-- `updateProfile`: the only editable field is the user name. -/
def updateProfile (userId : UserId) (username : Option String) : Call PublicUser := do
  match ← findById userId with
  | none => throw (.plain "")
  | some userData =>
    match username.filter fun name => decide (name ≠ userData.username) with
    | none => throw (.badRequest "No changes")
    | some name =>
      let updateResult ← query (.updateUser userId (fun _ => true) { username := some name })
      toPublicUserOrThrow updateResult

/-- `updatePassword` of a forced session. -/
def completeRecovery (S : Settings) (userId : UserId) (userData : User)
    (oldPassword newPassword : String) : Call PublicUser := do
  -- the state is still forced, the retained hash matches, the expiry is consumed
  match (truthy userData.tempPasswordHash).filter fun tempPasswordHash =>
      userData.mustChangePassword && userData.tempPasswordExpiresAt.isNone
        && S.compare oldPassword tempPasswordHash with
  | none => throw (.badRequest "Wrong credentials")
  | some tempPasswordHash =>
    let newPwHash ← bcryptHash S newPassword
    let updated ← transaction do
      let updateResult ← query (.updateUser userId
        (fun u => u.mustChangePassword && u.tempPasswordExpiresAt.isNone
          && u.tempPasswordHash == some tempPasswordHash)
        { passwordHash := some (some newPwHash), tempPasswordHash := some none,
          tempPasswordExpiresAt := some none, mustChangePassword := some false })
      match updateResult with
      | none => return none
      | some updateResult =>
        deleteTokensWhere fun r => r.userId == userId
        return some updateResult
    match updated with
    | none => throw (.badRequest "Wrong credentials")
    | some updated => return toPublicUser updated

/-- The DELETE of an ordinary password change: every session of the user, or
every one but the presented. -/
def revokeOtherSessions (S : Settings) (userId : UserId) (refreshTokenId : Option String) :
    Call Unit :=
  match truthy refreshTokenId with
  | some tokenId =>
      deleteTokensWhere fun r => r.userId == userId && r.tokenIdHash != S.sha256 tokenId
  | none => deleteTokensWhere fun r => r.userId == userId

/-- `updatePassword` of an ordinary session: an UPDATE, then a DELETE. -/
def changePassword (S : Settings) (userId : UserId) (userData : User)
    (oldPassword newPassword : String) (refreshTokenId : Option String) : Call PublicUser := do
  if userData.mustChangePassword then
    throw (.badRequest "Wrong credentials")
  match (truthy userData.passwordHash).filter (S.compare oldPassword) with
  | none => throw (.badRequest "Wrong credentials")
  | some _ =>
    let newPwHash ← bcryptHash S newPassword
    let updateResult ← query (.updateUser userId (fun _ => true)
      { passwordHash := some (some newPwHash) })
    let userNoPw ← toPublicUserOrThrow updateResult
    revokeOtherSessions S userId refreshTokenId
    return userNoPw

/-- `updatePassword`. -/
def updatePassword (S : Settings) (userId : UserId) (oldPassword newPassword : String)
    (refreshTokenId : Option String) (temporaryAuth : Bool) : Call PublicUser := do
  assertPasswordWithinByteLimit oldPassword
  assertPasswordWithinByteLimit newPassword
  match ← findById userId with
  | none => throw (.plain "")
  | some userData =>
    if temporaryAuth then completeRecovery S userId userData oldPassword newPassword
    else changePassword S userId userData oldPassword newPassword refreshTokenId

end MinePanel.Accounts
