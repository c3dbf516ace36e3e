/-
  MinePanel.Setup.Service
  ───────────────────────
  **THE FIRST ADMINISTRATOR** (`src/setup/setup.service.ts`).

  A setup token opens the first registration.  It is configured, or generated
  once for the life of the process while setup is incomplete.  The
  registration itself is one transaction under an advisory lock: re-read the
  flag, insert the administrator, set the flag.
-/
import MinePanel.Accounts.Action

namespace MinePanel.Accounts

open MinePanel.Db MinePanel.Lib

/-- `SETUP_LOCK_KEY`. -/
def setupLockKey : Nat := 7330

/-- `nextStep`. -/
inductive NextStep where
  | registerAdmin | complete
  deriving Repr, DecidableEq

/-- `SetupStatus`. -/
structure SetupStatus where
  initialAdminCreated : Bool
  nextStep : NextStep
  deriving Repr, DecidableEq

/-- `configuredSetupToken`. -/
def configuredSetupToken (S : Settings) : Option String := truthy S.setupToken

/-- `onModuleInit`: the token of this process, while setup is incomplete. -/
def onModuleInit (S : Settings) : Call Unit :=
  if (configuredSetupToken S).isSome then return ()
  else
    transaction do
      query (.advisoryLock setupLockKey)
      let state ← query .selectSetup
      if state = some true then return ()
      else Prog.perform .getOrGenerateBootstrapToken

/-- `getSetupState`. -/
def getSetupState : Call SetupStatus := do
  query .insertSetup
  match ← query .selectSetup with
  | none => throw (.plain "")
  | some initialAdminCreated =>
    return { initialAdminCreated := initialAdminCreated
             nextStep := if initialAdminCreated then .complete else .registerAdmin }

/-- `expectedSetupToken`. -/
def expectedSetupToken (S : Settings) : Call (Option String) :=
  match configuredSetupToken S with
  | some configured => return some configured
  | none => Prog.perform .bootstrapToken

/-- `setupTokenMatches`. -/
def setupTokenMatches (S : Settings) (supplied expected : String) : Bool :=
  S.sha256 supplied == S.sha256 expected

/-- The values of the first administrator. -/
def firstAdmin (email username passwordHash : String) : NewUser where
  email := email
  username := username
  passwordHash := some passwordHash
  role := .admin
  status := .active

/-- The callback of `initAdminRegister`. -/
def createFirstAdmin (email username passwordHash : String) : Call Unit := do
  query (.advisoryLock setupLockKey)
  query .insertSetup
  match ← query .selectSetup with
  | none => throw (.plain "")
  | some initialAdminCreated =>
    if initialAdminCreated then
      throw (.conflict "SetupAlreadyComplete")
    let _ ← query (.insertUser (firstAdmin email username passwordHash))
    query .completeSetup

/-- `initAdminRegister`. -/
def initAdminRegister (S : Settings) (email username password : String)
    (setupToken : Option String) : Call Unit := do
  let expectedToken ← expectedSetupToken S
  -- without an expected token no token is valid
  if !(expectedToken.any fun expected =>
      (truthy setupToken).any fun supplied => setupTokenMatches S supplied expected) then
    throw (.unauthorized (some "SetupTokenInvalid"))
  assertPasswordWithinByteLimit password
  let passwordHash ← bcryptHash S password
  transaction (createFirstAdmin email username passwordHash)

end MinePanel.Accounts
