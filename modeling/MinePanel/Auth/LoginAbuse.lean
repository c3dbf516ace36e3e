/-
  MinePanel.Auth.LoginAbuse
  ─────────────────────────
  **LOGIN THROTTLING** (`src/auth/login-abuse.service.ts`) and the counters of
  wrong two-factor codes (`twoFactorFailures` of `src/auth/auth.service.ts`).

  Both live in the memory of the process and are updated between two awaits, so
  each of their operations is one step.
-/
import MinePanel.Lib.OrderedMap
import MinePanel.Db.Schema

namespace MinePanel.Accounts

open MinePanel.Db MinePanel.Lib

/-! ## §1. Text. -/

/-- The text functions of JavaScript and the digest the services use. -/
structure Text where
  /-- `crypto.createHash('sha256').update(text).digest('hex')`. -/
  sha256 : String → String
  /-- `String.prototype.trim`. -/
  trim : String → String
  /-- `String.prototype.toLowerCase`. -/
  toLowerCase : String → String

/-- How many UTF-16 units a character takes. -/
def units (c : Char) : Nat := if c.toNat < 0x10000 then 1 else 2

/-- The characters that fit into `n` UTF-16 units. -/
def takeUnits : Nat → List Char → List Char
  | _, [] => []
  | n, c :: cs => if units c ≤ n then c :: takeUnits (n - units c) cs else []

/-- `text.slice(0, n)`. -/
def slice (text : String) (n : Nat) : String := String.ofList (takeUnits n text.toList)

/-! ## §2. Login failures. -/

/-- `FAILURE_WINDOW_MS`. -/
def failureWindowMs : Nat := 15 * 60 * 1000

/-- `PAIR_FAILURE_LIMIT`. -/
def pairFailureLimit : Nat := 5

/-- `MAX_PAIR_ENTRIES`. -/
def maxPairEntries : Nat := 20000

/-- `MAX_ACCOUNT_ENTRIES`. -/
def maxAccountEntries : Nat := 5000

/-- `FailureEntry`. -/
structure FailureEntry where
  failures : Nat
  firstFailureAt : Timestamp
  lastFailureAt : Timestamp
  deriving Repr, DecidableEq

/-- `LoginAttemptContext`. -/
structure LoginAttemptContext where
  identifier : String
  source : String
  deriving Repr, DecidableEq

/-- The two maps of `LoginAbuseService`. -/
structure LoginAbuse where
  pairFailures : OrderedMap String FailureEntry
  accountFailures : OrderedMap String FailureEntry

namespace LoginAbuse

/-- No failure yet. -/
def empty : LoginAbuse := ⟨Table.empty, Table.empty⟩

/-- `normalize`. -/
def normalize (T : Text) (value : String) : String := slice (T.toLowerCase (T.trim value)) 254

/-- `pairKey`. -/
def pairKey (T : Text) (context : LoginAttemptContext) : String :=
  normalize T context.identifier ++ "\x00" ++ T.sha256 (slice context.source 256)

/-- Entries whose last failure has left the window. -/
def pruned (now : Timestamp) (entries : OrderedMap String FailureEntry) :
    OrderedMap String FailureEntry :=
  entries.remove fun r => decide (failureWindowMs ≤ now - r.2.lastFailureAt)

/-- `prune`. -/
def prune (a : LoginAbuse) (now : Timestamp) : LoginAbuse :=
  ⟨pruned now a.pairFailures, pruned now a.accountFailures⟩

/-- `bump`. -/
def bump (entries : OrderedMap String FailureEntry) (key : String) (now : Timestamp)
    (maxEntries : Nat) : OrderedMap String FailureEntry :=
  let entry :=
    match entries.find key with
    | some previous =>
        if now - previous.firstFailureAt < failureWindowMs then previous else ⟨0, now, now⟩
    | none => ⟨0, now, now⟩
  (entries.set key ⟨entry.failures + 1, entry.firstFailureAt, now⟩).shrink maxEntries

/-- `assertAllowed`: whether the attempt is let through, and the pruned maps.
The delay of an attempt that is let through only costs time. -/
def assertAllowed (T : Text) (a : LoginAbuse) (context : LoginAttemptContext) (now : Timestamp) :
    Bool × LoginAbuse :=
  let a := a.prune now
  let limited :=
    (a.pairFailures.find (pairKey T context)).any fun pair =>
      decide (pairFailureLimit ≤ pair.failures)
  (!limited, a)

/-- `recordFailure`. -/
def recordFailure (T : Text) (a : LoginAbuse) (context : LoginAttemptContext) (now : Timestamp) :
    LoginAbuse :=
  let a := a.prune now
  ⟨bump a.pairFailures (pairKey T context) now maxPairEntries,
   bump a.accountFailures (normalize T context.identifier) now maxAccountEntries⟩

/-- `recordSuccess`. -/
def recordSuccess (T : Text) (a : LoginAbuse) (context : LoginAttemptContext) : LoginAbuse :=
  let accountKey := normalize T context.identifier
  ⟨a.pairFailures.remove fun r => r.1.startsWith (accountKey ++ "\x00"),
   a.accountFailures.delete accountKey⟩

end LoginAbuse

/-! ## §3. Wrong two-factor codes. -/

/-- `TWO_FACTOR_FAILURE_LIMIT`. -/
def twoFactorFailureLimit : Nat := 5

/-- `TWO_FACTOR_ATTEMPT_WINDOW_MS`. -/
def twoFactorAttemptWindowMs : Nat := 10 * 60 * 1000

/-- `TWO_FACTOR_LOCKOUT_MS`. -/
def twoFactorLockoutMs : Nat := 15 * 60 * 1000

/-- `TwoFactorFailure`. -/
structure TwoFactorFailure where
  failures : Nat
  firstFailureAt : Timestamp
  lockedUntil : Option Timestamp
  deriving Repr, DecidableEq

/-- `twoFactorFailures`. -/
abbrev TwoFactorFailures := OrderedMap UserId TwoFactorFailure

namespace TwoFactorFailures

/-- `assertTwoFactorNotLocked`: whether the account is locked; a lock that has
run out is forgotten. -/
def assertNotLocked (m : TwoFactorFailures) (userId : UserId) (now : Timestamp) :
    Bool × TwoFactorFailures :=
  match (m.find userId).bind TwoFactorFailure.lockedUntil with
  | none => (false, m)
  | some lockedUntil =>
      if now < lockedUntil then (true, m) else (false, OrderedMap.delete m userId)

/-- `recordTwoFactorFailure`. -/
def recordFailure (m : TwoFactorFailures) (userId : UserId) (now : Timestamp) :
    TwoFactorFailures :=
  let activeFailure :=
    (m.find userId).filter fun previous =>
      decide (now - previous.firstFailureAt < twoFactorAttemptWindowMs)
  let failures := (activeFailure.map TwoFactorFailure.failures).getD 0 + 1
  m.set userId
    { failures := failures
      firstFailureAt := (activeFailure.map TwoFactorFailure.firstFailureAt).getD now
      lockedUntil :=
        if twoFactorFailureLimit ≤ failures then some (now + twoFactorLockoutMs) else none }

end TwoFactorFailures

end MinePanel.Accounts
