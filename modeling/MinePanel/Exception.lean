/-
  MinePanel.Exception
  ───────────────────
  **WHAT A CALL CAN THROW.**

  The Nest exceptions the services throw, by class and text, and the two
  database failures they let through.  Only the class is ever inspected by the
  code (`instanceof`); the texts are what the client reads.
-/
import Mathlib.Data.Rat.Floor

namespace MinePanel

/-- The resource an admission check ran out of. -/
inductive Resource where
  | disk | memory
  deriving Repr, DecidableEq

/-- The `details` of an `InsufficientResources` error. -/
structure ResourceDetails where
  resource : Resource
  availableMb : Nat
  requiredMb : Nat
  totalMb : Nat
  deriving Repr, DecidableEq

/-- A thrown exception. -/
inductive Exn where
  | badRequest (message : String)
  /-- `UnauthorizedException`, with its message or machine code if it has one. -/
  | unauthorized (body : Option String)
  | forbidden (error : String)
  | notFound (message : String)
  | conflict (message : String)
  /-- 422 `InsufficientResources`. -/
  | insufficientResources (message : String) (details : ResourceDetails)
  | tooManyRequests (message : String)
  | internalServerError (message : String)
  | serviceUnavailable (message : String)
  | rconUnavailable (message : String)
  /-- A PostgreSQL unique violation (SQLSTATE 23505) nobody caught. -/
  | uniqueViolation (column : String)
  /-- Any other failed statement. -/
  | statementFailed
  /-- A plain `Error`, with its message if it has one. -/
  | plain (message : String)
  deriving Repr, DecidableEq

namespace Exn

/-- `error instanceof ServiceUnavailableException`. -/
def isServiceUnavailable : Exn → Bool
  | .serviceUnavailable _ => true
  | _ => false

/-- `error instanceof NotFoundException`. -/
def isNotFound : Exn → Bool
  | .notFound _ => true
  | _ => false

/-- A memory rejection: 422 with `resource: 'memory'`. -/
def isMemoryShortage : Exn → Bool
  | .insufficientResources _ d => d.resource == .memory
  | _ => false

end Exn

/-! ## Numbers as JavaScript sees them. -/

/-- A JavaScript number: what `Number(raw)` yields. -/
inductive JsNumber where
  | nan
  | infinite (negative : Bool)
  | finite (q : ℚ)
  deriving DecidableEq

namespace JsNumber

/-- The value, where it is a whole number. -/
def toInt? : JsNumber → Option Int
  | .finite q => if q.den = 1 then some q.num else none
  | _ => none

/-- `Number.MAX_SAFE_INTEGER`. -/
def maxSafeInteger : Nat := 2 ^ 53 - 1

/-- `Number.isSafeInteger`. -/
def isSafeInteger (x : JsNumber) : Bool :=
  match x.toInt? with
  | some n => n.natAbs ≤ maxSafeInteger
  | none => false

end JsNumber

end MinePanel
