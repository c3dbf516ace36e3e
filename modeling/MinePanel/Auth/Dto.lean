/-
  MinePanel.Auth.Dto
  ──────────────────
  **WHAT A REQUEST BODY MUST BE** (`src/auth/dto/register.dto.ts`,
  `login.dto.ts`, `editUser.dto.ts`; the `ValidationPipe` of `src/main.ts`).

  The pipe turns a body into a DTO: first the transforms run (`trim`, then
  `toLowerCase`), then the validators look at what came out of them.  A body
  with a property that the DTO does not declare is refused.  The services see
  only DTOs, never a body.
-/
import MinePanel.Accounts.System

namespace MinePanel.Accounts

open MinePanel.Db MinePanel.Lib

/-! ## §1. Bodies. -/

/-- A property of a JSON body. -/
inductive Field where
  | missing
  | null
  | text (value : String)
  /-- A number, a Boolean, an array or an object. -/
  | other
  deriving Repr, DecidableEq

/-- A body, as far as the DTOs below know its properties. -/
structure Body where
  email : Field := .missing
  username : Field := .missing
  identifier : Field := .missing
  password : Field := .missing
  /-- It has a property that none of them declares. -/
  unknown : Bool := false
  deriving Repr, DecidableEq

namespace Field

/-- The property is not there. -/
def isMissing : Field → Bool
  | .missing => true
  | _ => false

/-- A text. -/
def asText : Field → Option String
  | .text value => some value
  | _ => none

end Field

/-- `value.trim().toLowerCase()`. -/
def canonical (T : Text) (value : String) : String := T.toLowerCase (T.trim value)

/-- `@Transform(({ value }) => value?.trim().toLowerCase())` of a property that
must not be empty: what is no text has no `trim`, or fails `IsNotEmpty`. -/
def Field.transformed (T : Text) (f : Field) : Option String := f.asText.map (canonical T)

/-! ## §2. Validators. -/

/-- What the services use of `class-validator`. -/
structure Validators where
  /-- `IsEmail`. -/
  isEmail : String → Bool
  /-- The length that `MinLength` and `MaxLength` compare. -/
  length : String → Nat

namespace Validators

variable (V : Validators)

/-- `@MinLength(min)` with `@MaxLength(max)`. -/
def isLength (min max : Nat) (value : String) : Bool :=
  decide (min ≤ V.length value) && decide (V.length value ≤ max)

/-- `[a-zA-Z0-9_]`. -/
def isWordChar (c : Char) : Bool := c.isAlphanum || c == '_'

/-- `@Matches(/^[a-zA-Z0-9_]+$/)`. -/
def isWord (value : String) : Bool := decide (value ≠ "") && value.toList.all isWordChar

/-- The validators of an `email`. -/
def email (value : String) : Bool :=
  decide (value ≠ "") && V.isEmail value && decide (V.length value ≤ 254)

/-- The validators of a `username`. -/
def username (value : String) : Bool :=
  decide (value ≠ "") && V.isLength 3 32 value && isWord value

/-- The validators of an `identifier`. -/
def identifier (value : String) : Bool := decide (value ≠ "") && V.isLength 3 254 value

/-- The validators of a `password`. -/
def password (value : String) : Bool :=
  decide (value ≠ "") && decide (8 ≤ V.length value) && isPasswordWithinByteLimit value

end Validators

/-! ## §3. The DTOs. -/

/-- `CreateUserDto`. -/
structure CreateUserDto where
  email : String
  username : String
  password : String
  deriving Repr, DecidableEq

/-- `LoginUserDto`. -/
structure LoginUserDto where
  identifier : String
  password : String
  deriving Repr, DecidableEq

/-- `EditUserDto`. -/
structure EditUserDto where
  username : Option String
  deriving Repr, DecidableEq

variable (V : Validators) (T : Text)

/-- The pipe in front of `register` and of the setup. -/
def createUserDto (b : Body) : Option CreateUserDto := do
  let email ← (b.email.transformed T).filter V.email
  let username ← (b.username.transformed T).filter V.username
  let password ← b.password.asText.filter V.password
  if b.identifier.isMissing && !b.unknown then some ⟨email, username, password⟩ else none

/-- The pipe in front of `login`. -/
def loginUserDto (b : Body) : Option LoginUserDto := do
  let identifier ← (b.identifier.transformed T).filter V.identifier
  let password ← b.password.asText.filter V.password
  if b.email.isMissing && b.username.isMissing && !b.unknown then some ⟨identifier, password⟩
  else none

/-- An optional name; `null` becomes `undefined`. -/
def optionalUsername : Field → Option (Option String)
  | .missing => some none
  | .null => some none
  | f => ((f.transformed T).filter V.username).map some

/-- The pipe in front of `editUserProfile`. -/
def editUserDto (b : Body) : Option EditUserDto := do
  let username ← optionalUsername V T b.username
  if b.email.isMissing && b.identifier.isMissing && b.password.isMissing && !b.unknown then
    some ⟨username⟩
  else none

/-- The body of a request gives the call its arguments. -/
def Op.isPiped (b : Body) : Op → Bool
  | .register email username password =>
      decide (createUserDto V T b = some ⟨email, username, password⟩)
  | .initAdminRegister email username password _ =>
      decide (createUserDto V T b = some ⟨email, username, password⟩)
  | .login identifier password _ => decide (loginUserDto V T b = some ⟨identifier, password⟩)
  | .editProfile _ username => decide (editUserDto V T b = some ⟨username⟩)
  | _ => true

end MinePanel.Accounts
