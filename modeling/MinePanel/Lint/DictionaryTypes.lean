/-
  MinePanel.Lint.DictionaryTypes
  ──────────────────────────────
  **CLASSIFYING TYPES** (`tools/oxlint/anti-slop/shared/dictionary-types.ts`).

  The lint rules look through type aliases and their parameters for dictionaries
  of `unknown`, `any` and the like.  The functions call each other and
  themselves, and nothing in the source bounds their depth; so each is given by
  its body, a program over the calls of all of them, and is run with fuel.

    * `TSType`, `TypeEnvironment`, `createTypeEnvironment` — the declarations;
    * `Call`, `body` — the functions.
-/
import MinePanel.Lib.Recursion

namespace MinePanel.Lint

open MinePanel.Lib

/-! ## §1. Types and declarations. -/

mutual

/-- `ESTree.TSType`, as far as the rules tell types apart. -/
inductive TSType where
  | unknownKeyword
  | anyKeyword
  | objectKeyword
  | neverKeyword
  | stringKeyword
  | numberKeyword
  | symbolKeyword
  /-- A type of another kind, an array or a function or a literal. -/
  | other
  | parenthesizedType (annotated : TSType)
  /-- `readonly` or another operator. -/
  | typeOperator (readonly : Bool) (annotated : TSType)
  | typeLiteral (members : List TSSignature)
  | unionType (types : List TSType)
  | intersectionType (types : List TSType)
  | mappedType (key : String) (constraint : TSType) (annotated : Option TSType)
  /-- The name is absent where it is qualified. -/
  | typeReference (typeName : Option String) (typeArguments : List TSType)

/-- `ESTree.TSSignature`. -/
inductive TSSignature where
  | propertySignature (optional : Bool) (annotated : Option TSType)
  | indexSignature (annotated : Option TSType)
  | other

end

/-- `ESTree.TSTypeParameter`. -/
structure TypeParameter where
  name : String
  defaultType : Option TSType := none

/-- `ESTree.TSTypeAliasDeclaration`. -/
structure TypeAlias where
  name : String
  typeParameters : List TypeParameter := []
  typeAnnotation : TSType

/-- `ESTree.TSInterfaceDeclaration`. -/
structure InterfaceDeclaration where
  name : String
  /-- `extends.length`. -/
  extendsLength : Nat
  members : List TSSignature

/-- A declaration, as far as `createTypeEnvironment` tells them apart. -/
inductive Declaration where
  /-- The local names of its specifiers. -/
  | importDeclaration (names : List String)
  | typeAlias (declaration : TypeAlias)
  | interface (declaration : InterfaceDeclaration)
  | enum (name : String)
  | classOrFunction (name : Option String)
  | other

/-- A statement of the program. -/
inductive Statement where
  | declared (declaration : Declaration)
  /-- `export`, named or default. -/
  | exported (declaration : Option Declaration)

/-- `TypeEnvironment`. -/
structure TypeEnvironment where
  aliases : List TypeAlias := []
  interfaces : List InterfaceDeclaration := []
  shadowedBuiltIns : List String := []

namespace TypeEnvironment

/-- `aliases.get(name)`. -/
def aliasNamed (environment : TypeEnvironment) (name : String) : Option TypeAlias :=
  environment.aliases.find? fun a => a.name == name

/-- `interfaces.get(name)`; empty where it is undefined. -/
def interfacesNamed (environment : TypeEnvironment) (name : String) : List InterfaceDeclaration :=
  environment.interfaces.filter fun i => i.name == name

end TypeEnvironment

/-- `BUILT_INS`. -/
def builtIns : List String :=
  ["Record", "Readonly", "Partial", "Required", "Pick", "Omit", "PropertyKey", "NonNullable"]

/-- `TRANSPARENT_WRAPPERS`. -/
def transparentWrappers : List String := ["Readonly", "Partial", "Required", "NonNullable"]

/-- `declaredStatement`. -/
def declaredStatement : Statement → Option Declaration
  | .declared declaration => some declaration
  | .exported declaration => declaration

/-- Names that hide a built-in type. -/
def shadow (environment : TypeEnvironment) (names : List String) : TypeEnvironment :=
  { environment with
    shadowedBuiltIns := environment.shadowedBuiltIns ++ names.filter fun n => n ∈ builtIns }

/-- One turn of the loop of `createTypeEnvironment`. -/
def addStatement (environment : TypeEnvironment) (statement : Statement) : TypeEnvironment :=
  match declaredStatement statement with
  | some (.importDeclaration names) => shadow environment names
  | some (.typeAlias declaration) =>
      let environment :=
        match environment.aliasNamed declaration.name with
        | none => { environment with aliases := environment.aliases ++ [declaration] }
        | some _ =>
            -- a second declaration only hides the name
            { environment with
              shadowedBuiltIns := environment.shadowedBuiltIns ++ [declaration.name] }
      shadow environment [declaration.name]
  | some (.interface declaration) =>
      shadow { environment with interfaces := environment.interfaces ++ [declaration] }
        [declaration.name]
  | some (.enum name) => shadow environment [name]
  | some (.classOrFunction (some name)) => shadow environment [name]
  | some (.classOrFunction none) => environment
  | some .other => environment
  | none => environment

/-- `createTypeEnvironment`. -/
def createTypeEnvironment (program : List Statement) : TypeEnvironment :=
  program.foldl addStatement {}

/-! ## §2. Looking at a type. -/

/-- `isBuiltIn`. -/
def isBuiltIn (name : String) (environment : TypeEnvironment) : Bool :=
  decide (name ∈ builtIns) && decide (name ∉ environment.shadowedBuiltIns)

/-- `unwrapTransparentType`. -/
def unwrapTransparentType : TSType → TSType
  | .parenthesizedType type => unwrapTransparentType type
  | .typeOperator true type => unwrapTransparentType type
  | type => type

/-- `isUnappliedReferenceTo`. -/
def isUnappliedReferenceTo (type : TSType) (name : String) : Bool :=
  match unwrapTransparentType type with
  | .typeReference (some n) [] => n == name
  | _ => false

/-- `isNeverType`. -/
def isNeverType (type : TSType) : Bool :=
  match unwrapTransparentType type with
  | .neverKeyword => true
  | _ => false

/-- `isEffectivelyEmptyMember`. -/
def isEffectivelyEmptyMember : TSSignature → Bool
  | .propertySignature true (some type) => isNeverType type
  | _ => false

/-- `isEffectivelyEmptyTypeLiteral`. -/
def isEffectivelyEmptyTypeLiteral (members : List TSSignature) : Bool :=
  members.all isEffectivelyEmptyMember

/-- `isEffectivelyEmptyInterface`. -/
def isEffectivelyEmptyInterface (declarations : List InterfaceDeclaration) : Bool :=
  match declarations with
  | [type] => decide (type.extendsLength = 0) && type.members.all isEffectivelyEmptyMember
  | _ => false

/-- `TypeAliasEnvironment`: the arguments of type parameters. -/
abbrev Substitutions := List (String × TSType)

/-- `substitutions.get(name)`; the last one set is the first in the list. -/
def Substitutions.get (substitutions : Substitutions) (name : String) : Option TSType :=
  (substitutions.find? fun s => s.1 == name).map Prod.snd

/-- `ResolvedType`. -/
structure ResolvedType where
  type : TSType
  substitutions : Substitutions

/-- `UnsafeDictionary["unsafeValue"]`. -/
inductive UnsafeValue where
  | any | emptyObject | object | union | unknown
  deriving Repr, DecidableEq

/-- `WideningTargetKind`. -/
inductive WideningTargetKind where
  | anonymousObject | genericContainer | object | openDictionary | unknown
  deriving Repr, DecidableEq

/-- The members of a literal with an index signature. -/
def hasIndexSignature (members : List TSSignature) : Bool :=
  members.any fun member =>
    match member with
    | .indexSignature _ => true
    | _ => false

/-! ## §3. The functions. -/

/-- A call of one of the functions, by what it returns. -/
inductive Call : Type → Type where
  | resolvedSubstitutionArgument (type : TSType) (base : Substitutions) (resolving : List String) :
      Call TSType
  | unsafeDirectValue (type : TSType) (substitutions : Substitutions)
      (resolvingAliases : List String) : Call (Option UnsafeValue)
  | dictionaryValueTypes (type : TSType) (substitutions : Substitutions)
      (resolvingAliases : List String) : Call (List ResolvedType)
  | isBroadMappedKey (type : TSType) (substitutions : Substitutions) : Call Bool
  | classifyAliasBroadTarget (type : TSType) (substitutions : Substitutions)
      (resolvingAliases : List String) : Call (Option WideningTargetKind)
  | classifyUnsafeDictionaryValue (valueType : TSType) : Call (Option UnsafeValue)
  | classifyUnsafeDictionary (type : TSType) : Call (Option UnsafeValue)
  | classifyWideningTarget (type : TSType) : Call (Option WideningTargetKind)

/-- A function body. -/
abbrev Fn (α : Type) := Prog Call Empty α

variable (environment : TypeEnvironment)

/-- `resolvedSubstitutionArgument`. -/
def resolvedSubstitutionArgument (type : TSType) (base : Substitutions)
    (resolving : List String) : Fn TSType :=
  match unwrapTransparentType type with
  | .typeReference (some name) _ =>
      if name ∈ resolving then return type
      else
        match base.get name with
        | none => return type
        | some substitution =>
            Prog.perform (.resolvedSubstitutionArgument substitution base (name :: resolving))
  | _ => return type

/-- The loop of `aliasSubstitution`, over the parameters still to come. -/
def substitute : List TypeParameter → List TSType → Substitutions → Fn (Option Substitutions)
  | [], _, next => return some next
  | parameter :: parameters, arguments, next =>
      match arguments.head?.or parameter.defaultType with
      | none => return none
      | some argument => do
          let resolved ← Prog.perform (.resolvedSubstitutionArgument argument next [])
          substitute parameters arguments.tail ((parameter.name, resolved) :: next)

/-- `aliasSubstitution`. -/
def aliasSubstitution (declaration : TypeAlias) (typeArguments : List TSType)
    (base : Substitutions) : Fn (Option Substitutions) :=
  substitute declaration.typeParameters typeArguments base

/-- `types.some(member => unsafeDirectValue(member, …) !== null)`. -/
def someUnsafe (substitutions : Substitutions) (resolvingAliases : List String) :
    List TSType → Fn Bool
  | [] => return false
  | member :: members => do
      let value ← Prog.perform (.unsafeDirectValue member substitutions resolvingAliases)
      if value.isSome then return true else someUnsafe substitutions resolvingAliases members

/-- `types.map(member => unsafeDirectValue(member, …))`. -/
def mapUnsafe (substitutions : Substitutions) (resolvingAliases : List String) :
    List TSType → Fn (List (Option UnsafeValue))
  | [] => return []
  | member :: members => do
      let value ← Prog.perform (.unsafeDirectValue member substitutions resolvingAliases)
      let values ← mapUnsafe substitutions resolvingAliases members
      return value :: values

/-- `unsafeDirectValue`. -/
def unsafeDirectValue (type : TSType) (substitutions : Substitutions)
    (resolvingAliases : List String) : Fn (Option UnsafeValue) :=
  match unwrapTransparentType type with
  | .unknownKeyword => return some .unknown
  | .anyKeyword => return some .any
  | .objectKeyword => return some .object
  | .typeLiteral members =>
      return if isEffectivelyEmptyTypeLiteral members then some .emptyObject else none
  | .unionType types => do
      let found ← someUnsafe substitutions resolvingAliases types
      return if found then some .union else none
  | .intersectionType types => do
      let unsafeMembers ← mapUnsafe substitutions resolvingAliases types
      if unsafeMembers.contains (some .any) then return some .any
      return if unsafeMembers.all Option.isSome then unsafeMembers.head?.join else none
  | .typeReference (some name) typeArguments =>
      if name ∈ transparentWrappers ∧ isBuiltIn name environment then
        match typeArguments.head? with
        | none => return none
        | some wrapped =>
            Prog.perform (.unsafeDirectValue wrapped substitutions resolvingAliases)
      else
        match substitutions.get name with
        | some substitution =>
            if isUnappliedReferenceTo substitution name then return none
            else Prog.perform (.unsafeDirectValue substitution substitutions resolvingAliases)
        | none =>
          match environment.interfacesNamed name with
          | declaration :: declarations =>
              return if isEffectivelyEmptyInterface (declaration :: declarations)
                then some .emptyObject else none
          | [] =>
            match environment.aliasNamed name with
            | none => return none
            | some declaration =>
                if name ∈ resolvingAliases then return none
                else do
                  match ← aliasSubstitution declaration typeArguments substitutions with
                  | none => return none
                  | some nextSubstitutions =>
                      Prog.perform (.unsafeDirectValue declaration.typeAnnotation nextSubstitutions
                        (name :: resolvingAliases))
  | _ => return none

/-- The types of the index signatures of a literal. -/
def indexTypes (substitutions : Substitutions) (members : List TSSignature) : List ResolvedType :=
  members.filterMap fun member =>
    match member with
    | .indexSignature (some type) => some ⟨type, substitutions⟩
    | _ => none

/-- `dictionaryValueTypes`. -/
def dictionaryValueTypes (type : TSType) (substitutions : Substitutions)
    (resolvingAliases : List String) : Fn (List ResolvedType) :=
  match unwrapTransparentType type with
  | .typeLiteral members => return indexTypes substitutions members
  | .mappedType _ _ annotated =>
      return (annotated.map fun type => ⟨type, substitutions⟩).toList
  | .typeReference (some name) typeArguments =>
      match substitutions.get name with
      | some substitution =>
          if isUnappliedReferenceTo substitution name then return []
          else Prog.perform (.dictionaryValueTypes substitution substitutions resolvingAliases)
      | none =>
        if name ∈ transparentWrappers ∧ isBuiltIn name environment then
          match typeArguments.head? with
          | none => return []
          | some wrapped =>
              Prog.perform (.dictionaryValueTypes wrapped substitutions resolvingAliases)
        else if name = "Record" ∧ isBuiltIn name environment then
          return (typeArguments[1]?.map fun value => ⟨value, substitutions⟩).toList
        else if (name = "Pick" ∨ name = "Omit") ∧ isBuiltIn name environment then
          match typeArguments.head? with
          | none => return []
          | some source =>
              Prog.perform (.dictionaryValueTypes source substitutions resolvingAliases)
        else
          match environment.aliasNamed name with
          | none => return []
          | some declaration =>
              if name ∈ resolvingAliases then return []
              else do
                match ← aliasSubstitution declaration typeArguments substitutions with
                | none => return []
                | some nextSubstitutions =>
                    Prog.perform (.dictionaryValueTypes declaration.typeAnnotation nextSubstitutions
                      (name :: resolvingAliases))
  | _ => return []

/-- `classifyUnsafeDictionaryValue`: the kind of the unsafe value. -/
def classifyUnsafeDictionaryValue (valueType : TSType) : Fn (Option UnsafeValue) :=
  Prog.perform (.unsafeDirectValue valueType [] [])

/-- The loop of `classifyUnsafeDictionary`. -/
def firstUnsafe : List ResolvedType → Fn (Option UnsafeValue)
  | [] => return none
  | valueType :: valueTypes => do
      match ← Prog.perform (.unsafeDirectValue valueType.type valueType.substitutions []) with
      | some unsafeValue => return some unsafeValue
      | none => firstUnsafe valueTypes

/-- `classifyUnsafeDictionary`: the kind of the unsafe value. -/
def classifyUnsafeDictionary (type : TSType) : Fn (Option UnsafeValue) := do
  let valueTypes ← Prog.perform (.dictionaryValueTypes type [] [])
  firstUnsafe valueTypes

/-- `types.every(member => isBroadMappedKey(member, …))`. -/
def everyBroad (substitutions : Substitutions) : List TSType → Fn Bool
  | [] => return true
  | member :: members => do
      let broad ← Prog.perform (.isBroadMappedKey member substitutions)
      if broad then everyBroad substitutions members else return false

/-- `isBroadMappedKey`. -/
def isBroadMappedKey (type : TSType) (substitutions : Substitutions) : Fn Bool :=
  match unwrapTransparentType type with
  | .stringKeyword => return true
  | .numberKeyword => return true
  | .symbolKeyword => return true
  | .unionType types => everyBroad substitutions types
  | .typeReference (some name) _ =>
      let propertyKey := decide (name = "PropertyKey") && isBuiltIn name environment
      match substitutions.get name with
      | some substitution =>
          if isUnappliedReferenceTo substitution name then return propertyKey
          else Prog.perform (.isBroadMappedKey substitution substitutions)
      | none => return propertyKey
  | _ => return false

/-- `classifyAliasBroadTarget`. -/
def classifyAliasBroadTarget (type : TSType) (substitutions : Substitutions)
    (resolvingAliases : List String) : Fn (Option WideningTargetKind) :=
  match unwrapTransparentType type with
  | .unknownKeyword => return some .unknown
  | .objectKeyword => return some .object
  | .typeLiteral members =>
      return if hasIndexSignature members then some .openDictionary else none
  | .mappedType _ constraint _ => do
      let broad ← Prog.perform (.isBroadMappedKey constraint substitutions)
      return if broad then some .openDictionary else none
  | .typeReference (some name) typeArguments =>
      match substitutions.get name with
      | some substitution =>
          if isUnappliedReferenceTo substitution name then return none
          else Prog.perform (.classifyAliasBroadTarget substitution substitutions resolvingAliases)
      | none =>
        if name ∈ transparentWrappers ∧ isBuiltIn name environment then
          match typeArguments.head? with
          | none => return none
          | some wrapped =>
              Prog.perform (.classifyAliasBroadTarget wrapped substitutions resolvingAliases)
        else if name = "Record" ∧ isBuiltIn name environment then
          return some .openDictionary
        else
          match environment.aliasNamed name with
          | none => return none
          | some declaration =>
              if name ∈ resolvingAliases then return none
              else do
                match ← aliasSubstitution declaration typeArguments substitutions with
                | none => return none
                | some nextSubstitutions =>
                    Prog.perform (.classifyAliasBroadTarget declaration.typeAnnotation
                      nextSubstitutions (name :: resolvingAliases))
  | _ => return none

/-- `classifyWideningTarget`. -/
def classifyWideningTarget (type : TSType) : Fn (Option WideningTargetKind) :=
  match unwrapTransparentType type with
  | .unknownKeyword => return some .unknown
  | .objectKeyword => return some .object
  | .typeLiteral members =>
      return if hasIndexSignature members then some .openDictionary
        else if members.isEmpty then none else some .anonymousObject
  | .mappedType _ _ _ => return some .openDictionary
  | .typeReference (some name) typeArguments =>
      if name ∈ transparentWrappers ∧ isBuiltIn name environment then
        match typeArguments.head? with
        | none => return none
        | some wrapped => Prog.perform (.classifyWideningTarget wrapped)
      else if name = "Record" ∧ isBuiltIn name environment then
        return some .openDictionary
      else
        match environment.aliasNamed name with
        | none => return none
        | some declaration => do
            match ← aliasSubstitution declaration typeArguments [] with
            | none => return none
            | some substitutions =>
              if declaration.typeParameters.isEmpty then
                Prog.perform
                  (.classifyAliasBroadTarget declaration.typeAnnotation substitutions [name])
              else
                let valueTypes ← Prog.perform
                  (.dictionaryValueTypes declaration.typeAnnotation substitutions [name])
                return if valueTypes.isEmpty then none else some .genericContainer
  | _ => return none

/-- The body of a call. -/
def body : ∀ β : Type, Call β → Fn β
  | _, .resolvedSubstitutionArgument type base resolving =>
      resolvedSubstitutionArgument type base resolving
  | _, .unsafeDirectValue type substitutions resolvingAliases =>
      unsafeDirectValue environment type substitutions resolvingAliases
  | _, .dictionaryValueTypes type substitutions resolvingAliases =>
      dictionaryValueTypes environment type substitutions resolvingAliases
  | _, .isBroadMappedKey type substitutions => isBroadMappedKey environment type substitutions
  | _, .classifyAliasBroadTarget type substitutions resolvingAliases =>
      classifyAliasBroadTarget environment type substitutions resolvingAliases
  | _, .classifyUnsafeDictionaryValue valueType => classifyUnsafeDictionaryValue valueType
  | _, .classifyUnsafeDictionary type => classifyUnsafeDictionary type
  | _, .classifyWideningTarget type => classifyWideningTarget environment type

end MinePanel.Lint
