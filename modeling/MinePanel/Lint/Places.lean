/-
  MinePanel.Lint.Places
  ─────────────────────
  **WHERE A TYPE LEADS.**

  The declarations that stand behind a type, without running anything: the parts
  that are read of a type, the arguments its parameters stand for, and the
  aliases it refers to, under the bindings of their parameters.  A `Place` is a
  type with the bindings and the expanded aliases it is read under.

    * `standsFor`, `bindings` — what the parameters of an alias are bound to;
    * `Place.next` — the places a place leads to;
    * `Visited` — **THE PLACES OF A CLASSIFICATION**;
    * `reached_of_invokes` — the functions come to no others.
-/
import MinePanel.Lint.DictionaryTypes

namespace MinePanel.Lint

open MinePanel.Lib Recursion Prog

/-! ## §1. The arguments of an alias. -/

/-- The argument a bare name is bound to; a name is followed once. -/
def follow (base : Substitutions) (type : TSType) (resolving : List String) :
    Option (TSType × List String) :=
  match unwrapTransparentType type with
  | .typeReference (some name) _ =>
      if name ∈ resolving then none
      else (base.get name).map fun substitution => (substitution, name :: resolving)
  | _ => none

/-- The type that is left after that many turns. -/
def followed (base : Substitutions) : Nat → TSType → List String → TSType
  | 0, type, _ => type
  | turns + 1, type, resolving =>
      match follow base type resolving with
      | none => type
      | some (substitution, resolving) => followed base turns substitution resolving

/-- What an argument stands for under the bindings: bare names are followed to the end. -/
def standsFor (base : Substitutions) (argument : TSType) : TSType :=
  followed base base.length argument []

/-- The bindings of an alias: its parameters are bound one after the other. -/
def bindings : List TypeParameter → List TSType → Substitutions → Option Substitutions
  | [], _, next => some next
  | parameter :: parameters, arguments, next =>
      match arguments.head?.or parameter.defaultType with
      | none => none
      | some argument =>
          bindings parameters arguments.tail ((parameter.name, standsFor next argument) :: next)

/-- The arguments, with the bindings they are looked up in. -/
def lookups : List TypeParameter → List TSType → Substitutions → List (TSType × Substitutions)
  | [], _, _ => []
  | parameter :: parameters, arguments, next =>
      match arguments.head?.or parameter.defaultType with
      | none => []
      | some argument =>
          (argument, next) ::
            lookups parameters arguments.tail ((parameter.name, standsFor next argument) :: next)

/-- One bare name after the other. -/
def Follows (base : Substitutions) (q q' : TSType × List String) : Prop :=
  follow base q.1 q.2 = some q'

/-! ## §2. Places. -/

/-- The functions that read types. -/
inductive Reader where
  | unsafeValue | valueTypes | broadTarget | broadKey | wideningTarget
  deriving Repr, DecidableEq

/-- Who reads what an alias stands for. -/
def Reader.inside (reader : Reader) (declaration : TypeAlias) : Reader :=
  match reader with
  | .wideningTarget => if declaration.typeParameters.isEmpty then .broadTarget else .valueTypes
  | reader => reader

/-- A type, with what it is read under. -/
structure Place where
  reader : Reader
  type : TSType
  substitutions : Substitutions := []
  resolvingAliases : List String := []

namespace Place

/-- Another type in its place. -/
def withType (p : Place) (type : TSType) : Place := { p with type := type }

/-- The call that reads it. -/
def call (p : Place) : Site Call :=
  match p.reader with
  | .unsafeValue => ⟨_, .unsafeDirectValue p.type p.substitutions p.resolvingAliases⟩
  | .valueTypes => ⟨_, .dictionaryValueTypes p.type p.substitutions p.resolvingAliases⟩
  | .broadTarget => ⟨_, .classifyAliasBroadTarget p.type p.substitutions p.resolvingAliases⟩
  | .broadKey => ⟨_, .isBroadMappedKey p.type p.substitutions⟩
  | .wideningTarget => ⟨_, .classifyWideningTarget p.type⟩

variable (environment : TypeEnvironment) (p : Place)

/-- Whether a built-in type is looked into; but for `unsafeDirectValue`, a
parameter may have taken its name. -/
def wraps (name : String) : Bool :=
  isBuiltIn name environment &&
    match p.reader with
    | .unsafeValue => decide (name ∈ transparentWrappers)
    | .valueTypes => (p.substitutions.get name).isNone &&
        (decide (name ∈ transparentWrappers) || decide (name = "Pick" ∨ name = "Omit"))
    | .broadTarget => (p.substitutions.get name).isNone && decide (name ∈ transparentWrappers)
    | .broadKey => false
    | .wideningTarget => decide (name ∈ transparentWrappers)

/-- Whether the reading ends with the name, declared or not. -/
def endsAt (name : String) : Bool :=
  match p.reader with
  | .unsafeValue => !(environment.interfacesNamed name).isEmpty
  | .valueTypes => decide (name = "Record") && isBuiltIn name environment
  | .broadTarget => decide (name = "Record") && isBuiltIn name environment
  | .broadKey => true
  | .wideningTarget => decide (name = "Record") && isBuiltIn name environment

/-- The parts that are read of the type. -/
def parts : List TSType :=
  match p.reader, unwrapTransparentType p.type with
  | .unsafeValue, .unionType types => types
  | .unsafeValue, .intersectionType types => types
  | .broadKey, .unionType types => types
  | _, .typeReference (some name) typeArguments =>
      if p.wraps environment name then typeArguments.head?.toList else []
  | _, _ => []

/-- The parameter whose argument is read; one that is bound to its own bare name is not. -/
def parameter : Option String :=
  match unwrapTransparentType p.type with
  | .typeReference (some name) _ =>
      if p.wraps environment name then none
      else
        match p.substitutions.get name with
        | none => none
        | some argument => if isUnappliedReferenceTo argument name then none else some name
  | _ => none

/-- The alias that is expanded, and its arguments. -/
def expanded : Option (TypeAlias × List TSType) :=
  match unwrapTransparentType p.type with
  | .typeReference (some name) typeArguments =>
      if p.wraps environment name || (p.substitutions.get name).isSome ||
          p.endsAt environment name || decide (name ∈ p.resolvingAliases) then none
      else (environment.aliasNamed name).map fun declaration => (declaration, typeArguments)
  | _ => none

/-- The place that expanding it leads to. -/
def expansion : Option Place :=
  (p.expanded environment).bind fun reference =>
    (bindings reference.1.typeParameters reference.2 p.substitutions).map fun next =>
      ⟨p.reader.inside reference.1, TypeAlias.typeAnnotation reference.1, next,
        reference.1.name :: p.resolvingAliases⟩

/-- The key of a mapped type. -/
def key : Option Place :=
  match p.reader, unwrapTransparentType p.type with
  | .broadTarget, .mappedType _ constraint _ => some ⟨.broadKey, constraint, p.substitutions, []⟩
  | _, _ => none

/-- The places that reading it leads to. -/
def next : List Place :=
  (p.parts environment).map p.withType ++
    ((p.parameter environment).bind p.substitutions.get).toList.map p.withType ++
    (p.expansion environment).toList ++ p.key.toList

/-- The arguments that are looked up, and in which bindings. -/
def arguments : List (TSType × Substitutions) :=
  match p.expanded environment with
  | none => []
  | some reference => lookups reference.1.typeParameters reference.2 p.substitutions

/-- The types of its values. -/
def values : List ResolvedType :=
  match p.reader, unwrapTransparentType p.type with
  | .valueTypes, .typeLiteral members => indexTypes p.substitutions members
  | .valueTypes, .mappedType _ _ annotated =>
      (annotated.map fun type => ⟨type, p.substitutions⟩).toList
  | .valueTypes, .typeReference (some name) typeArguments =>
      if p.endsAt environment name && (p.substitutions.get name).isNone then
        (typeArguments[1]?.map fun value => ⟨value, p.substitutions⟩).toList
      else []
  | _, _ => []

/-- One place leads to another. -/
def Leads (p q : Place) : Prop := q ∈ p.next environment

end Place

variable (environment : TypeEnvironment)

/-- Where the functions that are exported begin. -/
def Place.start : Site Call → Option Place
  | ⟨_, .classifyUnsafeDictionaryValue type⟩ => some { reader := .unsafeValue, type := type }
  | ⟨_, .classifyUnsafeDictionary type⟩ => some { reader := .valueTypes, type := type }
  | ⟨_, .classifyWideningTarget type⟩ => some { reader := .wideningTarget, type := type }
  | _ => none

/-- **The places of a classification**: those its declarations lead to from the
type.  The values of a dictionary are read on their own. -/
inductive Visited : Site Call → Place → Prop where
  | start {c : Site Call} {p : Place} : Place.start c = some p → Visited c p
  | value {type : TSType} {p : Place} {v : ResolvedType} :
      Visited ⟨_, .classifyUnsafeDictionary type⟩ p → v ∈ p.values environment →
      Visited ⟨_, .classifyUnsafeDictionary type⟩
        { reader := .unsafeValue, type := v.type, substitutions := v.substitutions }
  | next {c : Site Call} {p q : Place} : Visited c p → p.Leads environment q → Visited c q

/-- What the calls of a place are: the look-ups of its arguments, and the places
it leads to. -/
def Goes (p : Place) (d : Site Call) : Prop :=
  (∃ a ∈ p.arguments environment, d = ⟨_, .resolvedSubstitutionArgument a.1 a.2 []⟩) ∨
    ∃ q, p.Leads environment q ∧ d = q.call

section Contracts

variable {environment : TypeEnvironment}

variable {P : Site Call → Prop}

/-- Expanding an alias resolves its arguments. -/
theorem Goes.lookup {p : Place} {reference : TypeAlias × List TSType}
    (h : p.expanded environment = some reference) {l : TSType × Substitutions}
    (hl : l ∈ lookups reference.1.typeParameters reference.2 p.substitutions) :
    Goes environment p ⟨_, .resolvedSubstitutionArgument l.1 l.2 []⟩ := by
  refine .inl ⟨l, ?_, rfl⟩
  unfold Place.arguments
  rw [h]
  exact hl

/-- A place carries what its call does, and nothing else. -/
structure Place.Plain (p : Place) : Prop where
  key : p.reader = .broadKey → p.resolvingAliases = []
  target : p.reader = .wideningTarget → p.substitutions = [] ∧ p.resolvingAliases = []

/-- How a place leads to another: to a part of its type, to the argument of a
parameter, to the expansion of an alias, or to the key of a mapped type. -/
theorem Place.leads_cases {p q : Place} (h : p.Leads environment q) :
    (∃ part ∈ p.parts environment, q = p.withType part) ∨
    (∃ name argument, p.parameter environment = some name ∧
      p.substitutions.get name = some argument ∧ q = p.withType argument) ∨
    (∃ reference next, p.expanded environment = some reference ∧
      bindings reference.1.typeParameters reference.2 p.substitutions = some next ∧
      q = ⟨p.reader.inside reference.1, TypeAlias.typeAnnotation reference.1, next,
        reference.1.name :: p.resolvingAliases⟩) ∨
    p.key = some q := by
  unfold Place.Leads Place.next at h
  simp only [List.mem_append] at h
  rcases h with ((h | h) | h) | h
  · obtain ⟨part, hpart, rfl⟩ := List.mem_map.mp h
    exact .inl ⟨part, hpart, rfl⟩
  · obtain ⟨argument, hargument, rfl⟩ := List.mem_map.mp h
    obtain ⟨name, hname, hget⟩ := Option.bind_eq_some_iff.mp (Option.mem_toList.mp hargument)
    exact .inr (.inl ⟨name, argument, hname, hget, rfl⟩)
  · obtain ⟨reference, hexpanded, hq⟩ := Option.bind_eq_some_iff.mp (Option.mem_toList.mp h)
    obtain ⟨next, hnext, rfl⟩ := Option.map_eq_some_iff.mp hq
    exact .inr (.inr (.inl ⟨reference, next, hexpanded, hnext, rfl⟩))
  · exact .inr (.inr (.inr (Option.mem_toList.mp h)))

/-- A reader of keys expands no alias. -/
theorem Place.expanded_broadKey {p : Place} (h : p.reader = .broadKey) :
    p.expanded environment = none := by
  unfold Place.expanded
  split
  next name _ _ =>
    have hends : p.endsAt environment name = true := by rw [Place.endsAt, h]
    rw [hends, if_pos (by simp)]
  next => rfl

/-- Only a broad target asks about a key, and the key has no alias expanded. -/
theorem Place.key_eq {p q : Place} (h : p.key = some q) :
    p.reader = .broadTarget ∧ q.reader = .broadKey ∧ q.resolvingAliases = [] := by
  unfold Place.key at h
  split at h
  next hreader _ =>
    cases h
    exact ⟨hreader, rfl, rfl⟩
  next => cases h

/-- Only two readers carry expanded aliases. -/
theorem Place.Leads.plain {p q : Place} (h : p.Leads environment q) (hp : p.Plain) : q.Plain := by
  rcases Place.leads_cases h with ⟨part, -, rfl⟩ | ⟨name, argument, -, -, rfl⟩ |
    ⟨reference, next, hexpanded, -, rfl⟩ | hkey
  · exact ⟨hp.key, hp.target⟩
  · exact ⟨hp.key, hp.target⟩
  · have hreader : p.reader.inside reference.1 ≠ .broadKey ∧
        p.reader.inside reference.1 ≠ .wideningTarget := by
      cases hreader : p.reader with
      | broadKey =>
          rw [Place.expanded_broadKey hreader] at hexpanded
          cases hexpanded
      | wideningTarget =>
          unfold Reader.inside
          split
          next => split <;> exact ⟨by decide, by decide⟩
          next hne => exact absurd rfl hne
      | unsafeValue => simp [Reader.inside]
      | valueTypes => simp [Reader.inside]
      | broadTarget => simp [Reader.inside]
    exact ⟨fun h => absurd h hreader.1, fun h => absurd h hreader.2⟩
  · obtain ⟨-, hreader, hresolving⟩ := Place.key_eq hkey
    refine ⟨fun _ => hresolving, fun h => ?_⟩
    rw [hreader] at h
    cases h

theorem Visited.plain {c : Site Call} {p : Place} (h : Visited environment c p) : p.Plain := by
  induction h with
  | start hp =>
      unfold Place.start at hp
      split at hp <;> cases hp <;> exact ⟨fun _ => rfl, fun _ => ⟨rfl, rfl⟩⟩
  | value => exact ⟨fun _ => rfl, fun h => by cases h⟩
  | next _ hleads ih => exact hleads.plain ih

end Contracts

end MinePanel.Lint
