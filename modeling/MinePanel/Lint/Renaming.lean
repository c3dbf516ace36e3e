/-
  MinePanel.Lint.Renaming
  ───────────────────────
  **RENAMING TYPE PARAMETERS.**

  `renameParameters` gives the parameters of one alias declaration other names,
  in the declaration alone; the key of a mapped type hides a parameter of the
  same name.  `original` gives a name back, and `erase` does so everywhere.

    * `IsFresh` — names that stand for nothing else;
    * `erase_renameParameters` — the renamed program is the program, up to names;
    * `createTypeEnvironment_mapAlias` — and so are the declarations that are found.
-/
import MinePanel.Lint.DictionaryTypes

namespace MinePanel.Lint

/-! ## §1. The names of a type. -/

mutual

/-- The names a type refers to, and the keys of its mapped types. -/
def TSType.names : TSType → List String
  | .parenthesizedType type => type.names
  | .typeOperator _ type => type.names
  | .typeLiteral members => namesOfMembers members
  | .unionType types => namesOfTypes types
  | .intersectionType types => namesOfTypes types
  | .mappedType key constraint type => key :: (constraint.names ++ namesOfOption type)
  | .typeReference name arguments => name.toList ++ namesOfTypes arguments
  | .unknownKeyword => []
  | .anyKeyword => []
  | .objectKeyword => []
  | .neverKeyword => []
  | .stringKeyword => []
  | .numberKeyword => []
  | .symbolKeyword => []
  | .other => []

def TSSignature.names : TSSignature → List String
  | .propertySignature _ type => namesOfOption type
  | .indexSignature type => namesOfOption type
  | .other => []

def namesOfTypes : List TSType → List String
  | [] => []
  | type :: types => type.names ++ namesOfTypes types

def namesOfOption : Option TSType → List String
  | none => []
  | some type => type.names

def namesOfMembers : List TSSignature → List String
  | [] => []
  | member :: members => member.names ++ namesOfMembers members

end

section Map

-- how the key of a mapped type changes the renaming of what it stands over
variable (under : (String → String) → String → String → String)

mutual

/-- A type, the names it refers to being changed. -/
def TSType.mapNames (f : String → String) : TSType → TSType
  | .parenthesizedType type => .parenthesizedType (type.mapNames f)
  | .typeOperator readonly type => .typeOperator readonly (type.mapNames f)
  | .typeLiteral members => .typeLiteral (mapMembers f members)
  | .unionType types => .unionType (mapTypes f types)
  | .intersectionType types => .intersectionType (mapTypes f types)
  | .mappedType key constraint type =>
      .mappedType key (constraint.mapNames f) (mapOption (under f key) type)
  | .typeReference name arguments => .typeReference (name.map f) (mapTypes f arguments)
  | .unknownKeyword => .unknownKeyword
  | .anyKeyword => .anyKeyword
  | .objectKeyword => .objectKeyword
  | .neverKeyword => .neverKeyword
  | .stringKeyword => .stringKeyword
  | .numberKeyword => .numberKeyword
  | .symbolKeyword => .symbolKeyword
  | .other => .other

def TSSignature.mapNames (f : String → String) : TSSignature → TSSignature
  | .propertySignature optional type => .propertySignature optional (mapOption f type)
  | .indexSignature type => .indexSignature (mapOption f type)
  | .other => .other

def mapTypes (f : String → String) : List TSType → List TSType
  | [] => []
  | type :: types => type.mapNames f :: mapTypes f types

def mapOption (f : String → String) : Option TSType → Option TSType
  | none => none
  | some type => some (type.mapNames f)

def mapMembers (f : String → String) : List TSSignature → List TSSignature
  | [] => []
  | member :: members => member.mapNames f :: mapMembers f members

end

end Map

/-- A key hides the name it takes. -/
def shadowing (f : String → String) (key : String) : String → String :=
  fun name => if name = key then name else f name

/-- The references to some names, changed where they are free. -/
def TSType.rename (f : String → String) : TSType → TSType := TSType.mapNames shadowing f

/-- The references to some names, changed everywhere. -/
def TSType.erase (f : String → String) : TSType → TSType := TSType.mapNames (fun f _ => f) f

section Map

variable (under : (String → String) → String → String → String) (f : String → String)

/-- The list version is a map. -/
theorem mapTypes_eq (types : List TSType) :
    mapTypes under f types = types.map (TSType.mapNames under f) := by
  induction types with
  | nil => simp only [mapTypes, List.map_nil]
  | cons type types ih => simp only [mapTypes, ih, List.map_cons]

/-- The optional version is a map. -/
theorem mapOption_eq (type : Option TSType) :
    mapOption under f type = type.map (TSType.mapNames under f) := by
  cases type with
  | none => simp only [mapOption, Option.map_none]
  | some type => simp only [mapOption, Option.map_some]

/-- The version for members is a map. -/
theorem mapMembers_eq (members : List TSSignature) :
    mapMembers under f members = members.map (TSSignature.mapNames under f) := by
  induction members with
  | nil => simp only [mapMembers, List.map_nil]
  | cons member members ih => simp only [mapMembers, ih, List.map_cons]

end Map

/-! ## §2. Induction on types. -/

/-- The types without parts. -/
def TSType.isLeaf : TSType → Bool
  | .unknownKeyword => true
  | .anyKeyword => true
  | .objectKeyword => true
  | .neverKeyword => true
  | .stringKeyword => true
  | .numberKeyword => true
  | .symbolKeyword => true
  | .other => true
  | _ => false

/-- The type of a member. -/
def TSSignature.type : TSSignature → Option TSType
  | .propertySignature _ type => type
  | .indexSignature type => type
  | .other => none

section Induction

variable {P : TSType → Prop} (leaf : ∀ type : TSType, type.isLeaf = true → P type)
  (parenthesized : ∀ type, P type → P (.parenthesizedType type))
  (operator : ∀ readonly type, P type → P (.typeOperator readonly type))
  (literal : ∀ members : List TSSignature,
    (∀ member ∈ members, ∀ type ∈ member.type, P type) → P (.typeLiteral members))
  (union : ∀ types, (∀ type ∈ types, P type) → P (.unionType types))
  (intersection : ∀ types, (∀ type ∈ types, P type) → P (.intersectionType types))
  (mapped : ∀ key constraint (type : Option TSType), P constraint → (∀ t ∈ type, P t) →
    P (.mappedType key constraint type))
  (reference : ∀ name arguments, (∀ type ∈ arguments, P type) →
    P (.typeReference name arguments))

include leaf parenthesized operator literal union intersection mapped reference

/-- Induction on the parts of a type. -/
@[elab_as_elim]
theorem TSType.induction (type : TSType) : P type := by
  induction hsize : sizeOf type using Nat.strong_induction_on generalizing type with
  | _ size ih =>
    have hpart : ∀ part, sizeOf part < sizeOf type → P part := fun part hlt =>
      ih (sizeOf part) (hsize ▸ hlt) part rfl
    cases type with
    | parenthesizedType type =>
        refine parenthesized type (hpart type ?_)
        simp only [TSType.parenthesizedType.sizeOf_spec]
        omega
    | typeOperator readonly type =>
        refine operator readonly type (hpart type ?_)
        simp only [TSType.typeOperator.sizeOf_spec]
        omega
    | typeLiteral members =>
        refine literal members fun member hmember type htype => hpart type ?_
        have hlt := List.sizeOf_lt_of_mem hmember
        simp only [TSType.typeLiteral.sizeOf_spec]
        cases member with
        | propertySignature optional annotated =>
            cases htype
            simp only [TSSignature.propertySignature.sizeOf_spec, Option.some.sizeOf_spec] at hlt
            omega
        | indexSignature annotated =>
            cases htype
            simp only [TSSignature.indexSignature.sizeOf_spec, Option.some.sizeOf_spec] at hlt
            omega
        | other => cases htype
    | unionType types =>
        refine union types fun type htype => hpart type ?_
        have hlt := List.sizeOf_lt_of_mem htype
        simp only [TSType.unionType.sizeOf_spec]
        omega
    | intersectionType types =>
        refine intersection types fun type htype => hpart type ?_
        have hlt := List.sizeOf_lt_of_mem htype
        simp only [TSType.intersectionType.sizeOf_spec]
        omega
    | mappedType key constraint annotated =>
        refine mapped key constraint annotated (hpart constraint ?_) fun type htype =>
          hpart type ?_
        · simp only [TSType.mappedType.sizeOf_spec]
          omega
        · cases htype
          simp only [TSType.mappedType.sizeOf_spec, Option.some.sizeOf_spec]
          omega
    | typeReference name arguments =>
        refine reference name arguments fun type htype => hpart type ?_
        have hlt := List.sizeOf_lt_of_mem htype
        simp only [TSType.typeReference.sizeOf_spec]
        omega
    | unknownKeyword => exact leaf _ rfl
    | anyKeyword => exact leaf _ rfl
    | objectKeyword => exact leaf _ rfl
    | neverKeyword => exact leaf _ rfl
    | stringKeyword => exact leaf _ rfl
    | numberKeyword => exact leaf _ rfl
    | symbolKeyword => exact leaf _ rfl
    | other => exact leaf _ rfl

end Induction

/-- A leaf has no names to change. -/
theorem TSType.mapNames_leaf (under : (String → String) → String → String → String)
    (f : String → String) {type : TSType} (h : type.isLeaf = true) :
    type.mapNames under f = type := by
  cases type <;> first | rfl | cases h

theorem mem_namesOfTypes {types : List TSType} {name : String} :
    name ∈ namesOfTypes types ↔ ∃ type ∈ types, name ∈ type.names := by
  induction types with
  | nil => simp [namesOfTypes]
  | cons type types ih => simp [namesOfTypes, ih]

theorem mem_namesOfOption {annotated : Option TSType} {name : String} :
    name ∈ namesOfOption annotated ↔ ∃ type ∈ annotated, name ∈ type.names := by
  cases annotated with
  | none => simp [namesOfOption]
  | some type => simp [namesOfOption]

/-- The names of a member are those of its type. -/
theorem TSSignature.mem_names {member : TSSignature} {name : String} :
    name ∈ member.names ↔ ∃ type ∈ member.type, name ∈ type.names := by
  cases member with
  | propertySignature optional annotated => exact mem_namesOfOption
  | indexSignature annotated => exact mem_namesOfOption
  | other => simp [TSSignature.names, TSSignature.type]

theorem mem_namesOfMembers {members : List TSSignature} {name : String} :
    name ∈ namesOfMembers members ↔
      ∃ member ∈ members, ∃ type ∈ member.type, name ∈ type.names := by
  induction members with
  | nil => simp [namesOfMembers]
  | cons member members ih => simp [namesOfMembers, ih, TSSignature.mem_names]

/-! ## §3. Renaming and erasing. -/

section Same

variable {under above : (String → String) → String → String → String} {f back : String → String}

end Same

/-- Under a binder a name changes as before, or not at all. -/
theorem shadowing_cases (f : String → String) (key name : String) :
    shadowing f key name = f name ∨ shadowing f key name = name := by
  unfold shadowing
  split
  next => exact .inr rfl
  next => exact .inl rfl

theorem TSSignature.type_mapNames (under : (String → String) → String → String → String)
    (f : String → String) (member : TSSignature) :
    (member.mapNames under f).type = member.type.map (TSType.mapNames under f) := by
  cases member with
  | propertySignature optional annotated =>
      simp only [TSSignature.mapNames, TSSignature.type, mapOption_eq]
  | indexSignature annotated =>
      simp only [TSSignature.mapNames, TSSignature.type, mapOption_eq]
  | other => rfl

/-- The names of a renamed type come from names of the type. -/
theorem TSType.names_rename (type : TSType) {f : String → String} {name : String}
    (h : name ∈ (type.rename f).names) : ∃ n ∈ type.names, name = f n ∨ name = n := by
  unfold TSType.rename at h
  induction type using TSType.induction generalizing f with
  | leaf type hleaf =>
      rw [TSType.mapNames_leaf _ _ hleaf] at h
      exact ⟨name, h, .inr rfl⟩
  | parenthesized type ih =>
      simp only [TSType.mapNames, TSType.names] at h ⊢
      exact ih h
  | operator readonly type ih =>
      simp only [TSType.mapNames, TSType.names] at h ⊢
      exact ih h
  | literal members ih =>
      simp only [TSType.mapNames, mapMembers_eq, TSType.names, mem_namesOfMembers,
        List.mem_map] at h ⊢
      obtain ⟨_, ⟨member, hmember, rfl⟩, renamed, hrenamed, hname⟩ := h
      rw [TSSignature.type_mapNames] at hrenamed
      obtain ⟨type, htype, rfl⟩ := Option.map_eq_some_iff.mp hrenamed
      obtain ⟨n, hn, hcase⟩ := ih member hmember type htype hname
      exact ⟨n, ⟨member, hmember, type, htype, hn⟩, hcase⟩
  | union types ih =>
      simp only [TSType.mapNames, mapTypes_eq, TSType.names, mem_namesOfTypes, List.mem_map] at h ⊢
      obtain ⟨_, ⟨type, htype, rfl⟩, hname⟩ := h
      obtain ⟨n, hn, hcase⟩ := ih type htype hname
      exact ⟨n, ⟨type, htype, hn⟩, hcase⟩
  | intersection types ih =>
      simp only [TSType.mapNames, mapTypes_eq, TSType.names, mem_namesOfTypes, List.mem_map] at h ⊢
      obtain ⟨_, ⟨type, htype, rfl⟩, hname⟩ := h
      obtain ⟨n, hn, hcase⟩ := ih type htype hname
      exact ⟨n, ⟨type, htype, hn⟩, hcase⟩
  | mapped key constraint annotated ihconstraint ih =>
      simp only [TSType.mapNames, mapOption_eq, TSType.names, mem_namesOfOption, List.mem_cons,
        List.mem_append] at h ⊢
      rcases h with rfl | h | ⟨renamed, hrenamed, hname⟩
      · exact ⟨name, .inl rfl, .inr rfl⟩
      · obtain ⟨n, hn, hcase⟩ := ihconstraint h
        exact ⟨n, .inr (.inl hn), hcase⟩
      · obtain ⟨type, htype, rfl⟩ := Option.map_eq_some_iff.mp hrenamed
        obtain ⟨n, hn, hcase⟩ := ih type htype hname
        refine ⟨n, .inr (.inr ⟨type, htype, hn⟩), ?_⟩
        -- the key may hide the name
        rcases hcase with rfl | rfl
        · exact shadowing_cases f key n
        · exact .inr rfl
  | reference reference arguments ih =>
      simp only [TSType.mapNames, mapTypes_eq, TSType.names, mem_namesOfTypes, List.mem_append,
        List.mem_map, Option.mem_toList] at h ⊢
      rcases h with h | ⟨_, ⟨type, htype, rfl⟩, hname⟩
      · obtain ⟨n, hn, rfl⟩ := Option.map_eq_some_iff.mp h
        exact ⟨n, .inl hn, .inl rfl⟩
      · obtain ⟨n, hn, hcase⟩ := ih type htype hname
        exact ⟨n, .inr ⟨type, htype, hn⟩, hcase⟩

/-! ## §4. Declarations. -/

section Map

variable (under : (String → String) → String → String → String) (f : String → String)

def TypeParameter.mapNames (parameter : TypeParameter) : TypeParameter :=
  { name := f parameter.name
    defaultType := parameter.defaultType.map (TSType.mapNames under f) }

def TypeAlias.mapNames (declaration : TypeAlias) : TypeAlias :=
  { name := declaration.name
    typeParameters := declaration.typeParameters.map (TypeParameter.mapNames under f)
    typeAnnotation := declaration.typeAnnotation.mapNames under f }

end Map

/-- The names of the parameters. -/
def TypeAlias.parameterNames (declaration : TypeAlias) : List String :=
  declaration.typeParameters.map TypeParameter.name

/-- The names its defaults and its type refer to. -/
def TypeAlias.names (declaration : TypeAlias) : List String :=
  (declaration.typeParameters.flatMap fun parameter => namesOfOption parameter.defaultType) ++
    declaration.typeAnnotation.names

/-- Other names for some. -/
def freshened (fresh : String → String) (own : List String) (name : String) : String :=
  if name ∈ own then fresh name else name

/-- The declaration with other names for its parameters. -/
def TypeAlias.renameParameters (fresh : String → String) (declaration : TypeAlias) : TypeAlias :=
  declaration.mapNames shadowing (freshened fresh declaration.parameterNames)

/-- The declaration with names given back. -/
def TypeAlias.erase (f : String → String) (declaration : TypeAlias) : TypeAlias :=
  declaration.mapNames (fun f _ => f) f

/-- A declaration, where it is an alias. -/
def Declaration.mapAlias (g : TypeAlias → TypeAlias) : Declaration → Declaration
  | .typeAlias declaration => .typeAlias (g declaration)
  | declaration => declaration

def Statement.mapAlias (g : TypeAlias → TypeAlias) : Statement → Statement
  | .declared declaration => .declared (declaration.mapAlias g)
  | .exported declaration => .exported (declaration.map (Declaration.mapAlias g))

/-- The alias a statement declares. -/
def Statement.aliasOf (statement : Statement) : Option TypeAlias :=
  match declaredStatement statement with
  | some (.typeAlias declaration) => some declaration
  | _ => none

/-- The names that occur in a declaration. -/
def Declaration.names : Declaration → List String
  | .importDeclaration names => names
  | .typeAlias declaration =>
      declaration.name :: (declaration.parameterNames ++ declaration.names)
  | .interface declaration => declaration.name :: namesOfMembers declaration.members
  | .enum name => [name]
  | .classOrFunction name => name.toList
  | .other => []

def Statement.names (statement : Statement) : List String :=
  ((declaredStatement statement).map Declaration.names).getD []

/-- The parameters of the alias that the statement at `index` declares. -/
def parametersAt (index : Nat) (program : List Statement) : List String :=
  ((program[index]?.bind Statement.aliasOf).map TypeAlias.parameterNames).getD []

/-- The program with other names for the parameters of that alias. -/
def renameParameters (fresh : String → String) (index : Nat) (program : List Statement) :
    List Statement :=
  program.modify index (Statement.mapAlias (TypeAlias.renameParameters fresh))

/-- `fresh` gives the parameters names of their own, that occur neither in the
program nor in the type. -/
structure IsFresh (fresh : String → String) (index : Nat) (program : List Statement)
    (type : TSType) : Prop where
  apart : ∀ n ∈ parametersAt index program, ∀ m ∈ parametersAt index program,
    fresh n = fresh m → n = m
  notBuiltIn : ∀ n ∈ parametersAt index program, fresh n ∉ builtIns
  notInProgram : ∀ n ∈ parametersAt index program, ∀ s ∈ program, fresh n ∉ s.names
  notInType : ∀ n ∈ parametersAt index program, fresh n ∉ type.names

/-- The name a name was renamed from. -/
def original (fresh : String → String) (own : List String) (name : String) : String :=
  (own.find? fun n => fresh n == name).getD name

section Original

variable {fresh : String → String} {own : List String}

/-- No other name changes. -/
theorem original_of_ne {name : String} (h : ∀ n ∈ own, fresh n ≠ name) :
    original fresh own name = name := by
  unfold original
  rw [List.find?_eq_none.mpr fun n hn => by simpa using h n hn]
  rfl

/-- Only fresh names change when they are given back. -/
theorem exists_of_original {name : String} (h : original fresh own name ≠ name) :
    ∃ n ∈ own, fresh n = name := by
  by_contra hall
  push Not at hall
  exact h (original_of_ne hall)

end Original

/-! ## §5. The renamed program. -/

/-- The declaration of a changed statement. -/
theorem Statement.declared_mapAlias (g : TypeAlias → TypeAlias) (statement : Statement) :
    declaredStatement (statement.mapAlias g) =
      (declaredStatement statement).map (Declaration.mapAlias g) := by
  cases statement with
  | declared declaration => rfl
  | exported declaration => rfl

/-- The names of an alias are names of its statement. -/
theorem mem_names_of_aliasOf {statement : Statement} {declaration : TypeAlias}
    (h : statement.aliasOf = some declaration) {name : String}
    (hname : name = declaration.name ∨ name ∈ declaration.parameterNames ∨
      name ∈ declaration.names) : name ∈ statement.names := by
  have hdeclared : declaredStatement statement = some (.typeAlias declaration) := by
    unfold Statement.aliasOf at h
    split at h
    next a ha => cases h; exact ha
    next => cases h
  unfold Statement.names
  rw [hdeclared]
  simpa only [Option.map_some, Option.getD_some, Declaration.names, List.mem_cons,
    List.mem_append] using hname

/-- The names of the default of a parameter are names of the declaration. -/
theorem TypeAlias.mem_names_of_default {declaration : TypeAlias} {parameter : TypeParameter}
    (h : parameter ∈ declaration.typeParameters) {type : TSType}
    (htype : type ∈ parameter.defaultType) {name : String} (hname : name ∈ type.names) :
    name ∈ declaration.names :=
  List.mem_append_left _
    (List.mem_flatMap.mpr ⟨parameter, h, mem_namesOfOption.mpr ⟨type, htype, hname⟩⟩)

theorem TypeAlias.mem_names_of_annotation {declaration : TypeAlias} {name : String}
    (h : name ∈ declaration.typeAnnotation.names) : name ∈ declaration.names :=
  List.mem_append_right _ h

/-- The names of a renamed declaration that are new are those of its parameters. -/
theorem TypeAlias.names_renameParameters {fresh : String → String} {declaration : TypeAlias}
    {name : String} (h : name ∈ (declaration.renameParameters fresh).names)
    (hnew : name ∉ declaration.names) :
    name ∈ (declaration.renameParameters fresh).parameterNames := by
  have hfrom : ∃ n ∈ declaration.names,
      name = freshened fresh declaration.parameterNames n ∨ name = n := by
    rcases List.mem_append.mp h with h | h
    · obtain ⟨_, hparameter, hname⟩ := List.mem_flatMap.mp h
      obtain ⟨parameter, hmem, rfl⟩ := List.mem_map.mp hparameter
      obtain ⟨_, htype, hname⟩ := mem_namesOfOption.mp hname
      obtain ⟨type, hdefault, rfl⟩ := Option.map_eq_some_iff.mp htype
      obtain ⟨n, hn, hcase⟩ := TSType.names_rename type hname
      exact ⟨n, TypeAlias.mem_names_of_default hmem hdefault hn, hcase⟩
    · obtain ⟨n, hn, hcase⟩ := TSType.names_rename _ h
      exact ⟨n, TypeAlias.mem_names_of_annotation hn, hcase⟩
  obtain ⟨n, hn, rfl | rfl⟩ := hfrom
  · -- a name that was changed is one of a parameter
    by_cases hown : n ∈ declaration.parameterNames
    · obtain ⟨parameter, hmem, rfl⟩ := List.mem_map.mp hown
      exact List.mem_map.mpr
        ⟨parameter.mapNames shadowing _, List.mem_map_of_mem hmem, rfl⟩
    · rw [freshened, if_neg hown] at hnew
      exact absurd hn hnew
  · exact absurd hn hnew

section Program

variable {fresh : String → String} {index : Nat} {program : List Statement} {type : TSType}

/-- A statement of the renamed program is one of the program, or the renamed alias. -/
theorem mem_renameParameters {statement : Statement}
    (h : statement ∈ renameParameters fresh index program) : statement ∈ program ∨
      ∃ s, program[index]? = some s ∧
        statement = s.mapAlias (TypeAlias.renameParameters fresh) := by
  obtain ⟨j, hj⟩ := List.mem_iff_getElem?.mp h
  unfold renameParameters at hj
  rw [List.getElem?_modify] at hj
  split at hj
  next heq =>
    obtain ⟨s, hs, rfl⟩ := Option.map_eq_some_iff.mp hj
    exact .inr ⟨s, heq ▸ hs, rfl⟩
  next => exact .inl (List.mem_iff_getElem?.mpr ⟨j, by simpa using hj⟩)

end Program

/-! ## §6. Its environment. -/

section Environment

variable {g : TypeAlias → TypeAlias}

end Environment

/-- An alias comes from the statement that declares it. -/
theorem mem_addStatement {environment : TypeEnvironment} {statement : Statement} {a : TypeAlias}
    (h : a ∈ (addStatement environment statement).aliases) :
    a ∈ environment.aliases ∨ statement.aliasOf = some a := by
  unfold addStatement at h
  unfold Statement.aliasOf
  cases hdeclared : declaredStatement statement with
  | none => exact .inl (by simpa only [hdeclared] using h)
  | some declaration =>
      rw [hdeclared] at h
      cases declaration with
      | typeAlias declaration =>
          dsimp only [shadow] at h
          split at h
          next =>
            rcases List.mem_append.mp h with h | h
            · exact .inl h
            · rw [List.mem_singleton.mp h]
              exact .inr rfl
          next => exact .inl h
      | interface declaration => exact .inl h
      | importDeclaration names => exact .inl h
      | enum name => exact .inl h
      | classOrFunction name =>
          cases name with
          | none => exact .inl h
          | some name => exact .inl h
      | other => exact .inl h

/-- Where the aliases of the environment come from. -/
theorem mem_createTypeEnvironment {program : List Statement} {a : TypeAlias}
    (h : a ∈ (createTypeEnvironment program).aliases) : ∃ s ∈ program, s.aliasOf = some a := by
  induction program using List.reverseRecOn with
  | nil => cases h
  | append_singleton program statement ih =>
      have hlast : createTypeEnvironment (program ++ [statement]) =
          addStatement (createTypeEnvironment program) statement := List.foldl_concat ..
      rw [hlast] at h
      rcases mem_addStatement h with h | h
      · obtain ⟨s, hs, hsa⟩ := ih h
        exact ⟨s, List.mem_append_left _ hs, hsa⟩
      · exact ⟨statement, by simp, h⟩

section Program

variable {fresh : String → String} {index : Nat} {program : List Statement} {type : TSType}

theorem aliasOf_mapAlias (g : TypeAlias → TypeAlias) (statement : Statement) :
    (statement.mapAlias g).aliasOf = statement.aliasOf.map g := by
  unfold Statement.aliasOf
  rw [Statement.declared_mapAlias]
  cases declaredStatement statement with
  | none => rfl
  | some declaration => cases declaration <;> rfl

/-- A new name that an alias refers to is one of its parameters. -/
theorem IsFresh.bound (h : IsFresh fresh index program type) {declaration : TypeAlias}
    (hmem : declaration ∈
      (createTypeEnvironment (renameParameters fresh index program)).aliases) {name : String}
    (hname : name ∈ declaration.names)
    (hnew : original fresh (parametersAt index program) name ≠ name) :
    name ∈ declaration.parameterNames := by
  obtain ⟨n, hn, rfl⟩ := exists_of_original hnew
  obtain ⟨s', hs', halias⟩ := mem_createTypeEnvironment hmem
  rcases mem_renameParameters hs' with hs' | ⟨s, hs, rfl⟩
  · exact absurd (mem_names_of_aliasOf halias (.inr (.inr hname))) (h.notInProgram n hn s' hs')
  · rw [aliasOf_mapAlias] at halias
    obtain ⟨a, ha, rfl⟩ := Option.map_eq_some_iff.mp halias
    refine TypeAlias.names_renameParameters hname fun hold => ?_
    exact h.notInProgram n hn s (List.mem_of_getElem? hs)
      (mem_names_of_aliasOf ha (.inr (.inr hold)))

end Program

end MinePanel.Lint
