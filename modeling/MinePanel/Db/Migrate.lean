/-
  MinePanel.Db.Migrate
  ────────────────────
  **MIGRATIONS AT THE START OF A PROCESS** (`src/db/migrate.ts`).

  Every process checks its migration folder, takes an advisory lock on a
  connection of its own, runs drizzle's `migrate` on a second connection,
  releases the lock and closes both.  `migrate` is another package: here any
  program over any steps on the database.

  Paths are those of `node:path` on POSIX, as the segments of a normalised
  absolute path.

    * `isJournal` — the checks of the journal;
    * `validateMigrationsFolder`, `runProductionMigrations` — the program;
    * `migrations_folder_accepted_iff` — **what a folder is accepted for**.
-/
import MinePanel.Exception
import MinePanel.Lib.Prog
import MinePanel.Lib.Text
import MinePanel.Lib.Serial

namespace MinePanel.Db.Migrate

open MinePanel.Lib MinePanel.Lib.Text

/-! ## §1. The journal. -/

/-- A JSON value; an object has one value for a key. -/
inductive Json where
  | null
  | bool (value : Bool)
  | number (value : JsNumber)
  | string (value : String)
  | array (items : List Json)
  | object (fields : List (String × Json))

/-- `isTrimmedNonEmptyString`. -/
def isTrimmedNonEmptyString (value : String) : Bool :=
  decide (0 < value.length) && decide (value = trim value)

/-- `[A-Za-z0-9_-]`. -/
def isTagChar (c : Char) : Bool := isAlphanumeric c || c == '_' || c == '-'

/-- `isJournalTag`. -/
def isJournalTag (tag : String) : Bool :=
  isTrimmedNonEmptyString tag
    && (decide (0 < tag.length) && tag.toList.all isTagChar)
    && !isAbsolute tag
    && !decide ('/' ∈ tag.toList)
    && !decide ('\\' ∈ tag.toList)

/-- `isJournalEntry`, with the tag it lets through. -/
def isJournalEntry : Json → Option String
  | .object fields =>
      match fields.lookup "tag" with
      | some (.string tag) => if isJournalTag tag then some tag else none
      | _ => none
  | _ => none

/-- `isJournal`, with the tags of the entries it lets through. -/
def isJournal : Json → Option (List String)
  | .object fields =>
      match fields.lookup "entries" with
      | some (.array entries) => entries.mapM isJournalEntry
      | _ => none
  | _ => none

/-! ## §2. Steps. -/

/-- One step, with what it returns; `A` are the steps of the migrator. -/
inductive Act (A : Type → Type) : Type → Type 1 where
  /-- `fs.stat(…).isDirectory()`; `none` where it throws. -/
  | isDirectory : Act A (Option Bool)
  /-- `fs.readFile` of the journal; `none` where it throws. -/
  | readFile (path : Path) : Act A (Option String)
  /-- `fs.access`: whether the file is there. -/
  | access (path : Path) : Act A Bool
  /-- `postgres(databaseUrl, …)` of the lock client. -/
  | openLockClient : Act A (Except Exn Unit)
  /-- `SELECT pg_advisory_lock(7333)`. -/
  | lock : Act A (Except Exn Unit)
  /-- `postgres(databaseUrl)` of the migration client. -/
  | openMigrationClient : Act A (Except Exn Unit)
  /-- `drizzle(migrationClient)`. -/
  | drizzle : Act A (Except Exn Unit)
  /-- A step of `migrate`. -/
  | migrator {β : Type} (a : A β) : Act A β
  /-- `SELECT pg_advisory_unlock(7333)`. -/
  | unlock : Act A (Except Exn Unit)
  /-- `lockClient.end({ timeout: 5 })`. -/
  | endLockClient : Act A (Except Exn Unit)
  /-- `migrationClient.end({ timeout: 5 })`. -/
  | endMigrationClient : Act A (Except Exn Unit)

/-- The calls of the start-up. -/
abbrev Call (A : Type → Type) (α : Type) := Prog (Act A) Exn α

/-- What the code takes from elsewhere. -/
structure Dependencies (A : Type → Type) where
  /-- `process.cwd()`. -/
  cwd : Path
  /-- `new URL(url).protocol`; `none` where it throws. -/
  protocol : String → Option String
  /-- `JSON.parse`; `none` where it throws. -/
  parse : String → Option Json
  /-- drizzle's `migrate`. -/
  migrate : Prog A Exn Unit

variable {A : Type → Type} (deps : Dependencies A)

/-! ## §3. The checks. -/

/-- `validateDatabaseUrl`. -/
def validateDatabaseUrl (url : String) : Call A Unit := do
  if !isTrimmedNonEmptyString url then
    throw (.plain "Invalid database URL")
  match deps.protocol url with
  | none => throw (.plain "Invalid database URL")
  | some protocol =>
    if protocol ≠ "postgres:" ∧ protocol ≠ "postgresql:" then
      throw (.plain "Invalid database URL")

/-- The file of a journal entry. -/
def sqlPath (migrationRoot : Path) (tag : String) : Path := resolve migrationRoot (tag ++ ".sql")

/-- The test of one journal entry. -/
def isOutside (migrationRoot : Path) (tag : String) : Bool :=
  let relativePath := relative migrationRoot (sqlPath migrationRoot tag)
  decide (relativePath = "") || "../".toList.isPrefixOf relativePath.toList
    || isAbsolute relativePath

/-- The loop over the journal entries. -/
def validateEntries (migrationRoot : Path) : List String → Call A Unit
  | [] => return ()
  | tag :: tags => do
      if isOutside migrationRoot tag then
        throw (.plain "Invalid migration journal")
      let there ← Prog.perform (.access (sqlPath migrationRoot tag))
      if !there then
        throw (.plain "Missing migration file")
      validateEntries migrationRoot tags

/-- `validateMigrationsFolder`. -/
def validateMigrationsFolder (migrationsFolder : String) : Call A Unit := do
  match ← Prog.perform .isDirectory with
  | none => throw (.plain "Invalid migration folder")
  | some isDirectory =>
    if !isDirectory then
      throw (.plain "Invalid migration folder")
    let migrationRoot := resolve deps.cwd migrationsFolder
    match ← Prog.perform (.readFile (migrationRoot ++ ["meta", "_journal.json"])) with
    | none => throw (.plain "Missing migration journal")
    | some journalRaw =>
      match deps.parse journalRaw with
      | none => throw (.plain "Invalid migration journal")
      | some journal =>
        match isJournal journal with
        | none => throw (.plain "Invalid migration journal")
        | some tags => validateEntries migrationRoot tags

/-! ## §4. The migration under the lock. -/

/-- What a call comes to, without throwing. -/
def settled {α : Type} (p : Call A α) : Call A (Except Exn α) :=
  try Except.ok <$> p catch error => pure (.error error)

/-- The body of the inner `try`: whether it has opened the migration client, and
what it comes to. -/
def migrateOnClient : Call A (Bool × Except Exn Unit) := do
  match ← Prog.perform .openMigrationClient with
  | .error error => return (false, .error error)
  | .ok () =>
    match ← Prog.perform .drizzle with
    | .error error => return (true, .error error)
    | .ok () =>
      let result ← settled (deps.migrate.hoist fun a => Prog.perform (.migrator a))
      return (true, result)

/-- Which clients are open. -/
structure Clients where
  lockClient : Bool
  migrationClient : Bool
  deriving Repr, DecidableEq

/-- The body of the outer `try`: the clients it leaves open, and what it comes
to. -/
def migrateLocked : Call A (Clients × Except Exn Unit) := do
  match ← Prog.perform .openLockClient with
  | .error error => return (⟨false, false⟩, .error error)
  | .ok () =>
    match ← Prog.perform .lock with
    | .error error => return (⟨true, false⟩, .error error)
    | .ok () =>
      let (opened, result) ← migrateOnClient deps
      -- a failed unlock is not recoverable, and the clients are closed anyway
      let _ ← Prog.perform .unlock
      return (⟨true, opened⟩, result)

/-- The `finally` block: errors of a close are ignored. -/
def closeClients (clients : Clients) : Call A Unit := do
  if clients.lockClient then
    let _ ← Prog.perform .endLockClient
  if clients.migrationClient then
    let _ ← Prog.perform .endMigrationClient

/-- `runProductionMigrations`. -/
def runProductionMigrations (databaseUrl migrationsFolder : String) : Call A Unit := do
  validateDatabaseUrl deps databaseUrl
  validateMigrationsFolder deps migrationsFolder
  let (clients, result) ← migrateLocked deps
  closeClients clients
  match result with
  | .ok () => return ()
  | .error _ => throw (.plain "Database migration failed")

/-! ## §5. What a folder is accepted for. -/

/-- The files a process finds. -/
structure Files where
  isDirectory : Option Bool
  readFile : Path → Option String
  access : Path → Bool

/-- What the checks see of the files. -/
def Files.answer (files : Files) : ∀ {β : Type}, Act A β → Option β
  | _, .isDirectory => some files.isDirectory
  | _, .readFile path => some (files.readFile path)
  | _, .access path => some (files.access path)
  | _, _ => none

/-- A journal entry whose migration is there, directly in the folder. -/
def Present (files : Files) (migrationRoot : Path) (entry : Json) : Prop :=
  ∃ fields tag, entry = .object fields ∧ fields.lookup "tag" = some (.string tag) ∧ tag ≠ "" ∧
    (∀ c ∈ tag.toList, isTagChar c = true) ∧
    files.access (migrationRoot ++ [tag ++ ".sql"]) = true

/-- The name of a migration: letters, digits, dashes and underscores. -/
def IsPlainTag (tag : String) : Prop := tag ≠ "" ∧ ∀ c ∈ tag.toList, isTagChar c = true

/-- A step that looks at the folder itself, at its journal, or for a migration
directly in it. -/
def Act.looksInside (migrationRoot : Path) : ∀ {β : Type}, Act A β → Prop
  | _, .isDirectory => True
  | _, .readFile path => path = migrationRoot ++ ["meta", "_journal.json"]
  | _, .access path => ∃ tag, IsPlainTag tag ∧ path = migrationRoot ++ [tag ++ ".sql"]
  | _, _ => False

section Tags

variable {tag : String} {c : Char}

/-- No character of a tag is white space, a slash, a backslash or a dot. -/
theorem tagChar_plain (h : isTagChar c = true) :
    isWhiteSpace c = false ∧ c ≠ '/' ∧ c ≠ '\\' ∧ c ≠ '.' := by
  have hn : (97 ≤ c.toNat ∧ c.toNat ≤ 122) ∨ (65 ≤ c.toNat ∧ c.toNat ≤ 90) ∨
      (48 ≤ c.toNat ∧ c.toNat ≤ 57) ∨ c.toNat = 95 ∨ c.toNat = 45 := by
    simp only [isTagChar, isAlphanumeric, Bool.or_eq_true, Bool.and_eq_true,
      decide_eq_true_eq, beq_iff_eq, Char.le_def, UInt32.le_iff_toNat_le] at h
    rcases h with (((h | h) | h) | rfl) | rfl
    · exact Or.inl h
    · exact Or.inr (Or.inl h)
    · exact Or.inr (Or.inr (Or.inl h))
    · exact Or.inr (Or.inr (Or.inr (Or.inl rfl)))
    · exact Or.inr (Or.inr (Or.inr (Or.inr rfl)))
  refine ⟨not_whiteSpace (by omega) (by omega), ?_, ?_, ?_⟩
  · rintro rfl
    revert hn
    decide
  · rintro rfl
    revert hn
    decide
  · rintro rfl
    revert hn
    decide

/-- A text of tag characters has nothing to trim. -/
theorem trim_of_tagChars (h : ∀ c ∈ tag.toList, isTagChar c = true) : trim tag = tag := by
  have hplain : ∀ c ∈ tag.toList, isWhiteSpace c = false := fun c hc => (tagChar_plain (h c hc)).1
  unfold trim
  rw [trimmed_of_ends (fun c hc => hplain c (List.mem_of_mem_head? hc))
    fun c hc => hplain c (List.mem_of_mem_getLast? hc), String.ofList_toList]

/-- The other tests of a tag follow from its characters. -/
theorem isJournalTag_iff :
    isJournalTag tag = true ↔ IsPlainTag tag := by
  unfold isJournalTag IsPlainTag isTrimmedNonEmptyString
  simp only [Bool.and_eq_true, decide_eq_true_eq, Bool.not_eq_true', decide_eq_false_iff_not,
    List.all_eq_true]
  constructor
  · rintro ⟨⟨⟨⟨⟨hlen, -⟩, -, hchars⟩, -⟩, -⟩, -⟩
    refine ⟨?_, hchars⟩
    rintro rfl
    simp at hlen
  · rintro ⟨hne, hchars⟩
    have hlen : 0 < tag.length := by
      rw [Nat.pos_iff_ne_zero]
      intro hzero
      exact hne (by simpa using hzero)
    have hslash : '/' ∉ tag.toList := fun hmem => (tagChar_plain (hchars _ hmem)).2.1 rfl
    have hbackslash : '\\' ∉ tag.toList := fun hmem => (tagChar_plain (hchars _ hmem)).2.2.1 rfl
    refine ⟨⟨⟨⟨⟨hlen, (trim_of_tagChars hchars).symm⟩, hlen, hchars⟩, ?_⟩, hslash⟩, hbackslash⟩
    exact not_isAbsolute hslash

/-- The file of a tag lies directly in the folder, and the test of its path
always passes. -/
theorem sqlPath_of_tag (root : Path) (h : isJournalTag tag = true) :
    sqlPath root tag = root ++ [tag ++ ".sql"] ∧ isOutside root tag = false := by
  obtain ⟨hne, hchars⟩ := isJournalTag_iff.mp h
  obtain ⟨c, cs, hcs⟩ : ∃ c cs, tag.toList = c :: cs := by
    cases hlist : tag.toList with
    | nil => exact absurd (String.toList_eq_nil_iff.mp hlist) hne
    | cons c cs => exact ⟨c, cs, rfl⟩
  have hc := tagChar_plain (hchars c (by rw [hcs]; exact List.mem_cons_self))
  have hlist : (tag ++ ".sql").toList = c :: (cs ++ ['.', 's', 'q', 'l']) := by
    rw [String.toList_append, hcs]
    rfl
  have hslash : '/' ∉ (tag ++ ".sql").toList := by
    rw [String.toList_append, List.mem_append]
    rintro (hmem | hmem)
    · exact (tagChar_plain (hchars _ hmem)).2.1 rfl
    · revert hmem
      decide
  have hlen : 2 < (tag ++ ".sql").length := by
    rw [← String.length_toList, hlist]
    simp
  have hpath : sqlPath root tag = root ++ [tag ++ ".sql"] := resolve_child root hslash hlen
  refine ⟨hpath, ?_⟩
  have hrelative : relative root (sqlPath root tag) = tag ++ ".sql" := by
    rw [hpath, relative_child]
  unfold isOutside
  simp only [hrelative, Bool.or_eq_false_iff, decide_eq_false_iff_not]
  refine ⟨⟨?_, ?_⟩, ?_⟩
  · intro hempty
    rw [hempty] at hlen
    exact absurd hlen (by decide)
  · -- the first character of a tag is no dot
    rw [hlist]
    show List.isPrefixOf ('.' :: _) (c :: _) = false
    rw [List.isPrefixOf_cons_cons, beq_eq_false_iff_ne.mpr hc.2.2.2.symm, Bool.false_and]
  · exact not_isAbsolute hslash

end Tags

/-! ## §6. The folder. -/

section Folder

variable {files : Files} {root : Path}

theorem isJournalEntry_eq_some {entry : Json} {tag : String} :
    isJournalEntry entry = some tag ↔ ∃ fields, entry = .object fields ∧
      fields.lookup "tag" = some (.string tag) ∧ isJournalTag tag = true := by
  unfold isJournalEntry
  constructor
  · intro h
    split at h
    next fields =>
      split at h
      next tag' hlookup =>
        split at h
        next htag =>
          obtain rfl := Option.some.inj h
          exact ⟨fields, rfl, hlookup, htag⟩
        next => cases h
      next => cases h
    next => cases h
  · rintro ⟨fields, rfl, hlookup, htag⟩
    simp only [hlookup, htag, if_true]

/-- Every entry is let through, with a tag for which `P` holds. -/
theorem mapM_isJournalEntry {P : String → Prop} (entries : List Json) :
    (∃ tags, entries.mapM isJournalEntry = some tags ∧ ∀ tag ∈ tags, P tag) ↔
      ∀ entry ∈ entries, ∃ tag, isJournalEntry entry = some tag ∧ P tag := by
  induction entries with
  | nil => simp
  | cons entry entries ih =>
      rw [List.forall_mem_cons, ← ih]
      simp only [List.mapM_cons, Option.bind_eq_bind, Option.bind_eq_some_iff, Option.pure_def,
        Option.some.injEq]
      constructor
      · rintro ⟨tags, ⟨tag, htag, rest, hrest, rfl⟩, hall⟩
        rw [List.forall_mem_cons] at hall
        exact ⟨⟨tag, htag, hall.1⟩, rest, hrest, hall.2⟩
      · rintro ⟨⟨tag, htag, htagP⟩, rest, hrest, hall⟩
        exact ⟨tag :: rest, ⟨tag, htag, rest, hrest, rfl⟩, List.forall_mem_cons.mpr ⟨htagP, hall⟩⟩

/-- The loop ends well exactly where every file is there. -/
theorem eval_validateEntries (tags : List String) :
    (validateEntries root tags : Call A Unit).eval files.answer = some (.ok ()) ↔
      ∀ tag ∈ tags, isOutside root tag = false ∧ files.access (sqlPath root tag) = true := by
  induction tags with
  | nil => simp [validateEntries, Prog.eval]
  | cons tag tags ih =>
      unfold validateEntries
      rw [List.forall_mem_cons, ← ih]
      cases hout : isOutside root tag with
      | true => simp [Prog.eval]
      | false =>
          simp only [Bool.false_eq_true, if_false, true_and]
          show (Option.bind (some (files.access (sqlPath root tag))) _) = _ ↔ _
          cases hthere : files.access (sqlPath root tag) with
          | false => simp [Prog.eval]
          | true => simp

theorem isJournal_eq_some {journal : Json} {tags : List String} :
    isJournal journal = some tags ↔ ∃ fields entries, journal = .object fields ∧
      fields.lookup "entries" = some (.array entries) ∧
      entries.mapM isJournalEntry = some tags := by
  unfold isJournal
  constructor
  · intro h
    split at h
    next fields =>
      split at h
      next entries hlookup => exact ⟨fields, entries, rfl, hlookup, h⟩
      next => cases h
    next => cases h
  · rintro ⟨fields, entries, rfl, hlookup, htags⟩
    simp only [hlookup, htags]

/-- The tags of a journal that is let through. -/
theorem isJournalTag_of_isJournal {journal : Json} {tags : List String}
    (h : isJournal journal = some tags) : ∀ tag ∈ tags, isJournalTag tag = true := by
  obtain ⟨fields, entries, -, -, htags⟩ := isJournal_eq_some.mp h
  have hentries := (mapM_isJournalEntry (P := fun _ => True) entries).mp
    ⟨tags, htags, fun _ _ => trivial⟩
  obtain ⟨tags', htags', hall⟩ := (mapM_isJournalEntry (P := fun tag => isJournalTag tag = true)
    entries).mpr fun entry hentry => by
      obtain ⟨tag, htag, -⟩ := hentries entry hentry
      obtain ⟨-, -, -, hplain⟩ := isJournalEntry_eq_some.mp htag
      exact ⟨tag, htag, hplain⟩
  rw [htags, Option.some.injEq] at htags'
  exact htags' ▸ hall

/-- The loop looks for files directly in the folder only. -/
theorem validateEntries_looksInside (tags : List String)
    (htags : ∀ tag ∈ tags, isJournalTag tag = true) :
    (validateEntries root tags : Call A Unit).Only (fun _ a => a.looksInside root)
      fun _ => True := by
  induction tags with
  | nil => trivial
  | cons tag tags ih =>
      obtain ⟨htag, hrest⟩ := List.forall_mem_cons.mp htags
      have hpath := (sqlPath_of_tag root htag).1
      unfold validateEntries
      refine Prog.only_guard (fun _ => trivial) fun _ => ?_
      refine ⟨⟨tag, isJournalTag_iff.mp htag, hpath⟩, fun there => ?_⟩
      exact Prog.only_guard (fun _ => trivial) fun _ => ih hrest

/-- Whatever the answers, the checks look inside the folder only. -/
theorem validateMigrationsFolder_looksInside (deps : Dependencies A) (migrationsFolder : String) :
    (validateMigrationsFolder deps migrationsFolder).Only
      (fun _ a => a.looksInside (resolve deps.cwd migrationsFolder)) fun _ => True := by
  unfold validateMigrationsFolder
  refine ⟨trivial, fun isDirectory => ?_⟩
  rcases isDirectory with _ | isDirectory
  · trivial
  · refine Prog.only_guard (fun _ => trivial) fun _ => ⟨rfl, fun journalRaw => ?_⟩
    rcases journalRaw with _ | journalRaw
    · trivial
    · simp only [Prog.bind_ret]
      cases hparse : deps.parse journalRaw with
      | none => trivial
      | some journal =>
          simp only
          cases htags : isJournal journal with
          | none => trivial
          | some tags => exact validateEntries_looksInside tags (isJournalTag_of_isJournal htags)

/-- An entry that is let through, and whose file is there. -/
theorem present_iff {entry : Json} : Present files root entry ↔
    ∃ tag, isJournalEntry entry = some tag ∧ isOutside root tag = false ∧
      files.access (sqlPath root tag) = true := by
  constructor
  · rintro ⟨fields, tag, rfl, hlookup, hne, hchars, hthere⟩
    have htag : isJournalTag tag = true := isJournalTag_iff.mpr ⟨hne, hchars⟩
    obtain ⟨hpath, hinside⟩ := sqlPath_of_tag root htag
    rw [← hpath] at hthere
    exact ⟨tag, isJournalEntry_eq_some.mpr ⟨fields, rfl, hlookup, htag⟩, hinside, hthere⟩
  · rintro ⟨tag, hentry, -, hthere⟩
    obtain ⟨fields, rfl, hlookup, htag⟩ := isJournalEntry_eq_some.mp hentry
    obtain ⟨hne, hchars⟩ := isJournalTag_iff.mp htag
    rw [(sqlPath_of_tag root htag).1] at hthere
    exact ⟨fields, tag, rfl, hlookup, hne, hchars, hthere⟩

/-- The journal is read, parsed and let through, and then its files are looked
for. -/
theorem eval_validateMigrationsFolder (deps : Dependencies A) (migrationsFolder : String) :
    (validateMigrationsFolder deps migrationsFolder).eval files.answer = some (.ok ()) ↔
      files.isDirectory = some true ∧ ∃ journalRaw journal tags,
        files.readFile (resolve deps.cwd migrationsFolder ++ ["meta", "_journal.json"]) =
          some journalRaw ∧
        deps.parse journalRaw = some journal ∧ isJournal journal = some tags ∧
        ∀ tag ∈ tags, isOutside (resolve deps.cwd migrationsFolder) tag = false ∧
          files.access (sqlPath (resolve deps.cwd migrationsFolder) tag) = true := by
  unfold validateMigrationsFolder
  -- along the program: each answer of the files decides the next step
  show (Option.bind (some files.isDirectory) _) = _ ↔ _
  rcases hdirectory : files.isDirectory with _ | _ | _
  · simp [Prog.eval]
  · simp [Prog.eval]
  · simp only [Option.bind_some, Prog.bind_ret, Prog.bind_eq, Bool.not_true, Bool.false_eq_true,
      if_false, true_and]
    show (Option.bind (some (files.readFile _)) _) = _ ↔ _
    cases hread : files.readFile (resolve deps.cwd migrationsFolder ++ ["meta", "_journal.json"])
      with
    | none => simp [Prog.eval]
    | some journalRaw =>
        cases hparse : deps.parse journalRaw with
        | none => simp [hparse, Prog.eval]
        | some journal =>
            cases htags : isJournal journal with
            | none => simp [hparse, htags, Prog.eval]
            | some tags => simp [hparse, htags, eval_validateEntries]

/-- What a folder is accepted for, as one condition on the files. -/
theorem accepted_iff (deps : Dependencies A) (files : Files) (migrationsFolder : String) :
    (validateMigrationsFolder deps migrationsFolder).eval files.answer = some (.ok ()) ↔
      files.isDirectory = some true ∧ ∃ journalRaw fields entries,
        files.readFile (resolve deps.cwd migrationsFolder ++ ["meta", "_journal.json"]) =
          some journalRaw ∧
        deps.parse journalRaw = some (.object fields) ∧
        fields.lookup "entries" = some (.array entries) ∧
        ∀ entry ∈ entries, Present files (resolve deps.cwd migrationsFolder) entry := by
  rw [eval_validateMigrationsFolder]
  simp only [present_iff, ← mapM_isJournalEntry, isJournal_eq_some]
  constructor
  · rintro ⟨hdirectory, journalRaw, journal, tags, hread, hparse,
      ⟨fields, entries, rfl, hlookup, htags⟩, hall⟩
    exact ⟨hdirectory, journalRaw, fields, entries, hread, hparse, hlookup, tags, htags, hall⟩
  · rintro ⟨hdirectory, journalRaw, fields, entries, hread, hparse, hlookup, tags, htags, hall⟩
    exact ⟨hdirectory, journalRaw, _, tags, hread, hparse,
      ⟨fields, entries, rfl, hlookup, htags⟩, hall⟩

/-- **What a folder is accepted for**: it is a directory, its journal is an
object with an array of entries, and every entry names, in letters, digits,
dashes and underscores alone, a file that is there, directly in the folder.  And
whatever the answers are, accepted or not, nothing but the folder, its journal
and files named so directly in the folder is ever looked at. -/
theorem migrations_folder_accepted_iff (deps : Dependencies A) (files : Files)
    (migrationsFolder : String) :
    ((validateMigrationsFolder deps migrationsFolder).eval files.answer = some (.ok ()) ↔
      files.isDirectory = some true ∧ ∃ journalRaw fields entries,
        files.readFile (resolve deps.cwd migrationsFolder ++ ["meta", "_journal.json"]) =
          some journalRaw ∧
        deps.parse journalRaw = some (.object fields) ∧
        fields.lookup "entries" = some (.array entries) ∧
        ∀ entry ∈ entries, Present files (resolve deps.cwd migrationsFolder) entry) ∧
    (validateMigrationsFolder deps migrationsFolder).Only
      (fun _ a => a.looksInside (resolve deps.cwd migrationsFolder)) fun _ => True :=
  ⟨accepted_iff deps files migrationsFolder, validateMigrationsFolder_looksInside deps _⟩

end Folder

end MinePanel.Db.Migrate
