/-
  MinePanel.Db.Exclusion
  ──────────────────────
  **MANY PROCESSES START AT ONCE.**

  Any number of processes run `runProductionMigrations` on one database, with
  any steps of the others between two steps of one.  PostgreSQL gives the lock
  to one session at a time and takes it back when the session unlocks, closes
  or is lost: a process may die, and the session that holds the lock may break
  while its process goes on with the migrations.

    * `Moved` — everything one step of a process can do;
    * `migration_lock_kept` — two processes are never inside the migrator at
      once, unless one of them has lost its session, and a process that has
      ended holds the lock only if both its unlock and its close failed;
    * `migrations_serial` — **while no process goes on without its session, the
      database is the work of migrators that ran one after another**.
-/
import MinePanel.Db.Migrate

namespace MinePanel.Db.Migrate

open MinePanel.Lib MinePanel.Lib.Text Prog

/-! ## §1. The processes and the database. -/

/-- What PostgreSQL makes of the steps of the migrator. -/
structure Server (A : Type → Type) (D E : Type) where
  exec : ∀ β : Type, A β → E → D → Option (β × D)
  /-- The connection of a migrator breaks off. -/
  abandon : D → D

/-- The data, and who holds the lock. -/
structure World (D : Type) where
  db : D
  /-- The session that holds advisory lock 7333. -/
  holder : Option Pid
  /-- The processes that have died with the lock. -/
  dead : List Pid

/-- A step of the surroundings. -/
inductive Ambient where
  /-- The session that holds the lock is lost; its process goes on. -/
  | lose
  /-- The process that holds the lock dies. -/
  | die
  deriving Repr, DecidableEq

/-- What the outside decides in one step. -/
structure Env (E : Type) where
  /-- The statement, the connection or the close fails. -/
  fails : Bool := false
  isDirectory : Option Bool := some true
  text : Option String := none
  there : Bool := true
  /-- For a step of the migrator. -/
  step : E
  ambient : Ambient := .lose

variable {A : Type → Type} {D E : Type}

namespace World

/-- A lock that `p` holds is free again. -/
def release (w : World D) (p : Pid) : World D :=
  if w.holder = some p then { w with holder := none } else w

end World

/-- The answer of a step that may fail. -/
def answer (fails : Bool) : Except Exn Unit :=
  if fails then .error .statementFailed else .ok ()

/-- One step of the living process `p`. -/
def act (B : Server A D E) (p : Pid) :
    ∀ {β : Type}, Act A β → Env E → World D → Option (β × World D)
  | _, .isDirectory, e, w => some (e.isDirectory, w)
  | _, .readFile _, e, w => some (e.text, w)
  | _, .access _, e, w => some (e.there, w)
  | _, .openLockClient, e, w => some (answer e.fails, w)
  | _, .lock, e, w =>
      if e.fails then some (answer true, w)
      -- the statement waits for as long as another session holds the lock
      else if w.holder = none ∨ w.holder = some p then
        some (answer false, { w with holder := some p })
      else none
  | _, .openMigrationClient, e, w => some (answer e.fails, w)
  | _, .drizzle, e, w => some (answer e.fails, w)
  | _, .migrator a, e, w => (B.exec _ a e.step w.db).map fun r => (r.1, { w with db := r.2 })
  | _, .unlock, e, w => some (answer e.fails, if e.fails then w else w.release p)
  | _, .endLockClient, e, w => some (answer e.fails, if e.fails then w else w.release p)
  | _, .endMigrationClient, e, w => some (answer e.fails, w)

/-- One step of process `p`. -/
def exec (B : Server A D E) (p : Pid) {β : Type} (a : Act A β) (e : Env E) (w : World D) :
    Option (β × World D) :=
  if p ∈ w.dead then none else act B p a e w

/-- A session is lost, or a process dies with both of its sessions. -/
def ambient (B : Server A D E) (e : Env E) (w : World D) : Option (World D) :=
  match e.ambient, w.holder with
  | .lose, some _ => some { w with holder := none }
  | .die, some p => some { db := B.abandon w.db, holder := none, dead := p :: w.dead }
  | _, none => none

/-- The start of a process. -/
structure Start where
  databaseUrl : String
  migrationsFolder : String
  deriving Repr, DecidableEq

/-- Processes that start on one database. -/
def system (deps : Dependencies A) (B : Server A D E) :
    System (Act A) Exn Unit (World D) (Env E) Start where
  body := fun s => runProductionMigrations deps s.databaseUrl s.migrationsFolder
  exec := fun p _ a e w => exec B p a e w
  ambient := ambient B

/-- A database nobody has locked. -/
def World.idle (d : D) : World D := ⟨d, none, []⟩

/-! ## §2. The run so far. -/

/-- What has gone wrong. -/
structure History where
  /-- The processes that have lost the session with the lock. -/
  lost : List Pid := []
  /-- The processes whose unlock failed. -/
  unlockFailed : List Pid := []
  /-- The processes whose close of the lock client failed. -/
  endFailed : List Pid := []
  deriving Repr, DecidableEq

namespace History

def step (o : History) (p : Pid) : ∀ {β : Type}, Act A β → β → History
  | _, .unlock, .error _ => { o with unlockFailed := p :: o.unlockFailed }
  | _, .endLockClient, .error _ => { o with endFailed := p :: o.endFailed }
  | _, _, _ => o

def ambient (o : History) (w w' : World D) : History :=
  match w.holder with
  | some p => if p ∈ w'.dead then o else { o with lost := p :: o.lost }
  | none => o

end History

/-- Every interleaving; where `steady` holds, a process that has lost its session
makes no further step of the migrator. -/
def watch (steady : Bool) : Watch (Act A) (World D) (Env E) Start History where
  guard := fun o _ p _ _ a _ =>
    match a with
    | .migrator _ => !steady || decide (p ∉ o.lost)
    | _ => true
  onStep := fun o _ p _ _ a b _ => o.step p a b
  onAmbient := fun o w w' => o.ambient w w'

/-! ## §3. What a process does. -/

/-- How far a process has come. -/
structure Progress (A : Type → Type) where
  /-- The lock was granted. -/
  locked : Bool
  /-- What is left of the migrator. -/
  rest : Prog A Exn Unit
  /-- Whether the unlock was answered. -/
  unlocked : Option Bool
  /-- Whether the close of the lock client was answered. -/
  closed : Option Bool

namespace Progress

/-- Nothing done. -/
def fresh (migrate : Prog A Exn Unit) : Progress A := ⟨false, migrate, none, none⟩

/-- Between the lock and the unlock. -/
def Inside (m : Progress A) : Prop := m.locked = true ∧ m.unlocked = none ∧ m.closed = none

/-- What the process may do. -/
def Allows (migrate : Prog A Exn Unit) (m : Progress A) : ∀ {β : Type}, Act A β → Prop
  | _, .lock => m = fresh migrate
  | _, .migrator a => m.Inside ∧ ∃ k, m.rest = .act a k
  | _, .unlock => m.Inside
  | _, .endLockClient => m.closed = none ∧ (m.locked = true → m.unlocked.isSome = true)
  | _, _ => True

/-- Where a step takes it. -/
def Next (m : Progress A) : ∀ {β : Type}, Act A β → β → Progress A → Prop
  | _, .lock, b, m' => m' = { m with locked := b.isOk }
  | _, .migrator a, b, m' => ∃ k, m.rest = .act a k ∧ m' = { m with rest := k b }
  | _, .unlock, b, m' => m' = { m with unlocked := some b.isOk }
  | _, .endLockClient, b, m' => m' = { m with closed := some b.isOk }
  | _, _, _, m' => m' = m

/-- A process that has the lock has tried to give it back, twice. -/
def Settled (m : Progress A) : Prop :=
  m.locked = true → m.unlocked.isSome = true ∧ m.closed.isSome = true

end Progress

/-- The monitor of a process. -/
def tracking (migrate : Prog A Exn Unit) : Monitor (Act A) (Progress A) where
  allow := fun m a => m.Allows migrate a
  next := fun m a b m' => m.Next a b m'

section Process

variable {deps : Dependencies A} {m : Progress A} {α : Type}

/-- The checks neither lock nor migrate. -/
def Checks : ∀ β : Type, Act A β → Prop
  | _, .isDirectory => True
  | _, .readFile _ => True
  | _, .access _ => True
  | _, _ => False

theorem checks_validateDatabaseUrl (url : String) :
    Only Checks (fun _ => True) (validateDatabaseUrl deps url) := by
  unfold validateDatabaseUrl
  refine only_guard (fun _ => trivial) fun _ => ?_
  split
  next => trivial
  next => exact only_guard (fun _ => trivial) fun _ => trivial

theorem checks_validateEntries (root : Path) (tags : List String) :
    Only Checks (fun _ => True) (validateEntries root tags : Call A Unit) := by
  induction tags with
  | nil => trivial
  | cons tag tags ih =>
      unfold validateEntries
      refine only_guard (fun _ => trivial) fun _ => only_bind ⟨trivial, fun _ => trivial⟩ ?_
      exact fun there => only_guard (fun _ => trivial) fun _ => ih

theorem checks_validateMigrationsFolder (folder : String) :
    Only Checks (fun _ => True) (validateMigrationsFolder deps folder) := by
  unfold validateMigrationsFolder
  refine only_bind ⟨trivial, fun _ => trivial⟩ fun isDirectory => ?_
  split
  next => trivial
  next =>
    refine only_guard (fun _ => trivial) fun _ => ?_
    refine only_bind ⟨trivial, fun _ => trivial⟩ fun journalRaw => ?_
    split
    next => trivial
    next =>
      split
      next => trivial
      next =>
        split
        next => trivial
        next => exact checks_validateEntries _ _

theorem ignores_checks (m : Progress A) : (tracking deps.migrate).Ignores Checks m := by
  intro β a ha
  cases a with
  | isDirectory => exact ⟨trivial, fun _ _ h => h⟩
  | readFile path => exact ⟨trivial, fun _ _ h => h⟩
  | access path => exact ⟨trivial, fun _ _ h => h⟩
  | _ => exact absurd ha id

/-- The migrator runs inside, and where it returns nothing of it is left. -/
theorem wp_migrator {p : Prog A Exn Unit} (hm : m.Inside) (hrest : m.rest = p) :
    wp (tracking deps.migrate) (fun r m' => m'.Inside ∧ m'.rest = .ret r)
      (fun _ m' => m'.Inside) (p.hoist fun a => (perform (.migrator a) : Call A _)) m := by
  induction p generalizing m with
  | ret r => exact ⟨hm, hrest⟩
  | fail e => exact hm
  | act a k ih =>
      refine ⟨⟨hm, k, hrest⟩, fun b m' hnext => ?_⟩
      obtain ⟨k', hk', rfl⟩ := hnext
      obtain rfl : k = k' := by
        rw [hrest] at hk'
        injection hk' with _ _ hk
      exact ih b hm rfl

/-- The body of the inner `try`. -/
theorem wp_migrateOnClient (hm : m.Inside) (hrest : m.rest = deps.migrate) :
    wp (tracking deps.migrate) (fun r m' => m'.Inside ∧ (r.2 = .ok () → m'.rest = .ret ()))
      (fun _ _ => False) (migrateOnClient deps) m := by
  unfold migrateOnClient
  refine wp_seq ⟨trivial, fun opened m₁ h₁ => ?_⟩
  obtain rfl : m₁ = m := h₁
  cases opened with
  | error e => exact ⟨hm, fun h => by cases h⟩
  | ok u =>
      refine wp_seq ⟨trivial, fun drizzled m₂ h₂ => ?_⟩
      obtain rfl : m₂ = m₁ := h₂
      cases drizzled with
      | error e => exact ⟨hm, fun h => by cases h⟩
      | ok u =>
          refine wp_seq ((wp_tryCatch _ _ _).mpr (wp_seq (wp_mono _ _ ?_ ?_
            (wp_migrator hm hrest))))
          · intro r m₃ h₃
            exact ⟨h₃.1, fun _ => h₃.2⟩
          · intro e m₃ h₃
            exact ⟨h₃, fun h => by cases h⟩

/-- The body of the outer `try`: the lock client is open wherever the lock was
granted. -/
theorem wp_migrateLocked :
    wp (tracking deps.migrate)
      (fun r m => m.closed = none ∧ (m.locked = true → m.unlocked.isSome = true) ∧
        (m.locked = true → r.1.lockClient = true) ∧
        (r.2 = .ok () → m.locked = true ∧ m.rest = .ret ()))
      (fun _ _ => False) (migrateLocked deps) (Progress.fresh deps.migrate) := by
  unfold migrateLocked
  refine wp_seq ⟨trivial, fun opened m₁ h₁ => ?_⟩
  obtain rfl : m₁ = Progress.fresh deps.migrate := h₁
  cases opened with
  | error e => exact ⟨rfl, fun h => (by cases h), fun h => (by cases h), fun h => (by cases h)⟩
  | ok u =>
      refine wp_seq ⟨rfl, fun granted m₂ h₂ => ?_⟩
      obtain rfl : m₂ = { Progress.fresh deps.migrate with locked := granted.isOk } := h₂
      cases granted with
      | error e => exact ⟨rfl, fun h => (by cases h), fun h => (by cases h), fun h => (by cases h)⟩
      | ok u =>
          refine wp_seq (wp_mono _ _ ?_ (fun _ _ h => absurd h id)
            (wp_migrateOnClient ⟨rfl, rfl, rfl⟩ rfl))
          rintro ⟨opened, result⟩ m₃ ⟨hinside, hresult⟩
          refine wp_seq ⟨hinside, fun unlocked m₄ h₄ => ?_⟩
          obtain rfl : m₄ = { m₃ with unlocked := some unlocked.isOk } := h₄
          exact ⟨hinside.2.2, fun _ => rfl, fun _ => rfl, fun h => ⟨hinside.1, hresult h⟩⟩

/-- The `finally` block closes the lock client, and leaves the rest. -/
theorem wp_closeClients {clients : Clients} (hclosed : m.closed = none)
    (hunlocked : m.locked = true → m.unlocked.isSome = true)
    (hopen : m.locked = true → clients.lockClient = true) :
    wp (tracking deps.migrate)
      (fun _ m' => m'.locked = m.locked ∧ m'.rest = m.rest ∧ m'.Settled) (fun _ _ => False)
      (closeClients clients) m := by
  obtain ⟨lockClient, migrationClient⟩ := clients
  have hend : ∀ m', m'.locked = m.locked → m'.rest = m.rest → m'.Settled →
      wp (tracking deps.migrate)
        (fun _ m' => m'.locked = m.locked ∧ m'.rest = m.rest ∧ m'.Settled) (fun _ _ => False)
        (if migrationClient = true then
          (perform .endMigrationClient : Call A (Except Exn Unit)).bind fun _ => ret ()
        else ret ()) m' := by
    intro m' h₁ h₂ h₃
    cases migrationClient with
    | false => exact ⟨h₁, h₂, h₃⟩
    | true =>
        refine wp_seq ⟨trivial, fun _ m'' h => ?_⟩
        obtain rfl : m'' = m' := h
        exact ⟨h₁, h₂, h₃⟩
  cases lockClient with
  | false => exact hend m rfl rfl fun h => absurd (hopen h) Bool.false_ne_true
  | true =>
      refine wp_seq ⟨⟨hclosed, hunlocked⟩, fun closed m' h => ?_⟩
      obtain rfl : m' = { m with closed := some closed.isOk } := h
      exact hend _ rfl rfl fun h => ⟨hunlocked h, rfl⟩

/-- **What a process does**: it migrates between the lock and the unlock, and
returns only where the migrator has come to its end. -/
theorem wp_runProductionMigrations (databaseUrl folder : String) :
    wp (tracking deps.migrate) (fun _ m => m.locked = true ∧ m.rest = .ret () ∧ m.Settled)
      (fun _ m => m.Settled) (runProductionMigrations deps databaseUrl folder)
      (Progress.fresh deps.migrate) := by
  have hsettled : (Progress.fresh deps.migrate).Settled := fun h => by cases h
  unfold runProductionMigrations
  refine wp_seq (wp_of_only (checks_validateDatabaseUrl databaseUrl) (ignores_checks _)
    (fun _ => ?_) fun _ _ => hsettled)
  refine wp_seq (wp_of_only (checks_validateMigrationsFolder folder) (ignores_checks _)
    (fun _ => ?_) fun _ _ => hsettled)
  refine wp_seq (wp_mono _ _ ?_ (fun _ _ h => absurd h id) wp_migrateLocked)
  rintro ⟨clients, result⟩ m₁ ⟨hclosed, hunlocked, hopen, hresult⟩
  refine wp_seq (wp_mono _ _ ?_ (fun _ _ h => absurd h id)
    (wp_closeClients hclosed hunlocked hopen))
  rintro - m₂ ⟨hlocked, hrest, hm₂⟩
  cases result with
  | error e => exact hm₂
  | ok u =>
      obtain ⟨h₁, h₂⟩ := hresult rfl
      exact ⟨hlocked.trans h₁, hrest.trans h₂, hm₂⟩

end Process

/-! ## §4. One step of the system. -/

section Steps

variable {B : Server A D E} {migrate : Prog A Exn Unit} {steady : Bool} {p q : Pid}
  {o o' : History} {w w' : World D} {m m' : Progress A} {gs : Pid → Progress A}

theorem release_holder : (w.release p).holder = some q ↔ w.holder = some q ∧ q ≠ p := by
  unfold World.release
  split
  next h =>
    rw [h]
    simp only [reduceCtorEq, Option.some.injEq, false_iff, not_and, not_not]
    exact Eq.symm
  next h =>
    refine ⟨fun hq => ⟨hq, ?_⟩, And.left⟩
    rintro rfl
    exact h hq

theorem release_dead : (w.release p).dead = w.dead := by
  unfold World.release
  split <;> rfl

/-- **Everything one step of process `p` can do**, from how far it has come. -/
inductive Moved (B : Server A D E) (migrate : Prog A Exn Unit) (steady : Bool) (p : Pid)
    (o : History) (w : World D) (m : Progress A) : History → World D → Progress A → Prop where
  | quiet : Moved B migrate steady p o w m o w m
  | granted (hm : m = Progress.fresh migrate) (hfree : w.holder = none ∨ w.holder = some p) :
      Moved B migrate steady p o w m o { w with holder := some p } { m with locked := true }
  | migrated {β : Type} {a : A β} {k : β → Prog A Exn Unit} {e : E} {b : β} {d : D}
      (hm : m.Inside) (hrest : m.rest = .act a k) (hsteady : steady = true → p ∉ o.lost)
      (hx : B.exec β a e w.db = some (b, d)) :
      Moved B migrate steady p o w m o { w with db := d } { m with rest := k b }
  | unlocked (hm : m.Inside) :
      Moved B migrate steady p o w m o (w.release p) { m with unlocked := some true }
  | unlockFails (hm : m.Inside) :
      Moved B migrate steady p o w m { o with unlockFailed := p :: o.unlockFailed } w
        { m with unlocked := some false }
  | closed (hm : m.locked = true → m.unlocked.isSome = true) :
      Moved B migrate steady p o w m o (w.release p) { m with closed := some true }
  | closeFails (hm : m.locked = true → m.unlocked.isSome = true) :
      Moved B migrate steady p o w m { o with endFailed := p :: o.endFailed } w
        { m with closed := some false }

/-- Every allowed step is one of these. -/
theorem moved_of_exec {β : Type} {a : Act A β} {e : Env E} {b : β} {s : Start}
    (hallow : m.Allows migrate a) (hguard : (watch steady).guard o w p s a e = true)
    (hx : exec B p a e w = some (b, w')) :
    p ∉ w.dead ∧ ∃ m', m.Next a b m' ∧ Moved B migrate steady p o w m (o.step p a b) w' m' := by
  unfold exec at hx
  split at hx
  next => cases hx
  next halive =>
    refine ⟨halive, ?_⟩
    cases a with
    | lock =>
        simp only [act] at hx
        split at hx
        next =>
          cases hx
          obtain rfl := hallow
          exact ⟨_, rfl, .quiet⟩
        next =>
          split at hx
          next hfree =>
            cases hx
            exact ⟨_, rfl, .granted hallow hfree⟩
          next => cases hx
    | migrator a =>
        obtain ⟨r, hr, hw⟩ := Option.map_eq_some_iff.mp hx
        cases hw
        obtain ⟨hm, k, hrest⟩ := hallow
        refine ⟨_, ⟨k, hrest, rfl⟩, .migrated hm hrest (fun hsteady => ?_) hr⟩
        subst hsteady
        exact of_decide_eq_true hguard
    | unlock =>
        cases hx
        cases hfails : e.fails with
        | true => exact ⟨_, rfl, by simpa [answer, hfails] using .unlockFails hallow⟩
        | false => exact ⟨_, rfl, by simpa [answer, hfails] using .unlocked hallow⟩
    | endLockClient =>
        cases hx
        cases hfails : e.fails with
        | true => exact ⟨_, rfl, by simpa [answer, hfails] using .closeFails hallow.2⟩
        | false => exact ⟨_, rfl, by simpa [answer, hfails] using .closed hallow.2⟩
    | _ =>
        cases hx
        exact ⟨_, rfl, .quiet⟩

end Steps

/-! ## §5. Who holds the lock. -/

section Lock

variable {B : Server A D E} {migrate : Prog A Exn Unit} {steady : Bool} {p q : Pid}
  {o o' : History} {w w' : World D} {m m' : Progress A} {gs : Pid → Progress A} {e : Env E}

/-- What the lock, the run so far and the processes have to do with each other. -/
structure Held (w : World D) (o : History) (gs : Pid → Progress A) : Prop where
  holder : ∀ p, w.holder = some p →
    (gs p).locked = true ∧ (gs p).unlocked ≠ some true ∧ (gs p).closed ≠ some true
  inside : ∀ p, (gs p).Inside → w.holder = some p ∨ p ∈ o.lost ∨ p ∈ w.dead
  unlockFailed : ∀ p, (gs p).unlocked = some false → p ∈ o.unlockFailed
  endFailed : ∀ p, (gs p).closed = some false → p ∈ o.endFailed

theorem Held.start (d : D) (migrate : Prog A Exn Unit) :
    Held (World.idle d) {} fun _ => Progress.fresh migrate where
  holder := fun _ h => by cases h
  inside := fun _ h => absurd h.1 Bool.false_ne_true
  unlockFailed := fun _ h => by cases h
  endFailed := fun _ h => by cases h

/-- A step of `p` leaves the other processes where they are. -/
theorem Held.step (h : Held w o gs) (hmoved : Moved B migrate steady p o w (gs p) o' w' m') :
    Held w' o' (Function.update gs p m') := by
  -- what the new world and run say about `p`, and what they keep of the others
  have hall : ∀ {w' : World D} {o' : History} {m' : Progress A},
      (∀ q, q ≠ p → (w'.holder = some q ↔ w.holder = some q)) → w'.dead = w.dead →
      (o'.lost = o.lost ∧ o.unlockFailed ⊆ o'.unlockFailed ∧ o.endFailed ⊆ o'.endFailed) →
      (w'.holder = some p → m'.locked = true ∧ m'.unlocked ≠ some true ∧ m'.closed ≠ some true) →
      (m'.Inside → w'.holder = some p ∨ p ∈ o.lost ∨ p ∈ w.dead) →
      (m'.unlocked = some false → p ∈ o'.unlockFailed) →
      (m'.closed = some false → p ∈ o'.endFailed) → Held w' o' (Function.update gs p m') := by
    intro w' o' m' hholder hdead ⟨hlost, hunlock, hend⟩ h₁ h₂ h₃ h₄
    constructor <;> intro q
    · by_cases hq : q = p
      · subst hq
        rw [Function.update_self]
        exact h₁
      · rw [Function.update_of_ne hq, hholder q hq]
        exact h.holder q
    · rw [hlost, hdead]
      by_cases hq : q = p
      · subst hq
        rw [Function.update_self]
        exact h₂
      · rw [Function.update_of_ne hq, hholder q hq]
        exact h.inside q
    · by_cases hq : q = p
      · subst hq
        rw [Function.update_self]
        exact h₃
      · rw [Function.update_of_ne hq]
        exact fun hu => hunlock (h.unlockFailed q hu)
    · by_cases hq : q = p
      · subst hq
        rw [Function.update_self]
        exact h₄
      · rw [Function.update_of_ne hq]
        exact fun hc => hend (h.endFailed q hc)
  have hsame : o.lost = o.lost ∧ o.unlockFailed ⊆ o.unlockFailed ∧ o.endFailed ⊆ o.endFailed :=
    ⟨rfl, List.Subset.refl _, List.Subset.refl _⟩
  have hreleased : ∀ q, q ≠ p → ((w.release p).holder = some q ↔ w.holder = some q) := by
    intro q hq
    rw [release_holder]
    exact ⟨And.left, fun hw => ⟨hw, hq⟩⟩
  have hfree : (w.release p).holder ≠ some p := fun hp => (release_holder.mp hp).2 rfl
  cases hmoved with
  | quiet =>
      exact hall (fun _ _ => Iff.rfl) rfl hsame (h.holder p) (h.inside p) (h.unlockFailed p)
        (h.endFailed p)
  | granted hm hfree =>
      have hothers : ∀ q, q ≠ p → (some p = some q ↔ w.holder = some q) := by
        intro q hq
        rcases hfree with hw | hw
        · rw [hw]
          simp [hq.symm]
        · rw [hw]
      rw [hm]
      exact hall hothers rfl hsame (fun _ => ⟨rfl, by simp [Progress.fresh], by
        simp [Progress.fresh]⟩) (fun _ => Or.inl rfl) (fun h => by cases h) fun h => by cases h
  | migrated hm hrest hsteady hx =>
      exact hall (fun _ _ => Iff.rfl) rfl hsame (h.holder p) (h.inside p) (h.unlockFailed p)
        (h.endFailed p)
  | unlocked hm =>
      exact hall hreleased release_dead hsame (fun hp => absurd hp hfree)
        (fun hi => absurd hi.2.1 (by simp)) (fun hu => (by cases hu)) (h.endFailed p)
  | unlockFails hm =>
      refine hall (fun _ _ => Iff.rfl) rfl ⟨rfl, List.subset_cons_self _ _, List.Subset.refl _⟩
        (fun hp => ?_) (fun hi => absurd hi.2.1 (by simp)) (fun _ => List.mem_cons_self)
        (h.endFailed p)
      exact ⟨(h.holder p hp).1, by simp, (h.holder p hp).2.2⟩
  | closed hm =>
      exact hall hreleased release_dead hsame (fun hp => absurd hp hfree)
        (fun hi => absurd hi.2.2 (by simp)) (h.unlockFailed p) fun hc => (by cases hc)
  | closeFails hm =>
      refine hall (fun _ _ => Iff.rfl) rfl ⟨rfl, List.Subset.refl _, List.subset_cons_self _ _⟩
        (fun hp => ?_) (fun hi => absurd hi.2.2 (by simp)) (h.unlockFailed p)
        fun _ => List.mem_cons_self
      exact ⟨(h.holder p hp).1, (h.holder p hp).2.1, by simp⟩

/-- The session that holds the lock goes, alone or with its process. -/
theorem ambient_cases (hx : ambient B e w = some w') : ∃ p, w.holder = some p ∧
    (w' = { w with holder := none } ∨
      w' = { db := B.abandon w.db, holder := none, dead := p :: w.dead }) := by
  unfold ambient at hx
  split at hx
  next p _ hp =>
    cases hx
    exact ⟨p, hp, Or.inl rfl⟩
  next p _ hp =>
    cases hx
    exact ⟨p, hp, Or.inr rfl⟩
  next => cases hx

theorem Held.ambient (h : Held w o gs) (hx : Migrate.ambient B e w = some w') :
    Held w' (o.ambient w w') gs := by
  obtain ⟨p, hp, hw⟩ := ambient_cases hx
  have hfields : (o.ambient w w').unlockFailed = o.unlockFailed ∧
      (o.ambient w w').endFailed = o.endFailed := by
    unfold History.ambient
    rw [hp]
    dsimp only
    split <;> exact ⟨rfl, rfl⟩
  have hnone : w'.holder = none := by
    rcases hw with rfl | rfl <;> rfl
  have hgone : p ∈ (o.ambient w w').lost ∨ p ∈ w'.dead := by
    unfold History.ambient
    rw [hp]
    dsimp only
    split
    next hdead => exact Or.inr hdead
    next => exact Or.inl List.mem_cons_self
  have hlost : o.lost ⊆ (o.ambient w w').lost := by
    unfold History.ambient
    rw [hp]
    dsimp only
    split
    next => exact List.Subset.refl _
    next => exact List.subset_cons_self _ _
  have hdead : w.dead ⊆ w'.dead := by
    rcases hw with rfl | rfl
    · exact List.Subset.refl _
    · exact List.subset_cons_self _ _
  refine ⟨fun q hq => ?_, fun q hq => ?_, fun q hq => ?_, fun q hq => ?_⟩
  · rw [hnone] at hq
    cases hq
  · rcases h.inside q hq with hq | hq | hq
    · obtain rfl := Option.some.inj (hp.symm.trans hq)
      exact Or.inr hgone
    · exact Or.inr (Or.inl (hlost hq))
    · exact Or.inr (Or.inr (hdead hq))
  · rw [hfields.1]
    exact h.unlockFailed q hq
  · rw [hfields.2]
    exact h.endFailed q hq

end Lock

/-! ## §6. One migrator after another. -/

section Order

variable {B : Server A D E} {migrate : Prog A Exn Unit} {p q : Pid} {d₀ : D} {o o' : History}
  {w w' : World D} {m m' : Progress A} {gs : Pid → Progress A} {e : Env E}
  {rs : List (Pid × Prog A Exn Unit)}

/-- The migrators so far: `rs` those that are over, and then the one of the
process that holds the lock. -/
structure Ordered (B : Server A D E) (migrate : Prog A Exn Unit) (d₀ : D) (w : World D)
    (gs : Pid → Progress A) (rs : List (Pid × Prog A Exn Unit)) : Prop where
  turn : Turn B.exec B.abandon (· ∈ w.dead) migrate d₀ rs
    (w.holder.map fun p => (p, (gs p).rest)) w.db
  past : ∀ p, (gs p).locked = true → w.holder ≠ some p → (p, (gs p).rest) ∈ rs
  begun : ∀ r ∈ rs, (gs r.1).locked = true ∧ w.holder ≠ some r.1
  once : (rs.map Prod.fst).Nodup

theorem Ordered.start (d : D) :
    Ordered B migrate d (World.idle d) (fun _ => Progress.fresh migrate) [] where
  turn := Serial.start
  past := fun _ h => absurd h Bool.false_ne_true
  begun := fun _ h => absurd h List.not_mem_nil
  once := List.nodup_nil

/-- Nothing the order depends on has changed. -/
theorem Ordered.frame (h : Ordered B migrate d₀ w gs rs) (hholder : w'.holder = w.holder)
    (hdb : w'.db = w.db) (hdead : w'.dead = w.dead) (hlocked : m'.locked = (gs p).locked) (hrest : m'.rest = (gs p).rest) :
    Ordered B migrate d₀ w' (Function.update gs p m') rs := by
  have hupdate : ∀ q, (Function.update gs p m' q).locked = (gs q).locked ∧
      (Function.update gs p m' q).rest = (gs q).rest := by
    intro q
    by_cases hq : q = p
    · subst hq
      rw [Function.update_self]
      exact ⟨hlocked, hrest⟩
    · rw [Function.update_of_ne hq]
      exact ⟨rfl, rfl⟩
  refine ⟨?_, fun q => ?_, fun r hr => ?_, h.once⟩
  · rw [hholder, hdb, hdead]
    simpa only [hupdate] using h.turn
  · rw [(hupdate q).1, (hupdate q).2, hholder]
    exact h.past q
  · rw [(hupdate r.1).1, hholder]
    exact h.begun r hr

/-- The turn of the one that holds the lock is over. -/
theorem Ordered.over (h : Ordered B migrate d₀ w gs rs) (hheld : Held w o gs)
    (hp : w.holder = some p) (hholder : w'.holder = none)
    (hturn : Turn B.exec B.abandon (· ∈ w'.dead) migrate d₀ ((p, (gs p).rest) :: rs) none w'.db) :
    Ordered B migrate d₀ w' gs ((p, (gs p).rest) :: rs) := by
  have hfresh : p ∉ rs.map Prod.fst := by
    intro hmem
    obtain ⟨r, hr, rfl⟩ := List.mem_map.mp hmem
    exact (h.begun r hr).2 hp
  refine ⟨by rwa [hholder], fun q hq _ => ?_, fun r hr => ⟨?_, by simp [hholder]⟩, ?_⟩
  · by_cases hqp : q = p
    · subst hqp
      exact List.mem_cons_self
    · refine List.mem_cons_of_mem _ (h.past q hq ?_)
      rw [hp]
      exact fun heq => hqp (Option.some.inj heq).symm
  · rcases List.mem_cons.mp hr with rfl | hr
    · exact (hheld.holder p hp).1
    · exact (h.begun r hr).1
  · rw [List.map_cons, List.nodup_cons]
    exact ⟨hfresh, h.once⟩

/-- The one that holds the lock gives it back, or loses it. -/
theorem Ordered.drop (h : Ordered B migrate d₀ w gs rs) (hheld : Held w o gs)
    (hp : w.holder = some p) :
    Ordered B migrate d₀ { w with holder := none } gs ((p, (gs p).rest) :: rs) := by
  have hturn := h.turn
  rw [hp] at hturn
  exact h.over hheld hp rfl hturn.drop

/-- The one that holds the lock dies. -/
theorem Ordered.die (h : Ordered B migrate d₀ w gs rs) (hheld : Held w o gs)
    (hp : w.holder = some p) :
    Ordered B migrate d₀ { db := B.abandon w.db, holder := none, dead := p :: w.dead } gs
      ((p, (gs p).rest) :: rs) := by
  have hturn := h.turn
  rw [hp] at hturn
  exact h.over hheld hp rfl
    ((hturn.mono fun _ hq => List.mem_cons_of_mem _ hq).cut List.mem_cons_self)

theorem Ordered.release (h : Ordered B migrate d₀ w gs rs) (hheld : Held w o gs) (p : Pid) :
    ∃ rs', Ordered B migrate d₀ (w.release p) gs rs' := by
  unfold World.release
  split
  next hp => exact ⟨_, h.drop hheld hp⟩
  next => exact ⟨rs, h⟩

/-- **A step keeps the order**: only the process that holds the lock migrates. -/
theorem Ordered.step (h : Ordered B migrate d₀ w gs rs) (hheld : Held w o gs)
    (halive : p ∉ w.dead) (hmoved : Moved B migrate true p o w (gs p) o' w' m') :
    ∃ rs', Ordered B migrate d₀ w' (Function.update gs p m') rs' := by
  cases hmoved with
  | quiet => exact ⟨rs, h.frame rfl rfl rfl rfl rfl⟩
  | granted hm hfree =>
      have hnone : w.holder = none := by
        refine hfree.resolve_right fun hp => ?_
        have hlocked := (hheld.holder p hp).1
        rw [hm] at hlocked
        cases hlocked
      have hturn := h.turn
      rw [hnone] at hturn
      have hne : ∀ r ∈ rs, r.1 ≠ p := by
        rintro r hr rfl
        have hlocked := (h.begun r hr).1
        rw [hm] at hlocked
        cases hlocked
      refine ⟨rs, ?_, fun q hq hq' => ?_, fun r hr => ?_, h.once⟩
      · show Turn _ _ _ _ _ _ (some (p, (Function.update gs p _ p).rest)) _
        rw [Function.update_self, hm]
        exact hturn.take p
      · have hqp : q ≠ p := fun heq => hq' (by rw [heq])
        rw [Function.update_of_ne hqp] at hq ⊢
        exact h.past q hq (by rw [hnone]; simp)
      · rw [Function.update_of_ne (hne r hr)]
        exact ⟨(h.begun r hr).1, fun heq => hne r hr (Option.some.inj heq).symm⟩
  | migrated hm hrest hsteady hx =>
      have hp : w.holder = some p := (hheld.inside p hm).resolve_right fun hgone =>
        hgone.elim (hsteady rfl) halive
      have hturn := h.turn
      rw [hp, Option.map_some, hrest] at hturn
      have hne : ∀ q, w.holder ≠ some q → q ≠ p := fun q hq heq => hq (by rw [heq, hp])
      refine ⟨rs, ?_, fun q hq hq' => ?_, fun r hr => ?_, h.once⟩
      · show Turn _ _ _ _ _ _ (w.holder.map _) _
        rw [hp, Option.map_some, Function.update_self]
        exact hturn.step hx
      · rw [Function.update_of_ne (hne q hq')] at hq ⊢
        exact h.past q hq hq'
      · rw [Function.update_of_ne (hne _ (h.begun r hr).2)]
        exact h.begun r hr
  | unlocked hm =>
      obtain ⟨rs', h'⟩ := h.release hheld p
      exact ⟨rs', h'.frame rfl rfl rfl rfl rfl⟩
  | unlockFails hm => exact ⟨rs, h.frame rfl rfl rfl rfl rfl⟩
  | closed hm =>
      obtain ⟨rs', h'⟩ := h.release hheld p
      exact ⟨rs', h'.frame rfl rfl rfl rfl rfl⟩
  | closeFails hm => exact ⟨rs, h.frame rfl rfl rfl rfl rfl⟩

theorem Ordered.ambient (h : Ordered B migrate d₀ w gs rs) (hheld : Held w o gs)
    (hx : Migrate.ambient B e w = some w') : ∃ rs', Ordered B migrate d₀ w' gs rs' := by
  obtain ⟨p, hp, rfl | rfl⟩ := ambient_cases hx
  · exact ⟨_, h.drop hheld hp⟩
  · exact ⟨_, h.die hheld hp⟩

end Order

/-! ## §7. Runs. -/

section Runs

variable {deps : Dependencies A} {B : Server A D E} {d : D} {o : History}
  {c : Config (Act A) Exn Unit (World D) Start}

/-- The processes and the lock, in every run. -/
theorem held_run {steady : Bool}
    (h : (system deps B).Reach (watch steady) (Config.init (World.idle d)) {} c o) :
    ∃ gs, (Held c.world o gs ∧ (steady = true → ∃ rs, Ordered B deps.migrate d c.world gs rs)) ∧
      System.Tracks (fun _ => tracking deps.migrate) (Progress.fresh deps.migrate)
        (fun _ _ m => m.locked = true ∧ m.rest = .ret () ∧ m.Settled) (fun _ _ m => m.Settled)
        c gs :=
  System.Reach.sound (S := system deps B) (V := watch steady)
    (M := fun _ => tracking deps.migrate)
    (Q := fun _ _ m => m.locked = true ∧ m.rest = .ret () ∧ m.Settled)
    (E := fun _ _ m => m.Settled) (fun _ => Progress.fresh deps.migrate)
    (fun w o gs => Held w o gs ∧ (steady = true → ∃ rs, Ordered B deps.migrate d w gs rs))
    (fun {_ _ _ s} _ => wp_runProductionMigrations s.databaseUrl s.migrationsFolder)
    (fun hinv hp _ => by rwa [← hp, Function.update_eq_self])
    (fun hinv hallow hguard hx => by
      obtain ⟨halive, m', hnext, hmoved⟩ := moved_of_exec hallow hguard hx
      refine ⟨m', hnext, hinv.1.step hmoved, fun hsteady => ?_⟩
      subst hsteady
      obtain ⟨rs, hordered⟩ := hinv.2 rfl
      exact hordered.step hinv.1 halive hmoved)
    (fun hinv hx => by
      refine ⟨hinv.1.ambient hx, fun hsteady => ?_⟩
      obtain ⟨rs, hordered⟩ := hinv.2 hsteady
      exact hordered.ambient hinv.1 hx)
    (fun _ _ hx => by cases hx)
    ⟨Held.start d deps.migrate, fun _ => ⟨[], Ordered.start d⟩⟩ h

end Runs

/-- A living process is about to take a step of the migrator. -/
def Migrating (c : Config (Act A) Exn Unit (World D) Start) (p : Pid) : Prop :=
  p ∉ c.world.dead ∧ ∃ (s : Start) (β : Type) (a : A β) (k : β → Call A Unit),
    c.calls p = some ⟨s, .act (.migrator a) k⟩

/-- **THE LOCK IS KEPT.**  In every run of any number of processes, with any
failures: of two processes inside the migrator one has lost its session, and a
process that has returned or failed still holds the lock only if both its
unlock and its close failed. -/
theorem migration_lock_kept (deps : Dependencies A) (B : Server A D E) (d : D) (o : History)
    (c : Config (Act A) Exn Unit (World D) Start)
    (h : (system deps B).Reach (watch false) (Config.init (World.idle d)) {} c o) :
    (∀ p q, p ≠ q → Migrating c p → Migrating c q → p ∈ o.lost ∨ q ∈ o.lost) ∧
      ∀ p s, (c.returned p s () ∨ ∃ x, c.failed p s x) → c.world.holder = some p →
        p ∈ o.unlockFailed ∧ p ∈ o.endFailed := by
  obtain ⟨gs, ⟨hheld, -⟩, htracks⟩ := held_run h
  constructor
  · intro p q hne hp hq
    have hinside : ∀ {r}, Migrating c r → c.world.holder = some r ∨ r ∈ o.lost := by
      rintro r ⟨halive, s, β, a, k, hcall⟩
      rcases hheld.inside r (htracks.allow hcall).1 with hr | hr | hr
      · exact Or.inl hr
      · exact Or.inr hr
      · exact absurd hr halive
    rcases hinside hp with hp | hp
    · rcases hinside hq with hq | hq
      · exact absurd (Option.some.inj (hp.symm.trans hq)) hne
      · exact Or.inr hq
    · exact Or.inl hp
  · intro p s hended hp
    obtain ⟨hlocked, hunlocked, hclosed⟩ := hheld.holder p hp
    have hsettled : (gs p).Settled := by
      rcases hended with hret | ⟨x, hfail⟩
      · exact (htracks.returned hret).2.2
      · exact htracks.failed hfail
    -- both were tried, and neither was answered
    obtain ⟨hu, hc⟩ := hsettled hlocked
    constructor
    · cases hval : (gs p).unlocked with
      | none =>
          rw [hval] at hu
          cases hu
      | some b =>
          cases b with
          | true => exact absurd hval hunlocked
          | false => exact hheld.unlockFailed p hval
    · cases hval : (gs p).closed with
      | none =>
          rw [hval] at hc
          cases hc
      | some b =>
          cases b with
          | true => exact absurd hval hclosed
          | false => exact hheld.endFailed p hval

/-- **MIGRATIONS ARE SERIAL.**  In every run in which a process that has lost its
session takes no further step of the migrator, the database is what migrators
have made of it that ran one after another, each undisturbed and at most one
for a process, cleaned up where their process had died; and a process that has returned ran its migrator to the end. -/
theorem migrations_serial (deps : Dependencies A) (B : Server A D E) (d : D) (o : History)
    (c : Config (Act A) Exn Unit (World D) Start)
    (h : (system deps B).Reach (watch true) (Config.init (World.idle d)) {} c o) :
    ∃ rs, Serial B.exec B.abandon (· ∈ c.world.dead) deps.migrate d rs c.world.db ∧ (rs.map Prod.fst).Nodup ∧
      ∀ p s, c.returned p s () → (p, .ret ()) ∈ rs := by
  obtain ⟨gs, ⟨hheld, hordered⟩, htracks⟩ := held_run h
  obtain ⟨rs, hrs⟩ := hordered rfl
  have hdone : ∀ {p s}, c.returned p s () → (gs p).locked = true ∧ (gs p).rest = .ret () := by
    intro p s hret
    exact ⟨(htracks.returned hret).1, (htracks.returned hret).2.1⟩
  cases hholder : c.world.holder with
  | none =>
      have hturn := hrs.turn
      rw [hholder] at hturn
      refine ⟨rs, hturn, hrs.once, fun p s hret => ?_⟩
      rw [← (hdone hret).2]
      exact hrs.past p (hdone hret).1 (by rw [hholder]; simp)
  | some q =>
      -- the migrator of the one that holds the lock is the last so far
      have hdrop := hrs.drop hheld hholder
      refine ⟨_, hdrop.turn, hdrop.once, fun p s hret => ?_⟩
      rw [← (hdone hret).2]
      exact hdrop.past p (hdone hret).1 (by simp)

/-! ## §8. Two processes start. -/

/-- The steps of a small migrator. -/
inductive SampleStep : Type → Type where
  /-- How many migrations the database has. -/
  | applied : SampleStep Nat
  | apply (migrations : List String) : SampleStep Unit

/-- It applies what is missing of the one migration. -/
def sampleMigrate : Prog SampleStep Exn Unit :=
  .act .applied fun n => if n = 0 then .act (.apply ["0000_init"]) .ret else .ret ()

/-- The journal of the one migration. -/
def sampleJournal : String := "\x7b\"entries\":[\x7b\"tag\":\"0000_init\"\x7d]\x7d"

def sampleDependencies : Dependencies SampleStep where
  cwd := ["app"]
  protocol := fun url => if url = "postgres://db/minepanel" then some "postgres:" else none
  parse := fun text =>
    if text = sampleJournal then
      some (.object [("entries", .array [.object [("tag", .string "0000_init")]])])
    else none
  migrate := sampleMigrate

/-- The database is the list of its migrations. -/
def sampleServer : Server SampleStep (List String) Unit where
  exec := fun _ a _ d =>
    match a with
    | .applied => some (d.length, d)
    | .apply migrations => some ((), d ++ migrations)
  abandon := id

def sampleStart : Start := ⟨"postgres://db/minepanel", "drizzle"⟩

/-- One step of process `p`. -/
def tick (p : Pid) : Event (Env Unit) Start := .step p { text := some sampleJournal, step := () }

/-- The second process waits for the lock while the first migrates, and then
finds nothing to do. -/
def twoStarts : List (Event (Env Unit) Start) :=
  [.invoke 0 sampleStart, .invoke 1 sampleStart, tick 0, tick 1, tick 0, tick 1, tick 0, tick 1,
   tick 1, tick 0, tick 0, tick 0, tick 0, tick 0, tick 0, tick 0, tick 1, tick 0, tick 1, tick 0,
   tick 1, tick 1, tick 1, tick 1, tick 1]

/-- Both have returned, and the migration is there once. -/
def startedTest (c : Config (Act SampleStep) Exn Unit (World (List String)) Start) : Bool :=
  decide (c.world.db = ["0000_init"] ∧ c.result 0 = some (sampleStart, ()) ∧
    c.result 1 = some (sampleStart, ()))

theorem twoStarts_serial : ∃ c o rs,
    (system sampleDependencies sampleServer).Reach (watch true) (Config.init (World.idle []))
      {} c o ∧ c.world.db = ["0000_init"] ∧
    Serial sampleServer.exec sampleServer.abandon (· ∈ c.world.dead) sampleMigrate [] rs
      c.world.db ∧
    (0, .ret ()) ∈ rs ∧ (1, .ret ()) ∈ rs := by
  obtain ⟨c, o, h, ht⟩ := System.Reach.of_replay (S := system sampleDependencies sampleServer)
    (V := watch true) (World.idle []) {} twoStarts (fun c _ => startedTest c) (by decide +kernel)
  obtain ⟨hdb, h₀, h₁⟩ := of_decide_eq_true ht
  obtain ⟨rs, hserial, -, hdone⟩ := migrations_serial sampleDependencies sampleServer [] o c h
  exact ⟨c, o, rs, h, hdb, hserial, hdone 0 _ (Config.returned_of_result h₀),
    hdone 1 _ (Config.returned_of_result h₁)⟩

/-- The first process loses its session inside the migrator, and the second gets
the lock. -/
def lostSession : List (Event (Env Unit) Start) :=
  [.invoke 0 sampleStart, .invoke 1 sampleStart, tick 0, tick 0, tick 0, tick 0, tick 0, tick 0,
   tick 0, tick 1, tick 1, tick 1, tick 1, .ambient { step := () }, tick 1, tick 1, tick 1]

/-- Process `p` is inside the migrator. -/
def isMigrating (c : Config (Act SampleStep) Exn Unit (World (List String)) Start) (p : Pid) :
    Bool :=
  match c.calls p with
  | some ⟨_, .act (.migrator _) _⟩ => decide (p ∉ c.world.dead)
  | _ => false

theorem migrating_of_isMigrating {c : Config (Act SampleStep) Exn Unit (World (List String)) Start}
    {p : Pid} (h : isMigrating c p = true) : Migrating c p := by
  unfold isMigrating at h
  split at h
  next s β a k hcall => exact ⟨of_decide_eq_true h, s, β, a, k, hcall⟩
  next => cases h

theorem lostSession_kept : ∃ c o,
    (system sampleDependencies sampleServer).Reach (watch false) (Config.init (World.idle []))
      {} c o ∧ Migrating c 0 ∧ Migrating c 1 ∧ (0 ∈ o.lost ∨ 1 ∈ o.lost) := by
  obtain ⟨c, o, h, ht⟩ := System.Reach.of_replay (S := system sampleDependencies sampleServer)
    (V := watch false) (World.idle []) {} lostSession
    (fun c _ => isMigrating c 0 && isMigrating c 1) (by decide +kernel)
  rw [Bool.and_eq_true] at ht
  have h₀ := migrating_of_isMigrating ht.1
  have h₁ := migrating_of_isMigrating ht.2
  obtain ⟨hkept, -⟩ := migration_lock_kept sampleDependencies sampleServer [] o c h
  exact ⟨c, o, h, h₀, h₁, hkept 0 1 (by decide) h₀ h₁⟩

end MinePanel.Db.Migrate
