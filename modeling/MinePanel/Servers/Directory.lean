/-
  MinePanel.Servers.Directory
  ───────────────────────────
  **WHAT A CALLER CAN LEARN OF A HIDDEN SERVER: NOTHING.**

  The read side of `servers.service.ts` (the two lists), and the nine calls a
  caller can make about servers, each run alone on one database.  A server is
  hidden from a caller who is no administrator while it is CREATING, or while
  it is PRIVATE and the caller has no approved access.  Every one of the nine
  calls then answers as if the server and every row that refers to it were not
  there: same data, same totals, same status, same text.
-/
import MinePanel.Servers.System
import MinePanel.Access.Service

namespace MinePanel.Servers

open MinePanel.Db MinePanel.Docker MinePanel.Lib

/-! ## §1. The lists. -/

namespace Directory

/-- The tables the nine calls read. -/
structure Database where
  servers : Servers
  users : Users
  access : Accesses

namespace Database

/-- `EXISTS (SELECT … FROM server_access …)`. -/
def hasAccess (d : Database) (userId : UserId) (serverId : ServerId)
    (status : ServerAccessStatus) : Bool :=
  d.access.rows.any fun a => a.userId == userId && a.serverId == serverId && a.status == status

/-- `buildVisibilityPredicate`. -/
def visible (d : Database) (principal : ServerPrincipal) (s : Server) : Bool :=
  s.status ≠ .creating && (principal.role == .admin || s.accessType == .openAccess ||
    d.hasAccess principal.id s.id .approved)

/-- The predicate of `listRequestableServers`. -/
def requestable (d : Database) (principal : ServerPrincipal) (s : Server) : Bool :=
  s.accessType == .requestAccess && s.status ≠ .creating
    && !d.hasAccess principal.id s.id .approved

/-- The tables without a server and the rows that refer to it. -/
def without (d : Database) (id : ServerId) : Database where
  servers := d.servers.remove fun s => s.id == id
  users := d.users
  access := d.access.remove fun a => a.serverId == id

end Database

/-- `ORDER BY created_at, id LIMIT … OFFSET …`. -/
def page (rows : List Server) (limit offset : Nat) : List Server :=
  ((rows.mergeSort fun s t =>
    s.createdAt < t.createdAt || (s.createdAt == t.createdAt && s.id ≤ t.id)).drop offset).take limit

/-- One SELECT of the two lists. -/
inductive Select : Type → Type where
  | visibleServers (principal : ServerPrincipal) (limit offset : Nat) : Select (List Server)
  | countVisible (principal : ServerPrincipal) : Select Nat
  /-- Each row with whether the caller has a pending request for it. -/
  | requestableServers (principal : ServerPrincipal) (limit offset : Nat) :
      Select (List (Server × Bool))
  | countRequestable (principal : ServerPrincipal) : Select Nat

/-- A SELECT, or what it throws. -/
inductive Act : Type → Type 1 where
  | select {α : Type} (s : Select α) : Act (Except Exn α)

/-- The calls of the two lists. -/
abbrev Call (α : Type) := Prog Act Exn α

/-- A SELECT: a failure throws. -/
def select {α : Type} (s : Select α) : Call α := do
  match ← Prog.perform (.select s) with
  | .ok r => return r
  | .error e => throw e

/-- `RequestableServerProjection`; the access type is always REQUEST. -/
structure RequestableServer where
  id : ServerId
  name : String
  /-- `requestStatus: 'PENDING' | null`. -/
  pending : Bool
  deriving Repr, DecidableEq

/-- `listServers`. -/
def listServers (limit offset : Nat) (principal : ServerPrincipal) :
    Call (List PublicServer × Nat) := do
  let rows ← select (.visibleServers principal limit offset)
  let total ← select (.countVisible principal)
  return (rows.map toPublicServer, total)

/-- `listRequestableServers`. -/
def listRequestableServers (limit offset : Nat) (principal : ServerPrincipal) :
    Call (List RequestableServer × Nat) := do
  let rows ← select (.requestableServers principal limit offset)
  let total ← select (.countRequestable principal)
  return (rows.map fun r => ⟨r.1.id, r.1.name, r.2⟩, total)

/-- The answer of a SELECT. -/
def Select.run (d : Database) : ∀ {α : Type}, Select α → α
  | _, .visibleServers principal limit offset =>
      page (d.servers.rows.filter (d.visible principal)) limit offset
  | _, .countVisible principal => d.servers.rows.countP (d.visible principal)
  | _, .requestableServers principal limit offset =>
      (page (d.servers.rows.filter (d.requestable principal)) limit offset).map fun s =>
        (s, d.hasAccess principal.id s.id .pending)
  | _, .countRequestable principal => d.servers.rows.countP (d.requestable principal)

/-! ## §2. The nine calls. -/

/-- What an action is to the outside. -/
inductive Kind where
  | read | write | docker | host
  deriving Repr, DecidableEq

/-- A step of a lifecycle call. -/
def lifecycleKind : ∀ {β : Type}, Servers.Act β → Kind
  | _, .selectVisibleServer _ _ => .read
  | _, .selectNotStopped => .read
  | _, .sumMemoryLimitMb _ _ => .read
  | _, .lifecycleLock => .write
  | _, .insertServer _ => .write
  | _, .updateTransition _ _ _ _ _ => .write
  | _, .updateContainerId _ _ => .write
  | _, .updateCreateError _ _ => .write
  | _, .updateReconciled _ _ _ => .write
  | _, .deleteInStatus _ _ => .write
  | _, .rollback => .write
  | _, .statfs => .host
  | _, .sleep _ => .host
  | _, _ => .docker

/-- A statement of an access call. -/
def accessKind : ∀ {β : Type}, Access.Act β → Kind
  | _, .query (.insertAccess _ _ _) => .write
  | _, .query (.approvePending _ _) => .write
  | _, .query (.deleteAccess _ _) => .write
  | _, .query _ => .read

/-- What surrounds the database. -/
structure Host where
  lock : Option Pid
  daemon : Table Container.id
  clock : Timestamp

/-- What the outside decides in one step. -/
structure Env where
  /-- A SELECT of a list fails. -/
  fails : Bool := false
  lifecycle : Servers.Env := {}
  access : Access.Env := {}

/-- The nine calls. -/
inductive Request where
  | listServers (limit offset : Nat)
  | listRequestableServers (limit offset : Nat)
  | getServer (id : ServerId)
  | startServer (id : ServerId)
  | stopServer (id : ServerId)
  | restartServer (id : ServerId)
  | deleteServer (id : ServerId)
  | requestAccess (id : ServerId)
  | getMyAccessRequest (id : ServerId)
  deriving Repr, DecidableEq

/-- A list, or a call on this id. -/
def Request.concerns (q : Request) (id : ServerId) : Prop :=
  match q with
  | .listServers _ _ => True
  | .listRequestableServers _ _ => True
  | .getServer i | .startServer i | .stopServer i | .restartServer i | .deleteServer i
  | .requestAccess i | .getMyAccessRequest i => i = id

/-- What a call returns. -/
inductive Response where
  | servers (data : List PublicServer) (total : Nat)
  | requestable (data : List RequestableServer) (total : Nat)
  | server (s : PublicServer)
  | done
  | mine (r : Access.MyAccessRequestProjection)
  deriving Repr, DecidableEq

/-- What a call comes to: its answer, the two tables after it, and what it did. -/
structure Answer where
  result : Except Exn Response
  servers : Servers
  access : List ServerAccess
  kinds : List Kind

/-- One SELECT of a list. -/
def execSelect : ∀ {β : Type}, Act β → Env → Database → Option (β × Database)
  | _, .select s, e, d => if e.fails then some (.error .statementFailed, d) else some (.ok (s.run d), d)

/-- The world of a lifecycle call. -/
def lifecycleWorld (h : Host) (d : Database) : World where
  servers := d.servers
  access := d.access.rows
  lock := h.lock
  daemon := h.daemon
  clock := h.clock

/-- The world of an access call. -/
def accessWorld (h : Host) (d : Database) : Access.World where
  servers := d.servers
  users := d.users
  access := d.access
  clock := h.clock

/-- A list, alone. -/
def answerList {α : Type} (f : α → Response) (p : Call α) (es : List Env) (d : Database) :
    Option Answer :=
  (System.alone (fun a e d => execSelect a e d) (fun _ => Kind.read) p es d).map fun out =>
    ⟨out.result.map f, out.world.servers, out.world.access.rows, out.notes⟩

/-- A lifecycle call, alone. -/
def answerLifecycle {α : Type} (h : Host) (f : α → Response) (p : Servers.Call α) (es : List Env)
    (d : Database) : Option Answer :=
  (System.alone (fun a e w => exec 0 a e w) lifecycleKind p (es.map Env.lifecycle)
    (lifecycleWorld h d)).map fun out =>
    ⟨out.result.map f, out.world.servers, out.world.access, out.notes⟩

/-- An access call, alone. -/
def answerAccess {α : Type} (h : Host) (f : α → Response) (p : Access.Call α) (es : List Env)
    (d : Database) : Option Answer :=
  (System.alone (fun a e w => Access.exec a e w) accessKind p (es.map Env.access) (accessWorld h d)).map
    fun out => ⟨out.result.map f, out.world.servers, out.world.access.rows, out.notes⟩

/-- A call of `principal`, alone on the database `d`. -/
def answer (settings : Settings) (h : Host) (principal : ServerPrincipal) (es : List Env)
    (d : Database) : Request → Option Answer
  | .listServers limit offset =>
      answerList (fun r => .servers r.1 r.2) (listServers limit offset principal) es d
  | .listRequestableServers limit offset =>
      answerList (fun r => .requestable r.1 r.2) (listRequestableServers limit offset principal) es d
  | .getServer id => answerLifecycle h .server (getServer id principal) es d
  | .startServer id => answerLifecycle h .server (startServer settings id principal) es d
  | .stopServer id => answerLifecycle h .server (stopServer settings id principal) es d
  | .restartServer id => answerLifecycle h .server (restartServer settings id principal) es d
  | .deleteServer id => answerLifecycle h (fun _ => .done) (deleteServer id principal) es d
  | .requestAccess id => answerAccess h .mine (Access.requestAccess id principal) es d
  | .getMyAccessRequest id => answerAccess h .mine (Access.getMyAccessRequest id principal) es d

/-- A server the caller must not learn of. -/
def Database.hides (d : Database) (principal : ServerPrincipal) (s : Server) : Prop :=
  s.status = .creating ∨
    (s.accessType = .privateAccess ∧ d.hasAccess principal.id s.id .approved = false)

/-! ## §3. A hidden server leaves no trace. -/

variable {d : Database} {principal : ServerPrincipal} {s : Server}

namespace Database

theorem hasAccess_without {id : ServerId} (d : Database) (userId : UserId) {t : ServerId}
    (status : ServerAccessStatus) (ht : t ≠ id) :
    (d.without id).hasAccess userId t status = d.hasAccess userId t status := by
  show List.any (d.access.rows.filter _) _ = List.any d.access.rows _
  rw [List.any_filter]
  congr 1
  funext a
  by_cases ha : a.serverId = t
  · have hne : a.serverId ≠ id := by rw [ha]; exact ht
    simp [hne]
  · simp [ha]

theorem visible_without {id : ServerId} (d : Database) (principal : ServerPrincipal) {t : Server}
    (ht : t.id ≠ id) : (d.without id).visible principal t = d.visible principal t := by
  simp only [visible, hasAccess_without d _ _ ht]

theorem requestable_without {id : ServerId} (d : Database) (principal : ServerPrincipal)
    {t : Server} (ht : t.id ≠ id) :
    (d.without id).requestable principal t = d.requestable principal t := by
  simp only [requestable, hasAccess_without d _ _ ht]

/-- A predicate that is false of `s` and does not see its rows selects the same
rows with `s` and without it. -/
theorem filter_without (hs : d.servers.get s.id = some s) {f g : Server → Bool} (hf : f s = false)
    (h : ∀ t : Server, t.id ≠ s.id → g t = f t) :
    (d.without s.id).servers.rows.filter g = d.servers.rows.filter f := by
  show List.filter g (d.servers.rows.filter _) = _
  rw [List.filter_filter]
  refine List.filter_congr fun t ht => ?_
  by_cases hid : t.id = s.id
  · -- the row with this id is `s`
    have hts : t = s := by
      have := Table.mem_rows.mp ht
      rw [hid, hs] at this
      exact (Option.some.inj this).symm
    subst hts
    simp [hf]
  · simp [hid, h t hid]

theorem get_without (d : Database) (id : ServerId) : (d.without id).servers.get id = none := by
  show (d.servers.remove _).get id = none
  rw [Table.get_remove]
  cases h : d.servers.get id with
  | none => rfl
  | some t => simp [Table.get_key h]

theorem hides.not_visible (hrole : principal.role ≠ .admin) (h : d.hides principal s) :
    d.visible principal s = false := by
  rcases h with h | ⟨h, ha⟩
  · simp [visible, h]
  · simp [visible, hrole, h, ha]

theorem hides.not_requestable (h : d.hides principal s) : d.requestable principal s = false := by
  rcases h with h | ⟨h, _⟩
  · simp [requestable, h]
  · simp [requestable, h]

end Database

/-- What the caller of a select is, where the select has one. -/
def Select.caller : ∀ {α : Type}, Select α → ServerPrincipal
  | _, .visibleServers principal _ _ => principal
  | _, .countVisible principal => principal
  | _, .requestableServers principal _ _ => principal
  | _, .countRequestable principal => principal

theorem visible_rows_without (hrole : principal.role ≠ .admin)
    (hs : d.servers.get s.id = some s) (hh : d.hides principal s) :
    (d.without s.id).servers.rows.filter ((d.without s.id).visible principal) =
      d.servers.rows.filter (d.visible principal) :=
  Database.filter_without hs (hh.not_visible hrole) fun _ ht => d.visible_without principal ht

theorem requestable_rows_without (hs : d.servers.get s.id = some s) (hh : d.hides principal s) :
    (d.without s.id).servers.rows.filter ((d.without s.id).requestable principal) =
      d.servers.rows.filter (d.requestable principal) :=
  Database.filter_without hs hh.not_requestable fun _ ht => d.requestable_without principal ht

/-- Every SELECT of a list has the same answer without the server. -/
theorem Select.run_without (hrole : principal.role ≠ .admin) (hs : d.servers.get s.id = some s)
    (hh : d.hides principal s) {α : Type} (q : Select α) (hq : q.caller = principal) :
    q.run (d.without s.id) = q.run d := by
  cases q with
  | visibleServers p limit offset =>
      obtain rfl : p = principal := hq
      simp only [Select.run, visible_rows_without hrole hs hh]
  | countVisible p =>
      obtain rfl : p = principal := hq
      simp only [Select.run, List.countP_eq_length_filter, visible_rows_without hrole hs hh]
  | requestableServers p limit offset =>
      obtain rfl : p = principal := hq
      simp only [Select.run, requestable_rows_without hs hh]
      refine List.map_congr_left fun t ht => ?_
      -- a row of the page is requestable, so it is not `s`
      have hmem : t ∈ d.servers.rows.filter (d.requestable p) :=
        List.mem_mergeSort.mp (List.mem_of_mem_drop (List.mem_of_mem_take ht))
      obtain ⟨hrow, hreq⟩ := List.mem_filter.mp hmem
      have hne : t.id ≠ s.id := by
        intro hid
        have := Table.mem_rows.mp hrow
        rw [hid, hs] at this
        obtain rfl : s = t := Option.some.inj this
        rw [hh.not_requestable] at hreq
        cases hreq
      rw [d.hasAccess_without p.id .pending hne]
  | countRequestable p =>
      obtain rfl : p = principal := hq
      simp only [Select.run, List.countP_eq_length_filter, requestable_rows_without hs hh]

/-- Two runs of one call, on `d` and on `d'`: no answer yet, or the same answer
after nothing but reads. -/
def Alike (n : Nat) (es : List Env) (d d' : Database) (a a' : Option Answer) : Prop :=
  (es.length < n ∧ a = none ∧ a' = none) ∨
    ∃ r kinds, (∀ k ∈ kinds, k = Kind.read) ∧ a = some ⟨r, d.servers, d.access.rows, kinds⟩ ∧
      a' = some ⟨r, d'.servers, d'.access.rows, kinds⟩

/-- Two SELECTs that do not tell the databases apart. -/
theorem alike_list {α : Type} (f : α → Response) {p : Call α} {d d' : Database}
    (hp : p.wp (System.twin (fun a e d => execSelect a e d) (fun _ => Kind.read) Kind.read d d')
      (fun _ _ => True) (fun _ _ => True) 2) (es : List Env) :
    Alike 2 es d d' (answerList f p es d) (answerList f p es d') := by
  rcases System.alone_twin hp es with ⟨hl, h₁, h₂⟩ | ⟨r, kinds, hk, h₁, h₂⟩
  · exact Or.inl ⟨hl, by simp [answerList, h₁], by simp [answerList, h₂]⟩
  · exact Or.inr ⟨r.map f, kinds, hk, by simp [answerList, h₁], by simp [answerList, h₂]⟩

theorem alike_lifecycle {α : Type} (h : Host) (f : α → Response) {p : Servers.Call α}
    {d d' : Database}
    (hp : p.wp (System.twin (fun a e w => exec 0 a e w) lifecycleKind Kind.read
      (lifecycleWorld h d) (lifecycleWorld h d')) (fun _ _ => True) (fun _ _ => True) 2)
    (es : List Env) :
    Alike 2 es d d' (answerLifecycle h f p es d) (answerLifecycle h f p es d') := by
  rcases System.alone_twin hp (es.map Env.lifecycle) with ⟨hl, h₁, h₂⟩ | ⟨r, kinds, hk, h₁, h₂⟩
  · exact Or.inl ⟨by simpa using hl, by simp [answerLifecycle, h₁], by simp [answerLifecycle, h₂]⟩
  · exact Or.inr ⟨r.map f, kinds, hk, by rw [answerLifecycle, h₁]; rfl,
      by rw [answerLifecycle, h₂]; rfl⟩

/-- A SELECT of a list, in both databases. -/
theorem wp_select {α : Type} {d d' : Database} {q : Select α} (hq : q.run d' = q.run d) {n : Nat}
    {Q : α → Nat → Prop} (hQ : Q (q.run d) n) :
    (select q).wp (System.twin (fun a e d => execSelect a e d) (fun _ => Kind.read) Kind.read d d')
      Q (fun _ _ => True) (n + 1) := by
  refine ⟨⟨by omega, rfl, ?_⟩, ?_⟩
  · intro e
    cases hf : e.fails with
    | true => exact ⟨.error .statementFailed, by simp [execSelect, hf], by simp [execSelect, hf]⟩
    | false => exact ⟨.ok (q.run d), by simp [execSelect, hf], by simp [execSelect, hf, hq]⟩
  · intro b m hb
    obtain ⟨hm, e, he⟩ := hb
    obtain rfl : m = n := by omega
    cases hf : e.fails with
    | true =>
        obtain rfl : Except.error Exn.statementFailed = b := by simpa [execSelect, hf] using he
        trivial
    | false =>
        obtain rfl : Except.ok (q.run d) = b := by simpa [execSelect, hf] using he
        exact hQ

/-- A lifecycle call on a hidden server ends at its lookup. -/
theorem wp_loadVisibleServer (h : Host) (hrole : principal.role ≠ .admin)
    (hs : d.servers.get s.id = some s) (hh : d.hides principal s) {Q : Server → Nat → Prop} :
    (loadVisibleServer s.id principal).wp (System.twin (fun a e w => exec 0 a e w) lifecycleKind
      Kind.read (lifecycleWorld h d) (lifecycleWorld h (d.without s.id)))
      Q (fun _ _ => True) 2 := by
  have h₁ : ∀ e : Servers.Env, exec 0 (.selectVisibleServer s.id principal) e (lifecycleWorld h d) =
      some (none, lifecycleWorld h d) := by
    intro e
    have hv : (lifecycleWorld h d).visible principal s = false := hh.not_visible hrole
    show some ((d.servers.get s.id).filter _, _) = _
    rw [hs, Option.filter_some, hv]
    rfl
  have h₂ : ∀ e : Servers.Env, exec 0 (.selectVisibleServer s.id principal) e
      (lifecycleWorld h (d.without s.id)) = some (none, lifecycleWorld h (d.without s.id)) := by
    intro e
    show some (((d.without s.id).servers.get s.id).filter _, _) = _
    rw [d.get_without]
    rfl
  refine ⟨⟨by omega, rfl, fun e => ⟨none, h₁ e, h₂ e⟩⟩, ?_⟩
  intro b n hb
  obtain ⟨_, e, he⟩ := hb
  have hb : some (none, lifecycleWorld h d) = some (b, lifecycleWorld h d) := (h₁ e).symm.trans he
  obtain rfl : none = b := congrArg Prod.fst (Option.some.inj hb)
  trivial

/-- An access call whose first statement makes it throw. -/
theorem answerAccess_fail {α : Type} (h : Host) (f : α → Response) {q : Access.Stmt (Option Server)}
    (hq : accessKind (.query q) = .read) {k : Except Exn (Option Server) → Access.Call α} {e : Env}
    {es : List Env} {d : Database} {b : Except Exn (Option Server)} {x : Exn}
    (hx : Access.exec (.query q) e.access (accessWorld h d) = some (b, accessWorld h d))
    (hk : k b = .fail x) :
    answerAccess h f (.act (.query q) k) (e :: es) d =
      some ⟨.error x, d.servers, d.access.rows, [.read]⟩ := by
  simp only [answerAccess, List.map_cons, System.alone, hx, hk, Option.bind_some, Option.map_some,
    hq]
  rfl

/-- What `loadRequestableServer` finds on both sides, a row of type PRIVATE or
none, makes the two access calls throw the same. -/
theorem alike_access (h : Host) (hs : d.servers.get s.id = some s) (hh : d.hides principal s)
    {α : Type} {k : Server → Access.Call α}
    (hk : s.accessType = .privateAccess → k s = .fail (.notFound "Server not found"))
    (f : α → Response) (es : List Env) :
    Alike 2 es d (d.without s.id) (answerAccess h f ((Access.loadServer s.id).bind k) es d)
      (answerAccess h f ((Access.loadServer s.id).bind k) es (d.without s.id)) := by
  cases es with
  | nil => exact Or.inl ⟨by simp, rfl, rfl⟩
  | cons e es =>
      right
      cases hf : e.access.fails with
      | true =>
          have hx : ∀ d : Database, Access.exec (.query (.selectServer s.id)) e.access
              (accessWorld h d) = some (.error .statementFailed, accessWorld h d) := by
            intro d
            simp [Access.exec, hf]
          exact ⟨_, _, by simp, answerAccess_fail h f rfl (hx d) rfl,
            answerAccess_fail h f rfl (hx _) rfl⟩
      | false =>
          have hx : ∀ d : Database, Access.exec (.query (.selectServer s.id)) e.access
              (accessWorld h d) = some (.ok ((d.servers.get s.id).filter (·.status ≠ .creating)),
                accessWorld h d) := by
            intro d
            simp only [Access.exec, hf]
            rfl
          have h₂ := hx (d.without s.id)
          rw [d.get_without] at h₂
          have h₁ := hx d
          rw [hs, Option.filter_some] at h₁
          -- a CREATING row is not selected, a PRIVATE one is and refused
          by_cases hc : s.status = .creating
          · simp only [hc, ne_eq, not_true_eq_false, decide_false, Bool.false_eq_true,
              if_false] at h₁
            exact ⟨_, _, by simp, answerAccess_fail h f rfl h₁ rfl,
              answerAccess_fail h f rfl h₂ rfl⟩
          · simp only [hc, ne_eq, not_false_eq_true, decide_true, if_true] at h₁
            have hp : s.accessType = .privateAccess := by
              rcases hh with hh | ⟨hh, _⟩
              · exact absurd hh hc
              · exact hh
            exact ⟨_, _, by simp, answerAccess_fail h f rfl h₁ (hk hp),
              answerAccess_fail h f rfl h₂ rfl⟩

/-! ## §4. The nine calls on a hidden server. -/

theorem answer_alike (settings : Settings) (h : Host) (hrole : principal.role ≠ .admin)
    (hs : d.servers.get s.id = some s) (hh : d.hides principal s) {q : Request}
    (hq : q.concerns s.id) (es : List Env) :
    Alike 2 es d (d.without s.id) (answer settings h principal es d q)
      (answer settings h principal es (d.without s.id) q) := by
  cases q with
  | listServers limit offset =>
      refine alike_list _ (Prog.wp_seq ?_) es
      refine wp_select (Select.run_without hrole hs hh _ rfl) (Prog.wp_seq ?_)
      exact wp_select (Select.run_without hrole hs hh _ rfl) trivial
  | listRequestableServers limit offset =>
      refine alike_list _ (Prog.wp_seq ?_) es
      refine wp_select (Select.run_without hrole hs hh _ rfl) (Prog.wp_seq ?_)
      exact wp_select (Select.run_without hrole hs hh _ rfl) trivial
  | getServer id =>
      obtain rfl : id = s.id := hq
      exact alike_lifecycle h _ (Prog.wp_seq (wp_loadVisibleServer h hrole hs hh)) es
  | startServer id =>
      obtain rfl : id = s.id := hq
      exact alike_lifecycle h _ (Prog.wp_seq (wp_loadVisibleServer h hrole hs hh)) es
  | stopServer id =>
      obtain rfl : id = s.id := hq
      exact alike_lifecycle h _
        (Prog.wp_seq (Prog.wp_seq (wp_loadVisibleServer h hrole hs hh))) es
  | restartServer id =>
      obtain rfl : id = s.id := hq
      exact alike_lifecycle h _
        (Prog.wp_seq (Prog.wp_seq (wp_loadVisibleServer h hrole hs hh))) es
  | deleteServer id =>
      obtain rfl : id = s.id := hq
      exact alike_lifecycle h _ (Prog.wp_seq (wp_loadVisibleServer h hrole hs hh)) es
  | requestAccess id =>
      obtain rfl : id = s.id := hq
      simp only [answer, Access.requestAccess, hrole, if_false]
      refine alike_access h hs hh ?_ _ es
      intro hp
      simp [hp]
  | getMyAccessRequest id =>
      obtain rfl : id = s.id := hq
      refine alike_access h hs hh ?_ _ es
      intro hp
      simp [hp]

/-- **NON-DISCLOSURE.**  Whatever the database and whatever the surroundings do,
a caller who is no administrator gets from each of the nine calls the answer
that the database without the hidden server gives, and neither run writes or
reaches Docker; two steps are enough for the answer. -/
theorem hidden_server_is_absent (settings : Settings) (h : Host) (principal : ServerPrincipal)
    (hrole : principal.role ≠ .admin) (d : Database) (s : Server)
    (hs : d.servers.get s.id = some s) (hh : d.hides principal s) (q : Request)
    (hq : q.concerns s.id) (es : List Env) :
    (answer settings h principal es d q).map Answer.result =
        (answer settings h principal es (d.without s.id) q).map Answer.result ∧
      (2 ≤ es.length → (answer settings h principal es d q).isSome) ∧
      ∀ d' ∈ [d, d.without s.id], ∀ a ∈ answer settings h principal es d' q,
        a.servers = d'.servers ∧ a.access = d'.access.rows ∧ ∀ k ∈ a.kinds, k = Kind.read := by
  rcases answer_alike settings h hrole hs hh hq es with ⟨hl, h₁, h₂⟩ | ⟨r, kinds, hk, h₁, h₂⟩
  · refine ⟨by rw [h₁, h₂], fun h => absurd h (by omega), ?_⟩
    intro d' hd' a ha
    simp only [List.mem_cons, List.not_mem_nil, or_false] at hd'
    rcases hd' with rfl | rfl
    · simp [h₁] at ha
    · simp [h₂] at ha
  · refine ⟨by rw [h₁, h₂]; rfl, fun _ => by rw [h₁]; rfl, ?_⟩
    intro d' hd' a ha
    simp only [List.mem_cons, List.not_mem_nil, or_false] at hd'
    rcases hd' with rfl | rfl
    · rw [h₁] at ha
      obtain rfl := Option.some.inj ha
      exact ⟨rfl, rfl, hk⟩
    · rw [h₂] at ha
      obtain rfl := Option.some.inj ha
      exact ⟨rfl, rfl, hk⟩

/-- A moderator, a private server and one they may see. -/
def samplePrincipal : ServerPrincipal := ⟨2, .mod⟩

def samplePrivate : Server := { sampleServer .running (some 7) with accessType := .privateAccess }

def sampleDatabase : Database where
  servers := ⟨[samplePrivate, { sampleServer .stopped none with id := 9, port := 25566 }], by decide⟩
  users := Table.empty
  access := ⟨[⟨1, 2, samplePrivate.id, .pending, 0, none⟩], by decide⟩

theorem private_server_is_absent :
    (answer sampleSettings ⟨none, Table.empty, 0⟩ samplePrincipal [{}, {}] sampleDatabase
        (.listServers 10 0)).map Answer.result =
      (answer sampleSettings ⟨none, Table.empty, 0⟩ samplePrincipal [{}, {}]
        (sampleDatabase.without samplePrivate.id) (.listServers 10 0)).map Answer.result :=
  (hidden_server_is_absent sampleSettings ⟨none, Table.empty, 0⟩ samplePrincipal (by decide)
    sampleDatabase samplePrivate (by decide) (Or.inr (by decide)) (.listServers 10 0) trivial
    [{}, {}]).1

end Directory

end MinePanel.Servers
