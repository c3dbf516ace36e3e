/-
  MinePanel.Servers.Mediation
  ───────────────────────────
  **WHO GETS AS FAR AS THE DAEMON.**

  A request to `POST servers/:id/start`, `stop` or `restart`, from its headers
  to its last Docker request: the global guards in the order of `app.module.ts`,
  the controller, the method of the service.  Four of its layers look at the
  database: the token guard reads the user, the permission guard looks for a
  grant, and the method reads the server through the visibility predicate; the
  role guard only uses what the first of them read.

    * `request` — the whole request, one tree of actions;
    * `Answers` — what the database, as it stands, can answer to the checks;
    * `Phase` — checking, let through, or refused;
    * `lifecycle_mediated` — past the checks exactly those who may be there.
-/
import MinePanel.Servers.Rules
import MinePanel.Accounts.System

namespace MinePanel.Servers.Mediation

open MinePanel.Db MinePanel.Docker MinePanel.Lib Prog
open MinePanel.Accounts (GuardedUser HttpMethod Jwt RawToken Route accessClaims grantCovers
  guardedUser jwtAuthGuard permissionsGuard recoveryRefusal rolesGuard verifyAccessToken)

/-! ## §1. The request. -/

/-- One action of a request. -/
inductive Act : Type → Type 1 where
  /-- An action of a guard. -/
  | account {β : Type} (a : Accounts.Act β) : Act β
  /-- `ThrottlerGuard`: whether it lets the request through. -/
  | throttle : Act Bool
  /-- The SELECT of `loadVisibleServer`, or what it throws. -/
  | lookup (id : ServerId) (principal : ServerPrincipal) : Act (Except Exn (Option Server))
  /-- Any other action of the service. -/
  | lifecycle {β : Type} (a : Servers.Act β) : Act β

/-- The calls of a request. -/
abbrev Call (α : Type) := Prog Act Exn α

/-- A guard, as part of a request. -/
def account {α : Type} (p : Accounts.Call α) : Call α :=
  p.hoist fun a => Prog.perform (.account a)

/-- An action of the service, as part of a request. -/
def service : ∀ {β : Type}, Servers.Act β → Call β
  | _, .selectVisibleServer id principal => do
      match ← Prog.perform (.lookup id principal) with
      | .ok row => return row
      | .error e => throw e
  | _, a => Prog.perform (.lifecycle a)

/-- A method of the service, as part of a request.  A rejected lookup leaves
the method: none of the three has a `try` around it. -/
def lifecycle {α : Type} (p : Servers.Call α) : Call α := p.hoist service

/-- `request.headers.origin`. -/
inductive OriginHeader where
  | absent
  | one (value : String)
  | repeated
  deriving Repr, DecidableEq

/-- What the guards read of a request, apart from its route. -/
structure Headers where
  origin : OriginHeader
  /-- `request.get('host')`. -/
  host : Option String
  /-- `request.protocol`. -/
  protocol : String
  /-- `request.cookies.access_token`. -/
  accessToken : Option RawToken
  deriving Repr, DecidableEq

/-- `MUTATING_METHODS`. -/
def mutatingMethods : List HttpMethod := [.post, .put, .patch, .delete]

/-- `isAllowedOrigin`. -/
def isAllowedOrigin (canonicalOrigin : String) (headers : Headers) (origin : String) : Bool :=
  origin == canonicalOrigin ||
    match headers.host with
    | none => false
    | some host => origin == s!"{headers.protocol}://{host}"

/-- `CsrfOriginGuard.canActivate`. -/
def csrfOriginGuard (canonicalOrigin : String) (route : Route) (headers : Headers) : Call Unit :=
  if route.method ∉ mutatingMethods then return ()
  else
    match headers.origin with
    | .absent => return ()
    | .one origin =>
        if isAllowedOrigin canonicalOrigin headers origin then return ()
        else throw (.forbidden "CsrfOriginForbidden")
    | .repeated => throw (.forbidden "CsrfOriginForbidden")

/-- The three routes. -/
inductive Verb where
  | start | stop | restart
  deriving Repr, DecidableEq

/-- The last segment of the path. -/
def Verb.segment : Verb → String
  | .start => "start"
  | .stop => "stop"
  | .restart => "restart"

/-- `@Roles('ADMIN', 'MOD') @RequiresPermission('SERVER_LIFECYCLE') @Post(':id/…')`. -/
def Verb.route (verb : Verb) (id : ServerId) : Route where
  method := .post
  path := s!"/api/servers/{id}/{verb.segment}"
  roles := some [.admin, .mod]
  permission := some .serverLifecycle
  id := some id

/-- The method a route calls. -/
def Verb.method (verb : Verb) (settings : Settings) (id : ServerId) (principal : ServerPrincipal) :
    Servers.Call PublicServer :=
  match verb with
  | .start => startServer settings id principal
  | .stop => stopServer settings id principal
  | .restart => restartServer settings id principal

/-- `toPrincipal`. -/
def toPrincipal (user : GuardedUser) : ServerPrincipal := ⟨user.id, user.role⟩

/-- `extractUser`. -/
def extractUser (user : Option GuardedUser) : Call GuardedUser :=
  match user with
  | none => throw (.unauthorized none)
  | some user => return user

/-- A request to one of the three routes. -/
def request (settings : Settings) (canonicalOrigin : String) (verb : Verb) (id : ServerId)
    (headers : Headers) : Call PublicServer := do
  csrfOriginGuard canonicalOrigin (verb.route id) headers
  let user ← account (jwtAuthGuard (verb.route id) headers.accessToken)
  account (rolesGuard (verb.route id) user)
  account (permissionsGuard (verb.route id) user)
  if !(← Prog.perform .throttle) then
    throw (.tooManyRequests "ThrottlerException: Too Many Requests")
  let user ← extractUser user
  lifecycle (verb.method settings id (toPrincipal user))

/-! ## §2. What the database answers, and who is authorized. -/

/-- The database and the time, as the checks find them. -/
structure State where
  accounts : Accounts.Db
  servers : World
  now : Timestamp

/-- What an action of a request can be answered: a check reads the database as
it stands, or fails; everything after the checks is left open. -/
def Answers (d : State) : ∀ β : Type, Act β → β → Prop
  | _, .account (.query s), b =>
      (∃ e, b = (Accounts.plan d.now e d.accounts s).answer) ∨ ∃ x, b = .error x
  | _, .account .now, b => b = d.now
  | _, .lookup id principal, b =>
      b = .ok ((d.servers.servers.get id).filter (d.servers.visible principal)) ∨
        ∃ x, b = .error x
  | _, _, _ => True

/-- The answers of a database that does not fail; `e` picks among the rows of
a `LIMIT 1`. -/
def own (d : State) (e : Accounts.Env) : ∀ {β : Type}, Act β → Option β
  | _, .account (.query s) => some (Accounts.plan d.now e d.accounts s).answer
  | _, .account .now => some d.now
  | _, .lookup id principal =>
      some (.ok ((d.servers.servers.get id).filter (d.servers.visible principal)))
  | _, _ => none

/-- A check whose statement failed. -/
def FailedRead : ∀ {β : Type}, Act β → β → Prop
  | _, .account (.query _), .error _ => True
  | _, .lookup _ _, .error _ => True
  | _, _, _ => False

/-- The requests that change something at the daemon: a container created,
started, stopped or removed, or a command run inside one. -/
def touchesDocker : ∀ β : Type, Act β → Bool
  | _, .lifecycle (.dockerCreate _) => true
  | _, .lifecycle (.dockerStart _) => true
  | _, .lifecycle (.dockerStop _ _) => true
  | _, .lifecycle (.dockerRemove _) => true
  | _, .lifecycle (.rconExec _ _) => true
  | _, _ => false

/-- The user may run the lifecycle of the server. -/
structure Authorized (d : State) (userId : UserId) (id : ServerId) (user : User) (server : Server) :
    Prop where
  exists_user : d.accounts.users.get userId = some user
  active : user.status = .active
  /-- Not in forced recovery. -/
  settled : user.mustChangePassword = false
  exists_server : d.servers.servers.get id = some server
  created : server.status ≠ .creating
  /-- An administrator, or a moderator with a grant and with access. -/
  may : user.role = .admin ∨ user.role = .mod ∧
    (∃ g ∈ d.accounts.modPermissions.rows, g.userId = userId ∧ g.permission = .serverLifecycle ∧
      (g.serverId = none ∨ g.serverId = some id)) ∧
    (server.accessType = .openAccess ∨
      ∃ a ∈ d.servers.access, a.userId = userId ∧ a.serverId = id ∧ a.status = .approved)

/-- The cookie holds a valid ordinary token of this user. -/
def OrdinaryToken (d : State) (headers : Headers) (userId : UserId) (username : String) : Prop :=
  ∃ token, headers.accessToken = some token ∧
    accessClaims token d.now = some ⟨userId, username, false⟩

/-! ## §3. The phases of a request. -/

/-- How far a request is: before the visible row is read, past it, or after a
check failed. -/
inductive Phase where
  | checking | through | refused
  deriving Repr, DecidableEq

/-- The reads of the checks. -/
def isCheck : ∀ {β : Type}, Act β → Bool
  | _, .account (.query _) => true
  | _, .lookup _ _ => true
  | _, _ => false

/-- What an answer does to the phase. -/
def Phase.next (m : Phase) : ∀ {β : Type}, Act β → β → Phase
  | _, .account (.query _), .error _ => .refused
  | _, .lookup _ _, .error _ => .refused
  | _, .lookup _ _, .ok (some _) => .through
  | _, _, _ => m

theorem Phase.next_of_not_check {β : Type} {a : Act β} (m : Phase) (b : β)
    (h : isCheck a = false) : m.next a b = m := by
  cases a with
  | account a => cases a <;> first | rfl | cases h
  | throttle => rfl
  | lookup id principal => cases h
  | lifecycle a => rfl

theorem FailedRead.refused {β : Type} {a : Act β} {b : β} (h : FailedRead a b) (m : Phase)
    (d : State) : isCheck a = true ∧ Answers d β a b ∧ m.next a b = .refused := by
  cases a with
  | account a =>
      cases a with
      | query s =>
          cases b with
          | error x => exact ⟨rfl, Or.inr ⟨x, rfl⟩, rfl⟩
          | ok r => cases h
      | _ => cases h
  | throttle => cases h
  | lookup id principal =>
      cases b with
      | error x => exact ⟨rfl, Or.inr ⟨x, rfl⟩, rfl⟩
      | ok r => cases h
  | lifecycle a => cases h

/-- The monitor of a request: nothing happens after a failed check, no check is
made once the request is through, and the daemon is reached by requests that
are through, where `P` holds. -/
def monitor (d : State) (P : Prop) : Monitor Act Phase where
  allow := fun m a => m ≠ .refused ∧ (isCheck a = true → m = .checking) ∧
    (touchesDocker _ a = true → m = .through ∧ P)
  next := fun m a b m' => Answers d _ a b ∧ m' = m.next a b

/-- What the token guard has seen of the user it sets. -/
def Passed (d : State) (headers : Headers) (g : GuardedUser) : Prop :=
  OrdinaryToken d headers g.id g.username ∧ ∃ user, d.accounts.users.get g.id = some user ∧
    user.status = .active ∧ user.mustChangePassword = false ∧ user.role = g.role

/-- What the permission guard has seen. -/
def Granted (d : State) (id : ServerId) (g : GuardedUser) : Prop :=
  g.role = .admin ∨ g.role = .mod ∧ ∃ r ∈ d.accounts.modPermissions.rows,
    r.userId = g.id ∧ r.permission = .serverLifecycle ∧
      (r.serverId = none ∨ r.serverId = some id)

/-- The monitor, as a guard sees it. -/
def guardMonitor (d : State) (P : Prop) : Monitor Accounts.Act Phase where
  allow := fun m a => (monitor d P).allow m (.account a)
  next := fun m a b m' => (monitor d P).next m (.account a) b m'

section Guards

variable {d : State} {P : Prop} {verb : Verb} {id : ServerId} {headers : Headers}
  {α : Type} {Q : α → Phase → Prop} {E : Exn → Phase → Prop}

theorem wp_account {p : Accounts.Call α} (h : wp (guardMonitor d P) Q E p .checking) :
    wp (monitor d P) Q E (account p) .checking := by
  refine wp_hoist ?_ h
  intro β a m ha
  exact ⟨ha, fun _ _ hb => hb⟩

/-- A statement of a guard, whose failure is caught and thrown as another. -/
theorem wp_query {β : Type} {s : Accounts.Stmt β} {x : Exn} {k : β → Accounts.Call α}
    (hE : ∀ m, E x m)
    (hk : ∀ e b, (Accounts.plan d.now e d.accounts s).answer = .ok b →
      wp (guardMonitor d P) Q E (k b) .checking) :
    wp (guardMonitor d P) Q E
      (((Accounts.query s).tryCatch fun _ => .fail x).bind k) .checking := by
  refine wp_seq ((wp_tryCatch _ _ _).mpr ⟨⟨nofun, fun _ => rfl, nofun⟩, fun b m' h => ?_⟩)
  obtain ⟨hb, rfl⟩ := h
  cases b with
  | error y => exact hE _
  | ok b =>
      rcases hb with ⟨e, he⟩ | ⟨y, hy⟩
      · exact hk e b he.symm
      · cases hy

/-- **The verifier** hands on an ACTIVE user, as the row of the user is. -/
theorem wp_verifyAccessToken {token : RawToken} :
    wp (guardMonitor d P) (fun p m => m = .checking ∧
      accessClaims token d.now = some ⟨p.id, p.username, p.temporaryAuth⟩ ∧
      ∃ user, d.accounts.users.get p.id = some user ∧ user.status = .active ∧
        user.mustChangePassword = p.mustChangePassword ∧ user.role = p.role)
      (fun _ _ => True) (verifyAccessToken token) .checking := by
  refine ⟨⟨fun h => (by cases h), fun h => (by cases h), fun h => (by cases h)⟩, fun now m' h => ?_⟩
  obtain ⟨hnow, rfl⟩ := h
  have hnow : now = d.now := hnow
  subst hnow
  simp only [bind_ret]
  split
  next => trivial
  next claims hclaims =>
    refine wp_query (fun _ => trivial) fun e user huser => ?_
    have huser : d.accounts.users.get claims.sub = user := by
      simpa [Accounts.plan, Accounts.Plan.read] using huser
    cases user with
    | none => trivial
    | some user =>
      dsimp only
      split
      next => trivial
      next => trivial
      next hactive => exact ⟨rfl, hclaims, user, huser, hactive, rfl, rfl⟩

/-- Off the password route only ordinary tokens of settled users get past. -/
theorem recoveryRefusal_none {p : Accounts.AccessTokenPrincipal}
    (h : recoveryRefusal (verb.route id) p = none) :
    p.mustChangePassword = false ∧ p.temporaryAuth = false := by
  unfold recoveryRefusal at h
  have hroute : (verb.route id).isPasswordChange = false := rfl
  rw [hroute] at h
  cases hm : p.mustChangePassword <;> cases ht : p.temporaryAuth <;> simp_all

theorem wp_jwtAuthGuard :
    wp (guardMonitor d P) (fun user m => m = .checking ∧ ∃ g, user = some g ∧ Passed d headers g)
      (fun _ _ => True) (jwtAuthGuard (verb.route id) headers.accessToken) .checking := by
  unfold jwtAuthGuard
  rw [if_neg (by simp [Verb.route])]
  split
  next => trivial
  next => trivial
  next token _ htoken =>
    have hcatch : ∀ error m, wp (guardMonitor d P)
        (fun user m => m = .checking ∧ ∃ g, user = some g ∧ Passed d headers g) (fun _ _ => True)
        (if Accounts.isForbidden error then .fail error else .fail (.unauthorized none)) m := by
      intro error m
      split <;> trivial
    refine (wp_tryCatch _ _ _).mpr (wp_seq (wp_seq ?_))
    refine wp_mono _ _ (fun p m hp => ?_) (fun x m _ => hcatch x m) wp_verifyAccessToken
    obtain ⟨rfl, hclaims, user, huser, hactive, hmust, hrole⟩ := hp
    split
    next => exact hcatch _ _
    next hrefusal =>
      obtain ⟨hsettled, hordinary⟩ := recoveryRefusal_none hrefusal
      rw [hordinary] at hclaims
      exact ⟨rfl, _, rfl, ⟨token, htoken, hclaims⟩, user, huser, hactive,
        hmust.trans hsettled, hrole⟩

theorem wp_rolesGuard {g : GuardedUser} :
    wp (guardMonitor d P) (fun _ m => m = .checking) (fun _ _ => True)
      (rolesGuard (verb.route id) (some g)) .checking := by
  show wp _ _ _ (if g.role = .admin ∨ g.role ∈ [Role.admin, Role.mod] then _ else _) _
  split
  next => rfl
  next => trivial

/-- An administrator passes; a moderator needs a grant that covers the server. -/
theorem wp_permissionsGuard {g : GuardedUser} :
    wp (guardMonitor d P) (fun _ m => m = .checking ∧ Granted d id g) (fun _ _ => True)
      (permissionsGuard (verb.route id) (some g)) .checking := by
  show wp _ _ _ (if g.role = .admin then _ else if g.role ≠ .mod then _ else _) _
  split
  next hadmin => exact ⟨rfl, Or.inl hadmin⟩
  next =>
    split
    next => trivial
    next hmod =>
      refine wp_query (fun _ => trivial) fun e row hrow => ?_
      cases row with
      | none => trivial
      | some row =>
        have hmem : row ∈ d.accounts.modPermissions.rows.filter
            (grantCovers g.id .serverLifecycle (some id)) := by
          have hpick : Accounts.pickRow e.pick (d.accounts.modPermissions.rows.filter
              (grantCovers g.id .serverLifecycle (some id))) = some row := by
            exact Except.ok.inj hrow
          exact List.mem_of_getElem? hpick
        obtain ⟨hrow, hcovers⟩ := List.mem_filter.mp hmem
        simp [grantCovers] at hcovers
        exact ⟨rfl, Or.inr ⟨not_not.mp hmod, row, hrow, hcovers.1.1, hcovers.1.2, hcovers.2⟩⟩

end Guards

/-! ## §4. The method behind the guards. -/

/-- Only `loadVisibleServer` reads through the visibility predicate. -/
def isLookup : ∀ {β : Type}, Servers.Act β → Bool
  | _, .selectVisibleServer _ _ => true
  | _, _ => false

/-- `p` does not look the server up. -/
def NoLookup {α : Type} (p : Servers.Call α) : Prop :=
  p.Only (fun _ a => isLookup a = false) fun _ => True

theorem noLookup_of_plain {α : Type} {p : Servers.Call α} (h : Plain p) : NoLookup p := by
  refine only_mono (fun a ha => ?_) (fun _ _ => trivial) h
  cases a <;> first | rfl | cases ha

theorem admitAndClaim_noLookup (settings : Settings) (hostInfo : HostInfo) (config : ResourceConfig)
    (id : ServerId) (mb : Nat) (st : ServerStatus) (cid : ContainerId) (message : String) :
    NoLookup (admitAndClaim settings hostInfo config id mb st cid message) := by
  refine only_tryCatch (S := fun _ => True) ⟨rfl, fun _ => ⟨rfl, fun sum => ?_⟩⟩
    fun _ _ => ⟨rfl, fun _ => trivial⟩
  simp only [bind_eq, bind_ret]
  refine only_bind ?_ fun _ => noLookup_of_plain (statement_plain rfl)
  cases checkMemoryAdmission settings hostInfo config.maxMemoryRatio mb sum message <;> trivial

/-- The admission and the start, common to start and restart. -/
theorem admission_noLookup {settings : Settings} {id : ServerId} {mb : Nat} {st : ServerStatus}
    {cid : ContainerId} {disk memory : String} {x : Exn} :
    NoLookup (do
      let config ← check (parseResourceConfig settings)
      let (hostInfo, diskInfo) ← hostReadings settings
      check (checkDisk diskInfo config.minFreeDiskMb disk)
      let started ← admitAndClaim settings hostInfo config id mb st cid memory
      if started.isNone then throw x
      startPhase id cid) := by
  refine only_bind (noLookup_of_plain (check_inert fun _ => parseResourceConfig_calm).plain) ?_
  intro config
  refine only_bind (noLookup_of_plain (hostReadings_inert settings).plain) fun hd => ?_
  refine only_bind (noLookup_of_plain (check_inert fun _ => checkDisk_calm).plain) fun _ => ?_
  refine only_bind (admitAndClaim_noLookup _ _ _ _ _ _ _ _) fun r => ?_
  cases r with
  | none => trivial
  | some r => exact noLookup_of_plain (startPhase_plain id cid)

/-- **Every method looks the server up first, and only then.** -/
theorem method_eq (verb : Verb) (settings : Settings) (id : ServerId)
    (principal : ServerPrincipal) :
    ∃ rest, verb.method settings id principal = (loadVisibleServer id principal).bind rest ∧
      ∀ row, NoLookup (rest row) := by
  cases verb with
  | start =>
      refine ⟨_, rfl, fun row => ?_⟩
      refine only_guard (fun _ => trivial) fun _ => ?_
      cases row.containerId with
      | none => trivial
      | some cid => exact admission_noLookup
  | stop =>
      refine ⟨_, bind_assoc _ _ _, fun row => ?_⟩
      refine only_bind (noLookup_of_plain (claimLoaded_plain settings id row)) fun r => ?_
      refine only_bind (noLookup_of_plain (stopPhase_plain _ _ _)) fun _ => ?_
      refine only_bind (noLookup_of_plain (transition_plain _ _ _ _)) fun r => ?_
      cases r <;> trivial
  | restart =>
      refine ⟨_, bind_assoc _ _ _, fun row => ?_⟩
      refine only_bind (noLookup_of_plain (claimLoaded_plain settings id row)) fun r => ?_
      refine only_bind (noLookup_of_plain (stopPhase_plain _ _ _)) fun _ => ?_
      refine only_tryCatch (S := fun _ => True) admission_noLookup fun e _ => ?_
      exact only_bind (noLookup_of_plain (transition_plain _ _ _ _)) fun _ => trivial

section Method

variable {d : State} {P : Prop} {id : ServerId} {headers : Headers}

/-- Once through, the code of the method may do what it likes. -/
theorem wp_through {α : Type} {p : Servers.Call α} (hP : P) (h : NoLookup p) :
    wp (monitor d P) (fun _ m => m = .through) (fun _ _ => True) (lifecycle p) .through := by
  induction p with
  | ret a => rfl
  | fail e => trivial
  | act a k ih =>
      have hservice : service a = Prog.perform (.lifecycle a) := by
        cases a <;> first | rfl | exact absurd h.1 nofun
      show wp _ _ _ ((service a).bind fun b => lifecycle (k b)) _
      rw [hservice]
      refine ⟨⟨nofun, nofun, fun _ => ⟨rfl, hP⟩⟩, fun b m' hb => ?_⟩
      obtain ⟨-, rfl⟩ := hb
      exact ih b (h.2 b)

/-- The visibility predicate, for a user the permission guard let through. -/
theorem authorized_of_visible {g : GuardedUser} {user : User} {server : Server}
    (huser : d.accounts.users.get g.id = some user) (hactive : user.status = .active)
    (hsettled : user.mustChangePassword = false) (hrole : user.role = g.role)
    (hgranted : Granted d id g)
    (hserver : d.servers.servers.get id = some server)
    (hvisible : d.servers.visible (toPrincipal g) server = true) :
    Authorized d g.id id user server := by
  have hid : server.id = id := Table.get_key hserver
  unfold World.visible at hvisible
  simp only [Bool.and_eq_true, Bool.or_eq_true, decide_eq_true_eq, beq_iff_eq,
    List.any_eq_true, and_assoc] at hvisible
  obtain ⟨hcreated, haccess⟩ := hvisible
  refine ⟨huser, hactive, hsettled, hserver, hcreated, ?_⟩
  rcases hgranted with hadmin | ⟨hmod, hgrant⟩
  · exact Or.inl (hrole.trans hadmin)
  · refine Or.inr ⟨hrole.trans hmod, hgrant, ?_⟩
    rcases haccess with (hadmin | hopen) | ⟨a, ha, hu, hs, hst⟩
    · exact absurd (hadmin.symm.trans hmod) nofun
    · exact Or.inl hopen
    · exact Or.inr ⟨a, ha, hu, hs.trans hid, hst⟩

/-- The lookup decides whether the request is through. -/
theorem wp_method {verb : Verb} {settings : Settings} {g : GuardedUser}
    (hpassed : Passed d headers g) (hgranted : Granted d id g)
    (hP : ∀ user server, OrdinaryToken d headers g.id g.username →
      Authorized d g.id id user server → P) :
    wp (monitor d P) (fun _ m => m = .through) (fun _ _ => True)
      (lifecycle (verb.method settings id (toPrincipal g))) .checking := by
  obtain ⟨rest, hmethod, hrest⟩ := method_eq verb settings id (toPrincipal g)
  rw [hmethod]
  refine ⟨⟨nofun, fun _ => rfl, nofun⟩, fun b m' hb => ?_⟩
  obtain ⟨hb, rfl⟩ := hb
  cases b with
  | error x => trivial
  | ok row =>
      cases row with
      | none => trivial
      | some row =>
          have hfound : (d.servers.servers.get id).filter (d.servers.visible (toPrincipal g)) =
              some row := by
            rcases hb with hb | ⟨x, hx⟩
            · exact (Except.ok.inj hb).symm
            · cases hx
          obtain ⟨hserver, hvisible⟩ := Option.filter_eq_some_iff.mp hfound
          obtain ⟨htoken, user, huser, hactive, hsettled, hrole⟩ := hpassed
          exact wp_through (hP user row htoken (authorized_of_visible huser hactive hsettled hrole
            hgranted hserver hvisible)) (hrest row)

end Method

/-! ## §5. Complete mediation. -/

/-- Whoever gets as far as the daemon. -/
def Mediated (d : State) (headers : Headers) (id : ServerId) : Prop :=
  ∃ userId username user server,
    OrdinaryToken d headers userId username ∧ Authorized d userId id user server

theorem wp_csrfOriginGuard {d : State} {P : Prop} {canonicalOrigin : String} {route : Route}
    {headers : Headers} :
    wp (monitor d P) (fun _ m => m = .checking) (fun _ _ => True)
      (csrfOriginGuard canonicalOrigin route headers) .checking := by
  unfold csrfOriginGuard
  split
  next => rfl
  next =>
    split
    next => rfl
    next =>
      split
      next => rfl
      next => trivial
    next => trivial

/-- No request gets past the checks unauthorized, or past a failed one. -/
theorem wp_request (settings : Settings) (canonicalOrigin : String) (verb : Verb) (id : ServerId)
    (headers : Headers) (d : State) :
    wp (monitor d (Mediated d headers id)) (fun _ m => m = .through) (fun _ _ => True)
      (request settings canonicalOrigin verb id headers) .checking := by
  unfold request
  refine wp_seq (wp_mono _ _ (fun _ m hm => ?_) (fun _ _ _ => trivial) wp_csrfOriginGuard)
  subst hm
  refine wp_seq (wp_mono _ _ (fun user m hu => ?_) (fun _ _ _ => trivial)
    (wp_account wp_jwtAuthGuard))
  obtain ⟨rfl, g, rfl, hpassed⟩ := hu
  refine wp_seq (wp_mono _ _ (fun _ m hm => ?_) (fun _ _ _ => trivial) (wp_account wp_rolesGuard))
  subst hm
  refine wp_seq (wp_mono _ _ (fun _ m hm => ?_) (fun _ _ _ => trivial)
    (wp_account wp_permissionsGuard))
  obtain ⟨rfl, hgranted⟩ := hm
  refine ⟨⟨nofun, nofun, nofun⟩, fun allowed m hm => ?_⟩
  obtain ⟨-, rfl⟩ := hm
  cases allowed with
  | false => trivial
  | true =>
      exact wp_method hpassed hgranted fun user server htoken hauth =>
        ⟨g.id, g.username, user, server, htoken, hauth⟩

/-- Where a run stands: the monitor's phase, and no Docker request before the
request is through. -/
theorem run_request {settings : Settings} {canonicalOrigin : String} {verb : Verb}
    {id : ServerId} {headers : Headers} {d : State} {ts : List Bool} {q : Call PublicServer}
    (h : Run (Answers d) touchesDocker (request settings canonicalOrigin verb id headers) ts q) :
    ∃ m, wp (monitor d (Mediated d headers id)) (fun _ m => m = .through) (fun _ _ => True) q m ∧
      (m ≠ .through → ∀ t ∈ ts, t = false) := by
  refine Run.sound (J := fun ts m => m ≠ .through → ∀ t ∈ ts, t = false)
    (fun {β} a b ts m hts hallow hb => ?_)
    (wp_request settings canonicalOrigin verb id headers d)
    (fun _ t ht => absurd ht List.not_mem_nil) h
  refine ⟨m.next a b, ⟨hb, rfl⟩, fun hm => ?_⟩
  -- a request that is not through was not through before, and did not reach the daemon
  obtain ⟨-, hcheck, hdocker⟩ := hallow
  have hbefore : m ≠ .through := by
    rintro rfl
    cases hc : isCheck a with
    | true => exact absurd (hcheck hc) nofun
    | false => exact hm (Phase.next_of_not_check .through b hc)
  intro t ht
  rcases List.mem_append.mp ht with ht | ht
  · exact hts hbefore t ht
  · rw [List.mem_singleton.mp ht]
    by_contra hne
    exact hbefore (hdocker (Bool.eq_true_of_not_eq_false hne)).1

/-! ## §6. The checks let the authorized through. -/

section Completeness

variable {d : State} {verb : Verb} {id : ServerId} {headers : Headers} {userId : UserId}
  {username : String} {user : User} {server : Server} {e : Accounts.Env}

/-- A `LIMIT 1` over a row that is there returns one. -/
theorem pickRow_of_mem {ρ : Type} {rows : List ρ} {r : ρ} (n : Nat) (h : r ∈ rows) :
    ∃ row, Accounts.pickRow n rows = some row := by
  have hlt : n % rows.length < rows.length := Nat.mod_lt _ (List.length_pos_of_mem h)
  exact ⟨rows[n % rows.length], List.getElem?_eq_getElem hlt⟩

theorem eval_account {α : Type} (p : Accounts.Call α) :
    (account p).eval (own d e) = p.eval fun a => own d e (.account a) := by
  refine eval_hoist (fun a => ?_) p
  cases h : own d e (.account a) <;> simp [perform, eval, h]

theorem eval_verifyAccessToken {token : RawToken}
    (hclaims : accessClaims token d.now = some ⟨userId, username, false⟩)
    (h : Authorized d userId id user server) :
    (verifyAccessToken token).eval (fun a => own d e (.account a)) =
      some (.ok ⟨userId, username, user.role, false, false⟩) := by
  unfold verifyAccessToken
  refine (eval_bind_ok (a := d.now) rfl).trans ?_
  simp only [hclaims]
  have hquery : (Accounts.query (.selectUser userId)).eval (fun a => own d e (.account a)) =
      some (.ok (some user)) := by
    rw [← h.exists_user]
    rfl
  refine (eval_bind_ok (eval_tryCatch_ok hquery)).trans ?_
  simp only [h.active, h.settled]
  rfl

theorem eval_jwtAuthGuard (htoken : OrdinaryToken d headers userId username)
    (h : Authorized d userId id user server) :
    (account (jwtAuthGuard (verb.route id) headers.accessToken)).eval (own d e) =
      some (.ok (some ⟨userId, username, user.role, false⟩)) := by
  obtain ⟨token, hcookie, hclaims⟩ := htoken
  have hguard : jwtAuthGuard (verb.route id) (some token) =
      (some <$> guardedUser (verb.route id) token).tryCatch fun error =>
        if Accounts.isForbidden error then .fail error else .fail (.unauthorized none) := by
    unfold jwtAuthGuard
    rw [if_neg (by simp [Verb.route])]
    cases token <;> first | rfl | cases hclaims
  rw [hcookie, hguard, eval_account]
  refine eval_tryCatch_ok ((eval_bind_ok (a := ⟨userId, username, user.role, false⟩) ?_).trans rfl)
  exact (eval_bind_ok (eval_verifyAccessToken hclaims h)).trans rfl

theorem eval_rolesGuard (h : Authorized d userId id user server) :
    (account (rolesGuard (verb.route id) (some ⟨userId, username, user.role, false⟩))).eval
      (own d e) = some (.ok ()) := by
  have hrole : user.role = .admin ∨ user.role ∈ [Role.admin, Role.mod] := by
    rcases h.may with hadmin | ⟨hmod, -, -⟩
    · exact Or.inl hadmin
    · exact Or.inr (by simp [hmod])
  show (account (if user.role = .admin ∨ user.role ∈ [Role.admin, Role.mod] then _ else _)).eval _
    = _
  rw [if_pos hrole]
  rfl

theorem eval_permissionsGuard (h : Authorized d userId id user server) :
    (account (permissionsGuard (verb.route id) (some ⟨userId, username, user.role, false⟩))).eval
      (own d e) = some (.ok ()) := by
  rw [eval_account]
  show (if user.role = .admin then (.ret () : Accounts.Call Unit)
    else if user.role ≠ .mod then .fail (.forbidden "Forbidden") else _).eval _ = _
  rcases h.may with hadmin | ⟨hmod, ⟨g, hg, hu, hp, hs⟩, -⟩
  · rw [if_pos hadmin]
    rfl
  · have hnot : ¬ user.role = .admin := by simp [hmod]
    rw [if_neg hnot, if_neg (not_not.mpr hmod)]
    have hmem : g ∈ d.accounts.modPermissions.rows.filter
        (grantCovers userId .serverLifecycle (some id)) := by
      refine List.mem_filter.mpr ⟨hg, ?_⟩
      simp [grantCovers, hu, hp, hs]
    obtain ⟨row, hrow⟩ := pickRow_of_mem e.pick hmem
    have hquery : (Accounts.query (.findPermission
        (grantCovers userId .serverLifecycle (some id)))).eval
          (fun a => own d e (.account a)) = some (.ok (some row)) := by
      rw [← hrow]
      rfl
    exact (eval_bind_ok (eval_tryCatch_ok hquery)).trans rfl

theorem eval_loadVisibleServer (h : Authorized d userId id user server) :
    (lifecycle (loadVisibleServer id ⟨userId, user.role⟩)).eval (own d e) =
      some (.ok server) := by
  have hvisible : d.servers.visible ⟨userId, user.role⟩ server = true := by
    have hid : server.id = id := Table.get_key h.exists_server
    unfold World.visible
    simp only [Bool.and_eq_true, Bool.or_eq_true, decide_eq_true_eq, beq_iff_eq,
      List.any_eq_true, and_assoc]
    refine ⟨h.created, ?_⟩
    rcases h.may with hadmin | ⟨-, -, hopen | ⟨a, ha, hu, hs, hst⟩⟩
    · exact Or.inl (Or.inl hadmin)
    · exact Or.inl (Or.inr hopen)
    · exact Or.inr ⟨a, ha, hu, hs.trans hid.symm, hst⟩
  have hfound : (d.servers.servers.get id).filter (d.servers.visible ⟨userId, user.role⟩) =
      some server := by
    rw [h.exists_server]
    simp [hvisible]
  show (Prog.act (Act.lookup id ⟨userId, user.role⟩) _).eval (own d e) = _
  unfold eval
  show (some (Except.ok (ε := Exn)
    ((d.servers.servers.get id).filter (d.servers.visible ⟨userId, user.role⟩)))).bind _ = _
  rw [hfound]
  rfl

end Completeness

/-- **Lifecycle authorization is completely mediated.**  A request reaches the
daemon only for an ACTIVE user with a valid ordinary token who is not in forced
recovery, on a server that exists and is not CREATING, and who is an
administrator or a moderator with a grant for it and access to it.  Whoever is
all that gets past each of the checks.  A check whose statement fails rejects
the request there and then, with nothing done at the daemon. -/
theorem lifecycle_mediated (settings : Settings) (canonicalOrigin : String) (verb : Verb)
    (id : ServerId) (headers : Headers) (d : State) :
    (∀ (ts : List Bool) (β : Type) (a : Act β) (k : β → Call PublicServer),
      Run (Answers d) touchesDocker (request settings canonicalOrigin verb id headers) ts
        (.act a k) → touchesDocker β a = true → Mediated d headers id) ∧
    (∀ (userId : UserId) (username : String) (user : User) (server : Server) (e : Accounts.Env),
      OrdinaryToken d headers userId username → Authorized d userId id user server →
        (account (jwtAuthGuard (verb.route id) headers.accessToken)).eval (own d e) =
          some (.ok (some ⟨userId, username, user.role, false⟩)) ∧
        (account (rolesGuard (verb.route id) (some ⟨userId, username, user.role, false⟩))).eval
          (own d e) = some (.ok ()) ∧
        (account (permissionsGuard (verb.route id)
          (some ⟨userId, username, user.role, false⟩))).eval (own d e) = some (.ok ()) ∧
        (lifecycle (loadVisibleServer id ⟨userId, user.role⟩)).eval (own d e) =
          some (.ok server)) ∧
    ∀ (ts : List Bool) (β : Type) (a : Act β) (k : β → Call PublicServer) (b : β),
      Run (Answers d) touchesDocker (request settings canonicalOrigin verb id headers) ts
        (.act a k) → FailedRead a b → (∀ t ∈ ts, t = false) ∧ ∃ x, k b = .fail x := by
  refine ⟨fun ts β a k hrun hdocker => ?_, fun userId username user server e htoken h => ?_,
    fun ts β a k b hrun hfailed => ?_⟩
  · obtain ⟨m, ⟨⟨-, -, hallow⟩, -⟩, -⟩ := run_request hrun
    exact (hallow hdocker).2
  · exact ⟨eval_jwtAuthGuard htoken h, eval_rolesGuard h, eval_permissionsGuard h,
      eval_loadVisibleServer h⟩
  · obtain ⟨m, ⟨⟨-, hcheck, -⟩, hk⟩, hts⟩ := run_request hrun
    obtain ⟨hread, hanswers, hrefused⟩ := hfailed.refused m d
    have hm := hcheck hread
    refine ⟨hts (by rw [hm]; nofun), ?_⟩
    -- after a refusal the call can neither act nor return
    have hrest := hk b .refused ⟨hanswers, hrefused.symm⟩
    cases hkb : k b with
    | ret r =>
        rw [hkb] at hrest
        exact absurd hrest nofun
    | fail x => exact ⟨x, rfl⟩
    | act a' k' =>
        rw [hkb] at hrest
        exact absurd rfl hrest.1.1

/-- A moderator with a grant for server 1, a REQUEST server they were let into. -/
def sampleState : State where
  accounts := { Accounts.sampleDb with
    users := ⟨[Accounts.sampleAccount 4 "mia@example.com" "mia" .mod], List.nodup_singleton _⟩
    modPermissions := ⟨[⟨1, 4, .serverLifecycle, some 1, 0⟩], List.nodup_singleton _⟩
    servers := [1] }
  servers := { sampleWorld .running true with
    servers := ⟨[{ sampleServer .running (some 7) with accessType := .requestAccess }],
      List.nodup_singleton _⟩
    access := [⟨1, 4, 1, .approved, 0, some 0⟩] }
  now := 1700000000000

/-- The moderator's cookie. -/
def sampleHeaders : Headers where
  origin := .absent
  host := none
  protocol := "https"
  accessToken := some (.signed ⟨.access 4 "mia" .mod false, 1700000900⟩)

/-- The moderator's request to stop the server. -/
def sampleRequest : Call PublicServer :=
  request sampleSettings "https://panel.example.com" .stop 1 sampleHeaders

/-- What the moderator's request is answered until it gets to the daemon. -/
def sampleAnswers : ∀ {β : Type}, Act β → Option β
  | _, .throttle => some true
  | _, .lifecycle (.updateTransition _ _ _ _ _) =>
      some (.ok (sampleState.servers.servers.get 1))
  | _, a => own sampleState {} a

theorem sampleAnswers_sound {β : Type} (a : Act β) (b : β) (h : sampleAnswers a = some b) :
    Answers sampleState β a b := by
  cases a with
  | account a =>
      cases a with
      | query s => exact Or.inl ⟨{}, (Option.some.inj h).symm⟩
      | now => exact (Option.some.inj h).symm
      | _ => trivial
  | throttle => trivial
  | lookup id principal => exact Or.inl (Option.some.inj h).symm
  | lifecycle a => trivial

/-- What a request is about to do, where it is about to act. -/
def aboutTo (f : ∀ β : Type, Act β → Bool) : Option (Call PublicServer) → Bool
  | some (.act a _) => f _ a
  | _ => false

/-- The run of the moderator's request up to an action that `f` names. -/
theorem sampleRequest_reaches {f : ∀ β : Type, Act β → Bool} (n : Nat)
    (h : aboutTo f (sampleRequest.drive (fun a => sampleAnswers a) n) = true) :
    ∃ ts, ∃ β, ∃ a : Act β, ∃ k,
      Run (Answers sampleState) touchesDocker sampleRequest ts (.act a k) ∧ f β a = true := by
  cases hq : sampleRequest.drive (fun a => sampleAnswers a) n with
  | none =>
      rw [hq] at h
      cases h
  | some q =>
      obtain ⟨ts, hrun⟩ := Run.of_drive sampleAnswers_sound n .start hq
      rw [hq] at h
      cases q with
      | act a k => exact ⟨ts, _, a, k, hrun, h⟩
      | ret r => cases h
      | fail x => cases h

/-- The lookup of the server. -/
def looksUp : ∀ β : Type, Act β → Bool
  | _, .lookup _ _ => true
  | _, _ => false

/-- The moderator's request gets to the daemon, as it may; with the lookup
failing it is rejected instead. -/
theorem sampleRequest_mediated :
    Mediated sampleState sampleHeaders 1 ∧
      (account (permissionsGuard (Verb.stop.route 1) (some ⟨4, "mia", .mod, false⟩))).eval
        (own sampleState {}) = some (.ok ()) ∧
      ∃ ts id principal k x, Run (Answers sampleState) touchesDocker sampleRequest ts
        (.act (.lookup id principal) k) ∧ (∀ t ∈ ts, t = false) ∧
        k (.error .statementFailed) = .fail x := by
  obtain ⟨hsound, hcomplete, hfails⟩ := lifecycle_mediated sampleSettings
    "https://panel.example.com" .stop 1 sampleHeaders sampleState
  refine ⟨?_, ?_, ?_⟩
  · obtain ⟨ts, β, a, k, hrun, hdocker⟩ :=
      sampleRequest_reaches (f := touchesDocker) 6 (by decide +kernel)
    exact hsound ts β a k hrun hdocker
  · refine (hcomplete 4 "mia" (Accounts.sampleAccount 4 "mia@example.com" "mia" .mod)
      { sampleServer .running (some 7) with accessType := .requestAccess } {}
      ⟨_, rfl, by decide +kernel⟩ ⟨rfl, rfl, rfl, rfl, nofun, Or.inr ⟨rfl, ?_, Or.inr ?_⟩⟩).2.2.1
    · exact ⟨_, List.mem_singleton_self _, rfl, rfl, Or.inr rfl⟩
    · exact ⟨_, List.mem_singleton_self _, rfl, rfl, rfl⟩
  · obtain ⟨ts, β, a, k, hrun, hlookup⟩ :=
      sampleRequest_reaches (f := looksUp) 4 (by decide +kernel)
    cases a with
    | lookup id principal =>
        obtain ⟨hquiet, x, hx⟩ := hfails ts _ _ k (.error .statementFailed) hrun trivial
        exact ⟨ts, id, principal, k, x, hrun, hquiet, hx⟩
    | _ => cases hlookup

end MinePanel.Servers.Mediation
