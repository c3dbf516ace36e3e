/-
  MinePanel.Servers.Rules
  ───────────────────────
  **PROOF RULES FOR THE LIFECYCLE HELPERS.**

  One rule for every helper of the service, over an arbitrary monitor, so that
  a property of start, stop, restart, delete or create is proved from the
  statements they issue and never by unfolding a helper.

    * `Act.inert` — requests that change neither the database nor a container;
    * `Steady` — a monitor that ignores them at a state;
    * `wp_transition`, `wp_admitAndClaim`, `wp_startContainer`, … .
-/
import MinePanel.Servers.System

namespace MinePanel.Servers

open MinePanel.Db MinePanel.Docker MinePanel.Lib Prog

universe v

/-! ## §1. Inert requests. -/

/-- Requests that only read: inspections, lists, host readings, RCON, waiting. -/
def Act.inert : ∀ {β : Type}, Act β → Bool
  | _, .dockerInspect _ => true
  | _, .dockerList _ => true
  | _, .dockerInfo => true
  | _, .rconExec _ _ => true
  | _, .statfs => true
  | _, .sleep _ => true
  | _, _ => false

/-- Anything but the memory shortage of an admission check. -/
def Calm (e : Exn) : Prop := e.isMemoryShortage = false

theorem handleDockerError_calm (cause : DockerError) (context : String) :
    Calm (handleDockerError cause context) := by
  unfold handleDockerError
  split
  · rfl
  · split <;> rfl

theorem parseResourceConfig_calm {settings : Settings} {e : Exn}
    (h : parseResourceConfig settings = .error e) : Calm e := by
  unfold parseResourceConfig at h
  split at h
  · split at h <;> cases h
    rfl
  · cases h
    rfl

theorem parseStopWarnSeconds_calm {settings : Settings} {e : Exn}
    (h : parseStopWarnSeconds settings = .error e) : Calm e := by
  unfold parseStopWarnSeconds at h
  dsimp only at h
  split at h
  · cases h
    rfl
  · split at h <;> cases h
    rfl

theorem checkDisk_calm {diskInfo : DiskInfo} {mb : Nat} {message : String} {e : Exn}
    (h : checkDisk diskInfo mb message = .error e) : Calm e := by
  unfold checkDisk at h
  split at h
  · split at h <;> cases h
    rfl
  · cases h
    rfl

/-- `p` performs inert requests only, and throws no memory shortage. -/
def Inert {α : Type} (p : Call α) : Prop := p.Only (fun _ a => a.inert = true) Calm

theorem check_inert {α : Type} {r : Except Exn α} (h : ∀ e, r = .error e → Calm e) :
    Inert (check r) := by
  cases r with
  | ok a => trivial
  | error e => exact h e rfl

theorem inspectContainer_inert (cid : ContainerId) : Inert (inspectContainer cid) := by
  refine ⟨rfl, fun b => ?_⟩
  cases b with
  | ok info => trivial
  | error e => exact handleDockerError_calm e "container"

theorem findManagedContainer_inert (id : ServerId) : Inert (findManagedContainer id) := by
  refine ⟨rfl, fun b => ?_⟩
  rcases b with _ | _ | ⟨⟨_ | _, _⟩, _⟩ <;> trivial

theorem getHostInfo_inert : Inert getHostInfo := by
  refine ⟨rfl, fun b => ?_⟩
  cases b with
  | ok info => trivial
  | error e => exact handleDockerError_calm e "host"

theorem getHostDiskInfo_inert (settings : Settings) : Inert (getHostDiskInfo settings) := by
  unfold getHostDiskInfo
  cases settings.dockerConfig with
  | error message => exact (rfl : Calm (.badRequest message))
  | ok _ =>
      refine ⟨rfl, fun b => ?_⟩
      cases b <;> trivial

theorem hostReadings_inert (settings : Settings) : Inert (hostReadings settings) := by
  unfold hostReadings
  cases settings.dockerConfig with
  | error message => exact (rfl : Calm (.badRequest message))
  | ok _ =>
      exact only_bind getHostInfo_inert fun _ =>
        only_bind (getHostDiskInfo_inert settings) fun _ => trivial

theorem executeRconCommand_inert (cid : ContainerId) (command : List String) :
    Inert (executeRconCommand cid command) := by
  unfold executeRconCommand
  refine only_guard (fun _ => rfl) fun _ => ⟨rfl, fun b => ?_⟩
  rcases b with (cause | _) | _
  · refine only_guard (fun _ => handleDockerError_calm cause "container") fun _ => ?_
    exact (rfl : Calm (.rconUnavailable _))
  · exact (rfl : Calm (.rconUnavailable _))
  · trivial

/-- A monitor that ignores inert requests at `m`. -/
def Steady {μ : Type v} (M : Monitor Act μ) (m : μ) : Prop :=
  M.Ignores (fun _ a => a.inert = true) m

/-- The steps that write neither `servers` nor a container: inert requests,
SELECTs, the advisory lock and the rollback. -/
def Act.silent : ∀ {β : Type}, Act β → Bool
  | _, .selectVisibleServer _ _ => true
  | _, .selectNotStopped => true
  | _, .lifecycleLock => true
  | _, .sumMemoryLimitMb _ _ => true
  | _, .rollback => true
  | _, a => a.inert

/-- A monitor that ignores silent steps at `m`. -/
def Deaf {μ : Type v} (M : Monitor Act μ) (m : μ) : Prop :=
  M.Ignores (fun _ a => a.silent = true) m

theorem Act.silent_of_inert {β : Type} (a : Act β) (h : a.inert = true) : a.silent = true := by
  cases a <;> first | exact h | rfl

theorem Deaf.steady {μ : Type v} {M : Monitor Act μ} {m : μ} (h : Deaf M m) : Steady M m :=
  fun _ a ha => h a (Act.silent_of_inert a ha)

section Rules

variable {μ : Type v} {M : Monitor Act μ} {α : Type} {m : μ} {E : Exn → μ → Prop}

theorem Inert.wp {p : Call α} {Q : α → μ → Prop} (hp : Inert p) (hM : Steady M m)
    (hQ : ∀ a, Q a m) (hE : ∀ e, Calm e → E e m) : wp M Q E p m :=
  wp_of_only hp hM hQ hE

theorem wp_check {r : Except Exn α} {Q : α → μ → Prop} (hQ : ∀ a, r = .ok a → Q a m)
    (hE : ∀ e, r = .error e → E e m) : wp M Q E (check r) m := by
  cases r with
  | ok a => exact hQ a rfl
  | error e => exact hE e rfl

/-! ## §2. Statements. -/

/-- The rows a call can load: the named one. -/
theorem wp_loadVisibleServer {id : ServerId} {principal : ServerPrincipal}
    {Q : Server → μ → Prop} (hallow : M.allow m (.selectVisibleServer id principal))
    (hQ : ∀ s m', M.next m (.selectVisibleServer id principal) (some s) m' → Q s m')
    (hE : ∀ m', M.next m (.selectVisibleServer id principal) none m' →
      E (.notFound "Server not found") m') :
    wp M Q E (loadVisibleServer id principal) m := by
  refine ⟨hallow, fun b m' hb => ?_⟩
  cases b with
  | none => exact hE m' hb
  | some s => exact hQ s m' hb

/-- A statement and its broken constraints. -/
theorem wp_statement {a : Act (Except String α)} {Q : α → μ → Prop} (hallow : M.allow m a)
    (hE : ∀ c m', M.next m a (.error c) m' → E (.uniqueViolation c) m')
    (hQ : ∀ r m', M.next m a (.ok r) m' → Q r m') : wp M Q E (statement a) m := by
  refine ⟨hallow, fun b m' hb => ?_⟩
  cases b with
  | error c => exact hE c m' hb
  | ok r => exact hQ r m' hb

/-- A transaction whose body cannot throw is its body. -/
theorem wp_transaction_of_no_throw {body : Call α} {Q : α → μ → Prop}
    (h : wp M Q (fun _ _ => False) body m) : wp M Q E (transaction body) m := by
  unfold transaction
  rw [tryCatch_eq, wp_tryCatch]
  exact wp_mono _ _ (fun _ _ hq => hq) (fun _ _ hf => hf.elim) h

/-- A transaction: a throw of the body is followed by the rollback. -/
theorem wp_transaction {body : Call α} {Q : α → μ → Prop}
    (h : wp M Q (fun e m => M.allow m .rollback ∧ ∀ u m', M.next m .rollback u m' → E e m')
      body m) : wp M Q E (transaction body) m := by
  unfold transaction
  rw [tryCatch_eq, wp_tryCatch]
  exact wp_mono _ _ (fun _ _ hq => hq) (fun _ _ hf => hf) h

theorem wp_transition {id : ServerId} {s s' : ServerStatus} {cid : Option ContainerId}
    {Q : Option Server → μ → Prop} (hallow : M.allow m (.updateTransition id s s' cid none))
    (hok : ∀ e m', ¬ M.next m (.updateTransition id s s' cid none) (.error e) m')
    (hQ : ∀ r m', M.next m (.updateTransition id s s' cid none) (.ok r) m' → Q r m') :
    wp M Q E (transition id s s' cid none) m :=
  wp_transaction_of_no_throw (wp_statement hallow hok hQ)

/-- The admission transaction, for a monitor that only watches writes: what
counts is its compare-and-set. -/
theorem wp_admitAndClaim {settings : Settings} {hostInfo : HostInfo} {config : ResourceConfig}
    {id : ServerId} {memoryLimitMb : Nat} {fromStatus : ServerStatus} {cid : ContainerId}
    {message : String} {Q : Option Server → μ → Prop} (hM : Deaf M m)
    (hallow : M.allow m (.updateTransition id fromStatus .starting (some cid) none))
    (hok : ∀ e m', ¬ M.next m (.updateTransition id fromStatus .starting (some cid) none)
      (.error e) m')
    (hQ : ∀ r m', M.next m (.updateTransition id fromStatus .starting (some cid) none)
      (.ok r) m' → Q r m')
    (hE : ∀ e, E e m) :
    wp M Q E (admitAndClaim settings hostInfo config id memoryLimitMb fromStatus cid message)
      m := by
  unfold admitAndClaim
  refine wp_transaction ?_
  refine ⟨(hM .lifecycleLock rfl).1, fun _ m₁ h₁ => ?_⟩
  rw [(hM .lifecycleLock rfl).2 _ m₁ h₁]
  refine ⟨(hM (.sumMemoryLimitMb _ _) rfl).1, fun _ m₂ h₂ => ?_⟩
  rw [(hM (.sumMemoryLimitMb _ _) rfl).2 _ m₂ h₂]
  simp only [bind_ret, bind_eq]
  rw [wp_bind]
  refine wp_check (fun _ _ => wp_statement hallow (fun c m' h => (hok c m' h).elim) hQ) fun e _ => ?_
  refine ⟨(hM .rollback rfl).1, fun _ m₃ h₃ => ?_⟩
  rw [(hM .rollback rfl).2 _ m₃ h₃]
  exact hE e

/-! ## §3. Docker requests. -/

/-- Start, stop and removal are one shape: a tolerated status counts as done,
every other rejection is classified. -/
def settleReply (tolerated : Nat) : Except DockerError Unit → Call Unit
  | .ok _ => return ()
  | .error error =>
    if isStatusCode error tolerated then return ()
    else throw (handleDockerError error "container")

theorem startContainer_eq (cid : ContainerId) :
    startContainer cid = .act (.dockerStart cid) (settleReply 304) := rfl

theorem removeContainer_eq (cid : ContainerId) :
    removeContainer cid = .act (.dockerRemove cid) (settleReply 404) := rfl

theorem stopContainer_eq (cid : ContainerId) (t : Nat) (ht : t ≤ maxStopTimeoutSeconds) :
    stopContainer cid t = .act (.dockerStop cid t) (settleReply 304) := by
  unfold stopContainer
  rw [if_neg (Nat.not_lt.mpr ht)]
  rfl

/-- The request counts as done. -/
def Accepted (tolerated : Nat) : Except DockerError Unit → Prop
  | .ok _ => True
  | .error e => e.statusCode = some tolerated

theorem wp_settleReply {tolerated : Nat} {reply : Except DockerError Unit} {Q : Unit → μ → Prop}
    (hQ : Accepted tolerated reply → Q () m)
    (hE : ∀ e, reply = .error e → e.statusCode ≠ some tolerated →
      E (handleDockerError e "container") m) :
    wp M Q E (settleReply tolerated reply) m := by
  cases reply with
  | ok _ => exact hQ trivial
  | error e =>
      by_cases h : isStatusCode e tolerated = true
      · simp only [settleReply, h, if_true]
        exact hQ (by simpa [Accepted, isStatusCode] using h)
      · simp only [settleReply, h]
        exact hE e rfl (by simpa [isStatusCode] using h)

/-- The RCON phase of the graceful stop. -/
theorem rconPhase_inert (cid : ContainerId) (warnSeconds : Nat) (message : String) :
    Inert (do
      executeRconCommand cid ["say", message]
      if warnSeconds > 0 then
        Prog.perform (.sleep (warnSeconds * 1000))
      executeRconCommand cid ["save-all"]
      Prog.perform (.sleep 3000)
      pure false : Call Bool) := by
  have hrest : Inert (do
      executeRconCommand cid ["save-all"]
      Prog.perform (.sleep 3000)
      pure false : Call Bool) :=
    only_bind (executeRconCommand_inert _ _) fun _ => ⟨rfl, fun _ => trivial⟩
  refine only_bind (executeRconCommand_inert _ _) fun _ => ?_
  split
  · exact only_bind ⟨rfl, fun _ => trivial⟩ fun _ => hrest
  · exact hrest

/-- The graceful stop is inert up to the one Docker stop. -/
theorem wp_gracefulStopContainer {cid : ContainerId} {warnSeconds : Nat} {Q : Unit → μ → Prop}
    (hM : Steady M m)
    (h : ∀ t, wp M Q E (.act (.dockerStop cid t) (settleReply 304)) m) :
    wp M Q E (gracefulStopContainer cid warnSeconds) m := by
  have hstop : ∀ failed : Bool,
      wp M Q E (stopContainer cid (if failed then 10 else 15)) m := by
    intro failed
    rw [stopContainer_eq _ _ (by split <;> decide)]
    exact h _
  unfold gracefulStopContainer
  rw [bind_eq, wp_bind, tryCatch_eq, wp_tryCatch]
  exact (rconPhase_inert _ _ _).wp hM hstop fun _ _ => hstop true

end Rules

/-! ## §4. What start, stop and restart are made of. -/

/-- Inert requests, compare-and-set transitions that keep the container id, the
rollback, and Docker starts and stops. -/
def Act.plain : ∀ {β : Type}, Act β → Bool
  | _, .updateTransition _ _ _ _ new => new == none
  | _, .rollback => true
  | _, .dockerStart _ => true
  | _, .dockerStop _ _ => true
  | _, a => a.inert

/-- Plain and silent steps. -/
def Act.basic {β : Type} (a : Act β) : Bool := a.plain || a.silent

/-- `p` performs plain steps only, and throws no memory shortage. -/
def Plain {α : Type} (p : Call α) : Prop := p.Only (fun _ a => a.plain = true) Calm

/-- `p` performs basic steps only. -/
def Basic {α : Type} (p : Call α) : Prop := p.Only (fun _ a => a.basic = true) fun _ => True

theorem Act.plain_of_inert {β : Type} (a : Act β) (h : a.inert = true) : a.plain = true := by
  cases a <;> first | exact h | cases h

theorem Inert.plain {α : Type} {p : Call α} (h : Inert p) : Plain p :=
  only_mono (fun a ha => Act.plain_of_inert a ha) (fun _ he => he) h

theorem Plain.basic {α : Type} {p : Call α} (h : Plain p) : Basic p :=
  only_mono (fun _ ha => by simp [Act.basic, ha]) (fun _ _ => trivial) h

theorem statement_plain {α : Type} {a : Act (Except String α)} (ha : a.plain = true) :
    Plain (statement a) := by
  refine ⟨ha, fun b => ?_⟩
  cases b with
  | ok r => trivial
  | error c => exact (rfl : Calm (.uniqueViolation c))

theorem transition_plain (id : ServerId) (s s' : ServerStatus) (cid : Option ContainerId) :
    Plain (transition id s s' cid none) :=
  only_tryCatch (statement_plain rfl) fun _ he => ⟨rfl, fun _ => he⟩

/-- A settling transition before the failure is rethrown. -/
theorem rethrow_plain {α : Type} (id : ServerId) (s s' : ServerStatus) (cid : Option ContainerId)
    {e : Exn} (he : Calm e) :
    Plain (do let _ ← transition id s s' cid none; throw e : Call α) :=
  only_bind (transition_plain id s s' cid) fun _ => he

theorem settleReply_plain (tolerated : Nat) (reply : Except DockerError Unit) :
    Plain (settleReply tolerated reply) := by
  unfold settleReply
  cases reply with
  | ok _ => trivial
  | error e =>
      dsimp only
      split
      · trivial
      · exact handleDockerError_calm e "container"

theorem startPhase_plain (id : ServerId) (cid : ContainerId) : Plain (startPhase id cid) := by
  unfold startPhase
  rw [startContainer_eq]
  refine only_bind (only_tryCatch ⟨rfl, settleReply_plain 304⟩ fun e he => ?_) fun _ => ?_
  · split <;> exact rethrow_plain _ _ _ _ he
  · refine only_bind (transition_plain _ _ _ _) fun r => ?_
    cases r with
    | none => exact rethrow_plain _ _ _ _ rfl
    | some r => trivial

theorem stopPhase_plain (id : ServerId) (cid : ContainerId) (warn : Nat) :
    Plain (stopPhase id cid warn) := by
  unfold stopPhase
  refine only_tryCatch (S := Calm) ?_ fun e he => ?_
  · unfold gracefulStopContainer
    refine only_bind (only_tryCatch (rconPhase_inert _ _ _).plain fun _ _ => trivial)
      fun failed => ?_
    rw [stopContainer_eq _ _ (by split <;> decide)]
    exact ⟨rfl, settleReply_plain 304⟩
  · split
    · exact rethrow_plain _ _ _ _ he
    · split <;> exact rethrow_plain _ _ _ _ he

/-- The head of stop and restart after the row is loaded. -/
theorem claimLoaded_plain (settings : Settings) (id : ServerId) (row : Server) :
    Plain (do
      if row.status ≠ .running then
        throw (.conflict "Server is not in RUNNING state")
      match row.containerId with
      | none => throw (.internalServerError "Running server has no container id")
      | some containerId =>
        let warnSeconds ← check (parseStopWarnSeconds settings)
        let stopping ← transition id .running .stopping (some containerId) none
        if stopping.isNone then
          throw (.conflict "Server is not in RUNNING state")
        return (row, containerId, warnSeconds) : Call (Server × ContainerId × Nat)) := by
  refine only_guard (fun _ => rfl) fun _ => ?_
  cases row.containerId with
  | none => exact (rfl : Calm (.internalServerError _))
  | some cid =>
      refine only_bind (check_inert fun _ => parseStopWarnSeconds_calm).plain fun warn => ?_
      refine only_bind (transition_plain _ _ _ _) fun r => ?_
      cases r with
      | none => exact (rfl : Calm (.conflict _))
      | some r => trivial

theorem loadVisibleServer_basic (id : ServerId) (principal : ServerPrincipal) :
    Basic (loadVisibleServer id principal) := by
  refine ⟨rfl, fun b => ?_⟩
  cases b <;> trivial

theorem admitAndClaim_basic (settings : Settings) (hostInfo : HostInfo) (config : ResourceConfig)
    (id : ServerId) (mb : Nat) (st : ServerStatus) (cid : ContainerId) (message : String) :
    Basic (admitAndClaim settings hostInfo config id mb st cid message) := by
  refine only_tryCatch (S := fun _ => True) ⟨rfl, fun _ => ⟨rfl, fun sum => ?_⟩⟩
    fun _ _ => ⟨rfl, fun _ => trivial⟩
  simp only [bind_eq, bind_ret]
  refine only_bind ?_ fun _ => (statement_plain rfl).basic
  cases checkMemoryAdmission settings hostInfo config.maxMemoryRatio mb sum message <;> trivial

theorem claimRunning_basic (settings : Settings) (id : ServerId) (principal : ServerPrincipal) :
    Basic (claimRunning settings id principal) :=
  only_bind (loadVisibleServer_basic id principal) fun row =>
    (claimLoaded_plain settings id row).basic

theorem stopServer_basic (settings : Settings) (id : ServerId) (principal : ServerPrincipal) :
    Basic (stopServer settings id principal) := by
  unfold stopServer
  refine only_bind (claimRunning_basic settings id principal) fun r => ?_
  refine only_bind (stopPhase_plain _ _ _).basic fun _ => ?_
  refine only_bind (transition_plain _ _ _ _).basic fun r => ?_
  cases r <;> trivial

theorem startServer_basic (settings : Settings) (id : ServerId) (principal : ServerPrincipal) :
    Basic (startServer settings id principal) := by
  unfold startServer
  refine only_bind (loadVisibleServer_basic id principal) fun row => ?_
  refine only_guard (fun _ => trivial) fun _ => ?_
  cases row.containerId with
  | none => trivial
  | some cid =>
      refine only_bind (check_inert fun _ => parseResourceConfig_calm).plain.basic fun config => ?_
      refine only_bind (hostReadings_inert settings).plain.basic fun hd => ?_
      refine only_bind (check_inert fun _ => checkDisk_calm).plain.basic fun _ => ?_
      refine only_bind (admitAndClaim_basic _ _ _ _ _ _ _ _) fun r => ?_
      cases r with
      | none => trivial
      | some r => exact (startPhase_plain id cid).basic

theorem restartServer_basic (settings : Settings) (id : ServerId) (principal : ServerPrincipal) :
    Basic (restartServer settings id principal) := by
  unfold restartServer restartStart
  refine only_bind (claimRunning_basic settings id principal) fun r => ?_
  refine only_bind (stopPhase_plain _ _ _).basic fun _ => ?_
  refine only_tryCatch (S := fun _ => True) ?_ fun e _ =>
    only_bind (transition_plain _ _ _ _).basic fun _ => trivial
  refine only_bind (check_inert fun _ => parseResourceConfig_calm).plain.basic fun config => ?_
  refine only_bind (hostReadings_inert settings).plain.basic fun hd => ?_
  refine only_bind (check_inert fun _ => checkDisk_calm).plain.basic fun _ => ?_
  refine only_bind (admitAndClaim_basic _ _ _ _ _ _ _ _) fun r => ?_
  cases r with
  | none => trivial
  | some r => exact (startPhase_plain _ _).basic

/-- **start, stop and restart neither insert nor delete a row, and neither
create nor remove a container.** -/
theorem body_basic (settings : Settings) (op : Op)
    (h : ∃ id principal, op = .start id principal ∨ op = .stop id principal ∨
      op = .restart id principal) : Basic (body settings op) := by
  obtain ⟨id, principal, rfl | rfl | rfl⟩ := h
  · exact only_bind (startServer_basic settings id principal) fun _ => trivial
  · exact only_bind (stopServer_basic settings id principal) fun _ => trivial
  · exact only_bind (restartServer_basic settings id principal) fun _ => trivial

/-! ## §5. The reconciliation. -/

theorem reconcileRow_inert (row : Server) : Inert (reconcileRow row) := by
  have hlookup : Inert (reconcileLookup row) := by
    refine only_bind (findManagedContainer_inert row.id) fun r => ?_
    cases r <;> trivial
  unfold reconcileRow
  cases row.containerId with
  | none => exact hlookup
  | some cid =>
      refine only_bind (only_tryCatch (S := fun _ => True) ?_ fun e _ => trivial) fun r => ?_
      · refine only_mono (fun _ ha => ha) (fun _ _ => trivial)
          (only_bind (inspectContainer_inert cid) fun r => ?_)
        trivial
      · cases r with
        | ok r => trivial
        | error e =>
            dsimp only
            split
            · trivial
            · split
              · exact hlookup
              · trivial

theorem reconcileRows_inert : ∀ rows : List Server, Inert (reconcileRows rows)
  | [] => trivial
  | row :: rest => only_bind (reconcileRow_inert row) fun _ =>
      only_bind (reconcileRows_inert rest) fun _ => trivial

/-- **The writes of a reconciliation**: one for each outcome that is a state. -/
theorem reconcileWrites_only {K : ∀ β : Type, Act β → Prop} {T : Exn → Prop}
    (hT : ∀ x, T (.uniqueViolation x)) (outcomes : List (Server × ReconciliationOutcome))
    (hK : ∀ row st cid, (row, .state st cid) ∈ outcomes → K _ (.updateReconciled row st cid)) :
    (reconcileWrites outcomes).Only K T := by
  induction outcomes with
  | nil => trivial
  | cons ro rest ih =>
      have hrest := ih fun row st cid h => hK row st cid (List.mem_cons_of_mem _ h)
      obtain ⟨row, outcome⟩ := ro
      cases outcome with
      | unavailable => exact hrest
      | unchanged => exact hrest
      | state st cid =>
          unfold reconcileWrites
          split
          · refine only_bind (only_tryCatch (S := fun e => ∃ x, e = .uniqueViolation x) ?_ ?_)
              fun _ => hrest
            · refine ⟨hK row st cid List.mem_cons_self, fun b => ?_⟩
              cases b with
              | ok r => trivial
              | error x => exact ⟨x, rfl⟩
            · rintro e ⟨x, rfl⟩
              exact only_bind (only_tryCatch hrest fun _ _ => trivial) fun _ => hT x
          · exact hrest

end MinePanel.Servers
