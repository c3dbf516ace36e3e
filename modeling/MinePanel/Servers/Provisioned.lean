/-
  MinePanel.Servers.Provisioned
  ─────────────────────────────
  **A ROW THAT RUNS HAS A CONTAINER.**

  Status and container id are written by different statements: the claim of a
  fresh container, the compare-and-set transitions, the compensation of a
  failed creation and the reconciliation, which also writes null.  STOPPED and
  STOPPING rows may have no container, so the property needs two facts that are
  not written anywhere: a transition to STARTING or RUNNING names the container
  it expects, and a CREATING row without its container belongs to one call.

    * `Making` — what a creation has inserted and not provisioned yet;
    * `Provisioning` — the invariant, with every statement that writes a row;
    * `provisioned` — in every run of all six operations from an empty table.
-/
import MinePanel.Servers.Steps

namespace MinePanel.Servers

open MinePanel.Db MinePanel.Docker MinePanel.Lib Prog

/-! ## §1. The property. -/

/-- STARTING and RUNNING rows have a container. -/
def RowProvisioned (s : Server) : Prop :=
  s.status = .starting ∨ s.status = .running → s.containerId.isSome = true

/-- What stop and restart throw at a RUNNING row without a container. -/
def unprovisioned : Exn := .internalServerError "Running server has no container id"

/-- The row ids drawn so far. -/
abbrev Drawn := List ServerId

/-- Every interleaving of the six operations, with any answer of the daemon; no
row id is drawn twice. -/
def everyRun : Watch Act World Env Op Drawn where
  guard := fun o _ _ _ _ a e => match a with
    | .insertServer _ => e.uuid ∉ o
    | _ => true
  onStep := fun o _ _ _ _ a b _ => match a, b with
    | .insertServer _, .ok row => row.id :: o
    | _, _ => o

/-- What holds in a configuration `c`. -/
structure Provisioned (c : Conf) (o : Drawn) : Prop where
  row : ∀ {id : ServerId} {s : Server}, row c id = some s → RowProvisioned s
  /-- No two rows share a container. -/
  unique : c.world.UniqueContainers
  /-- Only a reconciliation changes the container of a row that stays. -/
  kept : ∀ {p : Pid} {op : Op} {β : Type} {a : Act β} {k : β → Call Reply} {e : Env} {b : β}
    {w' : World} {id : ServerId} {s : Server} {cid : ContainerId},
    c.calls p = some ⟨op, .act a k⟩ → everyRun.guard o c.world p op a e = true →
    exec p a e c.world = some (b, w') → Servers.row c id = some s → s.containerId = some cid →
    w'.servers.get id = none ∨ op = .reconcile ∨
      ∃ s', w'.servers.get id = some s' ∧ s'.containerId = some cid
  /-- The branch of stop and restart for such a row is not taken. -/
  branch : ∀ {p : Pid} {op : Op}, ¬ c.failed p op unprovisioned

/-! ## §2. The monitor of one call. -/

/-- What a call has inserted and not provisioned yet. -/
inductive Making where
  | nothing
  | made (id : ServerId)
  deriving DecidableEq

/-- The steps that say nothing about a row, write no container, and write no
STARTING or RUNNING without naming one. -/
def Act.provides : ∀ {β : Type}, Act β → Bool
  | _, .selectVisibleServer _ _ => false
  | _, .insertServer _ => false
  | _, .updateTransition _ _ s' cid new =>
      new == none && s' ≠ .creating && ((s' ≠ .starting && s' ≠ .running) || cid.isSome)
  | _, .updateContainerId _ _ => false
  | _, .updateCreateError _ _ => false
  | _, .updateReconciled _ _ _ => false
  | _, _ => true

/-- The writes of a reconciliation. -/
def Act.reconciles : ∀ {β : Type}, Act β → Bool
  | _, .updateReconciled _ s' cid => s' == .stopped || (s' == .running && cid.isSome)
  | _, _ => false

namespace Making

def allow (op : Op) : Making → ∀ {β : Type}, Act β → Prop
  | m, _, .insertServer n => m = .nothing ∧ n.status = .creating
  | m, _, .updateContainerId id _ => m = .made id
  | m, _, .updateCreateError id _ => m = .made id
  | _, _, .updateReconciled row s' cid =>
      op = .reconcile ∧ (Act.updateReconciled row s' cid).reconciles = true
  | _, _, .selectVisibleServer _ _ => True
  | _, _, a => a.provides = true

def next : Making → ∀ {β : Type}, Act β → β → Making → Prop
  | m, _, .insertServer _, b, m' => m' = match b with
      | .ok row => .made row.id
      | .error _ => m
  | m, _, .updateContainerId _ _, b, m' => m' = match b with
      | .ok (some _) => .nothing
      | _ => m
  | m, _, .selectVisibleServer _ _, b, m' => m' = m ∧ ∀ s ∈ b, RowProvisioned s
  | m, _, _, _, m' => m' = m

end Making

/-- The monitor. -/
def making (op : Op) : Monitor Act Making where
  allow := fun m a => m.allow op a
  next := fun m a b m' => m.next a b m'

/-- No call ends in the branch. -/
def Grounded (e : Exn) : Prop := e ≠ unprovisioned

/-- `p` performs such statements only, and does not throw in the branch. -/
def Provides {α : Type} (p : Call α) : Prop := p.Only (fun _ a => a.provides = true) Grounded

/-! ## §3. The code of the six operations. -/

theorem grounded_of_message {message : String}
    (h : message ≠ "Running server has no container id") :
    Grounded (.internalServerError message) := by
  unfold Grounded unprovisioned
  simp [h]

theorem handleDockerError_grounded (cause : DockerError) {context : String}
    (h : context = "container" ∨ context = "host") :
    Grounded (handleDockerError cause context) := by
  unfold Grounded unprovisioned handleDockerError
  rcases h with rfl | rfl
  · split
    · nofun
    · split <;> decide
  · split
    · nofun
    · split <;> decide

theorem provides_of_inert {β : Type} (a : Act β) (h : a.inert = true) : a.provides = true := by
  cases a <;> first | rfl | cases h

theorem provides_check {α : Type} {r : Except Exn α} (h : ∀ e, r = .error e → Grounded e) :
    Provides (check r) := by
  cases r with
  | ok a => trivial
  | error e => exact h e rfl

theorem parseResourceConfig_grounded {settings : Settings} {e : Exn}
    (h : parseResourceConfig settings = .error e) : Grounded e := by
  unfold parseResourceConfig at h
  split at h
  · split at h <;> cases h
    nofun
  · cases h
    nofun

theorem parseStopWarnSeconds_grounded {settings : Settings} {e : Exn}
    (h : parseStopWarnSeconds settings = .error e) : Grounded e := by
  unfold parseStopWarnSeconds at h
  dsimp only at h
  split at h
  · cases h
    nofun
  · split at h <;> cases h
    nofun

theorem checkDisk_grounded {diskInfo : DiskInfo} {mb : Nat} {message : String} {e : Exn}
    (h : checkDisk diskInfo mb message = .error e) : Grounded e := by
  unfold checkDisk at h
  split at h
  · split at h <;> cases h
    nofun
  · cases h
    nofun

theorem checkMemoryAdmission_grounded {settings : Settings} {hostInfo : HostInfo} {ratio : ℚ}
    {mb sum : Nat} {message : String} {e : Exn}
    (h : checkMemoryAdmission settings hostInfo ratio mb sum message = .error e) :
    Grounded e := by
  unfold checkMemoryAdmission at h
  split at h
  · dsimp only at h
    split at h <;> cases h
    nofun
  · cases h
    nofun

theorem hostReadings_provides (settings : Settings) : Provides (hostReadings settings) := by
  unfold hostReadings getHostInfo getHostDiskInfo
  cases settings.dockerConfig with
  | error message => exact (nofun : Grounded (.badRequest message))
  | ok _ =>
      refine only_bind ⟨rfl, fun b => ?_⟩ fun _ => only_bind ⟨rfl, fun b => ?_⟩ fun _ => trivial
      · cases b with
        | ok info => trivial
        | error e => exact handleDockerError_grounded e (Or.inr rfl)
      · cases b <;> trivial

theorem statement_provides {α : Type} {a : Act (Except String α)} (ha : a.provides = true) :
    Provides (statement a) := by
  refine ⟨ha, fun b => ?_⟩
  cases b with
  | ok r => trivial
  | error c => exact (nofun : Grounded (.uniqueViolation c))

theorem transition_provides (id : ServerId) (s s' : ServerStatus) (cid : Option ContainerId)
    (h : (Act.updateTransition id s s' cid none).provides = true) :
    Provides (transition id s s' cid none) :=
  only_tryCatch (statement_provides h) fun _ he => ⟨rfl, fun _ => he⟩

theorem rethrow_provides {α : Type} (id : ServerId) (s s' : ServerStatus)
    (cid : Option ContainerId) (h : (Act.updateTransition id s s' cid none).provides = true)
    {e : Exn} (he : Grounded e) :
    Provides (do let _ ← transition id s s' cid none; throw e : Call α) :=
  only_bind (transition_provides id s s' cid h) fun _ => he

theorem settleReply_provides (tolerated : Nat) (reply : Except DockerError Unit) :
    Provides (settleReply tolerated reply) := by
  unfold settleReply
  cases reply with
  | ok _ => trivial
  | error e =>
      dsimp only
      split
      · trivial
      · exact handleDockerError_grounded e (Or.inl rfl)

theorem startPhase_provides (id : ServerId) (cid : ContainerId) :
    Provides (startPhase id cid) := by
  unfold startPhase
  rw [startContainer_eq]
  refine only_bind (only_tryCatch ⟨rfl, settleReply_provides 304⟩ fun e he => ?_) fun _ => ?_
  · split <;> exact rethrow_provides _ _ _ _ rfl he
  · refine only_bind (transition_provides _ _ _ _ rfl) fun r => ?_
    cases r with
    | none => exact rethrow_provides _ _ _ _ rfl nofun
    | some r => trivial

theorem gracefulStopContainer_provides (cid : ContainerId) (warn : Nat) :
    Provides (gracefulStopContainer cid warn) := by
  unfold gracefulStopContainer
  refine only_bind (only_tryCatch (S := Calm) ?_ fun _ _ => trivial) fun failed => ?_
  · exact only_mono (fun a ha => provides_of_inert a ha) (fun _ he => he) (rconPhase_inert _ _ _)
  · rw [stopContainer_eq _ _ (by split <;> decide)]
    exact ⟨rfl, settleReply_provides 304⟩

theorem stopPhase_provides (id : ServerId) (cid : ContainerId) (warn : Nat) :
    Provides (stopPhase id cid warn) := by
  unfold stopPhase
  refine only_tryCatch (gracefulStopContainer_provides cid warn) fun e he => ?_
  split
  · exact rethrow_provides _ _ _ _ rfl he
  · split <;> exact rethrow_provides _ _ _ _ rfl he

theorem admitAndClaim_provides (settings : Settings) (hostInfo : HostInfo)
    (config : ResourceConfig) (id : ServerId) (mb : Nat) (st : ServerStatus) (cid : ContainerId)
    (message : String) :
    Provides (admitAndClaim settings hostInfo config id mb st cid message) := by
  refine only_tryCatch (S := Grounded) ⟨rfl, fun _ => ⟨rfl, fun sum => ?_⟩⟩
    fun _ he => ⟨rfl, fun _ => he⟩
  simp only [bind_eq, bind_ret]
  exact only_bind (provides_check fun _ => checkMemoryAdmission_grounded)
    fun _ => statement_provides rfl

/-- The admission and the start, common to start and restart. -/
theorem admission_provides {settings : Settings} {id : ServerId} {mb : Nat} {st : ServerStatus}
    {cid : ContainerId} {disk memory : String} {x : Exn} (hx : Grounded x) :
    Provides (do
      let config ← check (parseResourceConfig settings)
      let (hostInfo, diskInfo) ← hostReadings settings
      check (checkDisk diskInfo config.minFreeDiskMb disk)
      let started ← admitAndClaim settings hostInfo config id mb st cid memory
      if started.isNone then throw x
      startPhase id cid) := by
  refine only_bind (provides_check fun _ => parseResourceConfig_grounded) fun config => ?_
  refine only_bind (hostReadings_provides settings) fun hd => ?_
  refine only_bind (provides_check fun _ => checkDisk_grounded) fun _ => ?_
  refine only_bind (admitAndClaim_provides _ _ _ _ _ _ _ _) fun r => ?_
  cases r with
  | none => exact hx
  | some r => exact startPhase_provides id cid

section Code

variable {op : Op} {m : Making} {α : Type} {Q : α → Making → Prop}

/-- Where a call ends. -/
def Ends (e : Exn) (_ : Making) : Prop := Grounded e

theorem making_ignores : (making op).Ignores (fun _ a => a.provides = true) m := by
  intro β a ha
  cases a <;> first | exact ⟨ha, fun _ _ h => h⟩ | cases ha

/-- **Skip rule.** -/
theorem wp_provides {p : Call α} (h : Provides p) (hQ : ∀ a, Q a m) :
    wp (making op) Q Ends p m :=
  wp_of_only h making_ignores hQ fun _ he => he

theorem wp_provides_seq {β : Type} {p : Call β} {k : β → Call α} (h : Provides p)
    (hk : ∀ b, wp (making op) Q Ends (k b) m) : wp (making op) Q Ends (p.bind k) m :=
  wp_seq (wp_provides h hk)

/-- The same under a `try`. -/
theorem wp_provides_try {β : Type} {p : Call β} {handler : Exn → Call β} {k : β → Call α}
    (h : Provides p) (hk : ∀ b, wp (making op) Q Ends (k b) m)
    (hh : ∀ e, Grounded e → wp (making op) Q Ends ((handler e).bind k) m) :
    wp (making op) Q Ends ((p.tryCatch handler).bind k) m := by
  refine wp_seq ((wp_tryCatch _ _ _).mpr (wp_of_only h making_ignores hk fun e he => ?_))
  exact (wp_bind _ _ _).mp (hh e he)

theorem wp_load {id : ServerId} {principal : ServerPrincipal} {k : Server → Call α}
    (hk : ∀ s, RowProvisioned s → wp (making op) Q Ends (k s) m) :
    wp (making op) Q Ends ((loadVisibleServer id principal).bind k) m := by
  refine wp_seq (wp_loadVisibleServer trivial (fun s m' h => ?_) fun m' h => nofun)
  obtain ⟨rfl, hs⟩ := h
  exact hk s (hs s rfl)

/-- The head of stop and restart: the branch is not taken. -/
theorem wp_claimRunning {settings : Settings} {id : ServerId} {principal : ServerPrincipal}
    {Q : Server × ContainerId × Nat → Making → Prop} (hQ : ∀ r, Q r m) :
    wp (making op) Q Ends (claimRunning settings id principal) m := by
  refine wp_load fun s hs => ?_
  refine wp_guard (fun _ => nofun) fun hrunning => ?_
  cases hcid : s.containerId with
  | none =>
      -- a RUNNING row has its container
      have := hs (Or.inr (not_not.mp hrunning))
      rw [hcid] at this
      cases this
  | some cid =>
      refine wp_provides_seq (provides_check fun _ => parseStopWarnSeconds_grounded) fun warn => ?_
      refine wp_provides_seq (transition_provides _ _ _ _ rfl) fun r => ?_
      cases r with
      | none => exact (nofun : Grounded (.conflict _))
      | some r => exact hQ _

theorem wp_startServer {settings : Settings} {id : ServerId} {principal : ServerPrincipal} :
    wp (making op) (fun _ _ => True) Ends (startServer settings id principal) m := by
  refine wp_load fun s _ => ?_
  refine wp_guard (fun _ => nofun) fun _ => ?_
  cases s.containerId with
  | none => exact (nofun : Grounded (.conflict _))
  | some cid => exact wp_provides (admission_provides nofun) fun _ => trivial

theorem wp_stopServer {settings : Settings} {id : ServerId} {principal : ServerPrincipal} :
    wp (making op) (fun _ _ => True) Ends (stopServer settings id principal) m := by
  refine wp_seq (wp_claimRunning fun r => ?_)
  refine wp_provides_seq (stopPhase_provides _ _ _) fun _ => ?_
  refine wp_provides_seq (transition_provides _ _ _ _ rfl) fun r => ?_
  cases r with
  | none => exact grounded_of_message (by decide)
  | some r => trivial

theorem wp_restartServer {settings : Settings} {id : ServerId} {principal : ServerPrincipal} :
    wp (making op) (fun _ _ => True) Ends (restartServer settings id principal) m := by
  refine wp_seq (wp_claimRunning fun r => ?_)
  refine wp_provides_seq (stopPhase_provides _ _ _) fun _ => ?_
  refine wp_provides ?_ fun _ => trivial
  refine only_tryCatch (admission_provides nofun) fun e he => ?_
  exact rethrow_provides _ _ _ _ rfl he

theorem resolveDeleteRemoveFailure_provides (id : ServerId) (cid : ContainerId) :
    Provides (resolveDeleteRemoveFailure id cid) := by
  have hdelete : Provides (Prog.perform (.deleteInStatus id .stopping) : Call Unit) :=
    ⟨rfl, fun _ => trivial⟩
  unfold resolveDeleteRemoveFailure
  refine only_tryCatch (S := fun _ => True) ?_ fun e _ => ?_
  · refine only_bind (only_mono (fun a ha => provides_of_inert a ha) (fun _ _ => trivial)
      (inspectContainer_inert cid)) fun r => ?_
    obtain ⟨_, running⟩ := r
    cases running with
    | true =>
        exact only_mono (fun _ ha => ha) (fun _ _ => trivial)
          (only_bind (transition_provides _ _ _ _ rfl) fun _ => trivial)
    | false =>
        exact only_mono (fun _ ha => ha) (fun _ _ => trivial)
          (only_bind hdelete fun _ => trivial)
  · split
    · exact only_bind hdelete fun _ => trivial
    · exact only_bind (transition_provides _ _ _ _ rfl) fun _ => trivial

theorem wp_deleteServer {id : ServerId} {principal : ServerPrincipal} :
    wp (making op) (fun _ _ => True) Ends (deleteServer id principal) m := by
  have hdelete : Provides (Prog.perform (.deleteInStatus id .stopping) : Call Unit) :=
    ⟨rfl, fun _ => trivial⟩
  refine wp_load fun s _ => ?_
  refine wp_guard (fun _ => nofun) fun _ => ?_
  refine wp_provides_seq (transition_provides _ _ _ _ rfl) fun r => ?_
  cases r with
  | none => exact (nofun : Grounded (.conflict _))
  | some r =>
      dsimp only
      cases r.containerId with
      | none => exact wp_provides hdelete fun _ => trivial
      | some cid =>
          refine wp_provides_seq (only_tryCatch (S := Grounded) ?_ fun e he => ?_)
            fun _ => wp_provides hdelete fun _ => trivial
          · rw [removeContainer_eq]
            exact ⟨rfl, settleReply_provides 404⟩
          · refine only_bind (resolveDeleteRemoveFailure_provides id cid) fun removed => ?_
            cases removed with
            | false => exact he
            | true => trivial

theorem createContainer_provides (settings : Settings) (server : Server) :
    Provides (createContainer settings server) := by
  unfold createContainer
  cases settings.dockerConfig with
  | error message => exact (nofun : Grounded (.badRequest message))
  | ok config =>
      refine only_bind ?_ fun _ => ⟨rfl, fun b => ?_⟩
      · unfold validateServerForCreate
        refine only_guard (fun _ => nofun) fun _ => only_guard (fun _ => nofun) fun _ => ?_
        exact only_guard (fun _ => nofun) fun _ => trivial
      · cases b with
        | ok id => trivial
        | error e =>
            refine only_guard (fun _ => nofun) fun _ => ?_
            exact handleDockerError_grounded e (Or.inl rfl)

theorem findManagedContainer_provides (id : ServerId) : Provides (findManagedContainer id) := by
  refine ⟨rfl, fun b => ?_⟩
  rcases b with _ | _ | ⟨⟨_ | _, _⟩, _⟩ <;> trivial

/-- The compensation of a creation, before its row is provisioned. -/
theorem wp_compensateCreateFailure {id : ServerId} {k : Unit → Call α}
    (hk : wp (making op) Q Ends (k ()) (.made id)) :
    wp (making op) Q Ends ((compensateCreateFailure id).bind k) (.made id) := by
  unfold compensateCreateFailure
  rw [bind_eq, Prog.bind_assoc]
  refine wp_provides_seq (findManagedContainer_provides id) fun r => ?_
  cases r with
  | unavailable => exact hk
  | found cid running =>
      refine ⟨rfl, fun b m' hb => ?_⟩
      obtain rfl : m' = .made id := hb
      cases b with
      | ok _ => exact hk
      | error x => exact (nofun : Grounded (.uniqueViolation x))
  | absent =>
      refine ⟨rfl, fun b m' hb => ?_⟩
      obtain rfl : m' = .made id := hb
      exact hk

/-- The insertion of a creation. -/
theorem wp_insert {settings : Settings} {hostInfo : HostInfo} {config : ResourceConfig}
    {dto : CreateServerDto} {principal : ServerPrincipal} {message : String}
    {k : Server → Call α} (hk : ∀ row, wp (making op) Q Ends (k row) (.made row.id)) :
    wp (making op) Q Ends ((transaction do
      Prog.perform .lifecycleLock
      let currentAllocationMb ← Prog.perform (.sumMemoryLimitMb none true)
      let requestedMb := dto.memoryLimitMb.getD 2048
      check (checkMemoryAdmission settings hostInfo config.maxMemoryRatio requestedMb
        currentAllocationMb message)
      statement (.insertServer (newServer dto principal requestedMb))).bind k) .nothing := by
  refine wp_seq ((wp_tryCatch _ _ _).mpr ?_)
  have hrollback : ∀ (e : Exn) (m : Making), Grounded e →
      wp (making op) (fun a m => wp (making op) Q Ends (k a) m) Ends
        ((Prog.perform .rollback : Call Unit).bind fun _ => .fail e) m := by
    intro e m he
    exact ⟨rfl, fun _ _ _ => he⟩
  refine ⟨rfl, fun _ m₁ h₁ => ?_⟩
  obtain rfl : m₁ = .nothing := h₁
  refine ⟨rfl, fun sum m₂ h₂ => ?_⟩
  obtain rfl : m₂ = .nothing := h₂
  simp only [bind_eq, bind_ret]
  cases hadmit : checkMemoryAdmission settings hostInfo config.maxMemoryRatio
      (dto.memoryLimitMb.getD 2048) sum message with
  | error e => exact hrollback e _ (checkMemoryAdmission_grounded hadmit)
  | ok _ =>
      refine ⟨⟨rfl, rfl⟩, fun b m₃ h₃ => ?_⟩
      cases b with
      | error x => exact hrollback _ _ nofun
      | ok row =>
          obtain rfl : m₃ = .made row.id := h₃
          exact hk row

theorem wp_createServer {settings : Settings} {dto : CreateServerDto}
    {principal : ServerPrincipal} :
    wp (making op) (fun _ _ => True) Ends (createServer settings dto principal) .nothing := by
  refine wp_provides_seq (provides_check fun _ => parseResourceConfig_grounded) fun config => ?_
  refine wp_provides_seq (hostReadings_provides settings) fun hd => ?_
  refine wp_provides_seq (provides_check fun _ => checkDisk_grounded) fun _ => ?_
  refine wp_insert fun row => ?_
  refine wp_provides_try (createContainer_provides settings row) (fun cid => ?_) fun e he => ?_
  · -- the claim of the container ends the provisioning
    refine ⟨rfl, fun b m' hb => ?_⟩
    cases b with
    | error x => exact (nofun : Grounded (.uniqueViolation x))
    | ok persisted =>
        cases persisted with
        | none =>
            obtain rfl : m' = .made row.id := hb
            exact wp_compensateCreateFailure (grounded_of_message (by decide))
        | some r =>
            obtain rfl : m' = .nothing := hb
            refine wp_provides_try ?_ (fun _ => ?_) fun e he => ?_
            · rw [startContainer_eq]
              exact ⟨rfl, settleReply_provides 304⟩
            · refine wp_provides_seq (transition_provides _ _ _ _ rfl) fun r => ?_
              cases r with
              | none => exact grounded_of_message (by decide)
              | some r => trivial
            · rw [bind_eq, Prog.bind_assoc]
              exact wp_provides_seq (transition_provides _ _ _ _ rfl) fun _ => he
  · rw [bind_eq, Prog.bind_assoc]
    exact wp_compensateCreateFailure he

/-- A state a reconciliation may write on `row`. -/
def Writable (row : Server) : ReconciliationOutcome → Prop
  | .state st cid => (Act.updateReconciled row st cid).reconciles = true
  | _ => True

theorem wp_reconcileLookup {row : Server} {Q : ReconciliationOutcome → Making → Prop}
    (hQ : ∀ o, Writable row o → Q o m) : wp (making op) Q Ends (reconcileLookup row) m := by
  refine wp_provides_seq (findManagedContainer_provides row.id) fun r => ?_
  cases r with
  | unavailable => exact hQ _ trivial
  | absent => exact hQ _ rfl
  | found id running => cases running <;> exact hQ _ rfl

/-- The inspection of a row. -/
theorem provides_inspected (cid : ContainerId) : Provides (do
    let (id, running) ← inspectContainer cid
    pure (Except.ok (id, running)) : Call (Except Exn (ContainerId × Bool))) := by
  refine only_bind ⟨rfl, fun b => ?_⟩ fun _ => trivial
  cases b with
  | ok info => trivial
  | error e => exact handleDockerError_grounded e (Or.inl rfl)

/-- What follows the inspection of a row. -/
theorem wp_reconcileInspected {row : Server} {Q : ReconciliationOutcome → Making → Prop}
    (hQ : ∀ o, Writable row o → Q o m) (r : Except Exn (ContainerId × Bool)) :
    wp (making op) Q Ends (match r with
      | .ok (id, running) => return .state (if running then .running else .stopped) (some id)
      | .error error =>
        if error.isServiceUnavailable then return .unavailable
        else if error.isNotFound then reconcileLookup row
        else return .unchanged) m := by
  cases r with
  | ok r =>
      obtain ⟨id, running⟩ := r
      cases running <;> exact hQ _ rfl
  | error e =>
      dsimp only
      split
      · exact hQ _ trivial
      · split
        · exact wp_reconcileLookup hQ
        · exact hQ _ trivial

theorem wp_reconcileRow {row : Server} {Q : ReconciliationOutcome → Making → Prop}
    (hQ : ∀ o, Writable row o → Q o m) : wp (making op) Q Ends (reconcileRow row) m := by
  unfold reconcileRow
  cases row.containerId with
  | none => exact wp_reconcileLookup hQ
  | some cid =>
      exact wp_provides_try (provides_inspected cid) (wp_reconcileInspected hQ)
        fun e _ => wp_reconcileInspected hQ (.error e)

theorem wp_reconcileRows {Q : List (Server × ReconciliationOutcome) → Making → Prop}
    {rows : List Server} (hQ : ∀ os, (∀ ro ∈ os, Writable ro.1 ro.2) → Q os m) :
    wp (making op) Q Ends (reconcileRows rows) m := by
  induction rows generalizing Q with
  | nil => exact hQ [] (by simp)
  | cons row rest ih =>
      refine wp_seq (wp_reconcileRow fun o ho => wp_seq (ih fun os hos => hQ _ ?_))
      intro ro hro
      rcases List.mem_cons.mp hro with rfl | hro
      · exact ho
      · exact hos ro hro

theorem wp_onModuleInit : wp (making .reconcile) (fun _ _ => True) Ends onModuleInit m := by
  refine ⟨rfl, fun rows m' hm' => ?_⟩
  obtain rfl : m' = m := hm'
  show wp _ _ _ ((reconcileRows rows).bind _) _
  refine wp_seq (wp_reconcileRows fun os hos => ?_)
  split
  · trivial
  · -- every write is one of the writable states
    have honly : (reconcileWrites os).Only
        (fun _ a => a.reconciles = true) Grounded :=
      reconcileWrites_only (fun x => (nofun : Grounded (.uniqueViolation x))) os
        fun row st cid h => hos _ h
    refine wp_of_only honly (fun β a ha => ?_) (fun _ => trivial) fun _ he => he
    cases a <;> first | exact ⟨⟨rfl, ha⟩, fun _ _ h => h⟩ | cases ha

/-- **Every operation meets its monitor.** -/
theorem wp_body (settings : Settings) (op : Op) :
    wp (making op) (fun _ _ => True) Ends (body settings op) .nothing := by
  cases op with
  | create dto principal => exact wp_seq wp_createServer
  | start id principal => exact wp_seq wp_startServer
  | stop id principal => exact wp_seq wp_stopServer
  | restart id principal => exact wp_seq wp_restartServer
  | delete id principal => exact wp_seq wp_deleteServer
  | reconcile => exact wp_seq wp_onModuleInit

end Code

/-! ## §4. The invariant. -/

/-- What holds of the table, the drawn ids and the calls `gs`. -/
structure Provisioning (w : World) (o : Drawn) (gs : Pid → Making) : Prop where
  row : ∀ {id : ServerId} {s : Server}, w.servers.get id = some s → RowProvisioned s
  unique : w.UniqueContainers
  drawn : ∀ {id : ServerId} {s : Server}, w.servers.get id = some s → id ∈ o
  made : ∀ {p : Pid} {id : ServerId}, gs p = .made id → id ∈ o
  /-- What a call has made and not provisioned is CREATING without a container,
  or has left CREATING. -/
  bare : ∀ {p : Pid} {id : ServerId} {s : Server}, gs p = .made id → w.servers.get id = some s →
    s.status = .creating → s.containerId = none
  apart : ∀ {p q : Pid} {id : ServerId}, gs p = .made id → gs q = .made id → p = q

namespace Provisioning

variable {w w' : World} {o : Drawn} {gs : Pid → Making} {p : Pid} {m' : Making}

theorem made_of_update (hm' : ∀ i, m' = .made i → gs p = .made i) {q : Pid} {id : ServerId}
    (hq : Function.update gs p m' q = .made id) : gs q = .made id := by
  by_cases hqp : q = p
  · subst hqp
    rw [Function.update_self] at hq
    exact hm' id hq
  · rwa [Function.update_of_ne hqp] at hq

/-- A step after which every row is as it was. -/
theorem shrink (hI : Provisioning w o gs)
    (hsub : ∀ {i : ServerId} {s : Server}, w'.servers.get i = some s → w.servers.get i = some s)
    (hm' : ∀ i, m' = .made i → gs p = .made i) :
    Provisioning w' o (Function.update gs p m') where
  row hs := hI.row (hsub hs)
  unique := fun i j s t c hs ht => hI.unique i j s t c (hsub hs) (hsub ht)
  drawn hs := hI.drawn (hsub hs)
  made hq := hI.made (made_of_update hm' hq)
  bare hq hs := hI.bare (made_of_update hm' hq) (hsub hs)
  apart hq hq' := hI.apart (made_of_update hm' hq) (made_of_update hm' hq')

/-- An UPDATE that gives no row the status STARTING or RUNNING without a
container, and no CREATING row of a call a container. -/
theorem update (hI : Provisioning w o gs) {id : ServerId} {hit : Server → Bool}
    {status : Server → ServerStatus} {cid : Server → Option ContainerId}
    {r : Except String (Option Server)} (hu : updateRow p id hit status cid w = (r, w'))
    (hrow : ∀ s, w.servers.get id = some s → hit s = true →
      status s = .starting ∨ status s = .running → (cid s).isSome = true)
    (hbare : ∀ s q, Function.update gs p m' q = .made id → w.servers.get id = some s →
      hit s = true → status s = .creating → cid s = none)
    (hm' : ∀ i, m' = .made i → gs p = .made i) :
    Provisioning w' o (Function.update gs p m') := by
  rcases updateRow_get hu with hs | ⟨s, hs, hh, -, hget⟩
  · exact hI.shrink (fun h => by rwa [hs] at h) hm'
  refine ⟨?_, updateRow_uniqueContainers hu hI.unique, ?_,
    fun hq => hI.made (made_of_update hm' hq), ?_,
    fun hq hq' => hI.apart (made_of_update hm' hq) (made_of_update hm' hq')⟩
  · intro i t ht
    rw [hget] at ht
    split at ht
    · cases ht
      exact hrow s hs hh
    · exact hI.row ht
  · intro i t ht
    rw [hget] at ht
    split at ht
    next hi =>
      rw [hi]
      exact hI.drawn hs
    next => exact hI.drawn ht
  · intro q i t hq ht
    rw [hget] at ht
    split at ht
    next hi =>
      cases ht
      subst hi
      exact hbare s q hq hs hh
    next => exact hI.bare (made_of_update hm' hq) ht

/-- The row of a creation. -/
theorem insert (hI : Provisioning w o gs) {servers : Servers} {row : Server}
    (hi : w.servers.insert row = some servers) (hfresh : row.id ∉ o)
    (hstatus : row.status = .creating) (hcid : row.containerId = none)
    (hw' : w'.servers = servers) :
    Provisioning w' (row.id :: o) (Function.update gs p (.made row.id)) := by
  have hget : ∀ i, w'.servers.get i = if row.id = i then some row else w.servers.get i := by
    intro i
    rw [hw', Table.get_insert hi]
  -- the calls that have made a row made another one
  have hmade : ∀ {q : Pid} {i : ServerId}, Function.update gs p (.made row.id) q = .made i →
      q = p ∧ i = row.id ∨ q ≠ p ∧ i ≠ row.id ∧ gs q = .made i := by
    intro q i hq
    by_cases hqp : q = p
    · subst hqp
      rw [Function.update_self] at hq
      cases hq
      exact Or.inl ⟨rfl, rfl⟩
    · rw [Function.update_of_ne hqp] at hq
      refine Or.inr ⟨hqp, fun hi => hfresh ?_, hq⟩
      rw [← hi]
      exact hI.made hq
  refine ⟨?_, ?_, ?_, ?_, ?_, ?_⟩
  · intro i s hs
    rw [hget] at hs
    split at hs
    · cases hs
      intro h
      rw [hstatus] at h
      rcases h with h | h <;> cases h
    · exact hI.row hs
  · intro i j x y c hx hy hxc hyc
    rw [hget] at hx hy
    split at hx
    · cases hx
      rw [hcid] at hxc
      cases hxc
    · split at hy
      · cases hy
        rw [hcid] at hyc
        cases hyc
      · exact hI.unique _ _ _ _ _ hx hy hxc hyc
  · intro i s hs
    rw [hget] at hs
    split at hs
    next hi => exact hi ▸ List.mem_cons_self
    next => exact List.mem_cons_of_mem _ (hI.drawn hs)
  · intro q i hq
    rcases hmade hq with ⟨-, rfl⟩ | ⟨-, -, hq⟩
    · exact List.mem_cons_self
    · exact List.mem_cons_of_mem _ (hI.made hq)
  · intro q i s hq hs
    rw [hget] at hs
    rcases hmade hq with ⟨-, rfl⟩ | ⟨-, hi, hq⟩
    · rw [if_pos rfl] at hs
      cases hs
      exact fun _ => hcid
    · rw [if_neg (Ne.symm hi)] at hs
      exact hI.bare hq hs
  · intro q q' i hq hq'
    rcases hmade hq with ⟨rfl, rfl⟩ | ⟨-, hi, hq⟩
    · rcases hmade hq' with ⟨rfl, -⟩ | ⟨-, hi, -⟩
      · rfl
      · exact absurd rfl hi
    · rcases hmade hq' with ⟨-, rfl⟩ | ⟨-, -, hq'⟩
      · exact absurd rfl hi
      · exact hI.apart hq hq'

/-- A step that writes no row. -/
theorem quiet (hI : Provisioning w o gs) (h : w'.servers = w.servers) :
    Provisioning w' o (Function.update gs p (gs p)) :=
  hI.shrink (fun hs => by rwa [h] at hs) fun _ hi => hi

/-- A CREATING row that a call has made is its own. -/
theorem not_made (hI : Provisioning w o gs) {id : ServerId} (hp : gs p = .made id) {q : Pid}
    (hq : Function.update gs p .nothing q = .made id) : False := by
  by_cases hqp : q = p
  · subst hqp
    rw [Function.update_self] at hq
    cases hq
  · rw [Function.update_of_ne hqp] at hq
    exact hqp (hI.apart hq hp)

/-- **Step lemma.** -/
theorem step (hI : Provisioning w o gs) {op : Op} {β : Type} {a : Act β} {e : Env} {b : β}
    (hallow : (making op).allow (gs p) a) (hguard : everyRun.guard o w p op a e = true)
    (hx : exec p a e w = some (b, w')) :
    ∃ m, (making op).next (gs p) a b m ∧
      Provisioning w' (everyRun.onStep o w p op a b w') (Function.update gs p m) := by
  have hself : ∀ i, gs p = .made i → gs p = .made i := fun _ hi => hi
  cases a
  case selectVisibleServer id principal =>
    refine ⟨gs p, ⟨rfl, ?_⟩, hI.quiet (exec_servers_frame hx rfl)⟩
    simp only [exec, Option.some.injEq, Prod.mk.injEq] at hx
    intro s hs
    rw [← hx.1] at hs
    exact hI.row (Option.filter_eq_some_iff.mp hs).1
  case insertServer n =>
    obtain ⟨-, hstatus⟩ := hallow
    rcases exec_insertServer_get hx with ⟨hs, ⟨x, rfl⟩, -⟩ | ⟨servers, rfl, -, hi, rfl⟩
    · exact ⟨gs p, rfl, hI.quiet hs⟩
    · refine ⟨.made e.uuid, rfl, ?_⟩
      have hfresh : e.uuid ∉ o := by simpa [everyRun] using hguard
      exact hI.insert hi hfresh hstatus rfl (World.release_servers _ _)
  case updateTransition id st st' cid new =>
    refine ⟨gs p, rfl, ?_⟩
    have hprov : (Act.updateTransition id st st' cid new).provides = true := hallow
    simp only [Act.provides, Bool.and_eq_true, Bool.or_eq_true, beq_iff_eq, decide_eq_true_eq]
      at hprov
    obtain ⟨⟨rfl, hne⟩, hcid⟩ := hprov
    simp only [exec, Option.some.injEq] at hx
    refine hI.update hx (fun s _ hh hst => ?_) (fun s q _ _ _ hst => absurd hst hne) hself
    -- the row keeps its container, and the transition has named it
    simp only [Bool.and_eq_true, decide_eq_true_eq] at hh
    rcases hcid with hcid | hcid
    · rcases hst with hst | hst
      · exact absurd hst hcid.1
      · exact absurd hst hcid.2
    · rw [← hh.2] at hcid
      exact hcid
  case updateContainerId id c =>
    have hp : gs p = .made id := hallow
    simp only [exec, Option.some.injEq] at hx
    rcases updateRow_cases p id (fun s => decide (s.status = .creating) &&
        decide (s.containerId = none)) (fun s => s.status) (fun _ => some c) w with
      ⟨-, hu⟩ | ⟨_, _, -, -, -, -, hu⟩ | ⟨s, -, -, -, hu⟩
    · rw [hu, Prod.mk.injEq] at hx
      obtain ⟨rfl, rfl⟩ := hx
      exact ⟨gs p, rfl, hI.quiet (World.release_servers _ _)⟩
    · rw [hu, Prod.mk.injEq] at hx
      obtain ⟨rfl, rfl⟩ := hx
      exact ⟨gs p, rfl, hI.quiet rfl⟩
    · have hb : ∃ r, b = .ok (some r) := by
        rw [hu, Prod.mk.injEq] at hx
        exact ⟨_, hx.1.symm⟩
      obtain ⟨r, rfl⟩ := hb
      refine ⟨.nothing, rfl, hI.update hx (fun _ _ _ _ => rfl) ?_ (by simp)⟩
      intro s q hq
      exact (hI.not_made hp hq).elim
  case updateCreateError id c =>
    refine ⟨gs p, rfl, ?_⟩
    simp only [exec, Option.some.injEq, Prod.mk.injEq] at hx
    exact hI.update (Prod.ext rfl hx.2) (fun _ _ _ _ => rfl) (fun _ _ _ _ _ h => by cases h) hself
  case updateReconciled row st c =>
    refine ⟨gs p, rfl, ?_⟩
    obtain ⟨-, hrec⟩ := hallow
    simp only [Act.reconciles, Bool.or_eq_true, Bool.and_eq_true, beq_iff_eq] at hrec
    simp only [exec, Option.some.injEq, Prod.mk.injEq] at hx
    refine hI.update (Prod.ext rfl hx.2) (fun _ _ _ hst => ?_) (fun _ _ _ _ _ hst => ?_) hself
    · rcases hrec with rfl | ⟨rfl, hc⟩
      · rcases hst with hst | hst <;> cases hst
      · exact hc
    · rcases hrec with rfl | ⟨rfl, -⟩ <;> cases hst
  case deleteInStatus id st =>
    refine ⟨gs p, rfl, hI.shrink (fun hs => ?_) hself⟩
    rw [exec_deleteInStatus_get hx] at hs
    exact (Option.filter_eq_some_iff.mp hs).1
  all_goals exact ⟨gs p, rfl, hI.quiet (exec_servers_frame hx rfl)⟩

/-- An UPDATE that leaves the container of the row alone. -/
theorem kept_of_update {id i : ServerId} {hit : Server → Bool} {status : Server → ServerStatus}
    {cid : Server → Option ContainerId} {r : Except String (Option Server)} {s : Server}
    {c : ContainerId} (hu : updateRow p i hit status cid w = (r, w'))
    (hs : w.servers.get id = some s) (hc : s.containerId = some c)
    (hkeep : id = i → hit s = true → cid s = some c) :
    ∃ s', w'.servers.get id = some s' ∧ s'.containerId = some c := by
  rcases updateRow_get hu with h | ⟨t, ht, hh, -, hget⟩
  · exact ⟨s, by rw [h]; exact hs, hc⟩
  · rw [hget]
    split
    next hi =>
      subst hi
      rw [hs] at ht
      cases ht
      exact ⟨_, rfl, hkeep rfl hh⟩
    next => exact ⟨s, hs, hc⟩

/-- **Only a reconciliation changes the container of a row that stays.** -/
theorem kept (hI : Provisioning w o gs) {op : Op} {β : Type} {a : Act β} {e : Env} {b : β}
    (hallow : (making op).allow (gs p) a) (hx : exec p a e w = some (b, w')) {id : ServerId}
    {s : Server} {c : ContainerId} (hs : w.servers.get id = some s)
    (hc : s.containerId = some c) :
    w'.servers.get id = none ∨ op = .reconcile ∨
      ∃ s', w'.servers.get id = some s' ∧ s'.containerId = some c := by
  cases a
  case insertServer n =>
    refine Or.inr (Or.inr ?_)
    rcases exec_insertServer_get hx with ⟨h, -⟩ | ⟨servers, -, hnone, hi, rfl⟩
    · exact ⟨s, by rw [h]; exact hs, hc⟩
    · refine ⟨s, ?_, hc⟩
      rw [World.release_servers]
      show servers.get id = some s
      rw [Table.get_insert hi, if_neg, hs]
      rintro rfl
      rw [show (n.row e.uuid w.clock).id = e.uuid from rfl, hnone] at hs
      cases hs
  case updateTransition i st st' cid new =>
    have hprov : (Act.updateTransition i st st' cid new).provides = true := hallow
    simp only [Act.provides, Bool.and_eq_true, beq_iff_eq] at hprov
    obtain ⟨⟨rfl, -⟩, -⟩ := hprov
    simp only [exec, Option.some.injEq] at hx
    exact Or.inr (Or.inr (kept_of_update hx hs hc fun _ _ => hc))
  case updateContainerId i cid =>
    simp only [exec, Option.some.injEq] at hx
    refine Or.inr (Or.inr (kept_of_update hx hs hc fun _ hh => ?_))
    simp [hc] at hh
  case updateCreateError i cid =>
    have hp : gs p = .made i := hallow
    simp only [exec, Option.some.injEq, Prod.mk.injEq] at hx
    refine Or.inr (Or.inr (kept_of_update (Prod.ext rfl hx.2) hs hc fun hi hh => ?_))
    -- the row it hits is CREATING, and has no container
    subst hi
    have := hI.bare hp hs (by simpa using hh)
    rw [hc] at this
    cases this
  case updateReconciled row st cid => exact Or.inr (Or.inl hallow.1)
  case deleteInStatus i st =>
    rw [exec_deleteInStatus_get hx, hs, Option.filter_some]
    split
    · exact Or.inr (Or.inr ⟨s, rfl, hc⟩)
    · exact Or.inl rfl
  all_goals
    refine Or.inr (Or.inr ⟨s, ?_, hc⟩)
    rw [exec_servers_frame hx rfl]
    exact hs

theorem reboot (hI : Provisioning w o gs) (alive : Pid → Bool) (h : w'.servers = w.servers) :
    Provisioning w' o fun p => if alive p then gs p else .nothing := by
  have hmade : ∀ {q : Pid} {i : ServerId},
      (if alive q then gs q else .nothing) = .made i → gs q = .made i := by
    intro q i hq
    split at hq
    · exact hq
    · cases hq
  refine ⟨?_, UniqueContainers.of_servers hI.unique h, ?_, fun hq => hI.made (hmade hq), ?_,
    fun hq hq' => hI.apart (hmade hq) (hmade hq')⟩
  · rw [h]
    exact hI.row
  · rw [h]
    exact hI.drawn
  · rw [h]
    exact fun hq => hI.bare (hmade hq)

end Provisioning

/-! ## §5. Every run. -/

/-- In every run there are states of the calls that keep the invariant. -/
theorem provisioning {settings : Settings} {w₀ : World} (h₀ : w₀.servers.rows = []) {c : Conf}
    {o : Drawn} (h : (system settings).Reach everyRun (Config.init w₀) [] c o) :
    ∃ gs, Provisioning c.world o gs ∧
      System.Tracks making .nothing (fun _ _ _ => True) (fun _ => Ends) c gs := by
  have hnone : ∀ i s, w₀.servers.get i ≠ some s := by
    intro i s hs
    have := (Table.get_eq_some.mp hs).1
    rw [h₀] at this
    cases this
  refine System.Reach.sound (fun _ => .nothing) Provisioning (fun _ => wp_body settings _) ?_
    (fun hI hallow hguard hx => hI.step hallow hguard hx) ?_ ?_ ?_ h
  · intro w o gs p op hI hp _
    show Provisioning w o (Function.update gs p .nothing)
    rw [← hp]
    exact hI.quiet rfl
  · intro w o gs e w' hI hx
    cases hx
    exact ⟨hI.row, hI.unique, hI.drawn, hI.made, hI.bare, hI.apart⟩
  · intro w o gs e w' alive hI hx _ _
    cases hx
    exact hI.reboot alive rfl
  · exact ⟨fun hs => absurd hs (hnone _ _), fun i j s t c hs => absurd hs (hnone _ _),
      fun hs => absurd hs (hnone _ _), nofun, nofun, nofun⟩

/-- **PROVISIONED**: in every configuration that the six operations reach from
an empty table, rows that start or run have a container, no two rows share
one, only a reconciliation changes it, and no call ends in the branch for a
RUNNING row without it. -/
theorem provisioned {settings : Settings} {w₀ : World} (h₀ : w₀.servers.rows = []) {c : Conf}
    {o : Drawn} (h : (system settings).Reach everyRun (Config.init w₀) [] c o) :
    Provisioned c o := by
  obtain ⟨gs, hI, hT⟩ := provisioning h₀ h
  refine ⟨hI.row, hI.unique, ?_, ?_⟩
  · intro p op β a k e b w' id s cid hp _ hx hs hc
    exact hI.kept (hT.allow hp) hx hs hc
  · intro p op hp
    exact hT.failed hp rfl

/-- A create that succeeds. -/
theorem sampleCreate_provisioned :
    ∃ c o, (system sampleSettings).Reach everyRun (Config.init emptyWorld) [] c o ∧
      (row c 1).any (fun s => s.status == .running && s.containerId == some 7) = true ∧
      Provisioned c o := by
  obtain ⟨c, o, h, ht⟩ := System.Reach.of_replay (S := system sampleSettings) (V := everyRun)
    emptyWorld [] (sampleCreate 0)
    (fun c _ => (row c 1).any fun s => s.status == .running && s.containerId == some 7)
    (by decide +kernel)
  exact ⟨c, o, h, ht, provisioned rfl h⟩

end MinePanel.Servers
