/-
  MinePanel.Servers.Admission
  ───────────────────────────
  **THE MEMORY BUDGET.**

  `createServer` checks the sum over ALL rows under the advisory lock and then
  inserts; `startServer` and `restartServer` check the sum over the other rows
  that are not STOPPED.  Against a host whose RAM reading does not change:

    * the sum over all rows never exceeds the budget, in any interleaving of all
      six operations with any Docker outcomes and any crashes of the process;
    * so no start or restart is refused for memory while its row exists.

  The invariant behind both: only the holder of the advisory lock inserts, so a
  sum taken under the lock stays an upper bound until its holder commits.
-/
import MinePanel.Servers.Steps

namespace MinePanel.Servers

open MinePanel.Db MinePanel.Docker MinePanel.Lib Prog

/-! ## §1. The history and the runs. -/

/-- Which server ids were ever used, and which calls found the row they name
when their admission transaction locked or summed. -/
structure Ledger where
  used : ServerId → Bool
  found : Pid → Bool

/-- The ledger of an empty table. -/
def Ledger.blank : Ledger := ⟨fun _ => false, fun _ => false⟩

/-- Whether the row the operation names exists. -/
def World.hasTarget (w : World) (op : Op) : Bool :=
  match op.target with
  | some id => (w.servers.get id).isSome
  | none => false

/-- The call has seen its row, if it is there. -/
def Ledger.look (o : Ledger) (w : World) (p : Pid) (op : Op) : Ledger :=
  if w.hasTarget op then { o with found := Function.update o.found p true } else o

/-- The ledger after a step of `p`. -/
def Ledger.next (o : Ledger) (w : World) (p : Pid) (op : Op) : ∀ {β : Type}, Act β → β → Ledger
  | _, .insertServer _, b =>
      match b with
      | .ok r => { o with used := Function.update o.used r.id true }
      | .error _ => o
  | _, .lifecycleLock, _ => o.look w p op
  | _, .sumMemoryLimitMb _ _, _ => o.look w p op
  | _, _, _ => o

/-- `docker.info()` reports `ram` megabytes or fails to report any, and a new
row gets a UUID that was never used. -/
def steadyHost (ram : Nat) (o : Ledger) : ∀ {β : Type}, Act β → Env → Bool
  | _, .dockerInfo, e =>
      match e.info with
      | .ok info => toMb info.memTotal == none || toMb info.memTotal == some ram
      | .error _ => true
  | _, .insertServer _, e => !o.used e.uuid
  | _, _, _ => true

/-- Every interleaving of all operations on such a host. -/
def fixedHost (ram : Nat) : Watch Act World Env Op Ledger where
  guard := fun o _ _ _ _ a e => steadyHost ram o a e
  onInvoke := fun o _ p _ => { o with found := Function.update o.found p false }
  onStep := fun o w p op _ a b _ => o.next w p op a b

/-- `Math.floor(totalRamMb * maxMemoryRatio)`, for the configured ratio. -/
def memoryBudget (settings : Settings) (ram : Nat) : Nat :=
  match parseResourceConfig settings with
  | .ok config => allocatableMb settings ram config.maxMemoryRatio
  | .error _ => 0

namespace Op

/-- The operations with an admission transaction on an existing row. -/
def admits : Op → Bool
  | .start _ _ => true
  | .restart _ _ => true
  | _ => false

end Op

/-- `p` inserts no row. -/
def NoInsert {α : Type} (p : Call α) : Prop :=
  p.Only (fun _ a => a.inserts = false) fun _ => True

/-! ## §2. The monitor. -/

/-- Where a call stands with its admission transaction.  `locked` and `counted`
hold the advisory lock; their target is the row a start or restart has loaded,
with its memory limit. -/
inductive Admitting where
  | idle
  /-- A create before its transaction. -/
  | fresh
  /-- A start or restart before it loads its row. -/
  | out
  | loaded (id : ServerId) (mb : Nat)
  | locked (target : Option (ServerId × Nat))
  | counted (target : Option (ServerId × Nat)) (sum : Nat)
  /-- The transaction of a start or restart was rolled back after its sum. -/
  | refused (mb sum : Nat)
  | done

namespace Admitting

/-- The row a start or restart works on, with its memory limit. -/
def target : Admitting → Option (ServerId × Nat)
  | .loaded id mb => some (id, mb)
  | .locked t => t
  | .counted t _ => t
  | _ => none

/-- The call is inside its admission transaction. -/
def holds : Admitting → Bool
  | .locked _ => true
  | .counted _ _ => true
  | _ => false

/-- `pg_advisory_xact_lock`. -/
def lock : Admitting → Admitting
  | .fresh => .locked none
  | .loaded id mb => .locked (some (id, mb))
  | m => m

/-- The sum is read. -/
def count (sum : Nat) : Admitting → Admitting
  | .locked t => .counted t sum
  | m => m

/-- The transaction ends with its write. -/
def commit : Admitting → Admitting
  | .locked _ => .done
  | .counted _ _ => .done
  | m => m

/-- The transaction is rolled back. -/
def abort : Admitting → Admitting
  | .counted (some (_, mb)) sum => .refused mb sum
  | .counted none _ => .done
  | .locked _ => .done
  | m => m

/-- What a call of `op` may do: insert only after a sum that leaves room. -/
def allow (budget : Nat) (op : Op) : Admitting → ∀ {β : Type}, Act β → Prop
  | m, _, .insertServer n => ∃ sum, m = .counted none sum ∧ sum + n.memoryLimitMb ≤ budget
  | m, _, .selectVisibleServer id _ => op.admits = true → m = .out ∧ op.target = some id
  | m, _, .lifecycleLock =>
      m = .fresh ∨ m = .done ∨ ∃ id mb, m = .loaded id mb ∧ op.target = some id
  | m, _, .sumMemoryLimitMb excluded includeStopped =>
      (m = .locked none ∧ excluded = none ∧ includeStopped = true) ∨ m = .done ∨
        ∃ id mb, m = .locked (some (id, mb)) ∧ op.target = some id ∧ excluded = some id
  | _, _, _ => True

/-- The phase after a step. -/
def next (budget ram : Nat) (op : Op) : Admitting → ∀ {β : Type}, Act β → β → Admitting → Prop
  | m, _, .insertServer _, b, m' =>
      match b with
      | .ok _ => m' = m.commit
      | .error _ => m' = m
  | m, _, .selectVisibleServer id _, b, m' =>
      match b with
      | some s => m' = if op.admits then .loaded id s.memoryLimitMb else m
      | none => m' = m
  | m, _, .lifecycleLock, _, m' => m' = m.lock
  | m, _, .sumMemoryLimitMb _ _, b, m' => m' = m.count b ∧ (m = .locked none → b ≤ budget)
  | m, _, .rollback, _, m' => m' = m.abort
  | m, _, .updateTransition _ _ _ _ new, b, m' =>
      match b with
      | .ok _ => m' = m.commit
      | .error _ => new ≠ none ∧ m' = m
  | m, _, .updateContainerId _ _, b, m' => m' = if b.isOk then m.commit else m
  | m, _, .updateCreateError _ _, b, m' => m' = if b.isOk then m.commit else m
  | m, _, .updateReconciled _ _ _, b, m' => m' = if b.isOk then m.commit else m
  | m, _, .dockerInfo, b, m' =>
      m' = m ∧ ∀ info n, b = .ok info → toMb info.memTotal = some n → n = ram
  | m, _, _, _, m' => m' = m

end Admitting

/-- The admission monitor of one operation. -/
def admission (budget ram : Nat) (op : Op) : Monitor Act Admitting where
  allow := fun m a => m.allow budget op a
  next := fun m a b m' => m.next budget ram op a b m'

/-- How a call may fail: outside its transaction, and a start or restart that
failed for memory was refused because its row and the sum exceed the budget. -/
def RefusedForCause (budget : Nat) (op : Op) (e : Exn) (m : Admitting) : Prop :=
  m.holds = false ∧ (op.admits = true → e.isMemoryShortage = true →
    ∃ mb sum, m = .refused mb sum ∧ budget < mb + sum)

theorem RefusedForCause.of_calm {budget : Nat} {op : Op} {e : Exn} {m : Admitting}
    (hm : m.holds = false) (h : Calm e) : RefusedForCause budget op e m := by
  refine ⟨hm, fun _ hs => ?_⟩
  rw [show e.isMemoryShortage = false from h] at hs
  cases hs

/-! ## §3. Every operation follows the monitor. -/

section Calls

variable {budget ram : Nat} {op : Op} {m : Admitting}

/-- Outside its transaction a call can do anything plain. -/
theorem admission_ignores (hm : m.holds = false) :
    (admission budget ram op).Ignores (fun _ a => a.plain = true) m := by
  have hcommit : m.commit = m := by cases m <;> first | rfl | cases hm
  have habort : m.abort = m := by cases m <;> first | rfl | cases hm
  intro β a ha
  cases a <;> simp only [Act.plain, Act.inert, Bool.false_eq_true] at ha
  case updateTransition id s s' cid new =>
    refine ⟨trivial, fun b m' h => ?_⟩
    cases b with
    | ok r => exact (show m' = m.commit from h).trans hcommit
    | error c => exact h.2
  case rollback => exact ⟨trivial, fun b m' h => (show m' = m.abort from h).trans habort⟩
  case dockerInfo => exact ⟨trivial, fun b m' h => h.1⟩
  all_goals exact ⟨trivial, fun b m' h => h⟩

/-- A call that admits nothing, or no longer, can do anything but insert. -/
theorem admission_ignores_done (hop : op.admits = false) :
    (admission budget ram op).Ignores (fun _ a => a.inserts = false) .done := by
  intro β a ha
  cases a
  case insertServer n => cases ha
  case selectVisibleServer id principal =>
    refine ⟨fun h => absurd (hop ▸ h) (by decide), fun b m' h => ?_⟩
    cases b with
    | none => exact h
    | some s =>
        change m' = (if op.admits then _ else _) at h
        rw [hop] at h
        exact h
  case lifecycleLock => exact ⟨Or.inr (Or.inl rfl), fun b m' h => h⟩
  case sumMemoryLimitMb => exact ⟨Or.inr (Or.inl rfl), fun b m' h => h.1⟩
  case updateTransition =>
    refine ⟨trivial, fun b m' h => ?_⟩
    cases b with
    | ok r => exact h
    | error c => exact h.2
  case updateContainerId => exact ⟨trivial, fun b m' h => by cases b <;> exact h⟩
  case updateCreateError => exact ⟨trivial, fun b m' h => by cases b <;> exact h⟩
  case updateReconciled => exact ⟨trivial, fun b m' h => by cases b <;> exact h⟩
  case dockerInfo => exact ⟨trivial, fun b m' h => h.1⟩
  all_goals exact ⟨trivial, fun b m' h => h⟩

theorem Basic.noInsert {α : Type} {p : Call α} (h : Basic p) : NoInsert p := by
  refine only_mono (fun a ha => ?_) (fun _ he => he) h
  cases a <;> first | rfl | cases ha

theorem Plain.noInsert {α : Type} {p : Call α} (h : Plain p) : NoInsert p := h.basic.noInsert

theorem Inert.noInsert {α : Type} {p : Call α} (h : Inert p) : NoInsert p := h.plain.noInsert

theorem statement_noInsert {α : Type} {a : Act (Except String α)} (ha : a.inserts = false) :
    NoInsert (statement a) := by
  refine ⟨ha, fun b => ?_⟩
  cases b <;> trivial

theorem compensateCreateFailure_noInsert (id : ServerId) :
    NoInsert (compensateCreateFailure id) := by
  refine only_bind (findManagedContainer_inert id).noInsert fun r => ?_
  cases r with
  | found cid running => exact statement_noInsert rfl
  | unavailable => trivial
  | absent => exact ⟨rfl, fun _ => trivial⟩

theorem createContainer_noInsert (settings : Settings) (server : Server) :
    NoInsert (createContainer settings server) := by
  unfold createContainer
  cases settings.dockerConfig with
  | error message => trivial
  | ok docker =>
      refine only_bind ?_ fun _ => ⟨rfl, fun reply => ?_⟩
      · unfold validateServerForCreate
        refine only_guard (fun _ => trivial) fun _ => ?_
        refine only_guard (fun _ => trivial) fun _ => ?_
        exact only_guard (fun _ => trivial) fun _ => trivial
      · cases reply with
        | ok cid => trivial
        | error error => exact only_guard (fun _ => trivial) fun _ => trivial

theorem deleteServer_noInsert (id : ServerId) (principal : ServerPrincipal) :
    NoInsert (deleteServer id principal) := by
  have hdelete : NoInsert (Prog.perform (.deleteInStatus id .stopping) : Call Unit) :=
    ⟨rfl, fun _ => trivial⟩
  unfold deleteServer
  refine only_bind (loadVisibleServer_basic id principal).noInsert fun row => ?_
  refine only_guard (fun _ => trivial) fun _ => ?_
  refine only_bind (transition_plain _ _ _ _).noInsert fun r => ?_
  cases r with
  | none => trivial
  | some r =>
      dsimp only
      cases r.containerId with
      | none => exact hdelete
      | some cid =>
          refine only_bind (only_tryCatch (S := fun _ => True) ?_ fun e _ => ?_) fun _ => hdelete
          · rw [removeContainer_eq]
            exact ⟨rfl, fun reply => (settleReply_plain 404 reply).noInsert⟩
          · refine only_bind ?_ fun removed => by cases removed <;> trivial
            unfold resolveDeleteRemoveFailure
            refine only_tryCatch (S := fun _ => True) ?_ fun e _ => ?_
            · refine only_bind (inspectContainer_inert cid).noInsert fun r => ?_
              obtain ⟨_, running⟩ := r
              cases running with
              | true => exact only_bind (transition_plain _ _ _ _).noInsert fun _ => trivial
              | false => exact only_bind hdelete fun _ => trivial
            · split
              · exact only_bind hdelete fun _ => trivial
              · exact only_bind (transition_plain _ _ _ _).noInsert fun _ => trivial

theorem reconcileWrites_noInsert (outcomes : List (Server × ReconciliationOutcome)) :
    NoInsert (reconcileWrites outcomes) :=
  reconcileWrites_only (fun _ => trivial) outcomes fun _ _ _ _ => rfl

theorem onModuleInit_noInsert : NoInsert onModuleInit := by
  refine ⟨rfl, fun rows => ?_⟩
  simp only [bind_ret, bind_eq]
  refine only_bind (reconcileRows_inert rows).noInsert fun outcomes => ?_
  split
  · trivial
  · exact reconcileWrites_noInsert outcomes

/-- The readings agree with the host. -/
theorem wp_hostReadings {settings : Settings} (hm : m.holds = false)
    {Q : HostInfo × DiskInfo → Admitting → Prop} {E : Exn → Admitting → Prop}
    (hQ : ∀ hostInfo diskInfo, (∀ n, hostInfo.totalRamMb = some n → n = ram) →
      Q (hostInfo, diskInfo) m)
    (hE : ∀ e, Calm e → E e m) :
    wp (admission budget ram op) Q E (hostReadings settings) m := by
  unfold hostReadings
  cases settings.dockerConfig with
  | error message => exact hE _ rfl
  | ok config =>
      refine wp_seq ?_
      unfold getHostInfo
      refine ⟨trivial, fun b m' h => ?_⟩
      obtain ⟨rfl, hram⟩ := h
      cases b with
      | error e => exact hE _ (handleDockerError_calm e "host")
      | ok info =>
          show wp _ _ _ ((getHostDiskInfo settings).bind _) _
          refine wp_seq (wp_of_only (getHostDiskInfo_inert settings).plain (admission_ignores hm)
            (fun diskInfo => ?_) hE)
          exact hQ _ diskInfo fun n hn => hram info n rfl hn

/-- A passed memory check leaves room, a failed one says how much is missing. -/
theorem checkMemoryAdmission_spec {settings : Settings} {config : ResourceConfig}
    {hostInfo : HostInfo} (requestedMb sum : Nat) (message : String)
    (hconfig : parseResourceConfig settings = .ok config)
    (hram : ∀ n, hostInfo.totalRamMb = some n → n = ram) :
    match checkMemoryAdmission settings hostInfo config.maxMemoryRatio requestedMb sum message with
    | .ok _ => requestedMb ≤ memoryBudget settings ram - sum
    | .error e => Calm e ∨ memoryBudget settings ram < requestedMb + sum := by
  unfold checkMemoryAdmission memoryBudget
  rw [hconfig]
  cases hr : hostInfo.totalRamMb with
  | none => exact Or.inl rfl
  | some n =>
      have hn : n = ram := hram n hr
      subst hn
      cases hostInfo.cpuCount with
      | none => exact Or.inl rfl
      | some _ =>
          dsimp only
          by_cases h : requestedMb > allocatableMb settings n config.maxMemoryRatio - sum
          · rw [if_pos h]
            exact Or.inr (by omega)
          · rw [if_neg h]
            show requestedMb ≤ _
            omega

/-- `createServer` inserts only after a sum that leaves room for the request. -/
theorem createServer_admits {settings : Settings} {dto : CreateServerDto}
    {principal : ServerPrincipal} :
    wp (admission (memoryBudget settings ram) ram (.create dto principal)) (fun _ m => m.holds = false)
      (fun _ m => m.holds = false) (createServer settings dto principal) .fresh := by
  unfold createServer
  refine wp_seq (wp_check (fun config hconfig => ?_) fun _ _ => rfl)
  refine wp_seq (wp_hostReadings rfl (fun hostInfo diskInfo hram => ?_) fun _ _ => rfl)
  refine wp_seq (wp_check (fun _ _ => ?_) fun _ _ => rfl)
  refine wp_seq (wp_transaction ?_)
  refine ⟨Or.inl rfl, fun _ m₁ h₁ => ?_⟩
  cases h₁
  refine ⟨Or.inl ⟨rfl, rfl, rfl⟩, fun sum m₂ h₂ => ?_⟩
  obtain ⟨rfl, hsum⟩ := h₂
  have hle : sum ≤ memoryBudget settings ram := hsum rfl
  simp only [bind_ret, bind_eq]
  have habort : ∀ m : Admitting, m = .done → m.holds = false := fun m hm => by rw [hm]; rfl
  refine wp_seq (wp_check (fun _ hok => ?_) fun e _ => ⟨trivial, fun _ m hm => habort m hm⟩)
  have hroom := checkMemoryAdmission_spec (dto.memoryLimitMb.getD 2048) sum
    "Insufficient memory to create server" hconfig hram
  rw [hok] at hroom
  have hreq : dto.memoryLimitMb.getD 2048 ≤ memoryBudget settings ram - sum := hroom
  have hfits : sum + dto.memoryLimitMb.getD 2048 ≤ memoryBudget settings ram := by omega
  refine wp_statement ⟨sum, rfl, hfits⟩ (fun c m₃ h₃ => ?_) fun created m₃ h₃ => ?_
  · cases h₃
    exact ⟨trivial, fun _ m hm => habort m hm⟩
  cases h₃
  -- from here on the call only provisions, claims and settles its own row
  refine wp_of_only (T := fun _ => True) ?_ (admission_ignores_done rfl) (fun _ => rfl)
    fun _ _ => rfl
  have hcompensate : ∀ {α : Type} (e : Exn),
      NoInsert (do compensateCreateFailure created.id; throw e : Call α) :=
    fun e => only_bind (compensateCreateFailure_noInsert created.id) fun _ => trivial
  refine only_bind (only_tryCatch (createContainer_noInsert settings created)
    fun e _ => hcompensate e) fun cid => ?_
  refine only_bind (statement_noInsert rfl) fun persisted => ?_
  cases persisted with
  | none =>
      exact only_bind (compensateCreateFailure_noInsert created.id) fun _ => trivial
  | some row =>
      refine only_bind (only_tryCatch (S := fun _ => True) ?_ fun e _ => ?_) fun _ => ?_
      · rw [startContainer_eq]
        exact ⟨rfl, fun reply => (settleReply_plain 304 reply).noInsert⟩
      · exact only_bind (transition_plain _ _ _ _).noInsert fun _ => trivial
      · refine only_bind (transition_plain _ _ _ _).noInsert fun r => ?_
        cases r <;> trivial

/-- The admission transaction of start and restart. -/
theorem admitAndClaim_admits {settings : Settings} {hostInfo : HostInfo} {config : ResourceConfig}
    {id : ServerId} {mb : Nat} {fromStatus : ServerStatus} {cid : ContainerId} {message : String}
    (hop : op.target = some id) (hconfig : parseResourceConfig settings = .ok config)
    (hram : ∀ n, hostInfo.totalRamMb = some n → n = ram) :
    wp (admission (memoryBudget settings ram) ram op) (fun _ m => m = .done)
      (RefusedForCause (memoryBudget settings ram) op)
      (admitAndClaim settings hostInfo config id mb fromStatus cid message) (.loaded id mb) := by
  unfold admitAndClaim
  refine wp_transaction ?_
  refine ⟨Or.inr (Or.inr ⟨id, mb, rfl, hop⟩), fun _ m₁ h₁ => ?_⟩
  cases h₁
  refine ⟨Or.inr (Or.inr ⟨id, mb, rfl, hop, rfl⟩), fun sum m₂ h₂ => ?_⟩
  obtain ⟨rfl, -⟩ := h₂
  simp only [bind_ret, bind_eq]
  have hspec := checkMemoryAdmission_spec mb sum message hconfig hram
  refine wp_seq (wp_check (fun _ _ => ?_) fun e he => ?_)
  · refine ⟨trivial, fun b m₃ h₃ => ?_⟩
    cases b with
    | ok r => exact h₃
    | error c => exact absurd rfl h₃.1
  · rw [he] at hspec
    refine ⟨trivial, fun _ m₃ h₃ => ?_⟩
    cases h₃
    rcases hspec with hcalm | hover
    · exact RefusedForCause.of_calm rfl hcalm
    · exact ⟨rfl, fun _ _ => ⟨mb, sum, rfl, hover⟩⟩

/-- The start phase after the admission throws no memory shortage. -/
theorem startPhase_admits {id : ServerId} {cid : ContainerId} (hm : m.holds = false)
    {E : Exn → Admitting → Prop} (hE : ∀ e, Calm e → E e m) :
    wp (admission budget ram op) (fun _ m => m.holds = false) E (startPhase id cid) m :=
  wp_of_only (startPhase_plain id cid) (admission_ignores hm) (fun _ => hm) hE

/-- `startServer`. -/
theorem startServer_admits {settings : Settings} {id : ServerId} {principal : ServerPrincipal} :
    wp (admission (memoryBudget settings ram) ram (.start id principal))
      (fun _ m => m.holds = false)
      (RefusedForCause (memoryBudget settings ram) (.start id principal))
      (startServer settings id principal) .out := by
  unfold startServer
  refine wp_seq (wp_loadVisibleServer (fun _ => ⟨rfl, rfl⟩) (fun row m' h => ?_) fun m' h => ?_)
  · cases h
    refine wp_guard (fun _ => RefusedForCause.of_calm rfl rfl) fun _ => ?_
    cases row.containerId with
    | none => exact RefusedForCause.of_calm rfl rfl
    | some cid =>
        refine wp_seq (wp_check (fun config hconfig => ?_) fun e he =>
          RefusedForCause.of_calm rfl (parseResourceConfig_calm he))
        refine wp_seq (wp_hostReadings rfl (fun hostInfo diskInfo hram => ?_) fun e he =>
          RefusedForCause.of_calm rfl he)
        refine wp_seq (wp_check (fun _ _ => ?_) fun e he =>
          RefusedForCause.of_calm rfl (checkDisk_calm he))
        refine wp_seq (wp_mono _ _ (fun r m hm => ?_) (fun e m he => he)
          (admitAndClaim_admits rfl hconfig hram))
        subst hm
        cases r with
        | none => exact RefusedForCause.of_calm rfl rfl
        | some r => exact startPhase_admits rfl fun e he => RefusedForCause.of_calm rfl he
  · cases h
    exact RefusedForCause.of_calm rfl rfl

/-- The head of a restart loads the row whose memory it asks for later. -/
theorem claimRunning_admits {settings : Settings} {id : ServerId} {principal : ServerPrincipal}
    (hop : op.admits = true) (htarget : op.target = some id) :
    wp (admission budget ram op) (fun r m => m = .loaded id r.1.memoryLimitMb)
      (RefusedForCause budget op) (claimRunning settings id principal) .out := by
  unfold claimRunning
  refine wp_seq (wp_loadVisibleServer (fun _ => ⟨rfl, htarget⟩) (fun row m' h => ?_)
    fun m' h => ?_)
  · change m' = (if op.admits then _ else _) at h
    rw [hop, if_pos rfl] at h
    subst h
    refine wp_guard (fun _ => RefusedForCause.of_calm rfl rfl) fun _ => ?_
    cases row.containerId with
    | none => exact RefusedForCause.of_calm rfl rfl
    | some cid =>
        refine wp_seq (wp_check (fun warn _ => ?_) fun e he =>
          RefusedForCause.of_calm rfl (parseStopWarnSeconds_calm he))
        refine wp_seq (wp_of_only (transition_plain _ _ _ _) (admission_ignores rfl) (fun r => ?_)
          fun e he => RefusedForCause.of_calm rfl he)
        cases r with
        | none => exact RefusedForCause.of_calm rfl rfl
        | some r => rfl
  · cases h
    exact RefusedForCause.of_calm rfl rfl

/-- `restartServer`: a refusal passes through the outer handler. -/
theorem restartServer_admits {settings : Settings} {id : ServerId} {principal : ServerPrincipal} :
    wp (admission (memoryBudget settings ram) ram (.restart id principal))
      (fun _ m => m.holds = false) (RefusedForCause (memoryBudget settings ram) (.restart id principal))
      (restartServer settings id principal) .out := by
  unfold restartServer
  refine wp_seq (wp_mono _ _ (fun r m hm => ?_) (fun _ _ h => h) (claimRunning_admits rfl rfl))
  obtain ⟨row, cid, warn⟩ := r
  change m = .loaded id row.memoryLimitMb at hm
  subst hm
  refine wp_seq (wp_of_only (stopPhase_plain id cid warn) (admission_ignores rfl) (fun _ => ?_)
    fun e he => RefusedForCause.of_calm rfl he)
  rw [tryCatch_eq, wp_tryCatch]
  -- what the outer handler does with a failure of the second block
  have hhandler : ∀ (e : Exn) (m : Admitting),
      RefusedForCause (memoryBudget settings ram) (.restart id principal) e m →
      wp (admission (memoryBudget settings ram) ram (.restart id principal))
        (fun _ m => m.holds = false)
        (RefusedForCause (memoryBudget settings ram) (.restart id principal))
        (do let _ ← transition id .stopping .stopped (some cid) none; throw e : Call PublicServer)
        m := by
    intro e m he
    exact wp_seq (wp_of_only (transition_plain _ _ _ _) (admission_ignores he.1) (fun _ => he)
      fun e' he' => RefusedForCause.of_calm he.1 he')
  unfold restartStart
  refine wp_seq (wp_check (fun config hconfig => ?_) fun e he =>
    hhandler e _ (RefusedForCause.of_calm rfl (parseResourceConfig_calm he)))
  refine wp_seq (wp_hostReadings rfl (fun hostInfo diskInfo hram => ?_) fun e he =>
    hhandler e _ (RefusedForCause.of_calm rfl he))
  refine wp_seq (wp_check (fun _ _ => ?_) fun e he =>
    hhandler e _ (RefusedForCause.of_calm rfl (checkDisk_calm he)))
  refine wp_seq (wp_mono _ _ (fun r m hm => ?_) (hhandler)
    (admitAndClaim_admits rfl hconfig hram))
  subst hm
  cases r with
  | none => exact hhandler _ _ (RefusedForCause.of_calm rfl rfl)
  | some r =>
      exact startPhase_admits rfl fun e he => hhandler e _ (RefusedForCause.of_calm rfl he)

/-- The phase an operation starts in. -/
def startPhaseOf : Op → Admitting
  | .create _ _ => .fresh
  | .start _ _ => .out
  | .restart _ _ => .out
  | _ => .done

/-- **Every operation follows the admission monitor.** -/
theorem body_admits (settings : Settings) (op : Op) :
    wp (admission (memoryBudget settings ram) ram op) (fun _ m => m.holds = false)
      (RefusedForCause (memoryBudget settings ram) op) (body settings op) (startPhaseOf op) := by
  have hother : ∀ {e : Exn} {m : Admitting}, op.admits = false → m.holds = false →
      RefusedForCause (memoryBudget settings ram) op e m := by
    intro e m hop hm
    refine ⟨hm, fun h => ?_⟩
    rw [hop] at h
    cases h
  cases op with
  | create dto principal =>
      exact wp_seq (wp_mono _ _ (fun _ _ h => h) (fun _ _ hm => hother rfl hm) createServer_admits)
  | start id principal => exact wp_seq startServer_admits
  | restart id principal => exact wp_seq restartServer_admits
  | stop id principal =>
      exact wp_seq (wp_of_only (stopServer_basic settings id principal).noInsert
        (admission_ignores_done rfl) (fun _ => rfl) fun _ _ => hother rfl rfl)
  | delete id principal =>
      exact wp_seq (wp_of_only (deleteServer_noInsert id principal)
        (admission_ignores_done rfl) (fun _ => rfl) fun _ _ => hother rfl rfl)
  | reconcile =>
      exact wp_seq (wp_of_only onModuleInit_noInsert
        (admission_ignores_done rfl) (fun _ => rfl) fun _ _ => hother rfl rfl)

end Calls

/-! ## §4. What a step does to sums and to the lock. -/

/-- The end of a transaction: a rollback, or a write that went through. -/
def Act.ends : ∀ {β : Type}, Act β → β → Bool
  | _, .rollback, _ => true
  | _, .insertServer _, b => b.isOk
  | _, .updateTransition _ _ _ _ _, b => b.isOk
  | _, .updateContainerId _ _, b => b.isOk
  | _, .updateCreateError _ _, b => b.isOk
  | _, .updateReconciled _ _ _, b => b.isOk
  | _, _, _ => false

theorem World.release_lock {w : World} {p q : Pid} (h : w.lock = some q) (hpq : p ≠ q) :
    (w.release p).lock = some q := by
  unfold World.release
  rw [if_neg (by rw [h, Option.some.injEq]; exact Ne.symm hpq)]
  exact h

theorem updateRow_lock {p q : Pid} {id : ServerId} {hit : Server → Bool}
    {status : Server → ServerStatus} {cid : Server → Option ContainerId} {w w' : World}
    {b : Except String (Option Server)} (h : updateRow p id hit status cid w = (b, w'))
    (hl : w.lock = some q) (hne : p ≠ q ∨ b.isOk = false) : w'.lock = some q := by
  rcases updateRow_cases p id hit status cid w with ⟨-, hu⟩ | ⟨_, _, -, -, -, -, hu⟩ |
    ⟨_, -, -, -, hu⟩ <;> rw [hu, Prod.mk.injEq] at h <;> obtain ⟨rfl, rfl⟩ := h
  · exact World.release_lock hl (hne.resolve_right nofun)
  · exact hl
  · exact World.release_lock (by simpa using hl) (hne.resolve_right nofun)

theorem isOk_map {α β : Type} (r : Except String α) (f : α → β) : (r.map f).isOk = r.isOk := by
  cases r <;> rfl

/-- **A lock stays with its holder** until the holder's transaction ends. -/
theorem exec_lock_kept {p q : Pid} {β : Type} {a : Act β} {e : Env} {w w' : World} {b : β}
    (h : exec p a e w = some (b, w')) (hl : w.lock = some q) (hne : p ≠ q ∨ a.ends b = false) :
    w'.lock = some q := by
  cases a
  case lifecycleLock =>
    simp only [exec, hl] at h
    split at h <;> cases h
    exact hl
  case selectNotStopped =>
    simp only [exec] at h
    split at h <;> cases h
    exact hl
  case dockerCreate server =>
    simp only [exec] at h
    split at h
    next => cases h; exact hl
    next => split at h <;> cases h; exact hl
  case rollback =>
    simp only [exec, Option.some.injEq, Prod.mk.injEq] at h
    rw [← h.2]
    exact World.release_lock hl (hne.resolve_right (by simp [Act.ends]))
  case insertServer n =>
    rcases exec_insertServer_get h with ⟨-, -, rfl⟩ | ⟨servers, rfl, -, -, rfl⟩
    · exact hl
    · exact World.release_lock hl (hne.resolve_right (by simp [Act.ends, Except.isOk, Except.toBool]))
  case updateTransition id s s' c new =>
    simp only [exec, Option.some.injEq] at h
    exact updateRow_lock h hl hne
  case updateContainerId id c =>
    simp only [exec, Option.some.injEq] at h
    exact updateRow_lock h hl hne
  case updateCreateError id c =>
    simp only [exec, Option.some.injEq, Prod.mk.injEq] at h
    refine updateRow_lock (Prod.ext rfl h.2) hl (hne.imp_right fun hb => ?_)
    rw [← h.1] at hb
    exact (isOk_map _ _).symm.trans hb
  case updateReconciled row st c =>
    simp only [exec, Option.some.injEq, Prod.mk.injEq] at h
    refine updateRow_lock (Prod.ext rfl h.2) hl (hne.imp_right fun hb => ?_)
    rw [← h.1] at hb
    exact (isOk_map _ _).symm.trans hb
  all_goals
    simp only [exec, Option.some.injEq, Prod.mk.injEq] at h
    rw [← h.2]
    try split <;> exact hl
    try exact hl

/-- The memory of the rows satisfying `c`. -/
def World.memoryIf (w : World) (c : Server → Bool) : Nat := w.servers.sumIf c Server.memoryLimitMb

/-- The memory of all rows. -/
def World.memory (w : World) : Nat := w.servers.sum Server.memoryLimitMb

/-- The memory of the other rows. -/
def World.memoryBut (w : World) (id : ServerId) : Nat := w.memoryIf fun s => s.id ≠ id

theorem World.memory_eq (w : World) : w.memory = w.memoryIf fun _ => true :=
  (Table.sumIf_true _ _).symm

theorem updateRow_memory {p : Pid} {id : ServerId} {hit : Server → Bool}
    {status : Server → ServerStatus} {cid : Server → Option ContainerId} {w w' : World}
    {b : Except String (Option Server)} (h : updateRow p id hit status cid w = (b, w'))
    (c : Server → Bool) (hc : ∀ s t : Server, s.id = t.id → c s = c t) :
    w'.memoryIf c = w.memoryIf c := by
  unfold World.memoryIf
  rcases updateRow_cases p id hit status cid w with ⟨-, hu⟩ | ⟨_, _, -, -, -, -, hu⟩ |
    ⟨_, -, -, -, hu⟩ <;> rw [hu, Prod.mk.injEq] at h <;> obtain ⟨-, rfl⟩ := h
  · rw [World.release_servers]
  · rfl
  · rw [World.release_servers]
    exact Table.sumIf_modify _ _ _ _ (fun s => by split <;> rfl)
      (fun s => hc _ _ (by split <;> rfl)) fun s => by split <;> rfl

/-- **Only an INSERT adds memory.** -/
theorem exec_memory_le {p : Pid} {β : Type} {a : Act β} {e : Env} {w w' : World} {b : β}
    (h : exec p a e w = some (b, w')) (ha : a.inserts = false) (c : Server → Bool)
    (hc : ∀ s t : Server, s.id = t.id → c s = c t) : w'.memoryIf c ≤ w.memoryIf c := by
  rcases exec_table h with hs | ⟨row, hins, -⟩ | ⟨id, st, hs⟩ | ⟨id, hit, status, cid, r, hu⟩
  · unfold World.memoryIf
    rw [hs]
  · rw [ha] at hins
    cases hins
  · unfold World.memoryIf
    rw [hs]
    exact Table.sumIf_remove_le _ _ _ _
  · exact (updateRow_memory hu c hc).le

/-- The rows of a step that inserts nothing are old rows, with the memory limit
they had. -/
theorem exec_memory_stable {p : Pid} {β : Type} {a : Act β} {e : Env} {w w' : World} {b : β}
    (h : exec p a e w = some (b, w')) (ha : a.inserts = false) {i : ServerId} {s' : Server}
    (hs' : w'.servers.get i = some s') :
    ∃ s, w.servers.get i = some s ∧ s.memoryLimitMb = s'.memoryLimitMb := by
  rcases exec_table h with hs | ⟨row, hins, -⟩ | ⟨id, st, hs⟩ | ⟨id, hit, status, cid, r, hu⟩
  · exact ⟨s', hs ▸ hs', rfl⟩
  · rw [ha] at hins
    cases hins
  · rw [hs, Table.get_remove, Option.filter_eq_some_iff] at hs'
    exact ⟨s', hs'.1, rfl⟩
  · rcases updateRow_get hu with hs | ⟨s, hs, -, -, hget⟩
    · exact ⟨s', hs ▸ hs', rfl⟩
    · rw [hget] at hs'
      split at hs'
      next hi =>
        rw [Option.some.injEq] at hs'
        exact ⟨s, hi ▸ hs, by rw [← hs']⟩
      next => exact ⟨s', hs', rfl⟩

/-! ## §5. The invariant. -/

/-- If the row is there, it has this memory limit. -/
def World.hasMemory (w : World) (id : ServerId) (mb : Nat) : Prop :=
  ∀ s, w.servers.get id = some s → s.memoryLimitMb = mb

/-- What the phase of call `p` says about the world and the ledger. -/
def Fits (budget : Nat) (w : World) (o : Ledger) (p : Pid) : Admitting → Prop
  | .idle => True
  | .fresh => True
  | .done => True
  | .out => o.found p = false
  | .loaded id mb => o.found p = false ∧ o.used id = true ∧ w.hasMemory id mb
  | .locked none => w.lock = some p
  | .locked (some (id, mb)) => w.lock = some p ∧ o.used id = true ∧ w.hasMemory id mb ∧
      (o.found p = true → mb + w.memoryBut id ≤ budget)
  | .counted none sum => w.lock = some p ∧ w.memory ≤ sum
  | .counted (some (_, mb)) sum => w.lock = some p ∧ (o.found p = true → mb + sum ≤ budget)
  | .refused mb sum => o.found p = true → mb + sum ≤ budget

/-- The invariant: the budget is kept, and every call's phase is right. -/
structure Budget (budget : Nat) (w : World) (o : Ledger) (gs : Pid → Admitting) : Prop where
  unique : w.UniqueContainers
  bound : w.memory ≤ budget
  used : ∀ {id s}, w.servers.get id = some s → o.used id = true
  fits : ∀ p, Fits budget w o p (gs p)

/-- A step of another call that inserts nothing. -/
theorem Fits.frame {budget : Nat} {w w' : World} {o o' : Ledger} {p : Pid} {m : Admitting}
    (h : Fits budget w o p m) (hlock : m.holds = true → w.lock = some p → w'.lock = some p)
    (hmemory : ∀ {i s'}, w'.servers.get i = some s' →
      ∃ s, w.servers.get i = some s ∧ s.memoryLimitMb = s'.memoryLimitMb)
    (hle : ∀ c : Server → Bool, (∀ s t : Server, s.id = t.id → c s = c t) →
      w'.memoryIf c ≤ w.memoryIf c)
    (hused : o'.used = o.used) (hfound : o'.found p = o.found p) : Fits budget w' o' p m := by
  have hmem : ∀ {id mb}, w.hasMemory id mb → w'.hasMemory id mb := by
    intro id mb hm s' hs'
    obtain ⟨s, hs, hmb⟩ := hmemory hs'
    rw [← hmb]
    exact hm s hs
  cases m with
  | idle => trivial
  | fresh => trivial
  | done => trivial
  | out => exact hfound.trans h
  | loaded id mb => exact ⟨hfound.trans h.1, by rw [hused]; exact h.2.1, hmem h.2.2⟩
  | locked t =>
      cases t with
      | none => exact hlock rfl h
      | some t =>
          obtain ⟨id, mb⟩ := t
          refine ⟨hlock rfl h.1, by rw [hused]; exact h.2.1, hmem h.2.2.1, fun hf => ?_⟩
          have hbut : w'.memoryBut id ≤ w.memoryBut id :=
            hle _ fun s t hst => by rw [hst]
          have hold := h.2.2.2 (hfound ▸ hf)
          omega
  | counted t sum =>
      cases t with
      | none =>
          refine ⟨hlock rfl h.1, ?_⟩
          rw [World.memory_eq]
          exact (hle _ fun _ _ _ => rfl).trans (w.memory_eq ▸ h.2)
      | some t => exact ⟨hlock rfl h.1, fun hf => h.2 (hfound ▸ hf)⟩
  | refused mb sum => exact fun hf => h (hfound ▸ hf)

/-- **A step that inserts nothing**: only the phase of the acting call is to be
shown. -/
theorem Budget.act {budget : Nat} {w w' : World} {o o' : Ledger} {gs : Pid → Admitting} {p : Pid}
    {β : Type} {a : Act β} {e : Env} {b : β} {m : Admitting} (h : Budget budget w o gs)
    (hx : exec p a e w = some (b, w')) (ha : a.inserts = false) (hused : o'.used = o.used)
    (hfound : ∀ q, q ≠ p → o'.found q = o.found q) (hm : Fits budget w' o' p m) :
    Budget budget w' o' (Function.update gs p m) := by
  refine ⟨exec_uniqueContainers hx h.unique, ?_, ?_, ?_⟩
  · rw [World.memory_eq]
    exact (exec_memory_le hx ha _ fun _ _ _ => rfl).trans (w.memory_eq ▸ h.bound)
  · intro id s' hs'
    obtain ⟨s, hs, -⟩ := exec_memory_stable hx ha hs'
    rw [hused]
    exact h.used hs
  · intro q
    by_cases hq : q = p
    · subst hq
      rw [Function.update_self]
      exact hm
    · rw [Function.update_of_ne hq]
      exact (h.fits q).frame (fun _ hl => exec_lock_kept hx hl (Or.inl (Ne.symm hq)))
        (exec_memory_stable hx ha) (exec_memory_le hx ha) hused (hfound q hq)

/-- A step after which the acting call stands where it stood. -/
theorem Budget.same {budget : Nat} {w w' : World} {o : Ledger} {gs : Pid → Admitting} {p : Pid}
    {β : Type} {a : Act β} {e : Env} {b : β} (h : Budget budget w o gs)
    (hx : exec p a e w = some (b, w')) (ha : a.inserts = false)
    (hkeep : (gs p).holds = true → a.ends b = false) :
    Budget budget w' o (Function.update gs p (gs p)) :=
  h.act hx ha rfl (fun _ _ => rfl) ((h.fits p).frame
    (fun hm hl => exec_lock_kept hx hl (Or.inr (hkeep hm))) (exec_memory_stable hx ha)
    (exec_memory_le hx ha) rfl rfl)

/-- A write that goes through ends the transaction, if there is one. -/
theorem Budget.commit {budget : Nat} {w w' : World} {o : Ledger} {gs : Pid → Admitting} {p : Pid}
    {β : Type} {a : Act β} {e : Env} {b : β} (h : Budget budget w o gs)
    (hx : exec p a e w = some (b, w')) (ha : a.inserts = false) :
    Budget budget w' o (Function.update gs p (gs p).commit) := by
  by_cases hm : (gs p).holds = true
  · refine h.act hx ha rfl (fun _ _ => rfl) ?_
    cases hp : gs p <;> rw [hp] at hm <;> trivial
  · have hsame : (gs p).commit = gs p := by
      cases hp : gs p <;> rw [hp] at hm <;> first | rfl | exact absurd rfl hm
    rw [hsame]
    exact h.same hx ha fun hm' => absurd hm' hm

/-- The row a call names, when it is there, and all the others share the
budget. -/
theorem Budget.room {budget : Nat} {w : World} {o : Ledger} {gs : Pid → Admitting}
    (h : Budget budget w o gs) {id : ServerId} {mb : Nat} {op : Op} (hop : op.target = some id)
    (hmb : w.hasMemory id mb) (hrow : w.hasTarget op = true) : mb + w.memoryBut id ≤ budget := by
  unfold World.hasTarget at hrow
  rw [hop] at hrow
  obtain ⟨s, hs⟩ := Option.isSome_iff_exists.mp hrow
  have hmem := (Table.get_eq_some.mp hs)
  have hle : s.memoryLimitMb + w.memoryBut id ≤ w.memory :=
    Table.add_sumIf_le Server.memoryLimitMb _ hmem.1 (by simp [hmem.2])
  rw [← hmb s hs]
  exact hle.trans h.bound

theorem Ledger.look_used (o : Ledger) (w : World) (p : Pid) (op : Op) :
    (o.look w p op).used = o.used := by
  unfold Ledger.look; split <;> rfl

theorem Ledger.look_other (o : Ledger) (w : World) {p q : Pid} (op : Op) (hq : q ≠ p) :
    (o.look w p op).found q = o.found q := by
  unfold Ledger.look
  split
  · exact Function.update_of_ne hq _ _
  · rfl

/-- A call has found its row now or before. -/
theorem Ledger.look_self {o : Ledger} {w : World} {p : Pid} {op : Op}
    (h : (o.look w p op).found p = true) : w.hasTarget op = true ∨ o.found p = true := by
  unfold Ledger.look at h
  split at h
  next ht => exact Or.inl ht
  next => exact Or.inr h

/-- The lock is taken. -/
theorem Budget.lock {budget : Nat} {w w' : World} {o : Ledger} {gs : Pid → Admitting} {p : Pid}
    {op : Op} {e : Env} {b : Unit} (h : Budget budget w o gs)
    (ha : (gs p).allow budget op .lifecycleLock)
    (hx : exec p .lifecycleLock e w = some (b, w')) :
    Budget budget w' (o.look w p op) (Function.update gs p (gs p).lock) := by
  have hw : w'.servers = w.servers := exec_servers_frame hx rfl
  have hlock : w'.lock = some p := by
    simp only [exec] at hx
    split at hx
    next => cases hx; rfl
    next hl =>
      split at hx <;> cases hx
      next hq => rw [hl, hq]
  refine h.act hx rfl (Ledger.look_used o w p op) (fun q hq => Ledger.look_other o w op hq) ?_
  rcases ha with hp | hp | ⟨id, mb, hp, hop⟩
  · rw [hp]
    exact hlock
  · rw [hp]
    trivial
  · have hfits := h.fits p
    rw [hp] at hfits ⊢
    refine ⟨hlock, by rw [Ledger.look_used]; exact hfits.2.1, ?_, fun hf => ?_⟩
    · unfold World.hasMemory
      rw [hw]
      exact hfits.2.2
    · have hbut : w'.memoryBut id = w.memoryBut id := by
        unfold World.memoryBut World.memoryIf
        rw [hw]
      rw [hbut]
      rcases Ledger.look_self hf with hrow | hold
      · exact h.room hop hfits.2.2 hrow
      · rw [hfits.1] at hold
        cases hold

/-- The sum is read under the lock. -/
theorem Budget.count {budget ram : Nat} {w w' : World} {o : Ledger} {gs : Pid → Admitting}
    {p : Pid} {op : Op} {excluded : Option ServerId} {includeStopped : Bool} {e : Env} {b : Nat}
    (h : Budget budget w o gs)
    (ha : (gs p).allow budget op (.sumMemoryLimitMb excluded includeStopped))
    (hx : exec p (.sumMemoryLimitMb excluded includeStopped) e w = some (b, w')) :
    (gs p).next budget ram op (.sumMemoryLimitMb excluded includeStopped) b ((gs p).count b) ∧
    Budget budget w' (o.look w p op) (Function.update gs p ((gs p).count b)) := by
  have hw : w' = w := by
    simp only [exec, Option.some.injEq, Prod.mk.injEq] at hx
    exact hx.2.symm
  have hb : b = w.memoryIf fun s =>
      (includeStopped || decide (s.status ≠ .stopped)) && decide (some s.id ≠ excluded) := by
    simp only [exec, Option.some.injEq, Prod.mk.injEq] at hx
    exact hx.1.symm
  have hall : gs p = .locked none → b = w.memory := by
    intro hp
    rcases ha with ⟨_, rfl, rfl⟩ | hd | ⟨id, mb, hl, _⟩
    · rw [hb, World.memory_eq]
      congr 1
    · rw [hp] at hd; cases hd
    · rw [hp] at hl; cases hl
  refine ⟨⟨rfl, fun hp => (hall hp).le.trans h.bound⟩, ?_⟩
  refine h.act hx rfl (Ledger.look_used o w p op) (fun q hq => Ledger.look_other o w op hq) ?_
  rw [hw]
  rcases ha with ⟨hp, -, -⟩ | hp | ⟨id, mb, hp, hop, rfl⟩
  · have hfits := h.fits p
    rw [hp] at hfits ⊢
    exact ⟨hfits, (hall hp).ge⟩
  · rw [hp]
    trivial
  · have hfits := h.fits p
    rw [hp] at hfits ⊢
    refine ⟨hfits.1, fun hf => ?_⟩
    have hle : b ≤ w.memoryBut id := by
      rw [hb]
      refine Table.sumIf_le_of_imp _ _ fun s hs => ?_
      rw [Bool.and_eq_true] at hs
      simpa using hs.2
    have hroom : mb + w.memoryBut id ≤ budget := by
      rcases Ledger.look_self hf with hrow | hold
      · exact h.room hop hfits.2.2.1 hrow
      · exact hfits.2.2.2 hold
    omega

/-- The INSERT of a create: the only holder of the lock adds what it left room
for. -/
theorem Budget.insert {budget ram : Nat} {w w' : World} {o : Ledger} {gs : Pid → Admitting}
    {p : Pid} {op : Op} {n : NewServer} {e : Env} {b : Except String Server}
    (h : Budget budget w o gs) (ha : (gs p).allow budget op (.insertServer n))
    (hfresh : o.used e.uuid = false) (hx : exec p (.insertServer n) e w = some (b, w')) :
    ∃ m, (gs p).next budget ram op (.insertServer n) b m ∧
      Budget budget w' (o.next w p op (.insertServer n) b) (Function.update gs p m) := by
  obtain ⟨sum, hp, hroom⟩ := ha
  have hfits := h.fits p
  rw [hp] at hfits
  rcases exec_insertServer_get hx with ⟨-, ⟨c, rfl⟩, rfl⟩ | ⟨servers, rfl, hnone, hi, rfl⟩
  · refine ⟨gs p, rfl, ?_⟩
    rw [Function.update_eq_self]
    exact h
  · refine ⟨.done, by rw [hp]; rfl, ?_⟩
    have hget : ∀ i, ({ w with servers := servers }.release p).servers.get i =
        if e.uuid = i then some (n.row e.uuid w.clock) else w.servers.get i := by
      intro i
      rw [World.release_servers]
      exact Table.get_insert hi i
    refine ⟨exec_uniqueContainers hx h.unique, ?_, ?_, ?_⟩
    · show ({ w with servers := servers }.release p).servers.sum Server.memoryLimitMb ≤ budget
      rw [World.release_servers]
      have hsum : servers.sum Server.memoryLimitMb = w.memory + n.memoryLimitMb :=
        Table.sum_insert Server.memoryLimitMb hi
      have hle := hfits.2
      show servers.sum Server.memoryLimitMb ≤ budget
      omega
    · intro i s hs
      rw [hget] at hs
      show Function.update o.used e.uuid true i = true
      split at hs
      next hi' => rw [← hi', Function.update_self]
      next hi' =>
        rw [Function.update_of_ne (Ne.symm hi')]
        exact h.used hs
    · intro q
      by_cases hq : q = p
      · subst hq
        rw [Function.update_self]
        trivial
      · rw [Function.update_of_ne hq]
        have hother := h.fits q
        -- nobody else is inside a transaction, so only loaded rows matter
        have hnolock : w.lock ≠ some q := by
          rw [hfits.1]
          intro hl
          rw [Option.some.injEq] at hl
          exact hq hl.symm
        cases hgq : gs q with
        | idle => trivial
        | fresh => trivial
        | done => trivial
        | out => rw [hgq] at hother; exact hother
        | refused mb sum => rw [hgq] at hother; exact hother
        | locked t =>
            rw [hgq] at hother
            cases t with
            | none => exact absurd hother hnolock
            | some t => exact absurd hother.1 hnolock
        | counted t sum =>
            rw [hgq] at hother
            cases t with
            | none => exact absurd hother.1 hnolock
            | some t => exact absurd hother.1 hnolock
        | loaded id mb =>
            rw [hgq] at hother
            obtain ⟨hf, hu, hm⟩ := hother
            have hid : e.uuid ≠ id := by
              intro hid
              rw [hid, hu] at hfresh
              cases hfresh
            refine ⟨hf, ?_, ?_⟩
            · show Function.update o.used e.uuid true id = true
              rw [Function.update_of_ne (Ne.symm hid)]
              exact hu
            · intro s hs
              rw [hget, if_neg hid] at hs
              exact hm s hs

/-- **One step** on a steady host. -/
theorem Budget.step {budget ram : Nat} {w w' : World} {o : Ledger} {gs : Pid → Admitting} {p : Pid}
    {op : Op} {β : Type} {a : Act β} {e : Env} {b : β} (h : Budget budget w o gs)
    (ha : (gs p).allow budget op a) (hg : steadyHost ram o a e = true)
    (hx : exec p a e w = some (b, w')) :
    ∃ m, (gs p).next budget ram op a b m ∧
      Budget budget w' (o.next w p op a b) (Function.update gs p m) := by
  cases a
  case insertServer n => exact h.insert ha (by simpa [steadyHost] using hg) hx
  case lifecycleLock => exact ⟨_, rfl, h.lock ha hx⟩
  case sumMemoryLimitMb excluded includeStopped => exact ⟨_, h.count ha hx⟩
  case selectVisibleServer id principal =>
    have hsame := h.same hx rfl fun _ => rfl
    simp only [exec, Option.some.injEq, Prod.mk.injEq] at hx
    obtain ⟨hb, rfl⟩ := hx
    cases b with
    | none => exact ⟨gs p, rfl, hsame⟩
    | some s =>
        cases hop : op.admits with
        | false => exact ⟨gs p, by simp [Admitting.next, hop], hsame⟩
        | true =>
            refine ⟨.loaded id s.memoryLimitMb, by simp [Admitting.next, hop], ?_⟩
            have hs : w.servers.get id = some s := (Option.filter_eq_some_iff.mp hb).1
            have hfits := h.fits p
            rw [(ha hop).1] at hfits
            refine h.act (a := .sleep 0) (e := e) (b := ()) rfl rfl rfl (fun _ _ => rfl) ?_
            refine ⟨hfits, h.used hs, fun s' hs' => ?_⟩
            rw [hs, Option.some.injEq] at hs'
            rw [← hs']
  case rollback =>
    refine ⟨_, rfl, ?_⟩
    by_cases hm : (gs p).holds = true
    · refine h.act hx rfl rfl (fun _ _ => rfl) ?_
      have hfits := h.fits p
      cases hp : gs p <;> rw [hp] at hm hfits <;> try cases hm
      next t => trivial
      next t sum =>
        cases t with
        | none => trivial
        | some t => exact hfits.2
    · have hsame : (gs p).abort = gs p := by
        cases hp : gs p <;> rw [hp] at hm <;> first | rfl | exact absurd rfl hm
      rw [hsame]
      exact h.same hx rfl fun hm' => absurd hm' hm
  case updateTransition id s s' cid new =>
    cases b with
    | ok r => exact ⟨_, rfl, h.commit hx rfl⟩
    | error c =>
        refine ⟨gs p, ⟨fun hnew => ?_, rfl⟩, h.same hx rfl fun _ => rfl⟩
        subst hnew
        rcases exec_updateTransition hx h.unique with ⟨hb, -⟩ | ⟨r, -, -, -, hb, -⟩ <;> cases hb
  case updateContainerId id cid =>
    cases b with
    | ok r => exact ⟨_, rfl, h.commit hx rfl⟩
    | error c => exact ⟨gs p, rfl, h.same hx rfl fun _ => rfl⟩
  case updateCreateError id cid =>
    cases b with
    | ok r => exact ⟨_, rfl, h.commit hx rfl⟩
    | error c => exact ⟨gs p, rfl, h.same hx rfl fun _ => rfl⟩
  case updateReconciled row st cid =>
    cases b with
    | ok r => exact ⟨_, rfl, h.commit hx rfl⟩
    | error c => exact ⟨gs p, rfl, h.same hx rfl fun _ => rfl⟩
  case dockerInfo =>
    refine ⟨gs p, ⟨rfl, fun info n hb hn => ?_⟩, h.same hx rfl fun _ => rfl⟩
    simp only [exec, Option.some.injEq, Prod.mk.injEq] at hx
    simp only [steadyHost, hx.1, hb, hn] at hg
    simpa using hg
  all_goals exact ⟨gs p, rfl, h.same hx rfl fun _ => rfl⟩

/-- The death of the process: its transactions are gone. -/
theorem Budget.reboot {budget : Nat} {w : World} {o : Ledger} {gs : Pid → Admitting}
    (h : Budget budget w o gs) (alive : Pid → Bool)
    (hend : ∀ p, alive p = true → (gs p).holds = false) :
    Budget budget { w with lock := none } o fun p => if alive p then gs p else .idle := by
  refine ⟨h.unique, h.bound, h.used, fun p => ?_⟩
  by_cases ha : alive p = true
  · rw [if_pos ha]
    refine (h.fits p).frame (fun hm => ?_) (fun hs => ⟨_, hs, rfl⟩) (fun c _ => le_refl _) rfl rfl
    rw [hend p ha] at hm
    cases hm
  · rw [if_neg ha]
    trivial

/-! ## §6. Runs. -/

section Runs

variable {settings : Settings} {ram : Nat} {w₀ : World} {c : Conf} {o : Ledger}

/-- The invariant in every run from an empty table. -/
theorem budget_kept (hempty : w₀.servers.rows = [])
    (h : (system settings).Reach (fixedHost ram) (Config.init w₀) Ledger.blank c o) :
    ∃ gs, Budget (memoryBudget settings ram) c.world o gs ∧
      System.Tracks (admission (memoryBudget settings ram) ram) .idle
        (fun _ _ m => m.holds = false) (RefusedForCause (memoryBudget settings ram)) c gs := by
  have hnone : ∀ i, w₀.servers.get i = none := by
    intro i
    rw [Table.get_eq_none, hempty]
    intro r hr
    exact absurd hr List.not_mem_nil
  refine System.Reach.sound (M := admission (memoryBudget settings ram) ram) startPhaseOf
    (Budget (memoryBudget settings ram)) ?_ ?_ ?_ ?_ ?_ ?_ h
  · intro o w p op _
    exact body_admits settings op
  · intro w o gs p op hI hp _
    refine ⟨hI.unique, hI.bound, hI.used, fun q => ?_⟩
    by_cases hq : q = p
    · subst hq
      rw [Function.update_self]
      cases op <;> first | trivial | exact Function.update_self _ _ _
    · rw [Function.update_of_ne hq]
      exact (hI.fits q).frame (fun _ hl => hl) (fun hs => ⟨_, hs, rfl⟩) (fun c _ => le_refl _) rfl
        (Function.update_of_ne hq _ _)
  · intro w o gs p op β a e b w' hI ha hg hx
    exact hI.step ha hg hx
  · intro w o gs e w' hI hx
    cases hx
    refine ⟨hI.unique, hI.bound, hI.used, fun q => ?_⟩
    exact (hI.fits q).frame (fun _ hl => hl) (fun hs => ⟨_, hs, rfl⟩) (fun c _ => le_refl _) rfl rfl
  · intro w o gs e w' alive hI hx hend _
    cases hx
    refine hI.reboot alive fun p hp => ?_
    obtain ⟨op, ⟨r, hr⟩ | ⟨e, he⟩⟩ := hend p hp
    · exact hr
    · exact he.1
  · refine ⟨?_, ?_, ?_, fun p => trivial⟩
    · intro i j s t c hs
      rw [hnone] at hs
      cases hs
    · show (w₀.servers.rows.map _).sum ≤ _
      rw [hempty]
      exact Nat.zero_le _
    · intro i s hs
      rw [hnone] at hs
      cases hs

end Runs

/-- **No over-commit.**  In every run of all operations from an empty table, on
a host with a fixed RAM reading: the memory limits of all rows fit into
`floor(totalRamMb * ratio)`, and a start or restart that failed for memory did
not find its row in its admission transaction. -/
theorem no_memory_overcommit (settings : Settings) (ram : Nat) (w₀ : World)
    (hempty : w₀.servers.rows = []) (c : Conf) (o : Ledger)
    (h : (system settings).Reach (fixedHost ram) (Config.init w₀) Ledger.blank c o) :
    (c.world.servers.rows.map Server.memoryLimitMb).sum ≤ memoryBudget settings ram ∧
    ∀ (p : Pid) (op : Op) (e : Exn), op.admits = true → c.failed p op e →
      e.isMemoryShortage = true → o.found p = false := by
  obtain ⟨gs, hI, hT⟩ := budget_kept hempty h
  refine ⟨hI.bound, fun p op e hop hp he => ?_⟩
  obtain ⟨-, hcause⟩ := hT.failed hp
  obtain ⟨mb, sum, hm, hover⟩ := hcause hop he
  have hfits := hI.fits p
  rw [hm] at hfits
  cases hf : o.found p with
  | false => rfl
  | true =>
      have hle : mb + sum ≤ memoryBudget settings ram := hfits hf
      omega

/-- One create on a host with 16 GiB: the row takes 2048 of 14745 megabytes. -/
theorem sampleCreate_fits :
    ∃ c o, (system sampleSettings).Reach (fixedHost 16384) (Config.init emptyWorld) Ledger.blank
        c o ∧
      c.world.servers.rows.map Server.memoryLimitMb = [2048] ∧
      memoryBudget sampleSettings 16384 = 14745 ∧
      ((c.world.servers.rows.map Server.memoryLimitMb).sum ≤ memoryBudget sampleSettings 16384 ∧
        ∀ (p : Pid) (op : Op) (e : Exn), op.admits = true → c.failed p op e →
          e.isMemoryShortage = true → o.found p = false) := by
  obtain ⟨c, o, h, ht⟩ := System.Reach.of_replay (S := system sampleSettings)
    (V := fixedHost 16384) emptyWorld Ledger.blank (sampleCreate 0)
    (fun c _ => c.world.servers.rows.map Server.memoryLimitMb == [2048]) (by decide +kernel)
  exact ⟨c, o, h, by simpa using ht, by decide +kernel,
    no_memory_overcommit _ _ _ rfl c o h⟩

end MinePanel.Servers
