/-
  MinePanel.Servers.Stranding
  ───────────────────────────
  **NO SERVER IS LEFT BETWEEN TWO STATES.**

  CREATING, STARTING and STOPPING are promises: some call is at work and will
  write a state that lasts.  A row left in one of them without such a call is
  stranded: start, stop, restart and delete all refuse it, and only the
  reconciliation of the next process start can free it.

  A statement fails here only by a UNIQUE constraint (`exec`); a call whose
  settling UPDATE is lost with its connection is outside of this model.  The
  history `Moves` records who last wrote the status or the container of a row,
  and the rows that were given up in one of the ways that remain:

    * the process died (`onReboot`), or the row was found so at the start;
    * a failed creation could not ask the daemon what it had left behind;
    * the container of a creation is already recorded on another row, so that
      the UPDATE which would settle the creation breaks the UNIQUE constraint.

  `transient_owed`: in every interleaving of the six operations, with any
  answer of the daemon and with late catch-alls of restarts, every other row in
  a transient status was put there by a call that is still running.
-/
import MinePanel.Servers.Steps

namespace MinePanel.Servers

open MinePanel.Db MinePanel.Docker MinePanel.Lib Prog

/-! ## §1. The history and the property. -/

/-- The status and the container of a row. -/
def Server.state (s : Server) : ServerStatus × Option ContainerId := (s.status, s.containerId)

/-- The same, by id. -/
def World.stateOf (w : World) (id : ServerId) : Option (ServerStatus × Option ContainerId) :=
  (w.servers.get id).map Server.state

namespace Op

/-- `createServer`. -/
def isCreate : Op → Bool
  | .create _ _ => true
  | _ => false

end Op

/-- The creation that gives a row up: its lookup of the managed container
failed, or the container it should record belongs to another row. -/
def givesUp (op : Op) : ∀ {β : Type}, Act β → β → Option ServerId
  | _, .dockerList id, .error _ => if op.isCreate then some id else none
  | _, .updateContainerId id _, .error _ => some id
  | _, .updateCreateError id _, .error _ => some id
  | _, _, _ => none

/-- Who wrote a row last, and which rows were given up since. -/
structure Moves where
  mover : ServerId → Option Pid
  stranded : ServerId → Bool

namespace Moves

/-- The transient rows of a world nobody works on. -/
def abandoned (w : World) : Moves where
  mover := fun _ => none
  stranded := fun id => (w.servers.get id).any fun s => isTransient s.status

/-- A step of `p`.  It writes the rows whose status or container differs
afterwards; a row it gives up is one it wrote last. -/
def next (o : Moves) (w : World) (p : Pid) (op : Op) {β : Type} (a : Act β) (b : β)
    (w' : World) : Moves where
  mover := fun id => if w'.stateOf id = w.stateOf id then o.mover id else some p
  stranded := fun id => w'.stateOf id = w.stateOf id &&
    (o.stranded id || (givesUp op a b = some id && o.mover id = some p))

end Moves

/-- Every interleaving of the six operations, with any answer of the daemon. -/
def moving : Watch Act World Env Op Moves where
  onStep := fun o w p op _ a b w' => o.next w p op a b w'
  onReboot := fun _ w _ => .abandoned w

/-- The call that wrote the row last is still running. -/
def AtWork (c : Conf) (o : Moves) (id : ServerId) : Prop :=
  ∃ p t, o.mover id = some p ∧ c.calls p = some t ∧ t.rest.isDone = false

/-! ## §2. The monitor of one call. -/

/-- The row a call has to settle, as the call left it. -/
structure Due where
  id : ServerId
  status : ServerStatus
  containerId : Option ContainerId
  deriving DecidableEq

/-- What the call has to settle after writing the status `s'`. -/
def dueAfter (id : ServerId) (s' : ServerStatus) (cid : Option ContainerId) : Option Due :=
  if isTransient s' then some ⟨id, s', cid⟩ else none

/-- A call writes no second row while it has one to settle. -/
def Due.allow (op : Op) : Option Due → ∀ {β : Type}, Act β → Prop
  | m, _, .updateTransition id s _ cid new => new = none ∧ (m = none ∨ m = some ⟨id, s, cid⟩)
  | m, _, .deleteInStatus id st => m = none ∨ ∃ c, m = some ⟨id, st, c⟩
  | m, _, .insertServer n => m = none ∧ n.status = .creating
  | m, _, .updateContainerId id _ => m = some ⟨id, .creating, none⟩
  | m, _, .updateCreateError id _ => m = none ∨ ∃ c, m = some ⟨id, .creating, c⟩
  | m, _, .updateReconciled _ st _ => m = none ∧ isTransient st = false
  | m, _, .dockerList id => op.isCreate = true → m = none ∨ ∃ st c, m = some ⟨id, st, c⟩
  | _, _, _ => True

/-- What is left to settle after a step. -/
def Due.next (op : Op) : Option Due → ∀ {β : Type}, Act β → β → Option Due → Prop
  | _, _, .updateTransition id _ s' cid _, b, m' =>
      match b with
      | .error _ => False
      | .ok none => m' = none
      | .ok (some r) => m' = dueAfter id s' cid ∧ r.containerId = cid
  | _, _, .deleteInStatus _ _, _, m' => m' = none
  | m, _, .insertServer _, b, m' =>
      match b with
      | .error _ => m' = m
      | .ok row => m' = some ⟨row.id, .creating, none⟩
  | _, _, .updateContainerId id cid, b, m' =>
      match b with
      | .ok (some _) => m' = some ⟨id, .creating, some cid⟩
      | _ => m' = none
  | _, _, .updateCreateError _ _, _, m' => m' = none
  | m, _, .dockerList _, b, m' =>
      match b with
      | .error _ => m' = if op.isCreate then none else m
      | .ok _ => m' = m
  | m, _, _, _, m' => m' = m

/-- The monitor of one operation: what it has to settle. -/
def settling (op : Op) : Monitor Act (Option Due) where
  allow := fun m a => Due.allow op m a
  next := fun m a b m' => Due.next op m a b m'

/-- An operation other than a creation, or one with nothing to settle, does not
notice what it only reads. -/
theorem settling_deaf {op : Op} {m : Option Due} (h : op.isCreate = false ∨ m = none) :
    Deaf (settling op) m := by
  intro β a ha
  cases a <;> simp only [Act.silent, Act.inert, Bool.false_eq_true] at ha
  case dockerList id =>
    refine ⟨fun hc => ?_, fun b m' hb => ?_⟩
    · rcases h with h | h
      · rw [h] at hc
        cases hc
      · exact Or.inl h
    · cases b with
      | ok _ => exact hb
      | error e =>
          change m' = if op.isCreate then none else m at hb
          rcases h with h | h <;> simpa [h] using hb
  all_goals exact ⟨trivial, fun _ _ h => h⟩

/-! ## §3. Every operation settles what it has moved. -/

/-- Nothing is left to settle. -/
def Clear {α : Type} : α → Option Due → Prop := fun _ m => m = none

section Calls

variable {op : Op} {id : ServerId} {cid : ContainerId} {m : Option Due}

/-- A compare-and-set of a call that has nothing else to settle. -/
theorem wp_move {s s' : ServerStatus} {c : Option ContainerId}
    {Q : Option Server → Option Due → Prop} {E : Exn → Option Due → Prop}
    (hm : m = none ∨ m = some ⟨id, s, c⟩) (hnone : Q none none)
    (hsome : ∀ r, r.containerId = c → Q (some r) (dueAfter id s' c)) :
    wp (settling op) Q E (transition id s s' c none) m := by
  refine wp_transition ⟨rfl, hm⟩ (fun _ _ h => h) fun r m' h => ?_
  cases r with
  | none =>
      change m' = none at h
      rw [h]
      exact hnone
  | some r =>
      obtain ⟨rfl, hr⟩ := h
      exact hsome r hr

/-- A compare-and-set to a status that lasts, whatever comes of it. -/
theorem wp_rest {s s' : ServerStatus} {c : Option ContainerId}
    {Q : Option Server → Option Due → Prop} {E : Exn → Option Due → Prop}
    (hs : isTransient s' = false) (hm : m = none ∨ m = some ⟨id, s, c⟩) (hQ : ∀ r, Q r none) :
    wp (settling op) Q E (transition id s s' c none) m := by
  refine wp_move hm (hQ none) fun r _ => ?_
  rw [dueAfter, hs]
  exact hQ (some r)

/-- A settling compare-and-set before the failure is rethrown. -/
theorem wp_restThrow {α : Type} {s s' : ServerStatus} {c : Option ContainerId} {e : Exn}
    {Q : α → Option Due → Prop} (hs : isTransient s' = false)
    (hm : m = none ∨ m = some ⟨id, s, c⟩) :
    wp (settling op) Q Clear (do let _ ← transition id s s' c none; throw e : Call α) m :=
  wp_seq (wp_rest hs hm fun _ => rfl)

theorem startPhase_clears {E : Exn → Option Due → Prop} (hE : ∀ e, E e none) :
    wp (settling op) Clear E (startPhase id cid) (some ⟨id, .starting, some cid⟩) := by
  unfold startPhase
  rw [startContainer_eq, bind_eq, wp_bind, tryCatch_eq, wp_tryCatch]
  refine ⟨trivial, fun reply m' h => ?_⟩
  change m' = _ at h
  subst h
  refine wp_settleReply (fun _ => ?_) fun e _ _ => ?_
  · -- the daemon accepted: RUNNING, or ERROR where the row has moved meanwhile
    refine wp_seq (wp_rest rfl (Or.inr rfl) fun r => ?_)
    cases r with
    | none => exact wp_seq (wp_rest rfl (Or.inl rfl) fun _ => hE _)
    | some r => rfl
  · split <;> exact wp_seq (wp_rest rfl (Or.inr rfl) fun _ => hE _)

theorem stopPhase_clears {warnSeconds : Nat} {Q : Unit → Option Due → Prop}
    {E : Exn → Option Due → Prop} (hop : op.isCreate = false)
    (hQ : Q () (some ⟨id, .stopping, some cid⟩)) (hE : ∀ e, E e none) :
    wp (settling op) Q E (stopPhase id cid warnSeconds) (some ⟨id, .stopping, some cid⟩) := by
  unfold stopPhase
  rw [tryCatch_eq, wp_tryCatch]
  refine wp_gracefulStopContainer (settling_deaf (Or.inl hop)).steady fun t => ?_
  refine ⟨trivial, fun reply m' h => ?_⟩
  change m' = _ at h
  subst h
  refine wp_settleReply (fun _ => hQ) fun e _ _ => ?_
  split
  · exact wp_seq (wp_rest rfl (Or.inr rfl) fun _ => hE _)
  · split <;> exact wp_seq (wp_rest rfl (Or.inr rfl) fun _ => hE _)

/-- The head of stop and restart leaves the row STOPPING, or nothing to do. -/
theorem claimRunning_clears {settings : Settings} {principal : ServerPrincipal}
    {Q : Server × ContainerId × Nat → Option Due → Prop} {E : Exn → Option Due → Prop}
    (hQ : ∀ row cid warn, Q (row, cid, warn) (some ⟨id, .stopping, some cid⟩))
    (hE : ∀ e, E e none) :
    wp (settling op) Q E (claimRunning settings id principal) none := by
  unfold claimRunning
  refine wp_seq (wp_loadVisibleServer trivial (fun s m' h => ?_) fun m' h => ?_)
  · cases h
    refine wp_guard (fun _ => hE _) fun _ => ?_
    split
    next => exact hE _
    next cid _ =>
      refine wp_seq (wp_check (fun warn _ => ?_) fun e _ => hE e)
      exact wp_seq (wp_move (Or.inl rfl) (hE _) fun r _ => hQ s cid warn)
  · cases h
    exact hE _

theorem startServer_clears {settings : Settings} {principal : ServerPrincipal}
    (hop : op.isCreate = false) :
    wp (settling op) Clear Clear (startServer settings id principal) none := by
  unfold startServer
  refine wp_seq (wp_loadVisibleServer trivial (fun s m' h => ?_) fun m' h => ?_)
  · cases h
    refine wp_guard (fun _ => rfl) fun _ => ?_
    split
    next => rfl
    next cid _ =>
      refine wp_seq (wp_check (fun config _ => ?_) fun e _ => rfl)
      refine wp_seq ((hostReadings_inert settings).wp (settling_deaf (Or.inl hop)).steady ?_
        fun e _ => rfl)
      rintro ⟨hostInfo, diskInfo⟩
      refine wp_seq (wp_check (fun _ _ => ?_) fun e _ => rfl)
      refine wp_seq (wp_admitAndClaim (settling_deaf (Or.inl hop)) ⟨rfl, Or.inl rfl⟩
        (fun _ _ h => h) (fun r m' h => ?_) fun e => rfl)
      cases r with
      | none => exact h
      | some r =>
          obtain ⟨rfl, -⟩ := h
          exact startPhase_clears fun _ => rfl
  · cases h
    rfl

theorem stopServer_clears {settings : Settings} {principal : ServerPrincipal}
    (hop : op.isCreate = false) :
    wp (settling op) Clear Clear (stopServer settings id principal) none := by
  unfold stopServer
  refine wp_seq (claimRunning_clears (fun row cid warn => ?_) fun e => rfl)
  refine wp_seq (stopPhase_clears hop ?_ fun e => rfl)
  refine wp_seq (wp_rest rfl (Or.inr rfl) fun r => ?_)
  cases r <;> rfl

/-- `restartServer`: its outer handler finds the row it has to settle, or has
nothing to settle any more. -/
theorem restartServer_clears {settings : Settings} {principal : ServerPrincipal}
    (hop : op.isCreate = false) :
    wp (settling op) Clear Clear (restartServer settings id principal) none := by
  unfold restartServer
  refine wp_seq (claimRunning_clears (fun row cid warn => ?_) fun e => rfl)
  refine wp_seq (stopPhase_clears hop ?_ fun e => rfl)
  rw [tryCatch_eq, wp_tryCatch]
  -- the outer handler runs in either case: as the one that has to settle the row, or late
  have hcatch : ∀ (e : Exn) {m : Option Due}, m = none ∨ m = some ⟨id, .stopping, some cid⟩ →
      wp (settling op) Clear Clear
        (do let _ ← transition id .stopping .stopped (some cid) none; throw e : Call PublicServer)
        m := fun e _ hm => wp_restThrow rfl hm
  unfold restartStart
  refine wp_seq (wp_check (fun config _ => ?_) fun e _ => hcatch e (Or.inr rfl))
  refine wp_seq ((hostReadings_inert settings).wp (settling_deaf (Or.inl hop)).steady ?_
    fun e _ => hcatch e (Or.inr rfl))
  rintro ⟨hostInfo, diskInfo⟩
  refine wp_seq (wp_check (fun _ _ => ?_) fun e _ => hcatch e (Or.inr rfl))
  refine wp_seq (wp_admitAndClaim (settling_deaf (Or.inl hop)) ⟨rfl, Or.inr rfl⟩
    (fun _ _ h => h) (fun r m' h => ?_) fun e => hcatch e (Or.inr rfl))
  cases r with
  | none => exact hcatch _ (Or.inl h)
  | some r =>
      obtain ⟨rfl, -⟩ := h
      exact startPhase_clears fun e => hcatch e (Or.inl rfl)

/-- After a failed removal the row is deleted or marked ERROR. -/
theorem resolveDeleteRemoveFailure_clears (hop : op.isCreate = false) :
    wp (settling op) Clear (fun _ _ => False) (resolveDeleteRemoveFailure id cid)
      (some ⟨id, .stopping, some cid⟩) := by
  unfold resolveDeleteRemoveFailure
  rw [tryCatch_eq, wp_tryCatch]
  refine wp_seq ((inspectContainer_inert cid).wp (settling_deaf (Or.inl hop)).steady ?_
    fun e _ => ?_)
  · rintro ⟨_, running⟩
    cases running with
    | true => exact wp_seq (wp_rest rfl (Or.inr rfl) fun r => rfl)
    | false => exact ⟨Or.inr ⟨_, rfl⟩, fun _ m' h => h⟩
  · split
    · exact ⟨Or.inr ⟨_, rfl⟩, fun _ m' h => h⟩
    · exact wp_seq (wp_rest rfl (Or.inr rfl) fun r => rfl)

theorem deleteServer_clears {principal : ServerPrincipal} (hop : op.isCreate = false) :
    wp (settling op) Clear Clear (deleteServer id principal) none := by
  have hdelete : ∀ m, (m = none ∨ ∃ c, m = some ⟨id, .stopping, c⟩) →
      wp (settling op) Clear Clear (Prog.perform (.deleteInStatus id .stopping) : Call Unit) m :=
    fun m hm => ⟨hm, fun _ m' h => h⟩
  unfold deleteServer
  refine wp_seq (wp_loadVisibleServer trivial (fun s m' h => ?_) fun m' h => ?_)
  · cases h
    refine wp_guard (fun _ => rfl) fun _ => ?_
    refine wp_seq (wp_move (Or.inl rfl) rfl fun r hr => ?_)
    dsimp only
    rw [hr]
    cases s.containerId with
    | none => exact hdelete _ (Or.inr ⟨_, rfl⟩)
    | some cid =>
        refine wp_seq ?_
        rw [tryCatch_eq, wp_tryCatch, removeContainer_eq]
        refine ⟨trivial, fun reply m' h => ?_⟩
        cases h
        refine wp_settleReply (fun _ => hdelete _ (Or.inr ⟨_, rfl⟩)) fun e _ _ => ?_
        refine wp_seq (wp_mono _ _ (fun removed m hm => ?_) (fun _ _ h => h.elim)
          (resolveDeleteRemoveFailure_clears hop))
        -- the row is gone already: the second DELETE finds nothing of this call's
        cases removed with
        | true => exact hdelete _ (Or.inl hm)
        | false => exact hm
  · cases h
    rfl

/-- The compensation of a creation ends with nothing to settle: the row is
deleted, marked ERROR, or given up. -/
theorem compensateCreateFailure_clears (hop : op.isCreate = true)
    (hm : m = none ∨ ∃ c, m = some ⟨id, .creating, c⟩) :
    wp (settling op) Clear Clear (compensateCreateFailure id) m := by
  unfold compensateCreateFailure findManagedContainer
  have hlookup : m = none ∨ ∃ st c, m = some ⟨id, st, c⟩ := by
    rcases hm with hm | ⟨c, hm⟩
    · exact Or.inl hm
    · exact Or.inr ⟨.creating, c, hm⟩
  refine ⟨fun _ => hlookup, fun b m' hb => ?_⟩
  have hdelete : wp (settling op) Clear Clear
      (Prog.perform (.deleteInStatus id .creating) : Call Unit) m := ⟨hm, fun _ _ h => h⟩
  cases b with
  | error e =>
      change m' = if op.isCreate then none else m at hb
      rw [hop] at hb
      exact hb
  | ok listed =>
      obtain rfl : m' = m := hb
      cases listed with
      | nil => exact hdelete
      | cons container _ =>
          obtain ⟨found, state⟩ := container
          cases found with
          | none => exact hdelete
          | some found =>
              refine ⟨hm, fun b m' hb => ?_⟩
              obtain rfl : m' = none := hb
              cases b <;> rfl

/-- The requests that neither write a row nor ask for the managed container. -/
def Act.aside : ∀ {β : Type}, Act β → Bool
  | _, .dockerList _ => false
  | _, a => !a.writesServers

theorem settling_ignores_aside (op : Op) (m : Option Due) :
    (settling op).Ignores (fun _ a => a.aside = true) m := by
  intro β a ha
  cases a <;> first | exact ⟨trivial, fun _ _ h => h⟩ | cases ha

theorem createContainer_aside (settings : Settings) (server : Server) :
    (createContainer settings server).Only (fun _ a => a.aside = true) fun _ => True := by
  unfold createContainer
  cases settings.dockerConfig with
  | error message => trivial
  | ok docker =>
      refine only_bind ?_ fun _ => ⟨rfl, fun reply => ?_⟩
      · unfold validateServerForCreate
        refine only_guard (fun _ => trivial) fun _ => ?_
        refine only_guard (fun _ => trivial) fun _ => ?_
        exact only_guard (fun _ => trivial) fun _ => trivial
      · cases reply with
        | ok cid => trivial
        | error error => exact only_guard (fun _ => trivial) fun _ => trivial

/-- The insertion of a creation leaves a CREATING row to settle. -/
theorem insertRow_clears {α : Type} {settings : Settings} {hostInfo : HostInfo}
    {config : ResourceConfig} {dto : CreateServerDto} {principal : ServerPrincipal}
    {message : String} {Q : α → Option Due → Prop} {k : Server → Call α}
    (hk : ∀ row : Server, wp (settling op) Q Clear (k row) (some ⟨row.id, .creating, none⟩)) :
    wp (settling op) Q Clear ((transaction do
      Prog.perform .lifecycleLock
      let currentAllocationMb ← Prog.perform (.sumMemoryLimitMb none true)
      let requestedMb := dto.memoryLimitMb.getD 2048
      check (checkMemoryAdmission settings hostInfo config.maxMemoryRatio requestedMb
        currentAllocationMb message)
      statement (.insertServer (newServer dto principal requestedMb))).bind k) none := by
  refine wp_seq ((wp_tryCatch _ _ _).mpr ?_)
  have hrollback : ∀ e : Exn, wp (settling op) (fun a m => wp (settling op) Q Clear (k a) m) Clear
      ((Prog.perform .rollback : Call Unit).bind fun _ => .fail e) none :=
    fun e => ⟨trivial, fun _ _ h => h⟩
  refine ⟨trivial, fun _ m₁ h₁ => ?_⟩
  obtain rfl : m₁ = none := h₁
  refine ⟨trivial, fun sum m₂ h₂ => ?_⟩
  obtain rfl : m₂ = none := h₂
  simp only [bind_eq, bind_ret]
  cases checkMemoryAdmission settings hostInfo config.maxMemoryRatio
      (dto.memoryLimitMb.getD 2048) sum message with
  | error e => exact hrollback e
  | ok _ =>
      refine ⟨⟨rfl, rfl⟩, fun b m₃ h₃ => ?_⟩
      cases b with
      | error x =>
          obtain rfl : m₃ = none := h₃
          exact hrollback _
      | ok row =>
          obtain rfl : m₃ = some ⟨row.id, .creating, none⟩ := h₃
          exact hk row

theorem createServer_clears {settings : Settings} {dto : CreateServerDto}
    {principal : ServerPrincipal} (hop : op.isCreate = true) :
    wp (settling op) Clear Clear (createServer settings dto principal) none := by
  unfold createServer
  refine wp_seq (wp_check (fun config _ => ?_) fun e _ => rfl)
  refine wp_seq ((hostReadings_inert settings).wp (settling_deaf (Or.inr rfl)).steady ?_
    fun e _ => rfl)
  rintro ⟨hostInfo, diskInfo⟩
  refine wp_seq (wp_check (fun _ _ => ?_) fun e _ => rfl)
  refine insertRow_clears fun row => ?_
  refine wp_seq ((wp_tryCatch _ _ _).mpr ?_)
  refine wp_of_only (createContainer_aside settings row) (settling_ignores_aside op _)
    (fun cid => ?_) fun e _ => ?_
  · refine ⟨rfl, fun b m' hb => ?_⟩
    cases b with
    | error x => exact hb
    | ok persisted =>
        cases persisted with
        | none =>
            -- the row has moved meanwhile, so the compensation has nothing to settle
            obtain rfl : m' = none := hb
            show wp _ _ _ ((compensateCreateFailure row.id).bind _) none
            exact wp_seq (wp_mono _ _ (fun _ m hm => hm) (fun _ _ h => h)
              (compensateCreateFailure_clears hop (Or.inl rfl)))
        | some r =>
            -- the container is recorded: the start settles the row either way
            obtain rfl : m' = some ⟨row.id, .creating, some cid⟩ := hb
            show wp _ _ _ (((startContainer cid).tryCatch _).bind _) _
            refine wp_seq ((wp_tryCatch _ _ _).mpr ?_)
            rw [startContainer_eq]
            refine ⟨trivial, fun reply m' h => ?_⟩
            obtain rfl : m' = some ⟨row.id, .creating, some cid⟩ := h
            refine wp_settleReply (fun _ => ?_) fun e _ _ => wp_restThrow rfl (Or.inr rfl)
            refine wp_seq (wp_rest rfl (Or.inr rfl) fun r => ?_)
            cases r <;> rfl
  · exact wp_seq (wp_mono _ _ (fun _ m hm => hm) (fun _ _ h => h)
      (compensateCreateFailure_clears hop (Or.inr ⟨none, rfl⟩)))

end Calls

/-! ## §4. The reconciliation writes no transient status. -/

/-- The states a reconciliation writes. -/
def Lasting : ReconciliationOutcome → Prop
  | .state st _ => isTransient st = false
  | _ => True

section Reconciliation

variable {μ : Type} {M : Monitor Act μ} {n : μ} {E : Exn → μ → Prop}

theorem wp_reconcileLookup_lasting {row : Server} {Q : ReconciliationOutcome → μ → Prop}
    (hM : Steady M n) (hQ : ∀ o, Lasting o → Q o n) (hE : ∀ e, E e n) :
    wp M Q E (reconcileLookup row) n := by
  refine wp_seq ((findManagedContainer_inert row.id).wp hM (fun r => ?_) fun e _ => hE e)
  cases r with
  | unavailable => exact hQ _ trivial
  | absent => exact hQ _ rfl
  | found id running => cases running <;> exact hQ _ rfl

theorem wp_reconcileRow_lasting {row : Server} {Q : ReconciliationOutcome → μ → Prop}
    (hM : Steady M n) (hQ : ∀ o, Lasting o → Q o n) (hE : ∀ e, E e n) :
    wp M Q E (reconcileRow row) n := by
  unfold reconcileRow
  cases row.containerId with
  | none => exact wp_reconcileLookup_lasting hM hQ hE
  | some cid =>
      refine wp_seq ((wp_tryCatch _ _ _).mpr ?_)
      refine wp_seq ((inspectContainer_inert cid).wp hM (fun r => ?_) fun e _ => ?_)
      · obtain ⟨id, running⟩ := r
        cases running <;> exact hQ _ rfl
      · show wp _ _ _ (if e.isServiceUnavailable then _ else _) _
        split
        · exact hQ _ trivial
        · split
          · exact wp_reconcileLookup_lasting hM hQ hE
          · exact hQ _ trivial

theorem wp_reconcileRows_lasting {rows : List Server}
    {Q : List (Server × ReconciliationOutcome) → μ → Prop} (hM : Steady M n)
    (hQ : ∀ os, (∀ ro ∈ os, Lasting ro.2) → Q os n) (hE : ∀ e, E e n) :
    wp M Q E (reconcileRows rows) n := by
  induction rows generalizing Q with
  | nil => exact hQ [] (by simp)
  | cons row rest ih =>
      refine wp_seq (wp_reconcileRow_lasting hM (fun o ho => ?_) hE)
      refine wp_seq (ih fun os hos => hQ _ ?_)
      intro ro hro
      rcases List.mem_cons.mp hro with rfl | hro
      · exact ho
      · exact hos ro hro

theorem onModuleInit_clears : wp (settling .reconcile) Clear Clear onModuleInit none := by
  refine ⟨trivial, fun rows m' hm' => ?_⟩
  obtain rfl : m' = none := hm'
  show wp _ _ _ ((reconcileRows rows).bind _) _
  refine wp_seq (wp_reconcileRows_lasting (settling_deaf (Or.inr rfl)).steady
    (fun os hos => ?_) fun _ => rfl)
  split
  · rfl
  · -- every write is one of the outcomes
    refine wp_of_only (T := fun _ => True) (K := fun _ a => (settling .reconcile).allow none a ∧
        ∀ b m', (settling .reconcile).next none a b m' → m' = none)
      (reconcileWrites_only (fun _ => trivial) os fun row st cid h => ?_) (fun _ _ ha => ha)
      (fun _ => rfl) fun _ _ => rfl
    exact ⟨⟨rfl, hos _ h⟩, fun _ _ hb => hb⟩

end Reconciliation

/-- **Every operation settles what it has moved**, or gives it up. -/
theorem body_clears (settings : Settings) (op : Op) :
    wp (settling op) Clear Clear (body settings op) none := by
  cases op with
  | create dto principal => exact wp_seq (createServer_clears rfl)
  | start id principal => exact wp_seq (startServer_clears rfl)
  | stop id principal => exact wp_seq (stopServer_clears rfl)
  | restart id principal => exact wp_seq (restartServer_clears rfl)
  | delete id principal => exact wp_seq (deleteServer_clears rfl)
  | reconcile => exact wp_seq onModuleInit_clears

/-! ## §5. The invariant of the pool. -/

/-- Every transient row was given up, or is to be settled by the call that wrote
it last. -/
structure Accounted (w : World) (o : Moves) (gs : Pid → Option Due) : Prop where
  unique : w.UniqueContainers
  owed : ∀ {id : ServerId} {s : Server}, w.servers.get id = some s →
    isTransient s.status = true → o.stranded id = true ∨
      ∃ p, o.mover id = some p ∧ gs p = some ⟨id, s.status, s.containerId⟩

namespace World

theorem stateOf_get {w : World} {id : ServerId} {s : Server} (h : w.servers.get id = some s) :
    w.stateOf id = some (s.status, s.containerId) := by
  rw [stateOf, h]
  rfl

theorem get_of_stateOf {w : World} {id : ServerId} {st : ServerStatus} {c : Option ContainerId}
    (h : w.stateOf id = some (st, c)) :
    ∃ s, w.servers.get id = some s ∧ s.status = st ∧ s.containerId = c := by
  obtain ⟨s, hs, he⟩ := Option.map_eq_some_iff.mp h
  rw [Server.state, Prod.mk.injEq] at he
  exact ⟨s, hs, he⟩

theorem stateOf_congr {w w' : World} {id : ServerId}
    (h : w'.servers.get id = w.servers.get id) : w'.stateOf id = w.stateOf id := by
  rw [stateOf, stateOf, h]

end World

/-- A step of `p`: what it makes transient is what it has to settle next, and
what it had to settle and left as it was it still has to settle, or gives up. -/
theorem Accounted.act {w w' : World} {o : Moves} {gs : Pid → Option Due} {p : Pid} {op : Op}
    {β : Type} {a : Act β} {e : Env} {b : β} {m : Option Due} (h : Accounted w o gs)
    (hx : exec p a e w = some (b, w'))
    (hnew : ∀ {id s}, w'.servers.get id = some s → isTransient s.status = true →
      w'.stateOf id ≠ w.stateOf id → m = some ⟨id, s.status, s.containerId⟩)
    (hold : ∀ {id st c}, gs p = some ⟨id, st, c⟩ → isTransient st = true →
      w.stateOf id = some (st, c) → w'.stateOf id = w.stateOf id →
      m = some ⟨id, st, c⟩ ∨ givesUp op a b = some id) :
    Accounted w' (o.next w p op a b w') (Function.update gs p m) := by
  refine ⟨exec_uniqueContainers hx h.unique, fun {id s} hs ht => ?_⟩
  by_cases hstate : w'.stateOf id = w.stateOf id
  · -- the row is as it was: so is its account, unless the account was `p`'s
    have hbefore : w.stateOf id = some (s.status, s.containerId) := by
      rw [← hstate, World.stateOf_get hs]
    obtain ⟨s₀, hs₀, hst, hc⟩ := World.get_of_stateOf hbefore
    have hmover : (o.next w p op a b w').mover id = o.mover id := if_pos hstate
    rcases h.owed hs₀ (hst ▸ ht) with ho | ⟨q, hq, hg⟩
    · exact Or.inl (by simp [Moves.next, hstate, ho])
    · rw [hst, hc] at hg
      by_cases hqp : q = p
      · subst hqp
        rcases hold hg ht hbefore hstate with hm | hup
        · exact Or.inr ⟨q, by rw [hmover, hq], by rw [Function.update_self, hm]⟩
        · exact Or.inl (by simp [Moves.next, hstate, hup, hq])
      · exact Or.inr ⟨q, by rw [hmover, hq], by rw [Function.update_of_ne hqp, hg]⟩
  · refine Or.inr ⟨p, if_neg hstate, ?_⟩
    rw [Function.update_self]
    exact hnew hs ht hstate

/-- A step that leaves the table alone. -/
theorem Accounted.still {w w' : World} {o : Moves} {gs : Pid → Option Due} {p : Pid} {op : Op}
    {β : Type} {a : Act β} {e : Env} {b : β} {m : Option Due} (h : Accounted w o gs)
    (hx : exec p a e w = some (b, w')) (hw : w'.servers = w.servers)
    (hold : ∀ {id st c}, gs p = some ⟨id, st, c⟩ → w.stateOf id = some (st, c) →
      m = some ⟨id, st, c⟩ ∨ givesUp op a b = some id) :
    Accounted w' (o.next w p op a b w') (Function.update gs p m) := by
  refine h.act hx (fun {id s} _ _ hne => ?_) fun hg _ hstate _ => hold hg hstate
  exact absurd (World.stateOf_congr (by rw [hw])) hne

/-- A step that leaves the table alone, and what there is to settle. -/
theorem Accounted.frame {w w' : World} {o : Moves} {gs : Pid → Option Due} {p : Pid} {op : Op}
    {β : Type} {a : Act β} {e : Env} {b : β} (h : Accounted w o gs)
    (hx : exec p a e w = some (b, w')) (hw : w'.servers = w.servers) :
    Accounted w' (o.next w p op a b w') (Function.update gs p (gs p)) :=
  h.still hx hw fun hg _ => Or.inl hg

/-- A step that writes at most the row `id`. -/
theorem Accounted.write {w w' : World} {o : Moves} {gs : Pid → Option Due} {p : Pid} {op : Op}
    {β : Type} {a : Act β} {e : Env} {b : β} {m : Option Due} (h : Accounted w o gs)
    (hx : exec p a e w = some (b, w')) (id : ServerId)
    (hother : ∀ i, i ≠ id → w'.servers.get i = w.servers.get i)
    (hnew : ∀ {s}, w'.servers.get id = some s → isTransient s.status = true →
      w'.stateOf id ≠ w.stateOf id → m = some ⟨id, s.status, s.containerId⟩)
    (hold : ∀ {i st c}, gs p = some ⟨i, st, c⟩ → i = id ∧ (isTransient st = true →
      w.stateOf id = some (st, c) → w'.stateOf id = w.stateOf id →
      m = some ⟨id, st, c⟩ ∨ givesUp op a b = some id)) :
    Accounted w' (o.next w p op a b w') (Function.update gs p m) := by
  refine h.act hx (fun {i s} hs ht hne => ?_) fun {i st c} hg => ?_
  · by_cases hi : i = id
    · subst hi
      exact hnew hs ht hne
    · exact absurd (World.stateOf_congr (hother i hi)) hne
  · obtain ⟨rfl, hrest⟩ := hold hg
    exact hrest

section Steps

variable {w w' : World} {o : Moves} {gs : Pid → Option Due} {p : Pid} {op : Op} {e : Env}
  {id : ServerId}

/-- The compare-and-set. -/
theorem Accounted.transition {s s' : ServerStatus} {cid : Option ContainerId}
    {b : Except String (Option Server)} (h : Accounted w o gs)
    (hp : gs p = none ∨ gs p = some ⟨id, s, cid⟩)
    (hx : exec p (.updateTransition id s s' cid none) e w = some (b, w')) :
    ∃ m, Due.next op (gs p) (.updateTransition id s s' cid none) b m ∧
      Accounted w' (o.next w p op (.updateTransition id s s' cid none) b w')
        (Function.update gs p m) := by
  have hid : ∀ {i st c}, gs p = some ⟨i, st, c⟩ → i = id ∧ st = s ∧ c = cid := by
    intro i st c hg
    rcases hp with hp | hp <;> rw [hp] at hg <;> cases hg
    exact ⟨rfl, rfl, rfl⟩
  rcases exec_updateTransition hx h.unique with ⟨rfl, hw, hmiss⟩ | ⟨r, hr, hrs, hrc, rfl, hget⟩
  · -- a miss: the row is not as the call left it, so nothing of it is owed
    refine ⟨none, rfl, h.still hx hw fun hg hstate => ?_⟩
    obtain ⟨rfl, rfl, rfl⟩ := hid hg
    obtain ⟨s₀, hs₀, hst, hc⟩ := World.get_of_stateOf hstate
    exact absurd ⟨hst, hc⟩ (hmiss s₀ hs₀)
  · have hrow : w'.servers.get id = some (Server.moved r s' w.clock) := by rw [hget, if_pos rfl]
    refine ⟨dueAfter id s' cid, ⟨rfl, hrc⟩, h.write hx id (fun i hi => by rw [hget, if_neg hi])
      (fun hs ht _ => ?_) fun hg => ?_⟩
    · rw [hrow, Option.some.injEq] at hs
      subst hs
      change isTransient s' = true at ht
      simp [dueAfter, ht, Server.moved, hrc]
    · obtain ⟨rfl, rfl, rfl⟩ := hid hg
      refine ⟨rfl, fun ht hbefore hsame => Or.inl ?_⟩
      -- the same status again
      rw [World.stateOf_get hrow, hbefore, Option.some.injEq, Prod.mk.injEq] at hsame
      obtain rfl : s' = _ := hsame.1
      simp [dueAfter, ht]

/-- The DELETE: a call deletes what it has to settle. -/
theorem Accounted.delete {st : ServerStatus} {b : Unit} (h : Accounted w o gs)
    (hp : gs p = none ∨ ∃ c, gs p = some ⟨id, st, c⟩)
    (hx : exec p (.deleteInStatus id st) e w = some (b, w')) :
    Accounted w' (o.next w p op (.deleteInStatus id st) b w') (Function.update gs p none) := by
  have hget := exec_deleteInStatus_get hx
  refine h.write hx id (fun i hi => ?_) (fun {s} hs _ hne => ?_) fun {i st' c} hg => ?_
  · rw [hget i]
    cases hs : w.servers.get i with
    | none => rfl
    | some s => simp [Table.get_key hs, hi]
  · -- a row that is left is as it was
    rw [hget, Option.filter_eq_some_iff] at hs
    refine absurd (World.stateOf_congr ?_) hne
    rw [hget, hs.1, Option.filter_some, if_pos hs.2]
  · obtain ⟨rfl, rfl⟩ : i = id ∧ st' = st := by
      rcases hp with hp | ⟨c', hp⟩ <;> rw [hp] at hg <;> cases hg
      exact ⟨rfl, rfl⟩
    refine ⟨rfl, fun _ hbefore hsame => ?_⟩
    obtain ⟨s, hs, hst, -⟩ := World.get_of_stateOf hbefore
    have hnone : w'.stateOf i = none := by
      rw [World.stateOf, hget, hs]
      simp [Table.get_key hs, hst]
    rw [hnone, hbefore] at hsame
    cases hsame

/-- The INSERT of a creation. -/
theorem Accounted.insert {n : NewServer} {b : Except String Server} (h : Accounted w o gs)
    (hp : gs p = none) (hn : n.status = .creating)
    (hx : exec p (.insertServer n) e w = some (b, w')) :
    ∃ m, Due.next op (gs p) (.insertServer n) b m ∧
      Accounted w' (o.next w p op (.insertServer n) b w') (Function.update gs p m) := by
  rcases exec_insertServer_get hx with ⟨hw, ⟨x, rfl⟩, -⟩ | ⟨servers, rfl, -, hi, hw⟩
  · exact ⟨gs p, rfl, h.frame hx hw⟩
  · have hget : ∀ i, w'.servers.get i =
        if e.uuid = i then some (n.row e.uuid w.clock) else w.servers.get i := by
      intro i
      rw [hw, World.release_servers]
      exact Table.get_insert hi i
    refine ⟨some ⟨e.uuid, .creating, none⟩, rfl, h.write hx e.uuid (fun i hi => ?_)
      (fun hs _ _ => ?_) fun hg => ?_⟩
    · rw [hget, if_neg (Ne.symm hi)]
    · rw [hget, if_pos rfl, Option.some.injEq] at hs
      rw [← hs]
      simp [NewServer.row, hn]
    · rw [hp] at hg
      cases hg

/-- An UPDATE of one row, seen through the states: a miss, a broken constraint
or a hit. -/
theorem updateRow_states {hit : Server → Bool} {status : Server → ServerStatus}
    {cid : Server → Option ContainerId} {b : Except String (Option Server)}
    (hb : (updateRow p id hit status cid w).1 = b)
    (hw : (updateRow p id hit status cid w).2 = w') :
    (b = .ok none ∧ w'.servers = w.servers ∧
      ∀ s, w.servers.get id = some s → hit s = false) ∨
    ((∃ x, b = .error x) ∧ w'.servers = w.servers) ∨
    ∃ s r, w.servers.get id = some s ∧ hit s = true ∧ b = .ok (some r) ∧
      r.status = status s ∧ r.containerId = cid s ∧
      ∀ i, w'.servers.get i = if i = id then some r else w.servers.get i := by
  rcases updateRow_cases p id hit status cid w with ⟨hm, hu⟩ | ⟨s, c, hs, -, -, -, hu⟩ |
    ⟨s, hs, hh, -, hu⟩ <;> rw [hu] at hb hw <;> subst hb hw
  · exact Or.inl ⟨rfl, World.release_servers _ _, hm⟩
  · exact Or.inr (Or.inl ⟨⟨_, rfl⟩, rfl⟩)
  · refine Or.inr (Or.inr ⟨s, _, hs, hh, rfl, rfl, rfl, fun i => ?_⟩)
    rw [World.release_servers, World.setRow_get]
    split
    next hi => rw [hi, hs, Option.map_some]
    next => rfl

/-- The container of a creation is recorded. -/
theorem Accounted.claimContainer {cid : ContainerId} {b : Except String (Option Server)}
    (h : Accounted w o gs) (hp : gs p = some ⟨id, .creating, none⟩)
    (hx : exec p (.updateContainerId id cid) e w = some (b, w')) :
    ∃ m, Due.next op (gs p) (.updateContainerId id cid) b m ∧
      Accounted w' (o.next w p op (.updateContainerId id cid) b w') (Function.update gs p m) := by
  have hid : ∀ {i st c}, gs p = some ⟨i, st, c⟩ → i = id ∧ st = .creating ∧ c = none := by
    intro i st c hg
    rw [hp] at hg
    cases hg
    exact ⟨rfl, rfl, rfl⟩
  have hu := hx
  simp only [exec, Option.some.injEq] at hu
  rcases updateRow_states (congrArg Prod.fst hu) (congrArg Prod.snd hu) with
    ⟨rfl, hw, hmiss⟩ | ⟨⟨x, rfl⟩, hw⟩ | ⟨s, r, hs, hh, rfl, hst, hc, hget⟩
  · refine ⟨none, rfl, h.still hx hw fun hg hstate => ?_⟩
    obtain ⟨rfl, rfl, rfl⟩ := hid hg
    obtain ⟨s₀, hs₀, hst, hc⟩ := World.get_of_stateOf hstate
    have := hmiss s₀ hs₀
    simp [hst, hc] at this
  · -- the constraint is broken: nothing settles the row any more
    refine ⟨none, rfl, h.still hx hw fun hg _ => Or.inr ?_⟩
    obtain ⟨rfl, -, -⟩ := hid hg
    rfl
  · have hcreating : s.status = .creating := by
      simp only [Bool.and_eq_true, decide_eq_true_eq] at hh
      exact hh.1
    have hrow : w'.servers.get id = some r := by rw [hget, if_pos rfl]
    refine ⟨some ⟨id, .creating, some cid⟩, rfl, h.write hx id
      (fun i hi => by rw [hget, if_neg hi]) (fun hs' _ _ => ?_) fun hg => ?_⟩
    · rw [hrow, Option.some.injEq] at hs'
      rw [← hs', hst, hc, hcreating]
    · obtain ⟨rfl, rfl, rfl⟩ := hid hg
      refine ⟨rfl, fun _ hbefore hsame => ?_⟩
      rw [World.stateOf_get hrow, hbefore, hc, Option.some.injEq, Prod.mk.injEq] at hsame
      cases hsame.2

/-- A failed creation is marked ERROR. -/
theorem Accounted.createError {cid : ContainerId} {b : Except String Unit}
    (h : Accounted w o gs) (hp : gs p = none ∨ ∃ c, gs p = some ⟨id, .creating, c⟩)
    (hx : exec p (.updateCreateError id cid) e w = some (b, w')) :
    Accounted w' (o.next w p op (.updateCreateError id cid) b w') (Function.update gs p none) := by
  have hid : ∀ {i st c}, gs p = some ⟨i, st, c⟩ → i = id ∧ st = .creating := by
    intro i st c hg
    rcases hp with hp | ⟨c', hp⟩ <;> rw [hp] at hg <;> cases hg
    exact ⟨rfl, rfl⟩
  have hu := hx
  simp only [exec, Option.some.injEq, Prod.mk.injEq] at hu
  obtain ⟨hb, hu⟩ := hu
  rcases updateRow_states rfl hu with ⟨-, hw, hmiss⟩ | ⟨⟨x, hx'⟩, hw⟩ |
    ⟨s, r, hs, hh, -, hst, -, hget⟩
  · refine h.still hx hw fun hg hstate => ?_
    obtain ⟨rfl, rfl⟩ := hid hg
    obtain ⟨s₀, hs₀, hst, -⟩ := World.get_of_stateOf hstate
    have := hmiss s₀ hs₀
    simp [hst] at this
  · rw [hx'] at hb
    obtain rfl : b = .error x := hb.symm
    refine h.still hx hw fun hg _ => Or.inr ?_
    obtain ⟨rfl, -⟩ := hid hg
    rfl
  · have hrow : w'.servers.get id = some r := by rw [hget, if_pos rfl]
    refine h.write hx id (fun i hi => by rw [hget, if_neg hi]) (fun hs' ht _ => ?_) fun hg => ?_
    · rw [hrow, Option.some.injEq] at hs'
      rw [← hs', hst] at ht
      cases ht
    · obtain ⟨rfl, rfl⟩ := hid hg
      refine ⟨rfl, fun _ hbefore hsame => ?_⟩
      rw [World.stateOf_get hrow, hbefore, hst, Option.some.injEq, Prod.mk.injEq] at hsame
      cases hsame.1

/-- A reconciliation writes a status that lasts. -/
theorem Accounted.reconcile {row : Server} {st : ServerStatus} {cid : Option ContainerId}
    {b : Except String Unit} (h : Accounted w o gs) (hp : gs p = none)
    (hst : isTransient st = false)
    (hx : exec p (.updateReconciled row st cid) e w = some (b, w')) :
    Accounted w' (o.next w p op (.updateReconciled row st cid) b w')
      (Function.update gs p (gs p)) := by
  have hu := hx
  simp only [exec, Option.some.injEq, Prod.mk.injEq] at hu
  rcases updateRow_states rfl hu.2 with ⟨-, hw, -⟩ | ⟨-, hw⟩ |
    ⟨s, r, hs, hh, -, hrst, -, hget⟩
  · exact h.frame hx hw
  · exact h.frame hx hw
  · refine h.write hx row.id (fun i hi => by rw [hget, if_neg hi]) (fun hs' ht _ => ?_) fun hg => ?_
    · rw [hget, if_pos rfl, Option.some.injEq] at hs'
      rw [← hs', hrst, hst] at ht
      cases ht
    · rw [hp] at hg
      cases hg

/-- The lookup of a managed container: where it fails, a creation gives its row
up. -/
theorem Accounted.lookup {b : Except DockerError (List ContainerSummary)} (h : Accounted w o gs)
    (hp : op.isCreate = true → gs p = none ∨ ∃ st c, gs p = some ⟨id, st, c⟩)
    (hx : exec p (.dockerList id) e w = some (b, w')) :
    ∃ m, Due.next op (gs p) (.dockerList id) b m ∧
      Accounted w' (o.next w p op (.dockerList id) b w') (Function.update gs p m) := by
  have hw := exec_servers_frame hx rfl
  cases b with
  | ok listed => exact ⟨gs p, rfl, h.frame hx hw⟩
  | error x =>
      by_cases hop : op.isCreate = true
      · refine ⟨none, by simp [Due.next, hop], h.still hx hw fun {i st c} hg _ => Or.inr ?_⟩
        obtain rfl : i = id := by
          rcases hp hop with hp | ⟨st', c', hp⟩ <;> rw [hp] at hg <;> cases hg
          rfl
        simp [givesUp, hop]
      · exact ⟨gs p, by simp [Due.next, hop], h.frame hx hw⟩

/-- **One step** of an allowed call keeps the account. -/
theorem Accounted.step {β : Type} {a : Act β} {b : β} (h : Accounted w o gs)
    (ha : Due.allow op (gs p) a) (hx : exec p a e w = some (b, w')) :
    ∃ m, Due.next op (gs p) a b m ∧
      Accounted w' (o.next w p op a b w') (Function.update gs p m) := by
  cases a
  case updateTransition id s s' cid new =>
    obtain ⟨rfl, hp⟩ := ha
    exact h.transition hp hx
  case deleteInStatus id st => exact ⟨none, rfl, h.delete ha hx⟩
  case insertServer n => exact h.insert ha.1 ha.2 hx
  case updateContainerId id cid => exact h.claimContainer ha hx
  case updateCreateError id cid => exact ⟨none, rfl, h.createError ha hx⟩
  case updateReconciled row st cid => exact ⟨gs p, rfl, h.reconcile ha.1 ha.2 hx⟩
  case dockerList id => exact h.lookup ha hx
  all_goals exact ⟨gs p, rfl, h.frame hx (exec_servers_frame hx rfl)⟩

end Steps

/-- A world nobody works on accounts for all its transient rows. -/
theorem Accounted.abandoned {w w' : World} {gs : Pid → Option Due} (hw : w.UniqueContainers)
    (hservers : w'.servers = w.servers) : Accounted w' (.abandoned w) gs := by
  refine ⟨UniqueContainers.of_servers hw hservers, fun {id s} hs ht => Or.inl ?_⟩
  rw [hservers] at hs
  simp [Moves.abandoned, hs, ht]

/-! ## §6. Runs. -/

/-- The account, in every run. -/
theorem moving_accounted {settings : Settings} {w₀ : World} {c : Conf} {o : Moves}
    (hw : w₀.UniqueContainers)
    (h : (system settings).Reach moving (Config.init w₀) (.abandoned w₀) c o) :
    ∃ gs, Accounted c.world o gs ∧
      System.Tracks settling none (fun _ => Clear) (fun _ => Clear) c gs := by
  refine System.Reach.sound (M := settling) (fun _ => none) Accounted ?_ ?_ ?_ ?_ ?_ ?_ h
  · intro o w p op _
    exact body_clears settings op
  · intro w o gs p op hI hp _
    rw [← hp, Function.update_eq_self]
    exact hI
  · intro w o gs p op β a e b w' hI ha _ hx
    exact hI.step ha hx
  · intro w o gs e w' hI hx
    cases hx
    exact ⟨UniqueContainers.of_servers hI.unique rfl, hI.owed⟩
  · intro w o gs e w' alive hI hx _ _
    cases hx
    exact Accounted.abandoned hI.unique rfl
  · exact Accounted.abandoned hw rfl

/-- **NO SERVER IS STRANDED**: in every run of the six operations on a database
that fails no statement but by a UNIQUE constraint, with any answer of the
daemon, a row in a transient status was put there by a call that is still
running, unless it was given up since. -/
theorem transient_owed (settings : Settings) (w₀ : World) (hw : w₀.UniqueContainers)
    (c : Conf) (o : Moves)
    (h : (system settings).Reach moving (Config.init w₀) (.abandoned w₀) c o)
    (id : ServerId) (s : Server) (hs : row c id = some s) (ht : isTransient s.status = true) :
    o.stranded id = true ∨ AtWork c o id := by
  obtain ⟨gs, hI, hT⟩ := moving_accounted hw h
  rcases hI.owed hs ht with ho | ⟨p, hp, hg⟩
  · exact Or.inl ho
  · -- a call with something to settle has not ended
    refine Or.inr ?_
    cases hc : c.calls p with
    | none =>
        rw [hT.not_invoked hc] at hg
        cases hg
    | some t =>
        refine ⟨p, t, hp, hc, ?_⟩
        have hwp := hT.wp hc
        cases hrest : t.rest with
        | act a k => rfl
        | ret r =>
            rw [hrest] at hwp
            rw [show gs p = none from hwp] at hg
            cases hg
        | fail x =>
            rw [hrest] at hwp
            rw [show gs p = none from hwp] at hg
            cases hg

/-- A restart whose start is rejected, and a delete that has claimed the row
when the late catch-all of the restart is still to come. -/
def deleteBeforeCatch : List (Event Env Op) :=
  [.invoke 0 (.restart 1 sampleAdmin), .step 0 {}, .step 0 {}, .step 0 { rcon := .error .exec },
   .step 0 {}, .step 0 sampleInfo, .step 0 sampleStats, .step 0 {}, .step 0 {}, .step 0 {},
   .step 0 { reply := .error ⟨none, some 500⟩, effect := false }, .step 0 {},
   .invoke 1 (.delete 1 sampleAdmin), .step 1 {}, .step 1 {}]

/-- The row is STOPPING, and the theorem says that the delete is at work on
it. -/
theorem deleteBeforeCatch_owed :
    ∃ c o s, (system sampleSettings).Reach moving (Config.init (sampleWorld .running true))
        (.abandoned (sampleWorld .running true)) c o ∧
      row c 1 = some s ∧ s.status = .stopping ∧ o.mover 1 = some 1 ∧ AtWork c o 1 := by
  obtain ⟨c, o, h, ht⟩ := System.Reach.of_replay (S := system sampleSettings) (V := moving)
    (sampleWorld .running true) (.abandoned (sampleWorld .running true)) deleteBeforeCatch
    (fun c o => (row c 1).map Server.status == some .stopping && o.mover 1 == some 1 &&
      !o.stranded 1) (by decide +kernel)
  simp only [Bool.and_eq_true, beq_iff_eq, Bool.not_eq_true', Option.map_eq_some_iff] at ht
  obtain ⟨⟨⟨s, hs, hst⟩, hmover⟩, hfree⟩ := ht
  have hwork := transient_owed sampleSettings _ (sampleWorld_unique _ _) c o h 1 s hs
    (by rw [hst]; rfl)
  rw [hfree] at hwork
  exact ⟨c, o, s, h, hs, hst, hmover, hwork.resolve_left Bool.false_ne_true⟩

end MinePanel.Servers
