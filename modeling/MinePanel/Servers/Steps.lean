/-
  MinePanel.Servers.Steps
  ───────────────────────
  **WHAT EVERY STEP CAN DO.**

  The inversion lemmas of `exec`, said once: which steps leave the table, the
  daemon or the lock alone, what a compare-and-set UPDATE does when it hits and
  when it misses, and that the UNIQUE constraint on `container_id` survives
  every step.  No later proof unfolds `exec` on a write.
-/
import MinePanel.Servers.Rules

namespace MinePanel.Servers

open MinePanel.Db MinePanel.Docker MinePanel.Lib

/-- The statuses a call passes through, and only that call leaves. -/
def isTransient : ServerStatus → Bool
  | .creating => true
  | .starting => true
  | .stopping => true
  | _ => false

/-! ## §1. Frames. -/

namespace World

@[simp] theorem release_servers (w : World) (p : Pid) : (w.release p).servers = w.servers := by
  unfold release; split <;> rfl

@[simp] theorem release_daemon (w : World) (p : Pid) : (w.release p).daemon = w.daemon := by
  unfold release; split <;> rfl

@[simp] theorem release_clock (w : World) (p : Pid) : (w.release p).clock = w.clock := by
  unfold release; split <;> rfl

@[simp] theorem setRow_daemon (w : World) (id : ServerId) (f : Server → Server)
    (hf : ∀ s, (f s).id = s.id) : (w.setRow id f hf).daemon = w.daemon := rfl

@[simp] theorem setRow_lock (w : World) (id : ServerId) (f : Server → Server)
    (hf : ∀ s, (f s).id = s.id) : (w.setRow id f hf).lock = w.lock := rfl

@[simp] theorem setRunning_servers (w : World) (cid : ContainerId) (b : Bool) :
    (w.setRunning cid b).servers = w.servers := rfl

@[simp] theorem setRunning_lock (w : World) (cid : ContainerId) (b : Bool) :
    (w.setRunning cid b).lock = w.lock := rfl

/-- `setRow`, row by row. -/
theorem setRow_get (w : World) (id : ServerId) (f : Server → Server)
    (hf : ∀ s, (f s).id = s.id) (i : ServerId) :
    (w.setRow id f hf).servers.get i =
      if i = id then (w.servers.get i).map f else w.servers.get i := by
  simp only [setRow, Table.get_modify]
  cases h : w.servers.get i with
  | none => simp
  | some s =>
      have hs : s.id = i := Table.get_key h
      by_cases hi : i = id <;> simp [hs, hi]

end World

/-- The statements that write `servers`. -/
def Act.writesServers : ∀ {β : Type}, Act β → Bool
  | _, .insertServer _ => true
  | _, .updateTransition _ _ _ _ _ => true
  | _, .updateContainerId _ _ => true
  | _, .updateCreateError _ _ => true
  | _, .updateReconciled _ _ _ => true
  | _, .deleteInStatus _ _ => true
  | _, _ => false

/-- **Frame**: every other step leaves the table alone. -/
theorem exec_servers_frame {p : Pid} {β : Type} {a : Act β} {e : Env} {w w' : World} {b : β}
    (h : exec p a e w = some (b, w')) (ha : a.writesServers = false) :
    w'.servers = w.servers := by
  cases a <;> simp only [Act.writesServers, Bool.true_eq_false] at ha <;> clear ha
  case lifecycleLock =>
    simp only [exec] at h
    split at h
    next => cases h; rfl
    next => split at h <;> cases h; rfl
  case dockerCreate server =>
    simp only [exec] at h
    split at h
    next => cases h; rfl
    next => split at h <;> cases h; rfl
  case selectNotStopped =>
    simp only [exec] at h
    split at h <;> cases h
    rfl
  case rollback =>
    simp only [exec, Option.some.injEq, Prod.mk.injEq] at h
    rw [← h.2, World.release_servers]
  all_goals
    simp only [exec, Option.some.injEq, Prod.mk.injEq] at h
    rw [← h.2]
    try split <;> rfl

/-! ## §2. UPDATE of one row. -/

/-- What an UPDATE does: it misses, it breaks the unique constraint, or it
hits. -/
theorem updateRow_cases (p : Pid) (id : ServerId) (hit : Server → Bool)
    (status : Server → ServerStatus) (cid : Server → Option ContainerId) (w : World) :
    ((∀ s, w.servers.get id = some s → hit s = false) ∧
      updateRow p id hit status cid w = (.ok none, w.release p)) ∨
    (∃ s c, w.servers.get id = some s ∧ hit s = true ∧ cid s = some c ∧
      w.containerTaken id c = true ∧
      updateRow p id hit status cid w =
        (.error "servers_container_id_unique", w)) ∨
    (∃ s, w.servers.get id = some s ∧ hit s = true ∧
      (∀ c, cid s = some c → w.containerTaken id c = false) ∧
      updateRow p id hit status cid w =
        (.ok (some { s with status := status s, containerId := cid s, updatedAt := w.clock }),
         (w.setRow id (fun s =>
           { s with status := status s, containerId := cid s, updatedAt := w.clock })
           fun _ => rfl).release p)) := by
  unfold updateRow
  cases hg : w.servers.get id with
  | none => exact Or.inl ⟨fun s hs => by simp at hs, by simp⟩
  | some s =>
      by_cases hh : hit s = true
      · right
        simp only [Option.filter_some, hh, if_true]
        cases hc : cid s with
        | none => exact Or.inr ⟨s, rfl, hh, by simp [hc], by simp [hc]⟩
        | some c =>
            by_cases ht : w.containerTaken id c = true
            · exact Or.inl ⟨s, c, rfl, hh, hc, ht, by simp [ht]⟩
            · refine Or.inr ⟨s, rfl, hh, ?_, by simp [ht, hc]⟩
              intro c' hc'
              rw [hc, Option.some.injEq] at hc'
              rw [← hc']
              exact Bool.eq_false_iff.mpr ht
      · refine Or.inl ⟨fun s' hs' => ?_, by simp [Option.filter_some, hh]⟩
        rw [Option.some.injEq] at hs'
        rw [← hs']
        exact Bool.eq_false_iff.mpr hh

/-- An UPDATE, seen through the lookups: at most the row `id` changes, and only
by the assignment. -/
theorem updateRow_get {p : Pid} {id : ServerId} {hit : Server → Bool}
    {status : Server → ServerStatus} {cid : Server → Option ContainerId} {w w' : World}
    {b : Except String (Option Server)} (h : updateRow p id hit status cid w = (b, w')) :
    w'.servers = w.servers ∨
    ∃ s, w.servers.get id = some s ∧ hit s = true ∧
      (∀ c, cid s = some c → w.containerTaken id c = false) ∧
      ∀ i, w'.servers.get i = if i = id
        then some { s with status := status s, containerId := cid s, updatedAt := w.clock }
        else w.servers.get i := by
  rcases updateRow_cases p id hit status cid w with ⟨_, hu⟩ | ⟨_, _, _, _, _, _, hu⟩ |
    ⟨s, hs, hh, ht, hu⟩
  · rw [hu, Prod.mk.injEq] at h
    exact Or.inl (by rw [← h.2, World.release_servers])
  · rw [hu, Prod.mk.injEq] at h
    exact Or.inl (by rw [← h.2])
  · rw [hu, Prod.mk.injEq] at h
    refine Or.inr ⟨s, hs, hh, ht, fun i => ?_⟩
    rw [← h.2, World.release_servers, World.setRow_get]
    split
    next hi => rw [hi, hs, Option.map_some]
    next => rfl

theorem updateRow_daemon {p : Pid} {id : ServerId} {hit : Server → Bool}
    {status : Server → ServerStatus} {cid : Server → Option ContainerId} {w w' : World}
    {b : Except String (Option Server)} (h : updateRow p id hit status cid w = (b, w')) :
    w'.daemon = w.daemon := by
  rcases updateRow_cases p id hit status cid w with ⟨-, hu⟩ | ⟨_, _, -, -, -, -, hu⟩ |
    ⟨_, -, -, -, hu⟩ <;> rw [hu, Prod.mk.injEq] at h <;> rw [← h.2]
  · rw [World.release_daemon]
  · rw [World.release_daemon, World.setRow_daemon]

/-- DELETE by id and status, row by row. -/
theorem exec_deleteInStatus_get {p : Pid} {id : ServerId} {st : ServerStatus} {e : Env}
    {w w' : World} {b : Unit} (h : exec p (.deleteInStatus id st) e w = some (b, w'))
    (i : ServerId) :
    w'.servers.get i =
      (w.servers.get i).filter fun s => !(decide (s.id = id) && decide (s.status = st)) := by
  simp only [exec, Option.some.injEq, Prod.mk.injEq, true_and] at h
  rw [← h]
  exact Table.get_remove _ _ _

/-- INSERT, row by row. -/
theorem exec_insertServer_get {p : Pid} {n : NewServer} {e : Env} {w w' : World}
    {b : Except String Server} (h : exec p (.insertServer n) e w = some (b, w')) :
    w'.servers = w.servers ∧ (∃ x, b = .error x) ∧ w' = w ∨
    ∃ servers, b = .ok (n.row e.uuid w.clock) ∧ w.servers.get e.uuid = none ∧
      w.servers.insert (n.row e.uuid w.clock) = some servers ∧
      w' = { w with servers := servers }.release p := by
  simp only [exec] at h
  split at h
  · simp only [Option.some.injEq, Prod.mk.injEq] at h
    exact Or.inl ⟨by rw [← h.2], ⟨_, h.1.symm⟩, h.2.symm⟩
  · split at h
    next servers hi =>
      simp only [Option.some.injEq, Prod.mk.injEq] at h
      exact Or.inr ⟨servers, h.1.symm, (Table.insert_rows hi).2, hi, h.2.symm⟩
    next => cases h

/-- `INSERT INTO servers`. -/
def Act.inserts : ∀ {β : Type}, Act β → Bool
  | _, .insertServer _ => true
  | _, _ => false

/-- **What a step can do to the table**: nothing, insert a row without a
container, delete by id and status, or update one row. -/
theorem exec_table {p : Pid} {β : Type} {a : Act β} {e : Env} {w w' : World} {b : β}
    (h : exec p a e w = some (b, w')) :
    w'.servers = w.servers ∨
    (∃ row, a.inserts = true ∧ row.containerId = none ∧
      w.servers.insert row = some w'.servers) ∨
    (∃ id st, w'.servers = w.servers.remove fun s => decide (s.id = id) && decide (s.status = st)) ∨
    ∃ id hit status cid r, updateRow p id hit status cid w = (r, w') := by
  by_cases ha : a.writesServers = false
  · exact Or.inl (exec_servers_frame h ha)
  cases a <;> simp only [Act.writesServers, not_true_eq_false] at ha
  case insertServer n =>
    rcases exec_insertServer_get h with ⟨hs, -⟩ | ⟨servers, -, -, hi, rfl⟩
    · exact Or.inl hs
    · exact Or.inr (Or.inl ⟨_, rfl, rfl, by rw [World.release_servers]; exact hi⟩)
  case deleteInStatus id st =>
    simp only [exec, Option.some.injEq, Prod.mk.injEq, true_and] at h
    exact Or.inr (Or.inr (Or.inl ⟨id, st, by rw [← h]⟩))
  case updateTransition =>
    simp only [exec, Option.some.injEq] at h
    exact Or.inr (Or.inr (Or.inr ⟨_, _, _, _, _, h⟩))
  case updateContainerId =>
    simp only [exec, Option.some.injEq] at h
    exact Or.inr (Or.inr (Or.inr ⟨_, _, _, _, _, h⟩))
  case updateCreateError id c =>
    simp only [exec, Option.some.injEq, Prod.mk.injEq] at h
    exact Or.inr (Or.inr (Or.inr ⟨_, _, _, _, (updateRow _ _ _ _ _ _).1, Prod.ext rfl h.2⟩))
  case updateReconciled row st c =>
    simp only [exec, Option.some.injEq, Prod.mk.injEq] at h
    exact Or.inr (Or.inr (Or.inr ⟨_, _, _, _, (updateRow _ _ _ _ _ _).1, Prod.ext rfl h.2⟩))

/-! ## §3. The UNIQUE constraint on `container_id`. -/

/-- No two rows hold the same container. -/
def World.UniqueContainers (w : World) : Prop :=
  ∀ i j s t c, w.servers.get i = some s → w.servers.get j = some t →
    s.containerId = some c → t.containerId = some c → i = j

theorem World.UniqueContainers.not_taken {w : World} (hw : w.UniqueContainers) {id : ServerId}
    {s : Server} {c : ContainerId} (hs : w.servers.get id = some s)
    (hc : s.containerId = some c) : w.containerTaken id c = false := by
  rw [Bool.eq_false_iff]
  intro ht
  obtain ⟨t, htm, ht⟩ := List.any_eq_true.mp ht
  simp only [Bool.and_eq_true, bne_iff_ne, ne_eq, beq_iff_eq] at ht
  exact ht.1 (hw _ _ _ _ _ (Table.mem_rows.mp htm) hs ht.2 hc)

theorem World.containerTaken_of_get {w : World} {id j : ServerId} {t : Server} {c : ContainerId}
    (ht : w.servers.get j = some t) (hc : t.containerId = some c) (hj : j ≠ id) :
    w.containerTaken id c = true := by
  refine List.any_eq_true.mpr ⟨t, (Table.get_eq_some.mp ht).1, ?_⟩
  simp [Table.get_key ht, hj, hc]

theorem UniqueContainers.of_servers {w w' : World} (hw : w.UniqueContainers)
    (h : w'.servers = w.servers) : w'.UniqueContainers := by
  unfold World.UniqueContainers
  rw [h]
  exact hw

theorem updateRow_uniqueContainers {p : Pid} {id : ServerId} {hit : Server → Bool}
    {status : Server → ServerStatus} {cid : Server → Option ContainerId} {w w' : World}
    {b : Except String (Option Server)} (h : updateRow p id hit status cid w = (b, w'))
    (hw : w.UniqueContainers) : w'.UniqueContainers := by
  rcases updateRow_get h with hs | ⟨s, hs, -, htaken, hget⟩
  · exact UniqueContainers.of_servers hw hs
  · intro i j x y c hx hy hxc hyc
    rw [hget] at hx hy
    -- the row written and any other row cannot agree: the constraint was checked
    split at hx <;> split at hy
    next hi hj => rw [hi, hj]
    next hi hj =>
      rw [Option.some.injEq] at hx
      have := htaken c (by rw [← hxc, ← hx])
      rw [World.containerTaken_of_get hy hyc hj] at this
      cases this
    next hi hj =>
      rw [Option.some.injEq] at hy
      have := htaken c (by rw [← hyc, ← hy])
      rw [World.containerTaken_of_get hx hxc hi] at this
      cases this
    next => exact hw _ _ _ _ _ hx hy hxc hyc

/-- **Every step keeps the UNIQUE constraint.** -/
theorem exec_uniqueContainers {p : Pid} {β : Type} {a : Act β} {e : Env} {w w' : World} {b : β}
    (h : exec p a e w = some (b, w')) (hw : w.UniqueContainers) : w'.UniqueContainers := by
  rcases exec_table h with hs | ⟨row, -, hrow, hi⟩ | ⟨id, st, hs⟩ | ⟨id, hit, status, cid, r, hu⟩
  · exact UniqueContainers.of_servers hw hs
  · intro i j x y c hx hy hxc hyc
    rw [Table.get_insert hi] at hx hy
    -- the new row has no container yet
    split at hx
    · rw [Option.some.injEq] at hx
      rw [← hx, hrow] at hxc
      cases hxc
    · split at hy
      · rw [Option.some.injEq] at hy
        rw [← hy, hrow] at hyc
        cases hyc
      · exact hw _ _ _ _ _ hx hy hxc hyc
  · intro i j x y c hx hy hxc hyc
    rw [hs, Table.get_remove, Option.filter_eq_some_iff] at hx hy
    exact hw _ _ _ _ _ hx.1 hy.1 hxc hyc
  · exact updateRow_uniqueContainers hu hw

theorem sampleWorld_unique (status : ServerStatus) (running : Bool) :
    (sampleWorld status running).UniqueContainers := by
  intro i j s t c hs ht _ _
  have hi := Table.get_eq_some.mp hs
  have hj := Table.get_eq_some.mp ht
  simp only [sampleWorld, List.mem_singleton] at hi hj
  rw [← hi.2, ← hj.2, hi.1, hj.1]

/-! ## §4. The compare-and-set of the lifecycle. -/

/-- The row as a successful transition leaves it. -/
def Server.moved (s : Server) (status : ServerStatus) (now : Timestamp) : Server :=
  { s with status := status, updatedAt := now }

/-- **The compare-and-set**: it fires exactly where the row has the expected
status and container, and then only the status and the timestamp of that row
change.  Under the unique constraint it cannot fail. -/
theorem exec_updateTransition {p : Pid} {id : ServerId} {s s' : ServerStatus}
    {cid : Option ContainerId} {e : Env} {w w' : World} {b : Except String (Option Server)}
    (h : exec p (.updateTransition id s s' cid none) e w = some (b, w'))
    (hw : w.UniqueContainers) :
    (b = .ok none ∧ w'.servers = w.servers ∧
      ∀ r, w.servers.get id = some r → ¬ (r.status = s ∧ r.containerId = cid)) ∨
    ∃ r, w.servers.get id = some r ∧ r.status = s ∧ r.containerId = cid ∧
      b = .ok (some (Server.moved r s' w.clock)) ∧
      ∀ i, w'.servers.get i =
        if i = id then some (Server.moved r s' w.clock) else w.servers.get i := by
  simp only [exec, Option.some.injEq] at h
  rcases updateRow_cases p id (fun x => decide (x.status = s) && decide (x.containerId = cid))
      (fun _ => s') (fun x => (none : Option (Option ContainerId)).getD x.containerId) w with
    ⟨hm, hu⟩ | ⟨r, c, hr, _, hc, ht, _⟩ | ⟨r, hr, hh, -, hu⟩
  · rw [hu, Prod.mk.injEq] at h
    refine Or.inl ⟨h.1.symm, by rw [← h.2, World.release_servers], fun r hr hrs => ?_⟩
    have := hm r hr
    simp [hrs.1, hrs.2] at this
  · rw [hw.not_taken hr hc] at ht
    cases ht
  · rw [hu, Prod.mk.injEq] at h
    simp only [Bool.and_eq_true, decide_eq_true_eq] at hh
    refine Or.inr ⟨r, hr, hh.1, hh.2, h.1.symm, fun i => ?_⟩
    rw [← h.2, World.release_servers, World.setRow_get]
    split
    next hi =>
      rw [hi, hr, Option.map_some]
      rfl
    next => rfl

/-! ## §5. What stays when nothing is created. -/

/-- Basic steps, row deletions and container removals. -/
def Act.shrinks : ∀ {β : Type}, Act β → Bool
  | _, .deleteInStatus _ _ => true
  | _, .dockerRemove _ => true
  | _, a => a.basic

/-- A row that is there after such a step was there before, with the same
container. -/
theorem exec_containerId_stable {p : Pid} {β : Type} {a : Act β} {e : Env} {w w' : World} {b : β}
    (h : exec p a e w = some (b, w')) (ha : a.shrinks = true) (hw : w.UniqueContainers)
    {i : ServerId} {s' : Server} (hs' : w'.servers.get i = some s') :
    ∃ s, w.servers.get i = some s ∧ s.containerId = s'.containerId := by
  by_cases hf : a.writesServers = false
  · rw [exec_servers_frame h hf] at hs'
    exact ⟨s', hs', rfl⟩
  · cases a <;> simp only [Act.writesServers, not_true_eq_false] at hf
    case deleteInStatus id st =>
      rw [exec_deleteInStatus_get h, Option.filter_eq_some_iff] at hs'
      exact ⟨s', hs'.1, rfl⟩
    case updateTransition id s t cid new =>
      have hnew : new = none := by simpa [Act.shrinks, Act.basic, Act.plain, Act.silent, Act.inert] using ha
      subst hnew
      rcases exec_updateTransition h hw with ⟨-, hs, -⟩ | ⟨r, hr, -, -, -, hget⟩
      · rw [hs] at hs'
        exact ⟨s', hs', rfl⟩
      · rw [hget] at hs'
        split at hs'
        next hi =>
          rw [Option.some.injEq] at hs'
          exact ⟨r, hi ▸ hr, by rw [← hs']; rfl⟩
        next => exact ⟨s', hs', rfl⟩
    all_goals exact absurd ha (by simp [Act.shrinks, Act.basic, Act.plain, Act.silent, Act.inert])

/-- A container that is not there is not there after such a step. -/
theorem exec_absent {p : Pid} {β : Type} {a : Act β} {e : Env} {w w' : World} {b : β}
    (h : exec p a e w = some (b, w')) (ha : a.shrinks = true) {cid : ContainerId}
    (hc : w.daemon.get cid = none) : w'.daemon.get cid = none := by
  cases a <;> simp only [Act.shrinks, Act.basic, Act.plain, Act.silent, Act.inert, Bool.or_self,
    Bool.false_eq_true] at ha
  case lifecycleLock =>
    simp only [exec] at h
    split at h
    next => cases h; exact hc
    next => split at h <;> cases h; exact hc
  case selectNotStopped =>
    simp only [exec] at h
    split at h <;> cases h
    exact hc
  case rollback =>
    simp only [exec, Option.some.injEq, Prod.mk.injEq] at h
    rw [← h.2, World.release_daemon]
    exact hc
  case updateTransition id s t c new =>
    simp only [exec, Option.some.injEq] at h
    rw [updateRow_daemon h]
    exact hc
  case dockerRemove c =>
    simp only [exec, Option.some.injEq, Prod.mk.injEq] at h
    rw [← h.2]
    split
    · simp [hc]
    · exact hc
  case dockerStart c =>
    simp only [exec, Option.some.injEq, Prod.mk.injEq] at h
    rw [← h.2]
    split
    · simp [World.setRunning, hc]
    · exact hc
  case dockerStop c t =>
    simp only [exec, Option.some.injEq, Prod.mk.injEq] at h
    rw [← h.2]
    split
    · simp [World.setRunning, hc]
    · exact hc
  all_goals
    simp only [exec, Option.some.injEq, Prod.mk.injEq] at h
    rw [← h.2]
    exact hc

/-! ## §6. The containers. -/

/-- Starting or stopping a container, seen container by container. -/
theorem World.isRunning_setRunning (w : World) (cid c : ContainerId) (running : Bool) :
    (w.setRunning cid running).isRunning c =
      if c = cid ∧ (w.daemon.get c).isSome = true then running else w.isRunning c := by
  unfold World.isRunning
  simp only [World.setRunning, Table.get_modify]
  cases h : w.daemon.get c with
  | none => simp
  | some x =>
      have hx : x.id = c := Table.get_key h
      by_cases hc : c = cid <;> simp [hx, hc]

/-- **Frame**: only a start, a stop or a removal changes what runs; a new
container does not run. -/
theorem exec_isRunning_frame {p : Pid} {β : Type} {a : Act β} {e : Env} {w w' : World} {b : β}
    (h : exec p a e w = some (b, w')) (ha : a.mutates = none) (c : ContainerId) :
    w'.isRunning c = w.isRunning c := by
  have hsame : w'.daemon = w.daemon → w'.isRunning c = w.isRunning c := by
    intro hd
    unfold World.isRunning
    rw [hd]
  cases a <;> simp only [Act.mutates, reduceCtorEq] at ha
  case dockerCreate server =>
    simp only [exec] at h
    split at h
    next => cases h; rfl
    next made _ =>
      split at h
      next daemon hi =>
        cases h
        unfold World.isRunning
        dsimp only
        rw [Table.get_insert hi]
        by_cases hc : made = c
        · have hnew : w.daemon.get c = none := hc ▸ (Table.insert_rows hi).2
          simp [hc, hnew]
        · simp [hc]
      next => cases h
  case lifecycleLock =>
    simp only [exec] at h
    split at h
    next => cases h; rfl
    next => split at h <;> cases h; rfl
  case selectNotStopped =>
    simp only [exec] at h
    split at h <;> cases h
    rfl
  case insertServer n =>
    rcases exec_insertServer_get h with ⟨-, -, rfl⟩ | ⟨servers, -, -, -, rfl⟩
    · rfl
    · exact hsame (World.release_daemon _ _)
  case updateTransition =>
    simp only [exec, Option.some.injEq] at h
    exact hsame (updateRow_daemon h)
  case updateContainerId =>
    simp only [exec, Option.some.injEq] at h
    exact hsame (updateRow_daemon h)
  case updateCreateError =>
    simp only [exec, Option.some.injEq, Prod.mk.injEq] at h
    exact hsame (updateRow_daemon (Prod.ext rfl h.2))
  case updateReconciled =>
    simp only [exec, Option.some.injEq, Prod.mk.injEq] at h
    exact hsame (updateRow_daemon (Prod.ext rfl h.2))
  case rollback =>
    simp only [exec, Option.some.injEq, Prod.mk.injEq] at h
    exact hsame (by rw [← h.2, World.release_daemon])
  all_goals
    simp only [exec, Option.some.injEq, Prod.mk.injEq] at h
    exact hsame (by rw [← h.2])

end MinePanel.Servers
