/-
  MinePanel.Servers.Reconciliation
  ────────────────────────────────
  **THE STARTUP RECONCILIATION.**

  `onModuleInit` takes a snapshot of the rows that are not STOPPED, asks the
  daemon about each of them, and then writes by compare-and-set on the whole
  snapshot row, `updatedAt` in milliseconds included.  The statement is about
  one such call, with any other writer moving between its statements.

    * `Daemon` — what the daemon answers, container by container;
    * `Daemon.report` — what it thereby says about a row;
    * `Reconciled` — nothing where a lookup was unavailable, every other row
      settled as reported, and no row of another writer overwritten;
    * `startup_reconciliation` — and a second run changes nothing.
-/
import MinePanel.Servers.Steps
import MinePanel.Lib.Interference

namespace MinePanel.Servers

open MinePanel.Db MinePanel.Docker MinePanel.Lib Prog

/-! ## §1. The daemon. -/

/-- A state of the daemon: its answer to every inspection and every lookup. -/
structure Daemon where
  inspect : ContainerId → Except DockerError InspectInfo
  list : ServerId → Except DockerError (List ContainerSummary)

namespace Daemon

/-- The answers of `D`; the rest of the environment is free. -/
def env (D : Daemon) {β : Type} (a : Act β) (e : Env) : Env :=
  match a with
  | .dockerInspect cid => { e with inspected := D.inspect cid }
  | .dockerList id => { e with listed := D.list id }
  | _ => e

/-- RUNNING or STOPPED. -/
def statusOf (running : Bool) : ServerStatus := if running then .running else .stopped

/-- What the lookup by label says. -/
def managed (D : Daemon) (id : ServerId) : ReconciliationOutcome :=
  match D.list id with
  | .error _ => .unavailable
  | .ok [] => .state .stopped none
  | .ok (container :: _) =>
    match container.id with
    | none => .state .stopped none
    | some cid => .state (statusOf (container.state == "running")) (some cid)

/-- What the daemon says about a row: its container where it is found, the
container with its label where it is not, "unchanged" where the inspection
failed in any other way than by the daemon being unavailable. -/
def report (D : Daemon) (row : Server) : ReconciliationOutcome :=
  match row.containerId with
  | none => D.managed row.id
  | some cid =>
    match D.inspect cid with
    | .ok info => .state (statusOf (info.running.getD false)) (some info.id)
    | .error error =>
      if isDaemonUnreachable error || error.gatewayStatus then .unavailable
      else if error.statusCode = some 404 then D.managed row.id
      else .unchanged

section

variable (D : Daemon) {row : Server} {cid : ContainerId}

theorem report_none (h : row.containerId = none) : D.report row = D.managed row.id := by
  unfold report
  rw [h]

theorem report_ok (h : row.containerId = some cid) {info : InspectInfo}
    (hi : D.inspect cid = .ok info) :
    D.report row = .state (statusOf (info.running.getD false)) (some info.id) := by
  unfold report
  rw [h]
  simp only [hi]

theorem report_error (h : row.containerId = some cid) {error : DockerError}
    (hi : D.inspect cid = .error error) :
    D.report row = if isDaemonUnreachable error = true ∨ error.gatewayStatus = true
      then .unavailable
      else if error.statusCode = some 404 then D.managed row.id else .unchanged := by
  unfold report
  rw [h]
  simp only [hi, Bool.or_eq_true]

end

/-- An inspection reports the container it was asked for; a container that is
listed is not "not found", and one listed as running is running. -/
structure Honest (D : Daemon) : Prop where
  own : ∀ {cid : ContainerId} {info : InspectInfo}, D.inspect cid = .ok info → info.id = cid
  listed : ∀ {id : ServerId} {cs : List ContainerSummary} {x : ContainerSummary}
    {cid : ContainerId}, D.list id = .ok cs → x ∈ cs → x.id = some cid →
    (∀ error, D.inspect cid = .error error → error.statusCode ≠ some 404) ∧
    ∀ info, D.inspect cid = .ok info → x.state = "running" → info.running = some true

end Daemon

/-! ## §2. One call and the other writers. -/

/-- The rows that two tables differ in. -/
def World.changed (w w' : World) : List ServerId :=
  ((w.servers.rows ++ w'.servers.rows).map Server.id).filter fun id =>
    w.servers.get id ≠ w'.servers.get id

/-- The world with what a reconciliation is judged by. -/
structure Watched where
  world : World
  /-- The table at its SELECT. -/
  seen : Option Servers
  /-- The rows that another writer has changed since then. -/
  touched : List ServerId
  /-- The rows it has changed itself. -/
  wrote : List ServerId
  /-- The touched rows it has changed itself. -/
  overwrote : List ServerId
  /-- The rows whose reported container another row held when it was written. -/
  held : List ServerId

namespace Watched

/-- Before the call. -/
def begin (w : World) : Watched := ⟨w, none, [], [], [], []⟩

/-- The others have moved the world to `w`. -/
def moved (h : Watched) (w : World) : Watched :=
  { h with
    world := w
    touched := if h.seen.isSome then h.world.changed w ++ h.touched else h.touched }

/-- No row changed after the snapshot carries the millisecond it had there. -/
def Distinct (h : Watched) (w : World) : Prop :=
  ∀ T, h.seen = some T → ∀ id s s', T.get id = some s → w.servers.get id = some s' →
    h.world.servers.get id ≠ some s' → s'.updatedAt / 1000 ≠ s.updatedAt / 1000

/-- The call itself has moved the world to `w` by `a`. -/
def record (h : Watched) {β : Type} (a : Act β) (w : World) : Watched where
  world := w
  seen := match a with
    | .selectNotStopped => some h.world.servers
    | _ => h.seen
  touched := h.touched
  wrote := h.world.changed w ++ h.wrote
  overwrote := (h.world.changed w).filter (· ∈ h.touched) ++ h.overwrote
  held := match a with
    | .updateReconciled row _ (some cid) =>
        if h.world.containerTaken row.id cid then row.id :: h.held else h.held
    | _ => h.held

end Watched

/-- The other writers. -/
def Around (h h' : Watched) : Prop := ∃ w, h.Distinct w ∧ h' = h.moved w

/-- No other writer. -/
def Alone (h h' : Watched) : Prop := h' = h

/-- One action of the call `p`, with the answers of `D`. -/
def observe (D : Daemon) (p : Pid) {β : Type} (a : Act β) (e : Env) (h : Watched) :
    Option (β × Watched) :=
  (exec p a (D.env a e) h.world).map fun r => (r.1, h.record a r.2)

def Observed (D : Daemon) (p : Pid) (β : Type) (a : Act β) (h : Watched) (b : β)
    (h' : Watched) : Prop := ∃ e, observe D p a e h = some (b, h')

/-! ## §3. The property. -/

/-- The row `s` of the snapshot is as the daemon reports it; it is as it was
where it is exempt, or nothing is reported. -/
def AsReported (D : Daemon) (exempt : List ServerId) (w : World) (s : Server) : Prop :=
  match D.report s with
  | .state st cid => s.id ∈ exempt ∧ w.servers.get s.id = some s ∨
      ∃ s', w.servers.get s.id = some s' ∧ s'.status = st ∧ s'.containerId = cid
  | _ => w.servers.get s.id = some s

/-- What a reconciliation with the snapshot `T` has come to at `h`. -/
structure Reconciled (D : Daemon) (exempt : List ServerId) (T : Servers) (h : Watched) : Prop where
  /-- A lookup was unavailable: no row is changed. -/
  unavailable : ∀ s ∈ T.rows, s.status ≠ .stopped → D.report s = .unavailable → h.wrote = []
  /-- Every other row of the snapshot that no one else changed is settled. -/
  settled : (∀ s ∈ T.rows, s.status ≠ .stopped → D.report s ≠ .unavailable) →
    ∀ s ∈ T.rows, s.status ≠ .stopped → s.id ∉ h.touched → AsReported D exempt h.world s
  /-- STOPPED rows stay as they were. -/
  stopped : ∀ s ∈ T.rows, s.status = .stopped → s.id ∉ h.touched →
    h.world.servers.get s.id = some s
  /-- No row that another writer changed since the snapshot is overwritten. -/
  respected : h.overwrote = []

/-! ## §4. The code of the reconciliation. -/

theorem World.mem_changed {w w' : World} {id : ServerId} :
    id ∈ w.changed w' ↔ w.servers.get id ≠ w'.servers.get id := by
  unfold World.changed
  simp only [List.mem_filter, decide_eq_true_eq, and_iff_right_iff_imp]
  intro h
  -- one of the two tables has the row
  cases hs : w.servers.get id with
  | some s =>
      obtain ⟨hm, hk⟩ := Table.get_eq_some.mp hs
      exact List.mem_map.mpr ⟨s, List.mem_append_left _ hm, hk⟩
  | none =>
      cases hs' : w'.servers.get id with
      | none =>
          rw [hs, hs'] at h
          exact absurd rfl h
      | some s =>
          obtain ⟨hm, hk⟩ := Table.get_eq_some.mp hs'
          exact List.mem_map.mpr ⟨s, List.mem_append_right _ hm, hk⟩

theorem World.changed_of_servers {w w' : World} (h : w'.servers = w.servers) :
    w.changed w' = [] := by
  refine List.eq_nil_iff_forall_not_mem.mpr fun id hid => ?_
  rw [World.mem_changed, h] at hid
  exact hid rfl

section Code

variable {D : Daemon} {p : Pid} {R : Watched → Watched → Prop} {h h' : Watched}

/-- An inspection. -/
theorem observed_inspect {cid : ContainerId} {b : Except DockerError InspectInfo}
    (hx : Observed D p _ (.dockerInspect cid) h b h') : b = D.inspect cid ∧ h' = h := by
  obtain ⟨e, hx⟩ := hx
  cases hx
  refine ⟨rfl, ?_⟩
  simp [Watched.record, World.changed_of_servers]

/-- A lookup. -/
theorem observed_list {id : ServerId} {b : Except DockerError (List ContainerSummary)}
    (hx : Observed D p _ (.dockerList id) h b h') : b = D.list id ∧ h' = h := by
  obtain ⟨e, hx⟩ := hx
  cases hx
  refine ⟨rfl, ?_⟩
  simp [Watched.record, World.changed_of_servers]

variable {K : Watched → Prop} {E : Exn → Watched → Prop}

theorem wp_lookup (hK : ∀ h h', K h → R h h' → K h') {row : Server} (hh : K h) :
    wp (surrounded R (Observed D p)) (fun o h => o = D.managed row.id ∧ K h) E
      (reconcileLookup row) h := by
  refine ⟨trivial, fun b h' hb => ?_⟩
  obtain ⟨h₁, hR, hx⟩ := hb
  obtain ⟨rfl, rfl⟩ := observed_list hx
  have h₁ := hK h h' hh hR
  unfold Daemon.managed Daemon.statusOf
  rcases D.list row.id with _ | _ | ⟨⟨_ | cid, state⟩, _⟩
  · exact ⟨rfl, h₁⟩
  · exact ⟨rfl, h₁⟩
  · exact ⟨rfl, h₁⟩
  · exact ⟨rfl, h₁⟩

/-- **What `reconcileRow` finds is what the daemon reports.** -/
theorem wp_report (hK : ∀ h h', K h → R h h' → K h') {row : Server} (hh : K h) :
    wp (surrounded R (Observed D p)) (fun o h => o = D.report row ∧ K h) E
      (reconcileRow row) h := by
  unfold reconcileRow
  cases hc : row.containerId with
  | none =>
      rw [D.report_none hc]
      exact wp_lookup hK hh
  | some cid =>
      refine ⟨trivial, fun b h' hb => ?_⟩
      obtain ⟨h₁, hR, hx⟩ := hb
      obtain ⟨rfl, rfl⟩ := observed_inspect hx
      have hh' := hK h h' hh hR
      cases hi : D.inspect cid with
      | ok info => exact ⟨(D.report_ok hc hi).symm, hh'⟩
      | error error =>
          rw [D.report_error hc hi]
          show wp _ _ _ (if (handleDockerError error "container").isServiceUnavailable then _
            else if (handleDockerError error "container").isNotFound then _ else _) h'
          simp only [handleDockerError_unavailable_iff, handleDockerError_notFound_iff]
          split
          · exact ⟨rfl, hh'⟩
          · split
            · exact wp_lookup hK hh'
            · exact ⟨rfl, hh'⟩

theorem wp_reports (hK : ∀ h h', K h → R h h' → K h') {rows : List Server} (hh : K h) :
    wp (surrounded R (Observed D p))
      (fun os h => os = rows.map (fun s => (s, D.report s)) ∧ K h) E (reconcileRows rows) h := by
  induction rows generalizing h with
  | nil => exact ⟨rfl, hh⟩
  | cons row rest ih =>
      refine wp_seq (wp_mono _ _ ?_ (fun _ _ he => he) (wp_report hK hh))
      rintro o h₁ ⟨rfl, hh₁⟩
      refine wp_seq (wp_mono _ _ ?_ (fun _ _ he => he) (ih hh₁))
      rintro os h₂ ⟨rfl, hh₂⟩
      exact ⟨rfl, hh₂⟩

/-- The writes, for an invariant `J` of the rows that are still to come. -/
theorem wp_writes {J : List Server → Watched → Prop}
    (hR : ∀ todo h h', J todo h → R h h' → J todo h')
    (hskip : ∀ s todo h, J (s :: todo) h →
      (∀ st cid, D.report s = .state st cid → s.status = st ∧ s.containerId = cid) → J todo h)
    (hwrite : ∀ s todo st cid h b h', J (s :: todo) h → D.report s = .state st cid →
      ¬ (s.status = st ∧ s.containerId = cid) →
      Observed D p _ (.updateReconciled s st cid) h b h' → J todo h')
    {todo : List Server} (hh : J todo h) :
    wp (surrounded R (Observed D p)) (fun _ h => J [] h) (fun _ h => J [] h)
      (reconcileWrites (todo.map fun s => (s, D.report s))) h := by
  induction todo generalizing h with
  | nil => exact hh
  | cons s todo ih =>
      rw [List.map_cons]
      cases hreport : D.report s with
      | unavailable => exact ih (hskip s todo h hh (by simp [hreport]))
      | unchanged => exact ih (hskip s todo h hh (by simp [hreport]))
      | state st cid =>
          unfold reconcileWrites
          split
          next hdiff =>
            refine ⟨trivial, fun b h' hb => ?_⟩
            obtain ⟨h₁, hr, hx⟩ := hb
            have hrest := ih (hwrite s todo st cid h₁ b h' (hR _ _ _ hh hr) hreport hdiff hx)
            cases b with
            | ok _ => exact hrest
            | error x =>
                -- the other writes are issued all the same
                refine wp_seq (wp_seq ((wp_tryCatch _ _ _).mpr ?_))
                exact wp_mono _ _ (fun _ _ hq => hq) (fun _ _ hq => hq) hrest
          next hsame =>
            refine ih (hskip s todo h hh fun st' cid' hst => ?_)
            rw [hreport] at hst
            cases hst
            exact not_not.mp hsame

/-- **The call**: for the snapshot `T` an invariant `K T` from the SELECT to the
last lookup, and an invariant `J T` of the writes. -/
theorem wp_reconciliation {K : Servers → Watched → Prop}
    {J : Servers → List Server → Watched → Prop} {Z : Watched → Prop}
    (hK : ∀ T h h', K T h → R h h' → K T h')
    (hR : ∀ T todo h h', J T todo h → R h h' → J T todo h')
    (hskip : ∀ T s todo h, J T (s :: todo) h →
      (∀ st cid, D.report s = .state st cid → s.status = st ∧ s.containerId = cid) → J T todo h)
    (hwrite : ∀ T s todo st cid h b h', J T (s :: todo) h → D.report s = .state st cid →
      ¬ (s.status = st ∧ s.containerId = cid) →
      Observed D p _ (.updateReconciled s st cid) h b h' → J T todo h')
    (hselect : ∀ h' rows h'', R h h' → Observed D p _ .selectNotStopped h' rows h'' →
      ∃ T, K T h'' ∧ (∀ s ∈ rows, D.report s = .unavailable → ∀ h, K T h → Z h) ∧
        ((∀ s ∈ rows, D.report s ≠ .unavailable) → ∀ h, K T h → J T rows h))
    (hend : ∀ T h, J T [] h → Z h) :
    wp (surrounded R (Observed D p)) (fun _ => Z) (fun _ => Z) onModuleInit h := by
  refine ⟨trivial, fun rows h₁ hb => ?_⟩
  obtain ⟨h₀, hr, hx⟩ := hb
  obtain ⟨T, hK₁, hun, hav⟩ := hselect h₀ rows h₁ hr hx
  show wp _ _ _ ((reconcileRows rows).bind _) _
  refine wp_seq (wp_mono _ _ ?_ (fun _ _ he => he) (wp_reports (hK T) hK₁))
  rintro os h₂ ⟨rfl, hK₂⟩
  split
  next hany =>
    obtain ⟨ro, hro, hunavailable⟩ := List.any_eq_true.mp hany
    obtain ⟨s, hs, rfl⟩ := List.mem_map.mp hro
    exact hun s hs (by simpa using hunavailable) h₂ hK₂
  next hany =>
    have hall : ∀ s ∈ rows, D.report s ≠ .unavailable := by
      intro s hs hu
      refine hany (List.any_eq_true.mpr ⟨_, List.mem_map.mpr ⟨s, hs, rfl⟩, ?_⟩)
      simpa using hu
    exact wp_mono _ _ (fun _ h hh => hend T h hh) (fun _ h hh => hend T h hh)
      (wp_writes (hR T) (hskip T) (hwrite T) (hav hall h₂ hK₂))

end Code

/-! ## §5. The writes. -/

/-- The row is still the one of the snapshot, as far as the UPDATE compares. -/
def Unmoved (s t : Server) : Prop :=
  t.status = s.status ∧ t.containerId = s.containerId ∧
    t.updatedAt / 1000 = s.updatedAt / 1000

/-- **What a write does**: it misses, another row holds the container, or it
hits; only the row itself changes. -/
theorem observed_write {D : Daemon} {p : Pid} {h h' : Watched} {s : Server} {st : ServerStatus}
    {cid : Option ContainerId} {b : Except String Unit}
    (hx : Observed D p _ (.updateReconciled s st cid) h b h') :
    h' = h.record (.updateReconciled s st cid) h'.world ∧
    ((∀ t, h.world.servers.get s.id = some t → ¬ Unmoved s t) ∧
        h'.world.servers = h.world.servers ∨
      (∃ c, cid = some c ∧ h.world.containerTaken s.id c = true ∧
        h'.world.servers = h.world.servers) ∨
      ∃ t, h.world.servers.get s.id = some t ∧ Unmoved s t ∧
        (∀ c, cid = some c → h.world.containerTaken s.id c = false) ∧
        ∀ i, h'.world.servers.get i = if i = s.id
          then some { t with status := st, containerId := cid, updatedAt := h.world.clock }
          else h.world.servers.get i) := by
  obtain ⟨e, hx⟩ := hx
  obtain ⟨⟨b', w'⟩, hexec, hr⟩ := Option.map_eq_some_iff.mp hx
  cases hr
  refine ⟨rfl, ?_⟩
  simp only [exec, Option.some.injEq, Prod.mk.injEq] at hexec
  have hw : w' = (updateRow p s.id (fun t => decide (t.status = s.status) &&
      decide (t.containerId = s.containerId) && decide (t.updatedAt / 1000 = s.updatedAt / 1000))
      (fun _ => st) (fun _ => cid) h.world).2 := hexec.2.symm
  have hunmoved : ∀ t : Server, (decide (t.status = s.status) &&
      decide (t.containerId = s.containerId) &&
      decide (t.updatedAt / 1000 = s.updatedAt / 1000)) = true ↔ Unmoved s t := by
    intro t
    simp [Unmoved, and_assoc]
  show (_ ∧ w'.servers = _) ∨ (∃ c, _ ∧ _ ∧ w'.servers = _) ∨ ∃ t, _ ∧ _ ∧ _ ∧
    ∀ i, w'.servers.get i = _
  rcases updateRow_cases p s.id (fun t => decide (t.status = s.status) &&
      decide (t.containerId = s.containerId) && decide (t.updatedAt / 1000 = s.updatedAt / 1000))
      (fun _ => st) (fun _ => cid) h.world with
    ⟨hm, hu⟩ | ⟨t, c, ht, hh, hc, htaken, hu⟩ | ⟨t, ht, hh, htaken, hu⟩
  · refine Or.inl ⟨fun t ht hsame => ?_, by rw [hw, hu, World.release_servers]⟩
    have := hm t ht
    rw [(hunmoved t).mpr hsame] at this
    cases this
  · exact Or.inr (Or.inl ⟨c, hc, htaken, by rw [hw, hu]⟩)
  · refine Or.inr (Or.inr ⟨t, ht, (hunmoved t).mp hh, htaken, fun i => ?_⟩)
    rw [hw, hu, World.release_servers, World.setRow_get]
    split
    next hi => rw [hi, ht, Option.map_some]
    next => rfl

/-- From the SELECT to the last lookup: no row is written, and only touched rows
differ from the snapshot `T`. -/
structure Reading (T : Servers) (h : Watched) : Prop where
  seen : h.seen = some T
  fresh : ∀ s ∈ T.rows, s.id ∉ h.touched → h.world.servers.get s.id = some s
  stale : ∀ s ∈ T.rows, s.id ∈ h.touched → ∀ t, h.world.servers.get s.id = some t →
    t.updatedAt / 1000 ≠ s.updatedAt / 1000
  unwritten : h.wrote = []
  respected : h.overwrote = []

/-- While the rows `todo` are still to be written. -/
structure Midway (D : Daemon) (T : Servers) (todo : List Server) (h : Watched) : Prop where
  seen : h.seen = some T
  rows : ∀ s ∈ todo, s ∈ T.rows ∧ s.status ≠ .stopped
  nodup : (todo.map Server.id).Nodup
  fresh : ∀ s ∈ todo, s.id ∉ h.touched → h.world.servers.get s.id = some s
  stale : ∀ s ∈ todo, s.id ∈ h.touched → ∀ t, h.world.servers.get s.id = some t →
    t.updatedAt / 1000 ≠ s.updatedAt / 1000
  stopped : ∀ s ∈ T.rows, s.status = .stopped → s.id ∉ h.touched →
    h.world.servers.get s.id = some s
  settled : ∀ s ∈ T.rows, s.status ≠ .stopped → s ∉ todo → s.id ∉ h.touched →
    AsReported D h.held h.world s
  respected : h.overwrote = []

theorem AsReported.congr {D : Daemon} {x x' : List ServerId} {w w' : World} {s : Server}
    (hs : AsReported D x w s) (hx : s.id ∈ x → s.id ∈ x')
    (hw : w'.servers.get s.id = w.servers.get s.id) : AsReported D x' w' s := by
  unfold AsReported at hs ⊢
  rw [hw]
  cases hreport : D.report s with
  | state st cid =>
      rw [hreport] at hs
      rcases hs with ⟨hs, hg⟩ | hs
      · exact Or.inl ⟨hx hs, hg⟩
      · exact Or.inr hs
  | unavailable =>
      rw [hreport] at hs
      exact hs
  | unchanged =>
      rw [hreport] at hs
      exact hs

section Others

variable {D : Daemon} {T : Servers} {todo : List Server} {h h' : Watched}

/-- What another writer leaves of a row: untouched it is as before, touched it
has another millisecond. -/
theorem Around.row (hr : Around h h') (hseen : h.seen = some T) {s : Server}
    (hs : s ∈ T.rows) :
    (s.id ∉ h'.touched → s.id ∉ h.touched ∧
      h'.world.servers.get s.id = h.world.servers.get s.id) ∧
    (s.id ∈ h'.touched → ∀ t, h'.world.servers.get s.id = some t →
      (s.id ∈ h.touched ∧ h.world.servers.get s.id = some t) ∨
        t.updatedAt / 1000 ≠ s.updatedAt / 1000) := by
  obtain ⟨w, hdistinct, rfl⟩ := hr
  have htouched : (h.moved w).touched = h.world.changed w ++ h.touched := by
    simp [Watched.moved, hseen]
  rw [htouched]
  constructor
  · intro hn
    rw [List.mem_append, not_or, World.mem_changed, not_not] at hn
    exact ⟨hn.2, hn.1.symm⟩
  · intro ht t hg
    have hg : w.servers.get s.id = some t := hg
    by_cases hc : h.world.servers.get s.id = some t
    · -- the row is not among the changed ones
      refine Or.inl ⟨?_, hc⟩
      rw [List.mem_append, World.mem_changed, hc, hg] at ht
      exact ht.resolve_left fun hne => hne rfl
    · exact Or.inr (hdistinct T hseen s.id s t (Table.mem_rows.mp hs) hg hc)

theorem Reading.around (hh : Reading T h) (hr : Around h h') : Reading T h' := by
  have hrow := fun s hs => hr.row (T := T) (s := s) hh.seen hs
  obtain ⟨w, -, rfl⟩ := id hr
  refine ⟨hh.seen, fun s hs hn => ?_, fun s hs ht t hg => ?_, hh.unwritten, hh.respected⟩
  · obtain ⟨hn, hg⟩ := (hrow s hs).1 hn
    rw [hg]
    exact hh.fresh s hs hn
  · rcases (hrow s hs).2 ht t hg with ⟨ht, hg⟩ | hne
    · exact hh.stale s hs ht t hg
    · exact hne

theorem Midway.around (hh : Midway D T todo h) (hr : Around h h') : Midway D T todo h' := by
  have hrow := fun s hs => hr.row (T := T) (s := s) hh.seen hs
  obtain ⟨w, -, rfl⟩ := id hr
  refine ⟨hh.seen, hh.rows, hh.nodup, fun s hs hn => ?_, fun s hs ht t hg => ?_,
    fun s hs hst hn => ?_, fun s hs hst hd hn => ?_, hh.respected⟩
  · obtain ⟨hn, hg⟩ := (hrow s (hh.rows s hs).1).1 hn
    rw [hg]
    exact hh.fresh s hs hn
  · rcases (hrow s (hh.rows s hs).1).2 ht t hg with ⟨ht, hg⟩ | hne
    · exact hh.stale s hs ht t hg
    · exact hne
  · obtain ⟨hn, hg⟩ := (hrow s hs).1 hn
    rw [hg]
    exact hh.stopped s hs hst hn
  · obtain ⟨hn, hg⟩ := (hrow s hs).1 hn
    exact (hh.settled s hs hst hd hn).congr (fun hx => hx) hg

/-- A row without a write. -/
theorem Midway.skip {s : Server} (hh : Midway D T (s :: todo) h)
    (hsame : ∀ st cid, D.report s = .state st cid → s.status = st ∧ s.containerId = cid) :
    Midway D T todo h := by
  refine ⟨hh.seen, fun t ht => hh.rows t (List.mem_cons_of_mem _ ht),
    (List.nodup_cons.mp hh.nodup).2, fun t ht => hh.fresh t (List.mem_cons_of_mem _ ht),
    fun t ht => hh.stale t (List.mem_cons_of_mem _ ht), hh.stopped, fun t ht hst hd hn => ?_,
    hh.respected⟩
  by_cases hts : t = s
  · subst hts
    have hg := hh.fresh t List.mem_cons_self hn
    unfold AsReported
    cases hreport : D.report t with
    | state st cid =>
        obtain ⟨hs, hc⟩ := hsame st cid hreport
        exact Or.inr ⟨t, hg, hs, hc⟩
    | unavailable => exact hg
    | unchanged => exact hg
  · refine hh.settled t ht hst (fun hm => ?_) hn
    rcases List.mem_cons.mp hm with rfl | hm
    · exact hts rfl
    · exact hd hm

/-- The write of a row changes no other row. -/
theorem observed_write_other {p : Pid} {s : Server} {st : ServerStatus}
    {cid : Option ContainerId} {b : Except String Unit}
    (hx : Observed D p _ (.updateReconciled s st cid) h b h') {i : ServerId} (hi : i ≠ s.id) :
    h'.world.servers.get i = h.world.servers.get i := by
  rcases (observed_write hx).2 with ⟨-, hw⟩ | ⟨c, -, -, hw⟩ | ⟨t, -, -, -, hget⟩
  · rw [hw]
  · rw [hw]
  · rw [hget, if_neg hi]

theorem held_mono {p : Pid} {s : Server} {st : ServerStatus} {cid : Option ContainerId}
    {b : Except String Unit} (hx : Observed D p _ (.updateReconciled s st cid) h b h')
    {i : ServerId} (hi : i ∈ h.held) : i ∈ h'.held := by
  rw [(observed_write hx).1]
  cases cid with
  | none => exact hi
  | some c =>
      show i ∈ if _ then _ else _
      split
      · exact List.mem_cons_of_mem _ hi
      · exact hi

theorem held_of_taken {p : Pid} {s : Server} {st : ServerStatus} {c : ContainerId}
    {b : Except String Unit} (hx : Observed D p _ (.updateReconciled s st (some c)) h b h')
    (ht : h.world.containerTaken s.id c = true) : s.id ∈ h'.held := by
  rw [(observed_write hx).1]
  show s.id ∈ if _ then _ else _
  rw [if_pos ht]
  exact List.mem_cons_self

/-- The write of a row that is still the one of the snapshot settles it. -/
theorem Midway.settles {p : Pid} {s : Server} {st : ServerStatus} {cid : Option ContainerId}
    {b : Except String Unit} (hg : h.world.servers.get s.id = some s)
    (hreport : D.report s = .state st cid)
    (hx : Observed D p _ (.updateReconciled s st cid) h b h') : AsReported D h'.held h'.world s := by
  unfold AsReported
  rw [hreport]
  rcases (observed_write hx).2 with ⟨hmiss, -⟩ | ⟨c, rfl, ht, hw⟩ | ⟨t, ht, -, -, hget⟩
  · exact absurd ⟨rfl, rfl, rfl⟩ (hmiss s hg)
  · exact Or.inl ⟨held_of_taken hx ht, by rw [hw]; exact hg⟩
  · refine Or.inr ⟨{ t with status := st, containerId := cid, updatedAt := h.world.clock },
      ?_, rfl, rfl⟩
    rw [hget, if_pos rfl]

/-- A write changes no touched row: the millisecond has changed. -/
theorem Midway.respects {p : Pid} {s : Server} {st : ServerStatus} {cid : Option ContainerId}
    {b : Except String Unit} (hh : Midway D T (s :: todo) h)
    (hx : Observed D p _ (.updateReconciled s st cid) h b h') {i : ServerId}
    (hi : i ∈ h.world.changed h'.world) : i ∉ h.touched := by
  rw [World.mem_changed] at hi
  rcases (observed_write hx).2 with ⟨-, hw⟩ | ⟨c, -, -, hw⟩ | ⟨t, ht, hsame, -, hget⟩
  · rw [hw] at hi
    exact absurd rfl hi
  · rw [hw] at hi
    exact absurd rfl hi
  · intro htouched
    by_cases his : i = s.id
    · subst his
      exact hh.stale s List.mem_cons_self htouched t ht hsame.2.2
    · rw [hget, if_neg his] at hi
      exact hi rfl

theorem Midway.write {p : Pid} {s : Server} {st : ServerStatus} {cid : Option ContainerId}
    {b : Except String Unit} (hh : Midway D T (s :: todo) h) (hreport : D.report s = .state st cid)
    (hx : Observed D p _ (.updateReconciled s st cid) h b h') : Midway D T todo h' := by
  obtain ⟨hnot, hnodup⟩ := List.nodup_cons.mp hh.nodup
  have hrecord := (observed_write hx).1
  have htouched : h'.touched = h.touched := by rw [hrecord]; rfl
  have hsT := (hh.rows s List.mem_cons_self).1
  -- two rows of the snapshot with one id are one row
  have hne : ∀ t ∈ T.rows, t ≠ s → t.id ≠ s.id := by
    intro t ht hts hid
    have h₁ := Table.mem_rows.mp ht
    rw [hid, Table.mem_rows.mp hsT] at h₁
    cases h₁
    exact hts rfl
  have hne' : ∀ t ∈ todo, t.id ≠ s.id := by
    intro t ht hid
    exact hnot (List.mem_map.mpr ⟨t, ht, hid⟩)
  refine ⟨by rw [hrecord]; exact hh.seen, fun t ht => hh.rows t (List.mem_cons_of_mem _ ht),
    hnodup, ?_, ?_, ?_, ?_, ?_⟩
  · intro t ht
    rw [htouched, observed_write_other hx (hne' t ht)]
    exact hh.fresh t (List.mem_cons_of_mem _ ht)
  · intro t ht
    rw [htouched, observed_write_other hx (hne' t ht)]
    exact hh.stale t (List.mem_cons_of_mem _ ht)
  · intro t ht hst
    have hts : t ≠ s := by
      rintro rfl
      exact (hh.rows t List.mem_cons_self).2 hst
    rw [htouched, observed_write_other hx (hne t ht hts)]
    exact hh.stopped t ht hst
  · intro t ht hst hd
    rw [htouched]
    intro hn
    by_cases hts : t = s
    · subst hts
      exact Midway.settles (hh.fresh t List.mem_cons_self hn) hreport hx
    · have hold := hh.settled t ht hst (fun hm => (List.mem_cons.mp hm).elim hts hd) hn
      exact hold.congr (held_mono hx) (observed_write_other hx (hne t ht hts))
  · have hnone : (h.world.changed h'.world).filter (· ∈ h.touched) = [] := by
      refine List.filter_eq_nil_iff.mpr fun i hi => ?_
      simpa using hh.respects hx hi
    rw [hrecord]
    show (h.world.changed h'.world).filter (· ∈ h.touched) ++ h.overwrote = []
    rw [hnone, hh.respected]
    rfl

/-- The SELECT. -/
theorem observed_select {p : Pid} {rows : List Server}
    (hx : Observed D p _ .selectNotStopped h rows h') :
    rows.Perm (h.world.servers.rows.filter fun s => s.status ≠ .stopped) ∧
      h' = { h with seen := some h.world.servers } := by
  obtain ⟨e, hx⟩ := hx
  obtain ⟨⟨rows', w'⟩, hexec, hr⟩ := Option.map_eq_some_iff.mp hx
  cases hr
  simp only [exec] at hexec
  split at hexec
  next hperm =>
    cases hexec
    refine ⟨List.isPerm_iff.mp hperm, ?_⟩
    simp [Watched.record, World.changed_of_servers]
  next => cases hexec

theorem mem_selected {T : Servers} {rows : List Server}
    (hperm : rows.Perm (T.rows.filter fun s => s.status ≠ .stopped)) (s : Server) :
    s ∈ rows ↔ s ∈ T.rows ∧ s.status ≠ .stopped := by
  rw [hperm.mem_iff, List.mem_filter]
  simp

/-- The rows of the SELECT, before the first write. -/
theorem Reading.midway {rows : List Server} (hh : Reading T h)
    (hperm : rows.Perm (T.rows.filter fun s => s.status ≠ .stopped)) : Midway D T rows h := by
  have hmem := mem_selected hperm
  refine ⟨hh.seen, fun s hs => (hmem s).mp hs, ?_, fun s hs => hh.fresh s ((hmem s).mp hs).1,
    fun s hs => hh.stale s ((hmem s).mp hs).1, fun s hs _ => hh.fresh s hs,
    fun s hs hst hd => absurd ((hmem s).mpr ⟨hs, hst⟩) hd, hh.respected⟩
  refine (hperm.map _).nodup_iff.mpr ?_
  exact T.nodup.sublist (List.filter_sublist.map _)

end Others

/-- **THE FIRST PART**: what one reconciliation comes to among other writers. -/
theorem reconciled {D : Daemon} {p : Pid} {w : World} {r : Except Exn Unit} {h : Watched}
    (hrun : Under Around (Observed D p) onModuleInit (.begin w) r h) :
    ∃ T, h.seen = some T ∧ Reconciled D h.held T h := by
  have hwp := wp_reconciliation (D := D) (p := p) (R := Around) (h := .begin w)
    (K := Reading)
    (J := fun T todo h => Midway D T todo h ∧
      ∀ s ∈ T.rows, s.status ≠ .stopped → D.report s ≠ .unavailable)
    (Z := fun h => ∃ T, h.seen = some T ∧ Reconciled D h.held T h)
    (fun _ _ _ hh hr => hh.around hr)
    (fun _ _ _ _ hh hr => ⟨hh.1.around hr, hh.2⟩)
    (fun _ _ _ _ hh hsame => ⟨hh.1.skip hsame, hh.2⟩)
    (fun _ _ _ _ _ _ _ _ hh hreport _ hx => ⟨hh.1.write hreport hx, hh.2⟩) ?_ ?_
  · have := hrun.sound hwp
    cases r <;> exact this
  · rintro h' rows h'' ⟨w', -, rfl⟩ hx
    obtain ⟨hperm, rfl⟩ := observed_select hx
    have hfresh : ∀ s ∈ w'.servers.rows, s.id ∉ ([] : List ServerId) →
        w'.servers.get s.id = some s := fun s hs _ => Table.mem_rows.mp hs
    refine ⟨w'.servers, ⟨rfl, hfresh, fun s _ ht => absurd ht List.not_mem_nil, rfl, rfl⟩, ?_, ?_⟩
    · -- a lookup was unavailable: nothing has been written
      intro s hs hu h hh
      obtain ⟨hsT, hst⟩ := (mem_selected hperm s).mp hs
      refine ⟨_, hh.seen, fun _ _ _ _ => hh.unwritten, fun hall => ?_,
        fun s hs _ => hh.fresh s hs, hh.respected⟩
      exact absurd hu (hall s hsT hst)
    · intro hall h hh
      exact ⟨hh.midway hperm, fun s hs hst => hall s ((mem_selected hperm s).mpr ⟨hs, hst⟩)⟩
  · rintro T h ⟨hh, hall⟩
    exact ⟨T, hh.seen, fun s hs hst hu => absurd hu (hall s hs hst),
      fun _ s hs hst => hh.settled s hs hst List.not_mem_nil, hh.stopped, hh.respected⟩

/-! ## §6. A second run. -/

namespace Daemon

variable {D : Daemon} {s t : Server} {st st' : ServerStatus} {cid cid' : Option ContainerId}

theorem managed_state {id : ServerId} (h : D.managed id = .state st cid) :
    (st = .stopped ∧ cid = none) ∨ ∃ cs x c, D.list id = .ok cs ∧ x ∈ cs ∧
      x.id = some c ∧ cid = some c ∧ st = statusOf (x.state == "running") := by
  unfold managed at h
  split at h
  · cases h
  · cases h
    exact Or.inl ⟨rfl, rfl⟩
  next x rest hlist =>
    split at h
    · cases h
      exact Or.inl ⟨rfl, rfl⟩
    next c hc =>
      cases h
      exact Or.inr ⟨_, x, c, hlist, List.mem_cons_self, hc, rfl, rfl⟩

/-- Where a reported state comes from. -/
theorem report_state (h : D.report s = .state st cid) :
    (∃ c info, s.containerId = some c ∧ D.inspect c = .ok info ∧ cid = some info.id ∧
      st = statusOf (info.running.getD false)) ∨ D.managed s.id = .state st cid := by
  cases hc : s.containerId with
  | none =>
      rw [D.report_none hc] at h
      exact Or.inr h
  | some c =>
      cases hi : D.inspect c with
      | ok info =>
          rw [D.report_ok hc hi] at h
          cases h
          exact Or.inl ⟨c, info, rfl, hi, rfl, rfl⟩
      | error error =>
          rw [D.report_error hc hi] at h
          split at h
          · cases h
          · split at h
            · exact Or.inr h
            · cases h

theorem statusOf_cases (running : Bool) :
    statusOf running = .running ∨ statusOf running = .stopped := by
  cases running
  · exact Or.inr rfl
  · exact Or.inl rfl

/-- The states are RUNNING and STOPPED. -/
theorem report_status (h : D.report s = .state st cid) : st = .running ∨ st = .stopped := by
  rcases report_state h with ⟨_, info, -, -, -, rfl⟩ | hm
  · exact statusOf_cases _
  · rcases managed_state hm with ⟨rfl, -⟩ | ⟨_, x, _, -, -, -, -, rfl⟩
    · exact Or.inr rfl
    · exact statusOf_cases _

/-- The row of a container that can be inspected. -/
theorem Honest.report_inspected (hD : D.Honest) {c : ContainerId} (hc : t.containerId = some c)
    (h404 : ∀ error, D.inspect c = .error error → error.statusCode ≠ some 404)
    (h : D.report t = .state st cid) :
    ∃ info, D.inspect c = .ok info ∧ cid = some c ∧ st = statusOf (info.running.getD false) := by
  cases hi : D.inspect c with
  | ok info =>
      rw [D.report_ok hc hi] at h
      cases h
      exact ⟨info, rfl, by rw [hD.own hi], rfl⟩
  | error error =>
      rw [D.report_error hc hi] at h
      split at h
      · cases h
      · rw [if_neg (h404 error hi)] at h
        cases h

/-- A row that was set to RUNNING is reported so again. -/
theorem Honest.report_again (hD : D.Honest) (h : D.report s = .state .running cid)
    (hc : t.containerId = cid) (ht : D.report t = .state st' cid') :
    st' = .running ∧ cid' = cid := by
  rcases report_state h with ⟨c, info, -, hi, rfl, hrun⟩ | hm
  · -- by inspection: the same inspection
    rw [D.report_ok hc (by rw [hD.own hi]; exact hi)] at ht
    cases ht
    exact ⟨hrun.symm, rfl⟩
  · rcases managed_state hm with ⟨hst, -⟩ | ⟨cs, x, c, hlist, hx, hxc, rfl, hrun⟩
    · cases hst
    · -- by the lookup: the container can be inspected, and runs
      obtain ⟨h404, hrunning⟩ := hD.listed hlist hx hxc
      obtain ⟨info, hi, rfl, rfl⟩ := hD.report_inspected hc h404 ht
      have hstate : x.state = "running" := by
        unfold statusOf at hrun
        split at hrun
        next he => exact beq_iff_eq.mp he
        next => cases hrun
      rw [hrunning info hi hstate]
      exact ⟨rfl, rfl⟩

/-- A row that holds the container reported for another row keeps it. -/
theorem Honest.report_holder (hD : D.Honest) {c : ContainerId}
    (h : D.report s = .state st (some c)) (hs : s.containerId ≠ some c)
    (hc : t.containerId = some c) (ht : D.report t = .state st' cid') : cid' = some c := by
  rcases report_state h with ⟨c', info, hc', hi, hid, -⟩ | hm
  · cases hid
    rw [hD.own hi] at hs
    exact absurd hc' hs
  · rcases managed_state hm with ⟨-, hnone⟩ | ⟨cs, x, c', hlist, hx, hxc, hid, -⟩
    · cases hnone
    · cases hid
      obtain ⟨-, -, hcid, -⟩ := hD.report_inspected hc (hD.listed hlist hx hxc).1 ht
      exact hcid

end Daemon

/-- Where a reconciliation has nothing to do: a lookup is unavailable, or every
row is as reported or cannot be. -/
def Quiet (D : Daemon) (w : World) : Prop :=
  (∃ s ∈ w.servers.rows, s.status ≠ .stopped ∧ D.report s = .unavailable) ∨
  ∀ s ∈ w.servers.rows, s.status ≠ .stopped → ∀ st cid, D.report s = .state st cid →
    (s.status = st ∧ s.containerId = cid) ∨ ∃ c, cid = some c ∧ w.containerTaken s.id c = true

theorem containerTaken_of_servers {w w' : World} (h : w'.servers = w.servers) (id : ServerId)
    (c : ContainerId) : w'.containerTaken id c = w.containerTaken id c := by
  unfold World.containerTaken
  rw [h]

/-- **A reconciliation of a quiet table changes nothing.** -/
theorem Quiet.unchanged {D : Daemon} {p : Pid} {w : World} (hq : Quiet D w)
    {r : Except Exn Unit} {h : Watched}
    (hrun : Under Alone (Observed D p) onModuleInit (.begin w) r h) :
    h.world.servers = w.servers := by
  have hwp := wp_reconciliation (D := D) (p := p) (R := Alone) (h := .begin w)
    (K := fun _ h => h.world.servers = w.servers)
    (J := fun _ todo h => h.world.servers = w.servers ∧ ∀ s ∈ todo, s ∈ w.servers.rows ∧
      ∀ st cid, D.report s = .state st cid →
        (s.status = st ∧ s.containerId = cid) ∨ ∃ c, cid = some c ∧ w.containerTaken s.id c = true)
    (Z := fun h => h.world.servers = w.servers)
    (fun _ h h' hh hr => by cases hr; exact hh) (fun _ _ h h' hh hr => by cases hr; exact hh)
    (fun _ s todo h hh _ => ⟨hh.1, fun t ht => hh.2 t (List.mem_cons_of_mem _ ht)⟩) ?_ ?_
    (fun _ h hh => hh.1)
  · have := hrun.sound hwp
    cases r <;> exact this
  · intro T s todo st cid h b h' hh hreport hdiff hx
    refine ⟨?_, fun t ht => hh.2 t (List.mem_cons_of_mem _ ht)⟩
    obtain ⟨c, rfl, ht⟩ := ((hh.2 s List.mem_cons_self).2 st cid hreport).resolve_left hdiff
    rcases (observed_write hx).2 with ⟨-, hw⟩ | ⟨c, -, -, hw⟩ | ⟨t, -, -, hfree, -⟩
    · rw [hw, hh.1]
    · rw [hw, hh.1]
    · have := hfree c rfl
      rw [containerTaken_of_servers hh.1, ht] at this
      cases this
  · intro h' rows h'' hr hx
    cases hr
    obtain ⟨hperm, rfl⟩ := observed_select hx
    refine ⟨w.servers, rfl, fun _ _ _ _ hh => hh, fun hall h hh => ⟨hh, fun s hs => ?_⟩⟩
    obtain ⟨hsT, hst⟩ := (mem_selected hperm s).mp hs
    rcases hq with ⟨t, ht, htst, hu⟩ | hq
    · exact absurd hu (hall t ((mem_selected hperm t).mpr ⟨ht, htst⟩))
    · exact ⟨hsT, hq s hsT hst⟩

/-- The invariant of the writes where no one else writes: the container that a
row could not get is still held. -/
structure Lonely (D : Daemon) (T : Servers) (todo : List Server) (h : Watched) : Prop where
  midway : Midway D T todo h
  untouched : h.touched = []
  unique : h.world.UniqueContainers
  known : ∀ {id : ServerId} {t : Server}, h.world.servers.get id = some t →
    ∃ s ∈ T.rows, s.id = id
  held : ∀ {s : Server}, s ∈ T.rows → s.id ∈ h.held → ∃ st c, D.report s = .state st (some c) ∧
    s.containerId ≠ some c ∧ h.world.containerTaken s.id c = true

section Lone

variable {D : Daemon} {p : Pid} {T : Servers} {todo : List Server} {h h' : Watched} {s : Server}
  {st : ServerStatus} {cid : Option ContainerId} {b : Except String Unit}

theorem observed_unique (hx : Observed D p _ (.updateReconciled s st cid) h b h')
    (hu : h.world.UniqueContainers) : h'.world.UniqueContainers := by
  obtain ⟨e, hx⟩ := hx
  obtain ⟨⟨b', w'⟩, hexec, hr⟩ := Option.map_eq_some_iff.mp hx
  cases hr
  exact exec_uniqueContainers hexec hu

/-- The holder of a container keeps it. -/
theorem Lonely.taken (hh : Lonely D T (s :: todo) h) (hD : D.Honest)
    (hreport : D.report s = .state st cid)
    (hx : Observed D p _ (.updateReconciled s st cid) h b h') {x : Server}
    {st' : ServerStatus} {c : ContainerId} (hxr : D.report x = .state st' (some c))
    (hxc : x.containerId ≠ some c) (ht : h.world.containerTaken x.id c = true) :
    h'.world.containerTaken x.id c = true := by
  rcases (observed_write hx).2 with ⟨-, hw⟩ | ⟨_, -, -, hw⟩ | ⟨t, hget, -, -, hget'⟩
  · rw [containerTaken_of_servers hw, ht]
  · rw [containerTaken_of_servers hw, ht]
  · obtain ⟨y, hym, hy⟩ := List.any_eq_true.mp ht
    simp only [Bool.and_eq_true, bne_iff_ne, ne_eq, beq_iff_eq] at hy
    have hyg := Table.mem_rows.mp hym
    by_cases hys : y.id = s.id
    · -- the holder is written: with the container it holds
      have hfresh := hh.midway.fresh s List.mem_cons_self (by rw [hh.untouched]; simp)
      rw [hys, hfresh] at hyg
      cases hyg
      have hcid := hD.report_holder hxr hxc hy.2 hreport
      refine World.containerTaken_of_get (j := s.id)
        (t := { t with status := st, containerId := cid, updatedAt := h.world.clock }) ?_ hcid hy.1
      rw [hget', if_pos rfl]
    · refine World.containerTaken_of_get (j := y.id) (t := y) ?_ hy.2 hy.1
      rw [hget', if_neg hys]
      exact hyg

theorem Lonely.write (hh : Lonely D T (s :: todo) h) (hD : D.Honest)
    (hreport : D.report s = .state st cid)
    (hx : Observed D p _ (.updateReconciled s st cid) h b h') : Lonely D T todo h' := by
  have hrecord := (observed_write hx).1
  have hfresh := hh.midway.fresh s List.mem_cons_self (by rw [hh.untouched]; simp)
  refine ⟨hh.midway.write hreport hx, by rw [hrecord]; exact hh.untouched,
    observed_unique hx hh.unique, ?_, ?_⟩
  · intro id t ht
    by_cases hid : id = s.id
    · exact ⟨s, (hh.midway.rows s List.mem_cons_self).1, hid.symm⟩
    · rw [observed_write_other hx hid] at ht
      exact hh.known ht
  · intro x hxT hheld
    -- either it was held before, or it is the row of this write
    have hcases : x.id ∈ h.held ∨ x.id = s.id ∧ ∃ c, cid = some c ∧
        h.world.containerTaken s.id c = true := by
      rw [hrecord] at hheld
      cases cid with
      | none => exact Or.inl hheld
      | some c =>
          change x.id ∈ (if h.world.containerTaken s.id c = true then s.id :: h.held
            else h.held) at hheld
          split at hheld
          next ht =>
            rcases List.mem_cons.mp hheld with hid | hheld
            · exact Or.inr ⟨hid, c, rfl, ht⟩
            · exact Or.inl hheld
          next => exact Or.inl hheld
    rcases hcases with hold | ⟨hid, c, rfl, ht⟩
    · obtain ⟨st', c, hxr, hxc, ht⟩ := hh.held hxT hold
      exact ⟨st', c, hxr, hxc, hh.taken hD hreport hx hxr hxc ht⟩
    · have hxs : x = s := by
        have h₁ := Table.mem_rows.mp hxT
        rw [hid, Table.mem_rows.mp (hh.midway.rows s List.mem_cons_self).1] at h₁
        cases h₁
        rfl
      subst hxs
      have hne : x.containerId ≠ some c := by
        intro hc
        rw [hh.unique.not_taken hfresh hc] at ht
        cases ht
      exact ⟨st, c, hreport, hne, hh.taken hD hreport hx hreport hne ht⟩

/-- **After the writes there is nothing left to do.** -/
theorem Lonely.quiet (hh : Lonely D T [] h) (hD : D.Honest) : Quiet D h.world := by
  refine Or.inr fun t ht hst st' cid' htr => ?_
  have htg := Table.mem_rows.mp ht
  obtain ⟨s, hsT, hid⟩ := hh.known htg
  have hn : s.id ∉ h.touched := by rw [hh.untouched]; simp
  rw [← hid] at htg
  by_cases hs : s.status = .stopped
  · rw [hh.midway.stopped s hsT hs hn] at htg
    cases htg
    exact absurd hs hst
  have hsettled := hh.midway.settled s hsT hs List.not_mem_nil hn
  unfold AsReported at hsettled
  cases hreport : D.report s with
  | state st cid =>
      rw [hreport] at hsettled
      rcases hsettled with ⟨hheld, hg⟩ | ⟨s', hg, rfl, hcid⟩
      · rw [hg] at htg
        cases htg
        obtain ⟨st'', c, hr, -, htaken⟩ := hh.held hsT hheld
        rw [htr] at hr
        cases hr
        exact Or.inr ⟨c, rfl, htaken⟩
      · rw [hg] at htg
        cases htg
        -- a row that was written and is not STOPPED is RUNNING
        have hrun := (Daemon.report_status hreport).resolve_right hst
        rw [hrun] at hreport
        obtain ⟨rfl, rfl⟩ := hD.report_again hreport hcid htr
        exact Or.inl ⟨hrun, hcid⟩
  | unavailable =>
      rw [hreport] at hsettled
      rw [hsettled] at htg
      cases htg
      rw [hreport] at htr
      cases htr
  | unchanged =>
      rw [hreport] at hsettled
      rw [hsettled] at htg
      cases htg
      rw [hreport] at htr
      cases htr

end Lone

/-- **A first run alone leaves a quiet table.** -/
theorem quiet_of_alone {D : Daemon} (hD : D.Honest) {p : Pid} {w : World}
    (hw : w.UniqueContainers) {r : Except Exn Unit} {h : Watched}
    (hrun : Under Alone (Observed D p) onModuleInit (.begin w) r h) : Quiet D h.world := by
  have hwp := wp_reconciliation (D := D) (p := p) (R := Alone) (h := .begin w)
    (K := fun T h => h = { Watched.begin w with seen := some w.servers } ∧ T = w.servers)
    (J := fun T todo h => Lonely D T todo h) (Z := fun h => Quiet D h.world)
    (fun _ h h' hh hr => by cases hr; exact hh) (fun _ _ h h' hh hr => by cases hr; exact hh)
    (fun _ _ _ _ hh hsame =>
      ⟨hh.midway.skip hsame, hh.untouched, hh.unique, hh.known, hh.held⟩)
    (fun _ _ _ _ _ _ _ _ hh hreport _ hx => hh.write hD hreport hx) ?_
    (fun _ h hh => hh.quiet hD)
  · have := hrun.sound hwp
    cases r <;> exact this
  · intro h' rows h'' hr hx
    cases hr
    obtain ⟨hperm, rfl⟩ := observed_select hx
    refine ⟨w.servers, ⟨rfl, rfl⟩, ?_, ?_⟩
    · rintro s hs hu h ⟨rfl, -⟩
      obtain ⟨hsT, hst⟩ := (mem_selected hperm s).mp hs
      exact Or.inl ⟨s, hsT, hst, hu⟩
    · rintro hall h ⟨rfl, -⟩
      have hreading : Reading w.servers { Watched.begin w with seen := some w.servers } :=
        ⟨rfl, fun s hs _ => Table.mem_rows.mp hs, fun s _ ht => absurd ht List.not_mem_nil,
          rfl, rfl⟩
      refine ⟨hreading.midway hperm, rfl, hw, fun hg => ?_, fun _ hm => absurd hm List.not_mem_nil⟩
      exact ⟨_, (Table.get_eq_some.mp hg).1, Table.get_key hg⟩

/-! ## §7. The theorem. -/

/-- **STARTUP RECONCILIATION.**  Among any other writers a reconciliation
changes no row where a lookup was unavailable, settles every other row of its
snapshot that no one else changed as the daemon reports it, leaves STOPPED
rows and rows with an unexpected error alone, and overwrites no later write;
the one exception is a row whose reported container another row holds.  Run
twice with no other writer, the second run changes nothing. -/
theorem startup_reconciliation (D : Daemon) (p q : Pid) (w : World) :
    (∀ r h, Under Around (Observed D p) onModuleInit (.begin w) r h →
      ∃ T, h.seen = some T ∧ Reconciled D h.held T h) ∧
    (D.Honest → w.UniqueContainers → ∀ r₁ h₁ r₂ h₂,
      Under Alone (Observed D p) onModuleInit (.begin w) r₁ h₁ →
      Under Alone (Observed D q) onModuleInit (.begin h₁.world) r₂ h₂ →
      h₂.world.servers = h₁.world.servers) := by
  refine ⟨fun r h hrun => reconciled hrun, fun hD hw r₁ h₁ r₂ h₂ hfirst hsecond => ?_⟩
  exact (quiet_of_alone hD hw hfirst).unchanged hsecond

/-! ## §8. Two servers. -/

/-- A second server, with container 7. -/
def sampleNeighbour : Server :=
  { sampleServer .running (some 7) with id := 2, name := "creative", port := 25566 }

/-- A server in ERROR without a container, and its neighbour. -/
def sampleTable : World :=
  { sampleWorld .error false with
    servers := ⟨[sampleServer .error none, sampleNeighbour], by decide⟩ }

/-- A daemon with one container, 7, running and labelled with server `id`. -/
def sampleDaemon (id : ServerId) : Daemon where
  inspect := fun cid => if cid = 7 then .ok ⟨7, some true⟩ else .error ⟨none, some 404⟩
  list := fun i => if i = id then .ok [⟨some 7, "running"⟩] else .ok []

theorem sampleDaemon_honest (id : ServerId) : (sampleDaemon id).Honest := by
  refine ⟨fun {cid info} hi => ?_, fun {i cs x cid} hl hx hc => ?_⟩
  · simp only [sampleDaemon] at hi
    split at hi
    next h7 =>
      cases hi
      exact h7.symm
    next => cases hi
  · have hcid : cid = 7 := by
      simp only [sampleDaemon] at hl
      split at hl <;> cases hl
      · rw [List.mem_singleton.mp hx] at hc
        cases hc
        rfl
      · cases hx
    subst hcid
    exact ⟨nofun, fun info hi _ => by cases hi; rfl⟩

theorem sampleTable_unique : sampleTable.UniqueContainers := by
  intro i j s t c hs ht hsc htc
  have hs' := Table.get_eq_some.mp hs
  have ht' := Table.get_eq_some.mp ht
  simp only [sampleTable, List.mem_cons, List.not_mem_nil, or_false] at hs' ht'
  obtain ⟨rfl | rfl, rfl⟩ := hs'
  · cases hsc
  · obtain ⟨rfl | rfl, rfl⟩ := ht'
    · cases htc
    · rfl

/-- The reconciliation of the two servers alone: the SELECT, a lookup for the
first, an inspection for the second, and the writes. -/
def sampleReconcile (D : Daemon) (es : List Env) :
    Option (System.Outcome Exn Unit Watched Unit) :=
  System.alone (observe D 0) (fun _ => ()) onModuleInit es (.begin sampleTable)

theorem under_of_sampleReconcile {D : Daemon} {es : List Env}
    {out : System.Outcome Exn Unit Watched Unit} (h : sampleReconcile D es = some out) :
    Under Alone (Observed D 0) onModuleInit (.begin sampleTable) out.result out.world :=
  Under.of_alone (R := Alone) (X := Observed D 0) (fun _ => observe D 0) (fun _ _ => ())
    (fun _ => rfl) (fun _ e _ _ _ hx => ⟨e, hx⟩) h

/-- No other writer is one way for them to behave. -/
theorem Alone.around {h h' : Watched} (hr : Alone h h') : Around h h' := by
  cases hr
  refine ⟨h.world, fun T _ id s s' _ hg hne => absurd hg hne, ?_⟩
  unfold Watched.moved
  rw [World.changed_of_servers rfl, List.nil_append, ite_self]

/-- **The container of a neighbour**: container 7 is labelled with server 1 and
stored on server 2.  The UNIQUE constraint rejects the write of server 1, the
call throws, and the row stays in ERROR. -/
theorem reported_container_is_held :
    ¬ ∀ (D : Daemon) (p : Pid) (w : World), D.Honest → w.UniqueContainers → ∀ r h,
      Under Around (Observed D p) onModuleInit (.begin w) r h →
      ∃ T, h.seen = some T ∧ Reconciled D [] T h := by
  intro hall
  have htest : (sampleReconcile (sampleDaemon 1)
      [{ rows := [sampleServer .error none, sampleNeighbour] }, {}, {}, {}]).any (fun out =>
        out.world.touched == [] &&
        out.world.seen.map Table.rows == some [sampleServer .error none, sampleNeighbour] &&
        out.world.world.servers.get 1 == some (sampleServer .error none)) = true := by
    decide +kernel
  obtain ⟨out, hout, htest⟩ := (Option.any_eq_true _ _).mp htest
  simp only [Bool.and_eq_true, beq_iff_eq] at htest
  obtain ⟨⟨htouched, hseen⟩, hrow⟩ := htest
  obtain ⟨T, hT, hreconciled⟩ := hall (sampleDaemon 1) 0 sampleTable (sampleDaemon_honest 1)
    sampleTable_unique _ _ ((under_of_sampleReconcile hout).mono fun _ _ => Alone.around)
  rw [hT, Option.map_some, Option.some.injEq] at hseen
  have hsettled := hreconciled.settled (by rw [hseen]; decide +kernel)
    (sampleServer .error none) (by rw [hseen]; simp) (by decide) (by rw [htouched]; simp)
  rcases hsettled with ⟨hexempt, -⟩ | ⟨s', hs', hst, -⟩
  · cases hexempt
  · rw [show (sampleServer .error none).id = 1 from rfl, hrow] at hs'
    cases hs'
    cases hst

/-- With the container labelled as it is stored, server 1 is set to STOPPED. -/
theorem sampleReconcile_settles :
    ∃ r h, Under Alone (Observed (sampleDaemon 2) 0) onModuleInit (.begin sampleTable) r h ∧
      (h.world.servers.get 1).map Server.status = some .stopped ∧
      (∃ T, h.seen = some T ∧ Reconciled (sampleDaemon 2) h.held T h) ∧
      ∀ r₂ h₂, Under Alone (Observed (sampleDaemon 2) 1) onModuleInit (.begin h.world) r₂ h₂ →
        h₂.world.servers = h.world.servers := by
  have htest : (sampleReconcile (sampleDaemon 2)
      [{ rows := [sampleServer .error none, sampleNeighbour] }, {}, {}, {}]).any (fun out =>
        (out.world.world.servers.get 1).map Server.status == some .stopped) = true := by
    decide +kernel
  obtain ⟨out, hout, htest⟩ := (Option.any_eq_true _ _).mp htest
  have hrun := under_of_sampleReconcile hout
  obtain ⟨hfirst, hsecond⟩ := startup_reconciliation (sampleDaemon 2) 0 1 sampleTable
  exact ⟨out.result, out.world, hrun, beq_iff_eq.mp htest,
    hfirst _ _ (hrun.mono fun _ _ => Alone.around),
    fun r₂ h₂ => hsecond (sampleDaemon_honest 2) sampleTable_unique _ _ r₂ h₂ hrun⟩

end MinePanel.Servers
