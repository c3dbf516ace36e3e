/-
  MinePanel.Servers.Ownership
  ───────────────────────────
  **WHO OWNS A SERVER WHILE IT CHANGES STATE.**

  start, stop, restart and delete claim a row by a compare-and-set
  (STOPPED→STARTING, RUNNING→STOPPING, STOPPED→STOPPING) and settle it later.
  The claim is not recorded anywhere: the compare-and-set compares a status and
  a container id.  The history `Holders` records it, and `Exclusive` says what
  holding a claim should mean in any interleaving of any number of calls:
  nobody else changes the status, nobody else touches the container, and a
  delete that resolves has deleted the row.

  It fails in one place only, the outer `catch` of `restartServer`, which fires
  STOPPING→STOPPED even when its own start phase has already settled the row
  and another call has claimed it since (`restart_steals_the_claim`).  In every
  run in which that UPDATE never finds the row STOPPING under another call's
  claim, ownership is exclusive (`exclusive_of_no_late_catch`).
-/
import MinePanel.Servers.Steps

namespace MinePanel.Servers

open MinePanel.Db MinePanel.Docker MinePanel.Lib Prog

/-! ## §1. The history and the property. -/

/-- Which call holds the claim of each server. -/
abbrev Holders := ServerId → Option Pid

/-- The transitions by which a call claims a row. -/
def isClaim : ServerStatus → ServerStatus → Bool
  | .stopped, .starting => true
  | .running, .stopping => true
  | .stopped, .stopping => true
  | _, _ => false

/-- What a successful transition of `p` does to the claims: a claim is taken,
the holder moving on to STARTING keeps it, any other transition of the holder
settles it. -/
def Holders.moved (o : Holders) (p : Pid) (id : ServerId) (s s' : ServerStatus) : Holders :=
  if isClaim s s' then Function.update o id (some p)
  else if o id = some p ∧ s' ≠ .starting then Function.update o id none
  else o

/-- The claims after a step of `p`. -/
def Holders.next (o : Holders) (p : Pid) : ∀ {β : Type}, Act β → β → Holders
  | _, .updateTransition id s s' _ _, b =>
      match b with
      | .ok (some _) => o.moved p id s s'
      | _ => o
  | _, .deleteInStatus id _, _ => if o id = some p then Function.update o id none else o
  | _, _, _ => o

namespace Op

/-- `restartServer`. -/
def isRestart : Op → Bool
  | .restart _ _ => true
  | _ => false

end Op

/-- Every interleaving of start, stop, restart and delete calls; a claim dies
with the process of its call. -/
def lifecycle : Watch Act World Env Op Holders where
  accepts := fun _ _ _ op => op.isLifecycle
  onStep := fun o _ p _ _ a b _ => o.next p a b
  onReboot := fun _ _ _ _ => none

/-- The late catch-all: a restart runs STOPPING→STOPPED while another call holds
the claim and the row is STOPPING with the container of the restart. -/
def lateCatch (o : Holders) (w : World) (p : Pid) (op : Op) : ∀ {β : Type}, Act β → Bool
  | _, .updateTransition id s s' cid _ =>
      op.isRestart && decide (s = .stopping) && decide (s' = .stopped)
        && (o id).any (fun q => q ≠ p)
        && (w.servers.get id).any fun r => r.status = .stopping && r.containerId = cid
  | _, _ => false

/-- The interleavings without a late catch-all. -/
def noLateCatch : Watch Act World Env Op Holders :=
  { lifecycle with guard := fun o w p op _ a _ => !lateCatch o w p op a }

/-- **Exclusive ownership**, in a configuration `c` of the runs of `V` with the
claims `o`. -/
structure Exclusive (V : Watch Act World Env Op Holders) (c : Conf) (o : Holders) : Prop where
  /-- No step of another call changes the status of a claimed row. -/
  status : ∀ {p q : Pid} {id : ServerId} {op : Op} {β : Type} {a : Act β} {k : β → Call Reply}
    {e : Env} {b : β} {w' : World}, o id = some q → p ≠ q →
    c.calls p = some ⟨op, .act a k⟩ → V.guard o c.world p op a e = true →
    exec p a e c.world = some (b, w') →
    (w'.servers.get id).map Server.status = (row c id).map Server.status
  /-- No other call is about to start, stop or remove its container. -/
  container : ∀ {p q : Pid} {id : ServerId} {op : Op} {β : Type} {a : Act β} {k : β → Call Reply}
    {s : Server} {cid : ContainerId}, o id = some q → p ≠ q →
    c.calls p = some ⟨op, .act a k⟩ → row c id = some s → s.containerId = some cid →
    a.mutates ≠ some cid
  /-- A delete that resolved has removed the row. -/
  deleted : ∀ {p : Pid} {id : ServerId} {principal : ServerPrincipal} {r : Reply},
    c.returned p (.delete id principal) r → row c id = none

/-! ## §2. The monitor of one call. -/

/-- Where a call stands. -/
inductive Phase where
  /-- Nothing is claimed yet. -/
  | fresh
  /-- The call holds the row, in this status. -/
  | owns (id : ServerId) (status : ServerStatus) (containerId : Option ContainerId)
  /-- The start phase of a restart has failed and settled the row; the outer
  handler is still to come. -/
  | settled (id : ServerId)
  /-- The row is deleted. -/
  | gone (id : ServerId)
  /-- Nothing is left to do. -/
  | ended
  deriving DecidableEq

namespace Phase

/-- The call can still change a row. -/
def isLive : Phase → Bool
  | .owns _ _ _ => true
  | .settled _ => true
  | _ => false

/-- The transitions a call may issue in its phase. -/
def mayMove (op : Op) (id : ServerId) (s s' : ServerStatus) (cid : Option ContainerId) :
    Phase → Prop
  | .fresh => isClaim s s' = true
  | .owns i st c => id = i ∧ s = st ∧ cid = c ∧ s' ≠ .stopping
  | .settled i => op.isRestart = true ∧ id = i ∧ s = .stopping ∧ s' = .stopped
  | .gone _ => False
  | .ended => False

/-- The phase after a transition of the holder. -/
def after (op : Op) (id : ServerId) (s s' : ServerStatus) (cid : Option ContainerId) : Phase :=
  if s' = .starting then .owns id .starting cid
  else if s = .starting ∧ s' ≠ .running ∧ op.isRestart = true then .settled id
  else .ended

/-- The phase a transition leads to; a holder's transition cannot miss. -/
def moves (op : Op) (id : ServerId) (s s' : ServerStatus) (cid : Option ContainerId) (m' : Phase) :
    Phase → Option Server → Prop
  | .fresh, none => m' = .fresh
  | .fresh, some r => m' = .owns id s' cid ∧ r.containerId = cid
  | .owns _ _ _, none => False
  | .owns _ _ _, some _ => m' = after op id s s' cid
  | .settled _, _ => m' = .ended
  | m, _ => m' = m

/-- What a call of `op` may do next. -/
def allow (op : Op) : Phase → ∀ {β : Type}, Act β → Prop
  | m, _, .updateTransition id s s' cid new => new = none ∧ m.mayMove op id s s' cid
  | m, _, .deleteInStatus id st =>
      match m with
      | .owns i s _ => id = i ∧ s = .stopping ∧ st = .stopping
      | .gone i => id = i
      | _ => False
  | m, _, .dockerStart cid => ∃ id s, m = .owns id s (some cid)
  | m, _, .dockerStop cid _ => ∃ id s, m = .owns id s (some cid)
  | m, _, .dockerRemove cid => ∃ id s, m = .owns id s (some cid)
  | _, _, a => a.silent = true

/-- The phase after a step. -/
def next (op : Op) : Phase → ∀ {β : Type}, Act β → β → Phase → Prop
  | m, _, .updateTransition id s s' cid _, b, m' =>
      match b with
      | .error _ => False
      | .ok r => moves op id s s' cid m' m r
  | _, _, .deleteInStatus id _, _, m' => m' = .gone id
  | m, _, _, _, m' => m' = m

end Phase

/-- The ownership monitor of one operation. -/
def ownership (op : Op) : Monitor Act Phase where
  allow := fun m a => m.allow op a
  next := fun m a b m' => m.next op a b m'

theorem ownership_deaf (op : Op) (m : Phase) : Deaf (ownership op) m := by
  intro β a ha
  cases a <;> simp only [Act.silent, Act.inert, Bool.false_eq_true] at ha <;>
    exact ⟨rfl, fun _ _ h => h⟩

/-! ## §3. Every operation follows the monitor. -/

section Calls

variable {op : Op} {id : ServerId} {cid : ContainerId}

/-- A holder's settling transition. -/
theorem wp_settle {s s' : ServerStatus} {c : Option ContainerId}
    (hs : s' ≠ .stopping) {Q : Option Server → Phase → Prop} {E : Exn → Phase → Prop}
    (hQ : ∀ r, Q (some r) (Phase.after op id s s' c)) :
    wp (ownership op) Q E (transition id s s' c none) (.owns id s c) := by
  refine wp_transition ⟨rfl, rfl, rfl, rfl, hs⟩ (fun _ _ h => h) fun r m' h => ?_
  cases r with
  | none => exact h.elim
  | some r =>
      change m' = _ at h
      rw [h]
      exact hQ r

/-- A claim of a call that holds nothing. -/
theorem wp_claim {s s' : ServerStatus} {c : Option ContainerId} (hs : isClaim s s' = true)
    {Q : Option Server → Phase → Prop} {E : Exn → Phase → Prop} (hnone : Q none .fresh)
    (hsome : ∀ r, r.containerId = c → Q (some r) (.owns id s' c)) :
    wp (ownership op) Q E (transition id s s' c none) .fresh := by
  refine wp_transition ⟨rfl, hs⟩ (fun _ _ h => h) fun r m' h => ?_
  cases r with
  | none =>
      change m' = _ at h
      exact h ▸ hnone
  | some r =>
      obtain ⟨rfl, hr⟩ := h
      exact hsome r hr

/-- The start phase settles the row, whatever the daemon answers. -/
theorem startPhase_settles {E : Exn → Phase → Prop}
    (hE : ∀ e, E e (if op.isRestart then .settled id else .ended)) :
    wp (ownership op) (fun _ m => m = .ended) E (startPhase id cid)
      (.owns id .starting (some cid)) := by
  have hafter : ∀ s', s' ≠ .starting → s' ≠ .running →
      Phase.after op id .starting s' (some cid) =
        if op.isRestart then .settled id else .ended := by
    intro s' h₁ h₂
    simp [Phase.after, h₁, h₂]
  unfold startPhase
  rw [startContainer_eq, bind_eq, wp_bind, tryCatch_eq, wp_tryCatch]
  refine ⟨⟨id, .starting, rfl⟩, fun reply m' h => ?_⟩
  change m' = _ at h
  subst h
  refine wp_settleReply (fun _ => ?_) fun e _ _ => ?_
  · rw [bind_eq, wp_bind]
    exact wp_settle (by decide) fun r => rfl
  · split
    · refine wp_seq (wp_settle (by decide) fun r => ?_)
      rw [hafter _ (by decide) (by decide)]
      exact hE _
    · refine wp_seq (wp_settle (by decide) fun r => ?_)
      rw [hafter _ (by decide) (by decide)]
      exact hE _

/-- The stop phase keeps the claim when it succeeds and is over when it fails. -/
theorem stopPhase_keeps {warnSeconds : Nat} {Q : Unit → Phase → Prop} {E : Exn → Phase → Prop}
    (hQ : Q () (.owns id .stopping (some cid))) (hE : ∀ e, E e .ended) :
    wp (ownership op) Q E (stopPhase id cid warnSeconds) (.owns id .stopping (some cid)) := by
  unfold stopPhase
  rw [tryCatch_eq, wp_tryCatch]
  refine wp_gracefulStopContainer (ownership_deaf op _).steady fun t => ?_
  refine ⟨⟨id, .stopping, rfl⟩, fun reply m' h => ?_⟩
  change m' = _ at h
  subst h
  refine wp_settleReply (fun _ => hQ) fun e _ _ => ?_
  split
  · refine wp_seq ?_
    exact wp_settle (by decide) fun r => hE _
  · split
    · refine wp_seq ?_
      exact wp_settle (by decide) fun r => hE _
    · refine wp_seq ?_
      exact wp_settle (by decide) fun r => hE _

/-- The head of stop and restart claims the row or holds nothing. -/
theorem claimRunning_claims {settings : Settings} {principal : ServerPrincipal}
    {Q : Server × ContainerId × Nat → Phase → Prop} {E : Exn → Phase → Prop}
    (hQ : ∀ row cid warn, Q (row, cid, warn) (.owns id .stopping (some cid))) (hE : ∀ e, E e .fresh) :
    wp (ownership op) Q E (claimRunning settings id principal) .fresh := by
  unfold claimRunning
  refine wp_seq (wp_loadVisibleServer rfl (fun s m' h => ?_) fun m' h => ?_)
  · cases h
    refine wp_guard (fun _ => hE _) fun _ => ?_
    split
    next => exact hE _
    next cid _ =>
      refine wp_seq (wp_check (fun warn _ => ?_) fun e _ => hE e)
      refine wp_seq (wp_claim rfl (hE _) fun r _ => ?_)
      exact hQ s cid warn
  · cases h
    exact hE _

/-- What the monitor state of a finished call is: it holds no claim, and a
delete that resolved has deleted the row. -/
def Settled : Op → Reply → Phase → Prop
  | .delete id _, _, m => m = .gone id
  | _, _, m => m.isLive = false

/-- `startServer`. -/
theorem startServer_owns {settings : Settings} {principal : ServerPrincipal}
    (hop : op.isRestart = false) :
    wp (ownership op) (fun _ m => m.isLive = false) (fun _ m => m.isLive = false)
      (startServer settings id principal) .fresh := by
  unfold startServer
  refine wp_seq (wp_loadVisibleServer rfl (fun s m' h => ?_) fun m' h => ?_)
  · cases h
    refine wp_guard (fun _ => rfl) fun _ => ?_
    split
    next => rfl
    next cid _ =>
      refine wp_seq (wp_check (fun config _ => ?_) fun e _ => rfl)
      refine wp_seq ((hostReadings_inert settings).wp (ownership_deaf op _).steady ?_ fun e _ => rfl)
      rintro ⟨hostInfo, diskInfo⟩
      refine wp_seq (wp_check (fun _ _ => ?_) fun e _ => rfl)
      refine wp_seq (wp_admitAndClaim (ownership_deaf op _) ⟨rfl, rfl⟩
        (fun _ _ h => h) (fun r m' h => ?_) fun e => rfl)
      cases r with
      | none =>
          cases h
          rfl
      | some r =>
          obtain ⟨rfl, -⟩ := h
          refine wp_mono _ _ (fun _ m hm => ?_) (fun _ _ h => h) (startPhase_settles fun _ => by rw [hop]; rfl)
          rw [hm]
          rfl
  · cases h
    rfl

/-- `stopServer`. -/
theorem stopServer_owns {settings : Settings} {principal : ServerPrincipal} :
    wp (ownership op) (fun _ m => m.isLive = false) (fun _ m => m.isLive = false)
      (stopServer settings id principal) .fresh := by
  unfold stopServer
  refine wp_seq (claimRunning_claims (fun row cid warn => ?_) fun e => rfl)
  refine wp_seq (stopPhase_keeps ?_ fun e => rfl)
  exact wp_seq (wp_settle (by decide) fun r => rfl)

/-- `restartServer`: its outer handler runs either as the holder of the claim or
after its start phase has settled. -/
theorem restartServer_owns {settings : Settings} {principal : ServerPrincipal}
    (hop : op.isRestart = true) :
    wp (ownership op) (fun _ m => m.isLive = false) (fun _ m => m.isLive = false)
      (restartServer settings id principal) .fresh := by
  unfold restartServer
  refine wp_seq (claimRunning_claims (fun row cid warn => ?_) fun e => rfl)
  refine wp_seq (stopPhase_keeps ?_ fun e => rfl)
  rw [tryCatch_eq, wp_tryCatch]
  have howner : ∀ e : Exn, wp (ownership op) (fun _ m => m.isLive = false)
      (fun _ m => m.isLive = false)
      (do let _ ← transition id .stopping .stopped (some cid) none; throw e : Call PublicServer)
      (.owns id .stopping (some cid)) :=
    fun e => wp_seq (wp_settle (by decide) fun r => rfl)
  have hlate : ∀ e : Exn, wp (ownership op) (fun _ m => m.isLive = false)
      (fun _ m => m.isLive = false)
      (do let _ ← transition id .stopping .stopped (some cid) none; throw e : Call PublicServer)
      (.settled id) := by
    intro e
    refine wp_seq (wp_transition ⟨rfl, hop, rfl, rfl, rfl⟩ (fun _ _ h => h) ?_)
    intro r m' h
    have hm' : m' = .ended := by cases r <;> exact h
    rw [hm']
    rfl
  unfold restartStart
  refine wp_seq (wp_check (fun config _ => ?_) fun e _ => howner e)
  refine wp_seq ((hostReadings_inert settings).wp (ownership_deaf op _).steady ?_ fun e _ => howner e)
  rintro ⟨hostInfo, diskInfo⟩
  refine wp_seq (wp_check (fun _ _ => ?_) fun e _ => howner e)
  refine wp_seq (wp_admitAndClaim (ownership_deaf op _) ⟨rfl, rfl, rfl, rfl, by decide⟩
    (fun _ _ h => h) (fun r m' h => ?_) howner)
  cases r with
  | none => exact h.elim
  | some r =>
      cases h
      refine wp_mono _ _ (fun _ m hm => ?_) (fun _ _ h => h) (startPhase_settles fun e => by rw [hop]; exact hlate e)
      rw [hm]
      rfl

/-- After a failed removal the row is deleted, or settled as ERROR. -/
theorem resolveDeleteRemoveFailure_owns :
    wp (ownership op) (fun removed m => m = if removed then .gone id else .ended)
      (fun _ _ => False) (resolveDeleteRemoveFailure id cid) (.owns id .stopping (some cid)) := by
  unfold resolveDeleteRemoveFailure
  rw [tryCatch_eq, wp_tryCatch]
  refine wp_seq ((inspectContainer_inert cid).wp (ownership_deaf op _).steady ?_ fun e _ => ?_)
  · rintro ⟨_, running⟩
    cases running with
    | true => exact wp_seq (wp_settle (by decide) fun r => rfl)
    | false => exact ⟨⟨rfl, rfl, rfl⟩, fun _ m' h => h⟩
  · split
    · exact ⟨⟨rfl, rfl, rfl⟩, fun _ m' h => h⟩
    · exact wp_seq (wp_settle (by decide) fun r => rfl)

/-- `deleteServer`: where it resolves, it has deleted the row. -/
theorem deleteServer_owns {principal : ServerPrincipal} :
    wp (ownership op) (fun _ m => m = .gone id) (fun _ m => m.isLive = false)
      (deleteServer id principal) .fresh := by
  have hdelete : ∀ m, (m = Phase.gone id ∨ ∃ c, m = .owns id .stopping c) →
      wp (ownership op) (fun _ m => m = .gone id) (fun _ m => m.isLive = false)
        (Prog.perform (.deleteInStatus id .stopping) : Call Unit) m := by
    rintro m (rfl | ⟨c, rfl⟩)
    · exact ⟨rfl, fun _ m' h => h⟩
    · exact ⟨⟨rfl, rfl, rfl⟩, fun _ m' h => h⟩
  unfold deleteServer
  refine wp_seq (wp_loadVisibleServer rfl (fun s m' h => ?_) fun m' h => ?_)
  · cases h
    refine wp_guard (fun _ => rfl) fun _ => ?_
    refine wp_seq (wp_claim rfl rfl fun r hr => ?_)
    dsimp only
    rw [hr]
    cases s.containerId with
    | none => exact hdelete _ (Or.inr ⟨_, rfl⟩)
    | some cid =>
        refine wp_seq ?_
        rw [tryCatch_eq, wp_tryCatch, removeContainer_eq]
        refine ⟨⟨id, .stopping, rfl⟩, fun reply m' h => ?_⟩
        cases h
        refine wp_settleReply (fun _ => hdelete _ (Or.inr ⟨_, rfl⟩)) fun e _ _ => ?_
        refine wp_seq (wp_mono _ _ (fun removed m hm => ?_) (fun _ _ h => h.elim)
          resolveDeleteRemoveFailure_owns)
        cases removed with
        | true => exact hdelete _ (Or.inl hm)
        | false =>
            rw [hm]
            rfl
  · cases h
    rfl

/-- **Every lifecycle operation follows the ownership monitor.** -/
theorem body_owns (settings : Settings) (op : Op) (hop : op.isLifecycle = true) :
    wp (ownership op) (Settled op) (fun _ m => m.isLive = false) (body settings op) .fresh := by
  cases op with
  | create dto principal => cases hop
  | reconcile => cases hop
  | start id principal => exact wp_seq (startServer_owns rfl)
  | stop id principal => exact wp_seq stopServer_owns
  | restart id principal => exact wp_seq (restartServer_owns rfl)
  | delete id principal => exact wp_seq deleteServer_owns

end Calls

/-! ## §4. The invariant of the pool. -/

/-- What the phases of all calls say about the world and the claims. -/
structure Owned (w : World) (o : Holders) (gs : Pid → Phase) : Prop where
  unique : w.UniqueContainers
  /-- A holder's row is in the holder's status, with the holder's container. -/
  owns : ∀ {p id st c}, gs p = .owns id st c → o id = some p ∧ (st = .starting ∨ st = .stopping) ∧
    ∃ s, w.servers.get id = some s ∧ s.status = st ∧ s.containerId = c
  held : ∀ {id p}, o id = some p → ∃ st c, gs p = .owns id st c
  /-- After a call has settled its row, only a new claim makes it STOPPING. -/
  settled : ∀ {p id s}, gs p = .settled id → w.servers.get id = some s → s.status = .stopping →
    (o id).isSome = true
  gone : ∀ {p id}, gs p = .gone id → w.servers.get id = none

theorem Owned.of_servers {w w' : World} {o : Holders} {gs : Pid → Phase} (h : Owned w o gs)
    (hw : w'.servers = w.servers) : Owned w' o gs := by
  refine ⟨UniqueContainers.of_servers h.unique hw, ?_, h.held, ?_, ?_⟩ <;> rw [hw]
  · exact h.owns
  · exact h.settled
  · exact h.gone

/-- A step that leaves the table alone. -/
theorem Owned.frame {w w' : World} {o : Holders} {gs : Pid → Phase} {p : Pid} {m : Phase}
    (h : Owned w o gs) (hw : w'.servers = w.servers) (hm : gs p = m) :
    Owned w' o (Function.update gs p m) := by
  rw [← hm, Function.update_eq_self]
  exact h.of_servers hw

/-- A settled restart has nothing left to do. -/
theorem Owned.retire {w : World} {o : Holders} {gs : Pid → Phase} {p : Pid} {id : ServerId}
    (h : Owned w o gs) (hp : gs p = .settled id) : Owned w o (Function.update gs p .ended) := by
  have hother : ∀ {q m}, Function.update gs p .ended q = m → m ≠ .ended → gs q = m := by
    intro q m hq hm
    by_cases hqp : q = p
    · rw [hqp, Function.update_self] at hq
      exact absurd hq.symm hm
    · rwa [Function.update_of_ne hqp] at hq
  refine ⟨h.unique, fun hq => h.owns (hother hq nofun), ?_, ?_, fun hq => h.gone (hother hq nofun)⟩
  · intro i q hq
    obtain ⟨st, c, hg⟩ := h.held hq
    have hqp : q ≠ p := by
      intro hqp
      rw [hqp, hp] at hg
      cases hg
    exact ⟨st, c, by rw [Function.update_of_ne hqp, hg]⟩
  · intro q i s hq hs hst
    exact h.settled (hother hq nofun) hs hst

/-- A step of `p` at the row `id`, which no other call holds: the other calls
keep what they know, and `p` ends as the holder, as settled or having deleted
the row. -/
theorem Owned.act {w w' : World} {o o' : Holders} {gs : Pid → Phase} {p : Pid} {m : Phase}
    (h : Owned w o gs) (id : ServerId) (hunique : w'.UniqueContainers)
    (hframe : ∀ i, i ≠ id → w'.servers.get i = w.servers.get i ∧ o' i = o i)
    (hfree : ∀ q, o id = some q → q = p)
    (hold : ∀ {j st c}, gs p = .owns j st c → j = id)
    (hkeep : w.servers.get id = none → w'.servers.get id = none)
    (hstop : ∀ s, w'.servers.get id = some s → s.status = .stopping → (o' id).isSome = true)
    (hm : (∃ st c s, m = .owns id st c ∧ o' id = some p ∧ (st = .starting ∨ st = .stopping) ∧
        w'.servers.get id = some s ∧ s.status = st ∧ s.containerId = c) ∨
      o' id = none ∧ (m = .settled id ∨ m = .ended ∨ m = .gone id ∧ w'.servers.get id = none)) :
    Owned w' o' (Function.update gs p m) := by
  refine ⟨hunique, ?_, ?_, ?_, ?_⟩
  · intro q i st c hq
    by_cases hqp : q = p
    · subst hqp
      rw [Function.update_self] at hq
      rcases hm with ⟨st', c', s, hm, ho, hst, hs⟩ | ⟨-, hm | hm | ⟨hm, -⟩⟩ <;> rw [hm] at hq
      · cases hq
        exact ⟨ho, hst, s, hs⟩
      all_goals cases hq
    · rw [Function.update_of_ne hqp] at hq
      obtain ⟨ho, hst, s, hs, hs'⟩ := h.owns hq
      have hi : i ≠ id := by
        intro hi
        rw [hi] at ho
        exact hqp (hfree q ho)
      rw [(hframe i hi).1, (hframe i hi).2]
      exact ⟨ho, hst, s, hs, hs'⟩
  · intro i q hq
    by_cases hi : i = id
    · subst hi
      rcases hm with ⟨st, c, s, hm, ho, -⟩ | ⟨ho, -⟩
      · rw [ho, Option.some.injEq] at hq
        subst hq
        exact ⟨st, c, by rw [Function.update_self, hm]⟩
      · rw [ho] at hq; cases hq
    · rw [(hframe i hi).2] at hq
      obtain ⟨st, c, hg⟩ := h.held hq
      have hqp : q ≠ p := by
        intro hqp
        rw [hqp] at hg
        exact hi (hold hg)
      exact ⟨st, c, by rw [Function.update_of_ne hqp, hg]⟩
  · intro q i s hq hs hst
    by_cases hi : i = id
    · subst hi
      exact hstop s hs hst
    · rw [(hframe i hi).1] at hs
      rw [(hframe i hi).2]
      by_cases hqp : q = p
      · subst hqp
        rw [Function.update_self] at hq
        rcases hm with ⟨_, _, _, hm, -⟩ | ⟨-, hm | hm | ⟨hm, -⟩⟩ <;> rw [hm] at hq <;> cases hq
        exact absurd rfl hi
      · rw [Function.update_of_ne hqp] at hq
        exact h.settled hq hs hst
  · intro q i hq
    by_cases hqp : q = p
    · subst hqp
      rw [Function.update_self] at hq
      rcases hm with ⟨st, c, s, hm, -⟩ | ⟨-, hm | hm | ⟨hm, hs⟩⟩ <;> rw [hm] at hq <;> cases hq
      exact hs
    · rw [Function.update_of_ne hqp] at hq
      by_cases hi : i = id
      · subst hi
        exact hkeep (h.gone hq)
      · rw [(hframe i hi).1]
        exact h.gone hq

/-- Another call cannot hold a row that is neither STARTING nor STOPPING. -/
theorem Owned.unheld {w : World} {o : Holders} {gs : Pid → Phase} (h : Owned w o gs)
    {id : ServerId} {s : Server} (hs : w.servers.get id = some s) (h₁ : s.status ≠ .starting)
    (h₂ : s.status ≠ .stopping) (q : Pid) : o id ≠ some q := by
  intro hq
  obtain ⟨st, c, hg⟩ := h.held hq
  obtain ⟨-, hst, s', hs', hst', -⟩ := h.owns hg
  rw [hs, Option.some.injEq] at hs'
  subst hs'
  rcases hst with rfl | rfl
  · exact h₁ hst'
  · exact h₂ hst'

theorem isClaim_iff {s s' : ServerStatus} : isClaim s s' = true ↔
    (s = .stopped ∨ s = .running) ∧ (s' = .starting ∨ s' = .stopping) ∧
      ¬ (s = .running ∧ s' = .starting) := by
  cases s <;> cases s' <;> simp [isClaim]

/-- A step of a call that has claimed nothing yet: its transition is a claim. -/
theorem Owned.claim {w w' : World} {o : Holders} {gs : Pid → Phase} {p : Pid} {op : Op} {e : Env}
    {id : ServerId} {s s' : ServerStatus} {cid : Option ContainerId}
    {b : Except String (Option Server)} (h : Owned w o gs) (hp : gs p = .fresh)
    (hs : isClaim s s' = true)
    (hx : exec p (.updateTransition id s s' cid none) e w = some (b, w')) :
    ∃ m, (gs p).next op (.updateTransition id s s' cid none) b m ∧
      Owned w' (o.next p (.updateTransition id s s' cid none) b) (Function.update gs p m) := by
  rcases exec_updateTransition hx h.unique with ⟨rfl, hw, -⟩ | ⟨r, hr, hrs, hrc, rfl, hget⟩
  · refine ⟨.fresh, ?_, h.frame hw hp⟩
    rw [hp]
    rfl
  · obtain ⟨hfrom, hto, -⟩ := isClaim_iff.mp hs
    refine ⟨.owns id s' cid, ?_, ?_⟩
    · rw [hp]
      exact ⟨rfl, hrc⟩
    · have hholder : Holders.next o p (.updateTransition id s s' cid none)
          (.ok (some (Server.moved r s' w.clock))) id = some p := by
        change Holders.moved o p id s s' id = some p
        rw [Holders.moved, if_pos hs, Function.update_self]
      refine h.act id (exec_uniqueContainers hx h.unique) (fun i hi => ?_) (fun q hq => ?_) ?_ ?_
        (fun _ _ _ => by rw [hholder]; rfl) ?_
      · rw [hget, if_neg hi]
        refine ⟨rfl, ?_⟩
        change Holders.moved o p id s s' i = o i
        rw [Holders.moved, if_pos hs, Function.update_of_ne hi]
      · refine absurd hq (h.unheld hr ?_ ?_ q) <;> rw [hrs] <;> rcases hfrom with rfl | rfl <;> decide
      · intro j st c hj
        rw [hp] at hj
        cases hj
      · intro hn
        rw [hr] at hn
        cases hn
      · exact Or.inl ⟨s', cid, Server.moved r s' w.clock, rfl, hholder, hto,
          by rw [hget, if_pos rfl], rfl, hrc⟩

/-- A transition of the holder: it cannot miss. -/
theorem Owned.settle {w w' : World} {o : Holders} {gs : Pid → Phase} {p : Pid} {op : Op} {e : Env}
    {id : ServerId} {s s' : ServerStatus} {cid : Option ContainerId}
    {b : Except String (Option Server)} (h : Owned w o gs) (hp : gs p = .owns id s cid)
    (hs' : s' ≠ .stopping)
    (hx : exec p (.updateTransition id s s' cid none) e w = some (b, w')) :
    ∃ m, (gs p).next op (.updateTransition id s s' cid none) b m ∧
      Owned w' (o.next p (.updateTransition id s s' cid none) b) (Function.update gs p m) := by
  obtain ⟨ho, hst, x, hx₁, hx₂, hx₃⟩ := h.owns hp
  rcases exec_updateTransition hx h.unique with ⟨-, -, hmiss⟩ | ⟨r, hr, hrs, hrc, rfl, hget⟩
  · exact absurd ⟨hx₂, hx₃⟩ (hmiss x hx₁)
  · have hclaim : isClaim s s' = false := by rcases hst with rfl | rfl <;> rfl
    have hmoved : ∀ i, o.next p (.updateTransition id s s' cid none)
        (.ok (some (Server.moved r s' w.clock))) i =
        if i = id ∧ s' ≠ .starting then none else o i := by
      intro i
      change Holders.moved o p id s s' i = _
      unfold Holders.moved
      rw [if_neg (by rw [hclaim]; decide)]
      by_cases hstart : s' = .starting
      · simp [hstart]
      · by_cases hi : i = id
        · simp [ho, hstart, hi]
        · simp [ho, hstart, hi]
    refine ⟨Phase.after op id s s' cid, ?_, ?_⟩
    · rw [hp]
      rfl
    · refine h.act id (exec_uniqueContainers hx h.unique) (fun i hi => ?_) (fun q hq => ?_) ?_ ?_
        (fun t ht hst => ?_) ?_
      · rw [hget, if_neg hi, hmoved, if_neg (fun hc => hi hc.1)]
        exact ⟨rfl, rfl⟩
      · rw [ho, Option.some.injEq] at hq
        exact hq.symm
      · intro j st c hj
        rw [hp] at hj
        cases hj
        rfl
      · intro hn
        rw [hr] at hn
        cases hn
      · rw [hget, if_pos rfl, Option.some.injEq] at ht
        rw [← ht] at hst
        exact absurd hst hs'
      · by_cases hstart : s' = .starting
        · refine Or.inl ⟨.starting, cid, Server.moved r s' w.clock, ?_, ?_, Or.inl rfl,
            ?_, hstart, hrc⟩
          · rw [Phase.after, if_pos hstart]
          · rw [hmoved, if_neg (fun hc => hc.2 hstart), ho]
          · rw [hget, if_pos rfl]
        · refine Or.inr ⟨by rw [hmoved, if_pos ⟨rfl, hstart⟩], ?_⟩
          rw [Phase.after, if_neg hstart]
          split
          · exact Or.inl rfl
          · exact Or.inr (Or.inl rfl)

/-- The DELETE of a holder in STOPPING, or of a call that has deleted already. -/
theorem Owned.delete {w w' : World} {o : Holders} {gs : Pid → Phase} {p : Pid} {e : Env}
    {id : ServerId} {st : ServerStatus} {b : Unit} (h : Owned w o gs)
    (hp : (∃ c, gs p = .owns id .stopping c ∧ st = .stopping) ∨ gs p = .gone id)
    (hx : exec p (.deleteInStatus id st) e w = some (b, w')) :
    Owned w' (o.next p (.deleteInStatus id st) b) (Function.update gs p (.gone id)) := by
  have hget := exec_deleteInStatus_get hx
  have hother : ∀ i, i ≠ id → w'.servers.get i = w.servers.get i := by
    intro i hi
    rw [hget i]
    cases hs : w.servers.get i with
    | none => rfl
    | some s => simp [Table.get_key hs, hi]
  have hnext : ∀ i, o.next p (.deleteInStatus id st) b i =
      if i = id ∧ o id = some p then none else o i := by
    intro i
    change (if o id = some p then Function.update o id none else o) i = _
    by_cases ho : o id = some p
    · by_cases hi : i = id <;> simp [ho, hi]
    · simp [ho]
  have hfree : ∀ q, o id = some q → q = p := by
    intro q hq
    rcases hp with ⟨c, hp, -⟩ | hp
    · have ho := (h.owns hp).1
      rw [hq, Option.some.injEq] at ho
      exact ho
    · obtain ⟨st', c, hg⟩ := h.held hq
      obtain ⟨-, -, s, hs, -⟩ := h.owns hg
      rw [h.gone hp] at hs
      cases hs
  have hnone : w'.servers.get id = none := by
    rw [hget id]
    rcases hp with ⟨c, hp, rfl⟩ | hp
    · obtain ⟨-, -, s, hs, hst, -⟩ := h.owns hp
      simp [hs, Table.get_key hs, hst]
    · rw [h.gone hp]
      rfl
  refine h.act id (exec_uniqueContainers hx h.unique) (fun i hi => ⟨hother i hi, ?_⟩) hfree ?_
    (fun _ => hnone) (fun s hs => by rw [hnone] at hs; cases hs) ?_
  · rw [hnext, if_neg (fun hc => hi hc.1)]
  · intro j st' c hj
    rcases hp with ⟨c', hp, -⟩ | hp
    · rw [hp] at hj
      cases hj
      rfl
    · rw [hp] at hj
      cases hj
  · refine Or.inr ⟨?_, Or.inr (Or.inr ⟨rfl, hnone⟩)⟩
    rw [hnext]
    split
    · rfl
    next hc =>
      cases ho : o id with
      | none => rfl
      | some q =>
          rw [hfree q ho] at ho
          exact absurd ⟨rfl, ho⟩ hc

/-- **One step.**  Without a late catch-all, every step an allowed call takes
keeps the invariant. -/
theorem Owned.step {w w' : World} {o : Holders} {gs : Pid → Phase} {p : Pid} {op : Op} {β : Type}
    {a : Act β} {e : Env} {b : β} (h : Owned w o gs) (ha : (gs p).allow op a)
    (hg : lateCatch o w p op a = false) (hx : exec p a e w = some (b, w')) :
    ∃ m, (gs p).next op a b m ∧ Owned w' (o.next p a b) (Function.update gs p m) := by
  cases a
  case updateTransition id s s' cid new =>
    obtain ⟨rfl, hmove⟩ := ha
    cases hp : gs p with
    | fresh =>
        rw [hp] at hmove
        rw [← hp]
        exact h.claim hp hmove hx
    | owns i st c =>
        rw [hp] at hmove
        obtain ⟨rfl, rfl, rfl, hs'⟩ := hmove
        rw [← hp]
        exact h.settle hp hs' hx
    | settled i =>
        rw [hp] at hmove
        obtain ⟨hop, rfl, rfl, rfl⟩ := hmove
        rcases exec_updateTransition hx h.unique with ⟨rfl, hw, -⟩ | ⟨r, hr, hrs, hrc, -, -⟩
        · exact ⟨.ended, rfl, (h.of_servers hw).retire hp⟩
        · -- a hit would be a late catch-all: somebody else has claimed the row since
          obtain ⟨q, hq⟩ := Option.isSome_iff_exists.mp (h.settled hp hr hrs)
          have hqp : q ≠ p := by
            intro hqp
            obtain ⟨st, c, hgq⟩ := h.held hq
            rw [hqp, hp] at hgq
            cases hgq
          simp [lateCatch, hop, hq, hqp, hr, hrs, hrc] at hg
    | gone i => rw [hp] at hmove; exact hmove.elim
    | ended => rw [hp] at hmove; exact hmove.elim
  case deleteInStatus id st =>
    cases hp : gs p with
    | fresh => rw [hp] at ha; exact ha.elim
    | settled i => rw [hp] at ha; exact ha.elim
    | ended => rw [hp] at ha; exact ha.elim
    | owns i s c =>
        rw [hp] at ha
        obtain ⟨rfl, rfl, rfl⟩ := ha
        exact ⟨_, rfl, h.delete (Or.inl ⟨c, hp, rfl⟩) hx⟩
    | gone i =>
        rw [hp] at ha
        cases ha
        exact ⟨_, rfl, h.delete (Or.inr hp) hx⟩
  case insertServer => cases ha
  case updateContainerId => cases ha
  case updateCreateError => cases ha
  case updateReconciled => cases ha
  all_goals exact ⟨gs p, rfl, h.frame (exec_servers_frame hx rfl) rfl⟩

theorem Settled.not_live {op : Op} {r : Reply} {m : Phase} (h : Settled op r m) :
    m.isLive = false := by
  cases op
  case delete id principal =>
    rw [show m = .gone id from h]
    rfl
  all_goals exact h

/-- The death of the process: the calls that survive it have ended, so none of
them held a claim. -/
theorem Owned.reboot {w : World} {o : Holders} {gs : Pid → Phase} (h : Owned w o gs)
    (alive : Pid → Bool)
    (hend : ∀ p, alive p = true →
      ∃ op, (∃ r, Settled op r (gs p)) ∨ ∃ _ : Exn, (gs p).isLive = false) :
    Owned { w with lock := none } (fun _ => none)
      fun p => if alive p then gs p else .fresh := by
  have hdead : ∀ p, (if alive p then gs p else Phase.fresh).isLive = false := by
    intro p
    by_cases ha : alive p = true
    · rw [if_pos ha]
      obtain ⟨op, ⟨r, hs⟩ | ⟨_, he⟩⟩ := hend p ha
      · exact hs.not_live
      · exact he
    · rw [if_neg ha]
      rfl
  refine ⟨h.unique, ?_, nofun, ?_, ?_⟩
  · intro p id st c hp
    have := hdead p
    rw [hp] at this
    cases this
  · intro p id s hp
    have := hdead p
    rw [hp] at this
    cases this
  · intro p id hp
    by_cases ha : alive p = true
    · rw [if_pos ha] at hp
      exact h.gone hp
    · rw [if_neg ha] at hp
      cases hp

/-! ## §5. Runs. -/

/-- **Every run** without a late catch-all: there are phases for all calls that
satisfy the invariant and that their code respects. -/
theorem lifecycle_owned {settings : Settings} {w₀ : World} {c : Conf} {o : Holders}
    (hw : w₀.UniqueContainers)
    (h : (system settings).Reach noLateCatch (Config.init w₀) (fun _ => none) c o) :
    ∃ gs, Owned c.world o gs ∧
      System.Tracks ownership .fresh Settled (fun _ _ m => m.isLive = false) c gs := by
  refine System.Reach.sound (M := ownership) (fun _ => Phase.fresh) Owned ?_ ?_ ?_ ?_ ?_ ?_ h
  · intro o w p op hop
    exact body_owns settings op hop
  · intro w o gs p op hI hp _
    exact hI.frame rfl hp
  · intro w o gs p op β a e b w' hI ha hg hx
    refine hI.step ha ?_ hx
    simpa [noLateCatch] using hg
  · intro w o gs e w' hI hx
    cases hx
    exact hI.of_servers rfl
  · intro w o gs e w' alive hI hx hend _
    cases hx
    exact hI.reboot alive hend
  · refine ⟨hw, ?_, ?_, ?_, ?_⟩ <;> intros <;> contradiction

/-- **Exclusive lifecycle ownership**: in every interleaving in which no late
catch-all of a restart finds its row STOPPING under another call's claim. -/
theorem exclusive_of_no_late_catch (settings : Settings) (w₀ : World) (hw : w₀.UniqueContainers)
    (c : Conf) (o : Holders)
    (h : (system settings).Reach noLateCatch (Config.init w₀) (fun _ => none) c o) :
    Exclusive noLateCatch c o := by
  obtain ⟨gs, hI, hT⟩ := lifecycle_owned hw h
  refine ⟨?_, ?_, ?_⟩
  · intro p q id op β a k e b w' hq hpq hp hg hx
    obtain ⟨st, cid, hgq⟩ := hI.held hq
    obtain ⟨-, -, s, hs, hst, -⟩ := hI.owns hgq
    obtain ⟨m, -, hI'⟩ := hI.step (hT.allow hp) (by simpa [noLateCatch] using hg) hx
    -- the holder's phase is untouched by the step, so it still pins the status
    obtain ⟨-, -, s', hs', hst', -⟩ :=
      hI'.owns (p := q) (by rw [Function.update_of_ne (Ne.symm hpq), hgq])
    rw [hs', row, hs, Option.map_some, Option.map_some, hst, hst']
  · intro p q id op β a k s cid hq hpq hp hs hcid hmut
    obtain ⟨st, c', hgq⟩ := hI.held hq
    obtain ⟨id', st', hgp⟩ : ∃ id' st', gs p = .owns id' st' (some cid) := by
      have ha := hT.allow hp
      cases a <;> cases hmut <;> exact ha
    obtain ⟨hop, -, s', hs', -, hc'⟩ := hI.owns hgp
    have hid : id' = id := hI.unique _ _ _ _ _ hs' hs hc' hcid
    rw [hid, hq, Option.some.injEq] at hop
    exact hpq hop.symm
  · intro p id principal r hp
    exact hI.gone (hT.returned hp)

/-- A restart whose start is rejected, a delete that claims the row before the
restart's outer handler runs, and the handler after the delete has finished. -/
def deleteAfterRestart : List (Event Env Op) :=
  [.invoke 0 (.restart 1 sampleAdmin), .step 0 {}, .step 0 {}, .step 0 { rcon := .error .exec },
   .step 0 {}, .step 0 sampleInfo, .step 0 sampleStats, .step 0 {}, .step 0 {}, .step 0 {},
   .step 0 { reply := .error ⟨none, some 500⟩, effect := false }, .step 0 {},
   .invoke 1 (.delete 1 sampleAdmin), .step 1 {}, .step 1 {}, .step 1 {}, .step 1 {},
   .step 0 {}]

/-- In that run the delete resolves, and the theorem says that its row is gone. -/
theorem deleteAfterRestart_exclusive :
    ∃ c o, (system sampleSettings).Reach noLateCatch (Config.init (sampleWorld .running true))
        (fun _ => none) c o ∧
      c.returned 1 (.delete 1 sampleAdmin) .done ∧ Exclusive noLateCatch c o := by
  obtain ⟨c, o, h, ht⟩ := System.Reach.of_replay (S := system sampleSettings) (V := noLateCatch)
    (sampleWorld .running true) (fun _ => none) deleteAfterRestart
    (fun c _ => c.result 1 == some (.delete 1 sampleAdmin, .done)) (by decide +kernel)
  exact ⟨c, o, h, Config.returned_of_result (by simpa using ht),
    exclusive_of_no_late_catch _ _ (sampleWorld_unique _ _) c o h⟩

/-- The same calls, with the restart's handler running between the delete's
claim and its removal. -/
def deleteDuringRestart : List (Event Env Op) :=
  [.invoke 0 (.restart 1 sampleAdmin), .step 0 {}, .step 0 {}, .step 0 { rcon := .error .exec },
   .step 0 {}, .step 0 sampleInfo, .step 0 sampleStats, .step 0 {}, .step 0 {}, .step 0 {},
   .step 0 { reply := .error ⟨none, some 500⟩, effect := false }, .step 0 {},
   .invoke 1 (.delete 1 sampleAdmin), .step 1 {}, .step 1 {},
   .step 0 {},
   .step 1 {}, .step 1 {}]

/-- **The late catch-all steals a claim**: the delete removes the container and
resolves, and its row is still there, STOPPED. -/
theorem restart_steals_the_claim :
    ¬ ∀ (settings : Settings) (w₀ : World), w₀.UniqueContainers → ∀ (c : Conf) (o : Holders),
      (system settings).Reach lifecycle (Config.init w₀) (fun _ => none) c o →
      Exclusive lifecycle c o := by
  intro hall
  obtain ⟨c, o, h, ht⟩ := System.Reach.of_replay (S := system sampleSettings) (V := lifecycle)
    (sampleWorld .running true) (fun _ => none) deleteDuringRestart
    (fun c _ => c.result 1 == some (.delete 1 sampleAdmin, .done) && (row c 1).isSome)
    (by decide +kernel)
  rw [Bool.and_eq_true, beq_iff_eq] at ht
  have hgone := (hall _ _ (sampleWorld_unique _ _) c o h).deleted (Config.returned_of_result ht.1)
  rw [hgone] at ht
  cases ht.2

end MinePanel.Servers
