/-
  MinePanel.Servers.Settlement
  ────────────────────────────
  **IS THE STORED STATUS TRUE?**

  create, start, stop and restart write RUNNING or STOPPED after a Docker
  request has been answered, and ERROR where they cannot know.  Against a daemon
  that keeps its promises (`honest`), `Truthful` says that a RUNNING row has a
  running container and a STOPPED row has not.

  The classifier decides "cannot know" from a closed list of transport codes.
  A request that fails without an HTTP status and with a code off the list is
  taken for a rejection: the row is settled as if nothing had happened
  (`unlisted_code_is_believed`).  In every interleaving in which every
  unanswered start or stop of start, stop and restart carries a listed code, and
  no late catch-all of a restart hits another call's claim, the stored status is
  true at every moment and every unanswered request ends in ERROR
  (`truthful_of_listed_codes`); create asks for nothing.
-/
import MinePanel.Servers.Ownership

namespace MinePanel.Servers

open MinePanel.Db MinePanel.Docker MinePanel.Lib Prog

/-! ## §1. The daemon's promises, the history, the property. -/

/-- The answer means that the container is in the wanted state: 2xx or 304. -/
def inWantedState : Except DockerError Unit → Bool
  | .ok _ => true
  | .error x => x.statusCode == some 304

/-- The outcome is open: no HTTP status, or a gateway's. -/
def openOutcome : Except DockerError Unit → Bool
  | .ok _ => false
  | .error x => x.unanswered || x.gatewayStatus

/-- The request got no HTTP status at all. -/
def gotNoAnswer : Except DockerError Unit → Bool
  | .ok _ => false
  | .error x => x.unanswered

/-- What the daemon promises about a start (`want = true`) or a stop: an answer
of 2xx or 304 took effect, 404 means that there is no such container, and any
other answered error had no effect. -/
def keepsPromise (w : World) (want : Bool) (cid : ContainerId) (e : Env) : Bool :=
  if inWantedState e.reply then
    w.isRunning cid == want || (e.effect && (!want || (w.daemon.get cid).isSome))
  else match e.reply with
    | .ok _ => true
    | .error x =>
      if x.statusCode = some 404 then (w.daemon.get cid).isNone
      else openOutcome e.reply || !e.effect

/-- The daemon's promises. -/
def honest (w : World) : ∀ {β : Type}, Act β → Env → Bool
  | _, .dockerStart cid, e => keepsPromise w true cid e
  | _, .dockerStop cid _, e => keepsPromise w false cid e
  | _, _, _ => true

/-- An answer, or a transport error with a code of `DAEMON_UNREACHABLE_CODES`. -/
def answeredOrListed : Except DockerError Unit → Bool
  | .ok _ => true
  | .error x => !x.unanswered || isDaemonUnreachable x

/-- A create; it settles in ERROR after any failed start, whatever its code. -/
def Op.creates : Op → Bool
  | .create _ _ => true
  | _ => false

/-- Every unanswered start or stop of start, stop and restart carries a listed
code. -/
def listedCode (op : Op) : ∀ {β : Type}, Act β → Env → Bool
  | _, .dockerStart _, e => op.creates || answeredOrListed e.reply
  | _, .dockerStop _ _, e => answeredOrListed e.reply
  | _, _, _ => true

/-- Who holds which row, and whose start or stop of which container was left
unanswered. -/
structure Books where
  holder : Holders
  lost : Pid → Option ContainerId

/-- The books of a fresh process. -/
def Books.blank : Books := ⟨fun _ => none, fun _ => none⟩

/-- The holder of `id` gives it up. -/
def Books.drop (o : Books) (p : Pid) (id : ServerId) : Books :=
  if o.holder id = some p then { o with holder := Function.update o.holder id none } else o

/-- The request of `p` got this reply. -/
def Books.hear (o : Books) (p : Pid) (cid : ContainerId) (reply : Except DockerError Unit) :
    Books :=
  if gotNoAnswer reply then { o with lost := Function.update o.lost p (some cid) } else o

/-- The books after a step of `p`. -/
def Books.next (o : Books) (p : Pid) : ∀ {β : Type}, Act β → β → Books
  | _, .insertServer _, b =>
      match b with
      | .ok r => { o with holder := Function.update o.holder r.id (some p) }
      | .error _ => o
  | _, .updateTransition id s s' _ _, b =>
      match b with
      | .ok (some _) => { o with holder := o.holder.moved p id s s' }
      | _ => o
  | _, .updateCreateError id _, b => if b.isOk then o.drop p id else o
  | _, .deleteInStatus id _, _ => o.drop p id
  | _, .dockerStart cid, b => o.hear p cid b
  | _, .dockerStop cid _, b => o.hear p cid b
  | _, _, _ => o

namespace Op

/-- create, start, stop or restart. -/
def settles : Op → Bool
  | .create _ _ => true
  | .start _ _ => true
  | .stop _ _ => true
  | .restart _ _ => true
  | _ => false

end Op

/-- Every interleaving of create, start, stop and restart calls against an
honest daemon. -/
def honestDaemon : Watch Act World Env Op Books where
  accepts := fun _ _ _ op => op.settles
  guard := fun _ w _ _ _ a e => honest w a e
  onStep := fun o _ p _ _ a b _ => o.next p a b
  onReboot := fun _ _ _ => Books.blank

/-- The interleavings in which unanswered requests carry listed codes and no
late catch-all hits. -/
def listedCodes : Watch Act World Env Op Books :=
  { honestDaemon with
    guard := fun o w p op _ a e => honest w a e && listedCode op a e && !lateCatch o.holder w p op a }

/-- The stored status of one row is true. -/
def World.TruthfulAt (w : World) (id : ServerId) : Prop :=
  ∀ s cid, w.servers.get id = some s → s.containerId = some cid →
    (s.status = .running → w.isRunning cid = true) ∧
    (s.status = .stopped → w.isRunning cid = false)

/-- RUNNING rows have a running container, STOPPED rows have not. -/
def World.Truthful (w : World) : Prop := ∀ id, w.TruthfulAt id

/-- **Truthful settlement** in a configuration: the stored status is true, and
an unanswered start or stop of a call that has ended has left its row in
ERROR. -/
structure SettledTruly (c : Conf) (o : Books) : Prop where
  truthful : c.world.Truthful
  unanswered : ∀ {p : Pid} {t : Task Act Exn Reply Op} {cid : ContainerId}, o.lost p = some cid →
    c.calls p = some t → t.rest.isDone = true →
    ∃ id s, row c id = some s ∧ s.containerId = some cid ∧ s.status = .error

/-! ## §2. The monitor. -/

/-- What a holder knows about its container. -/
inductive Known where
  | unknown
  | sure (running : Bool)
  /-- The outcome of its request is open. -/
  | lost
  deriving DecidableEq

/-- What a reply tells. -/
def Known.learn (want : Bool) (reply : Except DockerError Unit) (k : Known) : Known :=
  if inWantedState reply then .sure want
  else if openOutcome reply then .lost
  else match reply with
    | .ok _ => k
    | .error x => if x.statusCode = some 404 then .sure false else k

/-- Where a call stands. -/
inductive Settling where
  | fresh
  /-- A create with its CREATING row, no container attached yet. -/
  | making (id : ServerId)
  | owns (id : ServerId) (status : ServerStatus) (containerId : ContainerId) (known : Known)
  /-- A restart whose start phase has failed and settled. -/
  | settled (id : ServerId)
  | ended

namespace Settling

/-- The call can still settle a row. -/
def isLive : Settling → Bool
  | .fresh => false
  | .ended => false
  | _ => true

/-- A create that cannot look its container up leaves its row as it is. -/
def giveUp : Settling → Settling
  | .making _ => .ended
  | m => m

/-- The row a call works on as its holder. -/
def about : Settling → Option ServerId
  | .making id => some id
  | .owns id _ _ _ => some id
  | _ => none

/-- The status a holder may write, from what it knows. -/
def mayWrite (known : Known) (status : ServerStatus) : ServerStatus → Prop
  | .running => known = .sure true
  | .stopped => known = .sure false
  | .starting => status = .stopping ∧ known = .sure false
  | .error => True
  | _ => False

theorem mayWrite_lost {s s' : ServerStatus} (h : mayWrite .lost s s') : s' = .error := by
  cases s' with
  | error => rfl
  | starting => cases h.2
  | _ => cases h

/-- The transitions a call may issue. -/
def mayMove (op : Op) (id : ServerId) (s s' : ServerStatus) (c : Option ContainerId) :
    Settling → Prop
  | .fresh => (∃ cid, c = some cid) ∧
      (s = .stopped ∧ s' = .starting ∨ s = .running ∧ s' = .stopping)
  | .owns i st cid known => id = i ∧ s = st ∧ c = some cid ∧ mayWrite known st s'
  | .settled i => op.isRestart = true ∧ id = i ∧ s = .stopping ∧ s' = .stopped
  | _ => False

/-- What a call of `op` may do next. -/
def allow (op : Op) : Settling → ∀ {β : Type}, Act β → Prop
  | m, _, .insertServer n => m = .fresh ∧ n.status = .creating
  | m, _, .updateTransition id s s' c new => new = none ∧ m.mayMove op id s s' c
  | m, _, .updateContainerId id _ => m = .making id
  | m, _, .updateCreateError id _ => m = .making id
  | m, _, .deleteInStatus id st => m = .making id ∧ st = .creating
  | m, _, .dockerStart cid => ∃ id s k, m = .owns id s cid k ∧ k ≠ .lost
  | m, _, .dockerStop cid _ => ∃ id s k, m = .owns id s cid k ∧ k ≠ .lost
  | _, _, .dockerCreate _ => True
  | _, _, a => a.silent = true

/-- The phase after a transition of the holder. -/
def after (op : Op) (id : ServerId) (s s' : ServerStatus) (cid : ContainerId) (known : Known) :
    Settling :=
  if s' = .starting then .owns id .starting cid known
  else if s = .starting ∧ s' ≠ .running ∧ op.isRestart = true then .settled id
  else .ended

/-- The phase a transition leads to. -/
def moves (op : Op) (id : ServerId) (s s' : ServerStatus) (c : Option ContainerId)
    (m' : Settling) : Settling → Option Server → Prop
  | .fresh, none => m' = .fresh
  | .fresh, some _ => ∃ cid, c = some cid ∧ m' = .owns id s' cid (.sure (decide (s = .running)))
  | .owns _ _ _ _, none => False
  | .owns _ _ cid known, some _ => m' = after op id s s' cid known
  | .settled _, _ => m' = .ended
  | m, _ => m' = m

/-- The holder hears the reply to its start or stop. -/
def hears (want : Bool) (reply : Except DockerError Unit) : Settling → Settling
  | .owns id s cid known => .owns id s cid (known.learn want reply)
  | m => m

/-- The phase after a step. -/
def next (op : Op) : Settling → ∀ {β : Type}, Act β → β → Settling → Prop
  | m, _, .insertServer _, b, m' =>
      match b with
      | .ok r => m' = .making r.id
      | .error _ => m' = m
  | m, _, .updateTransition id s s' c _, b, m' =>
      match b with
      | .error _ => False
      | .ok r => moves op id s s' c m' m r
  | _, _, .updateContainerId id cid, b, m' =>
      match b with
      | .error _ => m' = .ended
      | .ok none => False
      | .ok (some _) => m' = .owns id .creating cid .unknown
  | _, _, .updateCreateError _ _, _, m' => m' = .ended
  | _, _, .deleteInStatus _ _, _, m' => m' = .ended
  | m, _, .dockerStart _, b, m' =>
      m' = m.hears true b ∧ (op.creates || answeredOrListed b) = true
  | m, _, .dockerStop _ _, b, m' => m' = m.hears false b ∧ answeredOrListed b = true
  | m, _, .dockerList _, b, m' => m' = if b.isOk then m else m.giveUp
  | m, _, _, _, m' => m' = m

end Settling

/-- The settlement monitor of one operation. -/
def settlement (op : Op) : Monitor Act Settling where
  allow := fun m a => m.allow op a
  next := fun m a b m' => m.next op a b m'

theorem settlement_deaf (op : Op) (m : Settling) (hm : m.giveUp = m) :
    Deaf (settlement op) m := by
  intro β a ha
  cases a <;> simp only [Act.silent, Act.inert, Bool.false_eq_true] at ha
  case dockerList id =>
    refine ⟨rfl, fun b m' h => ?_⟩
    change m' = if b.isOk then m else m.giveUp at h
    rw [h, hm, ite_self]
  all_goals exact ⟨rfl, fun _ _ h => h⟩

/-! ## §3. Every operation follows the monitor. -/

/-- **What a believed rejection tells.**  With listed codes only, an error that
is not classified as unavailable was answered: nothing has changed, or the
container does not exist. -/
theorem learn_of_answered (want : Bool) (k : Known) {x : DockerError} {context : String}
    (h304 : x.statusCode ≠ some 304)
    (hlisted : answeredOrListed (.error x) = true)
    (h : (handleDockerError x context).isServiceUnavailable = false) :
    k.learn want (.error x) = if x.statusCode = some 404 then .sure false else k := by
  have hnot : ¬ (isDaemonUnreachable x = true ∨ x.gatewayStatus = true) := by
    rw [← handleDockerError_unavailable_iff x context, h]
    decide
  have hanswered : x.unanswered = false := by
    cases hu : x.unanswered with
    | false => rfl
    | true => exact absurd (Or.inl (by simpa [answeredOrListed, hu] using hlisted)) hnot
  have hgateway : x.gatewayStatus = false := by
    cases hg : x.gatewayStatus with
    | false => rfl
    | true => exact absurd (Or.inr hg) hnot
  simp [Known.learn, inWantedState, openOutcome, h304, hanswered, hgateway]

theorem learn_of_accepted {want : Bool} {k : Known} {reply : Except DockerError Unit}
    (h : Accepted 304 reply) : k.learn want reply = .sure want := by
  have hw : inWantedState reply = true := by
    cases reply with
    | ok _ => rfl
    | error x => simpa [inWantedState, Accepted] using h
  unfold Known.learn
  rw [if_pos hw]

section Calls

variable {op : Op} {id : ServerId} {cid : ContainerId} {E : Exn → Settling → Prop}

/-- A holder writes what it knows. -/
theorem wp_write {s s' : ServerStatus} {k : Known} (hk : Settling.mayWrite k s s')
    {Q : Option Server → Settling → Prop}
    (hQ : ∀ r, Q (some r) (Settling.after op id s s' cid k)) :
    wp (settlement op) Q E (transition id s s' (some cid) none) (.owns id s cid k) := by
  refine wp_transition ⟨rfl, rfl, rfl, rfl, hk⟩ (fun _ _ h => h) fun r m' h => ?_
  cases r with
  | none => exact h.elim
  | some r =>
      change m' = _ at h
      rw [h]
      exact hQ r

/-- A write that leaves nothing to do. -/
theorem wp_write_over (s s' : ServerStatus) (k : Known) (hk : Settling.mayWrite k s s')
    (hs : s ≠ .starting ∨ s' = .running) (hs' : s' ≠ .starting)
    {Q : Option Server → Settling → Prop} (hQ : ∀ r, Q (some r) .ended) :
    wp (settlement op) Q E (transition id s s' (some cid) none) (.owns id s cid k) := by
  refine wp_write hk fun r => ?_
  have hover : Settling.after op id s s' cid k = .ended := by
    rw [Settling.after, if_neg hs', if_neg]
    rintro ⟨h₁, h₂, -⟩
    rcases hs with hs | hs
    · exact hs h₁
    · exact h₂ hs
  rw [hover]
  exact hQ r

/-- The start phase writes RUNNING, STOPPED or ERROR as it may. -/
theorem startPhase_truthful (hop : op.creates = false)
    (hE : ∀ e, E e (if op.isRestart then .settled id else .ended)) :
    wp (settlement op) (fun _ m => m = .ended) E (startPhase id cid)
      (.owns id .starting cid (.sure false)) := by
  have hfail : ∀ (e : Exn) (s' : ServerStatus) (k : Known), Settling.mayWrite k .starting s' →
      s' ≠ .starting → s' ≠ .running → ∀ {Q : Unit → Settling → Prop},
      wp (settlement op) Q E
        (do let _ ← transition id .starting s' (some cid) none; throw e : Call Unit)
        (.owns id .starting cid k) := by
    intro e s' k hk h₁ h₂ Q
    refine wp_seq (wp_write hk fun r => ?_)
    have hafter : Settling.after op id .starting s' cid k =
        if op.isRestart then .settled id else .ended := by
      simp [Settling.after, h₁, h₂]
    rw [hafter]
    exact hE e
  unfold startPhase
  rw [startContainer_eq, bind_eq, wp_bind, tryCatch_eq, wp_tryCatch]
  refine ⟨⟨id, _, _, rfl, nofun⟩, fun reply m' h => ?_⟩
  obtain ⟨rfl, hlisted⟩ := h
  rw [hop, Bool.false_or] at hlisted
  refine wp_settleReply (fun hacc => ?_) fun x hx h304 => ?_
  · have hk : Settling.hears true reply (.owns id .starting cid (.sure false)) =
        .owns id .starting cid (.sure true) := by
      rw [Settling.hears, learn_of_accepted hacc]
    rw [hk, bind_eq, wp_bind]
    exact wp_write_over .starting .running (.sure true) rfl (Or.inr rfl) (by decide) fun r => rfl
  · subst hx
    cases hu : (handleDockerError x "container").isServiceUnavailable with
    | true =>
        rw [if_pos rfl]
        exact hfail _ .error _ trivial (by decide) (by decide)
    | false =>
        rw [if_neg (by decide)]
        have hk : Settling.hears true (.error x) (.owns id .starting cid (.sure false)) =
            .owns id .starting cid (.sure false) := by
          rw [Settling.hears, learn_of_answered true (.sure false) h304 hlisted hu]
          split <;> rfl
        rw [hk]
        exact hfail _ .stopped (.sure false) rfl (by decide) (by decide)

/-- The stop phase. -/
theorem stopPhase_truthful {warnSeconds : Nat} {Q : Unit → Settling → Prop}
    (hQ : Q () (.owns id .stopping cid (.sure false))) (hE : ∀ e, E e .ended) :
    wp (settlement op) Q E (stopPhase id cid warnSeconds)
      (.owns id .stopping cid (.sure true)) := by
  have hfail : ∀ (e : Exn) (s' : ServerStatus) (k : Known), Settling.mayWrite k .stopping s' →
      s' ≠ .starting →
      wp (settlement op) Q E
        (do let _ ← transition id .stopping s' (some cid) none; throw e : Call Unit)
        (.owns id .stopping cid k) := by
    intro e s' k hk hs'
    exact wp_seq (wp_write_over .stopping s' k hk (Or.inl (by decide)) hs' fun r => hE e)
  unfold stopPhase
  rw [tryCatch_eq, wp_tryCatch]
  refine wp_gracefulStopContainer (settlement_deaf op _ rfl).steady fun t => ?_
  refine ⟨⟨id, _, _, rfl, nofun⟩, fun reply m' h => ?_⟩
  obtain ⟨rfl, hlisted⟩ := h
  refine wp_settleReply (fun hacc => ?_) fun x hx h304 => ?_
  · have hk : Settling.hears false reply (.owns id .stopping cid (.sure true)) =
        .owns id .stopping cid (.sure false) := by
      rw [Settling.hears, learn_of_accepted hacc]
    rw [hk]
    exact hQ
  · subst hx
    cases hu : (handleDockerError x "container").isServiceUnavailable with
    | true =>
        rw [if_pos rfl]
        exact hfail _ .error _ trivial (by decide)
    | false =>
        rw [if_neg (by decide)]
        have hlearn := learn_of_answered false (.sure true) h304 hlisted hu
        by_cases h404 : x.statusCode = some 404
        · rw [if_pos ((handleDockerError_notFound_iff x "container").mpr h404)]
          have hk : Settling.hears false (.error x) (.owns id .stopping cid (.sure true)) =
              .owns id .stopping cid (.sure false) := by
            rw [Settling.hears, hlearn, if_pos h404]
          rw [hk]
          exact hfail _ .stopped (.sure false) rfl (by decide)
        · rw [if_neg fun hn => h404 ((handleDockerError_notFound_iff x "container").mp hn)]
          have hk : Settling.hears false (.error x) (.owns id .stopping cid (.sure true)) =
              .owns id .stopping cid (.sure true) := by
            rw [Settling.hears, hlearn, if_neg h404]
          rw [hk]
          exact hfail _ .running (.sure true) rfl (by decide)

/-- The head of stop and restart takes over a RUNNING row, so a running
container. -/
theorem claimRunning_truthful {settings : Settings} {principal : ServerPrincipal}
    {Q : Server × ContainerId × Nat → Settling → Prop}
    (hQ : ∀ row cid warn, Q (row, cid, warn) (.owns id .stopping cid (.sure true)))
    (hE : ∀ e, E e .fresh) :
    wp (settlement op) Q E (claimRunning settings id principal) .fresh := by
  unfold claimRunning
  refine wp_seq (wp_loadVisibleServer rfl (fun s m' h => ?_) fun m' h => ?_)
  · cases h
    refine wp_guard (fun _ => hE _) fun _ => ?_
    cases s.containerId with
    | none => exact hE _
    | some cid =>
        refine wp_seq (wp_check (fun warn _ => ?_) fun e _ => hE e)
        refine wp_seq (wp_transition ⟨rfl, ⟨cid, rfl⟩, Or.inr ⟨rfl, rfl⟩⟩ (fun _ _ h => h)
          fun r m' h => ?_)
        cases r with
        | none =>
            cases h
            exact hE _
        | some r =>
            obtain ⟨cid', hcid, rfl⟩ := h
            cases hcid
            exact hQ s cid warn
  · cases h
    exact hE _

/-- `startServer`. -/
theorem startServer_truthful {settings : Settings} {principal : ServerPrincipal}
    (hop : op.isRestart = false) (hcreates : op.creates = false) :
    wp (settlement op) (fun _ m => m.isLive = false) (fun _ m => m.isLive = false)
      (startServer settings id principal) .fresh := by
  unfold startServer
  refine wp_seq (wp_loadVisibleServer rfl (fun s m' h => ?_) fun m' h => ?_)
  · cases h
    refine wp_guard (fun _ => rfl) fun _ => ?_
    cases s.containerId with
    | none => rfl
    | some cid =>
        refine wp_seq (wp_check (fun config _ => ?_) fun e _ => rfl)
        refine wp_seq ((hostReadings_inert settings).wp (settlement_deaf op _ rfl).steady ?_
          fun e _ => rfl)
        rintro ⟨hostInfo, diskInfo⟩
        refine wp_seq (wp_check (fun _ _ => ?_) fun e _ => rfl)
        refine wp_seq (wp_admitAndClaim (settlement_deaf op _ rfl)
          ⟨rfl, ⟨cid, rfl⟩, Or.inl ⟨rfl, rfl⟩⟩ (fun _ _ h => h) (fun r m' h => ?_) fun e => rfl)
        cases r with
        | none =>
            cases h
            rfl
        | some r =>
            obtain ⟨cid', hcid, rfl⟩ := h
            cases hcid
            refine wp_mono _ _ (fun _ m hm => ?_) (fun _ _ h => h)
              (startPhase_truthful hcreates fun e => by rw [hop]; rfl)
            rw [hm]
            rfl
  · cases h
    rfl

/-- `stopServer`. -/
theorem stopServer_truthful {settings : Settings} {principal : ServerPrincipal} :
    wp (settlement op) (fun _ m => m.isLive = false) (fun _ m => m.isLive = false)
      (stopServer settings id principal) .fresh := by
  unfold stopServer
  refine wp_seq (claimRunning_truthful (fun row cid warn => ?_) fun e => rfl)
  refine wp_seq (stopPhase_truthful ?_ fun e => rfl)
  exact wp_seq (wp_write_over .stopping .stopped (.sure false) rfl (Or.inl (by decide)) (by decide) fun r => rfl)

/-- `restartServer`. -/
theorem restartServer_truthful {settings : Settings} {principal : ServerPrincipal}
    (hop : op.isRestart = true) (hcreates : op.creates = false) :
    wp (settlement op) (fun _ m => m.isLive = false) (fun _ m => m.isLive = false)
      (restartServer settings id principal) .fresh := by
  unfold restartServer
  refine wp_seq (claimRunning_truthful (fun row cid warn => ?_) fun e => rfl)
  refine wp_seq (stopPhase_truthful ?_ fun e => rfl)
  rw [tryCatch_eq, wp_tryCatch]
  have howner : ∀ e : Exn, wp (settlement op) (fun _ m => m.isLive = false)
      (fun _ m => m.isLive = false)
      (do let _ ← transition id .stopping .stopped (some cid) none; throw e : Call PublicServer)
      (.owns id .stopping cid (.sure false)) :=
    fun e => wp_seq (wp_write_over .stopping .stopped (.sure false) rfl (Or.inl (by decide)) (by decide) fun r => rfl)
  have hlate : ∀ e : Exn, wp (settlement op) (fun _ m => m.isLive = false)
      (fun _ m => m.isLive = false)
      (do let _ ← transition id .stopping .stopped (some cid) none; throw e : Call PublicServer)
      (.settled id) := by
    intro e
    refine wp_seq (wp_transition ⟨rfl, hop, rfl, rfl, rfl⟩ (fun _ _ h => h) fun r m' h => ?_)
    have hm' : m' = .ended := by cases r <;> exact h
    rw [hm']
    rfl
  unfold restartStart
  refine wp_seq (wp_check (fun config _ => ?_) fun e _ => howner e)
  refine wp_seq ((hostReadings_inert settings).wp (settlement_deaf op _ rfl).steady ?_
    fun e _ => howner e)
  rintro ⟨hostInfo, diskInfo⟩
  refine wp_seq (wp_check (fun _ _ => ?_) fun e _ => howner e)
  refine wp_seq (wp_admitAndClaim (settlement_deaf op _ rfl) ⟨rfl, rfl, rfl, rfl, rfl, rfl⟩
    (fun _ _ h => h) (fun r m' h => ?_) howner)
  cases r with
  | none => exact h.elim
  | some r =>
      change m' = _ at h
      subst h
      refine wp_mono _ _ (fun _ m hm => ?_) (fun _ _ h => h)
        (startPhase_truthful hcreates fun e => by rw [hop]; exact hlate e)
      rw [hm]
      rfl

/-- The compensation of a failed create. -/
theorem compensateCreateFailure_truthful (e : Exn) {α : Type} {Q : α → Settling → Prop} :
    wp (settlement op) Q (fun _ m => m.isLive = false)
      (do compensateCreateFailure id; throw e : Call α) (.making id) := by
  refine wp_seq ?_
  unfold compensateCreateFailure findManagedContainer
  refine wp_seq (wp_seq ⟨rfl, fun b m' h => ?_⟩)
  change m' = if b.isOk then .making id else .ended at h
  subst h
  rcases b with x | _ | ⟨⟨_ | cid, state⟩, rest⟩
  · rfl
  · exact ⟨⟨rfl, rfl⟩, fun _ m' h => by rw [show m' = .ended from h]; rfl⟩
  · exact ⟨⟨rfl, rfl⟩, fun _ m' h => by rw [show m' = .ended from h]; rfl⟩
  · refine wp_statement rfl (fun c m' h => ?_) fun r m' h => ?_
    · rw [show m' = .ended from h]
      rfl
    · rw [show m' = .ended from h]
      rfl

/-- `createServer`. -/
theorem createServer_truthful {settings : Settings} {dto : CreateServerDto}
    {principal : ServerPrincipal} :
    wp (settlement op) (fun _ m => m.isLive = false) (fun _ m => m.isLive = false)
      (createServer settings dto principal) .fresh := by
  unfold createServer
  refine wp_seq (wp_check (fun config _ => ?_) fun e _ => rfl)
  refine wp_seq ((hostReadings_inert settings).wp (settlement_deaf op _ rfl).steady ?_ fun e _ => rfl)
  rintro ⟨hostInfo, diskInfo⟩
  refine wp_seq (wp_check (fun _ _ => ?_) fun e _ => rfl)
  have hrollback : ∀ (u : Unit) (m' : Settling),
      (settlement op).next .fresh .rollback u m' → m'.isLive = false := by
    intro u m' h
    rw [show m' = .fresh from h]
    rfl
  refine wp_seq (wp_transaction ?_)
  refine ⟨rfl, fun _ m₁ h₁ => ?_⟩
  cases h₁
  refine ⟨rfl, fun sum m₂ h₂ => ?_⟩
  cases h₂
  simp only [bind_ret, bind_eq]
  refine wp_seq (wp_check (fun _ _ => ?_) fun e _ => ⟨rfl, hrollback⟩)
  refine wp_statement ⟨rfl, rfl⟩ (fun c m₃ h₃ => ?_) fun created m₃ h₃ => ?_
  · cases h₃
    exact ⟨rfl, hrollback⟩
  cases h₃
  refine wp_seq ?_
  rw [tryCatch_eq, wp_tryCatch]
  have hcreate : ∀ {Q : ContainerId → Settling → Prop} {E : Exn → Settling → Prop},
      (∀ cid, Q cid (.making created.id)) → (∀ e, E e (.making created.id)) →
      wp (settlement op) Q E (createContainer settings created) (.making created.id) := by
    intro Q E hQ hE
    unfold createContainer
    cases settings.dockerConfig with
    | error message => exact hE _
    | ok docker =>
        refine wp_seq ?_
        unfold validateServerForCreate
        refine wp_guard (fun _ => hE _) fun _ => ?_
        refine wp_guard (fun _ => hE _) fun _ => ?_
        refine wp_guard (fun _ => hE _) fun _ => ?_
        refine ⟨trivial, fun reply m' h => ?_⟩
        cases h
        cases reply with
        | ok cid => exact hQ cid
        | error x => exact wp_guard (fun _ => hE _) fun _ => hE _
  refine hcreate (fun cid => ?_) fun e => compensateCreateFailure_truthful e
  refine wp_seq (wp_statement rfl (fun c m₄ h₄ => ?_) fun persisted m₄ h₄ => ?_)
  · cases h₄
    rfl
  cases persisted with
  | none => exact h₄.elim
  | some row =>
      cases h₄
      refine wp_seq ?_
      rw [startContainer_eq, tryCatch_eq, wp_tryCatch]
      refine ⟨⟨_, _, _, rfl, nofun⟩, fun reply m' h => ?_⟩
      obtain ⟨rfl, -⟩ := h
      refine wp_settleReply (fun hacc => ?_) fun x hx h304 => ?_
      · have hk : Settling.hears true reply (.owns created.id .creating cid .unknown) =
            .owns created.id .creating cid (.sure true) := by
          rw [Settling.hears, learn_of_accepted hacc]
        rw [hk]
        exact wp_seq (wp_write_over .creating .running (.sure true) rfl (Or.inl (by decide)) (by decide) fun r => rfl)
      · exact wp_seq (wp_write_over .creating .error _ trivial (Or.inl (by decide)) (by decide) fun r => rfl)

/-- **Every operation follows the settlement monitor.** -/
theorem body_truthful (settings : Settings) (op : Op) (hop : op.settles = true) :
    wp (settlement op) (fun _ m => m.isLive = false) (fun _ m => m.isLive = false)
      (body settings op) .fresh := by
  cases op with
  | create dto principal => exact wp_seq createServer_truthful
  | start id principal => exact wp_seq (startServer_truthful rfl rfl)
  | stop id principal => exact wp_seq stopServer_truthful
  | restart id principal => exact wp_seq (restartServer_truthful rfl rfl)
  | delete id principal => cases hop
  | reconcile => cases hop

end Calls

/-! ## §4. The invariant of the pool. -/

/-- What the phase of call `p` says about the world and the claims. -/
def Settling.Fits (w : World) (holder : Holders) (p : Pid) : Settling → Prop
  | .making id => holder id = some p ∧
      ∃ s, w.servers.get id = some s ∧ s.status = .creating ∧ s.containerId = none
  | .owns id st cid known => holder id = some p ∧ isTransient st = true ∧
      (∃ s, w.servers.get id = some s ∧ s.status = st ∧ s.containerId = some cid) ∧
      ∀ running, known = .sure running → w.isRunning cid = running
  | .settled id => ∀ s, w.servers.get id = some s → s.status = .stopping →
      (holder id).isSome = true
  | _ => True

/-- The row of an open outcome is marked. -/
def World.Marked (w : World) (cid : ContainerId) : Prop :=
  ∃ id s, w.servers.get id = some s ∧ s.containerId = some cid ∧ s.status = .error

/-- The row is left in CREATING. -/
def World.Stuck (w : World) (id : ServerId) : Prop :=
  ∃ s, w.servers.get id = some s ∧ s.status = .creating

/-- What holds of the world, the books and the phases of all calls. -/
structure Truly (w : World) (o : Books) (gs : Pid → Settling) : Prop where
  unique : w.UniqueContainers
  truthful : w.Truthful
  fits : ∀ p, (gs p).Fits w o.holder p
  /-- A claim belongs to the call about its row, or to a create that gave up. -/
  held : ∀ {id p}, o.holder id = some p → (gs p).about = some id ∨ w.Stuck id
  /-- Who was left without an answer still holds its row, or has marked it. -/
  lost : ∀ {p cid}, o.lost p = some cid →
    (∃ id st, gs p = .owns id st cid .lost) ∨ w.Marked cid

theorem Settling.Fits.holds {w : World} {holder : Holders} {p : Pid} {m : Settling} {id : ServerId}
    (h : m.Fits w holder p) (hm : m.about = some id) :
    holder id = some p ∧ ∃ s, w.servers.get id = some s ∧ isTransient s.status = true := by
  cases m with
  | making i =>
      cases hm
      obtain ⟨ho, s, hs, hst, -⟩ := h
      exact ⟨ho, s, hs, by rw [hst]; rfl⟩
  | owns i st cid k =>
      cases hm
      obtain ⟨ho, hst, ⟨s, hs, rfl, -⟩, -⟩ := h
      exact ⟨ho, s, hs, hst⟩
  | fresh => cases hm
  | settled i => cases hm
  | ended => cases hm

/-- A phase sees only its own row and its own container. -/
theorem Settling.Fits.frame {w w' : World} {holder holder' : Holders} {p : Pid} {m : Settling}
    (h : m.Fits w holder p)
    (hrow : ∀ id, m.about = some id →
      w'.servers.get id = w.servers.get id ∧ holder' id = holder id)
    (hrun : ∀ id s cid, w.servers.get id = some s → m.about = some id → s.containerId = some cid →
      w'.isRunning cid = w.isRunning cid)
    (hsettled : ∀ id, m = .settled id → ∀ s, w'.servers.get id = some s → s.status = .stopping →
      (holder' id).isSome = true) : m.Fits w' holder' p := by
  cases m with
  | making id =>
      obtain ⟨hs, ho⟩ := hrow id rfl
      obtain ⟨hh, s, hg, hst, hc⟩ := h
      exact ⟨by rw [ho]; exact hh, s, by rw [hs]; exact hg, hst, hc⟩
  | owns id st cid k =>
      obtain ⟨hs, ho⟩ := hrow id rfl
      obtain ⟨hh, hst, ⟨s, hg, hs', hc⟩, hk⟩ := h
      refine ⟨by rw [ho]; exact hh, hst, ⟨s, by rw [hs]; exact hg, hs', hc⟩, fun r hr => ?_⟩
      rw [hrun id s cid hg rfl hc]
      exact hk r hr
  | settled id => exact hsettled id rfl
  | fresh => trivial
  | ended => trivial

/-- A held row is there, in transit. -/
theorem Truly.held_row {w : World} {o : Books} {gs : Pid → Settling} (h : Truly w o gs)
    {id : ServerId} {p : Pid} (hp : o.holder id = some p) :
    ∃ s, w.servers.get id = some s ∧ isTransient s.status = true := by
  rcases h.held hp with habout | ⟨s, hs, hst⟩
  · exact ((h.fits p).holds habout).2
  · exact ⟨s, hs, by rw [hst]; rfl⟩

/-- Nobody holds a row that is not in transit. -/
theorem Truly.unheld {w : World} {o : Books} {gs : Pid → Settling} (h : Truly w o gs)
    {id : ServerId} {s : Server} (hs : w.servers.get id = some s)
    (hst : isTransient s.status = false) (q : Pid) : o.holder id ≠ some q := by
  intro hq
  obtain ⟨s', hs', hst'⟩ := h.held_row hq
  rw [hs, Option.some.injEq] at hs'
  rw [← hs', hst] at hst'
  cases hst'

/-- A step that leaves the table, the daemon and the books alone. -/
theorem Truly.same {w w' : World} {o : Books} {gs : Pid → Settling} {p : Pid} {m : Settling}
    (h : Truly w o gs) (hw : w'.servers = w.servers)
    (hrun : ∀ cid, w'.isRunning cid = w.isRunning cid) (hm : gs p = m) :
    Truly w' o (Function.update gs p m) := by
  rw [← hm, Function.update_eq_self]
  refine ⟨UniqueContainers.of_servers h.unique hw, ?_, fun q => ?_, ?_, ?_⟩
  · intro id s cid hs hc
    rw [hw] at hs
    rw [hrun]
    exact h.truthful id s cid hs hc
  · refine (h.fits q).frame (fun _ _ => ⟨by rw [hw], rfl⟩) (fun _ _ cid _ _ _ => hrun cid) ?_
    intro id hid s hs
    rw [hw] at hs
    have hq := h.fits q
    rw [hid] at hq
    exact hq s hs
  · unfold World.Stuck
    rw [hw]
    exact h.held
  · intro q cid hq
    rcases h.lost hq with hp | ⟨id, s, hs⟩
    · exact Or.inl hp
    · exact Or.inr ⟨id, s, by rw [hw]; exact hs⟩

/-- A settled restart, or a create that gives up, has nothing left to do. -/
theorem Truly.retire {w w' : World} {o : Books} {gs : Pid → Settling} {p : Pid} {id : ServerId}
    (h : Truly w o gs) (hp : gs p = .settled id ∨ gs p = .making id) (hw : w'.servers = w.servers)
    (hrun : ∀ cid, w'.isRunning cid = w.isRunning cid) :
    Truly w' o (Function.update gs p .ended) := by
  have hsame := h.same (p := p) hw hrun rfl
  rw [Function.update_eq_self] at hsame
  refine ⟨hsame.unique, hsame.truthful, fun q => ?_, ?_, ?_⟩
  · by_cases hq : q = p
    · rw [hq, Function.update_self]
      trivial
    · rw [Function.update_of_ne hq]
      exact hsame.fits q
  · intro i q hq
    rcases hsame.held hq with habout | hstuck
    · by_cases hqp : q = p
      · -- the row of a create that gives up stays in CREATING
        have hfits := hsame.fits p
        rw [hqp] at habout
        rcases hp with hp | hp <;> rw [hp] at habout hfits <;> cases habout
        obtain ⟨-, s, hs, hst, -⟩ := hfits
        exact Or.inr ⟨s, hs, hst⟩
      · rw [Function.update_of_ne hqp]
        exact Or.inl habout
    · exact Or.inr hstuck
  · intro q cid hq
    rcases hsame.lost hq with ⟨i, st, hown⟩ | hm
    · have hqp : q ≠ p := by
        intro hqp
        rcases hp with hp | hp <;> rw [hqp, hp] at hown <;> cases hown
      exact Or.inl ⟨i, st, by rw [Function.update_of_ne hqp, hown]⟩
    · exact Or.inr hm

/-- **A write of `p`** at the row `id`, which is not ERROR and which no other
call holds. -/
theorem Truly.write {w w' : World} {o o' : Books} {gs : Pid → Settling} {p : Pid} {m : Settling}
    (h : Truly w o gs) (id : ServerId) (hunique : w'.UniqueContainers)
    (hrun : ∀ cid, w'.isRunning cid = w.isRunning cid)
    (hframe : ∀ i, i ≠ id → w'.servers.get i = w.servers.get i ∧ o'.holder i = o.holder i)
    (hlost : o'.lost = o.lost)
    (hfree : ∀ q, o.holder id = some q → q = p)
    (hold : ∀ j, (gs p).about = some j → j = id)
    (hcalm : ∀ s, w.servers.get id = some s → s.status ≠ .error)
    (htrue : w'.TruthfulAt id)
    (hstop : ∀ s, w'.servers.get id = some s → s.status = .stopping →
      (o'.holder id).isSome = true)
    (hfits : m.Fits w' o'.holder p)
    (hheld : o'.holder id = some p ∧ m.about = some id ∨ o'.holder id = none ∧ m.about = none)
    (hmark : ∀ st cid, gs p = .owns id st cid .lost → w'.Marked cid) :
    Truly w' o' (Function.update gs p m) := by
  refine ⟨hunique, fun i => ?_, fun q => ?_, ?_, ?_⟩
  · by_cases hi : i = id
    · rw [hi]
      exact htrue
    · intro s cid hs hc
      rw [(hframe i hi).1] at hs
      rw [hrun]
      exact h.truthful i s cid hs hc
  · by_cases hq : q = p
    · subst hq
      rw [Function.update_self]
      exact hfits
    · rw [Function.update_of_ne hq]
      -- another call is about another row
      have hother : ∀ i, (gs q).about = some i → i ≠ id := by
        intro i hi hid
        rw [hid] at hi
        exact hq (hfree q ((h.fits q).holds hi).1)
      refine (h.fits q).frame (fun i hi => hframe i (hother i hi))
        (fun _ _ cid _ _ _ => hrun cid) fun i hi s hs hst => ?_
      by_cases hid : i = id
      · rw [hid] at hs ⊢
        exact hstop s hs hst
      · rw [(hframe i hid).1] at hs
        rw [(hframe i hid).2]
        have hfq := h.fits q
        rw [hi] at hfq
        exact hfq s hs hst
  · intro i q hq
    by_cases hi : i = id
    · rw [hi] at hq ⊢
      rcases hheld with ⟨ho, hm⟩ | ⟨ho, -⟩
      · rw [ho, Option.some.injEq] at hq
        rw [← hq, Function.update_self]
        exact Or.inl hm
      · rw [ho] at hq
        cases hq
    · rw [(hframe i hi).2] at hq
      rcases h.held hq with habout | ⟨s, hs, hst⟩
      · have hqp : q ≠ p := by
          intro hqp
          rw [hqp] at habout
          exact hi (hold i habout)
        rw [Function.update_of_ne hqp]
        exact Or.inl habout
      · exact Or.inr ⟨s, by rw [(hframe i hi).1]; exact hs, hst⟩
  · intro q cid hq
    rw [hlost] at hq
    rcases h.lost hq with ⟨i, st, hown⟩ | ⟨i, s, hs, hc, hst⟩
    · by_cases hqp : q = p
      · rw [hqp] at hown
        have hi : i = id := hold i (by rw [hown]; rfl)
        rw [hi] at hown
        exact Or.inr (hmark st cid hown)
      · exact Or.inl ⟨i, st, by rw [Function.update_of_ne hqp, hown]⟩
    · have hi : i ≠ id := by
        intro hi
        rw [hi] at hs
        exact hcalm s hs hst
      exact Or.inr ⟨i, s, by rw [(hframe i hi).1]; exact hs, hc, hst⟩

/-! ## §5. One step. -/

section Step

variable {w w' : World} {o : Books} {gs : Pid → Settling} {p : Pid} {op : Op} {e : Env}
  {id : ServerId}

/-- A claim of a call that holds nothing: the status it leaves was true. -/
theorem Truly.claim {s s' : ServerStatus} {c : Option ContainerId}
    {b : Except String (Option Server)} (h : Truly w o gs) (hp : gs p = .fresh)
    (hc : ∃ cid, c = some cid) (hs : s = .stopped ∧ s' = .starting ∨ s = .running ∧ s' = .stopping)
    (hx : exec p (.updateTransition id s s' c none) e w = some (b, w')) :
    ∃ m, (gs p).next op (.updateTransition id s s' c none) b m ∧
      Truly w' (o.next p (.updateTransition id s s' c none) b) (Function.update gs p m) := by
  have hrun := exec_isRunning_frame hx rfl
  obtain ⟨cid, rfl⟩ := hc
  rcases exec_updateTransition hx h.unique with ⟨rfl, hw, -⟩ | ⟨r, hr, hrs, hrc, rfl, hget⟩
  · refine ⟨.fresh, ?_, h.same hw hrun hp⟩
    rw [hp]
    rfl
  · have hclaim : isClaim s s' = true := by
      rcases hs with ⟨rfl, rfl⟩ | ⟨rfl, rfl⟩ <;> rfl
    have hfrom : isTransient s = false := by
      rcases hs with ⟨rfl, -⟩ | ⟨rfl, -⟩ <;> rfl
    have hto : isTransient s' = true := by
      rcases hs with ⟨-, rfl⟩ | ⟨-, rfl⟩ <;> rfl
    have hholder : ∀ i, (o.next p (.updateTransition id s s' (some cid) none)
        (.ok (some (Server.moved r s' w.clock)))).holder i = Function.update o.holder id (some p) i := by
      intro i
      change o.holder.moved p id s s' i = _
      rw [Holders.moved, if_pos hclaim]
    have hknown : ∀ running, Known.sure (decide (s = .running)) = .sure running →
        w'.isRunning cid = running := by
      intro running hk
      cases hk
      rw [hrun]
      rcases hs with ⟨rfl, -⟩ | ⟨rfl, -⟩
      · exact (h.truthful id r cid hr hrc).2 hrs
      · exact (h.truthful id r cid hr hrc).1 hrs
    have hnew : w'.servers.get id = some (Server.moved r s' w.clock) := by rw [hget, if_pos rfl]
    refine ⟨.owns id s' cid (.sure (decide (s = .running))), ?_, ?_⟩
    · rw [hp]
      exact ⟨cid, rfl, rfl⟩
    refine h.write id (exec_uniqueContainers hx h.unique) hrun (fun i hi => ?_) rfl ?_ ?_ ?_ ?_ ?_
      ?_ ?_ ?_
    · exact ⟨by rw [hget, if_neg hi], by rw [hholder, Function.update_of_ne hi]⟩
    · intro q hq
      exact absurd hq (h.unheld hr (by rw [hrs]; exact hfrom) q)
    · intro j hj
      rw [hp] at hj
      cases hj
    · intro x hx' hst
      rw [hr, Option.some.injEq] at hx'
      rw [← hx', hrs] at hst
      rw [hst] at hs
      simp at hs
    · intro x c' hx' _
      rw [hnew, Option.some.injEq] at hx'
      rw [← hx']
      change (s' = .running → _) ∧ (s' = .stopped → _)
      rcases hs with ⟨-, rfl⟩ | ⟨-, rfl⟩ <;> exact ⟨fun h => (by cases h), fun h => (by cases h)⟩
    · intro x _ _
      rw [hholder, Function.update_self]
      rfl
    · exact ⟨by rw [hholder, Function.update_self], hto, ⟨_, hnew, rfl, hrc⟩, hknown⟩
    · exact Or.inl ⟨by rw [hholder, Function.update_self], rfl⟩
    · intro st c' hown
      rw [hp] at hown
      cases hown

/-- A write of the holder: it cannot miss, and it says what the holder knows. -/
theorem Truly.settle {s s' : ServerStatus} {cid : ContainerId} {known : Known}
    {b : Except String (Option Server)} (h : Truly w o gs) (hp : gs p = .owns id s cid known)
    (hk : Settling.mayWrite known s s')
    (hx : exec p (.updateTransition id s s' (some cid) none) e w = some (b, w')) :
    ∃ m, (gs p).next op (.updateTransition id s s' (some cid) none) b m ∧
      Truly w' (o.next p (.updateTransition id s s' (some cid) none) b)
        (Function.update gs p m) := by
  have hrun := exec_isRunning_frame hx rfl
  have hfits := h.fits p
  rw [hp] at hfits
  obtain ⟨ho, hst, ⟨x, hx₁, hx₂, hx₃⟩, hknown⟩ := hfits
  rcases exec_updateTransition hx h.unique with ⟨-, -, hmiss⟩ | ⟨r, hr, hrs, hrc, rfl, hget⟩
  · exact absurd ⟨hx₂, hx₃⟩ (hmiss x hx₁)
  · have hclaim : isClaim s s' = false := by
      cases s <;> first | rfl | cases hst
    have hstop : s' ≠ .stopping := by
      intro hs'
      rw [hs'] at hk
      exact hk
    have hholder : ∀ i, (o.next p (.updateTransition id s s' (some cid) none)
        (.ok (some (Server.moved r s' w.clock)))).holder i =
        if i = id ∧ s' ≠ .starting then none else o.holder i := by
      intro i
      change o.holder.moved p id s s' i = _
      unfold Holders.moved
      rw [if_neg (by rw [hclaim]; decide)]
      by_cases hstart : s' = .starting
      · simp [hstart]
      · by_cases hi : i = id <;> simp [ho, hstart, hi]
    have hnew : w'.servers.get id = some (Server.moved r s' w.clock) := by rw [hget, if_pos rfl]
    have hself : (o.next p (.updateTransition id s s' (some cid) none)
        (.ok (some (Server.moved r s' w.clock)))).holder id =
        if s' = .starting then some p else none := by
      rw [hholder]
      by_cases hstart : s' = .starting <;> simp [hstart, ho]
    refine ⟨Settling.after op id s s' cid known, ?_, ?_⟩
    · rw [hp]
      rfl
    refine h.write id (exec_uniqueContainers hx h.unique) hrun (fun i hi => ?_) rfl ?_ ?_ ?_ ?_ ?_
      ?_ ?_ ?_
    · exact ⟨by rw [hget, if_neg hi], by rw [hholder, if_neg fun hc => hi hc.1]⟩
    · intro q hq
      rw [ho, Option.some.injEq] at hq
      exact hq.symm
    · intro j hj
      rw [hp] at hj
      cases hj
      rfl
    · intro y hy herr
      rw [hx₁, Option.some.injEq] at hy
      rw [← hy, hx₂] at herr
      rw [herr] at hst
      cases hst
    · -- what is written is what the holder knows
      intro y c' hy hc'
      rw [hnew, Option.some.injEq] at hy
      rw [← hy] at hc' ⊢
      have hcid : c' = cid := by
        rw [show (Server.moved r s' w.clock).containerId = r.containerId from rfl, hrc,
          Option.some.injEq] at hc'
        exact hc'.symm
      rw [hcid, hrun]
      change (s' = .running → _) ∧ (s' = .stopped → _)
      refine ⟨fun hs' => hknown true ?_, fun hs' => hknown false ?_⟩
      · rw [hs'] at hk
        exact hk
      · rw [hs'] at hk
        exact hk
    · intro y hy hst'
      rw [hnew, Option.some.injEq] at hy
      rw [← hy] at hst'
      exact absurd hst' hstop
    · unfold Settling.after
      by_cases hstart : s' = .starting
      · rw [if_pos hstart]
        refine ⟨by rw [hself, if_pos hstart], rfl, ⟨_, hnew, hstart, hrc⟩, fun running hr' => ?_⟩
        rw [hrun]
        exact hknown running hr'
      · rw [if_neg hstart]
        split
        · intro y hy hst'
          rw [hnew, Option.some.injEq] at hy
          rw [← hy] at hst'
          exact absurd hst' hstop
        · trivial
    · unfold Settling.after
      rw [hself]
      by_cases hstart : s' = .starting
      · rw [if_pos hstart, if_pos hstart]
        exact Or.inl ⟨rfl, rfl⟩
      · rw [if_neg hstart, if_neg hstart]
        refine Or.inr ⟨rfl, ?_⟩
        split <;> rfl
    · intro st c' hown
      rw [hp] at hown
      cases hown
      exact ⟨id, _, hnew, hrc, Settling.mayWrite_lost hk⟩

/-- **What a reply teaches is true.** -/
theorem learn_sound {want : Bool} {cid : ContainerId} {known : Known}
    (hg : keepsPromise w want cid e = true)
    (hk : ∀ running, known = .sure running → w.isRunning cid = running) :
    ∀ running, known.learn want e.reply = .sure running →
      (if e.effect then w.setRunning cid want else w).isRunning cid = running := by
  intro running hr
  have habsent : w.daemon.get cid = none → w.isRunning cid = false := by
    intro hn
    unfold World.isRunning
    rw [hn]
  unfold Known.learn at hr
  unfold keepsPromise at hg
  split at hr
  next hwant =>
    -- the request took effect, or the container was in the wanted state
    cases hr
    rw [if_pos hwant] at hg
    cases he : e.effect with
    | false => simpa [he] using hg
    | true =>
        rw [if_pos rfl, World.isRunning_setRunning]
        cases hd : w.daemon.get cid with
        | some x => simp
        | none =>
            rw [if_neg (by simp), habsent hd]
            simpa [hd, habsent hd, he] using hg
  next hwant =>
    rw [if_neg hwant] at hg
    split at hr
    next => cases hr
    next hopen =>
      cases hreply : e.reply with
      | ok _ => simp [hreply, inWantedState] at hwant
      | error x =>
          simp only [hreply] at hr hg hopen
          split at hr
          next h404 =>
            cases hr
            rw [if_pos h404, Option.isNone_iff_eq_none] at hg
            split
            · rw [World.isRunning_setRunning, hg]
              simpa using habsent hg
            · exact habsent hg
          next h404 =>
            rw [if_neg h404] at hg
            have heffect : e.effect = false := by simpa [hopen] using hg
            rw [heffect]
            exact hk running hr

/-- Without an answer nothing is known. -/
theorem learn_of_gotNoAnswer {want : Bool} {known : Known} {reply : Except DockerError Unit}
    (h : gotNoAnswer reply = true) : known.learn want reply = .lost := by
  cases reply with
  | ok _ => cases h
  | error x =>
      have hcode : x.statusCode = none := by
        simpa [gotNoAnswer, DockerError.unanswered] using h
      simp [Known.learn, inWantedState, openOutcome, DockerError.unanswered, hcode]

theorem Books.hear_holder (o : Books) (p : Pid) (cid : ContainerId)
    (reply : Except DockerError Unit) : (o.hear p cid reply).holder = o.holder := by
  unfold Books.hear
  split <;> rfl

theorem Books.hear_lost (o : Books) (p q : Pid) (cid : ContainerId)
    (reply : Except DockerError Unit) : (o.hear p cid reply).lost q =
      if q = p ∧ gotNoAnswer reply = true then some cid else o.lost q := by
  unfold Books.hear
  by_cases hno : gotNoAnswer reply = true
  · by_cases hq : q = p <;> simp [hno, hq]
  · simp [hno]

/-- A Docker start or stop of the holder. -/
theorem Truly.docker {want : Bool} {s : ServerStatus} {cid : ContainerId} {known : Known}
    (h : Truly w o gs) (hp : gs p = .owns id s cid known) (hlost : known ≠ .lost)
    (hg : keepsPromise w want cid e = true) :
    Truly (if e.effect then w.setRunning cid want else w) (o.hear p cid e.reply)
      (Function.update gs p ((gs p).hears want e.reply)) := by
  have hfits := h.fits p
  rw [hp] at hfits
  obtain ⟨ho, hst, ⟨x, hx, hxs, hxc⟩, hknown⟩ := hfits
  have hservers : (if e.effect then w.setRunning cid want else w).servers = w.servers := by
    split <;> rfl
  have hother : ∀ c, c ≠ cid →
      (if e.effect then w.setRunning cid want else w).isRunning c = w.isRunning c := by
    intro c hc
    split
    · rw [World.isRunning_setRunning, if_neg fun hh => hc hh.1]
    · rfl
  have hholder := o.hear_holder p cid e.reply
  rw [hp]
  refine ⟨UniqueContainers.of_servers h.unique hservers, ?_, fun q => ?_, ?_, ?_⟩
  · intro i y c hy hc
    rw [hservers] at hy
    by_cases hcid : c = cid
    · -- the row of this container is in transit
      rw [hcid] at hc
      have hi : i = id := h.unique _ _ _ _ _ hy hx hc hxc
      rw [hi, hx, Option.some.injEq] at hy
      rw [← hy, hxs]
      refine ⟨fun hs => ?_, fun hs => ?_⟩ <;> rw [hs] at hst <;> cases hst
    · rw [hother c hcid]
      exact h.truthful i y c hy hc
  · rw [hholder]
    by_cases hq : q = p
    · subst hq
      rw [Function.update_self]
      exact ⟨ho, hst, ⟨x, by rw [hservers]; exact hx, hxs, hxc⟩, learn_sound hg hknown⟩
    · rw [Function.update_of_ne hq]
      refine (h.fits q).frame (fun _ _ => ⟨by rw [hservers], rfl⟩) ?_ ?_
      · intro i y c hy hi hc
        refine hother c fun hcid => hq ?_
        rw [hcid] at hc
        have hid : i = id := h.unique _ _ _ _ _ hy hx hc hxc
        have hq' := ((h.fits q).holds hi).1
        rw [hid, ho, Option.some.injEq] at hq'
        exact hq'.symm
      · intro i hi y hy
        rw [hservers] at hy
        have hfq := h.fits q
        rw [hi] at hfq
        exact hfq y hy
  · intro i q hq
    rw [hholder] at hq
    rcases h.held hq with habout | hstuck
    · by_cases hqp : q = p
      · rw [hqp, hp] at habout
        rw [hqp, Function.update_self]
        exact Or.inl habout
      · rw [Function.update_of_ne hqp]
        exact Or.inl habout
    · refine Or.inr ?_
      unfold World.Stuck
      rw [hservers]
      exact hstuck
  · intro q c hq
    have hmarked : w.Marked c →
        (if e.effect then w.setRunning cid want else w).Marked c := by
      unfold World.Marked
      rw [hservers]
      exact fun hm => hm
    rw [Books.hear_lost] at hq
    split at hq
    next hno =>
      rw [Option.some.injEq] at hq
      refine Or.inl ⟨id, s, ?_⟩
      rw [hno.1, Function.update_self, ← hq, Settling.hears, learn_of_gotNoAnswer hno.2]
    next =>
      rcases h.lost hq with ⟨i, st, hown⟩ | hm
      · have hqp : q ≠ p := by
          intro hqp
          rw [hqp, hp] at hown
          cases hown
          exact hlost rfl
        exact Or.inl ⟨i, st, by rw [Function.update_of_ne hqp, hown]⟩
      · exact Or.inr (hmarked hm)

/-- A new row has no container and is nobody's yet. -/
theorem Truly.insert {n : NewServer} {b : Except String Server} (h : Truly w o gs)
    (hp : gs p = .fresh) (hn : n.status = .creating)
    (hx : exec p (.insertServer n) e w = some (b, w')) :
    ∃ m, (gs p).next op (.insertServer n) b m ∧
      Truly w' (o.next p (.insertServer n) b) (Function.update gs p m) := by
  have hrun := exec_isRunning_frame hx rfl
  rcases exec_insertServer_get hx with ⟨hw, ⟨c, rfl⟩, -⟩ | ⟨servers, rfl, hnone, hi, hw'⟩
  · exact ⟨gs p, rfl, h.same hw hrun rfl⟩
  have hget : ∀ i, w'.servers.get i =
      if e.uuid = i then some (n.row e.uuid w.clock) else w.servers.get i := by
    intro i
    rw [hw', World.release_servers]
    exact Table.get_insert hi i
  have hnew : w'.servers.get e.uuid = some (n.row e.uuid w.clock) := by rw [hget, if_pos rfl]
  have hholder : ∀ i, (o.next p (.insertServer n) (.ok (n.row e.uuid w.clock))).holder i =
      Function.update o.holder e.uuid (some p) i := fun _ => rfl
  refine ⟨.making e.uuid, rfl, ?_⟩
  refine h.write e.uuid (exec_uniqueContainers hx h.unique) hrun (fun i hi => ?_) rfl ?_ ?_ ?_ ?_
    ?_ ?_ ?_ ?_
  · exact ⟨by rw [hget, if_neg (Ne.symm hi)], by rw [hholder, Function.update_of_ne hi]⟩
  · intro q hq
    obtain ⟨s, hs, -⟩ := h.held_row hq
    rw [hnone] at hs
    cases hs
  · intro j hj
    rw [hp] at hj
    cases hj
  · intro s hs
    rw [hnone] at hs
    cases hs
  · intro s cid hs hc
    rw [hnew, Option.some.injEq] at hs
    rw [← hs] at hc
    cases hc
  · intro s hs hst
    rw [hholder, Function.update_self]
    rfl
  · exact ⟨by rw [hholder, Function.update_self], _, hnew, hn, rfl⟩
  · exact Or.inl ⟨by rw [hholder, Function.update_self], rfl⟩
  · intro st cid hown
    rw [hp] at hown
    cases hown

theorem Books.drop_holder (o : Books) (p : Pid) (id i : ServerId) (h : o.holder id = some p) :
    (o.drop p id).holder i = if i = id then none else o.holder i := by
  unfold Books.drop
  rw [if_pos h]
  by_cases hi : i = id <;> simp [hi]

theorem Books.drop_lost (o : Books) (p : Pid) (id : ServerId) : (o.drop p id).lost = o.lost := by
  unfold Books.drop
  split <;> rfl

/-- The create that made the row gives it up, with a last write or by deleting
it. -/
theorem Truly.close (h : Truly w o gs) (hp : gs p = .making id) (hunique : w'.UniqueContainers)
    (hrun : ∀ cid, w'.isRunning cid = w.isRunning cid)
    (hframe : ∀ i, i ≠ id → w'.servers.get i = w.servers.get i)
    (herror : ∀ s, w'.servers.get id = some s → s.status = .error) :
    Truly w' (o.drop p id) (Function.update gs p .ended) := by
  have hfits := h.fits p
  rw [hp] at hfits
  obtain ⟨ho, x, hx, hxs, -⟩ := hfits
  refine h.write id hunique hrun (fun i hi => ?_) (o.drop_lost p id) ?_ ?_ ?_ ?_ ?_ trivial ?_ ?_
  · exact ⟨hframe i hi, by rw [Books.drop_holder o p id i ho, if_neg hi]⟩
  · intro q hq
    rw [ho, Option.some.injEq] at hq
    exact hq.symm
  · intro j hj
    rw [hp] at hj
    cases hj
    rfl
  · intro s hs hst
    rw [hx, Option.some.injEq] at hs
    rw [← hs, hxs] at hst
    cases hst
  · intro s cid hs _
    rw [herror s hs]
    exact ⟨nofun, nofun⟩
  · intro s hs hst
    rw [herror s hs] at hst
    cases hst
  · exact Or.inr ⟨by rw [Books.drop_holder o p id id ho, if_pos rfl], rfl⟩
  · intro st cid hown
    rw [hp] at hown
    cases hown

/-- `claimContainerId` attaches the container to the row of its create. -/
theorem Truly.attach {cid : ContainerId} {b : Except String (Option Server)} (h : Truly w o gs)
    (hp : gs p = .making id) (hx : exec p (.updateContainerId id cid) e w = some (b, w')) :
    ∃ m, (gs p).next op (.updateContainerId id cid) b m ∧
      Truly w' o (Function.update gs p m) := by
  have hrun := exec_isRunning_frame hx rfl
  have hunique := exec_uniqueContainers hx h.unique
  have hfits := h.fits p
  rw [hp] at hfits
  obtain ⟨ho, x, hx₁, hx₂, hx₃⟩ := hfits
  simp only [exec, Option.some.injEq] at hx
  rcases updateRow_cases p id (fun s => decide (s.status = .creating) && decide (s.containerId = none))
      (fun s => s.status) (fun _ => some cid) w with ⟨hmiss, -⟩ | ⟨_, _, -, -, -, -, hu⟩ |
    ⟨r, hr, hh, -, hu⟩
  · have := hmiss x hx₁
    simp [hx₂, hx₃] at this
  · rw [hu, Prod.mk.injEq] at hx
    obtain ⟨rfl, rfl⟩ := hx
    exact ⟨.ended, rfl, h.retire (Or.inr hp) rfl hrun⟩
  rw [hu, Prod.mk.injEq] at hx
  obtain ⟨rfl, hw'⟩ := hx
  have hst : r.status = .creating := by
    rw [Bool.and_eq_true, decide_eq_true_eq] at hh
    exact hh.1
  have hget : ∀ i, w'.servers.get i = if i = id
      then some { r with containerId := some cid, updatedAt := w.clock } else w.servers.get i := by
    intro i
    rw [← hw', World.release_servers, World.setRow_get]
    by_cases hi : i = id
    · rw [if_pos hi, if_pos hi, hi, hr]
      rfl
    · rw [if_neg hi, if_neg hi]
  have hnew := hget id
  rw [if_pos rfl] at hnew
  refine ⟨.owns id .creating cid .unknown, rfl, ?_⟩
  refine h.write id hunique hrun (fun i hi => ⟨by rw [hget, if_neg hi], rfl⟩) rfl ?_ ?_ ?_ ?_ ?_ ?_
    ?_ ?_
  · intro q hq
    rw [ho, Option.some.injEq] at hq
    exact hq.symm
  · intro j hj
    rw [hp] at hj
    cases hj
    rfl
  · intro s hs herr
    rw [hr, Option.some.injEq] at hs
    rw [← hs, hst] at herr
    cases herr
  · intro s c hs _
    rw [hnew, Option.some.injEq] at hs
    rw [← hs]
    change (r.status = .running → _) ∧ (r.status = .stopped → _)
    rw [hst]
    exact ⟨fun h => (by cases h), fun h => (by cases h)⟩
  · intro s hs _
    rw [ho]
    rfl
  · exact ⟨ho, rfl, ⟨_, hnew, hst, rfl⟩, by simp⟩
  · exact Or.inl ⟨ho, rfl⟩
  · intro st c hown
    rw [hp] at hown
    cases hown

/-- `compensateCreateFailure` marks the row of its create. -/
theorem Truly.mark {cid : ContainerId} {b : Except String Unit} (h : Truly w o gs)
    (hp : gs p = .making id) (hx : exec p (.updateCreateError id cid) e w = some (b, w')) :
    Truly w' (o.next p (.updateCreateError id cid) b) (Function.update gs p .ended) := by
  have hrun := exec_isRunning_frame hx rfl
  have hunique := exec_uniqueContainers hx h.unique
  have hfits := h.fits p
  rw [hp] at hfits
  obtain ⟨-, x, hx₁, hx₂, -⟩ := hfits
  simp only [exec, Option.some.injEq, Prod.mk.injEq] at hx
  rcases updateRow_cases p id (fun s => decide (s.status = .creating)) (fun _ => .error)
      (fun _ => some cid) w with ⟨hmiss, -⟩ | ⟨_, _, -, -, -, -, hu⟩ | ⟨r, hr, -, -, hu⟩
  · have := hmiss x hx₁
    simp [hx₂] at this
  · rw [hu] at hx
    obtain ⟨rfl, rfl⟩ := hx
    exact h.retire (Or.inr hp) rfl hrun
  rw [hu] at hx
  obtain ⟨rfl, hw'⟩ := hx
  have hget : ∀ i, w'.servers.get i = if i = id
      then some { r with status := .error, containerId := some cid, updatedAt := w.clock }
      else w.servers.get i := by
    intro i
    rw [← hw', World.release_servers, World.setRow_get]
    by_cases hi : i = id
    · rw [if_pos hi, if_pos hi, hi, hr]
      rfl
    · rw [if_neg hi, if_neg hi]
  refine h.close hp hunique hrun (fun i hi => by rw [hget, if_neg hi]) fun s hs => ?_
  rw [hget, if_pos rfl, Option.some.injEq] at hs
  rw [← hs]

/-- `compensateCreateFailure` deletes the row of its create. -/
theorem Truly.delete {b : Unit} (h : Truly w o gs) (hp : gs p = .making id)
    (hx : exec p (.deleteInStatus id .creating) e w = some (b, w')) :
    Truly w' (o.drop p id) (Function.update gs p .ended) := by
  have hget := exec_deleteInStatus_get hx
  refine h.close hp (exec_uniqueContainers hx h.unique) (exec_isRunning_frame hx rfl)
    (fun i hi => ?_) fun s hs => ?_
  · rw [hget i]
    cases hs : w.servers.get i with
    | none => rfl
    | some s => simp [Table.get_key hs, hi]
  · have hfits := h.fits p
    rw [hp] at hfits
    obtain ⟨-, x, hx₁, hx₂, -⟩ := hfits
    have hnone : w'.servers.get id = none := by
      rw [hget id, hx₁]
      simp [Table.get_key hx₁, hx₂]
    rw [hnone] at hs
    cases hs

/-- **One step** against an honest daemon with listed codes. -/
theorem Truly.step {β : Type} {a : Act β} {b : β} (h : Truly w o gs) (ha : (gs p).allow op a)
    (hg : honest w a e = true) (hcode : listedCode op a e = true)
    (hlate : lateCatch o.holder w p op a = false) (hx : exec p a e w = some (b, w')) :
    ∃ m, (gs p).next op a b m ∧ Truly w' (o.next p a b) (Function.update gs p m) := by
  cases a
  case insertServer n => exact h.insert ha.1 ha.2 hx
  case updateContainerId id cid => exact h.attach ha hx
  case updateCreateError id cid => exact ⟨_, rfl, h.mark ha hx⟩
  case deleteInStatus id st =>
    obtain ⟨hp, rfl⟩ := ha
    exact ⟨_, rfl, h.delete hp hx⟩
  case updateTransition id s s' c new =>
    obtain ⟨rfl, hmove⟩ := ha
    cases hp : gs p with
    | fresh =>
        rw [hp] at hmove
        rw [← hp]
        exact h.claim hp hmove.1 hmove.2 hx
    | owns i st cid k =>
        rw [hp] at hmove
        obtain ⟨rfl, rfl, rfl, hk⟩ := hmove
        rw [← hp]
        exact h.settle hp hk hx
    | settled i =>
        rw [hp] at hmove
        obtain ⟨hop, rfl, rfl, rfl⟩ := hmove
        have hfits := h.fits p
        rw [hp] at hfits
        rcases exec_updateTransition hx h.unique with ⟨rfl, hw, -⟩ | ⟨r, hr, hrs, hrc, -, -⟩
        · refine ⟨.ended, rfl, ?_⟩
          exact h.retire (Or.inl hp) hw (exec_isRunning_frame hx rfl)
        · -- a hit would be a late catch-all: somebody else has claimed the row since
          obtain ⟨q, hq⟩ := Option.isSome_iff_exists.mp (hfits r hr hrs)
          have hqp : q ≠ p := by
            intro hqp
            rcases h.held hq with habout | ⟨x, hx', hst⟩
            · rw [hqp, hp] at habout
              cases habout
            · rw [hr, Option.some.injEq] at hx'
              rw [← hx', hrs] at hst
              cases hst
          simp [lateCatch, hop, hq, hqp, hr, hrs, hrc] at hlate
    | making i => rw [hp] at hmove; exact hmove.elim
    | ended => rw [hp] at hmove; exact hmove.elim
  case dockerStart cid =>
    obtain ⟨id, s, k, hp, hk⟩ := ha
    simp only [exec, Option.some.injEq, Prod.mk.injEq] at hx
    obtain ⟨rfl, rfl⟩ := hx
    exact ⟨_, ⟨rfl, hcode⟩, h.docker hp hk hg⟩
  case dockerStop cid t =>
    obtain ⟨id, s, k, hp, hk⟩ := ha
    simp only [exec, Option.some.injEq, Prod.mk.injEq] at hx
    obtain ⟨rfl, rfl⟩ := hx
    exact ⟨_, ⟨rfl, hcode⟩, h.docker hp hk hg⟩
  case updateReconciled => cases ha
  case dockerRemove => cases ha
  case dockerList id =>
    refine ⟨_, rfl, ?_⟩
    have hs := exec_servers_frame hx rfl
    have hrun := exec_isRunning_frame hx rfl
    split
    · exact h.same hs hrun rfl
    · cases hp : gs p with
      | making i => exact h.retire (Or.inr hp) hs hrun
      | _ => exact h.same hs hrun hp
  all_goals
    exact ⟨gs p, rfl, h.same (exec_servers_frame hx rfl) (exec_isRunning_frame hx rfl) rfl⟩

end Step

/-- The death of the process: the calls that survive it have ended, so nobody
is about a row, and what was left unanswered is forgotten with its call. -/
theorem Truly.reboot {w : World} {o : Books} {gs : Pid → Settling} (h : Truly w o gs)
    (alive : Pid → Bool) (hend : ∀ p, alive p = true → (gs p).isLive = false) :
    Truly { w with lock := none } Books.blank fun p => if alive p then gs p else .fresh := by
  refine ⟨h.unique, h.truthful, fun p => ?_, nofun, nofun⟩
  by_cases ha : alive p = true
  · rw [if_pos ha]
    have hdead := hend p ha
    cases hp : gs p with
    | fresh => trivial
    | ended => trivial
    | _ =>
        rw [hp] at hdead
        cases hdead
  · rw [if_neg ha]
    trivial

/-! ## §6. Runs. -/

/-- The invariant in every run with listed codes. -/
theorem settlement_kept {settings : Settings} {w₀ : World} {c : Conf} {o : Books}
    (hunique : w₀.UniqueContainers) (htrue : w₀.Truthful)
    (h : (system settings).Reach listedCodes (Config.init w₀) Books.blank c o) :
    ∃ gs, Truly c.world o gs ∧
      System.Tracks settlement .fresh (fun _ _ m => m.isLive = false)
        (fun _ _ m => m.isLive = false) c gs := by
  refine System.Reach.sound (M := settlement) (fun _ => Settling.fresh) Truly ?_ ?_ ?_ ?_ ?_ ?_ h
  · intro o w p op hop
    exact body_truthful settings op hop
  · intro w o gs p op hI hp _
    exact hI.same rfl (fun _ => rfl) hp
  · intro w o gs p op β a e b w' hI ha hg hx
    simp only [listedCodes, Bool.and_eq_true, Bool.not_eq_true'] at hg
    exact hI.step ha hg.1.1 hg.1.2 hg.2 hx
  · intro w o gs e w' hI hx
    cases hx
    have hsame : Truly { w with clock := w.clock + 1 } o (Function.update gs 0 (gs 0)) :=
      hI.same rfl (fun _ => rfl) rfl
    rwa [Function.update_eq_self] at hsame
  · intro w o gs e w' alive hI hx hend _
    cases hx
    refine hI.reboot alive fun p hp => ?_
    obtain ⟨op, ⟨r, hr⟩ | ⟨e, he⟩⟩ := hend p hp
    · exact hr
    · exact he
  · exact ⟨hunique, htrue, fun _ => trivial, nofun, nofun⟩

/-- **Truthful settlement**: in every interleaving of create, start, stop and
restart against an honest daemon in which every unanswered start or stop of the
last three carries a listed code and no late catch-all hits, the stored status
is true at every moment, and every unanswered request of an ended call has left
its row in ERROR. -/
theorem truthful_of_listed_codes (settings : Settings) (w₀ : World) (hunique : w₀.UniqueContainers)
    (htrue : w₀.Truthful) (c : Conf) (o : Books)
    (h : (system settings).Reach listedCodes (Config.init w₀) Books.blank c o) :
    SettledTruly c o := by
  obtain ⟨gs, hI, hT⟩ := settlement_kept hunique htrue h
  refine ⟨hI.truthful, ?_⟩
  intro p t cid hlost hp hdone
  have hended : (gs p).isLive = false := by
    have hwp := hT.wp hp
    obtain ⟨op, rest⟩ := t
    cases rest with
    | ret r => exact hwp
    | fail e => exact hwp
    | act a k => cases hdone
  rcases hI.lost hlost with ⟨id, st, hown⟩ | hmarked
  · rw [hown] at hended
    cases hended
  · exact hmarked

theorem sampleWorld_truthful (status : ServerStatus) (running : Bool)
    (h₁ : status = .running → running = true) (h₂ : status = .stopped → running = false) :
    (sampleWorld status running).Truthful := by
  intro id s cid hs hc
  have hrow := (Table.get_eq_some.mp hs).1
  simp only [sampleWorld, List.mem_singleton] at hrow
  rw [hrow] at hc ⊢
  cases hc
  exact ⟨h₁, h₂⟩

/-- A start of a stopped server whose Docker request gets this reply. -/
def sampleStart (reply : Except DockerError Unit) : List (Event Env Op) :=
  [.invoke 0 (.start 1 sampleAdmin), .step 0 {}, .step 0 sampleInfo, .step 0 sampleStats,
   .step 0 {}, .step 0 {}, .step 0 {}, .step 0 { reply := reply, effect := true }, .step 0 {}]

/-- A connection reset after the daemon started the container: ERROR. -/
theorem sampleStart_reset :
    ∃ c o, (system sampleSettings).Reach listedCodes (Config.init (sampleWorld .stopped false))
        Books.blank c o ∧
      o.lost 0 = some 7 ∧ (row c 1).map Server.status = some .error ∧ SettledTruly c o := by
  obtain ⟨c, o, h, ht⟩ := System.Reach.of_replay (S := system sampleSettings) (V := listedCodes)
    (sampleWorld .stopped false) Books.blank (sampleStart (.error ⟨some "ECONNRESET", none⟩))
    (fun c o => o.lost 0 == some 7 && (row c 1).map Server.status == some .error)
    (by decide +kernel)
  rw [Bool.and_eq_true, beq_iff_eq, beq_iff_eq] at ht
  exact ⟨c, o, h, ht.1, ht.2, truthful_of_listed_codes _ _ (sampleWorld_unique _ _)
    (sampleWorld_truthful .stopped false nofun fun _ => rfl) c o h⟩

/-- **An unlisted code is believed**: the connection breaks with a code off the
list after the daemon started the container, and the row is STOPPED again. -/
theorem unlisted_code_is_believed :
    ¬ ∀ (settings : Settings) (w₀ : World), w₀.UniqueContainers → w₀.Truthful →
      ∀ (c : Conf) (o : Books),
        (system settings).Reach honestDaemon (Config.init w₀) Books.blank c o →
        SettledTruly c o := by
  intro hall
  obtain ⟨c, o, h, ht⟩ := System.Reach.of_replay (S := system sampleSettings) (V := honestDaemon)
    (sampleWorld .stopped false) Books.blank
    (sampleStart (.error ⟨some "HPE_INVALID_CONSTANT", none⟩))
    (fun c _ => (row c 1).any (fun s => s.status == .stopped && s.containerId == some 7)
      && c.world.isRunning 7) (by decide +kernel)
  rw [Bool.and_eq_true, Option.any_eq_true] at ht
  obtain ⟨⟨s, hs, hst⟩, hrun⟩ := ht
  rw [Bool.and_eq_true, beq_iff_eq, beq_iff_eq] at hst
  have htrue := (hall _ _ (sampleWorld_unique _ _)
    (sampleWorld_truthful .stopped false nofun fun _ => rfl) c o h).truthful 1 s 7 hs hst.2
  rw [htrue.2 hst.1] at hrun
  cases hrun

end MinePanel.Servers
