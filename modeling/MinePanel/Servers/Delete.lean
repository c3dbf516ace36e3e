/-
  MinePanel.Servers.Delete
  ────────────────────────
  **WHAT A DELETED ROW LEAVES BEHIND.**

  `deleteServer` removes the container first and the row second.  When the
  removal fails it inspects the container and decides.  The history records, for
  every delete call, how its removal attempt went.

  A container that could not be removed and that the inspection reports present
  and NOT RUNNING does not stop the deletion (`stopped_container_is_left_behind`).
  That is the only way for a container to outlive its row
  (`deleted_row_has_no_container`), in any interleaving of start, stop, restart
  and delete calls.
-/
import MinePanel.Servers.Steps

namespace MinePanel.Servers

open MinePanel.Db MinePanel.Docker MinePanel.Lib Prog

/-! ## §1. The history and the daemon's contract. -/

/-- How far the removal of a delete call got. -/
inductive Attempt where
  /-- Not tried, or reported as done. -/
  | clear
  /-- Rejected. -/
  | failed
  /-- Rejected, and then inspected: present and not running. -/
  | leftStopped
  deriving Repr, DecidableEq

/-- The removal attempts of all calls. -/
abbrev Attempts := Pid → Attempt

/-- The answer to a removal counts as done: success or 404. -/
def removalDone : Except DockerError Unit → Bool
  | .ok _ => true
  | .error e => e.statusCode == some 404

/-- The attempts after a step of `p`. -/
def Attempts.next (o : Attempts) (p : Pid) : ∀ {β : Type}, Act β → β → Attempts
  | _, .dockerRemove _, reply => if removalDone reply then o else Function.update o p .failed
  | _, .dockerInspect _, reply =>
      match reply with
      | .ok info =>
          if o p = .failed ∧ info.running.getD false = false
          then Function.update o p .leftStopped else o
      | .error _ => o
  | _, _, _ => o

/-- What the daemon promises.  A removal reported as done leaves no container; a
removal it answered with an error leaves it in place; an inspection reports
what is there. -/
def truthful (w : World) : ∀ {β : Type}, Act β → Env → Bool
  | _, .dockerRemove cid, e =>
      match e.reply with
      | .ok _ => e.effect || (w.daemon.get cid).isNone
      | .error x =>
          if x.statusCode = some 404 then (w.daemon.get cid).isNone
          else x.unanswered || x.gatewayStatus || !e.effect
  | _, .dockerInspect cid, e =>
      match e.inspected with
      | .ok info => (w.daemon.get cid).any fun c => info.running == some c.running
      | .error x => x.statusCode != some 404 || (w.daemon.get cid).isNone
  | _, _, _ => true

/-- Every interleaving of start, stop, restart and delete calls against such a
daemon. -/
def truthfulDaemon : Watch Act World Env Op Attempts where
  accepts := fun _ _ _ op => op.isLifecycle
  guard := fun _ w _ _ _ a e => truthful w a e
  onStep := fun o _ p _ _ a b _ => o.next p a b

/-- The next step of `p`, a delete call, deletes a row with container `cid`. -/
def DeletesRow (c : Conf) (p : Pid) (cid : ContainerId) (w' : World) : Prop :=
  ∃ id principal i st k e s, c.calls p = some ⟨.delete id principal, .act (.deleteInStatus i st) k⟩ ∧
    exec p (.deleteInStatus i st) e c.world = some ((), w') ∧
    row c i = some s ∧ s.containerId = some cid ∧ w'.servers.get i = none

/-! ## §2. The monitor of a delete call. -/

/-- Where a delete call stands with the row and container it has claimed. -/
inductive Removing where
  | fresh
  /-- Claimed; nothing known about the container. -/
  | claimed (id : ServerId) (containerId : Option ContainerId)
  /-- The container is gone, or there never was one. -/
  | cleared (id : ServerId) (containerId : Option ContainerId)
  /-- The removal was rejected. -/
  | rejected (id : ServerId) (containerId : ContainerId)
  /-- The inspection found it present and not running. -/
  | left (id : ServerId) (containerId : ContainerId)

namespace Removing

/-- The row and the container a phase is about. -/
def about : Removing → Option (ServerId × Option ContainerId)
  | .fresh => none
  | .claimed id c => some (id, c)
  | .cleared id c => some (id, c)
  | .rejected id c => some (id, some c)
  | .left id c => some (id, some c)

/-- What a call of `op` may do: only a delete call deletes rows and removes
containers, and it deletes in three phases. -/
def allow (op : Op) : Removing → ∀ {β : Type}, Act β → Prop
  | m, _, .deleteInStatus id _ =>
      (∃ i pr, op = .delete i pr) ∧
      (m = .claimed id none ∨ (∃ c, m = .cleared id c) ∨ ∃ c, m = .left id c)
  | m, _, .dockerRemove cid => ∃ id, m = .claimed id (some cid)
  | m, _, .dockerInspect cid => m = .fresh ∨ ∃ id, m = .rejected id cid
  | _, _, a => a.basic = true

/-- The phase after a step. -/
def next (op : Op) : Removing → ∀ {β : Type}, Act β → β → Removing → Prop
  | m, _, .updateTransition id _ _ cid _, b, m' =>
      match b with
      | .error _ => False
      | .ok none => m' = m
      | .ok (some r) =>
          match m, op with
          | .fresh, .delete _ _ => m' = .claimed id cid ∧ r.containerId = cid
          | m, _ => m' = m
  | m, _, .dockerRemove cid, b, m' =>
      match m with
      | .claimed id _ =>
          m' = if removalDone b then .cleared id (some cid) else .rejected id cid
      | m => m' = m
  | m, _, .dockerInspect cid, b, m' =>
      match m, b with
      | .rejected id _, .ok info =>
          m' = if info.running.getD false then .rejected id cid else .left id cid
      | .rejected id _, .error x =>
          m' = if x.statusCode = some 404 then .cleared id (some cid) else .rejected id cid
      | m, _ => m' = m
  | m, _, _, _, m' => m' = m

end Removing

/-- The removal monitor of one operation. -/
def removal (op : Op) : Monitor Act Removing where
  allow := fun m a => m.allow op a
  next := fun m a b m' => m.next op a b m'

/-- start, stop and restart stay out of it. -/
theorem removal_ignores {op : Op} (hop : ∀ i pr, op ≠ .delete i pr) :
    (removal op).Ignores (fun _ a => a.basic = true) .fresh := by
  intro β a ha
  cases a <;> simp only [Act.basic, Act.plain, Act.silent, Act.inert, Bool.or_self,
    Bool.false_eq_true] at ha
  case updateTransition id s s' cid new =>
    refine ⟨ha, fun b m' h => ?_⟩
    rcases b with _ | _ | r
    · exact h.elim
    · exact h
    · cases op <;> first | exact h | exact absurd rfl (hop _ _)
  case dockerInspect cid =>
    exact ⟨Or.inl rfl, fun b m' h => by cases b <;> exact h⟩
  all_goals exact ⟨rfl, fun _ _ h => h⟩

section Calls

variable {id : ServerId} {principal : ServerPrincipal} {target : ServerId}

/-- A transition after the claim changes nothing here. -/
theorem wp_transition_after {i : ServerId} {s s' : ServerStatus} {c : Option ContainerId}
    {m : Removing} (hm : m ≠ .fresh) {Q : Option Server → Removing → Prop}
    {E : Exn → Removing → Prop} (hQ : ∀ r, Q r m) :
    wp (removal (.delete target principal)) Q E (transition i s s' c none) m := by
  refine wp_transition rfl (fun _ _ h => h) fun r m' h => ?_
  cases r with
  | none => exact h ▸ hQ none
  | some r =>
      have h' : m' = m := by
        cases m
        case fresh => exact absurd rfl hm
        all_goals exact h
      exact h' ▸ hQ (some r)

/-- A DELETE in a phase that allows it. -/
theorem wp_deleteRow {m : Removing} {Q : Unit → Removing → Prop} {E : Exn → Removing → Prop}
    (hm : m = .claimed id none ∨ (∃ c, m = .cleared id c) ∨ ∃ c, m = .left id c) (hQ : Q () m) :
    wp (removal (.delete target principal)) Q E
      (Prog.perform (.deleteInStatus id .stopping) : Call Unit) m :=
  ⟨⟨⟨_, _, rfl⟩, hm⟩, fun _ _ h => by cases h; exact hQ⟩

/-- **After a rejected removal** the row goes only where the container is absent
or was reported not running. -/
theorem resolveDeleteRemoveFailure_removes {cid : ContainerId} :
    wp (removal (.delete target principal))
      (fun removed m => removed = true →
        (∃ c, m = Removing.cleared id c) ∨ ∃ c, m = Removing.left id c)
      (fun _ _ => False) (resolveDeleteRemoveFailure id cid) (.rejected id cid) := by
  unfold resolveDeleteRemoveFailure
  rw [tryCatch_eq, wp_tryCatch]
  refine wp_seq ?_
  refine ⟨Or.inr ⟨id, rfl⟩, fun reply m' h => ?_⟩
  cases reply with
  | ok info =>
      cases hr : info.running.getD false with
      | true =>
          have hm' : m' = .rejected id cid := by simpa [removal, Removing.next, hr] using h
          subst hm'
          show wp _ _ _ (if info.running.getD false = true then _ else _) _
          rw [if_pos hr]
          refine wp_seq (wp_transition_after (m := .rejected id cid) nofun ?_)
          intro r hfalse
          cases hfalse
      | false =>
          have hm' : m' = .left id cid := by simpa [removal, Removing.next, hr] using h
          subst hm'
          show wp _ _ _ (if info.running.getD false = true then _ else _) _
          rw [if_neg (by rw [hr]; decide)]
          exact wp_seq (wp_deleteRow (Or.inr (Or.inr ⟨cid, rfl⟩)) fun _ => Or.inr ⟨cid, rfl⟩)
  | error x =>
      show wp _ _ _ (if (handleDockerError x "container").isNotFound = true then _ else _) _
      by_cases hx : x.statusCode = some 404
      · have hm' : m' = .cleared id (some cid) := by simpa [removal, Removing.next, hx] using h
        subst hm'
        rw [if_pos ((handleDockerError_notFound_iff x "container").mpr hx)]
        exact wp_seq (wp_deleteRow (Or.inr (Or.inl ⟨_, rfl⟩)) fun _ => Or.inl ⟨_, rfl⟩)
      · have hm' : m' = .rejected id cid := by simpa [removal, Removing.next, hx] using h
        subst hm'
        rw [if_neg (fun hn => hx ((handleDockerError_notFound_iff x "container").mp hn))]
        refine wp_seq (wp_transition_after (m := .rejected id cid) nofun ?_)
        intro r hfalse
        cases hfalse

/-- `deleteServer` follows the removal monitor. -/
theorem deleteServer_removes :
    wp (removal (.delete id principal)) (fun _ _ => True) (fun _ _ => True)
      (deleteServer id principal) .fresh := by
  unfold deleteServer
  refine wp_seq (wp_loadVisibleServer rfl (fun s m' h => ?_) fun m' h => trivial)
  cases h
  refine wp_guard (fun _ => trivial) fun _ => ?_
  refine wp_seq (wp_transition rfl (fun _ _ h => h) fun r m' h => ?_)
  cases r with
  | none => trivial
  | some r =>
      obtain ⟨rfl, hr⟩ := h
      dsimp only
      rw [hr]
      cases s.containerId with
      | none => exact wp_deleteRow (Or.inl rfl) trivial
      | some cid =>
          refine wp_seq ?_
          rw [tryCatch_eq, wp_tryCatch, removeContainer_eq]
          refine ⟨⟨id, rfl⟩, fun reply m' h => ?_⟩
          change m' = (if removalDone reply then Removing.cleared id (some cid)
            else .rejected id cid) at h
          refine wp_settleReply (fun ha => ?_) fun e he hne => ?_
          · have hd : removalDone reply = true := by
              cases reply with
              | ok _ => rfl
              | error e => simpa [removalDone, Accepted] using ha
            rw [hd, if_pos rfl] at h
            subst h
            exact wp_deleteRow (Or.inr (Or.inl ⟨_, rfl⟩)) trivial
          · have hd : removalDone reply = false := by
              rw [he]
              simpa [removalDone] using hne
            rw [hd] at h
            subst h
            refine wp_seq (wp_mono _ _ (fun removed m hm => ?_) (fun _ _ h => h.elim)
              resolveDeleteRemoveFailure_removes)
            cases removed with
            | true => exact wp_deleteRow (Or.inr (hm rfl)) trivial
            | false => trivial

end Calls

/-- Every lifecycle operation follows the removal monitor. -/
theorem body_removes (settings : Settings) (op : Op) (hop : op.isLifecycle = true) :
    wp (removal op) (fun _ _ => True) (fun _ _ => True) (body settings op) .fresh := by
  by_cases hd : ∃ i pr, op = .delete i pr
  · obtain ⟨i, pr, rfl⟩ := hd
    exact wp_seq deleteServer_removes
  · have hne : ∀ i pr, op ≠ .delete i pr := fun i pr h => hd ⟨i, pr, h⟩
    refine wp_of_only (body_basic settings op ?_) (removal_ignores hne) (fun _ => trivial)
      fun _ _ => trivial
    cases op with
    | create dto principal => cases hop
    | reconcile => cases hop
    | delete i pr => exact absurd rfl (hne i pr)
    | start i pr => exact ⟨i, pr, Or.inl rfl⟩
    | stop i pr => exact ⟨i, pr, Or.inr (Or.inl rfl)⟩
    | restart i pr => exact ⟨i, pr, Or.inr (Or.inr rfl)⟩

/-! ## §3. The invariant. -/

/-- What the phases say about rows, containers and attempts. -/
structure Removed (w : World) (o : Attempts) (gs : Pid → Removing) : Prop where
  unique : w.UniqueContainers
  about : ∀ {p id c s}, (gs p).about = some (id, c) → w.servers.get id = some s →
    s.containerId = c
  cleared : ∀ {p id cid}, gs p = .cleared id (some cid) → w.daemon.get cid = none
  rejected : ∀ {p id cid}, gs p = .rejected id cid → o p = .failed
  left : ∀ {p id cid}, gs p = .left id cid → o p = .leftStopped

/-- A step of `p` that creates nothing: only what `p` learns is to be shown. -/
theorem Removed.act {w w' : World} {o o' : Attempts} {gs : Pid → Removing} {p : Pid}
    {β : Type} {a : Act β} {e : Env} {b : β} {m : Removing} (h : Removed w o gs)
    (hx : exec p a e w = some (b, w')) (ha : a.shrinks = true) (ho : ∀ q, q ≠ p → o' q = o q)
    (habout : ∀ id c s, m.about = some (id, c) → w'.servers.get id = some s → s.containerId = c)
    (hcleared : ∀ id cid, m = .cleared id (some cid) → w'.daemon.get cid = none)
    (hrejected : ∀ id cid, m = .rejected id cid → o' p = .failed)
    (hleft : ∀ id cid, m = .left id cid → o' p = .leftStopped) :
    Removed w' o' (Function.update gs p m) := by
  refine ⟨exec_uniqueContainers hx h.unique, ?_, ?_, ?_, ?_⟩
  · intro q id c s hq hs
    by_cases hqp : q = p
    · subst hqp
      rw [Function.update_self] at hq
      exact habout id c s hq hs
    · rw [Function.update_of_ne hqp] at hq
      obtain ⟨s₀, hs₀, hc₀⟩ := exec_containerId_stable hx ha h.unique hs
      rw [← hc₀]
      exact h.about hq hs₀
  · intro q id cid hq
    by_cases hqp : q = p
    · subst hqp
      rw [Function.update_self] at hq
      exact hcleared id cid hq
    · rw [Function.update_of_ne hqp] at hq
      exact exec_absent hx ha (h.cleared hq)
  · intro q id cid hq
    by_cases hqp : q = p
    · subst hqp
      rw [Function.update_self] at hq
      exact hrejected id cid hq
    · rw [Function.update_of_ne hqp] at hq
      rw [ho q hqp]
      exact h.rejected hq
  · intro q id cid hq
    by_cases hqp : q = p
    · subst hqp
      rw [Function.update_self] at hq
      exact hleft id cid hq
    · rw [Function.update_of_ne hqp] at hq
      rw [ho q hqp]
      exact h.left hq

/-- A step after which `p` knows what it knew. -/
theorem Removed.same {w w' : World} {o : Attempts} {gs : Pid → Removing} {p : Pid} {β : Type}
    {a : Act β} {e : Env} {b : β} (h : Removed w o gs) (hx : exec p a e w = some (b, w'))
    (ha : a.shrinks = true) : Removed w' o (Function.update gs p (gs p)) := by
  refine h.act hx ha (fun _ _ => rfl) ?_ ?_ ?_ ?_
  · intro id c s hm hs
    obtain ⟨s₀, hs₀, hc₀⟩ := exec_containerId_stable hx ha h.unique hs
    rw [← hc₀]
    exact h.about hm hs₀
  · intro id cid hm
    exact exec_absent hx ha (h.cleared hm)
  · intro id cid hm
    exact h.rejected hm
  · intro id cid hm
    exact h.left hm

/-- The claim of a delete call fixes the container of its row. -/
theorem Removed.transition {w w' : World} {o : Attempts} {gs : Pid → Removing} {p : Pid} {op : Op}
    {id : ServerId} {s s' : ServerStatus} {cid : Option ContainerId} {e : Env}
    {b : Except String (Option Server)} (h : Removed w o gs)
    (hx : exec p (.updateTransition id s s' cid none) e w = some (b, w')) :
    ∃ m, (gs p).next op (.updateTransition id s s' cid none) b m ∧
      Removed w' o (Function.update gs p m) := by
  have hsame := h.same hx rfl
  rcases exec_updateTransition hx h.unique with ⟨rfl, -, -⟩ | ⟨r, hr, -, hrc, rfl, hget⟩
  · exact ⟨gs p, rfl, hsame⟩
  · by_cases hc : gs p = .fresh ∧ ∃ i pr, op = .delete i pr
    · obtain ⟨hp, i, pr, rfl⟩ := hc
      refine ⟨.claimed id cid, by rw [hp]; exact ⟨rfl, hrc⟩, ?_⟩
      refine h.act hx rfl (fun _ _ => rfl) ?_ nofun nofun nofun
      intro j c t hj ht
      cases hj
      rw [hget, if_pos rfl, Option.some.injEq] at ht
      rw [← ht]
      exact hrc
    · refine ⟨gs p, ?_, hsame⟩
      cases hp : gs p
      case fresh =>
        cases op
        case delete i pr => exact absurd ⟨hp, i, pr, rfl⟩ hc
        all_goals rfl
      all_goals rfl

/-- The answered removal. -/
theorem Removed.remove {w w' : World} {o : Attempts} {gs : Pid → Removing} {p : Pid} {op : Op}
    {id : ServerId} {cid : ContainerId} {e : Env} {b : Except DockerError Unit}
    (h : Removed w o gs) (hp : gs p = .claimed id (some cid))
    (ht : truthful w (.dockerRemove cid) e = true)
    (hx : exec p (.dockerRemove cid) e w = some (b, w')) :
    ∃ m, (gs p).next op (.dockerRemove cid) b m ∧
      Removed w' (o.next p (.dockerRemove cid) b) (Function.update gs p m) := by
  refine ⟨if removalDone b then .cleared id (some cid) else .rejected id cid, by rw [hp]; rfl, ?_⟩
  have hrow : ∀ s, w'.servers.get id = some s → s.containerId = some cid := by
    intro s hs
    rw [exec_servers_frame hx rfl] at hs
    exact h.about (by rw [hp]; rfl) hs
  show Removed w' (if removalDone b then o else Function.update o p .failed) _
  cases hd : removalDone b with
  | true =>
      rw [if_pos rfl, if_pos rfl]
      refine h.act hx rfl (fun _ _ => rfl) ?_ ?_ (fun _ _ h => by cases h)
        (fun _ _ h => by cases h)
      · intro i c s hi hs
        cases hi
        exact hrow s hs
      · intro i c hi
        cases hi
        -- the daemon's promise: reported as done, so it is gone
        simp only [exec, Option.some.injEq, Prod.mk.injEq] at hx
        obtain ⟨hb, rfl⟩ := hx
        rw [← hb] at hd
        by_cases heff : e.effect = true
        · rw [if_pos heff]
          show (w.daemon.remove fun c => c.id = cid).get cid = none
          rw [Table.get_remove]
          cases hg : w.daemon.get cid with
          | none => rfl
          | some x => simp [Table.get_key hg]
        · rw [if_neg heff]
          simp only [truthful] at ht
          cases hr : e.reply with
          | ok u => simpa [hr, heff] using ht
          | error x =>
              rw [hr] at hd ht
              have h404 : x.statusCode = some 404 := by simpa [removalDone] using hd
              simpa [h404] using ht
  | false =>
      simp only [Bool.false_eq_true, if_false]
      refine h.act hx rfl (fun q hq => Function.update_of_ne hq _ _) ?_
        (fun _ _ h => by cases h) ?_ (fun _ _ h => by cases h)
      · intro i c s hi hs
        cases hi
        exact hrow s hs
      · intro i c _
        exact Function.update_self _ _ _

/-- The inspection after a rejected removal. -/
theorem Removed.inspect {w w' : World} {o : Attempts} {gs : Pid → Removing} {p : Pid} {op : Op}
    {id : ServerId} {cid : ContainerId} {e : Env} {b : Except DockerError InspectInfo}
    (h : Removed w o gs) (hp : gs p = .rejected id cid)
    (ht : truthful w (.dockerInspect cid) e = true)
    (hx : exec p (.dockerInspect cid) e w = some (b, w')) :
    ∃ m, (gs p).next op (.dockerInspect cid) b m ∧
      Removed w' (o.next p (.dockerInspect cid) b) (Function.update gs p m) := by
  have hrow : ∀ s, w'.servers.get id = some s → s.containerId = some cid := by
    intro s hs
    rw [exec_servers_frame hx rfl] at hs
    exact h.about (by rw [hp]; rfl) hs
  have hfailed : o p = .failed := h.rejected hp
  have hsame := h.same hx rfl
  rw [hp] at hsame
  simp only [exec, Option.some.injEq, Prod.mk.injEq] at hx
  obtain ⟨hb, hw⟩ := hx
  cases b with
  | ok info =>
      cases hr : info.running.getD false with
      | true =>
          refine ⟨.rejected id cid, by rw [hp]; simp [Removing.next, hr], ?_⟩
          have hkeep : o.next p (.dockerInspect cid) (.ok info) = o := by
            simp [Attempts.next, hr]
          rw [hkeep]
          exact hsame
      | false =>
          refine ⟨.left id cid, by rw [hp]; simp [Removing.next, hr], ?_⟩
          have hleft : o.next p (.dockerInspect cid) (.ok info) =
              Function.update o p .leftStopped := by
            simp [Attempts.next, hr, hfailed]
          rw [hleft]
          refine h.act (a := .dockerInspect cid) (e := e) (b := .ok info)
            (by rw [exec, hb, hw]) rfl (fun q hq => Function.update_of_ne hq _ _) ?_
            (fun _ _ h => by cases h) (fun _ _ h => by cases h) ?_
          · intro i c s hi hs
            cases hi
            exact hrow s hs
          · intro i c _
            exact Function.update_self _ _ _
  | error x =>
      by_cases h404 : x.statusCode = some 404
      · refine ⟨.cleared id (some cid), by rw [hp]; simp [Removing.next, h404], ?_⟩
        refine h.act (a := .dockerInspect cid) (e := e) (b := .error x)
          (by rw [exec, hb, hw]) rfl (fun q hq => rfl) ?_ ?_ (fun _ _ h => by cases h)
          (fun _ _ h => by cases h)
        · intro i c s hi hs
          cases hi
          exact hrow s hs
        · intro i c hi
          cases hi
          simp only [truthful] at ht
          rw [hb] at ht
          rw [← hw]
          simpa [h404] using ht
      · exact ⟨.rejected id cid, by rw [hp]; simp [Removing.next, h404], hsame⟩

/-- **One step** of an allowed call against a truthful daemon. -/
theorem Removed.step {w w' : World} {o : Attempts} {gs : Pid → Removing} {p : Pid} {op : Op}
    {β : Type} {a : Act β} {e : Env} {b : β} (h : Removed w o gs) (ha : (gs p).allow op a)
    (ht : truthful w a e = true) (hx : exec p a e w = some (b, w')) :
    ∃ m, (gs p).next op a b m ∧ Removed w' (o.next p a b) (Function.update gs p m) := by
  cases a
  case updateTransition id s s' cid new =>
    have hnew : new = none := by simpa [Removing.allow, Act.basic, Act.plain, Act.silent, Act.inert] using ha
    subst hnew
    exact h.transition hx
  case dockerRemove cid =>
    obtain ⟨id, hp⟩ := ha
    exact h.remove hp ht hx
  case dockerInspect cid =>
    rcases ha with hp | ⟨id, hp⟩
    · refine ⟨.fresh, by rw [hp]; cases b <;> rfl, ?_⟩
      refine h.act hx rfl (fun q hq => ?_) (fun _ _ _ hm _ => by cases hm)
        (fun _ _ h => by cases h) (fun _ _ h => by cases h) (fun _ _ h => by cases h)
      simp only [Attempts.next]
      split
      · split
        · exact Function.update_of_ne hq _ _
        · rfl
      · rfl
    · exact h.inspect hp ht hx
  case deleteInStatus id st => exact ⟨gs p, rfl, h.same hx rfl⟩
  all_goals first
    | exact ⟨gs p, rfl, h.same hx rfl⟩
    | cases ha

/-- The death of the process: who survives keeps its phase, the others start
over. -/
theorem Removed.reboot {w : World} {o : Attempts} {gs : Pid → Removing} (h : Removed w o gs)
    (alive : Pid → Bool) :
    Removed { w with lock := none } o fun p => if alive p then gs p else .fresh := by
  have hkeep : ∀ {p m}, (if alive p then gs p else Removing.fresh) = m → m ≠ .fresh →
      gs p = m := by
    intro p m hp hm
    by_cases ha : alive p = true
    · rwa [if_pos ha] at hp
    · rw [if_neg ha] at hp
      exact absurd hp.symm hm
  refine ⟨h.unique, ?_, fun hp => h.cleared (hkeep hp nofun),
    fun hp => h.rejected (hkeep hp nofun), fun hp => h.left (hkeep hp nofun)⟩
  intro p id c s hp hs
  by_cases ha : alive p = true
  · rw [if_pos ha] at hp
    exact h.about hp hs
  · rw [if_neg ha] at hp
    cases hp

/-! ## §4. Runs. -/

/-- **No orphan but a stopped one.**  In every interleaving of start, stop,
restart and delete calls against a truthful daemon: when a delete call deletes
its row, the daemon has no such container, or the removal was rejected and the
inspection after it reported the container present and not running. -/
theorem deleted_row_has_no_container (settings : Settings) (w₀ : World)
    (hw : w₀.UniqueContainers) (c : Conf) (o : Attempts)
    (h : (system settings).Reach truthfulDaemon (Config.init w₀) (fun _ => .clear) c o)
    (p : Pid) (cid : ContainerId) (w' : World) (hd : DeletesRow c p cid w') :
    w'.daemon.get cid = none ∨ o p = .leftStopped := by
  have hinv : ∃ gs, Removed c.world o gs ∧
      System.Tracks removal .fresh (fun _ _ _ => True) (fun _ _ _ => True) c gs := by
    refine System.Reach.sound (M := removal) (fun _ => Removing.fresh) Removed ?_ ?_ ?_ ?_ ?_ ?_ h
    · intro o w p op hop
      exact body_removes settings op hop
    · intro w o gs p op hI hp _
      rw [← hp, Function.update_eq_self]
      exact hI
    · intro w o gs p op β a e b w' hI ha hg hx
      exact hI.step ha hg hx
    · intro w o gs e w' hI hx
      cases hx
      exact ⟨hI.unique, hI.about, hI.cleared, hI.rejected, hI.left⟩
    · intro w o gs e w' alive hI hx _ _
      cases hx
      exact hI.reboot alive
    · refine ⟨hw, ?_, ?_, ?_, ?_⟩ <;> intros <;> contradiction
  obtain ⟨gs, hI, hT⟩ := hinv
  obtain ⟨id, principal, i, st, k, e, s, hp, hx, hs, hsc, -⟩ := hd
  obtain ⟨-, hphase⟩ := hT.allow hp
  rcases hphase with hphase | ⟨c', hphase⟩ | ⟨c', hphase⟩
  · -- a row without a container
    have hnone := hI.about (by rw [hphase]; rfl) hs
    rw [hsc] at hnone
    cases hnone
  · have hc := hI.about (by rw [hphase]; rfl) hs
    rw [hsc] at hc
    subst hc
    exact Or.inl (exec_absent hx rfl (hI.cleared hphase))
  · exact Or.inr (hI.left hphase)

/-- A delete whose removal succeeds, up to its DELETE. -/
def plainDelete : List (Event Env Op) :=
  [.invoke 0 (.delete 1 sampleAdmin), .step 0 {}, .step 0 {}, .step 0 {}]

/-- A delete whose removal is answered 409, and whose inspection finds the
container there, not running. -/
def rejectedDelete : List (Event Env Op) :=
  [.invoke 0 (.delete 1 sampleAdmin), .step 0 {}, .step 0 {},
   .step 0 { reply := .error ⟨none, some 409⟩, effect := false },
   .step 0 { inspected := .ok ⟨7, some false⟩ }]

/-- Whether the next step of call 0 is the DELETE of the sample row. -/
def deletesSampleRow (c : Conf) : Bool :=
  match c.calls 0 with
  | some ⟨.delete 1 _, .act (.deleteInStatus 1 .stopping) _⟩ =>
      (row c 1).any fun s => s.status = .stopping && s.containerId = some 7
  | _ => false

theorem deletesRow_of_sample {c : Conf} (h : deletesSampleRow c = true) :
    ∃ w', DeletesRow c 0 7 w' ∧ w'.daemon = c.world.daemon := by
  unfold deletesSampleRow at h
  split at h
  next pr k hc =>
    obtain ⟨s, hs, hss⟩ : ∃ s, row c 1 = some s ∧ s.status = .stopping ∧
        s.containerId = some 7 := by
      cases hr : row c 1 with
      | none => rw [hr] at h; cases h
      | some s => exact ⟨s, rfl, by simpa [hr] using h⟩
    refine ⟨_, ⟨1, pr, 1, .stopping, k, {}, s, hc, rfl, hs, hss.2, ?_⟩, rfl⟩
    rw [row] at hs
    rw [Table.get_remove, hs]
    simp [Table.get_key hs, hss.1]
  next => cases h

/-- The plain delete reaches its DELETE with the container gone. -/
theorem plainDelete_leaves_nothing :
    ∃ c o w', (system sampleSettings).Reach truthfulDaemon
        (Config.init (sampleWorld .stopped false)) (fun _ => .clear) c o ∧
      DeletesRow c 0 7 w' ∧ (w'.daemon.get 7 = none ∨ o 0 = .leftStopped) := by
  obtain ⟨c, o, h, ht⟩ := System.Reach.of_replay (S := system sampleSettings) (V := truthfulDaemon)
    (sampleWorld .stopped false) (fun _ => .clear) plainDelete (fun c _ => deletesSampleRow c)
    (by decide +kernel)
  obtain ⟨w', hd, -⟩ := deletesRow_of_sample ht
  exact ⟨c, o, w', h, hd, deleted_row_has_no_container _ _ (sampleWorld_unique _ _) c o h 0 7 w' hd⟩

/-- **A stopped container is left behind**: the removal is answered 409, the
inspection reports the container present and not running, the row is deleted. -/
theorem stopped_container_is_left_behind :
    ¬ ∀ (settings : Settings) (w₀ : World), w₀.UniqueContainers → ∀ (c : Conf) (o : Attempts),
      (system settings).Reach truthfulDaemon (Config.init w₀) (fun _ => .clear) c o →
      ∀ (p : Pid) (cid : ContainerId) (w' : World), DeletesRow c p cid w' →
        w'.daemon.get cid = none := by
  intro hall
  obtain ⟨c, o, h, ht⟩ := System.Reach.of_replay (S := system sampleSettings) (V := truthfulDaemon)
    (sampleWorld .stopped false) (fun _ => .clear) rejectedDelete
    (fun c _ => deletesSampleRow c && (c.world.daemon.get 7).isSome) (by decide +kernel)
  rw [Bool.and_eq_true] at ht
  obtain ⟨w', hd, hw'⟩ := deletesRow_of_sample ht.1
  have hnone := hall _ _ (sampleWorld_unique _ _) c o h 0 7 w' hd
  rw [hw'] at hnone
  rw [hnone] at ht
  cases ht.2

end MinePanel.Servers
