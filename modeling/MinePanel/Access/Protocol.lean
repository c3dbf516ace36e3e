/-
  MinePanel.Access.Protocol
  ─────────────────────────
  **WHAT EVERY INTERLEAVING OF REQUESTS, APPROVALS AND REVOCATIONS DOES.**

  The history records every change of `server_access` with the call that made
  it, and what was true of a call's pair whenever the call took a step.  In any
  interleaving of any number of calls on any pairs: a successful call made
  exactly one change, the one its operation stands for; a failing call made
  none; creations and revocations balance the row's presence; a row of a
  REQUEST server was created by its own user's request; and "already pending"
  and "already approved" were true when the call said so.
-/
import MinePanel.Access.Service

namespace MinePanel.Access

open MinePanel.Db MinePanel.Lib Prog

/-! ## §1. The history and the property. -/

/-- A change of the table by call `pid`. -/
structure Entry where
  pid : Pid
  before : Accesses
  after : Accesses

namespace Entry

/-- The row of the pair appears. -/
def creates (x : Entry) (k : UserId × ServerId) : Bool :=
  (x.before.get k).isNone && (x.after.get k).isSome

/-- The row of the pair disappears. -/
def deletes (x : Entry) (k : UserId × ServerId) : Bool :=
  (x.before.get k).isSome && (x.after.get k).isNone

/-- The row of the pair `k` goes from `r` to `r'`, and nothing else changes. -/
def Moves (x : Entry) (k : UserId × ServerId) (r r' : Option ServerAccess) : Prop :=
  x.before.get k = r ∧ ∀ k', x.after.get k' = if k' = k then r' else x.before.get k'

end Entry

/-- What has happened so far. -/
structure Diary where
  log : List Entry
  /-- The statuses the call's pair had when the call took one of its steps. -/
  saw : Pid → ServerAccessStatus → Bool

namespace Diary

/-- Nothing has happened. -/
def blank : Diary := ⟨[], fun _ _ => false⟩

/-- The changes made by one call. -/
def entriesOf (o : Diary) (p : Pid) : List Entry := o.log.filter fun x => x.pid = p

/-- A step of `p`, whose call is about the pair `k`. -/
def next (o : Diary) (w : World) (p : Pid) (k : UserId × ServerId) (w' : World) : Diary where
  log := if w'.access.rows = w.access.rows then o.log else o.log ++ [⟨p, w.access, w'.access⟩]
  saw := Function.update o.saw p fun st =>
    o.saw p st || (w.access.get k).any fun r => r.status == st

/-- How often a call that has returned created the row of the pair. -/
def creations (c : Conf) (o : Diary) (k : UserId × ServerId) : Nat :=
  o.log.countP fun x => (c.result x.pid).isSome && x.creates k

/-- How often a call that has returned deleted the row of the pair. -/
def revocations (c : Conf) (o : Diary) (k : UserId × ServerId) : Nat :=
  o.log.countP fun x => (c.result x.pid).isSome && x.deletes k

end Diary

/-- Every interleaving of requests, approvals and revocations. -/
def everything : Watch Act World Env Op Diary where
  onStep := fun o w p op _ _ _ w' => o.next w p op.pair w'

/-- The one change an operation stands for. -/
def Op.Changes (servers : Servers) (x : Entry) : Op → Prop
  | .request serverId principal =>
      ∃ r, r.status = .pending ∧ x.Moves (principal.id, serverId) none (some r)
  | .approve serverId targetUserId =>
      (∃ r r', r.status = .pending ∧ r'.status = .approved ∧
        x.Moves (targetUserId, serverId) (some r) (some r')) ∨
      ∃ r s, r.status = .approved ∧ x.Moves (targetUserId, serverId) none (some r) ∧
        servers.get serverId = some s ∧ s.accessType = .privateAccess
  | .revoke serverId targetUserId =>
      ∃ r, x.Moves (targetUserId, serverId) (some r) none

/-- **The protocol**, in a configuration `c` with the history `o`. -/
structure Protocol (c : Conf) (o : Diary) : Prop where
  /-- At most one row per pair. -/
  unique : ∀ {r r' : ServerAccess}, r ∈ c.world.access.rows → r' ∈ c.world.access.rows →
    r.userId = r'.userId → r.serverId = r'.serverId → r = r'
  /-- A successful call made exactly one change, its own. -/
  success : ∀ {p : Pid} {op : Op} {r : Reply}, c.returned p op r →
    ∃ x, o.entriesOf p = [x] ∧ op.Changes c.world.servers x
  /-- A failing call changed nothing. -/
  failure : ∀ {p : Pid} {op : Op} {e : Exn}, c.failed p op e → o.entriesOf p = []
  /-- Successful creations minus successful revocations is the row's presence. -/
  balance : ∀ k, o.creations c k =
    o.revocations c k + if (c.world.access.get k).isSome then 1 else 0
  /-- A row of a REQUEST server was created by its own user's request. -/
  asked : ∀ {x : Entry} {u : UserId} {id : ServerId} {s : Server}, x ∈ o.log →
    x.creates (u, id) = true → c.world.servers.get id = some s → s.accessType = .requestAccess →
    ∃ principal reply, c.returned x.pid (.request id principal) reply ∧ principal.id = u
  /-- APPROVED on a REQUEST server comes after the user's own request. -/
  requested : ∀ {r : ServerAccess} {s : Server}, r ∈ c.world.access.rows →
    r.status = .approved → c.world.servers.get r.serverId = some s →
    s.accessType = .requestAccess →
    ∃ p principal reply, c.returned p (.request r.serverId principal) reply ∧
      principal.id = r.userId
  /-- What a conflict says about the row was true during the call. -/
  told : ∀ {p : Pid} {op : Op} {e : Exn}, c.failed p op e →
    (e = .conflict "Access request already pending" → o.saw p .pending = true) ∧
    (e = .conflict "Access request still pending" → o.saw p .pending = true) ∧
    (e = .conflict "Server access already approved" → o.saw p .approved = true)

/-! ## §2. The monitor. -/

/-- What a call has learned and done. -/
structure Track where
  /-- The access type it read, and of which server. -/
  typed : Option (ServerId × AccessType)
  /-- The statuses it read of its pair. -/
  saw : ServerAccessStatus → Bool
  /-- The operation it has carried out. -/
  made : Option Op

namespace Track

/-- A call that has done nothing. -/
def idle : Track := ⟨none, fun _ => false, none⟩

/-- What a call of `op` may do next; after its own change it does nothing. -/
def allow (op : Op) (m : Track) : ∀ {β : Type}, Act β → Prop
  | _, .query s => m.made = none ∧ match s with
    | .insertAccess serverId userId status =>
        (∃ principal, op = .request serverId principal ∧ userId = principal.id ∧
          status = .pending) ∨
        op = .approve serverId userId ∧ status = .approved ∧
          m.typed = some (serverId, .privateAccess)
    | .approvePending serverId userId => op = .approve serverId userId
    | .deleteAccess serverId userId => op = .revoke serverId userId
    | .selectAccess serverId userId => op.pair = (userId, serverId)
    | _ => True

/-- What a statement teaches or does. -/
def after (op : Op) (m : Track) : ∀ {α : Type}, Stmt α → α → Track
  | _, .selectServer id, some s => { m with typed := some (id, s.accessType) }
  | _, .selectAccess _ _, some r => { m with saw := Function.update m.saw r.status true }
  | _, .insertAccess _ _ _, some _ => { m with made := some op }
  | _, .approvePending _ _, some _ => { m with made := some op }
  | _, .deleteAccess _ _, some _ => { m with made := some op }
  | _, _, _ => m

/-- The state after a step. -/
def next (op : Op) (m : Track) : ∀ {β : Type}, Act β → β → Track → Prop
  | _, .query s, b, m' =>
      match b with
      | .ok r => m' = m.after op s r
      | .error e => e = .statementFailed ∧ m' = m

end Track

/-- The protocol monitor of one operation. -/
def protocol (op : Op) : Monitor Act Track where
  allow := fun m a => m.allow op a
  next := fun m a b m' => m.next op a b m'

/-- A failed call has changed nothing, and what it says it has read. -/
def Told (e : Exn) (m : Track) : Prop :=
  m.made = none ∧
  (e = .conflict "Access request already pending" → m.saw .pending = true) ∧
  (e = .conflict "Access request still pending" → m.saw .pending = true) ∧
  (e = .conflict "Server access already approved" → m.saw .approved = true)

/-- The texts that say something about the row. -/
def Exn.isAboutRow (e : Exn) : Bool :=
  e == .conflict "Access request already pending" || e == .conflict "Access request still pending"
    || e == .conflict "Server access already approved"

theorem Told.of_other {e : Exn} {m : Track} (hm : m.made = none) (he : Exn.isAboutRow e = false) :
    Told e m := by
  refine ⟨hm, ?_, ?_, ?_⟩ <;> intro h <;> rw [h] at he <;> cases he

/-! ## §3. Every operation follows the monitor. -/

section Calls

variable {op : Op} {α : Type} {m : Track} {Q : α → Track → Prop} {serverId : ServerId}
  {userId : UserId}

/-- A statement; a failure has changed nothing. -/
theorem wp_query {s : Stmt α} (hm : m.made = none) (hallow : (protocol op).allow m (.query s))
    (hQ : ∀ r, Q r (m.after op s r)) :
    wp (protocol op) Q Told (query s) m := by
  refine ⟨hallow, fun b m' h => ?_⟩
  cases b with
  | ok r =>
      change m' = _ at h
      rw [h]
      exact hQ r
  | error e =>
      obtain ⟨rfl, rfl⟩ := h
      exact Told.of_other hm rfl

theorem wp_loadServer {Q : Server → Track → Prop} (hm : m.made = none)
    (hQ : ∀ s, Q s { m with typed := some (serverId, s.accessType) }) :
    wp (protocol op) Q Told (loadServer serverId) m := by
  unfold loadServer
  refine wp_seq (wp_query hm ⟨hm, trivial⟩ fun r => ?_)
  cases r with
  | none => exact Told.of_other hm rfl
  | some s => exact hQ s

/-- What was read was seen. -/
theorem saw_read (m : Track) {r : ServerAccess} {st : ServerAccessStatus} (h : r.status = st) :
    Function.update m.saw r.status true st = true := by
  rw [h, Function.update_self]

/-- An existing row is reported as it was read. -/
theorem told_pending {r : ServerAccess} {m : Track} (hm : m.made = none) (h : r.status = .pending)
    (message : String) (hmessage : message ≠ "Server access already approved") :
    Told (.conflict message) { m with saw := Function.update m.saw r.status true } := by
  refine ⟨hm, fun _ => saw_read m h, fun _ => saw_read m h, fun he => ?_⟩
  rw [Exn.conflict.injEq] at he
  exact absurd he hmessage

theorem told_approved {r : ServerAccess} {m : Track} (hm : m.made = none)
    (h : r.status = .approved) :
    Told (.conflict "Server access already approved")
      { m with saw := Function.update m.saw r.status true } :=
  ⟨hm, nofun, nofun, fun _ => saw_read m h⟩

theorem status_cases (r : ServerAccess) : r.status = .pending ∨ r.status = .approved := by
  cases r.status with
  | pending => exact Or.inl rfl
  | approved => exact Or.inr rfl

/-- One attempt of a request. -/
theorem upsertPendingAttempt_keeps {principal : ServerPrincipal} {vanished : Call ServerAccess}
    (hop : op = .request serverId principal) (hm : m.made = none)
    (h : wp (protocol op) (fun _ m => m.made = some op) Told vanished m) :
    wp (protocol op) (fun _ m => m.made = some op) Told
      (upsertPendingAttempt serverId principal.id vanished) m := by
  unfold upsertPendingAttempt
  refine wp_seq (wp_query hm ⟨hm, Or.inl ⟨principal, hop, rfl, rfl⟩⟩ fun inserted => ?_)
  cases inserted with
  | some inserted => rfl
  | none =>
      refine wp_seq (wp_query hm ⟨hm, by rw [hop]; rfl⟩ fun existing => ?_)
      cases existing with
      | none => exact h
      | some existing =>
          rcases status_cases existing with hst | hst
          · simp only [hst, if_true]
            exact told_pending hm hst _ (by decide)
          · simp only [hst, reduceCtorEq, if_false]
            exact told_approved hm hst

theorem upsertPendingWithRetry_keeps {principal : ServerPrincipal} (retries : Nat)
    (hop : op = .request serverId principal) (hm : m.made = none) :
    wp (protocol op) (fun _ m => m.made = some op) Told
      (upsertPendingWithRetry serverId principal.id retries) m := by
  induction retries generalizing m with
  | zero =>
      refine upsertPendingAttempt_keeps hop hm ?_
      -- the last look at the server only chooses the text
      have hend : ∀ (server : Option Server) (m : Track), m.made = none →
          wp (protocol op) (fun _ m => m.made = some op) Told
            (if server.map Server.accessType ≠ some .requestAccess then
              throw (.notFound "Server not found")
            else throw (.conflict "Access request state changed, please retry") :
              Call ServerAccess) m := by
        intro server m hm
        split
        · exact Told.of_other hm rfl
        · exact Told.of_other hm rfl
      refine wp_seq ?_
      rw [tryCatch_eq, wp_tryCatch, map_eq, wp_bind]
      refine wp_mono _ _ (fun _ _ h => h) (fun e m' h => hend none m' h.1)
        (wp_loadServer hm fun s => ?_)
      exact hend (some s) _ hm
  | succ retries ih =>
      refine upsertPendingAttempt_keeps hop hm ?_
      refine wp_seq (wp_loadServer hm fun s => ?_)
      exact wp_guard (fun _ => Told.of_other hm rfl) fun _ => ih hm

/-- `requestAccess`. -/
theorem requestAccess_keeps {principal : ServerPrincipal}
    (hop : op = .request serverId principal) :
    wp (protocol op) (fun _ m => m.made = some op) Told (requestAccess serverId principal)
      Track.idle := by
  unfold requestAccess
  refine wp_guard (fun _ => Told.of_other rfl rfl) fun _ => ?_
  refine wp_seq (wp_loadServer rfl fun s => ?_)
  refine wp_guard (fun _ => Told.of_other rfl rfl) fun _ => ?_
  refine wp_guard (fun _ => Told.of_other rfl rfl) fun _ => ?_
  exact wp_seq (wp_mono _ _ (fun _ _ h => h) (fun _ _ h => h)
    (upsertPendingWithRetry_keeps maxRaceRetries hop rfl))

/-- One attempt of an approval, whose server was read with the access type
`type`. -/
theorem approveAttempt_keeps {type : AccessType} {stillPending lostInsert : Call ServerAccess}
    (hop : op = .approve serverId userId) (htype : type ≠ .openAccess) (hm : m.made = none)
    (htyped : m.typed = some (serverId, type))
    (hpending : ∀ m' : Track, m'.made = none → m'.typed = some (serverId, type) →
      m'.saw .pending = true →
      wp (protocol op) (fun _ m => m.made = some op) Told stillPending m')
    (hlost : wp (protocol op) (fun _ m => m.made = some op) Told lostInsert m) :
    wp (protocol op) (fun _ m => m.made = some op) Told
      (approveAttempt type serverId userId stillPending lostInsert) m := by
  unfold approveAttempt
  refine wp_seq (wp_query hm ⟨hm, hop⟩ fun approved => ?_)
  cases approved with
  | some approved => rfl
  | none =>
      refine wp_seq (wp_query hm ⟨hm, by rw [hop]; rfl⟩ fun existing => ?_)
      cases existing with
      | some existing =>
          rcases status_cases existing with hst | hst
          · simp only [hst, reduceCtorEq, if_false]
            exact hpending _ hm htyped (saw_read m hst)
          · simp only [hst, if_true]
            exact told_approved hm hst
      | none =>
          refine wp_guard (fun _ => Told.of_other hm rfl) fun hrequest => ?_
          have hprivate : type = .privateAccess := by
            cases type with
            | openAccess => exact absurd rfl htype
            | requestAccess => exact absurd rfl hrequest
            | privateAccess => rfl
          refine wp_seq (wp_query hm ⟨hm, Or.inr ⟨hop, rfl, by rw [← hprivate]; exact htyped⟩⟩
            fun inserted => ?_)
          cases inserted with
          | some inserted => rfl
          | none => exact hlost

theorem approveWithRetry_keeps {type : AccessType} (retries : Nat)
    (hop : op = .approve serverId userId) (htype : type ≠ .openAccess) (hm : m.made = none)
    (htyped : m.typed = some (serverId, type)) :
    wp (protocol op) (fun _ m => m.made = some op) Told
      (approveWithRetry type serverId userId retries) m := by
  induction retries generalizing m with
  | zero =>
      refine approveAttempt_keeps hop htype hm htyped (fun m' hm' _ hsaw => ?_) ?_
      · exact ⟨hm', nofun, fun _ => hsaw, nofun⟩
      · refine wp_seq (wp_query hm ⟨hm, by rw [hop]; rfl⟩ fun existing => ?_)
        cases existing with
        | none => exact Told.of_other hm rfl
        | some existing =>
            rcases status_cases existing with hst | hst
            · simp only [hst, reduceCtorEq, if_false]
              exact told_pending hm hst _ (by decide)
            · simp only [hst, if_true]
              exact told_approved hm hst
  | succ retries ih =>
      exact approveAttempt_keeps hop htype hm htyped (fun m' hm' htyped' _ => ih hm' htyped')
        (ih hm htyped)

/-- `approveAccess`. -/
theorem approveAccess_keeps (hop : op = .approve serverId userId) :
    wp (protocol op) (fun _ m => m.made = some op) Told (approveAccess serverId userId)
      Track.idle := by
  unfold approveAccess loadTargetUser
  refine wp_seq (wp_loadServer rfl fun s => ?_)
  refine wp_seq (wp_seq (wp_query rfl ⟨rfl, trivial⟩ fun targetUser => ?_))
  cases targetUser with
  | none => exact Told.of_other rfl rfl
  | some targetUser =>
      refine wp_guard (fun _ => Told.of_other rfl rfl) fun _ => ?_
      refine wp_guard (fun _ => Told.of_other rfl rfl) fun hopen => ?_
      exact wp_seq (wp_mono _ _ (fun _ _ h => h) (fun _ _ h => h)
        (approveWithRetry_keeps maxRaceRetries hop hopen rfl rfl))

/-- `revokeAccess`. -/
theorem revokeAccess_keeps (hop : op = .revoke serverId userId) :
    wp (protocol op) (fun _ m => m.made = some op) Told (revokeAccess serverId userId)
      Track.idle := by
  unfold revokeAccess
  refine wp_seq (wp_loadServer rfl fun s => ?_)
  refine wp_seq (wp_query rfl ⟨rfl, hop⟩ fun deleted => ?_)
  cases deleted with
  | some id => rfl
  | none => exact Told.of_other rfl rfl

/-- **Every operation follows the protocol monitor.** -/
theorem body_keeps (op : Op) :
    wp (protocol op) (fun _ m => m.made = some op) Told (body op) Track.idle := by
  cases op with
  | request serverId principal => exact wp_seq (requestAccess_keeps rfl)
  | approve serverId targetUserId => exact wp_seq (approveAccess_keeps rfl)
  | revoke serverId targetUserId => exact wp_seq (revokeAccess_keeps rfl)

end Calls

/-! ## §4. What a statement does to the table. -/

section Tables

variable {w : World} {e : Env} {serverId : ServerId} {userId : UserId}

/-- An INSERT creates the row of a free pair, or does nothing. -/
theorem run_insertAccess (w : World) (e : Env) (serverId : ServerId) (userId : UserId)
    (status : ServerAccessStatus) :
    (run w e (.insertAccess serverId userId status)).2 = w.access ∧
      ((run w e (.insertAccess serverId userId status)).1 = .error .statementFailed ∨
        (run w e (.insertAccess serverId userId status)).1 = .ok none) ∨
    ∃ r, (run w e (.insertAccess serverId userId status)).1 = .ok (some r) ∧ r.status = status ∧
      w.access.get (userId, serverId) = none ∧
      ∀ k, (run w e (.insertAccess serverId userId status)).2.get k =
        if k = (userId, serverId) then some r else w.access.get k := by
  simp only [run]
  split
  · exact Or.inl ⟨rfl, Or.inl rfl⟩
  · cases hi : w.access.insert (newAccess e.uuid serverId userId status w.clock) with
    | none => exact Or.inl ⟨rfl, Or.inr rfl⟩
    | some access =>
        refine Or.inr ⟨_, rfl, rfl, (Table.insert_rows hi).2, fun k => ?_⟩
        rw [Table.get_insert hi]
        exact if_congr eq_comm rfl rfl

/-- The UPDATE approves a PENDING row, or does nothing. -/
theorem run_approvePending (w : World) (e : Env) (serverId : ServerId) (userId : UserId) :
    (run w e (.approvePending serverId userId)).2 = w.access ∧
      (run w e (.approvePending serverId userId)).1 = .ok none ∨
    ∃ r, w.access.get (userId, serverId) = some r ∧ r.status = .pending ∧
      (run w e (.approvePending serverId userId)).1 = .ok (some (approvedRow w.clock r)) ∧
      ∀ k, (run w e (.approvePending serverId userId)).2.get k =
        if k = (userId, serverId) then some (approvedRow w.clock r) else w.access.get k := by
  simp only [run]
  cases hg : w.access.get (userId, serverId) with
  | none =>
      refine Or.inl ⟨Table.modify_eq_self fun r hr => ?_, rfl⟩
      have hkey : r.pair ≠ (userId, serverId) := Table.get_eq_none.mp hg r hr
      rw [if_neg (by simp [hkey])]
  | some x =>
      have hkey : x.pair = (userId, serverId) := Table.get_key hg
      by_cases hst : x.status = .pending
      · refine Or.inr ⟨x, rfl, hst, by simp [hkey, hst], fun k => ?_⟩
        rw [Table.get_modify]
        cases hk : w.access.get k with
        | none =>
            have hne : k ≠ (userId, serverId) := by
              intro hne
              rw [hne, hg] at hk
              cases hk
            rw [if_neg hne]
            rfl
        | some y =>
            have hy : y.pair = k := Table.get_key hk
            by_cases hne : k = (userId, serverId)
            · rw [hne, hg, Option.some.injEq] at hk
              subst hk
              simp [hne, hkey, hst]
            · rw [if_neg hne, Option.map_some, if_neg]
              simp only [hy, hne, decide_false, Bool.false_and]
              decide
      · refine Or.inl ⟨Table.modify_eq_self fun r hr => ?_, by simp [hst]⟩
        by_cases hr' : r.pair = (userId, serverId)
        · have hrx : w.access.get (userId, serverId) = some r := by
            rw [← hr']
            exact Table.mem_rows.mp hr
          rw [hg, Option.some.injEq] at hrx
          rw [← hrx, if_neg (by simp [hst])]
        · rw [if_neg (by simp [hr'])]

/-- The DELETE removes the row of the pair, or does nothing. -/
theorem run_deleteAccess (w : World) (e : Env) (serverId : ServerId) (userId : UserId) :
    (run w e (.deleteAccess serverId userId)).2 = w.access ∧
      (run w e (.deleteAccess serverId userId)).1 = .ok none ∨
    ∃ r, w.access.get (userId, serverId) = some r ∧
      (run w e (.deleteAccess serverId userId)).1 = .ok (some r.id) ∧
      ∀ k, (run w e (.deleteAccess serverId userId)).2.get k =
        if k = (userId, serverId) then none else w.access.get k := by
  simp only [run]
  cases hg : w.access.get (userId, serverId) with
  | none =>
      refine Or.inl ⟨Table.remove_eq_self fun r hr => ?_, rfl⟩
      simpa using Table.get_eq_none.mp hg r hr
  | some x =>
      refine Or.inr ⟨x, rfl, rfl, fun k => ?_⟩
      rw [Table.get_remove]
      cases hk : w.access.get k with
      | none => simp
      | some y =>
          have hy : y.pair = k := Table.get_key hk
          by_cases hne : k = (userId, serverId) <;> simp [hy, hne]

end Tables

/-! ## §5. The invariant of the pool. -/

/-- What holds of the world, the history and the calls. -/
structure Kept (w : World) (o : Diary) (gs : Pid → Track) : Prop where
  typed : ∀ {p id t}, (gs p).typed = some (id, t) →
    ∃ s, w.servers.get id = some s ∧ s.accessType = t
  saw : ∀ {p st}, (gs p).saw st = true → o.saw p st = true
  quiet : ∀ {p}, (gs p).made = none → o.entriesOf p = []
  made : ∀ {p op}, (gs p).made = some op → ∃ x, o.entriesOf p = [x] ∧ op.Changes w.servers x
  balance : ∀ k, o.log.countP (·.creates k) =
    o.log.countP (·.deletes k) + if (w.access.get k).isSome then 1 else 0

theorem Diary.next_same {o : Diary} {w w' : World} {p : Pid} {k : UserId × ServerId}
    (h : w'.access = w.access) : (o.next w p k w').log = o.log := by
  unfold Diary.next
  rw [if_pos (by rw [h])]

theorem Diary.next_saw {o : Diary} {w w' : World} {p q : Pid} {k : UserId × ServerId}
    {st : ServerAccessStatus} (h : o.saw q st = true) : (o.next w p k w').saw q st = true := by
  unfold Diary.next
  by_cases hq : q = p
  · subst hq
    simp [h]
  · simp [hq, h]

/-- A step of `p` that leaves the table alone. -/
theorem Kept.look {w w' : World} {o : Diary} {gs : Pid → Track} {p : Pid} {m : Track}
    {k : UserId × ServerId} (h : Kept w o gs) (ha : w'.access = w.access)
    (hs : w'.servers = w.servers) (hmade : m.made = (gs p).made)
    (htyped : ∀ id t, m.typed = some (id, t) →
      ∃ s, w.servers.get id = some s ∧ s.accessType = t)
    (hsaw : ∀ st, m.saw st = true → (o.next w p k w').saw p st = true) :
    Kept w' (o.next w p k w') (Function.update gs p m) := by
  have hlog : (o.next w p k w').log = o.log := Diary.next_same ha
  have hentries : ∀ q, (o.next w p k w').entriesOf q = o.entriesOf q := by
    intro q
    unfold Diary.entriesOf
    rw [hlog]
  have hmade' : ∀ q, (Function.update gs p m q).made = (gs q).made := by
    intro q
    by_cases hq : q = p
    · rw [hq, Function.update_self, hmade]
    · rw [Function.update_of_ne hq]
  refine ⟨?_, ?_, ?_, ?_, ?_⟩
  · intro q id t hq
    rw [hs]
    by_cases hqp : q = p
    · rw [hqp, Function.update_self] at hq
      exact htyped id t hq
    · rw [Function.update_of_ne hqp] at hq
      exact h.typed hq
  · intro q st hq
    by_cases hqp : q = p
    · rw [hqp, Function.update_self] at hq
      rw [hqp]
      exact hsaw st hq
    · rw [Function.update_of_ne hqp] at hq
      exact Diary.next_saw (h.saw hq)
  · intro q hq
    rw [hmade'] at hq
    rw [hentries]
    exact h.quiet hq
  · intro q op hq
    rw [hmade'] at hq
    rw [hentries, hs]
    exact h.made hq
  · intro k'
    rw [hlog, ha]
    exact h.balance k'

/-- **The change of `p`.** -/
theorem Kept.change {w w' : World} {o : Diary} {gs : Pid → Track} {p : Pid} {m : Track} {op : Op}
    {k : UserId × ServerId} (h : Kept w o gs) (hs : w'.servers = w.servers)
    (hp : (gs p).made = none) (hm : m = { gs p with made := some op })
    (hne : w'.access.get op.pair ≠ w.access.get op.pair)
    (hc : op.Changes w.servers ⟨p, w.access, w'.access⟩) :
    Kept w' (o.next w p k w') (Function.update gs p m) := by
  have hrows : w'.access.rows ≠ w.access.rows := by
    intro hrows
    exact hne (by rw [Table.eq_of_rows hrows])
  have hlog : (o.next w p k w').log = o.log ++ [⟨p, w.access, w'.access⟩] := by
    unfold Diary.next
    rw [if_neg hrows]
  have hother : ∀ q, q ≠ p → (o.next w p k w').entriesOf q = o.entriesOf q := by
    intro q hq
    unfold Diary.entriesOf
    rw [hlog, List.filter_append]
    simp [Ne.symm hq]
  have hself : (o.next w p k w').entriesOf p = [⟨p, w.access, w'.access⟩] := by
    have hquiet := h.quiet hp
    unfold Diary.entriesOf at hquiet ⊢
    rw [hlog, List.filter_append, hquiet]
    simp
  refine ⟨?_, ?_, ?_, ?_, ?_⟩
  · intro q id t hq
    rw [hs]
    by_cases hqp : q = p
    · rw [hqp, Function.update_self, hm] at hq
      exact h.typed hq
    · rw [Function.update_of_ne hqp] at hq
      exact h.typed hq
  · intro q st hq
    refine Diary.next_saw (h.saw (p := q) ?_)
    by_cases hqp : q = p
    · rw [hqp, Function.update_self, hm] at hq
      rw [hqp]
      exact hq
    · rwa [Function.update_of_ne hqp] at hq
  · intro q hq
    by_cases hqp : q = p
    · rw [hqp, Function.update_self, hm] at hq
      cases hq
    · rw [Function.update_of_ne hqp] at hq
      rw [hother q hqp]
      exact h.quiet hq
  · intro q op' hq
    by_cases hqp : q = p
    · rw [hqp, Function.update_self, hm] at hq
      cases hq
      rw [hqp, hs]
      exact ⟨_, hself, hc⟩
    · rw [Function.update_of_ne hqp] at hq
      rw [hother q hqp, hs]
      exact h.made hq
  · intro k'
    -- one entry more, and the presence of each row before and after it
    rw [hlog, List.countP_append, List.countP_append, List.countP_singleton,
      List.countP_singleton, h.balance k']
    simp only [Entry.creates, Entry.deletes, ← Option.not_isSome]
    generalize (w.access.get k').isSome = was
    generalize (w'.access.get k').isSome = is
    cases was <;> cases is <;> simp

/-- **One step.** -/
theorem Kept.step {w w' : World} {o : Diary} {gs : Pid → Track} {p : Pid} {op : Op} {β : Type}
    {a : Act β} {e : Env} {b : β} (h : Kept w o gs) (ha : (gs p).allow op a)
    (hx : exec a e w = some (b, w')) :
    ∃ m, (gs p).next op a b m ∧ Kept w' (o.next w p op.pair w') (Function.update gs p m) := by
  obtain ⟨s⟩ := a
  obtain ⟨hp, hs⟩ := ha
  have hlook : ∀ {w' : World}, w'.access = w.access → w'.servers = w.servers →
      Kept w' (o.next w p op.pair w') (Function.update gs p (gs p)) := fun h₁ h₂ =>
    h.look h₁ h₂ rfl (fun _ _ => h.typed) fun _ hst => Diary.next_saw (h.saw hst)
  simp only [exec] at hx
  by_cases hfails : e.fails = true
  · rw [if_pos hfails] at hx
    cases hx
    exact ⟨gs p, ⟨rfl, rfl⟩, hlook rfl rfl⟩
  rw [if_neg hfails, Option.some.injEq, Prod.mk.injEq] at hx
  obtain ⟨rfl, rfl⟩ := hx
  cases s with
  | selectServer id =>
      refine ⟨_, rfl, ?_⟩
      cases hr : (w.servers.get id).filter (fun s => decide (s.status ≠ .creating)) with
      | none => exact hlook rfl rfl
      | some s =>
          refine h.look rfl rfl rfl (fun i t ht => ?_) fun _ hst => Diary.next_saw (h.saw hst)
          cases ht
          exact ⟨s, (Option.filter_eq_some_iff.mp hr).1, rfl⟩
  | selectUser id => exact ⟨gs p, rfl, hlook rfl rfl⟩
  | selectAccess serverId userId =>
      refine ⟨_, rfl, ?_⟩
      cases hr : w.access.get (userId, serverId) with
      | none => exact hlook rfl rfl
      | some r =>
          refine h.look rfl rfl rfl (fun _ _ => h.typed) fun st hst => ?_
          by_cases hrst : r.status = st
          · unfold Diary.next
            dsimp only
            rw [Function.update_self, hs, hr]
            simp [hrst]
          · have hold : Function.update (gs p).saw r.status true st = true := hst
            rw [Function.update_of_ne (Ne.symm hrst)] at hold
            exact Diary.next_saw (h.saw hold)
  | insertAccess serverId userId status =>
      rcases run_insertAccess w e serverId userId status with ⟨htable, hb | hb⟩ |
        ⟨r, hb, hst, hnone, hget⟩
      · exact ⟨gs p, by rw [hb]; exact ⟨rfl, rfl⟩, hlook htable rfl⟩
      · exact ⟨gs p, by rw [hb]; rfl, hlook htable rfl⟩
      · have hpair : op.pair = (userId, serverId) := by
          rcases hs with ⟨principal, rfl, rfl, -⟩ | ⟨rfl, -⟩ <;> rfl
        refine ⟨{ gs p with made := some op }, by rw [hb]; rfl, ?_⟩
        refine h.change rfl hp rfl ?_ ?_
        · rw [hpair, hget, if_pos rfl, hnone]
          exact nofun
        · rcases hs with ⟨principal, rfl, rfl, rfl⟩ | ⟨rfl, rfl, htyped⟩
          · exact ⟨r, hst, hnone, hget⟩
          · obtain ⟨s, hs, hprivate⟩ := h.typed htyped
            exact Or.inr ⟨r, s, hst, ⟨hnone, hget⟩, hs, hprivate⟩
  | approvePending serverId userId =>
      cases hs
      rcases run_approvePending w e serverId userId with ⟨htable, hb⟩ | ⟨r, hr, hst, hb, hget⟩
      · exact ⟨gs p, by rw [hb]; rfl, hlook htable rfl⟩
      · refine ⟨{ gs p with made := some _ }, by rw [hb]; rfl, ?_⟩
        refine h.change rfl hp rfl ?_ (Or.inl ⟨r, _, hst, rfl, hr, hget⟩)
        change (run w e (.approvePending serverId userId)).2.get (userId, serverId) ≠ _
        rw [hget, if_pos rfl]
        change _ ≠ w.access.get (userId, serverId)
        rw [hr, ne_eq, Option.some.injEq]
        intro heq
        rw [← heq] at hst
        cases hst
  | deleteAccess serverId userId =>
      cases hs
      rcases run_deleteAccess w e serverId userId with ⟨htable, hb⟩ | ⟨r, hr, hb, hget⟩
      · exact ⟨gs p, by rw [hb]; rfl, hlook htable rfl⟩
      · refine ⟨{ gs p with made := some _ }, by rw [hb]; rfl, ?_⟩
        refine h.change rfl hp rfl ?_ ⟨r, hr, hget⟩
        change (run w e (.deleteAccess serverId userId)).2.get (userId, serverId) ≠ _
        rw [hget, if_pos rfl]
        change _ ≠ w.access.get (userId, serverId)
        rw [hr]
        exact nofun

/-- A server keeps its access type when other services move on. -/
theorem keepsRows_server {w : World} {e : Env} {id : ServerId} {s : Server}
    (h : keepsRows w e = true) (hs : w.servers.get id = some s) :
    ∃ s', e.servers.get id = some s' ∧ s'.accessType = s.accessType := by
  rw [keepsRows, Bool.and_eq_true, List.all_eq_true] at h
  obtain ⟨hmem, rfl⟩ := Table.get_eq_some.mp hs
  obtain ⟨s', hs', ht⟩ := (Option.any_eq_true _ _).mp (h.1 s hmem)
  exact ⟨s', hs', by simpa using ht⟩

/-- The surroundings move on. -/
theorem Kept.ambient {w : World} {e : Env} {o : Diary} {gs : Pid → Track} (h : Kept w o gs)
    (hkeeps : keepsRows w e = true) :
    Kept { w with servers := e.servers, users := e.users, clock := w.clock + 1 } o gs := by
  refine ⟨fun hq => ?_, h.saw, h.quiet, fun hq => ?_, h.balance⟩
  · obtain ⟨s, hs, ht⟩ := h.typed hq
    obtain ⟨s', hs', ht'⟩ := keepsRows_server hkeeps hs
    exact ⟨s', hs', ht'.trans ht⟩
  · obtain ⟨x, hx, hc⟩ := h.made hq
    refine ⟨x, hx, ?_⟩
    rename_i op
    cases op with
    | request serverId principal => exact hc
    | revoke serverId targetUserId => exact hc
    | approve serverId targetUserId =>
        rcases hc with hc | ⟨r, s, hst, hmoves, hs, ht⟩
        · exact Or.inl hc
        · obtain ⟨s', hs', ht'⟩ := keepsRows_server hkeeps hs
          exact Or.inr ⟨r, s', hst, hmoves, hs', ht'.trans ht⟩

/-! ## §6. Runs. -/

/-- The invariant in every run from an empty table. -/
theorem protocol_kept {w₀ : World} {c : Conf} {o : Diary} (hempty : w₀.access.rows = [])
    (h : system.Reach everything (Config.init w₀) Diary.blank c o) :
    ∃ gs, Kept c.world o gs ∧
      System.Tracks protocol Track.idle (fun op _ m => m.made = some op) (fun _ => Told) c gs := by
  refine System.Reach.sound (M := protocol) (fun _ => Track.idle) Kept ?_ ?_ ?_ ?_ ?_ ?_ h
  · intro o w p op _
    exact body_keeps op
  · intro w o gs p op hI hp _
    rw [← hp, Function.update_eq_self]
    exact hI
  · intro w o gs p op β a e b w' hI ha _ hx
    exact hI.step ha hx
  · intro w o gs e w' hI hx
    change (if keepsRows w e then _ else none) = _ at hx
    split at hx
    next hkeeps =>
      cases hx
      exact hI.ambient hkeeps
    next => cases hx
  · intro w o gs e w' alive _ hx _ _
    cases hx
  · have hnone : ∀ k, w₀.access.get k = none := by
      intro k
      rw [Table.get_eq_none, hempty]
      exact fun r hr => absurd hr List.not_mem_nil
    refine ⟨nofun, nofun, fun _ => rfl, nofun, fun k => ?_⟩
    rw [hnone]
    rfl

/-- A call that has made its change has returned. -/
theorem returned_of_made {c : Conf} {gs : Pid → Track} {p : Pid} {op : Op}
    (hT : System.Tracks protocol Track.idle (fun op _ m => m.made = some op) (fun _ => Told) c gs)
    (hp : (gs p).made = some op) : ∃ r, c.returned p op r := by
  cases hc : c.calls p with
  | none =>
      rw [hT.not_invoked hc] at hp
      cases hp
  | some t =>
      obtain ⟨op', rest⟩ := t
      cases rest with
      | ret r =>
          have hmade := hT.returned hc
          rw [hp, Option.some.injEq] at hmade
          exact ⟨r, by rw [Config.returned, hc, hmade]⟩
      | fail e =>
          have hmade := (hT.failed hc).1
          rw [hp] at hmade
          cases hmade
      | act a k =>
          obtain ⟨s⟩ := a
          have hmade := (hT.allow hc).1
          rw [hp] at hmade
          cases hmade

theorem result_of_returned {c : Conf} {p : Pid} {op : Op} {r : Reply} (h : c.returned p op r) :
    (c.result p).isSome = true := by
  unfold Config.result
  rw [h]
  rfl

section Conclusions

variable {c : Conf} {o : Diary} {gs : Pid → Track} {x : Entry} {u : UserId} {id : ServerId}
  {s : Server}

/-- Every entry belongs to a call that has returned, and is its change. -/
theorem returned_of_entry (hI : Kept c.world o gs)
    (hT : System.Tracks protocol Track.idle (fun op _ m => m.made = some op) (fun _ => Told) c gs)
    (hx : x ∈ o.log) : ∃ op r, c.returned x.pid op r ∧ op.Changes c.world.servers x := by
  have hmem : x ∈ o.entriesOf x.pid := List.mem_filter.mpr ⟨hx, by simp⟩
  cases hmade : (gs x.pid).made with
  | none =>
      rw [hI.quiet hmade] at hmem
      exact absurd hmem List.not_mem_nil
  | some op =>
      obtain ⟨y, hy, hc⟩ := hI.made hmade
      obtain ⟨r, hr⟩ := returned_of_made hT hmade
      rw [hy, List.mem_singleton] at hmem
      exact ⟨op, r, hr, hmem ▸ hc⟩

/-- Creations minus revocations, counting the calls that have returned only. -/
theorem balance_of_kept (hI : Kept c.world o gs)
    (hT : System.Tracks protocol Track.idle (fun op _ m => m.made = some op) (fun _ => Told) c gs)
    (k : UserId × ServerId) : o.creations c k =
      o.revocations c k + if (c.world.access.get k).isSome then 1 else 0 := by
  have hcount : ∀ t : Entry → Bool,
      o.log.countP (fun x => (c.result x.pid).isSome && t x) = o.log.countP t := by
    intro t
    refine List.countP_congr fun x hx => ?_
    obtain ⟨op, r, hr, -⟩ := returned_of_entry hI hT hx
    rw [result_of_returned hr, Bool.true_and]
  unfold Diary.creations Diary.revocations
  rw [hcount, hcount]
  exact hI.balance k

/-- A creation of a pair is a change at that pair, where there was no row. -/
theorem pair_of_creates {k : UserId × ServerId} {r r' : Option ServerAccess}
    (hcreates : x.creates (u, id) = true) (hmoves : x.Moves k r r') : k = (u, id) ∧ r = none := by
  rw [Entry.creates, Bool.and_eq_true, Option.isNone_iff_eq_none] at hcreates
  obtain ⟨hnone, hsome⟩ := hcreates
  have hk : (u, id) = k := by
    by_contra hk
    rw [hmoves.2, if_neg hk, hnone] at hsome
    cases hsome
  refine ⟨hk.symm, ?_⟩
  rw [← hmoves.1, ← hk, hnone]

/-- On a REQUEST server only the user's own request creates a row. -/
theorem request_of_creates (hI : Kept c.world o gs)
    (hT : System.Tracks protocol Track.idle (fun op _ m => m.made = some op) (fun _ => Told) c gs)
    (hx : x ∈ o.log) (hcreates : x.creates (u, id) = true)
    (hs : c.world.servers.get id = some s) (htype : s.accessType = .requestAccess) :
    ∃ principal reply, c.returned x.pid (.request id principal) reply ∧ principal.id = u := by
  obtain ⟨op, r, hr, hc⟩ := returned_of_entry hI hT hx
  cases op with
  | request serverId principal =>
      obtain ⟨row, -, hmoves⟩ := hc
      have hk := (pair_of_creates hcreates hmoves).1
      rw [Prod.mk.injEq] at hk
      rw [hk.2] at hr
      exact ⟨principal, r, hr, hk.1⟩
  | approve serverId targetUserId =>
      rcases hc with ⟨row, row', -, -, hmoves⟩ | ⟨row, s', -, hmoves, hs', htype'⟩
      · cases (pair_of_creates hcreates hmoves).2
      · -- an approval creates rows of PRIVATE servers only
        have hk := (pair_of_creates hcreates hmoves).1
        rw [Prod.mk.injEq] at hk
        rw [hk.2, hs, Option.some.injEq] at hs'
        rw [← hs', htype] at htype'
        cases htype'
  | revoke serverId targetUserId =>
      obtain ⟨row, hmoves⟩ := hc
      cases (pair_of_creates hcreates hmoves).2

/-- A row of a REQUEST server was asked for: it is there, so it was created. -/
theorem request_of_row (hI : Kept c.world o gs)
    (hT : System.Tracks protocol Track.idle (fun op _ m => m.made = some op) (fun _ => Told) c gs)
    {r : ServerAccess} (hr : r ∈ c.world.access.rows)
    (hs : c.world.servers.get r.serverId = some s) (htype : s.accessType = .requestAccess) :
    ∃ p principal reply, c.returned p (.request r.serverId principal) reply ∧
      principal.id = r.userId := by
  have hpresent : (c.world.access.get (r.userId, r.serverId)).isSome = true := by
    rw [show (r.userId, r.serverId) = r.pair from rfl, Table.mem_rows.mp hr]
    rfl
  have hpos : 0 < o.creations c (r.userId, r.serverId) := by
    rw [balance_of_kept hI hT, if_pos hpresent]
    omega
  obtain ⟨x, hx, hcreates⟩ := List.countP_pos_iff.mp hpos
  rw [Bool.and_eq_true] at hcreates
  obtain ⟨principal, reply, hret, hid⟩ := request_of_creates hI hT hx hcreates.2 hs htype
  exact ⟨x.pid, principal, reply, hret, hid⟩

end Conclusions

/-- **The access-request protocol**: every configuration of every interleaving
of requests, approvals and revocations, from an empty table. -/
theorem access_protocol (w₀ : World) (hempty : w₀.access.rows = []) (c : Conf) (o : Diary)
    (h : system.Reach everything (Config.init w₀) Diary.blank c o) : Protocol c o := by
  obtain ⟨gs, hI, hT⟩ := protocol_kept hempty h
  refine ⟨?_, ?_, ?_, balance_of_kept hI hT, request_of_creates hI hT, ?_, ?_⟩
  · intro r r' hr hr' hu hs
    exact List.inj_on_of_nodup_map c.world.access.nodup hr hr' (by simp [ServerAccess.pair, hu, hs])
  · intro p op r hp
    exact hI.made (hT.returned hp)
  · intro p op e hp
    exact hI.quiet (hT.failed hp).1
  · intro r s hr _ hs htype
    exact request_of_row hI hT hr hs htype
  · intro p op e hp
    obtain ⟨-, h₁, h₂, h₃⟩ := hT.failed hp
    exact ⟨fun he => hI.saw (h₁ he), fun he => hI.saw (h₂ he), fun he => hI.saw (h₃ he)⟩

/-- Two requests of one user race, then the request is approved. -/
def sampleRace : List (Event Env Op) :=
  [.invoke 0 (.request 1 ⟨2, .user⟩), .invoke 1 (.request 1 ⟨2, .user⟩), .step 0 {}, .step 1 {},
   .step 1 {}, .step 0 {}, .step 0 {}, .invoke 2 (.approve 1 2), .step 2 {}, .step 2 {}, .step 2 {}]

/-- The second insertion wins, the first call is told so, and the approval
finds the row. -/
theorem sampleRace_protocol :
    ∃ c o, system.Reach everything (Config.init sampleWorld) Diary.blank c o ∧
      c.failed 0 (.request 1 ⟨2, .user⟩) (.conflict "Access request already pending") ∧
      (c.world.access.get (2, 1)).map ServerAccess.status = some .approved ∧ Protocol c o := by
  obtain ⟨c, o, h, ht⟩ := System.Reach.of_replay (S := system) (V := everything) sampleWorld
    Diary.blank sampleRace
    (fun c _ => c.failure 0 == some (.request 1 ⟨2, .user⟩,
        .conflict "Access request already pending")
      && (c.world.access.get (2, 1)).map ServerAccess.status == some .approved)
    (by decide +kernel)
  rw [Bool.and_eq_true, beq_iff_eq, beq_iff_eq] at ht
  exact ⟨c, o, h, Config.failed_of_failure ht.1, ht.2, access_protocol _ rfl c o h⟩

end MinePanel.Access
