/-
  MinePanel.Servers.Discovery
  ───────────────────────────
  **THE TWO LISTS AND THE REQUEST AGREE.**

  Three predicates of the code say what a caller may see, what they may ask
  for, and what they get when they ask: the visibility predicate, the WHERE of
  `listRequestableServers` and the branches of `requestAccess`.  They were
  written apart; here they are compared on every database.

    * `trichotomy` — seen, requestable, or PRIVATE without approval;
    * `request_undisturbed` — what a request comes to when nobody interferes;
    * `pages_concat` — the pages of a list, put together, are the list;
    * `discovery` — the three together.
-/
import MinePanel.Servers.Directory

namespace MinePanel.Servers.Directory

open MinePanel.Db MinePanel.Docker MinePanel.Lib

/-! ## §1. Paging. -/

/-- The pages of `k` entries at the offsets `0, k, 2k, …` are the list. -/
theorem flatMap_pages {α : Type} (l : List α) (k n : Nat) :
    (List.range n).flatMap (fun i => (l.drop (i * k)).take k) = l.take (n * k) := by
  induction n with
  | zero => simp
  | succ n ih =>
      rw [List.range_succ, List.flatMap_append, ih]
      simp only [List.flatMap_cons, List.flatMap_nil, List.append_nil]
      rw [Nat.succ_mul, List.take_add]

/-- `(created_at, id)`, the order of both lists. -/
def before (s t : Server) : Bool :=
  s.createdAt < t.createdAt || (s.createdAt == t.createdAt && s.id ≤ t.id)

/-- The rows of a list, in its order. -/
def ordered (rows : List Server) : List Server := rows.mergeSort before

theorem before_trans (r s t : Server) (h : before r s = true) (h' : before s t = true) :
    before r t = true := by
  simp only [before, Bool.or_eq_true, Bool.and_eq_true, decide_eq_true_eq, beq_iff_eq] at h h' ⊢
  rcases h with h | ⟨h, hid⟩
  · rcases h' with h' | ⟨h', -⟩
    · exact Or.inl (Nat.lt_trans h h')
    · exact Or.inl (h' ▸ h)
  · rcases h' with h' | ⟨h', hid'⟩
    · exact Or.inl (h ▸ h')
    · exact Or.inr ⟨h.trans h', Nat.le_trans hid hid'⟩

theorem before_total (s t : Server) : (before s t || before t s) = true := by
  simp only [before, Bool.or_eq_true, Bool.and_eq_true, decide_eq_true_eq, beq_iff_eq]
  rcases Nat.lt_trichotomy s.createdAt t.createdAt with h | h | h
  · exact Or.inl (Or.inl h)
  · rcases Nat.le_total s.id t.id with hid | hid
    · exact Or.inl (Or.inr ⟨h, hid⟩)
    · exact Or.inr (Or.inr ⟨h.symm, hid⟩)
  · exact Or.inr (Or.inl h)

/-- The members of a list, each once and in order. -/
structure Lists (d : Database) (member : Server → Bool) (rows : List Server) : Prop where
  mem : ∀ s, s ∈ rows ↔ d.servers.get s.id = some s ∧ member s = true
  nodup : (rows.map Server.id).Nodup
  sorted : rows.Pairwise fun s t => before s t = true

theorem lists_ordered (d : Database) (member : Server → Bool) :
    Lists d member (ordered (d.servers.rows.filter member)) where
  mem := by
    intro s
    simp only [ordered, List.mem_mergeSort, List.mem_filter]
    rw [Table.mem_rows]
  nodup := by
    have hperm : ((ordered (d.servers.rows.filter member)).map Server.id).Perm
        ((d.servers.rows.filter member).map Server.id) := (List.mergeSort_perm _ _).map _
    rw [hperm.nodup_iff]
    exact d.servers.nodup.sublist (List.filter_sublist.map _)
  sorted := List.pairwise_mergeSort before_trans before_total _

/-- Enough pages of a list, put together. -/
theorem pages_concat (rows : List Server) (limit n : Nat) (h : rows.length ≤ n * limit) :
    (List.range n).flatMap (fun i => page rows limit (i * limit)) = ordered rows := by
  show (List.range n).flatMap (fun i => ((ordered rows).drop (i * limit)).take limit) = _
  rw [flatMap_pages]
  refine List.take_of_length_le ?_
  unfold ordered
  rw [List.length_mergeSort]
  exact h

/-! ## §2. Undisturbed calls. -/

/-- Nothing fails. -/
def Calm (es : List Env) : Prop := ∀ e ∈ es, e.fails = false ∧ e.access.fails = false

section Undisturbed

variable {settings : Settings} {h : Host} {principal : ServerPrincipal} {d : Database}

/-- Two SELECTs and their answers. -/
theorem answerList_calm {α β γ : Type} (f : γ → Response) (q : Select α) (q' : Select β)
    (g : α → β → γ) {es : List Env} (hlen : 2 ≤ es.length) (hes : Calm es) :
    answerList f (select q >>= fun a => select q' >>= fun b => pure (g a b)) es d =
      some ⟨.ok (f (g (q.run d) (q'.run d))), d.servers, d.access.rows, [.read, .read]⟩ := by
  match es with
  | [] => simp at hlen
  | [_] => simp at hlen
  | e :: e' :: es =>
      have he : e.fails = false := (hes e (by simp)).1
      have he' : e'.fails = false := (hes e' (by simp)).1
      simp [answerList, select, Prog.perform, System.alone, execSelect, he, he', Except.map]

/-- What an access call that runs alone comes to. -/
def outcome {α : Type} (p : Access.Call α) (es : List Access.Env) (w : Access.World) :
    Option (Except Exn α) :=
  (System.alone (fun a e w => Access.exec a e w) accessKind p es w).map System.Outcome.result

/-- One statement of it that does not fail. -/
theorem outcome_query {α β : Type} {q : Access.Stmt β} {k : β → Access.Call α} {e : Access.Env}
    {es : List Access.Env} {w : Access.World} {b : β} (he : e.fails = false)
    (hb : (Access.run w e q).1 = .ok b) :
    outcome ((Access.query q).bind k) (e :: es) w =
      outcome (k b) es { w with access := (Access.run w e q).2 } := by
  simp only [outcome, Access.query, Prog.perform, Prog.bind_eq, Prog.bind_act, Prog.bind_ret,
    System.alone, Access.exec, he, Bool.false_eq_true, if_false, Option.bind_some, hb,
    Option.map_map]
  rfl

/-- `loadRequestableServer` finds a server. -/
theorem outcome_loadServer {α : Type} {id : ServerId} {k : Server → Access.Call α}
    {e : Access.Env} {es : List Access.Env} {w : Access.World} {s : Server}
    (he : e.fails = false) (hs : (w.servers.get id).filter (·.status ≠ .creating) = some s) :
    outcome ((Access.loadServer id).bind k) (e :: es) w = outcome (k s) es w := by
  have hrun : (Access.run w e (.selectServer id)).1 = .ok (some s) := by
    rw [← hs]
    rfl
  unfold Access.loadServer
  rw [Prog.bind_eq, Prog.bind_assoc, outcome_query he hrun]
  rfl

/-- `loadRequestableServer` finds none. -/
theorem outcome_loadServer_none {α : Type} {id : ServerId} {k : Server → Access.Call α}
    {e : Access.Env} {es : List Access.Env} {w : Access.World}
    (he : e.fails = false) (hs : (w.servers.get id).filter (·.status ≠ .creating) = none) :
    outcome ((Access.loadServer id).bind k) (e :: es) w =
      some (.error (.notFound "Server not found")) := by
  have hrun : (Access.run w e (.selectServer id)).1 = .ok none := by
    rw [← hs]
    rfl
  unfold Access.loadServer
  rw [Prog.bind_eq, Prog.bind_assoc, outcome_query he hrun]
  rfl

theorem answer_requestAccess {id : ServerId} (es : List Env) :
    (answer settings h principal es d (.requestAccess id)).map Answer.result =
      (outcome (Access.requestAccess id principal) (es.map Env.access) (accessWorld h d)).map
        fun r => r.map Response.mine := by
  simp only [answer, answerAccess, outcome, Option.map_map]
  rfl

/-- The row of the pair that is in the way of an INSERT. -/
theorem insert_conflict {w : Access.World} {e : Access.Env} {serverId : ServerId}
    {userId : UserId} {status : ServerAccessStatus} {a : ServerAccess}
    (hs : (w.servers.get serverId).isSome) (hu : (w.users.get userId).isSome)
    (ha : w.access.get (userId, serverId) = some a) :
    Access.run w e (.insertAccess serverId userId status) = (.ok none, w.access) := by
  have hnone : w.access.insert (Access.newAccess e.uuid serverId userId status w.clock) = none := by
    by_contra hne
    obtain ⟨t, ht⟩ := Option.ne_none_iff_exists'.mp hne
    have hfree := (Table.insert_rows ht).2
    have hpair : ServerAccess.pair (Access.newAccess e.uuid serverId userId status w.clock) =
        (userId, serverId) := rfl
    rw [hpair, ha] at hfree
    cases hfree
  simp [Access.run, hnone, Option.isNone_iff_eq_none, Option.isSome_iff_ne_none.mp hs,
    Option.isSome_iff_ne_none.mp hu]

/-- The INSERT of a pair that has no row. -/
theorem insert_fresh {w : Access.World} {e : Access.Env} {serverId : ServerId}
    {userId : UserId} {status : ServerAccessStatus}
    (hs : (w.servers.get serverId).isSome) (hu : (w.users.get userId).isSome)
    (ha : w.access.get (userId, serverId) = none) :
    (Access.run w e (.insertAccess serverId userId status)).1 =
      .ok (some (Access.newAccess e.uuid serverId userId status w.clock)) := by
  have hpair : ServerAccess.pair (Access.newAccess e.uuid serverId userId status w.clock) =
      (userId, serverId) := rfl
  obtain ⟨t, ht⟩ := Table.insert_isSome (t := w.access)
    (r := Access.newAccess e.uuid serverId userId status w.clock) (by rw [hpair]; exact ha)
  simp [Access.run, ht, Option.isNone_iff_eq_none, Option.isSome_iff_ne_none.mp hs,
    Option.isSome_iff_ne_none.mp hu]

theorem hasAccess_iff {userId : UserId} {serverId : ServerId} {status : ServerAccessStatus} :
    d.hasAccess userId serverId status = true ↔
      ∃ a, d.access.get (userId, serverId) = some a ∧ a.status = status := by
  simp only [Database.hasAccess, List.any_eq_true, Bool.and_eq_true, beq_iff_eq]
  constructor
  · rintro ⟨a, ha, ⟨hu, hs⟩, hst⟩
    refine ⟨a, ?_, hst⟩
    rw [← hu, ← hs]
    exact Table.mem_rows.mp ha
  · rintro ⟨a, ha, hst⟩
    obtain ⟨hmem, hkey⟩ := Table.get_eq_some.mp ha
    have hpair : (a.userId, a.serverId) = (userId, serverId) := hkey
    rw [Prod.mk.injEq] at hpair
    exact ⟨a, hmem, hpair, hst⟩

/-- `ConflictException('Access request already pending')`. -/
def alreadyPending : Exn := .conflict "Access request already pending"

section Request

variable {id : ServerId} {e₁ e₂ e₃ : Access.Env} {es : List Access.Env} {s : Server}

theorem request_absent (hrole : principal.role ≠ .admin) (h₁ : e₁.fails = false)
    (hs : (d.servers.get id).filter (·.status ≠ .creating) = none) :
    outcome (Access.requestAccess id principal) (e₁ :: es) (accessWorld h d) =
      some (.error (.notFound "Server not found")) := by
  unfold Access.requestAccess
  simp only [if_neg hrole]
  exact outcome_loadServer_none h₁ hs

theorem request_open (hrole : principal.role ≠ .admin) (h₁ : e₁.fails = false)
    (hs : (d.servers.get id).filter (·.status ≠ .creating) = some s)
    (ht : s.accessType = .openAccess) :
    outcome (Access.requestAccess id principal) (e₁ :: es) (accessWorld h d) =
      some (.error (.conflict "Server access is already open")) := by
  unfold Access.requestAccess
  simp only [if_neg hrole]
  refine (outcome_loadServer h₁ hs).trans ?_
  simp only [ht]
  rfl

theorem request_private (hrole : principal.role ≠ .admin) (h₁ : e₁.fails = false)
    (hs : (d.servers.get id).filter (·.status ≠ .creating) = some s)
    (ht : s.accessType = .privateAccess) :
    outcome (Access.requestAccess id principal) (e₁ :: es) (accessWorld h d) =
      some (.error (.notFound "Server not found")) := by
  unfold Access.requestAccess
  simp only [if_neg hrole]
  refine (outcome_loadServer h₁ hs).trans ?_
  simp only [ht]
  rfl

variable (es) in
/-- A REQUEST server: the first attempt decides. -/
theorem request_attempt (hrole : principal.role ≠ .admin) (h₁ : e₁.fails = false)
    (hs : (d.servers.get id).filter (·.status ≠ .creating) = some s)
    (ht : s.accessType = .requestAccess) :
    ∃ vanished, outcome (Access.requestAccess id principal) (e₁ :: es) (accessWorld h d) =
      outcome ((Access.upsertPendingAttempt id principal.id vanished).bind fun row =>
        .ret (Access.toMyAccessRequest row)) es (accessWorld h d) := by
  obtain ⟨vanished, hv⟩ : ∃ v, Access.upsertPendingWithRetry id principal.id
      Access.maxRaceRetries = Access.upsertPendingAttempt id principal.id v := ⟨_, rfl⟩
  unfold Access.requestAccess
  simp only [if_neg hrole]
  refine ⟨vanished, (outcome_loadServer h₁ hs).trans ?_⟩
  simp only [ht, hv]
  rfl

variable (es) in
theorem request_fresh (hrole : principal.role ≠ .admin)
    (hu : (d.users.get principal.id).isSome) (h₁ : e₁.fails = false) (h₂ : e₂.fails = false)
    (hs : (d.servers.get id).filter (·.status ≠ .creating) = some s)
    (ht : s.accessType = .requestAccess) (ha : d.access.get (principal.id, id) = none) :
    ∃ m, outcome (Access.requestAccess id principal) (e₁ :: e₂ :: es) (accessWorld h d) =
      some (.ok m) := by
  obtain ⟨vanished, hr⟩ := request_attempt (h := h) (e₂ :: es) hrole h₁ hs ht
  have hid : (d.servers.get id).isSome := by
    rw [(Option.filter_eq_some_iff.mp hs).1]
    rfl
  rw [hr]
  unfold Access.upsertPendingAttempt
  rw [Prog.bind_eq, Prog.bind_assoc, outcome_query h₂ (insert_fresh hid hu ha)]
  exact ⟨_, rfl⟩

theorem request_conflict (hrole : principal.role ≠ .admin)
    (hu : (d.users.get principal.id).isSome) (h₁ : e₁.fails = false) (h₂ : e₂.fails = false)
    (h₃ : e₃.fails = false)
    (hs : (d.servers.get id).filter (·.status ≠ .creating) = some s)
    (ht : s.accessType = .requestAccess) {a : ServerAccess}
    (ha : d.access.get (principal.id, id) = some a) :
    outcome (Access.requestAccess id principal) (e₁ :: e₂ :: e₃ :: es) (accessWorld h d) =
      some (.error (if a.status = .pending then alreadyPending
        else .conflict "Server access already approved")) := by
  obtain ⟨vanished, hr⟩ := request_attempt (h := h) (e₂ :: e₃ :: es) hrole h₁ hs ht
  have hid : (d.servers.get id).isSome := by
    rw [(Option.filter_eq_some_iff.mp hs).1]
    rfl
  have hinsert : Access.run (accessWorld h d) e₂ (.insertAccess id principal.id .pending) =
      (.ok none, d.access) := insert_conflict hid hu ha
  have hselect : (Access.run (accessWorld h d) e₃ (.selectAccess id principal.id)).1 =
      .ok (some a) := by
    show Except.ok (d.access.get (principal.id, id)) = _
    rw [ha]
  rw [hr]
  unfold Access.upsertPendingAttempt
  rw [Prog.bind_eq, Prog.bind_assoc, outcome_query h₂ (congrArg Prod.fst hinsert), hinsert]
  show outcome (((Access.query (.selectAccess id principal.id)).bind _).bind _) (e₃ :: es)
    (accessWorld h d) = _
  rw [Prog.bind_assoc, outcome_query h₃ hselect]
  by_cases hp : a.status = .pending
  · simp only [hp, if_true]
    rfl
  · simp only [hp, if_false]
    rfl

end Request

end Undisturbed

/-! ## §3. The three predicates agree. -/

section Agreement

variable {principal : ServerPrincipal} {d : Database} {s : Server}

/-- PRIVATE, and the caller has no approved access. -/
def Database.withheld (d : Database) (principal : ServerPrincipal) (s : Server) : Prop :=
  s.accessType = .privateAccess ∧ d.hasAccess principal.id s.id .approved = false

/-- **Seen, requestable, or withheld**, and never two of them. -/
theorem trichotomy (hrole : principal.role ≠ .admin) (hs : s.status ≠ .creating) :
    (d.visible principal s = true ∧ d.requestable principal s = false ∧ ¬ d.withheld principal s) ∨
    (d.visible principal s = false ∧ d.requestable principal s = true ∧ ¬ d.withheld principal s) ∨
    (d.visible principal s = false ∧ d.requestable principal s = false ∧
      d.withheld principal s) := by
  unfold Database.visible Database.requestable Database.withheld
  cases ht : s.accessType <;> cases ha : d.hasAccess principal.id s.id .approved <;>
    simp [hs, hrole]

theorem requestable_iff : d.requestable principal s = true ↔
    s.status ≠ .creating ∧ s.accessType = .requestAccess ∧
      d.hasAccess principal.id s.id .approved = false := by
  unfold Database.requestable
  simp only [Bool.and_eq_true, beq_iff_eq, decide_eq_true_eq, Bool.not_eq_true']
  exact ⟨fun h => ⟨h.1.2, h.1.1, h.2⟩, fun h => ⟨⟨h.2.1, h.1⟩, h.2.2⟩⟩

/-- What a request comes to, with the row it is about. -/
theorem request_undisturbed (settings : Settings) (h : Host) (hrole : principal.role ≠ .admin)
    (hu : (d.users.get principal.id).isSome) (id : ServerId) {es : List Env}
    (hlen : 3 ≤ es.length) (hes : Calm es) :
    ∃ r, (answer settings h principal es d (.requestAccess id)).map Answer.result = some r ∧
      ((∃ s, d.servers.get id = some s ∧ d.requestable principal s = true) ↔
        (∃ m, r = .ok (.mine m)) ∨ r = .error alreadyPending) ∧
      (r = .error alreadyPending ↔
        (∃ s, d.servers.get id = some s ∧ d.requestable principal s = true) ∧
          d.hasAccess principal.id id .pending = true) := by
  obtain ⟨e₁, e₂, e₃, es, rfl⟩ : ∃ e₁ e₂ e₃ es', es = e₁ :: e₂ :: e₃ :: es' := by
    match es, hlen with
    | e₁ :: e₂ :: e₃ :: es', _ => exact ⟨e₁, e₂, e₃, es', rfl⟩
  have h₁ : e₁.access.fails = false := (hes e₁ (by simp)).2
  have h₂ : e₂.access.fails = false := (hes e₂ (by simp)).2
  have h₃ : e₃.access.fails = false := (hes e₃ (by simp)).2
  rw [answer_requestAccess]
  simp only [List.map_cons]
  -- nothing found, or the server with its type
  cases hs : (d.servers.get id).filter (·.status ≠ .creating) with
  | none =>
      have hno : ¬ ∃ s, d.servers.get id = some s ∧ d.requestable principal s = true := by
        rintro ⟨s, hget, hreq⟩
        have := (requestable_iff.mp hreq).1
        simp [hget, this] at hs
      rw [request_absent hrole h₁ hs]
      refine ⟨_, rfl, ?_, ?_⟩
      · simp [hno, Except.map, alreadyPending]
      · simp [hno, Except.map, alreadyPending]
  | some s =>
      obtain ⟨hget, hcreated⟩ := Option.filter_eq_some_iff.mp hs
      have hid : s.id = id := Table.get_key hget
      have hcreated : s.status ≠ .creating := by simpa using hcreated
      have hfound : (∃ t, d.servers.get id = some t ∧ d.requestable principal t = true) ↔
          s.accessType = .requestAccess ∧ d.hasAccess principal.id id .approved = false := by
        rw [hget]
        simp [requestable_iff, hcreated, hid]
      simp only [hfound]
      cases ht : s.accessType with
      | openAccess =>
          rw [request_open hrole h₁ hs ht]
          refine ⟨_, rfl, ?_, ?_⟩ <;> simp [Except.map, alreadyPending]
      | privateAccess =>
          rw [request_private hrole h₁ hs ht]
          refine ⟨_, rfl, ?_, ?_⟩ <;> simp [Except.map, alreadyPending]
      | requestAccess =>
          cases ha : d.access.get (principal.id, id) with
          | none =>
              obtain ⟨m, hm⟩ := request_fresh (h := h) (e₃.access :: es.map Env.access)
                hrole hu h₁ h₂ hs ht ha
              have hnone : ∀ status, d.hasAccess principal.id id status = false := by
                intro status
                rw [Bool.eq_false_iff, ne_eq, hasAccess_iff, ha]
                simp
              rw [hm]
              refine ⟨_, rfl, ?_, ?_⟩ <;> simp [Except.map, hnone]
          | some a =>
              have hrow : ∀ status,
                  d.hasAccess principal.id id status = decide (a.status = status) := by
                intro status
                rw [Bool.eq_iff_iff, hasAccess_iff, ha]
                simp
              rw [request_conflict hrole hu h₁ h₂ h₃ hs ht ha]
              refine ⟨_, rfl, ?_, ?_⟩ <;>
                cases hst : a.status <;> simp [Except.map, hrow, hst, alreadyPending]

end Agreement

/-! ## §4. The two lists, page by page. -/

/-- The servers of a page, where the call returned one. -/
def pageOf (a : Option Answer) : List PublicServer × Nat :=
  match a.map Answer.result with
  | some (.ok (.servers data total)) => (data, total)
  | _ => ([], 0)

/-- The entries of a page of requestable servers. -/
def requestablePageOf (a : Option Answer) : List RequestableServer × Nat :=
  match a.map Answer.result with
  | some (.ok (.requestable data total)) => (data, total)
  | _ => ([], 0)

section Pages

variable {settings : Settings} {h : Host} {principal : ServerPrincipal} {d : Database}
  {es : List Env}

theorem pageOf_listServers (hlen : 2 ≤ es.length) (hes : Calm es) (limit offset : Nat) :
    pageOf (answer settings h principal es d (.listServers limit offset)) =
      ((page (d.servers.rows.filter (d.visible principal)) limit offset).map toPublicServer,
        (d.servers.rows.filter (d.visible principal)).length) := by
  have hans := answerList_calm (d := d) (fun r => Response.servers r.1 r.2)
    (.visibleServers principal limit offset) (.countVisible principal)
    (fun rows total => (rows.map toPublicServer, total)) hlen hes
  show pageOf (answerList (fun r => .servers r.1 r.2) (listServers limit offset principal) es d) = _
  unfold listServers
  rw [hans]
  simp [pageOf, Select.run, List.countP_eq_length_filter]

theorem requestablePageOf_listRequestableServers (hlen : 2 ≤ es.length) (hes : Calm es)
    (limit offset : Nat) :
    requestablePageOf (answer settings h principal es d (.listRequestableServers limit offset)) =
      ((page (d.servers.rows.filter (d.requestable principal)) limit offset).map fun s =>
          ⟨s.id, s.name, d.hasAccess principal.id s.id .pending⟩,
        (d.servers.rows.filter (d.requestable principal)).length) := by
  have hans := answerList_calm (d := d) (fun r => Response.requestable r.1 r.2)
    (.requestableServers principal limit offset) (.countRequestable principal)
    (fun rows total => (rows.map fun r => (⟨r.1.id, r.1.name, r.2⟩ : RequestableServer), total))
    hlen hes
  show requestablePageOf (answerList (fun r => .requestable r.1 r.2)
    (listRequestableServers limit offset principal) es d) = _
  unfold listRequestableServers
  rw [hans]
  simp [requestablePageOf, Select.run, List.countP_eq_length_filter, Function.comp_def]

end Pages

/-- **DISCOVERY.**  For every database and every caller who is a user and no
administrator: a server that is not CREATING is seen, requestable or withheld,
exactly one of the three; it is requestable exactly when an undisturbed request
for it succeeds or is answered `already pending`, the latter exactly where the
list says PENDING; and the pages of each list, put together, are its members,
each once and in order, with the total their number. -/
theorem discovery (settings : Settings) (h : Host) (principal : ServerPrincipal)
    (hrole : principal.role ≠ .admin) (d : Database)
    (hu : (d.users.get principal.id).isSome) :
    (∀ s, d.servers.get s.id = some s → s.status ≠ .creating →
      (d.visible principal s = true ∧ d.requestable principal s = false ∧
        ¬ d.withheld principal s) ∨
      (d.visible principal s = false ∧ d.requestable principal s = true ∧
        ¬ d.withheld principal s) ∨
      (d.visible principal s = false ∧ d.requestable principal s = false ∧
        d.withheld principal s)) ∧
    (∀ (id : ServerId) (es : List Env), 3 ≤ es.length → Calm es →
      ∃ r, (answer settings h principal es d (.requestAccess id)).map Answer.result = some r ∧
        ((∃ s, d.servers.get id = some s ∧ d.requestable principal s = true) ↔
          (∃ m, r = .ok (.mine m)) ∨ r = .error alreadyPending) ∧
        (r = .error alreadyPending ↔
          (∃ s, d.servers.get id = some s ∧ d.requestable principal s = true) ∧
            d.hasAccess principal.id id .pending = true)) ∧
    (∃ seen, Lists d (d.visible principal) seen ∧
      ∀ (limit : Nat) (es : List Env), 1 ≤ limit → 2 ≤ es.length → Calm es →
        (∀ offset, (pageOf (answer settings h principal es d
          (.listServers limit offset))).2 = seen.length) ∧
        ∀ n, seen.length ≤ n * limit →
          (List.range n).flatMap (fun i => (pageOf (answer settings h principal es d
            (.listServers limit (i * limit)))).1) = seen.map toPublicServer) ∧
    ∃ askable, Lists d (d.requestable principal) askable ∧
      ∀ (limit : Nat) (es : List Env), 1 ≤ limit → 2 ≤ es.length → Calm es →
        (∀ offset, (requestablePageOf (answer settings h principal es d
          (.listRequestableServers limit offset))).2 = askable.length) ∧
        ∀ n, askable.length ≤ n * limit →
          (List.range n).flatMap (fun i => (requestablePageOf (answer settings h principal es d
            (.listRequestableServers limit (i * limit)))).1) =
            askable.map fun s => ⟨s.id, s.name, d.hasAccess principal.id s.id .pending⟩ := by
  have hlength : ∀ rows : List Server, (ordered rows).length = rows.length := by
    intro rows
    exact List.length_mergeSort rows
  refine ⟨fun s _ hs => trichotomy hrole hs,
    fun id es hlen hes => request_undisturbed settings h hrole hu id hlen hes,
    ⟨_, lists_ordered d (d.visible principal), fun limit es _ hlen hes => ⟨?_, ?_⟩⟩,
    ⟨_, lists_ordered d (d.requestable principal), fun limit es _ hlen hes => ⟨?_, ?_⟩⟩⟩
  · intro offset
    rw [pageOf_listServers hlen hes, hlength]
  · intro n hn
    rw [hlength] at hn
    simp only [pageOf_listServers hlen hes]
    rw [← List.map_flatMap, pages_concat _ _ _ hn]
  · intro offset
    rw [requestablePageOf_listRequestableServers hlen hes, hlength]
  · intro n hn
    rw [hlength] at hn
    simp only [requestablePageOf_listRequestableServers hlen hes]
    rw [← List.map_flatMap, pages_concat _ _ _ hn]

/-- A REQUEST server the moderator has already asked for, beside a private one. -/
def sampleDirectory : Database where
  servers := ⟨[samplePrivate,
    { sampleServer .stopped none with id := 9, port := 25566, accessType := .requestAccess }],
    by decide⟩
  users := ⟨[{ Access.sampleUser with role := .mod }], List.nodup_singleton _⟩
  access := ⟨[⟨1, 2, 9, .pending, 0, none⟩], List.nodup_singleton _⟩

theorem sampleDirectory_pending :
    (answer sampleSettings ⟨none, Table.empty, 0⟩ samplePrincipal [{}, {}, {}] sampleDirectory
      (.requestAccess 9)).map Answer.result = some (.error alreadyPending) := by
  obtain ⟨-, hrequest, -, -⟩ := discovery sampleSettings ⟨none, Table.empty, 0⟩ samplePrincipal
    (by decide) sampleDirectory (by decide)
  obtain ⟨r, hr, -, hpending⟩ := hrequest 9 [{}, {}, {}] (by decide) (by simp [Calm])
  have hr' : r = .error alreadyPending := hpending.mpr ⟨⟨_, rfl, by decide⟩, by decide⟩
  rw [hr, hr']

end MinePanel.Servers.Directory
