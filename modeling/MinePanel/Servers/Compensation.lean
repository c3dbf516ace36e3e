/-
  MinePanel.Servers.Compensation
  ──────────────────────────────
  **WHAT A CREATION LEAVES BEHIND.**

  `createServer` has five side effects in two systems: the row, the container,
  the claim of the container, its start, and the final transition.  The
  statement is about one creation with any outcome of every Docker request,
  while no one else writes its row.

    * `Creation` — the world, and what the call has done so far;
    * `Faithful` — what is assumed of the daemon's answers;
    * `Compensated` — the three ways to end, and no container without its row;
    * `create_compensation` — every run ends in one of them.
-/
import MinePanel.Servers.Steps
import MinePanel.Lib.Interference

namespace MinePanel.Servers

open MinePanel.Db MinePanel.Docker MinePanel.Lib Prog

/-! ## §1. One creation. -/

/-- A managed container of the server `id`. -/
def World.manages (w : World) (id : ServerId) (cid : ContainerId) : Bool :=
  (w.daemon.get cid).any fun c => c.serverId == id

/-- The world with what a creation is judged by. -/
structure Creation where
  world : World
  /-- The row it has inserted. -/
  inserted : Option ServerId
  /-- The container that the daemon reported as created. -/
  created : Option ContainerId
  /-- The containers that ran right after it started them. -/
  started : List ContainerId
  /-- A managed lookup was unavailable. -/
  unavailable : Bool
  /-- It has changed the table or the daemon. -/
  wrote : Bool

namespace Creation

/-- Before the call. -/
def begin (w : World) : Creation := ⟨w, none, none, [], false, false⟩

/-- The call has performed `a` with the answer `b`, and the world is now `w`. -/
def record (h : Creation) {β : Type} (a : Act β) (b : β) (w : World) : Creation where
  world := w
  inserted := match a, b with
    | .insertServer _, .ok row => some row.id
    | _, _ => h.inserted
  created := match a, b with
    | .dockerCreate _, .ok cid => some cid
    | _, _ => h.created
  started := match a with
    | .dockerStart cid => if w.isRunning cid then cid :: h.started else h.started
    | _ => h.started
  unavailable := match a, b with
    | .dockerList _, .error _ => true
    | _, _ => h.unavailable
  wrote := h.wrote || w.servers.rows ≠ h.world.servers.rows ||
    w.daemon.rows ≠ h.world.daemon.rows

end Creation

/-- What is assumed of an answer.  A creation that succeeds has made the
container with its label; one that fails may have made it.  A start that is
accepted leaves the container running.  A lookup that does not fail lists
exactly the managed containers, with their ids.  After the INSERT the
statements succeed. -/
def Faithful (w : World) {β : Type} (a : Act β) (b : β) (w' : World) : Bool :=
  match a, b with
  | .dockerCreate server, .ok cid => w'.manages server.id cid
  | .dockerStart cid, .ok _ => w'.isRunning cid
  | .dockerStart cid, .error error => error.statusCode != some 304 || w'.isRunning cid
  | .dockerList id, .ok cs => cs.all (fun x => x.id.any fun cid => w.manages id cid) &&
      w.daemon.rows.all fun c => c.serverId != id || cs.any fun x => x.id == some c.id
  | .updateTransition _ _ _ _ _, .error _ => false
  | .updateContainerId _ _, .error _ => false
  | .updateCreateError _ _, .error _ => false
  | _, _ => true

/-- The others leave the row and the managed containers of the creation alone. -/
def Aside (h h' : Creation) : Prop :=
  ∃ w : World, (∀ id, h.inserted = some id → w.servers.get id = h.world.servers.get id ∧
    ∀ cid, w.manages id cid = h.world.manages id cid) ∧ h' = { h with world := w }

/-- One action of the creation `p`, executably. -/
def attempt (p : Pid) {β : Type} (a : Act β) (e : Env) (h : Creation) : Option (β × Creation) :=
  match exec p a e h.world with
  | some (b, w) => if Faithful h.world a b w then some (b, h.record a b w) else none
  | none => none

def Performed (p : Pid) (β : Type) (a : Act β) (h : Creation) (b : β) (h' : Creation) : Prop :=
  ∃ e, attempt p a e h = some (b, h')

/-! ## §2. The property. -/

/-- What is left of the server `id` after a failure: nothing, a row in ERROR
with the container, or a CREATING row where the lookup was unavailable. -/
inductive Leftover (h : Creation) (id : ServerId) : Prop where
  | nothing (row : h.world.servers.get id = none) (bare : ∀ cid, h.world.manages id cid = false)
  | error {s : Server} {cid : ContainerId} (row : h.world.servers.get id = some s)
      (status : s.status = .error) (container : s.containerId = some cid)
      (managed : h.world.manages id cid = true)
  | creating {s : Server} (row : h.world.servers.get id = some s) (status : s.status = .creating)
      (lookup : h.unavailable = true)

/-- How a creation has ended. -/
def Ended (h : Creation) : Except Exn PublicServer → Option ServerId → Prop
  | .ok _, some id => ∃ s cid, h.world.servers.get id = some s ∧ s.status = .running ∧
      s.containerId = some cid ∧ h.created = some cid ∧ cid ∈ h.started
  | .ok _, none => False
  | .error _, some id => Leftover h id
  | .error _, none => h.wrote = false

/-- **How it ends**, and no managed container is without its row. -/
structure Compensated (r : Except Exn PublicServer) (h : Creation) : Prop where
  ended : Ended h r h.inserted
  row : ∀ id cid, h.inserted = some id → h.world.manages id cid = true →
    (h.world.servers.get id).isSome = true

/-! ## §3. The steps of a creation. -/

theorem Performed.inv {p : Pid} {β : Type} {a : Act β} {h h' : Creation} {b : β}
    (hx : Performed p β a h b h') : ∃ e w, exec p a e h.world = some (b, w) ∧
      Faithful h.world a b w = true ∧ h' = h.record a b w := by
  obtain ⟨e, hx⟩ := hx
  unfold attempt at hx
  split at hx
  next b' w hexec =>
    split at hx
    next hf =>
      cases hx
      exact ⟨e, w, hexec, hf, rfl⟩
    next => cases hx
  next => cases hx

/-- **Frame**: silent steps change neither the table nor the daemon. -/
theorem exec_silent {p : Pid} {β : Type} {a : Act β} {e : Env} {w w' : World} {b : β}
    (h : exec p a e w = some (b, w')) (ha : a.silent = true) :
    w'.servers = w.servers ∧ w'.daemon = w.daemon := by
  cases a <;> simp only [Act.silent, Act.inert, Bool.false_eq_true] at ha
  case lifecycleLock =>
    simp only [exec] at h
    split at h
    next => cases h; exact ⟨rfl, rfl⟩
    next => split at h <;> cases h; exact ⟨rfl, rfl⟩
  case selectNotStopped =>
    simp only [exec] at h
    split at h <;> cases h
    exact ⟨rfl, rfl⟩
  case rollback =>
    simp only [exec, Option.some.injEq, Prod.mk.injEq] at h
    rw [← h.2, World.release_servers, World.release_daemon]
    exact ⟨rfl, rfl⟩
  all_goals
    simp only [exec, Option.some.injEq, Prod.mk.injEq] at h
    rw [← h.2]
    exact ⟨rfl, rfl⟩

/-- An UPDATE whose condition the row meets, and that succeeds. -/
theorem updateRow_hit {p : Pid} {id : ServerId} {hit : Server → Bool}
    {status : Server → ServerStatus} {cid : Server → Option ContainerId} {w w' : World}
    {b : Except String (Option Server)} {s : Server} (hs : w.servers.get id = some s)
    (hh : hit s = true) (hu : updateRow p id hit status cid w = (b, w'))
    (hb : ∀ x, b ≠ .error x) :
    (∃ r, b = .ok (some r)) ∧ w'.daemon = w.daemon ∧
      ∃ s', w'.servers.get id = some s' ∧ s'.status = status s ∧ s'.containerId = cid s := by
  refine ⟨?_, updateRow_daemon hu, ?_⟩
  · rcases updateRow_cases p id hit status cid w with ⟨hm, -⟩ | ⟨_, _, -, -, -, -, he⟩ |
      ⟨t, -, -, -, he⟩
    · rw [hm s hs] at hh
      cases hh
    · rw [he, Prod.mk.injEq] at hu
      exact absurd hu.1.symm (hb _)
    · rw [he, Prod.mk.injEq] at hu
      exact ⟨_, hu.1.symm⟩
  · rcases updateRow_cases p id hit status cid w with ⟨hm, -⟩ | ⟨_, _, -, -, -, -, he⟩ |
      ⟨t, ht, -, -, he⟩
    · rw [hm s hs] at hh
      cases hh
    · rw [he, Prod.mk.injEq] at hu
      exact absurd hu.1.symm (hb _)
    · rw [hs] at ht
      cases ht
      rw [he, Prod.mk.injEq] at hu
      refine ⟨{ s with status := status s, containerId := cid s, updatedAt := w.clock }, ?_, rfl,
        rfl⟩
      rw [← hu.2, World.release_servers, World.setRow_get, if_pos rfl, hs, Option.map_some]

/-- Before the INSERT: nothing is written. -/
def Early (h : Creation) : Prop := h.inserted = none ∧ h.wrote = false

theorem Early.aside {h h' : Creation} (hh : Early h) (hr : Aside h h') : Early h' := by
  obtain ⟨w, -, rfl⟩ := hr
  exact hh

theorem Early.silent {p : Pid} {β : Type} {a : Act β} {h h' : Creation} {b : β} (hh : Early h)
    (ha : a.silent = true) (hx : Performed p β a h b h') : Early h' := by
  obtain ⟨e, w, hexec, -, rfl⟩ := hx.inv
  obtain ⟨hs, hd⟩ := exec_silent hexec ha
  refine ⟨?_, ?_⟩
  · cases a <;> first | exact hh.1 | cases ha
  · show (h.wrote || _ || _) = false
    rw [hh.2, hs, hd]
    simp

/-- The row of the creation, after the INSERT. -/
def At (id : ServerId) (st : ServerStatus) (cid : Option ContainerId) (h : Creation) : Prop :=
  h.inserted = some id ∧
    ∃ s, h.world.servers.get id = some s ∧ s.status = st ∧ s.containerId = cid

theorem manages_of_daemon {w w' : World} (h : w'.daemon = w.daemon) (id : ServerId)
    (cid : ContainerId) : w'.manages id cid = w.manages id cid := by
  unfold World.manages
  rw [h]

section After

variable {p : Pid} {id : ServerId} {st st' : ServerStatus} {cid : Option ContainerId}
  {c : ContainerId} {h h' : Creation}

theorem At.aside (hh : At id st cid h) (hr : Aside h h') : At id st cid h' := by
  obtain ⟨w, hkeep, rfl⟩ := hr
  obtain ⟨hi, s, hs, hst⟩ := hh
  exact ⟨hi, s, (hkeep id hi).1.trans hs, hst⟩

theorem Aside.manages (hr : Aside h h') (hi : h.inserted = some id) (c : ContainerId) :
    h'.world.manages id c = h.world.manages id c := by
  obtain ⟨w, hkeep, rfl⟩ := hr
  exact (hkeep id hi).2 c

theorem Aside.history (hr : Aside h h') : h'.created = h.created ∧ h'.started = h.started ∧
    h'.unavailable = h.unavailable ∧ h'.inserted = h.inserted := by
  obtain ⟨w, -, rfl⟩ := hr
  exact ⟨rfl, rfl, rfl, rfl⟩

/-- A transition of the row from where it stands. -/
theorem performed_transition {b : Except String (Option Server)}
    (hx : Performed p _ (.updateTransition id st st' cid none) h b h') (hh : At id st cid h) :
    (∃ r, b = .ok (some r)) ∧ At id st' cid h' ∧
      (∀ c, h'.world.manages id c = h.world.manages id c) ∧ h'.created = h.created ∧
      h'.started = h.started := by
  obtain ⟨e, w, hexec, hf, rfl⟩ := hx.inv
  obtain ⟨hi, s, hs, hst, hcid⟩ := hh
  simp only [exec, Option.some.injEq] at hexec
  have hb : ∀ x, b ≠ .error x := by
    rintro x rfl
    cases hf
  obtain ⟨hok, hd, s', hs', hst', hcid'⟩ :=
    updateRow_hit hs (by simp [hst, hcid]) hexec hb
  exact ⟨hok, ⟨hi, s', hs', hst', hcid'.trans hcid⟩, manages_of_daemon hd id, rfl, rfl⟩

/-- The claim of the container. -/
theorem performed_claim {b : Except String (Option Server)}
    (hx : Performed p _ (.updateContainerId id c) h b h') (hh : At id .creating none h) :
    (∃ r, b = .ok (some r)) ∧ At id .creating (some c) h' ∧
      (∀ c, h'.world.manages id c = h.world.manages id c) ∧ h'.created = h.created := by
  obtain ⟨e, w, hexec, hf, rfl⟩ := hx.inv
  obtain ⟨hi, s, hs, hst, hcid⟩ := hh
  simp only [exec, Option.some.injEq] at hexec
  have hb : ∀ x, b ≠ .error x := by
    rintro x rfl
    cases hf
  obtain ⟨hok, hd, s', hs', hst', hcid'⟩ := updateRow_hit hs (by simp [hst, hcid]) hexec hb
  exact ⟨hok, ⟨hi, s', hs', hst'.trans hst, hcid'⟩, manages_of_daemon hd id, rfl⟩

/-- The compensation that finds the container. -/
theorem performed_createError {b : Except String Unit}
    (hx : Performed p _ (.updateCreateError id c) h b h') (hh : At id .creating none h) :
    b = .ok () ∧ At id .error (some c) h' ∧
      ∀ c, h'.world.manages id c = h.world.manages id c := by
  obtain ⟨e, w, hexec, hf, rfl⟩ := hx.inv
  obtain ⟨hi, s, hs, hst, hcid⟩ := hh
  simp only [exec, Option.some.injEq, Prod.mk.injEq] at hexec
  -- the answer of the UPDATE itself
  obtain ⟨⟨b', w'⟩, hu⟩ : ∃ r, updateRow p id (fun s => decide (s.status = .creating))
      (fun _ => .error) (fun _ => some c) h.world = r := ⟨_, rfl⟩
  rw [hu] at hexec
  obtain ⟨rfl, rfl⟩ := hexec
  have hb : ∀ x, b' ≠ .error x := by
    rintro x rfl
    cases hf
  obtain ⟨⟨r, rfl⟩, hd, s', hs', hst', hcid'⟩ := updateRow_hit hs (by simp [hst]) hu hb
  exact ⟨rfl, ⟨hi, s', hs', hst', hcid'⟩, manages_of_daemon hd id⟩

/-- The compensation that finds nothing. -/
theorem performed_delete {b : Unit} (hx : Performed p _ (.deleteInStatus id .creating) h b h')
    (hh : At id .creating none h) : h'.world.servers.get id = none ∧ h'.inserted = some id ∧
      ∀ c, h'.world.manages id c = h.world.manages id c := by
  obtain ⟨e, w, hexec, -, rfl⟩ := hx.inv
  obtain ⟨hi, s, hs, hst, -⟩ := hh
  refine ⟨?_, hi, ?_⟩
  · show w.servers.get id = none
    rw [exec_deleteInStatus_get hexec, hs, Option.filter_some]
    simp [hst, Table.get_key hs]
  · simp only [exec, Option.some.injEq, Prod.mk.injEq, true_and] at hexec
    subst hexec
    exact manages_of_daemon rfl id

/-- The managed lookup. -/
theorem performed_list {b : Except DockerError (List ContainerSummary)}
    (hx : Performed p _ (.dockerList id) h b h') (hh : At id st cid h) :
    At id st cid h' ∧ match b with
      | .error _ => h'.unavailable = true
      | .ok [] => ∀ c, h'.world.manages id c = false
      | .ok (x :: _) => ∃ c, x.id = some c ∧ h'.world.manages id c = true := by
  obtain ⟨e, w, hexec, hf, rfl⟩ := hx.inv
  simp only [exec, Option.some.injEq, Prod.mk.injEq] at hexec
  obtain ⟨-, rfl⟩ := hexec
  refine ⟨hh, ?_⟩
  rcases b with _ | _ | ⟨x, rest⟩
  · rfl
  · intro c
    show (h.world.daemon.get c).any _ = false
    cases hc : h.world.daemon.get c with
    | none => rfl
    | some k =>
        simp only [Faithful, List.all_nil, Bool.true_and, List.all_eq_true, List.any_nil,
          Bool.or_false, bne_iff_ne, ne_eq] at hf
        simpa using hf k (Table.get_eq_some.mp hc).1
  · simp only [Faithful, List.all_cons, Bool.and_eq_true] at hf
    obtain ⟨c, hc, hm⟩ := (Option.any_eq_true _ _).mp hf.1.1
    exact ⟨c, hc, hm⟩

/-- The creation of the container. -/
theorem performed_create {server : Server} {b : Except DockerError ContainerId}
    (hx : Performed p _ (.dockerCreate server) h b h') (hid : server.id = id)
    (hh : At id st cid h) : At id st cid h' ∧ ∀ c, b = .ok c →
      h'.created = some c ∧ h'.world.manages id c = true := by
  obtain ⟨e, w, hexec, hf, rfl⟩ := hx.inv
  obtain ⟨hi, s, hs, hst⟩ := hh
  refine ⟨⟨hi, s, ?_, hst⟩, ?_⟩
  · show w.servers.get id = some s
    rw [exec_servers_frame hexec rfl, hs]
  · rintro c rfl
    exact ⟨rfl, hid ▸ hf⟩

/-- Starting a container creates and removes none. -/
theorem manages_setRunning (w : World) (c : ContainerId) (running : Bool) (id : ServerId)
    (c' : ContainerId) : (w.setRunning c running).manages id c' = w.manages id c' := by
  unfold World.manages World.setRunning
  simp only [Table.get_modify]
  cases w.daemon.get c' with
  | none => rfl
  | some k =>
      simp only [Option.map_some, Option.any_some]
      split <;> rfl

/-- The start of the container. -/
theorem performed_start {b : Except DockerError Unit}
    (hx : Performed p _ (.dockerStart c) h b h') (hh : At id st cid h) :
    At id st cid h' ∧ (∀ c', h'.world.manages id c' = h.world.manages id c') ∧
      h'.created = h.created ∧ (Accepted 304 b → c ∈ h'.started) := by
  obtain ⟨e, w, hexec, hf, rfl⟩ := hx.inv
  obtain ⟨hi, s, hs, hst⟩ := hh
  refine ⟨⟨hi, s, ?_, hst⟩, fun c' => ?_, rfl, fun hacc => ?_⟩
  · show w.servers.get id = some s
    rw [exec_servers_frame hexec rfl, hs]
  · simp only [exec, Option.some.injEq, Prod.mk.injEq] at hexec
    obtain ⟨-, rfl⟩ := hexec
    show (if e.effect = true then h.world.setRunning c true else h.world).manages id c' = _
    split
    · exact manages_setRunning _ _ _ _ _
    · rfl
  · have hrun : w.isRunning c = true := by
      cases b with
      | ok _ => exact hf
      | error error =>
          have hcode : error.statusCode = some 304 := hacc
          simpa [Faithful, hcode] using hf
    show c ∈ if w.isRunning c = true then c :: h.started else h.started
    rw [if_pos hrun]
    exact List.mem_cons_self

/-- The INSERT. -/
theorem performed_insert {n : NewServer} {b : Except String Server}
    (hx : Performed p _ (.insertServer n) h b h') (hh : Early h) (hn : n.status = .creating) :
    match b with
    | .error _ => Early h'
    | .ok row => At row.id .creating none h' := by
  obtain ⟨e, w, hexec, -, rfl⟩ := hx.inv
  rcases exec_insertServer_get hexec with ⟨-, ⟨x, rfl⟩, rfl⟩ | ⟨servers, rfl, -, hi, rfl⟩
  · refine ⟨hh.1, ?_⟩
    show (h.wrote || _ || _) = false
    rw [hh.2]
    simp
  · refine ⟨rfl, n.row e.uuid h.world.clock, ?_, hn, rfl⟩
    show (World.release _ p).servers.get e.uuid = _
    rw [World.release_servers]
    show servers.get e.uuid = _
    rw [Table.get_insert hi]
    exact if_pos rfl

end After

/-! ## §4. The code of the creation. -/

section Code

variable {p : Pid} {h : Creation} {α : Type}

/-- A failure. -/
def Fails (e : Exn) (h : Creation) : Prop := Compensated (.error e) h

theorem Early.fails {e : Exn} (hh : Early h) : Fails e h := by
  refine ⟨?_, fun id cid hi => ?_⟩
  · show Ended h (.error e) h.inserted
    rw [hh.1]
    exact hh.2
  · rw [hh.1] at hi
    cases hi

theorem Leftover.fails {id : ServerId} {e : Exn} (hl : Leftover h id)
    (hi : h.inserted = some id) : Fails e h := by
  refine ⟨?_, fun id' cid hi' hm => ?_⟩
  · show Ended h (.error e) h.inserted
    rw [hi]
    exact hl
  · rw [hi] at hi'
    cases hi'
    cases hl with
    | nothing row bare =>
        rw [bare cid] at hm
        cases hm
    | error row => rw [row]; rfl
    | creating row => rw [row]; rfl

/-- Before the INSERT every failure leaves the two systems as they were. -/
theorem wp_early {q : Call α} {Q : α → Creation → Prop}
    (hq : q.Only (fun _ a => a.silent = true) fun _ => True) (hh : Early h)
    (hQ : ∀ a h, Early h → Q a h) : wp (surrounded Aside (Performed p)) Q Fails q h :=
  wp_surrounded_of_only (fun _ _ hh hr => hh.aside hr) (fun _ _ _ _ ha hh hx => hh.silent ha hx)
    hQ (fun _ _ _ hh => hh.fails) hq hh

theorem wp_early_seq {β : Type} {q : Call α} {k : α → Call β} {Q : β → Creation → Prop}
    (hq : q.Only (fun _ a => a.silent = true) fun _ => True) (hh : Early h)
    (hk : ∀ a h, Early h → wp (surrounded Aside (Performed p)) Q Fails (k a) h) :
    wp (surrounded Aside (Performed p)) Q Fails (q.bind k) h :=
  wp_seq (wp_early hq hh hk)

/-- **The compensation**, while the row is CREATING without a container. -/
theorem wp_compensate {id : ServerId} {E : Exn → Creation → Prop} (hh : At id .creating none h) :
    wp (surrounded Aside (Performed p)) (fun _ h => ∀ e, Fails e h) E
      (compensateCreateFailure id) h := by
  unfold compensateCreateFailure findManagedContainer
  refine ⟨trivial, fun b h₁ hb => ?_⟩
  obtain ⟨h₀, hr, hx⟩ := hb
  obtain ⟨hat, hlist⟩ := performed_list hx (hh.aside hr)
  rcases b with _ | _ | ⟨⟨x, state⟩, rest⟩
  · -- unavailable: the row stays
    intro e
    obtain ⟨hi, s, hs, hst, -⟩ := hat
    exact (Leftover.creating hs hst hlist).fails hi
  · -- absent: the row goes
    refine ⟨trivial, fun _ h₃ hb => ?_⟩
    obtain ⟨h₂, hr₂, hx₂⟩ := hb
    obtain ⟨hnone, hi, hm⟩ := performed_delete hx₂ (hat.aside hr₂)
    intro e
    refine (Leftover.nothing hnone fun c => ?_).fails hi
    rw [hm, hr₂.manages hat.1]
    exact hlist c
  · -- found: the row goes to ERROR with the container
    obtain ⟨c, hc, hmanaged⟩ := hlist
    cases hc
    refine ⟨trivial, fun b h₃ hb => ?_⟩
    obtain ⟨h₂, hr₂, hx₂⟩ := hb
    obtain ⟨rfl, ⟨hi, s, hs, hst, hcid⟩, hm⟩ := performed_createError hx₂ (hat.aside hr₂)
    intro e
    refine (Leftover.error hs hst hcid ?_).fails hi
    rw [hm, hr₂.manages hat.1]
    exact hmanaged

theorem check_silent {r : Except Exn α} :
    (check r).Only (fun _ a => a.silent = true) fun _ => True := by
  cases r <;> trivial

theorem Inert.silent {q : Call α} (hq : Inert q) :
    q.Only (fun _ a => a.silent = true) fun _ => True :=
  only_mono (fun a ha => Act.silent_of_inert a ha) (fun _ _ => trivial) hq

/-- The transaction of the INSERT. -/
theorem wp_insertRow {β : Type} {settings : Settings} {hostInfo : HostInfo}
    {config : ResourceConfig} {dto : CreateServerDto} {principal : ServerPrincipal}
    {message : String} {k : Server → Call β} {Q : β → Creation → Prop} (hh : Early h)
    (hk : ∀ row h, At row.id .creating none h →
      wp (surrounded Aside (Performed p)) Q Fails (k row) h) :
    wp (surrounded Aside (Performed p)) Q Fails ((transaction do
      Prog.perform .lifecycleLock
      let currentAllocationMb ← Prog.perform (.sumMemoryLimitMb none true)
      let requestedMb := dto.memoryLimitMb.getD 2048
      check (checkMemoryAdmission settings hostInfo config.maxMemoryRatio requestedMb
        currentAllocationMb message)
      statement (.insertServer (newServer dto principal requestedMb))).bind k) h := by
  refine wp_seq ((wp_tryCatch _ _ _).mpr ?_)
  -- a failure of the body is rolled back
  have hrollback : ∀ (e : Exn) (h : Creation), Early h →
      wp (surrounded Aside (Performed p))
        (fun a h => wp (surrounded Aside (Performed p)) Q Fails (k a) h) Fails
        ((Prog.perform .rollback : Call Unit).bind fun _ => .fail e) h := by
    rintro e h hh
    refine ⟨trivial, fun _ h₂ hb => ?_⟩
    obtain ⟨h₁, hr, hx⟩ := hb
    exact ((hh.aside hr).silent rfl hx).fails
  refine ⟨trivial, fun _ h₂ hb => ?_⟩
  obtain ⟨h₁, hr₁, hx₁⟩ := hb
  have hh₂ := (hh.aside hr₁).silent rfl hx₁
  refine ⟨trivial, fun sum h₄ hb => ?_⟩
  obtain ⟨h₃, hr₃, hx₃⟩ := hb
  have hh₄ := (hh₂.aside hr₃).silent rfl hx₃
  simp only [bind_eq, bind_ret]
  cases checkMemoryAdmission settings hostInfo config.maxMemoryRatio
      (dto.memoryLimitMb.getD 2048) sum message with
  | error e => exact hrollback e h₄ hh₄
  | ok _ =>
      refine ⟨trivial, fun b h₆ hb => ?_⟩
      obtain ⟨h₅, hr₅, hx₅⟩ := hb
      have hinsert := performed_insert hx₅ (hh₄.aside hr₅) rfl
      cases b with
      | error x => exact hrollback _ h₆ hinsert
      | ok row => exact hk row h₆ hinsert

/-- The row has its container, which the daemon has. -/
def Claimed (id : ServerId) (c : ContainerId) (h : Creation) : Prop :=
  At id .creating (some c) h ∧ h.world.manages id c = true ∧ h.created = some c

theorem Claimed.aside {id : ServerId} {c : ContainerId} {h' : Creation} (hh : Claimed id c h)
    (hr : Aside h h') : Claimed id c h' := by
  obtain ⟨hat, hm, hc⟩ := hh
  exact ⟨hat.aside hr, (hr.manages hat.1 c).trans hm, hr.history.1.trans hc⟩

/-- The container is created, or the creation compensated. -/
theorem wp_createContainer {settings : Settings} {row : Server} {β : Type}
    {k : ContainerId → Call β} {Q : β → Creation → Prop} (hh : At row.id .creating none h)
    (hk : ∀ c h, At row.id .creating none h → h.created = some c →
      h.world.manages row.id c = true → wp (surrounded Aside (Performed p)) Q Fails (k c) h) :
    wp (surrounded Aside (Performed p)) Q Fails
      (((createContainer settings row).tryCatch fun error => do
        compensateCreateFailure row.id
        throw error).bind k) h := by
  have hfail : ∀ (e : Exn) (h : Creation), At row.id .creating none h →
      wp (surrounded Aside (Performed p))
        (fun a h => wp (surrounded Aside (Performed p)) Q Fails (k a) h) Fails
        ((compensateCreateFailure row.id).bind fun _ => .fail e) h := by
    intro e h hh
    exact wp_seq (wp_mono _ _ (fun _ _ hf => hf e) (fun _ _ hf => hf) (wp_compensate hh))
  refine wp_seq ((wp_tryCatch _ _ _).mpr ?_)
  unfold createContainer
  cases settings.dockerConfig with
  | error message => exact hfail _ h hh
  | ok config =>
      unfold validateServerForCreate
      dsimp only
      -- the three checks of the row
      refine wp_seq ?_
      refine wp_guard (fun _ => hfail _ h hh) fun _ => ?_
      refine wp_guard (fun _ => hfail _ h hh) fun _ => ?_
      refine wp_guard (fun _ => hfail _ h hh) fun _ => ?_
      refine ⟨trivial, fun b h₂ hb => ?_⟩
      obtain ⟨h₁, hr, hx⟩ := hb
      obtain ⟨hat, hmade⟩ := performed_create hx rfl (hh.aside hr)
      cases b with
      | ok c =>
          obtain ⟨hc, hm⟩ := hmade c rfl
          exact hk c h₂ hat hc hm
      | error error =>
          dsimp only
          exact wp_guard (fun _ => hfail _ h₂ hat) fun _ => hfail _ h₂ hat

/-- The start of the claimed container, and the last transition. -/
theorem wp_startClaimed {id : ServerId} {c : ContainerId} (hh : Claimed id c h) :
    wp (surrounded Aside (Performed p)) (fun r h => Compensated (.ok r) h) Fails (do
      try startContainer c
      catch error =>
        let _ ← transition id .creating .error (some c) none
        throw error
      match ← transition id .creating .running (some c) none with
      | none => throw (.internalServerError "Failed to finalize running server state")
      | some running => return toPublicServer running) h := by
  refine wp_seq ((wp_tryCatch _ _ _).mpr ?_)
  rw [startContainer_eq]
  refine ⟨trivial, fun b h₂ hb => ?_⟩
  obtain ⟨h₁, hr, hx⟩ := hb
  obtain ⟨hat₁, hm₁, hc₁⟩ := hh.aside hr
  obtain ⟨hat, hm, hc, hstarted⟩ := performed_start hx hat₁
  refine wp_settleReply (fun hacc => ?_) fun e _ _ => ?_
  · -- started: the row goes to RUNNING
    refine wp_seq ((wp_tryCatch _ _ _).mpr ⟨trivial, fun b h₄ hb => ?_⟩)
    obtain ⟨h₃, hr₃, hx₃⟩ := hb
    obtain ⟨⟨r, rfl⟩, ⟨hi, s, hs, hst, hcid⟩, -, hcreated, hrunning⟩ :=
      performed_transition hx₃ (hat.aside hr₃)
    obtain ⟨hcr, hsr, -, -⟩ := hr₃.history
    refine ⟨?_, fun id' cid hi' _ => ?_⟩
    · show Ended h₄ (.ok _) h₄.inserted
      rw [hi]
      refine ⟨s, c, hs, hst, hcid, ?_, ?_⟩
      · rw [hcreated, hcr, hc, hc₁]
      · rw [hrunning, hsr]
        exact hstarted hacc
    · rw [hi] at hi'
      cases hi'
      rw [hs]
      rfl
  · -- not started: the row goes to ERROR with its container
    refine wp_seq ((wp_tryCatch _ _ _).mpr ⟨trivial, fun b h₄ hb => ?_⟩)
    obtain ⟨h₃, hr₃, hx₃⟩ := hb
    obtain ⟨⟨r, rfl⟩, ⟨hi, s, hs, hst, hcid⟩, hmanaged, -, -⟩ :=
      performed_transition hx₃ (hat.aside hr₃)
    refine (Leftover.error hs hst hcid ?_).fails hi
    rw [hmanaged, hr₃.manages hat.1, hm]
    exact hm₁

theorem wp_creation {settings : Settings} {dto : CreateServerDto} {principal : ServerPrincipal}
    (hh : Early h) : wp (surrounded Aside (Performed p)) (fun r h => Compensated (.ok r) h) Fails
      (createServer settings dto principal) h := by
  refine wp_early_seq check_silent hh fun config h hh => ?_
  refine wp_early_seq (hostReadings_inert settings).silent hh fun hd h hh => ?_
  refine wp_early_seq check_silent hh fun _ h hh => ?_
  refine wp_insertRow hh fun row h hat => ?_
  refine wp_createContainer hat fun c h hat hc hm => ?_
  -- the claim of the container
  refine ⟨trivial, fun b h₂ hb => ?_⟩
  obtain ⟨h₁, hr, hx⟩ := hb
  obtain ⟨⟨r, rfl⟩, hat₂, hm₂, hc₂⟩ := performed_claim hx (hat.aside hr)
  refine wp_startClaimed ⟨hat₂, ?_, ?_⟩
  · rw [hm₂, hr.manages hat.1]
    exact hm
  · rw [hc₂, hr.history.1]
    exact hc

end Code

/-! ## §5. The theorem. -/

/-- **CREATE COMPENSATION.**  Whatever the daemon answers, a creation has
returned with its row RUNNING and its container started, or has thrown and
left nothing, an ERROR row with the container, or a CREATING row after an
unavailable lookup, or has thrown before its INSERT without writing anything.
No managed container of its server is without the row. -/
theorem create_compensation (settings : Settings) (dto : CreateServerDto)
    (principal : ServerPrincipal) (p : Pid) (w : World) (r : Except Exn PublicServer)
    (h : Creation)
    (hrun : Under Aside (Performed p) (createServer settings dto principal) (.begin w) r h) :
    Compensated r h := by
  have := hrun.sound (wp_creation ⟨rfl, rfl⟩)
  cases r <;> exact this

/-- A creation whose container the daemon makes and then fails to report: the
lookup finds it. -/
theorem sampleCreate_compensated :
    ∃ r h, Under Aside (Performed 0) (createServer sampleSettings sampleDto sampleAdmin)
        (.begin emptyWorld) r h ∧
      (h.world.servers.get 1).any (fun s => s.status == .error && s.containerId == some 7) = true ∧
      Compensated r h := by
  have htest : (System.alone (attempt 0) (fun _ => ())
      (createServer sampleSettings sampleDto sampleAdmin)
      [sampleInfo, sampleStats, {}, {}, { uuid := 1 },
       { created := .error ⟨none, some 500⟩, made := some 7 },
       { listed := .ok [⟨some 7, "created"⟩] }, {}] (.begin emptyWorld)).any (fun out =>
        (out.world.world.servers.get 1).any fun s =>
          s.status == .error && s.containerId == some 7) = true := by
    decide +kernel
  obtain ⟨out, hout, htest⟩ := (Option.any_eq_true _ _).mp htest
  have hrun := Under.of_alone (R := Aside) (X := Performed 0) (fun _ => attempt 0) (fun _ _ => ())
    (fun h => ⟨h.world, fun _ _ => ⟨rfl, fun _ => rfl⟩, rfl⟩) (fun _ e _ _ _ hx => ⟨e, hx⟩) hout
  exact ⟨_, _, hrun, htest, create_compensation _ _ _ _ _ _ _ hrun⟩

end MinePanel.Servers
