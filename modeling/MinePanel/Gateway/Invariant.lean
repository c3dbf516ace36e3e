/-
  MinePanel.Gateway.Invariant
  ───────────────────────────
  **COUNTER, ROOM, TIMERS AND RESERVATIONS AGREE.**

  One invariant for the gateway and the reservation service, over every order of
  their events.  In the middle of a handler it holds up to what the handler is
  busy with: `Loose Q C F E N` is the invariant where every `verify` satisfies `Q`
  and

    * the sockets `C` may be cleaned up and still connected,
    * the raw connections `F` may be open without a reservation,
    * the raw connections `E` may have two sockets,
    * the socket `N` may be in the room and not yet polled for.

  Every primitive has one lemma about `Loose`, and every handler ends in `Inv`,
  with all four empty.
-/
import MinePanel.Gateway.Cleanup

namespace MinePanel.Gateway

open MinePanel.Db MinePanel.Lib EventsGateway

/-! ## §1. The invariant. -/

/-- The principal of the socket `j`. -/
def EventsGateway.principalOf (g : EventsGateway) (j : SocketId) : Option Principal :=
  (g.sockets.get j).bind Socket.principal

/-- The counter is the room, and the room is the sockets with a principal. -/
structure Counted (g : EventsGateway) : Prop where
  nodup : g.room.Nodup
  count : g.adminCount = g.room.length
  member : ∀ j, j ∈ g.room ↔ (g.principalOf j).isSome = true
  held : ∀ {j s p}, g.sockets.get j = some s → s.principal = some p →
    s.connected = true ∧ s.cleanedUp = false ∧ s.accessToken.isSome = true ∧
      isEligibleForMetrics p = true ∧ s.status ≠ .pending

/-- The interval exists as long as somebody but `N` is in the room. -/
def Polled (N : Option SocketId) (g : EventsGateway) : Prop :=
  g.live = true → (g.interval = true ↔ ∃ j ∈ g.room, N ≠ some j)

/-- After `onModuleDestroy` nobody is in the room. -/
def Idle (g : EventsGateway) : Prop := g.live = false → g.room = []

/-- `this.sockets` has every socket that is connected. -/
def Tracked (g : EventsGateway) : Prop :=
  ∀ j s, g.sockets.get j = some s → s.connected = true → g.live = true → j ∈ g.tracked

/-- A socket that was cleaned up has left. -/
def Flushed (C : SocketId → Prop) (g : EventsGateway) : Prop :=
  ∀ j s, g.sockets.get j = some s → s.cleanedUp = true → s.connected = true →
    g.live = true → C j

/-- An open raw connection without an eligible authentication is reserved. -/
structure Guarded (F : EngineId → Prop) (g : EventsGateway) : Prop where
  raw : ∀ {j s}, g.sockets.get j = some s → ∃ r, g.raws.get s.engineId = some r ∧
    (s.principal.isSome = true → r.authenticated = true) ∧
    (s.connected = false → r.isOpen = false ∨ r.authenticated = true)
  reserved : ∀ {e r}, g.raws.get e = some r → r.isOpen = true → r.authenticated = false →
    g.live = true → (g.reservations.get e).isSome = true ∨ F e

/-- One socket a connection, one claim a reservation, one `verify` a socket. -/
structure Paired (E : EngineId → Prop) (g : EventsGateway) : Prop where
  alone : ∀ {i j s t}, g.sockets.get i = some s → g.sockets.get j = some t →
    s.connected = true → t.connected = true → s.engineId = t.engineId → i = j ∨ E s.engineId
  claimed : ∀ {j s r}, g.sockets.get j = some s → s.connected = true →
    g.reservations.get s.engineId = some r → r.claimed = true
  claims : ∀ r ∈ g.reservations.rows, r.claims = if r.claimed then 1 else 0
  cap : g.reservations.rows.length ≤ pendingCap
  once : (g.verifying.map Prod.fst).Nodup
  pending : ∀ entry ∈ g.verifying, ∃ s, g.sockets.get entry.1 = some s ∧ s.principal = none ∧
    s.status ≠ .pending

/-- Every principal comes from a `verify` that satisfies `Q`. -/
structure Sourced (Q : Verification → Prop) (g : EventsGateway) : Prop where
  pending : ∀ entry ∈ g.verifying, Q entry.2
  principal : ∀ {j s p}, g.sockets.get j = some s → s.principal = some p →
    ∃ v row, Q v ∧ s.accessToken = some v.token ∧ v.answer = some (some (p, row))

/-- The invariant, up to what a handler is busy with. -/
structure Loose (Q : Verification → Prop) (C : SocketId → Prop) (F E : EngineId → Prop)
    (N : Option SocketId) (g : EventsGateway) : Prop where
  counted : Counted g
  polled : Polled N g
  idle : Idle g
  tracked : Tracked g
  flushed : Flushed C g
  guarded : Guarded F g
  paired : Paired E g
  sourced : Sourced Q g

/-- **THE INVARIANT.** -/
abbrev Inv (Q : Verification → Prop) (g : EventsGateway) : Prop :=
  Loose Q (fun _ => False) (fun _ => False) (fun _ => False) none g

variable {g g' : EventsGateway} {id : SocketId} {s : Socket} {C : SocketId → Prop}
  {F E : EngineId → Prop} {N : Option SocketId} {Q : Verification → Prop}

theorem Flushed.mono {C' : SocketId → Prop} (h : Flushed C g) (hC : ∀ j, C j → C' j) :
    Flushed C' g :=
  fun j s hj hu hc hl => hC j (h j s hj hu hc hl)

theorem Guarded.mono {F' : EngineId → Prop} (h : Guarded F g) (hF : ∀ e, F e → F' e) :
    Guarded F' g :=
  ⟨h.raw, fun hr ho ha hl => (h.reserved hr ho ha hl).imp_right (hF _)⟩

theorem Paired.mono {E' : EngineId → Prop} (h : Paired E g) (hE : ∀ e, E e → E' e) :
    Paired E' g :=
  { h with alone := fun hi hj hs ht he => (h.alone hi hj hs ht he).imp_right (hE _) }

/-! ## §2. What fading keeps. -/

theorem Idle.sheds (h : Idle g) (hs : Sheds g g') : Idle g' := by
  intro hl
  have hroom : g.room = [] := h (hs.live.symm.trans hl)
  exact List.sublist_nil.mp (hroom ▸ hs.room)

theorem Paired.sheds (h : Paired E g) (hs : Sheds g g') : Paired E g' where
  alone := by
    intro i j s' t' hi hj hci hcj he
    obtain ⟨s, hi', hf⟩ := hs.socket_before hi
    obtain ⟨t, hj', ht⟩ := hs.socket_before hj
    rw [hf.engineId] at he ⊢
    exact h.alone hi' hj' (hf.connected hci) (ht.connected hcj) (he.trans ht.engineId)
  claimed := by
    intro j s' r hj hc hr
    obtain ⟨s, hj', hf⟩ := hs.socket_before hj
    rw [hf.engineId] at hr
    exact h.claimed hj' (hf.connected hc) (hs.reservation_before hr)
  claims := fun r hr => h.claims r (hs.reservations.subset hr)
  cap := hs.reservations.length_le.trans h.cap
  once := by
    rw [hs.verifying]
    exact h.once
  pending := by
    rw [hs.verifying]
    intro entry hentry
    obtain ⟨s, hj, hp, hst⟩ := h.pending entry hentry
    obtain ⟨s', hj', hf⟩ := hs.socket_after hj
    refine ⟨s', hj', ?_, ?_⟩
    · rcases hf.principal with he | ⟨hn, _⟩
      · exact he.trans hp
      · exact hn
    · rw [hf.status]
      exact hst

theorem Sourced.sheds (h : Sourced Q g) (hs : Sheds g g') : Sourced Q g' where
  pending := by
    rw [hs.verifying]
    exact h.pending
  principal := by
    intro j s' p hj hp
    obtain ⟨s, hj', hf⟩ := hs.socket_before hj
    rcases hf.principal with he | ⟨hn, _⟩
    · rw [hf.accessToken]
      exact h.principal hj' (he ▸ hp)
    · rw [hn] at hp
      cases hp

/-! ## §3. One socket is cleaned up. -/

/-- The member `id` of the room, if it was one, is counted off. -/
theorem length_room_filter (h : Counted g) (hs : g.sockets.get id = some s) :
    (g.room.filter (· ≠ id)).length =
      if s.principal.isSome then g.room.length - 1 else g.room.length := by
  have hmem : id ∈ g.room ↔ s.principal.isSome = true := by
    rw [h.member, principalOf, hs]
    rfl
  have herase : g.room.filter (· ≠ id) = g.room.erase id := by
    rw [h.nodup.erase_eq_filter]
    refine List.filter_congr ?_
    intro j _
    by_cases hj : j = id <;> simp [hj]
  rw [herase]
  split
  next hp => exact List.length_erase_of_mem (hmem.mpr hp)
  next hp => rw [List.erase_of_not_mem fun hid => hp (hmem.mp hid)]

/-- The socket `id` loses its principal and its place in the room. -/
theorem Counted.without (h : Counted g) (hs : g.sockets.get id = some s)
    (hroom : g'.room = g.room.filter (· ≠ id))
    (hcount : g'.adminCount = if s.principal.isSome then g.adminCount - 1 else g.adminCount)
    (hid : ∀ s', g'.sockets.get id = some s' → s'.principal = none)
    (hother : ∀ j, j ≠ id → g'.sockets.get j = g.sockets.get j) : Counted g' where
  nodup := by
    rw [hroom]
    exact h.nodup.sublist List.filter_sublist
  count := by
    rw [hcount, hroom, length_room_filter h hs, h.count]
  member := by
    intro j
    rw [hroom, List.mem_filter, h.member]
    by_cases hj : j = id
    · subst hj
      have hnone : g'.principalOf j = none := by
        unfold principalOf
        cases hg : g'.sockets.get j with
        | none => rfl
        | some s' => exact hid s' hg
      simp [hnone]
    · simp [principalOf, hother j hj, hj]
  held := by
    intro j s' p hj hp
    have hne : j ≠ id := by
      intro he
      subst he
      rw [hid s' hj] at hp
      cases hp
    rw [hother j hne] at hj
    exact h.held hj hp

theorem Counted.cleanupSocket (h : Counted g) (hs : g.sockets.get id = some s) :
    Counted (g.cleanupSocket id) := by
  refine h.without hs ?_ ?_ ?_ ?_
  · rw [cleanupSocket_eq hs]
  · rw [cleanupSocket_eq hs]
  · intro s' hs'
    rw [get_wiped hs, if_pos rfl] at hs'
    cases hs'
    rfl
  · intro j hj
    rw [get_wiped hs, if_neg hj]

theorem Counted.leaveNamespace (h : Counted g) (hs : g.sockets.get id = some s) :
    Counted (g.leaveNamespace id) := by
  refine h.without hs ?_ ?_ ?_ ?_
  · rw [leaveNamespace_eq hs, cleanupSocket_eq hs]
  · rw [leaveNamespace_eq hs, cleanupSocket_eq hs]
  · intro s' hs'
    rw [get_gone hs, if_pos rfl] at hs'
    cases hs'
    rfl
  · intro j hj
    rw [get_gone hs, if_neg hj]

/-- The polling stops with the last member of the room. -/
theorem Polled.cleanupSocket (h : Polled N g) (hc : Counted g) (hN : N = none ∨ N = some id)
    (hs : g.sockets.get id = some s) : Polled none (g.cleanupSocket id) := by
  have hlen := length_room_filter hc hs
  rw [cleanupSocket_eq hs]
  intro hl
  show (if g.isLastAdmin s then false else g.interval) = true ↔
    ∃ j ∈ g.room.filter (· ≠ id), none ≠ some j
  have hpoll : g.interval = true ↔ ∃ j ∈ g.room, N ≠ some j := h hl
  cases hlast : g.isLastAdmin s with
  | true =>
      obtain ⟨hp, hone⟩ := (Bool.and_eq_true _ _).mp hlast
      rw [hp, if_pos rfl, ← hc.count, beq_iff_eq.mp hone] at hlen
      rw [List.eq_nil_of_length_eq_zero hlen]
      simp
  | false =>
      rw [if_neg (by simp), hpoll]
      constructor
      · rintro ⟨j, hj, _⟩
        -- somebody is left: the counter is not at its last, or nobody has left
        have hpos : 0 < (g.room.filter (· ≠ id)).length := by
          have hroom : 0 < g.room.length := List.length_pos_of_mem hj
          rw [hlen]
          split
          next hp =>
            rw [isLastAdmin, hp, Bool.true_and, beq_eq_false_iff_ne, hc.count] at hlast
            omega
          next => exact hroom
        obtain ⟨k, hk⟩ := List.exists_mem_of_length_pos hpos
        exact ⟨k, hk, by simp⟩
      · rintro ⟨j, hj, _⟩
        obtain ⟨hj, hne⟩ := List.mem_filter.mp hj
        refine ⟨j, hj, ?_⟩
        rcases hN with rfl | rfl
        · simp
        · simpa using fun he : id = j => by simp [he] at hne

theorem Tracked.cleanupSocket (h : Tracked g) (hs : g.sockets.get id = some s) :
    Tracked (g.cleanupSocket id) := by
  intro j t hj hc hl
  have hlive : g.live = true := (Sheds.cleanupSocket g id).live ▸ hl
  rw [get_wiped hs] at hj
  rw [cleanupSocket_eq hs]
  show j ∈ g.tracked
  split at hj
  next he =>
    cases hj
    exact h j s (he ▸ hs) hc hlive
  next => exact h j t hj hc hlive

theorem Tracked.leaveNamespace (h : Tracked g) (hs : g.sockets.get id = some s) :
    Tracked (g.leaveNamespace id) := by
  intro j t hj hc hl
  have hlive : g.live = true := (Sheds.leaveNamespace g id).live ▸ hl
  rw [get_gone hs] at hj
  rw [leaveNamespace_eq hs]
  show j ∈ g.tracked.filter (· ≠ id)
  split at hj
  next => cases hj; cases hc
  next he => exact List.mem_filter.mpr ⟨h j t hj hc hlive, by simpa using he⟩

/-- Only the socket itself may now be cleaned up and connected. -/
theorem Flushed.cleanupSocket (h : Flushed C g) (hs : g.sockets.get id = some s) :
    Flushed (fun j => C j ∨ j = id) (g.cleanupSocket id) := by
  intro j t hj hu hc hl
  rw [get_wiped hs] at hj
  split at hj
  next he => exact .inr he
  next => exact .inl (h j t hj hu hc ((Sheds.cleanupSocket g id).live ▸ hl))

theorem Flushed.leaveNamespace (h : Flushed C g) (hs : g.sockets.get id = some s) :
    Flushed C (g.leaveNamespace id) := by
  intro j t hj hu hc hl
  rw [get_gone hs] at hj
  split at hj
  next => cases hj; cases hc
  next => exact h j t hj hu hc ((Sheds.leaveNamespace g id).live ▸ hl)

/-- What fading keeps of `Guarded`: a socket may leave where its raw connection
is closed or authenticated, and so may a reservation go. -/
theorem Guarded.sheds {F' : EngineId → Prop} (h : Guarded F g) (hs : Sheds g g')
    (hF : ∀ e, F e → F' e)
    (hleft : ∀ {j s s' r}, g.sockets.get j = some s → g'.sockets.get j = some s' →
      s.connected = true → s'.connected = false → g'.raws.get s.engineId = some r →
      r.isOpen = false ∨ r.authenticated = true)
    (hfree : ∀ {e r}, (g.reservations.get e).isSome = true → g'.reservations.get e = none →
      g'.raws.get e = some r → r.isOpen = true → r.authenticated = false → F' e) :
    Guarded F' g' where
  raw := by
    intro j s' hj
    obtain ⟨s, hj', hf⟩ := hs.socket_before hj
    obtain ⟨r, hr, hauth, hclosed⟩ := h.raw hj'
    obtain ⟨r', hr', hc⟩ := hs.raw_after hr
    refine ⟨r', hf.engineId ▸ hr', ?_, ?_⟩
    · intro hp
      rw [hc.authenticated]
      rcases hf.principal with he | ⟨hn, _⟩
      · exact hauth (he ▸ hp)
      · rw [hn] at hp
        cases hp
    · intro hnot
      cases hcon : s.connected with
      | true => exact hleft hj' hj hcon hnot hr'
      | false =>
          rcases hclosed hcon with ho | ha
          · exact .inl (Bool.eq_false_iff.mpr fun ho' => by rw [hc.isOpen ho'] at ho; cases ho)
          · exact .inr (hc.authenticated.trans ha)
  reserved := by
    intro e r' hr' ho ha hl
    obtain ⟨r, hr, hc⟩ := hs.raw_before hr'
    rcases h.reserved hr (hc.isOpen ho) (hc.authenticated.symm.trans ha) (hs.live ▸ hl) with
      hres | hfe
    · cases hgone : g'.reservations.get e with
      | none => exact .inr (hfree hres hgone hr' ho ha)
      | some _ => exact .inl rfl
    · exact .inr (hF e hfe)

/-- Its own connection may now be open without a reservation. -/
theorem Guarded.cleanupSocket (h : Guarded F g) (hs : g.sockets.get id = some s) :
    Guarded (fun e => F e ∨ e = s.engineId) (g.cleanupSocket id) := by
  refine h.sheds (Sheds.cleanupSocket g id) (fun _ => .inl) ?_ ?_
  · intro j t t' r hj hj' hc hnot _
    rw [get_wiped hs] at hj'
    split at hj'
    next he =>
      subst he
      rw [hs] at hj
      cases hj
      cases hj'
      rw [show s.wiped.connected = s.connected from rfl, hc] at hnot
      cases hnot
    next =>
      rw [hj] at hj'
      cases hj'
      rw [hc] at hnot
      cases hnot
  · intro e r hres hgone _ _ _
    by_cases he : e = s.engineId
    · exact .inr he
    · rw [get_reservations_cleanup hs he] at hgone
      rw [hgone] at hres
      cases hres

/-- The raw connection of a socket that leaves is closed, or authenticated. -/
theorem Guarded.raw_gone (h : Guarded F g) (hs : g.sockets.get id = some s) {r : RawConn}
    (hr : (g.leaveNamespace id).raws.get s.engineId = some r) :
    r.isOpen = false ∨ r.authenticated = true := by
  rw [leaveNamespace_eq hs] at hr
  dsimp only at hr
  split at hr
  next hp =>
    obtain ⟨r', hr', hauth, _⟩ := h.raw hs
    rw [hr] at hr'
    cases hr'
    exact .inr (hauth hp)
  next =>
    rw [get_closeRaw, if_pos rfl, Option.map_eq_some_iff] at hr
    obtain ⟨r', _, rfl⟩ := hr
    exact .inl rfl

theorem Guarded.leaveNamespace (h : Guarded F g) (hs : g.sockets.get id = some s) :
    Guarded F (g.leaveNamespace id) := by
  refine h.sheds (Sheds.leaveNamespace g id) (fun _ hF => hF) ?_ ?_
  · intro j t t' r hj hj' hc hnot hr
    rw [get_gone hs] at hj'
    split at hj'
    next he =>
      subst he
      rw [hs] at hj
      cases hj
      exact h.raw_gone hs hr
    next =>
      rw [hj] at hj'
      cases hj'
      rw [hc] at hnot
      cases hnot
  · intro e r hres hgone hr ho ha
    by_cases he : e = s.engineId
    · subst he
      rcases h.raw_gone hs hr with hclosed | hauth
      · rw [ho] at hclosed
        cases hclosed
      · rw [ha] at hauth
        cases hauth
    · rw [leaveNamespace_eq hs] at hgone
      rw [show g.reservations.get e = none from
        (get_reservations_cleanup hs he).symm.trans hgone] at hres
      cases hres

/-- What is closed needs no reservation. -/
theorem Guarded.closeRaw (h : Guarded F g) (e : EngineId) :
    Guarded (fun e' => F e' ∧ e' ≠ e) (g.closeRaw e) := by
  have hclosed : Guarded F (g.closeRaw e) := by
    refine h.sheds (Sheds.closeRaw g e) (fun _ hF => hF) ?_ ?_
    · intro j t t' r hj hj' hc hnot _
      rw [show g.sockets.get j = some t' from hj'] at hj
      cases hj
      rw [hc] at hnot
      cases hnot
    · intro e' r hres hgone _ _ _
      rw [show g.reservations.get e' = none from hgone] at hres
      cases hres
  refine ⟨hclosed.raw, ?_⟩
  intro e' r hr ho ha hl
  refine (hclosed.reserved hr ho ha hl).imp_right fun hF => ⟨hF, ?_⟩
  rintro rfl
  rw [get_closeRaw, if_pos rfl, Option.map_eq_some_iff] at hr
  obtain ⟨r', _, rfl⟩ := hr
  cases ho

/-! ## §4. A connection is disconnected. -/

theorem Loose.cleanupSocket (h : Loose Q C F E N g) (hs : g.sockets.get id = some s)
    (hN : N = none ∨ N = some id) :
    Loose Q (fun j => C j ∨ j = id) (fun e => F e ∨ e = s.engineId) E none
      (g.cleanupSocket id) where
  counted := h.counted.cleanupSocket hs
  polled := h.polled.cleanupSocket h.counted hN hs
  idle := h.idle.sheds (.cleanupSocket g id)
  tracked := h.tracked.cleanupSocket hs
  flushed := h.flushed.cleanupSocket hs
  guarded := h.guarded.cleanupSocket hs
  paired := h.paired.sheds (.cleanupSocket g id)
  sourced := h.sourced.sheds (.cleanupSocket g id)

theorem Loose.leaveNamespace (h : Loose Q C F E none g) (hs : g.sockets.get id = some s) :
    Loose Q C F E none (g.leaveNamespace id) where
  counted := h.counted.leaveNamespace hs
  polled := by
    have hpoll := h.polled.cleanupSocket h.counted (.inl rfl) hs
    rw [leaveNamespace_eq hs]
    exact hpoll
  idle := h.idle.sheds (.leaveNamespace g id)
  tracked := h.tracked.leaveNamespace hs
  flushed := h.flushed.leaveNamespace hs
  guarded := h.guarded.leaveNamespace hs
  paired := h.paired.sheds (.leaveNamespace g id)
  sourced := h.sourced.sheds (.leaveNamespace g id)

/-- Several sockets leave, one after the other. -/
theorem Loose.leaveAll (l : List SocketId) (h : Loose Q C F E none g)
    (hl : ∀ j ∈ l, (g.sockets.get j).isSome = true) :
    Loose Q C F E none (l.foldl EventsGateway.leaveNamespace g) ∧
      ∀ j ∈ l, ∀ t, (l.foldl EventsGateway.leaveNamespace g).sockets.get j = some t →
        t.connected = false := by
  induction l generalizing g with
  | nil => exact ⟨h, nofun⟩
  | cons i l ih =>
      obtain ⟨s, hs⟩ := Option.isSome_iff_exists.mp (hl i (List.mem_cons_self ..))
      have hsheds := Sheds.leaveNamespace g i
      obtain ⟨hloose, hleft⟩ := ih (h.leaveNamespace hs) fun j hj => by
        obtain ⟨t, ht⟩ := Option.isSome_iff_exists.mp (hl j (List.mem_cons_of_mem i hj))
        obtain ⟨t', ht', _⟩ := hsheds.socket_after ht
        rw [ht']
        rfl
      refine ⟨hloose, ?_⟩
      intro j hj t ht
      rcases List.mem_cons.mp hj with rfl | hj
      · -- it has left first, and stays away
        obtain ⟨t', ht', hf⟩ := (Sheds.foldl .leaveNamespace l _).socket_before ht
        rw [get_gone hs, if_pos rfl] at ht'
        cases ht'
        exact Bool.eq_false_iff.mpr fun hc => absurd (hf.connected hc) (by simp [Socket.gone])
      · exact hleft j hj t ht

/-- All sockets of a connection leave. -/
theorem Loose.leaveSocketsOf (h : Loose Q C F E none g) (e : EngineId) :
    Loose Q C F E none ((g.socketsOf e).foldl EventsGateway.leaveNamespace g) ∧
      ∀ {j t}, ((g.socketsOf e).foldl EventsGateway.leaveNamespace g).sockets.get j = some t →
        t.engineId = e → t.connected = false := by
  have hmem : ∀ j, j ∈ g.socketsOf e ↔
      ∃ t, g.sockets.get j = some t ∧ t.connected = true ∧ t.engineId = e := by
    intro j
    simp only [socketsOf, List.mem_map, List.mem_filter, Bool.and_eq_true, beq_iff_eq]
    constructor
    · rintro ⟨t, ⟨ht, hc, he⟩, rfl⟩
      exact ⟨t, Table.mem_rows.mp ht, hc, he⟩
    · rintro ⟨t, ht, hc, he⟩
      obtain ⟨ht, hid⟩ := Table.get_eq_some.mp ht
      exact ⟨t, ⟨ht, hc, he⟩, hid⟩
  obtain ⟨hloose, hleft⟩ := h.leaveAll (g.socketsOf e) fun j hj => by
    obtain ⟨t, ht, _⟩ := (hmem j).mp hj
    rw [ht]
    rfl
  refine ⟨hloose, ?_⟩
  intro j t ht he
  obtain ⟨t₀, ht₀, hf⟩ := (Sheds.foldl .leaveNamespace _ g).socket_before ht
  cases hc : t.connected with
  | false => rfl
  | true =>
      have hj : j ∈ g.socketsOf e :=
        (hmem j).mpr ⟨t₀, ht₀, hf.connected hc, hf.engineId.symm.trans he⟩
      rw [← hc]
      exact hleft j hj t ht

/-- Where nobody is connected any more, nothing is loose. -/
theorem Loose.tighten {e : EngineId} (h : Loose Q C F E none g)
    (hleft : ∀ {j t}, g.sockets.get j = some t → t.engineId = e → t.connected = false)
    (hC : ∀ {j t}, C j → g.sockets.get j = some t → t.engineId = e)
    (hF : ∀ e', F e' → e' = e) (hE : ∀ e', E e' → e' = e) : Inv Q (g.closeRaw e) where
  counted := { h.counted with }
  polled := h.polled
  idle := h.idle
  tracked := h.tracked
  flushed := by
    intro j t ht hu hc hl
    have hj := h.flushed j t ht hu hc hl
    rw [hleft ht (hC hj ht)] at hc
    cases hc
  guarded := (h.guarded.closeRaw e).mono fun e' hbusy => hbusy.2 (hF e' hbusy.1)
  paired :=
    { h.paired with
      alone := by
        intro i j t t' hi hj hc hc' he
        rcases h.paired.alone hi hj hc hc' he with hij | hbusy
        · exact .inl hij
        · rw [hleft hi (hE _ hbusy)] at hc
          cases hc }
  sourced := { h.sourced with }

/-- `socket.disconnect(true)` finishes what is open for its connection. -/
theorem Loose.disconnect (hs : g.sockets.get id = some s) (hc : s.connected = true)
    (h : Loose Q (· = id) (· = s.engineId) (· = s.engineId) none g) : Inv Q (g.disconnect id) := by
  obtain ⟨hloose, hleft⟩ := h.leaveSocketsOf s.engineId
  unfold EventsGateway.disconnect
  rw [hs]
  dsimp only
  rw [if_pos hc]
  refine hloose.tighten hleft ?_ (fun _ he => he) (fun _ he => he)
  rintro j t rfl ht
  obtain ⟨t₀, ht₀, hf⟩ := (Sheds.foldl .leaveNamespace _ g).socket_before ht
  rw [hs] at ht₀
  cases ht₀
  exact hf.engineId

theorem Loose.mono {C' : SocketId → Prop} {F' E' : EngineId → Prop} (h : Loose Q C F E N g)
    (hC : ∀ j, C j → C' j) (hF : ∀ e, F e → F' e) (hE : ∀ e, E e → E' e) : Loose Q C' F' E' N g :=
  { h with
    flushed := h.flushed.mono hC
    guarded := h.guarded.mono hF
    paired := h.paired.mono hE }

/-- `disconnectSilent` of a connected socket. -/
theorem Loose.disconnectSilent (hs : g.sockets.get id = some s) (hc : s.connected = true)
    (h : Loose Q (· = id) (· = s.engineId) (· = s.engineId) N g) (hN : N = none ∨ N = some id) :
    Inv Q (g.disconnectSilent id) := by
  have hclean := h.cleanupSocket hs hN
  have hs' : (g.cleanupSocket id).sockets.get id = some s.wiped := by
    rw [get_wiped hs, if_pos rfl]
  refine Loose.disconnect hs' hc (hclean.mono ?_ ?_ fun _ he => he)
  · exact fun _ hj => hj.elim (fun hj => hj) fun hj => hj
  · exact fun _ he => he.elim (fun he => he) fun he => he

/-- **`disconnectSilent`** of any socket, at any time. -/
theorem Loose.silenced (h : Inv Q g) (id : SocketId) : Inv Q (g.disconnectSilent id) := by
  cases hs : g.sockets.get id with
  | none =>
      have hclean : g.cleanupSocket id = g := by
        rw [EventsGateway.cleanupSocket, hs]
      rw [EventsGateway.disconnectSilent, hclean, EventsGateway.disconnect, hs]
      exact h
  | some s =>
      cases hc : s.connected with
      | true =>
          exact Loose.disconnectSilent hs hc
            (h.mono (fun _ => False.elim) (fun _ => False.elim) fun _ => False.elim) (.inl rfl)
      | false =>
          -- it has left before, so its raw connection is closed or authenticated
          have hclean := h.cleanupSocket hs (.inl rfl)
          have hs' : (g.cleanupSocket id).sockets.get id = some s.wiped := by
            rw [get_wiped hs, if_pos rfl]
          have hsame : g.disconnectSilent id = g.cleanupSocket id := by
            rw [EventsGateway.disconnectSilent, EventsGateway.disconnect, hs']
            exact if_neg (by simp [Socket.wiped, hc])
          rw [hsame]
          refine { hclean with flushed := ?_, guarded := ⟨hclean.guarded.raw, ?_⟩ }
          · intro j t ht hu hct hl
            rcases hclean.flushed j t ht hu hct hl with hf | rfl
            · exact hf
            · rw [hs'] at ht
              cases ht
              rw [show s.wiped.connected = s.connected from rfl, hc] at hct
              cases hct
          · intro e r hr ho ha hl
            rcases hclean.guarded.reserved hr ho ha hl with hres | hf | rfl
            · exact .inl hres
            · exact .inr hf
            · obtain ⟨r', hr', _, hclosed⟩ := hclean.guarded.raw hs'
              rw [show s.wiped.engineId = s.engineId from rfl, hr] at hr'
              cases hr'
              rcases hclosed hc with hno | hauth
              · rw [ho] at hno
                cases hno
              · rw [ha] at hauth
                cases hauth

end MinePanel.Gateway
