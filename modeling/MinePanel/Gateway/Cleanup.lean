/-
  MinePanel.Gateway.Cleanup
  ─────────────────────────
  **WHAT CLEANING UP DOES.**

  `cleanupSocket`, `handleDisconnect`, `disconnect` and `release` are called from
  everywhere, in any order and more than once for a socket.  This file says once
  what they do:

    * `cleanupSocket_eq`, `leaveNamespace_eq`, `release_eq` — field by field;
    * `Sheds` — what any number of them may change: sockets fade, raw connections
      close, reservations and members of the room go, and nothing else.
-/
import MinePanel.Gateway.Service

namespace MinePanel.Gateway

open MinePanel.Db MinePanel.Lib

/-! ## §1. Field by field. -/

/-- A socket after `cleanupSocket`. -/
def Socket.wiped (s : Socket) : Socket :=
  { s with deadline := false, listener := false, expiryTimer := none, cleanedUp := true
           principal := none }

/-- A socket after it has left the namespace. -/
def Socket.gone (s : Socket) : Socket := { s.wiped with connected := false }

theorem Socket.wiped_id (s : Socket) : s.wiped.id = s.id := rfl

theorem Socket.gone_id (s : Socket) : s.gone.id = s.id := rfl

namespace EventsGateway

variable {g : EventsGateway} {id : SocketId} {s : Socket}

/-- `release` removes the reservation, if there is one. -/
theorem release_eq (g : EventsGateway) (id : EngineId) :
    g.release id = ((g.reservations.get id).isSome,
      { g with reservations := g.reservations.remove fun r => r.id = id }) := by
  unfold release
  cases h : g.reservations.get id with
  | some _ => rfl
  | none =>
      have hsame : (g.reservations.remove fun r => r.id = id) = g.reservations := by
        refine Table.remove_eq_self ?_
        intro r hr
        simpa using Table.get_eq_none.mp h r hr
      rw [hsame]
      rfl

/-- Whether `cleanupSocket` of `s` stops the polling. -/
def isLastAdmin (g : EventsGateway) (s : Socket) : Bool :=
  s.principal.isSome && g.adminCount - 1 == 0

/-- The rows change only where `f` and `f'` differ on the socket itself. -/
theorem modify_congr (h : g.sockets.get id = some s) {f f' : Socket → Socket}
    {hf : ∀ s, (f s).id = s.id} {hf' : ∀ s, (f' s).id = s.id} (hs : f s = f' s) :
    g.modify id f hf = g.modify id f' hf' := by
  unfold modify
  congr 1
  refine Table.eq_of_rows (List.map_congr_left ?_)
  intro t ht
  show (if t.id = id then f t else t) = if t.id = id then f' t else t
  by_cases hid : t.id = id
  · have hts : t = s := by
      have := Table.get_eq_some.mpr ⟨ht, hid⟩
      rw [h] at this
      exact (Option.some.inj this).symm
    rw [if_pos hid, if_pos hid, hts, hs]
  · rw [if_neg hid, if_neg hid]

/-- Two changes of one socket are one. -/
theorem modify_modify (g : EventsGateway) (id : SocketId) (f f' : Socket → Socket)
    (hf : ∀ s, (f s).id = s.id) (hf' : ∀ s, (f' s).id = s.id) :
    (g.modify id f hf).modify id f' hf' =
      g.modify id (fun s => f' (f s)) (fun s => (hf' _).trans (hf s)) := by
  unfold modify
  congr 1
  refine Table.eq_of_rows ?_
  simp only [Table.rows_modify, List.map_map]
  refine List.map_congr_left ?_
  intro t _
  by_cases hid : t.id = id
  · simp [hid, hf]
  · simp [hid]

theorem cleanupSocket_eq (h : g.sockets.get id = some s) :
    g.cleanupSocket id =
      { g.modify id Socket.wiped Socket.wiped_id with
        room := g.room.filter (· ≠ id)
        adminCount := if s.principal.isSome then g.adminCount - 1 else g.adminCount
        interval := if g.isLastAdmin s then false else g.interval
        cachedSnapshot := if g.isLastAdmin s then none else g.cachedSnapshot
        pollGeneration := if g.isLastAdmin s then g.pollGeneration + 1 else g.pollGeneration
        pendingImmediate := if g.isLastAdmin s then false else g.pendingImmediate
        reservations := if s.engineId = "" then g.reservations
          else g.reservations.remove fun r => r.id = s.engineId } := by
  unfold cleanupSocket
  rw [h]
  dsimp only
  simp only [release_eq]
  cases hp : s.principal with
  | none =>
      have hm : (g.modify id fun t =>
            { t with deadline := false, listener := false, expiryTimer := none, cleanedUp := true })
          = g.modify id Socket.wiped Socket.wiped_id :=
        modify_congr h (by rw [Socket.wiped, ← hp])
      rw [hm]
      simp only [isLastAdmin, hp, Option.isSome_none, Bool.false_and]
      split <;> rfl
  | some p =>
      simp only [isLastAdmin, hp, Option.isSome_some, Bool.true_and, if_true, dropPrincipal,
        modify_modify]
      by_cases hlast : g.adminCount - 1 = 0
      · split <;> simp only [modify, hlast, stopPolling] <;> rfl
      · split <;> simp only [modify, hlast, beq_iff_eq] <;> rfl

/-- One socket changes, the others do not. -/
theorem get_modify (g : EventsGateway) (id j : SocketId) {f : Socket → Socket}
    (hf : ∀ s, (f s).id = s.id) :
    (g.modify id f hf).sockets.get j =
      if j = id then (g.sockets.get j).map f else g.sockets.get j := by
  unfold modify
  rw [Table.get_modify]
  cases h : g.sockets.get j with
  | none => simp
  | some t =>
      have hid : t.id = j := Table.get_key h
      by_cases hj : j = id
      · simp [hid, hj]
      · simp [hid, hj]

theorem handleDisconnect_eq (h : g.sockets.get id = some s) :
    g.handleDisconnect id =
      { g.cleanupSocket id with
        tracked := g.tracked.filter (· ≠ id)
        raws := if s.principal.isSome then g.raws else (g.closeRaw s.engineId).raws } := by
  unfold handleDisconnect
  rw [h, cleanupSocket_eq h]
  dsimp only
  split <;> rfl

/-- A socket that leaves is cleaned up, and its raw connection is closed if it
was not authenticated. -/
theorem leaveNamespace_eq (h : g.sockets.get id = some s) :
    g.leaveNamespace id =
      { g.cleanupSocket id with
        sockets := (g.modify id Socket.gone Socket.gone_id).sockets
        tracked := g.tracked.filter (· ≠ id)
        raws := if s.principal.isSome then g.raws else (g.closeRaw s.engineId).raws } := by
  have hget : (g.modify id fun t => { t with connected := false }).sockets.get id =
      some { s with connected := false } := by
    rw [get_modify, if_pos rfl, h]
    rfl
  let g₁ : EventsGateway := { g.modify id fun t => { t with connected := false } with
    room := g.room.filter (· ≠ id) }
  have h₁ : g₁.sockets.get id = some { s with connected := false } := hget
  have hgone : (g₁.modify id Socket.wiped Socket.wiped_id).sockets =
      (g.modify id Socket.gone Socket.gone_id).sockets := by
    have hm := congrArg sockets (modify_modify g id (fun t => { t with connected := false })
      Socket.wiped (fun _ => rfl) Socket.wiped_id)
    exact hm
  have hroom : g₁.room.filter (· ≠ id) = g.room.filter (· ≠ id) := by
    simp [g₁, List.filter_filter]
  refine (handleDisconnect_eq h₁).trans ?_
  rw [cleanupSocket_eq h₁, cleanupSocket_eq h]
  refine EventsGateway.ext rfl rfl rfl rfl hgone rfl hroom ?_ ?_ ?_ ?_ ?_ ?_ ?_ ?_ ?_ ?_ ?_ ?_ <;>
    rfl

theorem get_wiped (h : g.sockets.get id = some s) (j : SocketId) :
    (g.cleanupSocket id).sockets.get j =
      if j = id then some s.wiped else g.sockets.get j := by
  rw [cleanupSocket_eq h]
  show (g.modify id Socket.wiped Socket.wiped_id).sockets.get j = _
  rw [get_modify]
  split
  next hj => rw [hj, h]; rfl
  next => rfl

theorem get_gone (h : g.sockets.get id = some s) (j : SocketId) :
    (g.leaveNamespace id).sockets.get j =
      if j = id then some s.gone else g.sockets.get j := by
  rw [leaveNamespace_eq h]
  show (g.modify id Socket.gone Socket.gone_id).sockets.get j = _
  rw [get_modify]
  split
  next hj => rw [hj, h]; rfl
  next => rfl

theorem get_closeRaw (g : EventsGateway) (id e : EngineId) :
    (g.closeRaw id).raws.get e =
      if e = id then (g.raws.get e).map fun r => { r with isOpen := false }
      else g.raws.get e := by
  unfold closeRaw
  rw [Table.get_modify]
  cases h : g.raws.get e with
  | none => simp
  | some r =>
      have he : r.id = e := Table.get_key h
      by_cases hid : e = id
      · simp [he, hid]
      · simp [he, hid]

theorem get_released (t : Table Reservation.id) (id e : EngineId) :
    (t.remove fun r => r.id = id).get e = if e = id then none else t.get e := by
  rw [Table.get_remove]
  cases h : t.get e with
  | none => simp
  | some r =>
      have he : r.id = e := Table.get_key h
      by_cases hid : e = id
      · simp [he, hid]
      · simp [he, hid]

/-- Only the reservation of the socket's own connection goes. -/
theorem get_reservations_cleanup (h : g.sockets.get id = some s) {e : EngineId}
    (he : e ≠ s.engineId) :
    (g.cleanupSocket id).reservations.get e = g.reservations.get e := by
  rw [cleanupSocket_eq h]
  dsimp only
  split
  · rfl
  · rw [get_released, if_neg he]

end EventsGateway

/-! ## §2. What any number of cleanups may change. -/

/-- A socket before and after. -/
structure Socket.Fades (s s' : Socket) : Prop where
  id : s'.id = s.id
  engineId : s'.engineId = s.engineId
  status : s'.status = s.status
  accessToken : s'.accessToken = s.accessToken
  connected : s'.connected = true → s.connected = true
  cleanedUp : s.cleanedUp = true → s'.cleanedUp = true
  principal : s'.principal = s.principal ∨ s'.principal = none ∧ s'.cleanedUp = true

theorem Socket.Fades.refl (s : Socket) : s.Fades s where
  id := rfl
  engineId := rfl
  status := rfl
  accessToken := rfl
  connected := fun h => h
  cleanedUp := fun h => h
  principal := .inl rfl

theorem Socket.Fades.trans {s s' s'' : Socket} (h : s.Fades s') (h' : s'.Fades s'') :
    s.Fades s'' where
  id := h'.id.trans h.id
  engineId := h'.engineId.trans h.engineId
  status := h'.status.trans h.status
  accessToken := h'.accessToken.trans h.accessToken
  connected := fun hc => h.connected (h'.connected hc)
  cleanedUp := fun hc => h'.cleanedUp (h.cleanedUp hc)
  principal := by
    rcases h'.principal with he | hn
    · rw [he]
      exact h.principal.imp_right fun hn => ⟨hn.1, h'.cleanedUp hn.2⟩
    · exact .inr hn

theorem Socket.fades_wiped (s : Socket) : s.Fades s.wiped :=
  ⟨rfl, rfl, rfl, rfl, fun h => h, fun _ => rfl, .inr ⟨rfl, rfl⟩⟩

theorem Socket.fades_gone (s : Socket) : s.Fades s.gone :=
  ⟨rfl, rfl, rfl, rfl, nofun, fun _ => rfl, .inr ⟨rfl, rfl⟩⟩

/-- A raw connection before and after. -/
structure RawConn.Closes (r r' : RawConn) : Prop where
  isOpen : r'.isOpen = true → r.isOpen = true
  authenticated : r'.authenticated = r.authenticated

theorem RawConn.Closes.trans {r r' r'' : RawConn} (h : r.Closes r') (h' : r'.Closes r'') :
    r.Closes r'' :=
  ⟨fun ho => h.isOpen (h'.isOpen ho), h'.authenticated.trans h.authenticated⟩

/-- What cleanups may change. -/
structure Sheds (g g' : EventsGateway) : Prop where
  users : g'.users = g.users
  now : g'.now = g.now
  live : g'.live = g.live
  inFlight : g'.inFlight = g.inFlight
  verifying : g'.verifying = g.verifying
  tick : g'.tick = g.tick
  immediates : g'.immediates = g.immediates
  passes : g'.passes = g.passes
  emissions : g'.emissions = g.emissions
  cache : g'.cachedSnapshot = none ∨
    g'.cachedSnapshot = g.cachedSnapshot ∧ g'.pollGeneration = g.pollGeneration
  room : g'.room.Sublist g.room
  reservations : g'.reservations.rows.Sublist g.reservations.rows
  sockets : ∀ j, Option.Rel Socket.Fades (g.sockets.get j) (g'.sockets.get j)
  raws : ∀ e, Option.Rel RawConn.Closes (g.raws.get e) (g'.raws.get e)

namespace Sheds

open EventsGateway

variable {g g' g'' : EventsGateway}

theorem refl (g : EventsGateway) : Sheds g g where
  users := rfl
  now := rfl
  live := rfl
  inFlight := rfl
  verifying := rfl
  tick := rfl
  immediates := rfl
  passes := rfl
  emissions := rfl
  cache := .inr ⟨rfl, rfl⟩
  room := .refl _
  reservations := .refl _
  sockets := fun j => by cases g.sockets.get j <;> constructor; exact Socket.Fades.refl _
  raws := fun e => by cases g.raws.get e <;> constructor; exact ⟨fun h => h, rfl⟩

theorem rel_before {α : Type} {R : α → α → Prop} {o o' : Option α} {b : α}
    (h : Option.Rel R o o') (hb : o' = some b) : ∃ a, o = some a ∧ R a b := by
  subst hb
  cases h with
  | some hr => exact ⟨_, rfl, hr⟩

theorem rel_after {α : Type} {R : α → α → Prop} {o o' : Option α} {a : α}
    (h : Option.Rel R o o') (ha : o = some a) : ∃ b, o' = some b ∧ R a b := by
  subst ha
  cases h with
  | some hr => exact ⟨_, rfl, hr⟩

theorem rel_trans {α : Type} {R : α → α → Prop} (hR : ∀ {a b c}, R a b → R b c → R a c)
    {o o' o'' : Option α} (h : Option.Rel R o o') (h' : Option.Rel R o' o'') :
    Option.Rel R o o'' := by
  cases h with
  | none => exact h'
  | some hab => cases h' with | some hbc => exact .some (hR hab hbc)

/-- A socket, before. -/
theorem socket_before (h : Sheds g g') {j : SocketId} {s' : Socket}
    (hs : g'.sockets.get j = some s') : ∃ s, g.sockets.get j = some s ∧ s.Fades s' :=
  rel_before (h.sockets j) hs

/-- A socket, after. -/
theorem socket_after (h : Sheds g g') {j : SocketId} {s : Socket}
    (hs : g.sockets.get j = some s) : ∃ s', g'.sockets.get j = some s' ∧ s.Fades s' :=
  rel_after (h.sockets j) hs

theorem raw_before (h : Sheds g g') {e : EngineId} {r' : RawConn}
    (hr : g'.raws.get e = some r') : ∃ r, g.raws.get e = some r ∧ r.Closes r' :=
  rel_before (h.raws e) hr

theorem raw_after (h : Sheds g g') {e : EngineId} {r : RawConn}
    (hr : g.raws.get e = some r) : ∃ r', g'.raws.get e = some r' ∧ r.Closes r' :=
  rel_after (h.raws e) hr

theorem reservation_before (h : Sheds g g') {e : EngineId} {r : Reservation}
    (hr : g'.reservations.get e = some r) : g.reservations.get e = some r := by
  obtain ⟨hmem, hid⟩ := Table.get_eq_some.mp hr
  exact Table.get_eq_some.mpr ⟨h.reservations.subset hmem, hid⟩

theorem trans (h : Sheds g g') (h' : Sheds g' g'') : Sheds g g'' where
  users := h'.users.trans h.users
  now := h'.now.trans h.now
  live := h'.live.trans h.live
  inFlight := h'.inFlight.trans h.inFlight
  verifying := h'.verifying.trans h.verifying
  tick := h'.tick.trans h.tick
  immediates := h'.immediates.trans h.immediates
  passes := h'.passes.trans h.passes
  emissions := h'.emissions.trans h.emissions
  cache := by
    rcases h'.cache with hn | ⟨hc, hg⟩
    · exact .inl hn
    · rw [hc, hg]
      exact h.cache
  room := h'.room.trans h.room
  reservations := h'.reservations.trans h.reservations
  sockets := fun j => rel_trans (R := Socket.Fades) .trans (h.sockets j) (h'.sockets j)
  raws := fun e => rel_trans (R := RawConn.Closes) .trans (h.raws e) (h'.raws e)

/-- Over a list. -/
theorem foldl {α : Type} {f : EventsGateway → α → EventsGateway}
    (hf : ∀ g a, Sheds g (f g a)) (l : List α) (g : EventsGateway) : Sheds g (l.foldl f g) := by
  induction l generalizing g with
  | nil => exact refl g
  | cons a l ih => exact (hf g a).trans (ih (f g a))

/-- A change of one socket. -/
theorem modified (g : EventsGateway) (id : SocketId) (f : Socket → Socket)
    (hf : ∀ s, (f s).id = s.id) (hfades : ∀ s : Socket, s.Fades (f s)) (j : SocketId) :
    Option.Rel Socket.Fades (g.sockets.get j) ((g.modify id f hf).sockets.get j) := by
  rw [get_modify]
  cases g.sockets.get j with
  | none => split <;> exact .none
  | some s =>
      split
      · exact .some (hfades s)
      · exact .some (.refl s)

theorem closed (g : EventsGateway) (id e : EngineId) :
    Option.Rel RawConn.Closes (g.raws.get e) ((g.closeRaw id).raws.get e) := by
  rw [get_closeRaw]
  cases g.raws.get e with
  | none => split <;> exact .none
  | some r =>
      split
      · exact .some ⟨nofun, rfl⟩
      · exact .some ⟨fun h => h, rfl⟩

theorem closeRaw (g : EventsGateway) (id : EngineId) : Sheds g (g.closeRaw id) :=
  { refl g with raws := closed g id }

theorem release (g : EventsGateway) (id : EngineId) : Sheds g (g.release id).2 := by
  rw [release_eq]
  exact { refl g with reservations := List.filter_sublist }

theorem cleanupSocket (g : EventsGateway) (id : SocketId) : Sheds g (g.cleanupSocket id) := by
  cases h : g.sockets.get id with
  | none =>
      rw [EventsGateway.cleanupSocket, h]
      exact refl g
  | some s =>
      rw [cleanupSocket_eq h]
      refine { refl g with
        cache := ?_, room := List.filter_sublist, reservations := ?_
        sockets := modified g id Socket.wiped Socket.wiped_id Socket.fades_wiped }
      · dsimp only
        split
        · exact .inl rfl
        · exact .inr ⟨rfl, rfl⟩
      · dsimp only
        split
        · exact .refl _
        · exact List.filter_sublist

theorem leaveNamespace (g : EventsGateway) (id : SocketId) : Sheds g (g.leaveNamespace id) := by
  cases h : g.sockets.get id with
  | none =>
      have hget : (g.modify id fun t => { t with connected := false }).sockets.get id = none := by
        rw [get_modify, if_pos rfl, h]
        rfl
      unfold EventsGateway.leaveNamespace handleDisconnect
      dsimp only
      rw [hget]
      refine { refl g with
        room := List.filter_sublist
        sockets := modified g id (fun t => { t with connected := false }) (fun _ => rfl) ?_ }
      exact fun s => { Socket.Fades.refl s with connected := nofun }
  | some s =>
      rw [leaveNamespace_eq h]
      refine { cleanupSocket g id with
        sockets := modified g id Socket.gone Socket.gone_id Socket.fades_gone
        raws := ?_ }
      intro e
      dsimp only
      split
      · exact (refl g).raws e
      · exact closed g s.engineId e

theorem disconnect (g : EventsGateway) (id : SocketId) : Sheds g (g.disconnect id) := by
  unfold EventsGateway.disconnect
  split
  · exact refl g
  · split
    · exact (foldl leaveNamespace _ g).trans (closeRaw _ _)
    · exact refl g

theorem disconnectSilent (g : EventsGateway) (id : SocketId) : Sheds g (g.disconnectSilent id) :=
  (cleanupSocket g id).trans (disconnect _ id)

end Sheds

end MinePanel.Gateway
