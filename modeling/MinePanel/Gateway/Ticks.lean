/-
  MinePanel.Gateway.Ticks
  ───────────────────────
  **A TICK KEEPS THE BOOKS.**

  What the invariant does not read may change: `Alike`.  A tick changes nothing
  else, except where its revalidation disconnects somebody.  On the way, what
  `revalidateAdmins` starts with: every member of the room is in a group, under
  its own token (`revalidateAdmins_spec`).
-/
import MinePanel.Gateway.Invariant

namespace MinePanel.Gateway

open MinePanel.Db MinePanel.Lib EventsGateway

/-! ## §1. What the invariant does not read. -/

/-- Two sockets that differ in their timers, or in how far they are. -/
structure Socket.Alike (s s' : Socket) : Prop where
  engineId : s'.engineId = s.engineId
  connected : s'.connected = s.connected
  status : s.status ≠ .pending → s'.status ≠ .pending
  principal : s'.principal = s.principal
  accessToken : s'.accessToken = s.accessToken
  cleanedUp : s'.cleanedUp = s.cleanedUp

theorem Socket.Alike.refl (s : Socket) : s.Alike s := ⟨rfl, rfl, fun h => h, rfl, rfl, rfl⟩

theorem Socket.Alike.trans {s s' s'' : Socket} (h : s.Alike s') (h' : s'.Alike s'') :
    s.Alike s'' where
  engineId := h'.engineId.trans h.engineId
  connected := h'.connected.trans h.connected
  status := fun hs => h'.status (h.status hs)
  principal := h'.principal.trans h.principal
  accessToken := h'.accessToken.trans h.accessToken
  cleanedUp := h'.cleanedUp.trans h.cleanedUp

/-- Two states that the invariant cannot tell apart. -/
structure Alike (g g' : EventsGateway) : Prop where
  raws : g'.raws = g.raws
  reservations : g'.reservations = g.reservations
  tracked : g'.tracked = g.tracked
  room : g'.room = g.room
  adminCount : g'.adminCount = g.adminCount
  live : g'.live = g.live
  interval : g'.interval = g.interval
  verifying : g'.verifying = g.verifying
  sockets : ∀ j, Option.Rel Socket.Alike (g.sockets.get j) (g'.sockets.get j)

variable {g g' g'' : EventsGateway} {id : SocketId} {s : Socket} {C : SocketId → Prop}
  {F E : EngineId → Prop} {N : Option SocketId} {Q : Verification → Prop} {S : Settings}

theorem Alike.refl (g : EventsGateway) : Alike g g where
  raws := rfl
  reservations := rfl
  tracked := rfl
  room := rfl
  adminCount := rfl
  live := rfl
  interval := rfl
  verifying := rfl
  sockets := fun j => by cases g.sockets.get j <;> constructor; exact .refl _

/-- A socket changes in what the invariant does not read. -/
theorem Alike.modify (g : EventsGateway) (id : SocketId) (f : Socket → Socket)
    (hf : ∀ s, (f s).id = s.id) (ha : ∀ s : Socket, s.Alike (f s)) :
    Alike g (g.modify id f hf) :=
  { Alike.refl g with
    sockets := fun j => by
      rw [get_modify]
      cases g.sockets.get j with
      | none => split <;> exact .none
      | some s =>
          split
          · exact .some (ha s)
          · exact .some (.refl s) }

theorem Alike.before (h : Alike g g') {j : SocketId} {s' : Socket}
    (hs : g'.sockets.get j = some s') : ∃ s, g.sockets.get j = some s ∧ s.Alike s' :=
  Sheds.rel_before (h.sockets j) hs

theorem Counted.alike (h : Counted g) (ha : Alike g g') : Counted g' where
  nodup := by
    rw [ha.room]
    exact h.nodup
  count := by
    rw [ha.room, ha.adminCount]
    exact h.count
  member := by
    intro j
    have hp : g'.principalOf j = g.principalOf j := by
      have hrel := ha.sockets j
      unfold principalOf
      cases hj : g.sockets.get j with
      | none =>
          rw [hj] at hrel
          generalize g'.sockets.get j = o at hrel
          cases hrel
          rfl
      | some s =>
          obtain ⟨s', hs', hsame⟩ := Sheds.rel_after hrel hj
          rw [hs']
          exact hsame.principal
    rw [ha.room, hp]
    exact h.member j
  held := by
    intro j s' p hj hp
    obtain ⟨s, hs, hsame⟩ := ha.before hj
    rw [hsame.connected, hsame.cleanedUp, hsame.accessToken]
    obtain ⟨hc, hu, ht, he, hst⟩ := h.held hs (hsame.principal.symm.trans hp)
    exact ⟨hc, hu, ht, he, hsame.status hst⟩

theorem Paired.alike (h : Paired E g) (ha : Alike g g') : Paired E g' where
  alone := by
    intro i j s' t' hi hj hc hc' he
    obtain ⟨s, hs, hsame⟩ := ha.before hi
    obtain ⟨t, ht, hsame'⟩ := ha.before hj
    rw [hsame.engineId] at he ⊢
    exact h.alone hs ht (hsame.connected.symm.trans hc)
      (hsame'.connected.symm.trans hc') (he.trans hsame'.engineId)
  claimed := by
    intro j s' r hj hc hr
    obtain ⟨s, hs, hsame⟩ := ha.before hj
    rw [ha.reservations, hsame.engineId] at hr
    exact h.claimed hs (hsame.connected.symm.trans hc) hr
  claims := by
    rw [ha.reservations]
    exact h.claims
  cap := by
    rw [ha.reservations]
    exact h.cap
  once := by
    rw [ha.verifying]
    exact h.once
  pending := by
    rw [ha.verifying]
    intro entry hentry
    obtain ⟨s, hs, hp, hst⟩ := h.pending entry hentry
    obtain ⟨s', hs', hsame⟩ := Sheds.rel_after (ha.sockets entry.1) hs
    exact ⟨s', hs', hsame.principal.trans hp, hsame.status hst⟩

theorem Loose.alike (h : Loose Q C F E N g) (ha : Alike g g') : Loose Q C F E N g' where
  counted := h.counted.alike ha
  polled := by
    unfold Polled
    rw [ha.live, ha.interval, ha.room]
    exact h.polled
  idle := by
    unfold Idle
    rw [ha.live, ha.room]
    exact h.idle
  tracked := by
    intro j s' hj hc hl
    obtain ⟨s, hs, hsame⟩ := ha.before hj
    rw [ha.tracked]
    exact h.tracked j s hs (hsame.connected.symm.trans hc) (ha.live.symm.trans hl)
  flushed := by
    intro j s' hj hu hc hl
    obtain ⟨s, hs, hsame⟩ := ha.before hj
    exact h.flushed j s hs (hsame.cleanedUp.symm.trans hu) (hsame.connected.symm.trans hc)
      (ha.live.symm.trans hl)
  guarded :=
    { raw := by
        intro j s' hj
        obtain ⟨s, hs, hsame⟩ := ha.before hj
        rw [ha.raws, hsame.engineId, hsame.principal, hsame.connected]
        exact h.guarded.raw hs
      reserved := by
        rw [ha.raws, ha.reservations, ha.live]
        exact h.guarded.reserved }
  paired := h.paired.alike ha
  sourced :=
    { pending := by
        rw [ha.verifying]
        exact h.sourced.pending
      principal := by
        intro j s' p hj hp
        obtain ⟨s, hs, hsame⟩ := ha.before hj
        rw [hsame.accessToken]
        exact h.sourced.principal hs (hsame.principal.symm.trans hp) }

/-! ## §2. Ticks. -/

/-- The socket is in one of the groups. -/
def InGroups (groups : List (String × List SocketId)) (id : SocketId) : Prop :=
  ∃ group ∈ groups, id ∈ group.2

/-- Every socket is in the group of its token. -/
def Grouped (g : EventsGateway) (groups : List (String × List SocketId)) : Prop :=
  ∀ group ∈ groups, ∀ id ∈ group.2, ∃ s, g.sockets.get id = some s ∧
    s.accessToken = some group.1 ∧ s.principal.isSome = true

/-- A member of the room is connected and has a token. -/
theorem Counted.of_mem (h : Counted g) (hid : id ∈ g.room) :
    ∃ s p token, g.sockets.get id = some s ∧ s.principal = some p ∧ s.connected = true ∧
      s.cleanedUp = false ∧ s.accessToken = some token ∧ isEligibleForMetrics p = true := by
  obtain ⟨p, hp⟩ := Option.isSome_iff_exists.mp ((h.member id).mp hid)
  obtain ⟨s, hs, hsp⟩ := Option.bind_eq_some_iff.mp hp
  obtain ⟨hc, hu, ht, he, _⟩ := h.held hs hsp
  obtain ⟨token, ht⟩ := Option.isSome_iff_exists.mp ht
  exact ⟨s, p, token, hs, hsp, hc, hu, ht, he⟩

/-- The first loop of `revalidateAdmins` disconnects nobody, and loses nobody. -/
theorem groupByToken_spec (h : Counted g) (l : List SocketId)
    (groups : List (String × List SocketId)) (hg : Grouped g groups) :
    ∃ groups', g.groupByToken groups l = (g, groups') ∧ Grouped g groups' ∧
      (∀ j, InGroups groups j → InGroups groups' j) ∧
      ∀ j ∈ l, j ∈ g.room → InGroups groups' j := by
  induction l generalizing groups with
  | nil => exact ⟨groups, rfl, hg, fun _ hj => hj, nofun⟩
  | cons id l ih =>
      -- whatever the groups are after `id`
      have hrest : ∀ groups₁, Grouped g groups₁ → (∀ j, InGroups groups j → InGroups groups₁ j) →
          (id ∈ g.room → InGroups groups₁ id) →
          ∃ groups', g.groupByToken groups₁ l = (g, groups') ∧ Grouped g groups' ∧
            (∀ j, InGroups groups j → InGroups groups' j) ∧
            ∀ j ∈ id :: l, j ∈ g.room → InGroups groups' j := by
        intro groups₁ hg₁ hold₁ hid₁
        obtain ⟨groups', heq, hg', hold, hnew⟩ := ih groups₁ hg₁
        refine ⟨groups', heq, hg', fun j hj => hold j (hold₁ j hj), ?_⟩
        intro j hj hroom
        rcases List.mem_cons.mp hj with rfl | hj
        · exact hold j (hid₁ hroom)
        · exact hnew j hj hroom
      unfold groupByToken
      by_cases hid : id ∈ g.room
      · obtain ⟨s, p, token, hs, hp, hc, _, ht, _⟩ := h.of_mem hid
        rw [if_neg (not_not.mpr hid), hs, Option.filter_some, if_pos hc]
        dsimp only
        rw [ht]
        dsimp only
        split
        next hany =>
          -- the group of its token gets it
          refine hrest _ ?_ ?_ ?_
          · intro group hgroup j hj
            obtain ⟨group₀, hgroup₀, rfl⟩ := List.mem_map.mp hgroup
            split at hj
            next htoken =>
              rw [if_pos htoken]
              rcases List.mem_append.mp hj with hj | hj
              · exact htoken ▸ hg group₀ hgroup₀ j hj
              · rw [List.mem_singleton.mp hj]
                exact ⟨s, hs, ht, hp ▸ rfl⟩
            next htoken =>
              rw [if_neg htoken]
              exact hg group₀ hgroup₀ j hj
          · rintro j ⟨group, hgroup, hj⟩
            refine ⟨_, List.mem_map_of_mem hgroup, ?_⟩
            split
            · exact List.mem_append_left _ hj
            · exact hj
          · intro _
            obtain ⟨group, hgroup, htoken⟩ := List.any_eq_true.mp hany
            refine ⟨_, List.mem_map_of_mem hgroup, ?_⟩
            rw [if_pos (beq_iff_eq.mp htoken)]
            exact List.mem_append_right _ (List.mem_singleton_self id)
        next =>
          refine hrest _ ?_ ?_ ?_
          · intro group hgroup j hj
            rcases List.mem_append.mp hgroup with hgroup | hgroup
            · exact hg group hgroup j hj
            · rw [List.mem_singleton.mp hgroup] at hj ⊢
              rw [List.mem_singleton.mp hj]
              exact ⟨s, hs, ht, hp ▸ rfl⟩
          · rintro j ⟨group, hgroup, hj⟩
            exact ⟨group, List.mem_append_left _ hgroup, hj⟩
          · exact fun _ => ⟨_, List.mem_append_right _ (List.mem_singleton_self _),
              List.mem_singleton_self id⟩
      · rw [if_pos hid]
        exact hrest groups hg (fun _ hj => hj) fun hroom => absurd hroom hid

/-- A new pass. -/
def EventsGateway.newPass (g : EventsGateway) (tick : Tick) : Tick :=
  { tick with pass := ⟨g.passes, [], [], []⟩ }

/-- `revalidateAdmins` returns `false` at once, or it has every member of the room
in a group. -/
theorem revalidateAdmins_spec (S : Settings) (h : Counted g) (tick : Tick) :
    g.revalidateAdmins S tick =
        { g with passes := g.passes + 1 }.await (g.newPass tick) (.returning false) ∨
      ∃ groups, tick.generation = g.pollGeneration ∧ g.live = true ∧ Grouped g groups ∧
        (∀ j ∈ g.room, InGroups groups j) ∧
        g.revalidateAdmins S tick =
          { g with passes := g.passes + 1 }.nextGroup S (g.newPass tick) groups := by
  have h₁ : Counted { g with passes := g.passes + 1 } := { h with }
  obtain ⟨groups, heq, hgrouped, _, hall⟩ := groupByToken_spec h₁ g.room [] nofun
  unfold EventsGateway.revalidateAdmins
  dsimp only
  rw [heq]
  split
  next => exact .inl rfl
  next hgo =>
    have hgen : tick.generation = g.pollGeneration := not_not.mp fun hne => hgo (.inl hne)
    have hlive : g.live = true := Bool.of_not_eq_false fun hdead => hgo (.inr hdead)
    split
    next => exact .inl rfl
    next =>
      cases groups with
      | nil => exact .inl rfl
      | cons group rest =>
          exact .inr ⟨group :: rest, hgen, hlive, hgrouped, fun j hj => hall j hj hj, rfl⟩

theorem Alike.trans (h : Alike g g') (h' : Alike g' g'') : Alike g g'' where
  raws := h'.raws.trans h.raws
  reservations := h'.reservations.trans h.reservations
  tracked := h'.tracked.trans h.tracked
  room := h'.room.trans h.room
  adminCount := h'.adminCount.trans h.adminCount
  live := h'.live.trans h.live
  interval := h'.interval.trans h.interval
  verifying := h'.verifying.trans h.verifying
  sockets := fun j => Sheds.rel_trans (R := Socket.Alike) .trans (h.sockets j) (h'.sockets j)

theorem Alike.nextGroup (g : EventsGateway) (tick : Tick) (groups : List (String × List SocketId)) :
    Alike g (g.nextGroup S tick groups) := by
  unfold EventsGateway.nextGroup
  split <;> exact { Alike.refl g with }

theorem Alike.revalidateAdmins (h : Counted g) (tick : Tick) :
    Alike g (g.revalidateAdmins S tick) := by
  have hpass : Alike g { g with passes := g.passes + 1 } := { Alike.refl g with }
  obtain heq | ⟨groups, _, _, _, _, heq⟩ := revalidateAdmins_spec S h tick
  · rw [heq]
    exact { Alike.refl g with }
  · rw [heq]
    exact hpass.trans (.nextGroup _ _ _)

theorem Alike.startTick (h : Counted g) (immediate : Bool) : Alike g (g.startTick S immediate) := by
  unfold EventsGateway.startTick
  split
  · exact .refl g
  · have hflight : Alike g { g with inFlight := true } := { Alike.refl g with }
    have hcounted : Counted { g with inFlight := true } := { h with }
    exact hflight.trans (.revalidateAdmins hcounted _)

theorem Alike.endTick (g : EventsGateway) : Alike g g.endTick := by
  unfold EventsGateway.endTick
  dsimp only
  split <;> exact { Alike.refl g with }

theorem Alike.resumeTick (g : EventsGateway) (tick : Tick) (value : Bool) :
    Alike g (g.resumeTick tick value) := by
  unfold EventsGateway.resumeTick
  split
  · have hcache : Alike g { g with cachedSnapshot := none } := { Alike.refl g with }
    exact hcache.trans (.endTick _)
  · split
    · exact { Alike.refl g with }
    next snapshot began _ =>
      have hsent : Alike g { g with
          cachedSnapshot := some ⟨snapshot, g.now, began⟩
          emissions := ⟨snapshot, began, g.pollGeneration, some (g.room, tick.pass)⟩
            :: g.emissions } := { Alike.refl g with }
      exact hsent.trans (.endTick _)

theorem Alike.collected (h : Counted g) (tick : Tick) (snapshot : Option SystemStats) :
    Alike g (g.collected S tick snapshot) := by
  unfold EventsGateway.collected
  split
  · have hcache : Alike g { g with cachedSnapshot := none } := { Alike.refl g with }
    exact hcache.trans (.endTick _)
  · split
    · exact .endTick g
    · exact .revalidateAdmins h _

/-- Several sockets are disconnected. -/
theorem Loose.silencedAll (h : Inv Q g) (l : List SocketId) :
    Inv Q (l.foldl EventsGateway.disconnectSilent g) := by
  induction l generalizing g with
  | nil => exact h
  | cons id l ih => exact ih (h.silenced id)

theorem Loose.resumeRevalidation (h : Inv Q g) (tick : Tick) (answer : Option (Principal × User))
    (sockets : List SocketId) (rest : List (String × List SocketId)) :
    Inv Q (g.resumeRevalidation S tick answer sockets rest) := by
  unfold EventsGateway.resumeRevalidation
  split
  · exact h.alike (.nextGroup _ _ _)
  · exact (h.silencedAll sockets).alike (.nextGroup _ _ _)

end MinePanel.Gateway
