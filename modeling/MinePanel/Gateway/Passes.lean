/-
  MinePanel.Gateway.Passes
  ────────────────────────
  **A TICK IN FLIGHT.**

  A tick in flight, across every event that comes while it waits.  `Flying` says
  what holds at each `await`:

    * in a pass of `revalidateAdmins`, every member of the room was verified by
      it, joined since it took its list, or is in a group that is still to come;
    * when the pass has returned `true`, nobody is to come, and until the tick
      goes on only continuations of promises run, which cannot stop the polling;
    * while the snapshot is collected, its generation is the tick's.

  `Ticking` adds the cache and everything that was sent.  What comes beside a
  tick is an `Ebbs`, or a socket that joins and is written down.
-/
import MinePanel.Gateway.Accounting

namespace MinePanel.Gateway

open MinePanel.Db MinePanel.Lib EventsGateway

/-! ## §1. A tick in flight. -/

/-- The token that a socket was admitted with; it keeps it. -/
def KnownBy (g : EventsGateway) (j : SocketId) (token : String) : Prop :=
  ∃ s, g.sockets.get j = some s ∧ s.accessToken = some token ∧
    (s.principal.isSome = true ∨ s.cleanedUp = true)

/-- The socket was cleaned up. -/
def IsCleaned (g : EventsGateway) (j : SocketId) : Prop :=
  ∃ s, g.sockets.get j = some s ∧ s.cleanedUp = true

/-- The pass has verified the socket, or the socket has joined since. -/
def Pass.Accounts (pass : Pass) (j : SocketId) : Prop :=
  (∃ found, (j, found) ∈ pass.verified) ∨ ∃ p, (j, p) ∈ pass.joined

/-- Every member of the room is accounted for, or still to come. -/
structure Covered (g : EventsGateway) (pass : Pass) (groups : List (String × List SocketId)) :
    Prop where
  member : ∀ j ∈ g.room, pass.Accounts j ∨ InGroups groups j
  token : ∀ group ∈ groups, ∀ j ∈ group.2, KnownBy g j group.1

/-- What a pass is known by: its number, and the snapshot before it. -/
abbrev PassKey := Nat × Option (SystemStats × Nat)

/-- The key of the pass of a tick. -/
def Tick.key (t : Tick) : PassKey := (t.pass.number, t.snapshot)

/-- What a pass has written down is so: `V` of the verifications, `J` of those who
joined, each with the `verify` that admitted it. -/
structure Recorded (V : PassKey → Verification → Prop)
    (J : PassKey → SocketId → Verification → Principal → Prop)
    (g : EventsGateway) (key : PassKey) (pass : Pass) : Prop where
  verified : ∀ j found, (j, found) ∈ pass.verified → ∃ v, V key v ∧
    v.answer = some (some found) ∧ isEligibleForMetrics found.1 = true ∧ KnownBy g j v.token
  failed : ∀ j ∈ pass.failed, IsCleaned g j
  joined : ∀ j p, (j, p) ∈ pass.joined → ∃ v, J key j v p ∧ KnownBy g j v.token

/-- Where a tick waits. -/
def AtStage (V : PassKey → Verification → Prop) (g : EventsGateway) (t : Tick) : Prop :=
  match t.stage with
  | .revalidating v sockets rest => V t.key v ∧ Covered g t.pass ((v.token, sockets) :: rest)
  | .returning true =>
      t.generation = g.pollGeneration ∧ g.live = true ∧ g.room ≠ [] ∧ Covered g t.pass []
  | .returning false => True
  | .collecting => t.began = t.generation

/-- A tick in flight. -/
structure Flying (V : PassKey → Verification → Prop)
    (J : PassKey → SocketId → Verification → Principal → Prop)
    (g : EventsGateway) (t : Tick) : Prop where
  snapshot : ∀ x, t.snapshot = some x → x.2 = t.generation
  recorded : Recorded V J g t.key t.pass
  stage : AtStage V g t

/-- What was sent: nothing old, and to the room only after a pass that accounts
for all of it. -/
structure Emitted (V : PassKey → Verification → Prop)
    (J : PassKey → SocketId → Verification → Principal → Prop)
    (g : EventsGateway) (sent : Emission) : Prop where
  current : sent.began = sent.generation
  room : ∀ room pass, sent.broadcast = some (room, pass) →
    (∀ j ∈ room, pass.Accounts j) ∧ (∀ j ∈ pass.failed, j ∉ room) ∧
      Recorded V J g (pass.number, some (sent.snapshot, sent.began)) pass

/-- The cache, and what was sent. -/
structure Served (V : PassKey → Verification → Prop)
    (J : PassKey → SocketId → Verification → Principal → Prop) (g : EventsGateway) : Prop where
  cached : ∀ c, g.cachedSnapshot = some c → c.began = g.pollGeneration
  emitted : ∀ sent ∈ g.emissions, Emitted V J g sent

/-- The cache, what was sent, and the tick in flight. -/
structure Ticking (V : PassKey → Verification → Prop)
    (J : PassKey → SocketId → Verification → Principal → Prop)
    (g : EventsGateway) : Prop extends Served V J g where
  flying : ∀ t, g.tick = some t → Flying V J g t

variable {g g' g'' : EventsGateway} {id : SocketId} {s : Socket} {S : Settings}
  {V V' : PassKey → Verification → Prop}
  {J J' : PassKey → SocketId → Verification → Principal → Prop}

/-! ## §2. What happens beside a tick. -/

/-- A step that a tick in flight does not notice: the room may shrink, sockets may
fade, and the cache goes with its generation. -/
structure Ebbs (g g' : EventsGateway) : Prop where
  tick : g'.tick = g.tick
  emissions : g'.emissions = g.emissions
  cache : g'.cachedSnapshot = none ∨
    g'.cachedSnapshot = g.cachedSnapshot ∧ g'.pollGeneration = g.pollGeneration
  room : ∀ j ∈ g'.room, j ∈ g.room
  known : ∀ {j token}, KnownBy g j token → KnownBy g' j token
  cleaned : ∀ {j}, IsCleaned g j → IsCleaned g' j

/-- The polling goes on, if anybody is in the room. -/
def Quiet (g g' : EventsGateway) : Prop :=
  g.room ≠ [] → g'.live = g.live ∧ g'.pollGeneration = g.pollGeneration ∧ g'.room ≠ []

theorem Ebbs.of_sheds (h : Sheds g g') : Ebbs g g' where
  tick := h.tick
  emissions := h.emissions
  cache := h.cache
  room := fun _ hj => h.room.subset hj
  known := by
    rintro j token ⟨s, hs, ht, hin⟩
    obtain ⟨s', hs', hf⟩ := h.socket_after hs
    refine ⟨s', hs', hf.accessToken.trans ht, ?_⟩
    rcases hf.principal with he | ⟨_, hu⟩
    · rw [he]
      exact hin.imp_right hf.cleanedUp
    · exact .inr hu
  cleaned := by
    rintro j ⟨s, hs, hu⟩
    obtain ⟨s', hs', hf⟩ := h.socket_after hs
    exact ⟨s', hs', hf.cleanedUp hu⟩

/-- Where the sockets are alike, only the tick's own fields count. -/
theorem Ebbs.of_alike (h : Alike g g') (htick : g'.tick = g.tick)
    (hsent : g'.emissions = g.emissions) (hcache : g'.cachedSnapshot = g.cachedSnapshot)
    (hgen : g'.pollGeneration = g.pollGeneration) : Ebbs g g' where
  tick := htick
  emissions := hsent
  cache := .inr ⟨hcache, hgen⟩
  room := fun _ hj => h.room ▸ hj
  known := by
    rintro j token ⟨s, hs, ht, hin⟩
    obtain ⟨s', hs', hsame⟩ := Sheds.rel_after (h.sockets j) hs
    exact ⟨s', hs', hsame.accessToken.trans ht, by rw [hsame.principal, hsame.cleanedUp]; exact hin⟩
  cleaned := by
    rintro j ⟨s, hs, hu⟩
    obtain ⟨s', hs', hsame⟩ := Sheds.rel_after (h.sockets j) hs
    exact ⟨s', hs', hsame.cleanedUp.trans hu⟩

/-- What a tick does not read may change. -/
theorem Ebbs.of_same (hsockets : g'.sockets = g.sockets) (hroom : g'.room = g.room)
    (htick : g'.tick = g.tick) (hsent : g'.emissions = g.emissions)
    (hcache : g'.cachedSnapshot = g.cachedSnapshot)
    (hgen : g'.pollGeneration = g.pollGeneration) : Ebbs g g' where
  tick := htick
  emissions := hsent
  cache := .inr ⟨hcache, hgen⟩
  room := fun _ hj => hroom ▸ hj
  known := by
    intro j token hk
    unfold KnownBy
    rw [hsockets]
    exact hk
  cleaned := by
    intro j hc
    unfold IsCleaned
    rw [hsockets]
    exact hc

theorem Quiet.of_same (hlive : g'.live = g.live) (hroom : g'.room = g.room)
    (hgen : g'.pollGeneration = g.pollGeneration) : Quiet g g' :=
  fun hne => ⟨hlive, hgen, hroom ▸ hne⟩

theorem Ebbs.trans (h : Ebbs g g') (h' : Ebbs g' g'') : Ebbs g g'' where
  tick := h'.tick.trans h.tick
  emissions := h'.emissions.trans h.emissions
  cache := by
    rcases h'.cache with hn | ⟨hc, hg⟩
    · exact .inl hn
    · rw [hc, hg]
      exact h.cache
  room := fun j hj => h.room j (h'.room j hj)
  known := fun hk => h'.known (h.known hk)
  cleaned := fun hc => h'.cleaned (h.cleaned hc)

theorem Recorded.mono {key : PassKey} {pass : Pass} (h : Recorded V J g key pass)
    (hknown : ∀ {j token}, KnownBy g j token → KnownBy g' j token)
    (hcleaned : ∀ {j}, IsCleaned g j → IsCleaned g' j) (hV : ∀ key v, V key v → V' key v)
    (hJ : ∀ key j v p, J key j v p → J' key j v p) : Recorded V' J' g' key pass where
  verified := by
    intro j found hmem
    obtain ⟨v, hv, ha, he, hk⟩ := h.verified j found hmem
    exact ⟨v, hV key v hv, ha, he, hknown hk⟩
  failed := fun j hj => hcleaned (h.failed j hj)
  joined := by
    intro j p hp
    obtain ⟨v, hv, hk⟩ := h.joined j p hp
    exact ⟨v, hJ key j v p hv, hknown hk⟩

theorem Emitted.mono {sent : Emission} (h : Emitted V J g sent)
    (hknown : ∀ {j token}, KnownBy g j token → KnownBy g' j token)
    (hcleaned : ∀ {j}, IsCleaned g j → IsCleaned g' j) (hV : ∀ key v, V key v → V' key v)
    (hJ : ∀ key j v p, J key j v p → J' key j v p) : Emitted V' J' g' sent where
  current := h.current
  room := by
    intro room pass hb
    obtain ⟨hall, hfailed, hrec⟩ := h.room room pass hb
    exact ⟨hall, hfailed, hrec.mono hknown hcleaned hV hJ⟩

/-- A tick in flight, while the room shrinks and sockets fade. -/
theorem Flying.beside {t : Tick} (h : Flying V J g t)
    (hroom : ∀ j ∈ g'.room, j ∈ g.room)
    (hknown : ∀ {j token}, KnownBy g j token → KnownBy g' j token)
    (hcleaned : ∀ {j}, IsCleaned g j → IsCleaned g' j)
    (hquiet : t.stage = .returning true → Quiet g g') : Flying V J g' t := by
  refine ⟨h.snapshot, h.recorded.mono hknown hcleaned (fun _ _ hv => hv)
    fun _ _ _ _ hj => hj, ?_⟩
  have hcovered : ∀ {groups}, Covered g t.pass groups → Covered g' t.pass groups :=
    fun hc => ⟨fun j hj => hc.member j (hroom j hj),
      fun group hgroup j hj => hknown (hc.token group hgroup j hj)⟩
  have hstage := h.stage
  unfold AtStage at hstage ⊢
  split
  next v sockets rest hst =>
    rw [hst] at hstage
    exact ⟨hstage.1, hcovered hstage.2⟩
  next hst =>
    -- only a continuation of a promise can have run
    rw [hst] at hstage
    obtain ⟨hgen, hl, hne, hcov⟩ := hstage
    obtain ⟨hlive, hgen', hne'⟩ := hquiet hst hne
    exact ⟨hgen.trans hgen'.symm, hlive.trans hl, hne', hcovered hcov⟩
  next => trivial
  next hst =>
    rw [hst] at hstage
    exact hstage

theorem Ticking.ebbs (h : Ticking V J g) (he : Ebbs g g')
    (hquiet : ∀ t, g.tick = some t → t.stage = .returning true → Quiet g g') :
    Ticking V J g' where
  cached := by
    intro c hc
    rcases he.cache with hn | ⟨hsame, hgen⟩
    · rw [hn] at hc
      cases hc
    · rw [hgen]
      exact h.cached c (hsame ▸ hc)
  emitted := by
    rw [he.emissions]
    exact fun sent hsent => (h.emitted sent hsent).mono he.known he.cleaned
      (fun _ _ hv => hv) fun _ _ _ _ hj => hj
  flying := by
    rw [he.tick]
    intro t ht
    exact (h.flying t ht).beside he.room he.known he.cleaned (hquiet t ht)

/-! ## §3. A continuation cannot stop the polling. -/

/-- Sockets without a principal leave: nobody leaves the room. -/
theorem leaveAll_quiet (l : List SocketId) (h : Counted g)
    (hl : ∀ j ∈ l, ∃ s, g.sockets.get j = some s ∧ s.principal = none) :
    (l.foldl leaveNamespace g).room = g.room ∧
      (l.foldl leaveNamespace g).pollGeneration = g.pollGeneration := by
  induction l generalizing g with
  | nil => exact ⟨rfl, rfl⟩
  | cons i l ih =>
      obtain ⟨s, hs, hp⟩ := hl i (List.mem_cons_self ..)
      have hi : i ∉ g.room := by
        rw [h.member, principalOf, hs]
        simp [hp]
      have hlast : g.isLastAdmin s = false := by
        simp [isLastAdmin, hp]
      have hroom : (g.leaveNamespace i).room = g.room := by
        rw [leaveNamespace_eq hs, cleanupSocket_eq hs]
        exact List.filter_eq_self.mpr fun j hj => by
          have hne : j ≠ i := fun he => hi (he ▸ hj)
          simpa using hne
      have hgen : (g.leaveNamespace i).pollGeneration = g.pollGeneration := by
        rw [leaveNamespace_eq hs, cleanupSocket_eq hs]
        exact if_neg (by simp [hlast])
      obtain ⟨hroom', hgen'⟩ := ih (h.leaveNamespace hs) fun j hj => by
        obtain ⟨t, ht, htp⟩ := hl j (List.mem_cons_of_mem i hj)
        obtain ⟨t', ht', hf⟩ := (Sheds.leaveNamespace g i).socket_after ht
        refine ⟨t', ht', ?_⟩
        rcases hf.principal with he | ⟨hn, _⟩
        · exact he.trans htp
        · exact hn
      exact ⟨hroom'.trans hroom, hgen'.trans hgen⟩

/-- `disconnect` of a socket without a principal, alone on its connection. -/
theorem disconnect_quiet (h : Counted g) (hs : g.sockets.get id = some s)
    (hp : s.principal = none)
    (halone : s.connected = true → ∀ {j t}, g.sockets.get j = some t → t.connected = true →
      t.engineId = s.engineId → j = id) :
    (g.disconnect id).room = g.room ∧ (g.disconnect id).pollGeneration = g.pollGeneration := by
  unfold disconnect
  rw [hs]
  dsimp only
  split
  next hcon =>
    refine leaveAll_quiet (g.socketsOf s.engineId) h ?_
    intro j hj
    obtain ⟨t, ht, rfl⟩ := List.mem_map.mp hj
    obtain ⟨ht, hon⟩ := List.mem_filter.mp ht
    obtain ⟨hc, he⟩ := (Bool.and_eq_true _ _).mp hon
    rw [halone hcon (Table.mem_rows.mp ht) hc (beq_iff_eq.mp he)]
    exact ⟨s, hs, hp⟩
  next => exact ⟨rfl, rfl⟩

/-- `disconnectSilent` of a socket that is not the last administrator, alone on
its connection. -/
theorem disconnectSilent_quiet (h : Counted g) (hs : g.sockets.get id = some s)
    (hlast : g.isLastAdmin s = false)
    (halone : s.connected = true → ∀ {j t}, g.sockets.get j = some t → t.connected = true →
      t.engineId = s.engineId → j = id) :
    (g.disconnectSilent id).room = g.room.filter (· ≠ id) ∧
      (g.disconnectSilent id).pollGeneration = g.pollGeneration := by
  have hs' : (g.cleanupSocket id).sockets.get id = some s.wiped := by
    rw [get_wiped hs, if_pos rfl]
  obtain ⟨hroom, hgen⟩ := disconnect_quiet (h.cleanupSocket hs) hs' rfl fun hcon {j t} hj hc he => by
    obtain ⟨t₀, ht₀, hf⟩ := (Sheds.cleanupSocket g id).socket_before hj
    exact halone hcon ht₀ (hf.connected hc) (hf.engineId.symm.trans he)
  refine ⟨hroom.trans ?_, hgen.trans ?_⟩
  · rw [cleanupSocket_eq hs]
  · rw [cleanupSocket_eq hs]
    exact if_neg (by simp [hlast])

/-- One socket a connection. -/
theorem Paired.alone_on (h : Paired (fun _ => False) g) (hs : g.sockets.get id = some s)
    (hc : s.connected = true) {j : SocketId} {t : Socket} (hj : g.sockets.get j = some t)
    (hcj : t.connected = true) (he : t.engineId = s.engineId) : j = id :=
  (h.alone hj hs hcj hc he).resolve_right not_false

/-- A socket that nobody has authenticated may go at any time. -/
theorem quiet_disconnectSilent (h : Counted g) (hpair : Paired (fun _ => False) g)
    (hp : ∀ s, g.sockets.get id = some s → s.principal = none) :
    Quiet g (g.disconnectSilent id) := by
  intro hroom
  cases hs : g.sockets.get id with
  | none =>
      have hclean : g.cleanupSocket id = g := by
        rw [EventsGateway.cleanupSocket, hs]
      rw [EventsGateway.disconnectSilent, hclean, EventsGateway.disconnect, hs]
      exact ⟨rfl, rfl, hroom⟩
  | some s =>
      have hlast : g.isLastAdmin s = false := by
        simp [isLastAdmin, hp s hs]
      have hid : id ∉ g.room := by
        rw [h.member, principalOf, hs]
        simp [hp s hs]
      obtain ⟨hroom', hgen⟩ := disconnectSilent_quiet h hs hlast fun hc => hpair.alone_on hs hc
      have hsame : g.room.filter (· ≠ id) = g.room :=
        List.filter_eq_self.mpr fun j hj => by
          have hne : j ≠ id := fun he => hid (he ▸ hj)
          simpa using hne
      exact ⟨(Sheds.disconnectSilent g id).live, hgen, by rw [hroom', hsame]; exact hroom⟩

/-- So may one that was just admitted, where somebody else is in the room. -/
theorem quiet_admitted {e : EngineId} {p : Principal} {token : String} (h : Counted g)
    (hpair : Paired (fun _ => False) g) (hs : g.sockets.get id = some s)
    (hp : s.principal = none) (hc : s.connected = true) (hu : s.cleanedUp = false)
    (he : isEligibleForMetrics p = true) (hv : id ∉ g.verifying.map Prod.fst) :
    Quiet g ((g.welcome id e p token).disconnectSilent id) := by
  intro hroom
  have hs' := get_admitted hs e p token id
  rw [if_pos rfl] at hs'
  have h' := h.welcome hs hp hc hu he e token
  have hpair' := hpair.welcome hs hv e p token
  have hid : id ∉ g.room := by
    rw [h.member, principalOf, hs]
    simp [hp]
  have hin : (g.welcome id e p token).room = g.room ++ [id] := if_neg hid
  have hlast : (g.welcome id e p token).isLastAdmin (s.admitted p token) = false := by
    rw [isLastAdmin, h'.count, hin]
    simp [Socket.admitted, hroom]
  obtain ⟨hroom', hgen⟩ := disconnectSilent_quiet h' hs' hlast fun hc => hpair'.alone_on hs' hc
  refine ⟨(Sheds.disconnectSilent _ id).live, hgen, ?_⟩
  rw [hroom', hin]
  obtain ⟨j, hj⟩ := List.exists_mem_of_ne_nil g.room hroom
  have hne : j ≠ id := fun he => hid (he ▸ hj)
  exact List.ne_nil_of_mem (List.mem_filter.mpr ⟨List.mem_append_left _ hj, by simpa using hne⟩)

/-! ## §4. A socket joins. -/

/-- Who joins while a tick is in flight is written down. -/
theorem Ticking.welcome {e : EngineId} {p : Principal} {v : Verification} (h : Ticking V J g)
    (hs : g.sockets.get id = some s) (hp : s.principal = none) (hu : s.cleanedUp = false)
    (hid : id ∉ g.room) (hJ : ∀ t, g.tick = some t → J t.key id v p) :
    Ticking V J (g.welcome id e p v.token) := by
  have hother : ∀ {j t}, g.sockets.get j = some t →
      t.principal.isSome = true ∨ t.cleanedUp = true →
      (g.welcome id e p v.token).sockets.get j = some t := by
    intro j t hj hin
    have hne : j ≠ id := by
      rintro rfl
      rw [hs] at hj
      cases hj
      rw [hp, hu] at hin
      simp at hin
    rw [get_admitted hs, if_neg hne]
    exact hj
  have hknown : ∀ {j tok}, KnownBy g j tok → KnownBy (g.welcome id e p v.token) j tok := by
    rintro j tok ⟨t, ht, htok, hin⟩
    exact ⟨t, hother ht hin, htok, hin⟩
  have hcleaned : ∀ {j}, IsCleaned g j → IsCleaned (g.welcome id e p v.token) j := by
    rintro j ⟨t, ht, hut⟩
    exact ⟨t, hother ht (.inr hut), hut⟩
  have hroom : (g.welcome id e p v.token).room = g.room ++ [id] := if_neg hid
  refine ⟨⟨h.cached, fun sent hsent => (h.emitted sent hsent).mono hknown hcleaned
    (fun _ _ hv => hv) fun _ _ _ _ hj => hj⟩, ?_⟩
  intro t' ht'
  obtain ⟨t, ht, rfl⟩ := Option.map_eq_some_iff.mp ht'
  have ht : g.tick = some t := ht
  have hf := h.flying t ht
  have hrec := hf.recorded.mono hknown hcleaned (fun _ _ hv => hv) fun _ _ _ _ hj => hj
  refine ⟨hf.snapshot, ⟨hrec.verified, hrec.failed, ?_⟩, ?_⟩
  · intro j q hq
    rcases List.mem_cons.mp hq with heq | hq
    · cases heq
      have hnew := get_admitted hs e p v.token id
      rw [if_pos rfl] at hnew
      exact ⟨v, hJ t ht, s.admitted p v.token, hnew, rfl, .inl rfl⟩
    · exact hrec.joined j q hq
  · have hcovered : ∀ {groups}, Covered g t.pass groups → Covered (g.welcome id e p v.token)
        { t.pass with joined := (id, p) :: t.pass.joined } groups := by
      refine fun hc => ⟨?_, fun group hgroup j hj => hknown (hc.token group hgroup j hj)⟩
      intro j hj
      rw [hroom] at hj
      rcases List.mem_append.mp hj with hj | hj
      · rcases hc.member j hj with (hver | ⟨q, hq⟩) | hin
        · exact .inl (.inl hver)
        · exact .inl (.inr ⟨q, List.mem_cons_of_mem _ hq⟩)
        · exact .inr hin
      · rw [List.mem_singleton.mp hj]
        exact .inl (.inr ⟨p, List.mem_cons_self ..⟩)
    have hstage := hf.stage
    unfold AtStage at hstage ⊢
    dsimp only
    split
    next v sockets rest hst =>
      rw [hst] at hstage
      exact ⟨hstage.1, hcovered hstage.2⟩
    next hst =>
      rw [hst] at hstage
      obtain ⟨hgen, hlive, _, hcov⟩ := hstage
      exact ⟨hgen, hlive, by rw [hroom]; simp, hcovered hcov⟩
    next => trivial
    next hst =>
      rw [hst] at hstage
      exact hstage

/-! ## §5. The tick goes on. -/

/-- The sockets, the cache and the log are the same. -/
theorem Served.same (h : Served V J g) (hsockets : g'.sockets = g.sockets)
    (hcache : g'.cachedSnapshot = g.cachedSnapshot) (hgen : g'.pollGeneration = g.pollGeneration)
    (hsent : g'.emissions = g.emissions) : Served V J g' where
  cached := by
    rw [hcache, hgen]
    exact h.cached
  emitted := by
    rw [hsent]
    intro sent hmem
    refine (h.emitted sent hmem).mono ?_ ?_ (fun _ _ hv => hv) fun _ _ _ _ hj => hj
    · intro j token hk
      unfold KnownBy
      rw [hsockets]
      exact hk
    · intro j hc
      unfold IsCleaned
      rw [hsockets]
      exact hc

/-- A `verify` may be called in the state `g`, for the pass of its tick. -/
def Calls (S : Settings) (V : PassKey → Verification → Prop) (g : EventsGateway) : Prop :=
  ∀ t token, g.tick = some t → V t.key (verify S token g.now)

/-- The next group of a pass. -/
theorem Ticking.nextGroup {t : Tick} {groups : List (String × List SocketId)}
    (h : Served V J g) (hsnap : ∀ x, t.snapshot = some x → x.2 = t.generation)
    (hrec : Recorded V J g t.key t.pass) (hcov : Covered g t.pass groups)
    (hV : Calls S V (g.nextGroup S t groups)) : Ticking V J (g.nextGroup S t groups) := by
  unfold EventsGateway.nextGroup at hV ⊢
  split
  next token sockets rest =>
    refine ⟨h.same rfl rfl rfl rfl, ?_⟩
    rintro t' ⟨⟩
    exact ⟨hsnap, ⟨hrec.verified, hrec.failed, hrec.joined⟩, hV _ token rfl, hcov.member,
      hcov.token⟩
  next =>
    refine ⟨h.same rfl rfl rfl rfl, ?_⟩
    rintro t' ⟨⟩
    refine ⟨hsnap, ⟨hrec.verified, hrec.failed, hrec.joined⟩, ?_⟩
    unfold AtStage
    dsimp only
    split
    next hst => cases hst
    next hst =>
      -- the pass returns `true`: nobody is to come
      have htrue := Stage.returning.inj hst
      obtain ⟨hgo, hroom⟩ := (Bool.and_eq_true _ _).mp htrue
      obtain ⟨hgen, hlive⟩ := (Bool.and_eq_true _ _).mp hgo
      refine ⟨of_decide_eq_true hgen, hlive, ?_, hcov.member, hcov.token⟩
      intro hempty
      rw [show g.room = [] from hempty] at hroom
      cases hroom
    next => trivial
    next hst => cases hst

/-- A new pass: nothing is recorded, and the whole room is to come. -/
theorem Ticking.revalidateAdmins {t : Tick} (h : Served V J g) (hc : Counted g)
    (hsnap : ∀ x, t.snapshot = some x → x.2 = t.generation)
    (hV : Calls S V (g.revalidateAdmins S t)) : Ticking V J (g.revalidateAdmins S t) := by
  have hrec : ∀ key, Recorded V J { g with passes := g.passes + 1 } key ⟨g.passes, [], [], []⟩ := by
    intro key
    exact ⟨fun _ _ hmem => absurd hmem List.not_mem_nil, fun _ hmem => absurd hmem List.not_mem_nil,
      fun _ _ hmem => absurd hmem List.not_mem_nil⟩
  have hserved : Served V J { g with passes := g.passes + 1 } := h.same rfl rfl rfl rfl
  obtain heq | ⟨groups, _, _, hgrouped, hall, heq⟩ := revalidateAdmins_spec S hc t
  · rw [heq]
    refine ⟨h.same rfl rfl rfl rfl, ?_⟩
    rintro t' ⟨⟩
    have hnone := hrec (g.newPass t).key
    exact ⟨hsnap, ⟨hnone.verified, hnone.failed, hnone.joined⟩, trivial⟩
  · rw [heq] at hV ⊢
    refine Ticking.nextGroup hserved hsnap (hrec _) ⟨fun j hj => .inr (hall j hj), ?_⟩ hV
    intro group hgroup j hj
    obtain ⟨s, hs, htoken, hp⟩ := hgrouped group hgroup j hj
    exact ⟨s, hs, htoken, .inl hp⟩

theorem Ticking.startTick {immediate : Bool} (h : Ticking V J g) (hc : Counted g)
    (hV : Calls S V (g.startTick S immediate)) : Ticking V J (g.startTick S immediate) := by
  unfold EventsGateway.startTick at hV ⊢
  split
  next => exact h
  next hflight =>
    rw [if_neg hflight] at hV
    have hserved : Served V J { g with inFlight := true } := h.toServed.same rfl rfl rfl rfl
    have hcounted : Counted { g with inFlight := true } := { hc with }
    exact Ticking.revalidateAdmins hserved hcounted nofun hV

/-- The tick is over. -/
theorem Ticking.endTick (h : Served V J g) : Ticking V J g.endTick := by
  unfold EventsGateway.endTick
  dsimp only
  split
  · refine ⟨h.same rfl rfl rfl rfl, ?_⟩
    intro t ht
    cases ht
  · refine ⟨h.same rfl rfl rfl rfl, ?_⟩
    intro t ht
    cases ht

/-- The cache is dropped. -/
theorem Served.dropCache (h : Served V J g) : Served V J { g with cachedSnapshot := none } where
  cached := by
    intro c hc
    cases hc
  emitted := fun sent hmem => (h.emitted sent hmem).mono (fun hk => hk) (fun hc => hc)
    (fun _ _ hv => hv) fun _ _ _ _ hj => hj

/-- The snapshot has arrived; the second pass starts. -/
theorem Ticking.collected {t : Tick} {snapshot : Option SystemStats} (h : Ticking V J g)
    (hc : Counted g) (ht : g.tick = some t) (hst : t.stage = .collecting)
    (hV : Calls S V (g.collected S t snapshot)) : Ticking V J (g.collected S t snapshot) := by
  have hbegan : t.began = t.generation := by
    have hstage := (h.flying t ht).stage
    rw [AtStage, hst] at hstage
    exact hstage
  unfold EventsGateway.collected at hV ⊢
  split
  next => exact .endTick h.toServed.dropCache
  next snapshot =>
    dsimp only at hV
    split
    next => exact .endTick h.toServed
    next hgo =>
      rw [if_neg hgo] at hV
      refine Ticking.revalidateAdmins h.toServed hc ?_ hV
      rintro x ⟨⟩
      exact hbegan

/-- A socket that was cleaned up is not in the room. -/
theorem IsCleaned.not_mem (h : IsCleaned g id) (hc : Counted g) : id ∉ g.room := by
  intro hid
  obtain ⟨s, hs, hu⟩ := h
  obtain ⟨s', _, _, hs', _, _, hu', _⟩ := hc.of_mem hid
  rw [hs] at hs'
  cases hs'
  rw [hu] at hu'
  cases hu'

/-- Whoever `disconnectSilent` is called for is cleaned up. -/
theorem isCleaned_disconnectSilent (hs : g.sockets.get id = some s) :
    IsCleaned (g.disconnectSilent id) id := by
  have hs' : (g.cleanupSocket id).sockets.get id = some s.wiped := by
    rw [get_wiped hs, if_pos rfl]
  obtain ⟨t, ht, hf⟩ := (Sheds.disconnect (g.cleanupSocket id) id).socket_after hs'
  exact ⟨t, ht, hf.cleanedUp rfl⟩

theorem isCleaned_foldl (l : List SocketId) (hl : ∀ j ∈ l, ∃ s, g.sockets.get j = some s) :
    ∀ j ∈ l, IsCleaned (l.foldl disconnectSilent g) j := by
  induction l generalizing g with
  | nil => nofun
  | cons i l ih =>
      obtain ⟨s, hs⟩ := hl i (List.mem_cons_self ..)
      intro j hj
      rcases List.mem_cons.mp hj with rfl | hj
      · exact (Ebbs.of_sheds (.foldl .disconnectSilent l _)).cleaned (isCleaned_disconnectSilent hs)
      · refine ih ?_ j hj
        intro k hk
        obtain ⟨t, ht⟩ := hl k (List.mem_cons_of_mem i hk)
        obtain ⟨t', ht', _⟩ := (Sheds.disconnectSilent g i).socket_after ht
        exact ⟨t', ht'⟩

/-- A group is verified, or it is disconnected. -/
theorem Ticking.resumeRevalidation {Q : Verification → Prop} {t : Tick} {v : Verification}
    {sockets : List SocketId} {rest : List (String × List SocketId)}
    {answer : Option (Principal × User)} (h : Ticking V J g) (hinv : Inv Q g)
    (ht : g.tick = some t) (hst : t.stage = .revalidating v sockets rest)
    (ha : v.answer = some answer)
    (hV : Calls S V (g.resumeRevalidation S t answer sockets rest)) :
    Ticking V J (g.resumeRevalidation S t answer sockets rest) := by
  have hf := h.flying t ht
  obtain ⟨hv, hcov⟩ : V t.key v ∧ Covered g t.pass ((v.token, sockets) :: rest) := by
    have hstage := hf.stage
    rw [AtStage, hst] at hstage
    exact hstage
  have hgroup : ∀ j ∈ sockets, KnownBy g j v.token :=
    fun j hj => hcov.token _ (List.mem_cons_self ..) j hj
  unfold EventsGateway.resumeRevalidation at hV ⊢
  cases hfound : answer.filter fun found => isEligibleForMetrics found.1 with
  | some found =>
    rw [hfound] at hV
    obtain ⟨hfound, he⟩ := Option.filter_eq_some_iff.mp hfound
    rw [hfound] at ha
    refine Ticking.nextGroup h.toServed hf.snapshot ⟨?_, hf.recorded.failed, hf.recorded.joined⟩
      ⟨?_, fun group hgroup => hcov.token group (List.mem_cons_of_mem _ hgroup)⟩ hV
    · intro j x hx
      rcases List.mem_append.mp hx with hx | hx
      · obtain ⟨i, hi, heq⟩ := List.mem_map.mp hx
        cases heq
        exact ⟨v, hv, ha, he, hgroup j hi⟩
      · exact hf.recorded.verified j x hx
    · intro j hj
      rcases hcov.member j hj with (⟨x, hx⟩ | hjoin) | ⟨group, hin, hmem⟩
      · exact .inl (.inl ⟨x, List.mem_append_right _ hx⟩)
      · exact .inl (.inr hjoin)
      · rcases List.mem_cons.mp hin with rfl | hin
        · exact .inl (.inl ⟨found, List.mem_append_left _ (List.mem_map.mpr ⟨j, hmem, rfl⟩)⟩)
        · exact .inr ⟨group, hin, hmem⟩
  | none =>
    rw [hfound] at hV
    have hsheds : Sheds g (sockets.foldl disconnectSilent g) := .foldl .disconnectSilent _ _
    have h₁ := h.ebbs (.of_sheds hsheds) fun t' ht' hst' => by
      -- it waits for a `verify`, so it has not returned
      rw [ht] at ht'
      cases ht'
      rw [hst] at hst'
      cases hst'
    have hf₁ := h₁.flying t (hsheds.tick.trans ht)
    have hclean := isCleaned_foldl sockets fun j hj => by
      obtain ⟨s, hs, _⟩ := hgroup j hj
      exact ⟨s, hs⟩
    have hc₁ := (hinv.silencedAll sockets).counted
    have hcov₁ : Covered (sockets.foldl disconnectSilent g) t.pass ((v.token, sockets) :: rest) := by
      have hstage := hf₁.stage
      rw [AtStage, hst] at hstage
      exact hstage.2
    refine Ticking.nextGroup h₁.toServed hf.snapshot
      ⟨hf₁.recorded.verified, ?_, hf₁.recorded.joined⟩
      ⟨?_, fun group hgroup => hcov₁.token group (List.mem_cons_of_mem _ hgroup)⟩ hV
    · intro j hj
      rcases List.mem_append.mp hj with hj | hj
      · exact hclean j hj
      · exact hf₁.recorded.failed j hj
    · intro j hj
      rcases hcov₁.member j hj with hacc | ⟨group, hin, hmem⟩
      · exact .inl hacc
      · rcases List.mem_cons.mp hin with rfl | hin
        · exact absurd hj ((hclean j hmem).not_mem hc₁)
        · exact .inr ⟨group, hin, hmem⟩

/-- `tick` goes on after a pass: it collects, it sends, or it ends. -/
theorem Ticking.resumeTick {t : Tick} {value : Bool} (h : Ticking V J g) (hc : Counted g)
    (ht : g.tick = some t) (hst : t.stage = .returning value) :
    Ticking V J (g.resumeTick t value) := by
  have hf := h.flying t ht
  have hstage := hf.stage
  rw [AtStage, hst] at hstage
  unfold EventsGateway.resumeTick
  cases value with
  | false => exact .endTick h.toServed.dropCache
  | true =>
      obtain ⟨hgen, hlive, _, hcov⟩ := hstage
      rw [if_neg nofun]
      split
      next hnone =>
        refine ⟨h.toServed.same rfl rfl rfl rfl, ?_⟩
        rintro t' ⟨⟩
        refine ⟨hf.snapshot, ⟨hf.recorded.verified, hf.recorded.failed, hf.recorded.joined⟩, ?_⟩
        exact hgen.symm
      next snapshot began hsome =>
        have hbegan : began = g.pollGeneration := (hf.snapshot _ hsome).trans hgen
        refine .endTick ⟨?_, ?_⟩
        · rintro c ⟨⟩
          exact hbegan
        · intro sent hsent
          rcases List.mem_cons.mp hsent with rfl | hsent
          · refine ⟨hbegan, ?_⟩
            rintro room pass ⟨⟩
            refine ⟨fun j hj => (hcov.member j hj).resolve_right ?_,
              fun j hj => (hf.recorded.failed j hj).not_mem hc, ?_⟩
            · rintro ⟨group, hin, _⟩
              cases hin
            · have hrec := hf.recorded
              rw [Tick.key, hsome] at hrec
              exact ⟨hrec.verified, hrec.failed, hrec.joined⟩
          · exact (h.emitted sent hsent).mono (fun hk => hk) (fun hc => hc) (fun _ _ hv => hv)
              fun _ _ _ _ hj => hj

/-- `startPollingIfNeeded`. -/
theorem Ticking.startPollingIfNeeded (h : Ticking V J g) (hc : Counted g)
    (hV : Calls S V (g.startPollingIfNeeded S)) : Ticking V J (g.startPollingIfNeeded S) := by
  unfold EventsGateway.startPollingIfNeeded at hV ⊢
  split
  next => exact h
  next hi =>
    rw [if_neg hi] at hV
    have hon : Ticking V J { g with interval := true } :=
      h.ebbs (.of_same rfl rfl rfl rfl rfl rfl) fun _ _ _ => .of_same rfl rfl rfl
    have hcounted : Counted { g with interval := true } := { hc with }
    dsimp only at hV ⊢
    split
    next =>
      exact h.ebbs (.of_same rfl rfl rfl rfl rfl rfl) fun _ _ _ => .of_same rfl rfl rfl
    next hflight =>
      rw [if_neg hflight] at hV
      exact hon.startTick hcounted hV

/-- The cached snapshot is as old as the generation. -/
theorem Ticking.emitCacheIfFresh (h : Ticking V J g) : Ticking V J g.emitCacheIfFresh := by
  unfold EventsGateway.emitCacheIfFresh
  split
  next => exact h
  next cached hcached =>
    split
    next =>
      refine ⟨⟨h.cached, ?_⟩, ?_⟩
      · intro sent hsent
        rcases List.mem_cons.mp hsent with rfl | hsent
        · refine ⟨h.cached cached hcached, ?_⟩
          rintro room pass ⟨⟩
        · exact (h.emitted sent hsent).mono (fun hk => hk) (fun hc => hc) (fun _ _ hv => hv)
            fun _ _ _ _ hj => hj
      · intro t ht
        exact (h.flying t ht).beside (fun _ hj => hj) (fun hk => hk) (fun hc => hc)
          fun _ => .of_same rfl rfl rfl
    next => exact h

/-- The rest of `onAuthSuccess`, beside a tick. -/
theorem Ticking.authenticate {e : EngineId} {p : Principal} {v : Verification}
    (h : Ticking V J g) (hcount : Counted g) (hpair : Paired (fun _ => False) g)
    (hs : g.sockets.get id = some s) (hc : s.connected = true) (hu : s.cleanedUp = false)
    (hp : s.principal = none) (hv : id ∉ g.verifying.map Prod.fst)
    (hJ : ∀ t, g.tick = some t → isEligibleForMetrics p = true → J t.key id v p)
    (hV : Calls S V (g.authenticate S id e p v.token)) :
    Ticking V J (g.authenticate S id e p v.token) := by
  let g₂ := g.modify id fun s => { s with deadline := false }
  have ha₂ : Alike g g₂ := .modify g id _ _ fun _ => ⟨rfl, rfl, fun h => h, rfl, rfl, rfl⟩
  have h₂ : Ticking V J g₂ := h.ebbs (.of_alike ha₂ rfl rfl rfl rfl) fun _ _ _ => .of_same rfl rfl rfl
  have hcount₂ : Counted g₂ := hcount.alike ha₂
  have hpair₂ : Paired (fun _ => False) g₂ := hpair.alike ha₂
  have hs₂ : g₂.sockets.get id = some { s with deadline := false } := by
    rw [get_modify, if_pos rfl, hs]
    rfl
  have hid : id ∉ g₂.room := by
    rw [hcount₂.member, principalOf, hs₂]
    simp [hp]
  unfold EventsGateway.authenticate at hV ⊢
  dsimp only at hV ⊢
  split
  next =>
    obtain ⟨hroom, hgen⟩ := disconnect_quiet hcount₂ hs₂ hp fun hc => hpair₂.alone_on hs₂ hc
    exact h₂.ebbs (.of_sheds (.disconnect g₂ id)) fun _ _ _ =>
      .of_same (Sheds.disconnect g₂ id).live hroom hgen
  next hel =>
    rw [if_neg hel] at hV
    have he : isEligibleForMetrics p = true := Bool.of_not_eq_false hel
    have h₃ : Ticking V J (g₂.welcome id e p v.token) :=
      h₂.welcome hs₂ hp hu hid fun t ht => hJ t ht he
    split
    next =>
      refine h₃.ebbs (.of_sheds (.disconnectSilent _ id)) ?_
      -- before it was admitted, somebody was in the room
      intro t₃ ht₃ hst _
      obtain ⟨t, ht, rfl⟩ := Option.map_eq_some_iff.mp ht₃
      have hstage := (h₂.flying t ht).stage
      rw [AtStage, show t.stage = .returning true from hst] at hstage
      exact quiet_admitted hcount₂ hpair₂ hs₂ hp hc hu he hv hstage.2.2.1
    next hexp =>
      rw [if_neg hexp] at hV
      have ha₄ := Alike.armTimer (g₂.welcome id e p v.token) id p.exp
      have h₄ := h₃.ebbs (.of_alike ha₄ rfl rfl rfl rfl) fun _ _ _ => .of_same rfl rfl rfl
      have hcount₅ := (hcount₂.welcome hs₂ hp hc hu he e v.token).alike
        (ha₄.trans (.emitCacheIfFresh _))
      exact h₄.emitCacheIfFresh.startPollingIfNeeded hcount₅ hV

/-- **`onAuthSuccess`**, beside a tick. -/
theorem Ticking.onAuthSuccess {Q : Verification → Prop} {p : Principal} {v : Verification}
    (h : Ticking V J g) (hinv : Inv Q g)
    (hp : ∀ s, g.sockets.get id = some s → s.principal = none)
    (hv : id ∉ g.verifying.map Prod.fst)
    (hJ : ∀ t, g.tick = some t → isEligibleForMetrics p = true → J t.key id v p)
    (hV : Calls S V (g.onAuthSuccess S id p v.token)) :
    Ticking V J (g.onAuthSuccess S id p v.token) := by
  have hsilent : Ticking V J (g.disconnectSilent id) :=
    h.ebbs (.of_sheds (.disconnectSilent g id)) fun _ _ _ =>
      quiet_disconnectSilent hinv.counted hinv.paired hp
  unfold EventsGateway.onAuthSuccess at hV ⊢
  cases hs : g.sockets.get id with
  | none => exact h
  | some s =>
      rw [hs] at hV
      dsimp only at hV ⊢
      split
      next => exact h
      next hlive =>
        rw [if_neg hlive] at hV
        have hl : g.live = true := Bool.of_not_eq_false hlive
        split
        next => exact hsilent
        next hengine =>
          rw [if_neg hengine] at hV
          cases hres : g.reservations.get s.engineId with
          | none =>
              rw [show g.release s.engineId = (false, g) by rw [EventsGateway.release, hres]]
              exact hsilent
          | some r =>
              rw [release_eq, hres] at hV ⊢
              dsimp only [Option.isSome_some] at hV ⊢
              have h₁ : Ticking V J
                  { g with reservations := g.reservations.remove fun r => r.id = s.engineId } :=
                h.ebbs (.of_same rfl rfl rfl rfl rfl rfl) fun _ _ _ => .of_same rfl rfl rfl
              have hfree := hinv.release s.engineId
              split
              next => exact h₁
              next hnot =>
                rw [if_neg hnot] at hV
                have hc : s.connected = true := Bool.of_not_eq_false hnot
                have hu : s.cleanedUp = false :=
                  Bool.of_not_eq_true fun hu => hinv.flushed id s hs hu hc hl
                exact h₁.authenticate hfree.counted hfree.paired hs hc hu (hp s hs) hv hJ hV

/-- The continuation of a socket's `verify`, beside a tick. -/
theorem Ticking.settle {Q : Verification → Prop} {entry : SocketId × Verification}
    {answer : Option (Principal × User)} (h : Ticking V J g) (hinv : Inv Q g)
    (hentry : g.verifying.find? (fun entry => entry.1 = id) = some entry)
    (hJ : ∀ t p row, g.tick = some t → answer = some (p, row) → isEligibleForMetrics p = true →
      J t.key id entry.2 p)
    (hV : Calls S V ({ g with
      verifying := g.verifying.filter fun entry => entry.1 ≠ id }.settle S id entry.2.token
        answer)) :
    Ticking V J ({ g with
      verifying := g.verifying.filter fun entry => entry.1 ≠ id }.settle S id entry.2.token
        answer) := by
  have h₁ : Ticking V J { g with verifying := g.verifying.filter fun entry => entry.1 ≠ id } :=
    h.ebbs (.of_same rfl rfl rfl rfl rfl rfl) fun _ _ _ => .of_same rfl rfl rfl
  have hinv₁ := hinv.unverify id
  have hp : ∀ s, g.sockets.get id = some s → s.principal = none :=
    fun s hs => hinv.paired.principal_of_find hentry hs
  unfold EventsGateway.settle at hV ⊢
  cases answer with
  | none =>
      exact h₁.ebbs (.of_sheds (.disconnectSilent _ id)) fun _ _ _ =>
        quiet_disconnectSilent hinv₁.counted hinv₁.paired hp
  | some found =>
      refine h₁.onAuthSuccess hinv₁ hp ?_ (fun t ht he => hJ t found.1 found.2 ht rfl he) hV
      simp

end MinePanel.Gateway
