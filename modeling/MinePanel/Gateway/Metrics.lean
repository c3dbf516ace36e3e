/-
  MinePanel.Gateway.Metrics
  ─────────────────────────
  **METRICS GO ONLY TO FRESHLY VERIFIED ADMINISTRATORS.**

  The books of every tick over every order of events, and what they say about
  the past: who is in the room when `system.stats` is sent was verified in a state
  of the pass after the collection, or was not in the room in a state of that pass
  and joined by its own authentication (`metrics_to_fresh_admins`).
-/
import MinePanel.Gateway.Passes

namespace MinePanel.Gateway

open MinePanel.Db MinePanel.Lib EventsGateway

variable {g g' g'' : EventsGateway} {id : SocketId} {s : Socket} {S : Settings}
  {V V' : PassKey → Verification → Prop}
  {J J' : PassKey → SocketId → Verification → Principal → Prop}

/-! ## §1. Every event. -/

theorem Ebbs.reserve (g : EventsGateway) (e : EngineId) : Ebbs g (g.reserve e) := by
  unfold EventsGateway.reserve
  split
  · exact .of_sheds (.closeRaw g e)
  · split
    · exact .of_sheds (.closeRaw g e)
    · split
      · exact .of_sheds (.closeRaw g e)
      · exact .of_same rfl rfl rfl rfl rfl rfl

theorem Sheds.releaseAndClose (g : EventsGateway) (e : EngineId) :
    Sheds g (g.releaseAndClose e) := by
  unfold EventsGateway.releaseAndClose
  have hrelease := Sheds.release g e
  split
  next heq =>
    rw [heq] at hrelease
    exact hrelease
  next heq =>
    rw [heq] at hrelease
    exact hrelease.trans (.closeRaw _ e)

theorem Ebbs.claim (g : EventsGateway) (e : EngineId) : Ebbs g (g.claim e).2 := by
  unfold EventsGateway.claim
  split
  · exact .of_same rfl rfl rfl rfl rfl rfl
  · split
    · exact .of_same rfl rfl rfl rfl rfl rfl
    · exact .of_same rfl rfl rfl rfl rfl rfl

/-- A socket changes in what a tick does not read. -/
theorem Ebbs.modify (g : EventsGateway) (id : SocketId) (f : Socket → Socket)
    (hf : ∀ s, (f s).id = s.id) (ha : ∀ s : Socket, s.Alike (f s)) : Ebbs g (g.modify id f hf) :=
  .of_alike (.modify g id f hf ha) rfl rfl rfl rfl

theorem Ebbs.startVerifying (g : EventsGateway) (id : SocketId) (token : String) :
    Ebbs g (g.startVerifying S id token) :=
  .of_same rfl rfl rfl rfl rfl rfl

theorem Ebbs.handleConnection {e : EngineId} {cookie : CookieHeader}
    (hg : g.handleConnection S id e cookie = some g') : Ebbs g g' := by
  unfold EventsGateway.handleConnection at hg
  dsimp only at hg
  obtain ⟨sockets, hins, hg⟩ := Option.bind_eq_some_iff.mp hg
  have hold : ∀ {j t}, (g.claim e).2.sockets.get j = some t → sockets.get j = some t := by
    intro j t hj
    rw [Table.get_insert hins, if_neg]
    · exact hj
    · rintro rfl
      rw [(Table.insert_rows hins).2] at hj
      cases hj
  have hin : Ebbs g { (g.claim e).2 with
      sockets := sockets, tracked := (g.claim e).2.tracked ++ [id] } := by
    refine (Ebbs.claim g e).trans ⟨rfl, rfl, .inr ⟨rfl, rfl⟩, fun _ hj => hj, ?_, ?_⟩
    · rintro j token ⟨t, ht, htoken, hin⟩
      exact ⟨t, hold ht, htoken, hin⟩
    · rintro j ⟨t, ht, hu⟩
      exact ⟨t, hold ht, hu⟩
  split at hg
  · cases hg
    exact hin.trans (.of_sheds (.disconnectSilent _ id))
  · have harmed := hin.trans (.modify _ id (fun s => { s with deadline := true }) (fun _ => rfl)
      fun _ => ⟨rfl, rfl, fun h => h, rfl, rfl, rfl⟩)
    split at hg
    · cases hg
      exact harmed.trans (.of_sheds (.disconnectSilent _ id))
    · cases hg
      have hmod := harmed.trans (.modify _ id (fun s => { s with status := .verifying })
        (fun _ => rfl) fun _ => ⟨rfl, rfl, fun _ h => (by cases h), rfl, rfl, rfl⟩)
      exact hmod.trans (.startVerifying _ id _)
    · cases hg
      exact harmed.trans (.modify _ id (fun s => { s with listener := true }) (fun _ => rfl)
        fun _ => ⟨rfl, rfl, fun h => h, rfl, rfl, rfl⟩)

theorem Ebbs.onAuth (g : EventsGateway) (socket : Socket) (payload : AuthEventValue) :
    Ebbs g (g.onAuth S socket payload) := by
  unfold EventsGateway.onAuth
  split
  · exact .of_sheds (.disconnectSilent g _)
  · have hmod : Ebbs g (g.modify socket.id fun s => { s with status := .verifying }) :=
      .modify g _ _ _ fun _ => ⟨rfl, rfl, fun _ h => (by cases h), rfl, rfl, rfl⟩
    dsimp only
    split
    · exact hmod.trans (.startVerifying _ _ _)
    · exact hmod.trans (.of_sheds (.disconnectSilent _ _))

theorem Ebbs.onExpiry (g : EventsGateway) (socket : Socket) (timer : ExpiryTimer) :
    Ebbs g (g.onExpiry socket timer) := by
  unfold EventsGateway.onExpiry
  split
  · exact .of_sheds (.disconnectSilent g _)
  · split
    · exact .of_same rfl rfl rfl rfl rfl rfl
    · split
      · exact .of_sheds (.disconnectSilent g _)
      · exact .of_alike (.armTimer _ _ _) rfl rfl rfl rfl

theorem Ebbs.onModuleDestroy (g : EventsGateway) : Ebbs g g.onModuleDestroy := by
  have hstop : Ebbs g
      { g with live := false, pollGeneration := g.pollGeneration + 1 }.stopPolling :=
    ⟨rfl, rfl, .inl rfl, fun _ hj => hj, fun hk => hk, fun hc => hc⟩
  have hall := hstop.trans (.of_sheds (.foldl .cleanupSocket g.tracked _))
  exact hall.trans (.of_same rfl rfl rfl rfl rfl rfl)

theorem of_guard {c : Prop} [Decidable c] {u : Unit} (h : (guard c : Option Unit) = some u) : c := by
  by_contra hno
  simp [guard, hno] at h

/-- A task, while no pass has just returned. -/
theorem Ticking.stepTask {event : Event} (h : Ticking V J g) (hc : Counted g)
    (hno : g.inMicrotasks = false) (hV : Calls S V g') (hs : g.stepTask S event = some g') :
    Ticking V J g' := by
  have hebbs : Ebbs g g' → Ticking V J g' := by
    refine fun he => h.ebbs he fun t ht hst => ?_
    simp [inMicrotasks, ht, hst] at hno
  cases event with
  | rawConnect id =>
      obtain ⟨raws, _, hs⟩ := Option.bind_eq_some_iff.mp hs
      cases hs
      have hraw : Ebbs g { g with raws := raws } := .of_same rfl rfl rfl rfl rfl rfl
      exact hebbs (hraw.trans (.reserve _ id))
  | rawClose id =>
      obtain ⟨_, _, hs⟩ := Option.bind_eq_some_iff.mp hs
      cases hs
      exact hebbs (.of_sheds
        (((Sheds.closeRaw g id).trans (.foldl .leaveNamespace _ _)).trans (.release _ id)))
  | reservationDeadline id =>
      obtain ⟨_, _, hs⟩ := Option.bind_eq_some_iff.mp hs
      cases hs
      exact hebbs (.of_sheds (.releaseAndClose g id))
  | connect id engineId cookie =>
      obtain ⟨_, _, hs⟩ := Option.bind_eq_some_iff.mp hs
      obtain ⟨_, _, hs⟩ := Option.bind_eq_some_iff.mp hs
      exact hebbs (.handleConnection hs)
  | auth id payload =>
      obtain ⟨socket, _, hs⟩ := Option.bind_eq_some_iff.mp hs
      obtain ⟨_, _, hs⟩ := Option.bind_eq_some_iff.mp hs
      cases hs
      exact hebbs (.onAuth g socket payload)
  | leave id =>
      obtain ⟨_, _, hs⟩ := Option.bind_eq_some_iff.mp hs
      cases hs
      exact hebbs (.of_sheds (.leaveNamespace g id))
  | deadline id =>
      obtain ⟨_, _, hs⟩ := Option.bind_eq_some_iff.mp hs
      obtain ⟨_, _, hs⟩ := Option.bind_eq_some_iff.mp hs
      cases hs
      have hmod : Ebbs g (g.modify id fun s => { s with deadline := false }) :=
        .modify g id _ _ fun _ => ⟨rfl, rfl, fun h => h, rfl, rfl, rfl⟩
      exact hebbs (hmod.trans (.of_sheds (.disconnectSilent _ id)))
  | expiry id =>
      obtain ⟨socket, _, hs⟩ := Option.bind_eq_some_iff.mp hs
      obtain ⟨timer, _, hs⟩ := Option.bind_eq_some_iff.mp hs
      cases hs
      exact hebbs (.onExpiry g socket timer)
  | destroy =>
      cases hs
      exact hebbs (.onModuleDestroy g)
  | destroyReservations =>
      cases hs
      exact hebbs (.of_sheds (.foldl .releaseAndClose _ g))
  | interval =>
      obtain ⟨_, _, hs⟩ := Option.bind_eq_some_iff.mp hs
      cases hs
      exact h.startTick hc hV
  | immediate =>
      obtain ⟨_, _, hs⟩ := Option.bind_eq_some_iff.mp hs
      cases hs
      have h₁ : Ticking V J { g with immediates := g.immediates - 1 } :=
        h.ebbs (.of_same rfl rfl rfl rfl rfl rfl) fun _ _ _ => .of_same rfl rfl rfl
      have hc₁ : Counted { g with immediates := g.immediates - 1 } := { hc with }
      exact h₁.startTick hc₁ hV
  | tickCollected snapshot =>
      obtain ⟨tick, ht, hs⟩ := Option.bind_eq_some_iff.mp hs
      obtain ⟨_, hguard, hs⟩ := Option.bind_eq_some_iff.mp hs
      cases hs
      exact h.collected hc ht (of_guard hguard) hV
  | _ => cases hs

theorem Ticking.mono (h : Ticking V J g) (hV : ∀ key v, V key v → V' key v)
    (hJ : ∀ key j v p, J key j v p → J' key j v p) : Ticking V' J' g where
  cached := h.cached
  emitted := fun sent hsent => (h.emitted sent hsent).mono (fun hk => hk) (fun hc => hc) hV hJ
  flying := by
    intro t ht
    have hf := h.flying t ht
    refine ⟨hf.snapshot, hf.recorded.mono (fun hk => hk) (fun hc => hc) hV hJ, ?_⟩
    have hstage := hf.stage
    unfold AtStage at hstage ⊢
    split
    next hst =>
      rw [hst] at hstage
      exact ⟨hV _ _ hstage.1, hstage.2⟩
    next hst =>
      rw [hst] at hstage
      exact hstage
    next => trivial
    next hst =>
      rw [hst] at hstage
      exact hstage

/-- The SELECT of the `verify` that the tick waits for is answered. -/
theorem Ticking.read {t : Tick} {v : Verification} {sockets : List SocketId}
    {rest : List (String × List SocketId)} {fails : Bool} (h : Ticking V J g)
    (ht : g.tick = some t) (hst : t.stage = .revalidating v sockets rest)
    (hV : V t.key (v.read g.users fails)) :
    Ticking V J (g.await t (.revalidating (v.read g.users fails) sockets rest)) := by
  have hf := h.flying t ht
  have hstage := hf.stage
  rw [AtStage, hst] at hstage
  refine ⟨h.toServed.same rfl rfl rfl rfl, ?_⟩
  rintro t' ⟨⟩
  exact ⟨hf.snapshot, ⟨hf.recorded.verified, hf.recorded.failed, hf.recorded.joined⟩, hV,
    hstage.2.member, hstage.2.token⟩

/-- **ONE EVENT, BESIDE OR IN A TICK.** -/
theorem Ticking.step {Q : Verification → Prop} {event : Event} (h : Ticking V J g)
    (hinv : Inv Q g) (hV : ∀ key v, V key v → V' key v)
    (hJ : ∀ key j v p, J key j v p → J' key j v p)
    (hcall : Calls S V' g')
    (hread : ∀ t v fails, g.tick = some t → V t.key v → V' t.key (v.read g.users fails))
    (hjoin : ∀ t j v p row, g.tick = some t → j ∉ g.room → (j, v) ∈ g.verifying → Q v →
      v.answer = some (some (p, row)) → isEligibleForMetrics p = true → J' t.key j v p)
    (hs : g.step S event = some g') : Ticking V' J' g' := by
  have h' : Ticking V' J' g := h.mono hV hJ
  unfold EventsGateway.step at hs
  split at hs
  next id fails =>
    cases hs
    exact h'.ebbs (.of_same rfl rfl rfl rfl rfl rfl) fun _ _ _ => .of_same rfl rfl rfl
  next id =>
    obtain ⟨entry, hentry, hs⟩ := Option.bind_eq_some_iff.mp hs
    obtain ⟨answer, ha, hs⟩ := Option.bind_eq_some_iff.mp hs
    cases hs
    refine h'.settle hinv hentry ?_ hcall
    rintro t p row ht rfl he
    have hmem := List.mem_of_find?_eq_some hentry
    have hid : entry.1 = id := by simpa using List.find?_some hentry
    refine hjoin t id entry.2 p row ht ?_ (hid ▸ hmem) (hinv.sourced.pending entry hmem) ha he
    -- whoever has a pending `verify` is not in the room
    intro hid
    obtain ⟨s, _, _, hs, hp, _⟩ := hinv.counted.of_mem hid
    rw [hinv.paired.principal_of_find hentry hs] at hp
    cases hp
  next fails =>
    obtain ⟨tick, ht, hs⟩ := Option.bind_eq_some_iff.mp hs
    split at hs
    next v sockets rest hst =>
      obtain ⟨_, _, hs⟩ := Option.bind_eq_some_iff.mp hs
      cases hs
      have hv : V tick.key v := by
        have hstage := (h.flying tick ht).stage
        rw [AtStage, hst] at hstage
        exact hstage.1
      exact h'.read ht hst (hread tick v fails ht hv)
    next => cases hs
  next =>
    obtain ⟨tick, ht, hs⟩ := Option.bind_eq_some_iff.mp hs
    split at hs
    next v sockets rest hst =>
      obtain ⟨answer, ha, hs⟩ := Option.bind_eq_some_iff.mp hs
      cases hs
      exact h'.resumeRevalidation hinv ht hst ha hcall
    next => cases hs
  next =>
    obtain ⟨tick, ht, hs⟩ := Option.bind_eq_some_iff.mp hs
    split at hs
    next value hst =>
      cases hs
      exact h'.resumeTick hinv.counted ht hst
    next => cases hs
  next users =>
    cases hs
    exact h'.ebbs (.of_same rfl rfl rfl rfl rfl rfl) fun _ _ _ => .of_same rfl rfl rfl
  next now =>
    cases hs
    exact h'.ebbs (.of_same rfl rfl rfl rfl rfl rfl) fun _ _ _ => .of_same rfl rfl rfl
  next =>
    split at hs
    next => cases hs
    next hno => exact h'.stepTask hinv.counted (Bool.of_not_eq_true hno) hcall hs

/-! ## §2. The past of a pass. -/

variable {g₀ : EventsGateway} {key : PassKey}

/-- The pass `key` is under way. -/
def InPass (g : EventsGateway) (key : PassKey) : Prop := ∃ t, g.tick = some t ∧ t.key = key

/-- The token was verified in the pass `key`: it was checked in one state of the
pass, and the row of its user read in another. -/
def VerifiedIn (S : Settings) (g₀ g : EventsGateway) (key : PassKey) (token : String)
    (found : Principal × User) : Prop :=
  ∃ g₁ g₂, (machine S).Reach g₀ g₁ ∧ (machine S).Reach g₁ g₂ ∧ (machine S).Reach g₂ g ∧
    InPass g₁ key ∧ InPass g₂ key ∧ authorize (claimsOf S token g₁.now) g₂.users = some found

/-- In a state of the pass `key` the socket `j` was not in the room, and its own
`verify`, the pending `v`, had found the eligible `p`. -/
def AdmittedBy (S : Settings) (g₀ g : EventsGateway) (key : PassKey) (j : SocketId)
    (v : Verification) (p : Principal) : Prop :=
  isEligibleForMetrics p = true ∧ ∃ row g₁, WasVerified S g₀ g v.token (p, row) ∧
    (machine S).Reach g₀ g₁ ∧ (machine S).Reach g₁ g ∧ InPass g₁ key ∧ j ∉ g₁.room ∧
    (j, v) ∈ g₁.verifying ∧ v.answer = some (some (p, row))

/-- The socket `j` joined in the pass `key` by its own authentication: it was not in
the room in a state of the pass in which its own `verify`, of the token it was
admitted with, had found an eligible administrator. -/
def JoinedIn (S : Settings) (g₀ g : EventsGateway) (key : PassKey) (j : SocketId) : Prop :=
  ∃ s v p, g.sockets.get j = some s ∧ s.accessToken = some v.token ∧ AdmittedBy S g₀ g key j v p

/-- A `verify` of the pass `key`. -/
def IsPastIn (S : Settings) (g₀ g : EventsGateway) (key : PassKey) (v : Verification) : Prop :=
  ∃ g₁, (machine S).Reach g₀ g₁ ∧ (machine S).Reach g₁ g ∧ InPass g₁ key ∧
    v.claims = claimsOf S v.token g₁.now ∧
    ∀ found, v.answer = some (some found) → VerifiedIn S g₀ g key v.token found

theorem IsPastIn.mono {v : Verification} (h : IsPastIn S g₀ g key v)
    (hr : (machine S).Reach g g') : IsPastIn S g₀ g' key v := by
  obtain ⟨g₁, h₁, h₂, hin, hc, ha⟩ := h
  refine ⟨g₁, h₁, h₂.trans hr, hin, hc, ?_⟩
  intro found hf
  obtain ⟨g₂, g₃, h₃, h₄, h₅, hrest⟩ := ha found hf
  exact ⟨g₂, g₃, h₃, h₄, h₅.trans hr, hrest⟩

theorem AdmittedBy.mono {j : SocketId} {v : Verification} {p : Principal}
    (h : AdmittedBy S g₀ g key j v p) (hr : (machine S).Reach g g') :
    AdmittedBy S g₀ g' key j v p := by
  obtain ⟨he, row, g₁, hv, h₁, h₂, hrest⟩ := h
  exact ⟨he, row, g₁, hv.mono hr, h₁, h₂.trans hr, hrest⟩

theorem IsPastIn.read {v : Verification} (h : IsPastIn S g₀ g key v) (hin : InPass g key)
    (fails : Bool) : IsPastIn S g₀ g key (v.read g.users fails) := by
  obtain ⟨g₁, h₁, h₂, hin₁, hc, _⟩ := h
  refine ⟨g₁, h₁, h₂, hin₁, hc, ?_⟩
  intro found hf
  have hfound := Option.some.inj hf
  split at hfound
  · cases hfound
  · exact ⟨g₁, g, h₁, h₂, .start, hin₁, hin, hc ▸ hfound⟩

theorem calls_isPastIn (h : (machine S).Reach g₀ g) : Calls S (IsPastIn S g₀ g) g := by
  intro t token ht
  refine ⟨g, h, .start, ⟨t, ht, rfl⟩, rfl, ?_⟩
  intro found hf
  cases hf

/-- **THE BOOKS OF EVERY TICK, IN EVERY STATE.** -/
theorem ticking_of_reach (hinv₀ : Inv (IsPast S g₀ g₀) g₀)
    (h₀ : Ticking (IsPastIn S g₀ g₀) (AdmittedBy S g₀ g₀) g₀) (h : (machine S).Reach g₀ g) :
    Ticking (IsPastIn S g₀ g) (AdmittedBy S g₀ g) g := by
  induction h with
  | start => exact h₀
  | step hr hs ih =>
      have hnext : (machine S).Reach _ _ := .step .start hs
      refine ih.step (inv_of_reach hinv₀ hr) (fun key v hv => hv.mono hnext)
        (fun key j v p hj => hj.mono hnext) (calls_isPastIn (hr.step hs)) ?_ ?_ hs
      · intro t v fails ht hv
        exact (hv.read ⟨t, ht, rfl⟩ fails).mono hnext
      · rintro t j v p row ht hj hmem ⟨_, _, _, _, hv⟩ ha he
        exact AdmittedBy.mono
          ⟨he, row, _, hv _ ha, hr, .start, ⟨t, ht, rfl⟩, hj, hmem, ha⟩ hnext

/-! ## §3. Who gets the metrics. -/

/-- What `authorize` finds is what the table has. -/
theorem authorize_admin {claims : Option (Accounts.ParsedAccessClaims × Nat)} {users : Users}
    {p : Principal} {row : User} (h : authorize claims users = some (p, row))
    (he : isEligibleForMetrics p = true) :
    users.get p.id = some row ∧ row.status = .active ∧ row.role = .admin ∧
      row.mustChangePassword = false ∧ p.temporaryAuth = false := by
  obtain ⟨⟨payload, exp⟩, _, h⟩ := Option.bind_eq_some_iff.mp h
  obtain ⟨user, huser, h⟩ := Option.bind_eq_some_iff.mp h
  split at h
  next => cases h
  next => cases h
  next hactive =>
    cases h
    simp only [isEligibleForMetrics, Bool.and_eq_true, beq_iff_eq, Bool.not_eq_true'] at he
    exact ⟨huser, hactive, he.1.1, he.2, he.1.2⟩

/-- The socket `j` was verified as an eligible administrator in the pass `key`:
its token, against the table as it was then. -/
def FreshAdmin (S : Settings) (g₀ g : EventsGateway) (key : PassKey) (j : SocketId) : Prop :=
  ∃ s token p row g₁ g₂, g.sockets.get j = some s ∧ s.accessToken = some token ∧
    (machine S).Reach g₀ g₁ ∧ (machine S).Reach g₁ g₂ ∧ (machine S).Reach g₂ g ∧
    InPass g₁ key ∧ InPass g₂ key ∧ authorize (claimsOf S token g₁.now) g₂.users = some (p, row) ∧
    g₂.users.get p.id = some row ∧ row.status = .active ∧ row.role = .admin ∧
    row.mustChangePassword = false ∧ p.temporaryAuth = false

/-- **METRICS GO ONLY TO FRESHLY VERIFIED ADMINISTRATORS.**  Whatever was sent
was collected under the generation of that instant; whatever is cached was
collected under the generation of now; and when it was sent to the room, every
member was verified in the pass after its collection or joined in that pass by its
own authentication, and nobody whom the pass failed was in the room. -/
theorem metrics_to_fresh_admins (S : Settings) (users : Users) (now : Nat) {g : EventsGateway}
    (h : (machine S).Reach (initial users now) g) :
    (∀ sent ∈ g.emissions, sent.began = sent.generation ∧
      ∀ room pass, sent.broadcast = some (room, pass) →
        (∀ j ∈ room,
          FreshAdmin S (initial users now) g (pass.number, some (sent.snapshot, sent.began)) j ∨
          JoinedIn S (initial users now) g (pass.number, some (sent.snapshot, sent.began)) j) ∧
        ∀ j ∈ pass.failed, j ∉ room) ∧
    ∀ c, g.cachedSnapshot = some c → c.began = g.pollGeneration := by
  have h₀ : Ticking (IsPastIn S (initial users now) (initial users now))
      (AdmittedBy S (initial users now) (initial users now)) (initial users now) := by
    refine ⟨⟨?_, fun sent hsent => absurd hsent List.not_mem_nil⟩, ?_⟩
    · intro c hc
      cases hc
    · intro t ht
      cases ht
  have hticking := ticking_of_reach (inv_initial users now _) h₀ h
  refine ⟨?_, hticking.cached⟩
  intro sent hsent
  have hemitted := hticking.emitted sent hsent
  refine ⟨hemitted.current, ?_⟩
  intro room pass hb
  obtain ⟨hall, hfailed, hrec⟩ := hemitted.room room pass hb
  refine ⟨?_, hfailed⟩
  intro j hj
  rcases hall j hj with ⟨⟨p, row⟩, hver⟩ | ⟨p, hjoin⟩
  · obtain ⟨v, ⟨_, _, _, _, _, hv⟩, ha, he, s, hs, htoken, _⟩ := hrec.verified j _ hver
    obtain ⟨g₁, g₂, h₁, h₂, h₃, hin₁, hin₂, hauth⟩ := hv _ ha
    obtain ⟨huser, hstatus, hrole, hrecovery, htemp⟩ := authorize_admin hauth he
    exact .inl ⟨s, v.token, p, row, g₁, g₂, hs, htoken, h₁, h₂, h₃, hin₁, hin₂, hauth, huser,
      hstatus, hrole, hrecovery, htemp⟩
  · obtain ⟨v, hv, s, hs, htoken, _⟩ := hrec.joined j p hjoin
    exact .inr ⟨s, v, p, hs, htoken, hv⟩

/-- Alice signs in; the tick that starts with her revalidates, collects,
revalidates again and sends. -/
def sampleTick : List Event :=
  sampleSignIn ++ [.tickRead false, .tickVerified, .tickReturned,
    .tickCollected (some ⟨16000, 4000, 90000, 8⟩), .tickRead false, .tickVerified, .tickReturned]

theorem sampleTick_delivered : ∃ g sent room pass, (machine sampleSettings).Reach sampleInitial g ∧
    sent ∈ g.emissions ∧ sent.broadcast = some (room, pass) ∧ 1 ∈ room ∧
    (FreshAdmin sampleSettings sampleInitial g (pass.number, some (sent.snapshot, sent.began)) 1 ∨
      JoinedIn sampleSettings sampleInitial g
        (pass.number, some (sent.snapshot, sent.began)) 1) := by
  have hrun : ((machine sampleSettings).run sampleInitial sampleTick).any
      (fun g => g.emissions.any fun sent => sent.broadcast.any fun b => b.1.contains 1) = true := by
    decide +kernel
  obtain ⟨g, hr, ht⟩ := Machine.Reach.of_test _ _ hrun
  obtain ⟨sent, hsent, hb⟩ := List.any_eq_true.mp ht
  obtain ⟨⟨room, pass⟩, hb, hone⟩ := (Option.any_eq_true _ _).mp hb
  have hmem : 1 ∈ room := by simpa using hone
  obtain ⟨hall, _⟩ := metrics_to_fresh_admins _ _ _ hr
  exact ⟨g, sent, room, pass, hr, hsent, hb, hmem, ((hall sent hsent).2 room pass hb).1 1 hmem⟩

end MinePanel.Gateway
