/-
  MinePanel.Gateway.Handlers
  ──────────────────────────
  **EVERY HANDLER KEEPS THE INVARIANT.**

  Each handler from `Inv` to `Inv`, and `Inv.step` for every event.
-/
import MinePanel.Gateway.Ticks

namespace MinePanel.Gateway

open MinePanel.Db MinePanel.Lib EventsGateway

variable {g g' g'' : EventsGateway} {id : SocketId} {s : Socket} {C : SocketId → Prop}
  {F E : EngineId → Prop} {N : Option SocketId} {Q : Verification → Prop} {S : Settings}

/-! ## §1. Authentication. -/

/-- A socket in the room. -/
def Socket.admitted (s : Socket) (principal : Principal) (token : String) : Socket :=
  { s with status := .authenticated, principal := some principal, accessToken := some token }

theorem get_admitted (hs : g.sockets.get id = some s) (e : EngineId) (principal : Principal)
    (token : String) (j : SocketId) :
    (g.welcome id e principal token).sockets.get j =
      if j = id then some (s.admitted principal token) else g.sockets.get j := by
  show (g.modify id (fun t => t.admitted principal token) fun _ => rfl).sockets.get j = _
  rw [get_modify g id j (f := fun t => t.admitted principal token) fun _ => rfl]
  split
  next hj => rw [hj, hs]; rfl
  next => rfl

theorem get_authenticated (g : EventsGateway) (id : SocketId) (e e' : EngineId)
    (principal : Principal) (token : String) :
    (g.welcome id e principal token).raws.get e' =
      if e' = e then (g.raws.get e').map fun r => { r with authenticated := true }
      else g.raws.get e' := by
  unfold welcome
  dsimp only
  rw [Table.get_modify]
  show Option.map _ (g.raws.get e') = _
  cases hr : g.raws.get e' with
  | none => simp
  | some r =>
      have hid : r.id = e' := Table.get_key hr
      by_cases he : e' = e
      · simp [hid, he]
      · simp [hid, he]

theorem Counted.welcome (h : Counted g) (hs : g.sockets.get id = some s) (hp : s.principal = none)
    (hc : s.connected = true) (hu : s.cleanedUp = false) {principal : Principal}
    (he : isEligibleForMetrics principal = true) (e : EngineId) (token : String) :
    Counted (g.welcome id e principal token) := by
  have hid : id ∉ g.room := by
    rw [h.member, principalOf, hs]
    simp [hp]
  have hroom : (g.welcome id e principal token).room = g.room ++ [id] := if_neg hid
  refine ⟨?_, ?_, ?_, ?_⟩
  · rw [hroom, List.nodup_append]
    refine ⟨h.nodup, List.nodup_singleton id, ?_⟩
    rintro j hj _ hj' rfl
    exact hid (List.mem_singleton.mp hj' ▸ hj)
  · rw [hroom, List.length_append, ← h.count]
    rfl
  · intro j
    rw [hroom, List.mem_append, List.mem_singleton, h.member, principalOf, principalOf,
      get_admitted hs]
    by_cases hj : j = id
    · simp [hj, Socket.admitted]
    · simp [hj]
  · intro j t p hj hp'
    rw [get_admitted hs] at hj
    split at hj
    next =>
      cases hj
      cases hp'
      exact ⟨hc, hu, rfl, he, by simp [Socket.admitted]⟩
    next => exact h.held hj hp'

theorem Guarded.welcome (h : Guarded F g) (hs : g.sockets.get id = some s)
    (hF : ∀ e, F e → e = s.engineId) (principal : Principal) (token : String) :
    Guarded (fun _ => False) (g.welcome id s.engineId principal token) where
  raw := by
    intro j t hj
    rw [get_admitted hs] at hj
    split at hj
    next =>
      cases hj
      obtain ⟨r, hr, _⟩ := h.raw hs
      refine ⟨{ r with authenticated := true }, ?_, fun _ => rfl, fun _ => .inr rfl⟩
      show (g.welcome id s.engineId principal token).raws.get s.engineId = _
      rw [get_authenticated, if_pos rfl, hr]
      rfl
    next =>
      obtain ⟨r, hr, hauth, hclosed⟩ := h.raw hj
      rw [get_authenticated]
      split
      · exact ⟨{ r with authenticated := true }, by rw [hr]; rfl, fun _ => rfl, fun _ => .inr rfl⟩
      · exact ⟨r, hr, hauth, hclosed⟩
  reserved := by
    intro e r hr ho ha hl
    rw [get_authenticated] at hr
    split at hr
    next =>
      obtain ⟨r', _, rfl⟩ := Option.map_eq_some_iff.mp hr
      cases ha
    next hne =>
      rcases h.reserved hr ho ha hl with hres | hbusy
      · exact .inl hres
      · exact absurd (hF e hbusy) hne

theorem Paired.welcome (h : Paired E g) (hs : g.sockets.get id = some s)
    (hv : id ∉ g.verifying.map Prod.fst) (e : EngineId) (principal : Principal)
    (token : String) : Paired E (g.welcome id e principal token) := by
  have hback : ∀ {j t'}, (g.welcome id e principal token).sockets.get j = some t' →
      ∃ t, g.sockets.get j = some t ∧ t'.connected = t.connected ∧ t'.engineId = t.engineId := by
    intro j t' hj
    rw [get_admitted hs] at hj
    split at hj
    next hid =>
      cases hj
      exact ⟨s, hid ▸ hs, rfl, rfl⟩
    next => exact ⟨t', hj, rfl, rfl⟩
  refine { h with alone := ?_, claimed := ?_, pending := ?_ }
  · intro i j t t' hi hj hc hc' he
    obtain ⟨t₀, hi₀, hcon, heng⟩ := hback hi
    obtain ⟨t₁, hj₁, hcon', heng'⟩ := hback hj
    rw [heng] at he ⊢
    exact h.alone hi₀ hj₁ (hcon.symm.trans hc) (hcon'.symm.trans hc') (he.trans heng')
  · intro j t r hj hc hr
    obtain ⟨t₀, hj₀, hcon, heng⟩ := hback hj
    rw [heng] at hr
    exact h.claimed hj₀ (hcon.symm.trans hc) hr
  · intro entry hentry
    have hne : entry.1 ≠ id := fun he => hv (he ▸ List.mem_map_of_mem hentry)
    obtain ⟨t, ht, hp, hst⟩ := h.pending entry hentry
    exact ⟨t, by rw [get_admitted hs, if_neg hne]; exact ht, hp, hst⟩

/-- A socket joins the room; it is not polled for yet. -/
theorem Loose.welcome (h : Loose Q (fun _ => False) F (fun _ => False) none g)
    (hs : g.sockets.get id = some s) (hc : s.connected = true) (hl : g.live = true)
    (hp : s.principal = none) (hv : id ∉ g.verifying.map Prod.fst)
    (hF : ∀ e, F e → e = s.engineId) {principal : Principal}
    (he : isEligibleForMetrics principal = true) {token : String}
    (hQ : ∃ v row, Q v ∧ v.token = token ∧ v.answer = some (some (principal, row))) :
    Loose Q (fun _ => False) (fun _ => False) (fun _ => False) (some id)
      (g.welcome id s.engineId principal token) := by
  have hu : s.cleanedUp = false :=
    Bool.of_not_eq_true fun hu => h.flushed id s hs hu hc hl
  have hid : id ∉ g.room := by
    rw [h.counted.member, principalOf, hs]
    simp [hp]
  have hroom : (g.welcome id s.engineId principal token).room = g.room ++ [id] := if_neg hid
  refine ⟨h.counted.welcome hs hp hc hu he _ _, ?_, ?_, ?_, ?_,
    h.guarded.welcome hs hF principal token, h.paired.welcome hs hv _ _ _,
    ⟨h.sourced.pending, ?_⟩⟩
  · intro _
    show g.interval = true ↔ _
    rw [h.polled hl, hroom]
    constructor
    · rintro ⟨j, hj, _⟩
      refine ⟨j, List.mem_append_left _ hj, ?_⟩
      rintro ⟨⟩
      exact hid hj
    · rintro ⟨j, hj, hne⟩
      rcases List.mem_append.mp hj with hj | hj
      · exact ⟨j, hj, by simp⟩
      · exact absurd (congrArg some (List.mem_singleton.mp hj).symm) hne
  · intro hdead
    rw [show g.live = false from hdead] at hl
    cases hl
  · intro j t hj hct hlive
    rw [get_admitted hs] at hj
    split at hj
    next hjd => exact hjd ▸ h.tracked id s hs hc hlive
    next => exact h.tracked j t hj hct hlive
  · intro j t hj hut hct hlive
    rw [get_admitted hs] at hj
    split at hj
    next =>
      cases hj
      exact h.flushed id s hs hut hct hlive
    next => exact h.flushed j t hj hut hct hlive
  · intro j t p hj hpt
    rw [get_admitted hs] at hj
    split at hj
    next =>
      cases hj
      cases hpt
      obtain ⟨v, row, hv, rfl, ha⟩ := hQ
      exact ⟨v, row, hv, rfl, ha⟩
    next => exact h.sourced.principal hj hpt

/-- The reservation of `e` goes. -/
theorem Loose.release (h : Loose Q C F E N g) (e : EngineId) :
    Loose Q C (fun e' => F e' ∨ e' = e) E N
      { g with reservations := g.reservations.remove fun r => r.id = e } := by
  have hsheds : Sheds g { g with reservations := g.reservations.remove fun r => r.id = e } := by
    have hrelease := Sheds.release g e
    rw [release_eq] at hrelease
    exact hrelease
  refine ⟨{ h.counted with }, h.polled, h.idle, h.tracked, h.flushed, ?_,
    h.paired.sheds hsheds, h.sourced.sheds hsheds⟩
  refine h.guarded.sheds hsheds (fun _ => .inl) ?_ ?_
  · intro j t t' r hj hj' hc hnot _
    rw [show g.sockets.get j = some t' from hj'] at hj
    cases hj
    rw [hc] at hnot
    cases hnot
  · intro e' r hres hgone _ _ _
    dsimp only at hgone
    rw [get_released] at hgone
    split at hgone
    next he => exact .inr he
    next =>
      rw [hgone] at hres
      cases hres

/-- The interval is there once `startPollingIfNeeded` has run. -/
theorem Loose.startPollingIfNeeded
    (h : Loose Q (fun _ => False) (fun _ => False) (fun _ => False) (some id) g)
    (hid : id ∈ g.room) : Inv Q (g.startPollingIfNeeded S) := by
  have hpolled : ∀ g' : EventsGateway, g'.interval = true → g'.room = g.room → Polled none g' := by
    intro g' hi hroom _
    rw [hi, hroom]
    exact ⟨fun _ => ⟨id, hid, nofun⟩, fun _ => rfl⟩
  unfold EventsGateway.startPollingIfNeeded
  split
  next hi => exact { h with polled := hpolled g hi rfl }
  next =>
    have hinv : Inv Q { g with interval := true } :=
      ⟨{ h.counted with }, hpolled _ rfl rfl, h.idle, h.tracked, h.flushed, ⟨h.guarded.raw,
        h.guarded.reserved⟩, { h.paired with }, { h.sourced with }⟩
    dsimp only
    split
    · exact hinv.alike { Alike.refl { g with interval := true } with }
    · exact hinv.alike (.startTick hinv.counted true)

theorem Alike.armTimer (g : EventsGateway) (id : SocketId) (exp : Nat) :
    Alike g (g.armTimer id exp) :=
  Alike.modify g id _ _ fun _ => ⟨rfl, rfl, fun h => h, rfl, rfl, rfl⟩

theorem Alike.emitCacheIfFresh (g : EventsGateway) : Alike g g.emitCacheIfFresh := by
  unfold EventsGateway.emitCacheIfFresh
  split
  · exact .refl g
  · split
    · exact { Alike.refl g with }
    · exact .refl g

/-- `onAuthSuccess` once the reservation is released and the socket is there. -/
theorem Loose.authenticate
    (h : Loose Q (fun _ => False) (fun e => False ∨ e = s.engineId) (fun _ => False) none g)
    (hs : g.sockets.get id = some s) (hc : s.connected = true) (hl : g.live = true)
    (hp : s.principal = none) (hv : id ∉ g.verifying.map Prod.fst) {principal : Principal}
    {token : String}
    (hQ : ∃ v row, Q v ∧ v.token = token ∧ v.answer = some (some (principal, row))) :
    Inv Q (g.authenticate S id s.engineId principal token) := by
  let g₂ := g.modify id fun s => { s with deadline := false }
  have h₂ : Loose Q _ _ _ none g₂ :=
    h.alike (.modify g id _ _ fun _ => ⟨rfl, rfl, fun h => h, rfl, rfl, rfl⟩)
  have hs₂ : g₂.sockets.get id = some { s with deadline := false } := by
    rw [get_modify, if_pos rfl, hs]
    rfl
  have hF : ∀ e, False ∨ e = s.engineId → e = s.engineId := fun _ he => he.resolve_left not_false
  unfold EventsGateway.authenticate
  dsimp only
  split
  next =>
    exact Loose.disconnect hs₂ hc (h₂.mono (fun _ => False.elim) hF fun _ => False.elim)
  next hel =>
    have he : isEligibleForMetrics principal = true := Bool.of_not_eq_false hel
    have h₃ := h₂.welcome hs₂ hc hl hp hv hF he hQ
    have hs₃ := get_admitted hs₂ s.engineId principal token id
    rw [if_pos rfl] at hs₃
    split
    next =>
      exact Loose.disconnectSilent hs₃ hc
        (h₃.mono (fun _ => False.elim) (fun _ => False.elim) fun _ => False.elim) (.inr rfl)
    next =>
      have ha := (Alike.armTimer (g₂.welcome id s.engineId principal token) id principal.exp).trans
        (.emitCacheIfFresh _)
      refine (h₃.alike ha).startPollingIfNeeded ?_
      rw [ha.room, h₃.counted.member, principalOf, hs₃]
      rfl

/-- **`onAuthSuccess`**, of a socket whose `verify` was the pending one. -/
theorem Loose.onAuthSuccess (h : Inv Q g) {principal : Principal} {token : String}
    (hp : ∀ s, g.sockets.get id = some s → s.principal = none)
    (hv : id ∉ g.verifying.map Prod.fst)
    (hQ : ∃ v row, Q v ∧ v.token = token ∧ v.answer = some (some (principal, row))) :
    Inv Q (g.onAuthSuccess S id principal token) := by
  unfold EventsGateway.onAuthSuccess
  cases hs : g.sockets.get id with
  | none => exact h
  | some s =>
      dsimp only
      split
      next => exact h
      next hlive =>
        have hl : g.live = true := Bool.of_not_eq_false hlive
        split
        next => exact h.silenced id
        next =>
          cases hres : g.reservations.get s.engineId with
          | none =>
              rw [show g.release s.engineId = (false, g) by rw [EventsGateway.release, hres]]
              exact h.silenced id
          | some r =>
              rw [release_eq, hres]
              dsimp only [Option.isSome_some]
              have hfree := h.release s.engineId
              split
              next hc =>
                -- it left meanwhile: its raw connection is closed, or authenticated
                obtain ⟨r', hr', _, hclosed⟩ := h.guarded.raw hs
                refine { hfree with guarded := ⟨hfree.guarded.raw, ?_⟩ }
                intro e r₁ hr₁ ho ha hlive
                rcases hfree.guarded.reserved hr₁ ho ha hlive with hin | ⟨⟨⟩⟩ | rfl
                · exact .inl hin
                · rw [show g.raws.get s.engineId = some r₁ from hr₁] at hr'
                  cases hr'
                  rcases hclosed hc with hno | hauth
                  · rw [ho] at hno
                    cases hno
                  · rw [ha] at hauth
                    cases hauth
              next hnot =>
                have hc : s.connected = true := Bool.of_not_eq_false hnot
                exact hfree.authenticate hs hc hl (hp s hs) hv hQ

/-- A `verify` starts. -/
theorem Loose.startVerifying (h : Loose Q C F E N g) (hs : g.sockets.get id = some s)
    (hp : s.principal = none) (hst : s.status ≠ .pending) (hv : id ∉ g.verifying.map Prod.fst)
    {token : String} (hQ : Q (verify S token g.now)) :
    Loose Q C F E N (g.startVerifying S id token) := by
  refine ⟨{ h.counted with }, h.polled, h.idle, h.tracked, h.flushed, ⟨h.guarded.raw,
    h.guarded.reserved⟩, { h.paired with once := ?_, pending := ?_ },
    { h.sourced with pending := ?_ }⟩
  · show ((g.verifying ++ [(id, verify S token g.now)]).map Prod.fst).Nodup
    rw [List.map_append, List.nodup_append]
    refine ⟨h.paired.once, List.nodup_singleton id, ?_⟩
    intro j hj j' hj' he
    have hid : j = id := he.trans (List.mem_singleton.mp hj')
    exact hv (hid ▸ hj)
  · intro entry hentry
    rcases List.mem_append.mp hentry with hentry | hentry
    · exact h.paired.pending entry hentry
    · rw [List.mem_singleton.mp hentry]
      exact ⟨s, hs, hp, hst⟩
  · intro entry hentry
    rcases List.mem_append.mp hentry with hentry | hentry
    · exact h.sourced.pending entry hentry
    · rw [List.mem_singleton.mp hentry]
      exact hQ

/-- A pending socket has no `verify`. -/
theorem Paired.not_verifying (h : Paired E g) (hs : g.sockets.get id = some s)
    (hst : s.status = .pending) : id ∉ g.verifying.map Prod.fst := by
  intro hmem
  obtain ⟨entry, hentry, rfl⟩ := List.mem_map.mp hmem
  obtain ⟨t, ht, _, hne⟩ := h.pending entry hentry
  rw [hs] at ht
  cases ht
  exact hne hst

/-- A pending socket has no principal. -/
theorem Counted.principal_eq_none (h : Counted g) (hs : g.sockets.get id = some s)
    (hst : s.status = .pending) : s.principal = none := by
  cases hp : s.principal with
  | none => rfl
  | some p =>
      obtain ⟨_, _, _, _, hne⟩ := h.held hs hp
      exact absurd hst hne

/-- A pending socket turns to a `verify`. -/
theorem Loose.verifying (h : Inv Q g) (hs : g.sockets.get id = some s) (hst : s.status = .pending)
    {token : String} (hQ : Q (verify S token g.now)) :
    Inv Q ((g.modify id fun s => { s with status := .verifying }).startVerifying S id token) := by
  have ha : Alike g (g.modify id fun s => { s with status := .verifying }) :=
    .modify g id _ _ fun _ => ⟨rfl, rfl, fun _ => nofun, rfl, rfl, rfl⟩
  have hs' : (g.modify id fun s => { s with status := .verifying }).sockets.get id =
      some { s with status := .verifying } := by
    rw [get_modify, if_pos rfl, hs]
    rfl
  have hp : s.principal = none := h.counted.principal_eq_none hs hst
  exact (h.alike ha).startVerifying hs' hp nofun (h.paired.not_verifying hs hst) hQ

theorem Loose.onAuth (h : Inv Q g) (hs : g.sockets.get id = some s)
    (hQ : ∀ token, Q (verify S token g.now)) (payload : AuthEventValue) :
    Inv Q (g.onAuth S s payload) := by
  have hid : s.id = id := Table.get_key hs
  unfold EventsGateway.onAuth
  split
  next => exact h.silenced _
  next hst =>
    have hst : s.status = .pending := not_not.mp hst
    dsimp only
    split
    · rw [hid]
      exact h.verifying hs hst (hQ _)
    · have ha : Alike g (g.modify s.id fun s => { s with status := .verifying }) :=
        .modify g s.id _ _ fun _ => ⟨rfl, rfl, fun _ h => (by cases h), rfl, rfl, rfl⟩
      exact (h.alike ha).silenced _

/-! ## §2. Connections. -/

/-- `claim`: the reservation is claimed now, and nobody was connected if it was not. -/
theorem Loose.claim (h : Loose Q C F E N g) (e : EngineId) :
    Loose Q C F E N (g.claim e).2 ∧
      (∀ r, (g.claim e).2.reservations.get e = some r → r.claimed = true) ∧
      ((g.claim e).1 = true → ∀ {j t}, g.sockets.get j = some t → t.connected = true →
        t.engineId ≠ e) ∧
      (g.claim e).2.sockets = g.sockets ∧ (g.claim e).2.raws = g.raws ∧
      (g.claim e).2.now = g.now := by
  unfold EventsGateway.claim
  cases hr : g.reservations.get e with
  | none =>
      refine ⟨h, fun r hr' => ?_, fun hclaimed => (by cases hclaimed), rfl, rfl, rfl⟩
      cases hr.symm.trans hr'
  | some r =>
      dsimp only
      split
      next hc =>
        refine ⟨h, ?_, fun hclaimed => (by cases hclaimed), rfl, rfl, rfl⟩
        intro r' hr'
        rw [hr] at hr'
        cases hr'
        exact hc
      next hc =>
        have hnot : r.claimed = false := Bool.of_not_eq_true hc
        have hclaimed : ∀ e' r', (g.reservations.modify
            (fun r => if r.id = e then { r with claimed := true, claims := r.claims + 1 } else r)
            fun r => by split <;> rfl).get e' = some r' →
            ∃ r₀, g.reservations.get e' = some r₀ ∧
              r' = if e' = e then { r₀ with claimed := true, claims := r₀.claims + 1 } else r₀ := by
          intro e' r' hr'
          rw [Table.get_modify, Option.map_eq_some_iff] at hr'
          obtain ⟨r₀, hr₀, rfl⟩ := hr'
          refine ⟨r₀, hr₀, ?_⟩
          rw [show r₀.id = e' from Table.get_key hr₀]
        refine ⟨⟨{ h.counted with }, h.polled, h.idle, h.tracked, h.flushed,
          ⟨h.guarded.raw, ?_⟩, { h.paired with claimed := ?_, claims := ?_, cap := ?_ },
          { h.sourced with }⟩, ?_, ?_, rfl, rfl, rfl⟩
        · intro e' raw hraw ho ha hl
          refine (h.guarded.reserved hraw ho ha hl).imp_left ?_
          intro hres
          dsimp only
          rw [Table.get_modify, Option.isSome_map]
          exact hres
        · intro j t r' hj hcon hr'
          obtain ⟨r₀, hr₀, rfl⟩ := hclaimed _ r' hr'
          split
          · rfl
          · exact h.paired.claimed hj hcon hr₀
        · intro r' hr'
          obtain ⟨r₀, hr₀, rfl⟩ := List.mem_map.mp hr'
          have hclaims := h.paired.claims r₀ hr₀
          split
          next hid =>
            -- the one that is claimed now was not claimed before
            have : r₀ = r := by
              have hget := Table.get_eq_some.mpr ⟨hr₀, hid⟩
              rw [hr] at hget
              exact (Option.some.inj hget).symm
            rw [this, hnot] at hclaims
            rw [this]
            simpa using hclaims
          next => exact hclaims
        · show (g.reservations.rows.map _).length ≤ pendingCap
          rw [List.length_map]
          exact h.paired.cap
        · intro r' hr'
          obtain ⟨r₀, _, rfl⟩ := hclaimed e r' hr'
          rw [if_pos rfl]
        · intro _ j t hj hcon he
          have hbefore := h.paired.claimed hj hcon (he ▸ hr)
          rw [hnot] at hbefore
          cases hbefore

/-- The socket of `handleConnection`. -/
def Socket.fresh (id : SocketId) (engineId : EngineId) : Socket :=
  { id := id, engineId := engineId, connected := true, status := .pending, deadline := false
    listener := false, principal := none, accessToken := none, expiryTimer := none
    cleanedUp := false }

/-- A socket connects, on a raw connection that is there. -/
theorem Loose.insertSocket {e : EngineId} {r : RawConn} {sockets : Table Socket.id}
    (h : Loose Q C F E none g) (hins : g.sockets.insert (Socket.fresh id e) = some sockets)
    (hraw : g.raws.get e = some r)
    (hclaimed : ∀ r, g.reservations.get e = some r → r.claimed = true)
    (halone : ∀ {j t}, g.sockets.get j = some t → t.connected = true → t.engineId = e → E e) :
    Loose Q C F E none { g with sockets := sockets, tracked := g.tracked ++ [id] } := by
  have hget : ∀ j, sockets.get j = if id = j then some (Socket.fresh id e) else g.sockets.get j :=
    Table.get_insert hins
  have hnew : g.sockets.get id = none := (Table.insert_rows hins).2
  refine ⟨⟨h.counted.nodup, h.counted.count, ?_, ?_⟩, h.polled, h.idle, ?_, ?_,
    ⟨?_, h.guarded.reserved⟩, { h.paired with alone := ?_, claimed := ?_, pending := ?_ },
    { h.sourced with principal := ?_ }⟩
  · intro j
    show j ∈ g.room ↔ ((sockets.get j).bind Socket.principal).isSome = true
    rw [h.counted.member, hget]
    split
    next hj => subst hj; simp [principalOf, hnew, Socket.fresh]
    next => rfl
  · intro j t p hj hp
    dsimp only at hj
    rw [hget] at hj
    split at hj
    next => cases hj; cases hp
    next => exact h.counted.held hj hp
  · intro j t hj hc hl
    dsimp only at hj
    rw [hget] at hj
    split at hj
    next he => exact List.mem_append_right _ (List.mem_singleton.mpr he.symm)
    next => exact List.mem_append_left _ (h.tracked j t hj hc hl)
  · intro j t hj hu hc hl
    dsimp only at hj
    rw [hget] at hj
    split at hj
    next => cases hj; cases hu
    next => exact h.flushed j t hj hu hc hl
  · intro j t hj
    dsimp only at hj
    rw [hget] at hj
    split at hj
    next => cases hj; exact ⟨r, hraw, fun h => (by cases h), fun h => (by cases h)⟩
    next => exact h.guarded.raw hj
  · intro i j t t' hi hj hc hc' he
    dsimp only at hi hj
    rw [hget] at hi hj
    split at hi
    next hii =>
      cases hi
      split at hj
      next hjj => exact .inl (hii.symm.trans hjj)
      next => exact .inr (halone hj hc' he.symm)
    next =>
      split at hj
      next => cases hj; exact .inr (he ▸ halone hi hc he)
      next => exact h.paired.alone hi hj hc hc' he
  · intro j t r' hj hc hr
    dsimp only at hj
    rw [hget] at hj
    split at hj
    next => cases hj; exact hclaimed r' hr
    next => exact h.paired.claimed hj hc hr
  · intro entry hentry
    obtain ⟨t, ht, hp, hst⟩ := h.paired.pending entry hentry
    refine ⟨t, ?_, hp, hst⟩
    dsimp only
    rw [hget, if_neg (fun he => by rw [he, ht] at hnew; cases hnew)]
    exact ht
  · intro j t p hj hp
    dsimp only at hj
    rw [hget] at hj
    split at hj
    next => cases hj; cases hp
    next => exact h.sourced.principal hj hp

/-- **`handleConnection`.** -/
theorem Loose.handleConnection {e : EngineId} {r : RawConn} {cookie : CookieHeader} (h : Inv Q g)
    (hraw : g.raws.get e = some r) (hQ : ∀ token, Q (verify S token g.now))
    (hg : g.handleConnection S id e cookie = some g') : Inv Q g' := by
  obtain ⟨hclaim, hclaimed, hfirst, hsockets, hraws, hnow⟩ := h.claim e
  unfold EventsGateway.handleConnection at hg
  dsimp only at hg
  obtain ⟨sockets, hins, hg⟩ := Option.bind_eq_some_iff.mp hg
  have hs : sockets.get id = some (Socket.fresh id e) := by
    rw [Table.get_insert hins]
    exact if_pos rfl
  split at hg
  next hnot =>
    -- the claim is refused: the connection may have two sockets until it is closed
    injection hg with hg
    subst hg
    have hbusy : Loose Q (fun _ => False) (fun _ => False) (· = e) none (g.claim e).2 :=
      hclaim.mono (fun _ => False.elim) (fun _ => False.elim) fun _ => False.elim
    refine Loose.disconnectSilent (s := Socket.fresh id e) hs rfl
      ((hbusy.insertSocket hins (hraws ▸ hraw) hclaimed fun _ _ _ => rfl).mono
        (fun _ => False.elim) (fun _ => False.elim) fun _ he => he) (.inl rfl)
  next hnot =>
    have hyes : (g.claim e).1 = true := Bool.of_not_eq_false hnot
    have hin := hclaim.insertSocket hins (hraws ▸ hraw) hclaimed fun hj hc he =>
      hfirst hyes (hsockets ▸ hj) hc he
    have harmed := hin.alike (.modify _ id (fun s => { s with deadline := true }) (fun _ => rfl)
      fun _ => ⟨rfl, rfl, fun h => h, rfl, rfl, rfl⟩)
    split at hg
    · injection hg with hg
      subst hg
      exact harmed.silenced id
    · injection hg with hg
      subst hg
      refine harmed.verifying (s := { Socket.fresh id e with deadline := true }) ?_ rfl (hnow ▸ hQ _)
      rw [get_modify, if_pos rfl, hs]
      rfl
    · injection hg with hg
      subst hg
      exact harmed.alike (.modify _ id _ _ fun _ => ⟨rfl, rfl, fun h => h, rfl, rfl, rfl⟩)

/-- A raw connection, and `reserve`. -/
theorem Loose.rawConnect {e : EngineId} {raws : Table RawConn.id} (h : Inv Q g)
    (hins : g.raws.insert ⟨e, true, false⟩ = some raws) :
    Inv Q ({ g with raws := raws }.reserve e) := by
  have hget : ∀ e', raws.get e' = if e = e' then some ⟨e, true, false⟩ else g.raws.get e' :=
    Table.get_insert hins
  have hnew : g.raws.get e = none := (Table.insert_rows hins).2
  have hsame : ∀ {j t}, g.sockets.get j = some t → t.engineId ≠ e := by
    intro j t hj he
    obtain ⟨r, hr, _⟩ := h.guarded.raw hj
    rw [he, hnew] at hr
    cases hr
  -- the new connection is open and not reserved yet
  have hopen : Loose Q (fun _ => False) (· = e) (fun _ => False) none { g with raws := raws } := by
    refine ⟨{ h.counted with }, h.polled, h.idle, h.tracked, h.flushed, ⟨?_, ?_⟩,
      { h.paired with }, { h.sourced with }⟩
    · intro j t hj
      obtain ⟨r, hr, hauth⟩ := h.guarded.raw hj
      refine ⟨r, ?_, hauth⟩
      dsimp only
      rw [hget, if_neg (hsame hj).symm]
      exact hr
    · intro e' r hr ho ha hl
      dsimp only at hr
      rw [hget] at hr
      split at hr
      next he => exact .inr he.symm
      next => exact (h.guarded.reserved hr ho ha hl).imp_right False.elim
  have hclosed : Inv Q ({ g with raws := raws }.closeRaw e) :=
    ⟨{ hopen.counted with }, hopen.polled, hopen.idle, hopen.tracked, hopen.flushed,
      (hopen.guarded.closeRaw e).mono fun _ he => he.2 he.1, { hopen.paired with },
      { hopen.sourced with }⟩
  unfold reserve
  split
  next => exact hclosed
  next =>
    split
    next => exact hclosed
    next hcap =>
      split
      next => exact hclosed
      next reservations hres =>
        have hgetr : ∀ e', reservations.get e' =
            if e = e' then some ⟨e, false, 0⟩ else g.reservations.get e' := Table.get_insert hres
        refine ⟨{ hopen.counted with }, hopen.polled, hopen.idle, hopen.tracked, hopen.flushed,
          ⟨hopen.guarded.raw, ?_⟩, { hopen.paired with claimed := ?_, claims := ?_, cap := ?_ },
          { hopen.sourced with }⟩
        · intro e' r hr ho ha hl
          refine .inl ?_
          dsimp only
          rw [hgetr]
          split
          next => rfl
          next hne =>
            exact (hopen.guarded.reserved hr ho ha hl).resolve_right fun he => hne he.symm
        · intro j t r hj hc hr
          dsimp only at hr
          rw [hgetr, if_neg (hsame hj).symm] at hr
          exact hopen.paired.claimed hj hc hr
        · intro r hr
          dsimp only at hr
          rw [(Table.insert_rows hres).1, List.mem_append, List.mem_singleton] at hr
          rcases hr with hr | rfl
          · exact hopen.paired.claims r hr
          · rfl
        · show reservations.rows.length ≤ pendingCap
          rw [(Table.insert_rows hres).1, List.length_append]
          exact Nat.not_le.mp hcap

/-- A reservation goes, and its raw connection with it. -/
theorem Loose.releaseAndClose (h : Inv Q g) (e : EngineId) : Inv Q (g.releaseAndClose e) := by
  unfold EventsGateway.releaseAndClose
  cases hres : g.reservations.get e with
  | none =>
      rw [EventsGateway.release, hres]
      exact h
  | some r =>
      rw [release_eq, hres]
      have hfree := h.release e
      exact ⟨{ hfree.counted with }, hfree.polled, hfree.idle, hfree.tracked, hfree.flushed,
        (hfree.guarded.closeRaw e).mono fun _ he => he.1.elim id he.2, { hfree.paired with },
        { hfree.sourced with }⟩

theorem Loose.releaseAll (h : Inv Q g) : Inv Q g.releaseAll := by
  unfold EventsGateway.releaseAll
  generalize g.reservations.rows.map Reservation.id = l
  induction l generalizing g with
  | nil => exact h
  | cons e l ih => exact ih (h.releaseAndClose e)

theorem Loose.closeRaw (h : Inv Q g) (e : EngineId) : Inv Q (g.closeRaw e) :=
  ⟨{ h.counted with }, h.polled, h.idle, h.tracked, h.flushed,
    (h.guarded.closeRaw e).mono fun _ he => he.1, { h.paired with }, { h.sourced with }⟩

/-- A raw connection closes. -/
theorem Loose.onRawClose (h : Inv Q g) (e : EngineId) : Inv Q (g.onRawClose e) := by
  obtain ⟨hleft, _⟩ := (h.closeRaw e).leaveSocketsOf e
  have hsheds := Sheds.foldl .leaveNamespace ((g.closeRaw e).socketsOf e) (g.closeRaw e)
  unfold EventsGateway.onRawClose
  dsimp only
  rw [release_eq]
  have hfree := hleft.release e
  refine { hfree with guarded := ⟨hfree.guarded.raw, ?_⟩ }
  intro e' r hr ho ha hl
  rcases hfree.guarded.reserved hr ho ha hl with hin | ⟨⟨⟩⟩ | rfl
  · exact .inl hin
  · -- it is closed, and stays so
    obtain ⟨r₀, hr₀, hc⟩ := hsheds.raw_before hr
    rw [get_closeRaw, if_pos rfl, Option.map_eq_some_iff] at hr₀
    obtain ⟨r₁, _, rfl⟩ := hr₀
    exact absurd (hc.isOpen ho) nofun

/-- The loop of `onModuleDestroy`. -/
theorem cleanupAll_spec (l : List SocketId) (hc : Counted g) (hg : Guarded (fun _ => True) g) :
    Counted (l.foldl cleanupSocket g) ∧ Guarded (fun _ => True) (l.foldl cleanupSocket g) ∧
      ∀ j ∈ (l.foldl cleanupSocket g).room, j ∈ g.room ∧ j ∉ l := by
  induction l generalizing g with
  | nil => exact ⟨hc, hg, fun j hj => ⟨hj, nofun⟩⟩
  | cons id l ih =>
      cases hs : g.sockets.get id with
      | none =>
          have hsame : g.cleanupSocket id = g := by rw [EventsGateway.cleanupSocket, hs]
          obtain ⟨hc', hg', hroom⟩ := ih hc hg
          rw [List.foldl_cons, hsame]
          refine ⟨hc', hg', ?_⟩
          intro j hj
          obtain ⟨hj, hnot⟩ := hroom j hj
          refine ⟨hj, fun hmem => hnot ((List.mem_cons.mp hmem).resolve_left ?_)⟩
          rintro rfl
          obtain ⟨s, _, _, hsome, _⟩ := hc.of_mem hj
          rw [hs] at hsome
          cases hsome
      | some s =>
          obtain ⟨hc', hg', hroom⟩ := ih (hc.cleanupSocket hs)
            ((hg.cleanupSocket hs).mono fun _ _ => trivial)
          refine ⟨hc', hg', ?_⟩
          intro j hj
          obtain ⟨hj, hnot⟩ := hroom j hj
          rw [cleanupSocket_eq hs] at hj
          obtain ⟨hj, hne⟩ := List.mem_filter.mp hj
          refine ⟨hj, fun hmem => hnot ((List.mem_cons.mp hmem).resolve_left ?_)⟩
          simpa using hne

/-- **`onModuleDestroy`.** -/
theorem Loose.onModuleDestroy (h : Inv Q g) : Inv Q g.onModuleDestroy := by
  let g₀ := { g with live := false, pollGeneration := g.pollGeneration + 1 }.stopPolling
  have hc₀ : Counted g₀ := { h.counted with }
  have hg₀ : Guarded (fun _ => True) g₀ := ⟨h.guarded.raw, fun _ _ _ _ => .inr trivial⟩
  have hp₀ : Paired (fun _ => False) g₀ := { h.paired with }
  have hq₀ : Sourced Q g₀ := { h.sourced with }
  have hsheds : Sheds g₀ (g.tracked.foldl EventsGateway.cleanupSocket g₀) := .foldl .cleanupSocket _ _
  obtain ⟨hc, hg, hroom⟩ := cleanupAll_spec g.tracked hc₀ hg₀
  have hp := hp₀.sheds hsheds
  have hq := hq₀.sheds hsheds
  have hdead : (g.tracked.foldl EventsGateway.cleanupSocket g₀).live ≠ true := by
    rw [hsheds.live]
    nofun
  -- who was in the room was tracked, or the gateway was destroyed before
  have hempty : (g.tracked.foldl EventsGateway.cleanupSocket g₀).room = [] := by
    refine List.eq_nil_iff_forall_not_mem.mpr ?_
    intro j hj
    obtain ⟨hj, hnot⟩ := hroom j hj
    have hj : j ∈ g.room := hj
    cases hl : g.live with
    | false =>
        rw [h.idle hl] at hj
        cases hj
    | true =>
        obtain ⟨s, _, _, hs, _, hcon, _⟩ := h.counted.of_mem hj
        exact hnot (h.tracked j s hs hcon hl)
  show Inv Q { g.tracked.foldl EventsGateway.cleanupSocket g₀ with tracked := [] }
  exact ⟨{ hc with }, fun hl => absurd hl hdead, fun _ => hempty,
    fun _ _ _ _ hl => absurd hl hdead, fun _ _ _ _ _ hl => absurd hl hdead,
    ⟨hg.raw, fun _ _ _ hl => absurd hl hdead⟩, { hp with }, { hq with }⟩

/-- The `verify` of a socket is not pending any more. -/
theorem Loose.unverify (h : Inv Q g) (id : SocketId) :
    Inv Q { g with verifying := g.verifying.filter fun entry => entry.1 ≠ id } := by
  refine ⟨{ h.counted with }, h.polled, h.idle, h.tracked, h.flushed, ⟨h.guarded.raw,
    h.guarded.reserved⟩, { h.paired with once := ?_, pending := ?_ },
    { h.sourced with pending := ?_ }⟩
  · exact h.paired.once.sublist (List.filter_sublist.map Prod.fst)
  · exact fun entry hentry => h.paired.pending entry (List.mem_of_mem_filter hentry)
  · exact fun entry hentry => h.sourced.pending entry (List.mem_of_mem_filter hentry)

/-- Whoever has a pending `verify` has no principal. -/
theorem Paired.principal_of_find {entry : SocketId × Verification} (h : Paired E g)
    (hentry : g.verifying.find? (fun entry => entry.1 = id) = some entry)
    (hs : g.sockets.get id = some s) : s.principal = none := by
  have hid : entry.1 = id := by simpa using List.find?_some hentry
  obtain ⟨t, ht, hp, _⟩ := h.pending entry (List.mem_of_find?_eq_some hentry)
  rw [hid, hs] at ht
  cases ht
  exact hp

/-- A `verify` of a socket is over. -/
theorem Loose.settle {entry : SocketId × Verification} (h : Inv Q g)
    (hentry : g.verifying.find? (fun entry => entry.1 = id) = some entry)
    {answer : Option (Principal × User)} (ha : entry.2.answer = some answer) :
    Inv Q ({ g with verifying := g.verifying.filter fun entry => entry.1 ≠ id }.settle S id
      entry.2.token answer) := by
  unfold EventsGateway.settle
  split
  · exact (h.unverify id).silenced id
  next principal row =>
    refine (h.unverify id).onAuthSuccess (fun s hs => h.paired.principal_of_find hentry hs) ?_ ?_
    · simp
    · exact ⟨entry.2, row, h.sourced.pending entry (List.mem_of_find?_eq_some hentry), rfl, ha⟩

theorem Loose.onExpiry (h : Inv Q g) (socket : Socket) (timer : ExpiryTimer) :
    Inv Q (g.onExpiry socket timer) := by
  unfold EventsGateway.onExpiry
  split
  · exact h.silenced _
  · split
    · exact h
    · split
      · exact h.silenced _
      · exact h.alike (.armTimer _ _ _)

/-! ## §3. Every event. -/

/-- A task. -/
theorem Loose.stepTask {event : Event} (h : Inv Q g) (hQ : ∀ token, Q (verify S token g.now))
    (hs : g.stepTask S event = some g') : Inv Q g' := by
  cases event with
  | rawConnect id =>
      obtain ⟨raws, hins, hs⟩ := Option.bind_eq_some_iff.mp hs
      cases hs
      exact h.rawConnect hins
  | rawClose id =>
      obtain ⟨_, _, hs⟩ := Option.bind_eq_some_iff.mp hs
      cases hs
      exact h.onRawClose id
  | reservationDeadline id =>
      obtain ⟨_, _, hs⟩ := Option.bind_eq_some_iff.mp hs
      cases hs
      exact h.releaseAndClose id
  | connect id engineId cookie =>
      obtain ⟨raw, hraw, hs⟩ := Option.bind_eq_some_iff.mp hs
      obtain ⟨_, _, hs⟩ := Option.bind_eq_some_iff.mp hs
      exact h.handleConnection hraw hQ hs
  | auth id payload =>
      obtain ⟨socket, hsocket, hs⟩ := Option.bind_eq_some_iff.mp hs
      obtain ⟨_, _, hs⟩ := Option.bind_eq_some_iff.mp hs
      cases hs
      exact h.onAuth (Option.filter_eq_some_iff.mp hsocket).1 hQ payload
  | leave id =>
      obtain ⟨socket, hsocket, hs⟩ := Option.bind_eq_some_iff.mp hs
      cases hs
      exact h.leaveNamespace (Option.filter_eq_some_iff.mp hsocket).1
  | deadline id =>
      obtain ⟨socket, _, hs⟩ := Option.bind_eq_some_iff.mp hs
      obtain ⟨_, _, hs⟩ := Option.bind_eq_some_iff.mp hs
      cases hs
      have ha : Alike g (g.modify id fun s => { s with deadline := false }) :=
        .modify g id _ _ fun _ => ⟨rfl, rfl, fun h => h, rfl, rfl, rfl⟩
      exact (h.alike ha).silenced id
  | expiry id =>
      obtain ⟨socket, _, hs⟩ := Option.bind_eq_some_iff.mp hs
      obtain ⟨timer, _, hs⟩ := Option.bind_eq_some_iff.mp hs
      cases hs
      exact h.onExpiry socket timer
  | destroy =>
      cases hs
      exact h.onModuleDestroy
  | destroyReservations =>
      cases hs
      exact h.releaseAll
  | interval =>
      obtain ⟨_, _, hs⟩ := Option.bind_eq_some_iff.mp hs
      cases hs
      exact h.alike (.startTick h.counted false)
  | immediate =>
      obtain ⟨_, _, hs⟩ := Option.bind_eq_some_iff.mp hs
      cases hs
      have ha : Alike g { g with immediates := g.immediates - 1 } := { Alike.refl g with }
      exact (h.alike ha).alike (.startTick (h.alike ha).counted true)
  | tickCollected snapshot =>
      obtain ⟨tick, _, hs⟩ := Option.bind_eq_some_iff.mp hs
      obtain ⟨_, _, hs⟩ := Option.bind_eq_some_iff.mp hs
      cases hs
      exact h.alike (.collected h.counted tick snapshot)
  | _ => cases hs

/-- The SELECT of a socket's `verify`. -/
theorem Loose.readVerification {Q' : Verification → Prop} (h : Inv Q g) (hQ : ∀ v, Q v → Q' v)
    (hread : ∀ v fails, Q v → Q' (v.read g.users fails)) (id : SocketId) (fails : Bool) :
    Inv Q' (g.readVerification id fails) := by
  have hfst : (g.readVerification id fails).verifying.map Prod.fst =
      g.verifying.map Prod.fst := by
    show (g.verifying.map _).map Prod.fst = _
    rw [List.map_map]
    refine List.map_congr_left ?_
    intro entry _
    by_cases he : entry.1 = id ∧ entry.2.answer = none
    · simp [he]
    · simp [he]
  refine ⟨{ h.counted with }, h.polled, h.idle, h.tracked, h.flushed, ⟨h.guarded.raw,
    h.guarded.reserved⟩, { h.paired with once := ?_, pending := ?_ }, ⟨?_, ?_⟩⟩
  · rw [hfst]
    exact h.paired.once
  · intro entry hentry
    obtain ⟨entry₀, hentry₀, he⟩ := List.mem_map.mp (hfst ▸ List.mem_map_of_mem hentry)
    rw [← he]
    exact h.paired.pending entry₀ hentry₀
  · intro entry hentry
    obtain ⟨entry₀, hentry₀, rfl⟩ := List.mem_map.mp hentry
    split
    · exact hread _ fails (h.sourced.pending entry₀ hentry₀)
    · exact hQ _ (h.sourced.pending entry₀ hentry₀)
  · intro j t p hj hp
    obtain ⟨v, row, hv, ht, ha⟩ := h.sourced.principal hj hp
    exact ⟨v, row, hQ v hv, ht, ha⟩

theorem Loose.mono_verify {Q' : Verification → Prop} (h : Inv Q g) (hQ : ∀ v, Q v → Q' v) :
    Inv Q' g := by
  refine { h with sourced := ⟨fun entry hentry => hQ _ (h.sourced.pending entry hentry), ?_⟩ }
  intro j t p hj hp
  obtain ⟨v, row, hv, ht, ha⟩ := h.sourced.principal hj hp
  exact ⟨v, row, hQ v hv, ht, ha⟩

/-- **ONE EVENT KEEPS THE INVARIANT.** -/
theorem Loose.step {Q' : Verification → Prop} {event : Event} (h : Inv Q g)
    (hQ : ∀ v, Q v → Q' v) (hcall : ∀ token, Q' (verify S token g.now))
    (hread : ∀ v fails, Q v → Q' (v.read g.users fails)) (hs : g.step S event = some g') :
    Inv Q' g' := by
  have h' : Inv Q' g := h.mono_verify hQ
  unfold EventsGateway.step at hs
  split at hs
  next id fails =>
    cases hs
    exact h.readVerification hQ hread id fails
  next id =>
    obtain ⟨entry, hentry, hs⟩ := Option.bind_eq_some_iff.mp hs
    obtain ⟨answer, ha, hs⟩ := Option.bind_eq_some_iff.mp hs
    cases hs
    exact h'.settle hentry ha
  next fails =>
    obtain ⟨tick, _, hs⟩ := Option.bind_eq_some_iff.mp hs
    split at hs
    · obtain ⟨_, _, hs⟩ := Option.bind_eq_some_iff.mp hs
      cases hs
      exact h'.alike { Alike.refl g with }
    · cases hs
  next =>
    obtain ⟨tick, _, hs⟩ := Option.bind_eq_some_iff.mp hs
    split at hs
    · obtain ⟨answer, _, hs⟩ := Option.bind_eq_some_iff.mp hs
      cases hs
      exact h'.resumeRevalidation tick answer _ _
    · cases hs
  next =>
    obtain ⟨tick, _, hs⟩ := Option.bind_eq_some_iff.mp hs
    split at hs
    · cases hs
      exact h'.alike (.resumeTick g tick _)
    · cases hs
  next users =>
    cases hs
    exact h'.alike { Alike.refl g with }
  next now =>
    cases hs
    exact h'.alike { Alike.refl g with }
  next =>
    split at hs
    · cases hs
    · exact h'.stepTask hcall hs

end MinePanel.Gateway
