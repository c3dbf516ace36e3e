/-
  MinePanel.Gateway.Accounting
  ────────────────────────────
  **WHAT HOLDS AFTER EVERY HANDLER.**

  The invariant in every state that is reached, from a gateway before its first
  connection:

    * `gateway_accounting` — counter, room, principals and interval;
    * `pre_auth_cap` — reservations and open raw connections.

  Who has a principal was verified: the token was checked in a state of the past,
  and the row of its user was read in a later one (`WasVerified`).
-/
import MinePanel.Gateway.Handlers
import MinePanel.Accounts.System

namespace MinePanel.Gateway

open MinePanel.Db MinePanel.Lib EventsGateway

/-! ## §1. The past. -/

variable {S : Settings} {g₀ g g' : EventsGateway}

/-- The token was verified on the way from `g₀` to `g`, with this result. -/
def WasVerified (S : Settings) (g₀ g : EventsGateway) (token : String) (found : Principal × User) :
    Prop :=
  ∃ g₁ g₂, (machine S).Reach g₀ g₁ ∧ (machine S).Reach g₁ g₂ ∧ (machine S).Reach g₂ g ∧
    authorize (claimsOf S token g₁.now) g₂.users = some found

/-- A `verify` that was called, and if it has an answer was read, on the way from
`g₀` to `g`. -/
def IsPast (S : Settings) (g₀ g : EventsGateway) (v : Verification) : Prop :=
  ∃ g₁, (machine S).Reach g₀ g₁ ∧ (machine S).Reach g₁ g ∧ v.claims = claimsOf S v.token g₁.now ∧
    ∀ found, v.answer = some (some found) → WasVerified S g₀ g v.token found

theorem WasVerified.mono {token : String} {found : Principal × User}
    (h : WasVerified S g₀ g token found) (hr : (machine S).Reach g g') :
    WasVerified S g₀ g' token found := by
  obtain ⟨g₁, g₂, h₁, h₂, h₃, ha⟩ := h
  exact ⟨g₁, g₂, h₁, h₂, h₃.trans hr, ha⟩

theorem IsPast.mono {v : Verification} (h : IsPast S g₀ g v) (hr : (machine S).Reach g g') :
    IsPast S g₀ g' v := by
  obtain ⟨g₁, h₁, h₂, hc, ha⟩ := h
  exact ⟨g₁, h₁, h₂.trans hr, hc, fun found hf => (ha found hf).mono hr⟩

/-- The SELECT is answered from the table as it is. -/
theorem IsPast.read {v : Verification} (h : IsPast S g₀ g v) (fails : Bool) :
    IsPast S g₀ g (v.read g.users fails) := by
  obtain ⟨g₁, h₁, h₂, hc, _⟩ := h
  refine ⟨g₁, h₁, h₂, hc, ?_⟩
  intro found hf
  have hfound := Option.some.inj hf
  split at hfound
  · cases hfound
  · exact ⟨g₁, g, h₁, h₂, .start, hc ▸ hfound⟩

theorem isPast_verify (h : (machine S).Reach g₀ g) (token : String) :
    IsPast S g₀ g (verify S token g.now) := by
  refine ⟨g, h, .start, rfl, ?_⟩
  intro found hf
  cases hf

/-- **THE INVARIANT IN EVERY STATE.** -/
theorem inv_of_reach (h₀ : Inv (IsPast S g₀ g₀) g₀) (h : (machine S).Reach g₀ g) :
    Inv (IsPast S g₀ g) g := by
  induction h with
  | start => exact h₀
  | step hr hs ih =>
      have hnext : (machine S).Reach _ _ := .step .start hs
      exact ih.step (fun v hv => hv.mono hnext) (fun token => (isPast_verify hr token).mono hnext)
        (fun v fails hv => (hv.read fails).mono hnext) hs

theorem inv_initial (users : Users) (now : Nat) (Q : Verification → Prop) :
    Inv Q (initial users now) := by
  -- no socket, no raw connection, no reservation, no `verify`
  have hs : ∀ {j s}, (initial users now).sockets.get j ≠ some s := fun h => by cases h
  have hr : ∀ {e r}, (initial users now).raws.get e ≠ some r := fun h => by cases h
  have hroom : ∀ j, j ∉ (initial users now).room := fun _ => List.not_mem_nil
  refine ⟨⟨List.nodup_nil, rfl, ?_, fun h => absurd h hs⟩, ?_, fun _ => rfl, fun _ _ h => absurd h hs,
    fun _ _ h => absurd h hs, ⟨fun h => absurd h hs, fun h => absurd h hr⟩,
    ⟨fun h => absurd h hs, fun h => absurd h hs, ?_, Nat.zero_le _, List.nodup_nil, ?_⟩,
    ⟨?_, fun h => absurd h hs⟩⟩
  · intro j
    rw [principalOf, show (initial users now).sockets.get j = none from rfl]
    simp [hroom j]
  · intro _
    rw [show (initial users now).interval = false from rfl]
    simp [hroom]
  · exact fun r hmem => absurd hmem List.not_mem_nil
  · exact fun entry hmem => absurd hmem List.not_mem_nil
  · exact fun entry hmem => absurd hmem List.not_mem_nil

/-! ## §2. Accounting. -/

/-- The sockets with a principal. -/
def EventsGateway.admins (g : EventsGateway) : List Socket :=
  g.sockets.rows.filter fun s => s.principal.isSome

/-- The counter counts the sockets with a principal. -/
theorem Counted.adminCount_eq (h : Counted g) : g.adminCount = g.admins.length := by
  have hnodup : (g.admins.map Socket.id).Nodup :=
    g.sockets.nodup.sublist (List.filter_sublist.map Socket.id)
  have hsame : ∀ j, j ∈ g.room ↔ j ∈ g.admins.map Socket.id := by
    intro j
    rw [h.member, principalOf, List.mem_map]
    constructor
    · intro hp
      obtain ⟨p, hp⟩ := Option.isSome_iff_exists.mp hp
      obtain ⟨s, hs, hsp⟩ := Option.bind_eq_some_iff.mp hp
      obtain ⟨hs, hid⟩ := Table.get_eq_some.mp hs
      exact ⟨s, List.mem_filter.mpr ⟨hs, by rw [hsp]; rfl⟩, hid⟩
    · rintro ⟨s, hs, rfl⟩
      obtain ⟨hs, hp⟩ := List.mem_filter.mp hs
      rw [Table.mem_rows.mp hs]
      exact hp
  have hperm : g.room.Perm (g.admins.map Socket.id) :=
    (List.perm_ext_iff_of_nodup h.nodup hnodup).mpr hsame
  rw [h.count, hperm.length_eq, List.length_map]

/-- **GATEWAY ACCOUNTING.**  After every handler, whatever the order: the counter
is the number of sockets with a principal; each of these was verified eligible
and is in the room; a socket that is disconnected or cleaned up has neither; and
while the gateway is live the interval exists iff the counter is positive. -/
theorem gateway_accounting (S : Settings) (users : Users) (now : Nat) {g : EventsGateway}
    (h : (machine S).Reach (initial users now) g) :
    g.adminCount = g.admins.length ∧
    (∀ s ∈ g.sockets.rows, ∀ p, s.principal = some p →
      s.id ∈ g.room ∧ isEligibleForMetrics p = true ∧
        ∃ token row, s.accessToken = some token ∧
          WasVerified S (initial users now) g token (p, row)) ∧
    (∀ s ∈ g.sockets.rows, s.connected = false ∨ s.cleanedUp = true →
      s.principal = none ∧ s.id ∉ g.room) ∧
    (g.live = true → (g.interval = true ↔ 0 < g.adminCount)) := by
  have hinv := inv_of_reach (inv_initial users now _) h
  have hc := hinv.counted
  have hget : ∀ s ∈ g.sockets.rows, g.sockets.get s.id = some s := fun s hs => Table.mem_rows.mp hs
  refine ⟨hc.adminCount_eq, ?_, ?_, ?_⟩
  · intro s hs p hp
    obtain ⟨_, _, _, he, _⟩ := hc.held (hget s hs) hp
    obtain ⟨v, row, ⟨_, _, _, _, hv⟩, ht, ha⟩ := hinv.sourced.principal (hget s hs) hp
    refine ⟨?_, he, v.token, row, ht, hv _ ha⟩
    rw [hc.member, principalOf, hget s hs]
    simp [hp]
  · intro s hs hgone
    have hp : s.principal = none := by
      cases hp : s.principal with
      | none => rfl
      | some p =>
          obtain ⟨hcon, hu, _⟩ := hc.held (hget s hs) hp
          rcases hgone with hno | hclean
          · rw [hcon] at hno
            cases hno
          · rw [hu] at hclean
            cases hclean
    refine ⟨hp, ?_⟩
    rw [hc.member, principalOf, hget s hs]
    simp [hp]
  · intro hl
    rw [hinv.polled hl, hc.count, List.length_pos_iff_exists_mem]
    simp

/-! A small installation: alice, an administrator, with a token of fifteen minutes. -/

/-- Her access token, signed with the key `secret`. -/
def sampleToken : String :=
  "eyJhbGciOiJIUzI1NiIsInR5cCI6IkpXVCJ9." ++
  "eyJzdWIiOiIxIiwidXNlcm5hbWUiOiJhbGljZSIsInJvbGUiOiJBRE1JTiIsInR" ++
  "5cGUiOiJhY2Nlc3MiLCJpYXQiOjE3MDAwMDAwMDAsImV4cCI6MTcwMDAwMDkwMH0" ++
  ".W4s5ayPVBBpcF_LfVD3rnR8YSIYKR0N7NQvmCB3EiTo"

def sampleSettings : Settings where
  readToken := fun text =>
    if text = sampleToken then .signed ⟨.access 1 "alice" .admin false, 1700000900⟩ else .garbage
  trim := id
  decodeURIComponent := some

def sampleInitial : EventsGateway := initial Accounts.sampleDb.users 1700000000000

/-- She connects and authenticates. -/
def sampleSignIn : List Event :=
  [.rawConnect "engine-1", .connect 1 "engine-1" .absent,
    .auth 1 (.object [("accessToken", .string sampleToken)]), .read 1 false, .settle 1]

theorem sampleSignIn_counted : ∃ g, (machine sampleSettings).Reach sampleInitial g ∧
    g.admins.length = 1 ∧ g.interval = true := by
  have hrun : ((machine sampleSettings).run sampleInitial sampleSignIn).any
      (fun g => g.live && g.adminCount == 1) = true := by decide +kernel
  obtain ⟨g, hr, ht⟩ := Machine.Reach.of_test _ _ hrun
  obtain ⟨hl, hone⟩ := (Bool.and_eq_true _ _).mp ht
  obtain ⟨hcount, _, _, hpoll⟩ := gateway_accounting _ _ _ hr
  rw [beq_iff_eq] at hone
  exact ⟨g, hr, hcount ▸ hone, (hpoll hl).mpr (by omega)⟩

/-! ## §3. The cap. -/

/-- The open raw connections on which no eligible authentication has completed. -/
def EventsGateway.preAuth (g : EventsGateway) : List RawConn :=
  g.raws.rows.filter fun r => r.isOpen && !r.authenticated

/-- **THE PRE-AUTH CONNECTION CAP.**  Before the module is destroyed, after every
handler: at most 100 reservations, none claimed twice; every open raw connection
without an eligible authentication is reserved, so at most 100 of these. -/
theorem pre_auth_cap (S : Settings) (users : Users) (now : Nat) {g : EventsGateway}
    (h : (machine S).Reach (initial users now) g) (hl : g.live = true) :
    g.reservations.rows.length ≤ 100 ∧
    (∀ r ∈ g.reservations.rows, r.claims ≤ 1) ∧
    (∀ r ∈ g.preAuth, (g.reservations.get r.id).isSome = true) ∧
    g.preAuth.length ≤ 100 := by
  have hinv := inv_of_reach (inv_initial users now _) h
  have hcap : g.reservations.rows.length ≤ 100 := hinv.paired.cap
  have hreserved : ∀ r ∈ g.preAuth, (g.reservations.get r.id).isSome = true := by
    intro r hr
    obtain ⟨hr, hpre⟩ := List.mem_filter.mp hr
    obtain ⟨ho, ha⟩ := (Bool.and_eq_true _ _).mp hpre
    exact (hinv.guarded.reserved (Table.mem_rows.mp hr) ho (by simpa using ha) hl).resolve_right
      not_false
  refine ⟨hcap, ?_, hreserved, ?_⟩
  · intro r hr
    rw [hinv.paired.claims r hr]
    split <;> decide
  · -- different connections have different reservations
    have hnodup : (g.preAuth.map RawConn.id).Nodup :=
      g.raws.nodup.sublist (List.filter_sublist.map RawConn.id)
    have hsub : g.preAuth.map RawConn.id ⊆ g.reservations.rows.map Reservation.id := by
      intro e he
      obtain ⟨r, hr, rfl⟩ := List.mem_map.mp he
      obtain ⟨v, hv⟩ := Option.isSome_iff_exists.mp (hreserved r hr)
      obtain ⟨hv, hid⟩ := Table.get_eq_some.mp hv
      exact List.mem_map.mpr ⟨v, hv, hid⟩
    have hle := (List.subperm_of_subset hnodup hsub).length_le
    rw [List.length_map, List.length_map] at hle
    exact hle.trans hcap

/-- While alice is there, somebody else connects. -/
theorem sampleSignIn_capped : ∃ g, (machine sampleSettings).Reach sampleInitial g ∧
    g.live = true ∧ g.preAuth ≠ [] ∧
    ∀ r ∈ g.preAuth, (g.reservations.get r.id).isSome = true := by
  have hrun : ((machine sampleSettings).run sampleInitial
      (sampleSignIn ++ [.rawConnect "engine-2"])).any
      (fun g => g.live && g.preAuth.length == 1) = true := by decide +kernel
  obtain ⟨g, hr, ht⟩ := Machine.Reach.of_test _ _ hrun
  obtain ⟨hl, hone⟩ := (Bool.and_eq_true _ _).mp ht
  obtain ⟨_, _, hreserved, _⟩ := pre_auth_cap _ _ _ hr hl
  rw [beq_iff_eq] at hone
  exact ⟨g, hr, hl, List.ne_nil_of_length_pos (by omega), hreserved⟩

end MinePanel.Gateway
