/-
  MinePanel.Auth.Temporary
  ────────────────────────
  **TEMPORARY PASSWORDS AND TWO-FACTOR CHALLENGES ARE SPENT ONCE.**

  A reset stores the hash of a temporary password with an expiry.  A login
  consumes the credential by an UPDATE that compares hash, flag and expiry and
  clears the expiry; the recovery afterwards compares the hash again and clears
  it.  So a credential is a ticket: it is taken by at most one call, and opens
  at most one session (`temporary_password_single_use`).

  A challenge of an ordinary login leaves no trace in the tables.  It opens as
  many sessions as right codes are presented with it, and one only where its
  second factor is passed once (`challenge_single_use`).
-/
import MinePanel.Auth.Recovery
import MinePanel.Lib.Ticket

namespace MinePanel.Accounts

open MinePanel.Db MinePanel.Lib Prog

namespace Temporary

open Recovery (challengeOf)

/-! ## §1. The history. -/

/-- A temporary credential, as it was set. -/
structure Credential where
  user : UserId
  hash : String
  expiresAt : Option Timestamp
  /-- The temporary password, where the reset belongs to the run. -/
  password : Option String
  deriving Repr, DecidableEq

/-- A temporary credential, as a row showed it. -/
structure Sight where
  user : UserId
  hash : String
  expiresAt : Option Timestamp
  deriving Repr, DecidableEq

/-- A pre-auth token handed out by a login. -/
structure Challenge where
  token : Jwt
  /-- The row the login had read. -/
  row : User
  /-- The password it had presented. -/
  password : String
  clock : Timestamp
  deriving Repr, DecidableEq

/-- A session opened by a login, or a recovery, with the temporary credential
it rests on. -/
structure Opening where
  op : Op
  user : UserId
  hash : Option String
  deriving Repr, DecidableEq

/-- The history of temporary credentials and challenges. -/
structure History where
  journal : Journal Unit
  credentials : List Credential
  seen : List Sight
  challenges : List Challenge
  /-- The pre-auth tokens from before the run. -/
  early : List Jwt
  consumed : List (UserId × String)
  /-- The ordinary challenges whose second factor was passed. -/
  accepted : List Jwt
  openings : List Opening
  recoveries : List Opening

/-- A login, in one or two steps. -/
def isLogin : Op → Bool
  | .login _ _ _ => true
  | .verify2FA _ _ => true
  | _ => false

/-- The pre-auth token of a call. -/
def bearerOf : Op → Option Jwt
  | .verify2FA (.signed jwt) _ => some jwt
  | _ => none

/-- `completeTwoFactorLogin` has accepted the code. -/
def passes : ∀ {β : Type}, Act β → Bool
  | _, .clearTwoFactorFailures _ => true
  | _, _ => false

/-- The temporary credential of a row. -/
def sight (u : User) : Option Sight :=
  u.tempPasswordHash.map fun hash => ⟨u.id, hash, u.tempPasswordExpiresAt⟩

namespace History

/-- The history of a process that starts on the tables `d`, with the pre-auth
tokens `early` in the hands of clients. -/
def start (d : Db) (early : List Jwt) : History where
  journal := .blank
  credentials := d.users.rows.filterMap fun u =>
    u.tempPasswordHash.map fun hash => ⟨u.id, hash, u.tempPasswordExpiresAt, none⟩
  seen := []
  challenges := []
  early := early
  consumed := []
  accepted := []
  openings := []
  recoveries := []

section

variable (o : History) (w : World) (p : Pid) (op : Op)

/-- A reset sets a credential. -/
def newCredentials {β : Type} (a : Act β) (b : β) : List Credential :=
  match op, a.updated b with
  | .resetPassword _, some (id, set) =>
      set.tempPasswordHash.join.toList.map fun hash =>
        ⟨id, hash, set.tempPasswordExpiresAt.join, (o.journal.drawn p).head?⟩
  | _, _ => []

/-- A login hands out a challenge. -/
def newChallenges : ∀ {β : Type}, Act β → β → List Challenge
  | _, .sign (.preAuth _ _) _, token =>
      match op, o.journal.last p with
      | .login _ password _, some row => [⟨token, row, password, w.clock⟩]
      | _, _ => []
  | _, _, _ => []

/-- A login consumes the credential of the row it has read. -/
def newConsumed {β : Type} (a : Act β) (b : β) : List (UserId × String) :=
  match a.updated b with
  | some (id, set) =>
      if set = consumePatch then
        ((o.journal.last p).bind User.tempPasswordHash).toList.map fun hash => (id, hash)
      else []
  | none => []

/-- The second factor of a call is passed. -/
def newAccepted {β : Type} (a : Act β) : List Jwt :=
  if passes a then ((challengeOf op).map Prod.snd).toList else []

/-- A login stores a session, on a row in forced recovery or not. -/
def newOpenings : ∀ {β : Type}, Act β → β → List Opening
  | _, .query (.insertToken v), b =>
      match b with
      | .ok _ =>
          if isLogin op then
            (o.journal.last p).toList.map fun row =>
              ⟨op, v.userId, if row.mustChangePassword then row.tempPasswordHash else none⟩
          else []
      | .error _ => []
  | _, _, _ => []

/-- The password change of a forced session commits. -/
def newRecoveries {β : Type} (a : Act β) (b : β) : List Opening :=
  match op with
  | .updatePassword u _ _ _ true =>
      if a.committed b && Recovery.History.updates w p u then
        (o.journal.last p).toList.map fun row => ⟨op, u, row.tempPasswordHash⟩
      else []
  | _ => []

/-- A step of call `p`. -/
def step {β : Type} (a : Act β) (b : β) : History where
  journal := o.journal.step (fun _ => ()) p a b
  credentials := o.newCredentials p op a b ++ o.credentials
  seen := ((a.row b).bind sight).toList ++ o.seen
  challenges := o.newChallenges w p op a b ++ o.challenges
  early := o.early
  consumed := o.newConsumed p a b ++ o.consumed
  accepted := newAccepted op a ++ o.accepted
  openings := o.newOpenings p op a b ++ o.openings
  recoveries := o.newRecoveries w p op a b ++ o.recoveries

end

/-- A new call. -/
def opened (o : History) (p : Pid) : History := { o with journal := o.journal.opened p }

/-- The hash is new for the user: no credential has it, and no token from
before the run is for it. -/
def isNew (S : Settings) (o : History) (u : UserId) (hash : String) : Bool :=
  o.credentials.all (fun x => decide (¬ (x.user = u ∧ x.hash = hash))) &&
    o.early.all fun jwt => decide (jwt.payload ≠ .preAuth u (some (S.sha256 hash)))

/-- A pre-auth token of a temporary credential has been handed out. -/
def issued (o : History) (jwt : Jwt) : Bool :=
  match jwt.payload with
  | .preAuth _ (some _) =>
      decide (jwt ∈ o.early) || o.challenges.any fun x => decide (x.token = jwt)
  | _ => true

end History

/-- The hash that a reset draws is new. -/
def freshReset (S : Settings) (o : History) (op : Op) : ∀ {β : Type}, Act β → Bool
  | _, .query (.updateUser id _ set) =>
      match op with
      | .resetPassword _ => set.tempPasswordHash.join.all (o.isNew S id)
      | _ => true
  | _, _ => true

/-- The second factor of an ordinary challenge is passed once. -/
def answeredOnce (o : History) (op : Op) {β : Type} (a : Act β) : Bool :=
  !passes a || (challengeOf op).all fun x => decide (x.2 ∉ o.accepted)

/-- Every interleaving in which the hashes of different resets are distinct and
only tokens that were handed out are presented. -/
def honest (S : Settings) : Watch Act World Env Op History where
  accepts := fun o _ _ op => (bearerOf op).all o.issued
  guard := fun o _ _ op _ a _ => freshReset S o op a
  onInvoke := fun o _ p _ => o.opened p
  onStep := fun o w p op _ a b _ => o.step w p op a b

/-- Every interleaving in which the hashes of different resets are distinct. -/
def distinctHashes (S : Settings) : Watch Act World Env Op History where
  guard := fun o _ _ op _ a _ => freshReset S o op a
  onInvoke := (honest S).onInvoke
  onStep := (honest S).onStep

/-- Those in which no ordinary challenge has its second factor passed twice. -/
def answeredOnceEach (S : Settings) : Watch Act World Env Op History where
  guard := fun o _ _ op _ a _ => freshReset S o op a && answeredOnce o op a
  onInvoke := (honest S).onInvoke
  onStep := (honest S).onStep

/-! ## §2. How a temporary credential moves. -/

/-- **What a step does to the temporary credential of `u`**: nothing, or it
loses its expiry, or its hash, or a staged reset commits. -/
inductive Moves (n : Notes) (ended : Bool) (u : UserId) (c c' : Credentials) : Prop where
  | keep : c'.tempPasswordHash = c.tempPasswordHash →
      (c'.tempPasswordExpiresAt = c.tempPasswordExpiresAt ∨ c'.tempPasswordExpiresAt = none) →
      Moves n ended u c c'
  | clear : c'.tempPasswordHash = none → Moves n ended u c c'
  | reset {hash : String} {expiresAt : Timestamp} : ended = true →
      (u, resetPatch hash expiresAt) ∈ n.staged → c'.tempPasswordHash = some hash →
      c'.tempPasswordExpiresAt = some expiresAt → Moves n ended u c c'

section Moves

variable {S : Settings} {p : Pid} {op : Op} {e : Env} {w w' : World} {o : History}
  {gs : Pid → Notes}

theorem Moves.same {n : Notes} {ended : Bool} {u : UserId} {c c' : Credentials} (h : c' = c) :
    Moves n ended u c c' := .keep (by rw [h]) (Or.inl (by rw [h]))

/-- An UPDATE outside a transaction sets no temporary hash. -/
theorem moves_update {n : Notes} {id : UserId} {cond : User → Bool} {set : UserPatch}
    (h : Update S n op id cond set) (hout : n.inside = false) (ended : Bool) (c : Credentials) :
    Moves n ended id c (set.act c) := by
  cases h with
  | plain hplain _ => exact .same (hplain.act c)
  | consume _ _ _ _ _ _ _ _ _ => exact .keep rfl (Or.inr rfl)
  | recovery hin _ _ _ _ _ =>
      rw [hout] at hin
      cases hin
  | reset hin _ _ _ =>
      rw [hout] at hin
      cases hin
  | _ => exact .keep rfl (Or.inl rfl)

theorem temp_step {β : Type} {a : Act β} {b : β} (hB : Booked w gs) (ha : (gs p).allow S op a)
    (hx : exec S p a e w = some (b, w')) (u : UserId) :
    Moves (gs p) (a.committed b) u (w.db.creds u) (w'.db.creds u) := by
  rw [hB.creds_step hx]
  cases deed ha b with
  | none _ hcommits _ =>
      rw [hcommits]
      exact .same rfl
  | @update id cond set row hwhy =>
      rw [commits_update]
      split
      next => exact .same rfl
      next hout =>
        by_cases hid : id = u
        · subst hid
          rw [enact_singleton_self]
          exact moves_update hwhy (by simpa using hout) _ _
        · rw [enact_singleton_of_ne hid]
          exact .same rfl
  | commit hstaged =>
      show Moves (gs p) true u _ (enact u (gs p).staged (w.db.creds u))
      have hplain : (∀ x ∈ (gs p).staged, x.2.IsPlain) →
          Moves (gs p) true u (w.db.creds u) (enact u (gs p).staged (w.db.creds u)) := by
        intro hplain
        exact .same (enact_plain hplain _)
      have hnil : (gs p).staged = [] →
          Moves (gs p) true u (w.db.creds u) (enact u (gs p).staged (w.db.creds u)) := by
        intro hnil
        exact .same (by rw [hnil]; rfl)
      cases op with
      | resetPassword v =>
          rcases hstaged with hnone | ⟨password, salt, expiresAt, -, hsome⟩
          · exact hnil hnone
          · by_cases hv : v = u
            · subst hv
              have hmem : (v, resetPatch (S.hash password salt) expiresAt) ∈ (gs p).staged := by
                rw [hsome]
                exact List.mem_cons_self
              rw [hsome, enact_singleton_self]
              exact .reset rfl hmem rfl rfl
            · rw [hsome, enact_singleton_of_ne hv]
              exact .same rfl
      | updatePassword v oldPassword newPassword cookie temporaryAuth =>
          rcases hstaged with hnone | ⟨-, user, temp, hash, -, -, -, -, hsome⟩
          · exact hnil hnone
          · by_cases hv : v = u
            · subst hv
              refine .clear ?_
              rw [hsome, enact_singleton_self]
              rfl
            · rw [hsome, enact_singleton_of_ne hv]
              exact .same rfl
      | _ => exact hplain hstaged

/-- The credential, if `u` has it still, is used up. -/
def Dead (w : World) (u : UserId) (hash : String) : Prop :=
  (w.db.creds u).tempPasswordHash = some hash → (w.db.creds u).tempPasswordExpiresAt = none

/-- `u` does not have the credential. -/
def Gone (w : World) (u : UserId) (hash : String) : Prop :=
  (w.db.creds u).tempPasswordHash ≠ some hash

/-- A used credential stays so, unless it is set again. -/
theorem Dead.step {n : Notes} {ended : Bool} {u : UserId} {hash : String} (h : Dead w u hash)
    (hm : Moves n ended u (w.db.creds u) (w'.db.creds u))
    (hno : ∀ e, (u, resetPatch hash e) ∉ n.staged) : Dead w' u hash := by
  intro htemp
  cases hm with
  | keep hhash hexpires =>
      rw [hhash] at htemp
      rcases hexpires with hsame | hnone
      · rw [hsame]
        exact h htemp
      · exact hnone
  | clear hnone =>
      rw [hnone] at htemp
      cases htemp
  | reset _ hmem hset _ =>
      rw [hset] at htemp
      obtain rfl := Option.some.inj htemp
      exact absurd hmem (hno _)

theorem Gone.step {n : Notes} {ended : Bool} {u : UserId} {hash : String} (h : Gone w u hash)
    (hm : Moves n ended u (w.db.creds u) (w'.db.creds u))
    (hno : ended = true → ∀ e, (u, resetPatch hash e) ∉ n.staged) : Gone w' u hash := by
  intro htemp
  cases hm with
  | keep hhash _ =>
      rw [hhash] at htemp
      exact h htemp
  | clear hnone =>
      rw [hnone] at htemp
      cases htemp
  | reset hended hmem hset _ =>
      rw [hset] at htemp
      obtain rfl := Option.some.inj htemp
      exact absurd hmem (hno hended _)

end Moves

/-! ## §3. Every credential is known. -/

/-- The credential was set, and with this expiry. -/
def History.Bears (o : History) (s : Sight) : Prop :=
  ∃ x ∈ o.credentials, x.user = s.user ∧ x.hash = s.hash ∧
    ∀ t, s.expiresAt = some t → x.expiresAt = some t

/-- What holds of the credentials in every run. -/
structure Tracked (S : Settings) (w : World) (o : History) (gs : Pid → Notes) : Prop where
  journal : o.journal.Covers gs
  times : ∀ p, (gs p).times.Pairwise (· ≥ ·)
  unique : ∀ x ∈ o.credentials, ∀ y ∈ o.credentials, x.user = y.user → x.hash = y.hash → x = y
  known : ∀ u hash, (w.db.creds u).tempPasswordHash = some hash →
    o.Bears ⟨u, hash, (w.db.creds u).tempPasswordExpiresAt⟩
  sights : ∀ s ∈ o.seen, o.Bears s
  dead : ∀ s ∈ o.seen, s.expiresAt = none → Dead w s.user s.hash
  rows : ∀ p, ∀ r ∈ o.journal.rows p, ∀ s, sight r.1 = some s → s ∈ o.seen
  /-- A reset that is not committed yet. -/
  pending : ∀ p u hash t, (u, resetPatch hash t) ∈ (gs p).staged → o.Bears ⟨u, hash, some t⟩ ∧
    Gone w u hash ∧ ∀ s ∈ o.seen, s.user = u → s.hash ≠ hash
  alone : ∀ p q u hash t t', (u, resetPatch hash t) ∈ (gs p).staged →
    (u, resetPatch hash t') ∈ (gs q).staged → p = q
  passwords : ∀ x ∈ o.credentials, ∀ password, x.password = some password →
    (∃ salt, x.hash = S.hash password salt) ∧
      ∀ jwt ∈ o.early, jwt.payload ≠ .preAuth x.user (some (S.sha256 x.hash))

section Tracked

variable {S : Settings} {p : Pid} {op : Op} {e : Env} {w w' : World} {o : History}
  {gs : Pid → Notes}

theorem bears_mono {β : Type} {a : Act β} {b : β} {s : Sight} (h : o.Bears s) :
    (o.step w p op a b).Bears s := by
  obtain ⟨x, hx, hrest⟩ := h
  exact ⟨x, List.mem_append_right _ hx, hrest⟩

/-- Two sightings of one credential that both show an expiry show the same. -/
theorem Tracked.expiry (h : Tracked S w o gs) {u : UserId} {hash : String} {t t' : Timestamp}
    (hs : o.Bears ⟨u, hash, some t⟩) (hs' : o.Bears ⟨u, hash, some t'⟩) : t = t' := by
  obtain ⟨x, hx, hxu, hxh, hxt⟩ := hs
  obtain ⟨y, hy, hyu, hyh, hyt⟩ := hs'
  obtain rfl := h.unique x hx y hy (hxu.trans hyu.symm) (hxh.trans hyh.symm)
  exact Option.some.inj ((hxt t rfl).symm.trans (hyt t' rfl))

/-- The row that a call has read last. -/
theorem Tracked.last (h : Tracked S w o gs) (hop : (gs p).op = some op) {user : User}
    (hread : (gs p).read = some user) : o.journal.last p = some user :=
  (h.journal p (by rw [hop]; rfl)).2 user hread

/-- The credential of the row that a call has read last has been seen. -/
theorem Tracked.saw (h : Tracked S w o gs) (hop : (gs p).op = some op) {user : User} {hash : String}
    (hread : (gs p).read = some user) (hhash : user.tempPasswordHash = some hash) :
    ⟨user.id, hash, user.tempPasswordExpiresAt⟩ ∈ o.seen := by
  obtain ⟨r, hr, hfst⟩ := Option.map_eq_some_iff.mp (h.last hop hread)
  refine h.rows p r (List.mem_of_head? hr) _ ?_
  rw [hfst, sight, hhash]
  rfl

/-- The UPDATE of a reset. -/
theorem update_reset {n : Notes} {v id : UserId} {cond : User → Bool} {set : UserPatch}
    {hash : String} (h : Update S n (.resetPassword v) id cond set)
    (hset : set.tempPasswordHash = some (some hash)) :
    v = id ∧ n.inside = true ∧ ∃ password salt t, n.drawn = [password, salt] ∧
      hash = S.hash password salt ∧ set = resetPatch hash t := by
  cases h with
  | plain hplain _ =>
      rw [hplain.temp.1] at hset
      cases hset
  | backup _ hno _ _ _ _ => cases hno
  | consume _ _ _ _ _ _ _ hno _ => exact hno.elim
  | @reset _ password salt now hin _ hdrawn _ =>
      obtain rfl := Option.some.inj (Option.some.inj hset)
      exact ⟨rfl, hin, password, salt, now + tempPasswordTtlMs, hdrawn, rfl, rfl⟩

/-- **A new credential** comes from the UPDATE of a reset, with a new hash. -/
theorem newCredentials_mem {n : Notes} {β : Type} {a : Act β} {b : β} (ha : n.allow S op a)
    (hg : freshReset S o op a = true) (hdrawn : n.drawn = o.journal.drawn p) {x : Credential}
    (hx : x ∈ o.newCredentials p op a b) :
    ∃ password salt t, x = ⟨x.user, S.hash password salt, some t, some password⟩ ∧
      o.isNew S x.user x.hash = true ∧ n.inside = true ∧
      a.updated b = some (x.user, resetPatch x.hash t) := by
  unfold History.newCredentials at hx
  split at hx
  next v id set hupdated =>
    obtain ⟨hash, hhash, rfl⟩ := List.mem_map.mp hx
    have hset : set.tempPasswordHash = some (some hash) := by
      rw [Option.mem_toList] at hhash
      exact Option.join_eq_some_iff.mp hhash
    cases deed ha b with
    | none hnone _ _ =>
        rw [hnone] at hupdated
        cases hupdated
    | commit _ =>
        have hno : none = some (id, set) := hupdated
        cases hno
    | @update id' cond set' row hwhy =>
        obtain ⟨rfl, rfl⟩ := Prod.mk.inj (Option.some.inj hupdated)
        obtain ⟨rfl, hin, password, salt, t, hpair, rfl, rfl⟩ := update_reset hwhy hset
        refine ⟨password, salt, t, ?_, ?_, hin, rfl⟩
        · rw [← hdrawn, hpair]
          rfl
        · exact hg
  next => exact absurd hx List.not_mem_nil

/-- A reset that is staged now has set its credential. -/
theorem reset_staged {n : Notes} {β : Type} {a : Act β} {b : β} (ha : n.allow S op a)
    (hg : freshReset S o op a = true) {u : UserId} {hash : String} {t : Timestamp}
    (hu : a.updated b = some (u, resetPatch hash t)) :
    o.isNew S u hash = true ∧ (o.step w p op a b).Bears ⟨u, hash, some t⟩ := by
  cases deed ha b with
  | none hnone _ _ =>
      rw [hnone] at hu
      cases hu
  | commit _ =>
      have hno : none = some (u, resetPatch hash t) := hu
      cases hno
  | @update id cond set row hwhy =>
      obtain ⟨rfl, rfl⟩ := Prod.mk.inj (Option.some.inj hu)
      obtain ⟨rfl, -⟩ := hwhy.of_reset
      refine ⟨hg, ⟨id, hash, some t, (o.journal.drawn p).head?⟩, ?_, rfl, rfl, fun _ h => h⟩
      exact List.mem_append_left _ List.mem_cons_self

theorem isNew_credentials {u : UserId} {hash : String} (h : o.isNew S u hash = true)
    {x : Credential} (hx : x ∈ o.credentials) (hu : x.user = u) : x.hash ≠ hash := by
  rw [History.isNew, Bool.and_eq_true] at h
  intro hhash
  exact of_decide_eq_true (List.all_eq_true.mp h.1 x hx) ⟨hu, hhash⟩

theorem isNew_bears {u : UserId} {hash : String} {t : Option Timestamp}
    (h : o.isNew S u hash = true) : ¬ o.Bears ⟨u, hash, t⟩ := by
  rintro ⟨x, hx, hxu, hxh, -⟩
  exact isNew_credentials h hx hxu hxh

/-- A credential that is shown now is known. -/
theorem Tracked.shown {β : Type} {a : Act β} {b : β} (hB : Booked w gs) (h : Tracked S w o gs)
    (ha : (gs p).allow S op a) (hx : exec S p a e w = some (b, w')) {s : Sight}
    (hs : s ∈ ((a.row b).bind sight).toList) :
    (w.db.creds s.user).tempPasswordHash = some s.hash ∧
      (w.db.creds s.user).tempPasswordExpiresAt = s.expiresAt ∧ o.Bears s ∧
      w'.db.creds s.user = w.db.creds s.user := by
  obtain ⟨user, hrow, hsight⟩ := Option.bind_eq_some_iff.mp (Option.mem_toList.mp hs)
  obtain ⟨hash, hhash, rfl⟩ := Option.map_eq_some_iff.mp hsight
  have hcreds := hB.read ha hx hrow
  have htemp : (w.db.creds user.id).tempPasswordHash = some hash := by
    rw [← hcreds]
    exact hhash
  have hexpires : (w.db.creds user.id).tempPasswordExpiresAt = user.tempPasswordExpiresAt := by
    rw [← hcreds]
    rfl
  refine ⟨htemp, hexpires, ?_, hB.read_after hx hrow _⟩
  have hknown := h.known user.id hash htemp
  rw [hexpires] at hknown
  exact hknown

theorem Tracked.times_step {β : Type} {a : Act β} {b : β} (hB : Booked w gs)
    (h : Tracked S w o gs) (hx : exec S p a e w = some (b, w')) (q : Pid) :
    (Function.update gs p ((gs p).next a b) q).times.Pairwise (· ≥ ·) := by
  by_cases hq : q = p
  · rw [hq, Function.update_self]
    have hsame : ((gs p).next a b).times = (gs p).times →
        ((gs p).next a b).times.Pairwise (· ≥ ·) := by
      intro heq
      rw [heq]
      exact h.times p
    cases a with
    | query s =>
        cases b with
        | error x => exact hsame rfl
        | ok r => exact hsame ((gs p).after_times s r)
    | begin =>
        cases b with
        | error x => exact hsame rfl
        | ok r => exact hsame rfl
    | now =>
        have hb : b = w.clock := by
          cases hx
          rfl
        rw [hb]
        exact List.pairwise_cons.mpr ⟨hB.times p, h.times p⟩
    | _ => exact hsame rfl
  · rw [Function.update_of_ne hq]
    exact h.times q

/-- What is staged was staged before, or by this step of call `p`. -/
theorem staged_next {β : Type} {a : Act β} {b : β} {q : Pid} {x : UserId × UserPatch}
    (h : x ∈ (Function.update gs p ((gs p).next a b) q).staged) :
    (x ∈ (gs q).staged ∧ (q = p → a.committed b = false)) ∨
      (q = p ∧ (gs p).inside = true ∧ a.updated b = some x ∧ a.committed b = false) := by
  by_cases hq : q = p
  · rw [hq, Function.update_self] at h
    obtain ⟨hended, hold | ⟨hin, hnew⟩⟩ := (gs p).next_staged a b h
    · rw [hq]
      exact Or.inl ⟨hold, fun _ => hended⟩
    · exact Or.inr ⟨hq, hin, hnew, hended⟩
  · rw [Function.update_of_ne hq] at h
    exact Or.inl ⟨h, fun hqp => absurd hqp hq⟩

theorem Tracked.pending_step {β : Type} {a : Act β} {b : β} (hB : Booked w gs)
    (h : Tracked S w o gs) (ha : (gs p).allow S op a) (hg : freshReset S o op a = true)
    (hx : exec S p a e w = some (b, w')) {q : Pid} {u : UserId} {hash : String} {t : Timestamp}
    (hq : (u, resetPatch hash t) ∈ (Function.update gs p ((gs p).next a b) q).staged) :
    (o.step w p op a b).Bears ⟨u, hash, some t⟩ ∧ Gone w' u hash ∧
      ∀ s ∈ (o.step w p op a b).seen, s.user = u → s.hash ≠ hash := by
  -- nobody is shown a hash that `u` does not have
  have hseen : Gone w u hash → (∀ s ∈ o.seen, s.user = u → s.hash ≠ hash) →
      ∀ s ∈ (o.step w p op a b).seen, s.user = u → s.hash ≠ hash := by
    intro hgone hold s hs hu hhash
    rcases List.mem_append.mp hs with hnew | hs
    · have htemp := (h.shown hB ha hx hnew).1
      rw [hu, hhash] at htemp
      exact hgone htemp
    · exact hold s hs hu hhash
  rcases staged_next hq with ⟨hold, hended⟩ | ⟨rfl, hin, hnew, hended⟩
  · obtain ⟨hbears, hgone, hunseen⟩ := h.pending q u hash t hold
    refine ⟨bears_mono hbears, hgone.step (temp_step hB ha hx u) fun hend t' hmem => ?_,
      hseen hgone hunseen⟩
    -- a commit of the same reset is one of call `q` itself
    obtain rfl := h.alone q p u hash t t' hold hmem
    rw [hended rfl] at hend
    cases hend
  · obtain ⟨hfresh, hbears⟩ := reset_staged (w := w) (p := q) ha hg hnew
    have hgone : Gone w u hash := fun htemp => isNew_bears hfresh (h.known u hash htemp)
    have hsame : w'.db.creds u = w.db.creds u := by
      rw [hB.creds_step hx, commits_of_inside hin hended, enact_nil]
    refine ⟨hbears, ?_, hseen hgone fun s hs hu hhash => ?_⟩
    · unfold Gone
      rw [hsame]
      exact hgone
    · have hsight := h.sights s hs
      obtain ⟨x, hx', hxu, hxh, -⟩ := hsight
      exact isNew_credentials hfresh hx' (hxu.trans hu) (hxh.trans hhash)

theorem Tracked.step {β : Type} {a : Act β} {b : β} (hB : Booked w gs) (h : Tracked S w o gs)
    (hop : (gs p).op = some op) (ha : (gs p).allow S op a) (hg : freshReset S o op a = true)
    (hx : exec S p a e w = some (b, w')) :
    Tracked S w' (o.step w p op a b) (Function.update gs p ((gs p).next a b)) := by
  have hdrawn : (gs p).drawn = o.journal.drawn p := (h.journal p (by rw [hop]; rfl)).1
  refine ⟨h.journal.step (fun _ => ()) a b, h.times_step hB hx, fun x hmem y hmem' hu hh => ?_,
    fun u hash htemp => ?_, fun s hs => ?_, fun s hs hnone => ?_, fun q r hr s hs => ?_,
    fun q u hash t hq => h.pending_step hB ha hg hx hq,
    fun q q' u hash t t' hq hq' => ?_, fun x hmem password hpassword => ?_⟩
  · rcases List.mem_append.mp hmem with hnew | hold <;>
      rcases List.mem_append.mp hmem' with hnew' | hold'
    · -- one step sets one credential
      unfold History.newCredentials at hnew hnew'
      split at hnew
      next v id set hupdated =>
        rw [hupdated] at hnew'
        obtain ⟨hash, hhash, rfl⟩ := List.mem_map.mp hnew
        obtain ⟨hash', hhash', rfl⟩ := List.mem_map.mp hnew'
        rw [Option.mem_toList] at hhash hhash'
        obtain rfl := Option.some.inj (hhash.symm.trans hhash')
        rfl
      next => exact absurd hnew List.not_mem_nil
    · obtain ⟨-, -, -, -, hfresh, -⟩ := newCredentials_mem ha hg hdrawn hnew
      exact absurd hh.symm (isNew_credentials hfresh hold' hu.symm)
    · obtain ⟨-, -, -, -, hfresh, -⟩ := newCredentials_mem ha hg hdrawn hnew'
      exact absurd hh (isNew_credentials hfresh hold hu)
    · exact h.unique x hold y hold' hu hh
  · cases temp_step hB ha hx u with
    | keep hhash hexpires =>
        rw [hhash] at htemp
        have hbears : (o.step w p op a b).Bears _ := bears_mono (h.known u hash htemp)
        obtain ⟨x, hx', hxu, hxh, hxt⟩ := hbears
        refine ⟨x, hx', hxu, hxh, fun t ht => ?_⟩
        rcases hexpires with hsame | hnone
        · rw [hsame] at ht
          exact hxt t ht
        · rw [hnone] at ht
          cases ht
    | clear hnone =>
        rw [hnone] at htemp
        cases htemp
    | reset _ hmem hset hexpires =>
        rw [hset] at htemp
        obtain rfl := Option.some.inj htemp
        rw [hexpires]
        exact bears_mono (h.pending p u _ _ hmem).1
  · rcases List.mem_append.mp hs with hnew | hold
    · exact bears_mono (h.shown hB ha hx hnew).2.2.1
    · exact bears_mono (h.sights s hold)
  · rcases List.mem_append.mp hs with hnew | hold
    · obtain ⟨-, hexpires, -, hsame⟩ := h.shown hB ha hx hnew
      intro _
      rw [hsame, hexpires, hnone]
    · refine (h.dead s hold hnone).step (temp_step hB ha hx s.user) fun t hmem => ?_
      exact (h.pending p s.user s.hash t hmem).2.2 s hold rfl rfl
  · have hr : r ∈ Function.update o.journal.rows p
        (((a.row b).map fun u => (u, ())).toList ++ o.journal.rows p) q := hr
    by_cases hq : q = p
    · rw [hq, Function.update_self] at hr
      rcases List.mem_append.mp hr with hnew | hold
      · obtain ⟨user, hrow, rfl⟩ := Option.map_eq_some_iff.mp (Option.mem_toList.mp hnew)
        refine List.mem_append_left _ (Option.mem_toList.mpr ?_)
        rw [hrow]
        exact hs
      · exact List.mem_append_right _ (h.rows p r hold s hs)
    · rw [Function.update_of_ne hq] at hr
      exact List.mem_append_right _ (h.rows q r hr s hs)
  · -- a reset that is staged now is new, every other one is known
    have hnew : ∀ {r : Pid} {t : Timestamp}, (u, resetPatch hash t) ∈ (gs r).staged →
        ∀ {t' : Timestamp}, a.updated b ≠ some (u, resetPatch hash t') := by
      intro r t hr t' hu
      obtain ⟨hfresh, -⟩ := reset_staged (w := w) (p := p) ha hg hu
      exact isNew_bears hfresh (h.pending r u hash t hr).1
    rcases staged_next hq with ⟨hold, -⟩ | ⟨rfl, -, hu, -⟩
    · rcases staged_next hq' with ⟨hold', -⟩ | ⟨rfl, -, hu', -⟩
      · exact h.alone q q' u hash t t' hold hold'
      · exact absurd hu' (hnew hold)
    · rcases staged_next hq' with ⟨hold', -⟩ | ⟨rfl, -, -, -⟩
      · exact absurd hu (hnew hold')
      · rfl
  · rcases List.mem_append.mp hmem with hnew | hold
    · obtain ⟨password', salt, t, hx', hfresh, -, -⟩ := newCredentials_mem ha hg hdrawn hnew
      refine ⟨⟨salt, ?_⟩, fun jwt hjwt => ?_⟩
      · rw [hx'] at hpassword ⊢
        obtain rfl := Option.some.inj hpassword
        rfl
      · rw [History.isNew, Bool.and_eq_true] at hfresh
        exact of_decide_eq_true (List.all_eq_true.mp hfresh.2 jwt hjwt)
    · exact h.passwords x hold password hpassword

theorem Tracked.opened (h : Tracked S w o gs) (op : Op) :
    Tracked S w (o.opened p) (Function.update gs p (.fresh op)) := by
  -- nothing is staged by a new call
  have hstaged : ∀ {q : Pid} {x : UserId × UserPatch},
      x ∈ (Function.update gs p (.fresh op) q).staged → x ∈ (gs q).staged := by
    intro q x hx
    by_cases hq : q = p
    · rw [hq, Function.update_self] at hx
      exact absurd hx List.not_mem_nil
    · rw [Function.update_of_ne hq] at hx
      exact hx
  refine ⟨h.journal.opened op, fun q => ?_, h.unique, h.known, h.sights, h.dead,
    fun q r hr s hs => ?_, fun q u hash t hq => h.pending q u hash t (hstaged hq),
    fun q q' u hash t t' hq hq' => h.alone q q' u hash t t' (hstaged hq) (hstaged hq'),
    h.passwords⟩
  · by_cases hq : q = p
    · rw [hq, Function.update_self]
      exact List.Pairwise.nil
    · rw [Function.update_of_ne hq]
      exact h.times q
  · have hr : r ∈ Function.update o.journal.rows p [] q := hr
    by_cases hq : q = p
    · rw [hq, Function.update_self] at hr
      exact absurd hr List.not_mem_nil
    · rw [Function.update_of_ne hq] at hr
      exact h.rows q r hr s hs

/-- A world with the same credentials. -/
theorem Tracked.of_creds (h : Tracked S w o gs) (hw : ∀ u, w'.db.creds u = w.db.creds u) :
    Tracked S w' o gs := by
  refine ⟨h.journal, h.times, h.unique, fun u hash htemp => ?_, h.sights, fun s hs hnone => ?_,
    h.rows, fun q u hash t hq => ?_, h.alone, h.passwords⟩
  · rw [hw u] at htemp ⊢
    exact h.known u hash htemp
  · unfold Dead
    rw [hw s.user]
    exact h.dead s hs hnone
  · unfold Gone
    rw [hw u]
    exact h.pending q u hash t hq

theorem Tracked.settled (h : Tracked S w o gs) (alive : Pid → Bool) :
    Tracked S w o fun p => if alive p then (gs p).settle else .idle := by
  have hstaged : ∀ q, (if alive q then (gs q).settle else Notes.idle).staged = [] := by
    intro q
    split <;> rfl
  refine ⟨h.journal.settled alive, fun q => ?_, h.unique, h.known, h.sights, h.dead, h.rows,
    fun q u hash t hq => ?_, fun q q' u hash t t' hq => ?_, h.passwords⟩
  · show (if alive q then (gs q).settle else Notes.idle).times.Pairwise (· ≥ ·)
    split
    next => exact h.times q
    next => exact List.Pairwise.nil
  · rw [hstaged q] at hq
    exact absurd hq List.not_mem_nil
  · rw [hstaged q] at hq
    exact absurd hq List.not_mem_nil

theorem Tracked.boot (d : Db) (clock : Timestamp) (early : List Jwt) :
    Tracked S (World.boot d clock) (.start d early) fun _ => .idle := by
  -- a credential at the start is that of a row
  have hrow : ∀ x ∈ (History.start d early).credentials, ∃ user ∈ d.users.rows,
      user.tempPasswordHash = some x.hash ∧
      x = ⟨user.id, x.hash, user.tempPasswordExpiresAt, none⟩ := by
    intro x hx
    obtain ⟨user, huser, hmap⟩ := List.mem_filterMap.mp hx
    obtain ⟨hash, hhash, rfl⟩ := Option.map_eq_some_iff.mp hmap
    exact ⟨user, huser, hhash, rfl⟩
  refine ⟨.idle _, fun _ => List.Pairwise.nil, fun x hx y hy hu hh => ?_,
    fun u hash htemp => ?_, fun s hs => absurd hs List.not_mem_nil,
    fun s hs => absurd hs List.not_mem_nil, fun q r hr => absurd hr List.not_mem_nil,
    fun q u hash t hq => absurd hq List.not_mem_nil,
    fun q q' u hash t t' hq => absurd hq List.not_mem_nil, fun x hx password hpassword => ?_⟩
  · obtain ⟨user, huser, hhash, hx⟩ := hrow x hx
    obtain ⟨user', huser', hhash', hy⟩ := hrow y hy
    have hid : user.id = user'.id := by
      rw [hx, hy] at hu
      exact hu
    have hsame : user = user' := by
      have hget := Table.mem_rows.mp huser
      rw [hid, Table.mem_rows.mp huser'] at hget
      exact (Option.some.inj hget).symm
    rw [hx, hy, hsame, hh]
  · cases hget : d.users.get u with
    | none =>
        have hblank : (World.boot d clock).db.creds u = .blank :=
          Db.creds_of_not_has (by simp [World.boot, World.db, Store.quiet, Db.has, hget])
        rw [hblank] at htemp
        cases htemp
    | some user =>
        have hcreds : (World.boot d clock).db.creds u = credentials user := Db.creds_of_get hget
        rw [hcreds] at htemp ⊢
        have hhash : user.tempPasswordHash = some hash := htemp
        have hid : user.id = u := Table.get_key hget
        refine ⟨⟨user.id, hash, user.tempPasswordExpiresAt, none⟩, ?_, hid, rfl, fun t ht => ht⟩
        refine List.mem_filterMap.mpr ⟨user, Table.mem_rows.mpr ?_, ?_⟩
        · rw [hid]
          exact hget
        · rw [hhash]
          rfl
  · obtain ⟨user, -, -, hx⟩ := hrow x hx
    rw [hx] at hpassword
    cases hpassword

end Tracked

/-! ## §4. Every credential is spent once. -/

/-- The temporary credential a session rests on. -/
def Opening.key (y : Opening) : Option (UserId × String) := y.hash.map fun hash => (y.user, hash)

/-- The credential a call has consumed and not opened a session with. -/
def held (n : Notes) : Option (UserId × String) :=
  if n.issued then none
  else if n.done.any fun x => decide (x.2 = consumePatch) then
    n.read.bind fun u => u.tempPasswordHash.map fun hash => (u.id, hash)
  else none

/-- What holds of consumed credentials, sessions and recoveries in every run. -/
structure Spent (S : Settings) (w : World) (o : History) (gs : Pid → Notes) : Prop where
  consumed : ∀ x ∈ o.consumed, (∃ s ∈ o.seen, s.user = x.1 ∧ s.hash = x.2) ∧ Dead w x.1 x.2
  recovered : ∀ y ∈ o.recoveries, ∃ hash, y.hash = some hash ∧
    (∃ s ∈ o.seen, s.user = y.user ∧ s.hash = hash) ∧ Gone w y.user hash
  once : (o.recoveries.map fun y => (y.user, y.hash)).Nodup
  /-- A recovery that is not committed yet. -/
  recovering : ∀ p u hash, (u, recoveryPatch hash) ∈ (gs p).staged → ∃ user temp,
    (gs p).read = some user ∧ user.id = u ∧ user.tempPasswordHash = some temp ∧
    (w.db.creds u).tempPasswordHash = some temp
  tickets : Tickets o.consumed (o.openings.filterMap Opening.key) fun p => held (gs p)
  tokens : ∀ y ∈ o.openings, ∀ u f exp, bearerOf y.op = some ⟨.preAuth u (some f), exp⟩ →
    y.user = u ∧ ∃ hash, y.hash = some hash ∧ S.sha256 hash = f

section Spent

variable {S : Settings} {p : Pid} {op : Op} {e : Env} {w w' : World} {o : History}
  {gs : Pid → Notes}

theorem held_eq_some {n : Notes} {u : UserId} {hash : String} :
    held n = some (u, hash) ↔ n.issued = false ∧ (∃ x ∈ n.done, x.2 = consumePatch) ∧
      ∃ user, n.read = some user ∧ user.id = u ∧ user.tempPasswordHash = some hash := by
  unfold held
  cases n.issued with
  | true => simp
  | false =>
      simp only [Bool.false_eq_true, if_false, true_and]
      split
      next hany =>
        obtain ⟨x, hx, hset⟩ := List.any_eq_true.mp hany
        simp only [Option.bind_eq_some_iff, Option.map_eq_some_iff, Prod.mk.injEq]
        constructor
        · rintro ⟨user, hread, hash', hhash, hid, rfl⟩
          exact ⟨⟨x, hx, of_decide_eq_true hset⟩, user, hread, hid, hhash⟩
        · rintro ⟨-, user, hread, hid, hhash⟩
          exact ⟨user, hread, hash, hhash, hid, rfl⟩
      next hany =>
        constructor
        · intro h
          cases h
        · rintro ⟨⟨x, hx, hset⟩, -⟩
          exact absurd (List.any_eq_true.mpr ⟨x, hx, decide_eq_true hset⟩) hany

/-- A call holds a credential since before, or consumes it now. -/
theorem held_next {n : Notes} {β : Type} {a : Act β} {b : β} (ha : n.allow S op a)
    {k : UserId × String} (h : held (n.next a b) = some k) :
    held n = some k ∨ ∃ id, a.updated b = some (id, consumePatch) := by
  obtain ⟨u, hash⟩ := k
  obtain ⟨hissued, ⟨x, hx, hset⟩, user, hread, hid, hhash⟩ := held_eq_some.mp h
  rw [n.next_done, List.mem_append] at hx
  rcases hx with hold | hnew
  · refine Or.inl (held_eq_some.mpr ⟨n.next_issued a b hissued, ⟨x, hold, hset⟩, user, ?_, hid,
      hhash⟩)
    -- a call reads no row after it has consumed a credential
    rw [read_next_of_not_plain ha fun hplain => hplain.2 x hold hset] at hread
    exact hread
  · refine Or.inr ⟨x.1, ?_⟩
    rw [Option.mem_toList.mp hnew, ← hset]

/-- A session that is stored now. -/
theorem newOpenings_cases {n : Notes} {β : Type} {a : Act β} {b : β} (ha : n.allow S op a) :
    o.newOpenings p op a b = [] ∨ ∃ v row, Issues S n v op ∧ isLogin op = true ∧
      o.journal.last p = some row ∧ (n.next a b).issued = true ∧ a.updated b = none ∧
      o.newOpenings p op a b =
        [⟨op, v.userId, if row.mustChangePassword then row.tempPasswordHash else none⟩] := by
  cases a with
  | query s =>
      cases s with
      | insertToken v =>
          cases b with
          | error x => exact Or.inl rfl
          | ok r =>
              cases hlogin : isLogin op with
              | false =>
                  left
                  show (if isLogin op then _ else _) = _
                  rw [hlogin]
                  rfl
              | true =>
                  cases hlast : o.journal.last p with
                  | none =>
                      left
                      show (if isLogin op then (o.journal.last p).toList.map _ else _) = _
                      rw [hlogin, hlast]
                      rfl
                  | some row =>
                      refine Or.inr ⟨v, row, ha, rfl, rfl, rfl, rfl, ?_⟩
                      show (if isLogin op then (o.journal.last p).toList.map _ else _) = _
                      rw [hlogin, hlast]
                      rfl
      | _ => exact Or.inl rfl
  | _ => exact Or.inl rfl

/-- A login has read a row. -/
theorem read_of_issues {n : Notes} {v : NewRefreshToken} (hI : Issues S n v op)
    (hlogin : isLogin op = true) : ∃ user, n.read = some user := by
  cases op with
  | login identifier password context =>
      obtain ⟨-, user, hread, -⟩ := hI
      exact ⟨user, hread⟩
  | verify2FA bearer token =>
      obtain ⟨-, -, user, -, -, -, -, hread, -⟩ := hI
      exact ⟨user, hread⟩
  | _ => cases hlogin

/-- **The call that opens a session on a row in forced recovery holds its
credential.** -/
theorem held_of_issues {n : Notes} {v : NewRefreshToken} {user : User} {hash : String}
    (hI : Issues S n v op) (hlogin : isLogin op = true) (hread : n.read = some user)
    (hforced : user.mustChangePassword = true) (hhash : user.tempPasswordHash = some hash) :
    held n = some (v.userId, hash) := by
  cases op with
  | login identifier password context =>
      obtain ⟨hissued, user', hread', hv, -, ⟨hno, -⟩ | ⟨-, hdone⟩⟩ := hI
      · obtain rfl := Option.some.inj (hread.symm.trans hread')
        rw [hforced] at hno
        cases hno
      · obtain rfl := Option.some.inj (hread.symm.trans hread')
        refine held_eq_some.mpr ⟨hissued, ⟨(user.id, consumePatch), ?_, rfl⟩, user, hread,
          hv.symm, hhash⟩
        rw [hdone]
        exact List.mem_cons_self
  | verify2FA bearer token =>
      obtain ⟨hissued, -, user', sub, fingerprint, exp, -, hread', -, hv, -, hmode, hcred⟩ := hI
      obtain rfl := Option.some.inj (hread.symm.trans hread')
      rw [hforced] at hmode
      obtain ⟨f, hf⟩ := Option.isSome_iff_exists.mp hmode.symm
      obtain ⟨hdone, -⟩ := hcred f hf
      exact held_eq_some.mpr ⟨hissued, ⟨_, hdone, rfl⟩, user, hread, hv.symm, hhash⟩
  | _ => cases hlogin

/-- **A credential that is consumed** is the one in force: neither used nor
expired, and the one that the call has read. -/
theorem Tracked.consume {β : Type} {a : Act β} {b : β} {id : UserId} (hB : Booked w gs)
    (h : Tracked S w o gs) (hop : (gs p).op = some op) (ha : (gs p).allow S op a)
    (hx : exec S p a e w = some (b, w')) (hu : a.updated b = some (id, consumePatch)) :
    ∃ user hash now t, (gs p).read = some user ∧ user.id = id ∧
      user.tempPasswordHash = some hash ∧ hash ≠ "" ∧ user.tempPasswordExpiresAt.isSome = true ∧
      (gs p).times.head? = some now ∧ now < t ∧ Presents S (gs p) user hash op ∧
      (gs p).issued = false ∧ (w.db.creds id).tempPasswordHash = some hash ∧
      (w.db.creds id).tempPasswordExpiresAt = some t ∧
      w'.db.creds id = consumePatch.act (w.db.creds id) ∧
      o.newConsumed p a b = [(id, hash)] := by
  cases deed ha b with
  | none hnone _ _ =>
      rw [hnone] at hu
      cases hu
  | commit _ =>
      have hno : none = some (id, consumePatch) := hu
      cases hno
  | @update id' cond set row hwhy =>
      obtain ⟨rfl, rfl⟩ := Prod.mk.inj (Option.some.inj hu)
      obtain ⟨user, hash, now, hout, hread, hid, rfl, -, hhash, hne, hexpires, hnow, hpresents,
        hissued⟩ := hwhy.of_consume
      obtain ⟨current, -, hcond, hcreds⟩ := hB.update hx (hB.staged_of_outside hout)
      simp only [unusedTemp, Bool.and_eq_true, beq_iff_eq] at hcond
      obtain ⟨t, ht, hlt⟩ := (Option.any_eq_true _ _).mp hcond.2
      have hstep : w'.db.creds id' = consumePatch.act (w.db.creds id') := by
        rw [hB.creds_step hx, commits_update, if_neg (by simp [hout]), enact_singleton_self]
      refine ⟨user, hash, now, t, hread, hid, hhash, hne, hexpires, hnow, of_decide_eq_true hlt,
        hpresents, hissued, ?_, ?_, hstep, ?_⟩
      · rw [← hcreds]
        exact hcond.1.2
      · rw [← hcreds]
        exact ht
      · have hlast := h.last hop hread
        unfold History.newConsumed
        rw [hu]
        simp [hlast, hhash]

/-- Any other step consumes nothing. -/
theorem newConsumed_eq_nil {β : Type} {a : Act β} {b : β}
    (h : ∀ id, a.updated b ≠ some (id, consumePatch)) : o.newConsumed p a b = [] := by
  unfold History.newConsumed
  split
  next id set hu =>
    rw [if_neg]
    rintro rfl
    exact h id hu
  next => rfl

theorem Spent.tickets_step {β : Type} {a : Act β} {b : β} (hB : Booked w gs)
    (hT : Tracked S w o gs) (h : Spent S w o gs) (hop : (gs p).op = some op)
    (ha : (gs p).allow S op a) (hx : exec S p a e w = some (b, w')) :
    Tickets (o.newConsumed p a b ++ o.consumed)
      ((o.newOpenings p op a b ++ o.openings).filterMap Opening.key)
      fun q => held (Function.update gs p ((gs p).next a b) q) := by
  have hother : ∀ q, q ≠ p →
      held (Function.update gs p ((gs p).next a b) q) = held (gs q) := by
    intro q hq
    rw [Function.update_of_ne hq]
  by_cases hconsumes : ∃ id, a.updated b = some (id, consumePatch)
  · -- call `p` takes the credential
    obtain ⟨id, hu⟩ := hconsumes
    obtain ⟨user, hash, now, t, hread, hid, hhash, -, -, -, -, -, hissued, htemp, hexpires, -,
      hconsumed⟩ := hT.consume hB hop ha hx hu
    have hfresh : (id, hash) ∉ o.consumed := by
      intro hmem
      have hnone := (h.consumed (id, hash) hmem).2 htemp
      rw [hexpires] at hnone
      cases hnone
    have hnone : o.newOpenings p op a b = [] := by
      rcases newOpenings_cases (o := o) (p := p) ha with hnil | ⟨v, row, -, -, -, -, hno, -⟩
      · exact hnil
      · rw [hno] at hu
        cases hu
    have hissued' : ((gs p).next a b).issued = false := by
      cases deed ha b with
      | none hno _ _ =>
          rw [hno] at hu
          cases hu
      | commit _ => exact hissued
      | update _ => exact hissued
    have hread' : ((gs p).next a b).read = some user := by
      cases deed ha b with
      | none hno _ _ =>
          rw [hno] at hu
          cases hu
      | commit _ => exact hread
      | update _ => exact hread
    rw [hconsumed, hnone]
    refine h.tickets.take hfresh ?_ hother
    show held (Function.update gs p ((gs p).next a b) p) = some (id, hash)
    rw [Function.update_self]
    refine held_eq_some.mpr ⟨hissued', ⟨(id, consumePatch), ?_, rfl⟩, user, hread', hid, hhash⟩
    rw [(gs p).next_done, hu]
    exact List.mem_append_right _ List.mem_cons_self
  · have hnothing : ∀ id, a.updated b ≠ some (id, consumePatch) := fun id hu => hconsumes ⟨id, hu⟩
    have hkeep : ∀ q k, held (Function.update gs p ((gs p).next a b) q) = some k →
        held (gs q) = some k := by
      intro q k hq
      by_cases hqp : q = p
      · rw [hqp, Function.update_self] at hq
        rw [hqp]
        exact (held_next ha hq).resolve_right fun ⟨id, hu⟩ => hnothing id hu
      · rw [hother q hqp] at hq
        exact hq
    rw [newConsumed_eq_nil hnothing, List.nil_append]
    rcases newOpenings_cases (o := o) (p := p) (b := b) ha with
      hnil | ⟨v, row, hI, hlogin, hlast, hissued, -, hnew⟩
    · rw [hnil]
      exact h.tickets.keep hkeep
    · rw [hnew]
      have hspent : held (Function.update gs p ((gs p).next a b) p) = none := by
        rw [Function.update_self]
        unfold held
        rw [hissued]
        rfl
      cases hkey : Opening.key ⟨op, v.userId,
          if row.mustChangePassword then row.tempPasswordHash else none⟩ with
      | none =>
          rw [List.singleton_append, List.filterMap_cons_none hkey]
          exact h.tickets.keep hkeep
      | some k =>
          -- the row is in forced recovery, and call `p` spends its credential
          rw [List.singleton_append, List.filterMap_cons_some hkey]
          obtain ⟨hash, hhash, rfl⟩ := Option.map_eq_some_iff.mp hkey
          have hrow : row.mustChangePassword = true ∧ row.tempPasswordHash = some hash := by
            cases hforced : row.mustChangePassword with
            | false => simp [hforced] at hhash
            | true => exact ⟨rfl, by simpa [hforced] using hhash⟩
          have hread : (gs p).read = some row := by
            obtain ⟨user, hread⟩ := read_of_issues hI hlogin
            obtain rfl := Option.some.inj ((hT.last hop hread).symm.trans hlast)
            exact hread
          exact h.tickets.spend (held_of_issues hI hlogin hread hrow.1 hrow.2) hspent hother

/-- The recovery that commits now. -/
theorem newRecoveries_cases {β : Type} {a : Act β} {b : β} (hB : Booked w gs)
    (hT : Tracked S w o gs) (hop : (gs p).op = some op) (ha : (gs p).allow S op a)
    (hx : exec S p a e w = some (b, w')) :
    o.newRecoveries w p op a b = [] ∨
      ∃ u oldPassword newPassword cookie user temp hash,
        op = .updatePassword u oldPassword newPassword cookie true ∧
        (u, recoveryPatch hash) ∈ (gs p).staged ∧ (gs p).read = some user ∧ user.id = u ∧
        user.tempPasswordHash = some temp ∧ S.compare oldPassword temp = true ∧
        (w'.db.creds u).tempPasswordHash = none ∧
        o.newRecoveries w p op a b = [⟨op, u, some temp⟩] := by
  by_cases hnew : o.newRecoveries w p op a b = []
  · exact Or.inl hnew
  · right
    unfold History.newRecoveries at hnew ⊢
    split at hnew
    next u oldPassword newPassword cookie =>
      split at hnew
      next hcond =>
        rw [Bool.and_eq_true] at hcond
        obtain ⟨hended, hupdates⟩ := hcond
        cases deed ha b with
        | none _ _ hno =>
            rw [hno] at hended
            cases hended
        | update _ => cases hended
        | commit hstaged =>
            obtain ⟨set, hset⟩ := (Recovery.updates_iff hB).mp hupdates
            rcases hstaged with hnil | ⟨-, user, temp, hash, hread, hid, hused, hmatch, hsome⟩
            · rw [hnil] at hset
              exact absurd hset List.not_mem_nil
            · simp only [usedTemp, Bool.and_eq_true, beq_iff_eq] at hused
              have hclear : (w'.db.creds u).tempPasswordHash = none := by
                rw [hB.creds_step hx]
                show (enact u (gs p).staged _).tempPasswordHash = none
                rw [hsome, enact_singleton_self]
                rfl
              refine ⟨u, oldPassword, newPassword, cookie, user, temp, hash, rfl, ?_, hread, hid,
                hused.2, hmatch, hclear, ?_⟩
              · rw [hsome]
                exact List.mem_cons_self
              · rw [hT.last hop hread, if_pos (by rw [hupdates]; rfl)]
                simp [hused.2]
      next => exact absurd rfl hnew
    next => exact absurd rfl hnew

/-- What was seen before is seen after. -/
theorem seen_mono {β : Type} {a : Act β} {b : β} {u : UserId} {hash : String}
    (h : ∃ s ∈ o.seen, s.user = u ∧ s.hash = hash) :
    ∃ s ∈ (o.step w p op a b).seen, s.user = u ∧ s.hash = hash := by
  obtain ⟨s, hs, hrest⟩ := h
  exact ⟨s, List.mem_append_right _ hs, hrest⟩

/-- No reset of a credential that was seen is on its way. -/
theorem Tracked.not_pending (h : Tracked S w o gs) {u : UserId} {hash : String}
    (hs : ∃ s ∈ o.seen, s.user = u ∧ s.hash = hash) (q : Pid) (t : Timestamp) :
    (u, resetPatch hash t) ∉ (gs q).staged := by
  intro hmem
  obtain ⟨s, hs, hu, hh⟩ := hs
  exact (h.pending q u hash t hmem).2.2 s hs hu hh

theorem Spent.recovering_step {β : Type} {a : Act β} {b : β} (hB : Booked w gs)
    (h : Spent S w o gs) (ha : (gs p).allow S op a) (hx : exec S p a e w = some (b, w'))
    {q : Pid} {u : UserId} {hash : String}
    (hq : (u, recoveryPatch hash) ∈ (Function.update gs p ((gs p).next a b) q).staged) :
    ∃ user temp, (Function.update gs p ((gs p).next a b) q).read = some user ∧ user.id = u ∧
      user.tempPasswordHash = some temp ∧ (w'.db.creds u).tempPasswordHash = some temp := by
  rcases staged_next hq with ⟨hold, hended⟩ | ⟨rfl, hin, hnew, hended⟩
  · obtain ⟨user, temp, hread, hid, htemp, hcreds⟩ := h.recovering q u hash hold
    by_cases hqp : q = p
    · -- inside its transaction call `p` neither reads nor commits
      subst hqp
      have hin : (gs q).inside = true := by
        by_contra hout
        rw [hB.staged_of_outside (by simpa using hout)] at hold
        exact absurd hold List.not_mem_nil
      refine ⟨user, temp, ?_, hid, htemp, ?_⟩
      · rw [Function.update_self, read_next_of_not_plain ha fun hplain => ?_]
        · exact hread
        · exact (hplain.1 _ hold).1 List.mem_cons_self
      · rw [hB.creds_step hx, commits_of_inside hin (hended rfl), enact_nil]
        exact hcreds
    · -- no other call moves the row
      rw [Function.update_of_ne hqp]
      refine ⟨user, temp, hread, hid, htemp, ?_⟩
      rw [hB.locked hx hqp hold]
      exact hcreds
  · cases deed ha b with
    | none hno _ _ =>
        rw [hno] at hnew
        cases hnew
    | commit _ => cases hended
    | @update id cond set row hwhy =>
        obtain ⟨rfl, rfl⟩ := Prod.mk.inj (Option.some.inj hnew)
        obtain ⟨-, -, -, user, temp, -, rfl, -, hstaged, hread, hid, hused, -⟩ := hwhy.of_recovery
        obtain ⟨current, -, hcond, hcreds⟩ := hB.update hx hstaged
        simp only [usedTemp, Bool.and_eq_true, beq_iff_eq] at hused hcond
        refine ⟨user, temp, ?_, hid, hused.2, ?_⟩
        · rw [Function.update_self]
          exact hread
        · rw [hB.creds_step hx, commits_of_inside hin hended, enact_nil, ← hcreds]
          exact hcond.2

theorem Spent.step {β : Type} {a : Act β} {b : β} (hB : Booked w gs) (hT : Tracked S w o gs)
    (h : Spent S w o gs) (hop : (gs p).op = some op) (ha : (gs p).allow S op a)
    (hx : exec S p a e w = some (b, w')) :
    Spent S w' (o.step w p op a b) (Function.update gs p ((gs p).next a b)) := by
  refine ⟨fun x hmem => ?_, fun y hy => ?_, ?_, fun q u hash hq => h.recovering_step hB ha hx hq,
    h.tickets_step hB hT hop ha hx, fun y hy u f exp hbearer => ?_⟩
  · rcases List.mem_append.mp hmem with hnew | hold
    · by_cases hconsumes : ∃ id, a.updated b = some (id, consumePatch)
      · obtain ⟨id, hu⟩ := hconsumes
        obtain ⟨user, hash, -, -, hread, rfl, hhash, -, -, -, -, -, -, -, -, hstep, hconsumed⟩ :=
          hT.consume hB hop ha hx hu
        rw [hconsumed, List.mem_singleton] at hnew
        rw [hnew]
        refine ⟨seen_mono ⟨_, hT.saw hop hread hhash, rfl, rfl⟩, fun _ => ?_⟩
        rw [hstep]
        rfl
      · rw [newConsumed_eq_nil fun id hu => hconsumes ⟨id, hu⟩] at hnew
        exact absurd hnew List.not_mem_nil
    · obtain ⟨hseen, hdead⟩ := h.consumed x hold
      exact ⟨seen_mono hseen, hdead.step (temp_step hB ha hx x.1) (hT.not_pending hseen p)⟩
  · rcases List.mem_append.mp hy with hnew | hold
    · rcases newRecoveries_cases hB hT hop ha hx with hnil |
        ⟨u, -, -, -, user, temp, -, -, -, hread, rfl, htemp, -, hclear, hsome⟩
      · rw [hnil] at hnew
        exact absurd hnew List.not_mem_nil
      · rw [hsome, List.mem_singleton] at hnew
        rw [hnew]
        refine ⟨temp, rfl, seen_mono ⟨_, hT.saw hop hread htemp, rfl, rfl⟩, ?_⟩
        unfold Gone
        rw [hclear]
        exact nofun
    · obtain ⟨hash, hhash, hseen, hgone⟩ := h.recovered y hold
      exact ⟨hash, hhash, seen_mono hseen,
        hgone.step (temp_step hB ha hx y.user) fun _ => hT.not_pending hseen p⟩
  · show ((o.newRecoveries w p op a b ++ o.recoveries).map _).Nodup
    rcases newRecoveries_cases hB hT hop ha hx with hnil |
      ⟨u, -, -, -, user, temp, hash, -, hstaged, hread, rfl, htemp, -, -, hsome⟩
    · rw [hnil]
      exact h.once
    · rw [hsome, List.singleton_append, List.map_cons, List.nodup_cons]
      refine ⟨fun hmem => ?_, h.once⟩
      -- the credential would be gone already
      obtain ⟨y, hy, hkey⟩ := List.mem_map.mp hmem
      obtain ⟨hyu, hyh⟩ := Prod.mk.inj hkey
      obtain ⟨hash', hhash', -, hgone⟩ := h.recovered y hy
      obtain ⟨user', temp', hread', -, htemp', hcreds⟩ := h.recovering p user.id hash hstaged
      obtain rfl := Option.some.inj (hread.symm.trans hread')
      rw [hyh] at hhash'
      obtain rfl := Option.some.inj hhash'
      rw [hyu] at hgone
      rw [htemp] at htemp'
      exact hgone (hcreds.trans htemp'.symm)
  · rcases List.mem_append.mp hy with hnew | hold
    · rcases newOpenings_cases (o := o) (p := p) (b := b) ha with
        hnil | ⟨v, row, hI, hlogin, hlast, -, -, hsome⟩
      · rw [hnil] at hnew
        exact absurd hnew List.not_mem_nil
      · rw [hsome, List.mem_singleton] at hnew
        subst hnew
        cases op with
        | verify2FA bearer token =>
            obtain ⟨-, -, user, sub, fingerprint, exp', rfl, hread, hid, hv, -, hmode, hcred⟩ := hI
            obtain ⟨hpayload, -⟩ := Jwt.mk.inj (Option.some.inj hbearer)
            obtain ⟨rfl, rfl⟩ := Payload.preAuth.inj hpayload
            obtain ⟨-, hash, hhash, hsha⟩ := hcred f rfl
            obtain rfl := Option.some.inj ((hT.last hop hread).symm.trans hlast)
            refine ⟨hv.trans hid, hash, ?_, hsha⟩
            show (if user.mustChangePassword then user.tempPasswordHash else none) = some hash
            rw [hmode]
            exact hhash
        | login identifier password context => cases hbearer
        | _ => cases hlogin
    · exact h.tokens y hold u f exp hbearer

theorem Spent.opened (h : Spent S w o gs) (op : Op) :
    Spent S w (o.opened p) (Function.update gs p (.fresh op)) := by
  refine ⟨h.consumed, h.recovered, h.once, fun q u hash hq => ?_, h.tickets.keep fun q k hq => ?_,
    h.tokens⟩
  · by_cases hqp : q = p
    · rw [hqp, Function.update_self] at hq
      exact absurd hq List.not_mem_nil
    · rw [Function.update_of_ne hqp] at hq ⊢
      exact h.recovering q u hash hq
  · by_cases hqp : q = p
    · rw [hqp, Function.update_self] at hq
      cases hq
    · rw [Function.update_of_ne hqp] at hq
      exact hq

theorem Spent.of_creds (h : Spent S w o gs) (hw : ∀ u, w'.db.creds u = w.db.creds u) :
    Spent S w' o gs := by
  refine ⟨fun x hx => ?_, fun y hy => ?_, h.once, fun q u hash hq => ?_, h.tickets, h.tokens⟩
  · unfold Dead
    rw [hw x.1]
    exact h.consumed x hx
  · unfold Gone
    rw [hw y.user]
    exact h.recovered y hy
  · rw [hw u]
    exact h.recovering q u hash hq

theorem Spent.settled (h : Spent S w o gs) (alive : Pid → Bool) :
    Spent S w o fun p => if alive p then (gs p).settle else .idle := by
  refine ⟨h.consumed, h.recovered, h.once, fun q u hash hq => ?_, h.tickets.keep fun q k hq => ?_,
    h.tokens⟩
  · have hnil : (if alive q then (gs q).settle else Notes.idle).staged = [] := by
      split <;> rfl
    rw [hnil] at hq
    exact absurd hq List.not_mem_nil
  · have hq : held (if alive q then (gs q).settle else Notes.idle) = some k := hq
    split at hq
    next => exact hq
    next => cases hq

theorem Spent.boot (d : Db) (clock : Timestamp) (early : List Jwt) :
    Spent S (World.boot d clock) (.start d early) fun _ => .idle :=
  ⟨fun _ hx => absurd hx List.not_mem_nil, fun _ hy => absurd hy List.not_mem_nil,
    List.nodup_nil, fun _ _ _ hq => absurd hq List.not_mem_nil, Tickets.empty,
    fun _ hy => absurd hy List.not_mem_nil⟩

end Spent

/-! ## §5. What was presented for a credential. -/

/-- What call `op` has presented for the temporary credential `hash` of `u`: the
password, or a token handed out to a login that had presented it. -/
def Pays (S : Settings) (o : History) (op : Op) (u : UserId) (hash : String) : Prop :=
  match op with
  | .login _ password _ => S.compare password hash = true
  | .verify2FA (.signed jwt) _ => jwt.payload = .preAuth u (some (S.sha256 hash)) ∧
      (jwt ∈ o.early ∨ ∃ z ∈ o.challenges, z.token = jwt ∧ S.compare z.password hash = true)
  | _ => False

/-- What a handed-out challenge says. -/
structure Challenge.Holds (S : Settings) (w : World) (o : History) (z : Challenge) : Prop where
  clock : z.clock ≤ w.clock
  payload : z.token.payload = .preAuth z.row.id (if z.row.mustChangePassword
    then some (S.sha256 (z.row.tempPasswordHash.getD "")) else none)
  matched : z.row.mustChangePassword = true →
    ∃ t ≤ z.clock, S.compare z.password (tempHashAt (some z.row) t) = true
  seen : ∀ s, sight z.row = some s → s ∈ o.seen

/-- What holds of presented passwords and tokens in every run in which tokens
are not forged. -/
structure Paid (S : Settings) (w : World) (o : History) (gs : Pid → Notes) : Prop where
  challenges : ∀ z ∈ o.challenges, z.Holds S w o
  presented : ∀ p jwt code u f, (gs p).op = some (.verify2FA (.signed jwt) code) →
    jwt.payload = .preAuth u (some f) →
    jwt ∈ o.early ∨ ∃ z ∈ o.challenges, z.token = jwt ∧ ∀ t ∈ (gs p).times, z.clock ≤ t
  paid : ∀ p op, (gs p).op = some op → ∀ x ∈ (gs p).done, x.2 = consumePatch →
    ∃ user hash, (gs p).read = some user ∧ user.id = x.1 ∧ user.tempPasswordHash = some hash ∧
      Pays S o op user.id hash
  openings : ∀ y ∈ o.openings, ∀ hash, y.hash = some hash → Pays S o y.op y.user hash
  recoveries : ∀ y ∈ o.recoveries, ∃ oldPassword newPassword cookie hash,
    y.op = .updatePassword y.user oldPassword newPassword cookie true ∧ y.hash = some hash ∧
    S.compare oldPassword hash = true

section Paid

variable {S : Settings} {p : Pid} {op : Op} {e : Env} {w w' : World} {o : History}
  {gs : Pid → Notes}

theorem Pays.mono {β : Type} {a : Act β} {b : β} {op' : Op} {u : UserId} {hash : String}
    (h : Pays S o op' u hash) : Pays S (o.step w p op a b) op' u hash := by
  cases op' with
  | login identifier password context => exact h
  | verify2FA bearer code =>
      cases bearer with
      | signed jwt =>
          refine ⟨h.1, h.2.imp_right ?_⟩
          rintro ⟨z, hz, hrest⟩
          exact ⟨z, List.mem_append_right _ hz, hrest⟩
      | _ => exact h
  | _ => exact h

/-- **While a credential is in force, a login that read it compared with it.** -/
theorem Tracked.compared (h : Tracked S w o gs) {row : User} {hash : String} {t₀ t : Timestamp}
    (hhash : row.tempPasswordHash = some hash) (hne : hash ≠ "")
    (hsight : ⟨row.id, hash, row.tempPasswordExpiresAt⟩ ∈ o.seen)
    (htemp : (w.db.creds row.id).tempPasswordHash = some hash)
    (hexpires : (w.db.creds row.id).tempPasswordExpiresAt = some t) (hlt : t₀ < t) :
    tempHashAt (some row) t₀ = hash := by
  cases hrow : row.tempPasswordExpiresAt with
  | none =>
      have hdead := h.dead _ hsight hrow htemp
      rw [hexpires] at hdead
      cases hdead
  | some t' =>
      rw [hrow] at hsight
      have hknown := h.known row.id hash htemp
      rw [hexpires] at hknown
      obtain rfl := h.expiry (h.sights _ hsight) hknown
      simp [tempHashAt, truthy, hhash, Option.filter_some, hne, hrow, hlt]

/-- The last clock reading is the latest. -/
theorem Tracked.latest (h : Tracked S w o gs) {now t : Timestamp}
    (hnow : (gs p).times.head? = some now) (ht : t ∈ (gs p).times) : t ≤ now := by
  have hsorted := h.times p
  cases htimes : (gs p).times with
  | nil =>
      rw [htimes] at ht
      exact absurd ht List.not_mem_nil
  | cons t' ts =>
      rw [htimes] at hnow ht hsorted
      obtain rfl := Option.some.inj hnow
      rcases List.mem_cons.mp ht with rfl | ht
      · exact le_rfl
      · exact (List.pairwise_cons.mp hsorted).1 t ht

/-- The call that consumes a credential has presented for it. -/
theorem Paid.consume {β : Type} {a : Act β} {b : β} {id : UserId}
    (hsha : Function.Injective S.sha256) (hB : Booked w gs) (hT : Tracked S w o gs)
    (h : Paid S w o gs) (hop : (gs p).op = some op) (ha : (gs p).allow S op a)
    (hx : exec S p a e w = some (b, w')) (hu : a.updated b = some (id, consumePatch)) :
    ∃ user hash, (gs p).read = some user ∧ user.id = id ∧ user.tempPasswordHash = some hash ∧
      Pays S o op user.id hash := by
  obtain ⟨user, hash, now, t, hread, rfl, hhash, hne, -, hnow, hlt, hpresents, -, htemp, hexpires,
    -, -⟩ := hT.consume hB hop ha hx hu
  refine ⟨user, hash, hread, rfl, hhash, ?_⟩
  cases op with
  | login identifier password context =>
      obtain ⟨-, t₀, ht₀, hmatch⟩ := hpresents
      have hlt₀ : t₀ < t := lt_of_le_of_lt (hT.latest hnow ht₀) hlt
      rw [hT.compared hhash hne (hT.saw hop hread hhash) htemp hexpires hlt₀] at hmatch
      exact hmatch
  | verify2FA bearer code =>
      obtain ⟨exp, rfl⟩ := hpresents
      refine ⟨rfl, ?_⟩
      rcases h.presented p _ code user.id _ hop rfl with hearly | ⟨z, hz, htoken, hclock⟩
      · exact Or.inl hearly
      · -- the challenge is for this credential
        have hholds := h.challenges z hz
        have hpayload := hholds.payload
        rw [htoken] at hpayload
        obtain ⟨hid, hf⟩ := Payload.preAuth.inj hpayload
        have hforced : z.row.mustChangePassword = true := by
          by_contra hno
          rw [if_neg hno] at hf
          cases hf
        rw [if_pos hforced] at hf
        have hgetD : z.row.tempPasswordHash.getD "" = hash :=
          (hsha (Option.some.inj hf)).symm
        have hzhash : z.row.tempPasswordHash = some hash := by
          cases htemp' : z.row.tempPasswordHash with
          | none =>
              rw [htemp'] at hgetD
              exact absurd hgetD.symm hne
          | some hash' =>
              rw [htemp'] at hgetD
              exact congrArg some hgetD
        obtain ⟨t₀, ht₀, hmatch⟩ := hholds.matched hforced
        have hlt₀ : t₀ < t :=
          lt_of_le_of_lt (ht₀.trans (hclock now (List.mem_of_head? hnow))) hlt
        have hsight : ⟨z.row.id, hash, z.row.tempPasswordExpiresAt⟩ ∈ o.seen :=
          hholds.seen _ (by rw [sight, hzhash]; rfl)
        rw [hid] at htemp hexpires
        rw [hT.compared hzhash hne hsight htemp hexpires hlt₀] at hmatch
        exact Or.inr ⟨z, hz, htoken, hmatch⟩
  | _ => exact hpresents.elim

/-- A challenge that is handed out now. -/
theorem newChallenges_holds {β : Type} {a : Act β} {b : β} (hB : Booked w gs)
    (hT : Tracked S w o gs) (hop : (gs p).op = some op) (ha : (gs p).allow S op a)
    (hx : exec S p a e w = some (b, w')) {z : Challenge} (hz : z ∈ o.newChallenges w p op a b) :
    z.Holds S w o := by
  cases a with
  | sign payload ttl =>
      cases payload with
      | preAuth id fingerprint =>
          cases op with
          | login identifier password context =>
              obtain ⟨user, hread, hid, hfingerprint, hmatch⟩ := ha
              have hlast := hT.last hop hread
              simp only [History.newChallenges, hlast, List.mem_singleton] at hz
              subst hz
              have hb : (⟨.preAuth id fingerprint, w.clock / 1000 + ttl / 1000⟩ : Jwt) = b :=
                (Prod.mk.inj (Option.some.inj hx)).1
              refine ⟨le_rfl, ?_, fun hforced => ?_, fun s hs => ?_⟩
              · rw [← hb, ← hid, ← hfingerprint]
              · obtain ⟨t, ht, hcompare⟩ := hmatch hforced
                exact ⟨t, hB.times p t ht, hcompare⟩
              · obtain ⟨hash, hhash, rfl⟩ := Option.map_eq_some_iff.mp hs
                exact hT.saw hop hread hhash
          | _ => exact ha.elim
      | _ => exact absurd hz List.not_mem_nil
  | _ => exact absurd hz List.not_mem_nil

theorem Challenge.Holds.mono {β : Type} {a : Act β} {b : β} {z : Challenge} (h : z.Holds S w o)
    (hclock : w.clock ≤ w'.clock) : z.Holds S w' (o.step w p op a b) :=
  ⟨h.clock.trans hclock, h.payload, h.matched, fun s hs => List.mem_append_right _ (h.seen s hs)⟩

/-- A clock reading of a call is from before, or of now. -/
theorem times_next {n : Notes} {β : Type} {a : Act β} {b : β}
    (hx : exec S p a e w = some (b, w')) {t : Timestamp} (h : t ∈ (n.next a b).times) :
    t ∈ n.times ∨ t = w.clock := by
  cases a with
  | query s =>
      cases b with
      | error x => exact Or.inl h
      | ok r =>
          have h : t ∈ (n.after s r).times := h
          rw [n.after_times] at h
          exact Or.inl h
  | begin =>
      cases b with
      | error x => exact Or.inl h
      | ok r => exact Or.inl h
  | now =>
      have hb : b = w.clock := by
        cases hx
        rfl
      rcases List.mem_cons.mp h with rfl | hold
      · exact Or.inr hb
      · exact Or.inl hold
  | _ => exact Or.inl h

theorem Paid.step {β : Type} {a : Act β} {b : β} (hsha : Function.Injective S.sha256)
    (hB : Booked w gs) (hT : Tracked S w o gs) (h : Paid S w o gs) (hop : (gs p).op = some op)
    (ha : (gs p).allow S op a) (hx : exec S p a e w = some (b, w')) :
    Paid S w' (o.step w p op a b) (Function.update gs p ((gs p).next a b)) := by
  have hclock : w'.clock = w.clock := exec_clock hx
  refine ⟨fun z hz => ?_, fun q jwt code u f hq hpayload => ?_, fun q op' hq x hmem hset => ?_,
    fun y hy hash hhash => ?_, fun y hy => ?_⟩
  · rcases List.mem_append.mp hz with hnew | hold
    · exact (newChallenges_holds hB hT hop ha hx hnew).mono hclock.ge
    · exact (h.challenges z hold).mono hclock.ge
  · rcases h.presented q jwt code u f (Recovery.op_next hq) hpayload with
      hearly | ⟨z, hz, htoken, htimes⟩
    · exact Or.inl hearly
    · refine Or.inr ⟨z, List.mem_append_right _ hz, htoken, fun t ht => ?_⟩
      by_cases hqp : q = p
      · rw [hqp, Function.update_self] at ht
        rcases times_next hx ht with hold | rfl
        · rw [hqp] at htimes
          exact htimes t hold
        · exact (h.challenges z hz).clock
      · rw [Function.update_of_ne hqp] at ht
        exact htimes t ht
  · have hq' := Recovery.op_next hq
    rcases Recovery.done_next hmem with hold | ⟨rfl, hu⟩
    · obtain ⟨user, hash, hread, hid, hhash, hpays⟩ := h.paid q op' hq' x hold hset
      refine ⟨user, hash, ?_, hid, hhash, hpays.mono⟩
      by_cases hqp : q = p
      · subst hqp
        rw [Function.update_self,
          read_next_of_not_plain ha fun hplain => hplain.2 x hold hset]
        exact hread
      · rw [Function.update_of_ne hqp]
        exact hread
    · rw [hq'] at hop
      obtain rfl := Option.some.inj hop
      have hu' : a.updated b = some (x.1, consumePatch) := by rw [hu, ← hset]
      obtain ⟨user, hash, hread, hid, hhash, hpays⟩ :=
        h.consume hsha hB hT hq' ha hx hu'
      refine ⟨user, hash, ?_, hid, hhash, hpays.mono⟩
      rw [Function.update_self]
      cases deed ha b with
      | none hno _ _ =>
          rw [hno] at hu
          cases hu
      | commit _ => exact hread
      | update _ => exact hread
  · rcases List.mem_append.mp hy with hnew | hold
    · rcases newOpenings_cases (o := o) (p := p) (b := b) ha with
        hnil | ⟨v, row, hI, hlogin, hlast, -, -, hsome⟩
      · rw [hnil] at hnew
        exact absurd hnew List.not_mem_nil
      · rw [hsome, List.mem_singleton] at hnew
        subst hnew
        have hhash : (if row.mustChangePassword then row.tempPasswordHash else none) = some hash :=
          hhash
        have hforced : row.mustChangePassword = true := by
          by_contra hno
          rw [if_neg hno] at hhash
          cases hhash
        rw [if_pos hforced] at hhash
        obtain ⟨user, hread⟩ := read_of_issues hI hlogin
        obtain rfl := Option.some.inj ((hT.last hop hread).symm.trans hlast)
        -- the session rests on the credential that the call has consumed
        obtain ⟨-, ⟨x, hmem, hset⟩, user', hread', hid, hhash'⟩ :=
          held_eq_some.mp (held_of_issues hI hlogin hread hforced hhash)
        obtain ⟨user'', hash'', hread'', hx', hhash'', hpays⟩ := h.paid p op hop x hmem hset
        obtain rfl := Option.some.inj (hread.symm.trans hread')
        obtain rfl := Option.some.inj (hread.symm.trans hread'')
        obtain rfl := Option.some.inj (hhash.symm.trans hhash'')
        rw [hid] at hpays
        exact hpays.mono
    · exact (h.openings y hold hash hhash).mono
  · rcases List.mem_append.mp hy with hnew | hold
    · rcases newRecoveries_cases hB hT hop ha hx with hnil |
        ⟨u, oldPassword, newPassword, cookie, user, temp, hash, rfl, -, -, -, -, hmatch, -, hsome⟩
      · rw [hnil] at hnew
        exact absurd hnew List.not_mem_nil
      · rw [hsome, List.mem_singleton] at hnew
        subst hnew
        exact ⟨oldPassword, newPassword, cookie, temp, rfl, rfl, hmatch⟩
    · exact h.recoveries y hold

theorem Paid.opened {op : Op} (h : Paid S w o gs)
    (ha : (bearerOf op).all o.issued = true) :
    Paid S w (o.opened p) (Function.update gs p (.fresh op)) := by
  refine ⟨fun z hz => ?_, fun q jwt code u f hq hpayload => ?_, fun q op' hq x hmem hset => ?_,
    h.openings, h.recoveries⟩
  · have hholds := h.challenges z hz
    exact ⟨hholds.clock, hholds.payload, hholds.matched, hholds.seen⟩
  · by_cases hqp : q = p
    · rw [hqp, Function.update_self] at hq
      obtain rfl := Option.some.inj hq
      have ha : o.issued jwt = true := ha
      unfold History.issued at ha
      rw [hpayload] at ha
      rw [Bool.or_eq_true, decide_eq_true_eq] at ha
      refine ha.imp_right fun hany => ?_
      obtain ⟨z, hz, htoken⟩ := List.any_eq_true.mp hany
      refine ⟨z, hz, of_decide_eq_true htoken, fun t ht => ?_⟩
      rw [hqp, Function.update_self] at ht
      exact absurd ht List.not_mem_nil
    · rw [Function.update_of_ne hqp] at hq ⊢
      exact h.presented q jwt code u f hq hpayload
  · by_cases hqp : q = p
    · rw [hqp, Function.update_self] at hmem
      exact absurd hmem List.not_mem_nil
    · rw [Function.update_of_ne hqp] at hq hmem ⊢
      exact h.paid q op' hq x hmem hset

theorem Paid.of_clock (h : Paid S w o gs) (hclock : w.clock ≤ w'.clock) : Paid S w' o gs := by
  refine ⟨fun z hz => ?_, h.presented, h.paid, h.openings, h.recoveries⟩
  have hholds := h.challenges z hz
  exact ⟨hholds.clock.trans hclock, hholds.payload, hholds.matched, hholds.seen⟩

theorem Paid.settled (h : Paid S w o gs) (alive : Pid → Bool) :
    Paid S w o fun p => if alive p then (gs p).settle else .idle := by
  refine ⟨h.challenges, fun q jwt code u f hq hpayload => ?_, fun q op' hq x hmem hset => ?_,
    h.openings, h.recoveries⟩ <;> cases halive : alive q with
  | false =>
      simp only [halive] at hq
      cases hq
  | true => ?_
  · simp only [halive, if_true] at hq ⊢
    exact h.presented q jwt code u f hq hpayload
  · simp only [halive, if_true] at hq hmem ⊢
    exact h.paid q op' hq x hmem hset

theorem Paid.boot (d : Db) (clock : Timestamp) (early : List Jwt) :
    Paid S (World.boot d clock) (.start d early) fun _ => .idle := by
  refine ⟨fun _ hz => absurd hz List.not_mem_nil, fun q jwt code u f hq => ?_,
    fun q op' hq => ?_, fun _ hy => absurd hy List.not_mem_nil,
    fun _ hy => absurd hy List.not_mem_nil⟩
  · cases hq
  · cases hq

/-- **The invariants hold in every run.** -/
theorem paid_run {d : Db} {clock : Timestamp} {early : List Jwt} {c : Conf} {o : History}
    (hsha : Function.Injective S.sha256)
    (h : (system S).Reach (honest S) (Config.init (World.boot d clock)) (.start d early) c o) :
    ∃ gs, Booked c.world gs ∧
      (Tracked S c.world o gs ∧ Spent S c.world o gs ∧ Paid S c.world o gs) ∧
      System.Tracks (scribe S) .idle (Closed S) Broken c gs :=
  noted_run (fun w o gs => Tracked S w o gs ∧ Spent S w o gs ∧ Paid S w o gs)
    (fun {_ _ _ _ op} _ hI _ ha => ⟨hI.1.opened op, hI.2.1.opened op, hI.2.2.opened ha⟩)
    (fun hB hI hop ha _ hg hx => ⟨hI.1.step hB hop ha hg hx, hI.2.1.step hB hI.1 hop ha hx,
      hI.2.2.step hsha hB hI.1 hop ha hx⟩)
    (fun _ hI hx => ⟨hI.1.of_creds (ambient_creds hx), hI.2.1.of_creds (ambient_creds hx),
      hI.2.2.of_clock (ambient_frame hx).2.2.2.2.2.1⟩)
    (fun {_ _ _ e _} alive _ hI hx => by
      cases hx
      exact ⟨(hI.1.settled alive).of_creds fun _ => rfl,
        (hI.2.1.settled alive).of_creds fun _ => rfl, (hI.2.2.settled alive).of_clock le_rfl⟩)
    ⟨Tracked.boot d clock early, Spent.boot d clock early, Paid.boot d clock early⟩ h

/-- What a login has presented: the password, or a pre-auth token that was
handed out to a login with this password. -/
def Presented (o : History) (password : String) : Op → Prop
  | .login _ password' _ => password' = password
  | .verify2FA (.signed jwt) _ => ∃ z ∈ o.challenges, z.token = jwt ∧ z.password = password
  | _ => False

/-- **A TEMPORARY PASSWORD OPENS ONE SESSION.**  In every run in which the
hashes of different resets are distinct and pre-auth tokens are not forged,
with `compare` exact and SHA-256 injective: every reset gives rise to at most
one session of a login and at most one recovery, and these belong to calls that
have presented its temporary password, or a pre-auth token that was handed out
for it. -/
theorem temporary_password_single_use (S : Settings)
    (hcompare : ∀ data password salt, S.compare data (S.hash password salt) = true →
      data = password) (hsha : Function.Injective S.sha256) (d : Db) (clock : Timestamp)
    (early : List Jwt) (c : Conf) (o : History)
    (h : (system S).Reach (honest S) (Config.init (World.boot d clock)) (.start d early) c o) :
    ∀ x ∈ o.credentials, ∀ password, x.password = some password →
      (o.openings.filter fun y => decide (y.user = x.user ∧ y.hash = some x.hash)).length ≤ 1 ∧
      (o.recoveries.filter fun y => decide (y.user = x.user ∧ y.hash = some x.hash)).length ≤ 1 ∧
      (∀ y ∈ o.openings, y.user = x.user → y.hash = some x.hash → Presented o password y.op) ∧
      ∀ y ∈ o.recoveries, y.user = x.user → y.hash = some x.hash →
        ∃ newPassword cookie, y.op = .updatePassword x.user password newPassword cookie true := by
  obtain ⟨gs, -, ⟨htracked, hspent, hpaid⟩, -⟩ := paid_run hsha h
  intro x hx password hpassword
  obtain ⟨⟨salt, hsalt⟩, hearly⟩ := htracked.passwords x hx password hpassword
  have hexact : ∀ data, S.compare data x.hash = true → data = password := by
    intro data hdata
    rw [hsalt] at hdata
    exact hcompare data password salt hdata
  refine ⟨?_, ?_, fun y hy hu hh => ?_, fun y hy hu hh => ?_⟩
  · refine length_filter_le_one hspent.tickets.once (k := (x.user, x.hash)) fun y _ hy => ?_
    obtain ⟨hu, hh⟩ := of_decide_eq_true hy
    rw [Opening.key, hu, hh]
    rfl
  · have hnodup : (o.recoveries.filterMap fun y => some (y.user, y.hash)).Nodup := by
      rw [← Function.comp_def some, List.filterMap_eq_map]
      exact hspent.once
    refine length_filter_le_one hnodup (k := (x.user, some x.hash)) fun y _ hy => ?_
    obtain ⟨hu, hh⟩ := of_decide_eq_true hy
    rw [hu, hh]
  · have hpays := hpaid.openings y hy x.hash hh
    rw [hu] at hpays
    cases hop : y.op with
    | login identifier data context =>
        rw [hop] at hpays
        exact hexact data hpays
    | verify2FA bearer code =>
        rw [hop] at hpays
        cases bearer with
        | signed jwt =>
            obtain ⟨hpayload, hjwt | ⟨z, hz, htoken, hmatch⟩⟩ := hpays
            · exact absurd hpayload (hearly jwt hjwt)
            · exact ⟨z, hz, htoken, hexact z.password hmatch⟩
        | _ => exact hpays.elim
    | _ =>
        rw [hop] at hpays
        exact hpays.elim
  · obtain ⟨oldPassword, newPassword, cookie, hash, hop, hhash, hmatch⟩ := hpaid.recoveries y hy
    rw [hh] at hhash
    obtain rfl := Option.some.inj hhash
    refine ⟨newPassword, cookie, ?_⟩
    rw [hop, hu, hexact oldPassword hmatch]

end Paid

/-! ## §6. Challenges. -/

/-- The ordinary challenge a session rests on. -/
def Opening.token (y : Opening) : Option Jwt := (challengeOf y.op).map Prod.snd

/-- The ordinary challenge whose second factor a call has passed, and not opened
a session with. -/
def passed (n : Notes) : Option Jwt :=
  if n.cleared && !n.issued then n.op.bind fun op => (challengeOf op).map Prod.snd else none

section Challenges

variable {S : Settings} {p : Pid} {op : Op} {e : Env} {w w' : World} {o : History}
  {gs : Pid → Notes}

theorem passed_eq_some {n : Notes} (hop : n.op = some op) {token : Jwt} :
    passed n = some token ↔ n.cleared = true ∧ n.issued = false ∧
      (challengeOf op).map Prod.snd = some token := by
  unfold passed
  rw [hop]
  cases n.cleared <;> cases n.issued <;> simp

theorem cleared_next (n : Notes) {β : Type} (a : Act β) (b : β) :
    (n.next a b).cleared = (n.cleared || passes a) := by
  have hsame : ∀ n' : Notes, n'.cleared = n.cleared → n'.cleared = (n.cleared || false) := by
    intro n' h
    rw [h, Bool.or_false]
  cases a with
  | query s =>
      cases b with
      | error x => exact hsame _ rfl
      | ok r =>
          cases s with
          | updateUser id cond set =>
              refine hsame (if r.isSome then n.update id set else n) ?_
              split <;> rfl
          | _ => exact hsame _ rfl
  | begin =>
      cases b with
      | error x => exact hsame _ rfl
      | ok r => exact hsame _ rfl
  | clearTwoFactorFailures id => exact (Bool.or_true _).symm
  | _ => exact hsame _ rfl

/-- A step that accepts a code stores no session. -/
theorem newOpenings_of_passes (o : History) (p : Pid) (op : Op) {β : Type} {a : Act β} (b : β)
    (h : passes a = true) : o.newOpenings p op a b = [] := by
  cases a with
  | clearTwoFactorFailures id => rfl
  | _ => cases h

/-- The ordinary challenge of a session has its second factor passed. -/
theorem passed_of_issues {n : Notes} {v : NewRefreshToken} {token : Jwt} (hop : n.op = some op)
    (hI : Issues S n v op) (htoken : (challengeOf op).map Prod.snd = some token) :
    passed n = some token := by
  refine (passed_eq_some hop).mpr ?_
  cases op with
  | verify2FA bearer code =>
      obtain ⟨hissued, hcleared, -⟩ := hI
      exact ⟨hcleared, hissued, htoken⟩
  | _ => cases htoken

/-- **An ordinary challenge whose second factor is passed once is a ticket.** -/
def Answered (o : History) (gs : Pid → Notes) : Prop :=
  Tickets o.accepted (o.openings.filterMap Opening.token) fun p => passed (gs p)

theorem Answered.step {β : Type} {a : Act β} {b : β} (h : Answered o gs)
    (hop : (gs p).op = some op) (ha : (gs p).allow S op a) (hg : answeredOnce o op a = true) :
    Answered (o.step w p op a b) (Function.update gs p ((gs p).next a b)) := by
  have hother : ∀ q, q ≠ p →
      passed (Function.update gs p ((gs p).next a b) q) = passed (gs q) := by
    intro q hq
    rw [Function.update_of_ne hq]
  have hop' : ((gs p).next a b).op = some op := by
    rw [(gs p).next_op]
    exact hop
  show Tickets ((if passes a then ((challengeOf op).map Prod.snd).toList else []) ++ o.accepted)
    ((o.newOpenings p op a b ++ o.openings).filterMap Opening.token)
    fun q => passed (Function.update gs p ((gs p).next a b) q)
  cases hpasses : passes a with
  | true =>
      rw [if_pos rfl, newOpenings_of_passes o p op b hpasses]
      cases htoken : (challengeOf op).map Prod.snd with
      | none =>
          refine h.keep fun q k hq => ?_
          by_cases hqp : q = p
          · rw [hqp, Function.update_self, passed_eq_some hop', htoken] at hq
            cases hq.2.2
          · rw [hother q hqp] at hq
            exact hq
      | some token =>
          have hfresh : token ∉ o.accepted := by
            obtain ⟨x, hx, rfl⟩ := Option.map_eq_some_iff.mp htoken
            simpa [answeredOnce, hpasses, hx] using hg
          cases hissued : ((gs p).next a b).issued with
          | false =>
              refine h.take hfresh ?_ hother
              show passed (Function.update gs p ((gs p).next a b) p) = some token
              rw [Function.update_self, passed_eq_some hop', cleared_next, hpasses, Bool.or_true]
              exact ⟨rfl, hissued, htoken⟩
          | true =>
              refine (h.widen (List.subset_cons_self _ _)).keep fun q k hq => ?_
              by_cases hqp : q = p
              · rw [hqp, Function.update_self, passed_eq_some hop', hissued] at hq
                cases hq.2.1
              · rw [hother q hqp] at hq
                exact hq
  | false =>
      have hkeep : ∀ q k, passed (Function.update gs p ((gs p).next a b) q) = some k →
          passed (gs q) = some k := by
        intro q k hq
        by_cases hqp : q = p
        · rw [hqp, Function.update_self, passed_eq_some hop', cleared_next, hpasses,
            Bool.or_false] at hq
          rw [hqp, passed_eq_some hop]
          exact ⟨hq.1, (gs p).next_issued a b hq.2.1, hq.2.2⟩
        · rw [hother q hqp] at hq
          exact hq
      rw [if_neg Bool.false_ne_true, List.nil_append]
      rcases newOpenings_cases (o := o) (p := p) (b := b) ha with
        hnil | ⟨v, row, hI, -, -, hissued, -, hnew⟩
      · rw [hnil]
        exact h.keep hkeep
      · rw [hnew, List.singleton_append]
        cases htoken : Opening.token ⟨op, v.userId,
            if row.mustChangePassword then row.tempPasswordHash else none⟩ with
        | none =>
            rw [List.filterMap_cons_none htoken]
            exact h.keep hkeep
        | some token =>
            have hspent : passed (Function.update gs p ((gs p).next a b) p) = none := by
              rw [Function.update_self]
              unfold passed
              rw [hissued]
              simp
            rw [List.filterMap_cons_some htoken]
            exact h.spend (passed_of_issues hop hI htoken) hspent hother

theorem Answered.opened (h : Answered o gs) (op : Op) :
    Answered (o.opened p) (Function.update gs p (.fresh op)) := by
  refine h.keep fun q k hq => ?_
  by_cases hqp : q = p
  · rw [hqp, Function.update_self] at hq
    cases hq
  · rw [Function.update_of_ne hqp] at hq
    exact hq

theorem Answered.settled (h : Answered o gs) (alive : Pid → Bool) :
    Answered o fun p => if alive p then (gs p).settle else .idle := by
  refine h.keep fun q k hq => ?_
  have hq : passed (if alive q then (gs q).settle else Notes.idle) = some k := hq
  split at hq
  next => exact hq
  next => cases hq

theorem answered_run {d : Db} {clock : Timestamp} {early : List Jwt} {c : Conf} {o : History}
    (h : (system S).Reach (answeredOnceEach S) (Config.init (World.boot d clock))
      (.start d early) c o) :
    ∃ gs, Booked c.world gs ∧
      (Tracked S c.world o gs ∧ Spent S c.world o gs ∧ Answered o gs) ∧
      System.Tracks (scribe S) .idle (Closed S) Broken c gs :=
  noted_run (fun w o gs => Tracked S w o gs ∧ Spent S w o gs ∧ Answered o gs)
    (fun {_ _ _ _ op} _ hI _ _ => ⟨hI.1.opened op, hI.2.1.opened op, hI.2.2.opened op⟩)
    (fun hB hI hop ha _ hg hx => by
      obtain ⟨hfresh, hanswered⟩ := Bool.and_eq_true_iff.mp hg
      exact ⟨hI.1.step hB hop ha hfresh hx, hI.2.1.step hB hI.1 hop ha hx,
        hI.2.2.step hop ha hanswered⟩)
    (fun _ hI hx => ⟨hI.1.of_creds (ambient_creds hx), hI.2.1.of_creds (ambient_creds hx), hI.2.2⟩)
    (fun {_ _ _ e _} alive _ hI hx => by
      cases hx
      exact ⟨(hI.1.settled alive).of_creds fun _ => rfl,
        (hI.2.1.settled alive).of_creds fun _ => rfl, hI.2.2.settled alive⟩)
    ⟨Tracked.boot d clock early, Spent.boot d clock early, Tickets.empty⟩ h

/-- **A CHALLENGE OPENS ONE SESSION.**  In every run in which no ordinary
challenge has its second factor passed twice (and the hashes of different resets
are distinct, SHA-256 being injective): every pre-auth token, ordinary or
temporary, leads to at most one session. -/
theorem challenge_single_use (S : Settings) (hsha : Function.Injective S.sha256) (d : Db)
    (clock : Timestamp) (early : List Jwt) (c : Conf) (o : History)
    (h : (system S).Reach (answeredOnceEach S) (Config.init (World.boot d clock))
      (.start d early) c o) :
    ∀ token u fingerprint, token.payload = .preAuth u fingerprint →
      (o.openings.filter fun y => decide (bearerOf y.op = some token)).length ≤ 1 := by
  obtain ⟨gs, -, ⟨-, hspent, hanswered⟩, -⟩ := answered_run h
  rintro ⟨payload, exp⟩ u fingerprint rfl
  cases fingerprint with
  | none =>
      -- an ordinary challenge is a ticket itself
      refine length_filter_le_one hanswered.once (k := ⟨.preAuth u none, exp⟩) fun y _ hy => ?_
      have hbearer := of_decide_eq_true hy
      unfold Opening.token
      cases hop : y.op with
      | verify2FA bearer code =>
          rw [hop] at hbearer
          cases bearer with
          | signed jwt =>
              obtain rfl := Option.some.inj hbearer
              rfl
          | _ => cases hbearer
      | _ =>
          rw [hop] at hbearer
          cases hbearer
  | some f =>
      -- a temporary one stands for the credential it was handed out for
      cases hys : o.openings.filter fun y =>
          decide (bearerOf y.op = some ⟨.preAuth u (some f), exp⟩) with
      | nil => exact Nat.zero_le _
      | cons y ys =>
          have hy : y ∈ o.openings.filter fun y =>
              decide (bearerOf y.op = some ⟨.preAuth u (some f), exp⟩) := by
            rw [hys]
            exact List.mem_cons_self
          obtain ⟨hmem, hbearer⟩ := List.mem_filter.mp hy
          obtain ⟨-, hash, -, hf⟩ := hspent.tokens y hmem u f exp (of_decide_eq_true hbearer)
          rw [← hys]
          refine length_filter_le_one hspent.tickets.once (k := (u, hash)) fun y' hmem' hy' => ?_
          obtain ⟨hu, hash', hhash', hf'⟩ :=
            hspent.tokens y' hmem' u f exp (of_decide_eq_true hy')
          rw [Opening.key, hu, hhash', hsha (hf'.trans hf.symm)]
          rfl

end Challenges

/-! ## §7. Concrete runs. -/

open Recovery (tempPassword tempSalt tempHash sampleForced enrolledDb ordinaryChallenge resets
  signsIn answers)

theorem sampleForced_sha256 : Function.Injective sampleForced.sha256 :=
  (Equiv.injective _).comp sampleSha256_injective

/-- Three passwords, each with a salt and its hash. -/
def bcryptTable : List (String × String × String) :=
  [("old-password", "$2b$10$abcdefghijklmnopqrstuu", oldHash),
    ("new-password", "$2b$10$zyxwvutsrqponmlkjihgfe", newHash), (tempPassword, tempSalt, tempHash)]

/-- bcrypt on these; any other password has a hash of its own. -/
def sampleExact : Settings :=
  { sampleForced with
    compare := fun data encrypted =>
      bcryptTable.any (fun x => x.1 == data && x.2.2 == encrypted) || encrypted == "!" ++ data
    hash := fun data salt =>
      match bcryptTable.find? fun x => x.1 == data && x.2.1 == salt with
      | some x => x.2.2
      | none => "!" ++ data }

theorem sampleExact_compare (data password salt : String)
    (h : sampleExact.compare data (sampleExact.hash password salt) = true) : data = password := by
  have hmark : ∀ x ∈ bcryptTable, x.2.2.toList.head? ≠ some '!' := by decide
  have hkeys : ∀ x ∈ bcryptTable, ∀ y ∈ bcryptTable, x.2.2 = y.2.2 → x.1 = y.1 := by decide
  have hne : ∀ x ∈ bcryptTable, ∀ text : String, x.2.2 ≠ "!" ++ text := by
    intro x hx text heq
    apply hmark x hx
    rw [heq, String.toList_append]
    rfl
  have h : (bcryptTable.any (fun x => x.1 == data && x.2.2 == sampleExact.hash password salt) ||
      sampleExact.hash password salt == "!" ++ data) = true := h
  have hhash : sampleExact.hash password salt =
      match bcryptTable.find? fun x => x.1 == password && x.2.1 == salt with
      | some x => x.2.2
      | none => "!" ++ password := rfl
  rw [hhash] at h
  cases hfind : bcryptTable.find? fun x => x.1 == password && x.2.1 == salt with
  | some x =>
      have hx : x ∈ bcryptTable := List.mem_of_find?_eq_some hfind
      have hpassword : x.1 = password := by
        have hcond := List.find?_some hfind
        simp only [Bool.and_eq_true, beq_iff_eq] at hcond
        exact hcond.1
      simp only [hfind, Bool.or_eq_true, List.any_eq_true, Bool.and_eq_true, beq_iff_eq] at h
      rcases h with ⟨y, hy, hdata, hsame⟩ | hno
      · rw [← hdata, ← hpassword]
        exact hkeys y hy x hx hsame
      · exact absurd hno (hne x hx data)
  | none =>
      simp only [hfind, Bool.or_eq_true, List.any_eq_true, Bool.and_eq_true, beq_iff_eq] at h
      rcases h with ⟨y, hy, -, hno⟩ | hsame
      · exact absurd hno (hne y hy password)
      · exact ((String.append_right_inj "!").mp hsame).symm

/-- A reset; two logins race with the temporary password and the first wins; its
session completes the recovery. -/
def oneSession : List (Event Env Op) :=
  resets 1 ++ ([.invoke 2 (.login "steve" tempPassword none), .step 2 {}, .step 2 {},
      .invoke 3 (.login "steve" tempPassword none), .step 3 {}, .step 3 {}, .step 2 {}, .step 3 {},
      .step 2 {}, .step 3 {}, .step 2 { text := jti₁ }, .step 2 {}, .step 2 {}, .step 2 {},
      .step 2 { uuid := 1 }] : List (Event Env Op))
    ++ ([.invoke 4 (.updatePassword 3 tempPassword "new-password"
        (some (.signed ⟨.refresh 3 jti₁ true, 1700604800⟩)) true), .step 4 {},
      .step 4 { text := "$2b$10$zyxwvutsrqponmlkjihgfe" }, .step 4 {}, .step 4 {}, .step 4 {},
      .step 4 {}, .step 4 {}] : List (Event Env Op))

theorem oneSession_single_use :
    ∃ c o, ∃ x ∈ o.credentials, (system sampleExact).Reach (honest sampleExact)
        (Config.init sampleWorld) (.start sampleDb []) c o ∧
      x.password = some tempPassword ∧ (c.result 2).isSome = true ∧
      (c.failure 3).isSome = true ∧ o.recoveries.length = 1 ∧
      (o.openings.filter fun y => decide (y.user = x.user ∧ y.hash = some x.hash)).length ≤ 1 ∧
      ∀ y ∈ o.openings, y.user = x.user → y.hash = some x.hash →
        Presented o tempPassword y.op := by
  obtain ⟨c, o, hreach, ht⟩ := System.Reach.of_replay (S := system sampleExact)
    (V := honest sampleExact) sampleWorld (.start sampleDb []) oneSession
    (fun c o => (c.result 2).isSome && (c.failure 3).isSome &&
      decide (o.recoveries.length = 1) &&
      o.credentials.any fun x => decide (x.password = some tempPassword)) (by decide +kernel)
  simp only [Bool.and_eq_true, decide_eq_true_eq, List.any_eq_true] at ht
  obtain ⟨⟨⟨hone, htwo⟩, hrecovered⟩, x, hx, hpassword⟩ := ht
  obtain ⟨hcount, -, hpresented, -⟩ := temporary_password_single_use sampleExact
    sampleExact_compare sampleForced_sha256 sampleDb _ [] c o hreach x hx tempPassword hpassword
  exact ⟨c, o, x, hx, hreach, hpassword, hone, htwo, hrecovered, hcount, hpresented⟩

/-- A challenge is answered, and presented again with a wrong code. -/
def wrongCodeAfterwards : List (Event Env Op) :=
  signsIn 1 "old-password" ++ answers 2 jti₁ ++ ([.step 2 { uuid := 1 }] : List (Event Env Op))
    ++ ([.invoke 3 (.verify2FA (.signed ordinaryChallenge) "000000"), .step 3 {}, .step 3 {},
      .step 3 {}, .step 3 {}, .step 3 {}, .step 3 {}] : List (Event Env Op))

theorem wrongCodeAfterwards_one :
    ∃ c o, (system sampleForced).Reach (answeredOnceEach sampleForced)
        (Config.init (World.boot enrolledDb 1700000000000)) (.start enrolledDb []) c o ∧
      (c.result 2).isSome = true ∧ (c.failure 3).isSome = true ∧ o.openings.length = 1 ∧
      (o.openings.filter fun y => decide (bearerOf y.op = some ordinaryChallenge)).length ≤ 1 := by
  obtain ⟨c, o, hreach, ht⟩ := System.Reach.of_replay (S := system sampleForced)
    (V := answeredOnceEach sampleForced) (World.boot enrolledDb 1700000000000)
    (.start enrolledDb []) wrongCodeAfterwards
    (fun c o => (c.result 2).isSome && (c.failure 3).isSome && decide (o.openings.length = 1))
    (by decide +kernel)
  simp only [Bool.and_eq_true, decide_eq_true_eq] at ht
  exact ⟨c, o, hreach, ht.1.1, ht.1.2, ht.2, challenge_single_use sampleForced sampleForced_sha256
    enrolledDb _ [] c o hreach ordinaryChallenge 3 none rfl⟩

/-- One ordinary challenge is answered twice. -/
def answeredTwice : List (Event Env Op) :=
  signsIn 1 "old-password" ++ answers 2 jti₁ ++ [.step 2 { uuid := 1 }]
    ++ answers 3 jti₂ ++ [.step 3 { uuid := 2 }]

/-- It opens two sessions. -/
theorem challenge_used_twice :
    ∃ c o, (system sampleForced).Reach (distinctHashes sampleForced)
        (Config.init (World.boot enrolledDb 1700000000000)) (.start enrolledDb []) c o ∧
      (∃ z ∈ o.challenges, z.token = ordinaryChallenge) ∧
      (o.openings.filter fun y => decide (bearerOf y.op = some ordinaryChallenge)).length = 2 := by
  obtain ⟨c, o, hreach, ht⟩ := System.Reach.of_replay (S := system sampleForced)
    (V := distinctHashes sampleForced) (World.boot enrolledDb 1700000000000)
    (.start enrolledDb []) answeredTwice
    (fun _ o => (o.challenges.any fun z => decide (z.token = ordinaryChallenge)) &&
      decide ((o.openings.filter fun y =>
        decide (bearerOf y.op = some ordinaryChallenge)).length = 2)) (by decide +kernel)
  rw [Bool.and_eq_true, decide_eq_true_eq, List.any_eq_true] at ht
  obtain ⟨⟨z, hz, htoken⟩, hcount⟩ := ht
  exact ⟨c, o, hreach, ⟨z, hz, of_decide_eq_true htoken⟩, hcount⟩

end Temporary

end MinePanel.Accounts
