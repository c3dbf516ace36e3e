/-
  MinePanel.Auth.Recovery
  ───────────────────────
  **FORCED RECOVERY.**

  A commit of `resetPassword` puts its user into forced recovery, the commit of
  an `updatePassword` with temporary credentials ends it.  The column
  `mustChangePassword` always says which (`Kept.flag`), and every entry point
  compares it with the kind of the token it is given: so ordinary tokens are
  worth nothing during a recovery and temporary ones nothing outside
  (`recovery_isolates`).

  The comparison knows one moment only.  An ordinary two-factor challenge from
  before a reset is good again once the recovery is complete, and a call that
  has read the row just before the reset opens its session after it; without
  these two a challenge does not survive a reset (`challenge_dies_with_reset`).
-/
import MinePanel.Accounts.Credentials

namespace MinePanel.Accounts

open MinePanel.Db MinePanel.Lib Prog

namespace Recovery

/-! ## §1. The history. -/

/-- The state of a user at some moment. -/
structure Mark where
  /-- The user is in forced recovery. -/
  recovery : Bool
  /-- The resets of the user so far. -/
  resets : Nat
  deriving Repr, DecidableEq

/-- A pre-auth token handed out by a login. -/
structure Challenge where
  token : Jwt
  /-- The resets of its user when it was signed. -/
  resets : Nat
  deriving Repr, DecidableEq

/-- A session opened for a pre-auth token. -/
structure Yield where
  token : Jwt
  /-- The resets of its user when the session was stored. -/
  resets : Nat
  deriving Repr, DecidableEq

/-- The history of resets, recoveries and sessions. -/
structure History where
  journal : Journal Mark
  recovery : UserId → Bool
  resets : UserId → Nat
  challenges : List Challenge
  yields : List Yield
  /-- The users a call has opened sessions for. -/
  sessions : Pid → List UserId
  /-- The users whose temporary credential a call has consumed. -/
  spent : Pid → List UserId
  /-- The changes of the tables by each call. -/
  ledger : Ledger

namespace History

/-- The history of a process that starts on the tables `d`. -/
def start (d : Db) : History where
  journal := .blank
  recovery := fun u => (d.users.get u).any User.mustChangePassword
  resets := fun _ => 0
  challenges := []
  yields := []
  sessions := fun _ => []
  spent := fun _ => []
  ledger := .blank

/-- The state of a user now. -/
def mark (o : History) (u : UserId) : Mark := ⟨o.recovery u, o.resets u⟩

/-- The open transaction of `p` has updated the row of `u`. -/
def updates (w : World) (p : Pid) (u : UserId) : Bool :=
  ((w.tables.pending p).getD []).any fun x => decide (x.updates = some u)

/-- A transaction of call `p` commits: a reset begins a recovery, the password
change of a forced session ends it. -/
def commit (o : History) (w : World) (p : Pid) : Op → History
  | .resetPassword u =>
      if updates w p u then
        { o with
          recovery := Function.update o.recovery u true
          resets := Function.update o.resets u (o.resets u + 1) }
      else o
  | .updatePassword u _ _ _ true =>
      if updates w p u then { o with recovery := Function.update o.recovery u false } else o
  | _ => o

/-- Call `p` stores a session. -/
def insert (o : History) (p : Pid) (op : Op) (v : NewRefreshToken) : History :=
  { o with
    sessions := Function.update o.sessions p (v.userId :: o.sessions p)
    yields :=
      match op with
      | .verify2FA (.signed jwt) _ => ⟨jwt, o.resets v.userId⟩ :: o.yields
      | _ => o.yields }

/-- What a step adds. -/
def event (o : History) (w : World) (p : Pid) (op : Op) : ∀ {β : Type}, Act β → β → History
  | _, .commit, b =>
      match b with
      | .ok _ => o.commit w p op
      | .error _ => o
  | _, .query (.insertToken v), b =>
      match b with
      | .ok _ => o.insert p op v
      | .error _ => o
  | _, .sign (.preAuth id _) _, token =>
      { o with challenges := ⟨token, o.resets id⟩ :: o.challenges }
  | _, _, _ => o

/-- A step of call `p`. -/
def step (o : History) (w : World) (p : Pid) (op : Op) {β : Type} (a : Act β) (b : β)
    (w' : World) : History :=
  { o.event w p op a b with
    journal := o.journal.step o.mark p a b
    spent :=
      match a.updated b with
      | some (id, set) =>
          if set = consumePatch then Function.update o.spent p (id :: o.spent p) else o.spent
      | none => o.spent
    ledger := o.ledger.step w p w' }

/-- A new call. -/
def opened (o : History) (p : Pid) : History :=
  { o with
    journal := o.journal.opened p
    sessions := Function.update o.sessions p []
    spent := Function.update o.spent p []
    ledger := o.ledger.opened p }

end History

/-- Every interleaving. -/
def chart : Watch Act World Env Op History where
  onInvoke := fun o _ p _ => o.opened p
  onStep := fun o w p op _ a b w' => o.step w p op a b w'

/-! ## §2. The flag follows the commits. -/

section Steps

variable {S : Settings} {p : Pid} {op : Op} {e : Env} {w w' : World} {o : History}
  {gs : Pid → Notes}

theorem updates_iff (h : Booked w gs) {u : UserId} :
    History.updates w p u = true ↔ ∃ set, (u, set) ∈ (gs p).staged := by
  rw [h.staged p]
  simp only [History.updates, List.any_eq_true, decide_eq_true_eq, List.mem_filterMap]
  constructor
  · rintro ⟨x, hx, hu⟩
    cases x with
    | updateUser id set now =>
        obtain rfl := Option.some.inj hu
        exact ⟨set, _, hx, rfl⟩
    | _ => cases hu
  · rintro ⟨set, x, hx, hp⟩
    refine ⟨x, hx, ?_⟩
    cases x with
    | updateUser id set' now =>
        obtain ⟨rfl, -⟩ := Prod.mk.inj (Option.some.inj hp)
        rfl
    | _ => cases hp

/-- Only a commit moves the flags and the counts. -/
theorem event_marks {β : Type} {a : Act β} {b : β} (ha : a.committed b = false) :
    (o.event w p op a b).recovery = o.recovery ∧ (o.event w p op a b).resets = o.resets := by
  cases a with
  | commit =>
      cases b with
      | error x => exact ⟨rfl, rfl⟩
      | ok r => cases ha
  | query s =>
      cases b with
      | error x => cases s <;> exact ⟨rfl, rfl⟩
      | ok r => cases s <;> exact ⟨rfl, rfl⟩
  | sign payload ttl => cases payload <;> exact ⟨rfl, rfl⟩
  | _ => exact ⟨rfl, rfl⟩

/-- No UPDATE outside a transaction touches the flag. -/
theorem update_keeps_flag {n : Notes} {id : UserId} {cond : User → Bool} {set : UserPatch}
    (h : Update S n op id cond set) (hout : n.inside = false) (c : Credentials) :
    (set.act c).mustChangePassword = c.mustChangePassword := by
  cases h with
  | plain hplain _ => rw [hplain.act]
  | recovery hin _ _ _ _ _ =>
      rw [hout] at hin
      cases hin
  | reset hin _ _ _ =>
      rw [hout] at hin
      cases hin
  | _ => rfl

/-- **The column follows the flag.** -/
theorem flag_step {β : Type} {a : Act β} {b : β} (h : Booked w gs)
    (hflag : ∀ u, (w.db.creds u).mustChangePassword = o.recovery u) (ha : (gs p).allow S op a)
    (hx : exec S p a e w = some (b, w')) (u : UserId) :
    (w'.db.creds u).mustChangePassword = (o.step w p op a b w').recovery u := by
  show _ = (o.event w p op a b).recovery u
  rw [h.creds_step hx]
  cases deed ha b with
  | none _ hcommits hno =>
      rw [hcommits, (event_marks hno).1]
      exact hflag u
  | @update id cond set row hwhy =>
      have hrecovery : (o.event w p op (.query (.updateUser id cond set)) (.ok (some row))).recovery
          = o.recovery := (event_marks rfl).1
      rw [hrecovery, ← hflag u, commits_update]
      split
      next => rfl
      next hout =>
        have hout : (gs p).inside = false := by simpa using hout
        by_cases hid : id = u
        · subst hid
          rw [enact_singleton_self, update_keeps_flag hwhy hout]
        · rw [enact_singleton_of_ne hid]
  | commit hstaged =>
      show (enact u (gs p).staged (w.db.creds u)).mustChangePassword = (o.commit w p op).recovery u
      -- nothing of the flag is staged, or one patch of one user
      have hplain : (∀ x ∈ (gs p).staged, x.2.IsPlain) →
          (enact u (gs p).staged (w.db.creds u)).mustChangePassword = o.recovery u := by
        intro hplain
        rw [enact_plain hplain]
        exact hflag u
      have hnil : (gs p).staged = [] →
          (enact u (gs p).staged (w.db.creds u)).mustChangePassword = o.recovery u := by
        intro hnil
        rw [hnil]
        exact hflag u
      have hone : ∀ (v : UserId) (set : UserPatch) (flag : Bool),
          set.mustChangePassword = some flag → (gs p).staged = [(v, set)] →
          (enact u (gs p).staged (w.db.creds u)).mustChangePassword =
            Function.update o.recovery v flag u := by
        intro v set flag hset hstaged
        rw [hstaged]
        by_cases hv : v = u
        · subst hv
          rw [enact_singleton_self, Function.update_self]
          simp [UserPatch.act, hset]
        · rw [enact_singleton_of_ne hv, Function.update_of_ne fun heq => hv heq.symm]
          exact hflag u
      cases op with
      | resetPassword v =>
          show _ = (if History.updates w p v then _ else o).recovery u
          rcases hstaged with hnone | ⟨password, salt, expiresAt, -, hsome⟩
          · rw [if_neg fun hu => ?_]
            · exact hnil hnone
            · obtain ⟨set, hmem⟩ := (updates_iff h).mp hu
              rw [hnone] at hmem
              exact absurd hmem List.not_mem_nil
          · rw [if_pos ((updates_iff h).mpr ⟨_, by rw [hsome]; exact List.mem_cons_self⟩)]
            exact hone v _ true rfl hsome
      | updatePassword v oldPassword newPassword cookie temporaryAuth =>
          rcases hstaged with hnone | ⟨htemp, user, temp, hash, -, -, -, -, hsome⟩
          · cases temporaryAuth with
            | false => exact hnil hnone
            | true =>
                show _ = (if History.updates w p v then _ else o).recovery u
                rw [if_neg fun hu => ?_]
                · exact hnil hnone
                · obtain ⟨set, hmem⟩ := (updates_iff h).mp hu
                  rw [hnone] at hmem
                  exact absurd hmem List.not_mem_nil
          · subst htemp
            show _ = (if History.updates w p v then _ else o).recovery u
            rw [if_pos ((updates_iff h).mpr ⟨_, by rw [hsome]; exact List.mem_cons_self⟩)]
            exact hone v _ false rfl hsome
      | _ => exact hplain hstaged

end Steps

/-! ## §3. What the calls rest on. -/

/-- Call `p` has read a row of `u` with this flag. -/
def Saw (o : History) (p : Pid) (u : UserId) (flag : Bool) : Prop :=
  ∃ r ∈ o.journal.rows p, r.1.id = u ∧ r.1.mustChangePassword = flag

/-- Call `p` has matched and consumed the temporary credential of `u`. -/
def Matched (S : Settings) (o : History) (p : Pid) (password : String) (u : UserId) : Prop :=
  u ∈ o.spent p ∧ ∃ r ∈ o.journal.rows p, r.1.id = u ∧
    ∃ t, S.compare password (tempHashAt (some r.1) t) = true

/-- What call `p` rests on when it opens a session for `v`. -/
def Grounds (S : Settings) (o : History) (p : Pid) (v : UserId) : Op → Prop
  | .login _ password _ => Saw o p v false ∨ Matched S o p password v
  | .verify2FA bearer _ => ∃ sub fingerprint exp,
      bearer = .signed ⟨.preAuth sub fingerprint, exp⟩ ∧ Saw o p sub fingerprint.isSome
  | .googleLogin _ => Saw o p v false
  | .refresh cookie => ∃ jwt claims, cookie = some (.signed jwt) ∧
      validRefreshTokenClaims jwt = some claims ∧ Saw o p claims.sub claims.temporaryAuth
  | _ => True

/-- What holds in every run. -/
structure Kept (S : Settings) (w : World) (o : History) (gs : Pid → Notes) : Prop where
  journal : o.journal.Covers gs
  flag : ∀ u, (w.db.creds u).mustChangePassword = o.recovery u
  reads : ∀ p, ∀ r ∈ o.journal.rows p, r.1.mustChangePassword = r.2.recovery
  matched : ∀ p identifier password context,
    (gs p).op = some (.login identifier password context) →
    ∀ id, (id, consumePatch) ∈ (gs p).done → Matched S o p password id
  recovered : ∀ p u oldPassword newPassword cookie temporaryAuth,
    (gs p).op = some (.updatePassword u oldPassword newPassword cookie temporaryAuth) →
    ∀ hash, (u, recoveryPatch hash) ∈ (gs p).done → Saw o p u true
  sessions : ∀ p op, (gs p).op = some op → ∀ v ∈ o.sessions p, Grounds S o p v op
  changed : ∀ p u oldPassword newPassword cookie temporaryAuth,
    (gs p).op = some (.updatePassword u oldPassword newPassword cookie temporaryAuth) →
    (o.ledger p ≠ [] ∨ (w.tables.pending p).getD [] ≠ []) → Saw o p u temporaryAuth

section Runs

variable {S : Settings} {p : Pid} {op : Op} {e : Env} {w w' : World} {o o' : History}
  {gs : Pid → Notes}

/-- `o'` has at least the rows and the consumptions of `o`. -/
def Extends (o o' : History) : Prop :=
  ∀ q, o.journal.rows q ⊆ o'.journal.rows q ∧ o.spent q ⊆ o'.spent q

theorem Saw.mono {u : UserId} {flag : Bool} (h : Saw o p u flag) (he : Extends o o') : Saw o' p u flag := by
  obtain ⟨r, hr, hrest⟩ := h
  exact ⟨r, (he p).1 hr, hrest⟩

theorem Matched.mono {password : String} {u : UserId} (h : Matched S o p password u)
    (he : Extends o o') : Matched S o' p password u := by
  obtain ⟨hspent, r, hr, hrest⟩ := h
  exact ⟨(he p).2 hspent, r, (he p).1 hr, hrest⟩

theorem Grounds.mono {v : UserId} (h : Grounds S o p v op) (he : Extends o o') :
    Grounds S o' p v op := by
  cases op with
  | login identifier password context => exact h.imp (·.mono he) (·.mono he)
  | verify2FA bearer token =>
      obtain ⟨sub, fingerprint, exp, hbearer, hsaw⟩ := h
      exact ⟨sub, fingerprint, exp, hbearer, hsaw.mono he⟩
  | googleLogin credential => exact Saw.mono h he
  | refresh cookie =>
      obtain ⟨jwt, claims, hcookie, hclaims, hsaw⟩ := h
      exact ⟨jwt, claims, hcookie, hclaims, hsaw.mono he⟩
  | _ => trivial

theorem step_extends {β : Type} (a : Act β) (b : β) : Extends o (o.step w p op a b w') := by
  intro q
  constructor
  · show o.journal.rows q ⊆ Function.update o.journal.rows p _ q
    by_cases hq : q = p
    · rw [hq, Function.update_self]
      exact List.subset_append_right _ _
    · rw [Function.update_of_ne hq]
      exact List.Subset.refl _
  · show o.spent q ⊆ (match a.updated b with
      | some (id, set) =>
          if set = consumePatch then Function.update o.spent p (id :: o.spent p) else o.spent
      | none => o.spent) q
    cases a.updated b with
    | none => exact List.Subset.refl _
    | some x =>
        show o.spent q ⊆ (if x.2 = consumePatch then
          Function.update o.spent p (x.1 :: o.spent p) else o.spent) q
        split
        next =>
          by_cases hq : q = p
          · rw [hq, Function.update_self]
            exact List.subset_cons_self _ _
          · rw [Function.update_of_ne hq]
            exact List.Subset.refl _
        next => exact List.Subset.refl _

/-- The row in the notes is one that the call has read. -/
theorem Kept.saw (h : Kept S w o gs) (hop : (gs p).op = some op) {user : User}
    (hread : (gs p).read = some user) : Saw o p user.id user.mustChangePassword := by
  have hlast := (h.journal p (by rw [hop]; rfl)).2 user hread
  obtain ⟨r, hr, hfst⟩ := Option.map_eq_some_iff.mp hlast
  exact ⟨r, List.mem_of_head? hr, by rw [hfst], by rw [hfst]⟩

/-- A session is opened for a reason. -/
theorem event_sessions {n : Notes} {β : Type} {a : Act β} {b : β} (ha : n.allow S op a) {q : Pid}
    {v : UserId} (hv : v ∈ (o.event w p op a b).sessions q) :
    v ∈ o.sessions q ∨ (q = p ∧ ∃ values : NewRefreshToken, values.userId = v ∧
      Issues S n values op) := by
  have hcommit : (o.commit w p op).sessions = o.sessions := by
    cases op with
    | resetPassword u =>
        show (if History.updates w p u then _ else o).sessions = _
        split <;> rfl
    | updatePassword u oldPassword newPassword cookie temporaryAuth =>
        cases temporaryAuth with
        | false => rfl
        | true =>
            show (if History.updates w p u then _ else o).sessions = _
            split <;> rfl
    | _ => rfl
  cases a with
  | commit =>
      cases b with
      | error x => exact Or.inl hv
      | ok r =>
          have hv : v ∈ (o.commit w p op).sessions q := hv
          rw [hcommit] at hv
          exact Or.inl hv
  | query s =>
      cases s with
      | insertToken values =>
          cases b with
          | error x => exact Or.inl hv
          | ok r =>
              have hv : v ∈ Function.update o.sessions p (values.userId :: o.sessions p) q := hv
              by_cases hq : q = p
              · rw [hq, Function.update_self] at hv
                rcases List.mem_cons.mp hv with hnew | hold
                · exact Or.inr ⟨hq, values, hnew.symm, ha⟩
                · rw [hq]
                  exact Or.inl hold
              · rw [Function.update_of_ne hq] at hv
                exact Or.inl hv
      | _ => exact Or.inl hv
  | sign payload ttl => cases payload <;> exact Or.inl hv
  | _ => exact Or.inl hv

/-- The reason of a session is in the history. -/
theorem Kept.grounds (h : Kept S w o gs) (hop : (gs p).op = some op) {values : NewRefreshToken}
    (hI : Issues S (gs p) values op) : Grounds S o p values.userId op := by
  cases op with
  | login identifier password context =>
      obtain ⟨-, user, hread, hid, -, ⟨hforced, -⟩ | ⟨-, hdone⟩⟩ := hI
      · have hsaw := h.saw hop hread
        rw [hforced, ← hid] at hsaw
        exact Or.inl hsaw
      · refine Or.inr ?_
        rw [hid]
        exact h.matched p identifier password context hop user.id
          (by rw [hdone]; exact List.mem_cons_self)
  | verify2FA bearer token =>
      obtain ⟨-, -, user, sub, fingerprint, exp, hbearer, hread, hid, -, -, hmode, -⟩ := hI
      have hsaw := h.saw hop hread
      rw [hmode, hid] at hsaw
      exact ⟨sub, fingerprint, exp, hbearer, hsaw⟩
  | googleLogin credential =>
      obtain ⟨user, hread, hid, -, hforced⟩ := hI
      have hsaw := h.saw hop hread
      rw [hforced, ← hid] at hsaw
      exact hsaw
  | refresh cookie =>
      obtain ⟨user, jwt, claims, hcookie, hclaims, hread, hid, hmode⟩ := hI
      have hsaw := h.saw hop hread
      rw [hmode, hid] at hsaw
      exact ⟨jwt, claims, hcookie, hclaims, hsaw⟩
  | _ => trivial

/-- A statement that plans no write moves neither the tables nor the open
transaction. -/
theorem query_still {α : Type} {s : Stmt α} {b : Except Exn α}
    (hx : exec S p (.query s) e w = some (b, w'))
    (hw : (plan w.clock e (w.view p) s).writes = []) :
    w'.db = w.db ∧ (w'.tables.pending p).getD [] = (w.tables.pending p).getD [] := by
  rcases exec_query hx with ⟨-, rfl⟩ | ⟨-, -, -, rfl⟩
  · exact ⟨rfl, rfl⟩
  · rw [hw]
    refine ⟨Store.put_nil_committed, ?_⟩
    cases hp : w.tables.pending p with
    | none => rw [Store.put_pending_of_none hp]
    | some ws => rw [Store.put_pending_of_some hp, List.append_nil]

/-- A password change that writes has read a row in the state its token is
for. -/
theorem Kept.gate (h : Kept S w o gs) {u : UserId} {oldPassword newPassword : String}
    {cookie : Option RawToken} {temporaryAuth : Bool} {β : Type} {a : Act β} {b : β}
    (hop : (gs p).op = some (.updatePassword u oldPassword newPassword cookie temporaryAuth))
    (ha : (gs p).allow S (.updatePassword u oldPassword newPassword cookie temporaryAuth) a)
    (hpow : a.powers ⊆ (Op.updatePassword u oldPassword newPassword cookie temporaryAuth).powers)
    (hx : exec S p a e w = some (b, w'))
    (hmoved : w'.db ≠ w.db ∨ (w'.tables.pending p).getD [] ≠ []) : Saw o p u temporaryAuth := by
  have hpending : (w.tables.pending p).getD [] ≠ [] → Saw o p u temporaryAuth :=
    fun hne => h.changed p u oldPassword newPassword cookie temporaryAuth hop (Or.inr hne)
  have hsaw : ∀ user : User, (gs p).read = some user → user.id = u →
      user.mustChangePassword = temporaryAuth → Saw o p u temporaryAuth := by
    intro user hread hid hmode
    have hsaw := h.saw hop hread
    rw [hid, hmode] at hsaw
    exact hsaw
  cases a with
  | query s =>
      by_cases hw : (plan w.clock e (w.view p) s).writes = []
      · obtain ⟨hdb, hsame⟩ := query_still hx hw
        rcases hmoved with hne | hne
        · exact absurd hdb hne
        · rw [hsame] at hne
          exact hpending hne
      · cases s with
        | updateUser id cond set =>
            have ha : Update S (gs p) (.updatePassword u oldPassword newPassword cookie
              temporaryAuth) id cond set := ha
            cases ha with
            | plain _ hno => cases hno
            | backup _ hno _ _ _ _ => cases hno
            | consume _ _ _ _ _ _ _ hno _ => exact hno.elim
            | password _ hread hid hforced => exact hsaw _ hread hid hforced
            | recovery _ _ hread hid hused _ =>
                simp only [usedTemp, Bool.and_eq_true] at hused
                exact hsaw _ hread hid hused.1.1
        | insertToken values =>
            obtain ⟨htemp, hash, hdone⟩ := ha
            subst htemp
            exact h.recovered p u oldPassword newPassword cookie true hop hash hdone
        | deleteTokens ids =>
            obtain ⟨user, hread, hid, hmode⟩ := ha
            exact hsaw user hread hid hmode
        | insertUser v => exact absurd (hpow List.mem_cons_self) (by simp [Op.powers])
        | insertPermission _ _ _ => exact absurd (hpow List.mem_cons_self) (by simp [Op.powers])
        | deletePermissions _ => exact absurd (hpow List.mem_cons_self) (by simp [Op.powers])
        | insertSetup => exact absurd (hpow List.mem_cons_self) (by simp [Op.powers])
        | completeSetup => exact absurd (hpow List.mem_cons_self) (by simp [Op.powers])
        | insertChallenge _ _ _ => exact absurd (hpow List.mem_cons_self) (by simp [Op.powers])
        | consumeChallenge _ _ _ => exact absurd (hpow List.mem_cons_self) (by simp [Op.powers])
        | selectUserForUpdate id =>
            refine absurd ?_ hw
            simp only [plan]
            split <;> rfl
        | _ => exact absurd rfl hw
  | begin =>
      rcases exec_begin hx with ⟨-, rfl⟩ | ⟨-, -, rfl⟩
      · exact hpending (hmoved.resolve_left fun hne => hne rfl)
      · have hnil : ((w.tables.begin p).pending p).getD [] = [] := by
          rw [Store.begin_pending_self]
          rfl
        exact absurd hnil (hmoved.resolve_left fun hne => hne rfl)
  | commit =>
      refine hpending fun hnil => ?_
      have hview : w.view p = w.db := by
        show ((w.tables.pending p).getD []).foldl Db.apply w.db = w.db
        rw [hnil]
        rfl
      rcases exec_commit hx with ⟨-, rfl⟩ | ⟨-, rfl⟩
      · rcases hmoved with hne | hne
        · exact hne rfl
        · have hnone : ((w.tables.rollback p).pending p).getD [] = [] := by
            rw [Store.rollback_pending_self]
            rfl
          exact hne hnone
      · rcases hmoved with hne | hne
        · exact hne hview
        · have hnone : ((w.tables.commit Db.apply p).pending p).getD [] = [] := by
            rw [Store.commit_pending_self]
            rfl
          exact hne hnone
  | rollback =>
      rw [exec_rollback hx] at hmoved
      rcases hmoved with hne | hne
      · exact absurd rfl hne
      · have hnone : ((w.tables.rollback p).pending p).getD [] = [] := by
          rw [Store.rollback_pending_self]
          rfl
        exact absurd hnone hne
  | _ =>
      have htables := exec_silent rfl hx
      rw [World.db, World.db, htables] at hmoved
      exact hpending (hmoved.resolve_left fun hne => hne rfl)

/-- The notes of a call after a step, with its operation. -/
theorem op_next {β : Type} {a : Act β} {b : β} {q : Pid} {x : Op}
    (h : (Function.update gs p ((gs p).next a b) q).op = some x) : (gs q).op = some x := by
  by_cases hq : q = p
  · subst hq
    rw [Function.update_self, (gs q).next_op] at h
    exact h
  · rw [Function.update_of_ne hq] at h
    exact h

/-- What a call has updated was there before, or is the UPDATE of this step. -/
theorem done_next {β : Type} {a : Act β} {b : β} {q : Pid} {x : UserId × UserPatch}
    (h : x ∈ (Function.update gs p ((gs p).next a b) q).done) :
    x ∈ (gs q).done ∨ (q = p ∧ a.updated b = some x) := by
  by_cases hq : q = p
  · subst hq
    rw [Function.update_self, (gs q).next_done] at h
    exact (List.mem_append.mp h).imp_right fun h => ⟨rfl, Option.mem_toList.mp h⟩
  · rw [Function.update_of_ne hq] at h
    exact Or.inl h

/-- A row of the journal is new, with the mark of now, or was there. -/
theorem step_rows {β : Type} {a : Act β} {b : β} {q : Pid} {r : User × Mark}
    (h : r ∈ (o.step w p op a b w').journal.rows q) :
    r ∈ o.journal.rows q ∨ (q = p ∧ a.row b = some r.1 ∧ r.2 = o.mark r.1.id) := by
  have h : r ∈ Function.update o.journal.rows p
      (((a.row b).map fun u => (u, o.mark u.id)).toList ++ o.journal.rows p) q := h
  by_cases hq : q = p
  · rw [hq, Function.update_self] at h
    rcases List.mem_append.mp h with hnew | hold
    · obtain ⟨user, hrow, rfl⟩ := Option.map_eq_some_iff.mp (Option.mem_toList.mp hnew)
      exact Or.inr ⟨hq, hrow, rfl⟩
    · rw [hq]
      exact Or.inl hold
  · rw [Function.update_of_ne hq] at h
    exact Or.inl h

theorem Kept.step {β : Type} {a : Act β} {b : β} (hB : Booked w gs) (h : Kept S w o gs)
    (hop : (gs p).op = some op) (ha : (gs p).allow S op a) (hpow : a.powers ⊆ op.powers)
    (hx : exec S p a e w = some (b, w')) :
    Kept S w' (o.step w p op a b w') (Function.update gs p ((gs p).next a b)) := by
  have hext : Extends o (o.step w p op a b w') := step_extends a b
  refine ⟨h.journal.step o.mark a b, flag_step hB h.flag ha hx, fun q r hr => ?_,
    fun q identifier password context hnext id hdone => ?_,
    fun q u oldPassword newPassword cookie temporaryAuth hnext hash hdone => ?_,
    fun q op' hnext v hv => ?_,
    fun q u oldPassword newPassword cookie temporaryAuth hnext hmoves => ?_⟩
  · -- a row that is read now shows the flag of now
    rcases step_rows hr with hold | ⟨-, hrow, hmark⟩
    · exact h.reads q r hold
    · rw [hmark]
      show (credentials r.1).mustChangePassword = o.recovery r.1.id
      rw [hB.read ha hx hrow]
      exact h.flag r.1.id
  · have hq := op_next hnext
    rcases done_next hdone with hold | ⟨rfl, hu⟩
    · exact (h.matched q identifier password context hq id hold).mono hext
    · rw [hq] at hop
      obtain rfl := Option.some.inj hop
      obtain ⟨cond, hwhy⟩ := update_of_updated ha hu
      obtain ⟨user, hash, now, -, hread, rfl, -, -, -, -, -, -, ⟨-, t, -, hcompare⟩, -⟩ :=
        hwhy.of_consume
      obtain ⟨r, hr, hfst⟩ := Option.map_eq_some_iff.mp
        ((h.journal q (by rw [hq]; rfl)).2 user hread)
      refine ⟨?_, r, (hext q).1 (List.mem_of_head? hr), by rw [hfst], t, by rw [hfst]; exact hcompare⟩
      show user.id ∈ (match a.updated b with
        | some (id, set) =>
            if set = consumePatch then Function.update o.spent q (id :: o.spent q) else o.spent
        | none => o.spent) q
      rw [hu]
      show user.id ∈ (if consumePatch = consumePatch then
        Function.update o.spent q (user.id :: o.spent q) else o.spent) q
      rw [if_pos rfl, Function.update_self]
      exact List.mem_cons_self
  · have hq := op_next hnext
    rcases done_next hdone with hold | ⟨rfl, hu⟩
    · exact (h.recovered q u oldPassword newPassword cookie temporaryAuth hq hash hold).mono hext
    · rw [hq] at hop
      obtain rfl := Option.some.inj hop
      obtain ⟨cond, hwhy⟩ := update_of_updated ha hu
      obtain ⟨-, -, -, user, temp, -, -, -, -, hread, hid, hused, -⟩ := hwhy.of_recovery
      have hforced : user.mustChangePassword = true := by
        simp only [usedTemp, Bool.and_eq_true] at hused
        exact hused.1.1
      have hsaw := h.saw hq hread
      rw [hid, hforced] at hsaw
      exact hsaw.mono hext
  · have hq := op_next hnext
    rcases event_sessions ha hv with hold | ⟨rfl, values, rfl, hI⟩
    · exact (h.sessions q op' hq v hold).mono hext
    · rw [hq] at hop
      obtain rfl := Option.some.inj hop
      exact (h.grounds hq hI).mono hext
  · have hq := op_next hnext
    have hmoved : o.ledger.step w p w' q ≠ [] ∨ (w'.tables.pending q).getD [] ≠ [] := hmoves
    refine Saw.mono ?_ hext
    by_cases hqp : q = p
    · subst hqp
      rw [hq] at hop
      obtain rfl := Option.some.inj hop
      by_cases hdb : w'.db = w.db
      · rw [Ledger.step_of_eq hdb] at hmoved
        rcases hmoved with hold | hpending
        · exact h.changed q u oldPassword newPassword cookie temporaryAuth hq (Or.inl hold)
        · exact h.gate hq ha hpow hx (Or.inr hpending)
      · exact h.gate hq ha hpow hx (Or.inl hdb)
    · rw [Ledger.step_of_ne hqp, (exec_step hx).pending_of_ne hqp] at hmoved
      exact h.changed q u oldPassword newPassword cookie temporaryAuth hq hmoved

theorem Kept.opened (h : Kept S w o gs) (hB : Booked w gs) (hp : gs p = .idle) (op : Op) :
    Kept S w (o.opened p) (Function.update gs p (.fresh op)) := by
  -- the history of every other call is as before
  have hkeep : ∀ q, q ≠ p → (o.opened p).journal.rows q = o.journal.rows q ∧
      (o.opened p).spent q = o.spent q ∧ (o.opened p).sessions q = o.sessions q ∧
      (o.opened p).ledger q = o.ledger q := by
    intro q hq
    exact ⟨Function.update_of_ne hq _ _, Function.update_of_ne hq _ _,
      Function.update_of_ne hq _ _, Function.update_of_ne hq _ _⟩
  have hsaw : ∀ {q u flag}, q ≠ p → Saw o q u flag → Saw (o.opened p) q u flag := by
    rintro q u flag hq ⟨r, hr, hrest⟩
    exact ⟨r, by rw [(hkeep q hq).1]; exact hr, hrest⟩
  have hmatched : ∀ {q password u}, q ≠ p → Matched S o q password u →
      Matched S (o.opened p) q password u := by
    rintro q password u hq ⟨hspent, r, hr, hrest⟩
    exact ⟨by rw [(hkeep q hq).2.1]; exact hspent, r, by rw [(hkeep q hq).1]; exact hr, hrest⟩
  refine ⟨h.journal.opened op, h.flag, fun q r hr => ?_,
    fun q identifier password context hq id hdone => ?_,
    fun q u oldPassword newPassword cookie temporaryAuth hq hash hdone => ?_,
    fun q op' hq v hv => ?_,
    fun q u oldPassword newPassword cookie temporaryAuth hq hmoved => ?_⟩ <;>
    by_cases hqp : q = p
  · rw [hqp] at hr
    have hr : r ∈ Function.update o.journal.rows p [] p := hr
    rw [Function.update_self] at hr
    exact absurd hr List.not_mem_nil
  · rw [(hkeep q hqp).1] at hr
    exact h.reads q r hr
  · rw [hqp, Function.update_self] at hdone
    exact absurd hdone List.not_mem_nil
  · rw [Function.update_of_ne hqp] at hq hdone
    exact hmatched hqp (h.matched q identifier password context hq id hdone)
  · rw [hqp, Function.update_self] at hdone
    exact absurd hdone List.not_mem_nil
  · rw [Function.update_of_ne hqp] at hq hdone
    exact hsaw hqp (h.recovered q u oldPassword newPassword cookie temporaryAuth hq hash hdone)
  · rw [hqp] at hv
    have hv : v ∈ Function.update o.sessions p [] p := hv
    rw [Function.update_self] at hv
    exact absurd hv List.not_mem_nil
  · rw [Function.update_of_ne hqp] at hq
    rw [(hkeep q hqp).2.2.1] at hv
    have hgrounds := h.sessions q op' hq v hv
    cases op' with
    | login identifier password context =>
        exact hgrounds.imp (fun h => hsaw hqp h) fun h => hmatched hqp h
    | verify2FA bearer token =>
        obtain ⟨sub, fingerprint, exp, hbearer, hg⟩ := hgrounds
        exact ⟨sub, fingerprint, exp, hbearer, hsaw hqp hg⟩
    | googleLogin credential => exact hsaw hqp hgrounds
    | refresh cookie =>
        obtain ⟨jwt, claims, hcookie, hclaims, hg⟩ := hgrounds
        exact ⟨jwt, claims, hcookie, hclaims, hsaw hqp hg⟩
    | _ => trivial
  · -- a new call has no transaction
    have hout := hB.inside p
    rw [hp] at hout
    have hout : (w.tables.pending p).isSome = false := hout.symm
    have hnone : w.tables.pending p = none := by simpa using hout
    rw [hqp, hnone] at hmoved
    have hledger : (o.opened p).ledger p = [] := Function.update_self _ _ _
    rw [hledger] at hmoved
    exact (hmoved.elim (fun hne => hne rfl) fun hne => hne rfl).elim
  · rw [Function.update_of_ne hqp] at hq
    rw [(hkeep q hqp).2.2.2] at hmoved
    exact hsaw hqp (h.changed q u oldPassword newPassword cookie temporaryAuth hq hmoved)

theorem Kept.ambient (h : Kept S w o gs) (hx : ambient e w = some w') : Kept S w' o gs := by
  refine ⟨h.journal, fun u => ?_, h.reads, h.matched, h.recovered, h.sessions,
    fun q u oldPassword newPassword cookie temporaryAuth hq hmoved => ?_⟩
  · rw [ambient_creds hx]
    exact h.flag u
  · rw [(ambient_frame hx).1] at hmoved
    exact h.changed q u oldPassword newPassword cookie temporaryAuth hq hmoved

theorem Kept.reboot (h : Kept S w o gs) (hx : reboot e w = some w') (alive : Pid → Bool) :
    Kept S w' o fun p => if alive p then (gs p).settle else .idle := by
  cases hx
  -- a call that is lost has no operation
  have hop : ∀ {q : Pid} {x : Op}, (if alive q then (gs q).settle else Notes.idle).op = some x →
      alive q = true ∧ (gs q).op = some x := by
    intro q x hq
    cases halive : alive q with
    | true =>
        rw [halive] at hq
        exact ⟨rfl, hq⟩
    | false =>
        rw [halive] at hq
        cases hq
  have hdone : ∀ {q : Pid} {x : UserId × UserPatch}, alive q = true →
      x ∈ (if alive q then (gs q).settle else Notes.idle).done → x ∈ (gs q).done := by
    intro q x halive hx
    rw [halive] at hx
    exact hx
  refine ⟨h.journal.settled alive, h.flag, h.reads,
    fun q identifier password context hq id hd => ?_,
    fun q u oldPassword newPassword cookie temporaryAuth hq hash hd => ?_,
    fun q op' hq v hv => ?_,
    fun q u oldPassword newPassword cookie temporaryAuth hq hmoved => ?_⟩
  · exact h.matched q identifier password context (hop hq).2 id (hdone (hop hq).1 hd)
  · exact h.recovered q u oldPassword newPassword cookie temporaryAuth (hop hq).2 hash
      (hdone (hop hq).1 hd)
  · exact h.sessions q op' (hop hq).2 v hv
  · refine h.changed q u oldPassword newPassword cookie temporaryAuth (hop hq).2 (Or.inl ?_)
    exact hmoved.resolve_right fun hne => hne rfl

theorem Kept.boot (d : Db) (clock : Timestamp) :
    Kept S (World.boot d clock) (.start d) fun _ => .idle := by
  refine ⟨.idle _, fun u => ?_, fun q r hr => absurd hr List.not_mem_nil,
    fun q identifier password context hq => ?_,
    fun q u oldPassword newPassword cookie temporaryAuth hq => ?_,
    fun q op' hq => ?_, fun q u oldPassword newPassword cookie temporaryAuth hq => ?_⟩
  · show (d.creds u).mustChangePassword = (d.users.get u).any User.mustChangePassword
    unfold Db.creds
    cases d.users.get u with
    | none => rfl
    | some user => rfl
  · cases hq
  · cases hq
  · cases hq
  · cases hq

/-- **The invariant holds in every run.** -/
theorem kept_run {d : Db} {clock : Timestamp} {c : Conf} {o : History}
    (h : (system S).Reach chart (Config.init (World.boot d clock)) (.start d) c o) :
    ∃ gs, Booked c.world gs ∧ Kept S c.world o gs ∧
      System.Tracks (scribe S) .idle (Closed S) Broken c gs :=
  noted_run (Kept S) (fun {_ _ _ _ op} hB hI hidle _ => hI.opened hB hidle op)
    (fun hB hI hop ha hpow _ hx => hI.step hB hop ha hpow hx)
    (fun _ hI hx => hI.ambient hx)
    (fun {_ _ _ e _} alive _ hI hx => hI.reboot (e := e) hx alive) (Kept.boot d clock) h

end Runs

/-! ## §4. Isolation. -/

/-- The user and the kind (temporary or not) of the token a call is made with. -/
def tokenOf : Op → Option (UserId × Bool)
  | .authenticate _ (some (.signed ⟨.access u _ _ temporaryAuth, _⟩)) => some (u, temporaryAuth)
  | .refresh (some (.signed ⟨.refresh u _ temporaryAuth, _⟩)) => some (u, temporaryAuth)
  | .verify2FA (.signed ⟨.preAuth u fingerprint, _⟩) _ => some (u, fingerprint.isSome)
  | .updatePassword u _ _ _ temporaryAuth => some (u, temporaryAuth)
  | _ => none

/-- Every row of `u` that call `p` has read, it read while `u` was in forced
recovery (`flag`), or while `u` was not. -/
def ReadsIn (o : History) (p : Pid) (u : UserId) (flag : Bool) : Prop :=
  ∀ r ∈ o.journal.rows p, r.1.id = u → r.2.recovery = flag

/-- The token of a call is worth nothing: no way through the guard, no session,
no change of the tables. -/
def TurnedAway (c : Conf) (o : History) (p : Pid) : Op → Prop
  | .authenticate route cookie => route.isPublic = false →
      ∀ user, ¬ c.returned p (.authenticate route cookie) (.guarded user)
  | .updatePassword _ _ _ _ _ => o.ledger p = []
  | op => (∀ r, ¬ c.returned p op r) ∧ o.sessions p = []

section Isolation

variable {S : Settings} {p : Pid} {op : Op} {c : Conf} {w : World} {o : History} {gs : Pid → Notes}

/-- A call that reads in one state of the user only sees no row of the other. -/
theorem Kept.not_saw (h : Kept S w o gs) {u : UserId} {flag flag' : Bool}
    (hreads : ReadsIn o p u flag) (hne : flag' ≠ flag) : ¬ Saw o p u flag' := by
  rintro ⟨r, hr, hid, hflag⟩
  apply hne
  rw [← hflag, h.reads p r hr, hreads r hr hid]

/-- A call that has opened no session for a reason has opened none. -/
theorem Kept.no_sessions (h : Kept S w o gs) (hop : (gs p).op = some op)
    (hno : ∀ v, ¬ Grounds S o p v op) : o.sessions p = [] :=
  List.eq_nil_iff_forall_not_mem.mpr fun v hv => hno v (h.sessions p op hop v hv)

/-- The claims of an access token are those it was signed with. -/
theorem accessClaims_signed {u : UserId} {username : String} {role : Role} {temporaryAuth : Bool}
    {exp : Nat} {t : Timestamp} {claims : ParsedAccessClaims}
    (h : accessClaims (.signed ⟨.access u username role temporaryAuth, exp⟩) t = some claims) :
    claims.sub = u ∧ claims.temporaryAuth = temporaryAuth := by
  simp only [accessClaims, verifyAsync] at h
  split at h
  next jwt hjwt =>
    split at hjwt
    next => cases hjwt
    next =>
      obtain rfl := Verified.valid.inj hjwt
      simp only [parseAccessTokenClaims] at h
      split at h
      next =>
        cases h
        exact ⟨rfl, rfl⟩
      next => cases h
  next => cases h

/-- The claims of a refresh token are those it was signed with. -/
theorem refreshClaims_signed {u : UserId} {jti : String} {temporaryAuth : Bool} {exp : Nat}
    {claims : RefreshTokenClaims}
    (h : validRefreshTokenClaims ⟨.refresh u jti temporaryAuth, exp⟩ = some claims) :
    claims.sub = u ∧ claims.temporaryAuth = temporaryAuth := by
  simp only [validRefreshTokenClaims] at h
  split at h
  next =>
    cases h
    exact ⟨rfl, rfl⟩
  next => cases h

/-- A call that the guard lets through has read a row in the state its token is
for, and in forced recovery its route is the password change. -/
theorem Kept.guarded (h : Kept S c.world o gs)
    (hT : System.Tracks (scribe S) .idle (Closed S) Broken c gs) {route : Route} {u : UserId}
    {username : String} {role : Role} {temporaryAuth : Bool} {exp : Nat} {user : Option GuardedUser}
    (hpublic : route.isPublic = false)
    (hreturned : c.returned p (.authenticate route
      (some (.signed ⟨.access u username role temporaryAuth, exp⟩))) (.guarded user)) :
    Saw o p u temporaryAuth ∧ (temporaryAuth = true → route.isPasswordChange = true) := by
  obtain ⟨htold, hop⟩ := hT.returned hreturned
  cases user with
  | none =>
      have htold : route.isPublic = true := htold
      rw [htold] at hpublic
      cases hpublic
  | some user =>
      obtain ⟨-, row, raw, t, claims, hcookie, hclaims, hread, hid, hmode, hroute⟩ := htold
      obtain rfl := Option.some.inj hcookie
      obtain ⟨hsub, htemporary⟩ := accessClaims_signed hclaims
      rw [hsub] at hid
      rw [htemporary] at hmode
      have hsaw := h.saw hop hread
      rw [hid, hmode] at hsaw
      rw [hmode] at hroute
      exact ⟨hsaw, hroute⟩

/-- **A token of the wrong kind is turned away.** -/
theorem Kept.turnedAway (h : Kept S c.world o gs)
    (hT : System.Tracks (scribe S) .idle (Closed S) Broken c gs) {u : UserId} {temporary : Bool}
    (hcall : (c.calls p).map Task.op = some op) (htoken : tokenOf op = some (u, temporary))
    (hreads : ReadsIn o p u (!temporary)) : TurnedAway c o p op := by
  have hop := noted_op hT hcall
  have hno : ¬ Saw o p u temporary := h.not_saw hreads (by cases temporary <;> decide)
  unfold tokenOf at htoken
  split at htoken
  next route u' username role temporaryAuth exp =>
    obtain ⟨rfl, rfl⟩ := Prod.mk.inj (Option.some.inj htoken)
    exact fun hpublic user hreturned => hno (h.guarded hT hpublic hreturned).1
  next u' jti temporaryAuth exp =>
    obtain ⟨rfl, rfl⟩ := Prod.mk.inj (Option.some.inj htoken)
    refine ⟨fun r hreturned => ?_, h.no_sessions hop ?_⟩
    · obtain ⟨⟨user, jwt, claims, hcookie, hclaims, hread, hid, hmode⟩, -⟩ := hT.returned hreturned
      obtain rfl := RawToken.signed.inj (Option.some.inj hcookie)
      obtain ⟨hsub, htemporary⟩ := refreshClaims_signed hclaims
      have hsaw := h.saw hop hread
      rw [hid, hmode, hsub, htemporary] at hsaw
      exact hno hsaw
    · rintro v ⟨jwt, claims, hcookie, hclaims, hsaw⟩
      obtain rfl := RawToken.signed.inj (Option.some.inj hcookie)
      obtain ⟨hsub, htemporary⟩ := refreshClaims_signed hclaims
      rw [hsub, htemporary] at hsaw
      exact hno hsaw
  next u' fingerprint exp token =>
    obtain ⟨rfl, rfl⟩ := Prod.mk.inj (Option.some.inj htoken)
    refine ⟨fun r hreturned => ?_, h.no_sessions hop ?_⟩
    · obtain ⟨⟨user, sub, fingerprint', exp', hbearer, hread, hid, hmode, -⟩, -⟩ :=
        hT.returned hreturned
      cases hbearer
      have hsaw := h.saw hop hread
      rw [hid, hmode] at hsaw
      exact hno hsaw
    · rintro v ⟨sub, fingerprint', exp', hbearer, hsaw⟩
      cases hbearer
      exact hno hsaw
  next u' oldPassword newPassword cookie temporaryAuth =>
    obtain ⟨rfl, rfl⟩ := Prod.mk.inj (Option.some.inj htoken)
    by_contra hne
    exact hno (h.changed p _ oldPassword newPassword cookie _ hop (Or.inl hne))
  next => cases htoken

/-- **FORCED RECOVERY ISOLATES.**  In every run: a call whose token is of one
kind and whose reads of the user all fall in the state of the other is turned
away.  Where the reads all fall in a recovery, the guard lets a temporary token
through for the password change only, a login opens a session only if it has
matched and consumed the temporary credential itself, and a provider login
opens none. -/
theorem recovery_isolates (S : Settings) (d : Db) (clock : Timestamp) (c : Conf) (o : History)
    (h : (system S).Reach chart (Config.init (World.boot d clock)) (.start d) c o) (p : Pid)
    (u : UserId) :
    (∀ op temporary, (c.calls p).map Task.op = some op → tokenOf op = some (u, temporary) →
        ReadsIn o p u (!temporary) → TurnedAway c o p op) ∧
      (ReadsIn o p u true →
        (∀ route username role exp user, route.isPublic = false →
          c.returned p (.authenticate route (some (.signed ⟨.access u username role true, exp⟩)))
            (.guarded user) → route.isPasswordChange = true) ∧
        (∀ identifier password context,
          (c.calls p).map Task.op = some (.login identifier password context) →
          u ∈ o.sessions p → Matched S o p password u) ∧
        ∀ credential, (c.calls p).map Task.op = some (.googleLogin credential) →
          u ∉ o.sessions p) := by
  obtain ⟨gs, -, hkept, hT⟩ := kept_run h
  refine ⟨fun op temporary hcall htoken hreads => hkept.turnedAway hT hcall htoken hreads,
    fun hreads => ⟨?_, ?_, ?_⟩⟩
  · intro route username role exp user hpublic hreturned
    exact (hkept.guarded hT hpublic hreturned).2 rfl
  · intro identifier password context hcall hu
    have hgrounds := hkept.sessions p _ (noted_op hT hcall) u hu
    exact hgrounds.resolve_left (hkept.not_saw hreads (by decide))
  · intro credential hcall hu
    have hgrounds := hkept.sessions p _ (noted_op hT hcall) u hu
    exact hkept.not_saw hreads (by decide) hgrounds

end Isolation

/-- The temporary password of the concrete runs, its salt and its hash. -/
def tempPassword : String := "Zm9yY2VkUmVjb3Zl"
def tempSalt : String := "$2b$10$Q4wJt8mYzR1vBn6KcXe0Ou"
def tempHash : String := "$2b$10$Q4wJt8mYzR1vBn6KcXe0Ouzqevj3YcbnKJOyeFnp2ajIsEGF90Io6"

/-- bcrypt and SHA-256 on that password too, and a TOTP secret at one time step. -/
def sampleForced : Settings :=
  { sampleSettings with
    sha256 := fun text => Equiv.swap tempHash
      "02bcc00cfcea221d37ad6af2d08213cfde5f7820d5b020d00c7b613cfe0356e6" (sampleSha256 text)
    compare := fun data encrypted => sampleSettings.compare data encrypted
      || (data == tempPassword && encrypted == tempHash)
    hash := fun data salt =>
      if data = tempPassword ∧ salt = tempSalt then tempHash else sampleSettings.hash data salt
    verifySync := fun secret token t =>
      secret == "JBSWY3DPEHPK3PXP" && token == "324550" && t / 30000 == 56666666 }

/-- Call `p` of `resetPassword`, with the temporary password above. -/
def resets (p : Pid) : List (Event Env Op) :=
  [.invoke p (.resetPassword 3), .step p {}, .step p { text := tempPassword },
    .step p { text := tempSalt }, .step p {}, .step p {}, .step p {}, .step p {}, .step p {},
    .step p {}]

/-- `GET /api/auth/profile` with an access token from before the reset. -/
def oldToken : Op :=
  .authenticate { method := .get, path := "/api/auth/profile" }
    (some (.signed ⟨.access 3 "steve" .user false, 1700000900⟩))

/-- A user signs in, is reset, and uses the old access token. -/
def oldTokenAfterReset : List (Event Env Op) :=
  ([.invoke 1 (.login "steve" "old-password" none), .step 1 {}, .step 1 {},
      .step 1 { text := jti₁ }, .step 1 {}, .step 1 {}, .step 1 {}, .step 1 { uuid := 1 }] :
      List (Event Env Op))
    ++ resets 2 ++ ([.invoke 3 oldToken, .step 3 {}, .step 3 {}] : List (Event Env Op))

theorem oldTokenAfterReset_turnedAway :
    ∃ c o, (system sampleForced).Reach chart (Config.init sampleWorld) (.start sampleDb) c o ∧
      (c.result 1).isSome = true ∧ o.journal.rows 3 ≠ [] ∧ ReadsIn o 3 3 true ∧
      (c.failure 3).isSome = true ∧
      TurnedAway c o 3 oldToken := by
  obtain ⟨c, o, hreach, ht⟩ := System.Reach.of_replay (S := system sampleForced) (V := chart)
    sampleWorld (.start sampleDb) oldTokenAfterReset
    (fun c o => (c.result 1).isSome && decide (o.journal.rows 3 ≠ []) &&
      decide (∀ r ∈ o.journal.rows 3, r.1.id = 3 → r.2.recovery = true) && (c.failure 3).isSome &&
      decide ((c.calls 3).map Task.op = some oldToken)) (by decide +kernel)
  simp only [Bool.and_eq_true, decide_eq_true_eq] at ht
  obtain ⟨⟨⟨⟨hsession, hread⟩, hreads⟩, hfailed⟩, hcall⟩ := ht
  exact ⟨c, o, hreach, hsession, hread, hreads, hfailed,
    (recovery_isolates sampleForced sampleDb _ c o hreach 3 3).1 _ false hcall rfl hreads⟩

/-! ## §5. Old challenges. -/

/-- The step shows a row of `users`. -/
def shows : ∀ {β : Type}, Act β → Bool
  | _, .query (.selectUser _) => true
  | _, .query (.findUser _) => true
  | _, .query (.selectUserForUpdate _) => true
  | _, .query (.insertUser _) => true
  | _, _ => false

/-- The ordinary challenge a call is made with. -/
def challengeOf : Op → Option (UserId × Jwt)
  | .verify2FA (.signed ⟨.preAuth u none, exp⟩) _ => some (u, ⟨.preAuth u none, exp⟩)
  | _ => none

/-- The challenge was handed out before a reset of `u`. -/
def History.stale (o : History) (u : UserId) (token : Jwt) : Bool :=
  o.challenges.any fun x => decide (x.token = token ∧ x.resets < o.resets u)

/-- The last row that call `p` has read is from after the last reset of its
user. -/
def History.current (o : History) (p : Pid) : Bool :=
  (o.journal.rows p).head?.all fun r => decide (r.2.resets = o.resets r.1.id)

/-- An ordinary challenge from before a reset is presented during the recovery
only, and no reset commits between the read of the row and the INSERT. -/
def timely : Watch Act World Env Op History where
  guard := fun o _ p op _ a _ =>
    (challengeOf op).all fun x =>
      (!shows a || o.recovery x.1 || !o.stale x.1 x.2) && (!a.stores || o.current p)
  onInvoke := chart.onInvoke
  onStep := chart.onStep

/-- What holds in every run in which challenges are presented in time. -/
structure Dated (o : History) (gs : Pid → Notes) : Prop where
  challenges : ∀ x ∈ o.challenges, ∀ u fingerprint, x.token.payload = .preAuth u fingerprint →
    x.resets ≤ o.resets u
  marks : ∀ p, ∀ r ∈ o.journal.rows p, r.2.resets ≤ o.resets r.1.id
  rows : ∀ p op u token, (gs p).op = some op → challengeOf op = some (u, token) →
    ∀ r ∈ o.journal.rows p, r.1.id = u → r.1.mustChangePassword = false →
    ∀ x ∈ o.challenges, x.token = token → r.2.resets ≤ x.resets
  yields : ∀ y ∈ o.yields, ∀ u, y.token.payload = .preAuth u none → y.resets ≤ o.resets u ∧
    ∀ x ∈ o.challenges, x.token = y.token → y.resets ≤ x.resets

section Timely

variable {S : Settings} {p : Pid} {op : Op} {e : Env} {w w' : World} {o : History}
  {gs : Pid → Notes}

theorem challengeOf_eq_some {u : UserId} {token : Jwt} (h : challengeOf op = some (u, token)) :
    token.payload = .preAuth u none ∧ ∃ code, op = .verify2FA (.signed token) code := by
  unfold challengeOf at h
  split at h
  next u' exp code =>
    obtain ⟨rfl, rfl⟩ := Prod.mk.inj (Option.some.inj h)
    exact ⟨rfl, code, rfl⟩
  next => cases h

theorem shows_of_row {β : Type} {a : Act β} {b : β} {user : User} (h : a.row b = some user) :
    shows a = true := by
  cases a with
  | query s =>
      cases b with
      | error x => cases h
      | ok r =>
          cases s with
          | selectUser id => rfl
          | findUser cond => rfl
          | selectUserForUpdate id => rfl
          | insertUser v => rfl
          | _ => cases h
  | _ => cases h

/-- A commit moves the count of resets up, and nothing of the challenges. -/
theorem commit_frame (o : History) (w : World) (p : Pid) (op : Op) :
    (∀ u, o.resets u ≤ (o.commit w p op).resets u) ∧
      (o.commit w p op).challenges = o.challenges ∧ (o.commit w p op).yields = o.yields := by
  cases op with
  | resetPassword v =>
      have hstep : o.commit w p (.resetPassword v) =
          if History.updates w p v then
            { o with
              recovery := Function.update o.recovery v true
              resets := Function.update o.resets v (o.resets v + 1) }
          else o := rfl
      rw [hstep]
      split
      next =>
        refine ⟨fun u => ?_, rfl, rfl⟩
        show o.resets u ≤ Function.update o.resets v (o.resets v + 1) u
        by_cases hu : u = v
        · rw [hu, Function.update_self]
          exact Nat.le_succ _
        · rw [Function.update_of_ne hu]
      next => exact ⟨fun u => le_rfl, rfl, rfl⟩
  | updatePassword v oldPassword newPassword cookie temporaryAuth =>
      cases temporaryAuth with
      | false => exact ⟨fun u => le_rfl, rfl, rfl⟩
      | true =>
          have hstep : o.commit w p (.updatePassword v oldPassword newPassword cookie true) =
              if History.updates w p v then { o with recovery := Function.update o.recovery v false }
              else o := rfl
          rw [hstep]
          split
          next => exact ⟨fun u => le_rfl, rfl, rfl⟩
          next => exact ⟨fun u => le_rfl, rfl, rfl⟩
  | _ => exact ⟨fun u => le_rfl, rfl, rfl⟩

theorem event_resets {β : Type} (a : Act β) (b : β) (u : UserId) :
    o.resets u ≤ (o.event w p op a b).resets u := by
  by_cases hcommitted : a.committed b = true
  · cases a with
    | commit =>
        cases b with
        | error x => cases hcommitted
        | ok r => exact (commit_frame o w p op).1 u
    | _ => cases hcommitted
  · rw [(event_marks (by simpa using hcommitted)).2]

/-- A challenge is new, with the count of now, or was there. -/
theorem event_challenges {β : Type} {a : Act β} {b : β} (hx : exec S p a e w = some (b, w'))
    {x : Challenge} (h : x ∈ (o.event w p op a b).challenges) :
    x ∈ o.challenges ∨
      ∃ u fingerprint, x.token.payload = .preAuth u fingerprint ∧ x.resets = o.resets u := by
  cases a with
  | commit =>
      cases b with
      | error x => exact Or.inl h
      | ok r =>
          have h : x ∈ (o.commit w p op).challenges := h
          rw [(commit_frame o w p op).2.1] at h
          exact Or.inl h
  | query s =>
      cases b with
      | error x => cases s <;> exact Or.inl h
      | ok r => cases s <;> exact Or.inl h
  | sign payload ttl =>
      cases payload with
      | preAuth u fingerprint =>
          have h : x ∈ (⟨b, o.resets u⟩ : Challenge) :: o.challenges := h
          rcases List.mem_cons.mp h with rfl | hold
          · have hb : (⟨.preAuth u fingerprint, w.clock / 1000 + ttl / 1000⟩ : Jwt) = b :=
              (Prod.mk.inj (Option.some.inj hx)).1
            exact Or.inr ⟨u, fingerprint, by rw [← hb], rfl⟩
          · exact Or.inl hold
      | _ => exact Or.inl h
  | _ => exact Or.inl h

/-- A session of a challenge is new, with the count of now, or was there. -/
theorem event_yields {n : Notes} {β : Type} {a : Act β} {b : β} (ha : n.allow S op a) {y : Yield}
    (h : y ∈ (o.event w p op a b).yields) :
    y ∈ o.yields ∨ (a.stores = true ∧ ∃ v code, op = .verify2FA (.signed y.token) code ∧
      Issues S n v op ∧ y.resets = o.resets v.userId) := by
  cases a with
  | commit =>
      cases b with
      | error x => exact Or.inl h
      | ok r =>
          have h : y ∈ (o.commit w p op).yields := h
          rw [(commit_frame o w p op).2.2] at h
          exact Or.inl h
  | query s =>
      cases s with
      | insertToken v =>
          cases b with
          | error x => exact Or.inl h
          | ok r =>
              cases op with
              | verify2FA bearer code =>
                  cases bearer with
                  | signed jwt =>
                      have h : y ∈ (⟨jwt, o.resets v.userId⟩ : Yield) :: o.yields := h
                      rcases List.mem_cons.mp h with rfl | hold
                      · exact Or.inr ⟨rfl, v, code, rfl, ha, rfl⟩
                      · exact Or.inl hold
                  | _ => exact Or.inl h
              | _ => exact Or.inl h
      | _ => exact Or.inl h
  | sign payload ttl => cases payload <;> exact Or.inl h
  | _ => exact Or.inl h

theorem Dated.step {β : Type} {a : Act β} {b : β} (hB : Booked w gs) (hkept : Kept S w o gs)
    (h : Dated o gs) (hop : (gs p).op = some op) (ha : (gs p).allow S op a)
    (hg : timely.guard o w p op a e = true) (hx : exec S p a e w = some (b, w')) :
    Dated (o.step w p op a b w') (Function.update gs p ((gs p).next a b)) := by
  -- the counts only grow
  have hmono : ∀ u, o.resets u ≤ (o.step w p op a b w').resets u := event_resets a b
  -- a new challenge has the count of now
  have hnew : ∀ {x : Challenge} {u : UserId} {fingerprint : Option String},
      x ∈ (o.step w p op a b w').challenges → x.token.payload = .preAuth u fingerprint →
      x ∈ o.challenges ∨ x.resets = o.resets u := by
    intro x u fingerprint hmem hpayload
    rcases event_challenges hx hmem with hold | ⟨u', fingerprint', hpayload', hresets⟩
    · exact Or.inl hold
    · rw [hpayload] at hpayload'
      obtain ⟨rfl, -⟩ := Payload.preAuth.inj hpayload'
      exact Or.inr hresets
  refine ⟨fun x hmem u fingerprint hpayload => ?_, fun q r hr => ?_,
    fun q op' u token hq htoken r hr hid hforced x hmem hxt => ?_, fun y hy u hpayload => ?_⟩
  · rcases hnew hmem hpayload with hold | hresets
    · exact (h.challenges x hold u fingerprint hpayload).trans (hmono u)
    · exact hresets.le.trans (hmono u)
  · rcases step_rows hr with hold | ⟨-, -, hmark⟩
    · exact (h.marks q r hold).trans (hmono _)
    · rw [hmark]
      exact hmono _
  · have hq' := op_next hq
    have hpayload : x.token.payload = .preAuth u none := by
      rw [hxt]
      exact (challengeOf_eq_some htoken).1
    rcases step_rows hr with hrow | ⟨rfl, hrow, hmark⟩
    · rcases hnew hmem hpayload with hold | hresets
      · exact h.rows q op' u token hq' htoken r hrow hid hforced x hold hxt
      · rw [hresets, ← hid]
        exact h.marks q r hrow
    · -- the row is read now: the user is not in recovery, so the challenge is not stale
      have hcount : r.2.resets = o.resets u := by
        rw [hmark, ← hid]
        rfl
      rw [hcount]
      rcases hnew hmem hpayload with hold | hresets
      · rw [hq'] at hop
        obtain rfl := Option.some.inj hop
        have hflag : o.recovery u = false := by
          rw [← hkept.flag u, ← hid, ← hB.read ha hx hrow]
          exact hforced
        simp only [timely, htoken, Option.all_some, Bool.and_eq_true, Bool.or_eq_true,
          shows_of_row hrow, hflag, Bool.not_true, Bool.false_eq_true, false_or] at hg
        have hfresh := hg.1
        simp only [History.stale, Bool.not_eq_true', List.any_eq_false, decide_eq_true_eq,
          not_and, not_lt] at hfresh
        exact hfresh x hold hxt
      · exact hresets.ge
  · rcases event_yields ha hy with hold | ⟨hstores, v, code, rfl, hI, hresets⟩
    · obtain ⟨hle, hall⟩ := h.yields y hold u hpayload
      refine ⟨hle.trans (hmono u), fun x hmem hxy => ?_⟩
      rcases hnew hmem (by rw [hxy]; exact hpayload) with hold' | hresets
      · exact hall x hold' hxy
      · exact hle.trans hresets.ge
    · -- the session is stored now: no reset since the row was read
      obtain ⟨-, -, user, sub, fingerprint, exp, hbearer, hread, hid, hv, -, hmode, -⟩ := hI
      have htoken : y.token = ⟨.preAuth sub fingerprint, exp⟩ := RawToken.signed.inj hbearer
      rw [htoken] at hpayload
      obtain ⟨rfl, rfl⟩ := Payload.preAuth.inj hpayload
      have hcount : y.resets = o.resets sub := by rw [hresets, hv, hid]
      refine ⟨hcount.le.trans (hmono sub), fun x hmem hxy => ?_⟩
      rcases hnew hmem (by rw [hxy, htoken]) with hold | hresets
      · have hchallenge : challengeOf (.verify2FA (.signed y.token) code) = some (sub, y.token) := by
          rw [htoken]
          rfl
        simp only [timely, hchallenge, Option.all_some, Bool.and_eq_true, Bool.or_eq_true,
          hstores, Bool.not_true, Bool.false_eq_true, false_or] at hg
        obtain ⟨r, hr, hfst⟩ := Option.map_eq_some_iff.mp
          ((hkept.journal p (by rw [hop]; rfl)).2 user hread)
        have hcurrent := hg.2
        simp only [History.current, hr, Option.all_some, decide_eq_true_eq] at hcurrent
        have hle := h.rows p _ sub y.token hop hchallenge r (List.mem_of_head? hr)
          (by rw [hfst, hid]) (by rw [hfst, hmode]; rfl) x hold hxy
        rw [hcount, ← hid, ← hfst, ← hcurrent]
        exact hle
      · rw [hcount, hresets]

theorem Dated.opened (h : Dated o gs) (op : Op) :
    Dated (o.opened p) (Function.update gs p (.fresh op)) := by
  have hrows : ∀ {q : Pid} {r : User × Mark}, r ∈ (o.opened p).journal.rows q →
      q ≠ p ∧ r ∈ o.journal.rows q := by
    intro q r hr
    have hr : r ∈ Function.update o.journal.rows p [] q := hr
    by_cases hq : q = p
    · rw [hq, Function.update_self] at hr
      exact absurd hr List.not_mem_nil
    · rw [Function.update_of_ne hq] at hr
      exact ⟨hq, hr⟩
  refine ⟨h.challenges, fun q r hr => h.marks q r (hrows hr).2,
    fun q op' u token hq htoken r hr => ?_, h.yields⟩
  rw [Function.update_of_ne (hrows hr).1] at hq
  exact h.rows q op' u token hq htoken r (hrows hr).2

theorem Dated.reboot (h : Dated o gs) (alive : Pid → Bool) :
    Dated o fun p => if alive p then (gs p).settle else .idle := by
  refine ⟨h.challenges, h.marks, fun q op' u token hq => ?_, h.yields⟩
  cases halive : alive q with
  | true =>
      simp only [halive, if_true] at hq
      exact h.rows q op' u token hq
  | false =>
      simp only [halive] at hq
      cases hq

theorem Dated.boot (d : Db) : Dated (.start d) fun _ => .idle := by
  refine ⟨fun x hx => absurd hx List.not_mem_nil, fun q r hr => absurd hr List.not_mem_nil,
    fun q op' u token hq => ?_, fun y hy => absurd hy List.not_mem_nil⟩
  cases hq

theorem dated_run {d : Db} {clock : Timestamp} {c : Conf} {o : History}
    (h : (system S).Reach timely (Config.init (World.boot d clock)) (.start d) c o) :
    ∃ gs, Booked c.world gs ∧ (Kept S c.world o gs ∧ Dated o gs) ∧
      System.Tracks (scribe S) .idle (Closed S) Broken c gs :=
  noted_run (fun w o gs => Kept S w o gs ∧ Dated o gs)
    (fun {_ _ _ _ op} hB hI hidle _ => ⟨hI.1.opened hB hidle op, hI.2.opened op⟩)
    (fun hB hI hop ha hpow hg hx =>
      ⟨hI.1.step hB hop ha hpow hx, hI.2.step hB hI.1 hop ha hg hx⟩)
    (fun _ hI hx => ⟨hI.1.ambient hx, hI.2⟩)
    (fun {_ _ _ e _} alive _ hI hx => ⟨hI.1.reboot (e := e) hx alive, hI.2.reboot alive⟩)
    ⟨Kept.boot d clock, Dated.boot d⟩ h

/-- **A CHALLENGE DIES WITH A RESET.**  In every run in which an ordinary
challenge from before a reset is presented during the recovery only, and no
reset commits between the read of the row and the INSERT of the session: an
ordinary challenge handed out before a reset of its user commits yields no
session after it. -/
theorem challenge_dies_with_reset (S : Settings) (d : Db) (clock : Timestamp) (c : Conf)
    (o : History)
    (h : (system S).Reach timely (Config.init (World.boot d clock)) (.start d) c o) :
    ∀ y ∈ o.yields, ∀ u, y.token.payload = .preAuth u none →
      ∀ x ∈ o.challenges, x.token = y.token → y.resets ≤ x.resets := by
  obtain ⟨gs, -, ⟨-, hdated⟩, -⟩ := dated_run h
  exact fun y hy u hpayload => (hdated.yields y hy u hpayload).2

end Timely

/-- A user with a second factor. -/
def enrolledDb : Db :=
  { sampleDb with
    users := ⟨[{ sampleAccount 3 "steve@example.com" "steve" .user with
      totpSecret := some "JBSWY3DPEHPK3PXP", totpEnabled := true }], by decide⟩ }

/-- The challenge of an ordinary login, and of one with the temporary password. -/
def ordinaryChallenge : Jwt := ⟨.preAuth 3 none, 1700000300⟩
def forcedChallenge : Jwt := ⟨.preAuth 3 (some (sampleForced.sha256 tempHash)), 1700000300⟩

/-- Call `p` of `login`, up to its challenge. -/
def signsIn (p : Pid) (password : String) : List (Event Env Op) :=
  [.invoke p (.login "steve" password none), .step p {}, .step p {}, .step p {}]

/-- Call `p` of `verify2FA` with an ordinary challenge, up to its INSERT. -/
def answers (p : Pid) (jti : String) : List (Event Env Op) :=
  [.invoke p (.verify2FA (.signed ordinaryChallenge) "324550"), .step p {}, .step p {}, .step p {},
    .step p {}, .step p {}, .step p {}, .step p { text := jti }, .step p {}, .step p {}, .step p {}]

/-- The challenge is answered, the user is reset, the challenge is presented
again. -/
def answeredThenReset : List (Event Env Op) :=
  signsIn 1 "old-password" ++ answers 2 jti₁ ++ [.step 2 { uuid := 1 }] ++ resets 3
    ++ [.invoke 4 (.verify2FA (.signed ordinaryChallenge) "324550"), .step 4 {}, .step 4 {},
      .step 4 {}]

theorem answeredThenReset_dies :
    ∃ c o, (system sampleForced).Reach timely
        (Config.init (World.boot enrolledDb 1700000000000)) (.start enrolledDb) c o ∧
      (c.result 2).isSome = true ∧ (c.failure 4).isSome = true ∧ o.resets 3 = 1 ∧
      o.yields.length = 1 ∧
      ∀ y ∈ o.yields, ∀ x ∈ o.challenges, y.token.payload = .preAuth 3 none →
        x.token = y.token → y.resets ≤ x.resets := by
  obtain ⟨c, o, hreach, ht⟩ := System.Reach.of_replay (S := system sampleForced) (V := timely)
    (World.boot enrolledDb 1700000000000) (.start enrolledDb) answeredThenReset
    (fun c o => (c.result 2).isSome && (c.failure 4).isSome && decide (o.resets 3 = 1) &&
      decide (o.yields.length = 1)) (by decide +kernel)
  simp only [Bool.and_eq_true, decide_eq_true_eq] at ht
  refine ⟨c, o, hreach, ht.1.1.1, ht.1.1.2, ht.1.2, ht.2, fun y hy x hx hpayload hxy => ?_⟩
  exact challenge_dies_with_reset sampleForced enrolledDb _ c o hreach y hy 3 hpayload x hx hxy

/-- The recovery after a reset is completed before an old challenge is
answered. -/
def recoveredInBetween : List (Event Env Op) :=
  signsIn 1 "old-password" ++ resets 2 ++ signsIn 3 tempPassword
    ++ ([.invoke 4 (.verify2FA (.signed forcedChallenge) "324550"), .step 4 {}, .step 4 {},
      .step 4 {}, .step 4 {}, .step 4 {}, .step 4 {}, .step 4 {}, .step 4 {},
      .step 4 { text := jti₁ }, .step 4 {}, .step 4 {}, .step 4 {}, .step 4 { uuid := 1 }] :
      List (Event Env Op))
    ++ ([.invoke 5 (.updatePassword 3 tempPassword "new-password"
        (some (.signed ⟨.refresh 3 jti₁ true, 1700604800⟩)) true), .step 5 {},
      .step 5 { text := "$2b$10$zyxwvutsrqponmlkjihgfe" }, .step 5 {}, .step 5 {}, .step 5 {},
      .step 5 {}, .step 5 {}] : List (Event Env Op))
    ++ answers 6 jti₂ ++ ([.step 6 { uuid := 2 }] : List (Event Env Op))

/-- A reset commits between the read of the row and the INSERT. -/
def resetInBetween : List (Event Env Op) :=
  signsIn 1 "old-password" ++ answers 2 jti₁ ++ resets 3 ++ [.step 2 { uuid := 1 }]

/-- A session has come from an ordinary challenge older than a reset. -/
def survived (o : History) : Bool :=
  o.yields.any fun y => o.challenges.any fun x =>
    decide (y.token.payload = .preAuth 3 none ∧ x.token = y.token ∧ x.resets < y.resets)

theorem exists_of_survived {o : History} (h : survived o = true) :
    ∃ y ∈ o.yields, ∃ x ∈ o.challenges, y.token.payload = .preAuth 3 none ∧
      x.token = y.token ∧ x.resets < y.resets := by
  obtain ⟨y, hy, h⟩ := List.any_eq_true.mp h
  obtain ⟨x, hx, h⟩ := List.any_eq_true.mp h
  exact ⟨y, hy, x, hx, of_decide_eq_true h⟩

/-- A challenge from before a reset yields a session after it: once the recovery
is complete, and in a race with the reset. -/
theorem stale_challenge_survives :
    (∃ c o, (system sampleForced).Reach chart
        (Config.init (World.boot enrolledDb 1700000000000)) (.start enrolledDb) c o ∧
      o.recovery 3 = false ∧ ∃ y ∈ o.yields, ∃ x ∈ o.challenges,
        y.token.payload = .preAuth 3 none ∧ x.token = y.token ∧ x.resets < y.resets) ∧
    ∃ c o, (system sampleForced).Reach chart
        (Config.init (World.boot enrolledDb 1700000000000)) (.start enrolledDb) c o ∧
      o.recovery 3 = true ∧ ∃ y ∈ o.yields, ∃ x ∈ o.challenges,
        y.token.payload = .preAuth 3 none ∧ x.token = y.token ∧ x.resets < y.resets := by
  constructor
  · obtain ⟨c, o, hreach, ht⟩ := System.Reach.of_replay (S := system sampleForced) (V := chart)
      (World.boot enrolledDb 1700000000000) (.start enrolledDb) recoveredInBetween
      (fun _ o => !o.recovery 3 && survived o) (by decide +kernel)
    rw [Bool.and_eq_true, Bool.not_eq_true'] at ht
    exact ⟨c, o, hreach, ht.1, exists_of_survived ht.2⟩
  · obtain ⟨c, o, hreach, ht⟩ := System.Reach.of_replay (S := system sampleForced) (V := chart)
      (World.boot enrolledDb 1700000000000) (.start enrolledDb) resetInBetween
      (fun _ o => o.recovery 3 && survived o) (by decide +kernel)
    rw [Bool.and_eq_true] at ht
    exact ⟨c, o, hreach, ht.1, exists_of_survived ht.2⟩

end Recovery

end MinePanel.Accounts
