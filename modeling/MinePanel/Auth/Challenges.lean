/-
  MinePanel.Auth.Challenges
  ─────────────────────────
  **AN OAUTH CHALLENGE LETS ONE CALL THROUGH.**

  Sign-in and linking share one check: a DELETE of the challenge that the
  token names.  Every row of `oauth_challenges` stands for a challenge that
  `createChallenge` drew and stored and that nobody has used (`Fresh`); the call
  whose DELETE returns the row is the one that uses it.

    * `Book` — what was drawn, stored and used;
    * `Kept` — the invariant;
    * `challenges_single_use` — **every challenge is used at most once, within
      five minutes, and whoever does not get through changes nothing**.
-/
import MinePanel.Auth.Visits
import MinePanel.Lib.Ticket

namespace MinePanel.Accounts

open MinePanel.Db MinePanel.Lib Prog

namespace OAuth

/-! ## §1. The history. -/

/-- A challenge that `createChallenge` stored, and its clock reading. -/
structure Stored where
  challenge : String
  createdAt : Timestamp
  deriving Repr, DecidableEq

/-- A call that got through the challenge check: the nonce of its token, its
clock reading, and the challenges stored by then. -/
structure Pass where
  pid : Pid
  nonce : Option String
  checkedAt : Option Timestamp
  created : List Stored
  deriving Repr, DecidableEq

/-- What was drawn, stored and used so far. -/
structure Book where
  visits : Pid → Visit
  changes : Ledger
  drawn : List String
  stored : List Stored
  passes : List Pass

/-- `createChallenge` draws its challenge. -/
def drawing : Op → ∀ {β : Type}, Act β → Bool
  | .createChallenge _, _, .random => true
  | _, _, _ => false

/-- `createChallenge` has stored its challenge. -/
def storing : Op → ∀ {β : Type}, Act β → β → Bool
  | .createChallenge _, _, .query (.insertChallenge _ _ _), b =>
      match b with
      | .ok _ => true
      | .error _ => false
  | _, _, _, _ => false

/-- The challenge check has let its call through. -/
def passing : ∀ {β : Type}, Act β → β → Bool
  | _, .query (.consumeChallenge _ _ _), b =>
      match b with
      | .ok consumed => consumed.isSome
      | .error _ => false
  | _, _, _ => false

/-- The challenge a call has drawn, with its clock reading. -/
def entry (v : Visit) : List Stored :=
  match v.drawn, v.now with
  | some challenge, some now => [⟨challenge, now⟩]
  | _, _ => []

namespace Book

/-- Nothing has happened. -/
def blank : Book := ⟨fun _ => Visit.idle, Ledger.blank, [], [], []⟩

/-- A new call. -/
def opened (o : Book) (p : Pid) (op : Op) : Book :=
  { o with
    visits := Function.update o.visits p (Visit.fresh op)
    changes := o.changes.opened p }

/-- A step of call `p`. -/
def step (o : Book) (w : World) (p : Pid) (op : Op) {β : Type} (a : Act β) (b : β) (w' : World) :
    Book where
  visits := Function.update o.visits p ((o.visits p).next a b)
  changes := o.changes.step w p w'
  drawn := if drawing op a then ((o.visits p).next a b).drawn.toList ++ o.drawn else o.drawn
  stored := if storing op a b then entry (o.visits p) ++ o.stored else o.stored
  passes :=
    if passing a b then
      ⟨p, (o.visits p).nonce, (o.visits p).now, o.stored⟩ :: o.passes
    else o.passes

/-- The process has died. -/
def rebooted (o : Book) : Book := { o with visits := fun p => (o.visits p).settle }

end Book

/-- Every interleaving in which `createChallenge` draws fresh challenges. -/
def watch : Watch Act World Env Op Book where
  guard := fun o _ _ op _ a e => !drawing op a || !o.drawn.contains e.text
  onInvoke := fun o _ p op => o.opened p op
  onStep := fun o w p op _ a b w' => o.step w p op a b w'
  onReboot := fun o _ _ => o.rebooted

/-! ## §2. Rows of `oauth_challenges`. -/

section Rows

variable {S : Settings} {p : Pid} {β : Type} {a : Act β} {e : Env} {b : β} {w w' : World}

theorem apply_oauthChallenges {x : Write} (d : Db) (h : Power.challenge ∉ x.powers) :
    (d.apply x).oauthChallenges = d.oauthChallenges := by
  cases x with
  | insertChallenge row => exact absurd List.mem_cons_self h
  | deleteChallenge id => exact absurd List.mem_cons_self h
  | _ => rfl

theorem foldl_oauthChallenges {ws : List Write} (d : Db)
    (h : ∀ x ∈ ws, Power.challenge ∉ x.powers) :
    (ws.foldl Db.apply d).oauthChallenges = d.oauthChallenges := by
  induction ws generalizing d with
  | nil => rfl
  | cons x ws ih =>
      rw [List.foldl_cons, ih _ fun y hy => h y (List.mem_cons_of_mem _ hy),
        apply_oauthChallenges d (h x List.mem_cons_self)]

/-- No transaction writes challenges. -/
def Autocommits (t : Tables) : Prop :=
  ∀ p ws, t.pending p = some ws → ∀ x ∈ ws, Power.challenge ∉ x.powers

/-- A step that cannot write challenges. -/
theorem other_step (h : Autocommits w.tables) (ha : Power.challenge ∉ a.powers)
    (hx : exec S p a e w = some (b, w')) :
    Autocommits w'.tables ∧ w'.db.oauthChallenges = w.db.oauthChallenges := by
  have hstep := exec_step hx
  have hmay : ∀ x, a.May x → Power.challenge ∉ x.powers := fun x hx hc => ha (hx.powers hc)
  refine ⟨fun q ws hws => ?_, ?_⟩
  · by_cases hq : q = p
    · subst hq
      exact hstep.pending_all (fun hold => h q _ hold) hmay hws
    · rw [hstep.pending_of_ne hq] at hws
      exact h q ws hws
  · obtain ⟨ws, hws, hnone⟩ := hstep.committed_eq (fun hold => h p _ hold) hmay
    show w'.tables.committed.oauthChallenges = _
    rw [hws]
    exact foldl_oauthChallenges _ hnone

theorem ambient_oauthChallenges (h : ambient e w = some w') :
    w'.db.oauthChallenges = w.db.oauthChallenges := by
  unfold ambient at h
  split at h
  next =>
    split at h
    next =>
      cases h
      rfl
    next => cases h
  next =>
    cases h
    rfl
  next =>
    split at h
    next => cases h
    next =>
      cases h
      rfl

/-- A statement outside a transaction. -/
theorem autocommit_step {α : Type} {s : Stmt α} {b : Except Exn α}
    (hp : w.tables.pending p = none) (hx : exec S p (.query s) e w = some (b, w')) :
    (b = .error .statementFailed ∧ w' = w) ∨
      (b = (plan w.clock e w.db s).answer ∧ w'.tables.pending = w.tables.pending ∧
        w'.db = (plan w.clock e w.db s).writes.foldl Db.apply w.db) := by
  have hview : w.view p = w.db := Store.view_of_none hp
  rcases exec_query hx with hfailed | ⟨hb, -, -, rfl⟩
  · exact Or.inl hfailed
  · rw [hview] at hb ⊢
    refine Or.inr ⟨hb, ?_, ?_⟩
    · show (w.tables.put Db.apply p _ _).pending = _
      rw [Store.put_of_none hp]
    · show (w.tables.put Db.apply p _ _).committed = _
      rw [Store.put_of_none hp]
      rfl

/-- **Storing a challenge**: a new row, or a refusal. -/
theorem plan_insertChallenge (now : Timestamp) (e : Env) (d : Db)
    (provider : OAuthChallengeProvider) (hash : String) (expiresAt : Timestamp) :
    ((plan now e d (.insertChallenge provider hash expiresAt)).answer = .ok () ∧
      ((plan now e d (.insertChallenge provider hash expiresAt)).writes.foldl Db.apply
        d).oauthChallenges.rows =
          d.oauthChallenges.rows ++ [⟨e.uuid, provider, hash, expiresAt, now⟩] ∧
      ∀ c ∈ d.oauthChallenges.rows, c.challengeHash ≠ hash) ∨
    ((∃ x, (plan now e d (.insertChallenge provider hash expiresAt)).answer = .error x) ∧
      (plan now e d (.insertChallenge provider hash expiresAt)).writes = []) := by
  simp only [plan]
  split
  next => exact Or.inr ⟨⟨_, rfl⟩, rfl⟩
  next hid =>
    split
    next => exact Or.inr ⟨⟨_, rfl⟩, rfl⟩
    next hfree =>
      refine Or.inl ⟨rfl, ?_, ?_⟩
      · obtain ⟨t, ht⟩ := Table.insert_isSome (t := d.oauthChallenges)
          (r := ⟨e.uuid, provider, hash, expiresAt, now⟩) (by simpa using hid)
        show ((d.oauthChallenges.insert _).getD d.oauthChallenges).rows = _
        rw [ht]
        exact (Table.insert_rows ht).1
      · simpa using hfree

/-- **Using a challenge**: its row goes, or nothing does. -/
theorem plan_consumeChallenge (now : Timestamp) (e : Env) (d : Db)
    (provider : OAuthChallengeProvider) (hash : String) (time : Timestamp) :
    (∃ c ∈ d.oauthChallenges.rows, c.challengeHash = hash ∧ time < c.expiresAt ∧
      (plan now e d (.consumeChallenge provider hash time)).answer = .ok (some c.id) ∧
      ((plan now e d (.consumeChallenge provider hash time)).writes.foldl Db.apply
        d).oauthChallenges.rows = d.oauthChallenges.rows.filter fun r => !decide (r.id = c.id)) ∨
    ((plan now e d (.consumeChallenge provider hash time)).answer = .ok none ∧
      (plan now e d (.consumeChallenge provider hash time)).writes = []) := by
  simp only [plan]
  split
  next => exact Or.inr ⟨rfl, rfl⟩
  next c hfound =>
    have hmatch := List.find?_some hfound
    simp only [Bool.and_eq_true, beq_iff_eq, decide_eq_true_eq] at hmatch
    refine Or.inl ⟨c, List.mem_of_find?_eq_some hfound, hmatch.1.2, hmatch.2, rfl, ?_⟩
    rfl

end Rows

/-! ## §3. Fresh challenges. -/

/-- The pass used a challenge that was there, less than five minutes old. -/
def Pass.Valid (pass : Pass) : Prop :=
  ∃ s ∈ pass.created, pass.nonce = some s.challenge ∧
    ∃ time, pass.checkedAt = some time ∧ time < s.createdAt + oauthChallengeTtlMs

/-- Every row stands for a stored challenge that nobody has used. -/
structure Fresh (S : Settings) (rows : List OAuthChallenge) (stored : List Stored)
    (passes : List Pass) : Prop where
  unused : ∀ r ∈ rows, ∃ s ∈ stored, r.challengeHash = S.sha256 s.challenge ∧
    r.expiresAt = s.createdAt + oauthChallengeTtlMs ∧ some s.challenge ∉ passes.map Pass.nonce
  distinct : (rows.map OAuthChallenge.challengeHash).Nodup
  once : (passes.map Pass.nonce).Nodup
  valid : ∀ pass ∈ passes, pass.Valid
  known : ∀ pass ∈ passes, ∃ s ∈ stored, pass.nonce = some s.challenge

section Fresh

variable {S : Settings} {rows : List OAuthChallenge} {stored : List Stored} {passes : List Pass}

theorem Fresh.empty : Fresh S [] [] [] :=
  ⟨by simp, by simp, by simp, by simp, by simp⟩

/-- A new challenge. -/
theorem Fresh.store {row : OAuthChallenge} {s : Stored} (h : Fresh S rows stored passes)
    (hnew : s.challenge ∉ stored.map Stored.challenge)
    (hhash : row.challengeHash = S.sha256 s.challenge)
    (hexpires : row.expiresAt = s.createdAt + oauthChallengeTtlMs)
    (hfree : ∀ c ∈ rows, c.challengeHash ≠ row.challengeHash) :
    Fresh S (rows ++ [row]) (s :: stored) passes := by
  refine ⟨fun r hr => ?_, ?_, h.once, h.valid, fun pass hpass => ?_⟩
  · rcases List.mem_append.mp hr with hr | hr
    · obtain ⟨s', hs', hrest⟩ := h.unused r hr
      exact ⟨s', List.mem_cons_of_mem _ hs', hrest⟩
    · rw [List.mem_singleton.mp hr]
      refine ⟨s, List.mem_cons_self, hhash, hexpires, fun hused => ?_⟩
      -- whatever was used had been stored
      obtain ⟨pass, hpass, hnonce⟩ := List.mem_map.mp hused
      obtain ⟨s', hs', hknown⟩ := h.known pass hpass
      rw [hnonce, Option.some.injEq] at hknown
      exact hnew (hknown ▸ List.mem_map_of_mem hs')
  · rw [List.map_append, List.nodup_append]
    refine ⟨h.distinct, by simp, fun x hx y hy => ?_⟩
    obtain ⟨c, hc, rfl⟩ := List.mem_map.mp hx
    obtain rfl : y = row.challengeHash := by simpa using hy
    exact hfree c hc
  · obtain ⟨s', hs', hnonce⟩ := h.known pass hpass
    exact ⟨s', List.mem_cons_of_mem _ hs', hnonce⟩

/-- A challenge is used. -/
theorem Fresh.use {c : OAuthChallenge} {nonce : String} {p : Pid} {time : Timestamp}
    (h : Fresh S rows stored passes) (hsha : Function.Injective S.sha256) (hc : c ∈ rows)
    (hhash : c.challengeHash = S.sha256 nonce) (htime : time < c.expiresAt) :
    Fresh S (rows.filter fun r => !decide (r.id = c.id)) stored
      (⟨p, some nonce, some time, stored⟩ :: passes) := by
  obtain ⟨s, hs, hshash, hexpires, hunused⟩ := h.unused c hc
  obtain rfl : nonce = s.challenge := hsha (hhash.symm.trans hshash)
  rw [hexpires] at htime
  refine ⟨fun r hr => ?_, ?_, ?_, fun pass hpass => ?_, fun pass hpass => ?_⟩
  · obtain ⟨hr, hid⟩ := List.mem_filter.mp hr
    obtain ⟨s', hs', hrhash, hrexpires, hfree⟩ := h.unused r hr
    refine ⟨s', hs', hrhash, hrexpires, fun hused => ?_⟩
    rcases List.mem_cons.mp hused with hsame | hused
    · -- one row for every challenge
      have heq : r.challengeHash = c.challengeHash := by
        rw [hrhash, hhash, Option.some.inj hsame]
      have hrow : r = c := List.inj_on_of_nodup_map h.distinct hr hc heq
      simp [hrow] at hid
    · exact hfree hused
  · exact h.distinct.sublist (List.filter_sublist.map _)
  · exact List.nodup_cons.mpr ⟨hunused, h.once⟩
  · rcases List.mem_cons.mp hpass with rfl | hpass
    · exact ⟨s, hs, rfl, time, rfl, htime⟩
    · exact h.valid pass hpass
  · rcases List.mem_cons.mp hpass with rfl | hpass
    · exact ⟨s, hs, rfl⟩
    · exact h.known pass hpass

end Fresh

/-! ## §4. What a call holds. -/

/-- The challenge that a call of `createChallenge` has drawn and not stored. -/
def held (v : Visit) : Option String :=
  match v.op with
  | some (.createChallenge _) => if v.stored then none else v.drawn
  | _ => none

section Visits

variable {v : Visit} {op : Op} {β : Type} {a : Act β} {b : β}

/-- The step neither draws nor stores. -/
theorem held_next (hop : v.op = some op) (hdraws : drawing op a = false)
    (hstores : storing op a b = false) : held (v.next a b) = held v := by
  unfold held
  rw [v.next_op, hop]
  cases op with
  | createChallenge provider =>
      cases a with
      | random => cases hdraws
      | query s =>
          cases b with
          | error x => rfl
          | ok r =>
              cases s with
              | insertChallenge provider hash expiresAt => cases hstores
              | findUser cond =>
                  show (if (if v.inside then _ else _ : Visit).stored then none else
                    (if v.inside then _ else _ : Visit).drawn) = _
                  split <;> rfl
              | insertUser x =>
                  show (if (if v.inside then _ else _ : Visit).stored then none else
                    (if v.inside then _ else _ : Visit).drawn) = _
                  split <;> rfl
              | _ => rfl
      | begin => cases b <;> rfl
      | _ => rfl
  | _ => rfl

theorem passed_next : (v.next a b).passed = (v.passed || passing a b) := by
  cases a with
  | query s =>
      cases b with
      | error x => cases s <;> exact (Bool.or_false _).symm
      | ok r =>
          cases s with
          | consumeChallenge provider hash time => rfl
          | findUser cond =>
              show (if v.inside then _ else _ : Visit).passed = _
              split <;> exact (Bool.or_false _).symm
          | insertUser x =>
              show (if v.inside then _ else _ : Visit).passed = _
              split <;> exact (Bool.or_false _).symm
          | _ => exact (Bool.or_false _).symm
  | begin => cases b <;> exact (Bool.or_false _).symm
  | _ => exact (Bool.or_false _).symm

/-- A token is read before the challenge check only. -/
theorem nonce_next {S : Settings} (hallow : v.Allows S op a) (hop : op.isGoogle = true)
    (hpassed : (v.next a b).passed = true) : (v.next a b).nonce = v.nonce := by
  have hpayload : (v.next a b).payload = v.payload := by
    cases a with
    | verifyIdToken idToken audience =>
        have hunpassed := (hallow.grounds hop).2
        rw [passed_next, hunpassed] at hpassed
        cases hpassed
    | query s =>
        cases b with
        | error x => rfl
        | ok r =>
            cases s with
            | findUser cond =>
                show (if v.inside then _ else _ : Visit).payload = _
                split <;> rfl
            | insertUser x =>
                show (if v.inside then _ else _ : Visit).payload = _
                split <;> rfl
            | _ => rfl
    | begin => cases b <;> rfl
    | _ => rfl
  unfold Visit.nonce
  rw [hpayload]

end Visits

/-! ## §5. The invariant. -/

/-- The table and the challenges agree. -/
structure Sheet (S : Settings) (w : World) (o : Book) (gs : Pid → Visit) : Prop where
  autocommits : Autocommits w.tables
  tickets : Tickets o.drawn (o.stored.map Stored.challenge) fun p => held (gs p)
  fresh : Fresh S w.db.oauthChallenges.rows o.stored o.passes

/-- What holds in every reachable configuration. -/
structure Kept (S : Settings) (w : World) (o : Book) (gs : Pid → Visit) : Prop
    extends Sheet S w o gs where
  same : ∀ p, (gs p).op ≠ none → o.visits p = gs p
  google : ∀ p, (gs p).passed = true → ∃ op, (gs p).op = some op ∧ op.isGoogle = true
  recorded : ∀ p, (gs p).passed = true → ∃ pass ∈ o.passes, pass.pid = p ∧
    pass.nonce = (gs p).nonce
  quiet : ∀ p op, (gs p).op = some op → op.isGoogle = true → (gs p).passed = false →
    o.changes p = []

namespace Kept

variable {S : Settings} {w w' : World} {o : Book} {gs : Pid → Visit} {p : Pid} {op : Op}
  {β : Type} {a : Act β} {e : Env} {b : β}

theorem boot (S : Settings) {d : Db} (clock : Timestamp) (hd : d.oauthChallenges = Table.empty) :
    Kept S (World.boot d clock) Book.blank fun _ => Visit.idle := by
  have hunpassed : Visit.idle.passed ≠ true := by decide
  refine ⟨⟨fun _ _ hp => ?_, Tickets.empty, ?_⟩, fun _ h => absurd rfl h,
    fun _ hp => absurd hp hunpassed, fun _ hp => absurd hp hunpassed, fun _ _ hop => ?_⟩
  · cases hp
  · show Fresh S d.oauthChallenges.rows [] []
    rw [hd]
    exact Fresh.empty
  · cases hop

theorem invoke (h : Kept S w o gs) (op : Op) :
    Kept S w (o.opened p op) (Function.update gs p (Visit.fresh op)) := by
  have hself : Function.update gs p (Visit.fresh op) p = Visit.fresh op :=
    Function.update_self _ _ _
  have hother : ∀ {q}, q ≠ p → Function.update gs p (Visit.fresh op) q = gs q :=
    fun hq => Function.update_of_ne hq _ _
  refine ⟨⟨h.autocommits, h.tickets.keep fun q k hk => ?_, h.fresh⟩, fun q hq => ?_,
    fun q hq => ?_, fun q hq => ?_, fun q op' hop hgoogle hpassed => ?_⟩
  · by_cases hqp : q = p
    · subst hqp
      rw [hself] at hk
      cases op <;> cases hk
    · rw [hother hqp] at hk
      exact hk
  · by_cases hqp : q = p
    · subst hqp
      rw [hself]
      exact Function.update_self _ _ _
    · rw [hother hqp] at hq ⊢
      exact (Function.update_of_ne hqp _ _).trans (h.same q hq)
  · by_cases hqp : q = p
    · subst hqp
      rw [hself] at hq
      cases hq
    · rw [hother hqp] at hq ⊢
      exact h.google q hq
  · by_cases hqp : q = p
    · subst hqp
      rw [hself] at hq
      cases hq
    · rw [hother hqp] at hq ⊢
      exact h.recorded q hq
  · by_cases hqp : q = p
    · subst hqp
      exact Function.update_self _ _ _
    · rw [hother hqp] at hop hpassed
      exact (Function.update_of_ne hqp _ _).trans (h.quiet q op' hop hgoogle hpassed)

theorem ambient (h : Kept S w o gs) (hx : Accounts.ambient e w = some w') : Kept S w' o gs := by
  obtain ⟨hpending, -⟩ := ambient_frame hx
  refine ⟨⟨?_, h.tickets, ?_⟩, h.same, h.google, h.recorded, h.quiet⟩
  · unfold Autocommits
    rw [hpending]
    exact h.autocommits
  · rw [ambient_oauthChallenges hx]
    exact h.fresh

theorem reboot (h : Kept S w o gs) (hx : Accounts.reboot e w = some w') (alive : Pid → Bool) :
    Kept S w' o.rebooted fun p => if alive p then (gs p).settle else Visit.idle := by
  have hcases : ∀ q, (alive q = true ∧ (if alive q then (gs q).settle else Visit.idle) =
      (gs q).settle) ∨ (if alive q then (gs q).settle else Visit.idle) = Visit.idle := by
    intro q
    cases halive : alive q with
    | true => exact Or.inl ⟨rfl, rfl⟩
    | false => exact Or.inr rfl
  cases hx
  refine ⟨⟨nofun, h.tickets.keep fun q k hk => ?_, h.fresh⟩, fun q hq => ?_, fun q hq => ?_,
    fun q hq => ?_, fun q op hop hgoogle hpassed => ?_⟩
  · rcases hcases q with ⟨-, hcase⟩ | hcase
    · rw [hcase] at hk
      exact hk
    · rw [hcase] at hk
      cases hk
  · rcases hcases q with ⟨-, hcase⟩ | hcase
    · rw [hcase] at hq ⊢
      exact congrArg Visit.settle (h.same q hq)
    · rw [hcase] at hq
      exact absurd rfl hq
  · rcases hcases q with ⟨-, hcase⟩ | hcase
    · rw [hcase] at hq ⊢
      exact h.google q hq
    · rw [hcase] at hq
      cases hq
  · rcases hcases q with ⟨-, hcase⟩ | hcase
    · rw [hcase] at hq ⊢
      exact h.recorded q hq
    · rw [hcase] at hq
      cases hq
  · rcases hcases q with ⟨-, hcase⟩ | hcase
    · rw [hcase] at hop hpassed
      exact h.quiet q op hop hgoogle hpassed
    · rw [hcase] at hop
      cases hop

/-- What the step of one call does to the calls. -/
theorem step_calls (h : Kept S w o gs) (hA : Attended w gs) (hop : (gs p).op = some op)
    (hallow : (gs p).Allows S op a) (hx : exec S p a e w = some (b, w')) :
    (∀ q, (Function.update gs p ((gs p).next a b) q).op ≠ none →
      (o.step w p op a b w').visits q = Function.update gs p ((gs p).next a b) q) ∧
    (∀ q, (Function.update gs p ((gs p).next a b) q).passed = true →
      ∃ op, (Function.update gs p ((gs p).next a b) q).op = some op ∧ op.isGoogle = true) ∧
    (∀ q, (Function.update gs p ((gs p).next a b) q).passed = true →
      ∃ pass ∈ (o.step w p op a b w').passes, pass.pid = q ∧
        pass.nonce = (Function.update gs p ((gs p).next a b) q).nonce) ∧
    (∀ q op', (Function.update gs p ((gs p).next a b) q).op = some op' → op'.isGoogle = true →
      (Function.update gs p ((gs p).next a b) q).passed = false →
      (o.step w p op a b w').changes q = []) := by
  have hvisit : o.visits p = gs p := h.same p (by rw [hop]; exact Option.some_ne_none _)
  have hself : Function.update gs p ((gs p).next a b) p = (gs p).next a b :=
    Function.update_self _ _ _
  have hother : ∀ {q}, q ≠ p → Function.update gs p ((gs p).next a b) q = gs q :=
    fun hq => Function.update_of_ne hq _ _
  -- whoever is through the check is a call of a Google route
  have hgoogle : ((gs p).next a b).passed = true → op.isGoogle = true := by
    intro hpassed
    rw [passed_next, Bool.or_eq_true] at hpassed
    rcases hpassed with hold | hnew
    · obtain ⟨op', hop', hg⟩ := h.google p hold
      rw [hop, Option.some.injEq] at hop'
      exact hop' ▸ hg
    · cases a with
      | query s =>
          cases s with
          | consumeChallenge provider hash time => exact hallow.grounds.2.2.1
          | _ => cases hnew
      | _ => cases hnew
  have hkeep : ∀ pass ∈ o.passes, pass ∈ (o.step w p op a b w').passes := by
    intro pass hpass
    show pass ∈ if passing a b then _ else o.passes
    split
    next => exact List.mem_cons_of_mem _ hpass
    next => exact hpass
  refine ⟨fun q hq => ?_, fun q hq => ?_, fun q hq => ?_, fun q op' hop' hg hq => ?_⟩
  · by_cases hqp : q = p
    · subst hqp
      rw [hself]
      show Function.update o.visits q ((o.visits q).next a b) q = _
      rw [Function.update_self, hvisit]
    · rw [hother hqp] at hq ⊢
      exact (Function.update_of_ne hqp _ _).trans (h.same q hq)
  · by_cases hqp : q = p
    · subst hqp
      rw [hself] at hq ⊢
      exact ⟨op, ((gs q).next_op a b).trans hop, hgoogle hq⟩
    · rw [hother hqp] at hq ⊢
      exact h.google q hq
  · by_cases hqp : q = p
    · subst hqp
      rw [hself] at hq ⊢
      rw [nonce_next hallow (hgoogle hq) hq]
      cases hpassing : passing a b with
      | true =>
          refine ⟨⟨q, (o.visits q).nonce, (o.visits q).now, o.stored⟩, ?_, rfl, ?_⟩
          · show _ ∈ if passing a b then _ else o.passes
            rw [hpassing]
            exact List.mem_cons_self
          · rw [hvisit]
      | false =>
          rw [passed_next, hpassing, Bool.or_false] at hq
          obtain ⟨pass, hpass, hrest⟩ := h.recorded q hq
          exact ⟨pass, hkeep pass hpass, hrest⟩
    · rw [hother hqp] at hq ⊢
      obtain ⟨pass, hpass, hrest⟩ := h.recorded q hq
      exact ⟨pass, hkeep pass hpass, hrest⟩
  · by_cases hqp : q = p
    · subst hqp
      rw [hself] at hop' hq
      rw [(gs q).next_op, hop, Option.some.injEq] at hop'
      subst hop'
      rw [passed_next, Bool.or_eq_false_iff] at hq
      have hdb : w'.db = w.db := by
        have hcheck := hallow.unpassed hg hq.1
        cases a with
        | query s =>
            cases s with
            | consumeChallenge provider hash time =>
                have hp := hA.outside hallow.grounds.1
                rcases autocommit_step hp hx with ⟨-, rfl⟩ | ⟨rfl, -, hdb⟩
                · rfl
                · rcases plan_consumeChallenge w.clock e w.db provider hash time with
                    ⟨c, -, -, -, hanswer, -⟩ | ⟨-, hwrites⟩
                  · rw [hanswer] at hq
                    cases hq.2
                  · rw [hdb, hwrites]
                    rfl
            | _ => cases hcheck
        | begin => cases hcheck
        | commit => cases hcheck
        | rollback => cases hcheck
        | _ => exact congrArg Store.committed (exec_silent rfl hx)
      show o.changes.step w q w' q = []
      rw [Ledger.step_of_eq hdb]
      exact h.quiet q op hop hg hq.1
    · rw [hother hqp] at hop' hq
      exact (Ledger.step_of_ne hqp).trans (h.quiet q op' hop' hg hq)

/-- The step has no part in the challenges. -/
theorem step_other (h : Kept S w o gs) (hop : (gs p).op = some op)
    (hpower : Power.challenge ∉ a.powers) (hdraws : drawing op a = false)
    (hstores : storing op a b = false) (hpasses : passing a b = false)
    (hx : exec S p a e w = some (b, w')) :
    Sheet S w' (o.step w p op a b w') (Function.update gs p ((gs p).next a b)) := by
  obtain ⟨hautocommits, hrows⟩ := other_step h.autocommits hpower hx
  simp only [Book.step, hdraws, hstores, hpasses]
  refine ⟨hautocommits, h.tickets.keep fun q k hk => ?_, ?_⟩
  · by_cases hq : q = p
    · subst hq
      rw [Function.update_self, held_next hop hdraws hstores] at hk
      exact hk
    · rw [Function.update_of_ne hq] at hk
      exact hk
  · rw [hrows]
    exact h.fresh

/-- `createChallenge` draws a challenge nobody has drawn. -/
theorem step_draw {text : String} (h : Kept S w o gs) (hop : (gs p).op = some op)
    (hdraws : drawing op Act.random = true) (hnew : text ∉ o.drawn) :
    Tickets (o.step w p op .random text w').drawn
      ((o.step w p op .random text w').stored.map Stored.challenge)
      (fun q => held (Function.update gs p ((gs p).next .random text) q)) := by
  have hdrawn : (o.step w p op .random text w').drawn = text :: o.drawn := by
    show (if drawing op Act.random then _ else _) = _
    rw [hdraws]
    rfl
  have hstored : (o.step w p op .random text w').stored = o.stored := by
    show (if storing op Act.random text then _ else o.stored) = _
    cases op <;> rfl
  rw [hdrawn, hstored]
  obtain ⟨provider, rfl⟩ : ∃ provider, op = .createChallenge provider := by
    cases op with
    | createChallenge provider => exact ⟨provider, rfl⟩
    | _ => cases hdraws
  have hheld : held ((gs p).next .random text) = if (gs p).stored then none else some text := by
    show (match (gs p).op with
      | some (.createChallenge _) => _
      | _ => none) = _
    rw [hop]
    rfl
  cases hold : (gs p).stored with
  | true =>
      -- it has stored one before, and holds no other
      refine (h.tickets.keep fun q k hk => ?_).widen (List.subset_cons_self _ _)
      by_cases hq : q = p
      · subst hq
        rw [Function.update_self, hheld, hold] at hk
        cases hk
      · rw [Function.update_of_ne hq] at hk
        exact hk
  | false =>
      refine h.tickets.take hnew (p := p) ?_ fun q hq => ?_
      · show held (Function.update gs p _ p) = some text
        rw [Function.update_self, hheld, hold]
        rfl
      · show held (Function.update gs p _ q) = _
        rw [Function.update_of_ne hq]

/-- `createChallenge` stores the challenge it holds, or is refused. -/
theorem step_store {provider : OAuthChallengeProvider} {hash : String} {expiresAt : Timestamp}
    {b : Except Exn Unit} (h : Kept S w o gs) (hA : Attended w gs) (hop : (gs p).op = some op)
    (hallow : (gs p).Allows S op (.query (.insertChallenge provider hash expiresAt)))
    (hx : exec S p (.query (.insertChallenge provider hash expiresAt)) e w = some (b, w')) :
    Sheet S w' (o.step w p op (.query (.insertChallenge provider hash expiresAt)) b w')
      (Function.update gs p ((gs p).next (.query (.insertChallenge provider hash expiresAt))
        b)) := by
  have hvisit : o.visits p = gs p := h.same p (by rw [hop]; exact Option.some_ne_none _)
  obtain ⟨hinside, hunstored, ⟨provider', rfl⟩, challenge, time, hdrawn, hnow, rfl, rfl⟩ :=
    hallow.grounds
  -- a refused INSERT changes nothing
  have hrefused : ∀ x, b = .error x → w'.tables.pending = w.tables.pending → w'.db = w.db →
      Sheet S w' (o.step w p (.createChallenge provider') (.query (.insertChallenge provider
        (S.sha256 challenge) (time + oauthChallengeTtlMs))) b w') (Function.update gs p
          ((gs p).next (.query (.insertChallenge provider (S.sha256 challenge)
            (time + oauthChallengeTtlMs))) b)) := by
    intro x hb hpending hdb
    subst hb
    refine ⟨?_, ?_, ?_⟩
    · unfold Autocommits
      rw [hpending]
      exact h.autocommits
    · refine h.tickets.keep fun q k hk => ?_
      by_cases hq : q = p
      · subst hq
        rw [Function.update_self] at hk
        exact hk
      · rw [Function.update_of_ne hq] at hk
        exact hk
    · rw [hdb]
      exact h.fresh
  rcases autocommit_step (hA.outside hinside) hx with ⟨hb, rfl⟩ | ⟨hb, hpending, hdb⟩
  · exact hrefused _ hb rfl rfl
  · rcases plan_insertChallenge w.clock e w.db provider (S.sha256 challenge)
      (time + oauthChallengeTtlMs) with ⟨hanswer, hrows, hfree⟩ | ⟨⟨x, hanswer⟩, hwrites⟩
    · rw [hanswer] at hb
      subst hb
      have hheld : held (gs p) = some challenge := by
        unfold held
        rw [hop, hunstored]
        exact hdrawn
      have hentry : entry (o.visits p) = [⟨challenge, time⟩] := by
        unfold entry
        rw [hvisit, hdrawn, hnow]
      have hstored : (o.step w p (.createChallenge provider') (.query (.insertChallenge provider
          (S.sha256 challenge) (time + oauthChallengeTtlMs))) (.ok ()) w').stored =
          ⟨challenge, time⟩ :: o.stored := by
        show entry (o.visits p) ++ o.stored = _
        rw [hentry]
        rfl
      refine ⟨?_, ?_, ?_⟩
      · unfold Autocommits
        rw [hpending]
        exact h.autocommits
      · rw [hstored]
        refine h.tickets.spend (p := p) hheld ?_ fun q hq => ?_
        · show held (Function.update gs p _ p) = none
          rw [Function.update_self]
          unfold held
          rw [(gs p).next_op, hop]
          rfl
        · show held (Function.update gs p _ q) = _
          rw [Function.update_of_ne hq]
      · rw [hstored, hdb, hrows]
        exact h.fresh.store (h.tickets.holds hheld).2 rfl rfl hfree
    · rw [hanswer] at hb
      rw [hwrites] at hdb
      exact hrefused x hb hpending hdb

/-- The challenge check uses the challenge it names, or finds none. -/
theorem step_use {provider : OAuthChallengeProvider} {hash : String} {time : Timestamp}
    {b : Except Exn (Option ChallengeId)} (h : Kept S w o gs) (hA : Attended w gs)
    (hsha : Function.Injective S.sha256) (hop : (gs p).op = some op)
    (hallow : (gs p).Allows S op (.query (.consumeChallenge provider hash time)))
    (hx : exec S p (.query (.consumeChallenge provider hash time)) e w = some (b, w')) :
    Autocommits w'.tables ∧
      Fresh S w'.db.oauthChallenges.rows o.stored
        (o.step w p op (.query (.consumeChallenge provider hash time)) b w').passes := by
  have hvisit : o.visits p = gs p := h.same p (by rw [hop]; exact Option.some_ne_none _)
  obtain ⟨hinside, -, -, nonce, hnonce, hnow, rfl⟩ := hallow.grounds
  rcases autocommit_step (hA.outside hinside) hx with ⟨rfl, rfl⟩ | ⟨hb, hpending, hdb⟩
  · exact ⟨h.autocommits, h.fresh⟩
  · have hautocommits : Autocommits w'.tables := by
      unfold Autocommits
      rw [hpending]
      exact h.autocommits
    refine ⟨hautocommits, ?_⟩
    rcases plan_consumeChallenge w.clock e w.db provider (S.sha256 nonce) time with
      ⟨c, hc, hhash, htime, hanswer, hrows⟩ | ⟨hanswer, hwrites⟩
    · rw [hanswer] at hb
      subst hb
      rw [hdb, hrows]
      show Fresh S _ o.stored (⟨p, (o.visits p).nonce, (o.visits p).now, o.stored⟩ :: o.passes)
      rw [hvisit, hnonce, hnow]
      exact h.fresh.use hsha hc hhash htime
    · rw [hanswer] at hb
      subst hb
      rw [hdb, hwrites]
      exact h.fresh

/-- **One step.** -/
theorem step (h : Kept S w o gs) (hA : Attended w gs) (hsha : Function.Injective S.sha256)
    (hop : (gs p).op = some op) (hallow : (gs p).Allows S op a)
    (hguard : watch.guard o w p op a e = true) (hx : exec S p a e w = some (b, w')) :
    Kept S w' (o.step w p op a b w') (Function.update gs p ((gs p).next a b)) := by
  have hsheet : Sheet S w' (o.step w p op a b w') (Function.update gs p ((gs p).next a b)) := by
    have hother : Power.challenge ∉ a.powers → drawing op a = false → storing op a b = false →
        passing a b = false →
        Sheet S w' (o.step w p op a b w') (Function.update gs p ((gs p).next a b)) := fun hpower hdraws hstores hpasses =>
      h.step_other hop hpower hdraws hstores hpasses hx
    cases a with
    | random =>
        cases hdraws : drawing op Act.random with
        | false => exact hother (by decide) hdraws (by cases op <;> rfl) rfl
        | true =>
            cases hx
            have hnew : e.text ∉ o.drawn := by
              simpa [watch, hdraws] using hguard
            have hkeep : (o.step w p op .random e.text w).stored = o.stored := by
              show (if storing op Act.random e.text then _ else o.stored) = _
              cases op <;> rfl
            refine ⟨h.autocommits, h.step_draw hop hdraws hnew, ?_⟩
            rw [hkeep]
            exact h.fresh
    | query s =>
        cases s with
        | insertChallenge provider hash expiresAt => exact h.step_store hA hop hallow hx
        | consumeChallenge provider hash time =>
            obtain ⟨hautocommits, hfresh⟩ := h.step_use hA hsha hop hallow hx
            have hdraws : drawing op (.query (.consumeChallenge provider hash time)) = false := by
              cases op <;> rfl
            have hstores : storing op (.query (.consumeChallenge provider hash time)) b =
                false := by
              cases op <;> rfl
            have hkeep : (o.step w p op (.query (.consumeChallenge provider hash time)) b
                w').drawn = o.drawn ∧ (o.step w p op (.query (.consumeChallenge provider hash
                  time)) b w').stored = o.stored := by
              simp only [Book.step, hdraws, hstores]
              exact ⟨rfl, rfl⟩
            refine ⟨hautocommits, ?_, ?_⟩
            · rw [hkeep.1, hkeep.2]
              refine h.tickets.keep fun q k hk => ?_
              by_cases hq : q = p
              · subst hq
                rw [Function.update_self, held_next hop hdraws hstores] at hk
                exact hk
              · rw [Function.update_of_ne hq] at hk
                exact hk
            · rw [hkeep.2]
              exact hfresh
        | _ =>
            exact hother (by simp [Act.powers, Stmt.powers, UserPatch.powers])
              (by cases op <;> rfl) (by cases op <;> rfl) rfl
    | sign payload ttl =>
        exact hother (by cases payload <;> simp [Act.powers]) (by cases op <;> rfl) (by cases op <;> rfl) rfl
    | _ =>
        exact hother (by simp [Act.powers]) (by cases op <;> rfl) (by cases op <;> rfl) rfl
  obtain ⟨hsame, hgoogle, hrecorded, hquiet⟩ := h.step_calls hA hop hallow hx
  exact ⟨hsheet, hsame, hgoogle, hrecorded, hquiet⟩

end Kept

/-! ## §6. Runs. -/

/-- **An OAuth challenge is single-use.**  From an installation without
challenges, in every interleaving of all the account calls, if SHA-256 is
injective and `createChallenge` draws fresh values, then: no nonce gets two
calls through the challenge check; whoever gets through names a challenge that
`createChallenge` had stored, less than five minutes old; a call of the Google
routes returns only if it got through; and a call that has not got through has
changed nothing. -/
theorem challenges_single_use {S : Settings} (hsha : Function.Injective S.sha256) {d : Db}
    (hd : d.oauthChallenges = Table.empty) {clock : Timestamp} {c : Conf} {o : Book}
    (h : (system S).Reach watch (Config.init (World.boot d clock)) Book.blank c o) :
    (o.passes.map Pass.nonce).Nodup ∧ (∀ pass ∈ o.passes, pass.Valid) ∧
      (∀ p op r, op.isGoogle = true → c.returned p op r → (o.visits p).passed = true) ∧
      (∀ p op, (c.calls p).map Task.op = some op → (o.visits p).passed = true →
        ∃ pass ∈ o.passes, pass.pid = p ∧ pass.nonce = (o.visits p).nonce) ∧
      ∀ p op, (c.calls p).map Task.op = some op → op.isGoogle = true →
        (o.visits p).passed = false → o.changes p = [] := by
  obtain ⟨gs, -, hK, hT⟩ := visited_run (S := S) (V := watch) (Kept S)
    (fun {_ _ _ _ op} _ hK _ _ => hK.invoke op)
    (fun hA hK hop hallow hguard hx => hK.step hA hsha hop hallow hguard hx)
    (fun hK hx => hK.ambient hx) (fun alive hK hx => hK.reboot hx alive)
    (Kept.boot S clock hd) h
  have hsame : ∀ {p op}, (c.calls p).map Task.op = some op →
      o.visits p = gs p ∧ (gs p).op = some op := by
    intro p op hp
    have hop := visited_op hT hp
    exact ⟨hK.same p (by rw [hop]; exact Option.some_ne_none _), hop⟩
  refine ⟨hK.fresh.once, hK.fresh.valid, fun p op r hgoogle hr => ?_, fun p op hp hpassed => ?_,
    fun p op hp hgoogle hpassed => ?_⟩
  · have hcall : (c.calls p).map Task.op = some op := by
      rw [hr]
      rfl
    rw [(hsame hcall).1]
    exact (hT.returned hr).1.passed hgoogle
  · rw [(hsame hp).1] at hpassed ⊢
    exact hK.recorded p hpassed
  · obtain ⟨hvisit, hop⟩ := hsame hp
    rw [hvisit] at hpassed
    exact hK.quiet p op hop hgoogle hpassed

/-! ## §7. A run. -/

/-- The installation with a Google client. -/
def googleSettings : Settings := { sampleSettings with googleClientId := some "client" }

/-- Google vouches for steve, with the nonce `nonce`. -/
def steveToken (nonce : String) : GoogleTokenPayload where
  iss := some "accounts.google.com"
  sub := some "108"
  email := some "steve@example.com"
  emailVerified := true
  nonce := some nonce
  name := none
  iat := some 1700000000
  exp := some 1700003600

/-- A challenge is drawn; two calls bring it back at once. -/
def raceEvents : List (Event Env Op) :=
  [.invoke 0 (.createChallenge .google), .step 0 { text := jti₁ }, .step 0 {}, .step 0 { uuid := 5 },
   .invoke 1 (.googleLogin "credential"), .invoke 2 (.googleLink 3 "credential"),
   .step 1 { payload := some (steveToken jti₁) }, .step 2 { payload := some (steveToken jti₁) },
   .step 1 {}, .step 2 {}, .step 1 {}, .step 2 {}, .step 1 {}, .step 2 {}]

/-- Sign-in gets through, linking does not. -/
def raceTest (c : Conf) (o : Book) : Bool :=
  decide (o.passes.map Pass.nonce = [some jti₁]) && !(o.visits 2).passed &&
    decide ((c.calls 2).map Task.op = some (.googleLink 3 "credential")) &&
    decide ((c.failure 2).isSome = true)

theorem raceRun_single_use : ∃ c o,
    (system googleSettings).Reach watch (Config.init sampleWorld) Book.blank c o ∧
      o.passes.map Pass.nonce = [some jti₁] ∧ (c.failure 2).isSome = true ∧
      (∀ pass ∈ o.passes, pass.Valid) ∧ o.changes 2 = [] := by
  obtain ⟨c, o, h, ht⟩ := System.Reach.of_replay (S := system googleSettings) (V := watch)
    sampleWorld Book.blank raceEvents raceTest (by decide +kernel)
  simp only [raceTest, Bool.and_eq_true, decide_eq_true_eq, Bool.not_eq_true'] at ht
  obtain ⟨⟨⟨hpasses, hpassed⟩, hcall⟩, hfailed⟩ := ht
  obtain ⟨-, hvalid, -, -, hquiet⟩ := challenges_single_use sampleSha256_injective rfl h
  exact ⟨c, o, h, hpasses, hfailed, hvalid, hquiet 2 _ hcall rfl hpassed⟩

end OAuth

end MinePanel.Accounts
