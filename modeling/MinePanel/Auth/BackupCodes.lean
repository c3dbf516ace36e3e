/-
  MinePanel.Auth.BackupCodes
  ──────────────────────────
  **A FAILED COMPLETION AND ITS BACKUP CODE.**

  `completeTwoFactorLogin` compares the temporary credential with the row it has
  read, removes the backup code by an UPDATE of its own, and only then consumes
  the credential by another.  Where the credential is consumed, replaced or runs
  out in between, the second UPDATE finds no row: the call fails and its code is
  gone (`lostCode`).  Where it stands until then, a call that fails has removed
  no code (`failed_completion_keeps_codes`).

    * `Trail`, `trail` — what a call has read and removed;
    * `undisturbed` — the runs in which the credential stands;
    * `pausing` — the monitor, which knows what a standing credential answers.
-/
import MinePanel.Auth.Recovery

namespace MinePanel.Accounts

open MinePanel.Db MinePanel.Lib Prog

namespace BackupCodes

/-! ## §1. The history. -/

/-- One call. -/
structure Trail where
  started : Bool := false
  /-- It is a `verify2FA`. -/
  completing : Bool := false
  /-- The account, as the call last read it. -/
  seen : Option User := none
  /-- Its last look at the clock. -/
  looked : Option Timestamp := none
  /-- It has changed the stored backup codes of somebody. -/
  burned : Bool := false
  deriving Repr, DecidableEq

/-- What a step with its answer tells the call. -/
def Trail.note (t : Trail) : ∀ {β : Type}, Act β → β → Trail
  | _, .query (.selectUser _), b => { t with seen := b.toOption.join }
  | _, .now, n => { t with looked := some n }
  | _, _, _ => t

/-- An account has other backup codes than before. -/
def changesCodes (d d' : Db) : Bool :=
  d.users.rows.any fun u => (d'.users.get u.id).any fun u' =>
    decide (u'.totpBackupCodes ≠ u.totpBackupCodes)

/-- `verify2FA`. -/
def isCompletion : Op → Bool
  | .verify2FA _ _ => true
  | _ => false

/-- Every interleaving, with the trail of every call. -/
def trail : Watch Act World Env Op (Pid → Trail) where
  onInvoke := fun o _ p op =>
    Function.update o p { started := true, completing := isCompletion op }
  onStep := fun o w p _ _ a b w' => Function.update o p
    { (o p).note a b with burned := (o p).burned || changesCodes w.db w'.db }

/-- The row still has the temporary credential of the row `seen`, and it has not
run out. -/
def stands (clock : Timestamp) (seen row : User) : Bool :=
  row.mustChangePassword && decide (row.tempPasswordHash = seen.tempPasswordHash) &&
    row.tempPasswordExpiresAt.any fun t => decide (clock < t)

/-- A call that has removed a backup code finds the credential it has read when
it consumes it. -/
def mayConsume (t : Trail) (w : World) (p : Pid) : ∀ {β : Type}, Act β → Bool
  | _, .query (.updateUser id _ set) =>
      !(t.burned && decide (set.tempPasswordExpiresAt = some none)) ||
        t.seen.any fun seen => ((w.view p).users.get id).any (stands w.clock seen)
  | _, _ => true

/-- The runs in which the temporary credential of a completion stands from its
reading to its consumption. -/
def undisturbed : Watch Act World Env Op (Pid → Trail) :=
  { trail with
    guard := fun o w p op _ a _ => !isCompletion op || mayConsume (o p) w p a }

/-- `UnauthorizedException`, `ForbiddenException` and the lockout. -/
def isAuthentication : Exn → Bool
  | .unauthorized _ => true
  | .forbidden _ => true
  | .tooManyRequests _ => true
  | _ => false

/-! ## §2. Which statements change backup codes. -/

/-- An UPDATE of the backup codes that has returned its row. -/
def Burns : ∀ {β : Type}, Act β → β → Prop
  | _, .query (.updateUser _ _ set), b =>
      set.totpBackupCodes.isSome = true ∧ ∃ row, b = .ok (some row)
  | _, _, _ => False

theorem changesCodes_of_rows {d d' : Db}
    (h : ∀ u ∈ d.users.rows, ∀ u', d'.users.get u.id = some u' →
      u'.totpBackupCodes = u.totpBackupCodes) : changesCodes d d' = false := by
  unfold changesCodes
  rw [List.any_eq_false]
  intro u hu hany
  obtain ⟨u', hget, hne⟩ := Option.any_eq_true _ _ |>.mp hany
  exact of_decide_eq_true hne (h u hu u' hget)

theorem changesCodes_of_users {d d' : Db} (h : d'.users = d.users) : changesCodes d d' = false := by
  refine changesCodes_of_rows fun u hu u' hget => ?_
  rw [h, Table.mem_rows.mp hu] at hget
  cases hget
  rfl

/-- A patch without backup codes leaves them. -/
theorem changesCodes_patch {d : Db} {id : UserId} {set : UserPatch} {now : Timestamp}
    (h : set.totpBackupCodes = none) : changesCodes d (d.apply (.updateUser id set now)) = false := by
  refine changesCodes_of_rows fun u hu u' hget => ?_
  have hrow : some (patchUser id set now u) = some u' := by
    rw [← hget]
    show _ = (d.users.modify (patchUser id set now) (patchUser_id id set now)).get u.id
    rw [Table.get_modify, Table.mem_rows.mp hu]
    rfl
  cases hrow
  unfold patchUser
  split
  next =>
    show set.totpBackupCodes.getD u.totpBackupCodes = _
    rw [h]
    rfl
  next => rfl

theorem changesCodes_insert {d : Db} {row : User} :
    changesCodes d (d.apply (.insertUser row)) = false := by
  refine changesCodes_of_rows fun u hu u' hget => ?_
  change ((d.users.insert row).getD d.users).get u.id = some u' at hget
  cases hinsert : d.users.insert row with
  | none =>
      rw [hinsert, Option.getD_none, Table.mem_rows.mp hu] at hget
      cases hget
      rfl
  | some users =>
      rw [hinsert, Option.getD_some, Table.get_insert hinsert, if_neg, Table.mem_rows.mp hu] at hget
      · cases hget
        rfl
      · intro hid
        have hnone := (Table.insert_rows hinsert).2
        rw [hid, Table.mem_rows.mp hu] at hnone
        cases hnone

/-- Only an UPDATE of the codes changes codes. -/
theorem burns_of_plan {α : Type} {now : Timestamp} {e : Env} {d : Db} {s : Stmt α}
    (h : changesCodes d ((plan now e d s).writes.foldl Db.apply d) = true) :
    Burns (.query s) (plan now e d s).answer := by
  have hno : ∀ {d' : Db}, changesCodes d d' = false → changesCodes d d' = true → False :=
    fun hf ht => Bool.false_ne_true (hf.symm.trans ht)
  cases s with
  | updateUser id cond set =>
      simp only [plan] at h ⊢
      split at h
      next => exact (hno (changesCodes_of_users rfl) h).elim
      next u _ =>
        split at h
        next => exact (hno (changesCodes_of_users rfl) h).elim
        next =>
          cases hset : set.totpBackupCodes with
          | none => exact (hno (changesCodes_patch hset) h).elim
          | some codes =>
              exact ⟨by rw [hset]; rfl, set.apply now u, rfl⟩
  | insertUser v =>
      simp only [plan] at h
      split at h
      next => exact (hno (changesCodes_of_users rfl) h).elim
      next =>
        split at h
        next => exact (hno (changesCodes_of_users rfl) h).elim
        next => exact (hno changesCodes_insert h).elim
  | _ =>
      refine (hno (changesCodes_of_users ?_) h).elim
      simp only [plan, Plan.read, Plan.refuse]
      (repeat' split) <;> rfl

/-- A call outside a transaction changes codes by such an UPDATE only. -/
theorem burns_of_exec {S : Settings} {p : Pid} {β : Type} {a : Act β} {e : Env} {b : β}
    {w w' : World} (hp : w.tables.pending p = none) (hx : exec S p a e w = some (b, w'))
    (h : changesCodes w.db w'.db = true) : Burns a b := by
  have hno : ∀ {d d' : Db}, d'.users = d.users → changesCodes d d' = true → False :=
    fun hsame ht => Bool.false_ne_true ((changesCodes_of_users hsame).symm.trans ht)
  cases a with
  | query s =>
      rcases exec_query hx with ⟨-, rfl⟩ | ⟨rfl, -, -, rfl⟩
      · exact (hno rfl h).elim
      · have hview : w.view p = w.db := Store.view_of_none hp
        rw [hview] at h ⊢
        refine burns_of_plan ?_
        rwa [show ({ w with tables := w.tables.put Db.apply p _ _ } : World).db = _ from
          congrArg Store.committed (Store.put_of_none hp)] at h
  | begin =>
      rcases exec_begin hx with ⟨-, rfl⟩ | ⟨-, -, rfl⟩ <;> exact (hno rfl h).elim
  | commit =>
      rcases exec_commit hx with ⟨-, rfl⟩ | ⟨-, rfl⟩
      · exact (hno rfl h).elim
      · refine (hno ?_ h).elim
        exact congrArg Db.users (Store.view_of_none hp)
  | rollback =>
      rw [exec_rollback hx] at h
      exact (hno rfl h).elim
  | _ =>
      refine (hno ?_ h).elim
      exact congrArg (fun tables => tables.committed.users) (exec_silent rfl hx)

/-! ## §3. The monitor. -/

/-- What the consumption of a standing credential answers: a row that stands
does not meet its condition. -/
def Missed (t : Trail) : ∀ {β : Type}, Act β → β → Prop
  | _, .query (.updateUser _ cond set), b =>
      t.burned = true → set.tempPasswordExpiresAt = some none → b = .ok none →
        ∃ seen row clock, t.seen = some seen ∧ stands clock seen row = true ∧
          (∀ n, t.looked = some n → n ≤ clock) ∧ cond row = false
  | _, _, _ => True

/-- `BEGIN`. -/
def isBegin : ∀ {β : Type}, Act β → Bool
  | _, .begin => true
  | _, _ => false

/-- A two-factor completion with its trail: it opens no transaction, and burns a
code by an UPDATE of its own. -/
def pausing (op : Op) : Monitor Act Trail where
  allow := fun _ a => isCompletion op = true → isBegin a = false
  next := fun t a b t' => (∃ burned, t' = { t.note a b with burned := burned }) ∧ Responds a b ∧
    (isCompletion op = true → (t'.burned = true → t.burned = true ∨ Burns a b) ∧ Missed t a b)

/-- What a completion may fail with. -/
def Spared (op : Op) (e : Exn) (t : Trail) : Prop :=
  t.started = true ∧ (isCompletion op = true → isAuthentication e = true → t.burned = false)

theorem note_started (t : Trail) {β : Type} (a : Act β) (b : β) :
    (t.note a b).started = t.started ∧ (t.note a b).completing = t.completing := by
  cases a with
  | query s => cases s <;> exact ⟨rfl, rfl⟩
  | _ => exact ⟨rfl, rfl⟩

section Rules

variable {S : Settings} {op : Op} {α : Type} {t : Trail}

/-- Nothing is asked of the other routes. -/
theorem pausing_other (hop : isCompletion op = false) (p : Call α) (ht : t.started = true) :
    wp (pausing op) (fun _ t => t.started = true) (Spared op) p t := by
  have hno : isCompletion op ≠ true := by simp [hop]
  induction p generalizing t with
  | ret a => exact ht
  | fail e => exact ⟨ht, fun h => absurd h hno⟩
  | act a k ih =>
      refine ⟨fun h => absurd h hno, fun b t' hnext => ih b ?_⟩
      obtain ⟨⟨burned, rfl⟩, -⟩ := hnext
      exact (note_started t a b).1.trans ht

/-- What the database throws is no authentication error. -/
theorem spared_of_database {e : Exn} (ht : t.started = true) (he : Exn.isDatabase e = true) :
    Spared op e t := by
  refine ⟨ht, fun _ hauth => ?_⟩
  cases e <;> simp_all [Exn.isDatabase, isAuthentication]

/-- A step that shows the call nothing and burns nothing. -/
structure Follows (t t' : Trail) : Prop where
  started : t'.started = t.started
  seen : t'.seen = t.seen
  burned : t'.burned = true → t.burned = true

/-- The call has burned nothing. -/
def Unburned (t : Trail) : Prop := t.started = true ∧ t.burned = false

/-- The call works with the row `user`. -/
def Knows (user : User) (t : Trail) : Prop := t.started = true ∧ t.seen = some user

theorem Follows.unburned {t t' : Trail} (h : Follows t t') (ht : Unburned t) : Unburned t' := by
  refine ⟨h.started.trans ht.1, ?_⟩
  cases hb : t'.burned with
  | false => rfl
  | true => exact absurd (ht.2.symm.trans (h.burned hb)) Bool.false_ne_true

theorem Follows.knows {t t' : Trail} {user : User} (h : Follows t t') (ht : Knows user t) :
    Knows user t' := ⟨h.started.trans ht.1, h.seen.trans ht.2⟩

/-- A call that has burned nothing may fail as it likes. -/
theorem Unburned.spared {e : Exn} (h : Unburned t) : Spared op e t := ⟨h.1, fun _ _ => h.2⟩

/-- A step that the trail does not note. -/
theorem pausing_act (hop : isCompletion op = true) {a : Act α} {Q : α → Trail → Prop}
    (hbegin : isBegin a = false) (hnote : ∀ b, t.note a b = t) (hburns : ∀ b, ¬ Burns a b)
    (hQ : ∀ b t', Follows t t' → Q b t') : wp (pausing op) Q (Spared op) (perform a) t := by
  refine wp_perform (fun _ => hbegin) fun b t' hnext => hQ b t' ?_
  obtain ⟨⟨burned, rfl⟩, -, hcompletion⟩ := hnext
  rw [hnote]
  exact ⟨rfl, rfl, fun hb => ((hcompletion hop).1 hb).resolve_right (hburns b)⟩

/-- A look at the clock. -/
theorem pausing_now (hop : isCompletion op = true) {Q : Timestamp → Trail → Prop}
    (hQ : ∀ n t', Follows t t' → t'.looked = some n → Q n t') :
    wp (pausing op) Q (Spared op) (perform .now) t := by
  refine wp_perform (fun _ => rfl) fun n t' hnext => ?_
  obtain ⟨⟨burned, rfl⟩, -, hcompletion⟩ := hnext
  exact hQ n _ ⟨rfl, rfl, fun hb => ((hcompletion hop).1 hb).resolve_right id⟩ rfl

theorem pausing_issueSession (hop : isCompletion op = true) (user : User) (temporaryAuth : Bool)
    (ht : t.started = true) :
    wp (pausing op) (fun _ t => t.started = true) (Spared op)
      (issueSession S user temporaryAuth) t := by
  unfold issueSession buildIssuedRefreshToken
  refine wp_seq (pausing_act hop rfl (fun _ => rfl) (fun _ => id) fun jti t₁ h₁ => ?_)
  refine wp_seq (pausing_act hop rfl (fun _ => rfl) (fun _ => id) fun accessToken t₂ h₂ => ?_)
  refine wp_seq (wp_seq
    (pausing_act hop rfl (fun _ => rfl) (fun _ => id) fun refreshToken t₃ h₃ => ?_))
  refine wp_seq (pausing_now hop fun n t₄ h₄ _ => ?_)
  have ht₄ : t₄.started = true :=
    h₄.started.trans (h₃.started.trans (h₂.started.trans (h₁.started.trans ht)))
  refine wp_seq (wp_query (fun _ => rfl) (fun _ t' hnext => ?_) fun e t' hnext => ?_)
  · obtain ⟨⟨burned, rfl⟩, -⟩ := hnext
    exact ht₄
  · obtain ⟨⟨burned, rfl⟩, hresponds, -⟩ := hnext
    exact spared_of_database ht₄ (hresponds e rfl)

/-- **The second factor**: a code that is gone has been accepted. -/
theorem pausing_verifySecondFactor (hop : isCompletion op = true) (user : User) (token : String)
    (hseen : Knows user t) (hb : Unburned t) :
    wp (pausing op) (fun verified t => Knows user t ∧ (verified = false → Unburned t)) (Spared op)
      (verifySecondFactor S user token) t := by
  unfold verifySecondFactor isValidTotp
  refine wp_seq (wp_seq (pausing_now hop fun n t₁ h₁ _ => ?_))
  show wp _ _ _ (if _ then ret true else verifyAndConsumeBackupCode S user token) _
  split
  next => exact ⟨h₁.knows hseen, fun hno => absurd hno.symm Bool.false_ne_true⟩
  next =>
    unfold verifyAndConsumeBackupCode
    split
    next => exact ⟨h₁.knows hseen, fun _ => h₁.unburned hb⟩
    next codes _ =>
      split
      next => exact ⟨h₁.knows hseen, fun _ => h₁.unburned hb⟩
      next hashedCode _ =>
        refine wp_seq (wp_query (fun _ => rfl) (fun consumed t₂ hnext => ?_) fun e t₂ hnext => ?_)
        · obtain ⟨⟨burned, rfl⟩, -, hcompletion⟩ := hnext
          refine ⟨h₁.knows hseen, fun hno => ⟨(h₁.knows hseen).1, ?_⟩⟩
          -- a code goes where the UPDATE returns its row, and then it is accepted
          cases burned with
          | false => rfl
          | true =>
              rcases (hcompletion hop).1 rfl with hburned | ⟨-, row, hrow⟩
              · exact absurd ((h₁.unburned hb).2.symm.trans hburned) Bool.false_ne_true
              · cases hrow
                cases hno
        · obtain ⟨⟨burned, rfl⟩, hresponds, -⟩ := hnext
          exact spared_of_database (h₁.knows hseen).1 (hresponds e rfl)

/-- **The consumption**: it does not fail on a credential that stands. -/
theorem pausing_consumeTempPassword (hop : isCompletion op = true) (user : User)
    (hseen : Knows user t) (hcredential : (truthy user.tempPasswordHash).isSome = true ∧
      user.tempPasswordExpiresAt.isSome = true) :
    wp (pausing op) (fun _ t => t.started = true) (Spared op) (consumeTempPassword user) t := by
  obtain ⟨tempPasswordHash, hhash⟩ := Option.isSome_iff_exists.mp hcredential.1
  obtain ⟨expiresAt, hexpires⟩ := Option.isSome_iff_exists.mp hcredential.2
  have hstored : user.tempPasswordHash = some tempPasswordHash :=
    (Option.filter_eq_some_iff.mp hhash).1
  unfold consumeTempPassword
  rw [hhash, hexpires]
  refine wp_seq (pausing_now hop fun n t₁ h₁ hlooked => ?_)
  refine wp_seq (wp_query (fun _ => rfl) (fun consumed t₂ hnext => ?_) fun e t₂ hnext => ?_)
  · obtain ⟨⟨burned, rfl⟩, -, hcompletion⟩ := hnext
    cases consumed with
    | some row => exact (h₁.knows hseen).1
    | none =>
        refine ⟨(h₁.knows hseen).1, fun _ _ => ?_⟩
        cases burned with
        | false => rfl
        | true =>
            exfalso
            -- the row that stood there meets the condition
            have hburned : t₁.burned = true :=
              ((hcompletion hop).1 rfl).resolve_right fun hburns => by cases hburns.1
            obtain ⟨seen, row, clock, hrow, hstands, hclock, hcond⟩ :=
              (hcompletion hop).2 hburned rfl rfl
            have hsame : seen = user := Option.some.inj (hrow.symm.trans (h₁.knows hseen).2)
            subst hsame
            simp only [stands, Bool.and_eq_true, decide_eq_true_eq] at hstands
            obtain ⟨⟨hmust, hsamehash⟩, hunexpired⟩ := hstands
            obtain ⟨expiry, hexpiry, hlater⟩ := Option.any_eq_true _ _ |>.mp hunexpired
            have hnow : n < expiry :=
              Nat.lt_of_le_of_lt (hclock n hlooked) (of_decide_eq_true hlater)
            simp [hmust, hsamehash, hstored, hexpiry, hnow] at hcond
  · obtain ⟨⟨burned, rfl⟩, hresponds, -⟩ := hnext
    exact spared_of_database (h₁.knows hseen).1 (hresponds e rfl)

/-- **The completion.** -/
theorem pausing_completeTwoFactorLogin (hop : isCompletion op = true) (userId : UserId)
    (token : String) (fingerprint : Option String) (hb : Unburned t) :
    wp (pausing op) (fun _ t => t.started = true) (Spared op)
      (completeTwoFactorLogin S userId token fingerprint) t := by
  unfold completeTwoFactorLogin
  refine wp_seq (wp_query (fun _ => rfl) (fun found t₁ hnext => ?_) fun e t₁ hnext => ?_)
  · obtain ⟨⟨burned, rfl⟩, -, hcompletion⟩ := hnext
    have hb₁ : Unburned { t.note (.query (.selectUser userId)) (.ok found) with burned := burned } :=
      Follows.unburned (t := t.note (.query (.selectUser userId)) (.ok found))
        ⟨rfl, rfl, fun hburned => ((hcompletion hop).1 hburned).resolve_right id⟩ hb
    cases hfound : found.filter fun u => u.totpEnabled && (truthy u.totpSecret).isSome with
    | none => exact hb₁.spared
    | some user =>
        have hseen : Knows user
            { t.note (.query (.selectUser userId)) (.ok found) with burned := burned } :=
          ⟨hb.1, (Option.filter_eq_some_iff.mp hfound).1⟩
        refine wp_seq ?_
        unfold assertLoginAllowed
        split
        next => exact hb₁.spared
        next =>
          refine wp_seq (pausing_act hop rfl (fun _ => rfl) (fun _ => id) fun locked t₂ h₂ => ?_)
          refine wp_guard (fun _ => (h₂.unburned hb₁).spared) fun _ => ?_
          refine wp_guard (fun _ => (h₂.unburned hb₁).spared) fun _ => ?_
          refine wp_seq (pausing_now hop fun n t₃ h₃ _ => ?_)
          have hb₃ := h₃.unburned (h₂.unburned hb₁)
          refine wp_guard (fun _ => hb₃.spared) fun hholds => ?_
          refine wp_seq (wp_mono _ _ (fun verified t₄ hverified => ?_) (fun _ _ he => he)
            (pausing_verifySecondFactor hop user token (h₃.knows (h₂.knows hseen)) hb₃))
          obtain ⟨hseen₄, hunburned⟩ := hverified
          have hcredential : fingerprint.isSome = true →
              (truthy user.tempPasswordHash).isSome = true ∧
                user.tempPasswordExpiresAt.isSome = true := by
            intro hsome
            obtain ⟨f, rfl⟩ := Option.isSome_iff_exists.mp hsome
            simp only [Option.any_some, Bool.not_eq_true', Bool.not_eq_false, fingerprintHolds,
              Bool.and_eq_true] at hholds
            exact ⟨Option.isSome_of_any hholds.1, Option.isSome_of_any hholds.2⟩
          cases verified with
          | false =>
              refine wp_seq (p := perform (.recordTwoFactorFailure user.id))
                (pausing_act hop rfl (fun _ => rfl) (fun _ => id) fun _ t₅ h₅ => ?_)
              exact (h₅.unburned (hunburned rfl)).spared
          | true =>
              refine wp_seq (p := perform (.clearTwoFactorFailures user.id))
                (pausing_act hop rfl (fun _ => rfl) (fun _ => id) fun _ t₅ h₅ => ?_)
              have hseen₅ := h₅.knows hseen₄
              cases hforced : fingerprint.isSome with
              | true =>
                  refine wp_seq (p := consumeTempPassword user) (wp_mono _ _ (fun _ t₆ ht₆ => ?_)
                    (fun _ _ he => he)
                    (pausing_consumeTempPassword hop user hseen₅ (hcredential hforced)))
                  exact pausing_issueSession hop user true ht₆
              | false => exact pausing_issueSession hop user false hseen₅.1
  · obtain ⟨⟨burned, rfl⟩, hresponds, -⟩ := hnext
    exact spared_of_database hb.1 (hresponds e rfl)

theorem pausing_verify2FA (hop : isCompletion op = true) (bearer : RawToken) (token : String)
    (hb : Unburned t) :
    wp (pausing op) (fun _ t => t.started = true) (Spared op) (verify2FA S bearer token) t := by
  unfold verify2FA
  refine wp_seq (pausing_now hop fun n t₁ h₁ _ => ?_)
  split
  next => exact pausing_completeTwoFactorLogin hop _ token _ (h₁.unburned hb)
  next => exact (h₁.unburned hb).spared

end Rules

/-! ## §4. Runs. -/

/-- The trails are those of the monitor, no call has looked at a clock that is
ahead, and a completion is in no transaction. -/
structure Kept (w : World) (o gs : Pid → Trail) : Prop where
  agrees : ∀ p, (gs p).started = true → gs p = o p
  looked : ∀ p n, (gs p).looked = some n → n ≤ w.clock
  outside : ∀ p, (gs p).started = false ∨ (gs p).completing = true → w.tables.pending p = none

/-- What the condition of an UPDATE that has found no row says of a row. -/
theorem missed_of_exec {S : Settings} {p : Pid} {β : Type} {a : Act β} {e : Env} {b : β}
    {w w' : World} {t : Trail} (hguard : mayConsume t w p a = true)
    (hlooked : ∀ n, t.looked = some n → n ≤ w.clock) (hx : exec S p a e w = some (b, w')) :
    Missed t a b := by
  cases a with
  | query s =>
      cases s with
      | updateUser id cond set =>
          intro hburned hset hnone
          simp only [mayConsume, hburned, hset, decide_true, Bool.and_true, Bool.not_true,
            Bool.false_or] at hguard
          obtain ⟨seen, hseen, hrow⟩ := Option.any_eq_true _ _ |>.mp hguard
          obtain ⟨row, hget, hstands⟩ := Option.any_eq_true _ _ |>.mp hrow
          refine ⟨seen, row, w.clock, hseen, hstands, hlooked, ?_⟩
          -- a row that met the condition would have been returned
          rcases exec_query hx with ⟨hfailed, -⟩ | ⟨hanswer, -⟩
          · cases hfailed.symm.trans hnone
          · by_contra hcond
            have hcond : cond row = true := by simpa using hcond
            have hplan := hanswer.symm.trans hnone
            simp only [plan, hget, Option.filter_some, hcond, if_true] at hplan
            split at hplan
            next => cases hplan
            next => cases hplan
      | _ => trivial
  | _ => trivial

/-- The clock a call knows is one it has seen. -/
theorem looked_of_exec {S : Settings} {p : Pid} {β : Type} {a : Act β} {e : Env} {b : β}
    {w w' : World} {t : Trail} {n : Timestamp} (hx : exec S p a e w = some (b, w'))
    (hlooked : ∀ n, t.looked = some n → n ≤ w.clock) (h : (t.note a b).looked = some n) :
    n ≤ w'.clock := by
  rw [exec_clock hx]
  cases a with
  | query s =>
      cases s with
      | _ => exact hlooked n h
  | now =>
      cases hx
      cases h
      exact Nat.le_refl _
  | _ => exact hlooked n h

/-- A step that is no `BEGIN` opens no transaction. -/
theorem outside_of_exec {S : Settings} {p : Pid} {β : Type} {a : Act β} {e : Env} {b : β}
    {w w' : World} (ha : isBegin a = false) (hp : w.tables.pending p = none)
    (hx : exec S p a e w = some (b, w')) : w'.tables.pending p = none := by
  cases a with
  | query s =>
      rcases exec_query hx with ⟨-, rfl⟩ | ⟨-, -, -, rfl⟩
      · exact hp
      · exact Store.put_pending_of_none hp
  | begin => cases ha
  | commit =>
      rcases exec_commit hx with ⟨-, rfl⟩ | ⟨-, rfl⟩
      · exact Store.rollback_pending_self
      · exact Store.commit_pending_self
  | rollback =>
      rw [exec_rollback hx]
      exact Store.rollback_pending_self
  | _ =>
      rw [exec_silent rfl hx]
      exact hp

section Runs

variable {S : Settings} {w w' : World} {o gs : Pid → Trail} {p : Pid} {op : Op} {e : Env}

theorem Kept.invoke (h : Kept w o gs) (hidle : gs p = {}) :
    Kept w (Function.update o p { started := true, completing := isCompletion op })
      (Function.update gs p { started := true, completing := isCompletion op }) := by
  refine ⟨fun q hq => ?_, fun q n hn => ?_, fun q hq => ?_⟩
  · by_cases hqp : q = p
    · subst hqp
      rw [Function.update_self, Function.update_self]
    · rw [Function.update_of_ne hqp] at hq ⊢
      rw [Function.update_of_ne hqp]
      exact h.agrees q hq
  · by_cases hqp : q = p
    · subst hqp
      rw [Function.update_self] at hn
      cases hn
    · rw [Function.update_of_ne hqp] at hn
      exact h.looked q n hn
  · by_cases hqp : q = p
    · subst hqp
      exact h.outside q (Or.inl (by rw [hidle]))
    · rw [Function.update_of_ne hqp] at hq
      exact h.outside q hq

/-- **One step.** -/
theorem Kept.step {β : Type} {a : Act β} {b : β} (h : Kept w o gs)
    (hop : (gs p).started = true ∧ (gs p).completing = isCompletion op)
    (ha : isCompletion op = true → isBegin a = false)
    (hguard : (!isCompletion op || mayConsume (o p) w p a) = true)
    (hx : exec S p a e w = some (b, w')) :
    ∃ t, (pausing op).next (gs p) a b t ∧
      Kept w' (Function.update o p
        { (o p).note a b with burned := (o p).burned || changesCodes w.db w'.db })
        (Function.update gs p t) := by
  have hsame : gs p = o p := h.agrees p hop.1
  refine ⟨{ (gs p).note a b with burned := (gs p).burned || changesCodes w.db w'.db },
    ⟨⟨_, rfl⟩, exec_responds hx, fun hcompletion => ⟨fun hburned => ?_, ?_⟩⟩, ?_⟩
  · rcases Bool.or_eq_true_iff.mp hburned with hold | hnew
    · exact Or.inl hold
    · have hp := h.outside p (Or.inr (hop.2.trans hcompletion))
      exact Or.inr (burns_of_exec hp hx hnew)
  · rw [hcompletion, Bool.not_true, Bool.false_or, ← hsame] at hguard
    exact missed_of_exec hguard (h.looked p) hx
  · refine ⟨fun q hq => ?_, fun q n hn => ?_, fun q hq => ?_⟩
    · by_cases hqp : q = p
      · subst hqp
        rw [Function.update_self, Function.update_self, hsame]
      · rw [Function.update_of_ne hqp] at hq ⊢
        rw [Function.update_of_ne hqp]
        exact h.agrees q hq
    · by_cases hqp : q = p
      · subst hqp
        rw [Function.update_self] at hn
        exact looked_of_exec hx (h.looked q) hn
      · rw [Function.update_of_ne hqp] at hn
        rw [exec_clock hx]
        exact h.looked q n hn
    · by_cases hqp : q = p
      · subst hqp
        rw [Function.update_self] at hq
        have hstarted : ((gs q).note a b).started = true := (note_started _ a b).1.trans hop.1
        rcases hq with hq | hq
        · exact absurd (hq.symm.trans hstarted) Bool.false_ne_true
        · have hcompletion : (gs q).completing = true := (note_started _ a b).2.symm.trans hq
          exact outside_of_exec (ha (hop.2.symm.trans hcompletion)) (h.outside q (Or.inr hcompletion))
            hx
      · rw [Function.update_of_ne hqp] at hq
        rw [(exec_step hx).pending_of_ne hqp]
        exact h.outside q hq

/-- The call of an operation. -/
def Started (op : Op) (t : Trail) : Prop := t.started = true ∧ t.completing = isCompletion op

/-- The code of every operation. -/
theorem body_pausing (S : Settings) (op : Op) :
    wp ((pausing op).under (Started op)) (fun _ t => t.started = true ∧ Started op t)
      (fun e t => Spared op e t ∧ Started op t) (body S op)
      { started := true, completing := isCompletion op } := by
  refine wp_under (fun a t b t' ht hnext => ?_) ?_ ⟨rfl, rfl⟩
  · obtain ⟨⟨burned, rfl⟩, -⟩ := hnext
    exact ⟨(note_started t a b).1.trans ht.1, (note_started t a b).2.trans ht.2⟩
  · cases op with
    | verify2FA bearer token =>
        exact wp_seq (wp_mono _ _ (fun _ _ ht => ht) (fun _ _ he => he)
          (pausing_verify2FA rfl bearer token ⟨rfl, rfl⟩))
    | _ => exact pausing_other rfl _ rfl

/-- **Every undisturbed run** keeps the trails. -/
theorem trails_run {d : Db} {clock : Timestamp} {c : Conf}
    (h : (system S).Reach undisturbed (Config.init (World.boot d clock)) (fun _ => {}) c o) :
    ∃ gs, Kept c.world o gs ∧ System.Tracks (fun op => (pausing op).under (Started op)) {}
      (fun op _ t => t.started = true ∧ Started op t) (fun op e t => Spared op e t ∧ Started op t)
      c gs := by
  refine System.Reach.sound (M := fun op => (pausing op).under (Started op))
    (fun op => { started := true, completing := isCompletion op }) Kept ?_ ?_ ?_ ?_ ?_ ?_ h
  · intro o w p op _
    exact body_pausing S op
  · intro w o gs p op hI hidle _
    exact hI.invoke hidle
  · intro w o gs p op β a e b w' hI ha hguard hx
    exact hI.step ha.2 ha.1 hguard hx
  · intro w o gs e w' hI hx
    obtain ⟨hpending, -, -, -, -, hclock, -⟩ := ambient_frame hx
    refine ⟨hI.agrees, fun p n hn => Nat.le_trans (hI.looked p n hn) hclock, fun p hp => ?_⟩
    rw [hpending]
    exact hI.outside p hp
  · intro w o gs e w' alive hI hx _ _
    cases hx
    refine ⟨fun p hp => ?_, fun p n hn => ?_, fun p _ => rfl⟩
    · cases halive : alive p with
      | true =>
          rw [halive, if_pos rfl] at hp
          rw [if_pos rfl]
          exact hI.agrees p hp
      | false =>
          rw [halive] at hp
          cases hp
    · cases halive : alive p with
      | true =>
          rw [halive, if_pos rfl] at hn
          exact hI.looked p n hn
      | false =>
          rw [halive] at hn
          cases hn
  · exact ⟨fun _ hp => (nomatch hp), fun _ _ hn => (nomatch hn), fun _ _ => rfl⟩

end Runs

/-- **A failed completion costs nothing where its credential stands.**  In every
interleaving in which a completion that has removed a backup code finds the
temporary credential it has read (same hash, still forced, not run out) when it
consumes it: a completion that fails with an authentication error has changed
nobody's stored backup codes. -/
theorem failed_completion_keeps_codes (S : Settings) (d : Db) (clock : Timestamp) (c : Conf)
    (o : Pid → Trail)
    (h : (system S).Reach undisturbed (Config.init (World.boot d clock)) (fun _ => {}) c o)
    (p : Pid) (bearer : RawToken) (token : String) (e : Exn)
    (hfailed : c.failed p (.verify2FA bearer token) e) (hauth : isAuthentication e = true) :
    (o p).burned = false := by
  obtain ⟨gs, hK, hT⟩ := trails_run h
  obtain ⟨⟨hstarted, hspared⟩, -⟩ := hT.failed hfailed
  rw [← hK.agrees p hstarted]
  exact hspared rfl hauth

/-- A backup code and its hash. -/
def backupCode : String := "a1b2c3d4-e5f6a7b8"
def codeHash : String := "$2b$10$kJ4rX0vGm2sTqW8yB6nEeOqHjFq838BYu.YZAzsG9tT6XzUGc3Et6"

/-- bcrypt on the code as well. -/
def sampleCodes : Settings :=
  { Recovery.sampleForced with
    compare := fun data encrypted => Recovery.sampleForced.compare data encrypted
      || (data == backupCode && encrypted == codeHash) }

/-- A user with a second factor and one backup code. -/
def enrolledDb : Db :=
  { sampleDb with
    users := ⟨[{ sampleAccount 3 "steve@example.com" "steve" .user with
      totpSecret := some "JBSWY3DPEHPK3PXP", totpEnabled := true,
      totpBackupCodes := some [codeHash] }], by decide⟩ }

/-- The user is reset and signs in with the temporary password. -/
def recovering : List (Event Env Op) := Recovery.resets 3 ++ Recovery.signsIn 4 Recovery.tempPassword

/-- Steps of call `p` that need nothing from outside. -/
def steps (p : Pid) (n : Nat) : List (Event Env Op) := List.replicate n (.step p {})

/-- The completion with the backup code, and one with a TOTP code. -/
def byBackupCode : Op := .verify2FA (.signed Recovery.forcedChallenge) backupCode
def byTotp : Op := .verify2FA (.signed Recovery.forcedChallenge) "324550"

/-- The completion with the backup code has compared the credential when the
other consumes it. -/
def overtaken : List (Event Env Op) :=
  recovering ++ [.invoke 5 byBackupCode] ++ steps 5 5 ++ [.invoke 6 byTotp] ++ steps 6 8 ++ steps 5 4

/-- **A completion fails and its backup code is gone.** -/
theorem lostCode : ¬ ∀ (S : Settings) (d : Db) (clock : Timestamp) (c : Conf) (o : Pid → Trail),
    (system S).Reach trail (Config.init (World.boot d clock)) (fun _ => {}) c o →
    ∀ (p : Pid) (bearer : RawToken) (token : String) (e : Exn),
      c.failed p (.verify2FA bearer token) e → isAuthentication e = true →
      (o p).burned = false := by
  intro h
  obtain ⟨c, o, hreach, ht⟩ := System.Reach.of_replay (S := system sampleCodes) (V := trail)
    (World.boot enrolledDb 1700000000000) (fun _ => {}) overtaken
    (fun c o => decide (c.failure 5 = some (byBackupCode, .unauthorized (some "Wrong credentials")))
      && (o 5).burned) (by decide +kernel)
  rw [Bool.and_eq_true, decide_eq_true_eq] at ht
  have hkept := h sampleCodes enrolledDb _ c o hreach 5 _ _ _ (Config.failed_of_failure ht.1) rfl
  exact Bool.false_ne_true (hkept.symm.trans ht.2)

/-- The backup code opens a session; the challenge is then worth nothing. -/
def inTurn : List (Event Env Op) :=
  recovering ++ ([.invoke 5 byBackupCode] : List (Event Env Op)) ++ steps 5 9 ++
    ([.step 5 { text := jti₁ }] : List (Event Env Op)) ++ steps 5 3 ++
    ([.step 5 { uuid := 1 }, .invoke 6 byTotp] : List (Event Env Op)) ++ steps 6 4

theorem inTurn_keeps_codes : ∃ c o,
    (system sampleCodes).Reach undisturbed (Config.init (World.boot enrolledDb 1700000000000))
      (fun _ => {}) c o ∧ (c.result 5).isSome = true ∧ (o 5).burned = true ∧
      c.failed 6 byTotp (.unauthorized none) ∧ (o 6).burned = false := by
  obtain ⟨c, o, hreach, ht⟩ := System.Reach.of_replay (S := system sampleCodes) (V := undisturbed)
    (World.boot enrolledDb 1700000000000) (fun _ => {}) inTurn
    (fun c o => (c.result 5).isSome && (o 5).burned &&
      decide (c.failure 6 = some (byTotp, .unauthorized none))) (by decide +kernel)
  simp only [Bool.and_eq_true, decide_eq_true_eq] at ht
  obtain ⟨⟨hsession, hburned⟩, hfailure⟩ := ht
  have hfailed := Config.failed_of_failure hfailure
  exact ⟨c, o, hreach, hsession, hburned, hfailed,
    failed_completion_keeps_codes sampleCodes enrolledDb _ c o hreach 6 _ _ _ hfailed rfl⟩

end BackupCodes

end MinePanel.Accounts
