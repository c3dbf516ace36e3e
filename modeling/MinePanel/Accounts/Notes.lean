/-
  MinePanel.Accounts.Notes
  ────────────────────────
  **WHAT A CALL KNOWS WHEN IT WRITES.**

  The notes of a call are what it has learned so far: the row of its user, the
  clock readings, the random texts it drew, the UPDATEs that found their row.
  Every UPDATE of a credential or of a second factor in the source has its
  reason here (`Update`), every session it opens its grounds (`Issues`), every
  challenge it signs its user (`Challenges`).  `body_notes` reads this off the
  code of every operation once; the proofs about runs use the notes only.

    * `Notes`, `Notes.next` — what a step adds;
    * `Update`, `Issues`, `Challenges`, `Staged` — why a call may write;
    * `Told` — what a result says about the notes;
    * `body_notes` — **every operation writes for a reason**.
-/
import MinePanel.Accounts.Steps

namespace MinePanel.Accounts

open MinePanel.Db MinePanel.Lib Prog

/-! ## §1. Notes. -/

/-- What a call has learned. -/
structure Notes where
  op : Option Op := none
  /-- The row of `users` it read last. -/
  read : Option User := none
  /-- Its clock readings, the last one first. -/
  times : List Timestamp := []
  /-- The random texts it drew, in order. -/
  drawn : List String := []
  /-- Its UPDATEs of `users` that found their row. -/
  done : List (UserId × UserPatch) := []
  /-- It has inserted a refresh token. -/
  issued : Bool := false
  /-- Its second factor was accepted. -/
  cleared : Bool := false
  /-- It is in a transaction. -/
  inside : Bool := false
  /-- The UPDATEs of the open transaction. -/
  staged : List (UserId × UserPatch) := []

namespace Notes

/-- An UPDATE of `users` found its row. -/
def update (n : Notes) (id : UserId) (set : UserPatch) : Notes :=
  { n with
    done := n.done ++ [(id, set)]
    staged := if n.inside then n.staged ++ [(id, set)] else n.staged }

/-- What a statement teaches. -/
def after (n : Notes) : ∀ {α : Type}, Stmt α → α → Notes
  | _, .selectUser _, r => { n with read := r }
  | _, .findUser _, r => { n with read := r }
  | _, .selectUserForUpdate _, r => { n with read := r }
  | _, .insertUser _, r => { n with read := some r }
  | _, .updateUser id _ set, r => if r.isSome then n.update id set else n
  | _, .insertToken _, _ => { n with issued := true }
  | _, _, _ => n

/-- The notes after a step. -/
def next (n : Notes) : ∀ {β : Type}, Act β → β → Notes
  | _, .query s, b =>
      match b with
      | .ok r => n.after s r
      | .error _ => n
  | _, .begin, b =>
      match b with
      | .ok _ => { n with inside := true, staged := [] }
      | .error _ => n
  | _, .commit, _ => { n with inside := false, staged := [] }
  | _, .rollback, _ => { n with inside := false, staged := [] }
  | _, .now, t => { n with times := t :: n.times }
  | _, .random, text => { n with drawn := n.drawn ++ [text] }
  | _, .clearTwoFactorFailures _, _ => { n with cleared := true }
  | _, _, _ => n

end Notes

/-- A row that is read by its id has this id. -/
def Possible : ∀ {β : Type}, Act β → β → Prop
  | _, .query (.selectUser id), b => ∀ u, b = .ok (some u) → u.id = id
  | _, .query (.selectUserForUpdate id), b => ∀ u, b = .ok (some u) → u.id = id
  | _, _, _ => True

/-- Every step answers what is possible. -/
theorem exec_possible {S : Settings} {p : Pid} {β : Type} {a : Act β} {e : Env} {b : β}
    {w w' : World} (h : exec S p a e w = some (b, w')) : Possible a b := by
  cases a with
  | query s =>
      cases s with
      | selectUser id =>
          intro u hu
          rcases exec_query h with ⟨hb, -⟩ | ⟨hb, -⟩
          · rw [hb] at hu
            cases hu
          · rw [hb] at hu
            exact Table.get_key (Except.ok.inj hu)
      | selectUserForUpdate id =>
          intro u hu
          rcases exec_query h with ⟨hb, -⟩ | ⟨hb, -⟩
          · rw [hb] at hu
            cases hu
          · rw [hb] at hu
            simp only [plan] at hu
            split at hu
            next => cases hu
            next u' hget =>
              obtain rfl : u' = u := Option.some.inj (Except.ok.inj hu)
              exact Table.get_key hget
      | _ => trivial
  | _ => trivial

/-! ## §2. The UPDATEs of credentials and second factors. -/

/-- Sets no credential and no second factor. -/
def UserPatch.IsPlain (set : UserPatch) : Prop :=
  Power.credential ∉ set.powers ∧ Power.secondFactor ∉ set.powers

/-- `setup2FA`. -/
def setupPatch (secret : String) : UserPatch := { totpSecret := some (some secret) }

/-- `confirm2FA`. -/
def enrolPatch (hashes : List String) : UserPatch :=
  { totpBackupCodes := some (some hashes), totpEnabled := some true }

/-- `disable2FA`, `removeTwoFactor`. -/
def removalPatch : UserPatch :=
  { totpEnabled := some false, totpSecret := some none, totpBackupCodes := some none }

/-- `verifyAndConsumeBackupCode`. -/
def backupPatch (remaining : List String) : UserPatch :=
  { totpBackupCodes := some (some remaining) }

/-- `consumeTempPassword`. -/
def consumePatch : UserPatch := { tempPasswordExpiresAt := some none }

/-- `updatePassword` of an ordinary session. -/
def passwordPatch (hash : String) : UserPatch := { passwordHash := some (some hash) }

/-- `updatePassword` of a forced session. -/
def recoveryPatch (hash : String) : UserPatch :=
  { passwordHash := some (some hash), tempPasswordHash := some none,
    tempPasswordExpiresAt := some none, mustChangePassword := some false }

/-- `resetPassword`. -/
def resetPatch (hash : String) (expiresAt : Timestamp) : UserPatch :=
  { tempPasswordHash := some (some hash), tempPasswordExpiresAt := some (some expiresAt),
    mustChangePassword := some true }

/-- The stored credential is this one, and neither used nor expired. -/
def unusedTemp (hash : String) (now : Timestamp) (u : User) : Bool :=
  u.mustChangePassword && u.tempPasswordHash == some hash
    && u.tempPasswordExpiresAt.any fun t => decide (now < t)

/-- The stored credential is this one, and a login has used it. -/
def usedTemp (hash : String) (u : User) : Bool :=
  u.mustChangePassword && u.tempPasswordExpiresAt.isNone && u.tempPasswordHash == some hash

/-- `updatePassword`, ordinary or not. -/
def Op.isPasswordUpdate : Op → Bool
  | .updatePassword _ _ _ _ _ => true
  | _ => false

/-- The code a call presents as its second factor. -/
def Op.secondFactor : Op → Option String
  | .verify2FA _ token => some token
  | .disable2FA _ token => some token
  | _ => none

/-- The code is a TOTP of the secret of `user` at the time `t`. -/
def totpAt (S : Settings) (user : User) (token : String) (t : Timestamp) : Bool :=
  isSixDigits token && S.verifySync (S.decrypt (user.totpSecret.getD "")) token t

/-- What a call that consumes a temporary credential has presented. -/
def Presents (S : Settings) (n : Notes) (user : User) (hash : String) : Op → Prop
  | .login _ password _ =>
      n.done = [] ∧ ∃ t ∈ n.times, S.compare password (tempHashAt (some user) t) = true
  | .verify2FA bearer _ =>
      ∃ exp, bearer = .signed ⟨.preAuth user.id (some (S.sha256 hash)), exp⟩
  | _ => False

/-- **Why a call updates a row of `users`.** -/
inductive Update (S : Settings) (n : Notes) : Op → UserId → (User → Bool) → UserPatch → Prop where
  | plain {op id cond set} : set.IsPlain → op.isPasswordUpdate = false → Update S n op id cond set
  | setup {userId user secret nonce} : n.inside = false → n.read = some user →
      user.totpEnabled = false → n.drawn = [secret, nonce] →
      Update S n (.setup2FA userId) userId (fun _ => true) (setupPatch (S.encrypt secret nonce))
  | confirm {userId token user t codes salts} : n.inside = false → n.read = some user →
      user.id = userId → user.totpEnabled = false → (truthy user.totpSecret).isSome = true →
      totpAt S user token t = true → t ∈ n.times → n.drawn = codes ++ salts →
      codes.length = 8 → salts.length = 8 →
      Update S n (.confirm2FA userId token) userId (fun _ => true)
        (enrolPatch (codes.zipWith S.hash salts))
  | disable {userId token} : n.inside = false →
      Update S n (.disable2FA userId token) userId (fun _ => true) removalPatch
  | remove {userId} : n.inside = false →
      Update S n (.removeTwoFactor userId) userId (fun _ => true) removalPatch
  | backup {op token user codes hash} : n.inside = false → op.secondFactor = some token →
      n.read = some user → n.done = [] → user.totpBackupCodes = some codes →
      codes.find? (S.compare token) = some hash →
      Update S n op user.id (fun u => u.totpBackupCodes == some codes)
        (backupPatch (codes.filter fun code => code != hash))
  | consume {op user hash now} : n.inside = false → n.read = some user →
      user.mustChangePassword = true → user.tempPasswordHash = some hash → hash ≠ "" →
      user.tempPasswordExpiresAt.isSome = true → n.times.head? = some now →
      Presents S n user hash op → n.issued = false →
      Update S n op user.id (unusedTemp hash now) consumePatch
  | password {userId oldPassword newPassword cookie user hash} : n.inside = false →
      n.read = some user → user.id = userId → user.mustChangePassword = false →
      Update S n (.updatePassword userId oldPassword newPassword cookie false) userId
        (fun _ => true) (passwordPatch hash)
  | recovery {userId oldPassword newPassword cookie user temp hash} : n.inside = true →
      n.staged = [] → n.read = some user → user.id = userId → usedTemp temp user = true →
      S.compare oldPassword temp = true →
      Update S n (.updatePassword userId oldPassword newPassword cookie true) userId
        (usedTemp temp) (recoveryPatch hash)
  | reset {userId password salt now} : n.inside = true → n.staged = [] →
      n.drawn = [password, salt] → n.times.head? = some now →
      Update S n (.resetPassword userId) userId (fun _ => true)
        (resetPatch (S.hash password salt) (now + tempPasswordTtlMs))

section Update

variable {S : Settings} {n : Notes} {op : Op} {id : UserId} {cond : User → Bool} {hash : String}

/-- Why a call consumes a temporary credential. -/
theorem Update.of_consume (h : Update S n op id cond consumePatch) :
    ∃ user hash now, n.inside = false ∧ n.read = some user ∧ user.id = id ∧
      cond = unusedTemp hash now ∧ user.mustChangePassword = true ∧
      user.tempPasswordHash = some hash ∧ hash ≠ "" ∧ user.tempPasswordExpiresAt.isSome = true ∧
      n.times.head? = some now ∧ Presents S n user hash op ∧ n.issued = false := by
  generalize hset : consumePatch = set at h
  cases h with
  | plain hplain _ =>
      rw [← hset] at hplain
      exact absurd List.mem_cons_self hplain.1
  | consume hout hread hforced hhash hne hexpires hnow hpresents hissued =>
      exact ⟨_, _, _, hout, hread, rfl, rfl, hforced, hhash, hne, hexpires, hnow, hpresents,
        hissued⟩
  | _ => cases hset

/-- Why a call ends a recovery. -/
theorem Update.of_recovery (h : Update S n op id cond (recoveryPatch hash)) :
    ∃ oldPassword newPassword cookie user temp,
      op = .updatePassword id oldPassword newPassword cookie true ∧ cond = usedTemp temp ∧
      n.inside = true ∧ n.staged = [] ∧ n.read = some user ∧ user.id = id ∧
      usedTemp temp user = true ∧ S.compare oldPassword temp = true := by
  generalize hset : recoveryPatch hash = set at h
  cases h with
  | plain hplain _ =>
      rw [← hset] at hplain
      exact absurd List.mem_cons_self hplain.1
  | recovery hin hstaged hread hid hused hmatch =>
      exact ⟨_, _, _, _, _, rfl, rfl, hin, hstaged, hread, hid, hused, hmatch⟩
  | _ => cases hset

/-- Why a call sets a temporary credential. -/
theorem Update.of_reset {expiresAt : Timestamp}
    (h : Update S n op id cond (resetPatch hash expiresAt)) :
    op = .resetPassword id ∧ n.inside = true ∧ n.staged = [] ∧
      ∃ password salt, n.drawn = [password, salt] ∧ hash = S.hash password salt := by
  generalize hset : resetPatch hash expiresAt = set at h
  cases h with
  | plain hplain _ =>
      rw [← hset] at hplain
      exact absurd List.mem_cons_self hplain.1
  | @reset userId password salt now hin hstaged hdrawn hnow =>
      obtain rfl : hash = S.hash password salt := by
        simpa [resetPatch] using congrArg UserPatch.tempPasswordHash hset
      exact ⟨rfl, hin, hstaged, password, salt, hdrawn, rfl⟩
  | _ => cases hset

end Update

/-- **Why a call opens a session.** -/
def Issues (S : Settings) (n : Notes) (v : NewRefreshToken) : Op → Prop
  | .login _ password _ => n.issued = false ∧ ∃ user, n.read = some user ∧ v.userId = user.id ∧
      user.status = .active ∧
      ((user.mustChangePassword = false ∧
          S.compare password (user.passwordHash.getD dummyPasswordHash) = true) ∨
        (user.mustChangePassword = true ∧ n.done = [(user.id, consumePatch)]))
  | .verify2FA bearer _ => n.issued = false ∧ n.cleared = true ∧ ∃ user sub fingerprint exp,
      bearer = .signed ⟨.preAuth sub fingerprint, exp⟩ ∧ n.read = some user ∧ user.id = sub ∧
      v.userId = user.id ∧ user.status = .active ∧
      user.mustChangePassword = fingerprint.isSome ∧
      ∀ f, fingerprint = some f → (user.id, consumePatch) ∈ n.done ∧
        ∃ hash, user.tempPasswordHash = some hash ∧ S.sha256 hash = f
  | .googleLogin _ => ∃ user, n.read = some user ∧ v.userId = user.id ∧ user.status = .active ∧
      user.mustChangePassword = false
  | .refresh cookie => ∃ user jwt claims, cookie = some (.signed jwt) ∧
      validRefreshTokenClaims jwt = some claims ∧ n.read = some user ∧ user.id = claims.sub ∧
      user.mustChangePassword = claims.temporaryAuth
  | .updatePassword userId _ _ _ temporaryAuth => temporaryAuth = true ∧
      ∃ hash, (userId, recoveryPatch hash) ∈ n.done
  | _ => False

/-- **Why a call of `updatePassword` deletes sessions**: the row it read is in
the state its token is for. -/
def Revokes (n : Notes) : Op → Prop
  | .updatePassword userId _ _ _ temporaryAuth => ∃ user, n.read = some user ∧ user.id = userId ∧
      user.mustChangePassword = temporaryAuth
  | _ => True

/-- **Whom a call challenges**: the user whose password it compared, with the
fingerprint of the credential in force. -/
def Challenges (S : Settings) (n : Notes) (id : UserId) (fingerprint : Option String) : Op → Prop
  | .login _ password _ => ∃ user, n.read = some user ∧ user.id = id ∧
      (fingerprint = if user.mustChangePassword
        then some (S.sha256 (user.tempPasswordHash.getD "")) else none) ∧
      (user.mustChangePassword = true →
        ∃ t ∈ n.times, S.compare password (tempHashAt (some user) t) = true)
  | _ => False

/-- What a transaction commits of credentials and second factors. -/
def Staged (S : Settings) (n : Notes) : Op → Prop
  | .resetPassword userId => n.staged = [] ∨ ∃ password salt expiresAt,
      n.drawn = [password, salt] ∧
        n.staged = [(userId, resetPatch (S.hash password salt) expiresAt)]
  | .updatePassword userId oldPassword _ _ temporaryAuth => n.staged = [] ∨
      (temporaryAuth = true ∧ ∃ user temp hash, n.read = some user ∧ user.id = userId ∧
        usedTemp temp user = true ∧ S.compare oldPassword temp = true ∧
        n.staged = [(userId, recoveryPatch hash)])
  | _ => ∀ x ∈ n.staged, x.2.IsPlain

/-- Only plain UPDATEs are staged, and no temporary credential is consumed. -/
def Notes.IsPlain (n : Notes) : Prop :=
  (∀ x ∈ n.staged, x.2.IsPlain) ∧ ∀ x ∈ n.done, x.2 ≠ consumePatch

/-- Nothing staged and nothing done is plain. -/
theorem Notes.isPlain_of_nil {n : Notes} (h : n.staged = []) (hdone : n.done = []) :
    n.IsPlain := by
  refine ⟨fun x hx => ?_, fun x hx => ?_⟩
  · rw [h] at hx
    exact absurd hx List.not_mem_nil
  · rw [hdone] at hx
    exact absurd hx List.not_mem_nil

/-- What a call may do next; it reads no row that it has changed itself, and
none after it has consumed a credential. -/
def Notes.allow (S : Settings) (op : Op) (n : Notes) : ∀ {β : Type}, Act β → Prop
  | _, .query (.selectUser _) => n.IsPlain
  | _, .query (.findUser _) => n.IsPlain
  | _, .query (.selectUserForUpdate _) => n.IsPlain
  | _, .query (.insertUser _) => n.IsPlain
  | _, .query (.updateUser id cond set) => Update S n op id cond set
  | _, .query (.insertToken v) => Issues S n v op
  | _, .query (.deleteTokens _) => Revokes n op
  | _, .sign (.preAuth id fingerprint) _ => Challenges S n id fingerprint op
  | _, .commit => Staged S n op
  | _, _ => True

/-- The notes of an operation as a monitor. -/
def noting (S : Settings) (op : Op) : Monitor Act Notes where
  allow := fun n a => n.allow S op a
  next := fun n a b n' => n' = n.next a b ∧ Possible a b

/-! ## §3. What a result says. -/

/-- The second factor was accepted: a TOTP, or a backup code that it removed. -/
def Accepted (S : Settings) (n : Notes) (user : User) (token : String) : Prop :=
  (∃ t ∈ n.times, totpAt S user token t = true) ∨
    ∃ codes hash, user.totpBackupCodes = some codes ∧ codes.find? (S.compare token) = some hash ∧
      (user.id, backupPatch (codes.filter fun code => code != hash)) ∈ n.done

/-- **What a result says about the notes of its call.** -/
def Told (S : Settings) (n : Notes) : Op → Reply → Prop
  | .authenticate route cookie, .guarded (some _) => route.isPublic = false ∧
      ∃ user raw t claims, cookie = some raw ∧ accessClaims raw t = some claims ∧
        n.read = some user ∧ user.id = claims.sub ∧
        user.mustChangePassword = claims.temporaryAuth ∧
        (user.mustChangePassword = true → route.isPasswordChange = true)
  | .authenticate route _, .guarded none => route.isPublic = true
  | .refresh cookie, _ => ∃ user jwt claims, cookie = some (.signed jwt) ∧
      validRefreshTokenClaims jwt = some claims ∧ n.read = some user ∧ user.id = claims.sub ∧
      user.mustChangePassword = claims.temporaryAuth
  | .verify2FA bearer token, _ => ∃ user sub fingerprint exp,
      bearer = .signed ⟨.preAuth sub fingerprint, exp⟩ ∧ n.read = some user ∧ user.id = sub ∧
      user.mustChangePassword = fingerprint.isSome ∧ Accepted S n user token
  | .disable2FA userId token, _ => ∃ user, n.read = some user ∧ user.id = userId ∧
      Accepted S n user token
  | .login _ _ _, .login (.session _) => ∃ user, n.read = some user ∧
      (user.mustChangePassword = true → n.done = [(user.id, consumePatch)])
  | .googleLogin _, .provider (some _) => ∃ user, n.read = some user ∧
      user.mustChangePassword = false
  | .confirm2FA _ _, .texts codes => codes = n.drawn.take 8
  | .resetPassword _, .text password => n.drawn.head? = some password
  | _, _ => True

/-! ## §4. Rules. -/

section Rules

variable {S : Settings} {op : Op} {α : Type} {Q : α → Notes → Prop} {n : Notes}

/-- Nothing is said of a call that throws. -/
def Thrown : Exn → Notes → Prop := fun _ _ => True

/-- A step. -/
theorem notes_act {a : Act α} (ha : n.allow S op a)
    (hQ : ∀ b, Possible a b → Q b (n.next a b)) :
    wp (noting S op) Q Thrown (perform a) n := by
  refine wp_perform ha fun b n' h => ?_
  rw [h.1]
  exact hQ b h.2

/-- A statement. -/
theorem notes_query {s : Stmt α} (ha : n.allow S op (.query s))
    (hQ : ∀ r, Possible (.query s) (.ok r) → Q r (n.after s r)) :
    wp (noting S op) Q Thrown (query s) n := by
  refine wp_query ha (fun r n' h => ?_) fun _ _ _ => trivial
  rw [h.1]
  exact hQ r h.2

/-- A transaction: `R` is what its callback returns with. -/
theorem notes_transaction {p : Call α} {R : α → Notes → Prop}
    (hp : wp (noting S op) R Thrown p { n with inside := true, staged := [] })
    (hR : ∀ r n', R r n' → Staged S n' op ∧ Q r { n' with inside := false, staged := [] }) :
    wp (noting S op) Q Thrown (transaction p) n := by
  refine wp_transaction (R := R) (F := Thrown) trivial (fun _ _ _ => trivial) (fun n' h => ?_)
    (fun r n' hr => ⟨(hR r n' hr).1, fun n'' h => ?_, fun _ _ _ => trivial⟩)
    fun _ _ _ => ⟨trivial, fun _ _ => trivial⟩
  · rw [h.1]
    exact hp
  · rw [h.1]
    exact (hR r n' hr).2

/-- Only password changes are asked what they revoke. -/
theorem revokes_of_isPasswordUpdate (hop : op.isPasswordUpdate = false) : Revokes n op := by
  cases op with
  | updatePassword userId oldPassword newPassword cookie temporaryAuth => cases hop
  | _ => trivial

/-- What a call may do whose notes do not matter. -/
theorem allow_quiet {ps : List Power} (hop : op.isPasswordUpdate = false)
    (hcredential : Power.credential ∉ ps) (hsecond : Power.secondFactor ∉ ps)
    (hissue : Power.issue ∉ ps) (hpreAuth : Power.preAuth ∉ ps) {β : Type} {a : Act β} (ha : a.powers ⊆ ps) (hplain : n.IsPlain)
    (hcommit : Power.transact ∈ a.powers → Staged S n op) : n.allow S op a := by
  cases a with
  | query s =>
      cases s with
      | selectUser id => exact hplain
      | findUser cond => exact hplain
      | selectUserForUpdate id => exact hplain
      | insertUser v => exact hplain
      | updateUser id cond set =>
          exact .plain ⟨fun h => hcredential (ha h), fun h => hsecond (ha h)⟩ hop
      | insertToken v => exact absurd (ha List.mem_cons_self) hissue
      | deleteTokens ids => exact revokes_of_isPasswordUpdate hop
      | _ => trivial
  | sign payload ttl =>
      cases payload with
      | preAuth sub fingerprint => exact absurd (ha List.mem_cons_self) hpreAuth
      | _ => trivial
  | commit => exact hcommit List.mem_cons_self
  | _ => trivial

/-- A step without a credential or a second factor. -/
theorem Notes.IsPlain.next {β : Type} {a : Act β} (h : n.IsPlain)
    (hcredential : Power.credential ∉ a.powers) (hsecond : Power.secondFactor ∉ a.powers) (b : β) :
    (n.next a b).IsPlain := by
  have hnil : ∀ n' : Notes, n'.done = n.done → n'.staged = [] → n'.IsPlain := by
    intro n' hdone hstaged
    refine ⟨fun x hx => ?_, fun x hx => ?_⟩
    · rw [hstaged] at hx
      exact absurd hx List.not_mem_nil
    · rw [hdone] at hx
      exact h.2 x hx
  cases a with
  | query s =>
      cases b with
      | error e => exact h
      | ok r =>
          cases s with
          | updateUser id cond set =>
              show (if r.isSome then n.update id set else n).IsPlain
              split
              next =>
                have hset : set.IsPlain := ⟨hcredential, hsecond⟩
                refine ⟨fun x hx => ?_, fun x hx => ?_⟩
                · simp only [Notes.update] at hx
                  split at hx
                  next =>
                    rcases List.mem_append.mp hx with hx | hx
                    · exact h.1 x hx
                    · rw [List.mem_singleton.mp hx]
                      exact hset
                  next => exact h.1 x hx
                · rcases List.mem_append.mp hx with hx | hx
                  · exact h.2 x hx
                  · rw [List.mem_singleton.mp hx]
                    rintro rfl
                    exact hcredential List.mem_cons_self
              next => exact h
          | _ => exact h
  | begin =>
      cases b with
      | error e => exact h
      | ok r => exact hnil _ rfl rfl
  | commit => exact hnil _ rfl rfl
  | rollback => exact hnil _ rfl rfl
  | _ => exact h

/-- A piece of code whose notes do not matter. -/
theorem notes_any {ps : List Power} {p : Call α} (hp : Within ps p)
    (hop : op.isPasswordUpdate = false) (hcredential : Power.credential ∉ ps)
    (hsecond : Power.secondFactor ∉ ps) (hissue : Power.issue ∉ ps) (hpreAuth : Power.preAuth ∉ ps) (htransact : Power.transact ∉ ps)
    (hQ : ∀ r n', n'.IsPlain → Q r n') (hn : n.IsPlain) : wp (noting S op) Q Thrown p n := by
  refine wp_of_inv (J := Notes.IsPlain) (fun a n ha hn => ⟨?_, fun b n' h => ?_⟩)
    (fun r n' hn' => hQ r n' hn') (fun _ _ _ _ => trivial) hp hn
  · exact allow_quiet hop hcredential hsecond hissue hpreAuth ha hn fun h => absurd (ha h) htransact
  · rw [h.1]
    exact hn.next (fun h => hcredential (ha h)) (fun h => hsecond (ha h)) b

/-- An operation whose notes do not matter. -/
theorem notes_quiet {ps : List Power} {p : Call α} (hp : Within ps p)
    (hop : op.isPasswordUpdate = false) (hcredential : Power.credential ∉ ps)
    (hsecond : Power.secondFactor ∉ ps) (hissue : Power.issue ∉ ps) (hpreAuth : Power.preAuth ∉ ps)
    (hstaged : ∀ n : Notes, n.IsPlain → Staged S n op) (hQ : ∀ r n', Q r n') (hn : n.IsPlain) :
    wp (noting S op) Q Thrown p n := by
  refine wp_of_inv (J := Notes.IsPlain) (fun a n ha hn => ⟨?_, fun b n' h => ?_⟩)
    (fun r n' _ => hQ r n') (fun _ _ _ _ => trivial) hp hn
  · exact allow_quiet hop hcredential hsecond hissue hpreAuth ha hn fun _ => hstaged n hn
  · rw [h.1]
    exact hn.next (fun h => hcredential (ha h)) (fun h => hsecond (ha h)) b

/-! ## §5. The pieces of the services. -/

/-- Past the check the row is ACTIVE. -/
theorem notes_assertLoginAllowed {user : User} {Q : Unit → Notes → Prop}
    (hQ : user.status = .active → Q () n) :
    wp (noting S op) Q Thrown (assertLoginAllowed user) n := by
  unfold assertLoginAllowed loginRefusal
  cases hs : user.status with
  | active => exact hQ hs
  | pending => trivial
  | banned => trivial

/-- A DELETE of sessions, where the call may revoke. -/
theorem notes_deleteTokensWhere {cond : RefreshToken → Bool} {Q : Unit → Notes → Prop}
    (hR : Revokes n op) (hQ : Q () n) : wp (noting S op) Q Thrown (deleteTokensWhere cond) n := by
  unfold deleteTokensWhere
  refine wp_seq (notes_query trivial fun ids _ => ?_)
  exact wp_seq (notes_query hR fun _ _ => hQ)

/-- A hash with a salt that was drawn. -/
theorem notes_bcryptHash {data : String} {Q : String → Notes → Prop}
    (hQ : ∀ salt, Q (S.hash data salt) { n with drawn := n.drawn ++ [salt] }) :
    wp (noting S op) Q Thrown (bcryptHash S data) n := by
  unfold bcryptHash
  exact wp_seq (notes_act trivial fun salt _ => hQ salt)

/-- **A session is issued** where the call may issue one. -/
theorem notes_issueSession {user : User} {temporaryAuth : Bool} {Q : AuthTokens → Notes → Prop}
    (hI : ∀ v t, v.userId = user.id → Issues S { n with times := t :: n.times } v op)
    (hQ : ∀ r t, Q r { n with times := t :: n.times, issued := true }) :
    wp (noting S op) Q Thrown (issueSession S user temporaryAuth) n := by
  unfold issueSession buildIssuedRefreshToken
  refine wp_seq (notes_act trivial fun jti _ => ?_)
  refine wp_seq (notes_act trivial fun accessToken _ => ?_)
  refine wp_seq (wp_seq (notes_act trivial fun refreshToken _ => ?_))
  refine wp_seq (notes_act trivial fun t _ => ?_)
  exact wp_seq (notes_query (hI _ t rfl) fun _ _ => hQ _ t)

theorem truthy_eq_some {text : Option String} {t : String} (h : truthy text = some t) :
    text = some t ∧ t ≠ "" := by
  unfold truthy at h
  obtain ⟨h, hne⟩ := Option.filter_eq_some_iff.mp h
  exact ⟨h, by simpa using hne⟩

/-- A login consumes the temporary password it has read. -/
theorem notes_consumeTempPassword {user : User} {Q : Unit → Notes → Prop}
    (hU : ∀ hash now, user.tempPasswordHash = some hash → hash ≠ "" →
      user.tempPasswordExpiresAt.isSome = true →
      Update S { n with times := now :: n.times } op user.id (unusedTemp hash now) consumePatch)
    (hQ : ∀ hash now, user.tempPasswordHash = some hash →
      Q () ({ n with times := now :: n.times }.update user.id consumePatch)) :
    wp (noting S op) Q Thrown (consumeTempPassword user) n := by
  unfold consumeTempPassword
  split
  next hash t hhash hexpires =>
    obtain ⟨hhash, hne⟩ := truthy_eq_some hhash
    refine wp_seq (notes_act trivial fun now _ => ?_)
    refine wp_seq (notes_query (hU hash now hhash hne (by rw [hexpires]; rfl)) fun consumed _ => ?_)
    cases consumed with
    | some _ => exact hQ hash now hhash
    | none => trivial
  next => trivial

/-- **The second factor**: a TOTP code, or a backup code that is taken out. -/
theorem notes_verifySecondFactor {user : User} {token : String} {Q : Bool → Notes → Prop}
    (hinside : n.inside = false) (hop : op.secondFactor = some token) (hread : n.read = some user)
    (hdone : n.done = [])
    (hQ : ∀ n' : Notes, n'.read = n.read → n'.issued = n.issued → n'.inside = n.inside →
      (n'.done = [] ∨ ∃ rest, n'.done = [(user.id, backupPatch rest)]) →
      Accepted S n' user token → Q true n')
    (hfalse : ∀ n', Q false n') :
    wp (noting S op) Q Thrown (verifySecondFactor S user token) n := by
  unfold verifySecondFactor isValidTotp
  refine wp_seq (wp_seq (notes_act trivial fun t _ => ?_))
  show wp _ _ _ (if totpAt S user token t = true then _ else _) _
  split
  next hvalid =>
    refine hQ _ rfl rfl rfl (Or.inl hdone) (Or.inl ⟨t, ?_, hvalid⟩)
    exact List.mem_cons_self
  next =>
    unfold verifyAndConsumeBackupCode
    split
    next => exact hfalse _
    next codes hcodes =>
      split
      next => exact hfalse _
      next hash hfind =>
        refine wp_seq (notes_query (.backup hinside hop hread hdone hcodes hfind)
          fun consumed _ => ?_)
        cases consumed with
        | none => exact hfalse _
        | some row =>
            have hlist : (Notes.update { n with times := t :: n.times } user.id
                (backupPatch (codes.filter fun code => code != hash))).done =
                [(user.id, backupPatch (codes.filter fun code => code != hash))] := by
              show n.done ++ _ = _
              rw [hdone]
              rfl
            have hmem : (user.id, backupPatch (codes.filter fun code => code != hash)) ∈
                (Notes.update { n with times := t :: n.times } user.id
                  (backupPatch (codes.filter fun code => code != hash))).done := by
              rw [hlist]
              exact List.mem_cons_self
            exact hQ _ rfl rfl rfl (Or.inr ⟨_, hlist⟩)
              (Or.inr ⟨codes, hash, hcodes, hfind, hmem⟩)

end Rules

/-! ## §6. The operations. -/

section Operations

variable {S : Settings}

/-- A call has just been invoked. -/
def Notes.fresh (op : Op) : Notes := { op := some op }

/-- No call. -/
def Notes.idle : Notes := {}

theorem notes_wrongCredentials {op : Op} {n : Notes} {context : Option LoginAttemptContext}
    {Q : LoginResponse → Notes → Prop} :
    wp (noting S op) Q Thrown (wrongCredentials context) n := by
  unfold wrongCredentials recordLoginFailure
  cases context with
  | none => trivial
  | some context => exact wp_seq (notes_act trivial fun _ _ => trivial)

theorem notes_recordLoginSuccess {op : Op} {n : Notes} {context : Option LoginAttemptContext}
    {Q : Unit → Notes → Prop} (hQ : Q () n) :
    wp (noting S op) Q Thrown (recordLoginSuccess context) n := by
  unfold recordLoginSuccess
  cases context with
  | none => exact hQ
  | some context => exact notes_act trivial fun _ _ => hQ

/-- What a login tells. -/
def LoginTold (n : Notes) : LoginResponse → Prop
  | .session _ => ∃ user, n.read = some user ∧
      (user.mustChangePassword = true → n.done = [(user.id, consumePatch)])
  | .requiresTwoFactor _ => True

/-- A challenge carries the fingerprint of the credential that was matched. -/
theorem notes_challenge {identifier password : String} {context : Option LoginAttemptContext}
    {n : Notes} {user : User} {fingerprint : Option String} (hread : n.read = some user)
    (hfp : fingerprint = if user.mustChangePassword
      then some (S.sha256 (user.tempPasswordHash.getD "")) else none)
    (hmatch : user.mustChangePassword = true →
      ∃ t ∈ n.times, S.compare password (tempHashAt (some user) t) = true) :
    wp (noting S (.login identifier password context)) (fun r n => LoginTold n r) Thrown
      (challenge user fingerprint context) n := by
  unfold challenge
  refine wp_seq (notes_act ⟨user, hread, rfl, hfp, hmatch⟩ fun token _ => ?_)
  exact wp_seq (notes_recordLoginSuccess trivial)

/-- A login in forced recovery. -/
theorem notes_loginForced {identifier password : String} {context : Option LoginAttemptContext}
    {n : Notes} {user : User} {t : Timestamp} (hread : n.read = some user)
    (hforced : user.mustChangePassword = true) (hactive : user.status = .active)
    (htime : t ∈ n.times) (hdone : n.done = []) (hissued : n.issued = false)
    (hinside : n.inside = false) :
    wp (noting S (.login identifier password context)) (fun r n => LoginTold n r) Thrown
      (loginForced S user (S.compare password (tempHashAt (some user) t)) context) n := by
  unfold loginForced
  cases hmatch : S.compare password (tempHashAt (some user) t) with
  | false => exact notes_wrongCredentials
  | true =>
      show wp _ _ _ (if user.totpEnabled = true then _ else _) n
      split
      next => exact notes_challenge hread (by rw [if_pos hforced]) fun _ => ⟨t, htime, hmatch⟩
      next =>
        refine wp_seq (notes_consumeTempPassword (fun hash now hhash hne hexpires => ?_)
          fun hash now hhash => ?_)
        · exact .consume hinside hread hforced hhash hne hexpires rfl
            ⟨hdone, t, List.mem_cons_of_mem _ htime, hmatch⟩ hissued
        · have hconsumed : (Notes.update { n with times := now :: n.times } user.id
              consumePatch).done = [(user.id, consumePatch)] := by
            show n.done ++ _ = _
            rw [hdone]
            rfl
          refine wp_seq (notes_issueSession (fun v t' hv => ?_) fun session t' => ?_)
          · exact ⟨hissued, user, hread, hv, hactive, Or.inr ⟨hforced, hconsumed⟩⟩
          · exact wp_seq (notes_recordLoginSuccess ⟨user, hread, fun _ => hconsumed⟩)

/-- An ordinary login. -/
theorem notes_loginOrdinary {identifier password : String} {context : Option LoginAttemptContext}
    {n : Notes} {user : User} (hread : n.read = some user)
    (hforced : user.mustChangePassword = false) (hactive : user.status = .active)
    (hissued : n.issued = false) :
    wp (noting S (.login identifier password context)) (fun r n => LoginTold n r) Thrown
      (loginOrdinary S user (S.compare password (user.passwordHash.getD dummyPasswordHash))
        context) n := by
  unfold loginOrdinary
  cases hmatch : S.compare password (user.passwordHash.getD dummyPasswordHash) with
  | false => exact notes_wrongCredentials
  | true =>
      show wp _ _ _ (if user.totpEnabled = true then _ else _) n
      split
      next =>
        refine notes_challenge hread (by rw [if_neg (by simp [hforced])]) fun h => ?_
        rw [hforced] at h
        cases h
      next =>
        refine wp_seq (notes_issueSession (fun v t hv => ?_) fun session t => ?_)
        · exact ⟨hissued, user, hread, hv, hactive, Or.inl ⟨hforced, hmatch⟩⟩
        · refine wp_seq (notes_recordLoginSuccess ⟨user, hread, fun h => ?_⟩)
          rw [hforced] at h
          cases h

/-- **`loginUser`.** -/
theorem notes_loginUser (identifier password : String) (context : Option LoginAttemptContext) :
    wp (noting S (.login identifier password context)) (fun r n => LoginTold n r) Thrown
      (loginUser S identifier password context)
      (.fresh (.login identifier password context)) := by
  unfold loginUser
  have hattempt : wp (noting S (.login identifier password context))
      (fun _ n => n = .fresh (.login identifier password context)) Thrown
      (assertAttemptAllowed context) (.fresh (.login identifier password context)) := by
    unfold assertAttemptAllowed
    cases context with
    | none => rfl
    | some context =>
        refine wp_seq (notes_act trivial fun allowed _ => ?_)
        cases allowed with
        | true => rfl
        | false => trivial
  refine wp_seq (wp_mono _ _ (fun _ n hn => ?_) (fun _ _ h => h) hattempt)
  subst hn
  refine wp_seq (notes_query (Notes.isPlain_of_nil rfl rfl) fun found _ => ?_)
  refine wp_seq (notes_act trivial fun now _ => ?_)
  cases found with
  | none => exact notes_wrongCredentials
  | some user =>
      dsimp only
      rw [Option.filter_some]
      split
      next => exact notes_wrongCredentials
      next user' huser =>
        split at huser
        next =>
          obtain rfl := Option.some.inj huser
          refine wp_seq (notes_assertLoginAllowed fun hactive => ?_)
          show wp _ _ _ (if user.mustChangePassword = true then _ else _) _
          split
          next hforced =>
            exact notes_loginForced rfl hforced hactive List.mem_cons_self rfl rfl rfl
          next hforced => exact notes_loginOrdinary rfl (by simpa using hforced) hactive rfl
        next => cases huser

/-- A fingerprint that holds is that of the stored hash. -/
theorem fingerprintHolds_hash {user : User} {fingerprint : String} {now : Timestamp}
    (h : fingerprintHolds S user fingerprint now = true) :
    ∃ hash, user.tempPasswordHash = some hash ∧ S.sha256 hash = fingerprint := by
  unfold fingerprintHolds at h
  rw [Bool.and_eq_true] at h
  obtain ⟨hash, hhash, hf⟩ := (Option.any_eq_true _ _).mp h.1
  exact ⟨hash, (truthy_eq_some hhash).1, by simpa using hf⟩

/-- **`completeTwoFactorLogin`.** -/
theorem notes_completeTwoFactorLogin {sub : UserId} {fingerprint : Option String} {exp : Nat}
    {token : String} {n : Notes} (hdone : n.done = []) (hissued : n.issued = false)
    (hinside : n.inside = false) (hplain : n.IsPlain) :
    wp (noting S (.verify2FA (.signed ⟨.preAuth sub fingerprint, exp⟩) token))
      (fun r n => Told S n (.verify2FA (.signed ⟨.preAuth sub fingerprint, exp⟩) token)
        (.session r)) Thrown
      (completeTwoFactorLogin S sub token fingerprint) n := by
  unfold completeTwoFactorLogin
  refine wp_seq (notes_query hplain fun found hfound => ?_)
  split
  next => trivial
  next user huser =>
    obtain ⟨huser, -⟩ := Option.filter_eq_some_iff.mp huser
    subst huser
    have hid : user.id = sub := hfound user rfl
    refine wp_seq (notes_assertLoginAllowed fun hactive => ?_)
    refine wp_seq (notes_act trivial fun locked _ => ?_)
    refine wp_guard (fun _ => trivial) fun _ => ?_
    refine wp_guard (fun _ => trivial) fun hmode => ?_
    have hmode : user.mustChangePassword = fingerprint.isSome := by simpa using hmode
    refine wp_seq (notes_act trivial fun now _ => ?_)
    refine wp_guard (fun _ => trivial) fun hholds => ?_
    refine wp_seq (notes_verifySecondFactor hinside rfl rfl hdone
      (fun n' hread hissued' hinside' hdone' haccepted => ?_) fun n' => ?_)
    · refine wp_seq (notes_act trivial fun _ _ => ?_)
      have hread : n'.read = some user := hread
      have hissued' : n'.issued = false := hissued'.trans hissued
      cases fingerprint with
      | none =>
          refine notes_issueSession (fun v t hv => ?_) fun session t => ?_
          · exact ⟨hissued', rfl, user, sub, none, exp, rfl, hread, hid, hv, hactive, hmode, nofun⟩
          · refine ⟨user, sub, none, exp, rfl, hread, hid, hmode, ?_⟩
            rcases haccepted with ⟨t', ht', hvalid⟩ | hbackup
            · exact Or.inl ⟨t', List.mem_cons_of_mem _ ht', hvalid⟩
            · exact Or.inr hbackup
      | some f =>
          -- the fingerprint is that of the row, and the row's credential is consumed
          obtain ⟨hash, hhash, hf⟩ := fingerprintHolds_hash (by simpa using hholds)
          refine wp_seq (notes_consumeTempPassword (fun hash' t hhash' hne hexpires => ?_)
            fun hash' t _ => ?_)
          · obtain rfl : hash = hash' := Option.some.inj (hhash.symm.trans hhash')
            exact .consume (hinside'.trans hinside) hread hmode hhash hne hexpires rfl
              ⟨exp, by rw [hf, hid]⟩ hissued'
          · have hmem : (user.id, consumePatch) ∈
                (Notes.update { n' with times := t :: n'.times } user.id consumePatch).done :=
              List.mem_append_right _ List.mem_cons_self
            refine notes_issueSession (fun v t' hv => ?_) fun session t' => ?_
            · refine ⟨hissued', rfl, user, sub, some f, exp, rfl, hread, hid, hv, hactive, hmode, ?_⟩
              intro f' hf'
              obtain rfl := Option.some.inj hf'
              exact ⟨hmem, hash, hhash, hf⟩
            · refine ⟨user, sub, some f, exp, rfl, hread, hid, hmode, ?_⟩
              rcases haccepted with ⟨t'', ht'', hvalid⟩ | ⟨codes, spent, hcodes, hfind, hspent⟩
              · exact Or.inl ⟨t'', List.mem_cons_of_mem _ (List.mem_cons_of_mem _ ht''), hvalid⟩
              · exact Or.inr ⟨codes, spent, hcodes, hfind, List.mem_append_left _ hspent⟩
    · exact wp_seq (notes_act trivial fun _ _ => trivial)

/-- Only our own signature verifies. -/
theorem verifyAsync_valid {raw : RawToken} {now : Timestamp} {jwt : Jwt}
    (h : verifyAsync raw now = .valid jwt) : raw = .signed jwt := by
  cases raw with
  | signed jwt' =>
      simp only [verifyAsync] at h
      split at h
      next => cases h
      next =>
        cases h
        rfl
  | _ => cases h

theorem notes_verify2FA (bearer : RawToken) (token : String) :
    wp (noting S (.verify2FA bearer token))
      (fun r n => Told S n (.verify2FA bearer token) (.session r)) Thrown
      (verify2FA S bearer token) (.fresh (.verify2FA bearer token)) := by
  unfold verify2FA
  refine wp_seq (notes_act trivial fun now _ => ?_)
  split
  next sub fingerprint exp hvalid =>
    obtain rfl : bearer = .signed ⟨.preAuth sub fingerprint, exp⟩ := verifyAsync_valid hvalid
    exact notes_completeTwoFactorLogin rfl rfl rfl (Notes.isPlain_of_nil rfl rfl)
  next => trivial

theorem notes_setup2FA (userId : UserId) :
    wp (noting S (.setup2FA userId)) (fun _ _ => True) Thrown (setup2FA S userId)
      (.fresh (.setup2FA userId)) := by
  unfold setup2FA
  refine wp_seq (notes_query (Notes.isPlain_of_nil rfl rfl) fun found _ => ?_)
  cases found with
  | none => trivial
  | some user =>
      refine wp_guard (fun _ => trivial) fun henabled => ?_
      refine wp_seq (notes_act trivial fun secret _ => ?_)
      refine wp_seq (notes_act trivial fun nonce _ => ?_)
      exact wp_seq (notes_query (.setup rfl rfl (by simpa using henabled) rfl) fun _ _ => trivial)

/-- The codes were drawn. -/
theorem notes_generateBackupCodes {op : Op} {k : Nat} {n : Notes} {Q : List String → Notes → Prop}
    (hQ : ∀ codes, codes.length = k → Q codes { n with drawn := n.drawn ++ codes }) :
    wp (noting S op) Q Thrown (generateBackupCodes k) n := by
  induction k generalizing n Q with
  | zero =>
      have h := hQ [] rfl
      rw [List.append_nil] at h
      exact h
  | succ k ih =>
      unfold generateBackupCodes
      refine wp_seq (notes_act trivial fun code _ => wp_seq (ih fun codes hlen => ?_))
      have h := hQ (code :: codes) (by rw [List.length_cons, hlen])
      show Q (code :: codes) { n with drawn := (n.drawn ++ [code]) ++ codes }
      rw [List.append_assoc]
      exact h

/-- The hashes of the codes, each with a salt that was drawn. -/
theorem notes_hashCodes {op : Op} {codes : List String} {n : Notes}
    {Q : List String → Notes → Prop}
    (hQ : ∀ salts, salts.length = codes.length →
      Q (codes.zipWith S.hash salts) { n with drawn := n.drawn ++ salts }) :
    wp (noting S op) Q Thrown (hashCodes S codes) n := by
  induction codes generalizing n Q with
  | nil =>
      have h := hQ [] rfl
      rw [List.append_nil] at h
      exact h
  | cons code codes ih =>
      unfold hashCodes
      refine wp_seq (notes_bcryptHash fun salt => wp_seq (ih fun salts hlen => ?_))
      have h := hQ (salt :: salts) (by rw [List.length_cons, List.length_cons, hlen])
      show Q _ { n with drawn := (n.drawn ++ [salt]) ++ salts }
      rw [List.append_assoc]
      exact h

/-- **`confirm2FA`.** -/
theorem notes_confirm2FA (userId : UserId) (token : String) :
    wp (noting S (.confirm2FA userId token))
      (fun r n => Told S n (.confirm2FA userId token) (.texts r)) Thrown
      (confirm2FA S userId token) (.fresh (.confirm2FA userId token)) := by
  unfold confirm2FA isValidTotp
  refine wp_seq (notes_query (Notes.isPlain_of_nil rfl rfl) fun found hfound => ?_)
  cases found with
  | none => trivial
  | some user =>
      refine wp_guard (fun _ => trivial) fun henabled => ?_
      refine wp_guard (fun _ => trivial) fun hsecret => ?_
      refine wp_seq (wp_seq (notes_act trivial fun t _ => ?_))
      refine wp_guard (fun _ => trivial) fun hvalid => ?_
      refine wp_seq (notes_generateBackupCodes fun codes hcodes => ?_)
      refine wp_seq (notes_hashCodes fun salts hsalts => ?_)
      refine wp_seq (notes_query ?_ fun updated _ => ?_)
      · exact .confirm rfl rfl (hfound user rfl) (by simpa using henabled)
          (by simpa [Option.isSome_iff_ne_none] using hsecret) (by simpa [totpAt] using hvalid)
          List.mem_cons_self rfl hcodes (hsalts.trans hcodes)
      · have hdrawn : (codes ++ salts).take 8 = codes := by
          rw [← hcodes, List.take_left]
        cases updated with
        | none => exact hdrawn.symm
        | some row => exact hdrawn.symm

/-- **`disable2FA`.** -/
theorem notes_disable2FA (userId : UserId) (token : String) :
    wp (noting S (.disable2FA userId token))
      (fun _ n => Told S n (.disable2FA userId token) .done) Thrown
      (disable2FA S userId token) (.fresh (.disable2FA userId token)) := by
  unfold disable2FA
  refine wp_seq (notes_query (Notes.isPlain_of_nil rfl rfl) fun found hfound => ?_)
  split
  next => trivial
  next user huser =>
    obtain ⟨huser, -⟩ := Option.filter_eq_some_iff.mp huser
    subst huser
    refine wp_seq (notes_verifySecondFactor rfl rfl rfl rfl
      (fun n' hread _ hinside _ haccepted => ?_) fun n' => trivial)
    refine wp_seq (notes_query (.disable hinside) fun updated _ => ?_)
    have htold : Told S n' (.disable2FA userId token) .done :=
      ⟨user, hread, hfound user rfl, haccepted⟩
    cases updated with
    | none => exact htold
    | some row =>
        refine ⟨user, hread, hfound user rfl, ?_⟩
        rcases haccepted with htotp | ⟨codes, hash, hcodes, hfind, hspent⟩
        · exact Or.inl htotp
        · exact Or.inr ⟨codes, hash, hcodes, hfind, List.mem_append_left _ hspent⟩

/-- The row of an existing target was read. -/
theorem notes_existingTarget {op : Op} {n : Notes} {userId : UserId} {Q : User → Notes → Prop}
    (hplain : n.IsPlain) (hQ : ∀ user, user.id = userId → Q user { n with read := some user }) :
    wp (noting S op) Q Thrown (existingTarget userId) n := by
  unfold existingTarget
  refine wp_seq (notes_query hplain fun found hfound => ?_)
  cases found with
  | none => trivial
  | some user => exact hQ user (hfound user rfl)

theorem notes_removeTwoFactor (userId : UserId) :
    wp (noting S (.removeTwoFactor userId)) (fun _ _ => True) Thrown (removeTwoFactor userId)
      (.fresh (.removeTwoFactor userId)) := by
  unfold removeTwoFactor
  refine wp_seq (notes_existingTarget (Notes.isPlain_of_nil rfl rfl) fun user _ => ?_)
  refine wp_guard (fun _ => trivial) fun _ => ?_
  refine wp_seq (notes_query (.remove rfl) fun updated _ => ?_)
  cases updated with
  | none => trivial
  | some row => trivial

/-- **`resetPassword`.** -/
theorem notes_resetPassword (userId : UserId) :
    wp (noting S (.resetPassword userId))
      (fun r n => Told S n (.resetPassword userId) (.text r)) Thrown (resetPassword S userId)
      (.fresh (.resetPassword userId)) := by
  unfold resetPassword
  refine wp_seq (notes_existingTarget (Notes.isPlain_of_nil rfl rfl) fun user _ => ?_)
  refine wp_seq (notes_act trivial fun password _ => ?_)
  refine wp_seq (notes_bcryptHash fun salt => ?_)
  refine wp_seq (notes_act trivial fun now _ => ?_)
  refine wp_seq (notes_transaction (R := fun _ n => n.drawn = [password, salt] ∧
    Staged S n (.resetPassword userId)) ?_ fun _ n hn => ⟨hn.2, ?_⟩)
  · refine wp_seq (notes_query (.reset rfl rfl rfl rfl) fun updated _ => ?_)
    refine notes_deleteTokensWhere trivial ?_
    cases updated with
    | none => exact ⟨rfl, Or.inl rfl⟩
    | some row => exact ⟨rfl, Or.inr ⟨password, salt, _, rfl, rfl⟩⟩
  · show n.drawn.head? = some password
    rw [hn.1]
    rfl

theorem notes_assertPasswordWithinByteLimit {op : Op} {n : Notes} {data : String}
    {Q : Unit → Notes → Prop} (hQ : Q () n) :
    wp (noting S op) Q Thrown (assertPasswordWithinByteLimit data) n := by
  unfold assertPasswordWithinByteLimit
  split
  next => exact hQ
  next => trivial

/-- The end of a recovery. -/
theorem notes_completeRecovery {userId : UserId} {oldPassword newPassword : String}
    {cookie : Option RawToken} {user : User} {n : Notes} {Q : PublicUser → Notes → Prop}
    (hread : n.read = some user) (hid : user.id = userId) (hdone : n.done = [])
    (hQ : ∀ r (n' : Notes), n'.staged = [] → (∃ hash, n'.done = [(userId, recoveryPatch hash)]) →
      Q r n') :
    wp (noting S (.updatePassword userId oldPassword newPassword cookie true)) Q Thrown
      (completeRecovery S userId user oldPassword newPassword) n := by
  unfold completeRecovery
  split
  next => trivial
  next temp htemp =>
    obtain ⟨htemp, hcond⟩ := Option.filter_eq_some_iff.mp htemp
    obtain ⟨htemp, -⟩ := truthy_eq_some htemp
    simp only [Bool.and_eq_true] at hcond
    obtain ⟨⟨hforced, hexpires⟩, hmatch⟩ := hcond
    have hused : usedTemp temp user = true := by simp [usedTemp, hforced, hexpires, htemp]
    refine wp_seq (notes_bcryptHash fun salt => ?_)
    refine wp_seq (notes_transaction
      (R := fun r n => Staged S n (.updatePassword userId oldPassword newPassword cookie true) ∧
        (r.isSome = true → ∃ hash, n.done = [(userId, recoveryPatch hash)]))
      ?_ fun updated n' hn' => ⟨hn'.1, ?_⟩)
    · refine wp_seq (notes_query (.recovery rfl rfl hread hid hused hmatch) fun updated _ => ?_)
      cases updated with
      | none => exact ⟨Or.inl rfl, nofun⟩
      | some row =>
          refine wp_seq (notes_deleteTokensWhere ⟨user, hread, hid, hforced⟩ ?_)
          refine ⟨Or.inr ⟨rfl, user, temp, _, hread, hid, hused, hmatch, rfl⟩, fun _ => ⟨S.hash newPassword salt, ?_⟩⟩
          show n.done ++ _ = _
          rw [hdone]
          rfl
    · cases updated with
      | none => trivial
      | some row => exact hQ _ _ rfl (hn'.2 rfl)

/-- An ordinary password change. -/
theorem notes_changePassword {userId : UserId} {oldPassword newPassword : String}
    {cookie : Option RawToken} {tokenId : Option String} {user : User} {n : Notes}
    {Q : PublicUser → Notes → Prop} (hread : n.read = some user) (hid : user.id = userId)
    (hinside : n.inside = false) (hQ : ∀ r n', Q r n') :
    wp (noting S (.updatePassword userId oldPassword newPassword cookie false)) Q Thrown
      (changePassword S userId user oldPassword newPassword tokenId) n := by
  unfold changePassword
  refine wp_guard (fun _ => trivial) fun hforced => ?_
  have hforced : user.mustChangePassword = false := by simpa using hforced
  split
  next => trivial
  next =>
    refine wp_seq (notes_bcryptHash fun salt => ?_)
    refine wp_seq (notes_query (.password hinside hread hid hforced) fun updated _ => ?_)
    cases updated with
    | none => trivial
    | some row =>
        refine wp_seq (p := toPublicUserOrThrow (some row)) (wp_seq ?_)
        unfold revokeOtherSessions
        split
        next => exact notes_deleteTokensWhere ⟨user, hread, hid, hforced⟩ (hQ _ _)
        next => exact notes_deleteTokensWhere ⟨user, hread, hid, hforced⟩ (hQ _ _)

theorem notes_requireRefreshToken {op : Op} {n : Notes} {cookie : Option RawToken}
    {Q : RawToken → Notes → Prop} (hQ : ∀ raw, cookie = some raw → Q raw n) :
    wp (noting S op) Q Thrown (requireRefreshToken cookie) n := by
  unfold requireRefreshToken
  split
  next => trivial
  next => trivial
  next raw _ => exact hQ raw rfl

theorem notes_readRefreshTokenId {op : Op} {n : Notes} {raw : RawToken}
    {Q : String → Notes → Prop} (hQ : ∀ id, Q id n) :
    wp (noting S op) Q Thrown (readRefreshTokenId raw) n := by
  cases raw with
  | empty => trivial
  | garbage => trivial
  | forged jwt =>
      dsimp only [readRefreshTokenId]
      split
      next claims _ => exact hQ claims.jti
      next => trivial
  | signed jwt =>
      dsimp only [readRefreshTokenId]
      split
      next claims _ => exact hQ claims.jti
      next => trivial

/-- **`updateUserPassword`.** -/
theorem notes_updateUserPassword (userId : UserId) (oldPassword newPassword : String)
    (cookie : Option RawToken) (temporaryAuth : Bool) :
    wp (noting S (.updatePassword userId oldPassword newPassword cookie temporaryAuth))
      (fun _ _ => True) Thrown
      (updateUserPassword S userId oldPassword newPassword cookie temporaryAuth)
      (.fresh (.updatePassword userId oldPassword newPassword cookie temporaryAuth)) := by
  unfold updateUserPassword updatePassword
  refine wp_seq (notes_requireRefreshToken fun raw _ => ?_)
  refine wp_seq (notes_readRefreshTokenId fun tokenId => ?_)
  refine wp_seq (wp_seq (notes_assertPasswordWithinByteLimit ?_))
  refine wp_seq (notes_assertPasswordWithinByteLimit ?_)
  refine wp_seq (notes_query (Notes.isPlain_of_nil rfl rfl) fun found hfound => ?_)
  cases found with
  | none => trivial
  | some user =>
      have hid : user.id = userId := hfound user rfl
      cases temporaryAuth with
      | false => exact notes_changePassword rfl hid rfl fun _ _ => trivial
      | true =>
          refine notes_completeRecovery rfl hid rfl fun _ n' hstaged hdone => ?_
          obtain ⟨hash, hdone⟩ := hdone
          have hplain : n'.IsPlain := by
            refine ⟨fun x hx => ?_, fun x hx => ?_⟩
            · rw [hstaged] at hx
              exact absurd hx List.not_mem_nil
            · rw [hdone, List.mem_singleton] at hx
              rw [hx]
              simp [recoveryPatch, consumePatch]
          have hmem : (userId, recoveryPatch hash) ∈ n'.done := by
            rw [hdone]
            exact List.mem_cons_self
          refine wp_seq (notes_query hplain fun found _ => ?_)
          cases found with
          | none => trivial
          | some updated =>
              refine wp_seq (notes_issueSession (fun _ _ _ => ⟨rfl, hash, hmem⟩) fun _ _ => trivial)

/-- The claims of a refresh token that verifies. -/
theorem refreshClaims_ok {raw : RawToken} {now : Timestamp} {claims : RefreshTokenClaims}
    (h : refreshClaims raw now = .ok claims) :
    ∃ jwt, raw = .signed jwt ∧ validRefreshTokenClaims jwt = some claims := by
  unfold refreshClaims at h
  split at h
  next => cases h
  next => cases h
  next jwt hvalid =>
    split at h
    next claims' hclaims =>
      cases h
      exact ⟨jwt, verifyAsync_valid hvalid, hclaims⟩
    next => split at h <;> cases h

/-- **`refresh`.** -/
theorem notes_refresh (cookie : Option RawToken) :
    wp (noting S (.refresh cookie)) (fun r n => Told S n (.refresh cookie) (.rotated r)) Thrown
      (refresh S cookie) (.fresh (.refresh cookie)) := by
  unfold refresh refreshTokens
  refine wp_seq (notes_requireRefreshToken fun raw hraw => ?_)
  refine wp_seq (notes_act trivial fun now _ => ?_)
  split
  next => trivial
  next claims hclaims =>
    obtain ⟨jwt, hjwt, hvalid⟩ := refreshClaims_ok hclaims
    have hcookie : cookie = some (.signed jwt) := by rw [hraw, hjwt]
    refine notes_transaction (R := fun r n => n.staged = [] ∧ Told S n (.refresh cookie) (.rotated r))
      ?_ fun r n hn => ⟨?_, hn.2⟩
    · unfold rotate
      refine wp_seq (notes_query trivial fun stored _ => ?_)
      refine wp_seq (notes_act trivial fun now' _ => ?_)
      split
      next => trivial
      next stored _ =>
        refine wp_seq (notes_query (Notes.isPlain_of_nil rfl rfl) fun found hfound => ?_)
        cases found with
        | none => trivial
        | some user =>
            unfold rotateLocked buildIssuedRefreshToken
            refine wp_guard (fun _ => trivial) fun hmode => ?_
            have hmode : user.mustChangePassword = claims.temporaryAuth := by simpa using hmode
            have hid : user.id = claims.sub := hfound user rfl
            refine wp_seq (notes_assertLoginAllowed fun _ => ?_)
            refine wp_seq (notes_act trivial fun jti _ => ?_)
            refine wp_seq (notes_act trivial fun accessToken _ => ?_)
            refine wp_seq (notes_query trivial fun consumed _ => ?_)
            refine wp_guard (fun _ => trivial) fun _ => ?_
            refine wp_seq (wp_seq (notes_act trivial fun refreshToken _ => ?_))
            refine wp_seq (notes_act trivial fun t _ => ?_)
            refine wp_seq (notes_query ⟨user, jwt, claims, hcookie, hvalid, rfl, hid, hmode⟩
              fun _ _ => ?_)
            refine wp_seq (notes_act trivial fun t' _ => ?_)
            refine wp_seq (notes_deleteTokensWhere trivial ?_)
            exact ⟨rfl, user, jwt, claims, hcookie, hvalid, rfl, hid, hmode⟩
    · intro x hx
      rw [hn.1] at hx
      exact absurd hx List.not_mem_nil

/-- What a resolved identity tells: the row was just read or inserted. -/
def Resolved (n : Notes) : ProviderIdentityResolution → Prop
  | .authenticated user => n.read = some user
  | .created user => n.read = some user
  | .linkConfirmationRequired _ => True

/-- The two lookups of an identity. -/
theorem notes_lookupIdentity {op : Op} {n : Notes} {identity : ProviderIdentity}
    {providerId : String} {Q : Option ProviderIdentityResolution → Notes → Prop}
    (hplain : n.IsPlain) (hsome : ∀ r n', Resolved n' r → Q (some r) n')
    (hnone : ∀ n', n'.IsPlain → Q none n') :
    wp (noting S op) Q Thrown (lookupIdentity identity providerId) n := by
  unfold lookupIdentity
  refine wp_seq (notes_query hplain fun linked _ => ?_)
  cases linked with
  | some user => exact hsome (.authenticated user) _ rfl
  | none =>
      refine wp_seq (notes_query hplain fun emailUser _ => ?_)
      cases emailUser with
      | some user => exact hsome (.linkConfirmationRequired user) _ trivial
      | none => exact hnone _ hplain

/-- A row is created for an identity, at some attempt. -/
theorem notes_createProviderUser {op : Op} {identity : ProviderIdentity}
    {providerId username : String} (left : Nat) (attempt : Nat) (n : Notes) (hplain : n.IsPlain) :
    wp (noting S op) (fun r n => Resolved n r) Thrown
      (createProviderUser S identity providerId username attempt left) n := by
  induction left generalizing attempt n with
  | zero => trivial
  | succ left ih =>
      unfold createProviderUser
      have hname : wp (noting S op) (fun _ n => n.IsPlain) Thrown (candidateName username attempt)
          n := by
        unfold candidateName
        split
        next => exact hplain
        next => exact wp_seq (notes_act trivial fun _ _ => hplain)
      refine wp_seq (wp_mono _ _ (fun candidate n' hplain => ?_) (fun _ _ h => h) hname)
      -- an INSERT that meets a unique column looks the identity up again
      have hinsert : wp (noting S op)
          (fun r n => n.IsPlain ∧ ∀ user, r = some user → n.read = some user) Thrown
          (insertAccount (providerAccount S identity providerId candidate)) n' := by
        unfold insertAccount
        rw [tryCatch_eq, wp_tryCatch]
        refine wp_seq (wp_query hplain (fun row n'' h => ?_) fun e n'' h => ?_)
        · rw [h.1]
          exact ⟨hplain, fun user huser => huser⟩
        · have hnone : n''.IsPlain ∧ ∀ user, none = some user → n''.read = some user := by
            rw [h.1]
            refine ⟨hplain, fun user huser => ?_⟩
            cases huser
          split
          next => exact hnone
          next => trivial
      refine wp_seq (wp_mono _ _ (fun row n'' hrow => ?_) (fun _ _ h => h) hinsert)
      cases row with
      | some user => exact hrow.2 user rfl
      | none =>
          refine wp_seq (notes_lookupIdentity hrow.1 (fun r n hr => hr) fun n hn => ?_)
          exact ih (attempt + 1) n hn

/-- **`googleLogin`.** -/
theorem notes_googleLogin (credential : String) :
    wp (noting S (.googleLogin credential))
      (fun r n => Told S n (.googleLogin credential) (.provider r)) Thrown
      (googleLogin S credential) (.fresh (.googleLogin credential)) := by
  unfold googleLogin
  have hconsume : Within [.challenge] (consumeCredential S credential) :=
    within_consumeCredential S credential (by decide)
  refine wp_seq (notes_any hconsume rfl
    (by decide) (by decide) (by decide) (by decide) (by decide) (fun claims n hplain => ?_)
    (Notes.isPlain_of_nil rfl rfl))
  have hresolve : wp (noting S (.googleLogin credential)) (fun r n => Resolved n r) Thrown
      (resolveProviderIdentity S
        { provider := .google, providerId := claims.sub, email := claims.email
          username := usernameForClaims S claims.email claims.name }) n := by
    unfold resolveProviderIdentity
    refine wp_guard (fun _ => trivial) fun _ => ?_
    refine wp_seq (notes_lookupIdentity hplain (fun r n hr => hr) fun n hn => ?_)
    exact wp_guard (fun _ => trivial) fun _ => notes_createProviderUser 3 0 n hn
  have hsession : ∀ (user : User) (n : Notes), n.read = some user →
      wp (noting S (.googleLogin credential))
        (fun r n => Told S n (.googleLogin credential) (.provider r)) Thrown
        (do let session ← issueProviderSession S user
            return some session) n := by
    intro user n hread
    unfold issueProviderSession
    refine wp_seq (wp_seq (notes_assertLoginAllowed fun hactive => ?_))
    refine wp_guard (fun _ => trivial) fun hforced => ?_
    refine wp_guard (fun _ => trivial) fun _ => ?_
    have hforced : user.mustChangePassword = false := by simpa using hforced
    exact notes_issueSession (fun v t hv => ⟨user, hread, hv, hactive, hforced⟩)
      fun session t => ⟨user, hread, hforced⟩
  refine wp_seq (wp_mono _ _ (fun r n hr => ?_) (fun _ _ h => h) hresolve)
  cases r with
  | linkConfirmationRequired user => trivial
  | authenticated user => exact hsession user n hr
  | created user => exact hsession user n hr

/-- The guard has read the row it lets through. -/
theorem notes_guardedUser {route : Route} {cookie : Option RawToken} {raw : RawToken} {n : Notes}
    (hcookie : cookie = some raw) (hpublic : route.isPublic = false) (hplain : n.IsPlain) :
    wp (noting S (.authenticate route cookie))
      (fun r n => Told S n (.authenticate route cookie) (.guarded (some r))) Thrown
      (guardedUser route raw) n := by
  unfold guardedUser verifyAccessToken
  refine wp_seq (wp_seq (notes_act trivial fun now _ => ?_))
  split
  next => trivial
  next claims hclaims =>
    refine wp_seq ?_
    rw [tryCatch_eq, wp_tryCatch]
    refine wp_query hplain (fun found n' h => ?_) fun _ _ _ => trivial
    rw [h.1]
    cases found with
    | none => trivial
    | some user =>
        have hid : user.id = claims.sub := h.2 user rfl
        dsimp only
        split
        next => trivial
        next => trivial
        next =>
          dsimp only [pure, wp]
          split
          next => trivial
          next hrefusal =>
            unfold recoveryRefusal at hrefusal
            simp only at hrefusal
            have hmode : user.mustChangePassword = claims.temporaryAuth ∧
                (user.mustChangePassword = true → route.isPasswordChange = true) := by
              cases hm : user.mustChangePassword <;> cases ht : claims.temporaryAuth <;>
                cases hr : route.isPasswordChange <;> simp [hm, ht, hr] at hrefusal ⊢
            exact ⟨hpublic, user, raw, now, claims, hcookie, hclaims, rfl, hid, hmode.1, hmode.2⟩

/-- **`JwtAuthGuard`.** -/
theorem notes_jwtAuthGuard (route : Route) (cookie : Option RawToken) :
    wp (noting S (.authenticate route cookie))
      (fun r n => Told S n (.authenticate route cookie) (.guarded r)) Thrown
      (jwtAuthGuard route cookie) (.fresh (.authenticate route cookie)) := by
  unfold jwtAuthGuard
  split
  next hpublic => exact hpublic
  next hpublic =>
    have hpublic : route.isPublic = false := by simpa using hpublic
    have htoken : ∀ raw, cookie = some raw →
        wp (noting S (.authenticate route cookie))
          (fun r n => Told S n (.authenticate route cookie) (.guarded r)) Thrown
          (MonadExcept.tryCatch (some <$> guardedUser route raw) fun error =>
            if isForbidden error then throw error
            else (throw (.unauthorized none) : Call (Option GuardedUser)))
          (.fresh (.authenticate route cookie)) := by
      intro raw hraw
      rw [tryCatch_eq, wp_tryCatch]
      refine wp_seq (wp_mono _ _ (fun _ _ h => h) (fun e n _ => ?_)
        (notes_guardedUser hraw hpublic (Notes.isPlain_of_nil rfl rfl)))
      split
      next => trivial
      next => trivial
    cases cookie with
    | none => trivial
    | some raw =>
        cases raw with
        | empty => trivial
        | _ => exact htoken _ rfl

/-- **The code of every operation meets its notes.** -/
theorem body_notes (S : Settings) (op : Op) :
    wp (noting S op) (fun r n => Told S n op r) Thrown (body S op) (.fresh op) := by
  cases op with
  | login identifier password context =>
      refine wp_seq (wp_mono _ _ (fun r n h => ?_) (fun _ _ h => h)
        (notes_loginUser identifier password context))
      cases r with
      | session tokens => exact h
      | requiresTwoFactor token => trivial
  | verify2FA bearer token => exact wp_seq (notes_verify2FA bearer token)
  | googleLogin credential => exact wp_seq (notes_googleLogin credential)
  | refresh cookie => exact wp_seq (notes_refresh cookie)
  | updatePassword userId oldPassword newPassword cookie temporaryAuth =>
      exact wp_seq (notes_updateUserPassword userId oldPassword newPassword cookie temporaryAuth)
  | setup2FA userId => exact wp_seq (notes_setup2FA userId)
  | confirm2FA userId token => exact wp_seq (notes_confirm2FA userId token)
  | disable2FA userId token => exact wp_seq (notes_disable2FA userId token)
  | resetPassword userId => exact wp_seq (notes_resetPassword userId)
  | removeTwoFactor userId => exact wp_seq (notes_removeTwoFactor userId)
  | authenticate route cookie => exact wp_seq (notes_jwtAuthGuard route cookie)
  | _ =>
      exact notes_quiet (body_within S _) rfl (by simp [Op.powers]) (by simp [Op.powers])
        (by simp [Op.powers]) (by simp [Op.powers]) (fun n hn => hn.1) (fun _ _ => trivial)
        (Notes.isPlain_of_nil rfl rfl)

end Operations

/-! ## §7. The monitor of the runs. -/

theorem Notes.next_op (n : Notes) {β : Type} (a : Act β) (b : β) : (n.next a b).op = n.op := by
  cases a with
  | query s =>
      cases b with
      | error e => rfl
      | ok r =>
          cases s with
          | updateUser id cond set =>
              show (if r.isSome then n.update id set else n).op = n.op
              split <;> rfl
          | _ => rfl
  | begin =>
      cases b with
      | error e => rfl
      | ok r => rfl
  | _ => rfl

/-- The notes of an operation, which acts within its powers. -/
def scribe (S : Settings) (op : Op) : Monitor Act Notes :=
  ((noting S op).restrict fun _ a => a.powers ⊆ op.powers).under fun n => n.op = some op

/-- What holds of a call that has returned. -/
def Closed (S : Settings) (op : Op) (r : Reply) (n : Notes) : Prop :=
  Told S n op r ∧ n.op = some op

/-- What holds of a call that has thrown. -/
def Broken (op : Op) (_ : Exn) (n : Notes) : Prop := n.op = some op

/-- **Every operation writes for a reason**, and within its powers. -/
theorem body_scribe (S : Settings) (op : Op) :
    wp (scribe S op) (Closed S op) (Broken op) (body S op) (.fresh op) := by
  refine wp_mono _ _ (fun _ _ h => h) (fun _ _ h => h.2) (wp_under ?_
    (wp_restrict (body_within S op) (body_notes S op)) rfl)
  intro β a n b n' hn h
  rw [h.1, n.next_op]
  exact hn

end MinePanel.Accounts
