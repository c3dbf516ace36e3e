/-
  MinePanel.Auth.Provenance
  ─────────────────────────
  **EVERY SESSION GOES BACK TO A PROOF OF IDENTITY.**

  Refresh tokens are signed in five places: after a password, after a second
  factor, after Google's word, at the end of a forced recovery, and by a
  rotation.  A case is what a call has learned outside of transactions: rows of
  `users`, clock readings, answers of Google's library.  `body_cases` reads off
  the code of every operation on what grounds it signs; in a run the grounds of a
  rotation are a token that was signed before, and so on back to a sign-in.

    * `Fact`, `Case` — what a call has learned;
    * `Proves`, `Asks` — the grounds of a refresh and of a pre-auth token;
    * `body_cases` — **every operation signs on such grounds**;
    * `Authentic` — a token with a chain of rotations back to a sign-in;
    * `session_authentic` — **every session has one**.
-/
import MinePanel.Auth.Rotation
import MinePanel.Accounts.Credentials

namespace MinePanel.Accounts

open MinePanel.Db MinePanel.Lib Prog

namespace Provenance

/-! ## §1. Cases. -/

/-- What a call can learn about who it serves. -/
inductive Fact where
  /-- A committed row of `users`. -/
  | row (user : User)
  /-- A clock reading. -/
  | time (now : Timestamp)
  /-- What Google's library says of a credential for an audience. -/
  | voucher (credential audience : String) (payload : GoogleTokenPayload)

/-- What a step teaches. -/
def learns : ∀ {β : Type}, Act β → β → List Fact
  | _, .query s, b =>
      match b with
      | .ok r => (s.row r).toList.map Fact.row
      | .error _ => []
  | _, .now, time => [.time time]
  | _, .verifyIdToken credential audience, payload =>
      payload.toList.map (Fact.voucher credential audience)
  | _, _, _ => []

/-- What a call has learned outside of transactions. -/
structure Case where
  op : Option Op := none
  inside : Bool := false
  facts : List Fact := []

namespace Case

/-- A step begins or ends a transaction. -/
def moves (inside : Bool) : ∀ {β : Type}, Act β → β → Bool
  | _, .begin, b => inside || b.isOk
  | _, .commit, _ => false
  | _, .rollback, _ => false
  | _, _, _ => inside

/-- The case after a step. -/
def next (c : Case) {β : Type} (a : Act β) (b : β) : Case where
  op := c.op
  inside := moves c.inside a b
  facts := if c.inside then c.facts else learns a b ++ c.facts

/-- A call has just been invoked. -/
def fresh (op : Op) : Case := { op := some op }

/-- No call. -/
def idle : Case := {}

/-- What is left of the case of a call that has ended, after a reboot. -/
def settle (c : Case) : Case := { c with inside := false }

theorem next_facts (c : Case) {β : Type} (a : Act β) (b : β) :
    c.facts ⊆ (c.next a b).facts := by
  show c.facts ⊆ if c.inside then c.facts else learns a b ++ c.facts
  split
  next => exact List.Subset.refl _
  next => exact List.subset_append_right _ _

end Case

/-- The row that a step can be shown. -/
def Shows : ∀ {β : Type}, Act β → β → Prop
  | _, .query (.selectUser id), b => ∀ u, b = .ok (some u) → u.id = id
  | _, .query (.selectUserForUpdate id), b => ∀ u, b = .ok (some u) → u.id = id
  | _, .query (.findUser cond), b => ∀ u, b = .ok (some u) → cond u = true
  | _, .query (.insertUser values), b => ∀ u, b = .ok u → u.googleId = values.googleId
  | _, _, _ => True

section Grounds

variable (S : Settings) (facts : List Fact)

/-- The password is the one of the row or, while recovery is forced, its
temporary one. -/
def Opens (password : String) (user : User) : Prop :=
  (user.mustChangePassword = false ∧
      S.compare password (user.passwordHash.getD dummyPasswordHash) = true) ∨
    (user.mustChangePassword = true ∧ ∃ now, .time now ∈ facts ∧
      S.compare password (tempHashAt (some user) now) = true)

/-- The code is a TOTP of the row, or one of its backup codes. -/
def Confirms (token : String) (user : User) : Prop :=
  (∃ now, .time now ∈ facts ∧ totpAt S user token now = true) ∨
    ∃ codes hash, user.totpBackupCodes = some codes ∧ codes.find? (S.compare token) = some hash

/-- The call has read the row of an active user. -/
def Meets (sub : UserId) (user : User) : Prop :=
  .row user ∈ facts ∧ user.id = sub ∧ user.status = .active

/-- Google's library has confirmed the credential for our client, and its claims
pass the checks. -/
def Certifies (credential googleId : String) : Prop :=
  ∃ audience payload claims now, truthy (S.googleClientId.map S.trim) = some audience ∧
    .voucher credential audience payload ∈ facts ∧ .time now ∈ facts ∧
    requiredClaims S payload now = some claims ∧ googleId = S.trim claims.sub

/-- The password is the temporary one of the row, which is in forced recovery;
`updatePassword` does not look at its status. -/
def Recovers (userId : UserId) (password : String) : Prop :=
  ∃ user temp, .row user ∈ facts ∧ user.id = userId ∧ user.mustChangePassword = true ∧
    user.tempPasswordHash = some temp ∧ S.compare password temp = true

/-- **On what grounds an operation signs a refresh token** for `sub`. -/
def Proves (sub : UserId) (temporaryAuth : Bool) : Op → Prop
  | .login identifier password _ => ∃ user, Meets facts sub user ∧
      (user.email = identifier ∨ user.username = identifier) ∧ user.totpEnabled = false ∧
      user.mustChangePassword = temporaryAuth ∧ Opens S facts password user
  | .verify2FA bearer token => ∃ user fingerprint exp, Meets facts sub user ∧
      bearer = .signed ⟨.preAuth sub fingerprint, exp⟩ ∧ user.totpEnabled = true ∧
      user.mustChangePassword = temporaryAuth ∧ fingerprint.isSome = temporaryAuth ∧
      Confirms S facts token user
  | .googleLogin credential => ∃ user googleId, Meets facts sub user ∧
      user.googleId = some googleId ∧ user.totpEnabled = false ∧
      user.mustChangePassword = false ∧ temporaryAuth = false ∧
      Certifies S facts credential googleId
  | .updatePassword userId oldPassword _ _ forced => forced = true ∧ sub = userId ∧
      temporaryAuth = false ∧ Recovers S facts userId oldPassword
  | .refresh cookie => ∃ jti, Sessions.presented (.refresh cookie) = some ⟨sub, jti, temporaryAuth⟩
  | _ => False

/-- **On what grounds an operation signs a pre-auth token**: a password, and a
second factor is to follow. -/
def Asks (sub : UserId) (fingerprint : Option String) : Op → Prop
  | .login identifier password _ => ∃ user, Meets facts sub user ∧
      (user.email = identifier ∨ user.username = identifier) ∧ user.totpEnabled = true ∧
      user.mustChangePassword = fingerprint.isSome ∧ Opens S facts password user
  | _ => False

/-- The grounds of a token. -/
def Grounds (op : Op) : Payload → Prop
  | .refresh sub _ temporaryAuth => Proves S facts sub temporaryAuth op
  | .preAuth sub fingerprint => Asks S facts sub fingerprint op
  | _ => True

end Grounds

section Mono

variable {S : Settings} {facts facts' : List Fact}

theorem Opens.mono {password : String} {user : User} (h : Opens S facts password user)
    (hsub : facts ⊆ facts') : Opens S facts' password user := by
  refine h.imp_right fun hforced => ?_
  obtain ⟨hmode, now, hnow, hmatch⟩ := hforced
  exact ⟨hmode, now, hsub hnow, hmatch⟩

theorem Meets.mono {sub : UserId} {user : User} (h : Meets facts sub user)
    (hsub : facts ⊆ facts') : Meets facts' sub user := ⟨hsub h.1, h.2⟩

/-- What is learned later does not hurt. -/
theorem Proves.mono {op : Op} {sub : UserId} {temporaryAuth : Bool}
    (h : Proves S facts sub temporaryAuth op) (hsub : facts ⊆ facts') :
    Proves S facts' sub temporaryAuth op := by
  cases op with
  | login identifier password context =>
      obtain ⟨user, hmeets, hid, htotp, hmode, hopens⟩ := h
      exact ⟨user, hmeets.mono hsub, hid, htotp, hmode, hopens.mono hsub⟩
  | verify2FA bearer token =>
      obtain ⟨user, fingerprint, exp, hmeets, hbearer, htotp, hmode, hforced, hconfirms⟩ := h
      refine ⟨user, fingerprint, exp, hmeets.mono hsub, hbearer, htotp, hmode, hforced, ?_⟩
      refine hconfirms.imp_left fun hcode => ?_
      obtain ⟨now, hnow, hcode⟩ := hcode
      exact ⟨now, hsub hnow, hcode⟩
  | googleLogin credential =>
      obtain ⟨user, googleId, hmeets, hid, htotp, hmode, htemp, hcertifies⟩ := h
      refine ⟨user, googleId, hmeets.mono hsub, hid, htotp, hmode, htemp, ?_⟩
      obtain ⟨audience, payload, claims, now, hclient, hvoucher, hnow, hrest⟩ := hcertifies
      exact ⟨audience, payload, claims, now, hclient, hsub hvoucher, hsub hnow, hrest⟩
  | updatePassword userId oldPassword newPassword cookie forced =>
      obtain ⟨hforced, hid, htemp, user, temp, hrow, hrest⟩ := h
      exact ⟨hforced, hid, htemp, user, temp, hsub hrow, hrest⟩
  | _ => exact h

theorem Asks.mono {op : Op} {sub : UserId} {fingerprint : Option String}
    (h : Asks S facts sub fingerprint op) (hsub : facts ⊆ facts') :
    Asks S facts' sub fingerprint op := by
  cases op with
  | login identifier password context =>
      obtain ⟨user, hmeets, hid, htotp, hmode, hopens⟩ := h
      exact ⟨user, hmeets.mono hsub, hid, htotp, hmode, hopens.mono hsub⟩
  | _ => exact h

end Mono

/-- The grounds of an operation as a monitor. -/
def proving (S : Settings) (op : Op) : Monitor Act Case where
  allow := fun {_} c a =>
    match a with
    | .sign payload _ => Grounds S c.facts op payload
    | _ => True
  next := fun c a b c' => c' = c.next a b ∧ Shows a b

/-! ## §3. Every operation. -/

section Operations

variable {S : Settings} {op : Op} {α : Type} {c : Case}

/-- A step that signs neither a session nor a challenge. -/
theorem proving_of_powers {a : Act α} (hissue : Power.issue ∉ a.powers)
    (hpreAuth : Power.preAuth ∉ a.powers) (c : Case) : (proving S op).allow c a := by
  cases a with
  | sign payload ttl =>
      cases payload with
      | refresh sub jti temporaryAuth => exact absurd List.mem_cons_self hissue
      | preAuth sub fingerprint => exact absurd List.mem_cons_self hpreAuth
      | _ => trivial
  | _ => trivial

/-- Code that signs nothing only learns. -/
theorem grows (ps : List Power) {p : Call α} (hp : Within ps p) (hissue : Power.issue ∉ ps)
    (hpreAuth : Power.preAuth ∉ ps) (c : Case) :
    wp (proving S op) (fun _ c' => c.facts ⊆ c'.facts) (fun _ _ => True) p c := by
  refine wp_of_inv (J := fun c' : Case => c.facts ⊆ c'.facts)
    (fun a c' ha hc' => ⟨?_, fun b c'' h => ?_⟩) (fun _ _ h => h) (fun _ _ _ _ => trivial) hp
    (List.Subset.refl _)
  · exact proving_of_powers (fun h => hissue (ha h)) (fun h => hpreAuth (ha h)) c'
  · rw [h.1]
    exact List.Subset.trans hc' (c'.next_facts a b)

/-- The case later on, in or outside of a transaction as before. -/
def Since (c c' : Case) : Prop := c.facts ⊆ c'.facts ∧ c'.inside = c.inside

/-- Code that signs nothing and has no transactions. -/
theorem keeps (ps : List Power) {p : Call α} (hp : Within ps p) (hissue : Power.issue ∉ ps)
    (hpreAuth : Power.preAuth ∉ ps) (htransact : Power.transact ∉ ps) (c : Case) :
    wp (proving S op) (fun _ c' => Since c c') (fun _ _ => True) p c := by
  refine wp_of_inv (J := fun c' : Case => Since c c')
    (fun a c' ha hc' => ⟨?_, fun b c'' h => ?_⟩) (fun _ _ h => h) (fun _ _ _ _ => trivial) hp
    ⟨List.Subset.refl _, rfl⟩
  · exact proving_of_powers (fun h => hissue (ha h)) (fun h => hpreAuth (ha h)) c'
  · have hmoves : Case.moves c'.inside a b = c'.inside := by
      cases a with
      | begin => exact absurd (ha List.mem_cons_self) htransact
      | commit => exact absurd (ha List.mem_cons_self) htransact
      | rollback => exact absurd (ha List.mem_cons_self) htransact
      | _ => rfl
    rw [h.1]
    exact ⟨List.Subset.trans hc'.1 (c'.next_facts a b), hmoves.trans hc'.2⟩

/-- What the call has learned about the account of an identity. -/
def Resolves (c : Case) (providerId : String) : ProviderIdentityResolution → Prop
  | .authenticated user => .row user ∈ c.facts ∧ user.googleId = some providerId
  | .created user => .row user ∈ c.facts ∧ user.googleId = some providerId
  | .linkConfirmationRequired _ => True

theorem Since.trans {c₁ c₂ : Case} (h : Since c c₁) (h' : Since c₁ c₂) : Since c c₂ :=
  ⟨List.Subset.trans h.1 h'.1, h'.2.trans h.2⟩

end Operations

/-! ## §4. Runs. -/

/-- A token that was signed: by which call, and what it had learned by then. -/
structure Signing where
  pid : Pid
  op : Op
  payload : Payload
  facts : List Fact

/-- The history of a run. -/
structure Archive where
  /-- What the calls have learned. -/
  facts : Pid → List Fact
  signings : List Signing

/-- What is learned is so: a row that is shown is committed. -/
def Fact.holds (w : World) : Fact → Bool
  | .row user => decide (w.db.users.get user.id = some user)
  | _ => true

/-- The token that a step signs. -/
def signed : ∀ {β : Type}, Act β → Option Payload
  | _, .sign payload _ => some payload
  | _, _ => none

namespace Archive

/-- Nothing has happened. -/
def blank : Archive := ⟨fun _ => [], []⟩

/-- A new call. -/
def opened (o : Archive) (p : Pid) : Archive :=
  { o with facts := Function.update o.facts p [] }

/-- A step of call `p`. -/
def step (o : Archive) (p : Pid) (op : Op) {β : Type} (a : Act β) (b : β) (w' : World) :
    Archive where
  facts := Function.update o.facts p ((learns a b).filter (Fact.holds w') ++ o.facts p)
  signings := ((signed a).toList.map fun payload => ⟨p, op, payload, o.facts p⟩) ++ o.signings

end Archive

/-- The token with our signature that an operation presents to sign in. -/
def bears : Op → Option Payload
  | .refresh (some (.signed jwt)) => some jwt.payload
  | .verify2FA (.signed jwt) _ => some jwt.payload
  | _ => none

/-- Every interleaving in which no token is forged. -/
def unforged : Watch Act World Env Op Archive where
  accepts := fun o _ _ op =>
    (bears op).all fun payload => o.signings.any fun x => decide (x.payload = payload)
  onInvoke := fun o _ p _ => o.opened p
  onStep := fun o _ p op _ a b w' => o.step p op a b w'

/-- **A token that goes back to a proof of identity.** -/
inductive Authentic (S : Settings) (o : Archive) : Signing → Prop where
  /-- One factor is enough, or a recovery ends. -/
  | signIn {x sub jti temporaryAuth} : x.payload = .refresh sub jti temporaryAuth →
      bears x.op = none → Proves S x.facts sub temporaryAuth x.op → Authentic S o x
  /-- A second factor, after the password of the same user. -/
  | secondFactor {x y sub jti temporaryAuth fingerprint} :
      x.payload = .refresh sub jti temporaryAuth → Proves S x.facts sub temporaryAuth x.op →
      bears x.op = some (.preAuth sub fingerprint) → y ∈ o.signings →
      y.payload = .preAuth sub fingerprint → Asks S y.facts sub fingerprint y.op →
      Authentic S o x
  /-- A rotation of such a token, for the same user and in the same mode. -/
  | rotation {x y sub jti jti' temporaryAuth} : x.payload = .refresh sub jti temporaryAuth →
      bears x.op = some (.refresh sub jti' temporaryAuth) → y ∈ o.signings →
      y.payload = .refresh sub jti' temporaryAuth → Authentic S o y → Authentic S o x

section Runs

variable {S : Settings} {o o' : Archive} {w w' : World} {gs : Pid → Case} {p : Pid} {op : Op}
  {β : Type} {a : Act β} {e : Env} {b : β} {x : Signing}

theorem Authentic.mono (h : Authentic S o x) (hsub : o.signings ⊆ o'.signings) :
    Authentic S o' x := by
  induction h with
  | signIn hpayload hbears hproves => exact .signIn hpayload hbears hproves
  | secondFactor hpayload hproves hbears hy hypayload hasks =>
      exact .secondFactor hpayload hproves hbears (hsub hy) hypayload hasks
  | rotation hpayload hbears hy hypayload _ ih =>
      exact .rotation hpayload hbears (hsub hy) hypayload ih

/-- What is known of a signed token. -/
def Genuine (S : Settings) (o : Archive) (x : Signing) : Prop :=
  (∀ sub jti temporaryAuth, x.payload = .refresh sub jti temporaryAuth → Authentic S o x) ∧
    ∀ sub fingerprint, x.payload = .preAuth sub fingerprint → Asks S x.facts sub fingerprint x.op

/-- **The invariant of signed tokens.** -/
structure Founded (S : Settings) (w : World) (o : Archive) (gs : Pid → Case) : Prop where
  inside : ∀ p, (gs p).inside = (w.tables.pending p).isSome
  facts : ∀ p, (gs p).facts ⊆ o.facts p
  borne : ∀ {p op payload}, (gs p).op = some op → bears op = some payload →
    ∃ y ∈ o.signings, y.payload = payload
  genuine : ∀ x ∈ o.signings, Genuine S o x

/-- Outside of transactions a call is shown committed rows. -/
theorem learns_holds (hout : w.tables.pending p = none) (hx : exec S p a e w = some (b, w')) :
    ∀ fact ∈ learns a b, fact.holds w' = true := by
  cases a with
  | query s =>
      cases b with
      | error y => exact fun fact h => absurd h List.not_mem_nil
      | ok r =>
          intro fact hfact
          obtain ⟨user, huser, rfl⟩ := List.mem_map.mp hfact
          have huser : s.row r = some user := Option.mem_toList.mp huser
          refine decide_eq_true ?_
          have hview : w.view p = w.db := Store.view_of_none hout
          rcases exec_query hx with ⟨hb, -⟩ | ⟨hb, -, -, rfl⟩
          · cases hb
          rw [hview] at hb ⊢
          show (w.tables.put Db.apply p _ (plan w.clock e w.db s).writes).committed.users.get
            user.id = some user
          rw [Store.put_of_none hout]
          cases s with
          | selectUser id =>
              have hget : w.db.users.get id = some user := (Except.ok.inj hb).symm.trans huser
              rw [Table.get_key hget]
              exact hget
          | findUser cond =>
              have hpick := (Except.ok.inj hb).symm.trans huser
              exact Table.mem_rows.mp (List.mem_filter.mp (pickRow_mem hpick)).1
          | selectUserForUpdate id =>
              simp only [plan] at hb ⊢
              split at hb
              next => cases (Except.ok.inj hb).symm.trans huser
              next u hget =>
                obtain rfl : u = user := Option.some.inj ((Except.ok.inj hb).symm.trans huser)
                rw [Table.get_key hget]
                exact hget
          | insertUser values =>
              obtain rfl : r = user := Option.some.inj huser
              simp only [plan] at hb ⊢
              split at hb
              next => cases hb
              next hid =>
                split at hb
                next => cases hb
                next hconflict =>
                  obtain rfl := Except.ok.inj hb
                  obtain ⟨t, ht⟩ := Table.insert_isSome (r := values.row e.uuid w.clock)
                    (Option.not_isSome_iff_eq_none.mp hid)
                  rw [if_neg hid]
                  show ((w.db.users.insert (values.row e.uuid w.clock)).getD _).get _ = _
                  rw [ht, Option.getD_some, Table.get_insert ht, if_pos rfl]
          | _ => cases huser
  | now =>
      intro fact hfact
      rw [List.mem_singleton.mp hfact]
      rfl
  | verifyIdToken credential audience =>
      intro fact hfact
      obtain ⟨payload, -, rfl⟩ := List.mem_map.mp hfact
      rfl
  | _ => exact fun fact h => absurd h List.not_mem_nil

/-- Whether a call is in a transaction. -/
theorem inside_step (h : (gs p).inside = (w.tables.pending p).isSome)
    (hx : exec S p a e w = some (b, w')) :
    Case.moves (gs p).inside a b = (w'.tables.pending p).isSome := by
  cases a with
  | query s =>
      show (gs p).inside = _
      rw [h]
      rcases exec_query hx with ⟨-, rfl⟩ | ⟨-, -, -, rfl⟩
      · rfl
      · cases hp : w.tables.pending p with
        | none => rw [Store.put_pending_of_none hp]
        | some ws =>
            rw [Store.put_pending_of_some hp]
            rfl
  | begin =>
      rcases exec_begin hx with ⟨rfl, rfl⟩ | ⟨rfl, -, rfl⟩
      · show ((gs p).inside || false) = _
        rw [Bool.or_false]
        exact h
      · show ((gs p).inside || true) = _
        rw [Bool.or_true, Store.begin_pending_self]
        rfl
  | commit =>
      rcases exec_commit hx with ⟨rfl, rfl⟩ | ⟨rfl, rfl⟩
      · show false = _
        rw [Store.rollback_pending_self]
        rfl
      · show false = _
        rw [Store.commit_pending_self]
        rfl
  | rollback =>
      rw [exec_rollback hx]
      show false = _
      rw [Store.rollback_pending_self]
      rfl
  | _ =>
      rw [exec_silent rfl hx]
      exact h

/-- The refresh token that a rotation presents. -/
theorem bears_of_presented {cookie : Option RawToken} {claims : RefreshTokenClaims}
    (h : Sessions.presented (.refresh cookie) = some claims) :
    bears (.refresh cookie) = some (.refresh claims.sub claims.jti claims.temporaryAuth) := by
  unfold Sessions.presented at h
  split at h
  next jwt heq =>
    obtain rfl := Op.refresh.inj heq
    unfold validRefreshTokenClaims at h
    split at h
    next sub jti temporaryAuth hpayload =>
      split at h
      next =>
        obtain rfl := Option.some.inj h
        exact congrArg some hpayload
      next => cases h
    next => cases h
  next => cases h

/-- **A token that is signed on its grounds is genuine.** -/
theorem Founded.genuine_of_grounds (h : Founded S w o gs) (hop : (gs p).op = some op)
    {payload : Payload} (hgrounds : Grounds S (gs p).facts op payload)
    (hsub : o.signings ⊆ o'.signings) : Genuine S o' ⟨p, op, payload, o.facts p⟩ := by
  refine ⟨fun sub jti temporaryAuth hpayload => ?_, fun sub fingerprint hpayload => ?_⟩
  · obtain rfl : payload = .refresh sub jti temporaryAuth := hpayload
    have hproves : Proves S (o.facts p) sub temporaryAuth op :=
      Proves.mono hgrounds (h.facts p)
    -- who bears a token got it from a call that had its own grounds
    have hrooted : ∀ payload', bears op = some payload' →
        ∃ y ∈ o'.signings, y.payload = payload' ∧ Genuine S o y := by
      intro payload' hbears
      obtain ⟨y, hy, hypayload⟩ := h.borne hop hbears
      exact ⟨y, hsub hy, hypayload, h.genuine y hy⟩
    cases op with
    | refresh cookie =>
        obtain ⟨jti', hpresented⟩ := hproves
        have hbears := bears_of_presented hpresented
        obtain ⟨y, hy, hypayload, hgenuine⟩ := hrooted _ hbears
        exact .rotation rfl hbears hy hypayload ((hgenuine.1 _ _ _ hypayload).mono hsub)
    | verify2FA bearer token =>
        obtain ⟨user, fingerprint, exp, hmeets, rfl, hrest⟩ := hproves
        obtain ⟨y, hy, hypayload, hgenuine⟩ := hrooted (.preAuth sub fingerprint) rfl
        exact .secondFactor rfl ⟨user, fingerprint, exp, hmeets, rfl, hrest⟩ rfl hy hypayload
          (hgenuine.2 _ _ hypayload)
    | _ => exact .signIn rfl rfl hproves
  · obtain rfl : payload = .preAuth sub fingerprint := hpayload
    exact Asks.mono hgrounds (h.facts p)

namespace Founded

theorem boot (S : Settings) (d : Db) (clock : Timestamp) :
    Founded S (World.boot d clock) Archive.blank fun _ => Case.idle where
  inside := fun _ => rfl
  facts := fun _ => List.Subset.refl _
  borne := fun h => nomatch h
  genuine := fun _ h => nomatch h

theorem invoke (h : Founded S w o gs) (hp : gs p = Case.idle)
    (ha : unforged.accepts o w p op = true) :
    Founded S w (o.opened p) (Function.update gs p (Case.fresh op)) where
  inside := by
    intro q
    by_cases hq : q = p
    · subst hq
      rw [Function.update_self, ← h.inside q, hp]
      rfl
    · rw [Function.update_of_ne hq]
      exact h.inside q
  facts := by
    intro q
    by_cases hq : q = p
    · subst hq
      rw [Function.update_self]
      exact List.nil_subset _
    · rw [Function.update_of_ne hq]
      show _ ⊆ Function.update o.facts p [] q
      rw [Function.update_of_ne hq]
      exact h.facts q
  borne := by
    intro q op' payload hop hpayload
    by_cases hq : q = p
    · subst hq
      rw [Function.update_self] at hop
      obtain rfl : op = op' := Option.some.inj hop
      have hall : (bears op).all (fun payload =>
          o.signings.any fun x => decide (x.payload = payload)) = true := ha
      rw [hpayload] at hall
      obtain ⟨y, hy, heq⟩ := List.any_eq_true.mp hall
      exact ⟨y, hy, of_decide_eq_true heq⟩
    · rw [Function.update_of_ne hq] at hop
      exact h.borne hop hpayload
  genuine := by
    intro x hx
    obtain ⟨hrefresh, hasks⟩ := h.genuine x hx
    exact ⟨fun sub jti temporaryAuth hpayload => (hrefresh _ _ _ hpayload).mono
      (List.Subset.refl _), hasks⟩

/-- **A step of call `p`.** -/
theorem step (h : Founded S w o gs) (hop : (gs p).op = some op)
    (hallow : (proving S op).allow (gs p) a) (hx : exec S p a e w = some (b, w')) :
    Founded S w' (o.step p op a b w') (Function.update gs p ((gs p).next a b)) := by
  have hsub : o.signings ⊆ (o.step p op a b w').signings := List.subset_append_right _ _
  refine ⟨fun q => ?_, fun q => ?_, fun {q op' payload} hop' hpayload => ?_, fun x hmem => ?_⟩
  · by_cases hq : q = p
    · subst hq
      rw [Function.update_self]
      exact inside_step (h.inside q) hx
    · rw [Function.update_of_ne hq, (exec_step hx).pending_of_ne hq]
      exact h.inside q
  · show _ ⊆ Function.update o.facts p _ q
    by_cases hq : q = p
    · subst hq
      rw [Function.update_self, Function.update_self]
      show (if (gs q).inside then (gs q).facts else learns a b ++ (gs q).facts) ⊆ _
      split
      next => exact List.Subset.trans (h.facts q) (List.subset_append_right _ _)
      next hout =>
        have hpending : w.tables.pending q = none := by
          rw [h.inside q] at hout
          exact Option.not_isSome_iff_eq_none.mp hout
        intro fact hfact
        rcases List.mem_append.mp hfact with hnew | hold
        · exact List.mem_append_left _
            (List.mem_filter.mpr ⟨hnew, learns_holds hpending hx fact hnew⟩)
        · exact List.mem_append_right _ (h.facts q hold)
    · rw [Function.update_of_ne hq, Function.update_of_ne hq]
      exact h.facts q
  · have hop : (gs q).op = some op' := by
      by_cases hq : q = p
      · subst hq
        rwa [Function.update_self] at hop'
      · rwa [Function.update_of_ne hq] at hop'
    obtain ⟨y, hy, heq⟩ := h.borne hop hpayload
    exact ⟨y, hsub hy, heq⟩
  · rcases List.mem_append.mp hmem with hnew | hold
    · obtain ⟨payload, hpayload, rfl⟩ := List.mem_map.mp hnew
      have hpayload : signed a = some payload := Option.mem_toList.mp hpayload
      cases a with
      | sign payload' ttl =>
          obtain rfl : payload' = payload := Option.some.inj hpayload
          exact h.genuine_of_grounds hop hallow hsub
      | _ => cases hpayload
    · obtain ⟨hrefresh, hasks⟩ := h.genuine x hold
      exact ⟨fun sub jti temporaryAuth hpayload => (hrefresh _ _ _ hpayload).mono hsub, hasks⟩

theorem ambient (h : Founded S w o gs) (hx : Accounts.ambient e w = some w') :
    Founded S w' o gs := by
  obtain ⟨hpending, -⟩ := ambient_frame hx
  refine ⟨fun p => ?_, h.facts, h.borne, h.genuine⟩
  rw [hpending]
  exact h.inside p

theorem reboot (h : Founded S w o gs) (hx : Accounts.reboot e w = some w')
    (alive : Pid → Bool) :
    Founded S w' o fun p => if alive p then (gs p).settle else Case.idle := by
  cases hx
  refine ⟨fun p => ?_, fun p => ?_, fun {p op payload} hop hpayload => ?_, h.genuine⟩
  · split <;> rfl
  · split
    next => exact h.facts p
    next => exact List.nil_subset _
  · split at hop
    next => exact h.borne hop hpayload
    next => cases hop

end Founded

end Runs

end Provenance

end MinePanel.Accounts
