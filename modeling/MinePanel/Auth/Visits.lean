/-
  MinePanel.Auth.Visits
  ─────────────────────
  **A CALL OF THE GOOGLE ROUTES, STEP BY STEP.**

  A visit is what a call has learned and done: the token Google vouched for,
  the challenge it drew or consumed, the accounts it looked up, the one it
  created.  `body_visits` reads off the code of every operation on which grounds
  it writes challenges, provider identities and provider sessions; the proofs
  about runs use the visits only.

    * `Visit`, `Visit.next` — what a step adds;
    * `Act.Grounds` — on which grounds a call acts;
    * `Visit.Escaped` — a lookup found the subject linked, or its e-mail free;
    * `body_visits` — **every operation acts on its grounds**.
-/
import MinePanel.Accounts.Steps

namespace MinePanel.Accounts

open MinePanel.Db MinePanel.Lib Prog

/-! ## §1. Visits. -/

/-- What a call has learned and done. -/
structure Visit where
  op : Option Op := none
  /-- What Google's verifier said. -/
  payload : Option GoogleTokenPayload := none
  /-- Its last clock reading. -/
  now : Option Timestamp := none
  /-- The random text it drew last. -/
  drawn : Option String := none
  /-- It has consumed a challenge. -/
  passed : Bool := false
  /-- It is in a transaction. -/
  inside : Bool := false
  /-- It has run a statement since its transaction began. -/
  wrote : Bool := false
  /-- It has stored a challenge. -/
  stored : Bool := false
  /-- Its lookups outside transactions, the last one first. -/
  looks : List ((User → Bool) × Option User) := []
  /-- The account it created outside a transaction. -/
  created : Option User := none

namespace Visit

/-- The subject of the token. -/
def subject (v : Visit) : Option String := v.payload.bind GoogleTokenPayload.sub

/-- The e-mail of the token. -/
def email (v : Visit) : Option String := v.payload.bind GoogleTokenPayload.email

/-- The nonce of the token. -/
def nonce (v : Visit) : Option String := v.payload.bind GoogleTokenPayload.nonce

/-- What a statement adds. -/
def after (v : Visit) : ∀ {α : Type}, Stmt α → α → Visit
  | _, .findUser cond, r =>
      if v.inside then { v with wrote := true }
      else { v with wrote := true, looks := (cond, r) :: v.looks }
  | _, .insertUser _, r =>
      if v.inside then { v with wrote := true } else { v with wrote := true, created := some r }
  | _, .insertChallenge _ _ _, _ => { v with wrote := true, stored := true }
  | _, .consumeChallenge _ _ _, r => { v with wrote := true, passed := v.passed || r.isSome }
  | _, _, _ => { v with wrote := true }

/-- The visit after a step. -/
def next (v : Visit) : ∀ {β : Type}, Act β → β → Visit
  | _, .query s, b =>
      match b with
      | .ok r => v.after s r
      | .error _ => v
  | _, .begin, b =>
      match b with
      | .ok _ => { v with inside := true, wrote := false }
      | .error _ => v
  | _, .commit, _ => { v with inside := false }
  | _, .rollback, _ => { v with inside := false }
  | _, .now, t => { v with now := some t }
  | _, .random, text => { v with drawn := some text }
  | _, .verifyIdToken _ _, r => { v with payload := r }
  | _, _, _ => v

/-- A call has just been invoked. -/
def fresh (op : Op) : Visit := { op := some op }

/-- No call. -/
def idle : Visit := {}

/-- What is left of the visit of a call that has ended, after a reboot. -/
def settle (v : Visit) : Visit := { v with inside := false }

theorem next_op (v : Visit) {β : Type} (a : Act β) (b : β) : (v.next a b).op = v.op := by
  cases a with
  | query s =>
      cases b with
      | error e => rfl
      | ok r =>
          cases s with
          | findUser cond =>
              show (if v.inside then _ else _ : Visit).op = v.op
              split <;> rfl
          | insertUser x =>
              show (if v.inside then _ else _ : Visit).op = v.op
              split <;> rfl
          | _ => rfl
  | begin => cases b <;> rfl
  | _ => rfl

end Visit

/-- What a step can be answered. -/
def Answers : ∀ {β : Type}, Act β → β → Prop
  | _, .query (.findUser cond), b => (∀ u, b = .ok (some u) → cond u = true) ∧
      ∀ e, b = .error e → e = .statementFailed
  | _, .query (.insertUser v), b => ∀ u, b = .ok u → u.googleId = v.googleId
  | _, .sign payload _, jwt => jwt.payload = payload
  | _, _, _ => True

theorem plan_findUser_answer {now : Timestamp} {e : Env} {d : Db} {cond : User → Bool} {u : User}
    (h : (plan now e d (.findUser cond)).answer = .ok (some u)) :
    u ∈ d.users.rows ∧ cond u = true :=
  List.mem_filter.mp (pickRow_mem (Except.ok.inj h))

/-- A refused statement writes nothing. -/
theorem plan_error_writes {α : Type} {now : Timestamp} {e : Env} {d : Db} {s : Stmt α} {x : Exn}
    (h : (plan now e d s).answer = .error x) : (plan now e d s).writes = [] := by
  revert h
  cases s <;> simp only [plan, Plan.read, Plan.refuse] <;> (repeat' split) <;> simp

/-- The row that an INSERT returns is the one it writes. -/
theorem plan_insertUser_answer {now : Timestamp} {e : Env} {d : Db} {v : NewUser} {u : User}
    (h : (plan now e d (.insertUser v)).answer = .ok u) :
    u = v.row e.uuid now ∧ d.users.get u.id = none ∧
      (plan now e d (.insertUser v)).writes = [.insertUser u] := by
  simp only [plan] at h ⊢
  split at h
  next => cases h
  next hfree =>
    split at h
    next => cases h
    next hconflict =>
      cases h
      rw [if_neg hfree]
      exact ⟨rfl, by simpa using hfree, rfl⟩

theorem exec_answers {S : Settings} {p : Pid} {β : Type} {a : Act β} {e : Env} {b : β}
    {w w' : World} (h : exec S p a e w = some (b, w')) : Answers a b := by
  cases a with
  | query s =>
      cases s with
      | findUser cond =>
          rcases exec_query h with ⟨rfl, -⟩ | ⟨rfl, -⟩
          · refine ⟨fun u hu => ?_, fun e' he => ?_⟩
            · cases hu
            · cases he
              rfl
          · refine ⟨fun u hu => (plan_findUser_answer hu).2, fun e' he => ?_⟩
            cases he
      | insertUser v =>
          intro u hu
          rcases exec_query h with ⟨rfl, -⟩ | ⟨rfl, -⟩
          · cases hu
          · rw [(plan_insertUser_answer hu).1]
            rfl
      | _ => trivial
  | sign payload ttl =>
      cases h
      rfl
  | _ => trivial

/-! ## §2. Grounds. -/

/-- The routes that take a Google credential. -/
def Op.isGoogle : Op → Bool
  | .googleLogin _ => true
  | .googleLink _ _ => true
  | _ => false

/-- The sign-in route. -/
def Op.isGoogleLogin : Op → Bool
  | .googleLogin _ => true
  | _ => false

theorem isGoogle_of_isGoogleLogin {op : Op} (h : op.isGoogleLogin = true) :
    op.isGoogle = true := by
  cases op with
  | googleLogin credential => rfl
  | _ => cases h

/-- The lookup by subject. -/
def bySubject (S : Settings) (sub : String) (u : User) : Bool :=
  IdentityProvider.google.column u == some (S.trim sub)

/-- The lookup by e-mail. -/
def byEmail (S : Settings) (email : String) (u : User) : Bool :=
  u.email == S.toLowerCase (S.trim email)

namespace Visit

variable (S : Settings) (v : Visit)

/-- A lookup found the subject linked, or the e-mail free. -/
def Escaped : Prop :=
  (∃ sub user, v.subject = some sub ∧ (bySubject S sub, some user) ∈ v.looks) ∨
    ∃ email, v.email = some email ∧ (byEmail S email, none) ∈ v.looks

/-- The call has been shown this row, or has created it. -/
def Shows (user : User) : Prop := v.created = some user ∨ ∃ cond, (cond, some user) ∈ v.looks

/-- The account that the token signs in. -/
def SignsIn (user : User) : Prop :=
  ∃ sub, v.subject = some sub ∧ user.googleId = some (S.trim sub) ∧ v.Shows user

end Visit

/-- A step that can come before the challenge check, or the check itself. -/
def Act.IsCheck : ∀ {β : Type}, Act β → Prop
  | _, .query (.consumeChallenge _ _ _) => True
  | _, a => a.isSilent = true

/-- A lookup. -/
def Act.IsLook : ∀ {β : Type}, Act β → Prop
  | _, .query (.findUser _) => True
  | _, _ => False

/-- **On which grounds a call acts.** -/
def Act.Grounds (S : Settings) (op : Op) (v : Visit) : ∀ {β : Type}, Act β → Prop
  | _, .verifyIdToken _ _ => op.isGoogle = true → v.payload = none ∧ v.passed = false
  | _, .random => ∀ provider, op = .createChallenge provider → v.drawn = none
  | _, .query (.insertUser x) => x.googleId = none ∨
      (op.isGoogleLogin = true ∧ v.inside = false ∧
        ∃ sub, v.subject = some sub ∧ x.googleId = some (S.trim sub))
  | _, .query (.updateUser id cond set) => set.googleId = none ∨
      ((∃ credential, op = .googleLink id credential) ∧ v.inside = true ∧ v.wrote = false ∧
        (∀ u, cond u = true → u.googleId = none) ∧
        ∃ sub, v.subject = some sub ∧ set.googleId = some (some (S.trim sub)))
  | _, .query (.insertToken t) => op.isGoogleLogin = true →
      ∃ user, v.SignsIn S user ∧ t.userId = user.id
  | _, .query (.insertChallenge _ hash expiresAt) => v.inside = false ∧ v.stored = false ∧
      (∃ provider, op = .createChallenge provider) ∧ ∃ challenge time, v.drawn = some challenge ∧
        v.now = some time ∧ hash = S.sha256 challenge ∧ expiresAt = time + oauthChallengeTtlMs
  | _, .query (.consumeChallenge _ hash time) => v.inside = false ∧ v.passed = false ∧
      op.isGoogle = true ∧ ∃ nonce, v.nonce = some nonce ∧ v.now = some time ∧
        hash = S.sha256 nonce
  | _, _ => True

/-- What a call may do next: until it has passed the challenge check it writes
nothing, and a sign-in that has passed it only looks, until a
lookup lets it go on. -/
structure Visit.Allows (S : Settings) (op : Op) (v : Visit) {β : Type} (a : Act β) : Prop where
  grounds : a.Grounds S op v
  unpassed : op.isGoogle = true → v.passed = false → a.IsCheck
  looking : op.isGoogleLogin = true → v.passed = true →
    v.Escaped S ∨ (a.IsLook ∧ v.looks.length < 2)

/-- The visit of an operation as a monitor. -/
def visiting (S : Settings) (op : Op) : Monitor Act Visit where
  allow := fun v a => v.Allows S op a
  next := fun v a b v' => v' = v.next a b ∧ Answers a b

/-- The tokens of a session are for the user `id`. -/
def AuthTokens.IsFor (tokens : AuthTokens) (id : UserId) : Prop :=
  tokens.user.id = id ∧ (∃ name role, tokens.accessToken.payload = .access id name role false) ∧
    ∃ jti, tokens.refreshToken.payload = .refresh id jti false

/-- What a result says about the visit. -/
structure Visited (S : Settings) (op : Op) (r : Reply) (v : Visit) : Prop where
  passed : op.isGoogle = true → v.passed = true
  session : ∀ tokens, op.isGoogleLogin = true → r = .provider (some tokens) →
    v.Escaped S ∧ ∃ user, v.SignsIn S user ∧ tokens.IsFor user.id

/-- What a failure says about the visit. -/
def Refused (S : Settings) (op : Op) (e : Exn) (v : Visit) : Prop :=
  op.isGoogleLogin = true → v.passed = true → v.Escaped S ∨ e = .statementFailed

/-! ## §3. Rules. -/

section Rules

variable {S : Settings} {op : Op} {α : Type} {Q : α → Visit → Prop} {E : Exn → Visit → Prop}
  {v : Visit}

theorem visit_act {a : Act α} (ha : v.Allows S op a)
    (hQ : ∀ b, Answers a b → Q b (v.next a b)) : wp (visiting S op) Q E (perform a) v := by
  refine wp_perform ha fun b v' h => ?_
  rw [h.1]
  exact hQ b h.2

theorem visit_query {s : Stmt α} (ha : v.Allows S op (.query s))
    (hQ : ∀ r, Answers (.query s) (.ok r) → Q r (v.after s r))
    (hE : ∀ e, Answers (.query s) (.error e) → E e v) :
    wp (visiting S op) Q E (query s) v := by
  refine wp_query ha (fun r v' h => ?_) fun e v' h => ?_
  · rw [h.1]
    exact hQ r h.2
  · rw [h.1]
    exact hE e h.2

/-- A call of another route needs grounds only. -/
theorem allows_of_grounds {a : Act α} (hop : op.isGoogle = false) (ha : a.Grounds S op v) :
    v.Allows S op a := by
  refine ⟨ha, fun h => ?_, fun h => ?_⟩
  · rw [hop] at h
    cases h
  · rw [isGoogle_of_isGoogleLogin h] at hop
    cases hop

/-- A step with no accounts, links and challenges needs no grounds, but for a
few routes. -/
theorem grounds_of_powers {a : Act α} (hgoogle : op.isGoogle = false)
    (hcreate : ∀ provider, op ≠ .createChallenge provider) (haccount : Power.account ∉ a.powers)
    (hlink : Power.link ∉ a.powers) (hchallenge : Power.challenge ∉ a.powers) :
    a.Grounds S op v := by
  cases a with
  | query s =>
      cases s with
      | insertUser x => exact absurd List.mem_cons_self haccount
      | updateUser id cond set =>
          refine Or.inl ?_
          cases hset : set.googleId with
          | none => rfl
          | some g =>
              refine absurd ?_ hlink
              show Power.link ∈ set.powers
              simp [UserPatch.powers, hset]
      | insertToken t =>
          intro h
          rw [isGoogle_of_isGoogleLogin h] at hgoogle
          cases hgoogle
      | insertChallenge provider hash expiresAt => exact absurd List.mem_cons_self hchallenge
      | consumeChallenge provider hash now => exact absurd List.mem_cons_self hchallenge
      | _ => trivial
  | verifyIdToken idToken audience =>
      intro h
      rw [hgoogle] at h
      cases h
  | random => exact fun provider h => absurd h (hcreate provider)
  | _ => trivial

/-- A piece of code of another route. -/
theorem visit_within {ps : List Power} {p : Call α} (hp : Within ps p)
    (hgoogle : op.isGoogle = false) (hcreate : ∀ provider, op ≠ .createChallenge provider)
    (haccount : Power.account ∉ ps) (hlink : Power.link ∉ ps) (hchallenge : Power.challenge ∉ ps)
    (hQ : ∀ r v, Q r v) (hE : ∀ e v, E e v) : wp (visiting S op) Q E p v := by
  refine wp_of_inv (J := fun _ => True) (fun a v ha _ => ⟨?_, fun _ _ _ => trivial⟩)
    (fun r v _ => hQ r v) (fun e v _ _ => hE e v) hp trivial
  exact allows_of_grounds hgoogle (grounds_of_powers hgoogle hcreate (fun h => haccount (ha h))
    (fun h => hlink (ha h)) fun h => hchallenge (ha h))

end Rules

/-! ## §4. The challenge check. -/

section Check

variable {S : Settings}

/-- The call has passed the challenge check with the claims of its token. -/
structure Cleared (S : Settings) (claims : GoogleTokenClaims) (v : Visit) : Prop where
  passed : v.passed = true
  outside : v.inside = false
  subject : v.subject = some claims.sub
  named : S.trim claims.sub ≠ ""
  email : ∃ email, v.email = some email ∧ claims.email = S.toLowerCase (S.trim email)

/-- `Cleared` reads only what the check has settled. -/
theorem Cleared.congr {claims : GoogleTokenClaims} {v v' : Visit} (h : Cleared S claims v)
    (hpassed : v'.passed = v.passed) (hinside : v'.inside = v.inside)
    (hpayload : v'.payload = v.payload) : Cleared S claims v' := by
  refine ⟨hpassed.trans h.passed, hinside.trans h.outside, ?_, h.named, ?_⟩
  · unfold Visit.subject
    rw [hpayload]
    exact h.subject
  · unfold Visit.email
    rw [hpayload]
    exact h.email

/-- A step before the check. -/
theorem allows_unpassed {op : Op} {v : Visit} {β : Type} {a : Act β} (hv : v.passed = false)
    (hgrounds : a.Grounds S op v) (hcheck : a.IsCheck) : v.Allows S op a := by
  refine ⟨hgrounds, fun _ _ => hcheck, fun _ hpassed => ?_⟩
  rw [hv] at hpassed
  cases hpassed

theorem visit_verifyCredential {op : Op} {credential : String} :
    wp (visiting S op)
      (fun claims v => ∃ payload now, requiredClaims S payload now = some claims ∧
        v = { op := some op, payload := some payload, now := some now })
      (fun _ v => v.passed = false) (verifyCredential S credential) (Visit.fresh op) := by
  unfold verifyCredential
  split
  next => rfl
  next audience _ =>
    refine wp_seq (visit_act (allows_unpassed rfl (fun _ => ⟨rfl, rfl⟩) rfl)
      fun payload _ => ?_)
    refine wp_seq (visit_act (allows_unpassed rfl trivial rfl) fun now _ => ?_)
    split
    next => rfl
    next claims hclaims =>
      obtain ⟨payload, rfl, hrequired⟩ := Option.bind_eq_some_iff.mp hclaims
      exact ⟨payload, now, hrequired, rfl⟩

/-- **The challenge check** of either route: a call that comes through it is
cleared, any other has not passed. -/
theorem visit_consumeCredential {op : Op} (hop : op.isGoogle = true) (credential : String) :
    wp (visiting S op) (fun claims v => Cleared S claims v ∧ v.looks = [])
      (fun _ v => v.passed = false) (consumeCredential S credential) (Visit.fresh op) := by
  unfold consumeCredential
  refine wp_seq (wp_mono _ _ (fun claims v h => ?_) (fun _ _ h => h) visit_verifyCredential)
  obtain ⟨payload, now, hrequired, rfl⟩ := h
  obtain ⟨hsub, hnonce, hnamed, hraw, email, hemail, hnormal⟩ := requiredClaims_eq_some hrequired
  unfold verifyAndConsume
  rw [hraw]
  refine wp_seq ?_
  refine wp_seq (visit_act (allows_unpassed rfl trivial rfl) fun time _ => ?_)
  refine wp_seq (visit_query (allows_unpassed rfl ?_ trivial) (fun consumed _ => ?_)
    fun e _ => rfl)
  · exact ⟨rfl, rfl, hop, claims.nonce, hnonce, rfl, rfl⟩
  · cases consumed with
    | none => rfl
    | some id => exact ⟨⟨rfl, rfl, hsub, hnamed, email, hemail, hnormal⟩, rfl⟩

/-- What the route makes of the challenge it draws. -/
theorem visit_createChallenge (provider : OAuthChallengeProvider) :
    wp (visiting S (.createChallenge provider)) (fun _ _ => True) (fun _ _ => True)
      (createChallenge S provider) (Visit.fresh (.createChallenge provider)) := by
  unfold createChallenge
  refine wp_seq (visit_act (allows_of_grounds rfl fun _ _ => rfl) fun challenge _ => ?_)
  refine wp_seq (visit_act (allows_of_grounds rfl trivial) fun now _ => ?_)
  refine wp_seq (visit_query (allows_of_grounds rfl ?_) (fun _ _ => trivial) fun _ _ => trivial)
  exact ⟨rfl, rfl, ⟨provider, rfl⟩, challenge, now, rfl, rfl, rfl, rfl⟩

end Check

/-! ## §5. Sign-in. -/

section SignIn

variable {S : Settings} {credential : String} {claims : GoogleTokenClaims} {v : Visit}

/-- The identity of a token. -/
def identityOf (S : Settings) (claims : GoogleTokenClaims) : ProviderIdentity where
  provider := .google
  providerId := claims.sub
  email := claims.email
  username := usernameForClaims S claims.email claims.name

/-- What a resolved identity says about the visit. -/
def Resolves (S : Settings) (v : Visit) : ProviderIdentityResolution → Prop
  | .authenticated user => v.Escaped S ∧ v.SignsIn S user
  | .created user => v.Escaped S ∧ v.SignsIn S user
  | .linkConfirmationRequired _ => True

/-- A step after the check. -/
theorem Cleared.allows {op : Op} {β : Type} {a : Act β} (h : Cleared S claims v)
    (hgrounds : a.Grounds S op v) (hlooking : v.Escaped S ∨ (a.IsLook ∧ v.looks.length < 2)) :
    v.Allows S op a := by
  refine ⟨hgrounds, fun _ hpassed => ?_, fun _ _ => hlooking⟩
  rw [h.passed] at hpassed
  cases hpassed

/-- More lookups. -/
theorem Visit.Escaped.look {l : (User → Bool) × Option User} (h : v.Escaped S) :
    ({ v with wrote := true, looks := l :: v.looks } : Visit).Escaped S := by
  rcases h with ⟨sub, user, hsub, hmem⟩ | ⟨email, hemail, hmem⟩
  · exact Or.inl ⟨sub, user, hsub, List.mem_cons_of_mem _ hmem⟩
  · exact Or.inr ⟨email, hemail, List.mem_cons_of_mem _ hmem⟩

/-- **The two lookups**: by subject, then by e-mail. -/
theorem visit_lookupIdentity (h : Cleared S claims v) (hlooks : v.Escaped S ∨ v.looks = []) :
    wp (visiting S (.googleLogin credential))
      (fun r v => Cleared S claims v ∧ match r with
        | some resolution => Resolves S v resolution
        | none => v.Escaped S)
      (Refused S (.googleLogin credential))
      (lookupIdentity (identityOf S claims) (S.trim claims.sub)) v := by
  obtain ⟨email, hemail, hnormal⟩ := h.email
  have hfailed : ∀ {s : Stmt (Option User)} {cond : User → Bool} {v' : Visit},
      s = .findUser cond → ∀ e, Answers (.query s) (.error e) →
        Refused S (.googleLogin credential) e v' := by
    rintro s cond v' rfl e ⟨-, he⟩ _ _
    exact Or.inr (he e rfl)
  unfold lookupIdentity
  refine wp_seq (visit_query (h.allows trivial ?_) (fun linkedUser hlinked => ?_)
    (hfailed rfl))
  · refine hlooks.imp_right fun hnil => ⟨trivial, ?_⟩
    rw [hnil]
    decide
  · have hstep : v.after (.findUser (bySubject S claims.sub)) linkedUser =
        { v with wrote := true, looks := (bySubject S claims.sub, linkedUser) :: v.looks } := by
      show (if v.inside then _ else _) = _
      rw [h.outside]
      rfl
    change wp _ _ _ _ (v.after (.findUser (bySubject S claims.sub)) linkedUser)
    rw [hstep]
    have hcleared : Cleared S claims
        { v with wrote := true, looks := (bySubject S claims.sub, linkedUser) :: v.looks } :=
      h.congr rfl rfl rfl
    cases linkedUser with
    | some user =>
        have hgoogle : user.googleId = some (S.trim claims.sub) := by
          simpa [identityOf, IdentityProvider.column] using hlinked.1 user rfl
        refine ⟨hcleared, Or.inl ⟨claims.sub, user, h.subject, List.mem_cons_self⟩,
          claims.sub, h.subject, hgoogle, Or.inr ⟨_, List.mem_cons_self⟩⟩
    | none =>
        refine wp_seq (visit_query (hcleared.allows trivial ?_) (fun emailUser _ => ?_)
          (hfailed rfl))
        · rcases hlooks with hescaped | hnil
          · exact Or.inl hescaped.look
          · refine Or.inr ⟨trivial, ?_⟩
            rw [hnil]
            exact Nat.one_lt_two
        · have hstep' : ({ v with wrote := true, looks := (bySubject S claims.sub, none) :: v.looks }
              : Visit).after (.findUser (byEmail S email)) emailUser =
              { v with wrote := true, looks := (byEmail S email, emailUser) ::
                  (bySubject S claims.sub, none) :: v.looks } := by
            show (if v.inside then _ else _) = _
            rw [h.outside]
            rfl
          have hcond : (fun u : User => u.email == (identityOf S claims).email) =
              byEmail S email := by
            funext u
            show (u.email == claims.email) = _
            rw [hnormal]
            rfl
          rw [hcond, hstep']
          cases emailUser with
          | some emailUser => exact ⟨h.congr rfl rfl rfl, trivial⟩
          | none => exact ⟨h.congr rfl rfl rfl, Or.inr ⟨email, hemail, List.mem_cons_self⟩⟩

/-- A new account under a candidate name. -/
theorem visit_insertAccount (h : Cleared S claims v) (hescaped : v.Escaped S)
    (candidate : String) :
    wp (visiting S (.googleLogin credential))
      (fun r v => Cleared S claims v ∧ v.Escaped S ∧ ∀ user, r = some user → v.SignsIn S user)
      (Refused S (.googleLogin credential))
      (insertAccount (providerAccount S (identityOf S claims) (S.trim claims.sub) candidate))
      v := by
  have hgoogle : (providerAccount S (identityOf S claims) (S.trim claims.sub) candidate).googleId =
      some (S.trim claims.sub) := rfl
  unfold insertAccount
  rw [tryCatch_eq, wp_tryCatch]
  refine wp_seq (visit_query (h.allows ?_ (Or.inl hescaped)) (fun created hcreated => ?_)
    fun e _ => ?_)
  · exact Or.inr ⟨rfl, h.outside, claims.sub, h.subject, hgoogle⟩
  · have hstep : v.after (.insertUser (providerAccount S (identityOf S claims) (S.trim claims.sub)
        candidate)) created = { v with wrote := true, created := some created } := by
      show (if v.inside then _ else _) = _
      rw [h.outside]
      rfl
    rw [hstep]
    refine ⟨h.congr rfl rfl rfl, hescaped, fun user hu => ?_⟩
    cases hu
    exact ⟨claims.sub, h.subject, (hcreated created rfl).trans hgoogle, Or.inl rfl⟩
  · show wp _ _ _ (if Exn.isUniqueViolation e then ret none else fail e) v
    split
    next =>
      refine ⟨h, hescaped, fun user hu => ?_⟩
      cases hu
    next => exact fun _ _ => Or.inl hescaped

/-- The loop over the candidate names. -/
theorem visit_createProviderUser (username : String) (left attempt : Nat) {v : Visit}
    (h : Cleared S claims v) (hescaped : v.Escaped S) :
    wp (visiting S (.googleLogin credential))
      (fun r v => Cleared S claims v ∧ Resolves S v r) (Refused S (.googleLogin credential))
      (createProviderUser S (identityOf S claims) (S.trim claims.sub) username attempt left) v := by
  -- on the attempts that are left; the e-mail was free at the lookup before the loop
  induction left generalizing attempt v with
  | zero => exact fun _ _ => Or.inl hescaped
  | succ left ih =>
      have hcreated : ∀ candidate {v : Visit}, Cleared S claims v → v.Escaped S →
          wp (visiting S (.googleLogin credential))
            (fun created v => Cleared S claims v ∧ v.Escaped S ∧
              ∀ user, created = some user → v.SignsIn S user)
            (Refused S (.googleLogin credential))
            (insertAccount (providerAccount S (identityOf S claims) (S.trim claims.sub)
              candidate)) v :=
        fun candidate _ h hescaped => visit_insertAccount h hescaped candidate
      -- the name was taken, and the account is looked up again
      have hretry : ∀ (k : Option ProviderIdentityResolution → Call ProviderIdentityResolution)
          {v : Visit}, Cleared S claims v → v.Escaped S →
          (∀ resolution, k (some resolution) = ret resolution) →
          k none = createProviderUser S (identityOf S claims) (S.trim claims.sub) username
            (attempt + 1) left →
          wp (visiting S (.googleLogin credential))
            (fun r v => Cleared S claims v ∧ Resolves S v r) (Refused S (.googleLogin credential))
            ((lookupIdentity (identityOf S claims) (S.trim claims.sub)).bind k) v := by
        intro k v h hescaped hsome hnone
        refine wp_seq (wp_mono _ _ (fun resolution v' h' => ?_) (fun _ _ h' => h')
          (visit_lookupIdentity h (Or.inl hescaped)))
        cases resolution with
        | some resolution =>
            rw [hsome]
            exact h'
        | none =>
            rw [hnone]
            exact ih (attempt + 1) h'.1 h'.2
      unfold createProviderUser candidateName
      refine wp_seq ?_
      split
      next =>
        refine wp_seq (wp_mono _ _ (fun created v' h' => ?_) (fun _ _ h' => h')
          (hcreated username h hescaped))
        obtain ⟨h', hescaped', huser⟩ := h'
        cases created with
        | some user => exact ⟨h', hescaped', huser user rfl⟩
        | none => exact hretry _ h' hescaped' (fun _ => rfl) rfl
      next =>
        refine wp_seq (visit_act (h.allows trivial (Or.inl hescaped)) fun n _ => ?_)
        refine wp_seq (wp_mono _ _ (fun created v' h' => ?_) (fun _ _ h' => h')
          (hcreated _ h hescaped))
        obtain ⟨h', hescaped', huser⟩ := h'
        cases created with
        | some user => exact ⟨h', hescaped', huser user rfl⟩
        | none => exact hretry _ h' hescaped' (fun _ => rfl) rfl

theorem visit_assertLoginAllowed {op : Op} {Q : Unit → Visit → Prop} {E : Exn → Visit → Prop}
    {user : User} (hE : ∀ e, E e v) (hQ : Q () v) :
    wp (visiting S op) Q E (assertLoginAllowed user) v := by
  unfold assertLoginAllowed
  cases loginRefusal user with
  | some e => exact hE e
  | none => exact hQ

/-- A provider session is for the account that the token signs in. -/
theorem visit_issueProviderSession (h : Cleared S claims v) (hescaped : v.Escaped S) {user : User}
    (hsigns : v.SignsIn S user) :
    wp (visiting S (.googleLogin credential))
      (fun tokens v => Cleared S claims v ∧ v.Escaped S ∧ v.SignsIn S user ∧ tokens.IsFor user.id)
      (Refused S (.googleLogin credential)) (issueProviderSession S user) v := by
  have hthrow : ∀ e, Refused S (.googleLogin credential) e v := fun _ _ _ => Or.inl hescaped
  unfold issueProviderSession
  refine wp_seq (visit_assertLoginAllowed hthrow ?_)
  refine wp_guard (fun _ => hthrow _) fun _ => wp_guard (fun _ => hthrow _) fun _ => ?_
  unfold issueSession buildIssuedRefreshToken
  refine wp_seq (visit_act (h.allows trivial (Or.inl hescaped)) fun jti _ => ?_)
  refine wp_seq (visit_act (h.allows trivial (Or.inl hescaped)) fun accessToken haccess => ?_)
  refine wp_seq (wp_seq (visit_act (h.allows trivial (Or.inl hescaped))
    fun refreshToken hrefresh => ?_))
  refine wp_seq (visit_act (h.allows trivial (Or.inl hescaped)) fun now _ => ?_)
  have hcleared : Cleared S claims { v with now := some now } := h.congr rfl rfl rfl
  refine wp_seq (visit_query (hcleared.allows ?_ (Or.inl hescaped)) (fun _ _ => ?_)
    fun e _ _ _ => Or.inl hescaped)
  · exact fun _ => ⟨user, hsigns, rfl⟩
  · exact ⟨h.congr rfl rfl rfl, hescaped, hsigns, rfl, ⟨_, _, haccess⟩, jti, hrefresh⟩

/-- **Sign-in.** -/
theorem visit_googleLogin (credential : String) :
    wp (visiting S (.googleLogin credential))
      (fun r v => Visited S (.googleLogin credential) (.provider r) v)
      (Refused S (.googleLogin credential)) (googleLogin S credential)
      (Visit.fresh (.googleLogin credential)) := by
  unfold googleLogin
  refine wp_seq (wp_mono _ _ (fun claims v h => ?_) (fun e v hpassed _ h => ?_)
    (visit_consumeCredential rfl credential))
  · obtain ⟨hcleared, hlooks⟩ := h
    refine wp_seq (wp_mono (Q := fun r v => Cleared S claims v ∧ Resolves S v r) _ _
      (fun resolution v' h' => ?_) (fun _ _ h' => h') ?_)
    · obtain ⟨h', hresolved⟩ := h'
      have hsession : ∀ user, v'.Escaped S → v'.SignsIn S user →
          wp (visiting S (.googleLogin credential))
            (fun r v => Visited S (.googleLogin credential) (.provider r) v)
            (Refused S (.googleLogin credential))
            ((issueProviderSession S user).bind fun session => ret (some session)) v' := by
        intro user hescaped hsigns
        refine wp_seq (wp_mono _ _ (fun tokens v'' h'' => ?_) (fun _ _ h'' => h'')
          (visit_issueProviderSession h' hescaped hsigns))
        obtain ⟨hc, hesc, hsig, hfor⟩ := h''
        refine ⟨fun _ => hc.passed, fun tokens' _ htokens => ⟨hesc, user, hsig, ?_⟩⟩
        cases htokens
        exact hfor
      cases resolution with
      | linkConfirmationRequired user =>
          refine ⟨fun _ => h'.passed, fun tokens _ htokens => ?_⟩
          cases htokens
      | authenticated user => exact hsession user hresolved.1 hresolved.2
      | created user => exact hsession user hresolved.1 hresolved.2
    · -- `resolveProviderIdentity`: the subject is never empty here
      unfold resolveProviderIdentity
      show wp _ _ _ (if S.trim claims.sub = "" then fail (Exn.plain _) else _) v
      rw [if_neg hcleared.named]
      refine wp_seq (wp_mono _ _ (fun resolution v' h' => ?_) (fun _ _ h' => h')
        (visit_lookupIdentity hcleared (Or.inr hlooks)))
      cases resolution with
      | some resolution => exact h'
      | none =>
          refine wp_guard (fun _ _ _ => Or.inl h'.2) fun _ => ?_
          exact visit_createProviderUser _ 3 0 h'.1 h'.2
  · rw [hpassed] at h
    cases h

end SignIn

/-! ## §6. The other routes. -/

section Others

variable {S : Settings}

/-- **Linking**: the one UPDATE of a provider identity, first in its
transaction. -/
theorem visit_googleLink (userId : UserId) (credential : String) :
    wp (visiting S (.googleLink userId credential)) (fun _ v => v.passed = true) (fun _ _ => True)
      (googleLink S userId credential) (Visit.fresh (.googleLink userId credential)) := by
  -- after the check every step needs grounds only
  have hallows : ∀ {β : Type} {a : Act β} {v : Visit}, v.passed = true →
      a.Grounds S (.googleLink userId credential) v →
      v.Allows S (.googleLink userId credential) a := by
    intro β a v hpassed hgrounds
    refine ⟨hgrounds, fun _ h => ?_, fun h => ?_⟩
    · rw [hpassed] at h
      cases h
    · cases h
  unfold googleLink
  refine wp_seq (wp_mono _ _ (fun claims v h => ?_) (fun _ _ _ => trivial)
    (visit_consumeCredential rfl credential))
  have hcleared := h.1
  unfold linkGoogleIdentity
  refine wp_seq (wp_guard (fun _ => trivial) fun _ => ?_)
  refine wp_transaction (R := fun _ v => v.passed = true) (F := fun _ v => v.passed = true)
    (hallows hcleared.passed trivial) (fun _ _ _ => trivial) (fun v' hv' => ?_)
    (fun r v' hpassed => ⟨hallows hpassed trivial, fun v'' hv'' => ?_, fun _ _ _ => trivial⟩)
    fun e v' hpassed => ⟨hallows hpassed trivial, fun _ _ => trivial⟩
  · rw [hv'.1]
    show wp _ _ _ _ { v with inside := true, wrote := false }
    refine wp_seq ?_
    rw [tryCatch_eq, wp_tryCatch]
    refine visit_query (hallows hcleared.passed (Or.inr ?_)) (fun linkedUser _ => ?_) fun e _ => ?_
    · refine ⟨⟨credential, rfl⟩, rfl, rfl, fun u hu => ?_, claims.sub, hcleared.subject, rfl⟩
      simpa using hu
    · cases linkedUser with
      | some linkedUser => exact hcleared.passed
      | none =>
          refine wp_seq (visit_query (hallows hcleared.passed trivial) (fun user _ => ?_)
            fun e _ => hcleared.passed)
          cases user with
          | none => exact hcleared.passed
          | some user =>
              show wp _ _ _ (if user.googleId = _ then ret user else fail _) _
              split
              next => exact hcleared.passed
              next => exact hcleared.passed
    · show wp _ _ _ (if Exn.isUniqueViolation e then fail _ else fail e) _
      split
      next => exact hcleared.passed
      next => exact hcleared.passed
  · rw [hv''.1]
    exact hpassed

theorem visit_registerUser (email username password : String) {v : Visit} :
    wp (visiting S (.register email username password)) (fun _ _ => True) (fun _ _ => True)
      (registerUser S email username password) v := by
  have hstep : ∀ {α : Type} {p : Call α} {Q : α → Visit → Prop} {v : Visit}, Within [] p →
      (∀ r v, Q r v) → wp (visiting S (.register email username password)) Q (fun _ _ => True)
        p v := fun hp hQ =>
    visit_within hp rfl (fun _ h => nomatch h) (by decide) (by decide) (by decide) hQ
      fun _ _ => trivial
  unfold registerUser createUser
  refine wp_seq (hstep (within_query (List.nil_subset _)) fun found v => ?_)
  refine wp_guard (fun _ => trivial) fun _ => ?_
  refine wp_seq (hstep (within_assertPasswordWithinByteLimit password) fun _ v => ?_)
  refine wp_seq (hstep (within_bcryptHash S password) fun hash v => ?_)
  exact wp_seq (visit_query (allows_of_grounds rfl (Or.inl rfl)) (fun _ _ => trivial)
    fun _ _ => trivial)

theorem visit_initAdminRegister (email username password : String) (setupToken : Option String)
    {v : Visit} :
    wp (visiting S (.initAdminRegister email username password setupToken)) (fun _ _ => True)
      (fun _ _ => True) (initAdminRegister S email username password setupToken) v := by
  have hstep : ∀ {α : Type} {p : Call α} {Q : α → Visit → Prop} {v : Visit},
      Within [Power.setup, .complete, .transact] p → (∀ r v, Q r v) →
      wp (visiting S (.initAdminRegister email username password setupToken)) Q (fun _ _ => True)
        p v := fun hp hQ =>
    visit_within hp rfl (fun _ h => nomatch h) (by decide) (by decide) (by decide) hQ
      fun _ _ => trivial
  have hexpected : Within [Power.setup, .complete, .transact] (expectedSetupToken S) := by
    unfold expectedSetupToken
    split
    next => exact within_ret _
    next => exact within_perform (by decide)
  unfold initAdminRegister createFirstAdmin
  refine wp_seq (hstep hexpected fun expected v => ?_)
  refine wp_guard (fun _ => trivial) fun _ => ?_
  refine wp_seq (hstep (within_assertPasswordWithinByteLimit password) fun _ v => ?_)
  refine wp_seq (hstep (within_bcryptHash S password) fun hash v => ?_)
  refine wp_transaction (R := fun _ _ => True) (F := fun _ _ => True)
    (allows_of_grounds rfl trivial) (fun _ _ _ => trivial) (fun v _ => ?_)
    (fun _ _ _ => ⟨allows_of_grounds rfl trivial, fun _ _ => trivial, fun _ _ _ => trivial⟩)
    fun _ _ _ => ⟨allows_of_grounds rfl trivial, fun _ _ => trivial⟩
  refine wp_seq (hstep (within_query (List.nil_subset _)) fun _ v => ?_)
  refine wp_seq (hstep (within_query (by decide)) fun _ v => ?_)
  refine wp_seq (hstep (within_query (List.nil_subset _)) fun state v => ?_)
  cases state with
  | none => trivial
  | some initialAdminCreated =>
      refine wp_guard (fun _ => trivial) fun _ => ?_
      refine wp_seq (visit_query (allows_of_grounds rfl (Or.inl rfl)) (fun _ _ => ?_)
        fun _ _ => trivial)
      exact hstep (within_query (by decide)) fun _ _ => trivial

/-- **Every operation acts on its grounds.** -/
theorem body_visits (S : Settings) (op : Op) :
    wp (visiting S op) (Visited S op) (Refused S op) (body S op) (Visit.fresh op) := by
  have hmap : ∀ {α : Type} {p : Call α} {E : Exn → Visit → Prop} {R : α → Visit → Prop}
      (f : α → Reply), wp (visiting S op) R E p (Visit.fresh op) →
      (∀ r v, R r v → Visited S op (f r) v) → (∀ e v, E e v → Refused S op e v) →
      wp (visiting S op) (Visited S op) (Refused S op) (f <$> p) (Visit.fresh op) :=
    fun f hp hR hE => wp_seq (wp_mono _ _ hR hE hp)
  have hother : op.isGoogle = false → (∀ r v, Visited S op r v) ∧ ∀ e v, Refused S op e v := by
    intro hop
    have hlogin : op.isGoogleLogin ≠ true := by
      intro h
      rw [isGoogle_of_isGoogleLogin h] at hop
      cases hop
    refine ⟨fun r v => ⟨fun h => ?_, fun _ h => absurd h hlogin⟩, fun e v h => absurd h hlogin⟩
    rw [hop] at h
    cases h
  have hquiet : op.isGoogle = false → (∀ provider, op ≠ .createChallenge provider) →
      Power.account ∉ op.powers → Power.link ∉ op.powers → Power.challenge ∉ op.powers →
      wp (visiting S op) (Visited S op) (Refused S op) (body S op) (Visit.fresh op) :=
    fun hop hcreate ha hl hc => visit_within (body_within S op) hop hcreate ha hl hc
      (hother hop).1 (hother hop).2
  cases op with
  | register email username password =>
      exact hmap _ (visit_registerUser email username password) (fun r v _ => (hother rfl).1 _ v)
        fun e v _ => (hother rfl).2 e v
  | initAdminRegister email username password setupToken =>
      exact hmap _ (visit_initAdminRegister email username password setupToken)
        (fun r v _ => (hother rfl).1 _ v) fun e v _ => (hother rfl).2 e v
  | createChallenge provider =>
      exact hmap _ (visit_createChallenge provider) (fun r v _ => (hother rfl).1 _ v)
        fun e v _ => (hother rfl).2 e v
  | googleLogin credential =>
      exact hmap _ (visit_googleLogin credential) (fun r v h => h) fun e v h => h
  | googleLink userId credential =>
      refine hmap _ (visit_googleLink userId credential) (fun r v h => ?_) fun e v _ h => ?_
      · exact ⟨fun _ => h, fun _ hlogin => nomatch hlogin⟩
      · cases h
  | _ =>
      exact hquiet rfl (fun _ h => nomatch h) (by simp [Op.powers]) (by simp [Op.powers])
        (by simp [Op.powers])

end Others

/-! ## §7. Visits and open transactions. -/

section Transactions

variable {S : Settings} {p : Pid} {e : Env} {w w' : World} {gs : Pid → Visit}

theorem Visit.after_inside (v : Visit) {α : Type} (s : Stmt α) (r : α) :
    (v.after s r).inside = v.inside ∧ (v.after s r).wrote = true := by
  cases s with
  | findUser cond =>
      show (if v.inside then _ else _ : Visit).inside = v.inside ∧
        (if v.inside then _ else _ : Visit).wrote = true
      split <;> exact ⟨rfl, rfl⟩
  | insertUser x =>
      show (if v.inside then _ else _ : Visit).inside = v.inside ∧
        (if v.inside then _ else _ : Visit).wrote = true
      split <;> exact ⟨rfl, rfl⟩
  | _ => exact ⟨rfl, rfl⟩

/-- The visits agree with the open transactions. -/
structure Attended (w : World) (gs : Pid → Visit) : Prop where
  inside : ∀ p, (gs p).inside = (w.tables.pending p).isSome
  clean : ∀ p, (gs p).inside = true → (gs p).wrote = false → w.tables.pending p = some []

theorem Attended.outside (h : Attended w gs) (hp : (gs p).inside = false) :
    w.tables.pending p = none := by
  rw [h.inside p] at hp
  simpa using hp

theorem Attended.step {β : Type} {a : Act β} {b : β} (h : Attended w gs)
    (hx : exec S p a e w = some (b, w')) :
    Attended w' (Function.update gs p ((gs p).next a b)) := by
  have hstep := exec_step hx
  -- the other calls stand where they stood
  have hother : ∀ q, q ≠ p → Function.update gs p ((gs p).next a b) q = gs q :=
    fun q hq => Function.update_of_ne hq _ _
  have hself : Function.update gs p ((gs p).next a b) p = (gs p).next a b :=
    Function.update_self _ _ _
  have hown : ((gs p).next a b).inside = (w'.tables.pending p).isSome ∧
      (((gs p).next a b).inside = true → ((gs p).next a b).wrote = false →
        w'.tables.pending p = some []) := by
    cases a with
    | query s =>
        rcases exec_query hx with ⟨rfl, rfl⟩ | ⟨hb, -, -, rfl⟩
        · exact ⟨h.inside p, h.clean p⟩
        · have hpending : ((w.tables.put Db.apply p (plan w.clock e (w.view p) s).takes
              (plan w.clock e (w.view p) s).writes).pending p).isSome =
              (w.tables.pending p).isSome := by
            cases hp : w.tables.pending p with
            | none => rw [Store.put_pending_of_none hp]
            | some ws => rw [Store.put_pending_of_some hp]; rfl
          cases b with
          | ok r =>
              obtain ⟨hinside, hwrote⟩ := (gs p).after_inside s r
              refine ⟨?_, fun _ hw => ?_⟩
              · show ((gs p).after s r).inside = _
                rw [hinside, h.inside p]
                exact hpending.symm
              · change ((gs p).after s r).wrote = false at hw
                rw [hwrote] at hw
                cases hw
          | error x =>
              refine ⟨(h.inside p).trans hpending.symm, fun hi hw => ?_⟩
              -- a refused statement writes nothing
              have hnil : (plan w.clock e (w.view p) s).writes = [] := plan_error_writes hb.symm
              have hp := h.clean p hi hw
              show (w.tables.put Db.apply p _ _).pending p = some []
              rw [Store.put_pending_of_some hp, hnil]
              rfl
    | begin =>
        rcases exec_begin hx with ⟨rfl, rfl⟩ | ⟨rfl, -, rfl⟩
        · exact ⟨h.inside p, h.clean p⟩
        · refine ⟨?_, fun _ _ => Store.begin_pending_self⟩
          show true = _
          rw [Store.begin_pending_self]
          rfl
    | commit =>
        have hnone : w'.tables.pending p = none := by
          rcases exec_commit hx with ⟨-, rfl⟩ | ⟨-, rfl⟩
          · exact Store.rollback_pending_self
          · exact Store.commit_pending_self
        rw [hnone]
        exact ⟨rfl, nofun⟩
    | rollback =>
        have hnone : w'.tables.pending p = none := by
          rw [exec_rollback hx]
          exact Store.rollback_pending_self
        rw [hnone]
        exact ⟨rfl, nofun⟩
    | _ =>
        rw [exec_silent rfl hx]
        exact ⟨h.inside p, h.clean p⟩
  refine ⟨fun q => ?_, fun q => ?_⟩
  · by_cases hq : q = p
    · subst hq
      rw [hself]
      exact hown.1
    · rw [hother q hq, hstep.pending_of_ne hq]
      exact h.inside q
  · by_cases hq : q = p
    · subst hq
      rw [hself]
      exact hown.2
    · rw [hother q hq, hstep.pending_of_ne hq]
      exact h.clean q

theorem Attended.invoke (h : Attended w gs) (hp : gs p = Visit.idle) (op : Op) :
    Attended w (Function.update gs p (Visit.fresh op)) := by
  refine ⟨fun q => ?_, fun q => ?_⟩
  · by_cases hq : q = p
    · subst hq
      rw [Function.update_self]
      have hidle := h.inside q
      rw [hp] at hidle
      exact hidle
    · rw [Function.update_of_ne hq]
      exact h.inside q
  · by_cases hq : q = p
    · subst hq
      rw [Function.update_self]
      intro hi
      cases hi
    · rw [Function.update_of_ne hq]
      exact h.clean q

theorem Attended.ambient (h : Attended w gs) (hx : Accounts.ambient e w = some w') :
    Attended w' gs := by
  obtain ⟨hpending, -⟩ := ambient_frame hx
  refine ⟨?_, ?_⟩
  · rw [hpending]
    exact h.inside
  · rw [hpending]
    exact h.clean

theorem Attended.reboot (hx : Accounts.reboot e w = some w') (alive : Pid → Bool) :
    Attended w' fun p => if alive p then (gs p).settle else Visit.idle := by
  have hinside : ∀ p, (if alive p then (gs p).settle else Visit.idle).inside = false := by
    intro p
    split <;> rfl
  cases hx
  refine ⟨hinside, fun p hp => ?_⟩
  rw [hinside p] at hp
  cases hp

end Transactions

/-! ## §8. The rule for runs. -/

/-- What a result says, a reboot does not change. -/
theorem Visited.settle {S : Settings} {op : Op} {r : Reply} {v : Visit} (h : Visited S op r v) :
    Visited S op r v.settle := ⟨h.passed, h.session⟩

/-- The visit of an operation, under its own name. -/
def attendant (S : Settings) (op : Op) : Monitor Act Visit :=
  (visiting S op).under fun v => v.op = some op

/-- **The invariant rule with the visit of every call.** -/
theorem visited_run {S : Settings} {O : Type} {V : Watch Act World Env Op O}
    (Inv : World → O → (Pid → Visit) → Prop)
    (invoke : ∀ {w o gs p op}, Attended w gs → Inv w o gs → gs p = Visit.idle →
      V.accepts o w p op = true →
      Inv w (V.onInvoke o w p op) (Function.update gs p (Visit.fresh op)))
    (step : ∀ {w o gs p op} {β : Type} {a : Act β} {e b w'}, Attended w gs → Inv w o gs →
      (gs p).op = some op → (gs p).Allows S op a → V.guard o w p op a e = true →
      exec S p a e w = some (b, w') →
      Inv w' (V.onStep o w p op a b w') (Function.update gs p ((gs p).next a b)))
    (ambient : ∀ {w o gs e w'}, Inv w o gs → ambient e w = some w' →
      Inv w' (V.onAmbient o w w') gs)
    (reboot : ∀ {w o gs e w'} (alive : Pid → Bool), Inv w o gs → reboot e w = some w' →
      Inv w' (V.onReboot o w w') fun p => if alive p then (gs p).settle else Visit.idle)
    {d : Db} {clock : Timestamp} {o₀ o : O} {c : Conf}
    (h₀ : Inv (World.boot d clock) o₀ fun _ => Visit.idle)
    (h : (system S).Reach V (Config.init (World.boot d clock)) o₀ c o) :
    ∃ gs, Attended c.world gs ∧ Inv c.world o gs ∧
      System.Tracks (attendant S) Visit.idle (fun op r v => Visited S op r v ∧ v.op = some op)
        (fun op e v => Refused S op e v ∧ v.op = some op) c gs := by
  have hrun := System.Reach.sound_settled (S := system S) (V := V) (M := attendant S)
    (Q := fun op r v => Visited S op r v ∧ v.op = some op)
    (E := fun op e v => Refused S op e v ∧ v.op = some op) Visit.fresh Visit.settle
    (fun w o gs => Attended w gs ∧ Inv w o gs)
    (fun op r v hv => ⟨hv.1.settle, hv.2⟩) (fun op e v hv => hv)
    (fun {_ _ _ op} _ => wp_under (fun a v b v' hop hv => ?_) (body_visits S op) rfl)
    (fun {w o gs p op} hI hidle ha => ⟨hI.1.invoke hidle op, invoke hI.1 hI.2 hidle ha⟩)
    (fun {w o gs p op β a e b w'} hI ha hg hx => ?_)
    (fun {w o gs e w'} hI hx => ⟨hI.1.ambient hx, ambient hI.2 hx⟩)
    (fun {w o gs e w'} alive hI hx _ _ =>
      ⟨Attended.reboot (e := e) hx alive, reboot (e := e) alive hI.2 hx⟩)
    ⟨⟨fun _ => rfl, fun _ hi => nomatch hi⟩, h₀⟩ h
  · obtain ⟨gs, ⟨hA, hI⟩, hT⟩ := hrun
    exact ⟨gs, hA, hI, hT⟩
  · rw [hv.1, v.next_op]
    exact hop
  · obtain ⟨hallow, hop⟩ := ha
    exact ⟨_, ⟨rfl, exec_answers hx⟩, hI.1.step hx, step hI.1 hI.2 hop hallow hg hx⟩

/-- The visit of a call names its operation. -/
theorem visited_op {S : Settings} {c : Conf} {gs : Pid → Visit}
    (h : System.Tracks (attendant S) Visit.idle (fun op r v => Visited S op r v ∧ v.op = some op)
      (fun op e v => Refused S op e v ∧ v.op = some op) c gs) {p : Pid} {op : Op}
    (hp : (c.calls p).map Task.op = some op) : (gs p).op = some op := by
  obtain ⟨⟨op', rest⟩, hcall, rfl⟩ := Option.map_eq_some_iff.mp hp
  have hwp := h.wp hcall
  cases rest with
  | ret r => exact hwp.2
  | fail x => exact hwp.2
  | act a k => exact hwp.1.2

end MinePanel.Accounts
