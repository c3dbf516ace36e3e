/-
  MinePanel.Auth.Usernames
  ────────────────────────
  **PROVIDER USERNAMES ARE CANONICAL.**

  `usernameForClaims` makes a user name of whatever Google says: it lowers the
  case, collapses what is not `[a-z0-9_]`, strips, cuts and pads.  The result is
  always canonical, and so is every candidate a sign-in tries; the check for a
  canonical name never fails.

    * `canonical_usernameForClaims` — the name of any claims;
    * `Act.Tries`, `trying` — what a sign-in may insert;
    * `provider_usernames_canonical` — **every run**.
-/
import MinePanel.Users.Identifiers
import MinePanel.Auth.Challenges

namespace MinePanel.Accounts

open MinePanel.Db MinePanel.Lib Prog

/-! ## §1. The name of some claims. -/

theorem isNameChar_collapse (cs : List Char) : ∀ c ∈ collapse cs, isNameChar c = true := by
  have hunderscore : isNameChar '_' = true := by decide
  induction cs with
  | nil => simp [collapse]
  | cons x cs ih =>
      intro c hc
      unfold collapse at hc
      split at hc
      next hx =>
        rcases List.mem_cons.mp hc with rfl | hc
        · exact hx
        · exact ih c hc
      next =>
        -- a run of other characters becomes one underscore, at its end
        cases cs with
        | nil =>
            rw [List.mem_singleton.mp hc]
            exact hunderscore
        | cons y cs =>
            dsimp only at hc
            split at hc
            next =>
              rcases List.mem_cons.mp hc with rfl | hc
              · exact hunderscore
              · exact ih c hc
            next => exact ih c hc

theorem mem_of_mem_stripUnderscores {c : Char} {cs : List Char} (h : c ∈ stripUnderscores cs) :
    c ∈ cs := by
  have hinner : c ∈ (cs.dropWhile (· == '_')).reverse :=
    (List.dropWhile_sublist _).mem (List.mem_reverse.mp h)
  exact (List.dropWhile_sublist _).mem (List.mem_reverse.mp hinner)

/-- **Whatever the e-mail and the display name, the name is canonical.** -/
theorem canonical_usernameForClaims (S : Settings) (email : String) (displayName : Option String) :
    isCanonicalUsername (usernameForClaims S email displayName) = true := by
  unfold usernameForClaims
  generalize (truthy (displayName.map S.trim)).getD (localPart email) = source
  have hchars : ∀ c ∈ (stripUnderscores (collapse (S.toLowerCase source).toList)).take 32,
      isNameChar c = true := fun c hc =>
    isNameChar_collapse _ c (mem_of_mem_stripUnderscores (List.mem_of_mem_take hc))
  -- the padded name of any characters of a name
  have hpadded : ∀ name : List Char, (∀ c ∈ name, isNameChar c = true) → name.length ≤ 32 →
      isCanonicalUsername (String.ofList (name ++ List.replicate (3 - name.length) '_')) =
        true := by
    intro name hname hmax
    rw [isCanonicalUsername_iff, String.toList_ofList, List.length_append, List.length_replicate]
    refine ⟨by omega, by omega, fun c hc => ?_⟩
    rcases List.mem_append.mp hc with hc | hc
    · exact hname c hc
    · rw [List.eq_of_mem_replicate hc]
      decide
  dsimp only
  split
  next => exact hpadded _ (List.all_eq_true.mp (by decide)) (by decide)
  next => exact hpadded _ hchars (List.length_take_le _ _)

/-! ## §2. What a sign-in tries. -/

/-- The user name a step inserts an account under. -/
def Act.tries : ∀ {β : Type}, Act β → Option String
  | _, .query (.insertUser v) => some v.username
  | _, _ => none

/-- A sign-in inserts canonical names only. -/
def trying (op : Op) : Monitor Act Unit where
  allow := fun _ a => op.isGoogleLogin = true → ∀ name, a.tries = some name →
    isCanonicalUsername name = true
  next := fun _ a b _ => Responds a b

/-- The failure of `resolveProviderIdentity` where the name is not canonical. -/
def invalidUsername : Exn := .plain "Invalid canonical username"

/-- What a failure may be. -/
def Expected (op : Op) (e : Exn) (_ : Unit) : Prop := op.isGoogleLogin = true → e ≠ invalidUsername

theorem expected_of_database (op : Op) {e : Exn} (h : Exn.isDatabase e = true) :
    Expected op e () := by
  rintro - rfl
  cases h

section Rules

variable {op : Op} {α : Type} {Q : α → Unit → Prop}

/-- A step that inserts no account. -/
theorem trying_act {a : Act α} (ha : a.tries = none) (hQ : ∀ b, Responds a b → Q b ()) :
    wp (trying op) Q (Expected op) (perform a) () := by
  refine wp_perform (fun _ name hname => ?_) fun b _ hb => hQ b hb
  rw [ha] at hname
  cases hname

/-- A statement that inserts no account. -/
theorem trying_query {s : Stmt α} (ha : (Act.query s).tries = none) (hQ : ∀ r, Q r ()) :
    wp (trying op) Q (Expected op) (query s) () := by
  refine wp_query (fun _ name hname => ?_) (fun r _ _ => hQ r) fun e _ he =>
    expected_of_database _ (he e rfl)
  rw [ha] at hname
  cases hname

/-- Nothing is asked of the other routes. -/
theorem trying_other (hop : op.isGoogleLogin = false) (p : Call α) :
    wp (trying op) (fun _ _ => True) (Expected op) p () := by
  have hno : op.isGoogleLogin ≠ true := by
    rw [hop]
    decide
  induction p with
  | ret a => trivial
  | fail e => exact fun h => absurd h hno
  | act a k ih => exact ⟨fun h => absurd h hno, fun b _ _ => ih b⟩

end Rules

section SignIn

variable {S : Settings} {op : Op} {identity : ProviderIdentity} {providerId : String}

theorem trying_lookupIdentity {Q : Option ProviderIdentityResolution → Unit → Prop}
    (hQ : ∀ r, Q r ()) :
    wp (trying op) Q (Expected op) (lookupIdentity identity providerId) () := by
  unfold lookupIdentity
  refine wp_seq (trying_query rfl fun linkedUser => ?_)
  cases linkedUser with
  | some user => exact hQ _
  | none =>
      refine wp_seq (trying_query rfl fun emailUser => ?_)
      cases emailUser with
      | some user => exact hQ _
      | none => exact hQ _

/-- **The loop over the candidate names** tries canonical ones. -/
theorem trying_createProviderUser {username : String}
    (hname : isCanonicalUsername username = true) (left attempt : Nat) :
    wp (trying op) (fun _ _ => True) (Expected op)
      (createProviderUser S identity providerId username attempt left) () := by
  -- on the attempts that are left
  induction left generalizing attempt with
  | zero =>
      rintro - h
      cases h
  | succ left ih =>
      have hinsert : ∀ candidate (k : Option User → Call ProviderIdentityResolution),
          isCanonicalUsername candidate = true →
          (∀ created, wp (trying op) (fun _ _ => True) (Expected op) (k (some created)) ()) →
          wp (trying op) (fun _ _ => True) (Expected op) (k none) () →
          wp (trying op) (fun _ _ => True) (Expected op)
            ((insertAccount (providerAccount S identity providerId candidate)).bind k) () := by
        intro candidate k hcandidate hcreated hretry
        unfold insertAccount
        refine wp_seq ?_
        rw [tryCatch_eq, wp_tryCatch]
        refine wp_seq (wp_query (fun _ name htried => ?_) (fun created _ _ => hcreated created)
          fun e _ he => ?_)
        · cases htried
          exact hcandidate
        · cases hviolation : Exn.isUniqueViolation e with
          | true => simpa [hviolation] using hretry
          | false => simpa [hviolation] using expected_of_database op (he e rfl)
      -- where the name is taken, the account is looked up again
      have hlookup : ∀ k : Option ProviderIdentityResolution → Call ProviderIdentityResolution,
          (∀ resolution, wp (trying op) (fun _ _ => True) (Expected op) (k (some resolution)) ()) →
          wp (trying op) (fun _ _ => True) (Expected op) (k none) () →
          wp (trying op) (fun _ _ => True) (Expected op)
            ((lookupIdentity identity providerId).bind k) () := by
        intro k hsome hnone
        refine wp_seq (trying_lookupIdentity fun resolution => ?_)
        cases resolution with
        | some resolution => exact hsome resolution
        | none => exact hnone
      unfold createProviderUser candidateName
      refine wp_seq ?_
      split
      next =>
        exact hinsert username _ hname (fun _ => trivial)
          (hlookup _ (fun _ => trivial) (ih (attempt + 1)))
      next =>
        refine wp_seq (trying_act rfl fun n hn => ?_)
        exact hinsert _ _ (canonical_candidate hname hn) (fun _ => trivial)
          (hlookup _ (fun _ => trivial) (ih (attempt + 1)))

theorem loginRefusal_ne {user : User} {e : Exn} (h : loginRefusal user = some e) :
    e ≠ invalidUsername := by
  unfold loginRefusal at h
  split at h <;> cases h <;> exact Exn.noConfusion

theorem trying_issueProviderSession (user : User) :
    wp (trying op) (fun _ _ => True) (Expected op) (issueProviderSession S user) () := by
  have hthrow : ∀ {e : Exn}, e ≠ invalidUsername → Expected op e () := fun he _ => he
  have hallowed : ∀ {Q : Unit → Unit → Prop}, Q () () →
      wp (trying op) Q (Expected op) (assertLoginAllowed user) () := by
    intro Q hQ
    unfold assertLoginAllowed
    cases hrefusal : loginRefusal user with
    | some e => exact hthrow (loginRefusal_ne hrefusal)
    | none => exact hQ
  unfold issueProviderSession
  refine wp_seq (hallowed ?_)
  refine wp_guard (fun _ => hthrow Exn.noConfusion) fun _ => ?_
  refine wp_guard (fun _ => hthrow Exn.noConfusion) fun _ => ?_
  unfold issueSession buildIssuedRefreshToken
  refine wp_seq (trying_act rfl fun jti _ => ?_)
  refine wp_seq (trying_act rfl fun accessToken _ => ?_)
  refine wp_seq (wp_seq (trying_act rfl fun refreshToken _ => ?_))
  refine wp_seq (trying_act rfl fun now _ => ?_)
  exact wp_seq (trying_query rfl fun _ => trivial)

/-- The claims of a credential, or a failure of its own. -/
theorem trying_consumeCredential {Q : GoogleTokenClaims → Unit → Prop} (credential : String)
    (hQ : ∀ claims, Q claims ()) :
    wp (trying op) Q (Expected op) (consumeCredential S credential) () := by
  have hthrow : ∀ {e : Exn}, e ≠ invalidUsername → Expected op e () := fun he _ => he
  have hverify : ∀ {R : GoogleTokenClaims → Unit → Prop}, (∀ claims, R claims ()) →
      wp (trying op) R (Expected op) (verifyCredential S credential) () := by
    intro R hR
    unfold verifyCredential
    split
    next => exact hthrow Exn.noConfusion
    next audience _ =>
      refine wp_seq (trying_act rfl fun payload _ => ?_)
      refine wp_seq (trying_act rfl fun now _ => ?_)
      split
      next => exact hthrow Exn.noConfusion
      next claims _ => exact hR claims
  unfold consumeCredential
  refine wp_seq (hverify fun claims => ?_)
  unfold verifyAndConsume
  refine wp_seq ?_
  split
  next => exact hthrow Exn.noConfusion
  next =>
    refine wp_seq (trying_act rfl fun now _ => ?_)
    refine wp_seq (trying_query rfl fun consumed => ?_)
    exact wp_guard (fun _ => hthrow Exn.noConfusion) fun _ => hQ claims

/-- **Sign-in**: the name of the claims passes the check. -/
theorem trying_googleLogin
    (hlower : ∀ name, isCanonicalUsername name = true → S.toLowerCase name = name)
    (credential : String) :
    wp (trying op) (fun _ _ => True) (Expected op) (googleLogin S credential) () := by
  unfold googleLogin
  refine wp_seq (trying_consumeCredential credential fun claims => ?_)
  have hname := canonical_usernameForClaims S claims.email claims.name
  refine wp_seq (wp_mono (Q := fun _ _ => True) _ _ (fun resolution _ _ => ?_)
    (fun _ _ he => he) ?_)
  · have hsession : ∀ user, wp (trying op) (fun _ _ => True) (Expected op)
        ((issueProviderSession S user).bind fun session => ret (some session)) () := fun user =>
      wp_seq (wp_mono _ _ (fun _ _ _ => trivial) (fun _ _ he => he)
        (trying_issueProviderSession user))
    cases resolution with
    | linkConfirmationRequired user => trivial
    | authenticated user => exact hsession user
    | created user => exact hsession user
  · unfold resolveProviderIdentity
    refine wp_guard (fun _ _ h => absurd (Exn.plain.inj h) (by decide)) fun _ => ?_
    · refine wp_seq (trying_lookupIdentity fun resolution => ?_)
      cases resolution with
      | some resolution => trivial
      | none =>
          have hcanonical := hlower _ hname
          generalize usernameForClaims S claims.email claims.name = username at hname hcanonical
          show wp _ _ _ (if !isCanonicalUsername (S.toLowerCase username) then fail _ else _) _
          rw [hcanonical]
          refine wp_guard (fun hinvalid => ?_) fun _ => trying_createProviderUser hname 3 0
          simp [hname] at hinvalid

end SignIn

/-! ## §3. Runs. -/

/-- Every interleaving, with the names that sign-ins have tried. -/
def candidates : Watch Act World Env Op (List String) where
  onStep := fun tried _ _ op _ a _ _ =>
    if op.isGoogleLogin then a.tries.toList ++ tried else tried

/-- In every interleaving the names tried are canonical, and the code left of
every call respects the monitor. -/
theorem tried_run (hlower : ∀ name, isCanonicalUsername name = true → S.toLowerCase name = name)
    {w₀ : World} {c : Conf} {tried : List String}
    (h : (system S).Reach candidates (Config.init w₀) [] c tried) :
    ∃ gs, (∀ name ∈ tried, isCanonicalUsername name = true) ∧
      System.Tracks trying () (fun _ _ _ => True) Expected c gs := by
  refine System.Reach.sound (M := trying) (fun _ => ())
    (fun _ tried _ => ∀ name ∈ tried, isCanonicalUsername name = true) ?_ ?_ ?_ ?_ ?_ ?_ h
  · intro o w p op _
    cases op with
    | googleLogin credential =>
        exact wp_seq (wp_mono _ _ (fun _ _ _ => trivial) (fun _ _ he => he)
          (trying_googleLogin hlower credential))
    | _ => exact trying_other rfl _
  · intro w tried gs p op hI _ _
    exact hI
  · intro w tried gs p op β a e b w' hI ha _ hx
    refine ⟨(), exec_responds hx, fun name hname => ?_⟩
    change name ∈ (if op.isGoogleLogin then a.tries.toList ++ tried else tried) at hname
    split at hname
    next hop =>
      rcases List.mem_append.mp hname with hnew | hold
      · exact ha hop name (Option.mem_toList.mp hnew)
      · exact hI name hold
    next => exact hI name hname
  · intro w tried gs e w' hI _
    exact hI
  · intro w tried gs e w' alive hI _ _ _
    exact hI
  · intro name hname
    cases hname

/-- **Provider usernames are always canonical.**  Where lower-casing leaves a
canonical name alone: the name of any claims is canonical; in every interleaving
every name that a sign-in has tried is; and no sign-in fails with `Invalid
canonical username`. -/
theorem provider_usernames_canonical (S : Settings)
    (hlower : ∀ name, isCanonicalUsername name = true → S.toLowerCase name = name) :
    (∀ email displayName,
      isCanonicalUsername (usernameForClaims S email displayName) = true) ∧
    ∀ {w₀ : World} {c : Conf} {tried : List String},
      (system S).Reach candidates (Config.init w₀) [] c tried →
      (∀ name ∈ tried, isCanonicalUsername name = true) ∧
        ∀ p credential, ¬ c.failed p (.googleLogin credential) invalidUsername := by
  refine ⟨canonical_usernameForClaims S, fun {w₀ c tried} h => ?_⟩
  obtain ⟨gs, htried, hT⟩ := tried_run hlower h
  exact ⟨htried, fun p credential hfailed => hT.failed hfailed rfl rfl⟩

/-- Another bob signs in; his name is taken, and he gets a number. -/
def secondBobEvents : List (Event Env Op) :=
  [.invoke 0 (.createChallenge .google), .step 0 { text := jti₁ }, .step 0 {},
   .step 0 { uuid := 5 }, .invoke 1 (.googleLogin "credential"),
   .step 1 { payload := some { OAuth.steveToken jti₁ with email := some "bob@example.org" } },
   .step 1 {}, .step 1 {}, .step 1 {}, .step 1 {}, .step 1 {}, .step 1 { uuid := 6 },
   .step 1 {}, .step 1 {}, .step 1 { number := 4217 }, .step 1 { uuid := 6 }]

theorem secondBob_canonical : ∃ c tried,
    (system OAuth.googleSettings).Reach candidates (Config.init sampleWorld) [] c tried ∧
      tried = ["bob4217", "bob"] ∧ (∀ name ∈ tried, isCanonicalUsername name = true) ∧
      ∀ p credential, ¬ c.failed p (.googleLogin credential) invalidUsername := by
  obtain ⟨c, tried, h, ht⟩ := System.Reach.of_replay (S := system OAuth.googleSettings)
    (V := candidates) sampleWorld [] secondBobEvents
    (fun _ tried => decide (tried = ["bob4217", "bob"])) (by decide +kernel)
  exact ⟨c, tried, h, of_decide_eq_true ht,
    (provider_usernames_canonical OAuth.googleSettings fun _ _ => rfl).2 h⟩

end MinePanel.Accounts
