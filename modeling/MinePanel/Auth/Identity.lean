/-
  MinePanel.Auth.Identity
  ───────────────────────
  **GOOGLE SIGN-IN** (`src/auth/identity.service.ts`, `google-oauth.service.ts`,
  `google-token.service.ts`, `oauth-challenge.service.ts`).

  A credential is verified by Google's library, its nonce is consumed as a
  single-use challenge, and the identity is resolved: a linked account signs
  in, an account that only shares the e-mail must confirm, otherwise a new
  account is created under one of three candidate names.
-/
import MinePanel.Auth.Service

namespace MinePanel.Accounts

open MinePanel.Db MinePanel.Lib

/-! ## §1. Challenges. -/

/-- `OAUTH_CHALLENGE_TTL_MS`. -/
def oauthChallengeTtlMs : Nat := 5 * 60 * 1000

/-- The alphabet of base64url. -/
def isBase64Url (c : Char) : Bool := c.isAlphanum || c == '_' || c == '-'

/-- `/^[A-Za-z0-9_-]{43}$/`. -/
def isRawChallenge (challenge : String) : Bool :=
  challenge.length == 43 && challenge.toList.all isBase64Url

/-- `createChallenge`. -/
def createChallenge (S : Settings) (provider : OAuthChallengeProvider) : Call String := do
  let challenge ← Prog.perform .random
  let now ← Prog.perform .now
  query (.insertChallenge provider (S.sha256 challenge) (now + oauthChallengeTtlMs))
  return challenge

/-- `verifyAndConsume`. -/
def verifyAndConsume (S : Settings) (provider : OAuthChallengeProvider) (challenge : String) :
    Call Bool := do
  if !isRawChallenge challenge then return false
  else
    let now ← Prog.perform .now
    let consumed ← query (.consumeChallenge provider (S.sha256 challenge) now)
    return consumed.isSome

/-! ## §2. Google's token. -/

/-- `GoogleTokenClaims`. -/
structure GoogleTokenClaims where
  sub : String
  email : String
  nonce : String
  name : Option String
  deriving Repr, DecidableEq

/-- `GOOGLE_ISSUERS`. -/
def googleIssuers : List String := ["accounts.google.com", "https://accounts.google.com"]

/-- `hasRequiredClaims`, with the claims it lets through. -/
def requiredClaims (S : Settings) (payload : GoogleTokenPayload) (now : Timestamp) :
    Option GoogleTokenClaims := do
  let now : Int := now / 1000
  let iss ← payload.iss
  let sub ← payload.sub
  let email ← payload.email
  let nonce ← payload.nonce
  let iat ← payload.iat
  let exp ← payload.exp
  if iss ∈ googleIssuers ∧ S.trim sub ≠ "" ∧ S.trim email ≠ "" ∧ payload.emailVerified
      ∧ isRawChallenge nonce ∧ iat ≤ now + 60 ∧ now - 5 * 60 ≤ iat ∧ now < exp then
    some { sub := sub, email := S.toLowerCase (S.trim email), nonce := nonce, name := payload.name }
  else none

/-- The claims that are let through are those of the token, its e-mail in normal
form. -/
theorem requiredClaims_eq_some {S : Settings} {payload : GoogleTokenPayload} {now : Timestamp}
    {claims : GoogleTokenClaims} (h : requiredClaims S payload now = some claims) :
    payload.sub = some claims.sub ∧ payload.nonce = some claims.nonce ∧ S.trim claims.sub ≠ "" ∧
      isRawChallenge claims.nonce = true ∧
      ∃ email, payload.email = some email ∧ claims.email = S.toLowerCase (S.trim email) := by
  unfold requiredClaims at h
  obtain ⟨iss, -, h⟩ := Option.bind_eq_some_iff.mp h
  obtain ⟨sub, hsub, h⟩ := Option.bind_eq_some_iff.mp h
  obtain ⟨email, hemail, h⟩ := Option.bind_eq_some_iff.mp h
  obtain ⟨nonce, hnonce, h⟩ := Option.bind_eq_some_iff.mp h
  obtain ⟨iat, -, h⟩ := Option.bind_eq_some_iff.mp h
  obtain ⟨exp, -, h⟩ := Option.bind_eq_some_iff.mp h
  split at h
  next hvalid =>
    cases h
    obtain ⟨-, htrim, -, -, hraw, -⟩ := hvalid
    exact ⟨hsub, hnonce, htrim, hraw, email, hemail, rfl⟩
  next => cases h

/-- `verifyCredential`. -/
def verifyCredential (S : Settings) (credential : String) : Call GoogleTokenClaims := do
  match truthy (S.googleClientId.map S.trim) with
  | none => throw (.serviceUnavailable "GoogleOAuthUnavailable")
  | some audience =>
    let payload ← Prog.perform (.verifyIdToken credential audience)
    let now ← Prog.perform .now
    match payload.bind fun payload => requiredClaims S payload now with
    | none => throw (.unauthorized (some "InvalidGoogleCredential"))
    | some claims => return claims

/-! ## §3. Identities. -/

/-- `IdentityProvider`. -/
inductive IdentityProvider where
  | google | github
  deriving Repr, DecidableEq

/-- The column of a provider. -/
def IdentityProvider.column : IdentityProvider → User → Option String
  | .google => User.googleId
  | .github => User.githubId

/-- `ProviderIdentity`. -/
structure ProviderIdentity where
  provider : IdentityProvider
  providerId : String
  email : String
  username : String
  deriving Repr, DecidableEq

/-- `ProviderIdentityResolution`. -/
inductive ProviderIdentityResolution where
  | authenticated (user : User)
  | created (user : User)
  | linkConfirmationRequired (user : User)
  deriving Repr, DecidableEq

/-- A character of a canonical user name. -/
def isNameChar (c : Char) : Bool := c.isLower || c.isDigit || c == '_'

/-- `/^[a-z0-9_]{3,32}$/`. -/
def isCanonicalUsername (username : String) : Bool :=
  decide (3 ≤ username.length) && decide (username.length ≤ 32) && username.toList.all isNameChar

/-- `isUniqueViolation`. -/
def Exn.isUniqueViolation : Exn → Bool
  | .uniqueViolation _ => true
  | _ => false

/-- The candidate name of one attempt. -/
def candidateName (username : String) (attempt : Nat) : Call String :=
  if attempt = 0 then return username
  else do
    let n ← Prog.perform (.randomInt 1000 10000)
    return slice username 28 ++ toString n

/-- The new account of an identity, under a candidate name. -/
def providerAccount (S : Settings) (identity : ProviderIdentity) (providerId candidate : String) :
    NewUser where
  email := identity.email
  username := candidate
  passwordHash := none
  googleId := if identity.provider = .google then some providerId else none
  githubId := if identity.provider = .github then some providerId else none
  status := if S.requireAdminApproval then .pending else .active

/-- The linked account, or else the one with the same e-mail. -/
def lookupIdentity (identity : ProviderIdentity) (providerId : String) :
    Call (Option ProviderIdentityResolution) := do
  match ← query (.findUser fun u => identity.provider.column u == some providerId) with
  | some linkedUser => return some (.authenticated linkedUser)
  | none =>
    match ← query (.findUser fun u => u.email == identity.email) with
    | some emailUser => return some (.linkConfirmationRequired emailUser)
    | none => return none

/-- One INSERT of a new account; `none` where it met a unique column. -/
def insertAccount (values : NewUser) : Call (Option User) :=
  try some <$> query (.insertUser values)
  catch error => if Exn.isUniqueViolation error then pure none else throw error

/-- The loop over the candidate names, from `attempt` with `left` to go. -/
def createProviderUser (S : Settings) (identity : ProviderIdentity) (providerId username : String)
    (attempt : Nat) : Nat → Call ProviderIdentityResolution
  | 0 => throw (.conflict "Username unavailable")
  | left + 1 => do
      let candidate ← candidateName username attempt
      match ← insertAccount (providerAccount S identity providerId candidate) with
      | some created => return .created created
      | none =>
        match ← lookupIdentity identity providerId with
        | some resolution => return resolution
        | none => createProviderUser S identity providerId username (attempt + 1) left

/-- `resolveProviderIdentity`. -/
def resolveProviderIdentity (S : Settings) (identity : ProviderIdentity) :
    Call ProviderIdentityResolution := do
  let providerId := S.trim identity.providerId
  if providerId = "" then throw (.plain "Provider identity is required")
  match ← lookupIdentity identity providerId with
  | some resolution => return resolution
  | none =>
    let username := S.toLowerCase identity.username
    if !isCanonicalUsername username then throw (.plain "Invalid canonical username")
    createProviderUser S identity providerId username 0 3

/-- `linkGoogleIdentity`. -/
def linkGoogleIdentity (S : Settings) (userId : UserId) (providerId : String) : Call User := do
  let normalizedProviderId := S.trim providerId
  if normalizedProviderId = "" then throw (.plain "Provider identity is required")
  transaction do
    let linkedUser ←
      try query (.updateUser userId (fun u => u.googleId.isNone)
        { googleId := some (some normalizedProviderId) })
      catch error =>
        if Exn.isUniqueViolation error then
          throw (.conflict "Google account is already linked")
        else throw error
    match linkedUser with
    | some linkedUser => return linkedUser
    | none =>
      match ← query (.selectUser userId) with
      | none => throw (.conflict "User not found")
      | some user =>
        if user.googleId = some normalizedProviderId then return user
        else throw (.conflict "Google account is already linked")

/-! ## §4. The two routes. -/

/-- `.replace(/[^a-z0-9_]+/g, '_')`. -/
def collapse : List Char → List Char
  | [] => []
  | c :: cs =>
      if isNameChar c then c :: collapse cs
      else
        match cs with
        | [] => ['_']
        | c' :: _ => if isNameChar c' then '_' :: collapse cs else collapse cs

/-- `.replace(/^_+|_+$/g, '')`. -/
def stripUnderscores (cs : List Char) : List Char :=
  ((cs.dropWhile (· == '_')).reverse.dropWhile (· == '_')).reverse

/-- `email.slice(0, email.indexOf('@'))`; without an `@` the last character
goes. -/
def localPart (email : String) : String :=
  let cs := email.toList
  if '@' ∈ cs then String.ofList (cs.takeWhile (· != '@')) else String.ofList cs.dropLast

/-- `usernameForClaims`. -/
def usernameForClaims (S : Settings) (email : String) (displayName : Option String) : String :=
  let source := (truthy (displayName.map S.trim)).getD (localPart email)
  let normalized := (stripUnderscores (collapse (S.toLowerCase source).toList)).take 32
  let name := if normalized.isEmpty then "user".toList else normalized
  String.ofList (name ++ List.replicate (3 - name.length) '_')

/-- The claims of a credential whose challenge has been consumed. -/
def consumeCredential (S : Settings) (credential : String) : Call GoogleTokenClaims := do
  let claims ← verifyCredential S credential
  let consumed ← verifyAndConsume S .google claims.nonce
  if !consumed then
    throw (.unauthorized (some "InvalidGoogleChallenge"))
  return claims

/-- `login`; `none` where the link must be confirmed. -/
def googleLogin (S : Settings) (credential : String) : Call (Option AuthTokens) := do
  let claims ← consumeCredential S credential
  let resolution ← resolveProviderIdentity S
    { provider := .google
      providerId := claims.sub
      email := claims.email
      username := usernameForClaims S claims.email claims.name }
  match resolution with
  | .linkConfirmationRequired _ => return none
  | .authenticated user | .created user =>
    let session ← issueProviderSession S user
    return some session

/-- `linkAuthenticatedUser`. -/
def googleLink (S : Settings) (userId : UserId) (credential : String) : Call PublicUser := do
  let claims ← consumeCredential S credential
  let user ← linkGoogleIdentity S userId claims.sub
  return toPublicUser user

end MinePanel.Accounts
