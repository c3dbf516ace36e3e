/-
  MinePanel.Users.Identifiers
  ───────────────────────────
  **ONE TEXT, AT MOST ONE ACCOUNT.**

  `findByIdentifier` looks a text up in two columns at once, and no constraint
  of the database keeps an e-mail of one account from being the name of
  another.  What does is the shape of the values: four writers (setup, register,
  profile, provider) normalise them in three ways, and all of them leave names
  in `[a-z0-9_]{3,32}` and e-mails in lower case with an `@`.

    * `Documented` — what is assumed of `class-validator` and of JavaScript;
    * `IsCanonical` — the shape of a row;
    * `body_canonical` — **every operation writes canonical values only**;
    * `identifiers_unambiguous` — the result for every run.
-/
import MinePanel.Auth.Dto
import MinePanel.Accounts.Unique
import Mathlib.Data.List.DropRight

namespace MinePanel.Accounts

open MinePanel.Db MinePanel.Lib Prog

/-! ## §1. Canonical rows. -/

/-- An e-mail is its own normal form, and contains an `@`. -/
structure IsCanonicalEmail (T : Text) (email : String) : Prop where
  normal : canonical T email = email
  at_mem : '@' ∈ email.toList

/-- A row that sign-in can find by either column. -/
structure IsCanonical (T : Text) (u : User) : Prop where
  email : IsCanonicalEmail T u.email
  username : isCanonicalUsername u.username = true

/-- **What is assumed of the packages.** -/
structure Documented (V : Validators) (T : Text) : Prop where
  isEmail : ∀ value, V.isEmail value = true → '@' ∈ value.toList
  /-- A text of ASCII characters is as long as it has characters. -/
  length : ∀ value, Validators.isWord value = true → V.length value = value.length
  idempotent : ∀ value, canonical T (canonical T value) = canonical T value
  /-- Nothing in lower case is a capital letter of ASCII. -/
  toLowerCase : ∀ value, ∀ c ∈ (T.toLowerCase value).toList, c.isUpper = false
  /-- An `@` is neither trimmed nor changed. -/
  keeps_at : ∀ value, '@' ∈ value.toList → '@' ∈ (canonical T value).toList

theorem isCanonicalUsername_iff {username : String} : isCanonicalUsername username = true ↔
    3 ≤ username.toList.length ∧ username.toList.length ≤ 32 ∧
      ∀ c ∈ username.toList, isNameChar c = true := by
  unfold isCanonicalUsername
  rw [String.length_toList]
  simp [and_assoc]

/-- No name contains an `@`. -/
theorem at_not_mem_username {username : String} (h : isCanonicalUsername username = true) :
    '@' ∉ username.toList := by
  intro hat
  have hchar := (isCanonicalUsername_iff.mp h).2.2 '@' hat
  revert hchar
  decide

/-- **No e-mail is a name.** -/
theorem IsCanonical.email_ne_username {T : Text} {u v : User} (hu : IsCanonical T u)
    (hv : IsCanonical T v) : u.email ≠ v.username := by
  intro heq
  refine at_not_mem_username hv.username ?_
  rw [← heq]
  exact hu.email.at_mem

/-! ## §2. The pipes. -/

section Pipes

variable {V : Validators} {T : Text} {b : Body}

theorem isNameChar_of_isWordChar {c : Char} (h : Validators.isWordChar c = true)
    (hu : c.isUpper = false) : isNameChar c = true := by
  unfold Validators.isWordChar Char.isAlphanum Char.isAlpha at h
  unfold isNameChar
  rw [hu] at h
  simpa using h

/-- What the pipes let through as a name is canonical. -/
theorem canonical_of_username (hdoc : Documented V T) {f : Field} {username : String}
    (h : (f.transformed T).filter V.username = some username) :
    isCanonicalUsername username = true := by
  obtain ⟨htransformed, hvalid⟩ := Option.filter_eq_some_iff.mp h
  obtain ⟨value, -, rfl⟩ := Option.map_eq_some_iff.mp htransformed
  simp only [Validators.username, Validators.isLength, Bool.and_eq_true, decide_eq_true_eq]
    at hvalid
  obtain ⟨⟨-, hmin, hmax⟩, hword⟩ := hvalid
  rw [hdoc.length _ hword] at hmin hmax
  have hchars : ∀ c ∈ (canonical T value).toList, Validators.isWordChar c = true := by
    unfold Validators.isWord at hword
    simpa using (Bool.and_eq_true_iff.mp hword).2
  rw [← String.length_toList] at hmin hmax
  refine isCanonicalUsername_iff.mpr ⟨hmin, hmax, fun c hc => ?_⟩
  exact isNameChar_of_isWordChar (hchars c hc) (hdoc.toLowerCase _ c hc)

theorem canonical_of_email (hdoc : Documented V T) {f : Field} {email : String}
    (h : (f.transformed T).filter V.email = some email) : IsCanonicalEmail T email := by
  obtain ⟨htransformed, hvalid⟩ := Option.filter_eq_some_iff.mp h
  obtain ⟨value, -, rfl⟩ := Option.map_eq_some_iff.mp htransformed
  simp only [Validators.email, Bool.and_eq_true] at hvalid
  exact ⟨hdoc.idempotent value, hdoc.isEmail _ hvalid.1.2⟩

theorem canonical_of_createUserDto (hdoc : Documented V T) {dto : CreateUserDto}
    (h : createUserDto V T b = some dto) :
    IsCanonicalEmail T dto.email ∧ isCanonicalUsername dto.username = true := by
  unfold createUserDto at h
  obtain ⟨email, hemail, h⟩ := Option.bind_eq_some_iff.mp h
  obtain ⟨username, husername, h⟩ := Option.bind_eq_some_iff.mp h
  obtain ⟨password, -, h⟩ := Option.bind_eq_some_iff.mp h
  split at h
  next =>
    cases h
    exact ⟨canonical_of_email hdoc hemail, canonical_of_username hdoc husername⟩
  next => cases h

theorem canonical_of_editUserDto (hdoc : Documented V T) {dto : EditUserDto}
    (h : editUserDto V T b = some dto) {username : String} (hname : dto.username = some username) :
    isCanonicalUsername username = true := by
  unfold editUserDto at h
  obtain ⟨name, hfield, h⟩ := Option.bind_eq_some_iff.mp h
  split at h
  next =>
    cases h
    change name = some username at hname
    subst hname
    unfold optionalUsername at hfield
    split at hfield
    next => cases hfield
    next => cases hfield
    next =>
      obtain ⟨name, hvalid, heq⟩ := Option.map_eq_some_iff.mp hfield
      cases heq
      exact canonical_of_username hdoc hvalid
  next => cases h

/-- `LoginUserDto` lets the normal form of the identifier through. -/
theorem identifier_of_loginUserDto {dto : LoginUserDto} (h : loginUserDto V T b = some dto) :
    ∃ value, b.identifier = .text value ∧ dto.identifier = canonical T value := by
  unfold loginUserDto at h
  obtain ⟨identifier, hidentifier, h⟩ := Option.bind_eq_some_iff.mp h
  obtain ⟨password, -, h⟩ := Option.bind_eq_some_iff.mp h
  split at h
  next =>
    cases h
    obtain ⟨value, hvalue, hcanonical⟩ := Option.map_eq_some_iff.mp
      (Option.filter_eq_some_iff.mp hidentifier).1
    refine ⟨value, ?_, hcanonical.symm⟩
    cases hfield : b.identifier with
    | text v =>
        rw [hfield] at hvalue
        cases hvalue
        rfl
    | _ =>
        rw [hfield] at hvalue
        cases hvalue
  next => cases h

end Pipes

/-! ## §3. Candidate names. -/

theorem units_of_isNameChar {c : Char} (h : isNameChar c = true) : units c = 1 := by
  have hascii : c.toNat < 0x10000 := by
    unfold isNameChar Char.isLower Char.isDigit at h
    simp only [Bool.or_eq_true, Bool.and_eq_true, decide_eq_true_eq, beq_iff_eq,
      UInt32.le_iff_toNat_le, ge_iff_le] at h
    have hval : c.toNat = c.val.toNat := rfl
    rcases h with (⟨-, h⟩ | ⟨-, h⟩) | rfl
    · have hz : 'z'.val.toNat = 122 := rfl
      omega
    · have hnine : '9'.val.toNat = 57 := rfl
      omega
    · decide
  exact if_pos hascii

/-- `slice` counts characters where each is one unit. -/
theorem takeUnits_eq_take {cs : List Char} (h : ∀ c ∈ cs, units c = 1) (n : Nat) :
    takeUnits n cs = cs.take n := by
  induction cs generalizing n with
  | nil => simp [takeUnits]
  | cons c cs ih =>
      have hhead : units c = 1 := h c List.mem_cons_self
      have htail := ih fun c' hc' => h c' (List.mem_cons_of_mem _ hc')
      cases n with
      | zero => simp [takeUnits, hhead]
      | succ n =>
          show (if units c ≤ n + 1 then c :: takeUnits (n + 1 - units c) cs else []) = _
          rw [hhead, if_pos (by omega), Nat.add_sub_cancel, htail]
          rfl

/-- A candidate name is canonical: at most 28 characters and four digits. -/
theorem canonical_candidate {username : String} (h : isCanonicalUsername username = true) {n : Nat}
    (hn : n < 10000) : isCanonicalUsername (slice username 28 ++ toString n) = true := by
  obtain ⟨hmin, hmax, hchars⟩ := isCanonicalUsername_iff.mp h
  have hslice : (slice username 28).toList = username.toList.take 28 := by
    unfold slice
    rw [String.toList_ofList]
    exact takeUnits_eq_take (fun c hc => units_of_isNameChar (hchars c hc)) 28
  have hdigits : (toString n).toList = Nat.toDigits 10 n := Nat.toList_repr
  have hlen : (Nat.toDigits 10 n).length ≤ 4 :=
    (Nat.length_toDigits_le_iff (by decide) (by decide)).mpr hn
  rw [isCanonicalUsername_iff, String.toList_append, hslice, hdigits, List.length_append,
    List.length_take]
  refine ⟨by omega, by omega, fun c hc => ?_⟩
  rcases List.mem_append.mp hc with hc | hc
  · exact hchars c (List.mem_of_mem_take hc)
  · have hdigit := Nat.isDigit_of_mem_toDigits (by decide) (by decide) hc
    unfold isNameChar
    rw [hdigit]
    simp

/-! ## §4. What a call may write. -/

/-- The values a step writes are canonical. -/
def Act.IsCanonical (T : Text) : ∀ {β : Type}, Act β → Prop
  | _, .query (.insertUser v) =>
      IsCanonicalEmail T v.email ∧ isCanonicalUsername v.username = true
  | _, .query (.updateUser _ _ set) =>
      ∀ name, set.username = some name → isCanonicalUsername name = true
  | _, _ => True

/-- What the outside answers: Google's e-mails contain an `@`, and a random
integer is in its range. -/
def IsAnswer : ∀ {β : Type}, Act β → β → Prop
  | _, .verifyIdToken _ _, b => ∀ payload email, b = some payload → payload.email = some email →
      '@' ∈ email.toList
  | _, .randomInt _ max, n => n < max
  | _, _, _ => True

/-- The monitor that lets canonical values through. -/
def naming (T : Text) : Monitor Act Unit where
  allow := fun _ a => a.IsCanonical T
  next := fun _ a b _ => IsAnswer a b

section Rules

variable {T : Text} {α : Type} {Q : α → Unit → Prop}

/-- Nothing is said of a call that throws. -/
def AnyThrow : Exn → Unit → Prop := fun _ _ => True

/-- A step without accounts and names. -/
theorem canonical_of_powers {β : Type} {a : Act β} (haccount : Power.account ∉ a.powers)
    (hname : Power.name ∉ a.powers) : a.IsCanonical T := by
  cases a with
  | query s =>
      cases s with
      | insertUser v => exact absurd List.mem_cons_self haccount
      | updateUser id cond set =>
          intro name hset
          refine absurd ?_ hname
          show Power.name ∈ set.powers
          simp [UserPatch.powers, hset]
      | _ => trivial
  | _ => trivial

/-- A piece of code without accounts and names. -/
theorem naming_within (ps : List Power) {p : Call α} (hp : Within ps p)
    (haccount : Power.account ∉ ps) (hname : Power.name ∉ ps) (hQ : ∀ r, Q r ()) :
    wp (naming T) Q AnyThrow p () := by
  refine wp_of_inv (J := fun _ => True) (fun a m ha _ => ⟨?_, fun _ _ _ => trivial⟩)
    (fun r _ _ => hQ r) (fun _ _ _ _ => trivial) hp trivial
  exact canonical_of_powers (fun h => haccount (ha h)) fun h => hname (ha h)

theorem naming_query {s : Stmt α} (hs : (Act.query s).IsCanonical T) (hQ : ∀ r, Q r ()) :
    wp (naming T) Q AnyThrow (query s) () :=
  wp_query hs (fun r _ _ => hQ r) fun _ _ _ => trivial

end Rules

/-! ## §5. The four writers. -/

section Writers

variable {S : Settings}

theorem naming_registerUser {email username password : String}
    (hemail : IsCanonicalEmail S.toText email) (hname : isCanonicalUsername username = true) :
    wp (naming S.toText) (fun _ _ => True) AnyThrow (registerUser S email username password) () := by
  unfold registerUser createUser
  refine wp_seq (naming_query trivial fun found => ?_)
  refine wp_guard (fun _ => trivial) fun _ => ?_
  refine wp_seq (naming_within [] (within_assertPasswordWithinByteLimit password)
    (by decide) (by decide) fun _ => ?_)
  refine wp_seq (naming_within [] (within_bcryptHash S password) (by decide) (by decide)
    fun passwordHash => ?_)
  exact wp_seq (naming_query ⟨hemail, hname⟩ fun _ => trivial)

theorem naming_initAdminRegister {email username password : String} {setupToken : Option String}
    (hemail : IsCanonicalEmail S.toText email) (hname : isCanonicalUsername username = true) :
    wp (naming S.toText) (fun _ _ => True) AnyThrow
      (initAdminRegister S email username password setupToken) () := by
  have hexpected : Within [Power.setup] (expectedSetupToken S) := by
    unfold expectedSetupToken
    split
    next => exact within_ret _
    next => exact within_perform (List.Subset.refl _)
  unfold initAdminRegister createFirstAdmin
  refine wp_seq (naming_within _ hexpected (by decide) (by decide) fun expected => ?_)
  refine wp_guard (fun _ => trivial) fun _ => ?_
  refine wp_seq (naming_within [] (within_assertPasswordWithinByteLimit password)
    (by decide) (by decide) fun _ => ?_)
  refine wp_seq (naming_within [] (within_bcryptHash S password) (by decide) (by decide)
    fun passwordHash => ?_)
  refine wp_transaction (R := fun _ _ => True) (F := AnyThrow) trivial (fun _ _ _ => trivial)
    (fun _ _ => ?_) (fun _ _ _ => ⟨trivial, fun _ _ => trivial, fun _ _ _ => trivial⟩)
    fun _ _ _ => ⟨trivial, fun _ _ => trivial⟩
  refine wp_seq (naming_query trivial fun _ => ?_)
  refine wp_seq (naming_query trivial fun _ => ?_)
  refine wp_seq (naming_query trivial fun state => ?_)
  cases state with
  | none => trivial
  | some initialAdminCreated =>
      refine wp_guard (fun _ => trivial) fun _ => ?_
      refine wp_seq (naming_query ⟨hemail, hname⟩ fun _ => ?_)
      exact naming_query trivial fun _ => trivial

theorem naming_updateProfile {userId : UserId} {username : Option String}
    (hname : ∀ name, username = some name → isCanonicalUsername name = true) :
    wp (naming S.toText) (fun _ _ => True) AnyThrow (updateProfile userId username) () := by
  unfold updateProfile findById
  refine wp_seq (naming_query trivial fun userData => ?_)
  cases userData with
  | none => trivial
  | some userData =>
      dsimp only
      split
      next => trivial
      next name hfilter =>
        have hcanonical := hname name (Option.filter_eq_some_iff.mp hfilter).1
        refine wp_seq (naming_query (fun n hn => ?_) fun updated => ?_)
        · obtain rfl := Option.some.inj hn
          exact hcanonical
        · exact naming_within [] (within_toPublicUserOrThrow updated) (by decide)
            (by decide) fun _ => trivial

variable {V : Validators} (hdoc : Documented V S.toText)

include hdoc

/-- The claims of a credential have a canonical e-mail. -/
theorem naming_verifyCredential (credential : String) :
    wp (naming S.toText) (fun claims _ => IsCanonicalEmail S.toText claims.email) AnyThrow
      (verifyCredential S credential) () := by
  unfold verifyCredential
  split
  next => trivial
  next audience _ =>
    refine wp_seq (wp_perform trivial fun payload _ hpayload => ?_)
    refine wp_seq (wp_perform trivial fun now _ _ => ?_)
    split
    next => trivial
    next claims hclaims =>
      obtain ⟨payload, rfl, hrequired⟩ := Option.bind_eq_some_iff.mp hclaims
      obtain ⟨-, -, -, -, email, hemail, hnormal⟩ := requiredClaims_eq_some hrequired
      show IsCanonicalEmail S.toText claims.email
      rw [hnormal]
      exact ⟨hdoc.idempotent email, hdoc.keeps_at email (hpayload payload email rfl hemail)⟩

omit hdoc

/-- The loop over the candidate names. -/
theorem naming_createProviderUser {identity : ProviderIdentity} {providerId username : String}
    (hemail : IsCanonicalEmail S.toText identity.email)
    (hname : isCanonicalUsername username = true) (left attempt : Nat) :
    wp (naming S.toText) (fun _ _ => True) AnyThrow
      (createProviderUser S identity providerId username attempt left) () := by
  -- on the attempts that are left; every candidate name is canonical
  induction left generalizing attempt with
  | zero => trivial
  | succ left ih =>
      have hinsert : ∀ candidate (k : Option User → Call ProviderIdentityResolution),
          isCanonicalUsername candidate = true →
          (∀ created, wp (naming S.toText) (fun _ _ => True) AnyThrow (k (some created)) ()) →
          wp (naming S.toText) (fun _ _ => True) AnyThrow (k none) () →
          wp (naming S.toText) (fun _ _ => True) AnyThrow
            ((insertAccount (providerAccount S identity providerId candidate)).bind k) () := by
        intro candidate k hcandidate hcreated hretry
        unfold insertAccount
        refine wp_seq ?_
        rw [tryCatch_eq, wp_tryCatch]
        refine wp_seq (wp_query ⟨hemail, hcandidate⟩ (fun created _ _ => hcreated created)
          fun e _ _ => ?_)
        cases hviolation : Exn.isUniqueViolation e with
        | true => simpa [hviolation] using hretry
        | false => simp [AnyThrow]
      -- where the name is taken, the account is looked up again
      have hlookup : ∀ k : Option ProviderIdentityResolution → Call ProviderIdentityResolution,
          (∀ resolution,
            wp (naming S.toText) (fun _ _ => True) AnyThrow (k (some resolution)) ()) →
          wp (naming S.toText) (fun _ _ => True) AnyThrow (k none) () →
          wp (naming S.toText) (fun _ _ => True) AnyThrow
            ((lookupIdentity identity providerId).bind k) () := by
        intro k hsome hnone
        refine wp_seq (naming_within [] (within_lookupIdentity identity providerId)
          (by decide) (by decide) fun resolution => ?_)
        cases resolution with
        | some resolution => exact hsome resolution
        | none => exact hnone
      unfold createProviderUser candidateName
      refine wp_seq ?_
      split
      next =>
        exact hinsert username _ hname (fun _ => trivial)
          (hlookup _ (fun _ => trivial) (ih (attempt + 1)))
      next =>
        refine wp_seq (wp_perform trivial fun n _ hn => ?_)
        exact hinsert _ _ (canonical_candidate hname hn) (fun _ => trivial)
          (hlookup _ (fun _ => trivial) (ih (attempt + 1)))

include hdoc

theorem naming_googleLogin (credential : String) :
    wp (naming S.toText) (fun _ _ => True) AnyThrow (googleLogin S credential) () := by
  unfold googleLogin consumeCredential resolveProviderIdentity
  refine wp_seq (wp_seq (wp_mono _ _ (fun claims _ hemail => ?_) (fun _ _ _ => trivial)
    (naming_verifyCredential hdoc credential)))
  have hconsume : Within [Power.challenge] (verifyAndConsume S .google claims.nonce) := by
    unfold verifyAndConsume
    refine within_ite (within_ret _) (within_bind (within_perform (List.nil_subset _)) fun now => ?_)
    exact within_bind (within_query (List.Subset.refl _)) fun _ => within_ret _
  refine wp_seq (naming_within _ hconsume (by decide) (by decide) fun consumed => ?_)
  refine wp_guard (fun _ => trivial) fun _ => ?_
  refine wp_seq (wp_mono (Q := fun _ _ => True) (E := AnyThrow) _ _ (fun resolution _ _ => ?_)
    (fun _ _ _ => trivial) ?_)
  · have hsession : ∀ user, wp (naming S.toText) (fun _ _ => True) AnyThrow
        ((issueProviderSession S user).bind fun session => ret (some session)) () := fun user =>
      wp_seq (naming_within [.issue] (within_issueProviderSession S user (by decide))
        (by decide) (by decide) fun _ => trivial)
    cases resolution with
    | linkConfirmationRequired _ => trivial
    | authenticated user => exact hsession user
    | created user => exact hsession user
  · refine wp_guard (fun _ => trivial) fun _ => ?_
    refine wp_seq (naming_within [] (within_lookupIdentity _ _) (by decide) (by decide)
      fun resolution => ?_)
    cases resolution with
    | some _ => trivial
    | none =>
        refine wp_guard (fun _ => trivial) fun hvalid => ?_
        exact naming_createProviderUser hemail (by simpa using hvalid) 3 0

/-- **Every operation writes canonical values only**, where its arguments have
come through its pipe. -/
theorem body_canonical {op : Op} {b : Body} (hop : op.isPiped V S.toText b = true) :
    wp (naming S.toText) (fun _ _ => True) AnyThrow (body S op) () := by
  have hother : Power.account ∉ op.powers → Power.name ∉ op.powers →
      wp (naming S.toText) (fun _ _ => True) AnyThrow (body S op) () := fun ha hn =>
    naming_within _ (body_within S op) ha hn fun _ => trivial
  have hmap : ∀ {α : Type} {p : Call α} (f : α → Reply),
      wp (naming S.toText) (fun _ _ => True) AnyThrow p () →
      wp (naming S.toText) (fun _ _ => True) AnyThrow (f <$> p) () := fun f hp =>
    wp_seq (wp_mono _ _ (fun _ _ _ => trivial) (fun _ _ _ => trivial) hp)
  cases op with
  | register email username password =>
      obtain ⟨hemail, hname⟩ := canonical_of_createUserDto hdoc (of_decide_eq_true hop)
      exact hmap _ (naming_registerUser hemail hname)
  | initAdminRegister email username password setupToken =>
      obtain ⟨hemail, hname⟩ := canonical_of_createUserDto hdoc (of_decide_eq_true hop)
      exact hmap _ (naming_initAdminRegister hemail hname)
  | editProfile userId username =>
      exact hmap _ (naming_updateProfile fun name hname =>
        canonical_of_editUserDto hdoc (of_decide_eq_true hop) hname)
  | googleLogin credential => exact hmap _ (naming_googleLogin hdoc credential)
  | _ => exact hother (by simp [Op.powers]) (by simp [Op.powers])

end Writers

/-! ## §6. Steps. -/

/-- The values a write stores are canonical. -/
def Write.IsCanonical (T : Text) : Write → Prop
  | .insertUser row => Accounts.IsCanonical T row
  | .updateUser _ set _ => ∀ name, set.username = some name → isCanonicalUsername name = true
  | _ => True

/-- Every row is canonical. -/
def Db.IsCanonical (T : Text) (d : Db) : Prop := ∀ u ∈ d.users.rows, Accounts.IsCanonical T u

section Steps

variable {T : Text}

/-- A step with canonical values plans canonical writes. -/
theorem plan_canonical {β : Type} {a : Act β} (ha : a.IsCanonical T) {x : Write} (hx : a.Plans x) :
    x.IsCanonical T := by
  cases a with
  | query s =>
      obtain ⟨now, e, d, hx⟩ := hx
      cases s with
      | insertUser v =>
          simp only [plan] at hx
          split at hx
          next => cases hx
          next =>
            split at hx
            next => cases hx
            next =>
              obtain rfl := List.mem_singleton.mp hx
              exact ⟨ha.1, ha.2⟩
      | updateUser id cond set =>
          rcases plan_update now e d id cond set with ⟨-, -, -, -, hwrites⟩ | ⟨hwrites, -⟩
          · rw [hwrites] at hx
            obtain rfl := List.mem_singleton.mp hx
            exact ha
          · rw [hwrites] at hx
            cases hx
      | _ =>
          simp only [plan, Plan.read, Plan.refuse] at hx
          (repeat' split at hx) <;> simp_all [Write.IsCanonical]
  | _ => exact hx.elim

theorem apply_canonical {d : Db} {x : Write} (hd : d.IsCanonical T) (hx : x.IsCanonical T) :
    (d.apply x).IsCanonical T := by
  cases x with
  | insertUser row =>
      show ∀ u ∈ ((d.users.insert row).getD d.users).rows, Accounts.IsCanonical T u
      cases hins : d.users.insert row with
      | none => exact hd
      | some t =>
          rw [Option.getD_some, (Table.insert_rows hins).1]
          intro u hu
          rcases List.mem_append.mp hu with hu | hu
          · exact hd u hu
          · rw [List.mem_singleton.mp hu]
            exact hx
  | updateUser id set now =>
      intro u hu
      obtain ⟨r, hr, rfl⟩ := List.mem_map.mp hu
      unfold patchUser
      split
      next =>
        refine ⟨(hd r hr).email, ?_⟩
        show isCanonicalUsername (set.username.getD r.username) = true
        cases hname : set.username with
        | none => exact (hd r hr).username
        | some name => exact hx name hname
      next => exact hd r hr
  | _ => exact hd

theorem foldl_canonical {ws : List Write} {d : Db} (hd : d.IsCanonical T)
    (h : ∀ x ∈ ws, x.IsCanonical T) : (ws.foldl Db.apply d).IsCanonical T := by
  induction ws generalizing d with
  | nil => exact hd
  | cons x ws ih =>
      refine ih (apply_canonical hd (h x List.mem_cons_self)) fun y hy => ?_
      exact h y (List.mem_cons_of_mem _ hy)

/-- Everything stored is canonical, everything pending too, and the columns are
unique. -/
structure Named (T : Text) (w : World) : Prop where
  keys : KeysUnique w.tables
  rows : w.db.IsCanonical T
  pending : ∀ p ws, w.tables.pending p = some ws → ∀ x ∈ ws, x.IsCanonical T

theorem Named.step {S : Settings} {w w' : World} {p : Pid} {β : Type} {a : Act β} {e : Env} {b : β}
    (h : Named T w) (ha : a.IsCanonical T) (hx : exec S p a e w = some (b, w')) : Named T w' := by
  have hstep := exec_step hx
  have hmay : ∀ x, a.May x → x.IsCanonical T := fun x hmay => plan_canonical ha hmay.planned
  refine ⟨h.keys.step hx, ?_, fun q ws hq => ?_⟩
  · obtain ⟨ws, hws, hall⟩ := hstep.committed_eq (h.pending p _) hmay
    show w'.tables.committed.IsCanonical T
    rw [hws]
    exact foldl_canonical h.rows hall
  · by_cases hqp : q = p
    · subst hqp
      exact hstep.pending_all (h.pending q _) hmay hq
    · rw [hstep.pending_of_ne hqp] at hq
      exact h.pending q ws hq

theorem Named.ambient {w w' : World} {e : Env} (h : Named T w)
    (hx : Accounts.ambient e w = some w') : Named T w' := by
  obtain ⟨hpending, -, husers, -⟩ := ambient_frame hx
  refine ⟨h.keys.ambient hx, ?_, ?_⟩
  · intro u hu
    rw [husers] at hu
    exact h.rows u hu
  · rw [hpending]
    exact h.pending

theorem Named.reboot {w w' : World} {e : Env} (h : Named T w)
    (hx : Accounts.reboot e w = some w') : Named T w' := by
  refine ⟨h.keys.reboot hx, ?_, ?_⟩
  · cases hx
    exact h.rows
  · cases hx
    nofun

end Steps

/-! ## §7. Lookups. -/

section Lookups

variable {T : Text} {w : World} {u v : User}

/-- The text is the e-mail or the name of the account. -/
def Matches (u : User) (text : String) : Prop := u.email = text ∨ u.username = text

/-- **A text matches at most one account.** -/
theorem Named.eq_of_matches (h : Named T w) (hu : u ∈ w.db.users.rows) (hv : v ∈ w.db.users.rows)
    {text : String} (hut : Matches u text) (hvt : Matches v text) : u = v := by
  have hunique : w.db.KeysUnique := h.keys.committed
  rcases hut with rfl | rfl
  · rcases hvt with hvt | hvt
    · refine hunique.eq_of_mem hu hv (email_mem_keysOf u) ?_
      rw [← hvt]
      exact email_mem_keysOf v
    · exact absurd hvt.symm ((h.rows u hu).email_ne_username (h.rows v hv))
  · rcases hvt with hvt | hvt
    · exact absurd hvt ((h.rows v hv).email_ne_username (h.rows u hu))
    · refine hunique.eq_of_mem hu hv (username_mem_keysOf u) ?_
      rw [← hvt]
      exact username_mem_keysOf v

/-- What one statement of call `p` comes to in the world `w`. -/
def askedAlone (S : Settings) (p : Pid) (e : Env) (w : World) {α : Type} (c : Call α) :
    Option (Except Exn α) :=
  (System.alone (fun a e w => exec S p a e w) (fun _ => ()) c [e] w).map fun out => out.result

/-- `LIMIT 1` has no choice where every match is the same row. -/
theorem pickRow_eq {rows : List User} {cond : User → Bool} (n : Nat) (hu : u ∈ rows)
    (hcond : cond u = true) (hother : ∀ v ∈ rows, cond v = true → v = u) :
    pickRow n (rows.filter cond) = some u := by
  have hmem : u ∈ rows.filter cond := List.mem_filter.mpr ⟨hu, hcond⟩
  have hlt : n % (rows.filter cond).length < (rows.filter cond).length :=
    Nat.mod_lt _ (List.length_pos_of_mem hmem)
  unfold pickRow
  rw [List.getElem?_eq_getElem hlt, Option.some.injEq]
  obtain ⟨hv, hcondv⟩ := List.mem_filter.mp (List.getElem_mem hlt)
  exact hother _ hv hcondv

/-- `findByIdentifier` finds the account that the text belongs to. -/
theorem Named.findByIdentifier_eq (h : Named T w) (hu : u ∈ w.db.users.rows) {text : String}
    (hut : Matches u text) (S : Settings) {p : Pid} (hp : w.tables.pending p = none) {e : Env}
    (he : e.fails = false) : askedAlone S p e w (findByIdentifier text) = some (.ok (some u)) := by
  have hview : w.view p = w.db := Store.view_of_none hp
  have hpick : pickRow e.pick (w.db.users.rows.filter fun u =>
      u.email == text || u.username == text) = some u := by
    refine pickRow_eq e.pick hu ?_ fun v hv hvt => ?_
    · simpa [Matches] using hut
    · exact h.eq_of_matches hv hu (by simpa [Matches] using hvt) hut
  have hx : exec S p (.query (.findUser fun u => u.email == text || u.username == text)) e w =
      some (.ok (some u), w) := by
    simp only [exec, he, plan, Plan.read, hview, hpick]
    simp [Store.run, Store.put_of_none hp]
  unfold askedAlone findByIdentifier query orThrow perform
  show (((exec S p _ e w).bind _).map _) = _
  rw [hx]
  rfl

end Lookups

/-! ## §8. Every run. -/

/-- The runs whose `n`-th request has the body `bodies n`; Google's e-mails
contain an `@`. -/
def piped (V : Validators) (T : Text) (bodies : Nat → Body) : Watch Act World Env Op Nat where
  accepts := fun n _ _ op => op.isPiped V T (bodies n)
  guard := fun _ _ _ _ _ a e =>
    match a with
    | .verifyIdToken _ _ => e.payload.all fun payload => payload.email.all fun email =>
        email.toList.contains '@'
    | _ => true
  onInvoke := fun n _ _ _ => n + 1

/-- The guard of a run is what the monitor assumes. -/
theorem isAnswer_of_exec {S : Settings} {V : Validators} {T : Text} {bodies : Nat → Body} {n : Nat}
    {w w' : World} {p : Pid} {op : Op} {β : Type} {a : Act β} {e : Env} {b : β}
    (hg : (piped V T bodies).guard n w p op a e = true) (hx : exec S p a e w = some (b, w')) :
    IsAnswer a b := by
  cases a with
  | verifyIdToken idToken audience =>
      cases hx
      intro payload email hpayload hemail
      simp only [piped] at hg
      rw [hpayload, Option.all_some, hemail, Option.all_some] at hg
      exact List.contains_iff_mem.mp hg
  | randomInt min max =>
      simp only [exec] at hx
      split at hx
      next hrange =>
        cases hx
        exact hrange.2
      next => cases hx
  | _ => trivial

theorem named_run {S : Settings} {V : Validators} (hdoc : Documented V S.toText)
    {bodies : Nat → Body} {w₀ : World} (hquiet : w₀.tables = Store.quiet w₀.db)
    (hempty : w₀.db.users = Table.empty) {c : Conf} {n : Nat}
    (h : (system S).Reach (piped V S.toText bodies) (Config.init w₀) 0 c n) :
    Named S.toText c.world := by
  have hunique : w₀.db.KeysUnique := by
    rintro k u v ⟨r, hr, -⟩
    rw [hempty] at hr
    cases hr
  have hstart : Named S.toText w₀ := by
    refine ⟨.of_quiet hquiet hunique, fun u hu => ?_, fun p ws hp => ?_⟩
    · rw [hempty] at hu
      cases hu
    · rw [hquiet] at hp
      cases hp
  obtain ⟨-, hI, -⟩ := System.Reach.sound (M := fun _ => naming S.toText)
    (Q := fun _ _ _ => True) (E := fun _ => AnyThrow) (fun _ => ())
    (fun w _ _ => Named S.toText w) (fun ha => body_canonical hdoc ha) (fun hI (_ : _ = ()) _ => hI)
    (fun hI ha hg hx => ⟨(), isAnswer_of_exec hg hx, hI.step ha hx⟩)
    (fun hI hx => hI.ambient hx) (fun {_ _ _ e _} _ hI hx _ _ => hI.reboot (e := e) hx) hstart h
  exact hI

/-- **Identifiers are canonical and unambiguous.**  In every table of users that
is reached from an empty one, whatever the calls and their order: every name is
in `[a-z0-9_]{3,32}` and every e-mail its own normal form; no text matches two
accounts; and an identifier that the login pipe lets through, and whose normal
form is the e-mail or the name of an account, makes `findByIdentifier` find
exactly this account. -/
theorem identifiers_unambiguous (S : Settings) (V : Validators) (hdoc : Documented V S.toText)
    (bodies : Nat → Body) (w₀ : World) (hquiet : w₀.tables = Store.quiet w₀.db)
    (hempty : w₀.db.users = Table.empty) (c : Conf) (n : Nat)
    (h : (system S).Reach (piped V S.toText bodies) (Config.init w₀) 0 c n) :
    (∀ u ∈ c.world.db.users.rows, isCanonicalUsername u.username = true ∧
      canonical S.toText u.email = u.email) ∧
    (∀ text, ∀ u ∈ c.world.db.users.rows, ∀ v ∈ c.world.db.users.rows,
      Matches u text → Matches v text → u = v) ∧
    ∀ u ∈ c.world.db.users.rows, ∀ (b : Body) (value : String) (dto : LoginUserDto),
      b.identifier = .text value → loginUserDto V S.toText b = some dto →
      Matches u (canonical S.toText value) →
      ∀ (p : Pid) (e : Env), c.world.tables.pending p = none → e.fails = false →
        askedAlone S p e c.world (findByIdentifier dto.identifier) = some (.ok (some u)) := by
  have hnamed := named_run hdoc hquiet hempty h
  refine ⟨fun u hu => ⟨(hnamed.rows u hu).username, (hnamed.rows u hu).email.normal⟩, ?_, ?_⟩
  · intro text u hu v hv hut hvt
    exact hnamed.eq_of_matches hu hv hut hvt
  · intro u hu b value dto hvalue hdto hmatch p e hp he
    obtain ⟨value', hvalue', hidentifier⟩ := identifier_of_loginUserDto hdto
    rw [hvalue] at hvalue'
    cases hvalue'
    rw [hidentifier]
    exact hnamed.findByIdentifier_eq hu hmatch S hp he

/-! ## §9. Texts in ASCII. -/

/-- `trim` on ASCII. -/
def asciiTrim (value : String) : String :=
  String.ofList ((value.toList.dropWhile Char.isWhitespace).rdropWhile Char.isWhitespace)

/-- `toLowerCase` on ASCII. -/
def asciiLowerCase (value : String) : String := String.ofList (value.toList.map Char.toLower)

/-- The installation, with the text functions of ASCII. -/
def asciiSettings : Settings :=
  { sampleSettings with trim := asciiTrim, toLowerCase := asciiLowerCase }

/-- Validators for the texts of the concrete run. -/
def asciiValidators : Validators where
  isEmail := fun value => value.toList.contains '@'
  length := String.length

/-- The 26 capital letters. -/
theorem toLower_of_isUpper {c : Char} (h : c.isUpper = true) :
    c.toLower.isUpper = false ∧ c.toLower.isWhitespace = c.isWhitespace := by
  have hletters : ∀ n ∈ List.range' 65 26, (Char.ofNat n).toLower.isUpper = false ∧
      (Char.ofNat n).toLower.isWhitespace = (Char.ofNat n).isWhitespace := by decide
  have hrange : c.toNat ∈ List.range' 65 26 := by
    rw [show c.isUpper = decide (c.val ≥ 'A'.val ∧ c.val ≤ 'Z'.val) from rfl] at h
    simp only [decide_eq_true_eq, UInt32.le_iff_toNat_le, ge_iff_le] at h
    have hval : c.toNat = c.val.toNat := rfl
    have hfirst : 'A'.val.toNat = 65 := rfl
    have hlast : 'Z'.val.toNat = 90 := rfl
    rw [List.mem_range'_1]
    omega
  have hletter := hletters c.toNat hrange
  rwa [Char.ofNat_toNat] at hletter

theorem toLower_of_not_isUpper {c : Char} (h : c.isUpper = false) : c.toLower = c := by
  rw [show c.isUpper = decide (c.val ≥ 'A'.val ∧ c.val ≤ 'Z'.val) from rfl] at h
  simp only [decide_eq_false_iff_not] at h
  unfold Char.toLower
  rw [dif_neg h]

theorem isUpper_toLower (c : Char) : c.toLower.isUpper = false := by
  cases h : c.isUpper with
  | true => exact (toLower_of_isUpper h).1
  | false => rw [toLower_of_not_isUpper h, h]

theorem isWhitespace_toLower (c : Char) : c.toLower.isWhitespace = c.isWhitespace := by
  cases h : c.isUpper with
  | true => exact (toLower_of_isUpper h).2
  | false => rw [toLower_of_not_isUpper h]

/-- Trimmed twice is trimmed once. -/
theorem dropWhile_rdropWhile {α : Type} (p : α → Bool) (l : List α) :
    ((l.dropWhile p).rdropWhile p).dropWhile p = (l.dropWhile p).rdropWhile p := by
  rw [List.dropWhile_eq_self_iff]
  intro hpos
  have hprefix := List.rdropWhile_prefix p (l.dropWhile p)
  rw [ hprefix.getElem hpos]
  exact List.dropWhile_get_zero_not p l (Nat.lt_of_lt_of_le hpos hprefix.length_le)

theorem asciiSettings_documented : Documented asciiValidators asciiSettings.toText where
  isEmail := fun value h => List.contains_iff_mem.mp h
  length := fun _ _ => rfl
  idempotent := by
    intro value
    have hws : Char.isWhitespace ∘ Char.toLower = Char.isWhitespace := funext isWhitespace_toLower
    have hlower : Char.toLower ∘ Char.toLower = Char.toLower :=
      funext fun c => toLower_of_not_isUpper (isUpper_toLower c)
    -- lower case commutes with trimming, and both are idempotent
    have htrim : ∀ l : List Char, ((l.map Char.toLower).dropWhile Char.isWhitespace).rdropWhile
        Char.isWhitespace =
          ((l.dropWhile Char.isWhitespace).rdropWhile Char.isWhitespace).map Char.toLower := by
      intro l
      unfold List.rdropWhile
      rw [List.dropWhile_map, ← List.map_reverse, List.dropWhile_map, hws, List.map_reverse]
    show asciiLowerCase (asciiTrim (asciiLowerCase (asciiTrim value))) =
      asciiLowerCase (asciiTrim value)
    unfold asciiLowerCase asciiTrim
    simp only [String.toList_ofList]
    rw [htrim, List.map_map, hlower, dropWhile_rdropWhile, List.rdropWhile_idempotent]
  toLowerCase := by
    intro value c hc
    change c ∈ (String.ofList (value.toList.map Char.toLower)).toList at hc
    rw [String.toList_ofList] at hc
    obtain ⟨c', -, rfl⟩ := List.mem_map.mp hc
    exact isUpper_toLower c'
  keeps_at := by
    intro value hat
    have hdrop : ∀ {l : List Char}, '@' ∈ l → '@' ∈ l.dropWhile Char.isWhitespace := by
      intro l hl
      rw [← List.takeWhile_append_dropWhile (p := Char.isWhitespace) (l := l)] at hl
      rcases List.mem_append.mp hl with htake | hrest
      · exact absurd (List.mem_takeWhile_imp htake) (by decide)
      · exact hrest
    have htrimmed : '@' ∈ (value.toList.dropWhile Char.isWhitespace).rdropWhile
        Char.isWhitespace := by
      unfold List.rdropWhile
      rw [List.mem_reverse]
      exact hdrop (List.mem_reverse.mpr (hdrop hat))
    show '@' ∈ (asciiLowerCase (asciiTrim value)).toList
    unfold asciiLowerCase asciiTrim
    rw [String.toList_ofList, String.toList_ofList]
    exact List.mem_map.mpr ⟨'@', htrimmed, rfl⟩

/-- A registration with blanks and capitals. -/
def signUpBody : Body where
  email := .text " Steve@Example.com"
  username := .text "Steve_1 "
  password := .text "old-password"

/-- The registration, step by step. -/
def signUpRun : List (Event Env Op) :=
  [.invoke 0 (.register "steve@example.com" "steve_1" "old-password"),
   .step 0 {}, .step 0 { text := "$2b$10$abcdefghijklmnopqrstuu" }, .step 0 { uuid := 7 }]

/-- An installation without accounts. -/
def emptyWorld : World := World.boot { sampleDb with users := Table.empty } 1700000000000

/-- A login with the name in capitals. -/
def signInBody : Body where
  identifier := .text "STEVE_1"
  password := .text "old-password"

/-- The new account is canonical, and found by its name in capitals. -/
theorem signUpRun_found :
    ∃ c n, (system asciiSettings).Reach (piped asciiValidators asciiSettings.toText
        fun _ => signUpBody) (Config.init emptyWorld) 0 c n ∧
      ∃ u ∈ c.world.db.users.rows, isCanonicalUsername u.username = true ∧
        askedAlone asciiSettings 1 {} c.world (findByIdentifier "steve_1") =
          some (.ok (some u)) := by
  obtain ⟨c, n, h, ht⟩ := System.Reach.of_replay (S := system asciiSettings)
    (V := piped asciiValidators asciiSettings.toText fun _ => signUpBody) emptyWorld 0 signUpRun
    (fun c _ => c.world.db.users.rows.any (fun u => u.username == "steve_1") &&
      (c.world.tables.pending 1).isNone)
    (by decide +kernel)
  rw [Bool.and_eq_true_iff, List.any_eq_true] at ht
  obtain ⟨⟨u, hu, hname⟩, hpending⟩ := ht
  obtain ⟨hcanonical, -, hfound⟩ := identifiers_unambiguous asciiSettings asciiValidators
    asciiSettings_documented (fun _ => signUpBody) emptyWorld rfl rfl c n h
  refine ⟨c, n, h, u, hu, (hcanonical u hu).1, ?_⟩
  have hlower : canonical asciiSettings.toText "STEVE_1" = "steve_1" := by decide +kernel
  refine hfound u hu signInBody "STEVE_1" ⟨"steve_1", "old-password"⟩ rfl (by decide +kernel) ?_
    1 {} (by simpa using hpending) rfl
  rw [hlower]
  exact Or.inr (by simpa using hname)

end MinePanel.Accounts
