/-
  MinePanel.Auth.RefreshTokenTtl
  ──────────────────────────────
  **THE LIFETIME OF A SESSION** (`src/auth/refresh-token-ttl.ts`).

  `JWT_REFRESH_EXPIRES_IN` is read once, at boot: an amount and a unit, matched
  by a pattern that ignores case the Unicode way and computed with doubles.

    * `parseRefreshTokenTtl` — the parser;
    * `Duration` — what it should accept, and what as;
    * `parseRefreshTokenTtl_exact` — **it accepts exactly that**;
    * `accepted_usable_iff` — which accepted values give a session that can be
      used.
-/
import MinePanel.Lib.Double
import MinePanel.Lib.Text
import MinePanel.Accounts.System
import Mathlib.Data.List.Induction

namespace MinePanel.Accounts

open MinePanel.Db MinePanel.Lib MinePanel.Lib.Text

/-! ## §1. Text. -/

/-- `Canonicalize` of a pattern with the flags `iu`: simple case folding.  Two
characters beyond ASCII fold to an ASCII letter, U+017F and U+212A; what the
others fold to is beyond ASCII and meets no letter of our pattern. -/
def canonicalize (c : Char) : Char :=
  if c.isUpper then c.toLower
  else if c.toNat = 0x17F then 's'
  else if c.toNat = 0x212A then 'k'
  else c

/-! ## §2. The parser. -/

/-- `DurationUnit`. -/
inductive DurationUnit where
  | ms | s | m | h | d | w
  deriving Repr, DecidableEq

namespace DurationUnit

/-- The key of `DURATION_UNITS_MS`. -/
def text : DurationUnit → String
  | ms => "ms" | s => "s" | m => "m" | h => "h" | d => "d" | w => "w"

/-- The value in `DURATION_UNITS_MS`. -/
def milliseconds : DurationUnit → Nat
  | ms => 1 | s => 1000 | m => 60000 | h => 3600000 | d => 86400000 | w => 604800000

/-- The alternatives of the pattern, in its order. -/
def all : List DurationUnit := [ms, s, m, h, d, w]

end DurationUnit

/-- `DURATION_UNITS_MS[unit]`, as a factor: `undefined` becomes NaN. -/
def durationUnitMs (unit : List Char) : Whole :=
  match DurationUnit.all.find? fun u => u.text.toList == unit with
  | some u => .nat u.milliseconds
  | none => .nan

/-- `DURATION_PATTERN.exec`: the groups `amount` and `unit`.  No unit starts with
a digit, so the amount is the longest run of digits. -/
def durationPattern (cs : List Char) : Option (List Char × List Char) :=
  let amount := cs.takeWhile Char.isDigit
  let unit := cs.dropWhile Char.isDigit
  if (amount.head?.any fun c => c != '0') &&
      DurationUnit.all.any fun u => unit.map canonicalize == u.text.toList then
    some (amount, unit)
  else none

/-- `RefreshTokenTtl`. -/
structure RefreshTokenTtl where
  expiresIn : String
  milliseconds : Nat
  deriving Repr, DecidableEq

/-- `DEFAULT_REFRESH_TOKEN_TTL`. -/
def defaultRefreshTokenTtl : String := "7d"

/-- What an invalid value throws. -/
def invalidRefreshTokenTtl : String := "Invalid JWT_REFRESH_EXPIRES_IN"

/-- The lifetime of an amount and a unit, where both numbers are safe integers. -/
def measure (amountText unitText : List Char) : Option RefreshTokenTtl := do
  let amount := Whole.ofNat (Nat.ofDigitChars 10 amountText 0)
  -- on the letters the pattern lets through `toLowerCase` is that of ASCII: U+017F stays
  let unit := unitText.map Char.toLower
  let milliseconds := amount.mul (durationUnitMs unit)
  let amount ← amount.safe?
  let milliseconds ← milliseconds.safe?
  return { expiresIn := toString amount ++ String.ofList unit, milliseconds := milliseconds }

/-- The lifetime that a text stands for; `none` where the code throws. -/
def readDuration (resolved : List Char) : Option RefreshTokenTtl := do
  if resolved.length = 0 ∨ resolved ≠ trimmed resolved then none
  let (amountText, unitText) ← durationPattern resolved
  measure amountText unitText

/-- `parseRefreshTokenTtl`. -/
def parseRefreshTokenTtl (value : Option String) : Except String RefreshTokenTtl :=
  match readDuration (value.getD defaultRefreshTokenTtl).toList with
  | some ttl => .ok ttl
  | none => .error invalidRefreshTokenTtl

/-! ## §3. What it should accept. -/

/-- The value is a positive amount, in decimal, and a unit in any case, with a
product that is a safe integer; `ttl` is this product. -/
def Duration (value : String) (ttl : RefreshTokenTtl) : Prop :=
  ∃ (amount : Nat) (unit : DurationUnit) (suffix : List Char), 0 < amount ∧
    value.toList = (toString amount).toList ++ suffix ∧
    suffix.map Char.toLower = unit.text.toList ∧
    amount * unit.milliseconds ≤ 2 ^ 53 - 1 ∧
    ttl = ⟨toString amount ++ unit.text, amount * unit.milliseconds⟩

section Digits

/-- A digit is the digit of its value. -/
theorem digitChar_of_isDigit {c : Char} (h : c.isDigit = true) :
    c.toNat - '0'.toNat < 10 ∧ (c.toNat - '0'.toNat).digitChar = c := by
  have hrange : 48 ≤ c.toNat ∧ c.toNat ≤ 57 := by
    simpa [Char.isDigit, Char.le_def, UInt32.le_iff_toNat_le] using h
  have hall : ∀ n < 10, (n.digitChar).toNat = n + 48 := by decide
  have hlt : c.toNat - 48 < 10 := by omega
  have hzero : '0'.toNat = 48 := rfl
  rw [hzero]
  refine ⟨hlt, Char.toNat_inj.mp ?_⟩
  rw [hall _ hlt]
  omega

/-- **Decimal round trip**: digits without a leading zero are the decimal of
their value. -/
theorem toDigits_ofDigitChars {c : Char} {cs : List Char} (hc : c ≠ '0')
    (h : ∀ x ∈ c :: cs, x.isDigit = true) :
    0 < Nat.ofDigitChars 10 (c :: cs) 0 ∧
      Nat.toDigits 10 (Nat.ofDigitChars 10 (c :: cs) 0) = c :: cs := by
  -- on the digits from the right: the last one is the remainder by ten
  induction cs using List.reverseRecOn with
  | nil =>
      obtain ⟨hlt, hchar⟩ := digitChar_of_isDigit (h c List.mem_cons_self)
      have hvalue : Nat.ofDigitChars 10 [c] 0 = c.toNat - '0'.toNat := by
        rw [Nat.ofDigitChars_cons, Nat.ofDigitChars_nil, Nat.mul_zero, Nat.zero_add]
      rw [hvalue, Nat.toDigits_of_lt_base hlt, hchar]
      refine ⟨Nat.pos_of_ne_zero fun hzero => hc ?_, rfl⟩
      rw [← hchar, hzero]
      rfl
  | append_singleton cs x ih =>
      have hcs : ∀ y ∈ c :: cs, y.isDigit = true := by
        intro y hy
        refine h y ?_
        rcases List.mem_cons.mp hy with rfl | hy
        · exact List.mem_cons_self
        · exact List.mem_cons_of_mem _ (List.mem_append_left _ hy)
      obtain ⟨hpos, hdigits⟩ := ih hcs
      obtain ⟨hlt, hchar⟩ := digitChar_of_isDigit (h x (by simp))
      have hvalue : Nat.ofDigitChars 10 (c :: (cs ++ [x])) 0 =
          10 * Nat.ofDigitChars 10 (c :: cs) 0 + (x.toNat - '0'.toNat) := by
        rw [← List.cons_append, Nat.ofDigitChars_append, Nat.ofDigitChars_cons,
          Nat.ofDigitChars_nil]
      rw [hvalue, ← Nat.toDigits_append_toDigits (by decide) hpos hlt, hdigits,
        Nat.toDigits_of_lt_base hlt, hchar]
      exact ⟨by omega, rfl⟩

/-- A positive number starts with a digit other than zero. -/
theorem toDigits_head {n : Nat} (hn : 0 < n) :
    ∃ c cs, Nat.toDigits 10 n = c :: cs ∧ c ≠ '0' ∧ ∀ x ∈ c :: cs, x.isDigit = true := by
  have hdigits : ∀ x ∈ Nat.toDigits 10 n, x.isDigit = true :=
    fun x hx => Nat.isDigit_of_mem_toDigits (by decide) (by decide) hx
  induction n using Nat.strong_induction_on with
  | _ n ih =>
      by_cases hlt : n < 10
      · rw [Nat.toDigits_of_lt_base hlt] at hdigits ⊢
        refine ⟨n.digitChar, [], rfl, ?_, hdigits⟩
        rw [ne_eq, Nat.digitChar_eq_zero]
        omega
      · have hle : 10 ≤ n := Nat.not_lt.mp hlt
        have hquot : 0 < n / 10 := Nat.div_pos hle (by decide)
        obtain ⟨c, cs, heq, hc, -⟩ := ih (n / 10) (Nat.div_lt_self hn (by decide)) hquot
          fun x hx => Nat.isDigit_of_mem_toDigits (by decide) (by decide) hx
        rw [Nat.toDigits_of_base_le (by decide) hle, heq] at hdigits ⊢
        exact ⟨c, cs ++ [(n % 10).digitChar], rfl, hc, hdigits⟩

end Digits

section Units

theorem isUpper_eq (c : Char) : c.isUpper = decide (c.val ≥ 'A'.val ∧ c.val ≤ 'Z'.val) := rfl

/-- A letter of a unit, in either case. -/
theorem unitLetter {c : Char} (h : c.toLower ∈ ['m', 's', 'h', 'd', 'w']) :
    c.isDigit = false ∧ isWhiteSpace c = false ∧ canonicalize c = c.toLower := by
  by_cases hupper : c.isUpper = true
  · have hrange : 65 ≤ c.toNat ∧ c.toNat ≤ 90 := by
      simpa [isUpper_eq, UInt32.le_iff_toNat_le] using hupper
    refine ⟨?_, ?_, if_pos hupper⟩
    · by_contra hdigit
      have hdigits : 48 ≤ c.toNat ∧ c.toNat ≤ 57 := by
        simpa [Char.isDigit, UInt32.le_iff_toNat_le] using hdigit
      omega
    · exact not_whiteSpace (by omega) (by omega)
  · have hlower : c.toLower = c := by
      unfold Char.toLower
      rw [dif_neg]
      simpa [isUpper_eq, UInt32.le_iff_toNat_le] using hupper
    rw [hlower] at h ⊢
    simp only [List.mem_cons, List.not_mem_nil, or_false] at h
    rcases h with rfl | rfl | rfl | rfl | rfl <;> decide

/-- The unit of a suffix, read back. -/
theorem durationUnitMs_text (u : DurationUnit) : durationUnitMs u.text.toList = .nat u.milliseconds := by
  cases u <;> decide

theorem durationUnitMs_eq {unit : List Char} {k : Nat} (h : durationUnitMs unit = .nat k) :
    ∃ u : DurationUnit, u.text.toList = unit ∧ u.milliseconds = k := by
  unfold durationUnitMs at h
  split at h
  next u hfound =>
    cases h
    exact ⟨u, by simpa using List.find?_some hfound, rfl⟩
  next => cases h

theorem durationUnitMs_ne_infinity (unit : List Char) : durationUnitMs unit ≠ .infinity := by
  unfold durationUnitMs
  split <;> exact Whole.noConfusion

end Units

/-! ## §4. Exactness. -/

/-- `measure` computes the exact product, as long as it is a safe integer. -/
theorem measure_eq_some {amountText unitText : List Char} {ttl : RefreshTokenTtl} :
    measure amountText unitText = some ttl ↔ ∃ u : DurationUnit,
      unitText.map Char.toLower = u.text.toList ∧
      Nat.ofDigitChars 10 amountText 0 * u.milliseconds ≤ Whole.maxSafe ∧
      ttl = ⟨toString (Nat.ofDigitChars 10 amountText 0) ++ u.text,
        Nat.ofDigitChars 10 amountText 0 * u.milliseconds⟩ := by
  unfold measure
  constructor
  · intro h
    obtain ⟨amount, hamount, h⟩ := Option.bind_eq_some_iff.mp h
    obtain ⟨milliseconds, hproduct, h⟩ := Option.bind_eq_some_iff.mp h
    cases h
    rw [Whole.safe_ofNat] at hamount
    split at hamount
    next hle =>
      cases hamount
      rw [Whole.ofNat_of_le hle] at hproduct
      cases hunit : durationUnitMs (unitText.map Char.toLower) with
      | nat k =>
          rw [hunit, Whole.safe_mul] at hproduct
          obtain ⟨u, htext, rfl⟩ := durationUnitMs_eq hunit
          split at hproduct
          next hmax =>
            cases hproduct
            refine ⟨u, htext.symm, hmax, ?_⟩
            rw [← htext, String.ofList_toList]
          next => cases hproduct
      | nan =>
          rw [hunit] at hproduct
          cases hproduct
      | infinity => exact absurd hunit (durationUnitMs_ne_infinity _)
    next => cases hamount
  · rintro ⟨u, htext, hmax, rfl⟩
    have hunit : 0 < u.milliseconds := by cases u <;> decide
    have hamount : Nat.ofDigitChars 10 amountText 0 ≤ Whole.maxSafe :=
      Nat.le_trans (Nat.le_mul_of_pos_right _ hunit) hmax
    refine Option.bind_eq_some_iff.mpr ⟨Nat.ofDigitChars 10 amountText 0, ?_, ?_⟩
    · rw [Whole.safe_ofNat, if_pos hamount]
    · refine Option.bind_eq_some_iff.mpr
        ⟨Nat.ofDigitChars 10 amountText 0 * u.milliseconds, ?_, ?_⟩
      · rw [htext, durationUnitMs_text, Whole.ofNat_of_le hamount, Whole.safe_mul, if_pos hmax]
      · rw [htext, String.ofList_toList]
        rfl

/-- What is accepted is a duration. -/
theorem duration_of_read {value : String} {ttl : RefreshTokenTtl}
    (h : readDuration value.toList = some ttl) : Duration value ttl := by
  unfold readDuration at h
  split at h
  next => cases h
  next =>
    obtain ⟨⟨amountText, unitText⟩, hpattern, hmeasure⟩ := Option.bind_eq_some_iff.mp h
    simp only [durationPattern] at hpattern
    split at hpattern
    next hmatch =>
      cases hpattern
      rw [Bool.and_eq_true] at hmatch
      -- the amount starts with a digit other than zero
      obtain ⟨c, cs, hamount, hc⟩ : ∃ c cs, value.toList.takeWhile Char.isDigit = c :: cs ∧
          c ≠ '0' := by
        cases hcs : value.toList.takeWhile Char.isDigit with
        | nil =>
            rw [hcs] at hmatch
            cases hmatch.1
        | cons c cs =>
            rw [hcs] at hmatch
            exact ⟨c, cs, rfl, by simpa using hmatch.1⟩
      have hdigits : ∀ x ∈ c :: cs, x.isDigit = true := by
        intro x hx
        rw [← hamount] at hx
        exact List.all_eq_true.mp List.all_takeWhile x hx
      obtain ⟨hpos, hdecimal⟩ := toDigits_ofDigitChars hc hdigits
      rw [hamount] at hmeasure
      obtain ⟨u, htext, hmax, rfl⟩ := measure_eq_some.mp hmeasure
      refine ⟨_, u, value.toList.dropWhile Char.isDigit, hpos, ?_, htext, hmax, rfl⟩
      rw [Nat.toString_eq_repr, Nat.toList_repr, hdecimal, ← hamount,
        List.takeWhile_append_dropWhile]
    next => cases hpattern

/-- A duration is accepted. -/
theorem read_of_duration {value : String} {ttl : RefreshTokenTtl} (h : Duration value ttl) :
    readDuration value.toList = some ttl := by
  obtain ⟨amount, unit, suffix, hpos, hvalue, hsuffix, hmax, rfl⟩ := h
  obtain ⟨c, cs, hdecimal, hc, hdigits⟩ := toDigits_head hpos
  rw [Nat.toString_eq_repr, Nat.toList_repr, hdecimal] at hvalue
  -- every letter of the suffix is one of a unit
  have hletters : ∀ x ∈ suffix, x.isDigit = false ∧ isWhiteSpace x = false ∧
      canonicalize x = x.toLower := by
    intro x hx
    refine unitLetter ?_
    have hmem : x.toLower ∈ unit.text.toList := by
      rw [← hsuffix]
      exact List.mem_map_of_mem hx
    have hall : ∀ u : DurationUnit,
        u.text.toList.all (fun y => decide (y ∈ ['m', 's', 'h', 'd', 'w'])) = true := by
      intro u
      cases u <;> decide
    exact of_decide_eq_true (List.all_eq_true.mp (hall unit) _ hmem)
  have hcanonical : suffix.map canonicalize = unit.text.toList := by
    rw [← hsuffix]
    exact List.map_congr_left fun x hx => (hletters x hx).2.2
  have hne : suffix ≠ [] := by
    rintro rfl
    have hempty : ∀ u : DurationUnit, u.text.toList ≠ [] := by
      intro u
      cases u <;> decide
    exact hempty unit hsuffix.symm
  have htake : value.toList.takeWhile Char.isDigit = c :: cs ∧
      value.toList.dropWhile Char.isDigit = suffix := by
    rw [hvalue]
    cases suffix with
    | nil => exact absurd rfl hne
    | cons x xs =>
        have hx : x.isDigit = false := (hletters x List.mem_cons_self).1
        constructor
        · rw [List.takeWhile_append_of_pos hdigits, List.takeWhile_cons_of_neg (by simp [hx]),
            List.append_nil]
        · rw [List.dropWhile_append_of_pos hdigits, List.dropWhile_cons_of_neg (by simp [hx])]
  have htrim : trimmed value.toList = value.toList := by
    obtain ⟨mid, z, hz⟩ : ∃ mid z, suffix = mid ++ [z] :=
      ⟨suffix.dropLast, suffix.getLast hne, (List.dropLast_append_getLast hne).symm⟩
    have hspace : ∀ x : Char, x.isDigit = true → isWhiteSpace x = false := by
      intro x hx
      obtain ⟨hlt, hchar⟩ := digitChar_of_isDigit hx
      have hten : ∀ n < 10, isWhiteSpace n.digitChar = false := by decide
      rw [← hchar]
      exact hten _ hlt
    rw [hvalue]
    refine trimmed_of_ends (fun x hx => ?_) fun x hx => ?_
    · obtain rfl : c = x := by simpa using hx
      exact hspace c (hdigits c List.mem_cons_self)
    · rw [hz, ← List.append_assoc, List.getLast?_concat] at hx
      obtain rfl : z = x := Option.some.inj hx
      exact (hletters z (by simp [hz])).2.1
  have hpattern : durationPattern value.toList = some (c :: cs, suffix) := by
    unfold durationPattern
    rw [htake.1, htake.2]
    refine if_pos ?_
    rw [Bool.and_eq_true]
    refine ⟨by simpa using hc, List.any_eq_true.mpr ⟨unit, ?_, by simp [hcanonical]⟩⟩
    cases unit <;> decide
  have hread : Nat.ofDigitChars 10 (c :: cs) 0 = amount := by
    rw [← hdecimal]
    exact Nat.ofDigitChars_ten_toDigits
  have hguard : ¬ (value.toList.length = 0 ∨ value.toList ≠ trimmed value.toList) := by
    rw [htrim, hvalue]
    simp
  unfold readDuration
  rw [if_neg hguard]
  refine Option.bind_eq_some_iff.mpr ⟨(c :: cs, suffix), hpattern, measure_eq_some.mpr ?_⟩
  rw [hread]
  exact ⟨unit, hsuffix, hmax, rfl⟩

/-- **The parser is exact**: it accepts the durations, each as its product, and
rejects every other text with the one error. -/
theorem parseRefreshTokenTtl_exact (value : String) :
    (∀ ttl, parseRefreshTokenTtl (some value) = .ok ttl ↔ Duration value ttl) ∧
      (parseRefreshTokenTtl (some value) = .error invalidRefreshTokenTtl ↔
        ∀ ttl, ¬ Duration value ttl) := by
  unfold parseRefreshTokenTtl
  rw [Option.getD_some]
  cases hread : readDuration value.toList with
  | some ttl =>
      have hduration := duration_of_read hread
      refine ⟨fun ttl' => ⟨fun h => ?_, fun h => ?_⟩, fun h => (nomatch h), fun h => ?_⟩
      · cases h
        exact hduration
      · rw [Option.some.inj (hread.symm.trans (read_of_duration h))]
      · exact absurd hduration (h ttl)
  | none =>
      have hnone : ∀ ttl, ¬ Duration value ttl := by
        intro ttl hduration
        rw [read_of_duration hduration] at hread
        cases hread
      exact ⟨fun ttl => ⟨fun h => (nomatch h), fun h => absurd h (hnone ttl)⟩, fun _ => hnone,
        fun _ => rfl⟩

example : parseRefreshTokenTtl (some "7D") = .ok ⟨"7d", 604800000⟩ := by decide +kernel

-- the pattern lets the long s through, the table of units does not
example : durationPattern "7ſ".toList = some (['7'], ['ſ']) ∧
    parseRefreshTokenTtl (some "7ſ") = .error invalidRefreshTokenTtl := by decide +kernel

/-! ## §5. Sessions of an accepted lifetime. -/

/-- The last time a JavaScript `Date` has. -/
def maxDateMs : Nat := 8640000000000000

/-- The refresh token and its row, built at `now`, can be used: the guard takes
the claims, the token does not expire in the second it was issued, the row has
a date, and the two expiries agree up to two seconds. -/
structure Usable (now : Timestamp) (issued : IssuedRefreshToken) : Prop where
  claims : (validRefreshTokenClaims issued.refreshToken).isSome = true
  lasts : now / 1000 < issued.refreshToken.exp
  date : issued.row.expiresAt ≤ maxDateMs
  close : issued.row.expiresAt < issued.refreshToken.exp * 1000 + 2000 ∧
    issued.refreshToken.exp * 1000 < issued.row.expiresAt + 2000

/-- The settings with the lifetime `ttl`. -/
def Settings.withTtl (S : Settings) (ttl : RefreshTokenTtl) : Settings :=
  { S with refreshTtl := ttl.milliseconds }

/-- What `buildIssuedRefreshToken` comes to in a world, where no time passes. -/
def issuedAt (S : Settings) (ttl : RefreshTokenTtl) (p : Pid) (w : World) (userId : UserId)
    (refreshClaims : RefreshTokenSigningClaims) : Option (Except Exn IssuedRefreshToken) :=
  (System.alone (fun a e w => exec (S.withTtl ttl) p a e w) (fun _ => ())
    (buildIssuedRefreshToken (S.withTtl ttl) userId refreshClaims) [{}, {}] w).map
      fun out => out.result

/-- The token and the row that are built. -/
def issuedToken (S : Settings) (ttl : RefreshTokenTtl) (now : Timestamp) (userId : UserId)
    (refreshClaims : RefreshTokenSigningClaims) : IssuedRefreshToken where
  refreshToken :=
    ⟨.refresh refreshClaims.sub refreshClaims.jti refreshClaims.temporaryAuth,
      now / 1000 + ttl.milliseconds / 1000⟩
  row := ⟨S.sha256 refreshClaims.jti, userId, now + ttl.milliseconds⟩

section Issued

variable (S : Settings) (ttl : RefreshTokenTtl) (w : World) (userId : UserId)
  (refreshClaims : RefreshTokenSigningClaims)

theorem issuedAt_eq (p : Pid) : issuedAt S ttl p w userId refreshClaims =
    some (.ok (issuedToken S ttl w.clock userId refreshClaims)) := rfl

/-- Whole seconds of a lifetime of at least one second that ends on a date. -/
theorem expiry_seconds {now ms : Nat} (hlong : 1000 ≤ ms) (hdate : now + ms ≤ maxDateMs) :
    now / 1000 < now / 1000 + ms / 1000 ∧ now / 1000 + ms / 1000 ≤ maxExpSeconds ∧
      now + ms < (now / 1000 + ms / 1000) * 1000 + 2000 ∧
      (now / 1000 + ms / 1000) * 1000 < now + ms + 2000 := by
  -- the last date is far below the largest `exp`
  have hconst : maxDateMs / 1000 ≤ maxExpSeconds := by decide
  have hle : (now + ms) / 1000 ≤ maxDateMs / 1000 := Nat.div_le_div_right hdate
  refine ⟨by omega, ?_, by omega, by omega⟩
  have hsum : now / 1000 + ms / 1000 ≤ (now + ms) / 1000 := by omega
  omega

/-- **Usable from one second on, up to the last date.** -/
theorem usable_iff (hjti : refreshClaims.jti ≠ "") (now : Nat) :
    Usable now (issuedToken S ttl now userId refreshClaims) ↔
      1000 ≤ ttl.milliseconds ∧ now + ttl.milliseconds ≤ maxDateMs := by
  constructor
  · rintro ⟨-, hlasts, hdate, -⟩
    refine ⟨?_, hdate⟩
    by_contra hshort
    change now / 1000 < now / 1000 + ttl.milliseconds / 1000 at hlasts
    rw [Nat.div_eq_of_lt (Nat.not_le.mp hshort), Nat.add_zero] at hlasts
    exact Nat.lt_irrefl _ hlasts
  · rintro ⟨hlong, hdate⟩
    obtain ⟨hlasts, hmax, hclose⟩ := expiry_seconds hlong hdate
    have hpos : 0 < now / 1000 + ttl.milliseconds / 1000 := Nat.zero_lt_of_lt hlasts
    refine ⟨?_, hlasts, hdate, hclose⟩
    show (if refreshClaims.jti ≠ "" ∧ 0 < now / 1000 + ttl.milliseconds / 1000 ∧
      now / 1000 + ttl.milliseconds / 1000 ≤ maxExpSeconds then _ else none).isSome = true
    rw [if_pos ⟨hjti, hpos, hmax⟩]
    rfl

end Issued

/-- **Which accepted lifetimes give usable sessions**: those of at least one
second whose end is a date. -/
theorem accepted_usable_iff (S : Settings) {value : Option String} {ttl : RefreshTokenTtl}
    (_ : parseRefreshTokenTtl value = .ok ttl) (p : Pid) (w : World) (userId : UserId)
    {refreshClaims : RefreshTokenSigningClaims} (hjti : refreshClaims.jti ≠ "") :
    ∃ issued, issuedAt S ttl p w userId refreshClaims = some (.ok issued) ∧
      (Usable w.clock issued ↔
        1000 ≤ ttl.milliseconds ∧ w.clock + ttl.milliseconds ≤ maxDateMs) :=
  ⟨_, issuedAt_eq S ttl w userId refreshClaims p,
    usable_iff S ttl userId refreshClaims hjti w.clock⟩

theorem accepted_usable_sevenDays : ∃ issued,
    issuedAt sampleSettings ⟨"7d", 604800000⟩ 0 sampleWorld 3 ⟨3, jti₁, false⟩ =
      some (.ok issued) ∧ Usable sampleWorld.clock issued := by
  obtain ⟨issued, hissued, hiff⟩ := @accepted_usable_iff sampleSettings none ⟨"7d", 604800000⟩
    (by decide +kernel) 0 sampleWorld 3 ⟨3, jti₁, false⟩ (by decide)
  exact ⟨issued, hissued, hiff.mpr ⟨by decide, by decide⟩⟩

/-- At both ends of the accepted range: half a second, and the largest safe
integer. -/
theorem accepted_unusable :
    (parseRefreshTokenTtl (some "500ms") = .ok ⟨"500ms", 500⟩ ∧
      ∃ issued, issuedAt sampleSettings ⟨"500ms", 500⟩ 0 sampleWorld 3 ⟨3, jti₁, false⟩ =
        some (.ok issued) ∧ ¬ Usable sampleWorld.clock issued) ∧
    (parseRefreshTokenTtl (some "9007199254740991ms") =
        .ok ⟨"9007199254740991ms", 9007199254740991⟩ ∧
      ∃ issued, issuedAt sampleSettings ⟨"9007199254740991ms", 9007199254740991⟩ 0 sampleWorld 3
        ⟨3, jti₁, false⟩ = some (.ok issued) ∧ ¬ Usable sampleWorld.clock issued) := by
  have hunusable : ∀ ttl : RefreshTokenTtl,
      ¬ (1000 ≤ ttl.milliseconds ∧ sampleWorld.clock + ttl.milliseconds ≤ maxDateMs) →
      ∃ issued, issuedAt sampleSettings ttl 0 sampleWorld 3 ⟨3, jti₁, false⟩ =
        some (.ok issued) ∧ ¬ Usable sampleWorld.clock issued := by
    intro ttl hends
    refine ⟨_, issuedAt_eq _ _ _ _ _ _, fun husable => hends ?_⟩
    exact (usable_iff sampleSettings ttl 3 ⟨3, jti₁, false⟩ (by decide) _).mp husable
  exact ⟨⟨by decide +kernel, hunusable _ (by decide)⟩, ⟨by decide +kernel, hunusable _ (by decide)⟩⟩

end MinePanel.Accounts
