/-
  MinePanel.Gateway.Cookies
  ─────────────────────────
  **WHAT `parseAccessCookie` READS.**

  The parser runs once over the parts of the header, with five early exits.
  Declaratively: a header presents a token iff exactly one of its parts is a
  cookie `access_token` and the value of that one can be read; with none the
  token is absent, and every other header is invalid.

    * `Carries`, `Named` — a part is a cookie `access_token`;
    * `Reads` — its value is a token;
    * `parseCookieParts_none`, `parseCookieParts_some` — the loop, by the
      cookies among the parts;
    * `parseAccessCookie_exact` — **the parser is exact**.
-/
import MinePanel.Gateway.Service

namespace MinePanel.Gateway

/-! ## §1. Cookies. -/

/-- The part is `name=value`, cut at its first `=`, and the trimmed name is
`access_token`. -/
def Carries (S : Settings) (part value : List Char) : Prop :=
  ∃ name, part = name ++ '=' :: value ∧ '=' ∉ name ∧
    S.trim (String.ofList name) = "access_token"

/-- The part is a cookie `access_token`. -/
def Named (S : Settings) (part : List Char) : Prop := ∃ value, Carries S part value

/-- The trimmed value is not empty and decodes to a token that is not too long. -/
def Reads (S : Settings) (value : List Char) (token : String) : Prop :=
  S.trim (String.ofList value) ≠ "" ∧
    S.decodeURIComponent (S.trim (String.ofList value)) = some token ∧
    token.utf8ByteSize ≤ tokenMaxBytes

/-- Exactly one of the parts is a cookie `access_token`, and it reads `token`. -/
def Presents (S : Settings) (parts : List (List Char)) (token : String) : Prop :=
  ∃ before part after value, parts = before ++ part :: after ∧
    (∀ other ∈ before ++ after, ¬ Named S other) ∧ Carries S part value ∧ Reads S value token

section Parts

variable {S : Settings} {part value name rest : List Char} {parts : List (List Char)}

/-- The cut at the first `=`. -/
theorem takeWhile_append_eq (rest : List Char) (hname : '=' ∉ name) :
    (name ++ '=' :: rest).takeWhile (· ≠ '=') = name ∧
      ((name ++ '=' :: rest).dropWhile (· ≠ '=')).tail = rest := by
  induction name with
  | nil => simp
  | cons c name ih =>
      obtain ⟨hc, hname⟩ := not_or.mp (fun h => hname (List.mem_cons.mpr h))
      obtain ⟨ihtake, ihdrop⟩ := ih hname
      have hne : c ≠ '=' := fun h => hc h.symm
      constructor
      · rw [List.cons_append, List.takeWhile_cons_of_pos (by simpa using hne), ihtake]
      · rw [List.cons_append, List.dropWhile_cons_of_pos (by simpa using hne)]
        exact ihdrop

theorem carries_iff : Carries S part value ↔
    '=' ∈ part ∧ S.trim (String.ofList (part.takeWhile (· ≠ '='))) = "access_token" ∧
      (part.dropWhile (· ≠ '=')).tail = value := by
  constructor
  · rintro ⟨name, rfl, hname, htrim⟩
    obtain ⟨htake, hdrop⟩ := takeWhile_append_eq value hname
    rw [htake, hdrop]
    exact ⟨by simp, htrim, rfl⟩
  · rintro ⟨hmem, htrim, rfl⟩
    obtain ⟨before, after, rfl, hbefore⟩ := List.eq_append_cons_of_mem hmem
    obtain ⟨htake, hdrop⟩ := takeWhile_append_eq after hbefore
    rw [htake] at htrim
    rw [hdrop]
    exact ⟨before, rfl, hbefore, htrim⟩

/-- A cookie has one value. -/
theorem Carries.unique {value' : List Char} (h : Carries S part value)
    (h' : Carries S part value') : value = value' :=
  (carries_iff.mp h).2.2.symm.trans (carries_iff.mp h').2.2

theorem Reads.unique {token token' : String} (h : Reads S value token)
    (h' : Reads S value token') : token = token' :=
  Option.some.inj (h.2.1.symm.trans h'.2.1)

/-! ## §2. The loop. -/

/-- One turn of the loop. -/
theorem parseCookieParts_cons (token : Option String) :
    parseCookieParts S token (part :: parts) =
      if '=' ∉ part then parseCookieParts S token parts
      else if S.trim (String.ofList (part.takeWhile (· ≠ '='))) ≠ "access_token" then
        parseCookieParts S token parts
      else if S.trim (String.ofList (part.dropWhile (· ≠ '=')).tail) = "" then .invalid
      else match S.decodeURIComponent (S.trim (String.ofList (part.dropWhile (· ≠ '=')).tail)) with
        | none => .invalid
        | some decoded =>
          if decoded.utf8ByteSize > tokenMaxBytes then .invalid
          else if token.isSome then .invalid
          else parseCookieParts S (some decoded) parts := by
  cases token <;> rfl

/-- Another part is skipped. -/
theorem parseCookieParts_skip (hpart : ¬ Named S part) (token : Option String) :
    parseCookieParts S token (part :: parts) = parseCookieParts S token parts := by
  rw [parseCookieParts_cons]
  split
  next => rfl
  next heq =>
    split
    next => rfl
    next hname =>
      refine absurd ⟨_, carries_iff.mpr ⟨?_, ?_, rfl⟩⟩ hpart
      · simpa using heq
      · simpa using hname

/-- A cookie `access_token`. -/
theorem parseCookieParts_found (parts : List (List Char)) (hpart : Carries S part value) (token : Option String) :
    (∃ decoded, Reads S value decoded ∧ token = none ∧
      parseCookieParts S token (part :: parts) = parseCookieParts S (some decoded) parts) ∨
    ((∀ decoded, Reads S value decoded → token.isSome = true) ∧
      parseCookieParts S token (part :: parts) = .invalid) := by
  obtain ⟨heq, hname, rfl⟩ := carries_iff.mp hpart
  rw [parseCookieParts_cons, if_neg (not_not.mpr heq), if_neg (not_not.mpr hname)]
  split
  next hempty => exact Or.inr ⟨fun decoded h => absurd hempty h.1, rfl⟩
  next hvalue =>
    split
    next hdecode =>
      refine Or.inr ⟨fun decoded h => ?_, rfl⟩
      cases hdecode.symm.trans h.2.1
    next decoded hdecode =>
      split
      next hlong =>
        refine Or.inr ⟨fun decoded' h => ?_, rfl⟩
        obtain rfl : decoded = decoded' := Option.some.inj (hdecode.symm.trans h.2.1)
        exact absurd h.2.2 (Nat.not_le.mpr hlong)
      next hshort =>
        have hreads : Reads S _ decoded := ⟨hvalue, hdecode, Nat.not_lt.mp hshort⟩
        cases token with
        | some token => exact Or.inr ⟨fun _ _ => rfl, rfl⟩
        | none => exact Or.inl ⟨decoded, hreads, rfl, rfl⟩

/-- Once a token has been read, the rest must hold no other cookie. -/
theorem parseCookieParts_some (parts : List (List Char)) (token : String) :
    (parseCookieParts S (some token) parts = .token token ∧ ∀ part ∈ parts, ¬ Named S part) ∨
      (parseCookieParts S (some token) parts = .invalid ∧ ∃ part ∈ parts, Named S part) := by
  induction parts with
  | nil => exact Or.inl ⟨rfl, by simp⟩
  | cons part parts ih =>
      by_cases hpart : Named S part
      · obtain ⟨value, hcarries⟩ := hpart
        rcases parseCookieParts_found parts hcarries (some token) with
          ⟨_, _, hnone, _⟩ | ⟨_, hinvalid⟩
        · cases hnone
        · exact Or.inr ⟨hinvalid, part, List.mem_cons_self, value, hcarries⟩
      · rw [parseCookieParts_skip hpart]
        rcases ih with ⟨heq, hnone⟩ | ⟨heq, other, hother, hnamed⟩
        · refine Or.inl ⟨heq, fun other hother => ?_⟩
          rcases List.mem_cons.mp hother with rfl | hother
          · exact hpart
          · exact hnone other hother
        · exact Or.inr ⟨heq, other, List.mem_cons_of_mem _ hother, hnamed⟩

/-- Skipped parts do not matter to what is presented. -/
theorem presents_skip {token : String} (hpart : ¬ Named S part) :
    Presents S (part :: parts) token ↔ Presents S parts token := by
  constructor
  · rintro ⟨before, cookie, after, value, heq, hothers, hcarries, hreads⟩
    cases before with
    | nil =>
        obtain ⟨rfl, rfl⟩ := List.cons.inj heq
        exact absurd ⟨value, hcarries⟩ hpart
    | cons first before =>
        obtain ⟨rfl, rfl⟩ := List.cons.inj heq
        exact ⟨before, cookie, after, value, rfl,
          fun other h => hothers other (List.mem_cons_of_mem _ h), hcarries, hreads⟩
  · rintro ⟨before, cookie, after, value, rfl, hothers, hcarries, hreads⟩
    refine ⟨part :: before, cookie, after, value, rfl, fun other h => ?_, hcarries, hreads⟩
    rcases List.mem_cons.mp h with rfl | h
    · exact hpart
    · exact hothers other h

/-- Where the first part is a cookie, it must be the only one. -/
theorem presents_found {token : String} (hpart : Carries S part value) :
    Presents S (part :: parts) token ↔
      Reads S value token ∧ ∀ other ∈ parts, ¬ Named S other := by
  constructor
  · rintro ⟨before, cookie, after, value', heq, hothers, hcarries, hreads⟩
    cases before with
    | nil =>
        obtain ⟨rfl, rfl⟩ := List.cons.inj heq
        rw [hpart.unique hcarries]
        exact ⟨hreads, hothers⟩
    | cons first before =>
        obtain ⟨rfl, rfl⟩ := List.cons.inj heq
        exact absurd ⟨value, hpart⟩ (hothers _ List.mem_cons_self)
  · rintro ⟨hreads, hothers⟩
    exact ⟨[], part, parts, value, rfl, hothers, hpart, hreads⟩

/-- **The loop**, from its start: absent, a token, or invalid. -/
theorem parseCookieParts_none (parts : List (List Char)) :
    (parseCookieParts S none parts = .absent ∧ ∀ part ∈ parts, ¬ Named S part) ∨
      (∃ token, parseCookieParts S none parts = .token token ∧ Presents S parts token) ∨
      (parseCookieParts S none parts = .invalid ∧ (∃ part ∈ parts, Named S part) ∧
        ∀ token, ¬ Presents S parts token) := by
  induction parts with
  | nil => exact Or.inl ⟨rfl, by simp⟩
  | cons part parts ih =>
      by_cases hpart : Named S part
      · obtain ⟨value, hcarries⟩ := hpart
        have hhere : ∃ other ∈ part :: parts, Named S other :=
          ⟨part, List.mem_cons_self, value, hcarries⟩
        rcases parseCookieParts_found parts hcarries none with
          ⟨decoded, hreads, -, heq⟩ | ⟨hnot, heq⟩
        · rw [heq]
          rcases parseCookieParts_some (S := S) parts decoded with
            ⟨htoken, halone⟩ | ⟨hinvalid, other, hother, hnamed⟩
          · exact Or.inr (Or.inl ⟨decoded, htoken, (presents_found hcarries).mpr
              ⟨hreads, halone⟩⟩)
          · refine Or.inr (Or.inr ⟨hinvalid, hhere, fun token htoken => ?_⟩)
            exact ((presents_found hcarries).mp htoken).2 other hother hnamed
        · refine Or.inr (Or.inr ⟨heq, hhere, fun token htoken => ?_⟩)
          cases hnot token ((presents_found hcarries).mp htoken).1
      · rw [parseCookieParts_skip hpart]
        rcases ih with ⟨heq, hnone⟩ | ⟨token, heq, htoken⟩ | ⟨heq, ⟨other, hother, hnamed⟩, hnot⟩
        · refine Or.inl ⟨heq, fun other hother => ?_⟩
          rcases List.mem_cons.mp hother with rfl | hother
          · exact hpart
          · exact hnone other hother
        · exact Or.inr (Or.inl ⟨token, heq, (presents_skip hpart).mpr htoken⟩)
        · exact Or.inr (Or.inr ⟨heq, ⟨other, List.mem_cons_of_mem _ hother, hnamed⟩,
            fun token htoken => hnot token ((presents_skip hpart).mp htoken)⟩)

/-- Whatever is presented is named, and only one token is. -/
theorem Presents.named {token : String} (h : Presents S parts token) :
    ∃ part ∈ parts, Named S part := by
  obtain ⟨before, part, after, value, rfl, -, hcarries, -⟩ := h
  exact ⟨part, by simp, value, hcarries⟩

theorem Presents.unique {token token' : String} (h : Presents S parts token)
    (h' : Presents S parts token') : token = token' := by
  -- along the parts: the first cookie decides
  induction parts with
  | nil =>
      obtain ⟨part, hpart, -⟩ := h.named
      cases hpart
  | cons part parts ih =>
      by_cases hpart : Named S part
      · obtain ⟨value, hcarries⟩ := hpart
        exact ((presents_found hcarries).mp h).1.unique ((presents_found hcarries).mp h').1
      · exact ih ((presents_skip hpart).mp h) ((presents_skip hpart).mp h')

end Parts

/-! ## §3. The parser. -/

/-- **`parseAccessCookie` is exact**: on every header of at most 16384 bytes it
returns `absent` iff no part is a cookie `access_token`, a token iff exactly one
part is and reads that token, and `invalid` in every other case. -/
theorem parseAccessCookie_exact (S : Settings) (cookieHeader : String)
    (hsize : cookieHeader.utf8ByteSize ≤ cookieHeaderMaxBytes) :
    (parseAccessCookie S (.one cookieHeader) = .absent ↔
      ∀ part ∈ cookieHeader.toList.splitOn ';', ¬ Named S part) ∧
    (∀ token, parseAccessCookie S (.one cookieHeader) = .token token ↔
      Presents S (cookieHeader.toList.splitOn ';') token) ∧
    (parseAccessCookie S (.one cookieHeader) = .invalid ↔
      (∃ part ∈ cookieHeader.toList.splitOn ';', Named S part) ∧
        ∀ token, ¬ Presents S (cookieHeader.toList.splitOn ';') token) := by
  have hloop : parseAccessCookie S (.one cookieHeader) =
      parseCookieParts S none (cookieHeader.toList.splitOn ';') :=
    if_neg (Nat.not_lt.mpr hsize)
  rw [hloop]
  rcases parseCookieParts_none (S := S) (cookieHeader.toList.splitOn ';') with
    ⟨heq, hnone⟩ | ⟨token, heq, htoken⟩ | ⟨heq, hnamed, hnot⟩
  · rw [heq]
    refine ⟨by simpa using hnone, fun token => ?_, ?_⟩
    · refine ⟨fun h => (nomatch h), fun h => ?_⟩
      obtain ⟨part, hpart, hnamed⟩ := h.named
      exact absurd hnamed (hnone part hpart)
    · refine ⟨fun h => (nomatch h), fun ⟨⟨part, hpart, hnamed⟩, _⟩ => ?_⟩
      exact absurd hnamed (hnone part hpart)
  · rw [heq]
    obtain ⟨part, hpart, hnamed⟩ := htoken.named
    refine ⟨⟨fun h => (nomatch h), fun h => absurd hnamed (h part hpart)⟩, fun token' => ?_,
      ⟨fun h => (nomatch h), fun h => absurd htoken (h.2 token)⟩⟩
    constructor
    · intro h
      cases h
      exact htoken
    · intro h
      rw [htoken.unique h]
  · rw [heq]
    obtain ⟨part, hpart, hcookie⟩ := hnamed
    exact ⟨⟨fun h => (nomatch h), fun h => absurd hcookie (h part hpart)⟩,
      fun token => ⟨fun h => (nomatch h), fun h => absurd h (hnot token)⟩,
      ⟨fun _ => ⟨⟨part, hpart, hcookie⟩, hnot⟩, fun _ => rfl⟩⟩

/-- A reader of plain cookies. -/
def plainSettings : Settings where
  readToken := fun _ => .garbage
  trim := id
  decodeURIComponent := some

theorem parseAccessCookie_plain :
    parseAccessCookie plainSettings (.one "theme=dark;access_token=abc") = .token "abc" ∧
      Presents plainSettings ("theme=dark;access_token=abc".toList.splitOn ';') "abc" := by
  have hread : parseAccessCookie plainSettings (.one "theme=dark;access_token=abc") =
      .token "abc" := by decide +kernel
  exact ⟨hread, ((parseAccessCookie_exact plainSettings _ (by decide +kernel)).2.1 "abc").mp hread⟩

end MinePanel.Gateway
