/-
  MinePanel.Lib.Text
  ──────────────────
  **TEXT AND PATHS.**

  What JavaScript calls white space, and the paths of Node's `path` on POSIX, by
  their segments.

    * `trim` — `String.prototype.trim`;
    * `trimmed_of_ends` — a text that begins and ends with other characters is
      trimmed already;
    * `resolve`, `relative` — `path.resolve`, `path.relative`;
    * `resolve_child`, `relative_child` — a plain name lies directly below its base.
-/
import Mathlib.Data.List.DropRight

namespace MinePanel.Lib.Text

/-! ## §1. Characters. -/

/-- `[a-zA-Z0-9]`. -/
def isAlphanumeric (c : Char) : Bool :=
  ('a' ≤ c && c ≤ 'z') || ('A' ≤ c && c ≤ 'Z') || ('0' ≤ c && c ≤ '9')

/-- The white space and line terminators of JavaScript. -/
def isWhiteSpace (c : Char) : Bool :=
  let n := c.toNat
  (9 ≤ n && n ≤ 13) || n == 32 || n == 0xA0 || n == 0x1680 || (0x2000 ≤ n && n ≤ 0x200A)
    || n == 0x2028 || n == 0x2029 || n == 0x202F || n == 0x205F || n == 0x3000 || n == 0xFEFF

/-- `String.prototype.trim`, on characters. -/
def trimmed (cs : List Char) : List Char := (cs.dropWhile isWhiteSpace).rdropWhile isWhiteSpace

/-- `String.prototype.trim`. -/
def trim (s : String) : String := String.ofList (trimmed s.toList)

/-- No ASCII letter, digit or other visible character is white space. -/
theorem not_whiteSpace {c : Char} (hlow : 33 ≤ c.toNat) (hhigh : c.toNat ≤ 126) :
    isWhiteSpace c = false := by
  unfold isWhiteSpace
  simp
  omega

/-- **Nothing to trim at either end.** -/
theorem trimmed_of_ends {cs : List Char} (hhead : ∀ c ∈ cs.head?, isWhiteSpace c = false)
    (hlast : ∀ c ∈ cs.getLast?, isWhiteSpace c = false) : trimmed cs = cs := by
  have hleft : cs.dropWhile isWhiteSpace = cs := by
    rw [List.dropWhile_eq_self_iff]
    intro hl
    simp [hhead _ (List.head?_eq_getElem? ▸ List.getElem?_eq_getElem hl)]
  unfold trimmed
  rw [hleft, List.rdropWhile_eq_self_iff]
  intro hne
  simp [hlast _ (List.getLast?_eq_some_getLast hne)]

/-! ## §2. Paths. -/

/-- `path.isAbsolute`. -/
def isAbsolute (path : String) : Bool := path.toList.head? == some '/'

/-- The segments of a normalised absolute path. -/
abbrev Path := List String

/-- The parts of a path text between slashes. -/
def parts (text : String) : List String := (text.toList.splitOn '/').map String.ofList

/-- One part of a path, on top of those before it. -/
def descend (path : Path) (part : String) : Path :=
  if part = "" ∨ part = "." then path
  else if part = ".." then path.dropLast
  else path ++ [part]

/-- `path.resolve(base, text)`. -/
def resolve (base : Path) (text : String) : Path :=
  (parts text).foldl descend (if isAbsolute text then [] else base)

/-- The text of a normalised absolute path. -/
def Path.text (path : Path) : String := "/" ++ String.intercalate "/" path

/-- `path.relative(base, target)`: up to where the two part, then down. -/
def relativeParts : Path → Path → List String
  | b :: base, t :: target =>
      if b = t then relativeParts base target
      else List.replicate (base.length + 1) ".." ++ t :: target
  | base, target => List.replicate base.length ".." ++ target

/-- `path.relative(base, target)`. -/
def relative (base target : Path) : String := String.intercalate "/" (relativeParts base target)

/-- Without a slash a text is no absolute path. -/
theorem not_isAbsolute {text : String} (hslash : '/' ∉ text.toList) : isAbsolute text = false := by
  unfold isAbsolute
  rw [beq_eq_false_iff_ne]
  exact fun hhead => hslash (List.mem_of_mem_head? hhead)

theorem relativeParts_child (root : Path) (name : String) :
    relativeParts root (root ++ [name]) = [name] := by
  induction root with
  | nil => rfl
  | cons segment root ih => simpa [relativeParts] using ih

/-- Below its base a path is relative by what is added. -/
theorem relative_child (root : Path) (name : String) : relative root (root ++ [name]) = name := by
  unfold relative
  rw [relativeParts_child]
  simp

/-- **A name without a slash, longer than `..`, is one segment more.** -/
theorem resolve_child (root : Path) {name : String} (hslash : '/' ∉ name.toList)
    (hlen : 2 < name.length) : resolve root name = root ++ [name] := by
  have hparts : parts name = [name] := by
    unfold parts
    rw [List.splitOn_eq_singleton hslash]
    simp
  have hshort : ∀ text : String, text.length ≤ 2 → name ≠ text := by
    rintro text htext rfl
    omega
  unfold resolve
  rw [hparts, not_isAbsolute hslash]
  show descend root name = root ++ [name]
  unfold descend
  rw [if_neg, if_neg]
  · exact hshort ".." (by decide)
  · rintro (h | h)
    · exact hshort "" (by decide) h
    · exact hshort "." (by decide) h

end MinePanel.Lib.Text
