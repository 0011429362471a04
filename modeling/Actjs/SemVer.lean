import Mathlib.Data.Char
import Mathlib.Data.List.Lex
import Mathlib.Data.Prod.Lex
import Mathlib.Data.Sum.Order
import Mathlib.Order.WithBot

/-!
# Semantic versions

A version has a major, a minor and a patch number, the identifiers of a prerelease, and those
of a build. `SemVer` has the valid ones, and `SemVer.render` their texts.

Versions are ranked by their numbers, then by their prereleases: a release is after all of its
prereleases; prereleases are in the lexicographic order of their identifiers; a number is
before an identifier that is none. A build makes no difference. `SemVer.key` puts this into the
orders that there are for products, sums and lists, so that it is a linear order of keys.
-/

/-- A text, by its letters. -/
abbrev Text := List Char

/-- A letter that identifiers may have. -/
def isIdentLetter (c : Char) : Bool := c.isAlphanum || c == '-'

/-- **An identifier.** -/
structure Ident where
  text : Text
  ne_nil : text ≠ []
  letters : ∀ c ∈ text, isIdentLetter c = true

/-- **An identifier of a prerelease**: a number without leading zeros, or what is not of
digits alone. -/
inductive PreIdent where
  | numeric (n : ℕ)
  | alphanumeric (id : Ident) (h : ∃ c ∈ id.text, c.isDigit = false)

/-- **A semantic version.** Without identifiers of a prerelease it is a release. -/
structure SemVer where
  major : ℕ
  minor : ℕ
  patch : ℕ
  pre : List PreIdent
  build : List Ident

namespace PreIdent

def text : PreIdent → Text
  | numeric n => Nat.toDigits 10 n
  | alphanumeric id _ => id.text

/-- A number is before what is none. -/
def key : PreIdent → ℕ ⊕ₗ Text
  | numeric n => Sum.inlₗ n
  | alphanumeric id _ => Sum.inrₗ id.text

end PreIdent

namespace SemVer

/-- A release is after its prereleases. -/
def preKey (pre : List PreIdent) : WithTop (List (ℕ ⊕ₗ Text)) :=
  if pre.isEmpty = true then ⊤ else ↑(pre.map PreIdent.key)

/-- **The rank of a version.** -/
def key (v : SemVer) : ℕ ×ₗ ℕ ×ₗ ℕ ×ₗ WithTop (List (ℕ ⊕ₗ Text)) :=
  toLex (v.major, toLex (v.minor, toLex (v.patch, preKey v.pre)))

/-- What separates the identifiers: the first has a mark, and the others a dot. -/
def marked (mark : Char) : List Text → List (Char × Text)
  | [] => []
  | x :: xs => (mark, x) :: xs.map fun y => ('.', y)

/-- What comes after the major number, in parts that begin with a separator. -/
def parts (v : SemVer) : List (Char × Text) :=
  [('.', Nat.toDigits 10 v.minor), ('.', Nat.toDigits 10 v.patch)]
    ++ marked '-' (v.pre.map PreIdent.text) ++ marked '+' (v.build.map Ident.text)

/-- **The text of a version.** -/
def render (v : SemVer) : String :=
  String.ofList (Nat.toDigits 10 v.major ++ v.parts.flatMap fun part => part.1 :: part.2)

end SemVer

/-- The hyphen comes before the other letters. -/
theorem zero_le_of_isIdentLetter {c : Char} (h : isIdentLetter c = true) (hc : c ≠ '-') :
    '0' ≤ c := by
  rw [isIdentLetter, beq_eq_false_iff_ne.mpr hc, Bool.or_false] at h
  have hletter : (decide (c.val ≥ 'A'.val ∧ c.val ≤ 'Z'.val)
      || (decide (c.val ≥ 'a'.val) && decide (c.val ≤ 'z'.val))
      || (decide (c.val ≥ '0'.val) && decide (c.val ≤ '9'.val))) = true := h
  rw [Char.le_def]
  grind

namespace PreIdent

theorem isIdentLetter_of_mem_toDigits {n : ℕ} {c : Char} (h : c ∈ Nat.toDigits 10 n) :
    isIdentLetter c = true := by
  have hdigit := Nat.isDigit_of_mem_toDigits (by omega) (by omega) h
  rw [isIdentLetter, Char.isAlphanum, hdigit, Bool.or_true, Bool.true_or]

theorem letters (p : PreIdent) : ∀ c ∈ p.text, isIdentLetter c = true := by
  cases p with
  | numeric n => exact fun _ => isIdentLetter_of_mem_toDigits
  | alphanumeric id h => exact id.letters

@[simp]
theorem key_numeric_lt {n m : ℕ} : (numeric n).key < (numeric m).key ↔ n < m := by
  exact Sum.Lex.inl_lt_inl_iff

@[simp]
theorem key_alphanumeric_lt {s t : Ident} {hs ht} :
    (alphanumeric s hs).key < (alphanumeric t ht).key ↔ s.text < t.text := by
  exact Sum.Lex.inr_lt_inr_iff

theorem key_numeric_lt_alphanumeric {n : ℕ} {t : Ident} {ht} :
    (numeric n).key < (alphanumeric t ht).key := Sum.Lex.inl_lt_inr n t.text

theorem key_injective {p q : PreIdent} (h : p.key = q.key) : p = q := by
  cases p with
  | numeric n =>
    cases q with
    | numeric m => exact congrArg numeric (Sum.inl.inj h)
    | alphanumeric t _ => exact absurd h (by simp [key])
  | alphanumeric s _ =>
    cases q with
    | numeric m => exact absurd h (by simp [key])
    | alphanumeric t _ =>
      obtain ⟨x, _, _⟩ := s
      obtain ⟨y, _, _⟩ := t
      obtain rfl : x = y := Sum.inr.inj h
      rfl

end PreIdent

namespace SemVer

variable {v w : SemVer}

theorem preKey_lt_iff {ps qs : List PreIdent} : preKey ps < preKey qs
    ↔ ps ≠ [] ∧ (qs = [] ∨ ps.map PreIdent.key < qs.map PreIdent.key) := by
  unfold preKey
  cases ps with
  | nil => simp
  | cons p ps =>
    cases qs with
    | nil => simp
    | cons q qs => simp [WithTop.coe_lt_coe]

theorem preKey_injective {ps qs : List PreIdent} (h : preKey ps = preKey qs) : ps = qs := by
  have hinj : Function.Injective PreIdent.key := fun _ _ => PreIdent.key_injective
  cases ps with
  | nil =>
    cases qs with
    | nil => rfl
    | cons q qs => exact absurd h (by simp [preKey])
  | cons p ps =>
    cases qs with
    | nil => exact absurd h (by simp [preKey])
    | cons q qs => exact List.map_injective_iff.mpr hinj (WithTop.coe_injective h)

/-- **The rules of precedence.** -/
theorem key_lt_iff : v.key < w.key ↔ v.major < w.major ∨ v.major = w.major ∧
    (v.minor < w.minor ∨ v.minor = w.minor ∧ (v.patch < w.patch ∨ v.patch = w.patch ∧
      (v.pre ≠ [] ∧ (w.pre = [] ∨ v.pre.map PreIdent.key < w.pre.map PreIdent.key)))) := by
  unfold key
  rw [Prod.Lex.toLex_lt_toLex, Prod.Lex.toLex_lt_toLex, Prod.Lex.toLex_lt_toLex, preKey_lt_iff]

/-- Versions of one rank may only have other builds. -/
theorem key_eq_iff : v.key = w.key
    ↔ v.major = w.major ∧ v.minor = w.minor ∧ v.patch = w.patch ∧ v.pre = w.pre := by
  constructor
  · intro h
    obtain ⟨hmajor, h⟩ := Prod.mk.inj (toLex.injective h)
    obtain ⟨hminor, h⟩ := Prod.mk.inj (toLex.injective h)
    obtain ⟨hpatch, h⟩ := Prod.mk.inj (toLex.injective h)
    exact ⟨hmajor, hminor, hpatch, preKey_injective h⟩
  · rintro ⟨hmajor, hminor, hpatch, hpre⟩
    unfold key
    rw [hmajor, hminor, hpatch, hpre]

end SemVer
