import Mathlib.Data.String.Basic
import Mathlib.Data.Nat.Digits.Defs
import Mathlib.Tactic.IntervalCases

/-!
# How JSON writes strings

`escape` is what `JSON.stringify` writes for one character between quotes: the
character, or its escape. `unescape` reads one character back. So a quoted string is
read in one way only, whatever follows it (`quote_append_inj`), and so is an object
whose values are strings (`renderObject_injective`).
-/

namespace JsonQuote

/-- `\\u00` and two digits: a control character. -/
def escapeControl (n : ℕ) : List Char :=
  ['\\', 'u', '0', '0', Nat.digitChar (n / 16), Nat.digitChar (n % 16)]

/-- What is written for a character. -/
def escape (c : Char) : List Char :=
  if c = '"' then ['\\', '"']
  else if c = '\\' then ['\\', '\\']
  else if c.toNat = 8 then ['\\', 'b']
  else if c.toNat = 9 then ['\\', 't']
  else if c.toNat = 10 then ['\\', 'n']
  else if c.toNat = 12 then ['\\', 'f']
  else if c.toNat = 13 then ['\\', 'r']
  else if c.toNat < 32 then escapeControl c.toNat
  else [c]

/-- The value of a hexadecimal digit. -/
def hexValue (c : Char) : ℕ :=
  if c.toNat < 58 then c.toNat - 48 else c.toNat - 87

/-- The character that a text begins with. -/
def unescape : List Char → Option (Char × List Char)
  | '\\' :: 'u' :: '0' :: '0' :: a :: b :: r =>
    some (Char.ofNat (16 * hexValue a + hexValue b), r)
  | '\\' :: 'b' :: r => some (Char.ofNat 8, r)
  | '\\' :: 't' :: r => some (Char.ofNat 9, r)
  | '\\' :: 'n' :: r => some (Char.ofNat 10, r)
  | '\\' :: 'f' :: r => some (Char.ofNat 12, r)
  | '\\' :: 'r' :: r => some (Char.ofNat 13, r)
  | '\\' :: c :: r => some (c, r)
  | c :: r => some (c, r)
  | [] => none

theorem unescape_of_ne {c : Char} {r : List Char} (h : c ≠ '\\') :
    unescape (c :: r) = some (c, r) := by
  unfold unescape
  split <;> simp_all

/-- A control character is read back. -/
theorem unescape_escapeControl {n : ℕ} (h : n < 32) (r : List Char) :
    unescape (escapeControl n ++ r) = some (Char.ofNat n, r) := by
  interval_cases n <;> rfl

/-- **A character is read back.** -/
theorem unescape_escape (c : Char) (r : List Char) :
    unescape (escape c ++ r) = some (c, r) := by
  have hof : ∀ n, c.toNat = n → Char.ofNat n = c := by
    rintro n rfl
    exact Char.ofNat_toNat c
  unfold escape
  split
  · next h =>
    subst h
    rfl
  split
  · next h =>
    subst h
    rfl
  split
  · next h => exact hof 8 h ▸ rfl
  split
  · next h => exact hof 9 h ▸ rfl
  split
  · next h => exact hof 10 h ▸ rfl
  split
  · next h => exact hof 12 h ▸ rfl
  split
  · next h => exact hof 13 h ▸ rfl
  split
  · next h => rw [unescape_escapeControl h, hof _ rfl]
  · next h₁ h₂ _ _ _ _ _ _ => exact unescape_of_ne h₂

theorem escape_append_inj {c d : Char} {r r' : List Char}
    (h : escape c ++ r = escape d ++ r') : c = d ∧ r = r' := by
  have hread := congrArg unescape h
  rw [unescape_escape, unescape_escape] at hread
  exact Prod.mk.inj (Option.some.inj hread)

/-- No character begins with a quote. -/
theorem escape_append_ne (c : Char) (r r' : List Char) : escape c ++ r ≠ '"' :: r' := by
  intro h
  -- what begins with a quote is read as one, and a quote is not written so
  have hread := congrArg unescape h
  rw [unescape_escape, unescape_of_ne (by decide)] at hread
  obtain ⟨rfl, rfl⟩ := Prod.mk.inj (Option.some.inj hread)
  exact absurd (congrArg List.head? h) (by simp [escape])

/-- What is written between the quotes, and the quote after it. -/
def body (s : List Char) : List Char := s.flatMap escape ++ ['"']

theorem body_append_inj {s t r r' : List Char} (h : body s ++ r = body t ++ r') :
    s = t ∧ r = r' := by
  induction s generalizing t with
  | nil =>
    cases t with
    | nil => exact ⟨rfl, by simpa [body] using h⟩
    | cons d t => exact absurd (by simpa [body] using h.symm) (escape_append_ne d _ r)
  | cons c s ih =>
    cases t with
    | nil => exact absurd (by simpa [body] using h) (escape_append_ne c _ r')
    | cons d t =>
      have hcons : escape c ++ (body s ++ r) = escape d ++ (body t ++ r') := by
        simpa [body] using h
      obtain ⟨rfl, hrest⟩ := escape_append_inj hcons
      obtain ⟨rfl, hr⟩ := ih hrest
      exact ⟨rfl, hr⟩

/-- A string in quotes. -/
def quote (s : String) : List Char := '"' :: body s.toList

/-- **A quoted string is read in one way.** -/
theorem quote_append_inj {s t : String} {r r' : List Char}
    (h : quote s ++ r = quote t ++ r') : s = t ∧ r = r' := by
  obtain ⟨hst, hr⟩ := body_append_inj (List.cons.inj h).2
  exact ⟨String.toList_injective hst, hr⟩

/-! ## Objects of strings -/

/-- A property whose value is a string. -/
def field (f : String × String) : List Char := quote f.fst ++ ':' :: quote f.snd

theorem field_append_inj {f g : String × String} {r r' : List Char}
    (h : field f ++ r = field g ++ r') : f = g ∧ r = r' := by
  unfold field at h
  rw [List.append_assoc, List.append_assoc] at h
  obtain ⟨hfst, h⟩ := quote_append_inj h
  obtain ⟨hsnd, hr⟩ := quote_append_inj (List.cons.inj h).2
  exact ⟨Prod.ext hfst hsnd, hr⟩

/-- The properties, with commas between them. -/
def fields : List (String × String) → List Char
  | [] => []
  | [f] => field f
  | f :: g :: fs => field f ++ ',' :: fields (g :: fs)

/-- **The text of an object of strings.** -/
def renderObject (fs : List (String × String)) : String :=
  String.ofList ('{' :: fields fs ++ ['}'])

theorem fields_append_inj {fs gs : List (String × String)}
    (h : fields fs ++ ['}'] = fields gs ++ ['}']) : fs = gs := by
  have hquote : ∀ (f : String × String) (r : List Char), field f ++ r ≠ ['}'] := by
    intro f r h
    exact absurd (List.cons.inj h).1 (by decide)
  induction fs using fields.induct generalizing gs with
  | case1 =>
    match gs with
    | [] => rfl
    | [g] => exact absurd h.symm (hquote g _)
    | g :: g' :: gs =>
      rw [fields, fields, List.append_assoc] at h
      exact absurd h.symm (hquote g _)
  | case2 f =>
    match gs with
    | [] => exact absurd h (hquote f _)
    | [g] => rw [(field_append_inj h).1]
    | g :: g' :: gs =>
      rw [fields, fields, List.append_assoc] at h
      exact absurd (List.cons.inj (field_append_inj h).2).1 (by decide)
  | case3 f f' fs ih =>
    match gs with
    | [] =>
      rw [fields, fields, List.append_assoc] at h
      exact absurd h (hquote f _)
    | [g] =>
      rw [fields, fields, List.append_assoc] at h
      exact absurd (List.cons.inj (field_append_inj h).2).1 (by decide)
    | g :: g' :: gs =>
      rw [fields, fields, List.append_assoc, List.append_assoc] at h
      obtain ⟨rfl, hrest⟩ := field_append_inj h
      rw [ih (List.cons.inj hrest).2]

/-- **Objects with the same text** have the same properties in the same order. -/
theorem renderObject_injective : Function.Injective renderObject := by
  intro fs gs h
  exact fields_append_inj (List.cons.inj (String.ofList_injective h)).2

end JsonQuote
