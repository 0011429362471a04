import Actjs.Json

/-!
# JSON texts

A JSON text is represented by the tree it spells, the fields of an object in
the order of the text: `JSON.stringify` writes a value as such a tree and
loses what has no text – a property that is `undefined` is left out, and an
`undefined` element of an array is written as `null`. Two texts are the same
bytes exactly if the trees are equal, so equality of trees is made decidable
here; two values that differ in the order of their keys alone have different
texts.
-/

namespace Json

/-! ## Equality -/

mutual

/-- Whether two values are the same, the order of the keys included. -/
def same : Json → Json → Bool
  | undefined, undefined => true
  | null, null => true
  | bool a, bool b => a == b
  | num a, num b => a == b
  | str a, str b => a == b
  | arr xs, arr ys => sameAll xs ys
  | obj fs, obj gs => sameFields fs gs
  | _, _ => false
termination_by structural v => v

/-- `same` of each element. -/
def sameAll : List Json → List Json → Bool
  | [], [] => true
  | x :: xs, y :: ys => same x y && sameAll xs ys
  | _, _ => false
termination_by structural xs => xs

/-- `same` of each field. -/
def sameFields : List (String × Json) → List (String × Json) → Bool
  | [], [] => true
  | f :: fs, g :: gs => sameField f g && sameFields fs gs
  | _, _ => false
termination_by structural fs => fs

/-- The same key with the same value. -/
def sameField : String × Json → String × Json → Bool
  | (k, v), (l, w) => k == l && same v w
termination_by structural f => f

end

mutual

theorem same_iff : ∀ v w : Json, same v w = true ↔ v = w
  | undefined, w => by cases w <;> simp [same]
  | null, w => by cases w <;> simp [same]
  | bool a, w => by cases w <;> simp [same]
  | num a, w => by cases w <;> simp [same]
  | str a, w => by cases w <;> simp [same]
  | arr xs, w => by
    cases w with
    | arr ys => rw [same, sameAll_iff xs ys, arr.injEq]
    | _ => simp [same]
  | obj fs, w => by
    cases w with
    | obj gs => rw [same, sameFields_iff fs gs, obj.injEq]
    | _ => simp [same]

theorem sameAll_iff : ∀ xs ys : List Json, sameAll xs ys = true ↔ xs = ys
  | [], ys => by cases ys <;> simp [sameAll]
  | x :: xs, ys => by
    cases ys with
    | nil => simp [sameAll]
    | cons y ys =>
      rw [sameAll, Bool.and_eq_true, same_iff x y, sameAll_iff xs ys,
        List.cons.injEq]

theorem sameFields_iff :
    ∀ fs gs : List (String × Json), sameFields fs gs = true ↔ fs = gs
  | [], gs => by cases gs <;> simp [sameFields]
  | f :: fs, gs => by
    cases gs with
    | nil => simp [sameFields]
    | cons g gs =>
      rw [sameFields, Bool.and_eq_true, sameField_iff f g, sameFields_iff fs gs,
        List.cons.injEq]

theorem sameField_iff : ∀ f g : String × Json, sameField f g = true ↔ f = g
  | (k, v), (l, w) => by
    rw [sameField, Bool.and_eq_true, beq_iff_eq, same_iff v w, Prod.mk.injEq]

end

instance : DecidableEq Json := fun v w => decidable_of_iff _ (same_iff v w)

/-! ## `JSON.stringify` -/

mutual

/-- `JSON.stringify v`: the text of a value, if it has one. -/
def stringify : Json → Option Json
  | undefined => none
  | null => some null
  | bool b => some (bool b)
  | num n => some (num n)
  | str s => some (str s)
  | arr xs => some (arr (stringifyAll xs))
  | obj fs => some (obj (stringifyFields fs))

/-- The texts of the elements of an array. -/
def stringifyAll : List Json → List Json
  | [] => []
  | x :: xs => (stringify x).getD null :: stringifyAll xs

/-- The texts of the fields that have one. -/
def stringifyFields : List (String × Json) → List (String × Json)
  | [] => []
  | f :: fs => (stringifyField f).toList ++ stringifyFields fs

/-- The text of a field, if its value has one. -/
def stringifyField : String × Json → Option (String × Json)
  | (k, v) => (stringify v).map (fun t => (k, t))

end

attribute [simp] stringifyAll stringifyFields stringifyField

@[simp] theorem stringify_undefined : stringify undefined = none := rfl

@[simp] theorem stringify_str (s : String) : stringify (str s) = some (str s) := rfl

@[simp] theorem stringify_obj (fs : List (String × Json)) :
    stringify (obj fs) = some (obj (stringifyFields fs)) := rfl

mutual

/-- **A text is its own text**: `JSON.parse` reads back what was written. -/
theorem stringify_stringify :
    ∀ v t : Json, stringify v = some t → stringify t = some t
  | undefined, t, h => nomatch h
  | null, t, h => by cases h; rfl
  | bool b, t, h => by cases h; rfl
  | num n, t, h => by cases h; rfl
  | str s, t, h => by cases h; rfl
  | arr xs, t, h => by
    cases h
    rw [stringify, stringifyAll_stringifyAll xs]
  | obj fs, t, h => by
    cases h
    rw [stringify, stringifyFields_stringifyFields fs]

theorem stringifyAll_stringifyAll :
    ∀ xs : List Json, stringifyAll (stringifyAll xs) = stringifyAll xs
  | [] => rfl
  | x :: xs => by
    rw [stringifyAll, stringifyAll, stringifyAll_stringifyAll xs]
    cases hx : stringify x with
    | none => rfl
    | some t => rw [Option.getD_some, stringify_stringify x t hx]; rfl

theorem stringifyFields_stringifyFields :
    ∀ fs : List (String × Json),
      stringifyFields (stringifyFields fs) = stringifyFields fs
  | [] => rfl
  | (k, v) :: fs => by
    rw [stringifyFields, stringifyField]
    cases hv : stringify v with
    | none => exact stringifyFields_stringifyFields fs
    | some t =>
      show stringifyFields ((k, t) :: stringifyFields fs)
        = (k, t) :: stringifyFields fs
      rw [stringifyFields, stringifyField, stringify_stringify v t hv,
        stringifyFields_stringifyFields fs]
      rfl

end

end Json
