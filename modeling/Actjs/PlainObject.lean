import Mathlib.Data.List.Basic

/-!
# Plain objects used as maps

`{}` is a map with a prototype. `o[name]` is the object's own property of
that name, if it has one, and otherwise what every object inherits from
`Object.prototype`: for the names below it is never `undefined`. Code that
takes a lookup for a membership test takes those names for members.
-/

/-- The names every object inherits. -/
def objectPrototype : List String :=
  ["constructor", "__defineGetter__", "__defineSetter__", "hasOwnProperty",
    "__lookupGetter__", "__lookupSetter__", "isPrototypeOf",
    "propertyIsEnumerable", "toString", "valueOf", "__proto__",
    "toLocaleString"]

/-- What `o[name]` is. -/
inductive Member (α : Type*) where
  | own (a : α)
  /-- The member of `Object.prototype` of that name. -/
  | inherited (name : String)
  | undefined

/-- The own properties of a plain object. -/
abbrev PlainObject (α : Type*) := List (String × α)

namespace PlainObject

variable {α : Type*}

/-- `o[name]`. -/
def get (o : PlainObject α) (name : String) : Member α :=
  match o.lookup name with
  | some a => .own a
  | none => if name ∈ objectPrototype then .inherited name else .undefined

/-- `o[name] = a`, as far as it can be read back. -/
def set (o : PlainObject α) (name : String) (a : α) : PlainObject α :=
  (name, a) :: o

@[simp] theorem lookup_set (o : PlainObject α) (name name' : String) (a : α) :
    (o.set name a).lookup name'
      = if name' = name then some a else List.lookup name' o := by
  rw [set, List.lookup_cons]
  split
  · next h => rw [if_pos (by simpa using h)]
  · next h => rw [if_neg (by simpa using h)]

theorem get_of_lookup {o : PlainObject α} {name : String} {a : α}
    (h : o.lookup name = some a) : o.get name = .own a := by
  rw [get, h]

/-- **A name that is no key reads as `undefined`, unless it is inherited.** -/
theorem get_eq_undefined_iff {o : PlainObject α} {name : String}
    (h : o.lookup name = none) :
    o.get name = .undefined ↔ name ∉ objectPrototype := by
  rw [get, h]
  dsimp only
  split
  · next hn => exact iff_of_false nofun (not_not.mpr hn)
  · next hn => exact iff_of_true rfl hn

end PlainObject
