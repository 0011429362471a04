import Mathlib.Data.List.Basic

/-!
# JavaScript values

Payloads, call arguments, results and events are `unknown` in the source
and plain JSON data at run time. `Json` is that data, with `undefined` kept
apart from `null` because the code tells them apart: a property that is
absent reads as `undefined`, and `'payload' in rec` asks for presence, not
for a value. An object is the list of its own enumerable properties in
insertion order.
-/

/-- A JavaScript value made of plain data. -/
inductive Json where
  | undefined
  | null
  | bool (b : Bool)
  | num (n : Int)
  | str (s : String)
  | arr (xs : List Json)
  | obj (fields : List (String × Json))
deriving Inhabited

namespace Json

/-- `typeof v`. -/
def typeof : Json → String
  | undefined => "undefined"
  | null => "object"
  | bool _ => "boolean"
  | num _ => "number"
  | str _ => "string"
  | arr _ => "object"
  | obj _ => "object"

/-- The truth value of `v` in a condition. -/
def truthy : Json → Bool
  | undefined => false
  | null => false
  | bool b => b
  | num n => n != 0
  | str s => s != ""
  | arr _ => true
  | obj _ => true

/-- `rec[name]`, as a property that may be absent. -/
def get? (name : String) : Json → Option Json
  | obj fields => fields.lookup name
  | _ => none

/-- `const { [name]: _, ...rest } = rec`: the object without a property. -/
def without (name : String) : Json → Json
  | obj fields => obj (fields.filter (fun f => f.fst != name))
  | v => v

end Json
