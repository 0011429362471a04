import Actjs.OrderedMap
import Mathlib.Data.Nat.Digits.Defs
import Mathlib.Data.List.Sort
import Mathlib.Data.String.Basic

/-!
# Plain objects whose properties are listed

`obj[name] = value` makes a property of a plain object, or sets it: the names keep
the order in which they were first set. Two things are otherwise than in a map. The
name `__proto__` is that of a setter which every object inherits and which takes an
object or nothing; and the names that are array indices are listed first, in their
order as numbers.

Strings are compared by their code units.
-/

namespace OwnProperties

/-- The code units of a string. -/
def codeUnits (s : String) : List ℕ :=
  s.toList.flatMap (fun c =>
    if c.toNat < 65536 then [c.toNat]
    else [55296 + (c.toNat - 65536) / 1024, 56320 + (c.toNat - 65536) % 1024])

/-- `(a < b ? -1 : a > b ? 1 : 0) <= 0`. -/
def stringLe (a b : String) : Bool := decide (codeUnits a ≤ codeUnits b)

/-- The number that a name is, if it is an array index. -/
def arrayIndex (name : String) : Option ℕ :=
  let digits := name.toList
  let n := Nat.ofDigits 10 (digits.reverse.map (fun c => c.toNat - 48))
  if digits ≠ [] ∧ digits.all Char.isDigit = true ∧ (digits.head? = some '0' → digits = ['0'])
      ∧ n < 2 ^ 32 - 1 then
    some n
  else none

variable {V : Type} {obj : OrderedMap String V} {es : List (String × V)}

/-- `obj[name] = value`, of a value that is no object. -/
def assign (obj : OrderedMap String V) (e : String × V) : OrderedMap String V :=
  if e.fst = "__proto__" then obj else obj.set e.fst e.snd

/-- `Object.entries(obj)`. -/
def listed (obj : OrderedMap String V) : List (String × V) :=
  (obj.entries.filter (fun e => (arrayIndex e.fst).isSome)).mergeSort
      (fun a b => decide ((arrayIndex a.fst).getD 0 ≤ (arrayIndex b.fst).getD 0))
    ++ obj.entries.filter (fun e => (arrayIndex e.fst).isNone)

/-! ## The order of names -/

theorem stringLe_trans (a b c : String) (hab : stringLe a b = true)
    (hbc : stringLe b c = true) : stringLe a c = true :=
  decide_eq_true ((of_decide_eq_true hab).trans (of_decide_eq_true hbc))

theorem stringLe_total (a b : String) : (stringLe a b || stringLe b a) = true := by
  rw [Bool.or_eq_true]
  exact (le_total (codeUnits a) (codeUnits b)).imp decide_eq_true decide_eq_true

/-- Characters of one code unit each. -/
theorem codeUnits_eq {s : String} (h : ∀ c ∈ s.toList, c.toNat < 65536) :
    codeUnits s = s.toList.map Char.toNat := by
  unfold codeUnits
  generalize s.toList = cs at h
  induction cs with
  | nil => rfl
  | cons c cs ih =>
    rw [List.flatMap_cons, if_pos (h c List.mem_cons_self),
      ih (fun d hd => h d (List.mem_cons_of_mem _ hd)), List.map_cons,
      List.singleton_append]

theorem eq_of_stringLe {a b : String} (ha : ∀ c ∈ a.toList, c.toNat < 65536)
    (hb : ∀ c ∈ b.toList, c.toNat < 65536) (hab : stringLe a b = true)
    (hba : stringLe b a = true) : a = b := by
  have h := le_antisymm (of_decide_eq_true hab) (of_decide_eq_true hba)
  rw [codeUnits_eq ha, codeUnits_eq hb] at h
  exact String.toList_injective (List.map_injective_iff.mpr (fun _ _ => Char.toNat_inj.mp) h)

/-! ## What an object keeps -/

/-- A name that does not begin with a digit is no array index. -/
theorem arrayIndex_eq_none {name : String} {c : Char} (h : name.toList.head? = some c)
    (hc : c.isDigit = false) : arrayIndex name = none := by
  unfold arrayIndex
  dsimp only
  refine if_neg (fun hall => ?_)
  have hd := List.all_eq_true.mp hall.2.1 c (List.mem_of_head? h)
  exact absurd (hc.symm.trans hd) (by decide)

/-- Without array indices, the properties are listed in the order of the object. -/
theorem listed_eq (h : ∀ e ∈ obj.entries, arrayIndex e.fst = none) :
    listed obj = obj.entries := by
  unfold listed
  rw [List.filter_eq_nil_iff.mpr, List.filter_eq_self.mpr, List.mergeSort_nil,
    List.nil_append]
  · intro e he
    rw [h e he, Option.isNone_none]
  · intro e he
    rw [h e he]
    exact Bool.false_ne_true

theorem foldl_assign :
    es.foldl assign obj
      = (es.filter (fun e => e.fst ≠ "__proto__")).foldl (fun o e => o.set e.fst e.snd) obj := by
  induction es generalizing obj with
  | nil => rfl
  | cons e es ih =>
    rw [List.foldl_cons, ih, assign, List.filter_cons]
    by_cases he : e.fst = "__proto__"
    · simp [he]
    · simp [he]

/-- **An object keeps** all properties but that of `__proto__`. -/
theorem entries_foldl_assign (hn : (es.map Prod.fst).Nodup) :
    (es.foldl assign .empty).entries = es.filter (fun e => e.fst ≠ "__proto__") := by
  rw [foldl_assign, OrderedMap.entries_foldl_set]
  · rfl
  · exact hn.sublist (List.filter_sublist.map Prod.fst)
  · exact fun _ _ => rfl

end OwnProperties
