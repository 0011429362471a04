import Mathlib.Data.List.Nodup
import Mathlib.Data.Nat.Notation
import Mathlib.Logic.Function.Basic

/-!
# Maps of sets without empty sets

A relation between keys and values may be kept as a map from each key to the set
of its values, in the order in which they were added, where a key has an entry
while it has a value. `SetMap.Represents` says that a map keeps a relation so;
`add` and `remove` add a pair to it and take one out.
-/

open Function (update)

/-- A map of sets. -/
structure SetMap (K V : Type) where
  entry : K → Option (List V)

namespace SetMap

variable {K V : Type} [DecidableEq K] [DecidableEq V] {m : SetMap K V} {R R' : K → V → Prop}

/-- The values of a key. -/
def values (m : SetMap K V) (k : K) : List V := (m.entry k).getD []

def empty : SetMap K V := ⟨fun _ => none⟩

/-- Replace the set of a key. -/
def set (m : SetMap K V) (k : K) (vs : Option (List V)) : SetMap K V :=
  ⟨update m.entry k vs⟩

def add (m : SetMap K V) (k : K) (v : V) : SetMap K V :=
  m.set k (some (if v ∈ m.values k then m.values k else m.values k ++ [v]))

/-- The entry goes with its last value. -/
def remove (m : SetMap K V) (k : K) (v : V) : SetMap K V :=
  match m.entry k with
  | none => m
  | some vs =>
    let vs := vs.filter (fun w => w ≠ v)
    m.set k (if vs = [] then none else some vs)

omit [DecidableEq V] in
@[simp] theorem entry_set_self {k : K} {vs : Option (List V)} :
    (m.set k vs).entry k = vs := Function.update_self _ _ _

omit [DecidableEq V] in
theorem entry_set_ne {k k' : K} {vs : Option (List V)} (h : k' ≠ k) :
    (m.set k vs).entry k' = m.entry k' := Function.update_of_ne h _ _

omit [DecidableEq V] in
@[simp] theorem values_set_self {k : K} {vs : Option (List V)} :
    (m.set k vs).values k = vs.getD [] := by
  rw [values, entry_set_self]

omit [DecidableEq V] in
theorem values_set_ne {k k' : K} {vs : Option (List V)} (h : k' ≠ k) :
    (m.set k vs).values k' = m.values k' := by
  rw [values, entry_set_ne h, values]

/-- **The map keeps the relation.** -/
structure Represents (m : SetMap K V) (R : K → V → Prop) : Prop where
  mem : ∀ k v, v ∈ m.values k ↔ R k v
  nonempty : ∀ k, m.entry k ≠ some []
  nodup : ∀ k, (m.values k).Nodup

namespace Represents

omit [DecidableEq K] [DecidableEq V] in
theorem empty : Represents (SetMap.empty : SetMap K V) (fun _ _ => False) where
  mem k v := by simp [SetMap.empty, values]
  nonempty k := by simp [SetMap.empty]
  nodup k := List.nodup_nil

omit [DecidableEq K] [DecidableEq V] in
theorem congr (h : m.Represents R) (hR : ∀ k v, R k v ↔ R' k v) : m.Represents R' :=
  ⟨fun k v => (h.mem k v).trans (hR k v), h.nonempty, h.nodup⟩

omit [DecidableEq V] in
/-- The set of one key is replaced. -/
theorem set {k : K} {vs : Option (List V)} (h : m.Represents R) (hvs : vs ≠ some [])
    (hnodup : (vs.getD []).Nodup) (hR : ∀ v, v ∈ vs.getD [] ↔ R' k v)
    (hne : ∀ k' v, k' ≠ k → (R' k' v ↔ R k' v)) : (m.set k vs).Represents R' := by
  refine ⟨fun k' v => ?_, fun k' => ?_, fun k' => ?_⟩
  · by_cases hk : k' = k
    · rw [hk, values_set_self]
      exact hR v
    · rw [values_set_ne hk, h.mem]
      exact (hne k' v hk).symm
  · by_cases hk : k' = k
    · rw [hk, entry_set_self]
      exact hvs
    · rw [entry_set_ne hk]
      exact h.nonempty k'
  · by_cases hk : k' = k
    · rw [hk, values_set_self]
      exact hnodup
    · rw [values_set_ne hk]
      exact h.nodup k'

theorem add (h : m.Represents R) (k : K) (v : V) :
    (m.add k v).Represents (fun k' v' => R k' v' ∨ k' = k ∧ v' = v) := by
  refine h.set ?_ ?_ (fun v' => ?_) (fun k' v' hk => ?_)
  · split
    · next hv => exact fun hnil => List.ne_nil_of_mem hv (Option.some.inj hnil)
    · exact fun hnil => absurd (Option.some.inj hnil) (by simp)
  · rw [Option.getD_some]
    split
    · exact h.nodup k
    · next hv => exact (h.nodup k).append (List.nodup_singleton v) (by simpa using hv)
  · rw [Option.getD_some, ← h.mem]
    split
    · next hv =>
      exact ⟨.inl, fun hv' => hv'.elim (fun hv' => hv') (fun he => he.2 ▸ hv)⟩
    · rw [List.mem_append, List.mem_singleton, and_iff_right rfl]
  · exact or_iff_left (fun he => hk he.1)

theorem remove (h : m.Represents R) (k : K) (v : V) :
    (m.remove k v).Represents (fun k' v' => R k' v' ∧ ¬(k' = k ∧ v' = v)) := by
  cases hm : m.entry k with
  | none =>
    have he : m.remove k v = m := by rw [SetMap.remove, hm]
    rw [he]
    refine h.congr (fun k' v' => (and_iff_left_of_imp ?_).symm)
    rintro hR ⟨rfl, rfl⟩
    have hv := (h.mem _ _).mpr hR
    rw [values, hm] at hv
    exact absurd hv (by simp)
  | some vs =>
    have hvs : m.values k = vs := by rw [values, hm, Option.getD_some]
    have hget : ((if vs.filter (fun w => w ≠ v) = [] then none
        else some (vs.filter (fun w => w ≠ v)) : Option (List V)).getD [])
        = vs.filter (fun w => w ≠ v) := by
      split
      · next hnil => exact hnil.symm
      · rfl
    rw [SetMap.remove, hm]
    refine h.set ?_ ?_ (fun v' => ?_) (fun k' v' hk => ?_)
    · split
      · simp
      · next hnil => exact fun hs => hnil (Option.some.inj hs)
    · rw [hget]
      exact (hvs ▸ h.nodup k).filter _
    · rw [hget, List.mem_filter, decide_eq_true_eq, ← hvs, h.mem, and_iff_right rfl]
    · exact and_iff_left (fun he => hk he.1)

end Represents

end SetMap
