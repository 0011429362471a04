import Mathlib.Data.List.Nodup
import Mathlib.Data.List.Perm.Basic

/-!
# Maps that keep the order of insertion

A map is a list of entries with distinct keys, in the order in which the keys
were first set: setting a key again replaces its value in place. The order shows
when the entries are listed, and nowhere else: two maps with the same values list
the same entries, in some order.
-/

/-- **A map in insertion order.** -/
structure OrderedMap (K V : Type) where
  entries : List (K × V)
  nodup : (entries.map Prod.fst).Nodup

namespace OrderedMap

variable {K V : Type} [DecidableEq K] {m m' : OrderedMap K V} {k k' : K} {v : V}

def empty : OrderedMap K V := ⟨[], List.nodup_nil⟩

/-- The value of a key. -/
def get (m : OrderedMap K V) (k : K) : Option V := m.entries.lookup k

/-- The entries, with `v` at `k`. -/
def setEntries (k : K) (v : V) : List (K × V) → List (K × V)
  | [] => [(k, v)]
  | e :: es => if e.fst = k then (k, v) :: es else e :: setEntries k v es

omit [DecidableEq K] in
theorem fst_mem {es : List (K × V)} {e : K × V} (h : e ∈ es) : e.fst ∈ es.map Prod.fst :=
  List.mem_map_of_mem h

theorem mem_keys_setEntries {es : List (K × V)} {l : K} :
    l ∈ (setEntries k v es).map Prod.fst ↔ l = k ∨ l ∈ es.map Prod.fst := by
  induction es with
  | nil => simp [setEntries]
  | cons e es ih =>
    rw [setEntries]
    split
    · next h => simp [h]
    · rw [List.map_cons, List.mem_cons, ih, List.map_cons, List.mem_cons]
      tauto

theorem nodup_setEntries {es : List (K × V)} (h : (es.map Prod.fst).Nodup) :
    ((setEntries k v es).map Prod.fst).Nodup := by
  induction es with
  | nil => simp [setEntries]
  | cons e es ih =>
    rw [List.map_cons, List.nodup_cons] at h
    rw [setEntries]
    split
    · next he => exact List.nodup_cons.mpr ⟨he ▸ h.1, h.2⟩
    · next he =>
      refine List.nodup_cons.mpr ⟨fun hm => ?_, ih h.2⟩
      obtain hk | hm := mem_keys_setEntries.mp hm
      · exact he hk
      · exact h.1 hm

/-- `set`. -/
def set (m : OrderedMap K V) (k : K) (v : V) : OrderedMap K V :=
  ⟨setEntries k v m.entries, nodup_setEntries m.nodup⟩

/-- `delete`. -/
def delete (m : OrderedMap K V) (k : K) : OrderedMap K V where
  entries := m.entries.filter (fun e => e.fst ≠ k)
  nodup := m.nodup.sublist (List.filter_sublist.map Prod.fst)

/-- The entries of a list are set one after another. -/
def ofEntries (es : List (K × V)) : OrderedMap K V :=
  es.foldl (fun m e => m.set e.fst e.snd) empty

/-! ## Values -/

@[simp] theorem get_empty : (empty : OrderedMap K V).get k = none := rfl

theorem lookup_setEntries {es : List (K × V)} {l : K} :
    (setEntries k v es).lookup l = if l = k then some v else es.lookup l := by
  induction es with
  | nil =>
    rw [setEntries, List.lookup_cons, List.lookup_nil]
    split <;> simp_all
  | cons e es ih =>
    rw [setEntries]
    split
    · next he =>
      rw [List.lookup_cons, List.lookup_cons, he]
      split <;> simp_all
    · next he =>
      rw [List.lookup_cons, ih, List.lookup_cons]
      split
      · next hl =>
        have hl : l = e.fst := by simpa using hl
        rw [if_neg (hl ▸ he)]
      · rfl

theorem get_set : (m.set k v).get k' = if k' = k then some v else m.get k' :=
  lookup_setEntries

@[simp] theorem get_set_self : (m.set k v).get k = some v := by
  rw [get_set, if_pos rfl]

theorem get_set_ne (h : k' ≠ k) : (m.set k v).get k' = m.get k' := by
  rw [get_set, if_neg h]

/-- **An entry is a key with its value.** -/
theorem mem_entries : (k, v) ∈ m.entries ↔ m.get k = some v := by
  obtain ⟨es, hn⟩ := m
  show (k, v) ∈ es ↔ es.lookup k = some v
  induction es with
  | nil => simp
  | cons e es ih =>
    rw [List.map_cons, List.nodup_cons] at hn
    rw [List.lookup_cons, List.mem_cons]
    split
    · next hk =>
      have hk : k = e.fst := by simpa using hk
      constructor
      · rintro (rfl | hm)
        · rfl
        · exact absurd (fst_mem hm) (hk ▸ hn.1)
      · intro he
        exact .inl (Prod.ext hk (Option.some.inj he).symm)
    · next hk =>
      rw [← ih hn.2]
      refine or_iff_right (fun he => absurd hk ?_)
      simp [← he]

theorem get_eq_none : m.get k = none ↔ ∀ e ∈ m.entries, e.fst ≠ k := by
  constructor
  · rintro h ⟨l, w⟩ he rfl
    exact absurd (h ▸ mem_entries.mp he) (by simp)
  · intro h
    cases hg : m.get k with
    | none => rfl
    | some w => exact absurd rfl (h (k, w) (mem_entries.mpr hg))

theorem get_delete : (m.delete k).get k' = if k' = k then none else m.get k' := by
  split
  · next h =>
    subst h
    exact get_eq_none.mpr (fun e he => of_decide_eq_true (List.mem_filter.mp he).2)
  · next h =>
    ext v
    rw [← mem_entries, ← mem_entries]
    show (k', v) ∈ m.entries.filter _ ↔ _
    simp [h]

/-- A key that is new comes last. -/
theorem entries_set_of_new (h : m.get k = none) :
    (m.set k v).entries = m.entries ++ [(k, v)] := by
  have hk := get_eq_none.mp h
  show setEntries k v m.entries = _
  generalize m.entries = es at hk
  induction es with
  | nil => rfl
  | cons e es ih =>
    rw [setEntries, if_neg (hk e List.mem_cons_self),
      ih (fun e' he' => hk e' (List.mem_cons_of_mem _ he')), List.cons_append]

/-- A key that is there keeps its place. -/
theorem entries_set_of_get {w : V} (h : m.get k = some w) :
    (m.set k v).entries
      = m.entries.map (fun e => if e.fst = k then (k, v) else e) := by
  have hk := mem_entries.mpr h
  have hn := m.nodup
  show setEntries k v m.entries = _
  generalize m.entries = es at hk hn
  induction es with
  | nil => exact absurd hk List.not_mem_nil
  | cons e es ih =>
    rw [List.map_cons, List.nodup_cons] at hn
    rw [setEntries, List.map_cons]
    split
    · next he =>
      -- no entry after it has the key
      have hrest : es.map (fun e => if e.fst = k then (k, v) else e) = es := by
        refine (List.map_congr_left (fun e' he' => ?_)).trans (List.map_id es)
        exact if_neg (fun heq : e'.fst = k => hn.1 (he.trans heq.symm ▸ fst_mem he'))
      rw [hrest]
    · next he =>
      obtain rfl | hk := List.mem_cons.mp hk
      · exact absurd rfl he
      · rw [ih hk hn.2]

/-- Entries whose keys are new, and differ, come last. -/
theorem entries_foldl_set {es : List (K × V)} (hn : (es.map Prod.fst).Nodup)
    (hm : ∀ e ∈ es, m.get e.fst = none) :
    (es.foldl (fun m e => m.set e.fst e.snd) m).entries = m.entries ++ es := by
  induction es generalizing m with
  | nil => simp
  | cons e es ih =>
    rw [List.map_cons, List.nodup_cons] at hn
    have hnew := entries_set_of_new (v := e.snd) (hm e List.mem_cons_self)
    rw [List.foldl_cons, ih hn.2, hnew, List.append_assoc, List.singleton_append]
    intro e' he'
    rw [get_set_ne]
    · exact hm e' (List.mem_cons_of_mem _ he')
    · exact fun h => hn.1 (h ▸ fst_mem he')

/-- The entries of a map are those it is made of. -/
theorem entries_ofEntries {es : List (K × V)} (hn : (es.map Prod.fst).Nodup) :
    (ofEntries es).entries = es :=
  entries_foldl_set hn (fun _ _ => rfl)

/-- **Maps with the same values list the same entries.** -/
theorem perm_iff : m.entries.Perm m'.entries ↔ ∀ k, m.get k = m'.get k := by
  constructor
  · intro h k
    ext v
    rw [← mem_entries, ← mem_entries, h.mem_iff]
  · intro h
    refine (List.perm_ext_iff_of_nodup m.nodup.of_map m'.nodup.of_map).mpr ?_
    rintro ⟨k, v⟩
    rw [mem_entries, mem_entries, h]

end OrderedMap
