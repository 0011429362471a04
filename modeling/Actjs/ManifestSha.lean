import Actjs.ClassRegistry
import Actjs.JsonQuote
import Actjs.OwnProperties
import Mathlib.Logic.Equiv.Basic

/-!
# The identity of a manifest

`manifestSha256` sorts the entries of a manifest by name, sets them on a plain object
one after another, and hashes its text. `GET /v1/manifest` makes such an object too,
in the order of the manifest, and stores it under the hash.

A plain object takes every name that can be published except `__proto__`, which is
the name of a setter it inherits: a version set by that name is dropped. So the hash
of a manifest says what the manifest is, and what is stored is the manifest, exactly
where `__proto__` is not in it.
-/

open OwnProperties

/-! ## Manifests -/

/-- `^[A-Za-z_][A-Za-z0-9_]*$`, of `ClassNameParam`. -/
def isClassName (name : String) : Bool :=
  match name.toList with
  | [] => false
  | c :: cs => (c.isAlpha || c == '_') && cs.all (fun c => c.isAlphanum || c == '_')

/-- **A manifest.** -/
abbrev Manifest := OrderedMap ClassName Version

/-- `manifestFromEntries`. -/
def manifestFromEntries (entries : List (ClassName × Version)) : Manifest :=
  .ofEntries entries

/-- What `manifestSha256` sorts by. -/
def byName (a b : ClassName × Version) : Bool := stringLe a.fst b.fst

/-- The entries, sorted by name. -/
def sortedEntries (m : Manifest) : List (ClassName × Version) := m.entries.mergeSort byName

/-- The text that `manifestSha256` hashes. -/
def canonicalText (m : Manifest) : String :=
  let obj := (sortedEntries m).foldl assign .empty
  JsonQuote.renderObject (listed obj)

/-- **`manifestSha256`.** -/
def manifestSha256 (sha256 : String → String) (m : Manifest) : String :=
  sha256 (canonicalText m)

/-- The object that `GET /v1/manifest` stores under the hash. -/
def storedManifest (m : Manifest) : OrderedMap ClassName Version :=
  m.entries.foldl assign .empty

/-- **A manifest of classes that can be published.** -/
structure PublishedManifest where
  map : Manifest
  names : ∀ e ∈ map.entries, isClassName e.fst = true

/-- **Two manifests are identified**: the hash says which of them it is; what is
stored under it has the entries of the manifest, and the same hash. -/
structure Identified (sha256 : String → String) (m m' : PublishedManifest) : Prop where
  sha : manifestSha256 sha256 m.map = manifestSha256 sha256 m'.map
    ↔ ∀ name, m.map.get name = m'.map.get name
  stored : ∀ n ∈ [m, m'], (storedManifest n.map).entries.Perm n.map.entries
  rehashed : ∀ n ∈ [m, m'],
    manifestSha256 sha256 (manifestFromEntries (listed (storedManifest n.map)))
      = manifestSha256 sha256 n.map

/-! ## Names that can be published -/

theorem letter_range {c : Char} (h : c.isAlpha = true) : 65 ≤ c.toNat ∧ c.toNat ≤ 122 := by
  obtain hc | hc := Bool.or_eq_true_iff.mp (show (c.isUpper || c.isLower) = true from h)
  · obtain ⟨hA, hZ⟩ := of_decide_eq_true hc
    have hle : c.toNat ≤ 90 := UInt32.le_iff_toNat_le.mp hZ
    exact ⟨UInt32.le_iff_toNat_le.mp hA, by omega⟩
  · obtain ⟨ha, hz⟩ := Bool.and_eq_true_iff.mp hc
    have hle : 97 ≤ c.toNat := UInt32.le_iff_toNat_le.mp (of_decide_eq_true ha)
    exact ⟨by omega, UInt32.le_iff_toNat_le.mp (of_decide_eq_true hz)⟩

theorem digit_le {c : Char} (h : c.isDigit = true) : c.toNat ≤ 57 := by
  obtain ⟨-, h9⟩ := Bool.and_eq_true_iff.mp h
  exact UInt32.le_iff_toNat_le.mp (of_decide_eq_true h9)

theorem exists_head {name : String} (h : isClassName name = true) :
    ∃ c, name.toList.head? = some c ∧ c.isDigit = false := by
  unfold isClassName at h
  cases hs : name.toList with
  | nil => exact absurd (hs ▸ h) (by simp)
  | cons c cs =>
    rw [hs] at h
    have hc := (Bool.and_eq_true_iff.mp h).1
    refine ⟨c, rfl, ?_⟩
    rw [Bool.or_eq_true, beq_iff_eq] at hc
    obtain hc | rfl := hc
    · rw [← Bool.not_eq_true]
      intro hd
      have hA := (letter_range hc).1
      have h9 := digit_le hd
      omega
    · rfl

/-- They are no array indices, -/
theorem arrayIndex_of_isClassName {name : String} (h : isClassName name = true) :
    arrayIndex name = none := by
  obtain ⟨c, hc, hd⟩ := exists_head h
  exact arrayIndex_eq_none hc hd

/-- and have one code unit for a character. -/
theorem toNat_lt {name : String} (h : isClassName name = true) :
    ∀ c ∈ name.toList, c.toNat < 65536 := by
  have hword : ∀ c : Char, (c.isAlphanum || c == '_') = true → c.toNat < 65536 := by
    intro c hc
    rw [Bool.or_eq_true, beq_iff_eq] at hc
    obtain hc | rfl := hc
    · obtain ha | hd := Bool.or_eq_true_iff.mp hc
      · have hz := (letter_range ha).2
        omega
      · have h9 := digit_le hd
        omega
    · decide
  unfold isClassName at h
  intro c hc
  cases hs : name.toList with
  | nil => exact absurd (hs ▸ hc) List.not_mem_nil
  | cons d ds =>
    rw [hs] at h hc
    obtain ⟨hd, hds⟩ := Bool.and_eq_true_iff.mp h
    obtain rfl | hc := List.mem_cons.mp hc
    · refine hword c ?_
      rw [Bool.or_eq_true] at hd ⊢
      exact hd.imp_left (fun ha => Bool.or_eq_true_iff.mpr (.inl ha))
    · exact hword c (List.all_eq_true.mp hds c hc)

/-! ## What a plain object keeps

Everything but `__proto__`. Names that can be published are no array indices,
so they are listed in the order they were set. -/

section Objects

variable {m m' : PublishedManifest} {es : List (ClassName × Version)}

/-- Nothing is dropped where there is no `__proto__`. -/
theorem filter_eq (h : m.map.get "__proto__" = none) (hp : es.Perm m.map.entries) :
    es.filter (fun e => e.fst ≠ "__proto__") = es := by
  refine List.filter_eq_self.mpr (fun e he => ?_)
  exact decide_eq_true (OrderedMap.get_eq_none.mp h e (hp.mem_iff.mp he))

/-- An object that is made of the entries, in whatever order, lists them. -/
theorem listed_foldl_assign (hp : es.Perm m.map.entries) :
    listed (es.foldl assign .empty) = es.filter (fun e => e.fst ≠ "__proto__") := by
  have hn : (es.map Prod.fst).Nodup := (hp.map Prod.fst).nodup_iff.mpr m.map.nodup
  rw [listed_eq, entries_foldl_assign hn]
  intro e he
  rw [entries_foldl_assign hn] at he
  have hm := hp.mem_iff.mp (List.mem_filter.mp he).1
  exact arrayIndex_of_isClassName (m.names e hm)

/-- What is stored is the manifest, where `__proto__` is not in it, -/
theorem entries_storedManifest (h : m.map.get "__proto__" = none) :
    (storedManifest m.map).entries = m.map.entries := by
  unfold storedManifest
  rw [entries_foldl_assign m.map.nodup, filter_eq h (.refl _)]

/-- and only there. -/
theorem get_proto (h : (storedManifest m.map).entries.Perm m.map.entries) :
    m.map.get "__proto__" = none := by
  refine OrderedMap.get_eq_none.mpr (fun e he hp => ?_)
  have hm := h.mem_iff.mpr he
  unfold storedManifest at hm
  rw [entries_foldl_assign m.map.nodup] at hm
  exact absurd hp (of_decide_eq_true (List.mem_filter.mp hm).2)

/-! ## What the text says

Sorted by name, the entries are determined by the manifest, and the text
determines them back. -/

/-- The sorted entries are those of the manifest. -/
theorem sorted_perm : (sortedEntries m.map).Perm m.map.entries :=
  List.mergeSort_perm _ _

theorem byName_trans (a b c : ClassName × Version) (hab : byName a b = true)
    (hbc : byName b c = true) : byName a c = true := stringLe_trans _ _ _ hab hbc

theorem byName_total (a b : ClassName × Version) : (byName a b || byName b a) = true :=
  stringLe_total _ _

theorem pairwise_sorted :
    (sortedEntries m.map).Pairwise (fun a b => byName a b = true) :=
  List.pairwise_mergeSort byName_trans byName_total _

/-- **Manifests with the same values** have the same sorted entries. -/
theorem sorted_eq (h : ∀ name, m.map.get name = m'.map.get name) :
    sortedEntries m.map = sortedEntries m'.map := by
  refine List.Perm.eq_of_pairwise (fun a b ha hb hab hba => ?_) pairwise_sorted
    pairwise_sorted
    ((sorted_perm.trans (OrderedMap.perm_iff.mpr h)).trans sorted_perm.symm)
  -- entries of one name are one entry
  have ha := sorted_perm.mem_iff.mp ha
  have hb := sorted_perm.mem_iff.mp hb
  have hname : a.fst = b.fst := eq_of_stringLe (toNat_lt (m.names a ha))
    (toNat_lt (m'.names b hb)) hab hba
  have hva := OrderedMap.mem_entries.mp ha
  rw [hname, h, OrderedMap.mem_entries.mp hb] at hva
  exact Prod.ext hname (Option.some.inj hva).symm

/-- **The text says what the manifest is**, where `__proto__` is not in it. -/
theorem canonicalText_eq_iff (h : m.map.get "__proto__" = none)
    (h' : m'.map.get "__proto__" = none) :
    canonicalText m.map = canonicalText m'.map ↔ ∀ name, m.map.get name = m'.map.get name := by
  constructor
  · intro ht
    have hes := JsonQuote.renderObject_injective ht
    rw [listed_foldl_assign sorted_perm, listed_foldl_assign sorted_perm,
      filter_eq h sorted_perm, filter_eq h' sorted_perm] at hes
    exact OrderedMap.perm_iff.mp (sorted_perm.symm.trans (hes ▸ sorted_perm))
  · intro hget
    unfold canonicalText
    rw [sorted_eq hget]

end Objects

/-! ## The hash -/

section Hash

variable {sha256 : String → String} {m m' : PublishedManifest}

/-- What is stored has the hash of the manifest, where `__proto__` is not in it. -/
theorem manifestSha256_storedManifest (h : m.map.get "__proto__" = none) :
    manifestSha256 sha256 (manifestFromEntries (listed (storedManifest m.map)))
      = manifestSha256 sha256 m.map := by
  have hlisted : listed (storedManifest m.map) = m.map.entries := by
    unfold storedManifest
    rw [listed_foldl_assign (.refl _), filter_eq h (.refl _)]
  have hentries : (manifestFromEntries m.map.entries).entries = m.map.entries :=
    OrderedMap.entries_ofEntries m.map.nodup
  unfold manifestSha256 canonicalText sortedEntries
  rw [hlisted, hentries]

/-- **Manifests are identified exactly if neither has `__proto__`.** -/
theorem identified_iff (hsha : Function.Injective sha256) : Identified sha256 m m'
    ↔ m.map.get "__proto__" = none ∧ m'.map.get "__proto__" = none := by
  constructor
  · intro h
    exact ⟨get_proto (h.stored m List.mem_cons_self),
      get_proto (h.stored m' (List.mem_cons_of_mem _ List.mem_cons_self))⟩
  · rintro ⟨h, h'⟩
    have hboth : ∀ n ∈ [m, m'], n.map.get "__proto__" = none := by
      simp [h, h']
    exact
      { sha := hsha.eq_iff.trans (canonicalText_eq_iff h h')
        stored := fun n hn => .of_eq (entries_storedManifest (hboth n hn))
        rehashed := fun n hn => manifestSha256_storedManifest (hboth n hn) }

end Hash

/-- A cart and an order, in one order -/
def cartAndOrder : PublishedManifest :=
  ⟨manifestFromEntries [("Cart", "1.0.0"), ("Order", "2.0.0")], by decide⟩

/-- and in the other. -/
def orderAndCart : PublishedManifest :=
  ⟨manifestFromEntries [("Order", "2.0.0"), ("Cart", "1.0.0")], by decide⟩

/-- The hash of their text, and what else has to change places with it. -/
def cartSha256 : Equiv.Perm String :=
  Equiv.swap "\x7b\"Cart\":\"1.0.0\",\"Order\":\"2.0.0\"\x7d"
    "1fe3c9d2a53c8577cc33c5afaf1283d9763af465d120656cbb4bfc187f1fac12"

/-- They are one manifest. -/
theorem identified_iff_cart : Identified cartSha256 cartAndOrder orderAndCart
    ∧ manifestSha256 cartSha256 cartAndOrder.map
      = "1fe3c9d2a53c8577cc33c5afaf1283d9763af465d120656cbb4bfc187f1fac12" := by
  refine ⟨(identified_iff cartSha256.injective).mpr ⟨by decide, by decide⟩, ?_⟩
  have hsorted : sortedEntries cartAndOrder.map = cartAndOrder.map.entries :=
    List.mergeSort_of_pairwise (by decide)
  have hlisted : listed (cartAndOrder.map.entries.foldl assign .empty)
      = cartAndOrder.map.entries := by
    rw [listed_foldl_assign (.refl _)]
    decide
  have htext : canonicalText cartAndOrder.map
      = "\x7b\"Cart\":\"1.0.0\",\"Order\":\"2.0.0\"\x7d" := by
    unfold canonicalText
    rw [hsorted]
    dsimp only
    rw [hlisted]
    rfl
  unfold manifestSha256 cartSha256
  rw [htext, Equiv.swap_apply_left]

/-- A class named `__proto__`. -/
def protoManifest : PublishedManifest :=
  ⟨manifestFromEntries [("__proto__", "1.0.0")], by decide⟩

/-- **A manifest with `__proto__`** has the hash of the empty one. -/
theorem not_identified : ¬∀ (sha256 : String → String), Function.Injective sha256 →
    ∀ m m' : PublishedManifest, Identified sha256 m m' := by
  intro h
  have htext : canonicalText protoManifest.map
      = canonicalText (manifestFromEntries []) := by
    have hproto : sortedEntries protoManifest.map = [("__proto__", "1.0.0")] :=
      List.mergeSort_singleton _
    have hempty : sortedEntries (manifestFromEntries []) = [] := List.mergeSort_nil
    unfold canonicalText
    rw [hproto, hempty]
    rfl
  have hsame := (h id Function.injective_id protoManifest
    ⟨manifestFromEntries [], by decide⟩).sha.mp htext
  exact absurd (hsame "__proto__") (by decide)
