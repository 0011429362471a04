import Actjs.Loader
import Actjs.Transition
import Mathlib.Data.List.Forall2

/-!
# Whether the drivers agree on the class registry

The same operations are made on both drivers. They keep the same versions, and
deprecate them alike, as long as every deprecation is of a version that is known,
is given a time that Postgres keeps – not zero, which it takes for none, and not
beyond the times of a `Date` – or is given none and finds none; and as long as the
names and versions have no `@`, by which the memory driver joins them.

Whatever the operations, what the loader refuses as expired is what the pin hook
finds expired, on either driver.
-/

/-! ## Both drivers at once

Every operation is made on both, and what the two said of it is kept side by
side. -/

/-- **The drivers side by side**, with what each operation so far has come to on the
one and on the other. -/
structure ClassRegistries where
  memory : MemoryRegistry
  pg : PgRegistry
  outcomes : List (Except RegistryError Unit × Except RegistryError Unit)

namespace ClassRegistries

def init : ClassRegistries := ⟨.empty, .empty, []⟩

/-- An operation, at its time, on both. One that is refused leaves the driver as it
was. -/
def step (pg : PgPlatform) (d : ClassRegistries) (x : ℤ × ClassOp) :
    Option ClassRegistries :=
  let m := d.memory.apply x.fst x.snd
  let t := d.pg.apply pg x.fst x.snd
  some
    { memory := m.toOption.getD d.memory
      pg := t.toOption.getD d.pg
      outcomes := d.outcomes ++ [(m.map (fun _ => ()), t.map (fun _ => ()))] }

/-- The grace time of a version, if the version is known. -/
def grace (d : ClassRegistries) (name : ClassName) (version : Version) :
    Option (Option ℕ) :=
  (d.memory.classVersions.get (MemoryRegistry.key name version)).map
    (fun v => v.record.graceUntil)

/-- **What the drivers treat alike.** -/
def alike (d : ClassRegistries) : ℤ × ClassOp → Bool
  | (_, .publishClass input) =>
    !input.name.toList.contains '@' && !input.version.toList.contains '@'
  | (_, .deprecateClassVersion name version graceUntil) =>
    match d.grace name version, graceUntil with
    | none, none => false
    | none, some ms => decide (maxTime < ms)
    | some g, none => g == none
    | some _, some ms => ms != 0 && decide (ms ≤ maxTime)

/-- **The drivers agree**: on which operations succeed, on which versions are
published, deprecated and until when; and on each of them the loader refuses as
expired what the pin hook finds expired. -/
structure Agree (d : ClassRegistries) : Prop where
  outcomes : ∀ o ∈ d.outcomes, o.fst.isOk = o.snd.isOk
  listed : ∀ name, ((d.memory.listClassVersions name).map ListedVersion.fields).Perm
    ((d.pg.listClassVersions name).map ListedVersion.fields)
  expired : ∀ driver ∈ [d.memory.driver, d.pg.driver], ∀ (C : Type)
    (compile : List UInt8 → Except (List String) C) (l : ClassLoader C)
    (resolved : List (ClassName × Version)) (name : ClassName) (version : Version)
    (now : ℤ), (name, version) ∈ (classifyPin driver resolved now).expired
      ↔ (name, version) ∈ resolved
        ∧ ∃ g, (l.load compile driver name version now).fst
          = .error (.classVersionExpired name version g)

end ClassRegistries

/-! ## Keys

`name@version` determines name and version only where neither has an `@`. -/

namespace MemoryRegistry

theorem toList_key (name : ClassName) (version : Version) :
    (key name version).toList = name.toList ++ '@' :: version.toList := by
  simp [key]

/-- A text with one `@` is split there alone. -/
theorem split_at {a b c d : List Char} (h : a ++ '@' :: b = c ++ '@' :: d)
    (hc : '@' ∉ c) (hd : '@' ∉ d) : a = c ∧ b = d := by
  have hcount := congrArg (List.count '@') h
  simp only [List.count_append, List.count_cons_self, List.count_eq_zero.mpr hc,
    List.count_eq_zero.mpr hd] at hcount
  have ha : '@' ∉ a := List.count_eq_zero.mp (by omega)
  clear hcount
  induction a generalizing c with
  | nil =>
    cases c with
    | nil => exact ⟨rfl, (List.cons.inj h).2⟩
    | cons x c => exact absurd (List.cons.inj h).1 (fun he => hc (he ▸ List.mem_cons_self))
  | cons x a ih =>
    cases c with
    | nil => exact absurd (List.cons.inj h).1 (fun he => ha (he ▸ List.mem_cons_self))
    | cons y c =>
      obtain ⟨rfl, ht⟩ := List.cons.inj h
      obtain ⟨rfl, hb⟩ := ih ht (fun hm => hc (List.mem_cons_of_mem _ hm))
        (fun hm => ha (List.mem_cons_of_mem _ hm))
      exact ⟨rfl, hb⟩

/-- The key of a name and a version without `@` is theirs alone, -/
theorem key_inj {name name' : ClassName} {version version' : Version}
    (hn : '@' ∉ name'.toList) (hv : '@' ∉ version'.toList) :
    key name version = key name' version' ↔ name = name' ∧ version = version' := by
  constructor
  · intro h
    have hl := congrArg String.toList h
    rw [toList_key, toList_key] at hl
    obtain ⟨h₁, h₂⟩ := split_at hl hn hv
    exact ⟨String.toList_injective h₁, String.toList_injective h₂⟩
  · rintro ⟨rfl, rfl⟩
    rfl

/-- and begins with the name alone. -/
theorem prefix_key {name name' : ClassName} {version' : Version}
    (hn : '@' ∉ name'.toList) (hv : '@' ∉ version'.toList) :
    (name ++ "@").toList.isPrefixOf (key name' version').toList = true
      ↔ name' = name := by
  rw [List.isPrefixOf_iff_prefix, toList_key, String.toList_append]
  constructor
  · rintro ⟨t, ht⟩
    have ht : name.toList ++ '@' :: t = name'.toList ++ '@' :: version'.toList := by
      simpa using ht
    exact (String.toList_injective (split_at ht hn hv).1).symm
  · rintro rfl
    exact ⟨version'.toList, by simp⟩

end MemoryRegistry

/-! ## The same rows

Entry for row, in the order of publication. An operation that both drivers
treat alike keeps them so, and that is the condition. -/

/-- An entry of the memory driver and a row of Postgres are the same version, alike
deprecated; no name has an `@`. -/
structure SameVersion (e : String × ListedVersion) (row : ClassVersionRow) : Prop where
  key : e.fst = MemoryRegistry.key row.name row.version
  version : e.snd.version = row.version
  deprecatedAt : e.snd.record.deprecatedAt = row.deprecated_at
  graceUntil : e.snd.record.graceUntil = row.grace_until
  marked : row.grace_until ≠ none → row.deprecated_at ≠ none
  name_at : '@' ∉ row.name.toList
  version_at : '@' ∉ row.version.toList

namespace SameVersion

variable {e : String × ListedVersion} {row : ClassVersionRow} {name : ClassName}
  {version : Version}

theorem fields (h : SameVersion e row) : e.snd.fields = row.toListed.fields := by
  show (e.snd.version, e.snd.record.deprecatedAt, e.snd.record.graceUntil)
    = (row.version, row.deprecated_at, row.grace_until)
  rw [h.version, h.deprecatedAt, h.graceUntil]

/-- Both are of the version that is asked for, or neither is. -/
theorem isOf_iff (h : SameVersion e row) :
    e.fst = MemoryRegistry.key name version ↔ row.isOf name version = true := by
  rw [h.key, eq_comm, MemoryRegistry.key_inj h.name_at h.version_at, ClassVersionRow.isOf,
    Bool.and_eq_true, beq_iff_eq, beq_iff_eq, eq_comm (a := name),
    eq_comm (a := version)]

end SameVersion

/-- **The drivers keep the same**, in the same order. -/
def ClassRegistries.Same (d : ClassRegistries) : Prop :=
  List.Forall₂ SameVersion d.memory.classVersions.entries d.pg.classVersion

theorem exists_of_mem_left {α β : Type} {R : α → β → Prop} {xs : List α} {ys : List β}
    (h : List.Forall₂ R xs ys) {x : α} (hx : x ∈ xs) : ∃ y ∈ ys, R x y := by
  induction h with
  | nil => exact absurd hx List.not_mem_nil
  | cons hr _ ih =>
    obtain rfl | hx := List.mem_cons.mp hx
    · exact ⟨_, List.mem_cons_self, hr⟩
    · obtain ⟨y, hy, hxy⟩ := ih hx
      exact ⟨y, List.mem_cons_of_mem _ hy, hxy⟩

namespace ClassRegistries

variable {d : ClassRegistries} {pg : PgPlatform} {now : ℤ} {name : ClassName}
  {version : Version} {graceUntil : Option ℕ}

/-- A version is known to both or to neither. -/
theorem Same.known_iff (h : d.Same) :
    (d.memory.classVersions.get (MemoryRegistry.key name version)).isSome = true
      ↔ d.pg.classVersion.any (ClassVersionRow.isOf name version) = true := by
  rw [Option.isSome_iff_exists, List.any_eq_true]
  constructor
  · rintro ⟨v, hv⟩
    obtain ⟨row, hrow, hs⟩ := exists_of_mem_left h (OrderedMap.mem_entries.mpr hv)
    exact ⟨row, hrow, hs.isOf_iff.mp rfl⟩
  · rintro ⟨row, hrow, ho⟩
    obtain ⟨e, he, hs⟩ := exists_of_mem_left h.flip hrow
    exact ⟨e.snd, OrderedMap.mem_entries.mp (hs.isOf_iff.mpr ho ▸ he)⟩

/-- **They list the same.** -/
theorem Same.listed (h : d.Same) (name : ClassName) :
    ((d.memory.listClassVersions name).map ListedVersion.fields).Perm
      ((d.pg.listClassVersions name).map ListedVersion.fields) := by
  have hfilter : ((d.memory.classVersions.entries.filter
        (fun e => (name ++ "@").toList.isPrefixOf e.fst.toList)).map Prod.snd).map
          ListedVersion.fields
      = ((d.pg.classVersion.filter (fun row => row.name == name)).map
          ClassVersionRow.toListed).map ListedVersion.fields := by
    unfold Same at h
    generalize d.memory.classVersions.entries = es, d.pg.classVersion = rows at h ⊢
    induction h with
    | nil => rfl
    | @cons e row es rows hs _ ih =>
      have hiff : (name ++ "@").toList.isPrefixOf e.fst.toList = (row.name == name) := by
        rw [Bool.eq_iff_iff, beq_iff_eq, hs.key]
        exact MemoryRegistry.prefix_key hs.name_at hs.version_at
      rw [List.filter_cons, List.filter_cons, hiff]
      split
      · rw [List.map_cons, List.map_cons, List.map_cons, List.map_cons, ih, hs.fields]
      · exact ih
  refine (List.Perm.of_eq hfilter).trans ?_
  exact ((List.mergeSort_perm _ _).symm.map _).map _

/-- A publication is refused by both, or makes the same version. -/
theorem Same.publish {input : PublishClassInput} (h : d.Same)
    (hn : '@' ∉ input.name.toList) (hv : '@' ∉ input.version.toList) :
    (d.memory.publishClass now input).isOk = (d.pg.publishClass pg now input).isOk
      ∧ List.Forall₂ SameVersion
        ((d.memory.publishClass now input).toOption.getD d.memory).classVersions.entries
        ((d.pg.publishClass pg now input).toOption.getD d.pg).classVersion := by
  have hk : (d.memory.classVersions.get
      (MemoryRegistry.key input.name input.version)).isSome = true ↔ _ := h.known_iff
  unfold MemoryRegistry.publishClass PgRegistry.publishClass
  dsimp only
  by_cases hknown : d.pg.classVersion.any
      (ClassVersionRow.isOf input.name input.version) = true
  · rw [if_pos hknown, if_pos (hk.mpr hknown)]
    exact ⟨rfl, h⟩
  · have hnew := mt hk.mp hknown
    rw [if_neg hknown, if_neg hnew]
    refine ⟨rfl, ?_⟩
    show List.Forall₂ SameVersion (d.memory.classVersions.set _ _).entries _
    rw [OrderedMap.entries_set_of_new (by simpa using hnew)]
    refine List.rel_append h (.cons ?_ .nil)
    exact ⟨rfl, rfl, rfl, rfl, by simp [PgRegistry.rowOf], hn, hv⟩

/-- A deprecation with a time that both keep makes the same of the version. -/
theorem Same.deprecates {v : ListedVersion} {g : Option ℕ} (h : d.Same)
    (hv : d.memory.classVersions.get (MemoryRegistry.key name version) = some v)
    (hg : g = graceUntil.or v.record.graceUntil) :
    List.Forall₂ SameVersion
      (d.memory.classVersions.set (MemoryRegistry.key name version)
        (MemoryRegistry.deprecated now graceUntil v)).entries
      (d.pg.classVersion.map (fun row =>
        if row.isOf name version = true then
          { row with deprecated_at := some now, grace_until := g }
        else row)) := by
  rw [OrderedMap.entries_set_of_get hv, List.forall₂_map_left_iff,
    List.forall₂_map_right_iff]
  refine List.Forall₂.imp ?_ (List.forall₂_and_left (p := fun e =>
    e.fst = MemoryRegistry.key name version → e.snd = v) _ _ |>.mpr ⟨?_, h⟩)
  · rintro e row ⟨he, hs⟩
    by_cases hk : e.fst = MemoryRegistry.key name version
    · rw [if_pos hk, if_pos (hs.isOf_iff.mp hk)]
      have hev := he hk
      exact ⟨hk.symm.trans hs.key, hev ▸ hs.version, rfl, hg.symm, by simp, hs.name_at,
        hs.version_at⟩
    · rw [if_neg hk, if_neg (mt hs.isOf_iff.mpr hk)]
      exact hs
  · rintro ⟨k, w⟩ he rfl
    exact Option.some.inj ((OrderedMap.mem_entries.mp he).symm.trans hv)

/-- On either driver a version with a grace time is deprecated. -/
theorem Same.marked (h : d.Same) : ∀ driver ∈ [d.memory.driver, d.pg.driver],
    driver.Marked := by
  intro driver hd name v hv hg
  obtain rfl | hd := List.mem_cons.mp hd
  · obtain ⟨e, he, rfl⟩ := List.mem_map.mp hv
    obtain ⟨row, -, hs⟩ := exists_of_mem_left h (List.mem_filter.mp he).1
    exact hs.deprecatedAt ▸ hs.marked (hs.graceUntil ▸ hg)
  · obtain rfl := List.mem_singleton.mp hd
    obtain ⟨row, hr, rfl⟩ := List.mem_map.mp hv
    have hrow := (List.mem_filter.mp ((List.mergeSort_perm _ _).mem_iff.mp hr)).1
    obtain ⟨e, -, hs⟩ := exists_of_mem_left h.flip hrow
    exact hs.marked hg

/-- A deprecation that the drivers treat alike is refused by both, or does the same
to the version. -/
theorem Same.deprecateAlike (h : d.Same)
    (hG : d.alike (now, .deprecateClassVersion name version graceUntil) = true) :
    (d.memory.deprecateClassVersion now name version graceUntil).isOk
        = (d.pg.deprecateClassVersion now name version graceUntil).isOk
      ∧ List.Forall₂ SameVersion
        ((d.memory.deprecateClassVersion now name version graceUntil).toOption.getD
          d.memory).classVersions.entries
        ((d.pg.deprecateClassVersion now name version graceUntil).toOption.getD
          d.pg).classVersion := by
  unfold alike grace at hG
  unfold MemoryRegistry.deprecateClassVersion PgRegistry.deprecateClassVersion
  dsimp only at hG ⊢
  cases hv : d.memory.classVersions.get (MemoryRegistry.key name version) with
  | none =>
    rw [hv] at hG
    cases graceUntil with
    | none => exact absurd hG (by simp)
    | some ms =>
      -- nobody knows the version, and Postgres does not read the time either
      have hms : maxTime < ms := of_decide_eq_true hG
      have hstamp : PgRegistry.graceStamp (some ms) = .error .invalidTimestamp := by
        rw [PgRegistry.graceStamp, if_neg (by omega), if_neg (by omega)]
      rw [hstamp]
      exact ⟨rfl, h⟩
  | some v =>
    rw [hv] at hG
    have hstamp : PgRegistry.graceStamp graceUntil
        = .ok (graceUntil.or v.record.graceUntil) := by
      cases graceUntil with
      | none =>
        have hg : v.record.graceUntil = none := by simpa using hG
        rw [hg]
        rfl
      | some ms =>
        have hms : ms ≠ 0 ∧ ms ≤ maxTime := by simpa using hG
        rw [PgRegistry.graceStamp, if_neg hms.1, if_pos hms.2, Option.some_or]
    rw [hstamp]
    exact ⟨rfl, h.deprecates hv rfl⟩

/-- What holds of the drivers as long as they treat everything alike. -/
structure Alike (d : ClassRegistries) : Prop where
  same : d.Same
  outcomes : ∀ o ∈ d.outcomes, o.fst.isOk = o.snd.isOk

theorem Alike.init : Alike .init where
  same := .nil
  outcomes _ ho := absurd ho List.not_mem_nil

theorem isOk_map {α : Type} (x : Except RegistryError α) :
    (x.map (fun _ => ())).isOk = x.isOk := by
  cases x <;> rfl

/-- **An operation that they treat alike keeps them alike.** -/
theorem Alike.step {d' : ClassRegistries} {x : ℤ × ClassOp} (h : d.Alike)
    (hG : d.alike x = true) (hs : d.step pg x = some d') : d'.Alike := by
  obtain rfl := Option.some.inj hs
  obtain ⟨now, op⟩ := x
  have hop : (d.memory.apply now op).isOk = (d.pg.apply pg now op).isOk
      ∧ List.Forall₂ SameVersion
        ((d.memory.apply now op).toOption.getD d.memory).classVersions.entries
        ((d.pg.apply pg now op).toOption.getD d.pg).classVersion := by
    cases op with
    | publishClass input =>
      have hat : '@' ∉ input.name.toList ∧ '@' ∉ input.version.toList := by
        simpa [alike] using hG
      exact h.same.publish hat.1 hat.2
    | deprecateClassVersion name version graceUntil => exact h.same.deprecateAlike hG
  refine ⟨hop.2, fun o ho => ?_⟩
  obtain ho | ho := List.mem_append.mp ho
  · exact h.outcomes o ho
  · rw [List.mem_singleton.mp ho, isOk_map, isOk_map]
    exact hop.1

/-- **The drivers agree** after any operations that they treat alike. -/
theorem drivers_agree (pg : PgPlatform) {xs : List (ℤ × ClassOp)} {d : ClassRegistries}
    (hG : TransitionSystem.Along (step pg) (fun d x => d.alike x = true) init xs)
    (hrun : TransitionSystem.run (step pg) init xs = some d) : d.Agree := by
  have h : d.Alike := TransitionSystem.run_invariant (step pg) (P := Alike)
    (fun _ _ _ h hG hs => h.step hG hs) .init hG hrun
  exact
    { outcomes := h.outcomes
      listed := h.same.listed
      expired := fun driver hd _ _ l _ _ _ _ => expired_iff (h.same.marked driver hd) l }

/-! ### A deprecation with a grace, and one without -/

/-- A platform that has hashed the empty source. -/
def platform : PgPlatform where
  sha256Hex := fun _ => "e3b0c44298fc1c149afbf4c8996fb92427ae41e4649b934ca495991b7852b855"
  jsonb := fun m => m

/-- An empty cart is published, and deprecated until `graceUntil`. -/
def cartDeprecated (graceUntil : ℕ) : List (ℤ × ClassOp) :=
  [(0, .publishClass ⟨"Cart", "1.0.0", [], [], [], none, none, none⟩),
    (1, .deprecateClassVersion "Cart" "1.0.0" (some graceUntil))]

/-- The drivers agree on a version that expires at `5`. -/
theorem drivers_agree_graceGiven :
    ∃ d : ClassRegistries,
      TransitionSystem.run (step platform) init (cartDeprecated 5) = some d
      ∧ d.grace "Cart" "1.0.0" = some (some 5) ∧ d.Agree := by
  have hrun : (TransitionSystem.run (step platform) init (cartDeprecated 5)).any
      (fun d => d.grace "Cart" "1.0.0" == some (some 5)) = true := by decide
  obtain ⟨d, hd, hg⟩ := (Option.any_eq_true _ _).mp hrun
  exact ⟨d, hd, beq_iff_eq.mp hg, drivers_agree platform (by decide) hd⟩

/-- **A grace time of zero has passed in memory, and is none in Postgres.** -/
theorem not_drivers_agree :
    ¬∀ (xs : List (ℤ × ClassOp)) (d : ClassRegistries),
      TransitionSystem.run (step platform) init xs = some d → d.Agree := by
  intro h
  have hrun : (TransitionSystem.run (step platform) init (cartDeprecated 0)).any
      (fun d => decide (("1.0.0", some 1, some 0)
          ∈ (d.memory.listClassVersions "Cart").map ListedVersion.fields)
        && d.pg.classVersion.all (fun row => row.grace_until == none)) = true := by
    decide
  obtain ⟨d, hd, hboth⟩ := (Option.any_eq_true _ _).mp hrun
  obtain ⟨hmem, hpg⟩ := Bool.and_eq_true_iff.mp hboth
  have hm := ((h _ d hd).listed "Cart").mem_iff.mp (of_decide_eq_true hmem)
  obtain ⟨v, hv, hf⟩ := List.mem_map.mp hm
  obtain ⟨row, hr, rfl⟩ := List.mem_map.mp hv
  have hrow := (List.mem_filter.mp ((List.mergeSort_perm _ _).mem_iff.mp hr)).1
  have hnone : row.grace_until = none :=
    beq_iff_eq.mp (List.all_eq_true.mp hpg row hrow)
  have hzero : row.grace_until = some 0 := congrArg (fun f => f.snd.snd) hf
  exact absurd (hnone.symm.trans hzero) (by simp)

end ClassRegistries
