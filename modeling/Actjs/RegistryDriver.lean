import Actjs.RegistryAgreement
import Mathlib.Data.List.Find

/-!
# Drivers of the class registry

A version that has been published is there with the same source for good: what is
written to a registry later publishes other versions, or deprecates. That is what the
loader relies on when it looks a version up twice.
-/

/-- A record of the version is found, with this hash of its source. -/
def ClassDriver.HasSha (d : ClassDriver) (name : ClassName) (version : Version)
    (sha : String) : Prop :=
  ∃ v, ClassLoader.lookupRecord (d.listClassVersions name) version = some v
    ∧ v.record.sourceSha256 = sha

/-- **A driver**: what it keeps of classes, and how that answers and is written to. -/
structure RegistryDriver where
  State : Type
  driver : State → ClassDriver
  apply : State → ℤ → ClassOp → State
  /-- A version keeps its source. -/
  keeps : ∀ {s : State} (now : ℤ) (op : ClassOp) {name : ClassName} {version : Version}
    {sha : String}, (driver s).HasSha name version sha →
      (driver (apply s now op)).HasSha name version sha

/-! ## The driver in memory -/

namespace MemoryRegistry

variable {m : MemoryRegistry} {name : ClassName} {version : Version} {sha : String}

/-- The entries of a name. -/
def isListed (name : ClassName) (e : String × ListedVersion) : Bool :=
  (name ++ "@").toList.isPrefixOf e.fst.toList

/-- The record of a version is the first that is listed with it. -/
theorem hasSha_iff : m.driver.HasSha name version sha ↔ ∃ e,
    m.classVersions.entries.find? (fun e => isListed name e && e.snd.version == version) = some e
      ∧ e.snd.record.sourceSha256 = sha := by
  have hfind : ClassLoader.lookupRecord (m.driver.listClassVersions name) version
      = (m.classVersions.entries.find?
          (fun e => isListed name e && e.snd.version == version)).map Prod.snd := by
    show List.find? _ (List.map _ (List.filter _ _)) = _
    rw [List.find?_map, List.find?_filter]
    refine congrArg _ (List.find?_congr (fun e _ => ?_))
    rw [isListed, Bool.eq_iff_iff, decide_eq_true_eq, Bool.and_eq_true, Function.comp_apply]
  unfold ClassDriver.HasSha
  rw [hfind]
  constructor
  · rintro ⟨v, hv, hsha⟩
    obtain ⟨e, he, rfl⟩ := Option.map_eq_some_iff.mp hv
    exact ⟨e, he, hsha⟩
  · rintro ⟨e, he, hsha⟩
    exact ⟨e.snd, by rw [he]; rfl, hsha⟩

/-- What is published comes last, and what is deprecated keeps its place. -/
theorem apply_hasSha (now : ℤ) (op : ClassOp)
    (h : m.driver.HasSha name version sha) :
    ((m.apply now op).toOption.getD m).driver.HasSha name version sha := by
  cases op with
  | publishClass input =>
    unfold MemoryRegistry.apply publishClass
    dsimp only
    split
    · exact h
    · next hk =>
      rw [hasSha_iff] at h ⊢
      obtain ⟨e, he, hsha⟩ := h
      refine ⟨e, ?_, hsha⟩
      show List.find? _ (m.classVersions.set _ _).entries = some e
      rw [OrderedMap.entries_set_of_new (by simpa using hk), List.find?_append, he]
      rfl
  | deprecateClassVersion name' version' graceUntil =>
    unfold MemoryRegistry.apply deprecateClassVersion
    dsimp only
    split
    · exact h
    · next v hv =>
      rw [hasSha_iff] at h ⊢
      obtain ⟨e, he, hsha⟩ := h
      have hentries := OrderedMap.entries_set_of_get (v := deprecated now graceUntil v) hv
      have hat : ∀ e ∈ m.classVersions.entries, e.fst = key name' version' → e.snd = v := by
        rintro ⟨k, w⟩ hw rfl
        exact Option.some.inj ((OrderedMap.mem_entries.mp hw).symm.trans hv)
      show ∃ e, List.find? _ (m.classVersions.set _ _).entries = some e ∧ _
      rw [hentries, List.find?_map]
      -- the entry that is replaced is listed with the same version as before
      have hcongr : m.classVersions.entries.find?
            ((fun e => isListed name e && e.snd.version == version)
              ∘ fun e => if e.fst = key name' version' then
                (key name' version', deprecated now graceUntil v) else e)
          = m.classVersions.entries.find?
            (fun e => isListed name e && e.snd.version == version) := by
        refine List.find?_congr (fun e he => ?_)
        rw [Function.comp_apply]
        split
        · next hk =>
          rw [hat e he hk, isListed, isListed, hk]
          rfl
        · rfl
      rw [hcongr, he]
      refine ⟨_, rfl, ?_⟩
      dsimp only
      split
      · next hk =>
        have hev := hat e (List.mem_of_find?_eq_some he) hk
        rw [← hsha, hev]
        rfl
      · exact hsha

/-- The driver in memory. -/
def registryDriver : RegistryDriver where
  State := MemoryRegistry
  driver := MemoryRegistry.driver
  apply := fun m now op => (m.apply now op).toOption.getD m
  keeps now op := apply_hasSha now op

end MemoryRegistry

/-! ## The driver over Postgres -/

namespace PgRegistry

variable {t : PgRegistry} {name : ClassName} {version : Version} {sha : String}

/-- The primary key of `class_version`. -/
def keys (t : PgRegistry) : List (ClassName × Version) :=
  t.classVersion.map (fun row => (row.name, row.version))

/-- A row of a version. -/
def HasRow (t : PgRegistry) (name : ClassName) (version : Version) (sha : String) : Prop :=
  ∃ row ∈ t.classVersion, row.name = name ∧ row.version = version ∧ row.source_sha256 = sha

/-- The record of a version is that of its row, of which there is one. -/
theorem hasSha_iff (ht : t.keys.Nodup) :
    t.driver.HasSha name version sha ↔ t.HasRow name version sha := by
  have hmem : ∀ v, v ∈ t.driver.listClassVersions name
      ↔ ∃ row ∈ t.classVersion, row.name = name ∧ row.toListed = v := by
    intro v
    show v ∈ List.map _ (List.mergeSort _ _) ↔ _
    rw [List.mem_map]
    refine exists_congr (fun row => ?_)
    rw [(List.mergeSort_perm _ _).mem_iff, List.mem_filter, beq_iff_eq, and_assoc]
  unfold ClassDriver.HasSha HasRow ClassLoader.lookupRecord
  constructor
  · rintro ⟨v, hv, hsha⟩
    obtain ⟨row, hrow, hname, rfl⟩ := (hmem v).mp (List.mem_of_find?_eq_some hv)
    have hver := List.find?_some hv
    exact ⟨row, hrow, hname, beq_iff_eq.mp hver, hsha⟩
  · rintro ⟨row, hrow, hname, hver, hsha⟩
    cases hf : (t.driver.listClassVersions name).find? (fun v => v.version == version) with
    | none =>
      have hno := List.find?_eq_none.mp hf row.toListed ((hmem _).mpr ⟨row, hrow, hname, rfl⟩)
      exact absurd (beq_iff_eq.mpr hver) hno
    | some v =>
      -- the record that is found is of a row with the same key
      obtain ⟨row', hrow', hname', rfl⟩ := (hmem v).mp (List.mem_of_find?_eq_some hf)
      have hver' := List.find?_some hf
      have hver' : row'.version = version := beq_iff_eq.mp hver'
      have hkey : (row'.name, row'.version) = (row.name, row.version) := by
        rw [hname, hname', hver, hver']
      obtain rfl := List.inj_on_of_nodup_map ht hrow' hrow hkey
      exact ⟨_, rfl, hsha⟩

/-- What is published has a new key. -/
theorem keys_publishClass {pg : PgPlatform} {now : ℤ} {input : PublishClassInput}
    (ht : t.keys.Nodup)
    (hn : t.classVersion.any (ClassVersionRow.isOf input.name input.version) ≠ true) :
    ((t.classVersion ++ [rowOf pg now input]).map (fun row => (row.name, row.version))).Nodup := by
  rw [List.map_append]
  refine ht.append (List.nodup_singleton _) ?_
  rw [List.map_singleton, List.disjoint_singleton]
  intro hm
  obtain ⟨row, hrow, hk⟩ := List.mem_map.mp hm
  refine hn (List.any_eq_true.mpr ⟨row, hrow, ?_⟩)
  rw [ClassVersionRow.isOf, Bool.and_eq_true, beq_iff_eq, beq_iff_eq]
  exact Prod.mk.inj hk

/-- **An operation** keeps the key, -/
theorem apply_keys (pg : PgPlatform) (now : ℤ) (op : ClassOp) (ht : t.keys.Nodup) :
    ((t.apply pg now op).toOption.getD t).keys.Nodup := by
  cases op with
  | publishClass input =>
    unfold PgRegistry.apply publishClass
    dsimp only
    split
    · exact ht
    · next hn => exact keys_publishClass ht hn
  | deprecateClassVersion name' version' graceUntil =>
    unfold PgRegistry.apply deprecateClassVersion
    dsimp only
    cases graceStamp graceUntil with
    | error e => exact ht
    | ok grace =>
      show (List.map _ (List.map _ t.classVersion)).Nodup
      rw [List.map_map]
      refine (List.map_congr_left (fun row _ => ?_)).symm ▸ ht
      rw [Function.comp_apply]
      split <;> rfl

/-- and the rows of versions. -/
theorem apply_hasRow (pg : PgPlatform) (now : ℤ) (op : ClassOp)
    (h : t.HasRow name version sha) :
    ((t.apply pg now op).toOption.getD t).HasRow name version sha := by
  obtain ⟨row, hrow, hname, hver, hsha⟩ := h
  cases op with
  | publishClass input =>
    unfold PgRegistry.apply publishClass
    dsimp only
    split
    · exact ⟨row, hrow, hname, hver, hsha⟩
    · exact ⟨row, List.mem_append_left _ hrow, hname, hver, hsha⟩
  | deprecateClassVersion name' version' graceUntil =>
    unfold PgRegistry.apply deprecateClassVersion
    dsimp only
    cases graceStamp graceUntil with
    | error e => exact ⟨row, hrow, hname, hver, hsha⟩
    | ok grace =>
      refine ⟨_, List.mem_map_of_mem hrow, ?_⟩
      split <;> exact ⟨hname, hver, hsha⟩

/-- The driver over Postgres. -/
def registryDriver (pg : PgPlatform) : RegistryDriver where
  State := {t : PgRegistry // t.keys.Nodup}
  driver := fun t => t.val.driver
  apply := fun t now op =>
    ⟨(t.val.apply pg now op).toOption.getD t.val, apply_keys pg now op t.property⟩
  keeps := fun {t} now op {_ _ _} h =>
    (hasSha_iff (apply_keys pg now op t.property)).mpr
      (apply_hasRow pg now op ((hasSha_iff t.property).mp h))

end PgRegistry
