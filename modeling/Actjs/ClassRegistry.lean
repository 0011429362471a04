import Mathlib.Data.Nat.Digits.Lemmas
import Actjs.OrderedMap
import Actjs.StrictAudit

/-!
# The class registry

Published classes as the two drivers keep them. The memory driver has one map of
versions by `name@version`, and the sources by the hash of their bytes; the
ValkeyPg driver has a table of versions by name and version, and one of blobs.

A grace time is a number of milliseconds. The memory driver keeps the number; in
Postgres it is a time stamp, made of a `Date`, which there is none of beyond
`maxTime`.
-/

open Function (update)

/-! ## What is published -/

/-- What the `publishClass` of a driver is given. -/
structure PublishClassInput where
  name : ClassName
  version : Version
  /-- The bytes of the source. -/
  source : List UInt8
  deps : List (String × String)
  engines : List (String × String)
  floating : Option Bool
  eventSourced : Option Bool
  /-- Of the signature, if there is one. -/
  signedBy : Option String

/-- What `listClassVersions` returns for a version. -/
structure ListedVersion where
  name : ClassName
  version : Version
  record : ClassVersionRecord

namespace ListedVersion

/-- The version, and whether it is deprecated until when. -/
def fields (v : ListedVersion) : Version × Option ℤ × Option ℕ :=
  (v.version, v.record.deprecatedAt, v.record.graceUntil)

end ListedVersion

/-- Why a driver refuses. -/
inductive RegistryError where
  | versionAlreadyPublished (name : ClassName) (version : Version)
  | unknownClassVersion (key : String)
  /-- A time stamp that Postgres does not read. -/
  | invalidTimestamp

/-! ## The memory driver

A source is stored under the hash of its bytes, whoever published it; a
version refers to it by that hash. -/

/-- `hashBuf` before it is written: `h * 33 + b`, in 64 bits. -/
def hashBytes (buf : List UInt8) : ℕ :=
  buf.foldl (fun h b => ((h <<< 5) + h + b.toNat) % 2 ^ 64) 5381

/-- `h.toString(16).padStart(16, '0')`. -/
def hexPadded (h : ℕ) : String :=
  String.ofList (((Nat.digits 16 h).map Nat.digitChar).reverse.leftpad 16 '0')

/-- `hashBuf`. -/
def hashBuf (buf : List UInt8) : String := hexPadded (hashBytes buf)

/-- What the memory driver keeps of classes. -/
structure MemoryRegistry where
  classVersions : OrderedMap String ListedVersion
  classSource : String → Option (List UInt8)

namespace MemoryRegistry

def empty : MemoryRegistry := ⟨.empty, fun _ => none⟩

/-- The key of a version. -/
def key (name : ClassName) (version : Version) : String := name ++ "@" ++ version

/-- The record of a version that is published at `now`. -/
def recordOf (now : ℤ) (input : PublishClassInput) : ListedVersion where
  name := input.name
  version := input.version
  record :=
    { sourceSha256 := hashBuf input.source
      deps := input.deps
      engines := input.engines
      publishedAt := now
      deprecatedAt := none
      graceUntil := none
      floating := input.floating.getD false
      eventSourced := input.eventSourced.getD false
      signedBy := input.signedBy }

/-- `publishClass`. -/
def publishClass (m : MemoryRegistry) (now : ℤ) (input : PublishClassInput) :
    Except RegistryError MemoryRegistry :=
  let key := key input.name input.version
  if (m.classVersions.get key).isSome = true then
    .error (.versionAlreadyPublished input.name input.version)
  else
    .ok
      { classVersions := m.classVersions.set key (recordOf now input)
        classSource := update m.classSource (hashBuf input.source) (some input.source) }

/-- `getClassSource`. -/
def getClassSource (m : MemoryRegistry) (name : ClassName) (version : Version) :
    Option (List UInt8) :=
  match m.classVersions.get (key name version) with
  | none => none
  | some v => m.classSource v.record.sourceSha256

/-- `listClassVersions`. -/
def listClassVersions (m : MemoryRegistry) (name : ClassName) : List ListedVersion :=
  (m.classVersions.entries.filter
    (fun e => (name ++ "@").toList.isPrefixOf e.fst.toList)).map Prod.snd

/-- What a deprecation at `now` makes of a record. -/
def deprecated (now : ℤ) (graceUntil : Option ℕ) (v : ListedVersion) : ListedVersion :=
  { v with
    record :=
      { v.record with
        deprecatedAt := some now
        graceUntil := graceUntil.or v.record.graceUntil } }

/-- `deprecateClassVersion`. -/
def deprecateClassVersion (m : MemoryRegistry) (now : ℤ) (name : ClassName)
    (version : Version) (graceUntil : Option ℕ) : Except RegistryError MemoryRegistry :=
  let key := key name version
  match m.classVersions.get key with
  | none => .error (.unknownClassVersion key)
  | some v =>
    .ok { m with classVersions := m.classVersions.set key (deprecated now graceUntil v) }

end MemoryRegistry

/-! ## The ValkeyPg driver

One row a version, with a unique key on name and version; a grace time goes
through a `Date` on its way into the row. -/

/-- A row of `class_version`. -/
structure ClassVersionRow where
  name : ClassName
  version : Version
  source_sha256 : String
  deps : List (String × String)
  engines : List (String × String)
  published_at : ℤ
  deprecated_at : Option ℤ
  grace_until : Option ℕ
  signed_by : Option String
  floating : Bool
  event_sourced : Bool

/-- `class_version` and `class_blob`. The rows are in the order in which they were
inserted. -/
structure PgRegistry where
  classVersion : List ClassVersionRow
  classBlob : String → Option (List UInt8)

/-- The platform under the ValkeyPg driver: `sha256Hex`, and what a `jsonb` column
gives back of the text of a map. -/
structure PgPlatform where
  sha256Hex : List UInt8 → String
  jsonb : List (String × String) → List (String × String)

/-- The greatest time of a `Date`. -/
def maxTime : ℕ := 8640000000000000

namespace ClassVersionRow

/-- What `listClassVersions` makes of a row. -/
def toListed (row : ClassVersionRow) : ListedVersion where
  name := row.name
  version := row.version
  record :=
    { sourceSha256 := row.source_sha256
      deps := row.deps
      engines := row.engines
      publishedAt := row.published_at
      deprecatedAt := row.deprecated_at
      graceUntil := row.grace_until
      floating := row.floating
      eventSourced := row.event_sourced
      signedBy := row.signed_by.filter (fun s => s ≠ "") }

/-- The row is that of the version. -/
def isOf (name : ClassName) (version : Version) (row : ClassVersionRow) : Bool :=
  row.name == name && row.version == version

end ClassVersionRow

namespace PgRegistry

def empty : PgRegistry := ⟨[], fun _ => none⟩

/-- What `publishClass` inserts at `now`. -/
def rowOf (pg : PgPlatform) (now : ℤ) (input : PublishClassInput) : ClassVersionRow where
  name := input.name
  version := input.version
  source_sha256 := pg.sha256Hex input.source
  deps := pg.jsonb input.deps
  engines := pg.jsonb input.engines
  published_at := now
  deprecated_at := none
  grace_until := none
  signed_by := input.signedBy
  floating := input.floating.getD false
  event_sourced := input.eventSourced.getD false

/-- `publishClass`. A unique violation rolls back the blob too. -/
def publishClass (pg : PgPlatform) (t : PgRegistry) (now : ℤ)
    (input : PublishClassInput) : Except RegistryError PgRegistry :=
  if t.classVersion.any (ClassVersionRow.isOf input.name input.version) = true then
    .error (.versionAlreadyPublished input.name input.version)
  else
    let sha := pg.sha256Hex input.source
    .ok
      { classVersion := t.classVersion ++ [rowOf pg now input]
        classBlob := update t.classBlob sha ((t.classBlob sha).or (some input.source)) }

/-- `getClassSource`. -/
def getClassSource (t : PgRegistry) (name : ClassName) (version : Version) :
    Option (List UInt8) :=
  (t.classVersion.find? (ClassVersionRow.isOf name version)).bind
    (fun row => t.classBlob row.source_sha256)

/-- `listClassVersions`. -/
def listClassVersions (t : PgRegistry) (name : ClassName) : List ListedVersion :=
  ((t.classVersion.filter (fun row => row.name == name)).mergeSort
    (fun a b => decide (a.published_at ≤ b.published_at))).map ClassVersionRow.toListed

/-- The time stamp of a grace time, if it is given one: `0` is none. -/
def graceStamp : Option ℕ → Except RegistryError (Option ℕ)
  | none => .ok none
  | some ms =>
    if ms = 0 then .ok none
    else if ms ≤ maxTime then .ok (some ms)
    else .error .invalidTimestamp

/-- `deprecateClassVersion`. -/
def deprecateClassVersion (t : PgRegistry) (now : ℤ) (name : ClassName)
    (version : Version) (graceUntil : Option ℕ) : Except RegistryError PgRegistry :=
  (graceStamp graceUntil).map (fun grace =>
    { t with
      classVersion := t.classVersion.map (fun row =>
        if row.isOf name version = true then
          { row with deprecated_at := some now, grace_until := grace }
        else row) })

end PgRegistry

/-! ## Operations -/

/-- An operation that writes to the registry. -/
inductive ClassOp where
  | publishClass (input : PublishClassInput)
  | deprecateClassVersion (name : ClassName) (version : Version) (graceUntil : Option ℕ)

/-- An operation on the memory driver. -/
def MemoryRegistry.apply (m : MemoryRegistry) (now : ℤ) :
    ClassOp → Except RegistryError MemoryRegistry
  | .publishClass input => m.publishClass now input
  | .deprecateClassVersion name version graceUntil =>
    m.deprecateClassVersion now name version graceUntil

/-- An operation on the ValkeyPg driver. -/
def PgRegistry.apply (pg : PgPlatform) (t : PgRegistry) (now : ℤ) :
    ClassOp → Except RegistryError PgRegistry
  | .publishClass input => t.publishClass pg now input
  | .deprecateClassVersion name version graceUntil =>
    t.deprecateClassVersion now name version graceUntil
