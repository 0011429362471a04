import Actjs.Loop
import Actjs.StableSort
import Actjs.Storage
import Mathlib.Data.List.Sort
import Mathlib.Logic.Function.Basic

/-!
# The resolver of class versions

`resolve` works through a queue of requirements, from the roots on. It records each
one, picks the highest version of the class that satisfies all recorded of it, and
enqueues what the version requires when the pick is a new one.

`semver` is a parameter: `satisfies`, and the order that `rcompare` sorts by.
-/

open Function (update)

/-- A range of versions of a class, as a root requires it or a version in its
`deps`. -/
structure Requirement where
  name : ClassName
  range : String
deriving DecidableEq

/-- A published version of a class: what the resolver reads of its `ClassVersionRecord`. -/
structure CatalogVersion where
  version : Version
  /-- The entries of the map, in their order. -/
  deps : List Requirement
  deprecatedAt : Option ℕ
deriving DecidableEq

/-- A constraint that the resolver has accumulated on a class. -/
structure AccumulatedRange where
  range : String
  path : List String
deriving DecidableEq

structure QueueEntry where
  name : ClassName
  range : String
  path : List String
deriving DecidableEq

/-- What the entry requires. -/
def QueueEntry.requirement (node : QueueEntry) : Requirement := ⟨node.name, node.range⟩

inductive ResolverError where
  | depConflict (className : ClassName) (accumulatedRanges : List AccumulatedRange)
  | classNotFound (className : ClassName)
  | limitExceeded (message : String)
deriving DecidableEq

namespace ResolverError

def code : ResolverError → String
  | depConflict _ _ => "DepConflict"
  | classNotFound _ => "ClassNotFound"
  | limitExceeded _ => "LimitExceeded"

def message : ResolverError → String
  | depConflict className ranges =>
    "no version of " ++ className ++ " satisfies all constraints: "
      ++ "; ".intercalate (ranges.map (fun r =>
        r.range ++ " (via " ++ " → ".intercalate r.path ++ ")"))
  | classNotFound className => "class not found: " ++ className
  | limitExceeded message => message

end ResolverError

/-- The functions of `semver` that the resolver calls. -/
structure Semver where
  satisfies : Version → String → Bool
  rcompare : Version → Version → ℤ

/-- `rcompare` is a comparison: it puts any two versions in an order. -/
structure Semver.Lawful (sem : Semver) : Prop where
  total : ∀ v w, sem.rcompare v w ≤ 0 ∨ sem.rcompare w v ≤ 0
  trans : ∀ u v w, sem.rcompare u v ≤ 0 → sem.rcompare v w ≤ 0 → sem.rcompare u w ≤ 0

/-- **What the resolver is given** beside the roots. -/
structure Resolver where
  semver : Semver
  /-- The versions of a class; `none` where the lookup throws `ClassNotFound`. -/
  catalog : ClassName → Option (List CatalogVersion)
  maxDepth : ℕ
  maxNodes : ℕ

/-- `DEFAULT_MAX_DEPTH`. -/
def defaultMaxDepth : ℕ := 16

/-- `DEFAULT_MAX_NODES`. -/
def defaultMaxNodes : ℕ := 256

/-- **The variables of `resolve`.** A class without an entry in `constraints` has no
constraint. -/
structure Resolving where
  queue : List QueueEntry
  constraints : ClassName → List AccumulatedRange
  picked : ClassName → Option Version
  nodes : ℕ

structure ResolveResult where
  manifest : ClassName → Option Version
  constraints : ClassName → List AccumulatedRange

namespace Semver

/-- The version may be picked under the constraints. -/
def admits (sem : Semver) (constraints : List AccumulatedRange) (v : CatalogVersion) :
    Bool :=
  v.deprecatedAt.isNone && constraints.all (fun c => sem.satisfies v.version c.range)

/-- `pickHighest`. -/
def pickHighest (sem : Semver) (versions : List CatalogVersion)
    (constraints : List AccumulatedRange) : Option CatalogVersion :=
  ((versions.filter (sem.admits constraints)).insertionSort
    (fun v w => sem.rcompare v.version w.version ≤ 0)).head?

end Semver

namespace Semver

variable {sem : Semver} {versions : List CatalogVersion} {v w : CatalogVersion}

/-- The version that the sort puts first. -/
def first (sem : Semver) (versions : List CatalogVersion) : Option CatalogVersion :=
  (versions.insertionSort (fun v w => sem.rcompare v.version w.version ≤ 0)).head?

theorem first_mem (h : sem.first versions = some v) : v ∈ versions := by
  rw [← List.mem_insertionSort (fun v w => sem.rcompare v.version w.version ≤ 0)]
  exact List.mem_of_head? h

/-- **No version is higher than the one that is first.** -/
theorem first_le (hsem : sem.Lawful) (h : sem.first versions = some v) (hw : w ∈ versions) :
    sem.rcompare v.version w.version ≤ 0 := by
  have : Std.Total (fun v w : CatalogVersion =>
      sem.rcompare v.version w.version ≤ 0) := ⟨fun _ _ => hsem.total _ _⟩
  have : IsTrans CatalogVersion (fun v w =>
      sem.rcompare v.version w.version ≤ 0) := ⟨fun _ _ _ => hsem.trans _ _ _⟩
  exact StableSort.rel_of_head?_insertionSort
    (r := fun v w : CatalogVersion => sem.rcompare v.version w.version ≤ 0) h hw

end Semver

namespace Resolver

/-- The constraints on the class of the entry, with its own. -/
def list (st : Resolving) (node : QueueEntry) : List AccumulatedRange :=
  st.constraints node.name ++ [⟨node.range, node.path⟩]

/-- The version that is picked for the entry. -/
def candidate (rv : Resolver) (st : Resolving) (node : QueueEntry) :
    Except ResolverError CatalogVersion :=
  match rv.catalog node.name with
  | none => .error (.classNotFound node.name)
  | some versions =>
    match rv.semver.pickHighest versions (list st node) with
    | none => .error (.depConflict node.name (list st node))
    | some candidate => .ok candidate

/-- What the version picked for the entry puts into the queue. -/
def enqueued (node : QueueEntry) (candidate : CatalogVersion) : List QueueEntry :=
  candidate.deps.map (fun dep =>
    ⟨dep.name, dep.range, node.path
      ++ [node.name ++ "@" ++ candidate.version, dep.name ++ "@" ++ dep.range]⟩)

/-- The variables with the entry recorded. -/
def recorded (st : Resolving) (node : QueueEntry) (rest : List QueueEntry) : Resolving :=
  { st with
    queue := rest
    constraints := update st.constraints node.name (list st node) }

/-- The variables once a new version is picked for the entry. -/
def repicked (st : Resolving) (node : QueueEntry) (rest : List QueueEntry)
    (candidate : CatalogVersion) : Resolving :=
  { recorded st node rest with
    queue := rest ++ enqueued node candidate
    picked := update st.picked node.name (some candidate.version)
    nodes := st.nodes + 1 }

/-- The loop takes an entry from the queue. -/
def visit (rv : Resolver) (st : Resolving) (node : QueueEntry) (rest : List QueueEntry) :
    Except ResolverError Resolving :=
  if rv.maxDepth * 2 < node.path.length then
    .error (.limitExceeded ("resolver exceeded maxDepth=" ++ toString rv.maxDepth))
  else
    match rv.candidate st node with
    | .error e => .error e
    | .ok candidate =>
      if st.picked node.name = some candidate.version then .ok (recorded st node rest)
      else if rv.maxNodes < st.nodes + 1 then
        .error (.limitExceeded ("resolver exceeded maxNodes=" ++ toString rv.maxNodes))
      else .ok (repicked st node rest candidate)

/-- An iteration of the loop. -/
def next (rv : Resolver) (st : Resolving) : Option (Except ResolverError Resolving) :=
  match st.queue with
  | [] => none
  | node :: rest => some (rv.visit st node rest)

/-- The variables before the loop. -/
def start (roots : List Requirement) : Resolving where
  queue := roots.map (fun root => ⟨root.name, root.range, [root.name ++ "@" ++ root.range]⟩)
  constraints := fun _ => []
  picked := fun _ => none
  nodes := 0

/-- **What an iteration does.** -/
inductive Visits (rv : Resolver) (st : Resolving) (node : QueueEntry) (rest : List QueueEntry) :
    Resolving → Prop
  | same {candidate : CatalogVersion} : rv.candidate st node = .ok candidate →
      st.picked node.name = some candidate.version →
      Visits rv st node rest (recorded st node rest)
  | picks {candidate : CatalogVersion} : rv.candidate st node = .ok candidate →
      st.picked node.name ≠ some candidate.version → st.nodes < rv.maxNodes →
      Visits rv st node rest (repicked st node rest candidate)

variable {rv : Resolver} {st st' : Resolving} {node : QueueEntry} {rest : List QueueEntry}

theorem visit_ok (h : rv.visit st node rest = .ok st') : Visits rv st node rest st' := by
  unfold visit at h
  split at h
  · exact absurd h (by simp)
  split at h
  · exact absurd h (by simp)
  next candidate hc =>
  split at h
  · next hp => exact Except.ok.inj h ▸ .same hc hp
  split at h
  · exact absurd h (by simp)
  · next hp hn => exact Except.ok.inj h ▸ .picks hc hp (by omega)

theorem next_ok (h : rv.next st = some (.ok st')) :
    ∃ node rest, st.queue = node :: rest ∧ Visits rv st node rest st' := by
  unfold next at h
  split at h
  · exact absurd h (by simp)
  · next node rest hq => exact ⟨node, rest, hq, visit_ok (Option.some.inj h)⟩

/-- An iteration throws because a limit is exceeded, or because no version can be
picked. -/
theorem next_error {e : ResolverError} (h : rv.next st = some (.error e)) :
    ∃ node rest, st.queue = node :: rest
      ∧ ((∃ message, e = .limitExceeded message) ∨ rv.candidate st node = .error e) := by
  unfold next at h
  split at h
  · exact absurd h (by simp)
  next node rest hq =>
  refine ⟨node, rest, hq, ?_⟩
  have h := Option.some.inj h
  unfold visit at h
  split at h
  · exact .inl ⟨_, (Except.error.inj h).symm⟩
  split at h
  · next e' he => exact .inr (Except.error.inj h ▸ he)
  split at h
  · exact absurd h (by simp)
  split at h
  · exact .inl ⟨_, (Except.error.inj h).symm⟩
  · exact absurd h (by simp)

theorem next_none : rv.next st = none ↔ st.queue = [] := by
  unfold next
  split <;> simp [*]

/-- What an iteration uses up: a node that is left, or an entry of the queue. -/
def size (rv : Resolver) (st : Resolving) : ℕ × ℕ :=
  (rv.maxNodes - st.nodes, st.queue.length)

theorem shrinks (rv : Resolver) : Loop.Shrinks rv.next rv.size := by
  intro st st' h
  obtain ⟨node, rest, hq, hv⟩ := next_ok h
  cases hv with
  | same hc hp =>
    refine .right _ ?_
    show rest.length < st.queue.length
    rw [hq]
    exact Nat.lt_succ_self _
  | picks hc hp hn =>
    refine .left _ _ ?_
    show rv.maxNodes - (st.nodes + 1) < rv.maxNodes - st.nodes
    omega

/-- **`resolve`.** -/
def resolve (rv : Resolver) (roots : List Requirement) : Except ResolverError ResolveResult :=
  (Loop.run rv.next rv.size rv.shrinks (start roots)).map
    (fun st => ⟨st.picked, st.constraints⟩)

variable {roots : List Requirement}

theorem resolve_ok {res : ResolveResult} (h : rv.resolve roots = .ok res) :
    ∃ st, Loop.run rv.next rv.size rv.shrinks (start roots) = .ok st
      ∧ (⟨st.picked, st.constraints⟩ : ResolveResult) = res := by
  unfold resolve at h
  cases hrun : Loop.run rv.next rv.size rv.shrinks (start roots) with
  | error e => rw [hrun] at h; exact absurd h (by simp [Except.map])
  | ok st => rw [hrun] at h; exact ⟨st, rfl, Except.ok.inj h⟩

theorem resolve_error {e : ResolverError} (h : rv.resolve roots = .error e) :
    Loop.run rv.next rv.size rv.shrinks (start roots) = .error e := by
  unfold resolve at h
  cases hrun : Loop.run rv.next rv.size rv.shrinks (start roots) with
  | error e' => rw [hrun] at h; exact congrArg Except.error (Except.error.inj h)
  | ok st => rw [hrun] at h; exact absurd h (by simp [Except.map])

end Resolver

/-! ## What the manifest is to be

A declarative account of the manifest: an assignment is exact if it takes the
highest version of every reachable class under what it demands itself, and
nothing else. No queue is in it. -/

/-- Which version of each class is taken, where one is. -/
abbrev Assignment := ClassName → Option CatalogVersion

/-- The roots, or a version that is taken, require the range of the class. -/
def Demands (roots : List Requirement) (recs : Assignment) (c : ClassName) (r : String) : Prop :=
  ⟨c, r⟩ ∈ roots ∨ ∃ d rec, recs d = some rec ∧ ⟨c, r⟩ ∈ rec.deps

/-- The class is a root, or the version taken of a reachable one depends on it. -/
inductive Reachable (roots : List Requirement) (recs : Assignment) : ClassName → Prop
  | root {c : ClassName} {r : String} : ⟨c, r⟩ ∈ roots → Reachable roots recs c
  | dep {c d : ClassName} {r : String} {rec : CatalogVersion} : Reachable roots recs d →
      recs d = some rec → ⟨c, r⟩ ∈ rec.deps → Reachable roots recs c

namespace Resolver

/-- The version may be taken of the class under the ranges. -/
def Admits (rv : Resolver) (c : ClassName) (ranges : String → Prop) (v : CatalogVersion) :
    Prop :=
  (∃ versions, rv.catalog c = some versions ∧ v ∈ versions) ∧ v.deprecatedAt = none
    ∧ ∀ r, ranges r → rv.semver.satisfies v.version r = true

/-- It may, and no other that may is higher. -/
def Highest (rv : Resolver) (c : ClassName) (ranges : String → Prop) (v : CatalogVersion) :
    Prop :=
  rv.Admits c ranges v
    ∧ ∀ w, rv.Admits c ranges w → rv.semver.rcompare v.version w.version ≤ 0

/-- **An exact assignment**: of every class that is reachable, and of no other, it takes
the highest version under what it demands of the class itself. -/
structure Exact (rv : Resolver) (roots : List Requirement) (recs : Assignment) : Prop where
  taken : ∀ c rec, recs c = some rec → rv.Highest c (Demands roots recs c) rec
  reached : ∀ c, recs c ≠ none ↔ Reachable roots recs c

end Resolver

/-- The ranges recorded of the class. -/
def Resolving.Ranges (st : Resolving) (c : ClassName) (r : String) : Prop :=
  r ∈ (st.constraints c).map AccumulatedRange.range

/-- They, and those that are to be. -/
def Resolving.Known (st : Resolving) (c : ClassName) (r : String) : Prop :=
  st.Ranges c r ∨ ∃ node ∈ st.queue, node.requirement = ⟨c, r⟩

/-- Something demands the range that is reachable itself. -/
def Grounds (roots : List Requirement) (recs : Assignment) (c : ClassName) (r : String) : Prop :=
  ⟨c, r⟩ ∈ roots
    ∨ ∃ d rec, Reachable roots recs d ∧ recs d = some rec ∧ ⟨c, r⟩ ∈ rec.deps

theorem Grounds.reachable {roots : List Requirement} {recs : Assignment} {c : ClassName}
    {r : String} (h : Grounds roots recs c r) : Reachable roots recs c := by
  rcases h with h | ⟨d, rec, hd, hrec, hdep⟩
  · exact .root h
  · exact .dep hd hrec hdep

theorem Grounds.demands {roots : List Requirement} {recs : Assignment} {c : ClassName}
    {r : String} (h : Grounds roots recs c r) : Demands roots recs c r :=
  h.imp id (fun ⟨d, rec, _, hrec, hdep⟩ => ⟨d, rec, hrec, hdep⟩)

namespace Resolver

/-- **No range is left behind**: where another version of a class is picked than
before, it requires what the former did, or a root does. -/
def keepsRanges (rv : Resolver) (roots : List Requirement) (st : Resolving) : Bool :=
  match st.queue with
  | [] => true
  | node :: _ =>
    match rv.catalog node.name, rv.candidate st node with
    | some versions, .ok candidate =>
      versions.all (fun old =>
        st.picked node.name != some old.version || old.version == candidate.version
          || old.deps.all (fun dep => dep ∈ candidate.deps || dep ∈ roots))
    | _, _ => true

variable {rv : Resolver} {roots : List Requirement} {st st' : Resolving} {node : QueueEntry}
  {rest : List QueueEntry} {recs : Assignment} {c : ClassName} {v w : CatalogVersion}
  {P Q : String → Prop}

theorem Admits.mono (h : rv.Admits c P v) (hQ : ∀ r, Q r → P r) : rv.Admits c Q v :=
  ⟨h.1, h.2.1, fun r hr => h.2.2 r (hQ r hr)⟩

theorem Highest.congr (h : rv.Highest c P v) (hPQ : ∀ r, P r ↔ Q r) : rv.Highest c Q v :=
  ⟨h.1.mono (fun r => (hPQ r).mpr), fun w hw => h.2 w (hw.mono (fun r => (hPQ r).mp))⟩

theorem mem_pickHighest {versions : List CatalogVersion} {cs : List AccumulatedRange}
    (hc : rv.catalog c = some versions) :
    v ∈ (versions.filter (rv.semver.admits cs)).insertionSort
        (fun v w => rv.semver.rcompare v.version w.version ≤ 0)
      ↔ rv.Admits c (fun r => r ∈ cs.map AccumulatedRange.range) v := by
  rw [List.mem_insertionSort, List.mem_filter, Semver.admits, Bool.and_eq_true,
    Option.isNone_iff_eq_none, List.all_eq_true]
  constructor
  · rintro ⟨hv, hd, hs⟩
    refine ⟨⟨versions, hc, hv⟩, hd, fun r hr => ?_⟩
    obtain ⟨a, ha, rfl⟩ := List.mem_map.mp hr
    exact hs a ha
  · rintro ⟨⟨versions', hc', hv⟩, hd, hs⟩
    obtain rfl := Option.some.inj (hc.symm.trans hc')
    exact ⟨hv, hd, fun a ha => hs _ (List.mem_map_of_mem ha)⟩

/-- **`pickHighest` picks the highest version** under the constraints. -/
theorem pickHighest_some (hsem : rv.semver.Lawful) {versions : List CatalogVersion}
    {cs : List AccumulatedRange} (hc : rv.catalog c = some versions)
    (hv : rv.semver.pickHighest versions cs = some v) :
    rv.Highest c (fun r => r ∈ cs.map AccumulatedRange.range) v := by
  refine ⟨(mem_pickHighest hc).mp (List.mem_of_head? hv), fun w hw => ?_⟩
  exact Semver.first_le hsem hv ((List.mem_insertionSort _).mp ((mem_pickHighest hc).mpr hw))

theorem pickHighest_none {versions : List CatalogVersion} {cs : List AccumulatedRange}
    (hc : rv.catalog c = some versions) (hv : rv.semver.pickHighest versions cs = none)
    (w : CatalogVersion) : ¬rv.Admits c (fun r => r ∈ cs.map AccumulatedRange.range) w := by
  intro hw
  have hmem := (mem_pickHighest hc).mpr hw
  rw [Semver.pickHighest, List.head?_eq_none_iff] at hv
  rw [hv] at hmem
  exact List.not_mem_nil hmem

/-- The version that is picked for an entry. -/
theorem candidate_ok (hsem : rv.semver.Lawful) (h : rv.candidate st node = .ok v) :
    rv.Highest node.name (fun r => r ∈ (list st node).map AccumulatedRange.range) v := by
  unfold candidate at h
  split at h
  · exact absurd h (by simp)
  next versions hc =>
  split at h
  · exact absurd h (by simp)
  · next hp => exact Except.ok.inj h ▸ pickHighest_some hsem hc hp

/-- **The picks are these versions**, each the highest under what is recorded of its
class; and what they require is known. -/
structure Picks (rv : Resolver) (roots : List Requirement) (st : Resolving)
    (recs : Assignment) : Prop where
  picked : ∀ c, (recs c).map CatalogVersion.version = st.picked c
  highest : ∀ c rec, recs c = some rec → rv.Highest c (st.Ranges c) rec
  constrained : ∀ c, recs c = none ↔ st.constraints c = []
  complete : ∀ c r, Demands roots recs c r → st.Known c r

@[simp] theorem constraints_recorded_self :
    (recorded st node rest).constraints node.name = list st node :=
  Function.update_self _ _ _

theorem constraints_recorded_ne (he : c ≠ node.name) :
    (recorded st node rest).constraints c = st.constraints c := Function.update_of_ne he _ _

theorem list_ne_nil : list st node ≠ [] := by
  simp [list]

theorem ranges_recorded {r : String} :
    (recorded st node rest).Ranges c r ↔ st.Ranges c r ∨ node.requirement = ⟨c, r⟩ := by
  unfold Resolving.Ranges
  by_cases he : c = node.name
  · subst he
    rw [constraints_recorded_self, list, List.map_append, List.mem_append]
    simp [QueueEntry.requirement, eq_comm]
  · rw [constraints_recorded_ne he]
    refine (or_iff_left (fun h => he ?_)).symm
    exact (congrArg Requirement.name h).symm

/-- To record an entry makes nothing known, and nothing unknown. -/
theorem known_recorded (hq : st.queue = node :: rest) {r : String} :
    (recorded st node rest).Known c r ↔ st.Known c r := by
  unfold Resolving.Known
  rw [ranges_recorded, hq, or_assoc]
  simp [recorded]

theorem known_repicked (hq : st.queue = node :: rest) {r : String} :
    (repicked st node rest v).Known c r ↔ st.Known c r ∨ ⟨c, r⟩ ∈ v.deps := by
  have hqueue : (∃ n ∈ rest ++ enqueued node v, n.requirement = ⟨c, r⟩)
      ↔ (∃ n ∈ rest, n.requirement = ⟨c, r⟩) ∨ ⟨c, r⟩ ∈ v.deps := by
    simp only [List.mem_append, or_and_right, exists_or, enqueued, List.mem_map]
    refine or_congr Iff.rfl ⟨?_, fun h => ?_⟩
    · rintro ⟨-, ⟨dep, hdep, rfl⟩, he⟩
      exact he ▸ hdep
    · exact ⟨_, ⟨_, h, rfl⟩, rfl⟩
  calc (repicked st node rest v).Known c r
      ↔ (recorded st node rest).Ranges c r
        ∨ ∃ n ∈ rest ++ enqueued node v, n.requirement = ⟨c, r⟩ := Iff.rfl
    _ ↔ (recorded st node rest).Known c r ∨ ⟨c, r⟩ ∈ v.deps := by
      rw [hqueue, ← or_assoc]
      rfl
    _ ↔ st.Known c r ∨ ⟨c, r⟩ ∈ v.deps := by rw [known_recorded hq]

namespace Picks

theorem start (roots : List Requirement) :
    rv.Picks roots (Resolver.start roots) (fun _ => none) where
  picked c := rfl
  highest c rec h := absurd h (by simp)
  constrained c := by simp [Resolver.start]
  complete c r h := by
    rcases h with h | ⟨d, rec, hrec, -⟩
    · exact .inr ⟨_, List.mem_map_of_mem h, rfl⟩
    · exact absurd hrec (by simp)

/-- What is recorded of the class of an entry is what its version was picked
under. -/
theorem ranges_node (rest : List QueueEntry) {r : String} :
    (recorded st node rest).Ranges node.name r
      ↔ r ∈ (list st node).map AccumulatedRange.range := by
  unfold Resolving.Ranges
  rw [constraints_recorded_self]

/-- The pick stays the same. -/
theorem same (hsem : rv.semver.Lawful) (h : rv.Picks roots st recs)
    (hq : st.queue = node :: rest) (hc : rv.candidate st node = .ok v)
    (hp : st.picked node.name = some v.version) :
    rv.Picks roots (recorded st node rest) recs := by
  have hv := candidate_ok hsem hc
  obtain ⟨rec, hrec, hver⟩ := Option.map_eq_some_iff.mp ((h.picked node.name).trans hp)
  refine ⟨h.picked, fun c rec' hrec' => ?_, fun c => ?_, fun c r hd => ?_⟩
  · by_cases he : c = node.name
    · subst he
      obtain rfl := Option.some.inj (hrec.symm.trans hrec')
      have hold := (h.highest _ _ hrec).1
      refine Highest.congr ⟨⟨hold.1, hold.2.1, ?_⟩, ?_⟩ (fun r => (ranges_node rest).symm)
      · rw [hver]
        exact hv.1.2.2
      · rw [hver]
        exact hv.2
    · refine (h.highest c rec' hrec').congr (fun r => ?_)
      unfold Resolving.Ranges
      rw [constraints_recorded_ne he]
  · by_cases he : c = node.name
    · subst he
      rw [hrec]
      refine iff_of_false (by simp) ?_
      rw [constraints_recorded_self]
      exact list_ne_nil
    · rw [constraints_recorded_ne he]
      exact h.constrained c
  · exact (known_recorded hq).mpr (h.complete c r hd)

/-- Another version is picked. -/
theorem repick (hsem : rv.semver.Lawful) (h : rv.Picks roots st recs)
    (hq : st.queue = node :: rest) (hc : rv.candidate st node = .ok v) :
    rv.Picks roots (repicked st node rest v) (update recs node.name (some v)) := by
  have hv := candidate_ok hsem hc
  refine ⟨fun c => ?_, fun c rec' hrec' => ?_, fun c => ?_, fun c r hd => ?_⟩
  · show ((update recs node.name (some v)) c).map _ = update st.picked node.name _ c
    by_cases he : c = node.name
    · rw [he, Function.update_self, Function.update_self]
      rfl
    · rw [Function.update_of_ne he, Function.update_of_ne he]
      exact h.picked c
  · by_cases he : c = node.name
    · subst he
      rw [Function.update_self] at hrec'
      obtain rfl := Option.some.inj hrec'
      exact hv.congr (fun r => (ranges_node rest).symm)
    · rw [Function.update_of_ne he] at hrec'
      refine (h.highest c rec' hrec').congr (fun r => ?_)
      show st.Ranges c r ↔ (recorded st node rest).Ranges c r
      unfold Resolving.Ranges
      rw [constraints_recorded_ne he]
  · show update recs node.name (some v) c = none ↔ (recorded st node rest).constraints c = []
    by_cases he : c = node.name
    · rw [he, Function.update_self, constraints_recorded_self]
      exact iff_of_false (by simp) list_ne_nil
    · rw [Function.update_of_ne he, constraints_recorded_ne he]
      exact h.constrained c
  · rw [known_repicked hq]
    rcases hd with hd | ⟨d, rec', hrec', hdep⟩
    · exact .inl (h.complete c r (.inl hd))
    · by_cases he : d = node.name
      · rw [he, Function.update_self] at hrec'
        exact .inr (Option.some.inj hrec' ▸ hdep)
      · rw [Function.update_of_ne he] at hrec'
        exact .inl (h.complete c r (.inr ⟨d, rec', hrec', hdep⟩))

end Picks

/-! ## Exactness

The invariant of the loop: whatever is recorded, or waits in the queue, is
required by something the picks reach, as long as no pick is replaced by one
that requires less. -/

/-- The versions picked, and what is known is what something reachable requires. -/
structure Grounded (rv : Resolver) (roots : List Requirement) (st : Resolving)
    (recs : Assignment) : Prop extends rv.Picks roots st recs where
  grounds : ∀ c r, st.Known c r → Grounds roots recs c r

end Resolver

/-- The version of a class is replaced by one that requires as much. -/
theorem Reachable.update {roots : List Requirement} {recs : Assignment} {c d : ClassName}
    {v : CatalogVersion} (hcov : ∀ old, recs c = some old →
      ∀ dep ∈ old.deps, dep ∈ v.deps ∨ dep ∈ roots) (h : Reachable roots recs d) :
    Reachable roots (update recs c (some v)) d := by
  induction h with
  | root h => exact .root h
  | @dep e d r rec hd hrec hdep ih =>
    by_cases he : d = c
    · subst he
      rcases hcov rec hrec _ hdep with hdep | hroot
      · exact .dep ih (Function.update_self _ _ _) hdep
      · exact .root hroot
    · exact .dep ih ((Function.update_of_ne he _ _).trans hrec) hdep

theorem Grounds.update {roots : List Requirement} {recs : Assignment} {c d : ClassName}
    {r : String} {v : CatalogVersion} (hcov : ∀ old, recs c = some old →
      ∀ dep ∈ old.deps, dep ∈ v.deps ∨ dep ∈ roots) (h : Grounds roots recs d r) :
    Grounds roots (update recs c (some v)) d r := by
  rcases h with h | ⟨e, rec, he, hrec, hdep⟩
  · exact .inl h
  by_cases hec : e = c
  · subst hec
    rcases hcov rec hrec _ hdep with hdep | hroot
    · exact .inr ⟨e, v, he.update hcov, Function.update_self _ _ _, hdep⟩
    · exact .inl hroot
  · exact .inr ⟨e, rec, he.update hcov, (Function.update_of_ne hec _ _).trans hrec, hdep⟩

namespace Resolver

variable {rv : Resolver} {roots : List Requirement} {st st' : Resolving} {node : QueueEntry}
  {rest : List QueueEntry} {recs : Assignment} {c : ClassName} {v : CatalogVersion}

/-- What the condition says of the version that is replaced. -/
theorem covers_of_keepsRanges (h : rv.Picks roots st recs)
    (hG : rv.keepsRanges roots st = true) (hq : st.queue = node :: rest)
    (hc : rv.candidate st node = .ok v) (hp : st.picked node.name ≠ some v.version) :
    ∀ old, recs node.name = some old → ∀ dep ∈ old.deps, dep ∈ v.deps ∨ dep ∈ roots := by
  intro old hold dep hdep
  obtain ⟨⟨versions, hcat, hmem⟩, -⟩ := (h.highest _ _ hold).1
  have hpicked : st.picked node.name = some old.version := by
    rw [← h.picked, hold, Option.map_some]
  have hne : old.version ≠ v.version := fun he => hp (he ▸ hpicked)
  simp only [keepsRanges, hq, hcat, hc, List.all_eq_true, Bool.or_eq_true, bne_iff_ne, ne_eq,
    beq_iff_eq, decide_eq_true_eq] at hG
  rcases hG old hmem with (hn | he) | hall
  · exact absurd hpicked hn
  · exact absurd he hne
  · exact hall dep hdep

namespace Grounded

theorem start (roots : List Requirement) :
    rv.Grounded roots (Resolver.start roots) (fun _ => none) where
  toPicks := .start roots
  grounds c r h := by
    rcases h with h | ⟨node, hnode, he⟩
    · exact absurd h (by simp [Resolving.Ranges, Resolver.start])
    · obtain ⟨root, hroot, rfl⟩ := List.mem_map.mp hnode
      exact .inl (he ▸ hroot)

/-- **Every iteration that leaves no range behind keeps to it.** -/
theorem next (hsem : rv.semver.Lawful) (h : rv.Grounded roots st recs)
    (hG : rv.keepsRanges roots st = true) (hn : rv.next st = some (.ok st')) :
    ∃ recs', rv.Grounded roots st' recs' := by
  obtain ⟨node, rest, hq, hv⟩ := next_ok hn
  cases hv with
  | same hc hp =>
    exact ⟨recs, h.toPicks.same hsem hq hc hp,
      fun c r hk => h.grounds c r ((known_recorded hq).mp hk)⟩
  | @picks v hc hp _ =>
    have hcov := covers_of_keepsRanges h.toPicks hG hq hc hp
    refine ⟨_, h.toPicks.repick hsem hq hc, fun c r hk => ?_⟩
    rcases (known_repicked hq).mp hk with hk | hdep
    · exact (h.grounds c r hk).update hcov
    · -- the class of the entry is reachable, and takes the new version
      have hnode : Grounds roots recs node.name node.range :=
        h.grounds _ _ (.inr ⟨node, hq ▸ List.mem_cons_self, rfl⟩)
      exact .inr ⟨node.name, v, hnode.reachable.update hcov, Function.update_self _ _ _, hdep⟩

/-- **With nothing in the queue, the picks are exact.** -/
theorem exact (h : rv.Grounded roots st recs) (hq : st.queue = []) : rv.Exact roots recs := by
  have hranges : ∀ {c r}, st.Known c r → st.Ranges c r := by
    rintro c r (hk | ⟨node, hnode, -⟩)
    · exact hk
    · exact absurd hnode (by simp [hq])
  have hsome : ∀ {c r}, st.Ranges c r → recs c ≠ none := by
    intro c r hr hnone
    rw [Resolving.Ranges, (h.constrained c).mp hnone] at hr
    exact absurd hr (by simp)
  refine ⟨fun c rec hrec => ?_, fun c => ⟨fun hne => ?_, fun hr => ?_⟩⟩
  · exact (h.highest c rec hrec).congr
      (fun r => ⟨fun hr => (h.grounds c r (.inl hr)).demands,
        fun hd => hranges (h.complete c r hd)⟩)
  · obtain ⟨a, ha⟩ := List.exists_mem_of_ne_nil _ (mt (h.constrained c).mpr hne)
    exact (h.grounds c a.range (.inl (List.mem_map_of_mem ha))).reachable
  · cases hr with
    | root hroot => exact hsome (hranges (h.complete c _ (.inl hroot)))
    | dep hd hrec hdep => exact hsome (hranges (h.complete c _ (.inr ⟨_, _, hrec, hdep⟩)))

end Grounded

/-- **The manifest is exact**: if `resolve` succeeds and no pick was replaced that
required what its successor and the roots do not, then every class that is reachable
through the versions picked, and no other, has the highest version that is not
deprecated and satisfies what the roots and these versions require of it. -/
theorem resolve_exact (rv : Resolver) (hsem : rv.semver.Lawful) (roots : List Requirement)
    (hG : ∀ st, Loop.Reached rv.next (start roots) st → rv.keepsRanges roots st = true)
    {res : ResolveResult} (hres : rv.resolve roots = .ok res) :
    ∃ recs, (∀ c, res.manifest c = (recs c).map CatalogVersion.version)
      ∧ rv.Exact roots recs := by
  obtain ⟨st, hrun, rfl⟩ := resolve_ok hres
  obtain ⟨hreached, hdone⟩ := Loop.run_ok hrun
  obtain ⟨recs, h⟩ := hreached.invariant (P := fun st => ∃ recs, rv.Grounded roots st recs)
    (fun _ _ ⟨_, h⟩ hG hn => h.next hsem hG hn) ⟨_, .start roots⟩ hG
  exact ⟨recs, fun c => (h.picked c).symm, h.exact (next_none.mp hdone)⟩

/-! ### Two versions of a class -/

/-- `semver` of the versions `1.0.0` and `2.0.0`, and of the ranges `*`, `<2.0.0` and
each version. -/
def twoVersions : Semver where
  satisfies v r := r == "*" || r == v || (r == "<2.0.0" && v == "1.0.0")
  rcompare v w := (if w = "2.0.0" then 1 else 0) - (if v = "2.0.0" then 1 else 0)

theorem twoVersions_lawful : twoVersions.Lawful where
  total v w := by
    unfold twoVersions
    dsimp only
    omega
  trans u v w h h' := by
    unfold twoVersions at *
    dsimp only at *
    omega

/-- The resolver over classes `A`, `B` and `C`, of which `A` has two versions. -/
def abc (a1 a2 b c : List Requirement) : Resolver where
  semver := twoVersions
  catalog name :=
    if name = "A" then some [⟨"1.0.0", a1, none⟩, ⟨"2.0.0", a2, none⟩]
    else if name = "B" then some [⟨"1.0.0", b, none⟩]
    else if name = "C" then some [⟨"1.0.0", c, none⟩]
    else none
  maxDepth := defaultMaxDepth
  maxNodes := defaultMaxNodes

/-- What `resolve` comes to, by executing its loop. -/
theorem resolve_of_endsIn {n : ℕ} {r : Except ResolverError Resolving}
    (h : Loop.endsIn rv.next n (start roots) = some r) :
    rv.resolve roots = r.map (fun st => ⟨st.picked, st.constraints⟩) := by
  rw [resolve, Loop.run_of_endsIn h]

/-- A run that succeeds, by executing the loop. -/
theorem resolve_ends (rv : Resolver) (roots : List Requirement) (n : ℕ) (p : Resolving → Bool)
    (h : (Loop.endsIn rv.next n (start roots)).any (fun r => r.toOption.any p) = true) :
    ∃ st, rv.resolve roots = .ok ⟨st.picked, st.constraints⟩ ∧ p st = true := by
  obtain ⟨r, hr, h⟩ := (Option.any_eq_true _ _).mp h
  obtain ⟨st, hst, hp⟩ := (Option.any_eq_true _ _).mp h
  cases r with
  | error e => exact absurd hst (by simp [Except.toOption])
  | ok st' =>
    obtain rfl := Option.some.inj hst
    exact ⟨st', resolve_of_endsIn hr, hp⟩

/-- `B` requires the older version of `A`, which is picked in place of the newer. -/
theorem resolve_exact_repicked :
    ∃ res, (abc [] [] [⟨"A", "<2.0.0"⟩] []).resolve [⟨"A", "*"⟩, ⟨"B", "*"⟩] = .ok res
      ∧ res.manifest "A" = some "1.0.0"
      ∧ ∃ recs, (∀ c, res.manifest c = (recs c).map CatalogVersion.version)
        ∧ (abc [] [] [⟨"A", "<2.0.0"⟩] []).Exact [⟨"A", "*"⟩, ⟨"B", "*"⟩] recs := by
  obtain ⟨st, hres, hA⟩ := resolve_ends (abc [] [] [⟨"A", "<2.0.0"⟩] [])
    [⟨"A", "*"⟩, ⟨"B", "*"⟩] 4 (fun st => st.picked "A" == some "1.0.0") (by decide)
  refine ⟨_, hres, beq_iff_eq.mp hA, ?_⟩
  exact resolve_exact _ twoVersions_lawful _ (fun st => Loop.Reached.of_holdsAlong (n := 4)
    (by decide)) hres

/-- The newer version of `A` is picked first, which depends on `C`; and then the
older. **`C` stays in the manifest**, which nothing depends on. -/
theorem not_resolve_exact :
    ¬∀ (rv : Resolver), rv.semver.Lawful → ∀ (roots : List Requirement) (res : ResolveResult),
      rv.resolve roots = .ok res →
      ∃ recs, (∀ c, res.manifest c = (recs c).map CatalogVersion.version)
        ∧ rv.Exact roots recs := by
  intro h
  obtain ⟨st, hres, hpicked⟩ := resolve_ends (abc [] [⟨"C", "*"⟩] [] [])
    [⟨"A", "*"⟩, ⟨"A", "<2.0.0"⟩] 4
    (fun st => st.picked "A" == some "1.0.0" && st.picked "C" == some "1.0.0") (by decide)
  obtain ⟨hA, hC⟩ := Bool.and_eq_true_iff.mp hpicked
  obtain ⟨recs, hrecs, hexact⟩ := h _ twoVersions_lawful _ _ hres
  -- the version of `A` that is left depends on nothing
  have hdeps : ∀ rec, recs "A" = some rec → rec.deps = [] := by
    intro rec hrec
    obtain ⟨⟨versions, hcat, hmem⟩, -⟩ := (hexact.taken _ _ hrec).1
    have hver : some rec.version = some "1.0.0" := by
      rw [← beq_iff_eq.mp hA]
      exact ((hrecs "A").trans (by rw [hrec]; rfl)).symm
    obtain rfl := Option.some.inj hcat
    simp only [List.mem_cons, List.not_mem_nil, or_false] at hmem
    rcases hmem with rfl | rfl
    · rfl
    · exact absurd hver (by decide)
  have hreach : ∀ c, Reachable [⟨"A", "*"⟩, ⟨"A", "<2.0.0"⟩] recs c → c = "A" := by
    intro c hc
    induction hc with
    | root hroot =>
      simp only [List.mem_cons, Requirement.mk.injEq, List.not_mem_nil, or_false] at hroot
      exact hroot.elim And.left And.left
    | @dep c d r rec hd hrec hdep ih =>
      subst ih
      rw [hdeps rec hrec] at hdep
      exact absurd hdep List.not_mem_nil
  have hne : recs "C" ≠ none := by
    intro hnone
    have := (hrecs "C").symm.trans (beq_iff_eq.mp hC)
    rw [hnone] at this
    exact absurd this (by simp)
  exact absurd (hreach "C" ((hexact.reached "C").mp hne)) (by decide)

end Resolver
