import Actjs.Resolver

/-!
# Conflicts that the resolver reports

A `DepConflict` names ranges that no version of the class satisfies together. Each
came into the list along the path that it carries, but from versions that may have
been replaced since; and the conflict may be due to such a version alone, or to one
that was to be replaced. The resolver never takes a constraint back: what a version
required stays on the list when another is picked in its place, and what it enqueued
stays in the queue.

Where no version is picked that has dependencies and does not stay picked, the paths
are through the versions picked at the throw, and no assignment is exact.

## Picks that may give way

Whether a pick stays is not to be seen from the state: the range that is to displace it
may be declared by a version that has not been looked at yet. What is to be seen, in
the catalog, is which ranges may come at all (`Resolver.MayDemand`): those of the roots,
and those of the versions that the roots lead to by name. A pick **may give way** to
another version that is as high, or that one of these ranges admits and the pick does
not satisfy. Nothing is lost by that where the other version, or a root, requires of
the same classes at least as much.
-/

open Function (update)

/-- **The path of a range**, from a root on through the versions that are taken. -/
inductive PathTo (roots : List Requirement) (recs : Assignment) :
    ClassName → String → List String → Prop
  | root {c : ClassName} {r : String} : ⟨c, r⟩ ∈ roots → PathTo roots recs c r [c ++ "@" ++ r]
  | dep {c d : ClassName} {r r' : String} {path : List String} {rec : CatalogVersion} :
      PathTo roots recs d r' path → recs d = some rec → ⟨c, r⟩ ∈ rec.deps →
      PathTo roots recs c r (path ++ [d ++ "@" ++ rec.version, c ++ "@" ++ r])

/-- Versions that require something stay taken. -/
theorem PathTo.mono {roots : List Requirement} {recs recs' : Assignment} {c : ClassName}
    {r : String} {path : List String} (h : PathTo roots recs c r path)
    (hkeep : ∀ d rec, recs d = some rec → rec.deps ≠ [] → recs' d = some rec) :
    PathTo roots recs' c r path := by
  induction h with
  | root h => exact .root h
  | dep _ hrec hdep ih => exact .dep ih (hkeep _ _ hrec (List.ne_nil_of_mem hdep)) hdep

namespace Resolver

/-- The versions picked so far. -/
structure Current (rv : Resolver) (st : Resolving) (recs : Assignment) : Prop where
  picked : ∀ c, (recs c).map CatalogVersion.version = st.picked c
  listed : ∀ c rec, recs c = some rec → ∃ versions, rv.catalog c = some versions ∧ rec ∈ versions

/-- A version of the class that may be picked, under some ranges. -/
def Offers (rv : Resolver) (c : ClassName) (v : CatalogVersion) : Prop :=
  rv.Admits c (fun _ => False) v

/-- **A class that the roots may lead to**, whichever versions are picked on the way. -/
inductive Names (rv : Resolver) (roots : List Requirement) : ClassName → Prop
  | root {c : ClassName} {r : String} : ⟨c, r⟩ ∈ roots → Names rv roots c
  | dep {c d : ClassName} {r : String} {v : CatalogVersion} : Names rv roots d →
      rv.Offers d v → ⟨c, r⟩ ∈ v.deps → Names rv roots c

/-- A root, or a version that the roots may lead to, requires the range of the class. -/
def MayDemand (rv : Resolver) (roots : List Requirement) (c : ClassName) (r : String) : Prop :=
  ⟨c, r⟩ ∈ roots ∨ ∃ d v, rv.Names roots d ∧ rv.Offers d v ∧ ⟨c, r⟩ ∈ v.deps

/-- **The pick may give way** to another version that satisfies what is recorded of the
class: to one as high, and to one that satisfies a range that the pick does not and that
may yet be required. -/
def MayGiveWay (rv : Resolver) (roots : List Requirement) (st : Resolving) (node : QueueEntry)
    (candidate w : CatalogVersion) : Prop :=
  rv.Admits node.name (fun r => r ∈ (list st node).map AccumulatedRange.range) w
    ∧ w ≠ candidate
    ∧ (rv.semver.rcompare w.version candidate.version ≤ 0
      ∨ ∃ r, rv.MayDemand roots node.name r ∧ rv.semver.satisfies w.version r = true
        ∧ rv.semver.satisfies candidate.version r = false)

/-- The first range is as narrow as the second: no version of the class satisfies it
alone. -/
def Narrower (rv : Resolver) (c : ClassName) (r r' : String) : Prop :=
  ∀ v, rv.Offers c v → rv.semver.satisfies v.version r = true →
    rv.semver.satisfies v.version r' = true

/-- **A version with dependencies is picked for good**: none is replaced, and where one
is newly picked that may give way to another, what it requires is required in any case,
by the other or by a root. -/
structure PicksForGood (rv : Resolver) (roots : List Requirement) (st : Resolving)
    (node : QueueEntry) : Prop where
  replaced : ∀ versions old candidate, rv.catalog node.name = some versions → old ∈ versions →
    rv.candidate st node = .ok candidate → st.picked node.name = some old.version →
    old.version ≠ candidate.version → old.deps = []
  required : ∀ candidate w, rv.candidate st node = .ok candidate →
    st.picked node.name ≠ some candidate.version →
    rv.MayGiveWay roots st node candidate w → ∀ dep ∈ candidate.deps,
      ∃ r, (⟨dep.name, r⟩ ∈ w.deps ∨ ⟨dep.name, r⟩ ∈ roots) ∧ rv.Narrower dep.name r dep.range

variable {rv : Resolver} {roots : List Requirement} {st st' : Resolving} {node : QueueEntry}
  {rest : List QueueEntry} {recs : Assignment} {c : ClassName} {v : CatalogVersion}

/-- Everything recorded, or to be, has its path. -/
structure Traced (rv : Resolver) (roots : List Requirement) (st : Resolving)
    (recs : Assignment) : Prop extends rv.Picks roots st recs where
  recorded : ∀ c, ∀ a ∈ st.constraints c, PathTo roots recs c a.range a.path
  queued : ∀ node ∈ st.queue, PathTo roots recs node.name node.range node.path

theorem Picks.current (h : rv.Picks roots st recs) : rv.Current st recs :=
  ⟨h.picked, fun c rec hrec => (h.highest c rec hrec).1.1⟩

namespace Traced

theorem start (roots : List Requirement) :
    rv.Traced roots (Resolver.start roots) (fun _ => none) where
  toPicks := .start roots
  recorded c a ha := absurd ha (by simp [Resolver.start])
  queued node hnode := by
    obtain ⟨root, hroot, rfl⟩ := List.mem_map.mp hnode
    exact .root hroot

/-- What is recorded with an entry has its path. -/
theorem list (h : rv.Traced roots st recs) (hq : st.queue = node :: rest)
    {a : AccumulatedRange} (ha : a ∈ Resolver.list st node) :
    PathTo roots recs node.name a.range a.path := by
  rcases List.mem_append.mp ha with ha | ha
  · exact h.recorded _ a ha
  · obtain rfl := List.mem_singleton.mp ha
    exact h.queued node (hq ▸ List.mem_cons_self)

theorem constraints (h : rv.Traced roots st recs) (hq : st.queue = node :: rest)
    {a : AccumulatedRange} (ha : a ∈ (Resolver.recorded st node rest).constraints c) :
    PathTo roots recs c a.range a.path := by
  by_cases he : c = node.name
  · subst he
    rw [constraints_recorded_self] at ha
    exact h.list hq ha
  · rw [constraints_recorded_ne he] at ha
    exact h.recorded c a ha

/-- **Every iteration that replaces no version with dependencies keeps to it.** -/
theorem next (hsem : rv.semver.Lawful) (h : rv.Traced roots st recs)
    (hG : ∀ node rest, st.queue = node :: rest → rv.PicksForGood roots st node)
    (hn : rv.next st = some (.ok st')) : ∃ recs', rv.Traced roots st' recs' := by
  obtain ⟨node, rest, hq, hv⟩ := next_ok hn
  have hrest : ∀ n ∈ rest, PathTo roots recs n.name n.range n.path :=
    fun n hn => h.queued n (hq ▸ List.mem_cons_of_mem _ hn)
  cases hv with
  | same hc hp =>
    exact ⟨recs, h.toPicks.same hsem hq hc hp, fun c a ha => h.constraints hq ha, hrest⟩
  | @picks v hc hp _ =>
    have hkeep : ∀ d rec, recs d = some rec → rec.deps ≠ [] →
        update recs node.name (some v) d = some rec := by
      intro d rec hrec hdeps
      by_cases he : d = node.name
      · subst he
        obtain ⟨⟨versions, hcat, hmem⟩, -⟩ := (h.highest _ _ hrec).1
        have hpicked : st.picked node.name = some rec.version := by
          rw [← h.picked, hrec, Option.map_some]
        refine absurd ((hG node rest hq).replaced versions rec v hcat hmem hc hpicked ?_) hdeps
        exact fun he => hp (he ▸ hpicked)
      · rw [Function.update_of_ne he, hrec]
    refine ⟨_, h.toPicks.repick hsem hq hc, fun c a ha => (h.constraints hq ha).mono hkeep, ?_⟩
    intro n hn
    rcases List.mem_append.mp hn with hn | hn
    · exact (hrest n hn).mono hkeep
    · obtain ⟨dep, hdep, rfl⟩ := List.mem_map.mp hn
      exact .dep ((h.queued node (hq ▸ List.mem_cons_self)).mono hkeep)
        (Function.update_self _ _ _) hdep

end Traced

/-! ### What an exact assignment meets

The ranges that are recorded or in the queue need not be those that an exact assignment
demands: a pick may be another than the assignment's. But the assignment meets them all,
and that is what each iteration keeps. -/

/-- The versions that it takes are on offer, of classes the roots may lead to. -/
theorem Exact.offers {E : Assignment} (hE : rv.Exact roots E) {rec : CatalogVersion}
    (h : E c = some rec) : rv.Offers c rec :=
  (hE.taken c rec h).1.mono (fun _ => False.elim)

theorem Exact.names {E : Assignment} (hE : rv.Exact roots E) (h : Reachable roots E c) :
    rv.Names roots c := by
  induction h with
  | root h => exact .root h
  | dep _ hrec hdep ih => exact .dep ih (hE.offers hrec) hdep

/-- An iteration that throws a conflict, and what it has found. -/
theorem next_conflict {ranges : List AccumulatedRange}
    (hn : rv.next st = some (.error (.depConflict c ranges))) :
    ∃ node rest versions, st.queue = node :: rest ∧ node.name = c
      ∧ ranges = list st node ∧ rv.catalog c = some versions
      ∧ rv.semver.pickHighest versions ranges = none := by
  obtain ⟨node, rest, hq, ⟨message, he⟩ | he⟩ := next_error hn
  · exact absurd he (by simp)
  unfold candidate at he
  split at he
  · exact absurd he (by simp)
  next versions hcat =>
  split at he
  · next hp =>
    obtain ⟨rfl, rfl⟩ := ResolverError.depConflict.inj (Except.error.inj he)
    exact ⟨node, rest, versions, hq, rfl, rfl, hcat, hp⟩
  · exact absurd he (by simp)

/-- An iteration that throws since the class is not in the catalog. -/
theorem next_classNotFound (hn : rv.next st = some (.error (.classNotFound c))) :
    ∃ node rest, st.queue = node :: rest ∧ rv.catalog node.name = none := by
  obtain ⟨node, rest, hq, ⟨message, he⟩ | he⟩ := next_error hn
  · exact absurd he (by simp)
  refine ⟨node, rest, hq, ?_⟩
  unfold candidate at he
  split at he
  · assumption
  split at he
  · exact absurd he (by simp)
  · exact absurd he (by simp)

end Resolver
