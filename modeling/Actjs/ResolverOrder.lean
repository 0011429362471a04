import Actjs.ResolverConflict
import Mathlib.Data.List.Forall2

/-!
# The order of what the resolver is given

The roots, the entries of a `deps` and the versions of a class come in some order.
What is demanded of the classes has none: `level` goes out from the roots, and each
time over the highest versions under the level before.

Where the queue keeps to the levels, `resolve` records one after the other, and
whether it ends, and with which manifest, is said by the levels alone.
-/

/-- The same version, with its dependencies in any order. -/
structure CatalogVersion.Same (v w : CatalogVersion) : Prop where
  version : w.version = v.version
  deprecatedAt : w.deprecatedAt = v.deprecatedAt
  deps : v.deps.Perm w.deps

namespace Resolver

/-- **The same catalog in another order**, of the versions of a class and of the
dependencies of each. -/
structure Rearranged (rv rv' : Resolver) : Prop where
  semver : rv'.semver = rv.semver
  catalog : ∀ c, Option.Rel
    (fun vs vs' => ∃ ws, List.Forall₂ CatalogVersion.Same vs ws ∧ ws.Perm vs')
    (rv.catalog c) (rv'.catalog c)

/-- The same manifest, or the same kind of error. -/
inductive SameOutcome :
    Except ResolverError ResolveResult → Except ResolverError ResolveResult → Prop
  | ok {res res' : ResolveResult} : res.manifest = res'.manifest → SameOutcome (.ok res) (.ok res')
  | error {e e' : ResolverError} : e.code = e'.code → SameOutcome (.error e) (.error e')

/-- **No pick hangs on the order**: the class of the entry is in the catalog, no other
version comes as high as the one that is picked, and no range is left behind. -/
def steady (rv : Resolver) (roots : List Requirement) (st : Resolving) : Bool :=
  rv.keepsRanges roots st &&
    match st.queue with
    | [] => true
    | node :: _ =>
      match rv.catalog node.name, rv.candidate st node with
      | none, _ => false
      | some _, .error _ => true
      | some versions, .ok candidate =>
        versions.all (fun w => w == candidate || !rv.semver.admits (list st node) w
          || decide (0 < rv.semver.rcompare w.version candidate.version))

/-! ## Levels

A level is a set of requirements, so that no order is left in it; the levels
of two catalogs that differ by an order are the same. -/

/-- The roots, or the highest version under the ranges of its class, require the
range. -/
def demanded (rv : Resolver) (roots : List Requirement) (P : ClassName → String → Prop)
    (c : ClassName) (r : String) : Prop :=
  ⟨c, r⟩ ∈ roots
    ∨ ∃ d rec, (∃ r', P d r') ∧ rv.Highest d (P d) rec ∧ ⟨c, r⟩ ∈ rec.deps

/-- **What is demanded**, so many steps out from the roots. -/
def level (rv : Resolver) (roots : List Requirement) : ℕ → ClassName → String → Prop
  | 0 => fun _ _ => False
  | n + 1 => rv.demanded roots (rv.level roots n)

theorem Rearranged.refl (rv : Resolver) : rv.Rearranged rv where
  semver := rfl
  catalog c := by
    cases rv.catalog c with
    | none => exact .none
    | some vs =>
      exact .some ⟨vs, List.forall₂_same.mpr (fun v _ => ⟨rfl, rfl, .refl _⟩), .refl _⟩

/-- Every version of the one catalog is in the other. -/
structure Within (rv rv' : Resolver) : Prop where
  semver : rv'.semver = rv.semver
  listed : ∀ c vs v, rv.catalog c = some vs → v ∈ vs →
    ∃ vs' w, rv'.catalog c = some vs' ∧ w ∈ vs' ∧ v.Same w

theorem Rearranged.within {rv rv' : Resolver} (h : rv.Rearranged rv') : rv.Within rv' := by
  refine ⟨h.semver, fun c vs v hvs hv => ?_⟩
  have hc := h.catalog c
  rw [hvs] at hc
  cases hvs' : rv'.catalog c with
  | none =>
    rw [hvs'] at hc
    cases hc
  | some vs' =>
    rw [hvs'] at hc
    cases hc with
    | some hperm =>
      obtain ⟨ws, hsame, hperm⟩ := hperm
      obtain ⟨i, hi, rfl⟩ := List.getElem_of_mem hv
      have hi' : i < ws.length := hsame.length_eq ▸ hi
      exact ⟨vs', ws[i], rfl, hperm.mem_iff.mp (List.getElem_mem hi'), hsame.get hi hi'⟩

theorem Rearranged.within_symm {rv rv' : Resolver} (h : rv.Rearranged rv') :
    rv'.Within rv := by
  refine ⟨h.semver.symm, fun c vs' w hvs' hw => ?_⟩
  have hc := h.catalog c
  rw [hvs'] at hc
  cases hvs : rv.catalog c with
  | none =>
    rw [hvs] at hc
    cases hc
  | some vs =>
    rw [hvs] at hc
    cases hc with
    | some hperm =>
      obtain ⟨ws, hsame, hperm⟩ := hperm
      obtain ⟨i, hi, rfl⟩ := List.getElem_of_mem (hperm.mem_iff.mpr hw)
      have hi' : i < vs.length := hsame.length_eq ▸ hi
      have hs := hsame.get hi' hi
      exact ⟨vs, vs[i], rfl, List.getElem_mem hi',
        hs.version.symm, hs.deprecatedAt.symm, hs.deps.symm⟩

variable {rv rv' : Resolver} {roots roots' : List Requirement} {st st' : Resolving}
  {node : QueueEntry} {q₁ q₂ : List QueueEntry} {c : ClassName} {v : CatalogVersion}
  {P : ClassName → String → Prop} {n : ℕ}

namespace Within

theorem admits (h : rv.Within rv') {p : String → Prop} (hv : rv.Admits c p v) :
    ∃ w, rv'.Admits c p w ∧ v.Same w := by
  obtain ⟨⟨vs, hvs, hmem⟩, hdep, hsat⟩ := hv
  obtain ⟨vs', w, hvs', hw, hsame⟩ := h.listed c vs v hvs hmem
  refine ⟨w, ⟨⟨vs', hvs', hw⟩, hsame.deprecatedAt.trans hdep, fun r hr => ?_⟩, hsame⟩
  rw [h.semver, hsame.version]
  exact hsat r hr

theorem highest (h : rv.Within rv') (h' : rv'.Within rv) {p : String → Prop}
    (hv : rv.Highest c p v) : ∃ w, rv'.Highest c p w ∧ v.Same w := by
  obtain ⟨w, hw, hsame⟩ := h.admits hv.1
  refine ⟨w, ⟨hw, fun u hu => ?_⟩, hsame⟩
  obtain ⟨u', hu', hsame'⟩ := h'.admits hu
  rw [h.semver, hsame.version, ← hsame'.version]
  exact hv.2 u' hu'

theorem demanded (h : rv.Within rv') (h' : rv'.Within rv)
    (hroots : ∀ root ∈ roots, root ∈ roots') {r : String} (hd : rv.demanded roots P c r) :
    rv'.demanded roots' P c r := by
  rcases hd with hd | ⟨d, rec, hne, hhigh, hdep⟩
  · exact .inl (hroots _ hd)
  · obtain ⟨w, hw, hsame⟩ := h.highest h' hhigh
    exact .inr ⟨d, w, hne, hw, hsame.deps.mem_iff.mp hdep⟩

end Within

/-- **The levels have no order.** -/
theorem Rearranged.level (h : rv.Rearranged rv') (hroots : roots.Perm roots') (n : ℕ) :
    rv'.level roots' n = rv.level roots n := by
  induction n with
  | zero => rfl
  | succ n ih =>
    funext c r
    show rv'.demanded roots' (rv'.level roots' n) c r = rv.demanded roots (rv.level roots n) c r
    rw [ih]
    exact propext
      ⟨h.within_symm.demanded h.within (fun _ => hroots.mem_iff.mpr),
        h.within.demanded h.within_symm (fun _ => hroots.mem_iff.mp)⟩

/-! ## The queue keeps to the levels

As long as the iterations are steady the queue is the rest of one level and
the beginning of the next, and the loop ends at the first level that brings
nothing new. -/

/-- What the condition says of the entry at the head. -/
theorem steady_head {rest : List QueueEntry} (hG : rv.steady roots st = true)
    (hq : st.queue = node :: rest) :
    rv.catalog node.name ≠ none ∧ ∀ candidate w, rv.candidate st node = .ok candidate →
      rv.Admits node.name (fun r => r ∈ (list st node).map AccumulatedRange.range) w →
      rv.semver.rcompare w.version candidate.version ≤ 0 → w = candidate := by
  unfold steady at hG
  rw [hq] at hG
  have hG := (Bool.and_eq_true_iff.mp hG).2
  dsimp only at hG
  split at hG
  · exact absurd hG (by simp)
  · next e hcat he =>
    exact ⟨by simp [hcat], fun candidate w hc => absurd (he.symm.trans hc) (by simp)⟩
  · next versions candidate' hcat he =>
    refine ⟨by simp [hcat], fun candidate w hc hw hle => ?_⟩
    obtain rfl := Except.ok.inj (he.symm.trans hc)
    obtain ⟨⟨versions', hcat', hmem⟩, hdep, hsat⟩ := hw
    obtain rfl := Option.some.inj (hcat.symm.trans hcat')
    have hadmits : rv.semver.admits (list st node) w = true := by
      rw [Semver.admits, Bool.and_eq_true, hdep, List.all_eq_true]
      exact ⟨rfl, fun a ha => hsat _ (List.mem_map_of_mem ha)⟩
    have hone := List.all_eq_true.mp hG w hmem
    rw [hadmits, Bool.not_true, Bool.or_false, Bool.or_eq_true, beq_iff_eq,
      decide_eq_true_eq] at hone
    exact hone.resolve_right (by omega)

/-- **The first part of the queue completes a level**, and the second begins the
next. -/
structure AtLevel (rv : Resolver) (roots : List Requirement) (st : Resolving) (n : ℕ)
    (q₁ q₂ : List QueueEntry) : Prop where
  grounded : ∃ recs, rv.Grounded roots st recs
  sole : ∀ c v w, (∃ r, st.Ranges c r) → rv.Highest c (st.Ranges c) v →
    rv.Highest c (st.Ranges c) w → v = w
  queue : st.queue = q₁ ++ q₂
  level : ∀ c r, rv.level roots n c r
    ↔ st.Ranges c r ∨ ∃ node ∈ q₁, node.requirement = ⟨c, r⟩
  below : ∀ m < n, ∀ c r, rv.level roots m c r → rv.level roots n c r

namespace AtLevel

theorem start (rv : Resolver) (roots : List Requirement) :
    rv.AtLevel roots (Resolver.start roots) 1 (Resolver.start roots).queue [] where
  grounded := ⟨_, .start roots⟩
  sole c v w hne := absurd hne (by simp [Resolving.Ranges, Resolver.start])
  queue := (List.append_nil _).symm
  level c r := by
    have hfalse : ¬(Resolver.start roots).Ranges c r := by
      simp [Resolving.Ranges, Resolver.start]
    rw [or_iff_right hfalse]
    constructor
    · rintro (hroot | ⟨d, rec, ⟨r', hr'⟩, -⟩)
      · exact ⟨_, List.mem_map_of_mem hroot, rfl⟩
      · exact absurd hr' id
    · rintro ⟨node, hnode, he⟩
      obtain ⟨root, hroot, rfl⟩ := List.mem_map.mp hnode
      exact .inl (he ▸ hroot)
  below m hm c r h := by
    obtain rfl : m = 0 := by omega
    exact absurd h id

/-- Everything is known that the highest versions require. -/
theorem known (h : rv.AtLevel roots st n q₁ q₂) {r : String} :
    st.Known c r ↔ rv.demanded roots st.Ranges c r := by
  obtain ⟨recs, hrecs⟩ := h.grounded
  have hne : ∀ d, (∃ r', st.Ranges d r') ↔ recs d ≠ none := by
    intro d
    rw [Ne, hrecs.constrained]
    constructor
    · rintro ⟨r', hr'⟩ hnil
      rw [Resolving.Ranges, hnil] at hr'
      exact absurd hr' List.not_mem_nil
    · intro hne
      obtain ⟨a, ha⟩ := List.exists_mem_of_ne_nil _ hne
      exact ⟨a.range, List.mem_map_of_mem ha⟩
  constructor
  · intro hk
    refine (hrecs.grounds c r hk).imp id ?_
    rintro ⟨d, rec, -, hrec, hdep⟩
    exact ⟨d, rec, (hne d).mpr (by simp [hrec]), hrecs.highest d rec hrec, hdep⟩
  · rintro (hroot | ⟨d, rec, hsome, hhigh, hdep⟩)
    · exact hrecs.complete c r (.inl hroot)
    · obtain ⟨rec', hrec'⟩ := Option.ne_none_iff_exists'.mp ((hne d).mp hsome)
      obtain rfl := h.sole d rec rec' hsome hhigh (hrecs.highest d rec' hrec')
      exact hrecs.complete c r (.inr ⟨d, rec, hrec', hdep⟩)

/-- **The level is recorded**, and the next begins. -/
theorem shift (h : rv.AtLevel roots st n [] q₂) : rv.AtLevel roots st (n + 1) q₂ [] := by
  have hlevel : rv.level roots n = st.Ranges := by
    funext c r
    exact propext ((h.level c r).trans (or_iff_left (by simp)))
  have hnext : ∀ c r, rv.level roots (n + 1) c r
      ↔ st.Ranges c r ∨ ∃ node ∈ q₂, node.requirement = ⟨c, r⟩ := by
    intro c r
    show rv.demanded roots (rv.level roots n) c r ↔ _
    rw [hlevel, ← h.known, Resolving.Known, h.queue, List.nil_append]
  refine ⟨h.grounded, h.sole, ?_, hnext, fun m hm c r hr => ?_⟩
  · rw [h.queue, List.nil_append, List.append_nil]
  · refine (hnext c r).mpr (.inl ?_)
    rw [← hlevel]
    rcases Nat.lt_succ_iff_lt_or_eq.mp hm with hm | rfl
    · exact h.below m hm c r hr
    · exact hr

/-- The entry at the head belongs to the level. -/
theorem head (h : ∃ n q₁ q₂, rv.AtLevel roots st n q₁ q₂) {rest : List QueueEntry}
    (hq : st.queue = node :: rest) :
    ∃ n q₁ q₂, rest = q₁ ++ q₂ ∧ rv.AtLevel roots st n (node :: q₁) q₂ := by
  obtain ⟨n, q₁, q₂, h⟩ := h
  cases q₁ with
  | nil =>
    obtain rfl : q₂ = node :: rest := by rw [← hq, h.queue, List.nil_append]
    exact ⟨n + 1, rest, [], (List.append_nil _).symm, h.shift⟩
  | cons node' q₁ =>
    obtain ⟨rfl, rfl⟩ := List.cons.inj (hq.symm.trans h.queue)
    exact ⟨n, q₁, q₂, rfl, h⟩

/-- **An iteration keeps to the levels.** -/
theorem next (hsem : rv.semver.Lawful) (h : ∃ n q₁ q₂, rv.AtLevel roots st n q₁ q₂)
    (hG : rv.steady roots st = true) (hn : rv.next st = some (.ok st')) :
    ∃ n q₁ q₂, rv.AtLevel roots st' n q₁ q₂ := by
  obtain ⟨node, rest, hq, hv⟩ := next_ok hn
  obtain ⟨n, q₁, q₂, rfl, h⟩ := head h hq
  obtain ⟨candidate, hc, hranges⟩ : ∃ candidate, rv.candidate st node = .ok candidate
      ∧ st'.Ranges = (recorded st node (q₁ ++ q₂)).Ranges := by
    cases hv with
    | same hc _ => exact ⟨_, hc, rfl⟩
    | picks hc _ _ => exact ⟨_, hc, rfl⟩
  obtain ⟨q₂', hq'⟩ : ∃ q₂', st'.queue = q₁ ++ q₂' := by
    cases hv with
    | same _ _ => exact ⟨q₂, rfl⟩
    | picks _ _ _ => exact ⟨_, List.append_assoc _ _ _⟩
  obtain ⟨recs, hrecs⟩ := h.grounded
  refine ⟨n, q₁, q₂', hrecs.next hsem (Bool.and_eq_true_iff.mp hG).1 hn, ?_, hq', ?_, h.below⟩
  · intro d v w hne hhv hhw
    rw [hranges] at hne hhv hhw
    by_cases he : d = node.name
    · subst he
      have hhighest := candidate_ok hsem hc
      have hsole : ∀ u, rv.Highest node.name
          ((recorded st node (q₁ ++ q₂)).Ranges node.name) u → u = candidate := by
        intro u hu
        have hu := hu.congr (fun r => Picks.ranges_node (q₁ ++ q₂))
        exact (steady_head hG hq).2 candidate u hc hu.1 (hu.2 candidate hhighest.1)
      rw [hsole v hhv, hsole w hhw]
    · have hsame : (recorded st node (q₁ ++ q₂)).Ranges d = st.Ranges d := by
        funext r
        unfold Resolving.Ranges
        rw [constraints_recorded_ne he]
      rw [hsame] at hne hhv hhw
      exact h.sole d v w hne hhv hhw
  · intro c r
    rw [h.level, hranges, ranges_recorded, or_assoc]
    simp

end AtLevel

/-- **The last level**: nothing more is demanded, and the manifest has the one highest
version under it of each class. -/
structure Settled (rv : Resolver) (roots : List Requirement)
    (manifest : ClassName → Option Version) (n : ℕ) : Prop where
  last : ∀ m c r, rv.level roots m c r → rv.level roots n c r
  picks : ∀ c, (∃ r, rv.level roots n c r) → ∃ rec, manifest c = some rec.version
    ∧ rv.Highest c (rv.level roots n c) rec
    ∧ ∀ w, rv.Highest c (rv.level roots n c) w → w = rec
  others : ∀ c, (¬∃ r, rv.level roots n c r) → manifest c = none

/-- With nothing in the queue, the level is the last. -/
theorem AtLevel.settled (h : rv.AtLevel roots st n [] []) :
    rv.Settled roots st.picked n := by
  have hranges : rv.level roots n = st.Ranges := by
    funext c r
    exact propext ((h.level c r).trans (or_iff_left (by simp)))
  have hstays : ∀ k, rv.level roots (n + k) = rv.level roots n := by
    intro k
    induction k with
    | zero => rfl
    | succ k ih =>
      have hnext : rv.level roots (n + 1) = rv.level roots n := by
        funext c r
        rw [hranges]
        exact propext ((h.shift.level c r).trans (or_iff_left (by simp)))
      calc rv.level roots (n + k + 1)
          = rv.demanded roots (rv.level roots (n + k)) := rfl
        _ = rv.level roots (n + 1) := by rw [ih]; rfl
        _ = rv.level roots n := hnext
  obtain ⟨recs, hrecs⟩ := h.grounded
  refine ⟨fun m c r hr => ?_, fun c hc => ?_, fun c hc => ?_⟩
  · rcases Nat.lt_or_ge m n with hm | hm
    · exact h.below m hm c r hr
    · rw [← hstays (m - n), Nat.add_sub_cancel' hm]
      exact hr
  · rw [hranges] at hc ⊢
    have hsome : recs c ≠ none := by
      intro hnone
      obtain ⟨r, hr⟩ := hc
      rw [Resolving.Ranges, (hrecs.constrained c).mp hnone] at hr
      exact absurd hr List.not_mem_nil
    obtain ⟨rec, hrec⟩ := Option.ne_none_iff_exists'.mp hsome
    refine ⟨rec, by rw [← hrecs.picked, hrec, Option.map_some], hrecs.highest c rec hrec, ?_⟩
    exact fun w hw => h.sole c w rec hc hw (hrecs.highest c rec hrec)
  · rw [hranges] at hc
    have hnone : recs c = none := by
      rw [hrecs.constrained]
      refine List.eq_nil_iff_forall_not_mem.mpr (fun a ha => hc ⟨a.range, ?_⟩)
      exact List.mem_map_of_mem ha
    rw [← hrecs.picked, hnone, Option.map_none]

/-- Some version satisfies what is demanded of a class. -/
theorem Settled.admits {manifest : ClassName → Option Version}
    (h : rv.Settled roots manifest n) {m : ℕ} (hc : ∃ r, rv.level roots m c r) :
    ∃ v, rv.Admits c (rv.level roots m c) v := by
  obtain ⟨r, hr⟩ := hc
  obtain ⟨rec, -, hhigh, -⟩ := h.picks c ⟨r, h.last m c r hr⟩
  exact ⟨rec, hhigh.1.mono (fun r => h.last m c r)⟩

/-- All heads of the loop keep to the levels. -/
theorem atLevel_of_reached (hsem : rv.semver.Lawful)
    (hG : ∀ st, Loop.Reached rv.next (start roots) st → rv.steady roots st = true)
    (h : Loop.Reached rv.next (start roots) st) : ∃ n q₁ q₂, rv.AtLevel roots st n q₁ q₂ :=
  h.invariant (P := fun st => ∃ n q₁ q₂, rv.AtLevel roots st n q₁ q₂)
    (fun _ _ h hG hn => AtLevel.next hsem h hG hn) ⟨1, _, _, .start rv roots⟩ hG

/-- **A run that succeeds has come to the last level.** -/
theorem resolve_settled (hsem : rv.semver.Lawful)
    (hG : ∀ st, Loop.Reached rv.next (start roots) st → rv.steady roots st = true)
    {res : ResolveResult} (h : rv.resolve roots = .ok res) :
    ∃ n, rv.Settled roots res.manifest n := by
  obtain ⟨st, hrun, rfl⟩ := resolve_ok h
  obtain ⟨hreached, hdone⟩ := Loop.run_ok hrun
  obtain ⟨n, q₁, q₂, hat⟩ := atLevel_of_reached hsem hG hreached
  obtain ⟨rfl, rfl⟩ := List.append_eq_nil_iff.mp (hat.queue.symm.trans (next_none.mp hdone))
  exact ⟨n, hat.settled⟩

/-- **A run that throws** has come to a level that no version of some class
satisfies. -/
theorem resolve_unsettled (hsem : rv.semver.Lawful)
    (hG : ∀ st, Loop.Reached rv.next (start roots) st → rv.steady roots st = true)
    (hlim : ∀ message, rv.resolve roots ≠ .error (.limitExceeded message))
    {e : ResolverError} (h : rv.resolve roots = .error e) :
    e.code = "DepConflict" ∧ ∃ n c, (∃ r, rv.level roots n c r)
      ∧ ∀ v, ¬rv.Admits c (rv.level roots n c) v := by
  obtain ⟨st, hreached, hthrow⟩ := Loop.run_error (resolve_error h)
  cases e with
  | limitExceeded message => exact absurd h (hlim message)
  | classNotFound c =>
    obtain ⟨node, rest, hq, hcat⟩ := next_classNotFound hthrow
    exact absurd hcat (steady_head (hG st hreached) hq).1
  | depConflict c ranges =>
    refine ⟨rfl, ?_⟩
    obtain ⟨node, rest, versions, hq, rfl, rfl, hcat, hnone⟩ := next_conflict hthrow
    obtain ⟨n, q₁, q₂, rfl, hat⟩ := AtLevel.head (atLevel_of_reached hsem hG hreached) hq
    refine ⟨n, node.name, ⟨node.range, ?_⟩, fun v hv => ?_⟩
    · exact (hat.level _ _).mpr (.inr ⟨node, List.mem_cons_self, rfl⟩)
    · refine pickHighest_none hcat hnone v (hv.mono (fun r hr => ?_))
      rw [hat.level]
      rw [list, List.map_append, List.mem_append, List.map_singleton, List.mem_singleton] at hr
      rcases hr with hr | rfl
      · exact .inl hr
      · exact .inr ⟨node, List.mem_cons_self, rfl⟩

/-- **`resolve` does not depend on the order** of the roots, of the versions of a class
or of their dependencies, if neither run reaches its limits and in both no pick hangs
on the order: the manifests are the same, or both runs throw a conflict. -/
theorem resolve_orderIndependent (rv rv' : Resolver) (hsem : rv.semver.Lawful)
    (hrv : rv.Rearranged rv') (roots roots' : List Requirement) (hroots : roots.Perm roots')
    (hlim : ∀ message, rv.resolve roots ≠ .error (.limitExceeded message))
    (hlim' : ∀ message, rv'.resolve roots' ≠ .error (.limitExceeded message))
    (hG : ∀ st, Loop.Reached rv.next (start roots) st → rv.steady roots st = true)
    (hG' : ∀ st, Loop.Reached rv'.next (start roots') st → rv'.steady roots' st = true) :
    SameOutcome (rv.resolve roots) (rv'.resolve roots') := by
  have hlevel := hrv.level hroots
  have hsem' : rv'.semver.Lawful := hrv.semver ▸ hsem
  cases hres : rv.resolve roots with
  | ok res =>
    obtain ⟨n, hset⟩ := resolve_settled hsem hG hres
    cases hres' : rv'.resolve roots' with
    | ok res' =>
      obtain ⟨n', hset'⟩ := resolve_settled hsem' hG' hres'
      refine .ok (funext fun c => ?_)
      -- both runs have come to the same level
      have hlast : rv'.level roots' n' = rv.level roots n := by
        funext c r
        refine propext ⟨fun hr => ?_, fun hr => ?_⟩
        · rw [hlevel] at hr
          exact hset.last n' c r hr
        · rw [← hlevel] at hr
          exact hset'.last n c r hr
      by_cases hc : ∃ r, rv.level roots n c r
      · obtain ⟨rec, hpick, -, hsole⟩ := hset.picks c hc
        obtain ⟨rec', hpick', hhigh', -⟩ := hset'.picks c (hlast ▸ hc)
        rw [hlast] at hhigh'
        obtain ⟨w, hw, hsame⟩ := hrv.within_symm.highest hrv.within hhigh'
        rw [hpick, hpick', ← hsame.version, hsole w hw]
      · rw [hset.others c hc, hset'.others c (hlast ▸ hc)]
    | error e' =>
      obtain ⟨-, m, c, hc, hnone⟩ := resolve_unsettled hsem' hG' hlim' hres'
      rw [hlevel] at hc hnone
      obtain ⟨v, hv⟩ := hset.admits hc
      obtain ⟨w, hw, -⟩ := hrv.within.admits hv
      exact absurd hw (hnone w)
  | error e =>
    obtain ⟨hcode, m, c, hc, hnone⟩ := resolve_unsettled hsem hG hlim hres
    cases hres' : rv'.resolve roots' with
    | ok res' =>
      obtain ⟨n', hset'⟩ := resolve_settled hsem' hG' hres'
      rw [← hlevel] at hc hnone
      obtain ⟨v, hv⟩ := hset'.admits hc
      obtain ⟨w, hw, -⟩ := hrv.within_symm.admits hv
      exact absurd hw (hnone w)
    | error e' =>
      exact .error (hcode.trans (resolve_unsettled hsem' hG' hlim' hres').1.symm)

/-! ### Orders over two versions -/

/-- The versions of every class the other way round. -/
def reversed (rv : Resolver) : Resolver :=
  { rv with catalog := fun c => (rv.catalog c).map List.reverse }

theorem rearranged_reversed (rv : Resolver) : rv.Rearranged rv.reversed where
  semver := rfl
  catalog c := by
    show Option.Rel _ (rv.catalog c) ((rv.catalog c).map List.reverse)
    cases rv.catalog c with
    | none => exact .none
    | some vs =>
      refine .some ⟨vs, List.forall₂_same.mpr (fun v _ => ⟨rfl, rfl, .refl _⟩), ?_⟩
      exact (List.reverse_perm vs).symm

/-- `B` requires the older version of `A`, and comes before it or after. -/
theorem resolve_orderIndependent_swapped :
    (∃ res, (abc [] [] [⟨"A", "<2.0.0"⟩] []).resolve [⟨"A", "*"⟩, ⟨"B", "*"⟩] = .ok res
        ∧ res.manifest "A" = some "1.0.0")
      ∧ SameOutcome ((abc [] [] [⟨"A", "<2.0.0"⟩] []).resolve [⟨"A", "*"⟩, ⟨"B", "*"⟩])
        ((abc [] [] [⟨"A", "<2.0.0"⟩] []).reversed.resolve [⟨"B", "*"⟩, ⟨"A", "*"⟩]) := by
  obtain ⟨st, hres, hA⟩ := resolve_ends (abc [] [] [⟨"A", "<2.0.0"⟩] [])
    [⟨"A", "*"⟩, ⟨"B", "*"⟩] 4 (fun st => st.picked "A" == some "1.0.0") (by decide)
  obtain ⟨st', hres', -⟩ := resolve_ends (abc [] [] [⟨"A", "<2.0.0"⟩] []).reversed
    [⟨"B", "*"⟩, ⟨"A", "*"⟩] 4 (fun _ => true) (by decide)
  refine ⟨⟨_, hres, beq_iff_eq.mp hA⟩, ?_⟩
  exact resolve_orderIndependent _ _ twoVersions_lawful (rearranged_reversed _) _ _
    (.swap _ _ _) (fun message => by simp [hres]) (fun message => by simp [hres'])
    (fun st => Loop.Reached.of_holdsAlong (n := 4) (by decide))
    (fun st => Loop.Reached.of_holdsAlong (n := 4) (by decide))

/-- With the wider range of `A` first, its newer version brings in `C`; with the
narrower first, **nothing does**. -/
theorem not_resolve_orderIndependent :
    ¬∀ (rv rv' : Resolver), rv.semver.Lawful →
      (∀ c vs, rv.catalog c = some vs → (vs.map CatalogVersion.version).Nodup) →
      rv.Rearranged rv' → ∀ (roots roots' : List Requirement), roots.Perm roots' →
      (∀ message, rv.resolve roots ≠ .error (.limitExceeded message)) →
      (∀ message, rv'.resolve roots' ≠ .error (.limitExceeded message)) →
      SameOutcome (rv.resolve roots) (rv'.resolve roots') := by
  intro h
  obtain ⟨st, hres, hC⟩ := resolve_ends (abc [] [⟨"C", "*"⟩] [] [])
    [⟨"A", "*"⟩, ⟨"A", "<2.0.0"⟩] 4 (fun st => st.picked "C" == some "1.0.0") (by decide)
  obtain ⟨st', hres', hC'⟩ := resolve_ends (abc [] [⟨"C", "*"⟩] [] [])
    [⟨"A", "<2.0.0"⟩, ⟨"A", "*"⟩] 4 (fun st => st.picked "C" == none) (by decide)
  have hdistinct : ∀ c vs, (abc [] [⟨"C", "*"⟩] [] []).catalog c = some vs →
      (vs.map CatalogVersion.version).Nodup := by
    intro c vs hvs
    unfold abc at hvs
    dsimp only at hvs
    split at hvs
    · exact Option.some.inj hvs ▸ by decide
    split at hvs
    · exact Option.some.inj hvs ▸ by decide
    split at hvs
    · exact Option.some.inj hvs ▸ by decide
    · exact absurd hvs (by simp)
  have hsame := h _ _ twoVersions_lawful hdistinct (.refl _) [⟨"A", "*"⟩, ⟨"A", "<2.0.0"⟩]
    [⟨"A", "<2.0.0"⟩, ⟨"A", "*"⟩] (.swap _ _ _)
    (fun message => by simp [hres]) (fun message => by simp [hres'])
  rw [hres, hres'] at hsame
  cases hsame with
  | ok hmanifest =>
    have hC := (congrFun hmanifest "C").symm.trans (beq_iff_eq.mp hC)
    exact absurd (hC.symm.trans (beq_iff_eq.mp hC')) (by simp)

end Resolver
