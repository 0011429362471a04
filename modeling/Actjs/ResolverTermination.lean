import Actjs.Resolver
import Mathlib.Algebra.Order.BigOperators.Group.Finset
import Mathlib.Data.Set.Finite.Basic

/-!
# The resolver comes to an end

`maxDepth` and `maxNodes` may be `Infinity`, and then no number of nodes is left that
goes down. What goes down all the same is how many versions the recorded ranges still
admit: a pick is the first of the highest that they admit, and the sort is stable, so it
is made anew only where the version that was picked is admitted no longer. The versions
of the classes that have any are finitely many, however their dependencies run in
circles; and between two picks the queue only gets shorter.

So the versions picked of a class go down as well. They do strictly, as versions of equal
precedence, which differ in their build metadata, satisfy the same ranges.
-/

open Function (update)

/-- What the resolver relies on of `semver`: `rcompare` orders the versions, and those it
does not tell apart satisfy the same ranges. -/
structure Semver.Precedence (sem : Semver) : Prop extends sem.Lawful where
  satisfies : ∀ v w r, sem.rcompare v w = 0 → sem.satisfies v r = sem.satisfies w r

/-- The options of `resolve`. A limit that is `none` is `Infinity`. -/
structure ResolverLimits where
  maxDepth : Option ℕ
  maxNodes : Option ℕ

namespace ResolverLimits

/-- How a limit is written in a message. -/
def text : Option ℕ → String
  | none => "Infinity"
  | some limit => toString limit

/-- The path is longer than `maxDepth * 2`. -/
def tooDeep (limits : ResolverLimits) (path : List String) : Bool :=
  limits.maxDepth.any (fun maxDepth => maxDepth * 2 < path.length)

/-- So many nodes are more than `maxNodes`. -/
def tooMany (limits : ResolverLimits) (nodes : ℕ) : Bool :=
  limits.maxNodes.any (fun maxNodes => maxNodes < nodes)

end ResolverLimits

namespace Resolver

/-- The loop takes an entry from the queue, within the limits. -/
def visitWithin (rv : Resolver) (limits : ResolverLimits) (st : Resolving) (node : QueueEntry)
    (rest : List QueueEntry) : Except ResolverError Resolving :=
  if limits.tooDeep node.path = true then
    .error (.limitExceeded
      ("resolver exceeded maxDepth=" ++ ResolverLimits.text limits.maxDepth))
  else
    match rv.candidate st node with
    | .error e => .error e
    | .ok candidate =>
      if st.picked node.name = some candidate.version then .ok (recorded st node rest)
      else if limits.tooMany (st.nodes + 1) = true then
        .error (.limitExceeded
          ("resolver exceeded maxNodes=" ++ ResolverLimits.text limits.maxNodes))
      else .ok (repicked st node rest candidate)

/-- An iteration of the loop. -/
def nextWithin (rv : Resolver) (limits : ResolverLimits) (st : Resolving) :
    Option (Except ResolverError Resolving) :=
  match st.queue with
  | [] => none
  | node :: rest => some (rv.visitWithin limits st node rest)

/-- **With both limits finite, it is the loop of `resolve`.** -/
theorem nextWithin_some (rv : Resolver) :
    rv.nextWithin ⟨some rv.maxDepth, some rv.maxNodes⟩ = rv.next := by
  funext st
  unfold nextWithin next
  cases st.queue with
  | nil => rfl
  | cons node rest =>
    show some (rv.visitWithin _ st node rest) = some (rv.visit st node rest)
    unfold visitWithin visit ResolverLimits.tooDeep ResolverLimits.tooMany
    simp only [Option.any_some, decide_eq_true_eq]
    rfl

/-- The pick that an iteration makes: `picked.set` comes before the limit is checked. -/
def pick (rv : Resolver) (limits : ResolverLimits) (st : Resolving) :
    Option (ClassName × CatalogVersion) :=
  match st.queue with
  | [] => none
  | node :: _ =>
    if limits.tooDeep node.path = true then none
    else
      match rv.candidate st node with
      | .error _ => none
      | .ok candidate =>
        if st.picked node.name = some candidate.version then none
        else some (node.name, candidate)

/-- **The picks** of so many iterations, from `resolve` on, in their order. -/
def picks (rv : Resolver) (limits : ResolverLimits) (roots : List Requirement) (n : ℕ) :
    List (ClassName × CatalogVersion) :=
  Loop.shown (rv.nextWithin limits) (rv.pick limits) n (start roots)

/-- The versions that were picked of a class. -/
def versionsOf (c : ClassName) (picks : List (ClassName × CatalogVersion)) : List Version :=
  (picks.filter (fun p => p.1 = c)).map (fun p => p.2.version)

variable {rv : Resolver} {limits : ResolverLimits} {st st' : Resolving} {node : QueueEntry}
  {rest : List QueueEntry} {c : ClassName} {v : CatalogVersion} {roots : List Requirement}

/-- What an iteration does, and what it picks. -/
inductive VisitsWithin (rv : Resolver) (limits : ResolverLimits) (st : Resolving) :
    Option (Except ResolverError Resolving) → Option (ClassName × CatalogVersion) → Prop
  | done : st.queue = [] → VisitsWithin rv limits st none none
  | throws {e : ResolverError} : VisitsWithin rv limits st (some (.error e)) none
  | same {node : QueueEntry} {rest : List QueueEntry} {v : CatalogVersion} :
      st.queue = node :: rest → rv.candidate st node = .ok v →
      st.picked node.name = some v.version →
      VisitsWithin rv limits st (some (.ok (recorded st node rest))) none
  | exceeds {node : QueueEntry} {rest : List QueueEntry} {v : CatalogVersion}
      {e : ResolverError} : st.queue = node :: rest → rv.candidate st node = .ok v →
      st.picked node.name ≠ some v.version →
      VisitsWithin rv limits st (some (.error e)) (some (node.name, v))
  | picks {node : QueueEntry} {rest : List QueueEntry} {v : CatalogVersion} :
      st.queue = node :: rest → rv.candidate st node = .ok v →
      st.picked node.name ≠ some v.version → limits.tooMany (st.nodes + 1) = false →
      VisitsWithin rv limits st (some (.ok (repicked st node rest v))) (some (node.name, v))

theorem visitsWithin (rv : Resolver) (limits : ResolverLimits) (st : Resolving) :
    VisitsWithin rv limits st (rv.nextWithin limits st) (rv.pick limits st) := by
  unfold nextWithin pick
  cases hq : st.queue with
  | nil => exact .done hq
  | cons node rest =>
    dsimp only
    unfold visitWithin
    split
    · exact .throws
    cases hc : rv.candidate st node with
    | error e => exact .throws
    | ok v =>
      dsimp only
      split
      · next hp => exact .same hq hc hp
      next hp =>
      split
      · exact .exceeds hq hc hp
      · next hm => exact .picks hq hc hp (Bool.eq_false_iff.mpr hm)

end Resolver

/-! ## A pick is made anew only when it must be

The sort is stable and the pick the first of the highest, so a new range
changes the pick only by excluding it. -/

namespace Semver

variable {sem : Semver} {versions : List CatalogVersion} {cs : List AccumulatedRange}
  {a : AccumulatedRange} {v w : CatalogVersion}

theorem admits_concat : sem.admits (cs ++ [a]) v
    = (sem.admits cs v && sem.satisfies v.version a.range) := by
  unfold admits
  rw [List.all_append, List.all_cons, List.all_nil, Bool.and_true, Bool.and_assoc]

/-- A range more, and what is admitted is what is left of it. -/
theorem filter_admits_concat : versions.filter (sem.admits (cs ++ [a]))
    = (versions.filter (sem.admits cs)).filter (fun v => sem.satisfies v.version a.range) := by
  rw [List.filter_filter]
  refine List.filter_congr (fun v _ => ?_)
  rw [admits_concat, Bool.and_comm]

/-- It is put before the first of the others, or that one stays the first. -/
theorem first_cons : sem.first (v :: versions) = match sem.first versions with
    | none => some v
    | some w => if sem.rcompare v.version w.version ≤ 0 then some v else some w := by
  unfold first
  rw [List.insertionSort_cons]
  cases hs : versions.insertionSort
      (fun v w => sem.rcompare v.version w.version ≤ 0) with
  | nil => rfl
  | cons w ws =>
    rw [List.orderedInsert]
    dsimp only [List.head?_cons]
    split <;> rfl

/-- **The sort is stable**: the version that is first stays so while it is among them. -/
theorem first_filter (hsem : sem.Lawful) {p : CatalogVersion → Bool}
    (h : sem.first versions = some v) (hv : p v = true) :
    sem.first (versions.filter p) = some v := by
  induction versions generalizing v with
  | nil => exact absurd h (by simp [first])
  | cons w ws ih =>
    rw [first_cons] at h
    cases hf : sem.first ws with
    | none =>
      rw [hf] at h
      obtain rfl := Option.some.inj h
      have hnil : ws = [] := by
        rw [first, List.head?_eq_none_iff] at hf
        exact List.eq_nil_of_length_eq_zero (by
          rw [← List.length_insertionSort
            (fun v w => sem.rcompare v.version w.version ≤ 0) ws, hf, List.length_nil])
      rw [hnil, List.filter_cons_of_pos hv, List.filter_nil]
      rfl
    | some u =>
      rw [hf] at h
      dsimp only at h
      split at h
      · next hle =>
        obtain rfl := Option.some.inj h
        rw [List.filter_cons_of_pos hv, first_cons]
        cases hf' : sem.first (ws.filter p) with
        | none => rfl
        | some u' =>
          -- what is first of the rest comes no earlier than what is first of all of them
          have hu' : u' ∈ ws := List.mem_of_mem_filter (first_mem hf')
          exact if_pos (hsem.trans _ _ _ hle (first_le hsem hf hu'))
      · next hle =>
        obtain rfl := Option.some.inj h
        by_cases hw : p w = true
        · rw [List.filter_cons_of_pos hw, first_cons, ih hf hv]
          exact if_neg hle
        · rw [List.filter_cons_of_neg hw, ih hf hv]

/-- A version that is picked is picked again, while it is admitted. -/
theorem pickHighest_concat (hsem : sem.Lawful) (h : sem.pickHighest versions cs = some v)
    (hv : sem.admits (cs ++ [a]) v = true) :
    sem.pickHighest versions (cs ++ [a]) = some v := by
  show sem.first (versions.filter (sem.admits (cs ++ [a]))) = some v
  rw [admits_concat, Bool.and_eq_true] at hv
  rw [filter_admits_concat]
  exact first_filter hsem h hv.2

end Semver

namespace Resolver

variable {rv : Resolver} {limits : ResolverLimits} {st st' : Resolving} {node : QueueEntry}
  {rest : List QueueEntry} {c : ClassName} {v : CatalogVersion} {roots : List Requirement}

/-- **The picks stand**: what is picked of a class is what would be picked of it under the
ranges recorded by now. -/
def Standing (rv : Resolver) (st : Resolving) : Prop :=
  ∀ c version, st.picked c = some version → ∃ versions rec, rv.catalog c = some versions
    ∧ rv.semver.pickHighest versions (st.constraints c) = some rec ∧ rec.version = version

theorem candidate_eq_ok (h : rv.candidate st node = .ok v) :
    ∃ versions, rv.catalog node.name = some versions
      ∧ rv.semver.pickHighest versions (list st node) = some v := by
  unfold candidate at h
  split at h
  · exact absurd h (by simp)
  next versions hc =>
  split at h
  · exact absurd h (by simp)
  · next hp => exact ⟨versions, hc, Except.ok.inj h ▸ hp⟩

namespace Standing

theorem start (rv : Resolver) (roots : List Requirement) : rv.Standing (start roots) :=
  fun _ _ h => absurd h (by simp [Resolver.start])

/-- The entry is recorded, and what is picked of its class is the candidate. -/
theorem recorded (h : rv.Standing st) (hc : rv.candidate st node = .ok v)
    {picked : ClassName → Option Version} (hself : picked node.name = some v.version)
    (hne : ∀ c, c ≠ node.name → picked c = st.picked c) (rest queue : List QueueEntry)
    (nodes : ℕ) :
    rv.Standing ⟨queue, (recorded st node rest).constraints, picked, nodes⟩ := by
  intro c version hp
  show ∃ versions rec, rv.catalog c = some versions
    ∧ rv.semver.pickHighest versions ((Resolver.recorded st node rest).constraints c) = some rec
    ∧ rec.version = version
  have hp : picked c = some version := hp
  by_cases he : c = node.name
  · subst he
    obtain ⟨versions, hcat, hpick⟩ := candidate_eq_ok hc
    rw [constraints_recorded_self]
    exact ⟨versions, v, hcat, hpick, Option.some.inj (hself.symm.trans hp)⟩
  · rw [constraints_recorded_ne he]
    exact h c version ((hne c he).symm.trans hp)

/-- **A version that is replaced is admitted no longer.** -/
theorem not_admits (h : rv.Standing st) (hsem : rv.semver.Lawful) {version : Version}
    (hc : rv.candidate st node = .ok v) (hp : st.picked node.name = some version)
    (hne : version ≠ v.version) :
    ∃ versions old, rv.catalog node.name = some versions ∧ old.version = version
      ∧ rv.semver.pickHighest versions (st.constraints node.name) = some old
      ∧ rv.semver.pickHighest versions (list st node) = some v
      ∧ rv.semver.admits (list st node) old = false := by
  obtain ⟨versions, old, hcat, hold, rfl⟩ := h _ _ hp
  obtain ⟨versions', hcat', hv⟩ := candidate_eq_ok hc
  obtain rfl := Option.some.inj (hcat.symm.trans hcat')
  refine ⟨versions, old, hcat, rfl, hold, hv, ?_⟩
  by_contra hadmits
  have hstays : rv.semver.pickHighest versions (list st node) = some old :=
    Semver.pickHighest_concat hsem hold (Bool.not_eq_false _ |>.mp hadmits)
  exact hne (congrArg CatalogVersion.version (Option.some.inj (hstays.symm.trans hv)))

/-- **What replaces it is strictly lower.** -/
theorem descends (h : rv.Standing st) (hsem : rv.semver.Precedence) {version : Version}
    (hc : rv.candidate st node = .ok v) (hp : st.picked node.name = some version)
    (hne : version ≠ v.version) : rv.semver.rcompare version v.version < 0 := by
  obtain ⟨versions, old, -, rfl, hold, hv, hnot⟩ := h.not_admits hsem.toLawful hc hp hne
  -- the candidate was admitted before as well
  have hmem : v ∈ (versions.filter (rv.semver.admits (st.constraints node.name))).filter
      (fun v => rv.semver.satisfies v.version node.range) := by
    rw [← Semver.filter_admits_concat (a := ⟨node.range, node.path⟩)]
    exact Semver.first_mem hv
  obtain ⟨hbefore, hsat⟩ := List.mem_filter.mp hmem
  refine lt_of_le_of_ne (Semver.first_le hsem.toLawful hold hbefore) (fun heq => ?_)
  -- of equal precedence, the one before would satisfy the range as well
  have hadmits : rv.semver.admits (st.constraints node.name) old = true :=
    (List.mem_filter.mp (Semver.first_mem hold)).2
  rw [list, Semver.admits_concat, hadmits, Bool.true_and,
    hsem.satisfies _ _ _ heq] at hnot
  exact absurd (hnot.symm.trans hsat) (by simp)

/-- **Every iteration leaves the picks standing.** -/
theorem next (h : rv.Standing st) (hn : rv.nextWithin limits st = some (.ok st')) :
    rv.Standing st' := by
  have hv := rv.visitsWithin limits st
  rw [hn] at hv
  generalize rv.pick limits st = p at hv
  cases hv with
  | @same node rest v hq hc hp =>
    exact h.recorded hc hp (fun _ _ => rfl) rest rest _
  | @picks node rest v hq hc hp _ =>
    exact h.recorded hc (Function.update_self _ _ _)
      (fun c he => Function.update_of_ne he _ _) rest _ _

end Standing

/-! ## What goes down

First how many versions the recorded ranges still admit, over all classes with
any; and while that stands still, the length of the queue. -/

/-- How many versions of the class the recorded ranges admit. -/
def admitted (rv : Resolver) (st : Resolving) (c : ClassName) : ℕ :=
  (((rv.catalog c).getD []).filter (rv.semver.admits (st.constraints c))).length

/-- How many picks of the class there may still be. -/
def remaining (rv : Resolver) (st : Resolving) (c : ClassName) : ℕ :=
  rv.admitted st c + if st.picked c = none then 1 else 0

/-- What an iteration uses up: a pick, or an entry of the queue. -/
def sizeWithin (rv : Resolver) (names : Finset ClassName) (st : Resolving) : ℕ × ℕ :=
  (∑ c ∈ names, rv.remaining st c, st.queue.length)

theorem admitted_recorded_ne (rest : List QueueEntry) (he : c ≠ node.name) :
    rv.admitted (recorded st node rest) c = rv.admitted st c := by
  unfold admitted
  rw [constraints_recorded_ne he]

/-- What is recorded admits no more. -/
theorem admitted_recorded_le (rv : Resolver) (st : Resolving) (node : QueueEntry)
    (rest : List QueueEntry) (c : ClassName) :
    rv.admitted (recorded st node rest) c ≤ rv.admitted st c := by
  by_cases he : c = node.name
  · subst he
    unfold admitted
    rw [constraints_recorded_self, list, Semver.filter_admits_concat]
    exact List.length_filter_le _ _
  · exact Nat.le_of_eq (admitted_recorded_ne rest he)

/-- **A pick uses up what remains of its class.** -/
theorem remaining_repicked_lt (h : rv.Standing st) (hsem : rv.semver.Lawful)
    (hc : rv.candidate st node = .ok v) (hp : st.picked node.name ≠ some v.version) :
    rv.remaining (repicked st node rest v) node.name < rv.remaining st node.name := by
  have hle := rv.admitted_recorded_le st node rest node.name
  have hnow : rv.remaining (repicked st node rest v) node.name
      = rv.admitted (recorded st node rest) node.name := by
    unfold remaining
    rw [if_neg (by simp [repicked])]
    rfl
  rw [hnow, remaining]
  cases hold : st.picked node.name with
  | none =>
    rw [if_pos rfl]
    exact Nat.lt_succ_of_le hle
  | some version =>
    rw [if_neg (by simp), Nat.add_zero]
    have hne : version ≠ v.version := fun he => hp (hold.trans (congrArg some he))
    obtain ⟨versions, old, hcat, -, hpick, -, hnot⟩ := h.not_admits hsem hc hold hne
    have hadmits : rv.semver.admits (st.constraints node.name) old = true :=
      (List.mem_filter.mp (Semver.first_mem hpick)).2
    rw [list, Semver.admits_concat, hadmits, Bool.true_and] at hnot
    unfold admitted
    rw [hcat, Option.getD_some, constraints_recorded_self, list, Semver.filter_admits_concat]
    exact List.length_filter_lt_length_iff_exists.mpr
      ⟨old, Semver.first_mem hpick, by rw [hnot]; exact Bool.false_ne_true⟩

/-- **Every iteration brings the size down**, where the classes that have versions are
among the names. -/
theorem sizeWithin_lt {names : Finset ClassName}
    (hnames : ∀ c versions, rv.catalog c = some versions → versions ≠ [] → c ∈ names)
    (hsem : rv.semver.Lawful) (h : rv.Standing st)
    (hn : rv.nextWithin limits st = some (.ok st')) :
    Prod.Lex (· < ·) (· < ·) (rv.sizeWithin names st') (rv.sizeWithin names st) := by
  have hv := rv.visitsWithin limits st
  rw [hn] at hv
  generalize rv.pick limits st = p at hv
  cases hv with
  | @same node rest v hq hc hp =>
    have hle : ∑ c ∈ names, rv.remaining (recorded st node rest) c
        ≤ ∑ c ∈ names, rv.remaining st c :=
      Finset.sum_le_sum (fun c _ =>
        Nat.add_le_add_right (rv.admitted_recorded_le st node rest c) _)
    have hqueue : rest.length < st.queue.length := by
      rw [hq]
      exact Nat.lt_succ_self _
    unfold sizeWithin
    rcases Nat.lt_or_eq_of_le hle with hlt | heq
    · exact .left _ _ hlt
    · rw [heq]
      exact .right _ hqueue
  | @picks node rest v hq hc hp _ =>
    obtain ⟨versions, hcat, hpick⟩ := candidate_eq_ok hc
    have hmem : node.name ∈ names := by
      refine hnames _ _ hcat (fun hnil => ?_)
      have := List.mem_of_mem_filter (Semver.first_mem hpick)
      rw [hnil] at this
      exact List.not_mem_nil this
    refine .left _ _ (Finset.sum_lt_sum (fun c _ => ?_)
      ⟨node.name, hmem, remaining_repicked_lt h hsem hc hp⟩)
    by_cases he : c = node.name
    · exact he ▸ Nat.le_of_lt (remaining_repicked_lt h hsem hc hp)
    · refine Nat.le_of_eq (congrArg₂ (· + ·) (admitted_recorded_ne rest he) ?_)
      show (if update st.picked node.name _ c = none then 1 else 0) = _
      rw [Function.update_of_ne he]

/-! ## What the picks are

The versions that were picked of one class, in the order in which they were,
form a strictly descending chain. -/

theorem versionsOf_cons_self (c : ClassName) (v : CatalogVersion)
    (ps : List (ClassName × CatalogVersion)) :
    versionsOf c ((c, v) :: ps) = v.version :: versionsOf c ps := by
  unfold versionsOf
  rw [List.filter_cons_of_pos (by simp), List.map_cons]

theorem versionsOf_cons_ne {d : ClassName} (hd : d ≠ c) (v : CatalogVersion)
    (ps : List (ClassName × CatalogVersion)) :
    versionsOf c ((d, v) :: ps) = versionsOf c ps := by
  unfold versionsOf
  rw [List.filter_cons_of_neg (by simpa using hd)]

/-- A pick goes down from what is picked of its class, and so on from there. -/
theorem Standing.isChain_cons (h : rv.Standing st) (hsem : rv.semver.Precedence)
    (hc : rv.candidate st node = .ok v) (hp : st.picked node.name ≠ some v.version)
    {ws : List Version}
    (hws : List.IsChain (fun v w => rv.semver.rcompare v w < 0) (v.version :: ws)) :
    List.IsChain (fun v w => rv.semver.rcompare v w < 0)
      ((st.picked node.name).toList ++ v.version :: ws) := by
  cases hold : st.picked node.name with
  | none => exact hws
  | some version =>
    refine List.isChain_cons_cons.mpr ⟨h.descends hsem hc hold (fun he => hp ?_), hws⟩
    rw [hold, he]

/-- **The versions picked of a class go down**, from the one that is picked in any state
on. -/
theorem isChain_shown (hsem : rv.semver.Precedence) (h : rv.Standing st) (c : ClassName)
    (n : ℕ) : List.IsChain (fun v w => rv.semver.rcompare v w < 0)
      ((st.picked c).toList
        ++ versionsOf c (Loop.shown (rv.nextWithin limits) (rv.pick limits) n st)) := by
  have hnil : ∀ {o : Option Version},
      List.IsChain (fun v w => rv.semver.rcompare v w < 0) (o.toList ++ versionsOf c []) := by
    intro o
    cases o <;> simp [versionsOf]
  induction n generalizing st with
  | zero => exact hnil
  | succ n ih =>
    rw [Loop.shown]
    have hnext : ∀ st', rv.nextWithin limits st = some (.ok st') → rv.Standing st' :=
      fun st' hn => h.next hn
    have hv := rv.visitsWithin limits st
    generalize rv.nextWithin limits st = r at hv hnext ⊢
    generalize rv.pick limits st = p at hv ⊢
    cases hv with
    | done _ => exact hnil
    | throws => exact hnil
    | @exceeds node rest v e hq hc hp =>
      show List.IsChain _ ((st.picked c).toList ++ versionsOf c [(node.name, v)])
      by_cases he : c = node.name
      · subst he
        rw [versionsOf_cons_self]
        exact h.isChain_cons hsem hc hp (List.isChain_singleton _)
      · rw [versionsOf_cons_ne (Ne.symm he)]
        exact hnil
    | same hq hc hp => exact ih (hnext _ rfl)
    | @picks node rest v hq hc hp hm =>
      have hrest := ih (hnext _ rfl)
      show List.IsChain _ ((st.picked c).toList ++ versionsOf c ((node.name, v) :: _))
      by_cases he : c = node.name
      · subst he
        have hpicked : (repicked st node rest v).picked node.name = some v.version :=
          Function.update_self _ _ _
        rw [hpicked] at hrest
        rw [versionsOf_cons_self]
        exact h.isChain_cons hsem hc hp hrest
      · have hpicked : (repicked st node rest v).picked c = st.picked c :=
          Function.update_of_ne he _ _
        rw [hpicked] at hrest
        rw [versionsOf_cons_ne (Ne.symm he)]
        exact hrest

/-- What is picked is a version of the class that is not deprecated. -/
theorem mem_shown {n : ℕ}
    (h : (c, v) ∈ Loop.shown (rv.nextWithin limits) (rv.pick limits) n st) :
    v.deprecatedAt = none ∧ ∃ versions, rv.catalog c = some versions ∧ v ∈ versions := by
  have hpick : ∀ {st : Resolving} {node : QueueEntry} {w : CatalogVersion},
      rv.candidate st node = .ok w → (c, v) = (node.name, w) →
      v.deprecatedAt = none ∧ ∃ versions, rv.catalog c = some versions ∧ v ∈ versions := by
    intro st node w hc he
    obtain ⟨rfl, rfl⟩ := Prod.mk.inj he
    obtain ⟨versions, hcat, hfirst⟩ := candidate_eq_ok hc
    obtain ⟨hmem, hadmits⟩ := List.mem_filter.mp (Semver.first_mem hfirst)
    rw [Semver.admits, Bool.and_eq_true, Option.isNone_iff_eq_none] at hadmits
    exact ⟨hadmits.1, versions, hcat, hmem⟩
  induction n generalizing st with
  | zero => exact absurd h List.not_mem_nil
  | succ n ih =>
    rw [Loop.shown, List.mem_append] at h
    have hv := rv.visitsWithin limits st
    generalize rv.nextWithin limits st = r at hv h
    generalize rv.pick limits st = p at hv h
    cases hv with
    | done _ => exact absurd h (by simp)
    | throws => exact absurd h (by simp)
    | exceeds hq hc hp => exact hpick hc (by simpa using h)
    | same hq hc hp => exact ih (h.resolve_left (by simp))
    | picks hq hc hp hm =>
      rcases h with h | h
      · exact hpick hc (by simpa using h)
      · exact ih h

/-- **The picks are few**: as many as the limit allows, and the one that exceeds it. -/
theorem length_shown_le {maxNodes : ℕ} (hlim : limits.maxNodes = some maxNodes)
    (hnodes : st.nodes ≤ maxNodes) (n : ℕ) :
    (Loop.shown (rv.nextWithin limits) (rv.pick limits) n st).length + st.nodes
      ≤ maxNodes + 1 := by
  induction n generalizing st with
  | zero =>
    show 0 + st.nodes ≤ maxNodes + 1
    omega
  | succ n ih =>
    rw [Loop.shown, List.length_append]
    have hv := rv.visitsWithin limits st
    generalize rv.nextWithin limits st = r at hv ⊢
    generalize rv.pick limits st = p at hv ⊢
    cases hv with
    | done _ =>
      show 0 + 0 + st.nodes ≤ maxNodes + 1
      omega
    | throws =>
      show 0 + 0 + st.nodes ≤ maxNodes + 1
      omega
    | exceeds _ _ _ =>
      show 1 + 0 + st.nodes ≤ maxNodes + 1
      omega
    | same _ _ _ =>
      show 0 + _ + st.nodes ≤ maxNodes + 1
      rw [Nat.zero_add]
      exact ih hnodes
    | @picks node rest v _ _ _ hm =>
      have hle : st.nodes + 1 ≤ maxNodes := by
        simpa [ResolverLimits.tooMany, hlim] using hm
      have hrest := @ih (repicked st node rest v) hle
      have hcount : (repicked st node rest v).nodes = st.nodes + 1 := rfl
      show 1 + (Loop.shown (rv.nextWithin limits) (rv.pick limits) n
        (repicked st node rest v)).length + st.nodes ≤ maxNodes + 1
      omega

/-- **The resolver terminates**, for every catalog with finitely many classes and every
list of roots, also where neither limit is set. It picks versions of the catalog, strictly
lower ones of each class; and under `maxNodes` it stops after so many picks and one. -/
theorem resolve_terminates (rv : Resolver) (hsem : rv.semver.Precedence)
    (hfin : {c | ∃ versions, rv.catalog c = some versions ∧ versions ≠ []}.Finite)
    (limits : ResolverLimits) (roots : List Requirement) :
    (∃ n r, Loop.endsIn (rv.nextWithin limits) n (start roots) = some r)
      ∧ (∀ n c, List.IsChain (fun v w => rv.semver.rcompare v w < 0)
          (versionsOf c (rv.picks limits roots n)))
      ∧ (∀ n c v, (c, v) ∈ rv.picks limits roots n →
          v.deprecatedAt = none ∧ ∃ versions, rv.catalog c = some versions ∧ v ∈ versions)
      ∧ (∀ n maxNodes, limits.maxNodes = some maxNodes →
          (rv.picks limits roots n).length ≤ maxNodes + 1) := by
  refine ⟨?_, fun n c => ?_, fun n c v h => mem_shown h, fun n maxNodes hlim => ?_⟩
  · have hfinite : ∀ c versions, rv.catalog c = some versions → versions ≠ [] →
        c ∈ hfin.toFinset :=
      fun c versions hcat hne => hfin.mem_toFinset.mpr ⟨versions, hcat, hne⟩
    have hstep : ∀ st st', rv.Standing st → rv.nextWithin limits st = some (.ok st') →
        rv.Standing st' ∧ Prod.Lex (· < ·) (· < ·) (rv.sizeWithin hfin.toFinset st')
          (rv.sizeWithin hfin.toFinset st) :=
      fun st st' h hn => ⟨h.next hn, sizeWithin_lt hfinite hsem.toLawful h hn⟩
    exact Loop.exists_endsIn hstep (.start rv roots)
  · exact isChain_shown hsem (.start rv roots) c n
  · have hstart : (start roots).nodes ≤ maxNodes := Nat.zero_le maxNodes
    exact length_shown_le hlim hstart n

/-! ### Two classes that require each other -/

/-- How high a version is. -/
def rank (v : Version) : ℤ := if v = "2.0.0" then 2 else if v = "1.0.0" then 1 else 0

/-- `semver` of the versions `1.0.0` and `2.0.0`. -/
def ranked : Semver where
  satisfies v r := decide (0 < rank v) && (r == "*" || (r == "<2.0.0" && rank v == 1))
  rcompare v w := rank w - rank v

theorem ranked_precedence : ranked.Precedence where
  total v w := by
    show rank w - rank v ≤ 0 ∨ rank v - rank w ≤ 0
    omega
  trans u v w h h' := by
    have h : rank v - rank u ≤ 0 := h
    have h' : rank w - rank v ≤ 0 := h'
    show rank w - rank u ≤ 0
    omega
  satisfies v w r h := by
    have h : rank w - rank v = 0 := h
    have heq : rank v = rank w := by omega
    unfold ranked
    dsimp only
    rw [heq]

/-- `A` and `B` require each other, and `A` itself as well, in an older version. -/
def circular : Resolver where
  semver := ranked
  catalog name :=
    if name = "A" then
      some [⟨"1.0.0", [⟨"B", "*"⟩], none⟩, ⟨"2.0.0", [⟨"B", "*"⟩, ⟨"A", "<2.0.0"⟩], none⟩]
    else if name = "B" then some [⟨"1.0.0", [⟨"A", "*"⟩], none⟩]
    else none
  maxDepth := defaultMaxDepth
  maxNodes := defaultMaxNodes

theorem resolve_terminates_circular :
    (∃ n r, Loop.endsIn (circular.nextWithin ⟨none, none⟩) n (start [⟨"A", "*"⟩]) = some r)
      ∧ versionsOf "A" (circular.picks ⟨none, none⟩ [⟨"A", "*"⟩] 7) = ["2.0.0", "1.0.0"]
      ∧ List.IsChain (fun v w => circular.semver.rcompare v w < 0)
          (versionsOf "A" (circular.picks ⟨none, none⟩ [⟨"A", "*"⟩] 7)) := by
  have hfin : {c | ∃ versions, circular.catalog c = some versions ∧ versions ≠ []}.Finite := by
    refine (Set.finite_singleton "B" |>.insert "A").subset (fun c hc => ?_)
    obtain ⟨versions, hcat, -⟩ := hc
    by_contra hne
    obtain ⟨hA, hB⟩ : c ≠ "A" ∧ c ≠ "B" := by simpa using hne
    exact absurd hcat (by simp [circular, hA, hB])
  obtain ⟨hends, hchain, -, -⟩ :=
    resolve_terminates circular ranked_precedence hfin ⟨none, none⟩ [⟨"A", "*"⟩]
  exact ⟨hends, by decide, hchain 7 "A"⟩

end Resolver
