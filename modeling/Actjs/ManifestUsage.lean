import Actjs.ManifestStore
import Mathlib.Algebra.BigOperators.Group.List.Basic
import Mathlib.Algebra.GroupWithZero.Nat

/-!
# The manifests in use

`ManifestUsageTracker` counts the requests that are pinned to a manifest, by its hash, for
the first `maxShas` hashes that it sees. Requests with other hashes are counted together.

A hash that is counted stays so, and one that is not never comes to be, for no entry goes:
so the counts of the hashes are exact, however many others there are.
-/

open Function (update)

/-- A pinned request that is recorded. -/
structure PinRecord where
  sha : String
  /-- What the manifest is known to be. -/
  resolved : Option ResolvedManifest
  now : ℤ

/-- What is kept of a hash. -/
structure UsageEntry where
  count : ℕ
  lastSeen : ℤ
  resolved : Option ResolvedManifest

/-- **`ManifestUsageTracker`**, with the gauge that it sets. -/
structure ManifestUsageTracker where
  maxShas : ℕ
  entries : OrderedMap String UsageEntry
  otherCount : ℕ
  otherLastSeen : ℤ
  /-- The gauge `clientsByManifest`, by its label. -/
  clientsByManifest : String → Option ℕ

/-- `DEFAULT_MAX_SHAS`. -/
def defaultMaxShas : ℕ := 128

/-- `OTHER_BUCKET`. -/
def otherBucket : String := "_other"

/-- What `report` returns. -/
structure ManifestUsageReport where
  entries : List (String × UsageEntry)
  otherCount : ℕ
  otherLastSeen : ℤ

namespace ManifestUsageTracker

def new (maxShas : ℕ) : ManifestUsageTracker := ⟨maxShas, .empty, 0, 0, fun _ => none⟩

/-- The entry of a hash, with its series of the gauge. -/
def put (t : ManifestUsageTracker) (sha : String) (e : UsageEntry) : ManifestUsageTracker :=
  { t with
    entries := t.entries.set sha e
    clientsByManifest := update t.clientsByManifest sha (some e.count) }

/-- `record`. -/
def record (t : ManifestUsageTracker) (r : PinRecord) : ManifestUsageTracker :=
  match t.entries.get r.sha with
  | some existing =>
    t.put r.sha { existing with count := existing.count + 1, lastSeen := r.now }
  | none =>
    if t.maxShas ≤ t.entries.entries.length then
      { t with
        otherCount := t.otherCount + 1
        otherLastSeen := r.now
        clientsByManifest :=
          update t.clientsByManifest otherBucket (some (t.otherCount + 1)) }
    else t.put r.sha ⟨1, r.now, r.resolved⟩

/-- What `report` sorts by: most used first, and of those used alike the one used last. -/
def busier (a b : String × UsageEntry) : Bool :=
  if b.snd.count ≠ a.snd.count then decide (b.snd.count ≤ a.snd.count)
  else decide (b.snd.lastSeen ≤ a.snd.lastSeen)

/-- `report`. -/
def report (t : ManifestUsageTracker) : ManifestUsageReport :=
  ⟨t.entries.entries.mergeSort busier, t.otherCount, t.otherLastSeen⟩

end ManifestUsageTracker

/-! ## What the report says -/

/-- The records of a hash. -/
def recordsOf (rs : List PinRecord) (sha : String) : List PinRecord :=
  rs.filter (fun r => r.sha == sha)

/-- **What is said of a hash is said of its records.** -/
structure UsageEntry.Sums (e : UsageEntry) (rs : List PinRecord) : Prop where
  count : e.count = rs.length
  last : (rs.map PinRecord.now).getLast? = some e.lastSeen
  first : (rs.map PinRecord.resolved).head? = some e.resolved

/-- **What a report says of the records so far**: it has each hash once, the busiest first,
and at most `maxShas` of them; each is reported as its records are, the rest together, and no
record is left out. -/
structure ManifestUsageReport.Reports (report : ManifestUsageReport) (maxShas : ℕ)
    (rs : List PinRecord) : Prop where
  nodup : (report.entries.map Prod.fst).Nodup
  bounded : report.entries.length ≤ maxShas
  busiest : report.entries.Pairwise (fun a b => b.snd.count < a.snd.count
    ∨ b.snd.count = a.snd.count ∧ b.snd.lastSeen ≤ a.snd.lastSeen)
  entries : ∀ x ∈ report.entries, x.snd.Sums (recordsOf rs x.fst)
  others : report.otherCount
    = (rs.filter (fun r => r.sha ∉ report.entries.map Prod.fst)).length
  full : report.otherCount ≠ 0 → report.entries.length = maxShas
  total : (report.entries.map (fun x => x.snd.count)).sum + report.otherCount = rs.length
  otherLast : ((rs.filter (fun r => r.sha ∉ report.entries.map Prod.fst)).map
    PinRecord.now).getLast?.getD 0 = report.otherLastSeen

/-- **The tracker counts the records**: its report says what they are, and the gauge has the
count of each hash, but for one that is the label of the others. -/
structure ManifestUsageTracker.Counts (t : ManifestUsageTracker) (maxShas : ℕ)
    (rs : List PinRecord) : Prop where
  reports : t.report.Reports maxShas rs
  gauge : ∀ sha e, sha ≠ otherBucket → t.entries.get sha = some e →
    t.clientsByManifest sha = some e.count
  otherGauge : t.otherCount ≠ 0 → t.entries.get otherBucket = none →
    t.clientsByManifest otherBucket = some t.otherCount

/-! ## One more record -/

namespace OrderedMap

variable {V : Type} {m : OrderedMap String V} {k : String} {v w : V} (f : V → ℕ)

theorem sum_setEntries {es : List (String × V)} (h : es.lookup k = some w) :
    ((setEntries k v es).map (fun e => f e.snd)).sum + f w
      = (es.map (fun e => f e.snd)).sum + f v := by
  induction es with
  | nil => exact absurd h (by simp)
  | cons e es ih =>
    rw [List.lookup_cons] at h
    rw [setEntries, List.map_cons, List.sum_cons]
    split at h
    · next hk =>
      have hk : k = e.fst := by simpa using hk
      rw [if_pos hk.symm, List.map_cons, List.sum_cons, Option.some.inj h]
      dsimp only
      omega
    · next hk =>
      rw [if_neg (fun he => by simp [he] at hk), List.map_cons, List.sum_cons]
      have hes := ih h
      omega

/-- The value of a key is replaced, -/
theorem sum_set_of_get (h : m.get k = some w) :
    ((m.set k v).entries.map (fun e => f e.snd)).sum + f w
      = (m.entries.map (fun e => f e.snd)).sum + f v := sum_setEntries f h

/-- or comes to the others. -/
theorem sum_set_of_new (h : m.get k = none) :
    ((m.set k v).entries.map (fun e => f e.snd)).sum
      = (m.entries.map (fun e => f e.snd)).sum + f v := by
  rw [entries_set_of_new h, List.map_append, List.sum_append]
  simp

theorem length_set_of_get (h : m.get k = some w) :
    (m.set k v).entries.length = m.entries.length := by
  rw [entries_set_of_get h, List.length_map]

theorem length_set_of_new (h : m.get k = none) :
    (m.set k v).entries.length = m.entries.length + 1 := by
  rw [entries_set_of_new h, List.length_append, List.length_singleton]

theorem mem_keys : k ∈ m.entries.map Prod.fst ↔ m.get k ≠ none := by
  rw [ne_eq, get_eq_none, List.mem_map]
  push Not
  rfl

end OrderedMap

theorem recordsOf_append (rs : List PinRecord) (r : PinRecord) (sha : String) :
    recordsOf (rs ++ [r]) sha
      = if r.sha = sha then recordsOf rs sha ++ [r] else recordsOf rs sha := by
  unfold recordsOf
  rw [List.filter_append, List.filter_cons, List.filter_nil]
  split <;> simp_all

/-- A record more of the same hash. -/
theorem UsageEntry.Sums.next {e : UsageEntry} {rs : List PinRecord} (h : e.Sums rs)
    (r : PinRecord) :
    UsageEntry.Sums { e with count := e.count + 1, lastSeen := r.now } (rs ++ [r]) where
  count := by
    rw [List.length_append, ← h.count]
    rfl
  last := by
    rw [List.map_append, List.map_singleton, List.getLast?_append]
    rfl
  first := by
    rw [List.map_append, List.head?_append, h.first]
    rfl

namespace ManifestUsageTracker

variable {t : ManifestUsageTracker} {rs : List PinRecord}

/-- The records that are counted together. -/
def othersOf (t : ManifestUsageTracker) (rs : List PinRecord) : List PinRecord :=
  rs.filter (fun r => (t.entries.get r.sha).isNone)

/-- **What the tracker keeps.** -/
structure Exact (t : ManifestUsageTracker) (rs : List PinRecord) : Prop where
  bounded : t.entries.entries.length ≤ t.maxShas
  tracked : ∀ sha e, t.entries.get sha = some e → e.Sums (recordsOf rs sha)
  others : t.otherCount = (t.othersOf rs).length
  otherLast : ((t.othersOf rs).map PinRecord.now).getLast?.getD 0 = t.otherLastSeen
  full : ∀ r ∈ rs, t.entries.get r.sha = none → t.entries.entries.length = t.maxShas
  total : (t.entries.entries.map (fun x => x.snd.count)).sum + t.otherCount = rs.length
  gauge : ∀ sha e, sha ≠ otherBucket → t.entries.get sha = some e →
    t.clientsByManifest sha = some e.count
  otherGauge : t.otherCount ≠ 0 → t.entries.get otherBucket = none →
    t.clientsByManifest otherBucket = some t.otherCount

/-- The entry of a hash is set: it is of the records of the hash, and whichever others are
tracked stay so. -/
theorem othersOf_put (t : ManifestUsageTracker) (rs : List PinRecord) {sha : String}
    (e : UsageEntry) (h : ∀ r ∈ rs, r.sha = sha → t.entries.get sha ≠ none) :
    (t.put sha e).othersOf rs = t.othersOf rs := by
  refine List.filter_congr (fun r hr => ?_)
  show ((t.entries.set sha e).get r.sha).isNone = _
  rw [OrderedMap.get_set]
  split
  · next hs =>
    have hne := h r hr hs
    rw [hs, Option.isNone_some, eq_comm, Option.isNone_eq_false_iff, Option.isSome_iff_ne_none]
    exact hne
  · rfl

namespace Exact

theorem new (maxShas : ℕ) : Exact (new maxShas) [] where
  bounded := Nat.zero_le _
  tracked _ _ h := absurd h (by simp [ManifestUsageTracker.new])
  others := rfl
  otherLast := rfl
  full _ h := absurd h List.not_mem_nil
  total := rfl
  gauge _ _ _ h := absurd h (by simp [ManifestUsageTracker.new])
  otherGauge h := absurd rfl h

/-- A record whose hash has an entry afterwards. -/
theorem put (h : t.Exact rs) {r : PinRecord} {e : UsageEntry}
    (hs : e.Sums (recordsOf rs r.sha ++ [r]))
    (hknown : ∀ r' ∈ rs, r'.sha = r.sha → t.entries.get r.sha ≠ none)
    (hlen : (t.entries.set r.sha e).entries.length ≤ t.maxShas)
    (hfull : t.entries.entries.length = t.maxShas →
      (t.entries.set r.sha e).entries.length = t.maxShas)
    (htotal : ((t.entries.set r.sha e).entries.map (fun x => x.snd.count)).sum
      = (t.entries.entries.map (fun x => x.snd.count)).sum + 1) :
    (t.put r.sha e).Exact (rs ++ [r]) := by
  have hothers : (t.put r.sha e).othersOf (rs ++ [r]) = t.othersOf rs := by
    have hold := othersOf_put t rs e hknown
    have hlast : (t.put r.sha e).othersOf [r] = [] := by
      have hg : (t.put r.sha e).entries.get r.sha = some e := OrderedMap.get_set_self
      simp [othersOf, hg]
    unfold othersOf at hold hlast ⊢
    rw [List.filter_append, hold, hlast, List.append_nil]
  refine
    { bounded := hlen
      tracked := fun sha e' he' => ?_
      others := h.others.trans (congrArg List.length hothers).symm
      otherLast := by
        rw [hothers]
        exact h.otherLast
      full := fun r' hr' hn => ?_
      total := ?_
      gauge := fun sha e' hsha he' => ?_
      otherGauge := fun hc hn => ?_ }
  · have he' : (t.entries.set r.sha e).get sha = some e' := he'
    rw [OrderedMap.get_set] at he'
    rw [recordsOf_append]
    by_cases hsha : sha = r.sha
    · subst hsha
      rw [if_pos rfl] at he' ⊢
      exact Option.some.inj he' ▸ hs
    · rw [if_neg hsha] at he'
      rw [if_neg (Ne.symm hsha)]
      exact h.tracked sha e' he'
  · have hn : (t.entries.set r.sha e).get r'.sha = none := hn
    rw [OrderedMap.get_set] at hn
    split at hn
    · exact absurd hn (Option.some_ne_none _)
    · next hne =>
      obtain hr' | hr' := List.mem_append.mp hr'
      · exact hfull (h.full r' hr' hn)
      · exact absurd (List.mem_singleton.mp hr' ▸ rfl) hne
  · have hold := h.total
    rw [List.length_append, List.length_singleton, ← hold]
    show ((t.entries.set r.sha e).entries.map _).sum + t.otherCount = _
    omega
  · have he' : (t.entries.set r.sha e).get sha = some e' := he'
    show update t.clientsByManifest r.sha _ sha = _
    rw [OrderedMap.get_set] at he'
    by_cases hr : sha = r.sha
    · rw [if_pos hr] at he'
      rw [hr, Function.update_self, ← Option.some.inj he']
    · rw [if_neg hr] at he'
      rw [Function.update_of_ne hr]
      exact h.gauge sha e' hsha he'
  · have hn : (t.entries.set r.sha e).get otherBucket = none := hn
    rw [OrderedMap.get_set] at hn
    split at hn
    · exact absurd hn (Option.some_ne_none _)
    · next hne =>
      show update t.clientsByManifest r.sha _ otherBucket = _
      rw [Function.update_of_ne hne]
      exact h.otherGauge hc hn

/-- A record of a hash that is tracked, -/
theorem again (h : t.Exact rs) {r : PinRecord} {e : UsageEntry}
    (he : t.entries.get r.sha = some e) :
    (t.put r.sha { e with count := e.count + 1, lastSeen := r.now }).Exact (rs ++ [r]) := by
  have hlen : ∀ e', (t.entries.set r.sha e').entries.length = t.entries.entries.length :=
    fun _ => OrderedMap.length_set_of_get he
  refine h.put ((h.tracked _ e he).next r) (fun _ _ _ => ?_) ((hlen _).trans_le h.bounded)
    (fun hfull => (hlen _).trans hfull) ?_
  · rw [he]
    exact Option.some_ne_none e
  · have hsum := OrderedMap.sum_set_of_get UsageEntry.count (m := t.entries)
      (v := { e with count := e.count + 1, lastSeen := r.now }) he
    dsimp only at hsum
    omega

/-- of one that there is room for, -/
theorem fresh (h : t.Exact rs) {r : PinRecord} (hn : t.entries.get r.sha = none)
    (hroom : t.entries.entries.length < t.maxShas) :
    (t.put r.sha ⟨1, r.now, r.resolved⟩).Exact (rs ++ [r]) := by
  -- it had been tracked, had there been room for it before
  have hnew : ∀ r' ∈ rs, r'.sha ≠ r.sha := fun r' hr' he =>
    absurd (h.full r' hr' (he ▸ hn)) hroom.ne
  have hnone : recordsOf rs r.sha = [] :=
    List.filter_eq_nil_iff.mpr (fun r' hr' => by simpa using hnew r' hr')
  have hlen := OrderedMap.length_set_of_new (v := (⟨1, r.now, r.resolved⟩ : UsageEntry)) hn
  refine h.put ?_ (fun r' hr' he => absurd he (hnew r' hr')) (by omega) (fun _ => by omega)
    (OrderedMap.sum_set_of_new UsageEntry.count hn)
  rw [hnone]
  exact ⟨rfl, rfl, rfl⟩

/-- and of one that there is none for. -/
theorem other (h : t.Exact rs) {r : PinRecord} (hn : t.entries.get r.sha = none)
    (hfull : t.maxShas ≤ t.entries.entries.length) :
    Exact { t with
      otherCount := t.otherCount + 1
      otherLastSeen := r.now
      clientsByManifest := update t.clientsByManifest otherBucket (some (t.otherCount + 1)) }
      (rs ++ [r]) := by
  have hothers : t.othersOf (rs ++ [r]) = t.othersOf rs ++ [r] := by
    unfold othersOf
    rw [List.filter_append, List.filter_singleton, hn]
    rfl
  exact
    { bounded := h.bounded
      tracked := fun sha e he => by
        rw [recordsOf_append, if_neg (fun hr => by simp [← hr, hn] at he)]
        exact h.tracked sha e he
      others := by
        show t.otherCount + 1 = (t.othersOf (rs ++ [r])).length
        rw [hothers, List.length_append, h.others, List.length_singleton]
      otherLast := by
        show ((t.othersOf (rs ++ [r])).map PinRecord.now).getLast?.getD 0 = r.now
        rw [hothers, List.map_append, List.map_singleton, List.getLast?_append]
        rfl
      full := fun _ _ _ => le_antisymm h.bounded hfull
      total := by
        have htotal := h.total
        rw [List.length_append, List.length_singleton, ← htotal]
        exact (Nat.add_assoc _ _ _).symm
      gauge := fun sha e hs he =>
        (Function.update_of_ne hs _ _).trans (h.gauge sha e hs he)
      otherGauge := fun _ _ =>
        Function.update_self otherBucket (some (t.otherCount + 1)) t.clientsByManifest }

/-- **Every record is counted.** -/
theorem record (h : t.Exact rs) (r : PinRecord) : (t.record r).Exact (rs ++ [r]) := by
  unfold ManifestUsageTracker.record
  split
  · next e he => exact h.again he
  · next hn =>
    split
    · next hfull => exact h.other hn hfull
    · next hroom => exact h.fresh hn (not_le.mp hroom)

end Exact

theorem maxShas_record (t : ManifestUsageTracker) (r : PinRecord) :
    (t.record r).maxShas = t.maxShas := by
  unfold record
  split
  · rfl
  · split <;> rfl

/-! ## The report -/

theorem busier_iff (a b : String × UsageEntry) : busier a b = true ↔ b.snd.count < a.snd.count
    ∨ b.snd.count = a.snd.count ∧ b.snd.lastSeen ≤ a.snd.lastSeen := by
  unfold busier
  split
  · next h =>
    rw [decide_eq_true_iff]
    omega
  · next h =>
    rw [decide_eq_true_iff]
    omega

theorem busiest (es : List (String × UsageEntry)) : (es.mergeSort busier).Pairwise
    (fun a b => b.snd.count < a.snd.count
      ∨ b.snd.count = a.snd.count ∧ b.snd.lastSeen ≤ a.snd.lastSeen) := by
  refine (List.pairwise_mergeSort (fun a b c hab hbc => ?_) (fun a b => ?_) es).imp
    (fun {a b} h => (busier_iff a b).mp h)
  · rw [busier_iff] at hab hbc ⊢
    omega
  · rw [Bool.or_eq_true, busier_iff, busier_iff]
    omega

/-- **What the tracker keeps is what it reports.** -/
theorem Exact.counts (h : t.Exact rs) : t.Counts t.maxShas rs := by
  have hperm : t.report.entries.Perm t.entries.entries := List.mergeSort_perm _ _
  have hothers : rs.filter (fun r => r.sha ∉ t.report.entries.map Prod.fst) = t.othersOf rs := by
    refine List.filter_congr (fun r _ => ?_)
    rw [Bool.eq_iff_iff, decide_eq_true_iff, (hperm.map Prod.fst).mem_iff, OrderedMap.mem_keys,
      not_not, Option.isNone_iff_eq_none]
  refine
    { reports :=
        { nodup := (hperm.map Prod.fst).nodup_iff.mpr t.entries.nodup
          bounded := hperm.length_eq.trans_le h.bounded
          busiest := busiest _
          entries := fun x hx => h.tracked x.fst x.snd
            (OrderedMap.mem_entries.mp (hperm.mem_iff.mp hx))
          others := by
            rw [hothers]
            exact h.others
          full := fun hc => ?_
          total := by
            rw [(hperm.map (fun x => x.snd.count)).sum_eq]
            exact h.total
          otherLast := by
            rw [hothers]
            exact h.otherLast }
      gauge := h.gauge
      otherGauge := h.otherGauge }
  have hne : t.othersOf rs ≠ [] := fun hnil => hc (h.others.trans (congrArg List.length hnil))
  obtain ⟨r, hr⟩ := List.exists_mem_of_ne_nil _ hne
  obtain ⟨hm, hn⟩ := List.mem_filter.mp hr
  exact hperm.length_eq.trans (h.full r hm (Option.isNone_iff_eq_none.mp hn))

end ManifestUsageTracker
