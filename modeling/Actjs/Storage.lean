import Mathlib.Algebra.Order.Ring.Int
import Mathlib.Data.List.Induction
import Mathlib.Tactic.Common
import Actjs.Json

/-!
# One actor's part of the storage driver

What a `StorageDriver` holds for one actor id: its row, its snapshots by
seq, its event log and its inbox. Each operation below is the durable
effect of the driver method of the same name; that a method is
asynchronous, and may fail without effect, is the business of whoever calls
it.

Two choices of representation. The log is a list, the event at index `i`
having seq `i + 1`, which is how both drivers assign seqs. An inbox entry is
named by the position at which it was appended – the drivers' ids are
strings, unique and increasing, and nothing else of them is used – and an
acked entry is marked rather than deleted, so that what was ever appended
stays readable; `readPendingInbox` returns the same entries either way.
-/

/-- `ActorId`, a branded string. -/
abbrev ActorId := String

/-- `ClassName`, a branded string. -/
abbrev ClassName := String

/-- `Version`, a branded SemVer string. -/
abbrev Version := String

/-- The bookkeeping row of an actor. -/
structure ActorRow where
  cls : ClassName
  version : Version
  tombstoned : Bool
deriving DecidableEq

/-- A stored snapshot. -/
structure SnapshotRow (S : Type) where
  classVersion : Version
  state : S
deriving DecidableEq

/-- What `loadSnapshot` returns. -/
structure SnapshotRead (S : Type) where
  cls : ClassName
  version : Version
  seq : ℤ
  state : S
deriving DecidableEq

/-- What `appendEvents` is given for one event. -/
structure EventWrite where
  type : String
  payload : Json

/-- A logged event; its seq is its position in the log plus one. -/
structure EventRow where
  classVersion : Version
  type : String
  payload : Json

/-- What `appendInbox` is given. -/
structure InboxEntry where
  type : String
  payload : Json

/-- What `readPendingInbox` returns for one entry. -/
structure InboxRecord where
  id : ℕ
  entry : InboxEntry

/-- **The durable state of one actor.** -/
structure ActorStore (S : Type) where
  row : Option ActorRow
  /-- The snapshots by seq, one per seq. -/
  snapshots : List (ℤ × SnapshotRow S)
  /-- The event log, oldest first. -/
  events : List EventRow
  /-- Every inbox entry ever appended, oldest first. -/
  inbox : List InboxEntry
  /-- The ids of the acked inbox entries. -/
  acked : List ℕ

variable {S : Type}

/-- The snapshot of highest seq at least zero; seq `-1` is the retention
slot of `migrateSnapshot`. -/
def bestSnapshot : List (ℤ × SnapshotRow S) → Option (ℤ × SnapshotRow S)
  | [] => none
  | p :: ps =>
    if p.fst < 0 then bestSnapshot ps
    else
      match bestSnapshot ps with
      | none => some p
      | some q => if p.fst < q.fst then some q else some p

/-- Pair each event of a log whose first event has seq `n + 1` with its
seq. -/
def numberedFrom (n : ℤ) : List EventRow → List (ℤ × EventRow)
  | [] => []
  | e :: es => (n + 1, e) :: numberedFrom (n + 1) es

/-- The entries of an inbox that are not acked, oldest first. -/
def pendingInbox (inbox : List InboxEntry) (acked : List ℕ) :
    List InboxRecord :=
  (inbox.mapIdx (fun i e => (⟨i, e⟩ : InboxRecord))).filter
    (fun r => !acked.contains r.id)

namespace ActorStore

/-- An actor storage has never heard of. -/
def empty : ActorStore S := ⟨none, [], [], [], []⟩

/-- `registerActor`: insert the row or overwrite it. -/
def registerActor (st : ActorStore S) (cls : ClassName) (version : Version) :
    ActorStore S :=
  { st with row := some ⟨cls, version, false⟩ }

/-- `tombstoneActor`: mark the row, if there is one. -/
def tombstoneActor (st : ActorStore S) : ActorStore S :=
  { st with row := st.row.map (fun r => { r with tombstoned := true }) }

/-- `loadSnapshot`: the live snapshot, under the class of the row. -/
def loadSnapshot (st : ActorStore S) : Option (SnapshotRead S) :=
  match st.row, bestSnapshot st.snapshots with
  | some r, some (seq, snap) => some ⟨r.cls, snap.classVersion, seq, snap.state⟩
  | _, _ => none

/-- `saveSnapshot`: insert the snapshot, or replace the one of its seq. -/
def saveSnapshot (st : ActorStore S) (seq : ℤ) (version : Version)
    (state : S) : ActorStore S :=
  { st with
    snapshots := st.snapshots.filter (fun p => p.fst != seq)
      ++ [(seq, ⟨version, state⟩)] }

/-- `headEventSeq`. -/
def headEventSeq (st : ActorStore S) : ℤ := st.events.length

/-- `appendEvents`: append a batch stamped with the version of the row, and
return the seq of its last event. It throws for an unknown actor. -/
def appendEvents (st : ActorStore S) (writes : List EventWrite) :
    Option (ActorStore S × ℤ) :=
  match writes, st.row with
  | [], _ => some (st, st.headEventSeq)
  | _ :: _, none => none
  | ws, some r =>
    let st' :=
      { st with
        events := st.events
          ++ ws.map (fun w => ⟨r.version, w.type, w.payload⟩) }
    some (st', st'.headEventSeq)

/-- `readEvents`: the events of seq at least `fromSeq`, in order. -/
def readEvents (st : ActorStore S) (fromSeq : ℤ) : List (ℤ × EventRow) :=
  match st.row with
  | none => []
  | some _ => (numberedFrom 0 st.events).filter (fun p => fromSeq ≤ p.fst)

/-- `appendInbox`: append an entry, whose id is `st.inbox.length`. -/
def appendInbox (st : ActorStore S) (e : InboxEntry) : ActorStore S :=
  { st with inbox := st.inbox ++ [e] }

/-- `ackInbox` of one entry. -/
def ackInbox (st : ActorStore S) (id : ℕ) : ActorStore S :=
  { st with acked := id :: st.acked }

/-- `readPendingInbox` without a limit. -/
def readPendingInbox (st : ActorStore S) : List InboxRecord :=
  pendingInbox st.inbox st.acked

theorem appendEvents_inbox {st st' : ActorStore S} {ws : List EventWrite}
    {seq : ℤ} (h : st.appendEvents ws = some (st', seq)) :
    st'.inbox = st.inbox := by
  unfold appendEvents at h
  split at h
  · cases h; rfl
  · exact absurd h (by simp)
  · cases h; rfl

theorem appendEvents_acked {st st' : ActorStore S} {ws : List EventWrite}
    {seq : ℤ} (h : st.appendEvents ws = some (st', seq)) :
    st'.acked = st.acked := by
  unfold appendEvents at h
  split at h
  · cases h; rfl
  · exact absurd h (by simp)
  · cases h; rfl

/-- **What an append leaves in storage**: the batch at the end of the log,
stamped with the version of the row. -/
theorem appendEvents_spec {st st' : ActorStore S} {ws : List EventWrite}
    {seq : ℤ} (h : st.appendEvents ws = some (st', seq)) :
    st'.snapshots = st.snapshots ∧ seq = st'.headEventSeq ∧ st'.row = st.row
      ∧ ∃ new, st'.events = st.events ++ new
        ∧ new.map EventRow.payload = ws.map EventWrite.payload
        ∧ ∀ e ∈ new, ∃ r, st.row = some r ∧ e.classVersion = r.version := by
  unfold appendEvents at h
  split at h
  · cases h
    exact ⟨rfl, rfl, rfl, [], (List.append_nil _).symm, rfl,
      fun e he => absurd he (by simp)⟩
  · exact absurd h (by simp)
  · next r _ hr =>
    cases h
    refine ⟨rfl, rfl, rfl, _, rfl, ?_, fun e he => ?_⟩
    · rw [List.map_map]
      rfl
    · obtain ⟨w, -, rfl⟩ := List.mem_map.mp he
      exact ⟨r, hr, rfl⟩

/-- The rows of a batch with an event in it. -/
theorem appendEvents_rows {st st' : ActorStore S} {ws : List EventWrite} {seq : ℤ}
    (h : st.appendEvents ws = some (st', seq)) (hne : ws ≠ []) :
    ∃ r, st.row = some r
      ∧ st'.events = st.events ++ ws.map (fun w => ⟨r.version, w.type, w.payload⟩) := by
  unfold appendEvents at h
  split at h
  · exact absurd rfl hne
  · exact absurd h (by simp)
  · next r _ hr =>
    cases h
    exact ⟨r, hr, rfl⟩

@[simp] theorem registerActor_events (st : ActorStore S) (c : ClassName)
    (v : Version) : (st.registerActor c v).events = st.events := rfl
@[simp] theorem registerActor_inbox (st : ActorStore S) (c : ClassName)
    (v : Version) : (st.registerActor c v).inbox = st.inbox := rfl
@[simp] theorem registerActor_acked (st : ActorStore S) (c : ClassName)
    (v : Version) : (st.registerActor c v).acked = st.acked := rfl
@[simp] theorem registerActor_snapshots (st : ActorStore S) (c : ClassName)
    (v : Version) : (st.registerActor c v).snapshots = st.snapshots := rfl

end ActorStore

/-! ## Snapshots

A load returns the snapshot of the highest seq that is not negative. Saving
one at a seq that is at least as high makes it the one; saving one below
leaves the other. -/

/-- The snapshot returned is one of those stored, and not a retained
one. -/
theorem bestSnapshot_mem {ps : List (ℤ × SnapshotRow S)}
    {p : ℤ × SnapshotRow S} (h : bestSnapshot ps = some p) :
    p ∈ ps ∧ 0 ≤ p.fst := by
  induction ps with
  | nil => exact absurd h (by simp [bestSnapshot])
  | cons q ps ih =>
    rw [bestSnapshot] at h
    split at h
    · exact ⟨List.mem_cons_of_mem _ (ih h).1, (ih h).2⟩
    · next hq =>
      split at h
      · obtain rfl := Option.some.inj h
        exact ⟨List.mem_cons_self, Int.not_lt.mp hq⟩
      · next r hr =>
        split at h
        · obtain rfl := Option.some.inj h
          exact ⟨List.mem_cons_of_mem _ (ih hr).1, (ih hr).2⟩
        · obtain rfl := Option.some.inj h
          exact ⟨List.mem_cons_self, Int.not_lt.mp hq⟩

/-- A snapshot that is loaded is one of those stored, and not a retained one. -/
theorem ActorStore.mem_of_loadSnapshot {st : ActorStore S} {snap : SnapshotRead S}
    (h : st.loadSnapshot = some snap) :
    ∃ p ∈ st.snapshots, 0 ≤ p.fst ∧ p.snd.classVersion = snap.version
      ∧ p.snd.state = snap.state := by
  unfold ActorStore.loadSnapshot at h
  split at h
  · next row seq best hrow hbest =>
    obtain rfl := Option.some.inj h
    obtain ⟨hmem, h0⟩ := bestSnapshot_mem hbest
    exact ⟨_, hmem, h0, rfl, rfl⟩
  · cases h

/-- No snapshot is returned only if none is live. -/
theorem bestSnapshot_none {ps : List (ℤ × SnapshotRow S)}
    (h : bestSnapshot ps = none) : ∀ q ∈ ps, q.fst < 0 := by
  induction ps with
  | nil => exact fun q hq => absurd hq List.not_mem_nil
  | cons q ps ih =>
    rw [bestSnapshot] at h
    split at h
    · next hq =>
      intro r hr
      rcases List.mem_cons.mp hr with rfl | hr
      · exact hq
      · exact ih h r hr
    · split at h
      · simp only [reduceCtorEq] at h
      · split at h <;> simp only [reduceCtorEq] at h

/-- No snapshot is above the one that is returned. -/
theorem bestSnapshot_le {ps : List (ℤ × SnapshotRow S)}
    {p : ℤ × SnapshotRow S} (h : bestSnapshot ps = some p) :
    ∀ q ∈ ps, q.fst ≤ p.fst := by
  induction ps generalizing p with
  | nil => exact fun q hq => absurd hq List.not_mem_nil
  | cons q ps ih =>
    have hp := (bestSnapshot_mem h).2
    rw [bestSnapshot] at h
    intro r hr
    split at h
    · next hq =>
      rcases List.mem_cons.mp hr with rfl | hr
      · omega
      · exact ih h r hr
    · split at h
      · next hnone =>
        obtain rfl := Option.some.inj h
        rcases List.mem_cons.mp hr with rfl | hr
        · exact le_rfl
        · have := bestSnapshot_none hnone r hr
          omega
      · next t ht =>
        have hle := ih ht
        split at h
        · next hlt =>
          obtain rfl := Option.some.inj h
          rcases List.mem_cons.mp hr with rfl | hr
          · exact le_of_lt hlt
          · exact hle r hr
        · next hge =>
          obtain rfl := Option.some.inj h
          rcases List.mem_cons.mp hr with rfl | hr
          · exact le_rfl
          · exact (hle r hr).trans (Int.not_lt.mp hge)

/-- A live snapshot above every other is the one returned. -/
theorem bestSnapshot_append_max {ps : List (ℤ × SnapshotRow S)}
    {p : ℤ × SnapshotRow S} (h0 : 0 ≤ p.fst)
    (hmax : ∀ q ∈ ps, q.fst < p.fst) : bestSnapshot (ps ++ [p]) = some p := by
  induction ps with
  | nil => simp [bestSnapshot, Int.not_lt.mpr h0]
  | cons q ps ih =>
    rw [List.cons_append, bestSnapshot,
      ih (fun r hr => hmax r (List.mem_cons_of_mem _ hr))]
    have hq : q.fst < p.fst := hmax q List.mem_cons_self
    split
    · rfl
    · simp [hq]

/-- **Saving at the highest seq so far makes it the live snapshot.** -/
theorem ActorStore.loadSnapshot_saveSnapshot {st : ActorStore S}
    {r : ActorRow} (hrow : st.row = some r) {seq : ℤ} (h0 : 0 ≤ seq)
    (hmax : ∀ q ∈ st.snapshots, q.fst ≤ seq) (v : Version) (x : S) :
    (st.saveSnapshot seq v x).loadSnapshot = some ⟨r.cls, v, seq, x⟩ := by
  have hbest : bestSnapshot (st.saveSnapshot seq v x).snapshots
      = some (seq, ⟨v, x⟩) := by
    refine bestSnapshot_append_max h0 (fun q hq => ?_)
    obtain ⟨hq, hne⟩ := List.mem_filter.mp hq
    exact lt_of_le_of_ne (hmax q hq) (by simpa using hne)
  have hrow' : (st.saveSnapshot seq v x).row = some r := hrow
  rw [ActorStore.loadSnapshot, hrow', hbest]

/-- A snapshot at least as high as what follows is the one returned. -/
theorem bestSnapshot_cons_max {ps : List (ℤ × SnapshotRow S)}
    {q : ℤ × SnapshotRow S} (h0 : 0 ≤ q.fst) (hmax : ∀ r ∈ ps, r.fst ≤ q.fst) :
    bestSnapshot (q :: ps) = some q := by
  rw [bestSnapshot, if_neg (Int.not_lt.mpr h0)]
  cases hr : bestSnapshot ps with
  | none => rfl
  | some r => exact if_neg (Int.not_lt.mpr (hmax r (bestSnapshot_mem hr).1))

/-- A snapshot below the one returned does not come before it. -/
theorem bestSnapshot_cons_lt {ps : List (ℤ × SnapshotRow S)}
    {p q : ℤ × SnapshotRow S} (h : bestSnapshot ps = some p)
    (hlt : q.fst < p.fst) : bestSnapshot (q :: ps) = some p := by
  rw [bestSnapshot, h]
  split
  · rfl
  · exact if_pos hlt

/-- Nor does it when it is written over one of its own seq. -/
theorem bestSnapshot_below {ps : List (ℤ × SnapshotRow S)}
    {p : ℤ × SnapshotRow S} (h : bestSnapshot ps = some p) {seq : ℤ}
    (hlt : seq < p.fst) (x : SnapshotRow S) :
    bestSnapshot (ps.filter (fun q => q.fst != seq) ++ [(seq, x)]) = some p := by
  induction ps with
  | nil => exact absurd h (by simp [bestSnapshot])
  | cons q ps ih =>
    have hp := bestSnapshot_le h q List.mem_cons_self
    by_cases hq : q = p
    · -- the one returned comes first, and nothing behind it is higher
      subst hq
      have hne : (q.fst != seq) = true := by simpa using hlt.ne'
      rw [List.filter_cons, if_pos hne, List.cons_append]
      refine bestSnapshot_cons_max (bestSnapshot_mem h).2 (fun r hr => ?_)
      rcases List.mem_append.mp hr with hr | hr
      · exact bestSnapshot_le h r (List.mem_cons_of_mem _ (List.mem_filter.mp hr).1)
      · obtain rfl := List.mem_singleton.mp hr
        exact le_of_lt hlt
    · have htail : bestSnapshot ps = some p ∧ q.fst < p.fst := by
        have h0 := (bestSnapshot_mem h).2
        rw [bestSnapshot] at h
        split at h
        · exact ⟨h, by omega⟩
        · split at h
          · exact absurd (Option.some.inj h) hq
          · next r hr =>
            split at h
            · next hlt' =>
              obtain rfl := Option.some.inj h
              exact ⟨hr, hlt'⟩
            · exact absurd (Option.some.inj h) hq
      rw [List.filter_cons]
      split
      · rw [List.cons_append]
        exact bestSnapshot_cons_lt (ih htail.1) htail.2
      · exact ih htail.1

/-- **Saving below the live snapshot leaves it live.** -/
theorem ActorStore.loadSnapshot_below {st : ActorStore S} {snap : SnapshotRead S}
    (h : st.loadSnapshot = some snap) {seq : ℤ} (hlt : seq < snap.seq)
    (v : Version) (x : S) : (st.saveSnapshot seq v x).loadSnapshot = some snap := by
  rw [ActorStore.loadSnapshot] at h
  split at h
  · next r q row hrow hbest =>
    obtain rfl := Option.some.inj h
    have hbest' : bestSnapshot (st.saveSnapshot seq v x).snapshots = some (q, row) :=
      bestSnapshot_below hbest hlt _
    have hrow' : (st.saveSnapshot seq v x).row = some r := hrow
    rw [ActorStore.loadSnapshot, hrow', hbest']
  · exact absurd h (by simp)

/-- The snapshot loaded has a seq that is not negative, and a row. -/
theorem ActorStore.loadSnapshot_spec {st : ActorStore S} {snap : SnapshotRead S}
    (h : st.loadSnapshot = some snap) : 0 ≤ snap.seq ∧ st.row ≠ none := by
  rw [ActorStore.loadSnapshot] at h
  split at h
  · next r q row hrow hbest =>
    obtain rfl := Option.some.inj h
    exact ⟨(bestSnapshot_mem hbest).2, by simp [hrow]⟩
  · exact absurd h (by simp)

/-! ## The log

Seqs are positions, so what is read after a seq is what is left of the log
when that many events are dropped. -/

theorem numberedFrom_append (n : ℤ) (es fs : List EventRow) :
    numberedFrom n (es ++ fs)
      = numberedFrom n es ++ numberedFrom (n + es.length) fs := by
  induction es generalizing n with
  | nil => simp [numberedFrom]
  | cons e es ih =>
    rw [List.cons_append, numberedFrom, numberedFrom, ih, List.cons_append]
    have hn : n + 1 + (es.length : ℤ) = n + ((e :: es).length : ℤ) := by
      rw [List.length_cons]
      push_cast
      omega
    rw [hn]

/-- Every seq of a numbered log lies above its base, up to its length. -/
theorem numberedFrom_seq {n : ℤ} {es : List EventRow} {p : ℤ × EventRow}
    (h : p ∈ numberedFrom n es) : n < p.fst ∧ p.fst ≤ n + es.length := by
  induction es generalizing n with
  | nil => exact absurd h (by simp [numberedFrom])
  | cons e es ih =>
    rw [numberedFrom, List.mem_cons] at h
    rw [List.length_cons]
    push_cast
    rcases h with rfl | h
    · exact ⟨by dsimp only; omega, by dsimp only; omega⟩
    · obtain ⟨h₁, h₂⟩ := ih h
      exact ⟨by omega, by omega⟩

theorem numberedFrom_map_snd (n : ℤ) (es : List EventRow) :
    (numberedFrom n es).map Prod.snd = es := by
  induction es generalizing n with
  | nil => rfl
  | cons e es ih => rw [numberedFrom, List.map_cons, ih]

/-- **Reading strictly after a prefix of the log is reading its rest**,
numbered from where the prefix ends. -/
theorem ActorStore.readEvents_after {st : ActorStore S} {r : ActorRow}
    (hrow : st.row = some r) {old new : List EventRow}
    (hev : st.events = old ++ new) :
    st.readEvents (old.length + 1) = numberedFrom old.length new := by
  rw [ActorStore.readEvents, hrow, hev]
  dsimp only
  rw [numberedFrom_append, List.filter_append, zero_add]
  have h₁ : (numberedFrom 0 old).filter
      (fun p => decide ((old.length : ℤ) + 1 ≤ p.fst)) = [] := by
    refine List.filter_eq_nil_iff.mpr (fun p hp => ?_)
    have h := (numberedFrom_seq hp).2
    simp only [decide_eq_true_eq]
    omega
  have h₂ : (numberedFrom old.length new).filter
      (fun p => decide ((old.length : ℤ) + 1 ≤ p.fst))
      = numberedFrom old.length new := by
    refine List.filter_eq_self.mpr (fun p hp => ?_)
    have h := (numberedFrom_seq hp).1
    simp only [decide_eq_true_eq]
    omega
  rw [h₁, h₂, List.nil_append]

/-! ## The inbox

The pending entries are those not acked, in the order they were appended: an
append adds one at the end, an ack takes one out, and neither moves the
others. -/

theorem pendingInbox_append (inbox : List InboxEntry) (e : InboxEntry)
    (acked : List ℕ) :
    pendingInbox (inbox ++ [e]) acked
      = pendingInbox inbox acked
        ++ if inbox.length ∈ acked then [] else [⟨inbox.length, e⟩] := by
  rw [pendingInbox, List.mapIdx_append, List.filter_append, pendingInbox]
  congr 1
  by_cases h : inbox.length ∈ acked <;> simp [h]

/-- **The pending entries are read in the order they were appended**, each of
them once, and all are entries of the inbox. -/
theorem pendingInbox_sorted (inbox : List InboxEntry) (acked : List ℕ) :
    ((pendingInbox inbox acked).map InboxRecord.id).Pairwise (· < ·)
      ∧ ∀ id ∈ (pendingInbox inbox acked).map InboxRecord.id,
          id < inbox.length := by
  induction inbox using List.reverseRecOn with
  | nil => exact ⟨List.Pairwise.nil, fun id h => absurd h (by simp [pendingInbox])⟩
  | append_singleton inbox e ih =>
    rw [pendingInbox_append, List.map_append, List.length_append,
      List.length_singleton]
    have hlast : ∀ id ∈ List.map InboxRecord.id
        (if inbox.length ∈ acked then []
          else [(⟨inbox.length, e⟩ : InboxRecord)]), id = inbox.length := by
      intro id hid
      split at hid
      · exact absurd hid (by simp)
      · simpa using hid
    refine ⟨List.pairwise_append.mpr ⟨ih.1, ?_, fun a ha b hb => ?_⟩,
      fun id hid => ?_⟩
    · split <;> simp
    · rw [hlast b hb]
      exact ih.2 a ha
    · rcases List.mem_append.mp hid with hid | hid
      · exact Nat.lt_succ_of_lt (ih.2 id hid)
      · rw [hlast id hid]
        exact Nat.lt_succ_self _

/-- What was pending in a prefix of the inbox is read first. -/
theorem pendingInbox_take (inbox : List InboxEntry) (acked : List ℕ) (n : ℕ) :
    pendingInbox (inbox.take n) acked <+: pendingInbox inbox acked := by
  have h : ∀ pre post, pendingInbox pre acked
      <+: pendingInbox (pre ++ post) acked := by
    intro pre post
    induction post using List.reverseRecOn with
    | nil => exact (List.append_nil pre).symm ▸ List.prefix_refl _
    | append_singleton post e ih =>
      rw [← List.append_assoc, pendingInbox_append]
      exact ih.trans (List.prefix_append _ _)
  conv => rhs; rw [← List.take_append_drop n inbox]
  exact h _ _

/-- Acking an entry that is not pending leaves the pending ones as they
are. -/
theorem pendingInbox_ack {inbox : List InboxEntry} {acked : List ℕ} {id : ℕ}
    (h : id ∉ (pendingInbox inbox acked).map InboxRecord.id) :
    pendingInbox inbox (id :: acked) = pendingInbox inbox acked := by
  refine List.filter_congr (fun r hr => ?_)
  by_cases hr' : r.id = id
  · have hmem : r.id ∈ acked := by
      by_contra hn
      refine h (List.mem_map.mpr ⟨r, List.mem_filter.mpr ⟨hr, ?_⟩, hr'⟩)
      simpa using hn
    simp [hmem]
  · simp [hr']
