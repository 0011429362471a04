import Mathlib.Data.List.Basic
import Mathlib.Data.List.Nodup
import Actjs.Drivers

/-!
# The event log of an actor

What `appendEvents` owes: the seqs of the log are `1` up to its head, each
once; a batch that was appended has consecutive seqs, in its own order, the
last of which it returned; a batch that was not has no row.

The memory driver keeps this. The ValkeyPg driver reads `MAX(seq)` without a
lock, and its primary key `(actor_id, seq, ts)` lets two transactions with
different `now()` commit the same seq; it keeps the log as it should be as
long as a transaction finds it, when it commits, as it read it.
-/

open Function (update)
open TransitionSystem

variable {S : Type}

/-! ## Consecutive seqs -/

/-- The `m` seqs after `n`. -/
def seqsAfter (n : ℤ) : ℕ → List ℤ
  | 0 => []
  | m + 1 => (n + 1) :: seqsAfter (n + 1) m

theorem seqsAfter_add (n : ℤ) (l m : ℕ) :
    seqsAfter n (l + m) = seqsAfter n l ++ seqsAfter (n + l) m := by
  induction l generalizing n with
  | zero => simp [seqsAfter]
  | succ l ih =>
    rw [Nat.succ_add, seqsAfter, seqsAfter, ih, List.cons_append]
    congr 3
    push_cast
    omega

theorem mem_seqsAfter {n k : ℤ} {m : ℕ} :
    k ∈ seqsAfter n m ↔ n < k ∧ k ≤ n + m := by
  induction m generalizing n with
  | zero => simp [seqsAfter]
  | succ m ih =>
    rw [seqsAfter, List.mem_cons, ih]
    push_cast
    omega

theorem nodup_seqsAfter (n : ℤ) (m : ℕ) : (seqsAfter n m).Nodup := by
  induction m generalizing n with
  | zero => exact List.nodup_nil
  | succ m ih =>
    refine List.nodup_cons.mpr ⟨fun h => ?_, ih (n + 1)⟩
    exact absurd (mem_seqsAfter.mp h).1 (lt_irrefl _)

/-- The largest of consecutive seqs is the last. -/
theorem foldr_max_seqsAfter (n : ℤ) (m : ℕ) (hn : 0 ≤ n) :
    (seqsAfter n m).foldr max 0 = if m = 0 then 0 else n + m := by
  induction m generalizing n with
  | zero => rfl
  | succ m ih =>
    rw [seqsAfter, List.foldr_cons, ih (n + 1) (by omega)]
    split <;> simp_all <;> omega

/-! ## The rows of a batch -/

@[simp] theorem length_batchRows (op ts : ℕ) (version : Version) (seq : ℤ)
    (es : List EventWrite) :
    (batchRows op ts version seq es).length = es.length := by
  induction es generalizing seq with
  | nil => rfl
  | cons e es ih => rw [batchRows, List.length_cons, List.length_cons, ih]

theorem map_seq_batchRows (op ts : ℕ) (version : Version) (seq : ℤ)
    (es : List EventWrite) :
    (batchRows op ts version seq es).map LogRow.seq
      = seqsAfter seq es.length := by
  induction es generalizing seq with
  | nil => rfl
  | cons e es ih => rw [batchRows, List.map_cons, ih]; rfl

theorem op_of_mem_batchRows {op ts : ℕ} {version : Version} {seq : ℤ}
    {es : List EventWrite} {row : LogRow}
    (h : row ∈ batchRows op ts version seq es) : row.op = op := by
  induction es generalizing seq with
  | nil => cases h
  | cons e es ih =>
    rcases List.mem_cons.mp h with rfl | h
    · rfl
    · exact ih h

theorem batchRows_append (op ts : ℕ) (version : Version) (seq : ℤ)
    (es fs : List EventWrite) :
    batchRows op ts version seq (es ++ fs)
      = batchRows op ts version seq es
        ++ batchRows op ts version (seq + es.length) fs := by
  induction es generalizing seq with
  | nil => simp [batchRows]
  | cons e es ih =>
    rw [List.cons_append, batchRows, batchRows, ih, List.cons_append]
    congr 3
    rw [List.length_cons]
    push_cast
    omega

/-- The rows of one operation, in a log that gets the batch of another. -/
theorem filter_append_batchRows {log : List LogRow} {i op ts : ℕ}
    {version : Version} {seq : ℤ} {es : List EventWrite} (h : op ≠ i) :
    (log ++ batchRows op ts version seq es).filter (fun row => row.op == i)
      = log.filter (fun row => row.op == i) := by
  have hbatch : (batchRows op ts version seq es).filter
      (fun row => row.op == i) = [] := by
    refine List.filter_eq_nil_iff.mpr (fun row hrow => ?_)
    rw [op_of_mem_batchRows hrow]
    simpa using h
  rw [List.filter_append, hbatch, List.append_nil]

/-- The rows of one operation, in a log that had none and gets its batch. -/
theorem filter_append_own {log : List LogRow} {i ts : ℕ} {version : Version}
    {seq : ℤ} {es : List EventWrite} (h : ∀ row ∈ log, row.op ≠ i) :
    (log ++ batchRows i ts version seq es).filter (fun row => row.op == i)
      = batchRows i ts version seq es := by
  have hlog : log.filter (fun row => row.op == i) = [] :=
    List.filter_eq_nil_iff.mpr (fun row hrow => by simpa using h row hrow)
  have hbatch : (batchRows i ts version seq es).filter (fun row => row.op == i)
      = batchRows i ts version seq es :=
    List.filter_eq_self.mpr (fun row hrow => by
      simpa using op_of_mem_batchRows hrow)
  rw [List.filter_append, hlog, hbatch, List.nil_append]

/-! ## What the log owes

`KeptLog` relates the rows to the calls that have settled: each appended batch
is a stretch of the log, with the seqs it was told. -/

/-- **Event log integrity**, of a log, its head and the calls that have
settled. -/
structure EventLog (log : List LogRow) (head : ℤ)
    (calls : ℕ → Option (Request S × Answer S)) : Prop where
  distinct : (log.map LogRow.seq).Nodup
  upToHead : ∀ n, n ∈ log.map LogRow.seq ↔ 1 ≤ n ∧ n ≤ head
  /-- A batch that was appended, with the seq of its last event returned. -/
  batch : ∀ i es f n, calls i = some (.appendEvents es f, .appended n) →
    ∃ ts version, log.filter (fun row => row.op == i)
      = batchRows i ts version (n - es.length) es
  /-- No row is of a batch that was not. -/
  wrote : ∀ row ∈ log, ∃ es f n,
    calls row.op = some (.appendEvents es f, .appended n)

/-- The rows are numbered from `1`. -/
def Numbered (log : List LogRow) : Prop :=
  log.map LogRow.seq = seqsAfter 0 log.length

theorem Numbered.maxSeq_eq {log : List LogRow} (h : Numbered log) :
    maxSeq log = log.length := by
  rw [maxSeq, h, foldr_max_seqsAfter 0 _ le_rfl]
  split <;> simp_all

theorem Numbered.append {log : List LogRow} (h : Numbered log) (op ts : ℕ)
    (version : Version) (es : List EventWrite) :
    Numbered (log ++ batchRows op ts version log.length es) := by
  rw [Numbered, List.map_append, h, map_seq_batchRows, List.length_append,
    length_batchRows, seqsAfter_add, zero_add]

/-- **The invariant of either driver**: a log numbered from `1`, and where
the batches of the calls that have settled are in it. -/
structure KeptLog (log : List LogRow)
    (calls : ℕ → Option (Request S × Answer S)) : Prop where
  numbered : Numbered log
  batch : ∀ i es f n, calls i = some (.appendEvents es f, .appended n) →
    ∃ ts version, log.filter (fun row => row.op == i)
      = batchRows i ts version (n - es.length) es
  wrote : ∀ row ∈ log, ∃ es f n,
    calls row.op = some (.appendEvents es f, .appended n)

namespace KeptLog

variable {log : List LogRow} {calls : ℕ → Option (Request S × Answer S)}

theorem init : KeptLog [] (fun _ => (none : Option (Request S × Answer S))) :=
  ⟨rfl, fun _ _ _ _ h => (by cases h), fun _ h => (by cases h)⟩

theorem eventLog (h : KeptLog log calls) : EventLog log log.length calls := by
  refine ⟨h.numbered ▸ nodup_seqsAfter 0 _, fun n => ?_, h.batch, h.wrote⟩
  rw [h.numbered, mem_seqsAfter]
  omega

/-- A call that has not settled has no row. -/
theorem not_wrote (h : KeptLog log calls) {i : ℕ} (hi : calls i = none) :
    ∀ row ∈ log, row.op ≠ i := by
  intro row hrow hop
  obtain ⟨es, f, n, hc⟩ := h.wrote row hrow
  rw [hop, hi] at hc
  cases hc

/-- A call settles that appends nothing. -/
theorem settle (h : KeptLog log calls) {i : ℕ} (hi : calls i = none)
    {r : Request S} {a : Answer S}
    (ha : ∀ es f n, r = .appendEvents es f → a = .appended n → es = []) :
    KeptLog log (update calls i (some (r, a))) where
  numbered := h.numbered
  batch := by
    intro j es f n hj
    by_cases hji : j = i
    · subst hji
      rw [Function.update_self, Option.some.injEq, Prod.mk.injEq] at hj
      obtain rfl := ha es f n hj.1 hj.2
      refine ⟨0, "", List.filter_eq_nil_iff.mpr (fun row hrow => ?_)⟩
      simpa using h.not_wrote hi row hrow
    · rw [Function.update_of_ne hji] at hj
      exact h.batch j es f n hj
  wrote := by
    intro row hrow
    rw [Function.update_of_ne (h.not_wrote hi row hrow)]
    exact h.wrote row hrow

/-- **A call settles that appends its batch** behind the last event. -/
theorem append (h : KeptLog log calls) {i : ℕ} (hi : calls i = none) (ts : ℕ)
    (version : Version) (es : List EventWrite) (f : Option ℤ) :
    KeptLog (log ++ batchRows i ts version log.length es)
      (update calls i
        (some (.appendEvents es f, .appended (log.length + es.length)))) where
  numbered := h.numbered.append i ts version es
  batch := by
    intro j gs g n hj
    by_cases hji : j = i
    · subst hji
      rw [Function.update_self, Option.some.injEq, Prod.mk.injEq] at hj
      obtain ⟨hgs, hn⟩ := hj
      cases hgs
      cases hn
      refine ⟨ts, version, ?_⟩
      rw [filter_append_own (h.not_wrote hi), add_sub_cancel_right]
    · rw [Function.update_of_ne hji] at hj
      rw [filter_append_batchRows (Ne.symm hji)]
      exact h.batch j gs g n hj
  wrote := by
    intro row hrow
    rcases List.mem_append.mp hrow with hrow | hrow
    · rw [Function.update_of_ne (h.not_wrote hi row hrow)]
      exact h.wrote row hrow
    · refine ⟨es, f, log.length + es.length, ?_⟩
      rw [op_of_mem_batchRows hrow, Function.update_self]

end KeptLog

/-! ## The memory driver

An append is one step, so the head it reads is the head it writes after. -/

/-- Rows under fresh seqs are appended by `Map.set`. -/
theorem Memory.setEvents_fresh {log rows : List LogRow}
    (hfresh : ∀ r ∈ rows, ∀ e ∈ log, e.seq ≠ r.seq)
    (hnodup : (rows.map LogRow.seq).Nodup) :
    setEvents log rows = log ++ rows := by
  induction rows generalizing log with
  | nil => rw [setEvents, List.append_nil]
  | cons r rows ih =>
    rw [List.map_cons, List.nodup_cons] at hnodup
    have hkeep : log.filter (fun e => e.seq != r.seq) = log :=
      List.filter_eq_self.mpr (fun e he => by
        simpa using hfresh r List.mem_cons_self e he)
    rw [setEvents, hkeep, ih _ hnodup.2, List.append_assoc, List.singleton_append]
    intro q hq e he
    rcases List.mem_append.mp he with he | he
    · exact hfresh q (List.mem_cons_of_mem _ hq) e he
    · rw [List.mem_singleton.mp he]
      exact fun heq => hnodup.1 (heq ▸ List.mem_map_of_mem hq)

/-- **What a call does to the events of the memory driver**: nothing, or it
sets the rows of its batch. -/
theorem Memory.request_events (m : Memory S) (op : ℕ) (r : Request S) :
    ((m.request op r).fst.events = m.events
      ∧ (m.request op r).fst.headSeq = m.headSeq
      ∧ ∀ es f n, r = .appendEvents es f → (m.request op r).snd = .appended n →
          es = [])
    ∨ ∃ es f version, r = .appendEvents es f
      ∧ (m.request op r).fst.events
          = setEvents m.events (batchRows op 0 version m.headSeq es)
      ∧ (m.request op r).fst.headSeq = m.headSeq + es.length
      ∧ (m.request op r).snd = .appended (m.headSeq + es.length) := by
  cases r with
  | appendEvents es f =>
    by_cases hf : passes m.actor f = true
    · cases es with
      | nil =>
        refine .inl ?_
        simp only [request, hf, Bool.true_eq_false, if_false, true_and]
        intro es _ _ h _
        cases h
        rfl
      | cons e es =>
        cases hactor : m.actor with
        | none =>
          rw [hactor] at hf
          refine .inl ?_
          simp [request, hactor, hf]
        | some row =>
          rw [hactor] at hf
          exact .inr ⟨_, f, row.version, rfl, by simp [request, hactor, hf],
            by simp [request, hactor, hf], by simp [request, hactor, hf]⟩
    · refine .inl ?_
      rw [Bool.not_eq_true] at hf
      simp [request, hf, staleAnswer]
  | saveSnapshot w f =>
    refine .inl ?_
    rw [request]
    split <;> simp
  | bumpActorFence expected =>
    refine .inl ?_
    rw [request]
    split <;> simp
  | _ => exact .inl ⟨rfl, rfl, by simp⟩

/-- The invariant of the memory driver. -/
structure MemoryLog (m : MemoryCalls S) : Prop where
  kept : KeptLog m.driver.events m.calls
  head : m.driver.headSeq = m.driver.events.length

theorem MemoryLog.init : MemoryLog (.init : MemoryCalls S) := ⟨.init, rfl⟩

/-- **One call keeps the log**, and keeps what is in it. -/
theorem MemoryLog.step {m m' : MemoryCalls S} {c : ℕ × Request S}
    (h : MemoryLog m) (hs : m.step c = some m') :
    MemoryLog m' ∧ m.driver.events <+: m'.driver.events := by
  obtain ⟨i, r⟩ := c
  rw [MemoryCalls.step] at hs
  split at hs
  · cases hs
  · next hi =>
    rw [Bool.not_eq_true, Option.isSome_eq_false_iff,
      Option.isNone_iff_eq_none] at hi
    obtain rfl := Option.some.inj hs
    rcases m.driver.request_events i r with
      ⟨hev, hhead, hans⟩ | ⟨es, f, version, rfl, hev, hhead, hans⟩
    · refine ⟨⟨?_, ?_⟩, ?_⟩ <;> simp only [hev, hhead]
      · exact h.kept.settle hi hans
      · exact h.head
      · exact List.prefix_refl _
    · have hset : Memory.setEvents m.driver.events
          (batchRows i 0 version m.driver.headSeq es)
          = m.driver.events
            ++ batchRows i 0 version m.driver.events.length es := by
        rw [h.head]
        refine Memory.setEvents_fresh (fun q hq e he heq => ?_) ?_
        · have hq := List.mem_map_of_mem (f := LogRow.seq) hq
          have he := List.mem_map_of_mem (f := LogRow.seq) he
          rw [map_seq_batchRows, mem_seqsAfter] at hq
          rw [h.kept.numbered, mem_seqsAfter] at he
          omega
        · rw [map_seq_batchRows]
          exact nodup_seqsAfter _ _
      refine ⟨⟨?_, ?_⟩, ?_⟩ <;> simp only [hev, hhead, hans, hset]
      · rw [h.head]
        exact h.kept.append hi 0 version es f
      · rw [List.length_append, length_batchRows, h.head]
        push_cast
        rfl
      · exact List.prefix_append _ _

/-! ## The ValkeyPg driver

A transaction reads `MAX(seq)`, inserts a row at a time, and commits. Until it
commits nobody else sees its rows; `Unraced` says that nobody has committed
meanwhile. -/

/-- A transaction that has made the rows of some of its events. -/
structure Inserting (i : ℕ) (r : Request S) (tx : Tx)
    (rest : List EventWrite) : Prop where
  request : r = .appendEvents tx.events tx.expectedFence
  rows : ∃ made, tx.events = made ++ rest
    ∧ tx.rows = batchRows i tx.ts tx.version tx.head made
  head : tx.head = tx.seen

/-- What is known of the events a method was given, from where it is. -/
def PgPc.Carries (i : ℕ) (r : Request S) : PgPc S → Prop
  | appendFence es f => r = .appendEvents es (some f)
  | appendHead => ∃ f, r = .appendEvents [] f
  | appendBegin es f => r = .appendEvents es f
  | appendMax es f _ => r = .appendEvents es f
  | appendRow tx rest => Inserting i r tx rest
  | appendCommit tx => Inserting i r tx []
  | rollback _ a => ∀ n, a ≠ .appended n
  | _ => True

/-- The invariant of the ValkeyPg driver. -/
structure PgLog (p : Pg S) : Prop where
  kept : KeptLog p.log p.calls
  carries : ∀ i r pc, p.ops i = some ⟨r, pc⟩ → pc.Carries i r

/-- **A transaction commits on the log it read**: no other has committed
since it read `MAX(seq)`. -/
def Pg.Unraced (p : Pg S) : PgAct S → Prop
  | .advance i true _ =>
    match p.pc i with
    | some (.appendCommit tx) => p.log.length = tx.seen
    | _ => True
  | _ => True

instance (p : Pg S) (a : PgAct S) : Decidable (p.Unraced a) := by
  unfold Pg.Unraced
  split <;> [skip; infer_instance]
  split <;> infer_instance

theorem PgPc.carries_first (i : ℕ) (r : Request S) :
    (PgPc.first r).Carries i r := by
  cases r with
  | saveSnapshot w f => cases f <;> trivial
  | appendEvents es f =>
    cases f with
    | none => cases es <;> first | exact ⟨none, rfl⟩ | exact rfl
    | some f => cases es <;> exact rfl
  | _ => trivial

/-- The loop of the inserts goes on, or ends in the commit. -/
theorem Inserting.carries {i : ℕ} {r : Request S} {tx : Tx}
    {rest : List EventWrite} (h : Inserting i r tx rest) :
    (Pg.inserting tx rest : PgPc S).Carries i r := by
  cases rest <;> exact h

/-- The next row of the batch is made. -/
theorem Inserting.next {i : ℕ} {r : Request S} {tx : Tx} {e : EventWrite}
    {es : List EventWrite} (h : Inserting i r tx (e :: es)) :
    Inserting i r { tx with rows := tx.rows ++ [Pg.nextRow tx i e] } es := by
  obtain ⟨made, hmade, hrows⟩ := h.rows
  refine ⟨h.request, ⟨made ++ [e], ?_, ?_⟩, h.head⟩
  · rw [hmade, List.append_assoc, List.singleton_append]
  · show tx.rows ++ _ = _
    rw [batchRows_append, ← hrows, Pg.nextRow, hrows, length_batchRows]
    rfl

/-- **One statement keeps what is known of the events.** -/
theorem Pg.Moves.carries {p d : Pg S} {i ts : ℕ} {pc pc' : PgPc S} {ok : Bool}
    {r : Request S} (hm : Moves p i pc ok ts d pc') (hnum : Numbered p.log)
    (h : pc.Carries i r) : pc'.Carries i r := by
  cases hm with
  | fencedEmpty f => exact ⟨some f, h⟩
  | fenced => exact h
  | began => exact h
  | maxFailed => exact fun n => by simp
  | maxUnknown => exact fun n => by simp
  | maxRead es f t _ row =>
    exact Inserting.carries ⟨h, ⟨[], rfl, rfl⟩, hnum.maxSeq_eq⟩
  | rowFailed => exact fun n => by simp
  | rowInserted => exact Inserting.carries (Inserting.next h)
  | commitFailed => exact fun n => by simp
  | _ => trivial

/-- What a method resolves to that has appended nothing. -/
theorem Pg.Moves.appends {p d : Pg S} {i ts : ℕ} {pc pc' : PgPc S} {ok : Bool}
    {r : Request S} {a : Answer S} (hm : Moves p i pc ok ts d pc')
    (h : pc.Carries i r) (hpc : pc' = .done a) :
    (∃ tx, ok = true ∧ pc = .appendCommit tx
      ∧ d.log = p.log ++ tx.rows ∧ a = .appended (tx.head + tx.rows.length))
    ∨ d.log = p.log
      ∧ ∀ es f n, r = .appendEvents es f → a = .appended n → es = [] := by
  cases hm with
  | committed tx => exact .inl ⟨tx, rfl, rfl, rfl, (PgPc.done.inj hpc).symm⟩
  | headRead =>
    obtain ⟨f, rfl⟩ := h
    refine .inr ⟨rfl, fun es g n hr _ => ?_⟩
    cases hr
    rfl
  | rolledBack rows b =>
    obtain rfl := PgPc.done.inj hpc
    exact .inr ⟨rfl, fun es f n _ ha => absurd ha (h n)⟩
  | _ =>
    refine .inr ⟨rfl, fun es f n _ ha => ?_⟩
    subst ha
    first
      | cases hpc
      | exact absurd hpc (by simp [inserting]; split <;> simp)

/-- A method that goes on has written no event. -/
theorem Pg.Moves.log {p d : Pg S} {i ts : ℕ} {pc pc' : PgPc S} {ok : Bool}
    (hm : Moves p i pc ok ts d pc') (hpc : pc'.inProgress = true) :
    d.log = p.log := by
  cases hm with
  | committed => cases hpc
  | _ => rfl

theorem PgLog.init : PgLog (.init : Pg S) := ⟨.init, fun _ _ _ h => by cases h⟩

/-- **One step of the databases keeps the log**, and keeps what is in it. -/
theorem PgLog.step {p p' : Pg S} {a : PgAct S} (h : PgLog p)
    (hG : p.Unraced a) (hs : p.step a = some p') :
    PgLog p' ∧ p.log <+: p'.log := by
  rcases Pg.step_cases hs with ⟨i, r, rfl, hi, rfl⟩
    | ⟨i, ok, ts, r, pc, d, pc', rfl, ho, hm, rfl⟩ | ⟨rfl, rfl⟩
  · have hnone : p.calls i = none := by rw [Pg.calls, hi]
    refine ⟨⟨?_, fun j q pc hj => ?_⟩, List.prefix_refl _⟩
    · rw [Pg.calls_inProgress { p with begun := i :: p.begun } hnone
        (PgPc.inProgress_first r) rfl]
      exact h.kept
    · by_cases hji : j = i
      · subst hji
        obtain ⟨rfl, rfl⟩ : r = q ∧ PgPc.first r = pc := by simpa using hj
        exact PgPc.carries_first j r
      · exact h.carries j q pc (by simpa [Function.update_of_ne hji] using hj)
  · have hnone := Pg.calls_of_inProgress ho hm.inProgress
    have hown := h.carries i r pc ho
    have hcarries : ∀ j q pc'',
        update p.ops i (some ⟨r, pc'⟩) j = some ⟨q, pc''⟩ →
          pc''.Carries j q := by
      intro j q pc'' hj
      by_cases hji : j = i
      · subst hji
        obtain ⟨rfl, rfl⟩ : r = q ∧ pc' = pc'' := by simpa using hj
        exact hm.carries h.kept.numbered hown
      · exact h.carries j q pc'' (by simpa [Function.update_of_ne hji] using hj)
    suffices hkept : KeptLog d.log _ ∧ p.log <+: d.log from
      ⟨⟨hkept.1, hcarries⟩, hkept.2⟩
    by_cases hpc : pc'.inProgress = true
    · rw [Pg.calls_inProgress d hnone hpc rfl, hm.log hpc]
      exact ⟨h.kept, List.prefix_refl _⟩
    · obtain ⟨a, rfl⟩ := PgPc.exists_done hpc
      rw [Pg.calls_done d rfl]
      rcases hm.appends hown rfl with ⟨tx, rfl, rfl, hlog, rfl⟩ | ⟨hlog, ha⟩
      · -- no other has committed since it read the head
        have hseen : p.log.length = tx.seen := by
          simpa [Pg.Unraced, Pg.pc, ho] using hG
        obtain ⟨made, hmade, hrows⟩ := hown.rows
        rw [List.append_nil] at hmade
        subst hmade
        rw [hlog, hrows, length_batchRows, hown.head, ← hseen, hown.request]
        exact ⟨h.kept.append hnone _ _ _ _, List.prefix_append _ _⟩
      · rw [hlog]
        exact ⟨h.kept.settle hnone ha, List.prefix_refl _⟩
  · exact ⟨⟨h.kept, h.carries⟩, List.prefix_refl _⟩

/-! ## Every interleaving -/

/-- **Event log integrity.** In every run of calls the memory driver never
takes an event back, and its log is as it should be. So it is for the
ValkeyPg driver in every run in which each transaction commits on the log it
read, whatever else is interleaved. -/
theorem event_log_integrity :
    (∀ (xs ys : List (ℕ × Request S)) (m m' : MemoryCalls S),
      run MemoryCalls.step .init xs = some m →
      run MemoryCalls.step m ys = some m' →
      m.driver.events <+: m'.driver.events
        ∧ EventLog m'.driver.events m'.driver.headSeq m'.calls)
    ∧ ∀ (xs ys : List (PgAct S)) (p p' : Pg S),
      run Pg.step .init xs = some p → Along Pg.step Pg.Unraced .init xs →
      run Pg.step p ys = some p' → Along Pg.step Pg.Unraced p ys →
      p.log <+: p'.log ∧ EventLog p'.log (maxSeq p'.log) p'.calls := by
  constructor
  · intro xs ys m m' hm hm'
    have h : MemoryLog m :=
      run_invariant' _ (fun _ _ _ h hs => (h.step hs).1) MemoryLog.init hm
    have h' : MemoryLog m' ∧ m.driver.events <+: m'.driver.events :=
      run_invariant' (P := fun t => MemoryLog t ∧ m.driver.events <+: t.driver.events)
        _ (fun _ _ _ h hs => ⟨(h.1.step hs).1, h.2.trans (h.1.step hs).2⟩)
        ⟨h, List.prefix_refl _⟩ hm'
    refine ⟨h'.2, ?_⟩
    rw [h'.1.head]
    exact h'.1.kept.eventLog
  · intro xs ys p p' hp hG hp' hG'
    have h : PgLog p :=
      run_invariant _ (fun _ _ _ h hG hs => (h.step hG hs).1) PgLog.init hG hp
    have h' : PgLog p' ∧ p.log <+: p'.log :=
      run_invariant (P := fun t => PgLog t ∧ p.log <+: t.log)
        _ (fun _ _ _ h hG hs =>
          ⟨(h.1.step hG hs).1, h.2.trans (h.1.step hG hs).2⟩)
        ⟨h, List.prefix_refl _⟩ hG' hp'
    refine ⟨h'.2, ?_⟩
    rw [h'.1.kept.numbered.maxSeq_eq]
    exact h'.1.kept.eventLog

/-- An event of a ledger. -/
def EventWrite.deposited (n : ℤ) : EventWrite :=
  ⟨"Deposited", .obj [("amount", .num n)]⟩

/-- The actor is registered, as operation `0`. -/
def PgAct.registering : List (PgAct Unit) :=
  [.start 0 (.registerActor "Ledger" "1.0.0"), .advance 0 true 0]

/-- A batch of one event, as operation `i`, in a transaction that begins at
`ts`: up to the commit. -/
def PgAct.appending (i ts : ℕ) (n : ℤ) : List (PgAct Unit) :=
  .start i (.appendEvents [.deposited n] none)
    :: List.replicate 3 (.advance i true ts)

/-- The theorem applies to a batch on either driver, and another on the
ValkeyPg driver that begins after the first has committed. -/
theorem event_log_integrity_deposited :
    ∃ (m : MemoryCalls Unit) (p : Pg Unit),
      run MemoryCalls.step .init
        [(0, .registerActor "Ledger" "1.0.0"),
          (1, .appendEvents [.deposited 1] none)] = some m
      ∧ run Pg.step .init (PgAct.registering
          ++ (PgAct.appending 1 1 1 ++ [.advance 1 true 1])
          ++ (PgAct.appending 2 2 1 ++ [.advance 2 true 2])) = some p
      ∧ m.driver.headSeq = 1
      ∧ EventLog m.driver.events m.driver.headSeq m.calls
      ∧ maxSeq p.log = 2 ∧ EventLog p.log (maxSeq p.log) p.calls := by
  have hm : (run MemoryCalls.step (.init : MemoryCalls Unit)
      [(0, .registerActor "Ledger" "1.0.0"),
        (1, .appendEvents [.deposited 1] none)]).any
      (fun m => m.driver.headSeq == 1) = true := by decide
  have hp : (run Pg.step (.init : Pg Unit) (PgAct.registering
      ++ (PgAct.appending 1 1 1 ++ [.advance 1 true 1])
      ++ (PgAct.appending 2 2 1 ++ [.advance 2 true 2]))).any
      (fun p => maxSeq p.log == 2) = true := by decide
  obtain ⟨m, hm, hm₁⟩ := (Option.any_eq_true _ _).mp hm
  obtain ⟨p, hp, hp₁⟩ := (Option.any_eq_true _ _).mp hp
  exact ⟨m, p, hm, hp, by simpa using hm₁,
    (event_log_integrity.1 _ [] m m hm rfl).2, by simpa using hp₁,
    (event_log_integrity.2 _ [] p p hp (by decide) rfl trivial).2⟩

/-- **Two transactions read the same head**, begin at different times and
both commit: the log has seq `1` twice. -/
theorem not_event_log_integrity :
    ¬∀ (xs : List (PgAct Unit)) (p : Pg Unit),
      run Pg.step .init xs = some p →
      EventLog p.log (maxSeq p.log) p.calls := by
  intro h
  have hrun : (run Pg.step (.init : Pg Unit) (PgAct.registering
      ++ PgAct.appending 1 1 1 ++ PgAct.appending 2 2 1
      ++ [.advance 1 true 1, .advance 2 true 2])).any
      (fun p => p.log.map LogRow.seq == [1, 1]) = true := by decide
  obtain ⟨p, hp, hseqs⟩ := (Option.any_eq_true _ _).mp hrun
  have hnodup := (h _ p hp).distinct
  rw [eq_of_beq hseqs] at hnodup
  exact absurd hnodup (by decide)
