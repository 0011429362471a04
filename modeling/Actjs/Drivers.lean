import Mathlib.Logic.Function.Basic
import Actjs.Storage
import Actjs.Transition

/-!
# The two storage drivers

`ActorStore` is what a driver stands for; this is how the two drivers keep
the rows, snapshots and events of one actor. The methods of the memory
driver contain no await, so each is one step. A method of the ValkeyPg
driver is a sequence of SQL statements and Valkey commands, each of which is
one step here, under read-committed isolation: a statement reads what is
committed when it runs, and the rows a transaction has inserted are seen by
no other before it commits.

The driver's own fault injection is the label: whether the statement at hand
succeeds, and what `now()` is when a transaction begins.
-/

open Function (update)

variable {S : Type}

/-- The row of an actor, with its fence token. -/
structure FencedRow where
  cls : ClassName
  version : Version
  tombstoned : Bool
  fence : ℤ
deriving DecidableEq

/-- What `saveSnapshot` is given. The class it is also given is read by
neither driver. -/
structure SnapshotWrite (S : Type) where
  seq : ℤ
  version : Version
  state : S
deriving DecidableEq

/-- **A call of a driver method** for the actor at hand. -/
inductive Request (S : Type) where
  | registerActor (cls : ClassName) (version : Version)
  | tombstoneActor
  | bumpActorFence (expected : ℤ)
  | loadSnapshot
  | saveSnapshot (snap : SnapshotWrite S) (expectedFence : Option ℤ)
  | appendEvents (events : List EventWrite) (expectedFence : Option ℤ)

/-- The token that a fenced write is given. -/
def Request.expectedFence : Request S → Option ℤ
  | .saveSnapshot _ f => f
  | .appendEvents _ f => f
  | _ => none

/-- **What a method resolves to**, or what it rejects with. -/
inductive Answer (S : Type) where
  | done
  | fence (token : ℤ)
  | snapshot (snap : Option (SnapshotRead S))
  | appended (seq : ℤ)
  /-- `StaleFenceTokenError`. -/
  | stale (expected actual : ℤ)
  /-- `appendEvents: unknown actor`. -/
  | unknownActor
  /-- An error of the database: a failed statement, or a violated
  constraint. -/
  | rejected
deriving DecidableEq

/-- The fence token of an actor, `0n` without a row. -/
def fenceOf (actor : Option FencedRow) : ℤ := (actor.map FencedRow.fence).getD 0

/-- `Map.set`, or an upsert: replace the entry of a key or append it. -/
def setSnapshot (snapshots : List (ℤ × SnapshotRow S)) (w : SnapshotWrite S) :
    List (ℤ × SnapshotRow S) :=
  snapshots.filter (fun p => p.fst != w.seq) ++ [(w.seq, ⟨w.version, w.state⟩)]

/-- The live snapshot, under the class of the row. -/
def liveSnapshot (actor : Option FencedRow)
    (snapshots : List (ℤ × SnapshotRow S)) : Option (SnapshotRead S) :=
  match actor, bestSnapshot snapshots with
  | some r, some (seq, snap) => some ⟨r.cls, snap.classVersion, seq, snap.state⟩
  | _, _ => none

/-- A logged event. Which operation wrote it is for the statements to refer
to. -/
structure LogRow where
  seq : ℤ
  /-- When the transaction began that wrote it; unused by the memory
  driver. -/
  ts : ℕ
  classVersion : Version
  type : String
  payload : Json
  op : ℕ

/-- The rows of a batch, numbered from `seq + 1`. -/
def batchRows (op ts : ℕ) (version : Version) :
    ℤ → List EventWrite → List LogRow
  | _, [] => []
  | seq, e :: es =>
    ⟨seq + 1, ts, version, e.type, e.payload, op⟩
      :: batchRows op ts version (seq + 1) es

/-- `MAX(seq)`, `0` for an actor without events. -/
def maxSeq (log : List LogRow) : ℤ := (log.map LogRow.seq).foldr max 0

/-! ## The memory driver -/

/-- What the memory driver holds for one actor. -/
structure Memory (S : Type) where
  actor : Option FencedRow
  snapshots : List (ℤ × SnapshotRow S)
  events : List LogRow
  headSeq : ℤ
  /-- The fence token each fenced write was given, beside the one stored when
  it took effect: a history. -/
  fenced : List (ℤ × ℤ)

namespace Memory

/-- A driver that was just constructed. -/
def init : Memory S := ⟨none, [], [], 0, []⟩

/-- The history of a write that was given `expected`. -/
def record (m : Memory S) : Option ℤ → List (ℤ × ℤ)
  | none => m.fenced
  | some f => (f, fenceOf m.actor) :: m.fenced

/-- `assertFence` passes. -/
def passes (actor : Option FencedRow) : Option ℤ → Bool
  | none => true
  | some f => fenceOf actor == f

/-- The error of `assertFence`. -/
def staleAnswer (actor : Option FencedRow) (expected : Option ℤ) : Answer S :=
  .stale (expected.getD 0) (fenceOf actor)

/-- `Map.set` of each row of a batch. -/
def setEvents (events : List LogRow) : List LogRow → List LogRow
  | [] => events
  | r :: rs =>
    setEvents (events.filter (fun e => e.seq != r.seq) ++ [r]) rs

/-- **A method of the memory driver**, as operation number `op`. -/
def request (m : Memory S) (op : ℕ) : Request S → Memory S × Answer S
  | .registerActor cls version =>
    ({ m with actor := some ⟨cls, version, false, 0⟩ }, .done)
  | .tombstoneActor =>
    ({ m with actor := m.actor.map (fun r => { r with tombstoned := true }) },
      .done)
  | .bumpActorFence expected =>
    if fenceOf m.actor ≠ expected then
      (m, .stale expected (fenceOf m.actor))
    else
      ({ m with
        actor := m.actor.map (fun r => { r with fence := expected + 1 }) },
        .fence (expected + 1))
  | .loadSnapshot => (m, .snapshot (liveSnapshot m.actor m.snapshots))
  | .saveSnapshot w f =>
    if passes m.actor f = false then (m, staleAnswer m.actor f)
    else
      ({ m with
        snapshots := setSnapshot m.snapshots w
        fenced := m.record f }, .done)
  | .appendEvents events f =>
    if passes m.actor f = false then (m, staleAnswer m.actor f)
    else
      match events, m.actor with
      | [], _ => (m, .appended m.headSeq)
      | _ :: _, none => (m, .unknownActor)
      | es, some r =>
        ({ m with
          events := setEvents m.events (batchRows op 0 r.version m.headSeq es)
          headSeq := m.headSeq + es.length
          fenced := m.record f },
          .appended (m.headSeq + es.length))

end Memory

/-! ## The ValkeyPg driver

A method is a program counter beside the tables. `advance` executes the
statement it is at, and says at which one it goes on. -/

/-- A transaction of `appendEvents` once it has read the head of the log. -/
structure Tx where
  expectedFence : Option ℤ
  ts : ℕ
  version : Version
  /-- The head of the log it read. -/
  head : ℤ
  /-- How many events were committed when it did: a history. -/
  seen : ℕ
  /-- The batch. -/
  events : List EventWrite
  /-- The rows inserted so far. -/
  rows : List LogRow

/-- **Where a method of the ValkeyPg driver is**: the statement or command it
is about to execute. -/
inductive PgPc (S : Type) where
  | register (cls : ClassName) (version : Version)
  | tombstone
  | delHot
  | bump (expected : ℤ)
  /-- No row was updated: read the actual token for the error. -/
  | bumpStale (expected : ℤ)
  | loadHot
  | loadRow
  | fillHot (snap : SnapshotRead S)
  | saveFence (w : SnapshotWrite S) (expected : ℤ)
  | saveRow (w : SnapshotWrite S) (expected : Option ℤ)
  | saveTouch (w : SnapshotWrite S)
  | saveClass (w : SnapshotWrite S)
  | saveHot (snap : SnapshotRead S)
  | appendFence (events : List EventWrite) (expected : ℤ)
  /-- The batch is empty: read the head. -/
  | appendHead
  | appendBegin (events : List EventWrite) (expected : Option ℤ)
  | appendMax (events : List EventWrite) (expected : Option ℤ) (began : ℕ)
  /-- In the loop of the inserts: those still to be made. -/
  | appendRow (tx : Tx) (rest : List EventWrite)
  | appendCommit (tx : Tx)
  /-- The transaction has failed, its rows are not rolled back yet. -/
  | rollback (rows : List LogRow) (a : Answer S)
  | done (a : Answer S)

/-- The rows a transaction in progress has inserted. -/
def PgPc.uncommitted : PgPc S → List LogRow
  | appendRow tx _ => tx.rows
  | appendCommit tx => tx.rows
  | rollback rows _ => rows
  | _ => []

/-- The method has not settled. -/
def PgPc.inProgress : PgPc S → Bool
  | done _ => false
  | _ => true

/-- The first statement of a method. -/
def PgPc.first : Request S → PgPc S
  | .registerActor cls version => .register cls version
  | .tombstoneActor => .tombstone
  | .bumpActorFence expected => .bump expected
  | .loadSnapshot => .loadHot
  | .saveSnapshot w none => .saveRow w none
  | .saveSnapshot w (some f) => .saveFence w f
  | .appendEvents [] none => .appendHead
  | .appendEvents (e :: es) none => .appendBegin (e :: es) none
  | .appendEvents es (some f) => .appendFence es f

theorem PgPc.inProgress_first (r : Request S) :
    (PgPc.first r).inProgress = true := by
  cases r with
  | saveSnapshot w f => cases f <;> rfl
  | appendEvents es f => cases f <;> cases es <;> rfl
  | _ => rfl

theorem PgPc.exists_done {pc : PgPc S} (h : ¬ pc.inProgress = true) :
    ∃ a, pc = .done a := by
  cases pc with
  | done a => exact ⟨a, rfl⟩
  | _ => exact absurd rfl h

/-- A call of a driver method. -/
structure PgOp (S : Type) where
  request : Request S
  pc : PgPc S

/-- **What Postgres and Valkey hold for one actor**, and the driver methods
in progress. -/
structure Pg (S : Type) where
  actor : Option FencedRow
  snapshots : List (ℤ × SnapshotRow S)
  /-- The committed rows of `actor_event`. -/
  log : List LogRow
  /-- The snapshot cached in Valkey. -/
  hot : Option (SnapshotRead S)
  ops : ℕ → Option (PgOp S)
  /-- The operations that were begun, the last one first. -/
  begun : List ℕ
  /-- What `saveSnapshot` inserted, in order: a history. -/
  saved : List (SnapshotWrite S)
  /-- As in `Memory`; a save writes three times, to the two tables and to the cache. -/
  fenced : List (ℤ × ℤ)

namespace Pg

/-- Two databases that know nothing of the actor. -/
def init : Pg S := ⟨none, [], [], none, fun _ => none, [], [], []⟩

/-- Move operation `i`. -/
def setPc (p : Pg S) (i : ℕ) (pc : PgPc S) : Pg S :=
  { p with ops := update p.ops i ((p.ops i).map (fun o => { o with pc := pc })) }

/-- The history once operation `i` has written: what it was given, and what is stored. -/
def record (p : Pg S) (i : ℕ) : List (ℤ × ℤ) :=
  match (p.ops i).bind (fun o => o.request.expectedFence) with
  | none => p.fenced
  | some f => (f, fenceOf p.actor) :: p.fenced

/-- The program counter of operation `i`. -/
def pc (p : Pg S) (i : ℕ) : Option (PgPc S) := (p.ops i).map PgOp.pc

/-- The rows other transactions have inserted and not committed. -/
def othersRows (p : Pg S) (i : ℕ) : List LogRow :=
  (p.begun.filter (· != i)).flatMap (fun j =>
    match p.pc j with
    | some pc => pc.uncommitted
    | none => [])

/-- The primary key `(actor_id, seq, ts)` of a row is among those of
others. -/
def keyed (r : LogRow) (rows : List LogRow) : Bool :=
  rows.any (fun r' => r'.seq == r.seq && r'.ts == r.ts)

/-- The row the loop of the inserts makes next. -/
def nextRow (tx : Tx) (i : ℕ) (e : EventWrite) : LogRow :=
  ⟨tx.head + tx.rows.length + 1, tx.ts, tx.version, e.type, e.payload, i⟩

/-- The loop of the inserts, or the commit once all are made. -/
def inserting (tx : Tx) : List EventWrite → PgPc S
  | [] => .appendCommit tx
  | e :: es => .appendRow tx (e :: es)

/-- **One statement or command of operation `i`.** `ok` says whether it
succeeds, `ts` is what `now()` is. An insert waits while another transaction
has a row of the same key. -/
def advance (p : Pg S) (i : ℕ) (ok : Bool) (ts : ℕ) : Option (Pg S) :=
  match p.pc i with
  | none => none
  | some (.done _) => none
  | some (.rollback _ a) => some (p.setPc i (.done a))
  | some (.appendRow tx rest) =>
    match rest with
    | [] => none
    | e :: es =>
      if ok = false then some (p.setPc i (.rollback tx.rows .rejected))
      else if keyed (nextRow tx i e) (p.othersRows i) = true then none
      else if keyed (nextRow tx i e) p.log = true then
        some (p.setPc i (.rollback tx.rows .rejected))
      else
        let tx := { tx with rows := tx.rows ++ [nextRow tx i e] }
        some (p.setPc i (inserting tx es))
  | some (.appendCommit tx) =>
    if ok = false then some (p.setPc i (.rollback tx.rows .rejected))
    else
      some ({ p with
        log := p.log ++ tx.rows
        fenced := p.record i }.setPc i
          (.done (.appended (tx.head + tx.rows.length))))
  | some (.appendMax events expected began) =>
    if ok = false then some (p.setPc i (.rollback [] .rejected))
    else
      match p.actor with
      | none => some (p.setPc i (.rollback [] .unknownActor))
      | some r =>
        some (p.setPc i
          (inserting
            ⟨expected, began, r.version, maxSeq p.log, p.log.length, events, []⟩
            events))
  | some (.delHot) =>
    some ({ p with hot := if ok then none else p.hot }.setPc i (.done .done))
  | some pc =>
    if ok = false then some (p.setPc i (.done .rejected))
    else
      match pc with
      | .register cls version =>
        let row : FencedRow :=
          match p.actor with
          | none => ⟨cls, version, false, 0⟩
          | some r => { r with cls := cls, version := version }
        some ({ p with actor := some row }.setPc i (.done .done))
      | .tombstone =>
        let actor := p.actor.map (fun r => { r with tombstoned := true })
        some ({ p with actor := actor }.setPc i .delHot)
      | .bump expected =>
        match p.actor with
        | some r =>
          if r.fence = expected then
            some ({ p with actor := some { r with fence := expected + 1 } }.setPc i
              (.done (.fence (expected + 1))))
          else some (p.setPc i (.bumpStale expected))
        | none => some (p.setPc i (.bumpStale expected))
      | .bumpStale expected =>
        some (p.setPc i (.done (.stale expected (fenceOf p.actor))))
      | .loadHot =>
        match p.hot with
        | some snap => some (p.setPc i (.done (.snapshot (some snap))))
        | none => some (p.setPc i .loadRow)
      | .loadRow =>
        match liveSnapshot p.actor p.snapshots with
        | some snap => some (p.setPc i (.fillHot snap))
        | none => some (p.setPc i (.done (.snapshot none)))
      | .fillHot snap =>
        some ({ p with hot := some snap }.setPc i (.done (.snapshot (some snap))))
      | .saveFence w f =>
        if fenceOf p.actor = f then some (p.setPc i (.saveRow w (some f)))
        else some (p.setPc i (.done (.stale f (fenceOf p.actor))))
      | .saveRow w _ =>
        -- the foreign key of `actor_snapshot`
        match p.actor with
        | none => some (p.setPc i (.done .rejected))
        | some _ =>
          some ({ p with
            snapshots := setSnapshot p.snapshots w
            saved := p.saved ++ [w]
            fenced := p.record i }.setPc i (.saveTouch w))
      | .saveTouch w => some ({ p with fenced := p.record i }.setPc i (.saveClass w))
      | .saveClass w =>
        some (p.setPc i (.saveHot
          ⟨(p.actor.map FencedRow.cls).getD w.version, w.version, w.seq,
            w.state⟩))
      | .saveHot snap =>
        some ({ p with hot := some snap, fenced := p.record i }.setPc i (.done .done))
      | .appendFence events f =>
        if fenceOf p.actor = f then
          match events with
          | [] => some (p.setPc i .appendHead)
          | e :: es => some (p.setPc i (.appendBegin (e :: es) (some f)))
        else some (p.setPc i (.done (.stale f (fenceOf p.actor))))
      | .appendHead => some (p.setPc i (.done (.appended (maxSeq p.log))))
      | .appendBegin events expected =>
        some (p.setPc i (.appendMax events expected ts))
      | _ => none

/-- A driver method is called, as operation `i`. -/
def start (p : Pg S) (i : ℕ) (r : Request S) : Option (Pg S) :=
  if (p.ops i).isSome = true then none
  else
    some { p with
      ops := update p.ops i (some ⟨r, .first r⟩)
      begun := i :: p.begun }

/-- No method is in progress. -/
def idle (p : Pg S) : Bool :=
  p.begun.all (fun i =>
    match p.pc i with
    | some pc => !pc.inProgress
    | none => true)

end Pg

/-- **What can happen to the databases**: a method is called, a method in
progress executes its next statement, or the cached snapshot expires. -/
inductive PgAct (S : Type) where
  | start (i : ℕ) (r : Request S)
  | advance (i : ℕ) (ok : Bool) (ts : ℕ)
  | expire

/-- One step of the databases. -/
def Pg.step (p : Pg S) : PgAct S → Option (Pg S)
  | .start i r => p.start i r
  | .advance i ok ts => p.advance i ok ts
  | .expire => some { p with hot := none }

/-! ## The calls of a driver

A driver is used through calls, each with a number of its own: the memory
driver settles a call when it is made, the ValkeyPg driver when its last
statement has been executed. -/

/-- **The memory driver and the calls made of it.** -/
structure MemoryCalls (S : Type) where
  driver : Memory S
  calls : ℕ → Option (Request S × Answer S)

/-- A memory driver nobody has called. -/
def MemoryCalls.init : MemoryCalls S := ⟨.init, fun _ => none⟩

/-- A call of the memory driver. -/
def MemoryCalls.step (m : MemoryCalls S) : ℕ × Request S → Option (MemoryCalls S)
  | (i, r) =>
    if (m.calls i).isSome = true then none
    else
      let after := m.driver.request i r
      some ⟨after.fst, update m.calls i (some (r, after.snd))⟩

/-- The calls of the ValkeyPg driver that have settled. -/
def Pg.calls (p : Pg S) (i : ℕ) : Option (Request S × Answer S) :=
  match p.ops i with
  | some ⟨r, .done a⟩ => some (r, a)
  | _ => none

/-! ## What one statement can do

`advance` as a relation, so that an invariant has one case for each statement
and not one for each branch of the code. -/

namespace Pg

@[simp] theorem setPc_actor (p : Pg S) (i : ℕ) (pc : PgPc S) :
    (p.setPc i pc).actor = p.actor := rfl
@[simp] theorem setPc_snapshots (p : Pg S) (i : ℕ) (pc : PgPc S) :
    (p.setPc i pc).snapshots = p.snapshots := rfl
@[simp] theorem setPc_log (p : Pg S) (i : ℕ) (pc : PgPc S) :
    (p.setPc i pc).log = p.log := rfl
@[simp] theorem setPc_hot (p : Pg S) (i : ℕ) (pc : PgPc S) :
    (p.setPc i pc).hot = p.hot := rfl
@[simp] theorem setPc_begun (p : Pg S) (i : ℕ) (pc : PgPc S) :
    (p.setPc i pc).begun = p.begun := rfl
@[simp] theorem setPc_saved (p : Pg S) (i : ℕ) (pc : PgPc S) :
    (p.setPc i pc).saved = p.saved := rfl
@[simp] theorem setPc_fenced (p : Pg S) (i : ℕ) (pc : PgPc S) :
    (p.setPc i pc).fenced = p.fenced := rfl

/-- **What a statement can do**: operation `i`, at its program counter,
leaves the databases as they are given and goes on to another. -/
inductive Moves (p : Pg S) (i : ℕ) :
    PgPc S → Bool → ℕ → Pg S → PgPc S → Prop
  /-- A statement outside a transaction fails. -/
  | failed (pc : PgPc S) (ts : ℕ) (hpc : pc.inProgress = true) :
      Moves p i pc false ts p (.done .rejected)
  | registered (cls : ClassName) (version : Version) (row : FencedRow) (ts : ℕ)
      (hfence : row.fence = fenceOf p.actor) :
      Moves p i (.register cls version) true ts
        { p with actor := some row } (.done .done)
  | tombstoned (ts : ℕ) :
      Moves p i .tombstone true ts
        { p with
          actor := p.actor.map (fun r => { r with tombstoned := true }) }
        .delHot
  | deleted (ok : Bool) (ts : ℕ) (hot : Option (SnapshotRead S))
      (hhot : hot = if ok then none else p.hot) :
      Moves p i .delHot ok ts { p with hot := hot } (.done .done)
  | bumped (expected : ℤ) (r : FencedRow) (ts : ℕ) (hactor : p.actor = some r)
      (hfence : r.fence = expected) :
      Moves p i (.bump expected) true ts
        { p with actor := some { r with fence := expected + 1 } }
        (.done (.fence (expected + 1)))
  | notBumped (expected : ℤ) (ts : ℕ)
      (hfence : ∀ r, p.actor = some r → r.fence ≠ expected) :
      Moves p i (.bump expected) true ts p (.bumpStale expected)
  | bumpRejected (expected : ℤ) (ts : ℕ) :
      Moves p i (.bumpStale expected) true ts p
        (.done (.stale expected (fenceOf p.actor)))
  | hit (snap : SnapshotRead S) (ts : ℕ) (hhot : p.hot = some snap) :
      Moves p i .loadHot true ts p (.done (.snapshot (some snap)))
  | missed (ts : ℕ) (hhot : p.hot = none) :
      Moves p i .loadHot true ts p .loadRow
  | loaded (snap : SnapshotRead S) (ts : ℕ)
      (hlive : liveSnapshot p.actor p.snapshots = some snap) :
      Moves p i .loadRow true ts p (.fillHot snap)
  | loadedNone (ts : ℕ) (hlive : liveSnapshot p.actor p.snapshots = none) :
      Moves p i .loadRow true ts p (.done (.snapshot none))
  | filled (snap : SnapshotRead S) (ts : ℕ) :
      Moves p i (.fillHot snap) true ts { p with hot := some snap }
        (.done (.snapshot (some snap)))
  | saveFenced (w : SnapshotWrite S) (f : ℤ) (ts : ℕ)
      (hfence : fenceOf p.actor = f) :
      Moves p i (.saveFence w f) true ts p (.saveRow w (some f))
  | saveStale (w : SnapshotWrite S) (f : ℤ) (ts : ℕ)
      (hfence : fenceOf p.actor ≠ f) :
      Moves p i (.saveFence w f) true ts p
        (.done (.stale f (fenceOf p.actor)))
  /-- The foreign key of `actor_snapshot`. -/
  | saveUnknown (w : SnapshotWrite S) (f : Option ℤ) (ts : ℕ)
      (hactor : p.actor = none) :
      Moves p i (.saveRow w f) true ts p (.done .rejected)
  | savedRow (w : SnapshotWrite S) (f : Option ℤ) (r : FencedRow) (ts : ℕ)
      (hactor : p.actor = some r) :
      Moves p i (.saveRow w f) true ts
        { p with
          snapshots := setSnapshot p.snapshots w
          saved := p.saved ++ [w]
          fenced := p.record i }
        (.saveTouch w)
  | touched (w : SnapshotWrite S) (ts : ℕ) :
      Moves p i (.saveTouch w) true ts { p with fenced := p.record i } (.saveClass w)
  | lookedUp (w : SnapshotWrite S) (ts : ℕ) :
      Moves p i (.saveClass w) true ts p
        (.saveHot ⟨(p.actor.map FencedRow.cls).getD w.version, w.version,
          w.seq, w.state⟩)
  | savedHot (snap : SnapshotRead S) (ts : ℕ) :
      Moves p i (.saveHot snap) true ts
        { p with hot := some snap, fenced := p.record i } (.done .done)
  | fencedEmpty (f : ℤ) (ts : ℕ) (hfence : fenceOf p.actor = f) :
      Moves p i (.appendFence [] f) true ts p .appendHead
  | fenced (e : EventWrite) (es : List EventWrite) (f : ℤ) (ts : ℕ)
      (hfence : fenceOf p.actor = f) :
      Moves p i (.appendFence (e :: es) f) true ts p
        (.appendBegin (e :: es) (some f))
  | appendStale (es : List EventWrite) (f : ℤ) (ts : ℕ)
      (hfence : fenceOf p.actor ≠ f) :
      Moves p i (.appendFence es f) true ts p
        (.done (.stale f (fenceOf p.actor)))
  | headRead (ts : ℕ) :
      Moves p i .appendHead true ts p (.done (.appended (maxSeq p.log)))
  | began (es : List EventWrite) (f : Option ℤ) (ts : ℕ) :
      Moves p i (.appendBegin es f) true ts p (.appendMax es f ts)
  | maxFailed (es : List EventWrite) (f : Option ℤ) (t ts : ℕ) :
      Moves p i (.appendMax es f t) false ts p (.rollback [] .rejected)
  | maxUnknown (es : List EventWrite) (f : Option ℤ) (t ts : ℕ)
      (hactor : p.actor = none) :
      Moves p i (.appendMax es f t) true ts p (.rollback [] .unknownActor)
  | maxRead (es : List EventWrite) (f : Option ℤ) (t ts : ℕ) (r : FencedRow)
      (hactor : p.actor = some r) :
      Moves p i (.appendMax es f t) true ts p
        (inserting ⟨f, t, r.version, maxSeq p.log, p.log.length, es, []⟩ es)
  /-- The insert fails, or its key is committed already. -/
  | rowFailed (tx : Tx) (e : EventWrite) (es : List EventWrite) (ok : Bool)
      (ts : ℕ) (hkey : ok = false ∨ keyed (nextRow tx i e) p.log = true) :
      Moves p i (.appendRow tx (e :: es)) ok ts p (.rollback tx.rows .rejected)
  | rowInserted (tx : Tx) (e : EventWrite) (es : List EventWrite) (ts : ℕ) :
      Moves p i (.appendRow tx (e :: es)) true ts p
        (inserting { tx with rows := tx.rows ++ [nextRow tx i e] } es)
  | commitFailed (tx : Tx) (ts : ℕ) :
      Moves p i (.appendCommit tx) false ts p (.rollback tx.rows .rejected)
  | committed (tx : Tx) (ts : ℕ) :
      Moves p i (.appendCommit tx) true ts
        { p with
          log := p.log ++ tx.rows
          fenced := p.record i }
        (.done (.appended (tx.head + tx.rows.length)))
  | rolledBack (rows : List LogRow) (a : Answer S) (ok : Bool) (ts : ℕ) :
      Moves p i (.rollback rows a) ok ts p (.done a)

/-- A statement touches no operation but its own. -/
theorem Moves.ops {p d : Pg S} {i ts : ℕ} {pc pc' : PgPc S} {ok : Bool}
    (h : Moves p i pc ok ts d pc') : d.ops = p.ops := by
  cases h <;> rfl

theorem Moves.begun {p d : Pg S} {i ts : ℕ} {pc pc' : PgPc S} {ok : Bool}
    (h : Moves p i pc ok ts d pc') : d.begun = p.begun := by
  cases h <;> rfl

/-- **The statements of a method are the moves.** -/
theorem advance_moves {p p' : Pg S} {i ts : ℕ} {ok : Bool}
    (h : p.advance i ok ts = some p') :
    ∃ pc d pc', p.pc i = some pc ∧ Moves p i pc ok ts d pc'
      ∧ p' = d.setPc i pc' := by
  unfold advance at h
  cases hpc : p.pc i with
  | none => simp only [hpc, reduceCtorEq] at h
  | some pc =>
    refine ⟨pc, ?_⟩
    simp only [hpc] at h
    cases ok with
    | false =>
      -- a statement that fails ends the method, or its transaction
      cases pc with
      | done a => simp only [reduceCtorEq] at h
      | rollback rows a =>
        exact ⟨_, _, rfl, .rolledBack rows a false ts, by simpa using h.symm⟩
      | appendRow tx rest =>
        cases rest with
        | nil => simp only [reduceCtorEq] at h
        | cons e es =>
          exact ⟨_, _, rfl, .rowFailed tx e es false ts (.inl rfl),
            by simpa using h.symm⟩
      | appendCommit tx =>
        exact ⟨_, _, rfl, .commitFailed tx ts, by simpa using h.symm⟩
      | appendMax es f t =>
        exact ⟨_, _, rfl, .maxFailed es f t ts, by simpa using h.symm⟩
      | delHot =>
        exact ⟨_, _, rfl, .deleted false ts _ rfl, by simpa using h.symm⟩
      | _ => exact ⟨_, _, rfl, .failed _ ts rfl, by simpa using h.symm⟩
    | true =>
      simp only [Bool.true_eq_false, if_false] at h
      cases pc with
      | done a => simp only [reduceCtorEq] at h
      | rollback rows a =>
        exact ⟨_, _, rfl, .rolledBack rows a true ts, by simpa using h.symm⟩
      | appendRow tx rest =>
        cases rest with
        | nil => simp only [reduceCtorEq] at h
        | cons e es =>
          simp only at h
          split at h
          · simp only [reduceCtorEq] at h
          · split at h
            · next hkey =>
              exact ⟨_, _, rfl, .rowFailed tx e es true ts (.inr hkey),
                by simpa using h.symm⟩
            · exact ⟨_, _, rfl, .rowInserted tx e es ts, by simpa using h.symm⟩
      | appendCommit tx =>
        exact ⟨_, _, rfl, .committed tx ts, by simpa using h.symm⟩
      | appendMax es f t =>
        cases hactor : p.actor with
        | none =>
          exact ⟨_, _, rfl, .maxUnknown es f t ts hactor,
            by simpa [hactor] using h.symm⟩
        | some r =>
          exact ⟨_, _, rfl, .maxRead es f t ts r hactor,
            by simpa [hactor] using h.symm⟩
      | delHot => exact ⟨_, _, rfl, .deleted true ts _ rfl, by simpa using h.symm⟩
      | register cls version =>
        refine ⟨_, _, rfl, .registered cls version _ ts ?_, (Option.some.inj h).symm⟩
        cases p.actor <;> rfl
      | tombstone => exact ⟨_, _, rfl, .tombstoned ts, by simpa using h.symm⟩
      | bump expected =>
        cases hactor : p.actor with
        | none =>
          refine ⟨_, _, rfl, .notBumped expected ts (fun r hr => ?_),
            by simpa [hactor] using h.symm⟩
          rw [hactor] at hr
          cases hr
        | some r =>
          by_cases hf : r.fence = expected
          · exact ⟨_, _, rfl, .bumped expected r ts hactor hf,
              by simpa [hactor, hf] using h.symm⟩
          · refine ⟨_, _, rfl, .notBumped expected ts (fun q hq => ?_),
              by simpa [hactor, hf] using h.symm⟩
            rw [hactor, Option.some.injEq] at hq
            exact hq ▸ hf
      | bumpStale expected =>
        exact ⟨_, _, rfl, .bumpRejected expected ts, by simpa using h.symm⟩
      | loadHot =>
        cases hhot : p.hot with
        | none =>
          exact ⟨_, _, rfl, .missed ts hhot, by simpa [hhot] using h.symm⟩
        | some snap =>
          exact ⟨_, _, rfl, .hit snap ts hhot, by simpa [hhot] using h.symm⟩
      | loadRow =>
        cases hlive : liveSnapshot p.actor p.snapshots with
        | none =>
          exact ⟨_, _, rfl, .loadedNone ts hlive,
            by simpa [hlive] using h.symm⟩
        | some snap =>
          exact ⟨_, _, rfl, .loaded snap ts hlive,
            by simpa [hlive] using h.symm⟩
      | fillHot snap =>
        exact ⟨_, _, rfl, .filled snap ts, by simpa using h.symm⟩
      | saveFence w f =>
        by_cases hf : fenceOf p.actor = f
        · exact ⟨_, _, rfl, .saveFenced w f ts hf,
            by simpa [hf] using h.symm⟩
        · exact ⟨_, _, rfl, .saveStale w f ts hf, by simpa [hf] using h.symm⟩
      | saveRow w f =>
        cases hactor : p.actor with
        | none =>
          exact ⟨_, _, rfl, .saveUnknown w f ts hactor,
            by simpa [hactor] using h.symm⟩
        | some r =>
          exact ⟨_, _, rfl, .savedRow w f r ts hactor,
            by simpa [hactor] using h.symm⟩
      | saveTouch w => exact ⟨_, _, rfl, .touched w ts, by simpa using h.symm⟩
      | saveClass w => exact ⟨_, _, rfl, .lookedUp w ts, by simpa using h.symm⟩
      | saveHot snap =>
        exact ⟨_, _, rfl, .savedHot snap ts, by simpa using h.symm⟩
      | appendFence es f =>
        by_cases hf : fenceOf p.actor = f
        · cases es with
          | nil =>
            exact ⟨_, _, rfl, .fencedEmpty f ts hf, by simpa [hf] using h.symm⟩
          | cons e es =>
            exact ⟨_, _, rfl, .fenced e es f ts hf, by simpa [hf] using h.symm⟩
        · exact ⟨_, _, rfl, .appendStale es f ts hf,
            by simpa [hf] using h.symm⟩
      | appendHead => exact ⟨_, _, rfl, .headRead ts, by simpa using h.symm⟩
      | appendBegin es f =>
        exact ⟨_, _, rfl, .began es f ts, by simpa using h.symm⟩

/-- **What a step of the databases is.** -/
theorem step_cases {p p' : Pg S} {a : PgAct S} (h : p.step a = some p') :
    (∃ i r, a = .start i r ∧ p.ops i = none
      ∧ p' = { p with
          ops := update p.ops i (some ⟨r, .first r⟩)
          begun := i :: p.begun })
    ∨ (∃ i ok ts r pc d pc', a = .advance i ok ts ∧ p.ops i = some ⟨r, pc⟩
      ∧ Moves p i pc ok ts d pc'
      ∧ p' = { d with ops := update p.ops i (some ⟨r, pc'⟩) })
    ∨ (a = .expire ∧ p' = { p with hot := none }) := by
  cases a with
  | start i r =>
    simp only [step, start] at h
    split at h
    · simp only [reduceCtorEq] at h
    · next hi =>
      rw [Bool.not_eq_true, Option.isSome_eq_false_iff, Option.isNone_iff_eq_none]
        at hi
      exact .inl ⟨i, r, rfl, hi, (Option.some.inj h).symm⟩
  | advance i ok ts =>
    obtain ⟨pc, d, pc', hpc, hm, rfl⟩ := advance_moves h
    obtain ⟨⟨r, _⟩, ho, rfl⟩ := Option.map_eq_some_iff.mp hpc
    refine .inr (.inl ⟨i, ok, ts, r, _, d, pc', rfl, ho, hm, ?_⟩)
    simp only [setPc, hm.ops, ho, Option.map_some]
  | expire => exact .inr (.inr ⟨rfl, (Option.some.inj h).symm⟩)

/-- A method that has settled executes nothing. -/
theorem Moves.inProgress {p d : Pg S} {i ts : ℕ} {pc pc' : PgPc S} {ok : Bool}
    (h : Moves p i pc ok ts d pc') : pc.inProgress = true := by
  cases h with
  | failed _ _ hpc => exact hpc
  | _ => rfl

/-- A method in progress has not settled. -/
theorem calls_of_inProgress {p : Pg S} {i : ℕ} {r : Request S} {pc : PgPc S}
    (ho : p.ops i = some ⟨r, pc⟩) (hpc : pc.inProgress = true) :
    p.calls i = none := by
  rw [calls, ho]
  cases pc with
  | done a => cases hpc
  | _ => rfl

/-- A method settles. -/
theorem calls_done (d : Pg S) {ops : ℕ → Option (PgOp S)} {p : Pg S} {i : ℕ}
    {r : Request S} {a : Answer S}
    (hops : ops = update p.ops i (some ⟨r, .done a⟩)) :
    ({ d with ops := ops } : Pg S).calls
      = update p.calls i (some (r, a)) := by
  subst hops
  funext j
  by_cases hj : j = i
  · subst hj
    simp only [calls, Function.update_self]
  · simp only [calls, Function.update_of_ne hj]

/-- A method goes on, and none has settled. -/
theorem calls_inProgress (d : Pg S) {ops : ℕ → Option (PgOp S)} {p : Pg S}
    {i : ℕ} {r : Request S} {pc : PgPc S} (hi : p.calls i = none)
    (hpc : pc.inProgress = true)
    (hops : ops = update p.ops i (some ⟨r, pc⟩)) :
    ({ d with ops := ops } : Pg S).calls = p.calls := by
  subst hops
  funext j
  by_cases hj : j = i
  · subst hj
    rw [hi]
    exact calls_of_inProgress (r := r) (by simp) hpc
  · simp only [calls, Function.update_of_ne hj]

end Pg
