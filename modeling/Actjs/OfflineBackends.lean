import Actjs.StableSort
import Actjs.Storage
import Mathlib.Data.String.Basic

/-!
# The backends of the offline queue

The backend in memory is a list to which a call is appended. The one in IndexedDB is an
object store keyed by the idempotency key, which lists its values in the order of their
keys; `list` sorts them by the time at which they were enqueued.

Both should list the calls in the order of insertion. The second has no record of that
order: it shows only where it is also the order of the times, and of the keys where the
times are the same, and where no key is stored twice. `listInInsertionOrder_iff` says that.

A key is of any type with an order, as the one of strings is.
-/

/-- A call, as a backend stores it: `QueuedCall`. -/
structure StoredCall (K : Type) where
  idempotencyKey : K
  className : ClassName
  actorId : ActorId
  method : String
  args : Json
  enqueuedAt : ℤ

/-- **What is asked of a backend.** -/
inductive QueueOp (K : Type) where
  | enqueue (call : StoredCall K)
  | remove (idempotencyKey : K)
  | clear

variable {K : Type} [LinearOrder K]

/-! ## In memory -/

/-- `MemoryOfflineQueue`. -/
structure MemoryOfflineQueue (K : Type) where
  entries : List (StoredCall K)

namespace MemoryOfflineQueue

def empty : MemoryOfflineQueue K := ⟨[]⟩

def enqueue (q : MemoryOfflineQueue K) (call : StoredCall K) : MemoryOfflineQueue K :=
  ⟨q.entries ++ [call]⟩

def list (q : MemoryOfflineQueue K) : List (StoredCall K) := q.entries

def remove (q : MemoryOfflineQueue K) (idempotencyKey : K) : MemoryOfflineQueue K :=
  ⟨q.entries.filter (fun e => e.idempotencyKey ≠ idempotencyKey)⟩

def clear (_ : MemoryOfflineQueue K) : MemoryOfflineQueue K := ⟨[]⟩

def apply (q : MemoryOfflineQueue K) : QueueOp K → MemoryOfflineQueue K
  | .enqueue call => q.enqueue call
  | .remove key => q.remove key
  | .clear => q.clear

/-- The backend after the operations. -/
def run (ops : List (QueueOp K)) : MemoryOfflineQueue K := ops.foldl apply empty

end MemoryOfflineQueue

/-! ## In IndexedDB -/

/-- **An object store**: one call for each key, in the order of the keys. -/
structure ObjectStore (K : Type) [LinearOrder K] where
  values : List (StoredCall K)
  sorted : values.Pairwise (fun a b => a.idempotencyKey < b.idempotencyKey)

namespace ObjectStore

def empty : ObjectStore K := ⟨[], List.Pairwise.nil⟩

/-- The values, with the call at its key. -/
def putValues (values : List (StoredCall K)) (call : StoredCall K) : List (StoredCall K) :=
  values.filter (fun e => e.idempotencyKey < call.idempotencyKey)
    ++ call :: values.filter (fun e => call.idempotencyKey < e.idempotencyKey)

theorem sorted_putValues {values : List (StoredCall K)}
    (h : values.Pairwise (fun a b => a.idempotencyKey < b.idempotencyKey))
    (call : StoredCall K) :
    (putValues values call).Pairwise (fun a b => a.idempotencyKey < b.idempotencyKey) := by
  refine List.pairwise_append.mpr ⟨h.filter _, List.pairwise_cons.mpr ⟨fun e he => ?_,
    h.filter _⟩, fun e he e' he' => ?_⟩
  · simpa using (List.mem_filter.mp he).2
  · have hlt : e.idempotencyKey < call.idempotencyKey := by
      simpa using (List.mem_filter.mp he).2
    rcases List.mem_cons.mp he' with rfl | he'
    · exact hlt
    · exact hlt.trans (by simpa using (List.mem_filter.mp he').2)

/-- `put`. -/
def put (s : ObjectStore K) (call : StoredCall K) : ObjectStore K :=
  ⟨putValues s.values call, sorted_putValues s.sorted call⟩

/-- `delete`. -/
def delete (s : ObjectStore K) (key : K) : ObjectStore K :=
  ⟨s.values.filter (fun e => e.idempotencyKey ≠ key), s.sorted.filter _⟩

/-- `getAll`. -/
def getAll (s : ObjectStore K) : List (StoredCall K) := s.values

end ObjectStore

/-- `IndexedDbOfflineQueue`, of which the object store is kept. -/
structure IndexedDbOfflineQueue (K : Type) [LinearOrder K] where
  store : ObjectStore K

namespace IndexedDbOfflineQueue

def empty : IndexedDbOfflineQueue K := ⟨.empty⟩

def enqueue (q : IndexedDbOfflineQueue K) (call : StoredCall K) : IndexedDbOfflineQueue K :=
  ⟨q.store.put call⟩

/-- The comparison is of `a.enqueuedAt - b.enqueuedAt`. -/
def noLater (a b : StoredCall K) : Bool := decide (a.enqueuedAt - b.enqueuedAt ≤ 0)

def list (q : IndexedDbOfflineQueue K) : List (StoredCall K) :=
  q.store.getAll.mergeSort noLater

def remove (q : IndexedDbOfflineQueue K) (idempotencyKey : K) : IndexedDbOfflineQueue K :=
  ⟨q.store.delete idempotencyKey⟩

def clear (_ : IndexedDbOfflineQueue K) : IndexedDbOfflineQueue K := ⟨.empty⟩

def apply (q : IndexedDbOfflineQueue K) : QueueOp K → IndexedDbOfflineQueue K
  | .enqueue call => q.enqueue call
  | .remove key => q.remove key
  | .clear => q.clear

/-- The backend after the operations. -/
def run (ops : List (QueueOp K)) : IndexedDbOfflineQueue K := ops.foldl apply empty

end IndexedDbOfflineQueue

/-! ## The order of insertion -/

/-- The operation takes the calls of the key out. -/
def QueueOp.drops (key : K) : QueueOp K → Bool
  | enqueue _ => false
  | remove key' => decide (key = key')
  | clear => true

/-- **The calls that stand**, in the order in which they were inserted: those that no
later operation takes out. -/
def standingCalls : List (QueueOp K) → List (StoredCall K)
  | [] => []
  | .enqueue call :: ops =>
    if ops.any (QueueOp.drops call.idempotencyKey) then standingCalls ops
    else call :: standingCalls ops
  | _ :: ops => standingCalls ops

/-- **Both backends list the calls in the order of insertion.** -/
def ListInInsertionOrder (ops : List (QueueOp K)) : Prop :=
  (MemoryOfflineQueue.run ops).list = standingCalls ops
    ∧ (IndexedDbOfflineQueue.run ops).list = standingCalls ops

/-- **The order shows**: no key is twice among the calls, and each is of a later time than
those before, or of the same time and a greater key. -/
def OrderShows (calls : List (StoredCall K)) : Prop :=
  calls.Pairwise (fun a b => a.idempotencyKey ≠ b.idempotencyKey
    ∧ (a.enqueuedAt < b.enqueuedAt
      ∨ a.enqueuedAt = b.enqueuedAt ∧ a.idempotencyKey < b.idempotencyKey))

/-! ## In memory it is kept -/

theorem MemoryOfflineQueue.entries_foldl (ops : List (QueueOp K)) (q : MemoryOfflineQueue K) :
    (ops.foldl MemoryOfflineQueue.apply q).entries
      = q.entries.filter (fun e => !ops.any (QueueOp.drops e.idempotencyKey))
        ++ standingCalls ops := by
  induction ops generalizing q with
  | nil => simp [standingCalls]
  | cons op ops ih =>
    rw [List.foldl_cons, ih]
    cases op with
    | enqueue call =>
      show (q.entries ++ [call]).filter _ ++ _ = _
      rw [List.filter_append, List.append_assoc]
      refine congrArg₂ _ (List.filter_congr (fun e _ => rfl)) ?_
      rw [standingCalls, List.filter_cons]
      by_cases hd : ops.any (QueueOp.drops call.idempotencyKey)
      · simp [hd]
      · simp [hd]
    | remove key =>
      show (q.entries.filter _).filter _ ++ _ = _
      rw [List.filter_filter]
      refine congrArg₂ _ (List.filter_congr (fun e _ => ?_)) rfl
      rw [List.any_cons, QueueOp.drops, Bool.not_or, Bool.and_comm, decide_not]
    | clear =>
      show ([] : List (StoredCall K)).filter _ ++ _ = _
      rw [List.filter_nil]
      refine congrArg₂ _ (List.filter_eq_nil_iff.mpr (fun e _ => ?_)).symm rfl
      simp [QueueOp.drops]

/-- **The backend in memory keeps the order of insertion.** -/
theorem MemoryOfflineQueue.entries_run (ops : List (QueueOp K)) :
    (MemoryOfflineQueue.run ops).entries = standingCalls ops :=
  entries_foldl ops .empty

/-! ## In IndexedDB the last of each key is kept -/

namespace ObjectStore

/-- The store, with the calls put into it one after the other. -/
def putAll (s : ObjectStore K) (calls : List (StoredCall K)) : ObjectStore K :=
  calls.foldl put s

variable {s s' : ObjectStore K} {call e : StoredCall K} {key : K}

theorem mem_put :
    e ∈ (s.put call).values
      ↔ e = call ∨ e ∈ s.values ∧ e.idempotencyKey ≠ call.idempotencyKey := by
  show e ∈ putValues s.values call ↔ _
  rw [putValues, List.mem_append, List.mem_cons, List.mem_filter, List.mem_filter,
    decide_eq_true_iff, decide_eq_true_iff, ne_iff_lt_or_gt]
  tauto

theorem mem_delete :
    e ∈ (s.delete key).values ↔ e ∈ s.values ∧ e.idempotencyKey ≠ key := by
  show e ∈ s.values.filter _ ↔ _
  rw [List.mem_filter, decide_eq_true_iff]

theorem nodup (s : ObjectStore K) : s.values.Nodup :=
  s.sorted.imp (fun hlt he => absurd (he ▸ hlt) (lt_irrefl _))

/-- **A store is known by the calls in it.** -/
theorem ext_mem (h : ∀ e, e ∈ s.values ↔ e ∈ s'.values) : s = s' := by
  have hperm : s.values.Perm s'.values := (List.perm_ext_iff_of_nodup s.nodup s'.nodup).mpr h
  have hvalues : s.values = s'.values :=
    hperm.eq_of_pairwise (fun _ _ _ _ hlt hgt => absurd hgt hlt.asymm) s.sorted s'.sorted
  cases s
  cases s'
  cases hvalues
  rfl

theorem delete_put_self :
    (s.put call).delete call.idempotencyKey = s.delete call.idempotencyKey := by
  refine ext_mem (fun e => ?_)
  rw [mem_delete, mem_delete, mem_put]
  constructor
  · rintro ⟨rfl | he, hne⟩
    · exact absurd rfl hne
    · exact he
  · exact fun he => ⟨.inr he, he.2⟩

theorem delete_put_ne (h : call.idempotencyKey ≠ key) :
    (s.put call).delete key = (s.delete key).put call := by
  refine ext_mem (fun e => ?_)
  rw [mem_delete, mem_put, mem_put, mem_delete]
  constructor
  · rintro ⟨rfl | he, hne⟩
    · exact .inl rfl
    · exact .inr ⟨⟨he.1, hne⟩, he.2⟩
  · rintro (rfl | he)
    · exact ⟨.inl rfl, h⟩
    · exact ⟨.inr ⟨he.1.1, he.2⟩, he.1.2⟩

theorem delete_putAll (s : ObjectStore K) (calls : List (StoredCall K)) (key : K) :
    (s.putAll calls).delete key
      = (s.delete key).putAll (calls.filter (fun e => e.idempotencyKey ≠ key)) := by
  induction calls generalizing s with
  | nil => rfl
  | cons call calls ih =>
    show ((s.put call).putAll calls).delete key = _
    rw [ih]
    by_cases h : call.idempotencyKey = key
    · rw [List.filter_cons_of_neg (by simpa using h), ← h, delete_put_self]
    · rw [List.filter_cons_of_pos (by simpa using h), delete_put_ne h]
      rfl

/-- Of calls whose keys are distinct the store keeps all. -/
theorem mem_putAll {calls : List (StoredCall K)}
    (h : calls.Pairwise (fun a b => a.idempotencyKey ≠ b.idempotencyKey)) :
    e ∈ (s.putAll calls).values
      ↔ e ∈ calls ∨ e ∈ s.values ∧ ∀ c ∈ calls, e.idempotencyKey ≠ c.idempotencyKey := by
  induction calls generalizing s with
  | nil => simp [putAll]
  | cons call calls ih =>
    obtain ⟨hcall, hrest⟩ := List.pairwise_cons.mp h
    show e ∈ ((s.put call).putAll calls).values ↔ _
    rw [ih hrest, mem_put, List.mem_cons, List.forall_mem_cons]
    constructor
    · rintro (he | ⟨rfl | he, hne⟩)
      · exact .inl (.inr he)
      · exact .inl (.inl rfl)
      · exact .inr ⟨he.1, he.2, hne⟩
    · rintro ((rfl | he) | ⟨he, hne⟩)
      · exact .inr ⟨.inl rfl, hcall⟩
      · exact .inl he
      · exact .inr ⟨.inr ⟨he, hne.1⟩, hne.2⟩

end ObjectStore

/-- **The store is what comes of putting the entries into it**, one after the other. -/
theorem IndexedDbOfflineQueue.store_run (ops : List (QueueOp K)) :
    (IndexedDbOfflineQueue.run ops).store
      = ObjectStore.empty.putAll (MemoryOfflineQueue.run ops).entries := by
  induction ops using List.reverseRecOn with
  | nil => rfl
  | append_singleton ops op ih =>
    have hmem : MemoryOfflineQueue.run (ops ++ [op]) = (MemoryOfflineQueue.run ops).apply op :=
      List.foldl_concat _ _ _ _
    have hidb :
        IndexedDbOfflineQueue.run (ops ++ [op]) = (IndexedDbOfflineQueue.run ops).apply op :=
      List.foldl_concat _ _ _ _
    rw [hmem, hidb]
    cases op with
    | enqueue call =>
      show (IndexedDbOfflineQueue.run ops).store.put call
        = ObjectStore.empty.putAll ((MemoryOfflineQueue.run ops).entries ++ [call])
      rw [ih, ObjectStore.putAll, ObjectStore.putAll, List.foldl_concat]
    | remove key =>
      show (IndexedDbOfflineQueue.run ops).store.delete key = _
      rw [ih, ObjectStore.delete_putAll]
      rfl
    | clear => rfl

/-! ## When they agree

`list` sorts by time what the store has in the order of its keys, so by time
and then by key; that is the order of insertion where the condition says so.
-/

omit [LinearOrder K] in
theorem noLater_trans (a b c : StoredCall K) :
    IndexedDbOfflineQueue.noLater a b → IndexedDbOfflineQueue.noLater b c →
      IndexedDbOfflineQueue.noLater a c := by
  simp only [IndexedDbOfflineQueue.noLater, decide_eq_true_eq]
  omega

omit [LinearOrder K] in
theorem noLater_total (a b : StoredCall K) :
    IndexedDbOfflineQueue.noLater a b || IndexedDbOfflineQueue.noLater b a := by
  simp only [IndexedDbOfflineQueue.noLater, Bool.or_eq_true, decide_eq_true_eq]
  omega

/-- By the times, and where they are the same by the keys. -/
abbrev TimeThenKey : StoredCall K → StoredCall K → Prop :=
  StableSort.Then IndexedDbOfflineQueue.noLater (fun a b => a.idempotencyKey < b.idempotencyKey)

theorem timeThenKey_iff {a b : StoredCall K} :
    TimeThenKey a b ↔ a.enqueuedAt < b.enqueuedAt
      ∨ a.enqueuedAt = b.enqueuedAt ∧ a.idempotencyKey < b.idempotencyKey := by
  show (decide (a.enqueuedAt - b.enqueuedAt ≤ 0) = true
    ∧ (decide (b.enqueuedAt - a.enqueuedAt ≤ 0) = true →
      a.idempotencyKey < b.idempotencyKey)) ↔ _
  rw [decide_eq_true_iff, decide_eq_true_iff]
  rcases lt_trichotomy a.enqueuedAt b.enqueuedAt with h | h | h
  · exact ⟨fun _ => .inl h, fun _ => ⟨by omega, fun hle => absurd hle (by omega)⟩⟩
  · exact ⟨fun hk => .inr ⟨h, hk.2 (by omega)⟩,
      fun hk => ⟨by omega, fun _ => (hk.resolve_left (by omega)).2⟩⟩
  · exact ⟨fun hk => absurd hk.1 (by omega), fun hk => absurd hk (by omega)⟩

/-- The list of the backend in IndexedDB is in this order, whatever was inserted first. -/
theorem IndexedDbOfflineQueue.orderShows_list (q : IndexedDbOfflineQueue K) :
    OrderShows q.list := by
  have hordered : q.list.Pairwise TimeThenKey :=
    StableSort.pairwise_mergeSort_then noLater_trans noLater_total q.store.sorted
  have hkeys : q.list.Pairwise (fun a b => a.idempotencyKey ≠ b.idempotencyKey) :=
    (List.mergeSort_perm q.store.values _).symm.pairwise
      (q.store.sorted.imp (fun hlt => hlt.ne)) (fun hne => hne.symm)
  exact (hkeys.and hordered).imp (fun h => ⟨h.1, timeThenKey_iff.mp h.2⟩)

/-- **The backends list the calls in the order of insertion where it shows**, and only
there. -/
theorem listInInsertionOrder_iff (ops : List (QueueOp K)) :
    ListInInsertionOrder ops ↔ OrderShows (standingCalls ops) := by
  refine ⟨fun h => h.2 ▸ IndexedDbOfflineQueue.orderShows_list _,
    fun h => ⟨MemoryOfflineQueue.entries_run ops, ?_⟩⟩
  have hkeys : (standingCalls ops).Pairwise (fun a b => a.idempotencyKey ≠ b.idempotencyKey) :=
    h.imp (fun hab => hab.1)
  have hstore : (IndexedDbOfflineQueue.run ops).store
      = ObjectStore.empty.putAll (standingCalls ops) := by
    rw [IndexedDbOfflineQueue.store_run, MemoryOfflineQueue.entries_run]
  have hmem : ∀ e, e ∈ (IndexedDbOfflineQueue.run ops).list ↔ e ∈ standingCalls ops := by
    intro e
    rw [IndexedDbOfflineQueue.list, (List.mergeSort_perm _ _).mem_iff,
      ObjectStore.getAll, hstore, ObjectStore.mem_putAll hkeys]
    exact or_iff_left (fun hempty => absurd hempty.1 List.not_mem_nil)
  have hlist := IndexedDbOfflineQueue.orderShows_list (IndexedDbOfflineQueue.run ops)
  have hnodup : ∀ {calls : List (StoredCall K)}, OrderShows calls → calls.Nodup :=
    fun hcalls => List.Pairwise.imp (fun hab he => hab.1 (congrArg _ he)) hcalls
  have hperm := (List.perm_ext_iff_of_nodup (hnodup hlist) (hnodup h)).mpr hmem
  have hsorted : ∀ {calls : List (StoredCall K)}, OrderShows calls → calls.Pairwise TimeThenKey :=
    fun hcalls => List.Pairwise.imp (fun hab => timeThenKey_iff.mpr hab.2) hcalls
  exact StableSort.eq_of_perm (fun _ _ hlt hgt => lt_asymm hlt hgt) (hsorted hlist) (hsorted h)
    hperm

/-! ### Two calls in one millisecond -/

/-- A call of a key. -/
def callOf (key : String) : StoredCall String :=
  ⟨key, "Counter", "a", "increment", .null, 1000⟩

theorem not_listInInsertionOrder :
    ¬ ∀ ops : List (QueueOp String), ListInInsertionOrder ops := by
  intro h
  have hlist : (IndexedDbOfflineQueue.run [.enqueue (callOf "b"), .enqueue (callOf "a")]).list
      = [callOf "b", callOf "a"] := (h [.enqueue (callOf "b"), .enqueue (callOf "a")]).2
  have hshows := IndexedDbOfflineQueue.orderShows_list
    (.run [.enqueue (callOf "b"), .enqueue (callOf "a")])
  rw [hlist] at hshows
  have hba := ((List.pairwise_cons.mp hshows).1 _ (List.mem_singleton_self _)).2
  exact absurd hba (by decide)
