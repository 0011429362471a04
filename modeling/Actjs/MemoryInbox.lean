import Mathlib.Data.Finset.Card
import Mathlib.Data.List.Basic

/-!
# The inbox of the memory driver

The memory driver keeps an actor's inbox in two parts: a bucket of what has been
appended and the set of the ids that have been acked. What is acked and at the
head of the bucket is dropped from both.

What it stands for is the stream the other driver keeps: a queue which an append
puts an entry at the end of and an ack takes the entries it names out of. That
driver deletes from the stream itself, and an id that is not in it is nothing to
delete. Here such an id stays in the set. The two agree as long as an append does
not come to make an id that has been acked ahead of it, and differ from then on:
the entry is never read.
-/

open Function (update)

variable {E : Type}

/-! ## Queues with deletion

The abstract queue: append at the end, delete by id. -/

/-- An entry of the inbox with the id the driver has given it. -/
structure StreamRecord (E : Type) where
  id : String
  entry : E
  deriving DecidableEq

/-- The inbox an actor is meant to have, for every actor: what can be read of it,
in order. -/
abbrev InboxStreams (E : Type) := String → List (StreamRecord E)

namespace InboxStreams

/-- An entry goes to the end. -/
def append (q : InboxStreams E) (actor : String) (r : StreamRecord E) : InboxStreams E :=
  update q actor (q actor ++ [r])

/-- The entries with these ids are taken out, wherever they are. -/
def delete (q : InboxStreams E) (actor : String) (ids : List String) : InboxStreams E :=
  update q actor ((q actor).filter (fun r => r.id ∉ ids))

@[simp] theorem append_self (q : InboxStreams E) (actor : String) (r : StreamRecord E) :
    q.append actor r actor = q actor ++ [r] :=
  Function.update_self ..

@[simp] theorem append_ne (q : InboxStreams E) {actor x : String} (r : StreamRecord E)
    (hx : x ≠ actor) : q.append actor r x = q x :=
  Function.update_of_ne hx ..

@[simp] theorem delete_self (q : InboxStreams E) (actor : String) (ids : List String) :
    q.delete actor ids actor = (q actor).filter (fun r => r.id ∉ ids) :=
  Function.update_self ..

@[simp] theorem delete_ne (q : InboxStreams E) {actor x : String} (ids : List String)
    (hx : x ≠ actor) : q.delete actor ids x = q x :=
  Function.update_of_ne hx ..

end InboxStreams

/-! ## The driver -/

/-- What the memory driver keeps the inboxes in. -/
structure MemoryInbox (E : Type) where
  inboxSeq : ℕ
  inboxByActor : String → Option (List (StreamRecord E))
  inboxAckedByActor : String → Option (Finset String)

namespace MemoryInbox

/-- Nothing has been appended or acked. -/
def init : MemoryInbox E := ⟨0, fun _ => none, fun _ => none⟩

/-- The id of the next entry when the clock shows `now`. -/
def nextId (st : MemoryInbox E) (now : String) : String :=
  now ++ "-" ++ toString st.inboxSeq

/-- `appendInbox`, when the clock shows `now`. -/
def appendInbox (st : MemoryInbox E) (now : String) (actor : String) (entry : E) :
    MemoryInbox E × String :=
  let inboxId := st.nextId now
  let bucket := (st.inboxByActor actor).getD []
  ({ st with
      inboxSeq := st.inboxSeq + 1
      inboxByActor := update st.inboxByActor actor (some (bucket ++ [⟨inboxId, entry⟩])) },
    inboxId)

/-- The loop of `readPendingInbox` over what is left of the bucket. -/
def readLoop (acked : Finset String) (limit : ℕ) :
    List (StreamRecord E) → List (StreamRecord E) → List (StreamRecord E)
  | [], out => out
  | r :: rest, out =>
    if r.id ∈ acked then readLoop acked limit rest out
    else if limit ≤ (out ++ [r]).length then out ++ [r]
    else readLoop acked limit rest (out ++ [r])

/-- `readPendingInbox`. -/
def readPendingInbox (st : MemoryInbox E) (actor : String) (limit : ℕ) :
    List (StreamRecord E) :=
  match st.inboxByActor actor with
  | none => []
  | some bucket => readLoop ((st.inboxAckedByActor actor).getD ∅) limit bucket []

/-- The first loop of the compaction: how much of the head of the bucket is acked. -/
def ackedPrefix (acked : Finset String) : List (StreamRecord E) → ℕ
  | [] => 0
  | r :: rest => if r.id ∈ acked then ackedPrefix acked rest + 1 else 0

/-- `ackInbox`. -/
def ackInbox (st : MemoryInbox E) (actor : String) (entryIds : List String) :
    MemoryInbox E :=
  let acked := entryIds.foldl (fun acked eid => insert eid acked)
    ((st.inboxAckedByActor actor).getD ∅)
  match st.inboxByActor actor with
  | none => { st with inboxAckedByActor := update st.inboxAckedByActor actor (some acked) }
  | some bucket =>
    let drop := ackedPrefix acked bucket
    let left := (bucket.take drop).foldl (fun acked r => acked.erase r.id) acked
    { st with
      inboxByActor := update st.inboxByActor actor (some (bucket.drop drop))
      inboxAckedByActor := update st.inboxAckedByActor actor (some left) }

/-- `pendingInboxCount`. -/
def pendingInboxCount (st : MemoryInbox E) (actor : String) : ℕ :=
  match st.inboxByActor actor with
  | none => 0
  | some bucket =>
    match st.inboxAckedByActor actor with
    | none => bucket.length
    | some acked =>
      if acked.card = 0 then bucket.length
      else bucket.foldl (fun n r => if r.id ∉ acked then n + 1 else n) 0

/-! ## What can be read

The pending entries are those of the bucket that are not in the set, and
compaction changes neither which they are nor their order. -/

/-- The bucket of an actor. -/
def bucket (st : MemoryInbox E) (actor : String) : List (StreamRecord E) :=
  (st.inboxByActor actor).getD []

/-- The acked ids the driver still keeps for an actor. -/
def acked (st : MemoryInbox E) (actor : String) : Finset String :=
  (st.inboxAckedByActor actor).getD ∅

/-- **The queue the two parts stand for**: the bucket without what is acked. -/
def pending (st : MemoryInbox E) : InboxStreams E :=
  fun actor => (st.bucket actor).filter (fun r => r.id ∉ st.acked actor)

/-- The clock only shows in the id. -/
@[simp] theorem bucket_appendInbox_self (st : MemoryInbox E) (now actor : String) (entry : E) :
    (st.appendInbox now actor entry).1.bucket actor
      = st.bucket actor ++ [⟨st.nextId now, entry⟩] := by
  simp [bucket, appendInbox]

@[simp] theorem bucket_appendInbox_ne (st : MemoryInbox E) {now actor x : String} {entry : E}
    (hx : x ≠ actor) : (st.appendInbox now actor entry).1.bucket x = st.bucket x := by
  simp only [bucket, appendInbox, Function.update_of_ne hx]

@[simp] theorem acked_appendInbox (st : MemoryInbox E) (now actor x : String) (entry : E) :
    (st.appendInbox now actor entry).1.acked x = st.acked x := rfl

/-- The acked ids of an actor when an ack has added those it names, and nothing has
been dropped yet. -/
def ackedWith (st : MemoryInbox E) (actor : String) (ids : List String) : Finset String :=
  ids.foldl (fun acked eid => insert eid acked) (st.acked actor)

theorem bucket_ackInbox_self (st : MemoryInbox E) (actor : String) (ids : List String) :
    (st.ackInbox actor ids).bucket actor
      = (st.bucket actor).drop (ackedPrefix (st.ackedWith actor ids) (st.bucket actor)) := by
  unfold ackInbox bucket ackedWith acked
  cases hb : st.inboxByActor actor with
  | none => simp [hb]
  | some bucket => simp

theorem acked_ackInbox_self (st : MemoryInbox E) (actor : String) (ids : List String) :
    (st.ackInbox actor ids).acked actor
      = ((st.bucket actor).take
            (ackedPrefix (st.ackedWith actor ids) (st.bucket actor))).foldl
          (fun acked r => acked.erase r.id) (st.ackedWith actor ids) := by
  unfold ackInbox bucket ackedWith acked
  cases st.inboxByActor actor <;> simp

theorem bucket_ackInbox_ne (st : MemoryInbox E) {actor x : String} (ids : List String)
    (hx : x ≠ actor) : (st.ackInbox actor ids).bucket x = st.bucket x := by
  unfold ackInbox bucket
  cases st.inboxByActor actor with
  | none => rfl
  | some bucket => simp only [Function.update_of_ne hx]

theorem acked_ackInbox_ne (st : MemoryInbox E) {actor x : String} (ids : List String)
    (hx : x ≠ actor) : (st.ackInbox actor ids).acked x = st.acked x := by
  unfold ackInbox acked
  cases st.inboxByActor actor <;> simp only [Function.update_of_ne hx]

@[simp] theorem inboxSeq_ackInbox (st : MemoryInbox E) (actor : String)
    (ids : List String) : (st.ackInbox actor ids).inboxSeq = st.inboxSeq := by
  unfold ackInbox
  cases st.inboxByActor actor <;> rfl

theorem readLoop_eq (acked : Finset String) {limit : ℕ} (bucket out : List (StreamRecord E))
    (hout : out.length < limit) :
    readLoop acked limit bucket out
      = (out ++ bucket.filter (fun r => r.id ∉ acked)).take limit := by
  induction bucket generalizing out with
  | nil => simp [readLoop, List.take_of_length_le (Nat.le_of_lt hout)]
  | cons r rest ih =>
    rw [readLoop]
    by_cases hr : r.id ∈ acked
    · rw [if_pos hr, ih out hout, List.filter_cons_of_neg (by simpa using hr)]
    · rw [if_neg hr, List.filter_cons_of_pos (by simpa using hr),
        List.append_cons out r (rest.filter _)]
      split
      · next hfull =>
        rw [List.take_append_of_le_length hfull]
        refine (List.take_of_length_le ?_).symm
        simp only [List.length_append, List.length_singleton]
        omega
      · next hfull => exact ih _ (Nat.not_le.mp hfull)

theorem readPendingInbox_bucket (st : MemoryInbox E) (actor : String) (limit : ℕ) :
    st.readPendingInbox actor limit
      = readLoop (st.acked actor) limit (st.bucket actor) [] := by
  unfold readPendingInbox bucket acked
  cases st.inboxByActor actor <;> rfl

/-- **A read returns the head of the queue.** -/
theorem readPendingInbox_eq (st : MemoryInbox E) (actor : String) {limit : ℕ}
    (hlimit : 1 ≤ limit) :
    st.readPendingInbox actor limit = (st.pending actor).take limit := by
  rw [readPendingInbox_bucket, readLoop_eq _ _ [] hlimit, List.nil_append, pending]

theorem foldl_count (acked : Finset String) (bucket : List (StreamRecord E)) (n : ℕ) :
    bucket.foldl (fun n r => if r.id ∉ acked then n + 1 else n) n
      = n + (bucket.filter (fun r => r.id ∉ acked)).length := by
  induction bucket generalizing n with
  | nil => rfl
  | cons r rest ih =>
    rw [List.foldl_cons, ih]
    by_cases hr : r.id ∈ acked
    · simp [hr]
    · simp only [hr, not_false_eq_true, ↓reduceIte, decide_true, List.filter_cons_of_pos,
        List.length_cons]
      omega

/-- **The count is the length of the queue.** -/
theorem pendingInboxCount_eq (st : MemoryInbox E) (actor : String) :
    st.pendingInboxCount actor = (st.pending actor).length := by
  unfold pendingInboxCount pending bucket acked
  cases st.inboxByActor actor with
  | none => rfl
  | some bucket =>
    cases st.inboxAckedByActor actor with
    | none => simp
    | some acked =>
      dsimp only
      split
      · next hcard => simp [Finset.card_eq_zero.mp hcard]
      · rw [foldl_count, Nat.zero_add]
        rfl

theorem mem_foldl_insert (ids : List String) (acked : Finset String) (id : String) :
    id ∈ ids.foldl (fun acked eid => insert eid acked) acked ↔ id ∈ ids ∨ id ∈ acked := by
  induction ids generalizing acked with
  | nil => simp
  | cons eid ids ih =>
    rw [List.foldl_cons, ih, Finset.mem_insert, List.mem_cons]
    tauto

theorem mem_foldl_erase (dropped : List (StreamRecord E)) (acked : Finset String)
    (id : String) :
    id ∈ dropped.foldl (fun acked r => acked.erase r.id) acked
      ↔ id ∈ acked ∧ ∀ r ∈ dropped, r.id ≠ id := by
  induction dropped generalizing acked with
  | nil => simp
  | cons r dropped ih =>
    rw [List.foldl_cons, ih, Finset.mem_erase, List.forall_mem_cons]
    tauto

/-- What the compaction drops is acked. -/
theorem mem_take_ackedPrefix (acked : Finset String) {bucket : List (StreamRecord E)}
    {r : StreamRecord E} (hr : r ∈ bucket.take (ackedPrefix acked bucket)) :
    r.id ∈ acked := by
  induction bucket with
  | nil => simp at hr
  | cons b bucket ih =>
    rw [ackedPrefix] at hr
    split at hr
    · next hb =>
      rw [List.take_succ_cons, List.mem_cons] at hr
      obtain rfl | hr := hr
      · exact hb
      · exact ih hr
    · simp at hr

/-- **What the compaction leaves**: where no two entries have one id, it does not
touch what can be read. -/
theorem filter_compacted (acked : Finset String) {bucket : List (StreamRecord E)}
    (hnodup : (bucket.map StreamRecord.id).Nodup) {drop : ℕ}
    (hdrop : ∀ r ∈ bucket.take drop, r.id ∈ acked) :
    (bucket.drop drop).filter (fun r => r.id ∉
        (bucket.take drop).foldl (fun acked r => acked.erase r.id) acked)
      = bucket.filter (fun r => r.id ∉ acked) := by
  have hapart : ∀ r ∈ bucket.drop drop, ∀ d ∈ bucket.take drop, d.id ≠ r.id := by
    intro r hr d hd heq
    rw [← List.take_append_drop drop bucket, List.map_append] at hnodup
    exact List.disjoint_of_nodup_append hnodup (List.mem_map_of_mem hd)
      (heq ▸ List.mem_map_of_mem hr)
  have htaken : (bucket.take drop).filter (fun r => r.id ∉ acked) = [] :=
    List.filter_eq_nil_iff.mpr (fun r hr => by simpa using hdrop r hr)
  have hsplit : bucket.filter (fun r => r.id ∉ acked)
      = (bucket.drop drop).filter (fun r => r.id ∉ acked) := by
    conv_lhs => rw [← List.take_append_drop drop bucket, List.filter_append, htaken]
    rfl
  rw [hsplit]
  refine List.filter_congr (fun r hr => ?_)
  rw [decide_eq_decide, mem_foldl_erase, not_iff_not]
  exact and_iff_left (hapart r hr)

/-- **An ack takes the entries it names out of the queue.** -/
theorem pending_ackInbox (st : MemoryInbox E) (actor : String) (ids : List String)
    (hnodup : ((st.bucket actor).map StreamRecord.id).Nodup) :
    (st.ackInbox actor ids).pending = st.pending.delete actor ids := by
  funext x
  by_cases hx : x = actor
  · subst hx
    rw [InboxStreams.delete_self, pending, bucket_ackInbox_self, acked_ackInbox_self,
      filter_compacted _ hnodup (fun r hr => mem_take_ackedPrefix _ hr), pending,
      List.filter_filter]
    refine List.filter_congr (fun r _ => ?_)
    simp [ackedWith, mem_foldl_insert, not_or]
  · rw [InboxStreams.delete_ne _ _ hx, pending, pending, bucket_ackInbox_ne st ids hx,
      acked_ackInbox_ne st ids hx]

/-- **An append puts its entry at the end of the queue**, unless its id is acked
already. -/
theorem pending_appendInbox (st : MemoryInbox E) (now actor : String) (entry : E) :
    (st.appendInbox now actor entry).1.pending
      = if st.nextId now ∈ st.acked actor then st.pending
        else st.pending.append actor ⟨st.nextId now, entry⟩ := by
  funext x
  by_cases hx : x = actor
  · subst hx
    have hself : (st.appendInbox now x entry).1.pending x
        = st.pending x ++ [⟨st.nextId now, entry⟩].filter (fun r => r.id ∉ st.acked x) := by
      rw [pending, bucket_appendInbox_self, acked_appendInbox, List.filter_append, pending]
    rw [hself]
    by_cases hid : st.nextId now ∈ st.acked x
    · rw [if_pos hid, List.filter_cons_of_neg (by simpa using hid), List.filter_nil,
        List.append_nil]
    · rw [if_neg hid, List.filter_cons_of_pos (by simpa using hid), List.filter_nil,
        InboxStreams.append_self]
  · have hne : (st.appendInbox now actor entry).1.pending x = st.pending x := by
      rw [pending, bucket_appendInbox_ne st hx, acked_appendInbox, pending]
    rw [hne]
    split
    · rfl
    · rw [InboxStreams.append_ne _ _ hx]

end MemoryInbox

/-! ## Calls -/

/-- A call that changes the inboxes. -/
inductive InboxCall (E : Type) where
  /-- `appendInbox`, when the clock shows `now`. -/
  | append (now actor : String) (entry : E)
  | ack (actor : String) (entryIds : List String)

/-- The actor a call is for. -/
def InboxCall.actor : InboxCall E → String
  | .append _ actor _ => actor
  | .ack actor _ => actor

/-- The driver after a call. -/
def MemoryInbox.call (st : MemoryInbox E) : InboxCall E → MemoryInbox E
  | .append now actor entry => (st.appendInbox now actor entry).1
  | .ack actor entryIds => st.ackInbox actor entryIds

/-- The driver after some calls, with the queues the same calls make and what the
calls were. -/
structure InboxRun (E : Type) where
  driver : MemoryInbox E
  streams : InboxStreams E
  /-- The ids `appendInbox` has returned. -/
  issued : List String
  /-- What has been appended for an actor. -/
  appended : InboxStreams E
  /-- The ids the acks for an actor have named. -/
  named : String → List String

namespace InboxRun

/-- Before the first call. -/
def init : InboxRun E := ⟨MemoryInbox.init, fun _ => [], [], fun _ => [], fun _ => []⟩

/-- One call. -/
def step (r : InboxRun E) : InboxCall E → InboxRun E
  | .append now actor entry =>
    let made := r.driver.appendInbox now actor entry
    { r with
      driver := made.1
      streams := r.streams.append actor ⟨made.2, entry⟩
      issued := r.issued ++ [made.2]
      appended := r.appended.append actor ⟨made.2, entry⟩ }
  | .ack actor entryIds =>
    { r with
      driver := r.driver.ackInbox actor entryIds
      streams := r.streams.delete actor entryIds
      named := update r.named actor (r.named actor ++ entryIds) }

/-- The state some calls lead to. -/
def after (calls : List (InboxCall E)) : InboxRun E := calls.foldl step init

@[simp] theorem after_concat (calls : List (InboxCall E)) (c : InboxCall E) :
    after (calls ++ [c]) = (after calls).step c := by
  simp [after]

/-- **Every read is one of the queue**: of its head, and of its length. -/
def Agrees (r : InboxRun E) : Prop :=
  ∀ actor, (∀ limit, 1 ≤ limit →
      r.driver.readPendingInbox actor limit = (r.streams actor).take limit)
    ∧ r.driver.pendingInboxCount actor = (r.streams actor).length

/-- **The id is new to the acks**: an append does not make an id that an ack for the
same actor has named already. -/
def Unnamed (r : InboxRun E) : InboxCall E → Prop
  | .append now actor _ => r.driver.nextId now ∉ r.named actor
  | .ack _ _ => True

theorem agrees_iff (r : InboxRun E) : r.Agrees ↔ r.driver.pending = r.streams := by
  constructor
  · intro h
    funext actor
    obtain ⟨hread, hcount⟩ := h actor
    let limit := (r.streams actor).length + 1
    have hread := hread limit (Nat.le_add_left 1 _)
    rw [MemoryInbox.pendingInboxCount_eq] at hcount
    rwa [MemoryInbox.readPendingInbox_eq _ _ (Nat.le_add_left 1 _),
      List.take_of_length_le (by omega), List.take_of_length_le (by omega)] at hread
  · intro h actor
    refine ⟨fun limit hlimit => ?_, ?_⟩
    · rw [MemoryInbox.readPendingInbox_eq _ _ hlimit, h]
    · rw [MemoryInbox.pendingInboxCount_eq, h]

/-! ## The invariant -/

/-- **What holds after any calls.** -/
structure Sound (r : InboxRun E) : Prop where
  /-- The ids are made of the clock and of a number that only grows. -/
  numbered : ∀ id ∈ r.issued, ∃ now k, k < r.driver.inboxSeq
    ∧ id = now ++ "-" ++ toString k
  nodup : r.issued.Nodup
  /-- The bucket is part of what has been appended. -/
  bucket : ∀ actor, ((r.driver.bucket actor).map StreamRecord.id).Sublist r.issued
  acked : ∀ actor, ∀ id ∈ r.driver.acked actor, id ∈ r.named actor
  /-- An id that has been acked and is not kept as acked any more is one that has been
  dropped with its entry. -/
  dropped : ∀ actor, ∀ id ∈ r.named actor, id ∉ r.driver.acked actor → id ∈ r.issued
  /-- An entry can be read as long as no ack has named it, before or after. -/
  pending : ∀ actor, r.driver.pending actor
    = (r.appended actor).filter (fun e => e.id ∉ r.named actor)

/-- The number an id ends in can be read off it. -/
theorem eq_of_dashed {a b : String} {m n : ℕ}
    (h : a ++ "-" ++ toString m = b ++ "-" ++ toString n) : m = n := by
  have hdigits : ∀ (s : String) (k : ℕ),
      (s ++ "-" ++ toString k).toList.reverse.takeWhile (· ≠ '-')
        = (Nat.toDigits 10 k).reverse := by
    intro s k
    rw [Nat.toString_eq_repr, String.toList_append, String.toList_append, Nat.toList_repr,
      List.reverse_append, List.reverse_append, List.takeWhile_append_of_pos]
    · simp
    · intro c hc
      have hdigit := Nat.isDigit_of_mem_toDigits (by decide) (by decide)
        (List.mem_reverse.mp hc)
      simp only [ne_eq, decide_not, Bool.not_eq_true', decide_eq_false_iff_not]
      rintro rfl
      exact absurd hdigit (by decide)
  have hsame : Nat.toDigits 10 m = Nat.toDigits 10 n := by
    rw [← List.reverse_inj, ← hdigits a m, ← hdigits b n, h]
  rw [← Nat.ofDigitChars_ten_toDigits (n := m), hsame, Nat.ofDigitChars_ten_toDigits]

namespace Sound

theorem init : Sound (InboxRun.init : InboxRun E) where
  numbered _ h := absurd h List.not_mem_nil
  nodup := List.nodup_nil
  bucket _ := List.Sublist.refl _
  acked _ _ h := absurd h (Finset.notMem_empty _)
  dropped _ _ h := absurd h List.not_mem_nil
  pending _ := rfl

/-- The next id has not been returned before. -/
theorem nextId_fresh {r : InboxRun E} (h : r.Sound) (now : String) :
    r.driver.nextId now ∉ r.issued := by
  intro hid
  obtain ⟨past, k, hk, heq⟩ := h.numbered _ hid
  exact absurd (eq_of_dashed heq) (Nat.ne_of_gt hk)

/-- **The next id is kept as acked if and only if it has been named.** -/
theorem nextId_acked {r : InboxRun E} (h : r.Sound) (now actor : String) :
    r.driver.nextId now ∈ r.driver.acked actor ↔ r.driver.nextId now ∈ r.named actor := by
  refine ⟨h.acked actor _, fun hn => ?_⟩
  by_contra ha
  exact h.nextId_fresh now (h.dropped actor _ hn ha)

/-- What can be read after an append, by what the acks have named. -/
theorem pending_append {r : InboxRun E} (h : r.Sound) (now actor : String) (entry : E) :
    (r.driver.appendInbox now actor entry).1.pending
      = if r.driver.nextId now ∈ r.named actor then r.driver.pending
        else r.driver.pending.append actor ⟨r.driver.nextId now, entry⟩ :=
  (MemoryInbox.pending_appendInbox ..).trans (if_congr (h.nextId_acked now actor) rfl rfl)

/-- An append keeps it. -/
theorem append {r : InboxRun E} (h : r.Sound) (now actor : String) (entry : E) :
    (r.step (.append now actor entry)).Sound where
  numbered id hid := by
    obtain hid | hid := List.mem_append.mp hid
    · obtain ⟨past, k, hk, heq⟩ := h.numbered id hid
      exact ⟨past, k, Nat.lt_succ_of_lt hk, heq⟩
    · exact ⟨now, r.driver.inboxSeq, Nat.lt_succ_self _, List.mem_singleton.mp hid⟩
  nodup := by
    refine List.nodup_append.mpr ⟨h.nodup, List.nodup_singleton _, ?_⟩
    intro id hid id' hid' heq
    rw [heq, List.mem_singleton.mp hid'] at hid
    exact h.nextId_fresh now hid
  bucket x := by
    by_cases hx : x = actor
    · subst hx
      simp only [step, MemoryInbox.bucket_appendInbox_self, List.map_append]
      exact (h.bucket x).append (List.Sublist.refl _)
    · simp only [step, MemoryInbox.bucket_appendInbox_ne r.driver hx]
      exact (h.bucket x).trans (List.sublist_append_left _ _)
  acked x id hid := h.acked x id hid
  dropped x id hn ha := List.mem_append_left _ (h.dropped x id hn ha)
  pending x := by
    change (r.driver.appendInbox now actor entry).1.pending x
      = (r.appended.append actor ⟨r.driver.nextId now, entry⟩ x).filter
          (fun e => e.id ∉ r.named x)
    rw [h.pending_append]
    by_cases hx : x = actor
    · subst hx
      rw [InboxStreams.append_self, List.filter_append, ← h.pending]
      by_cases hid : r.driver.nextId now ∈ r.named x
      · rw [if_pos hid, List.filter_cons_of_neg (by simpa using hid), List.filter_nil,
          List.append_nil]
      · rw [if_neg hid, List.filter_cons_of_pos (by simpa using hid), List.filter_nil,
          InboxStreams.append_self]
    · rw [InboxStreams.append_ne _ _ hx, ← h.pending]
      split
      · rfl
      · rw [InboxStreams.append_ne _ _ hx]

/-- The entries of a bucket have one id each. -/
theorem bucket_nodup {r : InboxRun E} (h : r.Sound) (actor : String) :
    ((r.driver.bucket actor).map StreamRecord.id).Nodup :=
  (h.bucket actor).nodup h.nodup

/-- An ack keeps it. -/
theorem ack {r : InboxRun E} (h : r.Sound) (actor : String) (ids : List String) :
    (r.step (.ack actor ids)).Sound where
  numbered id hid := by
    obtain ⟨now, k, hk, heq⟩ := h.numbered id hid
    exact ⟨now, k, (MemoryInbox.inboxSeq_ackInbox r.driver actor ids).symm ▸ hk, heq⟩
  nodup := h.nodup
  bucket x := by
    by_cases hx : x = actor
    · subst hx
      refine List.Sublist.trans ?_ (h.bucket x)
      rw [step, MemoryInbox.bucket_ackInbox_self]
      exact (List.drop_sublist _ _).map _
    · rw [step, MemoryInbox.bucket_ackInbox_ne _ _ hx]
      exact h.bucket x
  acked x id hid := by
    by_cases hx : x = actor
    · subst hx
      rw [step, MemoryInbox.acked_ackInbox_self, MemoryInbox.mem_foldl_erase,
        MemoryInbox.ackedWith, MemoryInbox.mem_foldl_insert] at hid
      simp only [step, Function.update_self, List.mem_append]
      exact hid.1.symm.imp_left (h.acked x id)
    · rw [step, MemoryInbox.acked_ackInbox_ne _ _ hx] at hid
      simp only [step, Function.update_of_ne hx]
      exact h.acked x id hid
  dropped x id hn ha := by
    by_cases hx : x = actor
    · subst hx
      simp only [step, Function.update_self, List.mem_append] at hn
      rw [step, MemoryInbox.acked_ackInbox_self, MemoryInbox.mem_foldl_erase,
        MemoryInbox.ackedWith, MemoryInbox.mem_foldl_insert, not_and_or] at ha
      obtain ha | ha := ha
      · obtain ⟨hids, hacked⟩ := not_or.mp ha
        exact h.dropped x id (hn.resolve_right hids) hacked
      · -- the id is one of those the compaction has dropped
        push Not at ha
        obtain ⟨e, he, rfl⟩ := ha
        exact (h.bucket x).subset (List.mem_map_of_mem (List.mem_of_mem_take he))
    · simp only [step, Function.update_of_ne hx] at hn
      rw [step, MemoryInbox.acked_ackInbox_ne _ _ hx] at ha
      exact h.dropped x id hn ha
  pending x := by
    change (r.driver.ackInbox actor ids).pending x
      = (r.appended x).filter
          (fun e => e.id ∉ update r.named actor (r.named actor ++ ids) x)
    rw [MemoryInbox.pending_ackInbox _ _ _ (h.bucket_nodup actor)]
    by_cases hx : x = actor
    · subst hx
      rw [InboxStreams.delete_self, h.pending, List.filter_filter]
      refine List.filter_congr (fun e _ => ?_)
      rw [Function.update_self, ← Bool.decide_and, decide_eq_decide, List.mem_append, not_or,
        and_comm]
    · rw [InboxStreams.delete_ne _ _ hx, h.pending]
      refine List.filter_congr (fun e _ => ?_)
      rw [Function.update_of_ne hx]

theorem step {r : InboxRun E} (h : r.Sound) (c : InboxCall E) : (r.step c).Sound := by
  cases c with
  | append now actor entry => exact h.append now actor entry
  | ack actor ids => exact h.ack actor ids

/-- **The invariant of a run.** -/
theorem after (calls : List (InboxCall E)) : (InboxRun.after calls).Sound := by
  induction calls using List.reverseRecOn with
  | nil => exact init
  | append_singleton calls c ih => rw [after_concat]; exact ih.step c

end Sound

/-! ## The refinement

Each call on the driver is the call on the queue, until an append makes an id
that is in the set already. -/

/-- **One call refines the queue's** if and only if it does not make an id that has
been named. -/
theorem pending_step_iff {r : InboxRun E} (h : r.Sound) (hr : r.driver.pending = r.streams)
    (c : InboxCall E) :
    (r.step c).driver.pending = (r.step c).streams ↔ r.Unnamed c := by
  cases c with
  | ack actor ids =>
    refine iff_of_true ?_ trivial
    exact (MemoryInbox.pending_ackInbox _ _ _ (h.bucket_nodup actor)).trans
      (congrArg (fun q : InboxStreams E => q.delete actor ids) hr)
  | append now actor entry =>
    change (r.driver.appendInbox now actor entry).1.pending
      = r.streams.append actor ⟨r.driver.nextId now, entry⟩ ↔ _ ∉ _
    rw [h.pending_append, hr]
    split
    · next hid =>
      refine iff_of_false (fun heq => ?_) (not_not_intro hid)
      have hlength := congrArg List.length (congrFun heq actor)
      rw [InboxStreams.append_self, List.length_append] at hlength
      exact absurd hlength (by simp)
    · next hid => exact iff_of_true rfl hid

/-- A call for another actor leaves an inbox as it is. -/
theorem bucket_call_ne (st : MemoryInbox E) (c : InboxCall E) {x : String}
    (hx : x ≠ c.actor) : (st.call c).bucket x = st.bucket x ∧ (st.call c).acked x = st.acked x := by
  cases c with
  | append now actor entry =>
    exact ⟨MemoryInbox.bucket_appendInbox_ne st hx, rfl⟩
  | ack actor ids =>
    exact ⟨MemoryInbox.bucket_ackInbox_ne st ids hx, MemoryInbox.acked_ackInbox_ne st ids hx⟩

/-- **A run refines the queue's** as long as no append makes an id that has been
named. -/
theorem pending_after_iff (calls : List (InboxCall E)) :
    (∀ done, done <+: calls → (after done).driver.pending = (after done).streams)
      ↔ ∀ done c, done ++ [c] <+: calls → (after done).Unnamed c := by
  induction calls using List.reverseRecOn with
  | nil =>
    refine iff_of_true (fun done hdone => ?_) (fun done c hdone => ?_)
    · rw [List.prefix_nil.mp hdone]
      rfl
    · exact absurd (List.prefix_nil.mp hdone) (by simp)
  | append_singleton calls c ih =>
    constructor
    · intro h done c' hdone
      have hbefore := h done ((List.prefix_append _ _).trans hdone)
      rw [← pending_step_iff (Sound.after done) hbefore c', ← after_concat]
      exact h _ hdone
    · intro h done hdone
      have hcalls := ih.mpr (fun done c' hdone' =>
        h done c' (hdone'.trans (List.prefix_append _ _)))
      obtain rfl | hdone := List.prefix_concat_iff.mp hdone
      · rw [after_concat, pending_step_iff (Sound.after calls) (hcalls calls (List.prefix_refl _))]
        exact h calls c (List.prefix_refl _)
      · exact hcalls done hdone

/-- **The inbox refines a queue with deletion**, in every run of appends and acks in
which no append makes an id that an ack has named ahead of it, and in no other: after
each call of the run every read is one of the queue. In any run an entry can be read
as long as no ack has named it, before or after its append, no id is returned twice,
and a call for one actor leaves what the others read as it is. -/
theorem inbox_refines (calls : List (InboxCall E)) :
    ((∀ done, done <+: calls → (after done).Agrees)
        ↔ ∀ done c, done ++ [c] <+: calls → (after done).Unnamed c)
      ∧ (∀ actor limit, 1 ≤ limit → (after calls).driver.readPendingInbox actor limit
          = (((after calls).appended actor).filter
              (fun e => e.id ∉ (after calls).named actor)).take limit)
      ∧ (after calls).issued.Nodup
      ∧ ∀ (st : MemoryInbox E) (c : InboxCall E) (x : String), x ≠ c.actor →
          (∀ limit, (st.call c).readPendingInbox x limit = st.readPendingInbox x limit)
            ∧ (st.call c).pendingInboxCount x = st.pendingInboxCount x := by
  have hsound := Sound.after calls
  refine ⟨?_, fun actor limit hlimit => ?_, hsound.nodup, fun st c x hx => ?_⟩
  · simp only [agrees_iff]
    exact pending_after_iff calls
  · rw [MemoryInbox.readPendingInbox_eq _ _ hlimit, hsound.pending]
  · obtain ⟨hbucket, hacked⟩ := bucket_call_ne st c hx
    constructor
    · intro limit
      rw [MemoryInbox.readPendingInbox_bucket, MemoryInbox.readPendingInbox_bucket, hbucket,
        hacked]
    · rw [MemoryInbox.pendingInboxCount_eq, MemoryInbox.pendingInboxCount_eq,
        MemoryInbox.pending, MemoryInbox.pending, hbucket, hacked]

/-- An ack of an id nobody has, and an append that makes it: the entry is in the queue
and is never read. -/
theorem not_inbox_refines :
    let r := after [.ack "a" ["5-0"], .append "5" "a" ()]
    r.streams "a" = [⟨"5-0", ()⟩] ∧ r.driver.readPendingInbox "a" 1 = []
      ∧ r.driver.pendingInboxCount "a" = 0 ∧ ¬r.Agrees := by
  have hcount : let r := after [.ack "a" ["5-0"], .append "5" "a" ()]
      r.streams "a" = [⟨"5-0", ()⟩] ∧ r.driver.readPendingInbox "a" 1 = []
        ∧ r.driver.pendingInboxCount "a" = 0 := by
    decide +kernel
  obtain ⟨hstream, hread, hcount⟩ := hcount
  refine ⟨hstream, hread, hcount, fun h => ?_⟩
  exact absurd (hcount.symm.trans (h "a").2) (by rw [hstream]; decide)

end InboxRun
