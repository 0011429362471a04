import Mathlib.Data.List.Basic

/-!
# The bounded mailbox

`Mailbox` of `mailbox.ts`, generic in the items `T` it carries and in the
waiters `W`, the consumers blocked in `dequeue`. The source stores a waiter
as the `resolve` function of its promise; here a waiter is a name, and
`enqueue` and `close` say whom they woke.

What the class maintains without saying so is a field of the structure: the
buffer never exceeds the capacity, nobody waits while an item is buffered,
and nobody waits on a closed mailbox. The constructor's check
`capacity < 1` is the field `pos`.

The capacity is a natural number. The constructor compares and does not ask
for an integer, so that it lets 1.5 through: two items are then buffered, as
with a capacity of 2. The runtime passes the number its options give, or 1024,
and a fraction is left out here.
-/

variable {W T : Type}

/-- **A bounded single-consumer mailbox.** -/
structure Mailbox (W T : Type) where
  /-- How many items it holds at most: a whole number, see above. -/
  capacity : ℕ
  /-- Items accepted and not yet handed out, oldest first. -/
  buffer : List T
  /-- Consumers whose `dequeue` is blocked, oldest first. -/
  waiters : List W
  closed : Bool
  pos : 0 < capacity
  bounded : buffer.length ≤ capacity
  wakeful : waiters ≠ [] → buffer = []
  shut : closed = true → waiters = []

/-- What `enqueue` comes to: it throws `MailboxClosedError`, answers `false`
because the buffer is at capacity, or answers `true`. -/
inductive EnqueueResult where
  | closed
  | full
  | accepted
deriving DecidableEq

/-- What `enqueue` does: its result, the mailbox afterwards, and the waiter
it handed the item to, if there was one. -/
structure Enqueued (W T : Type) where
  result : EnqueueResult
  mailbox : Mailbox W T
  woken : Option W

/-- What `dequeue` comes to: it resolves with an item, resolves with `null`,
or blocks. -/
inductive DequeueResult (T : Type) where
  | item (x : T)
  | null
  | blocked

/-- What `dequeue` does: its result, and the mailbox afterwards. -/
structure Dequeued (W T : Type) where
  result : DequeueResult T
  mailbox : Mailbox W T

namespace Mailbox

/-- `new Mailbox(capacity)`. -/
def new (capacity : ℕ) (h : 0 < capacity) : Mailbox W T :=
  ⟨capacity, [], [], false, h, Nat.zero_le _, fun _ => rfl, fun _ => rfl⟩

/-- `size()`. -/
def size (m : Mailbox W T) : ℕ := m.buffer.length

/-- `isFull()`. -/
def isFull (m : Mailbox W T) : Bool := m.capacity ≤ m.buffer.length

/-- `enqueue(item)`. -/
def enqueue (m : Mailbox W T) (x : T) : Enqueued W T :=
  if m.closed = true then ⟨.closed, m, none⟩
  else
    match hw : m.waiters with
    | w :: ws =>
      ⟨.accepted,
        { m with
          waiters := ws
          wakeful := fun _ => m.wakeful (by rw [hw]; exact List.cons_ne_nil _ _)
          shut := fun hc => absurd (m.shut hc) (by rw [hw]; exact List.cons_ne_nil _ _) },
        some w⟩
    | [] =>
      if hf : m.capacity ≤ m.buffer.length then ⟨.full, m, none⟩
      else
        ⟨.accepted,
          { m with
            buffer := m.buffer ++ [x]
            bounded := by rw [List.length_append]; exact Nat.lt_of_not_le hf
            wakeful := fun h => absurd hw h },
          none⟩

/-- `dequeue()` by the consumer `w`. -/
def dequeue (m : Mailbox W T) (w : W) : Dequeued W T :=
  match hb : m.buffer with
  | x :: xs =>
    ⟨.item x,
      { m with
        buffer := xs
        bounded := by
          have h := m.bounded
          rw [hb] at h
          exact Nat.le_of_succ_le h
        wakeful := fun h => absurd (m.wakeful h) (by rw [hb]; exact List.cons_ne_nil _ _) }⟩
  | [] =>
    if hc : m.closed = true then ⟨.null, m⟩
    else
      ⟨.blocked,
        { m with
          waiters := m.waiters ++ [w]
          wakeful := fun _ => hb
          shut := fun h => absurd h hc }⟩

/-- `close()`: the mailbox afterwards. The waiters it wakes with `null` are
those of the mailbox before. -/
def close (m : Mailbox W T) : Mailbox W T :=
  { m with
    closed := true
    waiters := []
    wakeful := fun h => absurd rfl h
    shut := fun _ => rfl }

/-- **What `enqueue` did**: nothing to a closed or a full mailbox; else the
item went to the oldest waiter, or to the end of the buffer of a mailbox
nobody waits on. -/
theorem enqueue_cases (m : Mailbox W T) (x : T) :
    (m.enqueue x = ⟨.closed, m, none⟩ ∧ m.closed = true)
    ∨ (m.enqueue x = ⟨.full, m, none⟩ ∧ m.closed = false ∧ m.waiters = []
        ∧ m.isFull = true)
    ∨ (∃ w m', m.enqueue x = ⟨.accepted, m', some w⟩ ∧ m.closed = false
        ∧ m.waiters = w :: m'.waiters ∧ m'.buffer = m.buffer
        ∧ m'.closed = false ∧ m'.capacity = m.capacity)
    ∨ (∃ m', m.enqueue x = ⟨.accepted, m', none⟩ ∧ m.closed = false
        ∧ m.waiters = [] ∧ m'.waiters = [] ∧ m.isFull = false
        ∧ m'.buffer = m.buffer ++ [x] ∧ m'.closed = false
        ∧ m'.capacity = m.capacity) := by
  by_cases hc : m.closed = true
  · exact Or.inl ⟨by rw [enqueue, if_pos hc], hc⟩
  · have hc' : m.closed = false := by simpa using hc
    refine Or.inr ?_
    unfold enqueue
    rw [if_neg hc]
    split
    · next w ws hw => exact Or.inr (Or.inl ⟨w, _, rfl, hc', hw, rfl, hc', rfl⟩)
    · next hw =>
      by_cases hf : m.capacity ≤ m.buffer.length
      · rw [dif_pos hf]
        exact Or.inl ⟨rfl, hc', hw, by simpa [isFull] using hf⟩
      · rw [dif_neg hf]
        exact Or.inr (Or.inr ⟨_, rfl, hc', hw, hw, by simpa [isFull] using hf, rfl, hc', rfl⟩)

/-- A mailbox that is neither full nor closed accepts. -/
theorem accepts {m : Mailbox W T}
    (hf : m.isFull = false) (hc : m.closed = false) (x : T) :
    (m.enqueue x).result = .accepted := by
  rcases m.enqueue_cases x with ⟨-, h⟩ | ⟨-, -, -, h⟩ | ⟨w, m', he, -⟩
    | ⟨m', he, -⟩
  · exact absurd h (by simp [hc])
  · exact absurd h (by simp [hf])
  · rw [he]
  · rw [he]

/-- **What `dequeue` did**: it took the oldest item, found the mailbox
closed and empty, or blocked on an open and empty one. -/
theorem dequeue_cases (m : Mailbox W T) (w : W) :
    (∃ x m', m.dequeue w = ⟨.item x, m'⟩ ∧ m.buffer = x :: m'.buffer
        ∧ m'.waiters = m.waiters ∧ m'.closed = m.closed
        ∧ m'.capacity = m.capacity)
    ∨ (m.dequeue w = ⟨.null, m⟩ ∧ m.buffer = [] ∧ m.closed = true)
    ∨ (∃ m', m.dequeue w = ⟨.blocked, m'⟩ ∧ m.buffer = [] ∧ m.closed = false
        ∧ m'.buffer = [] ∧ m'.waiters = m.waiters ++ [w]
        ∧ m'.closed = false ∧ m'.capacity = m.capacity) := by
  unfold dequeue
  split
  · next x xs hb => exact Or.inl ⟨x, _, rfl, hb, rfl, rfl, rfl⟩
  · next hb =>
    by_cases hc : m.closed = true
    · rw [dif_pos hc]
      exact Or.inr (Or.inl ⟨rfl, hb, hc⟩)
    · rw [dif_neg hc]
      have hc' : m.closed = false := by simpa using hc
      exact Or.inr (Or.inr ⟨_, rfl, hb, hc', hb, rfl, hc', rfl⟩)

@[simp] theorem close_buffer (m : Mailbox W T) : m.close.buffer = m.buffer := rfl
@[simp] theorem close_closed (m : Mailbox W T) : m.close.closed = true := rfl
@[simp] theorem close_waiters (m : Mailbox W T) : m.close.waiters = [] := rfl
@[simp] theorem close_capacity (m : Mailbox W T) :
    m.close.capacity = m.capacity := rfl

end Mailbox
