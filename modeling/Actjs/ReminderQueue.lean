import Actjs.ReminderDispatcher
import Mathlib.Data.List.Induction
import Mathlib.Data.List.Perm.Basic

/-!
# The reminder queue of the memory driver

The memory driver keeps the reminders in an array. A pop sorts it, by the time a
reminder is for and among reminders for one time by the number it was given when it
was enqueued, and shifts what is due off the front, as far as its limit goes.

What that is meant to be is said of the reminders in the order they were enqueued in:
a pop yields the first of those that are due, and the others stay where they are. The
array is a permutation of that list, which is all that is needed: what is sorted by
time and number is determined by which reminders there are.

## Times

The times, and the clock of a pop, are numbers of JavaScript, and one of these is no
time at all. `scheduleReminder` takes a `Date` without looking at it, and the
`getTime()` of an invalid one is `NaN`. `Instant` is a number that may be `NaN`, over any
linear order for the others: infinite times are numbers like any other, and nothing
makes the clock of one pop later than that of another.

`NaN` is neither before nor after anything. A reminder that is for it is therefore not
later than the clock, and is popped although it is not due (`not_reminder_queue`); and
the array that has it is sorted by a comparison that is none, which the language leaves
open what to make of. So sorting is a parameter, of which `SortsNumbers` says what the
language does say. Everything that follows it is about times that are numbers: first
over a linear order, where the comparison of the source is one, and then over instants
none of which is `NaN`.
-/

variable {T M : Type}

/-! ## Times -/

/-- **A time as the driver is given it**: a number, or `NaN`. -/
inductive Instant (T : Type) where
  | nan
  | at (t : T)
deriving DecidableEq

namespace Instant

/-- `a < b`, which is false of `NaN` on either side. -/
def Lt [LT T] : Instant T → Instant T → Prop
  | .at x, .at y => x < y
  | _, _ => False

/-- `a <= b`, likewise. -/
def Le [LE T] : Instant T → Instant T → Prop
  | .at x, .at y => x ≤ y
  | _, _ => False

instance [LT T] : LT (Instant T) := ⟨Lt⟩

instance [LE T] : LE (Instant T) := ⟨Le⟩

instance [LT T] [DecidableLT T] : DecidableLT (Instant T)
  | .at x, .at y => inferInstanceAs (Decidable (x < y))
  | .at _, .nan => .isFalse id
  | .nan, _ => .isFalse id

instance [LE T] [DecidableLE T] : DecidableLE (Instant T)
  | .at x, .at y => inferInstanceAs (Decidable (x ≤ y))
  | .at _, .nan => .isFalse id
  | .nan, _ => .isFalse id

@[simp] theorem at_lt_at [LT T] {x y : T} : Instant.at x < .at y ↔ x < y := Iff.rfl

@[simp] theorem at_le_at [LE T] {x y : T} : Instant.at x ≤ .at y ↔ x ≤ y := Iff.rfl

end Instant

/-! ## Reminders

A reminder is before another if the comparison the array is sorted by says so: by the
difference of the times, and where that is zero – or `NaN`, which is as good as zero to
`||` – by the difference of the numbers. -/

/-- A reminder as the driver keeps it: `when`, `msg` and `seq`. -/
structure Reminder (T M : Type) where
  due : T
  msg : M
  seq : ℕ
deriving DecidableEq

namespace Reminder

/-- `a.when - b.when || a.seq - b.seq` is not positive. -/
def Before [LT T] (a b : Reminder T M) : Prop :=
  a.due < b.due ∨ ¬b.due < a.due ∧ a.seq ≤ b.seq

instance [LT T] [DecidableLT T] : DecidableRel (Before (T := T) (M := M)) :=
  fun a b => inferInstanceAs (Decidable (a.due < b.due ∨ ¬b.due < a.due ∧ a.seq ≤ b.seq))

end Reminder

/-! ## The driver

What the array is sorted by is a parameter, `sort`: the method of `Array` that the
driver calls with the comparison above. -/

/-- What the memory driver keeps the reminders in. -/
structure ReminderStore (T M : Type) where
  reminders : List (Reminder T M)
  reminderSeq : ℕ

namespace ReminderStore

/-- `enqueueReminder`. -/
def enqueueReminder (st : ReminderStore T M) (due : T) (msg : M) : ReminderStore T M :=
  ⟨st.reminders ++ [⟨due, msg, st.reminderSeq⟩], st.reminderSeq + 1⟩

/-- The loop of `popDueReminders`: the messages it has taken off the front and what is
left of the array. -/
def popLoop [LT T] [DecidableLT T] (now : T) (limit : ℕ) :
    List (Reminder T M) → List M → List M × List (Reminder T M)
  | [], due => (due, [])
  | next :: rest, due =>
    if due.length < limit then
      if now < next.due then (due, next :: rest)
      else popLoop now limit rest (due ++ [next.msg])
    else (due, next :: rest)

/-- `popDueReminders`. -/
def popDueReminders [LT T] [DecidableLT T]
    (sort : List (Reminder T M) → List (Reminder T M)) (st : ReminderStore T M) (now : T)
    (limit : ℕ) : List M × ReminderStore T M :=
  let popped := popLoop now limit (sort st.reminders) []
  (popped.1, { st with reminders := popped.2 })

end ReminderStore

/-- Sorting by `Before`, which is what `sort` comes to where `Before` is an order. -/
abbrev Reminder.sorted [LT T] [DecidableLT T] (rows : List (Reminder T M)) :
    List (Reminder T M) :=
  rows.insertionSort Before

/-- **What the language says of `sort`**: it rearranges the array, and where no time is
`NaN`, so that the comparison is a consistent one, it sorts by it. -/
structure SortsNumbers [LT T] [DecidableLT T]
    (sort : List (Reminder (Instant T) M) → List (Reminder (Instant T) M)) : Prop where
  perm : ∀ rows, (sort rows).Perm rows
  sorts : ∀ rows, (∀ r ∈ rows, r.due ≠ .nan) → sort rows = Reminder.sorted rows

/-! ## The queue

What a pop is to yield, and what is to stay, is said without the array: of the
reminders that are pending, in the order they were enqueued in. -/

namespace Reminder

/-- **What a pop yields** of the reminders pending in the order they were enqueued in:
the first of those that are due, in the order of their times and, for one time, in the
order they were enqueued in. -/
def yields [LT T] [DecidableLT T] [LE T] [DecidableLE T] (pending : List (Reminder T M))
    (now : T) (limit : ℕ) : List (Reminder T M) :=
  (sorted (pending.filter (fun r => r.due ≤ now))).take limit

/-- What stays pending, where it was. -/
def stays [LT T] [DecidableLT T] [LE T] [DecidableLE T] (pending : List (Reminder T M))
    (now : T) (limit : ℕ) : List (Reminder T M) :=
  pending.filter (fun r => r.seq ∉ (yields pending now limit).map seq)

theorem length_yields [LT T] [DecidableLT T] [LE T] [DecidableLE T]
    (pending : List (Reminder T M)) (now : T) (limit : ℕ) :
    (yields pending now limit).length
      = min limit (pending.countP (fun r => r.due ≤ now)) := by
  rw [yields, List.length_take, List.length_insertionSort, List.countP_eq_length_filter]

/-! ### Times in a linear order

Over a linear order `Before` is one too, up to reminders with one number, and the array
that is sorted begins with what is due. -/

section Ordered

variable [LinearOrder T]

instance : Std.Total (Before (T := T) (M := M)) where
  total a b := by
    unfold Before
    rcases lt_trichotomy a.due b.due with h | h | h
    · exact .inl (.inl h)
    · rw [h]
      exact (Nat.le_total a.seq b.seq).imp (fun hs => .inr ⟨lt_irrefl _, hs⟩)
        (fun hs => .inr ⟨lt_irrefl _, hs⟩)
    · exact .inr (.inl h)

/-- What is due before something that is due is due. -/
theorem Before.due_le {a b : Reminder T M} (h : a.Before b) : a.due ≤ b.due :=
  h.elim le_of_lt (fun h => not_lt.mp h.1)

instance : IsTrans (Reminder T M) Before where
  trans a b c := by
    rintro (hab | ⟨hab, hs⟩) (hbc | ⟨hbc, hs'⟩)
    · exact .inl (hab.trans hbc)
    · exact .inl (hab.trans_le (not_lt.mp hbc))
    · exact .inl ((not_lt.mp hab).trans_lt hbc)
    · exact .inr ⟨not_lt.mpr ((not_lt.mp hab).trans (not_lt.mp hbc)), hs.trans hs'⟩

/-- Two reminders each before the other have one number. -/
theorem Before.seq_eq {a b : Reminder T M} (hab : a.Before b) (hba : b.Before a) :
    a.seq = b.seq := by
  obtain h | ⟨_, hs⟩ := hab
  · exact absurd hba.due_le (not_le_of_gt h)
  · obtain h' | ⟨_, hs'⟩ := hba
    · exact absurd h' (by assumption)
    · exact Nat.le_antisymm hs hs'

/-- **Sorting forgets the order**: reminders with numbers of their own are sorted to one
list. -/
theorem insertionSort_eq_of_perm {as bs : List (Reminder T M)} (h : as.Perm bs)
    (hnodup : (as.map seq).Nodup) :
    sorted as = sorted bs := by
  refine List.Perm.eq_of_pairwise (fun a b ha hb hab hba => ?_)
    (List.pairwise_insertionSort Before as) (List.pairwise_insertionSort Before bs)
    ((List.perm_insertionSort _ as).trans (h.trans (List.perm_insertionSort _ bs).symm))
  have hb' : b ∈ as := h.mem_iff.mpr ((List.mem_insertionSort _).mp hb)
  exact List.inj_on_of_nodup_map hnodup ((List.mem_insertionSort _).mp ha) hb'
    (hab.seq_eq hba)

/-- Of what is sorted, what is due comes first. -/
theorem takeWhile_eq_filter (now : T) {rows : List (Reminder T M)}
    (h : rows.Pairwise Before) :
    rows.takeWhile (fun r => r.due ≤ now) = rows.filter (fun r => r.due ≤ now) := by
  induction rows with
  | nil => rfl
  | cons r rest ih =>
    obtain ⟨hr, hrest⟩ := List.pairwise_cons.mp h
    by_cases hnow : r.due ≤ now
    · rw [List.takeWhile_cons_of_pos (by simpa using hnow),
        List.filter_cons_of_pos (by simpa using hnow), ih hrest]
    · rw [List.takeWhile_cons_of_neg (by simpa using hnow),
        List.filter_cons_of_neg (by simpa using hnow)]
      refine (List.filter_eq_nil_iff.mpr (fun r' hr' => ?_)).symm
      simpa using (not_le.mp hnow).trans_le (hr r' hr').due_le

/-- What is due of the sorted array is the sorted array of what is due. -/
theorem filter_insertionSort (now : T) {rows : List (Reminder T M)}
    (hnodup : (rows.map seq).Nodup) :
    (sorted rows).filter (fun r => r.due ≤ now) = sorted (rows.filter (fun r => r.due ≤ now)) := by
  have hperm := (List.perm_insertionSort Before rows).filter
    (fun r => decide (r.due ≤ now))
  have hsub := (List.filter_sublist (p := fun r => decide (r.due ≤ now)) (l := rows)).map
    seq
  rw [← insertionSort_eq_of_perm hperm
      ((hperm.map seq).nodup_iff.mpr (hsub.nodup hnodup))]
  exact (((List.pairwise_insertionSort Before rows).filter _).insertionSort_eq).symm

/-- What a pop yields is the front of the sorted queue. -/
theorem yields_eq {pending : List (Reminder T M)} (hnodup : (pending.map seq).Nodup) (now : T)
    (limit : ℕ) :
    yields pending now limit
      = ((sorted pending).takeWhile (fun r => r.due ≤ now)).take limit := by
  rw [takeWhile_eq_filter now (List.pairwise_insertionSort _ _), filter_insertionSort now hnodup]
  rfl

theorem yields_front {pending : List (Reminder T M)} (hnodup : (pending.map seq).Nodup)
    (now : T) (limit : ℕ) :
    yields pending now limit <+: sorted pending :=
  yields_eq hnodup now limit ▸ (List.take_prefix _ _).trans (List.takeWhile_prefix _)

/-- What stays is the rest of it. -/
theorem stays_perm {pending : List (Reminder T M)} (hnodup : (pending.map seq).Nodup) (now : T)
    (limit : ℕ) :
    ((sorted pending).drop (yields pending now limit).length).Perm
      (stays pending now limit) := by
  obtain ⟨rest, hrest⟩ := yields_front hnodup now limit
  have hsorted : ((sorted pending).map seq).Nodup :=
    ((List.perm_insertionSort _ pending).map _).nodup_iff.mpr hnodup
  rw [← hrest, List.map_append] at hsorted
  have hapart := List.disjoint_of_nodup_append hsorted
  have hfilter : (sorted pending).filter
      (fun r => r.seq ∉ (yields pending now limit).map seq) = rest := by
    rw [← hrest, List.filter_append, List.filter_eq_nil_iff.mpr, List.nil_append,
      List.filter_eq_self]
    · intro r hr
      simpa using fun x hx heq => hapart (List.mem_map_of_mem hx)
        (heq ▸ List.mem_map_of_mem hr)
    · intro r hr
      simpa using ⟨r, hr, rfl⟩
  rw [← hrest, List.drop_left, ← hfilter]
  exact (List.perm_insertionSort _ pending).filter _

/-- **A pop divides the queue**: what it yields and what stays are what was pending. -/
theorem yields_append_stays {pending : List (Reminder T M)} (hnodup : (pending.map seq).Nodup)
    (now : T) (limit : ℕ) :
    (yields pending now limit ++ stays pending now limit).Perm pending := by
  have hfront := List.prefix_iff_eq_append.mp (yields_front hnodup now limit)
  refine ((stays_perm hnodup now limit).symm.append_left _).trans ?_
  rw [hfront]
  exact List.perm_insertionSort _ pending

end Ordered

end Reminder

section Ordered

variable [LinearOrder T]

namespace ReminderStore

theorem popLoop_eq (now : T) (limit : ℕ) (rows : List (Reminder T M)) (due : List M)
    (hdue : due.length ≤ limit) :
    let taken := (rows.takeWhile (fun r => r.due ≤ now)).take (limit - due.length)
    popLoop now limit rows due
      = (due ++ taken.map Reminder.msg, rows.drop taken.length) := by
  induction rows generalizing due with
  | nil => simp [popLoop]
  | cons next rest ih =>
    rw [popLoop]
    split
    · next hlt =>
      split
      · next hlater =>
        rw [List.takeWhile_cons_of_neg (by simpa using hlater)]
        simp
      · next hnow =>
        obtain ⟨k, hk⟩ : ∃ k, limit - due.length = k + 1 := ⟨limit - due.length - 1, by omega⟩
        have hk' : limit - (due ++ [next.msg]).length = k := by
          rw [List.length_append, List.length_singleton]
          omega
        have hmore : (due ++ [next.msg]).length ≤ limit := by
          rw [List.length_append, List.length_singleton]
          omega
        rw [List.takeWhile_cons_of_pos (by simpa using hnow), hk, List.take_succ_cons,
          ih _ hmore, hk']
        simp
    · next hfull =>
      rw [Nat.sub_eq_zero_of_le (Nat.not_lt.mp hfull)]
      simp

/-- **A pop of the array is a pop of the queue** it is a permutation of. -/
theorem popDueReminders_eq (st : ReminderStore T M) {pending : List (Reminder T M)}
    (hperm : st.reminders.Perm pending) (hnodup : (pending.map Reminder.seq).Nodup) (now : T)
    (limit : ℕ) :
    (st.popDueReminders Reminder.sorted now limit).1
        = (Reminder.yields pending now limit).map Reminder.msg
      ∧ (st.popDueReminders Reminder.sorted now limit).2.reminders.Perm
        (Reminder.stays pending now limit)
      ∧ (st.popDueReminders Reminder.sorted now limit).2.reminderSeq = st.reminderSeq := by
  have hsorted : Reminder.sorted st.reminders = Reminder.sorted pending :=
    Reminder.insertionSort_eq_of_perm hperm ((hperm.map _).nodup_iff.mpr hnodup)
  have hloop := popLoop_eq now limit (Reminder.sorted pending) [] (Nat.zero_le _)
  simp only [List.length_nil, Nat.sub_zero, ← Reminder.yields_eq hnodup, List.nil_append] at hloop
  rw [popDueReminders, hsorted, hloop]
  exact ⟨rfl, Reminder.stays_perm hnodup now limit, rfl⟩

end ReminderStore


/-! ## The dispatcher's store

The dispatcher's model pops reminders at integer times, from a store of its own. -/

/-- A row of the store the dispatcher pops. -/
def ReminderRow.reminder {M : Type} (r : ReminderRow M) : Reminder ℤ M :=
  ⟨r.due, r.msg, r.seq⟩

/-- `Before` of the rows is that of their reminders. -/
theorem ReminderRow.before_reminder {M : Type} (a b : ReminderRow M) :
    a.Before b ↔ a.reminder.Before b.reminder := by
  unfold ReminderRow.Before Reminder.Before reminder
  simp only
  omega

/-- **The pop of the dispatcher's model** is that of the driver at integer times. -/
theorem popDue_eq_popDueReminders {M : Type} (rows : List (ReminderRow M)) (now : ℤ)
    (limit seq : ℕ) :
    (ReminderStore.mk (rows.map ReminderRow.reminder) seq).popDueReminders Reminder.sorted
        now limit
      = ((popDue rows now limit).1.map ReminderRow.msg,
          ⟨(popDue rows now limit).2.map ReminderRow.reminder, seq⟩) := by
  have hsort : Reminder.sorted (rows.map ReminderRow.reminder)
      = (rows.insertionSort ReminderRow.Before).map ReminderRow.reminder :=
    (List.map_insertionSort ReminderRow.Before Reminder.Before ReminderRow.reminder rows
      (fun a _ b _ => a.before_reminder b)).symm
  have hloop := ReminderStore.popLoop_eq now limit
    (Reminder.sorted (rows.map ReminderRow.reminder)) [] (Nat.zero_le _)
  rw [ReminderStore.popDueReminders, hloop, hsort, List.takeWhile_map, ← List.map_take,
    List.length_map, ← List.map_drop, List.map_map]
  rfl

end Ordered

/-! ## Times that are numbers

What holds over the linear order of the numbers holds of instants none of which is
`NaN`: these are the reminders `Reminder.timed` makes, and sorting, yielding and popping
go through it. -/

namespace Reminder

/-- A reminder for a number. -/
def timed (r : Reminder T M) : Reminder (Instant T) M := ⟨.at r.due, r.msg, r.seq⟩

/-- Reminders whose times are numbers. -/
theorem exists_timed {rows : List (Reminder (Instant T) M)} (h : ∀ r ∈ rows, r.due ≠ .nan) :
    ∃ rows' : List (Reminder T M), rows = rows'.map timed := by
  induction rows with
  | nil => exact ⟨[], rfl⟩
  | cons r rest ih =>
    obtain ⟨rest', hrest⟩ := ih (fun r' hr' => h r' (List.mem_cons_of_mem _ hr'))
    obtain ⟨due, msg, seq⟩ := r
    cases due with
    | nan => exact absurd rfl (h _ List.mem_cons_self)
    | «at» t => exact ⟨⟨t, msg, seq⟩ :: rest', by rw [hrest]; rfl⟩

theorem timed_injective : Function.Injective (timed : Reminder T M → _) := by
  rintro ⟨due, msg, seq⟩ ⟨due', msg', seq'⟩ h
  simpa only [timed, mk.injEq, Instant.at.injEq] using h

theorem due_timed_ne_nan (rows : List (Reminder T M)) :
    ∀ r ∈ rows.map timed, r.due ≠ .nan := by
  intro r hr
  obtain ⟨r', -, rfl⟩ := List.mem_map.mp hr
  exact nofun

variable [LinearOrder T]

theorem sorted_timed (rows : List (Reminder T M)) :
    sorted (rows.map timed) = (sorted rows).map timed :=
  (List.map_insertionSort Before Before timed rows (fun _ _ _ _ => Iff.rfl)).symm

theorem yields_timed (pending : List (Reminder T M)) (now : T) (limit : ℕ) :
    yields (pending.map timed) (.at now) limit = (yields pending now limit).map timed := by
  rw [yields, List.filter_map, sorted_timed, ← List.map_take]
  rfl

theorem stays_timed (pending : List (Reminder T M)) (now : T) (limit : ℕ) :
    stays (pending.map timed) (.at now) limit = (stays pending now limit).map timed := by
  rw [stays, yields_timed, List.filter_map, List.map_map]
  rfl

/-- **A pop divides the queue**, at instants. -/
theorem yields_append_stays_of_ne_nan {pending : List (Reminder (Instant T) M)}
    (hpending : ∀ r ∈ pending, r.due ≠ .nan) (hnodup : (pending.map seq).Nodup)
    {now : Instant T} (hnow : now ≠ .nan) (limit : ℕ) :
    (yields pending now limit ++ stays pending now limit).Perm pending := by
  obtain ⟨rows, rfl⟩ := exists_timed hpending
  cases now with
  | nan => exact absurd rfl hnow
  | «at» t =>
    rw [List.map_map] at hnodup
    rw [yields_timed, stays_timed, ← List.map_append]
    exact (yields_append_stays hnodup t limit).map timed

end Reminder

namespace ReminderStore

variable [LinearOrder T]

theorem popLoop_timed (now : T) (limit : ℕ) (rows : List (Reminder T M)) (due : List M) :
    popLoop (Instant.at now) limit (rows.map Reminder.timed) due
      = ((popLoop now limit rows due).1,
          (popLoop now limit rows due).2.map Reminder.timed) := by
  induction rows generalizing due with
  | nil => rfl
  | cons next rest ih =>
    rw [List.map_cons, popLoop, popLoop]
    split
    · have hlater : (Instant.at now < next.timed.due) ↔ now < next.due := Iff.rfl
      by_cases h : now < next.due
      · rw [if_pos (hlater.mpr h), if_pos h]
        rfl
      · rw [if_neg (mt hlater.mp h), if_neg h]
        exact ih _
    · rfl

/-- **A pop of the array is a pop of the queue**, at instants: whatever `sort` makes of
times that are none. -/
theorem popDueReminders_eq_of_ne_nan
    {sort : List (Reminder (Instant T) M) → List (Reminder (Instant T) M)}
    (hsort : SortsNumbers sort) (st : ReminderStore (Instant T) M)
    {pending : List (Reminder (Instant T) M)} (hperm : st.reminders.Perm pending)
    (hpending : ∀ r ∈ pending, r.due ≠ .nan) (hnodup : (pending.map Reminder.seq).Nodup)
    {now : Instant T} (hnow : now ≠ .nan) (limit : ℕ) :
    (st.popDueReminders sort now limit).1
        = (Reminder.yields pending now limit).map Reminder.msg
      ∧ (st.popDueReminders sort now limit).2.reminders.Perm
          (Reminder.stays pending now limit)
      ∧ (st.popDueReminders sort now limit).2.reminderSeq = st.reminderSeq := by
  obtain ⟨queue, rfl⟩ := Reminder.exists_timed hpending
  obtain ⟨rows, hrows⟩ := Reminder.exists_timed
    (fun r hr => hpending r (hperm.mem_iff.mp hr) : ∀ r ∈ st.reminders, r.due ≠ .nan)
  cases now with
  | nan => exact absurd rfl hnow
  | «at» t =>
    rw [hrows] at hperm
    replace hperm := (List.map_perm_map_iff Reminder.timed_injective).mp hperm
    rw [List.map_map] at hnodup
    obtain ⟨hpop, hrest, -⟩ := popDueReminders_eq ⟨rows, st.reminderSeq⟩ hperm hnodup t limit
    rw [popDueReminders, hrows, hsort.sorts _ (Reminder.due_timed_ne_nan rows),
      Reminder.sorted_timed, popLoop_timed, Reminder.yields_timed, Reminder.stays_timed]
    refine ⟨hpop.trans ?_, hrest.map _, rfl⟩
    rw [List.map_map]
    rfl

end ReminderStore

/-! ## Runs -/

/-- A call of the driver. -/
inductive ReminderCall (T M : Type) where
  | enqueue (due : T) (msg : M)
  /-- `popDueReminders`, when the clock shows `now`. -/
  | pop (now : T) (limit : ℕ)

/-- **A call whose time is a number**: the Date given to it, or that the clock of the pop
is, is a valid one. -/
def ReminderCall.IsTimed : ReminderCall (Instant T) M → Prop
  | .enqueue due _ => due ≠ .nan
  | .pop now _ => now ≠ .nan

/-- The driver after some calls, with the queue the same calls make. -/
structure ReminderRun (T M : Type) where
  store : ReminderStore T M
  /-- The messages the pops have yielded, one pop after the other. -/
  popped : List M
  enqueued : List (Reminder T M)
  /-- What is pending, in the order it was enqueued in. -/
  pending : List (Reminder T M)
  /-- The reminders the pops were to yield, one pop after the other. -/
  yielded : List (Reminder T M)

namespace ReminderRun

/-- Before the first call. -/
def init : ReminderRun T M := ⟨⟨[], 0⟩, [], [], [], []⟩

section Calls

variable [LT T] [DecidableLT T] [LE T] [DecidableLE T]

/-- One call. -/
def step (sort : List (Reminder T M) → List (Reminder T M)) (r : ReminderRun T M) :
    ReminderCall T M → ReminderRun T M
  | .enqueue due msg =>
    let made : Reminder T M := ⟨due, msg, r.enqueued.length⟩
    { r with
      store := r.store.enqueueReminder due msg
      enqueued := r.enqueued ++ [made]
      pending := r.pending ++ [made] }
  | .pop now limit =>
    { r with
      store := (r.store.popDueReminders sort now limit).2
      popped := r.popped ++ (r.store.popDueReminders sort now limit).1
      pending := Reminder.stays r.pending now limit
      yielded := r.yielded ++ Reminder.yields r.pending now limit }

/-- The state some calls lead to. -/
def after (sort : List (Reminder T M) → List (Reminder T M))
    (calls : List (ReminderCall T M)) : ReminderRun T M :=
  calls.foldl (step sort) init

end Calls

/-- **What holds after any calls** whose times are numbers: the array holds what is
pending and no more, in whatever order, and the numbers of the reminders are those of
their enqueueing, so that the array is sorted as the queue is. -/
structure Sound (r : ReminderRun (Instant T) M) : Prop where
  reminders : r.store.reminders.Perm r.pending
  popped : r.popped = r.yielded.map Reminder.msg
  timed : ∀ e ∈ r.enqueued, e.due ≠ .nan
  /-- Every reminder has the number of those enqueued before it. -/
  numbered : r.enqueued.map Reminder.seq = List.range r.enqueued.length
  reminderSeq : r.store.reminderSeq = r.enqueued.length
  /-- What is pending is in the order it was enqueued in. -/
  inOrder : r.pending.Sublist r.enqueued
  /-- **Every reminder is accounted for**: it has been yielded or is pending. -/
  accounted : (r.yielded ++ r.pending).Perm r.enqueued

namespace Sound

theorem init : Sound (ReminderRun.init : ReminderRun (Instant T) M) where
  reminders := List.Perm.refl _
  popped := rfl
  timed := by simp [ReminderRun.init]
  numbered := rfl
  reminderSeq := rfl
  inOrder := List.Sublist.refl _
  accounted := List.Perm.refl _

variable {r : ReminderRun (Instant T) M}

theorem nodup_enqueued (h : r.Sound) : (r.enqueued.map Reminder.seq).Nodup :=
  h.numbered ▸ List.nodup_range

theorem nodup_pending (h : r.Sound) : (r.pending.map Reminder.seq).Nodup :=
  (h.inOrder.map _).nodup h.nodup_enqueued

theorem timed_pending (h : r.Sound) : ∀ e ∈ r.pending, e.due ≠ .nan :=
  fun e he => h.timed e (h.inOrder.subset he)

theorem nodup_yielded (h : r.Sound) : (r.yielded.map Reminder.seq).Nodup := by
  have hall := (h.accounted.map Reminder.seq).nodup_iff.mpr h.nodup_enqueued
  rw [List.map_append] at hall
  exact (List.nodup_append.mp hall).1

variable [LinearOrder T]
  {sort : List (Reminder (Instant T) M) → List (Reminder (Instant T) M)}

/-- An enqueue keeps it. -/
theorem enqueue (h : r.Sound) {due : Instant T} (hdue : due ≠ .nan) (msg : M) :
    (r.step sort (.enqueue due msg)).Sound where
  reminders := by
    simp only [ReminderRun.step, ReminderStore.enqueueReminder, h.reminderSeq]
    exact h.reminders.append_right _
  popped := h.popped
  timed := by
    simp only [ReminderRun.step, List.mem_append, List.mem_singleton]
    rintro e (he | rfl)
    · exact h.timed e he
    · exact hdue
  numbered := by
    simp only [ReminderRun.step, List.map_append, h.numbered, List.length_append,
      List.length_singleton, List.range_succ, List.map_singleton]
  reminderSeq := by
    simp only [ReminderRun.step, ReminderStore.enqueueReminder, h.reminderSeq,
      List.length_append, List.length_singleton]
  inOrder := h.inOrder.append (List.Sublist.refl _)
  accounted := by
    simp only [ReminderRun.step, ← List.append_assoc]
    exact h.accounted.append_right _

/-- A pop keeps it. -/
theorem pop (h : r.Sound) (hsort : SortsNumbers sort) {now : Instant T} (hnow : now ≠ .nan)
    (limit : ℕ) : (r.step sort (.pop now limit)).Sound where
  reminders := (r.store.popDueReminders_eq_of_ne_nan hsort h.reminders h.timed_pending
    h.nodup_pending hnow limit).2.1
  popped := by
    simp only [ReminderRun.step, List.map_append, h.popped,
      (r.store.popDueReminders_eq_of_ne_nan hsort h.reminders h.timed_pending
        h.nodup_pending hnow limit).1]
  timed := h.timed
  numbered := h.numbered
  reminderSeq :=
    (r.store.popDueReminders_eq_of_ne_nan hsort h.reminders h.timed_pending
      h.nodup_pending hnow limit).2.2.trans h.reminderSeq
  inOrder := List.filter_sublist.trans h.inOrder
  accounted := by
    simp only [ReminderRun.step, List.append_assoc]
    exact ((Reminder.yields_append_stays_of_ne_nan h.timed_pending h.nodup_pending hnow
      limit).append_left _).trans h.accounted

theorem step (h : r.Sound) (hsort : SortsNumbers sort) {c : ReminderCall (Instant T) M}
    (hc : c.IsTimed) : (r.step sort c).Sound := by
  cases c with
  | enqueue due msg => exact h.enqueue hc msg
  | pop now limit => exact h.pop hsort hc limit

/-- **The invariant of a run** whose times are numbers. -/
theorem after (hsort : SortsNumbers sort) {calls : List (ReminderCall (Instant T) M)}
    (hcalls : ∀ c ∈ calls, c.IsTimed) : (ReminderRun.after sort calls).Sound := by
  induction calls using List.reverseRecOn with
  | nil => exact init
  | append_singleton calls c ih =>
    rw [ReminderRun.after, List.foldl_concat]
    exact (ih (fun c' hc' => hcalls c' (List.mem_append_left _ hc'))).step hsort
      (hcalls c (List.mem_append_right _ List.mem_cons_self))

end Sound

section Claims

variable [LinearOrder T]
  {sort : List (Reminder (Instant T) M) → List (Reminder (Instant T) M)}

/-- **The reminder queue**: after any enqueues and pops whose times are numbers, whatever
the clock of each pop, a pop yields the first of the pending reminders that are due, as
many as the limit allows, in the order of their times and of their enqueueing; over a
run every reminder enqueued has been yielded once or is pending, as it was enqueued. -/
theorem reminder_queue (hsort : SortsNumbers sort)
    (calls : List (ReminderCall (Instant T) M)) (hcalls : ∀ c ∈ calls, c.IsTimed)
    (now : Instant T) (hnow : now ≠ .nan) (limit : ℕ) :
    let r := after sort calls
    (r.store.popDueReminders sort now limit).1
        = (Reminder.yields r.pending now limit).map Reminder.msg
      ∧ (Reminder.yields r.pending now limit).length
        = min limit (r.pending.countP (fun e => e.due ≤ now))
      ∧ (r.store.popDueReminders sort now limit).2.reminders.Perm
          (Reminder.stays r.pending now limit)
      ∧ r.store.reminders.Perm r.pending
      ∧ r.popped = r.yielded.map Reminder.msg ∧ (r.yielded.map Reminder.seq).Nodup
      ∧ (r.yielded ++ r.pending).Perm r.enqueued
      ∧ r.enqueued.map Reminder.seq = List.range r.enqueued.length := by
  have h := Sound.after hsort hcalls
  obtain ⟨hpop, hrest, -⟩ :=
    (after sort calls).store.popDueReminders_eq_of_ne_nan hsort h.reminders h.timed_pending
      h.nodup_pending hnow limit
  exact ⟨hpop, Reminder.length_yields _ now limit, hrest, h.reminders, h.popped,
    h.nodup_yielded, h.accounted, h.numbered⟩

end Claims

/-- Sorting by `Before` is a way to sort. -/
theorem sortsNumbers_sorted [LinearOrder T] :
    SortsNumbers (Reminder.sorted : List (Reminder (Instant T) M) → _) where
  perm := List.perm_insertionSort _
  sorts _ _ := rfl

/-- Two reminders, the later one enqueued first: a pop at 5 with room for both. -/
theorem reminder_queue_two :
    ((after Reminder.sorted
        [.enqueue (.at 5) "b", .enqueue (.at 3) "a"]
          : ReminderRun (Instant ℤ) String).store.popDueReminders Reminder.sorted
        (.at 5) 2).1 = ["a", "b"] := by
  have hrun := (reminder_queue (T := ℤ) (M := String) sortsNumbers_sorted
    [.enqueue (.at 5) "b", .enqueue (.at 3) "a"] (by
      rintro c hc
      simp only [List.mem_cons, List.not_mem_nil, or_false] at hc
      obtain rfl | rfl := hc <;> exact nofun)
    (.at 5) nofun 2).1
  exact hrun.trans (by decide)

/-- **`NaN` is popped**: a reminder for the `getTime()` of an invalid date is not due at
any time, and a pop yields it. -/
theorem not_reminder_queue :
    let r : ReminderRun (Instant ℤ) String :=
      after Reminder.sorted [.enqueue .nan "never"]
    (r.store.popDueReminders Reminder.sorted (.at 5) 1).1 = ["never"]
      ∧ Reminder.yields r.pending (.at 5) 1 = []
      ∧ ¬(r.store.popDueReminders Reminder.sorted (.at 5) 1).1
          = (Reminder.yields r.pending (.at 5) 1).map Reminder.msg := by
  decide

end ReminderRun
