import Actjs.Transition
import Mathlib.Data.List.Sort

/-!
# The reminder dispatcher

The dispatcher polls the storage for due reminders: a timer fires, a tick
pops what is due and delivers it one after the other, and when the tick has
settled the next timer is armed. Two things are asked of it: that timers and
ticks come one at a time, and that after `stop` has resolved nothing is
popped any more.

Both rest on `timer` being set whenever the loop is going. It is not: it is
`null` from the moment a timer fires until its tick has settled. A `start`
in between – any `scheduleReminder`, the one of a handler the tick delivers
to included – arms a second timer, from then on there are two loops, and
`tickInFlight` knows of the last tick only. So the condition is that no
`start` comes while a tick is running, unless the dispatcher is stopped.

The tests' `tickOnce` is left out: it runs a tick beside the loop.
-/

open Function (update)

/-! ## The store -/

/-- A reminder as the memory driver keeps it: `ReminderRow`. -/
structure ReminderRow (M : Type) where
  due : ℤ
  seq : ℕ
  msg : M

/-- The order the reminders are popped in: `a.when - b.when || a.seq - b.seq`. -/
def ReminderRow.Before {M : Type} (a b : ReminderRow M) : Prop :=
  a.due < b.due ∨ a.due = b.due ∧ a.seq ≤ b.seq

instance {M : Type} : DecidableRel (ReminderRow.Before (M := M)) := by
  intro a b
  unfold ReminderRow.Before
  infer_instance

/-- `popDueReminders`: the rows that are due at `now`, at most `limit` of
them, and the rows that stay. -/
def popDue {M : Type} (rows : List (ReminderRow M)) (now : ℤ) (limit : ℕ) :
    List (ReminderRow M) × List (ReminderRow M) :=
  let sorted := rows.insertionSort ReminderRow.Before
  let due := (sorted.takeWhile (fun r => r.due ≤ now)).take limit
  (due, sorted.drop due.length)

/-! ## The dispatcher

The event loop is part of the model: an armed timer is one that may fire, and
a tick is a call that is suspended at an await. -/

/-- Where a tick is. -/
inductive TickPc (M : Type) where
  /-- In the first `next` of `popDueReminders`. -/
  | popping
  /-- In the sink with a reminder, with those that come after it. -/
  | delivering (msg : M) (rest : List M)
  /-- `tick` has returned, and its `finally` callback has not run. -/
  | settled

/-- A tick, by the name of the timer that started it. -/
structure Tick (M : Type) where
  id : ℕ
  pc : TickPc M

/-- Where a call of `stop` is. -/
inductive StopPc where
  /-- It awaits the tick that was in flight when it was called. -/
  | awaiting (tick : ℕ)
  | resolved
  deriving DecidableEq

/-- The dispatcher with the event loop and the storage it works on. -/
structure Dispatcher (M : Type) where
  batchLimit : ℕ
  timer : Option ℕ
  tickInFlight : Option ℕ
  stopped : Bool
  /-- The count of completed ticks. -/
  ticks : ℕ
  delivered : ℕ
  failures : ℕ
  /-- The timers that have neither fired nor been cleared. -/
  armed : List ℕ
  /-- The ticks whose `finally` callback has not run. -/
  running : List (Tick M)
  /-- The number of timers made so far, the name of the next one. -/
  made : ℕ
  /-- The calls of `stop`. -/
  stops : ℕ → Option StopPc
  reminders : List (ReminderRow M)
  reminderSeq : ℕ
  /-- What was popped, in order. -/
  popped : List M

namespace Dispatcher

variable {M : Type}

/-- A new dispatcher over an empty store. -/
def init (batchLimit : ℕ) : Dispatcher M where
  batchLimit := batchLimit
  timer := none
  tickInFlight := none
  stopped := false
  ticks := 0
  delivered := 0
  failures := 0
  armed := []
  running := []
  made := 0
  stops := fun _ => none
  reminders := []
  reminderSeq := 0
  popped := []

/-- `scheduleNextTick`. The timer that is in the field is overwritten. -/
def scheduleNextTick (d : Dispatcher M) : Dispatcher M :=
  if d.stopped then d
  else { d with
    timer := some d.made, armed := d.armed ++ [d.made], made := d.made + 1 }

/-- `start`. -/
def start (d : Dispatcher M) : Dispatcher M :=
  if d.stopped then d
  else if d.timer.isSome then d
  else d.scheduleNextTick

/-- `clearTimeout`, of the timer in the field. -/
def clearTimer (d : Dispatcher M) : Dispatcher M :=
  match d.timer with
  | none => d
  | some t => { d with timer := none, armed := d.armed.erase t }

/-- `stop`, up to its `await`. -/
def stop (d : Dispatcher M) (q : ℕ) : Dispatcher M :=
  let d' := ({ d with stopped := true } : Dispatcher M).clearTimer
  { d' with
    stops := update d'.stops q (some (match d'.tickInFlight with
      | none => .resolved
      | some t => .awaiting t)) }

/-- A tick that has come to another point. -/
def setTick (d : Dispatcher M) (i : ℕ) (pc : TickPc M) : Dispatcher M :=
  { d with running :=
      d.running.map (fun k => if k.id = i then ⟨i, pc⟩ else k) }

/-- The tick goes on with the reminders it has left. -/
def nextReminder (d : Dispatcher M) (i : ℕ) : List M → Dispatcher M
  | [] => ({ d with ticks := d.ticks + 1 } : Dispatcher M).setTick i .settled
  | m :: ms => d.setTick i (.delivering m ms)

/-- Where the tick of that name is, if it is running. -/
def tickAt (d : Dispatcher M) (i : ℕ) : Option (TickPc M) :=
  (d.running.find? (fun k => k.id = i)).map Tick.pc

end Dispatcher

/-- What can happen next. -/
inductive DispatcherAct (M : Type) where
  | enqueueReminder (due : ℤ) (msg : M)
  | start
  /-- `stop` is called. -/
  | stop (q : ℕ)
  /-- A call of `stop` goes on. -/
  | stopReturns (q : ℕ)
  /-- A timer fires. -/
  | fire (t : ℕ)
  /-- The storage answers with what is due. -/
  | pop (i : ℕ) (now : ℤ)
  /-- The storage throws. -/
  | popFails (i : ℕ)
  /-- The sink resolves, or throws. -/
  | sink (i : ℕ) (ok : Bool)
  /-- The `finally` callback of a tick runs. -/
  | settle (i : ℕ)

namespace Dispatcher

variable {M : Type}

/-- One step of the dispatcher. -/
def step (d : Dispatcher M) : DispatcherAct M → Option (Dispatcher M)
  | .enqueueReminder due msg =>
    some { d with
      reminders := d.reminders ++ [⟨due, d.reminderSeq, msg⟩],
      reminderSeq := d.reminderSeq + 1 }
  | .start => some d.start
  | .stop q => if (d.stops q).isSome then none else some (d.stop q)
  | .stopReturns q =>
    match d.stops q with
    | some (.awaiting t) =>
      if (d.tickAt t).isSome then none
      else some { d with stops := update d.stops q (some .resolved) }
    | _ => none
  | .fire t =>
    if t ∈ d.armed then
      some { d with
        armed := d.armed.erase t, timer := none, tickInFlight := some t,
        running := d.running ++ [⟨t, .popping⟩] }
    else none
  | .pop i now =>
    match d.tickAt i with
    | some .popping =>
      let due := popDue d.reminders now d.batchLimit
      let msgs := due.1.map ReminderRow.msg
      some (({ d with
        reminders := due.2, popped := d.popped ++ msgs } :
          Dispatcher M).nextReminder i msgs)
    | _ => none
  | .popFails i =>
    match d.tickAt i with
    | some .popping =>
      some (({ d with failures := d.failures + 1 } :
        Dispatcher M).nextReminder i [])
    | _ => none
  | .sink i ok =>
    match d.tickAt i with
    | some (.delivering _ rest) =>
      some (({ d with
        delivered := if ok then d.delivered + 1 else d.delivered,
        failures := if ok then d.failures else d.failures + 1 } :
          Dispatcher M).nextReminder i rest)
    | _ => none
  | .settle i =>
    match d.tickAt i with
    | some .settled =>
      some ({ d with
        running := d.running.filter (fun k => k.id ≠ i),
        tickInFlight := none } : Dispatcher M).scheduleNextTick
    | _ => none

/-- **The condition**: `start` is not called while a tick is running, unless
the dispatcher is stopped. -/
def StartsIdle (d : Dispatcher M) : DispatcherAct M → Prop
  | .start => d.stopped = true ∨ d.running = []
  | _ => True

end Dispatcher

/-! ## What leaves the loop alone -/

namespace Dispatcher

variable {M : Type} {d d' : Dispatcher M} {i : ℕ}

/-- The names of the running ticks. -/
def runningIds (d : Dispatcher M) : List ℕ := d.running.map Tick.id

/-- **The loop is where it was**: the timers, the ticks and the calls of
`stop` are as before, though a tick may have come further. -/
structure SameLoop (d d' : Dispatcher M) : Prop where
  timer : d'.timer = d.timer
  tickInFlight : d'.tickInFlight = d.tickInFlight
  stopped : d'.stopped = d.stopped
  armed : d'.armed = d.armed
  ids : d'.runningIds = d.runningIds
  stops : d'.stops = d.stops

theorem SameLoop.trans {d₁ d₂ d₃ : Dispatcher M} (h : SameLoop d₁ d₂)
    (h' : SameLoop d₂ d₃) : SameLoop d₁ d₃ :=
  ⟨h'.timer.trans h.timer, h'.tickInFlight.trans h.tickInFlight,
    h'.stopped.trans h.stopped, h'.armed.trans h.armed, h'.ids.trans h.ids,
    h'.stops.trans h.stops⟩

theorem setTick_sameLoop (d : Dispatcher M) (i : ℕ) (pc : TickPc M) :
    SameLoop d (d.setTick i pc) := by
  refine ⟨rfl, rfl, rfl, rfl, ?_, rfl⟩
  show (d.running.map _).map Tick.id = d.running.map Tick.id
  rw [List.map_map]
  refine List.map_congr_left (fun k _ => ?_)
  show (if k.id = i then (⟨i, pc⟩ : Tick M) else k).id = k.id
  split
  · next h => exact h.symm
  · rfl

theorem nextReminder_sameLoop (d : Dispatcher M) (i : ℕ) (ms : List M) :
    SameLoop d (d.nextReminder i ms) := by
  cases ms with
  | nil =>
    have hd : SameLoop d { d with ticks := d.ticks + 1 } :=
      ⟨rfl, rfl, rfl, rfl, rfl, rfl⟩
    exact hd.trans (setTick_sameLoop _ i .settled)
  | cons m ms => exact setTick_sameLoop d i _

@[simp] theorem nextReminder_popped (d : Dispatcher M) (i : ℕ) (ms : List M) :
    (d.nextReminder i ms).popped = d.popped := by
  cases ms <;> rfl

theorem tickAt_none (h : d.running = []) (i : ℕ) : d.tickAt i = none := by
  rw [tickAt, h]
  rfl

theorem mem_runningIds_of_tickAt {pc : TickPc M} (h : d.tickAt i = some pc) :
    i ∈ d.runningIds := by
  obtain ⟨k, hk, -⟩ := Option.map_eq_some_iff.mp h
  have hid : k.id = i := by simpa using List.find?_some hk
  exact hid ▸ List.mem_map_of_mem (List.mem_of_find?_eq_some hk)

theorem tickAt_eq_none (h : d.tickAt i = none) : i ∉ d.runningIds := by
  intro hi
  obtain ⟨k, hk, hid⟩ := List.mem_map.mp hi
  rw [tickAt, Option.map_eq_none_iff, List.find?_eq_none] at h
  exact h k hk (decide_eq_true hid)

/-- **What a step does to the loop**: nothing, or it starts, stops, fires
or settles. -/
theorem step_cases {a : DispatcherAct M} (h : step d a = some d') :
    SameLoop d d'
    ∨ (a = .start ∧ d' = d.start)
    ∨ (∃ q, a = .stop q ∧ d' = d.stop q)
    ∨ (∃ q t, a = .stopReturns q ∧ d.stops q = some (.awaiting t)
        ∧ t ∉ d.runningIds
        ∧ d' = { d with stops := update d.stops q (some .resolved) })
    ∨ (∃ t, a = .fire t ∧ t ∈ d.armed ∧ d' = { d with
        armed := d.armed.erase t, timer := none, tickInFlight := some t,
        running := d.running ++ [⟨t, .popping⟩] })
    ∨ (∃ i, a = .settle i ∧ i ∈ d.runningIds
        ∧ d' = ({ d with
          running := d.running.filter (fun k => k.id ≠ i),
          tickInFlight := none } : Dispatcher M).scheduleNextTick) := by
  cases a with
  | enqueueReminder due msg =>
    exact .inl (Option.some.inj h ▸ ⟨rfl, rfl, rfl, rfl, rfl, rfl⟩)
  | start => exact .inr (.inl ⟨rfl, (Option.some.inj h).symm⟩)
  | stop q =>
    rw [step, Option.ite_none_left_eq_some] at h
    exact .inr (.inr (.inl ⟨q, rfl, (Option.some.inj h.2).symm⟩))
  | stopReturns q =>
    rw [step] at h
    split at h
    · next t ht =>
      rw [Option.ite_none_left_eq_some, Bool.not_eq_true,
        Option.isSome_eq_false_iff, Option.isNone_iff_eq_none] at h
      exact .inr (.inr (.inr (.inl ⟨q, t, rfl, ht, tickAt_eq_none h.1,
        (Option.some.inj h.2).symm⟩)))
    · cases h
  | fire t =>
    rw [step, Option.ite_none_right_eq_some] at h
    exact .inr (.inr (.inr (.inr (.inl
      ⟨t, rfl, h.1, (Option.some.inj h.2).symm⟩))))
  | pop i now =>
    rw [step] at h
    split at h
    · refine .inl (Option.some.inj h ▸ SameLoop.trans ?_
        (nextReminder_sameLoop _ i _))
      exact ⟨rfl, rfl, rfl, rfl, rfl, rfl⟩
    · cases h
  | popFails i =>
    rw [step] at h
    split at h
    · refine .inl (Option.some.inj h ▸ SameLoop.trans ?_
        (nextReminder_sameLoop _ i _))
      exact ⟨rfl, rfl, rfl, rfl, rfl, rfl⟩
    · cases h
  | sink i ok =>
    rw [step] at h
    split at h
    · refine .inl (Option.some.inj h ▸ SameLoop.trans ?_
        (nextReminder_sameLoop _ i _))
      exact ⟨rfl, rfl, rfl, rfl, rfl, rfl⟩
    · cases h
  | settle i =>
    rw [step] at h
    split at h
    · next hi =>
      exact .inr (.inr (.inr (.inr (.inr ⟨i, rfl,
        mem_runningIds_of_tickAt hi, (Option.some.inj h).symm⟩))))
    · cases h

/-! ## One timer or one tick

The invariant, step by step. `start` keeps it where the condition holds, and
the end of a tick arms one timer for the one that fired. -/

/-- **There is one loop**: at most one timer is armed or one tick is
running, the fields say which, and a call of `stop` awaits what runs. -/
structure OneLoop (d : Dispatcher M) : Prop where
  single : d.armed.length + d.runningIds.length ≤ 1
  /-- `timer` is the timer that is armed, or `null`. -/
  timer : d.armed = d.timer.toList
  /-- `tickInFlight` is the tick that runs. -/
  inFlight : d.runningIds = d.tickInFlight.toList
  stopped : d.stopped = true → d.armed = []
  /-- A `stop` awaits the tick that ran when it was called. -/
  awaiting : ∀ q t, d.stops q = some (.awaiting t) →
    d.stopped = true ∧ ∀ k ∈ d.runningIds, k = t
  resolved : ∀ q, d.stops q = some .resolved →
    d.stopped = true ∧ d.runningIds = []

namespace OneLoop

theorem init (b : ℕ) : OneLoop (Dispatcher.init b : Dispatcher M) where
  single := Nat.zero_le 1
  timer := rfl
  inFlight := rfl
  stopped _ := rfl
  awaiting _ _ h := nomatch h
  resolved _ h := nomatch h

theorem sameLoop (h : OneLoop d) (hs : SameLoop d d') : OneLoop d' where
  single := by rw [hs.armed, hs.ids]; exact h.single
  timer := by rw [hs.armed, hs.timer]; exact h.timer
  inFlight := by rw [hs.ids, hs.tickInFlight]; exact h.inFlight
  stopped hst := by rw [hs.armed]; exact h.stopped (hs.stopped ▸ hst)
  awaiting q t hq := by
    rw [hs.stopped, hs.ids]
    exact h.awaiting q t (hs.stops ▸ hq)
  resolved q hq := by
    rw [hs.stopped, hs.ids]
    exact h.resolved q (hs.stops ▸ hq)

/-- A timer is armed when the loop is at rest. -/
theorem scheduleNextTick (h : OneLoop d) (hr : d.runningIds = [])
    (ht : d.timer = none) : OneLoop d.scheduleNextTick := by
  unfold Dispatcher.scheduleNextTick
  split
  · exact h
  · next hst =>
    have ha : d.armed = [] := h.timer.trans (by rw [ht]; rfl)
    have hno : ∀ q p, d.stops q = some p → d.stopped = true := by
      intro q p hq
      cases p with
      | awaiting t => exact (h.awaiting q t hq).1
      | resolved => exact (h.resolved q hq).1
    exact
      { single := by
          show (d.armed ++ [d.made]).length + d.runningIds.length ≤ 1
          rw [ha, hr]
          exact le_refl 1
        timer := by
          show d.armed ++ [d.made] = [d.made]
          rw [ha]
          rfl
        inFlight := h.inFlight
        stopped := fun hs => absurd hs hst
        awaiting := fun q t hq => absurd (hno q _ hq) hst
        resolved := fun q hq => absurd (hno q _ hq) hst }

theorem start (h : OneLoop d) (hG : d.stopped = true ∨ d.running = []) :
    OneLoop d.start := by
  unfold Dispatcher.start
  split
  · exact h
  · next hst =>
    split
    · exact h
    · next ht =>
      have hr : d.running = [] := hG.resolve_left hst
      refine h.scheduleNextTick (by rw [runningIds, hr]; rfl) ?_
      rwa [Option.not_isSome_iff_eq_none] at ht

theorem clearTimer_fields (d : Dispatcher M) :
    d.clearTimer.timer = none ∧ d.clearTimer.tickInFlight = d.tickInFlight
      ∧ d.clearTimer.stopped = d.stopped
      ∧ d.clearTimer.runningIds = d.runningIds
      ∧ d.clearTimer.stops = d.stops := by
  unfold clearTimer
  split
  · next h => exact ⟨h, rfl, rfl, rfl, rfl⟩
  · exact ⟨rfl, rfl, rfl, rfl, rfl⟩

theorem stop (h : OneLoop d) (q : ℕ) : OneLoop (d.stop q) := by
  have hb : OneLoop ({ d with stopped := true } : Dispatcher M).clearTimer := by
    have ha : ({ d with stopped := true } : Dispatcher M).clearTimer.armed = [] := by
      unfold clearTimer
      have ht := h.timer
      split
      · next hn => exact ht.trans (by rw [show d.timer = none from hn]; rfl)
      · next t hn =>
        show d.armed.erase t = []
        rw [ht, show d.timer = some t from hn]
        simp
    obtain ⟨ht, hf, hst, hr, hs⟩ :=
      clearTimer_fields ({ d with stopped := true } : Dispatcher M)
    exact
      { single := by
          rw [ha, hr]
          exact (Nat.add_le_add_right (Nat.zero_le _) _).trans h.single
        timer := by rw [ha, ht]; rfl
        inFlight := by rw [hr, hf]; exact h.inFlight
        stopped := fun _ => ha
        awaiting := fun p t hp => by
          rw [hst, hr]
          exact ⟨rfl, (h.awaiting p t (hs ▸ hp)).2⟩
        resolved := fun p hp => by
          rw [hst, hr]
          exact ⟨rfl, (h.resolved p (hs ▸ hp)).2⟩ }
  have hst : ({ d with stopped := true } : Dispatcher M).clearTimer.stopped
      = true := (clearTimer_fields _).2.2.1
  have hf := hb.inFlight
  exact
    { single := hb.single
      timer := hb.timer
      inFlight := hb.inFlight
      stopped := hb.stopped
      awaiting := fun p t hp => by
        refine ⟨hst, ?_⟩
        by_cases hpq : p = q
        · subst hpq
          simp only [Dispatcher.stop, Function.update_self,
            Option.some.injEq] at hp
          split at hp
          · cases hp
          · next t' ht' =>
            cases hp
            intro k hk
            have hk' : k ∈ (some t).toList := by
              rw [← ht', ← hf]
              exact hk
            simpa using hk'
        · simp only [Dispatcher.stop, Function.update_of_ne hpq] at hp
          exact (hb.awaiting p t hp).2
      resolved := fun p hp => by
        refine ⟨hst, ?_⟩
        by_cases hpq : p = q
        · subst hpq
          simp only [Dispatcher.stop, Function.update_self,
            Option.some.injEq] at hp
          split at hp
          · next ht' => exact hf.trans (by rw [ht']; rfl)
          · cases hp
        · simp only [Dispatcher.stop, Function.update_of_ne hpq] at hp
          exact (hb.resolved p hp).2 }

theorem stopReturns (h : OneLoop d) {q t : ℕ}
    (hq : d.stops q = some (.awaiting t)) (ht : t ∉ d.runningIds) :
    OneLoop { d with stops := update d.stops q (some .resolved) } := by
  obtain ⟨hst, hall⟩ := h.awaiting q t hq
  have hr : d.runningIds = [] :=
    List.eq_nil_iff_forall_not_mem.mpr (fun k hk => ht (hall k hk ▸ hk))
  exact
    { single := h.single
      timer := h.timer
      inFlight := h.inFlight
      stopped := h.stopped
      awaiting := fun p t' hp => by
        replace hp : update d.stops q (some .resolved) p = some (.awaiting t') := hp
        by_cases hpq : p = q
        · subst hpq
          rw [Function.update_self] at hp
          cases hp
        · rw [Function.update_of_ne hpq] at hp
          exact h.awaiting p t' hp
      resolved := fun p _ => ⟨hst, hr⟩ }

/-- A timer fires only if the dispatcher is not stopped, and nothing runs. -/
theorem fire (h : OneLoop d) {t : ℕ} (ht : t ∈ d.armed) :
    OneLoop { d with
      armed := d.armed.erase t, timer := none, tickInFlight := some t,
      running := d.running ++ [⟨t, .popping⟩] } := by
  have hpos : 0 < d.armed.length := List.length_pos_of_mem ht
  have hlen := h.single
  have hr : d.running = [] := by
    have : d.runningIds.length = 0 := by omega
    simpa [runningIds] using this
  have ha : d.armed.erase t = [] := by
    rw [← List.length_eq_zero_iff, List.length_erase_of_mem ht]
    omega
  have hst : ¬d.stopped = true := fun hs =>
    absurd (h.stopped hs) (List.ne_nil_of_mem ht)
  have hno : ∀ q p, d.stops q ≠ some p := by
    intro q p hq
    cases p with
    | awaiting t' => exact hst (h.awaiting q t' hq).1
    | resolved => exact hst (h.resolved q hq).1
  have hids : (d.running ++ [(⟨t, .popping⟩ : Tick M)]).map Tick.id = [t] := by
    rw [hr]
    rfl
  exact
    { single := by
        show (d.armed.erase t).length + ((d.running ++ [_]).map Tick.id).length ≤ 1
        rw [ha, hids]
        exact le_refl 1
      timer := ha
      inFlight := hids
      stopped := fun hs => absurd hs hst
      awaiting := fun q t' hq => absurd hq (hno q _)
      resolved := fun q hq => absurd hq (hno q _) }

theorem settle (h : OneLoop d) (hi : i ∈ d.runningIds) :
    OneLoop ({ d with
      running := d.running.filter (fun k => k.id ≠ i),
      tickInFlight := none } : Dispatcher M).scheduleNextTick := by
  have hpos : 0 < d.runningIds.length := List.length_pos_of_mem hi
  have hlen := h.single
  have ha : d.armed = [] := by
    rw [← List.length_eq_zero_iff]
    omega
  have ht : d.timer = none := by
    have := h.timer
    rw [ha] at this
    simpa using this.symm
  -- The tick that settles is the one that runs.
  have hone : ∀ k ∈ d.runningIds, k = i := by
    intro k hk
    obtain ⟨x, hx⟩ := List.length_eq_one_iff.mp (show d.runningIds.length = 1 by omega)
    rw [hx, List.mem_singleton] at hi hk
    exact hk.trans hi.symm
  have hr : d.running.filter (fun k => k.id ≠ i) = [] := by
    rw [List.filter_eq_nil_iff]
    intro k hk
    simpa using hone k.id (List.mem_map_of_mem hk)
  have hids : (d.running.filter (fun k => k.id ≠ i)).map Tick.id = [] := by
    rw [hr]
    rfl
  refine OneLoop.scheduleNextTick ?_ hids ht
  exact
    { single := by
        show d.armed.length + (List.map Tick.id _).length ≤ 1
        rw [ha, hids]
        exact Nat.zero_le 1
      timer := h.timer
      inFlight := hids
      stopped := h.stopped
      awaiting := fun q t hq => by
        refine ⟨(h.awaiting q t hq).1, fun k hk => ?_⟩
        replace hk : k ∈ List.map Tick.id (d.running.filter _) := hk
        rw [hids] at hk
        exact absurd hk List.not_mem_nil
      resolved := fun q hq => ⟨(h.resolved q hq).1, hids⟩ }

/-- **What one step preserves.** -/
theorem step (h : OneLoop d) {a : DispatcherAct M} (hG : d.StartsIdle a)
    (hs : Dispatcher.step d a = some d') : OneLoop d' := by
  obtain hsame | ⟨rfl, rfl⟩ | ⟨q, rfl, rfl⟩ | ⟨q, t, rfl, hq, ht, rfl⟩
    | ⟨t, rfl, ht, rfl⟩ | ⟨i, rfl, hi, rfl⟩ := step_cases hs
  · exact h.sameLoop hsame
  · exact h.start hG
  · exact h.stop q
  · exact h.stopReturns hq ht
  · exact h.fire ht
  · exact h.settle hi

end OneLoop

/-! ## After a stop

Once `stop` has resolved there is neither timer nor tick, and only a `start`
brings one back. -/

/-- The dispatcher is stopped, and what was popped is `ms`. -/
structure AtRest (ms : List M) (d : Dispatcher M) : Prop where
  stopped : d.stopped = true
  armed : d.armed = []
  running : d.running = []
  popped : d.popped = ms

/-- **A dispatcher at rest stays at rest**, whatever happens. -/
theorem AtRest.step {ms : List M} (h : AtRest ms d) {a : DispatcherAct M}
    (hs : Dispatcher.step d a = some d') : AtRest ms d' := by
  have hno : ∀ i, d.tickAt i = none := tickAt_none h.running
  cases a with
  | enqueueReminder due msg =>
    exact Option.some.inj hs ▸ ⟨h.stopped, h.armed, h.running, h.popped⟩
  | start =>
    rw [Dispatcher.step, Dispatcher.start, if_pos h.stopped] at hs
    exact Option.some.inj hs ▸ h
  | stop q =>
    rw [Dispatcher.step, Option.ite_none_left_eq_some] at hs
    have hc : AtRest ms ({ d with stopped := true } : Dispatcher M).clearTimer := by
      unfold clearTimer
      split
      · exact ⟨rfl, h.armed, h.running, h.popped⟩
      · next t _ =>
        refine ⟨rfl, ?_, h.running, h.popped⟩
        show d.armed.erase t = []
        rw [h.armed]
        rfl
    exact Option.some.inj hs.2 ▸ ⟨hc.stopped, hc.armed, hc.running, hc.popped⟩
  | stopReturns q =>
    rw [Dispatcher.step] at hs
    split at hs
    · rw [Option.ite_none_left_eq_some] at hs
      exact Option.some.inj hs.2 ▸ ⟨h.stopped, h.armed, h.running, h.popped⟩
    · cases hs
  | fire t =>
    rw [Dispatcher.step, h.armed, if_neg List.not_mem_nil] at hs
    cases hs
  | pop i now => simp [Dispatcher.step, hno i] at hs
  | popFails i => simp [Dispatcher.step, hno i] at hs
  | sink i ok => simp [Dispatcher.step, hno i] at hs
  | settle i => simp [Dispatcher.step, hno i] at hs

/-- A `start` while a tick is running arms a second timer: the condition is
not met for nothing. -/
theorem OneLoop.start_iff (h : OneLoop d) :
    d.start.armed.length + d.start.running.length ≤ 1 ↔ d.StartsIdle .start := by
  constructor
  · intro hle
    by_contra hG
    obtain ⟨hst, hr⟩ := not_or.mp hG
    have hpos : 0 < d.running.length := List.length_pos_of_ne_nil hr
    have hlen := h.single
    rw [runningIds, List.length_map] at hlen
    have ht : d.timer = none := by
      have ha : d.armed = [] := List.length_eq_zero_iff.mp (by omega)
      have := h.timer
      rw [ha] at this
      simpa using this.symm
    rw [Dispatcher.start, if_neg hst, ht, if_neg (by simp),
      Dispatcher.scheduleNextTick, if_neg hst] at hle
    simp only [List.length_append, List.length_singleton] at hle
    omega
  · intro hG
    have hs := (h.start hG).single
    rwa [runningIds, List.length_map] at hs

/-- **The dispatcher has one loop.** If no `start` comes while a tick is
running, no more than one timer is armed or one tick running; and once a call
of `stop` has resolved no tick is running and nothing is popped any more. -/
theorem dispatcher_exclusive (b : ℕ) (as : List (DispatcherAct M))
    (hG : TransitionSystem.Along Dispatcher.step StartsIdle
      (Dispatcher.init b) as)
    (hrun : TransitionSystem.run Dispatcher.step (Dispatcher.init b) as
      = some d) :
    d.armed.length + d.running.length ≤ 1
    ∧ ∀ q, d.stops q = some .resolved →
      d.running = []
      ∧ ∀ bs d', TransitionSystem.run Dispatcher.step d bs = some d' →
        d'.running = [] ∧ d'.popped = d.popped := by
  have h : OneLoop d := TransitionSystem.run_invariant Dispatcher.step
    (fun _ _ _ h hG hs => h.step hG hs) (OneLoop.init b) hG hrun
  have hlen := h.single
  rw [runningIds, List.length_map] at hlen
  refine ⟨hlen, fun q hq => ?_⟩
  obtain ⟨hst, hids⟩ := h.resolved q hq
  have hr : d.running = [] := List.map_eq_nil_iff.mp hids
  refine ⟨hr, fun bs d' hbs => ?_⟩
  have hrest : AtRest d.popped d' := TransitionSystem.run_invariant'
    Dispatcher.step (fun _ _ _ h hs => h.step hs)
    ⟨hst, h.stopped hst, hr, rfl⟩ hbs
  exact ⟨hrest.running, hrest.popped⟩

/-- One tick, and a `stop` while the next timer is armed. -/
theorem dispatcher_exclusive_stopped :
    ∃ d : Dispatcher ℕ, TransitionSystem.run Dispatcher.step (.init 100)
        [.enqueueReminder 5 7, .start, .fire 0, .pop 0 9, .sink 0 true,
          .settle 0, .stop 0, .enqueueReminder 6 8] = some d
      ∧ d.popped = [7] ∧ d.armed.length + d.running.length ≤ 1
      ∧ d.stops 0 = some .resolved
      ∧ d.running = []
      ∧ ∀ bs d', TransitionSystem.run Dispatcher.step d bs = some d' →
        d'.running = [] ∧ d'.popped = d.popped := by
  refine ⟨_, rfl, rfl, ?_⟩
  have h := dispatcher_exclusive 100
    [.enqueueReminder 5 7, .start, .fire 0, .pop 0 9, .sink 0 true,
      .settle 0, .stop 0, .enqueueReminder 6 8]
    ⟨trivial, .inr rfl, trivial, trivial, trivial, trivial, trivial, trivial,
      trivial⟩ rfl
  exact ⟨h.1, rfl, h.2 0 rfl⟩

/-- **A `start` during a tick makes two loops**: a timer is armed while a tick
is running. When the second loop comes to its `stop` first, that `stop`
resolves while the first tick is running, and it pops. -/
theorem not_dispatcher_exclusive :
    ∃ d d' d'' : Dispatcher ℕ,
      TransitionSystem.run Dispatcher.step (.init 100)
        [.start, .fire 0, .start] = some d
      ∧ 1 < d.armed.length + d.running.length
      ∧ TransitionSystem.run Dispatcher.step d
        [.fire 1, .pop 1 9, .settle 1, .enqueueReminder 5 7, .stop 0] = some d'
      ∧ d'.stops 0 = some .resolved ∧ d'.running ≠ []
      ∧ TransitionSystem.run Dispatcher.step d' [.pop 0 8] = some d''
      ∧ d''.popped ≠ d'.popped :=
  ⟨_, _, _, rfl, by decide, rfl, rfl, by decide, rfl, by decide⟩

end Dispatcher
