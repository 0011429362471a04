import Mathlib.Algebra.Ring.Nat
import Mathlib.Data.Int.Notation
import Mathlib.Data.List.Induction
import Mathlib.Logic.Function.Basic
import Mathlib.Tactic.Common

/-!
# Notifications that come before the record

What arrives for a subscription before `preRegister` is buffered, and `flushBuffered` applies
it once the record and its listener are there. This should make no difference to the record.

An application may throw: a patch that does not fit the state, a reducer, or the listener. A
notification that arrives for a record is applied by itself, so that what it throws is the end
of it alone. `flushBuffered` has deleted the buffer when it begins to apply what was in it, and
what one of them throws is the end of all that come after. `flushBuffered_transparent` says
when this makes a difference: when one of these would have reached the listener.

What a patch leads to, the reducers, the listeners and `BigInt` are parameters; each of them
may throw. A state may be `undefined`.
-/

open Function (update)

inductive SubscriberKind where
  | snapshot
  | patch
  | event
  | tombstone
deriving DecidableEq

/-- `ActorEventNotification`, of values in `V`. -/
structure EventNotification (V : Type) where
  subscriptionId : String
  kind : SubscriberKind
  data : Option V
  patch : List V
  events : List V
  seq : Option String

/-- What an application may come to: a value, or an exception. -/
abbrev Throws (α : Type) := Except Unit α

/-- `EsReducer`. -/
abbrev EsReducer (V : Type) := Option V → V → Throws (Option V)

/-- A listener, by the states that it was called with before. -/
abbrev StateListener (V : Type) := List (Option V) → Option V → Throws Unit

/-- **`SubscriptionRecord`**, with its listener and what that has been called with. -/
structure LiveRecord (V : Type) where
  state : Option V
  lastSeq : ℤ
  reducer : Option (EsReducer V)
  listener : StateListener V
  tombstoned : Bool
  heard : List (Option V)

/-- The notifications that wait for a record, since `since`. -/
structure EarlyBuffer (V : Type) where
  entries : List (EventNotification V)
  since : ℤ

def EarlyBuffer.push {V : Type} (buf : EarlyBuffer V) (n : EventNotification V) :
    EarlyBuffer V :=
  { buf with entries := buf.entries ++ [n] }

/-- The records and the buffers of `SubscriptionState`. -/
structure LiveSubscriptions (V : Type) where
  subs : String → Option (LiveRecord V)
  pending : String → Option (EarlyBuffer V)

/-- What is not the client's. -/
structure NotificationPlatform (V : Type) where
  applyPatch : Option V → List V → Throws (Option V)
  bigInt : String → Throws ℤ

/-- **What comes next**, with the time of `Date.now()`. -/
inductive StreamEvent (V : Type) where
  | notify (now : ℤ) (n : EventNotification V)
  /-- `preRegister`, adding the listener, and `flushBuffered`. -/
  | register (subscriptionId : String) (reducer : Option (EsReducer V))
    (listener : StateListener V)

variable {V : Type} (p : NotificationPlatform V)

namespace LiveRecord

/-- The record that `preRegister` makes, with the listener. -/
def new (reducer : Option (EsReducer V)) (listener : StateListener V) : LiveRecord V :=
  ⟨none, 0, reducer, listener, false, []⟩

/-- The `lastSeq` of a notification, if it has one that is a number. -/
def withSeq (rec : LiveRecord V) (seq : Option String) : LiveRecord V :=
  match seq with
  | none => rec
  | some seq =>
    match p.bigInt seq with
    | .ok seq => { rec with lastSeq := seq }
    | .error _ => rec

/-- The `switch` of `apply`. -/
def update (rec : LiveRecord V) (n : EventNotification V) : Throws (LiveRecord V) :=
  match n.kind with
  | .snapshot => .ok (withSeq p { rec with state := n.data } n.seq)
  | .patch => (p.applyPatch rec.state n.patch).map (fun next => { rec with state := next })
  | .event =>
    match rec.reducer with
    | none => .ok (if n.data.isSome = true then { rec with state := n.data } else rec)
    | some reducer =>
      (n.events.foldlM reducer rec.state).map (fun next =>
        withSeq p { rec with state := next } n.seq)
  | .tombstone => .ok { rec with tombstoned := true }

/-- `apply`, of a notification that has a record: the record after it, and whether it
throws. -/
def apply (rec : LiveRecord V) (n : EventNotification V) : LiveRecord V × Bool :=
  if rec.tombstoned = true then (rec, false)
  else
    match rec.update p n with
    | .error _ => (rec, true)
    | .ok rec =>
      ({ rec with heard := rec.heard ++ [rec.state] },
        match rec.listener rec.heard rec.state with
        | .ok _ => false
        | .error _ => true)

/-- The loop of `flushBuffered`. -/
def applyAll (rec : LiveRecord V) : List (EventNotification V) → LiveRecord V
  | [] => rec
  | n :: ns => if (rec.apply p n).2 = true then (rec.apply p n).1 else (rec.apply p n).1.applyAll ns

end LiveRecord

namespace LiveSubscriptions

def init : LiveSubscriptions V := ⟨fun _ => none, fun _ => none⟩

def pendingTtlMs : ℤ := 5000

/-- The buffers that are not expired. -/
def swept (s : LiveSubscriptions V) (now : ℤ) (id : String) : Option (EarlyBuffer V) :=
  (s.pending id).filter (fun buf => decide (now - buf.since ≤ pendingTtlMs))

/-- `bufferEarly`. -/
def bufferEarly (s : LiveSubscriptions V) (now : ℤ) (n : EventNotification V) :
    LiveSubscriptions V :=
  { s with
    pending := update (s.swept now) n.subscriptionId
      (some (((s.swept now n.subscriptionId).getD ⟨[], now⟩).push n)) }

/-- `apply`. What it throws goes to whoever has called it. -/
def apply (s : LiveSubscriptions V) (now : ℤ) (n : EventNotification V) : LiveSubscriptions V :=
  match s.subs n.subscriptionId with
  | none => s.bufferEarly now n
  | some rec => { s with subs := update s.subs n.subscriptionId (some (rec.apply p n).1) }

/-- `flushBuffered`, of a record that is there. -/
def flushBuffered (s : LiveSubscriptions V) (id : String) : LiveSubscriptions V :=
  match s.pending id with
  | none => s
  | some buffered =>
    { subs := update s.subs id ((s.subs id).map (fun rec => rec.applyAll p buffered.entries))
      pending := update s.pending id none }

/-- `preRegister`. -/
def preRegister (s : LiveSubscriptions V) (id : String) (reducer : Option (EsReducer V))
    (listener : StateListener V) : LiveSubscriptions V :=
  { s with subs := update s.subs id (some (.new reducer listener)) }

def next (s : LiveSubscriptions V) : StreamEvent V → LiveSubscriptions V
  | .notify now n => s.apply p now n
  | .register id reducer listener => (s.preRegister id reducer listener).flushBuffered p id

/-- The subscriptions after the events. -/
def after (s : LiveSubscriptions V) (es : List (StreamEvent V)) : LiveSubscriptions V :=
  es.foldl (next p) s

end LiveSubscriptions

/-! ## What the buffer is for

What the record would have become had it been there all along, one
notification at a time. -/

/-- The notification that arrives for the subscription. -/
def StreamEvent.notificationOf (id : String) : StreamEvent V → Option (EventNotification V)
  | notify _ n => if n.subscriptionId = id then some n else none
  | register _ _ _ => none

/-- The notifications that arrive for a subscription. -/
def notificationsOf (id : String) (es : List (StreamEvent V)) : List (EventNotification V) :=
  es.filterMap (StreamEvent.notificationOf id)

/-- `id` is registered in it. -/
def StreamEvent.registers (id : String) : StreamEvent V → Bool
  | notify _ _ => false
  | register id' _ _ => decide (id' = id)

/-- **The events come within the time to live** of a buffer that is there since `since`. -/
def WithinTtl (since : ℤ) (es : List (StreamEvent V)) : Prop :=
  ∀ now n, StreamEvent.notify now n ∈ es → now - since ≤ LiveSubscriptions.pendingTtlMs

/-- **The events come within the time to live of the buffer for `id`**, which is there from
the first notification for it on. -/
def ArrivesInTime (id : String) : List (StreamEvent V) → Prop
  | [] => True
  | .notify now n :: es =>
    if n.subscriptionId = id then WithinTtl now es else ArrivesInTime id es
  | .register _ _ _ :: es => ArrivesInTime id es

namespace LiveRecord

/-- The notification gets to the listener. -/
def reached (rec : LiveRecord V) (n : EventNotification V) : Bool :=
  match rec.tombstoned, rec.update p n with
  | false, .ok _ => true
  | _, _ => false

/-- **After the first that throws, none of the notifications would reach the listener.** -/
def losesNone (rec : LiveRecord V) : List (EventNotification V) → Bool
  | [] => true
  | n :: ns =>
    if (rec.apply p n).2 = true then ns.all (fun m => !(rec.apply p n).1.reached p m)
    else (rec.apply p n).1.losesNone ns

/-! ## The record -/

variable {p} {rec : LiveRecord V} {n : EventNotification V} {ns : List (EventNotification V)}

/-- The record after notifications that are applied one by one. -/
def receive (p : NotificationPlatform V) (rec : LiveRecord V)
    (ns : List (EventNotification V)) : LiveRecord V :=
  ns.foldl (fun rec n => (rec.apply p n).1) rec

/-- Only the listener's history tells. -/
theorem heard_withSeq (seq : Option String) : (withSeq p rec seq).heard = rec.heard := by
  unfold withSeq
  split
  · rfl
  · split
    · rfl
    · rfl

theorem heard_update {rec' : LiveRecord V} (h : rec.update p n = .ok rec') :
    rec'.heard = rec.heard := by
  unfold update at h
  split at h
  · obtain rfl := Except.ok.inj h
    exact heard_withSeq _
  · cases hp : p.applyPatch rec.state n.patch with
    | error e =>
      rw [hp] at h
      cases h
    | ok next =>
      rw [hp] at h
      obtain rfl := Except.ok.inj h
      rfl
  · split at h
    · obtain rfl := Except.ok.inj h
      split
      · rfl
      · rfl
    · next reducer _ =>
      cases hr : n.events.foldlM reducer rec.state with
      | error e =>
        rw [hr] at h
        cases h
      | ok next =>
        rw [hr] at h
        obtain rfl := Except.ok.inj h
        exact heard_withSeq _
  · obtain rfl := Except.ok.inj h
    rfl

/-- **A notification that does not get to the listener changes nothing**, and one that does
is heard. -/
theorem heard_apply :
    (rec.reached p n = false → (rec.apply p n).1 = rec)
      ∧ (rec.reached p n = true →
        (rec.apply p n).1.heard.length = rec.heard.length + 1) := by
  unfold reached apply
  cases ht : rec.tombstoned with
  | true => exact ⟨fun _ => rfl, fun h => absurd h (by simp)⟩
  | false =>
    cases hu : rec.update p n with
    | error e => exact ⟨fun _ => rfl, fun h => absurd h (by simp)⟩
    | ok rec' =>
      refine ⟨fun h => absurd h (by simp), fun _ => ?_⟩
      show (rec'.heard ++ [rec'.state]).length = _
      rw [List.length_append, heard_update hu]
      rfl

theorem length_heard_le_receive (ns : List (EventNotification V)) :
    rec.heard.length ≤ (rec.receive p ns).heard.length := by
  induction ns generalizing rec with
  | nil => exact Nat.le_refl _
  | cons n ns ih =>
    refine Nat.le_trans ?_ (@ih (rec.apply p n).1)
    cases hr : rec.reached p n with
    | false => exact Nat.le_of_eq (congrArg (·.heard.length) (heard_apply.1 hr)).symm
    | true =>
      rw [heard_apply.2 hr]
      exact Nat.le_succ _

/-- **Notifications leave a record as it is when none of them would get to its listener**,
and only then. -/
theorem receive_eq_self_iff :
    rec.receive p ns = rec ↔ ns.all (fun m => !rec.reached p m) = true := by
  induction ns with
  | nil => exact ⟨fun _ => rfl, fun _ => rfl⟩
  | cons n ns ih =>
    show ((rec.apply p n).1.receive p ns = rec) ↔ _
    rw [List.all_cons, Bool.and_eq_true, Bool.not_eq_true']
    cases hr : rec.reached p n with
    | false =>
      rw [heard_apply.1 hr, ih]
      exact ⟨fun h => ⟨rfl, h⟩, And.right⟩
    | true =>
      refine ⟨fun h => ?_, fun h => absurd h.1 (by simp)⟩
      have hle := (rec.apply p n).1.length_heard_le_receive (p := p) ns
      rw [h, heard_apply.2 hr] at hle
      omega

/-- **The loop of `flushBuffered` does what it is for if nothing is lost**, and only then. -/
theorem applyAll_eq_receive_iff :
    rec.applyAll p ns = rec.receive p ns ↔ rec.losesNone p ns = true := by
  induction ns generalizing rec with
  | nil => exact ⟨fun _ => rfl, fun _ => rfl⟩
  | cons n ns ih =>
    rw [applyAll, losesNone]
    show _ = (rec.apply p n).1.receive p ns ↔ _
    split
    · rw [eq_comm]
      exact receive_eq_self_iff
    · exact ih

end LiveRecord

/-! ## The buffer

Until the registration everything for the id is buffered, in order, and
nothing else happens to the entry as long as it is within its time. -/

namespace LiveSubscriptions

variable {p} {s t : LiveSubscriptions V} {id : String} {e : StreamEvent V}
  {es : List (StreamEvent V)}

/-- What waits for the record. -/
def buffered (s : LiveSubscriptions V) (id : String) : List (EventNotification V) :=
  ((s.pending id).map EarlyBuffer.entries).getD []

theorem eq_notify_of_notificationOf {n : EventNotification V} (h : e.notificationOf id = some n) :
    ∃ now, e = .notify now n ∧ n.subscriptionId = id := by
  cases e with
  | register id' reducer listener => exact absurd h (by simp [StreamEvent.notificationOf])
  | notify now m =>
    obtain ⟨hid, hm⟩ := Option.ite_none_right_eq_some.mp h
    obtain rfl := Option.some.inj hm
    exact ⟨now, rfl, hid⟩

theorem notificationsOf_cons_none (h : e.notificationOf id = none)
    (es : List (StreamEvent V)) : notificationsOf id (e :: es) = notificationsOf id es :=
  List.filterMap_cons_none h

theorem notificationsOf_cons_some {n : EventNotification V} (h : e.notificationOf id = some n)
    (es : List (StreamEvent V)) :
    notificationsOf id (e :: es) = n :: notificationsOf id es := List.filterMap_cons_some h

theorem swept_of_none {now : ℤ} (h : s.pending id = none) : s.swept now id = none := by
  rw [swept, h]
  rfl

theorem pending_bufferEarly_ne {now : ℤ} {n : EventNotification V}
    (h : n.subscriptionId ≠ id) : (s.bufferEarly now n).pending id = s.swept now id := by
  rw [bufferEarly]
  exact Function.update_of_ne (Ne.symm h) _ _

theorem pending_bufferEarly_self {now : ℤ} {n : EventNotification V} :
    (s.bufferEarly now n).pending n.subscriptionId
      = some (((s.swept now n.subscriptionId).getD ⟨[], now⟩).push n) := by
  rw [bufferEarly]
  exact Function.update_self _ _ _

theorem apply_of_none {now : ℤ} {n : EventNotification V}
    (h : s.subs n.subscriptionId = none) : s.apply p now n = s.bufferEarly now n := by
  rw [apply, h]

theorem apply_of_some {now : ℤ} {n : EventNotification V} {rec : LiveRecord V}
    (h : s.subs n.subscriptionId = some rec) :
    s.apply p now n
      = { s with subs := update s.subs n.subscriptionId (some (rec.apply p n).1) } := by
  rw [apply, h]

/-- **An event that is not for `id`** leaves its record as it is, and its buffer while it
lives. -/
theorem next_of_ne (hn : e.notificationOf id = none) (hr : e.registers id = false) :
    (s.next p e).subs id = s.subs id
      ∧ ((s.next p e).pending id = s.pending id
        ∨ ∃ now n, e = .notify now n ∧ (s.next p e).pending id = s.swept now id) := by
  cases e with
  | notify now n =>
    have hne : n.subscriptionId ≠ id := by simpa [StreamEvent.notificationOf] using hn
    show (s.apply p now n).subs id = s.subs id
      ∧ ((s.apply p now n).pending id = s.pending id ∨ ∃ now' n',
        StreamEvent.notify now n = .notify now' n' ∧ (s.apply p now n).pending id = s.swept now' id)
    cases hrec : s.subs n.subscriptionId with
    | none =>
      rw [apply_of_none hrec]
      exact ⟨rfl, .inr ⟨now, n, rfl, pending_bufferEarly_ne hne⟩⟩
    | some rec =>
      rw [apply_of_some hrec]
      exact ⟨Function.update_of_ne (Ne.symm hne) _ _, .inl rfl⟩
  | register id' reducer listener =>
    have hne : id ≠ id' := Ne.symm (by simpa [StreamEvent.registers] using hr)
    have hsubs : (s.preRegister id' reducer listener).subs id = s.subs id :=
      Function.update_of_ne hne _ _
    have hflush : ((s.preRegister id' reducer listener).flushBuffered p id').subs id = s.subs id
        ∧ ((s.preRegister id' reducer listener).flushBuffered p id').pending id
          = s.pending id := by
      unfold flushBuffered
      cases (s.preRegister id' reducer listener).pending id' with
      | none => exact ⟨hsubs, rfl⟩
      | some buf =>
        exact ⟨(Function.update_of_ne hne _ _).trans hsubs, Function.update_of_ne hne _ _⟩
    exact ⟨hflush.1, .inl hflush.2⟩

theorem pending_next_of_ne (hn : e.notificationOf id = none) (hr : e.registers id = false)
    (hp : s.pending id = none) : (s.next p e).pending id = none := by
  obtain hp' | ⟨now, n, -, hp'⟩ := (next_of_ne (p := p) (s := s) hn hr).2
  · exact hp'.trans hp
  · rw [hp', swept_of_none hp]

/-- `preRegister`, the listener and `flushBuffered`. -/
theorem next_register (id : String) (reducer : Option (EsReducer V))
    (listener : StateListener V) :
    (s.next p (.register id reducer listener)).subs id
        = some ((LiveRecord.new reducer listener).applyAll p (s.buffered id))
      ∧ (s.next p (.register id reducer listener)).pending id = none := by
  have hsubs : (s.preRegister id reducer listener).subs id
      = some (LiveRecord.new reducer listener) := Function.update_self _ _ _
  have hpending : (s.preRegister id reducer listener).pending id = s.pending id := rfl
  show ((s.preRegister id reducer listener).flushBuffered p id).subs id = _
    ∧ ((s.preRegister id reducer listener).flushBuffered p id).pending id = none
  unfold flushBuffered buffered
  rw [hpending]
  cases hp : s.pending id with
  | none => exact ⟨hsubs, hp⟩
  | some buf =>
    refine ⟨?_, Function.update_self _ _ _⟩
    show update _ id _ id = _
    rw [Function.update_self, hsubs]
    rfl

/-- **While the buffer lives, all that arrives is buffered.** -/
theorem after_of_buffer {buf : EarlyBuffer V} (hs : s.subs id = none)
    (hbuf : s.pending id = some buf) (httl : WithinTtl buf.since es)
    (hreg : ∀ e ∈ es, e.registers id = false) :
    (s.after p es).buffered id = buf.entries ++ notificationsOf id es := by
  induction es generalizing s buf with
  | nil =>
    show s.buffered id = buf.entries ++ []
    rw [buffered, hbuf, List.append_nil]
    rfl
  | cons e es ih =>
    obtain ⟨hr, hrestreg⟩ := List.forall_mem_cons.mp hreg
    have hrest : WithinTtl buf.since es := fun now n hm => httl now n (List.mem_cons_of_mem _ hm)
    have hlives : ∀ now n, e = .notify now n → s.swept now id = some buf := fun now n he => by
      have hle := httl now n (he ▸ List.mem_cons_self)
      rw [swept, hbuf, Option.filter_some, if_pos (decide_eq_true hle)]
    show ((s.next p e).after p es).buffered id = _
    cases hn : e.notificationOf id with
    | none =>
      obtain ⟨hsubs, hpending⟩ := next_of_ne (p := p) (s := s) hn hr
      have hpending : (s.next p e).pending id = some buf := by
        rcases hpending with hp | ⟨now, n, he, hp⟩
        · exact hp.trans hbuf
        · exact hp.trans (hlives now n he)
      rw [ih (hsubs.trans hs) hpending hrest hrestreg, notificationsOf_cons_none hn]
    | some n =>
      obtain ⟨now, rfl, rfl⟩ := eq_notify_of_notificationOf hn
      have happly : s.next p (.notify now n) = s.bufferEarly now n := apply_of_none hs
      have hpending : (s.next p (.notify now n)).pending n.subscriptionId
          = some (buf.push n) := by
        rw [happly, pending_bufferEarly_self, hlives now n rfl]
        rfl
      have hsubs : (s.next p (.notify now n)).subs n.subscriptionId = none := by
        rw [happly]
        exact hs
      rw [ih hsubs hpending hrest hrestreg, notificationsOf_cons_some hn]
      exact List.append_assoc _ _ _

/-- **All that arrives before the record is buffered**, within the time to live. -/
theorem buffered_after (hs : s.subs id = none) (hp : s.pending id = none)
    (httl : ArrivesInTime id es) (hreg : ∀ e ∈ es, e.registers id = false) :
    (s.after p es).buffered id = notificationsOf id es := by
  induction es generalizing s with
  | nil =>
    show s.buffered id = []
    rw [buffered, hp]
    rfl
  | cons e es ih =>
    obtain ⟨hr, hrestreg⟩ := List.forall_mem_cons.mp hreg
    show ((s.next p e).after p es).buffered id = _
    cases hn : e.notificationOf id with
    | none =>
      have hsubs := (next_of_ne (p := p) (s := s) hn hr).1.trans hs
      have htail : ArrivesInTime id es := by
        cases e with
        | register id' reducer listener => exact httl
        | notify now n =>
          rw [ArrivesInTime, if_neg (by simpa [StreamEvent.notificationOf] using hn)] at httl
          exact httl
      rw [ih hsubs (pending_next_of_ne hn hr hp) htail hrestreg, notificationsOf_cons_none hn]
    | some n =>
      obtain ⟨now, rfl, rfl⟩ := eq_notify_of_notificationOf hn
      have happly : s.next p (.notify now n) = s.bufferEarly now n := apply_of_none hs
      have hpending : (s.next p (.notify now n)).pending n.subscriptionId
          = some ⟨[n], now⟩ := by
        rw [happly, pending_bufferEarly_self, swept_of_none hp]
        rfl
      have hsubs : (s.next p (.notify now n)).subs n.subscriptionId = none := by
        rw [happly]
        exact hs
      rw [ArrivesInTime, if_pos rfl] at httl
      rw [after_of_buffer hsubs hpending httl hrestreg, notificationsOf_cons_some hn]
      rfl

/-! ## The record in the table -/

/-- **A record that is there receives all that arrives.** -/
theorem subs_after {rec : LiveRecord V} (hs : s.subs id = some rec)
    (hreg : ∀ e ∈ es, e.registers id = false) :
    (s.after p es).subs id = some (rec.receive p (notificationsOf id es)) := by
  induction es generalizing s rec with
  | nil => exact hs
  | cons e es ih =>
    obtain ⟨hr, hrestreg⟩ := List.forall_mem_cons.mp hreg
    show ((s.next p e).after p es).subs id = _
    cases hn : e.notificationOf id with
    | none =>
      rw [ih ((next_of_ne hn hr).1.trans hs) hrestreg, notificationsOf_cons_none hn]
    | some n =>
      obtain ⟨now, rfl, rfl⟩ := eq_notify_of_notificationOf hn
      have hnext : (s.next p (.notify now n)).subs n.subscriptionId
          = some (rec.apply p n).1 := by
        show (s.apply p now n).subs n.subscriptionId = _
        rw [apply_of_some hs]
        exact Function.update_self _ _ _
      rw [ih hnext hrestreg, notificationsOf_cons_some hn]
      rfl

/-- What an event makes of a record, where there is no buffer for it. -/
theorem exists_next (rec : LiveRecord V) (id : String) (e : StreamEvent V) :
    ∃ rec', ∀ s : LiveSubscriptions V, s.subs id = some rec → s.pending id = none →
      (s.next p e).subs id = some rec' ∧ (s.next p e).pending id = none := by
  cases hr : e.registers id with
  | true =>
    cases e with
    | notify now n => exact absurd hr (by simp [StreamEvent.registers])
    | register id' reducer listener =>
      obtain rfl : id' = id := by simpa [StreamEvent.registers] using hr
      refine ⟨.new reducer listener, fun s _ hp => ?_⟩
      have hnext := s.next_register (p := p) id' reducer listener
      rw [buffered, hp] at hnext
      exact hnext
  | false =>
    cases hn : e.notificationOf id with
    | none =>
      exact ⟨rec, fun s hs hp => ⟨(s.next_of_ne hn hr).1.trans hs, pending_next_of_ne hn hr hp⟩⟩
    | some n =>
      obtain ⟨now, rfl, rfl⟩ := eq_notify_of_notificationOf hn
      refine ⟨(rec.apply p n).1, fun s hs hp => ?_⟩
      show (s.apply p now n).subs _ = _ ∧ (s.apply p now n).pending _ = none
      rw [apply_of_some hs]
      exact ⟨Function.update_self _ _ _, hp⟩

/-- **Without a buffer for it, what becomes of a record goes by the record alone.** -/
theorem subs_after_congr {rec : LiveRecord V} (hs : s.subs id = some rec)
    (hps : s.pending id = none) (ht : t.subs id = some rec) (hpt : t.pending id = none)
    (es : List (StreamEvent V)) : (s.after p es).subs id = (t.after p es).subs id := by
  induction es generalizing s t rec with
  | nil => exact hs.trans ht.symm
  | cons e es ih =>
    obtain ⟨rec', hnext⟩ := exists_next (p := p) rec id e
    obtain ⟨hs', hps'⟩ := hnext s hs hps
    obtain ⟨ht', hpt'⟩ := hnext t ht hpt
    exact ih hs' hps' ht' hpt'

/-- No buffer is made for a record that is there. -/
theorem pending_after {rec : LiveRecord V} (hs : s.subs id = some rec)
    (hp : s.pending id = none) (es : List (StreamEvent V)) :
    (s.after p es).pending id = none := by
  induction es generalizing s rec with
  | nil => exact hp
  | cons e es ih =>
    obtain ⟨rec', hnext⟩ := exists_next (p := p) rec id e
    obtain ⟨hs', hp'⟩ := hnext s hs hp
    exact ih hs' hp'

theorem after_append (es es' : List (StreamEvent V)) :
    s.after p (es ++ es') = (s.after p es).after p es' := List.foldl_append

/-- **It makes no difference that notifications came before the record**, to the record and
to what its listener sees, then and later: if, after the first of them that throws, none
would have got to the listener, and not otherwise. -/
theorem flushBuffered_transparent (p : NotificationPlatform V) (id : String)
    (reducer : Option (EsReducer V)) (listener : StateListener V) (es : List (StreamEvent V))
    (hreg : ∀ e ∈ es, e.registers id = false) (httl : ArrivesInTime id es) :
    (∀ rest, (init.after p (es ++ .register id reducer listener :: rest)).subs id
        = (init.after p (.register id reducer listener :: (es ++ rest))).subs id)
      ↔ (LiveRecord.new reducer listener).losesNone p (notificationsOf id es) = true := by
  obtain ⟨hearly, hp⟩ := (init.after p es).next_register (p := p) id reducer listener
  obtain ⟨hnew, hpnew⟩ := init.next_register (p := p) id reducer listener
  rw [buffered_after rfl rfl httl hreg] at hearly
  have hdirect := subs_after (p := p) hnew hreg
  have hpdirect := pending_after (p := p) hnew hpnew es
  have hsplit : ∀ rest, (init.after p (es ++ .register id reducer listener :: rest))
      = ((init.after p es).next p (.register id reducer listener)).after p rest := fun rest =>
    after_append es _
  have hsplit' : ∀ rest, (init.after p (.register id reducer listener :: (es ++ rest)))
      = ((init.next p (.register id reducer listener)).after p es).after p rest := fun rest =>
    after_append es rest
  rw [← LiveRecord.applyAll_eq_receive_iff]
  constructor
  · intro h
    have hnow := h []
    rw [hsplit, hsplit'] at hnow
    exact Option.some.inj (hearly.symm.trans (hnow.trans hdirect))
  · intro h rest
    rw [hsplit, hsplit']
    exact subs_after_congr (h ▸ hearly) hp hdirect hpdirect rest

end LiveSubscriptions

/-! ### A patch that comes before the state -/

namespace LiveSubscriptions

/-- A patch of a number is added to it, and throws where there is none. -/
def adding : NotificationPlatform ℕ where
  applyPatch state ops :=
    match state with
    | none => .error ()
    | some n => .ok (some (n + ops.sum))
  bigInt _ := .error ()

def snapshotOf (id : String) (n : ℕ) : EventNotification ℕ := ⟨id, .snapshot, some n, [], [], none⟩

def patchOf (id : String) (n : ℕ) : EventNotification ℕ := ⟨id, .patch, none, [n], [], none⟩

/-- Notifications for two subscriptions, in order. -/
def inOrder : List (StreamEvent ℕ) :=
  [.notify 0 (snapshotOf "b" 1), .notify 10 (snapshotOf "a" 5), .notify 20 (patchOf "b" 1),
    .notify 30 (patchOf "a" 2)]

/-- The state, and a patch before it. -/
def patchFirst : List (StreamEvent ℕ) :=
  [.notify 0 (patchOf "a" 2), .notify 10 (snapshotOf "a" 5)]

theorem flushBuffered_transparent_inOrder :
    (init.after adding (inOrder ++ .register "a" none (fun _ _ => .ok ())
        :: [.notify 40 (patchOf "a" 3)])).subs "a"
      = (init.after adding (.register "a" none (fun _ _ => .ok ())
        :: (inOrder ++ [.notify 40 (patchOf "a" 3)]))).subs "a" := by
  have httl : ArrivesInTime "a" inOrder := fun now n hm => by
    simp [pendingTtlMs] at hm ⊢
    omega
  exact (flushBuffered_transparent adding "a" none (fun _ _ => .ok ()) inOrder (by decide)
    httl).mpr rfl _

theorem not_flushBuffered_transparent :
    (init.after adding (patchFirst ++ [.register "a" none (fun _ _ => .ok ())])).subs "a"
      ≠ (init.after adding (.register "a" none (fun _ _ => .ok ()) :: patchFirst)).subs "a" := by
  intro h
  have hstate := congrArg (Option.map LiveRecord.state) h
  exact absurd hstate (by decide)

end LiveSubscriptions
