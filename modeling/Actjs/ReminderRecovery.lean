import Actjs.JsonText
import Actjs.Transition
import Mathlib.Data.List.Sort
import Mathlib.Data.List.TakeWhile

/-!
# Reminders in Postgres and Valkey

The ValkeyPg driver keeps a reminder twice: as a row of the table `reminder`,
which is durable, and as a member of a ZSET, from which it is popped. `init`
adds the member of every row that is not marked delivered again, and relies
on the ZADD of a member that is there being a no-op.

A member is the text of the reminder. `enqueueReminder` writes the text of
the message it is given, `recoverReminders` that of the row it reads, and a
row does not return the message as it was: `jsonb` keeps an object without
the order of its keys, a `uuid` column has one spelling for each value. When
the two texts differ the recovered member is a second one, and the reminder
is delivered twice.

What the columns return is a parameter. Nothing is assumed about it here:
the condition is that a message comes back with the text it had.
-/

open Function (update)

/-! ## Messages and their texts -/

/-- `ReminderMsg`. -/
structure ReminderMsg where
  actorId : String
  className : String
  type : String
  payload : Json

/-- What the columns of the table return for what was stored in them, and the
order of two members of equal score, that of their bytes. -/
structure Columns where
  uuid : String → String
  jsonb : Json → Json
  memberBefore : Json → Json → Bool

/-- `{ id, msg }`. -/
def envelope (id : String) (msg : ReminderMsg) : Json :=
  .obj [("id", .str id), ("msg", .obj [("actorId", .str msg.actorId),
    ("className", .str msg.className), ("type", .str msg.type),
    ("payload", msg.payload)])]

/-- `JSON.stringify({ id, msg })`. -/
def member (id : String) (msg : ReminderMsg) : Json :=
  (envelope id msg).stringify.getD .null

/-- `JSON.parse(m).id`. -/
def memberId (m : Json) : Option String :=
  match m.get? "id" with
  | some (.str id) => some id
  | _ => none

/-- A row of the table `reminder`, as it is read back. -/
structure ReminderRecord where
  id : String
  whenMs : ℤ
  msg : ReminderMsg
  /-- `delivered_at IS NOT NULL`. -/
  delivered : Bool

/-- The row `enqueueReminder` inserts: the payload is bound as a text, and a
column that is `NOT NULL` has none for `undefined`. -/
def Columns.insert (c : Columns) (id : String) (whenMs : ℤ) (msg : ReminderMsg) :
    Option ReminderRecord :=
  msg.payload.stringify.map (fun t =>
    ⟨id, whenMs, { msg with actorId := c.uuid msg.actorId, payload := c.jsonb t },
      false⟩)

/-- **The message comes back with the text it had.** -/
def Columns.Keeps (c : Columns) (msg : ReminderMsg) : Prop :=
  c.uuid msg.actorId = msg.actorId
    ∧ ∀ t, msg.payload.stringify = some t → (c.jsonb t).stringify = some t

/-! ## The ZSET -/

/-- A ZSET: its members with their scores. -/
abbrev Zset := List (Json × ℤ)

/-- `ZADD`: a member that is there gets the score. -/
def addMember (z : Zset) (m : Json) (score : ℤ) : Zset :=
  if m ∈ z.map Prod.fst then
    z.map (fun e => if e.fst = m then (m, score) else e)
  else z ++ [(m, score)]

/-- The order of a ZSET: by score, and by the bytes of the members. -/
def Columns.Before (c : Columns) (a b : Json × ℤ) : Prop :=
  a.snd < b.snd ∨ a.snd = b.snd ∧ c.memberBefore a.fst b.fst = true

instance (c : Columns) : DecidableRel c.Before := by
  intro a b
  unfold Columns.Before
  infer_instance

/-- The members `ZRANGEBYSCORE … LIMIT 0 limit` returns. -/
def Columns.zRange (c : Columns) (z : Zset) (now : ℤ) (limit : ℕ) : List Json :=
  (((z.insertionSort c.Before).takeWhile (fun e => e.snd ≤ now)).take limit).map
    Prod.fst

/-- `ZREM`. -/
def zRem (z : Zset) (ms : List Json) : Zset :=
  z.filter (fun e => e.fst ∉ ms)

/-! ## The driver -/

/-- Where a call of the driver is. -/
inductive ReminderPc where
  /-- `enqueueReminder` has inserted the row and not added the member. -/
  | inserted (id : String) (whenMs : ℤ) (msg : ReminderMsg)
  /-- `popDueReminders` has taken members and not marked their rows. -/
  | popped (members : List Json)
  | done

/-- The two stores and the calls of the driver of one process. -/
structure ReminderStores where
  rows : List ReminderRecord
  zset : Zset
  calls : ℕ → Option ReminderPc
  /-- The ids of the messages `popDueReminders` has handed over. -/
  delivered : List String

namespace ReminderStores

/-- No reminders, and a process that has made no calls. -/
def empty : ReminderStores where
  rows := []
  zset := []
  calls := fun _ => none
  delivered := []

/-- `recoverReminders`, of the rows it has read. -/
def recover (z : Zset) (rows : List ReminderRecord) : Zset :=
  rows.foldl (fun z r => addMember z (member r.id r.msg) r.whenMs) z

/-- The rows `recoverReminders` reads. -/
def undelivered (s : ReminderStores) : List ReminderRecord :=
  s.rows.filter (fun r => !r.delivered)

/-- `UPDATE reminder SET delivered_at = now() WHERE id = ANY(…)`. -/
def markDelivered (rows : List ReminderRecord) (ids : List String) :
    List ReminderRecord :=
  rows.map (fun r => if r.id ∈ ids then { r with delivered := true } else r)

end ReminderStores

/-- What can happen next. -/
inductive ReminderAct where
  /-- `enqueueReminder` is called with a message, and its row is inserted
  under a new id. -/
  | insert (q : ℕ) (id : String) (whenMs : ℤ) (msg : ReminderMsg)
  /-- The member is added. -/
  | zAdd (q : ℕ)
  /-- It is not: the command fails, and the call throws. -/
  | zAddFails (q : ℕ)
  /-- `popDueReminders` is called, and the script has run. -/
  | pop (q : ℕ) (now : ℤ) (limit : ℕ)
  /-- The rows are marked, and the messages handed over. -/
  | mark (q : ℕ)
  /-- They are not: the statement fails, and the call throws. -/
  | markFails (q : ℕ)
  /-- The process ends, with every call it has not finished, and the `init`
  of the next one has recovered the reminders. -/
  | init
  /-- The process ends, and so does the next one when it has recovered the
  first `n` of them. -/
  | initFails (n : ℕ)

namespace ReminderStores

/-- One step of the driver. -/
def step (c : Columns) (s : ReminderStores) :
    ReminderAct → Option ReminderStores
  | .insert q id whenMs msg =>
    match c.insert id whenMs msg with
    | none => none
    | some r =>
      -- `randomUUID` returns an id that is new, as the column spells it.
      if (s.calls q).isNone ∧ id ∉ s.rows.map ReminderRecord.id
          ∧ c.uuid id = id then
        some { s with
          rows := s.rows ++ [r],
          calls := update s.calls q (some (.inserted id whenMs msg)) }
      else none
  | .zAdd q =>
    match s.calls q with
    | some (.inserted id whenMs msg) =>
      some { s with
        zset := addMember s.zset (member id msg) whenMs,
        calls := update s.calls q (some .done) }
    | _ => none
  | .zAddFails q =>
    match s.calls q with
    | some (.inserted _ _ _) =>
      some { s with calls := update s.calls q (some .done) }
    | _ => none
  | .pop q now limit =>
    if (s.calls q).isNone then
      let ms := c.zRange s.zset now limit
      some { s with
        zset := zRem s.zset ms,
        calls := update s.calls q
          (some (if ms = [] then .done else .popped ms)) }
    else none
  | .mark q =>
    match s.calls q with
    | some (.popped ms) =>
      some { s with
        rows := markDelivered s.rows (ms.filterMap memberId),
        calls := update s.calls q (some .done),
        delivered := s.delivered ++ ms.filterMap memberId }
    | _ => none
  | .markFails q =>
    match s.calls q with
    | some (.popped _) =>
      some { s with calls := update s.calls q (some .done) }
    | _ => none
  | .init =>
    some { s with
      zset := recover s.zset s.undelivered, calls := fun _ => none }
  | .initFails n =>
    some { s with
      zset := recover s.zset (s.undelivered.take n), calls := fun _ => none }

end ReminderStores

/-! ## What a member says

A member is a text, and the text determines the reminder; so two members are
the same if and only if their texts are. -/

theorem member_eq (id : String) (msg : ReminderMsg) :
    member id msg = .obj [("id", .str id), ("msg", .obj
      ([("actorId", .str msg.actorId), ("className", .str msg.className),
        ("type", .str msg.type)]
        ++ (msg.payload.stringify.map (fun t => ("payload", t))).toList))] := by
  simp [member, envelope]

@[simp] theorem memberId_member (id : String) (msg : ReminderMsg) :
    memberId (member id msg) = some id := by
  rw [member_eq]
  rfl

/-- A member is the text of the message, so it determines it up to what has
no text. -/
theorem member_inj {id id' : String} {msg msg' : ReminderMsg} :
    member id msg = member id' msg' ↔
      id = id' ∧ msg.actorId = msg'.actorId ∧ msg.className = msg'.className
        ∧ msg.type = msg'.type
        ∧ msg.payload.stringify = msg'.payload.stringify := by
  rw [member_eq, member_eq]
  constructor
  · intro h
    simp only [Json.obj.injEq, List.cons.injEq, Prod.mk.injEq, Json.str.injEq,
      List.cons_append, List.nil_append, true_and, and_true] at h
    obtain ⟨hid, ha, hc, ht, hp⟩ := h
    refine ⟨hid, ha, hc, ht, ?_⟩
    cases hv : msg.payload.stringify <;> cases hw : msg'.payload.stringify
    · rfl
    · rw [hv, hw] at hp
      cases hp
    · rw [hv, hw] at hp
      cases hp
    · rw [hv, hw] at hp
      simpa using hp
  · rintro ⟨rfl, ha, hc, ht, hp⟩
    rw [ha, hc, ht, hp]

/-- The member `recoverReminders` writes for a row. -/
def recordMember (r : ReminderRecord) : Json := member r.id r.msg

theorem Columns.insert_eq {c : Columns} {id : String} {whenMs : ℤ}
    {msg : ReminderMsg} {r : ReminderRecord}
    (h : c.insert id whenMs msg = some r) :
    r.id = id ∧ r.whenMs = whenMs ∧ r.delivered = false
      ∧ ∃ t, msg.payload.stringify = some t
        ∧ r.msg = { msg with
            actorId := c.uuid msg.actorId, payload := c.jsonb t } := by
  obtain ⟨t, ht, rfl⟩ := Option.map_eq_some_iff.mp h
  exact ⟨rfl, rfl, rfl, t, ht, rfl⟩

/-- **A message that comes back with the text it had has one member.** -/
theorem Columns.insert_member_iff {c : Columns} {id : String} {whenMs : ℤ}
    {msg : ReminderMsg} {r : ReminderRecord}
    (h : c.insert id whenMs msg = some r) :
    recordMember r = member id msg ↔ c.Keeps msg := by
  obtain ⟨hid, -, -, t, ht, hmsg⟩ := insert_eq h
  rw [recordMember, member_inj, hmsg, Keeps, ht]
  constructor
  · rintro ⟨-, ha, -, -, hp⟩
    refine ⟨ha, fun t' ht' => ?_⟩
    cases ht'
    exact hp
  · rintro ⟨ha, hp⟩
    exact ⟨hid, ha, rfl, rfl, hp t rfl⟩

/-! ## Adding to a ZSET -/

theorem addMember_members (z : Zset) (m : Json) (score : ℤ) :
    (addMember z m score).map Prod.fst
      = if m ∈ z.map Prod.fst then z.map Prod.fst else z.map Prod.fst ++ [m] := by
  unfold addMember
  split
  · rw [List.map_map]
    refine List.map_congr_left (fun e _ => ?_)
    show (if e.fst = m then (m, score) else e).fst = e.fst
    split
    · next h => exact h.symm
    · rfl
  · rw [List.map_append]
    rfl

theorem mem_of_mem_addMember {z : Zset} {m : Json} {score : ℤ} {e : Json × ℤ}
    (h : e ∈ addMember z m score) : e ∈ z ∨ e = (m, score) := by
  unfold addMember at h
  split at h
  · obtain ⟨e', he', heq⟩ := List.mem_map.mp h
    split at heq
    · exact .inr heq.symm
    · exact .inl (heq ▸ he')
  · simpa using h

theorem mem_addMember (z : Zset) (m : Json) (score : ℤ) :
    m ∈ (addMember z m score).map Prod.fst := by
  rw [addMember_members]
  split
  · next h => exact h
  · exact List.mem_append_right _ List.mem_cons_self

theorem mem_addMember_of_mem {z : Zset} {m m' : Json} {score : ℤ}
    (h : m' ∈ z.map Prod.fst) : m' ∈ (addMember z m score).map Prod.fst := by
  rw [addMember_members]
  split
  · exact h
  · exact List.mem_append_left _ h

theorem nodup_addMember {z : Zset} {m : Json} {score : ℤ}
    (h : (z.map Prod.fst).Nodup) : ((addMember z m score).map Prod.fst).Nodup := by
  rw [addMember_members]
  split
  · exact h
  · next hm => exact List.nodup_append.mpr ⟨h, List.nodup_singleton m,
      fun a ha b hb hab => hm (List.mem_singleton.mp hb ▸ hab ▸ ha)⟩

namespace ReminderStores

theorem mem_recover_of_mem {m : Json} :
    ∀ {rs : List ReminderRecord} {z : Zset}, m ∈ z.map Prod.fst →
      m ∈ (recover z rs).map Prod.fst
  | [], _, h => h
  | _ :: rs, _, h => @mem_recover_of_mem m rs _ (mem_addMember_of_mem h)

/-- Every row that is read has its member after the recovery. -/
theorem mem_recover {r : ReminderRecord} :
    ∀ {rs : List ReminderRecord} {z : Zset}, r ∈ rs →
      recordMember r ∈ (recover z rs).map Prod.fst
  | r' :: rs, z, h => by
    cases List.mem_cons.mp h with
    | inl h =>
      subst h
      exact @mem_recover_of_mem _ rs _ (mem_addMember z _ _)
    | inr h => exact @mem_recover r rs _ h

theorem nodup_recover : ∀ {rs : List ReminderRecord} {z : Zset},
    (z.map Prod.fst).Nodup → ((recover z rs).map Prod.fst).Nodup
  | [], _, h => h
  | _ :: rs, _, h => @nodup_recover rs _ (nodup_addMember h)

theorem of_mem_recover {e : Json × ℤ} :
    ∀ {rs : List ReminderRecord} {z : Zset}, e ∈ recover z rs →
      e ∈ z ∨ ∃ r ∈ rs, e = (recordMember r, r.whenMs)
  | [], _, h => .inl h
  | r :: rs, z, h => by
    cases @of_mem_recover e rs _ h with
    | inl h =>
      exact (mem_of_mem_addMember h).imp id (fun h => ⟨r, List.mem_cons_self, h⟩)
    | inr h =>
      obtain ⟨r', hr', he⟩ := h
      exact .inr ⟨r', List.mem_cons_of_mem r hr', he⟩

end ReminderStores

/-! ## One place for each reminder

A row that is not delivered has one member, and that is in the ZSET or with
one call; a delivered one has none. -/

/-- The members a call has in its hands. -/
def ReminderPc.Holds : ReminderPc → Json → Prop
  | .inserted id _ msg, m => m = member id msg
  | .popped ms, m => m ∈ ms
  | .done, _ => False

namespace ReminderStores

/-- **Every reminder is in one place**: with a call, in the ZSET or handed
over – or nowhere, until the next `init`. -/
structure Consistent (s : ReminderStores) : Prop where
  ids : (s.rows.map ReminderRecord.id).Nodup
  members : (s.zset.map Prod.fst).Nodup
  /-- A member of the ZSET is that of a row which is not delivered, at its
  time. -/
  queued : ∀ e ∈ s.zset, ∃ r ∈ s.rows,
    r.delivered = false ∧ e = (recordMember r, r.whenMs)
  /-- A member that a call has popped is not in the ZSET any more. -/
  held : ∀ q pc m, s.calls q = some pc → pc.Holds m →
    m ∉ s.zset.map Prod.fst
      ∧ ∃ r ∈ s.rows, r.delivered = false ∧ m = recordMember r
  /-- No two calls have popped the same. -/
  apart : ∀ q q' pc pc' m, s.calls q = some pc → s.calls q' = some pc' →
    pc.Holds m → pc'.Holds m → q = q'
  inserted : ∀ q id whenMs msg, s.calls q = some (.inserted id whenMs msg) →
    ∃ r ∈ s.rows, r.id = id ∧ r.whenMs = whenMs
  popped : ∀ q ms, s.calls q = some (.popped ms) → ms.Nodup
  known : ∀ id ∈ s.delivered, id ∈ s.rows.map ReminderRecord.id
  /-- A row that is marked was handed over once, and no other. -/
  once : ∀ r ∈ s.rows,
    s.delivered.count r.id = if r.delivered then 1 else 0

namespace Consistent

variable {s s' : ReminderStores}

theorem empty : Consistent .empty where
  ids := List.nodup_nil
  members := List.nodup_nil
  queued _ h := absurd h List.not_mem_nil
  held _ _ _ h := nomatch h
  apart _ _ _ _ _ h := nomatch h
  inserted _ _ _ _ h := nomatch h
  popped _ _ h := nomatch h
  known _ h := absurd h List.not_mem_nil
  once _ h := absurd h List.not_mem_nil

/-- The id of a row determines it. -/
theorem row_eq (h : Consistent s) {r r' : ReminderRecord} (hr : r ∈ s.rows)
    (hr' : r' ∈ s.rows) (hid : r.id = r'.id) : r = r' :=
  List.inj_on_of_nodup_map h.ids hr hr' hid

/-- So does its member. -/
theorem row_eq_of_member (h : Consistent s) {r r' : ReminderRecord}
    (hr : r ∈ s.rows) (hr' : r' ∈ s.rows) (hm : recordMember r = recordMember r') :
    r = r' :=
  h.row_eq hr hr' (member_inj.mp hm).1

/-- A call that ends gives up what it has in its hands. -/
theorem fewerCalls (h : Consistent s) {calls : ℕ → Option ReminderPc}
    (hc : ∀ q pc, calls q = some pc → pc = .done ∨ s.calls q = some pc) :
    Consistent { s with calls := calls } where
  ids := h.ids
  members := h.members
  queued := h.queued
  held q pc m hq hm := by
    cases hc q pc hq with
    | inl hd =>
      subst hd
      exact False.elim hm
    | inr hq => exact h.held q pc m hq hm
  apart q q' pc pc' m hq hq' hm hm' := by
    cases hc q pc hq with
    | inl hd =>
      subst hd
      exact False.elim hm
    | inr hq =>
      cases hc q' pc' hq' with
      | inl hd =>
        subst hd
        exact False.elim hm'
      | inr hq' => exact h.apart q q' pc pc' m hq hq' hm hm'
  inserted q id whenMs msg hq := by
    cases hc q _ hq with
    | inl hd => cases hd
    | inr hq => exact h.inserted q id whenMs msg hq
  popped q ms hq := by
    cases hc q _ hq with
    | inl hd => cases hd
    | inr hq => exact h.popped q ms hq
  known := h.known
  once := h.once

theorem done (h : Consistent s) (q : ℕ) :
    Consistent { s with calls := update s.calls q (some .done) } := by
  refine h.fewerCalls (fun p pc hp => ?_)
  by_cases hpq : p = q
  · subst hpq
    rw [Function.update_self] at hp
    exact .inl (Option.some.inj hp).symm
  · rw [Function.update_of_ne hpq] at hp
    exact .inr hp

/-- Another ZSET whose members are of undelivered rows, that holds nothing a
call has in its hands. -/
theorem setZset (h : Consistent s) {z : Zset} (hn : (z.map Prod.fst).Nodup)
    (hz : ∀ e ∈ z, ∃ r ∈ s.rows,
      r.delivered = false ∧ e = (recordMember r, r.whenMs))
    (hh : ∀ q pc m, s.calls q = some pc → pc.Holds m → m ∉ z.map Prod.fst) :
    Consistent { s with zset := z } where
  ids := h.ids
  members := hn
  queued := hz
  held q pc m hq hm := ⟨hh q pc m hq hm, (h.held q pc m hq hm).2⟩
  apart := h.apart
  inserted := h.inserted
  popped := h.popped
  known := h.known
  once := h.once

theorem insert {c : Columns} (h : Consistent s) {q : ℕ} {id : String}
    {whenMs : ℤ} {msg : ReminderMsg} {r : ReminderRecord}
    (hr : c.insert id whenMs msg = some r) (hk : c.Keeps msg)
    (hid : id ∉ s.rows.map ReminderRecord.id) :
    Consistent { s with
      rows := s.rows ++ [r],
      calls := update s.calls q (some (.inserted id whenMs msg)) } := by
  obtain ⟨hrid, hrw, hrd, -⟩ := Columns.insert_eq hr
  have hm : recordMember r = member id msg := (Columns.insert_member_iff hr).mpr hk
  have hold : ∀ {x}, x ∈ s.rows → x ∈ s.rows ++ [r] := List.mem_append_left _
  have hnew : r ∈ s.rows ++ [r] := List.mem_append_right _ List.mem_cons_self
  -- The new member is no member of a row that is there.
  have hother : ∀ x ∈ s.rows, recordMember x ≠ member id msg := by
    intro x hx he
    exact hid ((member_inj.mp he).1 ▸ List.mem_map_of_mem hx)
  have hholds : ∀ p pc m, s.calls p = some pc → pc.Holds m → m ≠ member id msg := by
    intro p pc m hp hpm
    obtain ⟨x, hx, -, rfl⟩ := (h.held p pc m hp hpm).2
    exact hother x hx
  exact
    { ids := by
        rw [List.map_append]
        refine List.nodup_append.mpr ⟨h.ids, List.nodup_singleton _, ?_⟩
        intro a ha b hb hab
        have hb' : b = id := (List.mem_singleton.mp hb).trans hrid
        exact hid (hb' ▸ hab ▸ ha)
      members := h.members
      queued := fun e he => by
        obtain ⟨x, hx, hxe⟩ := h.queued e he
        exact ⟨x, hold hx, hxe⟩
      held := fun p pc m hp hpm => by
        replace hp : update s.calls q _ p = some pc := hp
        by_cases hpq : p = q
        · subst hpq
          rw [Function.update_self] at hp
          cases hp
          cases (hpm : m = member id msg)
          refine ⟨fun hz => ?_, r, hnew, hrd, hm.symm⟩
          obtain ⟨e, he, heq⟩ := List.mem_map.mp hz
          obtain ⟨x, hx, -, rfl⟩ := h.queued e he
          exact hother x hx heq
        · rw [Function.update_of_ne hpq] at hp
          obtain ⟨hz, x, hx, hxm⟩ := h.held p pc m hp hpm
          exact ⟨hz, x, hold hx, hxm⟩
      apart := fun p p' pc pc' m hp hp' hm hm' => by
        replace hp : update s.calls q _ p = some pc := hp
        replace hp' : update s.calls q _ p' = some pc' := hp'
        by_cases hpq : p = q <;> by_cases hpq' : p' = q
        · exact hpq.trans hpq'.symm
        · subst hpq
          rw [Function.update_self] at hp
          rw [Function.update_of_ne hpq'] at hp'
          cases hp
          exact absurd (hm : m = member id msg) (hholds p' pc' m hp' hm')
        · subst hpq'
          rw [Function.update_self] at hp'
          rw [Function.update_of_ne hpq] at hp
          cases hp'
          exact absurd (hm' : m = member id msg) (hholds p pc m hp hm)
        · rw [Function.update_of_ne hpq] at hp
          rw [Function.update_of_ne hpq'] at hp'
          exact h.apart p p' pc pc' m hp hp' hm hm'
      inserted := fun p id' w' msg' hp => by
        replace hp : update s.calls q _ p = some _ := hp
        by_cases hpq : p = q
        · subst hpq
          rw [Function.update_self] at hp
          cases hp
          exact ⟨r, hnew, hrid, hrw⟩
        · rw [Function.update_of_ne hpq] at hp
          obtain ⟨x, hx, hxi⟩ := h.inserted p id' w' msg' hp
          exact ⟨x, hold hx, hxi⟩
      popped := fun p ms hp => by
        replace hp : update s.calls q _ p = some _ := hp
        by_cases hpq : p = q
        · subst hpq
          rw [Function.update_self] at hp
          cases hp
        · rw [Function.update_of_ne hpq] at hp
          exact h.popped p ms hp
      known := fun id' hd => by
        rw [List.map_append]
        exact List.mem_append_left _ (h.known id' hd)
      once := fun x hx => by
        cases List.mem_append.mp hx with
        | inl hx => exact h.once x hx
        | inr hx =>
          cases List.mem_singleton.mp hx
          have hnot : r.id ∉ s.delivered := fun hd =>
            hid (hrid ▸ h.known r.id hd)
          rw [hrd, List.count_eq_zero_of_not_mem hnot]
          rfl }

theorem zAdd (h : Consistent s) {q : ℕ} {id : String} {whenMs : ℤ}
    {msg : ReminderMsg} (hq : s.calls q = some (.inserted id whenMs msg)) :
    Consistent { s with
      zset := addMember s.zset (member id msg) whenMs,
      calls := update s.calls q (some .done) } := by
  obtain ⟨hz, r, hr, hrd, hm⟩ := h.held q _ (member id msg) hq rfl
  obtain ⟨x, hx, hxid, hxw⟩ := h.inserted q id whenMs msg hq
  have hxr : x = r := h.row_eq hx hr (hxid.trans (member_inj.mp hm).1)
  subst hxr
  refine (h.done q).setZset (nodup_addMember h.members) (fun e he => ?_)
    (fun p pc m hp hpm hmem => ?_)
  · cases mem_of_mem_addMember he with
    | inl he => exact h.queued e he
    | inr he =>
      subst he
      exact ⟨x, hx, hrd, by rw [hm, hxw]⟩
  · replace hp : update s.calls q (some .done) p = some pc := hp
    by_cases hpq : p = q
    · subst hpq
      rw [Function.update_self] at hp
      cases hp
      exact hpm
    · rw [Function.update_of_ne hpq] at hp
      rw [addMember_members, if_neg hz] at hmem
      cases List.mem_append.mp hmem with
      | inl hmem => exact (h.held p pc m hp hpm).1 hmem
      | inr hmem =>
        cases List.mem_singleton.mp hmem
        exact hpq (h.apart p q pc _ _ hp hq hpm rfl)

theorem pop (h : Consistent s) {q : ℕ} {ms : List Json} (hn : ms.Nodup)
    (hms : ∀ m ∈ ms, m ∈ s.zset.map Prod.fst) :
    Consistent { s with
      zset := zRem s.zset ms,
      calls := update s.calls q (some (if ms = [] then .done else .popped ms)) } := by
  have hsub : ∀ m, m ∈ (zRem s.zset ms).map Prod.fst →
      m ∈ s.zset.map Prod.fst ∧ m ∉ ms := by
    intro m hm
    obtain ⟨e, he, rfl⟩ := List.mem_map.mp hm
    obtain ⟨he, hnot⟩ := List.mem_filter.mp he
    exact ⟨List.mem_map_of_mem he, by simpa using hnot⟩
  have hrem : Consistent { s with zset := zRem s.zset ms } := by
    refine h.setZset ?_ (fun e he => h.queued e (List.mem_filter.mp he).1)
      (fun p pc m hp hpm hm => (h.held p pc m hp hpm).1 (hsub m hm).1)
    exact h.members.sublist (List.filter_sublist.map Prod.fst)
  -- What the new call holds was in the ZSET, and no other call holds that.
  have hnew : ∀ m, (if ms = [] then ReminderPc.done else .popped ms).Holds m →
      m ∈ ms := by
    intro m hm
    split at hm
    · exact False.elim hm
    · exact hm
  exact
    { ids := hrem.ids
      members := hrem.members
      queued := hrem.queued
      held := fun p pc m hp hpm => by
        replace hp : update s.calls q _ p = some pc := hp
        by_cases hpq : p = q
        · subst hpq
          rw [Function.update_self] at hp
          cases hp
          have hm := hnew m hpm
          refine ⟨fun hz => (hsub m hz).2 hm, ?_⟩
          obtain ⟨e, he, rfl⟩ := List.mem_map.mp (hms m hm)
          obtain ⟨r, hr, hrd, he⟩ := h.queued e he
          exact ⟨r, hr, hrd, by rw [he]⟩
        · rw [Function.update_of_ne hpq] at hp
          exact hrem.held p pc m hp hpm
      apart := fun p p' pc pc' m hp hp' hm hm' => by
        replace hp : update s.calls q _ p = some pc := hp
        replace hp' : update s.calls q _ p' = some pc' := hp'
        by_cases hpq : p = q <;> by_cases hpq' : p' = q
        · exact hpq.trans hpq'.symm
        · subst hpq
          rw [Function.update_self] at hp
          rw [Function.update_of_ne hpq'] at hp'
          cases hp
          exact absurd (hms m (hnew m hm)) (h.held p' pc' m hp' hm').1
        · subst hpq'
          rw [Function.update_self] at hp'
          rw [Function.update_of_ne hpq] at hp
          cases hp'
          exact absurd (hms m (hnew m hm')) (h.held p pc m hp hm).1
        · rw [Function.update_of_ne hpq] at hp
          rw [Function.update_of_ne hpq'] at hp'
          exact h.apart p p' pc pc' m hp hp' hm hm'
      inserted := fun p id w msg hp => by
        replace hp : update s.calls q _ p = some _ := hp
        by_cases hpq : p = q
        · subst hpq
          rw [Function.update_self] at hp
          split at hp <;> cases hp
        · rw [Function.update_of_ne hpq] at hp
          exact h.inserted p id w msg hp
      popped := fun p ms' hp => by
        replace hp : update s.calls q _ p = some _ := hp
        by_cases hpq : p = q
        · subst hpq
          rw [Function.update_self] at hp
          split at hp <;> cases hp
          exact hn
        · rw [Function.update_of_ne hpq] at hp
          exact h.popped p ms' hp
      known := h.known
      once := h.once }

theorem recovered (h : Consistent s) {rs : List ReminderRecord}
    (hrs : ∀ r ∈ rs, r ∈ s.undelivered) :
    Consistent { s with
      zset := ReminderStores.recover s.zset rs, calls := fun _ => none } := by
  have hc : Consistent { s with calls := fun _ => none } :=
    h.fewerCalls (fun _ _ hq => nomatch hq)
  refine hc.setZset (nodup_recover h.members) (fun e he => ?_)
    (fun _ _ _ hq => nomatch hq)
  cases of_mem_recover he with
  | inl he => exact h.queued e he
  | inr he =>
    obtain ⟨r, hr, he⟩ := he
    obtain ⟨hr, hd⟩ := List.mem_filter.mp (hrs r hr)
    exact ⟨r, hr, by simpa using hd, he⟩

/-! ### Handing over -/

/-- The ids of the members a call has popped. -/
theorem mem_ids_iff (h : Consistent s) {q : ℕ} {ms : List Json}
    (hq : s.calls q = some (.popped ms)) {r : ReminderRecord} (hr : r ∈ s.rows) :
    r.id ∈ ms.filterMap memberId ↔ recordMember r ∈ ms := by
  rw [List.mem_filterMap]
  constructor
  · rintro ⟨m, hm, hid⟩
    obtain ⟨-, x, hx, -, rfl⟩ := h.held q _ m hq hm
    have hxr : x.id = r.id := by simpa [recordMember] using hid
    rwa [h.row_eq hx hr hxr] at hm
  · intro hm
    exact ⟨recordMember r, hm, memberId_member _ _⟩

theorem nodup_ids (h : Consistent s) {q : ℕ} {ms : List Json}
    (hq : s.calls q = some (.popped ms)) :
    (ms.filterMap memberId).Nodup := by
  have key : ∀ l : List Json, l.Nodup → (∀ m ∈ l, m ∈ ms) →
      (l.filterMap memberId).Nodup := by
    intro l
    induction l with
    | nil => exact fun _ _ => List.nodup_nil
    | cons m l ih =>
      intro hn hl
      obtain ⟨hml, hnl⟩ := List.nodup_cons.mp hn
      obtain ⟨-, x, hx, -, rfl⟩ := h.held q _ m hq (hl m List.mem_cons_self)
      have hxid : memberId (recordMember x) = some x.id := memberId_member _ _
      rw [List.filterMap_cons_some hxid]
      refine List.nodup_cons.mpr
        ⟨fun hid => ?_, ih hnl (fun m hm => hl m (List.mem_cons_of_mem _ hm))⟩
      obtain ⟨m', hm', hid⟩ := List.mem_filterMap.mp hid
      obtain ⟨-, y, hy, -, rfl⟩ := h.held q _ m' hq
        (hl m' (List.mem_cons_of_mem _ hm'))
      have hyx : y.id = x.id := by simpa [recordMember] using hid
      rw [h.row_eq hy hx hyx] at hm'
      exact hml hm'
  exact key ms (h.popped q ms hq) (fun _ hm => hm)

theorem mark (h : Consistent s) {q : ℕ} {ms : List Json}
    (hq : s.calls q = some (.popped ms)) :
    Consistent { s with
      rows := markDelivered s.rows (ms.filterMap memberId),
      calls := update s.calls q (some .done),
      delivered := s.delivered ++ ms.filterMap memberId } := by
  have hids : (markDelivered s.rows (ms.filterMap memberId)).map ReminderRecord.id
      = s.rows.map ReminderRecord.id := by
    rw [markDelivered, List.map_map]
    refine List.map_congr_left (fun r _ => ?_)
    show (if r.id ∈ ms.filterMap memberId then
      { r with delivered := true } else r).id = r.id
    split <;> rfl
  -- A row whose member is not popped stays as it is.
  have hkeep : ∀ r ∈ s.rows, recordMember r ∉ ms →
      r ∈ markDelivered s.rows (ms.filterMap memberId) := by
    intro r hr hm
    refine List.mem_map.mpr ⟨r, hr, ?_⟩
    rw [if_neg (fun hid => hm ((h.mem_ids_iff hq hr).mp hid))]
  have hdone := h.done q
  exact
    { ids := by
        rw [hids]
        exact h.ids
      members := h.members
      queued := fun e he => by
        obtain ⟨r, hr, hd, rfl⟩ := h.queued e he
        refine ⟨r, hkeep r hr (fun hm => ?_), hd, rfl⟩
        exact (h.held q _ _ hq hm).1 (List.mem_map_of_mem he)
      held := fun p pc m hp hpm => by
        obtain ⟨hz, r, hr, hd, rfl⟩ := hdone.held p pc m hp hpm
        refine ⟨hz, r, hkeep r hr (fun hm => ?_), hd, rfl⟩
        replace hp : update s.calls q (some .done) p = some pc := hp
        by_cases hpq : p = q
        · subst hpq
          rw [Function.update_self] at hp
          cases hp
          exact hpm
        · rw [Function.update_of_ne hpq] at hp
          exact hpq (h.apart p q pc _ _ hp hq hpm hm)
      apart := hdone.apart
      inserted := fun p id w msg hp => by
        obtain ⟨r, hr, hid, hw⟩ := hdone.inserted p id w msg hp
        refine ⟨if r.id ∈ ms.filterMap memberId then
          { r with delivered := true } else r, List.mem_map_of_mem hr, ?_⟩
        split <;> exact ⟨hid, hw⟩
      popped := hdone.popped
      known := fun id hd => by
        rw [hids]
        cases List.mem_append.mp hd with
        | inl hd => exact h.known id hd
        | inr hd =>
          obtain ⟨m, hm, hid⟩ := List.mem_filterMap.mp hd
          obtain ⟨-, r, hr, -, rfl⟩ := h.held q _ m hq hm
          have hrid : r.id = id := by simpa [recordMember] using hid
          exact hrid ▸ List.mem_map_of_mem hr
      once := fun x hx => by
        obtain ⟨r, hr, rfl⟩ := List.mem_map.mp hx
        by_cases hid : r.id ∈ ms.filterMap memberId
        · rw [if_pos hid]
          obtain ⟨-, y, hy, hd, he⟩ := h.held q _ _ hq ((h.mem_ids_iff hq hr).mp hid)
          have hrd : r.delivered = false := by
            rw [h.row_eq_of_member hr hy he]
            exact hd
          have hzero := h.once r hr
          rw [hrd, if_neg Bool.false_ne_true] at hzero
          rw [List.count_append, hzero, List.count_eq_one_of_mem (h.nodup_ids hq) hid]
          rfl
        · rw [if_neg hid, List.count_append, List.count_eq_zero_of_not_mem hid]
          exact h.once r hr }

theorem zRange_mem {c : Columns} {z : Zset} {now : ℤ} {limit : ℕ} :
    ∀ m ∈ c.zRange z now limit, m ∈ z.map Prod.fst := by
  intro m hm
  obtain ⟨e, he, rfl⟩ := List.mem_map.mp hm
  have he := (List.takeWhile_sublist _).subset ((List.take_sublist _ _).subset he)
  exact List.mem_map_of_mem ((List.perm_insertionSort c.Before z).mem_iff.mp he)

theorem zRange_nodup {c : Columns} {z : Zset} {now : ℤ} {limit : ℕ}
    (h : (z.map Prod.fst).Nodup) : (c.zRange z now limit).Nodup := by
  have hp : ((z.insertionSort c.Before).map Prod.fst).Nodup :=
    ((List.perm_insertionSort c.Before z).map Prod.fst).nodup_iff.mpr h
  exact hp.sublist
    (((List.take_sublist _ _).trans (List.takeWhile_sublist _)).map Prod.fst)

end Consistent

end ReminderStores

/-- **The condition**: a message that is enqueued comes back with the text it
had. -/
def ReminderAct.Keeps (c : Columns) : ReminderAct → Prop
  | .insert _ _ _ msg => c.Keeps msg
  | _ => True

namespace ReminderStores

variable {c : Columns} {s s' : ReminderStores}

theorem step_pop {q : ℕ} (hq : s.calls q = none) (now : ℤ) (limit : ℕ) :
    step c s (.pop q now limit) = some { s with
      zset := zRem s.zset (c.zRange s.zset now limit),
      calls := update s.calls q (some (if c.zRange s.zset now limit = [] then
        .done else .popped (c.zRange s.zset now limit))) } := by
  simp only [step, hq, Option.isNone_none, if_true]

theorem step_mark {q : ℕ} {ms : List Json}
    (hq : s.calls q = some (.popped ms)) :
    step c s (.mark q) = some { s with
      rows := markDelivered s.rows (ms.filterMap memberId),
      calls := update s.calls q (some .done),
      delivered := s.delivered ++ ms.filterMap memberId } := by
  rw [step, hq]

/-- **What one step preserves.** -/
theorem Consistent.step (h : Consistent s) {a : ReminderAct} (hk : a.Keeps c)
    (hs : ReminderStores.step c s a = some s') : Consistent s' := by
  cases a with
  | insert q id whenMs msg =>
    rw [ReminderStores.step] at hs
    split at hs
    · cases hs
    · next r hr =>
      rw [Option.ite_none_right_eq_some] at hs
      exact Option.some.inj hs.2 ▸ h.insert hr hk hs.1.2.1
  | zAdd q =>
    rw [ReminderStores.step] at hs
    split at hs
    · next hq => exact Option.some.inj hs ▸ h.zAdd hq
    · cases hs
  | zAddFails q =>
    rw [ReminderStores.step] at hs
    split at hs
    · exact Option.some.inj hs ▸ h.done q
    · cases hs
  | pop q now limit =>
    rw [ReminderStores.step, Option.ite_none_right_eq_some] at hs
    exact Option.some.inj hs.2 ▸ h.pop (zRange_nodup h.members) zRange_mem
  | mark q =>
    rw [ReminderStores.step] at hs
    split at hs
    · next hq => exact Option.some.inj hs ▸ h.mark hq
    · cases hs
  | markFails q =>
    rw [ReminderStores.step] at hs
    split at hs
    · exact Option.some.inj hs ▸ h.done q
    · cases hs
  | init => exact Option.some.inj hs ▸ h.recovered (fun _ hr => hr)
  | initFails n =>
    exact Option.some.inj hs ▸ h.recovered (fun _ hr => (List.take_sublist _ _).subset hr)

/-- **One member for each undelivered row**, after a recovery. -/
theorem Consistent.one_member (h : Consistent s) {r : ReminderRecord}
    (hr : r ∈ s.rows) (hd : r.delivered = false) :
    (recover s.zset s.undelivered).countP (fun e => memberId e.fst = some r.id)
      = 1 := by
  have hi := h.recovered (fun r (hr : r ∈ s.undelivered) => hr)
  have hmem : recordMember r ∈ (recover s.zset s.undelivered).map Prod.fst :=
    mem_recover (List.mem_filter.mpr ⟨hr, by simp [hd]⟩)
  have hcount := List.count_eq_one_of_mem hi.members hmem
  rw [List.count, List.countP_map] at hcount
  rw [← hcount]
  refine List.countP_congr (fun e he => ?_)
  obtain ⟨x, hx, -, rfl⟩ := hi.queued e he
  constructor
  · intro hid
    have hxr : x.id = r.id := by simpa [recordMember] using hid
    rw [h.row_eq hx hr hxr]
    simp
  · intro hm
    have hxr : recordMember x = recordMember r := by simpa using hm
    simpa [recordMember] using (member_inj.mp hxr).1

/-- **A recovered reminder is handed over once** when everything is popped. -/
theorem Consistent.pop_all (h : Consistent s) (hcalls : ∀ q, s.calls q = none)
    {r : ReminderRecord} (hr : r ∈ s.rows) (hd : r.delivered = false)
    (hm : recordMember r ∈ s.zset.map Prod.fst) {now : ℤ} {limit : ℕ}
    (hnow : ∀ r ∈ s.rows, r.whenMs ≤ now) (hlimit : s.zset.length ≤ limit) :
    ∃ s', TransitionSystem.run (ReminderStores.step c) s
        [.pop 0 now limit, .mark 0] = some s'
      ∧ s'.delivered.count r.id = 1 := by
  have hperm := List.perm_insertionSort c.Before s.zset
  have hall : c.zRange s.zset now limit
      = (s.zset.insertionSort c.Before).map Prod.fst := by
    rw [Columns.zRange, List.takeWhile_eq_self_iff.mpr, List.take_of_length_le]
    · rw [hperm.length_eq]
      exact hlimit
    · intro e he
      obtain ⟨x, hx, -, rfl⟩ := h.queued e (hperm.mem_iff.mp he)
      simpa using hnow x hx
  have hin : recordMember r ∈ c.zRange s.zset now limit := by
    rw [hall]
    exact (hperm.map Prod.fst).mem_iff.mpr hm
  have hne : c.zRange s.zset now limit ≠ [] := List.ne_nil_of_mem hin
  have hnodup : (c.zRange s.zset now limit).Nodup := zRange_nodup h.members
  have hp := h.pop (q := 0) hnodup zRange_mem
  have hq : update s.calls 0 (some (if c.zRange s.zset now limit = [] then
      ReminderPc.done else .popped (c.zRange s.zset now limit))) 0
      = some (.popped (c.zRange s.zset now limit)) := by
    rw [Function.update_self, if_neg hne]
  have hid := (hp.mem_ids_iff (q := 0) hq hr).mpr hin
  have hzero := h.once r hr
  rw [hd, if_neg Bool.false_ne_true] at hzero
  rw [TransitionSystem.run_cons, step_pop (hcalls 0), Option.bind_some,
    TransitionSystem.run_cons, step_mark (q := 0) hq, Option.bind_some,
    TransitionSystem.run_nil]
  refine ⟨_, rfl, ?_⟩
  show (s.delivered ++ _).count r.id = 1
  rw [List.count_append, hzero, List.count_eq_one_of_mem (hp.nodup_ids (q := 0) hq) hid]

/-- **Recovery adds no duplicates**, if every message that is enqueued comes
back with the text it had. No reminder is handed over twice, and none that is
marked was not handed over. After the next `init` every undelivered reminder
has one member, and popping what is due then hands it over, once. -/
theorem recover_once {as : List ReminderAct}
    (hk : TransitionSystem.Along (ReminderStores.step c) (fun _ a => a.Keeps c)
      .empty as)
    (hrun : TransitionSystem.run (ReminderStores.step c) .empty as = some s) :
    (∀ r ∈ s.rows, s.delivered.count r.id = if r.delivered then 1 else 0)
    ∧ ∀ s', ReminderStores.step c s .init = some s' →
      ∀ r ∈ s'.rows, r.delivered = false →
        s'.zset.countP (fun e => memberId e.fst = some r.id) = 1
        ∧ ∀ now limit, (∀ r ∈ s'.rows, r.whenMs ≤ now) →
          s'.zset.length ≤ limit →
          ∃ s'', TransitionSystem.run (ReminderStores.step c) s'
              [.pop 0 now limit, .mark 0] = some s''
            ∧ s''.delivered.count r.id = 1 := by
  have h : Consistent s := TransitionSystem.run_invariant _
    (fun _ _ _ h hk hs => h.step hk hs) Consistent.empty hk hrun
  refine ⟨h.once, fun s' hs' r hr hd => ?_⟩
  have hs := Option.some.inj hs'
  subst hs
  have hr' : r ∈ s.rows := hr
  refine ⟨h.one_member hr' hd, fun now limit hnow hlimit => ?_⟩
  exact (h.recovered (fun _ hr => hr)).pop_all (fun _ => rfl) hr hd
    (mem_recover (List.mem_filter.mpr ⟨hr', by simp [hd]⟩)) hnow hlimit

/-- **The condition is needed, for every message**: one that does not come
back with the text it had has two members after the next `init`. -/
theorem recover_twice {id : String} {whenMs : ℤ} {msg : ReminderMsg}
    {r : ReminderRecord} (hu : c.uuid id = id)
    (hr : c.insert id whenMs msg = some r) (hk : ¬c.Keeps msg) :
    ∃ s, TransitionSystem.run (step c) .empty
        [.insert 0 id whenMs msg, .zAdd 0, .init] = some s
      ∧ r ∈ s.rows ∧ r.delivered = false
      ∧ s.zset.countP (fun e => memberId e.fst = some r.id) = 2 := by
  obtain ⟨hid, -, hd, -⟩ := Columns.insert_eq hr
  have hne : recordMember r ≠ member id msg :=
    fun hm => hk ((Columns.insert_member_iff hr).mp hm)
  have hins : step c .empty (.insert 0 id whenMs msg) = some
      { rows := [r], zset := [],
        calls := update (fun _ => none) 0 (some (.inserted id whenMs msg)),
        delivered := [] } := by
    rw [step, hr]
    simp [empty, hu]
  have hund : [r].filter (fun r => !r.delivered) = [r] := by simp [hd]
  have hz : recover [(member id msg, whenMs)] [r]
      = [(member id msg, whenMs), (recordMember r, r.whenMs)] := by
    show addMember _ (recordMember r) r.whenMs = _
    rw [addMember, if_neg (by simpa using hne)]
    rfl
  rw [TransitionSystem.run_cons, hins, Option.bind_some,
    TransitionSystem.run_cons, step]
  simp only [Function.update_self, Option.bind_some, TransitionSystem.run_cons,
    TransitionSystem.run_nil, step, undelivered, hund]
  refine ⟨_, rfl, List.mem_cons_self, hd, ?_⟩
  show (recover [(member id msg, whenMs)] [r]).countP _ = 2
  rw [hz]
  simp [recordMember, hid]

end ReminderStores

/-! ## What Postgres returns

A column that keeps the keys of an object by length and then by bytes, which
is what `jsonb` does, brings the text back only of what was in that order. -/

/-- The order in which `jsonb` keeps the keys of an object: shorter ones
first, and those of one length by their bytes. -/
def KeyBefore (f g : String × Json) : Prop :=
  f.fst.utf8ByteSize < g.fst.utf8ByteSize ∨
    f.fst.utf8ByteSize = g.fst.utf8ByteSize ∧ f.fst ≤ g.fst

instance : DecidableRel KeyBefore := by
  intro f g
  unfold KeyBefore
  infer_instance

mutual

/-- What a `jsonb` column returns for a text. -/
def sortKeys : Json → Json
  | .arr xs => .arr (sortKeysAll xs)
  | .obj fs => .obj ((sortKeysFields fs).insertionSort KeyBefore)
  | v => v

/-- `sortKeys` of each element. -/
def sortKeysAll : List Json → List Json
  | [] => []
  | x :: xs => sortKeys x :: sortKeysAll xs

/-- `sortKeys` of each field. -/
def sortKeysFields : List (String × Json) → List (String × Json)
  | [] => []
  | f :: fs => sortKeysField f :: sortKeysFields fs

/-- `sortKeys` of the value of a field. -/
def sortKeysField : String × Json → String × Json
  | (k, v) => (k, sortKeys v)

end

/-- The columns of Postgres, for ids that are spelled as a `uuid` column
spells them. -/
def postgres : Columns where
  uuid := id
  jsonb := sortKeys
  memberBefore _ _ := true

/-- A reminder with a payload of two keys. -/
def shipReminder (payload : List (String × Json)) : ReminderMsg where
  actorId := "0190b5a0-0000-7000-8000-000000000001"
  className := "Cart"
  type := "remind"
  payload := .obj payload

namespace ReminderStores

/-- A payload whose keys are as `jsonb` keeps them: after a restart there is
one member, and it is handed over once. -/
theorem recover_once_sorted :
    ∃ s, TransitionSystem.run (step postgres) .empty
        [.insert 0 "0190b5a0-0000-7000-8000-000000000002" 5
          (shipReminder [("id", .num 1), ("text", .str "ship")]), .zAdd 0]
        = some s
      ∧ s.zset ≠ []
      ∧ (∀ r ∈ s.rows, s.delivered.count r.id = if r.delivered then 1 else 0)
      ∧ ∀ s', step postgres s .init = some s' →
        ∀ r ∈ s'.rows, r.delivered = false →
          s'.zset.countP (fun e => memberId e.fst = some r.id) = 1
          ∧ ∀ now limit, (∀ r ∈ s'.rows, r.whenMs ≤ now) →
            s'.zset.length ≤ limit →
            ∃ s'', TransitionSystem.run (step postgres) s'
                [.pop 0 now limit, .mark 0] = some s''
              ∧ s''.delivered.count r.id = 1 := by
  refine ⟨_, rfl, by decide, ?_⟩
  have hk : TransitionSystem.Along (step postgres) (fun _ a => a.Keeps postgres) .empty
      [.insert 0 "0190b5a0-0000-7000-8000-000000000002" 5
        (shipReminder [("id", .num 1), ("text", .str "ship")]), .zAdd 0] := by
    refine ⟨⟨rfl, fun t ht => ?_⟩, trivial, trivial⟩
    cases ht
    decide
  exact recover_once hk rfl

/-- **A reminder may be delivered twice**: `jsonb` puts the shorter key first,
so after a restart it has two members, and both are popped. -/
theorem not_recover_once :
    ∃ s s', TransitionSystem.run (step postgres) .empty
        [.insert 0 "0190b5a0-0000-7000-8000-000000000002" 5
          (shipReminder [("text", .str "ship"), ("id", .num 1)]),
          .zAdd 0, .init] = some s
      ∧ (∃ r ∈ s.rows, r.delivered = false ∧
        s.zset.countP (fun e => memberId e.fst = some r.id) = 2)
      ∧ TransitionSystem.run (step postgres) s [.pop 0 9 100, .mark 0] = some s'
      ∧ s'.delivered.count "0190b5a0-0000-7000-8000-000000000002" = 2 := by
  refine ⟨_, _, rfl, ⟨_, List.mem_cons_self, rfl, by decide⟩, rfl, by decide⟩

end ReminderStores
