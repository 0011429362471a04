import Actjs.EventLog

/-!
# Fence tokens

A fence token is what an owner of an actor writes with, so that the writes
of an owner that was replaced are refused. Three things are asked of it.

A token never goes back. Registering an actor again sets it to `0` in the
memory driver, and leaves it alone in Postgres.

A fenced write takes effect only under the token it was given. The ValkeyPg
driver reads the token in a statement of its own before it writes, and a
bump can come between the two. A fenced save then writes three times, to the
table, to the row of the actor and to the cached snapshot, and each of these
is a moment at which the token may be another by now.

Called with one request after the other, the two drivers answer alike. They
do not once an actor that was never registered is bumped, or gets a
snapshot: the memory driver goes through with both. Nor do they where
Postgres refuses a value that the memory driver stores as it stores any other.

## How this is proved

Each of the three has an invariant of its own. For the first the step lemma
says what one call or statement does to the token (`Memory.fenceOf_request`,
`Pg.Moves.token`). For the second every operation that is past its check finds
the stored token to be the one it was given (`PgFenced`), and every pair in the
history is one of equals. For the third the memory driver is ahead: it has
served the request in progress, and what the ValkeyPg driver still owes of it
is read off the statement it is about to execute (`PgPc.Owes`), down to the
last one, after which the two agree again.
-/

open Function (update)
open TransitionSystem

variable {S : Type}

/-! ## Tokens never go back

Two methods write the token: `bumpActorFence`, upwards, and `registerActor`,
which the condition of the memory driver is about. -/

/-- No actor whose token was bumped is registered again. -/
def MemoryCalls.KeepsFence (m : MemoryCalls S) : ℕ × Request S → Prop
  | (_, .registerActor _ _) => fenceOf m.driver.actor = 0
  | _ => True

instance (m : MemoryCalls S) (c : ℕ × Request S) :
    Decidable (m.KeepsFence c) := by
  unfold MemoryCalls.KeepsFence
  split <;> infer_instance

theorem MemoryCalls.step_cases {m m' : MemoryCalls S} {c : ℕ × Request S}
    (h : m.step c = some m') :
    m.calls c.fst = none
      ∧ m' = ⟨(m.driver.request c.fst c.snd).fst,
          update m.calls c.fst (some (c.snd, (m.driver.request c.fst c.snd).snd))⟩ := by
  obtain ⟨i, r⟩ := c
  rw [step] at h
  split at h
  · cases h
  · next hi =>
    rw [Bool.not_eq_true, Option.isSome_eq_false_iff,
      Option.isNone_iff_eq_none] at hi
    exact ⟨hi, (Option.some.inj h).symm⟩

theorem fenceOf_map_of_keeps {actor : Option FencedRow}
    {f : FencedRow → FencedRow} (h : ∀ r, (f r).fence = r.fence) :
    fenceOf (actor.map f) = fenceOf actor := by
  cases actor with
  | none => rfl
  | some r => exact h r

/-- **What a call does to the token of the memory driver.** -/
theorem Memory.fenceOf_request (m : Memory S) (op : ℕ) (r : Request S) :
    (∃ cls version, r = .registerActor cls version
      ∧ fenceOf (m.request op r).fst.actor = 0)
    ∨ fenceOf (m.request op r).fst.actor = fenceOf m.actor
    ∨ fenceOf (m.request op r).fst.actor = fenceOf m.actor + 1 := by
  cases r with
  | registerActor cls version => exact .inl ⟨cls, version, rfl, rfl⟩
  | tombstoneActor => exact .inr (.inl (fenceOf_map_of_keeps (fun _ => rfl)))
  | bumpActorFence expected =>
    rw [request]
    split
    · exact .inr (.inl rfl)
    · next hf =>
      rw [not_not] at hf
      cases hactor : m.actor with
      | none => exact .inr (.inl rfl)
      | some row =>
        rw [← hf, hactor]
        exact .inr (.inr rfl)
  | loadSnapshot => exact .inr (.inl rfl)
  | saveSnapshot w f =>
    rw [request]
    split <;> exact .inr (.inl rfl)
  | appendEvents es f =>
    refine .inr (.inl ?_)
    unfold request
    dsimp only
    split
    · rfl
    · split <;> rfl

theorem MemoryCalls.fenceOf_step {m m' : MemoryCalls S} {c : ℕ × Request S}
    (hG : m.KeepsFence c) (hs : m.step c = some m') :
    fenceOf m.driver.actor ≤ fenceOf m'.driver.actor := by
  obtain ⟨-, rfl⟩ := MemoryCalls.step_cases hs
  obtain ⟨i, r⟩ := c
  show _ ≤ fenceOf (m.driver.request i r).fst.actor
  rcases m.driver.fenceOf_request i r with ⟨cls, version, rfl, h⟩ | h | h
  · rw [h]
    exact le_of_eq hG
  · exact h.ge
  · omega

/-- A statement leaves the token, or bumps it. -/
theorem Pg.Moves.token {p d : Pg S} {i ts : ℕ} {pc pc' : PgPc S} {ok : Bool}
    (hm : Moves p i pc ok ts d pc') :
    fenceOf d.actor = fenceOf p.actor
    ∨ ∃ r, pc = .bump r.fence ∧ ok = true ∧ p.actor = some r
      ∧ pc' = .done (.fence (r.fence + 1))
      ∧ fenceOf d.actor = r.fence + 1 := by
  cases hm with
  | registered _ _ _ _ hfence => exact .inl hfence
  | tombstoned => exact .inl (fenceOf_map_of_keeps (fun _ => rfl))
  | bumped expected r _ hactor hfence =>
    subst hfence
    exact .inr ⟨r, rfl, rfl, hactor, rfl, rfl⟩
  | _ => exact .inl rfl

theorem Pg.fenceOf_step {p p' : Pg S} {a : PgAct S} (hs : p.step a = some p') :
    fenceOf p.actor ≤ fenceOf p'.actor := by
  rcases Pg.step_cases hs with ⟨i, r, rfl, hi, rfl⟩
    | ⟨i, ok, ts, r, pc, d, pc', rfl, ho, hm, rfl⟩ | ⟨rfl, rfl⟩
  · exact le_rfl
  · show _ ≤ fenceOf d.actor
    rcases hm.token with h | ⟨row, -, -, hactor, -, h⟩
    · exact h.ge
    · rw [h, hactor]
      show row.fence ≤ row.fence + 1
      omega
  · exact le_rfl

/-! ## Fenced writes

The history pairs the token a write was given with the one that was stored
when it took effect, once for each statement that writes. -/

/-- The check of the token is behind, and the writes are not: those of a save are to two
tables and to the cache. -/
def PgPc.pastCheck : PgPc S → Bool
  | saveRow _ _ => true
  | saveTouch _ => true
  | saveClass _ => true
  | saveHot _ => true
  | appendBegin _ _ => true
  | appendMax _ _ _ => true
  | appendRow _ _ => true
  | appendCommit _ => true
  | _ => false

/-- **The token a method goes on with** once it has been checked: the one it was given. -/
def PgOp.checked (o : PgOp S) : Option ℤ :=
  if o.pc.pastCheck = true then o.request.expectedFence else none

/-- Every write took effect under the token it was given. -/
def Fenced (fenced : List (ℤ × ℤ)) : Prop := ∀ x ∈ fenced, x.fst = x.snd

/-- **The token is not bumped past a fenced write** that was checked and has
not settled. -/
def Pg.Unbumped (p : Pg S) : PgAct S → Prop
  | .advance i true _ =>
    match p.pc i with
    | some (.bump expected) =>
      p.actor.map FencedRow.fence = some expected →
        ∀ j ∈ p.begun, (p.ops j).bind PgOp.checked = none
    | _ => True
  | _ => True

/-- The token that a request about to bump it expects. -/
def PgPc.bumping : PgPc S → Option ℤ
  | .bump expected => some expected
  | _ => none

instance (p : Pg S) : (a : PgAct S) → Decidable (p.Unbumped a)
  | .advance i true _ =>
    decidable_of_iff
      (∀ e ∈ (p.pc i).bind PgPc.bumping, p.actor.map FencedRow.fence = some e →
        ∀ j ∈ p.begun, (p.ops j).bind PgOp.checked = none) <| by
      unfold Pg.Unbumped
      dsimp only
      generalize p.pc i = o
      rcases o with _ | pc
      · simp
      · cases pc <;> simp [PgPc.bumping]
  | .advance _ false _ => .isTrue trivial
  | .start _ _ => .isTrue trivial
  | .expire => .isTrue trivial

/-- The memory driver checks and writes in one step. -/
theorem Memory.fenced_request {m : Memory S} (op : ℕ) (r : Request S)
    (h : Fenced m.fenced) : Fenced (m.request op r).fst.fenced := by
  have hrecord : ∀ f, passes m.actor f = true → Fenced (m.record f) := by
    intro f hf
    cases f with
    | none => exact h
    | some f =>
      intro x hx
      rcases List.mem_cons.mp hx with rfl | hx
      · exact (by simpa [passes] using hf : fenceOf m.actor = f).symm
      · exact h x hx
  unfold request
  split
  · exact h
  · exact h
  · split <;> exact h
  · exact h
  · split
    · exact h
    · exact hrecord _ (by simp_all)
  · split
    · exact h
    · split
      · exact h
      · exact h
      · exact hrecord _ (by simp_all)

/-- The token that a method is about to check. -/
def PgPc.checking : PgPc S → Option ℤ
  | saveFence _ f => some f
  | appendFence _ f => some f
  | _ => none

/-- **The invariant of the ValkeyPg driver**: from the check of a fenced write to the last
of its statements the stored token is the one it was given, so that each of them adds a
pair of equals to the history. -/
structure PgFenced (p : Pg S) : Prop where
  fenced : Fenced p.fenced
  /-- A method checks the token it was given. -/
  checking : ∀ i o f, p.ops i = some o → o.pc.checking = some f →
    o.request.expectedFence = some f
  /-- A write that was checked finds the token it was given. -/
  checked : ∀ i o f, p.ops i = some o → o.checked = some f → fenceOf p.actor = f
  begun : ∀ i, p.ops i ≠ none → i ∈ p.begun

theorem PgFenced.init : PgFenced (.init : Pg S) where
  fenced _ h := by cases h
  checking _ _ _ h := by cases h
  checked _ _ _ h := by cases h
  begun _ h := absurd rfl h

theorem PgOp.checked_eq_some {o : PgOp S} {f : ℤ} :
    o.checked = some f ↔ o.pc.pastCheck = true ∧ o.request.expectedFence = some f := by
  unfold checked
  split <;> simp_all

/-- The first statement of a method checks what the method was given, or there is
nothing to check. -/
theorem PgPc.checking_first {r : Request S} {f : ℤ}
    (h : (PgPc.first r).checking = some f) : r.expectedFence = some f := by
  cases r with
  | saveSnapshot w g =>
    cases g <;> cases h
    rfl
  | appendEvents es g => cases g <;> cases es <;> cases h <;> rfl
  | _ => cases h

theorem PgOp.checked_first {r : Request S} : (⟨r, .first r⟩ : PgOp S).checked = none := by
  cases r with
  | saveSnapshot w f => cases f <;> rfl
  | appendEvents es f => cases f <;> cases es <;> rfl
  | _ => rfl

/-- No statement goes on to a check. -/
theorem Pg.Moves.checking {p d : Pg S} {i ts : ℕ} {pc pc' : PgPc S} {ok : Bool}
    (hm : Moves p i pc ok ts d pc') : pc'.checking = none := by
  cases hm with
  | maxRead es => cases es <;> rfl
  | rowInserted tx e es => cases es <;> rfl
  | _ => rfl

/-- A statement goes on with the token the method was given, or has just
checked it. -/
theorem Pg.Moves.checked {p d : Pg S} {i ts : ℕ} {pc pc' : PgPc S} {ok : Bool}
    {r : Request S} {f : ℤ} (hm : Moves p i pc ok ts d pc')
    (hgiven : ∀ f, pc.checking = some f → r.expectedFence = some f)
    (h : (⟨r, pc'⟩ : PgOp S).checked = some f) :
    (⟨r, pc⟩ : PgOp S).checked = some f ∨ fenceOf p.actor = f := by
  rw [PgOp.checked_eq_some] at h ⊢
  obtain ⟨hpast, hf⟩ := h
  cases hm with
  | saveFenced w g _ hfence =>
    exact .inr (hfence.trans (Option.some.inj ((hgiven g rfl).symm.trans hf)))
  | fenced e es g _ hfence =>
    exact .inr (hfence.trans (Option.some.inj ((hgiven g rfl).symm.trans hf)))
  | savedRow => exact .inl ⟨rfl, hf⟩
  | touched => exact .inl ⟨rfl, hf⟩
  | lookedUp => exact .inl ⟨rfl, hf⟩
  | began => exact .inl ⟨rfl, hf⟩
  | maxRead => exact .inl ⟨rfl, hf⟩
  | rowInserted => exact .inl ⟨rfl, hf⟩
  | _ => cases hpast

/-- What a statement adds to the history, and only past the check. -/
theorem Pg.Moves.recorded {p d : Pg S} {i ts : ℕ} {pc pc' : PgPc S} {ok : Bool}
    (hm : Moves p i pc ok ts d pc') :
    d.fenced = p.record i ∧ pc.pastCheck = true ∨ d.fenced = p.fenced := by
  cases hm with
  | savedRow => exact .inl ⟨rfl, rfl⟩
  | touched => exact .inl ⟨rfl, rfl⟩
  | savedHot => exact .inl ⟨rfl, rfl⟩
  | committed => exact .inl ⟨rfl, rfl⟩
  | _ => exact .inr rfl

/-- **A statement keeps the history** to writes under their token. -/
theorem PgFenced.history {p d : Pg S} {i ts : ℕ} {r : Request S} {pc pc' : PgPc S} {ok : Bool}
    (h : PgFenced p) (ho : p.ops i = some ⟨r, pc⟩) (hm : Pg.Moves p i pc ok ts d pc') :
    Fenced d.fenced := by
  rcases hm.recorded with ⟨hf, hpast⟩ | hf
  · cases hc : r.expectedFence with
    | none =>
      rw [Pg.record, ho, Option.bind_some, hc] at hf
      exact hf ▸ h.fenced
    | some f =>
      rw [Pg.record, ho, Option.bind_some, hc] at hf
      rw [hf]
      intro x hx
      rcases List.mem_cons.mp hx with rfl | hx
      · exact (h.checked i _ f ho (PgOp.checked_eq_some.mpr ⟨hpast, hc⟩)).symm
      · exact h.fenced x hx
  · exact hf ▸ h.fenced

/-- **No write is past its check when the token is bumped.** -/
theorem PgFenced.keeps {p d : Pg S} {i ts : ℕ} {r : Request S} {pc pc' : PgPc S} {ok : Bool}
    (h : PgFenced p) (ho : p.ops i = some ⟨r, pc⟩) (hG : p.Unbumped (.advance i ok ts))
    (hm : Pg.Moves p i pc ok ts d pc') :
    fenceOf d.actor = fenceOf p.actor
      ∨ (⟨r, pc'⟩ : PgOp S).checked = none ∧ ∀ j o, p.ops j = some o → o.checked = none := by
  rcases hm.token with hf | ⟨row, rfl, rfl, hactor, rfl, -⟩
  · exact .inl hf
  · refine .inr ⟨rfl, fun j o hj => ?_⟩
    have hG : ∀ j ∈ p.begun, (p.ops j).bind PgOp.checked = none := by
      simpa [Pg.Unbumped, Pg.pc, ho, hactor] using hG
    simpa [hj] using hG j (h.begun j (by simp [hj]))

/-- **One step keeps fenced writes under their token.** -/
theorem PgFenced.step {p p' : Pg S} {a : PgAct S} (h : PgFenced p)
    (hG : p.Unbumped a) (hs : p.step a = some p') : PgFenced p' := by
  rcases Pg.step_cases hs with ⟨i, r, rfl, hi, rfl⟩
    | ⟨i, ok, ts, r, pc, d, pc', rfl, ho, hm, rfl⟩ | ⟨rfl, rfl⟩
  · refine ⟨h.fenced, fun j o f hj hf => ?_, fun j o f hj hf => ?_, fun j hj => ?_⟩
    all_goals by_cases hji : j = i
    · subst hji
      obtain rfl : ⟨r, .first r⟩ = o := by simpa using hj
      exact PgPc.checking_first hf
    · exact h.checking j o f (by simpa [Function.update_of_ne hji] using hj) hf
    · subst hji
      obtain rfl : ⟨r, .first r⟩ = o := by simpa using hj
      rw [PgOp.checked_first] at hf
      cases hf
    · exact h.checked j o f (by simpa [Function.update_of_ne hji] using hj) hf
    · exact hji ▸ List.mem_cons_self
    · exact List.mem_cons_of_mem _
        (h.begun j (by simpa [Function.update_of_ne hji] using hj))
  · have hkeep := h.keeps ho hG hm
    refine ⟨(h.history ho hm : Fenced d.fenced), fun j o f hj hf => ?_,
      fun j o f hj hf => ?_, fun j hj => ?_⟩
    all_goals by_cases hji : j = i
    · subst hji
      obtain rfl : ⟨r, pc'⟩ = o := by simpa using hj
      rw [hm.checking] at hf
      cases hf
    · exact h.checking j o f (by simpa [Function.update_of_ne hji] using hj) hf
    · subst hji
      obtain rfl : ⟨r, pc'⟩ = o := by simpa using hj
      show fenceOf d.actor = f
      rcases hkeep with hkeep | ⟨hown, -⟩
      · rw [hkeep]
        rcases hm.checked (h.checking j _ · ho) hf with hc | hc
        · exact h.checked j _ f ho hc
        · exact hc
      · rw [hown] at hf
        cases hf
    · have hj : p.ops j = some o := by simpa [Function.update_of_ne hji] using hj
      show fenceOf d.actor = f
      rcases hkeep with hkeep | ⟨-, hnone⟩
      · rw [hkeep]
        exact h.checked j o f hj hf
      · rw [hnone j o hj] at hf
        cases hf
    · show j ∈ d.begun
      rw [hm.begun]
      exact hji ▸ h.begun i (by simp [ho])
    · show j ∈ d.begun
      rw [hm.begun]
      exact h.begun j (by simpa [Function.update_of_ne hji] using hj)
  · exact ⟨h.fenced, h.checking, h.checked, h.begun⟩

/-! ## One request after the other

The memory driver stores whatever it is given. Postgres stores what its columns take:
an id that is a UUID, a text without a NUL, a number of 64 bits, JSON that is there and
has no NUL in it either; and `encodeSnapshot` goes before, which has to give bytes. Which
values these are is a parameter. A request with others is refused by one of its
statements, and the memory driver goes through with it, so that the two are compared
over requests whose values are taken. -/

/-- **What Postgres takes** as the values of its columns. -/
structure PgColumns (S : Type) where
  /-- The id of the actor at hand is one. -/
  uuid : Bool
  text : String → Bool
  bigint : ℤ → Bool
  /-- What `JSON.stringify` makes of the value, for a column that is not null. -/
  jsonb : Json → Bool
  /-- `encodeSnapshot` gives bytes. -/
  bytes : S → Bool

/-- Columns that take every value. -/
def PgColumns.any : PgColumns S :=
  ⟨true, fun _ => true, fun _ => true, fun _ => true, fun _ => true⟩

/-- **Postgres takes the values of the request**, those of all its statements. -/
def PgColumns.takes (cols : PgColumns S) : Request S → Bool
  | .registerActor cls version => cols.uuid && cols.text cls && cols.text version
  | .tombstoneActor => cols.uuid
  | .bumpActorFence expected => cols.uuid && cols.bigint expected && cols.bigint (expected + 1)
  | .loadSnapshot => cols.uuid
  | .saveSnapshot w _ =>
    cols.uuid && cols.bytes w.state && cols.bigint w.seq && cols.text w.version
  | .appendEvents events _ =>
    cols.uuid && events.all (fun e => cols.text e.type && cols.jsonb e.payload)

/-- What both drivers hold of an actor, as far as a request can tell that is
not a load. -/
structure Agree (m : Memory S) (actor : Option FencedRow) (log : List LogRow) :
    Prop where
  registered : m.actor.isSome = actor.isSome
  fence : fenceOf m.actor = fenceOf actor
  head : m.headSeq = log.length
  numbered : Numbered log

/-- **The requests both drivers serve alike.** The memory driver sets the
token to `0` when an actor is registered again, bumps the token of an actor
it does not know from `0` to `1`, and takes a snapshot of it. -/
def Memory.Alike (m : Memory S) : Request S → Prop
  | .registerActor _ _ => fenceOf m.actor = 0
  | .bumpActorFence expected => m.actor.isSome = true ∨ expected ≠ 0
  | .saveSnapshot _ f => m.actor.isSome = true ∨ passes m.actor f = false
  | _ => True

instance (m : Memory S) (r : Request S) : Decidable (m.Alike r) := by
  unfold Memory.Alike
  split <;> infer_instance

/-- **What is still owed** of request `r`, made of a memory driver `m`, where
the ValkeyPg driver is in serving it. -/
def PgPc.Owes (m : Memory S) (actor : Option FencedRow) (log : List LogRow)
    (i : ℕ) (r : Request S) : PgPc S → Prop
  | register cls version => r = .registerActor cls version ∧ Agree m actor log
  | tombstone => r = .tombstoneActor ∧ Agree m actor log
  | delHot => r = .tombstoneActor ∧ Agree (m.request i r).fst actor log
  | bump expected => r = .bumpActorFence expected ∧ Agree m actor log
  | bumpStale expected =>
    r = .bumpActorFence expected ∧ fenceOf m.actor ≠ expected ∧ Agree m actor log
  | loadHot => r = .loadSnapshot ∧ Agree m actor log
  | loadRow => r = .loadSnapshot ∧ Agree m actor log
  | fillHot _ => r = .loadSnapshot ∧ Agree m actor log
  | saveFence w f => r = .saveSnapshot w (some f) ∧ Agree m actor log
  | saveRow w f =>
    r = .saveSnapshot w f ∧ Memory.passes m.actor f = true ∧ Agree m actor log
  | saveTouch _ => (m.request i r).snd = .done ∧ Agree (m.request i r).fst actor log
  | saveClass _ => (m.request i r).snd = .done ∧ Agree (m.request i r).fst actor log
  | saveHot _ => (m.request i r).snd = .done ∧ Agree (m.request i r).fst actor log
  | appendFence es f => r = .appendEvents es (some f) ∧ Agree m actor log
  | appendHead =>
    ∃ f, r = .appendEvents [] f ∧ Memory.passes m.actor f = true ∧ Agree m actor log
  | appendBegin es f =>
    r = .appendEvents es f ∧ es ≠ [] ∧ Memory.passes m.actor f = true
      ∧ Agree m actor log
  | appendMax es f _ =>
    r = .appendEvents es f ∧ es ≠ [] ∧ Memory.passes m.actor f = true
      ∧ Agree m actor log
  | appendRow tx rest =>
    rest ≠ [] ∧ Inserting i r tx rest ∧ OwesRows m actor log tx
  | appendCommit tx =>
    Inserting i r tx [] ∧ OwesRows m actor log tx
  | rollback _ a => (m.request i r).snd = a ∧ Agree (m.request i r).fst actor log
  | done a =>
    (r ≠ .loadSnapshot → (m.request i r).snd = a)
      ∧ Agree (m.request i r).fst actor log
where
  /-- A transaction in the loop of its inserts. -/
  OwesRows (m : Memory S) (actor : Option FencedRow) (log : List LogRow)
      (tx : Tx) : Prop :=
    tx.events ≠ [] ∧ Memory.passes m.actor tx.expectedFence = true
      ∧ m.actor.isSome = true ∧ tx.head = log.length ∧ Agree m actor log

theorem Memory.request_saveSnapshot {m : Memory S} {f : Option ℤ} (i : ℕ)
    (w : SnapshotWrite S) (h : passes m.actor f = true) :
    m.request i (.saveSnapshot w f)
      = ({ m with
          snapshots := setSnapshot m.snapshots w
          fenced := m.record f }, .done) := by
  simp [request, h]

theorem Memory.request_appendEvents {m : Memory S} {f : Option ℤ} (i : ℕ)
    {es : List EventWrite} (h : passes m.actor f = true) (hes : es ≠ []) :
    m.request i (.appendEvents es f)
      = match m.actor with
        | none => (m, .unknownActor)
        | some r =>
          ({ m with
            events := setEvents m.events (batchRows i 0 r.version m.headSeq es)
            headSeq := m.headSeq + es.length
            fenced := m.record f }, .appended (m.headSeq + es.length)) := by
  cases es with
  | nil => exact absurd rfl hes
  | cons e es =>
    cases hactor : m.actor with
    | none =>
      rw [hactor] at h
      simp [request, hactor, h]
    | some r =>
      rw [hactor] at h
      simp [request, hactor, h]

/-- Both drivers check a token alike. -/
theorem Agree.passes {m : Memory S} {actor : Option FencedRow}
    {log : List LogRow} {f : ℤ} (h : Agree m actor log) :
    Memory.passes m.actor (some f) = true ↔ fenceOf actor = f := by
  rw [Memory.passes, beq_iff_eq, h.fence]

theorem Agree.none_iff {m : Memory S} {actor : Option FencedRow}
    {log : List LogRow} (h : Agree m actor log) :
    m.actor = none ↔ actor = none := by
  have := h.registered
  cases hm : m.actor <;> cases actor <;> simp_all

/-- The first statement owes the whole request. -/
theorem PgPc.owes_first {m : Memory S} {actor : Option FencedRow}
    {log : List LogRow} (i : ℕ) (r : Request S) (h : Agree m actor log) :
    (PgPc.first r).Owes m actor log i r := by
  cases r with
  | saveSnapshot w f =>
    cases f with
    | none => exact ⟨rfl, rfl, h⟩
    | some f => exact ⟨rfl, h⟩
  | appendEvents es f =>
    cases f with
    | none =>
      cases es with
      | nil => exact ⟨none, rfl, rfl, h⟩
      | cons e es => exact ⟨rfl, by simp, rfl, h⟩
    | some f => cases es <;> exact ⟨rfl, h⟩
  | _ => exact ⟨rfl, h⟩

/-- The loop of the inserts goes on, or ends in the commit. -/
theorem PgPc.owes_inserting {m : Memory S} {actor : Option FencedRow}
    {log : List LogRow} {i : ℕ} {r : Request S} {tx : Tx}
    {rest : List EventWrite} (h : Inserting i r tx rest)
    (ho : PgPc.Owes.OwesRows m actor log tx) :
    (Pg.inserting tx rest : PgPc S).Owes m actor log i r := by
  cases rest with
  | nil => exact ⟨h, ho⟩
  | cons e es => exact ⟨by simp, h, ho⟩

/-- A row behind the head of the log has a key of its own. -/
theorem Numbered.keyed_eq_false {log : List LogRow} (h : Numbered log)
    {row : LogRow} (hrow : (log.length : ℤ) < row.seq) :
    Pg.keyed row log = false := by
  refine List.any_eq_false.mpr (fun q hq => ?_)
  have hq := List.mem_map_of_mem (f := LogRow.seq) hq
  rw [h, mem_seqsAfter] at hq
  simp only [Bool.and_eq_true, beq_iff_eq, not_and]
  omega

theorem Agree.refused {m : Memory S} {actor : Option FencedRow}
    {log : List LogRow} {f : ℤ} (h : Agree m actor log)
    (hf : fenceOf actor ≠ f) : Memory.passes m.actor (some f) = false := by
  rw [Bool.eq_false_iff]
  exact fun hp => hf (h.passes.mp hp)

/-- **One statement of a request that runs alone pays its share.** -/
theorem Pg.Moves.owes {m : Memory S} {p d : Pg S} {i ts : ℕ} {pc pc' : PgPc S}
    {r : Request S} (hm : Moves p i pc true ts d pc') (hr : m.Alike r)
    (h : pc.Owes m p.actor p.log i r) : pc'.Owes m d.actor d.log i r := by
  cases hm with
  | registered cls version row _ hfence =>
    obtain ⟨rfl, h⟩ := h
    have hzero : fenceOf m.actor = 0 := hr
    refine ⟨fun _ => rfl, ⟨rfl, ?_, h.head, h.numbered⟩⟩
    show (0 : ℤ) = row.fence
    rw [hfence, ← h.fence, hzero]
  | tombstoned =>
    obtain ⟨rfl, h⟩ := h
    refine ⟨rfl, ⟨?_, ?_, h.head, h.numbered⟩⟩
    · show (m.actor.map _).isSome = (p.actor.map _).isSome
      rw [Option.isSome_map, Option.isSome_map, h.registered]
    · refine (fenceOf_map_of_keeps ?_).trans
        (h.fence.trans (fenceOf_map_of_keeps ?_).symm) <;> exact fun _ => rfl
  | deleted =>
    obtain ⟨rfl, h⟩ := h
    exact ⟨fun _ => rfl, h⟩
  | bumped expected row _ hactor hfence =>
    obtain ⟨rfl, h⟩ := h
    have hf : fenceOf m.actor = expected := by
      rw [h.fence, hactor]
      exact hfence
    obtain ⟨row', hrow'⟩ := Option.isSome_iff_exists.mp
      (h.registered.trans (by rw [hactor]; rfl))
    rw [hrow'] at hf
    have hreq : m.request i (.bumpActorFence expected)
        = ({ m with actor := some { row' with fence := expected + 1 } },
          .fence (expected + 1)) := by
      simp only [Memory.request, hrow', hf, ne_eq, not_true_eq_false, if_false,
        Option.map_some]
    refine ⟨fun _ => by rw [hreq], ?_⟩
    rw [hreq]
    exact ⟨rfl, rfl, h.head, h.numbered⟩
  | notBumped expected _ hfence =>
    obtain ⟨rfl, h⟩ := h
    refine ⟨rfl, fun hf => ?_, h⟩
    cases hactor : p.actor with
    | none =>
      -- the memory driver would have bumped the token of an unknown actor
      have hnone := h.none_iff.mpr hactor
      rcases hr with hsome | hne
      · rw [hnone] at hsome
        cases hsome
      · rw [hnone] at hf
        exact hne hf.symm
    | some row =>
      refine hfence row hactor ?_
      rw [← hf, h.fence, hactor]
      rfl
  | bumpRejected expected =>
    obtain ⟨rfl, hne, h⟩ := h
    have hreq : m.request i (.bumpActorFence expected)
        = (m, .stale expected (fenceOf m.actor)) := by
      simp only [Memory.request, ne_eq, hne, not_false_eq_true, if_true]
    refine ⟨fun _ => by rw [hreq, h.fence], ?_⟩
    rw [hreq]
    exact h
  | hit =>
    obtain ⟨rfl, h⟩ := h
    exact ⟨fun hne => absurd rfl hne, h⟩
  | missed => exact h
  | loaded => exact h
  | loadedNone =>
    obtain ⟨rfl, h⟩ := h
    exact ⟨fun hne => absurd rfl hne, h⟩
  | filled =>
    obtain ⟨rfl, h⟩ := h
    exact ⟨fun hne => absurd rfl hne, h⟩
  | saveFenced w f _ hfence =>
    obtain ⟨rfl, h⟩ := h
    exact ⟨rfl, h.passes.mpr hfence, h⟩
  | saveStale w f _ hfence =>
    obtain ⟨rfl, h⟩ := h
    have hreq : m.request i (.saveSnapshot w (some f))
        = (m, .stale f (fenceOf m.actor)) := by
      simp [Memory.request, h.refused hfence, Memory.staleAnswer]
    refine ⟨fun _ => by rw [hreq, h.fence], ?_⟩
    rw [hreq]
    exact h
  | saveUnknown w f _ hactor =>
    obtain ⟨rfl, hf, h⟩ := h
    rcases hr with hsome | hstale
    · rw [h.none_iff.mpr hactor] at hsome
      cases hsome
    · rw [hf] at hstale
      cases hstale
  | savedRow w f row _ hactor =>
    obtain ⟨rfl, hf, h⟩ := h
    refine ⟨by rw [Memory.request_saveSnapshot i w hf], ?_⟩
    rw [Memory.request_saveSnapshot i w hf]
    exact ⟨h.registered, h.fence, h.head, h.numbered⟩
  | touched => exact h
  | lookedUp => exact h
  | savedHot => exact ⟨fun _ => h.1, h.2⟩
  | fencedEmpty f _ hfence =>
    obtain ⟨rfl, h⟩ := h
    exact ⟨some f, rfl, h.passes.mpr hfence, h⟩
  | fenced e es f _ hfence =>
    obtain ⟨rfl, h⟩ := h
    exact ⟨rfl, by simp, h.passes.mpr hfence, h⟩
  | appendStale es f _ hfence =>
    obtain ⟨rfl, h⟩ := h
    have hreq : m.request i (.appendEvents es (some f))
        = (m, .stale f (fenceOf m.actor)) := by
      simp [Memory.request, h.refused hfence, Memory.staleAnswer]
    refine ⟨fun _ => by rw [hreq, h.fence], ?_⟩
    rw [hreq]
    exact h
  | headRead =>
    obtain ⟨f, rfl, hf, h⟩ := h
    have hreq : m.request i (.appendEvents [] f) = (m, .appended m.headSeq) := by
      simp [Memory.request, hf]
    refine ⟨fun _ => by rw [hreq, h.head, h.numbered.maxSeq_eq], ?_⟩
    rw [hreq]
    exact h
  | began => exact h
  | maxUnknown es f _ _ hactor =>
    obtain ⟨rfl, hes, hf, h⟩ := h
    have hreq : m.request i (.appendEvents es f) = (m, .unknownActor) := by
      rw [Memory.request_appendEvents i hf hes, h.none_iff.mpr hactor]
    refine ⟨by rw [hreq], ?_⟩
    rw [hreq]
    exact h
  | maxRead es f t _ row hactor =>
    obtain ⟨rfl, hes, hf, h⟩ := h
    refine PgPc.owes_inserting ⟨rfl, ⟨[], rfl, rfl⟩, h.numbered.maxSeq_eq⟩
      ⟨hes, hf, ?_, h.numbered.maxSeq_eq, h⟩
    rw [h.registered, hactor]
    rfl
  | rowFailed tx e es _ _ hkey =>
    obtain ⟨-, hins, -, -, -, hhead, h⟩ := h
    rw [h.numbered.keyed_eq_false ?_] at hkey
    · simp at hkey
    · show (p.log.length : ℤ) < tx.head + tx.rows.length + 1
      omega
  | rowInserted tx e es =>
    exact PgPc.owes_inserting h.2.1.next h.2.2
  | committed tx =>
    obtain ⟨hins, hes, hf, hsome, hhead, h⟩ := h
    obtain ⟨row, hrow⟩ := Option.isSome_iff_exists.mp hsome
    obtain ⟨made, hmade, hrows⟩ := hins.rows
    rw [List.append_nil] at hmade
    subst hmade
    have hreq := Memory.request_appendEvents i hf hes
    rw [hrow, ← hins.request] at hreq
    refine ⟨fun _ => ?_, ?_⟩
    · rw [hreq, hrows, length_batchRows, hhead, ← h.head]
    · rw [hreq]
      have hregistered := h.registered
      have hfence := h.fence
      rw [hrow] at hregistered hfence
      refine ⟨hregistered, hfence, ?_, ?_⟩
      · show m.headSeq + tx.events.length = ((p.log ++ tx.rows).length : ℤ)
        rw [List.length_append, hrows, length_batchRows, h.head]
        push_cast
        rfl
      · show Numbered (p.log ++ tx.rows)
        rw [hrows, hhead]
        exact h.numbered.append i tx.ts tx.version tx.events
  | rolledBack rows a => exact ⟨fun _ => h.1, h.2⟩

/-! ## Both drivers, called alike

The two drivers side by side, and the one invariant over both. -/

/-- **Both drivers.** A request is made of both: the memory driver serves it
at once, the ValkeyPg driver in the steps that follow. -/
structure Drivers (S : Type) where
  memory : MemoryCalls S
  pg : Pg S

/-- Two drivers nobody has called. -/
def Drivers.init : Drivers S := ⟨.init, .init⟩

/-- One step of both drivers. -/
def Drivers.step (d : Drivers S) (a : PgAct S) : Option (Drivers S) :=
  match a with
  | .start i r =>
    match d.memory.step (i, r), d.pg.step (.start i r) with
    | some m, some p => some ⟨m, p⟩
    | _, _ => none
  | _ => (d.pg.step a).map (fun p => { d with pg := p })

/-- **One request after the other**: a request is made when none is in progress, and a
statement fails only where Postgres does not take the values of its request. -/
def Drivers.Sequential (cols : PgColumns S) (d : Drivers S) : PgAct S → Prop
  | .start _ _ => d.pg.idle = true
  | .advance i ok _ => (d.pg.ops i).all (fun o => cols.takes o.request) = true → ok = true
  | .expire => True

instance (cols : PgColumns S) (d : Drivers S) : (a : PgAct S) → Decidable (d.Sequential cols a)
  | .start _ _ => inferInstanceAs (Decidable (d.pg.idle = true))
  | .advance i ok _ => inferInstanceAs
    (Decidable ((d.pg.ops i).all (fun o => cols.takes o.request) = true → ok = true))
  | .expire => .isTrue trivial

/-- **Both drivers serve the request that is made alike**: Postgres takes its values, and
it is none of those that the memory driver serves otherwise. -/
def Drivers.Alike (cols : PgColumns S) (d : Drivers S) : PgAct S → Prop
  | .start _ r => cols.takes r = true ∧ d.memory.driver.Alike r
  | _ => True

instance (cols : PgColumns S) (d : Drivers S) : (a : PgAct S) → Decidable (d.Alike cols a)
  | .start _ r => inferInstanceAs (Decidable (cols.takes r = true ∧ d.memory.driver.Alike r))
  | .advance _ _ _ => .isTrue trivial
  | .expire => .isTrue trivial

/-- **The invariant of both drivers**, called alike: at rest they agree, and while a request
is in progress the memory driver has served it and the ValkeyPg driver owes what is left
of it. -/
structure Sequenced (cols : PgColumns S) (d : Drivers S) : Prop where
  begun : ∀ i, d.pg.ops i ≠ none → i ∈ d.pg.begun
  fresh : ∀ i, d.pg.ops i = none → d.memory.calls i = none
  /-- At most one request is in progress, and what is still owed of it. -/
  running : ∀ i r pc, d.pg.ops i = some ⟨r, pc⟩ → pc.inProgress = true →
    (∀ j q pc', d.pg.ops j = some ⟨q, pc'⟩ → pc'.inProgress = true → j = i)
    ∧ ∃ m : Memory S, m.Alike r ∧ d.memory.driver = (m.request i r).fst
      ∧ d.memory.calls i = some (r, (m.request i r).snd)
      ∧ pc.Owes m d.pg.actor d.pg.log i r
  resting : d.pg.idle = true → Agree d.memory.driver d.pg.actor d.pg.log
  settled : ∀ i r a, d.pg.calls i = some (r, a) → r ≠ .loadSnapshot →
    d.memory.calls i = some (r, a)
  taken : ∀ i o, d.pg.ops i = some o → cols.takes o.request = true

variable {cols : PgColumns S}

theorem Sequenced.init : Sequenced cols (.init : Drivers S) where
  begun _ h := absurd rfl h
  fresh _ _ := rfl
  running _ _ _ h := by cases h
  resting _ := ⟨rfl, rfl, rfl, rfl⟩
  settled _ _ _ h := by cases h
  taken _ _ h := by cases h

/-- Nothing is in progress when the databases are idle. -/
theorem Pg.idle_iff {p : Pg S} (hbegun : ∀ i, p.ops i ≠ none → i ∈ p.begun) :
    p.idle = true ↔ ∀ i r pc, p.ops i = some ⟨r, pc⟩ → pc.inProgress = false := by
  constructor
  · intro h i r pc hi
    have := List.all_eq_true.mp h i (hbegun i (by simp [hi]))
    simpa [Pg.pc, hi] using this
  · intro h
    refine List.all_eq_true.mpr (fun i _ => ?_)
    cases hi : p.ops i with
    | none => simp [Pg.pc, hi]
    | some o => simp [Pg.pc, hi, h i o.request o.pc hi]

/-- A request is made of both drivers. -/
theorem Sequenced.start {d d' : Drivers S} {i : ℕ} {r : Request S}
    (h : Sequenced cols d) (hidle : d.pg.idle = true)
    (hr : cols.takes r = true ∧ d.memory.driver.Alike r)
    (hs : d.step (.start i r) = some d') : Sequenced cols d' := by
  simp only [Drivers.step] at hs
  split at hs
  · next m p hm hp =>
    obtain rfl := Option.some.inj hs
    obtain ⟨-, rfl⟩ := MemoryCalls.step_cases hm
    rcases Pg.step_cases hp with ⟨_, _, he, hi, rfl⟩
      | ⟨_, _, _, _, _, _, _, he, -⟩ | ⟨he, -⟩ <;> cases he
    have hrest := (Pg.idle_iff h.begun).mp hidle
    refine ⟨fun j hj => ?_, fun j hj => ?_, fun j q pc hj hpc => ?_,
      fun hidle' => ?_, fun j q a hj hq => ?_, fun j o hj => ?_⟩
    · by_cases hji : j = i
      · exact hji ▸ List.mem_cons_self
      · exact List.mem_cons_of_mem _
          (h.begun j (by simpa [Function.update_of_ne hji] using hj))
    · have hji : j ≠ i := by
        rintro rfl
        simp at hj
      show update d.memory.calls i _ j = none
      rw [Function.update_of_ne hji]
      exact h.fresh j (by simpa [Function.update_of_ne hji] using hj)
    · have honly : ∀ j q pc',
          update d.pg.ops i (some ⟨r, .first r⟩) j = some ⟨q, pc'⟩ →
            pc'.inProgress = true → j = i := by
        intro j q pc' hj hpc
        by_contra hji
        rw [Function.update_of_ne hji] at hj
        rw [hrest j q pc' hj] at hpc
        cases hpc
      obtain rfl := honly j q pc hj hpc
      obtain ⟨rfl, rfl⟩ : r = q ∧ PgPc.first r = pc := by simpa using hj
      refine ⟨honly, d.memory.driver, hr.2, rfl, Function.update_self .., ?_⟩
      exact PgPc.owes_first j r (h.resting hidle)
    · -- the request is in progress
      have hmem : i ∈ i :: d.pg.begun := List.mem_cons_self
      have := List.all_eq_true.mp hidle' i hmem
      simp [Pg.pc, PgPc.inProgress_first] at this
    · have hnone : d.pg.calls i = none := by rw [Pg.calls, hi]
      rw [Pg.calls_inProgress { d.pg with begun := i :: d.pg.begun } hnone
        (PgPc.inProgress_first r) rfl] at hj
      have hji : j ≠ i := by
        rintro rfl
        rw [hnone] at hj
        cases hj
      show update d.memory.calls i _ j = _
      rw [Function.update_of_ne hji]
      exact h.settled j q a hj hq
    · by_cases hji : j = i
      · subst hji
        obtain rfl : ⟨r, .first r⟩ = o := by simpa using hj
        exact hr.1
      · exact h.taken j o (by simpa [Function.update_of_ne hji] using hj)
  · cases hs

/-- **The request in progress executes a statement.** -/
theorem Sequenced.advance {d d' : Drivers S} {i ts : ℕ} (h : Sequenced cols d)
    (hs : d.step (.advance i true ts) = some d') : Sequenced cols d' := by
  obtain ⟨p', hp, rfl⟩ := Option.map_eq_some_iff.mp hs
  rcases Pg.step_cases hp with ⟨_, _, he, -⟩
    | ⟨_, _, _, r, pc, db, pc', he, ho, hm, rfl⟩ | ⟨he, -⟩ <;> cases he
  obtain ⟨honly, m, hr, hdriver, hcall, howes⟩ :=
    h.running i r pc ho hm.inProgress
  have howes := hm.owes hr howes
  have hothers : ∀ j q pc'',
      update d.pg.ops i (some ⟨r, pc'⟩) j = some ⟨q, pc''⟩ →
        pc''.inProgress = true → j = i := by
    intro j q pc'' hj hpc
    by_contra hji
    rw [Function.update_of_ne hji] at hj
    exact hji (honly j q pc'' hj hpc)
  have hbegun : ∀ j, update d.pg.ops i (some ⟨r, pc'⟩) j ≠ none →
      j ∈ db.begun := by
    intro j hj
    rw [hm.begun]
    by_cases hji : j = i
    · rw [hji]
      exact h.begun i (by simp [ho])
    · exact h.begun j (by simpa [Function.update_of_ne hji] using hj)
  refine ⟨hbegun, fun j hj => ?_, fun j q pc'' hj hpc => ?_, fun hidle => ?_,
    fun j q a hj hq => ?_, fun j o hj => ?_⟩
  · refine h.fresh j ?_
    by_cases hji : j = i
    · subst hji
      simp at hj
    · simpa [Function.update_of_ne hji] using hj
  · obtain rfl := hothers j q pc'' hj hpc
    obtain ⟨rfl, rfl⟩ : r = q ∧ pc' = pc'' := by simpa using hj
    exact ⟨hothers, m, hr, hdriver, hcall, howes⟩
  · have hpc : pc'.inProgress = false :=
      (Pg.idle_iff hbegun).mp hidle i r pc' (Function.update_self ..)
    obtain ⟨a, rfl⟩ := PgPc.exists_done (Bool.eq_false_iff.mp hpc)
    show Agree d.memory.driver db.actor db.log
    rw [hdriver]
    exact howes.2
  · have hnone := Pg.calls_of_inProgress ho hm.inProgress
    by_cases hpc : pc'.inProgress = true
    · rw [Pg.calls_inProgress db hnone hpc rfl] at hj
      exact h.settled j q a hj hq
    · obtain ⟨b, rfl⟩ := PgPc.exists_done hpc
      rw [Pg.calls_done db rfl] at hj
      by_cases hji : j = i
      · subst hji
        obtain ⟨rfl, rfl⟩ : r = q ∧ b = a := by simpa using hj
        show d.memory.calls j = _
        rw [hcall, howes.1 hq]
      · rw [Function.update_of_ne hji] at hj
        exact h.settled j q a hj hq
  · by_cases hji : j = i
    · subst hji
      obtain rfl : ⟨r, pc'⟩ = o := by simpa using hj
      exact h.taken j ⟨r, pc⟩ ho
    · exact h.taken j o (by simpa [Function.update_of_ne hji] using hj)

/-- **One step of requests made one after the other.** -/
theorem Sequenced.step {d d' : Drivers S} {a : PgAct S} (h : Sequenced cols d)
    (hG : d.Sequential cols a ∧ d.Alike cols a) (hs : d.step a = some d') :
    Sequenced cols d' := by
  cases a with
  | start i r => exact h.start hG.1 hG.2 hs
  | advance i ok ts =>
    -- no statement fails, since the values of every request are taken
    obtain rfl : ok = true := hG.1 (by
      cases ho : d.pg.ops i with
      | none => rfl
      | some o => exact h.taken i o ho)
    exact h.advance hs
  | expire =>
    obtain rfl := Option.some.inj hs
    exact ⟨h.begun, h.fresh, h.running, h.resting, h.settled, h.taken⟩

/-! ## Every request is answered

A method that is not disturbed has finitely many statements left, so that the
sequential runs are not empty promises. -/

/-- How many statements are left at most, if none fails. -/
def PgPc.left : PgPc S → ℕ
  | register _ _ => 1
  | tombstone => 2
  | delHot => 1
  | bump _ => 2
  | bumpStale _ => 1
  | loadHot => 3
  | loadRow => 2
  | fillHot _ => 1
  | saveFence _ _ => 5
  | saveRow _ _ => 4
  | saveTouch _ => 3
  | saveClass _ => 2
  | saveHot _ => 1
  | appendFence es _ => es.length + 4
  | appendHead => 1
  | appendBegin es _ => es.length + 3
  | appendMax es _ _ => es.length + 2
  | appendRow _ rest => rest.length + 1
  | appendCommit _ => 1
  | rollback _ _ => 1
  | done _ => 0

theorem PgPc.left_inserting (tx : Tx) (rest : List EventWrite) :
    (Pg.inserting tx rest : PgPc S).left = rest.length + 1 := by
  cases rest <;> rfl

theorem Pg.Moves.left {p d : Pg S} {i ts : ℕ} {pc pc' : PgPc S}
    (hm : Moves p i pc true ts d pc') : pc'.left < pc.left := by
  cases hm with
  | maxRead => rw [PgPc.left_inserting]; exact Nat.lt_succ_self _
  | rowInserted => rw [PgPc.left_inserting]; exact Nat.lt_succ_self _
  | _ => simp [PgPc.left]

/-- **The request in progress is never stuck.** -/
theorem Sequenced.enabled {d : Drivers S} {i : ℕ} {r : Request S} {pc : PgPc S}
    (h : Sequenced cols d) (ho : d.pg.ops i = some ⟨r, pc⟩)
    (hpc : pc.inProgress = true) (ts : ℕ) :
    ∃ d', d.step (.advance i true ts) = some d' := by
  suffices (d.pg.advance i true ts).isSome = true by
    obtain ⟨p', hp⟩ := Option.isSome_iff_exists.mp this
    exact ⟨{ d with pg := p' }, by simp only [Drivers.step, Pg.step, hp, Option.map_some]⟩
  obtain ⟨honly, m, -, -, -, howes⟩ := h.running i r pc ho hpc
  have hpc' : d.pg.pc i = some pc := by simp only [Pg.pc, ho, Option.map_some]
  -- no other transaction is open
  have halone : d.pg.othersRows i = [] := by
    refine List.flatMap_eq_nil_iff.mpr (fun j hj => ?_)
    have hji : j ≠ i := by simpa using (List.mem_filter.mp hj).2
    cases hop : d.pg.ops j with
    | none => simp only [Pg.pc, hop, Option.map_none]
    | some o =>
      simp only [Pg.pc, hop, Option.map_some]
      by_cases hin : o.pc.inProgress = true
      · exact absurd (honly j o.request o.pc hop hin) hji
      · obtain ⟨a, ha⟩ := PgPc.exists_done hin
        rw [ha]
        rfl
  unfold Pg.advance
  rw [hpc']
  cases pc with
  | done a => cases hpc
  | appendRow tx rest =>
    cases rest with
    | nil => exact absurd rfl howes.1
    | cons e es =>
      have hkey : Pg.keyed (Pg.nextRow tx i e) (d.pg.othersRows i) = false := by
        rw [halone]
        rfl
      simp only [hkey, Bool.true_eq_false, if_false, Bool.false_eq_true]
      split <;> rfl
  | appendMax es f t =>
    simp only [Bool.true_eq_false, if_false]
    split <;> rfl
  | bump expected =>
    simp only [Bool.true_eq_false, if_false]
    split
    · split <;> rfl
    · rfl
  | loadHot =>
    simp only [Bool.true_eq_false, if_false]
    split <;> rfl
  | loadRow =>
    simp only [Bool.true_eq_false, if_false]
    split <;> rfl
  | saveFence w f =>
    simp only [Bool.true_eq_false, if_false]
    split <;> rfl
  | saveRow w f =>
    simp only [Bool.true_eq_false, if_false]
    split <;> rfl
  | appendFence es f =>
    simp only [Bool.true_eq_false, if_false]
    split
    · split <;> rfl
    · rfl
  | _ => rfl

/-- **The request in progress settles** once its statements are executed. -/
theorem Sequenced.finishes {d : Drivers S} {i : ℕ} {r : Request S} {pc : PgPc S}
    (h : Sequenced cols d) (ho : d.pg.ops i = some ⟨r, pc⟩) (ts : ℕ) :
    ∃ n d' a, run Drivers.step d (List.replicate n (.advance i true ts)) = some d'
      ∧ d'.pg.calls i = some (r, a) := by
  induction hn : pc.left using Nat.strong_induction_on generalizing d pc with
  | _ n ih =>
    by_cases hpc : pc.inProgress = true
    · obtain ⟨d₁, hd₁⟩ := h.enabled ho hpc ts
      obtain ⟨p', hp, rfl⟩ := Option.map_eq_some_iff.mp hd₁
      rcases Pg.step_cases hp with ⟨_, _, he, -⟩
        | ⟨_, _, _, q, pc₀, db, pc', he, ho', hm, rfl⟩ | ⟨he, -⟩ <;> cases he
      obtain ⟨rfl, rfl⟩ : r = q ∧ pc = pc₀ := by simpa [ho] using ho'
      obtain ⟨k, d', a, hrun, hcall⟩ := ih pc'.left (hn ▸ hm.left)
        (h.advance hd₁) (Function.update_self ..) rfl
      refine ⟨k + 1, d', a, ?_, hcall⟩
      rw [List.replicate_succ, run_cons, hd₁]
      exact hrun
    · obtain ⟨a, rfl⟩ := PgPc.exists_done hpc
      exact ⟨0, d, a, rfl, by rw [Pg.calls, ho]⟩

/-- A request can be made when none is in progress, and settles. -/
theorem Sequenced.serves {d : Drivers S} {i : ℕ} {r : Request S}
    (h : Sequenced cols d) (hidle : d.pg.idle = true)
    (hr : cols.takes r = true ∧ d.memory.driver.Alike r) (hi : d.pg.ops i = none) (ts : ℕ) :
    ∃ n d' a, run Drivers.step d
        (.start i r :: List.replicate n (.advance i true ts)) = some d'
      ∧ d'.pg.calls i = some (r, a) := by
  have hs : d.step (.start i r) = some
      ⟨⟨(d.memory.driver.request i r).fst,
        update d.memory.calls i (some (r, (d.memory.driver.request i r).snd))⟩,
        { d.pg with
          ops := update d.pg.ops i (some ⟨r, .first r⟩)
          begun := i :: d.pg.begun }⟩ := by
    simp only [Drivers.step, MemoryCalls.step, Pg.step, Pg.start, hi,
      h.fresh i hi, Option.isSome_none, Bool.false_eq_true, if_false]
  obtain ⟨n, d', a, hrun, hcall⟩ :=
    (h.start hidle hr hs).finishes (Function.update_self ..) ts
  refine ⟨n, d', a, ?_, hcall⟩
  rw [run_cons, hs]
  exact hrun

/-! ## Every order of requests -/

/-- **Fencing.** No token goes back: not in Postgres, and in the memory
driver as long as no actor whose token was bumped is registered again. No
fenced write takes effect under another token than it was given: not in the
memory driver, and not in Postgres or Valkey as long as the token is not bumped
past a write that was checked. And requests made one after the other are all
answered, and alike by both drivers, as long as each is one they serve
alike, with values that Postgres takes; what a load returns is apart. -/
theorem fencing :
    ((∀ (m m' : MemoryCalls S) (xs : List (ℕ × Request S)),
        run MemoryCalls.step m xs = some m' →
        Along MemoryCalls.step MemoryCalls.KeepsFence m xs →
        fenceOf m.driver.actor ≤ fenceOf m'.driver.actor)
      ∧ ∀ (p p' : Pg S) (xs : List (PgAct S)),
        run Pg.step p xs = some p' → fenceOf p.actor ≤ fenceOf p'.actor)
    ∧ ((∀ (m : MemoryCalls S) (xs : List (ℕ × Request S)),
        run MemoryCalls.step .init xs = some m → Fenced m.driver.fenced)
      ∧ ∀ (p : Pg S) (xs : List (PgAct S)), run Pg.step .init xs = some p →
        Along Pg.step Pg.Unbumped .init xs → Fenced p.fenced)
    ∧ ∀ (cols : PgColumns S) (d : Drivers S) (xs : List (PgAct S)),
      run Drivers.step .init xs = some d →
      Along Drivers.step (fun d a => d.Sequential cols a ∧ d.Alike cols a) .init xs →
      (∀ i r a, d.pg.calls i = some (r, a) → r ≠ .loadSnapshot →
        d.memory.calls i = some (r, a))
      ∧ ∀ i r ts, d.pg.idle = true → cols.takes r = true → d.memory.driver.Alike r →
        d.pg.ops i = none →
        ∃ n d' a, run Drivers.step d
            (.start i r :: List.replicate n (.advance i true ts)) = some d'
          ∧ d'.pg.calls i = some (r, a) := by
  refine ⟨⟨fun m m' xs hrun hG => ?_, fun p p' xs hrun => ?_⟩,
    ⟨fun m xs hrun => ?_, fun p xs hrun hG => ?_⟩, fun cols d xs hrun hG => ?_⟩
  · exact run_invariant (P := fun t => fenceOf m.driver.actor ≤ fenceOf t.driver.actor)
      _ (fun _ _ _ h hG hs => h.trans (MemoryCalls.fenceOf_step hG hs))
      le_rfl hG hrun
  · exact run_mono (R := fun t u : Pg S => fenceOf t.actor ≤ fenceOf u.actor)
      _ (fun _ => le_rfl) (fun _ _ _ => le_trans)
      (fun _ _ _ => Pg.fenceOf_step) hrun
  · refine run_invariant' (P := fun t : MemoryCalls S => Fenced t.driver.fenced)
      _ (fun t c t' h hs => ?_) (fun x hx => by cases hx) hrun
    obtain ⟨-, rfl⟩ := MemoryCalls.step_cases hs
    exact Memory.fenced_request c.fst c.snd h
  · exact (run_invariant _ (fun _ _ _ h hG hs => h.step hG hs)
      PgFenced.init hG hrun).fenced
  · have h : Sequenced cols d :=
      run_invariant _ (fun _ _ _ h hG hs => h.step hG hs) Sequenced.init hG hrun
    exact ⟨h.settled, fun i r ts hidle htakes hr hi => h.serves hidle ⟨htakes, hr⟩ hi ts⟩

namespace PgAct

/-- Request `i` is made, and `n` statements of it succeed. -/
def serving (i : ℕ) (r : Request Unit) (n : ℕ) : List (PgAct Unit) :=
  .start i r :: List.replicate n (.advance i true 0)

/-- An actor is registered, and its token is bumped to `1`. -/
def bumped : List (PgAct Unit) :=
  serving 0 (.registerActor "Counter" "1.0.0") 1
    ++ serving 1 (.bumpActorFence 0) 1

end PgAct

/-- The theorem applies to an actor whose token is bumped, and to two writes,
the first of which has a token that is stale. -/
theorem fencing_bumped :
    (∃ m : MemoryCalls Unit, run MemoryCalls.step .init
        [(0, .registerActor "Counter" "1.0.0"), (1, .bumpActorFence 0)] = some m
      ∧ fenceOf m.driver.actor = 1 ∧ 0 ≤ fenceOf m.driver.actor)
    ∧ (∃ p : Pg Unit, run Pg.step .init (PgAct.bumped
          ++ PgAct.serving 2 (.saveSnapshot ⟨0, "1.0.0", ()⟩ (some 1)) 5) = some p
        ∧ p.fenced = [(1, 1), (1, 1), (1, 1)] ∧ Fenced p.fenced)
    ∧ ∃ d : Drivers Unit, run Drivers.step .init (PgAct.bumped
          ++ PgAct.serving 2 (.appendEvents [.deposited 1] (some 0)) 1
          ++ PgAct.serving 3 (.saveSnapshot ⟨0, "1.0.0", ()⟩ (some 1)) 5) = some d
        ∧ d.memory.calls 2
          = some (.appendEvents [.deposited 1] (some 0), .stale 0 1) := by
  have hm : (run MemoryCalls.step (.init : MemoryCalls Unit)
      [(0, .registerActor "Counter" "1.0.0"), (1, .bumpActorFence 0)]).any
      (fun m => fenceOf m.driver.actor == 1) = true := by decide
  have hp : (run Pg.step (.init : Pg Unit) (PgAct.bumped
      ++ PgAct.serving 2 (.saveSnapshot ⟨0, "1.0.0", ()⟩ (some 1)) 5)).any
      (fun p => p.fenced == [(1, 1), (1, 1), (1, 1)]) = true := by decide
  have hd : (run Drivers.step (.init : Drivers Unit) (PgAct.bumped
      ++ PgAct.serving 2 (.appendEvents [.deposited 1] (some 0)) 1
      ++ PgAct.serving 3 (.saveSnapshot ⟨0, "1.0.0", ()⟩ (some 1)) 5)).map
      (fun d => d.pg.calls 2)
      = some (some (.appendEvents [.deposited 1] (some 0), .stale 0 1)) := rfl
  obtain ⟨m, hm, hm₁⟩ := (Option.any_eq_true _ _).mp hm
  obtain ⟨p, hp, hp₁⟩ := (Option.any_eq_true _ _).mp hp
  obtain ⟨d, hd, hd₁⟩ := Option.map_eq_some_iff.mp hd
  refine ⟨⟨m, hm, eq_of_beq hm₁, ?_⟩, ⟨p, hp, eq_of_beq hp₁, ?_⟩, d, hd, ?_⟩
  · exact fencing.1.1 .init m _ hm (by decide)
  · exact fencing.2.1.2 p _ hp (by decide)
  · exact (fencing.2.2 .any d _ hd (by decide)).1 2 _ _ hd₁ (by simp)

/-- **All three fail**: registering an actor again takes the token of the
memory driver back; a bump between the check of a fenced save and its write
does not stop the write; and the token of an actor that was never registered
can be bumped in one driver and not in the other. -/
theorem not_fencing :
    (¬∀ (m m' : MemoryCalls Unit) (xs : List (ℕ × Request Unit)),
        run MemoryCalls.step m xs = some m' →
        fenceOf m.driver.actor ≤ fenceOf m'.driver.actor)
    ∧ (¬∀ (p : Pg Unit) (xs : List (PgAct Unit)),
        run Pg.step .init xs = some p → Fenced p.fenced)
    ∧ ¬∀ (d : Drivers Unit) (xs : List (PgAct Unit)),
        run Drivers.step .init xs = some d →
        Along Drivers.step (Drivers.Sequential .any) .init xs →
        ∀ i r a, d.pg.calls i = some (r, a) → r ≠ .loadSnapshot →
          d.memory.calls i = some (r, a) := by
  refine ⟨fun h => ?_, fun h => ?_, fun h => ?_⟩
  · have hm : (run MemoryCalls.step (.init : MemoryCalls Unit)
        [(0, .registerActor "Counter" "1.0.0"), (1, .bumpActorFence 0)]).any
        (fun m => fenceOf m.driver.actor == 1
          && (run MemoryCalls.step m
            [(2, .registerActor "Counter" "1.0.0")]).any
              (fun m' => fenceOf m'.driver.actor == 0)) = true := by decide
    obtain ⟨m, -, hm⟩ := (Option.any_eq_true _ _).mp hm
    rw [Bool.and_eq_true, beq_iff_eq] at hm
    obtain ⟨m', hm', hzero⟩ := (Option.any_eq_true _ _).mp hm.2
    have := h m m' _ hm'
    rw [hm.1, eq_of_beq hzero] at this
    exact absurd this (by decide)
  · have hp : (run Pg.step (.init : Pg Unit)
        (PgAct.serving 0 (.registerActor "Counter" "1.0.0") 1
          ++ PgAct.serving 1 (.saveSnapshot ⟨0, "1.0.0", ()⟩ (some 0)) 1
          ++ PgAct.serving 2 (.bumpActorFence 0) 1
          ++ [.advance 1 true 0])).any (fun p => p.fenced == [(0, 1)])
        = true := by decide
    obtain ⟨p, hp, hf⟩ := (Option.any_eq_true _ _).mp hp
    have := h p _ hp (0, 1) (by rw [eq_of_beq hf]; exact List.mem_singleton_self _)
    exact absurd this (by decide)
  · have hd : (run Drivers.step (.init : Drivers Unit)
        (PgAct.serving 0 (.bumpActorFence 0) 2)).map
        (fun d => (d.pg.calls 0, d.memory.calls 0))
        = some (some (.bumpActorFence 0, .stale 0 0),
          some (.bumpActorFence 0, .fence 1)) := rfl
    obtain ⟨d, hd, hc⟩ := Option.map_eq_some_iff.mp hd
    rw [Prod.mk.injEq] at hc
    have := h d _ hd (by decide) 0 _ _ hc.1 (by simp)
    rw [hc.2, Option.some.injEq, Prod.mk.injEq] at this
    exact absurd this.2 (by simp)
