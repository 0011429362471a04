import Actjs.InFlight

/-!
# Accounting for tells

A tell is appended to the durable inbox before it enters the mailbox, and
acked in the inbox when it has been dealt with. `Tells` is what keeps the
two in step: an entry is acked only for a reason that is on record, a tell
that rejects leaves nothing behind, and one that resolves is in the mailbox,
in the hands of the worker, or was dealt with.

Three things put them out of step. The mailbox may be closed by the time the
append has landed: the tell then rejects, and its entry stays. The ack of an
entry dropped for capacity may fail, with the same effect. And a mailbox
that holds a tell may be thrown away by the next activation. The theorem is
about the runs in which none of this happens.
-/

open Function (update)

/-- The entry was dealt with: its turn was committed, or failed and was
counted, or it had no handler and was counted. -/
def HostFlow.Handled (f : HostFlow) (id : ℕ) : Prop :=
  id ∈ f.committed
    ∨ (∃ item, ErrorSource.turn item ∈ f.errors ∧ item.inboxId? = some id)
    ∨ ErrorSource.unhandled id ∈ f.errors

/-- **The accounting of tells**, where the entries in `old` were acked to
begin with.

It is said of the flow, and by where a tell or a worker is: an ack that is
under way has its reason on record before it lands, so that the log of acks
never runs ahead. -/
structure Tells (old : List ℕ) (f : HostFlow) : Prop where
  /-- What a worker acks belongs to the item it has committed. -/
  acking : ∀ g item id, f.workers g = .acking item id →
    item.inboxId? = some id ∧ id ∈ f.committed
  ended : ∀ g item id, f.workers g = .ended item → item.inboxId? = some id →
    id ∈ f.committed
  /-- A tell that acks its own entry was counted as dropped. -/
  dropping : ∀ t task id, f.tells t = some task → task.pc = .dropAcking id →
    id ∈ f.dropped
  /-- What is acked was committed, or counted as unhandled or as dropped. -/
  acked : ∀ id ∈ f.acked, id ∈ old ∨ id ∈ f.committed
    ∨ ErrorSource.unhandled id ∈ f.errors ∨ id ∈ f.dropped
  /-- A tell that rejected has left no pending entry. -/
  rejected : ∀ t task id e, f.tells t = some task →
    task.pc = .rejected (some id) e → id ∈ f.acked
  /-- A tell that resolved is queued, handled, or counted as dropped. -/
  resolved : ∀ t task id, f.tells t = some task → task.pc = .resolved id →
    f.Has .tell id ∨ f.Handled id ∨ id ∈ f.dropped

namespace Tells

variable {old : List ℕ} {f f' : HostFlow} {g : ℕ}

/-- What moves no `tell()`, acks nothing, forgets nothing and lets go only
of entries it has dealt with keeps the accounting. -/
theorem keep (h : Tells old f) (ht : f'.tells = f.tells)
    (ha : f'.acked = f.acked) (hc : f.committed ⊆ f'.committed)
    (he : f.errors ⊆ f'.errors) (hd : f'.dropped = f.dropped)
    (hack : ∀ g item id, f'.workers g = .acking item id →
      item.inboxId? = some id ∧ id ∈ f'.committed)
    (hend : ∀ g item id, f'.workers g = .ended item →
      item.inboxId? = some id → id ∈ f'.committed)
    (hk : ∀ id, f.Has .tell id → f'.Has .tell id ∨ f'.Handled id) :
    Tells old f' where
  acking := hack
  ended := hend
  dropping := by
    rw [ht, hd]
    exact h.dropping
  acked id hid := by
    rw [ha] at hid
    rw [hd]
    exact (h.acked id hid).imp_right
      (Or.imp (fun hm => hc hm) (Or.imp_left (fun hm => he hm)))
  rejected := by
    rw [ht, ha]
    exact h.rejected
  resolved t task id htask hp := by
    rw [ht] at htask
    rw [hd]
    rcases h.resolved t task id htask hp with hh | hh | hh
    · exact (hk id hh).imp_right .inl
    · exact .inr (.inl (hh.imp (fun hm => hc hm)
        (Or.imp (fun ⟨item, hi, hid⟩ => ⟨item, he hi, hid⟩) (fun hm => he hm))))
    · exact .inr (.inr hh)

/-- The accounting does not depend on the rest of the flow. -/
theorem frame (h : Tells old f) (hw : f'.workers = f.workers)
    (hb : f'.mailbox.buffer = f.mailbox.buffer) (ht : f'.tells = f.tells)
    (ha : f'.acked = f.acked) (hc : f'.committed = f.committed)
    (he : f'.errors = f.errors) (hd : f'.dropped = f.dropped) : Tells old f' :=
  h.keep ht ha (fun _ => by rw [hc]; exact id) (fun _ => by rw [he]; exact id)
    hd (by rw [hw, hc]; exact h.acking) (by rw [hw, hc]; exact h.ended)
    (fun _ hh => .inl (hh.frame hw hb))

/-- Worker `g` moves, not to a stage after its commit, and not away from an
entry it has not dealt with. -/
theorem move (h : Tells old f) {w : WorkerStage}
    (hw : f'.workers = update f.workers g w) (hm : f'.mailbox = f.mailbox)
    (ht : f'.tells = f.tells) (ha : f'.acked = f.acked)
    (hc : f.committed ⊆ f'.committed) (he : f.errors ⊆ f'.errors)
    (hd : f'.dropped = f.dropped)
    (hack : ∀ item id, w = .acking item id →
      item.inboxId? = some id ∧ id ∈ f'.committed)
    (hend : ∀ item id, w = .ended item → item.inboxId? = some id →
      id ∈ f'.committed)
    (hk : ∀ id, (f.workers g).heldEntry = some id →
      w.heldEntry = some id ∨ f'.Handled id) : Tells old f' := by
  refine h.keep ht ha hc he hd ?_ ?_ ?_
  · intro g' item id hg'
    rw [hw, Function.update_apply] at hg'
    split at hg'
    · exact hack item id hg'
    · exact (h.acking g' item id hg').imp_right (fun hm => hc hm)
  · intro g' item id hg' hid
    rw [hw, Function.update_apply] at hg'
    split at hg'
    · exact hend item id hg' hid
    · exact hc (h.ended g' item id hg' hid)
  · intro id hh
    by_cases hg : (f.workers g).heldEntry = some id
    · rcases hk id hg with hkeep | hdone
      · exact .inl (hh.move hw hm (fun _ => hkeep))
      · exact .inr hdone
    · exact .inl (hh.move hw hm (fun hg' => absurd hg' hg))

/-- A `tell()` moves. -/
theorem setTell (h : Tells old f) {t : ℕ} {task : TellTask}
    (hd : ∀ id, task.pc = .dropAcking id → id ∈ f.dropped)
    (hr : ∀ id e, task.pc = .rejected (some id) e → id ∈ f.acked)
    (hs : ∀ id, task.pc = .resolved id →
      f.Has .tell id ∨ f.Handled id ∨ id ∈ f.dropped) :
    Tells old { f with tells := update f.tells t (some task) } := by
  -- either this tell, or one that did not move
  have cases : ∀ t' task', update f.tells t (some task) t' = some task' →
      task' = task ∨ f.tells t' = some task' := by
    intro t' task' he
    rw [Function.update_apply] at he
    split at he
    · exact .inl (Option.some.inj he).symm
    · exact .inr he
  refine ⟨h.acking, h.ended, ?_, h.acked, ?_, ?_⟩
  · intro t' task' id ht hp
    rcases cases t' task' ht with rfl | ht
    · exact hd id hp
    · exact h.dropping t' task' id ht hp
  · intro t' task' id e ht hp
    rcases cases t' task' ht with rfl | ht
    · exact hr id e hp
    · exact h.rejected t' task' id e ht hp
  · intro t' task' id ht hp
    rcases cases t' task' ht with rfl | ht
    · exact hs id hp
    · exact h.resolved t' task' id ht hp

/-- A `tell()` that has appended nothing moves. -/
theorem setTell_none (h : Tells old f) {t : ℕ} {task : TellTask}
    (hp : task.pc.entry? = none) :
    Tells old { f with tells := update f.tells t (some task) } :=
  h.setTell (fun id he => absurd hp (by simp [he, TellPc.entry?]))
    (fun id e he => absurd hp (by simp [he, TellPc.entry?]))
    (fun id he => absurd hp (by simp [he, TellPc.entry?]))

/-- Enqueueing moves no worker past its commit. -/
theorem enqueue (h : Tells old f) (hl : Lifecycle f.toLife) (item : Item) :
    Tells old (f.enqueue item) := by
  refine h.keep rfl rfl (List.Subset.refl _) (List.Subset.refl _) rfl ?_ ?_
    (fun id hh => .inl (hh.enqueue hl item))
  · intro g' item' id hg'
    rcases f.enqueue_workers item g' with he | he
    · exact h.acking g' item' id (he.symm.trans hg')
    · exact absurd (he.symm.trans hg') (by simp)
  · intro g' item' id hg'
    rcases f.enqueue_workers item g' with he | he
    · exact h.ended g' item' id (he.symm.trans hg')
    · exact absurd (he.symm.trans hg') (by simp)

theorem enqueueAll (h : Tells old f) (hl : Lifecycle f.toLife)
    (rs : List InboxRecord) : Tells old (f.enqueueAll rs) := by
  induction rs generalizing f with
  | nil => exact h
  | cons r rs ih =>
    rw [HostFlow.enqueueAll]
    split
    · exact h
    · exact ih (h.enqueue hl _) (hl.enqueue _)

/-- Nor does dequeueing. -/
theorem dequeue (h : Tells old f) (hg : (f.workers g).heldEntry = none) :
    Tells old (f.dequeue g) := by
  refine h.keep rfl rfl (List.Subset.refl _) (List.Subset.refl _) rfl ?_ ?_
    (fun id hh => .inl (hh.dequeue hg))
  · intro g' item' id hg'
    rcases f.dequeue_workers g g' with he | ⟨x, he⟩ | he | he
    · exact h.acking g' item' id (he.symm.trans hg')
    all_goals exact absurd (he.symm.trans hg') (by simp)
  · intro g' item' id hg'
    rcases f.dequeue_workers g g' with he | ⟨x, he⟩ | he | he
    · exact h.ended g' item' id (he.symm.trans hg')
    all_goals exact absurd (he.symm.trans hg') (by simp)

/-! ### The steps -/

/-- A new mailbox replaces one that no tell is in. -/
theorem of_opening (h : Tells old f)
    (hG : f.activated = false → f.phase = .idle →
      ∀ item ∈ f.mailbox.buffer, item.inboxId? = none)
    (hs : f.Opening f') : Tells old f' := by
  cases hs with
  | none => exact h
  | refuse ha hp => exact h.frame rfl rfl rfl rfl rfl rfl rfl
  | begin capacity hc ha hp =>
    refine h.keep rfl rfl (List.Subset.refl _) (List.Subset.refl _) rfl h.acking h.ended ?_
    rintro id (⟨item, hi, hid⟩ | hh)
    · exact absurd hid (by simp [Reading.tell, hG ha hp item hi])
    · exact .inl (.inr hh)

theorem of_activating (h : Tells old f) (hl : Lifecycle f.toLife)
    (hs : f.Activating f') : Tells old f' := by
  cases hs with
  | @activated i hi =>
    have ha := (hl.early (by cases hi <;> simp_all)).1
    have hg : (f.workers f.activation).heldEntry = none :=
      Reading.tell.dead _ (hl.not_alive ha _)
    have h₁ : Tells old { f with
        inst := i
        activated := true
        workerPromise := some f.activation } :=
      h.frame rfl rfl rfl rfl rfl rfl rfl
    exact (h₁.dequeue hg).frame rfl rfl rfl rfl rfl rfl rfl
  | replayed hp =>
    exact (h.enqueueAll hl _).frame rfl rfl rfl rfl rfl rfl rfl
  | _ => exact h.frame rfl rfl rfl rfl rfl rfl rfl

theorem of_working (h : Tells old f) (hs : f.Working g f') :
    Tells old f' := by
  cases hs with
  | dequeue hg => exact h.dequeue (by rw [hg]; rfl)
  | exit hg =>
    exact h.move rfl rfl rfl rfl (List.Subset.refl _) (List.Subset.refl _) rfl (by simp)
      (by simp) (by simp [hg, WorkerStage.heldEntry])
  | refuse e hg =>
    exact h.move rfl rfl rfl rfl (List.Subset.refl _) (List.Subset.refl _) rfl (by simp)
      (by simp) (by simp [hg, WorkerStage.heldEntry, Item.inboxId?])
  | ignore hg =>
    exact h.move rfl rfl rfl rfl (List.Subset.refl _) (List.Subset.refl _) rfl (by simp)
      (by simp) (fun id hid => .inl (by rw [hg] at hid; exact hid))
  | start hg =>
    exact h.move rfl rfl rfl rfl (List.Subset.refl _) (List.Subset.refl _) rfl (by simp)
      (by simp) (fun id hid => .inl (by rw [hg] at hid; exact hid))
  | resolve r hg =>
    refine h.move rfl rfl rfl rfl (List.Subset.refl _) (List.Subset.refl _) rfl (by simp)
      ?_ (by simp [hg, WorkerStage.heldEntry, Item.inboxId?])
    rintro item id hi hid
    obtain rfl := WorkerStage.ended.inj hi
    exact absurd hid (by simp [Item.inboxId?])
  | commit hg =>
    refine h.move rfl rfl rfl rfl (List.subset_cons_self _ _) (List.Subset.refl _)
      rfl ?_ (by simp) (fun id hid => .inl (by rw [hg] at hid; exact hid))
    rintro item id hi
    obtain ⟨rfl, rfl⟩ := WorkerStage.acking.inj hi
    exact ⟨rfl, List.mem_cons_self⟩
  | @ack item id hg =>
    obtain ⟨hid, hc⟩ := h.acking g item id hg
    have h₁ : Tells old (f.setWorker g (.ended item)) := by
      refine h.move rfl rfl rfl rfl (List.Subset.refl _) (List.Subset.refl _) rfl (by simp)
        ?_ (fun id' hid' => .inl (by rw [hg] at hid'; exact hid'))
      rintro item' id' hi hid'
      obtain rfl := WorkerStage.ended.inj hi
      obtain rfl := Option.some.inj (hid.symm.trans hid')
      exact hc
    refine ⟨h₁.acking, h₁.ended, h₁.dropping, ?_, ?_, h₁.resolved⟩
    · intro id' hid'
      rcases List.mem_cons.mp hid' with rfl | hid'
      · exact .inr (.inl hc)
      · exact h₁.acked id' hid'
    · intro t task id' e ht hp
      exact List.mem_cons_of_mem _ (h₁.rejected t task id' e ht hp)
  | turn hg => rw [HostFlow.setWorker_self hg]; exact h
  | flush hg => rw [HostFlow.setWorker_self hg]; exact h
  | @fail item e hg =>
    refine h.move rfl rfl rfl rfl (List.Subset.refl _) (List.subset_cons_self _ _)
      rfl (by simp) (by simp) (fun id hid => .inr (.inr (.inl ?_)))
    refine ⟨item, List.mem_cons_self, ?_⟩
    rcases hg with hg | ⟨id', hg⟩ | hg <;> rw [hg] at hid <;> exact hid
  | @unhandled id ok hg =>
    have h₁ : Tells old { f.setWorker g .looping with
        errors := .unhandled id :: f.errors } := by
      refine h.move rfl rfl rfl rfl (List.Subset.refl _) (List.subset_cons_self _ _)
        rfl (by simp) (by simp) (fun id' hid' => .inr (.inr (.inr ?_)))
      rw [hg] at hid'
      obtain rfl := Option.some.inj hid'
      exact List.mem_cons_self
    cases ok with
    | false => exact h₁
    | true =>
      refine ⟨h₁.acking, h₁.ended, h₁.dropping, ?_, ?_, h₁.resolved⟩
      · intro id' hid'
        rcases List.mem_cons.mp hid' with rfl | hid'
        · exact .inr (.inr (.inl List.mem_cons_self))
        · exact h₁.acked id' hid'
      · intro t task id' e ht hp
        exact List.mem_cons_of_mem _ (h₁.rejected t task id' e ht hp)
  | finish hg =>
    refine h.move rfl rfl rfl rfl (List.Subset.refl _) (List.Subset.refl _) rfl (by simp)
      (by simp) (fun id hid => .inr (.inl ?_))
    rw [hg] at hid
    exact h.ended g _ id hg hid

theorem of_deactivating (h : Tells old f) (hs : f.Deactivating f') :
    Tells old f' := by
  cases hs with
  | drop errors hf =>
    exact h.keep rfl rfl (List.Subset.refl _) (List.subset_append_right _ _) rfl
      h.acking h.ended (fun id hh => .inl (hh.frame rfl rfl))
  | _ => exact h.frame rfl rfl rfl rfl rfl rfl rfl

theorem of_closing (h : Tells old f) (hl : Lifecycle f.toLife)
    (hs : f.Closing f') : Tells old f' := by
  cases hs with
  | none => exact h
  | close hd ha hg =>
    refine h.keep rfl rfl (List.Subset.refl _) (List.Subset.refl _) rfl ?_ ?_
      (fun id hh => .inl ((hh.closeMailbox hl).frame rfl rfl))
    · intro g' item id hg'
      rcases f.closeMailbox_workers g' with he | he
      · exact h.acking g' item id (he.symm.trans hg')
      · exact absurd (he.symm.trans hg') (by simp)
    · intro g' item id hg'
      rcases f.closeMailbox_workers g' with he | he
      · exact h.ended g' item id (he.symm.trans hg')
      · exact absurd (he.symm.trans hg') (by simp)
  | unattended _ hd ha hg => exact absurd hg (hl.present ha (by simp [hd])).1

/-- A `tell()` goes on with its mailbox open, and drops an entry only if it
can ack it. -/
theorem of_telling {t : ℕ} (h : Tells old f) (hl : Lifecycle f.toLife)
    (hopen : ∀ task id, f.tells t = some task → task.pc = .appended id →
      f.mailbox.closed = true → id ∈ f.acked)
    (hdrop : ∀ task id, f.tells t = some task → task.pc = .dropAcking id →
      f'.acked = f.acked → id ∈ f.acked)
    (hs : f.Telling t f') : Tells old f' := by
  cases hs with
  | move ht hp hp' => exact h.setTell_none hp'
  | @append type payload ht =>
    have h₁ : Tells old { f with
        tells := update f.tells t
          (some ⟨type, payload, .appended f.inbox.length⟩) } :=
      h.setTell (by simp) (by simp) (by simp)
    exact h₁.frame rfl rfl rfl rfl rfl rfl rfl
  | @closed type payload id ht hr =>
    have hclosed : f.mailbox.closed = true := by
      rcases f.mailbox.enqueue_cases (.tell type payload id) with ⟨-, hc⟩
        | ⟨he, -⟩ | ⟨w, m, he, -⟩ | ⟨m, he, -⟩
      · exact hc
      all_goals rw [he] at hr; exact absurd hr (by simp)
    have h₁ : Tells old { f with
        tells := update f.tells t
          (some ⟨type, payload, .rejected (some id) .mailboxClosed⟩) } := by
      refine h.setTell (by simp) (fun id' e he => ?_) (by simp)
      obtain rfl : id = id' := by simpa using (TellPc.rejected.inj he).1
      exact hopen _ id ht rfl hclosed
    exact h₁.frame rfl rfl rfl rfl rfl rfl rfl
  | @drop type payload id ht hr =>
    have h₀ : Tells old { f with dropped := id :: f.dropped } :=
      ⟨h.acking, h.ended,
        fun t task id' ht hp => List.mem_cons_of_mem _ (h.dropping t task id' ht hp),
        fun id' hid => (h.acked id' hid).imp_right
          (Or.imp_right (Or.imp_right (List.mem_cons_of_mem _))),
        h.rejected,
        fun t task id' ht hp => (h.resolved t task id' ht hp).imp_right
          (Or.imp_right (List.mem_cons_of_mem _))⟩
    refine h₀.setTell (fun id' he => ?_) (by simp) (by simp)
    obtain rfl := TellPc.dropAcking.inj he
    exact List.mem_cons_self
  | @accept type payload id ht hr =>
    have h₁ : Tells old { f.enqueue (.tell type payload id) with
        tells := update f.tells t (some ⟨type, payload, .resolved id⟩) } := by
      refine (h.enqueue hl (.tell type payload id)).setTell (by simp) (by simp)
        (fun id' he => .inl ?_)
      obtain rfl := TellPc.resolved.inj he
      exact .of_accepted hr rfl
    exact h₁.frame rfl rfl rfl rfl rfl rfl rfl
  | @dropAcked type payload id ht =>
    have hd := h.dropping t _ id ht rfl
    have h₁ : Tells old { f with
        tells := update f.tells t
          (some ⟨type, payload, .resolved id⟩) } := by
      refine h.setTell (by simp) (by simp) (fun id' he => .inr (.inr ?_))
      obtain rfl := TellPc.resolved.inj he
      exact hd
    refine ⟨h₁.acking, h₁.ended, h₁.dropping, fun id' hid => ?_,
      fun t' task id' e ht hp => List.mem_cons_of_mem _
        (h₁.rejected t' task id' e ht hp), h₁.resolved⟩
    rcases List.mem_cons.mp hid with rfl | hid
    · exact .inr (.inr (.inr hd))
    · exact h₁.acked id' hid
  | @dropFailed type payload id ht =>
    have h₁ : Tells old { f with
        tells := update f.tells t
          (some ⟨type, payload, .rejected (some id) .storage⟩) } := by
      refine h.setTell (by simp) (fun id' e he => ?_) (by simp)
      obtain rfl : id = id' := by simpa using (TellPc.rejected.inj he).1
      exact hdrop _ id ht rfl rfl
    exact h₁.frame rfl rfl rfl rfl rfl rfl rfl

theorem of_calling {c : ℕ} (h : Tells old f) (hl : Lifecycle f.toLife)
    (hs : f.Calling c f') : Tells old f' := by
  cases hs with
  | move hp => exact h.frame rfl rfl rfl rfl rfl rfl rfl
  | accept method args hf hr =>
    exact (h.enqueue hl _).frame rfl rfl rfl rfl rfl rfl rfl

end Tells

/-! ## Runs

`keepsTells` names the three things that put inbox and mailbox out of step,
each as a condition on the state before the step that does it. -/

variable {S Env Op : Type}

/-- An activation may begin: if it does, it throws away no mailbox with a
tell in it. -/
def Sys.mailboxSpent (s : Sys S Env Op) : Bool :=
  s.host.activated || s.host.activating.isSome || s.host.destroyed
    || s.host.mailbox.buffer.all (fun item => item.inboxId?.isNone)

/-- **When the accounting is kept**: a `tell()` whose append has landed finds
its mailbox open, a dropped entry is acked, and no mailbox with a tell in it
is thrown away. What was acked already does not matter. -/
def Sys.keepsTells (s : Sys S Env Op) : Act Env → Bool
  | .tellResume t =>
    match s.host.tells t with
    | some ⟨_, _, .appended id⟩ =>
      !s.host.mailbox.closed || s.store.acked.contains id
    | _ => true
  | .tellLand t ok =>
    match s.host.tells t with
    | some ⟨_, _, .dropAcking id⟩ => ok || s.store.acked.contains id
    | _ => true
  | .activate => s.mailboxSpent
  | .tellStart _ _ _ => s.mailboxSpent
  | .callStart _ _ _ => s.mailboxSpent
  | _ => true

/-- **The accounting of tells**, of one state of a host whose inbox had the
entries in `old` acked to begin with. -/
structure TellAccounting (old : List ℕ) (s : Sys S Env Op) : Prop where
  /-- An entry is acked only if its commit succeeded, or it had no handler
  and was counted, or it was counted as dropped. -/
  acked : ∀ id ∈ s.store.acked, id ∈ old ∨ id ∈ s.hist.committed
    ∨ ErrorSource.unhandled id ∈ s.host.metrics.handlerErrors
    ∨ id ∈ s.host.metrics.tellsDropped
  /-- A `tell()` that rejected has left no pending entry. -/
  rejected : ∀ t task id e, s.host.tells t = some task →
    task.pc = .rejected (some id) e → id ∈ s.store.acked
  /-- The entry of a `tell()` that resolved is in the mailbox or in the
  worker's hands, or handled, or counted as dropped. -/
  resolved : ∀ t task id, s.host.tells t = some task →
    task.pc = .resolved id →
    s.flow.Has .tell id ∨ s.flow.Handled id ∨ id ∈ s.host.metrics.tellsDropped

namespace Tells

variable {cfg : HostConfig S Env Op} {old : List ℕ} {s s' : Sys S Env Op}

theorem init (cfg : HostConfig S Env Op) (store : ActorStore S) :
    Tells store.acked (Sys.init cfg store).flow := by
  refine ⟨?_, ?_, ?_, fun id hid => .inl hid, ?_, ?_⟩ <;>
    simp [Sys.init, Sys.flow, Host.init, WorkerPc.stage]

/-- `activate()` throws away no mailbox with a tell in it. -/
theorem activate (h : Tells old s.flow) (hG : s.mailboxSpent = true) :
    Tells old (s.activate cfg).flow := by
  by_cases hd : s.host.destroyed = true
  · unfold Sys.activate Sys.beginActivation
    dsimp only
    rw [if_pos hd]
    split
    · exact h
    · split
      · exact h
      · exact h.frame rfl rfl rfl rfl rfl rfl rfl
  · refine h.of_opening (fun ha hp item hi => ?_) (Sys.flow_activate cfg s)
    have hact : s.host.activated = false := ha
    have hidle : s.host.activating = none := by
      cases hpc : s.host.activating with
      | none => rfl
      | some pc =>
        rw [Sys.flow_phase hpc] at hp
        cases pc <;> exact absurd hp (by simp [ActPc.phase])
    simp only [Sys.mailboxSpent, hact, hidle, hd, Option.isSome_none,
      Bool.false_or, List.all_eq_true] at hG
    simpa using hG item hi

/-- **One step keeps the accounting**, under its condition. -/
theorem step {a : Act Env} (h : Tells old s.flow) (hl : Lifecycle s.flow.toLife)
    (hG : s.keepsTells a = true) (hs : s.step cfg a = some s') :
    Tells old s'.flow := by
  have hm := Sys.flow_step hs
  cases a with
  | activate =>
    obtain rfl := Option.some.inj hs
    exact h.activate hG
  | tellStart t type payload =>
    rw [Sys.step, Sys.tellStart] at hs
    split at hs
    · exact absurd hs (by simp)
    split at hs
    · obtain rfl := Option.some.inj hs
      exact h.setTell_none rfl
    split at hs
    · obtain rfl := Option.some.inj hs
      exact h.setTell_none rfl
    · obtain rfl := Option.some.inj hs
      exact (h.activate hG).setTell_none rfl
  | tellLand t ok =>
    refine h.of_telling hl ?_ ?_ hm
    · rintro ⟨type, payload, pc⟩ id ht rfl
      have ht' : s.host.tells t = some ⟨type, payload, .appended id⟩ := ht
      simp [Sys.step, Sys.tellLand, ht'] at hs
    · rintro ⟨type, payload, pc⟩ id ht rfl ha
      have ht' : s.host.tells t = some ⟨type, payload, .dropAcking id⟩ := ht
      simp only [Sys.keepsTells, ht', Bool.or_eq_true] at hG
      rcases hG with hok | hacked
      · -- the ack has landed, and is not what was acked before
        simp only [Sys.step, Sys.tellLand, ht', hok, if_true,
          Option.some.injEq] at hs
        rw [← hs] at ha
        exact absurd (show id :: s.store.acked = s.store.acked from ha)
          (List.cons_ne_self _ _)
      · exact List.contains_iff_mem.mp hacked
  | tellResume t =>
    refine h.of_telling hl ?_ ?_ hm
    · rintro ⟨type, payload, pc⟩ id ht rfl hclosed
      have ht' : s.host.tells t = some ⟨type, payload, .appended id⟩ := ht
      have hclosed' : s.host.mailbox.closed = true := hclosed
      simp only [Sys.keepsTells, ht', hclosed', Bool.not_true,
        Bool.false_or] at hG
      exact List.contains_iff_mem.mp hG
    · rintro ⟨type, payload, pc⟩ id ht rfl
      have ht' : s.host.tells t = some ⟨type, payload, .dropAcking id⟩ := ht
      simp [Sys.step, Sys.tellResume, ht'] at hs
  | callStart c method args =>
    rw [Sys.step, Sys.callStart] at hs
    split at hs
    · exact absurd hs (by simp)
    split at hs
    · obtain rfl := Option.some.inj hs
      exact h.frame rfl rfl rfl rfl rfl rfl rfl
    split at hs
    · obtain rfl := Option.some.inj hs
      exact h.of_calling hl (Sys.flow_callEnqueue method args)
    · obtain rfl := Option.some.inj hs
      exact (h.activate hG).frame rfl rfl rfl rfl rfl rfl rfl
  | callResume c => exact h.of_calling hl hm.2
  | activation env ok => exact h.of_activating hl hm
  | worker g env ok => exact h.of_working hm
  | deactivate env => exact h.of_closing hl hm
  | deactivation env => exact h.of_deactivating hm
  | destroy env => exact h.of_closing hl hm
  | idleFire env => exact h.of_closing hl hm
  | flushResume k =>
    obtain ⟨es, he⟩ := hm
    rw [he]
    exact h.keep rfl rfl (List.Subset.refl _) (List.subset_append_right _ _)
      rfl h.acking h.ended (fun _ hh => .inl (hh.frame rfl rfl))
  | _ =>
    have he : s'.flow = s.flow := hm
    rw [he]
    exact h

end Tells

/-- **Tells are accounted for** in every state reached by a run along which
each `tell()` finds the mailbox open when its append has landed, each entry
dropped for capacity is acked, and no mailbox with a tell in it is thrown
away. -/
theorem tell_accounting (cfg : HostConfig S Env Op) (store : ActorStore S)
    {as : List (Act Env)} {s : Sys S Env Op}
    (hG : TransitionSystem.Along (Sys.step cfg)
      (fun s a => s.keepsTells a = true) (.init cfg store) as)
    (hs : TransitionSystem.run (Sys.step cfg) (.init cfg store) as = some s) :
    TellAccounting store.acked s := by
  have h : Lifecycle s.flow.toLife ∧ Tells store.acked s.flow :=
    TransitionSystem.run_invariant (Sys.step cfg)
      (P := fun s => Lifecycle s.flow.toLife ∧ Tells store.acked s.flow)
      (fun _ _ _ h hG hs => ⟨h.1.of_moves (Sys.flow_step hs),
        h.2.step h.1 hG hs⟩) ⟨.init cfg store, .init cfg store⟩ hG hs
  exact ⟨h.2.acked, h.2.rejected, h.2.resolved⟩

/-- Three tells: one is handed to the worker and handled, one is buffered,
and one finds the mailbox full and is dropped. -/
def toldAndDropped : List (Act Bool) :=
  [.activate] ++ Counter.activating 8 ++ Counter.telling 0 "inc"
    ++ Counter.telling 1 "inc" ++ Counter.telling 2 "inc"
    ++ [.tellLand 2 true] ++ Counter.working 1 5

/-- The theorem applies to that run, along which entry 0 is acked as
committed and entry 2 as dropped, and entry 1 is not acked yet. -/
theorem tell_accounting_toldAndDropped :
    ∃ s, TransitionSystem.run (Sys.step Counter.cfg)
        (.init Counter.cfg .empty) toldAndDropped = some s
      ∧ s.store.acked = [0, 2] ∧ TellAccounting [] s := by
  have hrun : (TransitionSystem.run (Sys.step Counter.cfg)
      (.init Counter.cfg .empty) toldAndDropped).any
        (fun s => s.store.acked == [0, 2]) = true := by decide
  obtain ⟨s, hs, hr⟩ := (Option.any_eq_true _ _).mp hrun
  exact ⟨s, hs, by simpa using hr,
    tell_accounting Counter.cfg .empty (by decide) hs⟩

/-- A `tell()` whose mailbox is closed while its append is on its way. -/
def toldWhileClosing : List (Act Bool) :=
  [.activate] ++ Counter.activating 8
    ++ [.tellStart 0 "inc" .null, .idleFire true, .tellLand 0 true,
      .tellResume 0]

/-- The entry of tell `t` is pending although the `tell()` rejected. -/
def Sys.leftPending (s : Sys S Env Op) (t : ℕ) : Bool :=
  match s.host.tells t with
  | some ⟨_, _, .rejected (some id) _⟩ => !s.store.acked.contains id
  | _ => false

/-- **A tell may reject and be replayed later**: the accounting is not kept
in every run. -/
theorem not_tell_accounting :
    ¬∀ (as : List (Act Bool)) (s : Sys ℕ Bool ℕ),
      TransitionSystem.run (Sys.step Counter.cfg) (.init Counter.cfg .empty) as
        = some s → TellAccounting [] s := by
  intro h
  have hrun : (TransitionSystem.run (Sys.step Counter.cfg)
      (.init Counter.cfg .empty) toldWhileClosing).any
        (fun s => s.leftPending 0) = true := by decide
  obtain ⟨s, hs, hr⟩ := (Option.any_eq_true _ _).mp hrun
  unfold Sys.leftPending at hr
  split at hr
  · next id e ht =>
    have := (h toldWhileClosing s hs).rejected 0 _ id e ht rfl
    exact absurd this (by simpa using hr)
  · exact absurd hr (by simp)
