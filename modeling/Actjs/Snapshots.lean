import Actjs.Beside

/-!
# Snapshots at turn boundaries

A snapshot is written from the state object itself, when the debounce timer
fires, at the end of a deactivation, after a migration, or every so many
events. Between two awaits of a handler the object may be halfway through a
turn. `Kept` says that nothing halfway is on its way to storage or was sent
to a subscriber, `Sys.Whole` that what can be read of the state now is not
halfway.

## What refers to the state object

A write that was handed to the driver refers to the object until the driver
has encoded it for the last time; when that is, is for the driver. And a
driver may never encode at all, and go on holding the objects it was given.
So the invariant is about two kinds of reference: the writes of the host that
are not encoded (`SavePc.toEncode`), and objects that the driver holds beside
them; these, and the states it has encoded by now, are a parameter here, the
`Holdings` of the driver. An object of either kind reads as it could be read at
a turn boundary.

Two things break this, and no others: the timer fires, or a subscriber
attaches, while a handler or a hook is at an await; and a handler or a hook
mutates the object, and then awaits, while something refers to it. This
module has what the two kinds of reference come to when user code runs, and
the steps of the worker; the other steps of a host, and the two drivers, are
in the modules after it. All of it is about both kinds of actor, of which a
state-with-messages actor is one.
-/

open Function (update)

variable {S Env Op : Type}

/-! ## What is halfway

A state is halfway while user code that has mutated it is at an await. A
segment that installs a new object, or ends its script, leaves nothing
halfway. -/

/-- The next segment leaves a mutation behind and is not the last. -/
def Script.tears {R : Type} : Script S R → Bool
  | .await (.mutate _) _ => true
  | _ => false

/-- A hook is at an await of its own. -/
def HookPc.isRunning : HookPc S → Bool
  | running _ => true
  | returned _ => false

/-- The handler is at an await of its own. -/
def WorkerPc.isRunning : WorkerPc S → Bool
  | running _ _ => true
  | _ => false

/-- The state of the instance is installed, and no hook is at an await. -/
def ActPc.installed : ActPc S Env → Bool
  | register => false
  | onInit pc => !pc.isRunning
  | onActivate pc => !pc.isRunning
  | _ => true

/-- No hook of the deactivation is at an await. -/
def DeactPc.isRunning : DeactPc S → Bool
  | onDeactivate pc => pc.isRunning
  | _ => false

@[simp] theorem WorkerPc.isRunning_after (item : Item) (p : Script S Json) :
    (WorkerPc.after item p).isRunning = !p.ends := by
  unfold WorkerPc.after Script.ends
  cases p.next <;> rfl

@[simp] theorem HookPc.isRunning_after (p : Script S Unit) :
    (HookPc.after p).isRunning = !p.ends := by
  unfold HookPc.after Script.ends
  cases p.next <;> rfl

/-! ## What a step leaves alone

Most steps touch neither the objects nor the writes. `Holdings` is what the
driver adds to what has to be kept. -/

/-- **A step that has nothing to do with the state**: it leaves the state
objects, the writes of snapshots and what was sent as they are. -/
structure Still (s s' : Sys S Env Op) : Prop where
  objs : s'.host.objs = s.host.objs
  cls : s'.host.cls = s.host.cls
  saves : s'.host.saves = s.host.saves
  snapshots : s'.store.snapshots = s.store.snapshots
  boundaries : s'.hist.boundaries = s.hist.boundaries
  notifs : s'.hist.notifs = s.hist.notifs

/-- **What a driver has of the states it was given**: objects that it holds, and what
it has encoded, on the way to where a load finds it or there. -/
structure Holdings (S : Type) where
  objs : List ℕ
  states : S → Prop

namespace Sys

/-- What can be read of the state is what could be read at a boundary. -/
def Whole (s : Sys S Env Op) : Prop := s.host.readable ⊆ s.hist.boundaries

/-- Write `k` refers to the object of the state, and is not encoded. -/
def Unencoded (s : Sys S Env Op) (k : ℕ) : Prop :=
  ∃ sv, s.host.saves[k]? = some sv ∧ sv.pc = .toEncode s.host.objs.cur

/-- **Nothing refers to the object of the state** but the instance: no write, and
nothing that the driver holds. -/
def Free (s : Sys S Env Op) (held : Holdings S) : Prop :=
  (∀ k, ¬s.Unencoded k) ∧ s.host.objs.cur ∉ held.objs

/-- The state was stored to begin with, or could be read at a boundary. -/
def Settled (s : Sys S Env Op) (old : List S) (x : S) : Prop :=
  x ∈ old ∨ x ∈ s.hist.boundaries

end Sys

/-- **Nothing halfway is on its way to storage, or was sent**, where `old` are
the states stored to begin with and `held` is what the driver has. What it has
may have been stored to begin with; what the host hands over is what could be
read at a boundary. -/
structure Kept (old : List S) (held : Holdings S) (s : Sys S Env Op) :
    Prop where
  /-- A write that is not encoded refers to an object that reads as at a
  boundary. -/
  encode : ∀ sv ∈ s.host.saves, ∀ obj, sv.pc = .toEncode obj →
    obj < s.host.objs.next ∧ s.host.objs.val obj ∈ s.hist.boundaries
  /-- So does whatever else the driver holds. -/
  holds : ∀ obj ∈ held.objs, obj < s.host.objs.next
    ∧ s.Settled old (s.host.objs.val obj)
  has : ∀ x, held.states x → s.Settled old x
  /-- What is stored was stored before, or is from a boundary. -/
  written : ∀ p ∈ s.store.snapshots, s.Settled old p.2.state
  /-- What a subscriber was sent is from a boundary. -/
  sent : ∀ l data seq, .snapshot data seq ∈ s.hist.notifs l →
    ∃ x ∈ s.hist.boundaries, data = some x

/-! ## Segments

What one segment of user code does to what is kept: it may mutate the object
if nothing refers to it, or if the segment is the last before a boundary. -/

section Segments

variable {old : List S} {held : Holdings S} {s s' : Sys S Env Op}

theorem Still.whole (h : Still s s') (hw : s.Whole) : s'.Whole := by
  unfold Sys.Whole Host.readable Host.state
  rw [h.objs, h.cls, h.boundaries]
  exact hw

theorem Still.unencoded (h : Still s s') {k : ℕ} :
    s'.Unencoded k ↔ s.Unencoded k := by
  unfold Sys.Unencoded
  rw [h.objs, h.saves]

/-- The state can be read once its boundary is recorded. -/
theorem Sys.whole_boundary (s : Sys S Env Op) : s.boundary.Whole :=
  List.subset_append_left _ _

/-- The last segment of a script is followed by a boundary. -/
theorem Sys.whole_runSegment {R : Type} {p : Script S R}
    (hp : p.ends = true) : (s.runSegment p).Whole := by
  show (_ : List S) ⊆ if p.ends = true then _ else _
  rw [if_pos hp]
  exact List.subset_append_left _ _

theorem Sys.whole_flush (hw : s.Whole) :
    Sys.Whole { s with host := s.host.flushSnapshot } := by
  unfold Sys.Whole Host.readable
  dsimp only
  rw [Host.state_flushSnapshot]
  exact hw

namespace Kept

/-- More boundaries, and nothing else, is no harm. -/
theorem frame (h : Kept old held s) (ho : s'.host.objs = s.host.objs)
    (hs : s'.host.saves = s.host.saves)
    (hp : s'.store.snapshots = s.store.snapshots)
    (hb : s.hist.boundaries ⊆ s'.hist.boundaries)
    (hn : s'.hist.notifs = s.hist.notifs) : Kept old held s' := by
  have hsettled : ∀ {x}, s.Settled old x → s'.Settled old x := Or.imp_right (hb ·)
  refine ⟨fun sv hsv obj hpc => ?_, fun obj hobj => ?_,
    fun x hx => hsettled (h.has x hx), fun p hp' => ?_, fun l data seq hm => ?_⟩
  · rw [hs] at hsv
    rw [ho]
    exact (h.encode sv hsv obj hpc).imp_right (hb ·)
  · rw [ho]
    exact (h.holds obj hobj).imp_right hsettled
  · rw [hp] at hp'
    exact hsettled (h.written p hp')
  · rw [hn] at hm
    exact (h.sent l data seq hm).imp (fun x hx => hx.imp_left (hb ·))

theorem of_still (h : Kept old held s) (hs : Still s s') : Kept old held s' :=
  h.frame hs.objs hs.saves hs.snapshots
    (by rw [hs.boundaries]; exact List.Subset.refl _) hs.notifs

theorem boundary (h : Kept old held s) : Kept old held s.boundary :=
  h.frame rfl rfl rfl (List.subset_append_right _ _) rfl

/-- **A new object is assigned**: what is on its way refers to older
ones. -/
theorem assign (h : Kept old held s) {x : S}
    (ho : s'.host.objs = s.host.objs.assign x)
    (hs : s'.host.saves = s.host.saves)
    (hp : s'.store.snapshots = s.store.snapshots)
    (hb : s.hist.boundaries ⊆ s'.hist.boundaries)
    (hn : s'.hist.notifs = s.hist.notifs) : Kept old held s' := by
  have hassign : Kept old held
      { s with host := { s.host with objs := s.host.objs.assign x } } := by
    have hval : ∀ obj < s.host.objs.next,
        (s.host.objs.assign x).val obj = s.host.objs.val obj := fun obj hlt =>
      Function.update_of_ne (Nat.ne_of_lt hlt) _ _
    refine ⟨fun sv hsv obj hpc => ?_, fun obj hobj => ?_, h.has, h.written, h.sent⟩
    · obtain ⟨hlt, hin⟩ := h.encode sv hsv obj hpc
      exact ⟨Nat.lt_succ_of_lt hlt, (hval obj hlt).symm ▸ hin⟩
    · obtain ⟨hlt, hin⟩ := h.holds obj hobj
      exact ⟨Nat.lt_succ_of_lt hlt, (hval obj hlt).symm ▸ hin⟩
  exact hassign.frame ho hs hp hb hn

/-- The new object is not on its way. -/
theorem not_unencoded (h : Kept old held s) {x : S} {k : ℕ}
    (hk : s'.Unencoded k) (ho : s'.host.objs = s.host.objs.assign x)
    (hs : s'.host.saves = s.host.saves) : False := by
  obtain ⟨sv, hk, hpc⟩ := hk
  rw [hs] at hk
  rw [ho] at hpc
  have hlt := (h.encode sv (List.mem_of_getElem? hk) _ hpc).1
  exact absurd hlt (Nat.lt_irrefl _)

/-- Nor does the driver hold it. -/
theorem not_holds (h : Kept old held s) {x : S}
    (ho : s'.host.objs = s.host.objs.assign x) : s'.host.objs.cur ∉ held.objs := by
  rw [ho]
  exact fun hmem => absurd (h.holds _ hmem).1 (Nat.lt_irrefl _)

/-- **What a segment of user code leaves behind in an object** that something
refers to: what was there, or, in the object of the state, what is read at the
boundary that follows, unless the segment mutates and awaits. -/
theorem val_runSegment {R : Type} (s : Sys S Env Op) (p : Script S R) {obj : ℕ}
    (hlt : obj < s.host.objs.next)
    (hp : p.tears = true → obj ≠ s.host.objs.cur) :
    obj < (s.runSegment p).host.objs.next
      ∧ ((s.runSegment p).host.objs.val obj = s.host.objs.val obj
        ∨ (s.runSegment p).host.objs.val obj ∈ (s.runSegment p).hist.boundaries) := by
  show obj < (s.host.objs.apply p.change).next
    ∧ ((s.host.objs.apply p.change).val obj = _
      ∨ (s.host.objs.apply p.change).val obj ∈ _)
  cases hc : p.change with
  | keep => exact ⟨hlt, .inl rfl⟩
  | assign x =>
    exact ⟨Nat.lt_succ_of_lt hlt, .inl (Function.update_of_ne (Nat.ne_of_lt hlt) _ _)⟩
  | mutate x =>
    refine ⟨hlt, ?_⟩
    by_cases ho : obj = s.host.objs.cur
    · subst ho
      refine .inr ?_
      show update s.host.objs.val s.host.objs.cur x s.host.objs.cur ∈ _
      rw [Function.update_self]
      cases he : p.ends with
      | true =>
        -- the mutated object is what is read at the boundary
        refine Sys.whole_runSegment he ?_
        have hread : (s.runSegment p).host.state = x := by
          show (s.host.objs.apply p.change).read = x
          rw [hc]
          exact Objects.read_mutate _ _
        rw [← hread]
        exact List.mem_cons_self
      | false =>
        have ht : p.tears = true := by
          cases p <;> simp_all [Script.change, Script.ends, Script.next,
            Script.tears]
        exact absurd rfl (hp ht)
    · exact .inl (Function.update_of_ne ho _ _)

/-- **A segment of user code** leaves nothing halfway behind, unless it
mutates and awaits while something refers to the object. -/
theorem runSegment {R : Type} (h : Kept old held s) {p : Script S R}
    (hp : p.tears = true → s.Free held) : Kept old held (s.runSegment p) := by
  have hsub : s.hist.boundaries ⊆ (s.runSegment p).hist.boundaries := by
    show (_ : List S) ⊆ if p.ends = true then _ else _
    split
    · exact List.subset_append_right _ _
    · exact List.Subset.refl _
  have hsettled : ∀ {x}, s.Settled old x → (s.runSegment p).Settled old x :=
    Or.imp_right (hsub ·)
  refine ⟨fun sv hsv obj hpc => ?_, fun obj hobj => ?_, fun x hx => hsettled (h.has x hx),
    fun q hq => hsettled (h.written q hq),
    fun l data seq hn =>
      (h.sent l data seq hn).imp (fun x hx => hx.imp_left (hsub ·))⟩
  · obtain ⟨hlt, hin⟩ := h.encode sv hsv obj hpc
    obtain ⟨k, hk⟩ := List.mem_iff_getElem?.mp hsv
    obtain ⟨hlt', hval | hval⟩ := val_runSegment s p hlt
      (fun ht ho => (hp ht).1 k ⟨sv, hk, ho ▸ hpc⟩)
    · exact ⟨hlt', hval.symm ▸ hsub hin⟩
    · exact ⟨hlt', hval⟩
  · obtain ⟨hlt, hin⟩ := h.holds obj hobj
    obtain ⟨hlt', hval | hval⟩ := val_runSegment s p hlt
      (fun ht ho => (hp ht).2 (ho ▸ hobj))
    · exact ⟨hlt', hval.symm ▸ hsettled hin⟩
    · exact ⟨hlt', .inr hval⟩

/-- A write of the state object is handed to the driver at a boundary. -/
theorem saveSnapshot (h : Kept old held s) (hw : s.Whole) (seq : ℤ)
    (version : Version) :
    Kept old held { s with
      host := s.host.saveSnapshot seq version s.host.objs.cur } := by
  refine ⟨fun sv hsv obj hp => ?_, h.holds, h.has, h.written, h.sent⟩
  rcases List.mem_append.mp hsv with hsv | hsv
  · exact h.encode sv hsv obj hp
  · obtain rfl := List.mem_singleton.mp hsv
    obtain rfl := SavePc.toEncode.inj hp
    exact ⟨s.host.objs.cur_lt, hw List.mem_cons_self⟩

/-- So is one of what `snapshot()` returns. -/
theorem flush (h : Kept old held s) (hw : s.Whole) :
    Kept old held { s with host := s.host.flushSnapshot } := by
  have hval : ∀ obj < s.host.objs.next, obj < s.host.snapshotObjs.next
      ∧ s.host.snapshotObjs.val obj = s.host.objs.val obj := by
    intro obj hlt
    unfold Host.snapshotObjs
    cases s.host.cls.snapshot with
    | none => exact ⟨hlt, rfl⟩
    | some f =>
      exact ⟨Nat.lt_succ_of_lt hlt,
        Function.update_of_ne (Nat.ne_of_lt hlt) _ _⟩
  have hnew : s.host.snapshotObj < s.host.snapshotObjs.next
      ∧ s.host.snapshotObjs.val s.host.snapshotObj ∈ s.hist.boundaries := by
    unfold Sys.Whole Host.readable at hw
    unfold Host.snapshotObjs Host.snapshotObj
    cases hc : s.host.cls.snapshot with
    | none =>
      exact ⟨s.host.objs.cur_lt, hw List.mem_cons_self⟩
    | some f =>
      rw [hc] at hw
      refine ⟨Nat.lt_succ_self _, ?_⟩
      show update s.host.objs.val s.host.objs.next _ s.host.objs.next ∈ _
      rw [Function.update_self]
      exact hw (List.mem_cons_of_mem _ List.mem_cons_self)
  refine ⟨fun sv hsv obj hp => ?_, fun obj hobj => ?_, h.has, h.written, h.sent⟩
  · rcases List.mem_append.mp hsv with hsv | hsv
    · obtain ⟨hlt, hin⟩ := h.encode sv hsv obj hp
      exact ⟨(hval obj hlt).1, (hval obj hlt).2.symm ▸ hin⟩
    · obtain rfl := List.mem_singleton.mp hsv
      obtain rfl := SavePc.toEncode.inj hp
      exact hnew
  · obtain ⟨hlt, hin⟩ := h.holds obj hobj
    exact ⟨(hval obj hlt).1, (hval obj hlt).2.symm ▸ hin⟩

/-- Emitting to subscribers sends no snapshot. -/
theorem emit (h : Kept old held s) {ns : List (Notification S Op)}
    (hn : ∀ data seq, .snapshot data seq ∉ ns) : Kept old held (s.emit ns) := by
  refine ⟨h.encode, h.holds, h.has, h.written, fun l data seq hm => ?_⟩
  change _ ∈ (if l ∈ s.host.commitListeners then s.hist.notifs l ++ ns
    else s.hist.notifs l) at hm
  split at hm
  · rcases List.mem_append.mp hm with hm | hm
    · exact h.sent l data seq hm
    · exact absurd hm (hn data seq)
  · exact h.sent l data seq hm

/-- **A write that the driver no longer encodes** is out of the way. -/
theorem setSave (h : Kept old held s) (k : ℕ) {sv : Save S}
    (he : ∀ obj, sv.pc ≠ .toEncode obj) : Kept old held (s.setSave k sv) := by
  refine ⟨fun sv' hsv obj hp => ?_, h.holds, h.has, h.written, h.sent⟩
  rcases List.mem_or_eq_of_mem_set hsv with hsv | rfl
  · exact h.encode sv' hsv obj hp
  · exact absurd hp (he obj)

/-- **The driver has something else**: objects that read as at a boundary, and states
that are settled. -/
theorem hold (h : Kept old held s) {held' : Holdings S}
    (hobjs : ∀ obj ∈ held'.objs, obj ∈ held.objs ∨ obj < s.host.objs.next
      ∧ s.host.objs.val obj ∈ s.hist.boundaries)
    (hstates : ∀ x, held'.states x → held.states x ∨ s.Settled old x) : Kept old held' s :=
  ⟨h.encode, fun obj hobj => (hobjs obj hobj).elim (h.holds obj) (.imp_right .inr),
    fun x hx => (hstates x hx).elim (h.has x) id, h.written, h.sent⟩

/-- A subscriber attaches at a boundary. -/
theorem subscribe (h : Kept old held s) (hw : s.Whole) {l : ℕ}
    (hi : s.host.inst.isSome = true) (hs : s.subscribe l = some s') :
    Kept old held s' := by
  unfold Sys.subscribe at hs
  split at hs
  · exact absurd hs (by simp)
  · obtain rfl := Option.some.inj hs
    obtain ⟨i, hi⟩ := Option.isSome_iff_exists.mp hi
    refine ⟨h.encode, h.holds, h.has, h.written, fun l' data seq hm => ?_⟩
    change _ ∈ update s.hist.notifs l _ l' at hm
    rw [Function.update_apply] at hm
    split at hm
    · rw [List.mem_singleton, Notification.snapshot.injEq, hi] at hm
      exact ⟨s.host.state, hw List.mem_cons_self, hm.1⟩
    · exact h.sent l' data seq hm

end Kept

/-! ## Writes of the state object -/

/-- A segment hands over no write of the state object. -/
theorem Kept.not_unencoded_runSegment {R : Type} (h : Kept old held s)
    (hs : ∀ k, ¬s.Unencoded k) (p : Script S R) (k : ℕ) :
    ¬(s.runSegment p).Unencoded k := by
  rintro ⟨sv, hk, hpc⟩
  change sv.pc = .toEncode (s.host.objs.apply p.change).cur at hpc
  cases hc : p.change with
  | keep => exact hs k ⟨sv, hk, by rw [hc] at hpc; exact hpc⟩
  | mutate x => exact hs k ⟨sv, hk, by rw [hc] at hpc; exact hpc⟩
  | assign x =>
    rw [hc] at hpc
    have hlt := (h.encode sv (List.mem_of_getElem? hk) _ hpc).1
    exact absurd hlt (Nat.lt_irrefl _)

/-- A write that has settled is encoded. -/
theorem Sys.not_unencoded_of_saveResult {k : ℕ} {ok : Bool}
    (h : s.host.saveResult k = some ok) : ¬s.Unencoded k := by
  rintro ⟨⟨seq, version, pc⟩, hk, rfl⟩
  simp [Host.saveResult, hk] at h

/-- Handing over a write adds that one to those on their way. -/
theorem Sys.unencoded_append {sv : Save S} {k : ℕ} (hk : s'.Unencoded k)
    (hs : s'.host.saves = s.host.saves ++ [sv])
    (hc : s'.host.objs.cur = s.host.objs.cur) : s.Unencoded k ∨ k = s.host.saves.length := by
  obtain ⟨sv', hk, hpc⟩ := hk
  rw [hs] at hk
  rw [hc] at hpc
  rcases Nat.lt_or_ge k s.host.saves.length with hlt | hge
  · rw [List.getElem?_append_left hlt] at hk
    exact .inl ⟨sv', hk, hpc⟩
  · refine .inr (Nat.le_antisymm ?_ hge)
    rw [List.getElem?_append_right hge] at hk
    by_contra hlt
    rw [List.getElem?_eq_none (by rw [List.length_singleton]; omega)] at hk
    exact absurd hk (by simp)

/-- A flush hands over one write. -/
theorem Sys.unencoded_flush {k : ℕ}
    (hk : Sys.Unencoded { s with host := s.host.flushSnapshot } k) :
    s.Unencoded k ∨ k = s.host.saves.length := by
  refine Sys.unencoded_append hk rfl ?_
  show s.host.snapshotObjs.cur = s.host.objs.cur
  unfold Host.snapshotObjs
  cases s.host.cls.snapshot <;> rfl

end Segments

/-! ## The invariant

`Snapshots` is `Kept` together with where the host is: at a boundary, or in a
handler or hook whose object nothing refers to. -/

/-- No handler and no hook of a deactivation is at an await. -/
structure Sys.Quiet (s : Sys S Env Op) : Prop where
  worker : ∀ g, (s.host.workers g).isRunning = false
  deactivation : ∀ d, s.host.deactivating = some d → d.pc.isRunning = false

/-- **What keeps snapshots at turn boundaries.** Before the host is activated,
the object of the state is on its way to storage only if the activation awaits
that write. From then on the state reads as at a boundary whenever no handler
and no hook is at an await. -/
structure Snapshots (old : List S) (held : Holdings S) (s : Sys S Env Op) :
    Prop where
  kept : Kept old held s
  opening : ∀ pc, s.host.activating = some pc → pc.phase = .opening →
    (pc.installed = true → s.Whole) ∧ ∀ k, s.Unencoded k → pc.awaits = some k
  serving : s.host.activated = true → s.Quiet → s.Whole

namespace Snapshots

variable {old : List S} {held : Holdings S} {s s' : Sys S Env Op}

/-- A step beside the state: no activation gets to a later stage, and what
is quiet afterwards was quiet before. -/
theorem aside (h : Snapshots old held s) (hs : Still s s')
    (hact : ∀ pc, s'.host.activating = some pc → pc.phase = .opening →
      s.host.activating = some pc)
    (hq : s'.host.activated = true → s'.Quiet →
      s.host.activated = true ∧ s.Quiet) : Snapshots old held s' where
  kept := h.kept.of_still hs
  opening pc hpc hp := by
    obtain ⟨hw, hu⟩ := h.opening pc (hact pc hpc hp) hp
    exact ⟨fun hi => hs.whole (hw hi), fun k hk => hu k (hs.unencoded.mp hk)⟩
  serving ha hq' := by
    obtain ⟨ha₀, hq₀⟩ := hq ha hq'
    exact hs.whole (h.serving ha₀ hq₀)

/-- A step of a host that is not opening. -/
theorem later (hk : Kept old held s')
    (hact : ∀ pc, s'.host.activating = some pc → pc.phase ≠ .opening)
    (hw : s'.host.activated = true → s'.Quiet → s'.Whole) : Snapshots old held s' :=
  ⟨hk, fun pc hpc hp => absurd hp (hact pc hpc), hw⟩

/-- A step of an activation that is not over yet. -/
theorem opened {pc : ActPc S Env} (hk : Kept old held s')
    (ha : s'.host.activated = false) (hpc : s'.host.activating = some pc)
    (hw : pc.installed = true → s'.Whole)
    (hu : ∀ k, s'.Unencoded k → pc.awaits = some k) : Snapshots old held s' where
  kept := hk
  opening pc' hpc' _ := by
    obtain rfl := Option.some.inj (hpc.symm.trans hpc')
    exact ⟨hw, hu⟩
  serving ha' := absurd ha' (by rw [ha]; simp)

end Snapshots

/-- An activated host is not opening. -/
theorem Lifecycle.not_opening {s : Sys S Env Op}
    (hl : Lifecycle s.flow.toLife) (ha : s.host.activated = true) :
    ∀ pc, s.host.activating = some pc → pc.phase ≠ .opening := by
  intro pc hpc hp
  have := (hl.early (.inr ((Sys.flow_phase hpc).trans hp))).1
  exact absurd (show s.host.activated = false from this) (by rw [ha]; simp)

/-- **Between the segments of its handlers a host is quiet** as far as its
worker is concerned: no other worker is alive, and no deactivation has got
beyond awaiting it. -/
theorem Lifecycle.quiet {s : Sys S Env Op} (hl : Lifecycle s.flow.toLife)
    {g : ℕ} (hg : (s.host.workers g).stage.alive = true)
    (hr : (s.host.workers g).isRunning = false) : s.Quiet where
  worker g' := by
    by_contra h
    have halive : (s.host.workers g').stage.alive = true := by
      revert h
      cases s.host.workers g' <;>
        simp [WorkerPc.isRunning, WorkerPc.stage, WorkerStage.alive]
    have h₁ := (hl.alive g hg).2
    have h₂ := (hl.alive g' halive).2
    obtain rfl := Option.some.inj (h₁.symm.trans h₂)
    exact h hr
  deactivation d hd := by
    by_contra h
    have hstage : s.flow.deact = some d.pc.stage := by
      show s.host.deactivating.map _ = _
      rw [hd]
      rfl
    have hne : ∀ g', d.pc.stage ≠ .awaiting g' := by
      intro g' he
      revert h he
      cases d.pc <;> simp [DeactPc.isRunning, DeactPc.stage]
    have := (hl.drained _ hstage hne).1 g
    exact Bool.false_ne_true (this.symm.trans hg)

/-! ## The steps of a worker

By the segments of `workerLoop`. A turn begins with nothing referring to the
object, if its handler tears, and is at a boundary again when the handler has
returned. -/

/-- The segment of a handler that worker `g` is about to run. -/
def Sys.handlerSegment (s : Sys S Env Op) (g : ℕ) (env : Env) :
    Option (Script S Json) :=
  match s.host.workers g with
  | .received item =>
    (s.host.cls.handlers item.name).map
      (fun handler => handler env s.host.state item.input)
  | .running _ rest => some rest
  | _ => none

theorem Sys.Fails.isRunning {s : Sys S Env Op} {ok : Bool} {pc : WorkerPc S} {item : Item}
    (h : s.Fails ok pc item) : pc.isRunning = false := by
  cases pc <;> first | rfl | exact h.elim

/-- Kept, and at a boundary. -/
def Sound (old : List S) (held : Holdings S) (s : Sys S Env Op) : Prop :=
  Kept old held s ∧ s.Whole

namespace Sound

variable {cfg : HostConfig S Env Op} {old : List S} {held : Holdings S}
  {s s' : Sys S Env Op} {g : ℕ} {item : Item}

theorem of_still (h : Sound old held s) (hs : Still s s') : Sound old held s' :=
  ⟨h.1.of_still hs, hs.whole h.2⟩

theorem done (h : Sound old held s) : Kept old held s ∧ (s.Quiet → s.Whole) :=
  ⟨h.1, fun _ => h.2⟩

theorem emit (h : Sound old held s) {ns : List (Notification S Op)}
    (hn : ∀ data seq, .snapshot data seq ∉ ns) : Sound old held (s.emit ns) :=
  ⟨h.1.emit hn, h.2⟩

theorem flush (h : Sound old held s) :
    Sound old held { s with host := s.host.flushSnapshot } :=
  ⟨h.1.flush h.2, Sys.whole_flush h.2⟩

theorem turnFailed (h : Sound old held s) (e : HostError) :
    Sound old held (s.turnFailed g item e) :=
  h.of_still ⟨rfl, rfl, rfl, rfl, rfl, rfl⟩

theorem resolveCall (h : Sound old held s) (item : Item) (c : ℕ) (r : Json) :
    Sound old held (s.resolveCall item c r) :=
  h.of_still ⟨rfl, rfl, rfl, rfl, rfl, rfl⟩

theorem commitSwmTail (h : Sound old held s) : Sound old held (s.commitSwmTail cfg) := by
  have h₁ : Sound old held { s with
      host := { s.host.scheduleSnapshot with prevStateCapture := none } } :=
    h.of_still ⟨rfl, rfl, rfl, rfl, rfl, rfl⟩
  refine h₁.emit (fun data seq => ?_)
  cases s.host.prevStateCapture with
  | none => simp
  | some prev =>
    dsimp only
    cases cfg.compare prev s.host.state <;> simp

theorem commitEsTail (h : Sound old held s) (events : List Json) :
    Sound old held (s.commitEsTail cfg g item events) := by
  have h₁ : Sound old held (s.emit [.event events s.host.currentSeq]) :=
    h.emit (by simp)
  unfold Sys.commitEsTail
  dsimp only
  split
  · exact h₁.flush.of_still ⟨rfl, rfl, rfl, rfl, rfl, rfl⟩
  · exact h₁.of_still ⟨rfl, rfl, rfl, rfl, rfl, rfl⟩

/-- The events of a turn are folded into a new object. -/
theorem folded (h : Sound old held s) (events : List Json) (seq : ℤ) (state : S) :
    Sound old held (s.afterFold events seq state) :=
  ⟨h.1.assign rfl rfl rfl (List.subset_append_right _ _) rfl, Sys.whole_boundary _⟩

end Sound

namespace Snapshots

variable {cfg : HostConfig S Env Op} {old : List S} {held : Holdings S}
  {s s' : Sys S Env Op} {g : ℕ} {env : Env}

/-- A segment of a handler. -/
theorem of_runHandler (h : Kept old held s) {item : Item} {p : Script S Json}
    (hp : p.tears = true → s.Free held) :
    Kept old held (s.runHandler g item p)
      ∧ ((s.runHandler g item p).Quiet → (s.runHandler g item p).Whole) := by
  refine ⟨(h.runSegment hp).of_still ⟨rfl, rfl, rfl, rfl, rfl, rfl⟩,
    fun hq => ?_⟩
  have hg := hq.worker g
  change (update s.host.workers g (.after item p) g).isRunning = false at hg
  rw [Function.update_self, WorkerPc.isRunning_after, Bool.not_eq_false'] at hg
  exact Sys.whole_runSegment (s := s) hg

/-- **A segment of a worker** leaves nothing halfway behind, and if no
handler is at an await afterwards, the state is at a boundary. -/
theorem of_workerStep {ok : Bool} (h : Snapshots old held s)
    (hl : Lifecycle s.flow.toLife)
    (hG : ∀ p, s.handlerSegment g env = some p → p.tears = true → s.Free held)
    (hs : s.workerStep cfg g env ok = some s') :
    Kept old held s' ∧ (s'.Quiet → s'.Whole) := by
  -- a worker that is alive, and in no handler, is at a boundary
  have hsound : (s.host.workers g).stage.alive = true →
      (s.host.workers g).isRunning = false → Sound old held s := fun hg hr =>
    ⟨h.kept, h.serving (hl.alive g hg).1 (hl.quiet hg hr)⟩
  obtain ⟨pc, hpc, hseg⟩ := Sys.workerSegment hs
  rw [hpc] at hsound
  cases hseg with
  | run => exact of_runHandler h.kept (hG _ (by rw [Sys.handlerSegment, hpc]))
  | @start item handler hh =>
    have hk : Kept old held (s.starting item) := h.kept.of_still ⟨rfl, rfl, rfl, rfl, rfl, rfl⟩
    refine of_runHandler hk (hG _ ?_)
    rw [Sys.handlerSegment, hpc]
    dsimp only
    rw [hh]
    rfl
  | failed e hf => exact Sound.done ((hsound hf.alive hf.isRunning).turnFailed e)
  | resolveSwm =>
    exact Sound.done (((hsound rfl rfl).resolveCall _ _ _).commitSwmTail.of_still
      ⟨rfl, rfl, rfl, rfl, rfl, rfl⟩)
  | appended hok ha =>
    have hsnap := (ActorStore.appendEvents_spec ha).1
    exact Sound.done ((hsound rfl rfl).of_still ⟨rfl, rfl, rfl, hsnap, rfl, rfl⟩)
  | resolveEs hf =>
    exact Sound.done ((((hsound rfl rfl).folded _ _ _).resolveCall _ _ _).commitEsTail _)
  | ackEs hf =>
    exact Sound.done (((hsound rfl rfl).folded _ _ _).of_still ⟨rfl, rfl, rfl, rfl, rfl, rfl⟩)
  | @swmAcked item id =>
    have h' : Sound old held (s.afterAck id) :=
      (hsound rfl rfl).of_still ⟨rfl, rfl, rfl, rfl, rfl, rfl⟩
    exact Sound.done (h'.commitSwmTail.of_still ⟨rfl, rfl, rfl, rfl, rfl, rfl⟩)
  | @esAcked item id =>
    have h' : Sound old held (s.afterAck id) :=
      (hsound rfl rfl).of_still ⟨rfl, rfl, rfl, rfl, rfl, rfl⟩
    exact Sound.done (h'.commitEsTail _)
  | ignored =>
    refine Sound.done ((hsound rfl rfl).of_still ⟨rfl, rfl, rfl, ?_, rfl, rfl⟩)
    show (if ok = true then _ else _ : ActorStore S).snapshots = _
    split <;> rfl
  | _ => exact Sound.done ((hsound rfl rfl).of_still ⟨rfl, rfl, rfl, rfl, rfl, rfl⟩)

/-! ## The steps beside the state -/

/-- **Requests, and what asks for a deactivation**, leave the state and what refers to it
alone. A worker that is woken was in no handler, and an activation that goes on is not at a
stage of which something is asked. -/
theorem of_beside (h : Snapshots old held s) (hb : Beside s s') : Snapshots old held s' := by
  refine h.aside ⟨hb.objs, hb.cls, hb.saves, hb.snapshots, hb.boundaries, hb.notifs⟩
    (fun pc hpc hp => hb.activating_eq hpc ?_)
    (fun ha hq => ⟨hb.activated ▸ ha, fun g => ?_, fun d hd => ?_⟩)
  · cases pc <;> simp_all [ActPc.phase, ActPc.beside]
  · rcases hb.workers g with he | ⟨hw, -⟩
    · rw [← he]
      exact hq.worker g
    · rw [hw]
      rfl
  · rcases hb.deactivating with he | ⟨hn, -⟩
    · exact hq.deactivation d (he ▸ hd)
    · exact absurd (hn.symm.trans hd) (by simp)

end Snapshots
