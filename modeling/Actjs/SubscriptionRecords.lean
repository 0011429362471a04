import Actjs.ClientSubscriptions

/-!
# The records of a client

What arrives for an id is for one record, and is heard by the listeners of that one. It
changes neither which record an id is of nor who listens to it (`shape`), whether it
throws or not.

`ClientRecord.follow` is what comes of a list of notifications: the record that they lead
to and the states that its listeners are given for them, in order. It is how the rest of
the development says that a listener has heard what it should, and two of them in a row
make one (`follow_append`).
-/

open Function (update)

variable {S Op : Type} {applyPatch : Option S → List Op → Option (Option S)}

namespace ClientRecord

variable {rec rec' rec'' : ClientRecord S} {n : Notification S Op}
  {ns ms : List (Notification S Op)} {xs ys : List (Option S)}

/-- A notification changes neither the id of a record nor its listeners. -/
theorem of_receive (h : rec.receive applyPatch n = some rec') :
    rec'.subscriptionId = rec.subscriptionId ∧ rec'.listeners = rec.listeners := by
  unfold receive at h
  split at h
  · exact Option.some.inj h ▸ ⟨rfl, rfl⟩
  · cases n with
    | snapshot data seq => exact Option.some.inj h ▸ ⟨rfl, rfl⟩
    | patch ops =>
      obtain ⟨state, -, rfl⟩ := Option.map_eq_some_iff.mp h
      exact ⟨rfl, rfl⟩
    | event events seq =>
      unfold apply at h
      dsimp only at h
      split at h
      · exact Option.some.inj h ▸ ⟨rfl, rfl⟩
      · obtain ⟨state, -, rfl⟩ := Option.map_eq_some_iff.mp h
        exact ⟨rfl, rfl⟩
    | tombstone => exact Option.some.inj h ▸ ⟨rfl, rfl⟩

/-- What one notification comes to. -/
theorem follow_singleton (h : rec.receive applyPatch n = some rec') :
    rec.follow applyPatch [n]
      = some (rec', if rec.tombstoned = true then [] else [rec'.state]) := by
  rw [follow, h, Option.bind_some]
  exact congrArg (fun xs => some (rec', xs)) (List.append_nil _)

/-- **What comes of notifications, and then of more.** -/
theorem follow_append (h : rec.follow applyPatch ns = some (rec', xs))
    (h' : rec'.follow applyPatch ms = some (rec'', ys)) :
    rec.follow applyPatch (ns ++ ms) = some (rec'', xs ++ ys) := by
  induction ns generalizing rec xs with
  | nil =>
    obtain ⟨rfl, rfl⟩ := Prod.mk.inj (Option.some.inj h)
    exact h'
  | cons n ns ih =>
    rw [follow, Option.bind_eq_some_iff] at h
    obtain ⟨rec₁, hreceive, hrest⟩ := h
    obtain ⟨⟨last, zs⟩, hlast, he⟩ := Option.map_eq_some_iff.mp hrest
    obtain ⟨rfl, rfl⟩ := Prod.mk.inj he
    rw [List.cons_append, follow, hreceive, Option.bind_some, ih hlast, Option.map_some,
      List.append_assoc]

end ClientRecord

namespace SubscriptionState

variable {m m' : SubscriptionState S Op} {expired : List ℕ} {i j k : ℕ} {n : Notification S Op}

/-- The id and the listeners of a record. -/
def shape (m : SubscriptionState S Op) (k : ℕ) : Option (ℕ × List ℕ) :=
  (m.records k).map (fun rec => (rec.subscriptionId, rec.listeners))

/-- What is for the id is neither for record `j` nor for listener `j`. -/
structure Apart (m : SubscriptionState S Op) (i j : ℕ) : Prop where
  record : m.subs i ≠ some j
  listener : ∀ r, m.subs i = some r → ∀ i' ls, m.shape r = some (i', ls) → j ∉ ls

/-- **What `apply` does**, a throw included, which does nothing. -/
inductive Applies (applyPatch : Option S → List Op → Option (Option S))
    (m : SubscriptionState S Op) (expired : List ℕ) (i : ℕ) (n : Notification S Op) :
    SubscriptionState S Op → Prop
  | buffers : m.subs i = none → Applies applyPatch m expired i n (m.bufferEarly expired i n)
  | ignores {r} : m.subs i = some r → m.records r = none → Applies applyPatch m expired i n m
  | ended {r rec} : m.subs i = some r → m.records r = some rec → rec.tombstoned = true →
      Applies applyPatch m expired i n m
  | throws {r rec} : m.subs i = some r → m.records r = some rec →
      rec.receive applyPatch n = none → Applies applyPatch m expired i n m
  | tells {r rec rec'} : m.subs i = some r → m.records r = some rec → rec.tombstoned = false →
      rec.receive applyPatch n = some rec' →
      Applies applyPatch m expired i n
        ({ m with records := update m.records r (some rec') }.tell rec')

theorem applies (applyPatch : Option S → List Op → Option (Option S))
    (m : SubscriptionState S Op) (expired : List ℕ) (i : ℕ) (n : Notification S Op) :
    Applies applyPatch m expired i n ((m.apply applyPatch expired i n).getD m) := by
  unfold apply
  split
  · next hi => exact .buffers hi
  · next k hi =>
    split
    · next hk => exact .ignores hi hk
    · next rec hk =>
      split
      · next ht => exact .ended hi hk ht
      · next ht =>
        have hreceive : rec.receive applyPatch n = rec.apply applyPatch n := if_neg ht
        cases hrec : rec.apply applyPatch n with
        | none => exact .throws hi hk (hreceive.trans hrec)
        | some rec' => exact .tells hi hk (Bool.eq_false_iff.mpr ht) (hreceive.trans hrec)

namespace Applies

theorem subs (h : Applies applyPatch m expired i n m') : m'.subs = m.subs := by
  cases h <;> rfl

theorem shape (h : Applies applyPatch m expired i n m') : m'.shape = m.shape := by
  cases h with
  | @tells r rec rec' hi hr ht hreceive =>
    obtain ⟨hid, hls⟩ := ClientRecord.of_receive hreceive
    funext k
    show (update m.records r _ k).map _ = (m.records k).map _
    by_cases he : k = r
    · rw [he, Function.update_self, hr, Option.map_some, Option.map_some, hid, hls]
    · rw [Function.update_of_ne he]
  | _ => rfl

/-- One who does not listen to the record hears nothing. -/
theorem heard_of_not_mem (h : Applies applyPatch m expired i n m')
    (hj : ∀ r, m.subs i = some r → ∀ i' ls, m.shape r = some (i', ls) → j ∉ ls) :
    m'.heard j = m.heard j := by
  cases h with
  | @tells r rec rec' hr hrec ht hreceive =>
    refine if_neg ?_
    rw [(ClientRecord.of_receive hreceive).2]
    refine hj r hr rec.subscriptionId rec.listeners ?_
    rw [SubscriptionState.shape, hrec, Option.map_some]
  | _ => rfl

theorem apart (h : Applies applyPatch m expired i n m') (hj : m.Apart i j) :
    m'.records j = m.records j ∧ m'.heard j = m.heard j := by
  refine ⟨?_, h.heard_of_not_mem hj.listener⟩
  cases h with
  | @tells r rec rec' hr hrec ht hreceive =>
    have hne : j ≠ r := fun he => hj.record (he ▸ hr)
    exact Function.update_of_ne hne _ _
  | _ => rfl

/-- What was kept for ids that have a record, and for others that do not expire, stays. -/
theorem pending (h : Applies applyPatch m expired i n m') (hj : j ≠ i)
    (hexpired : m.subs i = none → j ∉ expired) : m'.pending j = m.pending j := by
  cases h with
  | buffers hi =>
    unfold bufferEarly
    dsimp only
    rw [Function.update_of_ne hj, if_neg (hexpired hi)]
  | _ => rfl

/-- What is for an id without a record is kept. -/
theorem kept (h : Applies applyPatch m expired i n m') (hi : m.subs i = none)
    (hexpired : i ∉ expired) : m'.pending i = m.pending i ++ [n] := by
  cases h with
  | buffers _ =>
    unfold bufferEarly
    dsimp only
    rw [Function.update_self, if_neg hexpired]
  | ignores hr _ => exact absurd (hi.symm.trans hr) (by simp)
  | ended hr _ _ => exact absurd (hi.symm.trans hr) (by simp)
  | throws hr _ _ => exact absurd (hi.symm.trans hr) (by simp)
  | tells hr _ _ _ => exact absurd (hi.symm.trans hr) (by simp)

/-- Nothing is kept for another id that nothing was kept for. -/
theorem pending_nil (h : Applies applyPatch m expired i n m') (hj : j ≠ i)
    (hnil : m.pending j = []) : m'.pending j = [] := by
  cases h with
  | buffers _ =>
    unfold bufferEarly
    dsimp only
    rw [Function.update_of_ne hj, hnil, ite_self]
  | _ => exact hnil

/-- **The listener of the record is given its state.** -/
theorem own {rec rec' : ClientRecord S} (h : Applies applyPatch m expired i n m')
    (hi : m.subs i = some k) (hrec : m.records k = some rec) (hk : k ∈ rec.listeners)
    (hreceive : rec.receive applyPatch n = some rec') :
    m'.records k = some rec' ∧ m'.pending = m.pending ∧ m'.heard k
      = m.heard k ++ if rec.tombstoned = true then [] else [rec'.state] := by
  cases h with
  | buffers hnone => exact absurd (hi.symm.trans hnone) (by simp)
  | ignores hr hnone =>
    obtain rfl := Option.some.inj (hi.symm.trans hr)
    exact absurd (hrec.symm.trans hnone) (by simp)
  | ended hr hrec' ht =>
    obtain rfl := Option.some.inj (hi.symm.trans hr)
    obtain rfl := Option.some.inj (hrec.symm.trans hrec')
    have hstays : rec.receive applyPatch n = some rec := if_pos ht
    obtain rfl := Option.some.inj (hstays.symm.trans hreceive)
    exact ⟨hrec, rfl, by rw [if_pos ht, List.append_nil]⟩
  | throws hr hrec' hnone =>
    obtain rfl := Option.some.inj (hi.symm.trans hr)
    obtain rfl := Option.some.inj (hrec.symm.trans hrec')
    exact absurd (hreceive.symm.trans hnone) (by simp)
  | tells hr hrec' ht hreceive' =>
    obtain rfl := Option.some.inj (hi.symm.trans hr)
    obtain rfl := Option.some.inj (hrec.symm.trans hrec')
    obtain rfl := Option.some.inj (hreceive.symm.trans hreceive')
    refine ⟨Function.update_self _ _ _, rfl, ?_⟩
    refine (if_pos (by rw [(ClientRecord.of_receive hreceive).2]; exact hk)).trans ?_
    rw [ht]
    rfl

end Applies

/-- A notification that does not throw. -/
theorem apply_of_receive (expired : List ℕ) {rec rec' : ClientRecord S} (hi : m.subs i = some k)
    (hrec : m.records k = some rec) (hreceive : rec.receive applyPatch n = some rec') :
    ∃ m', m.apply applyPatch expired i n = some m' := by
  unfold apply
  rw [hi]
  dsimp only
  rw [hrec]
  dsimp only
  split
  · exact ⟨m, rfl⟩
  · next ht =>
    rw [ClientRecord.receive, if_neg ht] at hreceive
    exact ⟨_, by rw [hreceive, Option.map_some]⟩

/-- **What was kept for an id is applied**, whether it throws or not. -/
theorem applyAll_frame (applyPatch : Option S → List Op → Option (Option S)) (i : ℕ)
    (ns : List (Notification S Op)) (m : SubscriptionState S Op) :
    (applyAll applyPatch i ns m).1.subs = m.subs ∧ (applyAll applyPatch i ns m).1.shape = m.shape
      ∧ ∀ j, m.Apart i j → (applyAll applyPatch i ns m).1.records j = m.records j
        ∧ (applyAll applyPatch i ns m).1.heard j = m.heard j := by
  induction ns generalizing m with
  | nil => exact ⟨rfl, rfl, fun j _ => ⟨rfl, rfl⟩⟩
  | cons n ns ih =>
    have ha := applies applyPatch m [] i n
    rw [applyAll]
    split
    · exact ⟨rfl, rfl, fun j _ => ⟨rfl, rfl⟩⟩
    · next m' hm' =>
      rw [hm', Option.getD_some] at ha
      obtain ⟨hsubs, hshape, hapart⟩ := ih m'
      refine ⟨hsubs.trans ha.subs, hshape.trans ha.shape, fun j hj => ?_⟩
      have hj' : m'.Apart i j :=
        ⟨by rw [ha.subs]; exact hj.record, by rw [ha.subs, ha.shape]; exact hj.listener⟩
      exact ⟨(hapart j hj').1.trans (ha.apart hj).1, (hapart j hj').2.trans (ha.apart hj).2⟩

/-- **The record of the id follows what was kept for it**, if nothing of that throws. -/
theorem applyAll_follow {i k : ℕ} {ns : List (Notification S Op)} {m : SubscriptionState S Op}
    {rec rec' : ClientRecord S} {xs : List (Option S)} (hi : m.subs i = some k)
    (hrec : m.records k = some rec) (hk : k ∈ rec.listeners)
    (hfollow : rec.follow applyPatch ns = some (rec', xs)) :
    (applyAll applyPatch i ns m).2 = true
      ∧ (applyAll applyPatch i ns m).1.records k = some rec'
      ∧ (applyAll applyPatch i ns m).1.pending = m.pending
      ∧ (applyAll applyPatch i ns m).1.heard k = m.heard k ++ xs := by
  induction ns generalizing m rec xs with
  | nil =>
    obtain ⟨rfl, rfl⟩ := Prod.mk.inj (Option.some.inj hfollow)
    exact ⟨rfl, hrec, rfl, (List.append_nil _).symm⟩
  | cons n ns ih =>
    rw [ClientRecord.follow, Option.bind_eq_some_iff] at hfollow
    obtain ⟨rec₁, hreceive, hrest⟩ := hfollow
    obtain ⟨⟨last, ys⟩, hlast, he⟩ := Option.map_eq_some_iff.mp hrest
    obtain ⟨rfl, rfl⟩ := Prod.mk.inj he
    obtain ⟨m', hm'⟩ := apply_of_receive [] hi hrec hreceive
    have ha := applies applyPatch m [] i n
    rw [hm', Option.getD_some] at ha
    obtain ⟨hrec₁, hpending, hheard⟩ := ha.own hi hrec hk hreceive
    rw [applyAll, hm']
    obtain ⟨hok, hrec', hpending', hheard'⟩ := ih (ha.subs ▸ hi) hrec₁
      ((ClientRecord.of_receive hreceive).2 ▸ hk) hlast
    refine ⟨hok, hrec', hpending'.trans hpending, ?_⟩
    rw [hheard', hheard, List.append_assoc]

/-- `flushBuffered` leaves alone what is not for the id. -/
theorem flushBuffered_frame (applyPatch : Option S → List Op → Option (Option S))
    (m : SubscriptionState S Op) (i : ℕ) : (m.flushBuffered applyPatch i).1.subs = m.subs
      ∧ (m.flushBuffered applyPatch i).1.shape = m.shape
      ∧ ∀ j, m.Apart i j → (m.flushBuffered applyPatch i).1.records j = m.records j
        ∧ (m.flushBuffered applyPatch i).1.heard j = m.heard j := by
  obtain ⟨hsubs, hshape, hapart⟩ := applyAll_frame applyPatch i (m.pending i)
    { m with pending := update m.pending i [] }
  exact ⟨hsubs, hshape, fun j hj => hapart j ⟨hj.record, hj.listener⟩⟩

theorem shape_registered (m : SubscriptionState S Op) (k i : ℕ)
    (reducer : Option (Option S → Json → Option (Option S))) :
    ((m.preRegister k i reducer).addListener k).shape = update m.shape k (some (i, [k])) := by
  funext j
  show (update (update m.records k (some ⟨i, none, reducer, [], false⟩)) k
    ((update m.records k (some ⟨i, none, reducer, [], false⟩) k).map _) j).map _ = _
  by_cases hj : j = k
  · rw [hj, Function.update_self, Function.update_self, Function.update_self]
    rfl
  · rw [Function.update_of_ne hj, Function.update_of_ne hj, Function.update_of_ne hj]
    rfl

theorem shape_deleteListener {ls : List ℕ} (hk : m.shape k = some (i, ls))
    (hls : ∀ j ∈ ls, j = k) : (m.deleteListener k).shape = update m.shape k (some (i, [])) := by
  obtain ⟨rec, hrec, he⟩ := Option.map_eq_some_iff.mp hk
  obtain ⟨rfl, rfl⟩ := Prod.mk.inj he
  funext j
  show (update m.records k ((m.records k).map _) j).map _ = _
  by_cases hj : j = k
  · have hnil : rec.listeners.filter (fun l => l ≠ k) = [] :=
      List.filter_eq_nil_iff.mpr (fun l hl => by simp [hls l hl])
    rw [hj, Function.update_self, Function.update_self, hrec, Option.map_some, Option.map_some,
      hnil]
  · rw [Function.update_of_ne hj, Function.update_of_ne hj]
    rfl

end SubscriptionState
