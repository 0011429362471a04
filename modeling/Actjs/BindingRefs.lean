import Actjs.Bindings
import Actjs.Transition

/-!
# Whether references to stores are counted

A step takes a reference before there is who holds it, and gives one back after who
held it does not any more. In between one reference is owed: `Refs` says of a state
that every count is right but for the one that is owed, if one is.
-/

/-- A store that is referred to so often. -/
structure BindingStore.Has (st : BindingStore) (refs : ℕ) : Prop where
  refCount : st.refCount = (refs : ℤ)
  destroyed : st.destroyed = true ↔ refs = 0
  active : st.upstream = .active → refs ≠ 0
  dropped : st.upstream = .dropped → refs = 0

namespace Bindings

variable {s s' : Bindings} {o : Option ℕ} {i n : ℕ} {h h' : StoreHolder}

/-- What is owed of a store. -/
def owes (o : Option ℕ) (i : ℕ) : ℕ := if o = some i then 1 else 0

@[simp] theorem owes_none : owes none i = 0 := rfl

@[simp] theorem owes_self : owes (some i) i = 1 := if_pos rfl

theorem owes_ne {j : ℕ} (hj : j ≠ i) : owes (some i) j = 0 :=
  if_neg (fun he => hj (Option.some.inj he).symm)

/-- **Every count is right**, but for what is owed. -/
structure Refs (o : Option ℕ) (s : Bindings) : Prop where
  counted : ∀ (i : ℕ) (st : BindingStore), s.stores[i]? = some st →
    st.Has (s.holdersOf i + owes o i)
  known : ∀ h ∈ s.holders, h.store < s.stores.length
  registered : ∀ k i, s.registry k = some i →
    ∃ st : BindingStore, s.stores[i]? = some st ∧ (st.client, st.key) = k ∧ st.destroyed = false

theorem Refs.init : Refs none .init where
  counted i st h := absurd h (by simp [Bindings.init])
  known _ h := absurd h List.not_mem_nil
  registered _ _ h := absurd h (by simp [Bindings.init])

/-! ## Stores -/

theorem getElem?_modifyStore {f : BindingStore → BindingStore} {j : ℕ} :
    (s.modifyStore i f).stores[j]? = s.stores[j]?.map (fun st => if i = j then f st else st) := by
  rw [modifyStore, List.getElem?_modify]
  rfl

/-- Something is done to a store that is not about its references. -/
theorem Refs.modifyStore {f : BindingStore → BindingStore} (h : Refs o s)
    (hhas : ∀ st refs, st.Has refs → (f st).Has refs)
    (hkey : ∀ st, (f st).client = st.client ∧ (f st).key = st.key)
    (hdestroyed : ∀ st, (f st).destroyed = st.destroyed) : Refs o (s.modifyStore i f) where
  counted j st hj := by
    rw [getElem?_modifyStore, Option.map_eq_some_iff] at hj
    obtain ⟨st₀, hst, rfl⟩ := hj
    have hc := h.counted j st₀ hst
    split
    · exact hhas st₀ _ hc
    · exact hc
  known h' hh := by
    have hlt := h.known h' hh
    simpa [Bindings.modifyStore] using hlt
  registered k j hk := by
    obtain ⟨st, hst, hkst, hd⟩ := h.registered k j hk
    refine ⟨if i = j then f st else st, ?_, ?_, ?_⟩
    · rw [getElem?_modifyStore, hst]
      rfl
    · split
      · rw [(hkey st).1, (hkey st).2, hkst]
      · exact hkst
    · split
      · rw [hdestroyed, hd]
      · exact hd

/-- A listener more, -/
theorem Refs.listen (h : Refs o s) : Refs o (s.listen i).fst := by
  have hm : Refs o (s.modifyStore i
      (fun st => { st with listeners := st.listeners ++ [s.nextListener] })) :=
    h.modifyStore (fun _ _ hs => ⟨hs.refCount, hs.destroyed, hs.active, hs.dropped⟩)
      (fun _ => ⟨rfl, rfl⟩) (fun _ => rfl)
  exact ⟨hm.counted, hm.known, hm.registered⟩

/-- and one less. -/
theorem Refs.unlisten {listener : ℕ} (h : Refs o s) : Refs o (s.unlisten i listener) :=
  h.modifyStore (fun _ _ hs => ⟨hs.refCount, hs.destroyed, hs.active, hs.dropped⟩)
    (fun _ => ⟨rfl, rfl⟩) (fun _ => rfl)

/-- What comes of the subscription upstream. -/
theorem Refs.settled {ok : Bool} (h : Refs o s) : Refs o (s.modifyStore i (settled ok)) := by
  refine h.modifyStore (fun st refs hs => ?_) (fun _ => ⟨rfl, rfl⟩) (fun _ => rfl)
  refine ⟨hs.refCount, hs.destroyed, fun ha => ?_, fun hd => ?_⟩
  · cases ok with
    | false => exact absurd ha (by simp [Bindings.settled])
    | true =>
      by_cases hdes : st.destroyed = true
      · exact absurd ha (by simp [Bindings.settled, hdes])
      · exact mt hs.destroyed.mpr hdes
  · cases ok with
    | false => exact absurd hd (by simp [Bindings.settled])
    | true =>
      by_cases hdes : st.destroyed = true
      · exact hs.destroyed.mp hdes
      · exact absurd hd (by simp [Bindings.settled, hdes])

/-! ## Holders -/

/-- A holder is of one store. -/
theorem weight_holds_ne {j : ℕ} (hj : h.store ≠ j) :
    Holders.weight (StoreHolder.holds j) h = 0 := by
  unfold Holders.weight StoreHolder.holds
  simp [hj]

theorem weight_holds (hi : h.store = i) :
    Holders.weight (StoreHolder.holds i) h = if h.live = true then 1 else 0 := by
  unfold Holders.weight StoreHolder.holds
  simp [hi]

/-- Who is owed the reference holds it. -/
theorem Refs.hold (hr : Refs (some i) s) (hi : h.store = i) (hlive : h.live = true)
    (hlt : i < s.stores.length) : Refs none (s.hold h) where
  counted j st hj := by
    have hc := hr.counted j st hj
    have hcount : (s.hold h).holdersOf j + owes none j = s.holdersOf j + owes (some i) j := by
      unfold holdersOf Bindings.hold
      rw [Holders.countP_concat, owes_none]
      by_cases hij : j = i
      · subst hij
        rw [weight_holds hi, if_pos hlive, owes_self]
      · rw [weight_holds_ne (fun he => hij (he.symm.trans hi)), owes_ne hij]
    rw [hcount]
    exact hc
  known h' hh := by
    obtain hh | hh := List.mem_append.mp hh
    · exact hr.known h' hh
    · rw [List.mem_singleton.mp hh, hi]
      exact hlt
  registered := hr.registered

/-- A holder changes, and holds what it held. -/
theorem Refs.setHolder (hr : Refs o s) (hn : s.holders[n]? = some h)
    (hstore : h'.store = h.store) (hlive : h'.live = h.live) :
    Refs o (s.setHolder n h') where
  counted j st hj := by
    have hcount : (s.setHolder n h').holdersOf j = s.holdersOf j :=
      Holders.countP_set_of_eq _ hn (by unfold StoreHolder.holds; rw [hstore, hlive])
    rw [hcount]
    exact hr.counted j st hj
  known h₁ hh := by
    obtain hh | rfl := List.mem_or_eq_of_mem_set hh
    · exact hr.known h₁ hh
    · exact hstore ▸ hr.known h (List.mem_of_getElem? hn)
  registered := hr.registered

/-- A holder holds its store no more: the reference is owed. -/
theorem Refs.unhold (hr : Refs none s) (hn : s.holders[n]? = some h)
    (hstore : h'.store = h.store) (hlive : h.live = true) (hlive' : h'.live = false) :
    Refs (some h.store) (s.setHolder n h') where
  counted j st hj := by
    have hset := Holders.countP_set (StoreHolder.holds j) h' hn
    have hcount : (s.setHolder n h').holdersOf j + owes (some h.store) j = s.holdersOf j := by
      unfold holdersOf Bindings.setHolder
      by_cases hij : j = h.store
      · subst hij
        rw [weight_holds rfl, if_pos hlive, weight_holds hstore,
          if_neg (by rw [hlive']; decide)] at hset
        rw [owes_self]
        exact hset
      · rw [weight_holds_ne (Ne.symm hij),
          weight_holds_ne (fun he => hij (he.symm.trans hstore))] at hset
        rw [owes_ne hij]
        exact hset
    rw [hcount]
    exact hr.counted j st hj
  known h₁ hh := by
    obtain hh | rfl := List.mem_or_eq_of_mem_set hh
    · exact hr.known h₁ hh
    · exact hstore ▸ hr.known h (List.mem_of_getElem? hn)
  registered := hr.registered

/-! ## References

Taking a reference and giving one back, with the one that is owed in between.
-/

/-- Nobody holds what is not there. -/
theorem Refs.holdersOf_length (hr : Refs o s) : s.holdersOf s.stores.length = 0 := by
  refine List.countP_eq_zero.mpr (fun h hh => ?_)
  have hlt := hr.known h hh
  unfold StoreHolder.holds
  simp [Nat.ne_of_lt hlt]

/-- A registered store is referred to; one that is made is not yet. -/
theorem Refs.lookup (hr : Refs none s) (client : ℕ) (key : String) :
    (∃ st, (s.lookup client key).fst.stores[(s.lookup client key).snd]? = some st
        ∧ st.refCount = (s.holdersOf (s.lookup client key).snd : ℤ) ∧ st.destroyed = false
        ∧ st.upstream ≠ .dropped)
      ∧ (s.lookup client key).fst.holders = s.holders
      ∧ (∀ (j : ℕ) st, j ≠ (s.lookup client key).snd →
        (s.lookup client key).fst.stores[j]? = some st → s.stores[j]? = some st)
      ∧ s.stores.length ≤ (s.lookup client key).fst.stores.length
      ∧ ∀ k i, (s.lookup client key).fst.registry k = some i →
        ∃ st, (s.lookup client key).fst.stores[i]? = some st ∧ (st.client, st.key) = k
          ∧ st.destroyed = false := by
  unfold Bindings.lookup
  cases hk : s.registry (client, key) with
  | some i =>
    obtain ⟨st, hst, -, hd⟩ := hr.registered _ i hk
    have hc := hr.counted i st hst
    rw [owes_none, Nat.add_zero] at hc
    refine ⟨⟨st, hst, hc.refCount, hd, fun hu => ?_⟩, rfl, fun _ _ _ h => h, Nat.le_refl _,
      hr.registered⟩
    exact absurd (hc.destroyed.mpr (hc.dropped hu)) (by simp [hd])
  | none =>
    refine ⟨⟨createActorStore client key, ?_, ?_, rfl, by simp [createActorStore]⟩, rfl, ?_,
      by simp, ?_⟩
    · simp
    · show (0 : ℤ) = (s.holdersOf s.stores.length : ℤ)
      rw [hr.holdersOf_length]
      rfl
    · intro j st hj hget
      obtain hlt | hge := Nat.lt_or_ge j s.stores.length
      · rwa [List.getElem?_append_left hlt] at hget
      · have hle := (List.getElem?_eq_some_iff.mp hget).1
        rw [List.length_append, List.length_singleton] at hle
        exact absurd (Nat.le_antisymm (Nat.le_of_lt_succ hle) hge) hj
    · intro k i hki
      dsimp only at hki ⊢
      rw [Function.update_apply] at hki
      split at hki
      · next hk' =>
        obtain rfl := Option.some.inj hki
        exact ⟨createActorStore client key, by simp, hk'.symm, rfl⟩
      · obtain ⟨st, hst, hkst, hd⟩ := hr.registered k i hki
        refine ⟨st, ?_, hkst, hd⟩
        rw [List.getElem?_append_left (List.getElem?_eq_some_iff.mp hst).1, hst]

/-- **`getActorStore`** takes a reference, which is owed to who asked. -/
theorem Refs.getActorStore {client : ℕ} {className id : String} (hr : Refs none s)
    (hs : s.getActorStore client className id = (s', i)) :
    Refs (some i) s' ∧ i < s'.stores.length := by
  unfold Bindings.getActorStore at hs
  obtain ⟨⟨st, hst, hcount, hd, hup⟩, hholders, hother, hlen, hreg⟩ :=
    hr.lookup client (className ++ ":" ++ id)
  generalize s.lookup client (className ++ ":" ++ id) = r at hs hst hcount hholders hother hlen hreg
  obtain ⟨t, j⟩ := r
  obtain ⟨rfl, rfl⟩ := Prod.mk.inj hs
  dsimp only at hst hcount hholders hother hlen hreg
  have hsame : ∀ k, (t.modifyStore j
      (fun st => { st with refCount := st.refCount + 1 })).holdersOf k = s.holdersOf k := by
    intro k
    unfold holdersOf Bindings.modifyStore
    rw [hholders]
  refine ⟨⟨fun k st' hk => ?_, fun h hh => ?_, fun k l hl => ?_⟩, ?_⟩
  · rw [getElem?_modifyStore, Option.map_eq_some_iff] at hk
    obtain ⟨st₀, hst₀, rfl⟩ := hk
    rw [hsame]
    split
    · next hjk =>
      subst hjk
      obtain rfl := Option.some.inj (hst₀.symm.trans hst)
      rw [owes_self]
      exact ⟨by simp [hcount], by simp [hd], fun _ => by omega, fun h => absurd h hup⟩
    · next hjk =>
      rw [owes_ne (Ne.symm hjk)]
      have hc := hr.counted k st₀ (hother k st₀ (Ne.symm hjk) hst₀)
      rwa [owes_none] at hc
  · have hlt := hr.known h (hholders ▸ hh)
    rw [Bindings.modifyStore, List.length_modify]
    omega
  · obtain ⟨st₀, hst₀, hkst, hd₀⟩ := hreg k l hl
    refine ⟨if j = l then { st₀ with refCount := st₀.refCount + 1 } else st₀, ?_, ?_, ?_⟩
    · rw [getElem?_modifyStore, hst₀]
      rfl
    · split <;> exact hkst
    · split <;> exact hd₀
  · rw [Bindings.modifyStore, List.length_modify]
    exact (List.getElem?_eq_some_iff.mp hst).1

/-- The reference that is owed is given back. -/
theorem Refs.giveBack {f : BindingStore → BindingStore} {registry : ℕ × String → Option ℕ}
    (hr : Refs (some i) s)
    (hhas : ∀ st, st.Has (s.holdersOf i + 1) → (f st).Has (s.holdersOf i))
    (hkey : ∀ st, (f st).client = st.client ∧ (f st).key = st.key)
    (hreg : ∀ k j, registry k = some j → s.registry k = some j
      ∧ (j = i → ∀ st, (f st).destroyed = st.destroyed)) :
    Refs none { s.modifyStore i f with registry := registry } where
  counted j st hj := by
    have hj : (s.modifyStore i f).stores[j]? = some st := hj
    rw [getElem?_modifyStore, Option.map_eq_some_iff] at hj
    obtain ⟨st₀, hst, rfl⟩ := hj
    have hc := hr.counted j st₀ hst
    split
    · next hij =>
      subst hij
      rw [owes_self] at hc
      exact hhas st₀ hc
    · next hij =>
      rw [owes_ne (Ne.symm hij)] at hc
      exact hc
  known h hh := by
    have hlt := hr.known h hh
    simpa [Bindings.modifyStore] using hlt
  registered k j hk := by
    obtain ⟨hk', hd'⟩ := hreg k j hk
    obtain ⟨st, hst, hkst, hd⟩ := hr.registered k j hk'
    refine ⟨if i = j then f st else st, ?_, ?_, ?_⟩
    · show (s.modifyStore i f).stores[j]? = _
      rw [getElem?_modifyStore, hst]
      rfl
    · split
      · rw [(hkey st).1, (hkey st).2, hkst]
      · exact hkst
    · split
      · next hij => rw [hd' hij.symm, hd]
      · exact hd

/-- A reference less. -/
def taken (st : BindingStore) : BindingStore := { st with refCount := st.refCount - 1 }

/-- Of a store that is still held the count goes down; -/
theorem Refs.stillHeld (hr : Refs (some i) s) (hheld : s.holdersOf i ≠ 0) :
    Refs none (s.modifyStore i taken) := by
  refine hr.giveBack (f := taken) (fun st hs => ⟨?_, ?_, fun _ => hheld, fun hu => ?_⟩)
    (fun _ => ⟨rfl, rfl⟩) (fun k j hk => ⟨hk, fun _ _ => rfl⟩)
  · have hc := hs.refCount
    show st.refCount - 1 = _
    omega
  · exact iff_of_false (fun hd => absurd (hs.destroyed.mp hd) (by omega)) hheld
  · exact absurd (hs.dropped hu) (by omega)

/-- one that nobody holds is destroyed. -/
theorem Refs.tornDown {st : BindingStore} (hr : Refs (some i) s) (hst : s.stores[i]? = some st)
    (hheld : s.holdersOf i = 0) :
    Refs none { s.modifyStore i (torn ∘ taken) with
      registry := Function.update s.registry (st.client, st.key) none } := by
  refine hr.giveBack (f := torn ∘ taken) (fun st₀ hs => ⟨?_, ?_, fun hu => ?_, fun _ => hheld⟩)
    (fun _ => ⟨rfl, rfl⟩) (fun k j hk => ?_)
  · have hc := hs.refCount
    show st₀.refCount - 1 = _
    omega
  · exact iff_of_true rfl hheld
  · have hne : (torn (taken st₀)).upstream ≠ .active := by
      show (if st₀.upstream = .active then Upstream.dropped else st₀.upstream) ≠ .active
      split <;> simp_all
    exact absurd hu hne
  · rw [Function.update_apply] at hk
    split at hk
    · exact absurd hk (by simp)
    · next hne =>
      refine ⟨hk, ?_⟩
      -- the store is not registered by another key
      rintro rfl
      obtain ⟨st', hst', hk', -⟩ := hr.registered k j hk
      obtain rfl := Option.some.inj (hst.symm.trans hst')
      exact absurd hk'.symm hne

/-- **`releaseActorStore`** gives back what is owed; the last reference destroys the
store. -/
theorem Refs.releaseActorStore (hr : Refs (some i) s) (hlt : i < s.stores.length) :
    Refs none (s.releaseActorStore i) := by
  obtain ⟨st, hst⟩ : ∃ st, s.stores[i]? = some st := ⟨_, List.getElem?_eq_getElem hlt⟩
  have hc := hr.counted i st hst
  rw [owes_self] at hc
  have hget : (s.modifyStore i taken).stores[i]? = some (taken st) := by
    rw [getElem?_modifyStore, hst]
    simp
  have hcount : (taken st).refCount = (s.holdersOf i : ℤ) := by
    have hrc := hc.refCount
    show st.refCount - 1 = _
    omega
  have hd : st.destroyed ≠ true := fun hd => absurd (hc.destroyed.mp hd) (by omega)
  have heq : s.releaseActorStore i
      = if (taken st).refCount ≤ 0 then (s.modifyStore i taken).destroyStore i
        else s.modifyStore i taken := by
    unfold Bindings.releaseActorStore
    dsimp only
    rw [show (s.modifyStore i (fun st => { st with refCount := st.refCount - 1 })).stores[i]?
      = some (taken st) from hget]
    rfl
  rw [heq]
  by_cases hheld : s.holdersOf i = 0
  · rw [if_pos (by omega)]
    have htorn : (s.modifyStore i taken).destroyStore i
        = { s.modifyStore i (torn ∘ taken) with
            registry := Function.update s.registry (st.client, st.key) none } := by
      unfold Bindings.destroyStore
      rw [hget]
      dsimp only
      rw [if_neg (show ¬(taken st).destroyed = true from hd)]
      unfold Bindings.modifyStore
      rw [List.modify_modify_eq]
      rfl
    rw [htorn]
    exact hr.tornDown hst hheld
  · rw [if_neg (by omega)]
    exact hr.stillHeld hheld

/-! ## Steps -/

theorem length_modifyStore {f : BindingStore → BindingStore} :
    (s.modifyStore i f).stores.length = s.stores.length := by
  simp [Bindings.modifyStore]

/-- A holder lets go of its store, and the reference is given back. -/
theorem Refs.letGo (hr : Refs none s) (hn : s.holders[n]? = some h)
    (hstore : h'.store = h.store) (hlive : h.live = true) (hlive' : h'.live = false) :
    Refs none ((s.setHolder n h').releaseActorStore h.store) :=
  (hr.unhold hn hstore hlive hlive').releaseActorStore
    (hr.known h (List.mem_of_getElem? hn))

/-- It may take a listener away first. -/
theorem Refs.letGoListener {listener : ℕ} (hr : Refs none s) (hn : s.holders[n]? = some h)
    (hstore : h'.store = h.store) (hlive : h.live = true) (hlive' : h'.live = false) :
    Refs none (((s.setHolder n h').unlisten h.store listener).releaseActorStore h.store) := by
  refine (hr.unhold hn hstore hlive hlive').unlisten.releaseActorStore ?_
  rw [Bindings.unlisten, length_modifyStore]
  exact hr.known h (List.mem_of_getElem? hn)

/-- Where nobody holds a store, it is destroyed. -/
theorem Refs.destroyStore (hr : Refs none s) (hheld : s.holdersOf i = 0) :
    s.destroyStore i = s := by
  unfold Bindings.destroyStore
  split
  · rfl
  · next st hst =>
    have hc := hr.counted i st hst
    rw [hheld] at hc
    exact if_pos (hc.destroyed.mpr rfl)

/-- Of the only subscription that there is, there is none left. -/
theorem any_set_of_countP_eq_one {subs : List (ℕ × Bool)} {k : ℕ} {sub : ℕ × Bool}
    (hk : subs[k]? = some sub) (hsub : sub.snd = true) (hone : subs.countP Prod.snd = 1) :
    (subs.set k (sub.fst, false)).any Prod.snd = false := by
  have hset := Holders.countP_set Prod.snd (sub.fst, false) hk
  rw [hone, Holders.weight, Holders.weight, if_pos hsub, if_neg (by simp)] at hset
  have hzero : (subs.set k (sub.fst, false)).countP Prod.snd = 0 := by omega
  rw [List.any_eq_false]
  exact List.countP_eq_zero.mp hzero

/-- **A step** of bindings that are used well keeps the references counted. -/
theorem Refs.step {act : BindingAct} (hr : Refs none s) (hG : s.usedWell act = true)
    (hs : s.step act = some s') : Refs none s' := by
  cases act with
  | getActorStore client className id =>
    obtain rfl := Option.some.inj hs
    obtain ⟨hg, hlt⟩ :=
      hr.getActorStore (rfl : s.getActorStore client className id = (_, _))
    exact hg.hold rfl rfl hlt
  | releaseActorStore n =>
    rw [Bindings.step] at hs
    split at hs
    · next i hn =>
      obtain rfl := Option.some.inj hs
      exact hr.letGo hn rfl rfl rfl
    · exact absurd hs (by simp)
  | actor client className id =>
    obtain rfl := Option.some.inj hs
    obtain ⟨hg, hlt⟩ :=
      hr.getActorStore (rfl : s.getActorStore client className id = (_, _))
    refine hg.listen.hold rfl rfl ?_
    rw [Bindings.listen]
    dsimp only
    rw [length_modifyStore]
    exact hlt
  | actorSubscribe n =>
    rw [Bindings.step] at hs
    split at hs
    · next i destroyed unsubError subs hn =>
      obtain rfl := Option.some.inj hs
      exact hr.listen.setHolder hn rfl rfl
    · exact absurd hs (by simp)
  | actorUnsubscribe n k =>
    rw [Bindings.step] at hs
    split at hs
    · obtain ⟨listener, -, rfl⟩ := Option.map_eq_some_iff.mp hs
      exact hr.unlisten
    · exact absurd hs (by simp)
  | actorDestroy n =>
    rw [Bindings.step] at hs
    split at hs
    · obtain rfl := Option.some.inj hs
      exact hr
    · next i unsubError subs hn =>
      obtain rfl := Option.some.inj hs
      exact hr.letGoListener hn rfl rfl rfl
    · exact absurd hs (by simp)
  | actorValue client className id =>
    obtain rfl := Option.some.inj hs
    obtain ⟨hg, hlt⟩ :=
      hr.getActorStore (rfl : s.getActorStore client className id = (_, _))
    exact hg.hold rfl rfl hlt
  | valueSubscribe n =>
    rw [Bindings.step] at hs
    split at hs
    · next i subs hn =>
      obtain rfl := Option.some.inj hs
      have hlive : (StoreHolder.value i subs).live = true := by
        simpa [usedWell, hn] using hG
      exact hr.listen.setHolder hn rfl (by rw [hlive]; simp [StoreHolder.live])
    · exact absurd hs (by simp)
  | valueUnsubscribe n k =>
    rw [Bindings.step] at hs
    split at hs
    · next i subs hn =>
      obtain ⟨sub, hk, rfl⟩ := Option.map_eq_some_iff.mp hs
      have hone : sub.snd = true ∧ subs.countP Prod.snd = 1 := by
        simpa [usedWell, hn, hk] using hG
      have hany : subs.any Prod.snd = true :=
        List.any_eq_true.mpr ⟨sub, List.mem_of_getElem? hk, hone.1⟩
      have hgone := any_set_of_countP_eq_one hk hone.1 hone.2
      refine hr.letGoListener hn rfl ?_ ?_
      · rw [StoreHolder.live, hany, Bool.or_true]
      · have hne : (subs.set k (sub.fst, false)).isEmpty = false := by
          rw [List.isEmpty_eq_false_iff, ← List.length_pos_iff, List.length_set]
          exact Nat.zero_lt_of_lt (List.getElem?_eq_some_iff.mp hk).1
        rw [StoreHolder.live, hgone, hne, Bool.or_false]
    · exact absurd hs (by simp)
  | destroy i =>
    rw [Bindings.step] at hs
    split at hs
    · obtain rfl := Option.some.inj hs
      rw [hr.destroyStore (beq_iff_eq.mp hG)]
      exact hr
    · exact absurd hs (by simp)
  | settle i ok =>
    rw [Bindings.step] at hs
    split at hs
    · split at hs
      · obtain rfl := Option.some.inj hs
        exact hr.settled
      · exact absurd hs (by simp)
    · exact absurd hs (by simp)

/-- **The references to the stores are counted** after anything that is done with
bindings that are used well. -/
theorem refs_counted {xs : List BindingAct}
    (hG : TransitionSystem.Along step (fun s act => s.usedWell act = true) init xs)
    (hrun : TransitionSystem.run step init xs = some s) : s.Counted := by
  have hr : Refs none s := TransitionSystem.run_invariant step (P := Refs none)
    (fun _ _ _ h hG hs => h.step hG hs) .init hG hrun
  intro i st hst
  have hc := hr.counted i st hst
  rw [owes_none, Nat.add_zero] at hc
  exact ⟨hc.refCount, hc.destroyed, hc.active, hc.dropped⟩

/-- A cart is read by two, and let go of by both. -/
def twoReaders : List BindingAct :=
  [.actorValue 0 "Cart" "1", .getActorStore 0 "Cart" "1", .valueSubscribe 0, .settle 0 true,
    .valueUnsubscribe 0 0, .releaseActorStore 1]

/-- The last of them drops the subscription. -/
theorem refs_counted_twoReaders : ∃ s, TransitionSystem.run step init twoReaders = some s
    ∧ s.stores.map BindingStore.upstream = [.dropped] ∧ s.Counted := by
  have hrun : (TransitionSystem.run step init twoReaders).any
      (fun s => s.stores.map BindingStore.upstream == [.dropped]) = true := by decide
  obtain ⟨s, hs, hup⟩ := (Option.any_eq_true _ _).mp hrun
  exact ⟨s, hs, beq_iff_eq.mp hup, refs_counted (by decide) hs⟩

/-- **Two subscribers to a store of `actorValue`** give back two references, and
destroy the store under a third holder. -/
theorem not_refs_counted : ¬∀ (xs : List BindingAct) (s : Bindings),
    TransitionSystem.run step init xs = some s → s.Counted := by
  intro h
  have hrun : (TransitionSystem.run step init
      [.actorValue 0 "Cart" "1", .getActorStore 0 "Cart" "1", .valueSubscribe 0,
        .valueSubscribe 0, .valueUnsubscribe 0 0, .valueUnsubscribe 0 1]).any
      (fun s => s.holdersOf 0 == 1 && s.stores[0]?.any BindingStore.destroyed) = true := by
    decide
  obtain ⟨s, hs, hboth⟩ := (Option.any_eq_true _ _).mp hrun
  obtain ⟨hheld, hd⟩ := Bool.and_eq_true_iff.mp hboth
  obtain ⟨st, hst, hd⟩ := (Option.any_eq_true _ _).mp hd
  have hzero := (h _ s hs 0 st hst).2.1.mp hd
  rw [beq_iff_eq.mp hheld] at hzero
  exact absurd hzero (by decide)

end Bindings
