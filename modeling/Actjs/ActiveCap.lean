import Actjs.Ownership
import Mathlib.Data.Finset.Card
import Mathlib.Data.Finset.Range

/-!
# The cap on the active hosts of a class

`perClassActive` is what `checkActiveCap` looks at, and it is right: in every
run it is the number of hosts that the directory caches. What the cap is about
are the activated hosts, though. A host counts once its activation is over, so
that any number of activations may pass the check together; and a host that was
deactivated, or evicted, may be roused again by whoever refers to it, which no
check is made for. `within_cap` says that the cap holds in the runs in which no
activation begins but with room for its host among those that are activated or
on their way.

## How it is proved

The two parts have nothing to do with each other. `Counted` is about the
counter and is kept by every step: a host is counted when it is cached and
discounted when it is evicted, whatever it does in between. `Within` is about
the hosts themselves and needs the condition, since a host gets on its way
without the counter being told.
-/

open Function (update)

variable {S Env Op : Type}

/-- The activation has not activated the host. -/
def Phase.early : Phase → Bool
  | loading => true
  | opening => true
  | _ => false

/-- `Host.Rising`, decided. -/
def Host.rises (h : Host S Env) : Bool :=
  h.activated || ((h.activating.map ActPc.phase).getD .idle).early

theorem Phase.early_iff {p : Phase} : p.early = true ↔ p = .loading ∨ p = .opening := by
  cases p <;> simp [early]

theorem Host.rises_iff {h : Host S Env} : h.rises = true ↔ h.Rising := by
  rw [rises, Bool.or_eq_true, Phase.early_iff]
  rfl

namespace Runtime

/-! ## Counting hosts

Sets of objects: those activated, those on their way there, and those that the
directory holds. The counter is the size of the last one. -/

/-- The objects of which `p` says so. -/
def those (rt : Runtime S Env Op) (p : ℕ → HostObject S Env Op → Bool) : Finset ℕ :=
  (Finset.range rt.constructed).filter (fun r => (rt.objects r).any (p r) = true)

/-- The hosts of the class that are activated. -/
def activeHosts (rt : Runtime S Env Op) (c : ClassName) : Finset ℕ :=
  rt.those (fun _ o => o.className == c && o.host.activated)

/-- Those that are, or are on their way there. -/
def risingHosts (rt : Runtime S Env Op) (c : ClassName) : Finset ℕ :=
  rt.those (fun _ o => o.className == c && o.host.rises)

/-- Those that the directory caches. -/
def heldHosts (rt : Runtime S Env Op) (c : ClassName) : Finset ℕ :=
  rt.those (fun r o => o.className == c && rt.hosts o.id == some r)

/-- `resolve` constructs a host of the class for the request. -/
def materializes (cfg : RuntimeConfig S Env Op) (rt : Runtime S Env Op) (ask : Ask)
    (admitted : Bool) (c : ClassName) (id : ActorId) : Bool :=
  ask.admits admitted && !rt.destroyed && (rt.hosts id).isNone
    && (rt.materializing id).isNone && (cfg.classes c).isSome && !rt.atCap cfg c

/-- The class of object `r`, if it is dormant. -/
def dormantClass (rt : Runtime S Env Op) (r : ℕ) : Option ClassName :=
  (rt.objects r).bind (fun o => if o.host.dormant = true then some o.className else none)

/-- **The class of the host whose activation the step begins**, if it begins
one: `resolve` constructs a host, or a call or a tell gets to a dormant one. -/
def begun (cfg : RuntimeConfig S Env Op) (rt : Runtime S Env Op) :
    RuntimeAct Env → Option ClassName
  | .start _ (.hostCall of _ _) _ => (rt.returnedTo of).bind rt.dormantClass
  | .start _ (.hostTell of _ _) _ => (rt.returnedTo of).bind rt.dormantClass
  | .start _ ask admitted =>
    ask.target.bind (fun (c, id) =>
      if rt.materializes cfg ask admitted c id = true then some c else none)
  | .resume q _ =>
    match rt.requests q with
    | some ⟨ask, .resolved r⟩ =>
      (rt.objects r).bind (fun o =>
        if (ask.isMessage && !refuses cfg o ask) = true then rt.dormantClass r else none)
    | _ => none
  | _ => none

/-- **There is room for the host whose activation begins**: fewer hosts of its
class than the cap are activated or on their way. -/
def hasRoom (cfg : RuntimeConfig S Env Op) (rt : Runtime S Env Op)
    (x : RuntimeAct Env) : Bool :=
  (rt.begun cfg x).all (fun c =>
    decide ((rt.risingHosts c).card < cfg.activeActorCapPerClass))

/-- `perClassActive` is right: it is the number of hosts of the class that the
directory caches, in every state there is. -/
def Counted (rt : Runtime S Env Op) : Prop :=
  ∀ c, rt.perClassActive c = (rt.heldHosts c).card

variable {cfg : RuntimeConfig S Env Op} {rt rt' : Runtime S Env Op} {q r : ℕ}
  {ask : Ask} {pc : AskPc} {o : HostObject S Env Op} {s : Sys S Env Op} {c : ClassName}

namespace Sound

theorem mem_those {p : ℕ → HostObject S Env Op → Bool} (hrt : rt.Sound) :
    r ∈ rt.those p ↔ ∃ o, rt.objects r = some o ∧ p r o = true := by
  rw [those, Finset.mem_filter, Finset.mem_range, Option.any_eq_true]
  exact ⟨fun h => h.2, fun ⟨o, ho, hp⟩ => ⟨hrt.bound r o ho, o, ho, hp⟩⟩

theorem mem_risingHosts (hrt : rt.Sound) :
    r ∈ rt.risingHosts c
      ↔ ∃ o, rt.objects r = some o ∧ o.className = c ∧ o.host.Rising := by
  rw [risingHosts, hrt.mem_those]
  simp only [Bool.and_eq_true, beq_iff_eq, Host.rises_iff]

theorem mem_heldHosts (hrt : rt.Sound) :
    r ∈ rt.heldHosts c
      ↔ ∃ o, rt.objects r = some o ∧ o.className = c ∧ rt.hosts o.id = some r := by
  rw [heldHosts, hrt.mem_those]
  simp only [Bool.and_eq_true, beq_iff_eq]

/-- Who is activated is not on its way any more. -/
theorem activeHosts_subset (hrt : rt.Sound) (c : ClassName) :
    rt.activeHosts c ⊆ rt.risingHosts c := by
  intro r hr
  rw [activeHosts, hrt.mem_those] at hr
  obtain ⟨o, ho, hp⟩ := hr
  obtain ⟨hc, ha⟩ := Bool.and_eq_true_iff.mp hp
  exact hrt.mem_risingHosts.mpr ⟨o, ho, beq_iff_eq.mp hc, .inl ha⟩

end Sound

/-! ## The hosts that the directory caches -/

namespace Counted

theorem init (stores : ActorId → ActorStore S) :
    (Runtime.init stores : Runtime S Env Op).Counted := fun _ => rfl

/-- Nobody is cached anew, and nobody is forgotten. -/
theorem of_kept (h : rt.Counted) (hrt : rt.Sound) (hrt' : rt'.Sound)
    (hkept : ∀ r o, rt.objects r = some o → ∃ o', rt'.objects r = some o' ∧ o'.cfg = o.cfg)
    (hh : rt'.hosts = rt.hosts) (ha : rt'.perClassActive = rt.perClassActive) :
    rt'.Counted := by
  intro c
  rw [ha, h c]
  congr 1
  ext r
  rw [hrt.mem_heldHosts, hrt'.mem_heldHosts, hh]
  have hsame : ∀ {o o' : HostObject S Env Op}, o'.cfg = o.cfg →
      (o'.className = c ∧ rt.hosts o'.id = some r
        ↔ o.className = c ∧ rt.hosts o.id = some r) := by
    intro o o' he
    rw [HostObject.className, HostObject.id, HostObject.className, HostObject.id, he]
  constructor
  · rintro ⟨o, ho, hr⟩
    obtain ⟨o', ho', he⟩ := hkept r o ho
    exact ⟨o', ho', (hsame he).mpr hr⟩
  · rintro ⟨o', ho', hr⟩
    obtain ⟨o, ho, -⟩ := hrt.hosts o'.id r hr.2
    obtain ⟨o₁, ho₁, he⟩ := hkept r o ho
    obtain rfl := Option.some.inj (ho'.symm.trans ho₁)
    exact ⟨o, ho, (hsame he).mp hr⟩

/-- A host is cached, where there was none. -/
theorem install {result : Except HostError Unit} (h : rt.Counted) (hrt : rt.Sound)
    (hq : rt.requests q = some ⟨ask, .creating r⟩) (ho : rt.objects r = some o) :
    (rt.install q ask r o result).Counted := by
  have hrt' : (rt.install q ask r o result).Sound := hrt.install hq ho
  obtain ⟨-, hn⟩ := hrt.creating q ask r o hq ho
  cases result with
  | error e => exact h
  | ok _ =>
    intro c
    have hself : (rt.install q ask r o (.ok ())).hosts o.id = some r :=
      Function.update_self _ _ _
    have hmem : ∀ r', r' ∈ (rt.install q ask r o (.ok ())).heldHosts c
        ↔ r' = r ∧ o.className = c ∨ r' ∈ rt.heldHosts c := by
      intro r'
      rw [hrt'.mem_heldHosts, hrt.mem_heldHosts, objects_install]
      constructor
      · rintro ⟨o', ho', hc, hr⟩
        by_cases hid : o'.id = o.id
        · rw [hid] at hr
          obtain rfl := Option.some.inj (hself.symm.trans hr)
          exact .inl ⟨rfl, Option.some.inj (ho.symm.trans ho') ▸ hc⟩
        · exact .inr ⟨o', ho', hc, (Function.update_of_ne hid _ _).symm.trans hr⟩
      · rintro (⟨rfl, hc⟩ | ⟨o', ho', hc, hr⟩)
        · exact ⟨o, ho, hc, hself⟩
        · have hid : o'.id ≠ o.id := fun hid => absurd (hid ▸ hr) (by simp [hn])
          exact ⟨o', ho', hc, (Function.update_of_ne hid _ _).trans hr⟩
    have hnot : r ∉ rt.heldHosts c := by
      rw [hrt.mem_heldHosts]
      rintro ⟨o', ho', -, hr⟩
      obtain rfl := Option.some.inj (ho.symm.trans ho')
      exact absurd hr (by simp [hn])
    show update rt.perClassActive o.className (rt.perClassActive o.className + 1) c = _
    by_cases hc : c = o.className
    · subst hc
      rw [Function.update_self, h, ← Finset.card_insert_of_notMem hnot]
      congr 1
      ext r'
      rw [hmem, Finset.mem_insert]
      simp only [and_true]
    · rw [Function.update_of_ne hc, h]
      congr 1
      ext r'
      rw [hmem]
      exact ⟨.inr, fun hr => hr.elim (fun he => absurd he.2.symm hc) (fun hr => hr)⟩

/-- A host is forgotten. -/
theorem evict (h : rt.Counted) (hrt : rt.Sound) (id : ActorId) : (rt.evict id).Counted := by
  have hrt' := hrt.evict id
  cases hh : rt.hosts id with
  | none =>
    have he : rt.evict id = rt := by
      unfold Runtime.evict
      rw [hh]
      rfl
    rw [he]
    exact h
  | some r =>
    obtain ⟨o, ho, hid⟩ := hrt.hosts id r hh
    have he : rt.evict id = { rt.unbump o.className with hosts := update rt.hosts id none } := by
      unfold Runtime.evict
      rw [hh, Option.bind_some, ho]
    intro c
    have hmem : ∀ r', r' ∈ (rt.evict id).heldHosts c ↔ r' ≠ r ∧ r' ∈ rt.heldHosts c := by
      intro r'
      rw [hrt'.mem_heldHosts, hrt.mem_heldHosts, objects_evict, he]
      constructor
      · rintro ⟨o', ho', hc, hr⟩
        by_cases hid' : o'.id = id
        · rw [hid'] at hr
          exact absurd ((Function.update_self _ _ _).symm.trans hr) (by simp)
        · have hr : rt.hosts o'.id = some r' := (Function.update_of_ne hid' _ _).symm.trans hr
          refine ⟨?_, o', ho', hc, hr⟩
          rintro rfl
          exact hid' (Option.some.inj (ho.symm.trans ho') ▸ hid)
      · rintro ⟨hne, o', ho', hc, hr⟩
        have hid' : o'.id ≠ id := fun hid' => hne (Option.some.inj (hr.symm.trans (hid' ▸ hh)))
        exact ⟨o', ho', hc, (Function.update_of_ne hid' _ _).trans hr⟩
    have hact : (rt.evict id).perClassActive c
        = update rt.perClassActive o.className (rt.perClassActive o.className - 1) c := by
      rw [he]
      rfl
    rw [hact]
    by_cases hc : c = o.className
    · subst hc
      have hr : r ∈ rt.heldHosts o.className :=
        hrt.mem_heldHosts.mpr ⟨o, ho, rfl, hid ▸ hh⟩
      rw [Function.update_self, h, ← Finset.card_erase_of_mem hr]
      congr 1
      ext r'
      rw [hmem, Finset.mem_erase]
    · rw [Function.update_of_ne hc, h]
      congr 1
      ext r'
      rw [hmem]
      refine ⟨fun hr => ⟨?_, hr⟩, And.right⟩
      rintro rfl
      obtain ⟨o', ho', hc', -⟩ := hrt.mem_heldHosts.mp hr
      exact hc (hc'.symm.trans (Option.some.inj (ho.symm.trans ho') ▸ rfl))

/-- **Every step keeps the count right.** -/
theorem step {x : RuntimeAct Env} (h : rt.Counted) (hrt : rt.Sound)
    (hs : rt.step cfg x = some rt') : rt'.Counted := by
  have hrt' := hrt.step hs
  have hm := step_moves hs
  have hkept := fun r o (ho : rt.objects r = some o) =>
    hm.object_kept (hrt.bound r o ho) ho
  cases hm with
  | install hq ho hr => exact h.install hrt hq ho
  | @evict r o s ho hs' =>
    have hsys : (rt.setSys r o s).Sound :=
      hrt.setSys ho ((hrt.lifecycle r o ho).of_moves (Sys.flow_step hs'))
    rw [objects_evict] at hkept
    exact (h.of_kept hrt hsys hkept rfl rfl).evict hsys o.id
  | destroyHosts hd =>
    intro c
    refine (Finset.card_eq_zero.mpr ?_).symm
    refine Finset.eq_empty_of_forall_notMem (fun r hr => ?_)
    obtain ⟨o, -, -, hr⟩ := hrt'.mem_heldHosts.mp hr
    exact absurd hr (by simp)
  | _ => exact h.of_kept hrt hrt' hkept rfl rfl

end Counted

/-! ## The hosts on their way

An activation that begins adds one host, and only where there is room; one
that ends moves it from those on their way to those activated, or drops it. -/

namespace Sound

/-- A host makes a step. -/
theorem risingHosts_setSys {a : Act Env} (hrt : rt.Sound) (ho : rt.objects r = some o)
    (hs : (rt.sys o).step o.cfg a = some s) (c : ClassName) :
    (rt.setSys r o s).risingHosts c ⊆ rt.risingHosts c
      ∨ a.rouses = true ∧ rt.dormantClass r = some c
        ∧ (rt.setSys r o s).risingHosts c ⊆ insert r (rt.risingHosts c) := by
  have hl := hrt.lifecycle r o ho
  have hrt' : (rt.setSys r o s).Sound := hrt.setSys ho (hl.of_moves (Sys.flow_step hs))
  have hne : ∀ {r'}, r' ≠ r → r' ∈ (rt.setSys r o s).risingHosts c →
      r' ∈ rt.risingHosts c := by
    intro r' he hr'
    rw [hrt'.mem_risingHosts, objects_setSys_ne he] at hr'
    exact hrt.mem_risingHosts.mpr hr'
  by_cases hr : r ∈ (rt.setSys r o s).risingHosts c
  · obtain ⟨o', ho', hc, hrising⟩ := hrt'.mem_risingHosts.mp hr
    obtain rfl := Option.some.inj (objects_setSys_self.symm.trans ho')
    rcases Sys.rising_step hl hs hrising with hold | ⟨ha, hd⟩
    · refine .inl (fun r' hr' => ?_)
      by_cases he : r' = r
      · exact he ▸ hrt.mem_risingHosts.mpr ⟨o, ho, hc, hold⟩
      · exact hne he hr'
    · refine .inr ⟨ha, ?_, fun r' hr' => ?_⟩
      · rw [dormantClass, ho, Option.bind_some, if_pos (show o.host.dormant = true from hd)]
        exact congrArg some hc
      · by_cases he : r' = r
        · exact he ▸ Finset.mem_insert_self _ _
        · exact Finset.mem_insert_of_mem (hne he hr')
  · exact .inl (fun r' hr' => hne (fun he => hr (he ▸ hr')) hr')

/-- What a request has its host do begins what `begun` says. -/
theorem begun_of_serve {x : RuntimeAct Env} {a : Act Env} (ho : rt.objects r = some o)
    (hserve : Serves cfg rt q r o x ask a pc) (ha : a.rouses = true)
    (hd : rt.dormantClass r = some c) : rt.begun cfg x = some c := by
  cases hserve with
  | call hq hp =>
    simp [begun, hq, ho, Ask.isMessage, refuses, hp, Except.isOk, Except.toBool, hd]
  | tell hq hp =>
    simp [begun, hq, ho, Ask.isMessage, refuses, hp, Except.isOk, Except.toBool, hd]
  | subscribe hq => exact absurd ha (by simp [Act.rouses])
  | hostCall hq hr => simp [begun, hr, hd]
  | hostTell hq hr => simp [begun, hr, hd]

/-- **One host at most gets on its way in a step**, one of the class that the
step begins an activation of. -/
theorem risingHosts_step {x : RuntimeAct Env} (hrt : rt.Sound)
    (hs : rt.step cfg x = some rt') (c : ClassName) :
    rt'.risingHosts c ⊆ rt.risingHosts c
      ∨ rt.begun cfg x = some c ∧ ∃ r, rt'.risingHosts c ⊆ insert r (rt.risingHosts c) := by
  have hrt' := hrt.step hs
  have hm := step_moves hs
  clear hs
  have hquiet : ∀ {r : ℕ} {o : HostObject S Env Op} {a : Act Env} {s : Sys S Env Op},
      rt.objects r = some o → (rt.sys o).step o.cfg a = some s → a.rouses = false →
      (rt.setSys r o s).risingHosts c ⊆ rt.risingHosts c := by
    intro r o a s ho hs ha
    rcases hrt.risingHosts_setSys ho hs c with h | ⟨ha', -⟩
    · exact h
    · exact absurd ha' (by simp [ha])
  cases hm with
  | answer ha => exact .inl (Finset.Subset.refl _)
  | @materialize q ask admitted c' id registration hq ht ha hd hh hm hc hcap =>
    have hadmits : rt.materializes cfg ask admitted c' id = true := by
      simp [materializes, ha, hd, hh, hm, hc, hcap]
    by_cases he : c = c'
    · refine .inr ⟨?_, rt.constructed, fun r hr => ?_⟩
      · cases ask <;> cases ht <;> exact (if_pos hadmits).trans (congrArg some he.symm)
      · rw [hrt'.mem_risingHosts] at hr
        by_cases he : r = rt.constructed
        · exact he ▸ Finset.mem_insert_self _ _
        · rw [objects_materialize_ne he] at hr
          exact Finset.mem_insert_of_mem (hrt.mem_risingHosts.mpr hr)
    · refine .inl (fun r hr => ?_)
      obtain ⟨o, ho, hco, hrising⟩ := hrt'.mem_risingHosts.mp hr
      by_cases hnew : r = rt.constructed
      · subst hnew
        obtain rfl := Option.some.inj (objects_materialize_self.symm.trans ho)
        exact absurd (hco.symm.trans (cfg.classes_name hc)) he
      · rw [objects_materialize_ne hnew] at ho
        exact hrt.mem_risingHosts.mpr ⟨o, ho, hco, hrising⟩
  | install hq ho hr =>
    refine .inl (fun r hr => ?_)
    rw [hrt'.mem_risingHosts, objects_install] at hr
    exact hrt.mem_risingHosts.mpr hr
  | @serve x q r ask o a pc s ho hserve hs =>
    refine (hrt.risingHosts_setSys ho hs c).imp (fun h => h) ?_
    rintro ⟨ha, hd, hsub⟩
    exact ⟨begun_of_serve ho hserve ha hd, r, hsub⟩
  | tombstone hq hh ho hs => exact .inl (hquiet ho hs rfl)
  | tombstoned hq => exact .inl (Finset.Subset.refl _)
  | own ho ha hne hs => exact .inl (hquiet ho hs (Act.rouses_of_own ha))
  | @evict r o s ho hs =>
    have hsub : ((rt.setSys r o s).evict o.id).risingHosts c
        = (rt.setSys r o s).risingHosts c := by
      rw [risingHosts, those, objects_evict, constructed_evict]
      rfl
    rw [hsub]
    exact .inl (hquiet ho hs rfl)
  | unsubscribe hq ho hs => exact .inl (hquiet ho hs rfl)
  | shutdown => exact .inl (Finset.Subset.refl _)
  | @destroyHosts env hd =>
    refine .inl (fun r hr => ?_)
    obtain ⟨o', ho', hc, hrising⟩ := hrt'.mem_risingHosts.mp hr
    obtain ⟨o, ho, rfl⟩ := Option.map_eq_some_iff.mp ho'
    refine hrt.mem_risingHosts.mpr ⟨o, ho, ?_⟩
    split at hc
    · next hheld =>
      rw [if_pos hheld] at hrising
      have hl : Lifecycle (rt.sys o).flow.toLife := hrt.lifecycle r o ho
      have hs : (rt.sys o).step o.cfg (.destroy env) = some ((rt.sys o).destroy env) := rfl
      exact ⟨hc, (Sys.rising_step hl hs hrising).resolve_right (by simp [Act.rouses])⟩
    · next hheld =>
      rw [if_neg hheld] at hrising
      exact ⟨hc, hrising⟩

end Sound

/-- The class does not have more hosts on their way than the cap allows. Hosts
on their way are counted with the activated ones: whoever begins an activation
will be activated, and nobody asks again. -/
def Within (cfg : RuntimeConfig S Env Op) (rt : Runtime S Env Op) : Prop :=
  ∀ c, (rt.risingHosts c).card ≤ cfg.activeActorCapPerClass

namespace Within

theorem init (stores : ActorId → ActorStore S) :
    (Runtime.init stores : Runtime S Env Op).Within cfg := fun _ => Nat.zero_le _

/-- **Every step that finds room for the host it gets on its way keeps to it.** -/
theorem step {x : RuntimeAct Env} (h : rt.Within cfg) (hrt : rt.Sound)
    (hG : rt.hasRoom cfg x = true) (hs : rt.step cfg x = some rt') : rt'.Within cfg := by
  intro c
  rcases hrt.risingHosts_step hs c with hsub | ⟨hb, r, hsub⟩
  · exact (Finset.card_le_card hsub).trans (h c)
  · have hroom : (rt.risingHosts c).card < cfg.activeActorCapPerClass := by
      simpa [hasRoom, hb] using hG
    calc (rt'.risingHosts c).card
        ≤ (insert r (rt.risingHosts c)).card := Finset.card_le_card hsub
      _ ≤ (rt.risingHosts c).card + 1 := Finset.card_insert_le _ _
      _ ≤ cfg.activeActorCapPerClass := hroom

end Within

/-- **The cap on active actors.** In every run `perClassActive` is the number of
hosts of the class that the directory caches; and if no activation begins but
with room for its host, then no class has more activated hosts than the cap. -/
theorem within_cap (cfg : RuntimeConfig S Env Op) (stores : ActorId → ActorStore S)
    {xs : List (RuntimeAct Env)} {rt : Runtime S Env Op}
    (hrun : TransitionSystem.run (step cfg) (init stores) xs = some rt) :
    (∀ c, rt.perClassActive c = (rt.heldHosts c).card)
      ∧ (TransitionSystem.Along (step cfg) (fun rt x => rt.hasRoom cfg x = true)
          (init stores) xs →
        ∀ c, (rt.activeHosts c).card ≤ cfg.activeActorCapPerClass) := by
  constructor
  · exact (TransitionSystem.run_invariant' (step cfg) (P := fun rt => rt.Sound ∧ rt.Counted)
      (fun _ _ _ h hs => ⟨h.1.step hs, h.2.step h.1 hs⟩) ⟨.init stores, .init stores⟩ hrun).2
  · intro hG c
    have h := TransitionSystem.run_invariant (step cfg)
      (P := fun rt => rt.Sound ∧ rt.Within cfg)
      (fun _ _ _ h hG hs => ⟨h.1.step hs, h.2.step h.1 hG hs⟩)
      ⟨.init stores, .init stores⟩ hG hrun
    exact (Finset.card_le_card (h.1.activeHosts_subset c)).trans (h.2 c)

/-! ### Two counters where there is to be one -/

/-- The runtime of the counters, with a cap. -/
def capped (cap : ℕ) : RuntimeConfig ℕ Bool ℕ :=
  { Counter.runtime with activeActorCapPerClass := cap }

/-- Every actor is a counter. -/
def counters : ActorId → ActorStore ℕ := fun _ => Counter.stored 5 "counter-1"

/-- Another counter is resolved after the first was evicted. -/
def oneAfterAnother : List (RuntimeAct Bool) :=
  handedOut ++ sentAway ++ .start 1 (.getHost "Counter" "counter-2") true
    :: Counter.hostActivating 1 7 ++ [.resume 1 true]

/-- There is one active counter at a time if the one is evicted before the other
is resolved. -/
theorem within_cap_oneAfterAnother :
    ∃ rt : Runtime ℕ Bool ℕ,
      TransitionSystem.run (step (capped 1)) (init counters) oneAfterAnother = some rt
      ∧ rt.hosts "counter-2" = some 1
      ∧ rt.perClassActive "Counter" = (rt.heldHosts "Counter").card
      ∧ (rt.activeHosts "Counter").card ≤ 1 := by
  have hrun : (TransitionSystem.run (step (capped 1)) (init counters) oneAfterAnother).any
      (fun rt => rt.hosts "counter-2" == some 1) = true := by decide
  obtain ⟨rt, hrt, hh⟩ := (Option.any_eq_true _ _).mp hrun
  have hcap := within_cap (capped 1) counters hrt
  exact ⟨rt, hrt, beq_iff_eq.mp hh, hcap.1 "Counter", hcap.2 (by decide) "Counter"⟩

/-- The other counter is resolved while the first is being activated. -/
def oneBesideAnother : List (RuntimeAct Bool) :=
  [.start 0 (.getHost "Counter" "counter-1") true,
    .start 1 (.getHost "Counter" "counter-2") true]
    ++ Counter.hostActivating 0 7 ++ Counter.hostActivating 1 7

/-- **Two counters are active under a cap of one** when they were resolved
together. -/
theorem not_within_cap :
    ¬∀ (xs : List (RuntimeAct Bool)) (rt : Runtime ℕ Bool ℕ),
      TransitionSystem.run (step (capped 1)) (init counters) xs = some rt →
      ∀ c, rt.perClassActive c = (rt.heldHosts c).card ∧ (rt.activeHosts c).card ≤ 1 := by
  intro h
  have hrun : (TransitionSystem.run (step (capped 1)) (init counters) oneBesideAnother).any
      (fun rt => (rt.activeHosts "Counter").card == 2) = true := by decide
  obtain ⟨rt, hrt, hcard⟩ := (Option.any_eq_true _ _).mp hrun
  exact absurd (h oneBesideAnother rt hrt "Counter").2 (by simp [beq_iff_eq.mp hcard])

end Runtime
