import Actjs.Promises
import Actjs.Tombstone

/-!
# One owner per actor

The directory is to see to it that an actor has one host at a time. It hands out
references, though, and whoever holds one may have the host activated again after
it was evicted, while another host of the actor is there; and a materialization
that fails after the host was activated leaves an activated host that nothing
refers to. `SingleOwner` says that neither is so, and `Owned` is the invariant of
the runs in which a host is roused only while the directory holds it, no eviction
of it being due, and no materialization fails so late.

## How it is proved

That two activated hosts exclude each other cannot be shown step by step as it
stands, since a host is activated long after the directory took it up. `Owned`
therefore counts a host from the moment its activation begins, and until the
eviction that its deactivation asks for has been made. The directory holds
whoever counts, and it holds one host of an actor; `singleOwner` reads the
statement off. The steps of a host are `of_step`, and those of the directory,
which hold the interleavings, are one lemma each.
-/

open Function (update)

variable {S Env Op : Type}

/-- The request is a call or a tell, of the runtime or of a host. -/
def Ask.isMessage : Ask → Bool
  | call _ _ _ _ _ => true
  | tell _ _ _ _ _ => true
  | hostCall _ _ _ => true
  | hostTell _ _ _ => true
  | _ => false

/-- No host rouses itself. -/
theorem Act.rouses_of_own {a : Act Env} (h : a.own = true) : a.rouses = false := by
  cases a <;> first | rfl | cases h

namespace Runtime

/-- The directory holds object `r` for the actor, cached or being
materialized. -/
def Holds (rt : Runtime S Env Op) (id : ActorId) (r : ℕ) : Prop :=
  rt.hosts id = some r ∨ rt.materializing id = some r

/-- **An actor has one owner**: of its hosts at most one is activated, the
directory holds that one, and an eviction that a host is about to ask for
removes no other. -/
structure SingleOwner (rt : Runtime S Env Op) : Prop where
  sole : ∀ r r' o o', rt.objects r = some o → rt.objects r' = some o' →
    o.id = o'.id → o.host.activated = true → o'.host.activated = true → r = r'
  held : ∀ r o, rt.objects r = some o → o.host.activated = true → rt.Holds o.id r
  evicts : ∀ r o r', rt.objects r = some o → 0 < o.host.idleEvicts →
    rt.hosts o.id = some r' → r' = r

/-- Object `r` is not dormant, or the directory caches it and is not about to be
asked to evict it. -/
def rousable (rt : Runtime S Env Op) (r : ℕ) : Bool :=
  (rt.objects r).all (fun o => !o.host.dormant
    || rt.hosts o.id == some r && o.host.idleEvicts == 0)

/-- **Only the owner is roused**: a call or a tell that gets to a dormant host
finds the directory caching it, no eviction being due; an activation that fails
in a materialization has not activated the host; and the directory is not shut
down. -/
def keepsOwner (cfg : RuntimeConfig S Env Op) (rt : Runtime S Env Op) :
    RuntimeAct Env → Bool
  | .start _ (.hostCall of _ _) _ => (rt.returnedTo of).all rt.rousable
  | .start _ (.hostTell of _ _) _ => (rt.returnedTo of).all rt.rousable
  | .resume q _ =>
    match rt.requests q with
    | some ⟨ask, .resolved r⟩ =>
      (rt.objects r).all (fun o =>
        !ask.isMessage || refuses cfg o ask || rt.rousable r)
    | some ⟨_, .creating r⟩ =>
      (rt.objects r).all (fun o =>
        match o.host.outcome 1 with
        | some (.error _) => !o.host.activated && o.host.idleEvicts == 0
        | _ => true)
    | _ => true
  | .shutdown => false
  | .destroyHosts _ => false
  | _ => true

/-- **What keeps an actor with one owner.** A host that is activated, is on
its way there or is about to have its actor evicted is the one the directory
holds; so there are no two of them. -/
structure Owned (rt : Runtime S Env Op) : Prop where
  excl : ∀ id, rt.hosts id = none ∨ rt.materializing id = none
  /-- Whoever counts is held by the directory. -/
  held : ∀ r o, rt.objects r = some o → o.host.Rising ∨ 0 < o.host.idleEvicts →
    rt.Holds o.id r
  /-- An eviction that is due is one, and of a host that has stopped. -/
  leaving : ∀ r o, rt.objects r = some o → o.host.idleEvicts ≤ 1
    ∧ (0 < o.host.idleEvicts → ¬o.host.Rising)
  /-- Whoever is on its way for the first time was not cached yet. -/
  fresh : ∀ r o, rt.objects r = some o → o.host.Early →
    rt.hosts o.id = some r ∨ o.host.outcome 1 = none

/-- No other actor loses its host in an eviction. -/
theorem hosts_evict_ne {rt : Runtime S Env Op} {id id' : ActorId} (h : id' ≠ id) :
    (rt.evict id).hosts id' = rt.hosts id' := by
  unfold evict
  split
  · rfl
  · exact Function.update_of_ne h _ _

theorem hosts_evict_self {rt : Runtime S Env Op} {id : ActorId}
    (h : ∀ r, rt.hosts id = some r → ∃ o, rt.objects r = some o) :
    (rt.evict id).hosts id = none := by
  unfold evict
  split
  · next hb =>
    cases hh : rt.hosts id with
    | none => rfl
    | some r =>
      obtain ⟨o, ho⟩ := h r hh
      rw [hh, Option.bind_some, ho] at hb
      exact absurd hb (by simp)
  · exact Function.update_self _ _ _

namespace Owned

variable {cfg : RuntimeConfig S Env Op} {rt rt' : Runtime S Env Op} {q r : ℕ}
  {ask : Ask} {pc : AskPc} {o : HostObject S Env Op} {s : Sys S Env Op}

theorem init (stores : ActorId → ActorStore S) :
    (Runtime.init stores : Runtime S Env Op).Owned where
  excl id := .inl rfl
  held r o ho := absurd ho (by simp [Runtime.init])
  leaving r o ho := absurd ho (by simp [Runtime.init])
  fresh r o ho := absurd ho (by simp [Runtime.init])

/-- Of two hosts of an actor, at most one may hold it. -/
theorem holds_unique (h : rt.Owned) {id : ActorId} {r r' : ℕ} (hr : rt.Holds id r)
    (hr' : rt.Holds id r') : r = r' := by
  rcases h.excl id with hn | hn
  · rcases hr with hr | hr
    · exact absurd hr (by simp [hn])
    rcases hr' with hr' | hr'
    · exact absurd hr' (by simp [hn])
    · exact Option.some.inj (hr.symm.trans hr')
  · rcases hr with hr | hr
    · rcases hr' with hr' | hr'
      · exact Option.some.inj (hr.symm.trans hr')
      · exact absurd hr' (by simp [hn])
    · exact absurd hr (by simp [hn])

/-- **What it comes to.** -/
theorem singleOwner (h : rt.Owned) : rt.SingleOwner where
  sole r r' o o' ho ho' hid ha ha' := by
    refine h.holds_unique (h.held r o ho (.inl (.inl ha))) ?_
    rw [hid]
    exact h.held r' o' ho' (.inl (.inl ha'))
  held r o ho ha := h.held r o ho (.inl (.inl ha))
  evicts r o r' ho hpos hr' := h.holds_unique (.inl hr') (h.held r o ho (.inr hpos))

/-- What a step of a host does to its part in it. -/
theorem of_step {a : Act Env} (h : rt.Owned) (hrt : rt.Sound)
    (ho : rt.objects r = some o) (hs : (rt.sys o).step o.cfg a = some s)
    (hne : a ≠ .idleEvict)
    (hG : a.rouses = true → o.host.dormant = true →
      rt.hosts o.id = some r ∧ o.host.idleEvicts = 0) :
    (s.host.Rising ∨ 0 < s.host.idleEvicts → rt.Holds o.id r)
      ∧ (s.host.idleEvicts ≤ 1 ∧ (0 < s.host.idleEvicts → ¬s.host.Rising))
      ∧ (s.host.Early → rt.hosts o.id = some r ∨ s.host.outcome 1 = none) := by
  have hl : Lifecycle (rt.sys o).flow.toLife := hrt.lifecycle r o ho
  obtain ⟨hle, hleaving⟩ := h.leaving r o ho
  have hrises : s.host.Rising → o.host.Rising
      ∨ rt.hosts o.id = some r ∧ o.host.idleEvicts = 0 := fun hr =>
    (Sys.rising_step hl hs hr).imp id (fun hd => hG hd.1 hd.2)
  have hholds : s.host.Rising → rt.Holds o.id r := fun hr =>
    (hrises hr).elim (fun hr => h.held r o ho (.inl hr)) (fun hd => .inl hd.1)
  refine ⟨?_, ?_, fun he => ?_⟩
  · rintro (hr | hpos)
    · exact hholds hr
    rcases Sys.idleEvicts_step hs with he | ⟨hd, -⟩ | ⟨he, -⟩
    · have he : s.host.idleEvicts = o.host.idleEvicts := he
      exact h.held r o ho (.inr (he ▸ hpos))
    · obtain ⟨d, hd⟩ := Option.ne_none_iff_exists'.mp hd
      exact h.held r o ho (.inl (.inl (hl.activated_of_deact hd)))
    · exact absurd he hne
  · rcases Sys.idleEvicts_step hs with he | ⟨hd, hact, hing, hle'⟩ | ⟨he, -⟩
    · have he : s.host.idleEvicts = o.host.idleEvicts := he
      rw [he]
      refine ⟨hle, fun hpos hr => ?_⟩
      rcases hrises hr with hr | ⟨-, hz⟩
      · exact hleaving hpos hr
      · exact absurd hpos (by simp [hz])
    · -- the deactivation that ends was of an activated host
      obtain ⟨d, hd⟩ := Option.ne_none_iff_exists'.mp hd
      have ha : o.host.activated = true := hl.activated_of_deact hd
      have hz : o.host.idleEvicts = 0 := by
        by_contra hne
        exact hleaving (by omega) (.inl ha)
      have hle' : s.host.idleEvicts ≤ o.host.idleEvicts + 1 := hle'
      refine ⟨by omega, fun _ hr => ?_⟩
      rcases hr with hr | hr
      · exact absurd hr (by simp [hact])
      · unfold Host.Early at hr
        rw [hing] at hr
        exact absurd ha (by simp [show o.host.activated = false from (hl.early hr).1])
    · exact absurd he hne
  · rcases Sys.early_step hl hs he with ⟨he, hout⟩ | ⟨ha, hd⟩
    · rw [hout]
      exact h.fresh r o ho he
    · exact .inl (hG ha hd).1

/-- A host makes a step. -/
theorem setSys {a : Act Env} (h : rt.Owned) (hrt : rt.Sound)
    (ho : rt.objects r = some o) (hs : (rt.sys o).step o.cfg a = some s)
    (hne : a ≠ .idleEvict)
    (hG : a.rouses = true → o.host.dormant = true →
      rt.hosts o.id = some r ∧ o.host.idleEvicts = 0) : (rt.setSys r o s).Owned := by
  obtain ⟨hheld, hleaving, hfresh⟩ := h.of_step hrt ho hs hne hG
  have hobj : ∀ {P : ℕ → HostObject S Env Op → Prop},
      (∀ r' o', rt.objects r' = some o' → P r' o') → P r (o.after s) →
      ∀ r' o', (rt.setSys r o s).objects r' = some o' → P r' o' := by
    intro P hold hnew r' o' ho'
    by_cases he : r' = r
    · subst he
      obtain rfl := Option.some.inj (objects_setSys_self.symm.trans ho')
      exact hnew
    · exact hold r' o' ((objects_setSys_ne he).symm.trans ho')
  exact ⟨h.excl, hobj h.held hheld, hobj h.leaving hleaving, hobj h.fresh hfresh⟩

/-- Requests are nothing to it, and neither is what is stored. -/
theorem of_frame (h : rt.Owned) (ho : rt'.objects = rt.objects)
    (hh : rt'.hosts = rt.hosts) (hm : rt'.materializing = rt.materializing) :
    rt'.Owned where
  excl id := by
    rw [hh, hm]
    exact h.excl id
  held r o hr := by
    rw [ho] at hr
    unfold Holds
    rw [hh, hm]
    exact h.held r o hr
  leaving r o hr := h.leaving r o (ho ▸ hr)
  fresh r o hr := by
    rw [ho] at hr
    rw [hh]
    exact h.fresh r o hr

/-- The owner is evicted, once it is at rest. -/
theorem evict (h : rt.Owned) (ho : rt.objects r = some o)
    (hs : (rt.sys o).step o.cfg .idleEvict = some s) :
    ((rt.setSys r o s).evict o.id).Owned := by
  obtain ⟨hpos, he⟩ := Sys.idleEvict_eq hs
  have hpos : 0 < o.host.idleEvicts := hpos
  have hevicts : s.host.idleEvicts = o.host.idleEvicts - 1 := by rw [he]; rfl
  have hrising : s.host.Rising ↔ o.host.Rising := by rw [he]; exact Iff.rfl
  have hearly : s.host.Early ↔ o.host.Early := by rw [he]; exact Iff.rfl
  clear he
  obtain ⟨hle, hleaving⟩ := h.leaving r o ho
  have hholds := h.held r o ho (.inr hpos)
  have hrest : ¬s.host.Rising := fun hr => hleaving hpos (hrising.mp hr)
  have hkept : ∀ id, id ≠ o.id →
      ((rt.setSys r o s).evict o.id).hosts id = rt.hosts id :=
    fun id hid => hosts_evict_ne hid
  have hnone : ((rt.setSys r o s).evict o.id).hosts o.id = none := by
    refine hosts_evict_self (fun r' hr' => ?_)
    obtain rfl := h.holds_unique (.inl hr') hholds
    exact ⟨_, objects_setSys_self⟩
  exact
    { excl := fun id => by
        rw [materializing_evict]
        by_cases hid : id = o.id
        · exact .inl (hid ▸ hnone)
        · rw [hkept id hid]
          exact h.excl id
      held := fun r' o' ho' hr' => by
        rw [objects_evict] at ho'
        by_cases he : r' = r
        · subst he
          obtain rfl := Option.some.inj (objects_setSys_self.symm.trans ho')
          refine absurd hr' (not_or_intro hrest ?_)
          show ¬0 < s.host.idleEvicts
          omega
        rw [objects_setSys_ne he] at ho'
        have hr' := h.held r' o' ho' hr'
        have hid : o'.id ≠ o.id := fun hid => he (h.holds_unique (hid ▸ hr') hholds)
        unfold Holds
        rw [hkept o'.id hid, materializing_evict]
        exact hr'
      leaving := fun r' o' ho' => by
        rw [objects_evict] at ho'
        by_cases he : r' = r
        · subst he
          obtain rfl := Option.some.inj (objects_setSys_self.symm.trans ho')
          refine ⟨?_, fun _ => hrest⟩
          show s.host.idleEvicts ≤ 1
          omega
        · exact h.leaving r' o' ((objects_setSys_ne he).symm.trans ho')
      fresh := fun r' o' ho' hr' => by
        rw [objects_evict] at ho'
        by_cases he : r' = r
        · subst he
          obtain rfl := Option.some.inj (objects_setSys_self.symm.trans ho')
          exact absurd (.inr hr') hrest
        rw [objects_setSys_ne he] at ho'
        have hr₀ := h.held r' o' ho' (.inl (.inr hr'))
        have hid : o'.id ≠ o.id := fun hid => he (h.holds_unique (hid ▸ hr₀) hholds)
        rw [hkept o'.id hid]
        exact h.fresh r' o' ho' hr' }

/-- A host is constructed where there was none. -/
theorem materialize {id : ActorId} {registration : Registration S Env}
    (h : rt.Owned) (hh : rt.hosts id = none)
    (hm : rt.materializing id = none) :
    (rt.materialize cfg q ask id registration).Owned := by
  have hself : (rt.materialize cfg q ask id registration).materializing id
      = some rt.constructed := Function.update_self _ _ _
  have hmat : ∀ {id'}, id' ≠ id →
      (rt.materialize cfg q ask id registration).materializing id'
        = rt.materializing id' := fun he => Function.update_of_ne he _ _
  have hpromises : (HostObject.new (cfg.hostConfig id registration)
      (rt.stores id)).host.promises
        = (Sys.init (cfg.hostConfig id registration) (rt.stores id)).host.promises :=
    Sys.promises_activate _
  have hevicts : (HostObject.new (cfg.hostConfig id registration)
      (rt.stores id)).host.idleEvicts = 0 := congrArg (fun p => p.2.1) hpromises
  have hout : (HostObject.new (cfg.hostConfig id registration)
      (rt.stores id)).host.outcome 1 = none := congrArg (fun p => p.1 1) hpromises
  -- an object is the new one, or is as it was
  have hcases : ∀ {r' o'},
      (rt.materialize cfg q ask id registration).objects r' = some o' →
      (r' = rt.constructed
          ∧ o' = .new (cfg.hostConfig id registration) (rt.stores id))
        ∨ rt.objects r' = some o' := by
    intro r' o' ho'
    by_cases he : r' = rt.constructed
    · subst he
      exact .inl ⟨rfl, (Option.some.inj (objects_materialize_self.symm.trans ho')).symm⟩
    · exact .inr ((objects_materialize_ne he).symm.trans ho')
  exact
    { excl := fun id' => by
        by_cases he : id' = id
        · exact .inl (he ▸ hh)
        · rw [hmat he]
          exact h.excl id'
      held := fun r' o' ho' hr' => by
        rcases hcases ho' with ⟨rfl, rfl⟩ | ho'
        · exact .inr hself
        have hr' := h.held r' o' ho' hr'
        have hid : o'.id ≠ id := by
          rintro rfl
          rcases hr' with hr' | hr'
          · exact absurd hr' (by simp [hh])
          · exact absurd hr' (by simp [hm])
        exact hr'.imp (fun hr' => hr') (hmat hid).trans
      leaving := fun r' o' ho' => by
        rcases hcases ho' with ⟨rfl, rfl⟩ | ho'
        · exact ⟨by omega, fun hpos => absurd hpos (by omega)⟩
        · exact h.leaving r' o' ho'
      fresh := fun r' o' ho' hr' => by
        rcases hcases ho' with ⟨rfl, rfl⟩ | ho'
        · exact .inr hout
        · exact h.fresh r' o' ho' hr' }

/-- **A materialization ends**: its host is cached, or failed before it was
activated. -/
theorem install {result : Except HostError Unit} (h : rt.Owned) (hrt : rt.Sound)
    (hq : rt.requests q = some ⟨ask, .creating r⟩) (ho : rt.objects r = some o)
    (hres : o.host.outcome 1 = some result)
    (hG : ∀ e, result = .error e → o.host.activated = false ∧ o.host.idleEvicts = 0) :
    (rt.install q ask r o result).Owned := by
  obtain ⟨hm, hh⟩ := hrt.creating q ask r o hq ho
  -- it is not on its way to be activated any more
  have hearly : ¬o.host.Early := by
    intro he
    rcases h.fresh r o ho he with hr | hn
    · exact absurd hr (by simp [hh])
    · exact absurd hres (by simp [hn])
  have hsole : ∀ {r' : ℕ} {o' : HostObject S Env Op}, o'.id = o.id →
      rt.Holds o'.id r' → r' = r :=
    fun hid hr' => h.holds_unique (hid ▸ hr') (.inr hm)
  cases result with
  | ok _ =>
    have hself : (rt.install q ask r o (.ok ())).hosts o.id = some r :=
      Function.update_self _ _ _
    have hne : ∀ {id}, id ≠ o.id →
        (rt.install q ask r o (.ok ())).hosts id = rt.hosts id
          ∧ (rt.install q ask r o (.ok ())).materializing id = rt.materializing id :=
      fun hid => ⟨Function.update_of_ne hid _ _, Function.update_of_ne hid _ _⟩
    exact
      { excl := fun id => by
          by_cases hid : id = o.id
          · exact .inr (hid ▸ Function.update_self _ _ _)
          · rcases h.excl id with hn | hn
            · exact .inl ((hne hid).1.trans hn)
            · exact .inr ((hne hid).2.trans hn)
        held := fun r' o' ho' hr' => by
          rw [objects_install] at ho'
          have hr₀ := h.held r' o' ho' hr'
          by_cases hid : o'.id = o.id
          · rw [hid, hsole hid hr₀]
            exact .inl hself
          · exact hr₀.imp (hne hid).1.trans (hne hid).2.trans
        leaving := fun r' o' ho' => by
          rw [objects_install] at ho'
          exact h.leaving r' o' ho'
        fresh := fun r' o' ho' hr' => by
          rw [objects_install] at ho'
          by_cases hid : o'.id = o.id
          · obtain rfl := hsole hid (h.held r' o' ho' (.inl (.inr hr')))
            exact .inl (hid ▸ hself)
          · rw [(hne hid).1]
            exact h.fresh r' o' ho' hr' }
  | error e =>
    obtain ⟨hact, hz⟩ := hG e rfl
    have hne : ∀ {id}, id ≠ o.id →
        (rt.install q ask r o (.error e)).materializing id = rt.materializing id :=
      fun hid => Function.update_of_ne hid _ _
    exact
      { excl := fun id => by
          by_cases hid : id = o.id
          · exact .inr (hid ▸ Function.update_self _ _ _)
          · exact (h.excl id).imp (fun hn => hn) (hne hid).trans
        held := fun r' o' ho' hr' => by
          rw [objects_install] at ho'
          have hr₀ := h.held r' o' ho' hr'
          have hid : o'.id ≠ o.id := by
            intro hid
            obtain rfl := hsole hid hr₀
            obtain rfl := Option.some.inj (ho.symm.trans ho')
            rcases hr' with (hr' | hr') | hr'
            · exact absurd hr' (by simp [hact])
            · exact hearly hr'
            · omega
          exact hr₀.imp id (hne hid).trans
        leaving := fun r' o' ho' => by
          rw [objects_install] at ho'
          exact h.leaving r' o' ho'
        fresh := fun r' o' ho' hr' => by
          rw [objects_install] at ho'
          exact h.fresh r' o' ho' hr' }

/-- What a request has its host do rouses only the owner. -/
theorem rouses_of_serve {x : RuntimeAct Env} {a : Act Env}
    (hG : rt.keepsOwner cfg x = true) (ho : rt.objects r = some o)
    (hserve : Serves cfg rt q r o x ask a pc) (ha : a.rouses = true)
    (hd : o.host.dormant = true) :
    rt.hosts o.id = some r ∧ o.host.idleEvicts = 0 := by
  have hown : rt.rousable r = true → rt.hosts o.id = some r ∧ o.host.idleEvicts = 0 := by
    intro hr
    simpa [rousable, ho, hd] using hr
  cases hserve with
  | call hq hp =>
    refine hown ?_
    simpa [keepsOwner, hq, ho, Ask.isMessage, refuses, hp, Except.isOk, Except.toBool]
      using hG
  | tell hq hp =>
    refine hown ?_
    simpa [keepsOwner, hq, ho, Ask.isMessage, refuses, hp, Except.isOk, Except.toBool]
      using hG
  | subscribe hq => exact absurd ha (by simp [Act.rouses])
  | hostCall hq hr => exact hown (by simpa [keepsOwner, hr] using hG)
  | hostTell hq hr => exact hown (by simpa [keepsOwner, hr] using hG)

/-- **Every step taken under the condition keeps to it.** -/
theorem step {x : RuntimeAct Env} (h : rt.Owned) (hrt : rt.Sound)
    (hG : rt.keepsOwner cfg x = true) (hs : rt.step cfg x = some rt') : rt'.Owned := by
  have hm := step_moves hs
  clear hs
  cases hm with
  | answer ha => exact h.of_frame rfl rfl rfl
  | materialize hq ht ha hd hh hm hc hcap => exact h.materialize hh hm
  | @install q ask ok r o result hq ho hr =>
    refine h.install hrt hq ho hr (fun e he => ?_)
    subst he
    simpa [keepsOwner, hq, ho, hr] using hG
  | @serve x q r ask o a pc s ho hserve hs =>
    have hne : a ≠ .idleEvict := by
      rintro rfl
      exact absurd hserve.not_own (by simp [Act.own])
    exact (h.setSys hrt ho hs hne (rouses_of_serve hG ho hserve)).of_frame rfl rfl rfl
  | tombstone hq hh ho hs =>
    exact (h.setSys hrt ho hs (by simp) (by simp [Act.rouses])).of_frame rfl rfl rfl
  | tombstoned hq => exact h.of_frame rfl rfl rfl
  | @own r o a s ho ha hne hs =>
    exact h.setSys hrt ho hs hne (fun hr => absurd hr (by simp [Act.rouses_of_own ha]))
  | evict ho hs => exact h.evict ho hs
  | unsubscribe hq ho hs =>
    exact (h.setSys hrt ho hs (by simp) (by simp [Act.rouses])).of_frame rfl rfl rfl
  | shutdown => exact absurd hG (by simp [keepsOwner])
  | destroyHosts hd => exact absurd hG (by simp [keepsOwner])

end Owned

/-- **Single owner.** In every run in which only the owner of an actor is roused
and no materialization fails once its host is activated, each actor has at most
one activated host, the directory holds it, and no eviction removes another. -/
theorem single_owner (cfg : RuntimeConfig S Env Op) (stores : ActorId → ActorStore S)
    {xs : List (RuntimeAct Env)} {rt : Runtime S Env Op}
    (hG : TransitionSystem.Along (step cfg) (fun rt x => rt.keepsOwner cfg x = true)
      (init stores) xs)
    (hrun : TransitionSystem.run (step cfg) (init stores) xs = some rt) :
    rt.SingleOwner :=
  (TransitionSystem.run_invariant (step cfg) (P := fun rt => rt.Sound ∧ rt.Owned)
    (fun _ _ _ h hG hs => ⟨h.1.step hs, h.2.step h.1 hG hs⟩)
    ⟨.init stores, .init stores⟩ hG hrun).2.singleOwner

/-! ### A counter whose host is handed out -/

/-- Somebody gets the host of the counter. -/
def handedOut : List (RuntimeAct Bool) :=
  .start 0 (.getHost "Counter" "counter-1") true :: Counter.hostActivating 0 7
    ++ [.resume 0 true, .resume 0 true]

/-- It goes idle, and is evicted. -/
def sentAway : List (RuntimeAct Bool) :=
  .host 0 (.idleFire true) :: Counter.hostWorking 0 1 1
    ++ [.host 0 (.deactivation true), .host 0 (.deactivation true), .host 0 .idleEvict]

/-- The counter is called, which constructs another host of it. -/
def replaced : List (RuntimeAct Bool) :=
  .start 1 (.call "Counter" "counter-1" "inc" .null Counter.admin) true
    :: Counter.hostActivating 1 7 ++ [.resume 1 true, .resume 1 true]

/-- The counter has the one owner before the eviction and after it. -/
theorem single_owner_replaced :
    ∃ rt : Runtime ℕ Bool ℕ,
      TransitionSystem.run (step Counter.runtime) (init (Counter.stored 5))
        (handedOut ++ sentAway ++ replaced) = some rt
      ∧ rt.hosts "counter-1" = some 1
      ∧ ((rt.objects 0).map fun o => o.host.activated) = some false
      ∧ ((rt.objects 1).map fun o => o.host.activated) = some true
      ∧ rt.SingleOwner := by
  have hrun : (TransitionSystem.run (step Counter.runtime) (init (Counter.stored 5))
      (handedOut ++ sentAway ++ replaced)).any (fun rt =>
        rt.hosts "counter-1" == some 1
        && ((rt.objects 0).map fun o => o.host.activated) == some false
        && ((rt.objects 1).map fun o => o.host.activated) == some true) = true := by
    decide +kernel
  obtain ⟨rt, hrt, h⟩ := (Option.any_eq_true _ _).mp hrun
  obtain ⟨h, hnew⟩ := Bool.and_eq_true_iff.mp h
  obtain ⟨hhosts, hold⟩ := Bool.and_eq_true_iff.mp h
  exact ⟨rt, hrt, beq_iff_eq.mp hhosts, beq_iff_eq.mp hold, beq_iff_eq.mp hnew,
    single_owner Counter.runtime (Counter.stored 5) (by decide) hrt⟩

/-- Who holds the first host of the counter calls it. -/
def rousedAgain : List (RuntimeAct Bool) :=
  .start 2 (.hostCall 0 "inc" .null) true :: Counter.hostActivating 0 7

/-- **Both hosts of the counter are activated**, once the one that was evicted is
called. The directory is not shut down. -/
theorem not_single_owner :
    ¬∀ (xs : List (RuntimeAct Bool)) (rt : Runtime ℕ Bool ℕ),
      TransitionSystem.run (step Counter.runtime) (init (Counter.stored 5)) xs = some rt →
      rt.destroyed = false → rt.SingleOwner := by
  intro h
  have hrun : (TransitionSystem.run (step Counter.runtime) (init (Counter.stored 5))
      (handedOut ++ sentAway ++ replaced ++ rousedAgain)).any (fun rt =>
        rt.destroyed == false
        && (rt.objects 0).any (fun o => o.id == "counter-1" && o.host.activated)
        && (rt.objects 1).any (fun o => o.id == "counter-1" && o.host.activated))
      = true := by decide +kernel
  obtain ⟨rt, hrt, h'⟩ := (Option.any_eq_true _ _).mp hrun
  obtain ⟨h', hnew⟩ := Bool.and_eq_true_iff.mp h'
  obtain ⟨hup, hold⟩ := Bool.and_eq_true_iff.mp h'
  obtain ⟨o, ho, hold⟩ := (Option.any_eq_true _ _).mp hold
  obtain ⟨o', ho', hnew⟩ := (Option.any_eq_true _ _).mp hnew
  obtain ⟨hid, ha⟩ := Bool.and_eq_true_iff.mp hold
  obtain ⟨hid', ha'⟩ := Bool.and_eq_true_iff.mp hnew
  exact absurd ((h _ rt hrt (beq_iff_eq.mp hup)).sole 0 1 o o' ho ho'
    ((beq_iff_eq.mp hid).trans (beq_iff_eq.mp hid').symm) ha ha') (by decide)

end Runtime
