import Actjs.OneClass
import Mathlib.Algebra.Order.BigOperators.Group.Finset
import Mathlib.Data.Fintype.EquivFin
import Mathlib.Data.Set.Finite.Basic

/-!
# The labels of the calls

`Runtime.call` records every call, by its class, its method and its outcome, when the call
returns and when it throws. The registry of the metrics keeps a list of methods for each
class: a method beyond the limit is recorded as `_other`.

The class is the one that the client names. So the labels of a class are bounded, and there
are as many classes as clients have named: `labels_bounded` is about the runs in which every
call names a class that is registered, and says that without it there is no bound.
-/

open Function (update)

/-! ## The registry -/

inductive CallOutcome where
  | ok
  | error
  | denied
  | rateLimited
  | capExhausted
deriving DecidableEq

/-- The labels of `actorMessageTotal`. -/
structure CallLabels where
  className : ClassName
  method : String
  outcome : CallOutcome
deriving DecidableEq

/-- What is logged when a method has no label of its own. -/
structure OverflowWarning where
  className : ClassName
  limit : ℕ
  method : String

/-- **`MetricsRegistry`**, as far as calls go. A counter is kept as the list of the labels
that it was incremented with. -/
structure MetricsRegistry where
  methodLimit : ℕ
  methodsByClass : ClassName → Option (List String)
  overflowWarned : Bool
  actorMessageTotal : List CallLabels
  warnings : List OverflowWarning

namespace MetricsRegistry

def new (methodLimit : ℕ) : MetricsRegistry := ⟨methodLimit, fun _ => none, false, [], []⟩

/-- The methods of the class that have a label of their own. -/
def allowed (m : MetricsRegistry) (className : ClassName) : List String :=
  (m.methodsByClass className).getD []

def setAllowed (m : MetricsRegistry) (className : ClassName) (methods : List String) :
    MetricsRegistry :=
  { m with methodsByClass := update m.methodsByClass className (some methods) }

/-- The first time that a method has no label of its own, it is logged. -/
def warnOnce (m : MetricsRegistry) (className : ClassName) (method : String) :
    MetricsRegistry :=
  if m.overflowWarned = true then m
  else
    { m with
      overflowWarned := true
      warnings := m.warnings ++ [⟨className, m.methodLimit, method⟩] }

/-- `bucketMethod`. The list of a class is there from its first call on. -/
def bucketMethod (m : MetricsRegistry) (className : ClassName) (method : String) :
    String × MetricsRegistry :=
  if method ∈ m.allowed className then (method, m)
  else if (m.allowed className).length < m.methodLimit then
    (method, m.setAllowed className (m.allowed className ++ [method]))
  else ("_other", (m.setAllowed className (m.allowed className)).warnOnce className method)

/-- `recordCall`. -/
def recordCall (m : MetricsRegistry) (className : ClassName) (method : String)
    (outcome : CallOutcome) : MetricsRegistry :=
  match m.bucketMethod className method with
  | (label, m) =>
    { m with actorMessageTotal := m.actorMessageTotal ++ [⟨className, label, outcome⟩] }

/-- **The pairs of a class and a method** that were recorded. -/
def labels (m : MetricsRegistry) : Finset (ClassName × String) :=
  (m.actorMessageTotal.map (fun l => (l.className, l.method))).toFinset

end MetricsRegistry

/-! ## The runtime -/

/-- What an error of the runtime is recorded as. -/
def RuntimeError.callOutcome : RuntimeError → CallOutcome
  | rateLimited => .rateLimited
  | capacityExhausted _ _ => .capExhausted
  | policyDenied _ _ _ => .denied
  | _ => .error

/-- **A process and its metrics.** -/
structure MeteredRuntime (S Env Op : Type) where
  rt : Runtime S Env Op
  metrics : MetricsRegistry
  /-- The calls that have returned, or thrown. -/
  recorded : List ℕ

/-- **What happens next.** A call returns or throws once its request has settled. What user
code throws may be an error of the runtime, and is recorded as such. -/
inductive MeteredAct (Env : Type) where
  | runtime (x : RuntimeAct Env)
  | settle (q : ℕ) (thrown : CallOutcome)

namespace MeteredRuntime

variable {S Env Op : Type} (cfg : RuntimeConfig S Env Op)

def init (stores : ActorId → ActorStore S) (methodLimit : ℕ) : MeteredRuntime S Env Op :=
  ⟨.init stores, .new methodLimit, []⟩

/-- How the call has settled, if it has. -/
def callOutcome (s : MeteredRuntime S Env Op) (q : ℕ) (thrown : CallOutcome) :
    AskPc → Option CallOutcome
  | .rejected e => some e.callOutcome
  | .calling r =>
    match (s.rt.objects r).bind (fun o => o.host.calls q) with
    | some ⟨_, _, .settled (.ok _)⟩ => some .ok
    | some ⟨_, _, .settled (.error (.thrown _))⟩ => some thrown
    | some ⟨_, _, .settled (.error _)⟩ => some .error
    | some ⟨_, _, .refused _⟩ => some .error
    | _ => none
  | _ => none

/-- `Runtime.call` after `host.call`, or in its `catch`. -/
def settle (s : MeteredRuntime S Env Op) (q : ℕ) (thrown : CallOutcome) :
    Option (MeteredRuntime S Env Op) :=
  if q ∈ s.recorded then none
  else
    match s.rt.requests q with
    | some ⟨.call c _ method _ _, pc⟩ =>
      (s.callOutcome q thrown pc).map (fun outcome =>
        { s with metrics := s.metrics.recordCall c method outcome, recorded := q :: s.recorded })
    | _ => none

def step (s : MeteredRuntime S Env Op) : MeteredAct Env → Option (MeteredRuntime S Env Op)
  | .runtime x => (s.rt.step cfg x).map (fun rt => { s with rt := rt })
  | .settle q thrown => s.settle q thrown

/-- **Every call that is made names a class that is registered.** -/
def namesRegistered : MeteredAct Env → Bool
  | .runtime (.start _ (.call c _ _ _ _) _) => (cfg.classes c).isSome
  | _ => true

end MeteredRuntime

/-! ## One record -/

namespace MetricsRegistry

variable {m : MetricsRegistry} {c c' : ClassName} {method : String} {outcome : CallOutcome}

@[simp]
theorem allowed_setAllowed_self (methods : List String) :
    (m.setAllowed c methods).allowed c = methods := by
  show (update m.methodsByClass c (some methods) c).getD [] = methods
  rw [Function.update_self]
  rfl

theorem allowed_setAllowed_ne (h : c' ≠ c) (methods : List String) :
    (m.setAllowed c methods).allowed c' = m.allowed c' := by
  show (update m.methodsByClass c (some methods) c').getD [] = _
  rw [Function.update_of_ne h]
  rfl

@[simp]
theorem allowed_warnOnce : (m.warnOnce c method).allowed = m.allowed := by
  unfold warnOnce
  split
  · rfl
  · rfl

@[simp]
theorem actorMessageTotal_warnOnce :
    (m.warnOnce c method).actorMessageTotal = m.actorMessageTotal := by
  unfold warnOnce
  split
  · rfl
  · rfl

@[simp]
theorem methodLimit_warnOnce : (m.warnOnce c method).methodLimit = m.methodLimit := by
  unfold warnOnce
  split
  · rfl
  · rfl

/-- **What `bucketMethod` does.** -/
inductive Buckets (m : MetricsRegistry) (c : ClassName) (method : String) :
    String × MetricsRegistry → Prop
  | known : method ∈ m.allowed c → Buckets m c method (method, m)
  | first {m' : MetricsRegistry} : (m.allowed c).length < m.methodLimit →
      m'.allowed c = m.allowed c ++ [method] → (∀ c', c' ≠ c → m'.allowed c' = m.allowed c') →
      m'.methodLimit = m.methodLimit → m'.actorMessageTotal = m.actorMessageTotal →
      Buckets m c method (method, m')
  | other {m' : MetricsRegistry} : method ∉ m.allowed c → m'.allowed = m.allowed →
      m'.methodLimit = m.methodLimit → m'.actorMessageTotal = m.actorMessageTotal →
      Buckets m c method ("_other", m')

theorem buckets (m : MetricsRegistry) (c : ClassName) (method : String) :
    Buckets m c method (m.bucketMethod c method) := by
  unfold bucketMethod
  split
  · next h => exact .known h
  · split
    · next h =>
      exact .first h (allowed_setAllowed_self _) (fun c' hne => allowed_setAllowed_ne hne _)
        rfl rfl
    · next hnew _ =>
      refine .other hnew ?_ methodLimit_warnOnce actorMessageTotal_warnOnce
      rw [allowed_warnOnce]
      funext c'
      rcases eq_or_ne c' c with rfl | hne
      · exact allowed_setAllowed_self _
      · exact allowed_setAllowed_ne hne _

/-- **A method that has a label of its own is recorded under it.** -/
theorem bucketMethod_of_mem (h : method ∈ m.allowed c) :
    m.bucketMethod c method = (method, m) := if_pos h

theorem methodLimit_recordCall :
    (m.recordCall c method outcome).methodLimit = m.methodLimit := by
  unfold recordCall
  cases h : m.bucketMethod c method with
  | mk label m' =>
    show m'.methodLimit = m.methodLimit
    cases h ▸ m.buckets c method with
    | known _ => rfl
    | first _ _ _ hlimit _ => exact hlimit
    | other _ _ hlimit _ => exact hlimit

/-- A record is one more. -/
theorem actorMessageTotal_recordCall : ∃ label,
    (m.recordCall c method outcome).actorMessageTotal
      = m.actorMessageTotal ++ [⟨c, label, outcome⟩] := by
  unfold recordCall
  cases h : m.bucketMethod c method with
  | mk label m' =>
    refine ⟨label, ?_⟩
    show m'.actorMessageTotal ++ _ = _
    cases h ▸ m.buckets c method with
    | known _ => rfl
    | first _ _ _ _ htotal => rw [htotal]
    | other _ _ _ htotal => rw [htotal]

/-- The lists only grow. -/
theorem allowed_recordCall (c : ClassName) (method : String) (outcome : CallOutcome)
    (c' : ClassName) : m.allowed c' ⊆ (m.recordCall c method outcome).allowed c' := by
  unfold recordCall
  cases h : m.bucketMethod c method with
  | mk label m' =>
    show m.allowed c' ⊆ m'.allowed c'
    cases h ▸ m.buckets c method with
    | known _ => exact List.Subset.refl _
    | first _ hself hne _ _ =>
      rcases eq_or_ne c' c with rfl | hc
      · rw [hself]
        exact List.subset_append_left _ _
      · rw [hne c' hc]
        exact List.Subset.refl _
    | other _ hall _ _ =>
      rw [hall]
      exact List.Subset.refl _

/-! ## What is recorded is bounded

For one class: the methods on its list and `_other`, each with every outcome.
So the classes that calls have named are what the bound depends on. -/

/-- **The labels are of classes in `registered`**, and of each class they are the methods of
its list, of which there are no more than the limit, and `_other`. -/
structure Bounded (registered : Finset ClassName) (m : MetricsRegistry) : Prop where
  listed : ∀ l ∈ m.actorMessageTotal,
    l.className ∈ registered ∧ (l.method = "_other" ∨ l.method ∈ m.allowed l.className)
  few : ∀ c, (m.allowed c).length ≤ m.methodLimit

variable {registered : Finset ClassName}

theorem Bounded.recordCall (h : m.Bounded registered) (hc : c ∈ registered) :
    (m.recordCall c method outcome).Bounded registered := by
  have hgrows := m.allowed_recordCall c method outcome
  unfold MetricsRegistry.recordCall at hgrows ⊢
  cases hb : m.bucketMethod c method with
  | mk label m' =>
    rw [hb] at hgrows
    have hgrows : ∀ c', m.allowed c' ⊆ m'.allowed c' := hgrows
    have hlabel : m'.actorMessageTotal = m.actorMessageTotal
        ∧ (label = "_other" ∨ label ∈ m'.allowed c)
        ∧ ∀ c', (m'.allowed c').length ≤ m'.methodLimit := by
      cases hb ▸ m.buckets c method with
      | known hmem => exact ⟨rfl, .inr hmem, h.few⟩
      | first hlt hself hne hlimit htotal =>
        refine ⟨htotal, .inr ?_, fun c' => ?_⟩
        · rw [hself]
          exact List.mem_append_right _ (List.mem_singleton_self _)
        · rw [hlimit]
          rcases eq_or_ne c' c with rfl | hc
          · rw [hself, List.length_append]
            exact hlt
          · rw [hne c' hc]
            exact h.few c'
      | other _ hall hlimit htotal =>
        refine ⟨htotal, .inl rfl, fun c' => ?_⟩
        rw [hall, hlimit]
        exact h.few c'
    obtain ⟨htotal, hown, hfew⟩ := hlabel
    refine ⟨fun l hl => ?_, hfew⟩
    rcases List.mem_append.mp hl with hl | hl
    · rw [htotal] at hl
      exact ⟨(h.listed l hl).1, (h.listed l hl).2.imp_right (fun hmem => hgrows _ hmem)⟩
    · rw [List.mem_singleton.mp hl]
      exact ⟨hc, hown⟩

/-- **There are so many labels at most.** -/
theorem Bounded.card_labels_le (h : m.Bounded registered) :
    m.labels.card ≤ registered.card * (m.methodLimit + 1) := by
  have hsub : m.labels ⊆ registered.biUnion (fun c =>
      (insert "_other" (m.allowed c).toFinset).image (fun method => (c, method))) := by
    intro label hl
    rw [labels, List.mem_toFinset, List.mem_map] at hl
    obtain ⟨l, hl, rfl⟩ := hl
    obtain ⟨hc, hmethod⟩ := h.listed l hl
    refine Finset.mem_biUnion.mpr ⟨l.className, hc, Finset.mem_image.mpr ⟨l.method, ?_, rfl⟩⟩
    rw [Finset.mem_insert, List.mem_toFinset]
    exact hmethod
  refine (Finset.card_le_card hsub).trans (Finset.card_biUnion_le_card_mul _ _ _ (fun c _ => ?_))
  calc ((insert "_other" (m.allowed c).toFinset).image (fun method => (c, method))).card
      ≤ (insert "_other" (m.allowed c).toFinset).card := Finset.card_image_le
    _ ≤ (m.allowed c).toFinset.card + 1 := Finset.card_insert_le _ _
    _ ≤ m.methodLimit + 1 := Nat.succ_le_succ ((List.toFinset_card_le _).trans (h.few c))

end MetricsRegistry

/-! ## A run -/

namespace MeteredRuntime

variable {S Env Op : Type} {cfg : RuntimeConfig S Env Op} {s s' : MeteredRuntime S Env Op}
  {registered : Finset ClassName}

/-- **Every call is of a class in `registered`**, and so is what was recorded of them. -/
structure Names (registered : Finset ClassName) (s : MeteredRuntime S Env Op) : Prop where
  calls : ∀ q c id method args p pc,
    s.rt.requests q = some ⟨.call c id method args p, pc⟩ → c ∈ registered
  bounded : s.metrics.Bounded registered

theorem Names.init (registered : Finset ClassName) (stores : ActorId → ActorStore S)
    (methodLimit : ℕ) : Names registered (init stores methodLimit : MeteredRuntime S Env Op) where
  calls _ _ _ _ _ _ _ h := absurd h (by simp [MeteredRuntime.init, Runtime.init])
  bounded :=
    { listed := fun _ h => absurd h List.not_mem_nil
      few := fun _ => Nat.zero_le _ }

/-- What a call records when it settles. -/
theorem settle_eq_some {q : ℕ} {thrown : CallOutcome} (h : s.settle q thrown = some s') :
    ∃ c id method args p pc outcome, s.rt.requests q = some ⟨.call c id method args p, pc⟩
      ∧ s' = { s with
          metrics := s.metrics.recordCall c method outcome, recorded := q :: s.recorded } := by
  unfold settle at h
  split at h
  · exact absurd h (by simp)
  · split at h
    · next c id method args p pc hq =>
      obtain ⟨outcome, -, rfl⟩ := Option.map_eq_some_iff.mp h
      exact ⟨c, id, method, args, p, pc, outcome, hq, rfl⟩
    · exact absurd h (by simp)

theorem Names.step (hreg : ∀ c, c ∈ registered ↔ cfg.classes c ≠ none)
    {x : MeteredAct Env} (h : s.Names registered) (hG : namesRegistered cfg x = true)
    (hs : s.step cfg x = some s') : s'.Names registered := by
  cases x with
  | runtime x =>
    obtain ⟨rt, hrt, rfl⟩ := Option.map_eq_some_iff.mp hs
    refine ⟨fun q c id method args p pc hq => ?_, h.bounded⟩
    cases hbefore : s.rt.requests q with
    | none =>
      obtain ⟨admitted, rfl⟩ := Runtime.made hrt hbefore hq
      exact (hreg c).mpr (Option.isSome_iff_ne_none.mp hG)
    | some task =>
      obtain ⟨pc', hq'⟩ := (Runtime.step_moves hrt).asked hbefore
      have hsame := hq'.symm.trans hq
      obtain ⟨ask, pc₀⟩ := task
      obtain rfl : ask = .call c id method args p := (AskTask.mk.inj (Option.some.inj hsame)).1
      exact h.calls q c id method args p pc₀ hbefore
  | settle q thrown =>
    obtain ⟨c, id, method, args, p, pc, outcome, hq, rfl⟩ := settle_eq_some hs
    exact ⟨h.calls, h.bounded.recordCall (h.calls q c id method args p pc hq)⟩

/-- The metrics of a later state have the limit and every label of an earlier one. -/
def Keeps (s s' : MeteredRuntime S Env Op) : Prop :=
  s'.metrics.methodLimit = s.metrics.methodLimit
    ∧ ∀ c, s.metrics.allowed c ⊆ s'.metrics.allowed c

theorem keeps_step {x : MeteredAct Env} (hs : s.step cfg x = some s') : s.Keeps s' := by
  cases x with
  | runtime x =>
    obtain ⟨rt, -, rfl⟩ := Option.map_eq_some_iff.mp hs
    exact ⟨rfl, fun c => List.Subset.refl _⟩
  | settle q thrown =>
    obtain ⟨c, id, method, args, p, pc, outcome, -, rfl⟩ := settle_eq_some hs
    exact ⟨MetricsRegistry.methodLimit_recordCall,
      fun c' => MetricsRegistry.allowed_recordCall c method outcome c'⟩

theorem keeps_run {xs : List (MeteredAct Env)}
    (h : TransitionSystem.run (step cfg) s xs = some s') : s.Keeps s' :=
  TransitionSystem.run_mono (step cfg) (R := Keeps)
    (fun _ => ⟨rfl, fun _ => List.Subset.refl _⟩)
    (fun _ _ _ hst htu => ⟨htu.1.trans hst.1, fun c => List.Subset.trans (hst.2 c) (htu.2 c)⟩)
    (fun _ _ _ hs => keeps_step hs) h

/-! ### Calls of classes that nobody has registered -/

/-- A call of a class that is not registered. -/
def unknown (c : ClassName) : Ask := .call c "a" "m" .null Counter.admin

/-- It is made, and it throws. -/
def callUnknown (q : ℕ) (c : ClassName) : List (MeteredAct Env) :=
  [.runtime (.start q (unknown c) true), .settle q .error]

/-- Calls of classes that are not registered, beginning with the `q`th. -/
def callAllUnknown : ℕ → List ClassName → List (MeteredAct Env)
  | _, [] => []
  | q, c :: cs => callUnknown q c ++ callAllUnknown (q + 1) cs

/-- There is nothing in the process but calls before the `q`th. -/
structure Idle (s : MeteredRuntime S Env Op) (q : ℕ) : Prop where
  destroyed : s.rt.destroyed = false
  hosts : ∀ id, s.rt.hosts id = none
  materializing : ∀ id, s.rt.materializing id = none
  requests : ∀ q', q ≤ q' → s.rt.requests q' = none
  recorded : ∀ q', q ≤ q' → q' ∉ s.recorded

/-- The process, once the call was made. -/
def asked (s : MeteredRuntime S Env Op) (q : ℕ) (c : ClassName) : MeteredRuntime S Env Op :=
  { s with rt := s.rt.setRequest q (unknown c) (.rejected (.unknownClass c)) }

/-- And once it has thrown. -/
def refused (s : MeteredRuntime S Env Op) (q : ℕ) (c : ClassName) : MeteredRuntime S Env Op :=
  { s.asked q c with
    metrics := s.metrics.recordCall c "m" .error, recorded := q :: s.recorded }

theorem run_callUnknown {q : ℕ} {c : ClassName} (h : s.Idle q) (hc : cfg.classes c = none) :
    TransitionSystem.run (step cfg) s (callUnknown q c) = some (s.refused q c) := by
  have hstart : s.rt.start cfg q (unknown c) true = some (s.asked q c).rt := by
    unfold Runtime.start
    rw [h.requests q le_rfl]
    show some (s.rt.resolve cfg q (unknown c) c "a") = _
    rw [Runtime.resolve, h.destroyed, h.hosts, h.materializing, hc]
    rfl
  have hasked : s.step cfg (.runtime (.start q (unknown c) true)) = some (s.asked q c) := by
    show (s.rt.start cfg q (unknown c) true).map _ = _
    rw [hstart]
    rfl
  have hsettle : (s.asked q c).step cfg (.settle q .error) = some (s.refused q c) := by
    show (s.asked q c).settle q .error = _
    have hrequest : (s.asked q c).rt.requests q
        = some ⟨unknown c, .rejected (.unknownClass c)⟩ := Runtime.requests_setRequest_self
    have hnew : q ∉ (s.asked q c).recorded := h.recorded q le_rfl
    rw [settle, if_neg hnew, hrequest]
    rfl
  rw [callUnknown, TransitionSystem.run_cons, hasked, Option.bind_some,
    TransitionSystem.run_cons, hsettle]
  rfl

theorem Idle.refused {q : ℕ} {c : ClassName} (h : s.Idle q) : (s.refused q c).Idle (q + 1) where
  destroyed := h.destroyed
  hosts := h.hosts
  materializing := h.materializing
  requests q' hq' := by
    show (s.rt.setRequest q (unknown c) _).requests q' = none
    rw [Runtime.requests_setRequest_ne (by omega)]
    exact h.requests q' (by omega)
  recorded q' hq' := by
    show q' ∉ q :: s.recorded
    rw [List.mem_cons, not_or]
    exact ⟨by omega, h.recorded q' (by omega)⟩

/-- **A call of a class that is not registered is recorded under that class.** -/
theorem mem_image_labels_refused {q : ℕ} {c c' : ClassName}
    (hc : c' = c ∨ c' ∈ s.metrics.labels.image Prod.fst) :
    c' ∈ (s.refused q c).metrics.labels.image Prod.fst := by
  have hclasses : ∀ m : MetricsRegistry,
      c' ∈ m.labels.image Prod.fst ↔ ∃ l ∈ m.actorMessageTotal, l.className = c' := fun m => by
    simp [MetricsRegistry.labels]
  obtain ⟨label, htotal⟩ :=
    MetricsRegistry.actorMessageTotal_recordCall (m := s.metrics) (c := c)
  rw [hclasses] at hc ⊢
  show ∃ l ∈ (s.metrics.recordCall c "m" .error).actorMessageTotal, l.className = c'
  rw [htotal]
  rcases hc with rfl | ⟨l, hl, rfl⟩
  · exact ⟨_, List.mem_append_right _ (List.mem_singleton_self _), rfl⟩
  · exact ⟨l, List.mem_append_left _ hl, rfl⟩

theorem run_callAllUnknown {q : ℕ} {cs : List ClassName} (h : s.Idle q)
    (hcs : ∀ c ∈ cs, cfg.classes c = none) :
    ∃ s', TransitionSystem.run (step cfg) s (callAllUnknown q cs) = some s'
      ∧ ∀ c, c ∈ cs ∨ c ∈ s.metrics.labels.image Prod.fst →
        c ∈ s'.metrics.labels.image Prod.fst := by
  induction cs generalizing q s with
  | nil => exact ⟨s, rfl, fun c hc => hc.resolve_left List.not_mem_nil⟩
  | cons c cs ih =>
    obtain ⟨hc, hrest⟩ := List.forall_mem_cons.mp hcs
    obtain ⟨s', hrun, hmem⟩ := ih (h.refused (c := c)) hrest
    refine ⟨s', ?_, fun c' hc' => hmem c' ?_⟩
    · rw [callAllUnknown, TransitionSystem.run_append, run_callUnknown h hc]
      exact hrun
    · rcases hc' with hc' | hc'
      · rcases List.mem_cons.mp hc' with rfl | hc'
        · exact .inr (mem_image_labels_refused (.inl rfl))
        · exact .inl hc'
      · exact .inr (mem_image_labels_refused (.inr hc'))

/-- **The labels are bounded where every call names a registered class**: by the number of
classes, each with the methods of its list and `_other`. Without this they are not, whatever
the classes and the limit. A method that has a label of its own keeps it in any case. -/
theorem labels_bounded (cfg : RuntimeConfig S Env Op) (registered : Finset ClassName)
    (hreg : ∀ c, c ∈ registered ↔ cfg.classes c ≠ none) (stores : ActorId → ActorStore S)
    (methodLimit : ℕ) :
    (∀ xs s, TransitionSystem.run (step cfg) (init stores methodLimit) xs = some s →
        TransitionSystem.Along (step cfg) (fun _ x => namesRegistered cfg x = true)
          (init stores methodLimit) xs →
        s.metrics.labels.card ≤ registered.card * (methodLimit + 1))
      ∧ (∀ n, ∃ xs s, TransitionSystem.run (step cfg) (init stores methodLimit) xs = some s
        ∧ n ≤ s.metrics.labels.card)
      ∧ ∀ xs ys s s' c method,
        TransitionSystem.run (step cfg) (init stores methodLimit) xs = some s →
        TransitionSystem.run (step cfg) s ys = some s' → method ∈ s.metrics.allowed c →
        (s'.metrics.bucketMethod c method).1 = method := by
  refine ⟨fun xs s hrun hG => ?_, fun n => ?_, fun xs ys s s' c method _ hrun hmem => ?_⟩
  · have hnames : s.Names registered := TransitionSystem.run_invariant (step cfg)
      (fun s x s' h hG hs => Names.step hreg h hG hs) (.init registered stores methodLimit) hG hrun
    have hlimit : s.metrics.methodLimit = methodLimit := (keeps_run hrun).1
    rw [← hlimit]
    exact hnames.bounded.card_labels_le
  · -- so many classes that are not registered
    obtain ⟨cs, hcs, hcard⟩ := (registered.finite_toSet.infinite_compl).exists_subset_card_eq n
    have hidle : (init stores methodLimit : MeteredRuntime S Env Op).Idle 0 :=
      ⟨rfl, fun _ => rfl, fun _ => rfl, fun _ _ => rfl, fun _ _ => List.not_mem_nil⟩
    have hunknown : ∀ c ∈ cs.toList, cfg.classes c = none := fun c hc => by
      have hnot : c ∉ registered := hcs (Finset.mem_coe.mpr (Finset.mem_toList.mp hc))
      rw [hreg, not_not] at hnot
      exact hnot
    obtain ⟨s, hrun, hmem⟩ := run_callAllUnknown hidle hunknown
    refine ⟨_, s, hrun, ?_⟩
    have hsub : cs ⊆ s.metrics.labels.image Prod.fst := fun c hc =>
      hmem c (.inl (Finset.mem_toList.mpr hc))
    exact hcard ▸ (Finset.card_le_card hsub).trans Finset.card_image_le
  · rw [MetricsRegistry.bucketMethod_of_mem ((keeps_run hrun).2 c hmem)]

/-! ### A counter that is called -/

theorem registered_counter (c : ClassName) :
    c ∈ ({"Counter"} : Finset ClassName) ↔ Counter.runtime.classes c ≠ none := by
  show _ ↔ (if c = "Counter" then some Counter.cfg.registration else none) ≠ none
  rw [Finset.mem_singleton]
  split
  · next h => exact ⟨fun _ => by simp, fun _ => h⟩
  · next h => exact ⟨fun hc => absurd hc h, fun hc => absurd rfl hc⟩

/-- Three calls of the counter that the rate limiter refuses. -/
def refusedCalls : List (MeteredAct Bool) :=
  [.runtime (.start 0 (.call "Counter" "a" "x" .null Counter.admin) false), .settle 0 .error,
    .runtime (.start 1 (.call "Counter" "a" "y" .null Counter.admin) false), .settle 1 .error,
    .runtime (.start 2 (.call "Counter" "a" "z" .null Counter.admin) false), .settle 2 .error]

theorem labels_bounded_refusedCalls :
    ∃ s, TransitionSystem.run (step Counter.runtime) (init (Counter.stored 0) 1) refusedCalls
        = some s
      ∧ s.metrics.labels.card ≤ 2 := by
  obtain ⟨s, hs⟩ : ∃ s, TransitionSystem.run (step Counter.runtime)
    (init (Counter.stored 0) 1) refusedCalls = some s := ⟨_, rfl⟩
  exact ⟨s, hs, (labels_bounded Counter.runtime {"Counter"} registered_counter
    (Counter.stored 0) 1).1 refusedCalls s hs (by decide)⟩

/-- Three calls, of three classes of which there is none. -/
theorem not_labels_bounded :
    ¬∀ xs s, TransitionSystem.run (step Counter.runtime) (init (Counter.stored 0) 1) xs = some s →
      s.metrics.labels.card ≤ ({"Counter"} : Finset ClassName).card * (1 + 1) := by
  intro h
  have hcard := h (callAllUnknown 0 ["X", "Y", "Z"]) _ rfl
  exact absurd hcard (by decide)

end MeteredRuntime
