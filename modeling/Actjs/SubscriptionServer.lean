import Actjs.ClientSubscriptions
import Mathlib.Data.List.Perm.Basic

/-!
# What the server of a client may do

The server gives an id out once, to a request that asked for it, and forgets what it is
of when it is told to or when the actor is gone. `Advances` is that, and what a
subscriber is sent meanwhile; each thing that the server does is a case of it.
-/

open Function (update)

variable {S Op : Type}

/-- The id that a response gives to a request. -/
def offer? : ℕ × RpcAnswer (Option ℕ) → Option (ℕ × ℕ)
  | (id, .result (some subscriptionId)) => some (id, subscriptionId)
  | _ => none

/-- The response. -/
def ServerFrame.response? : ServerFrame S Op → Option (ℕ × RpcAnswer (Option ℕ))
  | response id answer => some (id, answer)
  | notification _ _ => none

@[simp] theorem ServerFrame.notification?_self (i : ℕ) (n : Notification S Op) :
    (notification i n).notification? i = some n := if_pos rfl

theorem ServerFrame.notification?_of_ne {i j : ℕ} (n : Notification S Op) (h : i ≠ j) :
    (notification i n).notification? j = none := if_neg h

namespace SubscriptionServer

variable {v v' : SubscriptionServer S Op} {className : ClassName} {actorId : ActorId}
  {subscriptionId : ℕ}

/-- The responses on their way to the client. -/
def responses (v : SubscriptionServer S Op) : List (ℕ × RpcAnswer (Option ℕ)) :=
  v.answering ++ v.down.filterMap ServerFrame.response?

/-- The ids on their way to the client, each with the request it is for. -/
def offers (v : SubscriptionServer S Op) : List (ℕ × ℕ) := v.responses.filterMap offer?

/-- **The id is of a subscription to the actor**, which lasts until the tombstone. -/
structure Granted (v : SubscriptionServer S Op) (className : ClassName) (actorId : ActorId)
    (subscriptionId : ℕ) : Prop where
  below : subscriptionId < v.issued
  lasts : ⟨subscriptionId, className, actorId⟩ ∈ v.served
    ∨ (v.published className actorId).any Notification.isTombstone = true
  only : ∀ sub ∈ v.served, sub.id = subscriptionId → sub = ⟨subscriptionId, className, actorId⟩

/-- **No id is given out twice**, and nothing is sent for one that is not given out. -/
structure Fair (v : SubscriptionServer S Op) : Prop where
  offers : (v.offers.map Prod.snd).Nodup
  offered : ∀ o ∈ v.offers, o.2 < v.issued
  served : (v.served.map ServedSubscription.id).Nodup
  below : ∀ sub ∈ v.served, sub.id < v.issued
  flight : ∀ i, v.issued ≤ i → v.inFlight i = []

/-- **What the server may do**: it forgets no subscription that it is not told to, gives out
new ids to those who asked, each with a snapshot that is sent first, and sends each
subscriber what its actor sends. -/
structure Advances (v v' : SubscriptionServer S Op) : Prop where
  up : ∀ r ∈ v'.up, r ∈ v.up
  issued : v.issued ≤ v'.issued
  granted : ∀ className actorId subscriptionId,
    (∀ r ∈ v.up, r.params ≠ .unsubscribe subscriptionId) →
    v.Granted className actorId subscriptionId → v'.Granted className actorId subscriptionId
  offers : ∀ o ∈ v'.offers, o ∈ v.offers ∨ v.issued ≤ o.2 ∧ ∃ r ∈ v.up, ∃ className actorId,
    r.id = o.1 ∧ r.params = .subscribe className actorId ∧ v'.Granted className actorId o.2
      ∧ ∃ data seq, v'.inFlight o.2 = [.snapshot data seq]
  fair : v'.Fair
  sends : ∀ className actorId subscriptionId, v.Granted className actorId subscriptionId →
    ∃ news, v'.published className actorId = v.published className actorId ++ news
      ∧ v'.inFlight subscriptionId = v.inFlight subscriptionId ++ news

/-- No subscription is gone. -/
theorem Granted.congr (h : v.Granted className actorId subscriptionId)
    (hissued : v.issued ≤ v'.issued) (hserved : v'.served = v.served)
    (hpublished : v'.published = v.published) : v'.Granted className actorId subscriptionId where
  below := Nat.lt_of_lt_of_le h.below hissued
  lasts := by rw [hserved, hpublished]; exact h.lasts
  only := by rw [hserved]; exact h.only

theorem inFlight_append (v : SubscriptionServer S Op) (frames : List (ServerFrame S Op))
    (subscriptionId : ℕ) :
    ({ v with down := v.down ++ frames } : SubscriptionServer S Op).inFlight subscriptionId
      = v.inFlight subscriptionId
        ++ frames.filterMap (ServerFrame.notification? subscriptionId) :=
  List.filterMap_append

/-- A request comes to what is no offer. -/
theorem Fair.advances_answer (h : v.Fair) {i : ℕ} {response : ℕ × RpcAnswer (Option ℕ)}
    (hresponse : offer? response = none) :
    v.Advances { v with up := v.up.eraseIdx i, answering := v.answering ++ [response] } := by
  have hoffers : ({ v with up := v.up.eraseIdx i, answering := v.answering ++ [response] } :
      SubscriptionServer S Op).offers = v.offers := by
    show ((v.answering ++ [response]) ++ v.down.filterMap _).filterMap offer?
      = (v.answering ++ v.down.filterMap _).filterMap offer?
    rw [List.append_assoc, List.filterMap_append, List.filterMap_append, List.filterMap_append,
      List.filterMap_cons_none hresponse, List.filterMap_nil, List.nil_append]
  refine ⟨fun r hr => List.mem_of_mem_eraseIdx hr, Nat.le_refl _, ?_, ?_, ?_, ?_⟩
  · exact fun _ _ _ _ hg => hg.congr (Nat.le_refl _) rfl rfl
  · exact fun o ho => .inl (hoffers ▸ ho)
  · exact ⟨hoffers.symm ▸ h.offers, hoffers.symm ▸ h.offered, h.served, h.below, h.flight⟩
  · exact fun _ _ _ _ => ⟨[], (List.append_nil _).symm, (List.append_nil _).symm⟩

/-- A subscription is put in place, and its id offered to who asked for it. -/
theorem Fair.advances_subscribe (h : v.Fair) {i id : ℕ} {data : Option S} {seq : ℤ}
    (hr : ⟨id, .subscribe className actorId⟩ ∈ v.up) : v.Advances { v with
      up := v.up.eraseIdx i
      served := v.served ++ [⟨v.issued, className, actorId⟩]
      down := v.down ++ [.notification v.issued (.snapshot data seq)]
      answering := v.answering ++ [(id, .result (some v.issued))]
      issued := v.issued + 1 } := by
  have hdown : (v.down ++ [ServerFrame.notification v.issued (.snapshot data seq)]).filterMap
      ServerFrame.response? = v.down.filterMap ServerFrame.response? := by
    rw [List.filterMap_append, List.filterMap_cons_none rfl, List.filterMap_nil, List.append_nil]
  have hperm : ((v.answering ++ [(id, RpcAnswer.result (some v.issued))]
      ++ (v.down ++ [ServerFrame.notification v.issued (.snapshot data seq)]).filterMap
        ServerFrame.response?).filterMap offer?).Perm ((id, v.issued) :: v.offers) := by
    rw [hdown, List.append_assoc, List.filterMap_append]
    show (_ ++ (id, v.issued) :: _).Perm (_ :: (v.answering ++ _).filterMap offer?)
    rw [List.filterMap_append]
    exact List.perm_middle
  refine ⟨fun r hr => List.mem_of_mem_eraseIdx hr, Nat.le_succ _,
    fun className' actorId' id' _ hg => ?_, fun o ho => ?_,
    ⟨?_, fun o ho => ?_, ?_, fun sub hsub => ?_, fun j hj => ?_⟩,
    fun className' actorId' id' hg => ?_⟩
  · refine ⟨Nat.lt_succ_of_lt hg.below, hg.lasts.imp_left (List.mem_append_left _),
      fun sub hsub => ?_⟩
    rcases List.mem_append.mp hsub with hsub | hsub
    · exact hg.only sub hsub
    · obtain rfl := List.mem_singleton.mp hsub
      exact fun he => absurd hg.below (Nat.not_lt.mpr (Nat.le_of_eq he))
  · rcases List.mem_cons.mp (hperm.mem_iff.mp ho) with rfl | ho
    · refine .inr ⟨Nat.le_refl _, _, hr, className, actorId, rfl, rfl, ⟨Nat.lt_succ_self _,
        .inl (List.mem_append_right _ (List.mem_singleton_self _)), fun sub hsub he => ?_⟩,
        data, seq, (inFlight_append v _ _).trans ?_⟩
      · rcases List.mem_append.mp hsub with hsub | hsub
        · exact absurd (he ▸ h.below sub hsub) (Nat.lt_irrefl _)
        · exact List.mem_singleton.mp hsub
      · rw [h.flight _ (Nat.le_refl _),
          List.filterMap_cons_some (ServerFrame.notification?_self _ _)]
        rfl
    · exact .inl ho
  · refine (hperm.map Prod.snd).nodup_iff.mpr (List.nodup_cons.mpr ⟨fun ho => ?_, h.offers⟩)
    obtain ⟨o, ho, he⟩ := List.mem_map.mp ho
    exact absurd (h.offered o ho) (Nat.not_lt.mpr (Nat.le_of_eq he.symm))
  · rcases List.mem_cons.mp (hperm.mem_iff.mp ho) with rfl | ho
    · exact Nat.lt_succ_self _
    · exact Nat.lt_succ_of_lt (h.offered o ho)
  · rw [List.map_append, List.nodup_append]
    refine ⟨h.served, List.nodup_singleton _, fun j hj j' hj' he => ?_⟩
    obtain ⟨sub, hsub, rfl⟩ := List.mem_map.mp hj
    have hlt := h.below sub hsub
    rw [he, List.mem_singleton.mp hj'] at hlt
    exact Nat.lt_irrefl _ hlt
  · rcases List.mem_append.mp hsub with hsub | hsub
    · exact Nat.lt_succ_of_lt (h.below sub hsub)
    · rw [List.mem_singleton.mp hsub]
      exact Nat.lt_succ_self _
  · refine (inFlight_append v _ j).trans ?_
    rw [h.flight j (Nat.le_of_succ_le hj),
      List.filterMap_cons_none (ServerFrame.notification?_of_ne _ (Nat.ne_of_lt hj))]
    rfl
  · -- the snapshot is for the new id
    refine ⟨[], (List.append_nil _).symm, (inFlight_append v _ id').trans ?_⟩
    rw [List.filterMap_cons_none
      (ServerFrame.notification?_of_ne _ (Nat.ne_of_gt hg.below)), List.filterMap_nil]

/-- A subscription is given up. -/
theorem Fair.advances_unsubscribe (h : v.Fair) {i id : ℕ}
    (hr : ⟨id, .unsubscribe subscriptionId⟩ ∈ v.up) : v.Advances { v with
      up := v.up.eraseIdx i
      served := v.served.filter (fun sub => sub.id ≠ subscriptionId)
      answering := v.answering ++ [(id, .result none)] } := by
  have ha := h.advances_answer (i := i) (show offer? (id, .result none) = none from rfl)
  refine ⟨ha.up, ha.issued, fun className' actorId' id' hup hg => ?_, fun o ho => ?_,
    ⟨ha.fair.offers, ha.fair.offered, ?_, fun sub hsub => ?_, h.flight⟩, ha.sends⟩
  · have hne : id' ≠ subscriptionId := fun he => hup _ hr (by rw [he])
    refine ⟨hg.below, hg.lasts.imp_left (fun hsub => ?_), fun sub hsub => ?_⟩
    · exact List.mem_filter.mpr ⟨hsub, by simpa using hne⟩
    · exact hg.only sub (List.mem_of_mem_filter hsub)
  · refine (ha.offers o ho).imp_right ?_
    rintro ⟨hle, -⟩
    exact absurd (ha.fair.offered o ho) (Nat.not_lt.mpr hle)
  · exact h.served.sublist (List.filter_sublist.map _)
  · exact h.below sub (List.mem_of_mem_filter hsub)

theorem Fair.advances_handle (h : v.Fair) {i : ℕ} {data : Option S} {seq : ℤ}
    (hv : v.handle i data seq = some v') : v.Advances v' := by
  unfold handle at hv
  split at hv
  · exact absurd hv (by simp)
  · next hi => exact Option.some.inj hv ▸ h.advances_subscribe (List.mem_of_getElem? hi)
  · next hi => exact Option.some.inj hv ▸ h.advances_unsubscribe (List.mem_of_getElem? hi)
  · exact Option.some.inj hv ▸ h.advances_answer rfl

theorem Fair.advances_refuse (h : v.Fair) {i : ℕ} {frameworkCode : Option String}
    (hv : v.refuse i frameworkCode = some v') : v.Advances v' := by
  unfold refuse at hv
  split at hv
  · exact absurd hv (by simp)
  · exact Option.some.inj hv ▸ h.advances_answer rfl

theorem Fair.advances_respond (h : v.Fair) {i : ℕ} (hv : v.respond i = some v') :
    v.Advances v' := by
  unfold respond at hv
  split at hv
  · exact absurd hv (by simp)
  next id answer hi =>
  obtain rfl := Option.some.inj hv
  obtain ⟨hlt, hget⟩ := List.getElem?_eq_some_iff.mp hi
  have hperm : ((v.answering.eraseIdx i ++ (v.down ++ [ServerFrame.response id answer]).filterMap
      ServerFrame.response?).filterMap offer?).Perm v.offers := by
    refine List.Perm.filterMap _ ?_
    rw [List.filterMap_append]
    show (_ ++ (_ ++ [(id, answer)])).Perm (v.answering ++ _)
    rw [← List.append_assoc]
    refine List.perm_append_comm.trans ?_
    rw [← List.append_assoc]
    have hcons := List.getElem_cons_eraseIdx_perm hlt
    rw [hget] at hcons
    exact hcons.append_right _
  refine ⟨fun r hr => hr, Nat.le_refl _, ?_, ?_, ⟨?_, ?_, h.served, h.below, fun j hj => ?_⟩, ?_⟩
  · exact fun _ _ _ _ hg => hg.congr (Nat.le_refl _) rfl rfl
  · exact fun o ho => .inl (hperm.mem_iff.mp ho)
  · exact (hperm.map Prod.snd).nodup_iff.mpr h.offers
  · exact fun o ho => h.offered o (hperm.mem_iff.mp ho)
  · exact (inFlight_append v _ j).trans (by rw [h.flight j hj]; rfl)
  · exact fun _ _ id' _ => ⟨[], (List.append_nil _).symm, inFlight_append v _ id'⟩

/-- What the subscriber of an id is sent. -/
theorem Fair.filterMap_sent (h : v.Fair)
    (hserved : ⟨subscriptionId, className, actorId⟩ ∈ v.served) (n : Notification S Op) :
    ((v.served.filter (fun sub => sub.of className actorId)).map
      (fun sub => ServerFrame.notification sub.id n)).filterMap
        (ServerFrame.notification? subscriptionId) = [n] := by
  obtain ⟨before, after, hsplit⟩ := List.append_of_mem hserved
  have hnodup := h.served
  rw [hsplit, List.map_append, List.map_cons, List.nodup_middle, List.nodup_cons,
    ← List.map_append] at hnodup
  have hnone : ∀ subs : List ServedSubscription, (∀ sub ∈ subs, sub ∈ before ++ after) →
      ((subs.filter (fun sub => sub.of className actorId)).map
        (fun sub => ServerFrame.notification sub.id n)).filterMap
          (ServerFrame.notification? subscriptionId) = [] := by
    intro subs hsubs
    refine List.filterMap_eq_nil_iff.mpr (fun frame hframe => ?_)
    obtain ⟨sub, hsub, rfl⟩ := List.mem_map.mp hframe
    refine ServerFrame.notification?_of_ne n (fun he => hnodup.1 ?_)
    exact List.mem_map.mpr ⟨sub, hsubs sub (List.mem_of_mem_filter hsub), he⟩
  rw [hsplit, List.filter_append, List.filter_cons_of_pos (by simp [ServedSubscription.of]),
    List.map_append, List.filterMap_append, List.map_cons,
    List.filterMap_cons_some (ServerFrame.notification?_self _ _),
    hnone before (fun _ => List.mem_append_left _), hnone after (fun _ => List.mem_append_right _),
    List.nil_append]

/-- The others are sent nothing for it. -/
theorem Granted.filterMap_not_sent (hg : v.Granted className actorId subscriptionId)
    {className' : ClassName} {actorId' : ActorId}
    (hne : ¬(className = className' ∧ actorId = actorId')) (n : Notification S Op) :
    ((v.served.filter (fun sub => sub.of className' actorId')).map
      (fun sub => ServerFrame.notification sub.id n)).filterMap
        (ServerFrame.notification? subscriptionId) = [] := by
  refine List.filterMap_eq_nil_iff.mpr (fun frame hframe => ?_)
  obtain ⟨sub, hsub, rfl⟩ := List.mem_map.mp hframe
  obtain ⟨hsub, hof⟩ := List.mem_filter.mp hsub
  refine ServerFrame.notification?_of_ne n (fun he => hne ?_)
  rw [hg.only sub hsub he] at hof
  simpa [ServedSubscription.of] using hof

/-- What the actors have sent, with one more. -/
theorem published_update (v : SubscriptionServer S Op) (className className' : ClassName)
    (actorId actorId' : ActorId) (n : Notification S Op) :
    update v.published className' (update (v.published className') actorId'
        (v.published className' actorId' ++ [n])) className actorId
      = if className = className' ∧ actorId = actorId' then v.published className actorId ++ [n]
        else v.published className actorId := by
  by_cases hc : className = className'
  · subst hc
    by_cases ha : actorId = actorId'
    · subst ha
      rw [Function.update_self, Function.update_self, if_pos ⟨rfl, rfl⟩]
    · rw [Function.update_self, Function.update_of_ne ha, if_neg (fun h => ha h.2)]
  · rw [Function.update_of_ne hc, if_neg (fun h => hc h.1)]

theorem Fair.advances_publish (h : v.Fair) {className' : ClassName} {actorId' : ActorId}
    {n : Notification S Op} (hv : v.publish className' actorId' n = some v') :
    v.Advances v' := by
  unfold publish at hv
  split at hv
  · exact absurd hv (by simp)
  next hfirst =>
  obtain rfl := Option.some.inj hv
  have hserved : ∀ sub ∈ (if n.isTombstone = true
      then v.served.filter (fun sub => !sub.of className' actorId') else v.served),
      sub ∈ v.served := by
    intro sub hsub
    split at hsub
    · exact List.mem_of_mem_filter hsub
    · exact hsub
  have hoffers : (v.answering ++ (v.down ++ (v.served.filter
      (fun sub => sub.of className' actorId')).map
        (fun sub => ServerFrame.notification sub.id n)).filterMap
          ServerFrame.response?).filterMap offer? = v.offers := by
    have hnil : ((v.served.filter (fun sub => sub.of className' actorId')).map
        (fun sub => ServerFrame.notification sub.id n)).filterMap ServerFrame.response? = [] := by
      refine List.filterMap_eq_nil_iff.mpr (fun frame hframe => ?_)
      obtain ⟨sub, -, rfl⟩ := List.mem_map.mp hframe
      rfl
    rw [List.filterMap_append (l := v.down), hnil, List.append_nil]
    rfl
  refine ⟨fun r hr => hr, Nat.le_refl _, fun className actorId id _ hg => ⟨hg.below, ?_,
    fun sub hsub => hg.only sub (hserved sub hsub)⟩, fun o ho => .inl (hoffers.subst ho),
    ⟨(congrArg (fun os => (os.map Prod.snd).Nodup) hoffers).mpr h.offers,
      fun o ho => h.offered o (hoffers.subst ho), ?_,
      fun sub hsub => h.below sub (hserved sub hsub), fun j hj => ?_⟩,
    fun className actorId id hg => ?_⟩
  · dsimp only
    rw [published_update]
    rcases hg.lasts with hsub | htomb
    · by_cases hactor : className = className' ∧ actorId = actorId'
      · by_cases hn : n.isTombstone = true
        · exact .inr (by rw [if_pos hactor]; simp [hn])
        · exact .inl (by rwa [if_neg hn])
      · have hof : ServedSubscription.of ⟨id, className, actorId⟩ className' actorId' = false := by
          rw [← Bool.not_eq_true]
          simpa [ServedSubscription.of] using hactor
        refine .inl ?_
        split
        · exact List.mem_filter.mpr ⟨hsub, by rw [hof]; rfl⟩
        · exact hsub
    · refine .inr ?_
      split
      · simp [htomb]
      · exact htomb
  · dsimp only
    split
    · exact h.served.sublist (List.filter_sublist.map _)
    · exact h.served
  · refine (inFlight_append v _ j).trans ?_
    rw [h.flight j hj, List.nil_append]
    refine List.filterMap_eq_nil_iff.mpr (fun frame hframe => ?_)
    obtain ⟨sub, hsub, rfl⟩ := List.mem_map.mp hframe
    have hlt := h.below sub (List.mem_of_mem_filter hsub)
    exact ServerFrame.notification?_of_ne n (Nat.ne_of_lt (Nat.lt_of_lt_of_le hlt hj))
  · refine ⟨if className = className' ∧ actorId = actorId' then [n] else [], ?_, ?_⟩
    · dsimp only
      rw [published_update]
      split
      · rfl
      · exact (List.append_nil _).symm
    · refine (inFlight_append v _ id).trans (congrArg (v.inFlight id ++ ·) ?_)
      split
      · next hactor =>
        obtain ⟨rfl, rfl⟩ := hactor
        exact h.filterMap_sent (hg.lasts.resolve_right hfirst) n
      · next hactor => exact hg.filterMap_not_sent hactor n

end SubscriptionServer
