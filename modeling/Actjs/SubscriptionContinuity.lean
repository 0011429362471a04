import Actjs.SubscriptionSteps

/-!
# What the listeners of a client receive

While a connection lasts, a listener receives all that its actor sends: its record is of
an id that the server has, and no other record is. When the connection is lost the server
forgets the id. The client subscribes again, and writes the new id down in `activeSubs`;
the record stays under the old one, so nothing reaches the listener any more.
`keepsConnection` is about the runs in which no connection is lost that a listener is
subscribed over.

## What it means to receive

There are two sides to it. From one state to a later one, a listener is given the states
that come of what was on its way and of what its actor has sent meanwhile, in order and
each once (`Receives`). That alone would be satisfied by a record which starts from the
wrong state; so there is also what the record is at any time (`Current`): the server sends
a snapshot first, and the record is what the snapshot and everything after it lead to, up
to what is still on its way. A snapshot may arrive before the response does. It is kept
then, and `Followed` has it that what is kept for an id, together with what is on its way,
is all that the id was sent.
-/

open Function (update)

variable {S Op : Type} {applyPatch : Option S → List Op → Option (Option S)}
  {reducers : ClassName → Option (Option S → Json → Option (Option S))}

namespace ClientSubscriptions

/-! ## What it means to receive -/

/-- The client is connected, and its requests to subscribe again have settled. -/
def Resubscribed (s : ClientSubscriptions S Op) : Prop :=
  s.rpc.transport.state = .opened ∧ ∀ r, s.activeSubs.runs r = none

/-- **The listener receives** what its actor has sent from `s` to `s'`, and what was on
its way in `s`: in order and each once, as the state that its record comes to. None of it
throws, and the rest is still on its way. -/
def Receives (applyPatch : Option S → List Op → Option (Option S))
    (s s' : ClientSubscriptions S Op) (k : ℕ) (l : ClientListener) (subscriptionId : ℕ) : Prop :=
  ∃ rec rec' states news arrived,
    s.subs.records k = some rec
      ∧ s'.server.published l.className l.actorId
        = s.server.published l.className l.actorId ++ news
      ∧ arrived ++ s'.server.inFlight subscriptionId
        = s.server.inFlight subscriptionId ++ news
      ∧ rec.follow applyPatch arrived = some (rec', states)
      ∧ s'.subs.records k = some rec'
      ∧ s'.subs.heard k = s.subs.heard k ++ states

/-- **All that the id was sent** is what has arrived and what is on its way: a snapshot,
and then everything that its actor has sent since. -/
def Sent (s : ClientSubscriptions S Op) (l : ClientListener) (subscriptionId : ℕ)
    (arrived : List (Notification S Op)) : Prop :=
  ∃ data seq since, since <:+ s.server.published l.className l.actorId
    ∧ arrived ++ s.server.inFlight subscriptionId = .snapshot data seq :: since

/-- **The record of the listener is current**: it is what all that has arrived leads to,
and the listener was given the states on the way. -/
def Current (applyPatch : Option S → List Op → Option (Option S))
    (reducers : ClassName → Option (Option S → Json → Option (Option S)))
    (s : ClientSubscriptions S Op) (k : ℕ) (l : ClientListener) (subscriptionId : ℕ) : Prop :=
  ∃ rec states arrived, s.Sent l subscriptionId arrived
    ∧ (newRecord reducers k l subscriptionId).follow applyPatch arrived = some (rec, states)
    ∧ s.subs.records k = some rec ∧ s.subs.heard k = states

/-- **The subscriptions go on** from `s` to `s'`: who has not unsubscribed receives, and
who has does not; and who listens in the end is current. -/
structure Continues (applyPatch : Option S → List Op → Option (Option S))
    (reducers : ClassName → Option (Option S → Json → Option (Option S)))
    (s s' : ClientSubscriptions S Op) : Prop where
  receives : s.Resubscribed → ∀ k l l' subscriptionId, s.listeners k = some l →
    l.pc = .listening subscriptionId → s'.listeners k = some l' →
    l'.pc = .listening subscriptionId → Receives applyPatch s s' k l subscriptionId
  silent : ∀ k l subscriptionId, s.listeners k = some l →
    l.pc = .unsubscribed subscriptionId → s'.subs.heard k = s.subs.heard k
  current : ∀ k l subscriptionId, s'.listeners k = some l →
    l.pc = .listening subscriptionId → Current applyPatch reducers s' k l subscriptionId

variable {s s' : ClientSubscriptions S Op} {a : SubscriptionAct S Op}

/-! ## What a step brings

For one listener: what a step adds to what it has heard, and what it leaves on
the way. -/

theorem ingest_subs (s : ClientSubscriptions S Op) (id : ℕ) (answer : RpcAnswer (Option ℕ)) :
    (s.ingest id answer).subs = s.subs ∧ (s.ingest id answer).server = s.server := by
  unfold ingest
  split <;> exact ⟨rfl, rfl⟩

theorem unsubscribe_listeners (s : ClientSubscriptions S Op) (k id : ℕ) (l : ClientListener)
    (accepts : Bool) : (s.unsubscribe k l id accepts).listeners
      = update s.listeners k (some { l with pc := .unsubscribed id }) := by
  unfold unsubscribe
  dsimp only
  split <;> rfl

/-- One who listens goes on listening, or unsubscribes, for good. -/
theorem listener_step (h : s.Kept) (hs : step applyPatch reducers s a = some s') {k i : ℕ}
    {l : ClientListener} (hl : s.listeners k = some l)
    (hpc : l.pc = .listening i ∨ l.pc = .unsubscribed i) :
    ∃ l', s'.listeners k = some l' ∧ l'.className = l.className ∧ l'.actorId = l.actorId
      ∧ (l'.pc = l.pc ∨ l'.pc = .unsubscribed i) := by
  have hsame : ∃ l', s.listeners k = some l' ∧ l'.className = l.className
      ∧ l'.actorId = l.actorId ∧ (l'.pc = l.pc ∨ l'.pc = .unsubscribed i) :=
    ⟨l, hl, rfl, rfl, .inl rfl⟩
  have hother : ∀ {j : ℕ} {l' : ClientListener}, j ≠ k →
      ∃ l'', update s.listeners j (some l') k = some l'' ∧ l''.className = l.className
        ∧ l''.actorId = l.actorId ∧ (l''.pc = l.pc ∨ l''.pc = .unsubscribed i) := fun hne =>
    ⟨l, (Function.update_of_ne hne.symm _ _).trans hl, rfl, rfl, .inl rfl⟩
  cases step_some hs with
  | subscribe _ => exact hother (Nat.ne_of_gt (h.numbered k l hl))
  | @rejected j lj hj hpc' =>
    refine hother (fun he => ?_)
    subst he
    rw [Option.some.inj (hl.symm.trans hj), hpc'] at hpc
    exact absurd hpc (by simp)
  | @registers j lj id subs activeSubs hj hpc' =>
    refine hother (fun he => ?_)
    subst he
    rw [Option.some.inj (hl.symm.trans hj), hpc'] at hpc
    exact absurd hpc (by simp)
  | @throws j lj id subs hj hpc' =>
    refine hother (fun he => ?_)
    subst he
    rw [Option.some.inj (hl.symm.trans hj), hpc'] at hpc
    exact absurd hpc (by simp)
  | @unsubscribes j lj id accepts hj hpc' =>
    rw [unsubscribe_listeners]
    by_cases he : j = k
    · subst he
      obtain rfl := Option.some.inj (hj.symm.trans hl)
      refine ⟨_, Function.update_self _ _ _, rfl, rfl, .inr ?_⟩
      rcases hpc with hpc | hpc <;> rcases hpc' with hpc' | hpc' <;>
        rw [hpc] at hpc' <;> cases hpc' <;> rfl
    · exact hother he
  | @answered expired id answer rest hdown =>
    unfold ingest
    split
    · refine ⟨_, Option.map_eq_some_iff.mpr ⟨l, hl, rfl⟩, rfl, rfl, .inl ?_⟩
      rcases settle_cases l.pc id answer.subscriptionId with ⟨hreq, -⟩ | he
      · rw [hreq] at hpc
        exact absurd hpc (by simp)
      · exact he
    · exact hsame
  | _ => exact hsame

/-- Nothing arrives for the listener. -/
theorem Receives.of_sends {k i : ℕ} {l : ClientListener} {rec : ClientRecord S}
    (hrec : s.subs.records k = some rec) (hrecords : s'.subs.records k = s.subs.records k)
    (hheard : s'.subs.heard k = s.subs.heard k) {news : List (Notification S Op)}
    (hpublished : s'.server.published l.className l.actorId
      = s.server.published l.className l.actorId ++ news)
    (hflight : s'.server.inFlight i = s.server.inFlight i ++ news) :
    Receives applyPatch s s' k l i :=
  ⟨rec, rec, [], news, [], hrec, hpublished, hflight, rfl, hrecords.trans hrec,
    hheard.trans (List.append_nil _).symm⟩

/-- Another `subscribe()` has its id. -/
theorem register_other {j k id : ℕ} {l : ClientListener} {subs : SubscriptionState S Op}
    {ok : Bool} (hne : k ≠ j)
    (hflush : (s.registering reducers j l id).flushBuffered applyPatch id = (subs, ok)) :
    subs.records k = s.subs.records k ∧ subs.heard k = s.subs.heard k := by
  obtain ⟨-, -, hapart⟩ :=
    SubscriptionState.flushBuffered_frame applyPatch (s.registering reducers j l id) id
  rw [hflush] at hapart
  have hsubs : (s.registering reducers j l id).subs id = some j := Function.update_self _ _ _
  have hk : (s.registering reducers j l id).Apart id k := by
    refine ⟨?_, fun r hr i' ls hls hk => ?_⟩
    · rw [hsubs]
      exact fun he => hne (Option.some.inj he).symm
    · obtain rfl := Option.some.inj (hsubs.symm.trans hr)
      rw [registering, SubscriptionState.shape_registered, Function.update_self] at hls
      obtain ⟨-, rfl⟩ := Prod.mk.inj (Option.some.inj hls)
      exact hne (List.mem_singleton.mp hk)
  refine ⟨(hapart k hk).1.trans ?_, (hapart k hk).2⟩
  exact (Function.update_of_ne hne _ _).trans (Function.update_of_ne hne _ _)

/-- The notification that arrives does not throw on the record that it is for. -/
theorem receive_of_keeps {expired : List ℕ} {k i : ℕ} {n : Notification S Op}
    {rest : List (ServerFrame S Op)} {rec : ClientRecord S}
    (hG : s.keepsConnection applyPatch reducers (.deliver expired) = true)
    (hdown : s.server.down = .notification i n :: rest) (hi : s.subs.subs i = some k)
    (hrec : s.subs.records k = some rec) :
    ∃ rec', rec.receive applyPatch n = some rec' := by
  rw [keepsConnection, deliversWell, hdown] at hG
  dsimp only at hG
  rw [hi] at hG
  dsimp only at hG
  rw [hrec, Option.all_some] at hG
  exact Option.isSome_iff_exists.mp hG

/-- What is for another id is not for the listener. -/
theorem Recorded.apart (h : s.Recorded) {k i j : ℕ} {ls : List ℕ}
    (hk : s.subs.shape k = some (i, ls)) (hne : j ≠ i) : s.subs.Apart j k := by
  have hrecord : s.subs.subs j ≠ some k := by
    intro hj
    obtain ⟨ls', hls'⟩ := h.subs j k hj
    exact hne (Prod.mk.inj (Option.some.inj (hls'.symm.trans hk))).1
  exact ⟨hrecord, fun r hr i' ls' hls' hmem => hrecord (h.own r i' ls' hls' k hmem ▸ hr)⟩

/-- **A step brings the listener what it should.** -/
theorem receives_step (h : s.Kept) (hlive : s.Live) (hrec : s.Recorded)
    (hG : s.keepsConnection applyPatch reducers a = true)
    (hs : step applyPatch reducers s a = some s') {k i : ℕ} {l l' : ClientListener}
    (hl : s.listeners k = some l) (hpc : l.pc = .listening i)
    (hl' : s'.listeners k = some l') (hpc' : l'.pc = .listening i) :
    Receives applyPatch s s' k l i := by
  obtain ⟨hshape, hsubs⟩ := hrec.listening k l i hl hpc
  obtain ⟨rec, hrecord, he⟩ := Option.map_eq_some_iff.mp hshape
  have hlisteners := (Prod.mk.inj he).2
  have hgranted := hlive k l i hl (by rw [hpc]; rfl)
  have hquiet : ∀ {t : ClientSubscriptions S Op}, t.subs.records k = s.subs.records k →
      t.subs.heard k = s.subs.heard k → t.server.published = s.server.published →
      t.server.inFlight i = s.server.inFlight i → Receives applyPatch s t k l i := by
    intro t hrecords hheard hpublished hsame
    have hsent : t.server.published l.className l.actorId
        = s.server.published l.className l.actorId ++ [] := by rw [hpublished, List.append_nil]
    have hflight : t.server.inFlight i = s.server.inFlight i ++ [] := by
      rw [hsame, List.append_nil]
    exact .of_sends hrecord hrecords hheard hsent hflight
  have hserver : ∀ {v}, s.server.Advances v →
      Receives applyPatch s { s with server := v } k l i := by
    intro v ha
    obtain ⟨news, hpublished, hflight⟩ := ha.sends _ _ i hgranted
    exact .of_sends hrecord rfl rfl hpublished hflight
  cases step_some hs with
  | @registers j lj id subs activeSubs hj hpcj hflush =>
    have hne : k ≠ j := by
      rintro rfl
      rw [Option.some.inj (hl.symm.trans hj), hpcj] at hpc
      exact absurd hpc (by simp)
    exact hquiet (register_other hne hflush).1 (register_other hne hflush).2 rfl rfl
  | @throws j lj id subs hj hpcj hflush =>
    obtain ⟨-, -, -, hok, -⟩ := flushBuffered_of_keeps hG hj hpcj
    exact absurd hok (by rw [hflush]; simp)
  | @unsubscribes j lj id accepts hj hpcj =>
    have hne : k ≠ j := by
      rintro rfl
      rw [unsubscribe_listeners, Function.update_self] at hl'
      rw [← Option.some.inj hl'] at hpc'
      exact absurd hpc' (by simp)
    have hsubs : (s.unsubscribe j lj id accepts).subs.records k = s.subs.records k
        ∧ (s.unsubscribe j lj id accepts).subs.heard k = s.subs.heard k := by
      unfold unsubscribe
      dsimp only
      split <;> exact ⟨Function.update_of_ne hne _ _, rfl⟩
    have hserver : (s.unsubscribe j lj id accepts).server.published = s.server.published
        ∧ (s.unsubscribe j lj id accepts).server.inFlight i = s.server.inFlight i := by
      unfold unsubscribe
      dsimp only
      split <;> exact ⟨rfl, rfl⟩
    exact hquiet hsubs.1 hsubs.2 hserver.1 hserver.2
  | closes hrpc =>
    have hnone := List.all_eq_true.mp hG k (List.mem_range.mpr (h.numbered k l hl))
    rw [hl, Option.all_some, hpc] at hnone
    exact absurd hnone (by simp [ListenPc.live])
  | handles hv => exact hserver (h.fair.advances_handle hv)
  | refuses hv => exact hserver (h.fair.advances_refuse hv)
  | responds hv => exact hserver (h.fair.advances_respond hv)
  | publishes hv => exact hserver (h.fair.advances_publish hv)
  | @notified expired j n rest hdown =>
    have ha := SubscriptionState.applies applyPatch s.subs expired j n
    have hflight : s.server.inFlight i
        = ((.notification j n : ServerFrame S Op) :: rest).filterMap
          (ServerFrame.notification? i) := by
      rw [SubscriptionServer.inFlight, hdown]
    by_cases hj : j = i
    · subst hj
      obtain ⟨rec', hreceive⟩ := receive_of_keeps hG hdown hsubs hrecord
      obtain ⟨hrecord', -, hheard⟩ :=
        ha.own hsubs hrecord (by rw [hlisteners]; exact .head _) hreceive
      refine ⟨rec, rec', _, [], [n], hrecord, (List.append_nil _).symm, ?_,
        ClientRecord.follow_singleton hreceive, hrecord', hheard⟩
      rw [List.append_nil, hflight, List.filterMap_cons_some (ServerFrame.notification?_self _ _)]
      rfl
    · obtain ⟨hrecord', hheard⟩ := ha.apart (hrec.apart hshape hj)
      have hsent : rest.filterMap (ServerFrame.notification? i) = s.server.inFlight i ++ [] := by
        rw [List.append_nil, hflight,
          List.filterMap_cons_none (ServerFrame.notification?_of_ne n hj)]
      exact .of_sends hrecord hrecord' hheard (List.append_nil _).symm hsent
  | @answered expired id answer rest hdown =>
    obtain ⟨hsubs', hserver'⟩ :=
      ingest_subs { s with server := { s.server with down := rest } } id answer
    refine hquiet (by rw [hsubs']) (by rw [hsubs']) (by rw [hserver']) ?_
    rw [hserver', SubscriptionServer.inFlight, SubscriptionServer.inFlight, hdown,
      List.filterMap_cons_none rfl]
  | _ => exact hquiet rfl rfl rfl rfl

/-- **A step brings nothing** to one who has unsubscribed. -/
theorem silent_step (hrec : s.Recorded) (hs : step applyPatch reducers s a = some s') {k i : ℕ}
    {l : ClientListener} (hl : s.listeners k = some l) (hpc : l.pc = .unsubscribed i) :
    s'.subs.heard k = s.subs.heard k := by
  have hshape := hrec.silent k l i hl hpc
  cases step_some hs with
  | @registers j lj id subs activeSubs hj hpcj hflush =>
    refine (register_other ?_ hflush).2
    rintro rfl
    rw [Option.some.inj (hl.symm.trans hj), hpcj] at hpc
    exact absurd hpc (by simp)
  | @throws j lj id subs hj hpcj hflush =>
    refine (register_other ?_ hflush).2
    rintro rfl
    rw [Option.some.inj (hl.symm.trans hj), hpcj] at hpc
    exact absurd hpc (by simp)
  | unsubscribes _ _ =>
    unfold unsubscribe
    dsimp only
    split <;> rfl
  | @notified expired j n rest hdown =>
    have ha := SubscriptionState.applies applyPatch s.subs expired j n
    refine ha.heard_of_not_mem (fun r hr i' ls hls hk => ?_)
    obtain rfl := hrec.own r i' ls hls k hk
    obtain ⟨-, rfl⟩ := Prod.mk.inj (Option.some.inj (hshape.symm.trans hls))
    exact absurd hk List.not_mem_nil
  | @answered expired id answer rest hdown =>
    rw [(ingest_subs { s with server := { s.server with down := rest } } id answer).1]
  | _ => rfl

/-! ## What is kept until it can be heard

Notifications may come before the response that has the id. They are kept, and
together with what is on its way they are all that was sent for it. -/

/-- **All that an id was sent is kept, or on its way**, until its `subscribe()` goes on; and
from there on the listener is current. -/
structure Followed (applyPatch : Option S → List Op → Option (Option S))
    (reducers : ClassName → Option (Option S → Json → Option (Option S)))
    (s : ClientSubscriptions S Op) : Prop where
  early : ∀ k l i, s.listeners k = some l → s.awaits i l = true →
    s.Sent l i (s.subs.pending i)
  current : ∀ k l i, s.listeners k = some l → l.pc = .listening i →
    Current applyPatch reducers s k l i
  untold : ∀ k, s.subs.records k = none → s.subs.heard k = []
  fresh : ∀ i, s.server.issued ≤ i → s.subs.pending i = []

theorem awaits_iff {i : ℕ} {l : ClientListener} : s.awaits i l = true
    ↔ l.pc = .settled (some i) ∨ ∃ id, l.pc = .requested id ∧ (id, i) ∈ s.server.offers := by
  unfold awaits
  split
  · next id hpc =>
    rw [List.contains_iff_mem]
    refine ⟨fun ho => .inr ⟨id, hpc, ho⟩, ?_⟩
    rintro (he | ⟨id', he, ho⟩)
    · exact absurd (hpc.symm.trans he) (by simp)
    · exact ListenPc.requested.inj (hpc.symm.trans he) ▸ ho
  · next x hpc =>
    rw [beq_iff_eq]
    refine ⟨fun he => .inl (he ▸ hpc), ?_⟩
    rintro (he | ⟨id', he, -⟩)
    · exact ListenPc.settled.inj (hpc.symm.trans he)
    · exact absurd (hpc.symm.trans he) (by simp)
  · next hne hne' =>
    refine ⟨fun he => absurd he (by simp), ?_⟩
    rintro (he | ⟨id', he, -⟩)
    · exact absurd he (hne' _)
    · exact absurd he (hne _)

/-- What a `subscribe()` is going to have a record of is granted. -/
theorem Kept.granted_of_awaits (h : s.Kept) (hlive : s.Live) {k i : ℕ} {l : ClientListener}
    (hl : s.listeners k = some l) (ha : s.awaits i l = true) :
    s.server.Granted l.className l.actorId i := by
  rcases awaits_iff.mp ha with hpc | ⟨id, hpc, ho⟩
  · exact hlive k l i hl (by rw [hpc]; rfl)
  · obtain ⟨r, className, actorId, hr, hid, hparams, hg⟩ := h.offered _ ho
    have hsame := hparams.symm.trans ((h.asks k l id hl hpc).requested r hr hid)
    obtain ⟨hc, ha⟩ := SubscriptionParams.subscribe.inj hsame
    rw [← hc, ← ha]
    exact hg

/-- It has none yet. -/
theorem Recorded.unrecorded (h : s.Recorded) (hk : s.Kept) {k i : ℕ} {l : ClientListener}
    (hl : s.listeners k = some l) (ha : s.awaits i l = true) : s.subs.subs i = none := by
  by_contra hne
  obtain ⟨r, hr⟩ := Option.ne_none_iff_exists'.mp hne
  obtain ⟨ls, hls⟩ := h.subs i r hr
  obtain ⟨l', i', hl', hpc'⟩ := h.made r _ hls
  have hi : i' = i := by
    rcases hpc' with hpc' | hpc'
    · exact (Prod.mk.inj (Option.some.inj ((h.listening r l' i' hl' hpc').1.symm.trans hls))).1
    · exact (Prod.mk.inj (Option.some.inj ((h.silent r l' i' hl' hpc').symm.trans hls))).1
  have hid : l'.pc.subscriptionId = some i := by
    rcases hpc' with hpc' | hpc' <;> rw [hpc', hi] <;> rfl
  rcases awaits_iff.mp ha with hpc | ⟨id, hpc, ho⟩
  · obtain rfl := hk.one k l r l' i hl (by rw [hpc]; rfl) hl' hid
    rw [← Option.some.inj (hl.symm.trans hl'), hpc] at hpc'
    exact absurd hpc' (by simp)
  · exact (hk.holds r l' i hl' hid).2 _ ho rfl

/-- No id is gone on with by two. -/
theorem Kept.ne_of_awaits (h : s.Kept) {k k' i i' : ℕ} {l l' : ClientListener}
    (hl : s.listeners k = some l) (hid : l.pc.subscriptionId = some i)
    (hl' : s.listeners k' = some l') (ha : s.awaits i' l' = true) (hne : k' ≠ k) : i' ≠ i := by
  rintro rfl
  rcases awaits_iff.mp ha with hpc | ⟨id, hpc, ho⟩
  · exact hne (h.one k' l' k l i' hl' (by rw [hpc]; rfl) hl hid)
  · exact (h.holds k l i' hl hid).2 _ ho rfl

/-- Frames arrive, and nothing is sent. -/
theorem Sent.congr {l : ClientListener} {i : ℕ} {arrived arrived' : List (Notification S Op)}
    (h : s.Sent l i arrived) (hpublished : s'.server.published = s.server.published)
    (hflight : arrived' ++ s'.server.inFlight i = arrived ++ s.server.inFlight i) :
    s'.Sent l i arrived' := by
  obtain ⟨data, seq, since, hsince, he⟩ := h
  exact ⟨data, seq, since, by rw [hpublished]; exact hsince, hflight.trans he⟩

/-- The actor sends more. -/
theorem Sent.append {l : ClientListener} {i : ℕ} {arrived news : List (Notification S Op)}
    (h : s.Sent l i arrived) (hpublished : s'.server.published l.className l.actorId
      = s.server.published l.className l.actorId ++ news)
    (hflight : s'.server.inFlight i = s.server.inFlight i ++ news) : s'.Sent l i arrived := by
  obtain ⟨data, seq, since, ⟨before, hbefore⟩, he⟩ := h
  refine ⟨data, seq, since ++ news, ⟨before, ?_⟩, ?_⟩
  · rw [hpublished, ← hbefore, List.append_assoc]
  · rw [hflight, ← List.append_assoc, he, List.cons_append]

/-- The record of the listener does not change. -/
theorem Current.congr {k i : ℕ} {l : ClientListener} (h : Current applyPatch reducers s k l i)
    (hsent : ∀ arrived, s.Sent l i arrived → s'.Sent l i arrived)
    (hrecords : s'.subs.records k = s.subs.records k)
    (hheard : s'.subs.heard k = s.subs.heard k) : Current applyPatch reducers s' k l i := by
  obtain ⟨rec, states, arrived, hs, hfollow, hrec, hh⟩ := h
  exact ⟨rec, states, arrived, hsent _ hs, hfollow, hrecords.trans hrec, hheard.trans hh⟩

namespace Followed

theorem init (autoConnect : Bool) :
    Followed applyPatch reducers (init autoConnect : ClientSubscriptions S Op) where
  early k l i hl := absurd hl (by simp [ClientSubscriptions.init])
  current k l i hl := absurd hl (by simp [ClientSubscriptions.init])
  untold _ _ := rfl
  fresh _ _ := rfl

/-- Nothing is sent or heard, and who goes on with an id then did so before. -/
theorem congr (h : Followed applyPatch reducers s) {t : ClientSubscriptions S Op}
    (hheard : t.subs.heard = s.subs.heard) (hpending : t.subs.pending = s.subs.pending)
    (hissued : t.server.issued = s.server.issued)
    (hpublished : t.server.published = s.server.published)
    (hflight : ∀ i, t.server.inFlight i = s.server.inFlight i)
    (huntold : ∀ k, t.subs.records k = none → s.subs.records k = none)
    (hawaits : ∀ k l i, t.listeners k = some l → t.awaits i l = true →
      ∃ pc, s.listeners k = some { l with pc := pc } ∧ s.awaits i { l with pc := pc } = true)
    (hlistens : ∀ k l i, t.listeners k = some l → l.pc = .listening i →
      s.listeners k = some l ∧ t.subs.records k = s.subs.records k) :
    Followed applyPatch reducers t := by
  have hsent : ∀ {l : ClientListener} {i arrived}, s.Sent l i arrived → t.Sent l i arrived :=
    fun hs => hs.congr hpublished (by rw [hflight])
  refine ⟨fun k l i hl ha => ?_, fun k l i hl hpc => ?_, fun k hk => ?_, fun i hi => ?_⟩
  · obtain ⟨pc, hl₀, ha₀⟩ := hawaits k l i hl ha
    rw [hpending]
    have hs : s.Sent l i (s.subs.pending i) := h.early k { l with pc := pc } i hl₀ ha₀
    exact hsent hs
  · obtain ⟨hl₀, hrec⟩ := hlistens k l i hl hpc
    exact (h.current k l i hl₀ hpc).congr (fun _ => hsent) hrec (congrFun hheard k)
  · rw [hheard]
    exact h.untold k (huntold k hk)
  · rw [hpending]
    exact h.fresh i (hissued ▸ hi)

/-- The server goes on. -/
theorem advance (h : Followed applyPatch reducers s) (hk : s.Kept) (hlive : s.Live)
    {v : SubscriptionServer S Op} (ha : s.server.Advances v) :
    Followed applyPatch reducers { s with server := v } := by
  have hsent : ∀ {l : ClientListener} {i arrived}, s.server.Granted l.className l.actorId i →
      s.Sent l i arrived →
        ({ s with server := v } : ClientSubscriptions S Op).Sent l i arrived := by
    intro l i arrived hg hs
    obtain ⟨news, hpublished, hflight⟩ := ha.sends _ _ i hg
    exact hs.append hpublished hflight
  have hold : ∀ {k l i}, s.listeners k = some l → s.awaits i l = true →
      ({ s with server := v } : ClientSubscriptions S Op).Sent l i (s.subs.pending i) :=
    fun hl haw => hsent (hk.granted_of_awaits hlive hl haw) (h.early _ _ _ hl haw)
  refine ⟨fun k l i hl haw => ?_, fun k l i hl hpc => ?_, h.untold,
    fun i hi => h.fresh i (Nat.le_trans ha.issued hi)⟩
  · rcases awaits_iff.mp haw with hpc | ⟨id, hpc, ho⟩
    · exact hold hl (awaits_iff.mpr (.inl hpc))
    · rcases ha.offers _ ho with ho | ⟨hle, -, -, -, -, -, -, -, data, seq, hflight⟩
      · exact hold hl (awaits_iff.mpr (.inr ⟨id, hpc, ho⟩))
      · -- a new id, for which the snapshot was sent and nothing else
        refine ⟨data, seq, [], List.nil_suffix, ?_⟩
        show s.subs.pending i ++ v.inFlight i = _
        rw [h.fresh i hle, hflight, List.nil_append]
  · have hg := hlive k l i hl (by rw [hpc]; rfl)
    exact (h.current k l i hl hpc).congr (fun _ => hsent hg) rfl rfl

/-- A `subscribe()` begins, or comes to nothing. -/
theorem setListener (h : Followed applyPatch reducers s) {k : ℕ} {l : ClientListener}
    (hnew : ∀ i, s.awaits i l = false ∧ l.pc ≠ .listening i) :
    Followed applyPatch reducers (s.setListener k l) := by
  refine h.congr rfl rfl rfl rfl (fun _ => rfl) (fun _ hj => hj) (fun j l' i hj ha => ?_)
    (fun j l' i hj hpc => ?_)
  · rcases update_eq_some hj with ⟨-, he⟩ | ⟨-, hj⟩
    · obtain rfl := Option.some.inj he
      exact absurd ((hnew i).1.symm.trans ha) (by simp)
    · exact ⟨l'.pc, hj, ha⟩
  · rcases update_eq_some hj with ⟨-, he⟩ | ⟨-, hj⟩
    · obtain rfl := Option.some.inj he
      exact absurd hpc (hnew i).2
    · exact ⟨hj, rfl⟩

/-- **`subscribe()` goes on**: its record follows what was kept, and that is all that has
arrived. -/
theorem registers (h : Followed applyPatch reducers s) (hk : s.Kept) {k id : ℕ}
    {l : ClientListener} {subs : SubscriptionState S Op} {activeSubs : ActiveSubs}
    (hG : s.keepsConnection applyPatch reducers (.resume k) = true) (hrec : s.Recorded)
    (hl : s.listeners k = some l) (hpc : l.pc = .settled (some id))
    (hflush : (s.registering reducers k l id).flushBuffered applyPatch id = (subs, true)) :
    Followed applyPatch reducers ({ s with subs := subs, activeSubs := activeSubs }.setListener k
      { l with pc := .listening id }) := by
  obtain ⟨rec, states, hfollow, -, hrecord, hpending, hheard⟩ := flushBuffered_of_keeps hG hl hpc
  rw [hflush] at hrecord hpending hheard
  dsimp only at hrecord hpending hheard
  have hshape : s.subs.shape k = none := by
    by_contra hne
    obtain ⟨p, hp⟩ := Option.ne_none_iff_exists'.mp hne
    obtain ⟨l', i, hl', hpc'⟩ := hrec.made k p hp
    rw [← Option.some.inj (hl.symm.trans hl'), hpc] at hpc'
    exact absurd hpc' (by simp)
  have huntold : s.subs.heard k = [] := h.untold k (Option.map_eq_none_iff.mp hshape)
  have hid : l.pc.subscriptionId = some id := by
    rw [hpc]
    rfl
  refine ⟨fun j l' i hj ha => ?_, fun j l' i hj hpc' => ?_, fun j hj => ?_, fun i hi => ?_⟩
  · rcases update_eq_some hj with ⟨-, he⟩ | ⟨hne, hj⟩
    · obtain rfl := Option.some.inj he
      exact absurd ha (by simp [awaits])
    · have hne' := hk.ne_of_awaits hl hid hj ha hne
      show Sent _ l' i (subs.pending i)
      rw [hpending, Function.update_of_ne hne']
      exact (h.early j l' i hj ha).congr rfl rfl
  · rcases update_eq_some hj with ⟨rfl, he⟩ | ⟨hne, hj⟩
    · obtain rfl := Option.some.inj he
      obtain rfl := ListenPc.listening.inj hpc'
      have hsent := h.early j l id hl (awaits_iff.mpr (.inl hpc))
      exact ⟨rec, states, s.subs.pending id, hsent.congr rfl rfl, hfollow, hrecord,
        hheard.trans (by rw [huntold, List.nil_append])⟩
    · obtain ⟨hrecords, hheard'⟩ := register_other hne hflush
      exact (h.current j l' i hj hpc').congr (fun _ hs => hs.congr rfl rfl) hrecords hheard'
  · by_cases hne : j = k
    · exact absurd ((hne ▸ hrecord).symm.trans hj) (by simp)
    · obtain ⟨hrecords, hheard'⟩ := register_other hne hflush
      exact hheard'.trans (h.untold j (hrecords.symm.trans hj))
  · show subs.pending i = []
    rw [hpending]
    by_cases hne : i = id
    · rw [hne, Function.update_self]
    · rw [Function.update_of_ne hne]
      exact h.fresh i hi

/-- What `subscribe()` returned is called. -/
theorem unsubscribes (h : Followed applyPatch reducers s) {k id : ℕ} {l : ClientListener}
    (accepts : Bool) : Followed applyPatch reducers (s.unsubscribe k l id accepts) := by
  have hrest : (s.unsubscribe k l id accepts).subs.heard = s.subs.heard
      ∧ (s.unsubscribe k l id accepts).subs.pending = s.subs.pending
      ∧ (s.unsubscribe k l id accepts).server.issued = s.server.issued
      ∧ (s.unsubscribe k l id accepts).server.published = s.server.published
      ∧ (∀ i, (s.unsubscribe k l id accepts).server.inFlight i = s.server.inFlight i)
      ∧ (s.unsubscribe k l id accepts).server.offers = s.server.offers
      ∧ (s.unsubscribe k l id accepts).subs.records
        = (s.subs.deleteListener k).records := by
    unfold unsubscribe
    dsimp only
    split <;> exact ⟨rfl, rfl, rfl, rfl, fun _ => rfl, rfl, rfl⟩
  obtain ⟨hheard, hpending, hissued, hpublished, hflight, hoffers, hrecords⟩ := hrest
  refine h.congr hheard hpending hissued hpublished hflight (fun j hj => ?_)
    (fun j l' i hj ha => ?_) (fun j l' i hj hpc => ?_)
  · rw [hrecords] at hj
    by_cases hne : j = k
    · have hj : update s.subs.records k ((s.subs.records k).map _) j = none := hj
      rw [hne, Function.update_self] at hj
      exact hne ▸ Option.map_eq_none_iff.mp hj
    · exact (Function.update_of_ne hne _ _).symm.trans hj
  · rw [unsubscribe_listeners] at hj
    rcases update_eq_some hj with ⟨-, he⟩ | ⟨-, hj⟩
    · obtain rfl := Option.some.inj he
      exact absurd ha (by simp [awaits])
    · refine ⟨l'.pc, hj, ?_⟩
      unfold awaits at ha ⊢
      rw [hoffers] at ha
      exact ha
  · rw [unsubscribe_listeners] at hj
    rcases update_eq_some hj with ⟨-, he⟩ | ⟨hne, hj⟩
    · obtain rfl := Option.some.inj he
      exact absurd hpc (by simp)
    · exact ⟨hj, (congrFun hrecords j).trans (Function.update_of_ne hne _ _)⟩

/-- Nothing expires that was kept for a `subscribe()`. -/
theorem not_expired {expired : List ℕ} {i j k : ℕ} {l : ClientListener} {n : Notification S Op}
    {rest : List (ServerFrame S Op)} (hk : s.Kept)
    (hG : s.keepsConnection applyPatch reducers (.deliver expired) = true)
    (hdown : s.server.down = .notification j n :: rest) (hj : s.subs.subs j = none)
    (hl : s.listeners k = some l) (ha : s.awaits i l = true) : i ∉ expired := by
  intro hi
  rw [keepsConnection, deliversWell, hdown] at hG
  dsimp only at hG
  rw [hj] at hG
  have hnone := List.all_eq_true.mp (List.all_eq_true.mp hG i hi) k
    (List.mem_range.mpr (hk.numbered k l hl))
  rw [hl, Option.all_some, ha] at hnone
  exact absurd hnone (by simp)

/-- **A notification arrives**: it is kept for who is going to listen to it, and heard by
who listens. -/
theorem notified (h : Followed applyPatch reducers s) (hk : s.Kept) (hrec : s.Recorded)
    {expired : List ℕ} {j : ℕ} {n : Notification S Op} {rest : List (ServerFrame S Op)}
    (hG : s.keepsConnection applyPatch reducers (.deliver expired) = true)
    (hdown : s.server.down = .notification j n :: rest) :
    Followed applyPatch reducers { s with
      server := { s.server with down := rest }
      subs := (s.subs.apply applyPatch expired j n).getD s.subs } := by
  have ha := SubscriptionState.applies applyPatch s.subs expired j n
  have hhit : s.server.inFlight j = n :: rest.filterMap (ServerFrame.notification? j) := by
    rw [SubscriptionServer.inFlight, hdown,
      List.filterMap_cons_some (ServerFrame.notification?_self _ _)]
  have hmiss : ∀ {i}, j ≠ i →
      rest.filterMap (ServerFrame.notification? i) = s.server.inFlight i := fun hne => by
    rw [SubscriptionServer.inFlight, hdown,
      List.filterMap_cons_none (ServerFrame.notification?_of_ne n hne)]
  have hbelow : j < s.server.issued := by
    by_contra hge
    exact absurd ((hk.fair.flight j (Nat.le_of_not_lt hge)).symm.trans hhit) (by simp)
  refine ⟨fun k l i hl haw => ?_, fun k l i hl hpc => ?_, fun k hrecord => ?_, fun i hi => ?_⟩
  · have haw : s.awaits i l = true := by
      rcases awaits_iff.mp haw with hpc | ⟨id, hpc, ho⟩
      · exact awaits_iff.mpr (.inl hpc)
      · have hoffers : ({ s.server with down := rest } : SubscriptionServer S Op).offers
            = s.server.offers := by
          unfold SubscriptionServer.offers SubscriptionServer.responses
          rw [hdown, List.filterMap_cons_none rfl]
        exact awaits_iff.mpr (.inr ⟨id, hpc, hoffers ▸ ho⟩)
    have hunrecorded := hrec.unrecorded hk hl haw
    by_cases hj : j = i
    · subst hj
      have hpending := ha.kept hunrecorded (not_expired hk hG hdown hunrecorded hl haw)
      refine (h.early k l j hl haw).congr rfl ?_
      show _ ++ rest.filterMap _ = _
      rw [hpending, hhit, List.append_assoc, List.singleton_append]
    · have hpending := ha.pending (Ne.symm hj)
        (fun hnone => not_expired hk hG hdown hnone hl haw)
      refine (h.early k l i hl haw).congr rfl ?_
      show _ ++ rest.filterMap _ = _
      rw [hpending, hmiss hj]
  · have hl : s.listeners k = some l := hl
    obtain ⟨hshape, hsubs⟩ := hrec.listening k l i hl hpc
    obtain ⟨rec, states, arrived, hsent, hfollow, hrecord, hheard⟩ := h.current k l i hl hpc
    have hls : rec.listeners = [k] := by
      rw [SubscriptionState.shape, hrecord] at hshape
      exact (Prod.mk.inj (Option.some.inj hshape)).2
    by_cases hj : j = i
    · subst hj
      obtain ⟨rec', hreceive⟩ := receive_of_keeps hG hdown hsubs hrecord
      obtain ⟨hrecord', -, hheard'⟩ :=
        ha.own hsubs hrecord (by rw [hls]; exact .head _) hreceive
      refine ⟨rec', _, arrived ++ [n], hsent.congr rfl ?_,
        ClientRecord.follow_append hfollow (ClientRecord.follow_singleton hreceive), hrecord',
        hheard'.trans (by rw [hheard])⟩
      show _ ++ rest.filterMap _ = _
      rw [hhit, List.append_assoc, List.singleton_append]
    · obtain ⟨hrecord', hheard'⟩ := ha.apart (hrec.apart hshape hj)
      refine ⟨rec, states, arrived, hsent.congr rfl ?_, hfollow, hrecord'.trans hrecord,
        hheard'.trans hheard⟩
      show _ ++ rest.filterMap _ = _
      rw [hmiss hj]
  · have hshape : s.subs.shape k = none := by
      rw [← ha.shape]
      exact Option.map_eq_none_iff.mpr hrecord
    refine (ha.heard_of_not_mem (fun r hr i' ls hls hmem => ?_)).trans
      (h.untold k (Option.map_eq_none_iff.mp hshape))
    obtain rfl := hrec.own r i' ls hls k hmem
    exact absurd (hshape.symm.trans hls) (by simp)
  · exact ha.pending_nil (Nat.ne_of_gt (Nat.lt_of_lt_of_le hbelow hi)) (h.fresh i hi)

/-- **A response arrives**: the id that it brings was offered. -/
theorem answered (h : Followed applyPatch reducers s) (hk : s.Kept) {id : ℕ}
    {answer : RpcAnswer (Option ℕ)} {rest : List (ServerFrame S Op)}
    (hdown : s.server.down = .response id answer :: rest) : Followed applyPatch reducers
      ({ s with server := { s.server with down := rest } }.ingest id answer) := by
  have hflight : ∀ i, rest.filterMap (ServerFrame.notification? i) = s.server.inFlight i :=
    fun i => by rw [SubscriptionServer.inFlight, hdown, List.filterMap_cons_none rfl]
  have hsub : ∀ o ∈ ({ s.server with down := rest } : SubscriptionServer S Op).offers,
      o ∈ s.server.offers := by
    intro o ho
    obtain ⟨x, hx, he⟩ := List.mem_filterMap.mp ho
    refine List.mem_filterMap.mpr ⟨x, ?_, he⟩
    rcases List.mem_append.mp hx with hx | hx
    · exact List.mem_append_left _ hx
    · refine List.mem_append_right _ ?_
      obtain ⟨frame, hframe, he⟩ := List.mem_filterMap.mp hx
      exact List.mem_filterMap.mpr ⟨frame, by rw [hdown]; exact .tail _ hframe, he⟩
  have hpopped : ∀ {l : ClientListener} {i},
      ({ s with server := { s.server with down := rest } } : ClientSubscriptions S Op).awaits i l
        = true → s.awaits i l = true := by
    intro l i ha
    rcases awaits_iff.mp ha with hpc | ⟨id', hpc, ho⟩
    · exact awaits_iff.mpr (.inl hpc)
    · exact awaits_iff.mpr (.inr ⟨id', hpc, hsub _ ho⟩)
  obtain ⟨hsubs, hserver⟩ :=
    ingest_subs { s with server := { s.server with down := rest } } id answer
  refine h.congr (by rw [hsubs]) (by rw [hsubs]) (by rw [hserver]) (by rw [hserver])
    (fun i => by rw [hserver]; exact hflight i) (fun k hk => by rw [hsubs] at hk; exact hk)
    (fun k l' i hl' haw => ?_) (fun k l' i hl' hpc => ?_)
  · have hoffers : (({ s with server := { s.server with down := rest } } :
        ClientSubscriptions S Op).ingest id answer).awaits i l'
          = ({ s with server := { s.server with down := rest } } :
            ClientSubscriptions S Op).awaits i l' := by
      unfold awaits
      rw [hserver]
    rw [hoffers] at haw
    unfold ingest at hl'
    split at hl'
    · obtain ⟨l, hl, rfl⟩ := Option.map_eq_some_iff.mp hl'
      refine ⟨l.pc, hl, ?_⟩
      rcases settle_cases l.pc id answer.subscriptionId with ⟨hpc, he⟩ | he
      · rcases awaits_iff.mp haw with hpc' | ⟨id', hpc', -⟩
        · have hi := ListenPc.settled.inj (he.symm.trans hpc')
          exact awaits_iff.mpr (.inr ⟨id, hpc, (hk.offer hdown hi).1⟩)
        · exact absurd (he.symm.trans hpc') (by simp)
      · refine hpopped ?_
        unfold awaits at haw ⊢
        dsimp only at haw
        rw [he] at haw
        exact haw
    · exact ⟨l'.pc, hl', hpopped haw⟩
  · refine ⟨?_, by rw [hsubs]⟩
    unfold ingest at hl'
    split at hl'
    · obtain ⟨l, hl, rfl⟩ := Option.map_eq_some_iff.mp hl'
      rcases settle_cases l.pc id answer.subscriptionId with ⟨-, he⟩ | he
      · exact absurd (he.symm.trans hpc) (by simp)
      · refine hl.trans ?_
        rw [he]
    · exact hl'

/-- **Every step keeps to it**, under the condition. -/
theorem step (h : Followed applyPatch reducers s) (hk : s.Kept) (hlive : s.Live)
    (hrec : s.Recorded) (hG : s.keepsConnection applyPatch reducers a = true)
    (hs : step applyPatch reducers s a = some s') : Followed applyPatch reducers s' := by
  cases step_some hs with
  | @subscribe className actorId accepts pc hpc =>
    have hasked : Followed applyPatch reducers { s.request (.subscribe className actorId) accepts
        with nextListener := s.nextListener + 1 } :=
      h.congr rfl rfl rfl rfl (fun _ => rfl) (fun _ hj => hj)
        (fun j l i hl ha => ⟨l.pc, hl, ha⟩) (fun j l i hl _ => ⟨hl, rfl⟩)
    refine hasked.setListener (fun i => ⟨?_, ?_⟩)
    · refine Bool.eq_false_iff.mpr (fun ha => ?_)
      rcases awaits_iff.mp ha with he | ⟨id, he, ho⟩
      · rcases hpc with rfl | rfl <;> exact absurd he (by simp)
      · -- no request has this id yet
        obtain ⟨r, -, -, hr, hid, -⟩ := hk.offered (id, i) ho
        have hlt := hk.wired.fresh r hr
        rcases hpc with rfl | rfl
        · exact absurd he (by simp)
        · rw [hid, ← ListenPc.requested.inj he] at hlt
          exact absurd hlt (Nat.lt_irrefl _)
    · rcases hpc with rfl | rfl <;> simp
  | rejected hl hpc => exact h.setListener (fun i => ⟨rfl, by simp⟩)
  | registers hl hpc hflush => exact h.registers hk hG hrec hl hpc hflush
  | @throws k l id subs hl hpc hflush =>
    obtain ⟨-, -, -, hok, -⟩ := flushBuffered_of_keeps hG hl hpc
    exact absurd hok (by rw [hflush]; simp)
  | unsubscribes hl hpc => exact h.unsubscribes _
  | closes hrpc =>
    have hnone : ∀ {k l}, s.listeners k = some l → l.pc.live = none := by
      intro k l hl
      have hnone := List.all_eq_true.mp hG k (List.mem_range.mpr (hk.numbered k l hl))
      rw [hl, Option.all_some] at hnone
      exact Option.isNone_iff_eq_none.mp hnone
    refine ⟨fun k l i hl ha => ?_, fun k l i hl hpc => ?_, h.untold, h.fresh⟩
    · rcases awaits_iff.mp ha with hpc | ⟨id, -, ho⟩
      · have hlive' := hnone hl
        rw [hpc] at hlive'
        exact absurd hlive' (by simp [ListenPc.live])
      · exact absurd ho List.not_mem_nil
    · have hlive' := hnone hl
      rw [hpc] at hlive'
      exact absurd hlive' (by simp [ListenPc.live])
  | handles hv => exact h.advance hk hlive (hk.fair.advances_handle hv)
  | refuses hv => exact h.advance hk hlive (hk.fair.advances_refuse hv)
  | responds hv => exact h.advance hk hlive (hk.fair.advances_respond hv)
  | publishes hv => exact h.advance hk hlive (hk.fair.advances_publish hv)
  | notified hdown => exact h.notified hk hrec hG hdown
  | answered hdown => exact h.answered hk hdown
  | _ =>
    exact h.congr rfl rfl rfl rfl (fun _ => rfl) (fun _ hj => hj)
      (fun j l i hl ha => ⟨l.pc, hl, ha⟩) (fun j l i hl _ => ⟨hl, rfl⟩)

end Followed

/-! ## What a run brings

What two steps bring one after the other is what they bring together, so the
induction is over `Receives.trans`. -/

theorem Receives.trans {t : ClientSubscriptions S Op} {k i : ℕ} {l l' : ClientListener}
    (h : Receives applyPatch s s' k l i) (h' : Receives applyPatch s' t k l' i)
    (hclass : l'.className = l.className) (hactor : l'.actorId = l.actorId) :
    Receives applyPatch s t k l i := by
  obtain ⟨rec, rec', states, news, arrived, hrec, hpublished, hflight, hfollow, hrec', hheard⟩ := h
  obtain ⟨rec₁, rec₂, states', news', arrived', hrec₁, hpublished', hflight', hfollow', hrec₂,
    hheard'⟩ := h'
  obtain rfl := Option.some.inj (hrec'.symm.trans hrec₁)
  rw [hclass, hactor] at hpublished'
  refine ⟨rec, rec₂, states ++ states', news ++ news', arrived ++ arrived', hrec, ?_, ?_,
    ClientRecord.follow_append hfollow hfollow', hrec₂, ?_⟩
  · rw [hpublished', hpublished, List.append_assoc]
  · calc arrived ++ arrived' ++ t.server.inFlight i
        = arrived ++ (s'.server.inFlight i ++ news') := by rw [List.append_assoc, hflight']
      _ = s.server.inFlight i ++ (news ++ news') := by
          rw [← List.append_assoc, hflight, List.append_assoc]
  · rw [hheard', hheard, List.append_assoc]

/-- **The client and its server are in order.** -/
structure InOrder (applyPatch : Option S → List Op → Option (Option S))
    (reducers : ClassName → Option (Option S → Json → Option (Option S)))
    (s : ClientSubscriptions S Op) : Prop where
  kept : s.Kept
  live : s.Live
  recorded : s.Recorded
  followed : Followed applyPatch reducers s

theorem InOrder.init (autoConnect : Bool) :
    InOrder applyPatch reducers (init autoConnect : ClientSubscriptions S Op) :=
  ⟨.init autoConnect, fun k l i hl => absurd hl (by simp [ClientSubscriptions.init]),
    .init autoConnect, .init autoConnect⟩

theorem InOrder.step (h : InOrder applyPatch reducers s)
    (hG : s.keepsConnection applyPatch reducers a = true)
    (hs : step applyPatch reducers s a = some s') : InOrder applyPatch reducers s' :=
  ⟨h.kept.step hs, h.live.step h.kept hG hs, h.recorded.step h.kept hG hs,
    h.followed.step h.kept h.live h.recorded hG hs⟩

/-- They are, and this was brought since `s`. -/
structure Going (applyPatch : Option S → List Op → Option (Option S))
    (reducers : ClassName → Option (Option S → Json → Option (Option S)))
    (s t : ClientSubscriptions S Op) : Prop where
  order : InOrder applyPatch reducers t
  listens : ∀ k l i, s.listeners k = some l → l.pc = .listening i → ∃ l',
    t.listeners k = some l' ∧ l'.className = l.className ∧ l'.actorId = l.actorId
      ∧ (l'.pc = .listening i ∧ Receives applyPatch s t k l i ∨ l'.pc = .unsubscribed i)
  silent : ∀ k l i, s.listeners k = some l → l.pc = .unsubscribed i → ∃ l',
    t.listeners k = some l' ∧ l'.pc = .unsubscribed i ∧ t.subs.heard k = s.subs.heard k

theorem Going.init (h : InOrder applyPatch reducers s) : Going applyPatch reducers s s := by
  refine ⟨h, fun k l i hl hpc => ⟨l, hl, rfl, rfl, .inl ⟨hpc, ?_⟩⟩,
    fun k l i hl hpc => ⟨l, hl, hpc, rfl⟩⟩
  obtain ⟨rec, hrecord, -⟩ := Option.map_eq_some_iff.mp (h.recorded.listening k l i hl hpc).1
  exact .of_sends hrecord rfl rfl (List.append_nil _).symm (List.append_nil _).symm

theorem Going.step {t t' : ClientSubscriptions S Op} (h : Going applyPatch reducers s t)
    (hG : t.keepsConnection applyPatch reducers a = true)
    (hs : step applyPatch reducers t a = some t') : Going applyPatch reducers s t' := by
  refine ⟨h.order.step hG hs, fun k l i hl hpc => ?_, fun k l i hl hpc => ?_⟩
  · obtain ⟨l', hl', hclass, hactor, hpc'⟩ := h.listens k l i hl hpc
    obtain ⟨l'', hl'', hclass', hactor', hpc''⟩ :=
      listener_step h.order.kept hs hl' (hpc'.imp_left (fun h => h.1))
    refine ⟨l'', hl'', hclass'.trans hclass, hactor'.trans hactor, ?_⟩
    rcases hpc' with ⟨hpc', hreceives⟩ | hpc'
    · rcases hpc'' with hpc'' | hpc''
      · have hpc'' := hpc''.trans hpc'
        exact .inl ⟨hpc'', hreceives.trans
          (receives_step h.order.kept h.order.live h.order.recorded hG hs hl' hpc' hl'' hpc'')
            hclass hactor⟩
      · exact .inr hpc''
    · exact .inr (hpc''.elim (fun he => he.trans hpc') (fun h => h))
  · obtain ⟨l', hl', hpc', hheard⟩ := h.silent k l i hl hpc
    obtain ⟨l'', hl'', -, -, hpc''⟩ := listener_step h.order.kept hs hl' (.inr hpc')
    exact ⟨l'', hl'', hpc''.elim (fun he => he.trans hpc') (fun h => h),
      (silent_step h.order.recorded hs hl' hpc').trans hheard⟩

theorem Going.continues {t : ClientSubscriptions S Op} (h : Going applyPatch reducers s t) :
    Continues applyPatch reducers s t := by
  refine ⟨fun _ k l l' i hl hpc hl' hpc' => ?_, fun k l i hl hpc => ?_, h.order.followed.current⟩
  · obtain ⟨l'', hl'', -, -, hr⟩ := h.listens k l i hl hpc
    obtain rfl := Option.some.inj (hl'.symm.trans hl'')
    refine hr.elim (fun hr => hr.2) (fun he => ?_)
    exact absurd (hpc'.symm.trans he) (by simp)
  · obtain ⟨-, -, -, hheard⟩ := h.silent k l i hl hpc
    exact hheard

/-- **The subscriptions go on** between any two states of a run that loses no connection
that a listener is subscribed over, and in which what the server has sent is applied. -/
theorem subscriptions_continue (applyPatch : Option S → List Op → Option (Option S))
    (reducers : ClassName → Option (Option S → Json → Option (Option S))) (autoConnect : Bool)
    (as more : List (SubscriptionAct S Op)) {s s' : ClientSubscriptions S Op}
    (hG : TransitionSystem.Along (step applyPatch reducers)
      (fun s a => s.keepsConnection applyPatch reducers a = true) (.init autoConnect)
      (as ++ more))
    (hrun : TransitionSystem.run (step applyPatch reducers) (.init autoConnect) as = some s)
    (hmore : TransitionSystem.run (step applyPatch reducers) s more = some s') :
    Continues applyPatch reducers s s' := by
  have horder : InOrder applyPatch reducers s :=
    TransitionSystem.run_invariant (step applyPatch reducers)
      (P := InOrder applyPatch reducers) (fun _ _ _ h hG hs => h.step hG hs) (.init autoConnect)
      (hG.left _) hrun
  have hgoing : Going applyPatch reducers s s' :=
    TransitionSystem.run_invariant (step applyPatch reducers) (P := Going applyPatch reducers s)
      (fun _ _ _ h hG hs => h.step hG hs) (.init horder) (hG.of_append _ hrun) hmore
  exact hgoing.continues

/-- Patches that add to a total, and throw where there is none. -/
def addAll (total : Option ℕ) (ops : List ℕ) : Option (Option ℕ) :=
  total.map (fun n => some (ops.foldl (· + ·) n))

/-- `subscribe()` number `k` is made, answered and registered. -/
def subscribing (k : ℕ) : List (SubscriptionAct ℕ ℕ) :=
  [.subscribe "Cart" "cart-1" true, .handle 0 (some 0) 0, .respond 0, .deliver [], .deliver [],
    .resume k]

/-- One of two listeners unsubscribes. -/
def oneOfTwo : List (SubscriptionAct ℕ ℕ) :=
  [.opens 0 0, .resubscribe 0 true] ++ subscribing 0 ++ subscribing 1 ++ [.unsubscribe 0 true]

/-- The cart goes on, before the server knows. -/
def goesOn : List (SubscriptionAct ℕ ℕ) :=
  [.publish "Cart" "cart-1" (.patch [5]), .deliver [], .deliver []]

theorem subscriptions_continue_oneOfTwo :
    ∃ s s', TransitionSystem.run (step addAll (fun _ => none)) (.init true) oneOfTwo = some s
      ∧ TransitionSystem.run (step addAll (fun _ => none)) s goesOn = some s'
      ∧ Continues addAll (fun _ => none) s s'
      ∧ s'.subs.heard 0 = [some 0] ∧ s'.subs.heard 1 = [some 0, some 5] :=
  ⟨_, _, rfl, rfl, subscriptions_continue addAll (fun _ => none) true oneOfTwo goesOn (by decide)
    rfl rfl, rfl, rfl⟩

/-- The connection is lost, and the cart subscribed to again. -/
def lost : List (SubscriptionAct ℕ ℕ) :=
  [.opens 0 0, .resubscribe 0 true] ++ subscribing 0 ++ [.closes false, .reconnect, .opens 0 0,
    .resubscribe 1 true, .handle 0 (some 0) 0, .respond 0, .deliver [], .deliver [],
    .resubscribed 1, .resubscribe 1 true]

/-- The record is still under the old id, and **the listener hears nothing**. -/
theorem not_subscriptions_continue :
    ¬∀ (S Op : Type) (applyPatch : Option S → List Op → Option (Option S))
      (reducers : ClassName → Option (Option S → Json → Option (Option S))) (autoConnect : Bool)
      (as more : List (SubscriptionAct S Op)) (s s' : ClientSubscriptions S Op),
      TransitionSystem.run (step applyPatch reducers) (.init autoConnect) as = some s →
      TransitionSystem.run (step applyPatch reducers) s more = some s' →
      (∀ a ∈ more, ∀ clean, a ≠ .closes clean) → Continues applyPatch reducers s s' := by
  intro h
  have hreceives := (h ℕ ℕ addAll (fun _ => none) true lost
    [.publish "Cart" "cart-1" (.patch [5]), .deliver []] _ _ rfl rfl (by simp)).receives
    ⟨rfl, fun r => ?_⟩ 0 _ _ 0 rfl rfl rfl rfl
  · obtain ⟨rec, rec', states, news, arrived, hrec, hpublished, hflight, hfollow, -, hheard⟩ :=
      hreceives
    obtain rfl : (⟨0, some 0, none, [0], false⟩ : ClientRecord ℕ) = rec := Option.some.inj hrec
    obtain rfl : [.patch [5]] = news := hpublished
    have harrived : arrived ++ [] = [.patch [5]] := hflight
    obtain rfl : arrived = [.patch [5]] := (List.append_nil _).symm.trans harrived
    obtain ⟨-, rfl⟩ := Prod.mk.inj (Option.some.inj hfollow)
    have hlater : [some 0] = [some 0] ++ [some 5] := hheard
    exact absurd hlater (by decide)
  · rcases r with _ | _ | r <;> rfl

end ClientSubscriptions
