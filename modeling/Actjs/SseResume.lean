import Actjs.EventDelivery
import Actjs.Writes

/-!
# Resuming a stream of events

A client whose event stream breaks off asks for it again with the id of the
last event it has seen. For an event-sourced actor the handler writes what the
log has after it and then attaches a live subscription, whose sink leaves out
the first snapshot and whatever the replay has covered.

Between the read of the log and the attachment the handler awaits the host,
and a batch that is committed there is neither in what was read nor sent. And
what the replay writes are the payloads of the log, where the live stream
sends the events themselves – which are never the same. So a stream is resumed
as the live one would have gone on exactly if nothing had to be replayed.
-/

open Function (update)

variable {S Env Op : Type}

/-! ## The handler

Between the request and the live stream the handler awaits the host, the log,
and the host once more; and the actor goes on meanwhile. -/

/-- Where the handler of a request with a `Last-Event-ID` is suspended. -/
inductive SsePc where
  /-- In the `getHost` of `replayFromSeq`. -/
  | resolving
  /-- In `readEvents`. -/
  | reading
  /-- In the `getHost` of `registry.subscribe`, with what `replayFromSeq`
  returned. -/
  | subscribing (replayedSeq : Option ℤ)
  /-- The subscription is attached. -/
  | streaming (replayedSeq : Option ℤ)
  | failed

/-- A request for a stream, by the name its subscription will have. -/
structure SseRequest (S Op : Type) where
  lastEventId : ℕ
  /-- What `replayFromSeq` has written. -/
  replay : List (Notification S Op)
  pc : SsePc

/-- `wrapSinkForResume`, of the notifications the sink is called with in turn:
the first one is left out if it is a snapshot, and every event up to
`replayedSeq` is. -/
def wrapSinkForResume (replayedSeq : ℤ) :
    Bool → List (Notification S Op) → List (Notification S Op)
  | _, [] => []
  | false, .snapshot _ _ :: ns => wrapSinkForResume replayedSeq true ns
  | _, .event events seq :: ns =>
    if seq ≤ replayedSeq then wrapSinkForResume replayedSeq true ns
    else .event events seq :: wrapSinkForResume replayedSeq true ns
  | _, n :: ns => n :: wrapSinkForResume replayedSeq true ns

namespace SseRequest

/-- What is written to the stream, if the subscription was sent `ns`. -/
def stream (r : SseRequest S Op) (ns : List (Notification S Op)) :
    List (Notification S Op) :=
  match r.pc with
  | .streaming none => r.replay ++ ns
  | .streaming (some seq) => r.replay ++ wrapSinkForResume seq false ns
  | _ => r.replay

/-- `replayFromSeq` after its `readEvents`: write the payloads as one batch,
unless there is none. -/
def replayed (r : SseRequest S Op) (records : List (ℤ × EventRow)) :
    SseRequest S Op :=
  match records.getLast? with
  | none => { r with pc := .subscribing none }
  | some (lastSeq, _) =>
    { r with
      replay := [.event (records.map (fun p => p.2.payload)) lastSeq]
      pc := .subscribing (some lastSeq) }

end SseRequest

/-- **A host, and the requests for a stream of its events.** -/
structure SseSys (S Env Op : Type) where
  sys : Sys S Env Op
  requests : ℕ → Option (SseRequest S Op)

/-- What can happen next: to the host, or to a request. -/
inductive SseAct (Env : Type) where
  | host (a : Act Env)
  | request (l : ℕ) (lastEventId : ℕ)
  | handler (l : ℕ) (ok : Bool)

namespace SseSys

/-- Nothing was requested. -/
def init (cfg : HostConfig S Env Op) (store : ActorStore S) :
    SseSys S Env Op :=
  ⟨.init cfg store, fun _ => none⟩

/-- Move request `l`. -/
def setRequest (s : SseSys S Env Op) (l : ℕ) (r : SseRequest S Op) :
    SseSys S Env Op :=
  { s with requests := update s.requests l (some r) }

@[simp] theorem requests_setRequest_self (s : SseSys S Env Op) (l : ℕ)
    (r : SseRequest S Op) : (s.setRequest l r).requests l = some r :=
  Function.update_self _ _ _

theorem requests_setRequest_ne (s : SseSys S Env Op) {l l' : ℕ} (h : l' ≠ l)
    (r : SseRequest S Op) : (s.setRequest l r).requests l' = s.requests l' :=
  Function.update_of_ne h _ _

/-- One segment of the handler of request `l`. -/
def handlerStep (s : SseSys S Env Op) (l : ℕ) (r : SseRequest S Op)
    (ok : Bool) : Option (SseSys S Env Op) :=
  match r.pc with
  | .resolving =>
    if ok = false then some (s.setRequest l { r with pc := .failed })
    else if s.sys.host.currentSeq ≤ r.lastEventId then
      some (s.setRequest l { r with pc := .subscribing none })
    else some (s.setRequest l { r with pc := .reading })
  | .reading =>
    if ok = false then some (s.setRequest l { r with pc := .failed })
    else
      some (s.setRequest l
        (r.replayed (s.sys.store.readEvents (r.lastEventId + 1))))
  | .subscribing seq =>
    if ok = false then some (s.setRequest l { r with pc := .failed })
    else
      (s.sys.subscribe l).map (fun sys =>
        { s with sys := sys }.setRequest l { r with pc := .streaming seq })
  | .streaming _ => none
  | .failed => none

/-- The step makes a subscriber of the name of a request. -/
def takes (s : SseSys S Env Op) : Act Env → Bool
  | .subscribe l => (s.requests l).isSome
  | _ => false

/-- **One step of a host, or of a request.** -/
def step (cfg : HostConfig S Env Op) (s : SseSys S Env Op) :
    SseAct Env → Option (SseSys S Env Op)
  | .host a =>
    if s.takes a = true then none
    else (s.sys.step cfg a).map (fun sys => { s with sys := sys })
  | .request l lastEventId =>
    if (s.requests l).isSome = true then none
    else some (s.setRequest l ⟨lastEventId, [], .resolving⟩)
  | .handler l ok =>
    match s.requests l with
    | none => none
    | some r => s.handlerStep l r ok

end SseSys

/-- **A request reads the host, or attaches a subscriber**: a step is one of
the host, or leaves it as it is. -/
theorem SseSys.sys_step {cfg : HostConfig S Env Op} {s s' : SseSys S Env Op}
    {a : SseAct Env} (hs : s.step cfg a = some s') :
    s'.sys = s.sys ∨ ∃ b, s.sys.step cfg b = some s'.sys := by
  cases a with
  | host a =>
    rw [step] at hs
    split at hs
    · exact absurd hs (by simp)
    · obtain ⟨sys, hsys, rfl⟩ := Option.map_eq_some_iff.mp hs
      exact .inr ⟨a, hsys⟩
  | request l lastEventId =>
    rw [step] at hs
    split at hs
    · exact absurd hs (by simp)
    · obtain rfl := Option.some.inj hs
      exact .inl rfl
  | handler l ok =>
    rw [step] at hs
    split at hs
    · exact absurd hs (by simp)
    next r hr =>
    unfold handlerStep at hs
    split at hs
    · split at hs
      · exact .inl (Option.some.inj hs ▸ rfl)
      · split at hs <;> exact .inl (Option.some.inj hs ▸ rfl)
    · split at hs <;> exact .inl (Option.some.inj hs ▸ rfl)
    · split at hs
      · exact .inl (Option.some.inj hs ▸ rfl)
      · obtain ⟨sys, hsys, rfl⟩ := Option.map_eq_some_iff.mp hs
        exact .inr ⟨.subscribe l, hsys⟩
    · exact absurd hs (by simp)
    · exact absurd hs (by simp)

/-- The lifecycle of the host is what it is without requests for streams. -/
theorem SseSys.lifecycle_run {cfg : HostConfig S Env Op}
    {store : ActorStore S} {s : SseSys S Env Op} {as : List (SseAct Env)}
    (hs : TransitionSystem.run (SseSys.step cfg) (.init cfg store) as = some s) :
    Lifecycle s.sys.flow.toLife :=
  TransitionSystem.run_invariant' (SseSys.step cfg)
    (P := fun s => Lifecycle s.sys.flow.toLife)
    (fun _ _ _ h hs => by
      rcases sys_step hs with he | ⟨b, hb⟩
      · rw [he]
        exact h
      · exact h.of_moves (Sys.flow_step hb))
    (.init cfg store) hs

/-! ## What a resumed stream should be

`Gapless` is about which events are covered, whatever is sent for them;
`Resumed` is about the values, too. -/

/-- **A stream without a gap** after seq `n`: a snapshot, and every event
logged after it; or every event logged after `n`, in order and in batches
that follow each other – whatever the values that are sent for them. -/
def Gapless (cls : ActorClass S Env) (log : List EventRow) (x : S) (n : ℕ)
    (out : List (Notification S Op)) : Prop :=
  (∃ q bs, Told cls log out q bs [] x)
    ∨ ∃ old new bs, log = old ++ new ∧ old.length = n
      ∧ out = deliveries n bs ∧ bs.flatten.length = new.length

/-- **A stream that goes on as the live one**: the values sent are the events
that were logged, as the turns returned them. -/
def Resumed (cls : ActorClass S Env) (log : List EventRow) (x : S) (n : ℕ)
    (out : List (Notification S Op)) : Prop :=
  (∃ q bs, Told cls log out q bs [] x)
    ∨ ∃ old new bs, log = old ++ new ∧ old.length = n
      ∧ out = deliveries n bs ∧ LoggedAs bs.flatten new

/-! ## Events and their payloads -/

/-- A property of an object is smaller than the object. -/
theorem Json.sizeOf_get? {name : String} {v w : Json}
    (h : v.get? name = some w) : sizeOf w < sizeOf v := by
  cases v with
  | obj fields =>
    have hmem : ∀ fields : List (String × Json), fields.lookup name = some w →
        sizeOf w < sizeOf fields := by
      intro fields
      induction fields with
      | nil => exact fun h => absurd h (by simp)
      | cons f fs ih =>
        obtain ⟨key, x⟩ := f
        intro h
        rw [List.lookup_cons] at h
        simp only [List.cons.sizeOf_spec, Prod.mk.sizeOf_spec]
        split at h
        · obtain rfl := Option.some.inj h
          omega
        · have := ih h
          omega
    have := hmem fields h
    simp only [Json.obj.sizeOf_spec]
    omega
  | _ => exact absurd h (by simp [Json.get?])

/-- What is left without a property does not have it. -/
theorem Json.get?_without (name : String) (v : Json) :
    (v.without name).get? name = none := by
  cases v with
  | obj fields =>
    show (fields.filter (fun f => f.fst != name)).lookup name = none
    rw [List.lookup_eq_none_iff]
    intro f hf
    have := (List.mem_filter.mp hf).2
    simpa [bne_comm] using this
  | _ => rfl

/-- **An event is never its own payload.** -/
theorem normalizeEvent_ne (e : Json) (type : String) :
    normalizeEvent e ≠ .ok ⟨type, e⟩ := by
  intro h
  unfold normalizeEvent at h
  split at h
  · exact absurd h (by simp)
  · split at h
    · next t ht =>
      split at h
      · next payload hp =>
        have hpe : payload = e := congrArg EventWrite.payload (Except.ok.inj h)
        have := Json.sizeOf_get? hp
        rw [hpe] at this
        exact absurd this (Nat.lt_irrefl _)
      · have hpe : e.without "type" = e :=
          congrArg EventWrite.payload (Except.ok.inj h)
        have := Json.get?_without "type" e
        rw [hpe, ht] at this
        exact absurd this (by simp)
    · exact absurd h (by simp)

namespace LoggedAs

variable {es fs : List Json} {rows : List EventRow}

/-- What is logged as a concatenation is logged in two parts. -/
theorem split (h : LoggedAs (es ++ fs) rows) :
    ∃ a b, rows = a ++ b ∧ LoggedAs es a ∧ LoggedAs fs b := by
  induction es generalizing rows with
  | nil => exact ⟨[], rows, rfl, rfl, h⟩
  | cons e es ih =>
    unfold LoggedAs at h
    rw [List.cons_append, normalizeEvents] at h
    cases hw : normalizeEvent e with
    | error x => rw [hw] at h; exact absurd h (by simp [bind, Except.bind])
    | ok w =>
      cases hws : normalizeEvents (es ++ fs) with
      | error x =>
        rw [hw, hws] at h
        exact absurd h (by simp [bind, Except.bind])
      | ok ws =>
        rw [hw, hws] at h
        have hrows : w :: ws = rows.map EventRow.write := Except.ok.inj h
        cases rows with
        | nil => exact absurd hrows (by simp)
        | cons r rows =>
          obtain ⟨hr, hrs⟩ := List.cons.inj hrows
          obtain ⟨a, b, rfl, ha, hb⟩ := ih (show LoggedAs (es ++ fs) rows by
            unfold LoggedAs; rw [hws, hrs])
          refine ⟨r :: a, b, rfl, ?_, hb⟩
          unfold LoggedAs at ha ⊢
          rw [normalizeEvents, hw, ha, List.map_cons, ← hr]
          rfl

/-- **Payloads are never what was logged**, but for none at all. -/
theorem not_payloads {mid new : List EventRow} (hmid : mid ≠ [])
    (h : LoggedAs (mid.map EventRow.payload ++ fs) (mid ++ new)) : False := by
  cases mid with
  | nil => exact hmid rfl
  | cons r mid =>
    unfold LoggedAs at h
    rw [List.map_cons, List.cons_append, normalizeEvents] at h
    cases hw : normalizeEvent r.payload with
    | error x => rw [hw] at h; exact absurd h (by simp [bind, Except.bind])
    | ok w =>
      cases hws : normalizeEvents (mid.map EventRow.payload ++ fs) with
      | error x =>
        rw [hw, hws] at h
        exact absurd h (by simp [bind, Except.bind])
      | ok ws =>
        rw [hw, hws] at h
        have hr : w = r.write := (List.cons.inj (Except.ok.inj h)).1
        rw [hr] at hw
        exact normalizeEvent_ne r.payload r.type hw

end LoggedAs

/-! ## The seam

Where the replay ends and the live stream begins: the sink leaves out what is
at or below the last seq that was replayed. -/

/-- The batches after `replayedSeq` pass, but for empty ones. -/
theorem wrapSinkForResume_deliveries {q seq : ℤ} (h : seq ≤ q)
    (bs : List (List Json)) :
    ∃ bs', wrapSinkForResume seq true
        (deliveries q bs : List (Notification S Op)) = deliveries q bs'
      ∧ bs'.flatten = bs.flatten := by
  induction bs generalizing q with
  | nil => exact ⟨[], rfl, rfl⟩
  | cons b bs ih =>
    obtain ⟨bs', hout, hflat⟩ := ih (q := q + b.length) (by omega)
    rw [deliveries, wrapSinkForResume, hout]
    split
    · next hle =>
      have hb : b = [] := by
        rw [← List.length_eq_zero_iff]
        omega
      refine ⟨bs', ?_, by rw [hflat, hb, List.flatten_cons, List.nil_append]⟩
      rw [hb, List.length_nil, Int.natCast_zero, add_zero]
    · exact ⟨b :: bs', rfl, by rw [List.flatten_cons, List.flatten_cons, hflat]⟩

/-- `seq` is where a subscriber attached, or where the batch leads that was
appended when it did. -/
def Passes (seq q : ℤ) (bs : List (List Json)) : Prop :=
  q = seq ∨ ∃ b rest, bs = b :: rest ∧ q + b.length = seq

theorem Passes.concat {seq q : ℤ} {bs : List (List Json)}
    (h : Passes seq q bs) (b : List Json) : Passes seq q (bs ++ [b]) := by
  rcases h with h | ⟨c, rest, rfl, h⟩
  · exact .inl h
  · exact .inr ⟨c, rest ++ [b], rfl, h⟩

/-- **The live stream takes up where the replay ends**: what passes the sink
are the events logged after it. -/
theorem Told.resume {cls : ActorClass S Env} {log old more : List EventRow}
    {ns : List (Notification S Op)} {q : ℤ} {bs : List (List Json)} {x : S}
    (h : Told cls log ns q bs [] x) (hlog : log = old ++ more)
    (hp : Passes old.length q bs) :
    ∃ bs', wrapSinkForResume old.length false ns = deliveries old.length bs'
      ∧ LoggedAs bs'.flatten more := by
  obtain ⟨x₀, rfl, -⟩ := h.sent
  obtain ⟨a, b, hab, hq, hl⟩ := h.logged
  rw [List.append_nil] at hl
  rcases hp with rfl | ⟨c, rest, rfl, hseq⟩
  · obtain ⟨bs', hout, hflat⟩ :=
      @wrapSinkForResume_deliveries S Op _ _ (le_refl (old.length : ℤ)) bs
    refine ⟨bs', hout, ?_⟩
    have hb : b = more := by
      refine (List.append_inj (hab.symm.trans hlog) ?_).2
      omega
    rw [hflat, ← hb]
    exact hl
  · obtain ⟨bs', hout, hflat⟩ :=
      @wrapSinkForResume_deliveries S Op _ _ (le_refl (old.length : ℤ)) rest
    refine ⟨bs', ?_, ?_⟩
    · rw [wrapSinkForResume, deliveries, hseq, wrapSinkForResume,
        if_pos (le_refl _)]
      exact hout
    · rw [List.flatten_cons] at hl
      obtain ⟨b₁, b₂, rfl, hl₁, hl₂⟩ := hl.split
      have hsplit : (a ++ b₁) ++ b₂ = old ++ more := by
        rw [List.append_assoc, ← hab, hlog]
      have hlen : (a ++ b₁).length = old.length := by
        have := hl₁.length
        rw [List.length_append]
        omega
      have hb : b₂ = more := (List.append_inj hsplit hlen).2
      rw [hflat, ← hb]
      exact hl₂

/-- What `readEvents` finds after seq `n`, as the replay uses it. -/
theorem ActorStore.readEvents_replay (st : ActorStore S) (n : ℕ) :
    st.readEvents (n + 1) = []
      ∨ ∃ old mid, st.events = old ++ mid ∧ old.length = n ∧ mid ≠ []
        ∧ st.readEvents (n + 1) = numberedFrom n mid := by
  cases hrow : st.row with
  | none => exact .inl (by rw [readEvents, hrow])
  | some r =>
    by_cases hn : n < st.events.length
    · have hsplit : st.events = st.events.take n ++ st.events.drop n :=
        (List.take_append_drop n _).symm
      refine .inr ⟨st.events.take n, st.events.drop n, hsplit, ?_, ?_, ?_⟩
      · rw [List.length_take]
        exact Nat.min_eq_left (Nat.le_of_lt hn)
      · intro hnil
        have := List.drop_eq_nil_iff.mp hnil
        omega
      · have hread := readEvents_after hrow hsplit
        rw [List.length_take, Nat.min_eq_left (Nat.le_of_lt hn)] at hread
        exact hread
    · refine .inl ?_
      rw [readEvents, hrow]
      refine List.filter_eq_nil_iff.mpr (fun p hp => ?_)
      have h := (numberedFrom_seq hp).2
      simp only [decide_eq_true_eq]
      omega

/-- The seq of the last of some numbered records. -/
theorem getLast?_numberedFrom {n : ℤ} {es : List EventRow} (h : es ≠ []) :
    ((numberedFrom n es).getLast?).map Prod.fst = some (n + es.length) := by
  induction es generalizing n with
  | nil => exact absurd rfl h
  | cons e es ih =>
    rw [numberedFrom]
    cases es with
    | nil => rfl
    | cons e' es =>
      have hne : numberedFrom (n + 1) (e' :: es) ≠ [] := by simp [numberedFrom]
      rw [List.getLast?_cons_of_ne_nil hne, ih (by simp)]
      simp only [List.length_cons, Option.some.injEq]
      push_cast
      omega

/-! ## The invariant -/

/-- What `replayFromSeq` has returned. -/
def SsePc.replayedSeq : SsePc → Option ℤ
  | subscribing seq => seq
  | streaming seq => seq
  | _ => none

/-- **What a request has replayed** of a log: the payloads after the last
event of the client, up to some seq. -/
def SseRequest.Fits (r : SseRequest S Op) (log : List EventRow) : Prop :=
  match r.pc.replayedSeq with
  | none => r.pc = .failed ∨ r.replay = []
  | some seq => ∃ old mid more, log = old ++ mid ++ more
    ∧ old.length = r.lastEventId ∧ mid ≠ []
    ∧ seq = ((old ++ mid).length : ℤ)
    ∧ r.replay = [.event (mid.map EventRow.payload) seq]

/-- What is replayed stays so. -/
theorem SseRequest.Fits.grow {r : SseRequest S Op} {log : List EventRow}
    (h : r.Fits log) (new : List EventRow) : r.Fits (log ++ new) := by
  unfold SseRequest.Fits at h ⊢
  split at h
  · exact h
  · obtain ⟨old, mid, more, rfl, hn, hne, hseq, hr⟩ := h
    exact ⟨old, mid, more ++ new, List.append_assoc _ _ _, hn, hne, hseq, hr⟩

/-- **What is read is replayed.** -/
theorem SseRequest.fits_replayed {r : SseRequest S Op} (hreplay : r.replay = [])
    (st : ActorStore S) :
    (r.replayed (st.readEvents (r.lastEventId + 1))).Fits st.events := by
  rcases st.readEvents_replay r.lastEventId with hread
    | ⟨old, mid, hlog, hn, hne, hread⟩
  · rw [hread]
    exact .inr hreplay
  · rw [hread]
    have hlast := getLast?_numberedFrom (n := r.lastEventId) hne
    obtain ⟨p, hp, hseq⟩ := Option.map_eq_some_iff.mp hlast
    obtain ⟨seq, row⟩ := p
    rw [SseRequest.replayed, hp]
    refine ⟨old, mid, [], ?_, hn, hne, ?_, ?_⟩
    · rw [List.append_nil]
      exact hlog
    · rw [List.length_append, hn]
      push_cast
      exact hseq
    · dsimp only
      rw [← numberedFrom_map_snd r.lastEventId mid, List.map_map,
        numberedFrom_map_snd]
      rfl

/-- What is known of a subscription of a resumed stream. -/
def SseSys.mark (s : SseSys S Env Op) : Mark := fun l q bs =>
  ∀ r seq, s.requests l = some r → r.pc = .streaming (some seq) →
    Passes seq q bs

theorem SseSys.mark_stable (s : SseSys S Env Op) : s.mark.Stable :=
  fun _ _ _ b h r seq hr hpc => (h r seq hr hpc).concat b

/-- **Every stream has been told everything**, and what it has replayed is
logged. -/
structure Resuming (s : SseSys S Env Op) : Prop where
  life : Lifecycle s.sys.flow.toLife
  delivering : Delivering s.mark s.sys
  requests : ∀ l r, s.requests l = some r → r.Fits s.sys.store.events

/-! ## The condition

At the seam nothing may have been committed since the read of the log; and for
the values to agree nothing may have had to be replayed. -/

namespace SseSys

/-- **When no gap opens**: the condition on the host, and where a subscription
is attached after a replay nothing has been logged since its read. -/
def seamless (s : SseSys S Env Op) : SseAct Env → Bool
  | .host a => s.sys.delivers a
  | .request _ _ => true
  | .handler l ok =>
    match s.requests l with
    | none => true
    | some r =>
      match r.pc with
      | .subscribing none => !ok || s.sys.attachableEs
      | .subscribing (some seq) =>
        !ok || s.sys.attachableEs && s.sys.store.headEventSeq == seq
      | _ => true

/-- **When a stream goes on as the live one**: besides, where the log is read
it has nothing after the last event of the client. -/
def resumes (s : SseSys S Env Op) (a : SseAct Env) : Bool :=
  s.seamless a
    && match a with
      | .handler l _ =>
        match s.requests l with
        | none => true
        | some r =>
          match r.pc with
          | .reading =>
            decide (s.sys.store.headEventSeq ≤ r.lastEventId)
          | _ => true
      | _ => true

end SseSys

namespace Resuming

variable {cfg : HostConfig S Env Op} {s s' : SseSys S Env Op}

/-- A request that is not attached moves. -/
theorem setRequest (h : Resuming s) {l : ℕ} {r : SseRequest S Op}
    (hr : r.Fits s.sys.store.events)
    (hpc : ∀ seq, r.pc ≠ .streaming (some seq)) :
    Resuming (s.setRequest l r) where
  life := h.life
  delivering := by
    refine h.delivering.remark (fun l' _ q bs hm r' seq hr' hpc' => ?_)
    by_cases hl : l' = l
    · rw [hl, SseSys.requests_setRequest_self] at hr'
      obtain rfl := Option.some.inj hr'
      exact absurd hpc' (hpc seq)
    · rw [SseSys.requests_setRequest_ne s hl] at hr'
      exact hm r' seq hr' hpc'
  requests l' r' hr' := by
    by_cases hl : l' = l
    · rw [hl, SseSys.requests_setRequest_self] at hr'
      obtain rfl := Option.some.inj hr'
      exact hr
    · rw [SseSys.requests_setRequest_ne s hl] at hr'
      exact h.requests l' r' hr'

/-- **A step of the host.** -/
theorem of_host (h : Resuming s) (hcfg : cfg.Evented) {a : Act Env}
    {sys : Sys S Env Op} (hG : s.sys.delivers a = true)
    (ht : s.takes a = false) (hs : s.sys.step cfg a = some sys) :
    Resuming { s with sys := sys } where
  life := h.life.of_moves (Sys.flow_step hs)
  delivering := by
    refine h.delivering.step s.mark_stable h.life hcfg hG (fun l hl => ?_) hs
    subst hl
    intro r seq hr
    rw [SseSys.takes, hr] at ht
    exact absurd ht (by simp)
  requests l r hr := by
    obtain ⟨new, hnew⟩ := Sys.log_step hs
    show r.Fits sys.store.events
    rw [hnew]
    exact (h.requests l r hr).grow new

/-- Where a subscriber may attach, the head of the log is where it is, or where
the batch in flight leads. -/
theorem passes_of_attachable {t : Sys S Env Op} {seq : ℤ}
    (hG : t.attachableEs = true) (hseq : t.store.headEventSeq = seq) :
    Passes seq t.host.currentSeq t.inFlight := by
  rw [Sys.attachableEs, Bool.and_eq_true] at hG
  have hG := hG.2
  unfold Sys.inFlight
  cases hp : t.host.workerPromise with
  | none =>
    rw [hp] at hG
    exact .inl ((eq_of_beq hG).trans hseq)
  | some g =>
    rw [hp, Option.map_some] at hG
    split at hG
    · exact absurd hG (by simp)
    · next item events q hpc =>
      dsimp only
      rw [Option.some.inj hpc]
      exact .inr ⟨events, [], rfl, (eq_of_beq hG).trans hseq⟩
    · exact .inl ((eq_of_beq hG).trans hseq)

/-- **A subscription is attached.** -/
theorem of_attach (cfg : HostConfig S Env Op) (h : Resuming s) {l : ℕ} {r : SseRequest S Op}
    {seq : Option ℤ} {sys : Sys S Env Op} (hr : s.requests l = some r)
    (hpc : r.pc = .subscribing seq) (hG : s.sys.attachableEs = true)
    (hseq : ∀ q, seq = some q → s.sys.store.headEventSeq = q)
    (hs : s.sys.subscribe l = some sys) :
    Resuming (SseSys.setRequest { s with sys := sys } l
      { r with pc := .streaming seq }) := by
  have hnew : l ∉ s.sys.host.commitListeners := by
    intro hm
    rw [Sys.subscribe, if_pos hm] at hs
    exact absurd hs (by simp)
  have hstep : s.sys.step cfg (.subscribe l) = some sys := hs
  obtain ⟨new, hlog⟩ := Sys.log_step hstep
  refine ⟨h.life.of_moves (Sys.flow_step hstep), ?_, fun l' r' hr' => ?_⟩
  · refine (h.delivering.remark (fun l' hm q bs hold r' seq' hr' => ?_)).of_subscribe
      h.life hG ?_ hs
    · have hne : l' ≠ l := by
        rintro rfl
        exact hnew hm
      rw [SseSys.requests_setRequest_ne _ hne] at hr'
      exact hold r' seq' hr'
    · intro r' seq' hr' hpc'
      rw [SseSys.requests_setRequest_self] at hr'
      obtain rfl := Option.some.inj hr'
      exact passes_of_attachable hG (hseq seq' (SsePc.streaming.inj hpc'))
  · show r'.Fits sys.store.events
    rw [hlog]
    by_cases hl : l' = l
    · rw [hl, SseSys.requests_setRequest_self] at hr'
      obtain rfl := Option.some.inj hr'
      refine SseRequest.Fits.grow ?_ new
      have hfits := h.requests l r hr
      unfold SseRequest.Fits at hfits ⊢
      rw [hpc] at hfits
      cases seq with
      | none => exact .inr (hfits.resolve_left (by simp))
      | some q => exact hfits
    · rw [SseSys.requests_setRequest_ne _ hl] at hr'
      exact (h.requests l' r' hr').grow new

/-- **One step**, under its condition. -/
theorem step (h : Resuming s) (hcfg : cfg.Evented) {a : SseAct Env}
    (hG : s.seamless a = true) (hs : s.step cfg a = some s') : Resuming s' := by
  cases a with
  | host a =>
    rw [SseSys.step] at hs
    split at hs
    · exact absurd hs (by simp)
    · next ht =>
      obtain ⟨sys, hsys, rfl⟩ := Option.map_eq_some_iff.mp hs
      exact h.of_host hcfg hG (by simpa using ht) hsys
  | request l lastEventId =>
    rw [SseSys.step] at hs
    split at hs
    · exact absurd hs (by simp)
    · obtain rfl := Option.some.inj hs
      exact h.setRequest (.inr rfl) (by simp)
  | handler l ok =>
    rw [SseSys.step] at hs
    split at hs
    · exact absurd hs (by simp)
    next r hr =>
    have hfits := h.requests l r hr
    rw [SseSys.seamless, hr] at hG
    dsimp only at hG
    have hfailed : Resuming (s.setRequest l { r with pc := .failed }) :=
      h.setRequest (.inl rfl) (by simp)
    unfold SseSys.handlerStep at hs
    split at hs
    · next hpc =>
      have hreplay : r.replay = [] := by
        unfold SseRequest.Fits at hfits
        rw [hpc] at hfits
        exact hfits.resolve_left (by simp)
      split at hs
      · exact Option.some.inj hs ▸ hfailed
      · split at hs <;> obtain rfl := Option.some.inj hs
        · exact h.setRequest (.inr hreplay) (by simp)
        · exact h.setRequest (.inr hreplay) (by simp)
    · next hpc =>
      split at hs
      · exact Option.some.inj hs ▸ hfailed
      · obtain rfl := Option.some.inj hs
        have hreplay : r.replay = [] := by
          unfold SseRequest.Fits at hfits
          rw [hpc] at hfits
          exact hfits.resolve_left (by simp)
        refine h.setRequest (SseRequest.fits_replayed hreplay _) (fun seq => ?_)
        unfold SseRequest.replayed
        split <;> simp
    · next seq hpc =>
      split at hs
      · exact Option.some.inj hs ▸ hfailed
      · next hok =>
        obtain ⟨sys, hsys, rfl⟩ := Option.map_eq_some_iff.mp hs
        have hok' : ok = true := by simpa using hok
        subst hok'
        rw [hpc] at hG
        cases seq with
        | none => exact of_attach cfg h hr hpc hG (by simp) hsys
        | some q =>
          simp only [Bool.not_true, Bool.false_or, Bool.and_eq_true,
            beq_iff_eq] at hG
          refine of_attach cfg h hr hpc hG.1 (fun q' he => ?_) hsys
          rw [← Option.some.inj he]
          exact hG.2
    · exact absurd hs (by simp)
    · exact absurd hs (by simp)

end Resuming

/-! ## Runs -/

/-- The events of batches are delivered as they are. -/
theorem deliveries_inj {q : ℤ} {bs bs' : List (List Json)}
    (h : (deliveries q bs : List (Notification S Op)) = deliveries q bs') :
    bs = bs' := by
  induction bs generalizing q bs' with
  | nil =>
    cases bs' with
    | nil => rfl
    | cons b' bs' => exact absurd h (by simp [deliveries])
  | cons b bs ih =>
    cases bs' with
    | nil => exact absurd h (by simp [deliveries])
    | cons b' bs' =>
      rw [deliveries, deliveries] at h
      obtain ⟨hb, hbs⟩ := List.cons.inj h
      obtain ⟨rfl, -⟩ := Notification.event.inj hb
      rw [ih hbs]

namespace Resuming

variable {cfg : HostConfig S Env Op} {s : SseSys S Env Op} {l : ℕ}
  {r : SseRequest S Op} {seq : Option ℤ}

/-- **No gap**, and the values are those of the live stream exactly if nothing
was replayed. -/
theorem stream (h : Resuming s) (hr : s.requests l = some r)
    (hpc : r.pc = .streaming seq) (hm : l ∈ s.sys.host.commitListeners)
    (hrest : ∀ g, (s.sys.host.workers g).batch = none) :
    Gapless s.sys.host.cls s.sys.store.events s.sys.host.state r.lastEventId
        (r.stream (s.sys.hist.notifs l))
      ∧ (Resumed s.sys.host.cls s.sys.store.events s.sys.host.state
          r.lastEventId (r.stream (s.sys.hist.notifs l)) ↔ r.replay = []) := by
  obtain ⟨q, bs, htold, hmark⟩ := h.delivering.rest hrest l hm
  have hfits := h.requests l r hr
  unfold SseRequest.Fits at hfits
  unfold SseRequest.stream
  rw [hpc] at hfits ⊢
  cases seq with
  | none =>
    have hnil : r.replay = [] := hfits.resolve_left (by simp)
    dsimp only
    rw [hnil, List.nil_append]
    exact ⟨.inl ⟨q, bs, htold⟩, fun _ => rfl, fun _ => .inl ⟨q, bs, htold⟩⟩
  | some seq =>
    obtain ⟨old, mid, more, hlog, hn, hne, hseq, hreplay⟩ := hfits
    have hpass : Passes ((old ++ mid).length : ℤ) q bs := by
      rw [← hseq]
      have := hmark r seq hr hpc
      rwa [List.append_nil] at this
    obtain ⟨bs', hout, hl⟩ := htold.resume hlog hpass
    -- what is written are the payloads, and then the events
    have hstream : r.replay ++ wrapSinkForResume seq false (s.sys.hist.notifs l)
        = deliveries r.lastEventId (mid.map EventRow.payload :: bs') := by
      have hsum : (r.lastEventId : ℤ) + (mid.map EventRow.payload).length
          = ((old ++ mid).length : ℤ) := by
        rw [List.length_map, List.length_append, hn]
        push_cast
        rfl
      rw [deliveries, hsum, hreplay, hseq, hout]
      rfl
    have hrows : s.sys.store.events = old ++ (mid ++ more) := by
      rw [hlog, List.append_assoc]
    dsimp only
    rw [hstream]
    refine ⟨.inr ⟨old, mid ++ more, _, hrows, hn, rfl, ?_⟩, fun hres => ?_,
      fun hnil => absurd hnil (by rw [hreplay]; simp)⟩
    · rw [List.flatten_cons, List.length_append, List.length_append,
        List.length_map, hl.length]
    · exfalso
      rcases hres with ⟨q', bs'', htold'⟩ | ⟨old', new, bs'', hlog', hn', hout', hl'⟩
      · obtain ⟨x₀, hsent, -⟩ := htold'.sent
        rw [deliveries] at hsent
        exact absurd (List.cons.inj hsent).1 (by simp)
      · rw [← deliveries_inj hout', List.flatten_cons] at hl'
        have hnew : mid ++ more = new :=
          (List.append_inj (hrows.symm.trans hlog') (hn.trans hn'.symm)).2
        rw [← hnew] at hl'
        exact hl'.not_payloads hne

theorem init (hcfg : cfg.Evented) (store : ActorStore S) :
    Resuming (SseSys.init cfg store) where
  life := .init cfg store
  delivering := .init hcfg _ store
  requests _ _ hr := absurd hr (by simp [SseSys.init])

/-- **The invariant, of every state a run reaches** under its condition. -/
theorem run (hcfg : cfg.Evented) {store : ActorStore S}
    {as : List (SseAct Env)}
    (hG : TransitionSystem.Along (SseSys.step cfg)
      (fun s a => s.seamless a = true) (.init cfg store) as)
    (hs : TransitionSystem.run (SseSys.step cfg) (.init cfg store) as = some s) :
    Resuming s :=
  TransitionSystem.run_invariant (SseSys.step cfg) (P := Resuming)
    (fun _ _ _ h hG hs => h.step hcfg hG hs) (.init hcfg store) hG hs

end Resuming

/-- **A stream has no gap** in any run in which nothing is logged between the
read of a replay and the attachment, and it goes on as the live one exactly if
nothing was replayed. -/
theorem sse_gapless (cfg : HostConfig S Env Op) (hcfg : cfg.Evented)
    (store : ActorStore S) {as : List (SseAct Env)} {s : SseSys S Env Op}
    (hG : TransitionSystem.Along (SseSys.step cfg)
      (fun s a => s.seamless a = true) (.init cfg store) as)
    (hs : TransitionSystem.run (SseSys.step cfg) (.init cfg store) as = some s)
    (hrest : ∀ g, (s.sys.host.workers g).batch = none) {l : ℕ}
    {r : SseRequest S Op} {seq : Option ℤ} (hr : s.requests l = some r)
    (hpc : r.pc = .streaming seq) (hm : l ∈ s.sys.host.commitListeners) :
    Gapless s.sys.host.cls s.sys.store.events s.sys.host.state r.lastEventId
        (r.stream (s.sys.hist.notifs l))
      ∧ (Resumed s.sys.host.cls s.sys.store.events s.sys.host.state
          r.lastEventId (r.stream (s.sys.hist.notifs l)) ↔ r.replay = []) :=
  (Resuming.run hcfg hG hs).stream hr hpc hm hrest

/-- No request has replayed anything. -/
def SseSys.Fresh (s : SseSys S Env Op) : Prop :=
  ∀ l r, s.requests l = some r → r.replay = []

/-- Where the log has nothing after the last event of the client, nothing is
replayed. -/
theorem SseSys.Fresh.step {cfg : HostConfig S Env Op} {s s' : SseSys S Env Op}
    {a : SseAct Env} (h : s.Fresh) (hG : s.resumes a = true)
    (hs : s.step cfg a = some s') : s'.Fresh := by
  have hset : ∀ (t : SseSys S Env Op) (l : ℕ) (r : SseRequest S Op),
      t.requests = s.requests → r.replay = [] → (t.setRequest l r).Fresh := by
    intro t l r ht hr l' r' hr'
    by_cases hl : l' = l
    · rw [hl, requests_setRequest_self] at hr'
      rw [← Option.some.inj hr']
      exact hr
    · rw [requests_setRequest_ne t hl, ht] at hr'
      exact h l' r' hr'
  cases a with
  | host a =>
    rw [SseSys.step] at hs
    split at hs
    · exact absurd hs (by simp)
    · obtain ⟨sys, -, rfl⟩ := Option.map_eq_some_iff.mp hs
      exact h
  | request l lastEventId =>
    rw [SseSys.step] at hs
    split at hs
    · exact absurd hs (by simp)
    · obtain rfl := Option.some.inj hs
      exact hset s l _ rfl rfl
  | handler l ok =>
    rw [SseSys.step] at hs
    split at hs
    · exact absurd hs (by simp)
    next r hr =>
    have hreplay := h l r hr
    unfold handlerStep at hs
    split at hs
    · split at hs
      · exact Option.some.inj hs ▸ hset s l _ rfl hreplay
      · split at hs <;> exact Option.some.inj hs ▸ hset s l _ rfl hreplay
    · next hpc =>
      split at hs
      · exact Option.some.inj hs ▸ hset s l _ rfl hreplay
      · obtain rfl := Option.some.inj hs
        refine hset s l _ rfl ?_
        rw [resumes, Bool.and_eq_true, hr] at hG
        have hle := hG.2
        dsimp only at hle
        rw [hpc] at hle
        rcases s.sys.store.readEvents_replay r.lastEventId with hread
          | ⟨old, mid, hlog, hn, hne, -⟩
        · rw [hread]
          exact hreplay
        · exfalso
          have hle := of_decide_eq_true hle
          rw [ActorStore.headEventSeq, hlog, List.length_append] at hle
          have := List.length_pos_of_ne_nil hne
          omega
    · split at hs
      · exact Option.some.inj hs ▸ hset s l _ rfl hreplay
      · obtain ⟨sys, -, rfl⟩ := Option.map_eq_some_iff.mp hs
        exact hset _ l _ rfl hreplay
    · exact absurd hs (by simp)
    · exact absurd hs (by simp)

/-- **A stream is resumed as the live one would have gone on**, in every run
in which a subscription is attached where it may be, and the log has nothing
after the last event of the client where it is read. -/
theorem sse_resume (cfg : HostConfig S Env Op) (hcfg : cfg.Evented)
    (store : ActorStore S) {as : List (SseAct Env)} {s : SseSys S Env Op}
    (hG : TransitionSystem.Along (SseSys.step cfg)
      (fun s a => s.resumes a = true) (.init cfg store) as)
    (hs : TransitionSystem.run (SseSys.step cfg) (.init cfg store) as = some s)
    (hrest : ∀ g, (s.sys.host.workers g).batch = none) {l : ℕ}
    {r : SseRequest S Op} {seq : Option ℤ} (hr : s.requests l = some r)
    (hpc : r.pc = .streaming seq) (hm : l ∈ s.sys.host.commitListeners) :
    Resumed s.sys.host.cls s.sys.store.events s.sys.host.state r.lastEventId
      (r.stream (s.sys.hist.notifs l)) := by
  have hfresh : s.Fresh := TransitionSystem.run_invariant (SseSys.step cfg)
    (P := SseSys.Fresh) (fun _ _ _ h hG hs => h.step hG hs)
    (fun _ _ hr => absurd hr (by simp [SseSys.init])) hG hs
  have hG' : TransitionSystem.Along (SseSys.step cfg)
      (fun s a => s.seamless a = true) (.init cfg store) as :=
    hG.mono (SseSys.step cfg) (fun s a h => (Bool.and_eq_true _ _ ▸ h).1)
  exact ((Resuming.run hcfg hG' hs).stream hr hpc hm hrest).2.mpr
    (hfresh l r hr)

namespace Ledger

/-- A deposit by `call()` number `c`, of a host that waits for one. -/
def depositing (c : ℕ) : List (Act Unit) :=
  .callStart c "deposit" .null :: working 6

/-- A client that has seen the only deposit there is asks for the stream, and
another deposit follows. -/
def resumedAtHead : List (SseAct Unit) :=
  (activating 8 ++ depositing 0).map .host
    ++ [.request 0 1, .handler 0 true, .handler 0 true]
    ++ (depositing 1).map .host

/-- A client that has seen nothing asks for the stream, and a deposit is made
between the read of the log and the attachment. -/
def resumedWithGap : List (SseAct Unit) :=
  (activating 8 ++ depositing 0).map .host
    ++ [.request 0 0, .handler 0 true, .handler 0 true]
    ++ (depositing 1).map .host ++ [.handler 0 true]
    ++ (depositing 2).map .host

/-- A deposit, as it is sent live. -/
def deposit : Json := .obj [("type", .str "Deposited"), ("amount", .num 1)]

end Ledger

/-- The theorem applies to the stream of a client that has seen everything. -/
theorem sse_resume_resumedAtHead :
    ∃ s r, TransitionSystem.run (SseSys.step (Ledger.cfg Ledger.byAmount))
        (.init (Ledger.cfg Ledger.byAmount) .empty) Ledger.resumedAtHead = some s
      ∧ s.requests 0 = some r ∧ s.sys.host.state = 2
      ∧ Resumed s.sys.host.cls s.sys.store.events s.sys.host.state
          r.lastEventId (r.stream (s.sys.hist.notifs 0)) := by
  have hrun : (TransitionSystem.run (SseSys.step (Ledger.cfg Ledger.byAmount))
      (.init (Ledger.cfg Ledger.byAmount) .empty) Ledger.resumedAtHead).any
        (fun s => s.sys.host.state == 2
          && s.sys.host.commitListeners.contains 0
          && (s.sys.host.workers 1).stage.alive
          && (s.sys.host.workers 1).batch.isNone) = true := by decide +kernel
  obtain ⟨s, hs, hr⟩ := (Option.any_eq_true _ _).mp hrun
  simp only [Bool.and_eq_true, beq_iff_eq, Option.isNone_iff_eq_none,
    List.contains_iff_mem] at hr
  obtain ⟨⟨⟨hstate, hm⟩, halive⟩, hb⟩ := hr
  have hreq : (TransitionSystem.run (SseSys.step (Ledger.cfg Ledger.byAmount))
      (.init (Ledger.cfg Ledger.byAmount) .empty) Ledger.resumedAtHead).map
        (fun s => s.requests 0) = some (some ⟨1, [], .streaming none⟩) := rfl
  rw [hs] at hreq
  have hl := SseSys.lifecycle_run hs
  exact ⟨s, _, hs, Option.some.inj hreq, hstate, sse_resume _
    (Ledger.evented_cfg Ledger.byAmount) .empty (by decide) hs
    (hl.no_batch halive hb) (Option.some.inj hreq) rfl hm⟩

/-- A batch of one event ends at the seq after the one before. -/
theorem not_deliveries_gap {d e : Json} :
    ∀ bs, ([.event [d] 1, .event [e] 3] : List (Notification S Op))
      ≠ deliveries 0 bs := by
  intro bs h
  cases bs with
  | nil => exact absurd h (by simp [deliveries])
  | cons b bs =>
    rw [deliveries] at h
    obtain ⟨hb, h⟩ := List.cons.inj h
    obtain ⟨rfl, -⟩ := Notification.event.inj hb
    cases bs with
    | nil => exact absurd h (by simp [deliveries])
    | cons c cs =>
      rw [deliveries] at h
      obtain ⟨rfl, hseq⟩ := Notification.event.inj (List.cons.inj h).1
      exact absurd hseq (by simp)

/-- **An event may be lost**: one that is committed between the read of the
log and the attachment. -/
theorem not_sse_resume :
    ∃ s r, TransitionSystem.run (SseSys.step (Ledger.cfg Ledger.byAmount))
        (.init (Ledger.cfg Ledger.byAmount) .empty) Ledger.resumedWithGap = some s
      ∧ s.requests 0 = some r ∧ r.pc = .streaming (some 1)
      ∧ 0 ∈ s.sys.host.commitListeners
      ∧ (∀ g, (s.sys.host.workers g).batch = none)
      ∧ ¬Resumed s.sys.host.cls s.sys.store.events s.sys.host.state
          r.lastEventId (r.stream (s.sys.hist.notifs 0)) := by
  have hrun : (TransitionSystem.run (SseSys.step (Ledger.cfg Ledger.byAmount))
      (.init (Ledger.cfg Ledger.byAmount) .empty) Ledger.resumedWithGap).any
        (fun s => s.sys.host.commitListeners.contains 0
          && (s.sys.host.workers 1).stage.alive
          && (s.sys.host.workers 1).batch.isNone) = true := by decide +kernel
  obtain ⟨s, hs, hr⟩ := (Option.any_eq_true _ _).mp hrun
  simp only [Bool.and_eq_true, Option.isNone_iff_eq_none,
    List.contains_iff_mem] at hr
  obtain ⟨⟨hm, halive⟩, hb⟩ := hr
  -- the second deposit is in neither of the two
  have hstream : (TransitionSystem.run (SseSys.step (Ledger.cfg Ledger.byAmount))
      (.init (Ledger.cfg Ledger.byAmount) .empty) Ledger.resumedWithGap).map
        (fun s => (s.requests 0, s.sys.hist.notifs 0))
      = some (some ⟨0, [.event [.obj [("amount", .num 1)]] 1], .streaming (some 1)⟩,
        [.snapshot (some 2) 2, .event [Ledger.deposit] 3]) := rfl
  rw [hs] at hstream
  obtain ⟨hreq, hnotifs⟩ := Prod.mk.inj (Option.some.inj hstream)
  refine ⟨s, _, hs, hreq, rfl, hm,
    (SseSys.lifecycle_run hs).no_batch halive hb, ?_⟩
  rw [hnotifs]
  rintro (⟨q, bs, htold⟩ | ⟨old, new, bs, -, -, hout, -⟩)
  · obtain ⟨x₀, hsent, -⟩ := htold.sent
    exact absurd (List.cons.inj hsent).1 (by simp)
  · exact not_deliveries_gap bs hout
