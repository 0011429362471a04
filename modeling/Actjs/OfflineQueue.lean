import Actjs.ClientCalls

/-!
# What is removed from the offline queue

An entry is removed when the request that a drain made for it has had success or a
permanent failure, and when its own `call()` goes on, in whatever way that one settled:
also when the server refused it for now, and when the client was closed.
`Client.removesConcluded` is about the runs in which no stored call comes to that.
-/

open Function (update)

namespace Client

/-- The server answered a request for the call with success, or with a permanent failure. -/
def Concluded (s : Client) (q : QueuedCall) : Prop :=
  ∃ r answer, .answered r answer ∈ s.rpc.log
    ∧ r.params.map QueuedCall.number = some q.number
    ∧ (Outcome.answered answer).conclusive = true

/-- **What is stored stays stored** until it is concluded. -/
def Retains (s s' : Client) : Prop :=
  ∀ q ∈ s.offlineQueue, q ∈ s'.offlineQueue ∨ s'.Concluded q

/-- **Only what is concluded is removed**: an entry of the key that a step removes is of
the very call, and a `call()` that goes on with its entry stored has had success or a
permanent failure. -/
def removesConcluded (s : Client) : ClientAct → Bool
  | .resume k =>
    match s.calls k with
    | some ⟨call, .settled outcome⟩ =>
      s.offlineQueue.all (fun q => q.idempotencyKey != call.idempotencyKey
        || q.number == call.number && outcome.conclusive)
    | _ => true
  | .drainResume d =>
    match s.drains d with
    | some (.settled outcome call _) =>
      !outcome.conclusive || s.offlineQueue.all (fun q =>
        q.idempotencyKey != call.idempotencyKey || q.number == call.number)
    | _ => true
  | _ => true

end Client

/-! ## How a request settles

A pending `call()` or drain is for a certain request, and goes on with what
the log says that request was answered with. -/

/-- What the pc of a call says of its request. -/
def ClientCallPc.Asked (rpc : Rpc (Option QueuedCall) Json) (q : QueuedCall) :
    ClientCallPc → Prop
  | requested id => rpc.AsksFor (some q) id
  | settled (.answered answer) => rpc.AnsweredFor (some q) answer
  | _ => True

/-- What the pc of a drain says of its request. -/
def DrainPc.Asked (rpc : Rpc (Option QueuedCall) Json) : DrainPc → Prop
  | requested id q _ => rpc.AsksFor (some q) id
  | settled (.answered answer) q _ => rpc.AnsweredFor (some q) answer
  | _ => True

section

variable {rpc rpc' : Rpc (Option QueuedCall) Json} {q : QueuedCall}

theorem ClientCallPc.Asked.onward {pc : ClientCallPc} (h : pc.Asked rpc q)
    (ho : rpc.Onward rpc') : pc.Asked rpc' q := by
  cases pc with
  | requested id => exact Rpc.AsksFor.onward h ho
  | settled outcome =>
    cases outcome with
    | answered answer => exact Rpc.AnsweredFor.onward h ho
    | failed => trivial
  | _ => trivial

theorem DrainPc.Asked.onward {pc : DrainPc} (h : pc.Asked rpc) (ho : rpc.Onward rpc') :
    pc.Asked rpc' := by
  cases pc with
  | requested id q rest => exact Rpc.AsksFor.onward h ho
  | settled outcome q rest =>
    cases outcome with
    | answered answer => exact Rpc.AnsweredFor.onward h ho
    | failed => trivial
  | next rest => trivial

/-- A call whose request is answered has the answer to it. -/
theorem ClientCallPc.Asked.settle {pc : ClientCallPc} (h : pc.Asked rpc q) (hw : rpc.Wired)
    {id : ℕ} {r : RpcRequest (Option QueuedCall)}
    (hr : rpc.pending.find? (fun r => r.id = id) = some r) (answer : RpcAnswer Json) :
    (pc.settle id (.answered answer)).Asked (rpc.ingest id answer) q := by
  cases pc with
  | requested i =>
    by_cases hi : i = id
    · subst hi
      rw [ClientCallPc.settle, if_pos rfl]
      exact Rpc.AsksFor.answered h hw hr answer
    · rw [ClientCallPc.settle, if_neg hi]
      exact h.onward (rpc.onward_ingest id answer)
  | _ => exact h.onward (rpc.onward_ingest id answer)

theorem DrainPc.Asked.settle {pc : DrainPc} (h : pc.Asked rpc) (hw : rpc.Wired) {id : ℕ}
    {r : RpcRequest (Option QueuedCall)}
    (hr : rpc.pending.find? (fun r => r.id = id) = some r) (answer : RpcAnswer Json) :
    (pc.settle id (.answered answer)).Asked (rpc.ingest id answer) := by
  cases pc with
  | requested i q rest =>
    by_cases hi : i = id
    · subst hi
      rw [DrainPc.settle, if_pos rfl]
      exact Rpc.AsksFor.answered h hw hr answer
    · rw [DrainPc.settle, if_neg hi]
      exact h.onward (rpc.onward_ingest id answer)
  | _ => exact h.onward (rpc.onward_ingest id answer)

theorem ClientCallPc.Asked.reject {pc : ClientCallPc} (h : pc.Asked rpc q) :
    pc.reject.Asked rpc q := by
  cases pc with
  | requested i => trivial
  | _ => exact h

theorem DrainPc.Asked.reject {pc : DrainPc} (h : pc.Asked rpc) : pc.reject.Asked rpc := by
  cases pc with
  | requested i q rest => trivial
  | _ => exact h

end

namespace Client

variable {s s' : Client} {a : ClientAct}

/-- **How the calls and the drains settle**: by what is logged. -/
structure Settling (s : Client) : Prop where
  wired : s.rpc.Wired
  calls : ∀ k c, s.calls k = some c → c.pc.Asked s.rpc c.call
  drains : ∀ d pc, s.drains d = some pc → pc.Asked s.rpc

namespace Settling

theorem init (autoConnect : Bool) (queue : List QueuedCall) :
    (init autoConnect queue).Settling where
  wired := .init autoConnect
  calls k c hc := absurd hc (by simp [Client.init])
  drains d pc hd := absurd hd (by simp [Client.init])

/-- Only the requests go on, and the rest of what is not about them. -/
theorem onward (h : s.Settling) {t : Client} (hw : t.rpc.Wired) (ho : s.rpc.Onward t.rpc)
    (hcalls : t.calls = s.calls) (hdrains : t.drains = s.drains) : t.Settling where
  wired := hw
  calls k c hc := (h.calls k c (hcalls ▸ hc)).onward ho
  drains d pc hd := (h.drains d pc (hdrains ▸ hd)).onward ho

/-- A call begins, or goes on. -/
theorem setCall (h : s.Settling) {c : ClientCall} (hc : c.pc.Asked s.rpc c.call) :
    (s.setCall c).Settling := by
  refine ⟨h.wired, fun i c' hi => ?_, h.drains⟩
  have hi : update s.calls c.call.number (some c) i = some c' := hi
  by_cases he : i = c.call.number
  · rw [he, Function.update_self] at hi
    exact Option.some.inj hi ▸ hc
  · rw [Function.update_of_ne he] at hi
    exact h.calls i c' hi

/-- A drain begins, or goes on. -/
theorem setDrain (h : s.Settling) {d : ℕ} {pc : DrainPc} (hpc : pc.Asked s.rpc) :
    (s.setDrain d pc).Settling := by
  refine ⟨h.wired, h.calls, fun i pc' hi => ?_⟩
  have hi : update s.drains d (some pc) i = some pc' := hi
  by_cases he : i = d
  · rw [he, Function.update_self] at hi
    exact Option.some.inj hi ▸ hpc
  · rw [Function.update_of_ne he] at hi
    exact h.drains i pc' hi

/-- A `call()` makes its request. -/
theorem request (h : s.Settling) (call : QueuedCall) (accepts : Bool) :
    (s.request call accepts).Settling := by
  have hreq : { s with rpc := s.rpc.request (some call) accepts }.Settling :=
    h.onward (h.wired.request _ _) (s.rpc.onward_request _ _) rfl rfl
  refine hreq.setCall ?_
  dsimp only
  split
  · trivial
  · exact h.wired.asksFor _ accepts

theorem mapPc (h : s.Settling) {f : ClientCallPc → ClientCallPc} {g : DrainPc → DrainPc}
    {rpc : Rpc (Option QueuedCall) Json} (hw : rpc.Wired) (b : Bool)
    (hf : ∀ pc q, pc.Asked s.rpc q → (f pc).Asked rpc q)
    (hg : ∀ pc, pc.Asked s.rpc → (g pc).Asked rpc) :
    ({ s with rpc := rpc, destroyed := b }.mapPc f g).Settling := by
  refine ⟨hw, fun k c' hc' => ?_, fun d pc' hd => ?_⟩
  · obtain ⟨c, hc, rfl⟩ := Option.map_eq_some_iff.mp hc'
    exact hf _ _ (h.calls k c hc)
  · obtain ⟨pc, hpc, rfl⟩ := Option.map_eq_some_iff.mp hd
    exact hg _ (h.drains d pc hpc)

/-- **Every step keeps to it.** -/
theorem step (h : s.Settling) (hs : step s a = some s') : s'.Settling := by
  cases step_some hs with
  | stores =>
    exact (h.onward h.wired (.refl _) rfl rfl :
      { s with nextCall := s.nextCall + 1 }.Settling).setCall trivial
  | calls =>
    exact (h.onward h.wired (.refl _) rfl rfl :
      { s with nextCall := s.nextCall + 1 }.Settling).request _ _
  | @enqueue k call hc =>
    exact (h.onward h.wired (.refl _) rfl rfl :
      { s with offlineQueue := s.offlineQueue ++ [call] }.Settling).setCall trivial
  | proceed hc => exact h.request _ _
  | other => exact h.onward (h.wired.request _ _) (s.rpc.onward_request _ _) rfl rfl
  | opens hrpc => exact h.onward (h.wired.step hrpc) (Rpc.onward_step hrpc) rfl rfl
  | closes hrpc => exact h.onward (h.wired.step hrpc) (Rpc.onward_step hrpc) rfl rfl
  | reconnect hrpc => exact h.onward (h.wired.step hrpc) (Rpc.onward_step hrpc) rfl rfl
  | ingest hr hrpc =>
    exact h.mapPc (h.wired.step hrpc) s.destroyed (fun pc q hpc => hpc.settle h.wired hr _)
      (fun pc hpc => hpc.settle h.wired hr _)
  | ignores => exact h
  | @resume k call outcome hc =>
    refine ⟨h.wired, fun i c hi => ?_, h.drains⟩
    have hi : update s.calls k none i = some c := hi
    by_cases he : i = k
    · rw [he, Function.update_self] at hi
      exact absurd hi (by simp)
    · rw [Function.update_of_ne he] at hi
      exact h.calls i c hi
  | drain _ =>
    exact (h.setDrain trivial : (s.setDrain s.drained (.next s.offlineQueue)).Settling).onward
      h.wired (.refl _) rfl rfl
  | @drainNext d call rest accepts hd =>
    have hreq : { s with rpc := s.rpc.request (some call) accepts }.Settling :=
      h.onward (h.wired.request _ _) (s.rpc.onward_request _ _) rfl rfl
    refine hreq.setDrain ?_
    split
    · trivial
    · exact h.wired.asksFor _ accepts
  | @drained d outcome call rest hd _ =>
    exact (h.onward h.wired (.refl _) rfl rfl :
      (s.remove call.idempotencyKey).Settling).setDrain trivial
  | breaks hd => exact h.setDrain trivial
  | close hrpc =>
    have ho := Rpc.onward_step hrpc
    exact h.mapPc (h.wired.step hrpc) true (fun pc q hpc => (hpc.onward ho).reject)
      (fun pc hpc => (hpc.onward ho).reject)

end Settling

/-- What is concluded stays so. -/
theorem Concluded.onward {q : QueuedCall} (h : s.Concluded q) (ho : s.rpc.Onward s'.rpc) :
    s'.Concluded q := by
  obtain ⟨r, answer, hr, hq, hc⟩ := h
  exact ⟨r, answer, ho.log _ hr, hq, hc⟩

/-- A call with an answer that is conclusive is concluded. -/
theorem concluded_of_answeredFor {call q : QueuedCall} {answer : RpcAnswer Json}
    (h : s.rpc.AnsweredFor (some call) answer) (hq : q.number = call.number)
    (hc : (Outcome.answered answer).conclusive = true) : s.Concluded q := by
  obtain ⟨r, hr, hcall⟩ := h
  exact ⟨r, answer, hr, by rw [hcall, Option.map_some, hq], hc⟩

/-- A request goes on with every step. -/
theorem onward_step (hs : step s a = some s') : s.rpc.Onward s'.rpc := by
  rcases step_rpc hs with hrpc | ⟨b, hrpc, -⟩
  · exact hrpc ▸ .refl _
  · exact Rpc.onward_step hrpc

/-- An entry is left in the queue, or is of the key that is removed. -/
theorem mem_remove_or {q : QueuedCall} (hq : q ∈ s.offlineQueue) (key : String) :
    q ∈ (s.remove key).offlineQueue ∨ q.idempotencyKey = key := by
  by_cases he : q.idempotencyKey = key
  · exact .inr he
  · exact .inl (List.mem_filter.mpr ⟨hq, by simpa using he⟩)

/-- **A step removes nothing** that is not concluded. -/
theorem retains_step (h : s.Settling) (hG : s.removesConcluded a = true)
    (hs : step s a = some s') : s.Retains s' := by
  intro q hq
  cases step_some hs with
  | enqueue _ => exact .inl (List.mem_append_left _ hq)
  | @resume k call outcome hc =>
    refine (mem_remove_or hq call.idempotencyKey).imp id (fun hkey => ?_)
    simp only [removesConcluded, hc, List.all_eq_true] at hG
    have hthis := hG q hq
    rw [hkey, bne_self_eq_false, Bool.false_or, Bool.and_eq_true, beq_iff_eq] at hthis
    cases outcome with
    | answered answer => exact concluded_of_answeredFor (h.calls k _ hc) hthis.1 hthis.2
    | failed => exact absurd hthis.2 (by simp [Outcome.conclusive, Outcome.isPermanentFailure])
  | @drained d outcome call rest hd hconclusive =>
    refine (mem_remove_or hq call.idempotencyKey).imp id (fun hkey => ?_)
    simp only [removesConcluded, hd, hconclusive, Bool.not_true, Bool.false_or,
      List.all_eq_true] at hG
    have hthis := hG q hq
    rw [hkey, bne_self_eq_false, Bool.false_or, beq_iff_eq] at hthis
    cases outcome with
    | answered answer => exact concluded_of_answeredFor (h.drains d _ hd) hthis hconclusive
    | failed =>
      exact absurd hconclusive (by simp [Outcome.conclusive, Outcome.isPermanentFailure])
  | _ => exact .inl hq

/-- What is retained by two stretches is by both. -/
theorem Retains.step (h : s.Retains s') {s'' : Client} (ho : s'.rpc.Onward s''.rpc)
    (h' : s'.Retains s'') : s.Retains s'' := by
  intro q hq
  rcases h q hq with hq | hc
  · exact h' q hq
  · exact .inr (hc.onward ho)

/-- **A mutation that is stored stays stored until it is concluded**, in every run that
removes only what is concluded. -/
theorem mutation_durable (autoConnect : Bool) (queue : List QueuedCall) (as more : List ClientAct)
    {s s' : Client}
    (hG : TransitionSystem.Along Client.step (fun s a => s.removesConcluded a = true)
      (init autoConnect queue) (as ++ more))
    (hrun : TransitionSystem.run Client.step (init autoConnect queue) as = some s)
    (hmore : TransitionSystem.run Client.step s more = some s') : s.Retains s' := by
  have hsettling : s.Settling := TransitionSystem.run_invariant' Client.step (P := Settling)
    (fun _ _ _ h hs => h.step hs) (.init autoConnect queue) hrun
  have hboth : s'.Settling ∧ s.Retains s' := by
    refine TransitionSystem.run_invariant Client.step (P := fun t => t.Settling ∧ s.Retains t)
      (fun t a t' h hG hs => ?_) ⟨hsettling, fun q hq => .inl hq⟩ (hG.of_append _ hrun) hmore
    exact ⟨h.1.step hs, h.2.step (onward_step hs) (retains_step h.1 hG hs)⟩
  exact hboth.2

/-- A call is made before the socket opens, and stored. -/
def storing : List ClientAct := [addItem "k" true, .enqueue 0]

/-- The server has no room for the request that the drain makes, and answers that of the
call itself. -/
def refusedOnce : List ClientAct :=
  [.proceed 0 true, .opens 1 1, .drain, .drainNext 0 true,
    .ingest 2 (.error (some "MailboxFull")), .drainResume 0, .ingest 1 (.result .null), .resume 0]

theorem mutation_durable_refusedOnce :
    ∃ s s', TransitionSystem.run Client.step (init true []) storing = some s
      ∧ TransitionSystem.run Client.step s refusedOnce = some s'
      ∧ s.Retains s' ∧ s'.offlineQueue = [] :=
  ⟨_, _, rfl, rfl, mutation_durable true [] storing refusedOnce (by decide) rfl rfl, rfl⟩

/-- The client is closed before there is an answer, and **the mutation is gone**. -/
theorem not_mutation_durable :
    ¬∀ (autoConnect : Bool) (queue : List QueuedCall) (as more : List ClientAct) (s s' : Client),
      TransitionSystem.run Client.step (init autoConnect queue) as = some s →
      TransitionSystem.run Client.step s more = some s' → s.Retains s' := by
  intro h
  have hretains := h true [] storing [.proceed 0 true, .close, .resume 0] _ _ rfl rfl
  rcases hretains ⟨"k", "Cart", "cart-1", "addItem", .str "A", 0⟩ List.mem_cons_self with hq | hc
  · exact absurd hq List.not_mem_nil
  · -- all there is in the log is the request
    obtain ⟨r, answer, hr, -⟩ := hc
    exact absurd (List.mem_singleton.mp hr) (by simp)

end Client
