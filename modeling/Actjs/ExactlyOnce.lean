import Actjs.LogRecovery

/-!
# Tells are applied exactly once across crashes

What is wanted of tells is one sentence for both kinds of actors: once the next host has
dealt with what it found pending, the state is what the tells that had resolved make of the
state an actor starts with, each once, in inbox order. This module puts the two halves
together, the one over snapshots (`Observed.Recovers`) and the one over the log
(`Lives.Retold`), and says when the sentence is true, `Observed.keepsTells`.

## Why it is not always true

Neither kind of actor makes the effect of a tell durable in one step with the ack of its
entry, and they take the two steps in opposite orders.

* A state-with-messages actor acks first. Its state is marked dirty, and is written when the
  debounce timer fires: a crash in between loses a tell that had resolved, and that is not
  replayed.
* An event-sourced actor appends its events first, and a crash before the ack applies the
  tell a second time.

A turn that mutates the state in place, and awaits, adds a third way: what the driver reads
in the meantime is half of a tell that will be replayed.
-/

open Function (update)

variable {S Env Op : Type}

namespace Observed

variable [DecidableEq S] {cfg : HostConfig S Env Op} {env : Env} {o : Observed S Env Op}

/-- **When each tell is applied once**, for the kind of actor that the class is of. -/
def keepsTells (cfg : HostConfig S Env Op) (o : Observed S Env Op) (x : Fate Env) : Bool :=
  if cfg.registration.ctor.isEs = true then o.lives.retells x && o.lives.unmade x
  else o.recovers x

/-- What holds along the lives that are observed holds along the lives. -/
theorem along_lives {G : Lives S Env Op → Fate Env → Prop} {xs : List (Fate Env)}
    (h : TransitionSystem.Along (step cfg) (fun o x => G o.lives x) o xs) :
    TransitionSystem.Along (Lives.step cfg) G o.lives xs := by
  induction xs generalizing o with
  | nil => trivial
  | cons x xs ih =>
    refine ⟨h.1, ?_⟩
    cases hs : o.lives.step cfg x with
    | none => trivial
    | some l' =>
      have hstep : step cfg o x = some (o.next l' x) := by
        unfold step
        rw [hs]
        rfl
      have hnext : (o.next l' x).lives = l' := by cases x <;> rfl
      exact hnext ▸ ih (TransitionSystem.along_cons (step cfg) h hstep).2

omit [DecidableEq S] in
/-- Events that are ahead of the state are those of a turn in progress. -/
theorem not_ahead_of_inTurn {h : Host S Env} (ht : h.inTurn = false) : h.ahead = false := by
  unfold Host.inTurn at ht
  unfold Host.ahead
  cases hp : h.workerPromise with
  | none => rfl
  | some g =>
    rw [hp] at ht
    have hb : (h.workers g).busy = false := ht
    show (h.workers g).ahead = false
    cases hpc : h.workers g with
    | appended item events seq =>
      rw [hpc] at hb
      exact absurd hb (by simp [WorkerPc.busy])
    | acking item id after =>
      rw [hpc] at hb
      exact absurd hb (by simp [WorkerPc.busy])
    | _ => rfl

end Observed

/-- **Tells are applied exactly once across crashes.**

In all lives of an actor whose handlers always do the same, which nobody calls and whose
storage does not fail, wherever the crashes come as long as `Observed.keepsTells` holds of
them: in every state reached in which the host is between two turns, and has dealt with all
that its activation found pending. -/
theorem tells_exactly_once [DecidableEq S] (cfg : HostConfig S Env Op) (env : Env)
    (hcls : cfg.registration.ctor.Steady) {xs : List (Fate Env)} {o : Observed S Env Op}
    (hu : ∀ x ∈ xs, x.undisturbed = true)
    (hG : TransitionSystem.Along (Observed.step cfg) (fun o x => o.keepsTells cfg x = true)
      (.init cfg) xs)
    (hs : TransitionSystem.run (Observed.step cfg) (.init cfg) xs = some o)
    (ha : o.lives.sys.host.activated = true) (ht : o.lives.sys.host.inTurn = false)
    (hr : ∀ id ∈ o.lives.sys.hist.replayable, id ∈ o.lives.sys.store.acked) :
    ∃ ids, AppliedOnce cfg.registration.ctor env o.lives ids := by
  refine ⟨o.lives.sys.flow.applied o.lives.dropped, ?_⟩
  cases hes : cfg.registration.ctor.isEs with
  | false =>
    refine Observed.Recovers.appliedOnce hcls hes hu (hG.mono _ (fun o x h => ?_)) hs ha ht hr
    simpa only [Observed.keepsTells, hes, Bool.false_eq_true, if_false] using h
  | true =>
    have hlives : TransitionSystem.run (Lives.step cfg) (.init cfg) xs = some o.lives := by
      have hmap := Observed.run_lives cfg xs (.init cfg)
      rw [hs] at hmap
      exact hmap.symm
    refine Lives.Retold.appliedOnce hcls hes hu ?_ hlives ha
      (Observed.not_ahead_of_inTurn ht) hr
    refine Observed.along_lives (o := .init cfg)
      (G := fun l x => (l.retells x && l.unmade x) = true) (hG.mono _ (fun o x h => ?_))
    simpa only [Observed.keepsTells, hes, if_true] using h

/-! ### A counter -/

namespace Counting

/-- A counter that counts one, or two with an await in between. -/
def cls : ActorClass ℕ Unit where
  isEs := false
  blank := 0
  initialState := 0
  reduce := fun n _ => .ok n
  migrateEvent := none
  handlers := fun name =>
    if name = "inc" then some (fun _ n _ => .ret (.mutate (n + 1)) .null)
    else if name = "twice" then
      some (fun _ n _ => .await (.mutate (n + 1)) (.ret (.mutate (n + 2)) .null))
    else none
  onInit := none
  onActivate := none
  onDeactivate := none
  migrate := none
  snapshot := none

/-- A host of the counter. -/
def cfg : HostConfig ℕ Unit Unit where
  id := "counting-1"
  registration :=
    { name := "Counting"
      version := "1.0.0"
      ctor := cls
      mailboxCapacity_pos := defaultMailboxCapacity_pos }
  loader := none
  gt := fun _ _ => false
  compare := fun _ _ => []

theorem steady : cfg.registration.ctor.Steady where
  same name handler h env env' x input := rfl
  returns name handler h env x input := by
    change (if name = "inc" then _ else _) = some handler at h
    split at h
    · obtain rfl := Option.some.inj h
      exact ⟨_, rfl⟩
    · split at h
      · obtain rfl := Option.some.inj h
        exact ⟨_, rfl⟩
      · exact absurd h (by simp)
  onInit _ h := absurd h (by simp [cfg, cls])
  onActivate _ h := absurd h (by simp [cfg, cls])
  onDeactivate _ h := absurd h (by simp [cfg, cls])
  snapshot _ h := absurd h (by simp [cfg, cls])
  evented h := absurd h (by simp [cfg, cls])
  events h := absurd h (by simp [cfg, cls])

/-- An activation, in `n` segments. -/
def activating (n : ℕ) : List (Fate Unit) :=
  .act .activate :: List.replicate n (.act (.activation () true))

/-- `n` segments of worker `g`. -/
def working (g n : ℕ) : List (Fate Unit) := List.replicate n (.act (.worker g () true))

/-- The `tell()` number `t`, up to its append. -/
def appending (t : ℕ) (type : String) : List (Fate Unit) :=
  [.act (.tellStart t type .null), .act (.tellLand t true)]

/-- A tell that is handled, and has resolved. -/
def told : List (Fate Unit) :=
  activating 7 ++ appending 0 "inc" ++ [.act (.tellResume 0)] ++ working 1 5

/-- Then its snapshot is written, a crash comes while another tell is in flight, and the
next host replays that. -/
def recovered : List (Fate Unit) :=
  told ++ [.act .snapshotFire, .act (.save 0 true), .act (.save 0 true)]
    ++ appending 1 "twice" ++ [.crash] ++ activating 6 ++ working 1 6

/-- A crash comes before its snapshot is written. -/
def lost : List (Fate Unit) := told ++ [.crash] ++ activating 7

end Counting

/-- The theorem applies to that run: what was told before the crash is there, and so is what
was in flight, once. It applies to a ledger as well, with a deposit that is acked at the
crash, and one that was in flight. -/
theorem tells_exactly_once_recovered :
    (∃ o, TransitionSystem.run (Observed.step Counting.cfg) (.init Counting.cfg)
        Counting.recovered = some o
      ∧ o.lives.sys.host.state = 3
      ∧ ∃ ids, AppliedOnce Counting.cls () o.lives ids)
    ∧ ∃ o, TransitionSystem.run (Observed.step (Ledger.cfg Ledger.byAmount))
        (.init (Ledger.cfg Ledger.byAmount))
        (Ledger.restarted (Ledger.turned 6 ++ Ledger.tellDeposit 1)) = some o
      ∧ o.lives.sys.host.state = 2
      ∧ ∃ ids, AppliedOnce (Ledger.cls Ledger.byAmount) () o.lives ids := by
  have hcount : (TransitionSystem.run (Observed.step Counting.cfg) (.init Counting.cfg)
      Counting.recovered).any (fun o => o.lives.sys.host.activated
        && !o.lives.sys.host.inTurn
        && o.lives.sys.hist.replayable.all (fun id => o.lives.sys.store.acked.contains id)
        && o.lives.sys.host.state == 3) = true := by decide
  have hledger : (TransitionSystem.run (Observed.step (Ledger.cfg Ledger.byAmount))
      (.init (Ledger.cfg Ledger.byAmount))
      (Ledger.restarted (Ledger.turned 6 ++ Ledger.tellDeposit 1))).any (fun o =>
        o.lives.sys.host.activated && !o.lives.sys.host.inTurn
          && o.lives.sys.hist.replayable.all (fun id => o.lives.sys.store.acked.contains id)
          && o.lives.sys.host.state == 2) = true := by decide
  obtain ⟨o, ho, hr⟩ := (Option.any_eq_true _ _).mp hcount
  obtain ⟨o', ho', hr'⟩ := (Option.any_eq_true _ _).mp hledger
  simp only [Bool.and_eq_true, Bool.not_eq_true', beq_iff_eq, List.all_eq_true,
    List.contains_iff_mem] at hr hr'
  exact ⟨⟨o, ho, hr.2, tells_exactly_once _ () Counting.steady (by decide) (by decide) ho
      hr.1.1.1 hr.1.1.2 hr.1.2⟩,
    ⟨o', ho', hr'.2, tells_exactly_once _ () Ledger.steady (by decide) (by decide) ho'
      hr'.1.1.1 hr'.1.1.2 hr'.1.2⟩⟩

/-- **A tell that had resolved is lost** in a crash before its snapshot is written: it is
acked, and not replayed. -/
theorem not_tells_exactly_once :
    ¬∀ (xs : List (Fate Unit)) (l : Lives ℕ Unit Unit),
      (∀ x ∈ xs, x.undisturbed = true) →
      TransitionSystem.run (Lives.step Counting.cfg) (.init Counting.cfg) xs = some l →
      l.sys.host.activated = true → l.sys.host.inTurn = false →
      (∀ id ∈ l.sys.hist.replayable, id ∈ l.sys.store.acked) →
      ∃ ids, AppliedOnce Counting.cls () l ids := by
  intro h
  have hrun : (TransitionSystem.run (Lives.step Counting.cfg) (.init Counting.cfg)
      Counting.lost).any (fun l => l.sys.host.activated && !l.sys.host.inTurn
        && l.sys.hist.replayable.isEmpty && l.sys.host.state == 0) = true := by decide
  obtain ⟨l, hl, hr⟩ := (Option.any_eq_true _ _).mp hrun
  simp only [Bool.and_eq_true, Bool.not_eq_true', beq_iff_eq, List.isEmpty_iff] at hr
  obtain ⟨⟨⟨ha, ht⟩, hrep⟩, hx⟩ := hr
  -- what the host before has left
  have hleft : (TransitionSystem.run (Lives.step Counting.cfg) (.init Counting.cfg)
      Counting.lost).map (fun l => (l.sys.store.inbox, l.crashed.map (fun c =>
        (c.host.tells 0, c.host.metrics.tellsDropped))))
      = some ([⟨"inc", .null⟩], [(some ⟨"inc", .null, .resolved 0⟩, [])]) := rfl
  rw [hl] at hleft
  obtain ⟨hinbox, hcrashed⟩ := Prod.mk.inj (Option.some.inj hleft)
  obtain ⟨c, hc, hcrashed⟩ := List.map_eq_singleton_iff.mp hcrashed
  obtain ⟨htell, hdropped⟩ := Prod.mk.inj hcrashed
  obtain ⟨ids, hids⟩ := h _ l (by decide) hl ha ht (by rw [hrep]; simp)
  have hmem := hids.resolved c (by rw [hc]; simp) 0 _ 0 htell rfl (by rw [hdropped]; simp)
  -- the only entry there is has been applied
  have hone : ids = [0] := by
    have hsorted : ids.Pairwise (· < ·) :=
      (hids.sorted.and hids.once).imp (fun h => lt_of_le_of_ne h.1 h.2)
    refine hsorted.eq_of_mem_iff (List.pairwise_singleton _ _) (fun id => ?_)
    rw [List.mem_singleton]
    refine ⟨fun hid => ?_, fun he => he ▸ hmem⟩
    have := hids.entries id hid
    rw [hinbox, List.length_singleton] at this
    omega
  have hstate := hids.state
  rw [hx, hinbox, hone] at hstate
  exact absurd hstate (by decide)
