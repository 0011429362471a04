import Actjs.Subscribers

/-!
# Optimistic updates

`optimistic` writes what it predicts into the state of the subscription's record,
which is the state the patches of the server are applied to. When its call is
rejected, it applies the inverse patches to what the state has become; when the call
succeeds, it leaves the prediction where it is.

To roll back all that is outstanding, the newest prediction first, is to come to the
state of the server, as long as what else is done to the state is independent of the
predictions that it is done on top of. immer and the patches are parameters.
-/

variable {S Op V M I : Type}

/-- What `optimistic` uses of immer. -/
structure Immer (V M I : Type) where
  /-- The next state, and the inverse patches. -/
  produceWithPatches : V → M → V × I
  /-- `none` where it throws. -/
  applyPatches : V → I → Option V

/-- The inverse patches lead back. -/
def Immer.Lawful (immer : Immer V M I) : Prop :=
  ∀ v m, immer.applyPatches (immer.produceWithPatches v m).1 (immer.produceWithPatches v m).2
    = some v

/-- A call of `optimistic` that has not settled. -/
structure Prediction (I : Type) where
  number : ℕ
  inverse : I

/-- **The record of a subscription**, with the predictions written into it. -/
structure Optimistic (S I : Type) where
  record : SubscriptionRecord S
  /-- The newest first. -/
  outstanding : List (Prediction I)
  /-- How many predictions there have been. -/
  made : ℕ
  /-- The record, had there been no predictions. -/
  server : SubscriptionRecord S

/-- **What can happen to the record next.** -/
inductive OptimisticAct (S Op M : Type) where
  | predict (m : M)
  /-- The call of the prediction succeeds. -/
  | confirm (i : ℕ)
  /-- It is rejected. -/
  | reject (i : ℕ)
  | notify (n : Notification S Op)

/-- What the server notifies of a state-with-messages actor. -/
def Notification.ofState : Notification S Op → Bool
  | snapshot _ _ => true
  | patch _ => true
  | event _ _ => false
  | tombstone => false

/-! ## Rolling back

`rollback` takes back all outstanding predictions, the newest first. The
invariant is that this always leads to the state of the server, whatever was
written on top. -/

/-- The inverse patches are applied to what the state has become. Where they no longer
apply, it stays as it is. -/
def Immer.rollback (immer : Immer V M I) (v : V) (p : Prediction I) : V :=
  (immer.applyPatches v p.inverse).getD v

/-- **The update is independent of the predictions** that it is made on top of: each
of them is rolled back after it as before it. -/
def Immer.Independent (immer : Immer V M I) (u : V → V) : V → List (Prediction I) → Prop
  | _, [] => True
  | v, p :: ps =>
    immer.rollback (u v) p = u (immer.rollback v p)
      ∧ immer.Independent u (immer.rollback v p) ps

namespace Immer

variable {immer : Immer V M I} {u : V → V} {v : V} {ps : List (Prediction I)}

/-- It may as well be made below them. -/
theorem Independent.foldl (h : immer.Independent u v ps) :
    ps.foldl immer.rollback (u v) = u (ps.foldl immer.rollback v) := by
  induction ps generalizing v with
  | nil => rfl
  | cons p ps ih =>
    rw [List.foldl_cons, List.foldl_cons, h.1]
    exact ih h.2

theorem Lawful.rollback (h : immer.Lawful) (v : V) (m : M) (i : ℕ) :
    immer.rollback (immer.produceWithPatches v m).1 ⟨i, (immer.produceWithPatches v m).2⟩
      = v := by
  unfold Immer.rollback
  rw [h v m, Option.getD_some]

end Immer

namespace Optimistic

/-- The record that `preRegister` makes. -/
def init : Optimistic S I := ⟨.new, [], 0, .new⟩

/-- The state of the record is set. -/
def setState (s : Optimistic S I) (x : Option S) : Optimistic S I :=
  { s with record := { s.record with state := x } }

/-- The call of the prediction has settled. -/
def settle (s : Optimistic S I) (i : ℕ) : Optimistic S I :=
  { s with outstanding := s.outstanding.filter (fun p => p.number ≠ i) }

def step (immer : Immer (Option S) M I) (applyOp : S → Op → S) (s : Optimistic S I) :
    OptimisticAct S Op M → Option (Optimistic S I)
  | .predict m =>
    let (nextState, inverse) := immer.produceWithPatches s.record.state m
    some { s.setState nextState with
      outstanding := ⟨s.made, inverse⟩ :: s.outstanding
      made := s.made + 1 }
  | .confirm i =>
    if (s.outstanding.find? (fun p => p.number = i)).isSome = true then some (s.settle i)
    else none
  | .reject i =>
    match s.outstanding.find? (fun p => p.number = i) with
    | none => none
    | some p => some ((s.setState (immer.rollback s.record.state p)).settle i)
  | .notify n =>
    if n.ofState = true then
      some { s with record := s.record.apply applyOp n, server := s.server.apply applyOp n }
    else none

/-- What the server has notified of. -/
def told : List (OptimisticAct S Op M) → List (Notification S Op)
  | [] => []
  | .notify n :: as => n :: told as
  | _ :: as => told as

/-- The predictions made since there were so many. -/
def since (n : ℕ) (s : Optimistic S I) : List (Prediction I) :=
  s.outstanding.filter (fun p => n ≤ p.number)

/-- **Predictions are taken back without a trace**, from the `n`-th on: none of them is
confirmed; one that is rejected is independent of the newer ones, and what is notified
of is of all of them. The earlier ones have no effect when they are rejected. -/
def Tidy (immer : Immer (Option S) M I) (applyOp : S → Op → S) (n : ℕ) (s : Optimistic S I) :
    OptimisticAct S Op M → Prop
  | .predict _ => True
  | .confirm i => i < n
  | .reject i => ∀ p ∈ s.outstanding, p.number = i →
    if i < n then immer.rollback s.record.state p = s.record.state
    else immer.Independent (fun x => immer.rollback x p) s.record.state (s.since (i + 1))
  | .notify note => immer.Independent
    (fun x => (SubscriptionRecord.apply applyOp ⟨x, false⟩ note).state) s.record.state (s.since n)

variable {immer : Immer (Option S) M I} {applyOp : S → Op → S} {s s' : Optimistic S I}
  {a : OptimisticAct S Op M} {as bs : List (OptimisticAct S Op M)} {n : ℕ}

/-- **What a step does.** -/
inductive Steps (immer : Immer (Option S) M I) (applyOp : S → Op → S) (s : Optimistic S I) :
    OptimisticAct S Op M → Optimistic S I → Prop
  | predict (m : M) : Steps immer applyOp s (.predict m)
      { s.setState (immer.produceWithPatches s.record.state m).1 with
        outstanding :=
          ⟨s.made, (immer.produceWithPatches s.record.state m).2⟩ :: s.outstanding
        made := s.made + 1 }
  | confirm {p : Prediction I} : p ∈ s.outstanding →
      Steps immer applyOp s (.confirm p.number) (s.settle p.number)
  | reject {p : Prediction I} : p ∈ s.outstanding →
      Steps immer applyOp s (.reject p.number)
        ((s.setState (immer.rollback s.record.state p)).settle p.number)
  | notify {note : Notification S Op} : note.ofState = true →
      Steps immer applyOp s (.notify note)
        { s with record := s.record.apply applyOp note, server := s.server.apply applyOp note }

theorem step_some (h : step immer applyOp s a = some s') : Steps immer applyOp s a s' := by
  cases a with
  | predict m => exact Option.some.inj h ▸ .predict m
  | confirm i =>
    simp only [step] at h
    split at h
    · next hi =>
      obtain ⟨p, hp⟩ := Option.isSome_iff_exists.mp hi
      obtain rfl : p.number = i := by simpa using List.find?_some hp
      exact Option.some.inj h ▸ .confirm (List.mem_of_find?_eq_some hp)
    · exact absurd h (by simp)
  | reject i =>
    simp only [step] at h
    split at h
    · exact absurd h (by simp)
    · next p hp =>
      obtain rfl : p.number = i := by simpa using List.find?_some hp
      exact Option.some.inj h ▸ .reject (List.mem_of_find?_eq_some hp)
  | notify note =>
    simp only [step] at h
    split at h
    · next hn => exact Option.some.inj h ▸ .notify hn
    · exact absurd h (by simp)

/-- The predictions are in the order they were made in, the newest first. -/
structure Ordered (s : Optimistic S I) : Prop where
  sorted : s.outstanding.Pairwise (fun p q => q.number < p.number)
  below : ∀ p ∈ s.outstanding, p.number < s.made

theorem Ordered.step (h : s.Ordered) (hs : step immer applyOp s a = some s') : s'.Ordered := by
  cases step_some hs with
  | predict m =>
    refine ⟨List.pairwise_cons.mpr ⟨h.below, h.sorted⟩, fun p hp => ?_⟩
    show p.number < s.made + 1
    rcases List.mem_cons.mp hp with rfl | hp
    · exact Nat.lt_succ_self _
    · exact Nat.lt_succ_of_lt (h.below p hp)
  | confirm _ => exact ⟨h.sorted.filter _, fun p hp => h.below p (List.mem_of_mem_filter hp)⟩
  | reject _ => exact ⟨h.sorted.filter _, fun p hp => h.below p (List.mem_of_mem_filter hp)⟩
  | notify _ => exact ⟨h.sorted, h.below⟩

/-- Where a prediction is among the later ones. -/
theorem Ordered.since_eq (h : s.Ordered) {p : Prediction I} (hp : p ∈ s.outstanding)
    (hn : n ≤ p.number) : ∃ older, s.since n = s.since (p.number + 1) ++ p :: older
      ∧ (s.settle p.number).since n = s.since (p.number + 1) ++ older := by
  obtain ⟨l₁, l₂, hl⟩ := List.append_of_mem hp
  have hsorted := h.sorted
  rw [hl, List.pairwise_append, List.pairwise_cons] at hsorted
  obtain ⟨-, ⟨hlt, -⟩, hgt⟩ := hsorted
  have hnewer : ∀ q ∈ l₁, p.number < q.number := fun q hq => hgt q hq p List.mem_cons_self
  have h₁ : ∀ m, m ≤ p.number + 1 → l₁.filter (fun q => m ≤ q.number) = l₁ := fun m hm =>
    List.filter_eq_self.mpr (fun q hq => decide_eq_true (by have := hnewer q hq; omega))
  have h₂ : l₂.filter (fun q => p.number + 1 ≤ q.number) = [] :=
    List.filter_eq_nil_iff.mpr (fun q hq => by simpa using Nat.lt_succ_of_lt (hlt q hq))
  refine ⟨l₂.filter (fun q => n ≤ q.number), ?_, ?_⟩
  · rw [since, since, hl, List.filter_append, List.filter_append, List.filter_cons_of_pos,
      List.filter_cons_of_neg, h₁ _ (by omega), h₁ _ le_rfl, h₂, List.append_nil]
    · simp
    · simpa using hn
  · have hk₁ : l₁.filter (fun q => q.number ≠ p.number) = l₁ :=
      List.filter_eq_self.mpr (fun q hq => decide_eq_true (by have := hnewer q hq; omega))
    have hk₂ : l₂.filter (fun q => q.number ≠ p.number) = l₂ :=
      List.filter_eq_self.mpr (fun q hq => decide_eq_true (by have := hlt q hq; omega))
    have hsettle : (s.settle p.number).outstanding = l₁ ++ l₂ := by
      show s.outstanding.filter (fun q => q.number ≠ p.number) = l₁ ++ l₂
      rw [hl, List.filter_append, List.filter_cons_of_neg (by simp), hk₁, hk₂]
    rw [since, since, hsettle, hl, List.filter_append, List.filter_append,
      List.filter_cons_of_neg, h₁ _ (by omega), h₁ _ le_rfl, h₂, List.append_nil]
    simp

/-- An earlier prediction is not among them. -/
theorem since_settle {i : ℕ} (hi : i < n) : (s.settle i).since n = s.since n := by
  show (s.outstanding.filter (fun p => p.number ≠ i)).filter (fun p => n ≤ p.number) = _
  rw [List.filter_filter]
  refine List.filter_congr (fun p _ => ?_)
  by_cases hn : n ≤ p.number
  · have hne : p.number ≠ i := by omega
    simp [hn, hne]
  · simp [hn]

/-- **To roll back the later predictions is to come to the state of the server.** -/
structure Undone (immer : Immer (Option S) M I) (n : ℕ) (s : Optimistic S I) : Prop where
  ordered : s.Ordered
  record : s.record.tombstoned = false
  server : s.server.tombstoned = false
  made : n ≤ s.made
  undone : (s.since n).foldl immer.rollback s.record.state = s.server.state

/-- A notification that is of the state leaves the record there. -/
theorem apply_ofState (applyOp : S → Op → S) {note : Notification S Op} (hn : note.ofState = true)
    {r : SubscriptionRecord S} (hr : r.tombstoned = false) :
    (r.apply applyOp note).tombstoned = false ∧ (r.apply applyOp note).state
      = (SubscriptionRecord.apply applyOp ⟨r.state, false⟩ note).state := by
  obtain ⟨x, t⟩ := r
  obtain rfl : t = false := hr
  cases note with
  | snapshot _ _ => exact ⟨rfl, rfl⟩
  | patch _ => exact ⟨rfl, rfl⟩
  | event _ _ => exact absurd hn (by simp [Notification.ofState])
  | tombstone => exact absurd hn (by simp [Notification.ofState])

/-- **Every step that takes its prediction back without a trace keeps to it.** -/
theorem Undone.step (hl : immer.Lawful) (h : s.Undone immer n) (hG : s.Tidy immer applyOp n a)
    (hs : step immer applyOp s a = some s') : s'.Undone immer n := by
  have hordered := h.ordered.step hs
  cases step_some hs with
  | predict m =>
    refine ⟨hordered, h.record, h.server, Nat.le_succ_of_le h.made, ?_⟩
    have hsince : List.filter (fun p : Prediction I => n ≤ p.number)
        (⟨s.made, (immer.produceWithPatches s.record.state m).2⟩ :: s.outstanding)
        = ⟨s.made, (immer.produceWithPatches s.record.state m).2⟩ :: s.since n :=
      List.filter_cons_of_pos (by simpa using h.made)
    show (List.filter _ (_ :: s.outstanding)).foldl immer.rollback
      (immer.produceWithPatches s.record.state m).1 = s.server.state
    rw [hsince, List.foldl_cons, hl.rollback]
    exact h.undone
  | @confirm p _ =>
    refine ⟨hordered, h.record, h.server, h.made, ?_⟩
    rw [since_settle hG]
    exact h.undone
  | @reject p hp =>
    refine ⟨hordered, h.record, h.server, h.made, ?_⟩
    have hG := hG p hp rfl
    show ((s.settle p.number).since n).foldl immer.rollback (immer.rollback s.record.state p)
      = s.server.state
    split at hG
    · next hlt =>
      rw [since_settle hlt, hG]
      exact h.undone
    · next hge =>
      obtain ⟨older, hsince, hsettled⟩ := h.ordered.since_eq hp (Nat.le_of_not_lt hge)
      have hundone := h.undone
      rw [hsince, List.foldl_append, List.foldl_cons] at hundone
      rw [hsettled, List.foldl_append, hG.foldl]
      exact hundone
  | @notify note hn =>
    obtain ⟨hrecord, hstate⟩ := apply_ofState applyOp hn h.record
    obtain ⟨hserver, hstate'⟩ := apply_ofState applyOp hn h.server
    refine ⟨hordered, hrecord, hserver, h.made, ?_⟩
    show (s.since n).foldl immer.rollback (s.record.apply applyOp note).state
      = (s.server.apply applyOp note).state
    rw [hstate, hstate', hG.foldl, h.undone]

end Optimistic

/-! ### A cart -/

/-- Items, and a total that the server works out. -/
structure Cart where
  items : List String
  total : ℕ
deriving DecidableEq

inductive CartOp where
  | addItem (item : String)
  | replaceTotal (total : ℕ)

namespace Cart

def apply (cart : Cart) : CartOp → Cart
  | .addItem item => { cart with items := cart.items ++ [item] }
  | .replaceTotal total => { cart with total := total }

end Cart

namespace Optimistic

end Optimistic
