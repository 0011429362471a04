import Mathlib.Data.Rat.Floor
import Mathlib.Order.WithBot
import Mathlib.Tactic.Linarith
import Mathlib.Tactic.Ring
import Actjs.Transition

/-!
# The token bucket

Every subject has a bucket of tokens that refills with time up to its capacity. It is
refilled when it is looked at and at no other time: a bucket is what it held when it was
last looked at, and when that was. Now and then the buckets of subjects that have been
idle are thrown away, if they are full: a subject without a bucket gets a full one.

Numbers are rational here. What a bucket would hold at a time is its level, and it is
the level that the bound on the rate is about: it grows with time, an admitted cost is
taken off it, and throwing the bucket away raises it by what the collector forgives.
-/

open Function (update)

/-! ## The code -/

/-- What is held for a subject. -/
structure BucketState where
  tokens : ℚ
  lastRefillMs : ℚ
  deriving DecidableEq

structure TokenBucketConfig where
  capacity : ℚ
  refillPerSec : ℚ

/-- What `try` returns. `retryAfterMs` may be infinite. -/
structure TokenBucketResult where
  ok : Bool
  retryAfterMs : WithTop ℤ
  remaining : ℚ

/-- **A `TokenBucket`**, with what its constructor has checked. -/
structure TokenBucket where
  buckets : String → Option BucketState
  capacity : ℚ
  refillPerMs : ℚ
  idleEvictMs : ℚ
  lastGcAt : ℚ
  capacity_pos : 0 < capacity
  refillPerMs_nonneg : 0 ≤ refillPerMs

namespace TokenBucket

/-- The constructor. -/
def new (config : TokenBucketConfig) (idleEvictMs : Option ℚ) : Except String TokenBucket :=
  if hc : config.capacity ≤ 0 then .error "token bucket capacity must be positive"
  else if hr : config.refillPerSec < 0 then
    .error "token bucket refill rate must be non-negative"
  else
    .ok
      { buckets := fun _ => none
        capacity := config.capacity
        refillPerMs := config.refillPerSec / 1000
        idleEvictMs := idleEvictMs.getD (10 * 60 * 1000)
        lastGcAt := 0
        capacity_pos := not_le.mp hc
        refillPerMs_nonneg := div_nonneg (not_lt.mp hr) (by norm_num) }

/-- The bucket of a subject is replaced. -/
def put (tb : TokenBucket) (subject : String) (state : BucketState) : TokenBucket :=
  { tb with buckets := update tb.buckets subject (some state) }

/-- What `peek` makes of a bucket that is there. -/
def refill (tb : TokenBucket) (state : BucketState) (nowMs : ℚ) : BucketState :=
  let elapsedMs := nowMs - state.lastRefillMs
  { tokens :=
      if 0 < elapsedMs ∧ 0 < tb.refillPerMs then
        min tb.capacity (state.tokens + elapsedMs * tb.refillPerMs)
      else state.tokens
    lastRefillMs := nowMs }

/-- The bucket that `peek` returns. -/
def peeked (tb : TokenBucket) (subject : String) (nowMs : ℚ) : BucketState :=
  match tb.buckets subject with
  | none => ⟨tb.capacity, nowMs⟩
  | some state => tb.refill state nowMs

/-- `peek`. -/
def peek (tb : TokenBucket) (subject : String) (nowMs : ℚ) : BucketState × TokenBucket :=
  (tb.peeked subject nowMs, tb.put subject (tb.peeked subject nowMs))

/-- What a bucket may lack of its capacity and be thrown away as full: `1e-6`. -/
def gcSlack : ℚ := 1 / 1000000

/-- The collector throws a bucket away. -/
def collectable (tb : TokenBucket) (nowMs : ℚ) (state : BucketState) : Bool :=
  decide (tb.idleEvictMs < nowMs - state.lastRefillMs)
    && decide (tb.capacity - gcSlack ≤ state.tokens)

/-- `maybeGc`. -/
def maybeGc (tb : TokenBucket) (nowMs : ℚ) : TokenBucket :=
  if nowMs - tb.lastGcAt < tb.idleEvictMs then tb
  else
    { tb with
      lastGcAt := nowMs
      buckets := fun subject =>
        (tb.buckets subject).filter (fun state => !tb.collectable nowMs state) }

/-- `try`. -/
def tryConsume (tb : TokenBucket) (nowMs : ℚ) (subject : String) (cost : ℚ) :
    TokenBucketResult × TokenBucket :=
  if cost ≤ 0 then (⟨true, 0, tb.capacity⟩, tb)
  else
    let (state, tb) := (tb.maybeGc nowMs).peek subject nowMs
    if cost ≤ state.tokens then
      (⟨true, 0, ⌊state.tokens - cost⌋⟩,
        tb.put subject { state with tokens := state.tokens - cost })
    else
      let deficit := cost - state.tokens
      (⟨false, if 0 < tb.refillPerMs then ↑⌈deficit / tb.refillPerMs⌉ else ⊤,
        ⌊state.tokens⌋⟩, tb)

/-- `remaining`. -/
def remaining (tb : TokenBucket) (nowMs : ℚ) (subject : String) : ℤ × TokenBucket :=
  let (state, tb) := tb.peek subject nowMs
  (⌊state.tokens⌋, tb)

end TokenBucket

/-- A call of a token bucket. -/
inductive TokenCall where
  | tryConsume (subject : String) (cost : ℚ)
  | remaining (subject : String)

/-- The subject that a call is for. -/
def TokenCall.subject : TokenCall → String
  | .tryConsume subject _ | .remaining subject => subject

namespace TokenBucket

/-- The buckets after a call, when the clock shows `nowMs`. -/
def call (tb : TokenBucket) (nowMs : ℚ) : TokenCall → TokenBucket
  | .tryConsume subject cost => (tb.tryConsume nowMs subject cost).2
  | .remaining subject => (tb.remaining nowMs subject).2

/-- The buckets after some calls, each with its time. -/
def run (tb : TokenBucket) (calls : List (ℚ × TokenCall)) : TokenBucket :=
  calls.foldl (fun tb c => tb.call c.1 c.2) tb

/-- One call, as a step that is always enabled. -/
def step (tb : TokenBucket) (tc : ℚ × TokenCall) : Option TokenBucket :=
  some (tb.call tc.1 tc.2)

theorem run_step (tb : TokenBucket) (calls : List (ℚ × TokenCall)) :
    TransitionSystem.run step tb calls = some (tb.run calls) := by
  induction calls generalizing tb with
  | nil => rfl
  | cons tc calls ih => exact ih (tb.call tc.1 tc.2)

/-! ## Levels

The level of a bucket at a time is what a look at that time would find. It
does not depend on when the bucket was looked at. -/

section Levels

variable {tb : TokenBucket} {x : String} {t t' : ℚ}

/-- **What a subject has at a time**: what `peek` would find then. -/
def level (tb : TokenBucket) (x : String) (t : ℚ) : ℚ := (tb.peeked x t).tokens

/-- A subject's bucket holds no more than it can, and has been looked at by the time
`t`. -/
def Fits (tb : TokenBucket) (x : String) (t : ℚ) : Prop :=
  ∀ state, tb.buckets x = some state →
    state.tokens ≤ tb.capacity ∧ state.lastRefillMs ≤ t

theorem Fits.mono (h : tb.Fits x t) (ht : t ≤ t') : tb.Fits x t' :=
  fun state hstate => ⟨(h state hstate).1, (h state hstate).2.trans ht⟩

/-- A bucket is refilled in proportion to the time that has passed, up to its
capacity. -/
theorem refill_tokens (tb : TokenBucket) {state : BucketState}
    (hfull : state.tokens ≤ tb.capacity) (ht : state.lastRefillMs ≤ t) :
    (tb.refill state t).tokens
      = min tb.capacity (state.tokens + (t - state.lastRefillMs) * tb.refillPerMs) := by
  unfold refill
  dsimp only
  split
  · rfl
  · next h =>
    -- no time has passed, or the bucket does not refill
    have h0 : (t - state.lastRefillMs) * tb.refillPerMs = 0 := by
      obtain h | h := not_and_or.mp h
      · rw [le_antisymm (not_lt.mp h) (sub_nonneg.mpr ht), zero_mul]
      · rw [le_antisymm (not_lt.mp h) tb.refillPerMs_nonneg, mul_zero]
    rw [h0, add_zero, min_eq_right hfull]

theorem level_of_none (h : tb.buckets x = none) : tb.level x t = tb.capacity := by
  rw [level, peeked, h]

theorem level_of_some {state : BucketState} (h : tb.buckets x = some state) :
    tb.level x t = (tb.refill state t).tokens := by
  rw [level, peeked, h]

/-- **A level grows with time**, up to the capacity. -/
theorem Fits.level_eq (h : tb.Fits x t) (ht : t ≤ t') :
    tb.level x t' = min tb.capacity (tb.level x t + (t' - t) * tb.refillPerMs) := by
  have hgain : 0 ≤ (t' - t) * tb.refillPerMs :=
    mul_nonneg (sub_nonneg.mpr ht) tb.refillPerMs_nonneg
  cases hb : tb.buckets x with
  | none =>
    rw [level_of_none hb, level_of_none hb, min_eq_left (le_add_of_nonneg_right hgain)]
  | some state =>
    obtain ⟨hfull, hlast⟩ := h state hb
    rw [level_of_some hb, level_of_some hb, tb.refill_tokens hfull hlast,
      tb.refill_tokens hfull (hlast.trans ht), min_add, ← min_assoc,
      min_eq_left (le_add_of_nonneg_right hgain)]
    congr 1
    ring

theorem Fits.level_le (h : tb.Fits x t) : tb.level x t ≤ tb.capacity := by
  rw [h.level_eq le_rfl]
  exact min_le_left _ _

theorem Fits.level_le_add (h : tb.Fits x t) (ht : t ≤ t') :
    tb.level x t' ≤ tb.level x t + (t' - t) * tb.refillPerMs := by
  rw [h.level_eq ht]
  exact min_le_right _ _

end Levels

/-! ## What a call does -/

section Calls

variable {tb : TokenBucket} {x : String} {t t' : ℚ}

@[simp] theorem put_capacity (tb : TokenBucket) (s : String) (state : BucketState) :
    (tb.put s state).capacity = tb.capacity := rfl

@[simp] theorem put_refillPerMs (tb : TokenBucket) (s : String) (state : BucketState) :
    (tb.put s state).refillPerMs = tb.refillPerMs := rfl

@[simp] theorem put_self (tb : TokenBucket) (s : String) (state : BucketState) :
    (tb.put s state).buckets s = some state :=
  Function.update_self ..

theorem put_ne (tb : TokenBucket) {s : String} (state : BucketState) (hx : x ≠ s) :
    (tb.put s state).buckets x = tb.buckets x :=
  Function.update_of_ne hx ..

theorem put_put (tb : TokenBucket) (s : String) (state state' : BucketState) :
    (tb.put s state).put s state' = tb.put s state' := by
  simp [put]

@[simp] theorem maybeGc_capacity (tb : TokenBucket) (t : ℚ) :
    (tb.maybeGc t).capacity = tb.capacity := by
  unfold maybeGc
  split <;> rfl

@[simp] theorem maybeGc_refillPerMs (tb : TokenBucket) (t : ℚ) :
    (tb.maybeGc t).refillPerMs = tb.refillPerMs := by
  unfold maybeGc
  split <;> rfl

theorem peeked_eq (tb : TokenBucket) (x : String) (t : ℚ) :
    tb.peeked x t = ⟨tb.level x t, t⟩ := by
  unfold level peeked
  cases tb.buckets x <;> rfl

/-- The level only depends on the bucket. -/
theorem level_congr {tb tb' : TokenBucket} (hc : tb'.capacity = tb.capacity)
    (hr : tb'.refillPerMs = tb.refillPerMs) (hb : tb'.buckets x = tb.buckets x) (t : ℚ) :
    tb'.level x t = tb.level x t := by
  unfold level peeked
  rw [hb]
  cases tb.buckets x with
  | none => exact hc
  | some state => simp only [refill, hc, hr]

theorem level_put_self (tb : TokenBucket) (x : String) (tokens t : ℚ) :
    (tb.put x ⟨tokens, t⟩).level x t = tokens := by
  rw [level_of_some (put_self ..), refill]
  simp

/-- The collector throws the bucket of this subject away. -/
def collects (tb : TokenBucket) (t : ℚ) (x : String) : Bool :=
  (tb.buckets x).isSome && ((tb.maybeGc t).buckets x).isNone

/-- **What the collector does to a subject's bucket**: nothing, or it throws it away
where it is as good as full. -/
theorem maybeGc_cases (tb : TokenBucket) (t : ℚ) (x : String) :
    (tb.collects t x = false ∧ (tb.maybeGc t).buckets x = tb.buckets x)
      ∨ (tb.collects t x = true ∧ (tb.maybeGc t).buckets x = none
        ∧ ∃ state, tb.buckets x = some state ∧ tb.collectable t state = true) := by
  unfold collects maybeGc
  split
  · cases tb.buckets x <;> simp
  · dsimp only
    cases hb : tb.buckets x with
    | none => simp
    | some state =>
      cases hc : tb.collectable t state <;> simp [hc]

theorem maybeGc_of_not_collects (h : tb.collects t x = false) :
    (tb.maybeGc t).buckets x = tb.buckets x := by
  obtain ⟨-, hb⟩ | ⟨ht, -⟩ := tb.maybeGc_cases t x
  · exact hb
  · exact absurd (h.symm.trans ht) (by decide)

theorem maybeGc_of_collects (h : tb.collects t x = true) : (tb.maybeGc t).buckets x = none := by
  obtain ⟨hf, -⟩ | ⟨-, hb, -⟩ := tb.maybeGc_cases t x
  · exact absurd (hf.symm.trans h) (by decide)
  · exact hb

theorem Fits.maybeGc (h : tb.Fits x t) (t' : ℚ) : (tb.maybeGc t').Fits x t := by
  intro state hstate
  rw [maybeGc_capacity]
  obtain ⟨-, hb⟩ | ⟨-, hb, -⟩ := tb.maybeGc_cases t' x
  · exact h state (hb ▸ hstate)
  · exact absurd (hb ▸ hstate) (by simp)

/-- The level after the collector has been. -/
theorem level_maybeGc (tb : TokenBucket) (t t' : ℚ) (x : String) :
    (tb.maybeGc t').level x t
      = if tb.collects t' x = true then tb.capacity else tb.level x t := by
  split
  · next h => rw [level_of_none (maybeGc_of_collects h), maybeGc_capacity]
  · next h =>
    exact level_congr (maybeGc_capacity ..) (maybeGc_refillPerMs ..)
      (maybeGc_of_not_collects (Bool.not_eq_true _ ▸ h)) t

/-- **Throwing a bucket away forgives little.** -/
theorem Fits.level_maybeGc_le (h : tb.Fits x t) :
    (tb.maybeGc t).level x t
      ≤ tb.level x t + if tb.collects t x = true then gcSlack else 0 := by
  rw [level_maybeGc]
  split
  · next hc =>
    obtain ⟨hf, -⟩ | ⟨-, -, state, hb, hcollectable⟩ := tb.maybeGc_cases t x
    · exact absurd (hf.symm.trans hc) (by decide)
    · obtain ⟨hfull, hlast⟩ := h state hb
      have hlack : tb.capacity - gcSlack ≤ state.tokens :=
        of_decide_eq_true ((Bool.and_eq_true _ _ ▸ hcollectable).2)
      have hgain : 0 ≤ (t - state.lastRefillMs) * tb.refillPerMs :=
        mul_nonneg (sub_nonneg.mpr hlast) tb.refillPerMs_nonneg
      have hlevel : state.tokens ≤ tb.level x t := by
        rw [level_of_some hb, tb.refill_tokens hfull hlast]
        exact le_min hfull (le_add_of_nonneg_right hgain)
      linarith
  · rw [add_zero]

/-- **What `try` does** with a cost: it is admitted if and only if the level allows
it. -/
theorem tryConsume_eq (tb : TokenBucket) (t : ℚ) (x : String) {cost : ℚ} (hcost : 0 < cost) :
    tb.tryConsume t x cost
      = if cost ≤ (tb.maybeGc t).level x t then
          (⟨true, 0, ⌊(tb.maybeGc t).level x t - cost⌋⟩,
            (tb.maybeGc t).put x ⟨(tb.maybeGc t).level x t - cost, t⟩)
        else
          (⟨false,
              if 0 < tb.refillPerMs then
                ↑⌈(cost - (tb.maybeGc t).level x t) / tb.refillPerMs⌉
              else ⊤,
              ⌊(tb.maybeGc t).level x t⌋⟩,
            (tb.maybeGc t).put x ⟨(tb.maybeGc t).level x t, t⟩) := by
  unfold tryConsume
  rw [if_neg (not_le.mpr hcost)]
  simp only [peek, peeked_eq, put_put, put_refillPerMs, maybeGc_refillPerMs]

theorem tryConsume_ok (tb : TokenBucket) (t : ℚ) (x : String) {cost : ℚ} (hcost : 0 < cost) :
    (tb.tryConsume t x cost).1.ok = true ↔ cost ≤ (tb.maybeGc t).level x t := by
  rw [tb.tryConsume_eq t x hcost]
  by_cases h : cost ≤ (tb.maybeGc t).level x t
  · simp [h]
  · simp [h]

theorem tryConsume_snd (tb : TokenBucket) (t : ℚ) (x : String) {cost : ℚ} (hcost : 0 < cost) :
    (tb.tryConsume t x cost).2
      = (tb.maybeGc t).put x ⟨(tb.maybeGc t).level x t
          - if cost ≤ (tb.maybeGc t).level x t then cost else 0, t⟩ := by
  rw [tb.tryConsume_eq t x hcost]
  by_cases h : cost ≤ (tb.maybeGc t).level x t
  · simp [h]
  · simp [h]

theorem tryConsume_of_nonpos (tb : TokenBucket) (t : ℚ) (x : String) {cost : ℚ}
    (hcost : cost ≤ 0) : tb.tryConsume t x cost = (⟨true, 0, tb.capacity⟩, tb) := by
  rw [tryConsume, if_pos hcost]

/-- The cost that a call takes from the bucket of a subject. -/
def admitted (tb : TokenBucket) (t : ℚ) (x : String) : TokenCall → ℚ
  | .tryConsume subject cost =>
    if subject = x ∧ 0 < cost ∧ (tb.tryConsume t subject cost).1.ok = true then cost else 0
  | .remaining _ => 0

/-- A call throws the bucket of a subject away. -/
def discards (tb : TokenBucket) (t : ℚ) (x : String) : TokenCall → Bool
  | .tryConsume _ cost => decide (0 < cost) && tb.collects t x
  | .remaining _ => false

/-- What a subject has when a call has thrown its bucket away, if it does. -/
def kept (tb : TokenBucket) (t : ℚ) (x : String) (c : TokenCall) : ℚ :=
  if tb.discards t x c = true then tb.capacity else tb.level x t

/-- What a subject has when the collector has been. -/
theorem kept_tryConsume (tb : TokenBucket) (t : ℚ) (x s : String) {cost : ℚ} (hcost : 0 < cost) :
    tb.kept t x (.tryConsume s cost) = (tb.maybeGc t).level x t := by
  rw [level_maybeGc, kept, discards]
  simp [hcost]

@[simp] theorem call_capacity (tb : TokenBucket) (t : ℚ) (c : TokenCall) :
    (tb.call t c).capacity = tb.capacity := by
  cases c with
  | remaining s => rfl
  | tryConsume s cost =>
    rw [call]
    by_cases hcost : cost ≤ 0
    · rw [tryConsume_of_nonpos tb t s hcost]
    · rw [tryConsume_snd tb t s (not_le.mp hcost)]
      simp

@[simp] theorem call_refillPerMs (tb : TokenBucket) (t : ℚ) (c : TokenCall) :
    (tb.call t c).refillPerMs = tb.refillPerMs := by
  cases c with
  | remaining s => rfl
  | tryConsume s cost =>
    rw [call]
    by_cases hcost : cost ≤ 0
    · rw [tryConsume_of_nonpos tb t s hcost]
    · rw [tryConsume_snd tb t s (not_le.mp hcost)]
      simp

/-- A bucket that has just been put there. -/
theorem Fits.put {tokens : ℚ} (htokens : tokens ≤ tb.capacity) :
    (tb.put x ⟨tokens, t⟩).Fits x t := by
  intro state hstate
  obtain rfl := Option.some.inj ((put_self ..).symm.trans hstate)
  exact ⟨htokens, le_rfl⟩

theorem Fits.congr {tb tb' : TokenBucket} (h : tb.Fits x t) (hc : tb'.capacity = tb.capacity)
    (hb : tb'.buckets x = tb.buckets x) : tb'.Fits x t :=
  fun state hstate => hc ▸ h state (hb ▸ hstate)

/-- **What a call does to a subject**: its bucket is thrown away or not, and what is
admitted is taken from what it has then. -/
theorem Fits.call (h : tb.Fits x t) (c : TokenCall) :
    (tb.call t c).Fits x t
      ∧ (tb.call t c).level x t = tb.kept t x c - tb.admitted t x c := by
  cases c with
  | remaining s =>
    have hkept : tb.kept t x (.remaining s) = tb.level x t := rfl
    have hadmitted : tb.admitted t x (.remaining s) = 0 := rfl
    rw [hkept, hadmitted, sub_zero, TokenBucket.call, TokenBucket.remaining]
    simp only [peek, peeked_eq]
    by_cases hx : x = s
    · subst hx
      exact ⟨.put h.level_le, level_put_self ..⟩
    · have hb := put_ne tb ⟨tb.level s t, t⟩ hx
      exact ⟨h.congr rfl hb, level_congr (put_capacity ..) (put_refillPerMs ..) hb t⟩
  | tryConsume s cost =>
    by_cases hcost : cost ≤ 0
    · have hkept : tb.kept t x (.tryConsume s cost) = tb.level x t := by
        simp [kept, discards, hcost]
      have hadmitted : tb.admitted t x (.tryConsume s cost) = 0 := by
        simp [admitted, hcost]
      rw [hkept, hadmitted, sub_zero, TokenBucket.call, tryConsume_of_nonpos tb t s hcost]
      exact ⟨h, rfl⟩
    · have hpos := not_le.mp hcost
      have hgc := h.maybeGc t
      rw [tb.kept_tryConsume t x s hpos, TokenBucket.call, tryConsume_snd tb t s hpos]
      by_cases hx : x = s
      · subst hx
        have hadmitted : tb.admitted t x (.tryConsume x cost)
            = if cost ≤ (tb.maybeGc t).level x t then cost else 0 := by
          simp [admitted, hpos, tryConsume_ok tb t x hpos]
        have htaken : 0 ≤ tb.admitted t x (.tryConsume x cost) := by
          rw [hadmitted]
          split
          · exact hpos.le
          · exact le_rfl
        rw [← hadmitted]
        exact ⟨.put ((sub_le_self _ htaken).trans hgc.level_le), level_put_self ..⟩
      · have hadmitted : tb.admitted t x (.tryConsume s cost) = 0 :=
          if_neg (fun h => hx h.1.symm)
        have hb := put_ne (tb.maybeGc t) ⟨(tb.maybeGc t).level s t
          - if cost ≤ (tb.maybeGc t).level s t then cost else 0, t⟩ hx
        rw [hadmitted, sub_zero]
        exact ⟨hgc.congr rfl hb, level_congr (put_capacity ..) (put_refillPerMs ..) hb t⟩

/-- A call leaves a subject's bucket, throws it away or leaves it looked at. -/
theorem call_buckets (tb : TokenBucket) (t : ℚ) (c : TokenCall) (x : String) :
    (tb.call t c).buckets x = tb.buckets x ∨ (tb.call t c).buckets x = none
      ∨ (tb.call t c).buckets x = some ⟨(tb.call t c).level x t, t⟩ := by
  have hput : ∀ (tb : TokenBucket) (s : String) (tokens : ℚ),
      (tb.put s ⟨tokens, t⟩).buckets x = tb.buckets x
        ∨ (tb.put s ⟨tokens, t⟩).buckets x
          = some ⟨(tb.put s ⟨tokens, t⟩).level x t, t⟩ := by
    intro tb s tokens
    by_cases hx : x = s
    · subst hx
      exact .inr (by rw [level_put_self, put_self])
    · exact .inl (put_ne _ _ hx)
  cases c with
  | remaining s =>
    simp only [call, remaining, peek, peeked_eq]
    exact (hput tb s _).imp_right .inr
  | tryConsume s cost =>
    rw [call]
    by_cases hcost : cost ≤ 0
    · rw [tryConsume_of_nonpos tb t s hcost]
      exact .inl rfl
    · rw [tryConsume_snd tb t s (not_le.mp hcost)]
      obtain hb | hb := hput (tb.maybeGc t) s _
      · rw [hb]
        obtain ⟨-, hgc⟩ | ⟨-, hgc, -⟩ := tb.maybeGc_cases t x
        · exact .inl hgc
        · exact .inr (.inl hgc)
      · exact .inr (.inr hb)

/-- No more is admitted than there is. -/
theorem admitted_le_kept (tb : TokenBucket) (t : ℚ) (x : String) (c : TokenCall)
    (h : 0 ≤ tb.kept t x c) : tb.admitted t x c ≤ tb.kept t x c := by
  cases c with
  | remaining s => exact h
  | tryConsume s cost =>
    rw [admitted]
    split
    · next hc =>
      obtain ⟨rfl, hpos, hok⟩ := hc
      rw [tb.kept_tryConsume t s s hpos]
      exact (tryConsume_ok tb t s hpos).mp hok
    · exact h

end Calls

/-! ## The bound on the rate

The level is the potential: it starts at the capacity, grows with time, and
pays for what is admitted; what the collector forgives is added. -/

/-- Every bucket holds what it can, and has been looked at by the time `t`. -/
structure Sound (tb : TokenBucket) (t : ℚ) : Prop where
  fits : ∀ x, tb.Fits x t
  nonneg : ∀ x state, tb.buckets x = some state → 0 ≤ state.tokens

section Rate

variable {tb : TokenBucket} {t t' t₀ t₁ : ℚ} {x : String}

theorem Sound.mono (h : tb.Sound t) (ht : t ≤ t') : tb.Sound t' where
  fits x := (h.fits x).mono ht
  nonneg := h.nonneg

/-- There is never less than nothing. -/
theorem Sound.level_nonneg (h : tb.Sound t) (x : String) : 0 ≤ tb.level x t := by
  cases hb : tb.buckets x with
  | none => rw [level_of_none hb]; exact tb.capacity_pos.le
  | some state =>
    obtain ⟨hfull, hlast⟩ := h.fits x state hb
    rw [level_of_some hb, tb.refill_tokens hfull hlast]
    exact le_min tb.capacity_pos.le (add_nonneg (h.nonneg x state hb)
      (mul_nonneg (sub_nonneg.mpr hlast) tb.refillPerMs_nonneg))

theorem Sound.kept_nonneg (h : tb.Sound t) (x : String) (c : TokenCall) :
    0 ≤ tb.kept t x c := by
  rw [kept]
  split
  · exact tb.capacity_pos.le
  · exact h.level_nonneg x

/-- **A call keeps every bucket within its capacity.** -/
theorem Sound.call (h : tb.Sound t) (c : TokenCall) : (tb.call t c).Sound t where
  fits x := ((h.fits x).call c).1
  nonneg x state hstate := by
    obtain hb | hb | hb := tb.call_buckets t c x
    · exact h.nonneg x state (hb ▸ hstate)
    · exact absurd (hb ▸ hstate) (by simp)
    · obtain rfl := Option.some.inj (hb.symm.trans hstate)
      rw [((h.fits x).call c).2]
      exact sub_nonneg.mpr (admitted_le_kept tb t x c (h.kept_nonneg x c))

/-- **What a call adds to the potential**: what is admitted comes off the level, and only
throwing a bucket away raises it. -/
theorem Fits.admitted_add_level_le (h : tb.Fits x t) (c : TokenCall) :
    tb.admitted t x c + (tb.call t c).level x t
      ≤ tb.level x t + if tb.discards t x c = true then gcSlack else 0 := by
  rw [(h.call c).2, add_sub_cancel, kept]
  cases c with
  | remaining s => simp [discards]
  | tryConsume s cost =>
    have hgc := h.level_maybeGc_le
    rw [level_maybeGc] at hgc
    by_cases hpos : 0 < cost
    · simpa [discards, hpos] using hgc
    · simp [discards, hpos]

/-- What is admitted for a subject of the calls in a window. -/
def admittedIn (x : String) (t₀ t₁ : ℚ) : TokenBucket → List (ℚ × TokenCall) → ℚ
  | _, [] => 0
  | tb, (t, c) :: calls =>
    (if t₀ ≤ t ∧ t ≤ t₁ then tb.admitted t x c else 0)
      + admittedIn x t₀ t₁ (tb.call t c) calls

/-- How often a subject's bucket is thrown away in a window. -/
def discardedIn (x : String) (t₀ t₁ : ℚ) : TokenBucket → List (ℚ × TokenCall) → ℕ
  | _, [] => 0
  | tb, (t, c) :: calls =>
    (if t₀ ≤ t ∧ t ≤ t₁ ∧ tb.discards t x c = true then 1 else 0)
      + discardedIn x t₀ t₁ (tb.call t c) calls

theorem gcSlack_pos : 0 < gcSlack := by norm_num [gcSlack]

/-- After the window nothing counts. -/
theorem admittedIn_of_late {calls : List (ℚ × TokenCall)} (hlate : t₁ < t)
    (hmono : (t :: calls.map Prod.fst).Pairwise (· ≤ ·)) : admittedIn x t₀ t₁ tb calls = 0 := by
  induction calls generalizing tb t with
  | nil => rfl
  | cons c calls ih =>
    obtain ⟨t', c⟩ := c
    obtain ⟨hle, hrest⟩ := List.pairwise_cons.mp hmono
    have hlate' : t₁ < t' := hlate.trans_le (hle t' List.mem_cons_self)
    rw [admittedIn, if_neg (fun h => absurd h.2 (not_le.mpr hlate')), ih hlate' hrest, add_zero]

/-- **Inside the window**: what is still admitted is bounded by what there is now, what
comes until the end of the window, and what the collector forgives. -/
theorem Sound.admittedIn_le {calls : List (ℚ × TokenCall)} (h : tb.Sound t) (h₀ : t₀ ≤ t)
    (h₁ : t ≤ t₁) (hmono : (t :: calls.map Prod.fst).Pairwise (· ≤ ·)) :
    admittedIn x t₀ t₁ tb calls
      ≤ tb.level x t + (t₁ - t) * tb.refillPerMs
        + discardedIn x t₀ t₁ tb calls * gcSlack := by
  have hnonneg : ∀ {tb : TokenBucket} {t : ℚ} (calls : List (ℚ × TokenCall)), tb.Sound t →
      t ≤ t₁ → 0 ≤ tb.level x t + (t₁ - t) * tb.refillPerMs
        + discardedIn x t₀ t₁ tb calls * gcSlack :=
    fun calls h h₁ => add_nonneg (add_nonneg (h.level_nonneg x)
      (mul_nonneg (sub_nonneg.mpr h₁) (refillPerMs_nonneg _)))
      (mul_nonneg (Nat.cast_nonneg _) gcSlack_pos.le)
  induction calls generalizing tb t with
  | nil => exact hnonneg [] h h₁
  | cons tc calls ih =>
    obtain ⟨t', c⟩ := tc
    obtain ⟨hle, hrest⟩ := List.pairwise_cons.mp hmono
    have hle : t ≤ t' := hle t' List.mem_cons_self
    by_cases hend : t' ≤ t₁
    · have hsound := h.mono hle
      have hih := ih (hsound.call c) (h₀.trans hle) hend hrest
      have hstep := (hsound.fits x).admitted_add_level_le c
      have hgrow := (h.fits x).level_le_add hle
      have hcount : (discardedIn x t₀ t₁ tb ((t', c) :: calls) : ℚ) * gcSlack
          = (if tb.discards t' x c = true then gcSlack else 0)
            + discardedIn x t₀ t₁ (tb.call t' c) calls * gcSlack := by
        rw [discardedIn, Nat.cast_add, add_mul]
        by_cases hd : tb.discards t' x c = true
        · simp [hd, h₀.trans hle, hend]
        · simp [hd]
      rw [call_refillPerMs] at hih
      rw [admittedIn, if_pos ⟨h₀.trans hle, hend⟩, hcount]
      linarith
    · have hlate := not_le.mp hend
      rw [admittedIn, if_neg (fun h => hend h.2), zero_add, admittedIn_of_late hlate hrest]
      exact hnonneg _ h h₁

/-- **The bound on what is admitted in a window**, from any state. -/
theorem Sound.admittedIn_le_capacity {calls : List (ℚ × TokenCall)} (h : tb.Sound t)
    (hwindow : t₀ ≤ t₁) (hmono : (t :: calls.map Prod.fst).Pairwise (· ≤ ·)) :
    admittedIn x t₀ t₁ tb calls
      ≤ tb.capacity + tb.refillPerMs * (t₁ - t₀)
        + discardedIn x t₀ t₁ tb calls * gcSlack := by
  have hnonneg : ∀ (tb : TokenBucket) (calls : List (ℚ × TokenCall)),
      0 ≤ tb.capacity + tb.refillPerMs * (t₁ - t₀)
        + discardedIn x t₀ t₁ tb calls * gcSlack :=
    fun tb calls => add_nonneg (add_nonneg tb.capacity_pos.le
      (mul_nonneg tb.refillPerMs_nonneg (sub_nonneg.mpr hwindow)))
      (mul_nonneg (Nat.cast_nonneg _) gcSlack_pos.le)
  induction calls generalizing tb t with
  | nil => exact hnonneg tb []
  | cons tc calls ih =>
    obtain ⟨t', c⟩ := tc
    obtain ⟨hle, hrest⟩ := List.pairwise_cons.mp hmono
    have hsound := h.mono (hle t' List.mem_cons_self)
    by_cases hbegun : t₀ ≤ t'
    · by_cases hend : t' ≤ t₁
      · -- the window has begun: from here on the level is what counts
        have hcons : (t' :: ((t', c) :: calls).map Prod.fst).Pairwise (· ≤ ·) :=
          List.pairwise_cons.mpr ⟨fun u hu => by
            obtain rfl | hu := List.mem_cons.mp hu
            · exact le_rfl
            · exact (List.pairwise_cons.mp hrest).1 u hu, hrest⟩
        have hin := hsound.admittedIn_le (x := x) hbegun hend hcons
        have hlevel := (hsound.fits x).level_le
        have hpart : (t₁ - t') * tb.refillPerMs ≤ tb.refillPerMs * (t₁ - t₀) := by
          rw [mul_comm]
          exact mul_le_mul_of_nonneg_left (by linarith) tb.refillPerMs_nonneg
        linarith
      · rw [admittedIn, if_neg (fun h => hend h.2), zero_add,
          admittedIn_of_late (not_le.mp hend) hrest]
        exact hnonneg tb _
    · have hih := ih (hsound.call c) hrest
      rw [call_capacity, call_refillPerMs] at hih
      rw [admittedIn, if_neg (fun h => hbegun h.1), zero_add, discardedIn,
        if_neg (fun h => hbegun h.1), zero_add]
      exact hih

theorem new_sound {config : TokenBucketConfig} {idleEvictMs : Option ℚ}
    (h : new config idleEvictMs = .ok tb) (t : ℚ) : tb.Sound t := by
  unfold new at h
  split at h
  · exact absurd h (by simp)
  split at h
  · exact absurd h (by simp)
  · obtain rfl := Except.ok.inj h
    exact ⟨fun _ _ hb => absurd hb (by simp), fun _ _ hb => absurd hb (by simp)⟩

/-- Calls keep every bucket within its capacity. -/
theorem Sound.run {calls : List (ℚ × TokenCall)} (h : tb.Sound t)
    (hmono : (t :: calls.map Prod.fst).Pairwise (· ≤ ·)) : ∃ t', (tb.run calls).Sound t' := by
  induction calls generalizing tb t with
  | nil => exact ⟨t, h⟩
  | cons tc calls ih =>
    obtain ⟨u, c⟩ := tc
    obtain ⟨hle, hrest⟩ := List.pairwise_cons.mp hmono
    exact ih ((h.mono (hle u List.mem_cons_self)).call c) hrest

@[simp] theorem run_capacity (tb : TokenBucket) (calls : List (ℚ × TokenCall)) :
    (tb.run calls).capacity = tb.capacity := by
  induction calls generalizing tb with
  | nil => rfl
  | cons tc calls ih => exact (ih (tb.call tc.1 tc.2)).trans (call_capacity ..)

@[simp] theorem run_refillPerMs (tb : TokenBucket) (calls : List (ℚ × TokenCall)) :
    (tb.run calls).refillPerMs = tb.refillPerMs := by
  induction calls generalizing tb with
  | nil => rfl
  | cons tc calls ih => exact (ih (tb.call tc.1 tc.2)).trans (call_refillPerMs ..)

/-- Calls have a time that they begin at. -/
theorem exists_begin {calls : List (ℚ × TokenCall)}
    (hmono : (calls.map Prod.fst).Pairwise (· ≤ ·)) :
    ∃ t, (t :: calls.map Prod.fst).Pairwise (· ≤ ·) := by
  cases calls with
  | nil => exact ⟨0, List.pairwise_singleton _ _⟩
  | cons tc calls =>
    refine ⟨tc.1, List.pairwise_cons.mpr ⟨fun u hu => ?_, hmono⟩⟩
    obtain rfl | hu := List.mem_cons.mp hu
    · exact le_rfl
    · exact (List.pairwise_cons.mp hmono).1 u hu

/-- **The bound on the rate**: in every run of calls at times that do not decrease every
bucket holds between nothing and its capacity, and what is admitted for a subject in any
window of time is no more than the capacity and what comes in that time, and `1e-6` for
each time its bucket is thrown away in it. -/
theorem rate_bounded {config : TokenBucketConfig} {idleEvictMs : Option ℚ}
    (h : new config idleEvictMs = .ok tb) {calls : List (ℚ × TokenCall)}
    (hmono : (calls.map Prod.fst).Pairwise (· ≤ ·)) :
    (∀ y state, (tb.run calls).buckets y = some state →
        0 ≤ state.tokens ∧ state.tokens ≤ tb.capacity)
      ∧ ∀ x t₀ t₁, t₀ ≤ t₁ → admittedIn x t₀ t₁ tb calls
        ≤ tb.capacity + tb.refillPerMs * (t₁ - t₀)
          + discardedIn x t₀ t₁ tb calls * (1 / 1000000) := by
  obtain ⟨t, hbegin⟩ := exists_begin hmono
  have hsound := new_sound h t
  refine ⟨fun y state hstate => ?_, fun x t₀ t₁ hwindow => ?_⟩
  · obtain ⟨t', hrun⟩ := hsound.run hbegin
    exact ⟨hrun.nonneg y state hstate,
      (run_capacity tb calls).symm ▸ (hrun.fits y state hstate).1⟩
  · exact hsound.admittedIn_le_capacity hwindow hbegin

/-- A bucket of two that gets one a millisecond, asked for one three times. -/
theorem rate_bounded_thrice : ∃ tb, new ⟨2, 1000⟩ none = .ok tb
    ∧ admittedIn "a" 0 1 tb
        [(0, .tryConsume "a" 1), (0, .tryConsume "a" 1), (1, .tryConsume "a" 1)]
      ≤ tb.capacity + tb.refillPerMs * (1 - 0)
        + discardedIn "a" 0 1 tb
          [(0, .tryConsume "a" 1), (0, .tryConsume "a" 1), (1, .tryConsume "a" 1)]
          * (1 / 1000000) := by
  obtain ⟨tb, htb⟩ : ∃ tb, new ⟨2, 1000⟩ none = .ok tb := ⟨_, rfl⟩
  exact ⟨tb, htb, (rate_bounded htb (by simp)).2 "a" 0 1 zero_le_one⟩

end Rate

end TokenBucket
