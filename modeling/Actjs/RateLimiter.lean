import Actjs.Capability
import Actjs.TokenBucket

/-!
# The rate limiter, and when to try again

A call that is denied is told when to try again: the time the bucket needs for what is
missing, rounded up to a millisecond, and by the limiter to a second. Until then the
bucket is short of the cost, and from then on it is not, as long as nothing else is
taken from it. The one thing that makes it come sooner is the collector, since a bucket
that it throws away is replaced by a full one.
-/

open TransitionSystem (Along)

namespace TokenBucket

/-! ## When nothing is taken

Between the denial and the retry the level only grows, so the time until it
covers the cost is known at the denial. -/

section Quiet

variable {tb : TokenBucket} {x : String} {t t' cost : ℚ} {calls : List (ℚ × TokenCall)}

/-- A call takes nothing from the bucket of a subject. -/
def TakesNone (x : String) (tb : TokenBucket) (tc : ℚ × TokenCall) : Prop :=
  tb.admitted tc.1 x tc.2 = 0

/-- A call does not throw the bucket of a subject away. -/
def Keeps (x : String) (tb : TokenBucket) (tc : ℚ × TokenCall) : Prop :=
  tb.discards tc.1 x tc.2 = false

/-- **While nothing is taken** a level goes on growing as it would have, unless the
bucket is thrown away, and then it is full. -/
theorem Fits.level_run (h : tb.Fits x t)
    (hmono : (t :: (calls.map Prod.fst ++ [t'])).Pairwise (· ≤ ·))
    (hquiet : Along step (TakesNone x) tb calls) :
    (tb.run calls).Fits x t'
      ∧ ((tb.run calls).level x t' = tb.level x t'
        ∨ (tb.run calls).level x t' = tb.capacity)
      ∧ (Along step (Keeps x) tb calls → (tb.run calls).level x t' = tb.level x t') := by
  induction calls generalizing tb t with
  | nil =>
    have hle : t ≤ t' := (List.pairwise_cons.mp hmono).1 t' (List.mem_singleton_self _)
    exact ⟨h.mono hle, .inl rfl, fun _ => rfl⟩
  | cons tc calls ih =>
    obtain ⟨u, c⟩ := tc
    obtain ⟨hle, hrest⟩ := List.pairwise_cons.mp hmono
    have hu : u ≤ t' := (List.pairwise_cons.mp hrest).1 t' (by simp)
    have hat := h.mono (hle u List.mem_cons_self)
    obtain ⟨hfits, hlevel⟩ := hat.call c
    rw [show tb.admitted u x c = 0 from hquiet.1, sub_zero] at hlevel
    obtain ⟨hrun, hor, hkeeps⟩ := ih hfits hrest hquiet.2
    rw [call_capacity] at hor
    have hlater : (tb.call u c).level x t'
        = min tb.capacity (tb.kept u x c + (t' - u) * tb.refillPerMs) := by
      rw [hfits.level_eq hu, hlevel, call_capacity, call_refillPerMs]
    by_cases hd : tb.discards u x c = true
    · -- a new bucket is full, and stays so
      have hfull : (tb.call u c).level x t' = tb.capacity := by
        rw [hlater, kept, if_pos hd]
        exact min_eq_left (le_add_of_nonneg_right
          (mul_nonneg (sub_nonneg.mpr hu) tb.refillPerMs_nonneg))
      exact ⟨hrun, .inr (hor.elim (fun h => h.trans hfull) id),
        fun hk => absurd (hk.1.symm.trans hd) (by decide)⟩
    · have hsame : (tb.call u c).level x t' = tb.level x t' := by
        rw [hlater, kept, if_neg hd, ← hat.level_eq hu]
      exact ⟨hrun, hor.imp_left (fun h => h.trans hsame), fun hk => (hkeeps hk.2).trans hsame⟩

/-- What a denied call leaves. -/
theorem fits_of_denied (hcost : 0 < cost) (hcap : cost ≤ tb.capacity)
    (hdenied : (tb.tryConsume t x cost).1.ok = false) :
    (tb.tryConsume t x cost).2.Fits x t
      ∧ (tb.tryConsume t x cost).2.level x t = (tb.maybeGc t).level x t
      ∧ (tb.maybeGc t).level x t < cost := by
  have hshort : ¬cost ≤ (tb.maybeGc t).level x t := by
    rw [← tb.tryConsume_ok t x hcost, hdenied]
    decide
  rw [tryConsume_snd tb t x hcost, if_neg hshort, sub_zero]
  refine ⟨.put ?_, level_put_self .., not_le.mp hshort⟩
  rw [maybeGc_capacity]
  exact (not_le.mp hshort).le.trans hcap

/-- **A denied call can be told when to try again**: after `w` milliseconds, if nothing
else is taken, the cost is admitted, and it is denied at every whole millisecond before
that unless the bucket has been thrown away. -/
def RetryExact (tb : TokenBucket) (t : ℚ) (x : String) (cost : ℚ) : Prop :=
  ∃ w : ℤ, (tb.tryConsume t x cost).1.retryAfterMs = w
    ∧ ∀ (calls : List (ℚ × TokenCall)) (t' : ℚ),
      (t :: (calls.map Prod.fst ++ [t'])).Pairwise (· ≤ ·) →
      Along step (TakesNone x) (tb.tryConsume t x cost).2 calls →
        (t + w ≤ t' →
          (((tb.tryConsume t x cost).2.run calls).tryConsume t' x cost).1.ok = true)
        ∧ ((∃ k : ℕ, (k : ℤ) < w ∧ t' = t + k) →
            Along step (Keeps x) (tb.tryConsume t x cost).2
              (calls ++ [(t', .tryConsume x cost)]) →
            (((tb.tryConsume t x cost).2.run calls).tryConsume t' x cost).1.ok = false)

/-- **`retryAfterMs` is exact.** -/
theorem retryExact (hr : 0 < tb.refillPerMs) (hcost : 0 < cost) (hcap : cost ≤ tb.capacity)
    (hdenied : (tb.tryConsume t x cost).1.ok = false) : tb.RetryExact t x cost := by
  obtain ⟨hfits, hleft, hshort⟩ := fits_of_denied hcost hcap hdenied
  let after := (tb.tryConsume t x cost).2
  have hcapacity : after.capacity = tb.capacity := call_capacity tb t (.tryConsume x cost)
  have hrefill : after.refillPerMs = tb.refillPerMs :=
    call_refillPerMs tb t (.tryConsume x cost)
  let deficit := cost - (tb.maybeGc t).level x t
  refine ⟨⌈deficit / tb.refillPerMs⌉, ?_, fun calls t' hmono hquiet => ?_⟩
  · rw [tb.tryConsume_eq t x hcost, if_neg (not_le.mpr hshort), if_pos hr]
  have hle : t ≤ t' := (List.pairwise_cons.mp hmono).1 t' (by simp)
  obtain ⟨-, hor, hkeeps⟩ := hfits.level_run hmono hquiet
  have hlevel : after.level x t'
      = min tb.capacity ((tb.maybeGc t).level x t + (t' - t) * tb.refillPerMs) := by
    rw [hfits.level_eq hle, hleft, hcapacity, hrefill]
  refine ⟨fun hlate => ?_, fun ⟨k, hk, heq⟩ hkept => ?_⟩
  · -- what is missing has come, or the bucket is a new one
    have henough : cost ≤ after.level x t' := by
      have hw : deficit ≤ (t' - t) * tb.refillPerMs :=
        (div_le_iff₀ hr).mp ((Int.le_ceil _).trans (by linarith))
      rw [hlevel]
      exact le_min hcap (by linarith)
    rw [tryConsume_ok _ _ _ hcost, level_maybeGc, run_capacity, hcapacity]
    split
    · exact hcap
    · exact hor.elim (fun h => h ▸ henough) (fun h => by rw [h, hcapacity]; exact hcap)
  · have hlack : after.level x t' < cost := by
      have hw : (k : ℚ) * tb.refillPerMs < deficit := (lt_div_iff₀ hr).mp (Int.lt_ceil.mp hk)
      rw [hlevel, heq, add_sub_cancel_left]
      exact (min_le_right _ _).trans_lt (by linarith)
    have hgc : (after.run calls).collects t' x = false := by
      have hlast := (Along.of_append step hkept (run_step _ _)).1
      simpa [Keeps, discards, hcost] using hlast
    rw [← Bool.not_eq_true, tryConsume_ok _ _ _ hcost, level_maybeGc, hgc,
      if_neg Bool.false_ne_true, hkeeps (Along.left step hkept)]
    exact not_le.mpr hlack

end Quiet

end TokenBucket

/-! ## The limiter -/

/-- `subjectOf`. -/
def subjectOf : Option Principal → String
  | none => "anonymous"
  | some principal => principal.sub

/-- The principal that no limit is applied to. -/
def exempt : Option Principal → Bool
  | none => false
  | some principal => isSystem principal

structure RateLimiterConfig where
  default : TokenBucketConfig
  /-- The entries of `perRole`. -/
  perRole : List (String × TokenBucketConfig)
  operation : Option String

/-- What `check` returns. Its numbers may be infinite. -/
structure RateLimitCheckResult where
  ok : Bool
  retryAfterSeconds : WithTop ℤ
  remaining : WithTop ℚ
  bucket : String

/-- What `enforce` throws. -/
structure RateLimitedError where
  message : String
  subject : String
  operation : String
  retryAfterSeconds : WithTop ℤ

/-- **A `RateLimiter`.** -/
structure RateLimiter where
  defaultBucket : TokenBucket
  roleBuckets : String → Option TokenBucket
  operation : String

namespace RateLimiter

/-- The buckets of the roles. -/
def newRoles : List (String × TokenBucketConfig) → (String → Option TokenBucket) →
    Except String (String → Option TokenBucket)
  | [], roles => .ok roles
  | (role, config) :: rest, roles =>
    match TokenBucket.new config none with
    | .error e => .error e
    | .ok bucket => newRoles rest (Function.update roles role (some bucket))

/-- The constructor. -/
def new (config : RateLimiterConfig) : Except String RateLimiter :=
  match TokenBucket.new config.default none with
  | .error e => .error e
  | .ok bucket =>
    match newRoles config.perRole (fun _ => none) with
    | .error e => .error e
    | .ok roles => .ok ⟨bucket, roles, config.operation.getD "actor.call"⟩

/-- The role whose bucket is a principal's: the first of its roles that has one. -/
def roleFor (rl : RateLimiter) (principal : Option Principal) : Option String :=
  ((principal.bind Principal.roles).getD []).find? (fun role => (rl.roleBuckets role).isSome)

/-- `bucketFor`. -/
def bucketFor (rl : RateLimiter) (principal : Option Principal) : TokenBucket :=
  match rl.roleFor principal with
  | none => rl.defaultBucket
  | some role => (rl.roleBuckets role).getD rl.defaultBucket

/-- The bucket of a principal after a call of it. -/
def setBucketFor (rl : RateLimiter) (principal : Option Principal) (bucket : TokenBucket) :
    RateLimiter :=
  match rl.roleFor principal with
  | none => { rl with defaultBucket := bucket }
  | some role =>
    { rl with roleBuckets := Function.update rl.roleBuckets role (some bucket) }

/-- `check`. -/
def check (rl : RateLimiter) (nowMs : ℚ) (principal : Option Principal) (cost : ℚ) :
    RateLimitCheckResult × RateLimiter :=
  if exempt principal = true then (⟨true, 0, ⊤, ""⟩, rl)
  else
    let subject := subjectOf principal
    let (result, bucket) := (rl.bucketFor principal).tryConsume nowMs subject cost
    (⟨result.ok, max 1 (result.retryAfterMs.map (fun (ms : ℤ) => ⌈(ms : ℚ) / 1000⌉)),
      ↑result.remaining, subject⟩, rl.setBucketFor principal bucket)

/-- A number of seconds as it is written. -/
def written : WithTop ℤ → String
  | ⊤ => "Infinity"
  | (n : ℤ) => toString n

/-- `enforce`. -/
def enforce (rl : RateLimiter) (nowMs : ℚ) (principal : Option Principal) (cost : ℚ) :
    Except RateLimitedError Unit × RateLimiter :=
  let (result, rl) := rl.check nowMs principal cost
  if result.ok = true then (.ok (), rl)
  else
    (.error
      { message := "rate limit exceeded for " ++ result.bucket ++ "; retry after "
          ++ written result.retryAfterSeconds ++ "s"
        subject := result.bucket
        operation := rl.operation
        retryAfterSeconds := result.retryAfterSeconds }, rl)

/-- The limiter after some calls, each with its time, its principal and its cost. -/
def run (rl : RateLimiter) (calls : List (ℚ × Option Principal × ℚ)) : RateLimiter :=
  calls.foldl (fun rl c => (rl.enforce c.1 c.2.1 c.2.2).2) rl

/-- What a call of the limiter is for the bucket of a principal, if it is a call of that
bucket. -/
def callOn (rl : RateLimiter) (principal : Option Principal)
    (c : ℚ × Option Principal × ℚ) : Option (ℚ × TokenCall) :=
  if exempt c.2.1 = false ∧ rl.roleFor c.2.1 = rl.roleFor principal then
    some (c.1, .tryConsume (subjectOf c.2.1) c.2.2)
  else none

/-! ### What a call does -/

variable {rl : RateLimiter} {t t' cost : ℚ} {p q : Option Principal}

theorem isSome_of_roleFor {role : String} (h : rl.roleFor p = some role) :
    (rl.roleBuckets role).isSome = true := by
  rw [roleFor] at h
  exact List.find?_some (p := fun role => (rl.roleBuckets role).isSome) h

/-- Which roles have buckets does not change. -/
@[simp] theorem roleFor_setBucketFor (rl : RateLimiter) (q p : Option Principal)
    (bucket : TokenBucket) : (rl.setBucketFor q bucket).roleFor p = rl.roleFor p := by
  unfold setBucketFor
  cases hq : rl.roleFor q with
  | none => rfl
  | some role =>
    have hhas := isSome_of_roleFor hq
    unfold roleFor
    dsimp only
    congr 1
    funext role'
    by_cases hr : role' = role
    · subst hr
      simp [hhas]
    · simp [Function.update_of_ne hr]

/-- A principal with the same role has the same bucket, and any other another one. -/
theorem bucketFor_setBucketFor (rl : RateLimiter) (q p : Option Principal)
    (bucket : TokenBucket) :
    (rl.setBucketFor q bucket).bucketFor p
      = if rl.roleFor q = rl.roleFor p then bucket else rl.bucketFor p := by
  unfold bucketFor
  rw [roleFor_setBucketFor]
  unfold setBucketFor
  cases hq : rl.roleFor q with
  | none =>
    cases hp : rl.roleFor p with
    | none => rfl
    | some role =>
      obtain ⟨b, hb⟩ := Option.isSome_iff_exists.mp (isSome_of_roleFor hp)
      simp [hb]
  | some role =>
    cases hp : rl.roleFor p with
    | none => simp
    | some role' =>
      by_cases hr : role' = role
      · subst hr
        simp
      · simp [Function.update_of_ne hr, Ne.symm hr]

/-- What `enforce` leaves is what `check` leaves, -/
theorem enforce_snd (rl : RateLimiter) (t : ℚ) (p : Option Principal) (cost : ℚ) :
    (rl.enforce t p cost).2 = (rl.check t p cost).2 := by
  unfold enforce
  dsimp only
  split <;> rfl

/-- and which roles have buckets is not changed by it. -/
theorem roleFor_enforce (rl : RateLimiter) (t : ℚ) (q : Option Principal) (cost : ℚ)
    (p : Option Principal) : (rl.enforce t q cost).2.roleFor p = rl.roleFor p := by
  rw [enforce_snd, check]
  split
  · rfl
  · exact roleFor_setBucketFor ..

/-- **A call of the limiter is a call of the bucket** of those with the same role, and
none of the others. -/
theorem bucketFor_enforce (rl : RateLimiter) (c : ℚ × Option Principal × ℚ)
    (p : Option Principal) :
    (rl.enforce c.1 c.2.1 c.2.2).2.bucketFor p
      = (rl.bucketFor p).run (rl.callOn p c).toList := by
  obtain ⟨t, q, cost⟩ := c
  rw [enforce_snd, check, callOn]
  dsimp only
  by_cases hq : exempt q = true
  · rw [if_pos hq, if_neg (by simp [hq])]
    rfl
  · rw [if_neg hq]
    dsimp only
    rw [bucketFor_setBucketFor]
    by_cases hrole : rl.roleFor q = rl.roleFor p
    · rw [if_pos hrole, if_pos ⟨Bool.not_eq_true _ ▸ hq, hrole⟩]
      have hsame : rl.bucketFor q = rl.bucketFor p := by rw [bucketFor, hrole, bucketFor]
      rw [hsame]
      rfl
    · rw [if_neg hrole, if_neg (fun h => hrole h.2)]
      rfl

/-- The calls of the bucket of a principal in a run. -/
theorem bucketFor_run (rl : RateLimiter) (calls : List (ℚ × Option Principal × ℚ))
    (p : Option Principal) :
    (rl.run calls).bucketFor p = (rl.bucketFor p).run (calls.filterMap (rl.callOn p))
      ∧ (rl.run calls).roleFor p = rl.roleFor p := by
  induction calls generalizing rl with
  | nil => exact ⟨rfl, rfl⟩
  | cons c calls ih =>
    obtain ⟨hbucket, hrole⟩ := ih (rl.enforce c.1 c.2.1 c.2.2).2
    have hcalls : (rl.enforce c.1 c.2.1 c.2.2).2.callOn p = rl.callOn p := by
      funext c'
      rw [callOn, roleFor_enforce, roleFor_enforce, callOn]
    refine ⟨?_, hrole.trans (roleFor_enforce ..)⟩
    refine hbucket.trans ?_
    rw [hcalls, bucketFor_enforce, List.filterMap_cons]
    cases rl.callOn p c <;> rfl

/-- What `enforce` makes of a call of the bucket. -/
theorem enforce_fst (rl : RateLimiter) (t : ℚ) {p : Option Principal} (cost : ℚ)
    (hp : exempt p = false) :
    ((rl.enforce t p cost).1 = .ok ()
        ↔ ((rl.bucketFor p).tryConsume t (subjectOf p) cost).1.ok = true)
      ∧ ∀ e, (rl.enforce t p cost).1 = .error e → e.retryAfterSeconds
        = max 1 (((rl.bucketFor p).tryConsume t (subjectOf p) cost).1.retryAfterMs.map
            (fun (ms : ℤ) => ⌈(ms : ℚ) / 1000⌉)) := by
  unfold enforce check
  rw [if_neg (by rw [hp]; decide)]
  dsimp only
  cases hok : ((rl.bucketFor p).tryConsume t (subjectOf p) cost).1.ok with
  | true => exact ⟨iff_of_true rfl rfl, fun e he => absurd he (by simp)⟩
  | false =>
    refine ⟨iff_of_false (by simp) (by decide), fun e he => ?_⟩
    obtain rfl := Except.error.inj he
    rfl

/-- **A principal that is told to wait does not wait in vain**: the call is admitted
`s` seconds later, or later still, if nothing else is taken from its bucket for it. -/
def RetryEnough (rl : RateLimiter) (t : ℚ) (p : Option Principal) (cost : ℚ)
    (seconds : WithTop ℤ) : Prop :=
  ∃ s : ℤ, seconds = s ∧ ∀ (calls : List (ℚ × Option Principal × ℚ)) (t' : ℚ),
    (t :: (calls.map Prod.fst ++ [t'])).Pairwise (· ≤ ·) →
    Along TokenBucket.step (TokenBucket.TakesNone (subjectOf p))
      ((rl.enforce t p cost).2.bucketFor p) (calls.filterMap (rl.callOn p)) →
    t + 1000 * s ≤ t' → (((rl.enforce t p cost).2.run calls).enforce t' p cost).1 = .ok ()

/-- The calls of one bucket are some of the calls of the limiter. -/
theorem sublist_callOn (rl : RateLimiter) (calls : List (ℚ × Option Principal × ℚ))
    (p : Option Principal) :
    ((calls.filterMap (rl.callOn p)).map Prod.fst).Sublist (calls.map Prod.fst) := by
  induction calls with
  | nil => exact List.Sublist.refl _
  | cons c calls ih =>
    rw [List.filterMap_cons, callOn]
    split
    · next hc => exact ih.cons _
    · next hc =>
      split at hc
      · obtain rfl := Option.some.inj hc
        exact ih.cons_cons _
      · exact absurd hc (by simp)

/-- **`retryAfterSeconds` is long enough.** -/
theorem retryEnough (hr : 0 < (rl.bucketFor p).refillPerMs) (hcost : 0 < cost)
    (hcap : cost ≤ (rl.bucketFor p).capacity) {e : RateLimitedError}
    (he : (rl.enforce t p cost).1 = .error e) :
    rl.RetryEnough t p cost e.retryAfterSeconds := by
  have hp : exempt p = false := by
    by_contra hp
    rw [enforce, check, if_pos (Bool.not_eq_false _ ▸ hp)] at he
    exact absurd he (by simp)
  obtain ⟨hok, hseconds⟩ := enforce_fst rl t cost hp
  have hdenied : ((rl.bucketFor p).tryConsume t (subjectOf p) cost).1.ok = false := by
    rw [← Bool.not_eq_true, ← hok, he]
    simp
  obtain ⟨w, hw, hretry⟩ := TokenBucket.retryExact hr hcost hcap hdenied
  have hafter : (rl.enforce t p cost).2.bucketFor p
      = ((rl.bucketFor p).tryConsume t (subjectOf p) cost).2 := by
    have hbucket := bucketFor_enforce rl (t, p, cost) p
    rw [callOn, if_pos ⟨hp, rfl⟩] at hbucket
    exact hbucket
  refine ⟨max 1 ⌈(w : ℚ) / 1000⌉, ?_, fun calls t' hmono hquiet hlate => ?_⟩
  · rw [hseconds e he, hw, WithTop.map_coe]
    exact (WithTop.coe_max ..).symm
  · have hcalls : (rl.enforce t p cost).2.callOn p = rl.callOn p := by
      funext c
      rw [callOn, roleFor_enforce, roleFor_enforce, callOn]
    have hrun := (bucketFor_run (rl.enforce t p cost).2 calls p).1
    rw [hcalls, hafter] at hrun
    rw [hafter] at hquiet
    rw [(enforce_fst _ t' cost hp).1, hrun]
    refine (hretry _ t' (hmono.sublist ?_) hquiet).1 ?_
    · exact ((sublist_callOn rl calls p).append (List.Sublist.refl _)).cons_cons _
    · -- the seconds are no less than the milliseconds
      have hceil : (w : ℚ) / 1000 ≤ ((max 1 ⌈(w : ℚ) / 1000⌉ : ℤ) : ℚ) :=
        (Int.le_ceil _).trans (Int.cast_le.mpr (le_max_right _ _))
      linarith

end RateLimiter

/-- **`Retry-After` is exact**: a call that is denied is told the milliseconds after
which, and before which not, it is admitted, if nothing else is taken and the bucket is
not thrown away; and what the limiter makes of it in seconds is never too short. -/
theorem retry_after :
    (∀ (tb : TokenBucket) (t : ℚ) (x : String) (cost : ℚ), 0 < tb.refillPerMs → 0 < cost →
        cost ≤ tb.capacity → (tb.tryConsume t x cost).1.ok = false → tb.RetryExact t x cost)
      ∧ ∀ (rl : RateLimiter) (t : ℚ) (p : Option Principal) (cost : ℚ) (e : RateLimitedError),
        0 < (rl.bucketFor p).refillPerMs → 0 < cost → cost ≤ (rl.bucketFor p).capacity →
        (rl.enforce t p cost).1 = .error e → rl.RetryEnough t p cost e.retryAfterSeconds :=
  ⟨fun _ _ _ _ hr hcost hcap hdenied => TokenBucket.retryExact hr hcost hcap hdenied,
    fun _ _ _ _ _ hr hcost hcap he => RateLimiter.retryEnough hr hcost hcap he⟩

/-- A bucket of one is asked for one twice at once: the second call is denied, and told to
wait a millisecond. A limiter with that bucket tells it to wait a second. -/
theorem retry_after_twice :
    (∃ tb, TokenBucket.new ⟨1, 1000⟩ none = .ok tb
      ∧ ((tb.call 0 (.tryConsume "a" 1)).tryConsume 0 "a" 1).1.ok = false
      ∧ ((tb.call 0 (.tryConsume "a" 1)).tryConsume 0 "a" 1).1.retryAfterMs = (1 : ℤ)
      ∧ (tb.call 0 (.tryConsume "a" 1)).RetryExact 0 "a" 1)
    ∧ ∃ rl e, RateLimiter.new ⟨⟨1, 1000⟩, [], none⟩ = .ok rl
      ∧ ((rl.enforce 0 none 1).2.enforce 0 none 1).1 = .error e
      ∧ e.retryAfterSeconds = (1 : ℤ)
      ∧ (rl.enforce 0 none 1).2.RetryEnough 0 none 1 e.retryAfterSeconds := by
  obtain ⟨tb, htb⟩ : ∃ tb, TokenBucket.new ⟨1, 1000⟩ none = .ok tb := ⟨_, rfl⟩
  obtain ⟨rl, hrl⟩ : ∃ rl, RateLimiter.new ⟨⟨1, 1000⟩, [], none⟩ = .ok rl := ⟨_, rfl⟩
  refine ⟨⟨tb, htb, ?_⟩, rl, ?_⟩
  · obtain rfl := Except.ok.inj htb
    exact ⟨by decide +kernel, by decide +kernel, retry_after.1 _ 0 "a" 1 (by decide +kernel)
      (by decide +kernel) (by decide +kernel) (by decide +kernel)⟩
  · obtain rfl := Except.ok.inj hrl
    cases hsecond : (RateLimiter.enforce _ 0 none 1).1 with
    | ok u => exact absurd (RateLimiter.enforce_fst _ 0 1 rfl |>.1.1 hsecond) (by decide +kernel)
    | error e =>
      refine ⟨e, rfl, rfl, ?_, retry_after.2 _ 0 none 1 e (by decide +kernel)
        (by decide +kernel) (by decide +kernel) hsecond⟩
      exact ((RateLimiter.enforce_fst _ 0 1 rfl).2 e hsecond).trans (by decide +kernel)
