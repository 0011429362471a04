import Actjs.TokenBucket

/-!
# Which idle buckets are thrown away

A pass of the collector is meant to throw the buckets away that nobody has asked for in
a while and that are full again, since a new bucket would be no different. It looks at
what a bucket held when its subject was last there, and does not refill it. So it only
finds those that were as good as full then, and any bucket that has been taken from
stays for good.
-/

namespace TokenBucket

/-- A call lets the collector pass. -/
def passes (tb : TokenBucket) (t : ℚ) : TokenCall → Bool
  | .tryConsume _ cost => decide (0 < cost) && decide (tb.idleEvictMs ≤ t - tb.lastGcAt)
  | .remaining _ => false

/-- **What is to hold after a pass**: no bucket that is idle is full. -/
def PassesClean (tb : TokenBucket) (tc : ℚ × TokenCall) : Prop :=
  tb.passes tc.1 tc.2 = true → ∀ x state, (tb.maybeGc tc.1).buckets x = some state →
    tb.idleEvictMs < tc.1 - state.lastRefillMs → (tb.maybeGc tc.1).level x tc.1 ≠ tb.capacity

/-- **What is idle and full has been left full**, as good as full, when it was last
looked at. -/
def LeftFull (tb : TokenBucket) (tc : ℚ × TokenCall) : Prop :=
  tb.passes tc.1 tc.2 = true → ∀ x state, tb.buckets x = some state →
    tb.idleEvictMs < tc.1 - state.lastRefillMs → tb.level x tc.1 = tb.capacity →
      tb.capacity - gcSlack ≤ state.tokens

/-- What is left after a pass is what was there and is not thrown away. -/
theorem maybeGc_eq_some {tb : TokenBucket} {t : ℚ} (hpass : tb.idleEvictMs ≤ t - tb.lastGcAt)
    {x : String} {state : BucketState} :
    (tb.maybeGc t).buckets x = some state
      ↔ tb.buckets x = some state ∧ tb.collectable t state = false := by
  rw [maybeGc, if_neg (not_lt.mpr hpass)]
  simp [Option.filter_eq_some_iff]

/-- **A pass leaves no idle bucket that is full if and only if those were left full.** -/
theorem passesClean_iff (tb : TokenBucket) (tc : ℚ × TokenCall) :
    tb.PassesClean tc ↔ tb.LeftFull tc := by
  refine imp_congr_right (fun hpass => ?_)
  obtain ⟨t, c⟩ := tc
  have hdue : tb.idleEvictMs ≤ t - tb.lastGcAt := by
    cases c with
    | remaining s => exact absurd hpass Bool.false_ne_true
    | tryConsume s cost => exact of_decide_eq_true ((Bool.and_eq_true _ _ ▸ hpass).2)
  refine forall₂_congr (fun x state => ?_)
  rw [maybeGc_eq_some hdue]
  constructor
  · intro h hb hidle hfull
    by_contra hshort
    have hkeeps : tb.collectable t state = false := by simp [collectable, hshort]
    have hgc := (maybeGc_eq_some hdue).mpr ⟨hb, hkeeps⟩
    refine h ⟨hb, hkeeps⟩ hidle (Eq.trans ?_ hfull)
    exact level_congr (maybeGc_capacity ..) (maybeGc_refillPerMs ..) (hgc.trans hb.symm) t
  · rintro h ⟨hb, hkeeps⟩ hidle hfull
    have hgc := (maybeGc_eq_some hdue).mpr ⟨hb, hkeeps⟩
    have hlevel : (tb.maybeGc t).level x t = tb.level x t :=
      level_congr (maybeGc_capacity ..) (maybeGc_refillPerMs ..) (hgc.trans hb.symm) t
    have hlack := h hb hidle (hlevel.symm.trans hfull)
    simp [collectable, hidle, hlack] at hkeeps

/-- **Idle buckets are collected**: in every run of calls every pass of the collector
leaves no idle bucket that is full if and only if, at every pass, every idle bucket that
is full was left as good as full when its subject was last there. -/
theorem idle_collected (tb : TokenBucket) (calls : List (ℚ × TokenCall)) :
    TransitionSystem.Along step PassesClean tb calls
      ↔ TransitionSystem.Along step LeftFull tb calls :=
  ⟨.mono _ (fun tb tc => (passesClean_iff tb tc).mp),
    .mono _ (fun tb tc => (passesClean_iff tb tc).mpr)⟩

/-- **A bucket that has been taken from stays** for as long as its subject does not come
back, however long that is. -/
theorem run_buckets_of_short {tb : TokenBucket} {x : String} {state : BucketState}
    (hb : tb.buckets x = some state) (hshort : state.tokens < tb.capacity - gcSlack)
    {calls : List (ℚ × TokenCall)} (hother : ∀ tc ∈ calls, tc.2.subject ≠ x) :
    (tb.run calls).buckets x = some state := by
  induction calls generalizing tb with
  | nil => exact hb
  | cons tc calls ih =>
    obtain ⟨t, c⟩ := tc
    have hx := hother _ List.mem_cons_self
    refine ih ?_ ((call_capacity tb t c).symm ▸ hshort)
      (fun tc htc => hother tc (List.mem_cons_of_mem _ htc))
    cases c with
    | remaining s => exact (put_ne tb _ (Ne.symm hx)).trans hb
    | tryConsume s cost =>
      have hx : x ≠ s := Ne.symm hx
      change (tb.tryConsume t s cost).2.buckets x = some state
      by_cases hcost : cost ≤ 0
      · rw [tryConsume_of_nonpos tb t s hcost]
        exact hb
      · rw [tryConsume_snd tb t s (not_le.mp hcost), put_ne _ _ hx]
        obtain ⟨-, hgc⟩ | ⟨-, -, state', hb', hc⟩ := tb.maybeGc_cases t x
        · exact hgc.trans hb
        · obtain rfl := Option.some.inj (hb.symm.trans hb')
          exact absurd (of_decide_eq_true ((Bool.and_eq_true _ _ ▸ hc).2)) (not_le.mpr hshort)

/-- Of a bucket of one that gets one a millisecond and is idle after ten, one is taken;
twenty milliseconds later another subject comes. The first bucket is idle and full, and
stays. -/
theorem not_idle_collected : ∃ tb, new ⟨1, 1000⟩ (some 10) = .ok tb
    ∧ ¬TransitionSystem.Along step PassesClean tb
        [(0, .tryConsume "a" 1), (20, .tryConsume "b" 1)] := by
  obtain ⟨tb, htb⟩ : ∃ tb, new ⟨1, 1000⟩ (some 10) = .ok tb := ⟨_, rfl⟩
  refine ⟨tb, htb, fun h => ?_⟩
  obtain rfl := Except.ok.inj htb
  have hleft := (passesClean_iff _ _).mp h.2.1 (by decide +kernel) "a" ⟨0, 0⟩
    (by decide +kernel) (by decide +kernel) (by decide +kernel)
  exact absurd hleft (by decide +kernel)

end TokenBucket
