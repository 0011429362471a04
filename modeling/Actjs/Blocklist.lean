import Actjs.AuthSoundness
import Actjs.OrderedMap
import Actjs.Transition

/-!
# Revoked capability tokens

A token is revoked by its id, until it would have expired anyway: the blocklist keeps
the time an id is revoked until, and forgets an id when it finds that time past. A
cache in front of a blocklist remembers for a while what it has been told of an id.

An id has one time. So a second revocation replaces the first, and where it is for a
shorter time the token is good again before it expires. That is the one way in which a
revocation wears off: as long as every revocation of the id that the blocklist heeds is
until the token's expiry, the token is not accepted, and through a cache it is not
accepted as soon as the cache has asked again.

A call is one step, with one reading of the clock.
-/

open Function (update)

/-! ## The blocklist -/

/-- **A `MemoryBlocklist`**: the time until which an id is revoked. -/
structure MemoryBlocklist where
  entries : OrderedMap String ℤ

/-- A call of a blocklist. -/
inductive BlocklistCall where
  | isRevoked (jti : String)
  | revoke (jti : String) (expiresAtMs : ℤ)
  | unrevoke (jti : String)
  | size

namespace MemoryBlocklist

/-- The constructor. -/
def new : MemoryBlocklist := ⟨.empty⟩

/-- `isRevoked`. -/
def isRevoked (bl : MemoryBlocklist) (nowMs : ℤ) (jti : String) : Bool × MemoryBlocklist :=
  match bl.entries.get jti with
  | none => (false, bl)
  | some exp => if exp ≤ nowMs then (false, ⟨bl.entries.delete jti⟩) else (true, bl)

/-- `revoke`. -/
def revoke (bl : MemoryBlocklist) (nowMs : ℤ) (jti : String) (expiresAtMs : ℤ) :
    MemoryBlocklist :=
  if expiresAtMs ≤ nowMs then bl else ⟨bl.entries.set jti expiresAtMs⟩

/-- `unrevoke`. -/
def unrevoke (bl : MemoryBlocklist) (jti : String) : MemoryBlocklist :=
  ⟨bl.entries.delete jti⟩

/-- The loop of `size` over the entries: those that have expired are deleted. -/
def trim (nowMs : ℤ) : List (String × ℤ) → MemoryBlocklist → MemoryBlocklist
  | [], bl => bl
  | (jti, exp) :: rest, bl =>
    trim nowMs rest (if exp ≤ nowMs then ⟨bl.entries.delete jti⟩ else bl)

/-- `size`. -/
def size (bl : MemoryBlocklist) (nowMs : ℤ) : ℕ × MemoryBlocklist :=
  let trimmed := trim nowMs bl.entries.entries bl
  (trimmed.entries.entries.length, trimmed)

/-- The blocklist after a call, when the clock shows `nowMs`. -/
def call (bl : MemoryBlocklist) (nowMs : ℤ) : BlocklistCall → MemoryBlocklist
  | .isRevoked jti => (bl.isRevoked nowMs jti).2
  | .revoke jti expiresAtMs => bl.revoke nowMs jti expiresAtMs
  | .unrevoke jti => bl.unrevoke jti
  | .size => (bl.size nowMs).2

/-- The blocklist after some calls, each with its time. -/
def run (bl : MemoryBlocklist) (calls : List (ℤ × BlocklistCall)) : MemoryBlocklist :=
  calls.foldl (fun bl c => bl.call c.1 c.2) bl

end MemoryBlocklist

/-- What a cache remembers of an id. -/
structure CachedAnswer where
  revoked : Bool
  checkedAt : ℤ

/-- **A `CachedBlocklist`** in front of a blocklist in memory. -/
structure CachedBlocklist where
  source : MemoryBlocklist
  ttlMs : ℤ
  cache : String → Option CachedAnswer

/-- A call through a cache, or of the source behind it. -/
inductive CachedCall where
  | through (c : BlocklistCall)
  | source (c : BlocklistCall)

namespace CachedBlocklist

/-- The constructor. -/
def new (source : MemoryBlocklist) (ttlMs : Option ℤ) : CachedBlocklist :=
  ⟨source, ttlMs.getD 10000, fun _ => none⟩

/-- What a cache still knows of an id. -/
def fresh (cb : CachedBlocklist) (nowMs : ℤ) (jti : String) : Option CachedAnswer :=
  (cb.cache jti).filter (fun cached => decide (nowMs - cached.checkedAt < cb.ttlMs))

/-- `isRevoked`. -/
def isRevoked (cb : CachedBlocklist) (nowMs : ℤ) (jti : String) : Bool × CachedBlocklist :=
  match cb.fresh nowMs jti with
  | some cached => (cached.revoked, cb)
  | none =>
    let (revoked, source) := cb.source.isRevoked nowMs jti
    (revoked,
      { cb with source := source, cache := update cb.cache jti (some ⟨revoked, nowMs⟩) })

/-- `revoke`. -/
def revoke (cb : CachedBlocklist) (nowMs : ℤ) (jti : String) (expiresAtMs : ℤ) :
    CachedBlocklist :=
  { cb with
    source := cb.source.revoke nowMs jti expiresAtMs
    cache := update cb.cache jti none }

/-- `unrevoke`. -/
def unrevoke (cb : CachedBlocklist) (jti : String) : CachedBlocklist :=
  { cb with source := cb.source.unrevoke jti, cache := update cb.cache jti none }

/-- `size`. -/
def size (cb : CachedBlocklist) (nowMs : ℤ) : ℕ × CachedBlocklist :=
  let (n, source) := cb.source.size nowMs
  (n, { cb with source := source })

/-- The cache after a call, when the clock shows `nowMs`. -/
def call (cb : CachedBlocklist) (nowMs : ℤ) : CachedCall → CachedBlocklist
  | .through (.isRevoked jti) => (cb.isRevoked nowMs jti).2
  | .through (.revoke jti expiresAtMs) => cb.revoke nowMs jti expiresAtMs
  | .through (.unrevoke jti) => cb.unrevoke jti
  | .through .size => (cb.size nowMs).2
  | .source c => { cb with source := cb.source.call nowMs c }

/-- The cache after some calls, each with its time. -/
def run (cb : CachedBlocklist) (calls : List (ℤ × CachedCall)) : CachedBlocklist :=
  calls.foldl (fun cb c => cb.call c.1 c.2) cb

end CachedBlocklist

/-! ## What the checks of a token make of it -/

/-- What `verifyCapability` is given to ask of a blocklist. -/
def revocationCheck (isRevoked : String → Bool) : Json → Bool
  | .str jti => isRevoked jti
  | _ => false

/-- **No token with this id and this expiry, in seconds, is accepted**, whatever the keys
and whatever time the expiry is held against. -/
def Refused (isRevoked : String → Bool) (jti : String) (exp : ℤ) : Prop :=
  ∀ (prims : Primitives) (publicKey : String) (nowMs : ℤ) (token : String) (payload v : Json),
    payload.prop "jti" = .ok (.str jti) → payload.prop "exp" = .ok v →
    prims.number v = some exp →
    verifyCapability prims ⟨publicKey, some (revocationCheck isRevoked)⟩ nowMs token
      ≠ .ok payload

/-- The claims of a token with this id and this expiry. -/
def claimsOf (jti : String) (exp : ℤ) : Json :=
  .obj [("alg", .str "EdDSA"), ("exp", .num exp), ("jti", .str jti)]

/-- Primitives that read these claims out of every segment, and that hold every
signature for genuine. -/
def readingPrimitives (claims : Json) : Primitives where
  fromBase64 _ := []
  fromUtf8 _ := ""
  toUtf8 _ := []
  parse _ := some claims
  hmacHex _ _ _ := ""
  hmacSha256 _ _ := []
  rsaVerify _ _ _ := none
  ecdsaVerify _ _ _ := none
  ed25519Verify _ _ _ := true
  number
    | .num n => some n
    | _ => none
  string
    | .str s => some s
    | _ => none

/-- **Tokens with an id are refused if and only if the id is revoked.** -/
theorem refused_iff {isRevoked : String → Bool} {jti : String} {exp : ℤ} :
    Refused isRevoked jti exp ↔ isRevoked jti = true := by
  constructor
  · intro h
    by_contra hne
    have hfalse : isRevoked jti = false := Bool.eq_false_iff.mpr hne
    have hsplit : splitToken ".." = some ("", "", "") := by decide
    refine h (readingPrimitives (claimsOf jti exp)) "" (exp * 1000 - 1) ".." (claimsOf jti exp)
      (.num exp) rfl rfl rfl ?_
    have halg : claim (claimsOf jti exp) "alg" = .ok (.str "EdDSA") := rfl
    have hexp : claim (claimsOf jti exp) "exp" = .ok (.num exp) := rfl
    have hnbf : claim (claimsOf jti exp) "nbf" = .ok .undefined := rfl
    have hjti : claim (claimsOf jti exp) "jti" = .ok (.str jti) := rfl
    unfold verifyCapability
    rw [hsplit]
    simp [Primitives.segment, readingPrimitives, halg, hexp, hnbf, hjti, check, Json.isString,
      Json.typeof, revocationCheck, hfalse, bind, Except.bind, pure, Except.pure]
  · intro h prims publicKey nowMs token payload v hjti _ _ hok
    have hrev := (verifyCapability_signed hok).2.2 _ _ rfl hjti
    exact absurd (h.symm.trans hrev) (by decide)

/-! ## Revocations that last

What has to hold of every later call about the id for the revocation to stand:
none takes it back before the expiry, by a shorter time or otherwise. -/

/-- A call lets an id go. -/
def BlocklistCall.unrevokes (jti : String) : BlocklistCall → Bool
  | .unrevoke jti' => jti' == jti
  | _ => false

/-- **A call does not shorten a revocation**: if it revokes the id, then until `E` or
longer, or until a time that is past already. -/
def BlocklistCall.Lasts (jti : String) (E nowMs : ℤ) : BlocklistCall → Prop
  | .revoke jti' expiresAtMs => jti' = jti → expiresAtMs ≤ nowMs ∨ E ≤ expiresAtMs
  | _ => True

namespace MemoryBlocklist

/-- An id is revoked until `E`, or `E` is past. -/
def Holds (bl : MemoryBlocklist) (jti : String) (E t : ℤ) : Prop :=
  t < E → ∃ exp, bl.entries.get jti = some exp ∧ E ≤ exp

variable {bl : MemoryBlocklist} {jti : String} {E t t' : ℤ}

theorem Holds.mono (h : bl.Holds jti E t) (ht : t ≤ t') : bl.Holds jti E t' :=
  fun hE => h (ht.trans_lt hE)

/-- Then a look at it finds it revoked. -/
theorem Holds.isRevoked (h : bl.Holds jti E t) (hE : t < E) :
    (bl.isRevoked t jti).1 = true := by
  obtain ⟨exp, hget, hle⟩ := h hE
  rw [MemoryBlocklist.isRevoked, hget]
  dsimp only
  rw [if_neg (not_le.mpr (hE.trans_le hle))]

/-- A revocation that is heeded, or that comes too late to matter. -/
theorem holds_revoke (bl : MemoryBlocklist) {expiresAtMs : ℤ} (hE : E ≤ expiresAtMs) :
    (bl.revoke t jti expiresAtMs).Holds jti E t := by
  intro hlt
  rw [revoke, if_neg (not_le.mpr (hlt.trans_le hE))]
  exact ⟨expiresAtMs, OrderedMap.get_set_self, hE⟩

/-- Deleting an entry, if there is one, that has expired. -/
theorem Holds.delete (h : bl.Holds jti E t) {jti' : String}
    (hexp : ∀ exp, bl.entries.get jti' = some exp → exp ≤ t) :
    MemoryBlocklist.Holds ⟨bl.entries.delete jti'⟩ jti E t := by
  intro hlt
  obtain ⟨exp, hget, hle⟩ := h hlt
  refine ⟨exp, ?_, hle⟩
  rw [OrderedMap.get_delete, if_neg, hget]
  rintro rfl
  exact absurd hle (not_le.mpr ((hexp exp hget).trans_lt hlt))

/-- Deleting another entry. -/
theorem Holds.unrevoke (h : bl.Holds jti E t) {jti' : String} (hne : jti' ≠ jti) :
    (bl.unrevoke jti').Holds jti E t := by
  intro hlt
  obtain ⟨exp, hget, hle⟩ := h hlt
  exact ⟨exp, by rw [MemoryBlocklist.unrevoke, OrderedMap.get_delete, if_neg hne.symm, hget], hle⟩

theorem Holds.look (h : bl.Holds jti E t) (jti' : String) :
    (bl.isRevoked t jti').2.Holds jti E t := by
  unfold MemoryBlocklist.isRevoked
  cases hget : bl.entries.get jti' with
  | none => exact h
  | some exp =>
    dsimp only
    split
    · next hexp =>
      exact h.delete (fun exp' hget' => Option.some.inj (hget.symm.trans hget') ▸ hexp)
    · exact h

theorem Holds.trim (h : bl.Holds jti E t) (es : List (String × ℤ))
    (hes : ∀ e ∈ es, ∀ exp, bl.entries.get e.1 = some exp → exp = e.2) :
    (MemoryBlocklist.trim t es bl).Holds jti E t := by
  induction es generalizing bl with
  | nil => exact h
  | cons e es ih =>
    obtain ⟨jti', exp⟩ := e
    have hrest := fun e he => hes e (List.mem_cons_of_mem _ he)
    rw [MemoryBlocklist.trim]
    split
    · next hexp =>
      refine ih (h.delete (fun exp' hget => ?_)) (fun e he exp' hget => ?_)
      · exact (hes _ List.mem_cons_self exp' hget).symm ▸ hexp
      · rw [OrderedMap.get_delete] at hget
        split at hget
        · exact absurd hget (by simp)
        · exact hrest e he exp' hget
    · exact ih h hrest

/-- **A call keeps a revocation** that it does not shorten or take back. -/
theorem Holds.call (h : bl.Holds jti E t) {c : BlocklistCall}
    (hkept : c.unrevokes jti = false) (hlasts : c.Lasts jti E t) :
    (bl.call t c).Holds jti E t := by
  cases c with
  | isRevoked jti' => exact h.look jti'
  | unrevoke jti' =>
    refine h.unrevoke (fun heq => ?_)
    simp [BlocklistCall.unrevokes, heq] at hkept
  | size =>
    refine h.trim _ (fun e he exp hget => ?_)
    exact Option.some.inj (hget.symm.trans (OrderedMap.mem_entries.mp he))
  | revoke jti' expiresAtMs =>
    rw [MemoryBlocklist.call, MemoryBlocklist.revoke]
    split
    · exact h
    · next hheeded =>
      by_cases heq : jti' = jti
      · subst heq
        intro _
        exact ⟨expiresAtMs, OrderedMap.get_set_self, (hlasts rfl).resolve_left hheeded⟩
      · intro hlt
        obtain ⟨exp, hget, hle⟩ := h hlt
        exact ⟨exp, (OrderedMap.get_set_ne (Ne.symm heq)).trans hget, hle⟩

/-- **Calls keep a revocation** that none of them shortens or takes back. -/
theorem Holds.run (h : bl.Holds jti E t) {calls : List (ℤ × BlocklistCall)}
    (hclock : (t :: (calls.map Prod.fst ++ [t'])).Pairwise (· ≤ ·))
    (hkept : ∀ tc ∈ calls, tc.2.unrevokes jti = false)
    (hlasts : ∀ tc ∈ calls, tc.2.Lasts jti E tc.1) : (bl.run calls).Holds jti E t' :=
  TransitionSystem.timed_invariant MemoryBlocklist.call
    (P := fun (bl : MemoryBlocklist) t => bl.Holds jti E t)
    (Q := fun tc => tc.2.unrevokes jti = false ∧ tc.2.Lasts jti E tc.1)
    (fun _ _ _ hle h => h.mono hle) (fun _ _ _ hfit h => h.call hfit.1 hfit.2) h hclock
    (fun tc htc => ⟨hkept tc htc, hlasts tc htc⟩)

/-- **A revocation lasts if and only if no later one shortens it.** -/
theorem lasts_iff (bl : MemoryBlocklist) {X : ℤ} (hX : E ≤ X) {calls : List (ℤ × BlocklistCall)}
    (hmono : (t :: calls.map Prod.fst).Pairwise (· ≤ ·))
    (hkept : ∀ tc ∈ calls, tc.2.unrevokes jti = false) :
    (∀ done, done <+: calls → ∀ t', (t :: (done.map Prod.fst ++ [t'])).Pairwise (· ≤ ·) →
        t' < E → (((bl.revoke t jti X).run done).isRevoked t' jti).1 = true)
      ↔ ∀ tc ∈ calls, tc.2.Lasts jti E tc.1 := by
  constructor
  · intro h tc htc
    obtain ⟨u, c⟩ := tc
    cases c with
    | isRevoked _ | unrevoke _ | size => trivial
    | revoke jti' exp =>
      rintro rfl
      by_contra hshort
      obtain ⟨hheeded, hearly⟩ := not_or.mp hshort
      -- the id is asked about when that revocation has run out
      obtain ⟨a, b, rfl⟩ := List.append_of_mem htc
      have hrun := h (a ++ [(u, .revoke jti' exp)]) ⟨b, by simp⟩ exp ?_ (not_le.mp hearly)
      · rw [MemoryBlocklist.run, List.foldl_concat, MemoryBlocklist.call,
          MemoryBlocklist.revoke, if_neg hheeded, MemoryBlocklist.isRevoked,
          OrderedMap.get_set_self] at hrun
        simp at hrun
      · rw [List.map_append, List.map_cons, ← List.cons_append] at hmono
        obtain ⟨hbefore, hfrom, hacross⟩ := List.pairwise_append.mp hmono
        have hlater := fun x hx => (hacross x hx u List.mem_cons_self).trans
          (not_le.mp hheeded).le
        rw [List.map_append, List.map_singleton, List.append_assoc, ← List.cons_append]
        refine List.pairwise_append.mpr ⟨hbefore, ?_, fun x hx y hy => ?_⟩
        · simpa using (not_le.mp hheeded).le
        · obtain rfl | rfl : y = u ∨ y = exp := by simpa using hy
          · exact hacross x hx y List.mem_cons_self
          · exact hlater x hx
  · intro hlasts done hdone t' hmono' hlt
    refine Holds.isRevoked ?_ hlt
    exact (holds_revoke bl hX).run hmono' (fun tc htc => hkept tc (hdone.subset htc))
      (fun tc htc => hlasts tc (hdone.subset htc))

end MemoryBlocklist

/-! ## Through a cache

What the cache remembers is what the list said at some time within the last
`ttlMs`; so the cache is behind by that much at most. -/

/-- The part of a call that reaches the blocklist behind a cache. -/
def CachedCall.call : CachedCall → BlocklistCall
  | .through c | .source c => c

namespace CachedBlocklist

/-- An id is revoked until `E` in the blocklist behind the cache, and what the cache
remembers of it is that it is revoked, or is from a time that is `old`; or `E` is past. -/
def Holds (cb : CachedBlocklist) (jti : String) (E : ℤ) (old : ℤ → Prop) (t : ℤ) : Prop :=
  cb.source.Holds jti E t
    ∧ (t < E → ∀ cached, cb.cache jti = some cached →
      cached.revoked = true ∨ old cached.checkedAt)

variable {cb : CachedBlocklist} {jti : String} {E t t' : ℤ} {old : ℤ → Prop}

theorem Holds.mono (h : cb.Holds jti E old t) (ht : t ≤ t') : cb.Holds jti E old t' :=
  ⟨h.1.mono ht, fun hE => h.2 (ht.trans_lt hE)⟩

/-- Where what is old is not fresh any more, a look finds it revoked. -/
theorem Holds.isRevoked (h : cb.Holds jti E old t) (hE : t < E)
    (hold : ∀ u, old u → cb.ttlMs ≤ t - u) : (cb.isRevoked t jti).1 = true := by
  unfold CachedBlocklist.isRevoked
  cases hf : cb.fresh t jti with
  | none => exact h.1.isRevoked hE
  | some cached =>
    obtain ⟨hc, hfresh⟩ := Option.filter_eq_some_iff.mp hf
    refine (h.2 hE cached hc).resolve_right (fun hu => ?_)
    exact absurd (of_decide_eq_true hfresh) (not_lt.mpr (hold _ hu))

/-- What a cache remembers after one answer is set or forgotten. -/
theorem remembers_update {cache : String → Option CachedAnswer} {P : CachedAnswer → Prop}
    {jti jti' : String} {answer : Option CachedAnswer}
    (h : ∀ cached, cache jti = some cached → P cached)
    (hanswer : jti = jti' → ∀ cached, answer = some cached → P cached) :
    ∀ cached, update cache jti' answer jti = some cached → P cached := by
  intro cached hc
  rw [Function.update_apply] at hc
  split at hc
  · next heq => exact hanswer heq cached hc
  · exact h cached hc

/-- **A call keeps a revocation** that it does not shorten or take back. -/
theorem Holds.call (h : cb.Holds jti E old t) {c : CachedCall}
    (hkept : c.call.unrevokes jti = false) (hlasts : c.call.Lasts jti E t) :
    (cb.call t c).Holds jti E old t := by
  cases c with
  | source c => exact ⟨h.1.call hkept hlasts, h.2⟩
  | through c =>
    have hsource := h.1.call hkept hlasts
    cases c with
    | size => exact ⟨hsource, h.2⟩
    | revoke jti' expiresAtMs =>
      exact ⟨hsource, fun hE => remembers_update (h.2 hE) (fun _ _ hc => by cases hc)⟩
    | unrevoke jti' =>
      exact ⟨hsource, fun hE => remembers_update (h.2 hE) (fun _ _ hc => by cases hc)⟩
    | isRevoked jti' =>
      rw [CachedBlocklist.call, CachedBlocklist.isRevoked]
      cases hf : cb.fresh t jti' with
      | some cached => exact h
      | none =>
        refine ⟨hsource, fun hE => remembers_update (h.2 hE) (fun heq cached hc => .inl ?_)⟩
        obtain rfl := Option.some.inj hc
        exact heq ▸ h.1.isRevoked hE

/-- **Calls keep a revocation** that none of them shortens or takes back. -/
theorem Holds.run (h : cb.Holds jti E old t) {calls : List (ℤ × CachedCall)}
    (hclock : (t :: (calls.map Prod.fst ++ [t'])).Pairwise (· ≤ ·))
    (hkept : ∀ tc ∈ calls, tc.2.call.unrevokes jti = false)
    (hlasts : ∀ tc ∈ calls, tc.2.call.Lasts jti E tc.1) :
    (cb.run calls).Holds jti E old t' :=
  TransitionSystem.timed_invariant CachedBlocklist.call
    (P := fun (cb : CachedBlocklist) t => cb.Holds jti E old t)
    (Q := fun tc => tc.2.call.unrevokes jti = false ∧ tc.2.call.Lasts jti E tc.1)
    (fun _ _ _ hle h => h.mono hle) (fun _ _ _ hfit h => h.call hfit.1 hfit.2) h hclock
    (fun tc htc => ⟨hkept tc htc, hlasts tc htc⟩)

/-- Whatever a cache remembers, it was told by then. -/
def Told (cb : CachedBlocklist) (t : ℤ) : Prop :=
  ∀ jti cached, cb.cache jti = some cached → cached.checkedAt ≤ t

theorem new_told (source : MemoryBlocklist) (ttlMs : Option ℤ) (t : ℤ) :
    (new source ttlMs).Told t :=
  fun _ _ hc => absurd hc (by simp [new])

theorem Told.mono (h : cb.Told t) (ht : t ≤ t') : cb.Told t' :=
  fun jti cached hc => (h jti cached hc).trans ht

theorem Told.call (h : cb.Told t) (c : CachedCall) : (cb.call t c).Told t := by
  cases c with
  | source c => exact h
  | through c =>
    cases c with
    | size => exact h
    | revoke jti expiresAtMs | unrevoke jti =>
      exact fun jti' => remembers_update (h jti') (fun _ _ hc => by cases hc)
    | isRevoked jti =>
      rw [CachedBlocklist.call, CachedBlocklist.isRevoked]
      cases cb.fresh t jti with
      | some cached => exact h
      | none =>
        exact fun jti' => remembers_update (h jti') (fun _ _ hc => Option.some.inj hc ▸ le_rfl)

theorem Told.run (h : cb.Told t) {calls : List (ℤ × CachedCall)}
    (hclock : (t :: (calls.map Prod.fst ++ [t'])).Pairwise (· ≤ ·)) : (cb.run calls).Told t' :=
  TransitionSystem.timed_invariant CachedBlocklist.call
    (P := fun (cb : CachedBlocklist) t => cb.Told t) (Q := fun _ => True)
    (fun _ _ _ hle h => h.mono hle) (fun _ _ c _ h => h.call c) h hclock (fun _ _ => trivial)

@[simp] theorem call_ttlMs (cb : CachedBlocklist) (t : ℤ) (c : CachedCall) :
    (cb.call t c).ttlMs = cb.ttlMs := by
  cases c with
  | source c => rfl
  | through c =>
    cases c with
    | isRevoked jti =>
      rw [CachedBlocklist.call, CachedBlocklist.isRevoked]
      cases cb.fresh t jti <;> rfl
    | revoke _ _ | unrevoke _ | size => rfl

@[simp] theorem run_ttlMs (cb : CachedBlocklist) (calls : List (ℤ × CachedCall)) :
    (cb.run calls).ttlMs = cb.ttlMs := by
  induction calls generalizing cb with
  | nil => rfl
  | cons tc calls ih => exact (ih (cb.call tc.1 tc.2)).trans (call_ttlMs _ _ _)

/-- **A revocation through the cache** leaves nothing in the cache to be believed. -/
theorem holds_revoke (cb : CachedBlocklist) {X : ℤ} (hX : E ≤ X) :
    (cb.call t (.through (.revoke jti X))).Holds jti E (fun _ => False) t := by
  refine ⟨MemoryBlocklist.holds_revoke cb.source hX, fun _ cached hc => ?_⟩
  simp [CachedBlocklist.call, revoke] at hc

/-- **A revocation behind the cache** leaves what the cache was told before. -/
theorem Told.holds_revoke (h : cb.Told t) {X : ℤ} (hX : E ≤ X) :
    (cb.call t (.source (.revoke jti X))).Holds jti E (· ≤ t) t :=
  ⟨MemoryBlocklist.holds_revoke cb.source hX, fun _ cached hc => .inr (h jti cached hc)⟩

end CachedBlocklist

/-! ## Revocation -/

/-- What a check at `t` makes of an id. -/
def MemoryBlocklist.revokedAt (bl : MemoryBlocklist) (t : ℤ) (jti : String) : Bool :=
  (bl.isRevoked t jti).1

/-- What a check at `t` makes of an id, through the cache. -/
def CachedBlocklist.revokedAt (cb : CachedBlocklist) (t : ℤ) (jti : String) : Bool :=
  (cb.isRevoked t jti).1

/-- **The clock does not go back** from one call to the next, nor then to `t`. -/
def ByTheClock {C : Type} (calls : List (ℤ × C)) (t : ℤ) : Prop :=
  (calls.map Prod.fst ++ [t]).Pairwise (· ≤ ·)

/-- By the clock before a call and after it. -/
theorem byTheClock_iff {C : Type} {before after : List (ℤ × C)} {t₀ t : ℤ} {c : C} :
    ByTheClock (before ++ (t₀, c) :: after) t
      ↔ ByTheClock before t₀ ∧ (t₀ :: (after.map Prod.fst ++ [t])).Pairwise (· ≤ ·) := by
  have hwhole : ByTheClock (before ++ (t₀, c) :: after) t
      ↔ (before.map Prod.fst ++ t₀ :: (after.map Prod.fst ++ [t])).Pairwise (· ≤ ·) := by
    simp [ByTheClock]
  rw [hwhole]
  constructor
  · intro h
    obtain ⟨hbefore, hafter, hacross⟩ := List.pairwise_append.mp h
    refine ⟨List.pairwise_append.mpr ⟨hbefore, List.pairwise_singleton _ _, ?_⟩, hafter⟩
    intro x hx y hy
    exact List.mem_singleton.mp hy ▸ hacross x hx t₀ List.mem_cons_self
  · rintro ⟨hbefore, hafter⟩
    obtain ⟨hbefore, -, hlast⟩ := List.pairwise_append.mp hbefore
    refine List.pairwise_append.mpr ⟨hbefore, hafter, fun x hx y hy => ?_⟩
    have hx₀ := hlast x hx t₀ (List.mem_singleton_self t₀)
    obtain rfl | hy := List.mem_cons.mp hy
    · exact hx₀
    · exact hx₀.trans ((List.pairwise_cons.mp hafter).1 y hy)

/-- What a new cache has been told after some calls, it was told by then. -/
theorem CachedBlocklist.told_run_new (source : MemoryBlocklist) (ttlMs : Option ℤ)
    {calls : List (ℤ × CachedCall)} {t : ℤ} (h : ByTheClock calls t) :
    ((new source ttlMs).run calls).Told t := by
  cases calls with
  | nil => exact new_told source ttlMs t
  | cons tc calls =>
    refine (new_told source ttlMs tc.1).run (List.pairwise_cons.mpr ⟨fun u hu => ?_, h⟩)
    obtain rfl | hu := List.mem_cons.mp hu
    · exact le_rfl
    · exact (List.pairwise_cons.mp h).1 u hu

/-- **Revocation sticks** for the tokens with an id and an expiry `exp`, in seconds, that
is revoked at `t₀` until then or longer, and not taken back: in memory they are refused
until they expire, in every run that goes on from there, if and only if every later
revocation of the id that is heeded is until then or longer too. Where that is so, they are
refused through a cache as well: at once if they were revoked through it, and when its
time to live is over if they were revoked behind it. -/
theorem revocation_sticks (jti : String) {exp X : ℤ} (hX : exp * 1000 ≤ X) (t₀ : ℤ) :
    (∀ before after : List (ℤ × BlocklistCall),
        ByTheClock before t₀ → (t₀ :: after.map Prod.fst).Pairwise (· ≤ ·) →
        (∀ tc ∈ after, tc.2.unrevokes jti = false) →
        ((∀ done, done <+: after →
            ∀ t, ByTheClock (before ++ (t₀, .revoke jti X) :: done) t → t < exp * 1000 →
            Refused ((MemoryBlocklist.new.run
              (before ++ (t₀, .revoke jti X) :: done)).revokedAt t) jti exp)
          ↔ ∀ tc ∈ after, tc.2.Lasts jti (exp * 1000) tc.1))
    ∧ (∀ ttlMs (before after : List (ℤ × CachedCall)) (t : ℤ),
        ByTheClock (before ++ (t₀, .through (.revoke jti X)) :: after) t →
        (∀ tc ∈ after, tc.2.call.unrevokes jti = false) →
        (∀ tc ∈ after, tc.2.call.Lasts jti (exp * 1000) tc.1) → t < exp * 1000 →
        Refused (((CachedBlocklist.new .new ttlMs).run
          (before ++ (t₀, .through (.revoke jti X)) :: after)).revokedAt t) jti exp)
    ∧ (∀ ttlMs (before after : List (ℤ × CachedCall)) (t : ℤ),
        ByTheClock (before ++ (t₀, .source (.revoke jti X)) :: after) t →
        (∀ tc ∈ after, tc.2.call.unrevokes jti = false) →
        (∀ tc ∈ after, tc.2.call.Lasts jti (exp * 1000) tc.1) → t < exp * 1000 →
        t₀ + ttlMs.getD 10000 ≤ t →
        Refused (((CachedBlocklist.new .new ttlMs).run
          (before ++ (t₀, .source (.revoke jti X)) :: after)).revokedAt t) jti exp) := by
  refine ⟨fun before after hbefore hafter hkept => ?_,
    fun ttlMs before after t hclock hkept hlasts ht => ?_,
    fun ttlMs before after t hclock hkept hlasts ht httl => ?_⟩
  · rw [← MemoryBlocklist.lasts_iff (MemoryBlocklist.new.run before) hX hafter hkept]
    refine forall₂_congr (fun done _ => forall_congr' (fun t => ?_))
    have hrun : MemoryBlocklist.new.run (before ++ (t₀, .revoke jti X) :: done)
        = ((MemoryBlocklist.new.run before).revoke t₀ jti X).run done := by
      rw [MemoryBlocklist.run, List.foldl_append]
      rfl
    rw [byTheClock_iff, hrun, refused_iff]
    exact ⟨fun h hdone => h ⟨hbefore, hdone⟩, fun h hclock => h hclock.2⟩
  · have h := (CachedBlocklist.holds_revoke ((CachedBlocklist.new .new ttlMs).run before) hX).run
      (byTheClock_iff.mp hclock).2 hkept hlasts
    rw [refused_iff, CachedBlocklist.run, List.foldl_append]
    exact h.isRevoked ht (fun _ hu => hu.elim)
  · have htold := CachedBlocklist.told_run_new .new ttlMs (byTheClock_iff.mp hclock).1
    have h := (htold.holds_revoke hX).run (byTheClock_iff.mp hclock).2 hkept hlasts
    rw [refused_iff, CachedBlocklist.run, List.foldl_append]
    refine h.isRevoked ht (fun u hu => ?_)
    simp only [CachedBlocklist.run_ttlMs, CachedBlocklist.call_ttlMs]
    have : (CachedBlocklist.new .new ttlMs).ttlMs = ttlMs.getD 10000 := rfl
    omega

/-- A token that expires at 10 s is revoked at 0 and refused to the last millisecond: by
the blocklist in memory, although it is trimmed; by a cached one it was revoked through,
although that had just cached that it is not revoked; and by a cached one behind whose back
it was revoked, which asks its source again once the ten seconds it cached that for are
over, or fewer where it is built with fewer. -/
theorem revocation_sticks_trimmed :
    Refused ((MemoryBlocklist.new.run [(0, .revoke "j" 10000), (1, .size)]).revokedAt 9999)
      "j" 10
    ∧ Refused (((CachedBlocklist.new .new none).run
        [(0, .through (.isRevoked "j")), (0, .through (.revoke "j" 10000)),
          (1, .source .size)]).revokedAt 9999) "j" 10
    ∧ Refused (((CachedBlocklist.new .new (some 1000)).run
        [(0, .through (.isRevoked "j")), (0, .source (.revoke "j" 10000)),
          (500, .through (.isRevoked "j"))]).revokedAt 9999) "j" 10 := by
  have hX : (10 : ℤ) * 1000 ≤ 10000 := by decide
  obtain ⟨hmemory, hthrough, hbehind⟩ := revocation_sticks "j" hX 0
  refine ⟨?_, ?_, ?_⟩
  · have h := hmemory [] [(1, .size)] (by simp [ByTheClock]) (by simp)
      (by simp [BlocklistCall.unrevokes])
    exact h.mpr (by simp [BlocklistCall.Lasts]) _ (List.prefix_refl _) 9999
      (by simp [ByTheClock]) (by decide)
  · exact hthrough none [(0, .through (.isRevoked "j"))] [(1, .source .size)] 9999
      (by simp [ByTheClock]) (by simp [CachedCall.call, BlocklistCall.unrevokes])
      (by simp [CachedCall.call, BlocklistCall.Lasts]) (by decide)
  · exact hbehind (some 1000) [(0, .through (.isRevoked "j"))]
      [(500, .through (.isRevoked "j"))] 9999 (by simp [ByTheClock])
      (by simp [CachedCall.call, BlocklistCall.unrevokes])
      (by simp [CachedCall.call, BlocklistCall.Lasts]) (by decide) (by simp)

/-- **A second revocation lets a token go**: revoked until it expires at 10 s, and then for
one second, it is accepted at 2 s. -/
theorem not_revocation_sticks :
    ¬∀ (jti : String) (exp X t₀ t : ℤ) (before after : List (ℤ × BlocklistCall)),
      exp * 1000 ≤ X → ByTheClock (before ++ (t₀, .revoke jti X) :: after) t →
      (∀ tc ∈ after, tc.2.unrevokes jti = false) → t < exp * 1000 →
      Refused ((MemoryBlocklist.new.run
        (before ++ (t₀, .revoke jti X) :: after)).revokedAt t) jti exp := by
  intro h
  have hrefused := h "j" 10 10000 0 2000 [] [(0, .revoke "j" 1000)] (by decide)
    (by simp [ByTheClock]) (by simp [BlocklistCall.unrevokes]) (by decide)
  exact absurd (refused_iff.mp hrefused) (by decide +kernel)
