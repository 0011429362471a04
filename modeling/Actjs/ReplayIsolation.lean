import Actjs.Idempotency

/-!
# Whose response is replayed

A response is stored under the key of its request alone, and it is replayed
before the route of a request, and so its gate, has a say. What is replayed
to a principal is a response to that principal, of that route, exactly when
no two requests share a key that differ in one of these.
-/

open Function (update)
open TransitionSystem

variable {C P : Type}

/-- The principal a request was authenticated as. -/
def RequestPc.principal : RequestPc P → Option P
  | auth => none
  | pin p => some p
  | load p => some p
  | route p => some p
  | save p _ => some p
  | refused _ => none
  | answered p _ => some p
  | replayed p _ _ => some p

/-- The request has passed the hooks before the one that loads. -/
def RequestPc.admitted : RequestPc P → Bool
  | auth => false
  | pin _ => false
  | refused _ => false
  | _ => true

namespace Server

/-- **Replay isolation.** A response that is replayed was made for the same
principal, method and URL, and the gate lets the principal through. -/
def Isolated (s : Server C P) (app : App C P) : Prop :=
  ∀ j req p r i, s.requests j = some (req, .replayed p r i) →
    (∃ req' pc, s.requests i = some (req', pc) ∧ pc.principal = some p
      ∧ req'.method = req.method ∧ req'.url = req.url)
    ∧ app.gate p req.method req.url = none

/-- The requests that arrive are those of a table. -/
def Sends (reqs : ℕ → HttpRequest C) : ServerAct C → Prop
  | .arrive i req => req = reqs i
  | _ => True

/-- **No two requests share a key that differ** in principal, method or URL:
neither the one whose response would be stored, as it passes the hooks and
the gate, nor the one that would get it, as it passes the hooks. -/
def Bound (app : App C P) (reqs : ℕ → HttpRequest C) : Prop :=
  ∀ i j key p q, i ≠ j → 0 < app.ttlMs →
    (reqs i).key = some key → (reqs j).key = some key →
    app.auth (reqs i).credentials = .ok p → app.pin (reqs i).credentials = none →
    app.gate p (reqs i).method (reqs i).url = none →
    app.auth (reqs j).credentials = .ok q → app.pin (reqs j).credentials = none →
    p = q ∧ (reqs i).method = (reqs j).method ∧ (reqs i).url = (reqs j).url

/-- The response of request `i`, which the gate let through, is to be
replayed to requests of the key. -/
def Origin (s : Server C P) (app : App C P) (key : String) (i : ℕ) : Prop :=
  ∃ req p r, s.requests i = some (req, .answered p r) ∧ req.key = some key
    ∧ app.gate p req.method req.url = none

/-- What is known of the requests of a table. -/
structure Traced (s : Server C P) (app : App C P)
    (reqs : ℕ → HttpRequest C) : Prop where
  sent : ∀ i req pc, s.requests i = some (req, pc) → req = reqs i
  authenticated : ∀ i req pc p, s.requests i = some (req, pc) →
    pc.principal = some p → app.auth req.credentials = .ok p
  pinned : ∀ i req pc, s.requests i = some (req, pc) → pc.admitted = true →
    app.pin req.credentials = none
  gated : ∀ i req p r, s.requests i = some (req, .save p r) →
    app.gate p req.method req.url = none
  rows : ∀ key row, s.idempotency key = some row →
    0 < app.ttlMs ∧ s.Origin app key row.origin ∨ row.expiresAt ≤ s.now
  replays : ∀ j req p r i, s.requests j = some (req, .replayed p r i) →
    ∃ key, req.key = some key ∧ 0 < app.ttlMs ∧ s.Origin app key i

theorem Traced.init (app : App C P) (reqs : ℕ → HttpRequest C) :
    (init : Server C P).Traced app reqs := by
  refine ⟨?_, ?_, ?_, ?_, ?_, ?_⟩ <;> simp [Server.init]

/-- **A request that moves** was sent, is authenticated as it was or has just
been, and so on for its pin and its gate. -/
theorem Moves.traced {app : App C P} {s : Server C P} {i : ℕ}
    {req : HttpRequest C} {a : ServerAct C} {pc pc' : RequestPc P}
    {rows : String → Option IdemRow} (hm : Moves app s i req a pc rows pc') :
    (∀ p, pc'.principal = some p →
      pc.principal = some p ∨ app.auth req.credentials = .ok p)
    ∧ (pc'.admitted = true →
      pc.admitted = true ∨ app.pin req.credentials = none)
    ∧ (∀ p r, pc' = .save p r → app.gate p req.method req.url = none) := by
  have hgate : ∀ {p response r},
      r = (app.gate p req.method req.url).getD response → r.success = true →
      app.gate p req.method req.url = none := by
    intro p response r hr hsuccess
    cases hg : app.gate p req.method req.url with
    | none => rfl
    | some refusal =>
      rw [hg, Option.getD_some] at hr
      rw [hr, app.gate_refuses p _ _ _ hg] at hsuccess
      cases hsuccess
  cases hm with
  | authenticated p h =>
    refine ⟨fun q hq => .inr (Option.some.inj hq ▸ h), by simp [RequestPc.admitted],
      by simp⟩
  | unkeyed p h => exact ⟨fun q hq => .inl hq, fun _ => .inr h, by simp⟩
  | keyed p key h => exact ⟨fun q hq => .inl hq, fun _ => .inr h, by simp⟩
  | executed p key response r hr hsuccess =>
    refine ⟨fun q hq => .inl hq, fun _ => .inl rfl, fun q r' h => ?_⟩
    cases h
    exact hgate hr hsuccess
  | _ =>
    refine ⟨fun q hq => .inl ?_, fun h => .inl ?_, by simp⟩
    · first | exact hq | cases hq
    · first | rfl | cases h

/-- What is stored is stored still. -/
theorem Origin.move {app : App C P} {s : Server C P} {i j : ℕ} {key : String}
    {req : HttpRequest C} {a : ServerAct C} {pc pc' : RequestPc P}
    {rows : String → Option IdemRow} (h : s.Origin app key j)
    (hi : s.requests i = some (req, pc)) (hm : Moves app s i req a pc rows pc') :
    Origin { s with
      requests := update s.requests i (some (req, pc')), idempotency := rows }
      app key j := by
  obtain ⟨q, p, r, hj, hrest⟩ := h
  have hji : j ≠ i := by
    rintro rfl
    rw [hi, Option.some.injEq, Prod.mk.injEq] at hj
    obtain ⟨-, rfl⟩ := hj
    cases hm
  exact ⟨q, p, r, (Function.update_of_ne hji ..).trans hj, hrest⟩

/-- What a move stores, and what it replays. -/
theorem Moves.origin {app : App C P} {s : Server C P} {i : ℕ}
    {req : HttpRequest C} {a : ServerAct C} {pc pc' : RequestPc P}
    {rows : String → Option IdemRow} {reqs : ℕ → HttpRequest C}
    (h : s.Traced app reqs) (hi : s.requests i = some (req, pc))
    (hm : Moves app s i req a pc rows pc') :
    (∀ key row, rows key = some row → s.idempotency key = some row
      ∨ row.origin = i ∧ row.expiresAt = s.now + app.ttlMs
        ∧ req.key = some key ∧ ∃ p r, pc' = .answered p r
          ∧ app.gate p req.method req.url = none)
    ∧ ∀ p r k, pc' = .replayed p r k →
      ∃ key, req.key = some key ∧ 0 < app.ttlMs ∧ s.Origin app key k := by
  cases hm with
  | expired p key row hkey =>
    refine ⟨fun key' row' hrow => .inl ?_, by simp⟩
    by_cases hk : key' = key
    · subst hk
      rw [Function.update_self] at hrow
      cases hrow
    · rwa [Function.update_of_ne hk] at hrow
  | saved p key r hkey =>
    refine ⟨fun key' row' hrow => ?_, by simp⟩
    by_cases hk : key' = key
    · subst hk
      rw [Function.update_self, Option.some.injEq] at hrow
      subst hrow
      exact .inr ⟨rfl, rfl, hkey, p, r, rfl, h.gated i req p r hi⟩
    · rw [Function.update_of_ne hk] at hrow
      exact .inl hrow
  | found p key row hkey hrow hnow =>
    refine ⟨fun _ _ hr => .inl hr, fun p' r' k hpc => ⟨key, hkey, ?_⟩⟩
    cases hpc
    exact (h.rows key row hrow).resolve_right hnow
  | _ => exact ⟨fun _ _ hr => .inl hr, by simp⟩

/-- **One step keeps the trace.** -/
theorem Traced.step {app : App C P} {s s' : Server C P}
    {reqs : ℕ → HttpRequest C} {a : ServerAct C} (h : s.Traced app reqs)
    (hG : Sends reqs a) (hs : s.step app a = some s') :
    s'.Traced app reqs := by
  rcases step_cases hs with ⟨i, req, rfl, hi, rfl⟩
    | ⟨i, req, pc, rows, pc', hi, hm, rfl⟩ | ⟨rfl, rfl⟩
  · -- a request arrives
    have hreq : req = reqs i := hG
    have hcase : ∀ {j req' pc'},
        update s.requests i (some (req, RequestPc.auth)) j = some (req', pc') →
        (j = i ∧ req' = req ∧ pc' = .auth) ∨ s.requests j = some (req', pc') := by
      intro j req' pc' hj
      by_cases hji : j = i
      · subst hji
        rw [Function.update_self, Option.some.injEq, Prod.mk.injEq] at hj
        exact .inl ⟨rfl, hj.1.symm, hj.2.symm⟩
      · rw [Function.update_of_ne hji] at hj
        exact .inr hj
    have horigin : ∀ {key k}, s.Origin app key k → Origin { s with
        requests := update s.requests i (some (req, .auth))
        arrived := i :: s.arrived } app key k := by
      rintro key k ⟨q, p, r, hk, hrest⟩
      have hki : k ≠ i := by
        rintro rfl
        rw [hi] at hk
        cases hk
      exact ⟨q, p, r, (Function.update_of_ne hki ..).trans hk, hrest⟩
    refine ⟨fun j req' pc' hj => ?_, fun j req' pc' p hj hp => ?_,
      fun j req' pc' hj hpc => ?_, fun j req' p r hj => ?_,
      fun key row hrow => ?_, fun j req' p r k hj => ?_⟩
    · rcases hcase hj with ⟨rfl, rfl, -⟩ | hj
      · exact hreq
      · exact h.sent j req' pc' hj
    · rcases hcase hj with ⟨-, -, rfl⟩ | hj
      · cases hp
      · exact h.authenticated j req' pc' p hj hp
    · rcases hcase hj with ⟨-, -, rfl⟩ | hj
      · cases hpc
      · exact h.pinned j req' pc' hj hpc
    · rcases hcase hj with ⟨-, -, hpc⟩ | hj
      · cases hpc
      · exact h.gated j req' p r hj
    · exact (h.rows key row hrow).imp (fun ⟨ht, ho⟩ => ⟨ht, horigin ho⟩) id
    · rcases hcase hj with ⟨-, -, hpc⟩ | hj
      · cases hpc
      · obtain ⟨key, hkey, ht, ho⟩ := h.replays j req' p r k hj
        exact ⟨key, hkey, ht, horigin ho⟩
  · -- a request moves
    have hcase : ∀ {j req' pc''},
        update s.requests i (some (req, pc')) j = some (req', pc'') →
        (j = i ∧ req' = req ∧ pc'' = pc') ∨ s.requests j = some (req', pc'') := by
      intro j req' pc'' hj
      by_cases hji : j = i
      · subst hji
        rw [Function.update_self, Option.some.injEq, Prod.mk.injEq] at hj
        exact .inl ⟨rfl, hj.1.symm, hj.2.symm⟩
      · rw [Function.update_of_ne hji] at hj
        exact .inr hj
    obtain ⟨hauth, hpin, hgate⟩ := hm.traced
    obtain ⟨hstored, hreplayed⟩ := hm.origin h hi
    refine ⟨fun j req' pc'' hj => ?_, fun j req' pc'' p hj hp => ?_,
      fun j req' pc'' hj hpc => ?_, fun j req' p r hj => ?_,
      fun key row hrow => ?_, fun j req' p r k hj => ?_⟩
    · rcases hcase hj with ⟨rfl, rfl, -⟩ | hj
      · exact h.sent j req' pc hi
      · exact h.sent j req' pc'' hj
    · rcases hcase hj with ⟨rfl, rfl, rfl⟩ | hj
      · exact (hauth p hp).elim (h.authenticated j req' pc p hi) id
      · exact h.authenticated j req' pc'' p hj hp
    · rcases hcase hj with ⟨rfl, rfl, rfl⟩ | hj
      · exact (hpin hpc).elim (h.pinned j req' pc hi) id
      · exact h.pinned j req' pc'' hj hpc
    · rcases hcase hj with ⟨-, rfl, hpc⟩ | hj
      · exact hgate p r hpc.symm
      · exact h.gated j req' p r hj
    · rcases hstored key row hrow with hold | ⟨rfl, hexp, hkey, p, r, rfl, hg⟩
      · exact (h.rows key row hold).imp
          (fun ⟨ht, ho⟩ => ⟨ht, ho.move hi hm⟩) id
      · by_cases ht : 0 < app.ttlMs
        · exact .inl ⟨ht, req, p, r, Function.update_self .., hkey, hg⟩
        · refine .inr ?_
          show row.expiresAt ≤ s.now
          omega
    · rcases hcase hj with ⟨-, rfl, hpc⟩ | hj
      · obtain ⟨key, hkey, ht, ho⟩ := hreplayed p r k hpc.symm
        exact ⟨key, hkey, ht, ho.move hi hm⟩
      · obtain ⟨key, hkey, ht, ho⟩ := h.replays j req' p r k hj
        exact ⟨key, hkey, ht, ho.move hi hm⟩
  · -- the time goes on
    refine ⟨h.sent, h.authenticated, h.pinned, h.gated, fun key row hrow => ?_,
      h.replays⟩
    exact (h.rows key row hrow).imp id (fun hle => Nat.le_succ_of_le hle)

/-- Requests that are bound to their key get responses of their own. -/
theorem Traced.isolated {app : App C P} {s : Server C P}
    {reqs : ℕ → HttpRequest C} (h : s.Traced app reqs) (hB : Bound app reqs) :
    s.Isolated app := by
  intro j req q r i hj
  obtain ⟨key, hkey, ht, req', p, r', hi, hkey', hgate⟩ := h.replays j req q r i hj
  have hij : i ≠ j := by
    rintro rfl
    rw [hi, Option.some.injEq, Prod.mk.injEq] at hj
    cases hj.2
  have hreq := h.sent j req _ hj
  have hreq' := h.sent i req' _ hi
  have hsame := hB i j key p q hij ht (hreq' ▸ hkey') (hreq ▸ hkey)
    (hreq' ▸ h.authenticated i req' _ p hi rfl) (hreq' ▸ h.pinned i req' _ hi rfl)
    (hreq' ▸ hgate) (hreq ▸ h.authenticated j req _ q hj rfl)
    (hreq ▸ h.pinned j req _ hj rfl)
  rw [← hreq, ← hreq'] at hsame
  obtain ⟨rfl, hmethod, hurl⟩ := hsame
  refine ⟨⟨req', _, hi, rfl, hmethod, hurl⟩, ?_⟩
  rw [← hmethod, ← hurl]
  exact hgate

/-- A response of status 200. -/
def okResponse : Response := ⟨200, "", "application/json"⟩

/-- Request `i` is served and its response stored, and then request `j`
comes. -/
def oneAfterOther (reqs : ℕ → HttpRequest C) (i j : ℕ) : List (ServerAct C) :=
  [.arrive i (reqs i), .hook i, .hook i, .load i, .answer i okResponse,
    .save i true, .arrive j (reqs j), .hook j, .hook j, .load j]

theorem sends_oneAfterOther (reqs : ℕ → HttpRequest C) (i j : ℕ) :
    ∀ a ∈ oneAfterOther reqs i j, Sends reqs a := by
  simp [oneAfterOther, Sends]

/-- **Request `j` gets the response of request `i`** when it comes with the
same key and ttl is left. -/
theorem run_oneAfterOther {app : App C P} {reqs : ℕ → HttpRequest C}
    {i j : ℕ} {key : String} {p q : P} (hij : i ≠ j) (ht : 0 < app.ttlMs)
    (hi : (reqs i).key = some key) (hj : (reqs j).key = some key)
    (hai : app.auth (reqs i).credentials = .ok p)
    (hpi : app.pin (reqs i).credentials = none)
    (hgi : app.gate p (reqs i).method (reqs i).url = none)
    (haj : app.auth (reqs j).credentials = .ok q)
    (hpj : app.pin (reqs j).credentials = none) :
    ∃ s, run (step app) init (oneAfterOther reqs i j) = some s
      ∧ s.requests i = some (reqs i, .answered p okResponse)
      ∧ s.requests j = some (reqs j, .replayed q okResponse i) := by
  have hsuccess : okResponse.success = true := rfl
  simp [oneAfterOther, step, move, init, hi, hj, hai, hpi, hgi, haj, hpj,
    hsuccess, hij, Ne.symm hij, Nat.ne_of_gt ht]

end Server

/-- **Replay isolation.** In every run of the server over a table of
requests, what is replayed was made for the same principal, method and URL,
and the gate lets the principal through, if and only if no two requests of
the table share a key that differ in one of these. -/
theorem replay_isolation (app : App C P) (reqs : ℕ → HttpRequest C) :
    (∀ (xs : List (ServerAct C)) (s : Server C P),
      run (Server.step app) .init xs = some s →
      (∀ a ∈ xs, Server.Sends reqs a) → s.Isolated app)
    ↔ Server.Bound app reqs := by
  constructor
  · intro h i j key p q hij ht hi hj hai hpi hgi haj hpj
    obtain ⟨s, hrun, hsi, hsj⟩ :=
      Server.run_oneAfterOther hij ht hi hj hai hpi hgi haj hpj
    obtain ⟨⟨req', pc, hreq', hp, hmethod, hurl⟩, -⟩ :=
      h _ s hrun (Server.sends_oneAfterOther reqs i j) j _ _ _ _ hsj
    rw [hsi, Option.some.injEq, Prod.mk.injEq] at hreq'
    obtain ⟨rfl, rfl⟩ := hreq'
    exact ⟨Option.some.inj hp, hmethod, hurl⟩
  · intro hB xs s hrun hsends
    have h : s.Traced app reqs :=
      run_invariant (P := fun t : Server C P => t.Traced app reqs) _
        (fun _ _ _ h hG hs => h.step hG hs) (Server.Traced.init app reqs)
        (along_of_mem _ hsends _) hrun
    exact h.isolated hB

/-! ## An admin's response -/

namespace Admin

/-- A server whose admins publish classes. -/
def app : App Bool Bool where
  auth := fun admin => .ok admin
  pin := fun _ => none
  gate := fun admin _ url =>
    if url = "/v1/classes/Cart/versions" && !admin then
      some ⟨403, "Forbidden", "application/problem+json"⟩
    else none
  gate_refuses := by
    intro admin method url r h
    split at h
    · obtain rfl := Option.some.inj h
      rfl
    · cases h
  ttlMs := 10

/-- A request to publish a class, under one key. -/
def request (admin : Bool) : HttpRequest Bool :=
  ⟨"POST", "/v1/classes/Cart/versions", admin, some "publish-1"⟩

/-- A class is published. -/
def published : Response := ⟨201, "published", "application/json"⟩

end Admin

/-- **A user sends the key of an admin** and gets the response the admin got,
which the gate of the route would have refused. -/
theorem not_replay_isolation :
    ¬∀ (xs : List (ServerAct Bool)) (s : Server Bool Bool),
      run (Server.step Admin.app) .init xs = some s → s.Isolated Admin.app := by
  intro h
  have hrun : (run (Server.step Admin.app) .init
      [.arrive 1 (Admin.request true), .hook 1, .hook 1, .load 1,
        .answer 1 Admin.published, .save 1 true,
        .arrive 2 (Admin.request false), .hook 2, .hook 2, .load 2]).map
      (fun s => s.requests 2)
      = some (some (Admin.request false,
        .replayed false Admin.published 1)) := rfl
  obtain ⟨s, hs, hr⟩ := Option.map_eq_some_iff.mp hrun
  exact absurd (h _ s hs 2 _ _ _ _ hr).2 (by decide)
