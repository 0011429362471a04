import Mathlib.Logic.Function.Basic
import Mathlib.Data.Nat.Notation
import Actjs.Transition

/-!
# Idempotency keys

A mutating request may carry an `Idempotency-Key`. The hooks of the server
run in the order they were added: the request is authenticated, its manifest
pin is checked, and then a stored response of its key, if there is one, ends
the request. Otherwise it goes on to its route – the gate of the route, which
is where a principal is refused, and the handler – and a response of status
2xx is stored before it is sent.

What the key is for is that of the requests that carry it one executes. The
load and the save are two steps, with the handler between them and nothing
reserved. And the key is all a response is stored under, so what is replayed
need not be a response to the same principal, nor of the same route.

## How it is proved

A step moves one request from one place to the next and may store one row;
`Moves` is the list of these moves. `Keyed` is kept by them case by case, by
where the request has got to: it missed, it was executed, it failed, its
response was saved, or it is somewhere that no field looks at. The condition
is used where a request misses, for this is where it begins to execute.
-/

open Function (update)
open TransitionSystem

/-- What is stored of a response. -/
structure Response where
  status : ℕ
  body : String
  contentType : String
deriving DecidableEq

/-- A response of status 2xx. -/
def Response.success (r : Response) : Bool := 200 ≤ r.status && r.status < 300

/-- A request, with the header that names its key. -/
structure HttpRequest (C : Type) where
  method : String
  url : String
  /-- What the authentication and the manifest pin read of it. -/
  credentials : C
  idempotencyKey : Option String

/-- The methods whose responses are stored. -/
def mutatingMethods : List String := ["POST", "PATCH", "DELETE", "PUT"]

/-- `req.idempotencyKey`: the key the hooks go by. -/
def HttpRequest.key {C : Type} (req : HttpRequest C) : Option String :=
  match req.idempotencyKey with
  | none => none
  | some key =>
    if key = "" then none
    else if req.method ∈ mutatingMethods then some key
    else none

/-- **The parts of the server that an operator and the routes provide.** -/
structure App (C P : Type) where
  /-- The hook that authenticates a request, or refuses it. -/
  auth : C → Except Response P
  /-- The hook that checks the manifest pin. -/
  pin : C → Option Response
  /-- The gate of a route: `adminOnly`, the policy of a class, a capability.
  What it answers a principal it refuses. -/
  gate : P → String → String → Option Response
  gate_refuses : ∀ p method url r, gate p method url = some r →
    r.success = false
  ttlMs : ℕ

/-- A stored response. -/
structure IdemRow where
  response : Response
  storedAt : ℕ
  expiresAt : ℕ
  /-- The request that was answered with it: a history. -/
  origin : ℕ

/-- **Where a request is.** -/
inductive RequestPc (P : Type) where
  /-- In the hook that authenticates it. -/
  | auth
  /-- In the hook that checks the manifest pin. -/
  | pin (principal : P)
  /-- About to load what is stored for its key. -/
  | load (principal : P)
  /-- At the gate of its route, or in the handler. -/
  | route (principal : P)
  /-- About to store its response. -/
  | save (principal : P) (response : Response)
  /-- A hook has refused it. -/
  | refused (response : Response)
  /-- Its route has answered it. -/
  | answered (principal : P) (response : Response)
  /-- It got the response of request `origin`. -/
  | replayed (principal : P) (response : Response) (origin : ℕ)
deriving DecidableEq

/-- The request is at its route or about to store its response. -/
def RequestPc.executing {P : Type} : RequestPc P → Bool
  | route _ => true
  | save _ _ => true
  | _ => false

/-- **The server**: the requests it has got, what is stored for each key, and
the time. -/
structure Server (C P : Type) where
  requests : ℕ → Option (HttpRequest C × RequestPc P)
  /-- The requests it has got, the last one first. -/
  arrived : List ℕ
  idempotency : String → Option IdemRow
  now : ℕ

/-- **What can happen**: a request arrives, a hook runs, the route answers,
the time goes on. -/
inductive ServerAct (C : Type) where
  | arrive (i : ℕ) (req : HttpRequest C)
  | hook (i : ℕ)
  | load (i : ℕ)
  | answer (i : ℕ) (response : Response)
  | save (i : ℕ) (ok : Bool)
  | tick

namespace Server

variable {C P : Type}

/-- A server that was just started. -/
def init : Server C P := ⟨fun _ => none, [], fun _ => none, 0⟩

/-- Move request `i`. -/
def move (s : Server C P) (i : ℕ) (req : HttpRequest C) (pc : RequestPc P) :
    Server C P :=
  { s with requests := update s.requests i (some (req, pc)) }

/-- **One step of the server.** -/
def step (app : App C P) (s : Server C P) :
    ServerAct C → Option (Server C P)
  | .arrive i req =>
    match s.requests i with
    | some _ => none
    | none => some { s.move i req .auth with arrived := i :: s.arrived }
  | .hook i =>
    match s.requests i with
    | some (req, .auth) =>
      match app.auth req.credentials with
      | .error r => some (s.move i req (.refused r))
      | .ok p => some (s.move i req (.pin p))
    | some (req, .pin p) =>
      match app.pin req.credentials with
      | some r => some (s.move i req (.refused r))
      | none =>
        match req.key with
        | none => some (s.move i req (.route p))
        | some _ => some (s.move i req (.load p))
    | _ => none
  | .load i =>
    match s.requests i with
    | some (req, .load p) =>
      match req.key with
      | none => none
      | some key =>
        match s.idempotency key with
        | none => some (s.move i req (.route p))
        | some row =>
          if row.expiresAt ≤ s.now then
            some { s.move i req (.route p) with
              idempotency := update s.idempotency key none }
          else some (s.move i req (.replayed p row.response row.origin))
    | _ => none
  | .answer i response =>
    match s.requests i with
    | some (req, .route p) =>
      let response := (app.gate p req.method req.url).getD response
      if response.success = true then
        match req.key with
        | some _ => some (s.move i req (.save p response))
        | none => some (s.move i req (.answered p response))
      else some (s.move i req (.answered p response))
    | _ => none
  | .save i ok =>
    match s.requests i with
    | some (req, .save p response) =>
      match req.key with
      | none => none
      | some key =>
        let row : IdemRow := ⟨response, s.now, s.now + app.ttlMs, i⟩
        some { s.move i req (.answered p response) with
          idempotency :=
            if ok then update s.idempotency key (some row) else s.idempotency }
    | _ => none
  | .tick => some { s with now := s.now + 1 }

/-! ## What a step can do

The moves of one request from hook to hook, each with what it does to the
stored rows. -/

/-- **What a step does to the request it is about**, and to what is
stored. -/
inductive Moves (app : App C P) (s : Server C P) (i : ℕ)
    (req : HttpRequest C) : ServerAct C → RequestPc P →
      (String → Option IdemRow) → RequestPc P → Prop
  | authRefused (r : Response) (h : app.auth req.credentials = .error r) :
      Moves app s i req (.hook i) .auth s.idempotency (.refused r)
  | authenticated (p : P) (h : app.auth req.credentials = .ok p) :
      Moves app s i req (.hook i) .auth s.idempotency (.pin p)
  | pinRefused (p : P) (r : Response) (h : app.pin req.credentials = some r) :
      Moves app s i req (.hook i) (.pin p) s.idempotency (.refused r)
  | unkeyed (p : P) (h : app.pin req.credentials = none)
      (hkey : req.key = none) :
      Moves app s i req (.hook i) (.pin p) s.idempotency (.route p)
  | keyed (p : P) (key : String) (h : app.pin req.credentials = none)
      (hkey : req.key = some key) :
      Moves app s i req (.hook i) (.pin p) s.idempotency (.load p)
  | missed (p : P) (key : String) (hkey : req.key = some key)
      (hrow : s.idempotency key = none) :
      Moves app s i req (.load i) (.load p) s.idempotency (.route p)
  | expired (p : P) (key : String) (row : IdemRow) (hkey : req.key = some key)
      (hrow : s.idempotency key = some row) (hnow : row.expiresAt ≤ s.now) :
      Moves app s i req (.load i) (.load p)
        (update s.idempotency key none) (.route p)
  | found (p : P) (key : String) (row : IdemRow) (hkey : req.key = some key)
      (hrow : s.idempotency key = some row) (hnow : ¬row.expiresAt ≤ s.now) :
      Moves app s i req (.load i) (.load p) s.idempotency
        (.replayed p row.response row.origin)
  | executed (p : P) (key : String) (response r : Response)
      (hr : r = (app.gate p req.method req.url).getD response)
      (hsuccess : r.success = true) (hkey : req.key = some key) :
      Moves app s i req (.answer i response) (.route p) s.idempotency
        (.save p r)
  | executedUnkeyed (p : P) (response r : Response)
      (hr : r = (app.gate p req.method req.url).getD response)
      (hsuccess : r.success = true) (hkey : req.key = none) :
      Moves app s i req (.answer i response) (.route p) s.idempotency
        (.answered p r)
  | failed (p : P) (response r : Response)
      (hr : r = (app.gate p req.method req.url).getD response)
      (hsuccess : r.success = false) :
      Moves app s i req (.answer i response) (.route p) s.idempotency
        (.answered p r)
  | saved (p : P) (key : String) (r : Response) (hkey : req.key = some key) :
      Moves app s i req (.save i true) (.save p r)
        (update s.idempotency key (some ⟨r, s.now, s.now + app.ttlMs, i⟩))
        (.answered p r)
  | saveFailed (p : P) (key : String) (r : Response)
      (hkey : req.key = some key) :
      Moves app s i req (.save i false) (.save p r) s.idempotency
        (.answered p r)

/-- **What a step of the server is.** -/
theorem step_cases {app : App C P} {s s' : Server C P} {a : ServerAct C}
    (h : s.step app a = some s') :
    (∃ i req, a = .arrive i req ∧ s.requests i = none
      ∧ s' = { s with
          requests := update s.requests i (some (req, .auth))
          arrived := i :: s.arrived })
    ∨ (∃ i req pc rows pc', s.requests i = some (req, pc)
      ∧ Moves app s i req a pc rows pc'
      ∧ s' = { s with
          requests := update s.requests i (some (req, pc'))
          idempotency := rows })
    ∨ (a = .tick ∧ s' = { s with now := s.now + 1 }) := by
  cases a with
  | arrive i req =>
    simp only [step] at h
    split at h
    · cases h
    · next hi => exact .inl ⟨i, req, rfl, hi, (Option.some.inj h).symm⟩
  | hook i =>
    simp only [step] at h
    split at h
    · next req hi =>
      split at h
      · next r hr =>
        exact .inr (.inl ⟨i, req, _, _, _, hi, .authRefused r hr,
          (Option.some.inj h).symm⟩)
      · next p hp =>
        exact .inr (.inl ⟨i, req, _, _, _, hi, .authenticated p hp,
          (Option.some.inj h).symm⟩)
    · next req p hi =>
      split at h
      · next r hr =>
        exact .inr (.inl ⟨i, req, _, _, _, hi, .pinRefused p r hr,
          (Option.some.inj h).symm⟩)
      · next hpin =>
        split at h
        · next hkey =>
          exact .inr (.inl ⟨i, req, _, _, _, hi, .unkeyed p hpin hkey,
            (Option.some.inj h).symm⟩)
        · next key hkey =>
          exact .inr (.inl ⟨i, req, _, _, _, hi, .keyed p key hpin hkey,
            (Option.some.inj h).symm⟩)
    · cases h
  | load i =>
    simp only [step] at h
    split at h
    · next req p hi =>
      split at h
      · cases h
      · next key hkey =>
        split at h
        · next hrow =>
          exact .inr (.inl ⟨i, req, _, _, _, hi, .missed p key hkey hrow,
            (Option.some.inj h).symm⟩)
        · next row hrow =>
          split at h
          · next hnow =>
            exact .inr (.inl ⟨i, req, _, _, _, hi,
              .expired p key row hkey hrow hnow, (Option.some.inj h).symm⟩)
          · next hnow =>
            exact .inr (.inl ⟨i, req, _, _, _, hi,
              .found p key row hkey hrow hnow, (Option.some.inj h).symm⟩)
    · cases h
  | answer i response =>
    simp only [step] at h
    split at h
    · next req p hi =>
      split at h
      · next hsuccess =>
        split at h
        · next key hkey =>
          exact .inr (.inl ⟨i, req, _, _, _, hi,
            .executed p key response _ rfl hsuccess hkey,
            (Option.some.inj h).symm⟩)
        · next hkey =>
          exact .inr (.inl ⟨i, req, _, _, _, hi,
            .executedUnkeyed p response _ rfl hsuccess hkey,
            (Option.some.inj h).symm⟩)
      · next hsuccess =>
        exact .inr (.inl ⟨i, req, _, _, _, hi,
          .failed p response _ rfl (by simpa using hsuccess),
          (Option.some.inj h).symm⟩)
    · cases h
  | save i ok =>
    simp only [step] at h
    split at h
    · next req p r hi =>
      split at h
      · cases h
      · next key hkey =>
        cases ok with
        | true =>
          exact .inr (.inl ⟨i, req, _, _, _, hi, .saved p key r hkey,
            (Option.some.inj h).symm⟩)
        | false =>
          exact .inr (.inl ⟨i, req, _, _, _, hi, .saveFailed p key r hkey,
            (Option.some.inj h).symm⟩)
    · cases h
  | tick => exact .inr (.inr ⟨rfl, (Option.some.inj h).symm⟩)

end Server

/-! ## At most once

What is said of a key is said of the requests that carry it, by where each is.
`Keyed` is the invariant: one of them at most is between its load and its
save, and nothing is stored while it is. -/

namespace Server

variable {C P : Type}

/-- Request `i` carries the key, and is where `Q` says. -/
def At (s : Server C P) (key : String) (Q : RequestPc P → Prop) (i : ℕ) : Prop :=
  ∃ req pc, s.requests i = some (req, pc) ∧ req.key = some key ∧ Q pc

/-- Request `i`, of a key, is at its route or about to store its response. -/
def Executing (s : Server C P) (key : String) (i : ℕ) : Prop :=
  s.At key (fun pc => pc.executing = true) i

/-- **Request `i`, of a key, was executed** to a result of status 2xx. -/
def Executed (s : Server C P) (key : String) (i : ℕ) (r : Response) : Prop :=
  s.At key (fun pc => r.success = true
    ∧ ∃ p, pc = .save p r ∨ pc = .answered p r) i

/-- An error of its own is the reply to request `i`, of a key: a hook has
refused it, or its route has answered it without success. -/
def Failed (s : Server C P) (key : String) (i : ℕ) (r : Response) : Prop :=
  s.At key (fun pc => pc = .refused r
    ∨ r.success = false ∧ ∃ p, pc = .answered p r) i

/-- The reply to request `i`, of a key. -/
def Replied (s : Server C P) (key : String) (i : ℕ) (r : Response) : Prop :=
  s.At key (fun pc => pc = .refused r ∨ (∃ p, pc = .answered p r)
    ∨ ∃ p o, pc = .replayed p r o) i

/-- **At most once**, for a key. -/
structure AtMostOnce (s : Server C P) (key : String) : Prop where
  once : ∀ i j r r', s.Executed key i r → s.Executed key j r' → i = j
  /-- Every reply to the others carries the response. -/
  others : ∀ i r, s.Executed key i r → ∀ j r', j ≠ i → s.Replied key j r' →
    r'.status = r.status ∧ r'.body = r.body

/-- The request the step is about carries the key. -/
def carries (s : Server C P) (key : String) (i : ℕ) : Bool :=
  match s.requests i with
  | some (req, _) => req.key == some key
  | none => false

/-- The requests of a key come within the ttl of what is stored for it, and
storing a response does not fail. -/
def InTime (s : Server C P) (key : String) : ServerAct C → Prop
  | .load i => s.carries key i = true →
    (s.idempotency key).all (fun row => s.now < row.expiresAt) = true
  | .save i ok => s.carries key i = true → ok = true
  | _ => True

/-- Request `i` is at its route or about to store its response. -/
def executes (s : Server C P) (i : ℕ) : Bool :=
  ((s.requests i).map (fun x => x.snd.executing)).getD false

/-- **No two requests of a key are executed at the same time**: none loads
what is stored for the key while another is between its load and its save. -/
def Reserved (s : Server C P) (key : String) : ServerAct C → Prop
  | .load i => s.carries key i = true →
    ∀ j ∈ s.arrived, s.carries key j = true → s.executes j = false
  | _ => True

/-- **No request of a key is replied to with an error of its own.** -/
def Succeeds (s : Server C P) (app : App C P) (key : String) :
    ServerAct C → Prop
  | .hook i =>
    match s.requests i with
    | some (req, .auth) =>
      req.key = some key → (app.auth req.credentials).toOption.isSome = true
    | some (req, .pin _) =>
      req.key = some key → app.pin req.credentials = none
    | _ => True
  | .answer i response =>
    match s.requests i with
    | some (req, .route p) =>
      req.key = some key →
        ((app.gate p req.method req.url).getD response).success = true
    | _ => True
  | _ => True

instance (s : Server C P) (key : String) (a : ServerAct C) :
    Decidable (s.InTime key a) := by
  unfold InTime
  split <;> infer_instance

instance (s : Server C P) (key : String) (a : ServerAct C) :
    Decidable (s.Reserved key a) := by
  unfold Reserved
  split <;> infer_instance

instance (s : Server C P) (app : App C P) (key : String) (a : ServerAct C) :
    Decidable (s.Succeeds app key a) := by
  unfold Succeeds
  split <;> [split; split; skip] <;> infer_instance

/-- **The invariant of a key.** Between its load and its save a request leaves
no trace in storage, so the invariant has to follow it there: while one is
executed no other is, and nothing is stored that another might replay. -/
structure Keyed (s : Server C P) (key : String) : Prop where
  arrived : ∀ i, s.requests i ≠ none → i ∈ s.arrived
  /-- One request of the key is executed at a time. -/
  single : ∀ i j, s.Executing key i → s.Executing key j → i = j
  /-- While a request is executed nothing is stored. -/
  vacant : ∀ i, s.Executing key i → s.idempotency key = none
  /-- What was executed is about to be stored, or is. -/
  stored : ∀ i r, s.Executed key i r →
    s.Executing key i
      ∨ ∃ row, s.idempotency key = some row ∧ row.origin = i ∧ row.response = r
  /-- What was replayed is what is stored. -/
  replays : ∀ j r, s.At key (fun pc => ∃ p o, pc = .replayed p r o) j →
    ∃ row, s.idempotency key = some row ∧ row.response = r

/-- What is executed, in the invariant, is what is executed in the end. -/
theorem Keyed.once {s : Server C P} {key : String} (h : s.Keyed key) {i j : ℕ}
    {r r' : Response} (hi : s.Executed key i r) (hj : s.Executed key j r') :
    i = j := by
  rcases h.stored i r hi with hi | ⟨row, hrow, rfl, -⟩
  · rcases h.stored j r' hj with hj | ⟨row, hrow, -⟩
    · exact h.single i j hi hj
    · rw [h.vacant i hi] at hrow
      cases hrow
  · rcases h.stored j r' hj with hj | ⟨row', hrow', rfl, -⟩
    · rw [h.vacant j hj] at hrow
      cases hrow
    · rw [hrow, Option.some.injEq] at hrow'
      rw [hrow']

/-- **The reply to another request** is the response of the one that was
executed, or an error of its own. -/
theorem Keyed.others {s : Server C P} {key : String} (h : s.Keyed key) {i j : ℕ}
    {r r' : Response} (hi : s.Executed key i r) (hij : j ≠ i)
    (hj : s.Replied key j r') : r' = r ∨ s.Failed key j r' := by
  obtain ⟨req, pc, hreq, hkey, rfl | ⟨p, rfl⟩ | ⟨p, o, rfl⟩⟩ := hj
  · exact .inr ⟨req, _, hreq, hkey, .inl rfl⟩
  · by_cases hr : r'.success = true
    · exact absurd (h.once ⟨req, _, hreq, hkey, hr, p, .inr rfl⟩ hi) hij
    · exact .inr ⟨req, _, hreq, hkey, .inr ⟨by simpa using hr, p, rfl⟩⟩
  · obtain ⟨row, hrow, rfl⟩ := h.replays j r' ⟨req, _, hreq, hkey, p, o, rfl⟩
    rcases h.stored i r hi with hi | ⟨row', hrow', -, rfl⟩
    · rw [h.vacant i hi] at hrow
      cases hrow
    · rw [hrow, Option.some.injEq] at hrow'
      exact .inl (by rw [hrow'])

/-- Where another request is does not change. -/
theorem at_ne {s t : Server C P} {k : String} {i j : ℕ}
    {x : HttpRequest C × RequestPc P}
    (ht : t.requests = update s.requests i (some x)) (hij : j ≠ i)
    (Q : RequestPc P → Prop) : t.At k Q j ↔ s.At k Q j := by
  simp only [At, ht, Function.update_of_ne hij]

theorem at_iff {s : Server C P} {key : String} {Q : RequestPc P → Prop} {i : ℕ}
    {req : HttpRequest C} {pc : RequestPc P} (hi : s.requests i = some (req, pc)) :
    s.At key Q i ↔ req.key = some key ∧ Q pc := by
  simp only [At, hi, Option.some.injEq, Prod.mk.injEq]
  constructor
  · rintro ⟨_, _, ⟨rfl, rfl⟩, h⟩
    exact h
  · exact fun h => ⟨req, pc, ⟨rfl, rfl⟩, h⟩

theorem Keyed.init (key : String) : (init : Server C P).Keyed key := by
  refine ⟨fun _ h => absurd rfl h, ?_, ?_, ?_, ?_⟩ <;>
    simp [Executing, Executed, At, Server.init]

/-- **The requests of the key are where they were**, and what is stored for
it is unchanged. -/
theorem Keyed.frame {s t : Server C P} {key : String} (h : s.Keyed key)
    (harrived : ∀ i, t.requests i ≠ none → i ∈ t.arrived)
    (hrow : t.idempotency key = s.idempotency key)
    (hat : ∀ j, (t.Executing key j ↔ s.Executing key j)
      ∧ (∀ r, t.Executed key j r → s.Executed key j r)
      ∧ ∀ r, t.At key (fun pc => ∃ p o, pc = .replayed p r o) j →
          s.At key (fun pc => ∃ p o, pc = .replayed p r o) j
            ∨ ∃ row, s.idempotency key = some row ∧ row.response = r) :
    t.Keyed key where
  arrived := harrived
  single i j hi hj := h.single i j ((hat i).1.mp hi) ((hat j).1.mp hj)
  vacant i hi := hrow.trans (h.vacant i ((hat i).1.mp hi))
  stored i r hi := by
    rw [hrow, (hat i).1]
    exact h.stored i r ((hat i).2.1 r hi)
  replays j r hj := by
    rw [hrow]
    exact ((hat j).2.2 r hj).elim (h.replays j r) id

/-- Nothing is stored or forgotten for another key. -/
theorem Moves.rows_ne {app : App C P} {s : Server C P} {i : ℕ}
    {req : HttpRequest C} {a : ServerAct C} {pc pc' : RequestPc P}
    {rows : String → Option IdemRow} (hm : Moves app s i req a pc rows pc')
    {key : String} (hkey : req.key ≠ some key) :
    rows key = s.idempotency key := by
  cases hm with
  | expired p key' row hkey' =>
    refine Function.update_of_ne (fun h => hkey ?_) ..
    rw [h, hkey']
  | saved p key' r hkey' =>
    refine Function.update_of_ne (fun h => hkey ?_) ..
    rw [h, hkey']
  | _ => rfl

/-- The server with request `i` at `pc` and `rows` stored. -/
abbrev moved (s : Server C P) (i : ℕ) (req : HttpRequest C) (pc : RequestPc P)
    (rows : String → Option IdemRow) : Server C P :=
  { s with requests := update s.requests i (some (req, pc)), idempotency := rows }

section Moved

variable {s : Server C P} {key : String} {i : ℕ} {req : HttpRequest C}
  {pc pc' : RequestPc P} {rows : String → Option IdemRow}

theorem at_moved_ne {j : ℕ} (hij : j ≠ i) (Q : RequestPc P → Prop) :
    (s.moved i req pc' rows).At key Q j ↔ s.At key Q j :=
  at_ne (x := (req, pc')) rfl hij Q

theorem at_moved_self (hkey : req.key = some key) (Q : RequestPc P → Prop) :
    (s.moved i req pc' rows).At key Q i ↔ Q pc' :=
  (at_iff (Function.update_self ..)).trans (and_iff_right hkey)

theorem Keyed.arrived_moved (h : s.Keyed key) (hi : s.requests i = some (req, pc))
    (j : ℕ) (hj : (s.moved i req pc' rows).requests j ≠ none) :
    j ∈ (s.moved i req pc' rows).arrived := by
  by_cases hji : j = i
  · exact hji ▸ h.arrived i (by simp [hi])
  · exact h.arrived j (by simpa [Function.update_of_ne hji] using hj)

/-- What the others replay is still what is stored, if the row is. -/
theorem Keyed.replays_moved (h : s.Keyed key) (hkey : req.key = some key)
    (hrow : rows key = s.idempotency key) (hpc : ∀ p r o, pc' ≠ .replayed p r o)
    (j : ℕ) (r : Response)
    (hj : (s.moved i req pc' rows).At key (fun pc => ∃ p o, pc = .replayed p r o) j) :
    ∃ row, rows key = some row ∧ row.response = r := by
  by_cases hji : j = i
  · obtain ⟨q, o, hq⟩ := (at_moved_self hkey _).mp (hji ▸ hj)
    exact absurd hq (hpc q r o)
  · rw [hrow]
    exact h.replays j r ((at_moved_ne hji _).mp hj)

/-- **A request that has nothing to do with what is stored** goes on: it is
executed as before, it has no new result, and what it replays is stored. -/
theorem Keyed.moved_quiet (h : s.Keyed key) (hi : s.requests i = some (req, pc))
    (hkey : req.key = some key) (he : pc'.executing = pc.executing)
    (hx : ∀ r p, r.success = true → pc' = .save p r ∨ pc' = .answered p r →
      pc = .save p r)
    (hp : ∀ r p o, pc' = .replayed p r o →
      ∃ row, s.idempotency key = some row ∧ row.response = r) :
    (s.moved i req pc' s.idempotency).Keyed key := by
  refine h.frame (h.arrived_moved hi) rfl (fun j => ?_)
  by_cases hji : j = i
  · subst hji
    refine ⟨?_, fun r hj => ?_, fun r hj => ?_⟩
    · rw [Executing, Executing, at_moved_self hkey, at_iff hi, he, and_iff_right hkey]
    · obtain ⟨hr, p, hj⟩ := (at_moved_self hkey _).mp hj
      exact (at_iff hi).mpr ⟨hkey, hr, p, .inl (hx r p hr hj)⟩
    · obtain ⟨p, o, hj⟩ := (at_moved_self hkey _).mp hj
      exact .inr (hp r p o hj)
  · exact ⟨at_moved_ne hji _, fun r => (at_moved_ne hji _).mp,
      fun r hj => .inl ((at_moved_ne hji _).mp hj)⟩

/-- **A request misses the store**: nothing is stored for the key, and no other
request of the key is executed. From here on it is the one that is. -/
theorem Keyed.moved_missed (h : s.Keyed key) (hi : s.requests i = some (req, pc))
    (hkey : req.key = some key) (hrow : s.idempotency key = none)
    (hfree : ∀ j, ¬s.Executing key j) (p : P) :
    (s.moved i req (.route p) s.idempotency).Keyed key := by
  have honly : ∀ j, (s.moved i req (.route p) s.idempotency).Executing key j →
      j = i := by
    intro j hj
    by_contra hji
    exact hfree j ((at_moved_ne hji _).mp hj)
  refine ⟨h.arrived_moved hi, fun j k hj hk => (honly j hj).trans (honly k hk).symm,
    fun j _ => hrow, fun j r hj => ?_, h.replays_moved hkey rfl (by simp)⟩
  by_cases hji : j = i
  · subst hji
    obtain ⟨-, q, hq | hq⟩ := (at_moved_self hkey _).mp hj <;> cases hq
  · rcases h.stored j r ((at_moved_ne hji _).mp hj) with hj | ⟨row, hsome, -⟩
    · exact absurd hj (hfree j)
    · rw [hrow] at hsome
      cases hsome

/-- **The route has answered with success**: the request is still the one that is
executed, and its response is about to be stored. -/
theorem Keyed.moved_executed {p : P} (h : s.Keyed key)
    (hi : s.requests i = some (req, .route p)) (hkey : req.key = some key)
    (r : Response) : (s.moved i req (.save p r) s.idempotency).Keyed key := by
  have hexec : ∀ j, (s.moved i req (.save p r) s.idempotency).Executing key j ↔
      s.Executing key j := by
    intro j
    by_cases hji : j = i
    · subst hji
      rw [Executing, Executing, at_moved_self hkey, at_iff hi, and_iff_right hkey]
      rfl
    · exact at_moved_ne hji _
  refine ⟨h.arrived_moved hi,
    fun j k hj hk => h.single j k ((hexec j).mp hj) ((hexec k).mp hk),
    fun j hj => h.vacant j ((hexec j).mp hj), fun j r hj => ?_,
    h.replays_moved hkey rfl (by simp)⟩
  rw [hexec]
  by_cases hji : j = i
  · exact .inl (hji ▸ (at_iff hi).mpr ⟨hkey, rfl⟩)
  · exact h.stored j r ((at_moved_ne hji _).mp hj)

/-- **The route has answered without success**: nothing is stored, and the key
is free for a request that comes later. -/
theorem Keyed.moved_failed (h : s.Keyed key) (hi : s.requests i = some (req, pc))
    (hkey : req.key = some key) (p : P) {r : Response} (hfailed : r.success = false) :
    (s.moved i req (.answered p r) s.idempotency).Keyed key := by
  have hexec : ∀ j, (s.moved i req (.answered p r) s.idempotency).Executing key j →
      j ≠ i ∧ s.Executing key j := by
    intro j hj
    by_cases hji : j = i
    · subst hji
      cases (at_moved_self hkey _).mp hj
    · exact ⟨hji, (at_moved_ne hji _).mp hj⟩
  have hother : ∀ j r',
      (s.moved i req (.answered p r) s.idempotency).Executed key j r' →
      j ≠ i ∧ s.Executed key j r' := by
    intro j r' hj
    by_cases hji : j = i
    · subst hji
      obtain ⟨hr', q, hq | hq⟩ := (at_moved_self hkey _).mp hj
      · cases hq
      · cases hq
        rw [hfailed] at hr'
        cases hr'
    · exact ⟨hji, (at_moved_ne hji _).mp hj⟩
  refine ⟨h.arrived_moved hi,
    fun j k hj hk => h.single j k (hexec j hj).2 (hexec k hk).2,
    fun j hj => h.vacant j (hexec j hj).2, fun j r' hj => ?_,
    h.replays_moved hkey rfl (by simp)⟩
  obtain ⟨hji, hj⟩ := hother j r' hj
  rw [Executing, at_moved_ne hji]
  exact h.stored j r' hj

/-- **The response is stored**: the request was the one that is executed, so
nothing was stored before, and none is executed now. -/
theorem Keyed.moved_saved {p : P} {r : Response} (h : s.Keyed key)
    (hi : s.requests i = some (req, .save p r)) (hkey : req.key = some key)
    {row : IdemRow} (horigin : row.origin = i) (hresponse : row.response = r) :
    (s.moved i req (.answered p r)
      (update s.idempotency key (some row))).Keyed key := by
  have hexec : s.Executing key i := (at_iff hi).mpr ⟨hkey, rfl⟩
  have hnone := h.vacant i hexec
  have hfree : ∀ j, ¬(s.moved i req (.answered p r)
      (update s.idempotency key (some row))).Executing key j := by
    intro j hj
    by_cases hji : j = i
    · subst hji
      cases (at_moved_self hkey _).mp hj
    · exact hji (h.single j i ((at_moved_ne hji _).mp hj) hexec)
  refine ⟨h.arrived_moved hi, fun j k hj _ => absurd hj (hfree j),
    fun j hj => absurd hj (hfree j), fun j r' hj => .inr ?_, fun j r' hj => ?_⟩
  · by_cases hji : j = i
    · subst hji
      obtain ⟨-, q, hq | hq⟩ := (at_moved_self hkey _).mp hj
      · cases hq
      · obtain rfl := (RequestPc.answered.inj hq).2
        exact ⟨row, Function.update_self .., horigin, hresponse⟩
    · rcases h.stored j r' ((at_moved_ne hji _).mp hj) with hj | ⟨row', hrow, -⟩
      · exact absurd (h.single j i hj hexec) hji
      · rw [hnone] at hrow
        cases hrow
  · by_cases hji : j = i
    · subst hji
      obtain ⟨q, o, hq⟩ := (at_moved_self hkey _).mp hj
      cases hq
    · obtain ⟨row', hrow, -⟩ := h.replays j r' ((at_moved_ne hji _).mp hj)
      rw [hnone] at hrow
      cases hrow

end Moved

/-- **No other request of the key is executed** while one loads what is stored. -/
theorem Keyed.free_of_reserved {s : Server C P} {key : String} {i : ℕ}
    (h : s.Keyed key) (hR : s.Reserved key (.load i))
    (hcarries : s.carries key i = true) (j : ℕ) : ¬s.Executing key j := by
  rintro ⟨q, pc, hj, hq, hpc⟩
  have := hR hcarries j (h.arrived j (by simp [hj])) (by simp [carries, hj, hq])
  rw [executes, hj, Option.map_some, Option.getD_some, hpc] at this
  cases this

/-- **A request of the key moves.** -/
theorem Keyed.moves {app : App C P} {s : Server C P} {key : String} {i : ℕ}
    {req : HttpRequest C} {a : ServerAct C} {pc pc' : RequestPc P}
    {rows : String → Option IdemRow} (h : s.Keyed key) (hT : s.InTime key a)
    (hR : s.Reserved key a) (hi : s.requests i = some (req, pc))
    (hkey : req.key = some key) (hm : Moves app s i req a pc rows pc') :
    Keyed { s with
      requests := update s.requests i (some (req, pc')), idempotency := rows }
      key := by
  have hcarries : s.carries key i = true := by simp [carries, hi, hkey]
  cases hm with
  | authRefused r => exact h.moved_quiet hi hkey rfl (by simp) (by simp)
  | authenticated p => exact h.moved_quiet hi hkey rfl (by simp) (by simp)
  | pinRefused p r => exact h.moved_quiet hi hkey rfl (by simp) (by simp)
  | keyed p key' => exact h.moved_quiet hi hkey rfl (by simp) (by simp)
  | missed p key' hkey' hrow =>
    obtain rfl : key' = key := by simpa [hkey'] using hkey
    exact h.moved_missed hi hkey hrow (h.free_of_reserved hR hcarries) p
  | expired p key' row hkey' hrow hnow =>
    -- the request comes within the ttl of what is stored
    obtain rfl : key' = key := by simpa [hkey'] using hkey
    have := hT hcarries
    rw [hrow, Option.all_some, decide_eq_true_eq] at this
    exact absurd hnow (Nat.not_le.mpr this)
  | found p key' row hkey' hrow hnow =>
    obtain rfl : key' = key := by simpa [hkey'] using hkey
    refine h.moved_quiet hi hkey rfl (by simp) (fun r q o hr => ⟨row, hrow, ?_⟩)
    exact (RequestPc.replayed.inj hr).2.1
  | executed p key' response r hr hsuccess hkey' => exact h.moved_executed hi hkey r
  | failed p response r _ hfailed => exact h.moved_failed hi hkey p hfailed
  | saved p key' r hkey' =>
    obtain rfl : key' = key := by simpa [hkey'] using hkey
    exact h.moved_saved hi hkey rfl rfl
  | saveFailed p key' r hkey' => exact absurd (hT hcarries) (by simp)
  -- the request carries a key
  | unkeyed p _ hnokey => rw [hkey] at hnokey; cases hnokey
  | executedUnkeyed p response r _ _ hnokey => rw [hkey] at hnokey; cases hnokey

/-- **One step keeps the key.** -/
theorem Keyed.step {app : App C P} {s s' : Server C P} {key : String}
    {a : ServerAct C} (h : s.Keyed key) (hT : s.InTime key a)
    (hR : s.Reserved key a) (hs : s.step app a = some s') : s'.Keyed key := by
  rcases step_cases hs with ⟨i, req, rfl, hi, rfl⟩
    | ⟨i, req, pc, rows, pc', hi, hm, rfl⟩ | ⟨rfl, rfl⟩
  · -- a request arrives
    refine h.frame (fun j hj => ?_) rfl (fun j => ?_)
    · by_cases hji : j = i
      · exact hji ▸ List.mem_cons_self
      · exact List.mem_cons_of_mem _
          (h.arrived j (by simpa [Function.update_of_ne hji] using hj))
    · by_cases hji : j = i
      · subst hji
        simp [Executing, Executed, At, hi, RequestPc.executing]
      · have hne := at_ne (s := s) (k := key) (rfl :
          ({ s with
            requests := update s.requests i (some (req, RequestPc.auth))
            arrived := i :: s.arrived } : Server C P).requests = _) hji
        exact ⟨hne _, fun r => (hne _).mp, fun r hj => .inl ((hne _).mp hj)⟩
  · by_cases hkey : req.key = some key
    · exact h.moves hT hR hi hkey hm
    · -- a request of another key, or none
      refine h.frame (fun j hj => ?_) (hm.rows_ne hkey) (fun j => ?_)
      · by_cases hji : j = i
        · exact hji ▸ h.arrived i (by simp [hi])
        · exact h.arrived j (by simpa [Function.update_of_ne hji] using hj)
      · by_cases hji : j = i
        · subst hji
          simp [Executing, Executed, At, hi, hkey]
        · have hne := at_ne (s := s) (k := key) (rfl :
            ({ s with
              requests := update s.requests i (some (req, pc'))
              idempotency := rows } : Server C P).requests = _) hji
          exact ⟨hne _, fun r => (hne _).mp, fun r hj => .inl ((hne _).mp hj)⟩
  · exact ⟨h.arrived, h.single, h.vacant, h.stored, h.replays⟩

/-- No request of the key has an error of its own. -/
structure Untroubled (s : Server C P) (key : String) : Prop where
  failed : ∀ i r, ¬s.Failed key i r
  saves : ∀ i p r, s.At key (fun pc => pc = .save p r) i → r.success = true

theorem Untroubled.init (key : String) : (init : Server C P).Untroubled key := by
  refine ⟨?_, ?_⟩ <;> simp [Failed, At, Server.init]

/-- **One step makes no trouble** if no hook refuses and no route fails. -/
theorem Untroubled.step {app : App C P} {s s' : Server C P} {key : String}
    {a : ServerAct C} (h : s.Untroubled key) (hG : s.Succeeds app key a)
    (hs : s.step app a = some s') : s'.Untroubled key := by
  rcases step_cases hs with ⟨i, req, rfl, hi, rfl⟩
    | ⟨i, req, pc, rows, pc', hi, hm, rfl⟩ | ⟨rfl, rfl⟩
  · refine ⟨fun j r hj => ?_, fun j p r hj => ?_⟩ <;> by_cases hji : j = i
    · subst hji
      obtain ⟨-, hj | ⟨-, p, hj⟩⟩ := (at_iff (Function.update_self ..)).mp hj
        <;> cases hj
    · exact h.failed j r ((at_ne rfl hji _).mp hj)
    · subst hji
      cases ((at_iff (Function.update_self ..)).mp hj).2
    · exact h.saves j p r ((at_ne rfl hji _).mp hj)
  · simp only [Succeeds] at hG
    refine ⟨fun j r hj => ?_, fun j p r hj => ?_⟩ <;> by_cases hji : j = i
    · subst hji
      obtain ⟨hkey, hself⟩ := (at_iff (Function.update_self ..)).mp hj
      cases hm with
      | authRefused q hq => simp [hi, hq, hkey, Except.toOption] at hG
      | pinRefused p q hq => simp [hi, hq, hkey] at hG
      | executedUnkeyed p _ q _ _ hnokey => rw [hkey] at hnokey; cases hnokey
      | failed p response q hr hfailed =>
        simp only [hi] at hG
        rw [← hr, hfailed] at hG
        exact absurd (hG hkey) (by simp)
      | saved p _ q =>
        have hq := h.saves j p q ((at_iff hi).mpr ⟨hkey, rfl⟩)
        rcases hself with hself | ⟨hr, p', hself⟩ <;> cases hself
        rw [hq] at hr
        cases hr
      | saveFailed p _ q =>
        have hq := h.saves j p q ((at_iff hi).mpr ⟨hkey, rfl⟩)
        rcases hself with hself | ⟨hr, p', hself⟩ <;> cases hself
        rw [hq] at hr
        cases hr
      | _ => rcases hself with hself | ⟨-, p', hself⟩ <;> cases hself
    · exact h.failed j r ((at_ne rfl hji _).mp hj)
    · subst hji
      have hself := ((at_iff (Function.update_self ..)).mp hj).2
      cases hm with
      | executed p _ _ q _ hsuccess => cases hself; exact hsuccess
      | _ => cases hself
    · exact h.saves j p r ((at_ne rfl hji _).mp hj)
  · exact ⟨h.failed, h.saves⟩

end Server

/-- **At most once.** In every run in which the requests of a key come within
the ttl, what is stored is stored, and no two of them are executed at the
same time, one at most is executed to a result of status 2xx. The reply to
each other is its response, or an error of its own: it is the response if no
request of the key has such an error. -/
theorem idempotency_at_most_once {C P : Type} (app : App C P) (key : String)
    (xs : List (ServerAct C)) (s : Server C P)
    (hrun : run (Server.step app) .init xs = some s)
    (hT : Along (Server.step app) (fun s a => s.InTime key a) .init xs)
    (hR : Along (Server.step app) (fun s a => s.Reserved key a) .init xs) :
    (∀ i j r r', s.Executed key i r → s.Executed key j r' → i = j)
    ∧ (∀ i r, s.Executed key i r → ∀ j r', j ≠ i → s.Replied key j r' →
        r' = r ∨ s.Failed key j r')
    ∧ (Along (Server.step app) (fun s a => s.Succeeds app key a) .init xs →
        s.AtMostOnce key) := by
  have h : s.Keyed key :=
    run_invariant (P := fun t : Server C P => t.Keyed key) _
      (fun _ _ _ h hG hs => h.step hG.1 hG.2 hs) (Server.Keyed.init key)
      (hT.and _ hR) hrun
  refine ⟨fun i j r r' hi hj => h.once hi hj,
    fun i r hi j r' hij hj => h.others hi hij hj,
    fun hS => ⟨fun i j r r' hi hj => h.once hi hj, fun i r hi j r' hij hj => ?_⟩⟩
  have hu : s.Untroubled key :=
    run_invariant (P := fun t : Server C P => t.Untroubled key) _
      (fun _ _ _ h hG hs => h.step hG hs) (Server.Untroubled.init key) hS hrun
  rcases h.others hi hij hj with rfl | hf
  · exact ⟨rfl, rfl⟩
  · exact absurd hf (hu.failed j r')

/-! ## An order

An operator who places two orders under one key: one after the other, which is
fine, and one beside the other, which executes both. -/

namespace Order

/-- A server at which everyone may order. -/
def app : App Unit Unit where
  auth := fun _ => .ok ()
  pin := fun _ => none
  gate := fun _ _ _ => none
  gate_refuses := by simp
  ttlMs := 10

/-- An order is placed, and retried under the same key. -/
def request : HttpRequest Unit :=
  ⟨"POST", "/v1/actors/Cart/1/order", (), some "retry-1"⟩

/-- Order number `n`. -/
def placed (n : ℕ) : Response :=
  ⟨201, if n = 1 then "first" else "second", "application/json"⟩

/-- Request `i` arrives, and passes the hooks before the one that loads. -/
def arriving (i : ℕ) : List (ServerAct Unit) :=
  [.arrive i request, .hook i, .hook i]

end Order

/-- The theorem applies to a retry that comes after the first order was
stored. -/
theorem idempotency_at_most_once_order :
    ∃ s, run (Server.step Order.app) .init
        (Order.arriving 1 ++ Order.arriving 2
          ++ [.load 1, .answer 1 (Order.placed 1), .save 1 true, .tick,
            .load 2]) = some s
      ∧ (∃ req, s.requests 2
          = some (req, .replayed () (Order.placed 1) 1))
      ∧ s.AtMostOnce "retry-1" := by
  have hrun : (run (Server.step Order.app) .init
      (Order.arriving 1 ++ Order.arriving 2
        ++ [.load 1, .answer 1 (Order.placed 1), .save 1 true, .tick,
          .load 2])).any
      (fun s => (s.requests 2).any
        (fun x => x.snd == .replayed () (Order.placed 1) 1)) = true := by decide
  obtain ⟨s, hs, hr⟩ := (Option.any_eq_true _ _).mp hrun
  obtain ⟨x, hx, hpc⟩ := (Option.any_eq_true _ _).mp hr
  refine ⟨s, hs, ⟨x.fst, ?_⟩, ?_⟩
  · rw [hx, ← eq_of_beq hpc]
  · exact (idempotency_at_most_once Order.app "retry-1" _ s hs (by decide)
      (by decide)).2.2 (by decide)

/-- **Two requests load before either has stored its response**: both are
executed, and two orders are placed. -/
theorem not_idempotency_at_most_once :
    ¬∀ (xs : List (ServerAct Unit)) (s : Server Unit Unit),
      run (Server.step Order.app) .init xs = some s →
      Along (Server.step Order.app) (fun s a => s.InTime "retry-1" a) .init xs →
      s.AtMostOnce "retry-1" := by
  intro h
  have hrun : (run (Server.step Order.app) .init
      (Order.arriving 1 ++ Order.arriving 2
        ++ [.load 1, .load 2, .answer 1 (Order.placed 1),
          .answer 2 (Order.placed 2)])).map
      (fun s => (s.requests 1, s.requests 2))
      = some (some (Order.request, .save () (Order.placed 1)),
        some (Order.request, .save () (Order.placed 2))) := rfl
  obtain ⟨s, hs, hr⟩ := Option.map_eq_some_iff.mp hrun
  rw [Prod.mk.injEq] at hr
  have hone : s.Executed "retry-1" 1 (Order.placed 1) :=
    ⟨_, _, hr.1, by decide, by decide, (), .inl rfl⟩
  have htwo : s.Executed "retry-1" 2 (Order.placed 2) :=
    ⟨_, _, hr.2, by decide, by decide, (), .inl rfl⟩
  exact absurd ((h _ s hs (by decide)).once 1 2 _ _ hone htwo) (by decide)
