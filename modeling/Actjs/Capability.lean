import Mathlib.Data.List.Basic
import Mathlib.Data.Nat.Notation
import Actjs.Json
import Actjs.Storage

/-!
# Capability tokens

A capability is a signed grant: its `sub` names the actor it is bound to,
its `mth` the methods it covers. A request that presents one is
authenticated as a principal made of the two, and then takes the path of any
other request: the method route or a WebSocket frame, `Runtime.call`, the
static policy of the class if there is one, and the handler.

`methodAllowed` and `subjectMatches`, which say what a grant covers, are on
neither path. What keeps a capability to its scope is the static policy of
the class that is named in the request, and nothing else.
-/

/-! ## Principals and grants -/

/-- Who a request is made by. -/
structure Principal where
  sub : String
  roles : Option (List String)
  tenant : Option String
  capabilities : Option (List String)
  claims : Option (List (String × Json))

def anonymousPrincipal : Principal := ⟨"anonymous", some [], none, none, none⟩

/-- The principal no policy is asked about. -/
def isSystem (p : Principal) : Bool := p.sub == "system"

/-- What a capability token says once it is verified. -/
structure CapabilityClaims where
  iss : String
  sub : String
  aud : Option String
  mth : List String
  exp : ℕ
  nbf : Option ℕ
  jti : String

/-- The `mth` claim covers a call of `method`. -/
def methodAllowed (claims : CapabilityClaims) (method : String) : Bool :=
  claims.mth.contains method || claims.mth.contains ("call:" ++ method)

/-- The `sub` claim binds the grant to an actor. -/
def subjectMatches (claims : CapabilityClaims) (className : ClassName)
    (actorId : ActorId) : Bool :=
  claims.sub == className ++ ":" ++ actorId

/-- A method as a capability of the principal: `call:name`. -/
def callCapability (m : String) : String :=
  if "call:".toList.isPrefixOf m.toList then m else "call:" ++ m

/-- The principal of a verified capability. -/
def capabilityPrincipal (claims : CapabilityClaims) : Principal where
  sub := "cap:" ++ claims.sub
  roles := some []
  tenant := none
  capabilities := some (claims.mth.map callCapability)
  claims := some
    ([("iss", .str claims.iss), ("jti", .str claims.jti), ("exp", .num claims.exp)]
      ++ match claims.aud with
        | some aud => if aud = "" then [] else [("aud", .str aud)]
        | none => [])

/-! ## The auth hook -/

/-- What the auth hook reads of a request: the token that
`parseCapabilityHeader` finds, and what the operator's hook reads. -/
structure AuthRequest (C : Type) where
  capabilityToken : Option String
  credentials : C

/-- The options of the auth hook. What an operator provides may throw. -/
structure AuthHookOptions (C : Type) where
  auth : Option (C → Except String (Option Principal))
  requireAuth : Bool
  /-- `verifyCapability`, with the key of the issuer, the blocklist and the
  clock. -/
  capability : Option (String → Except String CapabilityClaims)

/-- **The auth hook**: a capability comes before whatever else a request
presents. -/
def authHook {C : Type} (options : AuthHookOptions C) (req : AuthRequest C) :
    Except String Principal :=
  match options.capability, req.capabilityToken with
  | some verify, some token =>
    match verify token with
    | .error e => .error e
    | .ok claims => .ok (capabilityPrincipal claims)
  | _, _ =>
    match options.auth with
    | none => .ok anonymousPrincipal
    | some auth =>
      match auth req.credentials with
      | .error e => .error ("auth hook threw: " ++ e)
      | .ok (some p) => .ok p
      | .ok none =>
        if options.requireAuth then .error "authentication required"
        else .ok anonymousPrincipal

/-! ## Policies -/

/-- The reference of an actor, with the class the request names. -/
structure ActorRef where
  cls : ClassName
  id : ActorId
  version : Version

/-- What a policy is shown of an actor. -/
structure PolicyActor where
  ref : ActorRef
  state : Json

/-- What a principal is about to do. -/
inductive PolicyAction where
  | call (method : String) (args : Json) (actor : PolicyActor)
  | read (actor : PolicyActor)
  | create (args : Json)
  | destroy (actor : PolicyActor)

/-- What a policy returns. -/
inductive PolicyDecision where
  | allow
  | deny
  | decided (allow : Bool) (reason : Option String)

/-- A static policy, which may throw. -/
abbrev PolicyFn := Principal → PolicyAction → Except String PolicyDecision

/-- The policy of a class that declares none. -/
def defaultPolicy (_ : Principal) (_ : PolicyAction) : PolicyDecision := .allow

def normalizeDecision : PolicyDecision → Bool × Option String
  | .allow => (true, none)
  | .deny => (false, none)
  | .decided allow reason => (allow, reason)

def evaluatePolicy (policy : Option PolicyFn) (p : Principal)
    (action : PolicyAction) : Bool × Option String :=
  match policy with
  | some fn =>
    match fn p action with
    | .error message => (false, some ("policy threw: " ++ message))
    | .ok raw => normalizeDecision raw
  | none => normalizeDecision (defaultPolicy p action)

/-! ## The runtime -/

/-- A class, as far as a call is concerned. -/
structure RegisteredClass where
  version : Version
  policy : Option PolicyFn
  /-- Its handlers, by name. -/
  handles : String → Bool

/-- A host that is returned for a call. -/
structure LiveHost where
  className : ClassName
  version : Version
  /-- `currentState()`. -/
  state : Json
  /-- The handlers of its class. -/
  handles : String → Bool
  /-- Whether its mailbox takes a call. -/
  accepts : Bool

/-- **What a call meets**: the registered classes, the hosts of the
directory, and what an activation would come to. -/
structure CallRuntime where
  classes : ClassName → Option RegisteredClass
  hosts : ActorId → Option LiveHost
  /-- The state and readiness of a host once it is activated, if it is. -/
  activate : ActorId → ClassName → Option (Json × Bool)
  /-- The rate limiter lets the principal through. -/
  rateLimit : Principal → Bool

/-- Why a call is rejected. -/
inductive CallError where
  | invalidParams
  | rateLimited
  | unknownClass
  | activationFailed
  | policyDenied (reason : String)
  | mailboxFull
  | noHandler

/-- A handler that was executed. -/
structure Execution where
  className : ClassName
  id : ActorId
  method : String
  args : Json

namespace CallRuntime

/-- `Directory.resolve`: the host that is cached under the id, or a fresh
one. -/
def resolve (rt : CallRuntime) (id : ActorId) (className : ClassName) :
    Except CallError LiveHost :=
  match rt.hosts id with
  | some host => .ok host
  | none =>
    match rt.classes className with
    | none => .error .unknownClass
    | some cls =>
      match rt.activate id className with
      | none => .error .activationFailed
      | some (state, accepts) =>
        .ok ⟨className, cls.version, state, cls.handles, accepts⟩

/-- `checkPolicy`. A class that is not registered passes. -/
def checkPolicy (rt : CallRuntime) (className : ClassName) (p : Principal)
    (action : PolicyAction) : Except CallError Unit :=
  match rt.classes className with
  | none => .ok ()
  | some cls =>
    if isSystem p = true then .ok ()
    else
      let decision := evaluatePolicy cls.policy p action
      if decision.fst = true then .ok ()
      else .error (.policyDenied (decision.snd.getD "policy denied"))

/-- The action a policy is asked about. -/
def callAction (className : ClassName) (id : ActorId) (method : String)
    (args : Json) (host : LiveHost) : PolicyAction :=
  .call method args ⟨⟨className, id, host.version⟩, host.state⟩

/-- `ActorHost.call`, up to the handler. -/
def hostCall (host : LiveHost) (id : ActorId) (method : String) (args : Json) :
    Except CallError Execution :=
  if host.accepts = false then .error .mailboxFull
  else if host.handles method = false then .error .noHandler
  else .ok ⟨host.className, id, method, args⟩

/-- **`Runtime.call`.** -/
def call (rt : CallRuntime) (className : ClassName) (id : ActorId)
    (method : String) (args : Json) (p : Principal) :
    Except CallError Execution :=
  if rt.rateLimit p = false then .error .rateLimited
  else
    match rt.resolve id className with
    | .error e => .error e
    | .ok host =>
      match rt.checkPolicy className p (callAction className id method args host) with
      | .error e => .error e
      | .ok () => hostCall host id method args

end CallRuntime

/-! ## The two paths to a handler

The method route and the frame of a WebSocket read the target from different
places, check its name, and make the same call. -/

/-- **A request that is to invoke a handler**: the method route, or an
`actor.call` frame of a WebSocket whose upgrade was authenticated. -/
inductive Invocation where
  | rest (className id method : String) (body : Option Json)
  | ws (className id method : String) (args : Option Json)

namespace Invocation

def className : Invocation → ClassName
  | rest c _ _ _ => c
  | ws c _ _ _ => c

def id : Invocation → ActorId
  | rest _ i _ _ => i
  | ws _ i _ _ => i

def method : Invocation → String
  | rest _ _ m _ => m
  | ws _ _ m _ => m

/-- `req.body ?? {}`, and `p['args'] ?? {}`. -/
def args : Invocation → Json
  | rest _ _ _ body => body.getD (.obj [])
  | ws _ _ _ args => args.getD (.obj [])

/-- `/^[A-Za-z_][A-Za-z0-9_]*$/`. -/
def validName (s : String) : Bool :=
  match s.toList with
  | [] => false
  | c :: cs => (c.isAlpha || c == '_') && cs.all (fun c => c.isAlphanum || c == '_')

/-- `MethodParam`, and `validateActorCallParams`, which asks for strings
alone. -/
def valid : Invocation → Bool
  | rest c i m _ => validName c && i != "" && validName m
  | ws _ _ _ _ => true

/-- **An invocation is served**: its parameters are validated, and the call
is made in the name of the principal. -/
def serve (inv : Invocation) (rt : CallRuntime) (p : Principal) :
    Except CallError Execution :=
  if inv.valid = false then .error .invalidParams
  else rt.call inv.className inv.id inv.method inv.args p

end Invocation

/-- A request is authenticated, and the invocation it makes, or that a frame
of its WebSocket makes, is served. -/
def serveRequest {C : Type} (options : AuthHookOptions C) (rt : CallRuntime)
    (req : AuthRequest C) (inv : Invocation) :
    Except String (Except CallError Execution) :=
  (authHook options req).map (fun p => inv.serve rt p)

/-! ## What keeps a capability to its scope

What reaches a handler on either path, whatever the target: a call within the
scope of the capability, or one that no static policy has denied. -/

/-- The request is authenticated by a capability. -/
def AuthenticatedBy {C : Type} (options : AuthHookOptions C)
    (req : AuthRequest C) (claims : CapabilityClaims) : Prop :=
  ∃ verify token, options.capability = some verify
    ∧ req.capabilityToken = some token ∧ verify token = .ok claims

/-- **The scope of a capability**: the target is the actor it is bound to,
and the method is covered. -/
def InScope (claims : CapabilityClaims) (inv : Invocation) : Prop :=
  subjectMatches claims inv.className inv.id = true
    ∧ methodAllowed claims inv.method = true

/-- The invocation would reach a handler of the host, but for a policy. -/
structure ReachesHost (rt : CallRuntime) (p : Principal) (inv : Invocation)
    (host : LiveHost) : Prop where
  valid : inv.valid = true
  admitted : rt.rateLimit p = true
  resolved : rt.resolve inv.id inv.className = .ok host
  accepts : host.accepts = true
  handles : host.handles inv.method = true

/-- **The static policy denies the call**: the class the request names is
registered, declares a policy, and the policy denies or throws. -/
def PolicyDenies (rt : CallRuntime) (p : Principal) (inv : Invocation)
    (host : LiveHost) : Prop :=
  ∃ cls policy, rt.classes inv.className = some cls ∧ cls.policy = some policy
    ∧ (evaluatePolicy (some policy) p
        (CallRuntime.callAction inv.className inv.id inv.method inv.args host)).fst
      = false

/-- A capability is asked about like anyone else. -/
theorem isSystem_capabilityPrincipal (claims : CapabilityClaims) :
    isSystem (capabilityPrincipal claims) = false := by
  rw [isSystem, beq_eq_false_iff_ne]
  intro h
  have hlist := congrArg String.toList h
  rw [show (capabilityPrincipal claims).sub = "cap:" ++ claims.sub from rfl,
    String.toList_append] at hlist
  have hhead : some 'c' = some 's' := congrArg List.head? hlist
  exact absurd hhead (by decide)

/-- A capability comes before what else the request presents. -/
theorem authHook_capability {C : Type} {options : AuthHookOptions C}
    {req : AuthRequest C} {claims : CapabilityClaims}
    (h : AuthenticatedBy options req claims) :
    authHook options req = .ok (capabilityPrincipal claims) := by
  obtain ⟨verify, token, hoptions, htoken, hverify⟩ := h
  simp only [authHook, hoptions, htoken, hverify]

/-- A policy is passed unless a static one denies. -/
theorem checkPolicy_ok_iff {rt : CallRuntime} {p : Principal} {inv : Invocation}
    {host : LiveHost} (hp : isSystem p = false) :
    rt.checkPolicy inv.className p
        (CallRuntime.callAction inv.className inv.id inv.method inv.args host)
      = .ok () ↔ ¬PolicyDenies rt p inv host := by
  unfold CallRuntime.checkPolicy PolicyDenies
  cases hcls : rt.classes inv.className with
  | none => simp
  | some cls =>
    cases hpolicy : cls.policy with
    | none => simp [hp, hpolicy, evaluatePolicy, normalizeDecision, defaultPolicy]
    | some policy => simp [hp, hpolicy]

/-- **What executes a handler**: whatever reaches one and is not denied. -/
theorem serve_ok_iff {rt : CallRuntime} {p : Principal} {inv : Invocation}
    (hp : isSystem p = false) :
    (∃ e, inv.serve rt p = .ok e)
      ↔ ∃ host, ReachesHost rt p inv host ∧ ¬PolicyDenies rt p inv host := by
  constructor
  · rintro ⟨e, he⟩
    unfold Invocation.serve CallRuntime.call at he
    split at he
    · cases he
    · next hvalid =>
      split at he
      · cases he
      · next hadmit =>
        split at he
        · cases he
        · next host hresolve =>
          split at he
          · cases he
          · next hpolicy =>
            unfold CallRuntime.hostCall at he
            split at he
            · cases he
            · next haccepts =>
              split at he
              · cases he
              · next hhandles =>
                exact ⟨host, ⟨by simpa using hvalid, by simpa using hadmit,
                  hresolve, by simpa using haccepts, by simpa using hhandles⟩,
                  (checkPolicy_ok_iff hp).mp hpolicy⟩
  · rintro ⟨host, h, hpolicy⟩
    refine ⟨⟨host.className, inv.id, inv.method, inv.args⟩, ?_⟩
    simp only [Invocation.serve, CallRuntime.call, CallRuntime.hostCall, h.valid,
      h.admitted, h.resolved, (checkPolicy_ok_iff hp).mpr hpolicy, h.accepts,
      h.handles, Bool.true_eq_false, if_false]

/-- **Capability scoping.** With a capability, no handler is executed outside
its scope if and only if every invocation outside its scope that would reach
a handler, on either path, is denied by the static policy of the class it
names. -/
theorem capability_scoping {C : Type} (options : AuthHookOptions C)
    (rt : CallRuntime) (req : AuthRequest C) (claims : CapabilityClaims)
    (h : AuthenticatedBy options req claims) :
    (∀ inv e, serveRequest options rt req inv = .ok (.ok e) →
      InScope claims inv)
    ↔ ∀ inv host, ¬InScope claims inv →
      ReachesHost rt (capabilityPrincipal claims) inv host →
      PolicyDenies rt (capabilityPrincipal claims) inv host := by
  have hserve : ∀ inv e, serveRequest options rt req inv = .ok (.ok e)
      ↔ inv.serve rt (capabilityPrincipal claims) = .ok e := by
    intro inv e
    rw [serveRequest, authHook_capability h]
    simp only [Except.map, Except.ok.injEq]
  have hsys := isSystem_capabilityPrincipal claims
  constructor
  · intro hscope inv host hout hreach
    by_contra hpolicy
    obtain ⟨e, he⟩ := (serve_ok_iff hsys).mpr ⟨host, hreach, hpolicy⟩
    exact hout (hscope inv e ((hserve inv e).mpr he))
  · intro hdenies inv e he
    by_contra hout
    obtain ⟨host, hreach, hpolicy⟩ :=
      (serve_ok_iff hsys).mp ⟨e, (hserve inv e).mp he⟩
    exact hpolicy (hdenies inv host hout hreach)

/-! ## A cart, and a wallet -/

namespace Cart

/-- What a cart grants: its total. -/
def claims : CapabilityClaims :=
  ⟨"actjs", "Cart:1", none, ["call:total"], 100, none, "jti-1"⟩

/-- A server that verifies the one token there is. -/
def options : AuthHookOptions Unit where
  auth := none
  requireAuth := true
  capability := some (fun token =>
    if token = "cart-total" then .ok claims else .error "capability signature invalid")

/-- The request that presents it. -/
def request : AuthRequest Unit := ⟨some "cart-total", ()⟩

/-- A policy that lets a capability call the methods it lists, on the actor it
is bound to. -/
def policy : PolicyFn := fun p action =>
  match action with
  | .call method _ actor =>
    .ok (.decided (p.sub == "cap:" ++ actor.ref.cls ++ ":" ++ actor.ref.id
      && (p.capabilities.getD []).contains ("call:" ++ method)) none)
  | _ => .ok .deny

/-- A runtime whose one class has the name and the policy it is given. -/
def runtime (name : ClassName) (policy : Option PolicyFn) : CallRuntime where
  classes := fun c =>
    if c = name then some ⟨"1.0.0", policy, fun m => m == "total" || m == "withdraw"⟩
    else none
  hosts := fun _ => none
  activate := fun _ _ => some (.null, true)
  rateLimit := fun _ => true

/-- The request is authenticated by what the cart grants. -/
theorem authenticatedBy : AuthenticatedBy options request claims :=
  ⟨_, _, rfl, rfl, rfl⟩

/-- What the policy of a cart allows a capability is in its scope. -/
theorem inScope_of_allows {inv : Invocation} {v : Version} {state : Json}
    (h : (evaluatePolicy (some policy) (capabilityPrincipal claims)
      (.call inv.method inv.args ⟨⟨inv.className, inv.id, v⟩, state⟩)).fst = true) :
    InScope claims inv := by
  have hmethods : (capabilityPrincipal claims).capabilities = some ["call:total"] := by
    decide
  simp only [evaluatePolicy, policy, normalizeDecision, hmethods, Option.getD_some,
    Bool.and_eq_true, beq_iff_eq, List.contains_iff_mem] at h
  obtain ⟨hsub, hmth⟩ := h
  constructor
  · rw [show (capabilityPrincipal claims).sub = "cap:" ++ claims.sub from rfl,
      String.append_assoc, String.append_assoc, String.append_right_inj] at hsub
    rw [subjectMatches, String.append_assoc]
    exact beq_iff_eq.mpr hsub
  · rw [methodAllowed, Bool.or_eq_true]
    exact Or.inr (List.contains_iff_mem.mpr hmth)

/-- The policy of a cart denies what is out of scope. -/
theorem denies (inv : Invocation) (host : LiveHost)
    (hout : ¬InScope claims inv)
    (hreach : ReachesHost (runtime "Cart" (some policy)) (capabilityPrincipal claims)
      inv host) :
    PolicyDenies (runtime "Cart" (some policy)) (capabilityPrincipal claims)
      inv host := by
  have hclass : inv.className = "Cart" := by
    by_contra hne
    have hresolved := hreach.resolved
    simp only [CallRuntime.resolve, runtime, hne, if_false] at hresolved
    cases hresolved
  refine ⟨_, policy, if_pos hclass, rfl, ?_⟩
  rw [← Bool.not_eq_true]
  exact fun hallow => hout (inScope_of_allows hallow)

end Cart

/-- With the policy of a cart, the capability of a cart totals it, and what it
does is in its scope. -/
theorem capability_scoping_cart :
    ∃ e, serveRequest Cart.options (Cart.runtime "Cart" (some Cart.policy))
        Cart.request (.ws "Cart" "1" "total" none) = .ok (.ok e)
      ∧ InScope Cart.claims (.ws "Cart" "1" "total" none) := by
  refine ⟨⟨"Cart", "1", "total", .obj []⟩, rfl, ?_⟩
  exact (capability_scoping Cart.options _ Cart.request Cart.claims
    Cart.authenticatedBy).mpr Cart.denies _ _ rfl

/-- A wallet without a policy lets the capability of a cart withdraw. -/
theorem not_capability_scoping :
    ∃ inv e, AuthenticatedBy Cart.options Cart.request Cart.claims
      ∧ serveRequest Cart.options (Cart.runtime "Wallet" none) Cart.request inv
        = .ok (.ok e)
      ∧ ¬InScope Cart.claims inv := by
  refine ⟨.rest "Wallet" "b" "withdraw" none, ⟨"Wallet", "b", "withdraw", .obj []⟩,
    Cart.authenticatedBy, ?_, ?_⟩
  · rfl
  · rintro ⟨hsubject, -⟩
    revert hsubject
    decide
