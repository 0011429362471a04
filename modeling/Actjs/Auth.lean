import Actjs.Capability
import Actjs.PlainObject

/-!
# Authentication

The auth hook makes a principal of a request. A capability token comes
first, if the server takes any; then the verifier the server is configured
with, which is one of three: a map from bearer tokens to principals, an HMAC
over a principal the request carries, or a JWT of an identity provider.

Headers and credentials are read here as the source reads them, character by
character. What is taken as it is are the primitives underneath – base64,
UTF-8, JSON, HMAC and the signature schemes – and the JavaScript conversions
`Number(v)` and `String(v)`. Numbers are integers, as everywhere; the clock is
read anew wherever the source reads it.
-/

/-! ## Primitives -/

abbrev Bytes := List UInt8

/-- A key of a JWKS document. -/
structure JwksKey where
  kid : Option String
  kty : String
  alg : Option String
  /-- The shared secret of a symmetric key, base64url. -/
  k : Option String
  /-- What identifies an asymmetric key: its other fields. -/
  params : List (String × String)

/-- A JWKS document. -/
structure JwksDocument where
  keys : List JwksKey

/-- What authentication rests on. -/
structure Primitives where
  /-- `Buffer.from(s, 'base64')`. -/
  fromBase64 : String → Bytes
  /-- `toString('utf8')` and its inverse. -/
  fromUtf8 : Bytes → String
  toUtf8 : String → Bytes
  /-- `JSON.parse`. -/
  parse : String → Option Json
  /-- The hex digest of an HMAC: algorithm, secret, data. -/
  hmacHex : String → String → String → String
  hmacSha256 : Bytes → Bytes → Bytes
  /-- RSASSA-PKCS1-v1_5 with SHA-256: key, data, signature. It may throw. -/
  rsaVerify : JwksKey → Bytes → Bytes → Option Bool
  /-- ECDSA on P-256: key, data, DER signature. It may throw. -/
  ecdsaVerify : JwksKey → Bytes → Bytes → Option Bool
  /-- Ed25519: key, data, signature. -/
  ed25519Verify : String → Bytes → Bytes → Bool
  /-- `Number(v)`, which may be `NaN`. -/
  number : Json → Option ℤ
  /-- `String(v)`, which may throw. -/
  string : Json → Option String

/-! ## Requests -/

/-- The value of a header. -/
inductive HeaderValue where
  | one (v : String)
  | many (vs : List String)

/-- A request, as far as authentication reads it, with the readings of the
clock and the JWKS document it would be answered with. -/
structure FastifyRequest where
  headers : String → Option HeaderValue
  /-- The `n`-th reading of the clock. -/
  now : ℕ → ℤ
  fetchJwks : Except String JwksDocument

/-- `headerString`. -/
def FastifyRequest.headerString (req : FastifyRequest) (name : String) :
    Option String :=
  match req.headers name with
  | some (.one v) => some v
  | some (.many (v :: _)) => some v
  | _ => none

/-- `\s` -/
def isJsSpace (c : Char) : Bool :=
  c.toNat ∈ [9, 10, 11, 12, 13, 32, 0xa0, 0x1680, 0x2028, 0x2029, 0x202f, 0x205f,
    0x3000, 0xfeff] || (0x2000 ≤ c.toNat && c.toNat ≤ 0x200a)

/-- What `.` does not match. -/
def isLineTerminator (c : Char) : Bool :=
  c.toNat ∈ [10, 13, 0x2028, 0x2029]

/-- The group of `/^scheme\s+(.+)$/i`: the spaces are taken greedily, and one
is given back if nothing else is left. -/
def schemeCredentials (scheme : String) (v : String) : Option String :=
  let cs := v.toList
  let n := scheme.length
  if (cs.take n).map Char.toLower = scheme.toList.map Char.toLower then
    let spaces := (cs.drop n).takeWhile isJsSpace
    let rest := (cs.drop n).dropWhile isJsSpace
    match spaces, rest with
    | [], _ => none
    | _ :: _, c :: rest =>
      if (c :: rest).any isLineTerminator then none
      else some (String.ofList (c :: rest))
    | _ :: spaces, [] =>
      match spaces.getLast? with
      | some c => if isLineTerminator c then none else some (String.ofList [c])
      | none => none
  else none

/-- `bearerToken`. -/
def FastifyRequest.bearerToken (req : FastifyRequest) : Option String :=
  match req.headerString "authorization" with
  | some v => if v = "" then none else schemeCredentials "Bearer" v
  | none => none

/-- `parseCapabilityHeader`: a header that is given twice is none. -/
def FastifyRequest.capabilityToken (req : FastifyRequest) : Option String :=
  match req.headers "authorization" with
  | some (.one v) => if v = "" then none else schemeCredentials "Capability" v
  | _ => none

/-! ## Values

Property access and conversions on a parsed value, as JavaScript makes them: a
property of `null` throws, a missing one is `undefined`. -/

namespace Json

/-- `v[name]`, of a name no object inherits: it throws on `undefined` and on
`null`. -/
def prop (v : Json) (name : String) : Except String Json :=
  match v with
  | undefined => .error ("Cannot read properties of undefined (reading '" ++ name ++ "')")
  | null => .error ("Cannot read properties of null (reading '" ++ name ++ "')")
  | obj fields => .ok ((fields.lookup name).getD undefined)
  | _ => .ok undefined

/-- `v === s`. -/
def isString (v : Json) (s : String) : Bool :=
  match v with
  | str t => t == s
  | _ => false

/-- `v === undefined || v === null`. -/
def nullish : Json → Bool
  | undefined => true
  | null => true
  | _ => false

/-- The value, if it is a string. -/
def string? : Json → Option String
  | str s => some s
  | _ => none

/-- The own properties of an object or an array. -/
def properties : Json → List (String × Json)
  | obj fields => fields
  | arr xs => xs.zipIdx.map (fun x => (toString x.snd, x.fst))
  | _ => []

end Json

/-- `xs.map((x) => String(x))`, which may throw. -/
def Primitives.strings (prims : Primitives) (xs : List Json) :
    Except String (List String) :=
  match xs with
  | [] => .ok []
  | x :: xs =>
    match prims.string x with
    | none => .error "Cannot convert object to primitive value"
    | some s => (prims.strings xs).map (fun ss => s :: ss)

/-- `b64uDecode`. -/
def Primitives.b64uDecode (prims : Primitives) (input : String) : Bytes :=
  let padded := input.toList.map (fun c =>
    if c = '-' then '+' else if c = '_' then '/' else c)
  let padLen := (4 - padded.length % 4) % 4
  prims.fromBase64 (String.ofList (padded ++ List.replicate padLen '='))

/-- `JSON.parse` of a segment of a token. -/
def Primitives.segment (prims : Primitives) (b64 : String) : Option Json :=
  prims.parse (prims.fromUtf8 (prims.b64uDecode b64))

/-- `token.split('.')`, if that makes three. -/
def splitToken (token : String) : Option (String × String × String) :=
  match token.toList.splitOn '.' with
  | [a, b, c] => some (String.ofList a, String.ofList b, String.ofList c)
  | _ => none

/-! ## Failures -/

/-- What the hook rejects a request with. -/
inductive AuthFailure where
  /-- `AuthError`, a 401. -/
  | unauthorized (message : String)
  /-- `CapabilityError`, by its code. -/
  | capability (message code : String)
  /-- A `TypeError` of the hook itself. -/
  | typeError (message : String)

/-- An error of the operator's hook, or of a verifier. -/
def authHookThrew (message : String) : AuthFailure :=
  .unauthorized ("auth hook threw: " ++ message)

/-- A check: what it fails with if `b` does not hold. -/
def check {ε : Type} (b : Bool) (e : ε) : Except ε Unit :=
  if b then .ok () else .error e

/-! ## Capability tokens -/

/-- `CapabilityAuthOptions`: the public key of the issuer, and whether a token
id is revoked. -/
structure CapabilityAuth where
  publicKey : String
  isRevoked : Option (Json → Bool)

/-- The property of a claim set, in the auth hook. -/
def claim (payload : Json) (name : String) : Except AuthFailure Json :=
  (payload.prop name).mapError .typeError

/-- `verifyCapability`, at the time `nowMs`: the claims. A comparison with
`NaN` is false, so a token without a number for `exp` does not expire. -/
def verifyCapability (prims : Primitives) (auth : CapabilityAuth) (nowMs : ℤ)
    (token : String) : Except AuthFailure Json :=
  match splitToken token with
  | none => .error (.capability "malformed capability token" "InvalidCapability")
  | some (headerB64, payloadB64, sigB64) =>
    match prims.segment headerB64, prims.segment payloadB64 with
    | some header, some payload => do
      let alg ← claim header "alg"
      check (alg.isString "EdDSA")
        (.capability "unsupported capability alg" "InvalidCapability")
      check (prims.ed25519Verify auth.publicKey
          (prims.toUtf8 (headerB64 ++ "." ++ payloadB64))
          (prims.b64uDecode sigB64))
        (.capability "capability signature invalid" "InvalidCapability")
      let exp ← claim payload "exp"
      check (!(prims.number exp).any (fun e => e * 1000 ≤ nowMs))
        (.capability "capability expired" "CapabilityExpired")
      let nbf ← claim payload "nbf"
      check (nbf.typeof == "undefined"
          || !(prims.number nbf).any (fun n => nowMs < n * 1000))
        (.capability "capability not yet valid" "CapabilityNotYetValid")
      let jti ← claim payload "jti"
      check (!auth.isRevoked.any (fun isRevoked => isRevoked jti))
        (.capability "capability revoked" "CapabilityRevoked")
      pure payload
    | _, _ => .error (.capability "capability token JSON malformed" "InvalidCapability")

/-- `${v}`. -/
def template (prims : Primitives) (v : Json) : Except AuthFailure String :=
  match prims.string v with
  | some s => .ok s
  | none => .error (.typeError "Cannot convert object to primitive value")

/-- The methods of a capability as capabilities of the principal, if all of
them are strings. -/
def callCapabilities : List Json → Except AuthFailure (List String)
  | [] => .ok []
  | .str m :: ms => (callCapabilities ms).map (fun cs => callCapability m :: cs)
  | _ :: _ => .error (.typeError "m.startsWith is not a function")

/-- `claims.mth.map(…)`. -/
def mthCapabilities : Json → Except AuthFailure (List String)
  | .arr ms => callCapabilities ms
  | _ => .error (.typeError "claims.mth.map is not a function")

/-- `capabilityPrincipal`, of whatever claims were signed. -/
def principalOfClaims (prims : Primitives) (payload : Json) :
    Except AuthFailure Principal := do
  let sub ← template prims (← claim payload "sub")
  let capabilities ← mthCapabilities (← claim payload "mth")
  let iss ← claim payload "iss"
  let jti ← claim payload "jti"
  let exp ← claim payload "exp"
  let aud ← claim payload "aud"
  pure
    { sub := "cap:" ++ sub
      roles := some []
      tenant := none
      capabilities := some capabilities
      claims := some ([("iss", iss), ("jti", jti), ("exp", exp)]
        ++ if aud.truthy then [("aud", aud)] else []) }

/-! ## Principals of payloads -/

/-- What a verifier may hand to the hook: a principal, or – from a map of
tokens – a member of `Object.prototype`, which is neither `null` nor
`undefined`. -/
inductive PrincipalValue where
  | principal (p : Principal)
  | inherited (name : String)

/-- `isSystem`, which the policies and the rate limiter both ask before they
look any further. A member of `Object.prototype` has no `sub`. -/
def PrincipalValue.bypasses : PrincipalValue → Bool
  | principal p => isSystem p
  | inherited _ => false

/-- A field of a principal that is an array of strings. -/
def stringsField (prims : Primitives) (v : Json) :
    Except String (Option (List String)) :=
  match v with
  | .arr xs => (prims.strings xs).map some
  | _ => .ok none

/-- `materializePrincipal`. -/
def materializePrincipal (prims : Primitives) (raw : Json) :
    Except String (Option Principal) := do
  match ← raw.prop "sub" with
  | .str sub =>
    if sub = "" then return none
    let roles ← stringsField prims (← raw.prop "roles")
    let tenant ← raw.prop "tenant"
    let capabilities ← stringsField prims (← raw.prop "capabilities")
    let claims ← raw.prop "claims"
    return some
      { sub := sub
        roles := roles
        tenant := tenant.string?
        capabilities := capabilities
        claims := if claims.typeof = "object" ∧ claims.truthy = true then
          some claims.properties else none }
  | _ => return none

/-- `extractScopes`: the words of a string. -/
def extractScopes (scope : Json) : Json :=
  match scope with
  | .str s =>
    .arr (((s.toList.splitOnP isJsSpace).filter (fun w => !w.isEmpty)).map
      (fun w => .str (String.ofList w)))
  | _ => .undefined

/-- `defaultPrincipalFromClaims`. -/
def defaultPrincipalFromClaims (prims : Primitives) (claims : Json) :
    Except String (Option Principal) := do
  match ← claims.prop "sub" with
  | .str sub =>
    if sub = "" then return none
    let roles ← claims.prop "roles"
    let scope ← claims.prop "scope"
    let roles ← stringsField prims
      (if roles.nullish then extractScopes scope else roles)
    let tenant ← claims.prop "tenant"
    let capabilities ← stringsField prims (← claims.prop "capabilities")
    return some
      { sub := sub
        roles := roles
        tenant := tenant.string?
        capabilities := capabilities
        claims := some claims.properties }
  | _ => return none

/-! ## The verifiers

Each gives a principal, nothing, or throws. The JWT verifier reads the clock
and the key set, and keeps the latter between requests. -/

/-- `staticToken`. -/
def staticToken (tokens : PlainObject Principal) (req : FastifyRequest) :
    Option PrincipalValue :=
  match req.bearerToken with
  | none => none
  | some token =>
    match tokens.get token with
    | .own p => some (.principal p)
    | .inherited name => some (.inherited name)
    | .undefined => none

/-- `VerifyHmacOptions`, with the defaults filled in. -/
structure VerifyHmacOptions where
  header : String := "x-actjs-signature"
  payloadHeader : String := "x-actjs-principal"
  algorithm : String := "sha256"

/-- `verifyHmac`. Whatever is thrown while the payload is decoded is `null`. -/
def verifyHmac (prims : Primitives) (secret : String) (options : VerifyHmacOptions)
    (req : FastifyRequest) : Option Principal :=
  match req.headerString options.header, req.headerString options.payloadHeader with
  | some sig, some payload =>
    if sig = "" ∨ payload = "" then none
    else if sig = prims.hmacHex options.algorithm secret payload then
      match prims.parse (prims.fromUtf8 (prims.fromBase64 payload)) with
      | none => none
      | some parsed =>
        match materializePrincipal prims parsed with
        | .ok p => p
        | .error _ => none
    else none
  | _, _ => none

/-- `encodeAsn1Integer`, after `trimLeadingZeros`. -/
def encodeAsn1Integer (bytes : Bytes) : Bytes :=
  let zeros := (bytes.takeWhile (fun b => b == 0)).length
  let trimmed := bytes.drop (min zeros (bytes.length - 1))
  let body := if 128 ≤ (trimmed.headD 0).toNat then 0 :: trimmed else trimmed
  [2, UInt8.ofNat body.length] ++ body

/-- `joseEcdsaToDer`. -/
def joseEcdsaToDer (sig : Bytes) : Bytes :=
  if sig.length ≠ 64 then sig
  else
    let body := encodeAsn1Integer (sig.take 32) ++ encodeAsn1Integer (sig.drop 32)
    [48, UInt8.ofNat body.length] ++ body

/-- `verifyWithJwk`. -/
def verifyWithJwk (prims : Primitives) (alg : String) (jwk : JwksKey)
    (data signature : Bytes) : Bool :=
  if alg = "HS256" then
    match jwk.k with
    | some k =>
      k ≠ "" && prims.hmacSha256 (prims.b64uDecode k) data == signature
    | none => false
  else if alg = "RS256" then (prims.rsaVerify jwk data signature).getD false
  else if alg = "ES256" then
    (prims.ecdsaVerify jwk data (joseEcdsaToDer signature)).getD false
  else false

/-- `pickJwk`: the key of that id, else one of that algorithm, else the
first. -/
def pickJwk (jwks : JwksDocument) (kid : Option String) (alg : String) :
    Option JwksKey :=
  let byKid := match kid with
    | some kid =>
      if kid = "" then none else jwks.keys.find? (fun (k : JwksKey) => k.kid == some kid)
    | none => none
  (byKid.or (jwks.keys.find? (fun (k : JwksKey) => k.alg == some alg))).or jwks.keys.head?

/-- `verifyJwtSignature`: the payload. A header that is `null` throws. -/
def verifyJwtSignature (prims : Primitives) (token : String) (jwks : JwksDocument) :
    Except String (Option Json) :=
  match splitToken token with
  | none => .ok none
  | some (headerB64, payloadB64, signatureB64) =>
    match prims.segment headerB64, prims.segment payloadB64 with
    | some header, some payload => do
      match ← header.prop "alg" with
      | .str alg =>
        if alg = "none" then return none
        let kid ← header.prop "kid"
        match pickJwk jwks kid.string? alg with
        | none => return none
        | some key =>
          if verifyWithJwk prims alg key
              (prims.toUtf8 (headerB64 ++ "." ++ payloadB64))
              (prims.b64uDecode signatureB64) then
            return some payload
          else return none
      | _ => return none
    | _, _ => .ok none

/-- `VerifyJwtOptions`. -/
structure VerifyJwtOptions where
  issuer : Option String
  audience : Option String
  principalFromClaims : Option (Json → Except String (Option Principal))

/-- What `verifyJWT` keeps between two requests. -/
structure JwksCache where
  cachedJwks : Option JwksDocument
  cachedAt : ℤ

/-- `CACHE_TTL_MS`. -/
def cacheTtlMs : ℤ := 5 * 60000

/-- The audience is named by the `aud` claim. -/
def audienceMatches (aud : Json) (audience : String) : Bool :=
  aud.isString audience
    || match aud with
      | .arr xs => xs.any (fun x => x.isString audience)
      | _ => false

/-- A check of one claim, if it is configured with a text that is not empty. -/
def checkConfigured (expected : Option String) (claims : Json) (name : String)
    (matches' : Json → String → Bool) : Except String Bool :=
  match expected with
  | none => .ok true
  | some text =>
    if text = "" then .ok true
    else (claims.prop name).map (fun v => matches' v text)

/-- A check of a claim that is a time, if it is a number. -/
def checkTime (claims : Json) (name : String) (within : ℤ → Bool) :
    Except String Bool :=
  (claims.prop name).map (fun v =>
    match v with
    | .num seconds => within (seconds * 1000)
    | _ => true)

/-- A check, and then others unless it fails. -/
def andThen (x y : Except String Bool) : Except String Bool := do
  if ← x then y else return false

/-- The checks of the claims of a JWT, with the two readings of the clock. -/
def checkClaims (options : VerifyJwtOptions) (now₁ now₂ : ℤ) (claims : Json) :
    Except String Bool :=
  andThen (checkConfigured options.issuer claims "iss" Json.isString)
    (andThen (checkConfigured options.audience claims "aud" audienceMatches)
      (andThen (checkTime claims "exp" (fun ms => now₁ ≤ ms))
        (checkTime claims "nbf" (fun ms => ms ≤ now₂))))

/-- The key set a request is answered with, and what is cached then. -/
def currentJwks (cache : JwksCache) (req : FastifyRequest) :
    Except String (JwksDocument × JwksCache) :=
  match cache.cachedJwks with
  | some jwks =>
    if req.now 0 - cache.cachedAt ≤ cacheTtlMs then .ok (jwks, cache)
    else req.fetchJwks.map (fun jwks => (jwks, ⟨some jwks, req.now 1⟩))
  | none => req.fetchJwks.map (fun jwks => (jwks, ⟨some jwks, req.now 1⟩))

/-- `principalFromClaims`, the operator's or the default. -/
def VerifyJwtOptions.principal (prims : Primitives) (options : VerifyJwtOptions)
    (claims : Json) : Except String (Option Principal) :=
  match options.principalFromClaims with
  | some f => f claims
  | none => defaultPrincipalFromClaims prims claims

/-- `verifyJWT`, once it has its key set. -/
def verifyJwtWith (prims : Primitives) (options : VerifyJwtOptions)
    (jwks : JwksDocument) (req : FastifyRequest) (token : String) :
    Except String (Option Principal) := do
  match ← verifyJwtSignature prims token jwks with
  | none => return none
  | some claims =>
    if ← checkClaims options (req.now 2) (req.now 3) claims then
      options.principal prims claims
    else return none

/-- `verifyJWT`. -/
def verifyJWT (prims : Primitives) (options : VerifyJwtOptions) (cache : JwksCache)
    (req : FastifyRequest) : Except String (Option Principal) × JwksCache :=
  match req.bearerToken with
  | none => (.ok none, cache)
  | some token =>
    match currentJwks cache req with
    | .error e => (.error e, cache)
    | .ok (jwks, cache) => (verifyJwtWith prims options jwks req token, cache)

/-! ## The hook -/

/-- The built-in verifiers with their configuration. -/
inductive Authenticator where
  | token (tokens : PlainObject Principal)
  | hmac (secret : String) (options : VerifyHmacOptions)
  | jwt (options : VerifyJwtOptions)

/-- `auth(req)`. -/
def Authenticator.auth (prims : Primitives) (a : Authenticator) (cache : JwksCache)
    (req : FastifyRequest) : Except String (Option PrincipalValue) × JwksCache :=
  match a with
  | .token tokens => (.ok (staticToken tokens req), cache)
  | .hmac secret options =>
    (.ok ((verifyHmac prims secret options req).map .principal), cache)
  | .jwt options =>
    let r := verifyJWT prims options cache req
    (r.fst.map (fun p => p.map .principal), r.snd)

/-- `AuthHookOptions`, with a built-in verifier. -/
structure HookOptions where
  auth : Option Authenticator
  requireAuth : Bool
  capability : Option CapabilityAuth

/-- The part of the hook that asks the verifier. -/
def HookOptions.authenticate (prims : Primitives) (options : HookOptions)
    (cache : JwksCache) (req : FastifyRequest) :
    Except AuthFailure PrincipalValue × JwksCache :=
  match options.auth with
  | none => (.ok (.principal anonymousPrincipal), cache)
  | some a =>
    match a.auth prims cache req with
    | (.error e, cache) => (.error (authHookThrew e), cache)
    | (.ok (some v), cache) => (.ok v, cache)
    | (.ok none, cache) =>
      if options.requireAuth then
        (.error (.unauthorized "authentication required"), cache)
      else (.ok (.principal anonymousPrincipal), cache)

/-- **`makeAuthHook`**: what `req.principal` is set to. -/
def makeAuthHook (prims : Primitives) (options : HookOptions) (cache : JwksCache)
    (req : FastifyRequest) : Except AuthFailure PrincipalValue × JwksCache :=
  match options.capability, req.capabilityToken with
  | some auth, some token =>
    ((verifyCapability prims auth (req.now 0) token).bind (fun claims =>
      (principalOfClaims prims claims).map .principal), cache)
  | _, _ => options.authenticate prims cache req
