import Actjs.Auth

/-!
# What an authenticated request is

A request that passes the auth hook should be one of three things: anonymous,
where that is allowed; the bearer of a capability that was signed, has not
expired and was not revoked; or the subject of a credential that the
configured verifier vouches for. And it should never be the system itself,
which no policy is asked about and no rate limit holds.

`Vouches` says what a verifier vouches for, by the credential alone. The hook
and the verifiers are then characterised by it, and two things come out that
should not be. A verifier vouches for any subject, `system` included. And a
map of tokens is a plain object: a bearer token that is a name every object
inherits is let through with a member of `Object.prototype` for a principal,
where `requireAuth` should have refused it.
-/

/-! ## Failing computations -/

section Except

variable {ε α β : Type}

theorem Except.bind_eq_ok_iff {x : Except ε α} {f : α → Except ε β} {b : β} :
    (x >>= f) = .ok b ↔ ∃ a, x = .ok a ∧ f a = .ok b := by
  cases x with
  | error e => exact iff_of_false nofun (by rintro ⟨a, h, -⟩; cases h)
  | ok a => exact ⟨fun h => ⟨a, rfl, h⟩, by rintro ⟨a', h, h'⟩; cases h; exact h'⟩

theorem check_eq_ok_iff {b : Bool} {e : ε} {u : Unit} :
    check b e = .ok u ↔ b = true := by
  unfold check
  cases b <;> simp

end Except

theorem claim_eq_ok_iff {payload v : Json} {name : String} :
    claim payload name = .ok v ↔ payload.prop name = .ok v := by
  unfold claim
  cases payload.prop name with
  | error e => exact iff_of_false nofun nofun
  | ok w => simp [Except.mapError]

theorem Json.isString_iff {v : Json} {s : String} :
    v.isString s = true ↔ v = .str s := by
  cases v <;> simp [Json.isString]

/-! ## Capability tokens -/

/-- The token is signed by the issuer, over these claims. -/
def CapabilitySigned (prims : Primitives) (auth : CapabilityAuth) (token : String)
    (payload : Json) : Prop :=
  ∃ headerB64 payloadB64 sigB64 header,
    splitToken token = some (headerB64, payloadB64, sigB64)
      ∧ prims.segment headerB64 = some header
      ∧ header.prop "alg" = .ok (.str "EdDSA")
      ∧ prims.segment payloadB64 = some payload
      ∧ prims.ed25519Verify auth.publicKey
          (prims.toUtf8 (headerB64 ++ "." ++ payloadB64))
          (prims.b64uDecode sigB64) = true

/-- **A token that verifies, is unexpired and unrevoked**, by its claims. -/
structure Grants (prims : Primitives) (auth : CapabilityAuth) (nowMs : ℤ)
    (token : String) (payload : Json) : Prop where
  signed : CapabilitySigned prims auth token payload
  unexpired : ∃ exp e, payload.prop "exp" = .ok exp ∧ prims.number exp = some e
    ∧ nowMs < e * 1000
  unrevoked : ∀ isRevoked jti, auth.isRevoked = some isRevoked →
    payload.prop "jti" = .ok jti → isRevoked jti = false

/-- What is left to ask of a token that is let through: that its `exp` is a
number. -/
def HasExp (prims : Primitives) (payload : Json) : Prop :=
  ∃ exp, payload.prop "exp" = .ok exp ∧ (prims.number exp).isSome

theorem verifyCapability_signed {prims : Primitives} {auth : CapabilityAuth}
    {nowMs : ℤ} {token : String} {payload : Json}
    (h : verifyCapability prims auth nowMs token = .ok payload) :
    CapabilitySigned prims auth token payload
      ∧ (∃ exp, payload.prop "exp" = .ok exp
        ∧ ∀ e, prims.number exp = some e → nowMs < e * 1000)
      ∧ ∀ isRevoked jti, auth.isRevoked = some isRevoked →
        payload.prop "jti" = .ok jti → isRevoked jti = false := by
  unfold verifyCapability at h
  split at h
  · cases h
  · next headerB64 payloadB64 sigB64 hsplit =>
    split at h
    · next header payload' hh hp =>
      simp only [Except.bind_eq_ok_iff, check_eq_ok_iff, claim_eq_ok_iff] at h
      obtain ⟨alg, halg, _, hed, _, hsig, exp, hexp, _, hnow, nbf, hnbf, _, hnb,
        jti, hjti, _, hrev, hpay⟩ := h
      cases hpay
      rw [Json.isString_iff] at hed
      subst hed
      refine ⟨⟨headerB64, payloadB64, sigB64, header, hsplit, hh, halg, hp, hsig⟩,
        ⟨exp, hexp, fun e he => ?_⟩, fun isRevoked jti' hir hjti' => ?_⟩
      · rw [he] at hnow
        simpa using hnow
      · rw [hir] at hrev
        cases hjti.symm.trans hjti'
        simpa using hrev
    · cases h

/-- **A token that is let through grants what it says**, if its `exp` is a
number. -/
theorem verifyCapability_grants_iff {prims : Primitives} {auth : CapabilityAuth}
    {nowMs : ℤ} {token : String} {payload : Json}
    (h : verifyCapability prims auth nowMs token = .ok payload) :
    Grants prims auth nowMs token payload ↔ HasExp prims payload := by
  obtain ⟨hs, ⟨exp, hexp, hnow⟩, hrev⟩ := verifyCapability_signed h
  constructor
  · rintro ⟨-, ⟨exp', e, hexp', he, -⟩, -⟩
    exact ⟨exp', hexp', Option.isSome_iff_exists.mpr ⟨e, he⟩⟩
  · rintro ⟨exp', hexp', hsome⟩
    cases hexp.symm.trans hexp'
    obtain ⟨e, he⟩ := Option.isSome_iff_exists.mp hsome
    exact ⟨hs, ⟨exp, e, hexp, he, hnow e he⟩, hrev⟩

/-- The claims of a token are read from it. -/
theorem CapabilitySigned.unique {prims : Primitives} {auth : CapabilityAuth}
    {token : String} {payload payload' : Json}
    (h : CapabilitySigned prims auth token payload)
    (h' : CapabilitySigned prims auth token payload') : payload = payload' := by
  obtain ⟨_, _, _, _, hs, -, -, hp, -⟩ := h
  obtain ⟨_, _, _, _, hs', -, -, hp', -⟩ := h'
  cases hs.symm.trans hs'
  exact Option.some.inj (hp.symm.trans hp')

/-- The subject of a capability begins with `cap:`. -/
theorem principalOfClaims_sub {prims : Primitives} {payload : Json} {p : Principal}
    (h : principalOfClaims prims payload = .ok p) : ∃ s, p.sub = "cap:" ++ s := by
  unfold principalOfClaims at h
  simp only [Except.bind_eq_ok_iff] at h
  obtain ⟨_, -, sub, -, _, -, _, -, _, -, _, -, _, -, _, -, h⟩ := h
  cases h
  exact ⟨sub, rfl⟩

/-! ## What a verifier vouches for

By the credential alone, without the code that checks it; then for each
verifier that it returns a principal if and only if it vouches for it. -/

/-- The signature of a JWT verifies under a key, by the algorithm it names. -/
def SignatureVerifies (prims : Primitives) (alg : String) (key : JwksKey)
    (data signature : Bytes) : Prop :=
  (alg = "HS256" ∧ ∃ k, key.k = some k ∧ k ≠ ""
    ∧ prims.hmacSha256 (prims.b64uDecode k) data = signature)
  ∨ (alg = "RS256" ∧ prims.rsaVerify key data signature = some true)
  ∨ (alg = "ES256"
    ∧ prims.ecdsaVerify key data (joseEcdsaToDer signature) = some true)

/-- A JWT with these claims, signed under a key of the set. -/
def JwtSigned (prims : Primitives) (jwks : JwksDocument) (token : String)
    (claims : Json) : Prop :=
  ∃ headerB64 payloadB64 signatureB64 header alg kid key,
    splitToken token = some (headerB64, payloadB64, signatureB64)
      ∧ prims.segment headerB64 = some header
      ∧ prims.segment payloadB64 = some claims
      ∧ header.prop "alg" = .ok (.str alg)
      ∧ header.prop "kid" = .ok kid
      ∧ pickJwk jwks kid.string? alg = some key
      ∧ SignatureVerifies prims alg key
          (prims.toUtf8 (headerB64 ++ "." ++ payloadB64))
          (prims.b64uDecode signatureB64)

/-- **The `iss`, `aud`, `exp` and `nbf` checks pass.** -/
structure ClaimsPass (options : VerifyJwtOptions) (now₁ now₂ : ℤ) (claims : Json) :
    Prop where
  iss : ∀ issuer, options.issuer = some issuer → issuer ≠ "" →
    claims.prop "iss" = .ok (.str issuer)
  aud : ∀ audience, options.audience = some audience → audience ≠ "" →
    ∃ aud, claims.prop "aud" = .ok aud ∧ audienceMatches aud audience = true
  exp : ∃ exp, claims.prop "exp" = .ok exp ∧ ∀ e, exp = .num e → now₁ ≤ e * 1000
  nbf : ∃ nbf, claims.prop "nbf" = .ok nbf ∧ ∀ n, nbf = .num n → n * 1000 ≤ now₂

/-- **The verifier vouches for the principal**, by what the request presents. -/
def Vouches (prims : Primitives) (cache : JwksCache) (req : FastifyRequest) :
    Authenticator → Principal → Prop
  | .token tokens, p =>
    -- An own entry of the map, under the bearer token.
    ∃ token, req.bearerToken = some token ∧ tokens.lookup token = some p
  | .hmac secret options, p =>
    -- A payload with a valid HMAC.
    ∃ sig payload parsed, req.headerString options.header = some sig
      ∧ req.headerString options.payloadHeader = some payload
      ∧ sig ≠ "" ∧ payload ≠ ""
      ∧ sig = prims.hmacHex options.algorithm secret payload
      ∧ prims.parse (prims.fromUtf8 (prims.fromBase64 payload)) = some parsed
      ∧ materializePrincipal prims parsed = .ok (some p)
  | .jwt options, p =>
    -- The claims of a JWT that is signed and passes the checks.
    ∃ token jwks cache' claims, req.bearerToken = some token
      ∧ currentJwks cache req = .ok (jwks, cache')
      ∧ JwtSigned prims jwks token claims
      ∧ ClaimsPass options (req.now 2) (req.now 3) claims
      ∧ options.principal prims claims = .ok (some p)

theorem verifyWithJwk_iff {prims : Primitives} {alg : String} {key : JwksKey}
    {data signature : Bytes} :
    verifyWithJwk prims alg key data signature = true ↔
      SignatureVerifies prims alg key data signature := by
  unfold verifyWithJwk SignatureVerifies
  by_cases h₁ : alg = "HS256"
  · subst h₁
    rw [if_pos rfl]
    cases hk : key.k with
    | none => simp
    | some k => simp
  · rw [if_neg h₁]
    by_cases h₂ : alg = "RS256"
    · subst h₂
      rw [if_pos rfl]
      cases prims.rsaVerify key data signature with
      | none => simp
      | some b => simp
    · rw [if_neg h₂]
      by_cases h₃ : alg = "ES256"
      · subst h₃
        rw [if_pos rfl]
        cases prims.ecdsaVerify key data (joseEcdsaToDer signature) with
        | none => simp
        | some b => simp
      · rw [if_neg h₃]
        exact iff_of_false Bool.false_ne_true (by simp [h₁, h₂, h₃])

theorem verifyJwtSignature_iff {prims : Primitives} {token : String}
    {jwks : JwksDocument} {claims : Json} :
    verifyJwtSignature prims token jwks = .ok (some claims) ↔
      JwtSigned prims jwks token claims := by
  unfold verifyJwtSignature JwtSigned
  cases hs : splitToken token with
  | none => exact iff_of_false nofun (by rintro ⟨_, _, _, _, _, _, _, h, -⟩; cases h)
  | some parts =>
    obtain ⟨headerB64, payloadB64, signatureB64⟩ := parts
    dsimp only
    cases hh : prims.segment headerB64 with
    | none =>
      exact iff_of_false nofun (by
        rintro ⟨_, _, _, _, _, _, _, h, h', -⟩
        cases h
        cases hh.symm.trans h')
    | some header =>
      cases hp : prims.segment payloadB64 with
      | none =>
        exact iff_of_false nofun (by
          rintro ⟨_, _, _, _, _, _, _, h, -, h', -⟩
          cases h
          cases hp.symm.trans h')
      | some payload =>
        dsimp only
        rw [Except.bind_eq_ok_iff]
        constructor
        · rintro ⟨alg, halg, h⟩
          cases alg with
          | str alg =>
            dsimp only at h
            split at h
            · cases h
            · rw [Except.bind_eq_ok_iff] at h
              obtain ⟨kid, hkid, h⟩ := h
              cases hk : pickJwk jwks kid.string? alg with
              | none => rw [hk] at h; cases h
              | some key =>
                rw [hk] at h
                dsimp only at h
                split at h
                · next hv =>
                  cases h
                  exact ⟨_, _, _, header, alg, kid, key, rfl, hh, hp, halg, hkid,
                    hk, verifyWithJwk_iff.mp hv⟩
                · cases h
          | _ => cases h
        · rintro ⟨_, _, _, header', alg, kid, key, h, hh', hp', halg, hkid, hk, hv⟩
          cases h
          cases hh.symm.trans hh'
          cases hp.symm.trans hp'
          refine ⟨.str alg, halg, ?_⟩
          have hnone : alg ≠ "none" := by
            rintro rfl
            obtain ⟨h, -⟩ | ⟨h, -⟩ | ⟨h, -⟩ := hv <;> exact absurd h (by decide)
          dsimp only
          rw [if_neg hnone, Except.bind_eq_ok_iff]
          refine ⟨kid, hkid, ?_⟩
          rw [hk]
          dsimp only
          rw [if_pos (verifyWithJwk_iff.mpr hv)]
          rfl

theorem andThen_iff {x y : Except String Bool} :
    andThen x y = .ok true ↔ x = .ok true ∧ y = .ok true := by
  unfold andThen
  cases x with
  | error e => exact iff_of_false nofun nofun
  | ok b =>
    cases b with
    | false => exact iff_of_false nofun nofun
    | true => exact (and_iff_right rfl).symm

theorem Except.map_eq_ok_iff {ε α β : Type} {x : Except ε α} {f : α → β} {b : β} :
    x.map f = .ok b ↔ ∃ a, x = .ok a ∧ f a = b := by
  cases x with
  | error e => exact iff_of_false nofun nofun
  | ok a => simp [Except.map]

theorem checkConfigured_iff {expected : Option String} {claims : Json}
    {name : String} {f : Json → String → Bool} :
    checkConfigured expected claims name f = .ok true ↔
      ∀ text, expected = some text → text ≠ "" →
        ∃ v, claims.prop name = .ok v ∧ f v text = true := by
  unfold checkConfigured
  cases expected with
  | none => simp
  | some text =>
    dsimp only
    by_cases ht : text = ""
    · simp [ht]
    · rw [if_neg ht, Except.map_eq_ok_iff]
      simp [ht]

theorem checkTime_iff {claims : Json} {name : String} {f : ℤ → Bool} :
    checkTime claims name f = .ok true ↔
      ∃ v, claims.prop name = .ok v ∧ ∀ n, v = .num n → f (n * 1000) = true := by
  unfold checkTime
  rw [Except.map_eq_ok_iff]
  refine exists_congr (fun v => and_congr_right (fun _ => ?_))
  cases v <;> simp

theorem checkClaims_iff {options : VerifyJwtOptions} {now₁ now₂ : ℤ}
    {claims : Json} :
    checkClaims options now₁ now₂ claims = .ok true ↔
      ClaimsPass options now₁ now₂ claims := by
  unfold checkClaims
  rw [andThen_iff, andThen_iff, andThen_iff, checkConfigured_iff,
    checkConfigured_iff, checkTime_iff, checkTime_iff]
  constructor
  · rintro ⟨hiss, haud, ⟨exp, hexp, he⟩, nbf, hnbf, hn⟩
    refine ⟨fun issuer hi hne => ?_, haud, ⟨exp, hexp, fun e h => ?_⟩,
      nbf, hnbf, fun n h => ?_⟩
    · obtain ⟨v, hv, hs⟩ := hiss issuer hi hne
      rw [Json.isString_iff] at hs
      exact hs ▸ hv
    · simpa using he e h
    · simpa using hn n h
  · rintro ⟨hiss, haud, ⟨exp, hexp, he⟩, nbf, hnbf, hn⟩
    refine ⟨fun issuer hi hne => ⟨_, hiss issuer hi hne,
      Json.isString_iff.mpr rfl⟩, haud, ⟨exp, hexp, fun e h => ?_⟩,
      nbf, hnbf, fun n h => ?_⟩
    · simpa using he e h
    · simpa using hn n h

theorem staticToken_iff {prims : Primitives} {cache : JwksCache}
    {req : FastifyRequest} {tokens : PlainObject Principal} {p : Principal} :
    staticToken tokens req = some (.principal p) ↔
      Vouches prims cache req (.token tokens) p := by
  unfold staticToken Vouches
  cases req.bearerToken with
  | none => simp
  | some token =>
    dsimp only
    cases hl : tokens.lookup token with
    | some q =>
      rw [PlainObject.get_of_lookup hl]
      simp [hl]
    | none =>
      have hno : ¬∃ t, some token = some t ∧ tokens.lookup t = some p := by
        rintro ⟨_, ht, h⟩
        cases ht
        cases hl.symm.trans h
      rw [PlainObject.get, hl]
      dsimp only
      split
      · next h => split at h <;> cases h
      · exact iff_of_false (by simp) hno
      · exact iff_of_false (by simp) hno

theorem verifyHmac_iff {prims : Primitives} {cache : JwksCache}
    {req : FastifyRequest} {secret : String} {options : VerifyHmacOptions}
    {p : Principal} :
    verifyHmac prims secret options req = some p ↔
      Vouches prims cache req (.hmac secret options) p := by
  unfold verifyHmac Vouches
  cases hh : req.headerString options.header with
  | none =>
    refine iff_of_false nofun ?_
    rintro ⟨_, _, _, hs, -⟩
    cases hh.symm.trans hs
  | some sig =>
    cases hp : req.headerString options.payloadHeader with
    | none =>
      refine iff_of_false nofun ?_
      rintro ⟨_, _, _, -, hp', -⟩
      cases hp.symm.trans hp'
    | some payload =>
      dsimp only
      by_cases he : sig = "" ∨ payload = ""
      · rw [if_pos he]
        refine iff_of_false nofun ?_
        rintro ⟨_, _, _, hs, hp', h₁, h₂, -⟩
        cases hh.symm.trans hs
        cases hp.symm.trans hp'
        exact he.elim h₁ h₂
      · rw [if_neg he]
        obtain ⟨h₁, h₂⟩ := not_or.mp he
        by_cases hm : sig = prims.hmacHex options.algorithm secret payload
        · rw [if_pos hm]
          cases hj : prims.parse (prims.fromUtf8 (prims.fromBase64 payload)) with
          | none =>
            refine iff_of_false nofun ?_
            rintro ⟨_, _, _, -, hp', -, -, -, hj', -⟩
            cases hp.symm.trans hp'
            cases hj.symm.trans hj'
          | some parsed =>
            dsimp only
            constructor
            · intro h
              refine ⟨sig, payload, parsed, hh, hp, h₁, h₂, hm, hj, ?_⟩
              cases hmat : materializePrincipal prims parsed with
              | error e => rw [hmat] at h; cases h
              | ok q => rw [hmat] at h; exact congrArg Except.ok h
            · rintro ⟨_, _, _, -, hp', -, -, -, hj', hmat⟩
              cases hp.symm.trans hp'
              cases hj.symm.trans hj'
              rw [hmat]
        · rw [if_neg hm]
          refine iff_of_false nofun ?_
          rintro ⟨_, _, _, hs, hp', -, -, hm', -⟩
          cases hh.symm.trans hs
          cases hp.symm.trans hp'
          exact hm hm'

theorem verifyJwtWith_iff {prims : Primitives} {options : VerifyJwtOptions}
    {jwks : JwksDocument} {req : FastifyRequest} {token : String} {p : Principal} :
    verifyJwtWith prims options jwks req token = .ok (some p) ↔
      ∃ claims, JwtSigned prims jwks token claims
        ∧ ClaimsPass options (req.now 2) (req.now 3) claims
        ∧ options.principal prims claims = .ok (some p) := by
  unfold verifyJwtWith
  rw [Except.bind_eq_ok_iff]
  constructor
  · rintro ⟨o, ho, h⟩
    cases o with
    | none => cases h
    | some claims =>
      dsimp only at h
      rw [Except.bind_eq_ok_iff] at h
      obtain ⟨b, hc, h⟩ := h
      cases b with
      | false => cases h
      | true =>
        exact ⟨claims, verifyJwtSignature_iff.mp ho, checkClaims_iff.mp hc, h⟩
  · rintro ⟨claims, hs, hc, h⟩
    refine ⟨some claims, verifyJwtSignature_iff.mpr hs, ?_⟩
    dsimp only
    rw [Except.bind_eq_ok_iff]
    exact ⟨true, checkClaims_iff.mpr hc, h⟩

theorem verifyJWT_iff {prims : Primitives} {cache : JwksCache}
    {req : FastifyRequest} {options : VerifyJwtOptions} {p : Principal} :
    (verifyJWT prims options cache req).fst = .ok (some p) ↔
      Vouches prims cache req (.jwt options) p := by
  unfold verifyJWT Vouches
  cases req.bearerToken with
  | none => simp
  | some token =>
    dsimp only
    cases currentJwks cache req with
    | error e =>
      refine iff_of_false nofun ?_
      rintro ⟨_, _, _, _, -, h, -⟩
      cases h
    | ok jc =>
      dsimp only
      rw [verifyJwtWith_iff]
      constructor
      · rintro ⟨claims, h⟩
        exact ⟨token, jc.fst, jc.snd, claims, rfl, rfl, h⟩
      · rintro ⟨_, _, _, claims, ht, hj, h⟩
        cases ht
        cases hj
        exact ⟨claims, h⟩

/-- **What a verifier returns is what it vouches for**, unless it is a member
of `Object.prototype`. -/
theorem auth_principal_iff {prims : Primitives} {cache : JwksCache}
    {req : FastifyRequest} {a : Authenticator} {p : Principal} :
    (a.auth prims cache req).fst = .ok (some (.principal p)) ↔
      Vouches prims cache req a p := by
  have hmap : ∀ o : Option Principal,
      o.map PrincipalValue.principal = some (.principal p) ↔ o = some p := by
    intro o
    cases o <;> simp
  cases a with
  | token tokens =>
    show Except.ok (staticToken tokens req) = _ ↔ _
    rw [Except.ok.injEq, staticToken_iff]
  | hmac secret options =>
    show Except.ok ((verifyHmac prims secret options req).map
      PrincipalValue.principal) = _ ↔ _
    rw [Except.ok.injEq, hmap, verifyHmac_iff]
  | jwt options =>
    show ((verifyJWT prims options cache req).fst.map
      (fun p => p.map PrincipalValue.principal)) = _ ↔ _
    rw [Except.map_eq_ok_iff, ← verifyJWT_iff]
    constructor
    · rintro ⟨o, ho, h⟩
      rwa [(hmap o).mp h] at ho
    · intro h
      exact ⟨_, h, rfl⟩

/-- A map of tokens returns a member of `Object.prototype` for a token that is
its name and no key of the map. -/
theorem auth_inherited_iff {prims : Primitives} {cache : JwksCache}
    {req : FastifyRequest} {a : Authenticator} {name : String} :
    (a.auth prims cache req).fst = .ok (some (.inherited name)) ↔
      ∃ tokens, a = .token tokens ∧ req.bearerToken = some name
        ∧ tokens.lookup name = none ∧ name ∈ objectPrototype := by
  have hmap : ∀ o : Option Principal,
      o.map PrincipalValue.principal ≠ some (.inherited name) := by
    intro o
    cases o <;> simp
  cases a with
  | token tokens =>
    show Except.ok (staticToken tokens req) = _ ↔ _
    rw [Except.ok.injEq]
    unfold staticToken
    cases req.bearerToken with
    | none => simp
    | some token =>
      dsimp only
      cases hl : tokens.lookup token with
      | some q =>
        rw [PlainObject.get_of_lookup hl]
        refine iff_of_false (by simp) ?_
        rintro ⟨_, ht, hb, h, -⟩
        cases ht
        cases hb
        cases hl.symm.trans h
      | none =>
        rw [PlainObject.get, hl]
        dsimp only
        by_cases hn : token ∈ objectPrototype
        · rw [if_pos hn]
          constructor
          · intro h
            cases h
            exact ⟨tokens, rfl, rfl, hl, hn⟩
          · rintro ⟨_, -, hb, -, -⟩
            cases hb
            rfl
        · rw [if_neg hn]
          refine iff_of_false (by simp) ?_
          rintro ⟨_, -, hb, -, h⟩
          cases hb
          exact hn h
  | hmac secret options =>
    refine iff_of_false (fun h => ?_) (by rintro ⟨_, h, -⟩; cases h)
    exact hmap _ (Except.ok.inj h)
  | jwt options =>
    refine iff_of_false (fun h => ?_) (by rintro ⟨_, h, -⟩; cases h)
    obtain ⟨o, -, ho⟩ := Except.map_eq_ok_iff.mp h
    exact hmap o ho

/-- A verifier vouches for one principal. -/
theorem Vouches.unique {prims : Primitives} {cache : JwksCache} {req : FastifyRequest}
    {a : Authenticator} {p p' : Principal} (h : Vouches prims cache req a p)
    (h' : Vouches prims cache req a p') : p = p' := by
  have hp := (auth_principal_iff.mpr h).symm.trans (auth_principal_iff.mpr h')
  exact PrincipalValue.principal.inj (Option.some.inj (Except.ok.inj hp))

theorem materializePrincipal_sub {prims : Primitives} {raw : Json} {p : Principal}
    (h : materializePrincipal prims raw = .ok (some p)) : p.sub ≠ "" := by
  unfold materializePrincipal at h
  rw [Except.bind_eq_ok_iff] at h
  obtain ⟨sub, -, h⟩ := h
  cases sub with
  | str sub =>
    dsimp only at h
    split at h
    · cases h
    · next hne =>
      simp only [Except.bind_eq_ok_iff] at h
      obtain ⟨_, -, _, -, _, -, _, -, _, -, _, -, h⟩ := h
      cases h
      exact hne
  | _ => cases h

theorem defaultPrincipalFromClaims_sub {prims : Primitives} {claims : Json}
    {p : Principal} (h : defaultPrincipalFromClaims prims claims = .ok (some p)) :
    p.sub ≠ "" := by
  unfold defaultPrincipalFromClaims at h
  rw [Except.bind_eq_ok_iff] at h
  obtain ⟨sub, -, h⟩ := h
  cases sub with
  | str sub =>
    dsimp only at h
    split at h
    · cases h
    · next hne =>
      simp only [Except.bind_eq_ok_iff] at h
      obtain ⟨_, -, _, -, _, -, _, -, _, -, _, -, h⟩ := h
      cases h
      exact hne
  | _ => cases h

/-! ## What the hook lets through

The hook is these verifiers in order, so what it lets through is one of three
principals, or the member of a prototype. -/

/-- **The principal is one of three**: of a capability token, if one is
presented where they are taken; else anonymous, where that is allowed, or one
with a subject that the verifier vouches for. -/
def Authenticated (prims : Primitives) (options : HookOptions) (cache : JwksCache)
    (req : FastifyRequest) (v : PrincipalValue) : Prop :=
  match options.capability, req.capabilityToken with
  | some auth, some token =>
    ∃ payload p, Grants prims auth (req.now 0) token payload
      ∧ principalOfClaims prims payload = .ok p ∧ v = .principal p
  | _, _ =>
    (v = .principal anonymousPrincipal
      ∧ (options.auth = none ∨ options.requireAuth = false))
    ∨ ∃ a p, options.auth = some a ∧ Vouches prims cache req a p ∧ p.sub ≠ ""
      ∧ v = .principal p

/-- What is left to ask of a credential, by its verifier. -/
def Authenticator.Usable (prims : Primitives) (cache : JwksCache)
    (req : FastifyRequest) : Authenticator → Prop
  | .token tokens =>
    -- The bearer token is a key with a subject, or no name of every object.
    ∀ token, req.bearerToken = some token →
      (∀ p, tokens.lookup token = some p → p.sub ≠ "")
        ∧ (tokens.lookup token = none → token ∉ objectPrototype)
  | .hmac _ _ => True
  | .jwt options =>
    -- The operator's own mapping gives a subject.
    ∀ f p, options.principalFromClaims = some f →
      Vouches prims cache req (.jwt options) p → p.sub ≠ ""

/-- **The condition**: a capability token has a number for its `exp`, any
other credential is usable. -/
def WellCredentialed (prims : Primitives) (options : HookOptions)
    (cache : JwksCache) (req : FastifyRequest) : Prop :=
  match options.capability, req.capabilityToken with
  | some auth, some token =>
    ∀ payload, CapabilitySigned prims auth token payload → HasExp prims payload
  | _, _ => ∀ a, options.auth = some a → a.Usable prims cache req

variable {prims : Primitives} {options : HookOptions} {cache : JwksCache}
  {req : FastifyRequest} {v : PrincipalValue}

/-- A principal that is vouched for has a subject, if the credential is
usable. -/
theorem Authenticator.Usable.sub_ne {a : Authenticator} {p : Principal}
    (hu : a.Usable prims cache req) (h : Vouches prims cache req a p) :
    p.sub ≠ "" := by
  cases a with
  | token tokens =>
    obtain ⟨token, hb, hl⟩ := h
    exact (hu token hb).1 p hl
  | hmac secret options =>
    obtain ⟨_, _, _, -, -, -, -, -, -, hm⟩ := h
    exact materializePrincipal_sub hm
  | jwt options =>
    cases hf : options.principalFromClaims with
    | some f => exact hu f p hf h
    | none =>
      obtain ⟨_, _, _, _, -, -, -, -, hp⟩ := h
      rw [VerifyJwtOptions.principal, hf] at hp
      exact defaultPrincipalFromClaims_sub hp

/-- What the verifier's part of the hook lets through. -/
theorem authenticate_ok (h : (options.authenticate prims cache req).fst = .ok v) :
    (options.auth = none ∧ v = .principal anonymousPrincipal)
    ∨ (∃ a, options.auth = some a ∧ options.requireAuth = false
        ∧ (a.auth prims cache req).fst = .ok none
        ∧ v = .principal anonymousPrincipal)
    ∨ ∃ a, options.auth = some a ∧ (a.auth prims cache req).fst = .ok (some v) := by
  unfold HookOptions.authenticate at h
  cases ha : options.auth with
  | none =>
    rw [ha] at h
    exact .inl ⟨rfl, (Except.ok.inj h).symm⟩
  | some a =>
    rw [ha] at h
    dsimp only at h
    generalize hr : a.auth prims cache req = r at h
    obtain ⟨r, cache'⟩ := r
    cases r with
    | error e => cases h
    | ok o =>
      cases o with
      | some w =>
        cases h
        exact .inr (.inr ⟨a, rfl, by rw [hr]⟩)
      | none =>
        dsimp only at h
        split at h
        · cases h
        · next hreq =>
          cases h
          exact .inr (.inl ⟨a, rfl, by simpa using hreq, by rw [hr], rfl⟩)

section Verifier

variable (hno : ∀ auth token, options.capability = some auth →
  req.capabilityToken ≠ some token)

include hno

/-- Without a capability token, or where none are taken, the verifier is asked. -/
theorem makeAuthHook_verifier :
    makeAuthHook prims options cache req = options.authenticate prims cache req := by
  unfold makeAuthHook
  split
  · next auth token hc ht => exact absurd ht (hno auth token hc)
  · rfl

theorem authenticated_verifier :
    Authenticated prims options cache req v ↔
      (v = .principal anonymousPrincipal
        ∧ (options.auth = none ∨ options.requireAuth = false))
      ∨ ∃ a p, options.auth = some a ∧ Vouches prims cache req a p ∧ p.sub ≠ ""
        ∧ v = .principal p := by
  unfold Authenticated
  split
  · next auth token hc ht => exact absurd ht (hno auth token hc)
  · exact Iff.rfl

theorem wellCredentialed_verifier :
    WellCredentialed prims options cache req ↔
      ∀ a, options.auth = some a → a.Usable prims cache req := by
  unfold WellCredentialed
  split
  · next auth token hc ht => exact absurd ht (hno auth token hc)
  · exact Iff.rfl

end Verifier

/-- **Authentication is sound** for a request that is let through, if and only
if its credential is as the condition asks. -/
theorem auth_sound_iff (h : (makeAuthHook prims options cache req).fst = .ok v) :
    Authenticated prims options cache req v ↔
      WellCredentialed prims options cache req := by
  by_cases hcap : ∃ auth token, options.capability = some auth
      ∧ req.capabilityToken = some token
  · obtain ⟨auth, token, hc, ht⟩ := hcap
    unfold makeAuthHook at h
    unfold Authenticated WellCredentialed
    rw [hc, ht] at h ⊢
    dsimp only at h ⊢
    obtain ⟨payload, hv, h⟩ := Except.bind_eq_ok_iff.mp h
    obtain ⟨p, hp, rfl⟩ := Except.map_eq_ok_iff.mp h
    have hs := (verifyCapability_signed hv).1
    constructor
    · rintro ⟨payload', p', hg, -, -⟩ payload'' hs''
      rw [← hs.unique hs'', ← hg.signed.unique hs]
      obtain ⟨exp, e, hexp, he, -⟩ := hg.unexpired
      exact ⟨exp, hexp, Option.isSome_iff_exists.mpr ⟨e, he⟩⟩
    · intro hw
      exact ⟨payload, p, (verifyCapability_grants_iff hv).mpr (hw payload hs), hp,
        rfl⟩
  · have hno : ∀ auth token, options.capability = some auth →
        req.capabilityToken ≠ some token :=
      fun auth token hc ht => hcap ⟨auth, token, hc, ht⟩
    rw [makeAuthHook_verifier hno] at h
    rw [authenticated_verifier hno, wellCredentialed_verifier hno]
    constructor
    · rintro hs a ha
      have hsub : ∀ p, Vouches prims cache req a p → p.sub ≠ "" := by
        intro p hp
        have hv := auth_principal_iff.mpr hp
        obtain ⟨hn, -⟩ | ⟨a', ha', -, hn, -⟩ | ⟨a', ha', hv'⟩ := authenticate_ok h
        · cases ha.symm.trans hn
        · cases ha.symm.trans ha'
          cases hn.symm.trans hv
        · cases ha.symm.trans ha'
          cases hv.symm.trans hv'
          obtain ⟨hanon, -⟩ | ⟨a'', p', ha'', hp', hne, hpp⟩ := hs
          · cases hanon
            decide
          · cases hpp
            exact hne
      cases a with
      | token tokens =>
        intro token hb
        refine ⟨fun p hl => hsub p ⟨token, hb, hl⟩, fun hl hn => ?_⟩
        have hv : (Authenticator.auth prims (.token tokens) cache req).fst
            = .ok (some (.inherited token)) :=
          auth_inherited_iff.mpr ⟨tokens, rfl, hb, hl, hn⟩
        obtain ⟨hnone, -⟩ | ⟨a', ha', -, hnone, -⟩ | ⟨a', ha', hv'⟩ :=
          authenticate_ok h
        · cases ha.symm.trans hnone
        · cases ha.symm.trans ha'
          cases hnone.symm.trans hv
        · cases ha.symm.trans ha'
          cases hv.symm.trans hv'
          obtain ⟨hanon, -⟩ | ⟨_, _, -, -, -, hpp⟩ := hs
          · cases hanon
          · cases hpp
      | hmac secret o => trivial
      | jwt o => exact fun f p _ hp => hsub p hp
    · intro hw
      obtain ⟨hn, rfl⟩ | ⟨a, ha, hreq, -, rfl⟩ | ⟨a, ha, hv⟩ := authenticate_ok h
      · exact .inl ⟨rfl, .inl hn⟩
      · exact .inl ⟨rfl, .inr hreq⟩
      · cases v with
        | principal p =>
          have hp := auth_principal_iff.mp hv
          exact .inr ⟨a, p, ha, hp, (hw a ha).sub_ne hp, rfl⟩
        | inherited name =>
          obtain ⟨tokens, rfl, hb, hl, hn⟩ := auth_inherited_iff.mp hv
          exact absurd hn ((hw _ ha name hb).2 hl)

/-! A server with one token, which wants every request to be authenticated. -/

/-- Primitives, as they behave on the requests below. -/
def samplePrimitives : Primitives where
  fromBase64 s :=
    if s = "eyJzdWIiOiJzeXN0ZW0ifQ==" then
      "\x7b\"sub\":\"system\"\x7d".toList.map (fun c => UInt8.ofNat c.toNat)
    else []
  fromUtf8 bytes := String.ofList (bytes.map (fun b => Char.ofNat b.toNat))
  toUtf8 s := s.toList.map (fun c => UInt8.ofNat c.toNat)
  parse s :=
    if s = "\x7b\"sub\":\"system\"\x7d" then some (.obj [("sub", .str "system")])
    else none
  hmacHex algorithm secret data :=
    if algorithm = "sha256" ∧ secret = "s3cret" ∧ data = "eyJzdWIiOiJzeXN0ZW0ifQ==" then
      "6711b2ed87578653b958a699abaf8387975c4e8377be486aa92604bd9f2b85cd"
    else ""
  hmacSha256 _ _ := []
  rsaVerify _ _ _ := none
  ecdsaVerify _ _ _ := none
  ed25519Verify _ _ _ := false
  number
    | .num n => some n
    | _ => none
  string
    | .str s => some s
    | _ => none

/-- A principal that is nothing but its subject. -/
def subject (sub : String) : Principal := ⟨sub, none, none, none, none⟩

/-- A request with these headers. -/
def sampleRequest (headers : List (String × String)) : FastifyRequest where
  headers name := (headers.lookup name).map .one
  now _ := 0
  fetchJwks := .error "fetch failed"

def sampleTokens : HookOptions where
  auth := some (.token [("t0ken", subject "alice")])
  requireAuth := true
  capability := none

/-- The bearer of the token is let through as its principal. -/
theorem auth_sound_own_entry :
    Authenticated samplePrimitives sampleTokens ⟨none, 0⟩
        (sampleRequest [("authorization", "Bearer t0ken")])
        (.principal (subject "alice")) ↔
      WellCredentialed samplePrimitives sampleTokens ⟨none, 0⟩
        (sampleRequest [("authorization", "Bearer t0ken")]) :=
  auth_sound_iff rfl

/-- **Authentication is not sound**: the bearer of `constructor` is let through
as well, where no request may be anonymous. -/
theorem not_auth_sound :
    ¬∀ (prims : Primitives) (options : HookOptions) (cache : JwksCache)
      (req : FastifyRequest) (v : PrincipalValue),
      (makeAuthHook prims options cache req).fst = .ok v →
        Authenticated prims options cache req v := by
  intro h
  have ha := h samplePrimitives sampleTokens ⟨none, 0⟩
    (sampleRequest [("authorization", "Bearer constructor")])
    (.inherited "constructor") rfl
  obtain ⟨ha, -⟩ | ⟨_, _, -, -, -, ha⟩ := ha <;> cases ha

/-! ## The system

Nothing in the hook compares a subject with `system`, so the question is only
what the verifier vouches for. -/

/-- **The credential names the system**: no capability token is presented where
they are taken, and the principal the verifier vouches for has its subject. -/
def NamesSystem (prims : Primitives) (options : HookOptions) (cache : JwksCache)
    (req : FastifyRequest) : Prop :=
  (options.capability = none ∨ req.capabilityToken = none)
    ∧ ∃ a p, options.auth = some a ∧ Vouches prims cache req a p
      ∧ p.sub = "system"

/-- **A request is not the system**, if and only if its credential does not
name the system. -/
theorem auth_not_system_iff
    (h : (makeAuthHook prims options cache req).fst = .ok v) :
    v.bypasses = false ↔ ¬NamesSystem prims options cache req := by
  unfold makeAuthHook at h
  split at h
  · next auth token hc ht =>
    obtain ⟨payload, hv, h⟩ := Except.bind_eq_ok_iff.mp h
    obtain ⟨p, hp, rfl⟩ := Except.map_eq_ok_iff.mp h
    obtain ⟨s, hs⟩ := principalOfClaims_sub hp
    refine iff_of_true ?_ ?_
    · show (p.sub == "system") = false
      rw [hs, beq_eq_false_iff_ne]
      intro he
      have hl := congrArg String.toList he
      rw [String.toList_append] at hl
      exact absurd (List.cons.inj hl).1 (by decide)
    · rintro ⟨hno, -⟩
      rw [hc, ht] at hno
      exact hno.elim nofun nofun
  · next hno =>
    have hpath : options.capability = none ∨ req.capabilityToken = none := by
      cases hc : options.capability with
      | none => exact .inl rfl
      | some auth =>
        cases ht : req.capabilityToken with
        | none => exact .inr rfl
        | some token => exact absurd ht (hno auth token hc)
    obtain ⟨hn, rfl⟩ | ⟨a, ha, hreq, hnone, rfl⟩ | ⟨a, ha, hv⟩ := authenticate_ok h
    · refine iff_of_true rfl ?_
      rintro ⟨-, a, p, ha, -⟩
      cases ha.symm.trans hn
    · refine iff_of_true rfl ?_
      rintro ⟨-, a', p, ha', hp, -⟩
      cases ha.symm.trans ha'
      cases hnone.symm.trans (auth_principal_iff.mpr hp)
    · cases v with
      | principal p =>
        have hp := auth_principal_iff.mp hv
        show (p.sub == "system") = false ↔ _
        rw [beq_eq_false_iff_ne]
        refine not_congr ⟨fun hs => ⟨hpath, a, p, ha, hp, hs⟩, ?_⟩
        rintro ⟨-, a', p', ha', hp', hs⟩
        cases ha.symm.trans ha'
        rwa [hp.unique hp']
      | inherited name =>
        refine iff_of_true rfl ?_
        rintro ⟨-, a', p, ha', hp, -⟩
        cases ha.symm.trans ha'
        cases hv.symm.trans (auth_principal_iff.mpr hp)

/-- The bearer of the token is not the system. -/
theorem auth_not_system_own_entry :
    PrincipalValue.bypasses (.principal (subject "alice")) = false ↔
      ¬NamesSystem samplePrimitives sampleTokens ⟨none, 0⟩
        (sampleRequest [("authorization", "Bearer t0ken")]) :=
  auth_not_system_iff rfl

/-- A server that takes principals signed with its secret. -/
def sampleHmac : HookOptions where
  auth := some (.hmac "s3cret" {})
  requireAuth := true
  capability := none

/-- **A request may be the system**: a signed payload that names it makes it
so. -/
theorem not_auth_not_system :
    ¬∀ (prims : Primitives) (options : HookOptions) (cache : JwksCache)
      (req : FastifyRequest) (v : PrincipalValue),
      (makeAuthHook prims options cache req).fst = .ok v →
        v.bypasses = false := by
  intro h
  have hv := h samplePrimitives sampleHmac ⟨none, 0⟩
    (sampleRequest
      [("x-actjs-principal", "eyJzdWIiOiJzeXN0ZW0ifQ=="),
        ("x-actjs-signature",
          "6711b2ed87578653b958a699abaf8387975c4e8377be486aa92604bd9f2b85cd")])
    (.principal (subject "system")) rfl
  exact absurd hv (by decide)
