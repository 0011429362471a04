import Actjs.AuthSoundness
import Actjs.Base64
import Actjs.JsonText

/-!
# Capability tokens

An issuer writes a header and some claims as JSON, both as base64url, and signs the text
that the two make with a dot between them. What is read back when a token is verified are
the very claims, until they expire or their id is revoked; and since the signature is of
that one text, no other header and no other claims can stand in front of it.

What `JSON.stringify` writes, and what signing makes, is a parameter; base64 and the
checks are the source's.
-/

/-! ## Minting -/

/-- `CapabilityMintInput`. -/
structure CapabilityMintInput where
  className : String
  id : String
  methods : List String
  ttlMs : ℤ
  audience : Option String
  nowMs : Option ℤ

/-- `CapabilityError`. -/
structure CapabilityError where
  message : String
  code : String

/-- A `CapabilityIssuer`: its name and its keys, the private one by what it signs. -/
structure CapabilityIssuer where
  issuer : String
  publicKey : String
  sign : Bytes → Bytes
  maxTtlMs : ℤ

/-- `DEFAULT_MAX_TTL_MS` -/
def defaultMaxTtlMs : ℤ := 24 * 60 * 60 * 1000

/-- `b64uEncode`. -/
def b64uEncode (buf : Bytes) : String :=
  String.ofList (((Base64.encode buf).rdropWhile (fun c => c == '=')).map (fun c =>
    if c = '+' then '-' else if c = '/' then '_' else c))

/-- `b64uJson`. -/
def b64uJson (prims : Primitives) (stringify : Json → String) (value : Json) : String :=
  b64uEncode (prims.toUtf8 (stringify value))

namespace CapabilityIssuer

/-- The constructor, with a key pair. -/
def new (issuer publicKey : String) (sign : Bytes → Bytes) (maxTtlMs : Option ℤ) :
    CapabilityIssuer :=
  ⟨issuer, publicKey, sign, maxTtlMs.getD defaultMaxTtlMs⟩

/-- The header of every token. -/
def header : Json := .obj [("alg", .str "EdDSA"), ("typ", .str "JWT")]

/-- The second that a token expires at. -/
def exp (now : ℤ) (input : CapabilityMintInput) : ℤ :=
  (input.nowMs.getD now + input.ttlMs) / 1000

/-- The claims of a token. -/
def claims (ci : CapabilityIssuer) (now : ℤ) (nextJti : String) (input : CapabilityMintInput) :
    Json :=
  .obj ([("iss", .str ci.issuer), ("sub", .str (input.className ++ ":" ++ input.id))]
    ++ (match input.audience with
      | some audience => if audience = "" then [] else [("aud", .str audience)]
      | none => [])
    ++ [("mth", .arr (input.methods.map .str)),
      ("exp", .num (exp now input)), ("jti", .str nextJti)])

/-- What is signed of a token. -/
def signingInput (ci : CapabilityIssuer) (prims : Primitives) (stringify : Json → String)
    (now : ℤ) (nextJti : String) (input : CapabilityMintInput) : String :=
  b64uJson prims stringify header ++ "." ++ b64uJson prims stringify (ci.claims now nextJti input)

/-- `mint`, when the clock shows `now` and the next token id is `nextJti`. -/
def mint (ci : CapabilityIssuer) (prims : Primitives) (stringify : Json → String) (now : ℤ)
    (nextJti : String) (input : CapabilityMintInput) : Except CapabilityError String :=
  if input.ttlMs ≤ 0 then .error ⟨"ttlMs must be positive", "InvalidCapability"⟩
  else if ci.maxTtlMs < input.ttlMs then
    .error ⟨"ttlMs " ++ toString input.ttlMs ++ " exceeds maximum " ++ toString ci.maxTtlMs,
      "InvalidCapability"⟩
  else if input.methods = [] then .error ⟨"methods must be non-empty", "InvalidCapability"⟩
  else
    let signingInput := ci.signingInput prims stringify now nextJti input
    .ok (signingInput ++ "." ++ b64uEncode (ci.sign (prims.toUtf8 signingInput)))

end CapabilityIssuer

/-! ## What is read back

The hypotheses on the parameters: what was stringified is parsed as it was,
and what was signed verifies. -/

/-- What a round trip rests on of the primitives: base64 is decoded, texts are read back
from UTF-8, and the number of a number is itself. -/
structure Primitives.ReadBack (prims : Primitives) : Prop where
  base64 : ∀ s, (∀ c ∈ s.toList, c ∈ Base64.digits ∨ c = '=') →
    prims.fromBase64 s = Base64.decode s.toList
  utf8 : ∀ s, prims.fromUtf8 (prims.toUtf8 s) = s
  number : ∀ n, prims.number (.num n) = some n

/-- Other digits, of the alphabet that is safe in URLs, and back. -/
theorem map_urlDigit {c : Char} (hc : c ∈ Base64.digits) :
    (fun c => if c = '-' then '+' else if c = '_' then '/' else c)
      (if c = '+' then '-' else if c = '/' then '_' else c) = c := by
  have hall : Base64.digits.all (fun c =>
      (fun c => if c = '-' then '+' else if c = '_' then '/' else c)
        (if c = '+' then '-' else if c = '/' then '_' else c) == c) = true := by decide +kernel
  exact beq_iff_eq.mp (List.all_eq_true.mp hall c hc)

/-- **`b64uDecode` inverts `b64uEncode`**, whatever the number of bytes. -/
theorem Primitives.ReadBack.b64uDecode_b64uEncode {prims : Primitives} (h : prims.ReadBack)
    (bytes : Bytes) : prims.b64uDecode (b64uEncode bytes) = bytes := by
  have hback : (b64uEncode bytes).toList.map
      (fun c => if c = '-' then '+' else if c = '_' then '/' else c) = Base64.body bytes := by
    rw [b64uEncode, String.toList_ofList, Base64.rdropWhile_encode, List.map_map]
    refine (List.map_congr_left (fun c hc => ?_)).trans (List.map_id _)
    exact map_urlDigit (Base64.body_mem hc)
  rw [Primitives.b64uDecode, hback, h.base64]
  · rw [String.toList_ofList, Base64.decode_body]
  · intro c hc
    rw [String.toList_ofList] at hc
    exact (List.mem_append.mp hc).imp Base64.body_mem List.eq_of_mem_replicate

/-- No segment has a dot in it. -/
theorem dot_notMem_b64uEncode (bytes : Bytes) : '.' ∉ (b64uEncode bytes).toList := by
  rw [b64uEncode, String.toList_ofList, Base64.rdropWhile_encode]
  intro hmem
  obtain ⟨c, hc, hdot⟩ := List.mem_map.mp hmem
  have hall : Base64.digits.all (fun c =>
      (if c = '+' then '-' else if c = '/' then '_' else c) != '.') = true := by decide +kernel
  exact bne_iff_ne.mp (List.all_eq_true.mp hall c (Base64.body_mem hc)) hdot

/-- A segment is read as what it was written from. -/
theorem Primitives.ReadBack.segment_b64uJson {prims : Primitives} (h : prims.ReadBack)
    {stringify : Json → String} {v : Json} (hv : prims.parse (stringify v) = some v) :
    prims.segment (b64uJson prims stringify v) = some v := by
  rw [Primitives.segment, b64uJson, h.b64uDecode_b64uEncode, h.utf8, hv]

/-! ## The parts of a token

A token has three parts since no part has a dot in it; another header or other
claims make another text, which the signature is not of. -/

theorem splitOn_dots (a b c : String) : (a ++ "." ++ b ++ "." ++ c).toList.splitOn '.'
    = a.toList.splitOn '.' ++ (b.toList.splitOn '.' ++ c.toList.splitOn '.') := by
  have hdot : ".".toList = ['.'] := rfl
  simp only [String.toList_append, hdot, List.append_assoc, List.cons_append, List.nil_append]
  rw [List.splitOn_append_cons_self, List.splitOn_append_cons_self]

/-- Three parts without dots. -/
theorem splitToken_of_notMem {a b c : String} (ha : '.' ∉ a.toList) (hb : '.' ∉ b.toList)
    (hc : '.' ∉ c.toList) : splitToken (a ++ "." ++ b ++ "." ++ c) = some (a, b, c) := by
  rw [splitToken, splitOn_dots, List.splitOn_eq_singleton ha, List.splitOn_eq_singleton hb,
    List.splitOn_eq_singleton hc]
  simp

/-- What is not parted is the one part. -/
theorem ofList_of_splitOn {a : String} {part : List Char} (h : a.toList.splitOn '.' = [part]) :
    String.ofList part = a := by
  have hjoined : ['.'].intercalate (a.toList.splitOn '.') = a.toList :=
    List.intercalate_splitOn '.'
  rw [h, List.intercalate_singleton] at hjoined
  rw [hjoined, String.ofList_toList]

/-- The parts of a token are what it is made of. -/
theorem eq_of_splitToken {a b c : String} {parts : String × String × String}
    (h : splitToken (a ++ "." ++ b ++ "." ++ c) = some parts) : parts = (a, b, c) := by
  obtain ⟨a', as, ha⟩ := List.exists_cons_of_ne_nil (List.splitOn_ne_nil '.' a.toList)
  obtain ⟨b', bs, hb⟩ := List.exists_cons_of_ne_nil (List.splitOn_ne_nil '.' b.toList)
  obtain ⟨c', cs, hc⟩ := List.exists_cons_of_ne_nil (List.splitOn_ne_nil '.' c.toList)
  rw [splitToken, splitOn_dots, ha, hb, hc] at h
  split at h
  · next x y z heq =>
    have hlen := congrArg List.length heq
    simp only [List.length_append, List.length_cons, List.length_nil] at hlen
    obtain rfl := List.eq_nil_of_length_eq_zero (l := as) (by omega)
    obtain rfl := List.eq_nil_of_length_eq_zero (l := bs) (by omega)
    obtain rfl := List.eq_nil_of_length_eq_zero (l := cs) (by omega)
    cases heq
    rw [← Option.some.inj h, ofList_of_splitOn ha, ofList_of_splitOn hb, ofList_of_splitOn hc]
  · cases h

namespace CapabilityIssuer

variable {prims : Primitives} {stringify : Json → String} {ci : CapabilityIssuer} {now : ℤ}
  {jti : String} {input : CapabilityMintInput}

/-- What the checks ask of the claims. -/
theorem claim_claims (ci : CapabilityIssuer) (now : ℤ) (jti : String)
    (input : CapabilityMintInput) :
    claim (ci.claims now jti input) "exp" = .ok (.num (exp now input))
    ∧ claim (ci.claims now jti input) "nbf" = .ok .undefined
    ∧ claim (ci.claims now jti input) "jti" = .ok (.str jti) := by
  unfold claims
  cases input.audience with
  | none => exact ⟨rfl, rfl, rfl⟩
  | some audience =>
    dsimp only
    split <;> exact ⟨rfl, rfl, rfl⟩

/-- **What an issuer mints**, and what it asks for that. -/
theorem mint_iff {token : String} : ci.mint prims stringify now jti input = .ok token
    ↔ 0 < input.ttlMs ∧ input.ttlMs ≤ ci.maxTtlMs ∧ input.methods ≠ []
      ∧ token = ci.signingInput prims stringify now jti input ++ "."
        ++ b64uEncode (ci.sign (prims.toUtf8 (ci.signingInput prims stringify now jti input))) := by
  unfold mint
  constructor
  · intro h
    split at h
    · cases h
    next hpos =>
    split at h
    · cases h
    next hmax =>
    split at h
    · cases h
    next hmethods =>
    exact ⟨not_le.mp hpos, not_lt.mp hmax, hmethods, (Except.ok.inj h).symm⟩
  · rintro ⟨hpos, hmax, hmethods, rfl⟩
    rw [if_neg (not_le.mpr hpos), if_neg (not_lt.mpr hmax), if_neg hmethods]

/-- The segments of a token. -/
theorem splitToken_mint {token : String}
    (h : ci.mint prims stringify now jti input = .ok token) :
    splitToken token = some (b64uJson prims stringify header,
      b64uJson prims stringify (ci.claims now jti input),
      b64uEncode (ci.sign (prims.toUtf8 (ci.signingInput prims stringify now jti input)))) := by
  obtain ⟨-, -, -, rfl⟩ := mint_iff.mp h
  exact splitToken_of_notMem (dot_notMem_b64uEncode _) (dot_notMem_b64uEncode _)
    (dot_notMem_b64uEncode _)

/-- **What a minted token is verified to**: its claims, unless it has expired or its id is
revoked. -/
theorem verifyCapability_mint {token : String} (hprims : prims.ReadBack)
    (hsign : ∀ m s, prims.ed25519Verify ci.publicKey m s = true ↔ s = ci.sign m)
    (hheader : prims.parse (stringify header) = some header)
    (hclaims : prims.parse (stringify (ci.claims now jti input))
      = some (ci.claims now jti input))
    (hmint : ci.mint prims stringify now jti input = .ok token)
    (isRevoked : Option (Json → Bool)) (nowMs : ℤ) :
    verifyCapability prims ⟨ci.publicKey, isRevoked⟩ nowMs token
      = if exp now input * 1000 ≤ nowMs then
          .error (.capability "capability expired" "CapabilityExpired")
        else if isRevoked.any (fun isRevoked => isRevoked (.str jti)) then
          .error (.capability "capability revoked" "CapabilityRevoked")
        else .ok (ci.claims now jti input) := by
  obtain ⟨hexp, hnbf, hjti⟩ := claim_claims ci now jti input
  have halg : claim header "alg" = .ok (.str "EdDSA") := rfl
  have hverify : prims.ed25519Verify ci.publicKey (prims.toUtf8 (b64uJson prims stringify header
      ++ "." ++ b64uJson prims stringify (ci.claims now jti input)))
      (ci.sign (prims.toUtf8 (ci.signingInput prims stringify now jti input))) = true :=
    (hsign _ _).mpr rfl
  unfold verifyCapability
  rw [splitToken_mint hmint]
  dsimp only
  rw [hprims.segment_b64uJson hheader, hprims.segment_b64uJson hclaims]
  dsimp only
  rw [hprims.b64uDecode_b64uEncode, halg, hexp, hnbf, hjti]
  by_cases hlate : exp now input * 1000 ≤ nowMs
  · simp [check, Json.isString, hverify, hprims.number, hlate, bind, Except.bind]
  by_cases hrevoked : isRevoked.any (fun isRevoked => isRevoked (.str jti)) = true
  · simp [check, Json.isString, Json.typeof, hverify, hprims.number, hlate, hrevoked, bind,
      Except.bind]
  · simp [check, Json.isString, Json.typeof, hverify, hprims.number, hlate, hrevoked, bind,
      Except.bind, pure, Except.pure]

/-- **No other header and no other claims can stand in front of a signature**, if it is of
one text alone. -/
theorem verifyCapability_altered {token : String} (hprims : prims.ReadBack)
    (hsign : ∀ m s, prims.ed25519Verify ci.publicKey m s = true ↔ s = ci.sign m)
    (honly : ∀ m, ci.sign m = ci.sign (prims.toUtf8 (ci.signingInput prims stringify now jti input))
      → m = prims.toUtf8 (ci.signingInput prims stringify now jti input))
    (hmint : ci.mint prims stringify now jti input = .ok token) {a b c : String}
    (hsplit : splitToken token = some (a, b, c)) {a' b' : String} (hne : (a', b') ≠ (a, b))
    (isRevoked : Option (Json → Bool)) (nowMs : ℤ) :
    ∃ e, verifyCapability prims ⟨ci.publicKey, isRevoked⟩ nowMs (a' ++ "." ++ b' ++ "." ++ c)
      = .error e := by
  cases hv : verifyCapability prims ⟨ci.publicKey, isRevoked⟩ nowMs (a' ++ "." ++ b' ++ "." ++ c)
    with
  | error e => exact ⟨e, rfl⟩
  | ok payload =>
    obtain ⟨⟨a'', b'', c'', _, hsplit', -, -, -, hed⟩, -, -⟩ := verifyCapability_signed hv
    cases eq_of_splitToken hsplit'
    cases (splitToken_mint hmint).symm.trans hsplit
    -- the signature is that of the text it came with
    rw [hsign, hprims.b64uDecode_b64uEncode] at hed
    have htext := congrArg prims.fromUtf8 (honly _ hed.symm)
    rw [hprims.utf8, hprims.utf8, signingInput] at htext
    rw [htext] at hsplit'
    have hparts := (splitToken_of_notMem (dot_notMem_b64uEncode _) (dot_notMem_b64uEncode _)
      (dot_notMem_b64uEncode _)).symm.trans hsplit'
    have hparts := Option.some.inj hparts
    simp only [Prod.mk.injEq, and_true] at hparts
    exact absurd (Prod.ext hparts.1.symm hparts.2.symm) hne

/-- **The round trip of a capability token**: with the key it was signed for, a minted token
is verified to exactly the claims it was minted with as long as it has not expired and its
id is not revoked, and is rejected otherwise; base64url decoding inverts encoding; and if
the signature is of one text alone, the token is rejected with any other header segment and
with any other claims segment, however little they differ. -/
theorem capability_round_trip {token : String} (hprims : prims.ReadBack)
    (hsign : ∀ m s, prims.ed25519Verify ci.publicKey m s = true ↔ s = ci.sign m)
    (hheader : prims.parse (stringify header) = some header)
    (hclaims : prims.parse (stringify (ci.claims now jti input))
      = some (ci.claims now jti input))
    (hmint : ci.mint prims stringify now jti input = .ok token) :
    (∀ (isRevoked : Option (Json → Bool)) (nowMs : ℤ),
      (nowMs < 1000 * ((input.nowMs.getD now + input.ttlMs) / 1000)
          ∧ isRevoked.any (fun isRevoked => isRevoked (.str jti)) = false →
        verifyCapability prims ⟨ci.publicKey, isRevoked⟩ nowMs token
          = .ok (ci.claims now jti input))
      ∧ (¬(nowMs < 1000 * ((input.nowMs.getD now + input.ttlMs) / 1000)
          ∧ isRevoked.any (fun isRevoked => isRevoked (.str jti)) = false) →
        ∃ e, verifyCapability prims ⟨ci.publicKey, isRevoked⟩ nowMs token = .error e))
    ∧ (∀ bytes, prims.b64uDecode (b64uEncode bytes) = bytes)
    ∧ ∃ headerB64 payloadB64 sigB64, splitToken token = some (headerB64, payloadB64, sigB64)
      ∧ ((∀ m, ci.sign m = ci.sign (prims.toUtf8 (headerB64 ++ "." ++ payloadB64)) →
          m = prims.toUtf8 (headerB64 ++ "." ++ payloadB64)) →
        ∀ headerB64' payloadB64', (headerB64', payloadB64') ≠ (headerB64, payloadB64) →
        ∀ (isRevoked : Option (Json → Bool)) (nowMs : ℤ),
        ∃ e, verifyCapability prims ⟨ci.publicKey, isRevoked⟩ nowMs
          (headerB64' ++ "." ++ payloadB64' ++ "." ++ sigB64) = .error e) := by
  refine ⟨fun isRevoked nowMs => ?_, hprims.b64uDecode_b64uEncode, _, _, _, splitToken_mint hmint,
    fun honly _ _ hne =>
      verifyCapability_altered hprims hsign honly hmint (splitToken_mint hmint) hne⟩
  rw [verifyCapability_mint hprims hsign hheader hclaims hmint, exp, mul_comm]
  constructor
  · rintro ⟨hnow, hrevoked⟩
    rw [if_neg (not_le.mpr hnow), if_neg (Bool.not_eq_true _ ▸ hrevoked)]
  · intro hnot
    split
    · exact ⟨_, rfl⟩
    · next hnow =>
      split
      · exact ⟨_, rfl⟩
      · next hrevoked =>
        exact absurd ⟨not_le.mp hnow, Bool.not_eq_true _ ▸ hrevoked⟩ hnot

end CapabilityIssuer

/-! A token for one method of one note, with a minute to live. -/

/-- What is signed of the token. -/
def noteMessage : String :=
  "eyJhbGciOiJFZERTQSIsInR5cCI6IkpXVCJ9."
    ++ "eyJpc3MiOiJhY3RqcyIsInN1YiI6Ik5vdGU6bjEiLCJtdGgiOlsiY2FsbDpyZWFkIl0s"
    ++ "ImV4cCI6MTcwMDAwMDA2MCwianRpIjoiajEifQ"

/-- Its signature, which no other text has. -/
def noteSign (m : Bytes) : Bytes :=
  if m = noteMessage.toUTF8.data.toList then
    [106, 70, 180, 163, 98, 119, 115, 43, 86, 130, 15, 164, 40, 64, 128, 126, 54, 226, 164, 220,
      82, 207, 171, 67, 119, 189, 175, 227, 175, 148, 182, 138, 35, 179, 31, 197, 228, 92, 148,
      151, 96, 185, 146, 97, 165, 189, 15, 77, 90, 71, 201, 3, 217, 55, 45, 154, 190, 105, 110,
      19, 30, 130, 123, 11]
  else []

/-- The issuer of the token. -/
def noteIssuer : CapabilityIssuer :=
  .new "actjs" "MCowBQYDK2VwAyEA11qYAYKxCrfVS/7TyWQHOg7hcvPapiMlrwIaaPcHURo=" noteSign none

/-- What the token is minted of. -/
def noteInput : CapabilityMintInput :=
  ⟨"Note", "n1", ["call:read"], 60000, none, none⟩

/-- The JSON texts of the header and of the claims. -/
def noteText (v : Json) : String :=
  if v.same CapabilityIssuer.header then "\x7b\"alg\":\"EdDSA\",\"typ\":\"JWT\"\x7d"
  else "\x7b\"iss\":\"actjs\",\"sub\":\"Note:n1\",\"mth\":[\"call:read\"],"
    ++ "\"exp\":1700000060,\"jti\":\"j1\"\x7d"

/-- Primitives, as they behave on the token. -/
def notePrimitives : Primitives where
  fromBase64 s := Base64.decode s.toList
  fromUtf8 bytes := (String.fromUTF8? ⟨bytes.toArray⟩).getD ""
  toUtf8 s := s.toUTF8.data.toList
  parse s :=
    if s = noteText CapabilityIssuer.header then some CapabilityIssuer.header
    else if s = noteText (noteIssuer.claims 1700000000000 "j1" noteInput) then
      some (noteIssuer.claims 1700000000000 "j1" noteInput)
    else none
  hmacHex _ _ _ := ""
  hmacSha256 _ _ := []
  rsaVerify _ _ _ := none
  ecdsaVerify _ _ _ := none
  ed25519Verify _ m s := s == noteSign m
  number
    | .num n => some n
    | _ => none
  string
    | .str s => some s
    | _ => none

theorem notePrimitives_readBack : notePrimitives.ReadBack where
  base64 _ _ := rfl
  utf8 s := by
    change (String.fromUTF8? s.toByteArray).getD "" = s
    rw [String.fromUTF8?, dif_pos s.isValidUTF8]
    rfl
  number _ := rfl

/-- The text that is signed is that one. -/
theorem signingInput_note : noteIssuer.signingInput notePrimitives noteText 1700000000000 "j1"
    noteInput = noteMessage := by
  decide +kernel

/-- The signature is of that text alone. -/
theorem noteSign_only {m : Bytes} (h : noteSign m = noteSign noteMessage.toUTF8.data.toList) :
    m = noteMessage.toUTF8.data.toList := by
  by_contra hne
  rw [noteSign, if_neg hne, noteSign, if_pos rfl] at h
  exact absurd h (by simp)

/-- The token is good to the last millisecond of its minute, and with its own header alone. -/
theorem CapabilityIssuer.capability_round_trip_note :
    ∃ token headerB64 payloadB64 sigB64,
      noteIssuer.mint notePrimitives noteText 1700000000000 "j1" noteInput = .ok token
      ∧ verifyCapability notePrimitives ⟨noteIssuer.publicKey, none⟩ 1700000059999 token
        = .ok (noteIssuer.claims 1700000000000 "j1" noteInput)
      ∧ splitToken token = some (headerB64, payloadB64, sigB64)
      ∧ ∀ headerB64', headerB64' ≠ headerB64 →
        ∃ e, verifyCapability notePrimitives ⟨noteIssuer.publicKey, none⟩ 1700000059999
          (headerB64' ++ "." ++ payloadB64 ++ "." ++ sigB64) = .error e := by
  have hheader : notePrimitives.parse (noteText header) = some header := by
    decide +kernel
  have hclaims : notePrimitives.parse (noteText (noteIssuer.claims 1700000000000 "j1" noteInput))
      = some (noteIssuer.claims 1700000000000 "j1" noteInput) := by
    decide +kernel
  have hsign : ∀ m s, notePrimitives.ed25519Verify noteIssuer.publicKey m s = true
      ↔ s = noteIssuer.sign m := fun _ _ => beq_iff_eq
  obtain ⟨token, hmint⟩ : ∃ token,
      noteIssuer.mint notePrimitives noteText 1700000000000 "j1" noteInput = .ok token :=
    ⟨_, mint_iff.mpr ⟨by decide, by decide, by decide, rfl⟩⟩
  obtain ⟨hverify, -, headerB64, payloadB64, sigB64, hsplit, haltered⟩ :=
    capability_round_trip notePrimitives_readBack hsign hheader hclaims hmint
  refine ⟨token, headerB64, payloadB64, sigB64, hmint, (hverify none _).1 (by decide), hsplit,
    fun headerB64' hne => haltered ?_ _ _ (fun heq => hne (congrArg Prod.fst heq)) none _⟩
  cases (splitToken_mint hmint).symm.trans hsplit
  have hsigned : b64uJson notePrimitives noteText header ++ "."
      ++ b64uJson notePrimitives noteText (noteIssuer.claims 1700000000000 "j1" noteInput)
      = noteMessage := signingInput_note
  rw [hsigned]
  exact fun m h => noteSign_only h
