import Actjs.Capability
import Mathlib.Logic.Function.Basic

/-!
# Strict audit

A privileged operation – publishing and deprecating a class, tombstoning an
actor, adding and revoking a signing key, migrating a floating actor – is
recorded by an auditor, which in strict mode fails the operation if the
record cannot be written. The operation is not undone: each of them writes
to the storage first and records afterwards, and what was written stays.

So an operation that fails with its audit record leaves the storage as it
was only if there was nothing to write – an actor that has no row is
tombstoned, or what is written is there already, time stamps included.

An operation is a program over the storage that may throw, and that keeps
the storage as it is when it throws. The callback `onError` is left out: it
gets the error and the entry, and has no part in what happens next.
-/

open Function (update)

/-! ## The storage -/

/-- A published version of a class: `ClassVersionRecord`. -/
structure ClassVersionRecord where
  sourceSha256 : String
  deps : List (String × String)
  engines : List (String × String)
  publishedAt : ℤ
  deprecatedAt : Option ℤ
  graceUntil : Option ℕ
  floating : Bool
  eventSourced : Bool
  signedBy : Option String

/-- The row of an actor, with its time stamps. -/
structure StampedRow where
  cls : ClassName
  version : Version
  fence : ℕ
  tombstonedAt : Option ℤ
  lastActiveAt : Option ℤ

/-- A snapshot, with its time stamp. -/
structure StampedSnapshot where
  ts : ℤ
  classVersion : Version
  state : Json

/-- A row of the signing-key registry. -/
structure SigningKeyRow where
  publicKeyPem : String
  addedAt : ℤ
  revokedAt : Option ℤ

/-- What the privileged operations write. -/
structure Stored where
  classVersions : ClassName × Version → Option ClassVersionRecord
  /-- By the hash of the source. -/
  classSource : String → Option String
  actors : ActorId → Option StampedRow
  snapshots : ActorId × ℤ → Option StampedSnapshot
  signingKeys : String → Option SigningKeyRow

/-- An entry of the audit log. -/
structure AuditEntry where
  id : String
  ts : ℤ
  principal : String
  action : String
  target : String
  fields : List (String × Json)

/-- The storage with its audit log. -/
structure AuditedStore where
  stored : Stored
  audit : List AuditEntry

/-! ## Errors -/

/-- What `publishClass` throws by itself. -/
inductive PublishError where
  | invalidVersion (version : String)
  | invalidDepRange (depName range : String)
  | incompatibleEngine (required actual : String)
  | syntaxInvalid (diagnostics : List String)
  | forbiddenImport (statement : String)
  | signatureRequired
  | signatureInvalid (reason : String)

/-- What a privileged operation throws. -/
inductive OpError where
  | publish (e : PublishError)
  | versionAlreadyPublished (name : ClassName) (version : Version)
  | status (message : String) (code : ℕ)
  | unknownClassVersion (name : ClassName) (version : Version)
  | policy (e : CallError)
  | signingKeyExists (kid : String)
  | signingKeyNotFound (kid : String)
  | unsupportedKeyType (type : String)
  /-- What the platform throws: a key that is not PEM. -/
  | threw (message : String)
  | staleFenceToken (expected actual : ℕ)
  /-- `AuditWriteError`. -/
  | auditWrite (message : String)

/-- A program over the storage. -/
abbrev Op (α : Type) := EStateM OpError AuditedStore α

/-- Change the storage, but not the audit log. -/
def modifyStored (f : Stored → Stored) : Op Unit :=
  modify (fun s => { s with stored := f s.stored })

/-! ## The auditor -/

/-- What an operation runs in: the clocks, the audit table, and the libraries
the validation of a class rests on. -/
structure OpEnv where
  /-- The clock of the storage driver. -/
  now : ℤ
  /-- The clocks of the auditor and of the registry of signing keys. -/
  auditNow : ℤ
  keysNow : ℤ
  /-- The id an entry of an action gets. -/
  nextId : String → String
  /-- `appendAudit`: the error it fails with, if it does. -/
  appendAudit : AuditEntry → Option String
  /-- Whether the driver throws for a class version it does not know, as the
  memory driver does. -/
  throwsOnUnknownVersion : Bool
  sha256 : String → String
  semverValid : String → Bool
  semverValidRange : String → Bool
  semverSatisfies : String → String → Bool
  findForbiddenImport : String → Option String
  /-- The diagnostics of the parser, for a source and a name. -/
  parseTypeScript : String → ClassName → List String
  /-- `/^\d+\.\d+\.\d+/`. -/
  versionInPath : String → Bool
  /-- The type of the key in a PEM text, if it is one. -/
  asymmetricKeyType : String → Option String
  /-- `nodeVerify`: of a message, a public key and a signature. -/
  nodeVerify : String → String → String → Except String Bool
  runtime : CallRuntime

/-- An auditor by its mode; `noop` is `NoopAuditor`. -/
inductive Auditor where
  | strict
  | bestEffort
  | noop
  deriving DecidableEq

/-- `derivePrincipal`, of a principal or a string. -/
def derivePrincipal : Option (Principal ⊕ String) → String
  | none => "anonymous"
  | some (.inl p) => if isSystem p = true then "system" else p.sub
  | some (.inr s) => if s = "" then "anonymous" else s

/-- The entry of a record. -/
def auditEntry (env : OpEnv) (action target : String)
    (principal : Option (Principal ⊕ String)) (fields : List (String × Json)) :
    AuditEntry :=
  ⟨env.nextId action, env.auditNow, derivePrincipal principal, action, target,
    fields⟩

/-- **`Auditor.record`.** -/
def Auditor.record (a : Auditor) (env : OpEnv) (action target : String)
    (principal : Option (Principal ⊕ String)) (fields : List (String × Json)) :
    Op Unit :=
  let entry := auditEntry env action target principal fields
  if a = .noop then pure ()
  else
    match env.appendAudit entry with
    | none => modify (fun s => { s with audit := s.audit ++ [entry] })
    | some err =>
      if a = .strict then
        throw (.auditWrite ("audit write failed for " ++ action ++ " on " ++ target
          ++ ": " ++ err))
      else pure ()

/-! ## Publishing -/

/-- A signature that attests a publish. -/
structure PublishSignature where
  kid : String
  signature : String

/-- `PublishInput`. -/
structure PublishInput where
  name : ClassName
  version : Version
  source : String
  deps : Option (List (String × String))
  engines : Option (List (String × String))
  floating : Option Bool
  eventSourced : Option Bool
  principal : Option String
  signature : Option PublishSignature

/-- `PublishOptions`. -/
structure PublishOptions where
  auditor : Option Auditor
  /-- A registry of signing keys is configured. -/
  signingKeys : Bool
  requireSignedClasses : Bool

def serverActjsVersion : String := "0.3.0"

/-- The checks of the dependencies, in order. -/
def validateDeps (env : OpEnv) : List (String × String) → Except PublishError Unit
  | [] => .ok ()
  | (depName, depRange) :: deps =>
    if depName = "" then .error (.invalidDepRange depName depRange)
    else if env.semverValidRange depRange then validateDeps env deps
    else .error (.invalidDepRange depName depRange)

/-- `validatePublish`. -/
def validatePublish (env : OpEnv) (input : PublishInput) :
    Except PublishError Unit := do
  if !env.semverValid input.version then
    throw (.invalidVersion input.version)
  validateDeps env (input.deps.getD [])
  match (input.engines.getD []).lookup "actjs" with
  | some engineRange =>
    if !env.semverValidRange engineRange then
      throw (.incompatibleEngine engineRange serverActjsVersion)
    if !env.semverSatisfies serverActjsVersion engineRange then
      throw (.incompatibleEngine engineRange serverActjsVersion)
  | none => pure ()
  match env.findForbiddenImport input.source with
  | some forbidden => throw (.forbiddenImport forbidden)
  | none => pure ()
  let diagnostics := env.parseTypeScript input.source input.name
  if diagnostics ≠ [] then
    throw (.syntaxInvalid diagnostics)

/-- `signingMessage`. -/
def signingMessage (sha : String) (name : ClassName) (version : Version) : String :=
  "sha256:" ++ sha ++ "|" ++ name ++ "@" ++ version

/-- `MemorySigningKeyRegistry.verify`: why the signature is not accepted, if
it is not. -/
def verifySigningKey (env : OpEnv) (rows : String → Option SigningKeyRow)
    (signature : PublishSignature) (message : String) : Option String :=
  match rows signature.kid with
  | none => some ("signing key " ++ signature.kid ++ " not found")
  | some row =>
    if row.revokedAt.isSome then
      some ("signing key " ++ signature.kid ++ " is revoked")
    else
      match env.nodeVerify message row.publicKeyPem signature.signature with
      | .ok true => none
      | .ok false => some "signature does not verify"
      | .error message => some message

/-- The checks of `publishClass` before it writes: who has signed, if anyone
has. -/
def verifiedSignedBy (env : OpEnv) (options : PublishOptions)
    (input : PublishInput) (rows : String → Option SigningKeyRow) :
    Except PublishError (Option String) :=
  match input.signature with
  | some signature =>
    if !options.signingKeys then
      .error (.signatureInvalid "no signing-key registry configured on the server")
    else
      match verifySigningKey env rows signature
          (signingMessage (env.sha256 input.source) input.name input.version) with
      | some reason => .error (.signatureInvalid reason)
      | none => .ok (some signature.kid)
  | none =>
    if options.requireSignedClasses then .error .signatureRequired else .ok none

/-- `driver.publishClass`. -/
def storeClass (env : OpEnv) (input : PublishInput) (signedBy : Option String) :
    Op Unit := do
  let s ← get
  if (s.stored.classVersions (input.name, input.version)).isSome then
    throw (.versionAlreadyPublished input.name input.version)
  modifyStored (fun t => { t with
    classSource := update t.classSource (env.sha256 input.source)
      (some input.source)
    classVersions := update t.classVersions (input.name, input.version) (some
      { sourceSha256 := env.sha256 input.source
        deps := input.deps.getD []
        engines := input.engines.getD []
        publishedAt := env.now
        deprecatedAt := none
        graceUntil := none
        floating := input.floating.getD false
        eventSourced := input.eventSourced.getD false
        signedBy := signedBy }) })

/-- A check that throws an error of `publishClass`. -/
def checkPublish {α : Type} : Except PublishError α → Op α
  | .ok a => pure a
  | .error e => throw (.publish e)

/-- **`publishClass`.** -/
def publishClass (env : OpEnv) (input : PublishInput) (options : PublishOptions) :
    Op (String × Option String) := do
  checkPublish (validatePublish env input)
  let sha := env.sha256 input.source
  let s ← get
  let signedBy ← checkPublish
    (verifiedSignedBy env options input s.stored.signingKeys)
  storeClass env input signedBy
  let auditor := options.auditor.getD .strict
  let target := input.name ++ "@" ++ input.version
  let principal : Option (Principal ⊕ String) :=
    some (.inr (input.principal.getD "system"))
  auditor.record env "class.published" target principal
    ([("sha256", .str sha), ("floating", .bool (input.floating.getD false)),
      ("eventSourced", .bool (input.eventSourced.getD false))]
      ++ (signedBy.map (fun kid => ("signedBy", .str kid))).toList)
  match signedBy with
  | some kid =>
    auditor.record env "class.signed" target principal
      [("sha256", .str sha), ("kid", .str kid)]
  | none => pure ()
  return (sha, signedBy)

/-! ## Deprecating -/

/-- `deprecateClassVersion`. The ValkeyPg driver updates no row if there is
none, and takes a grace of `0` for none. -/
def deprecateClassVersion (env : OpEnv) (name : ClassName) (version : Version)
    (graceUntil : Option ℕ) : Op Unit := do
  let s ← get
  match s.stored.classVersions (name, version) with
  | none =>
    if env.throwsOnUnknownVersion then throw (.unknownClassVersion name version)
  | some row =>
    let grace := if env.throwsOnUnknownVersion then graceUntil.or row.graceUntil
      else graceUntil.filter (fun g => g ≠ 0)
    modifyStored (fun t => { t with
      classVersions := update t.classVersions (name, version) (some { row with
        deprecatedAt := some env.now, graceUntil := grace }) })

/-- **The deprecate route.** -/
def deprecateRoute (env : OpEnv) (auditor : Auditor) (name : ClassName)
    (version : Version) (graceUntil : Option ℕ) (adminId : Option String) :
    Op Unit := do
  if !env.versionInPath version then
    throw (.status ("invalid semver version in path: " ++ version) 400)
  deprecateClassVersion env name version graceUntil
  auditor.record env "class.deprecated" (name ++ "@" ++ version)
    (some (.inr (adminId.getD "admin")))
    ((graceUntil.map (fun g => ("graceUntilMs", .num g))).toList)

/-! ## Tombstoning -/

/-- `driver.tombstoneActor`. -/
def tombstoneActor (env : OpEnv) (id : ActorId) : Op Unit :=
  modifyStored (fun t =>
    match t.actors id with
    | none => t
    | some row => { t with
      actors := update t.actors id (some { row with
        tombstonedAt := some env.now }) })

/-- **`Runtime.tombstone`**, up to the notification of subscribers. -/
def tombstoneOp (env : OpEnv) (auditor : Auditor) (id : ActorId)
    (principal : Option Principal) : Op Unit := do
  match env.runtime.hosts id with
  | some live =>
    match env.runtime.checkPolicy live.className
        (principal.getD anonymousPrincipal)
        (.destroy ⟨⟨live.className, id, live.version⟩, live.state⟩) with
    | .error e => throw (.policy e)
    | .ok () => pure ()
  | none => pure ()
  tombstoneActor env id
  let className := (env.runtime.hosts id).map LiveHost.className
  auditor.record env "actor.tombstoned" (className.getD "unknown" ++ ":" ++ id)
    (some (.inl (principal.getD anonymousPrincipal)))
    [("actorId", .str id), ("class", (className.map Json.str).getD .undefined)]

/-! ## Signing keys -/

/-- **`MemorySigningKeyRegistry.add`.** -/
def addSigningKey (env : OpEnv) (auditor : Option Auditor) (kid publicKeyPem : String)
    (addedBy : String) : Op Unit := do
  let s ← get
  if (s.stored.signingKeys kid).isSome then
    throw (.signingKeyExists kid)
  match env.asymmetricKeyType publicKeyPem with
  | none => throw (.threw "createPublicKey")
  | some type =>
    if type ≠ "ed25519" then
      throw (.unsupportedKeyType type)
  modifyStored (fun t => { t with
    signingKeys := update t.signingKeys kid
      (some ⟨publicKeyPem, env.keysNow, none⟩) })
  match auditor with
  | some auditor =>
    auditor.record env "signing-key.added" kid (some (.inr addedBy))
      [("algorithm", .str "EdDSA")]
  | none => pure ()

/-- **`MemorySigningKeyRegistry.revoke`.** -/
def revokeSigningKey (env : OpEnv) (auditor : Option Auditor) (kid revokedBy : String) :
    Op Unit := do
  let s ← get
  match s.stored.signingKeys kid with
  | none => throw (.signingKeyNotFound kid)
  | some row =>
    if row.revokedAt.isSome then return ()
    modifyStored (fun t => { t with
      signingKeys := update t.signingKeys kid
        (some { row with revokedAt := some env.keysNow }) })
    match auditor with
    | some auditor =>
      auditor.record env "signing-key.revoked" kid (some (.inr revokedBy))
        [("revokedAt", .num env.keysNow)]
    | none => pure ()

/-! ## Migrating -/

/-- What a host knows when it migrates a snapshot. -/
structure MigratingHost where
  id : ActorId
  className : ClassName
  runningVersion : Version
  fenceToken : ℕ
  isEs : Bool
  /-- The seq of the snapshot that was loaded. -/
  currentSeq : ℕ
  migrate : Option (Json → Version → Except String Json)
  /-- `instance.snapshot()`, of a state. -/
  snapshot : Json → Json

/-- The storage with a snapshot, and the row of its actor active now. -/
def Stored.withSnapshot (t : Stored) (now : ℤ) (id : ActorId) (seq : ℤ)
    (version : Version) (state : Json) : Stored :=
  { t with
    snapshots := update t.snapshots (id, seq) (some ⟨now, version, state⟩)
    actors := update t.actors id ((t.actors id).map (fun row =>
      { row with lastActiveAt := some now })) }

/-- `driver.saveSnapshot`. -/
def saveSnapshot (env : OpEnv) (id : ActorId) (seq : ℤ) (version : Version)
    (state : Json) (expectedFence : ℕ) : Op Unit := do
  let s ← get
  let actual := ((s.stored.actors id).map StampedRow.fence).getD 0
  if actual ≠ expectedFence then
    throw (.staleFenceToken expectedFence actual)
  modifyStored (fun t => t.withSnapshot env.now id seq version state)

/-- **`migrateSnapshot`.** Without a user `migrate` nothing is written. -/
def migrateSnapshot (env : OpEnv) (auditor : Option Auditor) (h : MigratingHost)
    (prevState : Json) (prevVersion : Version) : Op Unit := do
  match h.migrate with
  | none => pure ()
  | some migrate =>
    saveSnapshot env h.id (-1) prevVersion prevState h.fenceToken
    match migrate prevState prevVersion with
    | .error e => throw (.threw e)
    | .ok newState =>
      saveSnapshot env h.id (if h.isEs then h.currentSeq else 0) h.runningVersion
        (h.snapshot newState) h.fenceToken
      match auditor with
      | some auditor =>
        auditor.record env "actor.migrated" (h.className ++ ":" ++ h.id)
          (some (.inr "system"))
          [("actorId", .str h.id), ("class", .str h.className),
            ("fromVersion", .str prevVersion), ("toVersion", .str h.runningVersion)]
      | none => pure ()

/-! ## The operations -/

/-- A privileged operation with its arguments. -/
inductive PrivilegedOp where
  | publish (input : PublishInput) (options : PublishOptions)
  | deprecateVersion (auditor : Auditor) (name : ClassName) (version : Version)
      (graceUntil : Option ℕ) (adminId : Option String)
  | tombstone (auditor : Auditor) (id : ActorId) (principal : Option Principal)
  | addKey (auditor : Option Auditor) (kid publicKeyPem addedBy : String)
  | revokeKey (auditor : Option Auditor) (kid revokedBy : String)
  | migrate (auditor : Option Auditor) (host : MigratingHost) (prevState : Json)
      (prevVersion : Version)

namespace PrivilegedOp

/-- The program of an operation. -/
def run (env : OpEnv) : PrivilegedOp → Op Unit
  | publish input options => do
    let _ ← publishClass env input options
  | deprecateVersion auditor name version graceUntil adminId =>
    deprecateRoute env auditor name version graceUntil adminId
  | tombstone auditor id principal => tombstoneOp env auditor id principal
  | addKey auditor kid publicKeyPem addedBy =>
    addSigningKey env auditor kid publicKeyPem addedBy
  | revokeKey auditor kid revokedBy => revokeSigningKey env auditor kid revokedBy
  | migrate auditor host prevState prevVersion =>
    migrateSnapshot env auditor host prevState prevVersion

/-- **There is nothing to write**: no row to change, or one that is already as
it will be written, time stamps included. -/
def AlreadyWritten (env : OpEnv) (t : Stored) : PrivilegedOp → Prop
  | publish _ _ => False
  | deprecateVersion _ name version graceUntil _ =>
    ∀ row, t.classVersions (name, version) = some row →
      row.deprecatedAt = some env.now
        ∧ row.graceUntil = if env.throwsOnUnknownVersion then
            graceUntil.or row.graceUntil
          else graceUntil.filter (fun g => g ≠ 0)
  | tombstone _ id _ =>
    ∀ row, t.actors id = some row → row.tombstonedAt = some env.now
  | addKey _ _ _ _ => False
  | revokeKey _ _ _ => False
  | migrate _ host prevState prevVersion =>
    ∀ f newState, host.migrate = some f → f prevState prevVersion = .ok newState →
      t.snapshots (host.id, -1) = some ⟨env.now, prevVersion, prevState⟩
        ∧ t.snapshots (host.id, if host.isEs then (host.currentSeq : ℤ) else 0)
          = some ⟨env.now, host.runningVersion, host.snapshot newState⟩
        ∧ ∀ row, t.actors host.id = some row → row.lastActiveAt = some env.now

end PrivilegedOp

/-! ## Where a program fails

A program that fails has run up to one of its operations; the lemmas say
which, and what was written before it. -/

section Failure

variable {α β : Type} {s s' : AuditedStore} {e : OpError}

/-- A sequence fails in its first part or in its second. -/
theorem Op.bind_error {x : Op α} {f : α → Op β} :
    (x >>= f) s = .error e s' ↔
      x s = .error e s' ∨ ∃ a t, x s = .ok a t ∧ f a t = .error e s' := by
  show EStateM.bind x f s = .error e s' ↔ _
  unfold EStateM.bind
  cases x s with
  | ok a t => simp
  | error d t => simp

theorem Op.get_bind {f : AuditedStore → Op β} : (get >>= f) s = f s s := rfl

theorem Op.modifyStored_bind {g : Stored → Stored} {f : Unit → Op β} :
    (modifyStored g >>= f) s = f () { s with stored := g s.stored } := rfl

/-- **The auditor leaves the storage alone**, whether it fails or not. -/
theorem Auditor.record_ok {a : Auditor} {env : OpEnv} {action target : String}
    {principal : Option (Principal ⊕ String)} {fields : List (String × Json)}
    {u : Unit} (h : a.record env action target principal fields s = .ok u s') :
    s'.stored = s.stored := by
  unfold record at h
  split at h
  · cases h
    rfl
  · cases hx : env.appendAudit (auditEntry env action target principal fields) with
    | none =>
      rw [hx] at h
      cases h
      rfl
    | some err =>
      rw [hx] at h
      dsimp only at h
      split at h
      · cases h
      · cases h
        rfl

theorem Auditor.record_error {a : Auditor} {env : OpEnv} {action target : String}
    {principal : Option (Principal ⊕ String)} {fields : List (String × Json)}
    (h : a.record env action target principal fields s = .error e s') : s' = s := by
  unfold record at h
  split at h
  · cases h
  · cases hx : env.appendAudit (auditEntry env action target principal fields) with
    | none =>
      rw [hx] at h
      cases h
    | some err =>
      rw [hx] at h
      dsimp only at h
      split at h
      · cases h
        rfl
      · cases h

theorem checkPublish_error {x : Except PublishError α}
    (h : checkPublish x s = .error e s') : ∃ p, e = .publish p := by
  cases x with
  | ok a => cases h
  | error p =>
    cases h
    exact ⟨p, rfl⟩

theorem checkPublish_ok {x : Except PublishError α} {a : α}
    (h : checkPublish x s = .ok a s') : s' = s := by
  cases x with
  | ok b =>
    cases h
    rfl
  | error p => cases h

/-! ## What a failed operation has written

One lemma for each operation, all of one form: when the audit record fails,
the storage is as it would be had the record been written. -/

variable {env : OpEnv} {m : String}

theorem storeClass_ok {input : PublishInput} {signedBy : Option String} {u : Unit}
    (h : storeClass env input signedBy s = .ok u s') :
    s.stored.classVersions (input.name, input.version) = none
      ∧ (s'.stored.classVersions (input.name, input.version)).isSome := by
  unfold storeClass at h
  rw [Op.get_bind] at h
  cases hc : s.stored.classVersions (input.name, input.version) with
  | none =>
    rw [hc] at h
    cases h
    exact ⟨rfl, by simp⟩
  | some r =>
    rw [hc] at h
    cases h

theorem storeClass_error {input : PublishInput} {signedBy : Option String}
    (h : storeClass env input signedBy s = .error e s') :
    e = .versionAlreadyPublished input.name input.version := by
  unfold storeClass at h
  rw [Op.get_bind] at h
  cases hc : s.stored.classVersions (input.name, input.version) with
  | none =>
    rw [hc] at h
    cases h
  | some r =>
    rw [hc] at h
    cases h
    rfl

theorem publishClass_audit_fails {input : PublishInput} {options : PublishOptions}
    (h : publishClass env input options s = .error (.auditWrite m) s') :
    s.stored.classVersions (input.name, input.version) = none
      ∧ (s'.stored.classVersions (input.name, input.version)).isSome := by
  unfold publishClass at h
  rw [Op.bind_error] at h
  obtain h | ⟨u, t, hv, h⟩ := h
  · obtain ⟨p, hp⟩ := checkPublish_error h
    cases hp
  cases checkPublish_ok hv
  rw [Op.get_bind, Op.bind_error] at h
  obtain h | ⟨signedBy, t, hw, h⟩ := h
  · obtain ⟨p, hp⟩ := checkPublish_error h
    cases hp
  cases checkPublish_ok hw
  rw [Op.bind_error] at h
  obtain h | ⟨u, t, hst, h⟩ := h
  · cases storeClass_error h
  -- The version is stored, and neither record takes it back.
  obtain ⟨hnone, hsome⟩ := storeClass_ok hst
  refine ⟨hnone, ?_⟩
  suffices hs : s'.stored = t.stored by
    rw [hs]
    exact hsome
  rw [Op.bind_error] at h
  obtain h | ⟨u, t', hr, h⟩ := h
  · rw [Auditor.record_error h]
  · rw [← Auditor.record_ok hr]
    cases signedBy with
    | none => cases h
    | some kid =>
      simp only at h
      rw [Op.bind_error] at h
      obtain h | ⟨u, t'', hr', h⟩ := h
      · rw [Auditor.record_error h]
      · cases h

theorem deprecateRoute_audit_fails {a : Auditor} {name : ClassName}
    {version : Version} {graceUntil : Option ℕ} {adminId : Option String}
    (h : deprecateRoute env a name version graceUntil adminId s
      = .error (.auditWrite m) s') :
    s'.stored.classVersions (name, version)
      = (s.stored.classVersions (name, version)).map (fun row => { row with
          deprecatedAt := some env.now
          graceUntil := if env.throwsOnUnknownVersion then
              graceUntil.or row.graceUntil
            else graceUntil.filter (fun g => g ≠ 0) })
    ∧ s'.stored = { s.stored with
        classVersions := update s.stored.classVersions (name, version)
          (s'.stored.classVersions (name, version)) } := by
  unfold deprecateRoute at h
  split at h
  · rw [Op.bind_error] at h
    obtain h | ⟨u, t, h, -⟩ := h <;> cases h
  · rw [Op.bind_error] at h
    obtain h | ⟨u, t, hd, h⟩ := h
    · unfold deprecateClassVersion at h
      rw [Op.get_bind] at h
      cases hc : s.stored.classVersions (name, version) with
      | none =>
        rw [hc] at h
        dsimp only at h
        split at h <;> cases h
      | some row =>
        rw [hc] at h
        cases h
    · cases Auditor.record_error h
      unfold deprecateClassVersion at hd
      rw [Op.get_bind] at hd
      cases hc : s.stored.classVersions (name, version) with
      | none =>
        rw [hc] at hd
        dsimp only at hd
        split at hd
        · cases hd
        · cases hd
          exact ⟨hc, by rw [hc, Function.update_eq_self_iff.mpr hc.symm]⟩
      | some row =>
        rw [hc] at hd
        cases hd
        exact ⟨by simp, by simp⟩

theorem tombstoneOp_audit_fails {a : Auditor} {id : ActorId}
    {principal : Option Principal}
    (h : tombstoneOp env a id principal s = .error (.auditWrite m) s') :
    s'.stored = { s.stored with
      actors := update s.stored.actors id ((s.stored.actors id).map (fun row =>
        { row with tombstonedAt := some env.now })) } := by
  have hrest : ∀ {target : String} {fields : List (String × Json)},
      (tombstoneActor env id >>= fun _ => a.record env "actor.tombstoned" target
        (some (.inl (principal.getD anonymousPrincipal))) fields) s
        = .error (.auditWrite m) s' →
      s'.stored = { s.stored with
        actors := update s.stored.actors id ((s.stored.actors id).map (fun row =>
          { row with tombstonedAt := some env.now })) } := by
    intro target fields h
    rw [tombstoneActor, Op.modifyStored_bind] at h
    rw [Auditor.record_error h]
    dsimp only
    cases hr : s.stored.actors id with
    | none => rw [Option.map_none, Function.update_eq_self_iff.mpr hr.symm]
    | some row => rfl
  unfold tombstoneOp at h
  cases hl : env.runtime.hosts id with
  | none =>
    rw [hl] at h
    exact hrest h
  | some live =>
    rw [hl] at h
    dsimp only at h
    cases hp : env.runtime.checkPolicy live.className
        (principal.getD anonymousPrincipal)
        (.destroy ⟨⟨live.className, id, live.version⟩, live.state⟩) with
    | error e =>
      rw [hp, Op.bind_error] at h
      obtain h | ⟨u, t, h, -⟩ := h <;> cases h
    | ok u =>
      rw [hp] at h
      exact hrest h

theorem addSigningKey_audit_fails {a : Option Auditor} {kid pem addedBy : String}
    (h : addSigningKey env a kid pem addedBy s = .error (.auditWrite m) s') :
    s.stored.signingKeys kid = none ∧ (s'.stored.signingKeys kid).isSome := by
  unfold addSigningKey at h
  rw [Op.get_bind] at h
  cases hk : s.stored.signingKeys kid with
  | some row =>
    rw [hk] at h
    cases h
  | none =>
    refine ⟨rfl, ?_⟩
    rw [hk, if_neg (by simp)] at h
    cases ht : env.asymmetricKeyType pem with
    | none =>
      rw [ht] at h
      cases h
    | some type =>
      rw [ht] at h
      dsimp only at h
      by_cases hty : type ≠ "ed25519"
      · rw [if_pos hty] at h
        cases h
      · rw [if_neg hty] at h
        cases a with
        | none => cases h
        | some a =>
          rw [Auditor.record_error h]
          simp

theorem revokeSigningKey_audit_fails {a : Option Auditor} {kid revokedBy : String}
    (h : revokeSigningKey env a kid revokedBy s = .error (.auditWrite m) s') :
    ∃ row row', s.stored.signingKeys kid = some row ∧ row.revokedAt = none
      ∧ s'.stored.signingKeys kid = some row' ∧ row'.revokedAt.isSome := by
  unfold revokeSigningKey at h
  rw [Op.get_bind] at h
  cases hk : s.stored.signingKeys kid with
  | none =>
    rw [hk] at h
    cases h
  | some row =>
    rw [hk] at h
    cases hr : row.revokedAt with
    | some at' =>
      simp only [hr] at h
      cases h
    | none =>
      simp only [hr] at h
      cases a with
      | none => cases h
      | some a =>
        rw [Auditor.record_error h]
        exact ⟨row, _, rfl, hr, by simp; rfl, rfl⟩

theorem saveSnapshot_ok {id : ActorId} {seq : ℤ} {version : Version} {state : Json}
    {fence : ℕ} {u : Unit}
    (h : saveSnapshot env id seq version state fence s = .ok u s') :
    s'.stored = s.stored.withSnapshot env.now id seq version state := by
  unfold saveSnapshot at h
  rw [Op.get_bind] at h
  by_cases hf : ((s.stored.actors id).map StampedRow.fence).getD 0 ≠ fence
  · rw [if_pos hf] at h
    cases h
  · rw [if_neg hf] at h
    cases h
    rfl

theorem saveSnapshot_error {id : ActorId} {seq : ℤ} {version : Version}
    {state : Json} {fence : ℕ}
    (h : saveSnapshot env id seq version state fence s = .error e s') :
    ∃ actual, e = .staleFenceToken fence actual := by
  unfold saveSnapshot at h
  rw [Op.get_bind] at h
  by_cases hf : ((s.stored.actors id).map StampedRow.fence).getD 0 ≠ fence
  · rw [if_pos hf] at h
    cases h
    exact ⟨_, rfl⟩
  · rw [if_neg hf] at h
    cases h

theorem migrateSnapshot_audit_fails {a : Option Auditor} {host : MigratingHost}
    {prevState : Json} {prevVersion : Version}
    (h : migrateSnapshot env a host prevState prevVersion s
      = .error (.auditWrite m) s') :
    ∃ f newState, host.migrate = some f ∧ f prevState prevVersion = .ok newState
      ∧ s'.stored = (s.stored.withSnapshot env.now host.id (-1) prevVersion
          prevState).withSnapshot env.now host.id
            (if host.isEs then (host.currentSeq : ℤ) else 0) host.runningVersion
            (host.snapshot newState) := by
  unfold migrateSnapshot at h
  cases hm : host.migrate with
  | none =>
    rw [hm] at h
    cases h
  | some f =>
    rw [hm] at h
    dsimp only at h
    rw [Op.bind_error] at h
    obtain h | ⟨u, t, hs, h⟩ := h
    · obtain ⟨_, he⟩ := saveSnapshot_error h
      cases he
    cases hf : f prevState prevVersion with
    | error x =>
      rw [hf] at h
      cases h
    | ok newState =>
      rw [hf] at h
      dsimp only at h
      rw [Op.bind_error] at h
      obtain h | ⟨u, t', hs', h⟩ := h
      · obtain ⟨_, he⟩ := saveSnapshot_error h
        cases he
      cases a with
      | none => cases h
      | some a =>
        rw [Auditor.record_error h, saveSnapshot_ok hs', saveSnapshot_ok hs]
        exact ⟨f, newState, rfl, hf, rfl⟩

end Failure

/-! ## The storage after a failed record

So the storage is what it was exactly if the write of the operation was none.
-/

theorem withSnapshot_eq_self {t : Stored} {now : ℤ} {id : ActorId} {seq : ℤ}
    {version : Version} {state : Json}
    (hs : t.snapshots (id, seq) = some ⟨now, version, state⟩)
    (hr : ∀ row, t.actors id = some row → row.lastActiveAt = some now) :
    t.withSnapshot now id seq version state = t := by
  have hsn : update t.snapshots (id, seq) (some ⟨now, version, state⟩)
      = t.snapshots := Function.update_eq_self_iff.mpr hs.symm
  have hac : update t.actors id ((t.actors id).map (fun row =>
      { row with lastActiveAt := some now })) = t.actors := by
    refine Function.update_eq_self_iff.mpr ?_
    cases ha : t.actors id with
    | none => rfl
    | some row => rw [Option.map_some, ← hr row ha]
  unfold Stored.withSnapshot
  rw [hsn, hac]

/-- A migration that changes nothing found both of its rows there. -/
theorem withSnapshot_twice_eq_self_iff {t : Stored} {now : ℤ} {id : ActorId}
    {seq : ℕ} {v v' : Version} {x x' : Json} :
    (t.withSnapshot now id (-1) v x).withSnapshot now id seq v' x' = t ↔
      t.snapshots (id, -1) = some ⟨now, v, x⟩
        ∧ t.snapshots (id, (seq : ℤ)) = some ⟨now, v', x'⟩
        ∧ ∀ row, t.actors id = some row → row.lastActiveAt = some now := by
  constructor
  · intro h
    have hsn := congrArg Stored.snapshots h
    have hac := congrFun (congrArg Stored.actors h) id
    refine ⟨?_, ?_, fun row hrow => ?_⟩
    · rw [← congrFun hsn (id, -1)]
      simp [Stored.withSnapshot]
    · rw [← congrFun hsn (id, (seq : ℤ))]
      simp [Stored.withSnapshot]
    · rw [hrow] at hac
      simp only [Stored.withSnapshot, Function.update_self, hrow,
        Option.map_some, Option.some.injEq] at hac
      exact (congrArg StampedRow.lastActiveAt hac).symm
  · rintro ⟨h₁, h₂, hr⟩
    rw [withSnapshot_eq_self h₁ hr, withSnapshot_eq_self h₂ hr]

/-- **An operation whose record fails is not undone.** If it reports that its
audit record could not be written, the storage is as it was exactly if there
was nothing to write. -/
theorem strict_audit_atomic {env : OpEnv} {op : PrivilegedOp}
    {s s' : AuditedStore} {m : String}
    (h : op.run env s = .error (.auditWrite m) s') :
    s'.stored = s.stored ↔ op.AlreadyWritten env s.stored := by
  cases op with
  | publish input options =>
    refine iff_of_false (fun heq => ?_) id
    have hp : publishClass env input options s = .error (.auditWrite m) s' := by
      obtain h | ⟨_, _, _, h⟩ := Op.bind_error.mp h
      · exact h
      · cases h
    obtain ⟨hnone, hsome⟩ := publishClass_audit_fails hp
    rw [heq, hnone] at hsome
    cases hsome
  | deprecateVersion a name version graceUntil adminId =>
    obtain ⟨hrow, hrest⟩ := deprecateRoute_audit_fails h
    rw [hrest, hrow]
    constructor
    · intro heq row hr
      have hc := congrFun (congrArg Stored.classVersions heq) (name, version)
      simp only [Function.update_self, hr, Option.map_some,
        Option.some.injEq] at hc
      exact ⟨(congrArg ClassVersionRecord.deprecatedAt hc).symm,
        (congrArg ClassVersionRecord.graceUntil hc).symm⟩
    · intro hw
      have hc : update s.stored.classVersions (name, version)
          ((s.stored.classVersions (name, version)).map (fun row => { row with
            deprecatedAt := some env.now
            graceUntil := if env.throwsOnUnknownVersion then
                graceUntil.or row.graceUntil
              else graceUntil.filter (fun g => g ≠ 0) }))
          = s.stored.classVersions := by
        refine Function.update_eq_self_iff.mpr ?_
        cases hr : s.stored.classVersions (name, version) with
        | none => rfl
        | some row =>
          obtain ⟨hd, hg⟩ := hw row hr
          rw [Option.map_some, ← hg, ← hd]
      rw [hc]
  | tombstone a id principal =>
    rw [tombstoneOp_audit_fails h]
    constructor
    · intro heq row hr
      have hc := congrFun (congrArg Stored.actors heq) id
      simp only [Function.update_self, hr, Option.map_some,
        Option.some.injEq] at hc
      exact (congrArg StampedRow.tombstonedAt hc).symm
    · intro hw
      have hc : update s.stored.actors id ((s.stored.actors id).map (fun row =>
          { row with tombstonedAt := some env.now })) = s.stored.actors := by
        refine Function.update_eq_self_iff.mpr ?_
        cases hr : s.stored.actors id with
        | none => rfl
        | some row => rw [Option.map_some, ← hw row hr]
      rw [hc]
  | addKey a kid pem addedBy =>
    refine iff_of_false (fun heq => ?_) id
    obtain ⟨hnone, hsome⟩ := addSigningKey_audit_fails h
    rw [heq, hnone] at hsome
    cases hsome
  | revokeKey a kid revokedBy =>
    refine iff_of_false (fun heq => ?_) id
    obtain ⟨row, row', hr, hnone, hr', hsome⟩ := revokeSigningKey_audit_fails h
    rw [heq, hr] at hr'
    cases hr'
    rw [hnone] at hsome
    cases hsome
  | migrate a host prevState prevVersion =>
    obtain ⟨f, newState, hm, hf, hs⟩ := migrateSnapshot_audit_fails h
    have hseq : (if host.isEs then (host.currentSeq : ℤ) else 0)
        = ((if host.isEs then host.currentSeq else 0 : ℕ) : ℤ) := by
      split <;> rfl
    rw [hs, hseq, withSnapshot_twice_eq_self_iff]
    constructor
    · rintro hw f' x hm' hf'
      cases hm.symm.trans hm'
      cases hf.symm.trans hf'
      rw [hseq]
      exact hw
    · intro hw
      have := hw f newState hm hf
      rwa [hseq] at this

/-! ## A publish that fails -/

namespace OpEnv

/-- A memory driver whose audit table takes no entry, for a class that is
valid. -/
def auditDown : OpEnv where
  now := 100
  auditNow := 100
  keysNow := 100
  nextId := id
  appendAudit _ := some "audit table is read-only"
  throwsOnUnknownVersion := true
  sha256 := id
  semverValid _ := true
  semverValidRange _ := true
  semverSatisfies _ _ := true
  findForbiddenImport _ := none
  parseTypeScript _ _ := []
  versionInPath _ := true
  asymmetricKeyType _ := some "ed25519"
  nodeVerify _ _ _ := .ok true
  runtime := ⟨fun _ => none, fun _ => none, fun _ _ => none, fun _ => true⟩

end OpEnv

/-- Nothing is stored. -/
def AuditedStore.empty : AuditedStore :=
  ⟨⟨fun _ => none, fun _ => none, fun _ => none, fun _ => none, fun _ => none⟩, []⟩

/-- One actor is stored, which was tombstoned at this time. -/
def AuditedStore.tombstoned (at_ : ℤ) : AuditedStore :=
  { empty with
    stored :=
      { empty.stored with
        actors := update (fun _ => none) "a" (some ⟨"Note", "1.2.0", 1, some at_, none⟩) } }

/-- The second tombstone of an actor in one millisecond fails without effect: its row has the
mark. The one that comes a millisecond later has moved it. -/
theorem strict_audit_atomic_again :
    (∃ m s', (PrivilegedOp.tombstone .strict "a" none).run .auditDown (.tombstoned 100)
        = .error (.auditWrite m) s'
      ∧ s'.stored = (AuditedStore.tombstoned 100).stored)
    ∧ ∃ m s', (PrivilegedOp.tombstone .strict "a" none).run .auditDown (.tombstoned 99)
        = .error (.auditWrite m) s'
      ∧ s'.stored ≠ (AuditedStore.tombstoned 99).stored := by
  constructor
  · have hrun : ∃ m s', (PrivilegedOp.tombstone .strict "a" none).run .auditDown
        (.tombstoned 100) = .error (.auditWrite m) s' := ⟨_, _, rfl⟩
    obtain ⟨m, s', h⟩ := hrun
    refine ⟨m, s', h, (strict_audit_atomic h).mpr ?_⟩
    rintro row hrow
    obtain rfl := Option.some.inj hrow
    rfl
  · have hrun : ∃ m s', (PrivilegedOp.tombstone .strict "a" none).run .auditDown
        (.tombstoned 99) = .error (.auditWrite m) s' := ⟨_, _, rfl⟩
    obtain ⟨m, s', h⟩ := hrun
    refine ⟨m, s', h, fun heq => ?_⟩
    exact absurd ((strict_audit_atomic h).mp heq _ rfl) (by decide)

/-- **A publish that fails with its audit record is there**: the version can
be loaded, and published a second time it cannot be. -/
theorem not_strict_audit_atomic :
    ∃ m s', (PrivilegedOp.publish ⟨"Note", "1.2.0", "return class {}", none, none,
        none, none, none, none⟩ ⟨some .strict, false, false⟩).run .auditDown .empty
        = .error (.auditWrite m) s'
      ∧ s'.stored ≠ AuditedStore.empty.stored := by
  refine ⟨_, _, rfl, fun h => ?_⟩
  have := congrFun (congrArg Stored.classVersions h) ("Note", "1.2.0")
  rw [show AuditedStore.empty.stored.classVersions ("Note", "1.2.0") = none
    from rfl] at this
  simp at this
