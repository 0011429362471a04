import Actjs.Loader
import Actjs.ManifestUsage

/-!
# Requests about manifests

`GET /v1/manifest` resolves a manifest and stores it, and a client sends its hash with every
request from then on: the pin hook loads the manifest, counts the pin, stores it again now
and then, and looks up every version in it. A request whose manifest is not known is refused,
and so is one that has a version in it that is past its grace window.

A request makes one statement after another on the tables, and others are made in between.
-/

open OwnProperties
open Function (update)

/-! ## Requests -/

/-- What `req.manifestPin` is set to. -/
structure PinContext where
  sha : String
  resolved : ResolvedManifest
  deprecatedRefs : List (ClassName × Version)

/-- What a request asks for. -/
inductive PinAsk where
  /-- `GET /v1/manifest`, with what it resolves to. -/
  | resolve (m : PublishedManifest)
  /-- `GET /v1/manifest/:sha`. -/
  | retrieve (sha : String)
  /-- A request that may be pinned, with its header `x-actjs-manifest` and its query
  parameter `manifest`, if it has one text for them. -/
  | pinned (header query : Option String)

/-- What comes of a request; where its handler is next, what the handler finds. -/
inductive PinReply where
  | manifest (sha : String) (resolved : ResolvedManifest)
  | malformed
  | unknown (status : ℕ) (message : String)
  | gone (detail : String) (expired : List (ClassName × Version))
  | passes (manifestPin : Option PinContext) (warning : Option String)
  | failed

/-- Where a request is. -/
inductive PinStage where
  | loading (pc : ManifestLoadPc)
  | saving (resolved : ResolvedManifest) (pc : ManifestSavePc)
  /-- `classifyPin`, with the versions that it has not come to and what it has found. -/
  | classifying (resolved : ResolvedManifest) (todo : List (ClassName × Version)) (found : PinRefs)
  | answered (reply : PinReply)

/-- **A request**, on its server. -/
structure PinRequest where
  server : ℕ
  ask : PinAsk
  /-- How many states of the registry there had been when it came. -/
  since : ℕ
  /-- The time that `classifyPin` is given. -/
  now : ℤ
  stage : PinStage

/-- `pinShaFor`. -/
def pinShaFor (header query : Option String) : Option String :=
  (header.filter (fun s => s ≠ "")).or (query.filter (fun s => s ≠ ""))

/-- `^[0-9a-f]{64}$`, of `ShaParam`. -/
def isManifestSha (sha : String) : Bool :=
  sha.toList.length == 64
    && sha.toList.all (fun c => ('0' ≤ c && c ≤ '9') || ('a' ≤ c && c ≤ 'f'))

/-- The hash that a request is about. -/
def PinAsk.sha (p : ManifestPlatform) : PinAsk → Option String
  | .resolve m => some (p.sha m)
  | .retrieve sha => some sha
  | .pinned header query => pinShaFor header query

/-- A request that the pin hook is called for. -/
def PinAsk.isPinned : PinAsk → Bool
  | .pinned _ _ => true
  | _ => false

/-- A request that looks a manifest up: all but `GET /v1/manifest`. -/
def PinAsk.isLookup : PinAsk → Bool
  | .resolve _ => false
  | _ => true

/-- The reply where there is no manifest. -/
def PinAsk.unknown (sha : String) : PinAsk → PinReply
  | .pinned _ _ => .unknown 400 ("no manifest stored at sha " ++ sha)
  | _ => .unknown 404 ("no manifest stored at sha " ++ sha)

/-- A class at a version. -/
def classAt (ref : ClassName × Version) : String := ref.fst ++ "@" ++ ref.snd

/-- What the hook says when all versions are looked up. -/
def pinVerdict (sha : String) (resolved : ResolvedManifest) (found : PinRefs) : PinReply :=
  match found.expired with
  | first :: _ =>
    .gone ("class " ++ classAt first ++ " is past its grace window; the pinned manifest "
      ++ "references it. Re-resolve against the current registry.") found.expired
  | [] =>
    .passes (some ⟨sha, resolved, found.deprecated⟩)
      (if found.deprecated = [] then none
        else some ("299 - \"VersionDeprecated "
          ++ ", ".intercalate (found.deprecated.map classAt) ++ "\""))

/-- `classifyPin`, from where there are these versions left. -/
def pinClassify (sha : String) (resolved : ResolvedManifest) (todo : List (ClassName × Version))
    (found : PinRefs) : PinStage :=
  match todo with
  | [] => .answered (pinVerdict sha resolved found)
  | _ :: _ => .classifying resolved todo found

/-- What is found when a version has this status. -/
def PinRefs.add (found : PinRefs) (ref : ClassName × Version) :
    Option DeprecationStatus → PinRefs
  | some .deprecated => { found with deprecated := found.deprecated ++ [ref] }
  | some .expired => { found with expired := found.expired ++ [ref] }
  | _ => found

/-- There is no manifest. -/
def PinStage.isUnknown : PinStage → Bool
  | .answered (.unknown _ _) => true
  | _ => false

/-- It has failed. -/
def PinStage.isFailed : PinStage → Bool
  | .answered .failed => true
  | _ => false

/-- How a request begins. -/
def PinAsk.begin : PinAsk → PinStage
  | .resolve m => .saving (storedManifest m.map) .insert
  | .retrieve sha => if isManifestSha sha = true then .loading .get else .answered .malformed
  | .pinned header query =>
    match pinShaFor header query with
    | none => .answered (.passes none none)
    | some _ => .loading .get

/-- How a statement ends. -/
inductive StatementEnd where
  | answered
  /-- It was not carried out. -/
  | refused
  /-- It was carried out, and the answer did not come. -/
  | unanswered
deriving DecidableEq

/-- What the servers are run with. -/
structure PinConfig where
  platform : ManifestPlatform
  registry : PgPlatform
  maxShas : ℕ
  /-- `lastSeenSampleEvery`. -/
  sampleEvery : ℕ

/-- How a request goes on when `loadManifest` comes to this, and the pin that is recorded. The
hook stores what it has loaded again if `randomInt(sampleEvery) === 0`. -/
def PinAsk.loaded (cfg : PinConfig) (sha : String) (draw : ℕ) (now : ℤ) (ask : PinAsk) :
    ManifestLoadPc ⊕ Option ResolvedManifest → PinStage × Option PinRecord
  | .inl pc => (.loading pc, none)
  | .inr none => (.answered (ask.unknown sha), none)
  | .inr (some resolved) =>
    match ask with
    | .pinned _ _ =>
      (if cfg.sampleEvery ≠ 0 ∧ draw = 0 then .saving resolved .insert
        else pinClassify sha resolved (listed resolved) ⟨[], []⟩,
        some ⟨sha, some resolved, now⟩)
    | _ => (.answered (.manifest sha resolved), none)

/-- How it goes on when `saveManifest` comes to this, -/
def PinAsk.stored (sha : String) (resolved : ResolvedManifest) (ask : PinAsk) :
    Option ManifestSavePc → PinStage
  | some pc => .saving resolved pc
  | none =>
    match ask with
    | .resolve _ => .answered (.manifest sha resolved)
    | _ => pinClassify sha resolved (listed resolved) ⟨[], []⟩

/-- and when it fails. -/
def PinAsk.notStored (sha : String) (resolved : ResolvedManifest) : PinAsk → PinStage
  | .resolve _ => .answered .failed
  | _ => pinClassify sha resolved (listed resolved) ⟨[], []⟩

/-- What a statement of a request does: the tables, the request, and the pin that the hook
records. -/
structure PinMove where
  tables : ManifestTables
  request : PinRequest
  records : Option PinRecord

/-- **The next statement of a request**, at a time. -/
def PinRequest.move (cfg : PinConfig) (tables : ManifestTables) (registry : PgRegistry)
    (r : PinRequest) (sha : String) (ends : StatementEnd) (draw : ℕ) (now : ℤ) :
    Option PinMove :=
  match r.stage with
  | .loading pc =>
    let x := tables.loadManifest sha pc
    let y := r.ask.loaded cfg sha draw now x.snd
    if ends = .answered then some ⟨x.fst, { r with now := now, stage := y.fst }, y.snd⟩
    else
      some ⟨if ends = .refused then tables else x.fst, { r with stage := .answered .failed },
        none⟩
  | .saving resolved pc =>
    let x := tables.saveManifest cfg.platform sha resolved pc
    let stage :=
      if ends = .answered then r.ask.stored sha resolved x.snd else r.ask.notStored sha resolved
    some ⟨if ends = .refused then tables else x.fst, { r with now := now, stage := stage }, none⟩
  | .classifying resolved (ref :: todo) found =>
    let status := registry.driver.pinStatus r.now ref
    let stage :=
      if ends = .answered then pinClassify sha resolved todo (found.add ref status)
      else .answered .failed
    some ⟨tables, { r with stage := stage }, none⟩
  | .classifying _ [] _ => none
  | .answered _ => none

/-- A request that has no reply has none any more. -/
def PinRequest.dropped (r : PinRequest) : PinRequest :=
  match r.stage with
  | .answered _ => r
  | _ => { r with stage := .answered .failed }

/-! ## What is answered

What the reply to a request may say, by the hash it was made with and by the
registry at the moments it was looked at. -/

/-- The hash that a request is about, in bytes. -/
def PinRequest.bytes (p : ManifestPlatform) (r : PinRequest) : Option (List UInt8) :=
  (r.ask.sha p).map Hex.decode

/-- **What is found of these versions** is what `classifyPin` says, where each of them has been
looked up at a moment of its own since the request came. -/
def PinRequest.Classified (registries : List PgRegistry) (r : PinRequest)
    (refs : List (ClassName × Version)) (found : PinRefs) : Prop :=
  ∃ seen : ClassName × Version → PgRegistry,
    (∀ ref ∈ refs, seen ref ∈ registries.drop r.since)
      ∧ found.deprecated
        = refs.filter (fun ref => (seen ref).driver.pinStatus r.now ref == some .deprecated)
      ∧ found.expired
        = refs.filter (fun ref => (seen ref).driver.pinStatus r.now ref == some .expired)

/-- **The object has exactly the versions of every manifest that the request may be about.**

The hash is that of a manifest, and what it was of is what the object says. The one name left
out is `__proto__`: assigned to a plain object it is no entry, so that no object that is stored
has it, and a manifest with such a class has the hash of the one without. -/
structure PinRequest.Pins (p : ManifestPlatform) (r : PinRequest)
    (resolved : ResolvedManifest) : Prop where
  hashed : ∃ m : PublishedManifest, r.bytes p = some (p.bytes m)
  versions : ∀ m : PublishedManifest, r.bytes p = some (p.bytes m) →
    ∀ name, name ≠ "__proto__" → resolved.get name = m.map.get name
  proto : resolved.get "__proto__" = none

/-- **A reply honours the pin.**

A manifest that is answered is the one with the hash, whichever row or entry it was read from.
A pinned request passes where no version was past its grace window when it was looked up, and
is refused where one was, with all those that were. There are two replies besides, that there
is no manifest and that it has failed; `PinServers.Excused` says when they are given. -/
inductive PinReply.Honours (p : ManifestPlatform) (registries : List PgRegistry)
    (r : PinRequest) : PinReply → Prop
  | manifest {sha : String} {resolved : ResolvedManifest} (hask : r.ask.isPinned = false)
      (hsha : r.ask.sha p = some sha) (hpins : r.Pins p resolved) :
      Honours p registries r (.manifest sha resolved)
  | malformed {sha : String} (hask : r.ask = .retrieve sha) (hsha : isManifestSha sha = false) :
      Honours p registries r .malformed
  | unknown {sha : String} {status : ℕ} {message : String} (hask : r.ask.isLookup = true)
      (hsha : r.ask.sha p = some sha) (hreply : r.ask.unknown sha = .unknown status message) :
      Honours p registries r (.unknown status message)
  | gone {detail : String} {resolved : ResolvedManifest} {found : PinRefs}
      (hask : r.ask.isPinned = true) (hpins : r.Pins p resolved)
      (hrefs : r.Classified registries (listed resolved) found)
      (hne : found.expired ≠ []) : Honours p registries r (.gone detail found.expired)
  | passes {sha : String} {resolved : ResolvedManifest} {found : PinRefs}
      {warning : Option String} (hask : r.ask.isPinned = true) (hsha : r.ask.sha p = some sha)
      (hpins : r.Pins p resolved) (hrefs : r.Classified registries (listed resolved) found)
      (hnil : found.expired = []) (hwarn : warning = none ↔ found.deprecated = []) :
      Honours p registries r (.passes (some ⟨sha, resolved, found.deprecated⟩) warning)
  | unpinned (hask : r.ask.isPinned = true) (hsha : r.ask.sha p = none) :
      Honours p registries r (.passes none none)
  | failed : Honours p registries r .failed

/-- The hash that a reply says is of a manifest. -/
def PinReply.about : PinReply → Option String
  | .manifest sha _ => some sha
  | .passes (some ctx) _ => some ctx.sha
  | _ => none

/-! ## What a request has in hand -/

namespace PinRefs

theorem deprecated_add (found : PinRefs) (ref : ClassName × Version)
    (status : Option DeprecationStatus) : (found.add ref status).deprecated
      = found.deprecated ++ bif status == some .deprecated then [ref] else [] := by
  rcases status with _ | _ | _ | _
  · exact (List.append_nil _).symm
  · exact (List.append_nil _).symm
  · rfl
  · exact (List.append_nil _).symm

theorem expired_add (found : PinRefs) (ref : ClassName × Version)
    (status : Option DeprecationStatus) : (found.add ref status).expired
      = found.expired ++ bif status == some .expired then [ref] else [] := by
  rcases status with _ | _ | _ | _
  · exact (List.append_nil _).symm
  · exact (List.append_nil _).symm
  · exact (List.append_nil _).symm
  · rfl

end PinRefs

namespace PinAsk

theorem unknown_eq (ask : PinAsk) (sha : String) :
    ∃ status message, ask.unknown sha = .unknown status message := by
  cases ask <;> exact ⟨_, _, rfl⟩

theorem isPinned_eq_false {ask : PinAsk} (h : ∀ header query, ask ≠ .pinned header query) :
    ask.isPinned = false := by
  cases ask with
  | resolve m => rfl
  | retrieve sha => rfl
  | pinned header query => exact absurd rfl (h header query)

end PinAsk

namespace PinRequest

/-- **What a request has in hand is right**: what it is about to write, what it has found so
far, and what it has answered. -/
inductive Good (p : ManifestPlatform) (tables : ManifestTables) (registries : List PgRegistry)
    (r : PinRequest) : PinStage → Prop
  | loading {sha : String} {pc : ManifestLoadPc} (hask : r.ask.isLookup = true)
      (hsha : r.ask.sha p = some sha) (hpc : tables.Loading p sha pc) :
      Good p tables registries r (.loading pc)
  | saving {sha : String} {resolved : ResolvedManifest} {pc : ManifestSavePc}
      (hsha : r.ask.sha p = some sha) (hpc : tables.Saving p sha resolved pc)
      (hknown : (∃ m, r.ask = .resolve m) ∨ r.ask.isPinned = true ∧ tables.Known sha) :
      Good p tables registries r (.saving resolved pc)
  | classifying {sha : String} {resolved : ResolvedManifest}
      {before todo : List (ClassName × Version)} {found : PinRefs}
      (hask : r.ask.isPinned = true) (hsha : r.ask.sha p = some sha) (hknown : tables.Known sha)
      (hstands : Stands p (Hex.decode sha) resolved) (hlisted : listed resolved = before ++ todo)
      (hrefs : r.Classified registries before found) :
      Good p tables registries r (.classifying resolved todo found)
  | answered {reply : PinReply} (h : reply.Honours p registries r)
      (hknown : ∀ sha, reply.about = some sha → tables.Known sha) :
      Good p tables registries r (.answered reply)

variable {p : ManifestPlatform} {tables tables' : ManifestTables}
  {registries registries' : List PgRegistry} {r : PinRequest} {sha : String}
  {resolved : ResolvedManifest} {refs todo before : List (ClassName × Version)}
  {found : PinRefs} {stage : PinStage}

theorem Classified.mono (h : r.Classified registries refs found)
    (hp : registries <+: registries') : r.Classified registries' refs found :=
  h.imp (fun _ hs => ⟨fun ref hr => (hp.drop r.since).subset (hs.1 ref hr), hs.2⟩)

/-- Nothing is found of nothing, -/
theorem classified_nil (registries : List PgRegistry) (r : PinRequest) :
    r.Classified registries [] ⟨[], []⟩ :=
  ⟨fun _ => .empty, fun _ h => absurd h List.not_mem_nil, rfl, rfl⟩

/-- and of one version more what its status is now. -/
theorem Classified.add (h : r.Classified registries refs found) {ref : ClassName × Version}
    (hnew : ref ∉ refs) {d : PgRegistry} (hd : d ∈ registries.drop r.since) :
    r.Classified registries (refs ++ [ref]) (found.add ref (d.driver.pinStatus r.now ref)) := by
  obtain ⟨seen, hseen, hdep, hexp⟩ := h
  have hold : ∀ ref' ∈ refs, update seen ref d ref' = seen ref' := fun ref' hr =>
    Function.update_of_ne (fun he : ref' = ref => hnew (he ▸ hr)) _ _
  have hfilter : ∀ status : DeprecationStatus, (refs ++ [ref]).filter
      (fun ref' => (update seen ref d ref').driver.pinStatus r.now ref' == some status)
      = refs.filter (fun ref' => (seen ref').driver.pinStatus r.now ref' == some status)
        ++ bif d.driver.pinStatus r.now ref == some status then [ref] else [] := by
    intro status
    rw [List.filter_append, List.filter_singleton, Function.update_self,
      List.filter_congr (fun ref' hr => by rw [hold ref' hr])]
  refine ⟨update seen ref d, fun ref' hr => ?_, ?_, ?_⟩
  · obtain hr | hr := List.mem_append.mp hr
    · rw [hold ref' hr]
      exact hseen ref' hr
    · rw [List.mem_singleton.mp hr, Function.update_self]
      exact hd
  · rw [hfilter, ← hdep, PinRefs.deprecated_add]
  · rw [hfilter, ← hexp, PinRefs.expired_add]

theorem honours_mono {reply : PinReply} (h : reply.Honours p registries r)
    (hp : registries <+: registries') : reply.Honours p registries' r := by
  cases h with
  | manifest hask hsha hpins => exact .manifest hask hsha hpins
  | malformed hask hsha => exact .malformed hask hsha
  | unknown hask hsha hreply => exact .unknown hask hsha hreply
  | gone hask hpins hrefs hne => exact .gone hask hpins (hrefs.mono hp) hne
  | passes hask hsha hpins hrefs hnil hwarn =>
    exact .passes hask hsha hpins (hrefs.mono hp) hnil hwarn
  | unpinned hask hsha => exact .unpinned hask hsha
  | failed => exact .failed

/-- **What is right stays so** while rows stay and the registry goes on. -/
theorem Good.mono (h : r.Good p tables registries stage)
    (hg : ManifestTables.Grows tables tables') (hp : registries <+: registries') :
    r.Good p tables' registries' stage := by
  cases h with
  | loading hask hsha hpc => exact .loading hask hsha (hpc.grows hg)
  | saving hsha hpc hknown =>
    exact .saving hsha (hpc.grows hg) (hknown.imp_right (And.imp_right hg.known))
  | classifying hask hsha hknown hstands hlisted hrefs =>
    exact .classifying hask hsha (hg.known hknown) hstands hlisted (hrefs.mono hp)
  | answered h hknown =>
    exact .answered (honours_mono h hp) (fun sha hsha => hg.known (hknown sha hsha))

/-- What stands for the hash of a request has the versions of its manifest. -/
theorem pins_of_stands (hinj : Function.Injective p.digest) (hsha : r.ask.sha p = some sha)
    (hstands : Stands p (Hex.decode sha) resolved) : r.Pins p resolved := by
  have hbytes : r.bytes p = some (Hex.decode sha) := by rw [bytes, hsha, Option.map_some]
  refine ⟨?_, fun m hm name hname => ?_, hstands.get_proto⟩
  · obtain ⟨m, hm, -⟩ := hstands
    exact ⟨m, hm ▸ hbytes⟩
  · rw [← get_storedManifest hname]
    exact Stands.get_eq hinj (Option.some.inj (hm.symm.trans hbytes) ▸ hstands) name

theorem honours_pinVerdict (hinj : Function.Injective p.digest) (hask : r.ask.isPinned = true)
    (hsha : r.ask.sha p = some sha) (hstands : Stands p (Hex.decode sha) resolved)
    (hrefs : r.Classified registries (listed resolved) found) :
    (pinVerdict sha resolved found).Honours p registries r := by
  have hpins := pins_of_stands hinj hsha hstands
  unfold pinVerdict
  split
  · next first rest he => exact .gone hask hpins hrefs (by simp [he])
  · next he =>
    refine .passes hask hsha hpins hrefs he ?_
    split
    · next hd => simp [hd]
    · next hd => simp [hd]

theorem about_pinVerdict {sha' : String} (h : (pinVerdict sha resolved found).about = some sha') :
    sha' = sha := by
  unfold pinVerdict at h
  split at h
  · exact absurd h (by simp [PinReply.about])
  · exact (Option.some.inj h).symm

/-- The hook goes on with the versions that are left. -/
theorem good_pinClassify (hinj : Function.Injective p.digest) (hask : r.ask.isPinned = true)
    (hsha : r.ask.sha p = some sha) (hknown : tables.Known sha)
    (hstands : Stands p (Hex.decode sha) resolved)
    (hlisted : listed resolved = before ++ todo) (hrefs : r.Classified registries before found) :
    r.Good p tables registries (pinClassify sha resolved todo found) := by
  cases todo with
  | nil =>
    rw [List.append_nil] at hlisted
    exact .answered (honours_pinVerdict hinj hask hsha hstands (hlisted ▸ hrefs))
      (fun sha' h => about_pinVerdict h ▸ hknown)
  | cons ref todo => exact .classifying hask hsha hknown hstands hlisted hrefs

/-- The hook begins with the versions of what it has loaded. -/
theorem good_begin_pinClassify (hinj : Function.Injective p.digest)
    (hask : r.ask.isPinned = true) (hsha : r.ask.sha p = some sha) (hknown : tables.Known sha)
    (hstands : Stands p (Hex.decode sha) resolved) :
    r.Good p tables registries (pinClassify sha resolved (listed resolved) ⟨[], []⟩) :=
  good_pinClassify hinj hask hsha hknown hstands (List.nil_append _).symm
    (classified_nil registries r)

/-- A reply that is about no manifest. -/
theorem good_answered {reply : PinReply} (h : reply.Honours p registries r)
    (hnone : reply.about = none) : r.Good p tables registries (.answered reply) :=
  .answered h (fun _ hsha => absurd (hnone.symm.trans hsha) (by simp))

/-- A manifest is answered. -/
theorem good_manifest (hinj : Function.Injective p.digest) (hask : r.ask.isPinned = false)
    (hsha : r.ask.sha p = some sha) (hknown : tables.Known sha)
    (hstands : Stands p (Hex.decode sha) resolved) :
    r.Good p tables registries (.answered (.manifest sha resolved)) :=
  .answered (.manifest hask hsha (pins_of_stands hinj hsha hstands))
    (fun _ h => Option.some.inj h ▸ hknown)

/-! ## A statement

Each statement of a request keeps the tables coherent, and what the request
has in hand right. -/

/-- **What a statement of a request does.**

The tables stay coherent and rows stay, and what the request has in hand is right again. It is
told that there is no manifest only where there is no row, and it fails only where the
statement was not answered. -/
structure Moves (p : ManifestPlatform) (tables : ManifestTables) (registries : List PgRegistry)
    (r : PinRequest) (sha : String) (ends : StatementEnd) (m : PinMove) : Prop where
  coherent : ManifestTables.Coherent p m.tables
  grows : ManifestTables.Grows tables m.tables
  ask : m.request.ask = r.ask
  server : m.request.server = r.server
  since : m.request.since = r.since
  good : m.request.Good p m.tables registries m.request.stage
  unknown : m.request.stage.isUnknown = true → ends = .answered ∧ ¬tables.Known sha
  failed : m.request.stage.isFailed = true → ends ≠ .answered

section Moves

variable {cfg : PinConfig} {registry : PgRegistry} {ends : StatementEnd} {draw : ℕ} {now : ℤ}
  {m : PinMove}

/-- `loadManifest` has come to this, -/
theorem move_loading {t : ManifestTables} {pc : ManifestLoadPc}
    {x : ManifestLoadPc ⊕ Option ResolvedManifest} {records : Option PinRecord}
    (hr : r.stage = .loading pc)
    (hload : tables.loadManifest sha pc = (t, x))
    (hx : r.ask.loaded cfg sha draw now x = (stage, records)) :
    r.move cfg tables registry sha .answered draw now
      = some ⟨t, { r with now := now, stage := stage }, records⟩ := by
  unfold move
  rw [hr]
  dsimp only
  rw [hload, hx]
  rfl

/-- or a version is found to have this status. -/
theorem move_classifying {ref : ClassName × Version} {status : Option DeprecationStatus}
    (hr : r.stage = .classifying resolved (ref :: todo) found)
    (hstatus : registry.driver.pinStatus r.now ref = status) :
    r.move cfg tables registry sha .answered draw now
      = some ⟨tables, { r with stage := pinClassify sha resolved todo (found.add ref status) },
        none⟩ := by
  unfold move
  rw [hr]
  dsimp only
  rw [hstatus]
  rfl

theorem isUnknown_pinClassify (sha : String) (resolved : ResolvedManifest)
    (todo : List (ClassName × Version)) (found : PinRefs) :
    (pinClassify sha resolved todo found).isUnknown = false := by
  unfold pinClassify
  split
  · unfold pinVerdict
    split <;> rfl
  · rfl

theorem isFailed_pinClassify (sha : String) (resolved : ResolvedManifest)
    (todo : List (ClassName × Version)) (found : PinRefs) :
    (pinClassify sha resolved todo found).isFailed = false := by
  unfold pinClassify
  split
  · unfold pinVerdict
    split <;> rfl
  · rfl

/-- How the request goes on when `loadManifest` comes to what is right. -/
theorem good_loaded (hinj : Function.Injective cfg.platform.digest)
    (hask : r.ask.isLookup = true) (hsha : r.ask.sha cfg.platform = some sha)
    {x : ManifestLoadPc ⊕ Option ResolvedManifest}
    (hx : tables.Loads cfg.platform sha x) :
    r.Good cfg.platform tables registries (r.ask.loaded cfg sha draw now x).fst := by
  rcases x with pc | _ | resolved
  · exact .loading hask hsha hx
  · obtain ⟨status, message, hreply⟩ := r.ask.unknown_eq sha
    have hhonours : (r.ask.unknown sha).Honours cfg.platform registries r :=
      hreply ▸ .unknown hask hsha hreply
    exact good_answered hhonours (hreply ▸ rfl)
  · obtain ⟨hknown, hstands⟩ := hx
    unfold PinAsk.loaded
    dsimp only
    split
    · next ha =>
      have hpinned : r.ask.isPinned = true := ha ▸ rfl
      dsimp only
      split
      · exact .saving hsha ⟨hstands, fun h => absurd h (by simp)⟩ (.inr ⟨hpinned, hknown⟩)
      · exact good_begin_pinClassify hinj hpinned hsha hknown hstands
    · next hno => exact good_manifest hinj (PinAsk.isPinned_eq_false hno) hsha hknown hstands

theorem isFailed_loaded {ask : PinAsk} (x : ManifestLoadPc ⊕ Option ResolvedManifest) :
    (ask.loaded cfg sha draw now x).fst.isFailed = false := by
  rcases x with pc | _ | resolved
  · rfl
  · obtain ⟨status, message, hreply⟩ := ask.unknown_eq sha
    show (PinStage.answered (ask.unknown sha)).isFailed = false
    rw [hreply]
    rfl
  · unfold PinAsk.loaded
    dsimp only
    split
    · dsimp only
      split
      · rfl
      · exact isFailed_pinClassify _ _ _ _
    · rfl

theorem unknown_loaded {ask : PinAsk} {x : ManifestLoadPc ⊕ Option ResolvedManifest}
    (h : (ask.loaded cfg sha draw now x).fst.isUnknown = true) : x = .inr none := by
  rcases x with pc | _ | resolved
  · exact absurd h Bool.false_ne_true
  · rfl
  · unfold PinAsk.loaded at h
    dsimp only at h
    split at h
    · dsimp only at h
      split at h
      · exact absurd h Bool.false_ne_true
      · rw [isUnknown_pinClassify] at h
        exact absurd h Bool.false_ne_true
    · exact absurd h Bool.false_ne_true

/-- A statement of `loadManifest`. -/
theorem moves_loading (hinj : Function.Injective cfg.platform.digest)
    (hc : ManifestTables.Coherent cfg.platform tables) (hask : r.ask.isLookup = true)
    (hsha : r.ask.sha cfg.platform = some sha) {pc : ManifestLoadPc}
    (hpc : tables.Loading cfg.platform sha pc) (hr : r.stage = .loading pc)
    (hm : r.move cfg tables registry sha ends draw now = some m) :
    r.Moves cfg.platform tables registries sha ends m := by
  obtain ⟨hcoherent, hloads⟩ := hc.loadManifest hpc
  have hgrows := tables.grows_loadManifest sha pc
  by_cases he : ends = .answered
  · subst he
    obtain rfl := Option.some.inj ((move_loading (t := (tables.loadManifest sha pc).fst)
      (x := (tables.loadManifest sha pc).snd) hr rfl rfl).symm.trans hm)
    refine ⟨hcoherent, hgrows, rfl, rfl, rfl, good_loaded hinj ?_ ?_ hloads,
      fun h => ⟨rfl, fun hk => ?_⟩, fun h => ?_⟩
    · exact hask
    · exact hsha
    · have hnone : (tables.loadManifest sha pc).snd = .inr none := unknown_loaded h
      rw [hnone] at hloads
      exact hloads (hgrows.known hk)
    · exact absurd ((isFailed_loaded _).symm.trans h) Bool.false_ne_true
  · unfold move at hm
    rw [hr] at hm
    dsimp only at hm
    rw [if_neg he] at hm
    obtain rfl := Option.some.inj hm
    refine ⟨?_, ?_, rfl, rfl, rfl, good_answered .failed rfl,
      fun h => absurd h Bool.false_ne_true, fun _ => he⟩
    · dsimp only
      split
      · exact hc
      · exact hcoherent
    · dsimp only
      split
      · exact .rfl tables
      · exact hgrows

/-- How the request goes on when `saveManifest` comes to what is right, -/
theorem good_stored (hinj : Function.Injective p.digest) (hsha : r.ask.sha p = some sha)
    (hstands : Stands p (Hex.decode sha) resolved)
    (hknown : (∃ m, r.ask = .resolve m) ∨ r.ask.isPinned = true ∧ tables.Known sha)
    {x : Option ManifestSavePc} (hx : tables.Saves p sha resolved x) :
    r.Good p tables registries (r.ask.stored sha resolved x) := by
  cases x with
  | some pc => exact .saving hsha hx hknown
  | none =>
    unfold PinAsk.stored
    dsimp only
    split
    · next ha => exact good_manifest hinj (ha ▸ rfl) hsha hx hstands
    · next hno =>
      have hpinned := hknown.resolve_left (fun ⟨m, hm⟩ => hno m hm)
      exact good_begin_pinClassify hinj hpinned.1 hsha hx hstands

/-- and when it fails. -/
theorem good_notStored (hinj : Function.Injective p.digest) (hsha : r.ask.sha p = some sha)
    (hstands : Stands p (Hex.decode sha) resolved)
    (hknown : (∃ m, r.ask = .resolve m) ∨ r.ask.isPinned = true ∧ tables.Known sha) :
    r.Good p tables registries (r.ask.notStored sha resolved) := by
  unfold PinAsk.notStored
  split
  · exact good_answered .failed rfl
  · next hno =>
    -- only what was loaded is stored so, and it has a row
    have hpinned := hknown.resolve_left (fun ⟨m, hm⟩ => hno m hm)
    exact good_begin_pinClassify hinj hpinned.1 hsha hpinned.2 hstands

theorem isUnknown_stored (ask : PinAsk) (sha : String) (resolved : ResolvedManifest)
    (x : Option ManifestSavePc) : (ask.stored sha resolved x).isUnknown = false := by
  cases x with
  | some pc => rfl
  | none =>
    unfold PinAsk.stored
    dsimp only
    split
    · rfl
    · exact isUnknown_pinClassify _ _ _ _

theorem isFailed_stored (ask : PinAsk) (sha : String) (resolved : ResolvedManifest)
    (x : Option ManifestSavePc) : (ask.stored sha resolved x).isFailed = false := by
  cases x with
  | some pc => rfl
  | none =>
    unfold PinAsk.stored
    dsimp only
    split
    · rfl
    · exact isFailed_pinClassify _ _ _ _

theorem isUnknown_notStored (ask : PinAsk) (sha : String) (resolved : ResolvedManifest) :
    (ask.notStored sha resolved).isUnknown = false := by
  unfold PinAsk.notStored
  split
  · rfl
  · exact isUnknown_pinClassify _ _ _ _

/-- A statement of `saveManifest`. -/
theorem moves_saving (hinj : Function.Injective cfg.platform.digest)
    (hj : cfg.platform.Keeps) (hc : ManifestTables.Coherent cfg.platform tables)
    (hsha : r.ask.sha cfg.platform = some sha) {pc : ManifestSavePc}
    (hpc : tables.Saving cfg.platform sha resolved pc)
    (hknown : (∃ m, r.ask = .resolve m) ∨ r.ask.isPinned = true ∧ tables.Known sha)
    (hr : r.stage = .saving resolved pc)
    (hm : r.move cfg tables registry sha ends draw now = some m) :
    r.Moves cfg.platform tables registries sha ends m := by
  obtain ⟨hcoherent, hsaves⟩ := hc.saveManifest hj hpc
  have hgrows := tables.grows_saveManifest cfg.platform sha resolved pc
  unfold move at hm
  rw [hr] at hm
  obtain rfl := Option.some.inj hm
  by_cases he : ends = .answered
  · subst he
    refine ⟨hcoherent, hgrows, rfl, rfl, rfl, good_stored hinj ?_ hpc.stands ?_ hsaves,
      fun h => ?_, fun h => ?_⟩
    · exact hsha
    · exact hknown.imp_right (And.imp_right hgrows.known)
    · exact absurd ((isUnknown_stored _ _ _ _).symm.trans h) Bool.false_ne_true
    · exact absurd ((isFailed_stored _ _ _ _).symm.trans h) Bool.false_ne_true
  · have hgrows' : ManifestTables.Grows tables (if ends = .refused then tables
        else (tables.saveManifest cfg.platform sha resolved pc).fst) := by
      split
      · exact .rfl tables
      · exact hgrows
    refine ⟨?_, hgrows', rfl, rfl, rfl, ?_, fun h => ?_, fun _ => he⟩
    · dsimp only
      split
      · exact hc
      · exact hcoherent
    · dsimp only
      rw [if_neg he]
      refine good_notStored hinj ?_ hpc.stands ?_
      · exact hsha
      · exact hknown.imp_right (And.imp_right hgrows'.known)
    · dsimp only at h
      rw [if_neg he, isUnknown_notStored] at h
      exact absurd h Bool.false_ne_true

/-- A version is looked up. -/
theorem moves_classifying (hinj : Function.Injective cfg.platform.digest)
    (hc : ManifestTables.Coherent cfg.platform tables) (hask : r.ask.isPinned = true)
    (hsha : r.ask.sha cfg.platform = some sha) {ref : ClassName × Version}
    (hknown : tables.Known sha)
    (hstands : Stands cfg.platform (Hex.decode sha) resolved)
    (hlisted : listed resolved = before ++ ref :: todo)
    (hrefs : r.Classified registries before found) (hreg : registry ∈ registries.drop r.since)
    (hr : r.stage = .classifying resolved (ref :: todo) found)
    (hm : r.move cfg tables registry sha ends draw now = some m) :
    r.Moves cfg.platform tables registries sha ends m := by
  have hnew : ref ∉ before := by
    have hn : (listed resolved).Nodup :=
      ((listed_perm resolved).nodup_iff.mpr resolved.nodup.of_map)
    rw [hlisted, List.nodup_append'] at hn
    exact fun h => hn.2.2 h List.mem_cons_self
  unfold move at hm
  rw [hr] at hm
  obtain rfl := Option.some.inj hm
  refine ⟨hc, .rfl tables, rfl, rfl, rfl, ?_, fun h => ?_, fun h => ?_⟩
  · dsimp only
    split
    · have hlisted : listed resolved = (before ++ [ref]) ++ todo := by
        rw [hlisted, List.append_assoc, List.singleton_append]
      refine good_pinClassify hinj ?_ ?_ hknown hstands hlisted ?_
      · exact hask
      · exact hsha
      · exact hrefs.add hnew hreg
    · exact good_answered .failed rfl
  · dsimp only at h
    split at h
    · rw [isUnknown_pinClassify] at h
      exact absurd h Bool.false_ne_true
    · exact absurd h Bool.false_ne_true
  · dsimp only at h
    split at h
    · rw [isFailed_pinClassify] at h
      exact absurd h Bool.false_ne_true
    · assumption

/-- **A request makes a statement.** -/
theorem moves (hinj : Function.Injective cfg.platform.digest) (hj : cfg.platform.Keeps)
    (hc : ManifestTables.Coherent cfg.platform tables) (hsha : r.ask.sha cfg.platform = some sha)
    (hgood : r.Good cfg.platform tables registries r.stage)
    (hreg : registry ∈ registries.drop r.since)
    (hm : r.move cfg tables registry sha ends draw now = some m) :
    r.Moves cfg.platform tables registries sha ends m := by
  generalize hr : r.stage = stage at hgood
  cases hgood with
  | loading hask hsha' hpc =>
    obtain rfl := Option.some.inj (hsha'.symm.trans hsha)
    exact moves_loading hinj hc hask hsha hpc hr hm
  | saving hsha' hpc hknown =>
    obtain rfl := Option.some.inj (hsha'.symm.trans hsha)
    exact moves_saving hinj hj hc hsha hpc hknown hr hm
  | @classifying sha' resolved before todo found hask hsha' hknown hstands hlisted hrefs =>
    obtain rfl := Option.some.inj (hsha'.symm.trans hsha)
    cases todo with
    | nil =>
      unfold move at hm
      rw [hr] at hm
      exact absurd hm (by simp)
    | cons ref todo =>
      exact moves_classifying hinj hc hask hsha hknown hstands hlisted hrefs hreg hr hm
  | answered h =>
    unfold move at hm
    rw [hr] at hm
    exact absurd hm (by simp)

end Moves

end PinRequest
