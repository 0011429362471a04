import Actjs.PinRequests
import Actjs.Transition

/-!
# Pinned requests

Any number of servers answer requests about manifests, over the same tables. Classes are
published and deprecated in between, also while the hook is at the versions of a manifest;
what is cached may go; a statement may fail, before it is carried out or after; and a server
may stop, with all its requests.

A manifest that was handed out is there from then on, as it was, whatever is published.
-/

open OwnProperties
open Function (update)

/-! ## Servers -/

/-- **The servers**, over their tables. -/
structure PinServers where
  tables : ManifestTables
  registry : PgRegistry
  /-- The states that the registry has been in before. -/
  past : List PgRegistry
  trackers : ℕ → ManifestUsageTracker
  /-- What each tracker has been given since its server started. -/
  recorded : ℕ → List PinRecord
  requests : List PinRequest

inductive PinAct where
  /-- A request comes to a server. -/
  | comes (server : ℕ) (ask : PinAsk)
  /-- The next statement of a request, at a time; `draw` is what `randomInt` draws if it is
  called. -/
  | runs (n : ℕ) (ends : StatementEnd) (draw : ℕ) (now : ℤ)
  | classes (now : ℤ) (op : ClassOp)
  /-- An entry of the cache goes. -/
  | evicts (sha : String)
  /-- A server stops, and starts again. -/
  | restarts (server : ℕ)

namespace PinServers

/-- Servers with nothing in their tables. -/
def init (cfg : PinConfig) : PinServers where
  tables := .empty
  registry := .empty
  past := []
  trackers _ := .new cfg.maxShas
  recorded _ := []
  requests := []

/-- A statement of a request is made. -/
def apply (s : PinServers) (n : ℕ) (m : PinMove) : PinServers :=
  let server := m.request.server
  { s with
    tables := m.tables
    trackers :=
      update s.trackers server (m.records.toList.foldl .record (s.trackers server))
    recorded := update s.recorded server (s.recorded server ++ m.records.toList)
    requests := s.requests.set n m.request }

/-- **A step of the servers.** -/
def step (cfg : PinConfig) (s : PinServers) : PinAct → Option PinServers
  | .comes server ask =>
    some { s with requests := s.requests ++ [⟨server, ask, s.past.length, 0, ask.begin⟩] }
  | .runs n ends draw now =>
    (s.requests[n]?).bind (fun r => (r.ask.sha cfg.platform).bind (fun sha =>
      (r.move cfg s.tables s.registry sha ends draw now).map (s.apply n)))
  | .classes now op =>
    some { s with
      registry := (s.registry.apply cfg.registry now op).toOption.getD s.registry
      past := s.past ++ [s.registry] }
  | .evicts sha => some { s with tables := s.tables.evict sha }
  | .restarts server =>
    some { s with
      trackers := update s.trackers server (.new cfg.maxShas)
      recorded := update s.recorded server []
      requests := s.requests.map (fun r => if r.server = server then r.dropped else r) }

/-- The states that the registry has been in, the present one last. -/
def registries (s : PinServers) : List PgRegistry := s.past ++ [s.registry]

end PinServers

/-! ## Every request of the servers

What holds of one request holds of all, since rows stay as they are, whatever
the others do to the tables. -/

namespace PinServers

/-- **What the servers keep.** -/
structure Sound (p : ManifestPlatform) (s : PinServers) : Prop where
  coherent : ManifestTables.Coherent p s.tables
  since : ∀ r ∈ s.requests, r.since ≤ s.past.length
  good : ∀ r ∈ s.requests, r.Good p s.tables s.registries r.stage

variable {cfg : PinConfig} {p : ManifestPlatform} {s s' : PinServers}

/-- A statement of a request that is under way is a step, -/
theorem step_of_move {n : ℕ} {ends : StatementEnd} {draw : ℕ} {now : ℤ} {r : PinRequest}
    {sha : String} {m : PinMove} (hr : s.requests[n]? = some r)
    (hsha : r.ask.sha cfg.platform = some sha)
    (hm : r.move cfg s.tables s.registry sha ends draw now = some m) :
    s.step cfg (.runs n ends draw now) = some (s.apply n m) := by
  show (s.requests[n]?).bind _ = _
  rw [hr, Option.bind_some, hsha, Option.bind_some, hm]
  rfl

/-- and there is no other. -/
theorem step_runs {n : ℕ} {ends : StatementEnd} {draw : ℕ} {now : ℤ}
    (hs : s.step cfg (.runs n ends draw now) = some s') :
    ∃ r sha m, s.requests[n]? = some r ∧ r.ask.sha cfg.platform = some sha
      ∧ r.move cfg s.tables s.registry sha ends draw now = some m ∧ s' = s.apply n m := by
  obtain ⟨r, hr, hs⟩ := Option.bind_eq_some_iff.mp hs
  obtain ⟨sha, hsha, hs⟩ := Option.bind_eq_some_iff.mp hs
  obtain ⟨m, hm, rfl⟩ := Option.map_eq_some_iff.mp hs
  exact ⟨r, sha, m, hr, hsha, hm, rfl⟩

theorem good_begin (p : ManifestPlatform) (tables : ManifestTables)
    (registries : List PgRegistry) (r : PinRequest) (hr : r.stage = r.ask.begin) :
    r.Good p tables registries r.stage := by
  rw [hr]
  cases ha : r.ask with
  | resolve m =>
    refine .saving (congrArg (PinAsk.sha p) ha) ⟨?_, fun h => absurd h (by simp)⟩ (.inl ⟨m, ha⟩)
    rw [p.decode_sha]
    exact stands_storedManifest p m
  | retrieve sha =>
    unfold PinAsk.begin
    dsimp only
    split
    · exact .loading (ha ▸ rfl) (congrArg (PinAsk.sha p) ha) trivial
    · next hsha =>
      exact PinRequest.good_answered (.malformed ha (Bool.not_eq_true _ ▸ hsha)) rfl
  | pinned header query =>
    have hsha : r.ask.sha p = pinShaFor header query := congrArg (PinAsk.sha p) ha
    unfold PinAsk.begin
    dsimp only
    split
    · next hnone =>
      exact PinRequest.good_answered (.unpinned (ha ▸ rfl) (hsha.trans hnone)) rfl
    · next sha hsome => exact .loading (ha ▸ rfl) (hsha.trans hsome) trivial

theorem since_dropped (r : PinRequest) : r.dropped.since = r.since := by
  unfold PinRequest.dropped
  split <;> rfl

theorem ask_dropped (r : PinRequest) : r.dropped.ask = r.ask := by
  unfold PinRequest.dropped
  split <;> rfl

theorem good_dropped {tables : ManifestTables} {registries : List PgRegistry} {r : PinRequest}
    (h : r.Good p tables registries r.stage) :
    r.dropped.Good p tables registries r.dropped.stage := by
  unfold PinRequest.dropped
  split
  · exact h
  · exact PinRequest.good_answered .failed rfl

namespace Sound

theorem init (cfg : PinConfig) : Sound p (init cfg) where
  coherent := .empty p
  since _ h := absurd h List.not_mem_nil
  good _ h := absurd h List.not_mem_nil

/-- Requests stay right. -/
theorem mono (h : Sound p s) {r : PinRequest} (hr : r ∈ s.requests)
    (hg : ManifestTables.Grows s.tables s'.tables) (hp : s.registries <+: s'.registries) :
    r.Good p s'.tables s'.registries r.stage := (h.good r hr).mono hg hp

theorem moves (h : Sound cfg.platform s) (hinj : Function.Injective cfg.platform.digest)
    (hj : cfg.platform.Keeps) {n : ℕ} {r : PinRequest} {sha : String} {m : PinMove}
    {ends : StatementEnd} {draw : ℕ} {now : ℤ} (hr : s.requests[n]? = some r)
    (hsha : r.ask.sha cfg.platform = some sha)
    (hm : r.move cfg s.tables s.registry sha ends draw now = some m) :
    r.Moves cfg.platform s.tables s.registries sha ends m := by
  have hmem := List.mem_of_getElem? hr
  refine PinRequest.moves hinj hj h.coherent hsha (h.good r hmem) ?_ hm
  rw [registries, List.drop_append_of_le_length (h.since r hmem)]
  exact List.mem_append_right _ (List.mem_singleton_self _)

/-- **A step keeps it.** -/
theorem step (h : Sound cfg.platform s) (hinj : Function.Injective cfg.platform.digest)
    (hj : cfg.platform.Keeps) {a : PinAct} (hs : s.step cfg a = some s') :
    Sound cfg.platform s' := by
  cases a with
  | comes server ask =>
    obtain rfl := Option.some.inj hs
    refine ⟨h.coherent, fun r hr => ?_, fun r hr => ?_⟩
    · obtain hr | hr := List.mem_append.mp hr
      · exact h.since r hr
      · rw [List.mem_singleton.mp hr]
    · obtain hr | hr := List.mem_append.mp hr
      · exact h.good r hr
      · rw [List.mem_singleton.mp hr]
        exact good_begin _ _ _ _ rfl
  | runs n ends draw now =>
    obtain ⟨r, sha, m, hr, hsha, hm, rfl⟩ := step_runs hs
    have hmoves := h.moves hinj hj hr hsha hm
    refine ⟨hmoves.coherent, fun r' hr' => ?_, fun r' hr' => ?_⟩
    · obtain hr' | rfl := List.mem_or_eq_of_mem_set hr'
      · exact h.since r' hr'
      · rw [hmoves.since]
        exact h.since r (List.mem_of_getElem? hr)
    · obtain hr' | rfl := List.mem_or_eq_of_mem_set hr'
      · exact h.mono hr' hmoves.grows (List.prefix_refl _)
      · exact hmoves.good
  | classes now op =>
    obtain rfl := Option.some.inj hs
    refine ⟨h.coherent, fun r hr => ?_, fun r hr => ?_⟩
    · exact (h.since r hr).trans (by simp)
    · exact h.mono hr (.rfl _) (List.prefix_append _ _)
  | evicts sha =>
    obtain rfl := Option.some.inj hs
    exact ⟨h.coherent.evict sha, h.since, fun r hr =>
      h.mono hr (.rfl s.tables) (List.prefix_refl _)⟩
  | restarts server =>
    obtain rfl := Option.some.inj hs
    refine ⟨h.coherent, fun r hr => ?_, fun r hr => ?_⟩
    · obtain ⟨r, hmem, rfl⟩ := List.mem_map.mp hr
      split
      · rw [since_dropped]
        exact h.since r hmem
      · exact h.since r hmem
    · obtain ⟨r, hmem, rfl⟩ := List.mem_map.mp hr
      split
      · exact good_dropped (h.good r hmem)
      · exact h.good r hmem

end Sound

/-! ## What is handed out is there

A hash that was answered has a row, which stays; so no later request is told
that there is none. -/

/-- **Later requests find it**: the hash has a row, and no request from the `n`-th on that is
about it is told that there is no manifest. -/
structure Finds (p : ManifestPlatform) (n : ℕ) (sha : String) (s : PinServers) : Prop where
  known : s.tables.Known sha
  later : ∀ k r, n ≤ k → s.requests[k]? = some r → r.bytes p = some (Hex.decode sha) →
    r.stage.isUnknown = false

theorem isUnknown_begin (ask : PinAsk) : ask.begin.isUnknown = false := by
  cases ask with
  | resolve m => rfl
  | retrieve sha =>
    unfold PinAsk.begin
    dsimp only
    split <;> rfl
  | pinned header query =>
    unfold PinAsk.begin
    dsimp only
    split <;> rfl

theorem isUnknown_dropped {r : PinRequest} (h : r.stage.isUnknown = false) :
    r.dropped.stage.isUnknown = false := by
  unfold PinRequest.dropped
  split
  · exact h
  · rfl

/-- **A step keeps it.** -/
theorem Finds.step {n : ℕ} {sha : String} (h : Finds cfg.platform n sha s)
    (hsound : Sound cfg.platform s) (hinj : Function.Injective cfg.platform.digest)
    (hj : cfg.platform.Keeps) {a : PinAct} (hs : s.step cfg a = some s') :
    Finds cfg.platform n sha s' := by
  cases a with
  | comes server ask =>
    obtain rfl := Option.some.inj hs
    refine ⟨h.known, fun k r hk hr hb => ?_⟩
    rw [List.getElem?_append] at hr
    split at hr
    · exact h.later k r hk hr hb
    · obtain rfl := List.mem_singleton.mp (List.mem_of_getElem? hr)
      exact isUnknown_begin ask
  | runs i ends draw now =>
    obtain ⟨r, sha', m, hr, hsha, hm, rfl⟩ := step_runs hs
    have hmoves := hsound.moves hinj hj hr hsha hm
    refine ⟨hmoves.grows.known h.known, fun k r' hk hr' hb => ?_⟩
    have hr' : (s.requests.set i m.request)[k]? = some r' := hr'
    rw [List.getElem?_set] at hr'
    split at hr'
    · split at hr'
      · obtain rfl := Option.some.inj hr'
        -- the request is about the hash, and there is a row
        rw [← Bool.not_eq_true]
        intro hunknown
        rw [PinRequest.bytes, hmoves.ask, hsha, Option.map_some] at hb
        refine (hmoves.unknown hunknown).2 ?_
        rw [ManifestTables.Known, Option.some.inj hb]
        exact h.known
      · exact absurd hr' (by simp)
    · exact h.later k r' hk hr' hb
  | classes now op =>
    obtain rfl := Option.some.inj hs
    exact ⟨h.known, h.later⟩
  | evicts sha' =>
    obtain rfl := Option.some.inj hs
    exact ⟨h.known, h.later⟩
  | restarts server =>
    obtain rfl := Option.some.inj hs
    refine ⟨h.known, fun k r hk hr hb => ?_⟩
    rw [List.getElem?_map, Option.map_eq_some_iff] at hr
    obtain ⟨r, hr, rfl⟩ := hr
    by_cases he : r.server = server
    · rw [if_pos he] at hb ⊢
      rw [PinRequest.bytes, ask_dropped] at hb
      exact isUnknown_dropped (h.later k r hk hr hb)
    · rw [if_neg he] at hb ⊢
      exact h.later k r hk hr hb

/-! ## Why there is no manifest in a reply

A request may be told that there is no manifest, and it may fail. Neither is given without a
reason, and each reason is a step of the run that has been made since the request came.
-/

/-- **A request has failed, or is told that there is no manifest, for a reason.**

It fails where its server stopped, or where a statement of its own was not answered. It is
told that there is no manifest where there was no row for its hash when it looked. -/
structure Excused (cfg : PinConfig) (acts : List PinAct) (n : ℕ) (r : PinRequest) : Prop where
  failed : r.stage.isFailed = true →
    (∃ t, TransitionSystem.Makes (step cfg) (init cfg) acts (.restarts r.server) t
      ∧ n < t.requests.length)
    ∨ ∃ ends draw now t, ends ≠ .answered
      ∧ TransitionSystem.Makes (step cfg) (init cfg) acts (.runs n ends draw now) t
  unknown : r.stage.isUnknown = true →
    ∃ sha draw now t, r.ask.sha cfg.platform = some sha
      ∧ TransitionSystem.Makes (step cfg) (init cfg) acts (.runs n .answered draw now) t
      ∧ ¬t.tables.Known sha

theorem isFailed_begin (ask : PinAsk) : ask.begin.isFailed = false := by
  cases ask with
  | resolve m => rfl
  | retrieve sha =>
    unfold PinAsk.begin
    dsimp only
    split <;> rfl
  | pinned header query =>
    unfold PinAsk.begin
    dsimp only
    split <;> rfl

theorem server_dropped (r : PinRequest) : r.dropped.server = r.server := by
  unfold PinRequest.dropped
  split <;> rfl

namespace Excused

variable {as : List PinAct} {n : ℕ} {r : PinRequest}

/-- The reason stays. -/
theorem append (h : Excused cfg as n r) (bs : List PinAct) : Excused cfg (as ++ bs) n r where
  failed hr := (h.failed hr).imp
    (fun ⟨t, ht, hn⟩ => ⟨t, ht.append _ bs, hn⟩)
    (fun ⟨ends, draw, now, t, he, ht⟩ => ⟨ends, draw, now, t, he, ht.append _ bs⟩)
  unknown hr :=
    have ⟨sha, draw, now, t, hsha, ht, hk⟩ := h.unknown hr
    ⟨sha, draw, now, t, hsha, ht.append _ bs, hk⟩

/-- A request that has just come needs none. -/
theorem begins (as : List PinAct) (n server : ℕ) (ask : PinAsk) (since : ℕ) :
    Excused cfg as n ⟨server, ask, since, 0, ask.begin⟩ where
  failed hr := absurd ((isFailed_begin ask).symm.trans hr) Bool.false_ne_true
  unknown hr := absurd ((isUnknown_begin ask).symm.trans hr) Bool.false_ne_true

/-- A statement of its own is the reason, -/
theorem moved (hrun : TransitionSystem.run (PinServers.step cfg) (PinServers.init cfg) as = some s)
    {sha : String} {m : PinMove} {ends : StatementEnd} {draw : ℕ} {now : ℤ}
    (hsha : r.ask.sha cfg.platform = some sha)
    (hmoves : r.Moves cfg.platform s.tables s.registries sha ends m) :
    Excused cfg (as ++ [.runs n ends draw now]) n m.request where
  failed hr := .inr ⟨ends, draw, now, s, hmoves.failed hr,
    TransitionSystem.makes_last _ hrun _⟩
  unknown hr := by
    obtain ⟨rfl, hk⟩ := hmoves.unknown hr
    refine ⟨sha, draw, now, s, ?_, TransitionSystem.makes_last _ hrun _, hk⟩
    rw [hmoves.ask, hsha]

/-- or its server stops. -/
theorem dropped (h : Excused cfg as n r)
    (hrun : TransitionSystem.run (PinServers.step cfg) (PinServers.init cfg) as = some s)
    (hr : s.requests[n]? = some r) :
    Excused cfg (as ++ [.restarts r.server]) n r.dropped where
  failed hfailed := by
    rw [server_dropped]
    exact .inl ⟨s, TransitionSystem.makes_last _ hrun _, (List.getElem?_eq_some_iff.mp hr).1⟩
  unknown hunknown := by
    have hr : r.stage.isUnknown = true := Bool.of_not_eq_false (fun hr =>
      Bool.false_ne_true ((isUnknown_dropped hr).symm.trans hunknown))
    rw [ask_dropped]
    exact (h.append _).unknown hr

end Excused

/-- **Every request has its reason, after one step more.** -/
theorem excused_step (hinj : Function.Injective cfg.platform.digest) (hj : cfg.platform.Keeps)
    {as : List PinAct}
    (hrun : TransitionSystem.run (step cfg) (init cfg) as = some s) (hsound : Sound cfg.platform s)
    (h : ∀ n r, s.requests[n]? = some r → Excused cfg as n r) {a : PinAct}
    (hs : s.step cfg a = some s') :
    ∀ n r, s'.requests[n]? = some r → Excused cfg (as ++ [a]) n r := by
  intro n r hr
  cases a with
  | comes server ask =>
    obtain rfl := Option.some.inj hs
    rw [List.getElem?_append] at hr
    split at hr
    · exact (h n r hr).append _
    · obtain rfl := List.mem_singleton.mp (List.mem_of_getElem? hr)
      exact .begins _ _ _ _ _
  | runs i ends draw now =>
    obtain ⟨r', sha, m, hr', hsha, hm, rfl⟩ := step_runs hs
    have hset : (s.requests.set i m.request)[n]? = some r := hr
    rw [List.getElem?_set] at hset
    split at hset
    · next he =>
      subst he
      split at hset
      · obtain rfl := Option.some.inj hset
        exact .moved hrun hsha (hsound.moves hinj hj hr' hsha hm)
      · exact absurd hset (by simp)
    · exact (h n r hset).append _
  | classes now op =>
    obtain rfl := Option.some.inj hs
    exact (h n r hr).append _
  | evicts sha =>
    obtain rfl := Option.some.inj hs
    exact (h n r hr).append _
  | restarts server =>
    obtain rfl := Option.some.inj hs
    rw [List.getElem?_map, Option.map_eq_some_iff] at hr
    obtain ⟨r', hr', rfl⟩ := hr
    by_cases he : r'.server = server
    · rw [if_pos he]
      exact he ▸ (h n r' hr').dropped hrun hr'
    · rw [if_neg he]
      exact (h n r' hr').append _

/-! ## Pins are honoured -/

/-- **What is handed out before `s` is honoured up to `s'`.** -/
structure Honoured (p : ManifestPlatform) (s s' : PinServers) : Prop where
  /-- Whatever is answered honours the pin. -/
  replies : ∀ r ∈ s'.requests, ∀ reply, r.stage = .answered reply →
    reply.Honours p s'.registries r
  /-- A request that comes after a manifest was handed out finds it. -/
  finds : ∀ r ∈ s.requests, ∀ reply sha, r.stage = .answered reply → reply.about = some sha →
    ∀ k r', s.requests.length ≤ k → s'.requests[k]? = some r' →
      r'.bytes p = some (Hex.decode sha) → r'.stage.isUnknown = false

theorem Sound.run (hinj : Function.Injective cfg.platform.digest) (hj : cfg.platform.Keeps)
    {as : List PinAct} (h : Sound cfg.platform s)
    (hs : TransitionSystem.run (PinServers.step cfg) s as = some s') : Sound cfg.platform s' :=
  TransitionSystem.run_invariant' (PinServers.step cfg) (fun _ _ _ h hs => h.step hinj hj hs) h hs

theorem Finds.run (hinj : Function.Injective cfg.platform.digest) (hj : cfg.platform.Keeps)
    {as : List PinAct} {n : ℕ} {sha : String} (h : Sound cfg.platform s)
    (hf : Finds cfg.platform n sha s)
    (hs : TransitionSystem.run (PinServers.step cfg) s as = some s') :
    Finds cfg.platform n sha s' :=
  (TransitionSystem.run_invariant' (PinServers.step cfg)
    (P := fun s => Sound cfg.platform s ∧ Finds cfg.platform n sha s)
    (fun _ _ _ h hs => ⟨h.1.step hinj hj hs, h.2.step h.1 hinj hj hs⟩) ⟨h, hf⟩ hs).2

/-- What an answer is about has a row. -/
theorem Sound.known (h : Sound p s) {r : PinRequest} (hr : r ∈ s.requests) {reply : PinReply}
    {sha : String} (hreply : r.stage = .answered reply) (hsha : reply.about = some sha) :
    s.tables.Known sha := by
  have hgood := h.good r hr
  rw [hreply] at hgood
  cases hgood with
  | answered _ hknown => exact hknown sha hsha

/-- In every run each request has its reason. -/
theorem excused_run (hinj : Function.Injective cfg.platform.digest) (hj : cfg.platform.Keeps)
    {as : List PinAct} (hs : TransitionSystem.run (step cfg) (init cfg) as = some s) :
    ∀ n r, s.requests[n]? = some r → Excused cfg as n r :=
  (TransitionSystem.run_induction (step cfg)
    (P := fun as s => Sound cfg.platform s
      ∧ ∀ n r, s.requests[n]? = some r → Excused cfg as n r)
    ⟨.init cfg, fun _ _ h => absurd h (by simp [init])⟩
    (fun _ _ _ _ hrun h hs =>
      ⟨h.1.step hinj hj hs, excused_step hinj hj hrun h.1 h.2 hs⟩) hs).2

/-- **Pins are honoured.**

In every run of any number of servers, with classes published and deprecated, statements
failing, servers stopping and cached manifests going at any time: the manifest that is found
under a hash has the versions of the one that was resolved with it, and it is found from then
on. A pinned request passes exactly if no version in it was past its grace window when it was
looked up, unless there was no row for its hash, a statement of it was not answered or its
server stopped. -/
theorem pins_honoured (cfg : PinConfig) (hinj : Function.Injective cfg.platform.digest)
    (hj : cfg.platform.Keeps) {as bs : List PinAct} {s s' : PinServers}
    (hs : TransitionSystem.run (step cfg) (init cfg) as = some s)
    (hs' : TransitionSystem.run (step cfg) s bs = some s') :
    Honoured cfg.platform s s'
      ∧ ∀ n r, s'.requests[n]? = some r → Excused cfg (as ++ bs) n r := by
  have hsound : Sound cfg.platform s := (Sound.init cfg).run hinj hj hs
  have hrun : TransitionSystem.run (step cfg) (init cfg) (as ++ bs) = some s' := by
    rw [TransitionSystem.run_append, hs, Option.bind_some, hs']
  refine ⟨⟨fun r hr reply hreply => ?_, fun r hr reply sha hreply hsha => ?_⟩,
    excused_run hinj hj hrun⟩
  · have hgood := (hsound.run hinj hj hs').good r hr
    rw [hreply] at hgood
    cases hgood with
    | answered h _ => exact h
  · have hfinds : Finds cfg.platform s.requests.length sha s := by
      refine ⟨hsound.known hr hreply hsha, fun k r' hk hr' _ => ?_⟩
      rw [List.getElem?_eq_none hk] at hr'
      exact absurd hr' (by simp)
    exact (hfinds.run hinj hj hsound hs').later

/-! ### A cart whose grace window passes -/

/-- A manifest of one class, -/
def cartPin : PublishedManifest := ⟨manifestFromEntries [("Cart", "1.0.0")], by decide⟩

/-- the text that is hashed of it, -/
def cartText : String := "\x7b\"Cart\":\"1.0.0\"\x7d"

/-- its hash, -/
def cartHash : List UInt8 :=
  [0x76, 0x32, 0x90, 0x05, 0x64, 0x03, 0x3d, 0x71, 0x40, 0x27, 0x84, 0x8d, 0x38, 0x03, 0x09,
    0x6b, 0x05, 0x28, 0x54, 0xe6, 0x01, 0x6a, 0xa1, 0x9a, 0xf4, 0xba, 0xe9, 0x82, 0xf6, 0x74,
    0x7c, 0xcd]

/-- as it is answered, -/
def cartSha : String := "7632900564033d714027848d3803096b052854e6016aa19af4bae982f6747ccd"

/-- and as a header may have it. -/
def cartHeader : String := "7632900564033D714027848D3803096B052854E6016AA19AF4BAE982F6747CCD"

def textBytes (text : String) : List UInt8 := text.toByteArray.data.toList

theorem textBytes_injective : Function.Injective textBytes := fun _ _ h =>
  String.toByteArray_inj.mp (ByteArray.ext (Array.toList_inj.mp h))

/-- A platform that has hashed the text. -/
def cartPlatform : ManifestPlatform where
  digest text := Equiv.swap (textBytes cartText) cartHash (textBytes text)
  jsonb r := r

def cartConfig : PinConfig where
  platform := cartPlatform
  registry :=
    { sha256Hex := fun _ => "e3b0c44298fc1c149afbf4c8996fb92427ae41e4649b934ca495991b7852b855"
      jsonb := fun m => m }
  maxShas := defaultMaxShas
  sampleEvery := 100

theorem injective_digest : Function.Injective cartPlatform.digest :=
  (Equiv.injective _).comp textBytes_injective

theorem keeps_cartPlatform : cartPlatform.Keeps := fun _ => .refl _

theorem canonicalText_cartPin : canonicalText cartPin.map = cartText := by
  have hsorted : sortedEntries cartPin.map = cartPin.map.entries :=
    List.mergeSort_of_pairwise (by decide)
  have hlisted : listed (cartPin.map.entries.foldl assign .empty) = cartPin.map.entries := by
    rw [listed_foldl_assign (.refl _)]
    decide
  unfold canonicalText
  rw [hsorted]
  dsimp only
  rw [hlisted]
  rfl

theorem sha_cartPin : cartPlatform.sha cartPin = cartSha := by
  have hbytes : cartPlatform.digest cartText = cartHash := Equiv.swap_apply_left _ _
  show Hex.encode (cartPlatform.digest (canonicalText cartPin.map)) = cartSha
  rw [canonicalText_cartPin, hbytes]
  decide

/-- What is stored of it. -/
def cartStored : ResolvedManifest := storedManifest cartPin.map

theorem listed_cartStored : listed cartStored = [("Cart", "1.0.0")] := by
  unfold cartStored storedManifest
  rw [listed_foldl_assign (.refl _)]
  decide

/-- It is resolved. -/
def cartResolved : List PinAct :=
  [.comes 0 (.resolve cartPin), .runs 0 .answered 1 0, .runs 0 .answered 1 0]

def cartRequest (stage : PinStage) : PinRequest := ⟨0, .resolve cartPin, 0, 0, stage⟩

/-- The servers when it is answered. -/
def cartServers (sha : String) : PinServers :=
  let t := ManifestTables.empty.insert cartPlatform sha cartStored
  (({ init cartConfig with requests := [cartRequest (.saving cartStored .insert)] }).apply 0
    ⟨t, cartRequest (.saving cartStored .set), none⟩).apply 0
    ⟨t.cache sha cartStored, cartRequest (.answered (.manifest sha cartStored)), none⟩

theorem run_cartResolved : TransitionSystem.run (step cartConfig) (init cartConfig) cartResolved
    = some (cartServers cartSha) := by
  rw [← sha_cartPin]
  rfl

/-- The class, -/
def cartRow (deprecated_at : Option ℤ) (grace_until : Option ℕ) : ClassVersionRow where
  name := "Cart"
  version := "1.0.0"
  source_sha256 := "e3b0c44298fc1c149afbf4c8996fb92427ae41e4649b934ca495991b7852b855"
  deps := []
  engines := []
  published_at := 5
  deprecated_at := deprecated_at
  grace_until := grace_until
  signed_by := none
  floating := false
  event_sourced := false

/-- published, and deprecated. -/
def cartRegistry (deprecated_at : Option ℤ) (grace_until : Option ℕ) : PgRegistry where
  classVersion := [cartRow deprecated_at grace_until]
  classBlob := update (fun _ => none)
    "e3b0c44298fc1c149afbf4c8996fb92427ae41e4649b934ca495991b7852b855" (some [])

theorem pinStatus_cart :
    (cartRegistry (some 8) (some 9)).driver.pinStatus 10 ("Cart", "1.0.0") = some .expired := by
  have hlist : (cartRegistry (some 8) (some 9)).listClassVersions "Cart"
      = [(cartRow (some 8) (some 9)).toListed] :=
    congrArg (List.map ClassVersionRow.toListed) (List.mergeSort_singleton _)
  show (ClassLoader.lookupRecord ((cartRegistry (some 8) (some 9)).listClassVersions "Cart")
    "1.0.0").map _ = _
  rw [hlist]
  rfl

theorem cache_cartHeader :
    (cartServers cartSha).tables.manifestCache cartHeader = none := by decide

theorem row_cartHeader :
    (cartServers cartSha).tables.manifest (Hex.decode cartHeader) = some cartStored := by
  have hsha : Hex.decode cartHeader = Hex.decode cartSha := by decide
  rw [hsha]
  exact Function.update_self (Hex.decode cartSha) (some cartStored) (fun _ => none)

theorem loaded_cartStored : (PinAsk.pinned (some cartHeader) none).loaded cartConfig cartHeader
    1 10 (.inr (some cartStored)) = (.classifying cartStored [("Cart", "1.0.0")] ⟨[], []⟩,
      some ⟨cartHeader, some cartStored, 10⟩) := by
  show (pinClassify cartHeader cartStored (listed cartStored) ⟨[], []⟩, _) = _
  rw [listed_cartStored]
  rfl

/-- Another server has a request that is pinned to it, and the class is deprecated while the
hook is at its version. -/
def cartPinned : List PinAct :=
  [.classes 5 (.publishClass ⟨"Cart", "1.0.0", [], [], [], none, none, none⟩),
    .comes 1 (.pinned (some cartHeader) none), .runs 1 .answered 1 10, .runs 1 .answered 1 10,
    .runs 1 .answered 1 10, .classes 8 (.deprecateClassVersion "Cart" "1.0.0" (some 9)),
    .runs 1 .answered 1 11]

def pinnedRequest (now : ℤ) (stage : PinStage) : PinRequest :=
  ⟨1, .pinned (some cartHeader) none, 1, now, stage⟩

/-- The row is found, and the request is refused. -/
theorem run_cartPinned : ∃ s,
    TransitionSystem.run (step cartConfig) (cartServers cartSha) cartPinned = some s
      ∧ s.requests[1]? = some (pinnedRequest 10
        (.answered (pinVerdict cartHeader cartStored ⟨[], [("Cart", "1.0.0")]⟩)))
      ∧ s.recorded 1 = [⟨cartHeader, some cartStored, 10⟩] := by
  let t := (cartServers cartSha).tables
  have hsha : (PinAsk.pinned (some cartHeader) none).sha cartPlatform = some cartHeader := by
    decide
  have hget : t.loadManifest cartHeader .get = (t, .inl .select) := by
    unfold ManifestTables.loadManifest
    dsimp only
    rw [cache_cartHeader]
  have hselect : t.loadManifest cartHeader .select = (t, .inl (.fill cartStored)) := by
    unfold ManifestTables.loadManifest
    dsimp only
    rw [row_cartHeader]
  have hstage : (pinnedRequest 10 (.classifying cartStored [("Cart", "1.0.0")] ⟨[], []⟩)).stage
      = .classifying cartStored [("Cart", "1.0.0")] ⟨[], []⟩ := rfl
  let s₂ : PinServers :=
    { cartServers cartSha with
      registry := cartRegistry none none
      past := [.empty]
      requests := (cartServers cartSha).requests ++ [pinnedRequest 0 (.loading .get)] }
  let s₃ := s₂.apply 1 ⟨t, pinnedRequest 10 (.loading .select), none⟩
  let s₄ := s₃.apply 1 ⟨t, pinnedRequest 10 (.loading (.fill cartStored)), none⟩
  let s₅ := s₄.apply 1 ⟨t.cache cartHeader cartStored,
    pinnedRequest 10 (.classifying cartStored [("Cart", "1.0.0")] ⟨[], []⟩),
    some ⟨cartHeader, some cartStored, 10⟩⟩
  let s₆ : PinServers :=
    { s₅ with registry := cartRegistry (some 8) (some 9), past := [.empty, cartRegistry none none] }
  let s₇ := s₆.apply 1 ⟨s₆.tables, pinnedRequest 10
    (.answered (pinVerdict cartHeader cartStored ⟨[], [("Cart", "1.0.0")]⟩)), none⟩
  have h₂ : TransitionSystem.run (step cartConfig) (cartServers cartSha) (cartPinned.take 2)
      = some s₂ := rfl
  have h₃ : step cartConfig s₂ (.runs 1 .answered 1 10) = some s₃ :=
    step_of_move rfl hsha (PinRequest.move_loading rfl hget rfl)
  have h₄ : step cartConfig s₃ (.runs 1 .answered 1 10) = some s₄ :=
    step_of_move rfl hsha (PinRequest.move_loading rfl hselect rfl)
  have h₅ : step cartConfig s₄ (.runs 1 .answered 1 10) = some s₅ :=
    step_of_move rfl hsha (PinRequest.move_loading rfl rfl loaded_cartStored)
  have h₆ : step cartConfig s₅ (.classes 8 (.deprecateClassVersion "Cart" "1.0.0" (some 9)))
      = some s₆ := rfl
  have h₇ : step cartConfig s₆ (.runs 1 .answered 1 11) = some s₇ :=
    step_of_move rfl hsha (PinRequest.move_classifying hstage pinStatus_cart)
  refine ⟨s₇, ?_, rfl, rfl⟩
  rw [← List.take_append_drop 2 cartPinned, TransitionSystem.run_append, h₂, Option.bind_some]
  show TransitionSystem.run (step cartConfig) s₂ [_, _, _, _, _] = some s₇
  rw [TransitionSystem.run_cons, h₃, Option.bind_some, TransitionSystem.run_cons, h₄,
    Option.bind_some, TransitionSystem.run_cons, h₅, Option.bind_some, TransitionSystem.run_cons,
    h₆, Option.bind_some, TransitionSystem.run_cons, h₇]
  rfl

/-- The pin is honoured. -/
theorem pins_honoured_cart : ∃ s,
    TransitionSystem.run (step cartConfig) (cartServers cartSha) cartPinned = some s
      ∧ s.requests[1]? = some (pinnedRequest 10
        (.answered (pinVerdict cartHeader cartStored ⟨[], [("Cart", "1.0.0")]⟩)))
      ∧ Honoured cartPlatform (cartServers cartSha) s
      ∧ ∀ n r, s.requests[n]? = some r → Excused cartConfig (cartResolved ++ cartPinned) n r := by
  obtain ⟨s, hs, hreply, -⟩ := run_cartPinned
  exact ⟨s, hs, hreply,
    pins_honoured cartConfig injective_digest keeps_cartPlatform run_cartResolved hs⟩

/-! ## Pins are counted -/

/-- What is kept of each server's pins. -/
def Tracked (cfg : PinConfig) (s : PinServers) : Prop :=
  ∀ server, (s.trackers server).maxShas = cfg.maxShas
    ∧ (s.trackers server).Exact (s.recorded server)

/-- **A step keeps it.** -/
theorem Tracked.step (h : Tracked cfg s) {a : PinAct} (hs : s.step cfg a = some s') :
    Tracked cfg s' := by
  cases a with
  | comes server ask =>
    obtain rfl := Option.some.inj hs
    exact h
  | runs n ends draw now =>
    obtain ⟨r, sha, m, -, -, -, rfl⟩ := step_runs hs
    intro server
    show (update s.trackers m.request.server _ server).maxShas = _
      ∧ ManifestUsageTracker.Exact (update s.trackers m.request.server _ server)
        (update s.recorded m.request.server _ server)
    by_cases he : server = m.request.server
    · subst he
      rw [Function.update_self, Function.update_self]
      cases m.records with
      | none =>
        rw [Option.toList_none, List.append_nil]
        exact h _
      | some x => exact ⟨(ManifestUsageTracker.maxShas_record _ x).trans (h _).1, (h _).2.record x⟩
    · rw [Function.update_of_ne he, Function.update_of_ne he]
      exact h server
  | classes now op =>
    obtain rfl := Option.some.inj hs
    exact h
  | evicts sha =>
    obtain rfl := Option.some.inj hs
    exact h
  | restarts server =>
    obtain rfl := Option.some.inj hs
    intro server'
    show (update s.trackers server _ server').maxShas = _
      ∧ ManifestUsageTracker.Exact (update s.trackers server _ server')
        (update s.recorded server _ server')
    by_cases he : server' = server
    · subst he
      rw [Function.update_self, Function.update_self]
      exact ⟨rfl, .new cfg.maxShas⟩
    · rw [Function.update_of_ne he, Function.update_of_ne he]
      exact h server'

/-- **Pins are counted.** In every run, what a server reports of the manifests in use is exact
for the pins since it started: each of at most `maxShas` hashes with its own count, its last
time and its manifest, and all other pins together. -/
theorem pins_counted (cfg : PinConfig) {as : List PinAct} {s : PinServers}
    (hs : TransitionSystem.run (step cfg) (init cfg) as = some s) (server : ℕ) :
    (s.trackers server).Counts cfg.maxShas (s.recorded server) := by
  have h := TransitionSystem.run_invariant' (step cfg) (P := Tracked cfg)
    (fun _ _ _ h hs => h.step hs) (fun _ => ⟨rfl, .new cfg.maxShas⟩) hs server
  exact h.1 ▸ h.2.counts

/-- The pin of the cart is counted. -/
theorem pins_counted_cart : ∃ s,
    TransitionSystem.run (step cartConfig) (init cartConfig) (cartResolved ++ cartPinned) = some s
      ∧ s.recorded 1 = [⟨cartHeader, some cartStored, 10⟩]
      ∧ (s.trackers 1).Counts 128 (s.recorded 1) := by
  obtain ⟨s, hs, -, hrecorded⟩ := run_cartPinned
  have hrun : TransitionSystem.run (step cartConfig) (init cartConfig) (cartResolved ++ cartPinned)
      = some s := by
    rw [TransitionSystem.run_append, run_cartResolved, Option.bind_some, hs]
  exact ⟨s, hrun, hrecorded, pins_counted cartConfig hrun 1⟩

end PinServers
