import Actjs.ManifestSha

/-!
# The code generator

`run` loads the classes, extracts from the source of each what is emitted of it, and
writes three files – the declarations, the manifest and the reducers – and, last, the
cache, which says of which sources they were made. What the TypeScript compiler makes
of a text is a parameter.

Of its four files a run writes the first few, if the file system refuses the next.
-/

open OwnProperties

/-! ## Classes -/

structure CodegenInput where
  className : ClassName
  version : Version
  source : String

structure ExtractedHandler where
  name : String
  argsType : String
  returnType : String
  esEventReturn : Bool
deriving DecidableEq

/-- What `extractClass` reads of the syntax of a source. -/
structure ClassSyntax where
  eventSourced : Bool
  stateType : String
  eventType : String
  reduceBody : Option String
  reduceParams : Option (String × String)
  handlers : List ExtractedHandler
  warnings : List String

structure ExtractedClass where
  name : ClassName
  version : Version
  sourceSha256 : String
  eventSourced : Bool
  stateType : String
  eventType : String
  reduceBody : Option String
  reduceParams : Option (String × String)
  handlers : List ExtractedHandler
  warnings : List String
deriving DecidableEq

/-- The platform: `sha256` of a text, the syntax of a source that is in a file of the
class's name, the transpiled body of a `reduce` with the names of its parameters – if
the output has one – and the path of an output file. -/
structure CodegenPlatform where
  sha256 : String → String
  syntaxOf : ClassName → String → ClassSyntax
  transpileReduceBody : String × String → String → Option String
  path : String → String

/-- `extractClass`. -/
def extractClass (p : CodegenPlatform) (input : CodegenInput) : ExtractedClass :=
  let syn := p.syntaxOf input.className input.source
  { name := input.className
    version := input.version
    sourceSha256 := p.sha256 input.source
    eventSourced := syn.eventSourced
    stateType := syn.stateType
    eventType := if syn.eventSourced = true then syn.eventType else "never"
    reduceBody := syn.reduceBody
    reduceParams := syn.reduceParams
    handlers := syn.handlers
    warnings := syn.warnings }

/-! ## What is emitted

The three outputs as texts, line by line, each a function of the extracted
classes. -/

structure CodegenOutput where
  dts : String
  manifestJson : String
  runtimeJs : String
  manifestSha : String
  perClassSha : OrderedMap ClassName String

namespace Emit

/-- `lines.join('\n')`. -/
def joinLines (lines : List String) : String := String.intercalate "\n" lines

def header : String :=
  "// This file is generated by `actctl codegen`. Do not edit by hand.\n"
    ++ "// Re-run codegen after publishing a new class version.\n"

/-- A line of the interface of a class. -/
def handlerLine (c : ExtractedClass) (h : ExtractedHandler) : String :=
  let ret := if h.esEventReturn = true then c.name ++ "Event[]" else h.returnType
  "  " ++ h.name ++ "(args: " ++ h.argsType ++ "): Promise<" ++ ret ++ ">;"

/-- `blockForClass`. -/
def blockForClass (c : ExtractedClass) : String :=
  let headerLine := "// " ++ c.name ++ "@" ++ c.version ++ " (sha256: "
    ++ String.ofList (c.sourceSha256.toList.take 12) ++ "…)"
  let stateLine := "export type " ++ c.name ++ "State = " ++ c.stateType ++ ";"
  let eventLine :=
    if c.eventSourced = true then "export type " ++ c.name ++ "Event = " ++ c.eventType ++ ";\n"
    else ""
  let handlerLines :=
    if c.handlers = [] then ["  // (no @handler methods declared)"]
    else c.handlers.map (handlerLine c)
  let handlerBlock := "export interface " ++ c.name ++ "Handlers \x7b\n"
    ++ joinLines handlerLines ++ "\n\x7d"
  headerLine ++ "\n" ++ stateLine ++ "\n" ++ eventLine ++ handlerBlock ++ "\n"

/-- The lines of a class in `umbrellaBlock`. -/
def umbrellaLines (c : ExtractedClass) : List String :=
  let ev := if c.eventSourced = true then c.name ++ "Event" else "never"
  ["  " ++ c.name ++ ": \x7b",
    "    state: " ++ c.name ++ "State;",
    "    event: " ++ ev ++ ";",
    "    handlers: " ++ c.name ++ "Handlers;",
    "    eventSourced: " ++ (if c.eventSourced = true then "true" else "false") ++ ";",
    "  \x7d;"]

/-- `umbrellaBlock`. -/
def umbrellaBlock (classes : List ExtractedClass) : String :=
  joinLines (["export interface Classes \x7b"] ++ classes.flatMap umbrellaLines
    ++ ["\x7d", "", "export type ClassName = keyof Classes;"]) ++ "\n"

/-- `emitDts`. -/
def emitDts (classes : List ExtractedClass) (manifestSha : String) : String :=
  joinLines ([header, "/* eslint-disable */\n",
      "export const MANIFEST_SHA = '" ++ manifestSha ++ "' as const;\n"]
    ++ classes.map blockForClass ++ [umbrellaBlock classes])

/-- An object in `JSON.stringify(body, null, 2)`, whose values are written already. -/
def indented (indent : String) (fs : List (String × String)) : String :=
  if fs = [] then "\x7b\x7d"
  else "\x7b\n"
    ++ String.intercalate ",\n" (fs.map (fun f =>
      indent ++ "  " ++ String.ofList (JsonQuote.quote f.fst) ++ ": " ++ f.snd))
    ++ "\n" ++ indent ++ "\x7d"

/-- An object of strings in it. -/
def indentedStrings (indent : String) (fs : List (String × String)) : String :=
  indented indent (fs.map (fun f => (f.fst, String.ofList (JsonQuote.quote f.snd))))

/-- `emitManifestJson`. -/
def emitManifestJson (classes : List ExtractedClass) (manifestSha : String) : String :=
  let resolved := (classes.map (fun c => (c.name, c.version))).foldl assign .empty
  let sources := (classes.map (fun c => (c.name, c.sourceSha256))).foldl assign .empty
  indented ""
    [("sha256", String.ofList (JsonQuote.quote manifestSha)),
      ("resolved", indentedStrings "  " (listed resolved)),
      ("sources", indentedStrings "  " (listed sources))]

/-- The reducer of a class, if it has one; what cannot be transpiled throws. -/
def reducerLine (p : CodegenPlatform) (c : ExtractedClass) : Option (Option String) :=
  match c.eventSourced, c.reduceBody, c.reduceParams with
  | true, some body, some params =>
    if body = "" then some none
    else (p.transpileReduceBody params body).map
      (fun jsBody => some ("  " ++ c.name ++ ": " ++ jsBody ++ ","))
  | _, _, _ => some none

/-- `emitRuntimeJs`. -/
def emitRuntimeJs (p : CodegenPlatform) (classes : List ExtractedClass) : Option String :=
  (classes.mapM (reducerLine p)).map (fun reducers =>
    joinLines (["// This file is generated by `actctl codegen`. Do not edit by hand.",
        "// ES reducer runtime — kept byte-identical to the server's reduce().",
        "",
        "export const reducers = Object.freeze(\x7b"]
      ++ reducers.filterMap id
      ++ ["\x7d);",
        "",
        "export function applyEvent(className, state, event) \x7b",
        "  const r = reducers[className];",
        "  if (!r) throw new Error(`no reducer for $\x7bclassName\x7d`);",
        "  return r(state, event);",
        "\x7d",
        ""]))

/-- The classes, sorted by name. -/
def sortClasses (classes : List ExtractedClass) : List ExtractedClass :=
  classes.mergeSort (fun a b => stringLe a.name b.name)

/-- What is emitted of classes that are sorted. -/
def ofSorted (p : CodegenPlatform) (sorted : List ExtractedClass) : Option CodegenOutput :=
  let manifestSha := manifestSha256 p.sha256
    (manifestFromEntries (sorted.map (fun c => (c.name, c.version))))
  (emitRuntimeJs p sorted).map (fun runtimeJs =>
    { dts := emitDts sorted manifestSha
      manifestJson := emitManifestJson sorted manifestSha
      runtimeJs := runtimeJs
      manifestSha := manifestSha
      perClassSha := .ofEntries (sorted.map (fun c => (c.name, c.sourceSha256))) })

end Emit

/-- **`emit`.** -/
def emit (p : CodegenPlatform) (classes : List ExtractedClass) : Option CodegenOutput :=
  Emit.ofSorted p (Emit.sortClasses classes)

/-! ## What a diff says -/

namespace UnifiedDiff

/-- The length of a longest common subsequence: the table `dp`. -/
def lcsLength : List String → List String → ℕ
  | [], _ => 0
  | _ :: _, [] => 0
  | a :: as, b :: bs =>
    if a = b then lcsLength as bs + 1
    else max (lcsLength as (b :: bs)) (lcsLength (a :: as) bs)
termination_by as bs => as.length + bs.length

/-- `lcsDiff`, with the mark of each line. -/
def lcsDiff : List String → List String → List String
  | [], bs => bs.map (fun b => "+" ++ b)
  | a :: as, [] => (a :: as).map (fun a => "-" ++ a)
  | a :: as, b :: bs =>
    if a = b then (" " ++ a) :: lcsDiff as bs
    else if lcsLength (a :: as) bs ≤ lcsLength as (b :: bs) then
      ("-" ++ a) :: lcsDiff as (b :: bs)
    else ("+" ++ b) :: lcsDiff (a :: as) bs
termination_by as bs => as.length + bs.length

end UnifiedDiff

/-- `unifiedDiff`. -/
def unifiedDiff (oldText newText oldName newName : String) : String :=
  if oldText = newText then ""
  else Emit.joinLines (["--- " ++ oldName, "+++ " ++ newName]
    ++ UnifiedDiff.lcsDiff (oldText.splitOn "\n") (newText.splitOn "\n"))

/-! ## A run

The hash of the sources decides whether anything is done. Then each file is
written, one after the other, and any of the writes may fail. -/

/-- What the cache says: `CacheState`, of this schema. -/
structure CacheState where
  manifestSha : String
  classes : OrderedMap ClassName String

/-- The directory: the three outputs, and the cache. -/
structure CodegenDir where
  dts : Option String
  manifestJson : Option String
  runtimeJs : Option String
  cache : Option CacheState

/-- What a run is told: the classes that the source gives, if it gives them. -/
structure CodegenOptions where
  inputs : Option (List CodegenInput)
  force : Bool
  check : Bool

inductive CodegenStatus where
  | wrote
  | skipped
  | checkClean
  | checkDrift
deriving DecidableEq

/-- `RunResult`. -/
structure CodegenResult where
  status : CodegenStatus
  manifestSha : String
  classes : List ExtractedClass
  diff : Option String
  warnings : List String

namespace Codegen

variable (p : CodegenPlatform)

def emptyDir : CodegenDir := ⟨none, none, none, none⟩

/-- `hashInputs`. -/
def hashInputs (inputs : List CodegenInput) : OrderedMap ClassName String :=
  (inputs.map (fun i => (i.className, p.sha256 i.source))).foldl assign .empty

/-- `shallowEqual`, of objects whose values are strings: what `b` inherits is none. -/
def shallowEqual (a b : OrderedMap ClassName String) : Bool :=
  a.entries.length == b.entries.length
    && a.entries.all (fun e => b.get e.fst == some e.snd)

/-- `outputFilesExist`. -/
def outputFilesExist (d : CodegenDir) : Bool :=
  d.dts.isSome && d.manifestJson.isSome && d.runtimeJs.isSome

/-- What the cache says, if it is of these inputs and the outputs are there. -/
def fresh (d : CodegenDir) (inputs : List CodegenInput) : Option CacheState :=
  d.cache.filter
    (fun cached => shallowEqual cached.classes (hashInputs p inputs) && outputFilesExist d)

/-- What is written to the files. -/
def contents (result : CodegenOutput) : CodegenDir where
  dts := some result.dts
  manifestJson := some (result.manifestJson ++ "\n")
  runtimeJs := some result.runtimeJs
  cache := some ⟨result.manifestSha, result.perClassSha⟩

/-- `writeOutputs` and `cache.write`, of which the first `n` writes are done. -/
def write (d new : CodegenDir) (n : ℕ) : CodegenDir where
  dts := if 0 < n then new.dts else d.dts
  manifestJson := if 1 < n then new.manifestJson else d.manifestJson
  runtimeJs := if 2 < n then new.runtimeJs else d.runtimeJs
  cache := if 3 < n then new.cache else d.cache

/-- `computeDrift`. -/
def computeDrift (d : CodegenDir) (result : CodegenOutput) : Option String :=
  let targets :=
    [(p.path "index.d.ts", d.dts, result.dts),
      (p.path "manifest.json", d.manifestJson, result.manifestJson ++ "\n"),
      (p.path "index.runtime.js", d.runtimeJs, result.runtimeJs)]
  let diffs := targets.filterMap (fun (path, committed, expected) =>
    if committed.getD "" = expected then none
    else some (unifiedDiff (committed.getD "") expected ("committed " ++ path) "generated"))
  if diffs = [] then none else some (Emit.joinLines diffs)

/-- The warnings about the classes. -/
def warningsOf (classes : List ExtractedClass) : List String :=
  classes.flatMap (fun c => c.warnings.map (fun w => c.name ++ ": " ++ w))

/-- `run`, of inputs that are loaded and not skipped. -/
def generate (d : CodegenDir) (check : Bool) (inputs : List CodegenInput) (n : ℕ) :
    Option CodegenResult × CodegenDir :=
  let classes := inputs.map (extractClass p)
  match emit p classes with
  | none => (none, d)
  | some result =>
    if check = true then
      let drift := computeDrift p d result
      let status := if drift.isNone = true then .checkClean else .checkDrift
      (some ⟨status, result.manifestSha, classes, drift, warningsOf classes⟩, d)
    else
      (if n < 4 then none
        else some ⟨.wrote, result.manifestSha, classes, none, warningsOf classes⟩,
        write d (contents result) n)

/-- **`run`**: what it returns, unless it throws, and what it leaves in the directory.
It throws where the source does, where a reducer cannot be transpiled, and where not
all of the four files are written. -/
def run (d : CodegenDir) (o : CodegenOptions) (n : ℕ) : Option CodegenResult × CodegenDir :=
  match o.inputs with
  | none => (none, d)
  | some inputs =>
    if o.check = true ∨ o.force = true then generate p d o.check inputs n
    else
      match fresh p d inputs with
      | some cached => (some ⟨.skipped, cached.manifestSha, [], none, []⟩, d)
      | none => generate p d o.check inputs n

end Codegen
