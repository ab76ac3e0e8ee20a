import ConfidentialPolicy.CommandLine.Words
import ConfidentialPolicy.Document

namespace ConfidentialPolicy.CommandLine

abbrev Environment := KeyMap String

inductive ReportStyle where
  | table
  | json
deriving DecidableEq, Repr

structure Settings where
  debugMode : Bool
  sidecars : Option String
  layers : Option String
  fragmentIndex : Option String
  signProgram : String
  pushProgram : String
  reports : ReportStyle
deriving DecidableEq, Repr

structure GenerateRequest where
  input : String
  format : OutputFormat
  omitId : Bool
  infrastructureSvn : Option UInt64
  saveTo : Option String
  template : Option String
  group : Nat
deriving DecidableEq, Repr

structure SigningOptions where
  key : String
  chain : String
  feed : String
  algorithm : String
  push : Bool
deriving DecidableEq, Repr

structure FragmentRequest where
  input : String
  package : String
  svn : UInt64
  omitId : Bool
  saveTo : Option String
  signing : Option SigningOptions
deriving DecidableEq, Repr

structure ImportRequest where
  fragment : String
  feed : String
  chain : String
  minimumSvn : Option UInt64
  listFile : Option String
deriving DecidableEq, Repr

structure CheckRequest where
  input : String
  style : Json.Style
deriving DecidableEq, Repr

structure DriftRequest where
  input : String
  template : String
  group : Nat
  style : Json.Style
deriving DecidableEq, Repr

inductive Action where
  | generate (r : GenerateRequest)
  | fragment (r : FragmentRequest)
  | importOf (r : ImportRequest)
  | checkSidecars (r : CheckRequest)
  | compareDrift (r : DriftRequest)
deriving DecidableEq, Repr

structure Request where
  settings : Settings
  action : Action
deriving DecidableEq, Repr

def Action.paths : Action → List String
  | .generate r => [r.input] ++ r.saveTo.toList ++ r.template.toList
  | .fragment r => [r.input] ++ r.saveTo.toList
  | .importOf r => [r.fragment] ++ r.listFile.toList
  | .checkSidecars r => [r.input]
  | .compareDrift r => [r.input, r.template]

def Request.paths (r : Request) : List String :=
  r.settings.sidecars.toList ++ r.settings.layers.toList ++ r.settings.fragmentIndex.toList ++
    r.action.paths

def path? (s : String) : Option String := if s = "" then none else some s

def number? (s : String) : Option UInt64 := Text.wordOf? s.toList

def bool? (s : String) : Option Bool :=
  if s = "true" then some true else if s = "false" then some false else none

def reportStyle? (s : String) : Option ReportStyle :=
  if s = "table" then some .table else if s = "json" then some .json else none

namespace Settings

def rules : List OptionRule := [
  { name := "debug-mode", takesValue := false },
  { name := "sidecars" },
  { name := "layers" },
  { name := "fragment-store" },
  { name := "sign-tool" },
  { name := "oras" },
  { name := "output" }]

def variableOf (name : String) : String :=
  "CCEPOLICY_" ++ String.ofList (name.toList.map fun c ↦ if c = '-' then '_' else c.toUpper)

def variableNames : List String :=
  ["debug-mode", "sidecars", "layers", "fragment-store", "sign-tool", "oras"].map variableOf

/-- A path from the command line, or else from the environment. -/
def path (env : Environment) (g : Given) (name : String) : Option (Option String) :=
  match (g.value? name).or (KeyMap.get? env (variableOf name)) with
  | none => some none
  | some s => (path? s).map some

def debug (env : Environment) (g : Given) : Option Bool :=
  if g.has "debug-mode" then some true
  else match KeyMap.get? env (variableOf "debug-mode") with
    | none => some false
    | some s => bool? s

def ofGiven? (env : Environment) (g : Given) : Option Settings := do
  let debugMode ← debug env g
  let sidecars ← path env g "sidecars"
  let layers ← path env g "layers"
  let fragmentIndex ← path env g "fragment-store"
  let signProgram ← path env g "sign-tool"
  let pushProgram ← path env g "oras"
  let reports ← g.optional "output" reportStyle?
  some
    { debugMode, sidecars, layers, fragmentIndex
      signProgram := signProgram.getD "sign1util"
      pushProgram := pushProgram.getD "oras"
      reports := reports.getD .table }

end Settings

def inputRule : OptionRule := { name := "input", letter := some 'i' }

namespace GenerateRequest

def rules : List OptionRule := [
  inputRule,
  { name := "outraw", takesValue := false },
  { name := "outraw-pretty-print", takesValue := false },
  { name := "omit-id", takesValue := false },
  { name := "infrastructure-svn" },
  { name := "save-to-file" },
  { name := "template" },
  { name := "inject", takesValue := false },
  { name := "group" }]

def format? (g : Given) : Option OutputFormat :=
  match g.has "outraw", g.has "outraw-pretty-print" with
  | true, true => none
  | true, false => some .raw
  | false, true => some .prettyPrint
  | false, false => some .encoded

/-- A template is named exactly if the policy is to be written into it. -/
def ofGiven? (g : Given) : Option GenerateRequest := do
  let input ← g.required "input" path?
  let format ← format? g
  let infrastructureSvn ← g.optional "infrastructure-svn" number?
  let saveTo ← g.optional "save-to-file" path?
  let template ← g.optional "template" path?
  let group ← g.optional "group" number?
  if g.has "inject" = template.isSome then
    some { input, format, omitId := g.has "omit-id", infrastructureSvn, saveTo, template,
           group := (group.getD 0).toNat }
  else none

end GenerateRequest

namespace FragmentRequest

def rules : List OptionRule := [
  inputRule,
  { name := "namespace" },
  { name := "svn" },
  { name := "omit-id", takesValue := false },
  { name := "out" },
  { name := "key" },
  { name := "chain" },
  { name := "feed" },
  { name := "algorithm" },
  { name := "push", takesValue := false }]

/-- Key, chain and feed are given together, and only what is signed can be pushed. -/
def signing? (g : Given) : Option (Option SigningOptions) := do
  let key ← g.optional "key" path?
  let chain ← g.optional "chain" path?
  match key, chain, g.value? "feed" with
  | some key, some chain, some feed =>
    some (some ⟨key, chain, feed, (g.value? "algorithm").getD "ES384", g.has "push"⟩)
  | none, none, none => if g.has "push" then none else some none
  | _, _, _ => none

def ofGiven? (g : Given) : Option FragmentRequest := do
  let input ← g.required "input" path?
  let package ← g.required "namespace" some
  let svn ← g.required "svn" number?
  let saveTo ← g.optional "out" path?
  let signing ← signing? g
  some { input, package, svn, omitId := g.has "omit-id", saveTo, signing }

end FragmentRequest

namespace ImportRequest

def rules : List OptionRule := [
  { name := "fragment" },
  { name := "feed" },
  { name := "chain" },
  { name := "minimum-svn" },
  { name := "fragments-json" }]

def ofGiven? (g : Given) : Option ImportRequest := do
  let fragment ← g.required "fragment" path?
  let feed ← g.required "feed" some
  let chain ← g.required "chain" path?
  let minimumSvn ← g.optional "minimum-svn" number?
  let listFile ← g.optional "fragments-json" path?
  some { fragment, feed, chain, minimumSvn, listFile }

end ImportRequest

def styleOf (g : Given) : Json.Style := if g.has "pretty" then .pretty else .compact

def CheckRequest.rules : List OptionRule := [inputRule, { name := "pretty", takesValue := false }]

def CheckRequest.ofGiven? (g : Given) : Option CheckRequest := do
  some ⟨← g.required "input" path?, styleOf g⟩

namespace DriftRequest

def rules : List OptionRule := [
  inputRule,
  { name := "existing" },
  { name := "group" },
  { name := "pretty", takesValue := false }]

def ofGiven? (g : Given) : Option DriftRequest := do
  let input ← g.required "input" path?
  let template ← g.required "existing" path?
  let group ← g.optional "group" number?
  some { input, template, group := (group.getD 0).toNat, style := styleOf g }

end DriftRequest

structure CommandRule where
  name : String
  rules : List OptionRule
  action? : Given → Option Action

def commands : List CommandRule := [
  ⟨"generate", GenerateRequest.rules, fun g ↦ (GenerateRequest.ofGiven? g).map .generate⟩,
  ⟨"fragment", FragmentRequest.rules, fun g ↦ (FragmentRequest.ofGiven? g).map .fragment⟩,
  ⟨"import", ImportRequest.rules, fun g ↦ (ImportRequest.ofGiven? g).map .importOf⟩,
  ⟨"validate-sidecar", CheckRequest.rules,
    fun g ↦ (CheckRequest.ofGiven? g).map .checkSidecars⟩,
  ⟨"diff", DriftRequest.rules, fun g ↦ (DriftRequest.ofGiven? g).map .compareDrift⟩]

def CommandRule.read? (c : CommandRule) (words : List String) : Option Action :=
  match Given.read? c.rules words with
  | some (g, []) => if g.Distinct then c.action? g else none
  | _ => none

def Request.ofWords? (env : Environment) (words : List String) : Option Request :=
  match Given.read? Settings.rules words with
  | some (g, name :: rest) => do
    let settings ← if g.Distinct then Settings.ofGiven? env g else none
    let command ← commands.find? (·.name == name)
    let action ← command.read? rest
    some ⟨settings, action⟩
  | _ => none

end ConfidentialPolicy.CommandLine
