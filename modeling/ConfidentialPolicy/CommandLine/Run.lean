import ConfidentialPolicy.CommandLine.Layout
import ConfidentialPolicy.CommandLine.Setup
import ConfidentialPolicy.Drift
import ConfidentialPolicy.SidecarCheck
import ConfidentialPolicy.Template

namespace ConfidentialPolicy.CommandLine

open Layout

def injectionReport (path : String) (resolution : Option Resolution) : Lines :=
  ((resolution.map (·.decisions)).getD []).flatMap decision ++
    success ("policy written into " ++ path)

def generate (s : Setup) (files : Files) (r : GenerateRequest) : Attempt Plan := do
  if r.template.isSome ∧ r.format ≠ .encoded then .error .rawIntoTemplate else
  let input ← readInput files r.input
  let compilation ← .ofChecked ((s.compiler files r.infrastructureSvn).compile input)
  let policy := compilation.document.serialize r.format r.omitId
  match r.template, r.saveTo with
  | some path, _ => do
    let template ← readTemplate files path
    let updated ← .ofChecked (Template.inject template r.group policy)
    pure (.save path updated.pretty (injectionReport path compilation.resolution).text)
  | none, some path => pure (.save path policy "")
  | none, none => pure (.report (Lines.text [policy]) .clean)

def FragmentRequest.path (r : FragmentRequest) : String := r.saveTo.getD (r.package ++ ".rego")

def SigningOptions.toPublish (o : SigningOptions) (fragmentPath : String) : PublishRequest :=
  ⟨fragmentPath, o.key, o.chain, o.feed, o.algorithm, o.push⟩

def signFragment (s : Setup) (r : FragmentRequest) : Attempt (Option String) :=
  match r.signing with
  | none => .ok none
  | some o =>
    (Attempt.ofChecked (publish s.signer (some s.registry) (o.toPublish r.path)).result).map some

def fragmentJson (path : String) (signed : Option String) (containers : Nat) : Json :=
  .object [("containers", .ofNat containers), ("fragment", .str path),
    ("signed", (signed.map Json.str).getD .null)]

def fragmentTable (r : FragmentRequest) (signed : Option String) (containers : Nat) : Lines :=
  header "Fragment" ++ entry "Namespace" r.package ++ entry "SVN" (svnText r.svn) ++
  entry "Containers" (Text.decimal containers) ++ entry "File" r.path ++
  (signed.map (entry "Signed")).getD [] ++
  match r.signing with
  | none => hint "pass --key, --chain and --feed to sign the fragment"
  | some o => if o.push then success "fragment pushed" else []

def fragmentReport (s : Setup) (r : FragmentRequest) (signed : Option String) (containers : Nat) :
    String :=
  Lines.text (match s.reports with
    | .json => [(fragmentJson r.path signed containers).pretty]
    | .table => fragmentTable r signed containers)

def fragment (s : Setup) (files : Files) (r : FragmentRequest) : Attempt Plan := do
  let input ← readInput files r.input
  let document ← .ofChecked ((s.compiler files none).compileFragment input).result
  let text ← .ofChecked (document.fragmentText r.package r.svn r.omitId)
  pure
    { write := some (r.path, text)
      answer := (signFragment s r).map fun signed ↦
        ⟨fragmentReport s r signed document.containers.length, .clean⟩ }

def listItems? : Json → Option (List Json)
  | .arr vs => some vs
  | .obj ms => some (((KeyMap.get? ms "fragments").bind Json.items?).getD [])
  | _ => none

/-- The imports that a file lists; a file that is not there lists none. -/
def readImports (files : Files) (path : String) : Attempt (List FragmentImport) :=
  if files.contains path then do
    match listItems? (← readTemplate files path) with
    | some vs => .ofChecked (FragmentImport.listOfJson vs)
    | none => .error (.noImportList path)
  else .ok []

/-- Adds an import at the end of a list, in place of those for its feed. -/
def addImport (imports : List FragmentImport) (i : FragmentImport) : List FragmentImport :=
  imports.filter (·.feed ≠ i.feed) ++ [i]

def importOf (s : Setup) (files : Files) (r : ImportRequest) : Attempt Plan := do
  let text ← readText files r.fragment
  let i ← .ofChecked (generateImport s.signer text r.feed r.chain r.minimumSvn).result
  match r.listFile with
  | none => pure (.report (Lines.text [i.toJsonDeclared.text .pretty]) .clean)
  | some path => do
    let imports := addImport (← readImports files path) i
    pure (.save path ((Json.arr (imports.map FragmentImport.toJsonDeclared)).text .pretty)
      (Lines.text (success ("import for " ++ i.feed ++ " saved to " ++ path))))

def verdictOf (isFine : Bool) : Verdict := if isFine then .clean else .findings

def violationLines (field : String × List String) : Lines :=
  field.2.flatMap fun reason ↦ failure ("[" ++ field.1 ++ "] " ++ reason)

def sidecarTable (report : SidecarReport) : Lines :=
  header "Sidecar Validation" ++
  if report.isValid then success "all sidecars match their baseline policy"
  else report.violations.flatMap (fun c ↦ heading c.1 ++ c.2.flatMap violationLines) ++ [""] ++
    hint "sidecar environment rules must match the baseline exactly or by regex"

def sidecarText (s : Setup) (r : CheckRequest) (report : SidecarReport) : String :=
  Lines.text (match s.reports with
    | .json => [report.toJson.text r.style]
    | .table => sidecarTable report)

def checkSidecars (s : Setup) (files : Files) (r : CheckRequest) : Attempt Plan := do
  let input ← readInput files r.input
  let document ← .ofChecked ((s.compiler files none).compileUnresolved input).result
  let report ← .ofChecked (SidecarReport.check document s.options.sidecars)
  pure (.report (sidecarText s r report) (verdictOf report.isValid))

def driftJson (report : DriftReport) (fragments : Json) : Json :=
  .object [("diff", .obj report.diff), ("fragments", fragments),
    ("is_equal", .bool report.isEqual)]

def driftTable (report : DriftReport) (fragments : Json) : Lines :=
  header "Policy Drift" ++
  (if report.isEqual then success "deployed containers match the regenerated policy"
    else report.diff.flatMap fun c ↦ heading c.1 ++ [c.2.pretty]) ++
  if fragments = .obj [] then []
  else heading "fragments" ++
    warning "fragment imports differ, this may be intended customization" ++ [fragments.pretty]

def driftText (s : Setup) (r : DriftRequest) (report : DriftReport) (fragments : Json) : String :=
  Lines.text (match s.reports with
    | .json => [(driftJson report fragments).render r.style]
    | .table => driftTable report fragments)

/-- Compares a deployed policy with a regenerated one; only differing containers are findings. -/
def compareDrift (s : Setup) (files : Files) (r : DriftRequest) : Attempt Plan := do
  let input ← readInput files r.input
  let compiler := s.compiler files none
  let compilation ← .ofChecked (compiler.compile input)
  let imports := compiler.importsFor input
  let template ← readTemplate files r.template
  let policies ← .ofChecked (Template.policies template imports)
  match policies[r.group]? with
  | none => .error (.noGroupAt r.group)
  | some policy =>
    let report := DriftReport.compare policy.containers (compilation.document.records false)
    let fragments := DriftReport.compareFragments policy.fragments imports
    pure (.report (driftText s r report fragments) (verdictOf report.isEqual))

def planFor (s : Setup) (files : Files) : Action → Attempt Plan
  | .generate r => generate s files r
  | .fragment r => fragment s files r
  | .importOf r => importOf s files r
  | .checkSidecars r => checkSidecars s files r
  | .compareDrift r => compareDrift s files r

def Request.plan (r : Request) (tools : Tools) (files : Files) : Attempt Plan := do
  let s ← Setup.load tools files r.settings
  planFor s files r.action

def plan (tools : Tools) (env : Environment) (files : Files) (words : List String) :
    Attempt Plan :=
  match Request.ofWords? env words with
  | some r => r.plan tools files
  | none => .error .usage

def run (tools : Tools) (env : Environment) (files : Files) (words : List String)
    (obstacles : Obstacles := .none) : Finished :=
  (plan tools env files words).commit files obstacles

end ConfidentialPolicy.CommandLine
