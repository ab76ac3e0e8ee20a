import ConfidentialPolicy.EnvRule.Injected
import ConfidentialPolicy.Mount
import ConfidentialPolicy.Options

namespace ConfidentialPolicy

structure ExecProcess where
  command : List String
  signals : List Int
  stdio : Bool
deriving DecidableEq, Repr

namespace ExecProcess

/-- Reads a process; `stdio` holds where the description does not say. -/
def ofJson (raw : Json) (stdio : Bool) : Checked ExecProcess := do
  let path := "containers][execProcesses"
  let fields ← Fields.ofJson raw path
  match ← fields.strings "command" (path ++ "][command") with
  | none => .error (.field (path ++ "][command") .notStrings)
  | some command =>
    let signals ← fields.ints "signals" (path ++ "][signals")
    let own ← fields.bool "allowStdioAccess" (path ++ "][allowStdioAccess")
    pure ⟨command, signals.getD [], own.getD stdio⟩

def shell : ExecProcess := ⟨["/bin/sh"], [], true⟩

def toJson (p : ExecProcess) : Json :=
  .object [("allow_stdio_access", .bool p.stdio), ("command", .ofStrings p.command),
    ("signals", .arr (p.signals.map .ofInt))]

end ExecProcess

/-- Whether rules are injected into a container, and which. -/
inductive ContainerKind where
  | plain
  | user (extraRules : List EnvRule)
deriving DecidableEq, Repr

namespace ContainerKind

def ofRole (role : Role) (isSidecar : Bool) : ContainerKind :=
  if isSidecar then .plain else match role with
    | .plain => .plain
    | .user => .user EnvRule.injectedUser
    | .virtualNode _ workloadIdentity =>
      .user (EnvRule.injectedVirtualNode ++
        if workloadIdentity then EnvRule.injectedWorkloadIdentity else [])

def isUser : ContainerKind → Bool
  | .plain => false
  | .user _ => true

def extraRules : ContainerKind → List EnvRule
  | .plain => []
  | .user rules => rules

end ContainerKind

structure Container where
  id : String
  image : String
  command : List String
  workingDir : String
  envRules : List EnvRule
  mounts : List Mount
  elevated : Bool
  stdio : Bool
  execProcesses : List ExecProcess
  signals : List Int
  layers : List String
  kind : ContainerKind
deriving DecidableEq, Repr

namespace Container

def imageOf (fields : Fields) : Checked String :=
  let path := "containers][containerImage"
  match fields.getAny? ["containerImage", "image"] with
  | none => .error (.field path .missing)
  | some (.str s) => if s = "" then .error (.field path .missing) else .ok s
  | some _ => .error (.field path .notString)

def envRulesOf (fields : Fields) : Checked (List EnvRule) := do
  let path := "containers][environmentVariables"
  match ← fields.list "environmentVariables" path with
  | none => .error (.field path .nullOrMissing)
  | some raw => EnvRule.listOfJson raw path

def commandOf (fields : Fields) : Checked (List String) :=
  match fields.strings "command" "containers][command" with
  | .ok command => .ok (command.getD [])
  | .error _ => .error (.field "containers][command" .notCommand)

def workingDirOf (fields : Fields) : Checked String := do
  let path := "containers][workingDir"
  let dir := (← fields.string "workingDir" path).getD ""
  if dir = "" then pure "/"
  else if dir.toList.head? = some '/' then pure dir
  else .error (.field path (.notAbsolute dir))

def mountsOf (fields : Fields) : Checked (List MountSpec) := do
  let path := "containers][mounts"
  ((← fields.list "mounts" path).getD []).mapM (MountSpec.ofJson · path)

def execProcessesOf (fields : Fields) (stdio : Bool) : Checked (List ExecProcess) := do
  ((← fields.list "execProcesses" "containers][execProcesses").getD []).mapM
    (ExecProcess.ofJson · stdio)

/-- Builds a container from its description; the first field that is wrong stops it. -/
def ofSpec (raw : Json) (role : Role) (options : Options) : Checked Container := do
  let fields ← Fields.ofJson raw "containers"
  let image ← imageOf fields
  let isSidecar := options.sidecars.isSidecar image
  let id ← fields.string "id" "containers][id"
  let envRules ← envRulesOf fields
  let command ← commandOf fields
  let workingDir ← workingDirOf fields
  let mounts ← mountsOf fields
  let elevated ← fields.bool "allowElevated" "containers][allowElevated"
  let execProcesses ← execProcessesOf fields (isSidecar || options.debugMode)
  let signals ← fields.ints "signals" "containers][signals"
  let stdio ← fields.bool "allowStdioAccess" "containers][allowStdioAccess"
  let kind := ContainerKind.ofRole role isSidecar
  let debugProcesses := if options.debugMode && kind.isUser then [ExecProcess.shell] else []
  pure
    { id := id.getD image
      image
      command
      workingDir
      envRules
      mounts := buildMounts mounts role isSidecar
      elevated := elevated.getD true
      stdio := stdio.getD true
      execProcesses := execProcesses ++ debugProcesses
      signals := signals.getD []
      layers := []
      kind }

def base (c : Container) : String := imageBase c.image

def effectiveEnvRules (c : Container) : List EnvRule := EnvRule.merge c.envRules c.kind.extraRules

def members (c : Container) : List (String × Json) :=
  [("allow_elevated", .bool c.elevated),
    ("allow_stdio_access", .bool c.stdio),
    ("command", .ofStrings c.command),
    ("env_rules", .arr (c.effectiveEnvRules.map EnvRule.toJson)),
    ("exec_processes", .arr (c.execProcesses.map ExecProcess.toJson)),
    ("id", .str c.id),
    ("layers", .ofStrings c.layers)] ++
  (if c.mounts = [] then [] else [("mounts", .arr (c.mounts.map Mount.toJson))]) ++
  [("signals", .arr (c.signals.map .ofInt)),
    ("working_dir", .str c.workingDir)]

def record (c : Container) (omitId : Bool) : Json :=
  .obj (if omitId then KeyMap.erase c.members "id" else c.members)

def images (cs : List Container) : List String := (cs.map (·.image)).eraseDups

def withLayers (c : Container) (layers : List String) : Container := { c with layers }

end Container

inductive ContainerEdit where
  | command (command : List String)
  | workingDir (dir : String)
  | layers (layers : List String)
deriving DecidableEq, Repr

def Container.edit (c : Container) : ContainerEdit → Container
  | .command command => { c with command }
  | .workingDir workingDir => { c with workingDir }
  | .layers layers => c.withLayers layers

def recordId? (record : Json) : Option String := (record.get? "id").bind Json.str?

end ConfidentialPolicy
