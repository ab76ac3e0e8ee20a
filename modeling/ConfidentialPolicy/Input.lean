import ConfidentialPolicy.Container
import ConfidentialPolicy.Fragment.Import

namespace ConfidentialPolicy

structure ContainerInput where
  name : Option String
  raw : Json
  role : Role
deriving DecidableEq, Repr

structure PolicyInput where
  version : Option String
  containers : List ContainerInput
  fragments : Option (List FragmentImport)
deriving DecidableEq, Repr

namespace PolicyInput

/-- A variable: an explicit strategy counts more than the flag for regular expressions. -/
def environmentVariable (v : Json) : Checked Json := do
  let path := "environmentVariables"
  let fields ← Fields.ofJson v path
  let strategy ← match ← fields.string "strategy" (path ++ "][strategy") with
    | some strategy => pure strategy
    | none => do
      let regex ← fields.bool "regex" (path ++ "][regex")
      pure (if regex.getD false then "re2" else "string")
  let required ← fields.bool "required" (path ++ "][required")
  pure (.object [("name", (fields.get? "name").getD .null),
    ("required", .bool (required.getD false)),
    ("strategy", .str strategy),
    ("value", (fields.get? "value").getD .null)])

def present (ms : List (String × Option Json)) : List (String × Json) :=
  ms.filterMap fun m ↦ m.2.map (m.1, ·)

def mount (v : Json) : Checked Json := do
  let fields ← Fields.ofJson v "volumeMounts"
  pure (.object (present [
    ("type", fields.getAny? ["mountType", "type"]),
    ("path", fields.getAny? ["mountPath", "path"]),
    ("readonly", fields.get? "readonly"),
    ("options", fields.get? "options")]))

def security (properties : Fields) : Checked (Bool × Option Bool) := do
  match ← properties.object "securityContext" "securityContext" with
  | none => pure (false, none)
  | some context =>
    let privileged ← context.bool "privileged" "securityContext][privileged"
    let key := "allowPrivilegeEscalation"
    let escalation ← context.bool key ("securityContext][" ++ key)
    pure (privileged.getD false, escalation)

def copied : List String :=
  ["command", "workingDir", "execProcesses", "signals", "allowStdioAccess"]

def container (virtualNode : Bool) (v : Json) : Checked ContainerInput := do
  let fields ← Fields.ofJson v "containers"
  let name ← fields.string "name" "containers][name"
  match ← fields.object "properties" "containers][properties" with
  | none => .error (.field "containers][properties" .missing)
  | some properties =>
    let image := properties.get? "image"
    let id := if image.isSome then properties.get? "id" else none
    let environment ← properties.list "environmentVariables" "environmentVariables"
    let environment ← (environment.getD []).mapM environmentVariable
    let mounts ← properties.list "volumeMounts" "volumeMounts"
    let mounts ← mounts.mapM fun ms ↦ ms.mapM mount
    let (privileged, escalation) ← security properties
    let workloadIdentity ← properties.bool "workloadIdentity" "workloadIdentity"
    let elevated := if escalation = some false ∧ !privileged then some (.bool false) else none
    pure
      { name
        raw := .object (present ([
          ("containerImage", image),
          ("id", id),
          ("environmentVariables", some (.arr environment))] ++
          copied.map (fun key ↦ (key, properties.get? key)) ++ [
          ("mounts", mounts.map .arr),
          ("allowElevated", elevated)]))
        role :=
          if virtualNode then .virtualNode privileged (workloadIdentity.getD false) else .user }

def isVirtualNode (scenario : Option String) : Bool := scenario.any (Text.sameLetters · "vn2")

def ofJson (v : Json) : Checked PolicyInput := do
  let root ← Fields.ofJson v "input"
  let version := (root.get? "version").map EnvRule.scalarText
  let scenario ← root.string "scenario" "scenario"
  match ← root.list "containers" "containers" with
  | none => .error (.field "containers" .missing)
  | some items =>
    let containers ← items.mapM (container (isVirtualNode scenario))
    let fragments ← root.list "fragments" "fragments"
    let fragments ← fragments.mapM FragmentImport.listOfJson
    pure { version, containers, fragments }

def ofText (text : String) : Checked PolicyInput :=
  match Json.parse? text with
  | some v => ofJson v
  | none => .error .inputNotJson

end PolicyInput

end ConfidentialPolicy
