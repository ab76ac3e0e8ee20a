import ConfidentialPolicy.Document
import ConfidentialPolicy.PolicyText.Lists

namespace ConfidentialPolicy

structure DeployedPolicy where
  containers : List Json
  fragments : List Json
deriving DecidableEq, Repr

namespace Template

def groupType : String := "Microsoft.ContainerInstance/containerGroups"

def resourcesPath : String := "template][resources"

def isGroup (resource : Json) : Bool :=
  ((resource.get? "type").bind Json.str?).any (Text.sameLetters · groupType)

def groupPlaces (template : Json) : Checked (List Nat) := do
  let root ← Fields.ofJson template "template"
  match ← root.list "resources" resourcesPath with
  | none => .error (.field resourcesPath .notFound)
  | some resources =>
    let places := (List.range resources.length).filter fun i ↦ resources[i]?.any isGroup
    if places = [] then .error (.field resourcesPath (.noGroup groupType)) else .ok places

def encodedPolicy (group : Json) : Checked (Option Json) := do
  let fields ← Fields.ofJson group "resources"
  match ← fields.object "properties" "resources][properties" with
  | none => pure none
  | some properties =>
    match ← properties.object "confidentialComputeProperties"
        "properties][confidentialComputeProperties" with
    | none => pure none
    | some confidential => pure (confidential.get? "ccePolicy")

def scan (text : String) : DeployedPolicy :=
  match PolicyText.containersAndFragments text with
  | .ok (cs, fs) => ⟨cs, fs⟩
  | .error _ => ⟨[], []⟩

/-- Reads the policy of a group. A missing or blank policy allows everything: it declares no
containers and the default imports. -/
def policyOf (group : Json) (defaults : List FragmentImport) : Checked DeployedPolicy := do
  let allowAll : DeployedPolicy := ⟨[], defaults.map FragmentImport.toJson⟩
  match ← encodedPolicy group with
  | some (.str s) =>
    if Text.trim s.toList = [] then pure allowAll else do
    let text ← decodeText s
    if (Json.parse? text).isSome then .error .policyIsJson else pure (scan text)
  | _ => pure allowAll

def resources (template : Json) : List Json :=
  ((template.get? "resources").bind Json.items?).getD []

def policies (template : Json) (defaults : List FragmentImport) :
    Checked (List DeployedPolicy) := do
  let groups := resources template
  (← groupPlaces template).mapM fun i ↦ match groups[i]? with
    | some group => policyOf group defaults
    | none => .error (.outOfRange groups.length i)

def spelling (ms : Json.Members) (key : String) : String :=
  ((ms.find? fun m ↦ Text.sameLetters m.1 key).map (·.1)).getD key

/-- Changes the object under a key, which is made if it is missing. -/
def updateObject (ms : Json.Members) (key : String)
    (f : Json.Members → Checked Json.Members) : Checked Json.Members := do
  let k := spelling ms key
  match (KeyMap.get? ms k).getD (.obj []) with
  | .obj inner => pure (KeyMap.insert k (.obj (← f inner)) ms)
  | _ => .error (.field key .notObject)

def writePolicy (group : Json.Members) (policy : String) : Checked Json.Members :=
  updateObject group "properties" fun properties ↦
    updateObject properties "confidentialComputeProperties" fun confidential ↦
      .ok (KeyMap.insert "ccePolicy" (.str policy) confidential)

/-- Writes a policy into the container group at a position among the groups. -/
def inject (template : Json) (position : Nat) (policy : String) : Checked Json := do
  match (← groupPlaces template)[position]? with
  | none => .error (.field resourcesPath (.noGroupAt position))
  | some i => match template with
    | .obj ms => match KeyMap.get? ms "resources" with
      | some (.arr rs) => match rs[i]? with
        | some (.obj group) => do
          let written ← writePolicy group policy
          pure (.obj (KeyMap.insert "resources" (.arr (rs.set i (.obj written))) ms))
        | _ => .error (.field resourcesPath .notObjects)
      | _ => .error (.field resourcesPath .notObjects)
    | _ => .error (.field resourcesPath .notObjects)

end Template

end ConfidentialPolicy
