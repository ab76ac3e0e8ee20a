import ConfidentialPolicy.Document
import ConfidentialPolicy.EnvRule.Matcher

namespace ConfidentialPolicy

abbrev Violations := KeyMap (KeyMap (List String))

namespace Violations

def toJson (vs : Violations) : Json :=
  .obj (vs.map fun c ↦ (c.1, .obj (c.2.map fun f ↦ (f.1, .ofStrings f.2))))

end Violations

structure SidecarReport where
  isValid : Bool
  violations : Violations
deriving DecidableEq, Repr

namespace SidecarReport

/-- What the rules of a container violate; none for a container without a baseline. -/
def reasons (table : SidecarTable) (c : Container) (l : PatternLanguage := Regex.language) :
    Checked (List String) :=
  match table.get? c.image with
  | none => .ok []
  | some baseline => do
    let matcher ← RuleMatcher.ofRules baseline.envRules l
    pure ((matcher.violations c.effectiveEnvRules).map RuleViolation.message)

def note (violations : Violations) (id : String) (reasons : List String) : Violations :=
  if reasons = [] then violations
  else KeyMap.update id (fun fields ↦ KeyMap.insert "env_rules" reasons (fields.getD [])) violations

def collect (table : SidecarTable) (l : PatternLanguage) (violations : Violations) :
    List Container → Checked Violations
  | [] => .ok violations
  | c :: cs => do
    let rs ← reasons table c l
    collect table l (note violations c.id rs) cs

def check (d : Document) (table : SidecarTable) (l : PatternLanguage := Regex.language) :
    Checked SidecarReport := do
  let violations ← collect table l [] d.containers
  pure ⟨violations.isEmpty, violations⟩

def toJson (r : SidecarReport) : Json :=
  .obj [("is_valid", .bool r.isValid), ("violations", r.violations.toJson)]

end SidecarReport

end ConfidentialPolicy
