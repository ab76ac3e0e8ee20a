import ConfidentialPolicy.Json.Reader
import ConfidentialPolicy.PolicyText.Brackets
import ConfidentialPolicy.Yaml.Reader

namespace ConfidentialPolicy.PolicyText

def expandTabs (s : List Char) : List Char :=
  s.flatMap fun c ↦ if c = '\t' then [' ', ' ', ' ', ' '] else [c]

def jsonItems? (s : List Char) : Option (List Json) :=
  (Json.parse? (String.ofList s)).bind Json.items?

/-- The items of a list: JSON first, then YAML. -/
def parseList (s : List Char) : Checked (List Json) :=
  match jsonItems? s with
  | some items => .ok items
  | none => match Yaml.parseList? (expandTabs s) with
    | some items => .ok items
    | none => .error .badYaml

def containers (text : String) : Checked (List Json) := do
  parseList (← extractList text.toList containersMarker)

def fragments (text : String) : Checked (List Json) :=
  if Text.occurs fragmentsMarker.toList text.toList then do
    parseList (← extractList text.toList fragmentsMarker)
  else .ok []

def containersAndFragments (text : String) : Checked (List Json × List Json) := do
  let cs ← containers text
  let fs ← fragments text
  pure (cs, fs)

end ConfidentialPolicy.PolicyText
