import ConfidentialPolicy.Fields
import ConfidentialPolicy.Json.Printer
import ConfidentialPolicy.Record
import ConfidentialPolicy.Text.Search

namespace ConfidentialPolicy

/-- How a pattern is compared: literally, or as a regular expression. -/
inductive Strategy where
  | string
  | re2
deriving DecidableEq, Repr

namespace Strategy

def name : Strategy → String
  | .string => "string"
  | .re2 => "re2"

def ofName? (s : String) : Option Strategy :=
  if s = "string" then some .string else if s = "re2" then some .re2 else none

def ofWritten? : Written → Option Strategy
  | .str s | .obj [(s, .null)] => s.bind ofName?
  | _ => none

end Strategy

structure EnvRule where
  pattern : String
  strategy : Strategy
  required : Bool
deriving DecidableEq, Repr

namespace EnvRule

def make (name value : String) (strategy : Strategy) (required : Bool) : EnvRule :=
  ⟨name ++ "=" ++ value, strategy, required⟩

def name (r : EnvRule) : String := String.ofList (Text.splitFirst '=' r.pattern.toList).1

def scalarText : Json → String
  | .str s => s
  | v => v.compact

def ofJson (raw : Json) (path : String) : Checked EnvRule := do
  let fields ← Fields.ofJson raw path
  let strategy ← fields.string "strategy" path
  match fields.get? "name", fields.get? "value", strategy with
  | some name, some value, some strategy => match Strategy.ofName? strategy with
    | none => .error (.field (path ++ "[strategy]") (.unknownStrategy strategy))
    | some strategy => do
      let required ← fields.bool "required" (path ++ "[required]")
      pure (make (scalarText name) (scalarText value) strategy (required.getD false))
  | _, _, _ => .error (.field path .incorrect)

def listOfJson (raw : List Json) (path : String) : Checked (List EnvRule) :=
  raw.mapM (ofJson · path)

def ofWritten? (v : Written) : Option EnvRule := do
  let r ← Record.ofWritten? ["pattern", "strategy", "required"] v
  let pattern ← r.field? 0 Written.str?
  let strategy ← r.field? 1 Strategy.ofWritten?
  let required ← r.fieldOr? 2 false Written.bool?
  pure { pattern, strategy, required }

def toJson (r : EnvRule) : Json :=
  .object [("pattern", .str r.pattern), ("required", .bool r.required),
    ("strategy", .str r.strategy.name)]

def isNamed (rules : List EnvRule) (name : String) : Bool := rules.any (·.name == name)

/-- Adds the rules whose names are not there yet; the first rule of a name stays. -/
def merge (rules extra : List EnvRule) : List EnvRule :=
  extra.foldl (fun out r ↦ if isNamed out r.name then out else out ++ [r]) rules

end EnvRule

end ConfidentialPolicy
