import ConfidentialPolicy.Error
import ConfidentialPolicy.Json.Basic
import ConfidentialPolicy.Text.Case

namespace ConfidentialPolicy

/-- An object whose keys are read without regard to letter case: the first member with such a key
counts, and `null` counts as missing. -/
structure Fields where
  members : Json.Members
deriving DecidableEq, Repr

namespace Fields

def ofJson (v : Json) (path : String) : Checked Fields :=
  match v with
  | .obj ms => .ok ⟨ms⟩
  | _ => .error (.field path .notObject)

def find? (f : Fields) (key : String) : Option Json :=
  (f.members.find? fun m ↦ Text.sameLetters m.1 key).map (·.2)

def get? (f : Fields) (key : String) : Option Json := (f.find? key).filter (!·.isNull)

def getAny? (f : Fields) (keys : List String) : Option Json := keys.findSome? f.get?

def contains (f : Fields) (key : String) : Bool := (f.get? key).isSome

def read (f : Fields) (key path : String) (fault : Fault) {α : Type} (view : Json → Option α) :
    Checked (Option α) :=
  match f.get? key with
  | none => .ok none
  | some v => match view v with
    | some a => .ok (some a)
    | none => .error (.field path fault)

def string (f : Fields) (key path : String) : Checked (Option String) :=
  f.read key path .notString Json.str?

def bool (f : Fields) (key path : String) : Checked (Option Bool) :=
  f.read key path .notBool Json.bool?

def list (f : Fields) (key path : String) : Checked (Option (List Json)) :=
  f.read key path .notList Json.items?

def listOf (f : Fields) (key path : String) (fault : Fault) {α : Type} (view : Json → Option α) :
    Checked (Option (List α)) := do
  match ← f.list key path with
  | none => .ok none
  | some vs => match vs.mapM view with
    | some as => .ok (some as)
    | none => .error (.field path fault)

def strings (f : Fields) (key path : String) : Checked (Option (List String)) :=
  f.listOf key path .notStrings Json.str?

def ints (f : Fields) (key path : String) : Checked (Option (List Int)) :=
  f.listOf key path .notInts Json.int64?

def object (f : Fields) (key path : String) : Checked (Option Fields) :=
  f.read key path .notObject fun v ↦ v.members?.map Fields.mk

end Fields

end ConfidentialPolicy
