import ConfidentialPolicy.Container
import ConfidentialPolicy.Fragment.Import
import ConfidentialPolicy.Json.Difference

namespace ConfidentialPolicy

structure DriftReport where
  isEqual : Bool
  diff : Json.Members
deriving DecidableEq, Repr

namespace DriftReport

open Json

def withId (id : String) (records : List Json) : List Json :=
  records.filter fun r ↦ recordId? r == some id

def ids (records : List Json) : List String :=
  (records.filterMap recordId?).eraseDups

def wholeRecord (kind : ChangeKind) (old new : Option Json) : Change :=
  ⟨kind, [.key "containers"], old, new⟩

def pairChanges : Option Json → Option Json → List Change
  | some old, some new => difference old new
  | some old, none => [wholeRecord .itemRemoved (some old) none]
  | none, some new => [wholeRecord .itemAdded none (some new)]
  | none, none => []

def label (id : String) (n : Nat) : String :=
  if n = 0 then id else id ++ "[" ++ Text.decimal n ++ "]"

/-- The records with an id in pairs, each with its place. -/
def pairs (id : String) (old new : List Json) : List (String × List Change) :=
  let old := withId id old
  let new := withId id new
  (List.range (max old.length new.length)).map fun n ↦ (label id n, pairChanges old[n]? new[n]?)

def entries (existing regenerated : List Json) : List (String × List Change) :=
  (ids (existing ++ regenerated)).flatMap fun id ↦
    (pairs id existing regenerated).filter (·.2 ≠ [])

/-- Records are paired by id, and those that share an id in order; records without an id are not
compared. -/
def compare (existing regenerated : List Json) : DriftReport :=
  let diff := KeyMap.ofList ((entries existing regenerated).map fun e ↦ (e.1, report e.2))
  ⟨diff.isEmpty, diff⟩

def canonicalImport (raw : Json) : Json :=
  match FragmentImport.ofJson raw with
  | .ok i => i.toJson
  | .error _ => raw

def compareFragments (existing : List Json) (expected : List FragmentImport) : Json :=
  report (difference (.arr (existing.map canonicalImport)) (FragmentImport.listToJson expected))

end DriftReport

end ConfidentialPolicy
