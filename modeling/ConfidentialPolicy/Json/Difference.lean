import ConfidentialPolicy.Json.Basic
import ConfidentialPolicy.Text.Digits

namespace ConfidentialPolicy

namespace Json

inductive Step where
  | key (k : String)
  | index (i : Nat)
deriving DecidableEq, Repr

inductive ChangeKind where
  | valuesChanged
  | typeChanged
  | itemAdded
  | itemRemoved
  | keyAdded
  | keyRemoved
deriving DecidableEq, Repr

def ChangeKind.category : ChangeKind → String
  | .valuesChanged => "values_changed"
  | .typeChanged => "type_changes"
  | .itemAdded => "values_added"
  | .itemRemoved => "values_removed"
  | .keyAdded => "dictionary_item_added"
  | .keyRemoved => "dictionary_item_removed"

structure Change where
  kind : ChangeKind
  path : List Step
  old : Option Json
  new : Option Json
deriving DecidableEq, Repr

def Change.under (s : Step) (c : Change) : Change := { c with path := s :: c.path }

inductive Kind where
  | null
  | bool
  | num
  | str
  | arr
  | obj
deriving DecidableEq, Repr

def kind : Json → Kind
  | .null => .null
  | .bool _ => .bool
  | .num _ => .num
  | .str _ => .str
  | .arr _ => .arr
  | .obj _ => .obj

def sameLeaf : Json → Json → Bool
  | .num m, .num n => m.same n
  | v, w => v == w

def leafDifference (v w : Json) : List Change :=
  if sameLeaf v w then []
  else [⟨if v.kind = w.kind then .valuesChanged else .typeChanged, [], some v, some w⟩]

def addedItems (i : Nat) : List Json → List Change
  | [] => []
  | w :: ws => ⟨.itemAdded, [.index i], none, some w⟩ :: addedItems (i + 1) ws

def addedMembers (ms ns : Members) : List Change :=
  (ns.filter fun n ↦ (KeyMap.get? ms n.1).isNone).map fun n ↦
    ⟨.keyAdded, [.key n.1], none, some n.2⟩

mutual

def difference : Json → Json → List Change
  | .obj ms, .obj ns => memberDifference ms ns ++ addedMembers ms ns
  | .arr vs, .arr ws => itemDifference 0 vs ws
  | .arr vs, w => leafDifference (.arr vs) w
  | .obj ms, w => leafDifference (.obj ms) w
  | .null, w => leafDifference .null w
  | .bool b, w => leafDifference (.bool b) w
  | .num n, w => leafDifference (.num n) w
  | .str s, w => leafDifference (.str s) w
termination_by structural v => v

def itemDifference (i : Nat) : List Json → List Json → List Change
  | [], ws => addedItems i ws
  | v :: vs, [] => ⟨.itemRemoved, [.index i], some v, none⟩ :: itemDifference (i + 1) vs []
  | v :: vs, w :: ws => (difference v w).map (·.under (.index i)) ++ itemDifference (i + 1) vs ws
termination_by structural vs => vs

def memberDifference : List (String × Json) → List (String × Json) → List Change
  | [], _ => []
  | (k, v) :: ms, ns =>
    (match KeyMap.get? ns k with
      | some w => (difference v w).map (·.under (.key k))
      | none => [⟨.keyRemoved, [.key k], some v, none⟩]) ++ memberDifference ms ns
termination_by structural ms => ms

end

namespace Change

def group (c : Change) : String :=
  (c.path.findSome? fun s ↦ match s with
    | .key k => some k
    | .index _ => none).getD "root"

/-- How a change is reported: both sides of a changed value, or the value that came or went. -/
def entry (c : Change) : Json :=
  match c.kind with
  | .valuesChanged | .typeChanged =>
    .object [("new_value", c.new.getD .null), ("old_value", c.old.getD .null)]
  | .itemAdded | .keyAdded => c.new.getD .null
  | .itemRemoved | .keyRemoved => c.old.getD .null

def stepText : Step → String
  | .key k => "['" ++ k ++ "']"
  | .index i => "[" ++ Text.decimal i ++ "]"

def text (c : Change) : String :=
  "root" ++ String.join (c.path.map stepText) ++ " " ++ c.kind.category

end Change

def policyLabel (key : String) : String :=
  if key = "old_value" then "policy_value"
  else if key = "new_value" then "tested_value"
  else key

mutual

/-- Renames the sides of changed values, wherever they occur. -/
def relabel : Json → Json
  | .obj ms => .object (relabelMembers ms)
  | .arr vs => .arr (relabelItems vs)
  | .null => .null
  | .bool b => .bool b
  | .num n => .num n
  | .str s => .str s
termination_by structural v => v

def relabelItems : List Json → List Json
  | [] => []
  | v :: vs => relabel v :: relabelItems vs
termination_by structural vs => vs

def relabelMembers : List (String × Json) → List (String × Json)
  | [] => []
  | (k, v) :: ms => (policyLabel k, relabel v) :: relabelMembers ms
termination_by structural ms => ms

end

abbrev Groups := KeyMap (KeyMap (List Json))

def Groups.add (g : Groups) (c : Change) : Groups :=
  KeyMap.update c.kind.category (fun groups ↦
    KeyMap.update c.group (fun entries ↦ entries.getD [] ++ [c.entry]) (groups.getD [])) g

def Groups.ofChanges (cs : List Change) : Groups := cs.foldl Groups.add []

def Groups.toJson (g : Groups) : Json :=
  .obj (g.map fun c ↦ (c.1, .obj (c.2.map fun e ↦ (e.1, .arr e.2))))

def report (cs : List Change) : Json := (Groups.ofChanges cs).toJson.relabel

end Json

end ConfidentialPolicy
