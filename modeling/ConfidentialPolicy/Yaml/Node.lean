import ConfidentialPolicy.Yaml.Scalar

namespace ConfidentialPolicy.Yaml

inductive Node where
  | scalar (s : Scalar)
  | list (items : List Node)
  | map (members : List (Node × Node))
  | alias (id : Nat)
  | anchored (id : Nat) (n : Node)
deriving Repr, Inhabited

namespace Node

mutual

def anchors : Node → List (Nat × Node)
  | .scalar _ | .alias _ => []
  | .list vs => itemAnchors vs
  | .map ms => memberAnchors ms
  | .anchored id n => (id, n) :: anchors n
termination_by structural n => n

def itemAnchors : List Node → List (Nat × Node)
  | [] => []
  | v :: vs => anchors v ++ itemAnchors vs
termination_by structural vs => vs

def memberAnchors : List (Node × Node) → List (Nat × Node)
  | [] => []
  | (k, v) :: ms => anchors k ++ anchors v ++ memberAnchors ms
termination_by structural ms => ms

end

mutual

/-- The number of scalars, aliases, and starts and ends of collections. -/
def events : Node → Nat
  | .scalar _ | .alias _ => 1
  | .list vs => itemEvents vs + 2
  | .map ms => memberEvents ms + 2
  | .anchored _ n => events n
termination_by structural n => n

def itemEvents : List Node → Nat
  | [] => 0
  | v :: vs => events v + itemEvents vs
termination_by structural vs => vs

def memberEvents : List (Node × Node) → Nat
  | [] => 0
  | (k, v) :: ms => events k + events v + memberEvents ms
termination_by structural ms => ms

end

def bare : Node → Node
  | .anchored _ n => bare n
  | n => n

/-- The anchored nodes of a text; of several with one number the last one counts. -/
abbrev Table := List (Nat × Node)

def Table.get? (t : Table) (id : Nat) : Option Node := (t.reverse.lookup id).map bare

abbrev Following := StateT Nat Option

/-- The node that a node stands for; following an alias counts. -/
def follow (t : Table) (n : Node) : Following Node :=
  match n.bare with
  | .alias id => fun left ↦ if left = 0 then none else (t.get? id).map (·, left - 1)
  | n => pure n

def key (t : Table) (n : Node) : Following String := do
  match ← follow t n with
  | .scalar s => pure (String.ofList s.text)
  | _ => failure

def scalarValue (s : Scalar) : Following Json :=
  match s.value? with
  | some v => pure v
  | none => failure

def value (t : Table) : Nat → Node → Following Json
  | 0, n => do
    match ← follow t n with
    | .scalar s => scalarValue s
    | _ => failure
  | depth + 1, n => do
    match ← follow t n with
    | .scalar s => scalarValue s
    | .list vs => do pure (.arr (← vs.mapM (value t depth)))
    | .map ms => do
      pure (.obj (← ms.mapM fun m ↦ do pure (← key t m.1, ← value t depth m.2)))
    | _ => failure

def maxDepth : Nat := 128

/-- How many aliases may be followed for each event of a text. -/
def maxFollowed : Nat := 100

def json? (n : Node) : Option Json :=
  (value n.anchors maxDepth n (maxFollowed * n.events)).map (·.1)

end Node

end ConfidentialPolicy.Yaml
