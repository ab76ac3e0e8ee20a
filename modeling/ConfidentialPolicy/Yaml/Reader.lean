import ConfidentialPolicy.Yaml.Node

namespace ConfidentialPolicy.Yaml

/-- A collection that waits for a value; its parts so far are in reverse order. -/
inductive Frame where
  | item (done : List Node)
  | pair (done : List Node) (key : Node)
  | member (done : List (Node × Node)) (key : Node)
  | anchored (id : Nat)
deriving Repr

/-- What may come next. A collection that does not wait for a value is held here. -/
inductive Expect where
  | root
  | item (done : List Node)
  | itemEnd (done : List Node)
  | pairKey (done : List Node)
  | pairColon (done : List Node) (key : Node)
  | pairValue (done : List Node) (key : Node)
  | member (done : List (Node × Node))
  | memberKey (done : List (Node × Node))
  | memberColon (done : List (Node × Node)) (key : Node)
  | memberValue (done : List (Node × Node)) (key : Node)
  | memberEnd (done : List (Node × Node))
  | nothing (n : Node)
deriving Repr

structure Properties where
  anchor : Option Nat := none
  tag : Option Tag := none
deriving DecidableEq, Repr

structure Builder where
  frames : List Frame
  expect : Expect
  properties : Properties
  /-- The numbers of the anchors so far. An anchor gets the number of names before it, also if its
  name has been there. -/
  names : List (List Char × Nat)
deriving Repr

namespace Builder

def start : Builder := ⟨[], .root, {}, []⟩

/-- How many collections a frame stands for. -/
def weight : Frame → Nat
  | .pair .. => 2
  | .anchored _ => 0
  | _ => 1

def depth (frames : List Frame) : Nat := frames.foldr (weight · + ·) 0

def blank : Node := .scalar (.empty none)

def single (key value : Node) : Node := .map [(key, value)]

def deliver (n : Node) : List Frame → List Frame × Expect
  | [] => ([], .nothing n)
  | .item vs :: frames => (frames, .itemEnd (n :: vs))
  | .pair vs key :: frames => (frames, .itemEnd (single key n :: vs))
  | .member ms key :: frames => (frames, .memberEnd ((key, n) :: ms))
  | .anchored id :: frames => deliver (.anchored id n) frames

def goOn (b : Builder) (r : List Frame × Expect) : Builder :=
  { b with frames := r.1, expect := r.2, properties := {} }

def valueFrames? (b : Builder) : Option (List Frame) :=
  match b.expect with
  | .root => some b.frames
  | .item vs => some (.item vs :: b.frames)
  | .pairValue vs key => some (.pair vs key :: b.frames)
  | .memberValue ms key => some (.member ms key :: b.frames)
  | _ => none

def afterKey? (b : Builder) (key : Node) : Option Expect :=
  match b.expect with
  | .pairKey vs => some (.pairColon vs key)
  | .memberKey ms => some (.memberColon ms key)
  | .member ms => some (.memberEnd ((key, blank) :: ms))
  | _ => none

def place? (b : Builder) (n : Node) : Option Builder :=
  let n := match b.properties.anchor with
    | none => n
    | some id => .anchored id n
  match b.valueFrames? with
  | some frames => some (b.goOn (deliver n frames))
  | none => (b.afterKey? n).map fun e ↦ b.goOn (b.frames, e)

/-- Begins a list or a mapping. A tag of an application is refused. -/
def beginCollection? (b : Builder) (e : Expect) : Option Builder := do
  let frames ← b.valueFrames?
  if b.properties.tag = some .bare ∨ b.properties.tag = some .own then none
  else if depth frames < Node.maxDepth then
    some (b.goOn ((b.properties.anchor.map Frame.anchored).toList ++ frames, e))
  else none

def takesNode (b : Builder) : Bool := b.valueFrames?.isSome || (b.afterKey? blank).isSome

def setAnchor? (b : Builder) (name : List Char) : Option Builder :=
  if b.takesNode ∧ b.properties.anchor = none then
    let id := b.names.length
    some { b with
      properties := { b.properties with anchor := some id }
      names := (name, id) :: b.names.filter (·.1 ≠ name) }
  else none

def setTag? (b : Builder) (t : Tag) : Option Builder :=
  if b.takesNode ∧ b.properties.tag = none then
    some { b with properties := { b.properties with tag := some t } }
  else none

def afterItem? (b : Builder) (vs : List Node) : Token → Option Builder
  | .comma => some (b.goOn (b.frames, .item vs))
  | .closeList => some (b.goOn (deliver (.list vs.reverse) b.frames))
  | _ => none

def afterMember? (b : Builder) (ms : List (Node × Node)) : Token → Option Builder
  | .comma => some (b.goOn (b.frames, .member ms))
  | .closeMap => some (b.goOn (deliver (.map ms.reverse) b.frames))
  | _ => none

def mark? (b : Builder) (t : Token) : Option Builder :=
  let next (e : Expect) : Option Builder := some (b.goOn (b.frames, e))
  match b.expect with
  | .item vs => match t with
    | .closeList => some (b.goOn (deliver (.list vs.reverse) b.frames))
    | .key => if depth b.frames + 2 ≤ Node.maxDepth then next (.pairKey vs) else none
    | _ => none
  | .itemEnd vs => b.afterItem? vs t
  | .pairKey vs => match t with
    | .colon | .comma | .closeList => next (.pairColon vs blank)
    | _ => none
  | .pairColon vs key => match t with
    | .colon => next (.pairValue vs key)
    | t => b.afterItem? (single key blank :: vs) t
  | .pairValue vs key => b.afterItem? (single key blank :: vs) t
  | .member ms => match t with
    | .closeMap => some (b.goOn (deliver (.map ms.reverse) b.frames))
    | .key => next (.memberKey ms)
    | _ => none
  | .memberKey ms => match t with
    | .colon => next (.memberValue ms blank)
    | t => b.afterMember? ((blank, blank) :: ms) t
  | .memberColon ms key => match t with
    | .colon => next (.memberValue ms key)
    | t => b.afterMember? ((key, blank) :: ms) t
  | .memberValue ms key => b.afterMember? ((key, blank) :: ms) t
  | .memberEnd ms => b.afterMember? ms t
  | _ => none

/-- Takes one token; none if it can not come here. A node may consist of an anchor or a tag
alone. -/
def step (b : Builder) (t : Token) : Option Builder :=
  match t with
  | .anchor name => b.setAnchor? name
  | .tag t => b.setTag? t
  | .alias name =>
    if b.properties = {} then do b.place? (.alias (← b.names.lookup name)) else none
  | .plain s => b.place? (.scalar ⟨s, true, b.properties.tag⟩)
  | .quoted s => b.place? (.scalar ⟨s, false, b.properties.tag⟩)
  | .openList => b.beginCollection? (.item [])
  | .openMap => b.beginCollection? (.member [])
  | t =>
    if b.properties = {} then b.mark? t
    else do (← b.place? (.scalar (.empty b.properties.tag))).mark? t

def run (b : Builder) (ts : List Token) : Option Builder := ts.foldlM step b

def finish? (b : Builder) : Option Node :=
  match b.expect with
  | .nothing n => some n
  | _ => none

end Builder

def readNode? (s : List Char) : Option Node :=
  (tokens? s).bind fun ts ↦ (Builder.start.run ts).bind Builder.finish?

/-- The items of a flow collection in canonical form; a comma may follow the last one. -/
def parseList? (s : List Char) : Option (List Json) :=
  (readNode? s).bind fun n ↦ n.json?.bind fun v ↦ v.canonicalize.items?

end ConfidentialPolicy.Yaml
