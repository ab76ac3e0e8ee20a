import ConfidentialPolicy.Error
import ConfidentialPolicy.Files.Path

namespace ConfidentialPolicy

inductive Node where
  | text (content : String)
  | binary
  | directory
deriving DecidableEq, Repr

abbrev Place := List String

structure Files where
  nodes : List (Place × Node)
  here : Place
deriving DecidableEq, Repr

namespace Files

/-- What stands at a place. The top and the directories that lead to the working directory are
always there. -/
def node? (f : Files) (p : Place) : Option Node :=
  if p.isPrefixOf f.here then some .directory else f.nodes.lookup p

def put (f : Files) (p : Place) (n : Node) : Files :=
  { f with nodes := (p, n) :: f.nodes.filter (·.1 ≠ p) }

def step (p : Place) (name : String) : Place :=
  if name = "." then p else if name = ".." then p.dropLast else p ++ [name]

/-- Follows names; every place that is left has to be a directory. -/
def walk (f : Files) (p : Place) : List String → Except IoFault Place
  | [] => .ok p
  | name :: names => match f.node? p with
    | none => .error .notFound
    | some .directory =>
      if Path.maxName < name.utf8ByteSize then .error .nameTooLong
      else walk f (step p name) names
    | some _ => .error .notDirectory

def start (f : Files) (path : String) : Place := if Path.isAbsolute path then [] else f.here

def pathFault? (path : String) : Option IoFault :=
  if Path.hasZero path then some .zeroInName
  else if path = "" then some .notFound
  else if Path.maxPath < path.utf8ByteSize then some .nameTooLong
  else none

def find (f : Files) (path : String) : Except IoFault Place :=
  match pathFault? path with
  | some fault => .error fault
  | none =>
    f.walk (f.start path) (Path.names path ++ if Path.endsInSlash path then ["."] else [])

def contains (f : Files) (path : String) : Bool :=
  match f.find path with
  | .ok p => (f.node? p).isSome
  | .error _ => false

def read (f : Files) (path : String) : Except IoFault String := do
  match f.node? (← f.find path) with
  | none => .error .notFound
  | some .directory => .error .isDirectory
  | some .binary => .error .notUtf8
  | some (.text content) => .ok content

/-- The place of a file that is to be written: its directory has to be there. -/
def target (f : Files) (path : String) : Except IoFault Place :=
  match pathFault? path, (Path.names path).reverse with
  | some fault, _ => .error fault
  | none, [] => .error .isDirectory
  | none, name :: names => do
    let directory ← f.walk (f.start path) (names.reverse ++ ["."])
    if Path.endsInSlash path || name = "." || name = ".." then .error .isDirectory
    else f.walk directory [name]

def write (f : Files) (path content : String) : Except IoFault Files := do
  let p ← f.target path
  if f.node? p = some .directory then .error .isDirectory else .ok (f.put p (.text content))

def add (f : Files) (p : Place) (n : Node) : Files :=
  (((List.range p.length).map p.take).foldl (put · · .directory) f).put p n

/-- Putting a node at a place changes nothing elsewhere. -/
theorem node?_put (f : Files) (p q : Place) (n : Node) (h : ¬ p.isPrefixOf f.here) :
    (f.put p n).node? q = if q = p then some n else f.node? q := by
  by_cases hq : q = p
  · subst hq
    simp [put, node?, h]
  · have hb : (q == p) = false := by simp [hq]
    have hl (ns : List (Place × Node)) : (ns.filter (·.1 ≠ p)).lookup q = ns.lookup q := by
      induction ns with
      | nil => rfl
      | cons m ns ih =>
        obtain ⟨k, a⟩ := m
        by_cases hk : k = p
        · subst hk
          simpa [List.lookup_cons, hb] using ih
        · simp only [ne_eq, decide_not] at ih
          simp [hk, List.lookup_cons, ih]
    simp only [put, node?, List.lookup_cons, hb, hq, if_false, hl]

end Files

end ConfidentialPolicy
