import ConfidentialPolicy.Json.Token
import ConfidentialPolicy.Json.Written

namespace ConfidentialPolicy.Json

/-- An open list or object that waits for a value; its parts so far are in reverse order. -/
inductive Frame where
  | item (done : List Written)
  | member (done : List (Option String × Written)) (key : Option String)
deriving Repr

/-- What may come next. A list or object that does not wait for a value is held here. -/
inductive Expect where
  | value
  | itemOrClose
  | itemEnd (done : List Written)
  | keyOrClose
  | key (done : List (Option String × Written))
  | colon (done : List (Option String × Written)) (key : Option String)
  | memberEnd (done : List (Option String × Written))
  | nothing (v : Written)
deriving Repr

structure Builder where
  frames : List Frame
  expect : Expect
deriving Repr

namespace Builder

def start : Builder := ⟨[], .value⟩

def deliver (v : Written) : List Frame → Builder
  | [] => ⟨[], .nothing v⟩
  | .item vs :: frames => ⟨frames, .itemEnd (v :: vs)⟩
  | .member ms key :: frames => ⟨frames, .memberEnd ((key, v) :: ms)⟩

def beginValue (frames : List Frame) : Token → Option Builder
  | .openList => some ⟨frames, .itemOrClose⟩
  | .openObject => some ⟨frames, .keyOrClose⟩
  | .null => some (deliver .null frames)
  | .bool b => some (deliver (.bool b) frames)
  | .num n => some (deliver (.num n) frames)
  | .str s => some (deliver (.str s) frames)
  | _ => none

def step (b : Builder) (t : Token) : Option Builder :=
  match b.expect, t with
  | .value, t => beginValue b.frames t
  | .itemOrClose, .closeList => some (deliver (.arr []) b.frames)
  | .itemOrClose, t => beginValue (.item [] :: b.frames) t
  | .itemEnd vs, .comma => some ⟨.item vs :: b.frames, .value⟩
  | .itemEnd vs, .closeList => some (deliver (.arr vs.reverse) b.frames)
  | .keyOrClose, .closeObject => some (deliver (.obj []) b.frames)
  | .keyOrClose, .str key => some ⟨b.frames, .colon [] key⟩
  | .key ms, .str key => some ⟨b.frames, .colon ms key⟩
  | .colon ms key, .colon => some ⟨.member ms key :: b.frames, .value⟩
  | .memberEnd ms, .comma => some ⟨b.frames, .key ms⟩
  | .memberEnd ms, .closeObject => some (deliver (.obj ms.reverse) b.frames)
  | _, _ => none

def run (b : Builder) (ts : List Token) : Option Builder := ts.foldlM step b

def finish? (b : Builder) : Option Written :=
  match b.expect with
  | .nothing v => some v
  | _ => none

end Builder

def build? (ts : List Token) : Option Written := (Builder.start.run ts).bind Builder.finish?

def readWritten? (s : List Char) : Option Written := (tokens? s).bind build?

def openAfter (n : Nat × Nat) : Token → Nat × Nat
  | .openList | .openObject => (n.1 + 1, max n.2 (n.1 + 1))
  | .closeList | .closeObject => (n.1 - 1, n.2)
  | _ => n

def nesting (ts : List Token) : Nat := (ts.foldl openAfter (0, 0)).2

def maxDepth : Nat := 127

/-- The canonical value of a text: members are sorted, and the last member of a key wins. -/
def parse? (s : String) : Option Json := do
  let ts ← tokens? s.toList
  if nesting ts ≤ maxDepth then ((← build? ts).value?).map canonicalize else none

end ConfidentialPolicy.Json
