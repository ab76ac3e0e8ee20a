import ConfidentialPolicy.Regex.Bracket
import ConfidentialPolicy.Regex.Size

namespace ConfidentialPolicy.Regex

open Text

def maxDepth : Nat := 250

structure Nested where
  regex : Regex
  depth : Nat
deriving Repr, Inhabited

namespace Nested

def wrap (n : Nested) (f : Regex → Regex) : Nested := ⟨f n.regex, n.depth + 1⟩

end Nested

/-- A part of a sequence: a regular expression, or a change of flags, which can not be repeated. -/
inductive Part where
  | regex (n : Nested)
  | flags
deriving Repr

namespace Part

def depth : Part → Nat
  | .regex n => n.depth
  | .flags => 0

def followedBy (p : Part) (r : Regex) : Regex :=
  match p with
  | .regex n => .cat n.regex r
  | .flags => r

/-- A sequence of parts. Several parts nest one deeper than the deepest of them. -/
def sequence (parts : List Part) : Nested :=
  match parts with
  | [] => ⟨.empty, 0⟩
  | [.regex n] => n
  | [.flags] => ⟨.empty, 0⟩
  | _ => ⟨parts.foldr followedBy .empty, (parts.map depth).foldl max 0 + 1⟩

end Part

structure Group where
  captures : Bool
  parts : List Part
  earlier : Option Nested
deriving Repr

namespace Group

def empty (captures : Bool) : Group := ⟨captures, [], none⟩

def add (g : Group) (n : Nested) : Group := { g with parts := .regex n :: g.parts }

def addFlags (g : Group) : Group := { g with parts := .flags :: g.parts }

def choice (g : Group) : Nested :=
  let last := Part.sequence g.parts.reverse
  match g.earlier with
  | none => last
  | some n => ⟨.alt n.regex last.regex, max n.depth last.depth⟩

def close (g : Group) : Nested := if g.earlier.isNone then g.choice else g.choice.wrap id

def nextAlternative (g : Group) : Group := { g with parts := [], earlier := some g.choice }

def nested (g : Group) : Nested := g.close.wrap (if g.captures then .capture else id)

def repeatLast? (g : Group) (least : Nat) (most : Option Nat) : Option Group :=
  match g.parts with
  | .regex n :: parts => some { g with parts := .regex (n.wrap (.repeat · least most)) :: parts }
  | _ => none

end Group

structure PatternState where
  flags : Flags
  group : Group
  outer : List (Flags × Group)
  names : List String
deriving Repr

def maxCount : Nat := Nat.pow 2 32 - 1

def readCount? (f : Flags) (s : List Char) : Option (Nat × List Char) :=
  let (digits, rest) := f.span isDigit false (trimStart s)
  if digits = [] ∨ maxCount < natOf digits then none else some (natOf digits, trimStart rest)

def readBounds? (f : Flags) (s : List Char) : Option (Nat × Option Nat × List Char) := do
  let (least, s) ← readCount? f (f.skip s)
  match s with
  | '}' :: t => some (least, some least, t)
  | ',' :: t => match f.skip t with
    | '}' :: u => some (least, none, u)
    | t' => do
      let (most, u) ← readCount? f t'
      match u with
      | '}' :: v => if least ≤ most then some (least, some most, v) else none
      | _ => none
  | _ => none

def isNameStart (c : Char) : Bool := c == '_' || CharSet.alphabetic.contains c

def isNamePart (c : Char) : Bool :=
  isNameStart c || c == '.' || c == '[' || c == ']' || Category.number.contains c

namespace PatternState

def start : PatternState := ⟨{}, .empty false, [], []⟩

def add (p : PatternState) (n : Nested) : PatternState := { p with group := p.group.add n }

def addOne (p : PatternState) (r : Regex) : PatternState := p.add ⟨r, 0⟩

def openGroup (p : PatternState) (f : Flags) (captures : Bool) : PatternState :=
  { p with flags := f, group := .empty captures, outer := (p.flags, p.group) :: p.outer }

/-- A group with a name, after its opening bracket. No two groups have one name. -/
def openNamed? (p : PatternState) (s : List Char) : Option (PatternState × List Char) :=
  let name := s.takeWhile (· != '>')
  match name, s.drop name.length with
  | c :: cs, _ :: rest =>
    let text := String.ofList name
    if isNameStart c ∧ cs.all isNamePart ∧ text ∉ p.names then
      some ({ p.openGroup p.flags true with names := text :: p.names }, rest)
    else none
  | _, _ => none

def open? (p : PatternState) (s : List Char) : Option (PatternState × List Char) :=
  match p.flags.skip s with
  | '?' :: '=' :: _ | '?' :: '!' :: _ | '?' :: '<' :: '=' :: _ | '?' :: '<' :: '!' :: _ => none
  | '?' :: 'P' :: '<' :: t => p.openNamed? t
  | '?' :: '<' :: t => p.openNamed? t
  | '?' :: t => do
    let (f, stop, any, rest) ← p.flags.read? [] true false t
    if stop = ':' then some (p.openGroup f false, rest)
    else if any then some ({ p with flags := f, group := p.group.addFlags }, rest)
    else none
  | t => some (p.openGroup p.flags true, t)

def repeatLast? (p : PatternState) (least : Nat) (most : Option Nat) (s : List Char) :
    Option (PatternState × List Char) := do
  let group ← p.group.repeatLast? least most
  let rest := match s with
    | '?' :: t => t
    | t => t
  pure ({ p with group }, rest)

def step? (p : PatternState) (c : Char) (s : List Char) : Option (PatternState × List Char) :=
  match c with
  | '(' => p.open? s
  | ')' => match p.outer with
    | [] => none
    | (flags, group) :: outer =>
      some ({ p with flags, group := group.add p.group.nested, outer }, s)
  | '|' => some ({ p with group := p.group.nextAlternative }, s)
  | '[' => (readBracket? p.flags s).map fun (set, depth, rest) ↦ (p.add ⟨.one set, depth⟩, rest)
  | '?' => p.repeatLast? 0 (some 1) s
  | '*' => p.repeatLast? 0 none s
  | '+' => p.repeatLast? 1 none s
  | '{' => do
    let (least, most, t) ← readBounds? p.flags s
    p.repeatLast? least most (p.flags.skip t)
  | '\\' => (readEscape? p.flags s).map fun (e, rest) ↦ match e with
    | .char d => (p.addOne (p.flags.literal d), rest)
    | .set set => (p.addOne (.one set), rest)
    | .anchor a => (p.addOne (.anchor a), rest)
  | '.' => p.flags.dot?.map fun set ↦ (p.addOne (.one set), s)
  | '^' => some (p.addOne (.anchor p.flags.start), s)
  | '$' => some (p.addOne (.anchor p.flags.stop), s)
  | _ => some (p.addOne (p.flags.literal c), s)

def run? : Nat → PatternState → List Char → Option Nested
  | 0, _, _ => none
  | fuel + 1, p, s =>
    match p.flags.skip s with
    | [] => if p.outer.isEmpty then some p.group.close else none
    | c :: t => do
      let (p', rest) ← p.step? c t
      run? fuel p' rest

end PatternState

/-- None if the pattern is not well formed, nests too deeply or has too large an automaton. Lazy
repetitions find the same texts as greedy ones, so the difference is not kept. -/
def compile? (pattern : String) : Option Regex := do
  let s := pattern.toList
  let n ← PatternState.start.run? (s.length + 1) s
  if n.depth ≤ maxDepth ∧ fits n.regex then some n.regex else none

end ConfidentialPolicy.Regex
