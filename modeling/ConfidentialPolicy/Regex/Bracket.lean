import ConfidentialPolicy.Regex.Escape

namespace ConfidentialPolicy.Regex

open Text

inductive Joint where
  | inter
  | diff
  | symmetricDiff
deriving DecidableEq, Repr

def Joint.apply : Joint → CharSet → CharSet → CharSet
  | .inter => CharSet.inter
  | .diff => CharSet.diff
  | .symmetricDiff => CharSet.symmetricDiff

/-- Items that follow each other: what they hold, how many there are, and how deep they nest. -/
structure Items where
  set : CharSet
  count : Nat
  deepest : Nat
deriving Repr

namespace Items

def none : Items := ⟨.empty, 0, 0⟩

def add (k : Items) (s : CharSet) (depth : Nat) : Items :=
  ⟨k.set.union s, k.count + 1, max k.deepest depth⟩

def depth (k : Items) : Nat := if k.count ≤ 1 then k.deepest else k.deepest + 1

end Items

structure OpenClass where
  negated : Bool
  before : Option (Joint × CharSet × Nat)
  items : Items
deriving Repr

namespace OpenClass

def add (k : OpenClass) (s : CharSet) (depth : Nat) : OpenClass :=
  { k with items := k.items.add s depth }

def joined (k : OpenClass) (f : Flags) : CharSet × Nat :=
  match k.before with
  | none => (k.items.set, k.items.depth)
  | some (j, s, d) => (j.apply (f.cased s) (f.cased k.items.set), max d k.items.depth + 1)

def join (k : OpenClass) (f : Flags) (j : Joint) : OpenClass :=
  { k with before := some (j, k.joined f), items := .none }

def close? (k : OpenClass) (f : Flags) : Option (CharSet × Nat) :=
  let (s, d) := k.joined f
  (f.casedOr? k.negated s).map (·, d + 1)

/-- Hyphens at the start of a class stand for themselves. -/
def leadingHyphens (f : Flags) (k : OpenClass) : Nat → List Char → OpenClass × List Char
  | 0, s => (k, s)
  | fuel + 1, s => match s with
    | '-' :: t => leadingHyphens f (k.add (.one '-') 0) fuel (f.skip t)
    | _ => (k, s)

/-- Reads the start of a class after its bracket: a negation, hyphens, and a closing bracket that
stands for itself because nothing comes before it. -/
def begin (f : Flags) (s : List Char) : OpenClass × List Char :=
  let s := f.skip s
  let (negated, s) := match s with
    | '^' :: t => (true, f.skip t)
    | _ => (false, s)
  let k : OpenClass := ⟨negated, none, .none⟩
  match s with
  | ']' :: t => (k.add (.one ']') 0, f.skip t)
  | _ => leadingHyphens f k s.length s

end OpenClass

def readAsciiClass? (s : List Char) : Option (Bool × CharSet × List Char) :=
  match s with
  | ':' :: t =>
    let (negated, t) := match t with
      | '^' :: u => (true, u)
      | _ => (false, t)
    let name := t.takeWhile (· != ':')
    match t.drop name.length with
    | ':' :: ']' :: rest => (asciiClass? (String.ofList name)).map (negated, ·, rest)
    | _ => none
  | _ => none

def readClassItem? (f : Flags) (s : List Char) : Option (Escape × List Char) :=
  match s with
  | [] => none
  | '\\' :: t => do
    let (e, rest) ← readEscape? f t
    match e with
    | .anchor _ => none
    | _ => some (e, rest)
  | c :: t => some (.char c, t)

/-- The character after a hyphen that decides whether the hyphen makes a range. In verbose mode
blanks are passed over, and so is the `#` that starts a comment, but not the comment itself. -/
def afterHyphen? (f : Flags) (s : List Char) : Option Char :=
  if f.verbose then
    let t := match trimStart s with
      | '#' :: u => trimStart u
      | u => u
    t.head?.or s.head?
  else s.head?

/-- An item of a class, or a range between two characters in order. A hyphen before a closing
bracket or another hyphen makes no range. Without Unicode the characters have to be ASCII. -/
def readClassRange? (f : Flags) (s : List Char) : Option (CharSet × List Char) := do
  let (first, s) ← readClassItem? f s
  let allowed (c : Char) : Bool := f.unicode || c.toNat < 0x80
  let single? : Option CharSet := match first with
    | .char c => if allowed c then some (.one c) else none
    | .set set => some set
    | .anchor _ => none
  match f.skip s with
  | [] => none
  | '-' :: t =>
    if afterHyphen? f t = some ']' ∨ afterHyphen? f t = some '-' then single?.map (·, '-' :: t)
    else do
      let (last, rest) ← readClassItem? f (f.skip t)
      match first, last with
      | .char a, .char b =>
        if a ≤ b ∧ allowed b then some (.range a.toNat b.toNat, rest) else none
      | _, _ => none
  | t => single?.map (·, t)

/-- Reads a class up to its closing bracket, with its depth; `outer` are the classes around it. -/
def readClass? (f : Flags) : Nat → OpenClass → List OpenClass → List Char →
    Option (CharSet × Nat × List Char)
  | 0, _, _, _ => none
  | fuel + 1, k, outer, s =>
    match f.skip s with
    | [] => none
    | '[' :: t => match readAsciiClass? t with
      | some (negated, base, rest) => do
        let set ← f.casedOr? negated base
        readClass? f fuel (k.add set 0) outer rest
      | none =>
        let (inner, rest) := OpenClass.begin f t
        readClass? f fuel inner (k :: outer) rest
    | ']' :: t => do
      let (set, depth) ← k.close? f
      match outer with
      | [] => some (set, depth, t)
      | o :: outer => readClass? f fuel (o.add set depth) outer t
    | '&' :: '&' :: t => readClass? f fuel (k.join f .inter) outer t
    | '-' :: '-' :: t => readClass? f fuel (k.join f .diff) outer t
    | '~' :: '~' :: t => readClass? f fuel (k.join f .symmetricDiff) outer t
    | s' => do
      let (set, rest) ← readClassRange? f s'
      readClass? f fuel (k.add set 0) outer rest

def readBracket? (f : Flags) (s : List Char) : Option (CharSet × Nat × List Char) :=
  let (k, t) := OpenClass.begin f s
  readClass? f (t.length + 1) k [] t

end ConfidentialPolicy.Regex
