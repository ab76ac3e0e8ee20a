import ConfidentialPolicy.Regex.Flags

namespace ConfidentialPolicy.Regex

open Text

inductive Escape where
  | char (c : Char)
  | set (s : CharSet)
  | anchor (a : Anchor)
deriving Repr

def isMeta (c : Char) : Bool := c ∈ "\\.+*?()|[]\x7b\x7d^$#&-~".toList

def asciiPairs? (name : String) : Option (List (Char × Char)) :=
  match name with
  | "alnum" => some [('0', '9'), ('A', 'Z'), ('a', 'z')]
  | "alpha" => some [('A', 'Z'), ('a', 'z')]
  | "ascii" => some [('\x00', '\x7f')]
  | "blank" => some [('\t', '\t'), (' ', ' ')]
  | "cntrl" => some [('\x00', '\x1f'), ('\x7f', '\x7f')]
  | "digit" => some [('0', '9')]
  | "graph" => some [('!', '~')]
  | "lower" => some [('a', 'z')]
  | "print" => some [(' ', '~')]
  | "punct" => some [('!', '/'), (':', '@'), ('[', '\x60'), ('{', '~')]
  | "space" => some [('\t', '\r'), (' ', ' ')]
  | "upper" => some [('A', 'Z')]
  | "word" => some [('0', '9'), ('A', 'Z'), ('_', '_'), ('a', 'z')]
  | "xdigit" => some [('0', '9'), ('A', 'F'), ('a', 'f')]
  | _ => none

def asciiClass? (name : String) : Option CharSet :=
  (asciiPairs? name).map fun ps ↦ .ofPairs (ps.map fun p ↦ (p.1.toNat, p.2.toNat))

/-- The set that a property names; a value may follow the first `!=`, else the first colon, else the
first equals sign. -/
def property? (name : List Char) : Option CharSet :=
  match afterFirst? ['!', '='] name with
  | some value => CharSet.ofPropertyValue? (name.take (name.length - value.length - 2)) value
  | none => match splitFirst ':' name with
    | (property, some value) => CharSet.ofPropertyValue? property value
    | (_, none) => match splitFirst '=' name with
      | (property, some value) => CharSet.ofPropertyValue? property value
      | (_, none) => CharSet.ofPropertyName? name

def readHex? (f : Flags) : Nat → Nat → List Char → Option (Nat × List Char)
  | 0, n, s => some (n, s)
  | _ + 1, _, [] => none
  | count + 1, n, c :: s => do readHex? f count (16 * n + (← hexValue? c)) (f.skip s)

def hexNumber? (digits : List Char) : Option Nat :=
  if digits = [] then none else digits.foldlM (fun n c ↦ (hexValue? c).map (16 * n + ·)) 0

def charOf? (n : Nat) : Option Char := if n.isValidChar then some (Char.ofNat n) else none

/-- A character given by its number, as so many hexadecimal digits or as digits in braces. Two
digits denote an octet, which without Unicode has to be a character by itself. -/
def readCodePoint? (f : Flags) (digits : Nat) (s : List Char) : Option (Char × List Char) :=
  match f.skip s with
  | '{' :: t => do
    let (body, rest) ← f.untilBrace? t
    some (← charOf? (← hexNumber? body), rest)
  | t => do
    let (n, rest) ← readHex? f digits 0 t
    if digits = 2 ∧ !f.unicode ∧ 0x80 ≤ n then none else some (← charOf? n, rest)

def readProperty? (f : Flags) (negated : Bool) (s : List Char) :
    Option (CharSet × List Char) := do
  let (name, rest) ← match f.skip s with
    | '{' :: t => f.untilBrace? t
    | c :: t => some ([c], t)
    | [] => none
  if f.unicode then some (← f.casedOr? negated (← property? name), rest) else none

def classLetter? (f : Flags) (c : Char) : Option (Option CharSet) :=
  let base? (name : String) (s : CharSet) := if f.unicode then some s else asciiClass? name
  match c with
  | 'd' => some (base? "digit" Category.decimalNumber)
  | 's' => some (base? "space" CharSet.blank)
  | 'w' => some (base? "word" CharSet.word)
  | 'D' => some (f.compl? Category.decimalNumber)
  | 'S' => some (f.compl? CharSet.blank)
  | 'W' => some (f.compl? CharSet.word)
  | _ => none

/-- The condition named in braces after `\b`; a brace that starts a repetition is left. -/
def readWordEdge? (f : Flags) (s : List Char) : Option (WordEdge × List Char) :=
  match s with
  | '{' :: t => match f.skip t with
    | [] => none
    | c :: _ =>
      if c.isAlpha || c == '-' then do
        let (name, rest) ← f.untilBrace? t
        match String.ofList name with
        | "start" => some (.start, rest)
        | "end" => some (.stop, rest)
        | "start-half" => some (.notAfter, rest)
        | "end-half" => some (.notBefore, rest)
        | _ => none
      else some (.edge, s)
  | _ => some (.edge, s)

def letterChar? (c : Char) : Option Char :=
  match c with
  | 'a' => some '\x07'
  | 'f' => some '\x0c'
  | 't' => some '\t'
  | 'n' => some '\n'
  | 'r' => some '\r'
  | 'v' => some '\x0b'
  | _ => none

def isLiteral (c : Char) : Bool :=
  isMeta c || (c.toNat < 0x80 && !c.isAlphanum && c != '<' && c != '>')

def readEscape? (f : Flags) : List Char → Option (Escape × List Char)
  | [] => none
  | c :: s =>
    let char (r : Option (Char × List Char)) := r.map fun (d, t) ↦ (Escape.char d, t)
    match c with
    | 'x' => char (readCodePoint? f 2 s)
    | 'u' => char (readCodePoint? f 4 s)
    | 'U' => char (readCodePoint? f 8 s)
    | 'p' | 'P' => (readProperty? f (c == 'P') s).map fun (set, t) ↦ (.set set, t)
    | 'A' => some (.anchor .textStart, s)
    | 'z' => some (.anchor .textEnd, s)
    | 'b' => (readWordEdge? f s).map fun (e, t) ↦ (.anchor (f.word e), t)
    | 'B' => some (.anchor (f.word .noEdge), s)
    | '<' => some (.anchor (f.word .start), s)
    | '>' => some (.anchor (f.word .stop), s)
    | _ => match classLetter? f c with
      | some set => set.map fun set ↦ (.set set, s)
      | none =>
        if isLiteral c then some (.char c, s) else (letterChar? c).map fun d ↦ (.char d, s)

end ConfidentialPolicy.Regex
