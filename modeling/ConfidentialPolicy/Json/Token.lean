import ConfidentialPolicy.Json.Numeral

namespace ConfidentialPolicy.Json

open Text

inductive Token where
  | openList
  | closeList
  | openObject
  | closeObject
  | comma
  | colon
  | null
  | bool (b : Bool)
  | num (n : Option Number)
  | str (s : Option String)
deriving DecidableEq, Repr

/-- The characters of a string read so far in reverse order, unless half of a surrogate pair is
among them. -/
abbrev SoFar := Option (List Char)

/-- What the lexer is inside of. Characters already read of the token are in reverse order. -/
inductive Mode where
  | between
  | text (done : SoFar)
  | escape (done : SoFar)
  | hex (done : SoFar) (high : Option Nat) (left value : Nat)
  | highEnd (done : SoFar) (high : Nat)
  | highEscape (done : SoFar) (high : Nat)
  | number (done : List Char)
  | word (done : List Char)
deriving DecidableEq, Repr

structure Lexer where
  mode : Mode
  tokens : List Token
deriving DecidableEq, Repr

namespace Lexer

def start : Lexer := ⟨.between, []⟩

def isGap (c : Char) : Bool := c = ' ' || c = '\n' || c = '\t' || c = '\r'

def isNumeral (c : Char) : Bool := isDigit c || c = '-' || c = '+' || c = '.' || c = 'e' || c = 'E'

def isLetter (c : Char) : Bool := 'a' ≤ c && c ≤ 'z'

def word? (s : List Char) : Option Token :=
  if s = ['n', 'u', 'l', 'l'] then some .null
  else if s = ['t', 'r', 'u', 'e'] then some (.bool true)
  else if s = ['f', 'a', 'l', 's', 'e'] then some (.bool false)
  else none

def unescape? (c : Char) : Option Char :=
  if c = '"' then some '"'
  else if c = '\\' then some '\\'
  else if c = '/' then some '/'
  else if c = 'b' then some '\x08'
  else if c = 'f' then some '\x0c'
  else if c = 'n' then some '\n'
  else if c = 'r' then some '\r'
  else if c = 't' then some '\t'
  else none

def isHigh (n : Nat) : Bool := 0xD800 ≤ n && n ≤ 0xDBFF

def isLow (n : Nat) : Bool := 0xDC00 ≤ n && n ≤ 0xDFFF

def push (done : SoFar) (c : Char) : SoFar := done.map (c :: ·)

/-- What follows the four digits of an escape: surrogates come as a high and a low one. -/
def endHex (done : SoFar) (high : Option Nat) (n : Nat) : Mode :=
  match high with
  | some h =>
    if isLow n then
      .text (push done (Char.ofNat ((h - 0xD800) * 0x400 + (n - 0xDC00) + 0x10000)))
    else .text none
  | none =>
    if isLow n then .text none
    else if isHigh n then .highEnd done n
    else .text (push done (Char.ofNat n))

def begin? (tokens : List Token) (c : Char) : Option Lexer :=
  if isGap c then some ⟨.between, tokens⟩
  else if c = '[' then some ⟨.between, .openList :: tokens⟩
  else if c = ']' then some ⟨.between, .closeList :: tokens⟩
  else if c = '{' then some ⟨.between, .openObject :: tokens⟩
  else if c = '}' then some ⟨.between, .closeObject :: tokens⟩
  else if c = ',' then some ⟨.between, .comma :: tokens⟩
  else if c = ':' then some ⟨.between, .colon :: tokens⟩
  else if c = '"' then some ⟨.text (some []), tokens⟩
  else if isDigit c ∨ c = '-' then some ⟨.number [c], tokens⟩
  else if isLetter c then some ⟨.word [c], tokens⟩
  else none

def inText (tokens : List Token) (done : SoFar) (c : Char) : Option Lexer :=
  if c = '"' then some ⟨.between, .str (done.map fun s ↦ String.ofList s.reverse) :: tokens⟩
  else if c = '\\' then some ⟨.escape done, tokens⟩
  else if c.toNat < 0x20 then none
  else some ⟨.text (push done c), tokens⟩

def inEscape (tokens : List Token) (done : SoFar) (c : Char) : Option Lexer :=
  if c = 'u' then some ⟨.hex done none 4 0, tokens⟩
  else (unescape? c).map fun d ↦ ⟨.text (push done d), tokens⟩

def number? (s : List Char) : Option Token := (Numeral.ofChars? s).map fun n ↦ .num n.toNumber?

def step (l : Lexer) (c : Char) : Option Lexer :=
  match l.mode with
  | .between => begin? l.tokens c
  | .text done => inText l.tokens done c
  | .escape done => inEscape l.tokens done c
  | .hex done high left value => do
    let n := 16 * value + (← hexValue? c)
    pure { l with mode := if left ≤ 1 then endHex done high n else .hex done high (left - 1) n }
  | .highEnd done high =>
    if c = '\\' then some { l with mode := .highEscape done high } else inText l.tokens none c
  | .highEscape done high =>
    if c = 'u' then some { l with mode := .hex done (some high) 4 0 } else inEscape l.tokens none c
  | .number done =>
    if isNumeral c then some { l with mode := .number (c :: done) }
    else do begin? ((← number? done.reverse) :: l.tokens) c
  | .word done =>
    if isLetter c then some { l with mode := .word (c :: done) }
    else do begin? ((← word? done.reverse) :: l.tokens) c

def run (l : Lexer) (s : List Char) : Option Lexer := s.foldlM step l

def finish? (l : Lexer) : Option (List Token) :=
  match l.mode with
  | .between => some l.tokens.reverse
  | .number done => (number? done.reverse).map fun t ↦ (t :: l.tokens).reverse
  | .word done => (word? done.reverse).map fun t ↦ (t :: l.tokens).reverse
  | _ => none

theorem run_append (l : Lexer) (s t : List Char) : l.run (s ++ t) = (l.run s).bind (·.run t) := by
  simp [run, List.foldlM_append]

end Lexer

def tokens? (s : List Char) : Option (List Token) := (Lexer.start.run s).bind Lexer.finish?

end ConfidentialPolicy.Json
