import ConfidentialPolicy.Character.Fold
import ConfidentialPolicy.Regex.Basic
import ConfidentialPolicy.Text.Digits

namespace ConfidentialPolicy.Regex

open Text

structure Flags where
  anyCase : Bool := false
  multiLine : Bool := false
  dotAll : Bool := false
  verbose : Bool := false
  crlf : Bool := false
  unicode : Bool := true
deriving DecidableEq, Repr

namespace Flags

/-- The characters from the start on that satisfy `p`, and the rest. In verbose mode blanks, and
comments from `#` to the end of the line, do not count. -/
def span (f : Flags) (p : Char → Bool) (inComment : Bool) : List Char → List Char × List Char
  | [] => ([], [])
  | c :: s =>
    if inComment then f.span p (c != '\n') s
    else if f.verbose && isBlank c then f.span p false s
    else if f.verbose && c == '#' then f.span p true s
    else if p c then
      let (taken, rest) := f.span p false s
      (c :: taken, rest)
    else ([], c :: s)

def skip (f : Flags) (s : List Char) : List Char := (f.span (fun _ ↦ false) false s).2

def untilBrace? (f : Flags) (s : List Char) : Option (List Char × List Char) :=
  match f.span (· != '}') false s with
  | (body, _ :: rest) => some (body, rest)
  | (_, []) => none

def set? (f : Flags) (letter : Char) (on : Bool) : Option Flags :=
  match letter with
  | 'i' => some { f with anyCase := on }
  | 'm' => some { f with multiLine := on }
  | 's' => some { f with dotAll := on }
  | 'x' => some { f with verbose := on }
  | 'R' => some { f with crlf := on }
  | 'u' => some { f with unicode := on }
  | 'U' => some f
  | _ => none

/-- Reads flags up to a closing parenthesis or a colon: the flags, what ended them, whether there
were any, and the rest. No letter may come twice, and the minus sign only once and before a
letter. -/
def read? (f : Flags) (seen : List Char) (on dangling : Bool) :
    List Char → Option (Flags × Char × Bool × List Char)
  | [] => none
  | c :: s =>
    if c = ':' ∨ c = ')' then if dangling then none else some (f, c, !seen.isEmpty, s)
    else if c ∈ seen then none
    else if c = '-' then f.read? (c :: seen) false true s
    else do (← f.set? c on).read? (c :: seen) on false s

def cased (f : Flags) (s : CharSet) : CharSet :=
  if !f.anyCase then s else if f.unicode then s.anyCase else s.anyAsciiCase

/-- The complement of a set; without Unicode it would hold octets that are no characters. -/
def compl? (f : Flags) (s : CharSet) : Option CharSet := if f.unicode then some s.compl else none

def casedOr? (f : Flags) (negated : Bool) (s : CharSet) : Option CharSet :=
  if negated then f.compl? (f.cased s) else some (f.cased s)

def literal (f : Flags) (c : Char) : Regex := .one (f.cased (.one c))

def dot? (f : Flags) : Option CharSet :=
  f.compl? <|
    if f.dotAll then .empty
    else if f.crlf then (CharSet.one '\n').union (.one '\r')
    else .one '\n'

def word (f : Flags) (e : WordEdge) : Anchor := .word e !f.unicode

def start (f : Flags) : Anchor := if f.multiLine then .lineStart f.crlf else .textStart

def stop (f : Flags) : Anchor := if f.multiLine then .lineEnd f.crlf else .textEnd

end Flags

end ConfidentialPolicy.Regex
