import ConfidentialPolicy.Character.Property

namespace ConfidentialPolicy

inductive Regex.WordEdge where
  | edge
  | noEdge
  | start
  | stop
  | notAfter
  | notBefore
deriving DecidableEq, Repr

/-- A condition on a place between characters. Where a carriage return and a line feed end a line
together, there is no line end between them. -/
inductive Regex.Anchor where
  | textStart
  | textEnd
  | lineStart (crlf : Bool)
  | lineEnd (crlf : Bool)
  | word (e : Regex.WordEdge) (ascii : Bool)
deriving DecidableEq, Repr

inductive Regex where
  | empty
  | one (set : CharSet)
  | anchor (a : Regex.Anchor)
  | cat (r s : Regex)
  | alt (r s : Regex)
  | repeat (r : Regex) (least : Nat) (most : Option Nat)
  | capture (r : Regex)
deriving Repr, Inhabited

namespace Regex

/-- Places of a text, as the bits of a number: place `i` lies before the character `i`. -/
abbrev Places := Nat

def place (i : Nat) : Places := 1 <<< i

def allPlaces (n : Nat) : Places := (1 <<< (n + 1)) - 1

def selectPlaces (p : Nat → Bool) (n : Nat) (starts : Places) : Places :=
  (List.range (n + 1)).foldl (fun s i ↦ if starts.testBit i && p i then s ||| place i else s) 0

def WordEdge.holds (e : WordEdge) (afterWord beforeWord : Bool) : Bool :=
  match e with
  | .edge => afterWord != beforeWord
  | .noEdge => afterWord == beforeWord
  | .start => !afterWord && beforeWord
  | .stop => afterWord && !beforeWord
  | .notAfter => !afterWord
  | .notBefore => !beforeWord

def Anchor.holds (a : Anchor) (text : Array Char) (i : Nat) : Bool :=
  let before := if i = 0 then none else text[i - 1]?
  let after := text[i]?
  match a with
  | .textStart => before.isNone
  | .textEnd => after.isNone
  | .lineStart false => before.isNone || before == some '\n'
  | .lineStart true =>
    before.isNone || before == some '\n' || (before == some '\r' && after != some '\n')
  | .lineEnd false => after.isNone || after == some '\n'
  | .lineEnd true =>
    after.isNone || after == some '\r' || (after == some '\n' && before != some '\r')
  | .word e ascii =>
    let inWord := if ascii then isAsciiWordChar else isWordChar
    e.holds (before.any inWord) (after.any inWord)

/-- Applies a map of places `k` times, or until nothing changes. -/
def iterate (f : Places → Places) : Nat → Places → Places
  | 0, s => s
  | k + 1, s => let t := f s; if t = s then s else iterate f k t

/-- The places reached from `new` by applying a map of places up to `k` times, and the places
`seen` before; a place is followed only once. -/
def reach (f : Places → Places) : Nat → Places → Places → Places
  | 0, seen, _ => seen
  | k + 1, seen, new =>
    let next := (seen ||| f new) ^^^ seen
    if next = 0 then seen else reach f k (seen ||| next) next

/-- The places where a match may end that starts at one of the places `starts`. -/
def ends (text : Array Char) : Regex → Places → Places
  | .empty, starts => starts
  | .one set, starts =>
    (selectPlaces (fun i ↦ text[i]?.any set.contains) text.size starts) <<< 1
  | .anchor a, starts => selectPlaces (a.holds text) text.size starts
  | .cat r s, starts => ends text s (ends text r starts)
  | .alt r s, starts => ends text r starts ||| ends text s starts
  | .repeat r least most, starts =>
    let s := iterate (ends text r) least starts
    reach (ends text r) (most.elim (text.size + 1) (· - least)) s s
  | .capture r, starts => ends text r starts

def finds (r : Regex) (text : String) : Bool :=
  let chars := text.toList.toArray
  ends chars r (allPlaces chars.size) ≠ 0

end Regex

end ConfidentialPolicy
