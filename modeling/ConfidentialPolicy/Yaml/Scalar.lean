import ConfidentialPolicy.Json.Numeral
import ConfidentialPolicy.Yaml.Token

namespace ConfidentialPolicy.Yaml

open Text

def isNullWord (s : List Char) : Bool := s ∈ ["~", "null", "Null", "NULL"].map String.toList

def bool? (s : List Char) : Option Bool :=
  if s ∈ ["true", "True", "TRUE"].map String.toList then some true
  else if s ∈ ["false", "False", "FALSE"].map String.toList then some false
  else none

def natIn? (base : Nat) (s : List Char) : Option Nat :=
  if s = [] then none
  else s.foldlM (fun n c ↦ do
    let d ← hexValue? c
    if d < base then some (base * n + d) else none) 0

/-- A leading zero before further digits makes a string. -/
def hasLeadingZero (s : List Char) : Bool :=
  let s := match s with
    | '-' :: t | '+' :: t => t
    | t => t
  match s with
  | '0' :: c :: t => (c :: t).all isDigit
  | _ => false

/-- The sign and magnitude of an integer; a base other than ten is marked after the sign. -/
def integer? (s : List Char) : Option (Bool × Nat) :=
  let (negative, body) := match s with
    | '-' :: t => (true, t)
    | '+' :: t => (false, t)
    | t => (false, t)
  let marked? := match body with
    | '0' :: 'x' :: t => natIn? 16 t
    | '0' :: 'o' :: t => natIn? 8 t
    | '0' :: 'b' :: t => natIn? 2 t
    | _ => none
  match marked? with
  | some n => some (negative, n)
  | none => if hasLeadingZero s then none else (natIn? 10 body).map (negative, ·)

def decimal? (s : List Char) : Option (Nat × Int) := do
  let whole := s.takeWhile isDigit
  let s := s.drop whole.length
  let (fraction, s) := match s with
    | '.' :: t => (t.takeWhile isDigit, t.dropWhile isDigit)
    | t => ([], t)
  if whole = [] ∧ fraction = [] then none
  let exponent ← Numeral.exponentOf? s
  let shift : Int := match exponent with
    | none => 0
    | some (true, digits) => -(natOf digits : Int)
    | some (false, digits) => natOf digits
  pure (natOf (whole ++ fraction), shift - fraction.length)

def float? (s : List Char) : Option Binary64 := do
  let (negative, body) := match s with
    | '-' :: t => (true, t)
    | '+' :: t => (false, t)
    | t => (false, t)
  let (digits, exponent) ← decimal? body
  let x ← Binary64.nearest? digits exponent
  pure { x with negative }

/-- The words for infinite numbers and for what is no number, which have no JSON value. -/
def isSpecialFloat (s : List Char) : Bool :=
  s ∈ [".inf", ".Inf", ".INF", "+.inf", "+.Inf", "+.INF", "-.inf", "-.Inf", "-.INF",
    ".nan", ".NaN", ".NAN"].map String.toList

/-- The value of an integer; a number of more than 64 bits has none. -/
def integerValue? (negative : Bool) (n : Nat) : Option Json :=
  if !negative ∧ n ≤ maxWord then some (.ofNat n)
  else if negative ∧ n ≤ Nat.pow 2 63 then some (.ofInt (-n))
  else none

def isLongInteger (negative : Bool) (n : Nat) : Bool :=
  n < Nat.pow 2 128 && (!negative || n ≤ Nat.pow 2 127)

def floatValue? (s : List Char) : Option Json :=
  if isSpecialFloat s then some .null else (float? s).map fun x ↦ .num (.float x)

def otherValue (s : List Char) : Json :=
  if isSpecialFloat s then .null
  else if hasLeadingZero s then .str (String.ofList s)
  else (floatValue? s).getD (.str (String.ofList s))

/-- An integer that fits 128 bits but no 64-bit word has no value. -/
def resolve? (s : List Char) : Option Json :=
  if s = [] ∨ isNullWord s then some .null
  else match bool? s with
    | some b => some (.bool b)
    | none => match integer? s with
      | some (negative, n) =>
        (integerValue? negative n).or
          (if isLongInteger negative n then none else some (otherValue s))
      | none => some (otherValue s)

structure Scalar where
  text : List Char
  isPlain : Bool
  tag : Option Tag
deriving DecidableEq, Repr

namespace Scalar

def empty (tag : Option Tag) : Scalar := ⟨[], true, tag⟩

def untagged? (s : Scalar) : Option Json :=
  if s.isPlain then resolve? s.text else some (.str (String.ofList s.text))

def value? (s : Scalar) : Option Json :=
  match s.tag with
  | none | some .bare => s.untagged?
  | some .bool => (bool? s.text).map .bool
  | some .int => do
    let (negative, n) ← integer? s.text
    integerValue? negative n
  | some .float => floatValue? s.text
  | some .null => if isNullWord s.text then some .null else none
  | some .own => none
  | some .other => some (.str (String.ofList s.text))

end Scalar

end ConfidentialPolicy.Yaml
