import ConfidentialPolicy.Json.Basic
import ConfidentialPolicy.Text.Digits

namespace ConfidentialPolicy

open Text

structure Numeral where
  negative : Bool
  whole : List Char
  fraction : Option (List Char)
  exponent : Option (Bool × List Char)
deriving DecidableEq, Repr

namespace Numeral

def fractionOf? : List Char → Option (Option (List Char) × List Char)
  | '.' :: s =>
    let digits := s.takeWhile isDigit
    if digits = [] then none else some (some digits, s.dropWhile isDigit)
  | s => some (none, s)

def exponentOf? : List Char → Option (Option (Bool × List Char))
  | [] => some none
  | c :: s =>
    if c = 'e' ∨ c = 'E' then
      let (negative, digits) := match s with
        | '+' :: t => (false, t)
        | '-' :: t => (true, t)
        | t => (false, t)
      if digits ≠ [] ∧ digits.all isDigit then some (some (negative, digits)) else none
    else none

/-- Splits a numeral; the whole part has no leading zero unless it is zero. -/
def ofChars? (s : List Char) : Option Numeral := do
  let (negative, s) := match s with
    | '-' :: t => (true, t)
    | t => (false, t)
  let whole := s.takeWhile isDigit
  if whole = [] ∨ (whole.head? = some '0' ∧ whole ≠ ['0']) then none
  let (fraction, s) ← fractionOf? (s.dropWhile isDigit)
  let exponent ← exponentOf? s
  pure { negative, whole, fraction, exponent }

def leading (n : Nat) : List Char → Nat × List Char
  | [] => (n, [])
  | c :: s =>
    if 10 * n + digitValue c ≤ maxWord then leading (10 * n + digitValue c) s else (n, c :: s)

def maxExponent : Nat := Nat.pow 2 31 - 1

/-- The nearest value: leading digits that fit a word, scaled by a power of ten. Digits that no
longer fit count as zeros before the point and are dropped after it. -/
def toFloat? (n : Numeral) : Option Binary64 :=
  let (whole, dropped) := leading 0 n.whole
  let (significand, fraction) := match n.fraction with
    | none => (whole, 0)
    | some digits =>
      let (m, left) := leading whole digits
      (m, digits.length - left.length)
  let start : Int := (dropped.length : Int) - fraction
  match n.exponent with
  | none => Binary64.ofDecimal? n.negative significand start
  | some (negative, digits) =>
    let e := natOf digits
    if maxExponent < e then
      if significand ≠ 0 ∧ !negative then none else some (Binary64.zero n.negative)
    else Binary64.ofDecimal? n.negative significand (if negative then start - e else start + e)

/-- An integer where it fits a word, otherwise a floating-point number. -/
def toNumber? (n : Numeral) : Option Number :=
  let m := natOf n.whole
  let plain := n.fraction = none ∧ n.exponent = none
  if plain ∧ !n.negative ∧ m ≤ maxWord then some (.int m)
  else if plain ∧ n.negative ∧ 0 < m ∧ m ≤ Nat.pow 2 63 then some (.int (-m))
  else n.toFloat?.map .float

end Numeral

end ConfidentialPolicy
