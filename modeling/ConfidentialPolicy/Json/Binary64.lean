namespace ConfidentialPolicy

/-- The number `± significand · 2 ^ exponent`. Numbers made by `Binary64.ofRatio?` have fewer than
54 bits, an exponent of at least `-1074`, and 53 bits unless the exponent is the least one. -/
structure Binary64 where
  negative : Bool
  significand : Nat
  exponent : Int
deriving DecidableEq, Repr, Inhabited

namespace Binary64

def minExponent : Int := -1074

def maxExponent : Int := 971

def zero (negative : Bool) : Binary64 := ⟨negative, 0, minExponent⟩

def isZero (x : Binary64) : Bool := x.significand == 0

def same (x y : Binary64) : Bool := x == y || (x.isZero && y.isZero)

def scaled (num den : Nat) (e : Int) : Nat × Nat :=
  if e < 0 then (num * Nat.pow 2 (-e).toNat, den) else (num, den * Nat.pow 2 e.toNat)

/-- The natural number nearest to a ratio, a tie going to the even one. -/
def roundEven (num den : Nat) : Nat :=
  let q := num / den
  let twice := 2 * (num % den)
  if twice < den then q else if den < twice then q + 1 else q + q % 2

/-- The number nearest to `num / den`; none if it would exceed the largest finite number. -/
def ofRatio? (num den : Nat) : Option Binary64 :=
  if num = 0 then some (zero false) else
    let guess : Int := (num.log2 : Int) - den.log2 - 52
    let (n, d) := scaled num den guess
    let e := max (if n / d < Nat.pow 2 52 then guess - 1 else guess) minExponent
    let (n, d) := scaled num den e
    let m := roundEven n d
    let (m, e) := if m = Nat.pow 2 53 then (Nat.pow 2 52, e + 1) else (m, e)
    if maxExponent < e then none else some ⟨false, m, e⟩

def ratio (x : Binary64) : Nat × Nat :=
  if x.exponent < 0 then (x.significand, Nat.pow 2 (-x.exponent).toNat)
  else (x.significand * Nat.pow 2 x.exponent.toNat, 1)

def ofNat? (n : Nat) : Option Binary64 := ofRatio? n 1

def timesTenPow? (x : Binary64) (k : Nat) : Option Binary64 := do
  let t ← ofNat? (Nat.pow 10 k)
  ofRatio? (x.ratio.1 * t.ratio.1) (x.ratio.2 * t.ratio.2)

def overTenPow? (x : Binary64) (k : Nat) : Option Binary64 := do
  let t ← ofNat? (Nat.pow 10 k)
  ofRatio? (x.ratio.1 * t.ratio.2) (x.ratio.2 * t.ratio.1)

def maxTenPow : Nat := 308

/-- Scales by powers of ten of at most `10 ^ 308`, rounding after each step. -/
def scaleDown? (x : Binary64) : Nat → Nat → Option Binary64
  | 0, _ => some x
  | steps + 1, k =>
    if k ≤ maxTenPow then x.overTenPow? k
    else if x.isZero then some x
    else do (← x.overTenPow? maxTenPow).scaleDown? steps (k - maxTenPow)

/-- `significand · 10 ^ exponent` with one rounding per scaling step; none if it overflows. -/
def ofDecimal? (negative : Bool) (significand : Nat) (exponent : Int) : Option Binary64 := do
  let x ← ofNat? significand
  let y ←
    if exponent < 0 then x.scaleDown? 6 (-exponent).toNat
    else if exponent.toNat ≤ maxTenPow then x.timesTenPow? exponent.toNat
    else if x.isZero then some x else none
  pure { y with negative }

/-- The number nearest to `digits · 10 ^ exponent`; none if it is too large. Exponents far beyond
the range of the numbers are decided by the place of the leading digit. -/
def nearest? (digits : Nat) (exponent : Int) : Option Binary64 :=
  let places : Int := (Nat.toDigits 10 digits).length + exponent
  if digits = 0 ∨ places < -330 then some (zero false)
  else if 310 < places then none
  else if exponent < 0 then ofRatio? digits (Nat.pow 10 (-exponent).toNat)
  else ofRatio? (digits * Nat.pow 10 exponent.toNat) 1

structure Decimal where
  digits : Nat
  exponent : Int
deriving DecidableEq, Repr, Inhabited

def tenPow (k : Int) : Nat × Nat :=
  if k < 0 then (1, Nat.pow 10 (-k).toNat) else (Nat.pow 10 k.toNat, 1)

def digitCount (n : Nat) : Nat := (Nat.toDigits 10 n).length

/-- The place of the leading digit of `num / den`: the least `p` with `num / den < 10 ^ p`. -/
def leadingPlace (num den : Nat) : Int :=
  if den ≤ num then digitCount (num / den) else 1 - digitCount ((den - 1) / num)

/-- Whether `a · 10 ^ k` rounds to the positive number `x`: it lies within half a unit in the last
place, a tie belonging to the even significand. Below a power of two the unit is half as large. -/
def roundsTo (x : Binary64) (a : Nat) (k : Int) : Bool :=
  let (num, den) := ({ x with significand := 1 } : Binary64).ratio
  let (tn, td) := tenPow k
  let below := if x.significand = Nat.pow 2 52 ∧ minExponent < x.exponent then 1 else 2
  let low := (4 * x.significand - below) * num * td
  let high := (4 * x.significand + 2) * num * td
  let centre := 4 * a * tn * den
  if x.significand % 2 = 0 then low ≤ centre && centre ≤ high else low < centre && centre < high

/-- The numeral with `places` digits nearest to the positive number `x`, a tie going to the even
digit, if it rounds to `x`. -/
def withPlaces? (x : Binary64) (places : Nat) : Option Decimal :=
  let (num, den) := x.ratio
  let k := leadingPlace num den - places
  let (tn, td) := tenPow k
  let a := (num * td) / (den * tn)
  let nearest := if roundEven (num * td) (den * tn) = a then [a, a + 1] else [a + 1, a]
  (nearest.find? (x.roundsTo · k)).map (⟨·, k⟩)

def Decimal.strip (d : Decimal) : Nat → Decimal
  | 0 => d
  | fuel + 1 =>
    if d.digits ≠ 0 ∧ d.digits % 10 = 0 then (⟨d.digits / 10, d.exponent + 1⟩ : Decimal).strip fuel
    else d

/-- The shortest numeral that rounds to the positive number `x`; 17 digits always suffice. -/
def shortest (x : Binary64) : Decimal :=
  match (List.range 17).findSome? (fun n ↦ x.withPlaces? (n + 1)) with
  | some d => d.strip 20
  | none => ⟨x.significand, 0⟩

/-- How a numeral is laid out: positionally while the point falls after at most `maxPlaces` digits
and at most `maxZeros` zeros follow it, otherwise with an exponent. -/
structure Layout where
  maxPlaces : Int
  maxZeros : Int

def layout : Layout := ⟨16, 5⟩

def exponentText (e : Int) : List Char :=
  'e' :: (if e < 0 then '-' else '+') :: Nat.toDigits 10 e.natAbs

def Layout.text (l : Layout) (d : Decimal) : List Char :=
  let digits := Nat.toDigits 10 d.digits
  let point : Int := digits.length + d.exponent
  if 0 ≤ d.exponent ∧ point ≤ l.maxPlaces then
    digits ++ List.replicate d.exponent.toNat '0' ++ ['.', '0']
  else if 0 < point ∧ point ≤ l.maxPlaces then
    digits.take point.toNat ++ '.' :: digits.drop point.toNat
  else if -l.maxZeros < point ∧ point ≤ 0 then
    '0' :: '.' :: (List.replicate (-point).toNat '0' ++ digits)
  else match digits with
    | [c] => c :: exponentText (point - 1)
    | c :: cs => c :: '.' :: (cs ++ exponentText (point - 1))
    | [] => []

def text (x : Binary64) : List Char :=
  let magnitude := if x.isZero then ['0', '.', '0'] else layout.text x.shortest
  if x.negative then '-' :: magnitude else magnitude

end Binary64

end ConfidentialPolicy
