import SchemaApi.Text.Digit
/-!
Floating-point numbers of 53 binary digits, as exact pairs of a mantissa and an exponent.

A decimal numeral is rounded to the nearest number, a tie going to the even mantissa. A number is
written with the fewest decimal digits that read back as it, and of those with the nearest.
-/

namespace SchemaApi

/-- `± mantissa · 2 ^ exponent`, or beyond all such -/
inductive Binary64 where
  | finite (negative : Bool) (mantissa : Nat) (exponent : Int)
  | infinite (negative : Bool)
  deriving DecidableEq, Repr

namespace Binary64

/-- the least exponent of a number -/
def minExponent : Int := -1074

/-- the greatest exponent of a number -/
def maxExponent : Int := 971

/-- the least mantissa of a number above the smallest ones; every mantissa is below twice it -/
def leastNormal : Nat := Nat.pow 2 52

def zero (negative : Bool) : Binary64 := .finite negative 0 minExponent

/-- a quotient rounded to the nearest whole number, a tie to the even one -/
def roundQuotient (num den : Nat) : Nat :=
  let q := num / den
  let r := num % den
  if 2 * r < den then q else if den < 2 * r then q + 1 else q + q % 2

/-- numerator and denominator of `n · base ^ e` -/
def scaled (base n : Nat) (e : Int) : Nat × Nat :=
  if 0 ≤ e then (n * Nat.pow base e.toNat, 1) else (n, Nat.pow base (-e).toNat)

/-- the number nearest to a positive fraction -/
def ofFraction (negative : Bool) (num den : Nat) : Binary64 :=
  let guess := (num.log2 : Int) - (den.log2 : Int) - 53
  let atExponent (e : Int) : Nat × Nat :=
    if 0 ≤ e then (num, den * Nat.pow 2 e.toNat) else (num * Nat.pow 2 (-e).toNat, den)
  let fits (e : Int) : Bool := (atExponent e).1 / (atExponent e).2 < 2 * leastNormal
  let e := max minExponent (if fits guess then guess else guess + 1)
  let m := roundQuotient (atExponent e).1 (atExponent e).2
  let (m, e) := if m = 2 * leastNormal then (leastNormal, e + 1) else (m, e)
  if maxExponent < e then .infinite negative else .finite negative m e

/-- the number nearest to `digits · 10 ^ exponent` -/
def ofDecimal (negative : Bool) (digits : Nat) (exponent : Int) : Binary64 :=
  let places : Int := (Nat.toDigits 10 digits).length
  if digits = 0 then zero negative
  else if 400 < exponent + places then .infinite negative
  else if exponent + places < -400 then zero negative
  else
    let (num, den) := scaled 10 digits exponent
    ofFraction negative num den

def neg : Binary64 → Binary64
  | .finite s m e => .finite (!s) m e
  | .infinite s => .infinite (!s)

/-- the decimal exponent of a positive fraction: `10 ^ k ≤ num / den < 10 ^ (k + 1)` -/
def decimalExponent (num den : Nat) : Int :=
  let guess := ((Nat.toDigits 10 num).length : Int) - (Nat.toDigits 10 den).length
  let reaches (k : Int) : Bool :=
    if 0 ≤ k then den * Nat.pow 10 k.toNat ≤ num else den ≤ num * Nat.pow 10 (-k).toNat
  if reaches guess then guess else guess - 1

/-- The point of the decimal grid `10 ^ step` that is nearest to `value` among those between `low`
and `high`; all three are numerators over `den`. -/
def gridPoint? (low value high : Nat) (closed : Bool) (den : Nat) (step : Int) : Option Nat :=
  let at10 (n : Nat) : Nat := if 0 ≤ step then n * Nat.pow 10 step.toNat * den else n * den
  let scaled (n : Nat) : Nat := if 0 ≤ step then n else n * Nat.pow 10 (-step).toNat
  let inside (n : Nat) : Bool :=
    if closed then scaled low ≤ at10 n && at10 n ≤ scaled high
    else scaled low < at10 n && at10 n < scaled high
  let below := scaled value / at10 1
  match inside below, inside (below + 1) with
  | true, true =>
    let down := scaled value - at10 below
    let up := at10 (below + 1) - scaled value
    if down < up then some below else if up < down then some (below + 1)
    else some (below + below % 2)
  | true, false => some below
  | false, true => some (below + 1)
  | false, false => none

/-- The shortest decimal that reads back as `mantissa · 2 ^ exponent`: its digits and the exponent
of the last one. -/
def shortest (mantissa : Nat) (exponent : Int) : Nat × Int :=
  let (num, den) := scaled 2 (4 * mantissa) (exponent - 2)
  let unit := num / (4 * mantissa)
  let lowGap := if mantissa = leastNormal ∧ minExponent < exponent then unit else 2 * unit
  let top := decimalExponent num den
  let closed := mantissa % 2 = 0
  let tryDigits (count : Nat) : Option (Nat × Int) :=
    let step := top - count + 1
    (gridPoint? (num - lowGap) num (num + 2 * unit) closed den step).map (·, step)
  ((List.range 17).findSome? fun i => tryDigits (i + 1)).getD (num / den, 0)

/-- drops the zeros at the end of a numeral -/
def trimZeros : List Char → List Char := fun digits =>
  match (digits.reverse.dropWhile (· = '0')).reverse with
  | [] => ['0']
  | kept => kept

/-- how numbers are laid out as text -/
structure Layout where
  /-- the least decimal exponent written without an exponent part -/
  minPlain : Int
  /-- fewest digits of the exponent part -/
  exponentWidth : Nat
  deriving Repr

/-- Messages and documents: plain from `1e-04` up, and exponents of two digits at least. -/
def Layout.padded : Layout := ⟨-4, 2⟩

/-- Compact documents: plain from `1e-5` up, and exponents without padding below. -/
def Layout.unpadded : Layout := ⟨-5, 1⟩

/-- the decimal exponent from which on an exponent part is written -/
def maxPlain : Int := 16

/-- an exponent part: a sign, and digits padded with zeros -/
def exponentText (width : Nat) (e : Int) : List Char :=
  let digits := Nat.toDigits 10 e.natAbs
  'e' :: (if e < 0 then '-' else '+') :: (List.replicate (width - digits.length) '0' ++ digits)

/-- significant digits with their leading decimal exponent, as text -/
def digitsText (layout : Layout) (digits : List Char) (lead : Int) : List Char :=
  if layout.minPlain ≤ lead ∧ lead < maxPlain then
    if lead < 0 then
      '0' :: '.' :: (List.replicate (-lead - 1).toNat '0' ++ digits)
    else
      let whole := lead.toNat + 1
      if digits.length ≤ whole then
        digits ++ List.replicate (whole - digits.length) '0' ++ ['.', '0']
      else
        digits.take whole ++ '.' :: digits.drop whole
  else
    digits.take 1 ++ (if digits.length ≤ 1 then [] else '.' :: digits.drop 1)
      ++ exponentText layout.exponentWidth lead

/-- the text of a number; infinities have none in some documents -/
def text (layout : Layout) : Binary64 → String
  | .infinite negative => if negative then "-inf" else "inf"
  | .finite negative m e =>
    let body :=
      if m = 0 then ['0', '.', '0']
      else
        let (n, step) := shortest m e
        let digits := Nat.toDigits 10 n
        digitsText layout (trimZeros digits) (step + digits.length - 1)
    String.ofList (if negative then '-' :: body else body)

/-- the whole number equal to this one, if there is one -/
def toInt? : Binary64 → Option Int
  | .infinite _ => none
  | .finite negative m e =>
    let (num, den) := scaled 2 m e
    if num % den = 0 then
      some (if negative then -((num / den : Nat) : Int) else ((num / den : Nat) : Int))
    else none

end Binary64

/-! ### Reading numerals -/

/-- a decimal numeral: digits before and after the point, and the exponent part -/
structure Numeral where
  whole : List Char
  fraction : List Char
  exponent : Int
  deriving Repr

namespace Numeral

/-- the value of an exponent part `e±digits`, zero when there is none -/
def exponentOf : List Char → Int
  | _ :: '-' :: digits => -(Text.decimalNumber digits : Int)
  | _ :: '+' :: digits => (Text.decimalNumber digits : Int)
  | _ :: digits => (Text.decimalNumber digits : Int)
  | [] => 0

/-- splits the text of a numeral at its point and exponent letter -/
def ofChars (cs : List Char) : Numeral :=
  let isMark (c : Char) : Bool := c = 'e' || c = 'E'
  let mantissa := cs.takeWhile fun c => !isMark c
  ⟨mantissa.takeWhile (· ≠ '.'), (mantissa.dropWhile (· ≠ '.')).drop 1,
    exponentOf (cs.dropWhile fun c => !isMark c)⟩

/-- the floating-point number nearest to a numeral -/
def toBinary64 (n : Numeral) : Binary64 :=
  Binary64.ofDecimal false (Text.decimalNumber (n.whole ++ n.fraction))
    (n.exponent - n.fraction.length)

end Numeral

end SchemaApi
