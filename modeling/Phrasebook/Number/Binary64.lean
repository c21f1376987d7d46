import Phrasebook.Text.Basic

/-!
# Binary floating numbers of 64 bits

A finite number is kept as a sign, a mantissa and a power of two, so that comparison, rounding and
printing are exact arithmetic on natural numbers. Rounding goes to the nearest number that has
53 bits and no power below -1074, from halfway to the even mantissa, and to infinity beyond the
greatest finite number.
-/

namespace Phrasebook

inductive Binary64 where
  | nan
  | infinite (negative : Bool)
  /-- The value is the mantissa times two to the power, with its sign; zero keeps a sign too. -/
  | finite (negative : Bool) (mantissa : Nat) (power : Int)
  deriving DecidableEq, Repr

namespace Binary64

def zero (negative : Bool) : Binary64 :=
  finite negative 0 (-1074)

def neg : Binary64 → Binary64
  | nan => nan
  | infinite s => infinite !s
  | finite s m e => finite (!s) m e

/-- A quotient rounded to the nearest natural number, from halfway to the even one. -/
def roundDiv (num den : Nat) : Nat :=
  let q := num / den
  let r := num % den
  if 2 * r < den then q
  else if den < 2 * r then q + 1
  else if q % 2 = 0 then q else q + 1

/-- A positive fraction divided by two to a power, as a fraction again. -/
def scaled (num den : Nat) (power : Int) : Nat × Nat :=
  if power < 0 then (num <<< power.natAbs, den) else (num, den <<< power.natAbs)

def ofRatio (negative : Bool) (num den : Nat) : Binary64 :=
  if num = 0 then zero negative
  else
    let guess : Int := (Nat.log2 num : Int) - Nat.log2 den - 53
    let least : Int := max guess (-1074)
    let (n, d) := scaled num den least
    let power := if 1 <<< 53 ≤ n / d then least + 1 else least
    let (n, d) := scaled num den power
    let m := roundDiv n d
    let (m, power) := if m = 1 <<< 53 then (1 <<< 52, power + 1) else (m, power)
    if 971 < power then infinite negative else finite negative m power

def ofInt (n : Int) : Binary64 :=
  ofRatio (n < 0) n.natAbs 1

/-- The number nearest to a decimal: digits, and the power of ten by which they are multiplied.
Powers far beyond the range are answered without being computed. -/
def ofDecimal (negative : Bool) (digits : Nat) (power : Int) : Binary64 :=
  if digits = 0 then zero negative
  else
    let size : Int := (Nat.toDigits 10 digits).length + power
    if 400 < size then infinite negative
    else if size < -400 then zero negative
    else if power < 0 then ofRatio negative digits (Nat.pow 10 power.natAbs)
    else ofRatio negative (digits * Nat.pow 10 power.natAbs) 1

/-- A mantissa brought to a lower power of two, with its sign. -/
def aligned (negative : Bool) (m : Nat) (e least : Int) : Int :=
  let n : Int := (m <<< (e - least).natAbs : Nat)
  if negative then -n else n

def ofScaled (n : Int) (power : Int) : Binary64 :=
  if power < 0 then ofRatio (n < 0) n.natAbs (1 <<< power.natAbs)
  else ofRatio (n < 0) (n.natAbs <<< power.natAbs) 1

def add : Binary64 → Binary64 → Binary64
  | nan, _ => nan
  | _, nan => nan
  | infinite s, infinite t => if s = t then infinite s else nan
  | infinite s, _ => infinite s
  | _, infinite t => infinite t
  | finite s m e, finite t n f =>
    if m = 0 ∧ n = 0 then zero (s && t)
    else
      let least := min e f
      ofScaled (aligned s m e least + aligned t n f least) least

def mul : Binary64 → Binary64 → Binary64
  | nan, _ => nan
  | _, nan => nan
  | infinite s, infinite t => infinite (s != t)
  | infinite s, finite t n _ => if n = 0 then nan else infinite (s != t)
  | finite s m _, infinite t => if m = 0 then nan else infinite (s != t)
  | finite s m e, finite t n f =>
    if m * n = 0 then zero (s != t)
    else if e + f < 0 then ofRatio (s != t) (m * n) (1 <<< (e + f).natAbs)
    else ofRatio (s != t) ((m * n) <<< (e + f).natAbs) 1

/-- Whether two numbers have the same value. The zeros of the two signs do; a number that is not
a number has none. -/
def same : Binary64 → Binary64 → Bool
  | nan, _ => false
  | _, nan => false
  | infinite s, infinite t => s == t
  | finite s m e, finite t n f =>
    let least := min e f
    aligned s m e least == aligned t n f least
  | _, _ => false

def sameInt (x : Binary64) (n : Int) : Bool :=
  match x with
  | finite s m e =>
    let least := min e 0
    aligned s m e least == n * (1 <<< least.natAbs : Nat)
  | _ => false

end Binary64

end Phrasebook
