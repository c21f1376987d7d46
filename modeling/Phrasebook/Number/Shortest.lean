import Phrasebook.Number.Binary64

/-!
# The shortest numeral of a floating number

A floating number is written with the fewest digits that read back as the same number, and with
the nearest of those to its value. The numbers that read back as a finite number form an interval
of which it knows the ends: halfway to its neighbours, which belong to it when its mantissa is even.
For one digit, two, and so on up to seventeen, the two decimals on either side of the value are
tried; seventeen digits always suffice.
-/

namespace Phrasebook.Binary64

/-- The reals that read back as a number, as fractions of one denominator. -/
structure Interval where
  low : Nat
  value : Nat
  high : Nat
  den : Nat
  closed : Bool

/-- The interval of a positive finite number, in quarters of a unit of its last place. Below a
power of two the neighbour is twice as near. -/
def interval (mantissa : Nat) (power : Int) : Interval :=
  let below := if mantissa = 1 <<< 52 ∧ -1074 < power then 1 else 2
  let closed := mantissa % 2 == 0
  let (unit, den) := if power < 2 then (1, 1 <<< (2 - power).natAbs)
    else (1 <<< (power - 2).natAbs, 1)
  ⟨(4 * mantissa - below) * unit, 4 * mantissa * unit, (4 * mantissa + 2) * unit, den, closed⟩

def Interval.holds (i : Interval) (num den : Nat) : Bool :=
  if i.closed then i.low * den ≤ num * i.den && num * i.den ≤ i.high * den
  else i.low * den < num * i.den && num * i.den < i.high * den

/-- The power of ten just above a positive fraction: the value lies in `[10^(k-1), 10^k)`. -/
def decimalExponent (num den : Nat) : Int :=
  if den ≤ num then (Nat.toDigits 10 (num / den)).length
  else
    let k := (Nat.toDigits 10 (den / num)).length
    if den ≤ num * Nat.pow 10 (k - 1) then 2 - k else 1 - k

def decimalRatio (digits : Nat) (power : Int) : Nat × Nat :=
  if power < 0 then (digits, Nat.pow 10 power.natAbs) else (digits * Nat.pow 10 power.natAbs, 1)

/-- The decimal with a given last place that reads back and is nearest, if one does. -/
def nearestOn (i : Interval) (power : Int) : Option Nat :=
  let (n, d) := if power < 0 then (i.value * Nat.pow 10 power.natAbs, i.den)
    else (i.value, i.den * Nat.pow 10 power.natAbs)
  let q := n / d
  let reads (x : Nat) : Bool :=
    let (num, den) := decimalRatio x power
    i.holds num den
  let rest := n % d
  match reads q, reads (q + 1) with
  | true, true =>
    if 2 * rest < d then some q
    else if d < 2 * rest then some (q + 1)
    else if q % 2 = 0 then some q else some (q + 1)
  | true, false => some q
  | false, true => some (q + 1)
  | false, false => none

/-- The digits and the last place of the first grid, from a given place downwards, on which a
decimal reads back. -/
def firstGrid (i : Interval) : Nat → Int → Nat × Int
  | 0, power => ((nearestOn i power).getD 0, power)
  | more + 1, power =>
    match nearestOn i power with
    | some x => (x, power)
    | none => firstGrid i more (power - 1)

/-- The significant digits of a positive number, none of them a zero at the end, and the place of
the point after the first of them. -/
def shortest (mantissa : Nat) (power : Int) : Text × Int :=
  let i := interval mantissa power
  let k := decimalExponent i.value i.den
  let (digits, place) := firstGrid i 16 (k - 1)
  let ds := Text.ofNat digits
  let point : Int := ds.length + place
  ((ds.reverse.dropWhile (· = char '0')).reverse, point)

/-- Digits with a point at a place between or around them, and at least one digit on each side. -/
def positional (ds : Text) (point : Int) : Text :=
  if point ≤ 0 then char '0' :: char '.' :: List.replicate point.natAbs (char '0') ++ ds
  else if ds.length ≤ point.natAbs then
    ds ++ List.replicate (point.natAbs - ds.length) (char '0') ++ [char '.', char '0']
  else ds.take point.natAbs ++ char '.' :: ds.drop point.natAbs

/-- Digits with the point after the first one, and a power of ten of at least two digits. -/
def exponential (ds : Text) (point : Int) : Text :=
  let e := point - 1
  let mark := char (if e < 0 then '-' else '+')
  let fraction := match ds.drop 1 with
    | [] => []
    | rest => char '.' :: rest
  ds.take 1 ++ fraction ++ char 'e' :: mark :: Text.padded 10 2 e.natAbs

/-- The numeral of a number. It is positional from 0.0001 up to sixteen digits before the point. -/
def numeral : Binary64 → Text
  | nan => "nan".toText
  | infinite s => if s then "-inf".toText else "inf".toText
  | finite s m e =>
    let shown :=
      if m = 0 then "0.0".toText
      else
        let (ds, point) := shortest m e
        if -4 < point ∧ point ≤ 16 then positional ds point else exponential ds point
    if s then char '-' :: shown else shown

end Phrasebook.Binary64
