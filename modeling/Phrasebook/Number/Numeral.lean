import Phrasebook.Number.Binary64

/-!
# Reading numerals of floating numbers

A decimal numeral has a sign, digits before and after a point, and a power of ten; each part but
the digits may be missing. The words for infinity and for what is not a number are numerals too.
-/

namespace Phrasebook.Binary64

/-- The number written with digits before and after the point and a power of ten. -/
def ofParts (negative : Bool) (whole fraction : Text) (power : Int) : Binary64 :=
  ofDecimal negative (Text.decimal (whole ++ fraction)) (power - fraction.length)

def splitSign : Text → Bool × Text
  | '-' :: s => (true, s)
  | '+' :: s => (false, s)
  | s => (false, s)

/-- A power of ten after its mark: a sign that may be missing, and digits. -/
def power? (s : Text) : Option Int :=
  let (negative, ds) := splitSign s
  if ds = [] ∨ !ds.all Text.isDigit then none
  else some (if negative then -(Text.decimal ds : Int) else Text.decimal ds)

/-- A numeral without a sign: digits around a point, and a power of ten. -/
def unsigned? (negative : Bool) (s : Text) : Option Binary64 :=
  let (mantissa, mark) := s.span fun c : CodePoint => c != 'e' && c != 'E'
  let (whole, fraction) := mantissa.span (· != char '.')
  let fraction := fraction.drop 1
  if whole ++ fraction = [] ∨ !(whole ++ fraction).all Text.isDigit then none
  else
    match mark with
    | [] => some (ofParts negative whole fraction 0)
    | _ :: ds => (power? ds).map (ofParts negative whole fraction)

def ofNumeral? (s : Text) : Option Binary64 :=
  let (negative, s) := splitSign s
  if s ∈ ["inf".toText, "infinity".toText] then some (infinite negative)
  else if s = "nan".toText then some nan
  else unsigned? negative s

end Phrasebook.Binary64
