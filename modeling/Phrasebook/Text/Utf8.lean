import Phrasebook.Text.Basic

/-!
# Text from bytes

Bytes are read as UTF-8. The first byte of a character says how many follow it and what range the
second may lie in; every later byte lies in the range of continuation bytes. A fault names the
bytes of the character that were read before it showed.
-/

namespace Phrasebook.Text.Utf8

inductive Cause where
  /-- A byte that no character begins with. -/
  | invalidStart
  /-- A character broken off by a byte that cannot continue it. -/
  | invalidContinuation
  /-- A character broken off by the end of the data. -/
  | unexpectedEnd
  deriving DecidableEq, Repr

structure Fault where
  cause : Cause
  lead : UInt8
  start : Nat
  size : Nat
  deriving DecidableEq, Repr

/-- A character of which some bytes are still to come: how many, the range of the next one, and
the number that the bits read so far spell. -/
structure Pending where
  left : Nat
  low : Nat
  high : Nat
  value : Nat
  deriving DecidableEq, Repr

def announce? (b : Nat) : Option Pending :=
  if b < 0x80 then some ⟨0, 0x80, 0xBF, b⟩
  else if b < 0xC2 then none
  else if b < 0xE0 then some ⟨1, 0x80, 0xBF, b - 0xC0⟩
  else if b < 0xF0 then
    some ⟨2, if b = 0xE0 then 0xA0 else 0x80, if b = 0xED then 0x9F else 0xBF, b - 0xE0⟩
  else if b < 0xF5 then
    some ⟨3, if b = 0xF0 then 0x90 else 0x80, if b = 0xF4 then 0x8F else 0xBF, b - 0xF0⟩
  else none

/-- The text of the bytes from a place on, inside a character that began at another place. -/
def decodeFrom (position : Nat) : Option (Pending × UInt8 × Nat) → List UInt8 →
    Except Fault (List CodePoint)
  | none, [] => .ok []
  | some (_, lead, start), [] => .error ⟨.unexpectedEnd, lead, start, position - start⟩
  | none, b :: bs =>
    match announce? b.toNat with
    | none => .error ⟨.invalidStart, b, position, 1⟩
    | some p =>
      if p.left = 0 then (decodeFrom (position + 1) none bs).map (CodePoint.ofNat p.value :: ·)
      else decodeFrom (position + 1) (some (p, b, position)) bs
  | some (p, lead, start), b :: bs =>
    if p.low ≤ b.toNat ∧ b.toNat ≤ p.high then
      let value := p.value * 64 + (b.toNat - 0x80)
      if p.left ≤ 1 then (decodeFrom (position + 1) none bs).map (CodePoint.ofNat value :: ·)
      else decodeFrom (position + 1) (some (⟨p.left - 1, 0x80, 0xBF, value⟩, lead, start)) bs
    else .error ⟨.invalidContinuation, lead, start, position - start⟩

def decode (bytes : List UInt8) : Except Fault (List CodePoint) :=
  decodeFrom 0 none bytes

def Cause.phrase : Cause → Text
  | invalidStart => "invalid start byte".toText
  | invalidContinuation => "invalid continuation byte".toText
  | unexpectedEnd => "unexpected end of data".toText

/-- The sentence that explains a fault: one byte is shown, several are counted. -/
def Fault.message (f : Fault) : Text :=
  let which :=
    if f.size = 1 then
      "byte 0x".toText ++ padded 16 2 f.lead.toNat ++ " in position ".toText ++ ofNat f.start
    else
      "bytes in position ".toText ++ ofNat f.start ++ char '-' :: ofNat (f.start + f.size - 1)
  "'utf-8' codec can't decode ".toText ++ which ++ ": ".toText ++ f.cause.phrase

end Phrasebook.Text.Utf8
