import Mathlib.Algebra.Ring.Nat

namespace SimpleSSD.Util

/-! Numbers in text, as the C library reads them. -/

def isSpace (letter : Char) : Bool :=
  letter = ' ' || decide ('\t' ≤ letter ∧ letter ≤ '\r')

def digitOf (base : Nat) (letter : Char) : Option Nat :=
  let value :=
    if '0' ≤ letter ∧ letter ≤ '9' then
      letter.toNat - '0'.toNat
    else if 'a' ≤ letter ∧ letter ≤ 'z' then
      letter.toNat - 'a'.toNat + 10
    else if 'A' ≤ letter ∧ letter ≤ 'Z' then
      letter.toNat - 'A'.toNat + 10
    else
      base
  if value < base then some value else none

def digits (base : Nat) : (number : Nat) → List Char → Nat
  | number, [] => number
  | number, letter :: letters =>
      match digitOf base letter with
      | none => number
      | some digit => digits base (number * base + digit) letters

/-- `0x` before a hexadecimal number. -/
def dropMark (base : Nat) : List Char → List Char
  | '0' :: 'x' :: letters => if base = 16 then letters else '0' :: 'x' :: letters
  | '0' :: 'X' :: letters => if base = 16 then letters else '0' :: 'X' :: letters
  | letters => letters

/-- `strtoul(value, nullptr, base)`, for an `unsigned long` of 64 bits. -/
def strtoul (base : Nat) (value : List Char) : UInt64 :=
  let value := value.dropWhile isSpace
  let negative := value.head? = some '-'
  let value := if negative || value.head? = some '+' then value.tail else value
  let number := digits base 0 (dropMark base value)
  if 2 ^ 64 ≤ number then
    0xFFFFFFFFFFFFFFFF
  else if negative then
    -number.toUInt64
  else
    number.toUInt64

example : strtoul 10 [' ', '4', '2', 'x'] = 42 := by decide

example : strtoul 16 ['0', 'x', '1', 'F'] = 31 := by decide

end SimpleSSD.Util
