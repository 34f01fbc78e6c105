set_option autoImplicit false

namespace CallGuard.Decimal

structure Binary where
  negative : Bool
  mantissa : Nat
  exponent : Int
deriving DecidableEq, Repr

inductive Parts
  | finite (value : Binary)
  | infinite (negative : Bool)
  | nan
deriving DecidableEq, Repr

def powTwo (n : Nat) : Nat := Nat.pow 2 n

def powTen (n : Nat) : Nat := Nat.pow 10 n

def partsOfBits (bits : Nat) : Parts :=
  let negative := bits / 0x8000000000000000 == 1
  let field : Nat := bits / 0x10000000000000 % 0x800
  let fraction : Nat := bits % 0x10000000000000
  if field = 2047 then
    if fraction = 0 then .infinite negative else .nan
  else if field = 0 then .finite ⟨negative, fraction, -1074⟩
  else .finite ⟨negative, fraction + 0x10000000000000, (field : Int) - 1075⟩

def parts (x : Float) : Parts := partsOfBits x.toBits.toNat

def Binary.isZero (b : Binary) : Bool := b.mantissa == 0

def Binary.fraction (b : Binary) : Nat × Nat :=
  (b.mantissa * powTwo b.exponent.toNat, powTwo (-b.exponent).toNat)

def scaleTen (num den : Nat) (k : Int) : Nat × Nat :=
  (num * powTen k.toNat, den * powTen (-k).toNat)

def digitCount (n : Nat) : Nat := (Nat.toDigits 10 n).length

def leadingExponent (num den : Nat) : Int :=
  let k : Int := (digitCount den : Int) - digitCount num
  let (n, d) := scaleTen num den k
  if d ≤ n then -k else -(k + 1)

def roundHalfEven (num den : Nat) : Nat :=
  -- The quotient rounded to the nearest natural, a half to the even neighbour.
  let q := num / den
  let r := num % den
  if 2 * r < den then q
  else if den < 2 * r then q + 1
  else if q % 2 = 0 then q else q + 1

def toFloat (negative : Bool) (coefficient : Nat) (exponent : Int) : Float :=
  let magnitude : Float :=
    if coefficient = 0 then 0
    else
      let top := exponent + digitCount coefficient
      if 400 < top then 1 / 0
      else if top < -400 then 0
      else if exponent < 0 then Float.ofScientific coefficient true (-exponent).toNat
      else Float.ofScientific coefficient false exponent.toNat
  if negative then -magnitude else magnitude

def toFloatBinary (negative : Bool) (coefficient : Nat) (exponent : Int) : Float :=
  let magnitude : Float :=
    if coefficient = 0 then 0
    else
      let top := exponent + Nat.log2 coefficient
      if 1100 < top then 1 / 0
      else if top < -1200 then 0
      else if exponent < 0 then
        let k := (-exponent).toNat
        Float.ofScientific (coefficient * Nat.pow 5 k) true k
      else Float.ofScientific (coefficient * powTwo exponent.toNat) false 0
  if negative then -magnitude else magnitude

end CallGuard.Decimal
