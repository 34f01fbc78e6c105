set_option autoImplicit false

namespace CallGuard.Text

def replacement : Char := '\ufffd'

def leadOf? (b : UInt8) : Option (Nat × Nat × UInt8 × UInt8) :=
  -- The first byte of a form, how many more follow, and the range of the second.
  let n := b.toNat
  if n < 0x80 then some (n, 0, 0, 0)
  else if 0xc2 ≤ n ∧ n < 0xe0 then some (n - 0xc0, 1, 0x80, 0xbf)
  else if n = 0xe0 then some (0, 2, 0xa0, 0xbf)
  else if n = 0xed then some (0xd, 2, 0x80, 0x9f)
  else if 0xe0 ≤ n ∧ n < 0xf0 then some (n - 0xe0, 2, 0x80, 0xbf)
  else if n = 0xf0 then some (0, 3, 0x90, 0xbf)
  else if n = 0xf4 then some (4, 3, 0x80, 0x8f)
  else if 0xf0 ≤ n ∧ n < 0xf4 then some (n - 0xf0, 3, 0x80, 0xbf)
  else none

-- The next byte is between `lo` and `hi`. A form that breaks off is replaced as a whole.
def decodeFrom : Nat → Nat → UInt8 → UInt8 → List UInt8 → List Char
  | _, 0, _, _, [] => []
  | _, _ + 1, _, _, [] => [replacement]
  | n, wanted + 1, lo, hi, b :: bs =>
    if lo ≤ b ∧ b ≤ hi then
      let m := n * 64 + (b.toNat - 0x80)
      if wanted = 0 then Char.ofNat m :: decodeFrom 0 0 0 0 bs
      else decodeFrom m wanted 0x80 0xbf bs
    else
      match leadOf? b with
      | none => replacement :: replacement :: decodeFrom 0 0 0 0 bs
      | some (m, 0, _, _) => replacement :: Char.ofNat m :: decodeFrom 0 0 0 0 bs
      | some (m, k + 1, lo, hi) => replacement :: decodeFrom m (k + 1) lo hi bs
  | _, 0, _, _, b :: bs =>
    match leadOf? b with
    | none => replacement :: decodeFrom 0 0 0 0 bs
    | some (m, 0, _, _) => Char.ofNat m :: decodeFrom 0 0 0 0 bs
    | some (m, k + 1, lo, hi) => decodeFrom m (k + 1) lo hi bs

def decodeLossy (bs : List UInt8) : String := String.ofList (decodeFrom 0 0 0 0 bs)

end CallGuard.Text
