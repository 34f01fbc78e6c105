set_option autoImplicit false

namespace CallGuard.Lua

structure Random where
  a : UInt64
  b : UInt64
  c : UInt64
  d : UInt64
deriving DecidableEq, Repr

namespace Random

def rotateLeft (x : UInt64) (n : UInt64) : UInt64 := (x <<< n) ||| (x >>> (64 - n))

def next (r : Random) : UInt64 × Random :=
  let c := r.c ^^^ r.a
  let d := r.d ^^^ r.b
  (rotateLeft (r.b * 5) 7 * 9,
    { a := r.a ^^^ d
      b := r.b ^^^ c
      c := c ^^^ (r.b <<< 17)
      d := rotateLeft d 45 })

def skip : Nat → Random → Random
  | 0, r => r
  | n + 1, r => skip n r.next.2

-- The first words after a seed are passed over.
def ofSeed (m n : UInt64) : Random := skip 16 ⟨m, 0xff, n, 0⟩

def maskOf (n : UInt64) : UInt64 :=
  ([1, 2, 4, 8, 16, 32] : List UInt64).foldl (fun m shift => m ||| (m >>> shift)) n

-- How many words are tried at most; each fits with a chance of one half or better.
def attempts : Nat := 4096

def below (n mask : UInt64) : Nat → UInt64 → Random → UInt64 × Random
  | 0, _, r => (0, r)
  | fuel + 1, word, r =>
    if word &&& mask ≤ n then (word &&& mask, r)
    else below n mask fuel r.next.1 r.next.2

-- A number from zero to `n`, made from a word and, if need be, from further ones.
def upTo (n word : UInt64) (r : Random) : UInt64 × Random := below n (maskOf n) attempts word r

def fraction (word : UInt64) : Float := (word >>> 11).toFloat / 9007199254740992

end Random

end CallGuard.Lua
