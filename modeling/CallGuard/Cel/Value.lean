import CallGuard.Decimal.Shortest
import CallGuard.Error
import CallGuard.Json.Basic
import CallGuard.Text.Quoted
import CallGuard.Time.Timestamp

set_option autoImplicit false

namespace CallGuard.Cel

inductive Key
  | int (value : Int)
  | uint (value : Nat)
  | bool (value : Bool)
  | string (value : String)
deriving DecidableEq, Repr

-- Integers lie within 64 bits. The entries of a map have distinct keys.
inductive Value
  | null
  | bool (value : Bool)
  | int (value : Int)
  | uint (value : Nat)
  | double (value : Float)
  | string (value : String)
  | bytes (value : List UInt8)
  | list (items : List Value)
  | map (entries : List (Key × Value))
  -- A built-in function that was selected from a value.
  | function (name : String) (target : Value)
  | duration (value : Time.Duration)
  | timestamp (value : Time.Timestamp)

instance : Inhabited Value := ⟨.null⟩

def fitsInt (i : Int) : Bool := -0x8000000000000000 ≤ i && i < 0x8000000000000000

def fitsUint (n : Int) : Bool := 0 ≤ n && n < 0x10000000000000000

namespace Key

def toValue : Key → Value
  | int i => .int i
  | uint n => .uint n
  | bool b => .bool b
  | string s => .string s

end Key

namespace Value

def toKey? : Value → Option Key
  | int i => some (.int i)
  | uint n => some (.uint n)
  | bool b => some (.bool b)
  | string s => some (.string s)
  | _ => none

def truth : Value → Bool
  -- What counts as true: everything but zero, the empty and null.
  | null => false
  | bool b => b
  | int i => i != 0
  | uint n => n != 0
  | double x => x != 0
  | string s => s != ""
  | bytes bs => !bs.isEmpty
  | list items => !items.isEmpty
  | map entries => !entries.isEmpty
  | function _ _ => false
  | duration d => d.isSmall && d.nanoseconds != 0
  | timestamp t => 0 < t.nanoseconds && t.nanoseconds < 0x8000000000000000

mutual

def same : Value → Value → Bool
  -- Numbers of different kinds are equal when their values are.
  | null, null => true
  | bool a, bool b => a == b
  | int a, int b => a == b
  | uint a, uint b => a == b
  | double a, double b => a == b
  | int a, uint b => a == b
  | uint a, int b => a == b
  | int a, double b => Float.ofInt a == b
  | double a, int b => a == Float.ofInt b
  | uint a, double b => Float.ofNat a == b
  | double a, uint b => a == Float.ofNat b
  | string a, string b => a == b
  | bytes a, bytes b => a == b
  | list a, list b => sameItems a b
  | map a, map b => a.length == b.length && sameEntries a b
  | function f a, function g b => f == g && same a b
  | duration a, duration b => a == b
  | timestamp a, timestamp b => a.compare b == .eq
  | _, _ => false

def sameItems : List Value → List Value → Bool
  | [], [] => true
  | a :: as, b :: bs => same a b && sameItems as bs
  | _, _ => false

def sameEntries : List (Key × Value) → List (Key × Value) → Bool
  | [], _ => true
  | (k, a) :: rest, other =>
    (match other.lookup k with
      | some b => same a b
      | none => false) && sameEntries rest other

end

def compareDoubles (a b : Float) : Option Ordering :=
  if a < b then some .lt
  else if a == b then some .eq
  else if b < a then some .gt
  else none

def order? : Value → Value → Option Ordering
  | null, null => some .eq
  | bool a, bool b => some (Ord.compare a b)
  | int a, int b => some (Ord.compare a b)
  | uint a, uint b => some (Ord.compare a b)
  | double a, double b => compareDoubles a b
  | int a, uint b => some (Ord.compare a (b : Int))
  | uint a, int b => some (Ord.compare (a : Int) b)
  | int a, double b => compareDoubles (Float.ofInt a) b
  | double a, int b => compareDoubles a (Float.ofInt b)
  | uint a, double b => compareDoubles (Float.ofNat a) b
  | double a, uint b => compareDoubles a (Float.ofNat b)
  | string a, string b => some (Ord.compare a b)
  | duration a, duration b => some (Ord.compare a.nanoseconds b.nanoseconds)
  | timestamp a, timestamp b => some (a.compare b)
  | _, _ => none

def contains (items : List Value) (v : Value) : Bool := items.any fun item => item.same v

-- In plain text a double never has an exponent, and a whole one has no point.
def plainLayout : Decimal.Layout := ⟨fun _ => true, "", "inf", "NaN"⟩

-- In the text of a value a whole double keeps a zero after the point, and one whose leading digit
-- stands below `10 ^ -4` or from `10 ^ 16` on has an exponent.
def debugLayout : Decimal.Layout := ⟨fun e => -4 ≤ e && e < 16, ".0", "inf", "NaN"⟩

-- The second text follows unless the first has been cut.
def append (a b : Message) : Message := if a.complete then b.after a.text else a

def concat (ms : List Message) : Message := ms.foldl append (.exact "")

def commas : List Message → Message
  | [] => .exact ""
  | [m] => m
  | m :: ms => append m ((commas ms).after ", ")

def durationText (d : Time.Duration) : String :=
  "TimeDelta \x7b secs: " ++ toString d.seconds ++ ", nanos: " ++ toString d.subseconds ++ " \x7d"

mutual

def debug : Value → Message
  -- A value with the name of its kind. Maps have no order to show, so the text ends there.
  | null => "Null"
  | bool b => "Bool(" ++ (if b then "true" else "false") ++ ")"
  | int i => "Int(" ++ toString i ++ ")"
  | uint n => "UInt(" ++ toString n ++ ")"
  | double x => "Float(" ++ debugLayout.text x ++ ")"
  | string s => "String(" ++ Text.quoted s ++ ")"
  | bytes bs => "Bytes([" ++ ", ".intercalate (bs.map fun b => toString b.toNat) ++ "])"
  | list items => concat ["List([", commas (debugItems items), "])"]
  | map _ => .cutAfter "Map("
  | function name target =>
    concat [("Function(" ++ Text.quoted name ++ ", Some(" : String), target.debug, "))"]
  | duration d => "Duration(" ++ durationText d ++ ")"
  | timestamp t => "Timestamp(" ++ t.text ++ ")"

def debugItems : List Value → List Message
  | [] => []
  | v :: vs => v.debug :: debugItems vs

end

mutual

def ofJson : Json → Value
  -- A document as a value: objects become maps with string keys.
  | .null => null
  | .bool b => bool b
  | .num (.integer i) => if fitsInt i then int i else uint i.toNat
  | .num (.double x) => double x
  | .str s => string s
  | .arr items => list (ofItems items)
  | .obj fields => map (ofFields fields)

def ofItems : List Json → List Value
  | [] => []
  | j :: js => ofJson j :: ofItems js

def ofFields : List (String × Json) → List (Key × Value)
  | [] => []
  | (name, j) :: rest => (.string name, ofJson j) :: ofFields rest

end

def insert (entries : List (Key × Value)) (k : Key) (v : Value) : List (Key × Value) :=
  -- The entry with a key, put in place of an earlier one.
  entries.filter (fun e => e.1 != k) ++ [(k, v)]

end Value

end CallGuard.Cel
