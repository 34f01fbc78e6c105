import CallGuard.Cel.Operator
import CallGuard.Decimal.Reader
import CallGuard.Regex.Reader
import CallGuard.Text.Utf8

set_option autoImplicit false

namespace CallGuard.Cel

inductive Builtin
  | contains
  | size
  | max
  | min
  | startsWith
  | endsWith
  | string
  | bytes
  | double
  | int
  | uint
  | isMatch
  | duration
  | timestamp
  | getFullYear
  | getMonth
  | getDayOfYear
  | getDayOfMonth
  | getDate
  | getDayOfWeek
  | getHours
  | getMinutes
  | getSeconds
  | getMilliseconds
deriving DecidableEq, Repr

namespace Builtin

def all : List (String × Builtin) :=
  [("contains", contains), ("size", size), ("max", max), ("min", min),
    ("startsWith", startsWith), ("endsWith", endsWith), ("string", string), ("bytes", bytes),
    ("double", double), ("int", int), ("uint", uint), ("matches", isMatch),
    ("duration", duration), ("timestamp", timestamp), ("getFullYear", getFullYear),
    ("getMonth", getMonth), ("getDayOfYear", getDayOfYear), ("getDayOfMonth", getDayOfMonth),
    ("getDate", getDate), ("getDayOfWeek", getDayOfWeek), ("getHours", getHours),
    ("getMinutes", getMinutes), ("getSeconds", getSeconds),
    ("getMilliseconds", getMilliseconds)]

def ofName? (name : String) : Option Builtin := all.lookup name

def name : Builtin → String
  | contains => "contains"
  | size => "size"
  | max => "max"
  | min => "min"
  | startsWith => "startsWith"
  | endsWith => "endsWith"
  | string => "string"
  | bytes => "bytes"
  | double => "double"
  | int => "int"
  | uint => "uint"
  | isMatch => "matches"
  | duration => "duration"
  | timestamp => "timestamp"
  | getFullYear => "getFullYear"
  | getMonth => "getMonth"
  | getDayOfYear => "getDayOfYear"
  | getDayOfMonth => "getDayOfMonth"
  | getDate => "getDate"
  | getDayOfWeek => "getDayOfWeek"
  | getHours => "getHours"
  | getMinutes => "getMinutes"
  | getSeconds => "getSeconds"
  | getMilliseconds => "getMilliseconds"

structure Call where
  target : Option Value
  args : List (Result Value)

namespace Call

def arg (c : Call) (i : Nat) : Result Value :=
  match c.args[i]? with
  | some r => r
  | none => fail (.argumentCount (i + 1) c.args.length)

def this (c : Call) : Result Value :=
  -- The target, or else the first argument; why that one has no value is not told.
  match c.target, c.args with
  | some v, _ => .ok v
  | none, .ok v :: _ => .ok v
  | none, .error .crash :: _ => .error .crash
  | none, _ => fail .missingTarget

def second (c : Call) : Result Value := c.arg (if c.target.isSome then 0 else 1)

def values (c : Call) : Result (List Value) := c.args.mapM id

end Call

def asString : Value → Result String
  | .string s => .ok s
  | v => fail (.unexpectedType v "Arc<String>")

def asTimestamp : Value → Result Time.Timestamp
  | .timestamp t => .ok t
  | v => fail (.unexpectedType v "chrono::DateTime<chrono::FixedOffset>")

def sizeOf (v : Value) : Result Value :=
  match v with
  | .list items => .ok (.int items.length)
  | .map entries => .ok (.int entries.length)
  | .string s => .ok (.int s.utf8ByteSize)
  | .bytes bs => .ok (.int bs.length)
  | v => fail (.function "size" (v.debug.after "cannot determine the size of "))

def containsIn (v x : Value) : Result Value :=
  -- The search for an empty run of bytes breaks down.
  match v, x with
  | .list items, x => .ok (.bool (Value.contains items x))
  | .map entries, x =>
    match x.toKey? with
    | some k => .ok (.bool (entries.lookup k).isSome)
    | none => fail (.unsupportedKey x)
  | .string s, .string t => .ok (.bool (Text.occursIn t.toList s.toList))
  | .bytes s, .bytes t =>
    if t.isEmpty then .error .crash else .ok (.bool (Text.occursIn t s))
  | _, _ => .ok (.bool false)

def extreme (keep : Ordering → Bool) : Value → List Value → Result Value
  -- The last of the items that no other item exceeds in the given direction.
  | best, [] => .ok best
  | best, v :: vs =>
    match best.order? v with
    | none => fail (.notComparable best v)
    | some o => extreme keep (if keep o then best else v) vs

def extremeOf (keep : Ordering → Bool) (args : List Value) : Result Value :=
  -- A single list stands for its items, another single value for itself.
  let items := match args with
    | [.list items] => items
    | args => args
  match items with
  | [] => .ok .null
  | v :: vs => extreme keep v vs

def cannotConvert (v : Value) (kind : String) : Result Value :=
  fail (.function kind (Value.concat ["cannot convert ", v.debug, (" to " ++ kind : String)]))

def parseError (kind reason : String) : Result Value :=
  fail (.function kind ("string parse error: " ++ reason : String))

def toText (v : Value) : Result Value :=
  match v with
  | .string s => .ok (.string s)
  | .timestamp t => .ok (.string t.text)
  | .duration d => .ok (.string d.text)
  | .int i => .ok (.string (toString i))
  | .uint n => .ok (.string (toString n))
  | .double x => .ok (.string (Value.plainLayout.text x))
  | .bytes bs => .ok (.string (Text.decodeLossy bs))
  | v => cannotConvert v "string"

def toDouble (v : Value) : Result Value :=
  match v with
  | .string s =>
    match Decimal.double s with
    | .ok x => .ok (.double x)
    | .error e => parseError "double" e.message
  | .double x => .ok (.double x)
  | .int i => .ok (.double (Float.ofInt i))
  | .uint n => .ok (.double (Float.ofNat n))
  | v => cannotConvert v "double"

def toInt (v : Value) : Result Value :=
  -- A double is cut to its whole part, within the range.
  match v with
  | .string s =>
    match Decimal.integer (-0x8000000000000000) 0x7fffffffffffffff s with
    | .ok i => .ok (.int i)
    | .error e => parseError "int" e.message
  | .double x =>
    if 9223372036854775808.0 < x || x < -9223372036854775808.0 then
      fail (.function "int" "integer overflow")
    else .ok (.int x.toInt64.toInt)
  | .int i => .ok (.int i)
  | .uint n => if fitsInt n then .ok (.int n) else fail (.function "int" "integer overflow")
  | v => cannotConvert v "int"

def toUint (v : Value) : Result Value :=
  match v with
  | .string s =>
    match Decimal.integer 0 0xffffffffffffffff s with
    | .ok i => .ok (.uint i.toNat)
    | .error e => parseError "uint" e.message
  | .double x =>
    if 18446744073709551616.0 < x || x < 0 then
      fail (.function "uint" "unsigned integer overflow")
    else .ok (.uint x.toUInt64.toNat)
  | .int i =>
    if 0 ≤ i then .ok (.uint i.toNat) else fail (.function "uint" "unsigned integer overflow")
  | .uint n => .ok (.uint n)
  | v => cannotConvert v "uint"

def matchesPattern [Regex.Engine] (text pattern : String) : Result Value :=
  match Regex.Engine.compile pattern with
  | some r => .ok (.bool (r.isMatch text))
  | none => fail (.function "matches" (.cutAfter ("'" ++ pattern ++ "' not a valid regex:")))

def toDuration (s : String) : Result Value :=
  match Time.Duration.ofText s with
  | .ok d => .ok (.duration d)
  | .error e =>
    fail (.function "duration"
      ("Parsing Error: Error \x7b input: " ++ Text.quoted (String.ofList e.rest) ++ ", code: " ++
        e.expected ++ " \x7d" : String))

def toTimestamp (s : String) : Result Value :=
  match Time.Timestamp.ofText s with
  | .ok t => .ok (.timestamp t)
  | .error e => fail (.function "timestamp" e.message)

def timePart (c : Call) (part : Time.Timestamp → Int) : Result Value := do
  let t ← asTimestamp (← c.this)
  return .int (part t)

def apply [Regex.Engine] (f : Builtin) (c : Call) : Result Value :=
  match f with
  | contains => do
    let v ← c.this
    containsIn v (← c.second)
  | size => do sizeOf (← c.this)
  | max => do extremeOf (· == .gt) (← c.values)
  | min => do extremeOf (· == .lt) (← c.values)
  | startsWith => do
    let s ← asString (← c.this)
    let t ← asString (← c.second)
    return .bool (Text.startsWith t.toList s.toList)
  | endsWith => do
    let s ← asString (← c.this)
    let t ← asString (← c.second)
    return .bool (Text.startsWith t.toList.reverse s.toList.reverse)
  | string => do toText (← c.this)
  | bytes => do
    let s ← asString (← c.arg 0)
    return .bytes s.toUTF8.toList
  | double => do toDouble (← c.this)
  | int => do toInt (← c.this)
  | uint => do toUint (← c.this)
  | isMatch => do
    let s ← asString (← c.this)
    matchesPattern s (← asString (← c.second))
  | duration => do toDuration (← asString (← c.arg 0))
  | timestamp => do toTimestamp (← asString (← c.arg 0))
  | getFullYear => timePart c fun t => t.date.year
  | getMonth => timePart c fun t => t.monthIndex
  | getDayOfYear => timePart c fun t => t.dayOfYearIndex
  | getDayOfMonth => timePart c fun t => (t.date.day - 1 : Nat)
  | getDate => timePart c fun t => t.date.day
  | getDayOfWeek => timePart c fun t => t.weekday
  | getHours => timePart c fun t => t.hour
  | getMinutes => timePart c fun t => t.minute
  | getSeconds => timePart c fun t => t.second
  | getMilliseconds => timePart c fun t => t.milliseconds

end Builtin

end CallGuard.Cel
