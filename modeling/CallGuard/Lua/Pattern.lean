import CallGuard.Lua.Value

set_option autoImplicit false

namespace CallGuard.Lua.Pattern

inductive Extent
  | unfinished
  -- A place in the subject instead of a part of it.
  | position
  | length (n : Nat)
deriving DecidableEq, Repr

structure Capture where
  start : Nat
  extent : Extent
deriving DecidableEq, Repr

abbrev Captures := Array Capture

inductive Fault
  | malformed
  | tooComplex
deriving DecidableEq, Repr

-- Where a match ends, with its captures; or there is none.
abbrev Result := Except Fault (Option (Nat × Captures))

def escape : UInt8 := 37

def code (c : Char) : UInt8 := .ofNat c.toNat

def isLowerByte (b : UInt8) : Bool := 97 ≤ b && b ≤ 122

def isUpperByte (b : UInt8) : Bool := 65 ≤ b && b ≤ 90

def isDigitByte (b : UInt8) : Bool := 48 ≤ b && b ≤ 57

def isAlphaByte (b : UInt8) : Bool := isLowerByte b || isUpperByte b

def isSpaceByte (b : UInt8) : Bool := b == 32 || (9 ≤ b && b ≤ 13)

def isControlByte (b : UInt8) : Bool := b < 32 || b == 127

def isGraphByte (b : UInt8) : Bool := 33 ≤ b && b ≤ 126

def isPunctByte (b : UInt8) : Bool := isGraphByte b && !(isAlphaByte b || isDigitByte b)

def isHexByte (b : UInt8) : Bool :=
  isDigitByte b || (97 ≤ b && b ≤ 102) || (65 ≤ b && b ≤ 70)

def classOf? : Char → Option (UInt8 → Bool)
  | 'a' => some isAlphaByte
  | 'c' => some isControlByte
  | 'd' => some isDigitByte
  | 'g' => some isGraphByte
  | 'l' => some isLowerByte
  | 'p' => some isPunctByte
  | 's' => some isSpaceByte
  | 'u' => some isUpperByte
  | 'w' => some fun b => isAlphaByte b || isDigitByte b
  | 'x' => some isHexByte
  | 'z' => some fun b => b == 0
  | _ => none

def inClass (letter b : UInt8) : Bool :=
  -- Whether a byte belongs to what stands after an escape: a class, its complement under a capital,
  -- or just that byte.
  match classOf? (Char.ofNat letter.toNat).toLower with
  | some p => if isUpperByte letter then !p b else p b
  | none => letter == b

def inSet (b : UInt8) : List UInt8 → Bool
  | [] => false
  | lo :: rest =>
    if lo = escape then
      match rest with
      | letter :: rest => inClass letter b || inSet b rest
      | [] => lo == b
    else
      match rest with
      | dash :: hi :: rest =>
        if dash = code '-' then (lo ≤ b && b ≤ hi) || inSet b rest
        else lo == b || inSet b (dash :: hi :: rest)
      | rest => lo == b || inSet b rest

inductive Item
  | any
  | cls (letter : UInt8)
  | set (complement : Bool) (body : List UInt8)
  | byte (b : UInt8)

def Item.accepts (b : UInt8) : Item → Bool
  | .any => true
  | .cls letter => inClass letter b
  | .set complement body => inSet b body != complement
  | .byte c => b == c

def setBody : Bool → List UInt8 → Except Fault (List UInt8 × List UInt8)
  -- The body of a set up to its closing bracket, which is not the first character, and what
  -- follows.
  | _, [] => .error .malformed
  | first, b :: rest =>
    if b = code ']' ∧ !first then .ok ([], rest)
    else if b = escape then
      match rest with
      | [] => .error .malformed
      | c :: rest =>
        match setBody false rest with
        | .ok (body, after) => .ok (b :: c :: body, after)
        | .error e => .error e
    else
      match setBody false rest with
      | .ok (body, after) => .ok (b :: body, after)
      | .error e => .error e

def setItem (cs : List UInt8) : Except Fault (Item × List UInt8) :=
  match cs with
  | c :: rest =>
    if c = code '^' then (setBody true rest).map fun (body, after) => (.set true body, after)
    else (setBody true cs).map fun (body, after) => (.set false body, after)
  | [] => .error .malformed

def item (c : UInt8) (rest : List UInt8) : Except Fault (Item × List UInt8) :=
  if c = escape then
    match rest with
    | letter :: rest => .ok (.cls letter, rest)
    | [] => .error .malformed
  else if c = code '[' then setItem rest
  else if c = code '.' then .ok (.any, rest)
  else .ok (.byte c, rest)

def maxCaptures : Nat := 32

def lastOpen? (caps : Captures) : Option Nat :=
  (List.range caps.size).reverse.find? fun i =>
    match caps[i]? with
    | some c => c.extent == .unfinished
    | none => false

def close (caps : Captures) (i pos : Nat) : Captures :=
  caps.modify i fun c => { c with extent := .length (pos - c.start) }

def sameBytes (subject : Bytes) (start n pos : Nat) : Bool :=
  pos + n ≤ subject.size && subject.extract start (start + n) == subject.extract pos (pos + n)

def balanced (subject : Bytes) (opening closing : UInt8) : Nat → Nat → Nat → Option Nat
  -- The end of a balanced part, in which `depth` openings are still to be closed.
  | 0, _, _ => none
  | fuel + 1, depth, pos =>
    match subject[pos]? with
    | none => none
    | some b =>
      if b = closing then
        if depth ≤ 1 then some (pos + 1)
        else balanced subject opening closing fuel (depth - 1) (pos + 1)
      else if b = opening then balanced subject opening closing fuel (depth + 1) (pos + 1)
      else balanced subject opening closing fuel depth (pos + 1)

def countFrom (subject : Bytes) (it : Item) : Nat → Nat → Nat → Nat
  | 0, _, n => n
  | fuel + 1, pos, n =>
    match subject[pos]? with
    | some b => if it.accepts b then countFrom subject it fuel (pos + 1) (n + 1) else n
    | none => n

def longestFirst (attempt : Nat → Result) : Nat → Result
  | 0 => attempt 0
  | n + 1 =>
    match attempt (n + 1) with
    | .ok none => longestFirst attempt n
    | r => r

def shortestFirst (attempt : Nat → Result) : Nat → Nat → Result
  | 0, n => attempt n
  | left + 1, n =>
    match attempt n with
    | .ok none => shortestFirst attempt left (n + 1)
    | r => r

def acceptsAt (subject : Bytes) (it : Item) (pos : Nat) : Bool :=
  match subject[pos]? with
  | some b => it.accepts b
  | none => false

-- A byte before or at a place, where a zero stands around the subject.
def byteOr0 (subject : Bytes) (pos : Nat) : UInt8 := subject[pos]?.getD 0

-- The pattern becomes shorter with each step; `depth` bounds how far matches are nested.
def matchFrom (subject : Bytes) :
    Nat → Nat → List UInt8 → Nat → Captures → Result
  | 0, _, _, _, _ => .error .tooComplex
  | _ + 1, _, [], pos, caps => .ok (some (pos, caps))
  | fuel + 1, depth, c :: rest, pos, caps =>
    let nested (p : List UInt8) (pos : Nat) (caps : Captures) : Result :=
      match depth with
      | 0 => .error .tooComplex
      | depth + 1 => matchFrom subject fuel depth p pos caps
    let opened (extent : Extent) (p : List UInt8) : Result :=
      if maxCaptures ≤ caps.size then .error .malformed
      else nested p pos (caps.push ⟨pos, extent⟩)
    let plain : Result :=
      match item c rest with
      | .error e => .error e
      | .ok (it, after) =>
        let repeated (least : Nat) (p : List UInt8) : Result :=
          let n := countFrom subject it (subject.size + 1) pos 0
          if n < least then .ok none
          else longestFirst (fun k => nested p (pos + least + k) caps) (n - least)
        match after with
        | q :: p =>
          if q = code '*' then
            if acceptsAt subject it pos then repeated 0 p
            else matchFrom subject fuel depth p pos caps
          else if q = code '+' then
            if acceptsAt subject it pos then repeated 1 p else .ok none
          else if q = code '-' then
            if acceptsAt subject it pos then
              let n := countFrom subject it (subject.size + 1) pos 0
              shortestFirst (fun k => nested p (pos + k) caps) n 0
            else matchFrom subject fuel depth p pos caps
          else if q = code '?' then
            if acceptsAt subject it pos then
              match nested p (pos + 1) caps with
              | .ok none => matchFrom subject fuel depth p pos caps
              | r => r
            else matchFrom subject fuel depth p pos caps
          else if acceptsAt subject it pos then matchFrom subject fuel depth after (pos + 1) caps
          else .ok none
        | [] =>
          if acceptsAt subject it pos then matchFrom subject fuel depth [] (pos + 1) caps
          else .ok none
    if c = code '(' then
      match rest with
      | d :: p => if d = code ')' then opened .position p else opened .unfinished rest
      | [] => opened .unfinished []
    else if c = code ')' then
      match lastOpen? caps with
      | none => .error .malformed
      | some i => nested rest pos (close caps i pos)
    else if c = code '$' ∧ rest = [] then
      .ok (if pos = subject.size then some (pos, caps) else none)
    else if c = escape then
      match rest with
      | d :: p =>
        if d = code 'b' then
          match p with
          | opening :: closing :: p =>
            if subject[pos]? = some opening then
              match balanced subject opening closing (subject.size + 1) 1 (pos + 1) with
              | some after => matchFrom subject fuel depth p after caps
              | none => .ok none
            else .ok none
          | _ => .error .malformed
        else if d = code 'f' then
          match p with
          | bracket :: p =>
            if bracket = code '[' then
              match setItem p with
              | .error e => .error e
              | .ok (it, after) =>
                let before := if pos = 0 then 0 else byteOr0 subject (pos - 1)
                if !it.accepts before && it.accepts (byteOr0 subject pos) then
                  matchFrom subject fuel depth after pos caps
                else .ok none
            else .error .malformed
          | [] => .error .malformed
        else if isDigitByte d then
          if d = code '0' then .error .malformed
          else
            match caps[d.toNat - 49]? with
            | none => .error .malformed
            | some ⟨_, .unfinished⟩ => .error .malformed
            | some ⟨_, .position⟩ => .ok none
            | some ⟨start, .length n⟩ =>
              if sameBytes subject start n pos then matchFrom subject fuel depth p (pos + n) caps
              else .ok none
        else plain
      | [] => plain
    else plain

def depthLimit : Nat := 199

def matchAt (subject : Bytes) (p : List UInt8) (pos : Nat) : Result :=
  matchFrom subject (p.length + 1) depthLimit p pos #[]

def search (subject : Bytes) (p : List UInt8) :
    Nat → Nat → Except Fault (Option (Nat × Nat × Captures))
  | 0, _ => .ok none
  | fuel + 1, pos =>
    match matchAt subject p pos with
    | .error e => .error e
    | .ok (some (stop, caps)) => .ok (some (pos, stop, caps))
    | .ok none =>
      if pos < subject.size then search subject p fuel (pos + 1) else .ok none

def anchored : List UInt8 → Bool × List UInt8
  -- A pattern that begins with a caret matches only where the search starts.
  | c :: rest => if c = code '^' then (true, rest) else (false, c :: rest)
  | [] => (false, [])

def find (subject : Bytes) (pattern : List UInt8) (start : Nat) :
    Except Fault (Option (Nat × Nat × Captures)) :=
  match anchored pattern with
  | (true, p) =>
    match matchAt subject p start with
    | .error e => .error e
    | .ok (some (stop, caps)) => .ok (some (start, stop, caps))
    | .ok none => .ok none
  | (false, p) => search subject p (subject.size - start + 1) start

-- A pattern without any of these is a plain text.
def specials : List Char := ['^', '$', '*', '+', '?', '.', '(', '[', '%', '-']

def isPlain (p : List UInt8) : Bool := !p.any fun b => specials.any fun c => code c == b

def findPlain (subject text : Bytes) : Nat → Nat → Option Nat
  | 0, _ => none
  | fuel + 1, pos =>
    if subject.size < pos + text.size then none
    else if subject.extract pos (pos + text.size) == text then some pos
    else findPlain subject text fuel (pos + 1)

def Capture.value? (subject : Bytes) (c : Capture) : Option Value :=
  -- A capture as a value. One that is not finished has none.
  match c.extent with
  | .unfinished => none
  | .position => some (.int (.ofNat (c.start + 1)))
  | .length n => some (.string (subject.extract c.start (c.start + n)))

def values? (subject : Bytes) (caps : Captures) : Option (List Value) :=
  caps.toList.mapM (Capture.value? subject)

def matchValues? (subject : Bytes) (start stop : Nat) (caps : Captures) : Option (List Value) :=
  if caps.isEmpty then some [.string (subject.extract start stop)] else values? subject caps

end CallGuard.Lua.Pattern
