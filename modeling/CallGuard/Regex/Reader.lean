import CallGuard.Regex.Basic

set_option autoImplicit false

namespace CallGuard.Regex

structure Flags where
  ignoreCase : Bool
  multiLine : Bool
  dotAll : Bool
  swapGreed : Bool
  unicode : Bool
  ignoreSpace : Bool
  crlf : Bool
deriving DecidableEq, Repr

def Flags.standard : Flags := ⟨false, false, false, false, true, false, false⟩

namespace Reader

def isMeta (c : Char) : Bool := "\\.+*?()|[]\x7b\x7d^$#&-~".toList.contains c

def isEscapable (c : Char) : Bool :=
  isMeta c || (c.toNat < 128 && !c.isAlphanum && c != '<' && c != '>')

def hexValue? (c : Char) : Option Nat :=
  if c.isDigit then some (c.toNat - 48)
  else if 'a' ≤ c ∧ c ≤ 'f' then some (c.toNat - 87)
  else if 'A' ≤ c ∧ c ≤ 'F' then some (c.toNat - 55)
  else none

def hexNumber? (cs : List Char) : Option Nat :=
  if cs.isEmpty then none
  else cs.foldlM (fun n c => (hexValue? c).map fun d => 16 * n + d) 0

def charOfNat? (n : Nat) : Option Char :=
  if n.isValidChar then some (Char.ofNat n) else none

def codePoint? (digits : Nat) : List Char → Option (Char × List Char)
  -- Digits of an escape by code point: a fixed number of them, or any number in braces.
  | '\x7b' :: rest =>
    let inside := rest.takeWhile (· != '\x7d')
    match rest.dropWhile (· != '\x7d'), hexNumber? inside with
    | _ :: rest, some n => (charOfNat? n).map (·, rest)
    | _, _ => none
  | rest =>
    if rest.length < digits then none
    else
      match hexNumber? (rest.take digits) with
      | some n => (charOfNat? n).map (·, rest.drop digits)
      | none => none

def asciiWord : CharSet := .ofRanges [(0x30, 0x39), (0x41, 0x5a), (0x5f, 0x5f), (0x61, 0x7a)]

def asciiSpace : CharSet := .ofRanges [(9, 13), (0x20, 0x20)]

def classOf? (f : Flags) : Char → Option CharSet
  -- The classes that a letter names; capitals name the complements.
  | 'd' => some (if f.unicode then .digit else .range 0x30 0x39)
  | 's' => some (if f.unicode then .space else asciiSpace)
  | 'w' => some (if f.unicode then .word else asciiWord)
  | 'D' => if f.unicode then some (.compl .digit) else none
  | 'S' => if f.unicode then some (.compl .space) else none
  | 'W' => if f.unicode then some (.compl .word) else none
  | _ => none

def escapedChar? : List Char → Option (Char × List Char)
  | 'x' :: rest => codePoint? 2 rest
  | 'u' :: rest => codePoint? 4 rest
  | 'U' :: rest => codePoint? 8 rest
  | 'a' :: rest => some ('\x07', rest)
  | 'f' :: rest => some ('\x0c', rest)
  | 't' :: rest => some ('\t', rest)
  | 'n' :: rest => some ('\n', rest)
  | 'r' :: rest => some ('\r', rest)
  | 'v' :: rest => some ('\x0b', rest)
  | c :: rest => if isEscapable c then some (c, rest) else none
  | [] => none

def edgeNames : List (String × Anchor) :=
  [("start", .wordStart), ("end", .wordEnd), ("start-half", .noWordBefore),
    ("end-half", .noWordAfter)]

def wordEdge? (rest : List Char) : Option (Anchor × List Char) :=
  match rest with
  | '\x7b' :: inside =>
    match inside with
    | c :: _ =>
      if c.isAlpha || c == '-' then
        let name := inside.takeWhile (· != '\x7d')
        match inside.dropWhile (· != '\x7d'), edgeNames.lookup (String.ofList name) with
        | _ :: rest, some a => some (a, rest)
        | _, _ => none
      else some (.wordEdge, rest)
    | [] => some (.wordEdge, rest)
  | _ => some (.wordEdge, rest)

def withCase (f : Flags) (s : CharSet) : CharSet := if f.ignoreCase then .folded s else s

def charExpr (f : Flags) (c : Char) : Expr := .chars (withCase f (.single c))

def escape? (f : Flags) : List Char → Option (Expr × List Char)
  | 'A' :: rest => some (.anchor .textStart, rest)
  | 'z' :: rest => some (.anchor .textEnd, rest)
  | 'b' :: rest => (wordEdge? rest).map fun (a, rest) => (.anchor a, rest)
  | 'B' :: rest => some (.anchor .noWordEdge, rest)
  | '<' :: rest => some (.anchor .wordStart, rest)
  | '>' :: rest => some (.anchor .wordEnd, rest)
  | c :: rest =>
    match classOf? f c with
    | some s => some (.chars s, rest)
    | none => (escapedChar? (c :: rest)).map fun (c, rest) => (charExpr f c, rest)
  | [] => none

def namedRanges : List (String × List (Nat × Nat)) :=
  [("alnum", [(0x30, 0x39), (0x41, 0x5a), (0x61, 0x7a)]),
    ("alpha", [(0x41, 0x5a), (0x61, 0x7a)]),
    ("ascii", [(0, 0x7f)]),
    ("blank", [(9, 9), (0x20, 0x20)]),
    ("cntrl", [(0, 0x1f), (0x7f, 0x7f)]),
    ("digit", [(0x30, 0x39)]),
    ("graph", [(0x21, 0x7e)]),
    ("lower", [(0x61, 0x7a)]),
    ("print", [(0x20, 0x7e)]),
    ("punct", [(0x21, 0x2f), (0x3a, 0x40), (0x5b, 0x60), (0x7b, 0x7e)]),
    ("space", [(9, 13), (0x20, 0x20)]),
    ("upper", [(0x41, 0x5a)]),
    ("word", [(0x30, 0x39), (0x41, 0x5a), (0x5f, 0x5f), (0x61, 0x7a)]),
    ("xdigit", [(0x30, 0x39), (0x41, 0x46), (0x61, 0x66)])]

def namedClass? (rest : List Char) : Option (CharSet × List Char) :=
  let (negated, rest) := match rest with
    | '^' :: rest => (true, rest)
    | rest => (false, rest)
  let name := rest.takeWhile Char.isAlpha
  match rest.dropWhile Char.isAlpha, namedRanges.lookup (String.ofList name) with
  | ':' :: ']' :: rest, some ranges =>
    let s := CharSet.ofRanges ranges
    some (if negated then .compl s else s, rest)
  | _, _ => none

def skipBlanks : Bool → List Char → List Char
  | _, [] => []
  | true, c :: rest => skipBlanks (c != '\n') rest
  | false, c :: rest =>
    if Text.isBlank c then skipBlanks false rest
    else if c = '#' then skipBlanks true rest
    else c :: rest

def skipSpace (f : Flags) (cs : List Char) : List Char :=
  if f.ignoreSpace then skipBlanks false cs else cs

inductive Item
  | char (c : Char)
  | set (s : CharSet)

def item? (f : Flags) : List Char → Option (Item × List Char)
  | '\\' :: c :: rest =>
    match classOf? f c with
    | some s => some (.set s, rest)
    | none => (escapedChar? (c :: rest)).map fun (c, rest) => (.char c, rest)
  | c :: rest => some (.char c, rest)
  | [] => none

def range? (f : Flags) (cs : List Char) : Option (CharSet × List Char) :=
  match item? f cs with
  | none => none
  | some (.set s, rest) => some (s, rest)
  | some (.char lo, rest) =>
    match skipSpace f rest with
    | '-' :: after =>
      match skipSpace f after with
      | ']' :: _ => some (.single lo, rest)
      | '-' :: _ => some (.single lo, rest)
      | after =>
        match item? f after with
        | some (.char hi, rest) =>
          if lo ≤ hi then some (.range lo.toNat hi.toNat, rest) else none
        | _ => none
    | _ => some (.single lo, rest)

inductive SetOp
  | inter
  | minus
  | symmetricDifference

def SetOp.apply (f : Flags) (op : SetOp) (a b : CharSet) : CharSet :=
  let a := withCase f a
  let b := withCase f b
  match op with
  | .inter => .inter a b
  | .minus => .minus a b
  | .symmetricDifference => .symmetricDifference a b

def combine (f : Flags) : Option (CharSet × SetOp) → CharSet → CharSet
  | none, s => s
  | some (left, op), s => op.apply f left s

mutual

def brackets? (f : Flags) : Nat → List Char → Option (CharSet × List Char)
  | 0, _ => none
  | fuel + 1, cs =>
    let (negated, cs) := match skipSpace f cs with
      | '^' :: rest => (true, skipSpace f rest)
      | cs => (false, cs)
    let hyphens := cs.takeWhile (· == '-')
    let cs := cs.dropWhile (· == '-')
    let start : CharSet := if hyphens.isEmpty then .none else .single '-'
    let (start, cs) := match hyphens, cs with
      | [], ']' :: rest => (.union start (.single ']'), rest)
      | _, cs => (start, cs)
    match items? f fuel none start cs with
    | none => none
    | some (s, rest) =>
      let s := withCase f s
      if negated && !f.unicode then none
      else some (if negated then .compl s else s, rest)

-- What stands left of the last operator, the items since, and the characters that follow.
def items? (f : Flags) : Nat → Option (CharSet × SetOp) → CharSet → List Char →
    Option (CharSet × List Char)
  | 0, _, _, _ => none
  | fuel + 1, left, s, cs =>
    match skipSpace f cs with
    | [] => none
    | ']' :: rest => some (combine f left s, rest)
    | '&' :: '&' :: rest => items? f fuel (some (combine f left s, .inter)) .none rest
    | '-' :: '-' :: rest => items? f fuel (some (combine f left s, .minus)) .none rest
    | '~' :: '~' :: rest =>
      items? f fuel (some (combine f left s, .symmetricDifference)) .none rest
    | '[' :: rest =>
      let named := match rest with
        | ':' :: inside => namedClass? inside
        | _ => none
      match named with
      | some (t, rest) => items? f fuel left (.union s t) rest
      | none =>
        match brackets? f fuel rest with
        | none => none
        | some (t, rest) => items? f fuel left (.union s t) rest
    | cs =>
      match range? f cs with
      | none => none
      | some (t, rest) => items? f fuel left (.union s t) rest

end

def setFlag? (value : Bool) (f : Flags) : Char → Option Flags
  | 'i' => some { f with ignoreCase := value }
  | 'm' => some { f with multiLine := value }
  | 's' => some { f with dotAll := value }
  | 'U' => some { f with swapGreed := value }
  | 'u' => some { f with unicode := value }
  | 'x' => some { f with ignoreSpace := value }
  | 'R' => some { f with crlf := value }
  | _ => none

def flags? (f : Flags) (cs : List Char) : Option (Flags × Bool × List Char) :=
  -- The flags between `(?` and `)` or `:`. A flag may be named once, and a hyphen needs flags
  -- behind it.
  let letters := cs.takeWhile fun c => c != ')' && c != ':'
  let on := letters.takeWhile (· != '-')
  let off := letters.dropWhile (· != '-')
  let valid := letters.eraseDups.length = letters.length && off != ['-']
  if !valid then none
  else
    match on.foldlM (setFlag? true) f with
    | none => none
    | some f =>
      match (off.drop 1).foldlM (setFlag? false) f with
      | none => none
      | some f =>
        match cs.dropWhile fun c => c != ')' && c != ':' with
        | ')' :: rest => if letters.isEmpty then none else some (f, false, rest)
        | ':' :: rest => some (f, true, rest)
        | _ => none

def decimal? (cs : List Char) : Option (Nat × List Char) :=
  let cs := cs.dropWhile Text.isBlank
  let digits := cs.takeWhile Char.isDigit
  match Text.digits? digits with
  | some n =>
    if n < 0x100000000 then some (n, (cs.dropWhile Char.isDigit).dropWhile Text.isBlank) else none
  | none => none

def bounds? (cs : List Char) : Option (Nat × Option Nat × List Char) :=
  match decimal? cs with
  | none => none
  | some (least, '\x7d' :: rest) => some (least, some least, rest)
  | some (least, ',' :: rest) =>
    match rest.dropWhile Text.isBlank with
    | '\x7d' :: rest => some (least, none, rest)
    | rest =>
      match decimal? rest with
      | some (most, '\x7d' :: rest) =>
        if least ≤ most then some (least, some most, rest) else none
      | _ => none
  | _ => none

def dropLazy (f : Flags) (cs : List Char) : List Char :=
  match skipSpace f cs with
  | '?' :: rest => rest
  | _ => cs

def groupName? (cs : List Char) : Option (List Char × List Char) :=
  let name := cs.takeWhile (· != '>')
  match name, cs.dropWhile (· != '>') with
  | c :: more, _ :: rest =>
    let head := c == '_' || c.isAlpha || (128 ≤ c.toNat && inRanges Text.wordRanges c)
    let tail := more.all fun c =>
      c == '.' || c == '[' || c == ']' || inRanges Text.wordRanges c
    if head && tail then some (name, rest) else none
  | _, _ => none

def dot? (f : Flags) : Option CharSet :=
  if !f.unicode then none
  else if f.dotAll then some (.range 0 0x10ffff)
  else if f.crlf then some (.compl (.ofRanges [(10, 10), (13, 13)]))
  else some (.compl (.single '\n'))

structure Progress where
  flags : Flags
  names : List (List Char)

mutual

def alternatives? : Nat → Progress → List Char → Option (Expr × Progress × List Char)
  | 0, _, _ => none
  | fuel + 1, p, cs =>
    match sequence? fuel p [] cs with
    | none => none
    | some (e, p, '|' :: rest) =>
      match alternatives? fuel p rest with
      | none => none
      | some (e', p, rest) => some (.alt e e', p, rest)
    | some found => some found

def sequence? : Nat → Progress → List Expr → List Char → Option (Expr × Progress × List Char)
  -- Expressions one after another; `done` holds those before, last first.
  | 0, _, _, _ => none
  | fuel + 1, p, done, cs =>
    let finish := done.foldl (fun e a => Expr.seq a e) .empty
    let repeated (least : Nat) (most : Option Nat) (rest : List Char) :=
      match done with
      | [] => none
      | a :: done =>
        let e := if least = 0 ∧ most = none then Expr.star a else .counted a least most
        sequence? fuel p (e :: done) (dropLazy p.flags rest)
    match skipSpace p.flags cs with
    | [] => some (finish, p, [])
    | '|' :: rest => some (finish, p, '|' :: rest)
    | ')' :: rest => some (finish, p, ')' :: rest)
    | '*' :: rest => repeated 0 none rest
    | '+' :: rest => repeated 1 none rest
    | '?' :: rest => repeated 0 (some 1) rest
    | '\x7b' :: rest =>
      match bounds? rest with
      | none => none
      | some (least, most, rest) => repeated least most rest
    | '(' :: '?' :: rest => group? fuel p done rest
    | '(' :: rest => capture? fuel p done rest
    | '[' :: rest =>
      match brackets? p.flags fuel rest with
      | none => none
      | some (s, rest) => sequence? fuel p (.chars s :: done) rest
    | '.' :: rest =>
      match dot? p.flags with
      | none => none
      | some s => sequence? fuel p (.chars s :: done) rest
    | '^' :: rest =>
      let a := if p.flags.multiLine then Anchor.lineStart else .textStart
      sequence? fuel p (.anchor a :: done) rest
    | '$' :: rest =>
      let a := if p.flags.multiLine then Anchor.lineEnd else .textEnd
      sequence? fuel p (.anchor a :: done) rest
    | '\\' :: rest =>
      match escape? p.flags rest with
      | none => none
      | some (e, rest) => sequence? fuel p (e :: done) rest
    | c :: rest => sequence? fuel p (charExpr p.flags c :: done) rest

def group? : Nat → Progress → List Expr → List Char → Option (Expr × Progress × List Char)
  | 0, _, _, _ => none
  | fuel + 1, p, done, cs =>
    let named (cs : List Char) :=
      match groupName? cs with
      | none => none
      | some (name, rest) =>
        if p.names.contains name then none
        else capture? fuel { p with names := name :: p.names } done rest
    match cs with
    | 'P' :: '<' :: rest => named rest
    | '<' :: rest => named rest
    | cs =>
      match flags? p.flags cs with
      | none => none
      | some (flags, true, rest) =>
        match alternatives? fuel { p with flags } rest with
        | some (e, inner, ')' :: rest) =>
          sequence? fuel { inner with flags := p.flags } (e :: done) rest
        | _ => none
      | some (flags, false, rest) => afterFlags? fuel { p with flags } done rest

def afterFlags? : Nat → Progress → List Expr → List Char → Option (Expr × Progress × List Char)
  -- Flags are no expression, so nothing behind them can repeat them.
  | 0, _, _, _ => none
  | fuel + 1, p, done, cs =>
    match skipSpace p.flags cs with
    | '*' :: _ => none
    | '+' :: _ => none
    | '?' :: _ => none
    | '\x7b' :: _ => none
    | _ => sequence? fuel p done cs

def capture? : Nat → Progress → List Expr → List Char → Option (Expr × Progress × List Char)
  | 0, _, _, _ => none
  | fuel + 1, p, done, cs =>
    match alternatives? fuel p cs with
    | some (e, inner, ')' :: rest) =>
      sequence? fuel { inner with flags := p.flags } (e :: done) rest
    | _ => none

end

end Reader

end CallGuard.Regex

namespace CallGuard

def Regex.ofText? (text : String) : Option Regex :=
  let cs := text.toList
  match Regex.Reader.alternatives? (4 * cs.length + 8) ⟨.standard, []⟩ cs with
  | some (e, _, []) => some ⟨text, e⟩
  | _ => none

-- A package of regular expressions, by what it compiles a pattern to if it accepts it.
class Regex.Engine where
  compile : String → Option Regex

instance : Regex.Engine := ⟨Regex.ofText?⟩

end CallGuard
