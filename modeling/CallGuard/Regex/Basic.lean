import CallGuard.Text.Blank
import CallGuard.Text.FoldCase
import CallGuard.Text.WordClass

set_option autoImplicit false

namespace CallGuard.Regex

inductive CharSet
  | range (lo hi : Nat)
  | digit
  | space
  | word
  | union (a b : CharSet)
  | inter (a b : CharSet)
  | compl (a : CharSet)
  -- The set together with the characters that differ in case only.
  | folded (a : CharSet)
deriving Repr

def inRanges (ranges : List (Nat × Nat)) (c : Char) : Bool :=
  ranges.any fun (lo, hi) => lo ≤ c.toNat && c.toNat ≤ hi

namespace CharSet

def single (c : Char) : CharSet := range c.toNat c.toNat

def none : CharSet := range 1 0

def ofRanges (ranges : List (Nat × Nat)) : CharSet :=
  ranges.foldr (fun (lo, hi) s => union (range lo hi) s) none

def minus (a b : CharSet) : CharSet := inter a (compl b)

def symmetricDifference (a b : CharSet) : CharSet := union (minus a b) (minus b a)

def contains : CharSet → Char → Bool
  | range lo hi, c => lo ≤ c.toNat && c.toNat ≤ hi
  | digit, c => inRanges Text.digitRanges c
  | space, c => Text.isBlank c
  | word, c => inRanges Text.wordRanges c
  | union a b, c => a.contains c || b.contains c
  | inter a b, c => a.contains c && b.contains c
  | compl a, c => !a.contains c
  | folded a, c => a.contains c || (Text.casePartners c).any a.contains

end CharSet

inductive Anchor
  | textStart
  | textEnd
  | lineStart
  | lineEnd
  | wordEdge
  | noWordEdge
  | wordStart
  | wordEnd
  | noWordBefore
  | noWordAfter
deriving DecidableEq, Repr

inductive Expr
  | empty
  | chars (set : CharSet)
  | anchor (a : Anchor)
  | seq (a b : Expr)
  | alt (a b : Expr)
  | star (a : Expr)
  -- At least `least` times, and at most `most` times if a bound is given.
  | counted (a : Expr) (least : Nat) (most : Option Nat)
deriving Repr

def isWordAt (text : Array Char) (i : Nat) : Bool :=
  match text[i]? with
  | some c => CharSet.word.contains c
  | none => false

def isWordBefore (text : Array Char) (i : Nat) : Bool := i != 0 && isWordAt text (i - 1)

namespace Anchor

def holds (text : Array Char) (i : Nat) : Anchor → Bool
  | textStart => i == 0
  | textEnd => i == text.size
  | lineStart => i == 0 || text[i - 1]? == some '\n'
  | lineEnd => i == text.size || text[i]? == some '\n'
  | wordEdge => isWordBefore text i != isWordAt text i
  | noWordEdge => isWordBefore text i == isWordAt text i
  | wordStart => !isWordBefore text i && isWordAt text i
  | wordEnd => isWordBefore text i && !isWordAt text i
  | noWordBefore => !isWordBefore text i
  | noWordAfter => !isWordAt text i

end Anchor

def closure (next : List Nat → List Nat) : Nat → List Nat → List Nat → List Nat
  -- `found` and everything that `next` reaches from it; `fuel` bounds the rounds that find
  -- something new.
  | 0, found, _ => found
  | fuel + 1, found, frontier =>
    let fresh := ((next frontier).filter fun i => !found.contains i).eraseDups
    if fresh.isEmpty then found else closure next fuel (found ++ fresh) fresh

def iterate (next : List Nat → List Nat) : Nat → List Nat → List Nat
  | 0, starts => starts
  | n + 1, starts => if starts.isEmpty then [] else iterate next n (next starts)

def upTo (next : List Nat → List Nat) : Nat → List Nat → List Nat
  | 0, starts => starts
  | n + 1, starts =>
    if starts.isEmpty then [] else (starts ++ upTo next n (next starts)).eraseDups

namespace Expr

def reach (text : Array Char) : Expr → List Nat → List Nat
  | empty, starts => starts
  | chars set, starts => starts.filterMap fun i =>
    match text[i]? with
    | some c => if set.contains c then some (i + 1) else none
    | none => none
  | anchor a, starts => starts.filter fun i => a.holds text i
  | seq a b, starts => b.reach text (a.reach text starts)
  | alt a b, starts => (a.reach text starts ++ b.reach text starts).eraseDups
  | star a, starts => closure (a.reach text) (text.size + 1) starts starts
  | counted a least most, starts =>
    let first := iterate (a.reach text) least starts
    match most with
    | none => closure (a.reach text) (text.size + 1) first first
    | some n => upTo (a.reach text) (n - least) first

def literal (cs : List Char) : Expr := cs.foldr (fun c e => seq (chars (.single c)) e) empty

def isMatch (e : Expr) (text : String) : Bool :=
  let cs := text.toList.toArray
  !(e.reach cs (List.range (cs.size + 1))).isEmpty

end Expr

end CallGuard.Regex

namespace CallGuard

structure Regex where
  source : String
  expr : Regex.Expr

def Regex.isMatch (r : Regex) (text : String) : Bool := r.expr.isMatch text

end CallGuard
