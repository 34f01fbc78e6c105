import CallGuard.Context
import CallGuard.Error
import CallGuard.Proofs.Json.Paths

set_option autoImplicit false

namespace CallGuard

def Context.document (c : Context) : Variable → Json
  | .request => c.requestValue
  | .metadata => .obj (c.metadata.entries.map fun e => (e.1, .str e.2))
  | .user => c.user
  | .isStream => .bool c.isStream
  | .method => .str c.method

theorem Context.metadata_at {c : Context} {name text : String}
    (present : c.metadata.get? name = some text) :
    (c.document .metadata).at? [.key name] = some (.str text) := by
  have found : Keyed.lookupList name c.metadata.entries = some text := present
  simp [Json.at?, Json.child?, document, Json.field?, Keyed.lookupList_map, found]

theorem Metadata.normalized_get? {m : Metadata} {name : String} {values : List String}
    (present : m.values.get? name = some values) :
    m.normalized.get? name = some (",".intercalate values) := by
  rw [Metadata.get?_normalized, present, Option.map_some]

namespace Rules

open Json

-- A language has its own literals, and counts positions from its own first one.
inductive PathSpelled (isLiteral : List Char → String → Prop) (first : Nat) :
    List Step → List Char → Prop
  | nil : PathSpelled isLiteral first [] []
  | key {name : String} {literal cs : List Char} {rest : List Step}
      (spelled : isLiteral literal name) (more : PathSpelled isLiteral first rest cs) :
    PathSpelled isLiteral first (.key name :: rest) ('[' :: literal ++ ']' :: cs)
  | position {i : Nat} {cs : List Char} {rest : List Step}
      (more : PathSpelled isLiteral first rest cs) :
    PathSpelled isLiteral first (.position i :: rest)
      ('[' :: (toString (first + i)).toList ++ ']' :: cs)

theorem forall_chars {cs : List Char} {P : Char → Prop} [DecidablePred P]
    (all : (cs.all fun c => decide (P c)) = true) : ∀ c ∈ cs, P c := by
  simpa using all

structure IsIdentifier (name : String) : Prop where
  start : ∃ c cs, name.toList = c :: cs ∧ (c.isAlpha || c == '_') = true
  parts : ∀ c ∈ name.toList, (c.isAlphanum || c == '_') = true

theorem isIdentifier_of_variable (v : Variable) : IsIdentifier v.name := by
  cases v <;> exact ⟨⟨_, _, rfl, by decide⟩, forall_chars (by decide)⟩

-- What follows a backslash, and the character that is meant.
def escapes : List (Char × Char) := [('"', '"'), ('\\', '\\'), ('n', '\n'), ('r', '\r')]

def escapedChar : Char → List Char
  | '"' => ['\\', '"']
  | '\\' => ['\\', '\\']
  | '\n' => ['\\', 'n']
  | '\r' => ['\\', 'r']
  | c => [c]

theorem escapedChar_cases (c : Char) :
    (∃ e, (e, c) ∈ escapes ∧ escapedChar c = ['\\', e]) ∨
      (c ≠ '"' ∧ c ≠ '\\' ∧ c ≠ '\n' ∧ c ≠ '\r') ∧ escapedChar c = [c] := by
  unfold escapedChar
  split <;> simp_all [escapes]

def quoted (s : String) : List Char := '"' :: s.toList.flatMap escapedChar ++ ['"']

theorem toList_toString (n : Nat) : (toString n).toList = Nat.toDigits 10 n := Nat.toList_repr

theorem all_isDigit (n : Nat) : ∀ c ∈ Nat.toDigits 10 n, c.isDigit = true :=
  fun _ member => Nat.isDigit_of_mem_toDigits (by decide) (by decide) member

def digits : List Char := ['0', '1', '2', '3', '4', '5', '6', '7', '8', '9']

theorem mem_digits {c : Char} (digit : c.isDigit = true) : c ∈ digits := by
  have range : 48 ≤ c.toNat ∧ c.toNat ≤ 57 := Char.isDigit_iff_toNat.1 digit
  have code : c = Char.ofNat c.toNat := (Char.ofNat_toNat c).symm
  generalize c.toNat = n at range code
  subst code
  have all : ∀ n : Nat, n < 10 → Char.ofNat (48 + n) ∈ digits := by decide
  have member := all (n - 48) (by omega)
  rwa [show 48 + (n - 48) = n by omega] at member

theorem toDigits_ne_nil (n : Nat) : Nat.toDigits 10 n ≠ [] :=
  List.ne_nil_of_length_pos Nat.length_toDigits_pos

theorem foldl_toDigits (n : Nat) :
    (Nat.toDigits 10 n).foldl (fun v c => 10 * v + (c.toNat - 48)) 0 = n := by
  have value := Nat.ofDigitChars_ten_toDigits (n := n)
  rwa [Nat.ofDigitChars_eq_foldl] at value

def Answered (text : String) (k : Json) (o : Outcome Bool) : Prop :=
  (∀ b, k = .bool b → o = .ok b) ∧
    ((∀ b, k ≠ .bool b) → ∃ shown, o = .fail (.nonBoolean text shown))

end Rules

end CallGuard
