import CallGuard.Lua.Evaluator
import CallGuard.Proofs.Lua.Lexing

set_option autoImplicit false

namespace CallGuard.Lua

open Rules

namespace Parse

variable {α : Type} {a : α} {n l line level limit : Nat} {w w' : Words} {e : Expr}
  {rest words : List Lexeme}

def markOf : List Lexeme → String
  | ⟨.symbol s, _⟩ :: _ => s
  | ⟨.keyword s, _⟩ :: _ => s
  | _ => ""

theorem next?_run (w : Words) : next?.run w = some (w.rest.head?.map Lexeme.token, w) := rfl

theorem nextLine_run (w : Words) :
    nextLine.run w = some ((w.rest.head?.map Lexeme.line).getD w.line, w) := rfl

theorem line_run (w : Words) : Parse.line.run w = some (w.line, w) := rfl

theorem take_run (t : Lexeme) :
    take.run ⟨t :: rest, line⟩ = some (t.token, ⟨rest, t.line⟩) := rfl

theorem withLine_run (e : Expr) (w : Words) :
    (withLine e).run w = some (e.atLine w.line, w) := rfl

theorem discard_run (p : Parse α) (w : Words) :
    StateT.run (discard p) w = (p.run w).map fun r => ((), r.2) := by
  show StateT.run ((fun _ => ()) <$> p) w = _
  rw [StateT.run_map]
  rfl

theorem mark_run (w : Words) : mark.run w = some (markOf w.rest, w) := by
  obtain ⟨_ | ⟨⟨t, l⟩, rest⟩, m⟩ := w
  · rfl
  · cases t <;> rfl

theorem accept_symbol (text : String) :
    (accept text).run ⟨⟨.symbol text, l⟩ :: rest, line⟩ = some (true, ⟨rest, l⟩) := by
  simp [accept, mark_run, markOf, discard_run, take_run]

theorem accept_other {text : String} (other : markOf rest ≠ text) :
    (accept text).run ⟨rest, line⟩ = some (false, ⟨rest, line⟩) := by
  simp [accept, mark_run, other]

theorem expect_symbol (text : String) :
    (expect text).run ⟨⟨.symbol text, l⟩ :: rest, line⟩ = some ((), ⟨rest, l⟩) := by
  simp [expect, accept_symbol]

theorem name_run (word : String) :
    name.run ⟨⟨.name word, l⟩ :: rest, line⟩ = some (word, ⟨rest, l⟩) := rfl

def Reads (p : Nat → Parse α) (n : Nat) (w : Words) (a : α) (w' : Words) : Prop :=
  ∀ fuel, n ≤ fuel → (p fuel).run w = some (a, w')

theorem Reads.mono {p : Nat → Parse α} {m : Nat} (reads : Reads p n w a w') (more : n ≤ m) :
    Reads p m w a w' :=
  fun fuel enough => reads fuel (Nat.le_trans more enough)

theorem reads_succ {p : Nat → Parse α}
    (read : ∀ fuel, n ≤ fuel → (p (fuel + 1)).run w = some (a, w')) : Reads p (n + 1) w a w' := by
  intro fuel enough
  cases fuel with
  | zero => cases enough
  | succ fuel => exact read fuel (Nat.le_of_succ_le_succ enough)

-- No operator follows, so the expression ends.
def EndsExpr (w : Words) : Prop := binaryOp? (markOf w.rest) = none

theorem endsExpr_nil (line : Nat) : EndsExpr ⟨[], line⟩ := rfl

theorem endsExpr_symbol {text : String} (other : binaryOp? text = none) :
    EndsExpr ⟨⟨.symbol text, l⟩ :: rest, line⟩ := by
  rw [EndsExpr]
  simpa [markOf] using other

theorem operators_end (ends : EndsExpr w) (e : Expr) :
    Reads (fun fuel => operators fuel level limit e) 1 w e w := by
  refine reads_succ fun fuel _ => ?_
  rw [EndsExpr] at ends
  simp [operators, mark_run, ends]

theorem expr_of_simple {w'' : Words} {e' : Expr} {m : Nat}
    (plain : unaryOp? (markOf w.rest) = none)
    (first : Reads (fun fuel => simple fuel level) n w e w')
    (more : Reads (fun fuel => operators fuel level limit e) m w' e' w'') :
    Reads (fun fuel => expr fuel (level + 1) limit) (n + m + 1) w e' w'' := by
  refine reads_succ fun fuel enough => ?_
  simp [expr, mark_run, plain, first fuel (by omega), more fuel (by omega)]

theorem simple_string (s : Bytes) :
    Reads (fun fuel => simple fuel level) 1 ⟨⟨.string s, l⟩ :: rest, line⟩ (.string s)
      ⟨rest, l⟩ := by
  refine reads_succ fun fuel _ => ?_
  simp [simple, next?_run, discard_run, take_run]

theorem simple_number (x : Num) :
    Reads (fun fuel => simple fuel level) 1 ⟨⟨.number x, l⟩ :: rest, line⟩ (.number x)
      ⟨rest, l⟩ := by
  refine reads_succ fun fuel _ => ?_
  simp [simple, next?_run, discard_run, take_run]

theorem simple_name {word : String}
    (more : Reads (fun fuel => suffixes fuel level (.name word l)) n ⟨rest, l⟩ e w') :
    Reads (fun fuel => simple fuel level) (n + 2) ⟨⟨.name word, l⟩ :: rest, line⟩ e w' := by
  refine reads_succ fun fuel enough => ?_
  obtain ⟨k, rfl⟩ := Nat.exists_eq_add_of_le enough
  have other : markOf (⟨.name word, l⟩ :: rest) ≠ "(" := by simp [markOf]
  rw [show n + 1 + k = n + k + 1 by omega]
  simp [simple, next?_run, mark_run, markOf, suffixed, accept_other other, name_run, line_run,
    more (n + k) (by omega)]

theorem simple_paren {inner : Expr} {m m' start : Nat}
    (first : Reads (fun fuel => expr fuel level 0) n ⟨rest, l⟩ inner
      ⟨⟨.symbol ")", m'⟩ :: words, line⟩)
    (more : Reads (fun fuel => suffixes fuel level (.paren (inner.atLine m'))) m ⟨words, m'⟩ e
      w') :
    Reads (fun fuel => simple fuel level) (n + m + 2) ⟨⟨.symbol "(", l⟩ :: rest, start⟩ e w' := by
  refine reads_succ fun fuel enough => ?_
  obtain ⟨k, rfl⟩ := Nat.exists_eq_add_of_le enough
  rw [show n + m + 1 + k = n + m + k + 1 by omega]
  simp [simple, next?_run, mark_run, markOf, suffixed, accept_symbol,
    first (n + m + k) (by omega), expect_symbol, withLine_run, more (n + m + k) (by omega)]

-- Neither a string nor a mark that goes on with a value follows.
def EndsValue (w : Words) : Prop :=
  (∀ s, w.rest.head?.map Lexeme.token ≠ some (.string s)) ∧
    markOf w.rest ∉ [".", "[", ":", "(", "\x7b"]

theorem endsValue_nil (line : Nat) : EndsValue ⟨[], line⟩ := ⟨by simp, by simp [markOf]⟩

theorem endsValue_symbol (text : String) (other : text ∉ [".", "[", ":", "(", "\x7b"]) :
    EndsValue ⟨⟨.symbol text, l⟩ :: rest, line⟩ :=
  ⟨by simp, by simpa [markOf] using other⟩

theorem suffixes_end (ends : EndsValue w) (e : Expr) :
    Reads (fun fuel => suffixes fuel level e) 1 w e w := by
  refine reads_succ fun fuel _ => ?_
  obtain ⟨noString, noMark⟩ := ends
  simp only [List.mem_cons, List.not_mem_nil, or_false, not_or] at noMark
  cases next : w.rest.head?.map Lexeme.token with
  | none => simp [suffixes, next?_run, next, mark_run, noMark]
  | some t =>
    cases t with
    | string s => exact absurd next (noString s)
    | _ => simp [suffixes, next?_run, next, mark_run, noMark]

theorem suffixes_index {base key : Expr} {l' l'' : Nat} {before : List Lexeme}
    (inner : Reads (fun fuel => expr fuel level 0) n ⟨before, l⟩ key
      ⟨⟨.symbol "]", l'⟩ :: rest, l''⟩)
    (more : Reads (fun fuel => suffixes fuel level (.index base key l')) n ⟨rest, l'⟩ e w') :
    Reads (fun fuel => suffixes fuel level base) (n + 1) ⟨⟨.symbol "[", l⟩ :: before, line⟩ e
      w' := by
  refine reads_succ fun fuel enough => ?_
  simp [suffixes, next?_run, mark_run, markOf, discard_run, take_run, inner fuel enough,
    expect_symbol, line_run, more fuel enough]

theorem suffixes_field {base : Expr} {word : String} {l' : Nat}
    (more : Reads (fun fuel => suffixes fuel level (.index base (.string (.ofText word)) l')) n
      ⟨rest, l'⟩ e w') :
    Reads (fun fuel => suffixes fuel level base) (n + 1)
      ⟨⟨.symbol ".", l⟩ :: ⟨.name word, l'⟩ :: rest, line⟩ e w' := by
  refine reads_succ fun fuel enough => ?_
  simp [suffixes, next?_run, mark_run, markOf, discard_run, take_run, name_run, line_run,
    more fuel enough]

theorem suffixes_call {base first second : Expr} {comma l' close : Nat}
    {before between : List Lexeme}
    (left : Reads (fun fuel => expr fuel level 0) n ⟨before, l⟩ first
      ⟨⟨.symbol ",", comma⟩ :: between, l'⟩)
    (right : Reads (fun fuel => expr fuel level 0) n ⟨between, comma⟩ second
      ⟨⟨.symbol ")", close⟩ :: rest, line⟩)
    (filled : markOf before ≠ ")")
    (more : Reads (fun fuel => suffixes fuel level
      (.call base [first.atLine comma, second.atLine close] l)) n ⟨rest, close⟩ e w')
    (line' : Nat) :
    Reads (fun fuel => suffixes fuel level base) (n + 4) ⟨⟨.symbol "(", l⟩ :: before, line'⟩ e
      w' := by
  refine reads_succ fun fuel enough => ?_
  obtain ⟨k, rfl⟩ := Nat.exists_eq_add_of_le enough
  rw [show n + 3 + k = n + k + 1 + 1 + 1 by omega]
  have last : (exprs (n + k + 1) level).run ⟨between, comma⟩ =
      some ([second], ⟨⟨.symbol ")", close⟩ :: rest, line⟩) := by
    have ends : markOf (⟨.symbol ")", close⟩ :: rest) ≠ "," := by simp [markOf]
    simp [exprs, right (n + k) (by omega), accept_other ends]
  have values : (exprs (n + k + 1 + 1) level).run ⟨before, l⟩ =
      some ([first.atLine comma, second], ⟨⟨.symbol ")", close⟩ :: rest, line⟩) := by
    rw [exprs]
    simp [left (n + k + 1) (by omega), accept_symbol, withLine_run, last]
  have taken : (args (n + k + 1 + 1 + 1) level).run ⟨⟨.symbol "(", l⟩ :: before, line'⟩ =
      some ([first.atLine comma, second.atLine close], ⟨rest, close⟩) := by
    simp [args, next?_run, mark_run, markOf, expect_symbol, accept_other filled, values, line_run,
      lastAtLine]
  have later := more (n + k + 1 + 1 + 1) (by omega)
  rw [suffixes]
  simp [next?_run, mark_run, markOf, nextLine_run, taken, later]

theorem expr_string (s : Bytes) (ends : EndsExpr ⟨rest, l⟩) :
    Reads (fun fuel => expr fuel (level + 1) limit) 3 ⟨⟨.string s, l⟩ :: rest, line⟩ (.string s)
      ⟨rest, l⟩ :=
  expr_of_simple rfl (simple_string s) (operators_end ends _)

theorem expr_number (x : Num) (ends : EndsExpr ⟨rest, l⟩) :
    Reads (fun fuel => expr fuel (level + 1) limit) 3 ⟨⟨.number x, l⟩ :: rest, line⟩ (.number x)
      ⟨rest, l⟩ :=
  expr_of_simple rfl (simple_number x) (operators_end ends _)

theorem expr_equal {left right : Expr} {between : List Lexeme} {l' m : Nat}
    (plain : unaryOp? (markOf words) = none)
    (first : Reads (fun fuel => simple fuel level) n ⟨words, line⟩ left
      ⟨⟨.symbol "==", l⟩ :: between, l'⟩)
    (second : Reads (fun fuel => expr fuel level 3) m ⟨between, l⟩ right w)
    (ends : EndsExpr w) :
    Reads (fun fuel => expr fuel (level + 1) 0) (n + m + 3) ⟨words, line⟩
      (.binary .equal (left.atLine l) right l) w := by
  refine (expr_of_simple plain first (reads_succ fun fuel (enough : m + 1 ≤ fuel) => ?_)).mono
    (by omega)
  have last :
      (operators fuel level 0 (.binary .equal (left.atLine l) right l)).run w = some (_, w) :=
    operators_end ends _ fuel (by omega)
  rw [operators]
  simp [mark_run, markOf, binaryOp?, discard_run, take_run, line_run, second fuel (by omega), last]

theorem block_return {m : Nat}
    (value : Reads (fun fuel => expr fuel level 0) n ⟨⟨.symbol "(", m⟩ :: words, l⟩ e ⟨[], line⟩)
    (start : Nat) :
    Reads (fun fuel => block fuel (level + 1)) (n + 3)
      ⟨⟨.keyword "return", l⟩ :: ⟨.symbol "(", m⟩ :: words, start⟩ [.ret [e]] ⟨[], line⟩ := by
  refine reads_succ fun fuel enough => ?_
  obtain ⟨k, rfl⟩ := Nat.exists_eq_add_of_le enough
  have noComma : markOf [] ≠ "," := by simp [markOf]
  have noEnd : markOf [] ≠ ";" := by simp [markOf]
  have values : (exprs (n + k + 1) level).run ⟨⟨.symbol "(", m⟩ :: words, l⟩ =
      some ([e], ⟨[], line⟩) := by
    rw [exprs]
    simp [value (n + k) (by omega), accept_other noComma]
  rw [show n + 2 + k = n + k + 1 + 1 by omega, block]
  simp only [atBlockEnd, statement]
  simp [next?_run, mark_run, markOf, values, discard_run, take_run, accept_other noEnd]

end Parse

inductive Expr.Follows (v : String) : List Json.Step → Expr → Prop
  | name (line : Nat) : Follows v [] (.name v line)
  | key {path : List Json.Step} {e : Expr} (before : Follows v path e) (k : String)
      (line : Nat) : Follows v (path ++ [.key k]) (.index e (.string (.ofText k)) line)
  | position {path : List Json.Step} {e : Expr} (before : Follows v path e) (i line : Nat) :
    Follows v (path ++ [.position i]) (.index e (.number (.int (.ofNat (1 + i)))) line)

section

variable {v : String} {path : List Json.Step} {e : Expr}

theorem Expr.Follows.eq_name (follows : Follows v [] e) : ∃ line, e = .name v line := by
  generalize empty : [] = path at follows
  cases follows with
  | name line => exact ⟨line, rfl⟩
  | _ => simp at empty

theorem Expr.Follows.atLine (follows : Follows v path e) (line : Nat) :
    Follows v path (e.atLine line) := by
  cases follows with
  | name => exact .name line
  | key before k => exact .key before k line
  | position before i => exact .position before i line

theorem Expr.Follows.isScoped (follows : Follows v path e) (s : Site) : e.isScoped s = true := by
  induction follows with
  | name => rfl
  | key before k line ih => simp [Expr.isScoped, ih]
  | position before i line ih => simp [Expr.isScoped, ih]

end

namespace Parse

theorem exists_words {t : Token} {ts : List Token} {words : List Lexeme}
    (tokens : words.map Lexeme.token = t :: ts) :
    ∃ l rest, words = ⟨t, l⟩ :: rest ∧ rest.map Lexeme.token = ts := by
  cases words with
  | nil => cases tokens
  | cons word rest =>
    obtain ⟨same, more⟩ := List.cons.inj tokens
    exact ⟨word.line, rest, by rw [← same], more⟩

theorem exists_bracketed {t : Token} {ts : List Token} {words : List Lexeme}
    (tokens : words.map Lexeme.token = .symbol "[" :: t :: .symbol "]" :: ts) :
    ∃ a b c rest, words = ⟨.symbol "[", a⟩ :: ⟨t, b⟩ :: ⟨.symbol "]", c⟩ :: rest ∧
      rest.map Lexeme.token = ts := by
  obtain ⟨a, _, rfl, inner⟩ := exists_words tokens
  obtain ⟨b, _, rfl, last⟩ := exists_words inner
  obtain ⟨c, rest, rfl, more⟩ := exists_words last
  exact ⟨a, b, c, rest, rfl, more⟩

variable {v : String} {level : Nat}

theorem suffixes_path {path before : List Json.Step} {base : Expr} {words : List Lexeme}
    {ts : List Token} (tokens : words.map Lexeme.token = path.flatMap Token.stepTokens ++ ts)
    (ends : ∀ w : Words, w.rest.map Lexeme.token = ts → EndsValue w)
    (start : base.Follows v before) (line : Nat) :
    ∃ e w, Reads (fun fuel => suffixes fuel (level + 1) base) (path.length + 4) ⟨words, line⟩ e w ∧
      w.rest.map Lexeme.token = ts ∧ e.Follows v (before ++ path) := by
  induction path generalizing before base words line with
  | nil =>
    refine ⟨base, ⟨words, line⟩, (suffixes_end (ends _ tokens) base).mono (by simp), tokens, ?_⟩
    rwa [List.append_nil]
  | cons step path ih =>
    have all : before ++ step :: path = before ++ [step] ++ path := by simp
    rw [all]
    cases step with
    | key k =>
      obtain ⟨a, b, c, rest, rfl, more⟩ := exists_bracketed tokens
      obtain ⟨e, w, reads, left, follows⟩ := ih more (.key start k c) c
      have inner : Reads (fun fuel => expr fuel (level + 1) 0) 3
          ⟨⟨.string (.ofText k), b⟩ :: ⟨.symbol "]", c⟩ :: rest, a⟩ _ _ := expr_string _ rfl
      exact ⟨e, w, suffixes_index (inner.mono (by omega)) reads, left, follows⟩
    | position i =>
      obtain ⟨a, b, c, rest, rfl, more⟩ := exists_bracketed tokens
      obtain ⟨e, w, reads, left, follows⟩ := ih more (.position start i c) c
      have inner : Reads (fun fuel => expr fuel (level + 1) 0) 3
          ⟨⟨.number (.int (.ofNat (1 + i))), b⟩ :: ⟨.symbol "]", c⟩ :: rest, a⟩ _ _ :=
        expr_number _ rfl
      exact ⟨e, w, suffixes_index (inner.mono (by omega)) reads, left, follows⟩

end Parse

def IsRead (text : String) (holds : Expr → Prop) : Prop :=
  ∃ ts n, (∀ line, Token.Scans line (text.toList ++ [')']) (ts ++ [.symbol ")"])) ∧
    n ≤ 20 * ts.length + 60 ∧
    ∀ words line, words.map Lexeme.token = ts ++ [.symbol ")"] →
      ∃ e m l, Parse.Reads (fun fuel => Parse.expr fuel 197 0) n ⟨words, line⟩ e
        ⟨[⟨.symbol ")", m⟩], l⟩ ∧ holds (e.atLine m)

open Parse in
theorem compile_of_isRead {text : String} {holds : Expr → Prop} (read : IsRead text holds)
    (sound : ∀ e, holds e → e.isScoped .ofChunk = true) :
    ∃ e, compile text = .ok [.ret [.paren e]] ∧ holds e := by
  obtain ⟨ts, n, scans, room, reads⟩ := read
  have chars : ("return (" ++ text ++ ")").toList =
      "return".toList ++ ' ' :: '(' :: (text.toList ++ [')']) := by
    simp
  have keyword : Token.ofWord "return" = .keyword "return" := rfl
  have whole : Token.Scans 1 ("return (" ++ text ++ ")").toList
      (.keyword "return" :: .symbol "(" :: (ts ++ [.symbol ")"])) := by
    rw [chars, ← keyword]
    have opened := Token.scans_open (scans 1)
    exact Token.scans_name ⟨⟨'r', _, rfl, by decide⟩, forall_chars (by decide)⟩ rfl opened.blank
  obtain ⟨words, scanned, tokens⟩ := Token.scan_of_scans whole
  have count := congrArg List.length tokens
  obtain ⟨a, _, rfl, opened⟩ := exists_words tokens
  obtain ⟨b, words, rfl, inside⟩ := exists_words opened
  obtain ⟨e, m, l, inner, held⟩ := reads words b inside
  have value : Reads (fun fuel => simple fuel 197) (n + 3)
      ⟨⟨.symbol "(", b⟩ :: words, a⟩ (.paren (e.atLine m)) ⟨[], m⟩ :=
    simple_paren inner (suffixes_end (endsValue_nil m) _)
  have body := block_return (expr_of_simple rfl value (operators_end (endsExpr_nil m) _)) 1
  have length : words.length = ts.length + 1 := by simpa using congrArg List.length inside
  have read := body (20 * (words.length + 2) + 20) (by omega)
  have chunk : Chunk.ofText? ("return (" ++ text ++ ")") = some [.ret [.paren (e.atLine m)]] := by
    have run : (block (20 * (words.length + 2) + 20) Chunk.nestingLimit).run
        ⟨⟨.keyword "return", a⟩ :: ⟨.symbol "(", b⟩ :: words, 1⟩ = _ := read
    simp [Chunk.ofText?, scanned, run]
  have scope : Chunk.isScoped [.ret [.paren (e.atLine m)]] = true := by
    have inside := sound _ held
    simp [Chunk.isScoped, Stmt.jumpsOfBlock, Stmt.jumps, Expr.areScoped, Expr.isScoped, inside,
      Stmt.resolve]
  refine ⟨e.atLine m, ?_, held⟩
  simp [compile, chunkOf?, chunk, scope]

section

variable {v : Variable} {path : List Json.Step}

theorem isIdentifier_contains : IsIdentifier "contains" :=
  ⟨⟨'c', _, rfl, by decide⟩, forall_chars (by decide)⟩

theorem ofWord_name {name : String} (free : Token.keywords.contains name = false) :
    Token.ofWord name = .name name := by
  rw [Token.ofWord, free, if_neg Bool.false_ne_true]

theorem isKeyword_name (v : Variable) : Token.keywords.contains v.name = false := by
  cases v <;> decide

theorem startsPlain_name {name : String} {ts : List Token} {words : List Lexeme}
    (tokens : words.map Lexeme.token = .name name :: ts) :
    Parse.unaryOp? (Parse.markOf words) = none := by
  obtain ⟨l, rest, rfl, -⟩ := Parse.exists_words tokens
  rfl

theorem simple_path {ts : List Token} {words : List Lexeme}
    (tokens : words.map Lexeme.token =
      .name v.name :: (path.flatMap Token.stepTokens ++ ts))
    (ends : ∀ w : Words, w.rest.map Lexeme.token = ts → Parse.EndsValue w) (level line : Nat) :
    ∃ e w, Parse.Reads (fun fuel => Parse.simple fuel (level + 1)) (path.length + 6) ⟨words, line⟩
      e w ∧ w.rest.map Lexeme.token = ts ∧ e.Follows v.name path := by
  obtain ⟨l, rest, rfl, more⟩ := Parse.exists_words tokens
  obtain ⟨e, w, reads, left, follows⟩ := Parse.suffixes_path more ends (.name l) l
  exact ⟨e, w, Parse.simple_name reads, left, follows⟩

theorem length_flatMap_stepTokens (path : List Json.Step) :
    (path.flatMap Token.stepTokens).length = 3 * path.length := by
  induction path with
  | nil => rfl
  | cons step path ih =>
    rw [List.flatMap_cons, List.length_append, ih, List.length_cons]
    cases step <;> simp [Token.stepTokens] <;> omega

theorem endsName_path {isLiteral : List Char → String → Prop} {first : Nat} {cs rest : List Char}
    (spelled : PathSpelled isLiteral first path cs)
    (ends : rest.takeWhile Token.isNameChar = []) :
    (cs ++ rest).takeWhile Token.isNameChar = [] := by
  cases spelled with
  | nil => exact ends
  | key => rfl
  | position => rfl

theorem endsValue_of_tokens {text : String} {ts : List Token}
    (other : text ∉ [".", "[", ":", "(", "\x7b"]) (w : Words)
    (tokens : w.rest.map Lexeme.token = .symbol text :: ts) : Parse.EndsValue w := by
  obtain ⟨rest, line⟩ := w
  obtain ⟨l, more, rfl, -⟩ := Parse.exists_words tokens
  exact Parse.endsValue_symbol text other

theorem scans_variable_path {cs rest : List Char} {ts : List Token}
    (spelled : PathSpelled Token.IsLiteral 1 path cs)
    (small : ∀ i, .position i ∈ path → ((1 + i : Nat) : Int) < intBound)
    (ends : rest.takeWhile Token.isNameChar = []) (more : ∀ line, Token.Scans line rest ts)
    (line : Nat) :
    Token.Scans line (v.name.toList ++ (cs ++ rest))
      (.name v.name :: (path.flatMap Token.stepTokens ++ ts)) := by
  rw [← ofWord_name (isKeyword_name v)]
  exact Token.scans_name (isIdentifier_of_variable v) (endsName_path spelled ends)
    (Token.scans_path spelled small more line)

theorem compile_path {indices : String}
    (spelled : PathSpelled Token.IsLiteral 1 path indices.toList)
    (small : ∀ i, .position i ∈ path → ((1 + i : Nat) : Int) < intBound) :
    ∃ e, compile (v.name ++ indices) = .ok [.ret [.paren e]] ∧ e.Follows v.name path := by
  refine compile_of_isRead ⟨.name v.name :: path.flatMap Token.stepTokens, path.length + 8,
    fun line => ?_, ?_, fun words line tokens => ?_⟩ fun e follows => follows.isScoped _
  · have closed := fun line => Token.scans_close (Token.scans_nil line)
    have scans := scans_variable_path (v := v) spelled small rfl closed line
    simpa using scans
  · rw [List.length_cons, length_flatMap_stepTokens]
    omega
  · obtain ⟨e, ⟨rest, l⟩, reads, left, follows⟩ :=
      simple_path tokens (endsValue_of_tokens (by decide)) 195 line
    obtain ⟨m, more, rfl, empty⟩ := Parse.exists_words left
    cases List.map_eq_nil_iff.1 empty
    have ends : Parse.EndsExpr ⟨[⟨.symbol ")", m⟩], l⟩ := rfl
    exact ⟨e, m, l, (Parse.expr_of_simple (startsPlain_name tokens) reads
      (Parse.operators_end ends e)).mono (by omega), follows.atLine m⟩

theorem compile_equal {key literal k s : String} (first : Token.IsLiteral key.toList k)
    (second : Token.IsLiteral literal.toList s) :
    ∃ e l, compile (v.name ++ "[" ++ key ++ "] == " ++ literal) =
      .ok [.ret [.paren (.binary .equal e (.string (.ofText s)) l)]] ∧
        e.Follows v.name [.key k] := by
  have spelled : PathSpelled Token.IsLiteral 1 [.key k] ('[' :: key.toList ++ ']' :: []) :=
    .key first .nil
  let holds : Expr → Prop := fun whole =>
    ∃ e l, whole = .binary .equal e (.string (.ofText s)) l ∧ e.Follows v.name [.key k]
  have read : IsRead (v.name ++ "[" ++ key ++ "] == " ++ literal) holds := by
    refine ⟨.name v.name :: ([Json.Step.key k].flatMap Token.stepTokens ++
      [.symbol "==", .string (.ofText s)]), 14, fun line => ?_, by simp,
      fun words line tokens => ?_⟩
    · have last : ∀ line, Token.Scans line (literal.toList ++ [')'])
          [.string (.ofText s), .symbol ")"] :=
        second.scans fun line => Token.scans_close (Token.scans_nil line)
      have operator : ∀ line, Token.Scans line (' ' :: '=' :: '=' :: ' ' ::
          (literal.toList ++ [')'])) [.symbol "==", .string (.ofText s), .symbol ")"] :=
        fun line => (Token.scans_equal (last line).blank).blank
      have scans := scans_variable_path (v := v) spelled (by simp) rfl operator line
      simpa using scans
    · have path : words.map Lexeme.token = .name v.name ::
          ([Json.Step.key k].flatMap Token.stepTokens ++
            [.symbol "==", .string (.ofText s), .symbol ")"]) := by
        simpa using tokens
      obtain ⟨e, ⟨rest, l⟩, reads, left, follows⟩ :=
        simple_path path (endsValue_of_tokens (by decide)) 195 line
      obtain ⟨equal, _, rfl, operand⟩ := Parse.exists_words left
      obtain ⟨a, _, rfl, close⟩ := Parse.exists_words operand
      obtain ⟨m, more, rfl, empty⟩ := Parse.exists_words close
      cases List.map_eq_nil_iff.1 empty
      have value : Parse.Reads (fun fuel => Parse.expr fuel 196 3) 3
          ⟨⟨.string (.ofText s), a⟩ :: [⟨.symbol ")", m⟩], equal⟩ _ _ :=
        Parse.expr_string _ (Parse.endsExpr_symbol rfl)
      have whole := Parse.expr_equal (startsPlain_name tokens) reads value
        (Parse.endsExpr_symbol rfl)
      exact ⟨_, m, a, whole.mono (by simp), e.atLine equal, equal, rfl, follows.atLine equal⟩
  obtain ⟨_, compiled, e, l, rfl, follows⟩ := compile_of_isRead read (by
    rintro _ ⟨e, l, rfl, follows⟩
    simp [Expr.isScoped, follows.isScoped])
  exact ⟨e, l, compiled, follows⟩

-- The words of a rule that looks a string up in a field, up to the one that closes the call.
def containsTokens (v : Variable) (field s : String) : List Token :=
  [.name "contains", .symbol "(", .name v.name, .symbol ".", .name field, .symbol ",",
    .string (.ofText s), .symbol ")"]

theorem scans_contains {literal : List Char} {field s : String}
    (spelled : Token.IsLiteral literal s) (word : IsIdentifier field)
    (free : Token.keywords.contains field = false) {rest : List Char} {ts : List Token}
    (more : ∀ line, Token.Scans line rest ts) (line : Nat) :
    Token.Scans line ("contains".toList ++ '(' :: (v.name.toList ++ '.' :: (field.toList ++
      ',' :: ' ' :: (literal ++ ')' :: rest)))) (containsTokens v field s ++ ts) := by
  have item := Token.scans_comma
    (spelled.scans (fun line => Token.scans_close (more line)) line).blank
  have name := Token.scans_name word rfl item
  obtain ⟨c, cs, chars, start⟩ := word.start
  have noDigit : c.isDigit = false := by
    cases digit : c.isDigit with
    | false => rfl
    | true =>
      have other := (forall_chars (by decide) : ∀ c ∈ digits, (c.isAlpha || c == '_') = false) c
        (mem_digits digit)
      rw [start] at other
      cases other
  have noDot : c ≠ '.' := by
    rintro rfl
    cases start
  rw [ofWord_name free, chars] at name
  have list := Token.scans_name (isIdentifier_of_variable v) rfl
    (Token.scans_dot noDigit noDot name)
  rw [ofWord_name (isKeyword_name v)] at list
  have whole := Token.scans_name isIdentifier_contains rfl (Token.scans_open list)
  rw [ofWord_name (by decide : Token.keywords.contains "contains" = false)] at whole
  rw [chars]
  exact whole

open Parse in
theorem expr_contains {words : List Lexeme} {field s : String}
    (tokens : words.map Lexeme.token = containsTokens v field s ++ [.symbol ")"]) (line : Nat) :
    ∃ e a b m l, Reads (fun fuel => expr fuel 197 0) 20 ⟨words, line⟩
      (.call (.name "contains" a) [e, .string (.ofText s)] b) ⟨[⟨.symbol ")", m⟩], l⟩ ∧
        e.Follows v.name [.key field] := by
  obtain ⟨a, _, rfl, opened⟩ := exists_words tokens
  obtain ⟨b, _, rfl, list⟩ := exists_words opened
  obtain ⟨c, _, rfl, dot⟩ := exists_words list
  obtain ⟨d, _, rfl, name⟩ := exists_words dot
  obtain ⟨l, _, rfl, comma⟩ := exists_words name
  obtain ⟨k, _, rfl, item⟩ := exists_words comma
  obtain ⟨i, _, rfl, inner⟩ := exists_words item
  obtain ⟨j, _, rfl, outer⟩ := exists_words inner
  obtain ⟨m, more, rfl, empty⟩ := exists_words outer
  cases List.map_eq_nil_iff.1 empty
  have left : Reads (fun fuel => expr fuel 196 0) 6 ⟨⟨.name v.name, c⟩ :: ⟨.symbol ".", d⟩ ::
      ⟨.name field, l⟩ :: ⟨.symbol ",", k⟩ :: ⟨.string (.ofText s), i⟩ :: ⟨.symbol ")", j⟩ ::
        [⟨.symbol ")", m⟩], b⟩ _ _ :=
    expr_of_simple rfl
      (simple_name (suffixes_field (suffixes_end (endsValue_symbol "," (by decide)) _)))
      (operators_end (endsExpr_symbol rfl) _)
  have right : Reads (fun fuel => expr fuel 196 0) 3 ⟨⟨.string (.ofText s), i⟩ ::
      ⟨.symbol ")", j⟩ :: [⟨.symbol ")", m⟩], k⟩ _ _ :=
    expr_string _ (endsExpr_symbol rfl)
  have answer : EndsValue ⟨[⟨.symbol ")", m⟩], j⟩ := endsValue_symbol _ (by decide)
  have call := suffixes_call left (right.mono (by omega)) (by simp [markOf])
    ((suffixes_end answer (.call (.name "contains" a) _ b)).mono (by omega)) a
  have ends : EndsExpr ⟨[⟨.symbol ")", m⟩], j⟩ := rfl
  have whole : Reads (fun fuel => expr fuel 197 0) 20 ⟨⟨.name "contains", a⟩ :: ⟨.symbol "(", b⟩ ::
      ⟨.name v.name, c⟩ :: ⟨.symbol ".", d⟩ :: ⟨.name field, l⟩ :: ⟨.symbol ",", k⟩ ::
        ⟨.string (.ofText s), i⟩ :: ⟨.symbol ")", j⟩ :: [⟨.symbol ")", m⟩], line⟩ _ _ :=
    (expr_of_simple rfl (simple_name call) (operators_end ends _)).mono (by omega)
  have follows : Expr.Follows v.name [.key field] _ := ((Expr.Follows.name c).key field l).atLine k
  exact ⟨_, a, b, m, j, whole, follows⟩

theorem compile_contains {literal field s : String} (spelled : Token.IsLiteral literal.toList s)
    (word : IsIdentifier field) (free : Token.keywords.contains field = false) :
    ∃ e a b, compile ("contains(" ++ v.name ++ "." ++ field ++ ", " ++ literal ++ ")") =
      .ok [.ret [.paren (.call (.name "contains" a) [e, .string (.ofText s)] b)]] ∧
        e.Follows v.name [.key field] := by
  let holds : Expr → Prop := fun whole =>
    ∃ e a b, whole = .call (.name "contains" a) [e, .string (.ofText s)] b ∧
      e.Follows v.name [.key field]
  have read : IsRead ("contains(" ++ v.name ++ "." ++ field ++ ", " ++ literal ++ ")") holds := by
    refine ⟨containsTokens v field s, 20, fun line => ?_, by omega, fun words line tokens => ?_⟩
    · have scans := scans_contains (v := v) spelled word free
        (fun line => Token.scans_close (Token.scans_nil line)) line
      simpa using scans
    · obtain ⟨e, a, b, m, l, reads, follows⟩ := expr_contains tokens line
      exact ⟨_, m, l, reads, e, a, b, rfl, follows⟩
  obtain ⟨_, compiled, e, a, b, rfl, follows⟩ := compile_of_isRead read (by
    rintro _ ⟨e, a, b, rfl, follows⟩
    simp [Expr.isScoped, Expr.areScoped, follows.isScoped])
  exact ⟨e, a, b, compiled, follows⟩

end

end CallGuard.Lua
