import CallGuard.Proofs.Lua.Pasted
import CallGuard.Proofs.Lua.Tails
import CallGuard.Proofs.Lua.Verdicts

set_option autoImplicit false

namespace CallGuard.Lua

namespace Parse

variable {words ws after : List Lexeme} {e : Expr} {fuel level line : Nat}

-- The nesting that is left inside the bracket of a returned value.
def innerLevel : Nat := Chunk.nestingLimit - 2

def Whole (words : List Lexeme) (e : Expr) : Prop :=
  ∃ fuel line, (expr fuel innerLevel 0).run ⟨words, 1⟩ = some (e, ⟨[], line⟩)

theorem Whole.reads (whole : Whole words e) {tail : List Lexeme} (closing : Closing tail) :
    ∃ line, Reads (fun fuel => expr fuel innerLevel 0) (20 * words.length + 3)
      ⟨words ++ tail, 1⟩ e ⟨tail, line⟩ := by
  obtain ⟨fuel, line, ran⟩ := whole
  refine ⟨line, fun more enough => ?_⟩
  have swaps := (below (.inl rfl) closing fuel).expr (20 * words.length) more innerLevel 0
    (by omega)
  rw [← List.append_nil words] at ran
  obtain ⟨r, rest, read⟩ := swaps.swap words 1 e _ (Int.le_refl _) ran (Nat.le_refl _)
  rw [List.append_nil] at rest
  obtain rfl : r = [] := rest.symm
  exact read

theorem whole_of_run {tail : List Lexeme} (closing : Closing tail)
    (ran : (expr fuel innerLevel 0).run ⟨words ++ tail, 1⟩ = some (e, ⟨tail, line⟩)) :
    Whole words e := by
  have swaps := (below closing (.inl rfl) fuel).expr (20 * words.length)
    (20 * words.length + 3) innerLevel 0 (by omega)
  obtain ⟨r, rest, read⟩ := swaps.swap words 1 e _ (Int.le_refl _) ran (Nat.le_refl _)
  obtain rfl : r = [] := List.append_cancel_right (rest.symm : r ++ tail = [] ++ tail)
  rw [List.append_nil] at read
  exact ⟨_, line, read⟩

theorem took_of_run {limit : Nat} {w w' : Words}
    (ran : (expr fuel level limit).run w = some (e, w')) : Took 1 w w' := by
  have nothing : Closing [] := .inl rfl
  exact ((below nothing nothing fuel).expr 0 3 level limit (Int.le_refl 3)).took w e w' ran

theorem Whole.not_closed {before : List Lexeme} {l : Nat} {e' : Expr}
    (whole : Whole (before ++ ⟨.symbol ")", l⟩ :: after) e) : ¬Whole before e' := by
  intro first
  obtain ⟨_, all⟩ := whole.reads (.inl rfl)
  obtain ⟨_, part⟩ := first.reads (.inr ⟨l, after, rfl⟩)
  have enough := all (20 * (before ++ ⟨.symbol ")", l⟩ :: after).length + 3) (Nat.le_refl _)
  have same := part (20 * (before ++ ⟨.symbol ")", l⟩ :: after).length + 3)
    (by rw [List.length_append]; omega)
  rw [List.append_nil] at enough
  cases enough.symm.trans same

theorem bracketed_of_block (fuel level : Nat) {l m start : Nat} {body : List Stmt} {left : Words}
    (ran : (block (fuel + 6) (level + 2)).run
      ⟨⟨.keyword "return", l⟩ :: ⟨.symbol "(", m⟩ :: words, start⟩ = some (body, left)) :
    ∃ e w, (expr fuel level 0).run ⟨words, m⟩ = some (e, w) ∧ markOf w.rest = ")" := by
  have values : ∃ es w, (exprs (fuel + 4) (level + 1)).run ⟨⟨.symbol "(", m⟩ :: words, l⟩ =
      some (es, w) := by
    rw [block] at ran
    simp only [atBlockEnd, statement] at ran
    cases read : (exprs (fuel + 4) (level + 1)).run ⟨⟨.symbol "(", m⟩ :: words, l⟩ with
    | none => simp [next?_run, mark_run, markOf, discard_run, take_run, read] at ran
    | some result => exact ⟨result.1, result.2, rfl⟩
  obtain ⟨es, w, ran⟩ := values
  rw [exprs] at ran
  obtain ⟨v, w, ran, -⟩ := bind_ran ran
  have value : ∃ v w, (simple (fuel + 2) level).run ⟨⟨.symbol "(", m⟩ :: words, l⟩ =
      some (v, w) := by
    cases read : (simple (fuel + 2) level).run ⟨⟨.symbol "(", m⟩ :: words, l⟩ with
    | none => simp [expr, mark_run, markOf, unaryOp?, read] at ran
    | some result => exact ⟨result.1, result.2, rfl⟩
  obtain ⟨v, w, ran⟩ := value
  cases read : (expr fuel level 0).run ⟨words, m⟩ with
  | none => simp [simple, next?_run, mark_run, markOf, suffixed, accept_symbol, read] at ran
  | some result =>
    refine ⟨result.1, result.2, rfl, ?_⟩
    by_contra other
    obtain ⟨e, after, line⟩ := result
    simp [simple, next?_run, mark_run, markOf, suffixed, accept_symbol, read, expect,
      accept_other other] at ran

end Parse

open Parse Token

def wrapped (text : String) : String := "return (" ++ text ++ ")"

section

variable {text : String} {words : List Lexeme} {e : Expr} {line : Nat} {last : TextEnd}
  {chunk : Chunk}

theorem scan_of_scanned (scanned : scanned? text = some (words, last)) :
    scan (wrapped text) =
      some (⟨.keyword "return", 1⟩ :: ⟨.symbol "(", 1⟩ :: closed words last) := by
  rw [wrapped, scan_wrapped, scanned]
  rfl

theorem ofText?_of_whole (scanned : scanned? text = some (words, ⟨line, false⟩))
    (whole : Whole words e) :
    Chunk.ofText? (wrapped text) = some [.ret [.paren (e.atLine line)]] := by
  have closing : Closing [⟨.symbol ")", line⟩] := .inr ⟨line, [], rfl⟩
  obtain ⟨l, inner⟩ := whole.reads closing
  have value : Reads (fun fuel => simple fuel innerLevel) _ ⟨⟨.symbol "(", 1⟩ :: _, 1⟩ _ _ :=
    simple_paren inner (suffixes_end (endsValue_nil line) (.paren (e.atLine line)))
  have body := block_return (expr_of_simple rfl value (operators_end (endsExpr_nil line) _)) 1
  have read := body (20 * (words.length + 3) + 20) (by omega)
  have run : (block (20 * (words.length + 3) + 20) Chunk.nestingLimit).run
      ⟨⟨.keyword "return", 1⟩ :: ⟨.symbol "(", 1⟩ :: (words ++ [⟨.symbol ")", line⟩]), 1⟩ = _ :=
    read
  simp [Chunk.ofText?, scan_of_scanned scanned, closed, run]

theorem starts_symbol {s : String} (starts : markOf words = s) (something : s ≠ "")
    (noKeyword : ∀ x ∈ words, x.token ≠ .keyword s) :
    ∃ line rest, words = ⟨.symbol s, line⟩ :: rest := by
  unfold markOf at starts
  split at starts
  · next line rest =>
    subst starts
    exact ⟨line, rest, rfl⟩
  · next line rest => exact (noKeyword _ List.mem_cons_self (congrArg Token.keyword starts)).elim
  · exact (something starts.symm).elim

theorem closed_cases {before after : List Lexeme}
    (split : closed words last = before ++ ⟨.symbol ")", line⟩ :: after) :
    (last.inComment = false ∧ words = before) ∨
      ∃ after, words = before ++ ⟨.symbol ")", line⟩ :: after := by
  unfold closed at split
  split at split
  · exact .inr ⟨after, split⟩
  · next ends =>
    rcases List.eq_nil_or_concat' after with rfl | ⟨inside, x, rfl⟩
    · exact .inl ⟨Bool.eq_false_iff.2 ends, (List.append_inj' split rfl).1⟩
    · rw [← List.cons_append, ← List.append_assoc] at split
      exact .inr ⟨inside, (List.append_inj' split rfl).1⟩

theorem whole_of_ofText? (read : Chunk.ofText? (wrapped text) = some chunk) :
    ∃ words last, scanned? text = some (words, last) ∧
      ((last.inComment = false ∧ ∃ e, Whole words e) ∨
        ∃ before line after e, words = before ++ ⟨.symbol ")", line⟩ :: after ∧
          Whole before e) := by
  unfold Chunk.ofText? at read
  cases scanned : scanned? text with
  | none =>
    rw [wrapped, scan_wrapped, scanned] at read
    cases read
  | some result =>
    obtain ⟨words, last⟩ := result
    refine ⟨words, last, rfl, ?_⟩
    have all := scan_of_scanned scanned
    rw [all] at read
    obtain ⟨_, same, read⟩ := Option.bind_eq_some_iff.1 read
    cases same
    obtain ⟨⟨body, left⟩, ran, -⟩ := Option.bind_eq_some_iff.1 read
    obtain ⟨e, ⟨rest, line⟩, ran, closes⟩ :=
      bracketed_of_block (20 * (closed words last).length + 54) innerLevel ran
    obtain ⟨before, -, split⟩ := took_of_run ran
    simp only at split closes
    have member (x : Lexeme) (later : x ∈ rest) : x.token ≠ .keyword ")" := by
      apply scanFrom_ne (by decide) all x
      rw [split]
      simp [later]
    obtain ⟨line', after, rfl⟩ := starts_symbol closes (by decide) member
    rw [split] at ran
    have whole := whole_of_run (.inr ⟨line', after, rfl⟩) ran
    rcases closed_cases split with ⟨ends, rfl⟩ | ⟨after, rfl⟩
    · exact .inl ⟨ends, e, whole⟩
    · exact .inr ⟨before, line', after, e, rfl, whole⟩

theorem isScoped_atLine (s : Site) (e : Expr) (line : Nat) :
    (e.atLine line).isScoped s = e.isScoped s := by
  fun_induction Expr.atLine line e <;> simp_all [Expr.isScoped]

theorem isScoped_returned (e : Expr) : Chunk.isScoped [.ret [.paren e]] = e.isScoped .ofChunk := by
  cases inScope : e.isScoped .ofChunk <;>
    simp [Chunk.isScoped, Stmt.jumpsOfBlock, Stmt.jumps, Expr.areScoped, Expr.isScoped,
      Stmt.resolve, inScope]

-- No comment goes on to the end of the text.
structure IsExpression (text : String) (e : Expr) (line : Nat) : Prop where
  read : ∃ words, scan text = some words ∧ Whole words e
  ends : endOf? text = some ⟨line, false⟩
  inScope : e.isScoped .ofChunk = true

-- The text begins with an expression and a bracket that closes one in front of the text.
def ClosesBracket (text : String) : Prop :=
  ∃ before line after e,
    scan text = some (before ++ ⟨.symbol ")", line⟩ :: after) ∧ Whole before e

inductive StandsFor (text : String) : Chunk → Prop
  | expression {e : Expr} {line : Nat} (whole : IsExpression text e line) :
    StandsFor text [.ret [.paren (e.atLine line)]]
  | brackets {chunk : Chunk} (closes : ClosesBracket text)
    (read : chunkOf? (wrapped text) = some chunk) : StandsFor text chunk
  | itself {chunk : Chunk} (noExpression : ∀ e line, ¬IsExpression text e line)
    (noBrackets : ClosesBracket text → chunkOf? (wrapped text) = none)
    (read : chunkOf? text = some chunk) : StandsFor text chunk

theorem chunkOf?_eq_some_iff :
    chunkOf? text = some chunk ↔ Chunk.ofText? text = some chunk ∧ chunk.isScoped = true := by
  unfold chunkOf?
  cases Chunk.ofText? text with
  | none => simp
  | some c =>
    constructor
    · intro read
      obtain ⟨_, same, read⟩ := Option.bind_eq_some_iff.1 read
      cases same
      split at read
      · next inScope =>
        cases read
        exact ⟨rfl, inScope⟩
      · cases read
    · rintro ⟨same, inScope⟩
      cases same
      show (if chunk.isScoped = true then some chunk else none) = some chunk
      rw [if_pos inScope]

theorem IsExpression.chunkOf? (whole : IsExpression text e line) :
    chunkOf? (wrapped text) = some [.ret [.paren (e.atLine line)]] := by
  obtain ⟨words, scanned, read⟩ := whole.read
  have scanned := scanned?_eq_some_iff.2 ⟨scanned, whole.ends⟩
  refine chunkOf?_eq_some_iff.2 ⟨ofText?_of_whole scanned read, ?_⟩
  rw [isScoped_returned, isScoped_atLine]
  exact whole.inScope

theorem wrapped_cases (read : chunkOf? (wrapped text) = some chunk) :
    (∃ e line, IsExpression text e line ∧ chunk = [.ret [.paren (e.atLine line)]]) ∨
      ClosesBracket text := by
  obtain ⟨parsed, inScope⟩ := chunkOf?_eq_some_iff.1 read
  obtain ⟨words, last, scanned, ⟨ends, e, whole⟩ | ⟨before, line, after, e, rfl, whole⟩⟩ :=
    whole_of_ofText? parsed
  · obtain ⟨line, inComment⟩ := last
    cases ends
    have same := Option.some.inj (parsed.symm.trans (ofText?_of_whole scanned whole))
    rw [same, isScoped_returned, isScoped_atLine] at inScope
    obtain ⟨scan, ends⟩ := scanned?_eq_some_iff.1 scanned
    exact .inl ⟨e, line, ⟨⟨words, scan, whole⟩, ends, inScope⟩, same⟩
  · exact .inr ⟨before, line, after, e, (scanned?_eq_some_iff.1 scanned).1, whole⟩

theorem standsFor_iff :
    StandsFor text chunk ↔ (chunkOf? (wrapped text)).or (chunkOf? text) = some chunk := by
  rw [Option.or_eq_some_iff]
  constructor
  · intro stands
    cases stands with
    | expression whole => exact .inl whole.chunkOf?
    | brackets closes read => exact .inl read
    | itself noExpression noBrackets read =>
      refine .inr ⟨?_, read⟩
      cases both : chunkOf? (wrapped text) with
      | none => rfl
      | some other =>
        rcases wrapped_cases both with ⟨e, line, whole, -⟩ | closes
        · exact (noExpression e line whole).elim
        · exact both.symm.trans (noBrackets closes)
  · rintro (read | ⟨nothing, read⟩)
    · rcases wrapped_cases read with ⟨e, line, whole, rfl⟩ | closes
      · exact .expression whole
      · exact .brackets closes read
    · apply StandsFor.itself _ (fun _ => nothing) read
      intro e line whole
      rw [whole.chunkOf?] at nothing
      cases nothing

theorem compile_eq (text : String) :
    compile text = ((chunkOf? (wrapped text)).or (chunkOf? text)).elim
      (.error (.compile text .elided)) .ok := by
  cases read : (chunkOf? (wrapped text)).or (chunkOf? text) with
  | none =>
    rw [wrapped] at read
    rw [compile, read]
    rfl
  | some chunk =>
    rw [wrapped] at read
    rw [compile, read]
    rfl

theorem compile_eq_ok_iff : compile text = .ok chunk ↔ StandsFor text chunk := by
  rw [standsFor_iff, compile_eq]
  cases (chunkOf? (wrapped text)).or (chunkOf? text) <;> simp

theorem compile_eq_error_iff {error : Error} : compile text = .error error ↔
    error = Error.compile text .elided ∧ ∀ chunk, ¬StandsFor text chunk := by
  simp only [standsFor_iff, compile_eq]
  cases (chunkOf? (wrapped text)).or (chunkOf? text) with
  | none => simp [eq_comm]
  | some chunk => simp

theorem standsFor_of_inComment {words : List Lexeme} (scanned : scan text = some words)
    (whole : Whole words e) (ends : endOf? text = some ⟨line, true⟩) :
    StandsFor text chunk ↔ chunkOf? text = some chunk := by
  have noExpression (e : Expr) (line : Nat) : ¬IsExpression text e line := by
    intro other
    cases ends.symm.trans other.ends
  have noBrackets : ¬ClosesBracket text := by
    rintro ⟨before, line, after, e', scanned', first⟩
    obtain rfl := Option.some.inj (scanned.symm.trans scanned')
    exact whole.not_closed first
  constructor
  · intro stands
    cases stands with
    | expression other => exact (noExpression _ _ other).elim
    | brackets closes _ => exact (noBrackets closes).elim
    | itself _ _ read => exact read
  · exact fun read => .itself noExpression (fun closes => (noBrackets closes).elim) read

theorem program_of_text (text : String) :
    (∀ chunk, compile text = .ok chunk ↔ StandsFor text chunk) ∧
      (∀ error, compile text = .error error ↔
        error = Error.compile text .elided ∧ ∀ chunk, ¬StandsFor text chunk) ∧
      (∀ e line, IsExpression text e line →
        compile text = .ok [.ret [.paren (e.atLine line)]] ∧
          ∀ (scope : Scope) (h : Heap),
            (execBlock scope [.ret [.paren (e.atLine line)]]).run h =
              eval scope (e.atLine line) (fun vs h => .done (.returned [firstOf vs]) h) h) ∧
      ∀ words e line, scan text = some words → Whole words e → endOf? text = some ⟨line, true⟩ →
        ∀ chunk, compile text = .ok chunk ↔ chunkOf? text = some chunk := by
  refine ⟨fun _ => compile_eq_ok_iff, fun _ => compile_eq_error_iff, ?_, ?_⟩
  · intro e line whole
    exact ⟨compile_eq_ok_iff.2 (.expression whole), fun scope h => execBlock_paren scope _ h⟩
  · intro words e line scanned whole ends chunk
    rw [compile_eq_ok_iff, standsFor_of_inComment scanned whole ends]

def conditionText : String := "(user.admin or is_stream) and not user.banned"

def condition : Expr :=
  .binary .and
    (.paren (.binary .or (.index (.name "user" 1) (.string (.ofText "admin")) 1)
      (.name "is_stream" 1) 1))
    (.unary .not (.index (.name "user" 1) (.string (.ofText "banned")) 1) 1) 1

def conditionWords : List Lexeme :=
  [⟨.symbol "(", 1⟩, ⟨.name "user", 1⟩, ⟨.symbol ".", 1⟩, ⟨.name "admin", 1⟩, ⟨.keyword "or", 1⟩,
    ⟨.name "is_stream", 1⟩, ⟨.symbol ")", 1⟩, ⟨.keyword "and", 1⟩, ⟨.keyword "not", 1⟩,
    ⟨.name "user", 1⟩, ⟨.symbol ".", 1⟩, ⟨.name "banned", 1⟩]

theorem program_of_condition :
    IsExpression conditionText condition 1 ∧
      compile conditionText = .ok [.ret [.paren condition]] := by
  have whole : IsExpression conditionText condition 1 := by
    refine ⟨⟨conditionWords, rfl, 40, 1, ?_⟩, rfl, rfl⟩
    cbv
  exact ⟨whole, ((program_of_text conditionText).2.2.1 condition 1 whole).1⟩

theorem brackets_misread :
    (∃ words e, scan "true -- always" = some words ∧ Whole words e ∧
      e.isScoped .ofChunk = true) ∧
      compile "true -- always" = .error (.compile "true -- always" .elided) ∧
      (∀ words e, scan "true) or (true" = some words → ¬Whole words e) ∧
      chunkOf? "true) or (true" = none ∧ ∃ chunk, compile "true) or (true" = .ok chunk := by
  have constant : (expr 4 innerLevel 0).run ⟨[⟨.keyword "true", 1⟩], 1⟩ =
      some (.bool true, ⟨[], 1⟩) := by
    cbv
  refine ⟨⟨[⟨.keyword "true", 1⟩], .bool true, rfl, ⟨4, 1, constant⟩, rfl⟩, ?_, ?_, ?_, ?_⟩
  · have wrap : (chunkOf? (wrapped "true -- always")).isNone := by decide +kernel
    have plain : (chunkOf? "true -- always").isNone := by decide +kernel
    rw [compile_eq, Option.isNone_iff_eq_none.1 wrap, Option.isNone_iff_eq_none.1 plain]
    rfl
  · intro words e scanned whole
    have same : scan "true) or (true" = some [⟨.keyword "true", 1⟩, ⟨.symbol ")", 1⟩,
      ⟨.keyword "or", 1⟩, ⟨.symbol "(", 1⟩, ⟨.keyword "true", 1⟩] := rfl
    rw [same] at scanned
    cases scanned
    have stops : ((expr 103 innerLevel 0).run ⟨[⟨.keyword "true", 1⟩, ⟨.symbol ")", 1⟩,
        ⟨.keyword "or", 1⟩, ⟨.symbol "(", 1⟩, ⟨.keyword "true", 1⟩], 1⟩).map
          (fun r => r.2.rest.length) = some 4 := by
      decide +kernel
    obtain ⟨line, reads⟩ := whole.reads (.inl rfl)
    have ends := congrArg (Option.map fun r => r.2.rest.length) (reads 103 (by decide))
    cases ends.symm.trans stops
  · have plain : (chunkOf? "true) or (true").isNone := by decide +kernel
    exact Option.isNone_iff_eq_none.1 plain
  · have wrap : (chunkOf? (wrapped "true) or (true")).isSome := by decide +kernel
    obtain ⟨chunk, read⟩ := Option.isSome_iff_exists.1 wrap
    refine ⟨chunk, ?_⟩
    rw [compile_eq, read]
    rfl

end

end CallGuard.Lua
