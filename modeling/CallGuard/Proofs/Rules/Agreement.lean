import CallGuard.Proofs.Cel.Documents
import CallGuard.Proofs.Lua.Integers
import CallGuard.Proofs.Lua.Verdicts

set_option autoImplicit false

namespace CallGuard.Rules

open Lua (Asked fuelFor verdictAfter)

variable {options : Lua.Options} {E : Evaluator Lua.Chunk (Pool Lua.State)}
  {fresh : Pool Lua.State}

theorem documents_seen_alike [Regex.Engine] (user : Json) (request : Option Json)
    (metadata : Metadata) (isStream : Bool) (method : String) (deadline : Option Timeout)
    (asked : Asked options E fresh (.build user request metadata isStream method deadline))
    (enough : 2 < fuelFor options (.build user request metadata isStream method deadline))
    (earlier : List Lua.Call) :
    let c := Context.build user request metadata isStream method deadline
    (∀ (v : Variable) (path : List Json.Step) (k : Json) (indices indices' : String),
      (c.document v).at? path = some k →
        PathSpelled Cel.Token.IsLiteral 0 path indices.toList →
          PathSpelled Lua.Token.IsLiteral 1 path indices'.toList →
            Answered (v.name ++ indices) k (verdict Cel.compile Cel.run c (v.name ++ indices)) ∧
              Answered (v.name ++ indices') k
                (verdictAfter E fresh earlier c (v.name ++ indices'))) ∧
      ∀ (name s : String) (values : List String) (key text key' text' : String),
        metadata.values.get? name = some values →
          Cel.Token.IsLiteral key.toList name → Cel.Token.IsLiteral text.toList s →
            Lua.Token.IsLiteral key'.toList name → Lua.Token.IsLiteral text'.toList s →
              verdict Cel.compile Cel.run c ("metadata[" ++ key ++ "] == " ++ text) =
                  .ok (",".intercalate values == s) ∧
                verdictAfter E fresh earlier c ("metadata[" ++ key' ++ "] == " ++ text') =
                  .ok (",".intercalate values == s) := by
  intro c
  constructor
  · intro v path k indices indices' found spelled spelled'
    have writable : Cel.IsWritable path := by
      intro i member
      have below := Json.position_lt (Context.document_isNarrow asked.narrow v) found i member
      unfold Json.longest at below
      unfold Cel.Reader.intBound
      omega
    rw [Cel.verdict_path spelled writable found asked.onTime]
    exact ⟨Cel.outcomeOf_document _ k, asked.verdict_path earlier enough spelled' found⟩
  · intro name s values key text key' text' present first second first' second'
    have joined : c.metadata.get? name = some (",".intercalate values) :=
      Metadata.normalized_get? present
    exact ⟨Cel.verdict_metadata first second joined asked.onTime,
      asked.verdict_metadata earlier (by omega) first' second' joined⟩

def tagged : Metadata := .ofPairs [("x-tags", "a"), ("x-tags", "b")]

def flags : Json := .obj [("flags", .arr [.null, .bool true])]

def flagged : Context := .build flags none tagged false "/s.A/m" none

theorem flagged_asked : Asked Lua.oneState Lua.oneStateEvaluator (.ofCapacity 1) flagged where
  accepted := rfl
  narrow := ⟨rfl, rfl⟩
  keyed := ⟨⟨by simp [Ordered], ⟨trivial, trivial, trivial⟩, trivial⟩, trivial⟩
  onTime := rfl

theorem second_flag_seen_alike :
    Asked Lua.oneState Lua.oneStateEvaluator (.ofCapacity 1) flagged ∧
      2 < fuelFor Lua.oneState flagged ∧
      verdict Cel.compile Cel.run flagged "user[\"flags\"][1]" = .ok true ∧
      verdictAfter Lua.oneStateEvaluator (.ofCapacity 1) [] flagged "user[\"flags\"][2]" =
        .ok true ∧
      verdict Cel.compile Cel.run flagged "metadata[\"x-tags\"] == \"a,b\"" = .ok true ∧
      verdictAfter Lua.oneStateEvaluator (.ofCapacity 1) [] flagged
        "metadata[\"x-tags\"] == \"a,b\"" = .ok true := by
  have enough : 2 < fuelFor Lua.oneState flagged := by decide
  obtain ⟨paths, entries⟩ := documents_seen_alike flags none tagged false "/s.A/m" none
    flagged_asked enough []
  have path := paths .user [.key "flags", .position 1] (.bool true) "[\"flags\"][1]"
    "[\"flags\"][2]" rfl (.key (Cel.Token.isLiteral_quoted "flags") (.position .nil))
    (.key (Lua.Token.isLiteral_quoted "flags") (.position .nil))
  have entry := entries "x-tags" "a,b" ["a", "b"] "\"x-tags\"" "\"a,b\"" "\"x-tags\"" "\"a,b\"" rfl
    (Cel.Token.isLiteral_quoted "x-tags") (Cel.Token.isLiteral_quoted "a,b")
    (Lua.Token.isLiteral_quoted "x-tags") (Lua.Token.isLiteral_quoted "a,b")
  exact ⟨flagged_asked, enough, path.1.1 true rfl, path.2.1 true rfl, entry.1, entry.2⟩

theorem membership_up_to_null [Regex.Engine] {c : Context} (asked : Asked options E fresh c)
    (earlier : List Lua.Call) {v : Variable} {field s literal literal' : String} {items : List Json}
    (word : IsIdentifier field) (free : Cel.Reader.isReserved field = false)
    (free' : Lua.Token.keywords.contains field = false)
    (found : (c.document v).at? [.key field] = some (.arr items))
    (spelled : Cel.Token.IsLiteral literal.toList s)
    (spelled' : Lua.Token.IsLiteral literal'.toList s)
    (enough : items.length + 5 + s.utf8ByteSize / 16 < fuelFor options c) :
    ∃ b b' : Bool,
      verdict Cel.compile Cel.run c (literal ++ " in " ++ v.name ++ "." ++ field) = .ok b ∧
        verdictAfter E fresh earlier c
            ("contains(" ++ v.name ++ "." ++ field ++ ", " ++ literal' ++ ")") = .ok b' ∧
          (b = true ↔ Json.str s ∈ items) ∧
            (b' = true ↔ ∃ before after,
              items = before ++ .str s :: after ∧ Json.null ∉ before) := by
  obtain ⟨b, answer, listed⟩ := Cel.verdict_member spelled word free found asked.onTime
  obtain ⟨b', answer', reached⟩ := asked.verdict_contains earlier enough spelled' word free' found
  exact ⟨b, b', answer, answer', listed, reached⟩

def grouped (groups : List Json) : Context :=
  .build (.obj [("groups", .arr groups)]) none .empty false "/s.A/m" none

theorem grouped_asked (groups : List Json) (narrow : (Json.arr groups).isNarrow)
    (keyed : (Json.arr groups).IsKeyed) :
    Asked Lua.oneState Lua.oneStateEvaluator (.ofCapacity 1) (grouped groups) where
  accepted := rfl
  narrow := by
    refine ⟨?_, rfl⟩
    show (Json.arr groups).isNarrow && true
    rw [narrow]
    rfl
  keyed := ⟨⟨by simp [Ordered], keyed, trivial⟩, trivial⟩
  onTime := rfl

theorem isIdentifier_groups : IsIdentifier "groups" :=
  ⟨⟨'g', _, rfl, by decide⟩, forall_chars (by decide)⟩

theorem spelled_a :
    Cel.Token.IsLiteral "\"a\"".toList "a" ∧ Lua.Token.IsLiteral "\"a\"".toList "a" :=
  ⟨Cel.Token.isLiteral_quoted "a", Lua.Token.isLiteral_quoted "a"⟩

theorem null_after_member :
    Asked Lua.oneState Lua.oneStateEvaluator (.ofCapacity 1) (grouped [.str "a", .null]) ∧
      IsIdentifier "groups" ∧ Cel.Reader.isReserved "groups" = false ∧
      Lua.Token.keywords.contains "groups" = false ∧
      ∃ b b' : Bool,
        verdict Cel.compile Cel.run (grouped [.str "a", .null]) "\"a\" in user.groups" = .ok b ∧
        verdictAfter Lua.oneStateEvaluator (.ofCapacity 1) [] (grouped [.str "a", .null])
          "contains(user.groups, \"a\")" = .ok b' ∧ b = true ∧ b' = true := by
  have asked := grouped_asked [.str "a", .null] rfl ⟨trivial, trivial, trivial⟩
  have free : Cel.Reader.isReserved "groups" = false := by decide
  have free' : Lua.Token.keywords.contains "groups" = false := by decide
  have enough : [Json.str "a", .null].length + 5 + "a".utf8ByteSize / 16 <
      fuelFor Lua.oneState (grouped [.str "a", .null]) := by decide
  obtain ⟨b, b', answer, answer', listed, reached⟩ := membership_up_to_null asked []
    (v := .user) isIdentifier_groups free free' rfl spelled_a.1 spelled_a.2 enough
  exact ⟨asked, isIdentifier_groups, free, free', b, b', answer, answer',
    listed.2 (.head _), reached.2 ⟨[], _, rfl, List.not_mem_nil⟩⟩

theorem null_before_member :
    Json.str "a" ∈ [Json.null, .str "a"] ∧
      verdict Cel.compile Cel.run (grouped [.null, .str "a"]) "\"a\" in user.groups" = .ok true ∧
      verdictAfter Lua.oneStateEvaluator (.ofCapacity 1) [] (grouped [.null, .str "a"])
        "contains(user.groups, \"a\")" = .ok false := by
  have asked := grouped_asked [.null, .str "a"] rfl ⟨trivial, trivial, trivial⟩
  have member : Json.str "a" ∈ [Json.null, .str "a"] := .tail _ (.head _)
  have enough : [Json.null, .str "a"].length + 5 + "a".utf8ByteSize / 16 <
      fuelFor Lua.oneState (grouped [.null, .str "a"]) := by decide
  obtain ⟨b, answer, listed⟩ := Cel.verdict_member (c := grouped [.null, .str "a"]) (v := .user)
    spelled_a.1 isIdentifier_groups (by decide) rfl rfl
  obtain ⟨b', answer', reached⟩ := asked.verdict_contains [] (v := .user) enough
    spelled_a.2 isIdentifier_groups (by decide) rfl
  have missed : ¬ Lua.Reached "a" [Json.null, .str "a"] := by
    simp [Lua.reached_cons]
  rw [listed.2 member] at answer
  rw [Bool.eq_false_iff.2 (mt reached.1 missed)] at answer'
  exact ⟨member, answer, answer'⟩

def identified (i : Int) : Json := .obj [("id", .num (.integer i))]

def sameId : String := "user.id == request.id"

section

variable {c : Context} {a b : Int}

theorem identified_at {v : Variable} {i : Int} (document : c.document v = identified i) :
    (c.document v).at? [.key "id"] = some (.num (.integer i)) := by
  rw [document]
  rfl

theorem identified_ne_null {v : Variable} {i : Int} (document : c.document v = identified i) :
    c.document v ≠ .null := by
  rw [document]
  exact Json.noConfusion

theorem sameId_cel [Regex.Engine] (low : -2 ^ 63 ≤ a ∧ -2 ^ 63 ≤ b) (user : c.user = identified a)
    (request : c.requestValue = identified b) (onTime : c.deadlinePassed = false) :
    verdict Cel.compile Cel.run c sameId = .ok (decide (a = b)) := by
  have compiled : Cel.compile sameId = .ok (.binary .eq (.select (.ident Variable.user.name) "id")
      (.select (.ident Variable.request.name) "id")) := by cbv
  have answer : Cel.eval (.ofContext c) (.binary .eq (.select (.ident Variable.user.name) "id")
      (.select (.ident Variable.request.name) "id")) = .ok (.bool (decide (a = b))) := by
    have first := Cel.eval_field (identified_at (v := .user) user)
    have second := Cel.eval_field (identified_at (v := .request) request)
    generalize Cel.Expr.select (.ident Variable.user.name) "id" = x at first
    generalize Cel.Expr.select (.ident Variable.request.name) "id" = y at second
    simp [Cel.eval, first, second, Cel.BinaryOp.apply, Cel.Value.same_integers low]
  rw [Cel.verdict_of_eval compiled onTime answer]
  rfl

theorem sameId_lua (asked : Asked options E fresh c) (earlier : List Lua.Call)
    (enough : 0 < fuelFor options c) (low : -2 ^ 63 ≤ a ∧ -2 ^ 63 ≤ b)
    (high : a < 2 ^ 64 ∧ b < 2 ^ 64) (user : c.user = identified a)
    (request : c.requestValue = identified b) :
    verdictAfter E fresh earlier c sameId = .ok (decide (a = b ∨ 2 ^ 63 ≤ a ∧ 2 ^ 63 ≤ b ∧
      Decimal.roundHalfEven a.toNat 2048 = Decimal.roundHalfEven b.toNat 2048)) := by
  have compiled : Lua.compile sameId = .ok [.ret [.paren (.binary .equal
      (.index (.name Variable.user.name 1) (.string (.ofText "id")) 1)
      (.index (.name Variable.request.name 1) (.string (.ofText "id")) 1) 1)]] := by cbv
  have follows (v : Variable) : Lua.Expr.Follows v.name [.key "id"]
      (.index (.name v.name 1) (.string (.ofText "id")) 1) := (Lua.Expr.Follows.name 1).key "id" 1
  refine asked.verdict_equal earlier enough compiled (follows .user) (follows .request)
    (identified_at user) (identified_at request) (identified_ne_null user)
    (identified_ne_null request) fun h x y shows shows' => ?_
  cases shows
  cases shows'
  rw [Bool.eq_iff_iff.2 ((Lua.same_integers low high).trans decide_eq_true_iff.symm)]

theorem sameId_up_to_rounding [Regex.Engine] (asked : Asked options E fresh c)
    (earlier : List Lua.Call) (enough : 0 < fuelFor options c) (low : -2 ^ 63 ≤ a ∧ -2 ^ 63 ≤ b)
    (high : a < 2 ^ 64 ∧ b < 2 ^ 64) (user : c.user = identified a)
    (request : c.requestValue = identified b) :
    verdict Cel.compile Cel.run c sameId = .ok (decide (a = b)) ∧
      verdictAfter E fresh earlier c sameId = .ok (decide (a = b ∨ 2 ^ 63 ≤ a ∧ 2 ^ 63 ≤ b ∧
        Decimal.roundHalfEven a.toNat 2048 = Decimal.roundHalfEven b.toNat 2048)) :=
  ⟨sameId_cel low user request asked.onTime,
    sameId_lua asked earlier enough low high user request⟩

end

def compared (i k : Int) : Context :=
  .build (identified i) (some (identified k)) .empty false "/s.A/m" none

theorem compared_asked (i k : Int) :
    Asked Lua.oneState Lua.oneStateEvaluator (.ofCapacity 1) (compared i k) where
  accepted := rfl
  narrow := ⟨rfl, rfl⟩
  keyed := ⟨⟨by simp [Ordered], trivial, trivial⟩, ⟨by simp [Ordered], trivial, trivial⟩⟩
  onTime := rfl

theorem sameId_at_bound :
    Asked Lua.oneState Lua.oneStateEvaluator (.ofCapacity 1) (compared (2 ^ 63 - 1) (2 ^ 63)) ∧
      0 < fuelFor Lua.oneState (compared (2 ^ 63 - 1) (2 ^ 63)) ∧
      verdict Cel.compile Cel.run (compared (2 ^ 63 - 1) (2 ^ 63)) sameId = .ok false ∧
      verdictAfter Lua.oneStateEvaluator (.ofCapacity 1) [] (compared (2 ^ 63 - 1) (2 ^ 63))
        sameId = .ok false := by
  have asked := compared_asked (2 ^ 63 - 1) (2 ^ 63)
  have enough : 0 < fuelFor Lua.oneState (compared (2 ^ 63 - 1) (2 ^ 63)) := by decide
  exact ⟨asked, enough,
    sameId_up_to_rounding asked [] enough (by decide) (by decide) rfl rfl⟩

theorem sameId_of_rounded :
    (2 ^ 63 : Int) ≠ 2 ^ 63 + 1 ∧
      verdict Cel.compile Cel.run (compared (2 ^ 63) (2 ^ 63 + 1)) sameId = .ok false ∧
      verdictAfter Lua.oneStateEvaluator (.ofCapacity 1) [] (compared (2 ^ 63) (2 ^ 63 + 1))
        sameId = .ok true := by
  have asked := compared_asked (2 ^ 63) (2 ^ 63 + 1)
  exact ⟨by decide, sameId_cel (a := 2 ^ 63) (b := 2 ^ 63 + 1) (by decide) rfl rfl rfl,
    sameId_lua (a := 2 ^ 63) (b := 2 ^ 63 + 1) asked [] (by decide) (by decide) (by decide) rfl rfl⟩

end CallGuard.Rules
