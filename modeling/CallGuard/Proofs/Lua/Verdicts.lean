import CallGuard.Proofs.CachedRules
import CallGuard.Proofs.Lua.Isolation
import CallGuard.Proofs.Lua.Parsing
import CallGuard.Proofs.Lua.Ready

set_option autoImplicit false

namespace CallGuard.Lua

open Rules Machine

def verdictAfter (E : Evaluator Chunk (Pool State)) (fresh : Pool State) (earlier : List Call)
    (c : Context) (rule : String) : Outcome Bool :=
  verdict E.compile
    (fun program text c => (E.execute program text c (poolAfter E earlier fresh)).1) c rule

-- An evaluator is asked in time, and the documents are as they are read.
structure Asked (options : Options) (E : Evaluator Chunk (Pool State)) (fresh : Pool State)
    (c : Context) : Prop where
  accepted : evaluatorOf options = .ok (E, fresh)
  narrow : c.user.isNarrow ∧ c.requestValue.isNarrow
  keyed : c.user.IsKeyed ∧ c.requestValue.IsKeyed
  onTime : c.deadlinePassed = false

theorem execBlock_paren (scope : Scope) (e : Expr) (h : Heap) :
    (execBlock scope [.ret [.paren e]]).run h =
      eval scope e (fun vs h => .done (.returned [firstOf vs]) h) h := by
  simp only [execBlock, execAll, exec, evalList, eval, List.any_cons, List.any_nil, Stmt.isLabel,
    Bool.or_false, if_false, Bool.false_eq_true]
  rfl

section

variable {options : Options} {E : Evaluator Chunk (Pool State)} {fresh : Pool State} {c : Context}

theorem Asked.verdict_holds (asked : Asked options E fresh c) (earlier : List Call) {rule : String}
    {e : Expr} (compiled : compile rule = .ok [.ret [.paren e]]) {P : Outcome Bool → Prop}
    (answers : ∀ (s : State) (h : Heap) (ready : Ready s c h), ∃ v n, n < fuelFor options c ∧
      P (outcomeOf rule false (some (.returned [v]))) ∧ ∀ random, Ends n (.initial random)
        (eval ready.scope e (fun vs h => .done (.returned [firstOf vs]) h) h) (.returned [v])) :
    P (verdictAfter E fresh earlier c rule) := by
  obtain ⟨⟨made, started⟩, rfl, rfl⟩ := evaluatorOf_eq_ok asked.accepted
  obtain ⟨h, ready, start⟩ := State.start_ready started asked.narrow asked.keyed
  obtain ⟨v, n, inTime, outcome, ends⟩ := answers made h ready
  let call : Call := ⟨[.ret [.paren e]], rule, c⟩
  have unused : Rested made (.ofCapacity options.poolSize) := .unused _ _
  have rested := poolAfter_rested started earlier unused
  obtain ⟨r, executed⟩ := (call.execute_rested started rested).2
  have turn : (made.reseed r).start call.program c = _ :=
    (start _).trans (execBlock_paren ready.scope e h)
  have ended : (Machine.run (fuelFor options c) (.initial (made.reseed r).random)
      ((made.reseed r).start call.program c)).1 = some (.returned [v]) := by
    rw [turn]
    exact (run_eq_some_iff _).2 ⟨n, inTime, ends _⟩
  have answer : call.outcomeIn options (made.reseed r) =
      outcomeOf rule false (some (.returned [v])) := by
    unfold Call.outcomeIn
    rw [if_neg (by simp [call, asked.onTime])]
    simp only [runTimed, State.run, call] at ended ⊢
    rw [ended]
    rfl
  have verdict : verdictAfter ⟨.lua, compile, execute options⟩ (.ofCapacity options.poolSize)
      earlier c rule = (call.execute options (poolAfter ⟨.lua, compile, execute options⟩ earlier
        (.ofCapacity options.poolSize))).1 := by
    simp only [verdictAfter, CallGuard.verdict, compiled]
    rfl
  rw [verdict, executed, answer]
  exact outcome

theorem ends_returned (random : Random) (vs : List Value) (h : Heap) :
    Ends 0 (.initial random) (.done (.returned vs) h) (.returned vs) := .now rfl

theorem answered_of_represents {h : Heap} {k : Json} {v : Value} (shows : h.Represents k v)
    (rule : String) : Answered rule k (outcomeOf rule false (some (.returned [v]))) := by
  constructor
  · rintro b rfl
    cases shows
    rfl
  · intro other
    cases shows with
    | bool b => exact absurd rfl (other b)
    | num n =>
      refine ⟨(Value.ofNumber n).kindName, ?_⟩
      unfold Value.ofNumber
      split
      · split <;> rfl
      · rfl
    | _ => exact ⟨_, rfl⟩

namespace Ready

variable {s : State} {h : Heap} (ready : Ready s c h)

theorem ends_name {name : String} (line : Nat)
    (other : name ≠ environmentName) (absent : ready.table.get (.named name) = .nil)
    (known : (ready.naming.table.get (.named name)).isNil = false ∨ name ∈ ready.naming.optional)
    (short : (Bytes.ofText name).size + (ready.naming.table.get (.named name)).byteCount < 16)
    {k : List Value → Heap → Turn} {random : Random} {n : Nat} {e : Ending}
    (ends : Ends n (.initial random) (k [ready.naming.table.get (.named name)] h) e) :
    Ends (n + 2) (.initial random) (eval ready.scope (.name name line) k h) e := by
  rw [ready.eval_name_absent other absent, ready.naming.lookup]
  have body : (Library.run (.lookup ready.naming.names ready.naming.optional ready.naming.support)
      [.table ready.env, .text name] Library.answered h).Delays
      (0 + (byteCounts [.table ready.env, .text name] +
        byteCounts [ready.naming.table.get (.named name)]) / 16)
      (.done (.returned [ready.naming.table.get (.named name)]) h) := by
    refine run_delays fun k => ?_
    rw [lookup_known ready.names (.table ready.env) known k]
    exact fun _ _ _ ends => ends
  have cheap : (byteCounts [.table ready.env, .text name] +
      byteCounts [ready.naming.table.get (.named name)]) / 16 = 0 := by
    refine Nat.div_eq_of_lt ?_
    simpa [byteCounts, Value.text, Value.byteCount] using short
  rw [cheap] at body
  exact delays_call body ends

theorem ends_variable (v : Variable) (line : Nat) :
    ∃ w n, n ≤ 2 ∧ h.Represents (c.document v) w ∧
      ∀ {k : List Value → Heap → Turn} {random : Random} {e : Ending},
        Ends 0 (.initial random) (k [w] h) e →
          Ends n (.initial random) (eval ready.scope (.name v.name line) k h) e := by
  have other : v.name ≠ environmentName := by cases v <;> decide
  have shows := ready.bound v
  by_cases null : c.document v = .null
  · have absent : ready.table.get (.named v.name) = .nil :=
      Value.eq_nil_of_isNil (shows.isNil.2 null)
    obtain ⟨unset, optional⟩ := ready.naming.unset v
    refine ⟨.nil, 2, Nat.le_refl 2, null ▸ .null, fun ends => ?_⟩
    refine ready.ends_name line other absent (.inr optional) ?_ (unset ▸ ends)
    rw [unset]
    cases v <;> decide
  · have present : (ready.table.get (.named v.name)).isNil = false := by
      rw [← Bool.not_eq_true, shows.isNil]
      exact null
    refine ⟨_, 0, Nat.zero_le 2, shows, fun ends => ?_⟩
    rwa [ready.eval_name other present]

theorem ends_follows {v : Variable} {path : List Json.Step} {e : Expr} {j : Json}
    (follows : e.Follows v.name path) (found : (c.document v).at? path = some j) :
    ∃ w n, n ≤ 2 ∧ h.Represents j w ∧
      ∀ {k : List Value → Heap → Turn} {random : Random} {ending : Ending},
        Ends 0 (.initial random) (k [w] h) ending →
          Ends n (.initial random) (eval ready.scope e k h) ending := by
  by_cases null : c.document v = .null
  · obtain rfl := Json.at?_null (null ▸ found)
    cases found
    obtain ⟨line, rfl⟩ := follows.eq_name
    exact ready.ends_variable v line
  · obtain ⟨w, shows, evaluated⟩ := ready.eval_follows follows found null
    exact ⟨w, 0, Nat.zero_le 2, shows, fun ends => by rwa [evaluated]⟩

theorem eval_text (s : String) (k : List Value → Heap → Turn) :
    eval ready.scope (.string (.ofText s)) k h = k [.text s] h := by
  rw [eval]
  rfl

theorem ends_contains (sought : String) {base : Expr} {items : List Json} {w : Value}
    (shows : h.Represents (.arr items) w)
    (evaluated : ∀ k, eval ready.scope base k h = k [w] h) (a b : Nat) :
    ∃ found n, n ≤ items.length + 5 + (Bytes.ofText sought).size / 16 ∧
      (found = true ↔ Reached sought items) ∧
      ∀ {k : List Value → Heap → Turn} {random : Random} {ending : Ending},
        Ends 0 (.initial random) (k [.bool found] h) ending →
          Ends n (.initial random)
            (eval ready.scope (.call (.name Builtins.containsName a) [base, .string (.ofText sought)] b)
              k h) ending := by
  cases shows with
  | @arr _ id t found handlers narrow entries beyond =>
    have few : items.length < Library.longestList := Nat.lt_of_lt_of_le narrow (by decide)
    obtain ⟨answer, j, steps, reached, looked⟩ := containsFrom_delays found handlers entries
      beyond sought List.drop_zero (Nat.zero_le _) few
    have size : byteCounts [.table id, .text sought] + byteCounts [.bool answer] =
        (Bytes.ofText sought).size := by
      simp [byteCounts, Value.text, Value.byteCount]
    have body : (Library.run (.base .contains) [.table id, .text sought] Library.answered h).Delays
        (j + (Bytes.ofText sought).size / 16) (.done (.returned [.bool answer]) h) :=
      size ▸ run_delays fun k => looked fun v => k [v]
    refine ⟨answer, j + (Bytes.ofText sought).size / 16 + 2 + 2, by omega, reached,
      @fun k random ending ends => ?_⟩
    have called : Ends (j + (Bytes.ofText sought).size / 16 + 2) (.initial random)
        (.call (.native (.base .contains)) [.table id, .text sought] (.onLine b) h k) ending := by
      rw [← Nat.zero_add (j + _)]
      exact delays_call body ends
    have helper := ready.naming.helper
    rw [eval]
    have other (v : Variable) : Key.named Builtins.containsName ≠ .named v.name := fun same =>
      absurd (Key.named_injective same) (by cases v <;> decide)
    refine ready.ends_name a (by decide : Builtins.containsName ≠ environmentName)
      (ready.others _ other) (.inl (by rw [helper]; rfl)) (by rw [helper]; decide) ?_
    rw [helper]
    simp only [evalList]
    show Ends _ _ (eval ready.scope base _ h) ending
    rw [evaluated]
    show Ends _ _ (eval ready.scope (.string (.ofText sought)) _ h) ending
    rw [ready.eval_text]
    exact called

theorem eval_equal {a b : Expr} {x y : Value} (first : ∀ k, eval ready.scope a k h = k [x] h)
    (second : ∀ k, eval ready.scope b k h = k [y] h) (line : Nat)
    (k : List Value → Heap → Turn) :
    eval ready.scope (.binary .equal a b line) k h = k [.bool (x.same y)] h := by
  rw [eval, operand, ready.ownVariable?_none]
  show eval ready.scope a _ h = _
  rw [first]
  · show eval ready.scope b _ h = _
    rw [second]
    rfl
  all_goals exact fun same => BinaryOp.noConfusion same

end Ready

theorem Asked.verdict_path (asked : Asked options E fresh c) (earlier : List Call)
    (enough : 2 < fuelFor options c) {v : Variable} {path : List Json.Step} {indices : String}
    {k : Json} (spelled : PathSpelled Token.IsLiteral 1 path indices.toList)
    (found : (c.document v).at? path = some k) :
    Answered (v.name ++ indices) k (verdictAfter E fresh earlier c (v.name ++ indices)) := by
  have small : ∀ i, .position i ∈ path → ((1 + i : Nat) : Int) < intBound := by
    intro i member
    have below := Json.position_lt (Context.document_isNarrow asked.narrow v) found i member
    unfold Json.longest at below
    unfold intBound
    omega
  obtain ⟨e, compiled, follows⟩ := compile_path (v := v) spelled small
  refine asked.verdict_holds earlier compiled fun s h ready => ?_
  obtain ⟨w, n, steps, shows, ends⟩ := ready.ends_follows follows found
  exact ⟨w, n, by omega, answered_of_represents shows _, fun random =>
    ends (ends_returned random [w] h)⟩

theorem Asked.verdict_contains (asked : Asked options E fresh c) (earlier : List Call)
    {v : Variable} {literal field s : String} {items : List Json}
    (enough : items.length + 5 + s.utf8ByteSize / 16 < fuelFor options c)
    (spelled : Token.IsLiteral literal.toList s) (word : IsIdentifier field)
    (free : Token.keywords.contains field = false)
    (found : (c.document v).at? [.key field] = some (.arr items)) :
    ∃ b, verdictAfter E fresh earlier c
        ("contains(" ++ v.name ++ "." ++ field ++ ", " ++ literal ++ ")") = .ok b ∧
      (b = true ↔ Reached s items) := by
  obtain ⟨e, l, m, compiled, follows⟩ := compile_contains (v := v) spelled word free
  have present : c.document v ≠ .null := by
    intro null
    rw [null] at found
    cases Json.at?_null found
  refine asked.verdict_holds earlier (P := fun o => ∃ b, o = .ok b ∧ (b = true ↔ Reached s items))
    compiled fun _ h ready => ?_
  obtain ⟨w, shows, evaluated⟩ := ready.eval_follows follows found present
  obtain ⟨b, n, steps, reached, ends⟩ := ready.ends_contains s shows evaluated l m
  have size : (Bytes.ofText s).size = s.utf8ByteSize := rfl
  exact ⟨.bool b, n, by omega, ⟨b, rfl, reached⟩, fun random =>
    ends (ends_returned random [.bool b] h)⟩

theorem Asked.verdict_metadata (asked : Asked options E fresh c) (earlier : List Call)
    (enough : 0 < fuelFor options c) {key literal name s text : String}
    (first : Token.IsLiteral key.toList name) (second : Token.IsLiteral literal.toList s)
    (present : c.metadata.get? name = some text) :
    verdictAfter E fresh earlier c (Variable.metadata.name ++ "[" ++ key ++ "] == " ++ literal) =
      .ok (text == s) := by
  obtain ⟨e, l, compiled, follows⟩ := compile_equal (v := .metadata) first second
  refine asked.verdict_holds earlier (P := fun o => o = .ok (text == s)) compiled
    fun _ h ready => ?_
  obtain ⟨w, shows, evaluated⟩ := ready.eval_follows follows (Context.metadata_at present) nofun
  have same : w.same (.text s) = (text == s) := by
    rw [Bool.eq_iff_iff, beq_iff_eq]
    exact (shows.same_text s).trans (by rw [Json.str.injEq])
  have answer (random : Random) : Ends 0 (.initial random)
      (eval ready.scope (.binary .equal e (.string (.ofText s)) l)
        (fun vs h => .done (.returned [firstOf vs]) h) h) (.returned [.bool (text == s)]) := by
    rw [ready.eval_equal evaluated (ready.eval_text s), same]
    exact ends_returned random _ h
  exact ⟨.bool (text == s), 0, enough, rfl, answer⟩

theorem Asked.verdict_equal (asked : Asked options E fresh c) (earlier : List Call)
    (enough : 0 < fuelFor options c) {v w : Variable} {rule : String} {a b : Expr} {line : Nat}
    (compiled : compile rule = .ok [.ret [.paren (.binary .equal a b line)]])
    {path path' : List Json.Step} (left : a.Follows v.name path) (right : b.Follows w.name path')
    {j k : Json} (found : (c.document v).at? path = some j)
    (found' : (c.document w).at? path' = some k) (present : c.document v ≠ .null)
    (present' : c.document w ≠ .null) {o : Outcome Bool}
    (same : ∀ (h : Heap) (x y : Value), h.Represents j x → h.Represents k y → o = .ok (x.same y)) :
    verdictAfter E fresh earlier c rule = o := by
  refine asked.verdict_holds earlier (P := fun p => p = o) compiled fun _ h ready => ?_
  obtain ⟨x, shows, first⟩ := ready.eval_follows left found present
  obtain ⟨y, shows', second⟩ := ready.eval_follows right found' present'
  have answer (random : Random) : Ends 0 (.initial random)
      (eval ready.scope (.binary .equal a b line)
        (fun vs h => .done (.returned [firstOf vs]) h) h) (.returned [.bool (x.same y)]) := by
    rw [ready.eval_equal first second]
    exact ends_returned random _ h
  exact ⟨.bool (x.same y), 0, enough, (same h x y shows shows').symm, answer⟩

end

end CallGuard.Lua
