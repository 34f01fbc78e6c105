import CallGuard.Proofs.Cel.Documents
import CallGuard.Proofs.Cel.References

set_option autoImplicit false

namespace CallGuard.Cel

namespace Expr

-- The name occurs where nothing binds it.
def Mentions (e : Expr) (name : String) : Prop := ∃ way, FreeAt [] e way name

theorem FreeAt.not_mem {scope : List String} {e : Expr} {way : List Nat} {name : String}
    (free : FreeAt scope e way name) : name ∉ scope := by
  induction free with
  | here scope name unbound => exact unbound
  | inside scope names e part i way name found free ih =>
    exact fun member => ih (List.mem_append_right names member)

theorem FreeAt.rescope {scope other : List String} {e : Expr} {way : List Nat} {name : String}
    (free : FreeAt scope e way name) (unbound : name ∉ other) : FreeAt other e way name := by
  induction free generalizing other with
  | here scope name _ => exact .here other name unbound
  | inside scope names e part i way name found free ih =>
    have passes : name ∉ names := fun member => free.not_mem (List.mem_append_left scope member)
    exact .inside other names e part i way name found (ih (by simp [passes, unbound]))

theorem Mentions.of_part {e part : Expr} {names : List String} (member : (names, part) ∈ parts e)
    {name : String} (mentions : Mentions part name) (unbound : name ∉ names) : Mentions e name := by
  obtain ⟨way, free⟩ := mentions
  obtain ⟨i, found⟩ := List.mem_iff_getElem?.1 member
  exact ⟨i :: way, .inside [] names e part i way name found (free.rescope (by simpa using unbound))⟩

theorem mem_of_mentions {scope : List String} {e : Expr} (closed : Closed scope e) {name : String}
    (mentions : Mentions e name) : name ∈ scope := by
  obtain ⟨way, free⟩ := mentions
  exact Decidable.byContradiction fun unbound => closed way name (free.rescope unbound)

end Expr

section

variable {item accu : String} {base other : Env}

theorem iterate_alike (cond step : Env → Result Value)
    (tests : ∀ last a, cond ((accu, a) :: last ++ base) = cond ((accu, a) :: last ++ other))
    (steps : ∀ v a, step ((item, v) :: (accu, a) :: base) = step ((item, v) :: (accu, a) :: other))
    (last : Env) (a : Value) (items : List Value) :
    ∃ ending : Result (Value × Env),
      iterate item accu cond step base last a items =
        ending.map (fun front => (accu, front.1) :: front.2 ++ base) ∧
      iterate item accu cond step other last a items =
        ending.map (fun front => (accu, front.1) :: front.2 ++ other) := by
  induction items generalizing last a with
  | nil => exact ⟨.ok (a, last), rfl, rfl⟩
  | cons v vs ih =>
    simp only [iterate]
    rw [← tests last a]
    cases cond ((accu, a) :: last ++ base) with
    | error s => exact ⟨.error s, rfl, rfl⟩
    | ok c =>
      cases goesOn : c.truth with
      | false => exact ⟨.ok (a, last), by simp [goesOn, Except.map], by simp [goesOn, Except.map]⟩
      | true =>
        simp only [goesOn, Bool.not_true, Bool.false_eq_true, if_false]
        rw [← steps v a]
        cases step ((item, v) :: (accu, a) :: base) with
        | error s => exact ⟨.error s, rfl, rfl⟩
        | ok b => exact ih [(item, v)] b

end

open CallGuard.Cel.Expr (Closed Mentions firstFree?_eq_none_iff mem_of_mentions parts sizeOf_part)

def AgreeOn (e : Expr) (env other : Env) : Prop :=
  ∀ name, Mentions e name → env.lookup name = other.lookup name

namespace AgreeOn

variable {e part : Expr} {env other : Env} {names : List String}

theorem inside (agree : AgreeOn e env other) (member : (names, part) ∈ parts e) (front : Env)
    (bound : front.Covers names) : AgreeOn part (front ++ env) (front ++ other) := by
  intro name mentions
  rw [List.lookup_append, List.lookup_append]
  cases found : front.lookup name with
  | some v => rfl
  | none =>
    have unbound : name ∉ names := fun listed => by simpa [found] using bound name listed
    rw [agree name (mentions.of_part member unbound)]

theorem direct (agree : AgreeOn e env other) (member : ([], part) ∈ parts e) :
    AgreeOn part env other :=
  agree.inside member [] (by simp [Env.Covers])

end AgreeOn

section

variable {env other : Env}

theorem evalArgs_congr [Regex.Engine] {args : List Expr}
    (each : ∀ e ∈ args, eval env e = eval other e) :
    evalArgs env args = evalArgs other args := by
  induction args with
  | nil => rfl
  | cons e rest ih =>
    rw [evalArgs, evalArgs, each e (by simp), ih fun e member => each e (by simp [member])]

theorem evalItems_congr [Regex.Engine] {items : List Expr}
    (each : ∀ e ∈ items, eval env e = eval other e) :
    evalItems env items = evalItems other items := by
  induction items with
  | nil => rfl
  | cons e rest ih =>
    rw [evalItems, evalItems, each e (by simp), ih fun e member => each e (by simp [member])]

theorem evalEntries_congr [Regex.Engine] {entries : List (Expr × Expr)}
    (each : ∀ entry ∈ entries, eval env entry.1 = eval other entry.1 ∧
      eval env entry.2 = eval other entry.2) (done : List (Key × Value)) :
    evalEntries env done entries = evalEntries other done entries := by
  induction entries generalizing done with
  | nil => rfl
  | cons entry rest ih =>
    obtain ⟨k, v⟩ := entry
    obtain ⟨key, value⟩ := each (k, v) (by simp)
    have later := ih fun entry member => each entry (by simp [member])
    simp only [evalEntries, key, value, later]

end

theorem eval_congr [Regex.Engine] {env other : Env} (e : Expr) (written : Written e)
    (agree : AgreeOn e env other) : eval env e = eval other e := by
  have inner (names : List String) (part : Expr) (member : (names, part) ∈ parts e)
      (env other : Env) (agree : AgreeOn part env other) : eval env part = eval other part :=
    eval_congr part (written_part written member) agree
  have direct (part : Expr) (member : ([], part) ∈ parts e) : eval env part = eval other part :=
    inner [] part member env other (agree.direct member)
  cases e with
  | literal l => rfl
  | ident name =>
    have found := agree name ⟨[], .here [] name (by simp)⟩
    simp only [eval, found]
  | select e field | has e field | unary op e =>
    simp only [eval, direct e (by simp [parts])]
  | binary op a b =>
    have left := direct a (by simp [parts])
    have right := direct b (by simp [parts])
    cases op <;> simp only [eval, left, right]
  | conditional a b c =>
    simp only [eval, direct a (by simp [parts]), direct b (by simp [parts]),
      direct c (by simp [parts])]
  | call function args =>
    have each := evalArgs_congr fun e member => direct e (by simpa [parts] using member)
    simp only [eval, each]
  | method target function args =>
    have each := evalArgs_congr fun e member => direct e (by simpa [parts] using .inr member)
    simp only [eval, each, direct target (by simp [parts])]
  | list items =>
    have each := evalItems_congr fun e member => direct e (by simpa [parts] using member)
    simp only [eval, each]
  | map entries =>
    have each := evalEntries_congr (fun entry (member : entry ∈ entries) =>
      have listed := entry_parts member
      ⟨direct entry.1 listed.1, direct entry.2 listed.2⟩) []
    simp only [eval, each]
  | message fields => rfl
  | comprehension item range accu init cond step result =>
    have nothing (last : Env) : last.Covers [] := by simp [Env.Covers]
    -- The condition is in the scope of the item, but it sees nothing except the accumulator.
    have tests (last : Env) (a : Value) :
        eval ((accu, a) :: last ++ env) cond = eval ((accu, a) :: last ++ other) cond := by
      apply inner [item, accu] cond (by simp [parts])
      intro name mentions
      obtain rfl := List.mem_singleton.1 (mem_of_mentions (test_closed written) mentions)
      simp
    have steps (v a : Value) : eval ((item, v) :: (accu, a) :: env) step =
        eval ((item, v) :: (accu, a) :: other) step := by
      have member : ([item, accu], step) ∈ parts
          (.comprehension item range accu init cond step result) := by simp [parts]
      have bound := ((nothing []).bind accu a).bind item v
      exact inner _ step member _ _ (agree.inside member [(item, v), (accu, a)] bound)
    have results (a : Value) (last : Env) : eval ((accu, a) :: last ++ env) result =
        eval ((accu, a) :: last ++ other) result := by
      have member : ([accu], result) ∈ parts
          (.comprehension item range accu init cond step result) := by simp [parts]
      have bound := (nothing last).bind accu a
      exact inner _ result member _ _ (agree.inside member ((accu, a) :: last) bound)
    simp only [eval, direct init (by simp [parts]), direct range (by simp [parts])]
    cases eval other init with
    | error s => rfl
    | ok a =>
      cases eval other range with
      | error s => rfl
      | ok r =>
        dsimp only
        cases itemsOf r with
        | error s => rfl
        | ok items =>
          obtain ⟨ending, here, there⟩ := iterate_alike (fun env => eval env cond)
            (fun env => eval env step) tests steps [] a items
          simp only [here, there]
          cases ending with
          | error s => rfl
          | ok front => exact results front.1 front.2
termination_by sizeOf e
decreasing_by exact sizeOf_part member

theorem written_of_compile {text : String} {e : Expr} (compiled : compile text = .ok e) :
    Written e ∧ Closed declared e := by
  cases read : Expr.ofText? text with
  | none => simp [compile, read] at compiled
  | some p =>
    rw [compile_eq read] at compiled
    split at compiled
    · cases compiled
    · rename_i none
      cases compiled
      exact ⟨written_of_ofText? read, (firstFree?_eq_none_iff declared e).1 none⟩

theorem agreeOn_ofContext {e : Expr} (closed : Closed declared e) {c d : Context}
    (same : ∀ v : Variable, Mentions e v.name → valueOf c v = valueOf d v) :
    AgreeOn e (.ofContext c) (.ofContext d) := by
  intro name mentions
  obtain ⟨v, -, rfl⟩ := List.mem_map.1 (mem_of_mentions closed mentions)
  rw [lookup_ofContext, lookup_ofContext, same v mentions]

theorem run_congr [Regex.Engine] {text : String} {e : Expr} (compiled : compile text = .ok e)
    {c d : Context} (early : c.deadlinePassed = false) (alsoEarly : d.deadlinePassed = false)
    (same : ∀ v : Variable, Mentions e v.name → valueOf c v = valueOf d v) :
    eval (.ofContext c) e = eval (.ofContext d) e ∧ run e text c = run e text d := by
  obtain ⟨written, closed⟩ := written_of_compile compiled
  have alike := eval_congr e written (agreeOn_ofContext closed same)
  exact ⟨alike, by simp [run, early, alsoEarly, alike]⟩

theorem depends_only_on_mentions [Regex.Engine] {text : String} {e : Expr}
    (compiled : compile text = .ok e) :
    (∀ c d : Context, c.deadlinePassed = false → d.deadlinePassed = false →
      (∀ v : Variable, Mentions e v.name → valueOf c v = valueOf d v) →
        eval (.ofContext c) e = eval (.ofContext d) e ∧ run e text c = run e text d) ∧
    (¬ Mentions e "request" → ∀ c d : Context, c.deadlinePassed = false →
      d.deadlinePassed = false →
      (∀ v : Variable, v ≠ .request → Mentions e v.name → valueOf c v = valueOf d v) →
        run e text c = run e text d) ∧
    (¬ Mentions e "request" → ¬ Mentions e "is_stream" →
      ∀ (user : Json) (request other : Option Json) (metadata : Metadata) (method : String)
        (deadline : Option Timeout), (∀ t ∈ deadline, t.isOver = false) →
        run e text (.build user request metadata true method deadline) =
          run e text (.build user other metadata false method deadline)) := by
  refine ⟨fun c d early alsoEarly same => run_congr compiled early alsoEarly same,
    fun silent c d early alsoEarly same => ?_,
    fun silent plain user request other metadata method deadline early => ?_⟩
  · refine (run_congr compiled early alsoEarly fun v mentions => same v ?_ mentions).2
    rintro rfl
    exact silent mentions
  · have inTime (r : Option Json) (isStream : Bool) :
        (Context.build user r metadata isStream method deadline).deadlinePassed = false := by
      cases deadline with
      | none => rfl
      | some t => exact early t rfl
    refine (run_congr compiled (inTime _ _) (inTime _ _) fun v mentions => ?_).2
    cases v with
    | request => exact absurd mentions silent
    | isStream => exact absurd mentions plain
    | metadata | user | method => rfl

def streamBy (user : Json) : Context where
  user := user
  request := none
  metadata := .empty
  isStream := true
  method := "/s.A/m"
  deadline := none

def callBy (user request : Json) : Context where
  user := user
  request := some request
  metadata := .empty
  isStream := false
  method := "/s.A/m"
  deadline := none

theorem shadowed_user_unmentioned :
    ∃ e, compile "[1].exists(user, user == 1) && method == '/s.A/m'" = .ok e ∧
      run e "[1].exists(user, user == 1) && method == '/s.A/m'" (streamBy .null) =
        run e "[1].exists(user, user == 1) && method == '/s.A/m'"
          (callBy (.str "alice") (.num (.integer 1))) := by
  have reads : ((Expr.ofText? "[1].exists(user, user == 1) && method == '/s.A/m'").map fun e =>
      (e.firstFree? fun name => declared.contains name,
        e.firstFree? fun name => ["method"].contains name)) = some (none, none) := by
    decide +kernel
  obtain ⟨e, read, given⟩ := Option.map_eq_some_iff.1 reads
  obtain ⟨closed, onlyMethod⟩ := Prod.mk.inj given
  have compiled := compile_eq read
  rw [closed] at compiled
  have within := (firstFree?_eq_none_iff ["method"] e).1 onlyMethod
  refine ⟨e, compiled, ((depends_only_on_mentions compiled).1 _ _ rfl rfl ?_).2⟩
  intro v mentions
  have named := List.mem_singleton.1 (mem_of_mentions within mentions)
  cases v with
  | method => rfl
  | _ => exact absurd named (by decide)

end CallGuard.Cel
