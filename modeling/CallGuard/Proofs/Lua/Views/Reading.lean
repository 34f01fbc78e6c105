import CallGuard.Lua.Evaluator
import CallGuard.Proofs.Lua.Views.Beginning
import Mathlib

set_option autoImplicit false

namespace CallGuard.Lua

variable {builtins : Keyed Json} {s : State} {name : String} {j : Json} {chunk : Chunk}
  {x : Context} {text : String}

-- Where the chunk loops over entries of the constant, it does so directly.
def OnlyReads (name : String) (chunk : Chunk) : Prop :=
  ∀ m ∈ Block.mentions chunk,
    m.name ≠ environmentName ∧ m ≠ ⟨name, .assigned⟩ ∧ m ≠ ⟨"pairs", .read⟩

def State.IsRead (s : State) (chunk : Chunk) (x : Context) : Prop :=
  Machine.StaysClear (fun n args h => avoids n args h) (.initial s.random) (s.start chunk x)

def Turn.strays (avoids : Native → List Value → Heap → Bool) : Turn → Bool
  | .done (.called (.native n) args _) h => avoids n args h
  | .call (.native n) args _ h _ => avoids n args h
  | .fail (.raised (.table _) _) _ => true
  | .fail .stackOverflow _ => true
  | _ => false

theorem Turn.Strays.strays {avoids : Native → List Value → Heap → Bool} {t : Turn}
    (strays : t.Strays fun n args h => avoids n args h) : t.strays avoids = true := by
  unfold Turn.Strays at strays
  split at strays <;> first | exact strays | exact strays.elim | rfl

def Machine.endsClear (avoids : Native → List Value → Heap → Bool) : Nat → Machine → Turn → Bool
  | 0, _, _ => false
  | fuel + 1, m, t =>
    !t.strays avoids &&
      match m.step t with
      | .running m' t' => endsClear avoids fuel m' t'
      | .ended _ _ => true

theorem Machine.staysClear_of_endsClear {avoids : Native → List Value → Heap → Bool} {fuel : Nat}
    {m : Machine} {t : Turn} (ends : endsClear avoids fuel m t = true) :
    StaysClear (fun n args h => avoids n args h) m t := by
  intro m' t' reaches strays
  induction fuel generalizing m t with
  | zero => cases ends
  | succ fuel ih =>
    simp only [endsClear, Bool.and_eq_true, Bool.not_eq_true'] at ends
    obtain ⟨here, later⟩ := ends
    rcases reaches.cases_head with same | ⟨⟨m₁, t₁⟩, next, rest⟩
    · cases same
      rw [strays.strays] at here
      cases here
    · have step : m.step t = .running m₁ t₁ := next
      rw [step] at later
      exact ih later rest

namespace Machine

variable {m : Machine} {t : Turn}

def Comes (m : Machine) (t : Turn) (text : String) (o : Outcome Bool) : Prop :=
  ∃ fuel e, (run fuel m t).1 = some e ∧ outcomeOf text false (some e) = o

theorem Comes.unique {o o' : Outcome Bool} (comes : m.Comes t text o) (other : m.Comes t text o') :
    o = o' := by
  obtain ⟨fuel, e, ended, rfl⟩ := comes
  obtain ⟨fuel', e', ended', rfl⟩ := other
  obtain ⟨n, -, ends⟩ := (run_eq_some_iff fuel).1 ended
  obtain ⟨n', -, ends'⟩ := (run_eq_some_iff fuel').1 ended'
  rw [ends.unique ends']

theorem comes_of_run (fuel : Nat) {b : Bool}
    (ended : ((run fuel m t).1.any fun e =>
      (outcomeOf text false (some e)).toOption == some b) = true) : m.Comes t text (.ok b) := by
  cases last : (run fuel m t).1 with
  | none =>
    rw [last] at ended
    cases ended
  | some e =>
    refine ⟨fuel, e, last, ?_⟩
    rw [last, Option.any_some] at ended
    cases outcome : outcomeOf text false (some e) with
    | error _ =>
      rw [outcome] at ended
      cases ended
    | ok c =>
      rw [outcome] at ended
      exact congrArg Except.ok (Option.some.inj (eq_of_beq ended))

end Machine

namespace State

def Answers (s : State) (chunk : Chunk) (x : Context) (text : String) (o : Outcome Bool) : Prop :=
  ∃ fuel e, (s.run chunk x fuel).1 = some e ∧ outcomeOf text false (some e) = o

def AnswersWith (s : State) (name : String) (j : Json) (chunk : Chunk) (x : Context)
    (text : String) (o : Outcome Bool) : Prop :=
  Machine.Comes (.initial s.random) (s.startWith name j chunk x) text o

theorem outcomeOf_rename (text : String) {late : Bool} (move : TableId → TableId)
    (e : Machine.Ending) :
    outcomeOf text late (some (e.rename move)) = outcomeOf text late (some e) := by
  cases e with
  | returned vs =>
    simp only [Machine.Ending.rename, outcomeOf, firstOf_rename]
    cases firstOf vs <;> rfl
  | _ => rfl

theorem Placement.paired_start (c : s.Placement name j) (sealed : s.Sealed)
    (undeclared : Variable.isDeclared name = false) (reads : OnlyReads name chunk) (x : Context) :
    (s.start chunk x).Paired (c.pairing (s.globalsAt x)) (s.startWith name j chunk x) := by
  have alike := c.alike_begin undeclared sealed x
  have lawful := c.pairing_lawful (c.begins undeclared x).later
  obtain ⟨-, cells'⟩ := c.cells_begin sealed x
  have right : s.startWith name j chunk x =
      (execBlock ⟨[], [(environmentName, 0)], []⟩ chunk).run (s.heapWith name j x) := by
    show (execBlock ⟨[], [(environmentName, (bindings x (s.heap.ofJson j).2).2.cells.size)], []⟩
      chunk).run _ = _
    rw [cells']
    rfl
  rw [start_eq sealed, right]
  exact alike.paired_chunk lawful rfl reads

theorem ofBuiltins_undeclared (started : ofBuiltins builtins = .ok s)
    (found : builtins.get? name = some j) : Variable.isDeclared name = false :=
  ((started_of_ok started).free ((builtins.get?_isSome_iff name).1 (by rw [found]; rfl))).1

theorem reads_like_document (started : ofBuiltins builtins = .ok s)
    (found : builtins.get? name = some j)
    (globals : builtins.get? Builtins.globalsName = none) (steps : builtins.get? "next" = none)
    (narrow : j.isNarrow) (reads : OnlyReads name chunk) (clear : s.IsRead chunk x)
    (text : String) (o : Outcome Bool) :
    s.Answers chunk x text o ↔ s.AnswersWith name j chunk x text o := by
  obtain ⟨c⟩ := ofBuiltins_placement started found globals steps narrow
  have undeclared := ofBuiltins_undeclared started found
  have sealed := ofBuiltins_sealed started
  have lawful := c.pairing_lawful (c.begins undeclared x).later
  have both := Machine.run_paired lawful (Machine.paired_initial s.random)
    (c.paired_start sealed undeclared reads x) clear
  constructor
  · rintro ⟨fuel, e, ended, rfl⟩
    obtain ⟨fuel', ended'⟩ := (both (e.rename c.move)).2 ⟨e, fuel, rfl, ended⟩
    exact ⟨fuel', _, ended', outcomeOf_rename text c.move e⟩
  · rintro ⟨fuel, e', ended, rfl⟩
    obtain ⟨e, fuel', rfl, ended'⟩ := (both e').1 ⟨fuel, ended⟩
    exact ⟨fuel', e, ended', (outcomeOf_rename text c.move e).symm⟩

end State

def adminList : Json := .arr [.str "alice"]

def withAdmins : Keyed Json := Keyed.empty.insert "admins" adminList

def fromAlice : Context := ⟨.str "alice", none, .empty, false, "/s.A/m", none⟩

def isListed : String := "contains(admins, user) and #admins == 1"

def isListedChunk : Chunk :=
  [.ret [.paren (.binary .and
    (.call (.name "contains" 1) [.name "admins" 1, .name "user" 1] 1)
    (.binary .equal (.unary .length (.name "admins" 1) 1) (.number (.int 1)) 1) 1)]]

def isEmpty : String := "next(admins) == nil"

def isEmptyChunk : Chunk :=
  [.ret [.paren (.binary .equal (.call (.name "next" 1) [.name "admins" 1] 1) .nil 1)]]

theorem isListed_reads (started : State.ofBuiltins withAdmins = .ok s) :
    s.IsRead isListedChunk fromAlice := by
  refine Machine.staysClear_of_endsClear (?_ : Machine.endsClear avoids 100 _ _ = true)
  simp only [State.start, isListedChunk, execBlock, execAll, exec, evalList, eval, List.any_cons,
    List.any_nil, Stmt.isLabel, Bool.or_false, if_false, Bool.false_eq_true]
  cases started
  decide +kernel

theorem isListed_answers (started : State.ofBuiltins withAdmins = .ok s) :
    s.Answers isListedChunk fromAlice isListed (.ok true) := by
  refine Machine.comes_of_run 100 ?_
  simp only [State.start, isListedChunk, execBlock, execAll, exec, evalList, eval, List.any_cons,
    List.any_nil, Stmt.isLabel, Bool.or_false, if_false, Bool.false_eq_true]
  cases started
  decide +kernel

theorem isEmpty_answers (started : State.ofBuiltins withAdmins = .ok s) :
    s.Answers isEmptyChunk fromAlice isEmpty (.ok true) := by
  refine Machine.comes_of_run 100 ?_
  simp only [State.start, isEmptyChunk, execBlock, execAll, exec, evalList, eval, List.any_cons,
    List.any_nil, Stmt.isLabel, Bool.or_false, if_false, Bool.false_eq_true]
  cases started
  decide +kernel

theorem isEmpty_answersWith (started : State.ofBuiltins withAdmins = .ok s) :
    s.AnswersWith "admins" adminList isEmptyChunk fromAlice isEmpty (.ok false) := by
  refine Machine.comes_of_run 100 ?_
  simp only [State.startWith, isEmptyChunk, execBlock, execAll, exec, evalList, eval, List.any_cons,
    List.any_nil, Stmt.isLabel, Bool.or_false, if_false, Bool.false_eq_true]
  cases started
  decide +kernel

theorem isListed_with_list : compile isListed = .ok isListedChunk ∧
    ∃ s, State.ofBuiltins withAdmins = .ok s ∧ s.IsRead isListedChunk fromAlice ∧
      s.AnswersWith "admins" adminList isListedChunk fromAlice isListed (.ok true) := by
  refine ⟨by cbv, ?_⟩
  obtain ⟨s, started⟩ : ∃ s, State.ofBuiltins withAdmins = .ok s := ⟨_, rfl⟩
  have clear := isListed_reads started
  have narrow : adminList.isNarrow := by decide
  have reads : OnlyReads "admins" isListedChunk := by
    simp [OnlyReads, isListedChunk, Block.mentions, Stmt.mentions, Exprs.mentions, Expr.mentions,
      environmentName]
  have same := State.reads_like_document started rfl rfl rfl narrow reads clear isListed (.ok true)
  exact ⟨s, started, clear, same.1 (isListed_answers started)⟩

-- It goes from key to key by hand, and finds the view empty.
theorem isEmpty_tells_views : compile isEmpty = .ok isEmptyChunk ∧
    OnlyReads "admins" isEmptyChunk ∧ ∃ s, State.ofBuiltins withAdmins = .ok s ∧
      s.Answers isEmptyChunk fromAlice isEmpty (.ok true) ∧
        ¬ s.AnswersWith "admins" adminList isEmptyChunk fromAlice isEmpty (.ok true) := by
  have reads : OnlyReads "admins" isEmptyChunk := by
    simp [OnlyReads, isEmptyChunk, Block.mentions, Stmt.mentions, Exprs.mentions, Expr.mentions,
      environmentName]
  refine ⟨by cbv, reads, ?_⟩
  obtain ⟨s, started⟩ : ∃ s, State.ofBuiltins withAdmins = .ok s := ⟨_, rfl⟩
  refine ⟨s, started, isEmpty_answers started, fun same => ?_⟩
  have differs := same.unique (isEmpty_answersWith started)
  cases differs

end CallGuard.Lua
