import CallGuard.Proofs.Cache.Size
import Mathlib.Data.Finset.Card
import Mathlib.Data.List.Induction

set_option autoImplicit false

namespace CallGuard

namespace ProgramCache

inductive Inquiry (m : Type → Type) (P ε : Type)
  | get (text : String)
  | getOrCompile (text : String) (compile : String → m (Except ε P))

inductive Answer (P ε : Type)
  | found (program : Option P)
  | given (result : Except ε P)

section

variable {m : Type → Type} [Monad m] {P ε : Type}

def getOrCompileM (c : ProgramCache P) (text : String) (compile : String → m (Except ε P)) :
    m (Except ε P × ProgramCache P) :=
  match c.get? text with
  | some program => pure (.ok program, c.countHit)
  | none => do
    match ← compile text with
    | .ok program => pure (.ok program, c.countCompile.store text program)
    | .error e => pure (.error e, c)

theorem getOrCompileM_pure [LawfulMonad m] (c : ProgramCache P) (text : String)
    (compile : String → Except ε P) :
    c.getOrCompileM text (fun t => (pure (compile t) : m (Except ε P))) =
      pure (c.getOrCompile text compile) := by
  unfold getOrCompileM getOrCompile
  cases c.get? text with
  | some program => rfl
  | none =>
    simp only [pure_bind]
    cases compile text <;> rfl

def serve (call : Inquiry m P ε) (c : ProgramCache P) : m (Answer P ε × ProgramCache P) :=
  match call with
  | .get text => pure (.found (c.get? text), c)
  | .getOrCompile text compile => do
    let (result, c) ← c.getOrCompileM text compile
    pure (.given result, c)

def session {σ : Type} (serve : Inquiry m P ε → σ → m (Answer P ε × σ)) (stats : σ → CacheStats) :
    σ → List (Inquiry m P ε) → m (List (Answer P ε × CacheStats))
  | _, [] => pure []
  | s, call :: rest => do
    let (answer, s) ← serve call s
    let later ← session serve stats s rest
    pure ((answer, stats s) :: later)

end

end ProgramCache

open ProgramCache (Inquiry Answer session)

-- All programs in one map, under the very texts they were compiled from.
structure OneMap (P : Type) where
  programs : Std.HashMap String P
  compiles : Nat
  hits : Nat

namespace OneMap

variable {m : Type → Type} [Monad m] {P ε : Type}

def empty : OneMap P := ⟨∅, 0, 0⟩

def stats (s : OneMap P) : CacheStats := ⟨s.programs.size, s.compiles, s.hits⟩

def serve (call : Inquiry m P ε) (s : OneMap P) : m (Answer P ε × OneMap P) :=
  match call with
  | .get text => pure (.found s.programs[text]?, s)
  | .getOrCompile text compile =>
    match s.programs[text]? with
    | some program => pure (.given (.ok program), { s with hits := s.hits + 1 })
    | none => do
      match ← compile text with
      | .error e => pure (.given (.error e), s)
      | .ok program =>
        pure (.given (.ok program),
          { s with programs := s.programs.insert text program, compiles := s.compiles + 1 })

structure Alike (c : ProgramCache P) (s : OneMap P) : Prop where
  programs : ∀ text, c.get? text = s.programs[text]?
  stats : c.stats = s.stats

theorem alike_empty (shardOf : Sharding) : Alike (.empty shardOf : ProgramCache P) .empty where
  programs text := by simp [ProgramCache.get?_empty, empty]
  stats := by
    rw [ProgramCache.stats, ProgramCache.size_empty]
    simp [stats, empty, ProgramCache.empty]

namespace Alike

variable {c : ProgramCache P} {s : OneMap P}

theorem countHit (alike : Alike c s) : Alike c.countHit { s with hits := s.hits + 1 } where
  programs := alike.programs
  stats := congrArg (fun stats : CacheStats => { stats with hits := stats.hits + 1 }) alike.stats

theorem store (alike : Alike c s) {text : String} (absent : c.get? text = none) (program : P) :
    Alike (c.countCompile.store text program)
      { s with programs := s.programs.insert text program, compiles := s.compiles + 1 } where
  programs other := by
    rw [ProgramCache.get?_store, ProgramCache.get?_countCompile, alike.programs,
      Std.HashMap.getElem?_insert]
    by_cases same : other = text
    · simp [same]
    · simp [same, Ne.symm same]
  stats := by
    have missing : text ∉ s.programs := by
      rw [alike.programs] at absent
      simpa using absent
    rw [ProgramCache.stats_store absent, alike.stats]
    simp [OneMap.stats, Std.HashMap.size_insert, missing]

variable [LawfulMonad m]

theorem serve_bind (alike : Alike c s) (call : Inquiry m P ε) {β : Type}
    {next : Answer P ε × ProgramCache P → m β} {after : Answer P ε × OneMap P → m β}
    (follows : ∀ answer d t, Alike d t → next (answer, d) = after (answer, t)) :
    c.serve call >>= next = s.serve call >>= after := by
  cases call with
  | get text =>
    simp only [ProgramCache.serve, OneMap.serve, pure_bind, alike.programs]
    exact follows _ c s alike
  | getOrCompile text compile =>
    have same := alike.programs text
    cases found : s.programs[text]? with
    | some program =>
      rw [found] at same
      simp only [ProgramCache.serve, ProgramCache.getOrCompileM, OneMap.serve, same, found,
        pure_bind]
      exact follows _ _ _ alike.countHit
    | none =>
      rw [found] at same
      simp only [ProgramCache.serve, ProgramCache.getOrCompileM, OneMap.serve, same, found,
        bind_assoc]
      refine bind_congr fun result => ?_
      cases result with
      | error e =>
        simp only [pure_bind]
        exact follows _ c s alike
      | ok program =>
        simp only [pure_bind]
        exact follows _ _ _ (alike.store same program)

theorem session_eq (alike : Alike c s) (calls : List (Inquiry m P ε)) :
    session ProgramCache.serve ProgramCache.stats c calls =
      session OneMap.serve OneMap.stats s calls := by
  induction calls generalizing c s with
  | nil => rfl
  | cons call rest ih =>
    refine alike.serve_bind call fun answer d t alike => ?_
    simp only [ih alike, alike.stats]

end Alike

end OneMap

namespace ProgramCache

variable {P ε : Type}

def step (c : ProgramCache P) : Inquiry Id P ε → ProgramCache P
  | .get _ => c
  | .getOrCompile text compile => (c.getOrCompile text compile).2

def after (c : ProgramCache P) (calls : List (Inquiry Id P ε)) : ProgramCache P :=
  calls.foldl step c

def Inquiry.programFor? (text : String) : Inquiry Id P ε → Option P
  | .get _ => none
  | .getOrCompile other compile => if other = text then (compile other).run.toOption else none

def firstProgram? (calls : List (Inquiry Id P ε)) (text : String) : Option P :=
  calls.findSome? (Inquiry.programFor? text)

def Inquiry.compiledText? : Inquiry Id P ε → Option String
  | .get _ => none
  | .getOrCompile text compile => (compile text).run.toOption.map fun _ => text

def compiledTexts (calls : List (Inquiry Id P ε)) : Finset String :=
  (calls.filterMap Inquiry.compiledText?).toFinset

theorem get?_step (c : ProgramCache P) (call : Inquiry Id P ε) (text : String) :
    (c.step call).get? text = (c.get? text).or (call.programFor? text) := by
  cases call with
  | get other => simp [step, Inquiry.programFor?]
  | getOrCompile other compile =>
    simp only [step, Inquiry.programFor?]
    cases found : c.get? other with
    | some program =>
      rw [getOrCompile_of_present found, get?_countHit]
      split
      · rename_i same
        rw [← same, found, Option.some_or]
      · rw [Option.or_none]
    | none =>
      cases compiled : compile other with
      | error e =>
        rw [getOrCompile_of_failure found compiled]
        simp [Id.run, Except.toOption]
      | ok program =>
        rw [getOrCompile_of_absent found compiled, get?_store, get?_countCompile]
        by_cases same : text = other
        · subst same
          simp [found, Id.run, Except.toOption]
        · simp [same, Ne.symm same]

theorem get?_after (c : ProgramCache P) (calls : List (Inquiry Id P ε)) (text : String) :
    (c.after calls).get? text = (c.get? text).or (firstProgram? calls text) := by
  induction calls generalizing c with
  | nil => simp [after, firstProgram?]
  | cons call rest ih =>
    have later : (c.after (call :: rest)).get? text =
        (c.get? text).or ((call.programFor? text).or (firstProgram? rest text)) := by
      rw [← Option.or_assoc, ← get?_step]
      exact ih (c.step call)
    rw [later, firstProgram?, firstProgram?, List.findSome?_cons]
    cases call.programFor? text <;> simp

theorem mem_compiledTexts_iff (calls : List (Inquiry Id P ε)) (text : String) :
    text ∈ compiledTexts calls ↔ (firstProgram? calls text).isSome = true := by
  have each (call : Inquiry Id P ε) :
      call.compiledText? = some text ↔ (call.programFor? text).isSome = true := by
    cases call with
    | get other => simp [Inquiry.compiledText?, Inquiry.programFor?]
    | getOrCompile other compile =>
      by_cases same : other = text
      · subst same
        cases compiled : (compile other).run.toOption <;>
          simp [Inquiry.compiledText?, Inquiry.programFor?, compiled]
      · simp [Inquiry.compiledText?, Inquiry.programFor?, same]
  simp only [compiledTexts, List.mem_toFinset, List.mem_filterMap, each, firstProgram?,
    List.findSome?_isSome_iff]

theorem compiledTexts_snoc (calls : List (Inquiry Id P ε)) (call : Inquiry Id P ε) :
    compiledTexts (calls ++ [call]) =
      match call.compiledText? with
      | none => compiledTexts calls
      | some text => insert text (compiledTexts calls) := by
  cases compiled : call.compiledText? <;> ext text <;>
    simp [compiledTexts, compiled]

theorem get?_of_empty (shardOf : Sharding) (calls : List (Inquiry Id P ε)) (text : String) :
    ((empty shardOf : ProgramCache P).after calls).get? text = firstProgram? calls text := by
  rw [get?_after, get?_empty, Option.none_or]

theorem counted_after (shardOf : Sharding) (calls : List (Inquiry Id P ε)) :
    ((empty shardOf : ProgramCache P).after calls).stats.entries = (compiledTexts calls).card ∧
      ((empty shardOf : ProgramCache P).after calls).stats.compiles =
        (compiledTexts calls).card := by
  induction calls using List.reverseRecOn with
  | nil => exact ⟨size_empty shardOf, rfl⟩
  | append_singleton calls call ih =>
    generalize cached : (empty shardOf : ProgramCache P).after calls = c at ih
    have grows : (empty shardOf : ProgramCache P).after (calls ++ [call]) = c.step call := by
      rw [← cached, after, List.foldl_append, List.foldl_cons, List.foldl_nil, after]
    have known (text : String) : text ∈ compiledTexts calls ↔ (c.get? text).isSome = true := by
      rw [mem_compiledTexts_iff, ← cached, get?_of_empty]
    rw [grows, compiledTexts_snoc]
    cases call with
    | get text => exact ih
    | getOrCompile text compile =>
      simp only [step, Inquiry.compiledText?]
      cases found : c.get? text with
      | some program =>
        have member : text ∈ compiledTexts calls := (known text).2 (by simp [found])
        rw [getOrCompile_of_present found]
        cases (compile text).run.toOption with
        | none => exact ih
        | some other =>
          simp only [Option.map_some, Finset.insert_eq_of_mem member]
          exact ih
      | none =>
        have missing : text ∉ compiledTexts calls := by simp [known, found]
        cases compiled : compile text with
        | error e =>
          rw [getOrCompile_of_failure found compiled]
          exact ih
        | ok program =>
          rw [getOrCompile_of_absent found compiled, stats_store found]
          simp only [Id.run, Except.toOption, Option.map_some, Finset.card_insert_of_notMem missing]
          exact ⟨congrArg (· + 1) ih.1, congrArg (· + 1) ih.2⟩

structure CompilesOnce {m : Type → Type} [Monad m] (c : ProgramCache P) (text : String)
    (compile : String → m (Except ε P)) : Prop where
  present : ∀ program, c.get? text = some program → ∃ d : ProgramCache P,
    c.getOrCompileM text compile = pure (.ok program, d) ∧ d.get? = c.get? ∧
      d.stats = { c.stats with hits := c.stats.hits + 1 }
  absent : c.get? text = none → ∃ next : Except ε P → ProgramCache P,
    c.getOrCompileM text compile = (fun result => (result, next result)) <$> compile text ∧
      (∀ e, next (.error e) = c) ∧ ∀ program,
        (∀ other, (next (.ok program)).get? other =
          if other = text then some program else c.get? other) ∧
        (next (.ok program)).stats =
          ⟨c.stats.entries + 1, c.stats.compiles + 1, c.stats.hits⟩

theorem compilesOnce {m : Type → Type} [Monad m] [LawfulMonad m] (c : ProgramCache P)
    (text : String) (compile : String → m (Except ε P)) : c.CompilesOnce text compile where
  present program found := ⟨c.countHit, by simp only [getOrCompileM, found], rfl, rfl⟩
  absent absent := by
    refine ⟨fun
      | .error _ => c
      | .ok program => c.countCompile.store text program, ?_, fun e => rfl, fun program =>
        ⟨fun other => get?_store c.countCompile text other program, stats_store absent program⟩⟩
    simp only [getOrCompileM, absent, map_eq_pure_bind]
    refine bind_congr fun result => ?_
    cases result <;> rfl

theorem plain_insert_once_map (shardOf : Sharding) :
    (∀ (m : Type → Type) [Monad m] [LawfulMonad m] (calls : List (Inquiry m P ε)),
      session ProgramCache.serve ProgramCache.stats (empty shardOf) calls =
        session OneMap.serve OneMap.stats .empty calls) ∧
    ∀ earlier : List (Inquiry Id P ε),
      let c := (empty shardOf : ProgramCache P).after earlier
      (∀ text, c.get? text = firstProgram? earlier text) ∧
      (∀ later text program, c.get? text = some program →
        ((empty shardOf : ProgramCache P).after (earlier ++ later)).get? text = some program) ∧
      c.stats.entries = c.stats.compiles ∧ c.stats.entries = (compiledTexts earlier).card ∧
      ∀ (m : Type → Type) [Monad m] [LawfulMonad m] (text : String),
        (∀ compile : String → m (Except ε P), c.CompilesOnce text compile) ∧
        ∀ compile : String → Except ε P,
          c.getOrCompileM text (fun t => (pure (compile t) : m (Except ε P))) =
            pure (c.getOrCompile text compile) := by
  refine ⟨fun m _ _ calls => (OneMap.alike_empty shardOf).session_eq calls, fun earlier => ?_⟩
  obtain ⟨entries, compiles⟩ := counted_after shardOf earlier
  refine ⟨get?_of_empty shardOf earlier, fun later text program found => ?_,
    entries.trans compiles.symm, entries, fun m _ _ text =>
      ⟨compilesOnce _ text, getOrCompileM_pure _ text⟩⟩
  rw [after, List.foldl_append]
  exact (get?_after _ later text).trans (by rw [← after, found, Option.some_or])

end ProgramCache

end CallGuard
