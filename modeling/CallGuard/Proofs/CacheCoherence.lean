import CallGuard.Cache

set_option autoImplicit false

namespace CallGuard.ProgramCache

variable {P ε : Type}

theorem lookup_filter_ne (entries : List (String × P)) {text other : String}
    (differs : other ≠ text) :
    (entries.filter fun e => e.1 != text).lookup other = entries.lookup other := by
  induction entries with
  | nil => rfl
  | cons e rest ih =>
    obtain ⟨k, p⟩ := e
    by_cases same : k = text
    · subst same
      simp [List.lookup_cons, beq_eq_false_iff_ne.2 differs, ih]
    · simp [same, List.lookup_cons, ih]

theorem shard_set {α : Type} {n : Nat} (shards : Vector α n) (i j : Fin n) (x : α) :
    (shards.set i x).get j = if i = j then x else shards.get j := by
  change (shards.set i x)[j] = if i = j then x else shards[j]
  simp [Vector.getElem_set, Fin.ext_iff]

theorem get?_store (c : ProgramCache P) (text other : String) (program : P) :
    (c.store text program).get? other = if other = text then some program else c.get? other := by
  simp only [get?, store, shard_set]
  by_cases same : other = text
  · subst same
    simp
  · by_cases shard : c.shardOf text = c.shardOf other
    · -- in the shard of `text` only the older entry for `text` goes
      simp only [shard, if_true, List.lookup_cons, beq_eq_false_iff_ne.2 same, same, if_false]
      exact lookup_filter_ne _ same
    · simp only [shard, same, if_false]

@[simp] theorem get?_countHit (c : ProgramCache P) (text : String) :
    c.countHit.get? text = c.get? text := rfl

@[simp] theorem get?_countCompile (c : ProgramCache P) (text : String) :
    c.countCompile.get? text = c.get? text := rfl

theorem get?_empty (shardOf : Sharding) (text : String) :
    (empty shardOf : ProgramCache P).get? text = none := by
  simp [get?, empty, Vector.get]

theorem getOrCompile_of_present {c : ProgramCache P} {text : String} {program : P}
    (found : c.get? text = some program) (compile : String → Except ε P) :
    c.getOrCompile text compile = (.ok program, c.countHit) := by
  simp only [getOrCompile, found]

theorem getOrCompile_of_absent {c : ProgramCache P} {text : String} {program : P}
    (absent : c.get? text = none) {compile : String → Except ε P}
    (compiles : compile text = .ok program) :
    c.getOrCompile text compile = (.ok program, c.countCompile.store text program) := by
  simp only [getOrCompile, absent, compiles]

theorem getOrCompile_of_failure {c : ProgramCache P} {text : String} {e : ε}
    (absent : c.get? text = none) {compile : String → Except ε P}
    (fails : compile text = .error e) : c.getOrCompile text compile = (.error e, c) := by
  simp only [getOrCompile, absent, fails]

def Coherent (compile : String → Except ε P) (c : ProgramCache P) : Prop :=
  ∀ text program, c.get? text = some program → compile text = .ok program

theorem empty_coherent (compile : String → Except ε P) (shardOf : Sharding) :
    (empty shardOf : ProgramCache P).Coherent compile := by
  intro text program found
  simp [get?_empty] at found

theorem store_coherent {compile : String → Except ε P} {c : ProgramCache P}
    (coherent : c.Coherent compile) {text : String} {program : P}
    (compiled : compile text = .ok program) :
    (c.countCompile.store text program).Coherent compile := by
  intro other p found
  rw [get?_store] at found
  by_cases same : other = text
  · subst same
    simp at found
    rw [compiled, found]
  · simp [same] at found
    exact coherent other p found

theorem getOrCompile_coherent {compile : String → Except ε P} {c : ProgramCache P}
    (coherent : c.Coherent compile) (text : String) :
    (c.getOrCompile text compile).2.Coherent compile := by
  unfold getOrCompile
  cases found : c.get? text with
  | some program => exact coherent
  | none =>
    cases compiled : compile text with
    | ok program => exact store_coherent coherent compiled
    | error e => exact coherent

theorem getOrCompile_eq_compile {compile : String → Except ε P} {c : ProgramCache P}
    (coherent : c.Coherent compile) (text : String) :
    (c.getOrCompile text compile).1 = compile text := by
  unfold getOrCompile
  cases found : c.get? text with
  | some program => exact (coherent text program found).symm
  | none => cases compile text <;> rfl

end CallGuard.ProgramCache
