import CallGuard.Metadata

set_option autoImplicit false

namespace CallGuard

instance {α : Type} [BEq α] [LawfulBEq α] : LawfulBEq (Keyed α) where
  eq_of_beq {m n} same := by
    obtain ⟨entries, ordered⟩ := m
    obtain ⟨others, _⟩ := n
    obtain rfl : entries = others := eq_of_beq same
    rfl
  rfl {m} := beq_self_eq_true m.entries

namespace Metadata

instance : LawfulBEq Metadata where
  eq_of_beq {m n} same := by
    obtain ⟨values⟩ := m
    obtain ⟨others⟩ := n
    obtain rfl : values = others := eq_of_beq same
    rfl
  rfl {m} := beq_self_eq_true m.values

-- Collected from pairs, with more of them appended one by one.
inductive Filled : List (String × String) → Metadata → Prop
  | collected (pairs : List (String × String)) : Filled pairs (.ofPairs pairs)
  | appended {pairs : List (String × String)} {m : Metadata} (filled : Filled pairs m)
      (key value : String) : Filled (pairs ++ [(key, value)]) (m.append key value)

theorem ofPairs_append (pairs : List (String × String)) (key value : String) :
    ofPairs (pairs ++ [(key, value)]) = (ofPairs pairs).append key value := by
  simp [ofPairs]

variable {pairs others : List (String × String)} {m n : Metadata}

theorem Filled.eq_ofPairs (filled : Filled pairs m) : m = ofPairs pairs := by
  induction filled with
  | collected pairs => rfl
  | appended filled key value ih => rw [ofPairs_append, ih]

theorem arrived_ne_nil_iff (pairs : List (String × String)) (key : String) :
    arrived pairs key ≠ [] ↔ ∃ value, (key, value) ∈ pairs := by
  simp [List.eq_nil_iff_forall_not_mem, mem_arrived_iff]

theorem ext_get? (same : ∀ key, m.values.get? key = n.values.get? key) : m = n := by
  have values : m.values = n.values := Keyed.ext_get? same
  exact congrArg Metadata.mk values

theorem ofPairs_eq_iff :
    ofPairs pairs = ofPairs others ↔ ∀ key, arrived pairs key = arrived others key := by
  constructor
  · intro same key
    rw [← getAll_ofPairs, ← getAll_ofPairs, same]
  · intro same
    apply ext_get?
    intro key
    rw [get?_ofPairs, get?_ofPairs, same]

theorem mem_normalized_ofPairs_iff (pairs : List (String × String)) (key joined : String) :
    (key, joined) ∈ (ofPairs pairs).normalized.entries ↔
      (∃ value, (key, value) ∈ pairs) ∧ joined = ",".intercalate (arrived pairs key) := by
  rw [Keyed.mem_entries_iff, get?_normalized, get?_ofPairs, ← arrived_ne_nil_iff]
  by_cases absent : arrived pairs key = []
  · simp [absent]
  · simp [absent, eq_comm]

theorem getAll_append (m : Metadata) (key value name : String) :
    (m.append key value).getAll name =
      if name = key then m.getAll key ++ [value] else m.getAll name := by
  split
  · next same => rw [same, getAll_append_self]
  · next differs => exact getAll_append_ne m value differs

theorem append_comm_iff (m : Metadata) (key value other text : String) :
    (m.append key value).append other text = (m.append other text).append key value ↔
      key ≠ other ∨ value = text := by
  by_cases same : key = other
  · subst same
    constructor
    · intro swapped
      have values := congrArg (getAll · key) swapped
      simp only [getAll_append_self, List.append_assoc, List.append_cancel_left_eq] at values
      exact .inr (List.cons.inj values).1
    · intro equal
      obtain rfl : value = text := equal.resolve_left fun differs => differs rfl
      rfl
  · refine iff_of_true ?_ (.inl same)
    apply ext_get?
    intro name
    by_cases first : name = key
    · have second : name ≠ other := first ▸ same
      simp [get?_append, getAll_append, first, same]
    · simp [get?_append, getAll_append, first, Ne.symm same]

structure Keeps (m : Metadata) (pairs : List (String × String)) : Prop where
  ordered : m.normalized.keys.Pairwise (· < ·)
  listed : ∀ key joined, (key, joined) ∈ m.normalized.entries ↔
    (∃ value, (key, value) ∈ pairs) ∧ joined = ",".intercalate (arrived pairs key)
  all : ∀ key, m.getAll key = arrived pairs key
  first : ∀ key, m.get? key = (arrived pairs key).head?

theorem Filled.keeps (filled : Filled pairs m) : m.Keeps pairs := by
  rw [filled.eq_ofPairs]
  refine ⟨Keyed.keys_ordered _, mem_normalized_ofPairs_iff pairs, getAll_ofPairs pairs, ?_⟩
  intro key
  rw [get?, getAll_ofPairs]

theorem equal_iff_arrived (filled : Filled pairs m) (filled' : Filled others n) :
    ((m == n) = true ↔ ∀ key, arrived pairs key = arrived others key) ∧ m.Keeps pairs ∧
      ∀ key value other text,
        ((m.append key value).append other text == (m.append other text).append key value) =
            true ↔
          key ≠ other ∨ value = text := by
  refine ⟨?_, filled.keeps, ?_⟩
  · rw [beq_iff_eq, filled.eq_ofPairs, filled'.eq_ofPairs]
    exact ofPairs_eq_iff
  · intro key value other text
    rw [beq_iff_eq]
    exact append_comm_iff m key value other text

theorem equal_in_two_orders :
    let first := ofPairs [("x-tag", "b"), ("X-Tag", "a"), ("", ""), ("x-tag", "a")]
    let second := ((ofPairs [("", ""), ("x-tag", "b")]).append "x-tag" "a").append "X-Tag" "a"
    (first == second) = true ∧ first.getAll "x-tag" = ["b", "a"] := by
  intro first second
  have filled : Filled _ first := .collected _
  have filled' : Filled _ second := ((Filled.collected _).appended _ _).appended _ _
  obtain ⟨equal, kept, -⟩ := equal_iff_arrived filled filled'
  refine ⟨equal.2 fun key => ?_, kept.all "x-tag"⟩
  by_cases small : "x-tag" = key
  · subst small
    decide
  · by_cases capital : "X-Tag" = key
    · subst capital
      decide
    · simp [arrived, List.filterMap_cons, small, capital]

end Metadata

end CallGuard
