import CallGuard.Lua.Machine

set_option autoImplicit false

namespace CallGuard.Lua

theorem getD_of_forall {α : Type} {p : α → Prop} {xs : Array α} {d : α} (all : ∀ x ∈ xs, p x)
    (default : p d) (i : Nat) : p (xs.getD i d) := by
  unfold Array.getD
  split
  · exact all _ (Array.getElem_mem _)
  · exact default

structure Value.Admits (V : Value → Prop) : Prop where
  nil : V .nil
  int : ∀ i, V (.int i)

namespace Table

structure Holds (V : Value → Prop) (t : Table) : Prop where
  items : ∀ v ∈ t.items, V v
  nodes : ∀ n ∈ t.nodes, V n.1.toValue ∧ V n.2

variable {V W : Value → Prop}

theorem ofSizes_holds (nil : V .nil) (items others : Nat) : (ofSizes items others).Holds V := by
  refine ⟨fun v member => ?_, by simp [ofSizes]⟩
  rw [(Array.mem_replicate.1 member).2]
  exact nil

theorem nothing_holds {t : Table} (items : t.items = #[]) (nodes : t.nodes = #[]) : t.Holds V :=
  ⟨by simp [items], by simp [nodes]⟩

namespace Holds

variable {t : Table} (holds : t.Holds V)

include holds

theorem mono (weaker : ∀ v, V v → W v) : t.Holds W where
  items v member := weaker v (holds.items v member)
  nodes n member := ⟨weaker _ (holds.nodes n member).1, weaker _ (holds.nodes n member).2⟩

theorem item (nil : V .nil) (i : Nat) : V (t.items.getD i .nil) :=
  getD_of_forall holds.items nil i

theorem get (nil : V .nil) (k : Key) : V (t.get k) := by
  unfold Table.get
  split
  · exact holds.item nil _
  · split
    · next n found => exact (holds.nodes n (Array.mem_of_find?_eq_some found)).2
    · exact nil

theorem setItem (i : Nat) {v : Value} (value : V v) :
    Holds V { t with items := t.items.setIfInBounds i v } where
  items w member := by
    rcases Array.mem_or_eq_of_mem_setIfInBounds member with old | new
    · exact holds.items w old
    · exact new ▸ value
  nodes := holds.nodes

theorem setNode (i : Nat) {k : Key} {v : Value} (key : V k.toValue) (value : V v) :
    Holds V { t with nodes := t.nodes.setIfInBounds i (k, v) } where
  items := holds.items
  nodes n member := by
    rcases Array.mem_or_eq_of_mem_setIfInBounds member with old | new
    · exact holds.nodes n old
    · subst new
      exact ⟨key, value⟩

theorem pushNode {k : Key} {v : Value} (key : V k.toValue) (value : V v) :
    Holds V { t with nodes := t.nodes.push (k, v) } where
  items := holds.items
  nodes n member := by
    rcases Array.mem_push.1 member with old | new
    · exact holds.nodes n old
    · subst new
      exact ⟨key, value⟩

theorem place {k : Key} {v : Value} (key : V k.toValue) (value : V v) :
    Holds V (match t.slot? k with
      | some i => { t with items := t.items.setIfInBounds i v }
      | none => { t with nodes := t.nodes.push (k, v) }) := by
  split
  · exact holds.setItem _ value
  · exact holds.pushNode key value

theorem resize (admits : Value.Admits V) (size others : Nat) : (t.resize size others).Holds V := by
  -- Other sizes only move the entries.
  unfold Table.resize
  refine List.foldlRecOn _ _ ⟨?_, by simp⟩ fun t held entry member => ?_
  · intro v member
    rcases Array.mem_append.1 member with kept | added
    · obtain ⟨i, bound, rfl⟩ := Array.mem_extract_iff_getElem.1 kept
      exact holds.items _ (Array.getElem_mem _)
    · rw [(Array.mem_replicate.1 added).2]
      exact admits.nil
  · obtain ⟨key, value⟩ : V entry.1.toValue ∧ V entry.2 := by
      rcases List.mem_append.1 member with leftover | kept
      · obtain ⟨i, -, entry_eq⟩ := List.mem_filterMap.1 leftover
        simp only at entry_eq
        split at entry_eq
        · simp at entry_eq
        · cases entry_eq
          exact ⟨admits.int _, Holds.item ‹_› admits.nil _⟩
      · exact Holds.nodes ‹_› entry (Array.mem_toList_iff.1 (List.mem_filter.1 kept).1)
    exact held.place key value

theorem add (admits : Value.Admits V) {k : Key} {v : Value} (key : V k.toValue) (value : V v) :
    (t.add k v).Holds V := by
  unfold Table.add
  split
  · exact holds
  · split
    · exact holds.pushNode key value
    · exact (holds.resize admits _ _).place key value

theorem set (admits : Value.Admits V) {k : Key} {v : Value} (key : V k.toValue) (value : V v) :
    (t.set k v).Holds V := by
  unfold Table.set
  split
  · exact holds.setItem _ value
  · split
    · exact holds.setNode _ key value
    · exact holds.add admits key value

theorem reserve (admits : Value.Admits V) (size : Nat) : (t.reserve size).Holds V := by
  unfold Table.reserve
  split
  · exact holds
  · exact holds.resize admits _ _

theorem entryFrom (admits : Value.Admits V) {fuel place : Nat} {k : Key} {v : Value}
    (found : t.entryFrom fuel place = some (k, v)) : V k.toValue ∧ V v := by
  induction fuel generalizing place with
  | zero => simp [Table.entryFrom] at found
  | succ fuel ih =>
    simp only [Table.entryFrom] at found
    split at found
    · split at found
      · exact ih found
      · cases found
        exact ⟨admits.int _, holds.items _ (Array.getElem_mem _)⟩
    · split at found
      · simp at found
      · next node =>
        split at found
        · exact ih found
        · cases found
          exact holds.nodes _ (Array.mem_of_getElem? node)

theorem next? (admits : Value.Admits V) {key : Option Key} {k : Key} {v : Value}
    (found : t.next? key = some (some (k, v))) : V k.toValue ∧ V v := by
  unfold Table.next? at found
  cases key with
  | none => exact holds.entryFrom admits (Option.some.inj found)
  | some key =>
    obtain ⟨place, -, entry⟩ := Option.map_eq_some_iff.1 found
    exact holds.entryFrom admits entry

theorem setAll (admits : Value.Admits V) {vs : List Value} (values : ∀ v ∈ vs, V v)
    (start : Nat) :
    Holds V (vs.foldl (fun (t, i) v => (Table.setInt t (.ofNat i) v, i + 1)) (t, start)).1 := by
  refine List.foldlRecOn (motive := fun p : Table × Nat => p.1.Holds V) vs _ holds ?_
  exact fun p kept v member => kept.set admits (admits.int _) (values v member)

end Holds

theorem resize_handlers (t : Table) (size others : Nat) :
    (t.resize size others).handlers = t.handlers := by
  unfold resize
  refine List.foldlRecOn (motive := fun u : Table => u.handlers = t.handlers) _ _ rfl ?_
  intro u same e _
  dsimp only
  split <;> exact same

theorem rehash_handlers (t : Table) (k : Key) : (t.rehash k).handlers = t.handlers := by
  unfold rehash
  exact resize_handlers t _ _

theorem add_handlers (t : Table) (k : Key) (v : Value) : (t.add k v).handlers = t.handlers := by
  unfold add
  split
  · rfl
  · split
    · rfl
    · dsimp only
      split <;> exact rehash_handlers t k

theorem set_handlers (t : Table) (k : Key) (v : Value) : (t.set k v).handlers = t.handlers := by
  unfold set
  split
  · rfl
  · split
    · rfl
    · exact add_handlers t k v

theorem reserve_handlers (t : Table) (size : Nat) : (t.reserve size).handlers = t.handlers := by
  unfold reserve
  split
  · rfl
  · exact resize_handlers t _ _

theorem setAll_handlers (t : Table) (vs : List Value) (start : Nat) :
    (vs.foldl (fun (t, i) v => (setInt t (.ofNat i) v, i + 1)) (t, start)).1.handlers =
      t.handlers := by
  refine List.foldlRecOn (motive := fun p : Table × Nat => p.1.handlers = t.handlers) vs _ rfl ?_
  exact fun p same v _ => (set_handlers p.1 _ v).trans same

end Table

end CallGuard.Lua
