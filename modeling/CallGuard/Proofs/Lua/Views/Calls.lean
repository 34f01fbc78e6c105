import CallGuard.Proofs.Lua.Views.Constants

set_option autoImplicit false

namespace CallGuard.Lua

namespace State

def startWith (s : State) (name : String) (j : Json) (chunk : Chunk) (c : Context) : Turn :=
  let (v, h) := s.heap.ofJson j
  let (entries, h) := bindings c h
  let (env, h) := h.newTable { entries.setText name v with handlers :=
    { Handlers.none with index := some s.names } }
  let (cell, h) := h.newCell (.table env)
  (execBlock ⟨[], [(environmentName, cell)], []⟩ chunk).run h

end State

def Value.Own (low high : Nat) : Value → Prop
  | .table id => low ≤ id ∧ id < high
  | .native _ => False
  | _ => True

theorem Value.Own.mono {low high more : Nat} {v : Value} (own : v.Own low high)
    (wider : high ≤ more) : v.Own low more := by
  cases v with
  | table id => exact ⟨own.1, Nat.lt_of_lt_of_le own.2 wider⟩
  | native _ => exact own
  | _ => trivial

theorem admits_own (low high : Nat) : Value.Admits (Value.Own low high) :=
  ⟨trivial, fun _ => trivial⟩

theorem Value.Viewed.unwrap_eq {start n low low' : Nat} {v : Value} {move : TableId → TableId}
    (viewed : v.Viewed start n) (moved : ∀ i : Nat, move (low + i) = low' + i) :
    (v.rename (unwrap start low)).Own low (low + n) ∧
      v.rename (unwrap start low') = v.rename (move ∘ unwrap start low) := by
  cases v with
  | table id =>
    obtain ⟨i, bound, rfl⟩ := viewed
    refine ⟨?_, ?_⟩
    · show low ≤ unwrap start low (start + 2 * i + 1) ∧
        unwrap start low (start + 2 * i + 1) < low + n
      rw [unwrap_view]
      omega
    · show Value.table (unwrap start low' (start + 2 * i + 1)) =
        .table (move (unwrap start low (start + 2 * i + 1)))
      rw [unwrap_view, unwrap_view, moved]
  | native _ => exact viewed.elim
  | _ => exact ⟨trivial, rfl⟩

namespace Heap

structure Shifted (move : TableId → TableId) (base base' h h' : Heap) : Prop where
  left : h = { base with tables := h.tables }
  right : h' = { base' with tables := h'.tables }
  old : ∀ id < base.tables.size, h.tables[id]? = base.tables[id]?
  old' : ∀ id < base'.tables.size, h'.tables[id]? = base'.tables[id]?
  grown : base.tables.size ≤ h.tables.size
  size : h'.tables.size + base.tables.size = h.tables.size + base'.tables.size
  made : ∀ i, base.tables.size + i < h.tables.size →
    ∃ t : Table, t.Holds (Value.Own base.tables.size h.tables.size) ∧ t.handlers = .none ∧
      h.tables[base.tables.size + i]? = some t ∧
      h'.tables[base'.tables.size + i]? = some (t.rename move)

variable {move : TableId → TableId} {base base' h h' : Heap}

theorem shifted_none (base base' : Heap) : Shifted move base base' base base' := by
  refine ⟨rfl, rfl, fun _ _ => rfl, fun _ _ => rfl, Nat.le_refl _, Nat.add_comm _ _, ?_⟩
  intro i bound
  omega

namespace Shifted

variable (shifted : Shifted move base base' h h')

include shifted

theorem newTable {t : Table}
    (entries : t.Holds (Value.Own base.tables.size h.tables.size)) (handlers : t.handlers = .none) :
    Shifted move base base' (h.newTable t).2 (h'.newTable (t.rename move)).2 := by
  have grown := shifted.grown
  have size := shifted.size
  have wider : ∀ u : Table, u.Holds (Value.Own base.tables.size h.tables.size) →
      u.Holds (Value.Own base.tables.size (h.tables.size + 1)) := fun u holds =>
    holds.mono fun v own => own.mono (Nat.le_succ _)
  refine ⟨?_, ?_, fun id bound => ?_, fun id bound => ?_, ?_, ?_, fun i bound => ?_⟩
  · rw [shifted.left]
    rfl
  · rw [shifted.right]
    rfl
  · rw [newTable_table, if_neg (by omega)]
    exact shifted.old id bound
  · rw [newTable_table, if_neg (by omega)]
    exact shifted.old' id bound
  · rw [newTable_size]
    omega
  · rw [newTable_size, newTable_size]
    omega
  · rw [newTable_size] at bound
    rw [newTable_size, newTable_table, newTable_table]
    by_cases last : base.tables.size + i = h.tables.size
    · refine ⟨t, wider t entries, handlers, if_pos last, if_pos ?_⟩
      omega
    · obtain ⟨u, own, none, here, there⟩ := shifted.made i (by omega)
      refine ⟨u, wider u own, none, ?_, ?_⟩
      · rw [if_neg last, here]
      · rw [if_neg (by omega), there]

theorem moved (moved : ∀ i : Nat, move (base.tables.size + i) = base'.tables.size + i) (i : Nat) :
    (move (h.tables.size + i) : Nat) = h'.tables.size + i := by
  have grown := shifted.grown
  have size := shifted.size
  have there := moved (h.tables.size - base.tables.size + i)
  rw [show base.tables.size + (h.tables.size - base.tables.size + i) = h.tables.size + i by
    omega] at there
  have place : (base'.tables.size + (h.tables.size - base.tables.size + i) : Nat) =
      h'.tables.size + i := by omega
  exact there.trans place

section

variable (moved : ∀ i : Nat, move (base.tables.size + i) = base'.tables.size + i)

include moved

theorem own_unwrap {v : Value} {n : Nat} (viewed : v.Viewed empty.tables.size n) :
    (v.rename (unwrap empty.tables.size h.tables.size)).Own base.tables.size
      (h.tables.size + n) := by
  have own := (viewed.unwrap_eq (shifted.moved moved)).1
  cases v with
  | table id => exact ⟨Nat.le_trans shifted.grown own.1, own.2⟩
  | _ => exact own

theorem made_copied {n : Nat} {g k k' : Heap}
    (first : Copied False ⟨false, false⟩ empty h n g k)
    (second : Copied False ⟨false, false⟩ empty h' n g k') {i : Nat}
    (new : h.tables.size ≤ base.tables.size + i) (bound : base.tables.size + i < k.tables.size) :
    ∃ t : Table, t.Holds (Value.Own base.tables.size k.tables.size) ∧ t.handlers = .none ∧
      k.tables[base.tables.size + i]? = some t ∧
      k'.tables[base'.tables.size + i]? = some (t.rename move) := by
  have size := shifted.size
  have sizes := first.sizeCopies
  have place : h.tables.size + (base.tables.size + i - h.tables.size) = base.tables.size + i := by
    omega
  have place' : h'.tables.size + (base.tables.size + i - h.tables.size) =
      base'.tables.size + i := by omega
  obtain ⟨t, limit, document, behind, -, left⟩ :=
    first.made (base.tables.size + i - h.tables.size) (by omega)
  obtain ⟨u, -, -, source, -, right⟩ :=
    second.made (base.tables.size + i - h.tables.size) (by omega)
  rw [behind] at source
  cases source
  rw [place] at left
  rw [place'] at right
  have renamed : t.rename (unwrap empty.tables.size h'.tables.size) =
      (t.rename (unwrap empty.tables.size h.tables.size)).rename move := by
    rw [Table.rename_rename]
    exact Table.rename_congr (by rw [document.handlers]; rfl)
      (document.entries.mono fun v viewed => (viewed.unwrap_eq (shifted.moved moved)).2)
  have entries := document.entries.rename fun v viewed => shifted.own_unwrap moved viewed
  refine ⟨_, sizes ▸ entries, ?_, left, right.trans (congrArg some renamed)⟩
  rw [Table.rename, document.handlers]
  rfl

theorem ofJson (j : Json) :
    Shifted move base base' (h.ofJson j).2 (h'.ofJson j).2 ∧
      h.tables.size ≤ (h.ofJson j).2.tables.size ∧
      (h.ofJson j).1.Own base.tables.size (h.ofJson j).2.tables.size ∧
      (h'.ofJson j).1 = (h.ofJson j).1.rename move := by
  have grown := shifted.grown
  have size := shifted.size
  -- Both are copies of the same views.
  have copied (h : Heap) :
      CopiedValue False ⟨false, false⟩ empty h 0 (empty.viewOfJson ⟨false, false⟩ j) (h.ofJson j) :=
    copied_ofJson j nofun (copied_none empty h)
  obtain ⟨n, -, first, viewed, value⟩ := copied h
  obtain ⟨n', -, second, -, value'⟩ := copied h'
  obtain rfl : n' = n := by
    have here := first.size
    have there := second.size
    omega
  have sizes := first.sizeCopies
  have sizes' := second.sizeCopies
  refine ⟨⟨?_, ?_, fun id bound => ?_, fun id bound => ?_, ?_, ?_, fun i bound => ?_⟩, by omega, ?_, ?_⟩
  · rw [first.copies, shifted.left]
  · rw [second.copies, shifted.right]
  · rw [first.oldCopies id (by omega), shifted.old id bound]
  · rw [second.oldCopies id (by omega), shifted.old' id bound]
  · omega
  · omega
  · by_cases old : base.tables.size + i < h.tables.size
    · obtain ⟨u, entries, none, left, right⟩ := shifted.made i old
      refine ⟨u, entries.mono fun v own => own.mono (by omega), none, ?_, ?_⟩
      · rw [first.oldCopies _ old, left]
      · rw [second.oldCopies _ (by omega), right]
    · exact shifted.made_copied moved first second (Nat.le_of_not_lt old) bound
  · rw [value, sizes]
    exact shifted.own_unwrap moved viewed
  · rw [value', value, Value.rename_rename]
    exact (viewed.unwrap_eq (shifted.moved moved)).2

end

end Shifted

end Heap

namespace State

theorem tableOf_rename (move : TableId → TableId) (entries : List (String × Value)) :
    tableOf (entries.map fun e => (e.1, e.2.rename move)) = (tableOf entries).rename move := by
  have fold : ∀ t : Table, (entries.map fun e => (e.1, e.2.rename move)).foldl
      (fun t e => t.setText e.1 e.2) (t.rename move) =
        (entries.foldl (fun t e => t.setText e.1 e.2) t).rename move := by
    intro t
    induction entries generalizing t with
    | nil => rfl
    | cons e rest ih =>
      have step := ih (t.setText e.1 e.2)
      rw [← Table.setText_rename] at step
      exact step
  have all := fold .empty
  rw [Table.empty_rename] at all
  exact all

theorem bindings_shifted {move : TableId → TableId} {base base' : Heap}
    (moved : ∀ i : Nat, move (base.tables.size + i) = base'.tables.size + i) (c : Context) :
    Heap.Shifted move base base' (bindings c base).2 (bindings c base').2 ∧
      (bindings c base).1.Holds
        (Value.Own base.tables.size (bindings c base).2.tables.size) ∧
      (bindings c base).1.handlers = .none ∧ (bindings c base).1.Tidy 0 ∧
      (bindings c base').1 = (bindings c base).1.rename move := by
  obtain ⟨shifted, -, user, user'⟩ := (Heap.shifted_none base base').ofJson moved c.user
  obtain ⟨shifted, further, request, request'⟩ := shifted.ofJson moved c.requestValue
  let metadata := tableOf (c.metadata.entries.map fun e => (e.1, Value.text e.2))
  have texts : metadata.Holds (Value.Own base.tables.size
      ((base.ofJson c.user).2.ofJson c.requestValue).2.tables.size) := by
    refine tableOf_holds (admits_own _ _) (fun _ => trivial) fun e member => ?_
    obtain ⟨entry, -, rfl⟩ := List.mem_map.1 member
    trivial
  have same : metadata.rename move = metadata := by
    rw [← tableOf_rename, List.map_map]
    rfl
  have made := shifted.newTable texts (tableOf_handlers _)
  rw [same] at made
  have wider := Heap.newTable_size ((base.ofJson c.user).2.ofJson c.requestValue).2 metadata
  have place : Value.table ((base'.ofJson c.user).2.ofJson c.requestValue).2.tables.size =
      .table (move ((base.ofJson c.user).2.ofJson c.requestValue).2.tables.size) :=
    congrArg Value.table (shifted.moved moved 0).symm
  refine ⟨made, tableOf_holds (admits_own _ _) (fun _ => trivial) ?_, tableOf_handlers _,
    (tableOf_get _).1, ?_⟩
  · have later := request.mono (Nat.le_of_lt (Nat.lt_of_lt_of_eq (Nat.lt_succ_self _) wider.symm))
    have earlier := user.mono (Nat.le_trans further
      (Nat.le_of_lt (Nat.lt_of_lt_of_eq (Nat.lt_succ_self _) wider.symm)))
    simp only [List.forall_mem_cons]
    refine ⟨earlier, later, ?_, trivial, trivial, by simp⟩
    exact ⟨shifted.grown, Nat.lt_of_lt_of_eq (Nat.lt_succ_self _) wider.symm⟩
  · unfold bindings
    rw [← tableOf_rename]
    simp only [List.map_cons, List.map_nil, user', request', Heap.newTable, place]
    rfl

end State

end CallGuard.Lua
