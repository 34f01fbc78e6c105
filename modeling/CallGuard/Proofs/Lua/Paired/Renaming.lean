import CallGuard.Proofs.Lua.Entries
import CallGuard.Proofs.Lua.Plain
import Mathlib.Logic.Function.Basic

set_option autoImplicit false

namespace CallGuard.Lua

variable {move : TableId → TableId}

def Native.rename (move : TableId → TableId) : Native → Native
  | .lookup names optional support => .lookup (move names) optional support
  | .viewIndex source => .viewIndex (move source)
  | .viewLength source => .viewLength (move source)
  | .viewPairs source support => .viewPairs (move source) support
  | .viewStep source view support => .viewStep (move source) (move view) support
  | n => n

def Value.rename (move : TableId → TableId) : Value → Value
  | .table id => .table (move id)
  | .native n => .native (n.rename move)
  | v => v

def Key.rename (move : TableId → TableId) : Key → Key
  | .table id => .table (move id)
  | .native n => .native (n.rename move)
  | k => k

abbrev Values.rename (move : TableId → TableId) (vs : List Value) : List Value :=
  vs.map (Value.rename move)

theorem Native.rename_rename (first second : TableId → TableId) (n : Native) :
    (n.rename first).rename second = n.rename (second ∘ first) := by
  cases n <;> rfl

theorem Value.rename_rename (first second : TableId → TableId) (v : Value) :
    (v.rename first).rename second = v.rename (second ∘ first) := by
  cases v with
  | native n => exact congrArg Value.native (n.rename_rename first second)
  | _ => rfl

theorem Key.rename_rename (first second : TableId → TableId) (k : Key) :
    (k.rename first).rename second = k.rename (second ∘ first) := by
  cases k with
  | native n => exact congrArg Key.native (n.rename_rename first second)
  | _ => rfl

theorem Value.rename_id (v : Value) : v.rename id = v := by
  cases v with
  | native n => cases n <;> rfl
  | _ => rfl

theorem Key.rename_id (k : Key) : k.rename id = k := by
  cases k with
  | native n => cases n <;> rfl
  | _ => rfl

theorem Key.rename_congr {first second : TableId → TableId} {k : Key}
    (same : k.toValue.rename first = k.toValue.rename second) :
    k.rename first = k.rename second := by
  cases k with
  | table id => exact congrArg Key.table (Value.table.inj same)
  | native n => exact congrArg Key.native (Value.native.inj same)
  | _ => rfl

theorem Native.rename_injective (injective : Function.Injective move) :
    Function.Injective (Native.rename move) := by
  intro m n same
  cases m <;> cases n <;> simp_all [Native.rename, injective.eq_iff]

theorem Key.rename_injective (injective : Function.Injective move) :
    Function.Injective (Key.rename move) := by
  intro j k same
  cases j <;> cases k <;>
    simp_all [Key.rename, injective.eq_iff, (Native.rename_injective injective).eq_iff]

namespace Value

@[simp] theorem isNil_rename (v : Value) : (v.rename move).isNil = v.isNil := by cases v <;> rfl

@[simp] theorem truth_rename (v : Value) : (v.rename move).truth = v.truth := by cases v <;> rfl

@[simp] theorem typeName_rename (v : Value) : (v.rename move).typeName = v.typeName := by
  cases v <;> rfl

@[simp] theorem number?_rename (v : Value) : (v.rename move).number? = v.number? := by
  cases v <;> rfl

@[simp] theorem toNum?_rename (v : Value) : (v.rename move).toNum? = v.toNum? := by
  cases v <;> rfl

@[simp] theorem toInt?_rename (v : Value) : (v.rename move).toInt? = v.toInt? := by
  simp [toInt?]

@[simp] theorem toBytes?_rename (v : Value) : (v.rename move).toBytes? = v.toBytes? := by
  cases v <;> rfl

@[simp] theorem byteCount_rename (v : Value) : (v.rename move).byteCount = v.byteCount := by
  cases v <;> rfl

@[simp] theorem order?_rename (a b : Value) :
    (a.rename move).order? (b.rename move) = a.order? b := by
  cases a <;> cases b <;> rfl

theorem same_rename (injective : Function.Injective move) (a b : Value) :
    (a.rename move).same (b.rename move) = a.same b := by
  cases a with
  | table id => cases b <;> simp [rename, same, injective.beq_eq]
  | native n => cases b <;> simp [rename, same, (Native.rename_injective injective).beq_eq]
  | _ => cases b <;> rfl

theorem toKey?_rename (v : Value) : (v.rename move).toKey? = v.toKey?.map (Key.rename move) := by
  cases v with
  | float x =>
    simp only [rename, toKey?]
    split
    · rfl
    · split <;> rfl
  | _ => rfl

theorem toValue_rename (k : Key) : (k.rename move).toValue = k.toValue.rename move := by
  cases k <;> rfl

theorem arith?_rename (op : Arith) (a b : Value) :
    arith? op (a.rename move) (b.rename move) = arith? op a b := by
  simp [arith?]

end Value

@[simp] theorem firstOf_rename (vs : List Value) :
    firstOf (Values.rename move vs) = (firstOf vs).rename move := by
  cases vs <;> rfl

@[simp] theorem byteCounts_rename (vs : List Value) :
    byteCounts (Values.rename move vs) = byteCounts vs := by
  simp [byteCounts, List.foldl_map]

theorem adjust_rename (n : Nat) (vs : List Value) :
    adjust n (Values.rename move vs) = Values.rename move (adjust n vs) := by
  induction n generalizing vs with
  | zero => rfl
  | succ n ih =>
    cases vs with
    | nil => exact congrArg (Value.nil :: ·) (ih [])
    | cons v rest => exact congrArg (v.rename move :: ·) (ih rest)

def Handlers.rename (move : TableId → TableId) (h : Handlers) : Handlers where
  index := h.index.map (Native.rename move)
  newIndex := h.newIndex.map (Native.rename move)
  length := h.length.map (Native.rename move)
  pairs := h.pairs.map (Native.rename move)

theorem Handlers.rename_rename (first second : TableId → TableId) (h : Handlers) :
    (h.rename first).rename second = h.rename (second ∘ first) := by
  simp [rename, Function.comp_def, Native.rename_rename]

def Entry.rename (move : TableId → TableId) (e : Key × Value) : Key × Value :=
  (e.1.rename move, e.2.rename move)

namespace Table

def rename (move : TableId → TableId) (t : Table) : Table where
  items := t.items.map (Value.rename move)
  nodes := t.nodes.map (Entry.rename move)
  capacity := t.capacity
  handlers := t.handlers.rename move

theorem empty_rename : empty.rename move = empty := by
  simp [empty, rename, Handlers.rename, Handlers.none]

@[simp] theorem items_size_rename (t : Table) : (t.rename move).items.size = t.items.size := by
  simp [rename]

@[simp] theorem nodes_size_rename (t : Table) : (t.rename move).nodes.size = t.nodes.size := by
  simp [rename]

theorem rename_rename (first second : TableId → TableId) (t : Table) :
    (t.rename first).rename second = t.rename (second ∘ first) := by
  simp [rename, Handlers.rename_rename, Function.comp_def, Value.rename_rename,
    Entry.rename, Key.rename_rename]

theorem rename_congr {first second : TableId → TableId} {t : Table}
    (handlers : t.handlers.rename first = t.handlers.rename second)
    (entries : t.Holds fun v => v.rename first = v.rename second) :
    t.rename first = t.rename second := by
  have items : t.items.map (Value.rename first) = t.items.map (Value.rename second) :=
    Array.map_congr_left entries.items
  have nodes : t.nodes.map (Entry.rename first) = t.nodes.map (Entry.rename second) := by
    refine Array.map_congr_left fun e member => ?_
    obtain ⟨key, value⟩ := entries.nodes e member
    exact Prod.ext (Key.rename_congr key) value
  simp only [rename, items, nodes, handlers]

theorem rename_id (t : Table) : t.rename id = t := by
  have handlers : t.handlers.rename id = t.handlers := by
    have same : Native.rename id = id := funext fun n => by cases n <;> rfl
    simp [Handlers.rename, same]
  have items : t.items.map (Value.rename id) = t.items := by
    have same : Value.rename id = id := funext Value.rename_id
    rw [same, Array.map_id]
  have nodes : t.nodes.map (Entry.rename id) = t.nodes := by
    have same : Entry.rename id = id := funext fun e =>
      Prod.ext (Key.rename_id e.1) (Value.rename_id e.2)
    rw [same, Array.map_id]
  simp only [rename, handlers, items, nodes]

theorem Holds.rename {V W : Value → Prop} {t : Table} (holds : t.Holds V)
    (kept : ∀ v, V v → W (v.rename move)) : (t.rename move).Holds W := by
  refine ⟨fun v member => ?_, fun n member => ?_⟩
  · obtain ⟨w, old, rfl⟩ := Array.mem_map.1 member
    exact kept w (holds.items w old)
  · obtain ⟨e, old, rfl⟩ := Array.mem_map.1 member
    obtain ⟨key, value⟩ := holds.nodes e old
    have renamed : (Entry.rename move e).1.toValue = e.1.toValue.rename move :=
      Value.toValue_rename e.1
    exact ⟨renamed ▸ kept _ key, kept _ value⟩

theorem ofSizes_rename (items others : Nat) :
    (ofSizes items others).rename move = ofSizes items others := by
  simp [ofSizes, rename, Handlers.rename, Handlers.none, Value.rename]

@[simp] theorem item_rename (t : Table) (i : Nat) :
    (t.rename move).items.getD i .nil = (t.items.getD i .nil).rename move := by
  simp only [rename, Array.getD_eq_getD_getElem?, Array.getElem?_map]
  cases t.items[i]? <;> rfl

@[simp] theorem slot?_rename (t : Table) (k : Key) :
    (t.rename move).slot? (k.rename move) = t.slot? k := by
  cases k <;> simp [slot?, Key.rename]

theorem node?_rename_plain (t : Table) {k : Key} (plain : k.toValue.Plain) :
    (t.rename move).node? (k.rename move) = t.node? k := by
  have keys : ∀ j : Key, (j.rename move == k.rename move) = (j == k) := by
    intro j
    rw [Bool.eq_iff_iff, beq_iff_eq, beq_iff_eq]
    cases k with
    | table id => exact plain.elim
    | native n => exact plain.elim
    | _ => cases j <;> simp [Key.rename]
  simp [node?, rename, Array.findIdx?_map, Function.comp_def, Entry.rename, keys]

section

variable (injective : Function.Injective move)

include injective

theorem node?_rename (t : Table) (k : Key) :
    (t.rename move).node? (k.rename move) = t.node? k := by
  have keys := Key.rename_injective injective
  simp [node?, rename, Array.findIdx?_map, Function.comp_def, Entry.rename, keys.beq_eq]

theorem get_rename (t : Table) (k : Key) :
    (t.rename move).get (k.rename move) = (t.get k).rename move := by
  have keys := Key.rename_injective injective
  have node : (t.rename move).nodes.find? (fun n => n.1 == k.rename move) =
      (t.nodes.find? fun n => n.1 == k).map (Entry.rename move) := by
    simp [rename, Array.find?_map, Function.comp_def, Entry.rename, keys.beq_eq]
  unfold get
  rw [slot?_rename, node]
  cases t.slot? k with
  | some i => exact t.item_rename i
  | none => cases t.nodes.find? fun n => n.1 == k <;> rfl

end

theorem setItem_rename (t : Table) (i : Nat) (v : Value) :
    ({ t with items := t.items.setIfInBounds i v } : Table).rename move =
      { t.rename move with
        items := (t.rename move).items.setIfInBounds i (v.rename move) } := by
  simp [rename, Array.map_setIfInBounds]

theorem setNode_rename (t : Table) (i : Nat) (k : Key) (v : Value) :
    ({ t with nodes := t.nodes.setIfInBounds i (k, v) } : Table).rename move =
      { t.rename move with
        nodes := (t.rename move).nodes.setIfInBounds i (k.rename move, v.rename move) } := by
  simp [rename, Array.map_setIfInBounds, Entry.rename]

theorem pushNode_rename (t : Table) (k : Key) (v : Value) :
    ({ t with nodes := t.nodes.push (k, v) } : Table).rename move =
      { t.rename move with
        nodes := (t.rename move).nodes.push (k.rename move, v.rename move) } := by
  simp [rename, Entry.rename]

theorem put_rename (t : Table) (e : Key × Value) :
    (t.rename move).put (Entry.rename move e) = (t.put e).rename move := by
  simp only [put, Entry.rename, slot?_rename]
  cases t.slot? e.1 with
  | some i => exact (t.setItem_rename i e.2).symm
  | none => exact (t.pushNode_rename e.1 e.2).symm

theorem foldl_put_rename (es : List (Key × Value)) (t : Table) :
    (es.map (Entry.rename move)).foldl put (t.rename move) = (es.foldl put t).rename move := by
  induction es generalizing t with
  | nil => rfl
  | cons e rest ih => rw [List.map_cons, List.foldl_cons, List.foldl_cons, put_rename, ih]

theorem kept_rename (t : Table) : (t.rename move).kept = t.kept.map (Entry.rename move) := by
  simp [kept, rename, List.filter_map, Function.comp_def, Entry.rename]

theorem leftover_rename (t : Table) (size : Nat) :
    (t.rename move).leftover size = (t.leftover size).map (Entry.rename move) := by
  simp only [leftover, List.map_filterMap, items_size_rename, item_rename, Value.isNil_rename]
  congr 1
  funext i
  split <;> rfl

theorem trimmed_rename (t : Table) (size others : Nat) :
    (t.rename move).trimmed size others = (t.trimmed size others).rename move := by
  simp [trimmed, rename, Value.rename]

theorem resize_rename (t : Table) (size others : Nat) :
    (t.rename move).resize size others = (t.resize size others).rename move := by
  rw [resize_eq, resize_eq, ← foldl_put_rename, trimmed_rename, leftover_rename, kept_rename,
    List.map_append]

theorem itemKeys_rename (t : Table) : (t.rename move).itemKeys = t.itemKeys := by
  simp only [itemKeys, items_size_rename, item_rename, Value.isNil_rename]
  congr 1
  simp only [rename, Array.toList_map, List.filterMap_map]
  congr 1
  funext ⟨k, v⟩
  cases k <;> simp [Entry.rename, Key.rename]

theorem liveCount_rename (t : Table) : (t.rename move).liveCount = t.liveCount := by
  simp [liveCount, rename, List.filter_map, Function.comp_def, Entry.rename]

theorem rehash_rename (t : Table) (k : Key) :
    (t.rename move).rehash (k.rename move) = (t.rehash k).rename move := by
  unfold rehash
  simp only [itemKeys_rename, liveCount_rename, resize_rename]
  cases k <;> rfl

theorem add_rename (t : Table) (k : Key) (v : Value) :
    (t.rename move).add (k.rename move) (v.rename move) = (t.add k v).rename move := by
  have capacity : (t.rename move).capacity = t.capacity := rfl
  unfold add
  simp only [Value.isNil_rename, nodes_size_rename, rehash_rename, capacity]
  split
  · rfl
  · split
    · exact (t.pushNode_rename k v).symm
    · exact (t.rehash k).put_rename (k, v)

theorem set_rename_of {t : Table} {k : Key}
    (node : (t.rename move).node? (k.rename move) = t.node? k) (v : Value) :
    (t.rename move).set (k.rename move) (v.rename move) = (t.set k v).rename move := by
  unfold set
  rw [slot?_rename, node]
  cases t.slot? k with
  | some i => exact (t.setItem_rename i v).symm
  | none =>
    cases t.node? k with
    | some i => exact (t.setNode_rename i k v).symm
    | none => exact t.add_rename k v

theorem set_rename (injective : Function.Injective move) (t : Table) (k : Key) (v : Value) :
    (t.rename move).set (k.rename move) (v.rename move) = (t.set k v).rename move :=
  set_rename_of (node?_rename injective t k) v

theorem setInt_rename (t : Table) (i : Int64) (v : Value) :
    (t.rename move).setInt i (v.rename move) = (t.setInt i v).rename move :=
  set_rename_of (t.node?_rename_plain (k := .int i) trivial) v

theorem setText_rename (t : Table) (name : String) (v : Value) :
    (t.rename move).setText name (v.rename move) = (t.setText name v).rename move :=
  set_rename_of (t.node?_rename_plain (k := .string (.ofText name)) trivial) v

theorem setAll_rename (vs : List Value) (t : Table) (start : Nat) :
    ((Values.rename move vs).foldl (fun (t, i) v => (setInt t (.ofNat i) v, i + 1))
      (t.rename move, start)).1 =
      ((vs.foldl (fun (t, i) v => (setInt t (.ofNat i) v, i + 1)) (t, start)).1).rename move := by
  induction vs generalizing t start with
  | nil => rfl
  | cons v rest ih =>
    simp only [List.map_cons, List.foldl_cons, setInt_rename]
    exact ih (t.setInt (.ofNat start) v) (start + 1)

theorem reserve_rename (t : Table) (size : Nat) :
    (t.rename move).reserve size = (t.reserve size).rename move := by
  unfold reserve
  rw [items_size_rename]
  split
  · rfl
  · exact t.resize_rename size t.capacity

section

variable (injective : Function.Injective move)

include injective

theorem hasInt_rename (t : Table) (n : Nat) : (t.rename move).hasInt n = t.hasInt n := by
  have entry : (t.rename move).get (.int (.ofNat n)) = (t.get (.int (.ofNat n))).rename move :=
    get_rename injective t (.int (.ofNat n))
  simp [hasInt, getInt, entry]

theorem searchKeys_rename (t : Table) (fuel lo hi : Nat) :
    (t.rename move).searchKeys fuel lo hi = t.searchKeys fuel lo hi := by
  induction fuel generalizing lo hi with
  | zero => rfl
  | succ fuel ih => simp only [searchKeys, hasInt_rename injective, ih]

theorem searchBeyond_rename (t : Table) (fuel n : Nat) :
    (t.rename move).searchBeyond fuel n = t.searchBeyond fuel n := by
  induction fuel generalizing n with
  | zero => rfl
  | succ fuel ih =>
    simp only [searchBeyond, hasInt_rename injective, searchKeys_rename injective, ih]

omit injective in
theorem searchItems_rename (t : Table) (fuel lo hi : Nat) :
    (t.rename move).searchItems fuel lo hi = t.searchItems fuel lo hi := by
  induction fuel generalizing lo hi with
  | zero => rfl
  | succ fuel ih => simp only [searchItems, item_rename, Value.isNil_rename, ih]

theorem length_rename (t : Table) : (t.rename move).length = t.length := by
  simp only [length, items_size_rename, item_rename, Value.isNil_rename, hasInt_rename injective,
    searchItems_rename, searchBeyond_rename injective]

omit injective in
theorem entryFrom_rename (t : Table) (fuel place : Nat) :
    (t.rename move).entryFrom fuel place = (t.entryFrom fuel place).map (Entry.rename move) := by
  induction fuel generalizing place with
  | zero => rfl
  | succ fuel ih =>
    have node : (t.rename move).nodes[place - t.items.size]? =
        t.nodes[place - t.items.size]?.map (Entry.rename move) := by
      simp [rename]
    simp only [entryFrom, items_size_rename, item_rename, Value.isNil_rename, node, ih]
    split
    · split <;> rfl
    · cases t.nodes[place - t.items.size]? with
      | none => rfl
      | some e =>
        simp only [Option.map_some, Entry.rename, Value.isNil_rename]
        split <;> rfl

theorem next?_rename (t : Table) (k : Option Key) :
    (t.rename move).next? (k.map (Key.rename move)) =
      (t.next? k).map (Option.map (Entry.rename move)) := by
  unfold next?
  cases k with
  | none => simp [entryFrom_rename]
  | some k =>
    simp only [Option.map_some, placeOf?, slot?_rename, node?_rename injective, entryFrom_rename,
      items_size_rename, nodes_size_rename, Option.map_map, Function.comp_def]

end

end Table

end CallGuard.Lua
