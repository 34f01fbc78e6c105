import CallGuard.Proofs.Lua.Paired.Laws

set_option autoImplicit false

namespace CallGuard.Lua

open Routine

variable {p : Pairing}

namespace Value

variable {move : TableId → TableId}

theorem concat?_rename (a b : Value) :
    concat? (a.rename move) (b.rename move) = concat? a b := by
  simp [concat?]

theorem bitwise?_rename (op : Bitwise) (a b : Value) :
    bitwise? op (a.rename move) (b.rename move) = bitwise? op a b := by
  simp [bitwise?]

theorem less?_rename (a b : Value) : less? (a.rename move) (b.rename move) = less? a b := by
  simp [less?]

theorem lessEqual?_rename (a b : Value) :
    lessEqual? (a.rename move) (b.rename move) = lessEqual? a b := by
  simp [lessEqual?]

theorem Plain.rename_eq {v : Value} (plain : v.Plain) : v.rename move = v := by
  cases v with
  | table id => exact plain.elim
  | native n => exact plain.elim
  | _ => rfl

end Value

theorem Values.Plain.rename_eq {move : TableId → TableId} {vs : List Value}
    (plain : Values.Plain vs) : Values.rename move vs = vs := by
  induction vs with
  | nil => rfl
  | cons v rest ih =>
    rw [values_cons_plain] at plain
    rw [Values.rename, List.map_cons, plain.1.rename_eq]
    exact congrArg (v :: ·) (ih plain.2)

theorem Value.map_rename_of_plain {move : TableId → TableId} {o : Option Value}
    (plain : ∀ v, o = some v → v.Plain) : o.map (Value.rename move) = o := by
  cases o with
  | none => rfl
  | some v => exact congrArg some (plain v rfl).rename_eq

theorem BinaryOp.value?_rename {move : TableId → TableId} (injective : Function.Injective move)
    (op : BinaryOp) (a b : Value) :
    op.value? (a.rename move) (b.rename move) = (op.value? a b).map (Value.rename move) := by
  by_cases second : op.value? = fun _ b => some b
  · simp [second]
  · have plain : ∀ v, op.value? a b = some v → v.Plain := fun v found =>
      (BinaryOp.value?_plain found).resolve_right second
    rw [Value.map_rename_of_plain plain]
    cases op with
    | and => exact absurd rfl second
    | or => exact absurd rfl second
    | _ =>
      simp [BinaryOp.value?, Value.arith?_rename, Value.bitwise?_rename, Value.concat?_rename,
        Value.same_rename injective, Value.less?_rename, Value.lessEqual?_rename]

theorem BinaryOp.value?_fits {op : BinaryOp} {a b v : Value} (second : b.Fits p)
    (found : op.value? a b = some v) : v.Fits p := by
  rcases BinaryOp.value?_plain found with plain | same
  · exact plain.fits
  · rw [same] at found
    cases found
    exact second

theorem paired_plain {o : Option Value} (plain : ∀ v, o = some v → v.Plain) :
    (ofOption o).Paired p (ofOption o) p.ofValue :=
  paired_ofOption (fun v found => (plain v found).fits) (Value.map_rename_of_plain plain).symm

theorem paired_pure_plain {v : Value} (plain : v.Plain) :
    (pure v : Routine Value).Paired p (pure v) p.ofValue :=
  paired_pure ⟨plain.fits, plain.rename_eq.symm⟩

theorem paired_plains {o : Option (List Value)} (plain : ∀ vs, o = some vs → Values.Plain vs) :
    (ofOption o).Paired p (ofOption o) p.ofValues := by
  refine paired_ofOption (fun vs found => (plain vs found).fits) ?_
  cases o with
  | none => rfl
  | some vs => exact congrArg some (plain vs rfl).rename_eq.symm

theorem paired_pure_plains {vs : List Value} (plain : Values.Plain vs) :
    (pure vs : Routine (List Value)).Paired p (pure vs) p.ofValues :=
  paired_pure ⟨plain.fits, plain.rename_eq.symm⟩

theorem paired_return {v : Value} (fits : v.Fits p) :
    (pure [v] : Routine (List Value)).Paired p (pure [v.rename p.move]) p.ofValues :=
  paired_pure ⟨by simpa using fits, rfl⟩

theorem paired_wrapped {r r' : Routine Value} (paired : r.Paired p r' p.ofValue) :
    (do return [← r]).Paired p (do return [← r']) p.ofValues :=
  paired.bind fun _ fits => paired_return fits

theorem paired_cell {c : CellId} (other : c ≠ p.envCell) :
    (read fun h => h.cell c).Paired p (read fun h => h.cell c) p.ofValue :=
  paired_read fun _ _ alike => alike.cells c other

theorem paired_newCell {v : Value} (fits : v.Fits p) :
    (alloc fun h => h.newCell v).Paired p (alloc fun h => h.newCell (v.rename p.move))
      (Carried id (· ≠ p.envCell)) :=
  paired_alloc fun _ _ alike =>
    ⟨⟨Nat.ne_of_gt alike.envCell, alike.cellCount⟩, alike.newCell fits⟩

namespace Library

variable {vs : Args}

namespace Args

@[simp] theorem get?_rename (move : TableId → TableId) (vs : Args) (n : Nat) :
    get? (Values.rename move vs) n = (get? vs n).map (Value.rename move) := by
  simp [get?]

@[simp] theorem value_rename (move : TableId → TableId) (vs : Args) (n : Nat) :
    value (Values.rename move vs) n = (value vs n).rename move := by
  simp only [value, get?_rename]
  cases get? vs n <;> rfl

theorem value_fits (fits : Values.Fits p vs) (n : Nat) : (value vs n).Fits p := by
  unfold value get?
  cases found : (vs : List Value)[n - 1]? with
  | none => trivial
  | some v => exact fits v (List.mem_of_getElem? found)

theorem paired_presentValue (fits : Values.Fits p vs) (n : Nat) :
    (present vs n).Paired p (present (Values.rename p.move vs) n)
      (Carried (Value.rename p.move) fun v => v.Fits p ∧ value vs n = v) :=
  paired_ofOption
    (fun v found => ⟨fits v (List.mem_of_getElem? found), by rw [value, found]; rfl⟩)
    (get?_rename p.move vs n)

theorem paired_present (fits : Values.Fits p vs) (n : Nat) :
    (present vs n).Paired p (present (Values.rename p.move vs) n) p.ofValue :=
  (paired_presentValue fits n).mono fun _ _ carried => ⟨carried.1.1, carried.2⟩

theorem paired_int (vs : Args) (n : Nat) :
    (int vs n).Paired p (int (Values.rename p.move vs) n) Eq :=
  paired_sameOption (by simp)

theorem paired_intOr (vs : Args) (n : Nat) (default : Int64) :
    (intOr vs n default).Paired p (intOr (Values.rename p.move vs) n default) Eq :=
  paired_ite (by simp) (paired_same default) (paired_int vs n)

theorem paired_float (vs : Args) (n : Nat) :
    (float vs n).Paired p (float (Values.rename p.move vs) n) Eq :=
  paired_sameOption (by simp)

theorem paired_bytes (vs : Args) (n : Nat) :
    (bytes vs n).Paired p (bytes (Values.rename p.move vs) n) Eq :=
  paired_sameOption (by simp)

theorem paired_bytesOr (vs : Args) (n : Nat) (default : Bytes) :
    (bytesOr vs n default).Paired p (bytesOr (Values.rename p.move vs) n default) Eq :=
  paired_ite (by simp) (paired_same default) (paired_bytes vs n)

theorem paired_table (fits : Values.Fits p vs) (n : Nat) :
    (table vs n).Paired p (table (Values.rename p.move vs) n) p.ofValue := by
  have argument := value_fits fits n
  unfold table
  rw [value_rename]
  cases is : value vs n with
  | table id => exact paired_pure ⟨is ▸ argument, rfl⟩
  | _ => exact paired_invalid

end Args

end Library

section

variable (lawful : p.Lawful)

include lawful

theorem BinaryOp.paired_value? (op : BinaryOp) {a b : Value} (second : b.Fits p) :
    (ofOption (op.value? a b)).Paired p
      (ofOption (op.value? (a.rename p.move) (b.rename p.move))) p.ofValue :=
  paired_ofOption (fun _ found => BinaryOp.value?_fits second found)
    (BinaryOp.value?_rename lawful.injective op a b)

namespace Value

theorem paired_call {f : Value} {args : List Value} (site : CallSite) (callee : f.Fits p)
    (fits : Values.Fits p args) :
    (f.call args site).Paired p ((f.rename p.move).call (Values.rename p.move args) site)
      p.ofValues := by
  cases f with
  | function id =>
    have found : (read fun h => h.functions.getD id default).Paired p
        (read fun h => h.functions.getD id default) (Carried (fun c => c) (Closure.Fits p)) :=
      paired_read fun h h' alike => ⟨alike.closure id, by rw [alike.functions]⟩
    exact found.bind fun c closure => paired_closure site closure fits
  | native n => exact paired_native lawful site callee fits
  | _ => exact paired_invalid

theorem paired_rawIndex {id : TableId} (mirrored : p.Mirrored id) (k : Value) :
    (rawIndex id k).Paired p (rawIndex (p.move id) (k.rename p.move)) p.ofValue := by
  unfold rawIndex
  rw [toKey?_rename]
  cases k.toKey? with
  | none => exact paired_pure_plain trivial
  | some key => exact paired_read fun h h' alike => alike.rawGet lawful id mirrored

omit lawful in
theorem paired_handler {id : TableId} (mirrored : p.Mirrored id)
    {which : Handlers → Option Native}
    (held : ∀ {h : Handlers}, h.Fits p → ∀ n, which h = some n → n.Fits p)
    (moved : ∀ h : Handlers, which (h.rename p.move) = (which h).map (Native.rename p.move)) :
    (read fun h => which (h.handlers id)).Paired p
      (read fun h => which (h.handlers (p.move id)))
      (Carried (Option.map (Native.rename p.move)) fun found =>
        ∀ n, found = some n → n.Fits p) :=
  paired_read fun h h' alike => by
    obtain ⟨fits, same⟩ := alike.handlers id mirrored
    exact ⟨held fits, by rw [same, moved]⟩

omit lawful in
theorem paired_firstOf {r r' : Routine (List Value)} (paired : r.Paired p r' p.ofValues) :
    (do return firstOf (← r)).Paired p (do return firstOf (← r')) p.ofValue :=
  paired.bind fun vs fits => paired_pure ⟨fits.firstOf, firstOf_rename vs⟩

theorem paired_index {o k : Value} (site : CallSite) (object : o.Fits p) (key : k.Fits p) :
    (o.index k site).Paired p ((o.rename p.move).index (k.rename p.move) site) p.ofValue := by
  cases o with
  | table id =>
    by_cases mirrored : p.Mirrored id
    · refine (paired_rawIndex lawful mirrored k).bind fun v value => ?_
      refine paired_ite (by rw [isNil_rename]) ?_ (paired_pure ⟨value, rfl⟩)
      refine (paired_handler mirrored Handlers.Fits.index fun _ => rfl).bind fun found callee => ?_
      cases found with
      | none => exact paired_pure_plain trivial
      | some f =>
        have args : Values.Fits p [.table id, k] := by simpa using And.intro object key
        exact paired_firstOf (paired_native lawful site.inside (callee f rfl) args)
    · exact lawful.index id k site object mirrored key
  | string s =>
    have methods : (read Heap.stringMethods).Paired p (read Heap.stringMethods)
        (Carried p.move p.Mirrored) :=
      paired_read fun h h' alike => alike.stringMethods
    exact methods.bind fun id mirrored => paired_rawIndex lawful mirrored k
  | _ => exact paired_invalid

theorem paired_rawSetIndex {id : TableId} (mirrored : p.Mirrored id) (shows : p.Shows id)
    {k v : Value} (key : k.Fits p) (value : v.Fits p) :
    (rawSetIndex id k v).Paired p
      (rawSetIndex (p.move id) (k.rename p.move) (v.rename p.move)) Eq := by
  unfold rawSetIndex
  rw [toKey?_rename]
  cases found : k.toKey? with
  | none => exact paired_invalid
  | some entry =>
    refine paired_update fun h h' alike => alike.modifyTable lawful mirrored shows ?_ ?_
    · exact fun t fits => fits.set (key.toKey? found) value
    · exact fun t => Table.set_rename lawful.injective t entry v

theorem paired_setIndex {o k v : Value} (site : CallSite) (object : o.Fits p) (key : k.Fits p)
    (value : v.Fits p) :
    (o.setIndex k v site).Paired p
      ((o.rename p.move).setIndex (k.rename p.move) (v.rename p.move) site) Eq := by
  cases o with
  | table id =>
    by_cases mirrored : p.Mirrored id
    · have direct := paired_rawSetIndex lawful mirrored object key value
      refine (paired_rawIndex lawful mirrored k).bind fun old _ => ?_
      refine (paired_handler mirrored Handlers.Fits.newIndex fun _ => rfl).bind
        fun found callee => ?_
      cases found with
      | none => exact direct
      | some f =>
        refine paired_ite (by rw [isNil_rename]) ?_ direct
        have args : Values.Fits p [.table id, k, v] := by simpa using ⟨object, key, value⟩
        exact (paired_native lawful site.inside (callee f rfl) args).discard
    · exact lawful.setIndex id k v site object mirrored key value
  | _ => exact paired_invalid

theorem paired_length {o : Value} (site : CallSite) (object : o.Fits p) :
    (o.length site).Paired p ((o.rename p.move).length site) p.ofValue := by
  cases o with
  | string s => exact paired_pure_plain trivial
  | table id =>
    by_cases mirrored : p.Mirrored id
    · refine (paired_handler mirrored Handlers.Fits.length fun _ => rfl).bind
        fun found callee => ?_
      cases found with
      | none =>
        have size : (read fun h => (h.tables.getD id .empty).length).Paired p
            (read fun h => (h.tables.getD (p.move id) .empty).length) Eq :=
          paired_read fun h h' alike => by
            rw [(alike.table id mirrored).2, Table.length_rename lawful.injective]
        exact size.next fun n => paired_pure_plain trivial
      | some f =>
        have args : Values.Fits p [.table id] := by simpa using object
        exact paired_firstOf (paired_native lawful site.inside (callee f rfl) args)
    · exact lawful.length id site object mirrored
  | _ => exact paired_invalid

end Value

theorem UnaryOp.paired_apply (op : UnaryOp) {v : Value} (site : CallSite) (operand : v.Fits p) :
    (op.apply v site).Paired p (op.apply (v.rename p.move) site) p.ofValue := by
  cases op with
  | not =>
    simp only [UnaryOp.apply, Value.truth_rename]
    exact paired_pure_plain trivial
  | negate =>
    have same : (v.rename p.move).negate? = v.negate? := by simp [Value.negate?]
    simp only [UnaryOp.apply, same]
    exact paired_plain fun _ found => Value.negate?_plain found
  | complement =>
    have same : (v.rename p.move).complement? = v.complement? := by simp [Value.complement?]
    simp only [UnaryOp.apply, same]
    exact paired_plain fun _ found => Value.complement?_plain found
  | length => exact Value.paired_length lawful site operand

namespace Library

theorem paired_item {t : Value} (fits : t.Fits p) (i : Int64) :
    (item t i).Paired p (item (t.rename p.move) i) p.ofValue :=
  Value.paired_index lawful .native fits (int_fits i)

theorem paired_setItem {t v : Value} (fits : t.Fits p) (i : Int64) (value : v.Fits p) :
    (setItem t i v).Paired p (setItem (t.rename p.move) i (v.rename p.move)) Eq :=
  Value.paired_setIndex lawful .native fits (int_fits i) value

theorem paired_lengthOf {t : Value} (fits : t.Fits p) :
    (lengthOf t).Paired p (lengthOf (t.rename p.move)) Eq :=
  (Value.paired_length lawful .native fits).bind fun _ _ => paired_sameOption (by simp)

theorem paired_itemsFrom {t : Value} (fits : t.Fits p) (count : Nat) (i : Int64)
    {done : List Value} (before : Values.Fits p done) :
    (itemsFrom t count i done).Paired p
      (itemsFrom (t.rename p.move) count i (Values.rename p.move done)) p.ofValues := by
  induction count generalizing i done with
  | zero => exact paired_pure ⟨before.reverse, (List.map_reverse ..).symm⟩
  | succ count ih =>
    refine paired_pause.next fun _ => (paired_item lawful fits i).bind fun v value => ?_
    exact ih (i + 1) ((values_cons_fit v done).2 ⟨value, before⟩)

end Library

end

end CallGuard.Lua
