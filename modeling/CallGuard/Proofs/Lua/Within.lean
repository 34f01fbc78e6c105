import CallGuard.Proofs.Lua.Holding
import CallGuard.Proofs.Lua.Plain

set_option autoImplicit false

namespace CallGuard.Lua

variable {P Q : TableId → Prop}

def Native.Within (P : TableId → Prop) : Native → Prop
  | .viewStep _ view _ => P view
  | _ => True

def Value.Within (P : TableId → Prop) : Value → Prop
  | .table id => P id
  | .native n => n.Within P
  | _ => True

def Values.Within (P : TableId → Prop) (vs : List Value) : Prop := ∀ v ∈ vs, v.Within P

theorem Native.Within.mono {n : Native} (within : n.Within P) (wider : ∀ id, P id → Q id) :
    n.Within Q := by
  cases n <;> first | exact wider _ within | trivial

theorem Value.Within.mono {v : Value} (within : v.Within P) (wider : ∀ id, P id → Q id) :
    v.Within Q := by
  cases v with
  | table id => exact wider id within
  | native n => exact Native.Within.mono within wider
  | _ => trivial

@[simp] theorem nil_within : Value.nil.Within P := trivial

@[simp] theorem bool_within (b : Bool) : (Value.bool b).Within P := trivial

@[simp] theorem int_within (i : Int64) : (Value.int i).Within P := trivial

@[simp] theorem float_within (x : Float) : (Value.float x).Within P := trivial

@[simp] theorem string_within (s : Bytes) : (Value.string s).Within P := trivial

@[simp] theorem text_within (s : String) : (Value.text s).Within P := trivial

@[simp] theorem function_within (id : FunctionId) : (Value.function id).Within P := trivial

@[simp] theorem table_within (id : TableId) : (Value.table id).Within P ↔ P id := Iff.rfl

@[simp] theorem native_within (n : Native) : (Value.native n).Within P ↔ n.Within P := Iff.rfl

@[simp] theorem no_values_within : Values.Within P [] := by simp [Values.Within]

@[simp] theorem values_cons_within (v : Value) (vs : List Value) :
    Values.Within P (v :: vs) ↔ v.Within P ∧ Values.Within P vs := by
  simp [Values.Within]

@[simp] theorem values_append_within (vs ws : List Value) :
    Values.Within P (vs ++ ws) ↔ Values.Within P vs ∧ Values.Within P ws := by
  simp [Values.Within, or_imp, forall_and]

theorem Value.Plain.within {v : Value} (plain : v.Plain) : v.Within P := by
  cases v with
  | table id => exact plain.elim
  | native n => exact plain.elim
  | _ => trivial

theorem Values.Plain.within {vs : List Value} (plain : Values.Plain vs) : Values.Within P vs :=
  fun v member => (plain v member).within

namespace Values.Within

variable {vs : List Value}

theorem sublist (within : Values.Within P vs) {ws : List Value} (part : ∀ v ∈ ws, v ∈ vs) :
    Values.Within P ws :=
  fun v member => within v (part v member)

theorem drop (within : Values.Within P vs) (n : Nat) : Values.Within P (vs.drop n) :=
  within.sublist fun _ member => List.mem_of_mem_drop member

theorem take (within : Values.Within P vs) (n : Nat) : Values.Within P (vs.take n) :=
  within.sublist fun _ member => List.mem_of_mem_take member

theorem tail (within : Values.Within P vs) : Values.Within P vs.tail :=
  within.sublist fun _ member => List.mem_of_mem_tail member

theorem reverse (within : Values.Within P vs) : Values.Within P vs.reverse :=
  within.sublist fun _ member => List.mem_reverse.1 member

theorem firstOf (within : Values.Within P vs) : (firstOf vs).Within P := by
  cases vs with
  | nil => trivial
  | cons v rest => exact within v List.mem_cons_self

theorem getElem? (within : Values.Within P vs) {n : Nat} {v : Value} (found : vs[n]? = some v) :
    v.Within P :=
  within v (List.mem_of_getElem? found)

theorem adjust (within : Values.Within P vs) (n : Nat) :
    Values.Within P (Lua.adjust n vs) := by
  induction n generalizing vs with
  | zero => simp [Lua.adjust]
  | succ n ih =>
    cases vs with
    | nil => simpa [Lua.adjust] using ih within
    | cons v rest =>
      rw [values_cons_within] at within
      simpa [Lua.adjust] using And.intro within.1 (ih within.2)

end Values.Within

abbrev Key.Within (P : TableId → Prop) (k : Key) : Prop := k.toValue.Within P

theorem Value.Within.toKey? {v : Value} (within : v.Within P) {k : Key} (key : v.toKey? = some k) :
    k.Within P := by
  cases v with
  | nil => simp [Value.toKey?] at key
  | float x =>
    simp only [Value.toKey?] at key
    split at key
    · simp at key
    · split at key <;> (cases key; trivial)
  | _ =>
    cases key
    exact within

structure Handlers.Within (P : TableId → Prop) (h : Handlers) : Prop where
  index : ∀ n, h.index = some n → n.Within P
  newIndex : ∀ n, h.newIndex = some n → n.Within P
  length : ∀ n, h.length = some n → n.Within P
  pairs : ∀ n, h.pairs = some n → n.Within P

structure Table.Within (P : TableId → Prop) (t : Table) : Prop where
  items : ∀ v ∈ t.items, v.Within P
  nodes : ∀ n ∈ t.nodes, n.1.Within P ∧ n.2.Within P
  handlers : t.handlers.Within P

theorem Handlers.Within.mono {h : Handlers} (within : h.Within P) (wider : ∀ id, P id → Q id) :
    h.Within Q where
  index n is := (within.index n is).mono wider
  newIndex n is := (within.newIndex n is).mono wider
  length n is := (within.length n is).mono wider
  pairs n is := (within.pairs n is).mono wider

theorem no_handlers_within : Handlers.none.Within P := by
  constructor <;> simp [Handlers.none]

namespace Table

theorem empty_within : Table.empty.Within P :=
  ⟨by simp [empty], by simp [empty], no_handlers_within⟩

theorem ofSizes_within (items others : Nat) : (ofSizes items others).Within P :=
  ⟨by simp [ofSizes], by simp [ofSizes], no_handlers_within⟩

theorem view_within (source : TableId) (support : Support) : (view source support).Within P := by
  refine ⟨by simp [view], by simp [view], ?_⟩
  constructor <;> (intro n is; cases is; trivial)

@[simp] theorem view_get (source : TableId) (support : Support) (k : Key) :
    (view source support).get k = .nil := by
  have slot : (view source support).slot? k = none := by
    cases k with
    | int i =>
      have outside : ¬ (1 ≤ i.toInt ∧ i.toInt ≤ (0 : Nat)) := by omega
      simp only [slot?, view, Array.size_empty, outside, if_false]
    | _ => rfl
  unfold get
  rw [slot]
  rfl

theorem admits_within : Value.Admits (Value.Within P) := ⟨nil_within, int_within⟩

theorem Holds.within {t : Table} (holds : t.Holds (Value.Within P))
    (handlers : t.handlers.Within P) : t.Within P :=
  ⟨holds.items, holds.nodes, handlers⟩

namespace Within

variable {t : Table} (within : t.Within P)

include within

theorem holds : t.Holds (Value.Within P) := ⟨within.items, within.nodes⟩

theorem mono (wider : ∀ id, P id → Q id) : t.Within Q :=
  (within.holds.mono fun _ value => value.mono wider).within (within.handlers.mono wider)

theorem get (k : Key) : (t.get k).Within P := within.holds.get nil_within k

theorem set {k : Key} {v : Value} (key : k.Within P) (value : v.Within P) :
    (t.set k v).Within P :=
  (within.holds.set admits_within key value).within (set_handlers t k v ▸ within.handlers)

theorem setInt (i : Int64) {v : Value} (value : v.Within P) : (t.setInt i v).Within P :=
  within.set trivial value

theorem setText (name : String) {v : Value} (value : v.Within P) : (t.setText name v).Within P :=
  within.set trivial value

theorem reserve (size : Nat) : (t.reserve size).Within P :=
  (within.holds.reserve admits_within size).within (reserve_handlers t size ▸ within.handlers)

theorem next? {key : Option Key} {k : Key} {v : Value} (found : t.next? key = some (some (k, v))) :
    k.Within P ∧ v.Within P :=
  within.holds.next? admits_within found

theorem setAll {vs : List Value} (values : Values.Within P vs) (start : Nat) :
    Table.Within P
      (vs.foldl (fun (t, i) v => (Table.setInt t (.ofNat i) v, i + 1)) (t, start)).1 :=
  (within.holds.setAll admits_within values start).within
    (setAll_handlers t vs start ▸ within.handlers)

end Within

end Table

end CallGuard.Lua
