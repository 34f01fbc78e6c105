import CallGuard.Lua.Library.Strings

set_option autoImplicit false

namespace CallGuard.Lua

namespace Value

def Plain : Value → Prop
  | .table _ => False
  | .native _ => False
  | _ => True

theorem eq_nil_of_isNil {v : Value} (absent : v.isNil = true) : v = .nil := by
  cases v with
  | nil => rfl
  | _ => cases absent

theorem ofNum_plain (n : Num) : (ofNum n).Plain := by cases n <;> trivial

theorem concat?_plain {a b v : Value} (found : concat? a b = some v) : v.Plain := by
  unfold concat? at found
  split at found <;> cases found
  trivial

theorem negate?_plain {a v : Value} (found : a.negate? = some v) : v.Plain := by
  unfold negate? at found
  split at found <;> cases found <;> trivial

theorem complement?_plain {a v : Value} (found : a.complement? = some v) : v.Plain := by
  obtain ⟨i, -, rfl⟩ := Option.map_eq_some_iff.1 found
  trivial

end Value

@[simp] theorem nil_plain : Value.nil.Plain := trivial

@[simp] theorem int_plain (i : Int64) : (Value.int i).Plain := trivial

@[simp] theorem float_plain (x : Float) : (Value.float x).Plain := trivial

@[simp] theorem string_plain (s : Bytes) : (Value.string s).Plain := trivial

def Values.Plain (vs : List Value) : Prop := ∀ v ∈ vs, v.Plain

@[simp] theorem no_values_plain : Values.Plain [] := by simp [Values.Plain]

@[simp] theorem values_cons_plain (v : Value) (vs : List Value) :
    Values.Plain (v :: vs) ↔ v.Plain ∧ Values.Plain vs := by
  simp [Values.Plain]

@[simp] theorem values_append_plain (vs ws : List Value) :
    Values.Plain (vs ++ ws) ↔ Values.Plain vs ∧ Values.Plain ws := by
  simp [Values.Plain, or_imp, forall_and]

theorem BinaryOp.value?_plain {op : BinaryOp} {a b v : Value} (found : op.value? a b = some v) :
    v.Plain ∨ op.value? = fun _ b => some b := by
  cases op with
  | arith op =>
    simp only [BinaryOp.value?, Value.arith?] at found
    split at found
    · obtain ⟨n, -, rfl⟩ := Option.map_eq_some_iff.1 found
      exact .inl (Value.ofNum_plain n)
    · simp at found
  | bitwise op =>
    simp only [BinaryOp.value?, Value.bitwise?] at found
    split at found <;> cases found
    exact .inl trivial
  | concat => exact .inl (Value.concat?_plain found)
  | equal => cases found; exact .inl trivial
  | notEqual => cases found; exact .inl trivial
  | and => exact .inr rfl
  | or => exact .inr rfl
  | _ =>
    obtain ⟨n, -, rfl⟩ := Option.map_eq_some_iff.1 found
    exact .inl trivial

theorem Pattern.Capture.value?_plain {subject : Bytes} {c : Capture} {v : Value}
    (found : c.value? subject = some v) : v.Plain := by
  unfold value? at found
  split at found <;> cases found <;> trivial

theorem Pattern.values?_plain {subject : Bytes} {caps : Captures} {vs : List Value}
    (found : values? subject caps = some vs) : Values.Plain vs := by
  unfold values? at found
  generalize caps.toList = cs at found
  induction cs generalizing vs with
  | nil =>
    cases found
    simp
  | cons c cs ih =>
    simp only [List.mapM_cons, Option.bind_eq_bind, Option.bind_eq_some_iff] at found
    obtain ⟨v, captured, ws, rest, same⟩ := found
    cases same
    exact (values_cons_plain v ws).2 ⟨Capture.value?_plain captured, ih rest⟩

theorem Pattern.matchValues?_plain {subject : Bytes} {start stop : Nat} {caps : Captures}
    {vs : List Value} (found : matchValues? subject start stop caps = some vs) :
    Values.Plain vs := by
  unfold matchValues? at found
  split at found
  · cases found
    simp
  · exact values?_plain found

theorem Packing.valueAt?_plain {f : Field} {data : Bytes} {pos next : Nat} {vs : List Value}
    (found : valueAt? f data pos = some (vs, next)) : Values.Plain vs := by
  simp only [valueAt?] at found
  split at found
  · cases found
  · split at found
    · obtain ⟨i, -, same⟩ := Option.map_eq_some_iff.1 found
      cases same
      simp
    · obtain ⟨i, -, same⟩ := Option.map_eq_some_iff.1 found
      cases same
      simp
    · cases found
      simp
    · cases found
      simp
    · cases found
      simp
    · simp only [Option.bind_eq_bind, Option.bind_eq_some_iff] at found
      obtain ⟨i, -, found⟩ := found
      split at found <;> cases found
      simp
    · split at found <;> cases found
      simp
    · cases found
      simp
    · cases found
      simp

theorem Packing.unpackFrom_plain {data : Bytes} {fs : List Field} {pos : Nat} {vs : List Value}
    (found : unpackFrom data fs pos = some vs) : Values.Plain vs := by
  induction fs generalizing pos vs with
  | nil =>
    cases found
    simp
  | cons f fs ih =>
    simp only [unpackFrom, Option.bind_eq_bind, Option.bind_eq_some_iff] at found
    obtain ⟨⟨ws, next⟩, head, rest, tail, same⟩ := found
    cases same
    exact (values_append_plain ws rest).2 ⟨valueAt?_plain head, ih tail⟩

theorem Packing.unpack?_plain {format data : Bytes} {start : Nat} {vs : List Value}
    (found : unpack? format data start = some vs) : Values.Plain vs := by
  unfold unpack? at found
  split at found
  · cases found
  · obtain ⟨fs, -, unpacked⟩ := Option.bind_eq_some_iff.1 found
    exact unpackFrom_plain unpacked

end CallGuard.Lua
