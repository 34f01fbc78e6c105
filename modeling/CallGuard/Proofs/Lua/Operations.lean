import CallGuard.Proofs.Lua.Contained

set_option autoImplicit false

namespace CallGuard.Lua

open Routine

variable {base : Heap}

namespace Value

theorem ensures_call {f : Value} {args : List Value} (site : CallSite)
    (callee : f.Within base.Shows) (within : Values.Within base.Shows args) :
    (f.call args site).Ensures base (Values.Within base.Shows) := by
  cases f with
  | function id =>
    exact (safe_read _).bind fun c _ => Routine.ensures_call site trivial within
  | native n => exact Routine.ensures_call site callee within
  | _ => exact ensures_invalid

theorem ensures_rawIndex (id : TableId) (k : Value) :
    (rawIndex id k).Ensures base (Value.Within base.Shows) := by
  unfold rawIndex
  split
  · exact ensures_read fun h ext => ext.within.rawGet id _
  · exact ensures_pure nil_within

theorem ensures_handler (id : TableId) {which : Handlers → Option Native}
    (held : ∀ {h}, Handlers.Within base.Shows h → ∀ n, which h = some n → n.Within base.Shows) :
    (read fun h => which (h.handlers id)).Ensures base
      fun found => ∀ n, found = some n → n.Within base.Shows :=
  ensures_read fun _ ext => held (ext.within.handlers id)

theorem ensures_index {o k : Value} (site : CallSite) (object : o.Within base.Shows)
    (key : k.Within base.Shows) : (o.index k site).Ensures base (Value.Within base.Shows) := by
  cases o with
  | table id =>
    refine (ensures_rawIndex id k).bind fun v value => ?_
    split
    · refine (ensures_handler id Handlers.Within.index).bind fun found callee => ?_
      cases found with
      | none => exact ensures_pure nil_within
      | some f =>
        refine (ensures_callNative site.inside (callee f rfl) ?_).bind fun vs results =>
          ensures_pure results.firstOf
        simpa using And.intro object key
    · exact ensures_pure value
  | string s => exact (safe_read _).bind fun id _ => ensures_rawIndex id k
  | _ => exact ensures_invalid

theorem safe_rawSetIndex {id : TableId} (fresh : base.tables.size ≤ id) {k v : Value}
    (key : k.Within base.Shows) (value : v.Within base.Shows) :
    (rawSetIndex id k v).Safe base := by
  unfold rawSetIndex
  split
  · next found => exact safe_update fun h ext => ext.rawSet fresh (key.toKey? found) value
  · exact ensures_invalid

theorem ensures_rawIndex_view {id : TableId} (view : base.IsView id) (k : Value) :
    (rawIndex id k).Ensures base fun v => v = .nil := by
  unfold rawIndex
  split
  · exact ensures_read fun h ext => (ext.isView view).rawGet _
  · exact ensures_pure rfl

theorem safe_setIndex_view {id : TableId} (view : base.IsView id) {k v : Value} (site : CallSite)
    (key : k.Within base.Shows) (value : v.Within base.Shows) :
    ((Value.table id).setIndex k v site).Safe base := by
  have handler : (read fun h => (h.handlers id).newIndex).Ensures base
      fun found => ∃ support, found = some (.viewNewIndex support) :=
    ensures_read fun h ext => (ext.isView view).newIndex
  refine (ensures_rawIndex_view view k).bind fun old absent => handler.bind fun found refuses => ?_
  obtain ⟨support, rfl⟩ := refuses
  subst absent
  have callee : (Native.viewNewIndex support).Within base.Shows := trivial
  -- the handler is asked, since the key is absent
  refine (ensures_callNative site.inside callee ?_).discard
  simpa using ⟨Or.inr view, key, value⟩

theorem safe_setIndex {o k v : Value} (site : CallSite) (object : o.Within base.Shows)
    (key : k.Within base.Shows) (value : v.Within base.Shows) :
    (o.setIndex k v site).Safe base := by
  cases o with
  | table id =>
    rcases object with fresh | view
    · have direct := safe_rawSetIndex fresh key value
      refine (ensures_rawIndex id k).bind fun old _ => ?_
      refine (ensures_handler id Handlers.Within.newIndex).bind fun found callee => ?_
      cases found with
      | none => exact direct
      | some f =>
        by_cases absent : old.isNil
        · simp only [absent, if_true]
          refine (ensures_callNative site.inside (callee f rfl) ?_).discard
          simpa using ⟨Or.inl fresh, key, value⟩
        · simpa [absent] using direct
    · exact safe_setIndex_view view site key value
  | _ => exact ensures_invalid

theorem ensures_length {o : Value} (site : CallSite) (object : o.Within base.Shows) :
    (o.length site).Ensures base (Value.Within base.Shows) := by
  cases o with
  | string s => exact ensures_pure trivial
  | table id =>
    refine (ensures_handler id Handlers.Within.length).bind fun found callee => ?_
    cases found with
    | none => exact (safe_read _).bind fun n _ => ensures_pure trivial
    | some f =>
      refine (ensures_callNative site.inside (callee f rfl) ?_).bind fun vs results =>
        ensures_pure results.firstOf
      simpa using object
  | _ => exact ensures_invalid

end Value

theorem UnaryOp.ensures_apply (op : UnaryOp) {v : Value} (site : CallSite)
    (operand : v.Within base.Shows) : (op.apply v site).Ensures base (Value.Within base.Shows) := by
  cases op with
  | not => exact ensures_pure trivial
  | negate => exact ensures_ofOption fun _ found => (Value.negate?_plain found).within
  | complement => exact ensures_ofOption fun _ found => (Value.complement?_plain found).within
  | length => exact Value.ensures_length site operand

theorem BinaryOp.value?_within {P : TableId → Prop} {op : BinaryOp} {a b v : Value}
    (second : b.Within P) (found : op.value? a b = some v) : v.Within P := by
  rcases BinaryOp.value?_plain found with plain | same
  · exact plain.within
  · rw [same] at found
    cases found
    exact second

namespace Library

variable {vs : Args}

namespace Args

theorem value_within {P : TableId → Prop} (within : Values.Within P vs) (n : Nat) :
    (value vs n).Within P := by
  unfold value get?
  cases found : (vs : List Value)[n - 1]? with
  | none => trivial
  | some v => exact within.getElem? found

theorem ensures_present (within : Values.Within base.Shows vs) (n : Nat) :
    (present vs n).Ensures base (Value.Within base.Shows) :=
  ensures_ofOption fun _ found => within.getElem? found

theorem safe_int (vs : Args) (n : Nat) : (int vs n).Safe base := safe_ofOption _

theorem safe_intOr (vs : Args) (n : Nat) (default : Int64) : (intOr vs n default).Safe base := by
  unfold intOr
  split
  · exact ensures_pure trivial
  · exact safe_int vs n

theorem safe_float (vs : Args) (n : Nat) : (float vs n).Safe base := safe_ofOption _

theorem safe_bytes (vs : Args) (n : Nat) : (bytes vs n).Safe base := safe_ofOption _

theorem safe_bytesOr (vs : Args) (n : Nat) (default : Bytes) :
    (bytesOr vs n default).Safe base := by
  unfold bytesOr
  split
  · exact ensures_pure trivial
  · exact safe_bytes vs n

theorem ensures_table (within : Values.Within base.Shows vs) (n : Nat) :
    (table vs n).Ensures base (Value.Within base.Shows) := by
  have argument := value_within within n
  unfold table
  split
  · next id is => exact ensures_pure (is ▸ argument)
  · exact ensures_invalid

end Args

theorem ensures_item {t : Value} (within : t.Within base.Shows) (i : Int64) :
    (item t i).Ensures base (Value.Within base.Shows) :=
  Value.ensures_index .native within trivial

theorem safe_setItem {t v : Value} (within : t.Within base.Shows) (i : Int64)
    (value : v.Within base.Shows) : (setItem t i v).Safe base :=
  Value.safe_setIndex .native within trivial value

theorem safe_lengthOf {t : Value} (within : t.Within base.Shows) : (lengthOf t).Safe base :=
  (Value.ensures_length .native within).bind fun _ _ => safe_ofOption _

theorem ensures_itemsFrom {t : Value} (within : t.Within base.Shows) (count : Nat) (i : Int64)
    {done : List Value} (before : Values.Within base.Shows done) :
    (itemsFrom t count i done).Ensures base (Values.Within base.Shows) := by
  induction count generalizing i done with
  | zero => exact ensures_pure before.reverse
  | succ count ih =>
    refine safe_pause.bind fun _ _ => (ensures_item within i).bind fun v value => ih (i + 1) ?_
    simpa using And.intro value before

end Library

end CallGuard.Lua
