import CallGuard.Lua.Library
import CallGuard.Proofs.Lua.Plain
import Mathlib.Logic.Function.Basic

set_option autoImplicit false

namespace CallGuard.Lua

open Routine

theorem Bytes.beq_iff (a b : Bytes) : (a == b) = true ↔ a = b := by
  show (a.data == b.data) = true ↔ _
  rw [beq_iff_eq, ByteArray.ext_iff]

def Key.named (name : String) : Key := .string (.ofText name)

theorem Key.named_injective : Function.Injective Key.named := fun _ _ same =>
  String.toByteArray_inj.1 (Key.string.inj same)

def Heap.found (h : Heap) (id : TableId) (k : Value) : Value :=
  match k.toKey? with
  | some key => h.rawGet id key
  | none => .nil

theorem Heap.found_eq {h : Heap} {id : TableId} {t : Table} {k : Value} {key : Key}
    (table : h.tables[id]? = some t) (isKey : k.toKey? = some key) :
    h.found id k = t.get key := by
  rw [Heap.found, isKey]
  exact Heap.rawGet_eq table key

namespace Value

variable {h : Heap} {id : TableId} {k : Value} {site : CallSite} {K : Value → Heap → Turn}

theorem rawIndex_apply (h : Heap) (id : TableId) (k : Value) (K : Value → Heap → Turn) :
    rawIndex id k K h = K (h.found id k) h := by
  unfold rawIndex Heap.found
  cases k.toKey? <;> rfl

theorem index_apply (h : Heap) (id : TableId) (k : Value) (site : CallSite)
    (K : Value → Heap → Turn) :
    (Value.table id).index k site K h =
      if (h.found id k).isNil then
        match (h.handlers id).index with
        | none => K .nil h
        | some n => .call (.native n) [.table id, k] site.inside h fun vs g => K (firstOf vs) g
      else K (h.found id k) h := by
  show rawIndex id k _ h = _
  rw [rawIndex_apply]
  cases nil : (h.found id k).isNil with
  | false =>
    simp only [nil, Bool.false_eq_true, if_false]
    rfl
  | true =>
    rw [eq_nil_of_isNil nil]
    show (match (h.handlers id).index with
      | none => (pure Value.nil : Routine Value)
      | some n => do return firstOf (← Routine.call (.native n) [.table id, k] site.inside)) K h = _
    cases (h.handlers id).index <;> rfl

theorem setIndex_apply (h : Heap) (id : TableId) (k v : Value) (site : CallSite)
    (K : Unit → Heap → Turn) :
    (Value.table id).setIndex k v site K h =
      match (h.handlers id).newIndex with
      | some n =>
        if (h.found id k).isNil then
          .call (.native n) [.table id, k, v] site.inside h fun _ g => K () g
        else rawSetIndex id k v K h
      | none => rawSetIndex id k v K h := by
  show rawIndex id k _ h = _
  rw [rawIndex_apply]
  show (match (h.handlers id).newIndex with
    | some n =>
      if (h.found id k).isNil then
        discard (Routine.call (.native n) [.table id, k, v] site.inside)
      else rawSetIndex id k v
    | none => rawSetIndex id k v : Routine Unit) K h = _
  cases (h.handlers id).newIndex with
  | none => rfl
  | some n =>
    dsimp only
    split <;> rfl

theorem length_apply (h : Heap) (id : TableId) (site : CallSite) (K : Value → Heap → Turn) :
    (Value.table id).length site K h =
      match (h.handlers id).length with
      | none => K (.int (.ofNat (h.tables.getD id .empty).length)) h
      | some n => .call (.native n) [.table id] site.inside h fun vs g => K (firstOf vs) g := by
  show (match (h.handlers id).length with
    | some n => do return firstOf (← Routine.call (.native n) [.table id] site.inside)
    | none => do
      return .int (.ofNat (← read fun h => (h.tables.getD id .empty).length))
    : Routine Value) K h = _
  cases (h.handlers id).length <;> rfl

end Value

theorem Value.index_plain {h : Heap} {id : TableId} {t : Table} {k : Value} {key : Key}
    (table : h.tables[id]? = some t) (isKey : k.toKey? = some key) (plain : t.handlers = .none)
    (site : CallSite) (K : Value → Heap → Turn) :
    (Value.table id).index k site K h = K (t.get key) h := by
  rw [Value.index_apply, Heap.found_eq table isKey, Heap.handlers_eq table, plain]
  split
  · next absent =>
    rw [eq_nil_of_isNil absent]
    rfl
  · rfl

namespace Library

def undeclared (support : Support) (n : String) : Fault :=
  if support.canReport then
    .raised (.string (.ofText "undeclared variable '" ++ (Value.text n).display ++ .ofText "'")) 1
  else .invalid

theorem lookup_apply (names : TableId) (optional : List String) (support : Support) (o : Value)
    (n : String) (h : Heap) (K : List Value → Heap → Turn) :
    perform (.lookup names optional support) [o, .text n] K h =
      if !(h.rawGet names (.named n)).isNil ||
          optional.any fun m => Bytes.ofText m == .ofText n then
        K [h.rawGet names (.named n)] h
      else .fail (undeclared support n) h := by
  show (if !(h.rawGet names (.named n)).isNil ||
      optional.any fun m => Bytes.ofText m == .ofText n then
      (pure (h.rawGet names (.named n)) : Routine Value)
    else report support "undeclared variable '" (.text n)) (fun v => K [v]) h = _
  unfold report undeclared
  split
  · rfl
  · split <;> rfl

theorem any_named (names : List String) (n : String) :
    (names.any fun m => Bytes.ofText m == .ofText n) = true ↔ n ∈ names := by
  rw [List.any_eq_true]
  constructor
  · rintro ⟨m, listed, same⟩
    exact String.toByteArray_inj.1 ((Bytes.beq_iff _ _).1 same) ▸ listed
  · exact fun listed => ⟨n, listed, (Bytes.beq_iff _ _).2 rfl⟩

end Library

end CallGuard.Lua
