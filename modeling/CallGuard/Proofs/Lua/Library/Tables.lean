import CallGuard.Proofs.Lua.Operations

set_option autoImplicit false

namespace CallGuard.Lua.Library

open Routine

variable {base : Heap} {vs : Args}

theorem ensures_measured (within : Values.Within base.Shows vs) :
    (measured vs).Ensures base fun m => m.1.Within base.Shows :=
  (Args.ensures_table within 1).bind fun _ table =>
    (safe_lengthOf table).bind fun _ _ => ensures_pure table

theorem safe_joinFrom {t : Value} (list : t.Within base.Shows) (sep : Bytes) (count : Nat)
    (i : Int64) (done : Bytes) : (joinFrom t sep count i done).Safe base := by
  induction count, i, done using joinFrom.induct sep with
  | case1 => exact ensures_pure trivial
  | case2 => exact ((ensures_item list _).bind fun _ _ =>
      (safe_ofOption _).bind fun _ _ => ensures_pure trivial)
  | case3 count i done more ih =>
    rw [joinFrom.eq_3 _ _ _ _ _ more]
    exact safe_pause.bind fun _ _ => (ensures_item list i).bind fun _ _ =>
      (safe_ofOption _).bind fun s _ => ih s

theorem ensures_join (within : Values.Within base.Shows vs) :
    (join vs).Ensures base (Value.Within base.Shows) :=
  (ensures_measured within).bind fun (_, size) table =>
    (Args.safe_bytesOr vs 2 _).bind fun sep _ => (Args.safe_intOr vs 3 1).bind fun i _ =>
      (Args.safe_intOr vs 4 size).bind fun _ _ =>
        (safe_joinFrom table sep _ i _).bind fun _ _ => ensures_pure trivial

theorem safe_copyUp {source target : Value} (readFrom : source.Within base.Shows)
    (writtenTo : target.Within base.Shows) (start place : Int64) (count : Nat) (i : Int64) :
    (copyUp source start target place count i).Safe base := by
  induction count generalizing i with
  | zero => exact ensures_pure trivial
  | succ count ih =>
    exact safe_pause.bind fun _ _ => (ensures_item readFrom _).bind fun _ value =>
      (safe_setItem writtenTo _ value).bind fun _ _ => ih (i + 1)

theorem safe_copyDown {source target : Value} (readFrom : source.Within base.Shows)
    (writtenTo : target.Within base.Shows) (start place : Int64) (count : Nat) :
    (copyDown source start target place count).Safe base := by
  induction count with
  | zero => exact ensures_pure trivial
  | succ count ih =>
    exact safe_pause.bind fun _ _ => (ensures_item readFrom _).bind fun _ value =>
      (safe_setItem writtenTo _ value).bind fun _ _ => ih

theorem safe_insertItem (within : Values.Within base.Shows vs) : (insertItem vs).Safe base := by
  refine (ensures_measured within).bind fun (t, size) table => ?_
  dsimp only at table ⊢
  split
  · next v =>
    have value : v.Within base.Shows := within v (by simp)
    exact safe_setItem table _ value
  · next v =>
    have value : v.Within base.Shows := within v (by simp)
    refine (Args.safe_int _ 2).bind fun pos _ => ensures_unless ?_
    exact (safe_copyDown table table _ _ _).bind fun _ _ => safe_setItem table pos value
  · exact ensures_invalid

theorem ensures_removeItem (within : Values.Within base.Shows vs) :
    (removeItem vs).Ensures base (Value.Within base.Shows) := by
  refine (ensures_measured within).bind fun (t, size) table => ?_
  refine (Args.safe_intOr vs 2 size).bind fun pos _ => ensures_unless ?_
  refine (ensures_item table pos).bind fun v value => ?_
  exact (safe_copyUp table table _ _ _ _).bind fun _ _ =>
    (safe_setItem table _ nil_within).bind fun _ _ => ensures_pure value

theorem ensures_moveItems (within : Values.Within base.Shows vs) :
    (moveItems vs).Ensures base (Value.Within base.Shows) := by
  have source := Args.value_within within 1
  refine (Args.safe_int vs 2).bind fun first _ => (Args.safe_int vs 3).bind fun last _ =>
    (Args.safe_int vs 4).bind fun place _ => ensures_unless ?_
  refine (Args.ensures_table within _).bind fun target table => ?_
  dsimp only
  split
  · refine ensures_unless (ensures_unless ?_)
    split
    · exact (safe_copyUp source table _ _ _ _).bind fun _ _ => ensures_pure table
    · exact (safe_copyDown source table _ _ _).bind fun _ _ => ensures_pure table
  · exact ensures_pure table

theorem ensures_packItems (within : Values.Within base.Shows vs) :
    (packItems vs).Ensures base (Value.Within base.Shows) := by
  have made : (alloc fun h => h.newTable (.ofSizes vs.length 1)).Ensures base
      fun id => base.tables.size ≤ id :=
    ensures_alloc fun h ext => ⟨ext.size, ext.newTable (Table.ofSizes_within _ _)⟩
  refine made.bind fun id fresh => Ensures.bind (safe_update fun h ext => ?_) fun _ _ =>
    ensures_pure (Or.inl fresh)
  exact ext.modifyTable fresh fun t table => (table.setAll within 1).setText "n" trivial

theorem ensures_unpackItems (within : Values.Within base.Shows vs) :
    (unpackItems vs).Ensures base (Values.Within base.Shows) := by
  have list := Args.value_within within 1
  have items : ∀ i last : Int64, Ensures base
      (if resultLimit < spanCount i last then invalid >>= fun _ : PUnit =>
          itemsFrom (Args.value vs 1) (spanCount i last) i []
        else itemsFrom (Args.value vs 1) (spanCount i last) i []) (Values.Within base.Shows) :=
    fun i last => ensures_unless (ensures_itemsFrom list _ i no_values_within)
  refine (Args.safe_intOr vs 2 1).bind fun i _ => ?_
  dsimp only
  split
  · exact (safe_lengthOf list).bind fun last _ => items i last
  · exact (Args.safe_int vs 3).bind fun last _ => items i last

theorem safe_precedes {order a b : Value} (function : order.Within base.Shows)
    (first : a.Within base.Shows) (second : b.Within base.Shows) :
    (precedes order a b).Safe base := by
  refine safe_pause.bind fun _ _ => ?_
  split
  · exact safe_ofOption _
  · refine (Value.ensures_call .native function ?_).bind fun _ _ => ensures_pure trivial
    simpa using And.intro first second

namespace Sorting

def Within (P : TableId → Prop) (s : Sorting) : Prop := s.table.Within P ∧ s.order.Within P

variable {s : Sorting} (sorting : s.Within base.Shows)

include sorting

theorem ensures_get (i : Nat) : (s.get i).Ensures base (Value.Within base.Shows) :=
  ensures_item sorting.1 _

theorem safe_set (i : Nat) {v : Value} (value : v.Within base.Shows) : (s.set i v).Safe base :=
  safe_setItem sorting.1 _ value

theorem safe_precedes {a b : Value} (first : a.Within base.Shows) (second : b.Within base.Shows) :
    (precedes s.order a b).Safe base :=
  Library.safe_precedes sorting.2 first second

theorem ensures_climb {pivot : Value} (value : pivot.Within base.Shows) (stop fuel i : Nat) :
    (s.climb pivot stop fuel i).Ensures base fun found => found.2.Within base.Shows := by
  induction fuel generalizing i with
  | zero => exact ensures_invalid
  | succ fuel ih =>
    refine (ensures_get sorting _).bind fun v item => ?_
    refine (safe_precedes sorting item value).bind fun below _ => ?_
    split
    · exact ensures_unless (ih (i + 1))
    · exact ensures_pure item

theorem ensures_descend {pivot : Value} (value : pivot.Within base.Shows) (start fuel j : Nat) :
    (s.descend pivot start fuel j).Ensures base fun found => found.2.Within base.Shows := by
  induction fuel generalizing j with
  | zero => exact ensures_invalid
  | succ fuel ih =>
    refine (ensures_get sorting _).bind fun v item => ?_
    refine (safe_precedes sorting value item).bind fun above _ => ?_
    split
    · exact ensures_unless (ih (j - 1))
    · exact ensures_pure item

theorem safe_partition {pivot : Value} (value : pivot.Within base.Shows) (up fuel i j : Nat) :
    (s.partition pivot up fuel i j).Safe base := by
  induction fuel generalizing i j with
  | zero => exact ensures_invalid
  | succ fuel ih =>
    refine (ensures_climb sorting value _ _ _).bind fun (i, a) item => ?_
    refine (ensures_descend sorting value _ _ _).bind fun (j, b) other => ?_
    dsimp only at item other ⊢
    split
    · exact (safe_set sorting _ item).bind fun _ _ => (safe_set sorting _ value).bind fun _ _ =>
        ensures_pure trivial
    · exact (safe_set sorting _ other).bind fun _ _ => (safe_set sorting _ item).bind fun _ _ =>
        ih i j

theorem safe_exchange (i j : Nat) {a b : Value} (first : a.Within base.Shows)
    (second : b.Within base.Shows) : (do s.set i a; s.set j b : Routine Unit).Safe base :=
  (safe_set sorting i first).bind fun _ _ => safe_set sorting j second

theorem safe_exchangeIf {c : Prop} [Decidable c] (i j : Nat) {a b : Value}
    (first : a.Within base.Shows) (second : b.Within base.Shows) {r : Routine Unit}
    (rest : r.Safe base) : (if c then do s.set i a; s.set j b; r else r).Safe base := by
  split
  · exact (safe_set sorting i first).bind fun _ _ =>
      (safe_set sorting j second).bind fun _ _ => rest
  · exact rest

theorem safe_orderThree (lo middle up : Nat) : (s.orderThree lo middle up).Safe base := by
  refine (ensures_get sorting middle).bind fun p pivot => ?_
  refine (ensures_get sorting lo).bind fun a first => ?_
  refine (safe_precedes sorting pivot first).bind fun before _ => ?_
  split
  · exact safe_exchange sorting middle lo first pivot
  · refine (ensures_get sorting up).bind fun b last => ?_
    refine (safe_precedes sorting last pivot).bind fun after _ => ?_
    split
    · exact safe_exchange sorting middle up last pivot
    · exact ensures_pure trivial

theorem safe_sortRange (fuel lo up : Nat) : (s.sortRange fuel lo up).Safe base := by
  induction fuel generalizing lo up with
  | zero => exact ensures_pure trivial
  | succ fuel ih =>
    unfold sortRange
    dsimp only
    split
    · exact ensures_pure trivial
    · refine (ensures_get sorting lo).bind fun a first => ?_
      refine (ensures_get sorting up).bind fun b last => ?_
      refine (safe_precedes sorting last first).bind fun swapped _ => ?_
      refine safe_exchangeIf sorting lo up last first ?_
      split
      · exact ensures_pure trivial
      · refine (safe_orderThree sorting lo _ up).bind fun _ _ => ?_
        split
        · exact ensures_pure trivial
        · refine (ensures_get sorting _).bind fun pivot value => ?_
          refine (ensures_get sorting _).bind fun b last => ?_
          refine (safe_set sorting _ last).bind fun _ _ => ?_
          refine (safe_set sorting _ value).bind fun _ _ => ?_
          refine (safe_partition sorting value _ _ _ _).bind fun p _ => ?_
          split <;> exact (ih _ _).bind fun _ _ => ih _ _

end Sorting

theorem safe_sortItems (within : Values.Within base.Shows vs) : (sortItems vs).Safe base := by
  refine (ensures_measured within).bind fun (t, size) table => ?_
  dsimp only
  split
  · refine ensures_unless (ensures_unless ?_)
    exact Sorting.safe_sortRange ⟨table, Args.value_within within 2⟩ _ _ _
  · exact ensures_pure trivial

theorem ensures_table (f : TableFunction) (within : Values.Within base.Shows vs) :
    (Library.table f vs).Ensures base (Values.Within base.Shows) := by
  cases f with
  | concat => exact (ensures_join within).bind fun v value => ensures_pure (by simpa using value)
  | insert => exact (safe_insertItem within).bind fun _ _ => ensures_pure no_values_within
  | move => exact (ensures_moveItems within).bind fun v value => ensures_pure (by simpa using value)
  | pack => exact (ensures_packItems within).bind fun v value => ensures_pure (by simpa using value)
  | remove =>
    exact (ensures_removeItem within).bind fun v value => ensures_pure (by simpa using value)
  | sort => exact (safe_sortItems within).bind fun _ _ => ensures_pure no_values_within
  | unpack => exact ensures_unpackItems within

end CallGuard.Lua.Library
