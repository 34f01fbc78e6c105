import CallGuard.Proofs.Lua.Paired.Names

set_option autoImplicit false

namespace CallGuard.Lua.Library

open Routine

variable {p : Pairing} {vs : Args}

def Sorting.rename (move : TableId → TableId) (s : Sorting) : Sorting :=
  ⟨s.table.rename move, s.order.rename move⟩

def Sorting.Fits (p : Pairing) (s : Sorting) : Prop := s.table.Fits p ∧ s.order.Fits p

abbrev ofPlaced {α : Type} (p : Pairing) : α × Value → α × Value → Prop :=
  Carried (fun found => (found.1, found.2.rename p.move)) fun found => found.2.Fits p

section

variable (lawful : p.Lawful)

include lawful

theorem paired_measured (fits : Values.Fits p vs) :
    (measured vs).Paired p (measured (Values.rename p.move vs))
      (Carried (fun m => (m.1.rename p.move, m.2)) fun m => m.1.Fits p) :=
  (Args.paired_table fits 1).bind fun _ table =>
    (paired_lengthOf lawful table).next fun _ => paired_pure ⟨table, rfl⟩

theorem paired_joinFrom {t : Value} (list : t.Fits p) (sep : Bytes) (count : Nat) (i : Int64)
    (done : Bytes) :
    (joinFrom t sep count i done).Paired p (joinFrom (t.rename p.move) sep count i done) Eq := by
  have text : ∀ i, (do ofOption (← item t i).toBytes?).Paired p
      (do ofOption (← item (t.rename p.move) i).toBytes?) Eq :=
    fun i => (paired_item lawful list i).bind fun v _ =>
      paired_sameOption (by rw [Value.toBytes?_rename])
  induction count, i, done using joinFrom.induct sep with
  | case1 => exact paired_same _
  | case2 i done => exact (text i).next fun _ => paired_same _
  | case3 count i done more ih =>
    rw [joinFrom.eq_3 _ _ _ _ _ more, joinFrom.eq_3 _ _ _ _ _ more]
    exact paired_pause.next fun _ => (text i).next fun s => ih s

theorem paired_join (fits : Values.Fits p vs) :
    (join vs).Paired p (join (Values.rename p.move vs)) p.ofValue :=
  (paired_measured lawful fits).bind fun (_, size) table =>
    (Args.paired_bytesOr vs 2 _).next fun sep => (Args.paired_intOr vs 3 1).next fun i =>
      (Args.paired_intOr vs 4 size).next fun _ =>
        (paired_joinFrom lawful table sep _ i _).next fun _ => paired_pure_plain trivial

theorem paired_copyUp {source target : Value} (readFrom : source.Fits p)
    (writtenTo : target.Fits p) (start place : Int64) (count : Nat) (i : Int64) :
    (copyUp source start target place count i).Paired p
      (copyUp (source.rename p.move) start (target.rename p.move) place count i) Eq := by
  induction count generalizing i with
  | zero => exact paired_same ()
  | succ count ih =>
    exact paired_pause.next fun _ => (paired_item lawful readFrom _).bind fun _ value =>
      (paired_setItem lawful writtenTo _ value).next fun _ => ih (i + 1)

theorem paired_copyDown {source target : Value} (readFrom : source.Fits p)
    (writtenTo : target.Fits p) (start place : Int64) (count : Nat) :
    (copyDown source start target place count).Paired p
      (copyDown (source.rename p.move) start (target.rename p.move) place count) Eq := by
  induction count with
  | zero => exact paired_same ()
  | succ count ih =>
    exact paired_pause.next fun _ => (paired_item lawful readFrom _).bind fun _ value =>
      (paired_setItem lawful writtenTo _ value).next fun _ => ih

theorem paired_insertItem (fits : Values.Fits p vs) :
    (insertItem vs).Paired p (insertItem (Values.rename p.move vs)) Eq := by
  refine (paired_measured lawful fits).bind fun (t, size) table => ?_
  dsimp only at table ⊢
  rcases vs with _ | ⟨a, _ | ⟨b, _ | ⟨c, _ | ⟨d, rest⟩⟩⟩⟩
  · exact paired_invalid
  · exact paired_invalid
  · exact paired_setItem lawful table _ (fits b (by simp))
  · refine (Args.paired_int [a, b, c] 2).next fun pos => paired_unless Iff.rfl ?_
    exact (paired_copyDown lawful table table _ _ _).next fun _ =>
      paired_setItem lawful table pos (fits c (by simp))
  · exact paired_invalid

theorem paired_removeItem (fits : Values.Fits p vs) :
    (removeItem vs).Paired p (removeItem (Values.rename p.move vs)) p.ofValue := by
  refine (paired_measured lawful fits).bind fun (t, size) table => ?_
  refine (Args.paired_intOr vs 2 size).next fun pos => paired_unless Iff.rfl ?_
  refine (paired_item lawful table pos).bind fun v value => ?_
  refine (paired_copyUp lawful table table _ _ _ _).next fun _ => ?_
  exact (paired_setItem lawful table _ nil_fits).next fun _ => paired_pure ⟨value, rfl⟩

theorem paired_moveItems (fits : Values.Fits p vs) :
    (moveItems vs).Paired p (moveItems (Values.rename p.move vs)) p.ofValue := by
  have source := Args.value_fits fits 1
  have same (v : Value) : readable (v.rename p.move) = readable v := by cases v <;> rfl
  refine (Args.paired_int vs 2).next fun first => (Args.paired_int vs 3).next fun last =>
    (Args.paired_int vs 4).next fun place => ?_
  dsimp only
  simp only [Args.value_rename, Value.isNil_rename, same]
  refine paired_unless Iff.rfl ?_
  refine (Args.paired_table fits _).bind fun target table => ?_
  rw [Value.same_rename lawful.injective]
  refine paired_ite Iff.rfl ?_ (paired_pure ⟨table, rfl⟩)
  refine paired_unless Iff.rfl (paired_unless Iff.rfl (paired_ite Iff.rfl ?_ ?_))
  · exact (paired_copyUp lawful source table _ _ _ _).next fun _ => paired_pure ⟨table, rfl⟩
  · exact (paired_copyDown lawful source table _ _ _).next fun _ => paired_pure ⟨table, rfl⟩

theorem paired_packItems (fits : Values.Fits p vs) :
    (packItems vs).Paired p (packItems (Values.rename p.move vs)) p.ofValue := by
  unfold packItems
  rw [List.length_map]
  have made := paired_alloc_table lawful (Table.ofSizes_fits (p := p) vs.length 1)
  rw [Table.ofSizes_rename] at made
  refine made.bind fun id writable => ?_
  have filled : (update fun h => h.modifyTable id fun t =>
      (vs.foldl (fun e v => (Table.setInt e.1 (.ofNat e.2) v, e.2 + 1)) (t, 1)).1.setText "n"
        (.int (.ofNat vs.length))).Paired p
      (update fun h => h.modifyTable (p.move id) fun t =>
        ((Values.rename p.move vs).foldl (fun e v => (Table.setInt e.1 (.ofNat e.2) v, e.2 + 1))
          (t, 1)).1.setText "n" (.int (.ofNat vs.length))) Eq := by
    refine paired_update fun h h' alike =>
      alike.modifyTable lawful writable.1 writable.2 (fun t table => ?_) fun t => ?_
    · have items : Table.Fits p
          (vs.foldl (fun e v => (Table.setInt e.1 (.ofNat e.2) v, e.2 + 1)) (t, 1)).1 :=
        ⟨table.entries.setAll admits_fits fits 1, Table.setAll_handlers t vs 1 ▸ table.handlers⟩
      exact items.set (text_fits "n") (int_fits _)
    · rw [Table.setAll_rename]
      exact Table.setText_rename _ "n" (.int (.ofNat vs.length))
  exact filled.next fun _ => paired_pure ⟨writable.2, rfl⟩

theorem paired_unpackItems (fits : Values.Fits p vs) :
    (unpackItems vs).Paired p (unpackItems (Values.rename p.move vs)) p.ofValues := by
  have list := Args.value_fits fits 1
  have items : ∀ i last : Int64, Paired p
      (if resultLimit < spanCount i last then invalid >>= fun _ : PUnit =>
          itemsFrom (Args.value vs 1) (spanCount i last) i []
        else itemsFrom (Args.value vs 1) (spanCount i last) i [])
      (if resultLimit < spanCount i last then invalid >>= fun _ : PUnit =>
          itemsFrom ((Args.value vs 1).rename p.move) (spanCount i last) i []
        else itemsFrom ((Args.value vs 1).rename p.move) (spanCount i last) i []) p.ofValues :=
    fun i last => paired_unless Iff.rfl (paired_itemsFrom lawful list _ i no_values_fit)
  refine (Args.paired_intOr vs 2 1).next fun i => ?_
  dsimp only
  simp only [Args.value_rename, Value.isNil_rename]
  split
  · exact (paired_lengthOf lawful list).next fun last => items i last
  · exact (Args.paired_int vs 3).next fun last => items i last

theorem paired_precedes {order a b : Value} (function : order.Fits p) (first : a.Fits p)
    (second : b.Fits p) :
    (precedes order a b).Paired p
      (precedes (order.rename p.move) (a.rename p.move) (b.rename p.move)) Eq := by
  have called : (do return (firstOf (← order.call [a, b] .native)).truth).Paired p
      (do return (firstOf (← (order.rename p.move).call [a.rename p.move, b.rename p.move]
        .native)).truth) Eq := by
    have args : Values.Fits p [a, b] := by simpa using And.intro first second
    refine (Value.paired_call lawful .native function args).bind fun vs _ => ?_
    rw [firstOf_rename, Value.truth_rename]
    exact paired_same _
  refine paired_pause.next fun _ => ?_
  cases order with
  | nil => exact paired_sameOption (Value.less?_rename a b)
  | _ => exact called

namespace Sorting

variable {s : Sorting} (sorting : s.Fits p)

include sorting

theorem paired_get (i : Nat) : (s.get i).Paired p ((s.rename p.move).get i) p.ofValue :=
  paired_item lawful sorting.1 _

theorem paired_set (i : Nat) {v : Value} (value : v.Fits p) :
    (s.set i v).Paired p ((s.rename p.move).set i (v.rename p.move)) Eq :=
  paired_setItem lawful sorting.1 _ value

theorem paired_precedes {a b : Value} (first : a.Fits p) (second : b.Fits p) :
    (precedes s.order a b).Paired p
      (precedes (s.rename p.move).order (a.rename p.move) (b.rename p.move)) Eq :=
  Library.paired_precedes lawful sorting.2 first second

theorem paired_climb {pivot : Value} (value : pivot.Fits p) (stop fuel i : Nat) :
    (s.climb pivot stop fuel i).Paired p
      ((s.rename p.move).climb (pivot.rename p.move) stop fuel i) (ofPlaced p) := by
  induction fuel generalizing i with
  | zero => exact paired_invalid
  | succ fuel ih =>
    refine (paired_get lawful sorting _).bind fun v item => ?_
    refine (paired_precedes lawful sorting item value).next fun below => ?_
    exact paired_ite Iff.rfl (paired_unless Iff.rfl (ih (i + 1))) (paired_pure ⟨item, rfl⟩)

theorem paired_descend {pivot : Value} (value : pivot.Fits p) (start fuel j : Nat) :
    (s.descend pivot start fuel j).Paired p
      ((s.rename p.move).descend (pivot.rename p.move) start fuel j) (ofPlaced p) := by
  induction fuel generalizing j with
  | zero => exact paired_invalid
  | succ fuel ih =>
    refine (paired_get lawful sorting _).bind fun v item => ?_
    refine (paired_precedes lawful sorting value item).next fun above => ?_
    exact paired_ite Iff.rfl (paired_unless Iff.rfl (ih (j - 1))) (paired_pure ⟨item, rfl⟩)

theorem paired_partition {pivot : Value} (value : pivot.Fits p) (up fuel i j : Nat) :
    (s.partition pivot up fuel i j).Paired p
      ((s.rename p.move).partition (pivot.rename p.move) up fuel i j) Eq := by
  induction fuel generalizing i j with
  | zero => exact paired_invalid
  | succ fuel ih =>
    refine (paired_climb lawful sorting value _ _ _).bind fun (i, a) item => ?_
    refine (paired_descend lawful sorting value _ _ _).bind fun (j, b) other => ?_
    refine paired_ite Iff.rfl ?_ ?_
    · exact (paired_set lawful sorting _ item).next fun _ =>
        (paired_set lawful sorting _ value).next fun _ => paired_same _
    · exact (paired_set lawful sorting _ other).next fun _ =>
        (paired_set lawful sorting _ item).next fun _ => ih i j

theorem paired_exchange (i j : Nat) {a b : Value} (first : a.Fits p) (second : b.Fits p)
    {r r' : Routine Unit} (rest : r.Paired p r' Eq) :
    (do s.set i a; s.set j b; r : Routine Unit).Paired p
      (do
        (s.rename p.move).set i (a.rename p.move)
        (s.rename p.move).set j (b.rename p.move)
        r' : Routine Unit) Eq :=
  (paired_set lawful sorting i first).next fun _ =>
    (paired_set lawful sorting j second).next fun _ => rest

theorem paired_orderThree (lo middle up : Nat) :
    (s.orderThree lo middle up).Paired p ((s.rename p.move).orderThree lo middle up) Eq := by
  refine (paired_get lawful sorting middle).bind fun pivot value => ?_
  refine (paired_get lawful sorting lo).bind fun a first => ?_
  refine (paired_precedes lawful sorting value first).next fun before => ?_
  refine paired_ite Iff.rfl (paired_exchange lawful sorting middle lo first value (paired_same ()))
    ?_
  refine (paired_get lawful sorting up).bind fun b last => ?_
  refine (paired_precedes lawful sorting last value).next fun after => ?_
  exact paired_ite Iff.rfl (paired_exchange lawful sorting middle up last value (paired_same ()))
    (paired_same ())

theorem paired_sortRange (fuel lo up : Nat) :
    (s.sortRange fuel lo up).Paired p ((s.rename p.move).sortRange fuel lo up) Eq := by
  induction fuel generalizing lo up with
  | zero => exact paired_same ()
  | succ fuel ih =>
    unfold sortRange
    dsimp only
    refine paired_ite Iff.rfl (paired_same ()) ?_
    refine (paired_get lawful sorting lo).bind fun a first => ?_
    refine (paired_get lawful sorting up).bind fun b last => ?_
    refine (paired_precedes lawful sorting last first).next fun swapped => ?_
    have rest : ∀ {r r' : Routine Unit}, r.Paired p r' Eq →
        (if swapped then do s.set lo b; s.set up a; r else r).Paired p
          (if swapped then do
              (s.rename p.move).set lo (b.rename p.move)
              (s.rename p.move).set up (a.rename p.move)
              r'
            else r') Eq := fun rest =>
      paired_ite Iff.rfl (paired_exchange lawful sorting lo up last first rest) rest
    refine rest (paired_ite Iff.rfl (paired_same ()) ?_)
    refine (paired_orderThree lawful sorting lo _ up).next fun _ => ?_
    refine paired_ite Iff.rfl (paired_same ()) ?_
    refine (paired_get lawful sorting _).bind fun pivot value => ?_
    refine (paired_get lawful sorting _).bind fun b last => ?_
    refine paired_exchange lawful sorting _ _ last value ?_
    refine (paired_partition lawful sorting value _ _ _ _).next fun q => ?_
    exact paired_ite Iff.rfl ((ih _ _).next fun _ => ih _ _) ((ih _ _).next fun _ => ih _ _)

end Sorting

theorem paired_sortItems (fits : Values.Fits p vs) :
    (sortItems vs).Paired p (sortItems (Values.rename p.move vs)) Eq := by
  have same (v : Value) : isFunction (v.rename p.move) = isFunction v := by cases v <;> rfl
  refine (paired_measured lawful fits).bind fun (t, size) table => ?_
  dsimp only
  simp only [Args.value_rename, Value.isNil_rename, same]
  refine paired_ite Iff.rfl (paired_unless Iff.rfl (paired_unless Iff.rfl ?_)) (paired_same ())
  have sorting : (Sorting.mk t (Args.value vs 2)).Fits p := ⟨table, Args.value_fits fits 2⟩
  exact Sorting.paired_sortRange lawful sorting _ _ _

theorem paired_table (f : TableFunction) (fits : Values.Fits p vs) :
    (table f vs).Paired p (table f (Values.rename p.move vs)) p.ofValues := by
  have nothing : (pure [] : Routine (List Value)).Paired p (pure []) p.ofValues :=
    paired_pure_plains no_values_plain
  cases f with
  | concat => exact paired_wrapped (paired_join lawful fits)
  | insert => exact (paired_insertItem lawful fits).next fun _ => nothing
  | move => exact paired_wrapped (paired_moveItems lawful fits)
  | pack => exact paired_wrapped (paired_packItems lawful fits)
  | remove => exact paired_wrapped (paired_removeItem lawful fits)
  | sort => exact (paired_sortItems lawful fits).next fun _ => nothing
  | unpack => exact paired_unpackItems lawful fits

end

end CallGuard.Lua.Library
