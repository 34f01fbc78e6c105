import CallGuard.Proofs.Lua.Paired.Operations

set_option autoImplicit false

namespace CallGuard.Lua

open Routine

variable {p : Pairing}

theorem formatOne?_rename {v : Value} (shown : v.isTable = false) (move : TableId → TableId)
    (layout : List Char) (kind : Char) :
    formatOne? layout kind (v.rename move) = formatOne? layout kind v := by
  cases v with
  | table id => cases shown
  | _ => rfl

theorem formatAll_rename (move : TableId → TableId) (fuel : Nat) (done : Bytes) (cs : List Char)
    {vs : List Value} (shown : ∀ v ∈ vs, v.isTable = false) :
    formatAll fuel done cs (Values.rename move vs) = formatAll fuel done cs vs := by
  induction fuel generalizing done cs vs with
  | zero => rfl
  | succ fuel ih =>
    rcases cs with _ | ⟨c, rest⟩
    · rfl
    by_cases conversion : c = '%'
    · subst conversion
      by_cases escaped : ∃ after, rest = '%' :: after
      · obtain ⟨after, rfl⟩ := escaped
        rw [formatAll, formatAll, ih (done.push 37) after shown]
      · have single : ∀ after, rest = '%' :: after → False := fun after is => escaped ⟨after, is⟩
        cases dropped : rest.dropWhile isLayoutChar with
        | nil =>
          rw [formatAll.eq_5 _ _ _ _ single (by simp [dropped]),
            formatAll.eq_5 _ _ _ _ single (by simp [dropped])]
        | cons kind after =>
          cases vs with
          | nil => rfl
          | cons v vs =>
            rw [List.forall_mem_cons] at shown
            rw [Values.rename, List.map_cons, formatAll.eq_4 _ _ _ _ _ _ _ single dropped,
              formatAll.eq_4 _ _ _ _ _ _ _ single dropped, formatOne?_rename shown.1]
            simp only [ih _ _ shown.2]
    · rw [formatAll, formatAll, ih (done.push (.ofNat c.toNat)) rest shown]
      all_goals simp [conversion]

theorem format?_rename (move : TableId → TableId) (format : Bytes) {vs : List Value}
    (shown : ∀ v ∈ vs, v.isTable = false) :
    format? format (Values.rename move vs) = format? format vs :=
  formatAll_rename move _ _ _ shown

theorem Packing.bytesOf?_rename (move : TableId → TableId) (f : Field) (item : Item) (v : Value) :
    packFrom.bytesOf? f item (v.rename move) = packFrom.bytesOf? f item v := by
  cases item <;> simp [packFrom.bytesOf?]

theorem Packing.packFrom_rename (move : TableId → TableId) (fs : List Field) (vs : List Value)
    (done : Bytes) : packFrom fs (Values.rename move vs) done = packFrom fs vs done := by
  induction fs generalizing vs done with
  | nil => rfl
  | cons f fs ih =>
    cases item : f.item with
    | padding => simpa only [packFrom, item] using ih vs _
    | alignment => simpa only [packFrom, item] using ih vs _
    | _ =>
      cases vs with
      | nil => rfl
      | cons v vs => simp [packFrom, item, ih, bytesOf?_rename]

namespace Library

variable {vs : Args}

theorem paired_subString (vs : Args) :
    (subString vs).Paired p (subString (Values.rename p.move vs)) p.ofValue :=
  (Args.paired_bytes vs 1).next fun _ => (Args.paired_int vs 2).next fun _ =>
    (Args.paired_intOr vs 3 _).next fun _ => paired_pure_plain trivial

theorem paired_byteValues (vs : Args) :
    (byteValues vs).Paired p (byteValues (Values.rename p.move vs)) p.ofValues := by
  refine (Args.paired_bytes vs 1).next fun s => (Args.paired_intOr vs 2 1).next fun first =>
    (Args.paired_intOr vs 3 first).next fun last => paired_pure_plains fun v member => ?_
  obtain ⟨b, -, rfl⟩ := List.mem_map.1 member
  trivial

theorem paired_charBytes (vs : Args) :
    (charBytes vs).Paired p (charBytes (Values.rename p.move vs)) p.ofValue := by
  unfold charBytes
  rw [List.mapM_map]
  simp only [Function.comp_def, Value.toInt?_rename]
  refine (paired_mapM (fun v => ?_) vs).next fun bytes => paired_pure_plain trivial
  split
  · exact paired_ite Iff.rfl (paired_same _) paired_invalid
  · exact paired_invalid

theorem paired_repeatString (vs : Args) :
    (repeatString vs).Paired p (repeatString (Values.rename p.move vs)) p.ofValue := by
  refine (Args.paired_bytes vs 1).next fun s => (Args.paired_int vs 2).next fun n =>
    (Args.paired_bytesOr vs 3 _).next fun sep => ?_
  refine paired_ite Iff.rfl (paired_pure_plain trivial) (paired_ite Iff.rfl paired_invalid ?_)
  exact paired_ite Iff.rfl (paired_pure_plain trivial) (paired_pure_plain trivial)

theorem paired_ofPattern {α : Type} (r : Except Pattern.Fault α) :
    (ofPattern r).Paired p (ofPattern r) Eq := by
  cases r with
  | ok a => exact paired_same a
  | error e => exact paired_invalid

theorem paired_searchStart? (vs : Args) (size : Nat) :
    (searchStart? vs size).Paired p (searchStart? (Values.rename p.move vs) size) Eq :=
  (Args.paired_intOr vs 3 1).next fun _ => paired_same _

theorem paired_find (vs : Args) :
    (find vs).Paired p (find (Values.rename p.move vs)) p.ofValues := by
  refine (Args.paired_bytes vs 1).next fun s => (Args.paired_bytes vs 2).next fun pattern =>
    (paired_searchStart? vs s.size).next fun start => ?_
  cases start with
  | none => exact paired_return nil_fits
  | some start =>
    refine paired_ite (by rw [Args.value_rename, Value.truth_rename]) ?_ ?_
    · split <;> exact paired_pure_plains (by simp)
    · refine (paired_ofPattern _).next fun found => ?_
      rcases found with _ | ⟨i, stop, caps⟩
      · exact paired_return nil_fits
      · refine (paired_plains fun _ => Pattern.values?_plain).bind fun ws captured => ?_
        exact paired_pure ⟨by simpa using captured, rfl⟩

theorem paired_matchFirst (vs : Args) :
    (matchFirst vs).Paired p (matchFirst (Values.rename p.move vs)) p.ofValues := by
  refine (Args.paired_bytes vs 1).next fun s => (Args.paired_bytes vs 2).next fun pattern =>
    (paired_searchStart? vs s.size).next fun start => ?_
  cases start with
  | none => exact paired_return nil_fits
  | some start =>
    refine (paired_ofPattern _).next fun found => ?_
    rcases found with _ | ⟨i, stop, caps⟩
    · exact paired_return nil_fits
    · exact paired_plains fun _ => Pattern.matchValues?_plain

theorem paired_matchIterator (vs : Args) :
    (matchIterator vs).Paired p (matchIterator (Values.rename p.move vs)) p.ofValue :=
  (Args.paired_bytes vs 1).next fun _ => (Args.paired_bytes vs 2).next fun _ =>
    (Args.paired_intOr vs 3 1).next fun _ => (paired_newCell (int_fits _)).bind fun _ first =>
      (paired_newCell nil_fits).bind fun _ second => paired_pure ⟨⟨first, second⟩, rfl⟩

theorem paired_stepMatch (s pattern : Bytes) {startCell lastCell : CellId}
    (first : startCell ≠ p.envCell) (second : lastCell ≠ p.envCell) :
    (stepMatch s pattern startCell lastCell).Paired p (stepMatch s pattern startCell lastCell)
      p.ofValues := by
  have natural (v : Value) : naturalOf (v.rename p.move) = naturalOf v := by cases v <;> rfl
  refine (paired_cell first).bind fun v _ => ?_
  rw [natural]
  refine (paired_sameOption rfl).next fun start => (paired_cell second).bind fun last _ => ?_
  dsimp only
  rw [natural]
  refine (paired_ofPattern _).next fun found => ?_
  rcases found with _ | ⟨i, stop, caps⟩
  · exact paired_return nil_fits
  · refine Paired.next (paired_update fun h h' alike => ?_) fun _ =>
      paired_plains fun _ => Pattern.matchValues?_plain
    exact (alike.setCell first (int_fits _)).setCell second (int_fits _)

theorem paired_chosen (whole : Bytes) (v : Value) :
    (replacement.chosen whole v).Paired p (replacement.chosen whole (v.rename p.move)) Eq :=
  paired_ite (by rw [Value.truth_rename]) (paired_sameOption (by rw [Value.toBytes?_rename]))
    (paired_same whole)

section

variable (lawful : p.Lawful)

include lawful

theorem paired_replacement {how : Value} (fits : how.Fits p) (s : Bytes) (i stop : Nat)
    (caps : Pattern.Captures) :
    (replacement how s i stop caps).Paired p (replacement (how.rename p.move) s i stop caps)
      Eq := by
  have captured : (ofOption (Pattern.matchValues? s i stop caps)).Paired p
      (ofOption (Pattern.matchValues? s i stop caps)) p.ofValues :=
    paired_plains fun _ => Pattern.matchValues?_plain
  have called : ∀ f : Value, f.Fits p →
      (do
        let args ← ofOption (Pattern.matchValues? s i stop caps)
        replacement.chosen (s.extract i stop) (firstOf (← f.call args .native))).Paired p
      (do
        let args ← ofOption (Pattern.matchValues? s i stop caps)
        replacement.chosen (s.extract i stop)
          (firstOf (← (f.rename p.move).call args .native))) Eq :=
    fun f callee => captured.bind fun args values =>
      (Value.paired_call lawful .native callee values).bind fun ws _ => by
        rw [firstOf_rename]
        exact paired_chosen _ _
  unfold replacement
  cases how with
  | table id =>
    exact captured.bind fun key values => by
      rw [firstOf_rename]
      exact (Value.paired_index lawful .native fits values.firstOf).bind
        fun v _ => paired_chosen _ v
  | string r => exact paired_sameOption rfl
  | int i => exact paired_sameOption rfl
  | float x => exact paired_sameOption rfl
  | _ => exact called _ fits

theorem paired_replaceFrom {how : Value} (fits : how.Fits p) (s : Bytes) (pattern : List UInt8)
    (onlyFirst : Bool) (fuel pos : Nat) (last : Option Nat) (left count : Nat) (done : Bytes) :
    (replaceFrom how s pattern onlyFirst fuel pos last left count done).Paired p
      (replaceFrom (how.rename p.move) s pattern onlyFirst fuel pos last left count done) Eq := by
  induction fuel generalizing pos last left count done with
  | zero => exact paired_same _
  | succ fuel ih =>
    unfold replaceFrom
    refine paired_ite Iff.rfl (paired_same _) ?_
    refine paired_pause.next fun _ => (paired_ofPattern _).next fun found => ?_
    dsimp only
    split
    · refine (paired_replacement lawful fits s pos _ _).next fun text => ?_
      exact paired_ite Iff.rfl (paired_same _) (ih _ _ _ _ _)
    · split
      · exact paired_same _
      · exact paired_ite Iff.rfl (paired_same _) (ih _ _ _ _ _)

theorem paired_replaceAll (fits : Values.Fits p vs) :
    (replaceAll vs).Paired p (replaceAll (Values.rename p.move vs)) p.ofValues := by
  have how := Args.value_fits fits 3
  have same (v : Value) : isReplacement (v.rename p.move) = isReplacement v := by cases v <;> rfl
  refine (Args.paired_bytes vs 1).next fun s => (Args.paired_bytes vs 2).next fun pattern => ?_
  dsimp only
  rw [Args.value_rename, same]
  refine paired_unless Iff.rfl ((Args.paired_intOr vs 4 _).next fun most => ?_)
  exact (paired_replaceFrom lawful how s _ _ _ _ _ _ _ _).next
    fun (text, count) => paired_pure_plains (by simp)

theorem paired_string (f : StringFunction) (fits : Values.Fits p vs)
    (takes : (Native.string f).Takes p vs) :
    (string f vs).Paired p (string f (Values.rename p.move vs)) p.ofValues := by
  cases f with
  | byte => exact paired_byteValues vs
  | char => exact paired_wrapped (paired_charBytes vs)
  | dump =>
    simp only [string, Args.value_rename]
    cases Args.value vs 1 with
    | function id => exact paired_return (text_fits _)
    | _ => exact paired_invalid
  | find => exact paired_find vs
  | format =>
    refine (Args.paired_bytes vs 1).next fun format => ?_
    rw [← List.map_drop, format?_rename p.move format fun v member =>
      takes v (List.mem_of_mem_drop member)]
    exact (paired_sameOption rfl).next fun _ => paired_return (string_fits _)
  | gmatch => exact paired_wrapped (paired_matchIterator vs)
  | gsub => exact paired_replaceAll lawful fits
  | matchFirst => exact paired_matchFirst vs
  | pack =>
    refine (Args.paired_bytes vs 1).next fun format => ?_
    have same : Packing.pack? format ((Values.rename p.move vs).drop 1) =
        Packing.pack? format (vs.drop 1) := by
      rw [← List.map_drop]
      simp only [Packing.pack?, Packing.packFrom_rename]
    rw [same]
    exact (paired_sameOption rfl).next fun _ => paired_return (string_fits _)
  | packSize =>
    exact (Args.paired_bytes vs 1).next fun _ => (paired_sameOption rfl).next fun _ =>
      paired_return (int_fits _)
  | rep => exact paired_wrapped (paired_repeatString vs)
  | sub => exact paired_wrapped (paired_subString vs)
  | unpack =>
    exact (Args.paired_bytes vs 1).next fun _ => (Args.paired_bytes vs 2).next fun _ =>
      (Args.paired_intOr vs 3 1).next fun _ => paired_plains fun _ => Packing.unpack?_plain
  | len => exact (Args.paired_bytes vs 1).next fun _ => paired_return (int_fits _)
  | _ => exact (Args.paired_bytes vs 1).next fun _ => paired_return (string_fits _)

end

end Library

end CallGuard.Lua
