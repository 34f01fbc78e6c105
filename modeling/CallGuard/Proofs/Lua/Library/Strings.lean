import CallGuard.Proofs.Lua.Operations

set_option autoImplicit false

namespace CallGuard.Lua

open Routine

variable {P : TableId → Prop} {base : Heap}

namespace Library

variable {vs : Args}

theorem ensures_subString (vs : Args) :
    (subString vs).Ensures base (Value.Within base.Shows) :=
  (Args.safe_bytes vs 1).bind fun _ _ => (Args.safe_int vs 2).bind fun _ _ =>
    (Args.safe_intOr vs 3 _).bind fun _ _ => ensures_pure trivial

theorem ensures_byteValues (vs : Args) :
    (byteValues vs).Ensures base (Values.Within base.Shows) := by
  refine (Args.safe_bytes vs 1).bind fun s _ => (Args.safe_intOr vs 2 1).bind fun first _ =>
    (Args.safe_intOr vs 3 first).bind fun last _ => ensures_pure fun v member => ?_
  obtain ⟨b, -, rfl⟩ := List.mem_map.1 member
  trivial

theorem ensures_charBytes (vs : Args) :
    (charBytes vs).Ensures base (Value.Within base.Shows) := by
  refine Ensures.bind (ensures_mapM (R := fun _ => True) (fun v => ?_) vs) fun _ _ =>
    ensures_pure trivial
  split
  · split
    · exact ensures_pure trivial
    · exact ensures_invalid
  · exact ensures_invalid

theorem ensures_repeatString (vs : Args) :
    (repeatString vs).Ensures base (Value.Within base.Shows) := by
  refine (Args.safe_bytes vs 1).bind fun s _ => (Args.safe_int vs 2).bind fun n _ =>
    (Args.safe_bytesOr vs 3 _).bind fun sep _ => ?_
  split
  · exact ensures_pure trivial
  · split
    · exact ensures_invalid
    · split <;> exact ensures_pure trivial

theorem safe_ofPattern {α : Type} (r : Except Pattern.Fault α) : (ofPattern r).Safe base := by
  cases r with
  | ok a => exact ensures_pure trivial
  | error e => exact ensures_invalid

theorem safe_searchStart? (vs : Args) (size : Nat) : (searchStart? vs size).Safe base :=
  (Args.safe_intOr vs 3 1).bind fun _ _ => ensures_pure trivial

theorem ensures_find (vs : Args) : (find vs).Ensures base (Values.Within base.Shows) := by
  refine (Args.safe_bytes vs 1).bind fun s _ => (Args.safe_bytes vs 2).bind fun p _ =>
    (safe_searchStart? vs s.size).bind fun start _ => ?_
  split
  · exact ensures_pure (by simp)
  · split
    · split <;> exact ensures_pure (by simp)
    · refine (safe_ofPattern _).bind fun found _ => ?_
      split
      · exact ensures_pure (by simp)
      · refine Ensures.bind (ensures_ofOption fun _ found => (Pattern.values?_plain found).within) fun ws captured =>
          ensures_pure (by simpa using captured)

theorem ensures_matchFirst (vs : Args) :
    (matchFirst vs).Ensures base (Values.Within base.Shows) := by
  refine (Args.safe_bytes vs 1).bind fun s _ => (Args.safe_bytes vs 2).bind fun p _ =>
    (safe_searchStart? vs s.size).bind fun start _ => ?_
  split
  · exact ensures_pure (by simp)
  · refine (safe_ofPattern _).bind fun found _ => ?_
    split
    · exact ensures_pure (by simp)
    · exact ensures_ofOption fun _ found => (Pattern.matchValues?_plain found).within

theorem safe_newCell {v : Value} (value : v.Within base.Shows) :
    (alloc fun h => h.newCell v).Safe base :=
  ensures_alloc fun _ ext => ⟨trivial, ext.newCell value⟩

theorem ensures_matchIterator (vs : Args) :
    (matchIterator vs).Ensures base (Value.Within base.Shows) :=
  (Args.safe_bytes vs 1).bind fun _ _ => (Args.safe_bytes vs 2).bind fun _ _ =>
    (Args.safe_intOr vs 3 1).bind fun _ _ => (safe_newCell (int_within _)).bind fun _ _ =>
      (safe_newCell nil_within).bind fun _ _ => ensures_pure trivial

theorem ensures_stepMatch (s p : Bytes) (startCell lastCell : CellId) :
    (stepMatch s p startCell lastCell).Ensures base (Values.Within base.Shows) := by
  refine (safe_read _).bind fun v _ => (safe_ofOption _).bind fun start _ =>
    (safe_read _).bind fun last _ => (safe_ofPattern _).bind fun found _ => ?_
  split
  · exact ensures_pure (by simp)
  · refine Ensures.bind (safe_update fun h ext => ?_) fun _ _ =>
      ensures_ofOption fun _ found => (Pattern.matchValues?_plain found).within
    exact (ext.setCell startCell (int_within _)).setCell lastCell (int_within _)

theorem safe_chosen (whole : Bytes) (v : Value) : (replacement.chosen whole v).Safe base := by
  unfold replacement.chosen
  split
  · exact safe_ofOption _
  · exact ensures_pure trivial

theorem safe_replacement {how : Value} (within : how.Within base.Shows) (s : Bytes) (i stop : Nat)
    (caps : Pattern.Captures) : (replacement how s i stop caps).Safe base := by
  have captured : (ofOption (Pattern.matchValues? s i stop caps)).Ensures base
      (Values.Within base.Shows) := ensures_ofOption fun _ found => (Pattern.matchValues?_plain found).within
  unfold replacement
  dsimp only
  split
  · exact captured.bind fun key values =>
      (Value.ensures_index .native within values.firstOf).bind fun v _ => safe_chosen _ v
  · exact safe_ofOption _
  · exact safe_ofOption _
  · exact safe_ofOption _
  · exact captured.bind fun args values =>
      (Value.ensures_call .native within values).bind fun ws _ => safe_chosen _ _

theorem safe_replaceFrom {how : Value} (within : how.Within base.Shows) (s : Bytes)
    (p : List UInt8) (onlyFirst : Bool) (fuel pos : Nat) (last : Option Nat) (left count : Nat)
    (done : Bytes) : (replaceFrom how s p onlyFirst fuel pos last left count done).Safe base := by
  induction fuel generalizing pos last left count done with
  | zero => exact ensures_pure trivial
  | succ fuel ih =>
    unfold replaceFrom
    split
    · exact ensures_pure trivial
    · refine safe_pause.bind fun _ _ => (safe_ofPattern _).bind fun found _ => ?_
      split
      · refine (safe_replacement within s pos _ _).bind fun text _ => ?_
        dsimp only
        split
        · exact ensures_pure trivial
        · exact ih _ _ _ _ _
      · split
        · exact ensures_pure trivial
        · split
          · exact ensures_pure trivial
          · exact ih _ _ _ _ _

theorem ensures_replaceAll (within : Values.Within base.Shows vs) :
    (replaceAll vs).Ensures base (Values.Within base.Shows) := by
  have how := Args.value_within within 3
  refine (Args.safe_bytes vs 1).bind fun s _ => (Args.safe_bytes vs 2).bind fun p _ =>
    ensures_unless ?_
  refine (Args.safe_intOr vs 4 _).bind fun most _ => ?_
  exact (safe_replaceFrom how s _ _ _ _ _ _ _ _).bind fun (text, count) _ =>
    ensures_pure (by simp)

theorem ensures_string (f : StringFunction) (within : Values.Within base.Shows vs) :
    (Library.string f vs).Ensures base (Values.Within base.Shows) := by
  cases f with
  | byte => exact ensures_byteValues vs
  | char => exact (ensures_charBytes vs).bind fun v value => ensures_pure (by simpa using value)
  | dump =>
    simp only [Library.string]
    split
    · exact ensures_pure (by simp)
    · exact ensures_invalid
  | find => exact ensures_find vs
  | format =>
    exact (Args.safe_bytes vs 1).bind fun _ _ => (safe_ofOption _).bind fun _ _ =>
      ensures_pure (by simp)
  | gmatch =>
    exact (ensures_matchIterator vs).bind fun v value => ensures_pure (by simpa using value)
  | gsub => exact ensures_replaceAll within
  | matchFirst => exact ensures_matchFirst vs
  | pack =>
    exact (Args.safe_bytes vs 1).bind fun _ _ => (safe_ofOption _).bind fun _ _ =>
      ensures_pure (by simp)
  | packSize =>
    exact (Args.safe_bytes vs 1).bind fun _ _ => (safe_ofOption _).bind fun _ _ =>
      ensures_pure (by simp)
  | rep => exact (ensures_repeatString vs).bind fun v value => ensures_pure (by simpa using value)
  | sub => exact (ensures_subString vs).bind fun v value => ensures_pure (by simpa using value)
  | unpack =>
    exact (Args.safe_bytes vs 1).bind fun _ _ => (Args.safe_bytes vs 2).bind fun _ _ =>
      (Args.safe_intOr vs 3 1).bind fun _ _ => ensures_ofOption fun _ found => (Packing.unpack?_plain found).within
  | _ => exact (Args.safe_bytes vs 1).bind fun _ _ => ensures_pure (by simp)

end Library

end CallGuard.Lua
