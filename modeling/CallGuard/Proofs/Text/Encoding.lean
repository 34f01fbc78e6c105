import CallGuard.Text.Utf8
import Mathlib

set_option autoImplicit false

namespace CallGuard.Text

theorem toList_loop (bs : ByteArray) (i : Nat) (done : List UInt8) :
    ByteArray.toList.loop bs i done = done.reverse ++ bs.data.toList.drop i := by
  fun_induction ByteArray.toList.loop bs i done with
  | case1 i done more ih =>
    have bound : i < bs.data.toList.length := more
    have head : bs.get! i = bs.data.toList[i] := getElem!_pos bs.data i more
    rw [ih, List.drop_eq_getElem_cons bound, head]
    simp
  | case2 i done ends =>
    rw [List.drop_eq_nil_of_le (Nat.le_of_not_lt ends), List.append_nil]

theorem toUTF8_toList (s : String) : s.toUTF8.toList = s.toList.flatMap String.utf8EncodeChar := by
  have bytes : s.toUTF8.toList = s.toByteArray.data.toList := toList_loop _ 0 []
  rw [bytes, ← String.utf8Encode_toList, List.utf8Encode, List.toList_data_toByteArray]

-- A longer form has no byte that could stand for a character of its own.
theorem forall_encoded_iff {p : UInt8 → Bool} {P : Char → Prop} (high : Bool)
    (ascii : ∀ n : Fin 128, p (Char.ofNat n).val.toUInt8 = true ↔ P (Char.ofNat n))
    (above : ∀ lead ∈ [0x80, 0xc0, 0xe0, 0xf0], ∀ n : Fin 256, p (UInt8.ofNat n ||| lead) = high)
    (long : ∀ c : Char, 127 < c.val → (P c ↔ high = true)) (c : Char) :
    (∀ b ∈ String.utf8EncodeChar c, p b = true) ↔ P c := by
  have raised {lead : UInt8} (member : lead ∈ [0x80, 0xc0, 0xe0, 0xf0]) (b : UInt8) :
      p (b ||| lead) = high := by
    have reached := above lead member ⟨b.toNat, b.toNat_lt⟩
    rwa [UInt8.ofNat_toNat] at reached
  by_cases one : c.utf8Size = 1
  · have low : c.toNat < 128 := Nat.lt_succ_of_le (Char.utf8Size_eq_one_iff.1 one)
    have same := ascii ⟨c.toNat, low⟩
    rw [Char.ofNat_toNat] at same
    rw [String.utf8EncodeChar_eq_singleton one, List.forall_mem_singleton, same]
  · have beyond : 127 < c.val := UInt32.not_le.1 (mt Char.utf8Size_eq_one_iff.2 one)
    rw [long c beyond]
    obtain two | three | four := c.utf8Size_eq.resolve_left one
    · rw [String.utf8EncodeChar_eq_cons_cons two]
      simp [raised]
    · rw [String.utf8EncodeChar_eq_cons_cons_cons three]
      simp [raised]
    · rw [String.utf8EncodeChar_eq_cons_cons_cons_cons four]
      simp [raised]

theorem all_toUTF8_iff {p : UInt8 → Bool} {P : Char → Prop}
    (encoded : ∀ c, (∀ b ∈ String.utf8EncodeChar c, p b = true) ↔ P c) (s : String) :
    s.toUTF8.toList.all p = true ↔ ∀ c ∈ s.toList, P c := by
  simp only [toUTF8_toList, List.all_eq_true, List.forall_mem_flatMap, encoded]

theorem ofNat_encoded {c : Char} (ascii : c.val ≤ 127) : Char.ofNat c.val.toUInt8.toNat = c := by
  have small : c.val.toNat ≤ 127 := ascii
  have same : c.val.toUInt8.toNat = c.toNat := by
    rw [UInt32.toNat_toUInt8]
    exact Nat.mod_eq_of_lt (by omega)
  rw [same, Char.ofNat_toNat]

theorem map_ofNat_encoded {cs : List Char} (ascii : ∀ c ∈ cs, c.val ≤ 127) :
    (cs.flatMap String.utf8EncodeChar).map (fun b => Char.ofNat b.toNat) = cs := by
  induction cs with
  | nil => rfl
  | cons c cs ih =>
    obtain ⟨first, rest⟩ := List.forall_mem_cons.1 ascii
    rw [List.flatMap_cons, String.utf8EncodeChar_eq_singleton (Char.utf8Size_eq_one_iff.2 first),
      List.singleton_append, List.map_cons, ofNat_encoded first, ih rest]

theorem decodeFrom_ascii {bs : List UInt8} (ascii : ∀ b ∈ bs, b.toNat < 0x80) :
    decodeFrom 0 0 0 0 bs = bs.map fun b => Char.ofNat b.toNat := by
  induction bs with
  | nil => rfl
  | cons b bs ih =>
    obtain ⟨here, later⟩ := List.forall_mem_cons.1 ascii
    have lead : leadOf? b = some (b.toNat, 0, 0, 0) := by
      unfold leadOf?
      exact if_pos here
    rw [decodeFrom, lead, List.map_cons]
    exact congrArg _ (ih later)

end CallGuard.Text
