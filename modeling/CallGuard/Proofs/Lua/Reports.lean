import CallGuard.Lua.Evaluator
import CallGuard.Proofs.Lua.Lexing
import Mathlib

set_option autoImplicit false

namespace CallGuard

namespace Text

variable {α : Type} [DecidableEq α] {needle cs : List α}

theorem subset_of_occursIn (occurs : occursIn needle cs = true) : needle ⊆ cs := by
  induction cs with
  | nil =>
    have empty : needle = [] := List.isEmpty_iff.1 occurs
    rw [empty]
    exact List.nil_subset _
  | cons c cs ih =>
    rcases Bool.or_eq_true_iff.1 occurs with starts | later
    · exact ((startsWith_iff needle (c :: cs)).1 starts).subset
    · exact List.subset_cons_of_subset c (ih later)

end Text

namespace Lua

def hexLetters : List Char := "0123456789abcdef".toList

theorem toDigits_hex (n : Nat) : Nat.toDigits 16 n ⊆ hexLetters := by
  have letter : ∀ d < 16, Nat.digitChar d ∈ hexLetters := by decide
  induction n using Nat.strongRecOn with
  | _ n ih =>
    rw [Nat.toDigits_eq_if (by decide)]
    split
    · next small => exact List.cons_subset.2 ⟨letter n small, List.nil_subset _⟩
    · refine List.append_subset.2 ⟨ih (n / 16) (by omega), ?_⟩
      exact List.cons_subset.2 ⟨letter _ (Nat.mod_lt n (by decide)), List.nil_subset _⟩

def placeLetters : List Char := "table: 0x".toList ++ hexLetters

theorem addressText_letters (id : TableId) : (addressText "table" id).toList ⊆ placeLetters := by
  have kind : "table".toList ⊆ placeLetters := by decide
  have mark : ": 0x".toList ⊆ placeLetters := by decide
  have zero : '0' ∈ placeLetters := by decide
  intro c member
  simp only [addressText, String.toList_append, String.toList_ofList, List.mem_append,
    List.mem_replicate] at member
  rcases member with ((first | next) | ⟨-, rfl⟩) | digit
  · exact kind first
  · exact mark next
  · exact zero
  · exact List.mem_append_right _ (toDigits_hex _ digit)

theorem mem_ofText {s : String} {b : UInt8} (member : b ∈ (Bytes.ofText s).toList) :
    ∃ c ∈ s.toList, b ∈ String.utf8EncodeChar c := by
  rw [Bytes.ofText, Text.toUTF8_toList] at member
  exact List.mem_flatMap.1 member

theorem display_letters (id : TableId) : ∀ b ∈ (Value.table id).display.toList,
    b.toNat < 0x80 ∧ Char.ofNat b.toNat ∈ placeLetters := by
  have ascii : ∀ c ∈ placeLetters, c.utf8Size = 1 ∧ c.val.toUInt8.toNat < 0x80 ∧
      Char.ofNat c.val.toUInt8.toNat = c := Rules.forall_chars (by decide +kernel)
  intro b member
  obtain ⟨c, shown, encoded⟩ := mem_ofText member
  have listed := addressText_letters id shown
  obtain ⟨small, low, same⟩ := ascii c listed
  rw [String.utf8EncodeChar_eq_singleton small, List.mem_singleton] at encoded
  rw [encoded, same]
  exact ⟨low, listed⟩

theorem reasonOf_table (id : TableId) : reasonOf (Value.table id).display = .elided := by
  -- What is reported has a quotation mark, and this text has none.
  have marked : ∀ part ∈ telling, '\'' ∈ part.toList := by decide
  have unmarked : '\'' ∉ "runtime error: ".toList ++ placeLetters := by decide
  unfold reasonOf
  generalize cut : (Value.table id).display.toList.takeWhile _ = line
  have inside : ∀ b ∈ line, b.toNat < 0x80 ∧ Char.ofNat b.toNat ∈ placeLetters := by
    intro b member
    rw [← cut] at member
    exact display_letters id b (List.takeWhile_subset _ member)
  have decoded : (Text.decodeLossy line).toList = line.map fun b => Char.ofNat b.toNat :=
    String.toList_ofList.trans (Text.decodeFrom_ascii fun b member => (inside b member).1)
  have shown : ("runtime error: " ++ Text.decodeLossy line).toList ⊆
      "runtime error: ".toList ++ placeLetters := by
    rw [String.toList_append, decoded]
    refine List.append_subset.2 ⟨List.subset_append_left _ _, fun c member => ?_⟩
    obtain ⟨b, listed, rfl⟩ := List.mem_map.1 member
    exact List.mem_append_right _ (inside b listed).2
  refine if_neg fun tells => ?_
  obtain ⟨part, listed, occurs⟩ := List.any_eq_true.1 tells
  exact unmarked (shown (Text.subset_of_occursIn occurs (marked part listed)))

end Lua

end CallGuard
