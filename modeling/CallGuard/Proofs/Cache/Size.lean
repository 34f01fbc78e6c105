import CallGuard.Proofs.CacheCoherence
import Mathlib.Algebra.GroupWithZero.Nat

set_option autoImplicit false

namespace CallGuard.ProgramCache

variable {P : Type}

theorem sum_set_succ (counts : List Nat) (i : Nat) (within : i < counts.length) :
    (counts.set i (counts[i]! + 1)).sum = counts.sum + 1 := by
  induction counts generalizing i with
  | nil => simp at within
  | cons n rest ih =>
    cases i with
    | zero =>
      simp only [List.set_cons_zero, List.getElem!_cons_zero, List.sum_cons]
      omega
    | succ i =>
      have later := ih i (by simpa using within)
      simp only [List.set_cons_succ, List.getElem!_cons_succ, List.sum_cons, later]
      omega

theorem sum_take_set_succ (counts : List Nat) (i k : Nat) :
    (counts.take k).sum ≤ ((counts.set i (counts[i]! + 1)).take k).sum := by
  induction counts generalizing i k with
  | nil => simp
  | cons n rest ih =>
    cases k with
    | zero => simp
    | succ k =>
      cases i with
      | zero => simp
      | succ i =>
        have later := ih i k
        simp only [List.set_cons_succ, List.getElem!_cons_succ, List.take_succ_cons, List.sum_cons]
        omega

def lengths (c : ProgramCache P) : List Nat := c.shards.toList.map List.length

def sizeUpTo (c : ProgramCache P) (k : Nat) : Nat := (c.lengths.take k).sum

@[simp] theorem length_lengths (c : ProgramCache P) : c.lengths.length = shardCount := by
  simp [lengths]

theorem take_lengths (c : ProgramCache P) : c.lengths.take shardCount = c.lengths :=
  List.take_of_length_le (by simp)

theorem sizeUpTo_all (c : ProgramCache P) : c.sizeUpTo shardCount = c.size := by
  rw [sizeUpTo, take_lengths, size, lengths, List.sum_eq_foldl, List.foldl_map]

theorem sizeUpTo_succ (c : ProgramCache P) (k : Nat) (within : k < shardCount) :
    c.sizeUpTo (k + 1) = c.sizeUpTo k + c.shards[k].length := by
  have here : k < c.lengths.length := by simpa using within
  rw [sizeUpTo, List.take_succ_eq_append_getElem here, List.sum_append, List.sum_singleton]
  simp [sizeUpTo, lengths]

theorem filter_eq_self (entries : List (String × P)) (text : String)
    (absent : entries.lookup text = none) : (entries.filter fun e => e.1 != text) = entries := by
  rw [List.filter_eq_self]
  intro e member
  have differs := List.lookup_eq_none_iff.1 absent e member
  simp only [bne_iff_ne, ne_eq]
  rintro rfl
  simp at differs

theorem lengths_store (c : ProgramCache P) (text : String) (program : P)
    (absent : c.get? text = none) :
    (c.store text program).lengths =
      c.lengths.set (c.shardOf text) (c.lengths[(c.shardOf text : Nat)]! + 1) := by
  have kept := filter_eq_self (c.shards.get (c.shardOf text)) text absent
  have here : c.lengths[(c.shardOf text : Nat)]! = (c.shards.get (c.shardOf text)).length := by
    simp [lengths, Vector.get]
  rw [here, lengths, store, kept]
  simp [lengths, Vector.toList_set, List.map_set]

theorem size_store (c : ProgramCache P) (text : String) (program : P)
    (absent : c.get? text = none) : (c.store text program).size = c.size + 1 := by
  have within : (c.shardOf text : Nat) < c.lengths.length := by simp
  have summed := sum_set_succ c.lengths (c.shardOf text) within
  rw [← sizeUpTo_all, ← sizeUpTo_all, sizeUpTo, sizeUpTo, take_lengths, take_lengths,
    lengths_store c text program absent, summed]

theorem stats_store {c : ProgramCache P} {text : String} (absent : c.get? text = none)
    (program : P) : (c.countCompile.store text program).stats =
      ⟨c.stats.entries + 1, c.stats.compiles + 1, c.stats.hits⟩ := by
  have grown : (c.countCompile.store text program).size = c.size + 1 :=
    size_store c.countCompile text program absent
  rw [stats, grown]
  rfl

theorem sizeUpTo_store (c : ProgramCache P) (text : String) (program : P)
    (absent : c.get? text = none) (k : Nat) :
    c.sizeUpTo k ≤ (c.store text program).sizeUpTo k := by
  rw [sizeUpTo, sizeUpTo, lengths_store c text program absent]
  exact sum_take_set_succ c.lengths (c.shardOf text) k

theorem size_empty (shardOf : Sharding) : (empty shardOf : ProgramCache P).size = 0 := by
  rw [← sizeUpTo_all, sizeUpTo, lengths, empty, Vector.toList_replicate, List.map_replicate]
  simp

end CallGuard.ProgramCache
