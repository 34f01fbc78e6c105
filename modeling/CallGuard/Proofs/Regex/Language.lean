import CallGuard.Regex.Basic
import Mathlib

set_option autoImplicit false

namespace CallGuard.Regex

section Search

variable {next : List Nat → List Nat} {r : Nat → Nat → Prop} {size : Nat}

def Times (r : Nat → Nat → Prop) : Nat → Nat → Nat → Prop
  | 0, i, j => j = i
  | n + 1, i, j => ∃ k, r i k ∧ Times r n k j

structure Follows (size : Nat) (next : List Nat → List Nat) (r : Nat → Nat → Prop) : Prop where
  mem_iff : ∀ starts, (∀ i ∈ starts, i ≤ size) →
    ∀ j, j ∈ next starts ↔ ∃ i ∈ starts, r i j
  le_size : ∀ i j, i ≤ size → r i j → j ≤ size

-- Only the frontier may lead to something new.
structure Explored (size : Nat) (r : Nat → Nat → Prop) (found frontier : List Nat) : Prop where
  le_size : ∀ i ∈ found, i ≤ size
  subset : ∀ i ∈ frontier, i ∈ found
  closed : ∀ i ∈ found, i ∉ frontier → ∀ j, r i j → j ∈ found

theorem Follows.next_le (step : Follows size next r) {starts : List Nat}
    (within : ∀ i ∈ starts, i ≤ size) : ∀ j ∈ next starts, j ≤ size := by
  intro j member
  obtain ⟨i, started, leads⟩ := (step.mem_iff starts within j).1 member
  exact step.le_size i j (within i started) leads

def missing (size : Nat) (found : List Nat) : Finset Nat :=
  (Finset.range (size + 1)).filter (· ∉ found)

def fresh (next : List Nat → List Nat) (found frontier : List Nat) : List Nat :=
  ((next frontier).filter fun i => !found.contains i).eraseDups

theorem closure_succ (next : List Nat → List Nat) (fuel : Nat) (found frontier : List Nat) :
    closure next (fuel + 1) found frontier =
      if (fresh next found frontier).isEmpty then found
      else closure next fuel (found ++ fresh next found frontier) (fresh next found frontier) :=
  rfl

theorem mem_fresh {found frontier : List Nat} {j : Nat} :
    j ∈ fresh next found frontier ↔ j ∈ next frontier ∧ j ∉ found := by
  simp [fresh]

theorem mem_of_star {found : List Nat} (closed : ∀ i ∈ found, ∀ j, r i j → j ∈ found) (j : Nat) :
    j ∈ found ↔ ∃ i ∈ found, Relation.ReflTransGen r i j := by
  constructor
  · exact fun member => ⟨j, member, .refl⟩
  · rintro ⟨i, member, path⟩
    induction path with
    | refl => exact member
    | tail _ leads ih => exact closed _ ih _ leads

namespace Explored

variable {found frontier : List Nat}

theorem closed_of_nothing_fresh (step : Follows size next r)
    (explored : Explored size r found frontier) (nothing : ∀ j ∈ next frontier, j ∈ found) :
    ∀ i ∈ found, ∀ j, r i j → j ∈ found := by
  intro i member j leads
  by_cases atFrontier : i ∈ frontier
  · have within i (h : i ∈ frontier) := explored.le_size i (explored.subset i h)
    exact nothing j ((step.mem_iff frontier within j).2 ⟨i, atFrontier, leads⟩)
  · exact explored.closed i member atFrontier j leads

theorem round (step : Follows size next r) (explored : Explored size r found frontier) :
    Explored size r (found ++ fresh next found frontier) (fresh next found frontier) where
  le_size i member := by
    cases List.mem_append.1 member with
    | inl old => exact explored.le_size i old
    | inr new =>
      have within i (h : i ∈ frontier) := explored.le_size i (explored.subset i h)
      exact step.next_le within i (mem_fresh.1 new).1
  subset i member := List.mem_append_right _ member
  closed i member notFresh j leads := by
    have old : i ∈ found := (List.mem_append.1 member).resolve_right notFresh
    have within i (h : i ∈ frontier) := explored.le_size i (explored.subset i h)
    by_cases atFrontier : i ∈ frontier
    · by_cases known : j ∈ found
      · exact List.mem_append_left _ known
      · have reached := (step.mem_iff frontier within j).2 ⟨i, atFrontier, leads⟩
        exact List.mem_append_right _ (mem_fresh.2 ⟨reached, known⟩)
    · exact List.mem_append_left _ (explored.closed i old atFrontier j leads)

theorem missing_round (step : Follows size next r) (explored : Explored size r found frontier)
    {j : Nat} (new : j ∈ fresh next found frontier) :
    (missing size (found ++ fresh next found frontier)).card < (missing size found).card := by
  have within i (h : i ∈ frontier) := explored.le_size i (explored.subset i h)
  have inside : j ≤ size := step.next_le within j (mem_fresh.1 new).1
  apply Finset.card_lt_card
  apply (Finset.ssubset_iff_of_subset _).2
  · refine ⟨j, ?_, ?_⟩
    · simp [missing, (mem_fresh.1 new).2]
      omega
    · simp [missing, new]
  · intro i member
    simp only [missing, List.mem_append, not_or, Finset.mem_filter] at member ⊢
    exact ⟨member.1, member.2.1⟩

theorem star_round (step : Follows size next r) (explored : Explored size r found frontier)
    (j : Nat) :
    (∃ i ∈ found ++ fresh next found frontier, Relation.ReflTransGen r i j) ↔
      ∃ i ∈ found, Relation.ReflTransGen r i j := by
  constructor
  · rintro ⟨i, member, path⟩
    cases List.mem_append.1 member with
    | inl old => exact ⟨i, old, path⟩
    | inr new =>
      have within i (h : i ∈ frontier) := explored.le_size i (explored.subset i h)
      obtain ⟨k, atFrontier, leads⟩ := (step.mem_iff frontier within i).1 (mem_fresh.1 new).1
      exact ⟨k, explored.subset k atFrontier, .head leads path⟩
  · rintro ⟨i, member, path⟩
    exact ⟨i, List.mem_append_left _ member, path⟩

theorem mem_closure (step : Follows size next r) {fuel : Nat}
    (explored : Explored size r found frontier) (enough : (missing size found).card ≤ fuel)
    (j : Nat) :
    j ∈ closure next fuel found frontier ↔ ∃ i ∈ found, Relation.ReflTransGen r i j := by
  induction fuel generalizing found frontier with
  | zero =>
    have all : ∀ i ≤ size, i ∈ found := by
      intro i inside
      by_contra absent
      have member : i ∈ missing size found := by
        simp [missing, absent]
        omega
      rw [Finset.card_eq_zero.1 (Nat.le_zero.1 enough)] at member
      cases member
    apply mem_of_star
    exact fun i member j leads => all j (step.le_size i j (explored.le_size i member) leads)
  | succ fuel ih =>
    rw [closure_succ]
    by_cases none : fresh next found frontier = []
    · rw [if_pos (by simp [none])]
      apply mem_of_star
      apply explored.closed_of_nothing_fresh step
      intro j reached
      by_contra unknown
      have new : j ∈ fresh next found frontier := mem_fresh.2 ⟨reached, unknown⟩
      rw [none] at new
      cases new
    · obtain ⟨k, new⟩ := List.exists_mem_of_ne_nil _ none
      have fewer := explored.missing_round step new
      rw [if_neg (by simp [none]), ih (explored.round step) (by omega), explored.star_round step]

end Explored

theorem mem_closure (step : Follows size next r) {starts : List Nat}
    (within : ∀ i ∈ starts, i ≤ size) (j : Nat) :
    j ∈ closure next (size + 1) starts starts ↔
      ∃ i ∈ starts, Relation.ReflTransGen r i j := by
  apply Explored.mem_closure step ⟨within, fun _ h => h, fun _ h absent => absurd h absent⟩
  calc (missing size starts).card ≤ (Finset.range (size + 1)).card := Finset.card_filter_le _ _
    _ = size + 1 := Finset.card_range _

theorem mem_iterate (step : Follows size next r) (n : Nat) {starts : List Nat}
    (within : ∀ i ∈ starts, i ≤ size) (j : Nat) :
    j ∈ iterate next n starts ↔ ∃ i ∈ starts, Times r n i j := by
  induction n generalizing starts with
  | zero => simp [iterate, Times]
  | succ n ih =>
    simp only [iterate, Times]
    by_cases none : starts = []
    · simp [none]
    · rw [if_neg (by simp [none]), ih (step.next_le within)]
      simp only [step.mem_iff starts within]
      constructor
      · rintro ⟨k, ⟨i, member, leads⟩, path⟩
        exact ⟨i, member, k, leads, path⟩
      · rintro ⟨i, member, k, leads, path⟩
        exact ⟨k, ⟨i, member, leads⟩, path⟩

theorem mem_upTo (step : Follows size next r) (n : Nat) {starts : List Nat}
    (within : ∀ i ∈ starts, i ≤ size) (j : Nat) :
    j ∈ upTo next n starts ↔ ∃ i ∈ starts, ∃ m ≤ n, Times r m i j := by
  induction n generalizing starts with
  | zero => simp [upTo, Times]
  | succ n ih =>
    simp only [upTo]
    by_cases none : starts = []
    · simp [none]
    · rw [if_neg (by simp [none]), List.mem_eraseDups, List.mem_append,
        ih (step.next_le within)]
      simp only [step.mem_iff starts within]
      constructor
      · rintro (member | ⟨k, ⟨i, member, leads⟩, m, few, path⟩)
        · exact ⟨j, member, 0, Nat.zero_le _, rfl⟩
        · exact ⟨i, member, m + 1, Nat.succ_le_succ few, k, leads, path⟩
      · rintro ⟨i, member, m, few, path⟩
        cases m with
        | zero => exact .inl (path ▸ member)
        | succ m =>
          obtain ⟨k, leads, path⟩ := path
          exact .inr ⟨k, ⟨i, member, leads⟩, m, Nat.le_of_succ_le_succ few, path⟩

theorem Times.le_size (step : ∀ i j, i ≤ size → r i j → j ≤ size) {n i j : Nat}
    (inside : i ≤ size) (path : Times r n i j) : j ≤ size := by
  induction n generalizing i with
  | zero => exact path ▸ inside
  | succ n ih =>
    obtain ⟨k, leads, path⟩ := path
    exact ih (step i k inside leads) path

theorem star_le_size (step : ∀ i j, i ≤ size → r i j → j ≤ size) {i j : Nat} (inside : i ≤ size)
    (path : Relation.ReflTransGen r i j) : j ≤ size := by
  induction path with
  | refl => exact inside
  | tail _ leads ih => exact step _ _ ih leads

end Search

namespace Expr

def Leads (text : Array Char) : Expr → Nat → Nat → Prop
  | empty, i, j => j = i
  | chars set, i, j => ∃ c, text[i]? = some c ∧ set.contains c = true ∧ j = i + 1
  | anchor a, i, j => a.holds text i = true ∧ j = i
  | seq a b, i, j => ∃ k, a.Leads text i k ∧ b.Leads text k j
  | alt a b, i, j => a.Leads text i j ∨ b.Leads text i j
  | star a, i, j => Relation.ReflTransGen (a.Leads text) i j
  | counted a least none, i, j =>
    ∃ k, Times (a.Leads text) least i k ∧ Relation.ReflTransGen (a.Leads text) k j
  | counted a least (some most), i, j =>
    ∃ k, Times (a.Leads text) least i k ∧ ∃ m ≤ most - least, Times (a.Leads text) m k j

variable {text : Array Char}

theorem Leads.le_size {e : Expr} {i j : Nat} (inside : i ≤ text.size) (leads : e.Leads text i j) :
    j ≤ text.size := by
  induction e generalizing i j with
  | empty => exact leads ▸ inside
  | chars set =>
    obtain ⟨c, present, -, rfl⟩ := leads
    obtain ⟨within, -⟩ := Array.getElem?_eq_some_iff.1 present
    exact within
  | anchor a => exact leads.2 ▸ inside
  | seq a b iha ihb =>
    obtain ⟨k, first, second⟩ := leads
    exact ihb (iha inside first) second
  | alt a b iha ihb =>
    cases leads with
    | inl first => exact iha inside first
    | inr second => exact ihb inside second
  | star a ih => exact star_le_size (fun _ _ => ih) inside leads
  | counted a least most ih =>
    have step : ∀ i j, i ≤ text.size → a.Leads text i j → j ≤ text.size := fun _ _ => ih
    cases most with
    | none =>
      obtain ⟨k, first, path⟩ := leads
      exact star_le_size step (first.le_size step inside) path
    | some most =>
      obtain ⟨k, first, m, -, path⟩ := leads
      exact path.le_size step (first.le_size step inside)

theorem follows (text : Array Char) (e : Expr) :
    Follows text.size (e.reach text) (e.Leads text) where
  le_size _ _ := Leads.le_size
  mem_iff := by
    induction e with
    | empty =>
      intro starts within j
      simp only [reach, Leads]
      constructor
      · exact fun member => ⟨j, member, rfl⟩
      · rintro ⟨i, member, rfl⟩
        exact member
    | chars set =>
      intro starts within j
      simp only [reach, List.mem_filterMap, Leads]
      apply exists_congr
      intro i
      cases text[i]? with
      | none => simp
      | some c => by_cases member : set.contains c = true <;> simp [member, @eq_comm Nat j]
    | anchor a =>
      intro starts within j
      simp only [reach, List.mem_filter, Leads]
      constructor
      · exact fun ⟨member, holds⟩ => ⟨j, member, holds, rfl⟩
      · rintro ⟨i, member, holds, rfl⟩
        exact ⟨member, holds⟩
    | seq a b iha ihb =>
      intro starts within j
      have first : Follows text.size (a.reach text) (a.Leads text) :=
        ⟨iha, fun _ _ => Leads.le_size⟩
      simp only [reach, Leads, ihb _ (first.next_le within), iha starts within]
      constructor
      · rintro ⟨k, ⟨i, member, leads⟩, then_⟩
        exact ⟨i, member, k, leads, then_⟩
      · rintro ⟨i, member, k, leads, then_⟩
        exact ⟨k, ⟨i, member, leads⟩, then_⟩
    | alt a b iha ihb =>
      intro starts within j
      simp only [reach, Leads, List.mem_eraseDups, List.mem_append, iha starts within,
        ihb starts within, and_or_left, exists_or]
    | star a ih => exact fun starts within => mem_closure ⟨ih, fun _ _ => Leads.le_size⟩ within
    | counted a least most ih =>
      intro starts within j
      have step : Follows text.size (a.reach text) (a.Leads text) := ⟨ih, fun _ _ => Leads.le_size⟩
      have first := mem_iterate step least within
      have inside : ∀ k ∈ iterate (a.reach text) least starts, k ≤ text.size := by
        intro k member
        obtain ⟨i, started, path⟩ := (first k).1 member
        exact path.le_size step.le_size (within i started)
      cases most with
      | none =>
        simp only [reach, Leads, mem_closure step inside, first]
        constructor
        · rintro ⟨k, ⟨i, member, path⟩, more⟩
          exact ⟨i, member, k, path, more⟩
        · rintro ⟨i, member, k, path, more⟩
          exact ⟨k, ⟨i, member, path⟩, more⟩
      | some most =>
        simp only [reach, Leads, mem_upTo step _ inside, first]
        constructor
        · rintro ⟨k, ⟨i, member, path⟩, more⟩
          exact ⟨i, member, k, path, more⟩
        · rintro ⟨i, member, k, path, more⟩
          exact ⟨k, ⟨i, member, path⟩, more⟩

theorem isMatch_iff (e : Expr) (text : String) :
    e.isMatch text = true ↔
      ∃ i ≤ text.toList.length, ∃ j, e.Leads text.toList.toArray i j := by
  have within : ∀ i ∈ List.range (text.toList.toArray.size + 1), i ≤ text.toList.toArray.size :=
    fun i member => Nat.le_of_lt_succ (List.mem_range.1 member)
  have found := (follows text.toList.toArray e).mem_iff _ within
  simp only [isMatch, Bool.not_eq_true', List.isEmpty_eq_false_iff_exists_mem]
  constructor
  · rintro ⟨j, member⟩
    obtain ⟨i, started, leads⟩ := (found j).1 member
    exact ⟨i, within i started, j, leads⟩
  · rintro ⟨i, inside, j, leads⟩
    have started : i ∈ List.range (text.toList.toArray.size + 1) :=
      List.mem_range.2 (Nat.lt_succ_of_le inside)
    exact ⟨j, (found j).2 ⟨i, started, leads⟩⟩

theorem chars_iff (set : CharSet) (i j : Nat) :
    (chars set).Leads text i j ↔
      ∃ c, set.contains c = true ∧ j = i + 1 ∧ text.toList.drop i = c :: text.toList.drop j := by
  constructor
  · rintro ⟨c, present, member, rfl⟩
    rw [← Array.getElem?_toList] at present
    obtain ⟨within, rfl⟩ := List.getElem?_eq_some_iff.1 present
    exact ⟨_, member, rfl, List.drop_eq_getElem_cons within⟩
  · rintro ⟨c, member, rfl, rest⟩
    have present : text[i]? = some c := by
      rw [← Array.getElem?_toList, ← List.head?_drop, rest]
      rfl
    exact ⟨c, present, member, rfl⟩

theorem star_chars_iff (set : CharSet) (i j : Nat) :
    (star (chars set)).Leads text i j ↔
      ∃ run, (∀ c ∈ run, set.contains c = true) ∧ j = i + run.length ∧
        text.toList.drop i = run ++ text.toList.drop j := by
  constructor
  · intro path
    induction path using Relation.ReflTransGen.head_induction_on with
    | refl => exact ⟨[], by simp⟩
    | head first _ ih =>
      obtain ⟨c, member, rfl, rest⟩ := (chars_iff set _ _).1 first
      obtain ⟨run, all, rfl, later⟩ := ih
      refine ⟨c :: run, List.forall_mem_cons.2 ⟨member, all⟩, ?_, ?_⟩
      · rw [List.length_cons]
        omega
      · rw [rest, later, List.cons_append]
  · rintro ⟨run, all, rfl, rest⟩
    induction run generalizing i with
    | nil => exact .refl
    | cons c run ih =>
      obtain ⟨member, all⟩ := List.forall_mem_cons.1 all
      have length : i + (c :: run).length = i + 1 + run.length := by
        rw [List.length_cons]
        omega
      rw [length] at rest ⊢
      have later : text.toList.drop (i + 1) = run ++ text.toList.drop (i + 1 + run.length) := by
        rw [← List.drop_drop, rest]
        rfl
      have first : (chars set).Leads text i (i + 1) :=
        (chars_iff set _ _).2 ⟨c, member, rfl, by rw [rest, later, List.cons_append]⟩
      exact .head first (ih (i + 1) all later)

end Expr

end CallGuard.Regex
