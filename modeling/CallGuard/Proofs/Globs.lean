import CallGuard.Proofs.Regex.Language
import CallGuard.Selector

set_option autoImplicit false

namespace CallGuard

namespace Text

variable {old new xs : List Char}

theorem replaceFrom_passing (passed : List Char) :
    replaceFrom old new passed.length (passed ++ xs) = replaceAll old new xs := by
  induction passed with
  | nil => rfl
  | cons c passed ih => exact ih

theorem replaceAll_found (found : old ≠ []) :
    replaceAll old new (old ++ xs) = new ++ replaceAll old new xs := by
  cases old with
  | nil => contradiction
  | cons c rest =>
    have starts : startsWith (c :: rest) (c :: (rest ++ xs)) = true :=
      (startsWith_iff _ _).2 (List.prefix_append (c :: rest) xs)
    simp only [replaceAll, List.cons_append, replaceFrom, starts, if_true, List.length_cons,
      Nat.add_sub_cancel, replaceFrom_passing]

theorem replaceAll_other {c : Char} (other : ¬ old <+: c :: xs) :
    replaceAll old new (c :: xs) = c :: replaceAll old new xs := by
  have differs : startsWith old (c :: xs) = false := by
    rw [Bool.eq_false_iff, ne_eq, startsWith_iff]
    exact other
  simp only [replaceAll, replaceFrom, differs, Bool.false_eq_true, if_false]

end Text

namespace Glob

open Regex.Reader (isMeta)

def escaped (c : Char) : List Char := if isMeta c then ['\\', c] else [c]

def Item.halfway : Item → List Char
  | anyRun => ['.', '*']
  | segmentRun => ['\\', '*']
  | char c => escaped c

def Item.pattern : Item → List Char
  | anyRun => ['.', '*']
  | segmentRun => ['[', '^', '/', ']', '*']
  | char c => escaped c

theorem star_not_mem_items (cs : List Char) : .char '*' ∉ items cs := by
  induction cs using items.induct with
  | case1 => simp [items]
  | case2 rest ih => simpa [items] using ih
  | case3 rest _ ih => simpa [items] using ih
  | case4 c rest _ other ih =>
    have differs : ¬ '*' = c := fun same => other same.symm
    simp [items, differs, ih]

def Starless (cs : List Char) : Prop := ∀ rest, cs ≠ '*' :: rest

theorem starless_escaped (c : Char) (rest : List Char) : Starless (escaped c ++ rest) := by
  intro rest same
  unfold escaped at same
  split at same
  next special => simp at same
  next plain =>
    simp only [List.singleton_append, List.cons.injEq] at same
    rw [same.1] at plain
    exact plain (by decide)

theorem starless_escape (cs : List Char) : Starless (escape cs) := by
  cases cs with
  | nil => intro rest same; cases same
  | cons c cs => exact starless_escaped c _

theorem starless_halfway (is : List Item) : Starless (is.flatMap Item.halfway) := by
  cases is with
  | nil => intro rest same; cases same
  | cons i is =>
    cases i with
    | anyRun => intro rest same; simp [Item.halfway] at same
    | segmentRun => intro rest same; simp [Item.halfway] at same
    | char c => exact starless_escaped c _

variable {new more rest : List Char}

theorem replaceAll_escaped {c : Char} (other : c ≠ '*') (follow : Starless rest) :
    Text.replaceAll ('\\' :: '*' :: more) new (escaped c ++ rest) =
      escaped c ++ Text.replaceAll ('\\' :: '*' :: more) new rest := by
  have alone : ¬ ('\\' :: '*' :: more) <+: c :: rest := by
    rintro ⟨tail, same⟩
    simp only [List.cons_append, List.cons.injEq] at same
    exact follow _ same.2.symm
  unfold escaped
  split
  next special =>
    have notHere : ¬ ('\\' :: '*' :: more) <+: '\\' :: c :: rest := by
      simp [List.cons_prefix_cons, other.symm]
    rw [List.cons_append, List.singleton_append, Text.replaceAll_other notHere,
      Text.replaceAll_other alone]
    rfl
  next plain => exact Text.replaceAll_other alone

theorem replaceAll_pairs (cs : List Char) :
    Text.replaceAll ['\\', '*', '\\', '*'] ['.', '*'] (escape cs) =
      (items cs).flatMap Item.halfway := by
  induction cs using items.induct with
  | case1 => rfl
  | case2 rest ih =>
    have found : escape ('*' :: '*' :: rest) = ['\\', '*', '\\', '*'] ++ escape rest := rfl
    rw [found, Text.replaceAll_found (by simp), ih]
    rfl
  | case3 rest single ih =>
    have first : escape ('*' :: rest) = '\\' :: '*' :: escape rest := rfl
    have second : ¬ ['\\', '*'] <+: escape rest := by
      rintro ⟨tail, same⟩
      cases rest with
      | nil => cases same
      | cons c rest =>
        have other : c ≠ '*' := fun star => single rest (by rw [star])
        have start : escape (c :: rest) = escaped c ++ escape rest := rfl
        rw [start, escaped] at same
        split at same
        next special => simp [other.symm] at same
        next plain =>
          simp only [List.cons_append, List.nil_append, List.cons.injEq] at same
          rw [← same.1] at plain
          exact plain (by decide)
    have notHere : ¬ ['\\', '*', '\\', '*'] <+: '\\' :: '*' :: escape rest := by
      simpa [List.cons_prefix_cons] using second
    have alone : ¬ ['\\', '*', '\\', '*'] <+: '*' :: escape rest := by
      simp [List.cons_prefix_cons]
    have item : items ('*' :: rest) = .segmentRun :: items rest := by
      rw [items]
      exact single
    rw [first, Text.replaceAll_other notHere, Text.replaceAll_other alone, ih, item]
    rfl
  | case4 c rest _ other ih =>
    have start : escape (c :: rest) = escaped c ++ escape rest := rfl
    have item : items (c :: rest) = .char c :: items rest := by simp [items]
    rw [start, replaceAll_escaped other (starless_escape rest), ih, item]
    rfl

theorem replaceAll_stars (is : List Item) (starless : .char '*' ∉ is) :
    Text.replaceAll ['\\', '*'] ['[', '^', '/', ']', '*'] (is.flatMap Item.halfway) =
      is.flatMap Item.pattern := by
  induction is with
  | nil => rfl
  | cons i is ih =>
    have rest := ih (fun member => starless (List.mem_cons_of_mem i member))
    rw [List.flatMap_cons, List.flatMap_cons, ← rest]
    cases i with
    | anyRun =>
      have dot : ¬ ['\\', '*'] <+: '.' :: '*' :: is.flatMap Item.halfway := by
        simp [List.cons_prefix_cons]
      have star : ¬ ['\\', '*'] <+: '*' :: is.flatMap Item.halfway := by
        simp [List.cons_prefix_cons]
      exact (Text.replaceAll_other dot).trans (congrArg _ (Text.replaceAll_other star))
    | segmentRun => exact Text.replaceAll_found (by simp)
    | char c =>
      have other : c ≠ '*' := fun same => starless (same ▸ List.mem_cons_self)
      exact replaceAll_escaped other (starless_halfway is)

theorem toList_pattern (glob : String) :
    (pattern glob).toList =
      '^' :: (items glob.toList).flatMap Item.pattern ++ ['$'] := by
  simp only [pattern, String.toList_ofList, replaceAll_pairs,
    replaceAll_stars _ (star_not_mem_items _)]

section Reading

open Regex.Reader
open Regex (Expr CharSet)

variable {names : List (List Char)} {done : List Expr} {fuel : Nat} {rest : List Char}

def plain (names : List (List Char)) : Progress := ⟨.standard, names⟩

theorem escape?_meta {c : Char} (special : isMeta c = true) :
    escape? .standard (c :: rest) = some (.chars (.single c), rest) := by
  simp only [isMeta, List.contains_iff_mem] at special
  revert c
  rw [← List.forall_iff_forall_mem]
  repeat' constructor

theorem sequence?_meta {c : Char} (special : isMeta c = true) :
    sequence? (fuel + 1) (plain names) done ('\\' :: c :: rest) =
      sequence? fuel (plain names) (.chars (.single c) :: done) rest := by
  simp only [sequence?, skipSpace, plain, Regex.Flags.standard, Bool.false_eq_true, if_false]
  rw [show escape? ⟨false, false, false, false, true, false, false⟩ (c :: rest) = _ from
    escape?_meta special]

theorem sequence?_literal {c : Char} (literal : isMeta c = false) :
    sequence? (fuel + 1) (plain names) done (c :: rest) =
      sequence? fuel (plain names) (.chars (.single c) :: done) rest := by
  rw [sequence?]
  simp only [skipSpace, plain, Regex.Flags.standard, Bool.false_eq_true, if_false]
  split <;> rename_i same <;> cases same
  case h_15.refl => rfl
  all_goals exact absurd literal (by decide)

theorem sequence?_escaped (c : Char) :
    sequence? (fuel + 1) (plain names) done (escaped c ++ rest) =
      sequence? fuel (plain names) (.chars (.single c) :: done) rest := by
  unfold escaped
  split
  next special => exact sequence?_meta special
  next other => exact sequence?_literal (Bool.eq_false_iff.2 other)

def Unquestioned (cs : List Char) : Prop := ∀ rest, cs ≠ '?' :: rest

theorem unquestioned_pattern (is : List Item) :
    Unquestioned (is.flatMap Item.pattern ++ ['$']) := by
  intro rest same
  cases is with
  | nil => simp at same
  | cons i is =>
    cases i with
    | anyRun => simp [Item.pattern] at same
    | segmentRun => simp [Item.pattern] at same
    | char c =>
      simp only [List.flatMap_cons, Item.pattern, escaped] at same
      split at same
      next special => simp at same
      next literal =>
        simp only [List.cons_append, List.cons.injEq] at same
        rw [same.1] at literal
        exact literal (by decide)

theorem sequence?_star {e : Expr} (follow : Unquestioned rest) :
    sequence? (fuel + 1) (plain names) (e :: done) ('*' :: rest) =
      sequence? fuel (plain names) (.star e :: done) rest := by
  have whole : dropLazy .standard rest = rest := by
    unfold dropLazy
    split
    next after found => exact absurd found (follow after)
    next => rfl
  simp [sequence?, skipSpace, plain, Regex.Flags.standard] at whole ⊢
  rw [whole]

theorem sequence?_dot :
    sequence? (fuel + 1) (plain names) done ('.' :: rest) =
      sequence? fuel (plain names) (.chars (.compl (.single '\n')) :: done) rest :=
  rfl

theorem sequence?_noSlash :
    sequence? (fuel + 4) (plain names) done ('[' :: '^' :: '/' :: ']' :: rest) =
      sequence? (fuel + 3) (plain names)
        (.chars (.compl (.union .none (.single '/'))) :: done) rest :=
  rfl

theorem sequence?_end :
    sequence? (fuel + 2) (plain names) done ['$'] =
      some (done.foldl (fun e a => .seq a e) (.seq (.anchor .textEnd) .empty), plain names, []) :=
  rfl

theorem sequence?_items (fuel : Nat) (is : List Item) (done : List Expr)
    (enough : 2 * is.length + 4 ≤ fuel) :
    sequence? fuel (plain names) done (is.flatMap Item.pattern ++ ['$']) =
      some (done.foldl (fun e a => .seq a e) (exprOf is), plain names, []) := by
  induction is generalizing fuel done with
  | nil =>
    obtain ⟨fuel, rfl⟩ := Nat.exists_eq_add_of_le' enough
    exact sequence?_end
  | cons i is ih =>
    have follow := unquestioned_pattern is
    obtain ⟨fuel, rfl⟩ : ∃ more, fuel = more + 6 := Nat.exists_eq_add_of_le' (by grind)
    rw [List.length_cons] at enough
    rw [List.flatMap_cons, List.append_assoc]
    cases i with
    | anyRun =>
      have later := ih (fuel + 4) (Item.anyRun.expr :: done) (by omega)
      exact sequence?_dot.trans ((sequence?_star follow).trans later)
    | segmentRun =>
      have later := ih (fuel + 4) (Item.segmentRun.expr :: done) (by omega)
      exact sequence?_noSlash.trans ((sequence?_star follow).trans later)
    | char c =>
      have later := ih (fuel + 5) ((Item.char c).expr :: done) (by omega)
      exact (sequence?_escaped c).trans later

theorem length_le_pattern (is : List Item) : is.length ≤ (is.flatMap Item.pattern).length := by
  induction is with
  | nil => exact Nat.le_refl 0
  | cons i is ih =>
    have something : 1 ≤ i.pattern.length := by
      cases i with
      | anyRun => simp [Item.pattern]
      | segmentRun => simp [Item.pattern]
      | char c =>
        simp only [Item.pattern, escaped]
        split <;> simp
    rw [List.flatMap_cons, List.length_append, List.length_cons]
    omega

theorem sequence?_start :
    sequence? (fuel + 1) (plain names) done ('^' :: rest) =
      sequence? fuel (plain names) (.anchor .textStart :: done) rest :=
  rfl

theorem alternatives?_pattern (names : List (List Char)) (is : List Item)
    (enough : 2 * is.length + 6 ≤ fuel) :
    alternatives? fuel (plain names) ('^' :: is.flatMap Item.pattern ++ ['$']) =
      some (.seq (.anchor .textStart) (exprOf is), plain names, []) := by
  obtain ⟨fuel, rfl⟩ : ∃ more, fuel = more + 2 := Nat.exists_eq_add_of_le' (by omega)
  have whole : sequence? (fuel + 1) (plain names) [] ('^' :: is.flatMap Item.pattern ++ ['$']) =
      some (.seq (.anchor .textStart) (exprOf is), plain names, []) :=
    sequence?_start.trans (sequence?_items _ is _ (by omega))
  rw [alternatives?, whole]

theorem regex?_eq (glob : String) : regex? glob = some (toRegex glob) := by
  have size := length_le_pattern (items glob.toList)
  have enough : 2 * (items glob.toList).length + 6 ≤ 4 * (pattern glob).toList.length + 8 := by
    rw [toList_pattern, List.length_append, List.length_cons]
    omega
  have whole := alternatives?_pattern [] (items glob.toList) enough
  rw [← toList_pattern] at whole
  unfold plain at whole
  change Regex.ofText? _ = _
  unfold Regex.ofText?
  simp only [whole]
  rfl

end Reading

open Regex (Expr CharSet)

def Item.Takes : Item → List Char → Prop
  | anyRun, piece => '\n' ∉ piece
  | segmentRun, piece => '/' ∉ piece
  | char c, piece => piece = [c]

-- The text can be cut into pieces, one for each item.
def Denotes (is : List Item) (text : List Char) : Prop :=
  ∃ pieces, text = pieces.flatten ∧ List.Forall₂ Item.Takes is pieces

theorem denotes_nil (text : List Char) : Denotes [] text ↔ text = [] := by
  simp [Denotes]

theorem denotes_cons (i : Item) (is : List Item) (text : List Char) :
    Denotes (i :: is) text ↔
      ∃ piece rest, i.Takes piece ∧ text = piece ++ rest ∧ Denotes is rest := by
  constructor
  · rintro ⟨pieces, rfl, taken⟩
    obtain ⟨piece, pieces, first, later, rfl⟩ := List.forall₂_cons_left_iff.1 taken
    exact ⟨piece, pieces.flatten, first, rfl, pieces, rfl, later⟩
  · rintro ⟨piece, rest, first, rfl, pieces, rfl, later⟩
    exact ⟨piece :: pieces, rfl, .cons first later⟩

theorem contains_single (c d : Char) : (CharSet.single c).contains d = true ↔ d = c := by
  simp only [CharSet.single, CharSet.contains, Bool.and_eq_true, decide_eq_true_eq]
  constructor
  · intro between
    exact Char.toNat_inj.1 (by omega)
  · rintro rfl
    exact ⟨Nat.le_refl _, Nat.le_refl _⟩

theorem contains_none (c : Char) : CharSet.none.contains c = false := by
  simp only [CharSet.none, CharSet.contains, Bool.and_eq_false_iff, decide_eq_false_iff_not]
  omega

theorem all_ne_iff (c : Char) (run : List Char) : (∀ d ∈ run, d ≠ c) ↔ c ∉ run := by
  constructor
  · exact fun all member => all c member rfl
  · rintro absent d member rfl
    exact absent member

variable (text : Array Char)

theorem leads_item (i : Item) (start stop : Nat) :
    i.expr.Leads text start stop ↔
      ∃ piece, i.Takes piece ∧ stop = start + piece.length ∧
        text.toList.drop start = piece ++ text.toList.drop stop := by
  cases i with
  | anyRun =>
    have taken (run : List Char) :
        (∀ c ∈ run, (CharSet.compl (.single '\n')).contains c = true) ↔ '\n' ∉ run := by
      simp only [CharSet.contains, Bool.not_eq_true', ← Bool.not_eq_true, contains_single]
      exact all_ne_iff '\n' run
    simp only [Item.expr, Expr.star_chars_iff, taken, Item.Takes]
  | segmentRun =>
    have taken (run : List Char) :
        (∀ c ∈ run, (CharSet.compl (.union .none (.single '/'))).contains c = true) ↔
          '/' ∉ run := by
      simp only [CharSet.contains, contains_none, Bool.false_or, Bool.not_eq_true',
        ← Bool.not_eq_true, contains_single]
      exact all_ne_iff '/' run
    simp only [Item.expr, Expr.star_chars_iff, taken, Item.Takes]
  | char c =>
    simp only [Item.expr, Expr.chars_iff, contains_single, Item.Takes, exists_eq_left]
    rfl

theorem leads_exprOf (is : List Item) (start stop : Nat) (inside : start ≤ text.size) :
    (exprOf is).Leads text start stop ↔
      stop = text.size ∧ Denotes is (text.toList.drop start) := by
  induction is generalizing start with
  | nil =>
    have atEnd : text.toList.drop start = [] ↔ start = text.size := by
      rw [List.drop_eq_nil_iff, Array.length_toList]
      omega
    rw [denotes_nil, atEnd]
    constructor
    · rintro ⟨k, ⟨last, rfl⟩, rfl⟩
      have same := beq_iff_eq.1 last
      exact ⟨same, same⟩
    · rintro ⟨rfl, rfl⟩
      exact ⟨text.size, ⟨beq_self_eq_true _, rfl⟩, rfl⟩
  | cons i is ih =>
    rw [denotes_cons]
    constructor
    · rintro ⟨k, first, later⟩
      obtain ⟨last, denoted⟩ := (ih k (first.le_size inside)).1 later
      obtain ⟨piece, taken, -, cut⟩ := (leads_item text i start k).1 first
      exact ⟨last, piece, _, taken, cut, denoted⟩
    · rintro ⟨last, piece, rest, taken, cut, denoted⟩
      have remaining : text.toList.drop (start + piece.length) = rest := by
        rw [← List.drop_drop, cut, List.drop_left]
      have first : i.expr.Leads text start (start + piece.length) :=
        (leads_item text i _ _).2 ⟨piece, taken, rfl, by rw [remaining, cut]⟩
      rw [← remaining] at denoted
      exact ⟨_, first, (ih _ (first.le_size inside)).2 ⟨last, denoted⟩⟩

theorem isMatch_toRegex_iff (glob text : String) :
    (toRegex glob).isMatch text = true ↔ Denotes (items glob.toList) text.toList := by
  have whole := leads_exprOf text.toList.toArray (items glob.toList) 0
  unfold Regex.isMatch
  rw [Expr.isMatch_iff]
  constructor
  · rintro ⟨i, -, j, k, ⟨first, rfl⟩, leads⟩
    obtain rfl : k = 0 := beq_iff_eq.1 first
    exact ((whole j (Nat.zero_le _)).1 leads).2
  · intro denoted
    have leads := (whole _ (Nat.zero_le _)).2 ⟨rfl, denoted⟩
    exact ⟨0, Nat.zero_le _, _, 0, ⟨beq_self_eq_true 0, rfl⟩, leads⟩

theorem build_glob (glob : String) :
    (SelectorConfig.glob glob).build = .ok (.pattern (toRegex glob)) := by
  simp only [SelectorConfig.build, regex?_eq]

theorem glob_denotes (glob : String) :
    ∃ regex, regex? glob = some regex ∧
      (∀ text, regex.isMatch text = true ↔ Denotes (items glob.toList) text.toList) ∧
      ∃ selector, (SelectorConfig.glob glob).build = .ok selector ∧
        ∀ method metadata, selector.isMatch method metadata = true ↔
          Denotes (items glob.toList) method.toList :=
  ⟨toRegex glob, regex?_eq glob, isMatch_toRegex_iff glob, _, build_glob glob,
    fun method _ => isMatch_toRegex_iff glob method⟩

-- An odd star is read behind the pair, and a backslash in front of a star is itself.
example : items "/a***".toList = [.char '/', .char 'a', .anyRun, .segmentRun] := by decide
example : pattern "\\*." = "^\\\\[^/]*\\.$" := by decide

end Glob

end CallGuard
