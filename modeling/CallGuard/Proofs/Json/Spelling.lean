import CallGuard.Json.Printer
import CallGuard.Json.Reader
import Mathlib.Data.List.DropRight

set_option autoImplicit false

namespace CallGuard.Json

open Reader

def Blank (cs : List Char) : Prop := ∀ c ∈ cs, isSpace c = true

inductive CharSpelled : Char → List Char → Prop
  | plain {c : Char} (noQuote : c ≠ '"') (noEscape : c ≠ '\\') (noControl : 0x20 ≤ c.toNat) :
    CharSpelled c [c]
  | escaped {c e : Char} (meaning : escaped? e = some c) : CharSpelled c ['\\', e]
  | unit {n : Nat} {p q r s : Char} (digits : hex4? p q r s = some n)
      (noLeading : isLeading n = false) (noTrailing : isTrailing n = false) :
    CharSpelled (Char.ofNat n) ['\\', 'u', p, q, r, s]
  | pair {n m : Nat} {p q r s t u v w : Char} (first : hex4? p q r s = some n)
      (second : hex4? t u v w = some m) (leading : isLeading n = true)
      (trailing : isTrailing m = true) :
    CharSpelled (Char.ofNat (0x10000 + (n - 0xd800) * 0x400 + (m - 0xdc00)))
      ['\\', 'u', p, q, r, s, '\\', 'u', t, u, v, w]

inductive CharsSpelled : List Char → List Char → Prop
  | nil : CharsSpelled [] []
  | cons {c : Char} {s cs ds : List Char} (head : CharSpelled c cs) (tail : CharsSpelled s ds) :
    CharsSpelled (c :: s) (cs ++ ds)

inductive StringSpelled : String → List Char → Prop
  | mk {s cs start stop : List Char} (before : Blank start) (chars : CharsSpelled s cs)
      (after : Blank stop) :
    StringSpelled (String.ofList s) (start ++ '"' :: (cs ++ '"' :: stop))

mutual

inductive Spelled : Raw → List Char → Prop
  | str {s : String} {cs : List Char} (string : StringSpelled s cs) : Spelled (.str (some s)) cs
  | emptyArr {start gap stop : List Char} (before : Blank start) (between : Blank gap)
      (after : Blank stop) :
    Spelled (.arr []) (start ++ '[' :: (gap ++ ']' :: stop))
  | arr {items : List Raw} {start cs stop : List Char} (before : Blank start)
      (inner : ItemsSpelled items cs) (after : Blank stop) :
    Spelled (.arr items) (start ++ '[' :: (cs ++ ']' :: stop))
  | emptyObj {start gap stop : List Char} (before : Blank start) (between : Blank gap)
      (after : Blank stop) :
    Spelled (.obj []) (start ++ '\x7b' :: (gap ++ '\x7d' :: stop))
  | obj {fields : List (Option String × Raw)} {start cs stop : List Char} (before : Blank start)
      (inner : FieldsSpelled fields cs) (after : Blank stop) :
    Spelled (.obj fields) (start ++ '\x7b' :: (cs ++ '\x7d' :: stop))

inductive ItemsSpelled : List Raw → List Char → Prop
  | last {r : Raw} {cs : List Char} (item : Spelled r cs) : ItemsSpelled [r] cs
  | more {r : Raw} {rs : List Raw} {cs ds : List Char} (item : Spelled r cs)
      (tail : ItemsSpelled rs ds) :
    ItemsSpelled (r :: rs) (cs ++ ',' :: ds)

inductive FieldsSpelled : List (Option String × Raw) → List Char → Prop
  | last {name : String} {r : Raw} {ns cs : List Char} (key : StringSpelled name ns)
      (value : Spelled r cs) :
    FieldsSpelled [(some name, r)] (ns ++ ':' :: cs)
  | more {name : String} {r : Raw} {rest : List (Option String × Raw)} {ns cs ds : List Char}
      (key : StringSpelled name ns) (value : Spelled r cs) (tail : FieldsSpelled rest ds) :
    FieldsSpelled ((some name, r) :: rest) (ns ++ ':' :: (cs ++ ',' :: ds))

end

namespace Reader

theorem skipSpace_append {gap : List Char} (blank : Blank gap) (cs : List Char) :
    skipSpace (gap ++ cs) = skipSpace cs := by
  rw [skipSpace, List.dropWhile_append_of_pos blank]
  rfl

@[simp] theorem skipSpace_cons {c : Char} (solid : isSpace c = false) (cs : List Char) :
    skipSpace (c :: cs) = c :: cs := by
  simp [skipSpace, solid]

@[simp] theorem skipSpace_skipSpace (cs : List Char) :
    skipSpace (skipSpace cs) = skipSpace cs :=
  List.dropWhile_idempotent isSpace cs

theorem pieces_charSpelled {c : Char} {cs : List Char} (spelled : CharSpelled c cs) :
    ∃ ps, (∀ done rest, pieces done (cs ++ rest) = pieces (ps.reverse ++ done) rest) ∧
      ∀ more, joinPieces (ps ++ more) = (joinPieces more).map (c :: ·) := by
  cases spelled with
  | plain noQuote noEscape noControl =>
    refine ⟨[.char c], fun done rest => ?_, fun more => rfl⟩
    simp [pieces, noEscape, Nat.not_lt.2 noControl]
  | @escaped _ e meaning =>
    refine ⟨[.char c], fun done rest => ?_, fun more => rfl⟩
    have single : e ≠ 'u' := by
      rintro rfl
      cases meaning
    simp [pieces, single, meaning]
  | @unit n _ _ _ _ digits noLeading noTrailing =>
    refine ⟨[.unit n], fun done rest => ?_, fun more => ?_⟩
    · simp [pieces, digits]
    · rw [List.singleton_append, joinPieces.eq_def]
      simp [noLeading, noTrailing]
  | @pair n m _ _ _ _ _ _ _ _ first second leading trailing =>
    refine ⟨[.unit n, .unit m], fun done rest => ?_, fun more => ?_⟩
    · simp [pieces, first, second]
    · simp [joinPieces, leading, trailing]

theorem pieces_charsSpelled {s cs : List Char} (spelled : CharsSpelled s cs) :
    ∃ ps, (∀ done rest, pieces done (cs ++ rest) = pieces (ps.reverse ++ done) rest) ∧
      joinPieces ps = some s := by
  induction spelled with
  | nil => exact ⟨[], fun _ _ => rfl, rfl⟩
  | cons head tail ih =>
    obtain ⟨ps, read, joined⟩ := pieces_charSpelled head
    obtain ⟨qs, readMore, joinedMore⟩ := ih
    refine ⟨ps ++ qs, fun done rest => ?_, ?_⟩
    · rw [List.append_assoc, read, readMore, List.reverse_append, List.append_assoc]
    · rw [joined, joinedMore, Option.map_some]

theorem string?_charsSpelled {s cs : List Char} (spelled : CharsSpelled s cs)
    (rest : List Char) :
    string? (cs ++ '"' :: rest) = some (some (String.ofList s), rest) := by
  obtain ⟨ps, read, joined⟩ := pieces_charsSpelled spelled
  simp [string?, read, pieces, joined]

def Opens (c : Char) (cs : List Char) : Prop :=
  isSpace c = false ∧ ∃ ds, ∀ rest, skipSpace (cs ++ rest) = c :: (ds ++ rest)

theorem opens_append {start : List Char} (blank : Blank start) {c : Char}
    (solid : isSpace c = false) (cs : List Char) : Opens c (start ++ c :: cs) :=
  ⟨solid, cs, fun rest => by simp [skipSpace_append blank, solid]⟩

theorem Opens.append {c : Char} {cs : List Char} (opens : Opens c cs) (ds : List Char) :
    Opens c (cs ++ ds) := by
  obtain ⟨solid, body, skipped⟩ := opens
  exact ⟨solid, body ++ ds, fun rest => by simp [List.append_assoc, skipped]⟩

theorem opens_string {s : String} {cs : List Char} (spelled : StringSpelled s cs) :
    Opens '"' cs := by
  obtain ⟨before, chars, after⟩ := spelled
  exact opens_append before rfl _

theorem opens_spelled {r : Raw} {cs : List Char} (spelled : Spelled r cs) :
    ∃ c, c ≠ ']' ∧ Opens c cs := by
  cases spelled with
  | str string => exact ⟨_, by decide, opens_string string⟩
  | emptyArr before _ _ | arr before _ _ | emptyObj before _ _ | obj before _ _ =>
    exact ⟨_, by decide, opens_append before rfl _⟩

theorem opens_items {items : List Raw} {cs : List Char} (spelled : ItemsSpelled items cs) :
    ∃ c, c ≠ ']' ∧ Opens c cs := by
  cases spelled with
  | last item => exact opens_spelled item
  | more item tail =>
    obtain ⟨c, other, opens⟩ := opens_spelled item
    exact ⟨c, other, opens.append _⟩

theorem opens_fields {fields : List (Option String × Raw)} {cs : List Char}
    (spelled : FieldsSpelled fields cs) : Opens '"' cs := by
  cases spelled with
  | last key value | more key value tail => exact (opens_string key).append _

theorem items?_skipSpace (fuel : Nat) (done : List Raw) (cs : List Char) :
    items? fuel done (skipSpace cs) = items? fuel done cs := by
  cases fuel with
  | zero => simp [items?]
  | succ fuel =>
    cases fuel with
    | zero => simp [items?, value?]
    | succ fuel => simp only [items?, value?, skipSpace_skipSpace]

theorem fields?_skipSpace (fuel : Nat) (done : List (Option String × Raw)) (cs : List Char) :
    fields? fuel done (skipSpace cs) = fields? fuel done cs := by
  cases fuel with
  | zero => simp [fields?]
  | succ fuel => simp only [fields?, skipSpace_skipSpace]

def Reads (read : List Char → Option (Raw × List Char)) (r : Raw) (cs : List Char) : Prop :=
  ∀ rest, ∃ left, read (cs ++ rest) = some (r, left) ∧ skipSpace left = skipSpace rest

mutual

theorem reads_spelled {r : Raw} {cs : List Char} (spelled : Spelled r cs) {fuel : Nat}
    (enough : cs.length < fuel) : Reads (value? fuel) r cs := by
  obtain ⟨fuel, rfl⟩ : ∃ n, fuel = n + 1 := ⟨fuel - 1, by omega⟩
  intro rest
  cases spelled with
  | str string =>
    obtain ⟨before, chars, after⟩ := string
    refine ⟨_, ?_, skipSpace_append after rest⟩
    simp [value?, skipSpace_append before, isSpace, string?_charsSpelled chars]
  | emptyArr before between after =>
    refine ⟨_, ?_, skipSpace_append after rest⟩
    simp [value?, skipSpace_append before, skipSpace_append between, isSpace]
  | @arr items start inner stop before spelled after =>
    refine ⟨_, ?_, skipSpace_append after rest⟩
    obtain ⟨c, other, -, body, skipped⟩ := opens_items spelled
    have fits : inner.length + 1 < fuel := by
      simp only [List.length_append, List.length_cons] at enough
      omega
    have read := reads_items spelled fits [] (stop ++ rest)
    rw [← items?_skipSpace, skipped] at read
    simp [value?, skipSpace_append before, isSpace, skipped, other, read]
  | emptyObj before between after =>
    refine ⟨_, ?_, skipSpace_append after rest⟩
    simp [value?, skipSpace_append before, skipSpace_append between, isSpace]
  | @obj fields start inner stop before spelled after =>
    refine ⟨_, ?_, skipSpace_append after rest⟩
    obtain ⟨-, body, skipped⟩ := opens_fields spelled
    have fits : inner.length + 1 < fuel := by
      simp only [List.length_append, List.length_cons] at enough
      omega
    have read := reads_fields spelled fits [] (stop ++ rest)
    rw [← fields?_skipSpace, skipped] at read
    simp [value?, skipSpace_append before, isSpace, skipped, read]
termination_by fuel

theorem reads_items {items : List Raw} {cs : List Char} (spelled : ItemsSpelled items cs)
    {fuel : Nat} (enough : cs.length + 1 < fuel) (done : List Raw) (rest : List Char) :
    items? fuel done (cs ++ ']' :: rest) = some (.arr (done.reverse ++ items), rest) := by
  obtain ⟨fuel, rfl⟩ : ∃ n, fuel = n + 1 := ⟨fuel - 1, by omega⟩
  cases spelled with
  | last item =>
    obtain ⟨left, read, same⟩ := reads_spelled item (by omega : _ < fuel) (']' :: rest)
    simp [items?, read, same, isSpace]
  | @more r rs cs ds item tail =>
    simp only [List.length_append, List.length_cons] at enough
    obtain ⟨left, read, same⟩ :=
      reads_spelled item (by omega : _ < fuel) (',' :: (ds ++ ']' :: rest))
    have more := reads_items tail (by omega : _ < fuel) (r :: done) rest
    simp [items?, read, same, isSpace, more]
termination_by fuel

theorem reads_fields {fields : List (Option String × Raw)} {cs : List Char}
    (spelled : FieldsSpelled fields cs) {fuel : Nat} (enough : cs.length + 1 < fuel)
    (done : List (Option String × Raw)) (rest : List Char) :
    fields? fuel done (cs ++ '\x7d' :: rest) = some (.obj (done.reverse ++ fields), rest) := by
  obtain ⟨fuel, rfl⟩ : ∃ n, fuel = n + 1 := ⟨fuel - 1, by omega⟩
  cases spelled with
  | last key value =>
    simp only [List.length_append, List.length_cons] at enough
    obtain ⟨left, read, same⟩ := reads_spelled value (by omega : _ < fuel) ('\x7d' :: rest)
    obtain ⟨before, chars, after⟩ := key
    simp [fields?, skipSpace_append before, string?_charsSpelled chars, skipSpace_append after,
      read, same, isSpace]
  | @more name r fields ns cs ds key value tail =>
    simp only [List.length_append, List.length_cons] at enough
    obtain ⟨left, read, same⟩ :=
      reads_spelled value (by omega : _ < fuel) (',' :: (ds ++ '\x7d' :: rest))
    have more := reads_fields tail (by omega : _ < fuel) ((some name, r) :: done) rest
    obtain ⟨before, chars, after⟩ := key
    simp [fields?, skipSpace_append before, string?_charsSpelled chars, skipSpace_append after,
      read, same, isSpace, more]
termination_by fuel

end

end Reader

theorem Raw.ofText?_of_spelled {r : Raw} {text : String} (spelled : Spelled r text.toList) :
    Raw.ofText? text = some r := by
  obtain ⟨left, read, same⟩ := reads_spelled spelled (Nat.lt_succ_self _) []
  rw [List.append_nil] at read
  have nothing : skipSpace left = [] := same
  simp [ofText?, read, nothing]

theorem hex4?_control : ∀ n < 0x20,
    hex4? '0' '0' (hexDigit (n / 16)) (hexDigit (n % 16)) = some n := by
  decide

theorem charSpelled_escapedChar (c : Char) : CharSpelled c (escapedChar c) := by
  unfold escapedChar
  split
  case h_8 noQuote noEscape _ _ _ _ _ =>
    split
    · next control =>
      have surrogate : isLeading c.toNat = false ∧ isTrailing c.toNat = false := by
        simp only [isLeading, isTrailing, Bool.and_eq_false_iff, decide_eq_false_iff_not]
        omega
      simpa using CharSpelled.unit (hex4?_control c.toNat control) surrogate.1 surrogate.2
    · next printable => exact .plain noQuote noEscape (Nat.not_lt.1 printable)
  all_goals exact .escaped rfl

theorem charsSpelled_flatMap (s : List Char) : CharsSpelled s (s.flatMap escapedChar) := by
  induction s with
  | nil => exact .nil
  | cons c s ih => exact .cons (charSpelled_escapedChar c) ih

theorem blank_nil : Blank [] := by simp [Blank]

theorem stringSpelled_stringText (s : String) : StringSpelled s (stringText s).toList := by
  have spelled := StringSpelled.mk blank_nil (charsSpelled_flatMap s.toList) blank_nil
  rw [String.ofList_toList] at spelled
  simpa [stringText] using spelled

def arrayText (items : List (List Char)) : List Char :=
  '[' :: ([','].intercalate items ++ [']'])

def recordText (fields : List (String × List Char)) : List Char :=
  let texts := fields.map fun (name, value) => (stringText name).toList ++ ':' :: value
  '\x7b' :: ([','].intercalate texts ++ ['\x7d'])

theorem spelled_string (s : String) : Spelled (.str (some s)) (stringText s).toList :=
  .str (stringSpelled_stringText s)

theorem spelled_arrayText {α : Type} (raw : α → Raw) (text : α → List Char) (items : List α)
    (each : ∀ a ∈ items, Spelled (raw a) (text a)) :
    Spelled (.arr (items.map raw)) (arrayText (items.map text)) := by
  have inner : ∀ a rest, (∀ b ∈ a :: rest, Spelled (raw b) (text b)) →
      ItemsSpelled ((a :: rest).map raw) ([','].intercalate ((a :: rest).map text)) := by
    intro a rest each
    induction rest generalizing a with
    | nil => simpa using ItemsSpelled.last (each a (by simp))
    | cons b rest ih =>
      have tail := ih b fun c member => each c (List.mem_cons_of_mem _ member)
      simpa using ItemsSpelled.more (each a (by simp)) tail
  cases items with
  | nil => exact .emptyArr blank_nil blank_nil blank_nil
  | cons a rest => exact .arr blank_nil (inner a rest each) blank_nil

theorem spelled_recordText {α : Type} (name : α → String) (raw : α → Raw)
    (text : α → List Char) (fields : List α) (each : ∀ a ∈ fields, Spelled (raw a) (text a)) :
    Spelled (.obj (fields.map fun a => (some (name a), raw a)))
      (recordText (fields.map fun a => (name a, text a))) := by
  let field (a : α) : List Char := (stringText (name a)).toList ++ ':' :: text a
  have inner : ∀ a rest, (∀ b ∈ a :: rest, Spelled (raw b) (text b)) →
      FieldsSpelled ((a :: rest).map fun a => (some (name a), raw a))
        ([','].intercalate ((a :: rest).map field)) := by
    intro a rest each
    have key := stringSpelled_stringText (name a)
    induction rest generalizing a with
    | nil => simpa using FieldsSpelled.last key (each a (by simp))
    | cons b rest ih =>
      have tail := ih b (fun c member => each c (List.mem_cons_of_mem _ member))
        (stringSpelled_stringText (name b))
      simpa [field] using FieldsSpelled.more key (each a (by simp)) tail
  cases fields with
  | nil => exact .emptyObj blank_nil blank_nil blank_nil
  | cons a rest =>
    have spelled := Spelled.obj blank_nil (inner a rest each) blank_nil
    simpa [recordText, Function.comp_def, field] using spelled

end CallGuard.Json
