import CallGuard.Proofs.Json.Numbers
import CallGuard.Proofs.Json.Paths
import Mathlib

set_option autoImplicit false

namespace CallGuard.Json

open Reader

namespace Raw

theorem hasText_null : HasText .null (Json.text .null).toList := by
  intro fuel rest enough closes
  obtain ⟨fuel, rfl⟩ : ∃ n, fuel = n + 1 := ⟨fuel - 1, by omega⟩
  exact ⟨rest, by simp [Json.text, value?, isSpace], rfl⟩

theorem hasText_bool (b : Bool) : HasText (.bool b) (Json.text (.bool b)).toList := by
  intro fuel rest enough closes
  obtain ⟨fuel, rfl⟩ : ∃ n, fuel = n + 1 := ⟨fuel - 1, by omega⟩
  cases b <;> exact ⟨rest, by simp [Json.text, value?, isSpace], rfl⟩

end Raw

namespace Reader

theorem closes_cons {c : Char} (noDigit : c.isDigit = false) (noPoint : c ≠ '.')
    (noMark : c ≠ 'e' ∧ c ≠ 'E') (rest : List Char) : Closes (c :: rest) := by
  rintro _ ⟨⟩
  exact ⟨noDigit, noPoint, noMark⟩

theorem closes_comma (rest : List Char) : Closes (',' :: rest) :=
  closes_cons rfl (by decide) (by decide) rest

theorem closes_bracket (rest : List Char) : Closes (']' :: rest) :=
  closes_cons rfl (by decide) (by decide) rest

theorem closes_brace (rest : List Char) : Closes ('\x7d' :: rest) :=
  closes_cons rfl (by decide) (by decide) rest

theorem string?_stringText (s : String) (rest : List Char) :
    ∃ cs, (stringText s).toList ++ rest = '"' :: cs ∧ string? cs = some (some s, rest) := by
  refine ⟨s.toList.flatMap escapedChar ++ '"' :: rest, by simp [stringText], ?_⟩
  have read := string?_charsSpelled (charsSpelled_flatMap s.toList) rest
  rwa [String.ofList_toList] at read

theorem items?_bracket (fuel : Nat) (done : List Raw) (cs : List Char) :
    items? fuel done (']' :: cs) = none := by
  cases fuel with
  | zero => rfl
  | succ fuel =>
    cases fuel with
    | zero => rfl
    | succ fuel => simp [items?, value?, isSpace, number?_eq, negated, unsigned?, takeDigits]

theorem fields?_brace (fuel : Nat) (done : List (Option String × Raw)) (cs : List Char) :
    fields? fuel done ('\x7d' :: cs) = none := by
  cases fuel with
  | zero => rfl
  | succ fuel => simp [fields?, isSpace]

theorem value?_bracket (fuel : Nat) (cs : List Char) :
    value? (fuel + 1) ('[' :: cs) =
      match skipSpace cs with
      | ']' :: rest => some (.arr [], rest)
      | rest => items? fuel [] rest := by
  rw [value?, skipSpace_cons rfl]
  rfl

theorem value?_brace (fuel : Nat) (cs : List Char) :
    value? (fuel + 1) ('\x7b' :: cs) =
      match skipSpace cs with
      | '\x7d' :: rest => some (.obj [], rest)
      | rest => fields? fuel [] rest := by
  rw [value?, skipSpace_cons rfl]
  rfl

theorem intercalate_comma (cs ds : List Char) (rest : List (List Char)) :
    [','].intercalate (cs :: ds :: rest) = cs ++ ',' :: [','].intercalate (ds :: rest) := by
  rw [List.intercalate_cons_cons, List.append_assoc, List.singleton_append]

variable {α : Type} {raw : α → Raw} {text : α → List Char} {name : α → String}

theorem items?_join {a : α} {rest : List α}
    (each : ∀ b ∈ a :: rest, (raw b).HasText (text b)) (done : List Raw) (more : List Char)
    (fuel : Nat) (enough : ([','].intercalate ((a :: rest).map text)).length + 1 < fuel) :
    items? fuel done ([','].intercalate ((a :: rest).map text) ++ ']' :: more) =
      some (.arr (done.reverse ++ (a :: rest).map raw), more) := by
  obtain ⟨fuel, rfl⟩ : ∃ n, fuel = n + 1 := ⟨fuel - 1, by omega⟩
  induction rest generalizing a done fuel with
  | nil =>
    simp only [List.map_cons, List.map_nil, List.intercalate_singleton] at enough ⊢
    obtain ⟨left, read, same⟩ :=
      each a List.mem_cons_self fuel (']' :: more) (by omega) (closes_bracket more)
    simp [items?, read, same, isSpace]
  | cons b rest ih =>
    simp only [List.map_cons, intercalate_comma, List.length_append, List.length_cons,
      List.append_assoc, List.cons_append] at ih enough ⊢
    obtain ⟨fuel, rfl⟩ : ∃ n, fuel = n + 1 := ⟨fuel - 1, by omega⟩
    have later := ih (fun c member => each c (List.mem_cons_of_mem a member)) (raw a :: done) fuel
      (by omega)
    obtain ⟨left, read, same⟩ := each a List.mem_cons_self (fuel + 1)
      (',' :: ([','].intercalate (text b :: rest.map text) ++ ']' :: more)) (by omega)
      (closes_comma _)
    rw [items?, read]
    simp only [same, skipSpace_cons (c := ',') rfl]
    simpa using later

def fieldText (name : String) (value : List Char) : List Char :=
  (stringText name).toList ++ ':' :: value

theorem length_fieldText (name : String) (value : List Char) :
    value.length < (fieldText name value).length := by
  simp only [fieldText, List.length_append, List.length_cons]
  omega

def fieldsAfter? (fuel : Nat) (done : List (Option String × Raw)) :
    List Char → Option (Raw × List Char)
  | ',' :: rest => fields? fuel done rest
  | '\x7d' :: rest => some (.obj done.reverse, rest)
  | _ => none

theorem fields?_cons {r : Raw} {cs rest left : List Char} {fuel : Nat}
    (read : value? fuel (cs ++ rest) = some (r, left)) (same : skipSpace left = skipSpace rest)
    (name : String) (done : List (Option String × Raw)) :
    fields? (fuel + 1) done (fieldText name cs ++ rest) =
      fieldsAfter? fuel ((some name, r) :: done) (skipSpace rest) := by
  obtain ⟨ds, opened, key⟩ := string?_stringText name (':' :: (cs ++ rest))
  rw [fieldText, List.append_assoc, List.cons_append, fields?, opened]
  simp only [skipSpace_cons (c := '"') rfl, skipSpace_cons (c := ':') rfl, key, read, same]
  rfl

theorem fields?_join (name : α → String) {a : α} {rest : List α}
    (each : ∀ b ∈ a :: rest, (raw b).HasText (text b)) (done : List (Option String × Raw))
    (more : List Char) (fuel : Nat)
    (enough : ([','].intercalate ((a :: rest).map fun b => fieldText (name b) (text b))).length + 1
      < fuel) :
    fields? fuel done
        ([','].intercalate ((a :: rest).map fun b => fieldText (name b) (text b)) ++
          '\x7d' :: more) =
      some (.obj (done.reverse ++ (a :: rest).map fun b => (some (name b), raw b)), more) := by
  obtain ⟨fuel, rfl⟩ : ∃ n, fuel = n + 1 := ⟨fuel - 1, by omega⟩
  have short := length_fieldText (name a) (text a)
  induction rest generalizing a done fuel with
  | nil =>
    simp only [List.map_cons, List.map_nil, List.intercalate_singleton] at enough ⊢
    obtain ⟨left, read, same⟩ :=
      each a List.mem_cons_self fuel ('\x7d' :: more) (by omega) (closes_brace more)
    rw [fields?_cons read same, skipSpace_cons rfl]
    simp [fieldsAfter?]
  | cons b rest ih =>
    simp only [List.map_cons, intercalate_comma, List.length_append, List.length_cons,
      List.append_assoc, List.cons_append] at ih enough ⊢
    obtain ⟨fuel, rfl⟩ : ∃ n, fuel = n + 1 := ⟨fuel - 1, by omega⟩
    have later := ih (fun c member => each c (List.mem_cons_of_mem a member))
      ((some (name a), raw a) :: done) fuel (by omega) (length_fieldText (name b) (text b))
    obtain ⟨left, read, same⟩ := each a List.mem_cons_self (fuel + 1) (',' :: ([','].intercalate
      (fieldText (name b) (text b) :: rest.map fun b => fieldText (name b) (text b)) ++
        '\x7d' :: more)) (by omega) (closes_comma _)
    rw [fields?_cons read same, skipSpace_cons rfl]
    simpa [fieldsAfter?] using later

end Reader

namespace Raw

theorem hasText_str (s : String) : HasText (.str (some s)) (Json.text (.str s)).toList := by
  intro fuel rest enough closes
  obtain ⟨fuel, rfl⟩ : ∃ n, fuel = n + 1 := ⟨fuel - 1, by omega⟩
  obtain ⟨cs, opened, read⟩ := string?_stringText s rest
  refine ⟨rest, ?_, rfl⟩
  rw [Json.text, opened]
  simp [value?, isSpace, read]

variable {α : Type} {raw : α → Raw} {text : α → List Char} {items : List α}

theorem hasText_arr (each : ∀ a ∈ items, HasText (raw a) (text a)) :
    HasText (.arr (items.map raw)) (arrayText (items.map text)) := by
  intro fuel rest enough closes
  obtain ⟨fuel, rfl⟩ : ∃ n, fuel = n + 1 := ⟨fuel - 1, by omega⟩
  refine ⟨rest, ?_, rfl⟩
  cases items with
  | nil => simp [arrayText, value?, isSpace]
  | cons a items =>
    simp only [arrayText, List.length_cons, List.length_append, List.length_nil] at enough
    have read := items?_join each [] rest fuel (by omega)
    have inside : ∀ more, skipSpace ([','].intercalate ((a :: items).map text) ++ ']' :: rest) ≠
        ']' :: more := by
      intro more closed
      rw [← items?_skipSpace, closed, items?_bracket] at read
      cases read
    rw [← items?_skipSpace] at read
    rw [arrayText, List.cons_append, List.append_assoc, List.singleton_append, value?_bracket]
    split
    · next more closed => exact absurd closed (inside more)
    · exact read

theorem hasText_obj {name : α → String} (each : ∀ a ∈ items, HasText (raw a) (text a)) :
    HasText (.obj (items.map fun a => (some (name a), raw a)))
      (recordText (items.map fun a => (name a, text a))) := by
  intro fuel rest enough closes
  obtain ⟨fuel, rfl⟩ : ∃ n, fuel = n + 1 := ⟨fuel - 1, by omega⟩
  have written : recordText (items.map fun a => (name a, text a)) = '\x7b' ::
      ([','].intercalate (items.map fun a => fieldText (name a) (text a)) ++ ['\x7d']) := by
    simp only [recordText, List.map_map, Function.comp_def, fieldText]
  rw [written] at enough ⊢
  refine ⟨rest, ?_, rfl⟩
  cases items with
  | nil => simp [value?, isSpace]
  | cons a items =>
    simp only [List.length_cons, List.length_append, List.length_nil] at enough
    have read := fields?_join name each [] rest fuel (by omega)
    have inside : ∀ more, skipSpace ([','].intercalate
        ((a :: items).map fun a => fieldText (name a) (text a)) ++ '\x7d' :: rest) ≠
          '\x7d' :: more := by
      intro more closed
      rw [← fields?_skipSpace, closed, fields?_brace] at read
      cases read
    rw [← fields?_skipSpace] at read
    rw [List.cons_append, List.append_assoc, List.singleton_append, value?_brace]
    split
    · next more closed => exact absurd closed (inside more)
    · exact read

end Raw

theorem itemTexts_eq (items : List Json) : itemTexts items = items.map Json.text := by
  induction items with
  | nil => rfl
  | cons j items ih => rw [itemTexts, ih, List.map_cons]

theorem fieldTexts_eq (fields : List (String × Json)) :
    fieldTexts fields = fields.map fun f => stringText f.1 ++ ":" ++ f.2.text := by
  induction fields with
  | nil => rfl
  | cons f fields ih => rw [fieldTexts, ih, List.map_cons]

theorem toList_text_arr (items : List Json) :
    (text (.arr items)).toList = arrayText (items.map fun j => j.text.toList) := by
  simp [text, itemTexts_eq, arrayText, String.toList_intercalate, Function.comp_def]

theorem toList_text_obj (fields : List (String × Json)) :
    (text (.obj fields)).toList = recordText (fields.map fun f => (f.1, f.2.text.toList)) := by
  simp [text, fieldTexts_eq, recordText, String.toList_intercalate, Function.comp_def]

-- The second document has its fields in order, the first in any other.
inductive Rearranges : Json → Json → Prop
  | null : Rearranges .null .null
  | bool (b : Bool) : Rearranges (.bool b) (.bool b)
  | num (n : Number) : Rearranges (.num n) (.num n)
  | str (s : String) : Rearranges (.str s) (.str s)
  | arr (items : List (Json × Json)) (each : ∀ p ∈ items, Rearranges p.1 p.2) :
    Rearranges (.arr (items.map Prod.fst)) (.arr (items.map Prod.snd))
  | obj (fields : List (String × Json × Json)) (distinct : (fields.map Prod.fst).Nodup)
      (each : ∀ f ∈ fields, Rearranges f.2.1 f.2.2) :
    Rearranges (.obj (fields.map fun f => (f.1, f.2.1)))
      (.ofFields (fields.map fun f => (f.1, f.2.2)))

theorem mem_ofList_iff {α : Type} {entries : List (String × α)}
    (distinct : (entries.map Prod.fst).Nodup) (e : String × α) :
    e ∈ (Keyed.ofList entries).entries ↔ e ∈ entries := by
  refine ⟨mem_ofList, fun member => ?_⟩
  obtain ⟨name, value⟩ := e
  rw [Keyed.mem_entries_iff, Keyed.get?_ofList, List.lookup_eq_some_iff]
  obtain ⟨before, after, split⟩ := List.append_of_mem (List.mem_reverse.2 member)
  refine ⟨before, after, split, fun other earlier => ?_⟩
  have reversed : (entries.reverse.map Prod.fst).Nodup := by
    rw [List.map_reverse]
    exact List.nodup_reverse.2 distinct
  rw [split, List.map_append, List.nodup_append] at reversed
  simpa using fun same =>
    reversed.2.2 other.1 (List.mem_map_of_mem earlier) name (by simp) same.symm

theorem nodup_of_ordered {α : Type} {entries : List (String × α)} (ordered : Ordered entries) :
    (entries.map Prod.fst).Nodup := by
  rw [List.Nodup, List.pairwise_map]
  refine List.Pairwise.imp (fun {a b} below same => ?_) ordered
  rw [same] at below
  exact String.lt_irrefl b.1 below

theorem ofFields_eq {fields : List (String × Json)} (ordered : Ordered fields) :
    ofFields fields = .obj fields := by
  have same : Keyed.ofList fields = ⟨fields, ordered⟩ := by
    apply Keyed.ext_get?
    intro key
    apply Option.ext
    intro value
    rw [← Keyed.mem_entries_iff, ← Keyed.mem_entries_iff,
      mem_ofList_iff (nodup_of_ordered ordered)]
  rw [ofFields, same]

theorem Rearranges.ofFields {fields : List (String × Json)}
    (distinct : (fields.map Prod.fst).Nodup) (each : ∀ f ∈ fields, f.2.Rearranges f.2) :
    Rearranges (.obj fields) (.ofFields fields) := by
  have same := Rearranges.obj (fields.map fun f => (f.1, f.2, f.2))
    (by simpa [Function.comp_def] using distinct) (List.forall_mem_map.2 each)
  simpa [Function.comp_def] using same

mutual

theorem IsKeyed.rearranges : ∀ {j : Json}, j.IsKeyed → j.Rearranges j
  | .null, _ => .null
  | .bool b, _ => .bool b
  | .num n, _ => .num n
  | .str s, _ => .str s
  | .arr items, keyed => by
    have same := Rearranges.arr (items.map fun j => (j, j))
      (List.forall_mem_map.2 (AreKeyed.rearrange keyed))
    simpa [Function.comp_def] using same
  | .obj fields, ⟨ordered, keyed⟩ => by
    have same := Rearranges.ofFields (nodup_of_ordered ordered) (FieldsAreKeyed.rearrange keyed)
    rwa [ofFields_eq ordered] at same

theorem AreKeyed.rearrange : ∀ {items : List Json}, AreKeyed items → ∀ j ∈ items, j.Rearranges j
  | [], _ => by simp
  | j :: items, ⟨first, rest⟩ =>
    List.forall_mem_cons.2 ⟨first.rearranges, AreKeyed.rearrange rest⟩

theorem FieldsAreKeyed.rearrange : ∀ {fields : List (String × Json)}, FieldsAreKeyed fields →
    ∀ f ∈ fields, f.2.Rearranges f.2
  | [], _ => by simp
  | (_, j) :: fields, ⟨first, rest⟩ =>
    List.forall_mem_cons.2 ⟨first.rearranges, FieldsAreKeyed.rearrange rest⟩

end

namespace Raw

variable {depth : Nat}

theorem itemsToJson?_iff {rs : List Raw} {js : List Json} :
    itemsToJson? depth rs = some js ↔ List.Forall₂ (fun r j => r.toJson? depth = some j) rs js := by
  induction rs generalizing js with
  | nil => simp [itemsToJson?, eq_comm]
  | cons r rs ih =>
    rw [List.forall₂_cons_left_iff, itemsToJson?]
    cases first : r.toJson? depth with
    | none => simp
    | some j =>
      cases later : itemsToJson? depth rs with
      | none => simp [← ih, later]
      | some js' => simp [← ih, later, eq_comm (b := js)]

theorem fieldsToJson?_iff {fs : List (Option String × Raw)} {gs : List (String × Json)} :
    fieldsToJson? depth fs = some gs ↔
      List.Forall₂ (fun f g => f.1 = some g.1 ∧ f.2.toJson? depth = some g.2) fs gs := by
  induction fs generalizing gs with
  | nil => simp [fieldsToJson?, eq_comm]
  | cons f fs ih =>
    obtain ⟨name, r⟩ := f
    rw [List.forall₂_cons_left_iff]
    cases name with
    | none => simp [fieldsToJson?]
    | some name =>
      rw [fieldsToJson?]
      cases first : r.toJson? depth with
      | none => simp
      | some j =>
        cases later : fieldsToJson? depth fs with
        | none => simp [← ih, later]
        | some gs' => simp [← ih, later, eq_comm (b := gs)]

inductive Means : Nat → Raw → Json → Prop
  | null (depth : Nat) : Means depth .null .null
  | bool (depth : Nat) (b : Bool) : Means depth (.bool b) (.bool b)
  | num {depth : Nat} {l : Literal} {n : Number} (value : l.number? = some n) :
    Means depth (.num l) (.num n)
  | str (depth : Nat) (s : String) : Means depth (.str (some s)) (.str s)
  | arr {depth : Nat} {rs : List Raw} {js : List Json}
      (each : List.Forall₂ (fun r j => r.toJson? depth = some j) rs js) :
    Means (depth + 1) (.arr rs) (.arr js)
  | obj {depth : Nat} {fs : List (Option String × Raw)} {gs entries : List (String × Json)}
      (each : List.Forall₂ (fun f g => f.1 = some g.1 ∧ f.2.toJson? depth = some g.2) fs gs)
      (last : (Keyed.ofList gs).entries = entries) :
    Means (depth + 1) (.obj fs) (.obj entries)

theorem toJson?_iff {r : Raw} {j : Json} : r.toJson? depth = some j ↔ Means depth r j := by
  constructor
  · intro read
    cases r with
    | null =>
      cases read
      exact .null depth
    | bool b =>
      cases read
      exact .bool depth b
    | num l =>
      obtain ⟨n, value, rfl⟩ := Option.map_eq_some_iff.1 read
      exact .num value
    | str t =>
      obtain ⟨s, rfl, rfl⟩ := Option.map_eq_some_iff.1 read
      exact .str depth s
    | arr rs =>
      cases depth with
      | zero => cases read
      | succ depth =>
        obtain ⟨js, all, rfl⟩ := Option.map_eq_some_iff.1 read
        exact .arr (itemsToJson?_iff.1 all)
    | obj fs =>
      cases depth with
      | zero => cases read
      | succ depth =>
        obtain ⟨gs, all, rfl⟩ := Option.map_eq_some_iff.1 read
        exact .obj (fieldsToJson?_iff.1 all) rfl
  · intro means
    cases means with
    | null | bool | str => simp [toJson?]
    | num value => simp [toJson?, value]
    | arr each => simp [toJson?, itemsToJson?_iff.2 each]
    | obj each last => simp [toJson?, fieldsToJson?_iff.2 each, Json.ofFields, last]

end Raw

theorem exists_left {α β : Type} {R : α → β → Prop} {as : List α} {bs : List β}
    (each : List.Forall₂ R as bs) {b : β} (member : b ∈ bs) : ∃ a ∈ as, R a b := by
  induction each with
  | nil => cases member
  | cons first rest ih =>
    rcases List.mem_cons.1 member with rfl | later
    · exact ⟨_, List.mem_cons_self, first⟩
    · obtain ⟨a, inside, related⟩ := ih later
      exact ⟨a, List.mem_cons_of_mem _ inside, related⟩

theorem exists_right {α β : Type} {R : α → β → Prop} {as : List α} {bs : List β}
    (each : List.Forall₂ R as bs) {a : α} (member : a ∈ as) : ∃ b ∈ bs, R a b :=
  exists_left each.flip member

def Readable (depth : Nat) (j : Json) : Prop := ∃ r : Raw, r.toJson? depth = some j

theorem Readable.arr_iff {depth : Nat} {items : List Json} :
    Readable (depth + 1) (.arr items) ↔ ∀ j ∈ items, Readable depth j := by
  constructor
  · rintro ⟨r, read⟩ j member
    cases Raw.toJson?_iff.1 read with
    | arr each =>
      obtain ⟨r, -, read⟩ := exists_left each member
      exact ⟨r, read⟩
  · intro each
    have : Nonempty Raw := ⟨.null⟩
    choose! raw read using each
    refine ⟨.arr (items.map raw), Raw.toJson?_iff.2 (.arr ?_)⟩
    rw [List.forall₂_map_left_iff, List.forall₂_same]
    exact read

theorem Readable.obj_iff {depth : Nat} {entries : List (String × Json)}
    (ordered : Ordered entries) :
    Readable (depth + 1) (.obj entries) ↔ ∀ e ∈ entries, Readable depth e.2 := by
  constructor
  · rintro ⟨r, read⟩ e member
    cases Raw.toJson?_iff.1 read with
    | obj each last =>
      rw [← last] at member
      obtain ⟨f, -, -, read⟩ := exists_left each (mem_ofList member)
      exact ⟨f.2, read⟩
  · intro each
    have : Nonempty Raw := ⟨.null⟩
    choose! raw read using each
    have last : (Keyed.ofList entries).entries = entries := Json.obj.inj (ofFields_eq ordered)
    refine ⟨.obj (entries.map fun e => (some e.1, raw e)), Raw.toJson?_iff.2 (.obj ?_ last)⟩
    rw [List.forall₂_map_left_iff, List.forall₂_same]
    exact fun e member => ⟨rfl, read e member⟩

inductive Raw.NamesOnce : Raw → Prop
  | null : NamesOnce .null
  | bool (b : Bool) : NamesOnce (.bool b)
  | num (l : Literal) : NamesOnce (.num l)
  | str (t : Option String) : NamesOnce (.str t)
  | arr {items : List Raw} (each : ∀ r ∈ items, r.NamesOnce) : NamesOnce (.arr items)
  | obj {fields : List (Option String × Raw)} (distinct : (fields.map Prod.fst).Nodup)
      (each : ∀ f ∈ fields, f.2.NamesOnce) : NamesOnce (.obj fields)

def DoublesReadBack (j : Json) : Prop :=
  ∀ path x, j.at? path = some (.num (.double x)) →
    Json.ofText? (Json.num (.double x)).text = some (.num (.double x))

theorem DoublesReadBack.arr_iff {items : List Json} :
    DoublesReadBack (.arr items) ↔ ∀ j ∈ items, j.DoublesReadBack := by
  constructor
  · intro doubles j member path x found
    obtain ⟨i, within, rfl⟩ := List.getElem_of_mem member
    refine doubles (.position i :: path) x ?_
    simp [at?, child?, items?, within, found]
  · intro each path x found
    cases path with
    | nil => cases found
    | cons step path =>
      obtain ⟨j, child, later⟩ := Option.bind_eq_some_iff.1 found
      cases step with
      | key name => cases child
      | position i => exact each j (List.mem_of_getElem? child) path x later

theorem DoublesReadBack.obj_iff {entries : List (String × Json)} (ordered : Ordered entries) :
    DoublesReadBack (.obj entries) ↔ ∀ e ∈ entries, e.2.DoublesReadBack := by
  constructor
  · intro doubles e member path x found
    refine doubles (.key e.1 :: path) x ?_
    have value := (Keyed.lookupList_eq_some_iff ordered e.1 e.2).2 member
    simp [at?, child?, field?, value, found]
  · intro each path x found
    cases path with
    | nil => cases found
    | cons step path =>
      obtain ⟨j, child, later⟩ := Option.bind_eq_some_iff.1 found
      cases step with
      | key name =>
        exact each (name, j) ((Keyed.lookupList_eq_some_iff ordered name j).1 child) path x later
      | position i => cases child

structure ReadsBack (depth : Nat) (j : Json) : Prop where
  readable : Readable depth j
  doubles : DoublesReadBack j

theorem ReadsBack.arr_iff {depth : Nat} {items : List Json} :
    ReadsBack (depth + 1) (.arr items) ↔ ∀ j ∈ items, ReadsBack depth j := by
  constructor
  · rintro ⟨readable, doubles⟩ j member
    exact ⟨Readable.arr_iff.1 readable j member, DoublesReadBack.arr_iff.1 doubles j member⟩
  · intro each
    exact ⟨Readable.arr_iff.2 fun j member => (each j member).readable,
      DoublesReadBack.arr_iff.2 fun j member => (each j member).doubles⟩

theorem ReadsBack.obj_iff {depth : Nat} {entries : List (String × Json)}
    (ordered : Ordered entries) :
    ReadsBack (depth + 1) (.obj entries) ↔ ∀ e ∈ entries, ReadsBack depth e.2 := by
  constructor
  · rintro ⟨readable, doubles⟩ e member
    exact ⟨(Readable.obj_iff ordered).1 readable e member,
      (DoublesReadBack.obj_iff ordered).1 doubles e member⟩
  · intro each
    exact ⟨(Readable.obj_iff ordered).2 fun e member => (each e member).readable,
      (DoublesReadBack.obj_iff ordered).2 fun e member => (each e member).doubles⟩

theorem ReadsBack.ofFields {depth : Nat} {fields : List (String × Json)}
    (each : ∀ f ∈ fields, ReadsBack depth f.2) : ReadsBack (depth + 1) (.ofFields fields) :=
  (ReadsBack.obj_iff (Keyed.ofList fields).ordered).2 fun e member => each e (mem_ofList member)

theorem readsBack_leaf {depth : Nat} {r : Raw} {j : Json} (means : r.Means depth j)
    (leaf : ∀ step, j.child? step = none) (other : ∀ x, j ≠ .num (.double x)) :
    ReadsBack depth j := by
  refine ⟨⟨r, Raw.toJson?_iff.2 means⟩, fun path x found => ?_⟩
  cases path with
  | nil => exact absurd (Option.some.inj found) (other x)
  | cons step path =>
    obtain ⟨k, child, -⟩ := Option.bind_eq_some_iff.1 found
    rw [leaf step] at child
    cases child

theorem readsBack_null (depth : Nat) : ReadsBack depth .null :=
  readsBack_leaf (.null depth) (by rintro (_ | _) <;> rfl) nofun

theorem readsBack_bool (depth : Nat) (b : Bool) : ReadsBack depth (.bool b) :=
  readsBack_leaf (.bool depth b) (by rintro (_ | _) <;> rfl) nofun

theorem readsBack_str (depth : Nat) (s : String) : ReadsBack depth (.str s) :=
  readsBack_leaf (.str depth s) (by rintro (_ | _) <;> rfl) nofun

theorem readsBack_ofNat (depth : Nat) {n : Nat} (small : n < 0x10000000000000000) :
    ReadsBack depth (.ofNat n) :=
  readsBack_leaf (.num (Literal.number?_ofInt ⟨by omega, by omega⟩)) (by rintro (_ | _) <;> rfl)
    nofun

theorem readsBack_double (depth : Nat) {x : Float}
    (back : Json.ofText? (Json.num (.double x)).text = some (.num (.double x))) :
    ReadsBack depth (.num (.double x)) := by
  obtain ⟨r, -, means⟩ := Option.bind_eq_some_iff.1 back
  cases Raw.toJson?_iff.1 means with
  | num value =>
    refine ⟨⟨_, Raw.toJson?_iff.2 (.num value)⟩, fun path y found => ?_⟩
    cases path with
    | nil =>
      cases found
      exact back
    | cons step path =>
      obtain ⟨k, child, -⟩ := Option.bind_eq_some_iff.1 found
      cases step <;> cases child

theorem readsBack_ofTexts (depth : Nat) (texts : List String) :
    ReadsBack (depth + 1) (.ofTexts texts) :=
  ReadsBack.arr_iff.2 (List.forall_mem_map.2 fun s _ => readsBack_str depth s)

theorem hasText_num {n : Number} {depth : Nat} (back : ReadsBack depth (.num n)) :
    ∃ l : Literal, (Raw.num l).HasText (Json.num n).text.toList ∧ l.number? = some n := by
  cases n with
  | integer i =>
    obtain ⟨r, read⟩ := back.readable
    cases Raw.toJson?_iff.1 read with
    | num value =>
      exact ⟨.ofInt i, Raw.hasText_integer i,
        Literal.number?_ofInt (Literal.inRange_of_number? value)⟩
  | double x =>
    obtain ⟨r, read, means⟩ := Option.bind_eq_some_iff.1 (back.doubles [] x rfl)
    cases Raw.toJson?_iff.1 means with
    | num value => exact ⟨_, Raw.hasText_of_ofText? read, value⟩

structure Raw.Carries (r : Raw) (depth : Nat) (written j : Json) : Prop where
  has : r.HasText written.text.toList
  means : r.toJson? depth = some j
  once : r.NamesOnce

theorem carries_arr {depth : Nat} {items : List (Json × Json)}
    (parts : ∀ p ∈ items, ∃ r : Raw, r.Carries depth p.1 p.2) :
    ∃ r : Raw, r.Carries (depth + 1) (.arr (items.map Prod.fst)) (.arr (items.map Prod.snd)) := by
  have : Nonempty Raw := ⟨.null⟩
  choose! raw carries using parts
  refine ⟨.arr (items.map raw), ?_, Raw.toJson?_iff.2 (.arr ?_),
    .arr (List.forall_mem_map.2 fun p member => (carries p member).once)⟩
  · rw [toList_text_arr, List.map_map]
    exact Raw.hasText_arr fun p member => (carries p member).has
  · rw [List.forall₂_map_left_iff, List.forall₂_map_right_iff, List.forall₂_same]
    exact fun p member => (carries p member).means

theorem carries_obj {depth : Nat} {fields : List (String × Json × Json)}
    (distinct : (fields.map Prod.fst).Nodup)
    (parts : ∀ f ∈ fields, ∃ r : Raw, r.Carries depth f.2.1 f.2.2) :
    ∃ r : Raw, r.Carries (depth + 1) (.obj (fields.map fun f => (f.1, f.2.1)))
      (.ofFields (fields.map fun f => (f.1, f.2.2))) := by
  have : Nonempty Raw := ⟨.null⟩
  choose! raw carries using parts
  refine ⟨.obj (fields.map fun f => (some f.1, raw f)), ?_, Raw.toJson?_iff.2 (.obj ?_ rfl),
    .obj ?_ (List.forall_mem_map.2 fun f member => (carries f member).once)⟩
  · rw [toList_text_obj, List.map_map]
    exact Raw.hasText_obj fun f member => (carries f member).has
  · rw [List.forall₂_map_left_iff, List.forall₂_map_right_iff, List.forall₂_same]
    exact fun f member => ⟨rfl, (carries f member).means⟩
  · simpa [Function.comp_def] using distinct.map (Option.some_injective String)

theorem not_readable_zero_arr (items : List Json) : ¬ Readable 0 (.arr items) := by
  rintro ⟨r, read⟩
  cases Raw.toJson?_iff.1 read

theorem not_readable_zero_obj (fields : List (String × Json)) : ¬ Readable 0 (.obj fields) := by
  rintro ⟨r, read⟩
  cases Raw.toJson?_iff.1 read

theorem Rearranges.carries {written j : Json} (same : written.Rearranges j) {depth : Nat}
    (back : ReadsBack depth j) : ∃ r : Raw, r.Carries depth written j := by
  induction same generalizing depth with
  | null => exact ⟨.null, Raw.hasText_null, Raw.toJson?_iff.2 (.null depth), .null⟩
  | bool b => exact ⟨.bool b, Raw.hasText_bool b, Raw.toJson?_iff.2 (.bool depth b), .bool b⟩
  | num n =>
    obtain ⟨l, has, value⟩ := hasText_num back
    exact ⟨.num l, has, Raw.toJson?_iff.2 (.num value), .num l⟩
  | str s => exact ⟨.str (some s), Raw.hasText_str s, Raw.toJson?_iff.2 (.str depth s), .str _⟩
  | arr items each ih =>
    cases depth with
    | zero => exact absurd back.readable (not_readable_zero_arr _)
    | succ depth =>
      exact carries_arr fun p member =>
        ih p member (ReadsBack.arr_iff.1 back p.2 (List.mem_map_of_mem member))
  | obj fields distinct each ih =>
    cases depth with
    | zero => exact absurd back.readable (not_readable_zero_obj _)
    | succ depth =>
      have names : ((fields.map fun f => (f.1, f.2.2)).map Prod.fst).Nodup := by
        simpa [Function.comp_def] using distinct
      let entries := Keyed.ofList (fields.map fun f => (f.1, f.2.2))
      have inside (f : String × Json × Json) (member : f ∈ fields) :
          (f.1, f.2.2) ∈ entries.entries :=
        (mem_ofList_iff names _).2 (List.mem_map_of_mem member)
      exact carries_obj distinct fun f member =>
        ih f member ((ReadsBack.obj_iff entries.ordered).1 back _ (inside f member))

theorem Rearranges.ofText? {written j : Json} (same : written.Rearranges j) {depth : Nat}
    (back : ReadsBack depth j) :
    ∃ r, Raw.ofText? written.text = some r ∧ r.toJson? depth = some j ∧ r.NamesOnce := by
  obtain ⟨r, carries⟩ := same.carries back
  exact ⟨r, carries.has.ofText?, carries.means, carries.once⟩

end CallGuard.Json
