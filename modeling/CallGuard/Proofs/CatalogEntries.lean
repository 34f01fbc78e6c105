import CallGuard.Catalog
import CallGuard.Proofs.Json.Spelling
import Mathlib.Data.List.Nodup

set_option autoImplicit false

namespace CallGuard.Catalog

structure Sound (method : String) (rules : List String) : Prop where
  named : Text.trim method ≠ ""
  present : ∀ rule ∈ rules, Text.trim rule ≠ ""
  alone : ∀ rule ∈ rules, Text.trim rule = "*" → rules = [rule]

theorem rulesFault?_eq_none_iff (method : String) (count index : Nat) (rules : List String) :
    rulesFault? method count index rules = none ↔
      ∀ rule ∈ rules, Text.trim rule ≠ "" ∧ (Text.trim rule = "*" → count ≤ 1) := by
  induction rules generalizing index with
  | nil => simp [rulesFault?]
  | cons rule rest ih =>
    have head : ruleFault? method count index rule = none ↔
        Text.trim rule ≠ "" ∧ (Text.trim rule = "*" → count ≤ 1) := by
      unfold ruleFault?
      split
      · simp [*]
      · split <;> simp_all [allowAllText]
    rw [List.forall_mem_cons, ← head, ← ih (index + 1), rulesFault?]
    cases ruleFault? method count index rule <;> simp

theorem entryFault?_eq_none_iff (method : String) (set : RuleSet) :
    entryFault? method set = none ↔ Sound method set.rules := by
  by_cases blank : Text.trim method = ""
  · simp only [entryFault?, blank, if_true, reduceCtorEq, false_iff]
    exact fun sound => sound.named blank
  · simp only [entryFault?, blank, if_false, rulesFault?_eq_none_iff]
    constructor
    · intro fine
      refine ⟨blank, fun rule member => (fine rule member).1, fun rule member star => ?_⟩
      have single : set.rules.length = 1 :=
        Nat.le_antisymm ((fine rule member).2 star) (List.length_pos_of_mem member)
      obtain ⟨only, rules⟩ := List.length_eq_one_iff.1 single
      rw [rules, List.mem_singleton] at member
      rw [rules, member]
    · intro sound rule member
      refine ⟨sound.present rule member, fun star => ?_⟩
      simp [sound.alone rule member star]

theorem firstFault?_eq_none_iff (entries : List (String × RuleSet)) :
    firstFault? entries = none ↔ ∀ e ∈ entries, Sound e.1 e.2.rules := by
  induction entries with
  | nil => simp [firstFault?]
  | cons e rest ih =>
    rw [List.forall_mem_cons, ← entryFault?_eq_none_iff, ← ih]
    cases fault : entryFault? e.1 e.2 <;> simp [firstFault?, fault]

theorem methods_of_validate {methods : Keyed RuleSet} {c : Catalog}
    (valid : validate methods = .ok c) : c.methods = methods := by
  unfold validate at valid
  split at valid
  · cases valid
  · cases valid
    rfl

theorem validate_ok_iff (methods : Keyed RuleSet) :
    (∃ c, validate methods = .ok c) ↔
      ∀ method set, methods.get? method = some set → Sound method set.rules := by
  have sound : (∃ c, validate methods = .ok c) ↔ firstFault? methods.entries = none := by
    unfold validate
    split <;> simp [*]
  rw [sound, firstFault?_eq_none_iff]
  constructor
  · intro all method set found
    exact all (method, set) ((methods.mem_entries_iff method set).2 found)
  · intro all e member
    exact all e.1 e.2 ((methods.mem_entries_iff e.1 e.2).1 member)

def lastRules? (entries : List (String × List String)) (method : String) : Option (List String) :=
  entries.reverse.lookup method

def keyed (entries : List (String × List String)) : Keyed RuleSet :=
  .ofList (entries.map fun (method, rules) => (method, ⟨rules⟩))

theorem get?_keyed (entries : List (String × List String)) (method : String) :
    (keyed entries).get? method = (lastRules? entries method).map .mk := by
  rw [keyed, Keyed.get?_ofList, lastRules?, ← List.map_reverse]
  induction entries.reverse with
  | nil => rfl
  | cons e rest ih =>
    obtain ⟨other, rules⟩ := e
    cases same : method == other <;> simp [List.lookup_cons, same, ih]

theorem lookup_of_validate {entries : List (String × List String)} {c : Catalog}
    (valid : validate (keyed entries) = .ok c) (method : String) :
    (c.lookup? method).map RuleSet.rules = lastRules? entries method := by
  rw [lookup?, methods_of_validate valid, get?_keyed, Option.map_map]
  exact Option.map_id'

theorem validate_keyed_ok_iff (entries : List (String × List String)) :
    (∃ c, validate (keyed entries) = .ok c) ↔
      ∀ method rules, lastRules? entries method = some rules → Sound method rules := by
  rw [validate_ok_iff]
  constructor
  · intro all method rules last
    exact all method ⟨rules⟩ (by simp [get?_keyed, last])
  · intro all method set found
    rw [get?_keyed] at found
    obtain ⟨rules, last, rfl⟩ := Option.map_eq_some_iff.1 found
    exact all method rules last

theorem repeated?_eq_none_iff (seen names : List String) :
    repeated? seen names = none ↔ names.Nodup ∧ ∀ name ∈ names, name ∉ seen := by
  induction names generalizing seen with
  | nil => simp [repeated?]
  | cons name rest ih =>
    by_cases before : name ∈ seen
    · simp [repeated?, before]
    · simp only [repeated?, List.contains_iff_mem, before, if_false, ih, List.nodup_cons,
        List.mem_cons, not_or]
      grind

theorem ofEntries_of_nodup {entries : List (String × List String)}
    (once : (entries.map Prod.fst).Nodup) : ofEntries entries = validate (keyed entries) := by
  have none : repeated? [] (entries.map Prod.fst) = none :=
    (repeated?_eq_none_iff _ _).2 ⟨once, by simp⟩
  simp [ofEntries, none, keyed]

theorem ofEntries_of_not_nodup {entries : List (String × List String)}
    (twice : ¬ (entries.map Prod.fst).Nodup) :
    ∃ method, ofEntries entries = .error (.repeatedMethod method) := by
  cases found : repeated? [] (entries.map Prod.fst) with
  | none => exact absurd ((repeated?_eq_none_iff _ _).1 found).1 twice
  | some method => exact ⟨method, by simp [ofEntries, found]⟩

theorem lookup_eq_some_iff_mem {entries : List (String × List String)}
    (once : (entries.map Prod.fst).Nodup) (method : String) (rules : List String) :
    entries.lookup method = some rules ↔ (method, rules) ∈ entries := by
  induction entries with
  | nil => simp
  | cons e rest ih =>
    obtain ⟨other, others⟩ := e
    obtain ⟨fresh, once⟩ := List.nodup_cons.1 once
    by_cases same : method = other
    · subst same
      have absent : (method, rules) ∉ rest := fun member =>
        fresh (List.mem_map.2 ⟨_, member, rfl⟩)
      simp [absent, eq_comm]
    · simp [List.lookup_cons, beq_eq_false_iff_ne.2 same, same, ih once]

theorem lastRules?_eq_some_iff {entries : List (String × List String)}
    (once : (entries.map Prod.fst).Nodup) (method : String) (rules : List String) :
    lastRules? entries method = some rules ↔ (method, rules) ∈ entries := by
  have onceBack : (entries.reverse.map Prod.fst).Nodup := by
    rw [List.map_reverse]
    exact List.nodup_reverse.2 once
  rw [lastRules?, lookup_eq_some_iff_mem onceBack, List.mem_reverse]

theorem ofEntries_ok_iff (entries : List (String × List String)) :
    (∃ c, ofEntries entries = .ok c) ↔
      (entries.map Prod.fst).Nodup ∧ ∀ e ∈ entries, Sound e.1 e.2 := by
  by_cases once : (entries.map Prod.fst).Nodup
  · simp only [ofEntries_of_nodup once, validate_keyed_ok_iff, lastRules?_eq_some_iff once, once,
      true_and]
    exact ⟨fun all e => all e.1 e.2, fun all method rules => all (method, rules)⟩
  · obtain ⟨method, refused⟩ := ofEntries_of_not_nodup once
    simp [refused, once]

def ruleDocument (rule : String) : Json.Raw := .obj [(some "expression", .str (some rule))]

def rulesDocument (rules : List String) : Json.Raw :=
  .obj [(some "rules", .arr (rules.map ruleDocument))]

def document (entries : List (String × List String)) : Json.Raw :=
  .obj (entries.map fun (method, rules) => (some method, rulesDocument rules))

def Spells (text : String) (entries : List (String × List String)) : Prop :=
  Json.Spelled (document entries) text.toList

theorem ruleOfRaw?_ruleDocument (rule : String) :
    RuleSet.ruleOfRaw? (ruleDocument rule) = some rule := by
  simp [RuleSet.ruleOfRaw?, ruleDocument, Json.Raw.record?, Json.Raw.fieldOnce?, Json.Raw.text?]

theorem ofRaw?_rulesDocument (rules : List String) :
    RuleSet.ofRaw? (rulesDocument rules) = some ⟨rules⟩ := by
  have each : (rules.map ruleDocument).mapM RuleSet.ruleOfRaw? = some rules := by
    induction rules with
    | nil => rfl
    | cons rule rest ih => simp [ruleOfRaw?_ruleDocument, ih]
  simp [RuleSet.ofRaw?, rulesDocument, Json.Raw.record?, Json.Raw.fieldOnce?, Json.Raw.list?, each]

theorem fieldsOfRaw?_document (entries : List (String × List String)) :
    fieldsOfRaw? (entries.map fun (method, rules) => (some method, rulesDocument rules)) =
      some (entries.map fun (method, rules) => (method, ⟨rules⟩)) := by
  induction entries with
  | nil => rfl
  | cons e rest ih => simp [fieldsOfRaw?, ofRaw?_rulesDocument, ih]

theorem ofText_of_spells {text : String} {entries : List (String × List String)}
    (spells : Spells text entries) : ofText text = validate (keyed entries) := by
  simp [ofText, Json.Raw.ofText?_of_spelled spells, document, fieldsOfRaw?_document, keyed]

def compactText (entries : List (String × List String)) : String :=
  let rule (text : String) := Json.recordText [("expression", (Json.stringText text).toList)]
  let set (rules : List String) := Json.recordText [("rules", Json.arrayText (rules.map rule))]
  String.ofList (Json.recordText (entries.map fun (method, rules) => (method, set rules)))

theorem compactText_spells (entries : List (String × List String)) :
    Spells (compactText entries) entries := by
  rw [Spells, compactText, String.toList_ofList]
  refine Json.spelled_recordText Prod.fst (fun e => rulesDocument e.2) _ entries fun e _ => ?_
  refine Json.spelled_recordText (fun _ => "rules") (fun _ => _) (fun _ => _) [()] fun _ _ => ?_
  refine Json.spelled_arrayText ruleDocument _ e.2 fun rule _ => ?_
  refine Json.spelled_recordText (fun _ => "expression") (fun _ => _) (fun _ => _) [()] fun _ _ => ?_
  exact Json.spelled_string rule

-- Both ways fail, or both give the same catalog.
def Agree (a b : Except Fault Catalog) : Prop :=
  (∃ f g, a = .error f ∧ b = .error g) ∨
    ∃ c d, a = .ok c ∧ b = .ok d ∧ ∀ method, c.lookup? method = d.lookup? method

theorem agree_refl (a : Except Fault Catalog) : Agree a a := by
  cases a with
  | error f => exact .inl ⟨f, f, rfl, rfl⟩
  | ok c => exact .inr ⟨c, c, rfl, rfl, fun _ => rfl⟩

theorem agree_iff {text : String} {entries : List (String × List String)}
    (spells : Spells text entries) :
    Agree (ofEntries entries) (ofText text) ↔
      (entries.map Prod.fst).Nodup ∨
        ∃ method rules, lastRules? entries method = some rules ∧ ¬ Sound method rules := by
  by_cases once : (entries.map Prod.fst).Nodup
  · simp [ofEntries_of_nodup once, ofText_of_spells spells, once, agree_refl]
  · obtain ⟨method, refused⟩ := ofEntries_of_not_nodup once
    have fails : Agree (ofEntries entries) (ofText text) ↔ ¬ ∃ c, ofText text = .ok c := by
      rw [refused]
      cases ofText text <;> simp [Agree]
    rw [fails, ofText_of_spells spells, validate_keyed_ok_iff]
    simp [once]

theorem agree_iff_once_or_unsound (text : String) (entries : List (String × List String))
    (spells : Spells text entries) :
    ((∃ c, ofEntries entries = .ok c) ↔
      (entries.map Prod.fst).Nodup ∧ ∀ e ∈ entries, Sound e.1 e.2) ∧
    ((∃ c, ofText text = .ok c) ↔
      ∀ method rules, lastRules? entries method = some rules → Sound method rules) ∧
    (∀ c, ofEntries entries = .ok c ∨ ofText text = .ok c →
      ∀ method, (c.lookup? method).map RuleSet.rules = lastRules? entries method) ∧
    (Agree (ofEntries entries) (ofText text) ↔
      (entries.map Prod.fst).Nodup ∨
        ∃ method rules, lastRules? entries method = some rules ∧ ¬ Sound method rules) := by
  refine ⟨ofEntries_ok_iff entries, ?_, ?_, agree_iff spells⟩
  · rw [ofText_of_spells spells]
    exact validate_keyed_ok_iff entries
  · rintro c (made | loaded) method
    · have once := ((ofEntries_ok_iff entries).1 ⟨c, made⟩).1
      exact lookup_of_validate (ofEntries_of_nodup once ▸ made) method
    · exact lookup_of_validate (ofText_of_spells spells ▸ loaded) method

theorem agree_on_misplaced_star :
    let entries := [("/a.S/m", ["*"]), ("/a.S/m", ["user.admin", " * "])]
    Spells (compactText entries) entries ∧
      Agree (ofEntries entries) (ofText (compactText entries)) := by
  intro entries
  have spells := compactText_spells entries
  obtain ⟨-, -, -, agree⟩ := agree_iff_once_or_unsound _ entries spells
  have last : lastRules? entries "/a.S/m" = some ["user.admin", " * "] := by decide
  have star : Text.trim " * " = "*" := by decide +kernel
  refine ⟨spells, agree.2 (.inr ⟨_, _, last, fun sound => ?_⟩)⟩
  have single := sound.alone " * " (by simp) star
  simp at single

def laxer : List (String × List String) := [("/a.S/m", ["user.admin"]), ("/a.S/m", ["*"])]

def laxerText : String :=
  "\x7b\"/a.S/m\":\x7b\"rules\":[\x7b\"expression\":\"user.admin\"\x7d]\x7d," ++
    "\"/a.S/m\":\x7b\"rules\":[\x7b\"expression\":\"*\"\x7d]\x7d\x7d"

theorem laxer_refused_and_loaded :
    Spells laxerText laxer ∧ ofEntries laxer = .error (.repeatedMethod "/a.S/m") ∧
      (∃ c, ofText laxerText = .ok c ∧
        (c.lookup? "/a.S/m").map RuleSet.rules = some ["*"]) ∧
      ¬ Agree (ofEntries laxer) (ofText laxerText) := by
  have text : compactText laxer = laxerText := by decide +kernel
  have spells : Spells laxerText laxer := text ▸ compactText_spells laxer
  have sound : Sound "/a.S/m" ["*"] := by
    refine ⟨by decide +kernel, fun rule member => ?_, fun rule member _ => ?_⟩
    · obtain rfl := List.mem_singleton.1 member
      decide +kernel
    · rw [List.mem_singleton.1 member]
  have last : ∀ method rules, lastRules? laxer method = some rules →
      method = "/a.S/m" ∧ rules = ["*"] := by
    intro method rules found
    by_cases same : method = "/a.S/m"
    · simp_all [lastRules?, laxer]
    · simp [lastRules?, laxer, List.lookup_cons, beq_eq_false_iff_ne.2 same] at found
  have loads : ∃ c, ofText laxerText = .ok c := by
    rw [ofText_of_spells spells, validate_keyed_ok_iff]
    intro method rules found
    obtain ⟨rfl, rfl⟩ := last method rules found
    exact sound
  obtain ⟨c, loaded⟩ := loads
  refine ⟨spells, rfl, ⟨c, loaded, ?_⟩, fun same => ?_⟩
  · exact lookup_of_validate (ofText_of_spells spells ▸ loaded) "/a.S/m"
  · rcases (agree_iff spells).1 same with once | ⟨method, rules, found, unsound⟩
    · revert once
      decide
    · obtain ⟨rfl, rfl⟩ := last method rules found
      exact unsound sound

end CallGuard.Catalog
