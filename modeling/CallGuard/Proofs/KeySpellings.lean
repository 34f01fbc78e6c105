import CallGuard.Proofs.Interception
import Mathlib

set_option autoImplicit false

namespace CallGuard

namespace Text

def SameButCase (a b : String) : Prop := lowerAscii a = lowerAscii b

def IsSmall (s : String) : Prop := ∀ c ∈ s.toList, c.isUpper = false

instance (a b : String) : Decidable (SameButCase a b) := inferInstanceAs (Decidable (_ = _))

instance (s : String) : Decidable (IsSmall s) := inferInstanceAs (Decidable (∀ _ ∈ _, _))

theorem isSmall_lowerAscii (s : String) : IsSmall (lowerAscii s) := by
  intro c member
  rw [lowerAscii, String.toList_ofList, List.mem_map] at member
  obtain ⟨d, -, rfl⟩ := member
  exact Char.isUpper_toLower_eq_false d

theorem lowerAscii_of_isSmall {s : String} (small : IsSmall s) : lowerAscii s = s := by
  have kept : s.toList.map Char.toLower = s.toList.map id := by
    refine List.map_congr_left fun c member => ?_
    exact Char.toLower_eq_of_not_isUpper (by simp [small c member])
  rw [lowerAscii, kept, List.map_id, String.ofList_toList]

theorem smallSpelling_iff (spelling text : String) :
    SameButCase spelling text ∧ IsSmall spelling ↔ spelling = lowerAscii text := by
  constructor
  · rintro ⟨same, small⟩
    rw [← same, lowerAscii_of_isSmall small]
  · rintro rfl
    have small := isSmall_lowerAscii text
    exact ⟨lowerAscii_of_isSmall small, small⟩

end Text

def Metadata.Holds (m : Metadata) (key : String) (wanted : Option String) : Prop :=
  ∃ value ∈ m.getAll key, ∀ w ∈ wanted, value = w

def Selector.seeking (key : String) : Option String → Selector
  | none => .metadataPresent key
  | some value => .metadataEquals key value

theorem isMatch_seeking_iff (key : String) (wanted : Option String) (method : String)
    (metadata : Metadata) :
    (Selector.seeking key wanted).isMatch method metadata = true ↔
      metadata.Holds (Text.lowerAscii key) wanted := by
  cases wanted with
  | none =>
    simp [Selector.seeking, Selector.isMatch, Metadata.Holds, List.eq_nil_iff_forall_not_mem]
  | some value => simp [Selector.seeking, Selector.isMatch, Metadata.Holds]

theorem Metadata.holds_ofPairs_iff (pairs : List (String × String)) (key : String)
    (wanted : Option String) :
    (Metadata.ofPairs pairs).Holds key wanted ↔
      ∃ value, (key, value) ∈ pairs ∧ ∀ w ∈ wanted, value = w := by
  simp only [Metadata.Holds, Metadata.getAll_ofPairs, Metadata.mem_arrived_iff]

theorem Metadata.key_of_holds {m : Metadata} {key : String} {wanted : Option String}
    (holds : m.Holds key wanted) : key ∈ m.values.keys := by
  obtain ⟨value, member, -⟩ := holds
  rw [← Keyed.get?_isSome_iff]
  cases found : m.values.get? key with
  | none => simp [Metadata.getAll, found] at member
  | some values => rfl

theorem isMatch_seeking_iff_small (key : String) (wanted : Option String) (method : String)
    (metadata : Metadata) :
    (Selector.seeking key wanted).isMatch method metadata = true ↔
      ∃ spelling, Text.SameButCase spelling key ∧ Text.IsSmall spelling ∧
        metadata.Holds spelling wanted := by
  simp only [isMatch_seeking_iff, ← and_assoc, Text.smallSpelling_iff, exists_eq_left]

theorem isSmall_iff_found (key : String) (wanted : Option String) :
    Text.IsSmall key ↔ ∀ (method : String) (metadata : Metadata), metadata.Holds key wanted →
      (Selector.seeking key wanted).isMatch method metadata = true := by
  constructor
  · intro small method metadata holds
    rw [isMatch_seeking_iff, Text.lowerAscii_of_isSmall small]
    exact holds
  · intro found
    have supplied : (Metadata.ofPairs [(key, wanted.getD "")]).Holds key wanted := by
      rw [Metadata.holds_ofPairs_iff]
      exact ⟨wanted.getD "", by simp, by rintro w ⟨⟩; rfl⟩
    have looked := (isMatch_seeking_iff key wanted "" _).1 (found "" _ supplied)
    obtain ⟨value, member, -⟩ := (Metadata.holds_ofPairs_iff _ _ _).1 looked
    have same : Text.lowerAscii key = key := congrArg Prod.fst (List.mem_singleton.1 member)
    rw [← same]
    exact Text.isSmall_lowerAscii key

namespace Interceptor

variable {α : Type} [Decider α]

theorem selected_of_holds (rulesOnly : Decider.RulesOnly α) {i : Interceptor α} {v : Visit}
    {key spelling : String} {wanted : Option String}
    (configured : Selector.seeking key wanted ∈ i.selectors)
    (same : Text.SameButCase spelling key) (small : Text.IsSmall spelling)
    (holds : v.call.metadata.Holds spelling wanted) :
    (i.checkVisit v).1 ≠ .ok (.allowed .notSelected) := by
  intro passed
  obtain ⟨-, -, unmatched⟩ := (notSelected_iff rulesOnly i v).1 passed
  have found := (isMatch_seeking_iff_small key wanted v.call.method v.call.metadata).2
    ⟨spelling, same, small, holds⟩
  rw [unmatched _ configured] at found
  cases found

theorem notSelected_iff_missed (rulesOnly : Decider.RulesOnly α) {i : Interceptor α} {v : Visit}
    {key : String} {wanted : Option String} (only : i.selectors = [Selector.seeking key wanted])
    (unlisted : v.call.method ∉ i.whitelist.methods.keys) :
    (i.checkVisit v).1 = .ok (.allowed .notSelected) ↔
      ∀ spelling, Text.SameButCase spelling key → Text.IsSmall spelling →
        ¬ v.call.metadata.Holds spelling wanted := by
  constructor
  · intro passed spelling same small holds
    exact selected_of_holds rulesOnly (by simp [only]) same small holds passed
  · intro absent
    refine (notSelected_iff rulesOnly i v).2 ⟨unlisted, by simp [only], ?_⟩
    rw [only, List.forall_mem_singleton, ← Bool.not_eq_true, isMatch_seeking_iff_small]
    rintro ⟨spelling, same, small, holds⟩
    exact absent spelling same small holds

end Interceptor

theorem seeking_finds_small_spelling (key : String) (wanted : Option String) :
    (∀ (method : String) (metadata : Metadata),
      (Selector.seeking key wanted).isMatch method metadata = true ↔
        ∃ spelling, Text.SameButCase spelling key ∧ Text.IsSmall spelling ∧
          metadata.Holds spelling wanted) ∧
    (∀ (method : String) (metadata : Metadata), (∀ held ∈ metadata.values.keys, Text.IsSmall held) →
      ((Selector.seeking key wanted).isMatch method metadata = true ↔
        ∃ spelling, Text.SameButCase spelling key ∧ metadata.Holds spelling wanted)) ∧
    (Text.IsSmall key ↔ ∀ (method : String) (metadata : Metadata), metadata.Holds key wanted →
      (Selector.seeking key wanted).isMatch method metadata = true) ∧
    ∀ (α : Type) [Decider α], Decider.RulesOnly α → ∀ (i : Interceptor α) (v : Visit),
      (Selector.seeking key wanted ∈ i.selectors →
        (∃ spelling, Text.SameButCase spelling key ∧ Text.IsSmall spelling ∧
          v.call.metadata.Holds spelling wanted) →
        (i.checkVisit v).1 ≠ .ok (.allowed .notSelected)) ∧
      (i.selectors = [Selector.seeking key wanted] →
        v.call.method ∉ i.whitelist.methods.keys →
        ((i.checkVisit v).1 = .ok (.allowed .notSelected) ↔
          ∀ spelling, Text.SameButCase spelling key → Text.IsSmall spelling →
            ¬ v.call.metadata.Holds spelling wanted)) := by
  refine ⟨isMatch_seeking_iff_small key wanted, fun method metadata small => ?_,
    isSmall_iff_found key wanted, fun α _ rulesOnly i v => ⟨?_, ?_⟩⟩
  · rw [isMatch_seeking_iff_small]
    refine exists_congr fun spelling => and_congr_right fun _ => and_iff_right_of_imp ?_
    exact fun holds => small spelling (Metadata.key_of_holds holds)
  · rintro configured ⟨spelling, same, small, holds⟩
    exact Interceptor.selected_of_holds rulesOnly configured same small holds
  · exact Interceptor.notSelected_iff_missed rulesOnly

def tenantRules : Keyed RuleSet := .ofList [("/s.A/m", ⟨["false"]⟩)]

theorem tenantRules_faultless :
    ∀ e ∈ tenantRules.entries, Catalog.entryFault? e.1 e.2 = none := by
  decide +kernel

def tenantInterceptor : Interceptor Rules :=
  { Interceptor.ofAuthorizer
      (.single (.cel (.ofParts ⟨tenantRules, tenantRules_faultless⟩ Cel.evaluator () .deny))) with
    selectors := [.metadataPresent "X-Tenant"] }

def tenantVisit : Visit where
  call := { method := "/s.A/m", metadata := .ofPairs [("X-Tenant", "acme")], deadline := none }
  request := none
  isStream := false

theorem same_capitals_missed :
    tenantVisit.call.metadata.Holds "X-Tenant" none ∧
      (Selector.metadataPresent "X-Tenant").isMatch "/s.A/m" tenantVisit.call.metadata = false ∧
      (tenantInterceptor.checkVisit tenantVisit).1 = .ok (.allowed .notSelected) := by
  have missed : (Selector.metadataPresent "X-Tenant").isMatch "/s.A/m"
      tenantVisit.call.metadata = false := by decide +kernel
  refine ⟨(Metadata.holds_ofPairs_iff _ _ _).2 ⟨"acme", by simp, by simp⟩, missed, ?_⟩
  refine (Interceptor.notSelected_iff Rules.rulesOnly _ _).2 ⟨?_, by simp [tenantInterceptor], ?_⟩
  · decide +kernel
  · rw [tenantInterceptor, List.forall_mem_singleton]
    exact missed

end CallGuard
