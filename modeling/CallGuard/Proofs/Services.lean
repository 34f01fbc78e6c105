import CallGuard.Proofs.Text.Cutting
import CallGuard.Selector
import Mathlib.Data.String.Basic

set_option autoImplicit false

namespace CallGuard

structure InService (method service : String) : Prop where
  named : service ≠ ""
  unbroken : '/' ∉ service.toList
  starts : ∃ rest, method = "/" ++ service ++ "/" ++ rest

theorem start_injective {service other : String}
    (same : "/" ++ service ++ "/" = "/" ++ other ++ "/") : service = other := by
  have lists := congrArg String.toList same
  simp only [String.toList_append] at lists
  exact String.toList_injective (List.append_cancel_left (List.append_cancel_right lists))

theorem ne_slash_of_mem {service : List Char} (unbroken : '/' ∉ service) :
    ∀ c ∈ service, (c != '/') = true := by
  intro c member
  rw [bne_iff_ne]
  rintro rfl
  exact unbroken member

theorem servicePrefix?_slash {method : String} {rest : List Char}
    (spelled : method.toList = '/' :: rest) :
    servicePrefix? method =
      if rest.takeWhile (· != '/') = [] ∨ rest.dropWhile (· != '/') = [] then none
      else some (String.ofList ('/' :: rest.takeWhile (· != '/') ++ ['/'])) := by
  simp only [servicePrefix?, spelled]
  cases first : rest.takeWhile (· != '/') <;> cases later : rest.dropWhile (· != '/') <;> simp

theorem servicePrefix?_of_inService {method service : String}
    (inService : InService method service) :
    servicePrefix? method = some ("/" ++ service ++ "/") := by
  obtain ⟨named, unbroken, rest, rfl⟩ := inService
  have spelled : ("/" ++ service ++ "/" ++ rest).toList =
      '/' :: (service.toList ++ '/' :: rest.toList) := by simp
  have kept := ne_slash_of_mem unbroken
  have nonempty : service.toList ≠ [] := fun nil => named (String.toList_eq_nil_iff.1 nil)
  rw [servicePrefix?_slash spelled, List.takeWhile_append_of_pos kept,
    List.dropWhile_append_of_pos kept]
  simp only [bne_self_eq_false, Bool.false_eq_true, not_false_eq_true, List.takeWhile_cons_of_neg,
    List.dropWhile_cons_of_neg, List.append_nil, nonempty, reduceCtorEq, or_self, if_false]
  exact congrArg some (String.toList_injective (by simp))

theorem inService_of_servicePrefix? {method start : String}
    (found : servicePrefix? method = some start) :
    ∃ service, InService method service ∧ start = "/" ++ service ++ "/" := by
  obtain ⟨rest, spelled⟩ : ∃ rest, method.toList = '/' :: rest := by
    unfold servicePrefix? at found
    split at found
    · exact ⟨_, ‹_›⟩
    · cases found
  rw [servicePrefix?_slash spelled] at found
  split at found
  · cases found
  · rename_i present
    obtain ⟨nonempty, more⟩ := not_or.1 present
    cases found
    obtain ⟨slash, tail, later⟩ := List.exists_cons_of_ne_nil more
    have stops : slash = '/' := by
      have first := List.head?_dropWhile_not (· != '/') rest
      rw [later] at first
      simpa using first
    subst stops
    have whole : rest.takeWhile (· != '/') ++ '/' :: tail = rest := by
      rw [← later]
      exact List.takeWhile_append_dropWhile
    refine ⟨String.ofList (rest.takeWhile (· != '/')), ⟨?_, ?_, String.ofList tail, ?_⟩, ?_⟩
    · exact fun empty => nonempty (by simpa using congrArg String.toList empty)
    · intro member
      rw [String.toList_ofList] at member
      have kept := List.all_eq_true.1 (List.all_takeWhile (p := (· != '/')) (l := rest)) _ member
      simp at kept
    · apply String.toList_injective
      rw [spelled]
      simp [whole]
    · exact String.toList_injective (by simp)

theorem servicePrefix?_eq_some_iff (method start : String) :
    servicePrefix? method = some start ↔
      ∃ service, InService method service ∧ start = "/" ++ service ++ "/" := by
  refine ⟨inService_of_servicePrefix?, ?_⟩
  rintro ⟨service, inService, rfl⟩
  exact servicePrefix?_of_inService inService

theorem servicePrefix?_eq_iff (method service : String) :
    servicePrefix? method = some ("/" ++ service ++ "/") ↔ InService method service := by
  rw [servicePrefix?_eq_some_iff]
  constructor
  · rintro ⟨other, inService, same⟩
    rwa [start_injective same]
  · exact fun inService => ⟨service, inService, rfl⟩

theorem InService.unique {method service other : String} (inService : InService method service)
    (also : InService method other) : service = other := by
  have first := servicePrefix?_of_inService inService
  rw [servicePrefix?_of_inService also] at first
  exact start_injective (Option.some.inj first).symm

def cutAfter (service : String) : String.Pos.Raw := ⟨service.utf8ByteSize + 2⟩

theorem InService.cut {method service : String} (inService : InService method service) :
    (cutAfter service).IsValid method ∧
      String.Pos.Raw.extract method 0 (cutAfter service) = "/" ++ service ++ "/" := by
  obtain ⟨-, -, rest, rfl⟩ := inService
  have size : cutAfter service = ("/" ++ service ++ "/").rawEndPos := by
    simp only [cutAfter, String.rawEndPos, String.utf8ByteSize_append]
    congr 1
    have one : "/".utf8ByteSize = 1 := by decide
    omega
  refine ⟨String.Pos.Raw.isValid_iff_exists_append.2 ⟨_, rest, rfl, size⟩, ?_⟩
  have whole := String.extract_of_valid [] ("/" ++ service ++ "/").toList rest.toList
  simp only [List.nil_append, ← String.toList_append, String.ofList_toList, String.utf8Len_nil,
    Nat.zero_add, String.utf8Len_toList] at whole
  rw [size]
  exact whole

def Bare (name inner : String) : Prop := Stripped (· == '/') name.toList inner.toList

theorem bare_iff (name inner : String) : Bare name inner ↔ inner = dropSlashes name := by
  constructor
  · intro bare
    exact String.toList_injective (by rw [dropSlashes, String.toList_ofList, bare.eq_stripBy])
  · rintro rfl
    rw [Bare, dropSlashes, String.toList_ofList]
    exact stripped_stripBy _ _

theorem InService.bare {method service : String} (inService : InService method service) :
    Bare ("/" ++ service ++ "/") service where
  cut := ⟨['/'], ['/'], by simp, by decide, by decide⟩
  starts c first := by
    simpa using ne_slash_of_mem inService.unbroken c (List.mem_of_mem_head? first)
  ends c last := by
    simpa using ne_slash_of_mem inService.unbroken c (List.mem_of_mem_getLast? last)

theorem isMatch_service_iff (method name : String) (metadata : Metadata) :
    (Selector.service name).isMatch method metadata = true ↔
      InService method (dropSlashes name) := by
  unfold Selector.isMatch
  cases found : servicePrefix? method with
  | none =>
    refine ⟨fun no => by simp at no, fun inService => ?_⟩
    rw [servicePrefix?_of_inService inService] at found
    cases found
  | some start =>
    obtain ⟨service, inService, rfl⟩ := inService_of_servicePrefix? found
    have own : dropSlashes ("/" ++ service ++ "/") = service :=
      ((bare_iff _ _).1 inService.bare).symm
    simp only [own, beq_iff_eq]
    exact ⟨fun same => same ▸ inService, fun also => inService.unique also⟩

theorem startsWith_iff_inService {method service : String} (inService : InService method service)
    (other : String) :
    Text.startsWith ("/" ++ service ++ "/").toList other.toList = true ↔
      InService other service := by
  rw [Text.startsWith_iff]
  constructor
  · rintro ⟨rest, whole⟩
    refine ⟨inService.named, inService.unbroken, String.ofList rest, ?_⟩
    apply String.toList_injective
    rw [String.toList_append, String.toList_ofList, whole]
  · rintro ⟨-, -, rest, rfl⟩
    exact ⟨rest.toList, (String.toList_append).symm⟩

namespace Catalog

structure Covers (c : Catalog) (other method : String) : Prop where
  differs : other ≠ method
  ruled : ∃ set, c.lookup? other = some set ∧ set.rules ≠ []
  sibling : ∃ start, servicePrefix? other = some start ∧ servicePrefix? method = some start

theorem serviceCovered_iff (c : Catalog) (method : String) :
    c.serviceCovered method = true ↔ ∃ other, c.Covers other method := by
  unfold serviceCovered
  cases found : servicePrefix? method with
  | none =>
    refine ⟨fun no => by simp at no, ?_⟩
    rintro ⟨other, -, -, start, -, own⟩
    rw [found] at own
    cases own
  | some start =>
    obtain ⟨service, inService, rfl⟩ := inService_of_servicePrefix? found
    simp only [List.any_eq_true, Bool.and_eq_true, bne_iff_ne, ne_eq, Bool.not_eq_true',
      List.isEmpty_eq_false_iff, startsWith_iff_inService inService]
    constructor
    · rintro ⟨⟨other, set⟩, member, ⟨differs, ruled⟩, sibling⟩
      have listed := (c.methods.mem_entries_iff other set).1 member
      exact ⟨other, differs, ⟨set, listed, ruled⟩, _, servicePrefix?_of_inService sibling, found⟩
    · rintro ⟨other, differs, ⟨set, listed, ruled⟩, start, sibling, own⟩
      have member := (c.methods.mem_entries_iff other set).2 listed
      rw [found, Option.some.injEq] at own
      subst own
      have inService := (servicePrefix?_eq_iff other service).1 sibling
      exact ⟨(other, set), member, ⟨differs, ruled⟩, inService⟩

end Catalog

theorem sameService_iff (method other : String) :
    (∃ start, servicePrefix? other = some start ∧ servicePrefix? method = some start) ↔
      (servicePrefix? method).isSome = true ∧
        ∀ name metadata, (Selector.service name).isMatch method metadata =
          (Selector.service name).isMatch other metadata := by
  constructor
  · rintro ⟨start, sibling, own⟩
    refine ⟨by simp [own], fun name metadata => ?_⟩
    rw [Bool.eq_iff_iff, isMatch_service_iff, isMatch_service_iff, ← servicePrefix?_eq_iff,
      ← servicePrefix?_eq_iff, own, sibling]
  · rintro ⟨present, alike⟩
    obtain ⟨start, own⟩ := Option.isSome_iff_exists.1 present
    obtain ⟨service, inService, rfl⟩ := inService_of_servicePrefix? own
    refine ⟨_, ?_, own⟩
    have bare : dropSlashes ("/" ++ service ++ "/") = service :=
      ((bare_iff _ _).1 inService.bare).symm
    have matched : (Selector.service ("/" ++ service ++ "/")).isMatch method .empty = true := by
      rw [isMatch_service_iff, bare]
      exact inService
    rw [alike, isMatch_service_iff, bare] at matched
    exact servicePrefix?_of_inService matched

theorem one_notion_of_service (method : String) :
    (∀ start, servicePrefix? method = some start ↔
      ∃ service, InService method service ∧ start = "/" ++ service ++ "/") ∧
    (∀ service, InService method service → (cutAfter service).IsValid method ∧
      String.Pos.Raw.extract method 0 (cutAfter service) = "/" ++ service ++ "/") ∧
    (∀ c : Catalog, c.serviceCovered method = true ↔ ∃ other, c.Covers other method) ∧
    (∀ name metadata, (Selector.service name).isMatch method metadata = true ↔
      ∃ inner, Bare name inner ∧ servicePrefix? method = some ("/" ++ inner ++ "/")) ∧
    (∀ (c : Catalog) other, c.Covers other method → ∀ name metadata,
      (Selector.service name).isMatch method metadata =
        (Selector.service name).isMatch other metadata) ∧
    ∀ other, (∃ start, servicePrefix? other = some start ∧ servicePrefix? method = some start) ↔
      (servicePrefix? method).isSome = true ∧
        ∀ name metadata, (Selector.service name).isMatch method metadata =
          (Selector.service name).isMatch other metadata := by
  refine ⟨servicePrefix?_eq_some_iff method, fun service inService => inService.cut,
    fun c => c.serviceCovered_iff method, fun name metadata => ?_, fun c other covers => ?_,
    sameService_iff method⟩
  · simp only [isMatch_service_iff, bare_iff, exists_eq_left, servicePrefix?_eq_iff]
  · exact ((sameService_iff method other).1 covers.sibling).2

end CallGuard
