import CallGuard.Identity
import CallGuard.Proofs.Arrivals
import CallGuard.Proofs.Json.Paths
import CallGuard.Proofs.Text.Cutting

set_option autoImplicit false

namespace CallGuard

-- A role with blanks around it, or nothing but blanks.
inductive ItemSpelled : List Char → List String → Prop
  | nothing {cs : List Char} (blank : cs.all Text.isBlank = true) : ItemSpelled cs []
  | role (role : String) {start stop : List Char} (present : role ≠ "")
      (bare : Text.trim role = role) (single : ',' ∉ role.toList)
      (before : start.all Text.isBlank = true) (after : stop.all Text.isBlank = true) :
    ItemSpelled (start ++ role.toList ++ stop) [role]

inductive ValueSpelled : List Char → List String → Prop
  | last {cs : List Char} {roles : List String} (item : ItemSpelled cs roles) :
    ValueSpelled cs roles
  | more {cs ds : List Char} {first rest : List String} (item : ItemSpelled cs first)
      (tail : ValueSpelled ds rest) : ValueSpelled (cs ++ ',' :: ds) (first ++ rest)

inductive RolesSpelled : List String → List String → Prop
  | nil : RolesSpelled [] []
  | cons {value : String} {values first rest : List String} (head : ValueSpelled value.toList first)
      (tail : RolesSpelled values rest) : RolesSpelled (value :: values) (first ++ rest)

def rolesOfItem (cs : List Char) : List String :=
  if Text.trimList cs = [] then [] else [String.ofList (Text.trimList cs)]

theorem comma_not_mem_of_blank {cs : List Char} (blank : cs.all Text.isBlank = true) :
    ',' ∉ cs := fun member => by
  have comma := List.all_eq_true.1 blank ',' member
  exact absurd comma (by decide)

theorem itemSpelled_iff (cs : List Char) (roles : List String) :
    ItemSpelled cs roles ↔ ',' ∉ cs ∧ roles = rolesOfItem cs := by
  have stripped := stripped_stripBy Text.isBlank cs
  constructor
  · intro spelled
    cases spelled with
    | nothing blank =>
      have nothing : Text.trimList cs = [] :=
        Stripped.eq_stripBy ⟨⟨cs, [], by simp, blank, rfl⟩, by simp, by simp⟩
      exact ⟨comma_not_mem_of_blank blank, by rw [rolesOfItem, if_pos nothing]⟩
    | @role role start stop present bare single before after =>
      have inner : Text.trimList role.toList = role.toList := by
        simpa [Text.trim] using congrArg String.toList bare
      have ends := stripped_stripBy Text.isBlank role.toList
      rw [← Text.trimList, inner] at ends
      have found : Text.trimList (start ++ role.toList ++ stop) = role.toList :=
        Stripped.eq_stripBy ⟨⟨start, stop, rfl, before, after⟩, ends.starts, ends.ends⟩
      have nonempty : role.toList ≠ [] := fun nil => present (String.toList_eq_nil_iff.1 nil)
      refine ⟨?_, by rw [rolesOfItem, found, if_neg nonempty, String.ofList_toList]⟩
      simp [single, comma_not_mem_of_blank before, comma_not_mem_of_blank after]
  · rintro ⟨whole, rfl⟩
    obtain ⟨⟨before, after, cut, front, back⟩, starts, ends⟩ := stripped
    rw [← Text.trimList] at cut starts ends
    unfold rolesOfItem
    split
    · next nothing =>
      rw [nothing, List.append_nil] at cut
      exact .nothing (by rw [cut, List.all_append, front, back, Bool.and_self])
    · next something =>
      have bare : Text.trim (String.ofList (Text.trimList cs)) =
          String.ofList (Text.trimList cs) := by
        rw [Text.trim, String.toList_ofList]
        exact congrArg String.ofList
          (Stripped.eq_stripBy ⟨⟨[], [], by simp, rfl, rfl⟩, starts, ends⟩)
      have single : ',' ∉ Text.trimList cs := fun member => whole (by rw [cut]; simp [member])
      have spelled := ItemSpelled.role (String.ofList (Text.trimList cs))
        (by simpa using something) bare (by simpa using single) front back
      rwa [String.toList_ofList, ← cut] at spelled

theorem valueSpelled_iff (cs : List Char) (roles : List String) :
    ValueSpelled cs roles ↔ roles = (Text.pieces ',' cs).flatMap rolesOfItem := by
  constructor
  · intro spelled
    induction spelled with
    | last item =>
      obtain ⟨whole, rfl⟩ := (itemSpelled_iff _ _).1 item
      rw [Text.pieces_of_not_mem whole, List.flatMap_singleton]
    | more item tail ih =>
      obtain ⟨whole, rfl⟩ := (itemSpelled_iff _ _).1 item
      rw [Text.pieces_append, Text.pieces_of_not_mem whole, ih, List.flatMap_append,
        List.flatMap_singleton]
  · rintro rfl
    have each : ∀ piece ∈ Text.pieces ',' cs, ItemSpelled piece (rolesOfItem piece) :=
      fun piece member =>
        (itemSpelled_iff piece _).2 ⟨Text.not_mem_of_mem_pieces member, rfl⟩
    have joined (piece : List Char) (rest : List (List Char))
        (each : ∀ p ∈ piece :: rest, ItemSpelled p (rolesOfItem p)) :
        ValueSpelled ([','].intercalate (piece :: rest))
          ((piece :: rest).flatMap rolesOfItem) := by
      induction rest generalizing piece with
      | nil => simpa using ValueSpelled.last (each piece List.mem_cons_self)
      | cons next rest ih =>
        have tail := ih next fun p member => each p (List.mem_cons_of_mem _ member)
        simpa using ValueSpelled.more (each piece List.mem_cons_self) tail
    obtain ⟨piece, rest, cut⟩ := List.exists_cons_of_ne_nil (Text.pieces_ne_nil ',' cs)
    have spelled := joined piece rest (cut ▸ each)
    rwa [← cut, Text.intercalate_pieces] at spelled

namespace HeaderIdentity

theorem rolesOf_eq (value : String) :
    rolesOf value = (Text.pieces ',' value.toList).flatMap rolesOfItem := by
  rw [rolesOf, Text.splitOnChar, List.map_map]
  induction Text.pieces ',' value.toList with
  | nil => rfl
  | cons piece rest ih =>
    rw [List.map_cons, List.flatMap_cons, ← ih]
    by_cases nothing : Text.trimList piece = [] <;> simp [rolesOfItem, Text.trim, nothing]

theorem rolesSpelled_iff (values roles : List String) :
    RolesSpelled values roles ↔ roles = values.flatMap rolesOf := by
  constructor
  · intro spelled
    induction spelled with
    | nil => rfl
    | cons head tail ih =>
      rw [List.flatMap_cons, ih, rolesOf_eq, ← (valueSpelled_iff _ _).1 head]
  · rintro rfl
    induction values with
    | nil => exact .nil
    | cons value values ih => exact .cons ((valueSpelled_iff _ _).2 (rolesOf_eq value)) ih

theorem rolesOf_intercalate (values : List String) :
    rolesOf (",".intercalate values) = values.flatMap rolesOf := by
  cases values with
  | nil => rfl
  | cons value rest =>
    have present : (value :: rest).map String.toList ≠ [] := by simp
    have comma : ",".toList = [','] := rfl
    rw [rolesOf_eq, String.toList_intercalate, comma, Text.pieces_intercalate present,
      List.flatMap_assoc, List.flatMap_map]
    exact List.flatMap_congr fun v _ => (rolesOf_eq v).symm

def attributeOf? (h : HeaderIdentity) (entry : String × String) : Option (String × String) :=
  (Text.dropPrefix? h.attributeStart.toList entry.1.toList).map fun name =>
    (String.ofList name, entry.2)

theorem attributeOf?_eq_some_iff (h : HeaderIdentity) (entry : String × String)
    (name value : String) :
    h.attributeOf? entry = some (name, value) ↔ entry = (h.attributeStart ++ name, value) := by
  obtain ⟨key, text⟩ := entry
  simp only [attributeOf?, Option.map_eq_some_iff, Text.dropPrefix?_eq_some_iff, Prod.mk.injEq]
  constructor
  · rintro ⟨rest, named, rfl, rfl⟩
    exact ⟨String.toList_injective (by simp [named]), rfl⟩
  · rintro ⟨rfl, rfl⟩
    exact ⟨name.toList, by simp, by simp, rfl⟩

theorem attributes_eq (h : HeaderIdentity) (m : Metadata) :
    m.values.entries.filterMap h.attribute? = m.normalized.entries.filterMap h.attributeOf? := by
  rw [Metadata.normalized, Keyed.map, List.filterMap_map]
  rfl

theorem get?_attributes (h : HeaderIdentity) (normalized : Keyed String) (name : String) :
    (Keyed.ofList (normalized.entries.filterMap h.attributeOf?)).get? name =
      normalized.get? (h.attributeStart ++ name) := by
  have given (value : String) :
      (name, value) ∈ normalized.entries.filterMap h.attributeOf? ↔
        normalized.get? (h.attributeStart ++ name) = some value := by
    simp only [List.mem_filterMap, attributeOf?_eq_some_iff, exists_eq_right,
      Keyed.mem_entries_iff]
  have found (value : String)
      (read : (Keyed.ofList (normalized.entries.filterMap h.attributeOf?)).get? name =
        some value) : normalized.get? (h.attributeStart ++ name) = some value :=
    (given value).1 (Json.mem_ofList ((Keyed.mem_entries_iff _ name value).2 read))
  cases read : (Keyed.ofList (normalized.entries.filterMap h.attributeOf?)).get? name with
  | some value => rw [found value read]
  | none =>
    -- No entry gives this attribute, or it would have been found.
    rw [Keyed.get?_ofList, List.lookup_eq_none_iff] at read
    symm
    rw [Option.eq_none_iff_forall_ne_some]
    intro value present
    have member := List.mem_reverse.2 ((given value).2 present)
    simpa using read _ member

theorem roles_eq (m : Metadata) (key : String) :
    (m.getAll key).flatMap rolesOf = rolesOf ((m.normalized.get? key).getD "") := by
  rw [Metadata.get?_normalized, Metadata.getAll]
  cases m.values.get? key with
  | none => rfl
  | some values => exact (rolesOf_intercalate values).symm

def principalOf (h : HeaderIdentity) (user : Option String) (normalized : Keyed String) :
    Except (List String) Principal :=
  match user with
  | none => .error ["missing " ++ h.userHeader ++ " header"]
  | some userId =>
    if Text.trim userId = "" then .error ["missing " ++ h.userHeader ++ " header"]
    else .ok
      { userId
        roles := rolesOf ((normalized.get? h.rolesHeader).getD "")
        attributes := .ofList (normalized.entries.filterMap h.attributeOf?) }

theorem principal_eq (h : HeaderIdentity) (call : Call) :
    h.principal call =
      h.principalOf (call.metadata.get? h.userHeader) call.metadata.normalized := by
  have roles := roles_eq call.metadata h.rolesHeader
  have attributes := attributes_eq h call.metadata
  cases found : call.metadata.get? h.userHeader with
  | none => simp [principal, principalOf, found]
  | some userId => simp [principal, principalOf, found, roles, attributes]

theorem principalOf_ok {h : HeaderIdentity} {user : Option String} {normalized : Keyed String}
    {p : Principal} (named : h.principalOf user normalized = .ok p) :
    user = some p.userId ∧ p.roles = rolesOf ((normalized.get? h.rolesHeader).getD "") ∧
      p.attributes = .ofList (normalized.entries.filterMap h.attributeOf?) := by
  unfold principalOf at named
  split at named
  · cases named
  · split at named
    · cases named
    · cases named
      exact ⟨rfl, rfl, rfl⟩

theorem principalOf_error_iff (h : HeaderIdentity) (user : Option String)
    (normalized : Keyed String) (causes : List String) :
    h.principalOf user normalized = .error causes ↔
      causes = ["missing " ++ h.userHeader ++ " header"] ∧
        ∀ userId, user = some userId → Text.trim userId = "" := by
  cases user with
  | none => simp [principalOf, @eq_comm _ causes]
  | some userId =>
    by_cases blank : Text.trim userId = ""
    · simp [principalOf, blank, @eq_comm _ causes]
    · simp [principalOf, blank]

theorem extractor_error_iff (h : HeaderIdentity) (call : Call) (causes : List String) :
    h.extractor call = .error causes ↔
      causes = ["missing " ++ h.userHeader ++ " header"] ∧
        ∀ userId, call.metadata.get? h.userHeader = some userId → Text.trim userId = "" := by
  rw [extractor, principal_eq, ← principalOf_error_iff h _ call.metadata.normalized]
  cases h.principalOf (call.metadata.get? h.userHeader) call.metadata.normalized <;>
    simp [Except.map]

end HeaderIdentity

theorem Principal.attributes_toJson (p : Principal) (name : String) :
    (p.toJson.field? "attrs").bind (Json.field? name) = (p.attributes.get? name).map .str := by
  rw [← Keyed.get?_map]
  rfl

namespace HeaderIdentity

theorem caller_of_normalized (h : HeaderIdentity) {a b : Call}
    (first : a.metadata.get? h.userHeader = b.metadata.get? h.userHeader)
    (same : a.metadata.normalized = b.metadata.normalized) :
    h.extractor a = h.extractor b ∧
      h.extractor a = (h.principal a).map Principal.toJson ∧
      (∀ causes, h.extractor a = .error causes ↔
        causes = ["missing " ++ h.userHeader ++ " header"] ∧
          ∀ userId, a.metadata.get? h.userHeader = some userId → Text.trim userId = "") ∧
      ∀ p, h.principal a = .ok p →
        a.metadata.get? h.userHeader = some p.userId ∧
        (∀ roles, RolesSpelled (a.metadata.getAll h.rolesHeader) roles ↔ roles = p.roles) ∧
        (∀ roles, RolesSpelled [",".intercalate (a.metadata.getAll h.rolesHeader)] roles ↔
          roles = p.roles) ∧
        (∀ name, p.attributes.get? name =
          a.metadata.normalized.get? (h.attributeStart ++ name)) ∧
        ∃ document, h.extractor a = .ok document ∧
          document.field? "user_id" = some (.str p.userId) ∧
          document.field? "roles" = some (.arr (p.roles.map .str)) ∧
          ∀ name, (document.field? "attrs").bind (Json.field? name) =
            (a.metadata.normalized.get? (h.attributeStart ++ name)).map .str := by
  refine ⟨?_, rfl, h.extractor_error_iff a, fun p named => ?_⟩
  · rw [extractor, extractor, principal_eq, principal_eq, first, same]
  · have given : h.extractor a = .ok p.toJson := by rw [extractor, named, Except.map]
    rw [principal_eq] at named
    obtain ⟨user, roles, attributes⟩ := principalOf_ok named
    rw [← roles_eq] at roles
    have held (name : String) : p.attributes.get? name =
        a.metadata.normalized.get? (h.attributeStart ++ name) := by
      rw [attributes, get?_attributes]
    refine ⟨user, fun spelled => ?_, fun spelled => ?_, held, p.toJson, given, rfl, rfl,
      fun name => ?_⟩
    · rw [roles, rolesSpelled_iff]
    · rw [roles, rolesSpelled_iff, List.flatMap_singleton, rolesOf_intercalate]
    · rw [p.attributes_toJson, held]

def severalValues : Call :=
  ⟨"/s.A/m", .ofPairs [("x-user-id", "123"), ("x-user-roles", "admin, user"),
    ("x-user-roles", " ,auditor"), ("x-user-attr-org", "acme")], none⟩

def joinedValue : Call :=
  ⟨"/s.A/m", .ofPairs [("x-user-attr-org", "acme"), ("x-user-id", "123"),
    ("x-user-roles", "admin, user, ,auditor")], none⟩

theorem caller_of_joined :
    severalValues.metadata.get? "x-user-id" = joinedValue.metadata.get? "x-user-id" ∧
      severalValues.metadata.normalized = joinedValue.metadata.normalized ∧
      standard.extractor severalValues = standard.extractor joinedValue ∧
      (∃ p, standard.principal severalValues = .ok p ∧ p.roles = ["admin", "user", "auditor"] ∧
        p.attributes.get? "org" = some "acme") ∧
      ∃ document, standard.extractor joinedValue = .ok document ∧
        document.field? "user_id" = some (.str "123") ∧
        document.field? "roles" = some (.arr [.str "admin", .str "user", .str "auditor"]) ∧
        (document.field? "attrs").bind (Json.field? "org") = some (.str "acme") := by
  have first : severalValues.metadata.get? "x-user-id" =
      joinedValue.metadata.get? "x-user-id" := by decide +kernel
  have same : severalValues.metadata.normalized = joinedValue.metadata.normalized :=
    eq_of_beq (by decide +kernel)
  obtain ⟨alike, -, -, facts⟩ := caller_of_normalized standard first same
  have named : ∃ p, standard.principal severalValues = .ok p := by
    rw [principal_eq]
    exact ⟨_, rfl⟩
  obtain ⟨p, named⟩ := named
  obtain ⟨user, roles, -, attributes, document, given, id, listed, held⟩ := facts p named
  have three : p.roles = ["admin", "user", "auditor"] :=
    ((roles _).1 ((rolesSpelled_iff _ _).2 (by decide +kernel))).symm
  have stands : severalValues.metadata.normalized.get? "x-user-attr-org" = some "acme" := by
    decide +kernel
  have known : severalValues.metadata.get? "x-user-id" = some "123" := by decide +kernel
  have userId : p.userId = "123" := Option.some.inj (user.symm.trans known)
  refine ⟨first, same, alike, ⟨p, named, three, (attributes "org").trans stands⟩, document,
    alike.symm.trans given, ?_, ?_, ?_⟩
  · rw [id, userId]
  · rw [listed, three]
    rfl
  · exact (held "org").trans (congrArg _ stands)

end HeaderIdentity

end CallGuard
