import CallGuard.Cel.Evaluator

set_option autoImplicit false

namespace CallGuard.Cel

namespace Expr

def parts : Expr → List (List String × Expr)
  | literal _ => []
  | ident _ => []
  | select e _ => [([], e)]
  | has e _ => [([], e)]
  | unary _ e => [([], e)]
  | binary _ a b => [([], a), ([], b)]
  | conditional a b c => [([], a), ([], b), ([], c)]
  | call _ args => args.map fun e => ([], e)
  | method target _ args => ([], target) :: args.map fun e => ([], e)
  | list items => items.map fun e => ([], e)
  | map entries => entries.flatMap fun entry => [([], entry.1), ([], entry.2)]
  | message fields => fields.map fun field => ([], field.2)
  | comprehension item range accu init cond step result =>
    [([], range), ([], init), ([accu], result), ([item, accu], cond), ([item, accu], step)]

-- Not in scope at the start, and nothing on the way binds it.
inductive FreeAt : List String → Expr → List Nat → String → Prop
  | here (scope : List String) (name : String) (unbound : name ∉ scope) :
    FreeAt scope (ident name) [] name
  | inside (scope names : List String) (e part : Expr) (i : Nat) (way : List Nat) (name : String)
      (found : (parts e)[i]? = some (names, part)) (free : FreeAt (names ++ scope) part way name) :
    FreeAt scope e (i :: way) name

def Closed (scope : List String) (e : Expr) : Prop := ∀ way name, ¬ FreeAt scope e way name

def FirstFree (scope : List String) (e : Expr) (name : String) : Prop :=
  ∃ way, FreeAt scope e way name ∧ ∀ other another, FreeAt scope e other another → ¬ other < way

theorem sizeOf_part {e part : Expr} {names : List String} (member : (names, part) ∈ parts e) :
    sizeOf part < sizeOf e := by
  cases e with
  | literal | ident => simp [parts] at member
  | select e field | has e field | unary op e =>
    obtain ⟨rfl, rfl⟩ := by simpa [parts] using member
    simp only [select.sizeOf_spec, has.sizeOf_spec, unary.sizeOf_spec]
    omega
  | binary op a b =>
    rw [binary.sizeOf_spec]
    obtain ⟨rfl, rfl⟩ | ⟨rfl, rfl⟩ := by simpa [parts] using member
    all_goals omega
  | conditional a b c =>
    rw [conditional.sizeOf_spec]
    obtain ⟨rfl, rfl⟩ | ⟨rfl, rfl⟩ | ⟨rfl, rfl⟩ := by simpa [parts] using member
    all_goals omega
  | call function args | list args =>
    obtain ⟨listed, rfl⟩ := by simpa [parts] using member
    have := List.sizeOf_lt_of_mem listed
    simp only [call.sizeOf_spec, list.sizeOf_spec]
    omega
  | method target function args =>
    rw [method.sizeOf_spec]
    obtain ⟨rfl, rfl⟩ | ⟨listed, rfl⟩ := by simpa [parts] using member
    · omega
    · have := List.sizeOf_lt_of_mem listed
      omega
  | map entries =>
    rw [map.sizeOf_spec]
    obtain ⟨k, v, listed, which⟩ := by simpa [parts] using member
    have smaller := List.sizeOf_lt_of_mem listed
    rw [Prod.mk.sizeOf_spec] at smaller
    rcases which with ⟨rfl, rfl⟩ | ⟨rfl, rfl⟩ <;> omega
  | message fields =>
    rw [message.sizeOf_spec]
    obtain ⟨⟨name, listed⟩, rfl⟩ := by simpa [parts] using member
    have smaller := List.sizeOf_lt_of_mem listed
    rw [Prod.mk.sizeOf_spec] at smaller
    omega
  | comprehension item range accu init cond step result =>
    rw [comprehension.sizeOf_spec]
    obtain ⟨rfl, rfl⟩ | ⟨rfl, rfl⟩ | ⟨rfl, rfl⟩ | ⟨rfl, rfl⟩ | ⟨rfl, rfl⟩ := by
      simpa [parts] using member
    all_goals omega

def firstFreeOfParts? (scope : List String) (ps : List (List String × Expr)) : Option String :=
  ps.findSome? fun part => firstFree? (fun name => (part.1 ++ scope).contains name) part.2

theorem firstFreeOfParts?_cons (scope : List String) (part : List String × Expr)
    (ps : List (List String × Expr)) :
    firstFreeOfParts? scope (part :: ps) =
      (firstFree? (fun name => (part.1 ++ scope).contains name) part.2).or
        (firstFreeOfParts? scope ps) := by
  cases h : firstFree? (fun name => (part.1 ++ scope).contains name) part.2 <;>
    simp only [firstFreeOfParts?, List.findSome?_cons, h, Option.some_or, Option.none_or]

theorem firstFreeOfParts?_nil (scope : List String) : firstFreeOfParts? scope [] = none := rfl

theorem firstFreeOfList?_eq (scope : List String) (es : List Expr) :
    firstFreeOfList? (fun name => scope.contains name) es =
      firstFreeOfParts? scope (es.map fun e => ([], e)) := by
  induction es with
  | nil => rfl
  | cons e rest ih => simp only [firstFreeOfList?, ih, List.map_cons, firstFreeOfParts?_cons,
      List.nil_append]

theorem firstFreeOfEntries?_eq (scope : List String) (entries : List (Expr × Expr)) :
    firstFreeOfEntries? (fun name => scope.contains name) entries =
      firstFreeOfParts? scope (entries.flatMap fun entry => [([], entry.1), ([], entry.2)]) := by
  induction entries with
  | nil => rfl
  | cons entry rest ih =>
    simp only [firstFreeOfEntries?, ih, List.flatMap_cons, List.cons_append, List.nil_append,
      firstFreeOfParts?_cons, Option.or_assoc]

theorem firstFreeOfFields?_eq (scope : List String) (fields : List (String × Expr)) :
    firstFreeOfFields? (fun name => scope.contains name) fields =
      firstFreeOfParts? scope (fields.map fun field => ([], field.2)) := by
  induction fields with
  | nil => rfl
  | cons field rest ih =>
    simp only [firstFreeOfFields?, ih, List.map_cons, firstFreeOfParts?_cons, List.nil_append]

theorem firstFree?_eq_parts (scope : List String) (e : Expr) (inner : ∀ name, e ≠ ident name) :
    firstFree? (fun name => scope.contains name) e = firstFreeOfParts? scope (parts e) := by
  cases e with
  | ident name => exact absurd rfl (inner name)
  | literal l => rfl
  | call => exact firstFreeOfList?_eq scope _
  | method => simp only [firstFree?, parts, firstFreeOfList?_eq, firstFreeOfParts?_cons,
      List.nil_append]
  | list => exact firstFreeOfList?_eq scope _
  | map => exact firstFreeOfEntries?_eq scope _
  | message => exact firstFreeOfFields?_eq scope _
  | _ => simp only [firstFree?, parts, firstFreeOfParts?_cons, firstFreeOfParts?_nil, Option.or_none,
      Option.or_assoc, List.cons_append, List.nil_append, List.contains_cons]

theorem firstFree?_ident (scope : List String) (name : String) :
    firstFree? (fun name => scope.contains name) (ident name) =
      if name ∈ scope then none else some name := by
  simp [firstFree?]

theorem closed_part {scope names : List String} {e part : Expr} (closed : Closed scope e)
    (member : (names, part) ∈ parts e) : Closed (names ++ scope) part := by
  obtain ⟨i, found⟩ := List.mem_iff_getElem?.1 member
  exact fun way name free => closed (i :: way) name (.inside scope names e part i way name found free)

theorem closed_of_firstFree? (scope : List String) (e : Expr)
    (none : firstFree? (fun name => scope.contains name) e = none) : Closed scope e := by
  intro way name free
  cases free with
  | here _ _ unbound =>
    rw [firstFree?_ident, if_neg unbound] at none
    cases none
  | inside _ names _ part i way _ found free =>
    have inner : ∀ name, e ≠ ident name := by
      rintro name rfl
      simp [parts] at found
    have member := List.mem_of_getElem? found
    rw [firstFree?_eq_parts scope e inner, firstFreeOfParts?, List.findSome?_eq_none_iff] at none
    exact closed_of_firstFree? (names ++ scope) part (none _ member) way name free
termination_by sizeOf e
decreasing_by exact sizeOf_part member

theorem firstFree_of_firstFree? (scope : List String) (e : Expr) (name : String)
    (found : firstFree? (fun name => scope.contains name) e = some name) :
    FirstFree scope e name := by
  by_cases inner : ∀ name, e ≠ ident name
  · rw [firstFree?_eq_parts scope e inner, firstFreeOfParts?, List.findSome?_eq_some_iff] at found
    obtain ⟨before, ⟨names, part⟩, later, split, found, closed⟩ := found
    have member : (names, part) ∈ parts e := by simp [split]
    obtain ⟨way, free, first⟩ := firstFree_of_firstFree? (names ++ scope) part name found
    have here : (parts e)[before.length]? = some (names, part) := by simp [split]
    refine ⟨before.length :: way, .inside scope names e part _ way name here free, ?_⟩
    intro other another freeThere less
    cases freeThere with
    | here => exact inner _ rfl
    | inside _ names' _ part' i way' _ found' free' =>
      rcases List.cons_lt_cons_iff.1 less with earlier | ⟨rfl, inPart⟩
      · have among : (names', part') ∈ before := by
          rw [split, List.getElem?_append_left earlier] at found'
          exact List.mem_of_getElem? found'
        exact closed_of_firstFree? _ _ (closed _ among) way' another free'
      · obtain ⟨rfl, rfl⟩ : names' = names ∧ part' = part := by simpa [here, eq_comm] using found'
        exact first way' another free' inPart
  · obtain ⟨own, rfl⟩ : ∃ own, e = ident own := by simpa using inner
    rw [firstFree?_ident] at found
    obtain ⟨unbound, rfl⟩ : own ∉ scope ∧ own = name := by simpa using found
    exact ⟨[], .here scope own unbound, fun other another _ => List.not_lt_nil other⟩
termination_by sizeOf e
decreasing_by exact sizeOf_part member

theorem FreeAt.name_unique {scope : List String} {e : Expr} {way : List Nat} {name another : String}
    (free : FreeAt scope e way name) (other : FreeAt scope e way another) : name = another := by
  induction free with
  | here scope name unbound =>
    cases other
    rfl
  | inside scope names e part i way name found free ih =>
    cases other with | inside _ names' _ part' _ _ _ found' other =>
    obtain ⟨rfl, rfl⟩ : names' = names ∧ part' = part := by simpa [found, eq_comm] using found'
    exact ih other

theorem FirstFree.unique {scope : List String} {e : Expr} {name another : String}
    (first : FirstFree scope e name) (other : FirstFree scope e another) : name = another := by
  obtain ⟨way, free, least⟩ := first
  obtain ⟨way', free', least'⟩ := other
  obtain rfl : way = way' := List.le_antisymm (least way' another free') (least' way name free)
  exact free.name_unique free'

theorem firstFree?_eq_some_iff (scope : List String) (e : Expr) (name : String) :
    firstFree? (fun name => scope.contains name) e = some name ↔ FirstFree scope e name := by
  refine ⟨firstFree_of_firstFree? scope e name, fun first => ?_⟩
  cases found : firstFree? (fun name => scope.contains name) e with
  | none =>
    obtain ⟨way, free, -⟩ := first
    exact absurd free (closed_of_firstFree? scope e found way name)
  | some another => rw [(firstFree_of_firstFree? scope e another found).unique first]

theorem firstFree?_eq_none_iff (scope : List String) (e : Expr) :
    firstFree? (fun name => scope.contains name) e = none ↔ Closed scope e := by
  refine ⟨closed_of_firstFree? scope e, fun closed => ?_⟩
  cases found : firstFree? (fun name => scope.contains name) e with
  | none => rfl
  | some name =>
    obtain ⟨way, free, -⟩ := firstFree_of_firstFree? scope e name found
    exact absurd free (closed way name)

end Expr

def declared : List String := Variable.all.map Variable.name

theorem isDeclared_eq (name : String) : Variable.isDeclared name = declared.contains name := by
  simp only [Variable.isDeclared, declared, Variable.all, List.any_cons, List.any_nil, List.map_cons,
    List.map_nil, List.contains_cons, List.contains_nil, Bool.beq_comm]

end CallGuard.Cel
