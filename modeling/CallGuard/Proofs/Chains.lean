import CallGuard.Proofs.Interception
import Mathlib

set_option autoImplicit false

namespace CallGuard

namespace Authorizer

variable {α : Type}

mutual

-- A chain without links has a place of its own, since it refuses every call.
def items : Authorizer α → List (Option α)
  | single a => [some a]
  | chain [] => [none]
  | chain (a :: rest) => a.items ++ itemsOf rest

def itemsOf : List (Authorizer α) → List (Option α)
  | [] => []
  | a :: rest => a.items ++ itemsOf rest

end

theorem itemsOf_append (links more : List (Authorizer α)) :
    itemsOf (links ++ more) = itemsOf links ++ itemsOf more := by
  induction links with
  | nil => rfl
  | cons a rest ih => simp [itemsOf, ih]

theorem items_chain {links : List (Authorizer α)} (links_ne : links ≠ []) :
    (chain links).items = itemsOf links := by
  cases links with
  | nil => exact absurd rfl links_ne
  | cons a rest => rw [items, itemsOf]

-- The links of a chain that is a link take its place.
inductive Spliced : Authorizer α → Authorizer α → Prop
  | here (before after : List (Authorizer α)) (link : Authorizer α) (links : List (Authorizer α)) :
    Spliced (chain (before ++ chain (link :: links) :: after))
      (chain (before ++ link :: links ++ after))
  | inside (before after : List (Authorizer α)) {a b : Authorizer α} (spliced : Spliced a b) :
    Spliced (chain (before ++ a :: after)) (chain (before ++ b :: after))

theorem Spliced.items_eq {a b : Authorizer α} (spliced : Spliced a b) : b.items = a.items := by
  induction spliced with
  | here before after link links =>
    rw [items_chain (by simp), items_chain (by simp)]
    simp [itemsOf_append, itemsOf, items]
  | inside before after spliced ih =>
    rw [items_chain (by simp), items_chain (by simp)]
    simp [itemsOf_append, itemsOf, ih]

theorem items_of_reflTransGen {a b : Authorizer α}
    (spliced : Relation.ReflTransGen Spliced a b) : b.items = a.items := by
  induction spliced with
  | refl => rfl
  | tail _ last ih => exact last.items_eq.trans ih

section Visits

variable {m : Type → Type} [Monad m] {β : Type} (act : α → m (β × α)) (onEmpty : β)
  (settles : β → Bool)

mutual

def visit : Authorizer α → m (List β × Authorizer α)
  | single a => do
    let (result, a) ← act a
    return ([result], single a)
  | chain [] => return ([onEmpty], chain [])
  | chain (a :: rest) => do
    let (results, a) ← visit a
    if results.any settles then return (results, chain (a :: rest))
    let (more, rest) ← visitLinks rest
    return (results ++ more, chain (a :: rest))

def visitLinks : List (Authorizer α) → m (List β × List (Authorizer α))
  | [] => return ([], [])
  | a :: rest => do
    let (results, a) ← visit a
    if results.any settles then return (results, a :: rest)
    let (more, rest) ← visitLinks rest
    return (results ++ more, a :: rest)

end

def visitItems : List (Option α) → m (List β × List (Option α))
  | [] => return ([], [])
  | none :: rest => do
    if settles onEmpty then return ([onEmpty], none :: rest)
    let (more, rest) ← visitItems rest
    return (onEmpty :: more, none :: rest)
  | some a :: rest => do
    let (result, a) ← act a
    if settles result then return ([result], some a :: rest)
    let (more, rest) ← visitItems rest
    return (result :: more, some a :: rest)

variable [LawfulMonad m]

theorem visitItems_append (before after : List (Option α)) :
    visitItems act onEmpty settles (before ++ after) = (do
      let (results, before) ← visitItems act onEmpty settles before
      if results.any settles then return (results, before ++ after)
      let (more, after) ← visitItems act onEmpty settles after
      return (results ++ more, before ++ after)) := by
  induction before with
  | nil => simp [visitItems]
  | cons item rest ih =>
    cases item with
    | none =>
      simp only [List.cons_append, visitItems, ih]
      cases settled : settles onEmpty with
      | true => simp [settled]
      | false =>
        simp only [Bool.false_eq_true, if_false, bind_assoc, pure_bind, List.any_cons, settled,
          Bool.false_or]
        congr! 2 with p
        split <;> simp
    | some a =>
      simp only [List.cons_append, visitItems, ih, bind_assoc]
      congr! 2 with p
      cases settled : settles p.1 with
      | true => simp [settled]
      | false =>
        simp only [Bool.false_eq_true, if_false, bind_assoc, pure_bind, List.any_cons, settled,
          Bool.false_or]
        congr! 2 with p
        split <;> simp

mutual

theorem visit_items : ∀ a : Authorizer α,
    (fun v => (v.1, v.2.items)) <$> visit act onEmpty settles a =
      visitItems act onEmpty settles a.items
  | single a => by
    rw [visit, items, visitItems]
    simp [items, visitItems]
  | chain [] => by
    rw [visit, items, visitItems]
    simp [items, visitItems]
  | chain (a :: rest) => by
    have here := visit_items a
    have later := visitLinks_items rest
    rw [visit, items, visitItems_append, ← here, ← later]
    simp only [map_bind, bind_map_left]
    congr! 2 with v
    split <;> simp [items]

theorem visitLinks_items : ∀ links : List (Authorizer α),
    (fun v => (v.1, itemsOf v.2)) <$> visitLinks act onEmpty settles links =
      visitItems act onEmpty settles (itemsOf links)
  | [] => by
    rw [visitLinks, itemsOf, visitItems]
    simp [itemsOf]
  | a :: rest => by
    have here := visit_items a
    have later := visitLinks_items rest
    rw [visitLinks, itemsOf, visitItems_append, ← here, ← later]
    simp only [map_bind, bind_map_left]
    congr! 2 with v
    split <;> simp [itemsOf]

end

end Visits

section Pure

variable {β : Type} (act : α → β × α) (onEmpty : β) (settles : β → Bool)

def visited (a : Authorizer α) : List β × Authorizer α := visit (m := Id) act onEmpty settles a

def visitedLinks (links : List (Authorizer α)) : List β × List (Authorizer α) :=
  visitLinks (m := Id) act onEmpty settles links

theorem visitedLinks_cons (a : Authorizer α) (rest : List (Authorizer α)) :
    visitedLinks act onEmpty settles (a :: rest) =
      if (visited act onEmpty settles a).1.any settles then
        ((visited act onEmpty settles a).1, (visited act onEmpty settles a).2 :: rest)
      else
        ((visited act onEmpty settles a).1 ++ (visitedLinks act onEmpty settles rest).1,
          (visited act onEmpty settles a).2 :: (visitedLinks act onEmpty settles rest).2) := by
  unfold visitedLinks
  rw [visitLinks]
  rfl

theorem visited_chain (a : Authorizer α) (rest : List (Authorizer α)) :
    visited act onEmpty settles (chain (a :: rest)) =
      ((visitedLinks act onEmpty settles (a :: rest)).1,
        chain (visitedLinks act onEmpty settles (a :: rest)).2) := by
  rw [visitedLinks_cons, visited, visit]
  show (if (visited act onEmpty settles a).1.any settles then _ else _ : List β × Authorizer α) = _
  split <;> rfl

def noting (s : α) : StateM (List α) (β × α) := do
  modify (· ++ [s])
  return act s

def order (a : Authorizer α) : List α :=
  ((visit (noting act) onEmpty settles a).run []).2

def visitedItems (items : List (Option α)) : List β × List (Option α) :=
  visitItems (m := Id) act onEmpty settles items

theorem visitedItems_none (rest : List (Option α)) :
    visitedItems act onEmpty settles (none :: rest) =
      if settles onEmpty then ([onEmpty], none :: rest)
      else (onEmpty :: (visitedItems act onEmpty settles rest).1,
        none :: (visitedItems act onEmpty settles rest).2) := by
  unfold visitedItems
  rw [visitItems]
  rfl

theorem visitedItems_some (a : α) (rest : List (Option α)) :
    visitedItems act onEmpty settles (some a :: rest) =
      if settles (act a).1 then ([(act a).1], some (act a).2 :: rest)
      else ((act a).1 :: (visitedItems act onEmpty settles rest).1,
        some (act a).2 :: (visitedItems act onEmpty settles rest).2) := by
  unfold visitedItems
  rw [visitItems]
  rfl

theorem visitItems_noting (items : List (Option α)) (log : List α) :
    (visitItems (noting act) onEmpty settles items).run log =
      (visitedItems act onEmpty settles items, log ++
        (items.take (visitedItems act onEmpty settles items).1.length).reduceOption) := by
  induction items generalizing log with
  | nil =>
    rw [visitItems, visitedItems, visitItems]
    exact congrArg (([], []), ·) (List.append_nil log).symm
  | cons item rest ih =>
    cases item with
    | none =>
      rw [visitItems, visitedItems_none]
      cases settled : settles onEmpty with
      | true =>
        simp only [if_true]
        exact congrArg (([onEmpty], none :: rest), ·) (List.append_nil log).symm
      | false =>
        simp only [Bool.false_eq_true, if_false, bind_pure_comp, StateT.run_map, ih log]
        rfl
    | some a =>
      rw [visitItems, visitedItems_some]
      have next := ih (log ++ [a])
      rw [List.append_assoc] at next
      simp only [noting, bind_assoc, pure_bind, StateT.run_bind, StateT.run_modify]
      cases settled : settles (act a).1 with
      | true => rfl
      | false =>
        simp only [Bool.false_eq_true, if_false, bind_pure_comp, StateT.run_map, next]
        rfl

theorem order_eq (a : Authorizer α) :
    order act onEmpty settles a =
      (a.items.take (visited act onEmpty settles a).1.length).reduceOption := by
  have noted := congrArg (fun v => (v.run []).2) (visit_items (noting act) onEmpty settles a)
  have results : (visited act onEmpty settles a).1 = (visitedItems act onEmpty settles a.items).1 :=
    congrArg Prod.fst (visit_items (m := Id) act onEmpty settles a)
  rw [visitItems_noting, List.nil_append, ← results] at noted
  exact noted

def StopsAt (settles : β → Bool) (results : List β) : Prop :=
  results.dropLast.any settles = false

variable {settles}

theorem StopsAt.append {results more : List β} (unsettled : results.any settles = false)
    (stops : StopsAt settles more) : StopsAt settles (results ++ more) := by
  unfold StopsAt at *
  by_cases none : more = []
  · subst none
    rw [List.append_nil, List.any_eq_false]
    intro result member
    exact List.any_eq_false.1 unsettled result (List.mem_of_mem_dropLast member)
  · rw [List.dropLast_append_of_ne_nil none, List.any_append, unsettled, stops, Bool.or_false]

theorem StopsAt.any_eq {results : List β} (stops : StopsAt settles results) (before : β)
    (unsettled : settles before = false) :
    results.any settles = settles (results.getLastD before) := by
  unfold StopsAt at stops
  cases results using List.reverseRecOn with
  | nil => simp [unsettled]
  | append_singleton front last =>
    rw [List.dropLast_concat] at stops
    simp [List.any_append, stops]

mutual

theorem visited_stops : ∀ a : Authorizer α,
    StopsAt settles (visited act onEmpty settles a).1 ∧ (visited act onEmpty settles a).1 ≠ []
  | single a => by
    rw [visited, visit]
    exact ⟨rfl, List.cons_ne_nil _ _⟩
  | chain [] => by
    rw [visited, visit]
    exact ⟨rfl, List.cons_ne_nil _ _⟩
  | chain (a :: rest) => by
    obtain ⟨stops, some⟩ := visited_stops a
    rw [visited_chain, visitedLinks_cons]
    split
    · exact ⟨stops, some⟩
    · next unsettled =>
      exact ⟨.append (Bool.eq_false_iff.2 unsettled) (visitedLinks_stops rest),
        List.append_ne_nil_of_left_ne_nil some _⟩

theorem visitedLinks_stops : ∀ links : List (Authorizer α),
    StopsAt settles (visitedLinks act onEmpty settles links).1
  | [] => by
    rw [visitedLinks, visitLinks]
    rfl
  | a :: rest => by
    rw [visitedLinks_cons]
    split
    · exact (visited_stops a).1
    · next unsettled =>
      exact .append (Bool.eq_false_iff.2 unsettled) (visitedLinks_stops rest)

end

theorem visited_of_items {a b : Authorizer α} (same : b.items = a.items) :
    (visited act onEmpty settles b).1 = (visited act onEmpty settles a).1 ∧
      (visited act onEmpty settles b).2.items = (visited act onEmpty settles a).2.items := by
  have left := visit_items (m := Id) act onEmpty settles a
  have right := visit_items (m := Id) act onEmpty settles b
  rw [same, ← left] at right
  have both : ((visited act onEmpty settles b).1, (visited act onEmpty settles b).2.items) =
    ((visited act onEmpty settles a).1, (visited act onEmpty settles a).2.items) := right
  exact Prod.mk.inj both

end Pure

def settlesCall : Outcome Decision → Bool
  | .ok d => d.allow
  | .error _ => true

def isFailure : Except Error Nat → Bool
  | .ok _ => false
  | .error _ => true

def total : List (Except Error Nat) → Except Error Nat
  | [] => .ok 0
  | .ok count :: rest => (total rest).map (count + ·)
  | .error e :: _ => .error e

theorem total_singleton (result : Except Error Nat) : total [result] = result := by
  cases result <;> rfl

theorem isFailure_total {results : List (Except Error Nat)} :
    isFailure (total results) = results.any isFailure := by
  induction results with
  | nil => rfl
  | cons result rest ih =>
    cases result with
    | error e => rfl
    | ok count =>
      rw [total, List.any_cons, ← ih]
      cases total rest <;> rfl

theorem total_append (results more : List (Except Error Nat)) :
    total (results ++ more) = (do return (← total results) + (← total more)) := by
  induction results with
  | nil => cases h : total more <;> simp [total, h, bind, Except.bind, pure, Except.pure]
  | cons result rest ih =>
    cases result with
    | error e => rfl
    | ok count =>
      rw [List.cons_append, total, total, ih]
      cases total rest <;> cases total more <;>
        simp [bind, Except.bind, pure, Except.pure, Except.map, Nat.add_assoc]

theorem getLastD_of_ne_nil {β : Type} {results : List β} (some : results ≠ []) (d e : β) :
    results.getLastD d = results.getLastD e := by
  rw [List.getLastD_eq_getLast?, List.getLastD_eq_getLast?, List.getLast?_eq_some_getLast some]
  rfl

theorem getLastD_append {β : Type} (results more : List β) (d : β) :
    (results ++ more).getLastD d = more.getLastD (results.getLastD d) := by
  simp [List.getLastD_eq_getLast?, List.getLast?_append]

variable [Decider α] (c : Context)

def asked (a : Authorizer α) : List (Outcome Decision) × Authorizer α :=
  visited (Decider.authorize c) (.ok (.refused .noRuleMatched)) settlesCall a

def askedLinks (links : List (Authorizer α)) : List (Outcome Decision) × List (Authorizer α) :=
  visitedLinks (Decider.authorize c) (.ok (.refused .noRuleMatched)) settlesCall links

def consulted (a : Authorizer α) : List α :=
  order (Decider.authorize c) (.ok (.refused .noRuleMatched)) settlesCall a

theorem consulted_eq (a : Authorizer α) :
    consulted c a = (a.items.take (asked c a).1.length).reduceOption :=
  order_eq _ _ _ a

mutual

theorem authorize_eq_asked : ∀ a : Authorizer α, a.authorize c =
    ((asked c a).1.getLastD (.ok (.refused .noRuleMatched)), (asked c a).2)
  | single a => by
    rw [authorize, asked, visited, visit]
    rfl
  | chain [] => by
    rw [authorize, authorizeLinks, asked, visited, visit]
    rfl
  | chain (a :: rest) => by
    rw [authorize, authorizeLinks_eq_asked (a :: rest) rfl, asked, visited_chain]
    rfl

theorem authorizeLinks_eq_asked : ∀ (links : List (Authorizer α)) {last : Decision},
    last.allow = false → authorizeLinks c last links =
      ((askedLinks c links).1.getLastD (.ok last), (askedLinks c links).2)
  | [], last, _ => by
    rw [authorizeLinks, askedLinks, visitedLinks, visitLinks]
    rfl
  | a :: rest, last, refused => by
    have here := authorize_eq_asked a
    obtain ⟨stops, some⟩ : StopsAt settlesCall (asked c a).1 ∧ (asked c a).1 ≠ [] :=
      visited_stops _ _ a
    have ends := stops.any_eq (.ok (.refused .noRuleMatched)) rfl
    have links : askedLinks c (a :: rest) =
        if (asked c a).1.any settlesCall then ((asked c a).1, (asked c a).2 :: rest)
        else ((asked c a).1 ++ (askedLinks c rest).1, (asked c a).2 :: (askedLinks c rest).2) :=
      visitedLinks_cons _ _ _ a rest
    rw [authorizeLinks, here, links, ends]
    cases given : (asked c a).1.getLastD (.ok (.refused .noRuleMatched)) with
    | error h =>
      have answer := (getLastD_of_ne_nil some (.ok last) _).trans given
      simp only [settlesCall, if_true]
      rw [answer]
    | ok d =>
      have answer := (getLastD_of_ne_nil some (.ok last) _).trans given
      cases allow : d.allow with
      | true =>
        simp only [settlesCall, allow, if_true]
        rw [answer]
      | false =>
        simp only [settlesCall, allow, Bool.false_eq_true, if_false]
        rw [authorizeLinks_eq_asked rest allow, getLastD_append, answer]

end

def compiled (a : Authorizer α) : List (Except Error Nat) × Authorizer α :=
  visited Decider.precompile (.ok 0) isFailure a

def compiledLinks (links : List (Authorizer α)) : List (Except Error Nat) × List (Authorizer α) :=
  visitedLinks Decider.precompile (.ok 0) isFailure links

mutual

theorem precompile_eq_compiled : ∀ a : Authorizer α,
    a.precompile = (total (compiled a).1, (compiled a).2)
  | single a => by
    rw [precompile, compiled, visited, visit]
    show _ = (total [(Decider.precompile a).1], single (Decider.precompile a).2)
    rw [total_singleton]
  | chain [] => by
    rw [precompile, precompileLinks, compiled, visited, visit]
    rfl
  | chain (a :: rest) => by
    rw [precompile, precompileLinks_eq_compiled (a :: rest), compiled, visited_chain]
    rfl

theorem precompileLinks_eq_compiled : ∀ links : List (Authorizer α),
    precompileLinks links = (total (compiledLinks links).1, (compiledLinks links).2)
  | [] => by
    rw [precompileLinks, compiledLinks, visitedLinks, visitLinks]
    rfl
  | a :: rest => by
    have here := precompile_eq_compiled a
    have later := precompileLinks_eq_compiled rest
    have links : compiledLinks (a :: rest) =
        if (compiled a).1.any isFailure then ((compiled a).1, (compiled a).2 :: rest)
        else ((compiled a).1 ++ (compiledLinks rest).1,
          (compiled a).2 :: (compiledLinks rest).2) :=
      visitedLinks_cons _ _ _ a rest
    rw [precompileLinks, here, links, ← isFailure_total]
    cases count : total (compiled a).1 with
    | error e => simp only [isFailure, if_true, count]
    | ok count =>
      simp only [isFailure, Bool.false_eq_true, if_false, total_append, later, count]
      cases total (compiledLinks rest).1 <;> rfl

end

def Refuses (a : Authorizer α) : Prop := ∃ d, (a.authorize c).1 = .ok d ∧ d.allow = false

theorem authorizeLinks_settled {before after : List (Authorizer α)} {link : Authorizer α}
    (refuse : ∀ l ∈ before, Refuses c l) (settles : ¬ Refuses c link) (last : Decision) :
    authorizeLinks c last (before ++ link :: after) =
      ((link.authorize c).1,
        before.map (fun l => (l.authorize c).2) ++ (link.authorize c).2 :: after) := by
  induction before generalizing last with
  | nil =>
    rw [List.nil_append, authorizeLinks]
    unfold Refuses at settles
    cases asked : link.authorize c with
    | mk result link' =>
      rw [asked] at settles
      cases result with
      | error h => rfl
      | ok d =>
        have allow : d.allow = true := by
          by_contra refused
          exact settles ⟨d, rfl, Bool.eq_false_iff.2 refused⟩
        simp only [allow, if_true]
        rfl
  | cons a rest ih =>
    obtain ⟨⟨d, answer, refused⟩, later⟩ := List.forall_mem_cons.1 refuse
    have next := ih later d
    rw [List.cons_append, authorizeLinks]
    cases asked : a.authorize c with
    | mk result a' =>
      rw [asked] at answer
      cases answer
      simp only [refused, next, Bool.false_eq_true, if_false, List.map_cons, asked]
      rfl

theorem authorizeLinks_refused {links : List (Authorizer α)}
    (refuse : ∀ l ∈ links, Refuses c l) (last : Decision) :
    authorizeLinks c last links =
      ((links.map fun l => (l.authorize c).1).getLastD (.ok last),
        links.map fun l => (l.authorize c).2) := by
  induction links generalizing last with
  | nil =>
    rw [authorizeLinks]
    rfl
  | cons a rest ih =>
    obtain ⟨⟨d, answer, refused⟩, later⟩ := List.forall_mem_cons.1 refuse
    have next := ih later d
    rw [authorizeLinks]
    cases asked : a.authorize c with
    | mk result a' =>
      rw [asked] at answer
      cases answer
      simp only [refused, next, Bool.false_eq_true, if_false, List.map_cons, asked,
        List.getLastD_cons]

inductive Answered (links : List (Authorizer α)) :
    Outcome Decision → List (Authorizer α) → Prop
  | settled {before after : List (Authorizer α)} {link : Authorizer α}
    (split : links = before ++ link :: after) (refuse : ∀ l ∈ before, Refuses c l)
    (settles : ¬ Refuses c link) :
    Answered links (link.authorize c).1
      (before.map (fun l => (l.authorize c).2) ++ (link.authorize c).2 :: after)
  | refused (refuse : ∀ l ∈ links, Refuses c l) :
    Answered links
      ((links.map fun l => (l.authorize c).1).getLastD (.ok (.refused .noRuleMatched)))
      (links.map fun l => (l.authorize c).2)

theorem exists_first_settled (links : List (Authorizer α)) :
    (∀ l ∈ links, Refuses c l) ∨ ∃ before link after, links = before ++ link :: after ∧
      (∀ l ∈ before, Refuses c l) ∧ ¬ Refuses c link := by
  induction links with
  | nil => exact .inl (List.forall_mem_nil _)
  | cons a rest ih =>
    by_cases refuses : Refuses c a
    · rcases ih with all | ⟨before, link, after, rfl, refuse, settles⟩
      · exact .inl (List.forall_mem_cons.2 ⟨refuses, all⟩)
      · have refuse := List.forall_mem_cons.2 ⟨refuses, refuse⟩
        exact .inr ⟨a :: before, link, after, rfl, refuse, settles⟩
    · exact .inr ⟨[], a, rest, rfl, List.forall_mem_nil _, refuses⟩

theorem Answered.authorize_eq {links next : List (Authorizer α)} {result : Outcome Decision}
    (answered : Answered c links result next) :
    (chain links).authorize c = (result, chain next) := by
  cases answered with
  | settled split refuse settles =>
    rw [authorize, split, authorizeLinks_settled c refuse settles]
  | refused refuse => rw [authorize, authorizeLinks_refused c refuse]

theorem authorize_chain_iff (links next : List (Authorizer α)) (result : Outcome Decision) :
    (chain links).authorize c = (result, chain next) ↔ Answered c links result next := by
  refine ⟨fun asked => ?_, fun answered => answered.authorize_eq⟩
  rcases exists_first_settled c links with refuse | ⟨before, link, after, split, refuse, settles⟩
  · have answered := Answered.refused refuse
    rw [answered.authorize_eq] at asked
    cases asked
    exact answered
  · have answered := Answered.settled split refuse settles
    rw [answered.authorize_eq] at asked
    cases asked
    exact answered

theorem authorize_of_items {a b : Authorizer α} (same : b.items = a.items) :
    (b.authorize c).1 = (a.authorize c).1 ∧
      (b.authorize c).2.items = (a.authorize c).2.items := by
  obtain ⟨answers, items⟩ : (asked c b).1 = (asked c a).1 ∧
      (asked c b).2.items = (asked c a).2.items := visited_of_items _ _ same
  rw [authorize_eq_asked, authorize_eq_asked, answers]
  exact ⟨rfl, items⟩

theorem consulted_of_items {a b : Authorizer α} (same : b.items = a.items) :
    consulted c b = consulted c a := by
  have answers : (asked c b).1 = (asked c a).1 := (visited_of_items _ _ same).1
  rw [consulted_eq, consulted_eq, same, answers]

theorem precompile_of_items {a b : Authorizer α} (same : b.items = a.items) :
    b.precompile.1 = a.precompile.1 ∧ b.precompile.2.items = a.precompile.2.items := by
  obtain ⟨counts, items⟩ : (compiled b).1 = (compiled a).1 ∧
      (compiled b).2.items = (compiled a).2.items := visited_of_items _ _ same
  rw [precompile_eq_compiled, precompile_eq_compiled, counts]
  exact ⟨rfl, items⟩

theorem after_items {a b : Authorizer α} (same : b.items = a.items) (earlier : List Context) :
    (b.after earlier).items = (a.after earlier).items := by
  induction earlier generalizing a b with
  | nil => exact same
  | cons c rest ih => exact ih (authorize_of_items c same).2

structure Alike (a b : Authorizer α) : Prop where
  answers : ∀ (earlier : List Context) (c : Context),
    ((b.after earlier).authorize c).1 = ((a.after earlier).authorize c).1 ∧
      ((b.after earlier).authorize c).2.items = ((a.after earlier).authorize c).2.items
  consults : ∀ (earlier : List Context) (c : Context),
    consulted c (b.after earlier) = consulted c (a.after earlier)
  compiles : ∀ earlier : List Context,
    (b.after earlier).precompile.1 = (a.after earlier).precompile.1 ∧
      (b.after earlier).precompile.2.items = (a.after earlier).precompile.2.items
  actions : ∀ (m : Type → Type) [Monad m] [LawfulMonad m] (β : Type) (act : α → m (β × α))
    (onEmpty : β) (settles : β → Bool),
    (fun v => (v.1, v.2.items)) <$> visit act onEmpty settles b =
      (fun v => (v.1, v.2.items)) <$> visit act onEmpty settles a

theorem alike_of_items {a b : Authorizer α} (same : b.items = a.items) : Alike a b where
  answers earlier c := authorize_of_items c (after_items same earlier)
  consults earlier c := consulted_of_items c (after_items same earlier)
  compiles earlier := precompile_of_items (after_items same earlier)
  actions m _ _ β act onEmpty settles := by rw [visit_items, visit_items, same]

theorem chain_answers_and_nesting_unseen :
    (∀ (c : Context) (links next : List (Authorizer α)) (result : Outcome Decision),
      (chain links).authorize c = (result, chain next) ↔ Answered c links result next) ∧
    (∀ (c : Context) (a : Authorizer α), a.authorize c =
      ((asked c a).1.getLastD (.ok (.refused .noRuleMatched)), (asked c a).2) ∧
        consulted c a = (a.items.take (asked c a).1.length).reduceOption) ∧
    (∀ a : Authorizer α, a.precompile = (total (compiled a).1, (compiled a).2)) ∧
    ∀ a b : Authorizer α, Relation.ReflTransGen Spliced a b → Alike a b :=
  ⟨authorize_chain_iff, fun c a => ⟨authorize_eq_asked c a, consulted_eq c a⟩,
    precompile_eq_compiled, fun _ _ spliced => alike_of_items (items_of_reflTransGen spliced)⟩

theorem empty_faultless :
    ∀ e ∈ (Keyed.empty : Keyed RuleSet).entries, Catalog.entryFault? e.1 e.2 = none :=
  List.forall_mem_nil _

def emptyCatalog : Catalog := ⟨.empty, empty_faultless⟩

def refusing : Authorizer Rules := single (.cel (.ofParts emptyCatalog Cel.evaluator () .deny))

def permissive : Authorizer Rules :=
  single (.lua (.ofParts emptyCatalog ⟨.lua, Lua.compile, Lua.execute ⟨1, none, 1000, .empty⟩⟩
    (.ofCapacity 1) .allow))

def unknownCall : Context := ⟨.null, none, .empty, false, "/s.A/m", none⟩

theorem nested_backends_alike :
    Relation.ReflTransGen Spliced (chain [chain [refusing, refusing], permissive])
        (chain [refusing, refusing, permissive]) ∧
      Alike (chain [chain [refusing, refusing], permissive])
        (chain [refusing, refusing, permissive]) ∧
      ((chain [chain [refusing, refusing], permissive]).authorize unknownCall).1 =
        .ok (.allowed .unknownAllowed) := by
  have spliced : Relation.ReflTransGen Spliced (chain [chain [refusing, refusing], permissive])
      (chain [refusing, refusing, permissive]) :=
    .single (.here [] [permissive] refusing [refusing])
  exact ⟨spliced, chain_answers_and_nesting_unseen.2.2.2 _ _ spliced, rfl⟩

end Authorizer

end CallGuard
