import CallGuard.Deployment

set_option autoImplicit false

namespace CallGuard

namespace Whitelist

theorem contains_iff (w : Whitelist) (method : String) :
    w.contains method ↔ method ∈ w.methods.keys :=
  w.methods.get?_isSome_iff method

theorem contains_insert (m : Keyed Unit) (key other : String) :
    (m.insert key ()).contains other ↔ other = key ∨ m.contains other := by
  unfold Keyed.contains Keyed.insert
  by_cases same : other = key
  · subst same
    simp
  · simp [Keyed.get?_alter_ne _ _ same, same]

theorem contains_ofList (methods : List String) (method : String) :
    (ofList methods).contains method ↔ method ∈ methods := by
  have fold : ∀ m : Keyed Unit,
      (((methods.map (·, ())).foldl (fun m (key, value) => m.insert key value) m).contains method ↔
        method ∈ methods ∨ m.contains method) := by
    induction methods with
    | nil => simp
    | cons key rest ih =>
      intro m
      rw [List.map_cons, List.foldl_cons, ih, contains_insert, List.mem_cons]
      grind
  simpa [ofList, Keyed.ofList, contains, Keyed.contains, Keyed.get?, Keyed.empty,
    Keyed.lookupList] using fold .empty

end Whitelist

theorem Selector.selects_eq_false_iff (selectors : List Selector) (method : String)
    (metadata : Metadata) :
    selects selectors method metadata = false ↔
      selectors ≠ [] ∧ ∀ s ∈ selectors, s.isMatch method metadata = false := by
  simp [selects, List.any_eq_false]

structure Visit where
  call : Call
  request : Option Json
  isStream : Bool

def Visit.contextFor (v : Visit) (user : Json) : Context where
  user := user
  request := if v.isStream then none else v.request
  metadata := v.call.metadata.normalized
  isStream := v.isStream
  method := v.call.method
  deadline := v.call.deadline

namespace Interceptor

variable {α : Type}

def Guards (i : Interceptor α) (call : Call) : Prop :=
  call.method ∉ i.whitelist.methods.keys ∧
    (i.selectors = [] ∨ ∃ s ∈ i.selectors, s.isMatch call.method call.metadata = true)

theorem guards_iff (i : Interceptor α) (call : Call) :
    i.Guards call ↔ i.whitelist.contains call.method = false ∧
      Selector.selects i.selectors call.method call.metadata = true := by
  simp [Guards, ← Whitelist.contains_iff, Selector.selects]

variable [Decider α]

-- The answer to a visit, and what has become of the interceptor.
inductive Answers (i : Interceptor α) (v : Visit) : Outcome Decision → Interceptor α → Prop
  | whitelisted (listed : v.call.method ∈ i.whitelist.methods.keys) :
    Answers i v (.ok (.allowed .whitelisted)) i
  | notSelected (unlisted : v.call.method ∉ i.whitelist.methods.keys)
    (configured : i.selectors ≠ [])
    (unmatched : ∀ s ∈ i.selectors, s.isMatch v.call.method v.call.metadata = false) :
    Answers i v (.ok (.allowed .notSelected)) i
  | unidentified (guarded : i.Guards v.call) {causes : List String}
    (unknown : i.extractor v.call = .error causes) :
    Answers i v (.fail (.identity (": ".intercalate causes)))
      { i with extractions := i.extractions + 1 }
  | decided (guarded : i.Guards v.call) {user : Json} (known : i.extractor v.call = .ok user)
    {result : Outcome Decision} {authorizer : Authorizer α}
    (asked : i.authorizer.authorize (v.contextFor user) = (result, authorizer)) :
    Answers i v result { i with extractions := i.extractions + 1, authorizer := authorizer }

def checkVisit (i : Interceptor α) (v : Visit) : Outcome Decision × Interceptor α :=
  i.check v.call v.request v.isStream

theorem answers_check (i : Interceptor α) (v : Visit) :
    i.Answers v (i.checkVisit v).1 (i.checkVisit v).2 := by
  -- the cases come in the order in which the stages are passed
  cases listed : i.whitelist.contains v.call.method with
  | true =>
    simp only [checkVisit, check, listed, if_true]
    exact .whitelisted ((Whitelist.contains_iff _ _).1 listed)
  | false =>
    cases selected : Selector.selects i.selectors v.call.method v.call.metadata with
    | false =>
      obtain ⟨configured, unmatched⟩ := (Selector.selects_eq_false_iff _ _ _).1 selected
      have unlisted : v.call.method ∉ i.whitelist.methods.keys := by
        simp [← Whitelist.contains_iff, listed]
      simpa [checkVisit, check, listed, selected] using
        Answers.notSelected unlisted configured unmatched
    | true =>
      have guarded := (i.guards_iff v.call).2 ⟨listed, selected⟩
      cases identified : i.extractor v.call with
      | error causes =>
        have answer := Answers.unidentified guarded identified
        simpa [checkVisit, check, listed, selected, identified, Error.ofCauses] using answer
      | ok user =>
        have answer := Answers.decided guarded identified rfl
        simpa [checkVisit, check, listed, selected, identified, authorize, Context.build,
          Visit.contextFor] using answer

theorem Answers.check_eq {i next : Interceptor α} {v : Visit} {r : Outcome Decision}
    (answer : i.Answers v r next) : i.checkVisit v = (r, next) := by
  cases answer with
  | whitelisted listed =>
    simp [checkVisit, check, (Whitelist.contains_iff _ _).2 listed]
  | notSelected unlisted configured unmatched =>
    have passed := (Selector.selects_eq_false_iff _ _ _).2 ⟨configured, unmatched⟩
    simp [checkVisit, check, Whitelist.contains_iff, unlisted, passed]
  | unidentified guarded unknown =>
    obtain ⟨unlisted, selected⟩ := (i.guards_iff v.call).1 guarded
    simp [checkVisit, check, unlisted, selected, unknown, Error.ofCauses]
  | decided guarded known asked =>
    obtain ⟨unlisted, selected⟩ := (i.guards_iff v.call).1 guarded
    simp only [Visit.contextFor] at asked
    simp [checkVisit, check, unlisted, selected, known, authorize, Context.build, asked]

theorem check_iff_answers (i next : Interceptor α) (v : Visit) (r : Outcome Decision) :
    i.checkVisit v = (r, next) ↔ i.Answers v r next := by
  refine ⟨fun checked => ?_, Answers.check_eq⟩
  simpa [checked] using i.answers_check v

def after (i : Interceptor α) (visits : List Visit) : Interceptor α :=
  visits.foldl (fun i v => (i.checkVisit v).2) i

structure SameSettings (i j : Interceptor α) : Prop where
  whitelist : i.whitelist = j.whitelist
  selectors : i.selectors = j.selectors
  extractor : i.extractor = j.extractor

theorem check_sameSettings (i : Interceptor α) (v : Visit) :
    (i.checkVisit v).2.SameSettings i := by
  have answer := i.answers_check v
  generalize (i.checkVisit v).1 = r at answer
  generalize (i.checkVisit v).2 = next at answer
  cases answer <;> exact ⟨rfl, rfl, rfl⟩

theorem after_sameSettings (i : Interceptor α) (visits : List Visit) :
    (i.after visits).SameSettings i := by
  induction visits generalizing i with
  | nil => exact ⟨rfl, rfl, rfl⟩
  | cons v rest ih =>
    have later := ih (i.checkVisit v).2
    have first := i.check_sameSettings v
    exact ⟨later.whitelist.trans first.whitelist, later.selectors.trans first.selectors,
      later.extractor.trans first.extractor⟩

def guardsVisit (i : Interceptor α) (v : Visit) : Bool :=
  !i.whitelist.contains v.call.method &&
    Selector.selects i.selectors v.call.method v.call.metadata

def contextOf? (i : Interceptor α) (v : Visit) : Option Context :=
  if i.guardsVisit v then (i.extractor v.call).toOption.map v.contextFor else none

omit [Decider α] in
theorem SameSettings.guardsVisit {i j : Interceptor α} (same : i.SameSettings j) (v : Visit) :
    i.guardsVisit v = j.guardsVisit v := by
  simp [Interceptor.guardsVisit, same.whitelist, same.selectors]

omit [Decider α] in
theorem SameSettings.contextOf? {i j : Interceptor α} (same : i.SameSettings j) (v : Visit) :
    i.contextOf? v = j.contextOf? v := by
  simp [Interceptor.contextOf?, same.guardsVisit, same.extractor]

end Interceptor

def Authorizer.after {α : Type} [Decider α] (a : Authorizer α) (contexts : List Context) :
    Authorizer α :=
  contexts.foldl (fun a c => (a.authorize c).2) a

namespace Interceptor

variable {α : Type} [Decider α]

theorem check_counts (i : Interceptor α) (v : Visit) :
    (i.checkVisit v).2.extractions = i.extractions + (if i.guardsVisit v then 1 else 0) ∧
      (i.checkVisit v).2.authorizer = i.authorizer.after (i.contextOf? v).toList := by
  have answer := i.answers_check v
  generalize (i.checkVisit v).1 = r at answer
  generalize (i.checkVisit v).2 = next at answer
  cases answer with
  | whitelisted listed =>
    have passed : i.guardsVisit v = false := by
      simp [guardsVisit, (Whitelist.contains_iff _ _).2 listed]
    simp [contextOf?, passed, Authorizer.after]
  | notSelected unlisted configured unmatched =>
    have passed : i.guardsVisit v = false := by
      simp [guardsVisit, (Selector.selects_eq_false_iff _ _ _).2 ⟨configured, unmatched⟩]
    simp [contextOf?, passed, Authorizer.after]
  | unidentified guarded unknown =>
    have guards : i.guardsVisit v = true := by
      simp [guardsVisit, (i.guards_iff v.call).1 guarded]
    simp [contextOf?, guards, unknown, Authorizer.after, Except.toOption]
  | decided guarded known asked =>
    have guards : i.guardsVisit v = true := by
      simp [guardsVisit, (i.guards_iff v.call).1 guarded]
    simp [contextOf?, guards, known, Authorizer.after, Except.toOption, asked]

theorem after_counts (i : Interceptor α) (visits : List Visit) :
    (i.after visits).extractions = i.extractions + visits.countP i.guardsVisit ∧
      (i.after visits).authorizer = i.authorizer.after (visits.filterMap i.contextOf?) := by
  induction visits generalizing i with
  | nil => exact ⟨rfl, rfl⟩
  | cons v rest ih =>
    -- later visits are counted by the settings of the start, which no call changes
    have same := i.check_sameSettings v
    have guards : (i.checkVisit v).2.guardsVisit = i.guardsVisit := funext same.guardsVisit
    have contexts : (i.checkVisit v).2.contextOf? = i.contextOf? := funext same.contextOf?
    obtain ⟨first, asked⟩ := i.check_counts v
    obtain ⟨counted, later⟩ := ih (i.checkVisit v).2
    rw [first, guards] at counted
    rw [asked, contexts] at later
    change ((i.checkVisit v).2.after rest).extractions = _ ∧
      ((i.checkVisit v).2.after rest).authorizer = _
    rw [counted, later, List.countP_cons]
    refine ⟨by omega, ?_⟩
    cases context : i.contextOf? v with
    | none => simp [context, Authorizer.after]
    | some c => simp [context, Authorizer.after]

def Permits (checked : Outcome Decision) : Prop := ∃ d, checked = .ok d ∧ d.allow = true

def refusal (method : String) : Outcome Decision → Halt
  | .ok _ => .error (.denied method)
  | .error h => h

theorem enforced_of_permits {checked : Outcome Decision} (permits : Permits checked)
    (method : String) : enforced method checked = checked := by
  obtain ⟨d, rfl, allow⟩ := permits
  simp [enforced, allow]

theorem enforced_of_not_permits {checked : Outcome Decision} (refuses : ¬ Permits checked)
    (method : String) : enforced method checked = .error (refusal method checked) := by
  cases checked with
  | error h => rfl
  | ok d =>
    have refused : d.allow = false := by
      cases allow : d.allow with
      | false => rfl
      | true => exact absurd ⟨d, rfl, allow⟩ refuses
    simp [enforced, refused, refusal, Outcome.fail]

def Guarding {m : Type → Type} [Monad m] {β : Type} (method : String) (checked : Outcome Decision)
    (handler computation : m (Outcome β)) : Prop :=
  (Permits checked → computation = handler) ∧
    (¬ Permits checked → computation = pure (.error (refusal method checked)))

theorem guarding_guarded {m : Type → Type} [Monad m] {β : Type} (method : String)
    (checked : Outcome Decision) (handler : m (Outcome β)) :
    Guarding method checked handler (guarded (enforced method checked) handler) := by
  refine ⟨fun permits => ?_, fun refuses => ?_⟩
  · rw [enforced_of_permits permits]
    obtain ⟨d, rfl, -⟩ := permits
    rfl
  · rw [enforced_of_not_permits refuses]
    rfl

theorem enforced_ok_iff (method : String) (checked : Outcome Decision) :
    (∃ d, enforced method checked = .ok d) ↔ Permits checked := by
  by_cases permits : Permits checked
  · obtain ⟨d, rfl, allow⟩ := permits
    simp [enforced, Permits, allow]
  · simp [enforced_of_not_permits permits, permits]

end Interceptor

def Decider.RulesOnly (α : Type) [Decider α] : Prop :=
  ∀ (c : Context) (a : α) (d : Decision), (Decider.authorize c a).1 = .ok d →
    d.reason ≠ .whitelisted ∧ d.reason ≠ .notSelected

theorem RuleAuthorizer.runRules_grounds {P S : Type} (c : Context) (rules : List String)
    (index : Nat) (a : RuleAuthorizer P S) {d : Decision}
    (decided : (runRules c index rules a).1 = .ok d) :
    d.reason ≠ .whitelisted ∧ d.reason ≠ .notSelected := by
  induction rules generalizing index a with
  | nil =>
    cases decided
    simp [Decision.refused]
  | cons rule rest ih =>
    unfold runRules at decided
    split at decided
    · cases decided
    · cases decided
      simp [Decision.allowed]
    · exact ih _ _ decided

theorem RuleAuthorizer.rulesOnly (P S : Type) : Decider.RulesOnly (RuleAuthorizer P S) := by
  intro c a d decided
  change (a.authorize c).1 = .ok d at decided
  unfold authorize at decided
  split at decided
  · cases decided
    unfold fallbackDecision
    split
    · simp [Decision.allowed]
    · simp [Decision.refused]
    · split <;> simp [Decision.allowed, Decision.refused]
  · split at decided
    · cases decided
      simp [Decision.allowed]
    · exact runRules_grounds _ _ _ _ decided

namespace Authorizer

variable {α : Type} [Decider α]

mutual

theorem authorize_grounds (rulesOnly : Decider.RulesOnly α) (c : Context) :
    ∀ (a : Authorizer α) {d : Decision}, (a.authorize c).1 = .ok d →
      d.reason ≠ .whitelisted ∧ d.reason ≠ .notSelected
  | single a, d, decided => by
    rw [authorize] at decided
    exact rulesOnly c a d decided
  | chain links, d, decided => by
    rw [authorize] at decided
    exact authorizeLinks_grounds rulesOnly c links (by simp [Decision.refused]) decided

theorem authorizeLinks_grounds (rulesOnly : Decider.RulesOnly α) (c : Context) :
    ∀ (links : List (Authorizer α)) {last d : Decision},
      (last.reason ≠ .whitelisted ∧ last.reason ≠ .notSelected) →
        (authorizeLinks c last links).1 = .ok d →
          d.reason ≠ .whitelisted ∧ d.reason ≠ .notSelected
  | [], last, d, before, decided => by
    rw [authorizeLinks] at decided
    cases decided
    exact before
  | a :: rest, last, d, before, decided => by
    have head := fun e => authorize_grounds rulesOnly c a (d := e)
    rw [authorizeLinks] at decided
    split at decided
    · cases decided
    · next e next authorized =>
      rw [authorized] at head
      split at decided
      · cases decided
        exact head _ rfl
      · exact authorizeLinks_grounds rulesOnly c rest (head e rfl) decided

end

end Authorizer

theorem Rules.rulesOnly : Decider.RulesOnly Rules := by
  intro c a d decided
  cases a with
  | cel a => exact RuleAuthorizer.rulesOnly _ _ c a d decided
  | lua a => exact RuleAuthorizer.rulesOnly _ _ c a d decided

namespace Interceptor

variable {α : Type} [Decider α]

theorem decided_grounds (rulesOnly : Decider.RulesOnly α) {i : Interceptor α} {v : Visit}
    {reason : Reason} (bypass : reason = .whitelisted ∨ reason = .notSelected)
    (allowed : (i.checkVisit v).1 = .ok (.allowed reason)) : ¬ i.Guards v.call := by
  intro guarded
  have answer := i.answers_check v
  rw [allowed] at answer
  generalize (i.checkVisit v).2 = next at answer
  cases answer with
  | whitelisted listed => exact guarded.1 listed
  | notSelected _ configured unmatched =>
    rcases guarded.2 with none | ⟨s, member, isMatch⟩
    · exact configured none
    · simp [unmatched s member] at isMatch
  | decided _ _ asked =>
    have grounds := Authorizer.authorize_grounds rulesOnly _ _ (congrArg Prod.fst asked)
    rcases bypass with rfl | rfl
    · exact grounds.1 rfl
    · exact grounds.2 rfl

theorem whitelisted_iff (rulesOnly : Decider.RulesOnly α) (i : Interceptor α) (v : Visit) :
    (i.checkVisit v).1 = .ok (.allowed .whitelisted) ↔
      v.call.method ∈ i.whitelist.methods.keys := by
  refine ⟨fun allowed => ?_, fun listed => ?_⟩
  · have bypassed := decided_grounds rulesOnly (.inl rfl) allowed
    have answer := i.answers_check v
    rw [allowed] at answer
    generalize (i.checkVisit v).2 = next at answer
    cases answer with
    | whitelisted listed => exact listed
    | decided guarded => exact absurd guarded bypassed
  · rw [(Answers.whitelisted listed).check_eq]

theorem notSelected_iff (rulesOnly : Decider.RulesOnly α) (i : Interceptor α) (v : Visit) :
    (i.checkVisit v).1 = .ok (.allowed .notSelected) ↔
      v.call.method ∉ i.whitelist.methods.keys ∧ i.selectors ≠ [] ∧
        ∀ s ∈ i.selectors, s.isMatch v.call.method v.call.metadata = false := by
  refine ⟨fun allowed => ?_, fun ⟨unlisted, configured, unmatched⟩ => ?_⟩
  · have bypassed := decided_grounds rulesOnly (.inr rfl) allowed
    have answer := i.answers_check v
    rw [allowed] at answer
    generalize (i.checkVisit v).2 = next at answer
    cases answer with
    | notSelected unlisted configured unmatched => exact ⟨unlisted, configured, unmatched⟩
    | decided guarded => exact absurd guarded bypassed
  · rw [(Answers.notSelected unlisted configured unmatched).check_eq]

structure Mediates (i : Interceptor α) : Prop where
  answers : ∀ (v : Visit) (r : Outcome Decision) (next : Interceptor α),
    i.check v.call v.request v.isStream = (r, next) ↔ i.Answers v r next
  grounds : Decider.RulesOnly α → ∀ v : Visit,
    ((i.checkVisit v).1 = .ok (.allowed .whitelisted) ↔
      v.call.method ∈ i.whitelist.methods.keys) ∧
    ((i.checkVisit v).1 = .ok (.allowed .notSelected) ↔
      v.call.method ∉ i.whitelist.methods.keys ∧ i.selectors ≠ [] ∧
        ∀ s ∈ i.selectors, s.isMatch v.call.method v.call.metadata = false)
  streamBlind : ∀ (call : Call) (request other : Option Json),
    i.check call request true = i.check call other true
  enforces : ∀ v : Visit,
    (i.enforce v.call v.request v.isStream).2 = (i.checkVisit v).2 ∧
    ((∃ d, (i.enforce v.call v.request v.isStream).1 = .ok d) ↔ Permits (i.checkVisit v).1) ∧
    (Permits (i.checkVisit v).1 →
      (i.enforce v.call v.request v.isStream).1 = (i.checkVisit v).1) ∧
    (¬ Permits (i.checkVisit v).1 →
      (i.enforce v.call v.request v.isStream).1 =
        .error (refusal v.call.method (i.checkVisit v).1))
  unary : ∀ (m : Type → Type) [Monad m] (ρ β : Type) (serialize : ρ → Except String Json)
    (call : Call) (request : ρ) (document : Json) (handler : ρ → m (Outcome β)),
    serialize request = .ok document →
      (i.unaryOf serialize call request handler).2 = (i.check call (some document) false).2 ∧
      Guarding call.method (i.check call (some document) false).1 (handler request)
        (i.unaryOf serialize call request handler).1
  stream : ∀ (m : Type → Type) [Monad m] (β : Type) (call : Call) (handler : m (Outcome β)),
    (i.stream call handler).2 = (i.check call none true).2 ∧
    Guarding call.method (i.check call none true).1 handler (i.stream call handler).1

theorem mediates (i : Interceptor α) : i.Mediates where
  answers v r next := i.check_iff_answers next v r
  grounds rulesOnly v := ⟨whitelisted_iff rulesOnly i v, notSelected_iff rulesOnly i v⟩
  streamBlind call request other := rfl
  enforces v := ⟨rfl, enforced_ok_iff _ _, fun permits => enforced_of_permits permits _,
    fun refuses => enforced_of_not_permits refuses _⟩
  unary m _ ρ β serialize call request document handler serialized := by
    simp only [unaryOf, serialized]
    exact ⟨rfl, guarding_guarded _ _ _⟩
  stream m _ β call handler := ⟨rfl, guarding_guarded _ _ _⟩

theorem after_mediates (i : Interceptor α) (earlier : List Visit) :
    (i.after earlier).SameSettings i ∧
      (i.after earlier).extractions = i.extractions + earlier.countP i.guardsVisit ∧
        (i.after earlier).authorizer = i.authorizer.after (earlier.filterMap i.contextOf?) ∧
          (i.after earlier).Mediates :=
  ⟨i.after_sameSettings earlier, (i.after_counts earlier).1, (i.after_counts earlier).2,
    mediates _⟩

end Interceptor

end CallGuard
