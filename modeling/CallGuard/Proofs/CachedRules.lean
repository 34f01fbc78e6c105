import CallGuard.Proofs.CacheCoherence
import CallGuard.RuleAuthorizer

set_option autoImplicit false

namespace CallGuard

variable {P S : Type}

-- What is answered is a function of program, text and context in all valid states.
structure Evaluator.Computes (ev : Evaluator P S) (valid : S → Prop)
    (meaning : P → String → Context → Outcome Bool) : Prop where
  outcome : ∀ program text c s, valid s → (ev.execute program text c s).1 = meaning program text c
  keeps : ∀ program text c s, valid s → valid (ev.execute program text c s).2

def verdict (compile : String → Except Error P) (meaning : P → String → Context → Outcome Bool)
    (c : Context) (rule : String) : Outcome Bool :=
  match compile rule with
  | .ok program => meaning program rule c
  | .error e => .fail e

-- The rule at the index is the first that does not yield false.
def DecidesAt (gives : String → Outcome Bool) (rules : List String) (index : Nat)
    (outcome : Outcome Bool) : Prop :=
  (∀ rule ∈ rules.take index, gives rule = .ok false) ∧ rules[index]?.map gives = some outcome ∧
    outcome ≠ .ok false

inductive Ruling (catalog : Catalog) (fallback : Fallback) (gives : String → Outcome Bool)
    (method : String) : Outcome Decision → Prop
  | unknownAllowed (unknown : catalog.lookup? method = none) (policy : fallback = .allow) :
    Ruling catalog fallback gives method (.ok (.allowed .unknownAllowed))
  | unknownDenied (unknown : catalog.lookup? method = none) (policy : fallback = .deny) :
    Ruling catalog fallback gives method (.ok (.refused .unknownMethod))
  | covered (unknown : catalog.lookup? method = none) (policy : fallback = .coveredService)
      (sibling : catalog.serviceCovered method = true) :
    Ruling catalog fallback gives method (.ok (.allowed .serviceCovered))
  | uncovered (unknown : catalog.lookup? method = none) (policy : fallback = .coveredService)
      (alone : catalog.serviceCovered method = false) :
    Ruling catalog fallback gives method (.ok (.refused .unknownMethod))
  | allowAll (rule : String) (known : catalog.lookup? method = some ⟨[rule]⟩)
      (star : Text.trim rule = "*") :
    Ruling catalog fallback gives method (.ok (.allowed .allowAll))
  | allowed (set : RuleSet) (index : Nat) (known : catalog.lookup? method = some set)
      (plain : set.isAllowAll = false) (decides : DecidesAt gives set.rules index (.ok true)) :
    Ruling catalog fallback gives method (.ok (.allowed (.rule index)))
  | failed (set : RuleSet) (index : Nat) (halt : Halt)
      (known : catalog.lookup? method = some set) (plain : set.isAllowAll = false)
      (decides : DecidesAt gives set.rules index (.error halt)) :
    Ruling catalog fallback gives method (.error halt)
  | refused (set : RuleSet) (known : catalog.lookup? method = some set)
      (plain : set.isAllowAll = false) (all : ∀ rule ∈ set.rules, gives rule = .ok false) :
    Ruling catalog fallback gives method (.ok (.refused .noRuleMatched))

theorem decidesAt_cons {gives : String → Outcome Bool} {rule : String} {rest : List String}
    {index : Nat} {outcome : Outcome Bool} :
    DecidesAt gives (rule :: rest) (index + 1) outcome ↔
      gives rule = .ok false ∧ DecidesAt gives rest index outcome := by
  simp [DecidesAt, and_assoc]

theorem decidesAt_zero {gives : String → Outcome Bool} {rule : String} {rest : List String}
    {outcome : Outcome Bool} :
    DecidesAt gives (rule :: rest) 0 outcome ↔ gives rule = outcome ∧ outcome ≠ .ok false := by
  simp [DecidesAt]

theorem refused_or_decided (gives : String → Outcome Bool) (rules : List String) :
    (∀ rule ∈ rules, gives rule = .ok false) ∨
      ∃ index outcome, DecidesAt gives rules index outcome := by
  induction rules with
  | nil => exact .inl (by simp)
  | cons rule rest ih =>
    by_cases refuses : gives rule = .ok false
    · rcases ih with all | ⟨index, outcome, decides⟩
      · exact .inl (by simpa [refuses] using all)
      · exact .inr ⟨index + 1, outcome, decidesAt_cons.2 ⟨refuses, decides⟩⟩
    · exact .inr ⟨0, gives rule, decidesAt_zero.2 ⟨rfl, refuses⟩⟩

inductive Request
  | authorize (c : Context)
  | precompile

namespace RuleAuthorizer

def serve (a : RuleAuthorizer P S) : Request → RuleAuthorizer P S
  | .authorize c => (a.authorize c).2
  | .precompile => a.precompile.2

def after (a : RuleAuthorizer P S) (history : List Request) : RuleAuthorizer P S :=
  history.foldl serve a

def SameParts (a b : RuleAuthorizer P S) : Prop :=
  a.catalog = b.catalog ∧ a.evaluator = b.evaluator ∧ a.fallback = b.fallback

def Coherent (valid : S → Prop) (a : RuleAuthorizer P S) : Prop :=
  a.cache.Coherent a.evaluator.compile ∧ valid a.state

theorem SameParts.refl (a : RuleAuthorizer P S) : SameParts a a := ⟨rfl, rfl, rfl⟩

theorem SameParts.trans {a b c : RuleAuthorizer P S} (ab : SameParts a b) (bc : SameParts b c) :
    SameParts a c :=
  ⟨ab.1.trans bc.1, ab.2.1.trans bc.2.1, ab.2.2.trans bc.2.2⟩

def Keeps (valid : S → Prop) (a b : RuleAuthorizer P S) : Prop := SameParts a b ∧ Coherent valid b

theorem Keeps.trans {valid : S → Prop} {a b c : RuleAuthorizer P S} (ab : Keeps valid a b)
    (bc : Keeps valid b c) : Keeps valid a c :=
  ⟨ab.1.trans bc.1, bc.2⟩

theorem program_keeps {valid : S → Prop} {a : RuleAuthorizer P S} (coherent : Coherent valid a)
    (rule : String) :
    (a.program rule).1 = a.evaluator.compile rule ∧ Keeps valid a (a.program rule).2 :=
  ⟨ProgramCache.getOrCompile_eq_compile coherent.1 rule, SameParts.refl a,
    ProgramCache.getOrCompile_coherent coherent.1 rule, coherent.2⟩

theorem run_keeps {valid : S → Prop} {meaning : P → String → Context → Outcome Bool}
    {a : RuleAuthorizer P S} (computes : a.evaluator.Computes valid meaning)
    (coherent : Coherent valid a) (rule : String) (c : Context) :
    (a.run rule c).1 = verdict a.evaluator.compile meaning c rule ∧
      Keeps valid a (a.run rule c).2 := by
  obtain ⟨compiled, keeps⟩ := program_keeps coherent rule
  rcases h : a.program rule with ⟨result, b⟩
  simp only [h] at compiled keeps
  have same : b.evaluator = a.evaluator := keeps.1.2.1.symm
  simp only [run, h, verdict, ← compiled]
  cases result with
  | error e => exact ⟨rfl, keeps⟩
  | ok program =>
    have outcome := computes.outcome program rule c b.state keeps.2.2
    have valid := computes.keeps program rule c b.state keeps.2.2
    rw [← same] at outcome valid
    exact ⟨outcome, keeps.1, keeps.2.1, valid⟩

theorem runRules_keeps {valid : S → Prop} {meaning : P → String → Context → Outcome Bool}
    (c : Context) (index : Nat) (rules : List String) {a : RuleAuthorizer P S}
    (computes : a.evaluator.Computes valid meaning) (coherent : Coherent valid a) :
    Keeps valid a (runRules c index rules a).2 := by
  induction rules generalizing index a with
  | nil => exact ⟨SameParts.refl a, coherent⟩
  | cons rule rest ih =>
    have keeps := (run_keeps computes coherent rule c).2
    rcases h : a.run rule c with ⟨halt | allows, b⟩ <;> simp only [runRules, h] at keeps ⊢
    · exact keeps
    · cases allows with
      | true => exact keeps
      | false => exact keeps.trans (ih (index + 1) (keeps.1.2.1 ▸ computes) keeps.2)

theorem runRules_refused {valid : S → Prop} {meaning : P → String → Context → Outcome Bool}
    (c : Context) (index : Nat) {rules : List String} {a : RuleAuthorizer P S}
    (computes : a.evaluator.Computes valid meaning) (coherent : Coherent valid a)
    (all : ∀ rule ∈ rules, verdict a.evaluator.compile meaning c rule = .ok false) :
    (runRules c index rules a).1 = .ok (.refused .noRuleMatched) := by
  induction rules generalizing index a with
  | nil => rfl
  | cons rule rest ih =>
    obtain ⟨gives, keeps⟩ := run_keeps computes coherent rule c
    rw [all rule (by simp)] at gives
    rcases h : a.run rule c with ⟨outcome, b⟩
    simp only [h] at gives keeps
    subst gives
    simp only [runRules, h]
    refine ih (index + 1) (keeps.1.2.1 ▸ computes) keeps.2 fun r member => ?_
    rw [← keeps.1.2.1]
    exact all r (by simp [member])

theorem runRules_decided {valid : S → Prop} {meaning : P → String → Context → Outcome Bool}
    (c : Context) (first : Nat) {rules : List String} {a : RuleAuthorizer P S}
    (computes : a.evaluator.Computes valid meaning) (coherent : Coherent valid a) {index : Nat}
    {outcome : Outcome Bool}
    (decides : DecidesAt (verdict a.evaluator.compile meaning c) rules index outcome) :
    (runRules c first rules a).1 = outcome.map (fun _ => .allowed (.rule (first + index))) ∧
      ∀ later, runRules c first rules a =
        runRules c first (rules.take (index + 1) ++ later) a := by
  induction rules generalizing first index a with
  | nil => simp [DecidesAt] at decides
  | cons rule rest ih =>
    obtain ⟨gives, keeps⟩ := run_keeps computes coherent rule c
    rcases h : a.run rule c with ⟨given, b⟩
    simp only [h] at gives keeps
    cases index with
    | zero =>
      -- this rule decides, so what stands after it is never reached
      obtain ⟨same, decisive⟩ := decidesAt_zero.1 decides
      rw [same] at gives
      subst gives
      cases given with
      | error halt => simp [runRules, h, Except.map]
      | ok allows =>
        cases allows with
        | true => simp [runRules, h, Except.map]
        | false => exact absurd rfl decisive
    | succ index =>
      obtain ⟨refuses, decides⟩ := decidesAt_cons.1 decides
      rw [refuses] at gives
      subst gives
      rw [keeps.1.2.1] at decides
      have step := ih (first + 1) (keeps.1.2.1 ▸ computes) keeps.2 decides
      simpa [runRules, h, Nat.add_assoc, Nat.add_comm 1] using step

theorem compileAll_keeps {valid : S → Prop} (texts : List String) (count : Nat)
    {a : RuleAuthorizer P S} (coherent : Coherent valid a) :
    Keeps valid a (compileAll texts count a).2 := by
  induction texts generalizing count a with
  | nil => exact ⟨SameParts.refl a, coherent⟩
  | cons text rest ih =>
    have keeps := (program_keeps coherent text).2
    rcases h : a.program text with ⟨e | program, b⟩ <;> simp only [compileAll, h] at keeps ⊢
    · exact keeps
    · exact keeps.trans (ih (count + 1) keeps.2)

theorem authorize_keeps {valid : S → Prop} {meaning : P → String → Context → Outcome Bool}
    {a : RuleAuthorizer P S} (computes : a.evaluator.Computes valid meaning)
    (coherent : Coherent valid a) (c : Context) : Keeps valid a (a.authorize c).2 := by
  unfold authorize
  split
  · exact ⟨SameParts.refl a, coherent⟩
  · split
    · exact ⟨SameParts.refl a, coherent⟩
    · exact runRules_keeps c 0 _ computes coherent

theorem serve_keeps {valid : S → Prop} {meaning : P → String → Context → Outcome Bool}
    {a : RuleAuthorizer P S} (computes : a.evaluator.Computes valid meaning)
    (coherent : Coherent valid a) (request : Request) : Keeps valid a (a.serve request) := by
  cases request with
  | authorize c => exact authorize_keeps computes coherent c
  | precompile => exact compileAll_keeps _ 0 coherent

theorem after_keeps {valid : S → Prop} {meaning : P → String → Context → Outcome Bool}
    {a : RuleAuthorizer P S} (computes : a.evaluator.Computes valid meaning)
    (coherent : Coherent valid a) (history : List Request) : Keeps valid a (a.after history) := by
  -- coherence carries the induction; the parts stay those that `computes` is about
  induction history generalizing a with
  | nil => exact ⟨SameParts.refl a, coherent⟩
  | cons request rest ih =>
    have keeps := serve_keeps computes coherent request
    exact keeps.trans (ih (keeps.1.2.1 ▸ computes) keeps.2)

theorem authorize_unruled {a : RuleAuthorizer P S} {c : Context}
    (unruled : a.catalog.lookup? c.method = none ∨
      ∃ set, a.catalog.lookup? c.method = some set ∧ set.isAllowAll = true) :
    (a.authorize c).2 = a := by
  unfold authorize
  rcases unruled with unknown | ⟨set, known, star⟩
  · rw [unknown]
  · simp [known, star]

theorem authorize_ruled {a : RuleAuthorizer P S} {c : Context} {set : RuleSet}
    (known : a.catalog.lookup? c.method = some set) (plain : set.isAllowAll = false) :
    a.authorize c = runRules c 0 set.rules a := by
  simp [authorize, known, plain]

theorem isAllowAll_iff (set : RuleSet) :
    set.isAllowAll = true ↔ ∃ rule, set = ⟨[rule]⟩ ∧ Text.trim rule = "*" := by
  rcases set with ⟨_ | ⟨rule, _ | ⟨other, rest⟩⟩⟩ <;> simp [RuleSet.isAllowAll, allowAllText]

theorem ruling_of_authorize {valid : S → Prop} {meaning : P → String → Context → Outcome Bool}
    {a : RuleAuthorizer P S} (computes : a.evaluator.Computes valid meaning)
    (coherent : Coherent valid a) (c : Context) :
    Ruling a.catalog a.fallback (verdict a.evaluator.compile meaning c) c.method
      (a.authorize c).1 := by
  cases found : a.catalog.lookup? c.method with
  | none =>
    simp only [authorize, found, fallbackDecision]
    cases policy : a.fallback with
    | allow => exact .unknownAllowed found rfl
    | deny => exact .unknownDenied found rfl
    | coveredService =>
      cases sibling : a.catalog.serviceCovered c.method with
      | true => exact .covered found rfl sibling
      | false => exact .uncovered found rfl sibling
  | some set =>
    cases plain : set.isAllowAll with
    | true =>
      obtain ⟨rule, rfl, star⟩ := (isAllowAll_iff set).1 plain
      simp only [authorize, found, plain, if_true]
      exact .allowAll rule found star
    | false =>
      rw [authorize_ruled found plain]
      rcases refused_or_decided (verdict a.evaluator.compile meaning c) set.rules with
        all | ⟨index, outcome, decides⟩
      · rw [runRules_refused c 0 computes coherent all]
        exact .refused set found plain all
      · rw [(runRules_decided c 0 computes coherent decides).1, Nat.zero_add]
        cases outcome with
        | error halt => exact .failed set index halt found plain decides
        | ok allows =>
          cases allows with
          | true => exact .allowed set index found plain decides
          | false => exact absurd rfl decides.2.2

theorem authorize_of_ruling {valid : S → Prop} {meaning : P → String → Context → Outcome Bool}
    {a : RuleAuthorizer P S} (computes : a.evaluator.Computes valid meaning)
    (coherent : Coherent valid a) {c : Context} {result : Outcome Decision}
    (ruling : Ruling a.catalog a.fallback (verdict a.evaluator.compile meaning c) c.method result) :
    (a.authorize c).1 = result := by
  cases ruling with
  | unknownAllowed unknown policy => simp [authorize, unknown, policy, fallbackDecision]
  | unknownDenied unknown policy => simp [authorize, unknown, policy, fallbackDecision]
  | covered unknown policy sibling => simp [authorize, unknown, policy, sibling, fallbackDecision]
  | uncovered unknown policy alone => simp [authorize, unknown, policy, alone, fallbackDecision]
  | allowAll rule known star =>
    have single : (⟨[rule]⟩ : RuleSet).isAllowAll = true := (isAllowAll_iff _).2 ⟨rule, rfl, star⟩
    simp [authorize, known, single]
  | allowed set index known plain decides =>
    rw [authorize_ruled known plain, (runRules_decided c 0 computes coherent decides).1]
    simp [Except.map]
  | failed set index halt known plain decides =>
    rw [authorize_ruled known plain, (runRules_decided c 0 computes coherent decides).1]
    rfl
  | refused set known plain all =>
    rw [authorize_ruled known plain, runRules_refused c 0 computes coherent all]

theorem ofParts_after_keeps {evaluator : Evaluator P S} {valid : S → Prop}
    {meaning : P → String → Context → Outcome Bool} (computes : evaluator.Computes valid meaning)
    {state : S} (starts : valid state) (catalog : Catalog) (fallback : Fallback)
    (history : List Request) :
    Keeps valid (ofParts catalog evaluator state fallback)
      ((ofParts catalog evaluator state fallback).after history) :=
  after_keeps computes ⟨ProgramCache.empty_coherent _ _, starts⟩ history

theorem authorize_iff_ruling {evaluator : Evaluator P S} {valid : S → Prop}
    {meaning : P → String → Context → Outcome Bool} (computes : evaluator.Computes valid meaning)
    {state : S} (starts : valid state) (catalog : Catalog) (fallback : Fallback)
    (history : List Request) (c : Context) (result : Outcome Decision) :
    (((ofParts catalog evaluator state fallback).after history).authorize c).1 = result ↔
      Ruling catalog fallback (verdict evaluator.compile meaning c) c.method result := by
  obtain ⟨⟨sameCatalog, sameEvaluator, sameFallback⟩, coherent⟩ :=
    ofParts_after_keeps computes starts catalog fallback history
  generalize (ofParts catalog evaluator state fallback).after history = a at *
  change catalog = a.catalog at sameCatalog
  change evaluator = a.evaluator at sameEvaluator
  change fallback = a.fallback at sameFallback
  subst sameCatalog sameEvaluator sameFallback
  constructor
  · rintro rfl
    exact ruling_of_authorize computes coherent c
  · exact authorize_of_ruling computes coherent

theorem authorize_after_iff_ruling (catalog : Catalog) (evaluator : Evaluator P S)
    (fallback : Fallback) (state : S) (valid : S → Prop)
    (meaning : P → String → Context → Outcome Bool) (computes : evaluator.Computes valid meaning)
    (starts : valid state) (history : List Request) (c : Context) :
    let a := (ofParts catalog evaluator state fallback).after history
    let gives := verdict evaluator.compile meaning c
    (∀ result, (a.authorize c).1 = result ↔ Ruling catalog fallback gives c.method result) ∧
      ((catalog.lookup? c.method = none ∨
        ∃ set, catalog.lookup? c.method = some set ∧ set.isAllowAll = true) →
          (a.authorize c).2 = a) ∧
      ∀ set index outcome, catalog.lookup? c.method = some set → set.isAllowAll = false →
        DecidesAt gives set.rules index outcome →
          ∀ later, a.authorize c = runRules c 0 (set.rules.take (index + 1) ++ later) a := by
  intro a gives
  refine ⟨authorize_iff_ruling computes starts catalog fallback history c, ?_⟩
  obtain ⟨⟨sameCatalog, sameEvaluator, _⟩, coherent⟩ :=
    ofParts_after_keeps computes starts catalog fallback history
  change catalog = a.catalog at sameCatalog
  change evaluator = a.evaluator at sameEvaluator
  rw [sameEvaluator] at computes
  simp only [gives, sameCatalog, sameEvaluator]
  refine ⟨authorize_unruled, fun set index outcome known plain decides later => ?_⟩
  rw [authorize_ruled known plain]
  exact (runRules_decided c 0 computes coherent decides).2 later

def wordEvaluator : Evaluator Bool Nat where
  -- Rules of one word, of which only two can be read. The state counts what has been run.
  backend := .cel
  compile text :=
    if text = "yes" then .ok true
    else if text = "no" then .ok false
    else .error (.compile text .elided)
  execute program _ _ runs := (.ok program, runs + 1)

def wordCatalog : Catalog where
  methods := ⟨[("/s.A/m", ⟨["no", "yes", "maybe"]⟩)], List.pairwise_singleton _ _⟩
  valid := by decide

theorem wordEvaluator_computes :
    wordEvaluator.Computes (fun _ => True) (fun program _ _ => .ok program) :=
  ⟨fun _ _ _ _ _ => rfl, fun _ _ _ _ _ => trivial⟩

theorem allowed_after_failed_precompile :
    wordEvaluator.Computes (fun _ => True) (fun program _ _ => .ok program) ∧
      (((ofParts wordCatalog wordEvaluator 0 .deny).after [.precompile]).authorize
        ⟨.null, none, .empty, false, "/s.A/m", none⟩).1 = .ok (.allowed (.rule 1)) := by
  refine ⟨wordEvaluator_computes, ?_⟩
  refine ((authorize_after_iff_ruling wordCatalog wordEvaluator .deny 0 (fun _ => True) _
    wordEvaluator_computes trivial [.precompile] _).1 _).2 ?_
  exact .allowed ⟨["no", "yes", "maybe"]⟩ 1 rfl rfl ⟨by simp [verdict, wordEvaluator], rfl, by simp⟩

end RuleAuthorizer

end CallGuard
