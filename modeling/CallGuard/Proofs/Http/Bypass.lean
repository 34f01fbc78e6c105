import CallGuard.Proofs.Interception

set_option autoImplicit false

namespace CallGuard

theorem Text.mem_of_mem_trim {s : String} {c : Char} (member : c ∈ (trim s).toList) :
    c ∈ s.toList := by
  simp only [trim, trimList, stripBy, String.toList_ofList, List.mem_reverse] at member
  have inner := (List.dropWhile_sublist _).mem member
  exact (List.dropWhile_sublist _).mem (List.mem_reverse.1 inner)

theorem Timeout.ofText_ok {s : String} (ascii : ∀ c ∈ s.toList, c.utf8Size ≤ 1) :
    ∃ t, ofText s = .ok t := by
  unfold ofText
  simp only
  split
  · exact ⟨none, rfl⟩
  · split
    · exact ⟨none, rfl⟩
    · next unit digits reversed =>
      have last : unit ∈ (Text.trim s).toList := by
        rw [← List.mem_reverse, reversed]
        exact List.mem_cons_self
      have narrow := ascii unit (Text.mem_of_mem_trim last)
      rw [if_neg (by omega)]
      exact ⟨_, rfl⟩

namespace Http

theorem utf8Size_ofNat_of_isPlain {b : UInt8} (plain : isPlain b = true) :
    (Char.ofNat b.toNat).utf8Size ≤ 1 := by
  have narrow : b.toNat < 127 := by
    simp only [isPlain, Bool.or_eq_true, Bool.and_eq_true, decide_eq_true_eq, beq_iff_eq] at plain
    rcases plain with ⟨_, h⟩ | rfl
    · exact h
    · decide
  generalize b.toNat = n at narrow
  revert n
  decide

theorem utf8Size_of_mem_text? {h : Headers} {name s : String} (found : h.text? name = some s) :
    ∀ c ∈ s.toList, c.utf8Size ≤ 1 := by
  obtain ⟨value, -, text⟩ := Option.bind_eq_some_iff.1 found
  unfold plainText? at text
  split at text
  · next plain =>
    cases text
    intro c member
    rw [String.toList_ofList] at member
    obtain ⟨b, listed, rfl⟩ := List.mem_map.1 member
    exact utf8Size_ofNat_of_isPlain (List.all_eq_true.1 plain b listed)
  · cases text

namespace Guard

variable {α : Type}

theorem timeout_ok (r : Request) : ∃ t, timeout r = .ok t := by
  unfold timeout
  split
  · exact ⟨none, rfl⟩
  · next text found => exact Timeout.ofText_ok (utf8Size_of_mem_text? found)

inductive BodyRefused (limit : Nat) (r : Request) : Rejection → Prop
  | tooLong (unary : r.headers.isStream = false) (json : r.headers.isJson = true)
      (long : limit < r.body.size) :
    BodyRefused limit r .bodyTooLong
  | unreadable (unary : r.headers.isStream = false) (json : r.headers.isJson = true)
      (fits : r.body.size ≤ limit) (present : r.body.size ≠ 0)
      (malformed : ∀ text document, String.fromUTF8? r.body = some text →
        Json.ofText? text ≠ some document) :
    BodyRefused limit r .bodyUnreadable

theorem payload_error_iff (limit : Nat) (r : Request) (rejection : Rejection) :
    payload limit r = .error rejection ↔ BodyRefused limit r rejection := by
  constructor
  · intro refused
    unfold payload at refused
    split at refused
    · cases refused
    · next reads =>
      simp only [Bool.or_eq_true, Bool.not_eq_true', not_or, Bool.not_eq_true,
        Bool.not_eq_false] at reads
      split at refused
      · next long =>
        cases refused
        exact .tooLong reads.1 reads.2 long
      · next fits =>
        split at refused
        · cases refused
        · next present =>
          split at refused
          · cases refused
          · next malformed =>
            cases refused
            refine .unreadable reads.1 reads.2 (by omega) present fun text document encoded => ?_
            rw [encoded, Option.bind_some] at malformed
            simp [malformed]
  · rintro (⟨unary, json, long⟩ | ⟨unary, json, fits, present, malformed⟩)
    · simp [payload, unary, json, long]
    · have nothing : (String.fromUTF8? r.body).bind Json.ofText? = none := by
        cases encoded : String.fromUTF8? r.body with
        | none => rfl
        | some text =>
          exact Option.eq_none_iff_forall_not_mem.2 fun document =>
            malformed text document encoded
      simp [payload, unary, json, Nat.not_lt.2 fits, present, nothing]

def Bypasses (g : Guard α) (r : Request) : Prop :=
  pathOf r.target ∈ g.interceptor.whitelist.methods.keys ∨
    g.interceptor.selectors ≠ [] ∧
      ∀ s ∈ g.interceptor.selectors, s.isMatch (pathOf r.target) r.headers.metadata = false

variable [Decider α]

theorem enforce_bypassed {g : Guard α} {r : Request} (bypass : g.Bypasses r)
    (deadline : Option Timeout) (document : Option Json) (isStream : Bool) :
    ∃ d, g.interceptor.enforce (callOf r deadline) document isStream = (.ok d, g.interceptor) := by
  have check : ∃ reason, g.interceptor.checkVisit ⟨callOf r deadline, document, isStream⟩ =
      (.ok (.allowed reason), g.interceptor) := by
    by_cases listed : pathOf r.target ∈ g.interceptor.whitelist.methods.keys
    · exact ⟨_, (Interceptor.Answers.whitelisted listed).check_eq⟩
    · obtain ⟨configured, unmatched⟩ := bypass.resolve_left listed
      exact ⟨_, (Interceptor.Answers.notSelected listed configured unmatched).check_eq⟩
  obtain ⟨reason, checked⟩ := check
  simp only [Interceptor.checkVisit] at checked
  exact ⟨.allowed reason, by simp [Interceptor.enforce, checked, Interceptor.enforced,
    Decision.allowed]⟩

def PassesThrough (g : Guard α) (r : Request) : Prop :=
  ∀ (m : Type → Type) [Monad m] (β : Type) (handler : Request → m β),
    g.serve r handler = (do return .ok (.handled (← handler r)), g)

def Refuses (g : Guard α) (r : Request) (rejection : Rejection) : Prop :=
  ∀ (m : Type → Type) [Monad m] (β : Type) (handler : Request → m β),
    g.serve r handler = (pure (.ok (.rejected rejection)), g)

theorem refuses_of_bodyRefused {g : Guard α} {r : Request} {rejection : Rejection}
    (refused : BodyRefused g.maxBodyBytes r rejection) : g.Refuses r rejection := by
  intro m _ β handler
  obtain ⟨deadline, granted⟩ := timeout_ok r
  simp [serve, granted, (payload_error_iff _ _ _).2 refused]

theorem passesThrough_of_bypass {g : Guard α} {r : Request} (bypass : g.Bypasses r)
    (readable : ∀ rejection, ¬ BodyRefused g.maxBodyBytes r rejection) : g.PassesThrough r := by
  intro m _ β handler
  obtain ⟨deadline, granted⟩ := timeout_ok r
  cases read : payload g.maxBodyBytes r with
  | error rejection => exact absurd ((payload_error_iff _ _ _).1 read) (readable rejection)
  | ok document =>
    obtain ⟨d, allowed⟩ := enforce_bypassed bypass deadline document r.headers.isStream
    simp [serve, granted, read, allowed, respond]

theorem not_refuses_of_passesThrough {g : Guard α} {r : Request} {rejection : Rejection}
    (passes : g.PassesThrough r) : ¬ g.Refuses r rejection := by
  intro refuses
  have both := (passes Id Unit fun _ => ()).symm.trans (refuses Id Unit fun _ => ())
  cases congrArg Prod.fst both

theorem passesThrough_iff_readable (g : Guard α) (r : Request) (bypass : g.Bypasses r) :
    (g.PassesThrough r ↔ ∀ rejection, ¬ BodyRefused g.maxBodyBytes r rejection) ∧
      ∀ rejection, BodyRefused g.maxBodyBytes r rejection → g.Refuses r rejection :=
  ⟨⟨fun passes _ refused => not_refuses_of_passesThrough passes (refuses_of_bodyRefused refused),
    passesThrough_of_bypass bypass⟩, fun _ => refuses_of_bodyRefused⟩

def healthGuard (limit : Nat) : Guard Rules where
  interceptor :=
    { Interceptor.ofAuthorizer
        (.single (.cel (.ofParts ⟨.empty, by simp [Keyed.empty]⟩ Cel.evaluator () .deny))) with
      whitelist := .ofList ["/healthz"] }
  maxBodyBytes := limit

def healthRequest (contentType body : String) : Request where
  target := "/healthz"
  headers := .ofList [("content-type", contentType.toUTF8.toList)]
  body := body.toUTF8

theorem healthGuard_bypasses (limit : Nat) (contentType body : String) :
    (healthGuard limit).Bypasses (healthRequest contentType body) := by
  have path : pathOf "/healthz" = "/healthz" := by decide +kernel
  refine .inl ?_
  rw [← Whitelist.contains_iff]
  simp [healthGuard, healthRequest, path, Whitelist.contains_ofList]

theorem passes_unread_text :
    (healthGuard 4).Bypasses (healthRequest "text/plain" "not json") ∧
      (healthGuard 4).PassesThrough (healthRequest "text/plain" "not json") := by
  have bypass := healthGuard_bypasses 4 "text/plain" "not json"
  refine ⟨bypass, ((healthGuard 4).passesThrough_iff_readable _ bypass).1.2 ?_⟩
  have other : (healthRequest "text/plain" "not json").headers.isJson = false := by
    decide +kernel
  rintro rejection (⟨_, json, _⟩ | ⟨_, json, _⟩) <;> simp [other] at json

theorem whitelisted_body_refused :
    (healthGuard 1048576).Bypasses (healthRequest "application/json" "not json") ∧
      ¬ (healthGuard 1048576).PassesThrough (healthRequest "application/json" "not json") ∧
      (healthGuard 1048576).Refuses (healthRequest "application/json" "not json")
        .bodyUnreadable := by
  have unreadable : (String.fromUTF8? (healthRequest "application/json" "not json").body).bind
      Json.ofText? |>.isNone := by decide +kernel
  have refuses : (healthGuard 1048576).Refuses (healthRequest "application/json" "not json")
      .bodyUnreadable := by
    refine refuses_of_bodyRefused (.unreadable ?_ ?_ ?_ ?_ fun text document encoded => ?_)
    · decide +kernel
    · decide +kernel
    · decide +kernel
    · decide +kernel
    · rw [encoded, Option.bind_some, Option.isNone_iff_eq_none] at unreadable
      simp [unreadable]
  exact ⟨healthGuard_bypasses _ _ _, fun passes => not_refuses_of_passesThrough passes refuses,
    refuses⟩

end Guard

end Http

end CallGuard
