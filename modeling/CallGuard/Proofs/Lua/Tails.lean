import CallGuard.Proofs.Lua.Parsing

set_option autoImplicit false

namespace CallGuard.Lua.Parse

variable {α β γ : Type}

-- What an expression cannot go on with.
def Closing (tail : List Lexeme) : Prop :=
  tail = [] ∨ ∃ line rest, tail = ⟨.symbol ")", line⟩ :: rest

def Took (u : Nat) (w w' : Words) : Prop := ∃ used, u ≤ used.length ∧ w.rest = used ++ w'.rest

-- One tail exchanged for another, as long as the reader leaves `k` words in front of it.
structure Swaps (tail tail' : List Lexeme) (budget : Int) (k u : Nat) (p p' : Parse α) : Prop where
  took : ∀ w a w', p.run w = some (a, w') → Took u w w'
  swap : ∀ ws line a w', 20 * (ws.length : Int) ≤ budget →
    p.run ⟨ws ++ tail, line⟩ = some (a, w') → tail.length + k ≤ w'.rest.length →
      ∃ r, w'.rest = r ++ tail ∧ p'.run ⟨ws ++ tail', line⟩ = some (a, ⟨r ++ tail', w'.line⟩)

variable {tail tail' : List Lexeme} {b : Int} {k u : Nat}

theorem Took.mono {v : Nat} {w w' : Words} (took : Took v w w') (fewer : u ≤ v) : Took u w w' := by
  obtain ⟨used, enough, rest⟩ := took
  exact ⟨used, Nat.le_trans fewer enough, rest⟩

theorem Took.trans {v : Nat} {w w' w'' : Words} (first : Took u w w') (second : Took v w' w'') :
    Took (u + v) w w'' := by
  obtain ⟨used, enough, rest⟩ := first
  obtain ⟨used', enough', rest'⟩ := second
  refine ⟨used ++ used', ?_, ?_⟩
  · rw [List.length_append]
    omega
  · rw [rest, rest', List.append_assoc]

theorem Took.length {w w' : Words} (took : Took u w w') :
    w'.rest.length + u ≤ w.rest.length := by
  obtain ⟨used, enough, rest⟩ := took
  rw [rest, List.length_append]
  omega

theorem bind_ran {p : Parse α} {f : α → Parse β} {w w'' : Words} {c : β}
    (ran : (p >>= f).run w = some (c, w'')) :
    ∃ a w', p.run w = some (a, w') ∧ (f a).run w' = some (c, w'') := by
  rw [StateT.run_bind] at ran
  obtain ⟨⟨a, w'⟩, first, second⟩ := Option.bind_eq_some_iff.1 ran
  exact ⟨a, w', first, second⟩

namespace Swaps

variable {p p' : Parse α}

theorem mono {k' u' : Nat} {b' : Int} (swaps : Swaps tail tail' b' k' u' p p') (budget : b ≤ b')
    (left : k' ≤ k) (taken : u ≤ u') : Swaps tail tail' b k u p p' where
  took w a w' ran := (swaps.took w a w' ran).mono taken
  swap ws line a w' few ran leaves :=
    swaps.swap ws line a w' (Int.le_trans few budget) ran (by omega)

theorem pure (a : α) : Swaps tail tail' b k 0 (Pure.pure a) (Pure.pure a) where
  took w a w' ran := by
    cases ran
    exact ⟨[], Nat.le_refl _, rfl⟩
  swap ws line a w' _ ran _ := by
    cases ran
    exact ⟨ws, rfl, rfl⟩

theorem failure : Swaps tail tail' b k u (failure : Parse α) p' where
  took _ _ _ ran := by cases ran
  swap _ _ _ _ _ ran := by cases ran

theorem bind {f f' : α → Parse β} {i j : Nat} (v : Nat) (first : Swaps tail tail' b j i p p')
    (next : ∀ a, Swaps tail tail' (b - 20 * i) k v (f a) (f' a)) (left : j ≤ k + v)
    (taken : u ≤ i + v) : Swaps tail tail' b k u (p >>= f) (p' >>= f') where
  took start c last ran := by
    obtain ⟨a, middle, ran, ran'⟩ := bind_ran ran
    exact ((first.took _ _ _ ran).trans ((next a).took _ _ _ ran')).mono taken
  swap ws line c last few ran leaves := by
    obtain ⟨a, middle, ran, ran'⟩ := bind_ran ran
    have later : last.rest.length + v ≤ middle.rest.length := ((next a).took _ _ _ ran').length
    obtain ⟨r, kept, read⟩ := first.swap ws line a middle few ran (by omega)
    have before := (first.took _ _ _ ran).length
    obtain ⟨rest, line'⟩ := middle
    subst kept
    rw [List.length_append, List.length_append] at before
    obtain ⟨r', kept', read'⟩ := (next a).swap r line' c last (by omega) ran' leaves
    refine ⟨r', kept', ?_⟩
    rw [StateT.run_bind, read]
    exact read'

theorem peek {q : Parse γ} {f f' : γ → Parse α} (seen : Lexeme → γ)
    (looks : ∀ x rest line, q.run ⟨x :: rest, line⟩ = some (seen x, ⟨x :: rest, line⟩))
    (stays : ∀ w c w', q.run w = some (c, w') → w' = w) (inside : 0 < k + u)
    (each : ∀ c, Swaps tail tail' b k u (f c) (f' c)) :
    Swaps tail tail' b k u (q >>= f) (q >>= f') where
  took w a w' ran := by
    obtain ⟨c, _, look, read⟩ := bind_ran ran
    obtain rfl := stays _ _ _ look
    exact (each c).took _ _ _ read
  swap ws line a w' few ran leaves := by
    obtain ⟨c, _, look, ran'⟩ := bind_ran ran
    obtain rfl := stays _ _ _ look
    have before := ((each c).took _ _ _ ran').length
    cases ws with
    | nil =>
      simp only [List.nil_append] at before
      omega
    | cons x ws =>
      rw [List.cons_append, looks] at look
      obtain rfl : seen x = c := congrArg Prod.fst (Option.some.inj look)
      obtain ⟨r, kept, read⟩ := (each (seen x)).swap (x :: ws) line a w' few ran' leaves
      refine ⟨r, kept, ?_⟩
      rw [StateT.run_bind, List.cons_append, looks]
      exact read

theorem mark_looks (x : Lexeme) (rest : List Lexeme) (line : Nat) :
    Parse.mark.run ⟨x :: rest, line⟩ = some (markOf [x], ⟨x :: rest, line⟩) := by
  obtain ⟨t, l⟩ := x
  rw [mark_run]
  cases t <;> rfl

theorem mark {f f' : String → Parse α} (inside : 0 < k + u)
    (each : ∀ m, Swaps tail tail' b k u (f m) (f' m)) :
    Swaps tail tail' b k u (Parse.mark >>= f) (Parse.mark >>= f') := by
  apply peek (fun x => markOf [x]) mark_looks _ inside each
  intro w c w' ran
  rw [mark_run] at ran
  cases ran
  rfl

theorem next? {f f' : Option Token → Parse α} (inside : 0 < k + u)
    (each : ∀ t, Swaps tail tail' b k u (f t) (f' t)) :
    Swaps tail tail' b k u (Parse.next? >>= f) (Parse.next? >>= f') := by
  apply peek (fun x => some x.token) _ _ inside each
  · exact fun x rest line => rfl
  · intro w c w' ran
    cases ran
    rfl

theorem nextLine {f f' : Nat → Parse α} (inside : 0 < k + u)
    (each : ∀ l, Swaps tail tail' b k u (f l) (f' l)) :
    Swaps tail tail' b k u (Parse.nextLine >>= f) (Parse.nextLine >>= f') := by
  apply peek (fun x => x.line) _ _ inside each
  · exact fun x rest line => rfl
  · intro w c w' ran
    cases ran
    rfl

theorem atBlockEnd {f f' : Bool → Parse α} (inside : 0 < k + u)
    (each : ∀ c, Swaps tail tail' b k u (f c) (f' c)) :
    Swaps tail tail' b k u (Parse.atBlockEnd >>= f) (Parse.atBlockEnd >>= f') := by
  unfold Parse.atBlockEnd
  rw [bind_assoc, bind_assoc]
  apply Swaps.next? inside
  intro t
  rcases t with _ | (_ | _ | _ | _ | _)
  · exact each true
  · exact each false
  · exact each _
  · exact each false
  · exact each false
  · exact each false

theorem line {f f' : Nat → Parse α} (each : ∀ l, Swaps tail tail' b k u (f l) (f' l)) :
    Swaps tail tail' b k u (Parse.line >>= f) (Parse.line >>= f') where
  took w a w' ran := (each w.line).took w a w' ran
  swap ws l a w' few ran leaves := (each l).swap ws l a w' few ran leaves

theorem take {f f' : Token → Parse α}
    (next : ∀ t, Swaps tail tail' (b - 20) k (u - 1) (f t) (f' t)) :
    Swaps tail tail' b k u (Parse.take >>= f) (Parse.take >>= f') := by
  have one : Swaps tail tail' b k 1 Parse.take Parse.take := by
    constructor
    · intro w a w' ran
      obtain ⟨_ | ⟨x, rest⟩, l⟩ := w
      · cases ran
      · cases ran
        exact ⟨[x], Nat.le_refl _, rfl⟩
    · intro ws line a w' few ran leaves
      cases ws with
      | nil =>
        cases tail with
        | nil => cases ran
        | cons x rest =>
          cases ran
          simp only [List.length_cons] at leaves
          omega
      | cons x ws =>
        cases ran
        exact ⟨ws, rfl, rfl⟩
  exact .bind (u - 1) one next (by omega) (by omega)

theorem discardTake {q q' : Parse α} (next : Swaps tail tail' (b - 20) k (u - 1) q q') :
    Swaps tail tail' b k u (discard Parse.take >>= fun _ => q)
      (discard Parse.take >>= fun _ => q') := by
  have same (r : Parse α) : (discard Parse.take >>= fun _ => r) = Parse.take >>= fun _ => r := by
    apply StateT.ext
    intro w
    rw [StateT.run_bind, StateT.run_bind, discard_run]
    cases Parse.take.run w <;> rfl
  rw [same, same]
  exact .take fun _ => next

theorem name {f f' : String → Parse α}
    (next : ∀ n, Swaps tail tail' (b - 20) k (u - 1) (f n) (f' n)) :
    Swaps tail tail' b k u (Parse.name >>= f) (Parse.name >>= f') := by
  unfold Parse.name
  rw [bind_assoc, bind_assoc]
  apply Swaps.take
  intro t
  cases t with
  | name n => exact next n
  | _ => exact .failure

theorem peekAnywhere {q : Parse γ} {f f' : γ → Parse α} (seen : Lexeme → γ) (nothing : γ)
    (closing : Closing tail) (closing' : Closing tail')
    (looks : ∀ x rest line, q.run ⟨x :: rest, line⟩ = some (seen x, ⟨x :: rest, line⟩))
    (ends : ∀ line, q.run ⟨[], line⟩ = some (nothing, ⟨[], line⟩))
    (same : ∀ line, f (seen ⟨.symbol ")", line⟩) = f nothing)
    (same' : ∀ line, f' (seen ⟨.symbol ")", line⟩) = f' nothing)
    (each : ∀ c, Swaps tail tail' b k u (f c) (f' c)) :
    Swaps tail tail' b k u (q >>= f) (q >>= f') where
  took w a w' ran := by
    obtain ⟨_ | ⟨x, rest⟩, line⟩ := w
    · rw [StateT.run_bind, ends] at ran
      exact (each nothing).took _ _ _ ran
    · rw [StateT.run_bind, looks] at ran
      exact (each (seen x)).took _ _ _ ran
  swap ws line a w' few ran leaves := by
    cases ws with
    | nil =>
      have first : (q >>= f).run ⟨tail, line⟩ = (f nothing).run ⟨tail, line⟩ := by
        rcases closing with rfl | ⟨l, rest, rfl⟩
        · rw [StateT.run_bind, ends]
          rfl
        · rw [StateT.run_bind, looks, ← same l]
          rfl
      have second : (q >>= f').run ⟨tail', line⟩ = (f' nothing).run ⟨tail', line⟩ := by
        rcases closing' with rfl | ⟨l, rest, rfl⟩
        · rw [StateT.run_bind, ends]
          rfl
        · rw [StateT.run_bind, looks, ← same' l]
          rfl
      rw [List.nil_append] at ran ⊢
      rw [first] at ran
      rw [second]
      exact (each nothing).swap [] line a w' few ran leaves
    | cons x ws =>
      rw [List.cons_append, StateT.run_bind, looks] at ran
      rw [List.cons_append, StateT.run_bind, looks]
      exact (each (seen x)).swap (x :: ws) line a w' few ran leaves

theorem markAnywhere {f f' : String → Parse α} (closing : Closing tail)
    (closing' : Closing tail') (same : f ")" = f "") (same' : f' ")" = f' "")
    (each : ∀ m, Swaps tail tail' b k u (f m) (f' m)) :
    Swaps tail tail' b k u (Parse.mark >>= f) (Parse.mark >>= f') :=
  .peekAnywhere (fun x => markOf [x]) "" closing closing' mark_looks (fun _ => rfl)
    (fun _ => same) (fun _ => same') each

theorem next?Anywhere {f f' : Option Token → Parse α} (closing : Closing tail)
    (closing' : Closing tail') (same : f (some (.symbol ")")) = f none)
    (same' : f' (some (.symbol ")")) = f' none)
    (each : ∀ t, Swaps tail tail' b k u (f t) (f' t)) :
    Swaps tail tail' b k u (Parse.next? >>= f) (Parse.next? >>= f') :=
  .peekAnywhere (fun x => some x.token) none closing closing' (fun _ _ _ => rfl) (fun _ => rfl)
    (fun _ => same) (fun _ => same') each

theorem accept_bind (s : String) (f : Bool → Parse α) :
    (Parse.accept s >>= f) =
      Parse.mark >>= fun m =>
        if m = s then discard Parse.take >>= fun _ => f true else f false := by
  simp only [Parse.accept, bind_assoc]
  congr 1
  funext m
  split <;> simp

theorem accept {s : String} {yes yes' no no' : Parse α}
    (first : Swaps tail tail' (b - 20) k (u - 1) yes yes')
    (second : Swaps tail tail' b k u no no') (closing : Closing tail) (closing' : Closing tail')
    (safe : 0 < k + u ∨ s ≠ "" ∧ s ≠ ")") :
    Swaps tail tail' b k u (Parse.accept s >>= fun c => if c = true then yes else no)
      (Parse.accept s >>= fun c => if c = true then yes' else no') := by
  rw [accept_bind, accept_bind]
  have each (m : String) : Swaps tail tail' b k u
      (if m = s then discard Parse.take >>= fun _ => if true = true then yes else no
        else if false = true then yes else no)
      (if m = s then discard Parse.take >>= fun _ => if true = true then yes' else no'
        else if false = true then yes' else no') := by
    split
    · exact .discardTake first
    · exact second
  rcases safe with inside | ⟨something, other⟩
  · exact .mark inside each
  · apply Swaps.markAnywhere closing closing' _ _ each
    · rw [if_neg (Ne.symm other), if_neg (Ne.symm something)]
    · rw [if_neg (Ne.symm other), if_neg (Ne.symm something)]

theorem discardAccept {s : String} {q q' : Parse α} (closing : Closing tail)
    (closing' : Closing tail') (safe : 0 < k + u ∨ s ≠ "" ∧ s ≠ ")")
    (next : Swaps tail tail' b k u q q') :
    Swaps tail tail' b k u (discard (Parse.accept s) >>= fun _ => q)
      (discard (Parse.accept s) >>= fun _ => q') := by
  have same (r : Parse α) : (discard (Parse.accept s) >>= fun _ => r) =
      Parse.accept s >>= fun c => if c = true then r else r := by
    apply StateT.ext
    intro w
    rw [StateT.run_bind, StateT.run_bind, discard_run]
    simp only [ite_self]
    cases (Parse.accept s).run w <;> rfl
  rw [same, same]
  exact .accept (next.mono (by omega) (Nat.le_refl k) (Nat.sub_le u 1)) next closing closing' safe

theorem expect {s : String} {f f' : Unit → Parse α} (closing : Closing tail)
    (closing' : Closing tail') (next : Swaps tail tail' (b - 20) k (u - 1) (f ()) (f' ())) :
    Swaps tail tail' b k u (Parse.expect s >>= f) (Parse.expect s >>= f') := by
  have one : Swaps tail tail' b k 1 (Parse.expect s) (Parse.expect s) :=
    .accept (.pure ()) .failure closing closing' (.inl (Nat.succ_pos k))
  exact .bind (u - 1) one (fun _ => next) (by omega) (by omega)

theorem withLine {e : Expr} {f f' : Expr → Parse α}
    (each : ∀ e, Swaps tail tail' b k u (f e) (f' e)) :
    Swaps tail tail' b k u (Parse.withLine e >>= f) (Parse.withLine e >>= f') := by
  simp only [Parse.withLine, bind_assoc, pure_bind]
  exact .line fun l => each (e.atLine l)

theorem itemAtLine {x : Field} {f f' : Field → Parse α}
    (each : ∀ x, Swaps tail tail' b k u (f x) (f' x)) :
    Swaps tail tail' b k u (Parse.itemAtLine x >>= f) (Parse.itemAtLine x >>= f') := by
  cases x with
  | item e =>
    simp only [Parse.itemAtLine, bind_assoc, pure_bind]
    exact .withLine fun e => each (.item e)
  | entry key e =>
    simp only [Parse.itemAtLine, pure_bind]
    exact each (.entry key e)

theorem separated {f f' : Bool → Parse α} (closing : Closing tail) (closing' : Closing tail')
    (yes : Swaps tail tail' (b - 20) k 0 (f true) (f' true))
    (no : Swaps tail tail' b k 1 (f false) (f' false)) :
    Swaps tail tail' b k 1
      ((do if (← Parse.accept ",") then return true else Parse.accept ";") >>= f)
      ((do if (← Parse.accept ",") then return true else Parse.accept ";") >>= f') := by
  have flat (g : Bool → Parse α) :
      ((do if (← Parse.accept ",") then return true else Parse.accept ";") >>= g) =
        Parse.accept "," >>= fun c => if c = true then g true
          else Parse.accept ";" >>= fun c => if c = true then g true else g false := by
    rw [bind_assoc]
    congr 1
    funext c
    cases c with
    | true => simp
    | false =>
      simp only [Bool.false_eq_true, if_false]
      congr 1
      funext c
      cases c <;> rfl
  rw [flat, flat]
  apply Swaps.accept yes _ closing closing' (.inl (Nat.succ_pos k))
  exact .accept yes no closing closing' (.inl (Nat.succ_pos k))

theorem fewer (v : Nat) {p p' : Parse α} (swaps : Swaps tail tail' b k (u + v) p p') :
    Swaps tail tail' b k u p p' :=
  swaps.mono (Int.le_refl b) (Nat.le_refl k) (Nat.le_add_right u v)

def merged : List Lexeme → List Lexeme
  | x :: y :: rest => { x with line := y.line } :: y :: rest
  | words => words

theorem length_merged (words : List Lexeme) : (merged words).length = words.length := by
  unfold merged
  split <;> rfl

theorem mergeLines_run (words : List Lexeme) (line : Nat) :
    Parse.mergeLines.run ⟨words, line⟩ = some ((), ⟨merged words, line⟩) := by
  match words with
  | [] => rfl
  | [_] => rfl
  | _ :: _ :: _ => rfl

theorem drop_merged (words : List Lexeme) : (merged words).drop 1 = words.drop 1 := by
  unfold merged
  split <;> rfl

theorem mergeLines {p p' : Parse α} (inside : 0 < k) (inner : Swaps tail tail' b k 1 p p') :
    Swaps tail tail' b k 1 (Parse.mergeLines >>= fun _ => p)
      (Parse.mergeLines >>= fun _ => p') where
  took w a w' ran := by
    obtain ⟨words, line⟩ := w
    rw [StateT.run_bind, mergeLines_run] at ran
    obtain ⟨used, enough, whole⟩ := inner.took ⟨merged words, line⟩ a w' ran
    simp only at whole
    have rest : words.drop 1 = used.drop 1 ++ w'.rest := by
      rw [← drop_merged, whole, List.drop_append_of_le_length enough]
    have length := congrArg List.length whole
    rw [length_merged, List.length_append] at length
    refine ⟨words.take 1 ++ used.drop 1, ?_, ?_⟩
    · rw [List.length_append, List.length_take]
      omega
    · rw [List.append_assoc, ← rest, List.take_append_drop]
  swap ws line a w' few ran leaves := by
    rw [StateT.run_bind, mergeLines_run] at ran
    have before := (inner.took ⟨merged (ws ++ tail), line⟩ a w' ran).length
    rw [length_merged, List.length_append] at before
    match ws with
    | [] =>
      rw [List.length_nil] at before
      omega
    | [x] =>
      rw [List.length_singleton] at before
      omega
    | x :: y :: ws =>
      exact inner.swap (merged (x :: y :: ws)) line a w' (by rwa [length_merged]) ran leaves

def isEquals : Option Lexeme → Bool
  | some ⟨.symbol s, _⟩ => s == "="
  | _ => false

theorem followedByEquals_run (words : List Lexeme) (line : Nat) :
    Parse.followedByEquals.run ⟨words, line⟩ = some (isEquals words[1]?, ⟨words, line⟩) := by
  match words with
  | [] => rfl
  | [_] => rfl
  | x :: ⟨t, l⟩ :: rest =>
    cases t with
    | symbol s =>
      by_cases equals : s = "="
      · subst equals
        rfl
      · simp [Parse.followedByEquals, isEquals, equals]
    | _ => rfl

theorem isEquals_append (x : Lexeme) (ws : List Lexeme) (closing : Closing tail) :
    isEquals (x :: ws ++ tail)[1]? = isEquals (x :: ws)[1]? := by
  cases ws with
  | nil => rcases closing with rfl | ⟨l, rest, rfl⟩ <;> rfl
  | cons y ws => rfl

theorem followedByEquals {f f' : Bool → Parse α} (closing : Closing tail)
    (closing' : Closing tail') (inside : 0 < k + u)
    (each : ∀ c, Swaps tail tail' b k u (f c) (f' c)) :
    Swaps tail tail' b k u (Parse.followedByEquals >>= f) (Parse.followedByEquals >>= f') where
  took w a w' ran := by
    obtain ⟨words, line⟩ := w
    rw [StateT.run_bind, followedByEquals_run] at ran
    exact (each _).took _ _ _ ran
  swap ws line a w' few ran leaves := by
    rw [StateT.run_bind, followedByEquals_run] at ran
    rw [StateT.run_bind, followedByEquals_run]
    cases ws with
    | nil =>
      have before := ((each _).took _ _ _ ran).length
      simp only [List.nil_append] at before
      omega
    | cons x ws =>
      rw [isEquals_append x ws closing] at ran
      rw [isEquals_append x ws closing']
      exact (each _).swap _ _ _ _ few ran leaves

end Swaps

section Readers

variable {fuel m level limit : Nat}

theorem Swaps.of_succ {q : Nat → Parse α} {p : Parse α} {c : Int} (m : Nat) (positive : 0 < c)
    (each : ∀ m : Nat, b + c ≤ (m + 1 : Nat) → Swaps tail tail' b k u p (q (m + 1)))
    (enough : b + c ≤ m) : Swaps tail tail' b k u p (q m) := by
  cases m with
  | succ m => exact each m enough
  | zero =>
    refine ⟨(each 0 (by omega)).took, ?_⟩
    intro ws line a w' few
    omega

theorem names_swaps (closing : Closing tail) (closing' : Closing tail') (fuel : Nat)
    (enough : b + 1 ≤ m) : Swaps tail tail' b k 1 (Parse.names fuel) (Parse.names m) := by
  induction fuel generalizing b m with
  | zero => exact .failure
  | succ fuel ih =>
    refine .of_succ m (by decide) (fun m enough => ?_) enough
    rw [Parse.names, Parse.names]
    apply Swaps.name
    intro n
    apply Swaps.accept _ _ closing closing' (.inr (by decide))
    · refine .bind 0 (ih (by omega)) (fun ns => ?_) (Nat.le_refl k) (by decide)
      exact .pure _
    · exact .pure _

theorem kindOfLocal_swaps (closing : Closing tail) (closing' : Closing tail') (b : Int)
    (k : Nat) : Swaps tail tail' b k 0 Parse.kindOfLocal Parse.kindOfLocal := by
  unfold Parse.kindOfLocal
  apply Swaps.accept _ _ closing closing' (.inr (by decide))
  · apply Swaps.name
    intro word
    apply Swaps.expect closing closing'
    split
    · exact .pure _
    · exact .pure _
    · exact .failure
  · exact .pure _

theorem attributed_swaps (closing : Closing tail) (closing' : Closing tail') (fuel : Nat)
    (enough : b + 1 ≤ m) :
    Swaps tail tail' b k 1 (Parse.attributed fuel) (Parse.attributed m) := by
  induction fuel generalizing b m with
  | zero => exact .failure
  | succ fuel ih =>
    refine .of_succ m (by decide) (fun m enough => ?_) enough
    rw [Parse.attributed, Parse.attributed]
    apply Swaps.name
    intro n
    refine .bind 0 (kindOfLocal_swaps closing closing' _ k) (fun a => ?_) (Nat.le_refl k)
      (by decide)
    apply Swaps.accept _ _ closing closing' (.inr (by decide))
    · refine .bind 0 (ih (by omega)) (fun ns => ?_) (Nat.le_refl k) (by decide)
      exact .pure _
    · exact .pure _

theorem params_swaps (closing : Closing tail) (closing' : Closing tail') (fuel : Nat)
    (enough : b + 1 ≤ m) : Swaps tail tail' b 0 1 (Parse.params fuel) (Parse.params m) := by
  induction fuel generalizing b m with
  | zero => exact .failure
  | succ fuel ih =>
    refine .of_succ m (by decide) (fun m enough => ?_) enough
    rw [Parse.params, Parse.params]
    apply Swaps.accept _ _ closing closing' (.inl (by decide))
    · apply Swaps.expect closing closing'
      exact .pure _
    · apply Swaps.name
      intro n
      apply Swaps.accept _ _ closing closing' (.inr (by decide))
      · refine .bind 0 (ih (by omega)) ?_ (by decide) (by decide)
        rintro ⟨ns, isVararg⟩
        exact .pure _
      · apply Swaps.expect closing closing'
        exact .pure _

theorem signature_swaps (closing : Closing tail) (closing' : Closing tail') (fuel : Nat)
    (enough : b ≤ m) : Swaps tail tail' b 0 2 (Parse.signature fuel) (Parse.signature m) := by
  unfold Parse.signature
  apply Swaps.expect closing closing'
  apply Swaps.accept _ _ closing closing' (.inl (by decide))
  · exact .pure _
  · exact params_swaps closing closing' fuel (by omega)

structure Below (tail tail' : List Lexeme) (fuel : Nat) : Prop where
  closing : Closing tail
  closing' : Closing tail'
  expr : ∀ (b : Int) (m level limit : Nat), b + 3 ≤ m →
    Swaps tail tail' b 0 1 (Parse.expr fuel level limit) (Parse.expr m level limit)
  operators : ∀ (b : Int) (m level limit : Nat) (e : Expr), b + 1 ≤ m →
    Swaps tail tail' b 0 0 (Parse.operators fuel level limit e) (Parse.operators m level limit e)
  simple : ∀ (b : Int) (m level : Nat), b + 2 ≤ m →
    Swaps tail tail' b 0 1 (Parse.simple fuel level) (Parse.simple m level)
  suffixed : ∀ (b : Int) (m level : Nat), b + 1 ≤ m →
    Swaps tail tail' b 0 1 (Parse.suffixed fuel level) (Parse.suffixed m level)
  suffixes : ∀ (b : Int) (m level : Nat) (e : Expr), b + 3 ≤ m →
    Swaps tail tail' b 0 0 (Parse.suffixes fuel level e) (Parse.suffixes m level e)
  args : ∀ (b : Int) (m level : Nat), b + 2 ≤ m →
    Swaps tail tail' b 0 1 (Parse.args fuel level) (Parse.args m level)
  exprs : ∀ (b : Int) (m level : Nat), b + 4 ≤ m →
    Swaps tail tail' b 0 1 (Parse.exprs fuel level) (Parse.exprs m level)
  constructor : ∀ (b : Int) (m level : Nat), b + 1 ≤ m →
    Swaps tail tail' b 0 1 (Parse.constructor fuel level) (Parse.constructor m level)
  fields : ∀ (b : Int) (m level : Nat), b + 5 ≤ m →
    Swaps tail tail' b 0 1 (Parse.fields fuel level) (Parse.fields m level)
  field : ∀ (b : Int) (m level : Nat), b + 4 ≤ m →
    Swaps tail tail' b 1 1 (Parse.field fuel level) (Parse.field m level)
  function : ∀ (b : Int) (m level : Nat) (first : List String), b + 2 ≤ m →
    Swaps tail tail' b 0 1 (Parse.function fuel level first) (Parse.function m level first)
  block : ∀ (b : Int) (m level : Nat), b + 6 ≤ m →
    Swaps tail tail' b 1 0 (Parse.block fuel level) (Parse.block m level)
  statement : ∀ (b : Int) (m level : Nat), b + 5 ≤ m →
    Swaps tail tail' b 1 1 (Parse.statement fuel level) (Parse.statement m level)
  condition : ∀ (b : Int) (m level : Nat), b + 4 ≤ m →
    Swaps tail tail' b 1 1 (Parse.condition fuel level) (Parse.condition m level)
  loop : ∀ (b : Int) (m level : Nat), b + 1 ≤ m →
    Swaps tail tail' b 1 1 (Parse.loop fuel level) (Parse.loop m level)
  functionStmt : ∀ (b : Int) (m level : Nat), b + 1 ≤ m →
    Swaps tail tail' b 1 1 (Parse.functionStmt fuel level) (Parse.functionStmt m level)
  path : ∀ (b : Int) (m : Nat) (e : Expr), b + 1 ≤ m →
    Swaps tail tail' b 1 0 (Parse.path fuel e) (Parse.path m e)
  declaration : ∀ (b : Int) (m level : Nat), b + 2 ≤ m →
    Swaps tail tail' b 1 1 (Parse.declaration fuel level) (Parse.declaration m level)
  plain : ∀ (b : Int) (m level : Nat), b + 2 ≤ m →
    Swaps tail tail' b 1 1 (Parse.plain fuel level) (Parse.plain m level)
  targets : ∀ (b : Int) (m level : Nat), b + 1 ≤ m →
    Swaps tail tail' b 1 0 (Parse.targets fuel level) (Parse.targets m level)

namespace Below

variable {b : Int}

theorem expr_succ (ih : Below tail tail' fuel) (enough : b + 3 ≤ (m + 1 : Nat)) :
    Swaps tail tail' b 0 1 (Parse.expr (fuel + 1) level limit)
      (Parse.expr (m + 1) level limit) := by
  cases level with
  | zero =>
    rw [Parse.expr]
    · exact .failure
    · simp
  | succ level =>
    rw [Parse.expr, Parse.expr]
    apply Swaps.mark (by decide)
    intro mark
    split
    · apply Swaps.nextLine (by decide)
      intro here
      apply Swaps.discardTake
      refine .bind 0 (ih.expr _ _ _ _ (by omega)) (fun e => ?_) (by decide) (by decide)
      exact ih.operators _ _ _ _ _ (by omega)
    · refine .bind 0 (ih.simple _ _ _ (by omega)) (fun e => ?_) (by decide) (by decide)
      exact ih.operators _ _ _ _ _ (by omega)

theorem operators_succ (ih : Below tail tail' fuel) (e : Expr) (enough : b + 1 ≤ (m + 1 : Nat)) :
    Swaps tail tail' b 0 0 (Parse.operators (fuel + 1) level limit e)
      (Parse.operators (m + 1) level limit e) := by
  rw [Parse.operators, Parse.operators]
  apply Swaps.markAnywhere ih.closing ih.closing' rfl rfl
  intro mark
  split
  · split
    · apply Swaps.discardTake
      apply Swaps.line
      intro here
      refine .bind 0 (ih.expr _ _ _ _ (by omega)) (fun right => ?_) (by decide) (by decide)
      exact ih.operators _ _ _ _ _ (by omega)
    · exact .pure e
  · exact .pure e

theorem simple_succ (ih : Below tail tail' fuel) (enough : b + 2 ≤ (m + 1 : Nat)) :
    Swaps tail tail' b 0 1 (Parse.simple (fuel + 1) level) (Parse.simple (m + 1) level) := by
  rw [Parse.simple, Parse.simple]
  apply Swaps.next? (by decide)
  intro t
  split
  · exact .discardTake (.pure _)
  · exact .discardTake (.pure _)
  · apply Swaps.mark (by decide)
    intro mark
    split
    · exact .discardTake (.pure _)
    · exact .discardTake (.pure _)
    · exact .discardTake (.pure _)
    · exact .discardTake (.pure _)
    · exact ih.constructor _ _ _ (by omega)
    · apply Swaps.discardTake
      refine .bind 0 (ih.function _ _ _ _ (by omega)) (fun f => ?_) (by decide) (by decide)
      exact .pure _
    · exact ih.suffixed _ _ _ (by omega)

theorem suffixed_succ (ih : Below tail tail' fuel) (enough : b + 1 ≤ (m + 1 : Nat)) :
    Swaps tail tail' b 0 1 (Parse.suffixed (fuel + 1) level)
      (Parse.suffixed (m + 1) level) := by
  rw [Parse.suffixed, Parse.suffixed]
  apply Swaps.accept _ _ ih.closing ih.closing' (.inl (by decide))
  · refine .bind 1 (ih.expr _ _ _ _ (by omega)) (fun e => ?_) (by decide) (by decide)
    apply Swaps.expect ih.closing ih.closing'
    apply Swaps.withLine
    intro e
    exact ih.suffixes _ _ _ _ (by omega)
  · apply Swaps.name
    intro n
    apply Swaps.line
    intro l
    exact ih.suffixes _ _ _ _ (by omega)

theorem suffixes_succ (ih : Below tail tail' fuel) (e : Expr) (enough : b + 3 ≤ (m + 1 : Nat)) :
    Swaps tail tail' b 0 0 (Parse.suffixes (fuel + 1) level e)
      (Parse.suffixes (m + 1) level e) := by
  have called : Swaps tail tail' b 0 0
      (Parse.nextLine >>= fun here => Parse.args fuel level >>= fun es =>
        Parse.suffixes fuel level (.call e es here))
      (Parse.nextLine >>= fun here => Parse.args m level >>= fun es =>
        Parse.suffixes m level (.call e es here)) := by
    apply Swaps.fewer 1
    apply Swaps.nextLine (by decide)
    intro here
    refine .bind 0 (ih.args _ _ _ (by omega)) (fun es => ?_) (by decide) (by decide)
    exact ih.suffixes _ _ _ _ (by omega)
  rw [Parse.suffixes, Parse.suffixes]
  apply Swaps.next?Anywhere ih.closing ih.closing' rfl rfl
  intro t
  split
  · exact called
  · apply Swaps.markAnywhere ih.closing ih.closing' rfl rfl
    intro mark
    split
    · apply Swaps.discardTake
      apply Swaps.name
      intro n
      apply Swaps.line
      intro l
      exact ih.suffixes _ _ _ _ (by omega)
    · apply Swaps.discardTake
      refine .bind 1 (ih.expr _ _ _ _ (by omega)) (fun key => ?_) (by decide) (by decide)
      apply Swaps.expect ih.closing ih.closing'
      apply Swaps.line
      intro l
      exact ih.suffixes _ _ _ _ (by omega)
    · apply Swaps.fewer 2
      apply Swaps.discardTake
      apply Swaps.name
      intro n
      apply Swaps.line
      intro nameLine
      apply Swaps.fewer 1
      apply Swaps.nextLine (by decide)
      intro here
      refine .bind 0 (ih.args _ _ _ (by omega)) (fun es => ?_) (by decide) (by decide)
      exact ih.suffixes _ _ _ _ (by omega)
    · exact called
    · exact called
    · exact .pure e

theorem args_succ (ih : Below tail tail' fuel) (enough : b + 2 ≤ (m + 1 : Nat)) :
    Swaps tail tail' b 0 1 (Parse.args (fuel + 1) level) (Parse.args (m + 1) level) := by
  rw [Parse.args, Parse.args]
  apply Swaps.next? (by decide)
  intro t
  split
  · exact .discardTake (.pure _)
  · apply Swaps.mark (by decide)
    intro mark
    split
    · refine .bind 0 (ih.constructor _ _ _ (by omega)) (fun e => ?_) (by decide) (by decide)
      exact .pure _
    · apply Swaps.fewer 1
      apply Swaps.expect ih.closing ih.closing'
      apply Swaps.accept _ _ ih.closing ih.closing' (.inl (by decide))
      · exact .pure _
      · refine .bind 1 (ih.exprs _ _ _ (by omega)) (fun es => ?_) (by decide) (by decide)
        apply Swaps.expect ih.closing ih.closing'
        apply Swaps.line
        intro l
        exact .pure _

theorem exprs_succ (ih : Below tail tail' fuel) (enough : b + 4 ≤ (m + 1 : Nat)) :
    Swaps tail tail' b 0 1 (Parse.exprs (fuel + 1) level) (Parse.exprs (m + 1) level) := by
  rw [Parse.exprs, Parse.exprs]
  refine .bind 0 (ih.expr _ _ _ _ (by omega)) (fun e => ?_) (by decide) (by decide)
  apply Swaps.accept _ _ ih.closing ih.closing' (.inr (by decide))
  · apply Swaps.withLine
    intro e
    refine .bind 0 (ih.exprs _ _ _ (by omega)) (fun es => ?_) (by decide) (by decide)
    exact .pure _
  · exact .pure _

theorem constructor_succ (ih : Below tail tail' fuel) (enough : b + 1 ≤ (m + 1 : Nat)) :
    Swaps tail tail' b 0 1 (Parse.constructor (fuel + 1) level)
      (Parse.constructor (m + 1) level) := by
  rw [Parse.constructor, Parse.constructor]
  apply Swaps.expect ih.closing ih.closing'
  refine .bind 0 (ih.fields _ _ _ (by omega)) (fun fs => ?_) (by decide) (by decide)
  exact .pure _

theorem fields_succ (ih : Below tail tail' fuel) (enough : b + 5 ≤ (m + 1 : Nat)) :
    Swaps tail tail' b 0 1 (Parse.fields (fuel + 1) level) (Parse.fields (m + 1) level) := by
  rw [Parse.fields, Parse.fields]
  apply Swaps.accept _ _ ih.closing ih.closing' (.inl (by decide))
  · exact .pure _
  · refine .bind 1 (ih.field _ _ _ (by omega)) (fun f => ?_) (by decide) (by decide)
    apply Swaps.separated ih.closing ih.closing'
    · apply Swaps.accept _ _ ih.closing ih.closing' (.inr (by decide))
      · exact .itemAtLine fun f => .pure _
      · apply Swaps.itemAtLine
        intro f
        refine .bind 0 (ih.fields _ _ _ (by omega)) (fun fs => ?_) (by decide) (by decide)
        exact .pure _
    · apply Swaps.accept _ _ ih.closing ih.closing' (.inl (by decide))
      · exact .itemAtLine fun f => .pure _
      · exact .failure

theorem field_succ (ih : Below tail tail' fuel) (enough : b + 4 ≤ (m + 1 : Nat)) :
    Swaps tail tail' b 1 1 (Parse.field (fuel + 1) level) (Parse.field (m + 1) level) := by
  rw [Parse.field, Parse.field]
  apply Swaps.next? (by decide)
  intro t
  split
  · apply Swaps.followedByEquals ih.closing ih.closing' (by decide)
    intro c
    split
    · apply Swaps.discardTake
      apply Swaps.expect ih.closing ih.closing'
      refine .bind 0 (ih.expr _ _ _ _ (by omega)) (fun e => ?_) (by decide) (by decide)
      exact .pure _
    · apply Swaps.mergeLines (by decide)
      refine .bind 0 (ih.expr _ _ _ _ (by omega)) (fun e => ?_) (by decide) (by decide)
      exact .pure _
  · apply Swaps.accept _ _ ih.closing ih.closing' (.inl (by decide))
    · refine .bind 0 (ih.expr _ _ _ _ (by omega)) (fun key => ?_) (by decide) (by decide)
      apply Swaps.expect ih.closing ih.closing'
      apply Swaps.expect ih.closing ih.closing'
      refine .bind 0 (ih.expr _ _ _ _ (by omega)) (fun e => ?_) (by decide) (by decide)
      exact .pure _
    · refine .bind 0 (ih.expr _ _ _ _ (by omega)) (fun e => ?_) (by decide) (by decide)
      exact .pure _

theorem function_succ (ih : Below tail tail' fuel) (first : List String)
    (enough : b + 2 ≤ (m + 1 : Nat)) :
    Swaps tail tail' b 0 1 (Parse.function (fuel + 1) level first)
      (Parse.function (m + 1) level first) := by
  rw [Parse.function, Parse.function]
  refine .bind 0 (signature_swaps ih.closing ih.closing' fuel (by omega)) ?_ (by decide)
    (by decide)
  rintro ⟨names, isVararg⟩
  refine .bind 1 (ih.block _ _ _ (by omega)) (fun body => ?_) (by decide) (by decide)
  apply Swaps.expect ih.closing ih.closing'
  exact .pure _

theorem block_succ (ih : Below tail tail' fuel) (enough : b + 6 ≤ (m + 1 : Nat)) :
    Swaps tail tail' b 1 0 (Parse.block (fuel + 1) level) (Parse.block (m + 1) level) := by
  rw [Parse.block, Parse.block]
  apply Swaps.atBlockEnd (by decide)
  intro c
  split
  · exact .pure _
  · apply Swaps.mark (by decide)
    intro mark
    split
    · exact .fewer 1 (ih.statement _ _ _ (by omega))
    · refine .bind 0 (ih.statement _ _ _ (by omega)) (fun s => ?_) (by decide) (by decide)
      refine .bind 0 (ih.block _ _ _ (by omega)) (fun body => ?_) (by decide) (by decide)
      exact .pure _

theorem statement_succ (ih : Below tail tail' fuel) (enough : b + 5 ≤ (m + 1 : Nat)) :
    Swaps tail tail' b 1 1 (Parse.statement (fuel + 1) level)
      (Parse.statement (m + 1) level) := by
  cases level with
  | zero =>
    rw [Parse.statement]
    · exact .failure
    · simp
  | succ level =>
    rw [Parse.statement, Parse.statement]
    apply Swaps.mark (by decide)
    intro mark
    split
    · exact .discardTake (.pure _)
    · apply Swaps.discardTake
      refine .bind 0 (ih.condition _ _ _ (by omega)) (fun s => ?_) (by decide) (by decide)
      exact .pure _
    · apply Swaps.discardTake
      refine .bind 0 (ih.expr _ _ _ _ (by omega)) (fun test => ?_) (by decide) (by decide)
      apply Swaps.expect ih.closing ih.closing'
      refine .bind 0 (ih.block _ _ _ (by omega)) (fun body => ?_) (by decide) (by decide)
      apply Swaps.expect ih.closing ih.closing'
      exact .pure _
    · apply Swaps.discardTake
      refine .bind 0 (ih.block _ _ _ (by omega)) (fun body => ?_) (by decide) (by decide)
      apply Swaps.expect ih.closing ih.closing'
      exact .pure _
    · apply Swaps.discardTake
      refine .bind 0 (ih.loop _ _ _ (by omega)) (fun s => ?_) (by decide) (by decide)
      exact .pure _
    · apply Swaps.discardTake
      refine .bind 0 (ih.block _ _ _ (by omega)) (fun body => ?_) (by decide) (by decide)
      apply Swaps.expect ih.closing ih.closing'
      refine .bind 0 (ih.expr _ _ _ _ (by omega)) (fun test => ?_) (by decide) (by decide)
      exact .pure _
    · refine .bind 0 (ih.functionStmt _ _ _ (by omega)) (fun s => ?_) (by decide) (by decide)
      exact .pure _
    · apply Swaps.discardTake
      refine .bind 0 (ih.declaration _ _ _ (by omega)) (fun s => ?_) (by decide) (by decide)
      exact .pure _
    · apply Swaps.discardTake
      apply Swaps.name
      intro n
      apply Swaps.expect ih.closing ih.closing'
      exact .pure _
    · apply Swaps.discardTake
      refine .bind (i := 0) (j := 1) 0 ?_ (fun values => ?_) (by decide) (by decide)
      · apply Swaps.atBlockEnd (by decide)
        intro c
        split
        · exact .pure _
        · apply Swaps.mark (by decide)
          intro mark
          split
          · exact .pure _
          · exact .mono (ih.exprs _ _ _ (by omega)) (Int.le_refl _) (by decide) (by decide)
      · exact .discardAccept ih.closing ih.closing' (.inl (by decide)) (.pure _)
    · exact .discardTake (.pure _)
    · apply Swaps.discardTake
      apply Swaps.name
      intro n
      exact .pure _
    · refine .bind 0 (ih.plain _ _ _ (by omega)) (fun s => ?_) (by decide) (by decide)
      exact .pure _

theorem condition_succ (ih : Below tail tail' fuel) (enough : b + 4 ≤ (m + 1 : Nat)) :
    Swaps tail tail' b 1 1 (Parse.condition (fuel + 1) level)
      (Parse.condition (m + 1) level) := by
  rw [Parse.condition, Parse.condition]
  refine .bind 0 (ih.expr _ _ _ _ (by omega)) (fun test => ?_) (by decide) (by decide)
  apply Swaps.expect ih.closing ih.closing'
  apply Swaps.withLine
  intro test
  refine .bind 0 (ih.block _ _ _ (by omega)) (fun yes => ?_) (by decide) (by decide)
  apply Swaps.accept _ _ ih.closing ih.closing' (.inl (by decide))
  · refine .bind 0 (ih.condition _ _ _ (by omega)) (fun no => ?_) (by decide) (by decide)
    exact .pure _
  · apply Swaps.accept _ _ ih.closing ih.closing' (.inl (by decide))
    · refine .bind 0 (ih.block _ _ _ (by omega)) (fun no => ?_) (by decide) (by decide)
      apply Swaps.expect ih.closing ih.closing'
      exact .pure _
    · apply Swaps.expect ih.closing ih.closing'
      exact .pure _

theorem loop_succ (ih : Below tail tail' fuel) (enough : b + 1 ≤ (m + 1 : Nat)) :
    Swaps tail tail' b 1 1 (Parse.loop (fuel + 1) level) (Parse.loop (m + 1) level) := by
  rw [Parse.loop, Parse.loop]
  apply Swaps.name
  intro n
  apply Swaps.accept _ _ ih.closing ih.closing' (.inl (by decide))
  · refine .bind 0 (ih.expr _ _ _ _ (by omega)) (fun start => ?_) (by decide) (by decide)
    apply Swaps.expect ih.closing ih.closing'
    refine .bind 0 (ih.expr _ _ _ _ (by omega)) (fun limit => ?_) (by decide) (by decide)
    refine .bind (i := 0) (j := 1) 0 ?_ (fun step => ?_) (by decide) (by decide)
    · apply Swaps.accept _ _ ih.closing ih.closing' (.inl (by decide))
      · refine .bind 0 (ih.expr _ _ _ _ (by omega)) (fun e => ?_) (by decide) (by decide)
        exact .pure _
      · exact .pure _
    · apply Swaps.expect ih.closing ih.closing'
      refine .bind 0 (ih.block _ _ _ (by omega)) (fun body => ?_) (by decide) (by decide)
      apply Swaps.expect ih.closing ih.closing'
      exact .pure _
  · refine .bind (i := 0) (j := 1) 0 ?_ (fun more => ?_) (by decide) (by decide)
    · apply Swaps.accept _ _ ih.closing ih.closing' (.inl (by decide))
      · exact .fewer 1 (names_swaps ih.closing ih.closing' fuel (by omega))
      · exact .pure _
    · apply Swaps.expect ih.closing ih.closing'
      apply Swaps.nextLine (by decide)
      intro here
      refine .bind 0 (ih.exprs _ _ _ (by omega)) (fun values => ?_) (by decide) (by decide)
      apply Swaps.expect ih.closing ih.closing'
      refine .bind 0 (ih.block _ _ _ (by omega)) (fun body => ?_) (by decide) (by decide)
      apply Swaps.expect ih.closing ih.closing'
      exact .pure _

theorem functionStmt_succ (ih : Below tail tail' fuel) (enough : b + 1 ≤ (m + 1 : Nat)) :
    Swaps tail tail' b 1 1 (Parse.functionStmt (fuel + 1) level)
      (Parse.functionStmt (m + 1) level) := by
  rw [Parse.functionStmt, Parse.functionStmt]
  apply Swaps.nextLine (by decide)
  intro here
  apply Swaps.discardTake
  apply Swaps.name
  intro n
  apply Swaps.line
  intro l
  refine .bind 0 (ih.path _ _ _ (by omega)) ?_ (by decide) (by decide)
  rintro ⟨target, isMethod⟩
  refine .bind 0 (ih.function _ _ _ _ (by omega)) (fun f => ?_) (by decide) (by decide)
  exact .pure _

theorem path_succ (ih : Below tail tail' fuel) (e : Expr) (enough : b + 1 ≤ (m + 1 : Nat)) :
    Swaps tail tail' b 1 0 (Parse.path (fuel + 1) e) (Parse.path (m + 1) e) := by
  rw [Parse.path, Parse.path]
  apply Swaps.accept _ _ ih.closing ih.closing' (.inl (by decide))
  · apply Swaps.name
    intro n
    apply Swaps.line
    intro l
    exact ih.path _ _ _ (by omega)
  · apply Swaps.accept _ _ ih.closing ih.closing' (.inl (by decide))
    · apply Swaps.name
      intro n
      apply Swaps.line
      intro l
      exact .pure _
    · exact .pure _

theorem declaration_succ (ih : Below tail tail' fuel) (enough : b + 2 ≤ (m + 1 : Nat)) :
    Swaps tail tail' b 1 1 (Parse.declaration (fuel + 1) level)
      (Parse.declaration (m + 1) level) := by
  rw [Parse.declaration, Parse.declaration]
  apply Swaps.accept _ _ ih.closing ih.closing' (.inl (by decide))
  · apply Swaps.name
    intro n
    refine .bind 0 (ih.function _ _ _ _ (by omega)) (fun f => ?_) (by decide) (by decide)
    exact .pure _
  · refine .bind (j := 1) 0 (attributed_swaps ih.closing ih.closing' fuel (by omega))
      (fun ns => ?_) (by decide) (by decide)
    apply Swaps.accept _ _ ih.closing ih.closing' (.inl (by decide))
    · refine .bind 0 (ih.exprs _ _ _ (by omega)) (fun values => ?_) (by decide) (by decide)
      exact .pure _
    · exact .pure _

theorem plain_succ (ih : Below tail tail' fuel) (enough : b + 2 ≤ (m + 1 : Nat)) :
    Swaps tail tail' b 1 1 (Parse.plain (fuel + 1) level) (Parse.plain (m + 1) level) := by
  rw [Parse.plain, Parse.plain]
  refine .bind 0 (ih.suffixed _ _ _ (by omega)) (fun e => ?_) (by decide) (by decide)
  apply Swaps.mark (by decide)
  intro mark
  split
  · split
    · exact .failure
    · refine .bind 0 (ih.targets _ _ _ (by omega)) (fun es => ?_) (by decide) (by decide)
      apply Swaps.expect ih.closing ih.closing'
      refine .bind 0 (ih.exprs _ _ _ (by omega)) (fun values => ?_) (by decide) (by decide)
      apply Swaps.line
      intro l
      exact .pure _
  · split
    · exact .pure _
    · exact .failure

theorem targets_succ (ih : Below tail tail' fuel) (enough : b + 1 ≤ (m + 1 : Nat)) :
    Swaps tail tail' b 1 0 (Parse.targets (fuel + 1) level) (Parse.targets (m + 1) level) := by
  rw [Parse.targets, Parse.targets]
  apply Swaps.accept _ _ ih.closing ih.closing' (.inl (by decide))
  · refine .bind 0 (ih.suffixed _ _ _ (by omega)) (fun e => ?_) (by decide) (by decide)
    cases level with
    | zero => exact .failure
    | succ level =>
      simp only
      split
      · refine .bind 0 (ih.targets _ _ _ (by omega)) (fun es => ?_) (by decide) (by decide)
        exact .pure _
      · exact .failure
  · exact .pure _

theorem zero (closing : Closing tail) (closing' : Closing tail') : Below tail tail' 0 where
  closing := closing
  closing' := closing'
  expr _ _ _ _ _ := by
    rw [Parse.expr]
    exact .failure
  operators _ _ _ _ _ _ := by
    rw [Parse.operators]
    exact .failure
  simple _ _ _ _ := by
    rw [Parse.simple]
    exact .failure
  suffixed _ _ _ _ := by
    rw [Parse.suffixed]
    exact .failure
  suffixes _ _ _ _ _ := by
    rw [Parse.suffixes]
    exact .failure
  args _ _ _ _ := by
    rw [Parse.args]
    exact .failure
  exprs _ _ _ _ := by
    rw [Parse.exprs]
    exact .failure
  constructor _ _ _ _ := by
    rw [Parse.constructor]
    exact .failure
  fields _ _ _ _ := by
    rw [Parse.fields]
    exact .failure
  field _ _ _ _ := by
    rw [Parse.field]
    exact .failure
  function _ _ _ _ _ := by
    rw [Parse.function]
    exact .failure
  block _ _ _ _ := by
    rw [Parse.block]
    exact .failure
  statement _ _ _ _ := by
    rw [Parse.statement]
    exact .failure
  condition _ _ _ _ := by
    rw [Parse.condition]
    exact .failure
  loop _ _ _ _ := by
    rw [Parse.loop]
    exact .failure
  functionStmt _ _ _ _ := by
    rw [Parse.functionStmt]
    exact .failure
  path _ _ _ _ := by
    rw [Parse.path]
    exact .failure
  declaration _ _ _ _ := by
    rw [Parse.declaration]
    exact .failure
  plain _ _ _ _ := by
    rw [Parse.plain]
    exact .failure
  targets _ _ _ _ := by
    rw [Parse.targets]
    exact .failure

theorem succ (ih : Below tail tail' fuel) : Below tail tail' (fuel + 1) where
  closing := ih.closing
  closing' := ih.closing'
  expr _ m _ _ enough := by
    apply Swaps.of_succ m (by decide) _ enough
    exact fun _ => ih.expr_succ
  operators _ m _ _ e enough := by
    apply Swaps.of_succ m (by decide) _ enough
    exact fun _ => ih.operators_succ e
  simple _ m _ enough := by
    apply Swaps.of_succ m (by decide) _ enough
    exact fun _ => ih.simple_succ
  suffixed _ m _ enough := by
    apply Swaps.of_succ m (by decide) _ enough
    exact fun _ => ih.suffixed_succ
  suffixes _ m _ e enough := by
    apply Swaps.of_succ m (by decide) _ enough
    exact fun _ => ih.suffixes_succ e
  args _ m _ enough := by
    apply Swaps.of_succ m (by decide) _ enough
    exact fun _ => ih.args_succ
  exprs _ m _ enough := by
    apply Swaps.of_succ m (by decide) _ enough
    exact fun _ => ih.exprs_succ
  constructor _ m _ enough := by
    apply Swaps.of_succ m (by decide) _ enough
    exact fun _ => ih.constructor_succ
  fields _ m _ enough := by
    apply Swaps.of_succ m (by decide) _ enough
    exact fun _ => ih.fields_succ
  field _ m _ enough := by
    apply Swaps.of_succ m (by decide) _ enough
    exact fun _ => ih.field_succ
  function _ m _ first enough := by
    apply Swaps.of_succ m (by decide) _ enough
    exact fun _ => ih.function_succ first
  block _ m _ enough := by
    apply Swaps.of_succ m (by decide) _ enough
    exact fun _ => ih.block_succ
  statement _ m _ enough := by
    apply Swaps.of_succ m (by decide) _ enough
    exact fun _ => ih.statement_succ
  condition _ m _ enough := by
    apply Swaps.of_succ m (by decide) _ enough
    exact fun _ => ih.condition_succ
  loop _ m _ enough := by
    apply Swaps.of_succ m (by decide) _ enough
    exact fun _ => ih.loop_succ
  functionStmt _ m _ enough := by
    apply Swaps.of_succ m (by decide) _ enough
    exact fun _ => ih.functionStmt_succ
  path _ m e enough := by
    apply Swaps.of_succ m (by decide) _ enough
    exact fun _ => ih.path_succ e
  declaration _ m _ enough := by
    apply Swaps.of_succ m (by decide) _ enough
    exact fun _ => ih.declaration_succ
  plain _ m _ enough := by
    apply Swaps.of_succ m (by decide) _ enough
    exact fun _ => ih.plain_succ
  targets _ m _ enough := by
    apply Swaps.of_succ m (by decide) _ enough
    exact fun _ => ih.targets_succ

end Below

theorem below (closing : Closing tail) (closing' : Closing tail') (fuel : Nat) :
    Below tail tail' fuel := by
  induction fuel with
  | zero => exact .zero closing closing'
  | succ fuel ih => exact ih.succ

end Readers

end CallGuard.Lua.Parse
