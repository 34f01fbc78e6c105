import CallGuard.Cel.Eval

set_option autoImplicit false

namespace CallGuard.Cel

def Raises {α : Type} (S : Stop → Prop) (r : Result α) : Prop := ∀ s, r = .error s → S s

theorem raises_ok {α : Type} {S : Stop → Prop} (a : α) : Raises S (.ok a : Result α) := by
  rintro s ⟨⟩

theorem raises_error {α : Type} {S : Stop → Prop} {s : Stop} :
    Raises S (.error s : Result α) ↔ S s := by
  simp [Raises]

theorem Raises.mono {α : Type} {S T : Stop → Prop} {r : Result α} (raises : Raises S r)
    (weaker : ∀ s, S s → T s) : Raises T r := fun s error => weaker s (raises s error)

theorem Raises.bind_of_ok {α β : Type} {S : Stop → Prop} {r : Result α} {f : α → Result β}
    (first : Raises S r) (later : ∀ a, r = .ok a → Raises S (f a)) : Raises S (r >>= f) := by
  cases r with
  | ok a => exact later a rfl
  | error s => exact fun _ error => first _ (by simpa [Bind.bind, Except.bind] using error)

theorem Raises.bind {α β : Type} {S : Stop → Prop} {r : Result α} {f : α → Result β}
    (first : Raises S r) (later : ∀ a, Raises S (f a)) : Raises S (r >>= f) :=
  first.bind_of_ok fun a _ => later a

@[simp]
def Fault.isReference : Fault → Bool
  | .unbound _ => true
  | .undeclared _ => true
  | _ => false

def Stop.IsPlain : Stop → Prop
  | .fault f => f.isReference = false
  | .crash => False

abbrev Plain {α : Type} (r : Result α) : Prop := Raises Stop.IsPlain r

@[simp] theorem plain_ok {α : Type} (a : α) : Plain (.ok a : Result α) := raises_ok a

@[simp] theorem plain_fail {α : Type} (f : Fault) :
    Plain (fail f : Result α) ↔ f.isReference = false := raises_error

theorem Plain.ne_crash {α : Type} {r : Result α} (plain : Plain r) : r ≠ .error .crash :=
  plain .crash

structure Allows (S : Stop → Prop) : Prop where
  plain (s : Stop) : s.IsPlain → S s
  crash : S .crash

theorem bind_crash {α β : Type} {r : Result α} {f : α → Result β} :
    (r >>= f) = .error .crash ↔ r = .error .crash ∨ ∃ a, r = .ok a ∧ f a = .error .crash := by
  cases r with
  | ok a => simp [bind, Except.bind]
  | error s => simp [bind, Except.bind]

theorem bind_plain_crash {α β : Type} {r : Result α} {f : α → Result β}
    (plain : ∀ a, Plain (f a)) : (r >>= f) = .error .crash ↔ r = .error .crash := by
  rw [bind_crash]
  exact ⟨fun h => h.elim id fun ⟨a, _, crash⟩ => absurd crash (plain a).ne_crash, .inl⟩

theorem checkedInt_plain (op : String) (a b result : Int) :
    Plain (checkedInt op a b result) := by
  unfold checkedInt
  split <;> simp

theorem checkedUint_plain (op : String) (a b : Nat) (result : Int) :
    Plain (checkedUint op a b result) := by
  unfold checkedUint
  split <;> simp

theorem orOverflow_plain {α : Type} (op : String) (a b : Value) (make : α → Value)
    (o : Option α) : Plain (orOverflow op a b make o) := by
  cases o <;> simp [orOverflow]

theorem add_plain (a b : Value) : Plain (add a b) := by
  unfold add
  split <;> simp [checkedInt_plain, checkedUint_plain, orOverflow_plain]

theorem sub_plain (a b : Value) : Plain (sub a b) := by
  unfold sub
  split <;> simp [checkedInt_plain, checkedUint_plain, orOverflow_plain]

theorem mul_plain (a b : Value) : Plain (mul a b) := by
  unfold mul
  split <;> simp [checkedInt_plain, checkedUint_plain]

theorem div_plain (a b : Value) : Plain (div a b) := by
  unfold div
  split <;> (try split) <;> simp [checkedInt_plain]

theorem rem_plain (a b : Value) : Plain (rem a b) := by
  unfold rem
  split <;> (try split) <;> (try split) <;> simp

theorem compareWith_plain (test : Ordering → Bool) (a b : Value) :
    Plain (compareWith test a b) := by
  unfold compareWith
  split <;> simp

theorem member_plain (a b : Value) : Plain (member a b) := by
  unfold member
  split <;> (try split) <;> simp

theorem orNull_plain (o : Option Value) : Plain (orNull o) := by
  cases o <;> simp [orNull]

theorem index_plain (a b : Value) : Plain (index a b) := by
  unfold index
  split <;> simp [orNull_plain]

theorem BinaryOp.apply_plain (op : BinaryOp) (a b : Value) : Plain (op.apply a b) := by
  cases op <;> simp [BinaryOp.apply, add_plain, sub_plain, mul_plain, div_plain, rem_plain,
    compareWith_plain, member_plain, index_plain]

theorem UnaryOp.apply_plain (op : UnaryOp) (a : Value) : Plain (op.apply a) := by
  cases op with
  | not => simp [UnaryOp.apply]
  | negate =>
    simp only [UnaryOp.apply, Cel.negate.eq_def]
    split <;> simp
  | notStrictlyFalse =>
    unfold UnaryOp.apply
    split <;> simp_all

theorem selectField_plain (v : Value) (field : String) : Plain (selectField v field) := by
  unfold selectField
  simp only
  split <;> simp

namespace Builtin

inductive Reading
  -- The target, or else the first argument.
  | this
  -- The target or the first argument, and then the argument after it.
  | both
  -- The first argument, also when there is a target.
  | first
  -- All arguments, up to one that has no value.
  | every

def reading : Builtin → Reading
  | contains | startsWith | endsWith | isMatch => .both
  | max | min => .every
  | bytes | duration | timestamp => .first
  | size | string | double | int | uint | getFullYear | getMonth | getDayOfYear | getDayOfMonth
  | getDate | getDayOfWeek | getHours | getMinutes | getSeconds | getMilliseconds => .this

def goesOn : Builtin → Value → Bool
  | contains, _ => true
  | _, .string _ => true
  | _, _ => false

def Demands (f : Builtin) (c : Call) (i : Nat) : Prop :=
  match f.reading with
  | .this => c.target = none ∧ i = 0
  | .both =>
    (c.target = none ∧ i = 0) ∨
      ((∃ v, c.this = .ok v ∧ f.goesOn v = true) ∧ i = if c.target.isSome then 0 else 1)
  | .first => i = 0
  | .every => ∀ j < i, ∃ v, c.args[j]? = some (.ok v)

def SearchesNothing (f : Builtin) (c : Call) : Prop :=
  f = contains ∧ (∃ s, c.this = .ok (.bytes s)) ∧ c.second = .ok (.bytes [])

def Breakdown (f : Builtin) (c : Call) : Prop :=
  -- A call breaks down when an argument that it asks for does, or when it searches for nothing.
  (∃ i, f.Demands c i ∧ c.args[i]? = some (.error .crash)) ∨ f.SearchesNothing c

theorem arg_crash (c : Call) (i : Nat) :
    c.arg i = .error .crash ↔ c.args[i]? = some (.error .crash) := by
  unfold Call.arg
  cases c.args[i]? <;> simp [fail]

theorem this_crash (c : Call) :
    c.this = .error .crash ↔ c.target = none ∧ c.args[0]? = some (.error .crash) := by
  rcases c with ⟨_ | v, _ | ⟨r, rest⟩⟩ <;> simp [Call.this, fail]
  rcases r with (_ | _) | _ <;> simp

theorem mapM_crash (rs : List (Result Value)) :
    rs.mapM id = .error .crash ↔
      ∃ i : Nat, (∀ j < i, ∃ v, rs[j]? = some (.ok v)) ∧ rs[i]? = some (.error .crash) := by
  induction rs with
  | nil => simp [pure, Except.pure]
  | cons r rest ih =>
    rw [List.mapM_cons, bind_crash]
    constructor
    · rintro (crash | ⟨v, value, crash⟩)
      · exact ⟨0, by simp, by simpa using crash⟩
      · have inner : rest.mapM id = .error .crash := by
          simpa [bind_crash, pure, Except.pure] using crash
        obtain ⟨i, before, here⟩ := ih.1 inner
        refine ⟨i + 1, fun j less => ?_, by simpa using here⟩
        cases j with
        | zero => exact ⟨v, by simpa using value⟩
        | succ j => simpa using before j (by omega)
    · rintro ⟨i, before, here⟩
      cases i with
      | zero => exact .inl (by simpa using here)
      | succ i =>
        obtain ⟨v, value⟩ := before 0 (by omega)
        have inner := ih.2 ⟨i, fun j less => by simpa using before (j + 1) (by omega),
          by simpa using here⟩
        exact .inr ⟨v, by simpa using value, by simp [inner, Functor.map, Except.map]⟩

theorem containsIn_crash (v x : Value) :
    containsIn v x = .error .crash ↔ (∃ s, v = .bytes s) ∧ x = .bytes [] := by
  unfold containsIn
  split
  · simp
  · split <;> simp [fail]
  · simp
  · rename_i s t
    cases t <;> simp
  · rename_i other
    simp only [reduceCtorEq, false_iff, not_and]
    rintro ⟨s, rfl⟩ rfl
    exact other s [] rfl rfl

theorem second_crash (c : Call) :
    c.second = .error .crash ↔
      c.args[if c.target.isSome then 0 else 1]? = some (.error .crash) :=
  arg_crash c _

theorem extreme_plain (keep : Ordering → Bool) (best : Value) (vs : List Value) :
    Plain (extreme keep best vs) := by
  induction vs generalizing best with
  | nil => simp [extreme]
  | cons v rest ih =>
    unfold extreme
    split
    · simp
    · exact ih _

theorem extremeOf_plain (keep : Ordering → Bool) (vs : List Value) :
    Plain (extremeOf keep vs) := by
  unfold extremeOf
  simp only
  split
  · simp
  · exact extreme_plain _ _ _

theorem sizeOf_plain (v : Value) : Plain (sizeOf v) := by
  unfold sizeOf
  split <;> simp

theorem toText_plain (v : Value) : Plain (toText v) := by
  unfold toText
  split <;> simp [cannotConvert]

theorem toDouble_plain (v : Value) : Plain (toDouble v) := by
  unfold toDouble
  split <;> (try split) <;> simp [cannotConvert, parseError]

theorem toInt_plain (v : Value) : Plain (toInt v) := by
  unfold toInt
  split <;> (try split) <;> simp [cannotConvert, parseError]

theorem toUint_plain (v : Value) : Plain (toUint v) := by
  unfold toUint
  split <;> (try split) <;> simp [cannotConvert, parseError]

theorem matchesPattern_plain [Regex.Engine] (text pattern : String) :
    Plain (matchesPattern text pattern) := by
  unfold matchesPattern
  split <;> simp

theorem toDuration_plain (s : String) : Plain (toDuration s) := by
  unfold toDuration
  split <;> simp

theorem toTimestamp_plain (s : String) : Plain (toTimestamp s) := by
  unfold toTimestamp
  split <;> simp

theorem asString_plain (v : Value) : Plain (asString v) := by
  cases v <;> simp [asString]

theorem asTimestamp_plain (v : Value) : Plain (asTimestamp v) := by
  cases v <;> simp [asTimestamp]

theorem timePart_crash (c : Call) (part : Time.Timestamp → Int) :
    timePart c part = .error .crash ↔ c.this = .error .crash :=
  bind_plain_crash fun v => (asTimestamp_plain v).bind fun _ => plain_ok _

theorem twoTexts_crash (c : Call) {k : String → String → Result Value}
    (plain : ∀ s t, Plain (k s t)) :
    (do
      let s ← asString (← c.this)
      let t ← asString (← c.second)
      k s t) = .error .crash ↔
      c.this = .error .crash ∨ (∃ s, c.this = .ok (.string s)) ∧ c.second = .error .crash := by
  -- Two texts are asked for one after the other, and nothing breaks down after that.
  have later (v : Value) : (do
      let s ← asString v
      let t ← asString (← c.second)
      k s t) = .error .crash ↔ (∃ s, v = .string s) ∧ c.second = .error .crash := by
    cases v with
    | string s =>
      simp only [asString, bind, Except.bind, Value.string.injEq, exists_eq', true_and]
      exact bind_plain_crash fun w => (asString_plain w).bind fun t => plain s t
    | _ => simp [asString, fail, bind, Except.bind]
  rw [bind_crash]
  simp only [later]
  constructor
  · rintro (crash | ⟨v, this, ⟨s, rfl⟩, crash⟩)
    · exact .inl crash
    · exact .inr ⟨⟨s, this⟩, crash⟩
  · rintro (crash | ⟨⟨s, this⟩, crash⟩)
    · exact .inl crash
    · exact .inr ⟨_, this, ⟨s, rfl⟩, crash⟩

theorem breakdown_this {f : Builtin} (reads : f.reading = .this) (c : Call) :
    f.Breakdown c ↔ c.this = .error .crash := by
  have other : f ≠ contains := by
    rintro rfl
    cases reads
  simp only [Breakdown, Demands, reads, SearchesNothing, other, false_and, or_false, this_crash]
  constructor
  · rintro ⟨i, ⟨none, rfl⟩, crash⟩
    exact ⟨none, crash⟩
  · rintro ⟨none, crash⟩
    exact ⟨0, ⟨none, rfl⟩, crash⟩

theorem breakdown_first {f : Builtin} (reads : f.reading = .first) (c : Call) :
    f.Breakdown c ↔ c.arg 0 = .error .crash := by
  have other : f ≠ contains := by
    rintro rfl
    cases reads
  simp [Breakdown, Demands, reads, SearchesNothing, other, arg_crash]

theorem breakdown_every {f : Builtin} (reads : f.reading = .every) (c : Call) :
    f.Breakdown c ↔ c.values = .error .crash := by
  have other : f ≠ contains := by
    rintro rfl
    cases reads
  simp [Breakdown, Demands, reads, SearchesNothing, other, Call.values, mapM_crash]

theorem breakdown_both {f : Builtin} (reads : f.reading = .both) (c : Call) :
    f.Breakdown c ↔
      (c.this = .error .crash ∨
        (∃ v, c.this = .ok v ∧ f.goesOn v = true) ∧ c.second = .error .crash) ∨
      f.SearchesNothing c := by
  simp only [Breakdown, Demands, reads, this_crash, second_crash]
  refine or_congr ⟨?_, ?_⟩ Iff.rfl
  · rintro ⟨i, ⟨none, rfl⟩ | ⟨goes, rfl⟩, crash⟩
    · exact .inl ⟨none, crash⟩
    · exact .inr ⟨goes, crash⟩
  · rintro (⟨none, crash⟩ | ⟨goes, crash⟩)
    · exact ⟨0, .inl ⟨none, rfl⟩, crash⟩
    · exact ⟨_, .inr ⟨goes, rfl⟩, crash⟩

theorem breakdown_texts {f : Builtin} (reads : f.reading = .both) (other : f ≠ contains)
    (c : Call) :
    f.Breakdown c ↔
      c.this = .error .crash ∨ (∃ s, c.this = .ok (.string s)) ∧ c.second = .error .crash := by
  have texts (v : Value) : f.goesOn v = true ↔ ∃ s, v = .string s := by
    cases f <;> cases v <;> simp_all [goesOn, reading]
  simp only [breakdown_both reads, SearchesNothing, other, false_and, or_false, texts]
  refine or_congr Iff.rfl (and_congr ⟨?_, ?_⟩ Iff.rfl)
  · rintro ⟨v, this, s, rfl⟩
    exact ⟨s, this⟩
  · rintro ⟨s, this⟩
    exact ⟨_, this, s, rfl⟩

theorem contains_crash [Regex.Engine] (c : Call) :
    contains.apply c = .error .crash ↔ contains.Breakdown c := by
  rw [breakdown_both rfl]
  simp only [apply, bind_crash, containsIn_crash, goesOn, SearchesNothing, and_true, true_and]
  constructor
  · rintro (crash | ⟨v, this, crash | ⟨x, second, ⟨s, rfl⟩, rfl⟩⟩)
    · exact .inl (.inl crash)
    · exact .inl (.inr ⟨⟨v, this⟩, crash⟩)
    · exact .inr ⟨⟨s, this⟩, second⟩
  · rintro ((crash | ⟨⟨v, this⟩, crash⟩) | ⟨⟨s, this⟩, second⟩)
    · exact .inl crash
    · exact .inr ⟨v, this, .inl crash⟩
    · exact .inr ⟨_, this, .inr ⟨_, second, ⟨s, rfl⟩, rfl⟩⟩

theorem ofText_crash (c : Call) {k : String → Result Value} (plain : ∀ s, Plain (k s)) :
    (do k (← asString (← c.arg 0))) = .error .crash ↔ c.arg 0 = .error .crash := by
  exact bind_plain_crash fun v => (asString_plain v).bind plain

theorem apply_crash [Regex.Engine] (f : Builtin) (c : Call) :
    f.apply c = .error .crash ↔ f.Breakdown c := by
  cases f with
  | contains => exact contains_crash c
  | size => exact (bind_plain_crash sizeOf_plain).trans (breakdown_this rfl c).symm
  | max => exact (bind_plain_crash (extremeOf_plain _)).trans (breakdown_every rfl c).symm
  | min => exact (bind_plain_crash (extremeOf_plain _)).trans (breakdown_every rfl c).symm
  | startsWith =>
    exact (twoTexts_crash c fun _ _ => plain_ok _).trans (breakdown_texts rfl (by simp) c).symm
  | endsWith =>
    exact (twoTexts_crash c fun _ _ => plain_ok _).trans (breakdown_texts rfl (by simp) c).symm
  | string => exact (bind_plain_crash toText_plain).trans (breakdown_this rfl c).symm
  | bytes => exact (ofText_crash c fun _ => plain_ok _).trans (breakdown_first rfl c).symm
  | double => exact (bind_plain_crash toDouble_plain).trans (breakdown_this rfl c).symm
  | int => exact (bind_plain_crash toInt_plain).trans (breakdown_this rfl c).symm
  | uint => exact (bind_plain_crash toUint_plain).trans (breakdown_this rfl c).symm
  | isMatch =>
    exact (twoTexts_crash c matchesPattern_plain).trans (breakdown_texts rfl (by simp) c).symm
  | duration => exact (ofText_crash c toDuration_plain).trans (breakdown_first rfl c).symm
  | timestamp => exact (ofText_crash c toTimestamp_plain).trans (breakdown_first rfl c).symm
  | _ => exact (timePart_crash c _).trans (breakdown_this rfl c).symm

section

variable {S : Stop → Prop} (allowed : Allows S) {c : Call}
  (args : ∀ r ∈ c.args, Raises S r)

include allowed

theorem this_raises : Raises S c.this := by
  unfold Call.this
  split
  · exact raises_ok _
  · exact raises_ok _
  · exact raises_error.2 allowed.crash
  · exact raises_error.2 (allowed.plain _ rfl)

theorem containsIn_raises (v x : Value) : Raises S (containsIn v x) := by
  unfold containsIn
  split
  · exact raises_ok _
  · split
    · exact raises_ok _
    · exact raises_error.2 (allowed.plain _ rfl)
  · exact raises_ok _
  · split
    · exact raises_error.2 allowed.crash
    · exact raises_ok _
  · exact raises_ok _

theorem thisThen_raises {f : Value → Result Value} (later : ∀ v, Plain (f v)) :
    Raises S (c.this >>= f) :=
  (this_raises allowed).bind fun v => (later v).mono allowed.plain

include args

theorem arg_raises (i : Nat) : Raises S (c.arg i) := by
  unfold Call.arg
  split
  · exact args _ (List.mem_of_getElem? ‹_›)
  · exact raises_error.2 (allowed.plain _ rfl)

omit allowed in
theorem values_raises : Raises S c.values := by
  have each (rs : List (Result Value)) (within : ∀ r ∈ rs, Raises S r) : Raises S (rs.mapM id) := by
    induction rs with
    | nil => exact raises_ok _
    | cons r rest ih =>
      rw [List.mapM_cons]
      refine (within r (by simp)).bind fun v => ?_
      exact (ih fun r member => within r (by simp [member])).bind fun vs => raises_ok _
  exact each c.args args

theorem twoTexts_raises {f : String → String → Result Value} (later : ∀ s t, Plain (f s t)) :
    Raises S (do
      let s ← asString (← c.this)
      let t ← asString (← c.second)
      f s t) := by
  refine (this_raises allowed).bind fun v => ((asString_plain v).mono allowed.plain).bind fun s => ?_
  refine (arg_raises allowed args _).bind fun w => ((asString_plain w).mono allowed.plain).bind fun t => ?_
  exact (later s t).mono allowed.plain

theorem ofText_raises {f : String → Result Value} (later : ∀ s, Plain (f s)) :
    Raises S (do f (← asString (← c.arg 0))) := by
  refine (arg_raises allowed args 0).bind fun v => ((asString_plain v).mono allowed.plain).bind fun s => ?_
  exact (later s).mono allowed.plain

theorem apply_raises [Regex.Engine] (f : Builtin) : Raises S (f.apply c) := by
  cases f with
  | contains =>
    refine (this_raises allowed).bind fun v => (arg_raises allowed args _).bind fun x => ?_
    exact containsIn_raises allowed v x
  | max | min =>
    exact (values_raises args).bind fun vs => (extremeOf_plain _ vs).mono allowed.plain
  | startsWith | endsWith => exact twoTexts_raises allowed args fun _ _ => plain_ok _
  | isMatch => exact twoTexts_raises allowed args matchesPattern_plain
  | size => exact thisThen_raises allowed sizeOf_plain
  | string => exact thisThen_raises allowed toText_plain
  | double => exact thisThen_raises allowed toDouble_plain
  | int => exact thisThen_raises allowed toInt_plain
  | uint => exact thisThen_raises allowed toUint_plain
  | bytes => exact ofText_raises allowed args fun _ => plain_ok _
  | duration => exact ofText_raises allowed args toDuration_plain
  | timestamp => exact ofText_raises allowed args toTimestamp_plain
  | _ =>
    exact thisThen_raises allowed fun v => (asTimestamp_plain v).bind fun t => plain_ok _

end

end Builtin

end CallGuard.Cel
