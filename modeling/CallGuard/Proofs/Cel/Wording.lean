import CallGuard.Proofs.Cel.Operations

set_option autoImplicit false

namespace CallGuard.Cel

def undeclaredReference (name : String) : Message := "Undeclared reference to '" ++ name ++ "'"

def Differs (text : String) : Prop :=
  ∃ k c, k < 3 ∧ text.toList[k]? = some c ∧ ['U', 'n', 'd'][k]? ≠ some c

theorem Differs.append {start : String} (differs : Differs start) (more : String) :
    Differs (start ++ more) := by
  obtain ⟨k, c, early, here, other⟩ := differs
  refine ⟨k, c, early, ?_, other⟩
  have within := (List.getElem?_eq_some_iff.1 here).1
  rw [String.toList_append, List.getElem?_append_left within, here]

theorem differs_of_first {text : String} (c : Char) (first : text.toList[0]? = some c)
    (other : c ≠ 'U') : Differs text :=
  ⟨0, c, by decide, first, by simpa [eq_comm] using other⟩

theorem not_differs_undeclared (name : String) : ¬ Differs (undeclaredReference name).text := by
  rintro ⟨k, c, early, here, other⟩
  match k with
  | 0 | 1 | 2 => simp_all [undeclaredReference, Message.exact]

theorem append_starts (a b : Message) : ∃ more, (Value.append a b).text = a.text ++ more := by
  unfold Value.append
  split
  · exact ⟨b.text, rfl⟩
  · exact ⟨"", by simp⟩

theorem foldl_starts (a : Message) (ms : List Message) :
    ∃ more, (ms.foldl Value.append a).text = a.text ++ more := by
  induction ms generalizing a with
  | nil => exact ⟨"", by simp⟩
  | cons m rest ih =>
    obtain ⟨first, starts⟩ := append_starts a m
    obtain ⟨more, goesOn⟩ := ih (Value.append a m)
    exact ⟨first ++ more, by rw [List.foldl_cons, goesOn, starts, String.append_assoc]⟩

theorem concat_differs {start : Message} (differs : Differs start.text) (ms : List Message) :
    Differs (Value.concat (start :: ms)).text := by
  obtain ⟨more, starts⟩ := foldl_starts (Value.append (.exact "") start) ms
  have own : (Value.append (.exact "") start).text = start.text := by
    simp [Value.append, Message.exact, Message.after]
  rw [Value.concat, List.foldl_cons, starts, own]
  exact differs.append more

theorem concat_empty (ms : List Message) : Value.concat (.exact "" :: ms) = Value.concat ms := by
  simp [Value.concat, Value.append, Message.exact, Message.after]

theorem exact_differs {text : String} (differs : Differs text) : Differs (Message.exact text).text :=
  differs

theorem after_differs {start : String} (differs : Differs start) (m : Message) :
    Differs (m.after start).text :=
  differs.append m.text

theorem debug_differs (v : Value) : Differs v.debug.text := by
  cases v with
  | null => exact exact_differs (differs_of_first 'N' rfl (by decide))
  | bool b => exact exact_differs (((differs_of_first 'B' rfl (by decide)).append _).append _)
  | int i => exact exact_differs (((differs_of_first 'I' rfl (by decide)).append _).append _)
  | uint n =>
    have start : Differs "UInt(" := ⟨1, 'I', by decide, rfl, by decide⟩
    exact exact_differs ((start.append _).append _)
  | double x => exact exact_differs (((differs_of_first 'F' rfl (by decide)).append _).append _)
  | string s => exact exact_differs (((differs_of_first 'S' rfl (by decide)).append _).append _)
  | bytes bs => exact exact_differs (((differs_of_first 'B' rfl (by decide)).append _).append _)
  | list items => exact concat_differs (exact_differs (differs_of_first 'L' rfl (by decide))) _
  | map entries => exact (differs_of_first 'M' rfl (by decide)).append _
  | function name target =>
    have start : Differs "Function(" := differs_of_first 'F' rfl (by decide)
    exact concat_differs (exact_differs ((start.append _).append _)) _
  | duration d => exact exact_differs (((differs_of_first 'D' rfl (by decide)).append _).append _)
  | timestamp t => exact exact_differs (((differs_of_first 'T' rfl (by decide)).append _).append _)

theorem message_differs {f : Fault} (plain : f.isReference = false) :
    Differs f.message.text := by
  cases f with
  | undeclared | unbound => cases plain
  | noSuchKey name => exact exact_differs ((differs_of_first 'N' rfl (by decide)).append _)
  | notComparable a b =>
    rw [Fault.message, Fault.pair, concat_empty]
    exact concat_differs (debug_differs a) _
  | unsupportedBinary op a b =>
    have start : Differs "Unsupported binary operator '" := ⟨2, 's', by decide, rfl, by decide⟩
    rw [Fault.message, Fault.pair]
    exact concat_differs (exact_differs ((start.append _).append _)) _
  | overflow op a b =>
    have start : Differs "Overflow from binary operator '" := differs_of_first 'O' rfl (by decide)
    rw [Fault.message, Fault.pair]
    exact concat_differs (exact_differs ((start.append _).append _)) _
  | unsupportedUnary op a =>
    have start : Differs "Unsupported unary operator '" := ⟨2, 's', by decide, rfl, by decide⟩
    exact after_differs ((start.append _).append _) _
  | divisionByZero a => exact after_differs (differs_of_first 'D' rfl (by decide)) _
  | remainderByZero a => exact after_differs (differs_of_first 'R' rfl (by decide)) _
  | unsupportedKey v =>
    have start : Differs "Unable to use value '" := ⟨2, 'a', by decide, rfl, by decide⟩
    exact concat_differs (exact_differs start) _
  | listIndex v | mapIndex v => exact after_differs (differs_of_first 'C' rfl (by decide)) _
  | index v i =>
    rw [Fault.message, Fault.pair]
    exact concat_differs (exact_differs (differs_of_first 'C' rfl (by decide))) _
  | missingTarget => exact exact_differs (differs_of_first 'M' rfl (by decide))
  | argumentCount expected got =>
    have start : Differs "Invalid argument count: expected " := differs_of_first 'I' rfl (by decide)
    exact exact_differs (((start.append _).append _).append _)
  | unexpectedType got wanted =>
    have start : Differs "Unexpected type: got '" := ⟨2, 'e', by decide, rfl, by decide⟩
    exact concat_differs (exact_differs start) _
  | function name reason =>
    have start : Differs "Error executing function '" := differs_of_first 'E' rfl (by decide)
    exact after_differs ((start.append _).append _) _

theorem reference_of_message {f : Fault} {name : String}
    (told : f.message = undeclaredReference name) : f = .unbound name ∨ f = .undeclared name := by
  cases refers : f.isReference with
  | false => exact absurd (told ▸ message_differs refers) (not_differs_undeclared name)
  | true =>
    cases f with
    | undeclared own =>
      have same : own = name := by simpa [Fault.message, undeclaredReference, Message.exact] using told
      exact .inr (same ▸ rfl)
    | unbound own =>
      have same : own = name := by simpa [Fault.message, undeclaredReference, Message.exact] using told
      exact .inl (same ▸ rfl)
    | _ => cases refers

end CallGuard.Cel
