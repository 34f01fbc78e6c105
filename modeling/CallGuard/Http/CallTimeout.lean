import CallGuard.Context
import CallGuard.Error
import CallGuard.Text.Blank

set_option autoImplicit false

namespace CallGuard.Timeout

def unit? : Char → Option Nat
  | 'H' => some (3_600_000_000_000)
  | 'M' => some (60_000_000_000)
  | 'S' => some 1_000_000_000
  | 'm' => some 1_000_000
  | 'u' => some 1000
  | 'n' => some 1
  | _ => none

def ofParts (digits : List Char) (unit : Char) : Option Timeout :=
  match Text.natural? 0x10000000000000000 digits, unit? unit with
  | some n, some nanoseconds => some ⟨n * nanoseconds⟩
  | _, _ => none

-- Breaks down when the last byte is only a part of a character.
def ofText (s : String) : Outcome (Option Timeout) :=
  let text := Text.trim s
  if text.utf8ByteSize < 2 ∨ 9 < text.utf8ByteSize then .ok none
  else
    match text.toList.reverse with
    | [] => .ok none
    | unit :: digits =>
      if 1 < unit.utf8Size then .error .crash else .ok (ofParts digits.reverse unit)

end CallGuard.Timeout
