set_option autoImplicit false

namespace CallGuard.Text

def isBlank (c : Char) : Bool :=
  -- The Unicode property White_Space.
  let n := c.toNat
  (9 ≤ n && n ≤ 13) || n == 0x20 || n == 0x85 || n == 0xa0 || n == 0x1680 ||
    (0x2000 ≤ n && n ≤ 0x200a) || n == 0x2028 || n == 0x2029 || n == 0x202f || n == 0x205f ||
    n == 0x3000

def stripBy {α : Type} (p : α → Bool) (xs : List α) : List α :=
  ((xs.dropWhile p).reverse.dropWhile p).reverse

def trimList (cs : List Char) : List Char := stripBy isBlank cs

def trim (s : String) : String := String.ofList (trimList s.toList)

def pieces {α : Type} [DecidableEq α] (sep : α) : List α → List (List α)
  -- The pieces between the occurrences of `sep`: one more than there are occurrences.
  | [] => [[]]
  | c :: cs =>
    if c = sep then [] :: pieces sep cs
    else match pieces sep cs with
      | [] => [[c]]
      | p :: ps => (c :: p) :: ps

def splitOnChar (sep : Char) (s : String) : List String :=
  (pieces sep s.toList).map String.ofList

def dropPrefix? {α : Type} [DecidableEq α] : List α → List α → Option (List α)
  | [], xs => some xs
  | _ :: _, [] => none
  | p :: ps, x :: xs => if p = x then dropPrefix? ps xs else none

theorem dropPrefix?_eq_some_iff {α : Type} [DecidableEq α] {start xs rest : List α} :
    dropPrefix? start xs = some rest ↔ xs = start ++ rest := by
  induction start, xs using dropPrefix?.induct with
  | case1 => simp [dropPrefix?]
  | case2 => simp [dropPrefix?]
  | case3 p ps xs ih => simp [dropPrefix?, ih]
  | case4 p ps x xs differs => simp [dropPrefix?, differs, Ne.symm differs]

def startsWith {α : Type} [DecidableEq α] (start xs : List α) : Bool :=
  (dropPrefix? start xs).isSome

theorem startsWith_iff {α : Type} [DecidableEq α] (start xs : List α) :
    startsWith start xs = true ↔ start <+: xs := by
  rw [startsWith, Option.isSome_iff_exists]
  exact exists_congr fun rest => dropPrefix?_eq_some_iff.trans eq_comm

def occursIn {α : Type} [DecidableEq α] (needle : List α) : List α → Bool
  | [] => needle.isEmpty
  | x :: xs => startsWith needle (x :: xs) || occursIn needle xs

def replaceFrom {α : Type} [DecidableEq α] (old new : List α) : Nat → List α → List α
  -- The number counts what is still to be passed over of an occurrence.
  | _, [] => []
  | passed + 1, _ :: xs => replaceFrom old new passed xs
  | 0, x :: xs =>
    if startsWith old (x :: xs) then new ++ replaceFrom old new (old.length - 1) xs
    else x :: replaceFrom old new 0 xs

def replaceAll {α : Type} [DecidableEq α] (old new xs : List α) : List α :=
  replaceFrom old new 0 xs

-- ASCII capitals become small letters; every other character stays.
def lowerAscii (s : String) : String := String.ofList (s.toList.map Char.toLower)

def digits? (cs : List Char) : Option Nat :=
  if cs.isEmpty || !cs.all Char.isDigit then none
  else some (cs.foldl (fun n c => 10 * n + (c.toNat - 48)) 0)

def natural? (bound : Nat) (cs : List Char) : Option Nat :=
  let cs := match cs with
    | '+' :: rest => rest
    | cs => cs
  match digits? cs with
  | some n => if n < bound then some n else none
  | none => none

end CallGuard.Text
