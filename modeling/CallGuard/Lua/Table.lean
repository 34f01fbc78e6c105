import CallGuard.Lua.Value

set_option autoImplicit false

namespace CallGuard.Lua

structure Handlers where
  index : Option Native
  -- Is told of a key that would become present.
  newIndex : Option Native
  length : Option Native
  pairs : Option Native

def Handlers.none : Handlers := ⟨.none, .none, .none, .none⟩

structure Table where
  -- The values of the keys from one on, nil where there is none.
  items : Array Value
  -- The other keys. A key stays when its value becomes nil, until the sizes change.
  nodes : Array (Key × Value)
  capacity : Nat
  handlers : Handlers

namespace Table

def empty : Table := ⟨#[], #[], 0, .none⟩

instance : Inhabited Table := ⟨empty⟩

def capacityFor (n : Nat) : Nat := if n = 0 then 0 else 1 <<< Nat.log2 (2 * n - 1)

def ofSizes (items others : Nat) : Table :=
  ⟨Array.replicate items .nil, #[], capacityFor others, .none⟩

def slot? (t : Table) : Key → Option Nat
  | .int i =>
    let n := i.toInt
    if 1 ≤ n ∧ n ≤ t.items.size then some (n.toNat - 1) else none
  | _ => none

def node? (t : Table) (k : Key) : Option Nat := t.nodes.findIdx? fun n => n.1 == k

def get (t : Table) (k : Key) : Value :=
  match t.slot? k with
  | some i => t.items.getD i .nil
  | none =>
    match t.nodes.find? fun n => n.1 == k with
    | some n => n.2
    | none => .nil

def getInt (t : Table) (i : Int64) : Value := t.get (.int i)

def itemKeys (t : Table) : List Nat :=
  -- The keys that could be items: the integers above zero that have a value.
  let own := (List.range t.items.size).filter fun i => !(t.items.getD i .nil).isNil
  let others := t.nodes.toList.filterMap fun (k, v) =>
    match k with
    | .int i => if 0 < i.toInt && !v.isNil then some i.toInt.toNat else none
    | _ => none
  own.map (· + 1) ++ others

-- The greatest power of two such that more than half of the numbers up to it are in the list.
def bestSize (keys : List Nat) : Nat → Nat → Nat → Nat
  | 0, _, best => best
  | fuel + 1, size, best =>
    if 2 * keys.length ≤ size then best
    else
      let count := (keys.filter fun k => k ≤ size).length
      bestSize keys fuel (2 * size) (if size < 2 * count then size else best)

def resize (t : Table) (size others : Nat) : Table :=
  let kept := t.nodes.toList.filter fun n => !n.2.isNil
  let wide : Table := { t with
    items := (t.items.extract 0 size) ++ Array.replicate (size - t.items.size) .nil
    nodes := #[]
    capacity := capacityFor others }
  let leftover := (List.range (t.items.size - size)).filterMap fun i =>
    let v := t.items.getD (size + i) .nil
    if v.isNil then none else some (Key.int (Int64.ofNat (size + i + 1)), v)
  (leftover ++ kept).foldl (fun t (k, v) =>
    match t.slot? k with
    | some i => { t with items := t.items.setIfInBounds i v }
    | none => { t with nodes := t.nodes.push (k, v) }) wide

def liveCount (t : Table) : Nat :=
  (t.items.toList.filter fun v => !v.isNil).length +
    (t.nodes.toList.filter fun n => !n.2.isNil).length

def rehash (t : Table) (k : Key) : Table :=
  let keys := t.itemKeys ++ match k with
    | .int i => if 0 < i.toInt then [i.toInt.toNat] else []
    | _ => []
  let size := bestSize keys 64 1 0
  let inside := (keys.filter fun k => k ≤ size).length
  t.resize size (t.liveCount + 1 - inside)

def add (t : Table) (k : Key) (v : Value) : Table :=
  if v.isNil then t
  else if t.nodes.size < t.capacity then { t with nodes := t.nodes.push (k, v) }
  else
    let t := t.rehash k
    match t.slot? k with
    | some i => { t with items := t.items.setIfInBounds i v }
    | none => { t with nodes := t.nodes.push (k, v) }

def set (t : Table) (k : Key) (v : Value) : Table :=
  match t.slot? k with
  | some i => { t with items := t.items.setIfInBounds i v }
  | none =>
    match t.node? k with
    | some i => { t with nodes := t.nodes.setIfInBounds i (k, v) }
    | none => t.add k v

def setInt (t : Table) (i : Int64) (v : Value) : Table := t.set (.int i) v

def setText (t : Table) (name : String) (v : Value) : Table := t.set (.string (.ofText name)) v

def reserve (t : Table) (size : Nat) : Table :=
  if size ≤ t.items.size then t else t.resize size t.capacity

def searchItems (t : Table) : Nat → Nat → Nat → Nat
  -- A number with a value such that the next has none, between one that has a value, or zero, and
  -- one that has none.
  | 0, lo, _ => lo
  | fuel + 1, lo, hi =>
    if hi - lo ≤ 1 then lo
    else
      let middle := (lo + hi) / 2
      if (t.items.getD (middle - 1) .nil).isNil then t.searchItems fuel lo middle
      else t.searchItems fuel middle hi

def hasInt (t : Table) (n : Nat) : Bool := !(t.getInt (Int64.ofNat n)).isNil

def searchKeys (t : Table) : Nat → Nat → Nat → Nat
  | 0, lo, _ => lo
  | fuel + 1, lo, hi =>
    if hi - lo ≤ 1 then lo
    else
      let middle := (lo + hi) / 2
      if t.hasInt middle then t.searchKeys fuel middle hi else t.searchKeys fuel lo middle

def searchBeyond (t : Table) : Nat → Nat → Nat
  | 0, n => n
  | fuel + 1, n =>
    let next := 2 * n
    if 0x4000000000000000 < n then n
    else if t.hasInt next then t.searchBeyond fuel next
    else t.searchKeys 64 n next

def length (t : Table) : Nat :=
  let size := t.items.size
  if 0 < size ∧ (t.items.getD (size - 1) .nil).isNil then
    if 2 ≤ size ∧ !(t.items.getD (size - 2) .nil).isNil then size - 1
    else t.searchItems 64 0 size
  else if t.hasInt (size + 1) then t.searchBeyond 64 (max size 1) else size

def entryFrom (t : Table) : Nat → Nat → Option (Key × Value)
  -- The first entry with a value at or after a place, where the items come before the nodes.
  | 0, _ => none
  | fuel + 1, place =>
    if place < t.items.size then
      let v := t.items.getD place .nil
      if v.isNil then t.entryFrom fuel (place + 1)
      else some (.int (Int64.ofNat (place + 1)), v)
    else
      match t.nodes[place - t.items.size]? with
      | none => none
      | some (k, v) => if v.isNil then t.entryFrom fuel (place + 1) else some (k, v)

def placeOf? (t : Table) (k : Key) : Option Nat :=
  match t.slot? k with
  | some i => some i
  | none => (t.node? k).map (t.items.size + ·)

def next? (t : Table) (k : Option Key) : Option (Option (Key × Value)) :=
  -- The entry after a key, or the first. An unknown key has none after it.
  let fuel := t.items.size + t.nodes.size + 1
  match k with
  | none => some (t.entryFrom fuel 0)
  | some k => (t.placeOf? k).map fun place => t.entryFrom fuel (place + 1)

end Table

end CallGuard.Lua
