import SegmentSwap.Yaml.Value

/-!
# The order of the members of a set

A set of numbers has an order of its own, whatever the order in which its members were given. The
members are scattered over the slots of a table by their residue modulo the prime 2⁶¹ - 1, which is
the same for equal numbers, whole or real. A member goes to the slot that its residue names, or else
to the first free one on a path that starts there, and the members are listed slot by slot.

Members of other kinds have no slot of their own. A set that holds one of them lists its members in
the order in which they first occur.
-/

namespace SegmentSwap

namespace Yaml

namespace Members

/-- The prime that residues are taken by. -/
def modulus : Nat := Nat.pow 2 61 - 1

/-- The residue of a rational number whose denominator is a power of two. Since 2⁶¹ has the residue
one, dividing by a power of two is multiplying by another one. -/
def rationalResidue (r : Rat) : Int :=
  let halvings := r.den.log2 % 61
  let n : Int := (r.num.natAbs * Nat.pow 2 (61 - halvings) % modulus : Nat)
  if r.num < 0 then -n else n

/-- The residue of a number. Infinities have one by convention. -/
def residue (q : Quantity) : Int :=
  match q.value? with
  | some (.finite r) => rationalResidue r
  | some .top => 314159
  | some .bottom => -314159
  | none => 0

/-- The residue as a word of 64 bits, from which slots are computed. The word of minus one is kept
free. -/
def word (q : Quantity) : Nat :=
  let n := residue q
  ((if n = -1 then -2 else n) % (Nat.pow 2 64 : Nat)).toNat

/-- The number of slots for some members: eight, or the first power of two beyond twice their number
where there are five or more. -/
def slotCount (members : Nat) : Nat :=
  if members < 5 then 8 else Nat.pow 2 ((2 * members).log2 + 1)

/-- How many slots after the named one are looked at before the path jumps. -/
def runLength : Nat := 9

/-- The slots that are looked at from a slot on: a run of them, if it ends inside the table. -/
def run (size i : Nat) : List Nat :=
  if i + runLength < size then List.range' i (runLength + 1) else [i]

/-- The first free slot on the path from a slot on. The jumps of the path depend on what is left of
the word. -/
def freeSlot? {α : Type} (table : Array (Option α)) : (fuel : Nat) → (i left : Nat) → Option Nat
  | 0, _, _ => none
  | fuel + 1, i, left =>
    match (run table.size i).find? fun j => (table[j]?.join).isNone with
    | some j => some j
    | none =>
      let left := left / 32
      freeSlot? table fuel ((5 * i + 1 + left) % table.size) left

/-- Puts a member with a word into the table. -/
def place {α : Type} (table : Array (Option α)) (p : Nat × α) : Array (Option α) :=
  match freeSlot? table (table.size + 64) (p.1 % table.size) p.1 with
  | some j => table.set! j (some p.2)
  | none => table

/-- Members with their words, slot by slot. -/
def scattered {α : Type} (members : List (Nat × α)) : List α :=
  let table := members.foldl place (Array.replicate (slotCount members.length) none)
  table.toList.filterMap id

/-- The members of a set in the order in which they are listed. -/
def listed (members : List Value) : List Value :=
  match members.mapM fun v => v.quantity?.map fun q => (word q, v) with
  | some words => scattered words
  | none => members

end Members

end Yaml

end SegmentSwap
