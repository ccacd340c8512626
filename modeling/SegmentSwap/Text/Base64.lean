/-!
# Base 64

Bytes written in an alphabet of 64 characters, four for three bytes. Other characters are passed
over. The text ends with its last complete group of four, in which equals signs may stand for the
last one or two characters; what follows such a group is passed over as well.
-/

namespace SegmentSwap.Text.Base64

/-- The alphabet. -/
def alphabet : List Char :=
  "ABCDEFGHIJKLMNOPQRSTUVWXYZabcdefghijklmnopqrstuvwxyz0123456789+/".toList

/-- The number of a character in the alphabet. -/
def value? (c : Char) : Option Nat := alphabet.idxOf? c

/-- The bytes from the middle of a text on. `group` holds the numbers of the characters of the group
that has begun, and `pads` counts the equals signs after the last of them. -/
def decodeFrom (group : List Nat) (pads : Nat) : List Char → Option (List UInt8)
  | [] => if group.isEmpty then some [] else none
  | c :: rest =>
    if c = '=' then
      if 2 ≤ group.length then
        if 4 ≤ group.length + pads + 1 then some [] else decodeFrom group (pads + 1) rest
      else decodeFrom group pads rest
    else match value? c with
      | none => decodeFrom group pads rest
      | some v => match group with
        | [] => decodeFrom [v] 0 rest
        | [a] => (decodeFrom [a, v] 0 rest).map (UInt8.ofNat (4 * a + v / 16) :: ·)
        | [a, b] => (decodeFrom [a, b, v] 0 rest).map (UInt8.ofNat (16 * (b % 16) + v / 4) :: ·)
        | _ :: _ :: d :: _ => (decodeFrom [] 0 rest).map (UInt8.ofNat (64 * (d % 4) + v) :: ·)

/-- The bytes that a text stands for, unless its last group is incomplete. -/
def decode (cs : List Char) : Option (List UInt8) := decodeFrom [] 0 cs

end SegmentSwap.Text.Base64
