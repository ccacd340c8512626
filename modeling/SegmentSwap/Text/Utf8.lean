import SegmentSwap.Text.Quoted

/-!
# UTF-8

Files hold bytes; texts are encoded as UTF-8. `Utf8.decode` stops at the first bytes that no text
encodes and tells where they stand and what is wrong with them: a byte that starts no character, a
character that a wrong byte interrupts, or a character cut off by the end. `Utf8.encode` is its
inverse.
-/

namespace SegmentSwap.Text.Utf8

/-- What is wrong with some bytes. -/
inductive Fault where
  /-- No character starts with this byte. -/
  | start
  /-- The character goes on with a byte that does not continue it. -/
  | continuation
  /-- The bytes end inside a character. -/
  | cutOff
  deriving DecidableEq, Repr

/-- The wording of a fault. -/
def Fault.message : Fault → String
  | .start => "invalid start byte"
  | .continuation => "invalid continuation byte"
  | .cutOff => "unexpected end of data"

/-- The first bytes of a file that encode no text. -/
structure DecodeError where
  /-- The fault. -/
  fault : Fault
  /-- The number of bytes before the faulty ones. -/
  start : Nat
  /-- The number of faulty bytes. -/
  length : Nat
  /-- The first faulty byte. -/
  byte : UInt8
  deriving DecidableEq, Repr

/-- The wording of a decoding error. -/
def DecodeError.message (e : DecodeError) : String :=
  let place :=
    if e.length = 1 then
      "byte 0x" ++ String.ofList (hexDigits 2 e.byte.toNat) ++ " in position " ++ toString e.start
    else "bytes in position " ++ toString e.start ++ "-" ++ toString (e.start + e.length - 1)
  "'utf-8' codec can't decode " ++ place ++ ": " ++ e.fault.message

/-- The bytes that encode a character. -/
def encodeChar (c : Char) : List UInt8 :=
  let n := c.toNat
  if n < 0x80 then [UInt8.ofNat n]
  else if n < 0x800 then [UInt8.ofNat (0xC0 + n / 0x40), UInt8.ofNat (0x80 + n % 0x40)]
  else if n < 0x10000 then
    [UInt8.ofNat (0xE0 + n / 0x1000), UInt8.ofNat (0x80 + n / 0x40 % 0x40),
      UInt8.ofNat (0x80 + n % 0x40)]
  else
    [UInt8.ofNat (0xF0 + n / 0x40000), UInt8.ofNat (0x80 + n / 0x1000 % 0x40),
      UInt8.ofNat (0x80 + n / 0x40 % 0x40), UInt8.ofNat (0x80 + n % 0x40)]

/-- The bytes that encode a text. -/
def encode (s : String) : List UInt8 := s.toList.flatMap encodeChar

/-- Whether a byte may stand second after the lead byte `lead`. The longer forms exclude
numbers that a shorter form encodes, surrogates and numbers above U+10FFFF. -/
def isSecond (lead b : Nat) : Bool :=
  if lead = 0xE0 then 0xA0 ≤ b && b ≤ 0xBF
  else if lead = 0xED then 0x80 ≤ b && b ≤ 0x9F
  else if lead = 0xF0 then 0x90 ≤ b && b ≤ 0xBF
  else if lead = 0xF4 then 0x80 ≤ b && b ≤ 0x8F
  else 0x80 ≤ b && b ≤ 0xBF

/-- Whether a byte continues a character. -/
def isTail (b : Nat) : Bool := 0x80 ≤ b && b ≤ 0xBF

/-- Decodes bytes after `before` others. -/
def decodeFrom (before : Nat) : List UInt8 → Except DecodeError (List Char)
  | [] => .ok []
  | a :: rest =>
    let x := a.toNat
    let fail (fault : Fault) (length : Nat) : Except DecodeError (List Char) :=
      .error ⟨fault, before, length, a⟩
    let found (n : Nat) (tail : Except DecodeError (List Char)) : Except DecodeError (List Char) :=
      tail.map (Char.ofNat n :: ·)
    if x < 0x80 then found x (decodeFrom (before + 1) rest)
    else if x < 0xC2 then fail .start 1
    else if x < 0xE0 then
      match rest with
      | [] => fail .cutOff 1
      | b :: rest =>
        if isSecond x b.toNat then
          found ((x - 0xC0) * 0x40 + (b.toNat - 0x80)) (decodeFrom (before + 2) rest)
        else fail .continuation 1
    else if x < 0xF0 then
      match rest with
      | [] => fail .cutOff 1
      | b :: rest =>
        if isSecond x b.toNat then
          match rest with
          | [] => fail .cutOff 2
          | c :: rest =>
            if isTail c.toNat then
              found ((x - 0xE0) * 0x1000 + (b.toNat - 0x80) * 0x40 + (c.toNat - 0x80))
                (decodeFrom (before + 3) rest)
            else fail .continuation 2
        else fail .continuation 1
    else if x < 0xF5 then
      match rest with
      | [] => fail .cutOff 1
      | b :: rest =>
        if isSecond x b.toNat then
          match rest with
          | [] => fail .cutOff 2
          | c :: rest =>
            if isTail c.toNat then
              match rest with
              | [] => fail .cutOff 3
              | d :: rest =>
                if isTail d.toNat then
                  found ((x - 0xF0) * 0x40000 + (b.toNat - 0x80) * 0x1000 +
                    (c.toNat - 0x80) * 0x40 + (d.toNat - 0x80)) (decodeFrom (before + 4) rest)
                else fail .continuation 3
            else fail .continuation 2
        else fail .continuation 1
    else fail .start 1

/-- The text that some bytes encode. -/
def decode (bytes : List UInt8) : Except DecodeError String :=
  (decodeFrom 0 bytes).map String.ofList

end SegmentSwap.Text.Utf8
