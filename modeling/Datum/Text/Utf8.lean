/-! # Text as UTF-8 bytes

`encode` writes a text as bytes. `scan` reads bytes back: it yields a character for each well-formed
sequence and a gap for each longest run of bytes that begins a sequence and cannot be continued.
Strict decoding refuses gaps, lossy decoding shows each as U+FFFD.
-/

namespace Datum.Utf8

/-- The bytes of a code point: one to four, the first of which tells how many follow. -/
def encodePoint (n : Nat) : List UInt8 :=
  if n < 0x80 then [n.toUInt8]
  else if n < 0x800 then [(0xc0 + n / 0x40).toUInt8, (0x80 + n % 0x40).toUInt8]
  else if n < 0x10000 then
    [(0xe0 + n / 0x1000).toUInt8, (0x80 + n / 0x40 % 0x40).toUInt8, (0x80 + n % 0x40).toUInt8]
  else
    [(0xf0 + n / 0x40000).toUInt8, (0x80 + n / 0x1000 % 0x40).toUInt8,
      (0x80 + n / 0x40 % 0x40).toUInt8, (0x80 + n % 0x40).toUInt8]

def encode (text : String) : List UInt8 :=
  text.toList.flatMap fun c => encodePoint c.toNat

def isContinuation (b : UInt8) : Bool :=
  0x80 ≤ b.toNat && b.toNat < 0xc0

/-- The second bytes allowed after `lead` in a sequence of three: no longer form of a shorter
sequence and no surrogate. -/
def isSecondOfThree (lead b : UInt8) : Bool :=
  isContinuation b && (lead.toNat != 0xe0 || 0xa0 ≤ b.toNat) && (lead.toNat != 0xed || b.toNat < 0xa0)

/-- The second bytes allowed after `lead` in a sequence of four: no longer form of a shorter
sequence and nothing above the last code point. -/
def isSecondOfFour (lead b : UInt8) : Bool :=
  isContinuation b && (lead.toNat != 0xf0 || 0x90 ≤ b.toNat) && (lead.toNat != 0xf4 || b.toNat < 0x90)

/-- The character of a sequence of two, three or four bytes. -/
def joinTwo (a b : UInt8) : Char :=
  Char.ofNat (a.toNat % 0x20 * 0x40 + b.toNat % 0x40)

@[inherit_doc joinTwo]
def joinThree (a b c : UInt8) : Char :=
  Char.ofNat (a.toNat % 0x10 * 0x1000 + b.toNat % 0x40 * 0x40 + c.toNat % 0x40)

@[inherit_doc joinTwo]
def joinFour (a b c d : UInt8) : Char :=
  Char.ofNat (a.toNat % 0x08 * 0x40000 + b.toNat % 0x40 * 0x1000 + c.toNat % 0x40 * 0x40 +
    d.toNat % 0x40)

/-- The characters of the bytes, with `none` for each longest run that begins a sequence and cannot
be continued. -/
def scan : List UInt8 → List (Option Char)
  | [] => []
  | a :: rest =>
    if a.toNat < 0x80 then some (Char.ofNat a.toNat) :: scan rest
    else if a.toNat < 0xc2 then none :: scan rest
    else if a.toNat < 0xe0 then
      match rest with
      | [] => [none]
      | b :: afterB =>
        if isContinuation b then some (joinTwo a b) :: scan afterB else none :: scan (b :: afterB)
    else if a.toNat < 0xf0 then
      match rest with
      | [] => [none]
      | [b] => if isSecondOfThree a b then [none] else none :: scan [b]
      | b :: c :: afterC =>
        if isSecondOfThree a b then
          if isContinuation c then some (joinThree a b c) :: scan afterC
          else none :: scan (c :: afterC)
        else none :: scan (b :: c :: afterC)
    else if a.toNat < 0xf5 then
      match rest with
      | [] => [none]
      | [b] => if isSecondOfFour a b then [none] else none :: scan [b]
      | [b, c] =>
        if isSecondOfFour a b then
          if isContinuation c then [none] else none :: scan [c]
        else none :: scan [b, c]
      | b :: c :: d :: afterD =>
        if isSecondOfFour a b then
          if isContinuation c then
            if isContinuation d then some (joinFour a b c d) :: scan afterD
            else none :: scan (d :: afterD)
          else none :: scan (c :: d :: afterD)
        else none :: scan (b :: c :: d :: afterD)
    else none :: scan rest

def decode? (bytes : List UInt8) : Option String :=
  ((scan bytes).mapM id).map String.ofList

/-- The text of any bytes, with U+FFFD in the place of each gap. -/
def decodeLossy (bytes : List UInt8) : String :=
  String.ofList ((scan bytes).map (·.getD '\ufffd'))

end Datum.Utf8
