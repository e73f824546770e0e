/-!
# Bytes written in base 64

Four characters of a sixty-four letter alphabet stand for three bytes. Characters outside of the
alphabet are passed over; equals signs fill up the last group and end the data.

## Main definitions

* `Text.ofBase64?` — the bytes that a text stands for
-/

namespace DocLineage.Text

/-- The six bits that a letter of the alphabet stands for. -/
def sixBits? (c : Char) : Option Nat :=
  let n := c.toNat
  if 'A' ≤ c && c ≤ 'Z' then some (n - 'A'.toNat)
  else if 'a' ≤ c && c ≤ 'z' then some (n - 'a'.toNat + 26)
  else if '0' ≤ c && c ≤ '9' then some (n - '0'.toNat + 52)
  else if c == '+' then some 62
  else if c == '/' then some 63
  else none

/-- The bytes of groups of six bits, of which the last group of bytes may be incomplete. -/
def groupBytes : List Nat → List UInt8
  | a :: b :: c :: d :: rest =>
    UInt8.ofNat (a * 4 + b / 16) :: UInt8.ofNat (b * 16 + c / 4) :: UInt8.ofNat (c * 64 + d) ::
      groupBytes rest
  | [a, b, c] => [UInt8.ofNat (a * 4 + b / 16), UInt8.ofNat (b * 16 + c / 4)]
  | [a, b] => [UInt8.ofNat (a * 4 + b / 16)]
  | _ => []

/-- The six-bit groups of a text after `read`, which is kept in reverse, with `pads` equals signs
since the last letter. Nothing is returned when a last group lacks its filling. -/
def base64Groups (read : List Nat) (pads : Nat) : List Char → Option (List Nat)
  | [] => if read.length % 4 == 0 then some read.reverse else none
  | c :: cs =>
    if c == '=' then
      let held := read.length % 4
      if 2 ≤ held && 4 ≤ held + pads + 1 then some read.reverse
      else base64Groups read (if 2 ≤ held then pads + 1 else pads) cs
    else
      match sixBits? c with
      | some n => base64Groups (n :: read) 0 cs
      | none => base64Groups read pads cs

/-- The bytes that a text stands for; only ASCII characters may occur in it. -/
def ofBase64? (cs : List Char) : Option (List UInt8) :=
  if cs.all fun c => c.toNat < 0x80 then (base64Groups [] 0 cs).map groupBytes else none

end DocLineage.Text
