/-
# Strict UTF-8

Bytes are read as UTF-8 without overlong forms, surrogates and code points above
U+10FFFF.  The first byte of a sequence fixes its length and the range of the second
byte, and every later byte lies in 80 to BF:

| first byte | length | second byte |
| --- | ---: | --- |
| 00–7F | 1 | |
| C2–DF | 2 | 80–BF |
| E0 | 3 | A0–BF |
| ED | 3 | 80–9F |
| E1–EC, EE–EF | 3 | 80–BF |
| F0 | 4 | 90–BF |
| F1–F3 | 4 | 80–BF |
| F4 | 4 | 80–8F |

Reading stops at the first bad sequence, and the fault names the bytes of it that
were read.
-/

import Lexis.Text.Decimal
import Lexis.Text.Hex

namespace Lexis
namespace Utf8

/-- Why a sequence of bytes is not UTF-8. -/
inductive Reason where
  /-- No sequence starts with this byte. -/
  | start
  /-- The next byte does not continue the sequence. -/
  | continuation
  /-- The bytes end inside the sequence. -/
  | truncated
deriving DecidableEq, Repr

/-- The wording of a reason. -/
def Reason.message : Reason → Text
  | .start => "invalid start byte".toList
  | .continuation => "invalid continuation byte".toList
  | .truncated => "unexpected end of data".toList

/-- The first bad sequence: its first byte, where that stands, how many bytes after it
belong to the sequence, and why it is bad. -/
structure Fault where
  first : UInt8
  position : Nat
  more : Nat
  reason : Reason
deriving DecidableEq, Repr

/-- The wording of a fault: a single byte is shown, of several only the range of their
positions. -/
def Fault.message (fault : Fault) : Text :=
  let bytes :=
    if fault.more = 0 then
      " byte 0x".toList ++ Hex.digits 2 fault.first.toNat ++ " in position ".toList ++
        Decimal.ofNat fault.position
    else
      " bytes in position ".toList ++ Decimal.ofNat fault.position ++ ['-'] ++
        Decimal.ofNat (fault.position + fault.more)
  "'utf-8' codec can't decode".toList ++ bytes ++ [':', ' '] ++ fault.reason.message

/-- What a first byte announces: how many bytes follow, the part of the code point that
it carries, and the range of the second byte. -/
structure Lead where
  following : Nat
  bits : Nat
  low : Nat
  high : Nat
deriving DecidableEq, Repr

/-- The announcement of a byte, if a sequence can start with it. -/
def Lead.ofByte? (byte : UInt8) : Option Lead :=
  let b := byte.toNat
  if b < 0x80 then some ⟨0, b, 0, 0⟩
  else if b < 0xC2 then none
  else if b < 0xE0 then some ⟨1, b - 0xC0, 0x80, 0xBF⟩
  else if b < 0xF0 then
    some ⟨2, b - 0xE0, if b = 0xE0 then 0xA0 else 0x80, if b = 0xED then 0x9F else 0xBF⟩
  else if b < 0xF5 then
    some ⟨3, b - 0xF0, if b = 0xF0 then 0x90 else 0x80, if b = 0xF4 then 0x8F else 0xBF⟩
  else none

/-- Reads `following` more bytes onto a code point, the first of them between `low` and
`high`.  Answers with the code point and the bytes left, or with how many bytes were
good and why the next was not. -/
def continueWith (following code low high good : Nat) (bytes : List UInt8) :
    Except (Nat × Reason) (Nat × List UInt8) :=
  match following, bytes with
  | 0, rest => .ok (code, rest)
  | _ + 1, [] => .error (good, .truncated)
  | following + 1, byte :: rest =>
    if low ≤ byte.toNat && byte.toNat ≤ high then
      continueWith following (code * 64 + byte.toNat % 64) 0x80 0xBF (good + 1) rest
    else .error (good, .continuation)

/-- Reading on never gives bytes back. -/
theorem length_continueWith {following code low high good : Nat} {bytes rest : List UInt8}
    {code' : Nat} (h : continueWith following code low high good bytes = .ok (code', rest)) :
    rest.length ≤ bytes.length := by
  fun_induction continueWith following code low high good bytes with
  | case1 => cases h; exact Nat.le_refl _
  | case2 => cases h
  | case3 code low high good following byte bytes hrange ih =>
    exact Nat.le_trans (ih h) (by simp)
  | case4 => cases h

/-- Reads bytes that start at `position`, with the characters read before them, last
first. -/
def decodeOnto (read : Text) (position : Nat) (bytes : List UInt8) : Except Fault Text :=
  match bytes with
  | [] => .ok read.reverse
  | first :: rest =>
    match Lead.ofByte? first with
    | none => .error ⟨first, position, 0, .start⟩
    | some lead =>
      match h : continueWith lead.following lead.bits lead.low lead.high 0 rest with
      | .error (good, reason) => .error ⟨first, position, good, reason⟩
      | .ok (code, after) =>
        decodeOnto (Char.ofNat code :: read) (position + lead.following + 1) after
termination_by bytes.length
decreasing_by
  have := length_continueWith h
  simp only [List.length_cons]
  omega

/-- The text that the bytes encode, or their first fault. -/
def decode (bytes : List UInt8) : Except Fault Text := decodeOnto [] 0 bytes

end Utf8
end Lexis
