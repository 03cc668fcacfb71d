import HtmlFragments.Text.Basic

/-! # Decoding UTF-8

Bytes that are no UTF-8 do not stop decoding: every longest beginning of a sequence that breaks off
becomes one U+FFFD, and so does a byte that begins none. A byte order mark is kept. -/
set_option autoImplicit false

namespace HtmlFragments.Utf8

/-- What the first byte of a sequence asks for: its own bits, the number of further bytes and the
bounds of the next one. -/
structure Lead where
  bits : Nat
  more : Nat
  least : UInt8 := 0x80
  greatest : UInt8 := 0xBF

def lead? (byte : UInt8) : Option Lead :=
  if byte < 0x80 then some { bits := byte.toNat, more := 0 }
  else if byte < 0xC2 then none
  else if byte < 0xE0 then some { bits := byte.toNat - 0xC0, more := 1 }
  else if byte < 0xF0 then
    some {
      bits := byte.toNat - 0xE0, more := 2
      least := if byte == 0xE0 then 0xA0 else 0x80
      greatest := if byte == 0xED then 0x9F else 0xBF }
  else if byte < 0xF5 then
    some {
      bits := byte.toNat - 0xF0, more := 3
      least := if byte == 0xF0 then 0x90 else 0x80
      greatest := if byte == 0xF4 then 0x8F else 0xBF }
  else none

/-- The code point of a sequence, or none where it breaks off, with the bytes that follow. -/
def continueSequence (bits : Nat) (least greatest : UInt8) :
    Nat → List UInt8 → Option Nat × List UInt8
  | 0, bytes => (some bits, bytes)
  | _ + 1, [] => (none, [])
  | more + 1, byte :: rest =>
    if least ≤ byte && byte ≤ greatest then
      continueSequence (bits * 0x40 + (byte.toNat - 0x80)) 0x80 0xBF more rest
    else (none, byte :: rest)

theorem continueSequence_length_le (bits : Nat) (least greatest : UInt8) (more : Nat)
    (bytes : List UInt8) : (continueSequence bits least greatest more bytes).2.length ≤ bytes.length := by
  fun_induction continueSequence bits least greatest more bytes with
  | case1 => exact Nat.le_refl _
  | case2 => exact Nat.le_refl _
  | case3 _ _ _ _ _ _ _ shorter => exact Nat.le_succ_of_le shorter
  | case4 => exact Nat.le_refl _

def decode : List UInt8 → Text
  | [] => []
  | byte :: rest =>
    match lead? byte with
    | none => 0xFFFD :: decode rest
    | some lead =>
      let sequence := continueSequence lead.bits lead.least lead.greatest lead.more rest
      (match sequence.1 with
        | some point => Text.encode point
        | none => [0xFFFD]) ++ decode sequence.2
termination_by bytes => bytes.length
decreasing_by
  · exact Nat.lt_succ_self _
  · exact Nat.lt_succ_of_le (continueSequence_length_le ..)

def pointLength (point : Nat) : Nat :=
  if point < 0x80 then 1 else if point < 0x800 then 2 else if point < 0x10000 then 3 else 4

def byteLength (text : Text) : Nat :=
  text.codePoints.foldl (fun length point => length + pointLength point) 0

end HtmlFragments.Utf8
