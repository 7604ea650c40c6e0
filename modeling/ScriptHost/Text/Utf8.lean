/-!
# UTF-8

Bytes as text, and what is wrong with bytes that are no text.

* `Utf8.Defect` : the first place where bytes stop being UTF-8.
* `Utf8.decode` : the text of some bytes, or their first defect.
* `Utf8.decodeLossy` : the text of some bytes, with a mark for each defect.
* `Utf8.decode_toUTF8` : the bytes of a text are that text.
-/

namespace ScriptHost.Text.Utf8

/-- Bytes are equal when they are the same one by one. -/
instance decidableEqBytes : DecidableEq ByteArray := ByteArray.instDecidableEq

/-- The first place where bytes stop being UTF-8. -/
structure Defect where
  /-- The number of bytes in front of it. -/
  index : Nat
  /-- The number of bytes that belong together; none when the bytes end in the middle of a
  character. -/
  length? : Option Nat
  deriving DecidableEq, Repr

/-- How many bytes a character has that starts with a byte, and the range of its second byte. -/
def lead? (b : UInt8) : Option (Nat × UInt8 × UInt8) :=
  if 0xC2 ≤ b ∧ b ≤ 0xDF then some (2, 0x80, 0xBF)
  else if b = 0xE0 then some (3, 0xA0, 0xBF)
  else if b = 0xED then some (3, 0x80, 0x9F)
  else if 0xE1 ≤ b ∧ b ≤ 0xEF then some (3, 0x80, 0xBF)
  else if b = 0xF0 then some (4, 0x90, 0xBF)
  else if 0xF1 ≤ b ∧ b ≤ 0xF3 then some (4, 0x80, 0xBF)
  else if b = 0xF4 then some (4, 0x80, 0x8F)
  else none

/-- Whether a byte continues a character. -/
def isContinuation (b : UInt8) : Bool := 0x80 ≤ b && b ≤ 0xBF

/-- What the front of some bytes is. -/
inductive Front where
  /-- A character of so many bytes. -/
  | character (length : Nat)
  /-- So many bytes that belong together and are no character. -/
  | broken (length : Nat)
  /-- The start of a character that the bytes end within. -/
  | unfinished
  deriving DecidableEq, Repr

/-- What the front of some bytes is. -/
def front (first : UInt8) (rest : List UInt8) : Front :=
  if first < 0x80 then .character 1
  else match lead? first with
    | none => .broken 1
    | some (length, low, high) =>
      match rest with
      | [] => .unfinished
      | second :: rest =>
        if second < low || high < second then .broken 1
        else if length = 2 then .character 2
        else match rest with
          | [] => .unfinished
          | third :: rest =>
            if !isContinuation third then .broken 2
            else if length = 3 then .character 3
            else match rest with
              | [] => .unfinished
              | fourth :: _ => if isContinuation fourth then .character 4 else .broken 3

/-- The first defect of some bytes; `skip` of them belong to a character that was read, and `index`
bytes stand in front of them. -/
def defectFrom? (index skip : Nat) : List UInt8 → Option Defect
  | [] => none
  | b :: rest =>
    match skip with
    | skip + 1 => defectFrom? (index + 1) skip rest
    | 0 =>
      match front b rest with
      | .character length => defectFrom? (index + 1) (length - 1) rest
      | .broken length => some ⟨index, some length⟩
      | .unfinished => some ⟨index, none⟩

/-- The text of some bytes, or their first defect. -/
def decode (bytes : ByteArray) : Except Defect String :=
  match String.fromUTF8? bytes with
  | some text => .ok text
  | none => .error ((defectFrom? 0 0 bytes.toList).getD ⟨0, some 1⟩)

/-- The character of one to four bytes. -/
def characterOf : List UInt8 → Char
  | [a] => Char.ofNat a.toNat
  | [a, b] => Char.ofNat (a.toNat % 32 * 64 + b.toNat % 64)
  | [a, b, c] => Char.ofNat (a.toNat % 16 * 4096 + b.toNat % 64 * 64 + c.toNat % 64)
  | [a, b, c, d] =>
    Char.ofNat (a.toNat % 8 * 262144 + b.toNat % 64 * 4096 + c.toNat % 64 * 64 + d.toNat % 64)
  | _ => '\uFFFD'

/-- The characters of some bytes, with a mark for each defect. -/
def lossyFrom (skip : Nat) : List UInt8 → List Char
  | [] => []
  | b :: rest =>
    match skip with
    | skip + 1 => lossyFrom skip rest
    | 0 =>
      match front b rest with
      | .character length => characterOf ((b :: rest).take length) :: lossyFrom (length - 1) rest
      | .broken length => '\uFFFD' :: lossyFrom (length - 1) rest
      | .unfinished => ['\uFFFD']

/-- The text of some bytes, with a mark for each defect. -/
def decodeLossy (bytes : ByteArray) : String :=
  match String.fromUTF8? bytes with
  | some text => text
  | none => String.ofList (lossyFrom 0 bytes.toList)

/-- The bytes of a text are read as that text. -/
theorem fromUTF8?_toUTF8 (text : String) : String.fromUTF8? text.toUTF8 = some text := by
  simp only [String.toUTF8_eq_toByteArray, String.fromUTF8?, dif_pos text.isValidUTF8]
  rfl

/-- The bytes of a text are that text. -/
theorem decode_toUTF8 (text : String) : decode text.toUTF8 = .ok text := by
  simp only [decode, fromUTF8?_toUTF8]

end ScriptHost.Text.Utf8
