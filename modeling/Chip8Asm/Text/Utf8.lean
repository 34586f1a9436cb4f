/-! Strict reading of UTF-8. A sequence is read only in its shortest form, and surrogates and code
points above U+10FFFF are refused. A fault names the bytes at which reading stops. -/

namespace Chip8Asm
namespace Text

inductive Utf8Reason where
  | startByte
  | continuationByte
  | endOfData
deriving DecidableEq, Repr

def Utf8Reason.message : Utf8Reason → String
  | .startByte => "invalid start byte"
  | .continuationByte => "invalid continuation byte"
  | .endOfData => "unexpected end of data"

/-- The bytes at positions `first` to `last` begin no character. The byte is the first of them. -/
structure Utf8Fault where
  first : Nat
  last : Nat
  byte : UInt8
  reason : Utf8Reason
deriving DecidableEq, Repr

def Utf8Fault.span (fault : Utf8Fault) : String :=
  if fault.first = fault.last then
    "byte 0x" ++ String.ofList ((Nat.toDigits 16 fault.byte.toNat).leftpad 2 '0') ++
      " in position " ++ toString fault.first
  else "bytes in position " ++ toString fault.first ++ "-" ++ toString fault.last

def Utf8Fault.message (fault : Utf8Fault) : String :=
  "'utf-8' codec can't decode " ++ fault.span ++ ": " ++ fault.reason.message

def isContinuation (b : UInt8) : Bool := decide (0x80 ≤ b) && decide (b ≤ 0xBF)

/-- The second bytes that keep a sequence in its shortest form and out of the surrogates. -/
def isSecond (lead b : UInt8) : Bool :=
  if lead = 0xE0 then decide (0xA0 ≤ b) && decide (b ≤ 0xBF)
  else if lead = 0xED then decide (0x80 ≤ b) && decide (b ≤ 0x9F)
  else if lead = 0xF0 then decide (0x90 ≤ b) && decide (b ≤ 0xBF)
  else if lead = 0xF4 then decide (0x80 ≤ b) && decide (b ≤ 0x8F)
  else isContinuation b

/-- The character made of a lead's low bits and the continuation bytes. -/
def joinBytes (lead : Nat) (more : List UInt8) : Char :=
  Char.ofNat (more.foldl (fun n b => n * 64 + (b.toNat - 0x80)) lead)

/-- Reads bytes, the first of which stands at position `pos`. -/
def decodeFrom (pos : Nat) : List UInt8 → Except Utf8Fault (List Char)
  | [] => .ok []
  | b :: rest =>
    if b < 0x80 then (decodeFrom (pos + 1) rest).map (joinBytes b.toNat [] :: ·)
    else if b < 0xC2 ∨ 0xF4 < b then .error ⟨pos, pos, b, .startByte⟩
    else
      match rest with
      | [] => .error ⟨pos, pos, b, .endOfData⟩
      | b₁ :: rest =>
        if !isSecond b b₁ then .error ⟨pos, pos, b, .continuationByte⟩
        else if b < 0xE0 then
          (decodeFrom (pos + 2) rest).map (joinBytes (b.toNat - 0xC0) [b₁] :: ·)
        else
          match rest with
          | [] => .error ⟨pos, pos + 1, b, .endOfData⟩
          | b₂ :: rest =>
            if !isContinuation b₂ then .error ⟨pos, pos + 1, b, .continuationByte⟩
            else if b < 0xF0 then
              (decodeFrom (pos + 3) rest).map (joinBytes (b.toNat - 0xE0) [b₁, b₂] :: ·)
            else
              match rest with
              | [] => .error ⟨pos, pos + 2, b, .endOfData⟩
              | b₃ :: rest =>
                if !isContinuation b₃ then .error ⟨pos, pos + 2, b, .continuationByte⟩
                else (decodeFrom (pos + 4) rest).map
                  (joinBytes (b.toNat - 0xF0) [b₁, b₂, b₃] :: ·)

def decodeUtf8 (bytes : List UInt8) : Except Utf8Fault String :=
  (decodeFrom 0 bytes).map String.ofList

def encodeUtf8 (s : String) : List UInt8 := s.toUTF8.data.toList

end Text
end Chip8Asm
