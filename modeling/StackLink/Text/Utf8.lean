/-!
# Byte strings as text

Word names and other byte strings need not be UTF-8. Where one is shown as text,
each maximal well-formed UTF-8 sequence (RFC 3629: shortest form, no
surrogates, nothing above `U+10FFFF`) stands for its character and every other
byte for one replacement character `U+FFFD`. So the text has one character per
character or stray byte, which is also how widths are counted when it is laid
out in columns.
-/

namespace StackLink.Utf8

/-- Whether a byte continues a multi-byte sequence. -/
def isCont (b : UInt8) : Bool := 0x80 ≤ b && b ≤ 0xBF

/-- The well-formed character at the front of a byte string, and the bytes after it. -/
def decodeChar? : List UInt8 → Option (Char × List UInt8)
  | [] => none
  | b0 :: rest =>
    if b0 < 0x80 then some (Char.ofNat b0.toNat, rest)
    else if 0xC2 ≤ b0 ∧ b0 ≤ 0xDF then
      match rest with
      | b1 :: r => if isCont b1 then
          some (Char.ofNat ((b0.toNat - 0xC0) * 64 + (b1.toNat - 0x80)), r) else none
      | _ => none
    else if 0xE0 ≤ b0 ∧ b0 ≤ 0xEF then
      let lo : UInt8 := if b0 = 0xE0 then 0xA0 else 0x80
      let hi : UInt8 := if b0 = 0xED then 0x9F else 0xBF
      match rest with
      | b1 :: b2 :: r =>
        if lo ≤ b1 ∧ b1 ≤ hi ∧ isCont b2 then
          some (Char.ofNat ((b0.toNat - 0xE0) * 4096 + (b1.toNat - 0x80) * 64 + (b2.toNat - 0x80)), r)
        else none
      | _ => none
    else if 0xF0 ≤ b0 ∧ b0 ≤ 0xF4 then
      let lo : UInt8 := if b0 = 0xF0 then 0x90 else 0x80
      let hi : UInt8 := if b0 = 0xF4 then 0x8F else 0xBF
      match rest with
      | b1 :: b2 :: b3 :: r =>
        if lo ≤ b1 ∧ b1 ≤ hi ∧ isCont b2 ∧ isCont b3 then
          some (Char.ofNat ((b0.toNat - 0xF0) * 262144 + (b1.toNat - 0x80) * 4096 +
            (b2.toNat - 0x80) * 64 + (b3.toNat - 0x80)), r)
        else none
      | _ => none
    else none

/-- A byte string cut into characters, a stray byte standing as `.inr` of itself. -/
def pieces (bs : List UInt8) : List (Char ⊕ UInt8) :=
  go bs.length bs
where
  /-- Cuts at most `fuel` pieces; every piece takes at least one byte, so the length of the
  string is fuel enough. -/
  go : Nat → List UInt8 → List (Char ⊕ UInt8)
    | 0, _ => []
    | _, [] => []
    | n + 1, b :: rest =>
      match decodeChar? (b :: rest) with
      | some (c, r) => .inl c :: go n r
      | none => .inr b :: go n rest

/-- The text of a byte string, a replacement character for each stray byte. -/
def lossy (bs : List UInt8) : String :=
  String.ofList ((pieces bs).map fun | .inl c => c | .inr _ => '�')

/-- Whether a byte string is well-formed UTF-8 throughout. -/
def isValid (bs : List UInt8) : Bool := (pieces bs).all fun | .inl _ => true | .inr _ => false

/-- The bytes of a text. -/
def encode (s : String) : List UInt8 := s.toUTF8.toList

end StackLink.Utf8
