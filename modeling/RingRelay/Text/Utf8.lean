/- Bytes and text: UTF-8.

   Bytes are read one at a time. A byte that begins no character, or a character that breaks off, is
   one malformed stretch, which ends before the first byte that cannot belong to it. Bytes are text
   if they have no malformed stretch (`decode?`); read leniently (`decodeLossy`), each malformed
   stretch is one replacement character. -/
namespace RingRelay

/-- A sequence of bytes. -/
abbrev Bytes := List UInt8

namespace Utf8

/-- Where a reader of bytes stands inside a character: the bits so far, how many bytes are still to
    come, and the least and the greatest byte that may come next. -/
structure Pending where
  bits : Nat
  missing : Nat
  least : Nat
  greatest : Nat

/-- What a first byte begins. -/
inductive Lead
  | whole (c : Char)
  | begins (pending : Pending)
  | malformed

/-- What a byte begins between two characters. -/
def lead (b : UInt8) : Lead :=
  let n := b.toNat
  if n < 0x80 then .whole (Char.ofNat n)
  else if n < 0xc2 then .malformed
  else if n < 0xe0 then .begins ⟨n - 0xc0, 1, 0x80, 0xbf⟩
  else if n = 0xe0 then .begins ⟨0, 2, 0xa0, 0xbf⟩
  else if n = 0xed then .begins ⟨0xd, 2, 0x80, 0x9f⟩
  else if n < 0xf0 then .begins ⟨n - 0xe0, 2, 0x80, 0xbf⟩
  else if n = 0xf0 then .begins ⟨0, 3, 0x90, 0xbf⟩
  else if n < 0xf4 then .begins ⟨n - 0xf0, 3, 0x80, 0xbf⟩
  else if n = 0xf4 then .begins ⟨4, 3, 0x80, 0x8f⟩
  else .malformed

/-- The characters of the bytes in order, with `none` for each malformed stretch. -/
def scan : Option Pending → Bytes → List (Option Char)
  | none, [] => []
  | some _, [] => [none]
  | none, b :: bs =>
    match lead b with
    | .whole c => some c :: scan none bs
    | .begins pending => scan (some pending) bs
    | .malformed => none :: scan none bs
  | some p, b :: bs =>
    if p.least ≤ b.toNat ∧ b.toNat ≤ p.greatest then
      let bits := p.bits * 64 + (b.toNat - 0x80)
      if p.missing ≤ 1 then some (Char.ofNat bits) :: scan none bs
      else scan (some ⟨bits, p.missing - 1, 0x80, 0xbf⟩) bs
    else
      match lead b with
      | .whole c => none :: some c :: scan none bs
      | .begins pending => none :: scan (some pending) bs
      | .malformed => none :: none :: scan none bs

/-- The characters that the bytes encode, if they are text. -/
def decode? (bs : Bytes) : Option (List Char) := (scan none bs).mapM id

/-- The text that the bytes encode, with a replacement character for what is not text. -/
def decodeLossy (bs : Bytes) : String :=
  String.ofList ((scan none bs).map fun c => c.getD '\uFFFD')

/-- The bytes that encode a character. -/
def encodeChar (c : Char) : Bytes :=
  let n := c.toNat
  if n < 0x80 then [UInt8.ofNat n]
  else if n < 0x800 then [UInt8.ofNat (0xc0 + n / 64), UInt8.ofNat (0x80 + n % 64)]
  else if n < 0x10000 then
    [UInt8.ofNat (0xe0 + n / 4096), UInt8.ofNat (0x80 + n / 64 % 64), UInt8.ofNat (0x80 + n % 64)]
  else
    [UInt8.ofNat (0xf0 + n / 262144), UInt8.ofNat (0x80 + n / 4096 % 64),
      UInt8.ofNat (0x80 + n / 64 % 64), UInt8.ofNat (0x80 + n % 64)]

/-- The bytes that encode a text. -/
def encode (text : String) : Bytes := text.toList.flatMap encodeChar

end Utf8

end RingRelay
