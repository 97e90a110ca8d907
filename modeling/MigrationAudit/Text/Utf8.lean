/-!
# Bytes and characters

Bytes are read as UTF-8. Where they are not well formed, the longest part that could start a
character, or else a single byte, is read as the replacement character.
-/

namespace MigrationAudit.Text

/-- The ranges of the bytes that follow a leading byte; none for a byte that leads nothing. -/
def continuations? (b : Nat) : Option (List (Nat × Nat)) :=
  let any : Nat × Nat := (0x80, 0xBF)
  if b < 0x80 then some []
  else if 0xC2 ≤ b && b ≤ 0xDF then some [any]
  else if b == 0xE0 then some [(0xA0, 0xBF), any]
  else if b == 0xED then some [(0x80, 0x9F), any]
  else if 0xE1 ≤ b && b ≤ 0xEF then some [any, any]
  else if b == 0xF0 then some [(0x90, 0xBF), any, any]
  else if 0xF1 ≤ b && b ≤ 0xF3 then some [any, any, any]
  else if b == 0xF4 then some [(0x80, 0x8F), any, any]
  else none

/-- How many bytes in a row lie in the ranges given for them. -/
def agreeing : List (Nat × Nat) → List UInt8 → Nat
  | (low, high) :: ranges, b :: bytes =>
    if low ≤ b.toNat && b.toNat ≤ high then agreeing ranges bytes + 1 else 0
  | _, _ => 0

/-- The bits of a leading byte that belong to the character, when `n` bytes follow. -/
def leadingBits (b n : Nat) : Nat :=
  match n with
  | 0 => b
  | 1 => b % 0x20
  | 2 => b % 0x10
  | _ => b % 0x08

def joinBytes (b : Nat) (bytes : List UInt8) : Char :=
  Char.ofNat (bytes.foldl (fun n c => n * 0x40 + c.toNat % 0x40) (leadingBits b bytes.length))

/-- The characters that bytes make, with replacements where they are not well formed. -/
def decodeUtf8 : List UInt8 → List Char
  | [] => []
  | b :: bytes =>
    match continuations? b.toNat with
    | none => '\ufffd' :: decodeUtf8 bytes
    | some ranges =>
      let n := agreeing ranges bytes
      (if n == ranges.length then joinBytes b.toNat (bytes.take n) else '\ufffd') ::
        decodeUtf8 (bytes.drop n)
termination_by bytes => bytes.length
decreasing_by
  all_goals grind

/-- The text of a file: a byte order mark at its start is not part of it. -/
def decodeFile : List UInt8 → List Char
  | 0xEF :: 0xBB :: 0xBF :: bytes => decodeUtf8 bytes
  | bytes => decodeUtf8 bytes

end MigrationAudit.Text
