/-!
# Reading bytes as text

Bytes are read as UTF-8.  Where they are not well formed, each longest run of bytes that starts a
well-formed sequence without completing it, and each byte that starts none, becomes one replacement
character.
-/

namespace WorkerMachine.Text

/-- How a well-formed sequence continues after its first byte: the range that the second byte must
lie in, the number of bytes that follow in all, and the bits that the first byte contributes. -/
private structure Lead where
  lowest : UInt8
  highest : UInt8
  following : Nat
  bits : Nat

/-- The continuation demanded by a first byte, if it can start a sequence of two or more bytes. -/
private def Lead.ofByte? (byte : UInt8) : Option Lead :=
  if 0xC2 ≤ byte && byte ≤ 0xDF then some ⟨0x80, 0xBF, 1, byte.toNat % 32⟩
  else if byte == 0xE0 then some ⟨0xA0, 0xBF, 2, byte.toNat % 16⟩
  else if byte == 0xED then some ⟨0x80, 0x9F, 2, byte.toNat % 16⟩
  else if 0xE1 ≤ byte && byte ≤ 0xEF then some ⟨0x80, 0xBF, 2, byte.toNat % 16⟩
  else if byte == 0xF0 then some ⟨0x90, 0xBF, 3, byte.toNat % 8⟩
  else if byte == 0xF4 then some ⟨0x80, 0x8F, 3, byte.toNat % 8⟩
  else if 0xF1 ≤ byte && byte ≤ 0xF3 then some ⟨0x80, 0xBF, 3, byte.toNat % 8⟩
  else none

/-- The character that stands for bytes which are not well formed. -/
def replacementCharacter : Char := Char.ofNat 0xFFFD

/-- The decoder's memory between two bytes: nothing, or a sequence that has begun. -/
private inductive Pending where
  | nothing
  | sequence (lowest highest : UInt8) (missing : Nat) (bits : Nat)

/-- Start a character at `byte`: the characters that are finished with it and what is pending. -/
private def startCharacter (byte : UInt8) : List Char × Pending :=
  if byte < 0x80 then ([Char.ofNat byte.toNat], .nothing)
  else match Lead.ofByte? byte with
    | some lead => ([], .sequence lead.lowest lead.highest lead.following lead.bits)
    | none => ([replacementCharacter], .nothing)

/-- Decode with something pending.  A byte that does not continue the pending sequence closes it
with one replacement character and is then read afresh. -/
private def decodePending : Pending → List UInt8 → List Char
  | .nothing, [] => []
  | .sequence _ _ _ _, [] => [replacementCharacter]
  | .nothing, byte :: rest =>
    let (finished, pending) := startCharacter byte
    finished ++ decodePending pending rest
  | .sequence lowest highest missing bits, byte :: rest =>
    if lowest ≤ byte && byte ≤ highest then
      let extended := bits * 64 + byte.toNat % 64
      match missing with
      | 0 | 1 => Char.ofNat extended :: decodePending .nothing rest
      | stillMissing + 1 => decodePending (.sequence 0x80 0xBF stillMissing extended) rest
    else
      let (finished, pending) := startCharacter byte
      replacementCharacter :: finished ++ decodePending pending rest

/-- Read bytes as UTF-8, replacing what is not well formed. -/
def decodeLossy (bytes : List UInt8) : String :=
  String.ofList (decodePending .nothing bytes)

end WorkerMachine.Text
