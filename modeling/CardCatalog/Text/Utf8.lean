/-!
# Bytes and characters

Characters are encoded in UTF-8. Decoding never fails: every longest run of bytes that
starts a character but does not complete it, and every byte that starts none, becomes one
replacement character.

Algorithm: a leading byte tells how many bytes follow, the range of the next one, and the
bits that it brings itself. The two special ranges of second bytes keep out overlong
forms, surrogates and numbers beyond the last character.
-/

namespace CardCatalog
namespace Text

/-- The character that stands for bytes that encode none. -/
def replacement : Char := '\ufffd'

/-- What a leading byte announces: its own bits, the number of bytes to follow, and the
range of the first of them. -/
def leadByte? (b : Nat) : Option (Nat × Nat × Nat × Nat) :=
  if b < 0x80 then some (b, 0, 0x80, 0xbf)
  else if b < 0xc2 then none
  else if b < 0xe0 then some (b - 0xc0, 1, 0x80, 0xbf)
  else if b = 0xe0 then some (0, 2, 0xa0, 0xbf)
  else if b = 0xed then some (0xd, 2, 0x80, 0x9f)
  else if b < 0xf0 then some (b - 0xe0, 2, 0x80, 0xbf)
  else if b = 0xf0 then some (0, 3, 0x90, 0xbf)
  else if b < 0xf4 then some (b - 0xf0, 3, 0x80, 0xbf)
  else if b = 0xf4 then some (4, 3, 0x80, 0x8f)
  else none

/-- Reads the bytes that have to follow; the flag tells whether all were there. -/
def followers : Nat → Nat → Nat → Nat → List Nat → Bool × Nat × List Nat
  | 0, _, _, n, bs => (true, n, bs)
  | _ + 1, _, _, n, [] => (false, n, [])
  | count + 1, low, high, n, b :: bs =>
    if low ≤ b ∧ b ≤ high then followers count 0x80 0xbf (n * 64 + (b - 0x80)) bs
    else (false, n, b :: bs)

theorem length_followers_le :
    ∀ (count low high n : Nat) (bs : List Nat),
      (followers count low high n bs).2.2.length ≤ bs.length
  | 0, _, _, _, _ => Nat.le_refl _
  | _ + 1, _, _, _, [] => Nat.le_refl _
  | count + 1, low, high, n, b :: bs => by
    unfold followers
    split
    · exact Nat.le_succ_of_le (length_followers_le count 0x80 0xbf _ bs)
    · exact Nat.le_refl _

/-- A piece of a list of bytes: a character, or bytes that encode none. -/
inductive Utf8Piece where
  | char (c : Char)
  | ill (bytes : List Nat)
  deriving DecidableEq, Repr

/-- The pieces of a list of bytes, in order. -/
def utf8Pieces (bytes : List Nat) : List Utf8Piece :=
  match bytes with
  | [] => []
  | b :: bs =>
    match leadByte? b with
    | none => .ill [b] :: utf8Pieces bs
    | some (bits, count, low, high) =>
      let read := followers count low high bits bs
      let piece :=
        if read.1 then .char (Char.ofNat read.2.1)
        else .ill (b :: bs.take (bs.length - read.2.2.length))
      piece :: utf8Pieces read.2.2
termination_by bytes.length
decreasing_by
  · simp
  · exact Nat.lt_succ_of_le (length_followers_le count low high bits bs)

/-- The character of a piece. -/
def Utf8Piece.toChar : Utf8Piece → Char
  | char c => c
  | ill _ => replacement

/-- The characters that bytes encode. -/
def decodeBytes (bytes : List Nat) : List Char :=
  (utf8Pieces bytes).map Utf8Piece.toChar

/-- The bytes of a character. -/
def encodeChar (c : Char) : List Nat :=
  (String.utf8EncodeChar c).map UInt8.toNat

end Text
end CardCatalog
