import CardCatalog.Text.Utf8
import CardCatalog.Text.Wide

/-!
# Text out of any bytes

Bytes that encode no character can be kept in wide text: such a byte is the half of a
surrogate pair that has the number of the byte behind U+DC00. Written back, the half is the
byte again. Other halves come of no bytes, and a text that holds one has none.

Halves that stand together may be the bytes of a character. So text that is written and read
back is not always the same; text without halves is written without loss.

Result: text without halves has bytes (`bytes?_ofText`).
-/

namespace CardCatalog
namespace Text

namespace Code

/-- The code of a byte that is no part of a character. -/
def ofByte (b : Nat) : Code :=
  .half (Fin.ofNat 0x800 (0x400 + b))

/-- The bytes that a code is kept as, if there are any. -/
def bytes? : Code → Option (List Nat)
  | char c => some (encodeChar c)
  | half n => if 0x480 ≤ n.val ∧ n.val < 0x500 then some [n.val - 0x400] else none

end Code

/-- The codes of a piece of bytes. -/
def Utf8Piece.codes : Utf8Piece → List Code
  | char c => [.char c]
  | ill bytes => bytes.map .ofByte

namespace Wide

/-- The bytes that a text is kept as, if there are any. -/
def bytes? (w : Wide) : Option (List Nat) :=
  (w.codes.mapM Code.bytes?).map List.flatten

/-- The text that is kept as the given bytes. -/
def ofBytes (bytes : List Nat) : Wide :=
  ⟨(utf8Pieces bytes).flatMap Utf8Piece.codes⟩

/-- Characters are kept as their encodings. -/
theorem mapM_bytes?_map_char (cs : List Char) :
    (cs.map Code.char).mapM Code.bytes? = some (cs.map encodeChar) := by
  induction cs with
  | nil => rfl
  | cons c cs ih => simp [Code.bytes?, ih]

/-- Text without halves is kept as the encodings of its characters. -/
theorem bytes?_ofText (s : String) :
    (ofText s).bytes? = some (s.toList.flatMap encodeChar) := by
  rw [bytes?, ofText, mapM_bytes?_map_char, List.flatMap_def]
  rfl

end Wide

end Text
end CardCatalog
