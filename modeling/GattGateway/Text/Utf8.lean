/-!
# Text as bytes

UTF-8 bytes of a text, their reading, and the longest start of a text that fits in given room.
-/
namespace GattGateway.Text

abbrev Bytes := List UInt8

def utf8 (s : String) : Bytes := s.toList.flatMap String.utf8EncodeChar

/-- Bytes as text, if they are UTF-8. -/
def ofUtf8? (bs : Bytes) : Option String := String.fromUTF8? bs.toByteArray

/-- The longest start of whole characters that takes no more than `room` bytes. -/
def fitting : Nat → List Char → List Char
  | _, [] => []
  | room, c :: cs =>
    if c.utf8Size ≤ room then c :: fitting (room - c.utf8Size) cs else []

theorem fitting_isPrefix (room : Nat) (cs : List Char) : fitting room cs <+: cs := by
  induction cs generalizing room with
  | nil => simp [fitting]
  | cons c cs ih =>
    unfold fitting
    split
    · simpa using ih _
    · simp

end GattGateway.Text
