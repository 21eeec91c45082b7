/-!
Texts as bytes and back. Bytes that are not UTF-8 are no text.
-/

namespace Phrasebook.Text

def utf8 (s : String) : List UInt8 := s.toList.flatMap String.utf8EncodeChar

def ofUtf8? (bytes : List UInt8) : Option String := String.fromUTF8? ⟨bytes.toArray⟩

/-- The order of texts by their bytes in UTF-8 is the order by code points. -/
def before (s t : String) : Bool := decide (s < t)

end Phrasebook.Text
