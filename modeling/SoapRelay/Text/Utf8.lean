/-!
# UTF-8 bytes of a text

`bytes` and `text?` are inverse to each other: `text?` answers exactly on well-formed UTF-8.
-/

namespace SoapRelay.Utf8

def bytes (s : String) : List UInt8 :=
  s.toByteArray.data.toList

/-- The text that a byte string encodes, if it is well-formed UTF-8. -/
def text? (bs : List UInt8) : Option String :=
  String.fromUTF8? bs.toByteArray

end SoapRelay.Utf8
