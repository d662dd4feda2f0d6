import DeviceTelemetry.Bytes

/-!
# Text

The bytes of a text, its longest whole-character beginning within a number of bytes, and the
padding of columns.
-/

set_option autoImplicit false

namespace DeviceTelemetry.Text

def encode (cs : List Char) : Bytes := cs.flatMap String.utf8EncodeChar

theorem encode_cons (c : Char) (cs : List Char) :
    encode (c :: cs) = String.utf8EncodeChar c ++ encode cs :=
  List.flatMap_cons

theorem encode_append (cs ds : List Char) : encode (cs ++ ds) = encode cs ++ encode ds :=
  List.flatMap_append

theorem length_encode_cons (c : Char) (cs : List Char) :
    (encode (c :: cs)).length = c.utf8Size + (encode cs).length := by
  rw [encode_cons, List.length_append, String.length_utf8EncodeChar]

def bytes (s : String) : Bytes := encode s.toList

def byteLength (s : String) : Nat := (bytes s).length

def takeBytes (limit : Nat) : List Char → List Char
  | [] => []
  | c :: cs => if c.utf8Size ≤ limit then c :: takeBytes (limit - c.utf8Size) cs else []

/-- The longest beginning of a text that ends between two characters and has at most `limit`
bytes. -/
def truncate (s : String) (limit : Nat) : String :=
  String.ofList (takeBytes limit s.toList)

/-- Fills a text with blanks on the right up to a width in characters. -/
def padRight (width : Nat) (s : String) : String :=
  s ++ String.ofList (List.replicate (width - s.length) ' ')

def padLeft (width : Nat) (s : String) : String :=
  String.ofList (List.replicate (width - s.length) ' ') ++ s

end DeviceTelemetry.Text
