import ServiceDirectory.Codec.Frames
import ServiceDirectory.Failure
import ServiceDirectory.Json.Printer
import ServiceDirectory.Json.Reader

/-! Frames as bytes: the text of their JSON form, and back. -/
namespace ServiceDirectory

/-- Reads a value from bytes. -/
def decode {α : Type} (ofJson? : Json → Option α) (b : ByteArray) : Except Failure α :=
  match Json.read? b.data.toList >>= ofJson? with
  | some a => .ok a
  | none => .error (.malformed "the bytes spell no such value")

/-- The text of a value that holds no double. -/
def encode (j : Json) : ByteArray := j.bytes?.getD .empty

def ClientFrame.encode (f : ClientFrame) : ByteArray := ServiceDirectory.encode f.toJson

/-- The text with the entries of metadata in the order in which they are listed. -/
def ServerFrame.encodeIn (list : Listing) (f : ServerFrame) : ByteArray :=
  ServiceDirectory.encode (f.toJsonIn list)

def ServerFrame.encode (f : ServerFrame) : ByteArray := f.encodeIn Dictionary.entries

def ClientFrame.decode (b : ByteArray) : Except Failure ClientFrame :=
  ServiceDirectory.decode ClientFrame.ofJson? b

def ServerFrame.decode (b : ByteArray) : Except Failure ServerFrame :=
  ServiceDirectory.decode ServerFrame.ofJson? b

end ServiceDirectory
