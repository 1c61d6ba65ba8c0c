/-! Texts and their bytes. A row of bytes is the text of at most one string. -/
namespace ServiceDirectory.Text

@[simp] theorem fromUTF8?_toByteArray (s : String) : String.fromUTF8? s.toByteArray = some s := by
  simp [String.fromUTF8?, s.isValidUTF8, String.fromUTF8]

theorem toByteArray_data_toList (b : ByteArray) : b.data.toList.toByteArray = b := by
  apply ByteArray.ext
  simp

/-- The bytes of a string from one offset to another, if they are a text. -/
def slice? (s : String) (start stop : Nat) : Option String :=
  String.fromUTF8? (s.toByteArray.extract start stop)

theorem slice?_left (a b : String) : slice? (a ++ b) 0 a.utf8ByteSize = some a := by
  have h : (a ++ b).toByteArray.extract 0 a.utf8ByteSize = a.toByteArray := by
    rw [String.toByteArray_append]
    exact ByteArray.extract_append_eq_left rfl
  rw [slice?, h, fromUTF8?_toByteArray]

theorem slice?_right (a b : String) :
    slice? (a ++ b) a.utf8ByteSize (a ++ b).utf8ByteSize = some b := by
  have h : (a ++ b).toByteArray.extract a.utf8ByteSize (a ++ b).utf8ByteSize = b.toByteArray := by
    rw [String.toByteArray_append, String.utf8ByteSize_append]
    exact ByteArray.extract_append_eq_right rfl rfl
  rw [slice?, h, fromUTF8?_toByteArray]

end ServiceDirectory.Text
