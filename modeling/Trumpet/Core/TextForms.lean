import Trumpet.Core.TaskTypes
import Trumpet.Lib.Base64
import Trumpet.Lib.Rfc3339

/-! The text forms that other crates give to instants and bytes. -/

namespace Trumpet

/-- RFC 3339 instants and standard base64, of which it is used that reading
inverts writing. -/
structure TextForms where
  time : DateTime → String
  parseTime : String → Option DateTime
  parseTime_time : ∀ t, parseTime (time t) = some t
  base64 : List UInt8 → String
  parseBase64 : String → Option (List UInt8)
  parseBase64_base64 : ∀ bytes, parseBase64 (base64 bytes) = some bytes

namespace TextForms

/-- The forms `chrono` and `base64` write, and no other. -/
def plain : TextForms where
  time t := String.ofList (Rfc3339.write t)
  parseTime s := Rfc3339.read s.toList
  parseTime_time t := by rw [String.toList_ofList, Rfc3339.read_write]
  base64 bytes := String.ofList (Base64.encode bytes)
  parseBase64 s := Base64.decode? s.toList
  parseBase64_base64 bytes := by rw [String.toList_ofList, Base64.decode?_encode]

end TextForms

end Trumpet
