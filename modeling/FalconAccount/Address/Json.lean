import FalconAccount.Address
import FalconAccount.Json.Record
import FalconAccount.Json.Writer

/-!
# Addresses in JSON

An address is a string that holds its text form.
-/

namespace FalconAccount.Address

def ofJson? (text : String) : Option Address := do
  let text ← Json.string? (← Json.parse? (Bytes.ofString text))
  (Address.parse text).toOption

def toJson (a : Address) : String := Json.writeString a.text

end FalconAccount.Address
