import FalconAccount.Bytes.Hex.Lenient
import FalconAccount.Files.Error
import FalconAccount.Json.Record
import FalconAccount.Key
import FalconAccount.ProtocolError

/-!
# Key files

A key file is a JSON record with the two keys of an account in hexadecimal. Either may be missing or
blank.
-/

namespace FalconAccount

/-- The keys of an account, as far as they are known. -/
structure KeyFile where
  publicKey : Option PublicKey
  privateKey : Option PrivateKey
  deriving DecidableEq

inductive KeyFileError where
  | unreadable (path : String) (cause : OsError)
  | notText (path : String)
  | notJson
  | publicHex (cause : HexError)
  | privateHex (cause : HexError)
  | keySize (cause : KeySizeError)
  deriving DecidableEq, Repr

def KeyFileError.toFault : KeyFileError → Fault
  | .unreadable path cause => ⟨s!"reading {path}", [cause.message]⟩
  | .notText path => ⟨s!"reading {path}", ["stream did not contain valid UTF-8"]⟩
  | .notJson => .plain "invalid JSON"
  | .publicHex cause => ⟨"invalid public_key hex", [cause.message]⟩
  | .privateHex cause => ⟨"invalid private_key hex", [cause.message]⟩
  | .keySize cause => .plain cause.message

namespace KeyFile

/-- Reads one key; a blank text holds none. -/
def readKey {κ : Type} (badHex : HexError → KeyFileError) (ofBytes : Bytes → Except KeySizeError κ)
    (text : String) : Except KeyFileError (Option κ) :=
  let digits := Text.trim text.toList
  if digits.isEmpty then .ok none
  else do
    let bytes ← (Hex.read digits).mapError badHex
    let key ← (ofBytes bytes).mapError .keySize
    return some key

def texts? (content : Bytes) : Option (String × String) := do
  let record ← Json.record? ["public_key", "private_key"] (← Json.parse? content)
  let publicText ← record.optional "public_key" "" Json.string?
  let privateText ← record.optional "private_key" "" Json.string?
  some (publicText, privateText)

def ofTexts (publicText privateText : String) : Except KeyFileError KeyFile := do
  let publicKey ← readKey .publicHex PublicKey.ofBytes publicText
  let privateKey ← readKey .privateHex PrivateKey.ofBytes privateText
  return ⟨publicKey, privateKey⟩

def parse (text : String) : Except KeyFileError KeyFile :=
  match texts? (Bytes.ofString text) with
  | none => .error .notJson
  | some (publicText, privateText) => ofTexts publicText privateText

/-- The keys in the file at a path, given what reading the file gave. -/
def load (path : String) (content : Except OsError Bytes) : Except KeyFileError KeyFile :=
  match content with
  | .error e => .error (.unreadable path e)
  | .ok bytes =>
    match Utf8.decode bytes with
    | .error _ => .error (.notText path)
    | .ok cs => parse (String.ofList cs)

/-- The public key; `path` is where the file was. -/
def requirePublic (k : KeyFile) (path : String) : Except Fault PublicKey :=
  match k.publicKey with
  | some key => .ok key
  | none => .error (.plain s!"public key not found in {path}")

def describeKey : Option String → String
  | some key => s!"Some({key})"
  | none => "None"

/-- The keys, the private one hidden. -/
def describe (k : KeyFile) : String :=
  let publicText := describeKey (k.publicKey.map PublicKey.describe)
  let privateText := describeKey (k.privateKey.map PrivateKey.describe)
  s!"KeyFile \x7b public_key: {publicText}, private_key: {privateText} \x7d"

end KeyFile

end FalconAccount
