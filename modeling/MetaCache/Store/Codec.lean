import MetaCache.Key
import MetaCache.Number.LittleEndian
import MetaCache.Record

/-!
# Records as stored bytes

A stored value is a header of twelve bytes and the document of the record. The header is the expiry
in milliseconds since the epoch, eight bytes, and the size of the document, four bytes, both least
significant byte first. Whatever does not have exactly this shape is corrupt.
-/

namespace MetaCache.Store

open MetaCache.Number

/-- Ways of not being a stored value. -/
inductive Corruption
  | noHeader
  | expiryOutOfRange
  | wrongSize
  | badDocument (fault : Json.Fault)
  deriving DecidableEq, Repr

def Corruption.message : Corruption → String
  | .noHeader => "value shorter than header"
  | .expiryOutOfRange => "expiry out of range"
  | .wrongSize => "payload length mismatch"
  | .badDocument fault => fault.message

/-- The bytes of the expiry in a header. -/
def expirySize : Nat := 8

/-- The bytes of the document's size in a header. -/
def sizeSize : Nat := 4

def headerSize : Nat := expirySize + sizeSize

/-- A value from its header and its document. -/
def frame (expiryMillis : Int) (document : List UInt8) : List UInt8 :=
  signedBytes expirySize expiryMillis ++ naturalBytes sizeSize document.length ++ document

/-- The stored value of a record. The length of its document must fit into the header. -/
def encodeRecord (r : Record) : Except StorageError (List UInt8) :=
  let document := Json.bytesOf r.encode
  if document.length < capacity sizeSize then .ok (frame r.expiresAt.millis document)
  else
    .error (.serialization ("record too large: " ++ toString document.length ++ " bytes"))

/-- The record that a stored value holds. -/
def readValue (bytes : List UInt8) : Except Corruption Record :=
  if bytes.length < headerSize then .error .noHeader
  else
    match Timestamp.ofMillis? (signed (bytes.take expirySize)) with
    | none => .error .expiryOutOfRange
    | some expiresAt =>
      let size := natural ((bytes.drop expirySize).take sizeSize)
      let document := bytes.drop headerSize
      if document.length ≠ size then .error .wrongSize
      else
        match Record.decode document with
        | .ok r => .ok { r with expiresAt }
        | .error fault => .error (.badDocument fault)

/-- The record that the value under `key` holds. What is wrong with it is told along with the
key. -/
def decodeRecord (key : Key) (bytes : List UInt8) : Except StorageError Record :=
  match readValue bytes with
  | .ok r => .ok r
  | .error what => .error (.corrupt key.text what.message)

end MetaCache.Store
