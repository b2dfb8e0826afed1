import MetaCache.Error
import MetaCache.Guid
import MetaCache.Json.Decode

/-!
# Keys of entities

A key is a kind and a guid, so an app and a space with the same guid have different keys, and no key
exists for a text that spells no guid. The text of a key is the kind's segment, a slash and the
canonical guid.
-/

namespace MetaCache

/-- The guid that a text spells, or the reason why there is none. -/
def Guid.canonicalize (raw : String) : Except Error Guid :=
  match Guid.ofText? raw with
  | some guid => .ok guid
  | none => .error (.invalidGuid raw)

structure Key where
  kind : Kind
  guid : Guid
  deriving DecidableEq, Repr

namespace Key

/-- The key of the entity whose guid is spelled by `raw`. -/
def parse (kind : Kind) (raw : String) : Except Error Key :=
  (Guid.canonicalize raw).map (⟨kind, ·⟩)

/-- The text of a key. -/
def text (key : Key) : String := key.kind.segment ++ "/" ++ key.guid.text

instance : ToString Key := ⟨text⟩

/-- Keys are ordered by kind, then by the digits of the guid. -/
def precedes (a b : Key) : Bool :=
  a.kind.rank < b.kind.rank || a.kind.rank == b.kind.rank && decide (a.guid.digits < b.guid.digits)

/-- Keys in order, each of them once. -/
def sortUnique (keys : List Key) : List Key :=
  (keys.mergeSort fun a b => !b.precedes a).eraseDups

end Key

/-! ## Guids in documents -/

/-- The guid that a JSON string spells. A refusal has no position. -/
def Guid.decode (bytes : List UInt8) : Except Json.Fault Guid :=
  Json.readDocument (do
    let raw ← Json.Reader.ofSchema .string Json.nestingLimit
    match Guid.canonicalize raw with
    | .ok guid => pure guid
    | .error e => Json.Reader.mismatch (.refused e.message)) bytes

def Guid.encode (g : Guid) : String := Json.encode .string g.text

end MetaCache
