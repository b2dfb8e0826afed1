import MetaCache.Json.Fault

/-!
# Readers of JSON text

A reader takes the bytes that are left and ends with a value or a fault, and with the bytes that
are left then: also after a fault, because what follows a mismatch decides where it is reported.
-/

namespace MetaCache.Json

/-- The bytes ahead and the position reached. -/
structure Input where
  ahead : List UInt8
  position : Position
  deriving Repr

def Input.ofBytes (bytes : List UInt8) : Input := ⟨bytes, .start⟩

/-- How a reader ends. -/
inductive Reading (α : Type)
  | done (value : α) (rest : Input)
  | failed (fault : Fault) (rest : Input)
  deriving Repr

def Reader (α : Type) := Input → Reading α

namespace Reader

variable {α β : Type}

protected def pure (a : α) : Reader α := fun i => .done a i

protected def bind (r : Reader α) (f : α → Reader β) : Reader β := fun i =>
  match r i with
  | .done a rest => f a rest
  | .failed fault rest => .failed fault rest

instance : Monad Reader where
  pure := Reader.pure
  bind := Reader.bind

theorem pure_apply (a : α) (i : Input) : (pure a : Reader α) i = .done a i := rfl

theorem bind_apply (r : Reader α) (f : α → Reader β) (i : Input) :
    (r >>= f) i =
      match r i with
      | .done a rest => f a rest
      | .failed fault rest => .failed fault rest := rfl

/-- Fails without a position. -/
def mismatch (what : Mismatch) : Reader α := fun i => .failed (.ofMismatch what) i

/-- Fails at the position reached. -/
def failHere (what : Malformed) : Reader α := fun i =>
  .failed ⟨.malformed what, some i.position⟩ i

/-- Fails at the position behind the next byte, if there is one. -/
def failNext (what : Malformed) : Reader α := fun i =>
  match i.ahead with
  | [] => .failed ⟨.malformed what, some i.position⟩ i
  | b :: _ => .failed ⟨.malformed what, some (i.position.after b)⟩ i

/-- The next byte, which stays ahead. -/
def peek : Reader (Option UInt8) := fun i => .done i.ahead.head? i

/-- The next byte. At the end nothing moves. -/
def next : Reader (Option UInt8) := fun i =>
  match i.ahead with
  | [] => .done none i
  | b :: rest => .done (some b) ⟨rest, i.position.after b⟩

/-- Drops the next byte. -/
def advance : Reader Unit := fun i =>
  match i.ahead with
  | [] => .done () i
  | b :: rest => .done () ⟨rest, i.position.after b⟩

/-- Drops as many bytes as satisfy `p` and returns them. -/
def takeWhile (p : UInt8 → Bool) : Reader (List UInt8) := fun i =>
  let taken := i.ahead.takeWhile p
  .done taken ⟨i.ahead.dropWhile p, i.position.afterAll taken⟩

/-- A fault without a position counts where the reader has stopped. -/
def located (r : Reader α) : Reader α := fun i =>
  match r i with
  | .done a rest => .done a rest
  | .failed fault rest => .failed (fault.locate rest.position) rest

/-- Reads what stands between brackets, then the closing one with `close`. A fault inside comes
first, but `close` still moves on if it can. -/
def enclosed (inside : Reader α) (close : Reader Unit) : Reader α := fun i =>
  match inside i with
  | .done a rest =>
    match close rest with
    | .done _ rest => .done a rest
    | .failed fault rest => .failed fault rest
  | .failed fault rest =>
    match close rest with
    | .done _ rest => .failed fault rest
    | .failed _ rest => .failed fault rest

end Reader

end MetaCache.Json
