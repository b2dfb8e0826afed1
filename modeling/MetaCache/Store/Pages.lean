import MetaCache.Store.Table

/-!
# Pages

A persistent store lies in pages of 4096 bytes, and the map has a limited number of them. Nothing is
overwritten in place: each put is a *round* that writes the pages it changes to others and leaves
the old ones. A ledger in the store tells which round left which pages; they may be taken again from
the second round after that on, so that the state before the last round is still whole.

Small values lie on one page with the keys, a large value on a run of pages of its own. So a put
takes a page for the entries, one for the directory that tells where they are, one for the ledger,
and a run for a large value. It takes the lowest run of free pages that is long enough, or else
pages that were never used; when there are too few of those, the put is not done (`put`).
-/

namespace MetaCache.Store

/-- The bytes of a page. -/
def pageSize : Nat := 4096

/-- The bytes at the beginning of a run of pages that tell what it is. -/
def pageHeader : Nat := 16

/-- The pages of a run that holds so many bytes. -/
def runLength (size : Nat) : Nat := (pageHeader - 1 + size) / pageSize + 1

/-- The bytes of an entry besides its key and its value. -/
def entryHeader : Nat := 8

/-- The bytes of the largest entry that lies on the page of its key: two fit. -/
def largestEntry : Nat := (pageSize - pageHeader) / 2 - 2

/-- Whether a value has a run of its own. -/
def isLarge (keySize valueSize : Nat) : Bool := largestEntry < entryHeader + keySize + valueSize

/-- The bytes of a number in the ledger. -/
def wordSize : Nat := 8

/-- How many numbers of pages fit on one page of the ledger. -/
def pageRoom : Nat := (pageSize - pageHeader) / wordSize - 1

/-- The size of a note in the ledger: the pages, and how many they are. -/
def noteSize (count : Nat) : Nat := (count + 1) * wordSize

/-- A note in the ledger. -/
structure Note where
  /-- The round that left the pages. -/
  round : Nat
  /-- The pages, in increasing order. -/
  pages : List Nat
  /-- The run that the note itself takes if it is large. -/
  run : List Nat
  deriving DecidableEq, Repr, Inhabited

/-- Which pages of a store are in use. -/
structure Pages where
  /-- The last round. -/
  round : Nat
  /-- The first page that was never used. -/
  next : Nat
  /-- The page of the directory. -/
  directory : Nat
  /-- The page of the entries, if there are any. -/
  entries : Option Nat
  /-- The page of the ledger, if anything is noted. -/
  ledger : Option Nat
  /-- The notes in the ledger, in order of their rounds. -/
  notes : List Note
  /-- The runs of large values. -/
  runs : Table String (List Nat)
  deriving Inhabited

/-! ## Taking pages -/

/-- A round under way. -/
structure Round where
  number : Nat
  /-- The pages of the map. -/
  limit : Nat
  next : Nat
  /-- Free pages that may be taken, in increasing order, once notes were looked up. -/
  pool : Option (List Nat)
  /-- The round of the last note that was looked up. -/
  lookedUp : Nat
  /-- Pages that this round leaves. -/
  left : List Nat
  ledger : Option Nat
  /-- Whether the page of the ledger was taken in this round. -/
  ledgerIsNew : Bool
  notes : List Note

/-- A step of a round; nothing if there are too few pages. -/
abbrev RoundStep := StateT Round Option

/-- The lowest run of `count` pages, and the pages besides. -/
def takeRun? (count : Nat) : List Nat → Option (List Nat × List Nat)
  | [] => none
  | page :: pages =>
    if (page :: pages).take count = List.range' page count then
      some ((page :: pages).take count, (page :: pages).drop count)
    else (takeRun? count pages).map fun (run, others) => (run, page :: others)

namespace Round

/-- Takes pages that were never used. -/
def takeUnused (count : Nat) (r : Round) : Option (List Nat × Round) :=
  if r.limit ≤ r.next + count then none
  else some (List.range' r.next count, { r with next := r.next + count })

/-- Takes a run of pages, looking up one note after the other while none of those at hand will do;
`notes` are the notes not looked up yet. -/
def takeFrom (count : Nat) : List Note → Round → Option (List Nat × Round)
  | notes, r =>
    match takeRun? count (r.pool.getD []) with
    | some (run, others) => some (run, { r with pool := some others })
    | none =>
      match notes with
      | [] => r.takeUnused count
      | note :: rest =>
        if note.round + 1 < r.number then
          takeFrom count rest
            { r with pool := some ((r.pool.getD []).merge note.pages), lookedUp := note.round }
        else r.takeUnused count

end Round

/-- Takes a run of pages. -/
def take (count : Nat) : RoundStep (List Nat) := fun r =>
  r.takeFrom count (r.notes.filter fun note => r.lookedUp < note.round)

/-- Takes one page. -/
def takeOne : RoundStep Nat := do return (← take 1).headD 0

/-- Leaves pages. -/
def leave (pages : List Nat) : RoundStep Unit := modify fun r => { r with left := r.left ++ pages }

/-- Another page in the place of one. -/
def renew (page : Nat) : RoundStep Nat := do
  let fresh ← takeOne
  leave [page]
  return fresh

/-! ## Keeping the ledger -/

/-- Has a page of the ledger that can be written on, if there is one at all. -/
def openLedger : RoundStep Unit := do
  let r ← get
  match r.ledger with
  | some page =>
    if !r.ledgerIsNew then
      let page ← renew page
      modify fun r => { r with ledger := some page, ledgerIsNew := true }
  | none => pure ()

/-- Puts a note into a ledger, in the place of one for the same round. -/
def putNote (note : Note) (notes : List Note) : List Note :=
  notes.filter (·.round < note.round) ++ note :: notes.filter (note.round < ·.round)

/-- Takes the notes that were looked up out of the ledger. A ledger without notes has no page. -/
def strikeNotes : RoundStep Unit := do
  openLedger
  modify fun r =>
    let (struck, notes) := r.notes.partition (·.round ≤ r.lookedUp)
    let left := r.left ++ struck.flatMap (·.run)
    match notes, r.ledger with
    | [], some page => { r with notes, ledger := none, ledgerIsNew := false, left := left ++ [page] }
    | _, _ => { r with notes, left }

/-- Gives back pages that were taken in this round. -/
def giveBack (pages : List Nat) : RoundStep Unit := modify fun r =>
  match r.pool with
  | some pool => { r with pool := some (pool.merge pages) }
  | none => { r with left := r.left ++ pages }

/-- Makes room in the ledger for a note with `count` pages. -/
def reserve (round count : Nat) : RoundStep Unit := do
  match (← get).ledger with
  | some _ => openLedger
  | none =>
    let page ← takeOne
    modify fun r => { r with ledger := some page, ledgerIsNew := true }
  let old := (((← get).notes.find? (·.round = round)).map (·.run)).getD []
  let needed := if isLarge wordSize (noteSize count) then runLength (noteSize count) else 0
  let run ←
    if 0 < needed ∧ needed ≤ old.length then pure old
    else do
      giveBack old
      if needed = 0 then pure [] else take needed
  modify fun r => { r with notes := putNote ⟨round, List.replicate count 0, run⟩ r.notes }

/-- How far the ledger is kept. -/
structure Keeping where
  /-- The round of the last note that was struck. -/
  struck : Nat
  /-- How many pages that the round leaves are noted. -/
  noted : Nat
  /-- The round under which free pages are noted at the moment, and for how many there is room. -/
  head : Nat
  headRoom : Nat
  /-- For how many free pages there is room in all. -/
  room : Nat
  /-- How often room that turned out too large may be made anew. -/
  retries : Nat

namespace Keeping

/-- Room for free pages: how many go under the round at hand. What does not fit on one page of the
ledger is spread over earlier rounds. -/
def share (head count : Nat) : Nat :=
  if pageRoom < count ∧ 1 < head then
    count / head + (pageRoom - count / head % (pageRoom + 1))
  else count

/-- Notes what the round leaves, as long as noting leaves more. -/
def noteLeft : Nat → Keeping → RoundStep Keeping
  | 0, k => pure k
  | fuel + 1, k => do
    let count := (← get).left.length
    if k.noted < count then do
      reserve (← get).number count
      noteLeft fuel { k with noted := count }
    else pure k

/-- One more step of keeping; nothing when all is noted. -/
def step (k : Keeping) : RoundStep (Option Keeping) := do
  let r ← get
  if k.struck < r.lookedUp then
    strikeNotes
    let struck := (← get).lookedUp
    return some { k with struck, head := struck, headRoom := 0, room := 0 }
  else if k.noted < r.left.length then
    if k.noted = 0 then openLedger
    return some (← noteLeft (r.limit + 1) k)
  else
    let free := (r.pool.getD []).length
    if free ≤ k.room ∧ (k.room = free ∨ k.retries = 0) then return none
    else
      let retries := if free ≤ k.room then k.retries - 1 else k.retries
      let earlier := k.room < free ∧ pageRoom ≤ k.headRoom ∧ 1 < k.head
      let head := if earlier then k.head - 1 else k.head
      let room := k.room - (if earlier then 0 else k.headRoom)
      let headRoom := share head (free - room)
      reserve head headRoom
      return some { k with head, headRoom, room := room + headRoom, retries }

/-- Keeps the ledger, in a limited number of steps. -/
def keep : Nat → Keeping → RoundStep Unit
  | 0, _ => pure ()
  | fuel + 1, k => do
    match ← k.step with
    | some k => keep fuel k
    | none => pure ()

end Keeping

/-- Fills the room for free pages, the lowest pages first. -/
def fillNotes (lookedUp : Nat) : List Note → List Nat → List Note
  | [], _ => []
  | note :: notes, pool =>
    if note.round ≤ lookedUp then
      { note with pages := pool.take note.pages.length }
        :: fillNotes lookedUp notes (pool.drop note.pages.length)
    else note :: notes

/-- Brings the ledger up to date. -/
def keepLedger : RoundStep Unit := do
  let r ← get
  if r.pool.isSome then openLedger
  Keeping.keep (r.limit + 8) ⟨0, 0, 0, 0, 0, 1⟩
  modify fun r => { r with
    notes := (fillNotes r.lookedUp r.notes (r.pool.getD [])).map fun note =>
      if note.round = r.number then { note with pages := r.left.mergeSort } else note }

/-! ## Rounds -/

namespace Pages

/-- The pages of a store without entries: two that tell where the store begins, and its
directory. -/
def fresh : Pages := ⟨1, 3, 2, none, none, [], .empty⟩

/-- The steps of a put, with a page for the directory and one for the entries. -/
def putSteps (p : Pages) (key : String) (size : Nat) : RoundStep (Nat × Nat × List Nat) := do
  let (directory, entries) ←
    match p.entries with
    | some entries => do
      let directory ← renew p.directory
      let entries ← renew entries
      pure (some directory, entries)
    | none => pure (none, ← takeOne)
  leave ((p.runs.get? key).getD [])
  let run ← if isLarge key.utf8ByteSize size then take (runLength size) else pure []
  let directory ←
    match directory with
    | some directory => pure directory
    | none => renew p.directory
  keepLedger
  return (directory, entries, run)

/-- The pages after a put of a value of `size` bytes, if a map of `limit` pages has so many. -/
def put (p : Pages) (limit : Nat) (key : String) (size : Nat) : Option Pages :=
  let start : Round := {
    number := p.round + 1
    limit := max limit p.next
    next := p.next
    pool := none
    lookedUp := 0
    left := []
    ledger := p.ledger
    ledgerIsNew := false
    notes := p.notes }
  (p.putSteps key size start).map fun ((directory, entries, run), r) => {
    round := r.number
    next := r.next
    directory
    entries := some entries
    ledger := r.ledger
    notes := r.notes
    runs := p.runs.put key run }

end Pages

end MetaCache.Store
