import MetaCache.Key
import MetaCache.Record
import MetaCache.Store.Table
import MetaCache.Store.Tally

/-!
# Stores in memory

Records as they are, under their keys, for as long as the process lasts. Nothing can go wrong.
-/

namespace MetaCache.Store

structure Memory where
  records : Table Key Record
  hits : Nat
  misses : Nat
  deriving Inhabited

namespace Memory

def empty : Memory := ⟨.empty, 0, 0⟩

/-- Looks up a record, and counts the lookup. -/
def get (m : Memory) (key : Key) : Option Record × Memory :=
  match m.records.get? key with
  | some r => (some r, { m with hits := m.hits + 1 })
  | none => (none, { m with misses := m.misses + 1 })

def put (m : Memory) (key : Key) (r : Record) : Memory :=
  { m with records := m.records.put key r }

def tally (m : Memory) : Tally := ⟨m.hits, m.misses, m.records.size⟩

end Memory

end MetaCache.Store
