import MetaCache.Number.Binary64

/-!
# What a store counts

A lookup that finds an entry is a hit, whether the entry is of use or not; any other is a miss.
-/

namespace MetaCache.Store

open MetaCache.Number

structure Tally where
  hits : Nat
  misses : Nat
  /-- The number of entries at present. -/
  entries : Nat
  deriving DecidableEq, Repr, Inhabited

namespace Tally

def zero : Tally := ⟨0, 0, 0⟩

/-- All lookups, in 64 bits. -/
def lookups (t : Tally) : Nat := (t.hits + t.misses) % UInt64.size

/-- The share of hits among all lookups, a double. Without lookups it is zero. -/
def hitRate (t : Tally) : Magnitude :=
  let rate := do
    let hits ← Magnitude.ofNat? t.hits
    let lookups ← Magnitude.ofNat? t.lookups
    hits.div? lookups
  rate.getD .zero

end Tally

end MetaCache.Store
