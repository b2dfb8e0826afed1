import MetaCache.Settings.Cache
import MetaCache.Store.Codec
import MetaCache.Store.Tally
import MetaCache.Store.Volume

/-!
# Stores that outlive the process

The contents lie at a place on disk, under the texts of their keys, and survive closing. Only an
open store answers. Opening is refused where no store can be, and for a map that is too large.

A lookup counts as a hit as soon as there is a value, even if that turns out to be corrupt.
-/

namespace MetaCache.Store

/-- What a store finds at its place. -/
inductive Ground
  /-- Nothing, or an empty file: a store can be made there. -/
  | vacant
  | store (volume : Volume)
  /-- Something else, or the way there is blocked. -/
  | unusable
  deriving Inhabited

/-- The place of a store. -/
structure Site where
  ground : Ground
  /-- Whether the path leads to anything. -/
  isPresent : Bool
  /-- Whether the path leads to a store once one is made there. -/
  leadsBack : Bool
  deriving Inhabited

namespace Site

/-- A place where nothing is, and where nothing is in the way. -/
def vacant : Site := ⟨.vacant, false, true⟩

/-- The volume there, which is empty if no store has been made. -/
def volume (s : Site) : Volume :=
  match s.ground with
  | .store volume => volume
  | _ => .empty

def contents (s : Site) : Contents := s.volume.contents

/-- The place with a volume in it. -/
def withVolume (s : Site) (volume : Volume) : Site := { s with ground := .store volume }

/-- The place once a store is made there. -/
def settled (s : Site) : Site := { s.withVolume s.volume with isPresent := s.leadsBack }

/-- Whether a store can be opened there. -/
def isUsable (s : Site) : Bool :=
  match s.ground with
  | .vacant => true
  | .store _ => s.leadsBack
  | .unusable => false

@[simp]
theorem contents_withVolume (s : Site) (volume : Volume) :
    (s.withVolume volume).contents = volume.contents := rfl

@[simp]
theorem contents_settled (s : Site) : s.settled.contents = s.contents := rfl

end Site

/-- What an operation says, and what it leaves behind. -/
abbrev Outcome (σ α : Type) := Except Error α × σ

structure Persistent where
  mapSizeMiB : UInt64
  site : Site
  isOpen : Bool
  /-- Whether it was tried to open the store. -/
  wasTried : Bool
  hits : Nat
  misses : Nat
  deriving Inhabited

namespace Persistent

/-- A closed store that nobody has used yet. -/
def ofSite (site : Site) (mapSizeMiB : UInt64) : Persistent :=
  ⟨mapSizeMiB, site, false, false, 0, 0⟩

/-- The size of the map in bytes. -/
def mapBytes (p : Persistent) : Nat := p.mapSizeMiB.toNat * CacheSettings.bytesPerMiB

/-- The pages of the map. A map of no size gets the least room there is. -/
def pageLimit (p : Persistent) : Nat := max p.mapBytes CacheSettings.bytesPerMiB / pageSize

/-- Larger maps find no place in the address space. -/
def largestMap : Nat := 85 * 0x10000000000

/-- Opens the store. An open store stays as it is. -/
def openStore (p : Persistent) : Outcome Persistent Unit :=
  if p.isOpen then (.ok (), p)
  else if UInt64.size ≤ p.mapBytes then
    (.error (.storage (.unavailable ("map size of " ++ toString p.mapSizeMiB ++ " MiB overflows"))),
      p)
  else if !p.site.isUsable then
    (.error (.storage (.unavailable "no store can be opened at the path")),
      { p with wasTried := true })
  else
    let p := { p with site := p.site.settled, wasTried := true }
    if largestMap < p.mapBytes then (.error (.storage (.unavailable "no room for the map")), p)
    else (.ok (), { p with isOpen := true })

/-- Closes the store. The contents stay, and so do the counts. -/
def closeStore (p : Persistent) : Persistent := { p with isOpen := false }

/-- Looks up a record. -/
def get (p : Persistent) (key : Key) : Outcome Persistent (Option Record) :=
  if p.isOpen then
    match p.site.contents.get? key.text with
    | some value =>
      ((decodeRecord key value).map some |>.mapError .storage, { p with hits := p.hits + 1 })
    | none => (.ok none, { p with misses := p.misses + 1 })
  else (.error (.storage .notOpen), p)

/-- Stores a record. A value for which there are too few pages is not stored. -/
def put (p : Persistent) (key : Key) (r : Record) : Outcome Persistent Unit :=
  if p.isOpen then
    match encodeRecord r with
    | .ok value =>
      match p.site.volume.put p.pageLimit key.text value with
      | some volume => (.ok (), { p with site := p.site.withVolume volume })
      | none => (.error (.storage (.transactionFailed "the map is full")), p)
    | .error what => (.error (.storage what), p)
  else (.error (.storage .notOpen), p)

/-- A closed store does not know how many entries it has. -/
def tally (p : Persistent) : Tally :=
  ⟨p.hits, p.misses, if p.isOpen then p.site.contents.size else 0⟩

/-- The store with bytes written past it, be it open or closed. -/
def putValue (p : Persistent) (key : String) (value : List UInt8) : Persistent :=
  { p with
    site := p.site.settled.withVolume (p.site.volume.putFreely key value)
    wasTried := true }

end Persistent

end MetaCache.Store
