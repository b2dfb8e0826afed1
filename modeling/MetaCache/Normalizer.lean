import MetaCache.Kind
import MetaCache.Number.Binary64
import MetaCache.Record

/-!
# What happens to a record before it is stored

Two things. The name of an app loses the first of some configured suffixes that it ends with, once.
And every record gets an expiry, a *jittered* lifetime after the present: records that were fetched
together would otherwise expire together.

The lifetime is the configured one times a factor between three quarters and five quarters, which
is computed in doubles from a 64-bit draw. A lifetime too long for the calendar ends at the last
instant.
-/

namespace MetaCache

open MetaCache.Number

/-- The settings of normalization: the lifetime of a record in nanoseconds, and the suffixes. -/
structure Normalizer where
  lifetime : Nat
  suffixes : List String
  deriving DecidableEq, Repr

namespace Normalizer

/-- What is left of `name` without `suffix`, if it ends with it. -/
def dropSuffix? (suffix name : String) : Option String :=
  if suffix.toList.isSuffixOf name.toList then
    some (String.ofList (name.toList.take (name.toList.length - suffix.toList.length)))
  else none

/-- The name without the first configured suffix that it ends with. -/
def stripName (n : Normalizer) (name : String) : String :=
  (n.suffixes.findSome? (dropSuffix? · name)).getD name

/-- The factor that a draw stands for. The upper 52 bits of the draw are the digits of a number
below one; half of it is added to three quarters. -/
def jitter? (draw : UInt64) : Option Magnitude :=
  Magnitude.nearest? (draw.toNat / 0x1000 + 0x18000000000000) 0x20000000000000

/-- The lifetime in seconds. -/
def seconds? (n : Normalizer) : Option Magnitude := do
  let whole ← Magnitude.ofNat? (n.lifetime / nanosPerSecond)
  let part ← Magnitude.nearest? (n.lifetime % nanosPerSecond) nanosPerSecond
  whole.add? part

/-- The jittered lifetime in nanoseconds. -/
def jitteredLifetime? (n : Normalizer) (draw : UInt64) : Option Nat := do
  let product ← (← n.seconds?).mul? (← jitter? draw)
  return product.timesRounded nanosPerSecond

/-- When a record that is stored now expires. -/
def expiry (n : Normalizer) (now : Timestamp) (draw : UInt64) : Timestamp :=
  (n.jitteredLifetime? draw).elim .last now.plus

/-- The record as it is stored. -/
def normalize (n : Normalizer) (kind : Kind) (r : Record) (now : Timestamp) (draw : UInt64) :
    Record :=
  { r with
    name := if kind = .app then n.stripName r.name else r.name
    expiresAt := n.expiry now draw }

end Normalizer

end MetaCache
