import MetaCache.Cache.Action
import MetaCache.Normalizer

/-!
# Reading through the cache

A lookup goes to the store first. What is not there, or no longer fresh, is fetched, normalized and
stored before it is returned. An app is resolved in three lookups, of which each takes its guid from
the record before.

A cache may be told to *ignore missing apps*. Then an app that the API does not know is stored as an
empty record, and on the way to an app whatever is missing counts as empty. Errors of transport and
of storage are never passed over.
-/

namespace MetaCache

open MetaCache.Remote MetaCache.Store

/-- What a cache is told in advance. -/
structure Cache where
  normalizer : Normalizer
  ignoresMissing : Bool
  deriving DecidableEq, Repr

/-- What a preload has found. -/
structure FillReport where
  /-- Apps stored. -/
  apps : Nat
  /-- Of these, apps with a space. -/
  spaces : Nat
  /-- Of these, apps whose space has an organization. -/
  organizations : Nat
  deriving DecidableEq, Repr, Inhabited

def FillReport.zero : FillReport := ⟨0, 0, 0⟩

namespace Cache

/-- The cache that settings ask for, if they can be used. -/
def ofSettings (s : CacheSettings) : Except Error Cache :=
  match s.validate with
  | .ok () =>
    .ok ⟨⟨s.baseTtlSecs.toNat * nanosPerSecond, s.suffixesToStrip⟩, s.ignoreMissingApps⟩
  | .error e => .error e

/-- Whether an error is passed over on the way to an app. -/
def tolerates (c : Cache) (e : Error) : Bool := c.ignoresMissing && e.isMissing

/-- Normalizes a record and stores it. The result is the record as stored. -/
def store (c : Cache) (key : Key) (r : Record) : Action Record := do
  let moment ← Action.moment
  let r := c.normalizer.normalize key.kind r moment.now moment.draw
  .deposit key r moment.now
  return r

/-- Fetches a record and stores it. A missing app leaves an empty record if the cache ignores
missing apps, and is an error all the same. -/
def refresh (c : Cache) (key : Key) : Action Record := do
  match ← Action.attempt (.fetch fun fetcher => fetcher.one key.kind key.guid) with
  | .ok r => c.store key r
  | .error e =>
    if key.kind = .app && c.tolerates e then
      let _ ← c.store key .empty
      .fail e
    else .fail e

/-- The record stored under a key if it is fresh. -/
def freshRecord? (key : Key) : Action (Option Record) := do
  match ← Action.onBackend (Backend.get key) with
  | none => return none
  | some r =>
    let moment ← Action.moment
    return if r.isFreshAt moment.now then some r else none

/-- The record of an entity, from the store or from the API. -/
def getEntity (c : Cache) (kind : Kind) (raw : String) : Action Record := do
  let key ← Action.ofExcept (Key.parse kind raw)
  match ← freshRecord? key with
  | some r => return r
  | none => c.refresh key

/-- The record of an entity on the way to an app. -/
def hop (c : Cache) (kind : Kind) (raw : String) : Action Record := do
  match ← Action.attempt (c.getEntity kind raw) with
  | .ok r => return r
  | .error e => if c.tolerates e then return .empty else .fail e

/-- An app with its space and its organization. Its own guid must spell one. -/
def resolveApp (c : Cache) (raw : String) : Action App := do
  let guid ← Action.ofExcept (Guid.canonicalize raw)
  let app ← c.hop .app guid.text
  let space ← c.hop .space app.spaceGuid
  let organization ← c.hop .organization space.organizationGuid
  return App.assemble guid.text app space organization

/-- Looks up the organization of a space, and counts it. -/
def countOrganization (c : Cache) (space : Record) (report : FillReport) : Action FillReport := do
  match ← Action.attempt (c.getEntity .organization space.organizationGuid) with
  | .ok _ => return { report with organizations := report.organizations + 1 }
  | .error e => if c.tolerates e then return report else .fail e

/-- Stores a listed app and looks up its space and its organization. -/
def preload (c : Cache) (report : FillReport) (listed : String × Record) : Action FillReport := do
  let key ← Action.ofExcept (Key.parse .app listed.1)
  let app ← c.store key listed.2
  let report := { report with apps := report.apps + 1 }
  let (space, report) ←
    match ← Action.attempt (c.getEntity .space app.spaceGuid) with
    | .ok space => pure (space, { report with spaces := report.spaces + 1 })
    | .error e => if c.tolerates e then pure (.empty, report) else .fail e
  c.countOrganization space report

/-- Stores all apps, and what they need, in advance. A backend that keeps nothing is left alone. -/
def fillAll (c : Cache) : Action FillReport := fun w s =>
  if s.backend.retains then
    (do
      let apps ← Action.fetch fun fetcher => fetcher.all .app
      apps.foldlM c.preload .zero : Action FillReport) w s
  else (.ok .zero, s)

end Cache

end MetaCache
