import MetaCache.Store.Memory
import MetaCache.Store.Persistent

/-!
# Backends

A backend is one of three kinds of store. The disabled one keeps nothing: every lookup is in vain,
every put succeeds, and nothing is counted.
-/

namespace MetaCache.Store

inductive Backend
  | memory (store : Memory)
  | persistent (store : Persistent)
  | disabled
  deriving Inhabited

namespace Backend

/-- The backend that settings ask for, not yet open; `siteOf` tells what lies at a path. -/
def ofSettings (siteOf : String → Site) (s : CacheSettings) : Except Error Backend :=
  match s.backend with
  | .persistent =>
    match s.storagePath with
    | some path => .ok (.persistent (.ofSite (siteOf path) s.mapSizeMiB))
    | none => .error (.config (.missingRequired "storage_path"))
  | .memory => .ok (.memory .empty)
  | .disabled => .ok .disabled

/-- Whether anything that is put can be found again. -/
def retains : Backend → Bool
  | disabled => false
  | _ => true

def openStore : Backend → Outcome Backend Unit
  | persistent store => let (result, store) := store.openStore; (result, persistent store)
  | other => (.ok (), other)

def closeStore : Backend → Backend
  | persistent store => persistent store.closeStore
  | other => other

/-- Looks up a record. What is stored does not change. -/
def get (key : Key) : Backend → Outcome Backend (Option Record)
  | memory store => let (found, store) := store.get key; (.ok found, memory store)
  | persistent store => let (result, store) := store.get key; (result, persistent store)
  | disabled => (.ok none, disabled)

/-- Stores a record in the place of an older one. -/
def put (key : Key) (r : Record) : Backend → Outcome Backend Unit
  | memory store => (.ok (), memory (store.put key r))
  | persistent store => let (result, store) := store.put key r; (result, persistent store)
  | disabled => (.ok (), disabled)

def tally : Backend → Tally
  | memory store => store.tally
  | persistent store => store.tally
  | disabled => .zero

end Backend

end MetaCache.Store
