import MetaCache.Error
import MetaCache.Json.Decode

/-!
# Settings of a cache

Settings say which store to use and how to treat what goes into it. Not all settings can be used;
`CacheSettings.problem?` finds the first thing wrong with them, in a fixed order.
-/

namespace MetaCache

/-- Where records are kept. -/
inductive BackendChoice
  | persistent
  | memory
  | disabled
  deriving DecidableEq, Repr, Inhabited

namespace BackendChoice

def name : BackendChoice → String
  | persistent => "persistent"
  | memory => "memory"
  | disabled => "disabled"

def schema : Schema := .choice [persistent.name, memory.name, disabled.name]

def ofData : schema.Carrier → BackendChoice
  | ⟨0, _⟩ => persistent
  | ⟨1, _⟩ => memory
  | _ => disabled

def toData : BackendChoice → schema.Carrier
  | persistent => ⟨0, by decide⟩
  | memory => ⟨1, by decide⟩
  | disabled => ⟨2, by decide⟩

theorem ofData_toData (choice : BackendChoice) : ofData choice.toData = choice := by
  cases choice <;> rfl

end BackendChoice

structure CacheSettings where
  backend : BackendChoice
  /-- Only the persistent store needs a path. -/
  storagePath : Option String
  /-- Apps that are missing count as empty ones. -/
  ignoreMissingApps : Bool
  /-- The lifetime of records before jitter. -/
  baseTtlSecs : UInt64
  suffixesToStrip : List String
  /-- The room for the persistent store, in mebibytes. -/
  mapSizeMiB : UInt64
  deriving DecidableEq, Repr

namespace CacheSettings

/-- The bytes of a mebibyte. -/
def bytesPerMiB : Nat := 1048576

/-- The room for the persistent store unless settings say otherwise. -/
def defaultMapSizeMiB : UInt64 := 64

/-- Settings of a store in memory. -/
def inMemory (ttlSecs : UInt64) : CacheSettings :=
  ⟨.memory, none, false, ttlSecs, [], defaultMapSizeMiB⟩

/-- Settings of a store at `path`. -/
def onDisk (path : String) (ttlSecs : UInt64) : CacheSettings :=
  { inMemory ttlSecs with backend := .persistent, storagePath := some path }

/-! ## What can be wrong -/

def ttlProblem? (s : CacheSettings) : Option ConfigError :=
  if s.baseTtlSecs = 0 then
    some (.invalidValue "base_ttl_secs" "0" "base_ttl_secs must be greater than 0")
  else none

/-- Only a persistent store needs a path, and then it may not be empty. -/
def pathProblem? (s : CacheSettings) : Option ConfigError :=
  if s.backend = .persistent then
    match s.storagePath with
    | none => some (.missingRequired "storage_path")
    | some path =>
      if path = "" then some (.invalidValue "storage_path" "" "storage_path must not be empty")
      else none
  else none

/-- The first empty suffix is reported by its place. -/
def suffixProblem? (s : CacheSettings) : Option ConfigError :=
  (s.suffixesToStrip.findIdx? (· = "")).map fun index =>
    .invalidValue ("name_suffixes_to_strip[" ++ toString index ++ "]") ""
      "suffixes must not be empty"

/-- The room must not be nothing, and its bytes must be countable in 64 bits. -/
def mapProblem? (s : CacheSettings) : Option ConfigError :=
  if s.mapSizeMiB = 0 then
    some (.invalidValue "map_size_mb" "0" "map_size_mb must be greater than 0")
  else if UInt64.size ≤ s.mapSizeMiB.toNat * bytesPerMiB then
    some (.invalidValue "map_size_mb" (toString s.mapSizeMiB)
      "map_size_mb overflows the address space")
  else none

/-- The first thing wrong with the settings. -/
def problem? (s : CacheSettings) : Option ConfigError :=
  s.ttlProblem? <|> s.pathProblem? <|> s.suffixProblem? <|> s.mapProblem?

def validate (s : CacheSettings) : Except Error Unit :=
  match s.problem? with
  | none => .ok ()
  | some problem => .error (.config problem)

/-! ## Documents -/

/-- The fields of settings in documents. -/
def fields : Fields :=
  .cons "backend" .required BackendChoice.schema <|
  .cons "storage_path" .mayBeAbsent (.optional (.text "path string")) <|
  .cons "ignore_missing_apps" .mayBeAbsent .flag <|
  .cons "base_ttl_secs" .required (.natural "u64") <|
  .cons "name_suffixes_to_strip" .mayBeAbsent (.list .string) <|
  .cons "map_size_mb" .mayBeAbsent (.natural "usize") .nil

def schema : Schema := .record "CacheSettings" true fields

def ofData : schema.Carrier → CacheSettings
  | (backend, storagePath, ignoreMissingApps, baseTtlSecs, suffixes, mapSize, ()) =>
    { backend := .ofData backend
      storagePath := storagePath.join
      ignoreMissingApps := ignoreMissingApps.getD false
      baseTtlSecs
      suffixesToStrip := suffixes.getD []
      mapSizeMiB := mapSize.getD defaultMapSizeMiB }

def toData (s : CacheSettings) : schema.Carrier :=
  (s.backend.toData, some s.storagePath, some s.ignoreMissingApps, s.baseTtlSecs,
    some s.suffixesToStrip, some s.mapSizeMiB, ())

theorem ofData_toData (s : CacheSettings) : ofData s.toData = s := by
  cases s with
  | mk backend _ _ _ _ _ => cases backend <;> rfl

def encode (s : CacheSettings) : String := Json.encode schema s.toData

def decode (bytes : List UInt8) : Except Json.Fault CacheSettings :=
  (Json.decode schema bytes).map ofData

end CacheSettings

end MetaCache
