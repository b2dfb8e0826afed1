import MetaCache.Proofs.Remote.Carried
import MetaCache.Proofs.Store.Codec

/-!
# Records that the API has answered

Whatever a transport answers, a record that a fetcher takes out of it stood inside other containers
and so nests less deep than a document may. If its numbers are whole as well, it can be stored
(`storable_of_fetched`, `storable_of_listed`).
-/

namespace MetaCache.Remote

open MetaCache.Json

/-- No number in a record that the fetcher gives is a double. -/
structure Fetcher.IsExact (f : Fetcher) : Prop where
  one : ∀ {kind guid r}, (f.one kind guid).answer = .ok r → r.environment.toValue.isExact
  all : ∀ {kind found}, (f.all kind).answer = .ok found →
    ∀ listed ∈ found, listed.2.environment.toValue.isExact

/-- An API that lists nothing and knows no entity. -/
def Fetcher.unknowing : Fetcher where
  one kind guid := ⟨.error (.remote (.notFound kind guid.text)), []⟩
  all _ := ⟨.ok [], []⟩

/-- The environment nests as deep as that of a stored record may. -/
def Nested (r : Record) : Prop := r.environment.Within Record.environmentLevels

theorem nested_empty : Nested .empty := by
  show Value.depth _ ≤ _
  decide

theorem nested_of_nests {levels : Nat} {data : Record.schema.Carrier}
    (h : Record.schema.Nests Object.Within (levels + 1) data) (hpos : 0 < levels)
    (hle : levels ≤ Record.environmentLevels) : Nested (.ofData data) :=
  Nat.le_trans (Record.within_of_nests h hpos) hle

theorem nested_readEntity {body : List UInt8} {r : Record}
    (h : readEntity body = .ok (some r)) : Nested r := by
  rw [readEntity] at h
  cases hdata : Json.decode envelope body with
  | error fault => rw [hdata] at h; cases h
  | ok data =>
    obtain ⟨hentity, -⟩ : envelope.Nests Object.Within (126 + 1) data := nests_of_decode hdata
    obtain ⟨entity, _⟩ := data
    rw [hdata] at h
    obtain ⟨content, hcontent, rfl⟩ := Option.map_eq_some_iff.1 (Except.ok.inj h)
    obtain rfl := Option.join_eq_some_iff.1 hcontent
    exact nested_of_nests (hentity _ rfl content rfl) (by decide) (by decide)

theorem nested_readEntries {body : List UInt8} {entries : List Entry}
    (h : readEntries body = .ok entries) : ∀ entry ∈ entries, ∀ r ∈ entry.2, Nested r := by
  rw [readEntries] at h
  cases hdata : Json.decode pageSchema body with
  | error fault => rw [hdata] at h; cases h
  | ok data =>
    obtain ⟨-, hresources, -⟩ : pageSchema.Nests Object.Within (126 + 1) data := nests_of_decode hdata
    obtain ⟨next, resources, _⟩ := data
    rw [hdata] at h
    cases h
    intro entry hentry r hr
    obtain ⟨data, hdata, rfl⟩ := List.mem_map.1 hentry
    obtain ⟨⟨guid, _⟩, entity, _⟩ := data
    obtain ⟨content, hcontent, rfl⟩ := Option.map_eq_some_iff.1 hr
    obtain rfl := Option.join_eq_some_iff.1 hcontent
    cases resources with
    | none => exact absurd hdata List.not_mem_nil
    | some resources =>
      obtain ⟨-, hentity, -⟩ : resource.Nests Object.Within (124 + 1)
        ((guid, ()), some (some content), ()) := hresources _ rfl _ hdata
      exact nested_of_nests (hentity _ rfl content rfl) (by decide) (by decide)

theorem nested_listed {entry : Entry} (h : ∀ r ∈ entry.2, Nested r) : Nested entry.listed.2 := by
  obtain ⟨raw, entity⟩ := entry
  cases entity with
  | none => exact nested_empty
  | some r => exact h r rfl

namespace Transport

variable (t : Transport)

theorem nested_fetchOne {kind : Kind} {guid : Guid} {r : Record}
    (h : (t.fetchOne kind guid).answer = .ok r) : Nested r := by
  obtain ⟨response, -, -, hread⟩ := readEntity_of_fetchOne h
  exact nested_readEntity hread

theorem nested_fetchAll {kind : Kind} {found : List (String × Record)}
    (h : (t.fetchAll kind).answer = .ok found) : ∀ listed ∈ found, Nested listed.2 := by
  intro one hone
  obtain ⟨path, -, entry, ⟨response, entries, -, -, hread, hentry⟩, rfl⟩ := entry_of_fetchAll h hone
  exact nested_listed (nested_readEntries hread entry hentry)

/-- **An entity that was fetched can be stored** if its numbers are whole. -/
theorem storable_of_fetched (hexact : t.fetcher.IsExact) {kind : Kind} {guid : Guid} {r : Record}
    (h : (t.fetcher.one kind guid).answer = .ok r) : r.Storable :=
  ⟨hexact.one h, t.nested_fetchOne h⟩

theorem storable_of_listed (hexact : t.fetcher.IsExact) {kind : Kind}
    {found : List (String × Record)} (h : (t.fetcher.all kind).answer = .ok found) :
    ∀ listed ∈ found, listed.2.Storable := fun listed hl =>
  ⟨hexact.all h listed hl, t.nested_fetchAll h listed hl⟩

end Transport

end MetaCache.Remote
