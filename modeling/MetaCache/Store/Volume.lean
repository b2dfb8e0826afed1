import MetaCache.Store.Pages

/-!
# Volumes

A volume is what a persistent store has on disk: values under keys, and the pages they lie in. A put
that finds too few pages changes nothing (`put`); a put that is done changes one value
(`contents_put`).
-/

namespace MetaCache.Store

/-- Stored values under the texts of their keys. -/
abbrev Contents := Table String (List UInt8)

structure Volume where
  contents : Contents
  pages : Pages
  deriving Inhabited

namespace Volume

/-- A volume without values. -/
def empty : Volume := ⟨.empty, .fresh⟩

/-- Puts a value under a key, in a map of `limit` pages. -/
def put (v : Volume) (limit : Nat) (key : String) (value : List UInt8) : Option Volume :=
  (v.pages.put limit key value.length).map fun pages => ⟨v.contents.put key value, pages⟩

/-- Puts a value under a key, whatever room it takes. -/
def putFreely (v : Volume) (key : String) (value : List UInt8) : Volume :=
  let limit := v.pages.next + 2 * runLength value.length + v.pages.notes.length + pageRoom
  ⟨v.contents.put key value, (v.pages.put limit key value.length).getD v.pages⟩

theorem contents_put {v v' : Volume} {limit : Nat} {key : String} {value : List UInt8}
    (h : v.put limit key value = some v') : v'.contents = v.contents.put key value := by
  obtain ⟨pages, _, rfl⟩ := Option.map_eq_some_iff.1 h
  rfl

end Volume

end MetaCache.Store
