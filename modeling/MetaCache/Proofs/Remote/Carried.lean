import MetaCache.Proofs.Remote.Asked

/-!
# What answers carry

A record that a fetcher gives has been read out of an answer. Asked for one entity, the answer had
the entity in it (`readEntity_of_fetchOne`). In a list an entity may be named without a record, and
then it counts as empty, so what is listed falls into entries with a record and *bare* ones
(`entry_of_fetchAll`).
-/

namespace MetaCache.Remote

open MetaCache.Json

/-- A page's entry for an entity: its guid as the API spells it, and its record if there is one. -/
abbrev Entry := String × Option Record

/-- What is made of an entry: without a record it counts as empty. -/
def Entry.listed (entry : Entry) : String × Record := (entry.1, entry.2.getD .empty)

def entryOfData : resource.Carrier → Entry
  | ((guid, ()), entity, ()) => (guid, entity.join.map Record.ofData)

def entriesOfData : pageSchema.Carrier → List Entry
  | (_, resources, ()) => (resources.getD []).map entryOfData

/-- Reads the entries in the document of a page. -/
def readEntries (body : List UInt8) : Except Fault (List Entry) :=
  (Json.decode pageSchema body).map entriesOfData

/-- A page lists its entries. -/
theorem readEntries_of_readPage {body : List UInt8} {page : Page} (h : readPage body = .ok page) :
    ∃ entries, readEntries body = .ok entries ∧ page.listing = entries.map Entry.listed := by
  rw [readPage] at h
  cases hdata : Json.decode pageSchema body with
  | error fault => rw [hdata] at h; cases h
  | ok data =>
    rw [hdata] at h
    cases h
    refine ⟨entriesOfData data, by rw [readEntries, hdata]; rfl, ?_⟩
    show (data.2.1.getD []).map listed = ((data.2.1.getD []).map entryOfData).map Entry.listed
    rw [List.map_map]
    rfl

namespace Transport

variable {t : Transport}

/-- The answer to a path is a page with an entry. -/
def Lists (t : Transport) (path : String) (entry : Entry) : Prop :=
  ∃ response entries, t.answer path = .ok response ∧ response.isSuccess
    ∧ readEntries response.body = .ok entries ∧ entry ∈ entries

/-- **A record that is fetched stood in the answer.** -/
theorem readEntity_of_fetchOne {kind : Kind} {guid : Guid} {r : Record}
    (h : (t.fetchOne kind guid).answer = .ok r) :
    ∃ response, t.answer (entityPath kind guid.text) = .ok response ∧ response.isSuccess
      ∧ readEntity response.body = .ok (some r) := by
  simp only [fetchOne] at h
  split at h
  · cases h
  · next response hanswer =>
    split at h
    · cases h
    · split at h
      · cases h
      · next hsuccess =>
        split at h
        · cases h
        · split at h
          · next hread =>
            cases h
            exact ⟨response, hanswer, by simpa using hsuccess, hread⟩
          · cases h
          · cases h

/-- What is on a page of an answer was listed there. -/
theorem entry_of_pageOf {path : String} {page : Page} (h : pageOf path (t.answer path) = .ok page)
    {found : String × Record} (hfound : found ∈ page.listing) :
    ∃ entry, t.Lists path entry ∧ found = entry.listed := by
  cases hanswer : t.answer path with
  | error e => rw [hanswer] at h; cases h
  | ok response =>
    simp only [hanswer, pageOf] at h
    split at h
    · next hsuccess =>
      split at h
      · next hpage =>
        cases h
        obtain ⟨entries, hread, hlisting⟩ := readEntries_of_readPage hpage
        rw [hlisting] at hfound
        obtain ⟨entry, hentry, rfl⟩ := List.mem_map.1 hfound
        exact ⟨entry, ⟨response, entries, hanswer, hsuccess, hread, hentry⟩, rfl⟩
      · cases h
    · cases h

/-- What is found page after page was there before, or is listed on one of the pages asked for. -/
theorem entry_of_follow {pages : Nat} {asked : List String} {found all : List (String × Record)}
    {path : String} (h : (t.follow pages asked found path).answer = .ok all) :
    ∀ one ∈ all, one ∈ found ∨ ∃ p ∈ (t.follow pages asked found path).asked, ∃ entry,
      t.Lists p entry ∧ one = entry.listed := by
  -- By induction on the pages that may still be asked for; what is found on one page counts as
  -- found before on the next.
  induction pages generalizing asked found path with
  | zero => cases h
  | succ pages ih =>
    by_cases hmem : path ∈ asked
    · rw [follow_of_mem hmem] at h
      cases h
    · cases hpage : pageOf path (t.answer path) with
      | error e =>
        rw [follow_of_error hmem hpage] at h
        cases h
      | ok page =>
        have hasked : path ∈ asked ++ [path] :=
          List.mem_append_right _ (List.mem_singleton_self path)
        cases hnext : page.next with
        | none =>
          rw [follow_of_last hmem hpage hnext] at h ⊢
          cases h
          intro one hone
          exact (List.mem_append.1 hone).imp_right fun hone =>
            ⟨path, hasked, entry_of_pageOf hpage hone⟩
        | some next =>
          rw [follow_of_next hmem hpage hnext] at h ⊢
          intro one hone
          rcases ih h one hone with hbefore | hlater
          · exact (List.mem_append.1 hbefore).imp_right fun hone =>
              ⟨path, t.asked_subset_follow _ _ _ _ hasked, entry_of_pageOf hpage hone⟩
          · exact .inr hlater

/-- **A record that is found in a list was listed**, with the record or without one. -/
theorem entry_of_fetchAll {kind : Kind} {found : List (String × Record)}
    (h : (t.fetchAll kind).answer = .ok found) {one : String × Record} (hone : one ∈ found) :
    ∃ p ∈ (t.fetchAll kind).asked, ∃ entry, t.Lists p entry ∧ one = entry.listed :=
  (entry_of_follow h one hone).resolve_left List.not_mem_nil

end Transport

end MetaCache.Remote
