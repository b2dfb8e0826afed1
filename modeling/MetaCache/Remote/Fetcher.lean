import MetaCache.Guid
import MetaCache.Remote.Response

/-!
# Fetching entities

A fetcher gives the record of one entity, or the whole list of a kind. How it does so is its own
affair, except that it tells which paths it asked the API for.

The fetcher of an API follows the cursors of a list from page to page. It never asks for a path
twice: a cursor that comes again is an error. Since the answers of a transport have only so many
cursors, the list comes to an end.
-/

namespace MetaCache.Remote

/-- What a fetcher found, and the paths it asked for in order. -/
structure Reply (α : Type) where
  answer : Except Error α
  asked : List String

structure Fetcher where
  /-- The record of one entity. -/
  one : Kind → Guid → Reply Record
  /-- All entities of a kind under their guids as the API spells them. -/
  all : Kind → Reply (List (String × Record))

/-- The page that an answer is, if it is one. -/
def pageOf (path : String) (answer : Except Error Response) : Except Error Page :=
  match answer with
  | .error e => .error e
  | .ok response =>
    if response.isSuccess then
      match readPage response.body with
      | .ok page => .ok page
      | .error fault => .error (.remote (.decode (path ++ ": " ++ fault.message)))
    else .error (.remote (.badStatus path response.status))

/-- The cursor that an answer names. -/
def cursorOf (answer : Except Error Response) : Option String :=
  match answer with
  | .error _ => none
  | .ok response =>
    if response.isSuccess then
      match readPage response.body with
      | .ok page => page.next
      | .error _ => none
    else none

/-- Whatever moves requests and answers. -/
structure Transport where
  answer : String → Except Error Response
  /-- All cursors that answers can name. -/
  cursors : List String
  cursorOf_mem : ∀ {path cursor : String}, cursorOf (answer path) = some cursor → cursor ∈ cursors

namespace Transport

/-- Asks for one entity. Not found is a status of its own, a blank body, or no entity in it. -/
def fetchOne (t : Transport) (kind : Kind) (guid : Guid) : Reply Record :=
  let path := entityPath kind guid.text
  let notFound : Error := .remote (.notFound kind guid.text)
  let answer : Except Error Record :=
    match t.answer path with
    | .error e => .error e
    | .ok response =>
      if response.status = 404 then .error notFound
      else if !response.isSuccess then .error (.remote (.badStatus path response.status))
      else if response.body.all isBlank then .error notFound
      else
        match readEntity response.body with
        | .ok (some r) => .ok r
        | .ok none => .error notFound
        | .error fault => .error (.remote (.decode (path ++ ": " ++ fault.message)))
  ⟨answer, [path]⟩

/-- A cursor came again. -/
def repeated (path : String) : Error :=
  .remote (.decode ("pagination cursor repeated: " ++ path))

/-- Follows the cursors from `path` on through at most `pages` pages; `asked` and `found` are
behind. After as many pages as there are paths to ask for, any further one is a repetition. -/
def follow (t : Transport) :
    Nat → List String → List (String × Record) → String → Reply (List (String × Record))
  | 0, asked, _, path => ⟨.error (repeated path), asked⟩
  | pages + 1, asked, found, path =>
    if path ∈ asked then ⟨.error (repeated path), asked⟩
    else
      match pageOf path (t.answer path) with
      | .error e => ⟨.error e, asked ++ [path]⟩
      | .ok page =>
        let found := found ++ page.listing
        match page.next with
        | none => ⟨.ok found, asked ++ [path]⟩
        | some next => follow t pages (asked ++ [path]) found next

/-- Asks for all pages of a list. -/
def fetchAll (t : Transport) (kind : Kind) : Reply (List (String × Record)) :=
  t.follow (t.cursors.length + 1) [] [] (listPath kind)

/-- The fetcher that asks by `t`. -/
def fetcher (t : Transport) : Fetcher := ⟨t.fetchOne, t.fetchAll⟩

/-- The cursors of finitely many answers, of which every path gets one. -/
def ofAnswers (answers : List (Except Error Response)) (pick : String → Except Error Response)
    (picks : ∀ path, pick path ∈ answers) : Transport where
  answer := pick
  cursors := answers.filterMap cursorOf
  cursorOf_mem := fun h => List.mem_filterMap.2 ⟨_, picks _, h⟩

end Transport

end MetaCache.Remote
