import MetaCache.Proofs.Guid.Spellings
import MetaCache.Proofs.Json.Encoding

/-!
# Canonical guids

A text is taken as a guid exactly if it spells one, and what is shown of it afterwards is the
lowercase hyphenated form of the same digits (`canonicalize_iff_spells`). In a document a guid is a
JSON string with such content, and nothing else is read as one (`decode_iff`).
-/

namespace MetaCache

open MetaCache.Json MetaCache.Text

namespace Guid

/-! ## Texts -/

theorem canonicalize_eq_ok_iff {raw : String} {g : Guid} :
    canonicalize raw = .ok g ↔ ∃ digits, g.HasDigits digits ∧ Spells digits raw.toList := by
  rw [← ofText?_eq_some_iff, canonicalize]
  cases ofText? raw <;> simp

/-- What spells a guid is accepted as the guid that has the digits. -/
theorem canonicalize_of_spells {raw : String} {digits : List Char} (hdigits : IsDigits digits)
    (h : Spells digits raw.toList) : ∃ g, canonicalize raw = .ok g ∧ g.HasDigits digits := by
  obtain ⟨g, hg⟩ := hdigits.exists_hasDigits
  exact ⟨g, canonicalize_eq_ok_iff.2 ⟨digits, hg, h⟩, hg⟩

theorem exists_spells_iff {raw : String} :
    (∃ g, canonicalize raw = .ok g) ↔ ∃ digits, IsDigits digits ∧ Spells digits raw.toList := by
  constructor
  · rintro ⟨g, hg⟩
    obtain ⟨digits, hdigits, h⟩ := canonicalize_eq_ok_iff.1 hg
    exact ⟨digits, hdigits.isDigits, h⟩
  · rintro ⟨digits, hdigits, h⟩
    obtain ⟨g, hg, -⟩ := canonicalize_of_spells hdigits h
    exact ⟨g, hg⟩

/-! ## Documents -/

/-- The reader of a guid. -/
def read : Reader Guid := do
  let raw ← Reader.ofSchema .string nestingLimit
  match canonicalize raw with
  | .ok guid => pure guid
  | .error e => Reader.mismatch (.refused e.message)

theorem decode_eq (bytes : List UInt8) : decode bytes = readDocument read bytes := rfl

theorem read_exact (cs : List Char) : Reader.Holds read
    (fun m g => ∃ raw, m = .string (some raw) ∧ canonicalize raw = .ok g) cs := by
  refine ((Reader.ofSchema_exact .string nestingLimit cs).bind
    (S := fun raw mid g rest => canonicalize raw = .ok g ∧ rest = mid) fun raw mid _ => ?_).congr
    fun g rest => ?_
  · cases canonicalize raw with
    | ok guid => exact (Exact.pure guid mid).congr fun g rest => by simp [eq_comm]
    | error e => exact (Exact.never (.mismatch _) mid).congr fun g rest => by simp
  · constructor
    · rintro ⟨raw, _, ⟨m, htext, rfl⟩, hraw, rfl⟩
      exact ⟨_, htext, raw, rfl, hraw⟩
    · rintro ⟨_, htext, raw, rfl, hraw⟩
      exact ⟨raw, rest, ⟨_, htext, rfl⟩, hraw, rfl⟩

theorem read_takesText : Reader.TakesText read :=
  Reader.TakesText.bind (Reader.text_takesText _) fun raw => by
    cases canonicalize raw with
    | ok guid => exact Reader.TakesText.pure guid
    | error e => exact Reader.TakesText.mismatch _

/-- A text decodes to a guid exactly if it is a string that spells the guid. -/
theorem decode_text_iff {text : String} {g : Guid} : decode (bytesOf text) = .ok g
    ↔ ∃ raw, Document text.toList (.string (some raw)) ∧ canonicalize raw = .ok g := by
  rw [decode_eq, readDocument_ok_iff (read_exact text.toList)]
  constructor
  · rintro ⟨rest, ⟨_, htext, raw, rfl, hraw⟩, hblank⟩
    exact ⟨raw, ⟨rest, htext, hblank⟩, hraw⟩
  · rintro ⟨raw, ⟨rest, htext, hblank⟩, hraw⟩
    exact ⟨rest, ⟨_, htext, raw, rfl, hraw⟩, hblank⟩

/-- **Only JSON strings whose content is accepted are read as guids**, among all bytes. -/
theorem decode_iff {bytes : List UInt8} {g : Guid} : decode bytes = .ok g
    ↔ ∃ text raw, bytes = bytesOf text ∧ Document text.toList (.string (some raw))
      ∧ canonicalize raw = .ok g := by
  constructor
  · intro h
    obtain ⟨text, rfl⟩ := exists_text_of_readDocument read_takesText h
    obtain ⟨raw, hraw⟩ := decode_text_iff.1 h
    exact ⟨text, raw, rfl, hraw⟩
  · rintro ⟨text, raw, rfl, hraw⟩
    exact decode_text_iff.2 ⟨raw, hraw⟩

theorem decode_encode (g : Guid) : decode (bytesOf g.encode) = .ok g := by
  refine decode_text_iff.2 ⟨g.text, ?_, canonicalize_text g⟩
  have hwritten := document_write (v := .string g.text) rfl
  have hencode : g.encode = String.ofList (Value.string g.text).write := rfl
  rwa [hencode, String.toList_ofList]

/-! ## Spelling and showing guids -/

theorem canonicalize_error_iff {raw : String} {e : Error} :
    canonicalize raw = .error e
      ↔ e = .invalidGuid raw ∧ ¬ ∃ digits, IsDigits digits ∧ Spells digits raw.toList := by
  rw [← exists_spells_iff]
  constructor
  · intro h
    refine ⟨canonicalize_error h, ?_⟩
    rintro ⟨g, hg⟩
    rw [hg] at h
    cases h
  · rintro ⟨rfl, h⟩
    cases hraw : canonicalize raw with
    | ok g => exact absurd ⟨g, hraw⟩ h
    | error e => rw [canonicalize_error hraw]

/-- **What spells a guid is taken as one, is shown by its digits and is read from documents.** The
texts that are accepted are those that 32 digits spell, and every other one is in the error. What is
accepted is shown in lowercase and groups, which are accepted as the same guid again, and by the
digits it is told which guid it is. The documents that are accepted are the strings of such content,
and what is written for a guid is one of them. -/
theorem canonicalize_iff_spells :
    (∀ raw, (∃ g, canonicalize raw = .ok g) ↔ ∃ digits, IsDigits digits ∧ Spells digits raw.toList)
      ∧ (∀ raw e, canonicalize raw = .error e
          ↔ e = .invalidGuid raw ∧ ¬ ∃ digits, IsDigits digits ∧ Spells digits raw.toList)
      ∧ (∀ raw digits g, IsDigits digits → Spells digits raw.toList → canonicalize raw = .ok g →
          IsCanonical g.text ∧ g.text.toList = hyphenate (digits.map Char.toLower)
            ∧ canonicalize g.text = .ok g)
      ∧ (∀ raw raw' digits digits', IsDigits digits → IsDigits digits' →
          Spells digits raw.toList → Spells digits' raw'.toList →
          (canonicalize raw = canonicalize raw'
            ↔ digits.map Char.toLower = digits'.map Char.toLower))
      ∧ (∀ bytes g, decode bytes = .ok g ↔ ∃ text raw, bytes = bytesOf text
          ∧ Document text.toList (.string (some raw)) ∧ canonicalize raw = .ok g)
      ∧ ∀ g, decode (bytesOf g.encode) = .ok g := by
  refine ⟨fun _ => exists_spells_iff, fun _ _ => canonicalize_error_iff, ?_, ?_,
    fun _ _ => decode_iff, decode_encode⟩
  · intro raw digits g hdigits h hg
    obtain ⟨g', hg', hhas⟩ := canonicalize_of_spells hdigits h
    obtain rfl := Except.ok.inj (hg.symm.trans hg')
    exact ⟨isCanonical_text g, hhas.text, canonicalize_text g⟩
  · intro raw raw' digits digits' hdigits hdigits' h h'
    obtain ⟨g, hg, hhas⟩ := canonicalize_of_spells hdigits h
    obtain ⟨g', hg', hhas'⟩ := canonicalize_of_spells hdigits' h'
    rw [hg, hg', Except.ok.injEq, hhas.eq_iff hhas']

/-- A urn in mixed case spells the guid of its digits. -/
theorem canonicalize_iff_spells_urn :
    canonicalize "URN:uuid:936DA01F-9ABD-4d9d-80C7-02AF85C822A8"
      = canonicalize "936da01f9abd4d9d80c702af85c822a8" := by
  have hdigits : IsDigits "936DA01F9ABD4d9d80C702AF85C822A8".toList := by decide
  have hlower : IsDigits "936da01f9abd4d9d80c702af85c822a8".toList := by decide
  have hurn : Spells "936DA01F9ABD4d9d80C702AF85C822A8".toList
      "URN:uuid:936DA01F-9ABD-4d9d-80C7-02AF85C822A8".toList :=
    @Spells.urn _ "URN:uuid:".toList (by decide)
  obtain ⟨-, -, -, hsame, -⟩ := canonicalize_iff_spells
  exact (hsame _ _ _ _ hdigits hlower hurn .simple).2 (by decide)

end Guid

end MetaCache
