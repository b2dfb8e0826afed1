import Mathlib.Tactic.SplitIfs
import MetaCache.Proofs.Instant
import MetaCache.Proofs.Json.Nesting
import MetaCache.Store.Codec

/-!
# Stored records read back

A record comes back from its stored value with its expiry rounded down to a millisecond
(`readValue_of_encodeRecord`), if it is *storable*: its environment has whole numbers only and nests
at least one level less deep than documents may, because the record around it takes a level.

Keys with different kinds or guids have different texts (`Key.text_injective`), so a stored value is
only found under the key that it was put under.
-/

namespace MetaCache

open MetaCache.Json MetaCache.Number

/-! ## Keys -/

theorem Guid.text_injective : Function.Injective Guid.text := by
  intro g g' h
  have hchars : g.chars = g'.chars := String.ofList_injective h
  have hread := Guid.ofChars?_chars g
  rw [hchars, Guid.ofChars?_chars g'] at hread
  exact (Option.some.inj hread).symm

theorem Kind.segment_head_injective {kind kind' : Kind}
    (h : kind.segment.toList.head? = kind'.segment.toList.head?) : kind = kind' := by
  cases kind <;> cases kind' <;> first | rfl | exact absurd h (by decide)

/-- **Different keys have different texts.** -/
theorem Key.text_injective : Function.Injective Key.text := by
  intro key key' h
  have hlist := congrArg String.toList h
  simp only [Key.text, String.toList_append, List.append_assoc] at hlist
  have hkind : key.kind = key'.kind := by
    refine Kind.segment_head_injective ?_
    have hhead := congrArg List.head? hlist
    cases hk : key.kind <;> cases hk' : key'.kind <;> rw [hk, hk'] at hhead <;> exact hhead
  rw [hkind] at hlist
  have hguid := List.append_cancel_left (List.append_cancel_left hlist)
  obtain ⟨kind, guid⟩ := key
  obtain ⟨kind', guid'⟩ := key'
  rw [Key.mk.injEq]
  exact ⟨hkind, Guid.text_injective (String.toList_injective hguid)⟩

/-- The canonical spelling of a guid spells that guid. -/
theorem Guid.canonicalize_text (guid : Guid) : canonicalize guid.text = .ok guid := by
  rw [canonicalize, ofText?, text, String.toList_ofList, ofChars?_chars]

/-- Only a spelling can be refused. -/
theorem Guid.canonicalize_error {raw : String} {e : Error} (h : canonicalize raw = .error e) :
    e = .invalidGuid raw := by
  unfold canonicalize at h
  split at h
  · cases h
  · exact (Except.error.inj h).symm

theorem Guid.canonicalize_empty : canonicalize "" = .error (.invalidGuid "") := rfl

/-- The key of a text is the kind with the guid that the text spells. -/
theorem Key.parse_ok {kind : Kind} {raw : String} {key : Key} (h : Key.parse kind raw = .ok key) :
    ∃ guid, Guid.canonicalize raw = .ok guid ∧ ⟨kind, guid⟩ = key := by
  rw [parse] at h
  cases hguid : Guid.canonicalize raw with
  | error e => rw [hguid] at h; cases h
  | ok guid =>
    rw [hguid] at h
    exact ⟨guid, rfl, Except.ok.inj h⟩

theorem Key.kind_of_parse {kind : Kind} {raw : String} {key : Key}
    (h : Key.parse kind raw = .ok key) : key.kind = kind := by
  obtain ⟨guid, -, rfl⟩ := Key.parse_ok h
  rfl

theorem Key.parse_of_ok {raw : String} {guid : Guid} (h : Guid.canonicalize raw = .ok guid)
    (kind : Kind) : Key.parse kind raw = .ok ⟨kind, guid⟩ := by
  rw [parse, h]
  rfl

theorem Key.parse_of_error {raw : String} {e : Error} (h : Guid.canonicalize raw = .error e)
    (kind : Kind) : Key.parse kind raw = .error e := by
  rw [parse, h]
  rfl

/-! ## Documents of records -/

namespace Record

/-- The levels that are left for the environment of a record. -/
def environmentLevels : Nat := nestingLimit - 1

/-- The record can be stored and read back. -/
def Storable (r : Record) : Prop := r.environment.Fits environmentLevels

theorem storable_named (name : String) : (named name).Storable :=
  show Object.empty.Fits environmentLevels from ⟨by decide, by decide⟩

/-- The same record with another expiry, as stored values have it. -/
def floored (r : Record) : Record := { r with expiresAt := r.expiresAt.floorMillis }

theorem nests_toData {P : Nat → Object → Prop} {levels : Nat} {r : Record}
    (h : P levels r.environment) : schema.Nests P (levels + 1) r.toData := by
  have htext : ∀ s : String, ∀ given ∈ some (some s), ∀ a ∈ given,
      Schema.string.Nests P levels a := fun _ _ _ _ _ => True.intro
  refine ⟨htext _, htext _, htext _, fun given hgiven o ho => ?_, True.intro⟩
  cases hgiven
  cases ho
  exact h

/-- What a document tells about a storable record is all but its expiry. -/
theorem decode_encode {r : Record} (h : r.Storable) :
    decode (bytesOf r.encode) = .ok { r with expiresAt := .epoch } := by
  have hfits : schema.Nests Object.Fits (environmentLevels + 1) r.toData := nests_toData h
  rw [decode, encode, Json.decode_encode (by decide) hfits]
  rfl

/-- The environment of a record from inside a document. -/
theorem within_of_nests {levels : Nat} {data : schema.Carrier}
    (h : schema.Nests Object.Within (levels + 1) data) (hpos : 0 < levels) :
    (ofData data).environment.Within levels := by
  obtain ⟨name, space, organization, environment, _⟩ := data
  cases environment with
  | none => exact hpos
  | some environment =>
    cases environment with
    | none => exact hpos
    | some environment =>
      obtain ⟨-, -, -, henvironment, -⟩ : schema.Nests Object.Within (levels + 1)
        (name, space, organization, some (some environment), ()) := h
      exact henvironment _ rfl _ rfl

end Record

namespace Store

theorem millis_fits (t : Timestamp) :
    -(capacity expirySize : Int) ≤ 2 * t.millis ∧ 2 * t.millis < capacity expirySize := by
  have hcapacity : (capacity expirySize : Int) = 18446744073709551616 := by decide
  have hlow := t.notEarlier
  have hhigh := t.notLater
  have hin := t.inSecond
  rw [hcapacity, Timestamp.millis_eq, Timestamp.nanos_eq]
  omega

/-- The parts of a framed value. -/
theorem frame_parts (expiryMillis : Int) (document : List UInt8) :
    (frame expiryMillis document).length = headerSize + document.length
      ∧ (frame expiryMillis document).take expirySize = signedBytes expirySize expiryMillis
      ∧ ((frame expiryMillis document).drop expirySize).take sizeSize
          = naturalBytes sizeSize document.length
      ∧ (frame expiryMillis document).drop headerSize = document := by
  have hsigned := signedBytes_length expirySize expiryMillis
  have hnatural := naturalBytes_length sizeSize document.length
  refine ⟨?_, ?_, ?_, ?_⟩
  · simp [frame, headerSize, Nat.add_assoc]
  · rw [frame, List.append_assoc, List.take_left' hsigned]
  · rw [frame, List.append_assoc, List.drop_left' hsigned, List.take_left' hnatural]
  · rw [frame, List.drop_left']
    simp [headerSize]

/-- A stored value has the expiry from its header and all else from its document. The header cannot
express what is past the last timestamp. -/
theorem readValue_eq {r : Record} {bytes : List UInt8} (h : encodeRecord r = .ok bytes) :
    readValue bytes =
      if r.expiresAt ≤ .last then
        match Record.decode (bytesOf r.encode) with
        | .ok found => .ok { found with expiresAt := r.expiresAt.floorMillis }
        | .error fault => .error (.badDocument fault)
      else .error .expiryOutOfRange := by
  simp only [encodeRecord] at h
  split at h
  · next hsize =>
    cases h
    obtain ⟨hlength, hexpiry, hcount, hdocument⟩ :=
      frame_parts r.expiresAt.millis (bytesOf r.encode)
    have hfits := millis_fits r.expiresAt
    have hshort : ¬ (frame r.expiresAt.millis (bytesOf r.encode)).length < headerSize := by omega
    rw [readValue, if_neg hshort, hexpiry, signed_signedBytes hfits.1 hfits.2]
    split_ifs with hlast
    · rw [Timestamp.ofMillis?_millis hlast]
      cases hread : Record.decode (bytesOf r.encode) <;>
        simp only [hcount, hdocument, natural_naturalBytes hsize, ne_eq, not_true, if_false, hread]
    · rw [Timestamp.ofMillis?_millis_of_late (not_le.1 hlast)]
  · cases h

/-- **A stored value reads as its record**, up to the expiry's fractions of a millisecond. -/
theorem readValue_of_encodeRecord {r : Record} {bytes : List UInt8} (hr : r.Storable)
    (hlast : r.expiresAt ≤ .last) (h : encodeRecord r = .ok bytes) :
    readValue bytes = .ok r.floored := by
  rw [readValue_eq h, if_pos hlast, Record.decode_encode hr]
  rfl

theorem decodeRecord_of_encodeRecord {key : Key} {r : Record} {bytes : List UInt8}
    (hr : r.Storable) (hlast : r.expiresAt ≤ .last) (h : encodeRecord r = .ok bytes) :
    decodeRecord key bytes = .ok r.floored := by
  rw [decodeRecord, readValue_of_encodeRecord hr hlast h]

end Store

end MetaCache
