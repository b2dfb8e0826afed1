import MetaCache.Proofs.Remote.Paths
import MetaCache.Proofs.Store.Codec

/-!
# Keys in the order of their bytes

A persistent store keeps its values in the order of the bytes of their keys. No key begins with
another one. The keys of a kind come one after the other, those of apps first and those of spaces
last, and within a kind they are in the order of keys, which is that of the bytes of the guids
(`bytes_lt_iff`): digits are in the order of their characters, and hyphens are in the same places.
-/

namespace MetaCache

open MetaCache.Json MetaCache.Text

/-! ## Digits and their bytes -/

namespace Text

theorem hexChar_lt_iff (d e : Fin 16) :
    UInt8.ofNat (hexChar d).toNat < UInt8.ofNat (hexChar e).toNat ↔ d < e := by
  revert d e
  decide

theorem hexChar_byte_inj (d e : Fin 16) :
    UInt8.ofNat (hexChar d).toNat = UInt8.ofNat (hexChar e).toNat ↔ d = e := by
  revert d e
  decide

/-- The byte of two digits. -/
def octet (high low : Fin 16) : UInt8 := UInt8.ofNat (high.val * 16 + low.val)

/-- The bytes of digits, two digits each. -/
def octets : List (Fin 16) → List UInt8
  | high :: low :: rest => octet high low :: octets rest
  | _ => []

theorem toNat_octet (high low : Fin 16) : (octet high low).toNat = high.val * 16 + low.val := by
  rw [octet, UInt8.toNat_ofNat']
  omega

theorem octet_lt_iff {a b c d : Fin 16} : octet a b < octet c d ↔ a < c ∨ a = c ∧ b < d := by
  rw [UInt8.lt_iff_toNat_lt, toNat_octet, toNat_octet]
  omega

theorem octet_inj {a b c d : Fin 16} : octet a b = octet c d ↔ a = c ∧ b = d := by
  rw [← UInt8.toNat_inj, toNat_octet, toNat_octet]
  omega

/-- Digits are in the order of their bytes. -/
theorem octets_lt_iff : ∀ {ds es : List (Fin 16)}, ds.length = es.length → ds.length % 2 = 0 →
    (octets ds < octets es ↔ ds < es)
  | [], [], _, _ => by simp
  | [], _ :: _, h, _ => by simp at h
  | _ :: _, [], h, _ => by simp at h
  | [_], _, _, h => by simp at h
  | _ :: _ :: _, [_], h, _ => by simp at h
  | a :: b :: ds, c :: d :: es, h, heven => by
    have hlength : ds.length = es.length := by simpa using h
    have heven' : ds.length % 2 = 0 := by
      simp only [List.length_cons] at heven
      omega
    simp only [octets, List.cons_lt_cons_iff, octet_lt_iff, octet_inj,
      octets_lt_iff hlength heven']
    tauto

end Text

/-! ## Guids -/

namespace Spelling

/-- Where the same places are filled, texts are in the order of what they are filled with. -/
theorem fill_lt_fill_iff {slots : Spelling} : ∀ {ds es : List (Fin 16)},
    ds.length = slots.count .digit → es.length = slots.count .digit →
    (utf8 (slots.fill ds) < utf8 (slots.fill es) ↔ ds < es) := by
  induction slots with
  | nil =>
    intro ds es hds hes
    simp_all [fill]
  | cons slot slots ih =>
    intro ds es hds hes
    cases slot with
    | hyphen =>
      have hds' : ds.length = slots.count .digit := by simpa using hds
      have hes' : es.length = slots.count .digit := by simpa using hes
      simp only [fill]
      rw [utf8_cons_of_lt (by decide), utf8_cons_of_lt (by decide), List.cons_lt_cons_iff]
      simp [ih hds' hes']
    | digit =>
      obtain ⟨d, ds, rfl⟩ := List.exists_cons_of_length_eq_add_one (hds.trans List.count_cons_self)
      obtain ⟨e, es, rfl⟩ := List.exists_cons_of_length_eq_add_one (hes.trans List.count_cons_self)
      have hds' : ds.length = slots.count .digit := by simpa using hds
      have hes' : es.length = slots.count .digit := by simpa using hes
      rw [fill, fill, utf8_cons_of_lt (hexChar_ascii d), utf8_cons_of_lt (hexChar_ascii e),
        List.cons_lt_cons_iff, List.cons_lt_cons_iff, hexChar_lt_iff, hexChar_byte_inj,
        ih hds' hes']

end Spelling

namespace Guid

/-- The 16 bytes of a guid. -/
def octets (g : Guid) : List UInt8 := Text.octets g.digits

theorem octets_lt_iff {g g' : Guid} : g.octets < g'.octets ↔ g.digits < g'.digits :=
  Text.octets_lt_iff (g.size.trans g'.size.symm) (by rw [g.size])

theorem chars_lt_iff {g g' : Guid} : utf8 g.chars < utf8 g'.chars ↔ g.digits < g'.digits :=
  Spelling.fill_lt_fill_iff g.size g'.size

end Guid

/-! ## Keys -/

namespace Kind

/-- The first byte of a segment, by which kinds differ. -/
def sign : Kind → UInt8
  | app => 0x61
  | organization => 0x6f
  | space => 0x73

theorem sign_injective : Function.Injective sign := by
  intro kind kind' h
  cases kind <;> cases kind' <;> first | rfl | exact absurd h (by decide)

theorem exists_segment (kind : Kind) : ∃ more, utf8 kind.segment.toList = kind.sign :: more := by
  cases kind <;> exact ⟨_, rfl⟩

end Kind

namespace Key

variable {a b c : Key}

/-- The bytes of a key. -/
def bytes (key : Key) : List UInt8 := bytesOf key.text

theorem bytes_eq (key : Key) :
    key.bytes = utf8 key.kind.segment.toList ++ 0x2f :: utf8 key.guid.chars := by
  have hguid : key.guid.text.toList = key.guid.chars := String.toList_ofList
  rw [bytes, bytesOf_eq_utf8, text, String.toList_append, String.toList_append, utf8_append,
    utf8_append, hguid, List.append_assoc]
  rfl

theorem append_lt_append_iff (front : List UInt8) {rest rest' : List UInt8} :
    front ++ rest < front ++ rest' ↔ rest < rest' := by
  induction front with
  | nil => rfl
  | cons x front ih => simp [ih]

/-- **The order of the bytes of keys.** -/
theorem bytes_lt_iff : a.bytes < b.bytes ↔
    a.kind.sign < b.kind.sign ∨ a.kind = b.kind ∧ a.guid.digits < b.guid.digits := by
  rw [bytes_eq, bytes_eq]
  by_cases hkind : a.kind = b.kind
  · rw [hkind, append_lt_append_iff, List.cons_lt_cons_iff, Guid.chars_lt_iff]
    simp
  · obtain ⟨more, hmore⟩ := a.kind.exists_segment
    obtain ⟨more', hmore'⟩ := b.kind.exists_segment
    have hsign : a.kind.sign ≠ b.kind.sign := fun h => hkind (Kind.sign_injective h)
    rw [hmore, hmore', List.cons_append, List.cons_append, List.cons_lt_cons_iff]
    simp [hkind, hsign]

theorem bytes_injective : Function.Injective bytes := by
  intro a b h
  rw [bytes, bytes, bytesOf_eq_utf8, bytesOf_eq_utf8] at h
  have hread := fromUTF8?_utf8 a.text
  rw [h, fromUTF8?_utf8] at hread
  exact text_injective (Option.some.inj hread).symm

theorem head?_bytes (key : Key) : key.bytes.head? = some key.kind.sign := by
  obtain ⟨more, hmore⟩ := key.kind.exists_segment
  rw [bytes_eq, hmore]
  rfl

theorem length_bytes_of_kind (h : a.kind = b.kind) : a.bytes.length = b.bytes.length := by
  have hguid (key : Key) : (utf8 key.guid.chars).length = 36 := by
    have hsize := key.guid.isCanonical_text.size
    rwa [Guid.text, bytesOf_ofList] at hsize
  simp only [bytes_eq, h, List.length_append, List.length_cons, hguid]

/-- **No key begins with another one.** -/
theorem eq_of_bytes_prefix (h : a.bytes <+: b.bytes) : a = b := by
  have hkind : a.kind = b.kind := by
    obtain ⟨rest, hrest⟩ := h
    refine Kind.sign_injective (Option.some.inj ?_)
    rw [← head?_bytes b, ← hrest, List.head?_append, head?_bytes a]
    rfl
  exact bytes_injective (h.eq_of_length (length_bytes_of_kind hkind))

/-! ## The order of keys -/

theorem precedes_iff : a.precedes b ↔
    a.kind.rank < b.kind.rank ∨ a.kind = b.kind ∧ a.guid.digits < b.guid.digits := by
  have hrank : a.kind.rank = b.kind.rank ↔ a.kind = b.kind := by
    cases a.kind <;> cases b.kind <;> decide
  simp [precedes, hrank]

/-- **Within a kind, keys are in the order of their bytes.** -/
theorem precedes_iff_bytes_lt (h : a.kind = b.kind) : a.precedes b ↔ a.bytes < b.bytes := by
  simp [precedes_iff, bytes_lt_iff, h]

/-- Between keys of a kind there are none of another one. -/
theorem kind_of_between (hab : a.bytes ≤ b.bytes) (hbc : b.bytes ≤ c.bytes) (h : a.kind = c.kind) :
    b.kind = a.kind := by
  have hba : ¬ b.bytes < a.bytes := hab
  have hcb : ¬ c.bytes < b.bytes := hbc
  rw [bytes_lt_iff, not_or] at hba hcb
  refine Kind.sign_injective (UInt8.le_antisymm ?_ ?_)
  · exact h ▸ UInt8.not_lt.1 hcb.1
  · exact UInt8.not_lt.1 hba.1

/-! ## Keys as a store lists them -/

/-- The keys as they are listed in a store, each of them once. -/
def InByteOrder (keys : List Key) : Prop := keys.Pairwise fun a b => a.bytes < b.bytes

/-- The keys of one kind. -/
def ofKind (kind : Kind) (keys : List Key) : List Key := keys.filter (·.kind = kind)

variable {keys : List Key}

/-- A list in which all that passes a test comes first. -/
theorem filter_append_filter_not {α : Type} {p : α → Bool} {as : List α}
    (h : as.Pairwise fun a b => p b → p a) : as.filter p ++ as.filter (!p ·) = as := by
  induction as with
  | nil => rfl
  | cons a as ih =>
    obtain ⟨hfirst, has⟩ := List.pairwise_cons.1 h
    by_cases ha : p a
    · simp [ha, ih has]
    · have hnone : ∀ b ∈ a :: as, ¬ p b := List.forall_mem_cons.2
        ⟨ha, fun b hb hpb => ha (hfirst b hb hpb)⟩
      rw [List.filter_eq_nil_iff.2 hnone, List.nil_append, List.filter_eq_self]
      exact fun b hb => by simp [hnone b hb]

theorem sign_le_of_bytes_lt (h : a.bytes < b.bytes) : a.kind.sign ≤ b.kind.sign := by
  rcases bytes_lt_iff.1 h with hlt | ⟨heq, -⟩
  · exact UInt8.le_of_lt hlt
  · exact heq ▸ UInt8.le_refl _

/-- The keys whose first byte is below a bound come first. -/
theorem filter_below (h : InByteOrder keys) (bound : UInt8) :
    keys.filter (·.kind.sign < bound) ++ keys.filter (fun key => !decide (key.kind.sign < bound))
      = keys := by
  refine filter_append_filter_not (h.imp fun hab hb => ?_)
  exact decide_eq_true (UInt8.lt_of_le_of_lt (sign_le_of_bytes_lt hab) (of_decide_eq_true hb))

/-- **A store lists its keys kind by kind.** -/
theorem byKind_of_inByteOrder (h : InByteOrder keys) :
    ofKind .app keys ++ ofKind .organization keys ++ ofKind .space keys = keys := by
  conv_rhs => rw [← filter_below h Kind.space.sign,
    ← filter_below (h.filter _) Kind.organization.sign]
  simp only [ofKind, List.filter_filter]
  congr 2
  case e_p =>
    funext key
    cases key.kind <;> rfl
  all_goals
    congr 1
    funext key
    cases key.kind <;> rfl

theorem precedes_asymm (h : a.precedes b) : ¬ b.precedes a := by
  rw [precedes_iff] at h ⊢
  rintro (hlt | ⟨hkind, hdigits⟩)
  · rcases h with h | ⟨hkind, -⟩
    · omega
    · rw [hkind] at hlt
      exact Nat.lt_irrefl _ hlt
  · rcases h with h | ⟨-, h⟩
    · rw [hkind] at h
      exact Nat.lt_irrefl _ h
    · exact List.lt_asymm h hdigits

theorem eraseDups_of_nodup {α : Type} [DecidableEq α] {as : List α} (h : as.Nodup) :
    as.eraseDups = as := by
  induction as with
  | nil => rfl
  | cons a as ih =>
    obtain ⟨ha, has⟩ := List.nodup_cons.1 h
    have hkept : as.filter (fun b => !b == a) = as :=
      List.filter_eq_self.2 fun b hb => by
        simp [show b ≠ a from fun heq => ha (heq ▸ hb)]
    rw [List.eraseDups_cons, hkept, ih has]

/-- Keys that are in order already stay as they are. -/
theorem sortUnique_of_sorted (h : keys.Pairwise fun a b => a.precedes b) :
    sortUnique keys = keys := by
  have hsorted : keys.Pairwise fun a b => (!b.precedes a) = true :=
    h.imp fun hab => by simp [precedes_asymm hab]
  have hnodup : keys.Nodup := List.nodup_iff_pairwise_ne.2 <| h.imp fun {a b} hab (heq : a = b) =>
    precedes_asymm hab (heq ▸ hab)
  rw [sortUnique, List.mergeSort_of_pairwise hsorted, eraseDups_of_nodup hnodup]

/-- **Within a kind, a store lists its keys in order.** -/
theorem sortUnique_of_inByteOrder (h : InByteOrder keys) (kind : Kind) :
    sortUnique (ofKind kind keys) = ofKind kind keys := by
  refine sortUnique_of_sorted ((h.filter _).imp_of_mem fun {a b} ha hb hab => ?_)
  have hkind : a.kind = b.kind := by
    have hkind := of_decide_eq_true (List.mem_filter.1 ha).2
    rw [hkind, of_decide_eq_true (List.mem_filter.1 hb).2]
  exact (precedes_iff_bytes_lt hkind).2 hab

/-- **Keys in the order of their bytes.** Different keys have different bytes, of which none begin
with the others. Keys are ordered by kind and then by the bytes of the guid, and within a kind this
is the order of their own bytes. All keys of a kind stand together in that order, without any other
in between: a store lists its keys kind by kind, and those of each kind in their order. -/
theorem bytes_ordered :
    (∀ a b : Key, a.bytes = b.bytes ↔ a = b)
    ∧ (∀ a b : Key, a.bytes <+: b.bytes → a = b)
    ∧ (∀ a b : Key, a.precedes b
        ↔ a.kind.rank < b.kind.rank ∨ a.kind = b.kind ∧ a.guid.octets < b.guid.octets)
    ∧ (∀ a b : Key, a.kind = b.kind → (a.precedes b ↔ a.bytes < b.bytes))
    ∧ (∀ a b c : Key, a.bytes ≤ b.bytes → b.bytes ≤ c.bytes → a.kind = c.kind → b.kind = a.kind)
    ∧ ∀ keys : List Key, InByteOrder keys →
        ofKind .app keys ++ ofKind .organization keys ++ ofKind .space keys = keys
        ∧ ∀ kind, sortUnique (ofKind kind keys) = ofKind kind keys := by
  refine ⟨fun a b => bytes_injective.eq_iff, fun a b => eq_of_bytes_prefix, fun a b => ?_,
    fun a b => precedes_iff_bytes_lt, fun a b c => kind_of_between, fun keys h =>
    ⟨byKind_of_inByteOrder h, sortUnique_of_inByteOrder h⟩⟩
  rw [precedes_iff, Guid.octets_lt_iff]

/-- The keys of two apps, of an organization and of a space, whose guids are in another order. -/
theorem bytes_ordered_mixed :
    let low : Guid := ⟨List.replicate 32 0, rfl⟩
    let high : Guid := ⟨List.replicate 32 15, rfl⟩
    let keys : List Key := [⟨.app, low⟩, ⟨.app, high⟩, ⟨.organization, low⟩, ⟨.space, low⟩]
    (¬ (⟨.app, low⟩ : Key).bytes <+: (⟨.space, low⟩ : Key).bytes)
      ∧ (⟨.app, low⟩ : Key).bytes < (⟨.app, high⟩ : Key).bytes
      ∧ ofKind .app keys ++ ofKind .organization keys ++ ofKind .space keys = keys
      ∧ sortUnique (ofKind .app keys) = ofKind .app keys := by
  intro low high keys
  obtain ⟨-, hbegin, -, hwithin, -, hlist⟩ := bytes_ordered
  have hkeys : InByteOrder keys := by
    simp only [keys, InByteOrder, List.pairwise_cons, List.forall_mem_cons, bytes_lt_iff]
    decide
  have happs : (⟨.app, low⟩ : Key).bytes < (⟨.app, high⟩ : Key).bytes :=
    (hwithin ⟨.app, low⟩ ⟨.app, high⟩ rfl).1 (by decide)
  exact ⟨fun h => absurd (hbegin _ _ h) (by decide), happs, (hlist keys hkeys).1,
    (hlist keys hkeys).2 .app⟩

end Key

end MetaCache
