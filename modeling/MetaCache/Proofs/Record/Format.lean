import MetaCache.Proofs.Json.Decoding
import MetaCache.Proofs.Store.Values

/-!
# Which documents are records

The members of an object make a record (`IsRecord`) if none of the record's names occurs twice, the
names and guids among them are strings or `null`, and the environment is an object that nests within
the levels left, or `null`. All other members may be anything. The record has the contents of these
members, and the default for each one that is `null` or left out (`ofMembers`).

So much decides what a document decodes to (`decode_document`). Neither the order of the members has
a say in it nor what else the object holds, however deep.
-/

namespace MetaCache

open MetaCache.Json MetaCache.Number MetaCache.Text

/-! ## Members under a name -/

/-- The values of the members called `name`. -/
def values (name : String) (members : List (String × Value)) : List Value :=
  (members.filter fun m => m.1 = name).map Prod.snd

/-- Members with what their values mean. -/
def meanings (members : List (String × Value)) : List (String × Meaning) :=
  members.map fun m => (m.1, m.2.meaning)

theorem named_meanings (members : List (String × Value)) :
    named (meanings members) = memberMeanings members := by
  rw [memberMeanings_eq_map, named, meanings, List.map_map]
  rfl

theorem called_meanings (name : String) (members : List (String × Value)) :
    called name (meanings members) = (values name members).map fun v => (name, v.meaning) := by
  induction members with
  | nil => rfl
  | cons m members ih =>
    simp only [called, values, meanings, List.map_cons, List.filter_cons] at ih ⊢
    split
    · next hname =>
      rw [List.map_cons, List.map_cons, ih]
      rw [decide_eq_true_eq] at hname
      rw [hname]
    · exact ih

theorem called_others {name other : String} (h : name ≠ other)
    (members : List (String × Meaning)) :
    called name (others other members) = called name members := by
  rw [called, others, List.filter_filter]
  refine List.filter_congr fun m _ => ?_
  by_cases hname : m.1 = name <;> simp [hname, h]

/-- What a field is given by the members of its name: `P` says which values it takes, and `f` what
it makes of them. -/
theorem orAbsent_meanings_iff {α : Type} {H : Meaning → α → Prop} {P : Value → Prop} {f : Value → α}
    (hH : ∀ v a, H v.meaning a ↔ P v ∧ a = f v) (name : String) (members : List (String × Value))
    (given : Option α) :
    OrAbsent H (called name (meanings members)) given
      ↔ (values name members).length ≤ 1 ∧ (∀ v ∈ values name members, P v)
        ∧ given = (values name members).head?.map f := by
  rw [called_meanings]
  rcases values name members with _ | ⟨v, _ | ⟨w, vs⟩⟩
  · simp [OrAbsent]
  · simp [OrAbsent, hH, and_comm]
  · simp [OrAbsent]

namespace Record

/-! ## Members that make a record -/

/-- A string or `null`. -/
def IsText (v : Value) : Prop := v = .null ∨ ∃ s, v = .string s

/-- An object within the levels left, or `null`. -/
def IsEnvironment (levels : Nat) (v : Value) : Prop :=
  v = .null ∨ ∃ members, v = .object members ∧ (Value.object members).depth ≤ levels

/-- The members make a record, with so many levels left for its environment. -/
@[mk_iff]
structure IsRecord (levels : Nat) (members : List (String × Value)) : Prop where
  once : ∀ name ∈ fields.names, (values name members).length ≤ 1
  name : ∀ v ∈ values "name" members, IsText v
  space : ∀ v ∈ values "space_guid" members, IsText v
  organization : ∀ v ∈ values "organization_guid" members, IsText v
  environment : ∀ v ∈ values "environment_json" members, IsEnvironment levels v

/-- A name alone makes a record. -/
theorem isRecord_named (levels : Nat) (name : String) :
    IsRecord levels [("name", .string name)] := by
  have hother (field : String) (h : field ≠ "name") : values field [("name", .string name)] = [] := by
    simp [values, h.symm]
  have hname : values "name" [("name", .string name)] = [.string name] := rfl
  refine ⟨fun field _ => ?_, ?_, ?_, ?_, ?_⟩
  · rw [values, List.length_map]
    exact List.length_filter_le _ _
  · rw [hname]
    exact List.forall_mem_singleton.2 (.inr ⟨name, rfl⟩)
  · rw [hother _ (by decide)]
    exact List.forall_mem_nil _
  · rw [hother _ (by decide)]
    exact List.forall_mem_nil _
  · rw [hother _ (by decide)]
    exact List.forall_mem_nil _

def textOf? : Value → Option String
  | .string s => some s
  | _ => none

def objectOf? : Value → Option Object
  | .object members => some (.ofMembers members)
  | _ => none

/-- The record that the members make. -/
def ofMembers (members : List (String × Value)) : Record where
  name := ((values "name" members).head?.bind textOf?).getD ""
  spaceGuid := ((values "space_guid" members).head?.bind textOf?).getD ""
  organizationGuid := ((values "organization_guid" members).head?.bind textOf?).getD ""
  environment := ((values "environment_json" members).head?.bind objectOf?).getD .empty
  expiresAt := .epoch

/-- What the members give each field. -/
def dataOf (members : List (String × Value)) : schema.Carrier :=
  ((values "name" members).head?.map textOf?, (values "space_guid" members).head?.map textOf?,
    (values "organization_guid" members).head?.map textOf?,
    (values "environment_json" members).head?.map objectOf?, ())

theorem join_map {α β : Type} (f : α → Option β) (given : Option α) :
    (given.map f).join = given.bind f := by
  cases given <;> rfl

theorem ofData_dataOf (members : List (String × Value)) :
    ofData (dataOf members) = ofMembers members := by
  simp only [ofMembers, ← join_map]
  rfl

theorem orNull_text (levels : Nat) (v : Value) (given : Option String) :
    OrNull (Schema.string.Holds levels) v.meaning given ↔ IsText v ∧ given = textOf? v := by
  cases v <;> simp [OrNull, Schema.string, Schema.Holds, Value.meaning, IsText, textOf?, and_comm]

theorem orNull_object (levels : Nat) (v : Value) (given : Option Object) :
    OrNull (Schema.object.Holds levels) v.meaning given
      ↔ IsEnvironment levels v ∧ given = objectOf? v := by
  constructor
  · rintro (⟨hv, rfl⟩ | ⟨-, o, rfl, members, hv, hdepth, rfl⟩)
    · obtain rfl := Value.meaning_eq_null.1 hv
      exact ⟨.inl rfl, rfl⟩
    · obtain rfl := Value.meaning_injective _ _ hv
      exact ⟨.inr ⟨members, rfl, hdepth⟩, rfl⟩
  · rintro ⟨hv, rfl⟩
    rcases hv with rfl | ⟨members, rfl, hdepth⟩
    · exact .inl ⟨rfl, rfl⟩
    · exact .inr ⟨by rintro ⟨⟩, _, rfl, members, rfl, hdepth, rfl⟩

theorem holdByName_meanings {levels : Nat} {members : List (String × Value)}
    {data : fields.Carrier} :
    fields.HoldByName false levels (meanings members) data
      ↔ IsRecord levels members ∧ data = dataOf members := by
  obtain ⟨name, space, organization, environment, ⟨⟩⟩ := data
  have htext (field : String) (given : Option (Option String)) :=
    orAbsent_meanings_iff (orNull_text levels) field members given
  have hobject := orAbsent_meanings_iff (orNull_object levels) "environment_json" members environment
  simp (disch := decide) only [fields, Fields.HoldByName, called_others]
  constructor
  · rintro ⟨hname, hspace, horganization, henvironment, -⟩
    obtain ⟨hname₁, hnames, rfl⟩ := (htext _ _).1 hname
    obtain ⟨hspace₁, hspaces, rfl⟩ := (htext _ _).1 hspace
    obtain ⟨horganization₁, horganizations, rfl⟩ := (htext _ _).1 horganization
    obtain ⟨henvironment₁, henvironments, rfl⟩ := hobject.1 henvironment
    refine ⟨⟨?_, hnames, hspaces, horganizations, henvironments⟩, rfl⟩
    simp only [fields, Fields.names, List.forall_mem_cons]
    exact ⟨hname₁, hspace₁, horganization₁, henvironment₁, List.forall_mem_nil _⟩
  · rintro ⟨⟨honce, hname, hspace, horganization, henvironment⟩, hdata⟩
    simp only [fields, Fields.names, List.forall_mem_cons] at honce
    obtain ⟨hname₁, hspace₁, horganization₁, henvironment₁, -⟩ := honce
    obtain ⟨rfl, rfl, rfl, rfl⟩ : name = _ ∧ space = _ ∧ organization = _ ∧ environment = _ := by
      simpa only [dataOf, Prod.mk.injEq, and_true] using hdata
    exact ⟨(htext _ _).2 ⟨hname₁, hname, rfl⟩, (htext _ _).2 ⟨hspace₁, hspace, rfl⟩,
      (htext _ _).2 ⟨horganization₁, horganization, rfl⟩,
      hobject.2 ⟨henvironment₁, henvironment, rfl⟩, fun h => absurd h Bool.false_ne_true⟩

/-- **What an object tells about a record.** -/
theorem holds_object_iff {levels : Nat} {members : List (String × Value)} {data : schema.Carrier} :
    schema.Holds (levels + 1) (Value.object members).meaning data
      ↔ IsRecord levels members ∧ data = dataOf members := by
  rw [Value.meaning, ← named_meanings]
  exact Schema.holds_named.trans holdByName_meanings

/-! ## Documents of records -/

variable {levels : Nat} {text text' : String} {members members' : List (String × Value)} {r : Record}

/-- **The record of a document that means an object.** -/
theorem decode_document (h : Document text.toList (Value.object members).meaning) :
    decode (bytesOf text) = .ok r ↔ IsRecord environmentLevels members ∧ r = ofMembers members := by
  constructor
  · intro hr
    obtain ⟨data, hdata, rfl⟩ := exists_of_map hr
    obtain ⟨hrecord, rfl⟩ := holds_object_iff.1 (holds_of_decode h hdata)
    exact ⟨hrecord, ofData_dataOf members⟩
  · rintro ⟨hrecord, rfl⟩
    rw [decode, decode_ok_iff.2 ⟨_, h, holds_object_iff.2 ⟨hrecord, rfl⟩⟩, ← ofData_dataOf]
    rfl

/-- A text that begins with a brace means an object. -/
theorem object_of_brace {cs : List Char} {m : Meaning} (h : Document cs m)
    (hbrace : (skipBlanks cs).head? = some '\x7b') : ∃ members, m = .object members := by
  obtain ⟨rest, htext, -⟩ := h
  obtain ⟨tail, hcs⟩ := List.head?_eq_some_iff.1 hbrace
  rw [← text_skipBlanks, hcs, text_cons_iff (by decide)] at htext
  obtain ⟨members, -, hm⟩ := htext
  exact ⟨members, hm⟩

/-- If the text is a document, all its strings mean something, and so do its numbers: no surrogate
stands alone, and no number is taken past the largest double. -/
def IsPlain (text : String) : Prop :=
  ∀ m, Document text.toList m → ∃ v : Value, m = v.meaning

/-- The texts are documents of the same record, or neither is one of a record. -/
def Agree (text text' : String) : Prop :=
  ∀ r, decode (bytesOf text) = .ok r ↔ decode (bytesOf text') = .ok r

/-! ## Members that have no say -/

/-- The same values, except that a `null` may be left out. -/
def Alike (vs vs' : List Value) : Prop := vs = vs' ∨ (vs = [.null] ∧ vs' = [])

namespace Alike

variable {vs vs' : List Value}

theorem length_le_iff (h : Alike vs vs') : vs.length ≤ 1 ↔ vs'.length ≤ 1 := by
  rcases h with rfl | ⟨rfl, rfl⟩
  · exact Iff.rfl
  · simp

theorem forall_iff (h : Alike vs vs') {P : Value → Prop} (hnull : P .null) :
    (∀ v ∈ vs, P v) ↔ ∀ v ∈ vs', P v := by
  rcases h with rfl | ⟨rfl, rfl⟩
  · exact Iff.rfl
  · simp [hnull]

theorem bind_eq {α : Type} (h : Alike vs vs') {f : Value → Option α} (hnull : f .null = none) :
    vs.head?.bind f = vs'.head?.bind f := by
  rcases h with rfl | ⟨rfl, rfl⟩
  · rfl
  · exact hnull

end Alike

/-- **Members make the same record if their values under its names are alike.** -/
theorem isRecord_of_alike (levels : Nat)
    (h : ∀ name ∈ fields.names, Alike (values name members) (values name members')) :
    (IsRecord levels members ↔ IsRecord levels members') ∧ ofMembers members = ofMembers members' := by
  have hnames := h
  simp only [fields, Fields.names, List.forall_mem_cons] at hnames
  obtain ⟨hname, hspace, horganization, henvironment, -⟩ := hnames
  constructor
  · have honce : (∀ name ∈ fields.names, (values name members).length ≤ 1)
        ↔ ∀ name ∈ fields.names, (values name members').length ≤ 1 :=
      forall₂_congr fun name hmem => (h name hmem).length_le_iff
    rw [isRecord_iff, isRecord_iff, honce, hname.forall_iff (.inl rfl), hspace.forall_iff (.inl rfl),
      horganization.forall_iff (.inl rfl), henvironment.forall_iff (.inl rfl)]
  · rw [ofMembers, hname.bind_eq rfl, hspace.bind_eq rfl, horganization.bind_eq rfl,
      henvironment.bind_eq rfl]
    rfl

/-- Documents of members that are alike, if one of them makes a record, agree. -/
theorem agree_of_alike (h : Document text.toList (Value.object members).meaning)
    (h' : Document text'.toList (Value.object members').meaning)
    (halike : IsRecord environmentLevels members ∨ IsRecord environmentLevels members' →
      ∀ name ∈ fields.names, Alike (values name members) (values name members')) :
    Agree text text' := by
  intro r
  rw [decode_document h, decode_document h']
  constructor
  · rintro ⟨hrecord, rfl⟩
    obtain ⟨hiff, heq⟩ := isRecord_of_alike environmentLevels (halike (.inl hrecord))
    exact ⟨hiff.1 hrecord, heq⟩
  · rintro ⟨hrecord, rfl⟩
    obtain ⟨hiff, heq⟩ := isRecord_of_alike environmentLevels (halike (.inr hrecord))
    exact ⟨hiff.2 hrecord, heq.symm⟩

theorem eq_of_perm {α : Type} {as as' : List α} (h : as.Perm as') (hlength : as.length ≤ 1) :
    as = as' := by
  rcases as with _ | ⟨a, _ | ⟨b, as⟩⟩
  · exact h.nil_eq
  · exact h.singleton_eq
  · simp at hlength

/-- The order of members does not count. -/
theorem agree_of_perm (h : Document text.toList (Value.object members).meaning)
    (h' : Document text'.toList (Value.object members').meaning) (hperm : members.Perm members') :
    Agree text text' := by
  have hvalues (name : String) : (values name members).Perm (values name members') :=
    (hperm.filter _).map _
  refine agree_of_alike h h' fun hrecord name hname => .inl (eq_of_perm (hvalues name) ?_)
  rcases hrecord with hrecord | hrecord
  · exact hrecord.once name hname
  · exact (hvalues name).length_eq ▸ hrecord.once name hname

/-- The members that are called like a field. -/
def known (members : List (String × Value)) : List (String × Value) :=
  members.filter fun m => m.1 ∈ fields.names

theorem values_known {name : String} (h : name ∈ fields.names) (members : List (String × Value)) :
    values name (known members) = values name members := by
  rw [values, known, List.filter_filter, values]
  congr 1
  refine List.filter_congr fun m _ => ?_
  by_cases hname : m.1 = name <;> simp [hname, h]

/-- Members that are called like no field do not count. -/
theorem agree_of_known (h : Document text.toList (Value.object members).meaning)
    (h' : Document text'.toList (Value.object members').meaning)
    (hknown : known members = known members') : Agree text text' := by
  refine agree_of_alike h h' fun _ name hname => .inl ?_
  rw [← values_known hname, hknown, values_known hname]

theorem values_append (name : String) (before after : List (String × Value)) :
    values name (before ++ after) = values name before ++ values name after := by
  rw [values, List.filter_append, List.map_append]
  rfl

theorem values_cons_self (name : String) (v : Value) (after : List (String × Value)) :
    values name ((name, v) :: after) = v :: values name after := by
  simp [values]

theorem values_cons_of_ne {name other : String} (h : name ≠ other) (v : Value)
    (after : List (String × Value)) : values other ((name, v) :: after) = values other after := by
  simp [values, h]

/-- Where a name occurs once, a `null` under it can be left out. -/
theorem alike_without_null {name other : String} {before after : List (String × Value)}
    (h : (values other (before ++ (name, .null) :: after)).length ≤ 1) :
    Alike (values other (before ++ (name, .null) :: after)) (values other (before ++ after)) := by
  simp only [values_append] at h ⊢
  by_cases hname : name = other
  · subst hname
    rw [values_cons_self, List.length_append, List.length_cons] at h
    have hbefore : values name before = [] := List.eq_nil_of_length_eq_zero (by omega)
    have hafter : values name after = [] := List.eq_nil_of_length_eq_zero (by omega)
    rw [values_cons_self, hbefore, hafter]
    exact .inr ⟨rfl, rfl⟩
  · rw [values_cons_of_ne hname]
    exact .inl rfl

/-- A `null` can be left out of the document of a record. -/
theorem decode_without_null {name : String} {before after : List (String × Value)}
    (h : Document text.toList (Value.object (before ++ (name, .null) :: after)).meaning)
    (h' : Document text'.toList (Value.object (before ++ after)).meaning)
    (hr : decode (bytesOf text) = .ok r) : decode (bytesOf text') = .ok r := by
  obtain ⟨hrecord, rfl⟩ := (decode_document h).1 hr
  obtain ⟨hiff, heq⟩ := isRecord_of_alike environmentLevels fun other hother =>
    alike_without_null (hrecord.once other hother)
  exact (decode_document h').2 ⟨hiff.1 hrecord, heq⟩

/-- It can be put in as well, where the name does not occur otherwise. -/
theorem agree_of_null {name : String} {before after : List (String × Value)}
    (h : Document text.toList (Value.object (before ++ (name, .null) :: after)).meaning)
    (h' : Document text'.toList (Value.object (before ++ after)).meaning)
    (hname : values name (before ++ after) = []) : Agree text text' := by
  refine agree_of_alike h h' fun hrecord other hother => alike_without_null ?_
  rcases hrecord with hrecord | hrecord
  · exact hrecord.once other hother
  · have honce := hrecord.once other hother
    rw [values_append] at hname honce ⊢
    by_cases heq : name = other
    · subst heq
      obtain ⟨hbefore, hafter⟩ := List.append_eq_nil_iff.1 hname
      rw [values_cons_self, hbefore, hafter]
      exact Nat.le_refl 1
    · rwa [values_cons_of_ne heq]

/-! ## The format of records -/

theorem isPlain_of_document {v : Value} (h : Document text.toList v.meaning) : IsPlain text :=
  fun _ hm => ⟨v, hm.unique h⟩

/-- **What a record decodes from.** A text that begins with a brace and is plain decodes to a record
if and only if it is a document of members that make this record. So neither the order of members
counts nor members that are called like no field, however deep, nor a `null`; and a record comes
back from its own document without its expiry. -/
theorem decode_iff_isRecord :
    (∀ (text : String) (r : Record), (skipBlanks text.toList).head? = some '\x7b' → IsPlain text →
      (decode (bytesOf text) = .ok r ↔ ∃ members : List (String × Value),
        Document text.toList (Value.object members).meaning
          ∧ IsRecord environmentLevels members ∧ r = ofMembers members))
    ∧ (∀ (text text' : String) (members members' : List (String × Value)),
        Document text.toList (Value.object members).meaning →
        Document text'.toList (Value.object members').meaning →
        (members.Perm members' → Agree text text')
        ∧ (known members = known members' → Agree text text')
        ∧ ∀ (name : String) (before after : List (String × Value)),
            members = before ++ (name, .null) :: after → members' = before ++ after →
            (∀ r, decode (bytesOf text) = .ok r → decode (bytesOf text') = .ok r)
            ∧ (values name members' = [] → Agree text text'))
    ∧ ∀ r : Record, r.Storable → decode (bytesOf r.encode) = .ok { r with expiresAt := .epoch } := by
  refine ⟨fun text r hbrace hplain => ⟨fun hr => ?_, ?_⟩, fun text text' members members' h h' => ?_,
    fun r hr => decode_encode hr⟩
  · obtain ⟨data, hdata, -⟩ := exists_of_map hr
    obtain ⟨m, hm, -⟩ := decode_ok_iff.1 hdata
    obtain ⟨ms, hms⟩ := object_of_brace hm hbrace
    obtain ⟨v, rfl⟩ := hplain m hm
    obtain ⟨members, -, rfl⟩ := Value.meaning_eq_object.1 hms
    exact ⟨members, hm, (decode_document hm).1 hr⟩
  · rintro ⟨members, hm, hrecord⟩
    exact (decode_document hm).2 hrecord
  · refine ⟨agree_of_perm h h', agree_of_known h h', ?_⟩
    rintro name before after rfl rfl
    exact ⟨fun r => decode_without_null h h', agree_of_null h h'⟩

/-- A record among unknown members, one of them deeper than documents may keep. -/
theorem decode_iff_isRecord_deep :
    let deep : Value := (List.range 130).foldl (fun v _ => .array [v]) .null
    let plain : List (String × Value) := [("name", .string "billing")]
    let more : List (String × Value) := [("name", .string "billing"), ("expires_at", deep)]
    let empty : List (String × Value) := ("space_guid", .null) :: plain
    let text (members : List (String × Value)) := String.ofList (Value.object members).write
    decode (bytesOf (text plain)) = .ok (named "billing")
      ∧ Agree (text more) (text more.reverse) ∧ Agree (text more) (text plain)
      ∧ Agree (text empty) (text plain)
      ∧ decode (bytesOf (named "billing").encode) = .ok (named "billing") := by
  intro deep plain more empty text
  obtain ⟨hiff, hsame, hback⟩ := decode_iff_isRecord
  have hdocument {members : List (String × Value)} (h : (Value.object members).isExact) :
      Document (text members).toList (Value.object members).meaning := by
    rw [String.toList_ofList]
    exact document_write h
  have hplain : Document (text plain).toList _ := hdocument (by decide +kernel)
  have hmore : Document (text more).toList _ := hdocument (by decide +kernel)
  have hreverse : Document (text more.reverse).toList _ := hdocument (by decide +kernel)
  have hempty : Document (text empty).toList _ := hdocument (by decide +kernel)
  refine ⟨?_, (hsame _ _ _ _ hmore hreverse).1 (List.reverse_perm _).symm,
    (hsame _ _ _ _ hmore hplain).2.1 rfl,
    ((hsame _ _ _ _ hempty hplain).2.2 "space_guid" [] plain rfl rfl).2 (by decide +kernel),
    hback _ (storable_named _)⟩
  exact (hiff (text plain) _ (by decide +kernel) (isPlain_of_document hplain)).2
    ⟨plain, hplain, isRecord_named _ _, rfl⟩

/-! ## A number that is refused -/

/-- The power of ten behind the digits of a number, taken together as a whole one. -/
def power (n : Numeral) : Int :=
  (match n.exponent with
    | none => 0
    | some (down, digits) =>
      if down then -(digitsValue (utf8 digits) : Int) else digitsValue (utf8 digits))
    - n.fraction.length

/-- The number that the digits spell is not past the largest double. -/
def IsWithinDoubles (n : Numeral) : Prop :=
  ∃ x : Magnitude, digitsValue (utf8 (n.whole ++ n.fraction)) * Nat.pow 10 (power n).toNat
    * Magnitude.unitDen ≤ x.units * Nat.pow 10 (-power n).toNat

theorem text_member (name : String) {value mid : List Char} {m : Meaning}
    (h : name.toList.all isPlainChar) (htext : Text value m ('\x7d' :: mid)) :
    Text ('\x7b' :: '"' :: (name.toList ++ '"' :: ':' :: value)) (.object [(some name, m)]) mid := by
  have hpieces : text? (name.toList.map .char) = some name := by
    rw [text?_map_char, String.ofList_toList]
  have hname : Name ('"' :: (name.toList ++ '"' :: ':' :: value)) (some name) value :=
    hpieces ▸ .mk rfl (content_plain h _) rfl
  exact .object (.first hname htext (.close rfl))

/-- **Being within the doubles is not enough for a number.** The only member is an environment with
one number, which is below the largest double. But the digits and the power of ten are rounded
first, and their product then is past it. -/
theorem decode_refuses_fitting :
    let n : Numeral := ⟨['1'], "797693134862315708".toList, some (false, "308".toList)⟩
    let text := "\x7b\"environment_json\":\x7b\"N\":1.797693134862315708e308\x7d\x7d"
    Digits "1.797693134862315708e308\x7d\x7d".toList n "\x7d\x7d".toList ∧ IsWithinDoubles n
      ∧ Document text.toList (.object
          [(some "environment_json", .object [(some "N", .number (n.value? false))])])
      ∧ ∀ r, decode (bytesOf text) ≠ .ok r := by
  intro n text
  have hfraction : Fraction (behindDigits "1.797693134862315708e308\x7d\x7d".toList) n.fraction
      "e308\x7d\x7d".toList :=
    @Fraction.present "797693134862315708e308\x7d\x7d".toList (by decide)
  have hexponent : Exponent "e308\x7d\x7d".toList n.exponent "\x7d\x7d".toList :=
    @Exponent.present 'e' "308\x7d\x7d".toList _ _ (.inl rfl) (.none (by decide) (by decide))
      (by decide)
  have hdigits : Digits "1.797693134862315708e308\x7d\x7d".toList n "\x7d\x7d".toList :=
    .mk (.inr ⟨'1', [], rfl, by decide⟩) hfraction hexponent
  have hwithin : IsWithinDoubles n := ⟨⟨infinityIndex - 1, by decide⟩, by decide +kernel⟩
  have hnumber : n.value? false = none := Option.isNone_iff_eq_none.1 (by decide +kernel)
  have htext : text.toList = '\x7b' :: '"' :: ("environment_json".toList ++ '"' :: ':' :: '\x7b' ::
      '"' :: ("N".toList ++ '"' :: ':' :: "1.797693134862315708e308\x7d\x7d".toList)) := by
    decide +kernel
  have hdocument : Document text.toList (.object
      [(some "environment_json", .object [(some "N", .number (n.value? false))])]) := by
    rw [htext]
    exact ⟨[], text_member "environment_json" (by decide) (text_member "N" (by decide)
      (.natural hdigits)), rfl⟩
  refine ⟨hdigits, hwithin, hdocument, fun r hr => ?_⟩
  obtain ⟨data, hdata, -⟩ := exists_of_map hr
  have hholds := holds_of_decode hdocument hdata
  rw [hnumber] at hholds
  obtain ⟨-, -, -, henvironment, -⟩ := (@Schema.holds_named _ _ _ _
    [("environment_json", .object [(some "N", .number none)])] _).1 hholds
  rcases henvironment with ⟨hcalled, -⟩ | ⟨name, m, given, hcalled, -, hgiven⟩
  · cases hcalled
  · cases hcalled
    rcases hgiven with ⟨hnull, -⟩ | ⟨-, o, -, members, hmembers, -⟩
    · cases hnull
    · cases members with
      | nil => cases hmembers
      | cons member rest =>
        obtain ⟨-, hvalue⟩ := Prod.mk.inj (List.cons.inj (Meaning.object.inj hmembers)).1
        obtain ⟨num, hnum, -⟩ := Value.meaning_eq_number.1 hvalue.symm
        cases hnum

end Record

end MetaCache
