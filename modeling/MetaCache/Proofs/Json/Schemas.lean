import MetaCache.Proofs.Json.Values

/-!
# Data of a schema that was written reads back

Data reads back from its text if it *fits*: its containers nest within the levels left, and so do
the objects with any members, whose numbers must all be whole. The schema has to tell its texts
apart (`Schema.isUnambiguous`): a field or a choice has one name, and nothing is optional twice,
because both ways to leave it out would be `null`.
-/

namespace MetaCache

open MetaCache.Json MetaCache.Text

/-! ## Schemas that tell their texts apart -/

def Schema.isOptional : Schema → Bool
  | .optional _ => true
  | _ => false

mutual
/-- No name occurs twice and nothing is optional twice. -/
def Schema.isUnambiguous : Schema → Bool
  | .choice names => decide names.Nodup
  | .optional content => !content.isOptional && content.isUnambiguous
  | .list item => item.isUnambiguous
  | .record _ _ fields => fields.areUnambiguous
  | _ => true

def Fields.areUnambiguous : Fields → Bool
  | .nil => true
  | .cons name _ schema rest =>
    decide (name ∉ rest.names) && schema.isUnambiguous && rest.areUnambiguous
end

/-! ## Levels of data -/

mutual
/-- The containers nest within the levels, and `P` holds of every object with any members and of
the levels left for it. -/
def Schema.Nests (P : Nat → Object → Prop) : (schema : Schema) → Nat → schema.Carrier → Prop
  | .text _, _, _ => True
  | .flag, _, _ => True
  | .natural _, _, _ => True
  | .choice _, _, _ => True
  | .object, levels, o => P levels o
  | .optional content, levels, given => ∀ a ∈ given, content.Nests P levels a
  | .list _, 0, _ => False
  | .list item, levels + 1, as => ∀ a ∈ as, item.Nests P levels a
  | .record _ _ _, 0, _ => False
  | .record _ _ fields, levels + 1, contents => fields.Nests P levels contents

def Fields.Nests (P : Nat → Object → Prop) : (fields : Fields) → Nat → fields.Carrier → Prop
  | .nil, _, _ => True
  | .cons _ .required schema rest, levels, (content, more) =>
    schema.Nests P levels content ∧ rest.Nests P levels more
  | .cons _ .mayBeAbsent schema rest, levels, (given, more) =>
    (∀ content ∈ given, schema.Nests P levels content) ∧ rest.Nests P levels more
end

namespace Json

/-- The object's containers nest within the levels. -/
def Object.Within (levels : Nat) (o : Object) : Prop := o.toValue.depth ≤ levels

/-- The object nests within the levels, and its numbers are whole. -/
def Object.Fits (levels : Nat) (o : Object) : Prop :=
  o.toValue.isExact ∧ o.toValue.depth ≤ levels

end Json

namespace Fields

/-- The draft in which the contents are given. -/
def drafted : (fields : Fields) → fields.Carrier → fields.Draft
  | .nil, _ => ()
  | .cons _ .required _ rest, (content, more) => (some content, rest.drafted more)
  | .cons _ .mayBeAbsent _ rest, (given, more) => (given, rest.drafted more)

theorem complete_drafted :
    ∀ (fields : Fields) (contents : fields.Carrier),
      fields.complete (fields.drafted contents) = .ok contents
  | .nil, _ => rfl
  | .cons _ .required _ rest, (content, more) => by
    rw [drafted, complete, complete_drafted rest more]
    rfl
  | .cons _ .mayBeAbsent _ rest, (given, more) => by
    rw [drafted, complete, complete_drafted rest more]
    rfl

end Fields

namespace Json

/-! ## Texts -/

/-- The members of a record with the text behind each name. -/
def fieldEntries : (fields : Fields) → fields.Carrier → List (String × List UInt8)
  | .nil, _ => []
  | .cons name .required schema rest, (content, more) =>
    (name, 0x3a :: utf8 (encodeData schema content)) :: fieldEntries rest more
  | .cons name .mayBeAbsent schema rest, (some content, more) =>
    (name, 0x3a :: utf8 (encodeData schema content)) :: fieldEntries rest more
  | .cons _ .mayBeAbsent _ rest, (none, more) => fieldEntries rest more

theorem utf8_memberText (name : String) (text : List Char) :
    utf8 (writeString name ++ ':' :: text) = memberText (name, 0x3a :: utf8 text) := by
  rw [utf8_append, utf8_cons_of_lt (by decide)]
  rfl

theorem utf8_encodeFields :
    ∀ (fields : Fields) (contents : fields.Carrier),
      (encodeFields fields contents).map utf8 = (fieldEntries fields contents).map memberText
  | .nil, _ => rfl
  | .cons _ .required _ rest, (_, more) => by
    simp only [encodeFields, fieldEntries, List.map_cons, utf8_memberText,
      utf8_encodeFields rest more]
  | .cons _ .mayBeAbsent _ rest, (some _, more) => by
    simp only [encodeFields, fieldEntries, List.map_cons, utf8_memberText,
      utf8_encodeFields rest more]
  | .cons _ .mayBeAbsent _ rest, (none, more) => by
    simp only [encodeFields, fieldEntries, utf8_encodeFields rest more]

theorem mem_names_of_mem_fieldEntries :
    ∀ {fields : Fields} {contents : fields.Carrier},
      ∀ e ∈ fieldEntries fields contents, e.1 ∈ fields.names
  | .nil, _, _, h => absurd h List.not_mem_nil
  | .cons _ .required _ _, (_, _), e, h =>
    (List.mem_cons.1 h).elim (fun h => h ▸ List.mem_cons_self)
      fun h => List.mem_cons_of_mem _ (mem_names_of_mem_fieldEntries e h)
  | .cons _ .mayBeAbsent _ _, (some _, _), e, h =>
    (List.mem_cons.1 h).elim (fun h => h ▸ List.mem_cons_self)
      fun h => List.mem_cons_of_mem _ (mem_names_of_mem_fieldEntries e h)
  | .cons _ .mayBeAbsent _ _, (none, _), e, h =>
    List.mem_cons_of_mem _ (mem_names_of_mem_fieldEntries e h)

/-- A text whose first byte is a sign of its own: no blank, no closing bracket, and the first
letter of `null` only for something optional. -/
def Signed (isOptional : Bool) (bytes : List UInt8) : Prop :=
  ∃ b more, bytes = b :: more ∧ isBlank b = false ∧ b ≠ 0x5d ∧ (isOptional = false → b ≠ 0x6e)

theorem Signed.begins {isOptional : Bool} {bytes : List UInt8} (h : Signed isOptional bytes) :
    Begins bytes := by
  obtain ⟨b, more, hb, hblank, hne, -⟩ := h
  exact ⟨b, more, hb, hblank, hne⟩

theorem signed_of_char {isOptional : Bool} {c : Char} (cs : List Char) (hlt : c.toNat < 0x80)
    (hblank : isBlank (UInt8.ofNat c.toNat) = false) (hclose : UInt8.ofNat c.toNat ≠ 0x5d)
    (hnull : isOptional = false → UInt8.ofNat c.toNat ≠ 0x6e) :
    Signed isOptional (utf8 (c :: cs)) :=
  ⟨_, _, utf8_cons_of_lt hlt cs, hblank, hclose, hnull⟩

theorem signed_encodeData : ∀ (schema : Schema) (data : schema.Carrier),
    Signed schema.isOptional (utf8 (encodeData schema data))
  | .text _, _ => signed_of_char (c := '"') _ (by decide) (by decide) (by decide) fun _ => by decide
  | .flag, true => signed_of_char (c := 't') _ (by decide) (by decide) (by decide) (by decide)
  | .flag, false => signed_of_char (c := 'f') _ (by decide) (by decide) (by decide) (by decide)
  | .natural _, n => by
    obtain ⟨b, more, hb, hdigit⟩ := utf8_toDigits n.toNat
    refine ⟨b, more, ?_, isBlank_of_isDigit hdigit, ne_of_isDigit hdigit (by decide),
      fun _ => ne_of_isDigit hdigit (by decide)⟩
    rw [← hb, ← writeInt_natCast]
    rfl
  | .choice _, _ => signed_of_char (c := '"') _ (by decide) (by decide) (by decide) fun _ => by decide
  | .object, _ => signed_of_char (c := '\x7b') _ (by decide) (by decide) (by decide) (by decide)
  | .optional _, none =>
    signed_of_char (c := 'n') _ (by decide) (by decide) (by decide) (fun h => Bool.noConfusion h)
  | .optional content, some a => by
    obtain ⟨b, more, hb, hblank, hclose, -⟩ := signed_encodeData content a
    exact ⟨b, more, hb, hblank, hclose, fun h => Bool.noConfusion h⟩
  | .list _, _ => signed_of_char (c := '[') _ (by decide) (by decide) (by decide) fun _ => by decide
  | .record _ _ _, _ =>
    signed_of_char (c := '\x7b') _ (by decide) (by decide) (by decide) fun _ => by decide

namespace Reader

/-! ## Leaves -/

theorem startOfValue_bind {α : Type} {b : UInt8} (h : isBlank b = false) (f : UInt8 → Reader α)
    (rest : List UInt8) (p : Position) :
    (startOfValue >>= f) ⟨b :: rest, p⟩ = f b ⟨b :: rest, p⟩ := by
  have hstart : startOfValue ⟨b :: rest, p⟩ = .done b ⟨b :: rest, p⟩ := by
    rw [startOfValue, nextSign_bind h]
    rfl
  exact bind_of_done hstart

theorem text_reads (expected s : String) : Reads (text expected) (utf8 (writeString s)) s := by
  intro rest p _
  rw [writeString, List.cons_append, utf8_cons_of_lt (by decide), utf8_append, List.cons_append,
    List.append_assoc, text, startOfValue_bind (by decide), if_pos (by decide), advance_bind]
  exact string_written s rest _

theorem flag_reads (b : Bool) : Reads flag (utf8 (writeBool b)) b := by
  intro rest p hrest
  cases b with
  | true =>
    show flag ⟨0x74 :: (rue ++ rest), p⟩ = _
    rw [flag, startOfValue_bind (by decide), if_pos rfl, advance_bind,
      bind_of_done (word_reads rue rest _ hrest)]
    rfl
  | false =>
    show flag ⟨0x66 :: (alse ++ rest), p⟩ = _
    rw [flag, startOfValue_bind (by decide), if_neg (by decide), if_pos rfl, advance_bind,
      bind_of_done (word_reads alse rest _ hrest)]
    rfl

theorem natural_reads (word : String) (n : UInt64) :
    Reads (natural word) (utf8 (writeInt n.toNat)) n := by
  intro rest p hrest
  have hlt : n.toNat < 0x10000000000000000 := n.toNat_lt
  have hfits : -0x8000000000000000 ≤ (n.toNat : Int) ∧ (n.toNat : Int) < 0x10000000000000000 := by
    omega
  have hread : Reads (do natural.accept word (← number false)) (utf8 (writeInt n.toNat)) n := by
    intro rest p hrest
    rw [writeInt_natCast, bind_of_done (number_natural hfits rest p hrest)]
    simp only [natural.accept, if_neg (Int.not_lt.2 (Int.natCast_nonneg _)), Int.toNat_natCast,
      UInt64.ofNat_toNat]
    rfl
  obtain ⟨b, more, hb, hdigit⟩ := utf8_toDigits n.toNat
  refine Eq.trans ?_ (hread.located rest p hrest)
  rw [writeInt_natCast, hb, List.cons_append, natural, startOfValue_bind (isBlank_of_isDigit hdigit),
    if_neg (ne_of_isDigit hdigit (by decide)), if_pos hdigit]

theorem finIdxOf?_getElem {names : List String} (h : names.Nodup) (index : Fin names.length) :
    names.finIdxOf? names[index] = some index := by
  rw [List.finIdxOf?_eq_some_iff]
  exact ⟨rfl, fun j hj heq => List.pairwise_iff_getElem.1 h j index j.isLt index.isLt hj heq⟩

theorem choice_reads {names : List String} (h : names.Nodup) (index : Fin names.length)
    (levels : Nat) : Reads (choice names levels) (utf8 (writeString names[index])) index := by
  have hvariant : Reads (variant names) (utf8 (writeString names[index])) index := by
    refine .located fun rest p hrest => ?_
    rw [bind_of_done (text_reads _ _ rest p hrest), finIdxOf?_getElem h]
    rfl
  intro rest p hrest
  refine Eq.trans ?_ (hvariant rest p hrest)
  rw [writeString, List.cons_append, utf8_cons_of_lt (by decide), List.cons_append]
  exact startOfValue_bind (b := 0x22) (by decide) _ _ _

theorem anyMembers_reads {levels : Nat} {o : Object} (h : o.Fits levels) :
    Reads (anyMembers levels) (utf8 o.write) o := by
  obtain ⟨hexact, hdepth⟩ := h
  cases levels with
  | zero => exact absurd hdepth (Nat.not_succ_le_zero _)
  | succ levels =>
    have hmembers : ∀ m ∈ o.members, Reads (value levels) (utf8 m.2.write) m.2 := fun m hm =>
      value_reads (membersExact_iff.1 hexact m hm)
        (membersDepth_le_iff.1 (Nat.le_of_succ_le_succ hdepth) m hm)
    have hread := (gather_object_reads levels (r := value) hmembers).map fun done =>
      Object.ofMembers done.reverse
    rw [List.reverse_reverse, Object.ofMembers_members] at hread
    intro rest p hrest
    refine Eq.trans ?_ (hread rest p hrest)
    rw [Object.write, Object.toValue, utf8_object, List.cons_append, List.cons_append]
    exact startOfValue_bind (by decide) _ _ _

theorem optional_none_reads {α : Type} (content : Reader α) :
    Reads (optional content) (utf8 "null".toList) none := by
  intro rest p hrest
  show optional content ⟨0x6e :: (ull ++ rest), p⟩ = _
  rw [optional, nextSign_bind (by decide), if_pos rfl, advance_bind,
    bind_of_done (word_reads ull rest _ hrest)]
  rfl

theorem optional_some_reads {α : Type} {content : Reader α} {bytes : List UInt8} {a : α}
    (hsign : Signed false bytes) (h : Reads content bytes a) :
    Reads (optional content) bytes (some a) := by
  intro rest p hrest
  obtain ⟨b, more, rfl, hblank, -, hnull⟩ := hsign
  refine Eq.trans ?_ (h.map some rest p hrest)
  rw [List.cons_append, optional, nextSign_bind hblank,
    if_neg fun hb => hnull rfl (Option.some.inj hb)]

theorem listOf_reads {α : Type} {r : Nat → Reader α} {levels : Nat} {text : α → List UInt8}
    {as : List α} (h : ∀ a ∈ as, Begins (text a) ∧ Reads (r levels) (text a) a) :
    Reads (listOf r (levels + 1)) (0x5b :: commas (as.map text) ++ [0x5d]) as := by
  have hread := (gather_list_reads levels h).map List.reverse
  rw [List.reverse_reverse] at hread
  intro rest p hrest
  refine Eq.trans ?_ (hread rest p hrest)
  rw [List.cons_append, List.cons_append]
  exact startOfValue_bind (by decide) _ _ _

/-! ## Records -/

/-- A field takes the text behind its name. -/
def TakesField (fields : Fields) (levels : Nat) (draft : fields.Draft)
    (e : String × List UInt8) (draft' : fields.Draft) : Prop :=
  ∃ read, byName fields levels e.1 draft = some read ∧ Reads read e.2 draft'

/-- The first field, which has not been given yet. -/
theorem takesField_first {name : String} {presence : Presence} {schema : Schema} {rest : Fields}
    {levels : Nat} {content : schema.Carrier} {more : rest.Draft}
    (h : Reads (ofSchema schema levels) (utf8 (encodeData schema content)) content) :
    TakesField (.cons name presence schema rest) levels (none, more)
      (name, 0x3a :: utf8 (encodeData schema content)) (some content, more) := by
  refine ⟨_, by rw [byName, if_pos rfl], ?_⟩
  exact colon_reads (h.map fun content => (some content, more))

/-- The other fields are read as if the first one were not there. -/
theorem takesField_rest {name : String} {presence : Presence} {schema : Schema} {rest : Fields}
    {levels : Nat} {given : Option schema.Carrier} {more more' : rest.Draft}
    {e : String × List UInt8} (hne : e.1 ≠ name) (h : TakesField rest levels more e more') :
    TakesField (.cons name presence schema rest) levels (given, more) e (given, more') := by
  obtain ⟨read, hbyName, hread⟩ := h
  exact ⟨_, by rw [byName, if_neg hne, hbyName]; rfl, hread.map (given, ·)⟩

theorem walk_rest {name : String} {presence : Presence} {schema : Schema} {rest : Fields}
    {levels : Nat} {given : Option schema.Carrier} {more : rest.Carrier}
    (hname : name ∉ rest.names)
    (h : Walk (TakesField rest levels) rest.blank (fieldEntries rest more) (rest.drafted more)) :
    Walk (TakesField (.cons name presence schema rest) levels) (given, rest.blank)
      (fieldEntries rest more) (given, rest.drafted more) :=
  h.inside (given, ·) fun e he _ _ htakes =>
    takesField_rest (fun heq => hname (heq ▸ mem_names_of_mem_fieldEntries e he)) htakes

/-- A record reads back as soon as its fields do. -/
theorem record_reads {name : String} {strict : Bool} {fields : Fields} {levels : Nat}
    {contents : fields.Carrier}
    (h : Walk (TakesField fields levels) fields.blank (fieldEntries fields contents)
      (fields.drafted contents)) :
    Reads (ofSchema (.record name strict fields) (levels + 1))
      (utf8 (encodeData (.record name strict fields) contents)) contents := by
  intro rest p hrest
  rw [encodeData, List.cons_append, utf8_cons_of_lt (by decide), utf8_append,
    utf8_commaSeparated, utf8_encodeFields, ofSchema]
  refine (startOfValue_bind (by decide) _ _ _).trans ?_
  rw [if_neg (by decide), if_pos (by decide)]
  refine braces_reads (fun rest p => ?_) rest p hrest
  rw [bind_of_done (members_of_walk (?_ : Walk _ _ _ (fields.drafted contents)) rest p)]
  · rw [fields.complete_drafted]
    rfl
  · refine h.inside id fun e _ draft draft' ⟨read, hbyName, hread⟩ => ?_
    simp only [TakesMember, id, hbyName]
    exact hread

/-! ## Data -/

mutual
/-- **Written data reads back** if the schema is unambiguous and the data fits. -/
theorem ofSchema_reads : ∀ (schema : Schema) (levels : Nat) (data : schema.Carrier),
    schema.isUnambiguous → schema.Nests Object.Fits levels data →
      Reads (ofSchema schema levels) (utf8 (encodeData schema data)) data
  | .text expected, _, s, _, _ => text_reads expected s
  | .flag, _, b, _, _ => flag_reads b
  | .natural word, _, n, _, _ => natural_reads word n
  | .choice _, levels, index, hclear, _ => choice_reads (of_decide_eq_true hclear) index levels
  | .object, _, _, _, hfits => anyMembers_reads hfits
  | .optional _, _, none, _, _ => optional_none_reads _
  | .optional content, levels, some a, hclear, hfits => by
    obtain ⟨honce, hcontent⟩ := Bool.and_eq_true_iff.1 hclear
    have hsigned := signed_encodeData content a
    rw [(Bool.not_eq_true' _).mp honce] at hsigned
    exact optional_some_reads hsigned (ofSchema_reads content levels a hcontent (hfits a rfl))
  | .list item, levels + 1, as, hclear, hfits => by
    have hitems : ∀ a ∈ as, Begins (utf8 (encodeData item a))
        ∧ Reads (ofSchema item levels) (utf8 (encodeData item a)) a := fun a ha =>
      ⟨(signed_encodeData item a).begins, ofSchema_reads item levels a hclear (hfits a ha)⟩
    rw [encodeData, List.cons_append, utf8_cons_of_lt (by decide), utf8_append,
      utf8_commaSeparated, List.map_map]
    exact listOf_reads (r := ofSchema item) hitems
  | .record _ _ fields, levels + 1, contents, hclear, hfits =>
    record_reads (fields_walk fields levels contents hclear hfits)

theorem fields_walk : ∀ (fields : Fields) (levels : Nat) (contents : fields.Carrier),
    fields.areUnambiguous → fields.Nests Object.Fits levels contents →
      Walk (TakesField fields levels) fields.blank (fieldEntries fields contents)
        (fields.drafted contents)
  | .nil, _, _, _, _ => .nil _
  | .cons _ .required schema rest, levels, (content, more), hclear, hfits => by
    obtain ⟨hfront, hrest⟩ := Bool.and_eq_true_iff.1 hclear
    obtain ⟨hname, hschema⟩ := Bool.and_eq_true_iff.1 hfront
    exact .cons (takesField_first (ofSchema_reads schema levels content hschema hfits.1))
      (walk_rest (of_decide_eq_true hname) (fields_walk rest levels more hrest hfits.2))
  | .cons _ .mayBeAbsent schema rest, levels, (some content, more), hclear, hfits => by
    obtain ⟨hfront, hrest⟩ := Bool.and_eq_true_iff.1 hclear
    obtain ⟨hname, hschema⟩ := Bool.and_eq_true_iff.1 hfront
    have hcontent := ofSchema_reads schema levels content hschema (hfits.1 content rfl)
    exact .cons (takesField_first hcontent)
      (walk_rest (of_decide_eq_true hname) (fields_walk rest levels more hrest hfits.2))
  | .cons _ .mayBeAbsent _ rest, levels, (none, more), hclear, hfits => by
    obtain ⟨hfront, hrest⟩ := Bool.and_eq_true_iff.1 hclear
    obtain ⟨hname, -⟩ := Bool.and_eq_true_iff.1 hfront
    exact walk_rest (of_decide_eq_true hname) (fields_walk rest levels more hrest hfits.2)
end

end Reader

/-- **A document reads back as the data it was written from.** -/
theorem decode_encode {schema : Schema} {data : schema.Carrier} (hclear : schema.isUnambiguous)
    (hfits : schema.Nests Object.Fits nestingLimit data) :
    decode schema (bytesOf (encode schema data)) = .ok data := by
  have hread := Reader.ofSchema_reads schema nestingLimit data hclear hfits [] .start apart_nil
  rw [List.append_nil] at hread
  have hfinish : ∀ p, Reader.finish ⟨[], p⟩ = .done () ⟨[], p⟩ := fun p => rfl
  rw [encode, bytesOf_ofList, decode, readDocument, Input.ofBytes, Reader.bind_of_done hread,
    Reader.bind_of_done (hfinish _)]
  rfl

end Json

end MetaCache
