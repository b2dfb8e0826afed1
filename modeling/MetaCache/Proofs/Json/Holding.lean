import MetaCache.Proofs.Json.Meanings

/-!
# Which data a meaning holds

What data of a schema a text holds depends on nothing but what the text means. `Schema.Holds` says
which data that is, schema by schema: a record takes its fields from the members of an object by
name or from the items of an array in order.

By name means that each field looks at the members that are called like it, and at no others. A
reader takes one member after the other instead and finds the field for each; in the end both come
to the same (`holdByName_iff`).
-/

namespace MetaCache

open MetaCache.Json MetaCache.Text

/-! ## What holds data -/

/-- What is given in a meaning: nothing in `null`. -/
def OrNull {α : Type} (H : Meaning → α → Prop) (m : Meaning) (given : Option α) : Prop :=
  (m = .null ∧ given = none) ∨ (m ≠ .null ∧ ∃ a, given = some a ∧ H m a)

/-- What is given by members of one name: nothing without any, and there is no second one. -/
def OrAbsent {α : Type} (H : Meaning → α → Prop) (members : List (String × Meaning))
    (given : Option α) : Prop :=
  (members = [] ∧ given = none) ∨ ∃ name m a, members = [(name, m)] ∧ given = some a ∧ H m a

/-- The members called `name`. -/
def called (name : String) (members : List (String × Meaning)) : List (String × Meaning) :=
  members.filter fun m => m.1 = name

/-- The members called otherwise. -/
def others (name : String) (members : List (String × Meaning)) : List (String × Meaning) :=
  members.filter fun m => m.1 ≠ name

mutual
/-- What means the data of a schema, with so many levels left. -/
def Schema.Holds : (schema : Schema) → Nat → Meaning → schema.Carrier → Prop
  | .text _, _, m, s => m = .string (some s)
  | .flag, _, m, b => m = .bool b
  | .natural _, _, m, n =>
    ∃ (k : Int) (fits : _), m = .number (some (.integer k fits)) ∧ 0 ≤ k ∧ n = UInt64.ofNat k.toNat
  | .choice names, levels, m, index => ∃ name, names.finIdxOf? name = some index
      ∧ (m = .string (some name) ∨ (0 < levels ∧ m = .object [(some name, .null)]))
  | .object, levels, m, o => ∃ members, m = (Value.object members).meaning
      ∧ (Value.object members).depth ≤ levels ∧ o = .ofMembers members
  | .optional content, levels, m, given => OrNull (content.Holds levels) m given
  | .list _, 0, _, _ => False
  | .list item, levels + 1, m, as => ∃ items, m = .array items
      ∧ List.Forall₂ (item.Holds levels) items as
  | .record _ _ _, 0, _, _ => False
  | .record _ strict fields, levels + 1, m, contents =>
    (∃ items, m = .array items ∧ fields.HoldInOrder levels items contents)
      ∨ ∃ members, m = .object (named members) ∧ fields.HoldByName strict levels members contents

/-- Items in the order of the fields. Fields that may be left out may be missing at the end. -/
def Fields.HoldInOrder : (fields : Fields) → Nat → List Meaning → fields.Carrier → Prop
  | .nil, _, items, _ => items = []
  | .cons _ .required schema rest, levels, items, (content, more) =>
    ∃ m items', items = m :: items' ∧ schema.Holds levels m content
      ∧ rest.HoldInOrder levels items' more
  | .cons _ .mayBeAbsent schema rest, levels, items, (given, more) =>
    (items = [] ∧ given = none ∧ rest.HoldInOrder levels [] more)
      ∨ ∃ m items' content, items = m :: items' ∧ given = some content
        ∧ schema.Holds levels m content ∧ rest.HoldInOrder levels items' more

/-- Members in any order. What is called like no field does not count, unless the record is
strict. -/
def Fields.HoldByName (strict : Bool) :
    (fields : Fields) → Nat → List (String × Meaning) → fields.Carrier → Prop
  | .nil, _, members, _ => strict → members = []
  | .cons name .required schema rest, levels, members, (content, more) =>
    OrAbsent (schema.Holds levels) (called name members) (some content)
      ∧ rest.HoldByName strict levels (others name members) more
  | .cons name .mayBeAbsent schema rest, levels, members, (given, more) =>
    OrAbsent (schema.Holds levels) (called name members) given
      ∧ rest.HoldByName strict levels (others name members) more
end

theorem named_injective {α : Type} : Function.Injective (named (α := α)) := by
  refine List.map_injective_iff.2 fun m m' h => ?_
  obtain ⟨hname, hvalue⟩ := Prod.mk.inj h
  exact Prod.ext (Option.some.inj hname) hvalue

/-- An object holds a record by name. -/
theorem Schema.holds_named {name : String} {strict : Bool} {fields : Fields} {levels : Nat}
    {members : List (String × Meaning)} {contents : fields.Carrier} :
    (Schema.record name strict fields).Holds (levels + 1) (.object (named members)) contents
      ↔ fields.HoldByName strict levels members contents := by
  constructor
  · rintro (⟨_, hm, -⟩ | ⟨members', hm, hhold⟩)
    · cases hm
    · rwa [named_injective (Meaning.object.inj hm)]
  · exact fun hhold => .inr ⟨members, rfl, hhold⟩

/-! ## What is held is never in doubt -/

theorem OrNull.unique {α : Type} {H H' : Meaning → α → Prop} {m : Meaning}
    {given given' : Option α} (h : OrNull H m given) (h' : OrNull H' m given')
    (hH : ∀ m a a', H m a → H' m a' → a = a') : given = given' := by
  rcases h with ⟨hnull, rfl⟩ | ⟨hnull, a, rfl, ha⟩
  · rcases h' with ⟨-, rfl⟩ | ⟨hnot, -⟩
    · rfl
    · exact absurd hnull hnot
  · rcases h' with ⟨hnot, -⟩ | ⟨-, a', rfl, ha'⟩
    · exact absurd hnot hnull
    · rw [hH _ _ _ ha ha']

theorem OrAbsent.unique {α : Type} {H H' : Meaning → α → Prop} {members : List (String × Meaning)}
    {given given' : Option α} (h : OrAbsent H members given) (h' : OrAbsent H' members given')
    (hH : ∀ m a a', H m a → H' m a' → a = a') : given = given' := by
  rcases h with ⟨rfl, rfl⟩ | ⟨name, m, a, rfl, rfl, ha⟩
  · rcases h' with ⟨-, rfl⟩ | ⟨_, _, _, hmembers, -⟩
    · rfl
    · cases hmembers
  · rcases h' with ⟨hmembers, -⟩ | ⟨_, _, a', hmembers, rfl, ha'⟩
    · cases hmembers
    · cases hmembers
      rw [hH _ _ _ ha ha']

theorem forall₂_unique {α β : Type} {H H' : α → β → Prop} {ms : List α} {as as' : List β}
    (h : List.Forall₂ H ms as) (h' : List.Forall₂ H' ms as')
    (hH : ∀ m a a', H m a → H' m a' → a = a') : as = as' := by
  induction h generalizing as' with
  | nil =>
    cases h'
    rfl
  | cons ha _ ih =>
    cases h' with
    | cons ha' h' => rw [hH _ _ _ ha ha', ih h']

mutual
/-- **A meaning holds one data of a schema at most**, however many levels are left. -/
theorem Schema.Holds.unique : ∀ {schema : Schema} {levels levels' : Nat} {m : Meaning}
    {a a' : schema.Carrier}, schema.Holds levels m a → schema.Holds levels' m a' → a = a'
  | .text _, _, _, _, _, _, h, h' => by
    simp only [Schema.Holds] at h h'
    rw [h] at h'
    simpa using h'
  | .flag, _, _, _, _, _, h, h' => by
    simp only [Schema.Holds] at h h'
    rw [h] at h'
    simpa using h'
  | .natural _, _, _, _, _, _, h, h' => by
    simp only [Schema.Holds] at h h'
    obtain ⟨k, _, rfl, -, rfl⟩ := h
    obtain ⟨k', _, hm, -, rfl⟩ := h'
    cases hm
    rfl
  | .choice names, _, _, _, _, _, h, h' => by
    simp only [Schema.Holds] at h h'
    obtain ⟨name, hindex, hm⟩ := h
    obtain ⟨name', hindex', hm'⟩ := h'
    obtain rfl : name = name' := by
      rcases hm with rfl | ⟨-, rfl⟩ <;> rcases hm' with hm' | ⟨-, hm'⟩ <;> cases hm' <;> rfl
    exact Option.some.inj (hindex.symm.trans hindex')
  | .object, _, _, _, _, _, h, h' => by
    simp only [Schema.Holds] at h h'
    obtain ⟨members, rfl, -, rfl⟩ := h
    obtain ⟨members', hm, -, rfl⟩ := h'
    cases Value.meaning_injective _ _ hm
    rfl
  | .optional content, _, _, _, _, _, h, h' => by
    simp only [Schema.Holds] at h h'
    exact h.unique h' fun _ _ _ ha ha' => Schema.Holds.unique ha ha'
  | .list _, 0, _, _, _, _, h, _ => by simp only [Schema.Holds] at h
  | .list _, _ + 1, 0, _, _, _, _, h' => by simp only [Schema.Holds] at h'
  | .list item, _ + 1, _ + 1, _, _, _, h, h' => by
    simp only [Schema.Holds] at h h'
    obtain ⟨items, rfl, has⟩ := h
    obtain ⟨items', hm, has'⟩ := h'
    cases hm
    exact forall₂_unique has has' fun _ _ _ ha ha' => Schema.Holds.unique ha ha'
  | .record _ _ _, 0, _, _, _, _, h, _ => by simp only [Schema.Holds] at h
  | .record _ _ _, _ + 1, 0, _, _, _, _, h' => by simp only [Schema.Holds] at h'
  | .record _ _ fields, _ + 1, _ + 1, _, _, _, h, h' => by
    simp only [Schema.Holds] at h h'
    rcases h with ⟨items, rfl, h⟩ | ⟨members, rfl, h⟩
    · rcases h' with ⟨items', hm, h'⟩ | ⟨members', hm, -⟩
      · cases hm
        exact Fields.HoldInOrder.unique h h'
      · cases hm
    · rcases h' with ⟨items', hm, -⟩ | ⟨members', hm, h'⟩
      · cases hm
      · obtain rfl := named_injective (Meaning.object.inj hm)
        exact Fields.HoldByName.unique h h'

theorem Fields.HoldInOrder.unique : ∀ {fields : Fields} {levels levels' : Nat} {items : List Meaning}
    {contents contents' : fields.Carrier}, fields.HoldInOrder levels items contents →
      fields.HoldInOrder levels' items contents' → contents = contents'
  | .nil, _, _, _, (), (), _, _ => rfl
  | .cons _ .required schema rest, _, _, _, (_, _), (_, _), h, h' => by
    simp only [Fields.HoldInOrder] at h h'
    obtain ⟨m, items, rfl, hcontent, hmore⟩ := h
    obtain ⟨m', items', hitems, hcontent', hmore'⟩ := h'
    cases hitems
    rw [Schema.Holds.unique hcontent hcontent', Fields.HoldInOrder.unique hmore hmore']
  | .cons _ .mayBeAbsent schema rest, _, _, _, (_, _), (_, _), h, h' => by
    simp only [Fields.HoldInOrder] at h h'
    rcases h with ⟨rfl, rfl, hmore⟩ | ⟨m, items, content, rfl, rfl, hcontent, hmore⟩
    · rcases h' with ⟨-, rfl, hmore'⟩ | ⟨_, _, _, hitems, -⟩
      · rw [Fields.HoldInOrder.unique hmore hmore']
      · cases hitems
    · rcases h' with ⟨hitems, -⟩ | ⟨_, _, _, hitems, rfl, hcontent', hmore'⟩
      · cases hitems
      · cases hitems
        rw [Schema.Holds.unique hcontent hcontent', Fields.HoldInOrder.unique hmore hmore']

theorem Fields.HoldByName.unique {strict : Bool} : ∀ {fields : Fields} {levels levels' : Nat}
    {members : List (String × Meaning)} {contents contents' : fields.Carrier},
      fields.HoldByName strict levels members contents →
      fields.HoldByName strict levels' members contents' → contents = contents'
  | .nil, _, _, _, (), (), _, _ => rfl
  | .cons _ .required schema rest, _, _, _, (_, _), (_, _), h, h' => by
    simp only [Fields.HoldByName] at h h'
    have hgiven := h.1.unique h'.1 fun _ _ _ ha ha' => Schema.Holds.unique ha ha'
    rw [Option.some.inj hgiven, Fields.HoldByName.unique h.2 h'.2]
  | .cons _ .mayBeAbsent schema rest, _, _, _, (_, _), (_, _), h, h' => by
    simp only [Fields.HoldByName] at h h'
    have hgiven := h.1.unique h'.1 fun _ _ _ ha ha' => Schema.Holds.unique ha ha'
    rw [hgiven, Fields.HoldByName.unique h.2 h'.2]
end

/-! ## Members one after the other -/

/-- Something that has not been given yet is given by a member. -/
def GivenOnce {α : Type} (H : Meaning → α → Prop) (given : Option α) (m : String × Meaning)
    (given' : Option α) : Prop := given = none ∧ ∃ a, given' = some a ∧ H m.2 a

theorem walk_givenOnce_some {α : Type} {H : Meaning → α → Prop} {members : List (String × Meaning)}
    {a : α} {given : Option α} :
    Walk (GivenOnce H) (some a) members given ↔ members = [] ∧ given = some a := by
  cases members with
  | nil => simp [walk_nil_iff]
  | cons m members => simp [walk_cons_iff, GivenOnce]

theorem walk_givenOnce_none {α : Type} {H : Meaning → α → Prop} {members : List (String × Meaning)}
    {given : Option α} : Walk (GivenOnce H) none members given ↔ OrAbsent H members given := by
  cases members with
  | nil => simp [walk_nil_iff, OrAbsent]
  | cons m members =>
    obtain ⟨name, m⟩ := m
    rw [walk_cons_iff]
    constructor
    · rintro ⟨_, ⟨-, a, rfl, ha⟩, hwalk⟩
      obtain ⟨rfl, rfl⟩ := walk_givenOnce_some.1 hwalk
      exact .inr ⟨name, m, a, rfl, rfl, ha⟩
    · rintro (⟨hnil, -⟩ | ⟨_, _, a, hcons, rfl, ha⟩)
      · cases hnil
      · cases hcons
        exact ⟨some a, ⟨rfl, a, rfl, ha⟩, walk_givenOnce_some.2 ⟨rfl, rfl⟩⟩

namespace Fields

variable {strict : Bool}

/-- A member gives the first field that is called like it. -/
def Takes (strict : Bool) :
    (fields : Fields) → Nat → fields.Draft → String × Meaning → fields.Draft → Prop
  | .nil, _, _, _, _ => strict = false
  | .cons name _ schema rest, levels, (given, more), m, (given', more') =>
    if m.1 = name then GivenOnce (schema.Holds levels) given m given' ∧ more' = more
    else given' = given ∧ rest.Takes strict levels more m more'

theorem walk_takes_nil {levels : Nat} {members : List (String × Meaning)} {draft draft' : Unit} :
    Walk (Takes strict .nil levels) draft members draft' ↔ (strict → members = []) := by
  induction members with
  | nil => simp [walk_nil_iff]
  | cons m members ih =>
    rw [walk_cons_iff]
    cases strict with
    | true => simp [Takes]
    | false =>
      have hlax {P : Prop} : false = true → P := fun h => absurd h Bool.false_ne_true
      exact iff_of_true ⟨draft, rfl, ih.2 hlax⟩ hlax

/-- The members of one name give the first field, all others the rest. -/
theorem walk_takes_cons {name : String} {presence : Presence} {schema : Schema} {rest : Fields}
    {levels : Nat} {members : List (String × Meaning)} {given given' : Option schema.Carrier}
    {more more' : rest.Draft} :
    Walk (Takes strict (.cons name presence schema rest) levels) (given, more) members
        (given', more')
      ↔ Walk (GivenOnce (schema.Holds levels)) given (called name members) given'
        ∧ Walk (rest.Takes strict levels) more (others name members) more' := by
  induction members generalizing given more with
  | nil => simp [walk_nil_iff, called, others]
  | cons m members ih =>
    rw [walk_cons_iff]
    by_cases hname : m.1 = name
    · have hcalled : called name (m :: members) = m :: called name members :=
        List.filter_cons_of_pos (by simpa using hname)
      have hothers : others name (m :: members) = others name members :=
        List.filter_cons_of_neg (by simpa using hname)
      rw [hcalled, hothers, walk_cons_iff]
      constructor
      · rintro ⟨⟨given₁, more₁⟩, htakes, hwalk⟩
        rw [Takes, if_pos hname] at htakes
        obtain ⟨htakes, rfl⟩ := htakes
        obtain ⟨hgiven, hmore⟩ := ih.1 hwalk
        exact ⟨⟨given₁, htakes, hgiven⟩, hmore⟩
      · rintro ⟨⟨given₁, htakes, hgiven⟩, hmore⟩
        refine ⟨(given₁, more), ?_, ih.2 ⟨hgiven, hmore⟩⟩
        rw [Takes, if_pos hname]
        exact ⟨htakes, rfl⟩
    · have hcalled : called name (m :: members) = called name members :=
        List.filter_cons_of_neg (by simpa using hname)
      have hothers : others name (m :: members) = m :: others name members :=
        List.filter_cons_of_pos (by simpa using hname)
      rw [hcalled, hothers, walk_cons_iff]
      constructor
      · rintro ⟨⟨given₁, more₁⟩, htakes, hwalk⟩
        rw [Takes, if_neg hname] at htakes
        obtain ⟨rfl, htakes⟩ := htakes
        obtain ⟨hgiven, hmore⟩ := ih.1 hwalk
        exact ⟨hgiven, more₁, htakes, hmore⟩
      · rintro ⟨hgiven, more₁, htakes, hmore⟩
        refine ⟨(given, more₁), ?_, ih.2 ⟨hgiven, hmore⟩⟩
        rw [Takes, if_neg hname]
        exact ⟨rfl, htakes⟩

theorem complete_required {name : String} {schema : Schema} {rest : Fields}
    {given : Option schema.Carrier} {more : rest.Draft} {content : schema.Carrier}
    {contents : rest.Carrier} :
    complete (.cons name .required schema rest) (given, more) = .ok (content, contents)
      ↔ given = some content ∧ rest.complete more = .ok contents := by
  cases given with
  | none => simp [complete]
  | some given =>
    rw [complete]
    cases rest.complete more <;> simp [Except.map]

theorem complete_mayBeAbsent {name : String} {schema : Schema} {rest : Fields}
    {given given' : Option schema.Carrier} {more : rest.Draft} {contents : rest.Carrier} :
    complete (.cons name .mayBeAbsent schema rest) (given, more) = .ok (given', contents)
      ↔ given = given' ∧ rest.complete more = .ok contents := by
  rw [complete]
  cases rest.complete more <;> simp [Except.map]

/-- **What the members have given when all are taken.** -/
theorem holdByName_iff {levels : Nat} : ∀ {fields : Fields} {members : List (String × Meaning)}
    {contents : fields.Carrier},
    fields.HoldByName strict levels members contents
      ↔ ∃ draft, Walk (fields.Takes strict levels) fields.blank members draft
        ∧ fields.complete draft = .ok contents
  | .nil, members, () => by
    rw [HoldByName]
    constructor
    · exact fun h => ⟨(), walk_takes_nil.2 h, rfl⟩
    · rintro ⟨draft, hwalk, -⟩
      exact walk_takes_nil.1 hwalk
  | .cons name .required schema rest, members, (content, more) => by
    rw [HoldByName, @holdByName_iff levels rest, ← walk_givenOnce_none]
    constructor
    · rintro ⟨hgiven, draft, hwalk, hcomplete⟩
      exact ⟨(some content, draft), walk_takes_cons.2 ⟨hgiven, hwalk⟩,
        complete_required.2 ⟨rfl, hcomplete⟩⟩
    · rintro ⟨⟨given, draft⟩, hwalk, hcomplete⟩
      obtain ⟨rfl, hrest⟩ := complete_required.1 hcomplete
      obtain ⟨hgiven, hwalk⟩ := walk_takes_cons.1 hwalk
      exact ⟨hgiven, draft, hwalk, hrest⟩
  | .cons name .mayBeAbsent schema rest, members, (given, more) => by
    rw [HoldByName, @holdByName_iff levels rest, ← walk_givenOnce_none]
    constructor
    · rintro ⟨hgiven, draft, hwalk, hcomplete⟩
      exact ⟨(given, draft), walk_takes_cons.2 ⟨hgiven, hwalk⟩,
        complete_mayBeAbsent.2 ⟨rfl, hcomplete⟩⟩
    · rintro ⟨⟨given, draft⟩, hwalk, hcomplete⟩
      obtain ⟨rfl, hrest⟩ := complete_mayBeAbsent.1 hcomplete
      obtain ⟨hgiven, hwalk⟩ := walk_takes_cons.1 hwalk
      exact ⟨hgiven, draft, hwalk, hrest⟩

end Fields

end MetaCache
