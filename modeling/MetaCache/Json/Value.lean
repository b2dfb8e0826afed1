import MetaCache.Number.Binary64

/-!
# JSON values

A number keeps what its text says as long as 64 bits hold it: a whole number without sign up to
`2 ^ 64 - 1`, a negative one down to `-2 ^ 63`. Everything else is a double.

The members of an object have no order of their own. Their one representation is *canonical*:
names strictly increasing by code point, of members that share a name the last. `Value.canonical`
brings any value into this form and leaves a canonical one alone (`canonical_canonical`), and
`Object` is the type of canonical member lists.
-/

namespace MetaCache.Json

open MetaCache.Number

/-- A number that was read or will be written. -/
inductive Number
  | integer (value : Int) (fits : -0x8000000000000000 ≤ value ∧ value < 0x10000000000000000)
  | float (value : Binary64)
  deriving DecidableEq, Repr

/-- A natural number as an integer, if it is small enough. -/
def Number.ofNat? (n : Nat) : Option Number :=
  if h : n < 0x10000000000000000 then some (.integer n (by omega)) else none

/-- A JSON value. Members are listed in any order. -/
inductive Value
  | null
  | bool (value : Bool)
  | number (value : Number)
  | string (value : String)
  | array (items : List Value)
  | object (members : List (String × Value))
  deriving Repr, Inhabited

/-! ## Members by name -/

/-- Puts a member in its place among members in increasing order; an equal name is replaced. -/
def insertMember {α : Type} (name : String) (value : α) :
    List (String × α) → List (String × α)
  | [] => [(name, value)]
  | (other, kept) :: rest =>
    if name < other then (name, value) :: (other, kept) :: rest
    else if name = other then (name, value) :: rest
    else (other, kept) :: insertMember name value rest

/-- Members in increasing order of their names, the last one of each name. -/
def sortMembers {α : Type} (members : List (String × α)) : List (String × α) :=
  members.foldl (fun sorted member => insertMember member.1 member.2 sorted) []

/-- Names in strictly increasing order. -/
def Sorted {α : Type} (members : List (String × α)) : Prop :=
  members.Pairwise (fun a b => a.1 < b.1)

theorem insertMember_of_all_lt {α : Type} {name : String} {value : α} :
    ∀ {members : List (String × α)}, (∀ m ∈ members, m.1 < name) →
      insertMember name value members = members ++ [(name, value)]
  | [], _ => rfl
  | (other, kept) :: rest, h => by
    have hlt : other < name := h _ List.mem_cons_self
    have hnot : ¬ name < other := fun h' => String.lt_irrefl _ (String.lt_trans h' hlt)
    have hne : name ≠ other := fun h' => by subst h'; exact String.lt_irrefl _ hlt
    simp only [insertMember, hnot, hne, ite_false, List.cons_append]
    rw [insertMember_of_all_lt (fun m hm => h m (List.mem_cons_of_mem _ hm))]

/-- Members that are in order already stay as they are. -/
theorem sortMembers_of_sorted {α : Type} {members : List (String × α)} (h : Sorted members) :
    sortMembers members = members := by
  suffices key : ∀ (rest front : List (String × α)), Sorted (front ++ rest) →
      rest.foldl (fun sorted member => insertMember member.1 member.2 sorted) front
        = front ++ rest by
    simpa [sortMembers] using key members [] (by simpa using h)
  intro rest
  induction rest with
  | nil => intro front _; simp
  | cons m rest ih =>
    intro front hs
    have hall : ∀ a ∈ front, a.1 < m.1 := fun a ha =>
      (List.pairwise_append.1 hs).2.2 a ha m List.mem_cons_self
    rw [List.foldl_cons, insertMember_of_all_lt hall, ih _ (by simpa using hs)]
    simp

theorem insertMember_mem {α : Type} {name : String} {value : α} {m : String × α} :
    ∀ {members : List (String × α)}, m ∈ insertMember name value members →
      m = (name, value) ∨ m ∈ members
  | [], h => by simpa [insertMember] using h
  | (other, kept) :: rest, h => by
    simp only [insertMember] at h
    split at h
    · simpa using h
    · split at h
      · rcases List.mem_cons.1 h with h | h
        · exact .inl h
        · exact .inr (List.mem_cons_of_mem _ h)
      · rcases List.mem_cons.1 h with h | h
        · exact .inr (h ▸ List.mem_cons_self)
        · exact (insertMember_mem h).imp id (List.mem_cons_of_mem _)

theorem lt_of_not_lt_of_ne {a b : String} (h : ¬ a < b) (hne : a ≠ b) : b < a := by
  rcases String.le_total b a with hle | hle
  · exact Classical.byContradiction fun hlt => hne (String.le_antisymm (String.not_lt.1 hlt) hle)
  · exact absurd (String.le_antisymm hle (String.not_lt.1 h)) hne

theorem insertMember_sorted {α : Type} {name : String} {value : α} :
    ∀ {members : List (String × α)}, Sorted members → Sorted (insertMember name value members)
  | [], _ => by simp [insertMember, Sorted]
  | (other, kept) :: rest, h => by
    have hrest := List.pairwise_cons.1 h
    simp only [insertMember]
    split
    · next hlt =>
      refine List.pairwise_cons.2 ⟨fun m hm => ?_, h⟩
      rcases List.mem_cons.1 hm with rfl | hm
      · exact hlt
      · exact String.lt_trans hlt (hrest.1 m hm)
    · next hnot =>
      split
      · next heq =>
        subst heq
        exact List.pairwise_cons.2 ⟨hrest.1, hrest.2⟩
      · next hne =>
        refine List.pairwise_cons.2 ⟨fun m hm => ?_, insertMember_sorted hrest.2⟩
        rcases insertMember_mem hm with rfl | hm
        · exact lt_of_not_lt_of_ne hnot hne
        · exact hrest.1 m hm

theorem sortMembers_sorted {α : Type} (members : List (String × α)) :
    Sorted (sortMembers members) := by
  suffices key : ∀ (rest front : List (String × α)), Sorted front →
      Sorted (rest.foldl (fun sorted member => insertMember member.1 member.2 sorted) front) from
    key members [] List.Pairwise.nil
  intro rest
  induction rest with
  | nil => intro front h; exact h
  | cons m rest ih => intro front h; exact ih _ (insertMember_sorted h)

theorem sortMembers_mem {α : Type} {members : List (String × α)} {m : String × α}
    (h : m ∈ sortMembers members) : m ∈ members := by
  suffices key : ∀ (rest front : List (String × α)),
      m ∈ rest.foldl (fun sorted member => insertMember member.1 member.2 sorted) front →
      m ∈ front ∨ m ∈ rest by
    simpa using key members [] h
  intro rest
  induction rest with
  | nil => intro front h; exact .inl h
  | cons a rest ih =>
    intro front h
    rcases ih _ h with h | h
    · rcases insertMember_mem h with rfl | h
      · exact .inr List.mem_cons_self
      · exact .inl h
    · exact .inr (List.mem_cons_of_mem _ h)

/-! ## The canonical form -/

mutual
/-- The same value with the members of every object in canonical form. -/
def Value.canonical : Value → Value
  | .array items => .array (canonicalItems items)
  | .object members => .object (sortMembers (canonicalMembers members))
  | leaf => leaf

/-- Every item in canonical form. -/
def canonicalItems : List Value → List Value
  | [] => []
  | item :: rest => item.canonical :: canonicalItems rest

/-- Every member's value in canonical form. -/
def canonicalMembers : List (String × Value) → List (String × Value)
  | [] => []
  | (name, value) :: rest => (name, value.canonical) :: canonicalMembers rest
end

theorem canonicalItems_eq_map (items : List Value) :
    canonicalItems items = items.map Value.canonical := by
  induction items with
  | nil => rfl
  | cons item rest ih => simp [canonicalItems, ih]

theorem canonicalMembers_eq_map (members : List (String × Value)) :
    canonicalMembers members = members.map fun m => (m.1, m.2.canonical) := by
  induction members with
  | nil => rfl
  | cons m rest ih => obtain ⟨n, v⟩ := m; simp [canonicalMembers, ih]

/-- Canonical values in a list are left alone. -/
theorem canonicalMembers_of_mem {members : List (String × Value)}
    (h : ∀ m ∈ members, m.2.canonical = m.2) : canonicalMembers members = members := by
  rw [canonicalMembers_eq_map]
  conv => rhs; rw [← List.map_id members]
  exact List.map_congr_left fun m hm => by simp [h m hm]

mutual
/-- **The canonical form of a canonical form is itself.** -/
theorem Value.canonical_canonical : ∀ v : Value, v.canonical.canonical = v.canonical
  | .null => rfl
  | .bool _ => rfl
  | .number _ => rfl
  | .string _ => rfl
  | .array items => by
    simp only [Value.canonical]
    rw [canonicalItems_canonicalItems items]
  | .object members => by
    simp only [Value.canonical]
    rw [canonicalMembers_of_mem, sortMembers_of_sorted (sortMembers_sorted _)]
    intro m hm
    exact canonical_of_mem_canonicalMembers members m (sortMembers_mem hm)

theorem canonicalItems_canonicalItems :
    ∀ items : List Value, canonicalItems (canonicalItems items) = canonicalItems items
  | [] => rfl
  | item :: rest => by
    simp only [canonicalItems]
    rw [item.canonical_canonical, canonicalItems_canonicalItems rest]

theorem canonical_of_mem_canonicalMembers :
    ∀ (members : List (String × Value)), ∀ m ∈ canonicalMembers members, m.2.canonical = m.2
  | [], m, h => by simp [canonicalMembers] at h
  | (name, value) :: rest, m, h => by
    simp only [canonicalMembers, List.mem_cons] at h
    rcases h with rfl | h
    · exact value.canonical_canonical
    · exact canonical_of_mem_canonicalMembers rest m h
end

/-- The members of an object in canonical form. -/
structure Object where
  members : List (String × Value)
  canonical : (Value.object members).canonical = .object members

namespace Object

/-- The object with these members; of members that share a name the last one counts. -/
def ofMembers (members : List (String × Value)) : Object where
  members := sortMembers (canonicalMembers members)
  canonical := by
    have h := Value.canonical_canonical (.object members)
    simpa only [Value.canonical] using h

def empty : Object := ofMembers []

instance : Inhabited Object := ⟨empty⟩

theorem ext_members {a b : Object} (h : a.members = b.members) : a = b := by
  cases a; cases b; subst h; rfl

/-- A canonical list of members is its own object. -/
theorem ofMembers_members (o : Object) : ofMembers o.members = o := by
  apply ext_members
  have h := o.canonical
  simpa only [Value.canonical, Value.object.injEq, ofMembers] using h

/-- The value of the member called `name`. -/
def get? (o : Object) (name : String) : Option Value := o.members.lookup name

/-- The object with one more member, which replaces one of the same name. -/
def insert (o : Object) (name : String) (value : Value) : Object :=
  ofMembers (o.members ++ [(name, value)])

def toValue (o : Object) : Value := .object o.members

end Object

/-- The value of an object's member called `name`; of several the last. -/
def Value.member? (name : String) : Value → Option Value
  | .object members => (members.filter (·.1 == name)).getLast?.map (·.2)
  | _ => none

end MetaCache.Json
