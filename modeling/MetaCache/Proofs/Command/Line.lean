import MetaCache.Command.Arguments

/-!
# What command lines say

A command line is made of items: `--config` and a path, `--fill`, or a word. It is of use if it has
a word or asks for a preload. The lines of such items are all that is accepted, each of them is made
of one list of items only, and it asks for the words in order, the last path, and a preload if one
is among the items (`parse_ok_iff_items`). So options may stand anywhere among the words.
-/

namespace MetaCache.Command

/-- Arguments that belong together. What is meant as an option is no word. -/
inductive Item
  | config (path : String)
  | fill
  | word (text : String) (noOption : text.toList.head? ≠ some '-')
  deriving DecidableEq

namespace Item

/-- The arguments of an item. -/
def written : Item → List String
  | config path => ["--config", path]
  | fill => ["--fill"]
  | word text _ => [text]

def path? : Item → Option String
  | config path => some path
  | _ => none

def word? : Item → Option String
  | word text _ => some text
  | _ => none

end Item

/-- The command line of items. -/
def lineOf (items : List Item) : List String := items.flatMap Item.written

/-- The words among items, in order. -/
def wordsOf (items : List Item) : List String := items.filterMap Item.word?

/-- The paths among items, in order. -/
def pathsOf (items : List Item) : List String := items.filterMap Item.path?

theorem wordsOf_cons (item : Item) (items : List Item) :
    wordsOf (item :: items) = item.word?.toList ++ wordsOf items := by
  cases item <;> rfl

theorem pathsOf_cons (item : Item) (items : List Item) :
    pathsOf (item :: items) = item.path?.toList ++ pathsOf items := by
  cases item <;> rfl

/-- The items ask for anything at all. -/
def AskAnything (items : List Item) : Prop := wordsOf items ≠ [] ∨ Item.fill ∈ items

namespace Arguments

variable {items items' : List Item} {line : List String} {a b : Arguments}

/-! ## One item after the other -/

/-- What an item adds to what was asked for so far. -/
def take (a : Arguments) : Item → Arguments
  | .config path => { a with config := some path }
  | .fill => { a with fill := true }
  | .word text _ => { a with guids := a.guids ++ [text] }

theorem isOption_eq_false_iff {text : String} :
    isOption text = false ↔ text.toList.head? ≠ some '-' := by
  rw [isOption, decide_eq_false_iff_not]

/-- What is no path's sign is looked at alone. -/
theorem scan_cons {argument : String} (h : argument ≠ "--config") (rest : List String)
    (a : Arguments) :
    scan (argument :: rest) a =
      if argument = "--fill" then scan rest { a with fill := true }
      else if argument = "-h" ∨ argument = "--help" then .error .help
      else if isOption argument then .error (.unknownOption argument)
      else scan rest { a with guids := a.guids ++ [argument] } := by
  rw [scan.eq_def]
  exact if_neg h

theorem scan_word {text : String} (h : text.toList.head? ≠ some '-') (rest : List String)
    (a : Arguments) : scan (text :: rest) a = scan rest { a with guids := a.guids ++ [text] } := by
  have hne {option : String} (hoption : isOption option = true) : text ≠ option := by
    rintro rfl
    exact h (of_decide_eq_true hoption)
  rw [scan_cons (hne (by decide)), if_neg (hne (by decide)),
    if_neg (not_or.2 ⟨hne (by decide), hne (by decide)⟩), isOption_eq_false_iff.2 h]
  rfl

/-- An item is taken up whatever stands behind it. -/
theorem scan_item (item : Item) (rest : List String) (a : Arguments) :
    scan (item.written ++ rest) a = scan rest (a.take item) := by
  cases item with
  | config path => rfl
  | fill => exact scan_cons (by decide) rest a
  | word text noOption => exact scan_word noOption rest a

theorem scan_lineOf (items : List Item) (a : Arguments) :
    scan (lineOf items) a = .ok (items.foldl take a) := by
  induction items generalizing a with
  | nil => rfl
  | cons item items ih => rw [lineOf, List.flatMap_cons, scan_item, ← lineOf, ih, List.foldl_cons]

/-- Only items are taken up. -/
theorem exists_items_of_scan (h : scan line a = .ok b) : ∃ items, line = lineOf items := by
  induction line, a using scan.induct with
  | case1 a => exact ⟨[], rfl⟩
  | case2 a => cases h
  | case3 a path rest ih =>
    obtain ⟨items, rfl⟩ := ih h
    exact ⟨.config path :: items, rfl⟩
  | case4 rest a hconfig ih =>
    rw [scan_cons hconfig, if_pos rfl] at h
    obtain ⟨items, rfl⟩ := ih h
    exact ⟨.fill :: items, rfl⟩
  | case5 argument rest a hconfig hfill hhelp =>
    rw [scan_cons hconfig, if_neg hfill, if_pos hhelp] at h
    cases h
  | case6 argument rest a hconfig hfill hhelp hoption =>
    rw [scan_cons hconfig, if_neg hfill, if_neg hhelp, if_pos hoption] at h
    cases h
  | case7 argument rest a hconfig hfill hhelp hoption ih =>
    rw [scan_cons hconfig, if_neg hfill, if_neg hhelp, if_neg hoption] at h
    obtain ⟨items, rfl⟩ := ih h
    exact ⟨.word argument (isOption_eq_false_iff.1 (Bool.eq_false_iff.2 hoption)) :: items, rfl⟩

/-! ## What items ask for -/

/-- What the items ask for. -/
def ofItems (items : List Item) : Arguments :=
  ⟨(pathsOf items).getLast?, decide (Item.fill ∈ items), wordsOf items⟩

theorem foldl_take (items : List Item) (a : Arguments) :
    items.foldl take a = ⟨(pathsOf items).getLast?.or a.config,
      a.fill || decide (Item.fill ∈ items), a.guids ++ wordsOf items⟩ := by
  induction items generalizing a with
  | nil => simp [pathsOf, wordsOf]
  | cons item items ih =>
    rw [List.foldl_cons, ih, wordsOf_cons, pathsOf_cons]
    cases item <;> simp [take, Item.path?, Item.word?, List.getLast?_cons]

theorem ofItems_eq (items : List Item) : ofItems items = items.foldl take blank := by
  rw [foldl_take]
  simp [blank, ofItems]

theorem scan_ofItems (items : List Item) : scan (lineOf items) blank = .ok (ofItems items) := by
  rw [scan_lineOf, ofItems_eq]

theorem parse_eq (h : scan line blank = .ok a) :
    parse line = if a.guids = [] ∧ a.fill = false then .error .help else .ok a := by
  rw [parse, h]
  show (if _ then _ else _) = _
  simp

theorem nothing_iff (items : List Item) :
    (ofItems items).guids = [] ∧ (ofItems items).fill = false ↔ ¬ AskAnything items := by
  simp [ofItems, AskAnything]

theorem parse_lineOf (h : AskAnything items) : parse (lineOf items) = .ok (ofItems items) := by
  rw [parse_eq (scan_ofItems items), if_neg fun hnothing => (nothing_iff items).1 hnothing h]

theorem parse_lineOf_nothing (h : ¬ AskAnything items) :
    parse (lineOf items) = .error .help := by
  rw [parse_eq (scan_ofItems items), if_pos ((nothing_iff items).2 h)]

/-- What is accepted is made of items. -/
theorem exists_items_of_parse (h : parse line = .ok a) :
    ∃ items, line = lineOf items ∧ AskAnything items ∧ a = ofItems items := by
  cases hscan : scan line blank with
  | error e =>
    rw [parse, hscan] at h
    cases h
  | ok b =>
    obtain ⟨items, rfl⟩ := exists_items_of_scan hscan
    by_cases hask : AskAnything items
    · exact ⟨items, rfl, hask, Except.ok.inj (h.symm.trans (parse_lineOf hask))⟩
    · rw [parse_lineOf_nothing hask] at h
      cases h

end Arguments

/-! ## The items of a command line -/

/-- Where one item ends and the next begins is never in doubt. -/
theorem Item.written_append_inj {item item' : Item} {rest rest' : List String}
    (h : item.written ++ rest = item'.written ++ rest') : item = item' ∧ rest = rest' := by
  cases item <;> cases item' <;> injection h with hhead htail <;> subst_vars
  case config.config =>
    obtain ⟨rfl, rfl⟩ := List.cons.inj htail
    exact ⟨rfl, rfl⟩
  case fill.fill => exact ⟨rfl, rfl⟩
  case word.word => exact ⟨rfl, rfl⟩
  case config.fill => exact absurd hhead (by decide)
  case fill.config => exact absurd hhead (by decide)
  case config.word noOption => exact absurd rfl noOption
  case fill.word noOption => exact absurd rfl noOption
  case word.config noOption => exact absurd rfl noOption
  case word.fill noOption => exact absurd rfl noOption

theorem lineOf_cons (item : Item) (items : List Item) :
    lineOf (item :: items) = item.written ++ lineOf items := List.flatMap_cons

theorem Item.written_ne_nil (item : Item) : item.written ≠ [] := by cases item <;> simp [written]

/-- **A command line is made of one list of items only.** -/
theorem lineOf_injective : ∀ {items items' : List Item},
    lineOf items = lineOf items' → items = items'
  | [], [], _ => rfl
  | [], item :: _, h => absurd (List.append_eq_nil_iff.1 h.symm).1 item.written_ne_nil
  | item :: _, [], h => absurd (List.append_eq_nil_iff.1 h).1 item.written_ne_nil
  | item :: items, item' :: items', h => by
    rw [lineOf_cons, lineOf_cons] at h
    obtain ⟨rfl, hrest⟩ := Item.written_append_inj h
    rw [lineOf_injective hrest]

/-! ## Lines for arguments -/

/-- The items say what the arguments do: their words are the guids, their last path is the path, and
a preload is among them if one is wanted. -/
structure Render (items : List Item) (a : Arguments) : Prop where
  words : wordsOf items = a.guids
  path : (pathsOf items).getLast? = a.config
  fill : Item.fill ∈ items ↔ a.fill

variable {items items' : List Item} {a : Arguments}

theorem render_iff : Render items a ↔ Arguments.ofItems items = a := by
  constructor
  · rintro ⟨hwords, hpath, hfill⟩
    rw [Arguments.ofItems, hwords, hpath]
    simp [hfill]
  · rintro rfl
    exact ⟨rfl, rfl, decide_eq_true_iff.symm⟩

theorem Render.askAnything (h : Render items a) (ha : a.guids ≠ [] ∨ a.fill) :
    AskAnything items := by
  rwa [AskAnything, h.words, h.fill]

/-- The options of the arguments. -/
def optionsOf (a : Arguments) : List Item :=
  a.config.toList.map .config ++ if a.fill then [.fill] else []

theorem exists_words {guids : List String} (h : ∀ guid ∈ guids, guid.toList.head? ≠ some '-') :
    ∃ items, Render items ⟨none, false, guids⟩ := by
  induction guids with
  | nil => exact ⟨[], render_iff.2 rfl⟩
  | cons guid guids ih =>
    obtain ⟨hguid, hguids⟩ := List.forall_mem_cons.1 h
    obtain ⟨items, hwords, hpath, hfill⟩ := ih hguids
    refine ⟨.word guid hguid :: items, ?_, ?_, ?_⟩
    · rw [wordsOf_cons, hwords]
      rfl
    · rw [pathsOf_cons]
      exact hpath
    · simpa using hfill

/-- Arguments whose guids are words have a command line. -/
theorem exists_render (h : ∀ guid ∈ a.guids, guid.toList.head? ≠ some '-') :
    ∃ items, Render items a := by
  obtain ⟨config, fill, guids⟩ := a
  obtain ⟨items, hwords⟩ := exists_words h
  refine ⟨items ++ optionsOf ⟨config, fill, guids⟩, render_iff.2 ?_⟩
  rw [Arguments.ofItems_eq, List.foldl_append, ← Arguments.ofItems_eq, render_iff.1 hwords]
  cases config <;> cases fill <;> rfl

/-! ## The grammar of command lines -/

/-- **Command lines are accepted by their grammar.** A line is accepted if and only if it is made of
items that ask for anything, and then it asks for their words, their last path and a preload if one
is among them. It is made of no other items. So only the order of the words counts and that of the
paths, wherever options stand; and every line for arguments whose guids are words is parsed to these
arguments. -/
theorem parse_ok_iff_items :
    (∀ (line : List String) (a : Arguments), Arguments.parse line = .ok a
      ↔ ∃ items, line = lineOf items ∧ (wordsOf items ≠ [] ∨ Item.fill ∈ items)
        ∧ a.guids = wordsOf items ∧ (a.fill ↔ Item.fill ∈ items)
        ∧ a.config = (pathsOf items).getLast?)
    ∧ (∀ items items' : List Item, lineOf items = lineOf items' → items = items')
    ∧ (∀ items items' : List Item, wordsOf items = wordsOf items' →
        pathsOf items = pathsOf items' → (Item.fill ∈ items ↔ Item.fill ∈ items') →
        Arguments.parse (lineOf items) = Arguments.parse (lineOf items'))
    ∧ ∀ a : Arguments, (∀ guid ∈ a.guids, guid.toList.head? ≠ some '-') →
        a.guids ≠ [] ∨ a.fill →
        (∃ items, Render items a) ∧
        ∀ items, Render items a → Arguments.parse (lineOf items) = .ok a := by
  refine ⟨fun line a => ⟨fun h => ?_, ?_⟩, fun _ _ => lineOf_injective, ?_, ?_⟩
  · obtain ⟨items, hline, hask, rfl⟩ := Arguments.exists_items_of_parse h
    exact ⟨items, hline, hask, rfl, decide_eq_true_iff, rfl⟩
  · rintro ⟨items, rfl, hask, hwords, hfill, hpath⟩
    rw [Arguments.parse_lineOf hask, render_iff.1 ⟨hwords.symm, hpath.symm, hfill.symm⟩]
  · intro items items' hwords hpaths hfill
    have heq : Arguments.ofItems items = Arguments.ofItems items' := by
      simp only [Arguments.ofItems, hwords, hpaths, hfill]
    by_cases hask : AskAnything items
    · have hask' : AskAnything items' := by rwa [AskAnything, ← hwords, ← hfill]
      rw [Arguments.parse_lineOf hask, Arguments.parse_lineOf hask', heq]
    · have hask' : ¬ AskAnything items' := by rwa [AskAnything, ← hwords, ← hfill]
      rw [Arguments.parse_lineOf_nothing hask, Arguments.parse_lineOf_nothing hask']
  · intro a hguids ha
    refine ⟨exists_render hguids, fun items hitems => ?_⟩
    rw [Arguments.parse_lineOf (hitems.askAnything ha), render_iff.1 hitems]

/-- The path of an option may look like one, and the last one counts. -/
theorem parse_ok_iff_items_mixed :
    Arguments.parse ["b", "--config", "--fill", "", "--config", "a.toml"]
        = .ok ⟨some "a.toml", false, ["b", ""]⟩
      ∧ Arguments.parse ["--config", "--fill", "--config", "a.toml", "b", ""]
        = Arguments.parse ["b", "--config", "--fill", "", "--config", "a.toml"] := by
  obtain ⟨-, -, hmoved, hback⟩ := parse_ok_iff_items
  let b : Item := .word "b" (by decide)
  let empty : Item := .word "" (by decide)
  let behind : List Item := [b, .config "--fill", empty, .config "a.toml"]
  refine ⟨?_, hmoved [.config "--fill", .config "a.toml", b, empty] behind rfl rfl (by decide)⟩
  exact (hback ⟨some "a.toml", false, ["b", ""]⟩ (by decide) (.inl (by decide))).2 behind
    ⟨rfl, rfl, by decide⟩

end MetaCache.Command
