import MetaCache.Proofs.Url.Margins
import Mathlib.Data.List.TakeWhile

/-!
# The origin does not depend on what stands behind

Let a text be an address on the web. Without the slashes at its end, and with a slash and anything
else behind it, it is an address of the same origin, or none at all (`origin_of_extended`): the
authority ends at the slash at the latest, and it ended there before, or at the end of the text. The
one thing that could make a difference are margins, which do not count at the end of the text and do
in front of a slash, but no authority ends with a margin.
-/

namespace MetaCache.Url

variable {p : Char → Bool} {c : Char}

theorem dropWhile_append_cons (h : p c = false) (front rest : List Char) :
    (front ++ c :: rest).dropWhile p = front.dropWhile p ++ c :: rest := by
  rw [List.dropWhile_append]
  split
  · next hempty =>
    rw [List.isEmpty_iff.1 hempty, List.nil_append, List.dropWhile_cons_of_neg (by simp [h])]
  · rfl

theorem takeWhile_append_cons (h : p c = false) (front rest : List Char) :
    (front ++ c :: rest).takeWhile p = front.takeWhile p := by
  rw [List.takeWhile_append]
  split
  · next hlength =>
    rw [List.takeWhile_cons_of_neg (by simp [h]), List.append_nil]
    exact ((List.takeWhile_sublist p).eq_of_length hlength).symm
  · rfl

/-! ## Cleaning -/

/-- What is left of a text that goes on, its end not being trimmed. -/
def cleanFront (cs : List Char) : List Char := (cs.dropWhile isMargin).filter (!isBreak ·)

/-- What is left of the end of a text. -/
def cleanEnd (cs : List Char) : List Char :=
  (cs.reverse.dropWhile isMargin).reverse.filter (!isBreak ·)

theorem clean_eq (cs : List Char) : clean cs = cleanEnd (cs.dropWhile isMargin) := rfl

theorem cleanEnd_append (front rest : List Char) :
    cleanEnd (front ++ '/' :: rest) = front.filter (!isBreak ·) ++ '/' :: cleanEnd rest := by
  unfold cleanEnd
  rw [List.reverse_append, List.reverse_cons, List.append_assoc, List.singleton_append,
    dropWhile_append_cons (by decide)]
  simp only [List.reverse_append, List.reverse_cons, List.reverse_reverse, List.append_assoc,
    List.singleton_append, List.filter_append]
  rw [List.filter_cons_of_pos (by decide)]

/-- In front of a slash, margins count at the front only. -/
theorem clean_append (cs rest : List Char) :
    clean (cs ++ '/' :: rest) = cleanFront cs ++ '/' :: cleanEnd rest := by
  rw [clean_eq, dropWhile_append_cons (by decide), cleanEnd_append, cleanFront]

/-- Of a text alone less is left, as margins do not count at its end. -/
theorem exists_margins (cs : List Char) :
    ∃ margins, (∀ m ∈ margins, isMargin m) ∧ cleanFront cs = clean cs ++ margins := by
  refine ⟨((cs.dropWhile isMargin).reverse.takeWhile isMargin).reverse.filter (!isBreak ·), ?_, ?_⟩
  · intro m hm
    exact List.all_eq_true.1 List.all_takeWhile m (List.mem_reverse.1 (List.mem_filter.1 hm).1)
  · rw [clean_eq, cleanEnd, ← List.filter_append, ← List.reverse_append,
      List.takeWhile_append_dropWhile, List.reverse_reverse, cleanFront]

theorem eq_slash_of_mem_cleanEnd {cs : List Char} (h : ∀ c ∈ cs, c = '/') {c : Char}
    (hc : c ∈ cleanEnd cs) : c = '/' := by
  have hmem := List.mem_reverse.1 (List.mem_filter.1 hc).1
  exact h c (List.mem_reverse.1 ((List.dropWhile_sublist _).subset hmem))

/-! ## Schemes -/

theorem splitScheme?_append (cs rest : List Char) :
    splitScheme? (cs ++ '/' :: rest)
      = (splitScheme? cs).map fun found => (found.1, found.2 ++ '/' :: rest) := by
  cases cs with
  | nil => rfl
  | cons first cs =>
    have hdrop := dropWhile_append_cons (p := isSchemeChar) (c := '/') (by decide) (first :: cs) rest
    have htake := takeWhile_append_cons (p := isSchemeChar) (c := '/') (by decide) (first :: cs) rest
    simp only [List.cons_append] at hdrop htake
    simp only [List.cons_append, splitScheme?, hdrop, htake]
    split
    · rcases (first :: cs).dropWhile isSchemeChar with - | ⟨colon, tail⟩
      · rfl
      · by_cases hcolon : colon = ':'
        · subst hcolon
          rfl
        · simp [hcolon]
    · rfl

/-- What comes behind an address comes behind its scheme. -/
theorem splitScheme?_append_of_some {cs scheme tail : List Char}
    (h : splitScheme? cs = some (scheme, tail)) (more : List Char) :
    splitScheme? (cs ++ more) = some (scheme, tail ++ more) := by
  cases cs with
  | nil => cases h
  | cons first cs =>
    have hparts := List.takeWhile_append_dropWhile (p := isSchemeChar) (l := first :: cs)
    simp only [splitScheme?] at h
    split at h
    · next halpha =>
      split at h
      · next rest hdrop =>
        obtain ⟨rfl, rfl⟩ := Prod.mk.inj (Option.some.inj h)
        -- The colon ends the scheme, whatever comes behind it.
        have hsplit : (first :: cs) ++ more
            = (first :: cs).takeWhile isSchemeChar ++ ':' :: (rest ++ more) := by
          rw [← List.cons_append, ← hdrop, ← List.append_assoc, hparts]
        have hcolon : ¬ isSchemeChar ':' := by decide
        have hall := List.all_eq_true.1 (List.all_takeWhile (p := isSchemeChar) (l := first :: cs))
        have htake : ((first :: cs) ++ more).takeWhile isSchemeChar
            = (first :: cs).takeWhile isSchemeChar := by
          rw [hsplit, List.takeWhile_append_of_pos hall, List.takeWhile_cons_of_neg hcolon,
            List.append_nil]
        have hdrop : ((first :: cs) ++ more).dropWhile isSchemeChar = ':' :: (rest ++ more) := by
          rw [hsplit, List.dropWhile_append_of_pos hall, List.dropWhile_cons_of_neg hcolon]
        simp only [List.cons_append] at htake hdrop
        simp only [List.cons_append, splitScheme?, halpha, if_true, hdrop, htake]
      · cases h
    · cases h

/-! ## Authorities -/

/-- The authority behind a scheme. -/
def authorityOf (rest : List Char) : List Char :=
  (rest.dropWhile isSlash).takeWhile (!endsAuthority true ·)

/-- The origin of an address comes from its scheme and its authority. -/
theorem origin_of_readWeb {scheme : Scheme} {rest : List Char} {a : Address}
    (h : readWeb scheme rest = .ok a) :
    ∃ authority, readAuthority (authorityOf rest) = .ok authority
      ∧ a.origin = ⟨scheme, authority.host, authority.port.getD scheme.defaultPort⟩ := by
  unfold readWeb at h
  simp only at h
  cases hauthority : readAuthority (authorityOf rest) with
  | error e =>
    unfold authorityOf at hauthority
    rw [hauthority] at h
    cases h
  | ok authority =>
    unfold authorityOf at hauthority
    rw [hauthority] at h
    cases h
    refine ⟨authority, rfl, ?_⟩
    have hport : (authority.port.filter (· ≠ scheme.defaultPort)).getD scheme.defaultPort
        = authority.port.getD scheme.defaultPort := by
      cases authority.port with
      | none => rfl
      | some port => by_cases h : port = scheme.defaultPort <;> simp [Option.filter, h]
    unfold Address.origin
    rw [← hport]

theorem map_web_eq_ok {result : Except AddressError Address} {a : Address}
    (h : result.map Target.web = .ok (.web a)) : result = .ok a := by
  cases result with
  | error e => cases h
  | ok found =>
    cases h
    rfl

theorem origin_of_read {text : List Char} {a : Address} (h : read text = .ok (.web a)) :
    ∃ (scheme : Scheme) (rest : List Char) (authority : Authority),
      splitScheme? (clean text) = some (scheme.chars, rest)
      ∧ readAuthority (authorityOf rest) = .ok authority
      ∧ a.origin = ⟨scheme, authority.host, authority.port.getD scheme.defaultPort⟩ := by
  unfold read at h
  split at h
  · cases h
  · next scheme rest hsplit =>
    split at h
    · next hscheme =>
      obtain ⟨authority, hauthority, horigin⟩ := origin_of_readWeb (map_web_eq_ok h)
      exact ⟨.http, rest, authority, by rw [hsplit, hscheme], hauthority, horigin⟩
    · split at h
      · next hscheme =>
        obtain ⟨authority, hauthority, horigin⟩ := origin_of_readWeb (map_web_eq_ok h)
        exact ⟨.https, rest, authority, by rw [hsplit, hscheme], hauthority, horigin⟩
      · cases hcheck : checkForeign scheme rest with
        | error e => rw [hcheck] at h; cases h
        | ok done => rw [hcheck] at h; cases h

theorem Scheme.chars_injective : Function.Injective Scheme.chars := by
  intro scheme scheme' h
  cases scheme <;> cases scheme' <;> first | rfl | exact absurd h (by decide)

theorem readAuthority_nil (a : Authority) : readAuthority [] ≠ .ok a :=
  fun h => (readAuthority_ok h).1 rfl

/-- The authority that a slash ends does not depend on what stands behind the slash. -/
theorem authorityOf_append {cs : List Char} (h : cs.dropWhile isSlash ≠ []) (rest : List Char) :
    authorityOf (cs ++ '/' :: rest) = authorityOf cs := by
  unfold authorityOf
  rw [List.dropWhile_append, if_neg (by simpa using h), takeWhile_append_cons (by decide)]

/-- Slashes alone have no authority. -/
theorem authorityOf_slashes {cs rest : List Char} (h : cs.dropWhile isSlash = [])
    (hrest : ∀ c ∈ rest, c = '/') : authorityOf (cs ++ rest) = [] := by
  unfold authorityOf
  rw [List.dropWhile_append, if_pos (by simp [h]),
    List.dropWhile_eq_nil_iff.2 fun c hc => by rw [hrest c hc]; rfl]
  rfl

/-- Margins behind a host are part of the authority, if it does not end before. -/
theorem authorityOf_margins {cs margins : List Char} (h : cs.dropWhile isSlash ≠ [])
    (hmargins : ∀ m ∈ margins, isMargin m) :
    authorityOf (cs ++ margins) = authorityOf cs ∨
      authorityOf (cs ++ margins) = authorityOf cs ++ margins := by
  have hends (m : Char) (hm : m ∈ margins) : (!endsAuthority true m) = true := by
    have hmargin := hmargins m hm
    simp [endsAuthority, ne_of_isMargin (c := '/') hmargin, ne_of_isMargin (c := '?') hmargin,
      ne_of_isMargin (c := '#') hmargin, ne_of_isMargin (c := '\\') hmargin]
  unfold authorityOf
  rw [List.dropWhile_append, if_neg (by simpa using h), List.takeWhile_append]
  split
  · next hlength =>
    rw [List.takeWhile_eq_self_iff.2 hends,
      (List.takeWhile_sublist _).eq_of_length hlength]
    exact .inr rfl
  · exact .inl rfl

/-- Slashes behind a scheme and its authority change nothing. -/
theorem readAuthority_slashes {tail slashes : List Char} (hslashes : ∀ c ∈ slashes, c = '/')
    {authority : Authority} (h : readAuthority (authorityOf (tail ++ slashes)) = .ok authority) :
    readAuthority (authorityOf tail) = .ok authority := by
  by_cases htail : tail.dropWhile isSlash = []
  · rw [authorityOf_slashes htail hslashes] at h
    exact absurd h (readAuthority_nil _)
  · rcases slashes with - | ⟨slash, slashes⟩
    · rwa [List.append_nil] at h
    · obtain rfl : slash = '/' := hslashes _ List.mem_cons_self
      rwa [authorityOf_append htail] at h

/-- Margins and a slash behind an authority change nothing, unless there is none any more. -/
theorem readAuthority_extended {tail margins rest : List Char} (hmargins : ∀ m ∈ margins, isMargin m)
    {authority authority' : Authority} (h : readAuthority (authorityOf tail) = .ok authority)
    (h' : readAuthority (authorityOf (tail ++ (margins ++ '/' :: rest))) = .ok authority') :
    authority' = authority := by
  have htail : tail.dropWhile isSlash ≠ [] := by
    intro hnil
    have hauthority := authorityOf_slashes hnil (show ∀ c ∈ ([] : List Char), c = '/' by simp)
    rw [List.append_nil] at hauthority
    rw [hauthority] at h
    exact readAuthority_nil _ h
  rw [← List.append_assoc, authorityOf_append (by simp [List.dropWhile_append, htail])] at h'
  rcases authorityOf_margins htail hmargins with hend | hend
  · rw [hend, h] at h'
    exact (Except.ok.inj h').symm
  · rw [hend] at h'
    rcases List.eq_nil_or_concat margins with rfl | ⟨front, m, rfl⟩
    · rw [List.append_nil, h] at h'
      exact (Except.ok.inj h').symm
    · rw [List.concat_eq_append, ← List.append_assoc] at h'
      exact absurd h' (readAuthority_margin (hmargins m (by simp)) _ _)

/-- **A text that goes on behind an address has the origin of the address, if it has one.** -/
theorem origin_of_extended {core slashes rest : List Char} (hslashes : ∀ c ∈ slashes, c = '/')
    {base extended : Address} (hbase : read (core ++ slashes) = .ok (.web base))
    (hextended : read (core ++ '/' :: rest) = .ok (.web extended)) :
    extended.origin = base.origin := by
  obtain ⟨scheme, behind, authority, hsplit, hauthority, horigin⟩ := origin_of_read hbase
  obtain ⟨scheme', behind', authority', hsplit', hauthority', horigin'⟩ := origin_of_read hextended
  -- What both have in common ends before the slashes, or before the margins if there is no slash.
  obtain ⟨tail, margins, hmargins, htail, hcommon⟩ : ∃ tail margins, (∀ m ∈ margins, isMargin m) ∧
      readAuthority (authorityOf tail) = .ok authority ∧
      splitScheme? (clean (core ++ '/' :: rest))
        = some (scheme.chars, tail ++ (margins ++ '/' :: cleanEnd rest)) := by
    rw [clean_append]
    cases slashes with
    | cons slash slashes =>
      obtain rfl : slash = '/' := hslashes _ List.mem_cons_self
      rw [clean_append, splitScheme?_append] at hsplit
      obtain ⟨⟨found, tail⟩, hfound, heq⟩ := Option.map_eq_some_iff.1 hsplit
      obtain ⟨rfl, rfl⟩ := Prod.mk.inj heq
      refine ⟨tail, [], by simp, readAuthority_slashes ?_ hauthority, ?_⟩
      · intro c hc
        rcases List.mem_cons.1 hc with rfl | hc
        · rfl
        · exact eq_slash_of_mem_cleanEnd (fun c hc => hslashes c (List.mem_cons_of_mem _ hc)) hc
      · exact splitScheme?_append_of_some hfound _
    | nil =>
      rw [List.append_nil] at hsplit
      obtain ⟨margins, hmargins, hfront⟩ := exists_margins core
      refine ⟨behind, margins, hmargins, hauthority, ?_⟩
      rw [hfront, List.append_assoc]
      exact splitScheme?_append_of_some hsplit _
  rw [hcommon] at hsplit'
  obtain ⟨hscheme, rfl⟩ := Prod.mk.inj (Option.some.inj hsplit')
  rw [horigin, horigin', ← Scheme.chars_injective hscheme,
    readAuthority_extended hmargins htail hauthority']

end MetaCache.Url
