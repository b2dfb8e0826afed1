import MetaCache.Proofs.Url.Origin
import Mathlib.Data.List.DropRight

/-!
# Paths that are put behind an address

A text that goes on behind an address is read anew, so what stands in front decides what becomes of
it. Where a question mark or a hash stands in front, it is no longer a path. Otherwise the segments
in front are followed first, none of them being the last one any more (`passed`), and plain segments
behind them are taken as they are (`readTail_slashed`).
-/

namespace MetaCache.Url

/-! ## Segments -/

/-- Segments as a text, a slash in front of each. -/
def slashed (segments : List (List Char)) : List Char := segments.flatMap ('/' :: ·)

theorem splitAt_ne_nil (separator : Char) (cs : List Char) : splitAt separator cs ≠ [] := by
  cases cs with
  | nil => simp [splitAt]
  | cons c cs =>
    unfold splitAt
    split
    · simp
    · split <;> simp

theorem splitAt_append_cons (separator : Char) (front rest : List Char) :
    splitAt separator (front ++ separator :: rest)
      = splitAt separator front ++ splitAt separator rest := by
  induction front with
  | nil => simp [splitAt]
  | cons c front ih =>
    by_cases hc : c = separator
    · simp [splitAt, hc, ih]
    · obtain ⟨part, parts, hparts⟩ := List.exists_cons_of_ne_nil (splitAt_ne_nil separator front)
      simp only [List.cons_append, splitAt, if_neg hc, ih, hparts]

theorem splitAt_of_notMem {separator : Char} {cs : List Char} (h : separator ∉ cs) :
    splitAt separator cs = [cs] := by
  induction cs with
  | nil => rfl
  | cons c cs ih =>
    rw [List.mem_cons, not_or] at h
    simp [splitAt, Ne.symm h.1, ih h.2]

/-- Backslashes count as slashes. -/
def straight (cs : List Char) : List Char := cs.map fun c => if c = '\\' then '/' else c

/-- The segments of a path that begins with a slash. -/
def segmentsOf (cs : List Char) : List (List Char) :=
  match cs with
  | [] => []
  | _ :: rest => (splitAt '/' (straight rest)).map (encode pathSet)

/-- Where a path, if there is one, begins with a slash. -/
def IsPath (cs : List Char) : Prop := ∀ c ∈ cs.head?, isSlash c

theorem straight_cons_slash {c : Char} (h : isSlash c) (rest : List Char) :
    straight (c :: rest) = '/' :: straight rest := by
  rcases (by simpa [isSlash] using h : c = '/' ∨ c = '\\') with rfl | rfl <;> rfl

theorem readPath_of_straight {cs rest : List Char} (h : straight cs = '/' :: rest) :
    readPath cs = walk [] ((splitAt '/' rest).map (encode pathSet)) := by
  unfold straight at h
  simp only [readPath, h]

theorem readPath_append {front : List Char} (h : IsPath front) (rest : List Char) :
    readPath (front ++ '/' :: rest)
      = walk [] (segmentsOf front ++ segmentsOf ('/' :: rest)) := by
  cases front with
  | nil => rfl
  | cons c front =>
    have hstraight : straight (c :: front ++ '/' :: rest)
        = '/' :: (straight front ++ '/' :: straight rest) := by
      rw [List.cons_append, straight_cons_slash (h c rfl), straight, List.map_append]
      rfl
    rw [readPath_of_straight hstraight, splitAt_append_cons, List.map_append]
    rfl

theorem readPath_of_isPath {c : Char} {rest : List Char} (h : isSlash c) :
    readPath (c :: rest) = walk [] (segmentsOf (c :: rest)) := by
  rw [readPath_of_straight (straight_cons_slash h rest)]
  rfl

/-! ## Following segments -/

/-- Follows a segment that is not the last one. -/
def follow (done : List (List Char)) (segment : List Char) : List (List Char) :=
  if isDoubleDot segment then ascend done
  else if isSingleDot segment then done
  else segment :: done

/-- What is left of the segments of a path that goes on. -/
def passed (front : List Char) : List (List Char) := ((segmentsOf front).foldl follow []).reverse

theorem walk_cons {segment : List Char} {rest : List (List Char)} (h : rest ≠ [])
    (done : List (List Char)) : walk done (segment :: rest) = walk (follow done segment) rest := by
  obtain ⟨next, rest, rfl⟩ := List.exists_cons_of_ne_nil h
  rw [walk.eq_3 _ _ _ (by simp), follow]
  split
  · rfl
  · split <;> rfl

theorem walk_append {rest : List (List Char)} (h : rest ≠ []) (front done : List (List Char)) :
    walk done (front ++ rest) = walk (front.foldl follow done) rest := by
  induction front generalizing done with
  | nil => rfl
  | cons segment front ih =>
    rw [List.cons_append, walk_cons (List.append_ne_nil_of_right_ne_nil _ h), ih, List.foldl_cons]

/-- A segment that stands for itself. -/
def IsPlain (segment : List Char) : Prop :=
  ∀ c ∈ segment, pathSet c = false ∧ isSlash c = false ∧ c ≠ '.' ∧ c ≠ '%'

instance (segment : List Char) : Decidable (IsPlain segment) :=
  List.decidableBAll _ segment

theorem takeDot?_of_isPlain {segment : List Char} (h : IsPlain segment) :
    takeDot? segment = none := by
  unfold takeDot?
  split
  · exact absurd rfl (h _ List.mem_cons_self).2.2.1
  · exact absurd rfl (h _ List.mem_cons_self).2.2.2
  · exact absurd rfl (h _ List.mem_cons_self).2.2.2
  · rfl

theorem follow_of_isPlain {segment : List Char} (h : IsPlain segment) (done : List (List Char)) :
    follow done segment = segment :: done := by
  simp [follow, isDoubleDot, isSingleDot, takeDot?_of_isPlain h]

theorem walk_of_isPlain {segments : List (List Char)} (h : ∀ segment ∈ segments, IsPlain segment)
    (done : List (List Char)) : walk done segments = done.reverse ++ segments := by
  induction segments generalizing done with
  | nil => simp [walk]
  | cons segment rest ih =>
    have hplain := h segment List.mem_cons_self
    cases rest with
    | nil => simp [walk, isDoubleDot, isSingleDot, takeDot?_of_isPlain hplain]
    | cons next rest =>
      rw [walk_cons (by simp), follow_of_isPlain hplain,
        ih fun s hs => h s (List.mem_cons_of_mem _ hs)]
      simp

theorem encode_of_forall {set : Char → Bool} {cs : List Char} (h : ∀ c ∈ cs, set c = false) :
    encode set cs = cs := by
  induction cs with
  | nil => rfl
  | cons c cs ih =>
    have hrest := ih fun d hd => h d (List.mem_cons_of_mem _ hd)
    unfold encode at hrest ⊢
    rw [List.flatMap_cons, hrest, encodeChar, h c List.mem_cons_self]
    rfl

theorem straight_of_notMem {cs : List Char} (h : '\\' ∉ cs) : straight cs = cs := by
  refine (List.map_congr_left fun c hc => if_neg ?_).trans (List.map_id cs)
  rintro rfl
  exact h hc

theorem segmentsOf_slashed {segments : List (List Char)}
    (h : ∀ segment ∈ segments, ∀ c ∈ segment, isSlash c = false) :
    segmentsOf (slashed segments) = segments.map (encode pathSet) := by
  have hself {segment : List Char} (hs : segment ∈ segments) :
      splitAt '/' (straight segment) = [segment] := by
    have hnot (c : Char) (hc : isSlash c) : c ∉ segment := fun hmem => by
      rw [h segment hs c hmem] at hc
      cases hc
    rw [straight_of_notMem (hnot _ (by decide)), splitAt_of_notMem (hnot _ (by decide))]
  induction segments with
  | nil => rfl
  | cons segment rest ih =>
    have hrest := ih (fun s hs => h s (List.mem_cons_of_mem _ hs))
      fun hs => hself (List.mem_cons_of_mem _ hs)
    cases rest with
    | nil =>
      show (splitAt '/' (straight (segment ++ []))).map (encode pathSet) = _
      rw [List.append_nil, hself List.mem_cons_self]
    | cons next rest =>
      show (splitAt '/' (straight (segment ++ '/' :: (next ++ slashed rest)))).map
        (encode pathSet) = _
      have happend : straight (segment ++ '/' :: (next ++ slashed rest))
          = straight segment ++ '/' :: straight (next ++ slashed rest) := List.map_append
      rw [happend, splitAt_append_cons, List.map_append, hself List.mem_cons_self]
      exact congrArg (encode pathSet segment :: ·) hrest

theorem segmentsOf_slashed_of_isPlain {segments : List (List Char)}
    (h : ∀ segment ∈ segments, IsPlain segment) : segmentsOf (slashed segments) = segments := by
  rw [segmentsOf_slashed fun segment hs c hc => (h segment hs c hc).2.1]
  refine (List.map_congr_left fun segment hs => ?_).trans (List.map_id segments)
  exact encode_of_forall fun c hc => (h segment hs c hc).1

/-- **Plain segments are taken as they are**, behind what is left of those in front. -/
theorem readPath_slashed {front : List Char} (hfront : IsPath front)
    {segments : List (List Char)} (hne : segments ≠ [])
    (h : ∀ segment ∈ segments, IsPlain segment) :
    readPath (front ++ slashed segments) = passed front ++ segments := by
  obtain ⟨segment, rest, rfl⟩ := List.exists_cons_of_ne_nil hne
  have hcons : slashed (segment :: rest) = '/' :: (segment ++ slashed rest) := rfl
  rw [hcons, readPath_append hfront, ← hcons, segmentsOf_slashed_of_isPlain h, walk_append hne,
    walk_of_isPlain h, passed]

/-! ## Tails -/

/-- Nothing in front ends a path. -/
def IsOpen (front : List Char) : Prop := '?' ∉ front ∧ '#' ∉ front

instance (front : List Char) : Decidable (IsOpen front) := inferInstanceAs (Decidable (_ ∧ _))

/-- A query that stands for itself. -/
def queryText (query : Option (List Char)) : List Char := query.elim [] ('?' :: ·)

theorem takeWhile_ne_append {c : Char} {front : List Char} (h : c ∉ front) (rest : List Char) :
    (front ++ c :: rest).takeWhile (· ≠ c) = front
      ∧ (front ++ c :: rest).dropWhile (· ≠ c) = c :: rest := by
  have hne : ∀ d ∈ front, decide (d ≠ c) = true := fun d hd => by
    rw [decide_eq_true_iff]
    rintro rfl
    exact h hd
  constructor
  · rw [List.takeWhile_append_of_pos hne, List.takeWhile_cons_of_neg (by simp), List.append_nil]
  · rw [List.dropWhile_append_of_pos hne, List.dropWhile_cons_of_neg (by simp)]

theorem takeWhile_ne_self {c : Char} {cs : List Char} (h : c ∉ cs) :
    cs.takeWhile (· ≠ c) = cs ∧ cs.dropWhile (· ≠ c) = [] := by
  have hne : ∀ d ∈ cs, decide (d ≠ c) = true := fun d hd => by
    rw [decide_eq_true_iff]
    rintro rfl
    exact h hd
  exact ⟨List.takeWhile_eq_self_iff.2 hne, List.dropWhile_eq_nil_iff.2 hne⟩

/-- A path with nothing in it that ends one, and a query behind it. -/
theorem readTail_of_isOpen {path : List Char} (h : IsOpen path) {query : Option (List Char)}
    (hquery : ∀ cs ∈ query, ∀ c ∈ cs, querySet c = false) :
    readTail (path ++ queryText query) = (readPath path, query, none) := by
  have hhash : '#' ∉ path ++ queryText query := by
    rw [List.mem_append, not_or]
    refine ⟨h.2, fun hmem => ?_⟩
    cases query with
    | none => cases hmem
    | some cs =>
      rcases List.mem_cons.1 hmem with hc | hc
      · exact absurd hc (by decide)
      · exact absurd (hquery cs rfl _ hc) (by decide)
  obtain ⟨hfront, hbehind⟩ := takeWhile_ne_self hhash
  unfold readTail
  simp only [hfront, hbehind]
  cases query with
  | none =>
    obtain ⟨hpath, hnone⟩ := takeWhile_ne_self h.1
    simp only [queryText, Option.elim_none, List.append_nil, hpath, hnone]
  | some cs =>
    obtain ⟨hpath, hsome⟩ := takeWhile_ne_append h.1 cs
    simp only [queryText, Option.elim_some, hpath, hsome, encode_of_forall (hquery cs rfl)]

/-- The path of a tail ends at the first sign that ends one. -/
theorem readTail_path (cs : List Char) :
    (readTail cs).1 = readPath (cs.takeWhile fun c => c ≠ '?' && c ≠ '#') := by
  show readPath ((cs.takeWhile (· ≠ '#')).takeWhile (· ≠ '?')) = _
  simp only [List.takeWhile_takeWhile, Bool.decide_and, Bool.decide_eq_true]

/-- What stands behind the end of a path is not part of it. -/
theorem readTail_append_of_not_isOpen {front : List Char} (h : ¬ IsOpen front) (rest : List Char) :
    (readTail (front ++ rest)).1 = (readTail front).1 := by
  rw [readTail_path, readTail_path, List.takeWhile_append, if_neg]
  intro hlength
  have hself := (List.takeWhile_sublist _).eq_of_length hlength
  rw [List.takeWhile_eq_self_iff] at hself
  refine h ⟨fun hmem => ?_, fun hmem => ?_⟩
  · exact absurd (hself _ hmem) (by decide)
  · exact absurd (hself _ hmem) (by decide)

/-! ## Addresses -/

/-- An address from its parts. -/
def addressOf (scheme : Scheme) (authority : Authority)
    (tail : List (List Char) × Option (List Char) × Option (List Char)) : Address where
  scheme
  userinfo := authority.userinfo
  host := authority.host
  port := authority.port.filter (· ≠ scheme.defaultPort)
  path := tail.1
  query := tail.2.1
  fragment := tail.2.2

/-- What stands behind the authority. -/
def tailOf (rest : List Char) : List Char :=
  (rest.dropWhile isSlash).dropWhile (!endsAuthority true ·)

theorem readWeb_eq (scheme : Scheme) (rest : List Char) :
    readWeb scheme rest = (readAuthority (authorityOf rest)).map fun authority =>
      addressOf scheme authority (readTail (tailOf rest)) := by
  show (readAuthority (authorityOf rest) >>= _) = _
  cases readAuthority (authorityOf rest) <;> rfl

theorem read_eq_web_iff {text : List Char} {a : Address} :
    read text = .ok (.web a) ↔ ∃ (scheme : Scheme) (rest : List Char),
      splitScheme? (clean text) = some (scheme.chars, rest) ∧ readWeb scheme rest = .ok a := by
  constructor
  · intro h
    unfold read at h
    split at h
    · cases h
    · next scheme rest hsplit =>
      split at h
      · next hscheme => exact ⟨.http, rest, by rw [hsplit, hscheme], map_web_eq_ok h⟩
      · split at h
        · next hscheme => exact ⟨.https, rest, by rw [hsplit, hscheme], map_web_eq_ok h⟩
        · cases hcheck : checkForeign scheme rest with
          | error e => rw [hcheck] at h; cases h
          | ok done => rw [hcheck] at h; cases h
  · rintro ⟨scheme, rest, hsplit, hweb⟩
    cases scheme with
    | http => simp only [read, hsplit, if_true, hweb]; rfl
    | https =>
      have hne : Scheme.https.chars ≠ Scheme.http.chars := by decide
      simp only [read, hsplit, if_neg hne, if_true, hweb]
      rfl

/-- An address and the texts that go on behind it have this in common. Without slashes at the end
of the address, `margins` stand behind it, which do not count for the address itself. -/
structure Shares (core slashes : List Char) (base : Address) (scheme : Scheme)
    (tail margins : List Char) (authority : Authority) : Prop where
  uncounted : ∀ m ∈ margins, isMargin m
  lone : slashes = [] ∨ margins = []
  named : tail.dropWhile isSlash ≠ []
  split : splitScheme? (cleanFront core) = some (scheme.chars, tail ++ margins)
  readable : readAuthority (authorityOf tail) = .ok authority
  parts : base = addressOf scheme authority (readTail (tailOf tail ++ slashes))

theorem isBreak_of_not_isMargin {c : Char} (h : isMargin c = false) : isBreak c = false := by
  refine Bool.eq_false_iff.2 fun hbreak => ?_
  have hc : c = '\t' ∨ c = '\n' ∨ c = '\r' := by simpa [isBreak, or_assoc] using hbreak
  rcases hc with rfl | rfl | rfl <;> exact absurd h (by decide)

/-- A text without margins stays as it is. -/
theorem cleanEnd_of_forall {cs : List Char} (h : ∀ c ∈ cs, isMargin c = false) :
    cleanEnd cs = cs := by
  have hdrop : cs.reverse.dropWhile isMargin = cs.reverse := by
    rw [List.dropWhile_eq_self_iff]
    intro hlength
    rw [Bool.not_eq_true]
    exact h _ (List.mem_reverse.1 (List.getElem_mem hlength))
  rw [cleanEnd, hdrop, List.reverse_reverse, List.filter_eq_self]
  intro c hc
  rw [isBreak_of_not_isMargin (h c hc)]
  rfl

theorem cleanEnd_slashes {slashes : List Char} (h : ∀ c ∈ slashes, c = '/') :
    cleanEnd slashes = slashes :=
  cleanEnd_of_forall fun c hc => by rw [h c hc]; decide

theorem tailOf_append {tail : List Char} (h : tail.dropWhile isSlash ≠ []) (rest : List Char) :
    tailOf (tail ++ '/' :: rest) = tailOf tail ++ '/' :: rest := by
  unfold tailOf
  rw [List.dropWhile_append, if_neg (by simpa using h), dropWhile_append_cons (by decide)]

theorem named_of_readAuthority {tail slashes : List Char} {authority : Authority}
    (hslashes : ∀ c ∈ slashes, c = '/')
    (h : readAuthority (authorityOf (tail ++ slashes)) = .ok authority) :
    tail.dropWhile isSlash ≠ [] := by
  intro hnil
  rw [authorityOf_slashes hnil hslashes] at h
  exact readAuthority_nil _ h

theorem exists_shares {core slashes : List Char} {base : Address}
    (hslashes : ∀ c ∈ slashes, c = '/') (h : read (core ++ slashes) = .ok (.web base)) :
    ∃ scheme tail margins authority, Shares core slashes base scheme tail margins authority := by
  obtain ⟨scheme, rest, hsplit, hweb⟩ := read_eq_web_iff.1 h
  rw [readWeb_eq] at hweb
  cases hauthority : readAuthority (authorityOf rest) with
  | error e => rw [hauthority] at hweb; cases hweb
  | ok authority =>
    rw [hauthority] at hweb
    have hbase : addressOf scheme authority (readTail (tailOf rest)) = base := Except.ok.inj hweb
    cases slashes with
    | nil =>
      rw [List.append_nil] at hsplit
      obtain ⟨margins, hmargins, hfront⟩ := exists_margins core
      refine ⟨scheme, rest, margins, authority, hmargins, .inl rfl, ?_, ?_, hauthority, ?_⟩
      · exact named_of_readAuthority hslashes (by rwa [List.append_nil])
      · rw [hfront]
        exact splitScheme?_append_of_some hsplit _
      · rw [List.append_nil, hbase]
    | cons slash slashes =>
      obtain rfl : slash = '/' := hslashes _ List.mem_cons_self
      have hmore : ∀ c ∈ slashes, c = '/' := fun c hc => hslashes c (List.mem_cons_of_mem _ hc)
      rw [clean_append, cleanEnd_slashes hmore, splitScheme?_append] at hsplit
      obtain ⟨⟨found, tail⟩, hfound, heq⟩ := Option.map_eq_some_iff.1 hsplit
      obtain ⟨rfl, rfl⟩ := Prod.mk.inj heq
      have hnamed := named_of_readAuthority hslashes hauthority
      refine ⟨scheme, tail, [], authority, by simp, .inr rfl, hnamed, ?_, ?_, ?_⟩
      · rw [List.append_nil, hfound]
      · rwa [authorityOf_append hnamed] at hauthority
      · rw [← hbase, tailOf_append hnamed]

namespace Shares

variable {core slashes : List Char} {base : Address} {scheme : Scheme} {tail margins : List Char}
  {authority : Authority}

theorem read_iff (h : Shares core slashes base scheme tail margins authority) {rest : List Char}
    (hrest : ∀ c ∈ rest, isMargin c = false) {a : Address} :
    read (core ++ '/' :: rest) = .ok (.web a) ↔
      readAuthority (authorityOf (tail ++ margins)) = .ok authority
        ∧ a = addressOf scheme authority (readTail (tailOf (tail ++ margins) ++ '/' :: rest)) := by
  have hnamed : (tail ++ margins).dropWhile isSlash ≠ [] := by
    simp [List.dropWhile_append, h.named]
  have hsplit : splitScheme? (clean (core ++ '/' :: rest))
      = some (scheme.chars, tail ++ margins ++ '/' :: rest) := by
    rw [clean_append, cleanEnd_of_forall hrest]
    exact splitScheme?_append_of_some h.split _
  have hweb : readWeb scheme (tail ++ margins ++ '/' :: rest)
      = (readAuthority (authorityOf (tail ++ margins))).map fun authority =>
        addressOf scheme authority (readTail (tailOf (tail ++ margins) ++ '/' :: rest)) := by
    rw [readWeb_eq, authorityOf_append hnamed, tailOf_append hnamed]
  rw [read_eq_web_iff]
  constructor
  · rintro ⟨scheme', rest', hsplit', hread⟩
    rw [hsplit] at hsplit'
    obtain ⟨hscheme, rfl⟩ := Prod.mk.inj (Option.some.inj hsplit')
    obtain rfl := Scheme.chars_injective hscheme
    rw [hweb] at hread
    cases hauthority : readAuthority (authorityOf (tail ++ margins)) with
    | error e => rw [hauthority] at hread; cases hread
    | ok authority' =>
      have hextended : readAuthority (authorityOf (tail ++ (margins ++ '/' :: rest)))
          = .ok authority' := by
        rw [← List.append_assoc, authorityOf_append hnamed, hauthority]
      obtain rfl := readAuthority_extended h.uncounted h.readable hextended
      rw [hauthority] at hread
      exact ⟨rfl, (Except.ok.inj hread).symm⟩
  · rintro ⟨hauthority, rfl⟩
    exact ⟨scheme, _, hsplit, by rw [hweb, hauthority]; rfl⟩

end Shares

/-! ## Below a base address -/

/-- A path without the slashes at its end. -/
def trimPath (path : List (List Char)) : List (List Char) := path.rdropWhile List.isEmpty

/-- The address whose path goes on where the path of the base address ends. -/
def Address.below (base : Address) (segments : List (List Char)) (query : Option (List Char)) :
    Address :=
  { base with path := trimPath base.path ++ segments, query, fragment := none }

/-- With a slash behind it, the text leads to the root below the base address. -/
def IsSeat (core : List Char) (base : Address) : Prop :=
  read (core ++ ['/']) = .ok (.web (base.below [[]] none))

instance (core : List Char) (base : Address) : Decidable (IsSeat core base) :=
  match h : read (core ++ ['/']) with
  | .ok target =>
    if htarget : target = .web (base.below [[]] none) then
      isTrue (by rw [IsSeat, h, htarget])
    else isFalse fun hseat => htarget (Except.ok.inj (h.symm.trans hseat))
  | .error e => isFalse fun hseat => by rw [IsSeat, h] at hseat; cases hseat

theorem notMem_of_dropWhile_ne {c : Char} {cs : List Char} (h : cs.dropWhile (· ≠ c) = []) :
    c ∉ cs := by
  intro hmem
  exact absurd (List.dropWhile_eq_nil_iff.1 h c hmem) (by simp)

/-- A tail without query and fragment is a path. -/
theorem isOpen_of_readTail {cs : List Char} (hquery : (readTail cs).2.1 = none)
    (hfragment : (readTail cs).2.2 = none) : IsOpen cs := by
  unfold readTail at hquery hfragment
  simp only at hquery hfragment
  have hhash : '#' ∉ cs := by
    split at hfragment
    · cases hfragment
    · next hdrop => exact notMem_of_dropWhile_ne hdrop
  rw [(takeWhile_ne_self hhash).1] at hquery
  split at hquery
  · cases hquery
  · next hdrop => exact ⟨notMem_of_dropWhile_ne hdrop, hhash⟩

theorem isOpen_append {front rest : List Char} :
    IsOpen (front ++ rest) ↔ IsOpen front ∧ IsOpen rest := by
  simp only [IsOpen, List.mem_append, not_or]
  exact and_and_and_comm

/-- What ends an authority and does not end a path is a slash. -/
theorem isPath_tailOf {rest : List Char} (h : IsOpen (tailOf rest)) : IsPath (tailOf rest) := by
  intro c hc
  have hmem : c ∈ tailOf rest := List.mem_of_mem_head? hc
  have hends : endsAuthority true c = true := by
    have hhead := List.head?_dropWhile_not (!endsAuthority true ·) (rest.dropWhile isSlash)
    rw [show (rest.dropWhile isSlash).dropWhile (!endsAuthority true ·) = tailOf rest from rfl,
      Option.mem_def.1 hc] at hhead
    simpa using hhead
  have hquestion : c ≠ '?' := fun heq => h.1 (heq ▸ hmem)
  have hhash : c ≠ '#' := fun heq => h.2 (heq ▸ hmem)
  simpa [endsAuthority, isSlash, hquestion, hhash] using hends

theorem isPlain_nil : IsPlain [] := fun _ hc => absurd hc List.not_mem_nil

theorem isOpen_slashed {segments : List (List Char)} (h : ∀ segment ∈ segments, IsOpen segment) :
    IsOpen (slashed segments) := by
  induction segments with
  | nil => exact ⟨List.not_mem_nil, List.not_mem_nil⟩
  | cons segment rest ih =>
    have hrest := ih fun s hs => h s (List.mem_cons_of_mem _ hs)
    exact (@isOpen_append ['/'] _).2
      ⟨by decide, isOpen_append.2 ⟨h segment List.mem_cons_self, hrest⟩⟩

theorem IsPlain.isOpen {segment : List Char} (h : IsPlain segment) : IsOpen segment :=
  ⟨fun hc => absurd (h _ hc).1 (by decide), fun hc => absurd (h _ hc).1 (by decide)⟩

/-- A tail that goes on with plain segments. -/
theorem readTail_slashed {rest : List Char} (hopen : IsOpen (tailOf rest))
    {segments : List (List Char)} (hne : segments ≠ [])
    (hplain : ∀ segment ∈ segments, IsPlain segment) {query : Option (List Char)}
    (hquery : ∀ cs ∈ query, ∀ c ∈ cs, querySet c = false) :
    readTail (tailOf rest ++ (slashed segments ++ queryText query))
      = (passed (tailOf rest) ++ segments, query, none) := by
  rw [← List.append_assoc,
    readTail_of_isOpen (isOpen_append.2 ⟨hopen, isOpen_slashed fun s hs => (hplain s hs).isOpen⟩) hquery,
    readPath_slashed (isPath_tailOf hopen) hne hplain]

theorem addressOf_eq_below_iff {scheme : Scheme} {authority : Authority}
    {tail tail' : List (List Char) × Option (List Char) × Option (List Char)}
    {segments : List (List Char)} {query : Option (List Char)} :
    addressOf scheme authority tail = (addressOf scheme authority tail').below segments query ↔
      tail = (trimPath tail'.1 ++ segments, query, none) := by
  obtain ⟨path, query', fragment⟩ := tail
  simp [addressOf, Address.below]

theorem trimPath_of_forall {segments : List (List Char)} (h : ∀ segment ∈ segments, segment ≠ []) :
    trimPath segments = segments := by
  refine List.rdropWhile_eq_self_iff.2 fun hne => ?_
  rw [List.isEmpty_iff]
  exact h _ (List.getLast_mem hne)

theorem trimPath_append {front segments : List (List Char)} (hne : segments ≠ [])
    (h : ∀ segment ∈ segments, segment ≠ []) : trimPath (front ++ segments) = front ++ segments := by
  refine List.rdropWhile_eq_self_iff.2 fun hne' => ?_
  rw [List.isEmpty_iff, List.getLast_append_of_ne_nil _ hne]
  exact h _ (List.getLast_mem hne)

/-- Margins behind a tail are part of it, if there is any. -/
theorem tailOf_margins {tail margins : List Char} (h : tail.dropWhile isSlash ≠ [])
    (hmargins : ∀ m ∈ margins, isMargin m) :
    tailOf (tail ++ margins) = [] ∨ tailOf (tail ++ margins) = tailOf tail ++ margins := by
  unfold tailOf
  rw [List.dropWhile_append, if_neg (by simpa using h), List.dropWhile_append]
  split
  · refine .inl (List.dropWhile_eq_nil_iff.2 fun m hm => ?_)
    have hmargin := hmargins m hm
    simp [endsAuthority, ne_of_isMargin (c := '/') hmargin, ne_of_isMargin (c := '?') hmargin,
      ne_of_isMargin (c := '#') hmargin, ne_of_isMargin (c := '\\') hmargin]
  · exact .inr rfl

theorem isOpen_margins {margins : List Char} (h : ∀ m ∈ margins, isMargin m) : IsOpen margins :=
  ⟨fun hmem => absurd (h _ hmem) (by decide), fun hmem => absurd (h _ hmem) (by decide)⟩

theorem isMargin_of_controlSet {c : Char} (hcontrol : controlSet c = false) (hblank : c ≠ ' ') :
    isMargin c = false := by
  simp only [controlSet, Bool.or_eq_false_iff, decide_eq_false_iff_not] at hcontrol
  have hne : c.toNat ≠ 0x20 := fun heq => hblank (Char.toNat_inj.1 heq)
  simp only [isMargin, decide_eq_false_iff_not]
  omega

theorem isMargin_of_pathSet {c : Char} (h : pathSet c = false) : isMargin c = false := by
  simp only [pathSet, fragmentSet, Bool.or_eq_false_iff, decide_eq_false_iff_not] at h
  exact isMargin_of_controlSet h.1.1 fun heq => h.1.2 (heq ▸ List.mem_cons_self)

theorem isMargin_of_querySet {c : Char} (h : querySet c = false) : isMargin c = false := by
  simp only [querySet, Bool.or_eq_false_iff, decide_eq_false_iff_not] at h
  exact isMargin_of_controlSet h.1 fun heq => h.2 (heq ▸ List.mem_cons_self)

/-- A path and its query as they are put behind an address. -/
structure IsPlainPath (segments : List (List Char)) (query : Option (List Char)) : Prop where
  nonempty : segments ≠ []
  plain : ∀ segment ∈ segments, IsPlain segment
  unescaped : ∀ cs ∈ query, ∀ c ∈ cs, querySet c = false

/-- Behind its first slash, a plain path has no margins. -/
theorem IsPlainPath.exists_rest {segments : List (List Char)} {query : Option (List Char)}
    (h : IsPlainPath segments query) :
    ∃ rest, slashed segments ++ queryText query = '/' :: rest ∧ ∀ c ∈ rest, isMargin c = false := by
  obtain ⟨segment, more, rfl⟩ := List.exists_cons_of_ne_nil h.nonempty
  refine ⟨segment ++ slashed more ++ queryText query, rfl, fun c hc => ?_⟩
  rw [List.mem_append, List.mem_append] at hc
  rcases hc with (hc | hc) | hc
  · exact isMargin_of_pathSet (h.plain segment List.mem_cons_self c hc).1
  · obtain ⟨next, hnext, hc⟩ := List.mem_flatMap.1 hc
    rcases List.mem_cons.1 hc with rfl | hc
    · decide
    · exact isMargin_of_pathSet (h.plain next (List.mem_cons_of_mem _ hnext) c hc).1
  · cases query with
    | none => cases hc
    | some cs =>
      rcases List.mem_cons.1 hc with rfl | hc
      · decide
      · exact isMargin_of_querySet (h.unescaped cs rfl c hc)

namespace Shares

variable {core slashes : List Char} {base : Address} {scheme : Scheme} {tail margins : List Char}
  {authority : Authority}

/-- What a seat is, part by part. -/
theorem isSeat_iff (h : Shares core slashes base scheme tail margins authority) :
    IsSeat core base ↔
      readAuthority (authorityOf (tail ++ margins)) = .ok authority
        ∧ IsOpen (tailOf (tail ++ margins))
        ∧ passed (tailOf (tail ++ margins)) = trimPath base.path := by
  rw [IsSeat, h.read_iff (by simp)]
  refine and_congr_right fun _ => ?_
  have hplain : ∀ segment ∈ [([] : List Char)], IsPlain segment := by simp [isPlain_nil]
  have hparts := h.parts
  constructor
  · intro hseat
    rw [hparts, eq_comm, addressOf_eq_below_iff] at hseat
    have hopen := (isOpen_append.1 (isOpen_of_readTail (by rw [hseat]) (by rw [hseat]))).1
    have hroot := @readTail_slashed _ hopen _ (List.cons_ne_nil _ _) hplain none (by simp)
    refine ⟨hopen, @List.append_cancel_right _ _ [[]] _ ?_⟩
    rw [hparts]
    exact congrArg Prod.fst (hroot.symm.trans hseat)
  · rintro ⟨hopen, hpassed⟩
    have hroot := @readTail_slashed _ hopen _ (List.cons_ne_nil _ _) hplain none (by simp)
    rw [hpassed, hparts] at hroot
    rw [hparts, eq_comm, addressOf_eq_below_iff]
    exact hroot

/-- **From a seat, plain paths lead below the base address.** -/
theorem read_below (h : Shares core slashes base scheme tail margins authority)
    (hseat : IsSeat core base) {segments : List (List Char)} {query : Option (List Char)}
    (hpath : IsPlainPath segments query) :
    read (core ++ (slashed segments ++ queryText query))
      = .ok (.web (base.below segments query)) := by
  obtain ⟨hreadable, hopen, hpassed⟩ := h.isSeat_iff.1 hseat
  obtain ⟨rest, hrest, hmargins⟩ := hpath.exists_rest
  have htail := readTail_slashed hopen hpath.nonempty hpath.plain hpath.unescaped
  have hparts := h.parts
  rw [hpassed, hparts] at htail
  rw [hrest, h.read_iff hmargins, ← hrest]
  refine ⟨hreadable, ?_⟩
  rw [hparts, eq_comm, addressOf_eq_below_iff]
  exact htail

/-- Where a path has ended, the path of the base address has ended there as well. -/
theorem path_of_not_isOpen (h : Shares core slashes base scheme tail margins authority)
    (hopen : ¬ IsOpen (tailOf (tail ++ margins))) :
    base.path = (readTail (tailOf (tail ++ margins))).1 := by
  rw [h.parts]
  show (readTail (tailOf tail ++ slashes)).1 = _
  rcases h.lone with rfl | rfl
  · rw [List.append_nil]
    rcases tailOf_margins h.named h.uncounted with hnil | hmargins
    · rw [hnil] at hopen
      exact absurd ⟨List.not_mem_nil, List.not_mem_nil⟩ hopen
    · rw [hmargins, isOpen_append, not_and] at hopen
      rw [hmargins, readTail_append_of_not_isOpen]
      exact fun htail => hopen htail (isOpen_margins h.uncounted)
  · rw [List.append_nil] at hopen ⊢
    exact readTail_append_of_not_isOpen hopen _

/-- **A plain path that leads below the base address does so from a seat.** -/
theorem isSeat_of_read (h : Shares core slashes base scheme tail margins authority)
    {segments : List (List Char)} {query : Option (List Char)}
    (hpath : IsPlainPath segments query) (hfull : ∀ segment ∈ segments, segment ≠ []) {a : Address}
    (hread : read (core ++ (slashed segments ++ queryText query)) = .ok (.web a))
    (ha : a.path = trimPath base.path ++ segments) : IsSeat core base := by
  obtain ⟨rest, hrest, hmargins⟩ := hpath.exists_rest
  rw [hrest, h.read_iff hmargins, ← hrest] at hread
  obtain ⟨hreadable, rfl⟩ := hread
  by_cases hopen : IsOpen (tailOf (tail ++ margins))
  · have htail := readTail_slashed hopen hpath.nonempty hpath.plain hpath.unescaped
    refine h.isSeat_iff.2 ⟨hreadable, hopen, @List.append_cancel_right _ _ segments _ ?_⟩
    rw [← ha]
    exact (congrArg Prod.fst htail).symm
  · -- The path put behind is not part of the path that was read.
    have hbase : base.path = trimPath base.path ++ segments := by
      rw [← ha, h.path_of_not_isOpen hopen]
      exact (readTail_append_of_not_isOpen hopen _).symm
    have htrim : trimPath base.path = base.path := by
      rw [hbase, trimPath_append hpath.nonempty hfull]
    rw [htrim] at hbase
    exact absurd (List.append_right_eq_self.1 hbase.symm) hpath.nonempty

end Shares

/-! ## Tidy addresses -/

/-- A sign of a tidy address, which means nothing but itself. -/
def IsTidySign (c : Char) : Prop := isMargin c = false ∧ endsAuthority true c = false

/-- A text that is an address as people write them: a scheme, two slashes, an authority and segments
that are not empty. Margins in front do no harm. -/
structure IsTidy (core margins scheme authority : List Char) (segments : List (List Char)) :
    Prop where
  text : core = margins ++ (scheme ++ ':' :: '/' :: '/' :: (authority ++ slashed segments))
  uncounted : ∀ m ∈ margins, isMargin m
  named : ∀ c ∈ scheme, isSchemeChar c
  authority_ne_nil : authority ≠ []
  authority_sign : ∀ c ∈ authority, IsTidySign c
  segment_ne_nil : ∀ segment ∈ segments, segment ≠ []
  segment_sign : ∀ segment ∈ segments, ∀ c ∈ segment, IsTidySign c

theorem isSlash_of_isTidySign {c : Char} (h : IsTidySign c) : isSlash c = false := by
  have hends := h.2
  simp only [endsAuthority, Bool.or_eq_false_iff, decide_eq_false_iff_not] at hends
  simp_all [isSlash]

theorem isMargin_of_isSchemeChar {c : Char} (h : isSchemeChar c) : isMargin c = false := by
  have hnone : ∀ n ≤ 0x20, isSchemeChar (Char.ofNat n) = false := by decide
  refine Bool.eq_false_iff.2 fun hmargin => ?_
  rw [← Char.ofNat_toNat c, hnone c.toNat (of_decide_eq_true hmargin)] at h
  cases h

theorem encodeChar_ne_nil (set : Char → Bool) (c : Char) : encodeChar set c ≠ [] := by
  unfold encodeChar
  split
  · obtain ⟨b, bytes, hbytes⟩ := List.exists_cons_of_ne_nil (String.utf8EncodeChar_ne_nil (c := c))
    simp [hbytes, encodeByte]
  · simp

theorem encode_ne_nil {cs : List Char} (h : cs ≠ []) (set : Char → Bool) : encode set cs ≠ [] := by
  obtain ⟨c, rest, rfl⟩ := List.exists_cons_of_ne_nil h
  rw [encode, List.flatMap_cons]
  exact List.append_ne_nil_of_left_ne_nil (encodeChar_ne_nil set c) _

theorem mem_ascend {done : List (List Char)} {segment : List Char} (h : segment ∈ ascend done) :
    segment ∈ done := by
  unfold ascend at h
  split at h
  · exact h
  · split at h
    · exact h
    · exact List.mem_cons_of_mem _ h

theorem follow_forall {done : List (List Char)} {segment : List Char}
    (hdone : ∀ s ∈ done, s ≠ []) (h : segment ≠ []) : ∀ s ∈ follow done segment, s ≠ [] := by
  unfold follow
  split
  · exact fun s hs => hdone s (mem_ascend hs)
  · split
    · exact hdone
    · exact List.forall_mem_cons.2 ⟨h, hdone⟩

theorem foldl_follow_forall {segments done : List (List Char)} (hdone : ∀ s ∈ done, s ≠ [])
    (h : ∀ s ∈ segments, s ≠ []) : ∀ s ∈ segments.foldl follow done, s ≠ [] := by
  induction segments generalizing done with
  | nil => exact hdone
  | cons segment rest ih =>
    exact ih (follow_forall hdone (h _ List.mem_cons_self)) fun s hs => h s (List.mem_cons_of_mem _ hs)

theorem trimPath_concat_nil (front : List (List Char)) : trimPath (front ++ [[]]) = trimPath front := by
  rw [trimPath, List.rdropWhile_concat_pos _ _ _ rfl]
  rfl

/-- Without empty segments it makes no difference whether a path goes on, but for slashes. -/
theorem trimPath_walk {segments done : List (List Char)} (hdone : ∀ s ∈ done, s ≠ [])
    (h : ∀ s ∈ segments, s ≠ []) :
    trimPath (walk done segments) = (segments.foldl follow done).reverse := by
  induction segments generalizing done with
  | nil => exact trimPath_of_forall fun s hs => hdone s (List.mem_reverse.1 hs)
  | cons segment rest ih =>
    have hfollow := follow_forall hdone (h _ List.mem_cons_self)
    cases rest with
    | nil =>
      have hself : trimPath (follow done segment).reverse = (follow done segment).reverse :=
        trimPath_of_forall fun s hs => hfollow s (List.mem_reverse.1 hs)
      rw [List.foldl_cons, List.foldl_nil, ← hself, walk, follow]
      split
      · rw [List.reverse_cons, trimPath_concat_nil]
      · split
        · rw [List.reverse_cons, trimPath_concat_nil]
        · rfl
    | cons next rest =>
      rw [walk_cons (by simp), List.foldl_cons]
      exact ih hfollow fun s hs => h s (List.mem_cons_of_mem _ hs)

theorem slashed_replicate (n : Nat) : slashed (List.replicate n []) = List.replicate n '/' := by
  induction n with
  | zero => rfl
  | succ n ih => rw [List.replicate_succ, List.replicate_succ, ← ih]; rfl

theorem trimPath_append_replicate (front : List (List Char)) (n : Nat) :
    trimPath (front ++ List.replicate n []) = trimPath front := by
  induction n with
  | zero => rw [List.replicate_zero, List.append_nil]
  | succ n ih => rw [List.replicate_succ', ← List.append_assoc, trimPath_concat_nil, ih]

/-- **A path without empty segments but at its end** is left the same when it goes on. -/
theorem trimPath_readPath {segments : List (List Char)} (hne : ∀ s ∈ segments, s ≠ [])
    (hslash : ∀ s ∈ segments, ∀ c ∈ s, isSlash c = false) {slashes : List Char}
    (hslashes : ∀ c ∈ slashes, c = '/') :
    trimPath (readPath (slashed segments ++ slashes)) = passed (slashed segments) := by
  have hpath : IsPath (slashed segments) := by
    intro c hc
    cases segments with
    | nil => cases hc
    | cons segment rest => cases hc; decide
  have hencoded : ∀ s ∈ segmentsOf (slashed segments), s ≠ [] := by
    rw [segmentsOf_slashed hslash]
    intro s hs
    obtain ⟨segment, hsegment, rfl⟩ := List.mem_map.1 hs
    exact encode_ne_nil (hne segment hsegment) _
  have hpassed : ∀ s ∈ passed (slashed segments), s ≠ [] := fun s hs =>
    foldl_follow_forall (by simp) hencoded s (List.mem_reverse.1 hs)
  obtain ⟨n, rfl⟩ : ∃ n, slashes = List.replicate n '/' :=
    ⟨_, List.eq_replicate_iff.2 ⟨rfl, hslashes⟩⟩
  cases n with
  | zero =>
    rw [List.replicate_zero, List.append_nil]
    cases segments with
    | nil => rfl
    | cons segment rest =>
      have hread : readPath (slashed (segment :: rest))
          = walk [] (segmentsOf (slashed (segment :: rest))) := readPath_of_isPath (by decide)
      rw [hread, trimPath_walk (by simp) hencoded, passed]
  | succ n =>
    rw [← slashed_replicate, readPath_slashed hpath (by simp)
      fun s hs => (List.eq_of_mem_replicate hs) ▸ isPlain_nil, trimPath_append_replicate,
      trimPath_of_forall hpassed]

theorem dropWhile_of_splitScheme? {cs scheme rest : List Char}
    (h : splitScheme? cs = some (scheme, rest)) : cs.dropWhile isSchemeChar = ':' :: rest := by
  unfold splitScheme? at h
  split at h
  · cases h
  · split at h
    · split at h
      · next hdrop =>
        cases h
        exact hdrop
      · cases h
    · cases h

namespace IsTidy

variable {core margins scheme authority : List Char} {segments : List (List Char)}

theorem mem_sign (h : IsTidy core margins scheme authority segments) {c : Char}
    (hc : c ∈ '/' :: '/' :: (authority ++ slashed segments)) : isMargin c = false := by
  have hslash : isMargin '/' = false := by decide
  simp only [List.mem_cons, List.mem_append, slashed, List.mem_flatMap] at hc
  rcases hc with rfl | rfl | hc | ⟨segment, hs, rfl | hc⟩
  · exact hslash
  · exact hslash
  · exact (h.authority_sign c hc).1
  · exact hslash
  · exact (h.segment_sign segment hs c hc).1

theorem cleanFront_eq (h : IsTidy core margins scheme authority segments) :
    cleanFront core = scheme ++ ':' :: '/' :: '/' :: (authority ++ slashed segments) := by
  have hscheme : ∀ c ∈ scheme, isMargin c = false := fun c hc =>
    isMargin_of_isSchemeChar (h.named c hc)
  have hall : ∀ c ∈ scheme ++ ':' :: '/' :: '/' :: (authority ++ slashed segments),
      isMargin c = false := by
    intro c hc
    rcases List.mem_append.1 hc with hc | hc
    · exact hscheme c hc
    · rcases List.mem_cons.1 hc with rfl | hc
      · decide
      · exact h.mem_sign hc
  have hdrop : core.dropWhile isMargin
      = scheme ++ ':' :: '/' :: '/' :: (authority ++ slashed segments) := by
    rw [h.text, List.dropWhile_append_of_pos h.uncounted, List.dropWhile_eq_self_iff]
    intro hlength
    rw [Bool.not_eq_true]
    exact hall _ (List.getElem_mem hlength)
  rw [cleanFront, hdrop, List.filter_eq_self]
  intro c hc
  rw [isBreak_of_not_isMargin (hall c hc)]
  rfl

theorem tailOf_eq (h : IsTidy core margins scheme authority segments) :
    tailOf ('/' :: '/' :: (authority ++ slashed segments)) = slashed segments := by
  have hauthority : (authority ++ slashed segments).dropWhile isSlash
      = authority ++ slashed segments := by
    obtain ⟨c, more, rfl⟩ := List.exists_cons_of_ne_nil h.authority_ne_nil
    have hc := isSlash_of_isTidySign (h.authority_sign c List.mem_cons_self)
    rw [List.cons_append, List.dropWhile_cons_of_neg (by simp [hc])]
  have hends : ∀ c ∈ authority, (!endsAuthority true c) = true := fun c hc => by
    rw [(h.authority_sign c hc).2]
    rfl
  rw [tailOf, List.dropWhile_cons_of_pos (by decide), List.dropWhile_cons_of_pos (by decide),
    hauthority, List.dropWhile_append_of_pos hends]
  cases segments with
  | nil => rfl
  | cons segment rest => exact List.dropWhile_cons_of_neg (by decide)

theorem isOpen_path (h : IsTidy core margins scheme authority segments) :
    IsOpen (slashed segments) :=
  isOpen_slashed fun s hs => ⟨fun hc => absurd (h.segment_sign s hs _ hc).2 (by decide),
    fun hc => absurd (h.segment_sign s hs _ hc).2 (by decide)⟩

/-- **A tidy address is a seat**, with any number of slashes at its end. -/
theorem isSeat (h : IsTidy core margins scheme authority segments) {slashes : List Char}
    {base : Address} (hslashes : ∀ c ∈ slashes, c = '/')
    (hread : read (core ++ slashes) = .ok (.web base)) : IsSeat core base := by
  obtain ⟨webScheme, tail, unseen, found, hshares⟩ := exists_shares hslashes hread
  have hsplit := dropWhile_of_splitScheme? hshares.split
  rw [h.cleanFront_eq, List.dropWhile_append_of_pos h.named,
    List.dropWhile_cons_of_neg (by decide)] at hsplit
  have hrest : '/' :: '/' :: (authority ++ slashed segments) = tail ++ unseen :=
    (List.cons.inj hsplit).2
  -- No margins are left behind it.
  obtain rfl : unseen = [] := by
    refine List.eq_nil_iff_forall_not_mem.2 fun m hm => ?_
    have hmargin := hshares.uncounted m hm
    rw [h.mem_sign (hrest ▸ List.mem_append_right _ hm)] at hmargin
    cases hmargin
  rw [List.append_nil] at hrest
  have htail : tailOf tail = slashed segments := by rw [← hrest, h.tailOf_eq]
  rw [hshares.isSeat_iff, List.append_nil, htail]
  refine ⟨hshares.readable, h.isOpen_path, ?_⟩
  have hopen : IsOpen (slashed segments ++ slashes) :=
    isOpen_append.2 ⟨h.isOpen_path, fun hc => absurd (hslashes _ hc) (by decide),
      fun hc => absurd (hslashes _ hc) (by decide)⟩
  have hpath := @readTail_of_isOpen _ hopen none (by simp)
  rw [queryText, Option.elim_none, List.append_nil] at hpath
  rw [hshares.parts, htail, hpath]
  exact (trimPath_readPath h.segment_ne_nil
    (fun s hs c hc => isSlash_of_isTidySign (h.segment_sign s hs c hc)) hslashes).symm

end IsTidy

end MetaCache.Url
