import MetaCache.Proofs.Url.Host

/-!
# The text of an address has the origin of the address

An address that was read is written back in one way, and may be read once more. If it can be, the
origin is the same (`origin_of_reread`): the authority is found between the slashes, as no sign in it
ends it, the user ends at the last at-sign, and host and port are read back as they were.
-/

namespace MetaCache.Url

open MetaCache.Text

/-! ## Users -/

/-- What is encoded has no other signs than those that are left and those of the encoding. -/
theorem encode_forall {set : Char → Bool} {P : Char → Prop} (hpercent : P '%')
    (hdigit : ∀ d, P (upperHexChar d)) (hleft : ∀ c, set c = false → P c) (cs : List Char) :
    ∀ c ∈ encode set cs, P c := by
  intro c hc
  obtain ⟨d, -, hc⟩ := List.mem_flatMap.1 hc
  unfold encodeChar at hc
  split at hc
  · obtain ⟨b, -, hc⟩ := List.mem_flatMap.1 hc
    simp only [encodeByte, List.mem_cons, List.not_mem_nil, or_false] at hc
    rcases hc with rfl | rfl | rfl
    · exact hpercent
    · exact hdigit _
    · exact hdigit _
  · next hd =>
    rw [List.mem_singleton.1 hc]
    exact hleft d (Bool.eq_false_iff.2 hd)

theorem isHostSign_of_userinfoSet {c : Char} (h : userinfoSet c = false) : Host.isHostSign c := by
  obtain ⟨hpath, hsigns⟩ := Bool.or_eq_false_iff.1 h
  have hmargin := isMargin_of_pathSet hpath
  have hne : c ≠ '/' ∧ c ≠ '@' ∧ c ≠ '\\' := by
    simp at hsigns
    tauto
  have hne' : c ≠ '#' ∧ c ≠ '?' := by
    simp [pathSet] at hpath
    tauto
  simp [Host.isHostSign, endsAuthority, hmargin, hne, hne']

theorem isHostSign_of_mem_encode {c : Char} {cs : List Char} (h : c ∈ encode userinfoSet cs) :
    Host.isHostSign c :=
  encode_forall (P := (Host.isHostSign ·)) (by decide) (by decide)
    (fun _ => isHostSign_of_userinfoSet) cs c h

/-- No sign in a user's name or password ends the user or the authority. -/
def Userinfo.IsEncoded (u : Userinfo) : Prop :=
  (∀ c ∈ u.name, Host.isHostSign c) ∧ ∀ password ∈ u.password, ∀ c ∈ password, Host.isHostSign c

theorem isEncoded_readUserinfo (cs : List Char) : (readUserinfo cs).IsEncoded := by
  unfold readUserinfo
  simp only
  split
  · refine ⟨fun c hc => isHostSign_of_mem_encode hc, fun password hpassword c hc => ?_⟩
    rw [← Option.some.inj hpassword] at hc
    exact isHostSign_of_mem_encode hc
  · exact ⟨fun c hc => isHostSign_of_mem_encode hc, fun password hpassword => by cases hpassword⟩

/-- Where no user was read there is one without a name. -/
theorem isEncoded_getD (user : Option (List Char)) :
    ((user.map readUserinfo).getD ⟨[], none⟩).IsEncoded := by
  cases user with
  | none => exact ⟨by simp, by simp⟩
  | some user => exact isEncoded_readUserinfo user

/-- The host and the port stand behind the last at-sign. -/
theorem snd_splitUserinfo (authority : List Char) :
    (splitUserinfo authority).2 = (authority.reverse.takeWhile (· ≠ '@')).reverse := by
  unfold splitUserinfo
  simp only
  split
  · next hlength =>
    rw [List.length_reverse] at hlength
    rw [(List.takeWhile_sublist _).eq_of_length (hlength.trans List.length_reverse.symm),
      List.reverse_reverse]
  · rfl

/-! ## Ports -/

theorem lt_of_readPort {cs : List Char} {port : Nat} (h : readPort cs = .ok (some port)) :
    port < 65536 := by
  unfold readPort at h
  split at h
  · cases h
  · split at h
    · cases h
    · split at h
      · cases h
      · split at h
        · split at h
          · next hlt =>
            cases h
            exact hlt
          · cases h
        · cases h

theorem hostLength_portChars (port : Option Nat) :
    hostLength false (Address.portChars port) = 0 := by
  cases port <;> rfl

theorem isHostSign_of_mem_portChars {port : Option Nat} {c : Char}
    (h : c ∈ Address.portChars port) : Host.isHostSign c := by
  cases port with
  | none => cases h
  | some port =>
    rcases List.mem_cons.1 h with rfl | h
    · decide
    · rw [Nat.toList_repr] at h
      obtain ⟨d, hd, rfl⟩ := mem_toDigits (by decide) h
      exact Host.isHostSign_of_isSettled (isSettled_digitChar (Nat.lt_trans hd (by decide)))

theorem readPort_portChars {port : Option Nat} (h : ∀ p ∈ port, p < 65536) :
    readPort (Address.portChars port) = .ok port := by
  cases port with
  | none => rfl
  | some port =>
    have hdigits : (Nat.toDigits 10 port).all Char.isDigit = true :=
      List.all_eq_true.2 fun c hc => Nat.isDigit_of_mem_toDigits (by decide) (by decide) hc
    have hne : (Nat.toDigits 10 port).isEmpty = false := by simp [Nat.toDigits_ne_nil]
    simp [Address.portChars, readPort, Nat.toList_repr, hdigits, hne, - List.all_eq_true,
      numberOfBase?_toDigits, h port rfl]

/-! ## Addresses -/

theorem walk_ne_nil {segments : List (List Char)} (h : segments ≠ []) (done : List (List Char)) :
    walk done segments ≠ [] := by
  induction segments generalizing done with
  | nil => exact absurd rfl h
  | cons segment segments ih =>
    rcases segments with - | ⟨next, segments⟩
    · unfold walk
      split
      · simp
      · split <;> simp
    · rw [walk_cons (List.cons_ne_nil _ _)]
      exact ih (List.cons_ne_nil _ _) _

theorem readPath_ne_nil (cs : List Char) : readPath cs ≠ [] := by
  unfold readPath
  exact walk_ne_nil (by simp [splitAt_ne_nil]) []

namespace Address

/-- What stands between the slashes behind the scheme and the slash of the path. -/
def authorityChars (a : Address) : List Char :=
  a.userinfoChars ++ (a.host.chars ++ portChars a.port)

/-- What an address is that was read. -/
structure WasRead (a : Address) : Prop where
  user : a.userinfo.IsEncoded
  host : a.host.WasRead
  port : ∀ port ∈ a.port, port < 65536
  path : a.path ≠ []

theorem wasRead_of_read {text : List Char} {a : Address} (h : read text = .ok (.web a)) :
    a.WasRead := by
  obtain ⟨scheme, rest, -, hweb⟩ := read_eq_web_iff.1 h
  rw [readWeb_eq] at hweb
  cases hauthority : readAuthority (authorityOf rest) with
  | error e => rw [hauthority] at hweb; cases hweb
  | ok authority =>
    rw [hauthority] at hweb
    cases hweb
    obtain ⟨-, hhost, hport, huser⟩ := readAuthority_ok hauthority
    refine ⟨?_, Host.wasRead_of_read hhost, fun port hmem => ?_, readPath_ne_nil _⟩
    · show authority.userinfo.IsEncoded
      rw [huser]
      exact isEncoded_getD _
    · obtain ⟨hmem, -⟩ := Option.filter_eq_some_iff.1 hmem
      rw [hmem] at hport
      exact lt_of_readPort hport

namespace WasRead

variable {a : Address}

theorem isHostSign_hostPort (h : a.WasRead) :
    ∀ c ∈ a.host.chars ++ portChars a.port, Host.isHostSign c := by
  intro c hc
  rcases List.mem_append.1 hc with hc | hc
  · exact h.host.isHostSign c hc
  · exact isHostSign_of_mem_portChars hc

/-- There is no user, or an at-sign behind the user. -/
theorem userinfoChars_eq (h : a.WasRead) :
    a.userinfoChars = []
      ∨ ∃ front, a.userinfoChars = front ++ ['@'] ∧ ∀ c ∈ front, Host.isHostSign c := by
  unfold userinfoChars
  simp only
  split
  · exact .inl rfl
  · refine .inr ⟨_, rfl, fun c hc => ?_⟩
    rcases List.mem_append.1 hc with hc | hc
    · exact h.user.1 c hc
    · cases hpassword : a.userinfo.password with
      | none =>
        rw [hpassword] at hc
        cases hc
      | some password =>
        rw [hpassword] at hc
        rcases List.mem_cons.1 hc with rfl | hc
        · decide
        · exact h.user.2 password hpassword c hc

/-- Nothing in the authority ends it, and nothing is a margin. -/
theorem forall_authorityChars (h : a.WasRead) :
    ∀ c ∈ a.authorityChars, endsAuthority true c = false ∧ isMargin c = false := by
  have hsign {c : Char} (hc : Host.isHostSign c) :
      endsAuthority true c = false ∧ isMargin c = false := by
    simp only [Host.isHostSign, Bool.and_eq_true, Bool.not_eq_true'] at hc
    exact ⟨hc.1.2, hc.2⟩
  intro c hc
  rcases List.mem_append.1 hc with hc | hc
  · rcases h.userinfoChars_eq with hnone | ⟨front, hfront, hsigns⟩
    · rw [hnone] at hc
      cases hc
    · rw [hfront] at hc
      rcases List.mem_append.1 hc with hc | hc
      · exact hsign (hsigns c hc)
      · rw [List.mem_singleton.1 hc]
        decide
  · exact hsign (h.isHostSign_hostPort c hc)

theorem authorityChars_ne_nil (h : a.WasRead) : a.authorityChars ≠ [] := by
  simp [authorityChars, h.host.chars_ne_nil]

theorem snd_splitUserinfo (h : a.WasRead) :
    (splitUserinfo a.authorityChars).2 = a.host.chars ++ portChars a.port := by
  have hall : ∀ c ∈ (a.host.chars ++ portChars a.port).reverse, decide (c ≠ '@') = true := by
    intro c hc
    have hsign := h.isHostSign_hostPort c (List.mem_reverse.1 hc)
    simp only [Host.isHostSign, Bool.and_eq_true] at hsign
    exact hsign.1.1
  rw [Url.snd_splitUserinfo, authorityChars, List.reverse_append,
    List.takeWhile_append_of_pos hall]
  rcases h.userinfoChars_eq with hnone | ⟨front, hfront, -⟩
  · rw [hnone]
    simp
  · rw [hfront]
    simp

/-- **The authority of an address leads back to its host and its port.** -/
theorem of_readAuthority (h : a.WasRead) {found : Authority}
    (hfound : readAuthority a.authorityChars = .ok found) :
    found.host = a.host ∧ found.port = a.port := by
  obtain ⟨-, hhost, hport, -⟩ := readAuthority_ok hfound
  have hlength : hostLength false (a.host.chars ++ portChars a.port) = a.host.chars.length := by
    rw [h.host.hostLength_chars, hostLength_portChars, Nat.add_zero]
  rw [h.snd_splitUserinfo, hlength, List.take_left] at hhost
  rw [h.snd_splitUserinfo, hlength, List.drop_left, readPort_portChars h.port] at hport
  exact ⟨h.host.read_chars hhost, (Except.ok.inj hport).symm⟩

/-- The authority stands between the slashes. -/
theorem exists_rest (h : a.WasRead) :
    ∃ rest, a.chars
      = a.scheme.chars ++ ":".toList ++ '/' :: ('/' :: a.authorityChars ++ '/' :: rest) := by
  obtain ⟨segment, segments, hpath⟩ := List.exists_cons_of_ne_nil h.path
  refine ⟨segment ++ (segments.flatMap ('/' :: ·) ++ (a.query.elim [] ('?' :: ·)
    ++ a.fragment.elim [] ('#' :: ·))), ?_⟩
  have hslashes : "://".toList = ":".toList ++ ['/', '/'] := by decide
  simp only [chars, authorityChars, hpath, List.flatMap_cons, hslashes, List.append_assoc,
    List.cons_append, List.nil_append]

theorem clean_chars (h : a.WasRead) :
    ∃ rest, clean a.chars
      = a.scheme.chars ++ ':' :: '/' :: '/' :: (a.authorityChars ++ '/' :: rest) := by
  obtain ⟨rest, hchars⟩ := h.exists_rest
  have hfront : cleanFront (a.scheme.chars ++ ":".toList) = a.scheme.chars ++ [':'] := by
    cases a.scheme <;> decide
  have hbreak : ('/' :: a.authorityChars).filter (!isBreak ·) = '/' :: a.authorityChars := by
    refine List.filter_eq_self.2 fun c hc => ?_
    rcases List.mem_cons.1 hc with rfl | hc
    · decide
    · simp [isBreak_of_not_isMargin (h.forall_authorityChars c hc).2]
  refine ⟨cleanEnd rest, ?_⟩
  rw [hchars, clean_append, hfront, cleanEnd_append, hbreak]
  simp

end WasRead

end Address

theorem splitScheme?_chars (scheme : Scheme) (rest : List Char) :
    splitScheme? (scheme.chars ++ ':' :: rest) = some (scheme.chars, rest) := by
  cases scheme <;> rfl

/-- What no sign ends goes up to the slash. -/
theorem authorityOf_slashes_append {authority : List Char} (hne : authority ≠ [])
    (h : ∀ c ∈ authority, endsAuthority true c = false) (rest : List Char) :
    authorityOf ('/' :: '/' :: (authority ++ '/' :: rest)) = authority := by
  obtain ⟨c, cs, rfl⟩ := List.exists_cons_of_ne_nil hne
  have hslash : isSlash c = false := by
    have := h c List.mem_cons_self
    simp only [endsAuthority, Bool.or_eq_false_iff, Bool.true_and] at this
    simp [isSlash, this]
  have htake : ∀ c' ∈ c :: cs, (!endsAuthority true c') = true := fun c' hc' => by simp [h c' hc']
  unfold authorityOf
  rw [List.dropWhile_cons_of_pos (by decide), List.dropWhile_cons_of_pos (by decide),
    List.cons_append, List.dropWhile_cons_of_neg (by simp [hslash]), ← List.cons_append,
    List.takeWhile_append_of_pos htake, List.takeWhile_cons_of_neg (by decide), List.append_nil]

/-- **The text of an address that was read has the origin of this address, if it has one.** -/
theorem origin_of_reread {text : List Char} {a found : Address} (h : read text = .ok (.web a))
    (hfound : read a.chars = .ok (.web found)) : found.origin = a.origin := by
  have hread := Address.wasRead_of_read h
  obtain ⟨scheme, behind, authority, hsplit, hauthority, horigin⟩ := origin_of_read hfound
  obtain ⟨rest, hclean⟩ := hread.clean_chars
  -- The second reading cuts the text where the first one had put it together.
  rw [hclean, splitScheme?_chars] at hsplit
  obtain ⟨hscheme, rfl⟩ := Prod.mk.inj (Option.some.inj hsplit)
  rw [authorityOf_slashes_append hread.authorityChars_ne_nil
    fun c hc => (hread.forall_authorityChars c hc).1] at hauthority
  obtain ⟨hhost, hport⟩ := hread.of_readAuthority hauthority
  rw [horigin, hhost, hport, ← Scheme.chars_injective hscheme]
  rfl

end MetaCache.Url
