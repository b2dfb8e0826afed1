import MetaCache.Store.Disk

/-!
# Where the paths of stores lead

What a store has made on the disk is found again by following the same path, as long as the path
ends with a name. One that ends with a slash, or with a dot behind one, leads to nothing but
directories, though a store is made at the name before it all the same (`site_settleStore`).

Directories are never unmade. Hence a way through directories stays a way (`Disk.Extends`).
-/

namespace MetaCache.Store

namespace Path

/-- Whether a text ends with a name, and not with a slash or a dot. -/
def endsInName (text : String) : Bool := (parts text).getLast?.any fun part => !isIdle part

/-- What stands around the last name of a text. -/
theorem parts_of_names {text name : String} (h : (names text).getLast? = some name) :
    ∃ front idle, parts text = front ++ name :: idle
      ∧ front.filter (fun part => !isIdle part) = (names text).dropLast
      ∧ (∀ part ∈ idle, isIdle part) ∧ isIdle name = false := by
  obtain ⟨leading, hnames⟩ := List.getLast?_eq_some_iff.1 h
  have hfilter : (parts text).filter (fun part => !isIdle part) = leading ++ [name] := hnames
  obtain ⟨before, after, hparts, hbefore, hafter⟩ := List.filter_eq_append_iff.1 hfilter
  obtain ⟨between, idle, rfl, hbetween, hname, hidle⟩ := List.filter_eq_cons_iff.1 hafter
  refine ⟨before ++ between, idle, by rw [hparts, List.append_assoc], ?_, ?_, by simpa using hname⟩
  · rw [List.filter_append, hbefore, List.filter_eq_nil_iff.2 hbetween, hnames,
      List.dropLast_concat, List.append_nil]
  · simpa using hidle

theorem endsInName_of_parts {text name : String} {front idle : List String}
    (h : parts text = front ++ name :: idle) (hname : isIdle name = false)
    (hidle : ∀ part ∈ idle, isIdle part) : endsInName text = idle.isEmpty := by
  unfold endsInName
  rw [h, List.getLast?_append, List.getLast?_cons]
  rcases List.eq_nil_or_concat idle with rfl | ⟨others, last, rfl⟩
  · simp [hname]
  · have hlast : isIdle last := hidle last (by simp)
    simp [hlast]

theorem lockName_ne (name : String) : name ≠ lockName name := by
  intro h
  have := congrArg String.length h
  simp [lockName] at this

theorem step_of_idle {name : String} (h : isIdle name) (path : Path) : path.step name = path := by
  simp [step, h]

theorem step_up (path : Path) : path.step ".." = path.dropLast := rfl

theorem step_name {name : String} (hidle : isIdle name = false) (hup : name ≠ "..") (path : Path) :
    path.step name = path ++ [name] := by
  simp [step, hidle, hup]

end Path

namespace Disk

variable {d d₁ d' : Disk} {text name : String} {path place other : Path}

/-! ## Directories -/

/-- The path is a directory, and so is all that leads to it. -/
def Holds (d : Disk) (path : Path) : Prop := ∀ above, above <+: path → d.lookup above = some .directory

theorem Holds.self (h : d.Holds path) : d.lookup path = some .directory :=
  h path (List.prefix_refl path)

theorem Holds.dropLast (h : d.Holds path) : d.Holds path.dropLast :=
  fun above habove => h above (habove.trans path.dropLast_prefix)

theorem Holds.append (h : d.Holds path) (hname : d.lookup (path ++ [name]) = some .directory) :
    d.Holds (path ++ [name]) := by
  intro above habove
  rcases List.prefix_concat_iff.1 habove with rfl | hpath
  · exact hname
  · exact h above hpath

theorem holds_origin (d : Disk) (text : String) : d.Holds (d.origin text) := by
  intro above habove
  refine if_pos (habove.trans ?_)
  unfold origin
  split
  · exact List.nil_prefix
  · exact List.prefix_refl _

/-- All directories of a disk are directories of the other one. -/
structure Extends (d d' : Disk) : Prop where
  home : d'.home = d.home
  directory : ∀ path, d.lookup path = some .directory → d'.lookup path = some .directory

theorem Extends.refl (d : Disk) : d.Extends d := ⟨rfl, fun _ h => h⟩

theorem Extends.trans {d'' : Disk} (h : d.Extends d') (h' : d'.Extends d'') : d.Extends d'' :=
  ⟨h'.home.trans h.home, fun path hpath => h'.directory path (h.directory path hpath)⟩

theorem Extends.holds (h : d.Extends d') (hpath : d.Holds path) : d'.Holds path :=
  fun above habove => h.directory above (hpath above habove)

theorem Extends.origin (h : d.Extends d') (text : String) : d'.origin text = d.origin text := by
  simp only [Disk.origin, h.home]

theorem lookup_put (h : d.lookup path ≠ some .directory) (entry : Entry) (other : Path) :
    (d.put path entry).lookup other = if other = path then some entry else d.lookup other := by
  have haway : ¬ path <+: d.home := fun hpath => h (if_pos hpath)
  simp only [lookup, put, Table.get?_put]
  by_cases hother : other = path
  · rw [if_pos hother, if_pos hother, if_neg (hother ▸ haway)]
  · rw [if_neg hother, if_neg hother]

theorem extends_put (h : d.lookup path ≠ some .directory) (entry : Entry) :
    d.Extends (d.put path entry) := by
  refine ⟨rfl, fun other hother => ?_⟩
  have hne : other ≠ path := by
    rintro rfl
    exact h hother
  rw [lookup_put h, if_neg hne, hother]

/-! ## Following names -/

theorem followName_idle (hfrom : d.lookup path = some .directory) (hidle : Path.isIdle name) :
    d.followName path name = .ok path := by
  have hfits : ¬ Path.longestName < name.utf8ByteSize := by
    have hname : name = "" ∨ name = "." := by simpa [Path.isIdle] using hidle
    rcases hname with rfl | rfl <;> decide
  simp only [followName, hfrom, if_neg hfits, Path.step_of_idle hidle]

theorem followName_up (hfrom : d.lookup path = some .directory) :
    d.followName path ".." = .ok path.dropLast := by
  have hfits : ¬ Path.longestName < "..".utf8ByteSize := by decide
  simp only [followName, hfrom, if_neg hfits, Path.step_up]

theorem followName_name (hfrom : d.lookup path = some .directory)
    (hidle : Path.isIdle name = false) (hup : name ≠ "..")
    (hfits : ¬ Path.longestName < name.utf8ByteSize) :
    d.followName path name = .ok (path ++ [name]) := by
  simp only [followName, hfrom, if_neg hfits, Path.step_name hidle hup]

/-! ## Making directories -/

theorem extends_makeDirectories (d : Disk) (path : Path) (names : List String) :
    d.Extends (d.makeDirectories path names).1 := by
  induction names generalizing d path with
  | nil => exact .refl d
  | cons name names ih =>
    unfold makeDirectories
    split
    · exact ih d _
    · split
      · exact .refl d
      · split
        · exact ih d _
        · exact .refl d
        · next hnone =>
          exact (extends_put (by rw [hnone]; exact nofun) _).trans (ih _ _)

/-- Making a directory and those in it. -/
theorem makeDirectories_name {names : List String} (hup : name ≠ "..")
    (h : d.makeDirectories path (name :: names) = (d₁, some place)) :
    ¬ Path.longestName < name.utf8ByteSize
      ∧ ∃ d₀, d.Extends d₀ ∧ d₀.lookup (path ++ [name]) = some .directory
        ∧ d₀.makeDirectories (path ++ [name]) names = (d₁, some place) := by
  unfold makeDirectories at h
  rw [if_neg hup] at h
  split at h
  · cases h
  · next hfits =>
    refine ⟨hfits, ?_⟩
    split at h
    · next hdirectory => exact ⟨d, .refl d, hdirectory, h⟩
    · cases h
    · next hnone =>
      have hfree : d.lookup (path ++ [name]) ≠ some .directory := by
        rw [hnone]
        exact nofun
      exact ⟨_, extends_put hfree _, by rw [lookup_put hfree, if_pos rfl], h⟩

/-- Once the directories on a way are made, the way can be followed, and they need not be made
again. -/
theorem walk_makeDirectories {parts : List String} (hstart : d.Holds path)
    (hmade : d.makeDirectories path (parts.filter fun part => !Path.isIdle part) = (d₁, some place))
    (hext : d₁.Extends d') :
    parts.foldlM d'.followName path = .ok place ∧ d₁.Holds place
      ∧ d'.makeDirectories path (parts.filter fun part => !Path.isIdle part) = (d', some place) := by
  induction parts generalizing d path with
  | nil =>
    cases hmade
    exact ⟨rfl, hstart, rfl⟩
  | cons part parts ih =>
    have hgrown := extends_makeDirectories d path
      ((part :: parts).filter fun part => !Path.isIdle part)
    rw [hmade] at hgrown
    have hfrom : d'.lookup path = some .directory :=
      (hgrown.trans hext).directory path hstart.self
    rw [List.foldlM_cons]
    cases hidle : Path.isIdle part with
    | true =>
      rw [List.filter_cons_of_neg (by simp [hidle])] at hmade ⊢
      rw [followName_idle hfrom hidle]
      exact ih hstart hmade
    | false =>
      rw [List.filter_cons_of_pos (by simp [hidle])] at hmade ⊢
      by_cases hup : part = ".."
      · subst hup
        unfold makeDirectories at hmade ⊢
        rw [if_pos rfl] at hmade ⊢
        rw [followName_up hfrom]
        exact ih hstart.dropLast hmade
      · obtain ⟨hfits, d₀, hextends, hdirectory, hmade⟩ := makeDirectories_name hup hmade
        have hlater := extends_makeDirectories d₀ (path ++ [part])
          (parts.filter fun part => !Path.isIdle part)
        rw [hmade] at hlater
        have hthere : d'.lookup (path ++ [part]) = some .directory :=
          (hlater.trans hext).directory _ hdirectory
        rw [followName_name hfrom hidle hup hfits]
        obtain ⟨hwalk, hholds, hagain⟩ := ih ((hextends.holds hstart).append hdirectory) hmade
        refine ⟨hwalk, hholds, ?_⟩
        unfold makeDirectories
        rw [if_neg hup, if_neg hfits, hthere]
        exact hagain

/-! ## Following paths -/

/-- Follows what stands behind the last name of a path. -/
def arrive (d : Disk) (path : Path) (idle : List String) : Except ReadFault Path := do
  let path ← idle.foldlM d.followName path
  if (d.lookup path).isSome then .ok path else .error .missing

theorem walk_idle {idle : List String} (hidle : ∀ part ∈ idle, Path.isIdle part)
    (hfrom : d.lookup path = some .directory) : idle.foldlM d.followName path = .ok path := by
  induction idle with
  | nil => rfl
  | cons part idle ih =>
    rw [List.foldlM_cons, followName_idle hfrom (hidle part List.mem_cons_self)]
    exact ih fun other hother => hidle other (List.mem_cons_of_mem _ hother)

theorem arrive_directory {idle : List String} (hidle : ∀ part ∈ idle, Path.isIdle part)
    (hfrom : d.lookup path = some .directory) : d.arrive path idle = .ok path := by
  rw [arrive, walk_idle hidle hfrom]
  show (if (d.lookup path).isSome then _ else _) = _
  rw [hfrom]
  rfl

theorem arrive_none (idle : List String) (hnone : d.lookup path = none) :
    d.arrive path idle = .error .missing := by
  cases idle with
  | nil =>
    show (if (d.lookup path).isSome then _ else _) = _
    rw [hnone]
    rfl
  | cons part idle =>
    have hstep : d.followName path part = .error .missing := by
      unfold followName
      rw [hnone]
    rw [arrive, List.foldlM_cons, hstep]
    rfl

/-- Only directories can be followed by a slash. -/
theorem arrive_file {entry : Entry} (idle : List String) (hentry : d.lookup path = some entry)
    (hfile : entry ≠ .directory) :
    d.arrive path idle = if idle.isEmpty then .ok path else .error .notDirectory := by
  cases idle with
  | nil =>
    show (if (d.lookup path).isSome then _ else _) = _
    rw [hentry]
    rfl
  | cons part idle =>
    have hstep : d.followName path part = .error .notDirectory := by
      unfold followName
      rw [hentry]
      cases entry with
      | directory => exact absurd rfl hfile
      | _ => rfl
    rw [arrive, List.foldlM_cons, hstep]
    rfl

theorem arrive_ok {idle : List String} (hidle : ∀ part ∈ idle, Path.isIdle part)
    (h : d.arrive path idle = .ok other) : other = path := by
  cases hentry : d.lookup path with
  | none =>
    rw [arrive_none idle hentry] at h
    cases h
  | some entry =>
    by_cases hdirectory : entry = .directory
    · rw [arrive_directory hidle (hdirectory ▸ hentry)] at h
      cases h
      rfl
    · rw [arrive_file idle hentry hdirectory] at h
      split at h <;> cases h
      rfl

theorem follow_of_last
    (hlast : (Path.names text).getLast? = some name)
    (hmade : d.makeDirectories (d.origin text) (Path.names text).dropLast = (d, some place)) :
    ∃ idle, (∀ part ∈ idle, Path.isIdle part) ∧ Path.isIdle name = false
      ∧ Path.endsInName text = idle.isEmpty ∧ d.Holds place
      ∧ (¬ Path.longestText < text.utf8ByteSize →
        d.follow text = do d.arrive (← d.followName place name) idle) := by
  obtain ⟨front, idle, hparts, hfront, hidle, hname⟩ := Path.parts_of_names hlast
  rw [← hfront] at hmade
  obtain ⟨hwalk, hholds, -⟩ := walk_makeDirectories (holds_origin d text) hmade (.refl d)
  refine ⟨idle, hidle, hname, Path.endsInName_of_parts hparts hname hidle, hholds, fun hshort => ?_⟩
  have hne : text ≠ "" := by
    rintro rfl
    cases hlast
  unfold follow
  rw [if_neg hne, if_neg hshort, hparts, List.foldlM_append, hwalk]
  show (do let path ← (name :: idle).foldlM d.followName place; _) = _
  rw [List.foldlM_cons]
  cases d.followName place name <;> rfl

/-- A path without names leads to a directory. -/
theorem follow_of_no_name (hlast : (Path.names text).getLast? = none)
    (hfound : d.follow text = .ok path) : d.lookup path = some .directory := by
  have hidle : ∀ part ∈ Path.parts text, Path.isIdle part := by
    have hnames : (Path.parts text).filter (fun part => !Path.isIdle part) = [] :=
      List.getLast?_eq_none_iff.1 hlast
    simpa using hnames
  unfold follow at hfound
  rw [walk_idle hidle (holds_origin d text).self] at hfound
  split at hfound
  · cases hfound
  · split at hfound
    · cases hfound
    · replace hfound : (if (d.lookup (d.origin text)).isSome then _ else _) = _ := hfound
      rw [(holds_origin d text).self] at hfound
      cases hfound
      exact (holds_origin d text).self

/-! ## Places -/

/-- All that a store at `text` needs is there, and its place is `name` in the directory `place`. -/
structure Ready (d : Disk) (text : String) (place : Path) (name : String) : Prop where
  sound : ¬ (text.toList.any (·.toNat = 0) ∨ Path.longestText < text.utf8ByteSize)
  last : (Path.names text).getLast? = some name
  isName : name ≠ ".."
  fits : ¬ Path.longestName < (Path.lockName name).utf8ByteSize
  made : d.makeDirectories (d.origin text) (Path.names text).dropLast = (d, some place)
  lock : d.lookup (place ++ [Path.lockName name]) ≠ some .directory
  free : d.lookup (place ++ [name]) ≠ some .directory

theorem Ready.extends (h : d.Ready text place name) (hext : d.Extends d')
    (hlock : d'.lookup (place ++ [Path.lockName name]) ≠ some .directory)
    (hfree : d'.lookup (place ++ [name]) ≠ some .directory) : d'.Ready text place name := by
  refine ⟨h.sound, h.last, h.isName, h.fits, ?_, hlock, hfree⟩
  obtain ⟨front, idle, hparts, hfront, -, -⟩ := Path.parts_of_names h.last
  have hmade := h.made
  rw [← hfront, ← hext.origin text] at hmade
  rw [← hfront]
  exact (walk_makeDirectories ((hext.origin text) ▸ holds_origin d text) hmade hext).2.2

/-- Putting anything but a directory at the place, or beside it, leaves everything ready. -/
theorem Ready.put (h : d.Ready text place name) (entry : Entry) (hentry : entry ≠ .directory) :
    (d.put (place ++ [name]) entry).Ready text place name := by
  refine h.extends (extends_put h.free entry) ?_ ?_
  · rw [lookup_put h.free, if_neg (by simpa using (Path.lockName_ne name).symm)]
    exact h.lock
  · rw [lookup_put h.free, if_pos rfl]
    simpa using hentry

theorem Ready.put_lock (h : d.Ready text place name) :
    (d.put (place ++ [Path.lockName name]) .lock).Ready text place name := by
  refine h.extends (extends_put h.lock .lock) ?_ ?_
  · rw [lookup_put h.lock, if_pos rfl]
    exact nofun
  · rw [lookup_put h.lock, if_neg (by simpa using Path.lockName_ne name)]
    exact h.free

/-- **A path that ends with a name leads to the file there. Any other path leads to no file.** -/
theorem Ready.follow (h : d.Ready text place name) : d.follow text =
    if (d.lookup (place ++ [name])).isNone then .error .missing
    else if Path.endsInName text then .ok (place ++ [name]) else .error .notDirectory := by
  obtain ⟨idle, hidle, hname, hends, hholds, hfollow⟩ := follow_of_last h.last h.made
  have hfits : ¬ Path.longestName < name.utf8ByteSize := by
    have hlock := h.fits
    simp only [Path.lockName, String.utf8ByteSize_append] at hlock
    omega
  rw [hfollow fun hlong => h.sound (.inr hlong), followName_name hholds.self hname h.isName hfits]
  show d.arrive (place ++ [name]) idle = _
  cases hentry : d.lookup (place ++ [name]) with
  | none => exact arrive_none idle hentry
  | some entry =>
    have hfile : entry ≠ .directory := by
      rintro rfl
      exact h.free hentry
    rw [arrive_file idle hentry hfile, hends]
    rfl

theorem Ready.leads (h : d.Ready text place name) :
    d.leads text = ((d.lookup (place ++ [name])).isSome && Path.endsInName text) := by
  unfold Disk.leads
  rw [h.follow]
  cases d.lookup (place ++ [name]) <;> cases Path.endsInName text <;> rfl

/-- Two dots always lead to a directory. -/
theorem follow_up (hlast : (Path.names text).getLast? = some "..")
    (hmade : d.makeDirectories (d.origin text) (Path.names text).dropLast = (d, some place))
    (hshort : ¬ Path.longestText < text.utf8ByteSize) : d.follow text = .ok place.dropLast := by
  obtain ⟨idle, hidle, -, -, hholds, hfollow⟩ := follow_of_last hlast hmade
  rw [hfollow hshort, followName_up hholds.self]
  exact arrive_directory hidle hholds.dropLast.self

theorem follow_ok (hlast : (Path.names text).getLast? = some name) (hup : name ≠ "..")
    (hmade : d.makeDirectories (d.origin text) (Path.names text).dropLast = (d, some place))
    (hshort : ¬ Path.longestText < text.utf8ByteSize) (h : d.follow text = .ok path) :
    path = place ++ [name] := by
  obtain ⟨idle, hidle, hname, -, hholds, hfollow⟩ := follow_of_last hlast hmade
  rw [hfollow hshort] at h
  by_cases hlong : Path.longestName < name.utf8ByteSize
  · unfold followName at h
    rw [hholds.self] at h
    simp only [if_pos hlong] at h
    cases h
  · rw [followName_name hholds.self hname hup hlong] at h
    exact arrive_ok hidle h

theorem reach_some (h : d.reach text = (d₁, some path)) :
    ¬ (text.toList.any (·.toNat = 0) ∨ Path.longestText < text.utf8ByteSize)
      ∧ ∃ place,
        d.makeDirectories (d.origin text) (Path.names text).dropLast = (d₁, some place)
        ∧ (d₁.follow text = .ok path ∨ d₁.follow text = .error .missing
          ∧ ∃ name, (Path.names text).getLast? = some name ∧ path = place ++ [name]) := by
  unfold reach at h
  split at h
  · cases h
  · next hsound =>
    refine ⟨hsound, ?_⟩
    simp only at h
    split at h
    · cases h
    · next d₂ place hmade =>
      split at h
      · next found hfound =>
        cases h
        exact ⟨place, hmade, .inl hfound⟩
      · next hmissing =>
        split at h
        · next name hlast =>
          by_cases hbare : Path.isBare text
          · rw [if_pos hbare] at h
            cases h
          · rw [if_neg hbare] at h
            cases h
            exact ⟨place, hmade, .inr ⟨hmissing, name, hlast, rfl⟩⟩
        · cases h
      · cases h

/-- Where a path leads, if not to a directory. -/
theorem reach_file (h : d.reach text = (d₁, some path)) (hfile : d₁.lookup path ≠ some .directory) :
    ∃ place name, path = place ++ [name] ∧ (Path.names text).getLast? = some name ∧ name ≠ ".."
      ∧ d₁.makeDirectories (d₁.origin text) (Path.names text).dropLast = (d₁, some place) := by
  obtain ⟨hsound, place, hmade, hfollow⟩ := reach_some h
  have hshort : ¬ Path.longestText < text.utf8ByteSize := fun hlong => hsound (.inr hlong)
  cases hlast : (Path.names text).getLast? with
  | none =>
    rcases hfollow with hfound | ⟨-, name, hname, -⟩
    · exact absurd (follow_of_no_name hlast hfound) hfile
    · rw [hlast] at hname
      cases hname
  | some name =>
    obtain ⟨front, idle, -, hfront, -, -⟩ := Path.parts_of_names hlast
    have hgrown := extends_makeDirectories d (d.origin text) (Path.names text).dropLast
    rw [hmade] at hgrown
    rw [← hfront] at hmade
    obtain ⟨-, hholds, hagain⟩ := walk_makeDirectories (holds_origin d text) hmade (.refl d₁)
    rw [hfront, ← hgrown.origin text] at hagain
    have hup : name ≠ ".." := by
      rintro rfl
      have hok := follow_up hlast hagain hshort
      rw [hok] at hfollow
      rcases hfollow with hfound | ⟨hmissing, -⟩
      · cases hfound
        exact hfile hholds.dropLast.self
      · cases hmissing
    refine ⟨place, name, ?_, rfl, hup, hagain⟩
    rcases hfollow with hfound | ⟨-, name', hname, rfl⟩
    · exact follow_ok hlast hup hagain hshort hfound
    · rw [hlast] at hname
      cases hname
      rfl

/-- What is prepared for a store, unless there is a directory in its place. -/
theorem prepare_file (h : d.prepare text = (d₁, some path))
    (hfile : d₁.lookup path ≠ some .directory) :
    ∃ place name, path = place ++ [name] ∧ d₁.Ready text place name := by
  unfold prepare at h
  split at h
  · cases h
  · next d₂ path' hreach =>
    split at h
    · next hroot =>
      cases h
      rw [List.getLast?_eq_none_iff.1 hroot] at hfile
      exact absurd (if_pos List.nil_prefix) hfile
    · next last hname =>
      simp only at h
      split at h
      · cases h
      · next hfits =>
        split at h
        · cases h
        · next hlock =>
          cases h
          have hfree : d₂.lookup path ≠ some .directory := fun hpath =>
            hfile ((extends_put hlock .lock).directory path hpath)
          obtain ⟨place, name, rfl, hlast, hup, hmade⟩ := reach_file hreach hfree
          rw [List.getLast?_concat] at hname
          obtain rfl : last = name := (Option.some.inj hname).symm
          rw [List.dropLast_concat] at hlock ⊢
          have hready : d₂.Ready text place last :=
            ⟨(reach_some hreach).1, hlast, hup, hfits, hmade, hlock, hfree⟩
          exact ⟨place, last, rfl, hready.put_lock⟩

/-! ## Stores -/

theorem Ready.reach (h : d.Ready text place name) {entry : Entry}
    (hentry : d.lookup (place ++ [name]) = some entry) :
    d.reach text = (d, if Path.endsInName text then some (place ++ [name]) else none) := by
  unfold Disk.reach
  rw [if_neg h.sound]
  simp only [h.made, h.follow, hentry]
  cases Path.endsInName text <;> rfl

/-- A store that is there is found again by its path, if the path ends with a name. -/
theorem Ready.prepare (h : d.Ready text place name) {entry : Entry}
    (hentry : d.lookup (place ++ [name]) = some entry) :
    d.prepare text = if Path.endsInName text
      then (d.put (place ++ [Path.lockName name]) .lock, some (place ++ [name])) else (d, none) := by
  unfold Disk.prepare
  rw [h.reach hentry]
  cases hends : Path.endsInName text with
  | false => rfl
  | true =>
    simp only [if_true, List.getLast?_concat, List.dropLast_concat, if_neg h.fits]
    split
    · next hdirectory => exact absurd hdirectory h.lock
    · rfl

/-- The place of a store that is there. -/
theorem Ready.site (h : d.Ready text place name) {volume : Volume}
    (hstore : d.lookup (place ++ [name]) = some (.store volume)) :
    d.site text = if Path.endsInName text then ⟨.store volume, true, true⟩
      else ⟨.unusable, false, false⟩ := by
  have hleads := h.leads
  rw [hstore] at hleads
  unfold Disk.site
  rw [h.prepare hstore]
  cases hends : Path.endsInName text with
  | false =>
    rw [hends] at hleads
    simp only [hleads]
    rfl
  | true =>
    rw [hends] at hleads
    have hback := (h.put_lock.put .lock nofun).leads
    rw [lookup_put h.put_lock.free, if_pos rfl, hends] at hback
    have hground : (d.put (place ++ [Path.lockName name]) .lock).groundAt (place ++ [name])
        = .store volume := by
      unfold groundAt
      rw [lookup_put h.lock, if_neg (by simpa using Path.lockName_ne name), hstore]
    simp only [if_true, hleads, hback, hground]
    rfl

/-- A place that is of use has been prepared. -/
theorem ready_of_isUsable (h : (d.site text).isUsable) :
    ∃ d₁ place name, d.prepare text = (d₁, some (place ++ [name])) ∧ d₁.Ready text place name := by
  cases hprepared : d.prepare text with
  | mk d₁ path =>
    unfold Disk.site at h
    rw [hprepared] at h
    cases path with
    | none => cases h
    | some path =>
      have hfile : d₁.lookup path ≠ some .directory := by
        intro hdirectory
        have hground : d₁.groundAt path = .unusable := by
          unfold groundAt
          rw [hdirectory]
        simp only [Site.isUsable, hground] at h
        cases h
      obtain ⟨place, name, rfl, hready⟩ := prepare_file hprepared hfile
      exact ⟨d₁, place, name, rfl, hready⟩

/-- **The path leads back to a store that is made there exactly if it ends with a name.** -/
theorem leadsBack_of_isUsable (h : (d.site text).isUsable) :
    (d.site text).leadsBack = Path.endsInName text := by
  obtain ⟨d₁, place, name, hprepared, hready⟩ := ready_of_isUsable h
  unfold Disk.site
  rw [hprepared]
  have hleads := (hready.put .lock nofun).leads
  rw [lookup_put hready.free, if_pos rfl] at hleads
  simpa using hleads

theorem settleStore_of_isUsable (h : (d.site text).isUsable) {p : Persistent} {volume : Volume}
    (htried : p.wasTried) (hstore : p.site.ground = .store volume) :
    ∃ place name, (d.settleStore text p).Ready text place name
      ∧ (d.settleStore text p).lookup (place ++ [name]) = some (.store volume) := by
  obtain ⟨d₁, place, name, hprepared, hready⟩ := ready_of_isUsable h
  refine ⟨place, name, ?_⟩
  unfold settleStore
  rw [if_pos htried, hprepared, hstore]
  exact ⟨hready.put _ nofun, by rw [lookup_put hready.free, if_pos rfl]⟩

/-- **What a new store finds where another one has been.** -/
theorem site_settleStore (h : (d.site text).isUsable) {p : Persistent} {volume : Volume}
    (htried : p.wasTried) (hstore : p.site.ground = .store volume) :
    (d.settleStore text p).site text = if Path.endsInName text then ⟨.store volume, true, true⟩
      else ⟨.unusable, false, false⟩ := by
  obtain ⟨place, name, hready, hlookup⟩ := settleStore_of_isUsable h htried hstore
  exact hready.site hlookup

/-- The disk stays as it is if the path does not lead back. -/
theorem prepare_settleStore (h : (d.site text).isUsable) {p : Persistent} {volume : Volume}
    (htried : p.wasTried) (hstore : p.site.ground = .store volume)
    (hends : Path.endsInName text = false) :
    (d.settleStore text p).prepare text = (d.settleStore text p, none) := by
  obtain ⟨place, name, hready, hlookup⟩ := settleStore_of_isUsable h htried hstore
  rw [hready.prepare hlookup, hends]
  rfl

end Disk

end MetaCache.Store
