import MetaCache.Proofs.Json.Schemas

/-!
# A written document is one line

Everything that is written is free of control characters (`Unbroken`): in strings they are escaped,
and outside of strings there are none to begin with, since documents are written without blanks. So
whatever strings a document holds, no byte of it can be taken for a line break, and documents that
are written one on a line can be told apart again (`splitOn_lines`).
-/

namespace MetaCache

open MetaCache.Json MetaCache.Number MetaCache.Text

namespace Text

/-- There is no control character. -/
def Unbroken (cs : List Char) : Prop := ∀ c ∈ cs, 0x20 ≤ c.toNat

instance (cs : List Char) : Decidable (Unbroken cs) :=
  List.decidableBAll (fun c : Char => 0x20 ≤ c.toNat) cs

variable {cs ds : List Char}

theorem unbroken_nil : Unbroken [] := fun _ hc => absurd hc List.not_mem_nil

theorem unbroken_append : Unbroken (cs ++ ds) ↔ Unbroken cs ∧ Unbroken ds :=
  List.forall_mem_append

theorem unbroken_cons {c : Char} : Unbroken (c :: cs) ↔ 0x20 ≤ c.toNat ∧ Unbroken cs :=
  List.forall_mem_cons

theorem Unbroken.append (h : Unbroken cs) (h' : Unbroken ds) : Unbroken (cs ++ ds) :=
  unbroken_append.2 ⟨h, h'⟩

theorem Unbroken.sublist (h : Unbroken cs) (hds : ds.Sublist cs) : Unbroken ds :=
  fun c hc => h c (hds.subset hc)

/-- Some text between two signs. -/
theorem Unbroken.between (h : Unbroken cs) {c d : Char} (hc : 0x20 ≤ c.toNat)
    (hd : 0x20 ≤ d.toNat) : Unbroken (c :: cs ++ [d]) :=
  (unbroken_cons.2 ⟨hc, h⟩).append (unbroken_cons.2 ⟨hd, unbroken_nil⟩)

theorem unbroken_of_isDigit (h : ∀ c ∈ cs, c.isDigit) : Unbroken cs := by
  intro c hc
  have hdigit := h c hc
  simp only [Char.isDigit, Bool.and_eq_true, decide_eq_true_eq] at hdigit
  have hlow := UInt32.le_iff_toNat_le.1 hdigit.1
  have hzero : '0'.val.toNat = 48 := rfl
  have hvalue : c.toNat = c.val.toNat := rfl
  omega

theorem unbroken_repr (n : Nat) : Unbroken (Nat.repr n).toList := by
  rw [Nat.toList_repr]
  exact unbroken_of_isDigit isDigit_toDigits

theorem unbroken_zeros (n : Nat) : Unbroken (List.replicate n '0') := by
  intro c hc
  rw [List.eq_of_mem_replicate hc]
  decide

/-- No byte of such a text is below the blank. -/
theorem Unbroken.le_of_mem (h : Unbroken cs) {b : UInt8} (hb : b ∈ utf8 cs) : 0x20 ≤ b := by
  obtain ⟨c, hc, hbyte⟩ := List.mem_flatMap.1 hb
  have hlow := h c hc
  rcases Nat.lt_or_ge c.toNat 0x80 with hascii | hbeyond
  · rw [utf8EncodeChar_of_lt hascii, List.mem_singleton] at hbyte
    rw [hbyte, UInt8.le_iff_toNat_le, UInt8.toNat_ofNat']
    have hblank : (0x20 : UInt8).toNat = 32 := rfl
    omega
  · have hge := le_of_mem_utf8EncodeChar hbeyond hbyte
    exact UInt8.le_trans (by decide) hge

/-- Lines that are put one after the other, each with a line break behind it, are told apart at the
line breaks. -/
theorem splitOn_lines {lines : List (List UInt8)} (h : ∀ line ∈ lines, 0x0a ∉ line) :
    (lines.flatMap (· ++ [0x0a])).splitOn 0x0a = lines ++ [[]] := by
  induction lines with
  | nil => rfl
  | cons line lines ih =>
    rw [List.flatMap_cons, List.append_assoc, List.singleton_append,
      List.splitOn_append_cons_self_of_not_mem (h line List.mem_cons_self),
      ih fun line hline => h line (List.mem_cons_of_mem _ hline), List.cons_append]

end Text

namespace Json

/-! ## Values -/

theorem unbroken_escapeChar (c : Char) : Unbroken (escapeChar c) := by
  unfold escapeChar
  have hhex (d : Fin 16) : 0x20 ≤ (hexChar d).toNat := by
    revert d
    decide
  repeat' split
  all_goals simp only [unbroken_cons, hhex, unbroken_nil, and_true]
  all_goals first | decide | omega

theorem unbroken_writeString (s : String) : Unbroken (writeString s) := by
  refine Unbroken.between (fun c hc => ?_) (by decide) (by decide)
  obtain ⟨d, -, hd⟩ := List.mem_flatMap.1 hc
  exact unbroken_escapeChar d c hd

theorem unbroken_writeInt (n : Int) : Unbroken (writeInt n) := by
  unfold writeInt
  split
  · exact unbroken_cons.2 ⟨by decide, unbroken_repr _⟩
  · exact unbroken_repr _

theorem unbroken_positional {digits : List Char} (h : Unbroken digits) (exponent : Int) :
    Unbroken (FloatStyle.positional digits exponent) := by
  unfold FloatStyle.positional
  simp only
  split
  · exact (h.append (unbroken_zeros _)).append (by decide)
  · split
    · exact (h.sublist (List.take_sublist _ _)).append
        (unbroken_cons.2 ⟨by decide, h.sublist (List.drop_sublist _ _)⟩)
    · exact unbroken_cons.2 ⟨by decide, unbroken_cons.2 ⟨by decide, (unbroken_zeros _).append h⟩⟩

theorem unbroken_scientific {digits : List Char} (h : Unbroken digits) (exponent : Int) :
    Unbroken (FloatStyle.scientific digits exponent) := by
  unfold FloatStyle.scientific
  simp only
  refine Unbroken.append ?_ (unbroken_cons.2 ⟨by decide, unbroken_cons.2 ⟨?_, unbroken_repr _⟩⟩)
  · split
    · next first second rest =>
      obtain ⟨hfirst, hrest⟩ := unbroken_cons.1 h
      exact unbroken_cons.2 ⟨hfirst, unbroken_cons.2 ⟨by decide, hrest⟩⟩
    · exact h
  · split <;> decide

theorem unbroken_writeFloat (style : FloatStyle) (x : Binary64) : Unbroken (style.write x) := by
  unfold FloatStyle.write
  have hdigits := unbroken_repr x.magnitude.shortest.digits
  have hbody (exponent : Int) : Unbroken
      (if style.positionalFrom ≤ exponent ∧ exponent ≤ style.positionalTo then
        FloatStyle.positional (Nat.repr x.magnitude.shortest.digits).toList exponent
      else FloatStyle.scientific (Nat.repr x.magnitude.shortest.digits).toList exponent) := by
    split
    · exact unbroken_positional hdigits _
    · exact unbroken_scientific hdigits _
  simp only
  split
  · exact unbroken_cons.2 ⟨by decide, hbody _⟩
  · exact hbody _

theorem unbroken_commaSeparated {texts : List (List Char)} (h : ∀ text ∈ texts, Unbroken text) :
    Unbroken (commaSeparated texts) := by
  induction texts with
  | nil => exact unbroken_nil
  | cons text texts ih =>
    obtain ⟨htext, htexts⟩ := List.forall_mem_cons.1 h
    cases texts with
    | nil => simpa [commaSeparated, List.intercalate] using htext
    | cons next more =>
      rw [commaSeparated_cons_cons]
      exact htext.append (unbroken_cons.2 ⟨by decide, ih htexts⟩)

theorem unbroken_null : Unbroken "null".toList := by decide

theorem unbroken_writeBool (b : Bool) : Unbroken (writeBool b) := by cases b <;> decide

mutual
theorem unbroken_write : ∀ v : Value, Unbroken v.write
  | .null => unbroken_null
  | .bool b => unbroken_writeBool b
  | .number (.integer n _) => unbroken_writeInt n
  | .number (.float x) => unbroken_writeFloat floatStyle x
  | .string s => unbroken_writeString s
  | .array items => (unbroken_writeItems items).between (by decide) (by decide)
  | .object members => (unbroken_writeMembers members).between (by decide) (by decide)

theorem unbroken_writeItems : ∀ items : List Value, Unbroken (writeItems items)
  | [] => unbroken_nil
  | [item] => unbroken_write item
  | item :: next :: rest =>
    (unbroken_write item).append (unbroken_cons.2 ⟨by decide, unbroken_writeItems (next :: rest)⟩)

theorem unbroken_writeMembers : ∀ members : List (String × Value), Unbroken (writeMembers members)
  | [] => unbroken_nil
  | [(name, value)] =>
    (unbroken_writeString name).append (unbroken_cons.2 ⟨by decide, unbroken_write value⟩)
  | (name, value) :: next :: rest => by
    have hfirst : Unbroken (writeString name ++ ':' :: value.write) :=
      (unbroken_writeString name).append (unbroken_cons.2 ⟨by decide, unbroken_write value⟩)
    exact hfirst.append (unbroken_cons.2 ⟨by decide, unbroken_writeMembers (next :: rest)⟩)
end

/-! ## Data -/

mutual
theorem unbroken_encodeData : ∀ (schema : Schema) (data : schema.Carrier),
    Unbroken (encodeData schema data)
  | .text _, s => unbroken_writeString s
  | .flag, b => unbroken_writeBool b
  | .natural _, n => unbroken_writeInt _
  | .choice _, index => unbroken_writeString _
  | .object, o => unbroken_write _
  | .optional _, none => unbroken_null
  | .optional content, some a => unbroken_encodeData content a
  | .list item, as => by
    refine (unbroken_commaSeparated fun text htext => ?_).between (by decide) (by decide)
    obtain ⟨a, -, rfl⟩ := List.mem_map.1 htext
    exact unbroken_encodeData item a
  | .record _ _ fields, contents =>
    (unbroken_commaSeparated (unbroken_encodeFields fields contents)).between (by decide)
      (by decide)

theorem unbroken_encodeFields : ∀ (fields : Fields) (contents : fields.Carrier),
    ∀ text ∈ encodeFields fields contents, Unbroken text
  | .nil, _ => fun _ htext => absurd htext List.not_mem_nil
  | .cons name .required schema rest, (content, more) =>
    List.forall_mem_cons.2 ⟨(unbroken_writeString name).append
      (unbroken_cons.2 ⟨by decide, unbroken_encodeData schema content⟩),
      unbroken_encodeFields rest more⟩
  | .cons name .mayBeAbsent schema rest, (some content, more) =>
    List.forall_mem_cons.2 ⟨(unbroken_writeString name).append
      (unbroken_cons.2 ⟨by decide, unbroken_encodeData schema content⟩),
      unbroken_encodeFields rest more⟩
  | .cons _ .mayBeAbsent _ rest, (none, more) => unbroken_encodeFields rest more
end

/-- **No document has a line break in it**, whatever its strings are. -/
theorem newline_notMem_encode (schema : Schema) (data : schema.Carrier) :
    0x0a ∉ bytesOf (encode schema data) := by
  rw [encode, bytesOf_ofList]
  exact fun hmem => absurd ((unbroken_encodeData schema data).le_of_mem hmem) (by decide)

end Json

end MetaCache
