import SynGateway.Python.JsonRoundTrip

/-!
# The text of a JSON value

`json.dumps` writes a well-formed value on one line: there is no control character in its text
(`printable_dumps`). A `str` without surrogates is a text, and is encoded as that text.
-/

namespace SynGateway.Python

open CodePoint

/-! ## Texts -/

namespace Str

/-- The characters of a `str` without surrogates. -/
def toText (s : Str) : Text := s.map fun p => Char.ofNat p.val

theorem ofChar_ofNat {p : CodePoint} (h : p.isSurrogate = false) :
    ofChar (Char.ofNat p.val) = p := by
  have hvalid : p.val.isValidChar := by
    unfold isSurrogate at h
    simp only [Bool.and_eq_false_iff, decide_eq_false_iff_not] at h
    unfold Nat.isValidChar
    omega
  apply Fin.ext
  unfold Char.ofNat
  rw [dif_pos hvalid]
  rfl

theorem ofText_toText {s : Str} (h : s.Scalar) : ofText s.toText = s := by
  unfold ofText toText
  rw [List.map_map]
  exact (List.map_congr_left fun p hp => ofChar_ofNat (h p hp)).trans (List.map_id s)

theorem encode_ofText (text : Text) : (ofText text).encode = some (Utf8.encode text) := by
  have hchars : (ofText text).mapM toChar = some text := by
    induction text with
    | nil => rfl
    | cons c text ih =>
        have hc : (ofChar c).toChar = some c := by
          unfold toChar
          rw [isSurrogate_ofChar, if_neg Bool.false_ne_true]
          exact congrArg some (Char.ofNat_toNat c)
        rw [ofText, List.map_cons, List.mapM_cons, hc]
        exact congrArg (fun text : Option Text => text.bind fun text => some (c :: text)) ih
  unfold encode
  rw [hchars]
  rfl

theorem ofText_append (text text' : Text) : ofText (text ++ text') = ofText text ++ ofText text' :=
  List.map_append

end Str

/-! ## Control characters -/

/-- The code point is no control character of ASCII. -/
def Printable (p : CodePoint) : Prop := 0x20 ≤ p.val

instance (p : CodePoint) : Decidable (Printable p) := inferInstanceAs (Decidable (_ ≤ _))

theorem printable_of_isDigit {p : CodePoint} (h : isDigit p = true) : Printable p := by
  unfold isDigit at h
  simp only [Bool.and_eq_true, decide_eq_true_eq] at h
  unfold Printable
  omega

variable {s rest : Str} {p : CodePoint}

/-! ### Numerals -/

theorem mem_scanSign (signs : Str) (hp : p ∈ s) : p ∈ (scanSign signs s).2 ∨ p ∈ signs := by
  unfold scanSign
  split
  · exact .inl hp
  · split_ifs with hsign
    · rcases List.mem_cons.mp hp with rfl | hp
      · exact .inr hsign
      · exact .inl hp
    · exact .inl hp

theorem mem_dropWhile_isDigit (hp : p ∈ s) : p ∈ s.dropWhile isDigit ∨ Printable p := by
  rw [← List.takeWhile_append_dropWhile (p := isDigit) (l := s), List.mem_append] at hp
  rcases hp with hp | hp
  · exact .inr (printable_of_isDigit (List.mem_takeWhile_imp hp))
  · exact .inl hp

theorem mem_scanInteger {integer : Str} (h : scanInteger s = some (integer, rest)) (hp : p ∈ s) :
    p ∈ rest ∨ Printable p := by
  unfold scanInteger at h
  rcases mem_scanSign [ofChar '-'] hp with hp | hsign
  · dsimp only at h
    generalize (scanSign [ofChar '-'] s).2 = s' at h hp
    split at h
    · cases h
    · next q s'' =>
        -- a leading zero is the whole integer; otherwise all digits are taken
        split_ifs at h with hzero hdigit
        · cases h
          rcases List.mem_cons.mp hp with rfl | hp
          · rw [hzero]
            exact .inr (by decide)
          · exact .inl hp
        · cases h
          exact mem_dropWhile_isDigit hp
  · rw [List.mem_singleton.mp hsign]
    exact .inr (by decide)

theorem mem_scanFraction (hp : p ∈ s) : p ∈ (scanFraction s).2 ∨ Printable p := by
  unfold scanFraction
  split
  · exact .inl hp
  · split_ifs with hpoint
    · rcases List.mem_cons.mp hp with rfl | hp
      · rw [hpoint.1]
        exact .inr (by decide)
      · exact mem_dropWhile_isDigit hp
    · exact .inl hp

theorem mem_scanExponent (hp : p ∈ s) : p ∈ (scanExponent s).2 ∨ Printable p := by
  unfold scanExponent
  split
  · exact .inl hp
  · dsimp only
    split_ifs with hletter
    · rcases List.mem_cons.mp hp with rfl | hp
      · refine .inr ?_
        rcases hletter.1 with rfl | rfl <;> decide
      · rcases mem_scanSign [ofChar '-', ofChar '+'] hp with hp | hsign
        · exact mem_dropWhile_isDigit hp
        · rw [List.mem_cons, List.mem_singleton] at hsign
          refine .inr ?_
          rcases hsign with rfl | rfl <;> decide
    · exact .inl hp

/-- There is no control character in a numeral. -/
theorem printable_of_scanNumeral {n : Numeral} (h : scanNumeral s = some (n, [])) (hp : p ∈ s) :
    Printable p := by
  obtain ⟨integer, s₁, hinteger, -, hrest⟩ := scanNumeral_eq_some.mp h
  rcases mem_scanInteger hinteger hp with hp | hp
  · rcases mem_scanFraction hp with hp | hp
    · rcases mem_scanExponent hp with hp | hp
      · rw [← hrest] at hp
        cases hp
      · exact hp
    · exact hp
  · exact hp

/-! ### Strings -/

theorem printable_ofString (text : String) (h : text.toList.all fun c => 0x20 ≤ c.toNat) :
    ∀ p ∈ Str.ofString text, Printable p := by
  intro p hp
  obtain ⟨c, hc, rfl⟩ := List.mem_map.mp hp
  exact of_decide_eq_true (List.all_eq_true.mp h c hc)

theorem printable_digitChar : ∀ d < 16, Printable (ofChar (Nat.digitChar d)) := by decide

/-- Control characters are escaped. -/
theorem printable_escape (p : CodePoint) : ∀ q ∈ escape p, Printable q := by
  unfold escape
  split_ifs
  · exact printable_ofString _ rfl
  · exact printable_ofString _ rfl
  · exact printable_ofString _ rfl
  · exact printable_ofString _ rfl
  · exact printable_ofString _ rfl
  · exact printable_ofString _ rfl
  · exact printable_ofString _ rfl
  · -- a control character is written with its two hexadecimal digits
    intro q hq
    have hhigh : p.val / 16 < 16 := by omega
    have hlow : p.val % 16 < 16 := Nat.mod_lt _ (by omega)
    rw [List.mem_append] at hq
    rcases hq with hq | hq
    · exact printable_ofString _ rfl q hq
    · rw [Str.ofText, List.map_cons, List.map_cons, List.map_nil, List.mem_cons,
        List.mem_singleton] at hq
      rcases hq with rfl | rfl
      · exact printable_digitChar _ hhigh
      · exact printable_digitChar _ hlow
  · -- any other character stands as it is, and is no control character
    intro q hq
    rw [List.mem_singleton.mp hq]
    unfold Printable
    omega

theorem printable_quote (s : Str) : ∀ p ∈ quote s, Printable p := by
  intro p hp
  unfold quote at hp
  rw [List.mem_append, List.mem_append, List.mem_flatMap] at hp
  rcases hp with (hp | ⟨q, -, hp⟩) | hp
  · exact printable_ofString _ rfl p hp
  · exact printable_escape q p hp
  · exact printable_ofString _ rfl p hp

/-! ### Values -/

variable {float : Numeral → Text}

theorem printable_float {repr : Text} (h : IsFloatText float repr) :
    ∀ p ∈ Str.ofText repr, Printable p := by
  rcases h with rfl | rfl | rfl | ⟨n, hscan, -, -⟩
  · exact printable_ofString _ rfl
  · exact printable_ofString _ rfl
  · exact printable_ofString _ rfl
  · exact fun p => printable_of_scanNumeral hscan

theorem printable_intercalate {parts : List Str} (h : ∀ part ∈ parts, ∀ p ∈ part, Printable p) :
    ∀ p ∈ (Str.ofString ", ").intercalate parts, Printable p := by
  induction parts with
  | nil => exact fun p hp => nomatch hp
  | cons part parts ih =>
      obtain ⟨hpart, hparts⟩ := List.forall_mem_cons.mp h
      cases parts with
      | nil => simpa using hpart
      | cons part' parts =>
          intro p hp
          rw [List.intercalate_cons_cons, List.mem_append, List.mem_append] at hp
          rcases hp with (hp | hp) | hp
          · exact hpart p hp
          · exact printable_ofString _ rfl p hp
          · exact ih hparts p hp

theorem printable_enclosed (opening closing : String)
    (hopening : opening.toList.all fun c => 0x20 ≤ c.toNat)
    (hclosing : closing.toList.all fun c => 0x20 ≤ c.toNat) {parts : List Str}
    (h : ∀ part ∈ parts, ∀ p ∈ part, Printable p) :
    ∀ p ∈ Str.ofString opening ++ (Str.ofString ", ").intercalate parts ++ Str.ofString closing,
      Printable p := by
  intro p hp
  rw [List.mem_append, List.mem_append] at hp
  rcases hp with (hp | hp) | hp
  · exact printable_ofString _ hopening p hp
  · exact printable_intercalate h p hp
  · exact printable_ofString _ hclosing p hp

mutual

/-- **`json.dumps` writes one line.** -/
theorem printable_dumps : (j : Json) → j.WellFormed float → ∀ p ∈ dumps j, Printable p
  | .null, _ => printable_ofString _ rfl
  | .bool b, _ => by
      cases b
      · exact printable_ofString _ rfl
      · exact printable_ofString _ rfl
  | .int n, _ => by
      obtain ⟨numeral, hscan, -, -⟩ := scanNumeral_toString n
      exact fun p => printable_of_scanNumeral hscan
  | .float _, h => printable_float h
  | .str s, _ => printable_quote s
  | .arr items, h => by
      rw [dumps]
      exact printable_enclosed _ _ rfl rfl (printable_dumpsItems items h)
  | .obj members, h => by
      rw [dumps]
      exact printable_enclosed _ _ rfl rfl (printable_dumpsMembers members h.2)

theorem printable_dumpsItems : (items : List Json) → WellFormedItems float items →
    ∀ part ∈ dumpsItems items, ∀ p ∈ part, Printable p
  | [], _ => fun _ h => nomatch h
  | item :: items, h => by
      rw [dumpsItems, List.forall_mem_cons]
      exact ⟨printable_dumps item h.1, printable_dumpsItems items h.2⟩

theorem printable_dumpsMembers : (members : List (Str × Json)) → WellFormedMembers float members →
    ∀ part ∈ dumpsMembers members, ∀ p ∈ part, Printable p
  | [], _ => fun _ h => nomatch h
  | (key, value) :: members, h => by
      rw [dumpsMembers, List.forall_mem_cons]
      refine ⟨fun p hp => ?_, printable_dumpsMembers members h.2⟩
      rw [List.mem_append, List.mem_append] at hp
      rcases hp with (hp | hp) | hp
      · exact printable_quote key p hp
      · exact printable_ofString _ rfl p hp
      · exact printable_dumps value h.1 p hp

end

/-! ## Where an object begins -/

/-- Atoms are no objects. -/
theorem ne_obj_of_scanAtom {j : Json} (h : scanAtom float s = some (j, rest))
    (members : List (Str × Json)) :
    j ≠ .obj members := by
  rintro rfl
  rcases scanAtom_cases float h with ⟨literal, hmem, -⟩ | ⟨n, -, hvalue⟩
  · simp [literals] at hmem
  · unfold Numeral.value at hvalue
    split_ifs at hvalue

/-- The text of an object begins with a brace, perhaps behind white space. -/
theorem skipSpace_of_loads_obj {members : List (Str × Json)}
    (h : loads float s = some (.obj members)) :
    ∃ t, skipSpace s = ofChar '\x7b' :: t := by
  obtain ⟨n, rest, hscan, -⟩ := (loads_eq_some float).mp h
  cases n with
  | zero => cases hscan
  | succ n =>
      obtain ⟨p, t, hp, hcase⟩ := (scanOnce_eq_some float).mp hscan
      rcases hcase with ⟨-, _, -, hobj⟩ | ⟨hbrace, -⟩ | ⟨-, ⟨-, hobj⟩ | ⟨_, _, _, -, -, -, hobj⟩⟩ |
        ⟨-, hatom⟩
      · cases hobj
      · exact ⟨t, hbrace ▸ hp⟩
      · cases hobj
      · cases hobj
      · exact absurd rfl (ne_obj_of_scanAtom hatom members)

/-- JSON white space is white space. -/
theorem isSpace_of_isJsonSpace {c : Char} (h : isJsonSpace (ofChar c) = true) :
    isSpace c = true := by
  unfold isJsonSpace at h
  simp only [Bool.or_eq_true, decide_eq_true_eq, ofChar_injective.eq_iff] at h
  rcases h with ((rfl | rfl) | rfl) | rfl <;> decide

/-- So the strip of the text of an object begins with a brace. -/
theorem strip_of_loads_obj {text : Text} {members : List (Str × Json)}
    (h : loads float (Str.ofText text) = some (.obj members)) : ∃ t, strip text = '\x7b' :: t := by
  obtain ⟨t, ht⟩ := skipSpace_of_loads_obj h
  have hdrop : (text.dropWhile (isJsonSpace ∘ ofChar)).map ofChar = ofChar '\x7b' :: t := by
    rw [← List.dropWhile_map]
    exact ht
  obtain ⟨c, rest, hrest, hc, -⟩ := List.map_eq_cons_iff.mp hdrop
  have hspace : ∀ c ∈ text.takeWhile (isJsonSpace ∘ ofChar), isSpace c = true := fun c hc =>
    isSpace_of_isJsonSpace (List.mem_takeWhile_imp (p := isJsonSpace ∘ ofChar) hc)
  rw [← List.takeWhile_append_dropWhile (p := isJsonSpace ∘ ofChar) (l := text), hrest,
    ofChar_injective hc]
  exact strip_append hspace (by decide) rest

end SynGateway.Python
