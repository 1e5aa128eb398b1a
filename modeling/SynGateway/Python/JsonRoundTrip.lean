import Mathlib.Data.List.Nodup
import SynGateway.Python.JsonLoads

/-!
# `json.loads` inverts `json.dumps`

A value that `json.loads` returns has distinct keys in its objects, and floats that print as floats
(`Json.WellFormed`, `wellFormed_of_loads`). On such values `json.loads` inverts `json.dumps`
(`loads_dumps`), surrogates included.
-/

namespace SynGateway.Python

open CodePoint

/-! ## Numbers -/

/-- What can stand behind a value inside of an array or an object. -/
def Delimited (rest : Str) : Prop :=
  ∀ p ∈ rest.head?, p = ofChar ',' ∨ p = ofChar ']' ∨ p = ofChar '\x7d'

/-- The end of the text ends a number. -/
theorem delimited_nil : Delimited [] := by simp [Delimited]

/-- A comma or a closing bracket ends a number. -/
theorem delimited_cons {p : CodePoint} (h : p = ofChar ',' ∨ p = ofChar ']' ∨ p = ofChar '\x7d')
    (rest : Str) : Delimited (p :: rest) := by
  rintro q ⟨⟩
  exact h

/-- None of these goes on with a number. -/
theorem Delimited.head {rest : Str} (h : Delimited rest) : ∀ p ∈ rest.head?,
    isDigit p = false ∧ p ≠ ofChar '.' ∧ p ≠ ofChar 'e' ∧ p ≠ ofChar 'E' ∧ p ≠ ofChar '-' ∧
      p ≠ ofChar '+' := by
  intro p hp
  rcases h p hp with rfl | rfl | rfl <;> decide

/-- The digits end before what follows a number. -/
theorem takeWhile_isDigit_append {rest : Str} (h : Delimited rest) (s : Str) :
    (s ++ rest).takeWhile isDigit = s.takeWhile isDigit := by
  induction s with
  | nil =>
      cases rest with
      | nil => rfl
      | cons p rest => exact List.takeWhile_cons_of_neg (by simp [(h.head p rfl).1])
  | cons p s ih =>
      rw [List.cons_append, List.takeWhile_cons, List.takeWhile_cons, ih]

/-- What follows a number is left behind the digits. -/
theorem dropWhile_isDigit_append {rest : Str} (h : Delimited rest) (s : Str) :
    (s ++ rest).dropWhile isDigit = s.dropWhile isDigit ++ rest := by
  induction s with
  | nil =>
      cases rest with
      | nil => rfl
      | cons p rest => exact List.dropWhile_cons_of_neg (by simp [(h.head p rfl).1])
  | cons p s ih =>
      rw [List.cons_append, List.dropWhile_cons, List.dropWhile_cons, ih]
      split <;> rfl

/-- The sign is read alike before what follows a number. -/
theorem scanSign_append {signs rest : Str} (hrest : Delimited rest)
    (hsigns : ∀ p ∈ signs, p = ofChar '-' ∨ p = ofChar '+') (s : Str) :
    scanSign signs (s ++ rest) = ((scanSign signs s).1, (scanSign signs s).2 ++ rest) := by
  cases s with
  | nil =>
      cases rest with
      | nil => rfl
      | cons p rest =>
          have hp := hrest.head p rfl
          unfold scanSign
          dsimp only [List.nil_append]
          rw [if_neg fun hmem => (hsigns p hmem).elim hp.2.2.2.2.1 hp.2.2.2.2.2]
  | cons p s =>
      unfold scanSign
      dsimp only [List.cons_append]
      split_ifs <;> rfl

/-- The integer is read alike before what follows a number. -/
theorem scanInteger_append {s t u rest : Str} (hrest : Delimited rest)
    (h : scanInteger s = some (t, u)) : scanInteger (s ++ rest) = some (t, u ++ rest) := by
  unfold scanInteger at h ⊢
  rw [scanSign_append hrest (by simp)]
  dsimp only at h ⊢
  cases hrem : (scanSign [ofChar '-'] s).2 with
  | nil =>
      rw [hrem] at h
      cases h
  | cons q r =>
      rw [hrem] at h
      dsimp only [List.cons_append] at h ⊢
      split_ifs at h ⊢ with hzero hdigit
      · cases h
        rfl
      · cases h
        rw [← List.cons_append, takeWhile_isDigit_append hrest, dropWhile_isDigit_append hrest]

/-- The fraction is read alike before what follows a number. -/
theorem scanFraction_append {rest : Str} (hrest : Delimited rest) (s : Str) :
    scanFraction (s ++ rest) = ((scanFraction s).1, (scanFraction s).2 ++ rest) := by
  cases s with
  | nil =>
      cases rest with
      | nil => rfl
      | cons p rest =>
          have hp := hrest.head p rfl
          unfold scanFraction
          dsimp only [List.nil_append]
          rw [if_neg fun h => hp.2.1 h.1]
  | cons p s =>
      unfold scanFraction
      dsimp only [List.cons_append]
      rw [takeWhile_isDigit_append hrest, dropWhile_isDigit_append hrest]
      split_ifs <;> rfl

/-- The exponent is read alike before what follows a number. -/
theorem scanExponent_append {rest : Str} (hrest : Delimited rest) (s : Str) :
    scanExponent (s ++ rest) = ((scanExponent s).1, (scanExponent s).2 ++ rest) := by
  cases s with
  | nil =>
      cases rest with
      | nil => rfl
      | cons p rest =>
          have hp := hrest.head p rfl
          unfold scanExponent
          dsimp only [List.nil_append]
          rw [if_neg fun h => h.1.elim hp.2.2.1 hp.2.2.2.1]
  | cons p s =>
      unfold scanExponent
      dsimp only [List.cons_append]
      rw [scanSign_append hrest (by simp)]
      dsimp only
      rw [takeWhile_isDigit_append hrest, dropWhile_isDigit_append hrest]
      split_ifs <;> rfl

/-- A number ends where the text ends or a delimiter follows. -/
theorem scanNumeral_append {s rest : Str} {n : Numeral} (hrest : Delimited rest)
    (h : scanNumeral s = some (n, [])) : scanNumeral (s ++ rest) = some (n, rest) := by
  obtain ⟨integer, s₁, hinteger, hn, hend⟩ := scanNumeral_eq_some.mp h
  refine scanNumeral_eq_some.mpr ⟨integer, s₁ ++ rest, scanInteger_append hrest hinteger, ?_, ?_⟩
  · rw [scanFraction_append hrest, scanExponent_append hrest]
    exact hn
  · rw [scanFraction_append hrest, scanExponent_append hrest, ← hend]
    rfl

/-! ## Integers -/

/-- Two characters are two code points. -/
theorem ofChar_injective : Function.Injective ofChar := by
  intro c d h
  have hval : c.toNat = d.toNat := congrArg (fun p : CodePoint => p.val) h
  exact Char.toNat_inj.mp hval

/-- Two literals are two strings. -/
theorem Str.ofString_injective : Function.Injective Str.ofString := fun _ _ h =>
  String.toList_inj.mp (List.map_injective_iff.mpr ofChar_injective h)

/-- The characters behind the code points. -/
theorem map_ofNat_ofText (text : Text) :
    ((Str.ofText text).map fun p => Char.ofNat p.val) = text := by
  unfold Str.ofText
  rw [List.map_map]
  refine (List.map_congr_left fun c _ => ?_).trans (List.map_id text)
  exact Char.ofNat_toNat c

/-- A digit is read as a digit. -/
theorem isDigit_ofChar {c : Char} (h : c.isDigit = true) : isDigit (ofChar c) = true := by
  obtain ⟨hlow, hhigh⟩ := Char.isDigit_iff_toNat.mp h
  unfold isDigit
  simp only [Bool.and_eq_true, decide_eq_true_eq]
  exact ⟨hlow, hhigh⟩

/-- A positive number does not start with a zero. -/
theorem head_toDigits {m : ℕ} (h : 0 < m) : (Nat.toDigits 10 m).head? ≠ some '0' := by
  induction m using Nat.strong_induction_on with
  | _ m ih =>
      rw [Nat.toDigits_eq_if (by omega)]
      split_ifs with hlt
      · have hall : ∀ d < 10, 0 < d → [Nat.digitChar d].head? ≠ some '0' := by decide
        exact hall m hlt h
      · rw [List.head?_append_of_ne_nil _ Nat.toDigits_ne_nil]
        exact ih (m / 10) (by omega) (by omega)

/-- All of a run of digits is digits. -/
theorem takeWhile_digits {ds : Str} (h : ∀ p ∈ ds, isDigit p = true) : ds.takeWhile isDigit = ds :=
  List.takeWhile_eq_self_iff.mpr h

/-- Nothing is left of a run of digits. -/
theorem dropWhile_digits {ds : Str} (h : ∀ p ∈ ds, isDigit p = true) : ds.dropWhile isDigit = [] :=
  List.dropWhile_eq_nil_iff.mpr h

/-- The digits of a natural number. -/
def digitsOf (m : ℕ) : Str := Str.ofText (Nat.toDigits 10 m)

/-- A number has a first digit, which is zero for zero only. -/
theorem digitsOf_cons (m : ℕ) : ∃ p ds, digitsOf m = p :: ds ∧ isDigit p = true ∧
    (p = ofChar '0' → ds = []) ∧ (∀ q ∈ p :: ds, isDigit q = true) := by
  have hall : ∀ q ∈ digitsOf m, isDigit q = true := by
    intro q hq
    obtain ⟨c, hc, rfl⟩ := List.mem_map.mp hq
    exact isDigit_ofChar (Nat.isDigit_of_mem_toDigits (by omega) (by omega) hc)
  cases hdigits : Nat.toDigits 10 m with
  | nil => exact absurd hdigits Nat.toDigits_ne_nil
  | cons c cs =>
      have heq : digitsOf m = ofChar c :: Str.ofText cs := by
        unfold digitsOf
        rw [hdigits]
        rfl
      rw [heq] at hall
      refine ⟨ofChar c, Str.ofText cs, heq, hall _ List.mem_cons_self, fun hzero => ?_, hall⟩
      obtain rfl := ofChar_injective hzero
      rcases Nat.eq_zero_or_pos m with rfl | hpos
      · rw [Nat.toDigits_zero] at hdigits
        cases hdigits
        rfl
      · have hhead := head_toDigits hpos
        rw [hdigits] at hhead
        exact absurd rfl hhead

/-- An optional sign and the digits of a number. -/
theorem scanInteger_digits (sign : Str) (hsign : sign = [] ∨ sign = [ofChar '-']) (m : ℕ) :
    scanInteger (sign ++ digitsOf m) = some (sign ++ digitsOf m, []) := by
  obtain ⟨p, ds, heq, hp, hzero, hall⟩ := digitsOf_cons m
  have hne : p ≠ ofChar '-' := by
    rintro rfl
    exact absurd hp (by decide)
  have hscan : scanSign [ofChar '-'] (sign ++ p :: ds) = (sign, p :: ds) := by
    rcases hsign with rfl | rfl
    · simp [scanSign, hne]
    · simp [scanSign]
  unfold scanInteger
  rw [heq, hscan]
  dsimp only
  split_ifs with h0
  · rw [hzero h0]
  · rw [takeWhile_digits hall, dropWhile_digits hall]

/-- A number is read from its digits. -/
theorem intOf_digits (m : ℕ) : intOf (digitsOf m) = m := by
  obtain ⟨p, ds, heq, hp, -, -⟩ := digitsOf_cons m
  have hne : p ≠ ofChar '-' := by
    rintro rfl
    exact absurd hp (by decide)
  have hvalue : Nat.ofDigitChars 10 ((digitsOf m).map fun p => Char.ofNat p.val) 0 = m := by
    unfold digitsOf
    rw [map_ofNat_ofText]
    exact Nat.ofDigitChars_ten_toDigits
  rw [heq] at hvalue ⊢
  unfold intOf
  dsimp only
  rw [if_neg hne, hvalue]

/-- A negative number is read from its sign and digits. -/
theorem intOf_neg (m : ℕ) : intOf (ofChar '-' :: digitsOf m) = -m := by
  have hvalue : Nat.ofDigitChars 10 ((digitsOf m).map fun p => Char.ofNat p.val) 0 = m := by
    unfold digitsOf
    rw [map_ofNat_ofText]
    exact Nat.ofDigitChars_ten_toDigits
  unfold intOf
  dsimp only
  rw [if_pos rfl, hvalue]

/-- How an integer prints. -/
theorem ofString_toString (n : ℤ) : ∃ sign m, Str.ofString (toString n) = sign ++ digitsOf m ∧
    (sign = [] ∨ sign = [ofChar '-']) ∧ intOf (sign ++ digitsOf m) = n := by
  cases n with
  | ofNat m =>
      refine ⟨[], m, ?_, .inl rfl, intOf_digits m⟩
      change Str.ofText (Nat.repr m).toList = _
      rw [Nat.toList_repr]
      rfl
  | negSucc m =>
      refine ⟨[ofChar '-'], m + 1, ?_, .inr rfl, ?_⟩
      · change Str.ofText ("-" ++ Nat.repr (m + 1)).toList = _
        rw [String.toList_append, Nat.toList_repr]
        rfl
      · exact intOf_neg (m + 1)

/-- An integer reads back as it prints. -/
theorem scanNumeral_toString (n : ℤ) : ∃ numeral, scanNumeral (Str.ofString (toString n)) =
    some (numeral, []) ∧ numeral.isInt = true ∧ intOf numeral.integer = n := by
  obtain ⟨sign, m, heq, hsign, hvalue⟩ := ofString_toString n
  refine ⟨⟨sign ++ digitsOf m, [], []⟩, ?_, rfl, hvalue⟩
  rw [heq]
  exact scanNumeral_eq_some.mpr ⟨_, _, scanInteger_digits sign hsign m, rfl, rfl⟩

/-! ## Strings -/

/-- An escape stands for one code point. -/
theorem scanString_escape {s rest : Str} {p : CodePoint} (h : scanEscape s = some (p, rest)) :
    scanString (ofChar '\\' :: s) = (scanString rest).map fun (t, rest) => (p :: t, rest) := by
  rw [scanString, if_neg (by decide), if_pos rfl]
  split
  · next hnone =>
      rw [h] at hnone
      cases hnone
  · next q rest' hsome =>
      rw [h] at hsome
      cases hsome
      rfl

/-- An escape with a single letter. -/
theorem scanString_backslash {p q : CodePoint} (h : backslash q = some p) (t : Str) :
    scanString (ofChar '\\' :: q :: t) = (scanString t).map fun (u, rest) => (p :: u, rest) := by
  refine scanString_escape ?_
  have hne : q ≠ ofChar 'u' := by
    rintro rfl
    have hnone : backslash (ofChar 'u') = none := by decide
    rw [hnone] at h
    cases h
  unfold scanEscape
  dsimp only
  rw [if_neg hne, h]
  rfl

/-- A hexadecimal digit is read as its value. -/
theorem hexValue_digitChar : ∀ d < 16, hexValue (ofChar (Nat.digitChar d)) = some d := by decide

/-- The escape of a control character. -/
theorem scanString_control {p : CodePoint} (h : p.val < 0x20) (t : Str) :
    scanString (Str.ofString "\\u00" ++ Str.ofText [Nat.digitChar (p.val / 16),
        Nat.digitChar (p.val % 16)]
      ++ t) = (scanString t).map fun (u, rest) => (p :: u, rest) := by
  have hzero : hexValue (ofChar '0') = some 0 := by decide
  have hescape : scanEscape (ofChar 'u' :: ofChar '0' :: ofChar '0' ::
      ofChar (Nat.digitChar (p.val / 16)) :: ofChar (Nat.digitChar (p.val % 16)) :: t) =
          some (p, t) := by
    have hcode : ((0 * 16 + 0) * 16 + p.val / 16) * 16 + p.val % 16 = p.val := by omega
    have hself : Fin.ofNat 0x110000 p.val = p := Fin.ext (Nat.mod_eq_of_lt p.isLt)
    unfold scanEscape
    dsimp only
    rw [if_pos rfl, scanHex, hzero, hexValue_digitChar _ (by omega),
      hexValue_digitChar _ (by omega)]
    change some (joinSurrogates (((0 * 16 + 0) * 16 + p.val / 16) * 16 + p.val % 16) t) = _
    rw [hcode, joinSurrogates, if_neg (by omega), hself]
  exact scanString_escape hescape

/-- The scanner undoes one escape. -/
theorem scanString_escaped (p : CodePoint) (t : Str) :
    scanString (escape p ++ t) = (scanString t).map fun (u, rest) => (p :: u, rest) := by
  have hval : ∀ {c : Char}, p.val = c.toNat → p = ofChar c := fun h => Fin.ext h
  unfold escape
  split_ifs with hquote hslash hn hr ht hf hb hcontrol
  · exact scanString_backslash (by rw [hval (c := '"') hquote]; decide) t
  · exact scanString_backslash (by rw [hval (c := '\\') hslash]; decide) t
  · exact scanString_backslash (by rw [hval (c := '\n') hn]; decide) t
  · exact scanString_backslash (by rw [hval (c := '\r') hr]; decide) t
  · exact scanString_backslash (by rw [hval (c := '\t') ht]; decide) t
  · exact scanString_backslash (by rw [show p = 0x0C from Fin.ext hf]; decide) t
  · exact scanString_backslash (by rw [show p = 0x08 from Fin.ext hb]; decide) t
  · exact scanString_control hcontrol t
  · have hne : ∀ {c : Char}, p.val ≠ c.toNat → p ≠ ofChar c := fun h heq => h (congrArg Fin.val heq)
    rw [List.singleton_append, scanString,
      if_neg (hne (c := '"') hquote), if_neg (hne (c := '\\') hslash), if_neg hcontrol]

/-- A string reads back as it was quoted. -/
theorem scanString_quote (s rest : Str) :
    scanString (s.flatMap escape ++ ofChar '"' :: rest) = some (s, rest) := by
  induction s with
  | nil =>
      rw [List.flatMap_nil, List.nil_append, scanString, if_pos rfl]
  | cons p s ih =>
      rw [List.flatMap_cons, List.append_assoc, scanString_escaped, ih, Option.map_some]

/-- A quoted string before other text. -/
theorem quote_append (s rest : Str) :
    quote s ++ rest = ofChar '"' :: (s.flatMap escape ++ ofChar '"' :: rest) := by
  have hquote : Str.ofString "\"" = [ofChar '"'] := rfl
  unfold quote
  rw [hquote]
  simp only [List.append_assoc, List.cons_append, List.nil_append]

/-! ## Well-formed values -/

/-- What a float prints as: a special value, or a numeral that prints as it stands. -/
def IsFloatText (float : Numeral → Text) (repr : Text) : Prop :=
  repr = "NaN".toList ∨ repr = "Infinity".toList ∨ repr = "-Infinity".toList ∨
    ∃ n, scanNumeral (Str.ofText repr) = some (n, []) ∧ n.isInt = false ∧ float n = repr

variable (float : Numeral → Text)

mutual

/-- Keys are distinct, and floats print as floats. -/
def Json.WellFormed : Json → Prop
  | .float repr => IsFloatText float repr
  | .arr items => WellFormedItems items
  | .obj members => (members.map (·.1)).Nodup ∧ WellFormedMembers members
  | _ => True

def WellFormedItems : List Json → Prop
  | [] => True
  | item :: items => item.WellFormed ∧ WellFormedItems items

def WellFormedMembers : List (Str × Json) → Prop
  | [] => True
  | (_, value) :: members => value.WellFormed ∧ WellFormedMembers members

end

/-! ## Literals and numbers -/

/-- A literal is no number. -/
theorem scanInteger_literal {l : String × Json} (h : l ∈ literals) (t : Str) :
    scanInteger (Str.ofString l.1 ++ t) = none := by
  unfold literals at h
  simp only [List.mem_cons, List.not_mem_nil, or_false] at h
  rcases h with rfl | rfl | rfl | rfl | rfl | rfl <;> rfl

/-- A number is no literal. -/
theorem scanAtom_of_numeral {s rest : Str} {n : Numeral} (h : scanNumeral s = some (n, rest)) :
    scanAtom float s = some (n.value float, rest) := by
  have hnone : ∀ l ∈ literals, scanLiteral l.1 s = none := by
    intro l hl
    cases hscan : scanLiteral l.1 s with
    | none => rfl
    | some t =>
        obtain ⟨integer, s₁, hinteger, -, -⟩ := scanNumeral_eq_some.mp h
        rw [scanLiteral_eq_some.mp hscan, scanInteger_literal hl] at hinteger
        cases hinteger
  unfold scanAtom
  rw [List.findSome?_eq_none_iff.mpr fun l hl => Option.map_eq_none_iff.mpr (hnone l hl), h]
  rfl

/-- `null` is read back. -/
theorem scanAtom_null (rest : Str) :
    scanAtom float (Str.ofString "null" ++ rest) = some (.null, rest) := rfl

/-- A boolean is read back. -/
theorem scanAtom_bool (b : Bool) (rest : Str) :
    scanAtom float (Str.ofString (if b then "true" else "false") ++ rest) = some
    (.bool b, rest) := by
  cases b <;> rfl

/-- An integer is read back before a delimiter. -/
theorem scanAtom_int {rest : Str} (hrest : Delimited rest) (n : ℤ) :
    scanAtom float (Str.ofString (toString n) ++ rest) = some (.int n, rest) := by
  obtain ⟨numeral, hscan, hint, hvalue⟩ := scanNumeral_toString n
  rw [scanAtom_of_numeral float (scanNumeral_append hrest hscan), Numeral.value,
    if_pos hint, hvalue]

/-- A float is read back before a delimiter. -/
theorem scanAtom_float {rest : Str} (hrest : Delimited rest) {repr : Text}
    (h : IsFloatText float repr) :
    scanAtom float (Str.ofText repr ++ rest) = some (.float repr, rest) := by
  rcases h with rfl | rfl | rfl | ⟨n, hscan, hint, hvalue⟩
  · rfl
  · rfl
  · rfl
  · rw [scanAtom_of_numeral float (scanNumeral_append hrest hscan), Numeral.value,
      if_neg (by rw [hint]; decide), hvalue]

/-! ## How a value starts -/

/-- A value can start with the code point. -/
def Starts (p : CodePoint) : Prop :=
  isJsonSpace p = false ∧ p ≠ ofChar ']' ∧ p ≠ ofChar '\x7d' ∧ p ≠ ofChar ','

instance (p : CodePoint) : Decidable (Starts p) := inferInstanceAs (Decidable (_ ∧ _))

/-- A digit may start a value. -/
theorem starts_of_isDigit {p : CodePoint} (h : isDigit p = true) : Starts p := by
  unfold isDigit at h
  simp only [Bool.and_eq_true, decide_eq_true_eq] at h
  have hne : ∀ c : Char, c.toNat < 0x30 ∨ 0x39 < c.toNat → p ≠ ofChar c := by
    rintro c hc rfl
    have hval : (ofChar c).val = c.toNat := rfl
    omega
  refine ⟨?_, hne ']' (by decide), hne '\x7d' (by decide), hne ',' (by decide)⟩
  unfold isJsonSpace
  simp [hne ' ' (by decide), hne '\t' (by decide), hne '\n' (by decide), hne '\r' (by decide)]

/-- A number starts with its sign or with a digit. -/
theorem starts_of_scanNumeral {s rest : Str} {n : Numeral} (h : scanNumeral s = some (n, rest)) :
    ∃ p s', s = p :: s' ∧ Starts p ∧ p ≠ ofChar '"' ∧ p ≠ ofChar '\x7b' ∧ p ≠ ofChar '[' := by
  obtain ⟨integer, s₁, hinteger, -, -⟩ := scanNumeral_eq_some.mp h
  have hdigit : ∀ {p}, isDigit p = true →
      Starts p ∧ p ≠ ofChar '"' ∧ p ≠ ofChar '\x7b' ∧ p ≠ ofChar '[' := by
    intro p hp
    refine ⟨starts_of_isDigit hp, ?_, ?_, ?_⟩
    · rintro rfl
      exact absurd hp (by decide)
    · rintro rfl
      exact absurd hp (by decide)
    · rintro rfl
      exact absurd hp (by decide)
  cases s with
  | nil => cases hinteger
  | cons p s =>
      refine ⟨p, s, rfl, ?_⟩
      unfold scanInteger scanSign at hinteger
      dsimp only at hinteger
      by_cases hsign : p ∈ [ofChar '-']
      · rw [List.mem_singleton.mp hsign]
        decide
      · rw [if_neg hsign] at hinteger
        dsimp only at hinteger
        split_ifs at hinteger with hzero hp
        · rw [hzero]
          decide
        · exact hdigit hp

/-- The text of an atom, with what stands behind it. -/
theorem scanOnce_atom {s rest : Str} {j : Json} (hatom : scanAtom float s = some (j, rest))
    (hhead : ∀ p ∈ s.head?, p ≠ ofChar '"' ∧ p ≠ ofChar '\x7b' ∧ p ≠ ofChar '[') :
    scanOnce float 1 s = some (j, rest) := by
  cases s with
  | nil => cases hatom
  | cons p s =>
      exact (scanOnce_eq_some float).mpr ⟨p, s, rfl, .inr (.inr (.inr ⟨hhead p rfl, hatom⟩))⟩

/-- The text of a well-formed value is not empty, and starts as values do. -/
theorem dumps_starts {j : Json} (h : j.WellFormed float) : ∃ p s, dumps j = p :: s ∧ Starts p := by
  cases j with
  | null => exact ⟨_, _, rfl, by decide⟩
  | bool b => cases b <;> exact ⟨_, _, rfl, by decide⟩
  | int n =>
      obtain ⟨numeral, hscan, -, -⟩ := scanNumeral_toString n
      obtain ⟨p, s, heq, hstarts, -⟩ := starts_of_scanNumeral hscan
      exact ⟨p, s, heq, hstarts⟩
  | float repr =>
      rcases h with rfl | rfl | rfl | ⟨n, hscan, -, -⟩
      · exact ⟨_, _, rfl, by decide⟩
      · exact ⟨_, _, rfl, by decide⟩
      · exact ⟨_, _, rfl, by decide⟩
      · obtain ⟨p, s, heq, hstarts, -⟩ := starts_of_scanNumeral hscan
        exact ⟨p, s, heq, hstarts⟩
  | str s =>
      have hquote := quote_append s []
      rw [List.append_nil] at hquote
      exact ⟨_, _, hquote, by decide⟩
  | arr items => exact ⟨ofChar '[', _, rfl, by decide⟩
  | obj members => exact ⟨ofChar '\x7b', _, rfl, by decide⟩

/-- No space is skipped before a value. -/
theorem skipSpace_of_starts {p : CodePoint} (h : Starts p) (s : Str) :
    skipSpace (p :: s) = p :: s :=
  List.dropWhile_cons_of_neg (by simp [h.1])

/-- No white space stands before a value. -/
theorem skipSpace_dumps {j : Json} (h : j.WellFormed float) (rest : Str) :
    skipSpace (dumps j ++ rest) = dumps j ++ rest := by
  obtain ⟨p, s, heq, hstarts⟩ := dumps_starts float h
  rw [heq, List.cons_append, skipSpace_of_starts hstarts]

/-- No space is skipped before a comma. -/
theorem skipSpace_of_comma (s : Str) : skipSpace (ofChar ',' :: s) = ofChar ',' :: s :=
  List.dropWhile_cons_of_neg (by decide)

/-- A space is skipped. -/
theorem skipSpace_space (s : Str) : skipSpace (ofChar ' ' :: s) = skipSpace s :=
  List.dropWhile_cons_of_pos (by decide)

/-! ## The round trip -/

/-- A new key is appended. -/
theorem setItem_of_not_mem {members : List (Str × Json)} {key : Str} (h : key ∉ members.map (·.1))
    (value : Json) : setItem members key value = members ++ [(key, value)] := by
  induction members with
  | nil => rfl
  | cons m members ih =>
      rw [List.map_cons, List.mem_cons, not_or] at h
      rw [setItem, if_neg (Ne.symm h.1), ih h.2, List.cons_append]

/-- A key is read back with its colon and space. -/
theorem scanKey_quote {key s : Str} (hs : skipSpace s = s) :
    scanKey (key.flatMap escape ++
      ofChar '"' :: ofChar ':' :: ofChar ' ' :: s) = some (key, s) := by
  have hcolon : skipSpace (ofChar ':' :: ofChar ' ' :: s) = ofChar ':' :: ofChar ' ' :: s :=
    skipSpace_of_starts (by decide) _
  unfold scanKey
  rw [Option.bind_eq_bind, scanString_quote, Option.bind_some]
  dsimp only
  rw [hcolon]
  dsimp only
  rw [if_pos rfl, skipSpace_space, hs]
  rfl

/-- An array of one item, and one of more. -/
theorem scanItems_last {s rest : Str} {item : Json}
    (h : ∃ n, scanOnce float n s = some (item, ofChar ']' :: rest)) :
    ∃ n, scanItems float n s = some ([item], rest) := by
  obtain ⟨n, hitem⟩ := h
  refine ⟨n + 1, (scanItems_eq_some float).mpr ⟨item, _, ofChar ']', rest, hitem, ?_,
    .inl ⟨rfl, rfl, rfl⟩⟩⟩
  exact List.dropWhile_cons_of_neg (by decide)

/-- An item before a comma, and the items behind it. -/
theorem scanItems_more {s r rest : Str} {item : Json} {items : List Json}
    (h : ∃ n, scanOnce float n s = some (item, ofChar ',' :: r))
    (hitems : ∃ n, scanItems float n (skipSpace r) = some (items, rest)) :
    ∃ n, scanItems float n s = some (item :: items, rest) := by
  obtain ⟨n, hitem⟩ := h
  obtain ⟨n', hitems⟩ := hitems
  -- a fuel that is enough for both
  have hitem' :=
    (scan_fuel float n).1 hitem (m := 2 * s.length + 2 * (skipSpace r).length + 1) (by omega)
  have hitems' :=
    (scan_fuel float n').2.1 hitems (m := 2 * s.length + 2 * (skipSpace r).length + 1) (by omega)
  refine ⟨_ + 1, (scanItems_eq_some float).mpr
    ⟨item, _, ofChar ',', r, hitem', ?_, .inr ⟨rfl, items, hitems', rfl⟩⟩⟩
  exact skipSpace_of_comma r

/-- A member as it is written. -/
theorem quote_colon (key t : Str) : quote key ++ Str.ofString ": " ++ t =
    ofChar '"' :: (key.flatMap escape ++ ofChar '"' :: ofChar ':' :: ofChar ' ' :: t) := by
  rw [List.append_assoc, quote_append]
  rfl

/-- An object of one item, and one of more. -/
theorem scanMembers_last {members : List (Str × Json)} {key t rest : Str} {value : Json}
    (ht : skipSpace t = t) (h : ∃ n, scanOnce float n t = some (value, ofChar '\x7d' :: rest)) :
    ∃ n, scanMembers float n members (quote key ++ Str.ofString ": " ++ t) =
      some (.obj (setItem members key value), rest) := by
  obtain ⟨n, hvalue⟩ := h
  rw [quote_colon]
  refine ⟨n + 1, (scanMembers_eq_some float).mpr
    ⟨_, key, t, value, _, ofChar '\x7d', rest, rfl, scanKey_quote ht, hvalue, ?_,
      .inl ⟨rfl, rfl, rfl⟩⟩⟩
  exact List.dropWhile_cons_of_neg (by decide)

/-- A member before a comma, and the members behind it. -/
theorem scanMembers_more {members : List (Str × Json)} {key t r rest : Str} {value j : Json}
    (ht : skipSpace t = t) (h : ∃ n, scanOnce float n t = some (value, ofChar ',' :: r))
    (hmembers : ∃ n, scanMembers float n (setItem members key value) (skipSpace r) =
      some (j, rest)) :
    ∃ n, scanMembers float n members (quote key ++ Str.ofString ": " ++ t) = some (j, rest) := by
  obtain ⟨n, hvalue⟩ := h
  obtain ⟨n', hmembers⟩ := hmembers
  have hvalue' :=
    (scan_fuel float n).1 hvalue (m := 2 * t.length + 2 * (skipSpace r).length + 1) (by omega)
  have hmembers' :=
    (scan_fuel float n').2.2 hmembers (m := 2 * t.length + 2 * (skipSpace r).length + 1)
    (by omega)
  rw [quote_colon]
  exact ⟨_ + 1, (scanMembers_eq_some float).mpr ⟨_, key, t, value, _, ofChar ',', r, rfl,
    scanKey_quote ht, hvalue', skipSpace_of_comma r, .inr ⟨rfl, hmembers'⟩⟩⟩

/-- An array that is not empty, and an object that is not. -/
theorem scanOnce_arr {p : CodePoint} {s rest : Str} {items : List Json} (hp : Starts p)
    (h : ∃ n, scanItems float n (p :: s) = some (items, rest)) :
    ∃ n, scanOnce float n (ofChar '[' :: p :: s) = some (.arr items, rest) := by
  obtain ⟨n, hitems⟩ := h
  exact ⟨n + 1, (scanOnce_eq_some float).mpr ⟨_, _, rfl, .inr (.inr (.inl ⟨rfl, .inr
    ⟨p, _, _, skipSpace_of_starts hp _, hp.2.1, hitems, rfl⟩⟩))⟩⟩

/-- An object with a first key. -/
theorem scanOnce_obj {s rest : Str} {j : Json}
    (h : ∃ n, scanMembers float n [] (ofChar '"' :: s) = some (j, rest)) :
    ∃ n, scanOnce float n (ofChar '\x7b' :: ofChar '"' :: s) = some (j, rest) := by
  obtain ⟨n, hmembers⟩ := h
  exact ⟨n + 1, (scanOnce_eq_some float).mpr ⟨_, _, rfl, .inr (.inl ⟨rfl, .inr
    ⟨_, _, skipSpace_of_starts (by decide) _, by decide, hmembers⟩⟩)⟩⟩

/-- The texts of items and of members start as values do. -/
theorem dumpsItems_starts {item : Json} {items : List Json}
    (h : WellFormedItems float (item :: items)) : ∃ p s,
      (Str.ofString ", ").intercalate (dumpsItems (item :: items)) = p :: s ∧ Starts p := by
  obtain ⟨p, s, heq, hstarts⟩ := dumps_starts float h.1
  cases items with
  | nil =>
      refine ⟨p, s, ?_, hstarts⟩
      rw [dumpsItems, dumpsItems, List.intercalate_singleton, heq]
  | cons item' items =>
      rw [dumpsItems, dumpsItems, List.intercalate_cons_cons, heq]
      exact ⟨p, _, rfl, hstarts⟩

/-- The members of an object begin with a quote. -/
theorem dumpsMembers_starts (m : Str × Json) (members : List (Str × Json)) : ∃ s,
    (Str.ofString ", ").intercalate (dumpsMembers (m :: members)) = ofChar '"' :: s := by
  obtain ⟨key, value⟩ := m
  cases members with
  | nil =>
      rw [dumpsMembers, dumpsMembers, List.intercalate_singleton, List.append_assoc, quote_append]
      exact ⟨_, rfl⟩
  | cons m' members =>
      rw [dumpsMembers, dumpsMembers, List.intercalate_cons_cons, List.append_assoc,
        List.append_assoc, List.append_assoc, quote_append]
      exact ⟨_, rfl⟩

mutual

/-- The scanner reads a value back from its text. -/
theorem scanOnce_dumps : (j : Json) → j.WellFormed float → ∀ {rest}, Delimited rest →
    ∃ n, scanOnce float n (dumps j ++ rest) = some (j, rest)
  | .null, _, rest, _ =>
      ⟨1, scanOnce_atom float (scanAtom_null float rest) (by rintro _ ⟨⟩; decide)⟩
  | .bool b, _, rest, _ => by
      refine ⟨1, scanOnce_atom float (scanAtom_bool float b rest) ?_⟩
      cases b <;> rintro _ ⟨⟩ <;> decide
  | .int n, _, rest, hrest => by
      refine ⟨1, scanOnce_atom float (scanAtom_int float hrest n) ?_⟩
      obtain ⟨numeral, hscan, -⟩ := scanNumeral_toString n
      obtain ⟨p, s, heq, -, hp⟩ := starts_of_scanNumeral hscan
      rw [dumps, heq]
      rintro _ ⟨⟩
      exact hp
  | .float repr, h, rest, hrest => by
      refine ⟨1, scanOnce_atom float (scanAtom_float float hrest h) ?_⟩
      rcases h with rfl | rfl | rfl | ⟨n, hscan, -, -⟩
      · rintro _ ⟨⟩
        decide
      · rintro _ ⟨⟩
        decide
      · rintro _ ⟨⟩
        decide
      · obtain ⟨p, s, heq, -, hp⟩ := starts_of_scanNumeral hscan
        rw [dumps, heq]
        rintro _ ⟨⟩
        exact hp
  | .str s, _, rest, _ => by
      rw [dumps, quote_append]
      exact ⟨1, (scanOnce_eq_some float).mpr ⟨_, _, rfl,
        .inl ⟨rfl, s, scanString_quote s rest, rfl⟩⟩⟩
  | .arr items, h, rest, _ => by
      have htext : dumps (.arr items) ++ rest =
          ofChar '[' :: ((Str.ofString ", ").intercalate (dumpsItems items) ++ ofChar ']' ::
              rest) := by
        rw [dumps, List.append_assoc, List.append_assoc]
        rfl
      rw [htext]
      cases items with
      | nil => exact ⟨1, (scanOnce_eq_some float).mpr ⟨_, _, rfl, .inr (.inr (.inl ⟨rfl, .inl
          ⟨List.dropWhile_cons_of_neg (by decide), rfl⟩⟩))⟩⟩
      | cons item items =>
          have hitems := scanItems_dumps (item :: items) (by simp) h rest
          -- The first item does not look like the closing bracket.
          obtain ⟨p, s, heq, hstarts⟩ := dumpsItems_starts float h
          rw [heq, List.cons_append] at hitems ⊢
          exact scanOnce_arr float hstarts hitems
  | .obj members, h, rest, _ => by
      have htext : dumps (.obj members) ++ rest = ofChar '\x7b' ::
          ((Str.ofString ", ").intercalate (dumpsMembers members) ++ ofChar '\x7d' :: rest) := by
        rw [dumps, List.append_assoc, List.append_assoc]
        rfl
      rw [htext]
      cases members with
      | nil => exact ⟨1, (scanOnce_eq_some float).mpr ⟨_, _, rfl, .inr (.inl ⟨rfl, .inl
          ⟨List.dropWhile_cons_of_neg (by decide), rfl⟩⟩)⟩⟩
      | cons m members =>
          have hmembers := scanMembers_dumps (m :: members) (by simp) h.2 [] h.1 rest
          obtain ⟨s, heq⟩ := dumpsMembers_starts m members
          rw [heq, List.cons_append] at hmembers ⊢
          exact scanOnce_obj float hmembers

/-- The items of an array are read back. -/
theorem scanItems_dumps : (items : List Json) → items ≠ [] → WellFormedItems float items → ∀ rest,
    ∃ n, scanItems float n
      ((Str.ofString ", ").intercalate (dumpsItems items) ++ ofChar ']' :: rest) =
      some (items, rest)
  | [], hne, _, _ => absurd rfl hne
  | [item], _, h, rest => by
      rw [dumpsItems, dumpsItems, List.intercalate_singleton]
      exact scanItems_last float (scanOnce_dumps item h.1 (delimited_cons (by decide) rest))
  | item :: item' :: items, _, h, rest => by
      have htext : (Str.ofString ", ").intercalate (dumpsItems (item :: item' :: items)) ++
          ofChar ']' :: rest =
          dumps item ++ ofChar ',' :: ofChar ' ' ::
            ((Str.ofString ", ").intercalate (dumpsItems (item' :: items)) ++ ofChar ']' ::
                rest) := by
        rw [dumpsItems, dumpsItems, List.intercalate_cons_cons, List.append_assoc,
          List.append_assoc]
        rfl
      rw [htext]
      refine scanItems_more float (scanOnce_dumps item h.1 (delimited_cons (by decide) _)) ?_
      have hitems := scanItems_dumps (item' :: items) (by simp) h.2 rest
      obtain ⟨p, s, heq, hstarts⟩ := dumpsItems_starts float h.2
      rw [heq] at hitems ⊢
      rw [skipSpace_space, List.cons_append, skipSpace_of_starts hstarts]
      exact hitems

/-- The members of an object are read back, behind those that were read before. -/
theorem scanMembers_dumps : (members : List (Str × Json)) → members ≠ [] →
    WellFormedMembers float members → ∀ before : List (Str × Json),
    ((before ++ members).map (·.1)).Nodup → ∀ rest,
    ∃ n, scanMembers float n before
      ((Str.ofString ", ").intercalate (dumpsMembers members) ++ ofChar '\x7d' :: rest) =
      some (.obj (before ++ members), rest)
  | [], hne, _, _, _, _ => absurd rfl hne
  | [(key, value)], _, h, before, hnodup, rest => by
      have hkey : key ∉ before.map (·.1) := by
        rw [List.map_append, List.nodup_append] at hnodup
        exact fun hmem => hnodup.2.2 key hmem key (by simp) rfl
      rw [dumpsMembers, dumpsMembers, List.intercalate_singleton, ← setItem_of_not_mem hkey,
        List.append_assoc]
      exact scanMembers_last float (skipSpace_dumps float h.1 _)
        (scanOnce_dumps value h.1 (delimited_cons (by decide) rest))
  | (key, value) :: m :: members, _, h, before, hnodup, rest => by
      have hkey : key ∉ before.map (·.1) := by
        rw [List.map_append, List.nodup_append] at hnodup
        exact fun hmem => hnodup.2.2 key hmem key (by simp) rfl
      have htext : (Str.ofString ", ").intercalate (dumpsMembers ((key, value) :: m :: members)) ++
          ofChar '\x7d' :: rest = quote key ++ Str.ofString ": " ++
            (dumps value ++ ofChar ',' :: ofChar ' ' ::
            ((Str.ofString ", ").intercalate (dumpsMembers (m :: members)) ++
                ofChar '\x7d' :: rest)) := by
        obtain ⟨key', value'⟩ := m
        rw [dumpsMembers, dumpsMembers, List.intercalate_cons_cons]
        simp only [List.append_assoc]
        rfl
      rw [htext]
      refine scanMembers_more float (skipSpace_dumps float h.1 _)
        (scanOnce_dumps value h.1 (delimited_cons (by decide) _)) ?_
      have hassoc : before ++ (key, value) :: m :: members = (before ++ [(key, value)]) ++
          m :: members := by
        rw [List.append_assoc]
        rfl
      rw [hassoc] at hnodup ⊢
      have hmembers := scanMembers_dumps (m :: members) (by simp) h.2 _ hnodup rest
      obtain ⟨s, heq⟩ := dumpsMembers_starts m members
      rw [heq] at hmembers ⊢
      rw [skipSpace_space, List.cons_append, skipSpace_of_starts (by decide),
        setItem_of_not_mem hkey]
      exact hmembers

end

/-- **`json.loads` inverts `json.dumps`** on well-formed values. -/
theorem loads_dumps {j : Json} (h : j.WellFormed float) : loads float (dumps j) = some j := by
  obtain ⟨n, hscan⟩ := scanOnce_dumps float j h delimited_nil
  have hskip := skipSpace_dumps float h []
  rw [List.append_nil] at hscan hskip
  exact (loads_eq_some float).mpr ⟨n, [], by rw [hskip]; exact hscan, rfl⟩

/-! ## What is read is well formed -/

/-- The floats of numerals print as floats do. -/
def FloatsPrint : Prop :=
  ∀ s n rest, scanNumeral s = some (n, rest) → n.isInt = false → IsFloatText float (float n)

variable {float}

/-- A new key is the last one, and a known key leaves the keys as they are. -/
theorem keys_setItem (members : List (Str × Json)) (key : Str) (value : Json) :
    (setItem members key value).map (·.1) =
      if key ∈ members.map (·.1) then members.map (·.1) else members.map (·.1) ++ [key] := by
  induction members with
  | nil => rfl
  | cons m members ih =>
      rw [setItem]
      split_ifs with hkey hmem hmem
      · rw [List.map_cons, List.map_cons, hkey]
      · rw [List.map_cons, List.mem_cons, not_or] at hmem
        exact absurd hkey.symm hmem.1
      · rw [List.map_cons, List.mem_cons] at hmem
        rw [List.map_cons, List.map_cons, ih, if_pos (hmem.resolve_left (Ne.symm hkey))]
      · rw [List.map_cons, List.mem_cons, not_or] at hmem
        rw [List.map_cons, List.map_cons, ih, if_neg hmem.2, List.cons_append]

/-- No key comes twice. -/
theorem nodup_setItem {members : List (Str × Json)} (h : (members.map (·.1)).Nodup) (key : Str)
    (value : Json) : ((setItem members key value).map (·.1)).Nodup := by
  rw [keys_setItem]
  split_ifs with hmem
  · exact h
  · rw [← List.concat_eq_append]
    exact List.Nodup.concat hmem h

theorem wellFormedMembers_setItem {members : List (Str × Json)}
    (h : WellFormedMembers float members) (key : Str) {value : Json}
    (hvalue : value.WellFormed float) :
    WellFormedMembers float (setItem members key value) := by
  induction members with
  | nil => exact ⟨hvalue, trivial⟩
  | cons m members ih =>
      obtain ⟨k, v⟩ := m
      rw [setItem]
      split_ifs
      · exact ⟨hvalue, h.2⟩
      · exact ⟨h.1, ih h.2⟩

theorem wellFormed_of_scanAtom (hfloat : FloatsPrint float) {s rest : Str} {j : Json}
    (h : scanAtom float s = some (j, rest)) : j.WellFormed float := by
  rcases scanAtom_cases float h with ⟨literal, hmem, -⟩ | ⟨n, hnumeral, rfl⟩
  · unfold literals at hmem
    simp only [List.mem_cons, List.not_mem_nil, or_false] at hmem
    -- `null`, `true`, `false`, and the three numbers that JSON does not have
    rcases hmem with heq | heq | heq | heq | heq | heq
    · cases heq
      trivial
    · cases heq
      trivial
    · cases heq
      trivial
    · cases heq
      exact .inl rfl
    · cases heq
      exact .inr (.inl rfl)
    · cases heq
      exact .inr (.inr (.inl rfl))
  · unfold Numeral.value
    split_ifs with hint
    · trivial
    · exact hfloat s n rest hnumeral (by simpa using hint)

/-- What the scanner returns is well formed. -/
theorem wellFormed_of_scan (hfloat : FloatsPrint float) (n : ℕ) :
    (∀ {s j rest}, scanOnce float n s = some (j, rest) → j.WellFormed float) ∧
      (∀ {s items rest}, scanItems float n s = some (items, rest) → WellFormedItems float items) ∧
      ∀ {members s j rest}, scanMembers float n members s = some (j, rest) →
        (members.map (·.1)).Nodup → WellFormedMembers float members → j.WellFormed float := by
  induction n with
  | zero =>
      refine ⟨fun h => ?_, fun h => ?_, fun h => ?_⟩
      · rw [scanOnce] at h
        cases h
      · rw [scanItems] at h
        cases h
      · rw [scanMembers] at h
        cases h
  | succ n ih =>
      obtain ⟨ihOnce, ihItems, ihMembers⟩ := ih
      refine ⟨fun h => ?_, fun h => ?_, fun h hnodup hmembers => ?_⟩
      · -- the value that was scanned: a string, an object, an array, or an atom
        obtain ⟨p, s', rfl, hcase⟩ := (scanOnce_eq_some float).mp h
        rcases hcase with ⟨-, t, -, rfl⟩ | ⟨-, ⟨-, rfl⟩ | ⟨q, r, -, -, hmembers⟩⟩ |
          ⟨-, ⟨-, rfl⟩ | ⟨q, r, items, -, -, hitems, rfl⟩⟩ | ⟨-, hatom⟩
        · trivial
        · exact ⟨List.nodup_nil, trivial⟩
        · exact ihMembers hmembers List.nodup_nil trivial
        · trivial
        · exact ihItems hitems
        · exact wellFormed_of_scanAtom hfloat hatom
      · obtain ⟨item, r, q, r', hitem, -, hcase⟩ := (scanItems_eq_some float).mp h
        rcases hcase with ⟨-, rfl, -⟩ | ⟨-, items', hitems, rfl⟩
        · exact ⟨ihOnce hitem, trivial⟩
        · exact ⟨ihOnce hitem, ihItems hitems⟩
      · obtain ⟨s', key, r, value, r', q, r'', -, -, hvalue, -, hcase⟩ :=
          (scanMembers_eq_some float).mp h
        -- a key that comes again replaces its value, so the keys stay distinct
        have hnodup' := nodup_setItem hnodup key value
        have hmembers' := wellFormedMembers_setItem hmembers key (ihOnce hvalue)
        rcases hcase with ⟨-, rfl, -⟩ | ⟨-, hrest⟩
        · exact ⟨hnodup', hmembers'⟩
        · exact ihMembers hrest hnodup' hmembers'

/-- **What `json.loads` returns is well formed.** -/
theorem wellFormed_of_loads (hfloat : FloatsPrint float) {s : Str} {j : Json}
    (h : loads float s = some j) : j.WellFormed float := by
  obtain ⟨n, rest, hscan, -⟩ := (loads_eq_some float).mp h
  exact (wellFormed_of_scan hfloat n).1 hscan

end SynGateway.Python
