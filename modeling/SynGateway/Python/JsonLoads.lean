import SynGateway.Python.Json

/-!
# `json.loads`

The scanner of Python's `json` module, on a `str`. What the float of a numeral prints as is the
parameter `float`; the interpreter's guards against deep nesting and long integers are left out.

Nested values take fuel. `loads` starts with enough of it for any text (`scan_fuel`), so it
never rejects a text for want of it.
-/

namespace SynGateway.Python

open CodePoint

/-! ## White space and literals -/

/-- The white space of JSON. -/
def isJsonSpace (p : CodePoint) :
    Bool := p = ofChar ' ' || p = ofChar '\t' || p = ofChar '\n' || p = ofChar '\r'

def skipSpace (s : Str) : Str := s.dropWhile isJsonSpace

/-- `s[idx:idx + len(literal)] == literal`, with what follows. -/
def scanLiteral (literal : String) (s : Str) : Option Str :=
  if (Str.ofString literal).isPrefixOf s then some (s.drop literal.length) else none

/-! ## Numbers -/

def isDigit (p : CodePoint) : Bool := 0x30 ≤ p.val && p.val ≤ 0x39

/-- The groups of `NUMBER_RE`. -/
structure Numeral where
  integer : Str
  fraction : Str
  exponent : Str

namespace Numeral

/-- The text that matched. -/
def render (n : Numeral) : Str := n.integer ++ n.fraction ++ n.exponent

def isInt (n : Numeral) : Bool := n.fraction = [] && n.exponent = []

end Numeral

/-- One of the signs, if there is one. -/
def scanSign (signs s : Str) : Str × Str :=
  match s with
  | [] => ([], [])
  | p :: rest => if p ∈ signs then ([p], rest) else ([], s)

/-- `-?(?:0|[1-9]\d*)`. -/
def scanInteger (s : Str) : Option (Str × Str) :=
  let (sign, s) := scanSign [ofChar '-'] s
  match s with
  | [] => none
  | p :: rest =>
    if p = ofChar '0' then some (sign ++ [p], rest)
    else if isDigit p then some (sign ++ s.takeWhile isDigit, s.dropWhile isDigit)
    else none

/-- `(\.\d+)?`. -/
def scanFraction (s : Str) : Str × Str :=
  match s with
  | [] => ([], [])
  | p :: rest =>
    if p = ofChar '.' ∧ rest.takeWhile isDigit ≠ [] then
      (p :: rest.takeWhile isDigit, rest.dropWhile isDigit)
    else ([], s)

/-- `([eE][-+]?\d+)?`. -/
def scanExponent (s : Str) : Str × Str :=
  match s with
  | [] => ([], [])
  | p :: rest =>
    let (sign, digits) := scanSign [ofChar '-', ofChar '+'] rest
    if (p = ofChar 'e' ∨ p = ofChar 'E') ∧ digits.takeWhile isDigit ≠ [] then
      (p :: (sign ++ digits.takeWhile isDigit), digits.dropWhile isDigit)
    else ([], s)

/-- `match_number`. -/
def scanNumeral (s : Str) : Option (Numeral × Str) := do
  let (integer, s) ← scanInteger s
  let (fraction, s) := scanFraction s
  let (exponent, s) := scanExponent s
  return ({ integer, fraction, exponent }, s)

/-- `int(integer)`. -/
def intOf (integer : Str) : ℤ :=
  let value (digits : Str) : ℕ := Nat.ofDigitChars 10 (digits.map fun p => Char.ofNat p.val) 0
  match integer with
  | [] => 0
  | p :: digits => if p = ofChar '-' then -(value digits : ℤ) else value integer

/-! ## Strings -/

/-- The value of a hexadecimal digit. -/
def hexValue (p : CodePoint) : Option ℕ :=
  if isDigit p then some (p.val - 0x30)
  else if 0x61 ≤ p.val ∧ p.val ≤ 0x66 then some (p.val - 0x61 + 10)
  else if 0x41 ≤ p.val ∧ p.val ≤ 0x46 then some (p.val - 0x41 + 10)
  else none

/-- `_decode_uXXXX`. -/
def scanHex : Str → Option (ℕ × Str)
  | a :: b :: c :: d :: rest => do
    let a ← hexValue a
    let b ← hexValue b
    let c ← hexValue c
    let d ← hexValue d
    return (((a * 16 + b) * 16 + c) * 16 + d, rest)
  | _ => none

/-- What a `\u`-escape stands for: with the escape behind it, if the two are a surrogate pair. -/
def joinSurrogates (high : ℕ) (s : Str) : CodePoint × Str :=
  let alone := (Fin.ofNat _ high, s)
  if 0xD800 ≤ high ∧ high ≤ 0xDBFF then
    match scanLiteral "\\u" s with
    | none => alone
    | some rest =>
      match scanHex rest with
      | none => alone
      | some (low, rest) =>
        if 0xDC00 ≤ low ∧ low ≤ 0xDFFF then
          (Fin.ofNat _ (0x10000 + (high - 0xD800) * 0x400 + (low - 0xDC00)), rest)
        else alone
  else alone

/-- `BACKSLASH`. -/
def backslash (p : CodePoint) : Option CodePoint :=
  if p = ofChar '"' ∨ p = ofChar '\\' ∨ p = ofChar '/' then some p
  else if p = ofChar 'b' then some 0x08
  else if p = ofChar 'f' then some 0x0C
  else if p = ofChar 'n' then some (ofChar '\n')
  else if p = ofChar 'r' then some (ofChar '\r')
  else if p = ofChar 't' then some (ofChar '\t')
  else none

/-- An escape, behind its backslash. -/
def scanEscape : Str → Option (CodePoint × Str)
  | [] => none
  | p :: s =>
    if p = ofChar 'u' then (scanHex s).map fun (code, rest) => joinSurrogates code rest
    else (backslash p).map fun q => (q, s)

/-- A literal is read where the text begins with it. -/
theorem scanLiteral_eq_some {literal : String} {s rest : Str} :
    scanLiteral literal s = some rest ↔ s = Str.ofString literal ++ rest := by
  have hlength : (Str.ofString literal).length = literal.length := List.length_map _
  unfold scanLiteral
  constructor
  · intro h
    split at h
    · next hprefix =>
        obtain ⟨t, rfl⟩ := List.isPrefixOf_iff_prefix.mp hprefix
        rw [← Option.some.inj h, ← hlength, List.drop_left]
    · cases h
  · rintro rfl
    rw [if_pos (List.isPrefixOf_iff_prefix.mpr (List.prefix_append _ _)), ← hlength, List.drop_left]

/-- Hexadecimal digits are consumed. -/
theorem length_of_scanHex {s rest : Str} {n : ℕ} (h : scanHex s = some (n, rest)) :
    rest.length < s.length := by
  unfold scanHex at h
  split at h
  · simp only [Option.bind_eq_bind, Option.bind_eq_some_iff] at h
    obtain ⟨_, _, _, _, _, _, _, _, hrest⟩ := h
    cases hrest
    simp only [List.length_cons]
    omega
  · cases h

/-- A second surrogate is consumed, or nothing. -/
theorem length_joinSurrogates (high : ℕ) (s : Str) :
    (joinSurrogates high s).2.length ≤ s.length := by
  unfold joinSurrogates
  dsimp only
  split_ifs
  · split
    · exact le_rfl
    · next rest hliteral =>
        split
        · exact le_rfl
        · next low rest' hhex =>
            have hlen := congrArg List.length (scanLiteral_eq_some.mp hliteral)
            have hlt := length_of_scanHex hhex
            rw [List.length_append] at hlen
            -- only a low surrogate is joined, and consumed with the high one
            split_ifs
            · dsimp only
              omega
            · exact le_rfl
  · exact le_rfl

/-- An escape is consumed. -/
theorem length_of_scanEscape {s rest : Str} {p : CodePoint} (h : scanEscape s = some (p, rest)) :
    rest.length < s.length := by
  unfold scanEscape at h
  split at h
  · cases h
  · next q s =>
      split at h
      · obtain ⟨⟨code, rest'⟩, hhex, heq⟩ := Option.map_eq_some_iff.mp h
        have hlt := length_of_scanHex hhex
        have hle := length_joinSurrogates code rest'
        dsimp only at heq
        -- behind `u`: the digits, and a second escape where they are a high surrogate
        rw [heq] at hle
        simp only [List.length_cons]
        dsimp only at hle
        omega
      · obtain ⟨q', -, heq⟩ := Option.map_eq_some_iff.mp h
        cases heq
        simp

/-- `scanstring`, behind the opening quote. -/
def scanString (s : Str) : Option (Str × Str) :=
  match s with
  | [] => none
  | p :: s =>
    if p = ofChar '"' then some ([], s)
    else if p = ofChar '\\' then
      match _h : scanEscape s with
      | none => none
      | some (q, rest) => (scanString rest).map fun (t, rest) => (q :: t, rest)
    else if p.val < 0x20 then none
    else (scanString s).map fun (t, rest) => (p :: t, rest)
termination_by s.length
decreasing_by
  · have hlt := length_of_scanEscape _h
    simp only [List.length_cons]
    omega
  · simp

/-- A key, behind its opening quote, with its colon. -/
def scanKey (s : Str) : Option (Str × Str) := do
  let (key, rest) ← scanString s
  match skipSpace rest with
  | [] => none
  | q :: rest => if q = ofChar ':' then return (key, skipSpace rest) else none

/-! ## Values -/

/-- The values that are spelled out. -/
def literals : List (String × Json) :=
  [("null", .null), ("true", .bool true), ("false", .bool false), ("NaN", .float "NaN".toList),
    ("Infinity", .float "Infinity".toList), ("-Infinity", .float "-Infinity".toList)]

variable (float : Numeral → Text)

/-- The value of a number. -/
def Numeral.value (numeral : Numeral) : Json :=
  if numeral.isInt then .int (intOf numeral.integer) else .float (float numeral)

/-- A literal or a number. -/
def scanAtom (s : Str) : Option (Json × Str) :=
  match literals.findSome? fun (literal, value) =>
    (scanLiteral literal s).map fun rest => (value, rest) with
  | some found => some found
  | none => (scanNumeral s).map fun (numeral, rest) => (numeral.value float, rest)

mutual

/-- `scan_once`. -/
def scanOnce : ℕ → Str → Option (Json × Str)
  | 0, _ => none
  | _, [] => none
  | n + 1, p :: s =>
    if p = ofChar '"' then (scanString s).map fun (t, rest) => (.str t, rest)
    else if p = ofChar '\x7b' then
      match skipSpace s with
      | [] => none
      | q :: rest => if q = ofChar '\x7d' then some (.obj [], rest)
          else scanMembers n [] (q :: rest)
    else if p = ofChar '[' then
      match skipSpace s with
      | [] => none
      | q :: rest =>
        if q = ofChar ']' then some (.arr [], rest)
        else (scanItems n (q :: rest)).map fun (items, rest) => (.arr items, rest)
    else scanAtom float (p :: s)

/-- `JSONArray`, from its first item on. -/
def scanItems : ℕ → Str → Option (List Json × Str)
  | 0, _ => none
  | n + 1, s => do
    let (item, rest) ← scanOnce n s
    match skipSpace rest with
    | [] => none
    | q :: rest =>
      if q = ofChar ']' then return ([item], rest)
      else if q = ofChar ',' then do
        let (items, rest) ← scanItems n (skipSpace rest)
        return (item :: items, rest)
      else none

/-- `JSONObject`, from its next key on; `members` are the items of the `dict` so far. -/
def scanMembers : ℕ → List (Str × Json) → Str → Option (Json × Str)
  | 0, _, _ => none
  | _, _, [] => none
  | n + 1, members, p :: s =>
    if p = ofChar '"' then do
      let (key, rest) ← scanKey s
      let (value, rest) ← scanOnce n rest
      let members := setItem members key value
      match skipSpace rest with
      | [] => none
      | q :: rest =>
        if q = ofChar '\x7d' then return (.obj members, rest)
        else if q = ofChar ',' then scanMembers n members (skipSpace rest)
        else none
    else none

end

/-- `json.loads(s)`; `none` is the `JSONDecodeError`. -/
def loads (s : Str) : Option Json := do
  let s := skipSpace s
  let (value, rest) ← scanOnce float (2 * s.length + 1) s
  if skipSpace rest = [] then return value else none

/-! ## The fuel is enough -/

/-- White space is consumed, or nothing. -/
theorem length_skipSpace (s : Str) : (skipSpace s).length ≤ s.length :=
  (List.dropWhile_sublist _).length_le

/-- A string is consumed. -/
theorem length_of_scanString {s t rest : Str} (h : scanString s = some (t, rest)) :
    rest.length < s.length := by
  induction s using scanString.induct generalizing t with
  | case1 => simp [scanString] at h
  | case2 s =>
      rw [scanString, if_pos rfl] at h
      cases h
      simp
  | case3 s hescape =>
      rw [scanString, if_neg (by decide), if_pos rfl] at h
      split at h
      · cases h
      · next q rest' hsome => simp [hescape] at hsome
  | case4 s q rest' hescape _ ih =>
      rw [scanString, if_neg (by decide), if_pos rfl] at h
      split at h
      · cases h
      · next q' rest'' hsome =>
          rw [hescape] at hsome
          cases hsome
          -- an escape, and the string behind it
          obtain ⟨⟨t', r⟩, hrec, heq⟩ := Option.map_eq_some_iff.mp h
          cases heq
          have hlt := ih hrec
          have hesc := length_of_scanEscape hescape
          simp only [List.length_cons]
          omega
  | case5 p s hq hp hcontrol =>
      rw [scanString, if_neg hq, if_neg hp, if_pos hcontrol] at h
      cases h
  | case6 p s hq hp hcontrol ih =>
      rw [scanString, if_neg hq, if_neg hp, if_neg hcontrol] at h
      obtain ⟨⟨t', r⟩, hrec, heq⟩ := Option.map_eq_some_iff.mp h
      cases heq
      have hlt := ih hrec
      simp only [List.length_cons]
      omega

/-- A sign is consumed, or nothing. -/
theorem length_scanSign (signs s : Str) : (scanSign signs s).2.length ≤ s.length := by
  unfold scanSign
  split
  · exact le_rfl
  · split_ifs <;> simp

/-- An integer is consumed. -/
theorem length_of_scanInteger {s t rest : Str} (h : scanInteger s = some (t, rest)) :
    rest.length < s.length := by
  have hle := length_scanSign [ofChar '-'] s
  unfold scanInteger at h
  dsimp only at h
  split at h
  · cases h
  · next p rest' hdrop =>
      rw [hdrop, List.length_cons] at hle
      split_ifs at h with hzero hdigit
      · cases h
        omega
      · cases h
        rw [hdrop, List.dropWhile_cons_of_pos hdigit]
        have hsub := (List.dropWhile_sublist isDigit (l := rest')).length_le
        omega

/-- A fraction is consumed, or nothing. -/
theorem length_scanFraction (s : Str) : (scanFraction s).2.length ≤ s.length := by
  unfold scanFraction
  split
  · exact le_rfl
  · next p rest =>
      split_ifs
      · have hsub := (List.dropWhile_sublist isDigit (l := rest)).length_le
        simp only [List.length_cons]
        omega
      · exact le_rfl

/-- An exponent is consumed, or nothing. -/
theorem length_scanExponent (s : Str) : (scanExponent s).2.length ≤ s.length := by
  unfold scanExponent
  split
  · exact le_rfl
  · next p rest =>
      have hsign := length_scanSign [ofChar '-', ofChar '+'] rest
      dsimp only
      split_ifs
      · have hsub := (List.dropWhile_sublist isDigit
          (l := (scanSign [ofChar '-', ofChar '+'] rest).2)).length_le
        simp only [List.length_cons]
        omega
      · exact le_rfl

/-- The groups match one after the other. -/
theorem scanNumeral_eq_some {s rest : Str} {n : Numeral} :
    scanNumeral s = some (n, rest) ↔ ∃ integer s₁, scanInteger s = some (integer, s₁) ∧
      n = ⟨integer, (scanFraction s₁).1, (scanExponent (scanFraction s₁).2).1⟩ ∧
      rest = (scanExponent (scanFraction s₁).2).2 := by
  unfold scanNumeral
  simp only [Option.bind_eq_bind, Option.bind_eq_some_iff, Option.pure_def, Option.some.injEq,
    Prod.mk.injEq, Prod.exists]
  constructor
  · rintro ⟨integer, s₁, hinteger, hn, hrest⟩
    exact ⟨integer, s₁, hinteger, hn.symm, hrest.symm⟩
  · rintro ⟨integer, s₁, hinteger, hn, hrest⟩
    exact ⟨integer, s₁, hinteger, hn.symm, hrest.symm⟩

/-- A number is consumed. -/
theorem length_of_scanNumeral {s rest : Str} {n : Numeral} (h : scanNumeral s = some (n, rest)) :
    rest.length < s.length := by
  obtain ⟨integer, s₁, hinteger, -, rfl⟩ := scanNumeral_eq_some.mp h
  have hlt := length_of_scanInteger hinteger
  have hfraction := length_scanFraction s₁
  have hexponent := length_scanExponent (scanFraction s₁).2
  omega

/-- An atom is a literal or a number. -/
theorem scanAtom_cases {s rest : Str} {j : Json} (h : scanAtom float s = some (j, rest)) :
    (∃ literal, (literal, j) ∈ literals ∧ scanLiteral literal s = some rest) ∨
      ∃ n, scanNumeral s = some (n, rest) ∧ j = n.value float := by
  unfold scanAtom at h
  split at h
  · next found hfound =>
      obtain rfl := Option.some.inj h
      obtain ⟨⟨literal, value⟩, hmem, hliteral⟩ := List.exists_of_findSome?_eq_some hfound
      obtain ⟨rest', hscan, heq⟩ := Option.map_eq_some_iff.mp hliteral
      obtain ⟨rfl, rfl⟩ := Prod.mk.inj heq
      exact .inl ⟨literal, hmem, hscan⟩
  · obtain ⟨⟨n, r⟩, hnumeral, heq⟩ := Option.map_eq_some_iff.mp h
    obtain ⟨rfl, rfl⟩ := Prod.mk.inj heq
    exact .inr ⟨n, hnumeral, rfl⟩

/-- An atom is consumed. -/
theorem length_of_scanAtom {s rest : Str} {j : Json} (h : scanAtom float s = some (j, rest)) :
    rest.length < s.length := by
  rcases scanAtom_cases float h with ⟨literal, hmem, hscan⟩ | ⟨n, hnumeral, -⟩
  · have hpos : ∀ l ∈ literals, 0 < (Str.ofString l.1).length := by decide
    have hlen := congrArg List.length (scanLiteral_eq_some.mp hscan)
    have hlt : 0 < (Str.ofString literal).length := hpos _ hmem
    rw [List.length_append] at hlen
    omega
  · exact length_of_scanNumeral hnumeral

/-- A key is consumed with its colon. -/
theorem length_of_scanKey {s t rest : Str} (h : scanKey s = some (t, rest)) :
    rest.length < s.length := by
  obtain ⟨⟨key, r⟩, hstring, hrest⟩ := Option.bind_eq_some_iff.mp h
  have hlt := length_of_scanString hstring
  have hskip := length_skipSpace r
  dsimp only at hrest
  split at hrest
  · cases hrest
  · next q r' heq =>
      rw [heq, List.length_cons] at hskip
      split_ifs at hrest
      cases hrest
      have hskip' := length_skipSpace r'
      omega

/-- An array goes on after a comma and ends at its bracket. -/
theorem scanItems_eq_some {n : ℕ} {s rest : Str} {items : List Json} :
    scanItems float (n + 1) s = some (items, rest) ↔
      ∃ item r q r', scanOnce float n s = some (item, r) ∧ skipSpace r = q :: r' ∧
        (q = ofChar ']' ∧ items = [item] ∧ rest = r' ∨
          q = ofChar ',' ∧ ∃ items', scanItems float n (skipSpace r') = some (items', rest) ∧
            items = item :: items') := by
  rw [scanItems, Option.bind_eq_bind, Option.bind_eq_some_iff]
  constructor
  · rintro ⟨⟨item, r⟩, hitem, hrest⟩
    dsimp only at hrest
    split at hrest
    · cases hrest
    · next q r' hskip =>
        refine ⟨item, r, q, r', hitem, hskip, ?_⟩
        split_ifs at hrest with hclose hcomma
        · cases hrest
          -- the bracket closes the array
          exact .inl ⟨hclose, rfl, rfl⟩
        · obtain ⟨⟨items', r''⟩, hitems, heq⟩ := Option.bind_eq_some_iff.mp hrest
          cases heq
          -- a comma: more items behind it
          exact .inr ⟨hcomma, items', hitems, rfl⟩
  · rintro ⟨item, r, q, r', hitem, hskip, hcase⟩
    refine ⟨(item, r), hitem, ?_⟩
    dsimp only
    rw [hskip]
    dsimp only
    rcases hcase with ⟨rfl, rfl, rfl⟩ | ⟨rfl, items', hitems, rfl⟩
    · rw [if_pos rfl]
      rfl
    · rw [if_neg (by decide), if_pos rfl, Option.bind_eq_bind, hitems]
      rfl

/-- An object goes on after a comma and ends at its brace. -/
theorem scanMembers_eq_some {n : ℕ} {members : List (Str × Json)} {s rest : Str} {j : Json} :
    scanMembers float (n + 1) members s = some (j, rest) ↔
      ∃ s' key r value r' q r'', s = ofChar '"' :: s' ∧ scanKey s' = some (key, r) ∧
        scanOnce float n r = some (value, r') ∧ skipSpace r' = q :: r'' ∧
        (q = ofChar '\x7d' ∧ j = .obj (setItem members key value) ∧ rest = r'' ∨
          q = ofChar ',' ∧
            scanMembers float n (setItem members key value) (skipSpace r'') = some (j, rest)) := by
  cases s with
  | nil =>
      have hnil : scanMembers float (n + 1) members [] = none := by simp [scanMembers]
      rw [hnil]
      constructor
      · intro h
        cases h
      · rintro ⟨s', _, _, _, _, _, _, hs, -⟩
        cases hs
  | cons p s =>
      rw [scanMembers]
      constructor
      · intro h
        split_ifs at h with hquote
        obtain ⟨⟨key, r⟩, hkey, hvalue⟩ := Option.bind_eq_some_iff.mp h
        obtain ⟨⟨value, r'⟩, hvalue, hrest⟩ := Option.bind_eq_some_iff.mp hvalue
        dsimp only at hrest
        split at hrest
        · cases hrest
        · next q r'' hskip =>
            refine ⟨s, key, r, value, r', q, r'', by rw [hquote], hkey, hvalue, hskip, ?_⟩
            split_ifs at hrest with hclose hcomma
            · cases hrest
              -- the brace closes the object
              exact .inl ⟨hclose, rfl, rfl⟩
            · exact .inr ⟨hcomma, hrest⟩
      · rintro ⟨s', key, r, value, r', q, r'', hs, hkey, hvalue, hskip, hcase⟩
        cases hs
        rw [if_pos rfl, Option.bind_eq_bind, hkey, Option.bind_some]
        dsimp only
        rw [Option.bind_eq_bind, hvalue, Option.bind_some]
        dsimp only
        rw [hskip]
        dsimp only
        rcases hcase with ⟨rfl, rfl, rfl⟩ | ⟨rfl, hmembers⟩
        · rw [if_pos rfl]
          rfl
        · rw [if_neg (by decide), if_pos rfl]
          exact hmembers

/-- What a value can be. -/
theorem scanOnce_eq_some {n : ℕ} {s rest : Str} {j : Json} :
    scanOnce float (n + 1) s = some (j, rest) ↔
    ∃ p s', s = p :: s' ∧
      (p = ofChar '"' ∧ (∃ t, scanString s' = some (t, rest) ∧ j = .str t) ∨
        p = ofChar '\x7b' ∧ (skipSpace s' = ofChar '\x7d' :: rest ∧ j = .obj [] ∨
          ∃ q r, skipSpace s' = q :: r ∧ q ≠ ofChar '\x7d' ∧
            scanMembers float n [] (q :: r) = some (j, rest)) ∨
        p = ofChar '[' ∧ (skipSpace s' = ofChar ']' :: rest ∧ j = .arr [] ∨
          ∃ q r items, skipSpace s' = q :: r ∧ q ≠ ofChar ']' ∧
            scanItems float n (q :: r) = some (items, rest) ∧ j = .arr items) ∨
        (p ≠ ofChar '"' ∧ p ≠ ofChar '\x7b' ∧ p ≠ ofChar '[') ∧ scanAtom float s = some (j, rest)) := by
  cases s with
  | nil => simp [scanOnce]
  | cons p s =>
      rw [scanOnce]
      constructor
      · intro h
        refine ⟨p, s, rfl, ?_⟩
        split_ifs at h with hquote hbrace hbracket
        · obtain ⟨⟨t, r⟩, hstring, heq⟩ := Option.map_eq_some_iff.mp h
          cases heq
          -- a string, an object, an array, or an atom
          exact .inl ⟨hquote, t, hstring, rfl⟩
        · refine .inr (.inl ⟨hbrace, ?_⟩)
          split at h
          · cases h
          · next q r hskip =>
              rw [hskip]
              split_ifs at h with hclose
              · cases h
                exact .inl ⟨by rw [hclose], rfl⟩
              · exact .inr ⟨q, r, rfl, hclose, h⟩
        · refine .inr (.inr (.inl ⟨hbracket, ?_⟩))
          split at h
          · cases h
          · next q r hskip =>
              rw [hskip]
              split_ifs at h with hclose
              · cases h
                exact .inl ⟨by rw [hclose], rfl⟩
              · obtain ⟨⟨items, r'⟩, hitems, heq⟩ := Option.map_eq_some_iff.mp h
                cases heq
                exact .inr ⟨q, r, items, rfl, hclose, hitems, rfl⟩
        · exact .inr (.inr (.inr ⟨⟨hquote, hbrace, hbracket⟩, h⟩))
      · rintro ⟨p', s', hs, hcase⟩
        cases hs
        rcases hcase with ⟨rfl, t, hstring, rfl⟩ |
          ⟨rfl, ⟨hskip, rfl⟩ | ⟨q, r, hskip, hclose, hmembers⟩⟩ |
          ⟨rfl, ⟨hskip, rfl⟩ | ⟨q, r, items, hskip, hclose, hitems, rfl⟩⟩ |
          ⟨⟨hquote, hbrace, hbracket⟩, hatom⟩
        · rw [if_pos rfl, hstring]
          rfl
        · rw [if_neg (by decide), if_pos rfl, hskip]
          dsimp only
          rw [if_pos rfl]
        · rw [if_neg (by decide), if_pos rfl, hskip]
          dsimp only
          rw [if_neg hclose, hmembers]
        · rw [if_neg (by decide), if_neg (by decide), if_pos rfl, hskip]
          dsimp only
          rw [if_pos rfl]
        · rw [if_neg (by decide), if_neg (by decide), if_pos rfl, hskip]
          dsimp only
          rw [if_neg hclose, hitems]
          rfl
        · rw [if_neg hquote, if_neg hbrace, if_neg hbracket, hatom]

/-- Every value takes at least one character. -/
theorem length_of_scan (n : ℕ) :
    (∀ {s j rest}, scanOnce float n s = some (j, rest) → rest.length < s.length) ∧
      (∀ {s items rest}, scanItems float n s = some (items, rest) → rest.length < s.length) ∧
      ∀ {members s j rest}, scanMembers float n members s = some (j, rest) →
      rest.length < s.length := by
  induction n with
  | zero =>
      refine ⟨fun h => ?_, fun h => ?_, fun h => ?_⟩
      · rw [scanOnce] at h
        cases h
      · rw [scanItems] at h
        cases h
      · rw [scanMembers] at h
        cases h
  | succ n ih =>
      -- The three scanners call each other, so one induction on the fuel serves all of them.
      obtain ⟨ihOnce, ihItems, ihMembers⟩ := ih
      refine ⟨fun h => ?_, fun h => ?_, fun h => ?_⟩
      · obtain ⟨p, s', rfl, hcase⟩ := (scanOnce_eq_some float).mp h
        have hskip := length_skipSpace s'
        rcases hcase with ⟨-, t, hstring, -⟩ | ⟨-, ⟨heq, -⟩ | ⟨q, r, heq, -, hmembers⟩⟩ |
          ⟨-, ⟨heq, -⟩ | ⟨q, r, items, heq, -, hitems, -⟩⟩ | ⟨-, hatom⟩
        · have hlt := length_of_scanString hstring
          simp only [List.length_cons]
          omega
        · rw [heq, List.length_cons] at hskip
          simp only [List.length_cons]
          omega
        · have hlt := ihMembers hmembers
          rw [heq] at hskip
          simp only [List.length_cons] at hlt hskip ⊢
          omega
        · rw [heq, List.length_cons] at hskip
          simp only [List.length_cons]
          omega
        · have hlt := ihItems hitems
          rw [heq] at hskip
          simp only [List.length_cons] at hlt hskip ⊢
          omega
        · exact length_of_scanAtom float hatom
      · obtain ⟨item, r, q, r', hitem, hskip, hcase⟩ := (scanItems_eq_some float).mp h
        have hlt := ihOnce hitem
        have hle := length_skipSpace r
        rw [hskip, List.length_cons] at hle
        rcases hcase with ⟨-, -, rfl⟩ | ⟨-, items', hitems, -⟩
        · omega
        · have hlt' := ihItems hitems
          have hle' := length_skipSpace r'
          omega
      · obtain ⟨s', key, r, value, r', q, r'', rfl, hkey, hvalue, hskip, hcase⟩ :=
          (scanMembers_eq_some float).mp h
        have hlt := length_of_scanKey hkey
        have hlt' := ihOnce hvalue
        have hle := length_skipSpace r'
        rw [hskip, List.length_cons] at hle
        simp only [List.length_cons]
        rcases hcase with ⟨-, -, rfl⟩ | ⟨-, hmembers⟩
        · omega
        · have hlt'' := ihMembers hmembers
          have hle' := length_skipSpace r''
          omega

/-- What any fuel finds, enough fuel finds: twice the length of the text. -/
theorem scan_fuel (n : ℕ) :
    (∀ {s j rest m}, scanOnce float n s = some (j, rest) → 2 * s.length ≤ m →
        scanOnce float m s = some (j, rest)) ∧
      (∀ {s items rest m}, scanItems float n s = some (items, rest) → 2 * s.length + 1 ≤ m →
        scanItems float m s = some (items, rest)) ∧
      ∀ {members s j rest m}, scanMembers float n members s = some (j, rest) →
        2 * s.length + 1 ≤ m →
        scanMembers float m members s = some (j, rest) := by
  induction n with
  | zero =>
      refine ⟨fun h => ?_, fun h => ?_, fun h => ?_⟩
      · rw [scanOnce] at h
        cases h
      · rw [scanItems] at h
        cases h
      · rw [scanMembers] at h
        cases h
  | succ n ih =>
      obtain ⟨ihOnce, ihItems, ihMembers⟩ := ih
      refine ⟨fun {s j rest m} h hm => ?_, fun {s items rest m} h hm => ?_,
        fun {members s j rest m} h hm => ?_⟩
      -- Behind a bracket the text is a character shorter: two units of fuel, of which this call
      -- takes one.
      · obtain ⟨p, s', rfl, hcase⟩ := (scanOnce_eq_some float).mp h
        rw [List.length_cons] at hm
        obtain ⟨m, rfl⟩ : ∃ m', m = m' + 1 := ⟨m - 1, by omega⟩
        have hskip := length_skipSpace s'
        refine (scanOnce_eq_some float).mpr ⟨p, s', rfl, ?_⟩
        rcases hcase with hstring | ⟨hp, hempty | ⟨q, r, heq, hq, hmembers⟩⟩ |
          ⟨hp, hempty | ⟨q, r, items, heq, hq, hitems, hj⟩⟩ | hatom
        · exact .inl hstring
        · exact .inr (.inl ⟨hp, .inl hempty⟩)
        · rw [heq] at hskip
          exact .inr (.inl ⟨hp, .inr ⟨q, r, heq, hq, ihMembers hmembers (by omega)⟩⟩)
        · exact .inr (.inr (.inl ⟨hp, .inl hempty⟩))
        · rw [heq] at hskip
          exact .inr (.inr (.inl ⟨hp, .inr ⟨q, r, items, heq, hq, ihItems hitems (by omega), hj⟩⟩))
        · exact .inr (.inr (.inr hatom))
      · obtain ⟨item, r, q, r', hitem, hskip, hcase⟩ := (scanItems_eq_some float).mp h
        obtain ⟨m, rfl⟩ : ∃ m', m = m' + 1 := ⟨m - 1, by omega⟩
        have hlt := (length_of_scan float n).1 hitem
        have hle := length_skipSpace r
        rw [hskip, List.length_cons] at hle
        have hle' := length_skipSpace r'
        refine (scanItems_eq_some float).mpr ⟨item, r, q, r', ihOnce hitem (by omega), hskip, ?_⟩
        rcases hcase with hclose | ⟨hcomma, items', hitems, heq⟩
        · exact .inl hclose
        · exact .inr ⟨hcomma, items', ihItems hitems (by omega), heq⟩
      · obtain ⟨s', key, r, value, r', q, r'', rfl, hkey, hvalue, hskip, hcase⟩ :=
          (scanMembers_eq_some float).mp h
        rw [List.length_cons] at hm
        obtain ⟨m, rfl⟩ : ∃ m', m = m' + 1 := ⟨m - 1, by omega⟩
        have hlt := length_of_scanKey hkey
        have hlt' := (length_of_scan float n).1 hvalue
        have hle := length_skipSpace r'
        rw [hskip, List.length_cons] at hle
        have hle' := length_skipSpace r''
        refine (scanMembers_eq_some float).mpr
          ⟨s', key, r, value, r', q, r'', rfl, hkey, ihOnce hvalue (by omega), hskip, ?_⟩
        rcases hcase with hclose | ⟨hcomma, hmembers⟩
        · exact .inl hclose
        · exact .inr ⟨hcomma, ihMembers hmembers (by omega)⟩

/-- A text is read when some fuel reads it. -/
theorem loads_eq_some {s : Str} {j : Json} :
    loads float s = some j ↔
      ∃ n rest, scanOnce float n (skipSpace s) = some (j, rest) ∧ skipSpace rest = [] := by
  unfold loads
  dsimp only
  rw [Option.bind_eq_bind, Option.bind_eq_some_iff]
  constructor
  · rintro ⟨⟨value, rest⟩, hscan, hrest⟩
    split_ifs at hrest with hend
    cases hrest
    exact ⟨_, rest, hscan, hend⟩
  · rintro ⟨n, rest, hscan, hend⟩
    refine ⟨(j, rest), (scan_fuel float n).1 hscan (by omega), ?_⟩
    dsimp only
    rw [if_pos hend]
    rfl

end SynGateway.Python
