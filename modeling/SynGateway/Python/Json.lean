import SynGateway.Common.Utf8.Decode
import SynGateway.Python.Text

/-!
# Python's JSON values and `json.dumps`

A Python `str` is a sequence of code points in which a surrogate may stand alone; `json.loads`
builds such strings from unpaired `\uD800`-escapes. `json.dumps(..., ensure_ascii=False)` copies
them, and `str.encode("utf-8")` refuses them.

`scalar_dumps` and `Str.encode_isSome_iff` say when the text of a value can be encoded: when no
string in it, as a value or as a key, holds a surrogate.
-/

namespace SynGateway.Python

open SynGateway.Utf8

/-! ## Code points -/

/-- An element of a Python `str`. -/
abbrev CodePoint := Fin 0x110000

/-- A Python `str`. -/
abbrev Str := List CodePoint

-- what the numerals of `CodePoint` ask for
instance neZero_codePoints : @NeZero ℕ Zero.ofOfNat0 0x110000 := ⟨by decide⟩

instance lawfulBEq_codePoint : LawfulBEq CodePoint := inferInstance

instance lawfulBEq_str : LawfulBEq Str := inferInstance

namespace CodePoint

/-- U+D800 to U+DFFF. -/
def isSurrogate (p : CodePoint) : Bool := 0xD800 ≤ p.val && p.val < 0xE000

def ofChar (c : Char) : CodePoint :=
  ⟨c.toNat, by
    rcases c.valid with h | ⟨_, h⟩
    · exact Nat.lt_trans h (by decide)
    · exact h⟩

/-- The character of a code point that is not a surrogate. -/
def toChar (p : CodePoint) : Option Char := if p.isSurrogate then none else some (Char.ofNat p.val)

/-- All code points but surrogates are characters. -/
@[simp] theorem toChar_isSome {p : CodePoint} : p.toChar.isSome = !p.isSurrogate := by
  rw [toChar]
  split <;> simp_all

/-- A character is no surrogate. -/
@[simp] theorem isSurrogate_ofChar (c : Char) : (ofChar c).isSurrogate = false := by
  have hval : (ofChar c).val = c.toNat := rfl
  rw [isSurrogate, hval]
  rcases c.valid with h | ⟨h, _⟩
  · have : c.toNat < 0xD800 := h
    simp only [Bool.and_eq_false_iff, decide_eq_false_iff_not]
    omega
  · have : 0xDFFF < c.toNat := h
    simp only [Bool.and_eq_false_iff, decide_eq_false_iff_not]
    omega

end CodePoint

namespace Str

def ofText (text : Text) : Str := text.map CodePoint.ofChar

def ofString (s : String) : Str := ofText s.toList

/-- `s.encode("utf-8")`; `none` is the `UnicodeEncodeError`. -/
def encode (s : Str) : Option (List UInt8) := (s.mapM CodePoint.toChar).map Utf8.encode

/-- No surrogate stands in `s`. -/
def Scalar (s : Str) : Prop := ∀ p ∈ s, p.isSurrogate = false

instance (s : Str) : Decidable s.Scalar := inferInstanceAs (Decidable (∀ p ∈ s, _))

variable {s t : Str}

/-- The empty string has no surrogate. -/
@[simp] theorem scalar_nil : Scalar [] := by simp [Scalar]

/-- A string has no surrogate when its first code point and its rest have none. -/
@[simp] theorem scalar_cons {p : CodePoint} :
    Scalar (p :: s) ↔ p.isSurrogate = false ∧ s.Scalar := by
  simp [Scalar]

/-- A string has no surrogate when its parts have none. -/
@[simp] theorem scalar_append : Scalar (s ++ t) ↔ s.Scalar ∧ t.Scalar := by
  unfold Scalar
  exact List.forall_mem_append

/-- A text of characters has no surrogate. -/
@[simp] theorem scalar_ofText (text : Text) : (ofText text).Scalar := by
  intro p hp
  obtain ⟨c, _, rfl⟩ := List.mem_map.mp hp
  exact CodePoint.isSurrogate_ofChar c

/-- A literal has no surrogate. -/
@[simp] theorem scalar_ofString (text : String) : (ofString text).Scalar := scalar_ofText _

/-- A string can be encoded when it holds no surrogate. -/
theorem encode_isSome_iff : s.encode.isSome ↔ s.Scalar := by
  rw [encode, Option.isSome_map]
  induction s with
  | nil => simp
  | cons p s ih =>
      have hchar := CodePoint.toChar_isSome (p := p)
      rw [List.mapM_cons, scalar_cons, ← ih]
      cases hp : p.toChar <;> cases hs : s.mapM CodePoint.toChar <;> simp_all

end Str

/-- `d[key] = value` on the items of a `dict`: a new key comes last. -/
def setItem {β : Type} (members : List (Str × β)) (key : Str) (value : β) : List (Str × β) :=
  match members with
  | [] => [(key, value)]
  | (k, v) :: rest => if k = key then (k, value) :: rest else (k, v) :: setItem rest key value

/-! ## Values -/

/-- A value that `json.loads` can return. `float` holds the text that `json.dumps` prints, and an
object its items in the order of the `dict`. -/
inductive Json
  | null
  | bool (b : Bool)
  | int (n : ℤ)
  | float (repr : Text)
  | str (s : Str)
  | arr (items : List Json)
  | obj (members : List (Str × Json))

namespace Json

/-- `Json.str` of a literal. -/
def text (s : String) : Json := str (Str.ofString s)

/-- `bool(value)`. -/
def truthy : Json → Bool
  | null => false
  | bool b => b
  | int n => n ≠ 0
  | float repr => repr ≠ "0.0".toList ∧ repr ≠ "-0.0".toList
  | str s => s ≠ []
  | arr items => !items.isEmpty
  | obj members => !members.isEmpty

/-- `d.get(key)` on the items of a `dict`, whose keys are distinct. -/
def dictGet (members : List (Str × Json)) (key : String) : Option Json :=
  members.lookup (Str.ofString key)

/-- `value or other`, where `value` may be `None` for want of a key. -/
def orElse (value : Option Json) (other : Json) : Json :=
  match value with
  | some v => if v.truthy then v else other
  | none => other

end Json

/-! ## `json.dumps(value, ensure_ascii=False)` -/

/-- `ESCAPE_DCT`, and `\u00..` for the other control characters. -/
def escape (p : CodePoint) : Str :=
  if p.val = 0x22 then Str.ofString "\\\""
  else if p.val = 0x5C then Str.ofString "\\\\"
  else if p.val = 0x0A then Str.ofString "\\n"
  else if p.val = 0x0D then Str.ofString "\\r"
  else if p.val = 0x09 then Str.ofString "\\t"
  else if p.val = 0x0C then Str.ofString "\\f"
  else if p.val = 0x08 then Str.ofString "\\b"
  else if p.val < 0x20 then
    Str.ofString "\\u00" ++ Str.ofText [Nat.digitChar (p.val / 16), Nat.digitChar (p.val % 16)]
  else [p]

def quote (s : Str) : Str := Str.ofString "\"" ++ s.flatMap escape ++ Str.ofString "\""

mutual

def dumps : Json → Str
  | .null => Str.ofString "null"
  | .bool b => Str.ofString (if b then "true" else "false")
  | .int n => Str.ofString (toString n)
  | .float repr => Str.ofText repr
  | .str s => quote s
  | .arr items => Str.ofString "[" ++ (Str.ofString ", ").intercalate (dumpsItems items) ++
      Str.ofString "]"
  | .obj members =>
    Str.ofString "\x7b" ++ (Str.ofString ", ").intercalate (dumpsMembers members) ++
      Str.ofString "\x7d"

def dumpsItems : List Json → List Str
  | [] => []
  | item :: items => dumps item :: dumpsItems items

def dumpsMembers : List (Str × Json) → List Str
  | [] => []
  | (key, value) :: members =>
      (quote key ++ Str.ofString ": " ++ dumps value) :: dumpsMembers members

end

/-! ## Which values can be encoded -/

mutual

/-- No string in the value holds a surrogate. -/
def Json.Scalar : Json → Prop
  | .str s => s.Scalar
  | .arr items => ScalarItems items
  | .obj members => ScalarMembers members
  | _ => True

def ScalarItems : List Json → Prop
  | [] => True
  | item :: items => item.Scalar ∧ ScalarItems items

def ScalarMembers : List (Str × Json) → Prop
  | [] => True
  | (key, value) :: members => (key.Scalar ∧ value.Scalar) ∧ ScalarMembers members

end

/-- Only the code point itself can be a surrogate in its escape. -/
theorem scalar_escape {p : CodePoint} : (escape p).Scalar ↔ p.isSurrogate = false := by
  have hsmall : p.val < 0xD800 → p.isSurrogate = false := by
    intro h
    rw [CodePoint.isSurrogate]
    simp only [Bool.and_eq_false_iff, decide_eq_false_iff_not]
    omega
  unfold escape
  split_ifs <;> simp_all
  apply hsmall
  omega

/-- Quoting neither adds a surrogate nor escapes one. -/
theorem scalar_quote {s : Str} : (quote s).Scalar ↔ s.Scalar := by
  rw [quote, Str.scalar_append, Str.scalar_append]
  simp only [Str.scalar_ofString, true_and, and_true]
  induction s with
  | nil => simp
  | cons p s ih => rw [List.flatMap_cons, Str.scalar_append, scalar_escape, ih, Str.scalar_cons]

/-- A separator without surrogates leaves those of the parts. -/
theorem scalar_intercalate {sep : Str} (hsep : sep.Scalar) (parts : List Str) :
    Str.Scalar (sep.intercalate parts) ↔ ∀ part ∈ parts, part.Scalar := by
  induction parts with
  | nil => simp
  | cons part parts ih =>
      cases parts with
      | nil => simp
      | cons part' parts =>
          rw [List.intercalate_cons_cons, Str.scalar_append, Str.scalar_append, ih]
          simp [hsep]

mutual

/-- `json.dumps` copies the surrogates of its value and adds none. -/
theorem scalar_dumps : (j : Json) → ((dumps j).Scalar ↔ j.Scalar)
  | .null => by simp [dumps, Json.Scalar]
  | .bool b => by simp [dumps, Json.Scalar]
  | .int n => by simp [dumps, Json.Scalar]
  | .float repr => by simp [dumps, Json.Scalar]
  | .str s => by rw [dumps, Json.Scalar, scalar_quote]
  | .arr items => by
      rw [dumps, Json.Scalar, Str.scalar_append, Str.scalar_append,
        scalar_intercalate (Str.scalar_ofString _), scalar_dumpsItems items]
      simp
  | .obj members => by
      rw [dumps, Json.Scalar, Str.scalar_append, Str.scalar_append,
        scalar_intercalate (Str.scalar_ofString _), scalar_dumpsMembers members]
      simp

/-- The surrogates of an array are those of its items. -/
theorem scalar_dumpsItems : (items : List Json) →
    ((∀ part ∈ dumpsItems items, part.Scalar) ↔ ScalarItems items)
  | [] => by simp [dumpsItems, ScalarItems]
  | item :: items => by
      rw [dumpsItems, ScalarItems, List.forall_mem_cons, scalar_dumps item, scalar_dumpsItems items]

/-- The surrogates of an object are those of its members. -/
theorem scalar_dumpsMembers : (members : List (Str × Json)) →
    ((∀ part ∈ dumpsMembers members, part.Scalar) ↔ ScalarMembers members)
  | [] => by simp [dumpsMembers, ScalarMembers]
  | (key, value) :: members => by
      rw [dumpsMembers, ScalarMembers, List.forall_mem_cons, Str.scalar_append, Str.scalar_append,
        scalar_quote, scalar_dumps value, scalar_dumpsMembers members]
      simp

end

end SynGateway.Python
