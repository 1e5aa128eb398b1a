import SynGateway.Core.Errors
import SynGateway.Python.JsonRoundTrip

/-!
# Built-in conversions

`int(value)`, `str(value)`, `iter(value)` and `value.get` on the values of `json.loads`. What
depends on floats or on the limits that an interpreter is started with is an `Interpreter`.
-/

namespace SynGateway.Python

open SynGateway.Core

/-- What `json.loads` raises. -/
inductive LoadsError
  /-- `ValueError`, of which `JSONDecodeError` is a subclass. -/
  | valueError
  | recursionError
deriving DecidableEq, Repr

/-- What the built-ins are parameters in: the text of a float, the integer part of a finite float,
`str` of a value that is no `str`, which texts exceed a limit of the interpreter, and `str` of the
`ValueError` that `json.loads` raises on a text. -/
structure Interpreter where
  float : Numeral → Text
  truncate : Text → ℤ
  strOf : Json → Str
  loadsLimit : Str → Option LoadsError
  intLimit : Str → Bool
  valueErrorText : Str → String

/-- `str(value)`. -/
def Interpreter.str (i : Interpreter) : Json → Str
  | .str s => s
  | value => i.strOf value

/-- `json.loads(s)`. -/
def Interpreter.loads (i : Interpreter) (s : Str) : Except LoadsError Json :=
  match i.loadsLimit s with
  | some error => .error error
  | none =>
    match Python.loads i.float s with
    | none => .error .valueError
    | some value => .ok value

/-- What Python documents of the parameters: floats print as floats do, and `str` puts no surrogate
where there is none. -/
structure Interpreter.Lawful (i : Interpreter) : Prop where
  floatsPrint : FloatsPrint i.float
  scalar_strOf : ∀ value : Json, value.Scalar → (i.strOf value).Scalar

/-- What is loaded is the value of a JSON text. -/
theorem Interpreter.loads_eq_ok {i : Interpreter} {s : Str} {value : Json}
    (h : i.loads s = .ok value) :
    Python.loads i.float s = some value := by
  unfold Interpreter.loads at h
  split at h
  · cases h
  · split at h
    · cases h
    · next value' hloads =>
        cases h
        exact hloads

/-! ## `int(value)` -/

/-- The zeros of the decimal digits of Unicode. -/
def decimalZeros : List ℕ :=
  [0x30, 0x660, 0x6F0, 0x7C0, 0x966, 0x9E6, 0xA66, 0xAE6, 0xB66, 0xBE6, 0xC66, 0xCE6, 0xD66,
    0xDE6, 0xE50, 0xED0, 0xF20, 0x1040, 0x1090, 0x17E0, 0x1810, 0x1946, 0x19D0, 0x1A80, 0x1A90,
    0x1B50, 0x1BB0, 0x1C40, 0x1C50, 0xA620, 0xA8D0, 0xA900, 0xA9D0, 0xA9F0, 0xAA50, 0xABF0, 0xFF10,
    0x104A0, 0x10D30, 0x11066, 0x110F0, 0x11136, 0x111D0, 0x112F0, 0x11450, 0x114D0, 0x11650,
    0x116C0, 0x11730, 0x118E0, 0x11950, 0x11C50, 0x11D50, 0x11DA0, 0x16A60, 0x16AC0, 0x16B50,
    0x1D7CE, 0x1D7D8, 0x1D7E2, 0x1D7EC, 0x1D7F6, 0x1E140, 0x1E2F0, 0x1E950, 0x1FBF0]

/-- The value of a decimal digit. -/
def decimalValue (p : CodePoint) : Option ℕ :=
  (decimalZeros.find? fun start => start ≤ p.val && p.val < start + 10).map (p.val - ·)

/-- The white space that `int` strips. The separators U+001C to U+001F are not among it. -/
def isIntSpace (p : CodePoint) : Bool :=
  match p.toChar with
  | none => false
  | some c => isSpace c && !(0x1C ≤ p.val && p.val ≤ 0x1F)

/-- Decimal digits with single underscores between them, after `n`; `digit` is whether a digit has
just been read. -/
def decimalDigits (n : ℕ) (digit : Bool) : Str → Option ℕ
  | [] => if digit then some n else none
  | p :: s =>
    match decimalValue p with
    | some d => decimalDigits (10 * n + d) true s
    | none => if digit ∧ p = CodePoint.ofChar '_' then decimalDigits n false s else none

/-- `int(s)` of a `str`; `none` is the `ValueError`. -/
def intOfStr (s : Str) : Option ℤ :=
  let s := (s.dropWhile isIntSpace).rdropWhile isIntSpace
  match s with
  | [] => none
  | p :: rest =>
    if p = CodePoint.ofChar '-' then (decimalDigits 0 false rest).map fun n => -(n : ℤ)
    else if p = CodePoint.ofChar '+' then (decimalDigits 0 false rest).map fun n => (n : ℤ)
    else (decimalDigits 0 false s).map fun n => (n : ℤ)

/-- `int(value)`. -/
def Interpreter.int (i : Interpreter) : Json → Except Exc ℤ
  | .bool b => .ok (if b then 1 else 0)
  | .int n => .ok n
  | .float repr =>
    if repr = "NaN".toList then .error (.exception "cannot convert float NaN to integer")
    else if repr = "Infinity".toList ∨ repr = "-Infinity".toList then
      .error (.exception "cannot convert float infinity to integer")
    else .ok (i.truncate repr)
  | .str s =>
    if i.intLimit s then .error (.exception "Exceeds the limit for integer string conversion")
    else
      match intOfStr s with
      | some n => .ok n
      | none => .error (.exception "invalid literal for int() with base 10")
  | _ => .error (.exception "int() argument must be a string, a bytes-like object or a real number")

/-! ## Attributes and iteration -/

/-- The items of `value`, of which `value.get` is called. -/
def dictItems : Json → Except Exc (List (Str × Json))
  | .obj members => .ok members
  | _ => .error (.exception "object has no attribute 'get'")

/-- `list(iter(value))`. -/
def iterate : Json → Except Exc (List Json)
  | .arr items => .ok items
  | .str s => .ok (s.map fun p => .str [p])
  | .obj members => .ok (members.map fun m => .str m.1)
  | _ => .error (.exception "object is not iterable")

example : intOfStr (Str.ofString " -1_0 ") = some (-10) := by rfl

end SynGateway.Python
