import Mathlib.Data.List.Basic

/-!
# Decoding UTF-8 with replacement

`decode` is the decoder that never fails: a maximal group of bytes that begins a character but does
not complete one is replaced by one U+FFFD, and so is every byte that begins nothing. It is written
as the automaton that reads one byte after the other and owes a character between them (`Pending`).

`decode_encode` says that it reads back what Lean's own encoder wrote.
-/

namespace SynGateway.Utf8

/-- U+FFFD. -/
def replacement : Char := Char.ofNat 0xFFFD

/-- A character that has begun: how many bytes are owed after the next one, the bounds of the next
one, and the bits read so far. -/
structure Pending where
  after : ℕ
  lo : ℕ
  hi : ℕ
  bits : ℕ
deriving DecidableEq, Repr

/-- What a byte does between characters. -/
inductive Lead
  | char (c : Char)
  | more (p : Pending)
  | bad
deriving DecidableEq, Repr

/-- What a byte does inside a character. -/
inductive Next
  | more (p : Pending)
  | done (c : Char)
  | reject
deriving DecidableEq, Repr

/-- The first byte of a character. The bounds of the second byte exclude overlong forms, surrogates
and values beyond U+10FFFF. -/
def lead (b : UInt8) : Lead :=
  let n := b.toNat
  if n < 0x80 then .char (Char.ofNat n)
  else if n < 0xC2 then .bad
  else if n < 0xE0 then .more ⟨0, 0x80, 0xBF, n - 0xC0⟩
  else if n < 0xF0 then
    .more ⟨1, if n = 0xE0 then 0xA0 else 0x80, if n = 0xED then 0x9F else 0xBF, n - 0xE0⟩
  else if n < 0xF5 then
    .more ⟨2, if n = 0xF0 then 0x90 else 0x80, if n = 0xF4 then 0x8F else 0xBF, n - 0xF0⟩
  else .bad

/-- A further byte of a character. -/
def Pending.next (p : Pending) (b : UInt8) : Next :=
  let n := b.toNat
  if p.lo ≤ n ∧ n ≤ p.hi then
    let bits := p.bits * 64 + (n - 0x80)
    match p.after with
    | 0 => .done (Char.ofNat bits)
    | k + 1 => .more ⟨k, 0x80, 0xBF, bits⟩
  else .reject

/-- One byte between characters: what it gives, and the character it begins. -/
def begin (b : UInt8) : List Char × Option Pending :=
  match lead b with
  | .char c => ([c], none)
  | .more p => ([], some p)
  | .bad => ([replacement], none)

/-- One byte. A byte that cannot continue the character that has begun replaces it and is read again
from the start. -/
def feed : Option Pending → UInt8 → List Char × Option Pending
  | none, b => begin b
  | some p, b =>
    match p.next b with
    | .more q => ([], some q)
    | .done c => ([c], none)
    | .reject => (replacement :: (begin b).1, (begin b).2)

/-- The end of the bytes: a character that has begun is replaced. -/
def flush : Option Pending → List Char
  | none => []
  | some _ => [replacement]

def decodeFrom : Option Pending → List UInt8 → List Char
  | p, [] => flush p
  | p, b :: bs => (feed p b).1 ++ decodeFrom (feed p b).2 bs

/-- The characters of a byte string. -/
def decode (bytes : List UInt8) : List Char := decodeFrom none bytes

/-- The bytes of a text. -/
def encode (text : List Char) : List UInt8 := text.flatMap String.utf8EncodeChar

/-! ## Decoding what was encoded -/

section Steps

variable {p q : Pending} {c : Char} {b : UInt8} {bs : List UInt8} {n k : ℕ}

/-- A byte that is a character by itself. -/
theorem decodeFrom_char (h : lead b = .char c) :
    decodeFrom none (b :: bs) = c :: decodeFrom none bs := by
  simp [decodeFrom, feed, begin, h]

/-- A byte that leads a sequence. -/
theorem decodeFrom_lead (h : lead b = .more p) :
    decodeFrom none (b :: bs) = decodeFrom (some p) bs := by
  simp [decodeFrom, feed, begin, h]

/-- A byte that continues a sequence. -/
theorem decodeFrom_more (h : p.next b = .more q) :
    decodeFrom (some p) (b :: bs) = decodeFrom (some q) bs := by
  simp [decodeFrom, feed, h]

/-- The last byte of a sequence. -/
theorem decodeFrom_done (h : p.next b = .done c) :
    decodeFrom (some p) (b :: bs) = c :: decodeFrom none bs := by
  simp [decodeFrom, feed, h]

/-- The byte of a number below 256 is that number. -/
theorem toNat_ofNat (h : n < 256) : (UInt8.ofNat n).toNat = n := by
  rw [UInt8.toNat_ofNat']
  exact Nat.mod_eq_of_lt h

/-- The lead byte of a character of one byte. -/
theorem lead_one (h : n < 0x80) : lead (UInt8.ofNat n) = .char (Char.ofNat n) := by
  rw [lead, toNat_ofNat (by omega)]
  exact if_pos h

/-- The lead byte of a character of two bytes. -/
theorem lead_two (hlo : 2 ≤ k) (hhi : k < 32) :
    lead (UInt8.ofNat (k + 0xC0)) = .more ⟨0, 0x80, 0xBF, k⟩ := by
  simp only [lead, toNat_ofNat (show k + 0xC0 < 256 by omega)]
  rw [if_neg (by omega), if_neg (by omega), if_pos (by omega), Nat.add_sub_cancel]

/-- The lead byte of a character of three bytes, with the range of the next byte. -/
theorem lead_three (h : k < 16) :
    lead (UInt8.ofNat (k + 0xE0))
      = .more ⟨1, if k = 0 then 0xA0 else 0x80, if k = 13 then 0x9F else 0xBF, k⟩ := by
  simp only [lead, toNat_ofNat (show k + 0xE0 < 256 by omega)]
  rw [if_neg (by omega), if_neg (by omega), if_neg (by omega), if_pos (by omega),
    Nat.add_sub_cancel]
  simp only [show k + 0xE0 = 0xE0 ↔ k = 0 by omega, show k + 0xE0 = 0xED ↔ k = 13 by omega]

/-- The lead byte of a character of four bytes, with the range of the next byte. -/
theorem lead_four (h : k < 5) :
    lead (UInt8.ofNat (k + 0xF0))
      = .more ⟨2, if k = 0 then 0x90 else 0x80, if k = 4 then 0x8F else 0xBF, k⟩ := by
  simp only [lead, toNat_ofNat (show k + 0xF0 < 256 by omega)]
  rw [if_neg (by omega), if_neg (by omega), if_neg (by omega), if_neg (by omega), if_pos (by omega),
    Nat.add_sub_cancel]
  simp only [show k + 0xF0 = 0xF0 ↔ k = 0 by omega, show k + 0xF0 = 0xF4 ↔ k = 4 by omega]

/-- A byte within the bounds adds six bits. -/
theorem next_of_bounds (p : Pending) (h : k < 64) (hlo : p.lo ≤ k + 0x80) (hhi : k + 0x80 ≤ p.hi) :
    p.next (UInt8.ofNat (k + 0x80)) = match p.after with
      | 0 => .done (Char.ofNat (p.bits * 64 + k))
      | j + 1 => .more ⟨j, 0x80, 0xBF, p.bits * 64 + k⟩ := by
  simp only [Pending.next, toNat_ofNat (show k + 0x80 < 256 by omega), Nat.add_sub_cancel]
  exact if_pos ⟨hlo, hhi⟩

/-- A byte of the common range that more bytes follow. -/
theorem next_tail {j bits : ℕ} (h : k < 64) :
    Pending.next ⟨j + 1, 0x80, 0xBF, bits⟩ (UInt8.ofNat (k + 0x80))
      = .more ⟨j, 0x80, 0xBF, bits * 64 + k⟩ :=
  next_of_bounds _ h (by simp) (by simp only; omega)

/-- The last byte of a character. -/
theorem next_last {bits : ℕ} (h : k < 64) :
    Pending.next ⟨0, 0x80, 0xBF, bits⟩ (UInt8.ofNat (k + 0x80)) = .done
    (Char.ofNat (bits * 64 + k)) :=
  next_of_bounds _ h (by simp) (by simp only; omega)

end Steps

/-- Reading the bytes of a character gives the character. -/
theorem decodeFrom_encodeChar (c : Char) (bs : List UInt8) :
    decodeFrom none (String.utf8EncodeChar c ++ bs) = c :: decodeFrom none bs := by
  have hchar : Char.ofNat c.val.toNat = c := Char.ofNat_toNat c
  have hvalid : c.val.toNat < 0xD800 ∨ 0xDFFF < c.val.toNat ∧ c.val.toNat < 0x110000 := c.valid
  generalize hv : c.val.toNat = v at hchar hvalid
  simp only [String.utf8EncodeChar, hv]
  -- one to four bytes, by the size of the code point
  split
  · rw [List.singleton_append, decodeFrom_char (lead_one (by omega)), hchar]
  · split
    · simp only [List.cons_append, List.nil_append]
      rw [show v / 64 % 32 = v / 64 by omega, decodeFrom_lead (lead_two (by omega) (by omega)),
        decodeFrom_done (next_last (by omega)), show v / 64 * 64 + v % 64 = v by omega, hchar]
    · split
      · have hsecond : Pending.next ⟨1, if v / 4096 = 0 then 0xA0 else 0x80,
            if v / 4096 = 13 then 0x9F else 0xBF, v / 4096⟩ (UInt8.ofNat (v / 64 % 64 + 0x80))
            = .more ⟨0, 0x80, 0xBF, v / 4096 * 64 + v / 64 % 64⟩ :=
          next_of_bounds _ (by omega) (by simp only; split <;> omega)
            (by simp only; split <;> omega)
        simp only [List.cons_append, List.nil_append]
        rw [show v / 4096 % 16 = v / 4096 by omega, decodeFrom_lead (lead_three (by omega)),
          decodeFrom_more hsecond, decodeFrom_done (next_last (by omega)),
          show (v / 4096 * 64 + v / 64 % 64) * 64 + v % 64 = v by omega, hchar]
      · have hsecond : Pending.next ⟨2, if v / 262144 = 0 then 0x90 else 0x80,
            if v / 262144 = 4 then 0x8F else 0xBF, v / 262144⟩ (UInt8.ofNat (v / 4096 % 64 + 0x80))
            = .more ⟨1, 0x80, 0xBF, v / 262144 * 64 + v / 4096 % 64⟩ :=
          next_of_bounds _ (by omega) (by simp only; split <;> omega)
            (by simp only; split <;> omega)
        simp only [List.cons_append, List.nil_append]
        rw [show v / 262144 % 8 = v / 262144 by omega, decodeFrom_lead (lead_four (by omega)),
          decodeFrom_more hsecond, decodeFrom_more (next_tail (by omega)),
          decodeFrom_done (next_last (by omega)),
          show ((v / 262144 * 64 + v / 4096 % 64) * 64 + v / 64 % 64) * 64 + v % 64 =
            v by omega, hchar]

/-- The bytes of a text are read as the text, whatever follows them. -/
theorem decode_encode_append (text : List Char) (bs : List UInt8) :
    decode (encode text ++ bs) = text ++ decode bs := by
  induction text with
  | nil => rfl
  | cons c text ih =>
      show decodeFrom none (String.utf8EncodeChar c ++ encode text ++ bs) = c :: (text ++ decode bs)
      rw [List.append_assoc, decodeFrom_encodeChar]
      exact congrArg (c :: ·) ih

/-- Decoding is a left inverse of encoding. -/
theorem decode_encode (text : List Char) : decode (encode text) = text := by
  have happend := decode_encode_append text []
  rw [List.append_nil] at happend
  exact happend.trans (List.append_nil text)

/-- A text is encoded character by character. -/
theorem encode_append (text text' : List Char) :
    encode (text ++ text') = encode text ++ encode text' :=
  List.flatMap_append

end SynGateway.Utf8
