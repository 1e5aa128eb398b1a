import SynGateway.Common.Utf8.Decode

/-!
# Cuts between characters

The bytes of a text, cut into pieces. If no cut falls inside a character, decoding piece by piece
gives the text (`flatMap_decode_of_cuts`). What follows the text need not be UTF-8.
-/

namespace SynGateway.Utf8

/-- As long as they do not exceed `bytes`, the first pieces are the bytes of a text. -/
def CutsBetweenCharacters (bytes : List UInt8) (pieces : List (List UInt8)) : Prop :=
  ∀ n, (pieces.take n).flatten <+: bytes → ∃ text, (pieces.take n).flatten = encode text

variable {text : List Char} {piece bytes junk : List UInt8} {pieces : List (List UInt8)}

/-- What stands behind the bytes of a text in the bytes of a text are the bytes of a text. -/
theorem eq_encode_of_append {text' : List Char} (h : encode text ++ bytes = encode text') :
    bytes = encode (decode bytes) := by
  have hdecode : text ++ decode bytes = text' := by
    rw [← decode_encode_append, h, decode_encode]
  rw [← hdecode, encode_append] at h
  exact List.append_cancel_left h

/-- The first piece, if there is more of the text, is the bytes of a text, and the others are cut so
too. -/
theorem CutsBetweenCharacters.tail {first : List Char}
    (h : CutsBetweenCharacters (encode first ++ bytes) (encode first :: pieces)) :
    CutsBetweenCharacters bytes pieces := by
  intro n hprefix
  obtain ⟨text, htext⟩ := h (n + 1) (by simpa using hprefix)
  rw [List.take_succ_cons, List.flatten_cons] at htext
  exact ⟨_, eq_encode_of_append htext⟩

/-- An uncut text. -/
theorem cuts_singleton (text : List Char) : CutsBetweenCharacters (encode text) [encode text] := by
  intro n _
  cases n with
  | zero => exact ⟨[], rfl⟩
  | succ n => exact ⟨text, by rw [List.take_succ_cons, List.take_nil, List.flatten_singleton]⟩

/-- Pieces without a byte decode to nothing. -/
theorem decode_flatten_nil (h : pieces.flatten = []) : pieces.flatMap decode = [] := by
  rw [List.flatMap_eq_nil_iff]
  intro piece hpiece
  rw [List.flatten_eq_nil_iff.mp h piece hpiece]
  rfl

/-- **Decoding piece by piece** gives the text and then what the other bytes give. -/
theorem flatMap_decode_of_cuts (hflatten : pieces.flatten = encode text ++ junk)
    (hcuts : CutsBetweenCharacters (encode text) pieces) :
    ∃ rest, pieces.flatMap decode = text ++ rest ∧ (junk = [] → rest = []) := by
  induction pieces generalizing text with
  | nil =>
      obtain ⟨htext, -⟩ := List.append_eq_nil_iff.mp hflatten.symm
      have hnil : text = [] := by
        rw [← decode_encode text, htext]
        rfl
      exact ⟨[], by rw [hnil]; rfl, fun _ => rfl⟩
  | cons piece pieces ih =>
      rw [List.flatten_cons] at hflatten
      rw [List.flatMap_cons]
      rcases List.append_eq_append_iff.mp hflatten with ⟨more, hmore, hpieces⟩ |
        ⟨junk', hpiece, hjunk⟩
      · -- the text goes on behind the first piece
        obtain ⟨first, hfirst⟩ := hcuts 1 (by simp [hmore])
        rw [List.take_succ_cons, List.take_zero, List.flatten_singleton] at hfirst
        rw [hfirst] at hmore hcuts ⊢
        have hsplit : text = first ++ decode more := by
          rw [← decode_encode_append, ← hmore, decode_encode]
        have hencode : more = encode (decode more) := eq_encode_of_append hmore.symm
        rw [hmore] at hcuts
        rw [hencode] at hpieces
        obtain ⟨rest, hrest, hend⟩ := ih hpieces (hencode ▸ hcuts.tail)
        exact ⟨rest, by rw [hrest, decode_encode, hsplit, List.append_assoc], hend⟩
      · -- the text ends in the first piece
        refine ⟨decode junk' ++ pieces.flatMap decode, ?_, fun hnil => ?_⟩
        · rw [hpiece, decode_encode_append, List.append_assoc]
        · rw [hnil] at hjunk
          obtain ⟨hjunk', hpieces⟩ := List.append_eq_nil_iff.mp hjunk.symm
          rw [hjunk', decode_flatten_nil hpieces]
          rfl

end SynGateway.Utf8
