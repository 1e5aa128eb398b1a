import SynGateway.Common.Utf8.Pieces
import SynGateway.Core.Sse.Refinement

/-!
# How the chunks of an SSE stream are cut

The result of `parse_sse` should not depend on how the transport cuts the bytes. The buffer takes
care of that for characters, but every chunk is decoded on its own: a chunk that ends inside a
multi-byte character turns it into several U+FFFD. The format does not notice, because it looks at
ASCII characters only, so what goes wrong is exactly the characters of the values that are cut.
-/

namespace SynGateway.Core.Sse

open SynGateway.Python SynGateway.Utf8 SynGateway.EventStream

/-- No chunk begins inside a character of a value that an event of the unsplit stream keeps: the
value of a `data` line, or the last value of `event` or `id` before the blank line. A group of bytes
that is decoded to one U+FFFD counts as a character. -/
def KeepsCharacters (chunks : List (List UInt8)) : Prop :=
  ∀ f ∈ events charOf (units (mark chunks)), ∀ u ∈ f.letters, cut u = false

variable {chunks chunks₁ chunks₂ : List (List UInt8)} {u : List Marked}

/-- The pieces of a group of bytes look to the format as the group does. -/
theorem renders_decodeMarked (h : UnitOk u) : Renders charOf id decodeMarked u where
  ascii hascii := by
    cases hcut : cut u with
    | false => exact ⟨_, h.uncut hcut, rfl⟩
    | true => exact absurd hascii (Nat.not_lt.mpr (h.cut hcut).1)
  other hother := by
    cases hcut : cut u with
    | false =>
        rw [h.uncut hcut]
        exact ⟨by simp, by simpa using hother⟩
    | true =>
        obtain ⟨-, n, hrun⟩ := h.cut hcut
        rw [hrun]
        refine ⟨by simp, fun c hc => ?_⟩
        rw [List.eq_of_mem_replicate hc]
        decide

/-- A unit of bytes is written as its character. -/
theorem renders_charOf (u : List Marked) : Renders charOf id (fun u => [charOf u]) u where
  ascii _ := ⟨_, rfl, rfl⟩
  other hother := ⟨by simp, by simpa using hother⟩

/-- The events are those of the byte groups, with what the chunks make of each group. -/
theorem parseSse_chunks (chunks : List (List UInt8)) : parseSse chunks
    = (events charOf (units (mark chunks))).map fun f => eventOf (f.subst decodeMarked) := by
  rw [parseSse_eq, flatMap_decode,
    events_flatMap fun u hu => renders_decodeMarked (.of_mem hu), List.map_map]
  rfl

/-- The events of the unsplit bytes are those of the byte groups, with their characters. -/
theorem parseSse_flatten (chunks : List (List UInt8)) : parseSse [chunks.flatten]
    = (events charOf (units (mark chunks))).map fun f => eventOf (f.subst fun u => [charOf u]) := by
  have hdecode : [chunks.flatten].flatMap decode
      = (units (mark chunks)).flatMap fun u => [charOf u] := by
    rw [List.flatMap_singleton, decode_flatten, List.map_eq_flatMap]
  rw [parseSse_eq, hdecode, events_flatMap fun u _ => renders_charOf u, List.map_map]
  rfl

/-- A replacement by at least one letter each that keeps the length replaces each by one. -/
theorem length_eq_one_of_flatMap {α β : Type*} {σ : α → List β} {l : List α}
    (hpos : ∀ a ∈ l, 0 < (σ a).length) (hlen : (l.flatMap σ).length = l.length) :
    ∀ a ∈ l, (σ a).length = 1 := by
  have hle : ∀ l : List α, (∀ a ∈ l, 0 < (σ a).length) → l.length ≤ (l.flatMap σ).length := by
    intro l hpos
    induction l with
    | nil => simp
    | cons a l ih =>
        obtain ⟨ha, hl⟩ := List.forall_mem_cons.mp hpos
        have hrec := ih hl
        simp only [List.flatMap_cons, List.length_append, List.length_cons]
        omega
  induction l with
  | nil => simp
  | cons a l ih =>
      obtain ⟨ha, hl⟩ := List.forall_mem_cons.mp hpos
      -- no text is empty, so a total that is not larger leaves one letter for each
      have hrest := hle l hl
      simp only [List.flatMap_cons, List.length_append, List.length_cons] at hlen
      exact List.forall_mem_cons.mpr ⟨by omega, ih hl (by omega)⟩

/-- The letters are written piece by piece, or all at once. -/
theorem flatten_map_flatMap {α β : Type*} (σ : α → List β) (values : List (List α)) :
    (values.map (List.flatMap σ)).flatten = values.flatten.flatMap σ := by
  induction values with
  | nil => rfl
  | cons value values ih =>
      rw [List.map_cons, List.flatten_cons, ih, List.flatten_cons, List.flatMap_append]

/-- One event comes out as it should exactly when none of its characters is cut. -/
theorem eventOf_subst_iff {f : Fields (List Marked)} (hok : ∀ u ∈ f.letters, UnitOk u) :
    eventOf (f.subst decodeMarked) = eventOf (f.subst fun u => [charOf u]) ↔
      ∀ u ∈ f.letters, cut u = false := by
  constructor
  · intro heq
    obtain ⟨hdata, hevent, hid⟩ := SSEEvent.mk.inj heq
    have hvalue : ∀ value : List (List Marked), (∀ u ∈ value, u ∈ f.letters) →
        (value.flatMap decodeMarked).length = value.length → ∀ u ∈ value, cut u = false := by
      -- a cut unit has more than one character, and the lengths would differ
      intro value hsub hlen u hu
      have hpos : ∀ v ∈ value, 0 < (decodeMarked v).length := fun v hv =>
        List.length_pos_iff.mpr (renders_decodeMarked (hok v (hsub v hv))).ne_nil
      have hone := length_eq_one_of_flatMap hpos hlen u hu
      by_contra hcut
      obtain ⟨-, n, hrun⟩ := (hok u (hsub u hu)).cut (by simpa using hcut)
      simp [hrun] at hone
    have hoption : ∀ value : Option (List (List Marked)),
        value.map (List.flatMap decodeMarked) = value.map (List.flatMap fun u => [charOf u]) →
        ((value.getD []).flatMap decodeMarked).length = (value.getD []).length := by
      intro value heq
      cases value with
      | none => rfl
      | some value => simpa using congrArg List.length (Option.some.inj heq)
    intro u hu
    -- the letters of data, of the event name and of the id
    rcases List.mem_append.mp hu with hu | hu
    · refine hvalue f.data.flatten (fun v hv => List.mem_append_left _ hv) ?_ u hu
      have hlen := congrArg List.length hdata
      simp only [Fields.subst, length_join, flatten_map_flatMap, List.length_map] at hlen
      rw [← List.map_eq_flatMap, List.length_map] at hlen
      omega
    · rcases List.mem_append.mp hu with hu | hu
      · refine hvalue _ (fun v hv => ?_) (hoption _ hevent) u hu
        exact List.mem_append_right _ (List.mem_append_left _ hv)
      · refine hvalue _ (fun v hv => ?_) (hoption _ hid) u hu
        exact List.mem_append_right _ (List.mem_append_right _ hv)
  · intro hcut
    rw [Fields.subst_congr fun u hu => (hok u hu).uncut (hcut u hu)]

/-- A splitting yields what the unsplit bytes yield exactly when it cuts no character of a value. -/
theorem parseSse_eq_flatten_iff (chunks : List (List UInt8)) :
    parseSse chunks = parseSse [chunks.flatten] ↔ KeepsCharacters chunks := by
  rw [parseSse_chunks, parseSse_flatten, List.map_inj_left]
  refine forall₂_congr fun f hf => ?_
  exact eventOf_subst_iff fun u hu => .of_mem (mem_of_mem_events hf hu)

/-- **Chunking invariance.** Two splittings of the same bytes yield the same events, those of the
unsplit bytes, exactly when neither cuts a character of a value. -/
theorem chunking_invariance_iff (h : chunks₁.flatten = chunks₂.flatten) :
    (parseSse chunks₁ = parseSse chunks₂ ∧ parseSse chunks₁ = parseSse [chunks₁.flatten]) ↔
      KeepsCharacters chunks₁ ∧ KeepsCharacters chunks₂ := by
  rw [← parseSse_eq_flatten_iff, ← parseSse_eq_flatten_iff, ← h]
  constructor
  · rintro ⟨heq, hwhole⟩
    exact ⟨hwhole, heq ▸ hwhole⟩
  · rintro ⟨h₁, h₂⟩
    exact ⟨h₁.trans h₂.symm, h₁⟩

/-- The bytes of `data: é` and a blank line, cut before and inside the character. -/
theorem chunking_invariance_iff_accent :
    (parseSse [encode "data: ".toList, [0xC3, 0xA9, 0x0A, 0x0A]]
          = parseSse [encode "data: ".toList ++ [0xC3], [0xA9, 0x0A, 0x0A]] ∧
        parseSse [encode "data: ".toList, [0xC3, 0xA9, 0x0A, 0x0A]]
          = parseSse [encode "data: ".toList ++ [0xC3, 0xA9, 0x0A, 0x0A]]) ↔
      KeepsCharacters [encode "data: ".toList, [0xC3, 0xA9, 0x0A, 0x0A]] ∧
        KeepsCharacters [encode "data: ".toList ++ [0xC3], [0xA9, 0x0A, 0x0A]] :=
  chunking_invariance_iff (by decide)

/-- A chunk that ends inside the character makes two replacements of it. -/
theorem chunking_invariance_fails : ¬ ∀ chunks₁ chunks₂ : List (List UInt8),
    chunks₁.flatten = chunks₂.flatten → parseSse chunks₁ = parseSse chunks₂ := by
  intro hclaim
  have heq := hclaim [encode "data: ".toList, [0xC3, 0xA9, 0x0A, 0x0A]]
    [encode "data: ".toList ++ [0xC3], [0xA9, 0x0A, 0x0A]] (by decide)
  rw [parseSse_eq, parseSse_eq] at heq
  exact absurd heq (by decide)

end SynGateway.Core.Sse
