import SynGateway.Core.Sse.Refinement

/-!
# CRLF in SSE streams

`_parse_event_block` strips the carriage return of each line, but `parse_sse` looks for the
separator `"\\n\\n"`, which a text with CRLF line endings does not contain: the whole stream stays
in the buffer and is parsed as one block at its end. With one event that makes no difference. With
more, their data is put together under the last name and the last id.
-/

namespace SynGateway.Core.Sse

open SynGateway.Python SynGateway.Utf8 SynGateway.EventStream

/-- The text with every LF replaced by CRLF. -/
def crlf (text : Text) : Text := text.flatMap fun c => if c = '\n' then ['\r', '\n'] else [c]

/-- The lines of a text with CRLF: all but the last have got a carriage return. -/
def crLines : List Text → List Text
  | [] => []
  | [line] => [line]
  | line :: lines => (line ++ ['\r']) :: crLines lines

/-- At most one block has a `data` or an `event` line, and if one has, its id is the one that the
last `id` line of the whole text gives. -/
def SingleEvent (text : Text) : Prop :=
  (blocks id {} (linesOf id text)).countP Fields.live ≤ 1 ∧
    ∀ f ∈ blocks id {} (linesOf id text), f.live = true → f.id = (fieldsOf (linesOf id text)).id

variable {text : Text}

/-- All lines but the last end in a return. -/
theorem crLines_cons (line : Text) {lines : List Text} (h : lines ≠ []) :
    crLines (line :: lines) = (line ++ ['\r']) :: crLines lines := by
  cases lines with
  | nil => exact absurd rfl h
  | cons line' lines => rfl

/-- The lines of a text with CRLF endings. -/
theorem linesOf_crlf (text : Text) : linesOf id (crlf text) = crLines (linesOf id text) := by
  induction text with
  | nil => rfl
  | cons c text ih =>
      have hne : linesOf id text ≠ [] := List.splitOnP_ne_nil _ _
      by_cases hc : c = '\n'
      · have htext : crlf (c :: text) = '\r' :: '\n' :: crlf text := by simp [crlf, hc]
        rw [htext, linesOf_cons (by decide), linesOf_newline, ih, hc, linesOf_newline,
          crLines_cons _ hne]
        rfl
      · have htext : crlf (c :: text) = c :: crlf text := by simp [crlf, hc]
        rw [htext, linesOf_cons hc, linesOf_cons hc, ih]
        cases hlines : linesOf id text with
        | nil => exact absurd hlines hne
        | cons line lines => cases lines <;> rfl

/-- The carriage returns are stripped again. -/
theorem foldl_crLines (f : Fields Char) (lines : List Text) :
    (crLines lines).foldl (Fields.line id) f = lines.foldl (Fields.line id) f := by
  have hline : ∀ (f : Fields Char) line, f.line id (line ++ ['\r']) = f.line id line := by
    intro f line
    have hstrip : stripCr id (line ++ ['\r']) = stripCr id line :=
      List.rdropWhile_concat_pos _ _ _ rfl
    simp only [Fields.line, hstrip]
  induction lines generalizing f with
  | nil => rfl
  | cons line lines ih =>
      cases lines with
      | nil => rfl
      | cons line' lines =>
          rw [crLines_cons _ (by simp), List.foldl_cons, List.foldl_cons, hline]
          exact ih _

/-- A line that ends in a return is not empty. -/
theorem ne_nil_of_mem_crLines (lines : List Text) : ∀ l ∈ (crLines lines).dropLast, l ≠ [] := by
  induction lines with
  | nil => simp [crLines]
  | cons line lines ih =>
      cases lines with
      | nil => simp [crLines]
      | cons line' lines =>
          have hne : crLines (line' :: lines) ≠ [] := by
            cases lines <;> simp [crLines]
          rw [crLines_cons _ (by simp), List.dropLast_cons_of_ne_nil hne]
          exact List.forall_mem_cons.mpr ⟨by simp, ih⟩

/-- A text with CRLF is one block. -/
theorem events_crlf (text : Text) :
    events id (crlf text) = [fieldsOf (linesOf id text)].filter Fields.live := by
  rw [events, linesOf_crlf, blocks_of_ne_nil _ _ (ne_nil_of_mem_crLines _), foldl_crLines]
  rfl

/-- The events of the two texts agree exactly when the text has a single event. -/
theorem events_crlf_iff (text : Text) :
    (events id text).map eventOf = (events id (crlf text)).map eventOf ↔ SingleEvent text := by
  have hmerge : fieldsOf (linesOf id text)
      = (blocks id {} (linesOf id text)).foldr Fields.merge {} := foldl_line_eq_blocks {} _
  rw [events_crlf, SingleEvent, List.countP_eq_length_filter, events]
  generalize fieldsOf (linesOf id text) = whole at hmerge
  generalize blocks id {} (linesOf id text) = bs at hmerge
  have hmem : ∀ f ∈ bs, f.live = true → f ∈ bs.filter Fields.live := fun f hf hlive =>
    List.mem_filter.mpr ⟨hf, hlive⟩
  -- With CRLF there is one block, with the fields of all the live blocks together.
  cases hfilter : bs.filter Fields.live with
  | nil =>
      have hdead : whole.live = false := hmerge ▸ not_live_of_filter hfilter
      rw [hfilter] at hmem
      refine iff_of_true ?_ ⟨by simp, fun f hf hlive => ?_⟩
      · simp [hdead]
      · exact absurd (hmem f hf hlive) (by simp)
  | cons f fs =>
      cases fs with
      | nil =>
          obtain ⟨hdata, hevent⟩ := merge_of_filter hfilter
          rw [← hmerge] at hdata hevent
          have hf := List.mem_filter.mp (hfilter ▸ List.mem_singleton_self f)
          have hlive : whole.live = true := by
            rw [Fields.live, hdata, hevent]
            exact hf.2
          have hone : [whole].filter Fields.live = [whole] :=
            List.filter_eq_self.mpr (by simpa using hlive)
          rw [hone, List.map_singleton, List.map_singleton, List.cons.injEq, eventOf,
            eventOf, hdata, hevent]
          rw [hfilter] at hmem
          constructor
          · rintro ⟨heq, -⟩
            refine ⟨by simp, fun g hg hglive => ?_⟩
            rw [List.mem_singleton.mp (hmem g hg hglive)]
            exact (SSEEvent.mk.inj heq).2.2
          · rintro ⟨-, hid⟩
            rw [hid f hf.1 hf.2]
            exact ⟨rfl, rfl⟩
      | cons g fs =>
          refine iff_of_false (fun heq => ?_) (fun hsingle => ?_)
          · have hlen := congrArg List.length heq
            have hle := List.length_filter_le Fields.live [whole]
            simp only [List.length_map, List.length_cons, List.length_nil] at hlen hle
            omega
          · have hlen := hsingle.1
            simp only [List.length_cons] at hlen
            omega

/-- Pieces of encoded text decode to that text. -/
theorem flatMap_decode_encode (chunks : List Text) :
    (chunks.map encode).flatMap decode = chunks.flatten := by
  rw [List.flatMap_map, List.flatMap_def]
  congr 1
  exact (List.map_congr_left fun chunk _ => decode_encode chunk).trans (List.map_id _)

/-- **Line endings.** A text with LF and the same text with CRLF, each in any chunks of whole
characters, yield the same events exactly when the text has a single event. -/
theorem line_endings_iff {chunks crlfChunks : List Text}
    (h : crlfChunks.flatten = crlf chunks.flatten) :
    parseSse (chunks.map encode) = parseSse (crlfChunks.map encode) ↔
    SingleEvent chunks.flatten := by
  rw [parseSse_eq, parseSse_eq, flatMap_decode_encode, flatMap_decode_encode, h]
  exact events_crlf_iff chunks.flatten

/-- The text of one event, in two chunks and in one. -/
theorem line_endings_iff_one_event :
    parseSse (["data: a\n".toList, "\n".toList].map encode)
        = parseSse (["data: a\r\n\r\n".toList].map encode) ↔
      SingleEvent ["data: a\n".toList, "\n".toList].flatten :=
  line_endings_iff (by decide)

/-- Two events with CRLF line endings come out as one. -/
theorem line_endings_fail : ¬ ∀ chunks crlfChunks : List Text, '\r' ∉ chunks.flatten →
    crlfChunks.flatten = crlf chunks.flatten →
    parseSse (chunks.map encode) = parseSse (crlfChunks.map encode) := by
  intro hclaim
  have heq := hclaim ["data: a\n\ndata: b\n\n".toList] ["data: a\r\n\r\ndata: b\r\n\r\n".toList]
    (by decide) (by decide)
  rw [parseSse_eq, parseSse_eq, flatMap_decode_encode, flatMap_decode_encode] at heq
  exact absurd heq (by decide)

end SynGateway.Core.Sse
