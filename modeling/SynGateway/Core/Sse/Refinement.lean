import SynGateway.Common.EventStream
import SynGateway.Core.Sse.Defs

/-!
# What the SSE parser computes

`parse_sse` decodes chunk by chunk, collects the characters in a buffer and cuts blocks off at the
first blank line. On characters none of this shows: the buffer can be filled in any portions, and
cutting at blank lines is reading line by line. So `parse_sse` reads the decoded chunks as an event
stream (`parseSse_eq`).
-/

namespace SynGateway.Core.Sse

open SynGateway.Python SynGateway.Utf8 SynGateway.EventStream

/-- The fields as the local variables of `_parse_event_block`. -/
def BlockVars.ofFields (f : Fields Char) : BlockVars := ⟨f.data, f.event, f.id⟩

/-- The event that the fields make. -/
def eventOf (f : Fields Char) :
    SSEEvent := { data := join "\n".toList f.data, event := f.event, id := f.id }

variable {f : Fields Char} {block rest buffer t : Text}

/-! ## One block -/

/-- Without a colon the line is the name of its field. -/
theorem fieldName_of_not_mem {line : Text} (h : ':' ∉ line) : fieldName id line = line := by
  rw [fieldName, List.takeWhile_eq_self_iff]
  intro c hc
  simpa using fun heq : c = ':' => h (heq ▸ hc)

/-- Without a colon the field has no value. -/
theorem fieldValue_of_not_mem {line : Text} (h : ':' ∉ line) : fieldValue id line = [] := by
  have hdrop : line.dropWhile (fun a => id a ≠ ':') = [] := by
    rw [List.dropWhile_eq_nil_iff]
    intro c hc
    simpa using fun heq : c = ':' => h (heq ▸ hc)
  rw [fieldValue, hdrop]
  rfl

/-- One leading blank is stripped, and no more. -/
theorem stripSpace_eq (value : Text) :
    stripSpace id value = if value.head? = some ' ' then value.drop 1 else value := by
  cases value with
  | nil => rfl
  | cons c value => simp [stripSpace]

/-- The loop body of `_parse_event_block` sets the fields as the format says. -/
theorem parseLine_eq (f : Fields Char) (line : Text) :
    parseLine (.ofFields f) line = .ofFields (f.line id line) := by
  have hstrip : stripCr id line = rstrip '\r' line := rfl
  simp only [parseLine, Fields.line, List.map_id, hstrip]
  generalize rstrip '\r' line = line
  by_cases hnil : line = []
  · simp [hnil, fieldName]
  · by_cases hcomment : line.head? = some ':'
    · -- a comment has an empty field name, which is no known one
      have hname : fieldName id line = [] := by
        cases line with
        | nil => rfl
        | cons c line =>
            have hc : c = ':' := by simpa using hcomment
            simp [fieldName, hc]
      simp [hnil, hcomment, hname]
    · have hcut : (if ':' ∈ line then ((partition ':' line).1,
            if (partition ':' line).2.head? = some ' ' then (partition ':' line).2.drop 1
            else (partition ':' line).2)
          else (line, [])) = (fieldName id line, fieldValue id line) := by
        split
        · rw [← stripSpace_eq]
          rfl
        · next hcolon => rw [fieldName_of_not_mem hcolon, fieldValue_of_not_mem hcolon]
      rw [if_neg hnil, if_neg hcomment, hcut]
      have hdata : "data".toList = ['d', 'a', 't', 'a'] := rfl
      have hevent : "event".toList = ['e', 'v', 'e', 'n', 't'] := rfl
      have hid : "id".toList = ['i', 'd'] := rfl
      simp only [hdata, hevent, hid, apply_ite BlockVars.ofFields]
      rfl

/-- The fields that a block of lines sets. -/
def fieldsOf (lines : List Text) : Fields Char := lines.foldl (Fields.line id) {}

/-- `_parse_event_block` makes the event of the fields its lines set. -/
theorem parseEventBlock_eq (block : Text) : (parseEventBlock block).toList
    = ([fieldsOf (linesOf id block)].filter Fields.live).map eventOf := by
  have hfold : ∀ lines : List Text, lines.foldl parseLine {} = .ofFields (fieldsOf lines) := by
    intro lines
    -- the loop of the source keeps the fields as its variables, from any state of them
    have hgen : ∀ f : Fields Char, lines.foldl parseLine (.ofFields f)
        = .ofFields (lines.foldl (Fields.line id) f) := by
      induction lines with
      | nil => exact fun _ => rfl
      | cons line lines ih =>
          intro f
          rw [List.foldl_cons, List.foldl_cons, parseLine_eq, ih]
    exact hgen {}
  rw [parseEventBlock, hfold]
  show (BlockVars.result (.ofFields (fieldsOf (linesOf id block)))).toList = _
  generalize fieldsOf (linesOf id block) = f
  -- an event without data and without a name is dropped
  cases hdata : f.data with
  | nil =>
      cases hevent : f.event with
      | none => simp [BlockVars.result, BlockVars.ofFields, Fields.live, hdata, hevent]
      | some name =>
          simp [BlockVars.result, BlockVars.ofFields, Fields.live, hdata, hevent, eventOf]
  | cons part parts => simp [BlockVars.result, BlockVars.ofFields, Fields.live, hdata, eventOf]

/-! ## Blank lines -/

/-- Lines none of which is empty, but perhaps the last, make one block. -/
theorem blocks_of_ne_nil (f : Fields Char) (lines : List Text) (h : ∀ l ∈ lines.dropLast, l ≠ []) :
    (blocks id f lines).filter Fields.live =
    [lines.foldl (Fields.line id) f].filter Fields.live := by
  induction lines generalizing f with
  | nil => rfl
  | cons line lines ih =>
      cases lines with
      | nil =>
          cases line with
          | nil => simp [blocks, Fields.line_nil, Fields.live, List.filter_cons]
          | cons c line => simp [blocks]
      | cons line' lines =>
          have hline : line ≠ [] := h line (by simp)
          obtain ⟨c, cs, rfl⟩ := List.exists_cons_of_ne_nil hline
          rw [blocks, List.foldl_cons]
          exact ih _ fun l hl => h l (by simpa using .inr hl)

/-- Lines none of which is empty end at an empty line. -/
theorem blocks_append (f : Fields Char) (lines lines' : List Text) (h : ∀ l ∈ lines, l ≠ []) :
    blocks id f (lines ++ [] :: lines') =
      lines.foldl (Fields.line id) f :: blocks id {} lines' := by
  induction lines generalizing f with
  | nil => rfl
  | cons line lines ih =>
      obtain ⟨hline, hlines⟩ := List.forall_mem_cons.mp h
      obtain ⟨c, cs, rfl⟩ := List.exists_cons_of_ne_nil hline
      rw [List.cons_append, blocks, List.foldl_cons]
      exact ih _ hlines

/-- A line break ends an empty line. -/
theorem linesOf_newline (t : Text) : linesOf id ('\n' :: t) = [] :: linesOf id t := by
  simp [linesOf, List.splitOnP_cons_eq_if_modifyHead]

/-- A character continues the first line. -/
theorem linesOf_cons {c : Char} (hc : c ≠ '\n') (t : Text) :
    linesOf id (c :: t) = (linesOf id t).modifyHead (c :: ·) := by
  simp [linesOf, List.splitOnP_cons_eq_if_modifyHead, hc]

/-- The first line is empty only when the text is, or begins with a newline. -/
theorem eq_of_linesOf_nil {ls : List Text} (h : linesOf id t = [] :: ls) :
    (t = [] ∧ ls = []) ∨ t.head? = some '\n' := by
  cases t with
  | nil =>
      have hls : [[]] = [] :: ls := h
      exact .inl ⟨rfl, (List.cons.inj hls).2.symm⟩
  | cons c t =>
      by_cases hc : c = '\n'
      · exact .inr (by simp [hc])
      · rw [linesOf_cons hc] at h
        cases hlines : linesOf id t with
        | nil => exact absurd hlines (List.splitOnP_ne_nil _ _)
        | cons l ls' => simp [hlines] at h

/-- A separator is two line breaks. -/
theorem isPrefixOf_blank {c : Char} :
    "\n\n".toList.isPrefixOf (c :: t) = true ↔ c = '\n' ∧ t.head? = some '\n' := by
  rw [List.isPrefixOf_iff_prefix]
  constructor
  · rintro ⟨rest, hrest⟩
    obtain ⟨rfl, rfl⟩ := List.cons.inj hrest
    exact ⟨rfl, rfl⟩
  · rintro ⟨rfl, ht⟩
    cases t with
    | nil => simp at ht
    | cons d t =>
        obtain rfl : d = '\n' := by simpa using ht
        exact ⟨t, rfl⟩

/-- A text without a blank line has no empty lines but its first and its last. -/
theorem ne_nil_of_no_blank (h : splitOnce "\n\n".toList t = none) :
    ∀ l ∈ (linesOf id t).tail.dropLast, l ≠ [] := by
  induction t with
  | nil => simp [linesOf]
  | cons c t ih =>
      rw [splitOnce] at h
      split at h
      · simp at h
      · next hpre =>
          have hrec := ih (Option.map_eq_none_iff.mp h)
          by_cases hc : c = '\n'
          · rw [hc, linesOf_newline, List.tail_cons]
            cases hlines : linesOf id t with
            | nil => simp
            | cons l ls =>
                rw [hlines, List.tail_cons] at hrec
                cases ls with
                | nil => simp
                | cons l' ls =>
                    rw [List.dropLast_cons_of_ne_nil (by simp)]
                    refine List.forall_mem_cons.mpr ⟨?_, hrec⟩
                    -- a second empty line would be the separator that is not there
                    rintro rfl
                    rcases eq_of_linesOf_nil hlines with ⟨-, hls⟩ | hhead
                    · simp at hls
                    · exact hpre (isPrefixOf_blank.mpr ⟨hc, hhead⟩)
          · rw [linesOf_cons hc]
            cases hlines : linesOf id t with
            | nil => simp
            | cons l ls => simpa [hlines] using hrec

/-- The text before the first blank line has no empty line but its first. -/
theorem ne_nil_of_blank (h : splitOnce "\n\n".toList t = some (block, rest)) :
    ∀ l ∈ (linesOf id block).tail, l ≠ [] := by
  induction t generalizing block with
  | nil => simp [splitOnce] at h
  | cons c t ih =>
      rw [splitOnce] at h
      split at h
      · obtain ⟨rfl, -⟩ := Prod.mk.inj (Option.some.inj h)
        simp [linesOf]
      · next hpre =>
          obtain ⟨⟨block', rest'⟩, hrec, hp⟩ := Option.map_eq_some_iff.mp h
          obtain ⟨rfl, rfl⟩ := Prod.mk.inj hp
          have hlines' := ih hrec
          have ht := eq_append_of_splitOnce hrec
          by_cases hc : c = '\n'
          · rw [hc, linesOf_newline, List.tail_cons]
            cases hlines : linesOf id block' with
            | nil => simp
            | cons l ls =>
                rw [hlines, List.tail_cons] at hlines'
                refine List.forall_mem_cons.mpr ⟨?_, hlines'⟩
                rintro rfl
                -- an empty line behind this break would have split the text earlier
                have hhead : t.head? = some '\n' := by
                  rcases eq_of_linesOf_nil hlines with ⟨hnil, -⟩ | hhead
                  · rw [ht, hnil]
                    rfl
                  · rw [ht, List.append_assoc, List.head?_append, hhead]
                    rfl
                exact hpre (isPrefixOf_blank.mpr ⟨hc, hhead⟩)
          · rw [linesOf_cons hc]
            cases hlines : linesOf id block' with
            | nil => simp
            | cons l ls => simpa [hlines] using hlines'

/-- Without a blank line the whole text is one block. -/
theorem events_of_no_blank (h : splitOnce "\n\n".toList t = none) :
    events id t = [fieldsOf (linesOf id t)].filter Fields.live := by
  have hne := ne_nil_of_no_blank h
  rw [events, fieldsOf]
  cases hlines : linesOf id t with
  | nil => rfl
  | cons l ls =>
      rw [hlines, List.tail_cons] at hne
      cases l with
      | nil =>
          rw [List.foldl_cons, Fields.line_nil, ← blocks_of_ne_nil _ _ hne]
          rfl
      | cons c l =>
          apply blocks_of_ne_nil
          cases ls with
          | nil => simp
          | cons l' ls =>
              rw [List.dropLast_cons_of_ne_nil (by simp)]
              exact List.forall_mem_cons.mpr ⟨by simp, hne⟩

/-- A blank line ends the first block. -/
theorem events_of_blank (h : splitOnce "\n\n".toList t = some (block, rest)) :
    events id t = [fieldsOf (linesOf id block)].filter Fields.live ++ events id rest := by
  have hne := ne_nil_of_blank h
  have ht : t = block ++ '\n' :: '\n' :: rest := by
    rw [eq_append_of_splitOnce h, List.append_assoc]
    rfl
  have hlines : linesOf id t = linesOf id block ++ [] :: linesOf id rest := by
    rw [ht, ← linesOf_newline]
    exact List.splitOnP_append_cons _ _ (by simp)
  rw [events, hlines, fieldsOf, events]
  cases hblock : linesOf id block with
  | nil => exact absurd hblock (List.splitOnP_ne_nil _ _)
  | cons l ls =>
      rw [hblock, List.tail_cons] at hne
      cases l with
      | nil =>
          have hblocks := blocks_append {} ls (linesOf id rest) hne
          rw [List.cons_append, blocks, hblocks, List.foldl_cons, Fields.line_nil,
            List.filter_cons_of_neg (by simp [Fields.live])]
          exact List.filter_append [_] _
      | cons c l =>
          have hall : ∀ line ∈ (c :: l) :: ls, line ≠ [] := List.forall_mem_cons.mpr ⟨by simp, hne⟩
          rw [blocks_append {} _ _ hall]
          exact List.filter_append [_] _

/-! ## The buffer -/

/-- A line of white space sets no field. -/
theorem line_of_isSpace (f : Fields Char) {line : Text} (h : ∀ c ∈ line, isSpace c = true) :
    f.line id line = f := by
  have hname : ∀ c ∈ (fieldName id (stripCr id line)).map id, isSpace c = true := by
    intro c hc
    rw [List.map_id] at hc
    exact h c ((List.rdropWhile_prefix _ _).subset ((List.takeWhile_sublist _).subset hc))
  have hother : ∀ c name, isSpace c = false →
      (fieldName id (stripCr id line)).map id ≠ c :: name := by
    intro c name hc heq
    have := hname c (by simp [heq])
    simp [hc] at this
  rw [Fields.line, if_neg (hother _ _ (by decide)), if_neg (hother _ _ (by decide)),
    if_neg (hother _ _ (by decide))]

/-- A buffer of white space holds no event, so the test for one changes nothing. -/
theorem flush_eq (buffer : Text) : flush buffer = (parseEventBlock buffer).toList := by
  rw [flush]
  split
  · next hspace =>
      have hall := strip_eq_nil.mp hspace
      have hfields : ∀ lines : List Text, (∀ l ∈ lines, ∀ c ∈ l, isSpace c = true) →
          fieldsOf lines = {} := by
        intro lines hlines
        induction lines with
        | nil => rfl
        | cons line lines ih =>
            obtain ⟨hline, hlines⟩ := List.forall_mem_cons.mp hlines
            rw [fieldsOf, List.foldl_cons, line_of_isSpace _ hline]
            exact ih hlines
      rw [parseEventBlock_eq, hfields _ fun l hl c hc => hall c (mem_of_mem_linesOf hl hc)]
      rfl
  · rfl

/-- All events of a buffer: those that blank lines end, and the last one. -/
def finish (buffer : Text) : List SSEEvent := (drain buffer).1 ++ flush (drain buffer).2

/-- Without a separator the buffer is kept. -/
theorem drain_of_none (h : splitOnce "\n\n".toList buffer = none) :
    drain buffer = ([], buffer) := by
  rw [drain]
  split
  · rfl
  · next hsome => exact absurd (h.symm.trans hsome) (by simp)

/-- With a separator the first block is parsed, and the rest drained. -/
theorem drain_of_some (h : splitOnce "\n\n".toList buffer = some (block, rest)) :
    drain buffer = ((parseEventBlock block).toList ++ (drain rest).1, (drain rest).2) := by
  rw [drain]
  split
  · next hnone => exact absurd (h.symm.trans hnone) (by simp)
  · next block' rest' hsome =>
      obtain ⟨rfl, rfl⟩ := Prod.mk.inj (Option.some.inj (h.symm.trans hsome))
      rfl

/-- What `drain` leaves in the buffer has no blank line. -/
theorem splitOnce_drain (buffer : Text) : splitOnce "\n\n".toList (drain buffer).2 = none := by
  induction buffer using drain.induct with
  | case1 buffer h => rw [drain_of_none h, h]
  | case2 buffer block rest h ih => rw [drain_of_some h, ih]

/-- Draining a buffer early yields the same events. -/
theorem finish_append (buffer t : Text) :
    finish (buffer ++ t) = (drain buffer).1 ++ finish ((drain buffer).2 ++ t) := by
  induction buffer using drain.induct with
  | case1 buffer h => rw [drain_of_none h, List.nil_append]
  | case2 buffer block rest h ih =>
      rw [drain_of_some h]
      have happend := drain_of_some (splitOnce_append h t)
      rw [finish, happend, List.append_assoc, ← finish, ih, List.append_assoc]

/-- The events of a buffer are the events of its lines. -/
theorem finish_eq (buffer : Text) : finish buffer = (events id buffer).map eventOf := by
  induction buffer using drain.induct with
  | case1 buffer h =>
      rw [finish, drain_of_none h, List.nil_append, flush_eq, parseEventBlock_eq,
        events_of_no_blank h]
  | case2 buffer block rest h ih =>
      rw [finish, drain_of_some h, List.append_assoc, ← finish, ih, parseEventBlock_eq,
        events_of_blank h, List.map_append]

/-- From a drained buffer on, `parse_sse` reads the buffer and what the chunks are decoded to. -/
theorem parseFrom_eq (buffer : Text) (chunks : List (List UInt8))
    (h : splitOnce "\n\n".toList buffer = none) :
    parseFrom buffer chunks = finish (buffer ++ chunks.flatMap decode) := by
  induction chunks generalizing buffer with
  | nil =>
      rw [parseFrom, List.flatMap_nil, List.append_nil, finish, drain_of_none h, List.nil_append]
  | cons chunk chunks ih =>
      rw [parseFrom, feed, List.flatMap_cons]
      split
      · next hempty =>
          rw [hempty, List.nil_append, ih buffer h]
          rfl
      · rw [ih _ (splitOnce_drain _), ← finish_append, List.append_assoc]

/-- **Refinement.** `parse_sse` reads the characters its chunks are decoded to as an event stream.
-/
theorem parseSse_eq (chunks : List (List UInt8)) :
    parseSse chunks = (events id (chunks.flatMap decode)).map eventOf := by
  rw [parseSse, parseFrom_eq [] chunks rfl, List.nil_append, finish_eq]

end SynGateway.Core.Sse
