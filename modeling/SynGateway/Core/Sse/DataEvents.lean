import SynGateway.Common.Utf8.Cuts
import SynGateway.Core.Sse.Refinement

/-!
# Streams of data events

A stream in which every event is one `data` line, with comments and blank lines between the events.
However it is cut between characters, `parse_sse` yields the data line by line and then what other
bytes hold (`parseSse_dataEvents`).
-/

namespace SynGateway.Core.Sse

open SynGateway.Python SynGateway.Utf8 SynGateway.EventStream

/-- A comment or a blank line. -/
def IsNoise (line : Text) : Prop := '\n' ∉ line ∧ (line = [] ∨ line.head? = some ':')

/-- A data event, and the lines before it. -/
structure DataEvent where
  noise : List Text := []
  data : Text
  isNoise : ∀ line ∈ noise, IsNoise line
  noNewline : '\n' ∉ data
  noReturn : '\r' ∉ data

/-- The event as it is sent. -/
def DataEvent.text (event : DataEvent) : Text :=
  event.noise.flatMap (· ++ ['\n']) ++ ("data: ".toList ++ event.data ++ "\n\n".toList)

/-- The event as it is read. -/
def DataEvent.event (event : DataEvent) : SSEEvent := { data := event.data }

variable {line data : Text} {lines : List Text} {junk : List UInt8} {chunks : List (List UInt8)}

/-! ## Lines -/

/-- A line without a newline is the first line of what it begins. -/
theorem linesOf_append_newline (hline : '\n' ∉ line) (rest : Text) :
    linesOf id (line ++ '\n' :: rest) = line :: linesOf id rest := by
  have hnewline : ∀ c ∈ line, decide (id c = '\n') = false := by
    intro c hc
    exact decide_eq_false fun heq : c = '\n' => hline (heq ▸ hc)
  unfold linesOf
  rw [splitOnP_append hnewline, List.splitOnP_cons_eq_if_modifyHead]
  simp

/-- A comment sets no field. -/
theorem line_of_comment (f : Fields Char) (rest : Text) : f.line id (':' :: rest) = f := by
  have hstrip : ∃ rest', stripCr id (':' :: rest) = ':' :: rest' :=
    rdropWhile_cons_of_neg (by decide) rest
  obtain ⟨rest', hrest⟩ := hstrip
  have hname : fieldName id (':' :: rest') = [] := rfl
  unfold Fields.line
  simp only [hrest, hname, List.map_nil]
  rfl

/-- Comments and blank lines make no event. -/
theorem blocks_noise (hnoise : IsNoise line) :
    (blocks id {} (line :: lines)).filter Fields.live =
    (blocks id {} lines).filter Fields.live := by
  rcases hnoise.2 with rfl | hcolon
  · exact List.filter_cons_of_neg Bool.false_ne_true
  · cases line with
    | nil => cases hcolon
    | cons c rest =>
        obtain rfl : c = ':' := Option.some.inj hcolon
        rw [blocks, line_of_comment]

/-- A line without a carriage return is left as it is. -/
theorem stripCr_of_not_mem (hreturn : '\r' ∉ line) : stripCr id line = line := by
  refine List.rdropWhile_eq_self_iff.mpr fun hne hlast => ?_
  have heq : line.getLast hne = '\r' := of_decide_eq_true hlast
  exact hreturn (heq ▸ List.getLast_mem hne)

/-- A data line adds its data. -/
theorem line_data (f : Fields Char) (hreturn : '\r' ∉ data) :
    f.line id ("data: ".toList ++ data) = { f with data := f.data ++ [data] } := by
  have hline : '\r' ∉ "data: ".toList ++ data := by simpa using hreturn
  unfold Fields.line
  rw [stripCr_of_not_mem hline]
  rfl

/-! ## Events -/

/-- The noise before an event. -/
theorem events_noise (hnoise : ∀ line ∈ lines, IsNoise line) (rest : Text) :
    events id (lines.flatMap (· ++ ['\n']) ++ rest) = events id rest := by
  induction lines with
  | nil => rfl
  | cons line lines ih =>
      obtain ⟨hline, hlines⟩ := List.forall_mem_cons.mp hnoise
      rw [List.flatMap_cons, List.append_assoc, List.append_assoc, List.singleton_append, events,
        linesOf_append_newline hline.1, blocks_noise hline]
      exact ih hlines

/-- The event itself. -/
theorem events_data (hnewline : '\n' ∉ data) (hreturn : '\r' ∉ data) (rest : Text) :
    events id ("data: ".toList ++ data ++ "\n\n".toList ++ rest) =
    { data := [data] } :: events id rest := by
  have hline : '\n' ∉ "data: ".toList ++ data := by simpa using hnewline
  have hblank : "\n\n".toList ++ rest = '\n' :: '\n' :: rest := rfl
  rw [List.append_assoc, hblank, events, linesOf_append_newline hline, linesOf_newline]
  have hblocks : blocks id {} (("data: ".toList ++ data) :: [] :: linesOf id rest) =
      { data := [data] } :: blocks id {} (linesOf id rest) := by
    have happend := blocks_append {} ["data: ".toList ++ data] (linesOf id rest) (by simp)
    rw [List.foldl_cons, line_data {} hreturn] at happend
    exact happend
  rw [hblocks]
  rfl

/-- One data line makes an event of this data. -/
theorem eventOf_data (data : Text) : eventOf { data := [data] } = { data := data } := by
  simp [eventOf, join]

/-- A stream of data events is read as these events and what follows them. -/
theorem events_dataEvents (dataEvents : List DataEvent) (rest : Text) :
    (events id (dataEvents.flatMap DataEvent.text ++ rest)).map eventOf =
      dataEvents.map DataEvent.event ++ (events id rest).map eventOf := by
  induction dataEvents with
  | nil => rfl
  | cons event dataEvents ih =>
      rw [List.flatMap_cons, List.append_assoc, DataEvent.text, List.append_assoc,
        events_noise event.isNoise, events_data event.noNewline event.noReturn, List.map_cons, ih,
        eventOf_data]
      rfl

/-- **Data events.** However the bytes are cut between characters, the events come out one by one,
and nothing else if nothing follows them. -/
theorem parseSse_dataEvents {dataEvents : List DataEvent}
    (hflatten : chunks.flatten = encode (dataEvents.flatMap DataEvent.text) ++ junk)
    (hcuts : CutsBetweenCharacters (encode (dataEvents.flatMap DataEvent.text)) chunks) :
    ∃ rest, parseSse chunks = dataEvents.map DataEvent.event ++ rest ∧ (junk = [] → rest = []) := by
  obtain ⟨text, htext, hjunk⟩ := flatMap_decode_of_cuts hflatten hcuts
  refine ⟨(events id text).map eventOf, ?_, fun hnil => ?_⟩
  · rw [parseSse_eq, htext, events_dataEvents]
  · rw [hjunk hnil]
    rfl

end SynGateway.Core.Sse
