import SynGateway.Core.Sse.DataEvents

/-!
# Reading back what was sent

Events with a name and with data of several lines, as a server sends them: a line for the name, a
line for each line of the data, and a blank line. `parse_sse` gives back the events, however the
text was cut between characters (`parseSse_sent`).
-/

namespace SynGateway.Core.Sse

open SynGateway.Python SynGateway.Utf8 SynGateway.EventStream

/-- An event that can be sent: no carriage return in it, and no newline in its name. -/
structure SentEvent where
  data : Text
  event : Option Text := none
  noReturn : '\r' ∉ data
  oneLine : ∀ name ∈ event, '\r' ∉ name ∧ '\n' ∉ name

namespace SentEvent

/-- The line for the name, if there is one. -/
def nameLines : Option Text → List Text
  | none => []
  | some name => ["event: ".toList ++ name]

/-- The lines for the data. -/
def dataLines (data : Text) : List Text := (split '\n' data).map ("data: ".toList ++ ·)

/-- The lines of the event, without the blank one. -/
def lines (event : SentEvent) : List Text := nameLines event.event ++ dataLines event.data

/-- The event as it is sent. -/
def text (event : SentEvent) : Text := event.lines.flatMap (· ++ ['\n']) ++ ['\n']

/-- The event as it should be read. -/
def read (event : SentEvent) : SSEEvent := { data := event.data, event := event.event }

end SentEvent

open SentEvent

variable {line data name : Text} {lines : List Text}

/-! ## Lines -/

/-- Lines are read one by one. -/
theorem linesOf_lines (hlines : ∀ line ∈ lines, '\n' ∉ line) (rest : Text) :
    linesOf id (lines.flatMap (· ++ ['\n']) ++ rest) = lines ++ linesOf id rest := by
  induction lines with
  | nil => rfl
  | cons line lines ih =>
      obtain ⟨hline, hrest⟩ := List.forall_mem_cons.mp hlines
      rw [List.flatMap_cons, List.append_assoc, List.append_assoc, List.singleton_append,
        linesOf_append_newline hline, ih hrest]
      rfl

/-- No line of a text has a newline. -/
theorem not_mem_linesOf (text : Text) : ∀ line ∈ linesOf id text, '\n' ∉ line := by
  induction text with
  | nil =>
      intro line hline
      obtain rfl : line = [] := List.mem_singleton.mp hline
      exact List.not_mem_nil
  | cons c text ih =>
      by_cases hc : c = '\n'
      · rw [hc, linesOf_newline]
        exact List.forall_mem_cons.mpr ⟨List.not_mem_nil, ih⟩
      · rw [linesOf_cons hc]
        cases hlines : linesOf id text with
        | nil => exact List.forall_mem_nil _
        | cons line lines =>
            rw [hlines] at ih
            obtain ⟨hline, hrest⟩ := List.forall_mem_cons.mp ih
            refine List.forall_mem_cons.mpr ⟨?_, hrest⟩
            rintro (_ | ⟨_, hmem⟩)
            · exact hc rfl
            · exact hline hmem

/-- The lines of the data make up the data. -/
theorem join_split (data : Text) : join "\n".toList (split '\n' data) = data :=
  List.intercalate_splitOn '\n'

/-- A line for the name sets the name. -/
theorem line_event (f : Fields Char) (hreturn : '\r' ∉ name) :
    f.line id ("event: ".toList ++ name) = { f with event := some name } := by
  have hline : '\r' ∉ "event: ".toList ++ name := by simpa using hreturn
  unfold Fields.line
  rw [stripCr_of_not_mem hline]
  rfl

/-- The lines for some data add it. -/
theorem foldl_dataLines (f : Fields Char) (hlines : ∀ line ∈ lines, '\r' ∉ line) :
    (lines.map ("data: ".toList ++ ·)).foldl (Fields.line id) f =
    { f with data := f.data ++ lines } := by
  induction lines generalizing f with
  | nil => rw [List.map_nil, List.foldl_nil, List.append_nil]
  | cons line lines ih =>
      obtain ⟨hline, hrest⟩ := List.forall_mem_cons.mp hlines
      rw [List.map_cons, List.foldl_cons, line_data f hline, ih _ hrest, List.append_assoc]
      rfl

/-! ## Events -/

namespace SentEvent

variable (event : SentEvent)

variable {event} in
/-- Every line is that of the name, or one of the data. -/
theorem mem_lines (h : line ∈ event.lines) :
    (∃ name ∈ event.event, line = "event: ".toList ++ name) ∨
      ∃ part ∈ split '\n' event.data, line = "data: ".toList ++ part := by
  rcases List.mem_append.mp h with hline | hline
  · cases hname : event.event with
    | none =>
        rw [hname] at hline
        cases hline
    | some name =>
        rw [hname] at hline
        exact .inl ⟨name, rfl, List.mem_singleton.mp hline⟩
  · obtain ⟨part, hpart, rfl⟩ := List.mem_map.mp hline
    exact .inr ⟨part, hpart, rfl⟩

/-- The lines of an event that is sent are lines. -/
theorem noNewline : ∀ line ∈ event.lines, '\n' ∉ line := by
  intro line hline
  rcases mem_lines hline with ⟨name, hname, rfl⟩ | ⟨part, hpart, rfl⟩
  · simpa using (event.oneLine name hname).2
  · simpa using not_mem_linesOf event.data part hpart

/-- No line but the last one is blank. -/
theorem lines_ne_nil : ∀ line ∈ event.lines, line ≠ [] := by
  intro line hline
  rcases mem_lines hline with ⟨name, -, rfl⟩ | ⟨part, -, rfl⟩
  · exact List.cons_ne_nil _ _
  · exact List.cons_ne_nil _ _

/-- The fields that the lines set. -/
theorem foldl_lines :
    event.lines.foldl (Fields.line id) {} =
      { data := split '\n' event.data, event := event.event } := by
  have hdata : ∀ line ∈ split '\n' event.data, '\r' ∉ line := by
    intro line hline hmem
    have hlines : line ∈ linesOf id event.data := hline
    exact event.noReturn (mem_of_mem_linesOf hlines hmem)
  unfold lines dataLines
  rw [List.foldl_append, foldl_dataLines _ hdata]
  cases hname : event.event with
  | none => rfl
  | some name =>
      have hline : [("event: ".toList ++ name)].foldl (Fields.line id) {} =
          { event := some name } :=
        line_event {} (event.oneLine name hname).1
      unfold nameLines
      rw [hline]
      rfl

/-- An event comes before what follows it. -/
theorem events_text (rest : Text) :
    events id (event.text ++ rest) =
      { data := split '\n' event.data, event := event.event } :: events id rest := by
  have hlines : linesOf id (event.text ++ rest) = event.lines ++ [] :: linesOf id rest := by
    unfold text
    rw [List.append_assoc, linesOf_lines event.noNewline, List.singleton_append, linesOf_newline]
  have hlive : Fields.live { data := split '\n' event.data, event := event.event } = true := by
    unfold Fields.live
    rw [Bool.or_eq_true, Bool.not_eq_true', List.isEmpty_eq_false_iff]
    exact .inl (List.splitOnP_ne_nil _ _)
  rw [events, hlines, blocks_append {} event.lines _ event.lines_ne_nil, foldl_lines,
    List.filter_cons_of_pos hlive, events]

/-- The fields of an event that is sent make the event that is read. -/
theorem eventOf_fields :
    eventOf { data := split '\n' event.data, event := event.event } = event.read := by
  unfold eventOf read
  dsimp only
  rw [join_split]

end SentEvent

/-- A text of events is read as these events. -/
theorem events_sent (sent : List SentEvent) :
    (events id (sent.flatMap text)).map eventOf = sent.map read := by
  induction sent with
  | nil => rfl
  | cons event sent ih =>
      rw [List.flatMap_cons, events_text, List.map_cons, List.map_cons, eventOf_fields, ih]

/-- **The round trip.** However the text of some events is cut into pieces, they are read as they
were sent. -/
theorem parseSse_sent (sent : List SentEvent) (pieces : List Text)
    (hpieces : pieces.flatten = sent.flatMap text) :
    parseSse (pieces.map encode) = sent.map read := by
  have hdecode : (pieces.map encode).flatMap decode = pieces.flatten := by
    rw [List.flatMap_map, List.flatten_eq_flatMap]
    exact List.flatMap_congr fun piece _ => decode_encode piece
  rw [parseSse_eq, hdecode, hpieces, events_sent]

/-- Data of two lines, the second of which begins with a space, cut inside the blank line. -/
theorem parseSse_sent_lines :
    parseSse (["event: e\ndata: a\ndata:  b\n".toList, "\n".toList].map encode) =
      [{ data := "a\n b".toList, event := some "e".toList }] :=
  parseSse_sent [⟨"a\n b".toList, some "e".toList, by decide, by simp⟩] _ (by rfl)

end SynGateway.Core.Sse
