import SynGateway.Common.Utf8.Decode
import SynGateway.Python.Text

/-!
# The SSE parser

`app/core/sse.py`. The chunks arrive as a list of byte strings; `feed` is one turn of the `async
for` loop, with the events it yields and the buffer it leaves, and `flush` is what follows the loop.
-/

namespace SynGateway.Core.Sse

open SynGateway.Python SynGateway.Utf8

/-- `SSEEvent`. -/
structure SSEEvent where
  data : Text
  event : Option Text := none
  id : Option Text := none
deriving DecidableEq, Repr

/-- `SSEEvent.is_done`. -/
def SSEEvent.isDone (e : SSEEvent) : Bool := strip e.data = "[DONE]".toList

/-- The local variables of `_parse_event_block`. -/
structure BlockVars where
  dataParts : List Text := []
  eventName : Option Text := none
  eventId : Option Text := none
deriving DecidableEq, Repr

/-- The loop body of `_parse_event_block`. -/
def parseLine (vars : BlockVars) (line : Text) : BlockVars :=
  let line := rstrip '\r' line
  if line = [] then vars
  else if line.head? = some ':' then vars
  else
    let (fieldName, value) :=
      if ':' ∈ line then
        let (fieldName, value) := partition ':' line
        (fieldName, if value.head? = some ' ' then value.drop 1 else value)
      else (line, [])
    if fieldName = "data".toList then { vars with dataParts := vars.dataParts ++ [value] }
    else if fieldName = "event".toList then { vars with eventName := some value }
    else if fieldName = "id".toList then { vars with eventId := some value }
    else vars

/-- The end of `_parse_event_block`. -/
def BlockVars.result (vars : BlockVars) : Option SSEEvent :=
  if vars.dataParts = [] ∧ vars.eventName = none then none
  else some { data := join "\n".toList vars.dataParts, event := vars.eventName, id := vars.eventId }

/-- `_parse_event_block`. -/
def parseEventBlock (block : Text) :
    Option SSEEvent := ((split '\n' block).foldl parseLine {}).result

/-- `while "\n\n" in buffer: ...`: the events that are yielded, and the buffer that is left. -/
def drain (buffer : Text) : List SSEEvent × Text :=
  match _h : splitOnce "\n\n".toList buffer with
  | none => ([], buffer)
  | some (block, rest) => ((parseEventBlock block).toList ++ (drain rest).1, (drain rest).2)
termination_by buffer.length
decreasing_by exact length_of_splitOnce _h (by simp)

/-- One turn of `async for chunk in chunks`. -/
def feed (buffer : Text) (chunk : List UInt8) : List SSEEvent × Text :=
  if chunk = [] then ([], buffer) else drain (buffer ++ decode chunk)

/-- "Flush any remaining buffer at end of stream." -/
def flush (buffer : Text) : List SSEEvent :=
  if strip buffer = [] then [] else (parseEventBlock buffer).toList

/-- `parse_sse` from a buffer on. -/
def parseFrom (buffer : Text) : List (List UInt8) → List SSEEvent
  | [] => flush buffer
  | chunk :: chunks => (feed buffer chunk).1 ++ parseFrom (feed buffer chunk).2 chunks

/-- `parse_sse`: the events that the generator yields, in order. -/
def parseSse (chunks : List (List UInt8)) : List SSEEvent := parseFrom [] chunks

end SynGateway.Core.Sse
