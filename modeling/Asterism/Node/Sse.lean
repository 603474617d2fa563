import Asterism.Json

/-!
# Reading an event stream

The backend sends its events as text that arrives in pieces of any size. The parser keeps the
unfinished line and the fields of the unfinished event between two pieces, so what it delivers does
not depend on where the text was cut.
-/

namespace Asterism.Sse

/-- `SseEvent`: an event of the stream. -/
structure SseEvent where
  event : Option (List Char)
  data : List Char
  deriving DecidableEq

/-- The fields of an event that is not finished. -/
structure SseFields where
  eventName : Option (List Char) := none
  dataLines : List (List Char) := []
  deriving DecidableEq

/-- `SseParser`: what the parser keeps: besides the fields, the line that is not finished. -/
structure SseParser extends SseFields where
  buffer : List Char := []
  deriving DecidableEq

/-- The loop of `push`: the finished lines at the front of the buffer, and what is left of it. -/
def takeLines : List Char → List (List Char) × List Char
  | [] => ([], [])
  | c :: chars =>
    if c = '\n' then ([] :: (takeLines chars).1, (takeLines chars).2)
    else
      match takeLines chars with
      | ([], left) => ([], c :: left)
      | (line :: later, left) => ((c :: line) :: later, left)

namespace SseFields

/-- `finish_event`: the event that the fields make, if there is one. -/
def finishEvent (fields : SseFields) : List SseEvent × SseFields :=
  if fields.dataLines = [] ∧ fields.eventName = none then ([], fields)
  else ([⟨fields.eventName, ['\n'].intercalate fields.dataLines⟩], {})

/-- `push`, on one finished line. -/
def acceptLine (fields : SseFields) (line : List Char) : List SseEvent × SseFields :=
  let line := if line.getLast? = some '\r' then line.dropLast else line
  if line = [] then fields.finishEvent
  else if line.head? = some ':' then ([], fields)
  else
    let parts := match Text.splitOnce [':'] line with
      | some (field, value) => (field, if value.head? = some ' ' then value.tail else value)
      | none => (line, [])
    if parts.1 = "event".toList then ([], { fields with eventName := some parts.2 })
    else if parts.1 = "data".toList then
      ([], { fields with dataLines := fields.dataLines ++ [parts.2] })
    else ([], fields)

def acceptLines (fields : SseFields) : List (List Char) → List SseEvent × SseFields
  | [] => ([], fields)
  | line :: later =>
    let first := fields.acceptLine line
    let rest := first.2.acceptLines later
    (first.1 ++ rest.1, rest.2)

theorem acceptLines_append (fields : SseFields) (first second : List (List Char)) :
    fields.acceptLines (first ++ second) =
      ((fields.acceptLines first).1 ++ ((fields.acceptLines first).2.acceptLines second).1,
        ((fields.acceptLines first).2.acceptLines second).2) := by
  induction first generalizing fields with
  | nil => rfl
  | cons line first ih => simp only [List.cons_append, acceptLines, ih, List.append_assoc]

end SseFields

namespace SseParser

/-- `push`: take in a piece of the stream. -/
def push (parser : SseParser) (chunk : List Char) : List SseEvent × SseParser :=
  let taken := takeLines (parser.buffer ++ chunk)
  let accepted := parser.acceptLines taken.1
  (accepted.1, { accepted.2 with buffer := taken.2 })

def pushAll (parser : SseParser) (chunks : List (List Char)) : List SseEvent × SseParser :=
  chunks.foldl (fun taken chunk => ((taken.1 ++ (taken.2.push chunk).1), (taken.2.push chunk).2))
    ([], parser)

end SseParser

/-! ## Where the text is cut -/

theorem takeLines_line {line : List Char} (hline : '\n' ∉ line) (rest : List Char) :
    takeLines (line ++ '\n' :: rest) = (line :: (takeLines rest).1, (takeLines rest).2) := by
  induction line with
  | nil => rfl
  | cons c line ih =>
    have hc : c ≠ '\n' := fun h => hline (h ▸ List.mem_cons_self)
    have hrest : '\n' ∉ line := fun h => hline (List.mem_cons_of_mem c h)
    simp only [List.cons_append, takeLines, if_neg hc, ih hrest]

theorem takeLines_append (first second : List Char) :
    takeLines (first ++ second) =
      ((takeLines first).1 ++ (takeLines ((takeLines first).2 ++ second)).1,
        (takeLines ((takeLines first).2 ++ second)).2) := by
  induction first with
  | nil => rfl
  | cons c chars ih =>
    by_cases hc : c = '\n'
    · simp only [List.cons_append, takeLines, if_pos hc, ih]
    · cases hlines : takeLines chars with
      | mk lines left =>
        rw [hlines] at ih
        cases lines with
        | nil => simp only [List.cons_append, takeLines, if_neg hc, hlines, ih, List.nil_append]
        | cons line later => simp only [List.cons_append, takeLines, if_neg hc, hlines, ih]

/-- A piece that is cut in two gives the same events and leaves the same behind. -/
theorem SseParser.push_append (parser : SseParser) (first second : List Char) :
    parser.push (first ++ second) =
      ((parser.push first).1 ++ ((parser.push first).2.push second).1,
        ((parser.push first).2.push second).2) := by
  simp only [push, ← List.append_assoc, takeLines_append (parser.buffer ++ first) second,
    SseFields.acceptLines_append]

/-- The pieces of a stream give what the whole stream gives. -/
theorem SseParser.pushAll_eq_push (chunks : List (List Char)) :
    pushAll {} chunks = push {} chunks.flatten := by
  induction chunks using List.reverseRecOn with
  | nil => rfl
  | append_singleton chunks chunk ih =>
    have hlast : pushAll {} (chunks ++ [chunk]) =
        ((pushAll {} chunks).1 ++ ((pushAll {} chunks).2.push chunk).1,
          ((pushAll {} chunks).2.push chunk).2) := by
      simp only [pushAll, List.foldl_append, List.foldl_cons, List.foldl_nil]
    rw [hlast, ih, List.flatten_append, List.flatten_singleton, push_append]

/-! ## Streams as they are written -/

/-- Text within one line. -/
structure LineText where
  chars : List Char
  no_newline : '\n' ∉ chars
  no_return : '\r' ∉ chars

inductive LineEnd
  | lf
  | crlf
  deriving DecidableEq

def LineEnd.chars : LineEnd → List Char
  | lf => []
  | crlf => ['\r']

inductive Line
  | comment (text : LineText)
  | event (name : LineText)
  | data (text : LineText)
  | blank

def Line.chars : Line → List Char
  | comment text => ':' :: text.chars
  | event name => "event: ".toList ++ name.chars
  | data text => "data: ".toList ++ text.chars
  | blank => []

/-- The line is not a comment. -/
def Line.speaks : Line → Bool
  | comment _ => false
  | event _ | data _ | blank => true

def render (stream : List (Line × LineEnd)) : List Char :=
  stream.flatMap fun line => line.1.chars ++ line.2.chars ++ ['\n']

/-- An event to be sent. -/
structure Message where
  name : LineText
  data : List LineText

def Message.lines (message : Message) : List Line :=
  .event message.name :: message.data.map .data ++ [.blank]

def Message.event (message : Message) : SseEvent :=
  ⟨some message.name.chars, ['\n'].intercalate (message.data.map LineText.chars)⟩

theorem LineText.plain (text : LineText) {start : List Char}
    (hstart : '\n' ∉ start ∧ '\r' ∉ start) :
    '\n' ∉ start ++ text.chars ∧ '\r' ∉ start ++ text.chars := by
  rw [List.mem_append, List.mem_append, not_or, not_or]
  exact ⟨⟨hstart.1, text.no_newline⟩, hstart.2, text.no_return⟩

theorem Line.plain (line : Line) : '\n' ∉ line.chars ∧ '\r' ∉ line.chars := by
  cases line with
  | comment text => exact @LineText.plain text [':'] (by decide)
  | event name => exact name.plain (by decide)
  | data text => exact text.plain (by decide)
  | blank => exact ⟨List.not_mem_nil, List.not_mem_nil⟩

theorem takeLines_render (stream : List (Line × LineEnd)) :
    takeLines (render stream) = (stream.map fun line => line.1.chars ++ line.2.chars, []) := by
  induction stream with
  | nil => rfl
  | cons line stream ih =>
    have hline : '\n' ∉ line.1.chars ++ line.2.chars := by
      rw [List.mem_append, not_or]
      refine ⟨line.1.plain.1, ?_⟩
      cases line.2 <;> decide
    rw [render] at ih ⊢
    rw [List.flatMap_cons, List.append_assoc, List.singleton_append, takeLines_line hline, ih,
      List.map_cons]

/-- What one line does to the fields. -/
def SseFields.hear (fields : SseFields) : Line → List SseEvent × SseFields
  | .comment _ => ([], fields)
  | .event name => ([], { fields with eventName := some name.chars })
  | .data text => ([], { fields with dataLines := fields.dataLines ++ [text.chars] })
  | .blank => fields.finishEvent

theorem SseFields.acceptLine_eq_hear (fields : SseFields) (line : Line) (ending : LineEnd) :
    fields.acceptLine (line.chars ++ ending.chars) = fields.hear line := by
  have hchomped : (if (line.chars ++ ending.chars).getLast? = some '\r'
      then (line.chars ++ ending.chars).dropLast else line.chars ++ ending.chars) = line.chars := by
    cases ending with
    | lf =>
      rw [LineEnd.chars, List.append_nil, if_neg]
      exact fun hlast => line.plain.2 (List.mem_of_getLast? hlast)
    | crlf => rw [LineEnd.chars, List.getLast?_concat, if_pos rfl, List.dropLast_concat]
  unfold acceptLine
  rw [hchomped]
  cases line <;> rfl

/-- Take in the lines of a stream as they are meant. -/
def SseFields.hearAll (fields : SseFields) : List Line → List SseEvent × SseFields
  | [] => ([], fields)
  | line :: later =>
    let first := fields.hear line
    let rest := first.2.hearAll later
    (first.1 ++ rest.1, rest.2)

theorem SseFields.acceptLines_eq_hearAll (fields : SseFields) (stream : List (Line × LineEnd)) :
    fields.acceptLines (stream.map fun line => line.1.chars ++ line.2.chars) =
      fields.hearAll ((stream.map Prod.fst).filter Line.speaks) := by
  induction stream generalizing fields with
  | nil => rfl
  | cons line stream ih =>
    rw [List.map_cons, acceptLines, acceptLine_eq_hear, ih, List.map_cons]
    cases hline : line.1 <;> rfl

theorem SseFields.hearAll_data (fields : SseFields) (data : List LineText) (later : List Line) :
    fields.hearAll (data.map .data ++ later) =
      { fields with dataLines := fields.dataLines ++ data.map LineText.chars }.hearAll later := by
  induction data generalizing fields with
  | nil => rw [List.map_nil, List.map_nil, List.nil_append, List.append_nil]
  | cons text data ih =>
    rw [List.map_cons, List.cons_append, hearAll, hear, ih]
    simp only [List.nil_append, List.map_cons, List.append_assoc, List.singleton_append]

/-- The lines of events give the events, and nothing is left of them. -/
theorem SseFields.hearAll_messages (messages : List Message) :
    hearAll {} (messages.flatMap Message.lines) = (messages.map Message.event, {}) := by
  induction messages with
  | nil => rfl
  | cons message messages ih =>
    -- A blank line ends the event, since it has a name.
    have hfinished : finishEvent ⟨some message.name.chars, message.data.map LineText.chars⟩ =
        ([message.event], {}) := if_neg fun hempty => Option.some_ne_none _ hempty.2
    rw [List.flatMap_cons, Message.lines, List.append_assoc, List.cons_append, hearAll, hear]
    simp only [hearAll_data, List.singleton_append, List.nil_append, hearAll, hear, hfinished, ih,
      List.map_cons]

/-- However a stream of events is cut into pieces, the parser delivers the events in order, each
with its data lines joined, and is left empty. Comments may stand between any two lines, and every
line may end in either way. -/
theorem pushAll_render (messages : List Message) (stream : List (Line × LineEnd))
    (hstream : (stream.map Prod.fst).filter Line.speaks = messages.flatMap Message.lines)
    (chunks : List (List Char)) (hchunks : chunks.flatten = render stream) :
    SseParser.pushAll {} chunks = (messages.map Message.event, {}) := by
  rw [SseParser.pushAll_eq_push, hchunks, SseParser.push, List.nil_append, takeLines_render,
    SseFields.acceptLines_eq_hearAll, hstream, SseFields.hearAll_messages]

def letter : LineText := ⟨['a'], by decide, by decide⟩

/-- An event with two data lines and a comment between them, cut within a line end. -/
theorem pushAll_letter :
    SseParser.pushAll {} ["event: a\nda".toList, "ta: a\r".toList, "\n:a\ndata: a\n\n".toList] =
      ([⟨some ['a'], "a\na".toList⟩], {}) :=
  pushAll_render [⟨letter, [letter, letter]⟩]
    [(.event letter, .lf), (.data letter, .crlf), (.comment letter, .lf), (.data letter, .lf),
      (.blank, .lf)] rfl _ rfl

end Asterism.Sse
