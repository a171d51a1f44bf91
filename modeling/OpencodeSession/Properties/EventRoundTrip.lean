import OpencodeSession.Session.EventStream

/-!
# Event streams give back the events that were sent

`SseEvent` is an event as a server sends it, and `SseEvent.lines` its block of lines without their
ends.  What a stream may look like is left open as far as the format leaves it open: `Blocks` puts
the blocks one after the other, with further blank lines and perhaps without the last one, and
`Carries` gives every line one of its ends, as text or as bytes, and puts comments anywhere.

The reader gives the events of every such stream (`iterEventStream_encode`).  Its loop holds, at
each line of a block, the fields that the block has shown so far, and nothing between blocks.
-/

namespace OpencodeSession

open EventStream

/-- An event that is sent: its name, its id and the lines of its data. -/
structure SseEvent where
  name : Option String
  id : Option String
  data : List String
  /-- No field has the end of a line in it. -/
  oneLine : ∀ text ∈ name.toList ++ id.toList ++ data, ∀ c ∈ text.toList, c ≠ '\r' ∧ c ≠ '\n'
  /-- There is a field. -/
  present : name ≠ none ∨ id ≠ none ∨ data ≠ []

namespace SseEvent

/-- The line of a field. -/
def fieldLine (field : String) (value : String) : List Char :=
  field.toList ++ ':' :: ' ' :: value.toList

/-- The lines of an event. -/
def lines (event : SseEvent) : List (List Char) :=
  event.name.toList.map (fieldLine "event") ++ event.id.toList.map (fieldLine "id") ++
    event.data.map (fieldLine "data")

/-- The name and the id of an event, as fields that its data does not have. -/
def attributes (event : SseEvent) (fields : List (String × JsonValue)) :
    List (String × JsonValue) :=
  [("event", event.name), ("event_id", event.id)].filterMap fun field =>
    if (Dict.lookup field.1 fields).isSome then none
    else field.2.map fun value => (field.1, .str value)

/-- What an event says: the fields of its data, and its name and its id.  Without data there are no
fields, and data that is no object is a field of its own.  There is nothing when the data is no
JSON text. -/
def decoded (loads : String → Except String JsonValue) (event : SseEvent) : Option JsonValue :=
  let data := if "\n".intercalate event.data = "" then some (.obj [])
    else (loads ("\n".intercalate event.data)).toOption
  data.map fun data => .obj (dataFields data ++ event.attributes (dataFields data))

/-- The fields of an event as the loop gathers them. -/
def parts (event : SseEvent) : EventParts := ⟨event.name, event.id, event.data⟩

/-- The stream of some events, each line as bytes that end in LF. -/
def encode (events : List SseEvent) : List RawLine :=
  (events.flatMap fun event => event.lines ++ [[]]).map fun line =>
    .bytes (Utf8.encode (line ++ ['\n']))

end SseEvent

/-! ## Streams -/

/-- A line with its end, as text or as bytes. -/
inductive IsLine (line : List Char) : RawLine → Prop
  | text {ending : List Char} (h : ending ∈ [[], ['\n'], ['\r', '\n']]) :
    IsLine line (.text (String.ofList (line ++ ending)))
  | bytes {ending : List Char} (h : ending ∈ [[], ['\n'], ['\r', '\n']]) :
    IsLine line (.bytes (Utf8.encode (line ++ ending)))

/-- The blocks of events, with further blank lines between them and perhaps without the last. -/
inductive Blocks : List SseEvent → List (List Char) → Prop
  | nil : Blocks [] []
  | blank {events lines} (h : Blocks events lines) : Blocks events ([] :: lines)
  | block {events lines} (event : SseEvent) (h : Blocks events lines) :
    Blocks (event :: events) (event.lines ++ [] :: lines)
  | unfinished (event : SseEvent) : Blocks [event] event.lines

/-- Some lines with their ends, and comments among them. -/
inductive Carries : List (List Char) → List RawLine → Prop
  | nil : Carries [] []
  | line {line lines rawLine rawLines} (hline : IsLine line rawLine)
    (h : Carries lines rawLines) : Carries (line :: lines) (rawLine :: rawLines)
  | comment {lines rawLine rawLines} (hcomment : (decodeLine rawLine).head? = some ':')
    (h : Carries lines rawLines) : Carries lines (rawLine :: rawLines)

/-! ## Lines -/

/-- A line loses its end and nothing else. -/
lemma stripLineEnd_append {line ending : List Char} (hline : ∀ c ∈ line, c ≠ '\r' ∧ c ≠ '\n')
    (hending : ∀ c ∈ ending, c = '\r' ∨ c = '\n') : stripLineEnd (line ++ ending) = line := by
  induction ending using List.reverseRecOn with
  | nil =>
    rw [List.append_nil, stripLineEnd, List.rdropWhile_eq_self_iff]
    intro hne
    have hlast := hline _ (List.getLast_mem hne)
    simp [hlast.1, hlast.2]
  | append_singleton ending c ih =>
    have hc : c = '\r' ∨ c = '\n' := hending c (by simp)
    have hrest : ∀ d ∈ ending, d = '\r' ∨ d = '\n' := fun d hd => hending d (by simp [hd])
    have hdrop : stripLineEnd (line ++ (ending ++ [c])) = stripLineEnd (line ++ ending) := by
      rw [← List.append_assoc]
      exact List.rdropWhile_concat_pos _ _ _ (by simpa using hc)
    rw [hdrop, ih hrest]

lemma IsLine.strip {line : List Char} {rawLine : RawLine} (h : IsLine line rawLine)
    (hline : ∀ c ∈ line, c ≠ '\r' ∧ c ≠ '\n') : stripLineEnd (decodeLine rawLine) = line := by
  have hends : ∀ ending ∈ [[], ['\n'], ['\r', '\n']], ∀ c ∈ ending, c = '\r' ∨ c = '\n' := by
    simp
  cases h with
  | text h =>
    rw [decodeLine, String.toList_ofList]
    exact stripLineEnd_append hline (hends _ h)
  | bytes h =>
    rw [decodeLine, Utf8.decode_encode]
    exact stripLineEnd_append hline (hends _ h)

/-- A comment is still one without its end. -/
lemma head?_stripLineEnd {line : List Char} (h : line.head? = some ':') :
    (stripLineEnd line).head? = some ':' := by
  obtain ⟨rest, rfl⟩ : ∃ rest, line = ':' :: rest := by
    cases line with
    | nil => cases h
    | cons c rest => exact ⟨rest, by simpa using h⟩
  obtain ⟨tail, htail⟩ : stripLineEnd (':' :: rest) <+: ':' :: rest := List.rdropWhile_prefix _ _
  cases hstrip : stripLineEnd (':' :: rest) with
  | nil =>
    have hall := List.rdropWhile_eq_nil_iff.1 hstrip ':' List.mem_cons_self
    simp at hall
  | cons c more =>
    rw [hstrip, List.cons_append] at htail
    simp [(List.cons.inj htail).1]

lemma mem_fieldLine {field value : String} {c : Char} (h : c ∈ SseEvent.fieldLine field value) :
    c ∈ field.toList ∨ c = ':' ∨ c = ' ' ∨ c ∈ value.toList := by
  simpa [SseEvent.fieldLine] using h

/-- No line of an event has the end of a line in it. -/
lemma SseEvent.oneLine_of_mem {event : SseEvent} {line : List Char} (h : line ∈ event.lines) :
    ∀ c ∈ line, c ≠ '\r' ∧ c ≠ '\n' := by
  obtain ⟨field, hfield, value, hvalue, rfl⟩ : ∃ field ∈ ["event", "id", "data"],
      ∃ value ∈ event.name.toList ++ event.id.toList ++ event.data,
        fieldLine field value = line := by
    rcases List.mem_append.1 h with h | h
    · rcases List.mem_append.1 h with h | h
      · obtain ⟨value, hvalue, rfl⟩ := List.mem_map.1 h
        exact ⟨"event", by simp, value, by simp [hvalue], rfl⟩
      · obtain ⟨value, hvalue, rfl⟩ := List.mem_map.1 h
        exact ⟨"id", by simp, value, by simp [hvalue], rfl⟩
    · obtain ⟨value, hvalue, rfl⟩ := List.mem_map.1 h
      exact ⟨"data", by simp, value, by simp [hvalue], rfl⟩
  have hnames : ∀ field ∈ ["event", "id", "data"],
      (field.toList.all fun c => c ≠ '\r' ∧ c ≠ '\n') = true := by decide
  intro c hc
  rcases mem_fieldLine hc with hc | rfl | rfl | hc
  · exact of_decide_eq_true (List.all_eq_true.1 (hnames field hfield) c hc)
  · decide
  · decide
  · exact event.oneLine value hvalue c hc

lemma Blocks.oneLine {events : List SseEvent} {lines : List (List Char)} (h : Blocks events lines) :
    ∀ line ∈ lines, ∀ c ∈ line, c ≠ '\r' ∧ c ≠ '\n' := by
  induction h with
  | nil => simp
  | blank h ih => simpa using ih
  | block event h ih =>
    intro line hline
    rcases List.mem_append.1 hline with hline | hline
    · exact SseEvent.oneLine_of_mem hline
    · rcases List.mem_cons.1 hline with rfl | hline
      · simp
      · exact ih line hline
  | unfinished event => exact fun line hline => SseEvent.oneLine_of_mem hline

/-! ## The loop -/

section Loop

variable {loads : String → Except String JsonValue} {parts : EventParts}

@[simp] lemma Yielded.after_none (rest : Yielded) : rest.after none = rest := rfl

lemma iterLines_of_step {line : List Char} {parts' : EventParts}
    (h : lineStep loads parts line = .ok (none, parts')) (rest : List (List Char)) :
    iterLines loads parts (line :: rest) = iterLines loads parts' rest := by
  rw [iterLines, h]
  rfl

lemma lineStep_comment {line : List Char} (h : line.head? = some ':') :
    lineStep loads parts line = .ok (none, parts) := by
  have hne : line ≠ [] := by
    rintro rfl
    cases h
  rw [lineStep, if_neg hne, if_pos h]

lemma partitionColon_fieldLine {field value : String} (h : ':' ∉ field.toList) :
    partitionColon (SseEvent.fieldLine field value) = (field.toList, some (' ' :: value.toList)) := by
  have hall : ∀ c ∈ field.toList, (decide (c ≠ ':')) = true := by
    intro c hc
    have hne : c ≠ ':' := fun hcolon => h (hcolon ▸ hc)
    simpa using hne
  rw [partitionColon, SseEvent.fieldLine, List.dropWhile_append_of_pos hall,
    List.takeWhile_append_of_pos hall]
  simp

lemma head?_fieldLine {field : String} (h : field ∈ ["event", "id", "data"]) (value : String) :
    ∃ c, (SseEvent.fieldLine field value).head? = some c ∧ c ≠ ':' ∧ c ≠ '{' ∧
      ':' ∉ field.toList := by
  have hcases : field = "event" ∨ field = "id" ∨ field = "data" := by simpa using h
  rcases hcases with rfl | rfl | rfl
  · exact ⟨'e', rfl, by decide, by decide, by decide⟩
  · exact ⟨'i', rfl, by decide, by decide, by decide⟩
  · exact ⟨'d', rfl, by decide, by decide, by decide⟩

/-- The line of a field sets the name or the id, or adds a line of data. -/
lemma lineStep_fieldLine {field : String} (h : field ∈ ["event", "id", "data"]) (value : String) :
    lineStep loads parts (SseEvent.fieldLine field value) = .ok (none,
      if field = "event" then { parts with eventName := some value }
      else if field = "id" then { parts with eventId := some value }
      else { parts with dataLines := parts.dataLines ++ [value] }) := by
  obtain ⟨c, hc, hcolon, hbrace, hfield⟩ := head?_fieldLine h value
  have hne : SseEvent.fieldLine field value ≠ [] := by
    intro hnil
    rw [hnil] at hc
    cases hc
  have hcases : field = "event" ∨ field = "id" ∨ field = "data" := by simpa using h
  rw [lineStep, if_neg hne, if_neg (by simpa [hc] using hcolon),
    if_neg (by simpa [hc] using fun h => absurd h hbrace), partitionColon_fieldLine hfield]
  rcases hcases with rfl | rfl | rfl <;> simp

lemma iterLines_data (data : List String) (rest : List (List Char)) :
    iterLines loads parts (data.map (SseEvent.fieldLine "data") ++ rest) =
      iterLines loads { parts with dataLines := parts.dataLines ++ data } rest := by
  induction data generalizing parts with
  | nil => simp
  | cons value data ih =>
    rw [List.map_cons, List.cons_append, iterLines_of_step (lineStep_fieldLine (by simp) value)]
    simp [ih]

/-- After the lines of an event the loop has its fields. -/
lemma iterLines_lines (event : SseEvent) (rest : List (List Char)) :
    iterLines loads {} (event.lines ++ rest) = iterLines loads event.parts rest := by
  have hname : ∀ lines, iterLines loads {}
      (event.name.toList.map (SseEvent.fieldLine "event") ++ lines) =
        iterLines loads { eventName := event.name } lines := by
    intro lines
    cases event.name with
    | none => rfl
    | some value => exact iterLines_of_step (lineStep_fieldLine (by simp) value) lines
  have hid : ∀ lines, iterLines loads { eventName := event.name }
      (event.id.toList.map (SseEvent.fieldLine "id") ++ lines) =
        iterLines loads { eventName := event.name, eventId := event.id } lines := by
    intro lines
    cases event.id with
    | none => rfl
    | some value => exact iterLines_of_step (lineStep_fieldLine (by simp) value) lines
  rw [SseEvent.lines, List.append_assoc, List.append_assoc, hname, hid, iterLines_data]
  rfl

/-- Setting a field that is not there puts it last. -/
lemma insert_of_lookup_eq_none {name : String} {fields : List (String × JsonValue)}
    (h : Dict.lookup name fields = none) (value : JsonValue) :
    Dict.insert name value fields = fields ++ [(name, value)] := by
  induction fields with
  | nil => rfl
  | cons field rest ih =>
    obtain ⟨name', value'⟩ := field
    rw [Dict.lookup_cons] at h
    by_cases hname : name' = name
    · simp [hname] at h
    · rw [if_neg hname] at h
      rw [Dict.insert, if_neg hname, ih h, List.cons_append]

lemma setDefault_eq (name : String) (value : Option String) (fields : List (String × JsonValue)) :
    setDefault name value fields = fields ++
      if (Dict.lookup name fields).isSome then []
      else value.toList.map fun value => (name, .str value) := by
  cases value with
  | none => simp [setDefault]
  | some value =>
    cases hlookup : Dict.lookup name fields with
    | none => simp [setDefault, hlookup, insert_of_lookup_eq_none hlookup]
    | some found => simp [setDefault, hlookup]

/-- The name and the id that the loop sets are the attributes of the event. -/
lemma setDefault_setDefault (event : SseEvent) (fields : List (String × JsonValue)) :
    setDefault "event_id" event.id (setDefault "event" event.name fields) =
      fields ++ event.attributes fields := by
  have hother : Dict.lookup "event_id" (setDefault "event" event.name fields) =
      Dict.lookup "event_id" fields := by
    rw [setDefault_eq, Dict.lookup_append]
    cases Dict.lookup "event_id" fields with
    | some found => rfl
    | none => cases event.name <;> split_ifs <;> rfl
  rw [setDefault_eq "event_id", hother, setDefault_eq, SseEvent.attributes, List.append_assoc]
  congr 1
  cases event.name <;> cases event.id <;> split_ifs <;> simp_all

/-- The fields of an event make the event. -/
lemma eventFromParts_parts {event : SseEvent} {value : JsonValue}
    (h : event.decoded loads = some value) :
    eventFromParts loads event.parts = .ok (some value) := by
  have hpresent : ¬(event.data = [] ∧ event.name = none ∧ event.id = none) := by
    rintro ⟨hdata, hname, hid⟩
    rcases event.present with h | h | h
    · exact h hname
    · exact h hid
    · exact h hdata
  obtain ⟨data, hdata, rfl⟩ := Option.map_eq_some_iff.1 h
  rw [eventFromParts, SseEvent.parts, if_neg hpresent]
  simp only
  split_ifs at hdata ⊢ with htext
  · obtain rfl := Option.some.inj hdata
    rw [← setDefault_setDefault]
    rfl
  · cases hloads : loads ("\n".intercalate event.data) with
    | error message => simp [hloads, Except.toOption] at hdata
    | ok data' =>
      obtain rfl : data' = data := by simpa [hloads, Except.toOption] using hdata
      rw [← setDefault_setDefault, decodeData, hloads]
      rfl

lemma iterLines_block {event : SseEvent} {value : JsonValue} (h : event.decoded loads = some value)
    (rest : List (List Char)) : iterLines loads {} (event.lines ++ [] :: rest) =
      (iterLines loads {} rest).after (some value) := by
  have hstep : lineStep loads event.parts [] = .ok (some value, {}) := by
    rw [lineStep, if_pos rfl, eventFromParts_parts h]
    rfl
  rw [iterLines_lines, iterLines, hstep]

/-- The blocks of events give the events. -/
lemma iterLines_blocks {events : List SseEvent} {lines : List (List Char)}
    (h : Blocks events lines) {values : List JsonValue}
    (hvalues : events.map (SseEvent.decoded loads) = values.map some) :
    iterLines loads {} lines = ⟨values, none⟩ := by
  induction h generalizing values with
  | nil =>
    obtain rfl : values = [] := by simpa using hvalues.symm
    rfl
  | blank h ih =>
    rw [← ih hvalues]
    exact iterLines_of_step rfl _
  | block event h ih =>
    obtain ⟨value, values, rfl⟩ : ∃ value rest, values = value :: rest := by
      cases values with
      | nil => simp at hvalues
      | cons value rest => exact ⟨value, rest, rfl⟩
    obtain ⟨hvalue, hvalues⟩ := List.cons.inj hvalues
    rw [iterLines_block hvalue, ih hvalues]
    rfl
  | unfinished event =>
    obtain ⟨value, rfl⟩ : ∃ value, values = [value] := by
      rw [List.map_singleton] at hvalues
      obtain ⟨value, hvalue, -⟩ := List.map_eq_singleton_iff.1 hvalues.symm
      exact ⟨value, hvalue⟩
    have hvalue : event.decoded loads = some value := by simpa using hvalues
    have hend : iterLines loads {} (event.lines ++ []) = iterLines loads event.parts [] :=
      iterLines_lines event []
    rw [List.append_nil] at hend
    rw [hend, iterLines, eventFromParts_parts hvalue]
    rfl

/-- Comments and the ends of lines do not matter. -/
lemma iterLines_carries {lines : List (List Char)} {rawLines : List RawLine}
    (h : Carries lines rawLines) (hlines : ∀ line ∈ lines, ∀ c ∈ line, c ≠ '\r' ∧ c ≠ '\n') :
    iterLines loads parts (rawLines.map fun rawLine => stripLineEnd (decodeLine rawLine)) =
      iterLines loads parts lines := by
  induction h generalizing parts with
  | nil => rfl
  | @line line lines rawLine rawLines hline h ih =>
    have hrest := fun parts =>
      @ih parts fun l hl => hlines l (List.mem_cons_of_mem _ hl)
    rw [List.map_cons, hline.strip (hlines line List.mem_cons_self), iterLines, iterLines]
    cases lineStep loads parts line with
    | error error => rfl
    | ok result =>
      obtain ⟨event, parts'⟩ := result
      exact congrArg (Yielded.after event) (hrest parts')
  | comment hcomment h ih =>
    rw [List.map_cons, iterLines_of_step (lineStep_comment (head?_stripLineEnd hcomment))]
    exact ih hlines

end Loop

/-! ## The stream of some events -/

lemma Blocks.ofEvents (events : List SseEvent) :
    Blocks events (events.flatMap fun event => event.lines ++ [[]]) := by
  induction events with
  | nil => exact .nil
  | cons event events ih =>
    rw [List.flatMap_cons, List.append_assoc, List.singleton_append]
    exact .block event ih

lemma Carries.ofLines (lines : List (List Char)) :
    Carries lines (lines.map fun line => .bytes (Utf8.encode (line ++ ['\n']))) := by
  induction lines with
  | nil => exact .nil
  | cons line lines ih => exact .line (.bytes (by simp)) ih

/-- The reader of a stream gives the events that were sent, in order, whatever form of the stream
they were sent in. -/
theorem iterEventStream_encode {loads : String → Except String JsonValue} {events : List SseEvent}
    {values : List JsonValue} (hvalues : events.map (SseEvent.decoded loads) = values.map some) :
    iterEventStream loads (SseEvent.encode events) = ⟨values, none⟩ ∧
      ∀ lines rawLines, Blocks events lines → Carries lines rawLines →
        iterEventStream loads rawLines = ⟨values, none⟩ := by
  have hevery : ∀ lines rawLines, Blocks events lines → Carries lines rawLines →
      iterEventStream loads rawLines = ⟨values, none⟩ := by
    intro lines rawLines hblocks hcarries
    rw [iterEventStream, iterLines_carries hcarries hblocks.oneLine, iterLines_blocks hblocks hvalues]
  exact ⟨hevery _ _ (Blocks.ofEvents events) (Carries.ofLines _), hevery⟩

/-- The event `ready` with the data `true`. -/
def readyEvent : SseEvent where
  name := some "ready"
  id := none
  data := ["true"]
  oneLine := by
    have hall : (["ready", "true"].all fun text =>
        text.toList.all fun c => c ≠ '\r' ∧ c ≠ '\n') = true := by decide
    intro text htext c hc
    have htexts : text ∈ ["ready", "true"] := by simpa using htext
    exact of_decide_eq_true (List.all_eq_true.1 (List.all_eq_true.1 hall text htexts) c hc)
  present := .inl (by decide)

/-- A reader of JSON texts that knows `true`. -/
def loadsTrue (text : String) : Except String JsonValue :=
  if text = "true" then .ok (.bool true) else .error "Expecting value"

/-- The stream of two such events with comments, some lines that end in CRLF, a blank line too many
between them, and none at the end. -/
def commentedStream : List RawLine :=
  [.text ": connected\n", .bytes (Utf8.encode "event: ready\r\n".toList), .text "data: true\r\n",
    .text "\r\n", .text ":\n", .text "\n", .text "event: ready\n",
    .bytes (Utf8.encode ":\r\n".toList), .text "data: true"]

lemma carries_commentedStream :
    Carries (readyEvent.lines ++ [] :: [] :: readyEvent.lines) commentedStream := by
  have hcomment : (decodeLine (.bytes (Utf8.encode ":\r\n".toList))).head? = some ':' := by decide
  refine .comment rfl (.line (@IsLine.bytes _ ['\r', '\n'] (by simp)) ?_)
  refine .line (@IsLine.text _ ['\r', '\n'] (by simp)) ?_
  refine .line (@IsLine.text _ ['\r', '\n'] (by simp)) ?_
  refine .comment rfl (.line (@IsLine.text _ ['\n'] (by simp)) ?_)
  refine .line (@IsLine.text _ ['\n'] (by simp)) (.comment hcomment ?_)
  exact .line (@IsLine.text _ [] (by simp)) .nil

theorem iterEventStream_readyEvent :
    iterEventStream loadsTrue (SseEvent.encode [readyEvent, readyEvent]) =
        ⟨List.replicate 2 (.obj [("data", .bool true), ("event", .str "ready")]), none⟩ ∧
      iterEventStream loadsTrue commentedStream =
        ⟨List.replicate 2 (.obj [("data", .bool true), ("event", .str "ready")]), none⟩ := by
  have hread := @iterEventStream_encode loadsTrue [readyEvent, readyEvent]
    (List.replicate 2 (.obj [("data", .bool true), ("event", .str "ready")])) rfl
  exact ⟨hread.1, hread.2 _ _ (.block readyEvent (.blank (.unfinished readyEvent)))
    carries_commentedStream⟩

end OpencodeSession
