import Bpfstream.Go.Scanner
import Bpfstream.Go.Time
import Bpfstream.Go.Json
import Bpfstream.Go.Log

/-!
# The parse framework: envelope messages and the two parsers

Every line of the tracer's output is an envelope `{"type": ..., "data": ...}`.  Two parsers read
it.  The fast path (`SimpleLineParser.ParseLines`, and `simpleParseThenAppend` in
`cmd_vfs_raw.go`) recognises four envelopes by a literal prefix and cuts the payload out of the
line at fixed offsets.  The structured path (`NDJSONParser.ParseStream`, and the loops inlined in
`jsonParseThenAppend` and `vfsCountCmd`) reads the documents simdjson parsed, handles
`attached_probes`, `time` and `lost_events` itself and hands every other type to a handler.

Callbacks are deterministic Go closures: a handler is given what it was handed before together
with the new payload, so that every callback the code can be called with is one of them.
-/

namespace Bpfstream

/-! ## The fast path -/

def attachedProbeKeyword : Bytes := ascii "\x7b\"type\": \"attached_probes\", \"data\": \x7b\"probes\": "
def startTimeKeyword : Bytes := ascii "\x7b\"type\": \"time\", \"data\": \""
def printfKeyword : Bytes := ascii "\x7b\"type\": \"printf\", \"data\": \""
def lostEventsKeyword : Bytes := ascii "\x7b\"type\": \"lost_events\", \"data\": \x7b\"events\": "

/-- The suffixes the fast path cuts off: `}}`, `\n"}` (an escaped newline), `"}` and `}}`. -/
def probesSuffix : Bytes := ascii "\x7d\x7d"
def startTimeSuffix : Bytes := ascii "\\n\"\x7d"
def printfSuffix : Bytes := ascii "\"\x7d"
def lostEventsSuffix : Bytes := ascii "\x7d\x7d"

/-- A line as the fast path sees it: one of the four envelopes with its payload, or a line it
skips. -/
inductive LineKind where
  | attachedProbes (data : Bytes)
  | time (data : Bytes)
  | printf (data : Bytes)
  | lostEvents (data : Bytes)
  | unknown
deriving DecidableEq, Repr

/-- `line[len(keyword) : len(line)-len(suffix)]`. -/
def cutLine (line keyword suffix : Bytes) : Except Panic Bytes :=
  slice line keyword.length (line.length - suffix.length)

/-- The prefix tests and fixed-offset slices of the fast path's `if` chain, common to
`simpleParseThenAppend` and `SimpleLineParser.ParseLines`. -/
def classifyLine (line : Bytes) : Except Panic LineKind :=
  if hasPrefix line attachedProbeKeyword then
    .attachedProbes <$> cutLine line attachedProbeKeyword probesSuffix
  else if hasPrefix line startTimeKeyword then
    .time <$> cutLine line startTimeKeyword startTimeSuffix
  else if hasPrefix line printfKeyword then
    .printf <$> cutLine line printfKeyword printfSuffix
  else if hasPrefix line lostEventsKeyword then
    .lostEvents <$> cutLine line lostEventsKeyword lostEventsSuffix
  else .ok .unknown

/-- `errors.New("probes not attached")`. -/
def errProbesNotAttached : GoError := .new "probes not attached"

/-- The fast path's check of a probe count: `ParseUint`, then `probes <= 0` on a `uint64`. -/
def checkProbesText (data : Bytes) : Ret :=
  match parseUint data with
  | (_, some e) => .err e
  | (probes, none) => if probes = 0 then .err errProbesNotAttached else .ok

/-- The fast path's check of a lost-event count: `ParseUint` only. -/
def checkLostEventsText (data : Bytes) : Ret :=
  match parseUint data with
  | (_, some e) => .err e
  | (_, none) => .ok

/-- `SimpleLineParser`: the start time of the last `time` line read. -/
structure SimpleLineParser where
  startTime : GoTime := GoTime.zero
deriving DecidableEq, Repr

/-- `LineHandler`: given the payloads handed on before and the new one, the error it returns. -/
abbrev LineHandler := List Bytes → Bytes → Option GoError

/-- The body of `ParseLines`' scan loop, on the parser and the payloads handed on so far. -/
def SimpleLineParser.parseLinesBody (handler : LineHandler) :
    SimpleLineParser × List Bytes → Bytes → (SimpleLineParser × List Bytes) × Ret
  | (p, seen), line =>
    match classifyLine line with
    | .error e => ((p, seen), .panic e)
    | .ok (.attachedProbes data) => ((p, seen), checkProbesText data)
    | .ok (.time data) =>
      match parseTimeOnly data with
      | .error e => ((p, seen), .err e)
      | .ok t => (({ p with startTime := t }, seen), .ok)
    | .ok (.printf data) =>
      match handler seen data with
      | some e => ((p, seen ++ [data]), .err e)
      | none => ((p, seen ++ [data]), .ok)
    | .ok (.lostEvents data) => ((p, seen), checkLostEventsText data)
    | .ok .unknown => ((p, seen), .ok)

/-- `SimpleLineParser.ParseLines(r, handler)`: the parser afterwards, the payloads handed to the
handler in order, and how the call ends; after the loop it returns `scanner.Err()`. -/
def SimpleLineParser.parseLines (p : SimpleLineParser) (r : Input) (handler : LineHandler) :
    (SimpleLineParser × List Bytes) × Ret :=
  match loop (parseLinesBody handler) (p, []) (scanLines r).1 with
  | (st, .ok) => (st, match (scanLines r).2 with | none => .ok | some e => .err e)
  | res => res

/-! ## The structured path -/

/-- `simdjson.Stream`: the documents of one parsed chunk, or the error that ends the stream. -/
inductive Stream where
  | value (docs : List JsonValue)
  | error (e : GoError)

/-- The error `ParseNDStream` sends for a chunk that does not parse. -/
def errParsingInput : GoError := .wrap "parsing input" (.lib "invalid JSON")

/-- One parsed chunk as `ParseNDStream` sends it: its documents, or the parse error. -/
def parseChunk (c : Bytes) : Stream :=
  match parseNdjson c with
  | some docs => .value docs
  | none => .error errParsingInput

/-- The chunks `ParseNDStream` parses.  `chunks` are the reads the reader's bytes are cut into,
each a run of whole lines (the last one may lack its line end), and the last of them is the read
that met `final`.  At `io.EOF` that read is parsed; at any other error `ParseNDStream` queues the
error without the read's data, so the last chunk is dropped. -/
def parsedChunks (chunks : List Bytes) (final : GoError) : List Bytes :=
  if final = .eof then chunks else chunks.dropLast

/-- `simdjson.ParseNDStream(r, res, reuse)` as the sequence it sends on `res`: each parsed chunk,
then the error the reader ended with.  The CPU is taken to be one simdjson supports; on any other
the only message is the error `Unsupported platform`. -/
def parseNDStream (chunks : List Bytes) (final : GoError) : List Stream :=
  (parsedChunks chunks final).map parseChunk ++ [.error final]

/-- `for got := range res { ... got.Value.ForEach(onDoc) ... }`: stop at `io.EOF` with nil, at
any other error with that error, and at the first document `onDoc` does not accept. -/
def rangeStreams (onDoc : σ → JsonValue → σ × Ret) : σ → List Stream → σ × Ret
  | s, [] => (s, .ok)
  | s, .error e :: _ => (s, if e = .eof then .ok else .err e)
  | s, .value docs :: rest =>
    match loop onDoc s docs with
    | (s', .ok) => rangeStreams onDoc s' rest
    | r => r

/-- The top of every `ForEach` callback: the `type` string and the `data` element. -/
def readEnvelope (doc : JsonValue) : Except GoError (Bytes × JsonValue) :=
  match findElement doc (ascii "type") with
  | .error e => .error (.wrap "failed to find 'type' element" e)
  | .ok typeEl =>
    match iterString typeEl with
    | .error e => .error (.wrap "failed to get 'type' as string" e)
    | .ok typeStr =>
      match findElement doc (ascii "data") with
      | .error e => .error (.wrap "failed to find 'data' element" e)
      | .ok dataEl => .ok (typeStr, dataEl)

/-- `NDJSONParser`: the start time of the first `time` message. -/
structure NDJSONParser where
  startTime : GoTime := GoTime.zero
deriving DecidableEq, Repr

/-- `handleAttachedProbes`: the `probes` member read as `int64` and required positive. -/
def NDJSONParser.handleAttachedProbes (dataEl : JsonValue) : Ret :=
  match findElement dataEl (ascii "probes") with
  | .error e => .err (.wrap "failed to find 'probes' element" e)
  | .ok probesEl =>
    match iterInt probesEl with
    | .error e => .err (.wrap "failed to get 'probes' as int" e)
    | .ok probes => if probes.toInt ≤ 0 then .err errProbesNotAttached else .ok

/-- `handleTime`: ignored once a start time is set; otherwise the trimmed string parsed. -/
def NDJSONParser.handleTime (startTime : GoTime) (dataEl : JsonValue) : GoTime × Ret :=
  if !startTime.isZero then (startTime, .ok)
  else
    match iterString dataEl with
    | .error e => (startTime, .err (.wrap "failed to get 'time' data as string" e))
    | .ok timeStr =>
      match parseTimeOnly (trimSpace timeStr) with
      | .error e => (GoTime.zero, .err (.wrap "failed to parse time" e))
      | .ok t => (t, .ok)

/-- `handleLostEvents`: the `events` member read as `int64`. -/
def NDJSONParser.handleLostEvents (dataEl : JsonValue) : Ret :=
  match findElement dataEl (ascii "events") with
  | .error e => .err (.wrap "failed to find 'events' element" e)
  | .ok eventCountEl =>
    match iterInt eventCountEl with
    | .error e => .err (.wrap "failed to get 'events' as int" e)
    | .ok _ => .ok

/-- What `handleAttachedProbes` logs: `Probes attached` at debug level, once the count is
accepted. -/
def NDJSONParser.attachedProbesLog (dataEl : JsonValue) : List LogEvent :=
  match (findElement dataEl (ascii "probes")).bind iterInt with
  | .ok probes =>
    if probes.toInt ≤ 0 then []
    else [{ level := .debug, msg := "Probes attached", file := "pterm_writer.go", line := 249,
            fields := [("probes", .num probes.toInt)] }]
  | .error _ => []

/-- An accepted `attached_probes` message is logged. -/
theorem NDJSONParser.attachedProbesLog_ne_nil {dataEl : JsonValue}
    (h : handleAttachedProbes dataEl = .ok) : attachedProbesLog dataEl ≠ [] := by
  unfold handleAttachedProbes at h
  unfold attachedProbesLog
  rcases hf : findElement dataEl (ascii "probes") with e | probesEl <;> rw [hf] at h
  · cases h
  · rcases hi : iterInt probesEl with e | probes <;> simp only [hi] at h
    · cases h
    · split_ifs at h with hp
      simp [Except.bind, hi, hp]

/-- What a `time` case logs, at the lines `warnLine` and `infoLine` of `file`: a warning when a
start time is already set, and otherwise the start time it parsed. -/
def timeLogAt (file : String) (warnLine infoLine : Nat) (startTime : GoTime) (dataEl : JsonValue) :
    List LogEvent :=
  if !startTime.isZero then
    [{ level := .warn, msg := "Received multiple 'time' messages, ignoring", file := file,
       line := warnLine, fields := [] }]
  else
    match (iterString dataEl).bind fun timeStr => parseTimeOnly (trimSpace timeStr) with
    | .ok t => [{ level := .info, msg := "Record start from", file := file, line := infoLine,
                  fields := [("start_time", .str t.formatTimeOnly)] }]
    | .error _ => []

/-- What `handleTime` logs. -/
def NDJSONParser.timeLog (startTime : GoTime) (dataEl : JsonValue) : List LogEvent :=
  timeLogAt "pterm_writer.go" 255 267 startTime dataEl

/-- What `handleLostEvents` logs: `Lost events` with the count, once it is read. -/
def NDJSONParser.lostEventsLog (dataEl : JsonValue) : List LogEvent :=
  match (findElement dataEl (ascii "events")).bind iterInt with
  | .ok lostEvents => [{ level := .info, msg := "Lost events", file := "pterm_writer.go",
                         line := 282, fields := [("lost_events", .num lostEvents.toInt)] }]
  | .error _ => []

/-- The warning of a `default` case for a type it skips, at `file:line`. -/
def unknownTypeLog (file : String) (line : Nat) (typeStr : Bytes) : LogEvent :=
  { level := .warn, msg := "Unknown message type, skipping", file := file, line := line,
    fields := [("type", .str typeStr)] }

/-- `MessageHandler`: a callback on the type and data of a message, with a state of its own. -/
abbrev MessageHandler (σ : Type) := σ → Bytes → JsonValue → σ × Ret

/-- The `ForEach` callback of `ParseStream`.  The events its own cases log go to stdout, where
the handler prints: `write` appends them to the handler's state. -/
def NDJSONParser.onDocLogged (write : σ → List LogEvent → σ) (handler : MessageHandler σ) :
    NDJSONParser × σ → JsonValue → (NDJSONParser × σ) × Ret
  | (p, h), doc =>
    match readEnvelope doc with
    | .error e => ((p, h), .err e)
    | .ok (typeStr, dataEl) =>
      if typeStr = ascii "attached_probes" then
        ((p, write h (attachedProbesLog dataEl)), handleAttachedProbes dataEl)
      else if typeStr = ascii "time" then
        let (t, r) := handleTime p.startTime dataEl
        (({ p with startTime := t }, write h (timeLog p.startTime dataEl)), r)
      else if typeStr = ascii "lost_events" then
        ((p, write h (lostEventsLog dataEl)), handleLostEvents dataEl)
      else
        let (h', r) := handler h typeStr dataEl
        ((p, h'), r)

/-- The callback with stdout left out. -/
def NDJSONParser.onDoc (handler : MessageHandler σ) :
    NDJSONParser × σ → JsonValue → (NDJSONParser × σ) × Ret :=
  onDocLogged (fun h _ => h) handler

/-- The type names the callbacks compare are distinct. -/
theorem time_ne_attached_probes : ascii "time" ≠ ascii "attached_probes" := by decide
theorem lost_events_ne_attached_probes : ascii "lost_events" ≠ ascii "attached_probes" := by decide
theorem lost_events_ne_time : ascii "lost_events" ≠ ascii "time" := by decide
theorem printf_ne_attached_probes : ascii "printf" ≠ ascii "attached_probes" := by decide
theorem printf_ne_time : ascii "printf" ≠ ascii "time" := by decide
theorem printf_ne_lost_events : ascii "printf" ≠ ascii "lost_events" := by decide

/-- `NDJSONParser.ParseStream(r, handler)` on the chunks of `r`: the parser and the handler's
state afterwards, and how the call ends. -/
def NDJSONParser.parseStream (p : NDJSONParser) (chunks : List Bytes) (final : GoError)
    (handler : MessageHandler σ) (s : σ) : (NDJSONParser × σ) × Ret :=
  rangeStreams (onDoc handler) (p, s) (parseNDStream chunks final)

end Bpfstream
