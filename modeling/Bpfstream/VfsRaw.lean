import Bpfstream.Parser
import Bpfstream.Go.Logfmt

/-!
# `vfs raw`: one row per `printf` record

`cmd_vfs_raw.go` decodes the payload of every `printf` message with `logfmt.Unmarshal` into a
`vfsEvent` and hands it to `appendRow`.  It has two implementations: `simpleParseThenAppend` on
the fast path and `jsonParseThenAppend` on simdjson, whose dispatch loop is a copy of
`NDJSONParser.ParseStream` with the `printf` case inlined.
-/

namespace Bpfstream

/-- `vfsEvent`. -/
structure VfsEvent where
  timestamp : Word := 0
  probe : Bytes := []
  tid : Word := 0
  returnValue : Word := 0
  path : Bytes := []
  inode : Word := 0
  offset : Word := 0
  length : Word := 0
deriving DecidableEq, Repr

/-- `ErrUnknownField`. -/
def errUnknownField : GoError := .new "unknown field"

/-- `vfsEvent.HandleLogfmt(key, val)`: the field named by `key` set from `val`.  The numeric
fields take `ParseUint`'s or `ParseInt`'s value even when it reports an error, as the Go
assignment `e.Timestamp, err = strconv.ParseUint(v, 10, 64)` does; `path` drops the first and
the last byte of the value and panics on a value shorter than two bytes. -/
def VfsEvent.handleLogfmt (e : VfsEvent) (key val : Bytes) :
    Except Panic (VfsEvent × Option GoError) :=
  if key = ascii "ts" then
    let (v, err) := parseUint val; .ok ({ e with timestamp := v }, err)
  else if key = ascii "fn" then .ok ({ e with probe := val }, none)
  else if key = ascii "tid" then
    let (v, err) := parseUint val; .ok ({ e with tid := v }, err)
  else if key = ascii "rc" then
    let (v, err) := parseInt val; .ok ({ e with returnValue := v }, err)
  else if key = ascii "path" then
    match slice val 1 (val.length - 1) with
    | .ok p => .ok ({ e with path := p }, none)
    | .error p => .error p
  else if key = ascii "inode" then
    let (v, err) := parseUint val; .ok ({ e with inode := v }, err)
  else if key = ascii "offset" then
    let (v, err) := parseUint val; .ok ({ e with offset := v }, err)
  else if key = ascii "len" then
    let (v, err) := parseUint val; .ok ({ e with length := v }, err)
  else .ok (e, some errUnknownField)

/-! The field each key of the record sets. -/

theorem VfsEvent.handleLogfmt_ts (e : VfsEvent) (v : Bytes) :
    e.handleLogfmt (ascii "ts") v = .ok ({ e with timestamp := (parseUint v).1 }, (parseUint v).2) :=
  rfl
theorem VfsEvent.handleLogfmt_fn (e : VfsEvent) (v : Bytes) :
    e.handleLogfmt (ascii "fn") v = .ok ({ e with probe := v }, none) := rfl
theorem VfsEvent.handleLogfmt_tid (e : VfsEvent) (v : Bytes) :
    e.handleLogfmt (ascii "tid") v = .ok ({ e with tid := (parseUint v).1 }, (parseUint v).2) := rfl
theorem VfsEvent.handleLogfmt_rc (e : VfsEvent) (v : Bytes) :
    e.handleLogfmt (ascii "rc") v = .ok ({ e with returnValue := (parseInt v).1 }, (parseInt v).2) :=
  rfl
theorem VfsEvent.handleLogfmt_path (e : VfsEvent) (v : Bytes) :
    e.handleLogfmt (ascii "path") v =
      match slice v 1 (v.length - 1) with
      | .ok p => .ok ({ e with path := p }, none)
      | .error p => .error p := rfl
theorem VfsEvent.handleLogfmt_inode (e : VfsEvent) (v : Bytes) :
    e.handleLogfmt (ascii "inode") v = .ok ({ e with inode := (parseUint v).1 }, (parseUint v).2) :=
  rfl
theorem VfsEvent.handleLogfmt_offset (e : VfsEvent) (v : Bytes) :
    e.handleLogfmt (ascii "offset") v = .ok ({ e with offset := (parseUint v).1 }, (parseUint v).2) :=
  rfl
theorem VfsEvent.handleLogfmt_len (e : VfsEvent) (v : Bytes) :
    e.handleLogfmt (ascii "len") v = .ok ({ e with length := (parseUint v).1 }, (parseUint v).2) :=
  rfl

/-- `var e vfsEvent; err := logfmt.Unmarshal(data, &e)`. -/
def decodeVfsEvent (data : Bytes) : Except Panic (VfsEvent × Option GoError) :=
  logfmtUnmarshal VfsEvent.handleLogfmt data {}

/-- `appendRowFn`: given the rows appended before and the new one, the error it returns. -/
abbrev AppendRowFn := List VfsEvent → VfsEvent → Option GoError

/-- Hand a decoded record to `appendRow`; `wrap` is the context the caller puts around its
error. -/
def appendDecoded (appendRow : AppendRowFn) (wrap : GoError → GoError) (rows : List VfsEvent)
    (ev : VfsEvent) : List VfsEvent × Ret :=
  match appendRow rows ev with
  | some e => (rows ++ [ev], .err (wrap e))
  | none => (rows ++ [ev], .ok)

/-- The body of `simpleParseThenAppend`'s scan loop, on the rows appended so far. -/
def simpleParseThenAppendBody (appendRow : AppendRowFn) (rows : List VfsEvent) (line : Bytes) :
    List VfsEvent × Ret :=
  match classifyLine line with
  | .error p => (rows, .panic p)
  | .ok (.attachedProbes data) => (rows, checkProbesText data)
  | .ok (.time data) =>
    match parseTimeOnly data with
    | .error e => (rows, .err e)
    | .ok _ => (rows, .ok)
  | .ok (.printf data) =>
    match decodeVfsEvent data with
    | .error p => (rows, .panic p)
    | .ok (_, some e) => (rows, .err e)
    | .ok (ev, none) => appendDecoded appendRow id rows ev
  | .ok (.lostEvents data) => (rows, checkLostEventsText data)
  | .ok .unknown => (rows, .ok)

/-- `simpleParseThenAppend(r, appendRow)`: the rows handed to `appendRow`, in order, and how the
call ends.  After the scan loop it returns nil: `scanner.Err()` is never read. -/
def simpleParseThenAppend (r : Input) (appendRow : AppendRowFn) : List VfsEvent × Ret :=
  loop (simpleParseThenAppendBody appendRow) [] (scanLines r).1

/-- The `printf` case of `jsonParseThenAppend`. -/
def jsonPrintf (appendRow : AppendRowFn) (rows : List VfsEvent) (dataEl : JsonValue) :
    List VfsEvent × Ret :=
  match iterString dataEl with
  | .error e => (rows, .err (.wrap "failed to get 'printf' data as string" e))
  | .ok buf =>
    match decodeVfsEvent buf with
    | .error p => (rows, .panic p)
    | .ok (_, some e) => (rows, .err (.wrap "failed to unmarshal logfmt data" e))
    | .ok (ev, none) => appendDecoded appendRow (.wrap "failed to append row") rows ev

/-- The `ForEach` callback of `jsonParseThenAppend`, on the local `startTime` and the rows. -/
def jsonParseThenAppendOnDoc (appendRow : AppendRowFn) :
    GoTime × List VfsEvent → JsonValue → (GoTime × List VfsEvent) × Ret
  | (t, rows), doc =>
    match readEnvelope doc with
    | .error e => ((t, rows), .err e)
    | .ok (typeStr, dataEl) =>
      if typeStr = ascii "attached_probes" then ((t, rows), NDJSONParser.handleAttachedProbes dataEl)
      else if typeStr = ascii "time" then
        let (t', r) := NDJSONParser.handleTime t dataEl
        ((t', rows), r)
      else if typeStr = ascii "lost_events" then ((t, rows), NDJSONParser.handleLostEvents dataEl)
      else if typeStr = ascii "printf" then
        let (rows', r) := jsonPrintf appendRow rows dataEl
        ((t, rows'), r)
      else ((t, rows), .ok)

/-- `jsonParseThenAppend(r, appendRow)` on the chunks of `r`: the local start time and the rows
handed to `appendRow`, and how the call ends. -/
def jsonParseThenAppend (chunks : List Bytes) (final : GoError) (appendRow : AppendRowFn) :
    (GoTime × List VfsEvent) × Ret :=
  rangeStreams (jsonParseThenAppendOnDoc appendRow) (GoTime.zero, []) (parseNDStream chunks final)

end Bpfstream
