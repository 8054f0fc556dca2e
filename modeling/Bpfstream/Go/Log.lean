import Bpfstream.Go.Encode

/-!
# zerolog events and the lines `ptermWriter` writes for them

`main` sets `log.Logger = zerolog.New(newPtermWriter()).With().Timestamp().Caller().Stack().Logger()`
and `newPtermWriter` writes to `os.Stdout`: every log line of the program goes to the stream the
count commands print their blocks to.  The global level is never raised, so debug events are
written too, and no error marshaler is set, so `Stack()` adds nothing.

zerolog encodes an event as JSON with `time`, `level`, `caller`, `message` and the fields of the
call; `ptermWriter.WriteLevel` decodes it and executes the template

    {{ .Timestamp }} [{{ .Level }}] {{ .Message }}
    {{- range $i, $field := .Fields }}
    {{ space (totalLength 1 $.Timestamp $.Level) }}{{if (last $i $.Fields )}}└{{else}}├{{ end }} {{ .Key }}: {{ .Val }}
    {{- end }}

over the fields other than `time`, `level` and `message`, sorted by `keyOrderFn`: `caller` first,
the call's own keys in byte order, `error` last.  Every key of the program's calls is distinct,
so the sort has one result, and with at most twelve fields `sort.Slice` is the insertion sort.

What a line takes from outside the program is `LogEnv`: whether pterm styles its texts, the wall
clock at each event, the path `runtime.Caller` reports for a source file, an error's text, and
how `pterm.Sprint` prints a string value (after zerolog's JSON round trip, which turns ill-formed
UTF-8 into U+FFFD, gookit renders colour tags).
-/

namespace Bpfstream

/-- The zerolog levels the program logs at. -/
inductive LogLevel where
  | debug
  | info
  | warn
  | error
deriving DecidableEq, Repr

/-- `Level.String()`. -/
def LogLevel.text : LogLevel → Bytes
  | .debug => ascii "debug"
  | .info => ascii "info"
  | .warn => ascii "warn"
  | .error => ascii "error"

/-- The colour of `levelStyles[lvl]`, which is also the style of a key with no style of its own:
bold and blue, green, yellow or red. -/
def LogLevel.style : LogLevel → Bytes
  | .debug => ascii "1;34"
  | .info => ascii "1;32"
  | .warn => ascii "1;33"
  | .error => ascii "1;31"

/-- The value of a field: `Str` gives a string, `Int64` and `Uint64` a number, which the writer
decodes as a `json.Number` and prints in decimal. -/
inductive LogValue where
  | str (s : Bytes)
  | num (i : Int)
deriving DecidableEq, Repr

/-- One call `log.<Level>()` with its fields, `Err(err)` where the call has one, and `Msg(msg)`,
made at `file:line`. -/
structure LogEvent where
  level : LogLevel
  msg : String
  file : String
  line : Nat
  fields : List (String × LogValue)
  err : Option GoError := none
deriving DecidableEq, Repr

/-- What a log line takes from outside the program. -/
structure LogEnv where
  /-- Whether pterm styles texts: stdout takes colours and they are not turned off. -/
  colors : Bool
  /-- The local wall time of the `i`-th event of the run, and the zone's offset east of UTC in
  minutes. -/
  clock : Nat → GoTime × Int
  /-- The file name `runtime.Caller` reports for a source file of the program. -/
  sourcePath : String → Bytes
  /-- `err.Error()`. -/
  errorText : GoError → Bytes
  /-- `pterm.Sprint(v)` of a string value as the writer decodes it. -/
  sprint : Bytes → Bytes

namespace LogEnv

variable (env : LogEnv)

/-- `pterm.Style.Sprint` of a text without line ends: `ESC [ code m text ESC [0m`, or the text
alone without colours. -/
def styled (code s : Bytes) : Bytes :=
  if env.colors then 27 :: 91 :: code ++ 109 :: s ++ [27, 91, 48, 109] else s

/-- `pterm.Sprint` of a field's value. -/
def valueText : LogValue → Bytes
  | .str s => env.sprint s
  | .num i => formatInt i

/-- A key as `WriteLevel` styles it: with `keyStyles[k]` where there is one, grey for `caller`
and red for `error`, and with the level's style otherwise. -/
def keyText (level : LogLevel) (k : Bytes) : Bytes :=
  env.styled (if k = ascii "caller" then ascii "1;90" else if k = ascii "error" then ascii "1;31"
    else level.style) k

end LogEnv

/-- `keyOrderFn`'s `score` of a key (after `color.ClearCode`). -/
def logKeyScore (k : Bytes) : Bytes :=
  if k = ascii "time" then [0, 0] else if k = ascii "caller" then [0, 1]
  else if k = ascii "error" then [255, 0] else if k = ascii "stack" then [255, 1] else k

/-- The fields `WriteLevel` collects from the decoded event, unsorted: `caller` as
`file:line`, the call's own fields and `error`. -/
def LogEvent.entries (env : LogEnv) (ev : LogEvent) : List (Bytes × Bytes) :=
  (ascii "caller", env.sprint (env.sourcePath ev.file ++ 58 :: formatUint ev.line)) ::
    ev.fields.map (fun f => (ascii f.1, env.valueText f.2)) ++
    match ev.err with
    | some e => [(ascii "error", env.sprint (env.errorText e))]
    | none => []

/-- The `range` of the template over the sorted fields: each on a line of its own, `indent`
spaces in, behind `├`, and the last behind `└`. -/
def fieldLines (indent : Bytes) : List (Bytes × Bytes) → Bytes
  | [] => []
  | [(k, v)] => 10 :: indent ++ [0xE2, 0x94, 0x94, 32] ++ k ++ 58 :: 32 :: v
  | (k, v) :: rest => 10 :: indent ++ [0xE2, 0x94, 0x9C, 32] ++ k ++ 58 :: 32 :: v ++ fieldLines indent rest

/-- The bytes `WriteLevel` writes for the `i`-th event of the run. -/
def ptermText (env : LogEnv) (i : Nat) (ev : LogEvent) : Bytes :=
  let ts := (env.clock i).1.formatRFC3339 (env.clock i).2
  let fields := insertionSort (fun a b => bytesLess (logKeyScore a.1) (logKeyScore b.1))
    (ev.entries env)
  env.styled (ascii "1;90") ts ++ ascii " [" ++ env.styled ev.level.style ev.level.text ++
    ascii "] " ++ env.styled (ascii "1;37") (ascii ev.msg) ++
    fieldLines (List.replicate (ts.length + ev.level.text.length - 1) 32)
      (fields.map fun f => (env.keyText ev.level f.1, f.2)) ++ [10]

/-- A log line starts with the escape of its timestamp's style, or with the timestamp's first
byte: a digit of the year, or the sign of a negative one.  Neither is white space or opens a JSON
object or array. -/
theorem ptermText_head (env : LogEnv) (i : Nat) (ev : LogEvent) :
    ∃ c rest, ptermText env i ev = c :: rest ∧ (c = 27 ∨ c = 45 ∨ isDigit c = true) := by
  unfold ptermText LogEnv.styled
  split
  · exact ⟨27, _, rfl, .inl rfl⟩
  · obtain ⟨c, rest, hc, hd⟩ := formatRFC3339_head (env.clock i).1 (env.clock i).2
    exact ⟨c, _, by simp only [hc, List.cons_append]; rfl, .inr hd⟩

end Bpfstream
