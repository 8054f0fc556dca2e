import Bpfstream.Count

/-!
# The `Action` of the count commands

What `vfs count`, `proc count`, `mem count` and `syscall count` write to stdout.  After the format
check (`ValidateFormat`, written out inline in `vfsCountCmd`) each runs its parse with the locals
`totalEvent` and `intervalCount`; in live mode the `map` case prints the interval's own event as
soon as it is added.  A parse that returns an error ends the `Action` with that error; otherwise
the total is printed, in live mode only after a header and only when more than one interval came.
The logger writes to stdout as well, so the events the parse logs stand between the prints, in the
order they happen.

Opening the input file is not modelled: its error comes before anything else is done.  A printed
block is the call `printXEvent(e, format, intervalCount)`; its text is `Bpfstream.Render`'s.
`rootCmd` registers only `vfsCmd`, so `main` runs the `vfs` command alone and logs the error an
`Action` returns.
-/

namespace Bpfstream

/-- What a count command writes to stdout, in order. -/
inductive CountPrint (C : Type) where
  /-- `printXEvent(e, format, intervalCount)`: one block of counts. -/
  | block (e : C) (intervals : Nat)
  /-- `fmt.Println("\n--- Total ---")`. -/
  | totalHeader
  /-- A line of the logger. -/
  | log (ev : LogEvent)
deriving DecidableEq, Repr

variable {C : Type}

/-- Whether an entry of the output is a log line. -/
def CountPrint.isLog : CountPrint C → Bool
  | .log _ => true
  | _ => false

/-- What the printers and `fmt` wrote: the output without its log lines. -/
def printsOf (out : List (CountPrint C)) : List (CountPrint C) := out.filter fun p => !p.isLog

/-- The events the logger wrote. -/
def logsOf (out : List (CountPrint C)) : List LogEvent :=
  out.filterMap fun
    | .log ev => some ev
    | _ => none

@[simp] theorem printsOf_append (a b : List (CountPrint C)) :
    printsOf (a ++ b) = printsOf a ++ printsOf b :=
  List.filter_append a b

@[simp] theorem printsOf_map_log (evs : List LogEvent) : printsOf (evs.map (CountPrint.log (C := C))) = [] := by
  simp [printsOf, List.filter_map, Function.comp_def, CountPrint.isLog]

@[simp] theorem logsOf_append (a b : List (CountPrint C)) :
    logsOf (a ++ b) = logsOf a ++ logsOf b :=
  List.filterMap_append a b _

/-- The logger's events appended to what has been written. -/
def writeLogs {α : Type} (st : α × List (CountPrint C)) (evs : List LogEvent) :
    α × List (CountPrint C) :=
  (st.1, st.2 ++ evs.map .log)

/-- `ValidateFormat(format)`, which `vfsCountCmd` writes out inline with the same message. -/
def validateFormat (format : String) : Option GoError :=
  if format = "table" ∨ format = "json" ∨ format = "csv" then none
  else some (.new ("invalid format: " ++ format ++ " (must be table, json, or csv)"))

/-- Where a count command's handler logs: what its `Fill` logs, and the warning of its `default`
case at `file:unknownTypeLine`. -/
structure CountLogs where
  fillLog : JsonValue → List LogEvent
  file : String
  unknownTypeLine : Nat

/-- The `map` case of a count command's handler: `Fill` logs what it logs, then `countMap`, and in
live mode the interval's own event printed with the new interval count. -/
def liveCountMap (fill : C → JsonValue → Except GoError C) (fillLog : JsonValue → List LogEvent)
    (zero : C) (add : C → C → C) (live : Bool) (st : (C × Nat) × List (CountPrint C))
    (dataEl : JsonValue) : ((C × Nat) × List (CountPrint C)) × Ret :=
  let out := st.2 ++ (fillLog dataEl).map .log
  match fill zero dataEl with
  | .error e => ((st.1, out), .err (.wrap "failed to fill event from map data" e))
  | .ok ev =>
    (((add st.1.1 ev, st.1.2 + 1), if live then out ++ [.block ev (st.1.2 + 1)] else out), .ok)

/-- The handler `procCountCmd`, `memCountCmd` and `syscallCountCmd` pass to `ParseStream`, over
the locals `totalEvent` and `intervalCount` and what has been written. -/
def liveCountHandler (fill : C → JsonValue → Except GoError C) (logs : CountLogs) (zero : C)
    (add : C → C → C) (live : Bool) : MessageHandler ((C × Nat) × List (CountPrint C)) :=
  fun st typeStr dataEl =>
    if typeStr = ascii "map" then liveCountMap fill logs.fillLog zero add live st dataEl
    else (writeLogs st [unknownTypeLog logs.file logs.unknownTypeLine typeStr], .ok)

/-- What an `Action` prints once its parse returned nil: the total, in live mode after a header
and only when more than one interval came. -/
def printSummary (live : Bool) (total : C) (intervals : Nat) : List (CountPrint C) :=
  if !live then [.block total intervals]
  else if 1 < intervals then [.totalHeader, .block total intervals]
  else []

/-- The end of an `Action`: the parse's error, or the summary. -/
def finishAction (live : Bool) (out : List (CountPrint C)) (st : C × Nat) :
    Ret → List (CountPrint C) × Ret
  | .ok => (out ++ printSummary live st.1 st.2, .ok)
  | r => (out, r)

/-- The `Action` of `procCountCmd`, `memCountCmd` and `syscallCountCmd` on the chunks of the
input, for the format and live flags: what it writes, in order, and the error it returns. -/
def countAction (fill : C → JsonValue → Except GoError C) (logs : CountLogs) (zero : C)
    (add : C → C → C) (format : String) (live : Bool) (chunks : List Bytes) (final : GoError) :
    List (CountPrint C) × Ret :=
  match validateFormat format with
  | some e => ([], .err e)
  | none =>
    let ((_, (st, out)), r) :=
      rangeStreams (NDJSONParser.onDocLogged writeLogs (liveCountHandler fill logs zero add live))
        ({}, ((zero, 0), [])) (parseNDStream chunks final)
    finishAction live out st r

/-- Where `procCountCmd` logs. -/
def procCountLogs : CountLogs := ⟨ProcCountEvent.fillLog, "cmd_proc.go", 192⟩

/-- Where `memCountCmd` logs. -/
def memCountLogs : CountLogs := ⟨MemCountEvent.fillLog, "cmd_mem.go", 192⟩

/-- Where `syscallCountCmd` logs. -/
def syscallCountLogs : CountLogs := ⟨SyscallCountEvent.fillLog, "cmd_syscall.go", 197⟩

/-- `procCountCmd`'s `Action`. -/
def procCountAction (format : String) (live : Bool) (chunks : List Bytes) (final : GoError) :
    List (CountPrint ProcCountEvent) × Ret :=
  countAction ProcCountEvent.fill procCountLogs Counts.zero Counts.add format live chunks final

/-- `memCountCmd`'s `Action`. -/
def memCountAction (format : String) (live : Bool) (chunks : List Bytes) (final : GoError) :
    List (CountPrint MemCountEvent) × Ret :=
  countAction MemCountEvent.fill memCountLogs Counts.zero Counts.add format live chunks final

/-- `syscallCountCmd`'s `Action`; each interval's event and the total start as
`NewSyscallCountEvent()`. -/
def syscallCountAction (format : String) (live : Bool) (chunks : List Bytes) (final : GoError) :
    List (CountPrint SyscallCountEvent) × Ret :=
  countAction SyscallCountEvent.fill syscallCountLogs {} SyscallCountEvent.add format live chunks
    final

/-- The `ForEach` callback of `vfsCountCmd`'s `Action`, on the local `startTime`, the locals
`totalEvent` and `intervalCount`, and what has been written.  Its `attached_probes` case logs
nothing, and `lost_events` falls to the `default` case. -/
def vfsCountLiveOnDoc (live : Bool) :
    GoTime × ((Event × Nat) × List (CountPrint Event)) → JsonValue →
      (GoTime × ((Event × Nat) × List (CountPrint Event))) × Ret
  | (t, st), doc =>
    match readEnvelope doc with
    | .error e => ((t, st), .err e)
    | .ok (typeStr, dataEl) =>
      if typeStr = ascii "attached_probes" then ((t, st), NDJSONParser.handleAttachedProbes dataEl)
      else if typeStr = ascii "time" then
        let (t', r) := NDJSONParser.handleTime t dataEl
        ((t', writeLogs st (timeLogAt "cmd_vfs.go" 119 131 t dataEl)), r)
      else if typeStr = ascii "map" then
        let (st', r) := liveCountMap Event.fill Event.fillLog Counts.zero Counts.add live st dataEl
        ((t, st'), r)
      else ((t, writeLogs st [unknownTypeLog "cmd_vfs.go" 146 typeStr]), .ok)

/-- `vfsCountCmd`'s `Action`. -/
def vfsCountAction (format : String) (live : Bool) (chunks : List Bytes) (final : GoError) :
    List (CountPrint Event) × Ret :=
  match validateFormat format with
  | some e => ([], .err e)
  | none =>
    let ((_, (st, out)), r) :=
      rangeStreams (vfsCountLiveOnDoc live) (GoTime.zero, ((Counts.zero, 0), []))
        (parseNDStream chunks final)
    finishAction live out st r

/-- `main` running `vfs count`: what the `Action` writes, then, when it returns an error, the
error `main` logs.  A panic ends the program with nothing more on stdout. -/
def vfsCountMain (format : String) (live : Bool) (chunks : List Bytes) (final : GoError) :
    List (CountPrint Event) :=
  (vfsCountAction format live chunks final).1 ++
    match (vfsCountAction format live chunks final).2 with
    | .err e => [.log { level := .error, msg := "Unexpected error", file := "part_002", line := 29,
                        fields := [], err := some e }]
    | _ => []

end Bpfstream
