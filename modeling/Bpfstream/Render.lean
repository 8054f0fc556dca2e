import Bpfstream.Action
import Bpfstream.Go.Encode

/-!
# The printers of the count commands

`printEvent`, `printProcEvent`, `printMemEvent` and `printSyscallEvent` write one block of counts
in the format of the command.  `json` writes the event's fields under their tags, then `intervals`
and `total`, as one line; `csv` hands its records to a `csv.Writer`; every other format is the
table, lines written into a `tabwriter`.  The `tabwriter`'s column layout is not modelled: a table
block is the list of lines handed to it.
-/

namespace Bpfstream

/-- What a printer writes: bytes on stdout, or the lines it hands to a `tabwriter`. -/
inductive PrintOut where
  | text (b : Bytes)
  | table (lines : List Bytes)
deriving DecidableEq, Repr

/-- The records a printer of a record of counters hands to the `csv.Writer`: the header, one row
per field under its tag, and the total. -/
def countsCsv {n : Nat} (fields : List (Bytes × Fin n)) (e : Counts n) : List (List Bytes) :=
  [ascii "Operation", ascii "Count"] ::
    (fields.map (fun f => [f.1, formatInt (e f.2).toInt]) ++
      [[ascii "total", formatInt (Counts.total e).toInt]])

/-- The printer of a record of counters.  `fields` are its fields in declaration order, each by
its json tag and its slot; the `csv` and table rows use the same names as labels. -/
def printCounts {n : Nat} (fields : List (Bytes × Fin n)) (e : Counts n) (format : String)
    (intervalCount : Nat) : PrintOut :=
  if format = "json" then
    .text (jsonObject (fields.map (fun f => (f.1, jsonInt (e f.2).toInt)) ++
      [(ascii "intervals", jsonInt intervalCount), (ascii "total", jsonInt (Counts.total e).toInt)]) ++
      [10])
  else if format = "csv" then .text (csvText (countsCsv fields e))
  else
    .table ([ascii "Operation\tCount", ascii "---------\t-----"] ++
      fields.map (fun f => f.1 ++ ascii "\t" ++ formatInt (e f.2).toInt) ++
      [ascii "---------\t-----", ascii "Total\t" ++ formatInt (Counts.total e).toInt,
        ascii "Intervals\t" ++ formatInt intervalCount])

/-- `Event`'s fields by their json tags. -/
def Event.fields : List (Bytes × Fin 8) :=
  [(ascii "create", 0), (ascii "open", 1), (ascii "read", 2), (ascii "readlink", 3),
    (ascii "readv", 4), (ascii "write", 5), (ascii "writev", 6), (ascii "fsync", 7)]

/-- `printEvent(e, format, intervalCount)`. -/
def printEvent (e : Event) (format : String) (intervalCount : Nat) : PrintOut :=
  printCounts Event.fields e format intervalCount

/-- `ProcCountEvent`'s fields by their json tags. -/
def ProcCountEvent.fields : List (Bytes × Fin 4) :=
  [(ascii "exec", 0), (ascii "fork", 1), (ascii "exit", 2), (ascii "clone", 3)]

/-- `printProcEvent(e, format, intervalCount)`. -/
def printProcEvent (e : ProcCountEvent) (format : String) (intervalCount : Nat) : PrintOut :=
  printCounts ProcCountEvent.fields e format intervalCount

/-- `MemCountEvent`'s fields by their json tags. -/
def MemCountEvent.fields : List (Bytes × Fin 4) :=
  [(ascii "mmap", 0), (ascii "munmap", 1), (ascii "brk", 2), (ascii "page_fault", 3)]

/-- `printMemEvent(e, format, intervalCount)`. -/
def printMemEvent (e : MemCountEvent) (format : String) (intervalCount : Nat) : PrintOut :=
  printCounts MemCountEvent.fields e format intervalCount

/-- `printSyscallEvent(e, format, intervalCount)`: `json` writes the map itself under `counts`,
`csv` and the table its names in the order of `SortedKeys`. -/
def printSyscallEvent (sort : SliceSort Bytes) (e : SyscallCountEvent) (format : String)
    (intervalCount : Nat) : PrintOut :=
  if format = "json" then
    .text (jsonObject [(ascii "counts", jsonIntMap e.counts.entries),
      (ascii "intervals", jsonInt intervalCount), (ascii "total", jsonInt e.total.toInt)] ++ [10])
  else if format = "csv" then .text (csvText (printSyscallCsv sort e))
  else .table (printSyscallTable sort e intervalCount)

/-! ## What an `Action` writes -/

variable {C : Type}

/-- What one entry of an `Action`'s output writes: the block of its printer, for the header
`fmt.Println("\n--- Total ---")`, and for a log line the text `logText` gives the event. -/
def CountPrint.output (print : C → String → Nat → PrintOut) (format : String)
    (logText : LogEvent → Bytes) : CountPrint C → PrintOut
  | .block e k => print e format k
  | .totalHeader => .text (ascii "\n--- Total ---\n")
  | .log ev => .text (logText ev)

/-- What an `Action`'s output writes to stdout, from its `i`-th log line on: the prints in
`format`, and each log line as `ptermWriter` writes it. -/
def stdoutPrints (print : C → String → Nat → PrintOut) (format : String) (env : LogEnv) :
    Nat → List (CountPrint C) → List PrintOut
  | _, [] => []
  | i, p :: ps =>
    p.output print format (ptermText env i) :: stdoutPrints print format env (if p.isLog then i + 1 else i) ps

/-- The bytes on stdout after prints that all write text. -/
def textOf : List PrintOut → Option Bytes
  | [] => some []
  | .text b :: ps => (textOf ps).map (b ++ ·)
  | .table _ :: _ => none

end Bpfstream
