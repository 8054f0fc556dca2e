import Bpfstream.Parser
import Bpfstream.Go.Logfmt

/-!
# `proc raw`, `mem raw` and `syscall raw`: one row per `printf` record

`cmd_proc.go`, `cmd_mem.go` and `cmd_syscall.go` decode the payload of every `printf` message
with `logfmt.Unmarshal` into a raw event of their own and hand it to `appendRow`, through
`NDJSONParser.ParseStream`.  Their three `HandleLogfmt` methods are one switch over the key whose
cases each set one field from the value: by `strconv.ParseUint` in base 10 or 0, by
`strconv.ParseInt`, as it is, or with the quotes `strings.Trim` strips.  Unlike `vfsEvent` they
never slice the value.

The `sync.Pool` the `proc` and `mem` paths take their event from is reset to the zero event
before each decode, so each record decodes into a zero event as `syscall`'s `var e` does.
-/

namespace Bpfstream

/-! ## The cases of a `HandleLogfmt` switch -/

/-- A byte `strings.Trim(v, "'\"")` strips: a single or a double quote. -/
def isQuoteByte (c : UInt8) : Bool := c = 39 || c = 34

/-- `strings.Trim(v, "'\"")`: the quotes at the end dropped, then those at the start. -/
def trimQuotes (v : Bytes) : Bytes :=
  ((v.reverse.dropWhile isQuoteByte).reverse).dropWhile isQuoteByte

/-- One case of a raw event's `HandleLogfmt` switch: the key it matches, and what it does to the
event with the value: the event afterwards and the error it returns. -/
structure FieldCase (E : Type) where
  key : Bytes
  set : E → Bytes → E × Option GoError

variable {E : Type}

/-- `HandleLogfmt(key, val)` of a raw event: the first case for `key`, or `unknown` for a key no
case names. -/
def handleCases (cases : List (FieldCase E)) (unknown : GoError) (e : E) (key val : Bytes) :
    E × Option GoError :=
  match cases.find? (fun c => decide (c.key = key)) with
  | some c => c.set e val
  | none => (e, some unknown)

/-- `e.F, err = strconv.ParseUint(v, 10, 64)`: the field takes the value even on an error. -/
def uintCase (key : Bytes) (upd : E → Word → E) : FieldCase E :=
  ⟨key, fun e v => (upd e (parseUint v).1, (parseUint v).2)⟩

/-- `e.F, err = strconv.ParseUint(v, 0, 64)`. -/
def uint0Case (key : Bytes) (upd : E → Word → E) : FieldCase E :=
  ⟨key, fun e v => (upd e (parseUint0 v).1, (parseUint0 v).2)⟩

/-- `e.F, err = strconv.ParseInt(v, 10, 64)`. -/
def intCase (key : Bytes) (upd : E → Word → E) : FieldCase E :=
  ⟨key, fun e v => (upd e (parseInt v).1, (parseInt v).2)⟩

/-- `e.F = v`. -/
def textCase (key : Bytes) (upd : E → Bytes → E) : FieldCase E :=
  ⟨key, fun e v => (upd e v, none)⟩

/-- `e.F = strings.Trim(v, "'\"")`. -/
def trimmedCase (key : Bytes) (upd : E → Bytes → E) : FieldCase E :=
  ⟨key, fun e v => (upd e (trimQuotes v), none)⟩

/-- `logfmt.Unmarshal(buf, e)` into the zero event `zero`, for a `HandleLogfmt` that returns. -/
def decodeRaw (handle : E → Bytes → Bytes → E × Option GoError) (zero : E) (data : Bytes) :
    Except Panic (E × Option GoError) :=
  logfmtUnmarshal (fun e k v => .ok (handle e k v)) data zero

/-! ## The three raw events -/

/-- `procRawEvent`. -/
structure ProcRawEvent where
  timestamp : Word := 0
  probe : Bytes := []
  pid : Word := 0
  ppid : Word := 0
  tid : Word := 0
  comm : Bytes := []
  cmdline : Bytes := []
  exitCode : Word := 0
deriving DecidableEq, Repr

/-- `ErrUnknownProcField`. -/
def errUnknownProcField : GoError := .new "unknown proc field"

/-- The cases of `procRawEvent.HandleLogfmt`. -/
def ProcRawEvent.cases : List (FieldCase ProcRawEvent) :=
  [uintCase (ascii "ts") fun e x => { e with timestamp := x },
    textCase (ascii "fn") fun e v => { e with probe := v },
    uintCase (ascii "pid") fun e x => { e with pid := x },
    uintCase (ascii "ppid") fun e x => { e with ppid := x },
    uintCase (ascii "tid") fun e x => { e with tid := x },
    trimmedCase (ascii "comm") fun e v => { e with comm := v },
    trimmedCase (ascii "cmdline") fun e v => { e with cmdline := v },
    intCase (ascii "exit_code") fun e x => { e with exitCode := x }]

/-- `procRawEvent.HandleLogfmt(key, val)`. -/
def ProcRawEvent.handleLogfmt :
    ProcRawEvent → Bytes → Bytes → ProcRawEvent × Option GoError :=
  handleCases ProcRawEvent.cases errUnknownProcField

/-! The field each key of a `proc` record sets. -/

theorem ProcRawEvent.handleLogfmt_ts (e : ProcRawEvent) (v : Bytes) :
    e.handleLogfmt (ascii "ts") v = ({ e with timestamp := (parseUint v).1 }, (parseUint v).2) :=
  rfl
theorem ProcRawEvent.handleLogfmt_fn (e : ProcRawEvent) (v : Bytes) :
    e.handleLogfmt (ascii "fn") v = ({ e with probe := v }, none) := rfl
theorem ProcRawEvent.handleLogfmt_pid (e : ProcRawEvent) (v : Bytes) :
    e.handleLogfmt (ascii "pid") v = ({ e with pid := (parseUint v).1 }, (parseUint v).2) := rfl
theorem ProcRawEvent.handleLogfmt_ppid (e : ProcRawEvent) (v : Bytes) :
    e.handleLogfmt (ascii "ppid") v = ({ e with ppid := (parseUint v).1 }, (parseUint v).2) := rfl
theorem ProcRawEvent.handleLogfmt_tid (e : ProcRawEvent) (v : Bytes) :
    e.handleLogfmt (ascii "tid") v = ({ e with tid := (parseUint v).1 }, (parseUint v).2) := rfl
theorem ProcRawEvent.handleLogfmt_comm (e : ProcRawEvent) (v : Bytes) :
    e.handleLogfmt (ascii "comm") v = ({ e with comm := trimQuotes v }, none) := rfl
theorem ProcRawEvent.handleLogfmt_cmdline (e : ProcRawEvent) (v : Bytes) :
    e.handleLogfmt (ascii "cmdline") v = ({ e with cmdline := trimQuotes v }, none) := rfl
theorem ProcRawEvent.handleLogfmt_exit_code (e : ProcRawEvent) (v : Bytes) :
    e.handleLogfmt (ascii "exit_code") v =
      ({ e with exitCode := (parseInt v).1 }, (parseInt v).2) :=
  rfl

/-- `memRawEvent`. -/
structure MemRawEvent where
  timestamp : Word := 0
  probe : Bytes := []
  pid : Word := 0
  tid : Word := 0
  comm : Bytes := []
  address : Word := 0
  size : Word := 0
  type : Bytes := []
deriving DecidableEq, Repr

/-- `ErrUnknownMemField`. -/
def errUnknownMemField : GoError := .new "unknown mem field"

/-- The cases of `memRawEvent.HandleLogfmt`; `addr` is read in base 0. -/
def MemRawEvent.cases : List (FieldCase MemRawEvent) :=
  [uintCase (ascii "ts") fun e x => { e with timestamp := x },
    textCase (ascii "fn") fun e v => { e with probe := v },
    uintCase (ascii "pid") fun e x => { e with pid := x },
    uintCase (ascii "tid") fun e x => { e with tid := x },
    trimmedCase (ascii "comm") fun e v => { e with comm := v },
    uint0Case (ascii "addr") fun e x => { e with address := x },
    uintCase (ascii "size") fun e x => { e with size := x },
    textCase (ascii "type") fun e v => { e with type := v }]

/-- `memRawEvent.HandleLogfmt(key, val)`. -/
def MemRawEvent.handleLogfmt : MemRawEvent → Bytes → Bytes → MemRawEvent × Option GoError :=
  handleCases MemRawEvent.cases errUnknownMemField

/-! The field each key of a `mem` record sets. -/

theorem MemRawEvent.handleLogfmt_ts (e : MemRawEvent) (v : Bytes) :
    e.handleLogfmt (ascii "ts") v = ({ e with timestamp := (parseUint v).1 }, (parseUint v).2) :=
  rfl
theorem MemRawEvent.handleLogfmt_fn (e : MemRawEvent) (v : Bytes) :
    e.handleLogfmt (ascii "fn") v = ({ e with probe := v }, none) := rfl
theorem MemRawEvent.handleLogfmt_pid (e : MemRawEvent) (v : Bytes) :
    e.handleLogfmt (ascii "pid") v = ({ e with pid := (parseUint v).1 }, (parseUint v).2) := rfl
theorem MemRawEvent.handleLogfmt_tid (e : MemRawEvent) (v : Bytes) :
    e.handleLogfmt (ascii "tid") v = ({ e with tid := (parseUint v).1 }, (parseUint v).2) := rfl
theorem MemRawEvent.handleLogfmt_comm (e : MemRawEvent) (v : Bytes) :
    e.handleLogfmt (ascii "comm") v = ({ e with comm := trimQuotes v }, none) := rfl
theorem MemRawEvent.handleLogfmt_addr (e : MemRawEvent) (v : Bytes) :
    e.handleLogfmt (ascii "addr") v = ({ e with address := (parseUint0 v).1 }, (parseUint0 v).2) :=
  rfl
theorem MemRawEvent.handleLogfmt_size (e : MemRawEvent) (v : Bytes) :
    e.handleLogfmt (ascii "size") v = ({ e with size := (parseUint v).1 }, (parseUint v).2) := rfl
theorem MemRawEvent.handleLogfmt_type (e : MemRawEvent) (v : Bytes) :
    e.handleLogfmt (ascii "type") v = ({ e with type := v }, none) := rfl

/-- `syscallRawEvent`. -/
structure SyscallRawEvent where
  timestamp : Word := 0
  pid : Word := 0
  tid : Word := 0
  comm : Bytes := []
  syscallNr : Word := 0
  syscallName : Bytes := []
  arg0 : Word := 0
  arg1 : Word := 0
  arg2 : Word := 0
  arg3 : Word := 0
  arg4 : Word := 0
  arg5 : Word := 0
  returnValue : Word := 0
deriving DecidableEq, Repr

/-- `ErrUnknownSyscallField`. -/
def errUnknownSyscallField : GoError := .new "unknown syscall field"

/-- The cases of `syscallRawEvent.HandleLogfmt`; the six arguments are read in base 0. -/
def SyscallRawEvent.cases : List (FieldCase SyscallRawEvent) :=
  [uintCase (ascii "ts") fun e x => { e with timestamp := x },
    uintCase (ascii "pid") fun e x => { e with pid := x },
    uintCase (ascii "tid") fun e x => { e with tid := x },
    trimmedCase (ascii "comm") fun e v => { e with comm := v },
    uintCase (ascii "nr") fun e x => { e with syscallNr := x },
    textCase (ascii "name") fun e v => { e with syscallName := v },
    uint0Case (ascii "arg0") fun e x => { e with arg0 := x },
    uint0Case (ascii "arg1") fun e x => { e with arg1 := x },
    uint0Case (ascii "arg2") fun e x => { e with arg2 := x },
    uint0Case (ascii "arg3") fun e x => { e with arg3 := x },
    uint0Case (ascii "arg4") fun e x => { e with arg4 := x },
    uint0Case (ascii "arg5") fun e x => { e with arg5 := x },
    intCase (ascii "ret") fun e x => { e with returnValue := x }]

/-- `syscallRawEvent.HandleLogfmt(key, val)`. -/
def SyscallRawEvent.handleLogfmt :
    SyscallRawEvent → Bytes → Bytes → SyscallRawEvent × Option GoError :=
  handleCases SyscallRawEvent.cases errUnknownSyscallField

/-! The field each key of a `syscall` record sets. -/

theorem SyscallRawEvent.handleLogfmt_ts (e : SyscallRawEvent) (v : Bytes) :
    e.handleLogfmt (ascii "ts") v = ({ e with timestamp := (parseUint v).1 }, (parseUint v).2) :=
  rfl
theorem SyscallRawEvent.handleLogfmt_pid (e : SyscallRawEvent) (v : Bytes) :
    e.handleLogfmt (ascii "pid") v = ({ e with pid := (parseUint v).1 }, (parseUint v).2) := rfl
theorem SyscallRawEvent.handleLogfmt_tid (e : SyscallRawEvent) (v : Bytes) :
    e.handleLogfmt (ascii "tid") v = ({ e with tid := (parseUint v).1 }, (parseUint v).2) := rfl
theorem SyscallRawEvent.handleLogfmt_comm (e : SyscallRawEvent) (v : Bytes) :
    e.handleLogfmt (ascii "comm") v = ({ e with comm := trimQuotes v }, none) := rfl
theorem SyscallRawEvent.handleLogfmt_nr (e : SyscallRawEvent) (v : Bytes) :
    e.handleLogfmt (ascii "nr") v = ({ e with syscallNr := (parseUint v).1 }, (parseUint v).2) :=
  rfl
theorem SyscallRawEvent.handleLogfmt_name (e : SyscallRawEvent) (v : Bytes) :
    e.handleLogfmt (ascii "name") v = ({ e with syscallName := v }, none) := rfl
theorem SyscallRawEvent.handleLogfmt_arg0 (e : SyscallRawEvent) (v : Bytes) :
    e.handleLogfmt (ascii "arg0") v = ({ e with arg0 := (parseUint0 v).1 }, (parseUint0 v).2) := rfl
theorem SyscallRawEvent.handleLogfmt_arg1 (e : SyscallRawEvent) (v : Bytes) :
    e.handleLogfmt (ascii "arg1") v = ({ e with arg1 := (parseUint0 v).1 }, (parseUint0 v).2) := rfl
theorem SyscallRawEvent.handleLogfmt_arg2 (e : SyscallRawEvent) (v : Bytes) :
    e.handleLogfmt (ascii "arg2") v = ({ e with arg2 := (parseUint0 v).1 }, (parseUint0 v).2) := rfl
theorem SyscallRawEvent.handleLogfmt_arg3 (e : SyscallRawEvent) (v : Bytes) :
    e.handleLogfmt (ascii "arg3") v = ({ e with arg3 := (parseUint0 v).1 }, (parseUint0 v).2) := rfl
theorem SyscallRawEvent.handleLogfmt_arg4 (e : SyscallRawEvent) (v : Bytes) :
    e.handleLogfmt (ascii "arg4") v = ({ e with arg4 := (parseUint0 v).1 }, (parseUint0 v).2) := rfl
theorem SyscallRawEvent.handleLogfmt_arg5 (e : SyscallRawEvent) (v : Bytes) :
    e.handleLogfmt (ascii "arg5") v = ({ e with arg5 := (parseUint0 v).1 }, (parseUint0 v).2) := rfl
theorem SyscallRawEvent.handleLogfmt_ret (e : SyscallRawEvent) (v : Bytes) :
    e.handleLogfmt (ascii "ret") v = ({ e with returnValue := (parseInt v).1 }, (parseInt v).2) :=
  rfl

/-! ## The importers -/

/-- The `ParseStream` handler of the three importers, on the rows handed to `appendRow` so far:
a `printf` message's data read as a string and decoded, then handed on; `appendRow`'s error is
returned as it is.  Every other type is skipped. -/
def rawPrintfHandler (decode : Bytes → Except Panic (E × Option GoError))
    (appendRow : List E → E → Option GoError) : MessageHandler (List E) :=
  fun rows msgType dataEl =>
    if msgType = ascii "printf" then
      match iterString dataEl with
      | .error e => (rows, .err (.wrap "failed to get 'printf' data as string" e))
      | .ok buf =>
        match decode buf with
        | .error p => (rows, .panic p)
        | .ok (_, some e) => (rows, .err (.wrap "failed to unmarshal logfmt data" e))
        | .ok (ev, none) =>
          (rows ++ [ev], match appendRow rows ev with | some e => .err e | none => .ok)
    else (rows, .ok)

/-- `procJSONParseThenAppend`, `memJSONParseThenAppend` and `syscallJSONParseThenAppend` on the
chunks of `r`, for the decoder of their event: the parser and the rows handed to `appendRow`
afterwards, and how the call ends. -/
def rawJSONParseThenAppend (decode : Bytes → Except Panic (E × Option GoError))
    (chunks : List Bytes) (final : GoError) (appendRow : List E → E → Option GoError) :
    (NDJSONParser × List E) × Ret :=
  NDJSONParser.parseStream {} chunks final (rawPrintfHandler decode appendRow) []

/-- `procJSONParseThenAppend(r, appendRow)`. -/
def procJSONParseThenAppend (chunks : List Bytes) (final : GoError)
    (appendRow : List ProcRawEvent → ProcRawEvent → Option GoError) :
    (NDJSONParser × List ProcRawEvent) × Ret :=
  rawJSONParseThenAppend (decodeRaw ProcRawEvent.handleLogfmt {}) chunks final appendRow

/-- `memJSONParseThenAppend(r, appendRow)`. -/
def memJSONParseThenAppend (chunks : List Bytes) (final : GoError)
    (appendRow : List MemRawEvent → MemRawEvent → Option GoError) :
    (NDJSONParser × List MemRawEvent) × Ret :=
  rawJSONParseThenAppend (decodeRaw MemRawEvent.handleLogfmt {}) chunks final appendRow

/-- `syscallJSONParseThenAppend(r, appendRow)`. -/
def syscallJSONParseThenAppend (chunks : List Bytes) (final : GoError)
    (appendRow : List SyscallRawEvent → SyscallRawEvent → Option GoError) :
    (NDJSONParser × List SyscallRawEvent) × Ret :=
  rawJSONParseThenAppend (decodeRaw SyscallRawEvent.handleLogfmt {}) chunks final appendRow

end Bpfstream
