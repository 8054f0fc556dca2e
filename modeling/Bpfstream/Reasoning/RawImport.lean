import Bpfstream.RawEvents
import Bpfstream.Reasoning.Payload
import Bpfstream.Reasoning.Delivery

/-!
# The `proc`, `mem` and `syscall` importers

What the three raw importers do with a stream: the record the probe writes for an event decodes
back to that event whatever the order of its pairs, and `appendRow` sees one row per `printf`
message that decodes, in input order, up to the first failing read.
-/

namespace Bpfstream

variable {E : Type}

/-! ## Base-0 fields -/

/-- The fields read with base 0, `mem`'s `addr` and `syscall`'s `arg0` to `arg5`, take a value
that neither starts with `0` nor holds an underscore as a base-10 field would: the same word and
the same error. -/
theorem base0_fields_read_decimal {v : Bytes} (h0 : v.head? ≠ some 48) (hu : 95 ∉ v)
    (m : MemRawEvent) (s : SyscallRawEvent) :
    m.handleLogfmt (ascii "addr") v = ({ m with address := (parseUint v).1 }, (parseUint v).2) ∧
    s.handleLogfmt (ascii "arg0") v = ({ s with arg0 := (parseUint v).1 }, (parseUint v).2) ∧
    s.handleLogfmt (ascii "arg1") v = ({ s with arg1 := (parseUint v).1 }, (parseUint v).2) ∧
    s.handleLogfmt (ascii "arg2") v = ({ s with arg2 := (parseUint v).1 }, (parseUint v).2) ∧
    s.handleLogfmt (ascii "arg3") v = ({ s with arg3 := (parseUint v).1 }, (parseUint v).2) ∧
    s.handleLogfmt (ascii "arg4") v = ({ s with arg4 := (parseUint v).1 }, (parseUint v).2) ∧
    s.handleLogfmt (ascii "arg5") v = ({ s with arg5 := (parseUint v).1 }, (parseUint v).2) := by
  simp only [MemRawEvent.handleLogfmt_addr, SyscallRawEvent.handleLogfmt_arg0,
    SyscallRawEvent.handleLogfmt_arg1, SyscallRawEvent.handleLogfmt_arg2,
    SyscallRawEvent.handleLogfmt_arg3, SyscallRawEvent.handleLogfmt_arg4,
    SyscallRawEvent.handleLogfmt_arg5, parseUint0_eq_parseUint h0 hu, and_self]

theorem base0_fields_read_decimal_4096 :
    (ascii "4096").head? ≠ some 48 ∧ 95 ∉ ascii "4096" ∧
      (({} : MemRawEvent).handleLogfmt (ascii "addr") (ascii "4096") =
          ({ ({} : MemRawEvent) with address := (parseUint (ascii "4096")).1 },
            (parseUint (ascii "4096")).2) ∧
        ({} : SyscallRawEvent).handleLogfmt (ascii "arg0") (ascii "4096") =
          ({ ({} : SyscallRawEvent) with arg0 := (parseUint (ascii "4096")).1 },
            (parseUint (ascii "4096")).2) ∧
        ({} : SyscallRawEvent).handleLogfmt (ascii "arg1") (ascii "4096") =
          ({ ({} : SyscallRawEvent) with arg1 := (parseUint (ascii "4096")).1 },
            (parseUint (ascii "4096")).2) ∧
        ({} : SyscallRawEvent).handleLogfmt (ascii "arg2") (ascii "4096") =
          ({ ({} : SyscallRawEvent) with arg2 := (parseUint (ascii "4096")).1 },
            (parseUint (ascii "4096")).2) ∧
        ({} : SyscallRawEvent).handleLogfmt (ascii "arg3") (ascii "4096") =
          ({ ({} : SyscallRawEvent) with arg3 := (parseUint (ascii "4096")).1 },
            (parseUint (ascii "4096")).2) ∧
        ({} : SyscallRawEvent).handleLogfmt (ascii "arg4") (ascii "4096") =
          ({ ({} : SyscallRawEvent) with arg4 := (parseUint (ascii "4096")).1 },
            (parseUint (ascii "4096")).2) ∧
        ({} : SyscallRawEvent).handleLogfmt (ascii "arg5") (ascii "4096") =
          ({ ({} : SyscallRawEvent) with arg5 := (parseUint (ascii "4096")).1 },
            (parseUint (ascii "4096")).2)) :=
  ⟨by decide, by decide, base0_fields_read_decimal (by decide) (by decide) {} {}⟩

/-! ## Records decode in any order -/

section Perm

variable {handle : E → Bytes → Bytes → E × Option GoError}

/-- Pairs that `handle` accepts without error are folded into the event. -/
theorem runLogfmt_pairs {l : List (Bytes × Bytes)}
    (hl : ∀ p ∈ l, ∀ s, (handle s p.1 p.2).2 = none) (s : E) :
    runLogfmt (fun e k v => .ok (handle e k v)) (l.map fun p => .pair p.1 p.2) s none =
      .ok (l.foldl (fun e p => (handle e p.1 p.2).1) s, none) := by
  induction l generalizing s with
  | nil => rfl
  | cons p l ih =>
    simp only [List.map_cons, runLogfmt, hl p (List.mem_cons_self _ _) s, Option.orElse_none,
      List.foldl_cons]
    exact ih (fun q hq => hl q (List.mem_cons_of_mem _ hq)) _

/-- When the pairs of `ps` are each accepted without error and commute, decoding them in any
order folds them in the order of `ps`. -/
theorem runLogfmt_perm {ps ps' : List (Bytes × Bytes)}
    (hset : ∀ p ∈ ps, ∀ s, (handle s p.1 p.2).2 = none)
    (hcomm : ∀ p ∈ ps, ∀ q ∈ ps, ∀ s,
      (handle (handle s p.1 p.2).1 q.1 q.2).1 = (handle (handle s q.1 q.2).1 p.1 p.2).1)
    (hp : ps'.Perm ps) (s : E) :
    runLogfmt (fun e k v => .ok (handle e k v)) (ps'.map fun p => .pair p.1 p.2) s none =
      .ok (ps.foldl (fun e p => (handle e p.1 p.2).1) s, none) := by
  rw [runLogfmt_pairs (fun p hp' => hset p (hp.subset hp')),
    hp.foldl_eq' (fun x hx y hy z => hcomm x (hp.subset hx) y (hp.subset hy) z)]

end Perm

/-- The value of a quoted text field: the text in single quotes. -/
def quoted (s : Bytes) : Bytes := 39 :: s ++ [39]

/-- A text the probe can write in single quotes and `strings.Trim` gives back: bare-value bytes,
and no single quote at either end. -/
def Quotable (s : Bytes) : Prop :=
  s.all identByte ∧ s.head? ≠ some 39 ∧ s.getLast? ≠ some 39

theorem dropWhile_quote_of_head {s : Bytes} (hs : s.all identByte) (h : s.head? ≠ some 39)
    (hne : s ≠ []) (r : Bytes) : (s ++ r).dropWhile isQuoteByte = s ++ r := by
  obtain ⟨c, t, rfl⟩ := List.exists_cons_of_ne_nil hne
  have hc : isQuoteByte c = false := by
    simp only [List.all_cons, Bool.and_eq_true, identByte, decide_eq_true_eq] at hs
    simp only [List.head?_cons, ne_eq, Option.some.injEq] at h
    simp [isQuoteByte, h, hs.1.1.2]
  rw [List.cons_append, List.dropWhile_cons_of_neg (by simp [hc])]

theorem trimQuotes_quoted {s : Bytes} (hs : Quotable s) : trimQuotes (quoted s) = s := by
  obtain ⟨hid, hh, hl⟩ := hs
  by_cases hne : s = []
  · subst hne; rfl
  · simp only [trimQuotes, quoted, List.reverse_append, List.reverse_cons, List.reverse_nil,
      List.nil_append, List.singleton_append, List.cons_append]
    rw [List.dropWhile_cons_of_pos (by rfl), dropWhile_quote_of_head (by simpa using hid)
      (by rwa [List.head?_reverse]) (by simpa using hne), List.reverse_append,
      List.reverse_reverse, List.reverse_singleton, List.singleton_append,
      List.dropWhile_cons_of_pos (by rfl)]
    simpa using dropWhile_quote_of_head hid hh hne []

theorem quoted_identBytes {s : Bytes} (hs : s.all identByte) : (quoted s).all identByte := by
  simp [quoted, hs]
  rfl

theorem hexDigitByte_identByte : ∀ d, d < 16 → identByte (hexDigitByte d) = true
  | 0, _ | 1, _ | 2, _ | 3, _ | 4, _ | 5, _ | 6, _ | 7, _ | 8, _ | 9, _ | 10, _ | 11, _ | 12, _
  | 13, _ | 14, _ | 15, _ => by decide
  | _ + 16, h => absurd h (by omega)

/-- The value of a base-0 field: `0x` and the hexadecimal digits. -/
def hexText (n : Nat) : Bytes := 48 :: 120 :: formatHex n

theorem hexText_identBytes (n : Nat) : (hexText n).all identByte := by
  have h : (formatHex n).all identByte := by
    rw [List.all_eq_true]
    intro c hc
    unfold formatHex at hc
    split at hc
    · rw [List.mem_singleton.mp hc]; rfl
    · obtain ⟨d, hd, rfl⟩ := List.mem_map.mp hc
      exact hexDigitByte_identByte d (Nat.digits_lt_base (by norm_num) (List.mem_reverse.mp hd))
  simp only [hexText, List.all_cons, h]
  rfl

theorem parseUint0_hexText (w : Word) : parseUint0 (hexText w.toNat) = (w, none) := by
  rw [hexText, parseUint0_hex w.isLt, BitVec.ofNat_toNat, BitVec.setWidth_eq]

/-! ### `proc` -/

/-- The pairs of the record the probe writes for `e`: the integers in decimal, the command name
and line in single quotes. -/
def ProcRawEvent.pairs (e : ProcRawEvent) : List (Bytes × Bytes) :=
  [(ascii "ts", formatUint e.timestamp.toNat), (ascii "fn", e.probe),
    (ascii "pid", formatUint e.pid.toNat), (ascii "ppid", formatUint e.ppid.toNat),
    (ascii "tid", formatUint e.tid.toNat), (ascii "comm", quoted e.comm),
    (ascii "cmdline", quoted e.cmdline), (ascii "exit_code", formatInt e.exitCode.toInt)]

/-- An event the probe can write: a bare probe name, a quotable command name and line. -/
def ProcRawEvent.Printable (e : ProcRawEvent) : Prop :=
  e.probe.all identByte ∧ Quotable e.comm ∧ Quotable e.cmdline

theorem ProcRawEvent.barePairs {e : ProcRawEvent} (he : e.Printable) : BarePairs e.pairs := by
  simp only [BarePairs, pairs, List.all_cons, List.all_nil, formatUint_identBytes,
    formatInt_identBytes, he.1, quoted_identBytes he.2.1.1, quoted_identBytes he.2.2.1,
    Bool.and_true]
  rfl

theorem ProcRawEvent.decode_pairs {e : ProcRawEvent} (he : e.Printable) {ps : List (Bytes × Bytes)}
    (hp : ps.Perm e.pairs) :
    runLogfmt (fun s k v => .ok (s.handleLogfmt k v)) (ps.map fun p => .pair p.1 p.2) {} none =
      .ok (e, none) := by
  rw [runLogfmt_perm _ _ hp]
  · simp only [pairs, List.foldl_cons, List.foldl_nil, handleLogfmt_ts, handleLogfmt_fn,
      handleLogfmt_pid, handleLogfmt_ppid, handleLogfmt_tid, handleLogfmt_comm,
      handleLogfmt_cmdline, handleLogfmt_exit_code, parseUint_formatUint, parseInt_formatInt,
      trimQuotes_quoted he.2.1, trimQuotes_quoted he.2.2]
  · simp only [pairs, List.mem_cons, List.mem_singleton, List.not_mem_nil, or_false]
    rintro p (rfl | rfl | rfl | rfl | rfl | rfl | rfl | rfl) s <;>
      simp only [handleLogfmt_ts, handleLogfmt_fn, handleLogfmt_pid, handleLogfmt_ppid,
        handleLogfmt_tid, handleLogfmt_comm, handleLogfmt_cmdline, handleLogfmt_exit_code,
        parseUint_formatUint, parseInt_formatInt]
  · simp only [pairs, List.mem_cons, List.mem_singleton, List.not_mem_nil, or_false]
    rintro p (rfl | rfl | rfl | rfl | rfl | rfl | rfl | rfl) q
      (rfl | rfl | rfl | rfl | rfl | rfl | rfl | rfl) s <;>
      dsimp only [handleLogfmt_ts, handleLogfmt_fn, handleLogfmt_pid, handleLogfmt_ppid,
        handleLogfmt_tid, handleLogfmt_comm, handleLogfmt_cmdline, handleLogfmt_exit_code]

/-! ### `mem` -/

/-- The pairs of the record the probe writes for `e`: the address in hexadecimal with `0x`, which
is why its case parses in base 0, the other integers in decimal, the command name in single
quotes. -/
def MemRawEvent.pairs (e : MemRawEvent) : List (Bytes × Bytes) :=
  [(ascii "ts", formatUint e.timestamp.toNat), (ascii "fn", e.probe),
    (ascii "pid", formatUint e.pid.toNat), (ascii "tid", formatUint e.tid.toNat),
    (ascii "comm", quoted e.comm), (ascii "addr", hexText e.address.toNat),
    (ascii "size", formatUint e.size.toNat), (ascii "type", e.type)]

/-- An event the probe can write: a bare probe name and type, a quotable command name. -/
def MemRawEvent.Printable (e : MemRawEvent) : Prop :=
  e.probe.all identByte ∧ Quotable e.comm ∧ e.type.all identByte

theorem MemRawEvent.barePairs {e : MemRawEvent} (he : e.Printable) : BarePairs e.pairs := by
  simp only [BarePairs, pairs, List.all_cons, List.all_nil, formatUint_identBytes,
    hexText_identBytes, he.1, quoted_identBytes he.2.1.1, he.2.2, Bool.and_true]
  rfl

theorem MemRawEvent.decode_pairs {e : MemRawEvent} (he : e.Printable) {ps : List (Bytes × Bytes)}
    (hp : ps.Perm e.pairs) :
    runLogfmt (fun s k v => .ok (s.handleLogfmt k v)) (ps.map fun p => .pair p.1 p.2) {} none =
      .ok (e, none) := by
  rw [runLogfmt_perm _ _ hp]
  · simp only [pairs, List.foldl_cons, List.foldl_nil, handleLogfmt_ts, handleLogfmt_fn,
      handleLogfmt_pid, handleLogfmt_tid, handleLogfmt_comm, handleLogfmt_addr, handleLogfmt_size,
      handleLogfmt_type, parseUint_formatUint, parseUint0_hexText, trimQuotes_quoted he.2.1]
  · simp only [pairs, List.mem_cons, List.mem_singleton, List.not_mem_nil, or_false]
    rintro p (rfl | rfl | rfl | rfl | rfl | rfl | rfl | rfl) s <;>
      simp only [handleLogfmt_ts, handleLogfmt_fn, handleLogfmt_pid, handleLogfmt_tid,
        handleLogfmt_comm, handleLogfmt_addr, handleLogfmt_size, handleLogfmt_type,
        parseUint_formatUint, parseUint0_hexText]
  · simp only [pairs, List.mem_cons, List.mem_singleton, List.not_mem_nil, or_false]
    rintro p (rfl | rfl | rfl | rfl | rfl | rfl | rfl | rfl) q
      (rfl | rfl | rfl | rfl | rfl | rfl | rfl | rfl) s <;>
      dsimp only [handleLogfmt_ts, handleLogfmt_fn, handleLogfmt_pid, handleLogfmt_tid,
        handleLogfmt_comm, handleLogfmt_addr, handleLogfmt_size, handleLogfmt_type]

/-! ### `syscall` -/

/-- The pairs of the record the probe writes for `e`: the six arguments in hexadecimal with
`0x`, which is why their cases parse in base 0, the other integers in decimal, the command name
in single quotes. -/
def SyscallRawEvent.pairs (e : SyscallRawEvent) : List (Bytes × Bytes) :=
  [(ascii "ts", formatUint e.timestamp.toNat), (ascii "pid", formatUint e.pid.toNat),
    (ascii "tid", formatUint e.tid.toNat), (ascii "comm", quoted e.comm),
    (ascii "nr", formatUint e.syscallNr.toNat), (ascii "name", e.syscallName),
    (ascii "arg0", hexText e.arg0.toNat), (ascii "arg1", hexText e.arg1.toNat),
    (ascii "arg2", hexText e.arg2.toNat), (ascii "arg3", hexText e.arg3.toNat),
    (ascii "arg4", hexText e.arg4.toNat), (ascii "arg5", hexText e.arg5.toNat),
    (ascii "ret", formatInt e.returnValue.toInt)]

/-- An event the probe can write: a quotable command name and a bare syscall name. -/
def SyscallRawEvent.Printable (e : SyscallRawEvent) : Prop :=
  Quotable e.comm ∧ e.syscallName.all identByte

theorem SyscallRawEvent.barePairs {e : SyscallRawEvent} (he : e.Printable) :
    BarePairs e.pairs := by
  simp only [BarePairs, pairs, List.all_cons, List.all_nil, formatUint_identBytes,
    formatInt_identBytes, hexText_identBytes, quoted_identBytes he.1.1, he.2, Bool.and_true]
  rfl

theorem SyscallRawEvent.decode_pairs {e : SyscallRawEvent} (he : e.Printable)
    {ps : List (Bytes × Bytes)} (hp : ps.Perm e.pairs) :
    runLogfmt (fun s k v => .ok (s.handleLogfmt k v)) (ps.map fun p => .pair p.1 p.2) {} none =
      .ok (e, none) := by
  rw [runLogfmt_perm _ _ hp]
  · simp only [pairs, List.foldl_cons, List.foldl_nil, handleLogfmt_ts, handleLogfmt_pid,
      handleLogfmt_tid, handleLogfmt_comm, handleLogfmt_nr, handleLogfmt_name, handleLogfmt_arg0,
      handleLogfmt_arg1, handleLogfmt_arg2, handleLogfmt_arg3, handleLogfmt_arg4,
      handleLogfmt_arg5, handleLogfmt_ret, parseUint_formatUint, parseUint0_hexText,
      parseInt_formatInt, trimQuotes_quoted he.1]
  · simp only [pairs, List.mem_cons, List.mem_singleton, List.not_mem_nil, or_false]
    rintro p (rfl | rfl | rfl | rfl | rfl | rfl | rfl | rfl | rfl | rfl | rfl | rfl | rfl) s <;>
      simp only [handleLogfmt_ts, handleLogfmt_pid, handleLogfmt_tid, handleLogfmt_comm,
        handleLogfmt_nr, handleLogfmt_name, handleLogfmt_arg0, handleLogfmt_arg1,
        handleLogfmt_arg2, handleLogfmt_arg3, handleLogfmt_arg4, handleLogfmt_arg5,
        handleLogfmt_ret, parseUint_formatUint, parseUint0_hexText, parseInt_formatInt]
  · simp only [pairs, List.mem_cons, List.mem_singleton, List.not_mem_nil, or_false]
    rintro p (rfl | rfl | rfl | rfl | rfl | rfl | rfl | rfl | rfl | rfl | rfl | rfl | rfl) q
      (rfl | rfl | rfl | rfl | rfl | rfl | rfl | rfl | rfl | rfl | rfl | rfl | rfl) s <;>
      dsimp only [handleLogfmt_ts, handleLogfmt_pid, handleLogfmt_tid, handleLogfmt_comm,
        handleLogfmt_nr, handleLogfmt_name, handleLogfmt_arg0, handleLogfmt_arg1,
        handleLogfmt_arg2, handleLogfmt_arg3, handleLogfmt_arg4, handleLogfmt_arg5,
        handleLogfmt_ret]

theorem barePairs_of_perm {ps ps' : List (Bytes × Bytes)} (h : BarePairs ps) (hp : ps'.Perm ps) :
    BarePairs ps' := by
  simp only [BarePairs, List.all_eq_true] at h ⊢
  exact fun p hp' => h p (hp.subset hp')

/-- The record the probe writes for a `proc`, `mem` or `syscall` event decodes back to that
event, with no error, whatever the order of its pairs. -/
theorem raw_records_decode_in_any_order :
    (∀ e : ProcRawEvent, e.Printable → ∀ ps, ps.Perm e.pairs →
      decodeRaw ProcRawEvent.handleLogfmt {} (logfmtRecord ps) = .ok (e, none)) ∧
    (∀ e : MemRawEvent, e.Printable → ∀ ps, ps.Perm e.pairs →
      decodeRaw MemRawEvent.handleLogfmt {} (logfmtRecord ps) = .ok (e, none)) ∧
    (∀ e : SyscallRawEvent, e.Printable → ∀ ps, ps.Perm e.pairs →
      decodeRaw SyscallRawEvent.handleLogfmt {} (logfmtRecord ps) = .ok (e, none)) := by
  refine ⟨fun e he ps hp => ?_, fun e he ps hp => ?_, fun e he ps hp => ?_⟩
  · rw [decodeRaw, logfmtUnmarshal,
      scanLogfmt_logfmtRecord (barePairs_of_perm (ProcRawEvent.barePairs he) hp)]
    exact ProcRawEvent.decode_pairs he hp
  · rw [decodeRaw, logfmtUnmarshal,
      scanLogfmt_logfmtRecord (barePairs_of_perm (MemRawEvent.barePairs he) hp)]
    exact MemRawEvent.decode_pairs he hp
  · rw [decodeRaw, logfmtUnmarshal,
      scanLogfmt_logfmtRecord (barePairs_of_perm (SyscallRawEvent.barePairs he) hp)]
    exact SyscallRawEvent.decode_pairs he hp

theorem raw_records_decode_in_any_order_example :
    decodeRaw ProcRawEvent.handleLogfmt {}
        (logfmtRecord ({ pid := 42, comm := ascii "bash" } : ProcRawEvent).pairs.reverse) =
      .ok ({ pid := 42, comm := ascii "bash" }, none) ∧
    decodeRaw MemRawEvent.handleLogfmt {}
        (logfmtRecord ({ address := 4096, size := 64 } : MemRawEvent).pairs.reverse) =
      .ok ({ address := 4096, size := 64 }, none) ∧
    decodeRaw SyscallRawEvent.handleLogfmt {}
        (logfmtRecord ({ syscallNr := 0, arg0 := 3 } : SyscallRawEvent).pairs.reverse) =
      .ok ({ syscallNr := 0, arg0 := 3 }, none) :=
  ⟨raw_records_decode_in_any_order.1 { pid := 42, comm := ascii "bash" } ⟨rfl, ⟨rfl, by decide, by decide⟩, ⟨rfl, by decide, by decide⟩⟩
      _ (List.reverse_perm _),
    raw_records_decode_in_any_order.2.1 { address := 4096, size := 64 } ⟨rfl, ⟨rfl, by decide, by decide⟩, rfl⟩ _
      (List.reverse_perm _),
    raw_records_decode_in_any_order.2.2 { syscallNr := 0, arg0 := 3 } ⟨⟨rfl, by decide, by decide⟩, rfl⟩ _
      (List.reverse_perm _)⟩

/-! ## The rows handed on -/

/-- The row a raw importer hands to `appendRow` for one document: the event a `printf` message's
data decodes to without error. -/
def rawDocRow (decode : Bytes → Except Panic (E × Option GoError)) (doc : JsonValue) : List E :=
  match readEnvelope doc with
  | .ok (typeStr, dataEl) =>
    if typeStr = ascii "printf" then
      match iterString dataEl with
      | .ok buf =>
        match decode buf with
        | .ok (ev, none) => [ev]
        | _ => []
      | .error _ => []
    else []
  | .error _ => []

theorem onDoc_rawRows (decode : Bytes → Except Panic (E × Option GoError))
    (appendRow : List E → E → Option GoError) (st : NDJSONParser × List E) (doc : JsonValue) :
    (NDJSONParser.onDoc (rawPrintfHandler decode appendRow) st doc).1.2 =
      st.2 ++ rawDocRow decode doc := by
  obtain ⟨q, rows⟩ := st
  unfold NDJSONParser.onDoc NDJSONParser.onDocLogged rawDocRow
  rcases henv : readEnvelope doc with e | ⟨typeStr, dataEl⟩ <;> simp only [henv]
  · simp
  · by_cases hp : typeStr = ascii "printf"
    · subst hp
      simp only [printf_ne_attached_probes, printf_ne_time, printf_ne_lost_events, if_true,
        if_false, rawPrintfHandler]
      repeat' split
      all_goals simp_all
    · simp only [hp, if_false]
      split_ifs <;> simp [rawPrintfHandler, hp]

/-- A raw importer calls `appendRow` once per `printf` message whose data decodes, in input
order, with the decoded event.  When every document is accepted it has done so for all the
documents of the parsed chunks, which leave out the read that met an error other than `io.EOF`,
and it returns how the stream ended; otherwise it stopped at one document, and called `appendRow`
for none after it. -/
theorem rawJSONParseThenAppend_rows (decode : Bytes → Except Panic (E × Option GoError))
    (chunks : List Bytes) (final : GoError) (appendRow : List E → E → Option GoError) :
    ((rawJSONParseThenAppend decode chunks final appendRow).1.2 =
          (chunkDocs (parsedChunks chunks final)).flatMap (rawDocRow decode) ∧
        (rawJSONParseThenAppend decode chunks final appendRow).2 =
          if allParse (parsedChunks chunks final) then (if final = .eof then .ok else .err final)
          else .err errParsingInput) ∨
      ∃ pre doc post, chunkDocs (parsedChunks chunks final) = pre ++ doc :: post ∧
        (rawJSONParseThenAppend decode chunks final appendRow).2 ≠ .ok ∧
        (rawJSONParseThenAppend decode chunks final appendRow).1.2 =
          (pre ++ [doc]).flatMap (rawDocRow decode) := by
  exact rangeStreams_log_cases Prod.snd (rawDocRow decode) (onDoc_rawRows decode appendRow)
    ({}, []) chunks final

end Bpfstream
