import Bpfstream.Reasoning.ValidStrings

/-!
# What a count command writes to stdout in the `json` format

Every print of a count command in the `json` format writes text: a block is one line holding an
object, live mode's header is `\n--- Total ---\n`, and the logger writes its lines to stdout too.
simdjson reads what was written as one document per block exactly when only blocks were written:
a log line starts with the escape of its timestamp's style or with the timestamp's first digit,
and after the header's line feed a `-` followed by a `-` starts no JSON text.  So a run's stdout is
NDJSON when it logged nothing and was not a live run that returned nil after more than one
interval.  A proc, mem or syscall run over a stream that begins with the `attached_probes` message
the tracer sends logs at once, and `main` logs the error of a `vfs` run that fails.

Without live mode, a run that returns nil prints one block besides its log lines, which reads back
as the total and the interval count; for `syscall` from input of well-formed UTF-8 the names of
the total are keys simdjson read from it, so they too read back as they are.
-/

namespace Bpfstream

/-! ## Lines of JSON and lines that are not -/

/-- simdjson reads a printed line as its document, and then goes on after the line feed. -/
theorem parseDocs_jsonLine {d : Bytes} {v : JsonValue} (hj : JsonOut d v) (hd : d.head? = some 123)
    (n : Nat) (rest : Bytes) :
    parseDocs (n + 1) (d ++ 10 :: rest) = (parseDocs n rest).map (v :: ·) := by
  obtain ⟨d', rfl⟩ : ∃ d', d = 123 :: d' := by
    cases d with
    | nil => cases hd
    | cons c d' => exact ⟨d', by cases hd; rfl⟩
  have hv := hj (2 * (123 :: d' ++ 10 :: rest).length + 2) 10 rest (by decide)
    (by simp only [List.length_append, List.length_cons]; omega)
  rw [parseDocs.eq_2, List.cons_append, skipWs_cons_of_not_ws (by decide)]
  simp only [← List.cons_append, true_or, if_true, hv, parseDocs_ws_cons (show isWs 10 = true from rfl)]

/-- A text that starts with a byte other than white space, `{` or `[` starts no document. -/
theorem parseDocs_cons_of_not_open {c : UInt8} (hw : isWs c = false) (h123 : c ≠ 123)
    (h91 : c ≠ 91) (n : Nat) (X : Bytes) : parseDocs n (c :: X) = none := by
  cases n with
  | zero => rfl
  | succ n =>
    rw [parseDocs.eq_2, skipWs_cons_of_not_ws hw]
    exact if_neg (by rintro (h | h) <;> contradiction)

/-- The text of `fmt.Println("\n--- Total ---")` starts no JSON text: after the line feed, the
first `-` is followed by no digit. -/
theorem parseDocs_totalHeader (n : Nat) (X : Bytes) :
    parseDocs n (ascii "\n--- Total ---\n" ++ X) = none := by
  cases n with
  | zero => rfl
  | succ n =>
    rw [show ascii "\n--- Total ---\n" ++ X = 10 :: 45 :: 45 :: (ascii "- Total ---\n" ++ X)
      from rfl, parseDocs_ws_cons (show isWs 10 = true from rfl)]
    exact parseDocs_cons_of_not_open (show isWs 45 = false from rfl) (by decide) (by decide) _ _

/-- A log line starts no JSON text. -/
theorem parseDocs_ptermText (env : LogEnv) (i : Nat) (ev : LogEvent) (n : Nat) (X : Bytes) :
    parseDocs n (ptermText env i ev ++ X) = none := by
  obtain ⟨c, rest, hc, h⟩ := ptermText_head env i ev
  rw [hc, List.cons_append]
  rcases h with rfl | rfl | hd
  · exact parseDocs_cons_of_not_open (show isWs 27 = false from rfl) (by decide) (by decide) _ _
  · exact parseDocs_cons_of_not_open (show isWs 45 = false from rfl) (by decide) (by decide) _ _
  · exact parseDocs_cons_of_not_open (isWs_of_isDigit hd)
      (fun h => absurd (h ▸ hd) (by decide)) (fun h => absurd (h ▸ hd) (by decide)) _ _

/-! ## The output of a run -/

section Output

variable {C : Type} {print : C → String → Nat → PrintOut} {doc : C → Nat → JsonValue}

/-- Whether an entry of the output is a printed block. -/
def CountPrint.isBlock : CountPrint C → Bool
  | .block .. => true
  | _ => false

/-- The documents of the blocks of an output, in order. -/
def blockDocs (doc : C → Nat → JsonValue) (out : List (CountPrint C)) : List JsonValue :=
  out.filterMap fun
    | .block e k => some (doc e k)
    | _ => none

/-- What simdjson reads from stdout after the entries `out`, followed by the text `X`: their
documents and then those of `X` when they are all blocks, and nothing otherwise. -/
theorem parseDocs_stdoutPrints (hline : ∀ e k, JsonLine (print e "json" k) (doc e k))
    (env : LogEnv) : ∀ (out : List (CountPrint C)) (i : Nat),
    ∃ t, textOf (stdoutPrints print "json" env i out) = some t ∧ out.length ≤ t.length ∧
      ∀ n X, parseDocs (n + out.length) (t ++ X) =
        if out.all CountPrint.isBlock then (parseDocs n X).map (blockDocs doc out ++ ·) else none
  | [], _ => ⟨[], rfl, le_refl 0, fun n X => by simp [blockDocs]⟩
  | p :: ps, i => by
    obtain ⟨t, ht, hl, hp⟩ := parseDocs_stdoutPrints hline env ps (if p.isLog then i + 1 else i)
    cases p with
    | block e k =>
      obtain ⟨d, hd, hj, hh⟩ := hline e k
      refine ⟨d ++ 10 :: t, by simp [stdoutPrints, CountPrint.output, hd, textOf, ht], ?_,
        fun n X => ?_⟩
      · simp only [List.length_cons, List.length_append]
        omega
      · rw [List.length_cons, ← Nat.add_assoc, List.append_assoc, List.cons_append,
          parseDocs_jsonLine hj hh, hp]
        by_cases hall : ps.all CountPrint.isBlock
        · simp [hall, CountPrint.isBlock, blockDocs, Option.map_map, Function.comp_def]
        · simp [hall, CountPrint.isBlock]
    | totalHeader =>
      refine ⟨ascii "\n--- Total ---\n" ++ t, by simp [stdoutPrints, CountPrint.output, textOf, ht],
        ?_, fun n X => ?_⟩
      · simp only [List.length_cons, List.length_append]
        have : (ascii "\n--- Total ---\n").length = 15 := rfl
        omega
      · rw [List.append_assoc, parseDocs_totalHeader]
        simp [CountPrint.isBlock]
    | log ev =>
      refine ⟨ptermText env i ev ++ t, by simp [stdoutPrints, CountPrint.output, textOf, ht], ?_,
        fun n X => ?_⟩
      · obtain ⟨c, rest, hc, -⟩ := ptermText_head env i ev
        simp only [List.length_cons, List.length_append, hc]
        omega
      · rw [List.append_assoc, parseDocs_ptermText]
        simp [CountPrint.isBlock]

/-- simdjson reads a run's stdout as the documents of its blocks when it wrote nothing but blocks,
and reads nothing from it otherwise. -/
theorem parseNdjson_stdoutPrints (hline : ∀ e k, JsonLine (print e "json" k) (doc e k))
    (env : LogEnv) (out : List (CountPrint C)) :
    ∃ t, textOf (stdoutPrints print "json" env 0 out) = some t ∧
      parseNdjson t = if out.all CountPrint.isBlock then some (blockDocs doc out) else none := by
  obtain ⟨t, ht, hl, hp⟩ := parseDocs_stdoutPrints hline env out 0
  refine ⟨t, ht, ?_⟩
  have hp' := hp (t.length + 1 - out.length) []
  rw [Nat.sub_add_cancel (by omega), List.append_nil] at hp'
  rw [parseNdjson, hp', Nat.sub_add_comm hl, parseDocs]
  split <;> simp [skipWs]

/-- An output is all blocks when it holds no log line and no header. -/
theorem all_isBlock_iff (out : List (CountPrint C)) :
    out.all CountPrint.isBlock ↔ logsOf out = [] ∧ .totalHeader ∉ printsOf out := by
  induction out with
  | nil => simp [logsOf, printsOf]
  | cons p ps ih =>
    cases p <;> simp [ih, logsOf, printsOf, CountPrint.isBlock, CountPrint.isLog]

theorem mem_numberedBlocks {b : CountPrint C} :
    ∀ {k : Nat} {snaps : List C}, b ∈ numberedBlocks k snaps → ∃ e j, b = .block e j
  | _, [], h => absurd h (List.not_mem_nil _)
  | k, e :: es, h => by
    rcases List.mem_cons.mp h with rfl | h
    · exact ⟨e, k, rfl⟩
    · exact mem_numberedBlocks h

theorem totalHeader_not_mem_liveBlocks (live : Bool) (snaps : List C) :
    .totalHeader ∉ liveBlocks live snaps := by
  intro h
  cases live with
  | false => cases h
  | true => obtain ⟨e, j, he⟩ := mem_numberedBlocks h; cases he

/-- What a run of an `Action` in the `json` format wrote to stdout, `res.1`, for how it ended,
`res.2`: text, which simdjson reads as the documents of the printed blocks, in order, when the run
logged nothing and is not a live run that returned nil after more than one interval; and from
which it reads nothing otherwise. -/
def JsonStdout (print : C → String → Nat → PrintOut) (doc : C → Nat → JsonValue) (env : LogEnv)
    (fill : C → JsonValue → Except GoError C) (zero : C) (live : Bool) (chunks : List Bytes)
    (res : List (CountPrint C) × Ret) : Prop :=
  ∃ t, textOf (stdoutPrints print "json" env 0 res.1) = some t ∧
    parseNdjson t =
      if logsOf res.1 = [] ∧ ¬ (live ∧ res.2 = .ok ∧ 1 < (snapshots fill zero (chunkDocs chunks)).length)
      then some (blockDocs doc res.1) else none

variable {fill : C → JsonValue → Except GoError C} {zero : C} {add : C → C → C}

/-- A run printed the header exactly when it was live and returned nil after more than one
interval. -/
theorem PrintsRun.totalHeader_mem_iff {live : Bool} {chunks : List Bytes} {final : GoError}
    {res : List (CountPrint C) × Ret} (hp : PrintsRun fill zero add live chunks final res) :
    .totalHeader ∈ printsOf res.1 ↔
      live ∧ res.2 = .ok ∧ 1 < (snapshots fill zero (chunkDocs chunks)).length := by
  by_cases hok : res.2 = .ok
  · rw [hp.1 hok, List.mem_append, printSummary]
    have := totalHeader_not_mem_liveBlocks live (snapshots fill zero (chunkDocs chunks))
    cases live <;> split_ifs <;> simp_all
  · have hnot : .totalHeader ∉ printsOf res.1 := by
      rcases hp.2 hok with ⟨_, _, _, _, hout⟩ | ⟨hout, _⟩ <;> rw [hout] <;>
        exact totalHeader_not_mem_liveBlocks _ _
    simp [hnot, hok]

theorem PrintsRun.jsonStdout (hline : ∀ e k, JsonLine (print e "json" k) (doc e k)) (env : LogEnv)
    {live : Bool} {chunks : List Bytes} {final : GoError} {res : List (CountPrint C) × Ret}
    (hp : PrintsRun fill zero add live chunks final res) :
    JsonStdout print doc env fill zero live chunks res := by
  obtain ⟨t, ht, hparse⟩ := parseNdjson_stdoutPrints hline env res.1
  refine ⟨t, ht, ?_⟩
  rw [hparse]
  exact if_congr ((all_isBlock_iff res.1).trans (and_congr_right' (not_congr hp.totalHeader_mem_iff)))
    rfl rfl

/-- Without live mode a run that returned nil printed one block besides its log lines: its total
and interval count. -/
theorem PrintsRun.summary {chunks : List Bytes} {final : GoError} {res : List (CountPrint C) × Ret}
    (hp : PrintsRun fill zero add false chunks final res) (hok : res.2 = .ok) :
    printsOf res.1 = [.block ((snapshots fill zero (chunkDocs chunks)).foldl add zero)
      (snapshots fill zero (chunkDocs chunks)).length] :=
  hp.1 hok

end Output

/-! ## The count commands -/

variable {n : Nat}

/-- What a consumer reading stdout after a run without live mode that returned nil gets from its
prints: one block, which reads back as the sum of the run's snapshots and their number. -/
def SummaryReadsBack (fields : List (Bytes × Fin n)) (fill : Counts n → JsonValue → Except GoError (Counts n))
    (chunks : List Bytes) (out : List (CountPrint (Counts n))) : Prop :=
  printsOf out = [.block ((snapshots fill Counts.zero (chunkDocs chunks)).foldl Counts.add Counts.zero)
      (snapshots fill Counts.zero (chunkDocs chunks)).length] ∧
    BlockReadsBack fields
      (printCounts fields ((snapshots fill Counts.zero (chunkDocs chunks)).foldl Counts.add Counts.zero)
        "json" (snapshots fill Counts.zero (chunkDocs chunks)).length)
      ((snapshots fill Counts.zero (chunkDocs chunks)).foldl Counts.add Counts.zero)
      (snapshots fill Counts.zero (chunkDocs chunks)).length

theorem PrintsRun.summaryReadsBack {fields : List (Bytes × Fin n)}
    (hf : ∀ f ∈ fields, validUtf8 f.1 = true)
    (hnd : (fields.map Prod.fst ++ [ascii "intervals", ascii "total"]).Nodup)
    {fill : Counts n → JsonValue → Except GoError (Counts n)} {chunks : List Bytes} {final : GoError}
    {res : List (CountPrint (Counts n)) × Ret}
    (hp : PrintsRun fill Counts.zero Counts.add false chunks final res) (hok : res.2 = .ok) :
    SummaryReadsBack fields fill chunks res.1 :=
  ⟨hp.summary hok, printCounts_readsBack fields hf hnd _ _⟩

/-- Without live mode, a count command in the `json` format that returns nil has printed, besides
its log lines, one line, which reads back as the sum of the snapshots of the run and their number:
field by field for `vfs`, `proc` and `mem`, and, from input of well-formed UTF-8, name by name for
`syscall`, whose names are keys of the documents simdjson read. -/
theorem json_summary_reads_back (chunks : List Bytes) (final : GoError) (sort : SliceSort Bytes) :
    ((procCountAction "json" false chunks final).2 = .ok →
      SummaryReadsBack ProcCountEvent.fields ProcCountEvent.fill chunks
        (procCountAction "json" false chunks final).1) ∧
    ((memCountAction "json" false chunks final).2 = .ok →
      SummaryReadsBack MemCountEvent.fields MemCountEvent.fill chunks
        (memCountAction "json" false chunks final).1) ∧
    ((vfsCountAction "json" false chunks final).2 = .ok →
      SummaryReadsBack Event.fields Event.fill chunks (vfsCountAction "json" false chunks final).1) ∧
    ((syscallCountAction "json" false chunks final).2 = .ok → (∀ c ∈ chunks, validUtf8 c = true) →
      printsOf (syscallCountAction "json" false chunks final).1 =
          [.block ((snapshots SyscallCountEvent.fill {} (chunkDocs chunks)).foldl SyscallCountEvent.add {})
            (snapshots SyscallCountEvent.fill {} (chunkDocs chunks)).length] ∧
        SyscallBlockReadsBack
          (printSyscallEvent sort
            ((snapshots SyscallCountEvent.fill {} (chunkDocs chunks)).foldl SyscallCountEvent.add {})
            "json" (snapshots SyscallCountEvent.fill {} (chunkDocs chunks)).length)
          ((snapshots SyscallCountEvent.fill {} (chunkDocs chunks)).foldl SyscallCountEvent.add {})
          (snapshots SyscallCountEvent.fill {} (chunkDocs chunks)).length) :=
  ⟨fun hok => (countAction_prints _ _ _ _ (by decide) false chunks final).1.summaryReadsBack
      (by decide) (by decide) hok,
    fun hok => (countAction_prints _ _ _ _ (by decide) false chunks final).1.summaryReadsBack
      (by decide) (by decide) hok,
    fun hok => (vfsCountAction_prints (by decide) false chunks final).1.summaryReadsBack
      (by decide) (by decide) hok,
    fun hok hu => ⟨(countAction_prints _ _ _ _ (by decide) false chunks final).1.summary hok,
      printSyscallEvent_readsBack sort _ _ (validKeys_total hu)⟩⟩

theorem json_summary_reads_back_exec :
    ((procCountAction "json" false
        [ascii "\x7b\"type\": \"map\", \"data\": \x7b\"@\": \x7b\"exec\": 2\x7d\x7d\x7d\n"] .eof).2 = .ok ∧
      (∀ c ∈ [ascii "\x7b\"type\": \"map\", \"data\": \x7b\"@\": \x7b\"exec\": 2\x7d\x7d\x7d\n"],
        validUtf8 c = true)) ∧
    SummaryReadsBack ProcCountEvent.fields ProcCountEvent.fill
      [ascii "\x7b\"type\": \"map\", \"data\": \x7b\"@\": \x7b\"exec\": 2\x7d\x7d\x7d\n"]
      (procCountAction "json" false
        [ascii "\x7b\"type\": \"map\", \"data\": \x7b\"@\": \x7b\"exec\": 2\x7d\x7d\x7d\n"] .eof).1 :=
  have h : (procCountAction "json" false
        [ascii "\x7b\"type\": \"map\", \"data\": \x7b\"@\": \x7b\"exec\": 2\x7d\x7d\x7d\n"] .eof).2 = .ok ∧
      (∀ c ∈ [ascii "\x7b\"type\": \"map\", \"data\": \x7b\"@\": \x7b\"exec\": 2\x7d\x7d\x7d\n"],
        validUtf8 c = true) := by
    decide
  ⟨h, (json_summary_reads_back _ .eof (insertionSortSlice Bytes)).1 h.1⟩

/-- `main`'s stdout after `vfs count`: what the `Action` printed, its log lines, and the error
line of a failed run. -/
theorem vfsCountMain_prints {format : String} (hf : validateFormat format = none) (live : Bool)
    (chunks : List Bytes) (final : GoError) :
    PrintsRun Event.fill Counts.zero Counts.add live chunks final
      (vfsCountMain format live chunks final, (vfsCountAction format live chunks final).2) := by
  have hp := (vfsCountAction_prints hf live chunks final).1
  have hprints : printsOf (vfsCountMain format live chunks final) =
      printsOf (vfsCountAction format live chunks final).1 := by
    unfold vfsCountMain
    split <;> simp [printsOf, CountPrint.isLog]
  exact ⟨fun h => hprints ▸ hp.1 h, fun h => hprints ▸ hp.2 h⟩

section FirstMessage

variable {C : Type}

theorem logsOf_ne_nil_of_isPrefix {evs : List LogEvent} (hne : evs ≠ []) {out : List (CountPrint C)}
    (h : evs.map .log <+: out) : logsOf out ≠ [] := by
  obtain ⟨rest, rfl⟩ := h
  cases evs with
  | nil => exact absurd rfl hne
  | cons ev evs => simp [logsOf]

theorem finishAction_fst_isPrefix (live : Bool) (out : List (CountPrint C)) (st : C × Nat) (r : Ret) :
    out <+: (finishAction live out st r).1 := by
  cases r
  · exact List.prefix_append _ _
  · exact List.prefix_rfl
  · exact List.prefix_rfl

/-- A count command's `Action` whose first document is an `attached_probes` message with a
positive count logs `Probes attached` to stdout before anything else, and in the `json` format
simdjson then reads nothing from its stdout. -/
theorem countAction_attached_probes {print : C → String → Nat → PrintOut}
    {docOf : C → Nat → JsonValue} (hline : ∀ e k, JsonLine (print e "json" k) (docOf e k))
    (fill : C → JsonValue → Except GoError C) (logs : CountLogs) (zero : C) (add : C → C → C)
    (env : LogEnv) (live : Bool) {chunks : List Bytes} {final : GoError} {doc : JsonValue}
    {rest : List JsonValue} {dataEl : JsonValue}
    (hdocs : chunkDocs (parsedChunks chunks final) = doc :: rest)
    (henv : readEnvelope doc = .ok (ascii "attached_probes", dataEl))
    (hok : NDJSONParser.handleAttachedProbes dataEl = .ok) :
    ∃ t, textOf (stdoutPrints print "json" env 0
      (countAction fill logs zero add "json" live chunks final).1) = some t ∧ parseNdjson t = none := by
  have hm : mapData? doc = none := by simp [mapData?, henv, map_ne_attached_probes.symm]
  have hstep : (parserStep {} doc).2 = .ok := by
    simp [parserStep, NDJSONParser.onDoc, NDJSONParser.onDocLogged, henv, hok]
  have hlog : parseStreamOtherLog logs {} doc = NDJSONParser.attachedProbesLog dataEl := by
    simp [parseStreamOtherLog, henv]
  have hfirst : (NDJSONParser.attachedProbesLog dataEl).map .log <+:
      (countAction fill logs zero add "json" live chunks final).1 := by
    have h := (onDoc_liveStep fill logs zero add live).first_logs hdocs hm {} hstep
    rw [hlog] at h
    unfold countAction
    rw [show validateFormat "json" = none by decide]
    revert h
    rcases rangeStreams _ _ _ with ⟨⟨p, st, out⟩, r⟩
    exact fun h => h.trans (finishAction_fst_isPrefix live out st r)
  have hne := logsOf_ne_nil_of_isPrefix (NDJSONParser.attachedProbesLog_ne_nil hok) hfirst
  obtain ⟨t, ht, hp⟩ :=
    (countAction_prints fill logs zero add (show validateFormat "json" = none by decide) live chunks
      final).1.jsonStdout hline env
  exact ⟨t, ht, by rw [hp, if_neg fun h => hne h.1]⟩

end FirstMessage

end Bpfstream
