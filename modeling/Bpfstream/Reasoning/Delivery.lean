import Bpfstream.Reasoning.Dispatch

/-!
# What reaches the callbacks, and how a run ends

Every reader is a loop with an early `return` over the lines or the documents of the input, and
every callback call adds to a log kept in the loop's state: the rows handed to `appendRow`, the
payloads handed to a `LineHandler`.  `loop_log_cases` then says, for each reader, that the log
holds one entry per `printf` message, in input order, for every message when the run ends
normally and otherwise up to and including the message it stopped at.

How the run ends is where the readers differ.  `ParseLines` returns `scanner.Err()` after its
loop and `jsonParseThenAppend` returns the error the stream ends with, so both return nil only
when the whole input was read.  The structured path never sees the data of a read that fails:
`ParseNDStream` drops it, so its callbacks see the documents of `parsedChunks`.  `simpleParseThenAppend` returns nil after its loop whatever the
scanner met: a reader that fails, or a line longer than the scanner's buffer, ends the scan
early and the call still returns nil.
-/

namespace Bpfstream

/-! ## How the scanner ends -/

/-- The scanner ends with `bufio.ErrTooLong` or with the reader's own error (nil for `io.EOF`). -/
theorem scanLinesFrom_snd (final : GoError) (cur data : Bytes) :
    (scanLinesFrom final cur data).2 = some errTooLong ∨
      (scanLinesFrom final cur data).2 = scanErr final := by
  induction data generalizing cur with
  | nil => simp only [scanLinesFrom]; split_ifs <;> simp
  | cons b rest ih => simp only [scanLinesFrom]; split_ifs <;> simp [ih]

/-- A scan that reports no error read a reader that ended with `io.EOF`. -/
theorem scanLines_snd_eq_none {r : Input} (h : (scanLines r).2 = none) : r.final = .eof := by
  rcases scanLinesFrom_snd r.final [] r.data with h' | h' <;> rw [scanLines, h'] at h
  · cases h
  · simpa [scanErr] using h

/-! ## `simpleParseThenAppend` -/

/-- The row `simpleParseThenAppend` hands to `appendRow` for one line: the decoded event of a
`printf` line whose payload decodes without error. -/
def printfLineRow (line : Bytes) : List VfsEvent :=
  match classifyLine line with
  | .ok (.printf data) =>
    match decodeVfsEvent data with
    | .ok (ev, none) => [ev]
    | _ => []
  | _ => []

theorem simpleParseThenAppendBody_rows (appendRow : AppendRowFn) (rows : List VfsEvent)
    (line : Bytes) :
    (simpleParseThenAppendBody appendRow rows line).1 = rows ++ printfLineRow line := by
  unfold simpleParseThenAppendBody printfLineRow appendDecoded
  repeat' split
  all_goals simp_all

/-- `simpleParseThenAppend` calls `appendRow` once per `printf` line whose payload decodes, in
input order, with the decoded event: for every line of the scan when it returns nil, and
otherwise for the lines up to and including the one it stopped at, and for none after it. -/
theorem simpleParseThenAppend_rows (r : Input) (appendRow : AppendRowFn) :
    ((simpleParseThenAppend r appendRow).2 = .ok ∧
        (simpleParseThenAppend r appendRow).1 = (scanLines r).1.flatMap printfLineRow) ∨
      ∃ pre line post, (scanLines r).1 = pre ++ line :: post ∧
        (simpleParseThenAppend r appendRow).2 ≠ .ok ∧
        (simpleParseThenAppend r appendRow).1 = (pre ++ [line]).flatMap printfLineRow := by
  simpa using loop_log_cases _ id printfLineRow (simpleParseThenAppendBody_rows appendRow) []
    (scanLines r).1

set_option maxRecDepth 20000 in
/-- A reader that fails after one `printf` line: `simpleParseThenAppend` hands the row on and
returns nil, while `ParseLines`, on the same input, returns the reader's error. -/
theorem simpleParseThenAppend_drops_read_error :
    simpleParseThenAppend
        ⟨ascii "\x7b\"type\": \"printf\", \"data\": \"fn=vfs_read\"\x7d\n", .read "connection reset by peer"⟩
        (fun _ _ => none) = ([{ probe := ascii "vfs_read" }], .ok) ∧
      (SimpleLineParser.parseLines {}
        ⟨ascii "\x7b\"type\": \"printf\", \"data\": \"fn=vfs_read\"\x7d\n", .read "connection reset by peer"⟩
        (fun _ _ => none)).2 = .err (.read "connection reset by peer") := by
  decide

/-! ## `SimpleLineParser.ParseLines` -/

/-- The payload `ParseLines` hands to its handler for one line: the data of a `printf` line. -/
def printfLinePayload (line : Bytes) : List Bytes :=
  match classifyLine line with
  | .ok (.printf data) => [data]
  | _ => []

theorem parseLinesBody_seen (handler : LineHandler) (st : SimpleLineParser × List Bytes)
    (line : Bytes) :
    (SimpleLineParser.parseLinesBody handler st line).1.2 = st.2 ++ printfLinePayload line := by
  obtain ⟨p, seen⟩ := st
  unfold SimpleLineParser.parseLinesBody printfLinePayload
  repeat' split
  all_goals simp_all

/-- `ParseLines` calls its handler once per `printf` line, in input order, with the line's
payload: for every line of the scan when its loop runs to the end, and then it returns
`scanner.Err()`; otherwise for the lines up to and including the one it stopped at.  So it
returns nil only when the scan read the whole input and the reader ended with `io.EOF`. -/
theorem parseLines_payloads (p : SimpleLineParser) (r : Input) (handler : LineHandler) :
    ((SimpleLineParser.parseLines p r handler).1.2 = (scanLines r).1.flatMap printfLinePayload ∧
        (SimpleLineParser.parseLines p r handler).2 =
          (match (scanLines r).2 with | none => .ok | some e => .err e)) ∨
      ∃ pre line post, (scanLines r).1 = pre ++ line :: post ∧
        (SimpleLineParser.parseLines p r handler).2 ≠ .ok ∧
        (SimpleLineParser.parseLines p r handler).1.2 = (pre ++ [line]).flatMap printfLinePayload := by
  have hlog := loop_log_cases _ Prod.snd printfLinePayload (parseLinesBody_seen handler) (p, [])
    (scanLines r).1
  rw [SimpleLineParser.parseLines]
  rcases hrun : loop (SimpleLineParser.parseLinesBody handler) (p, []) (scanLines r).1
    with ⟨st, res⟩
  rw [hrun] at hlog
  rcases hlog with ⟨rfl, hseen⟩ | ⟨pre, line, post, hsplit, hne, hseen⟩
  · exact .inl ⟨by simpa using hseen, rfl⟩
  · refine .inr ⟨pre, line, post, hsplit, ?_⟩
    cases res <;> simp_all

theorem parseLines_eq_ok {p : SimpleLineParser} {r : Input} {handler : LineHandler}
    (h : (SimpleLineParser.parseLines p r handler).2 = .ok) :
    r.final = .eof ∧ (scanLines r).2 = none ∧
      (SimpleLineParser.parseLines p r handler).1.2 = (scanLines r).1.flatMap printfLinePayload := by
  rcases parseLines_payloads p r handler with ⟨hseen, hres⟩ | ⟨_, _, _, _, hne, _⟩
  · have hnone : (scanLines r).2 = none := by
      rw [h] at hres
      split at hres
      · assumption
      · cases hres
    exact ⟨scanLines_snd_eq_none hnone, hnone, hseen⟩
  · exact absurd h hne

set_option maxRecDepth 20000 in
theorem parseLines_eq_ok_printf :
    (⟨ascii "\x7b\"type\": \"printf\", \"data\": \"fn=vfs_read\"\x7d\n", .eof⟩ : Input).final = .eof ∧
      (scanLines ⟨ascii "\x7b\"type\": \"printf\", \"data\": \"fn=vfs_read\"\x7d\n", .eof⟩).2 = none ∧
      (SimpleLineParser.parseLines {} ⟨ascii "\x7b\"type\": \"printf\", \"data\": \"fn=vfs_read\"\x7d\n", .eof⟩
          (fun _ _ => none)).1.2 =
        (scanLines ⟨ascii "\x7b\"type\": \"printf\", \"data\": \"fn=vfs_read\"\x7d\n", .eof⟩).1.flatMap
          printfLinePayload :=
  parseLines_eq_ok (by decide)

/-! ## The structured path -/

/-- The row `jsonParseThenAppend` hands to `appendRow` for one document: the decoded event of a
`printf` message whose data is a string that decodes without error. -/
def printfDocRow (doc : JsonValue) : List VfsEvent :=
  match readEnvelope doc with
  | .ok (typeStr, dataEl) =>
    if typeStr = ascii "printf" then
      match iterString dataEl with
      | .ok buf =>
        match decodeVfsEvent buf with
        | .ok (ev, none) => [ev]
        | _ => []
      | .error _ => []
    else []
  | .error _ => []

theorem jsonParseThenAppendOnDoc_rows (appendRow : AppendRowFn) (st : GoTime × List VfsEvent)
    (doc : JsonValue) :
    (jsonParseThenAppendOnDoc appendRow st doc).1.2 = st.2 ++ printfDocRow doc := by
  obtain ⟨t, rows⟩ := st
  unfold jsonParseThenAppendOnDoc printfDocRow
  rcases henv : readEnvelope doc with e | ⟨typeStr, dataEl⟩ <;> simp only [henv]
  · simp
  · by_cases hp : typeStr = ascii "printf"
    · subst hp
      simp only [printf_ne_attached_probes, printf_ne_time, printf_ne_lost_events, if_true,
        if_false, jsonPrintf, appendDecoded]
      repeat' split
      all_goals simp_all
    · simp only [hp, if_false]
      split_ifs <;> simp

/-- `jsonParseThenAppend` calls `appendRow` once per `printf` message whose data decodes, in
input order, with the decoded event.  When every document is accepted it has done so for all the
documents of the parsed chunks (all the reads at `io.EOF`, all but the failed one at another
error, up to the first read that does not parse), and it returns nil at `io.EOF`, the reader's
error at another end, or the parse error; otherwise it stopped at one document, and called
`appendRow` for none after it. -/
theorem jsonParseThenAppend_rows (chunks : List Bytes) (final : GoError)
    (appendRow : AppendRowFn) :
    ((jsonParseThenAppend chunks final appendRow).1.2 =
          (chunkDocs (parsedChunks chunks final)).flatMap printfDocRow ∧
        (jsonParseThenAppend chunks final appendRow).2 =
          if allParse (parsedChunks chunks final) then (if final = .eof then .ok else .err final)
          else .err errParsingInput) ∨
      ∃ pre doc post, chunkDocs (parsedChunks chunks final) = pre ++ doc :: post ∧
        (jsonParseThenAppend chunks final appendRow).2 ≠ .ok ∧
        (jsonParseThenAppend chunks final appendRow).1.2 = (pre ++ [doc]).flatMap printfDocRow := by
  exact rangeStreams_log_cases Prod.snd printfDocRow (jsonParseThenAppendOnDoc_rows appendRow)
    (GoTime.zero, []) chunks final

/-- A handler that also records each call made to it: the type and the data it was given. -/
def MessageHandler.logged (handler : MessageHandler σ) :
    MessageHandler (σ × List (Bytes × JsonValue)) :=
  fun st typeStr dataEl =>
    (((handler st.1 typeStr dataEl).1, st.2 ++ [(typeStr, dataEl)]), (handler st.1 typeStr dataEl).2)

/-- The call `ParseStream` makes to its handler for one document: the type and the data of a
message whose type is none of the three it handles itself. -/
def handledMessage (doc : JsonValue) : List (Bytes × JsonValue) :=
  match readEnvelope doc with
  | .ok (typeStr, dataEl) =>
    if typeStr = ascii "attached_probes" ∨ typeStr = ascii "time" ∨ typeStr = ascii "lost_events"
    then [] else [(typeStr, dataEl)]
  | .error _ => []

theorem onDoc_logged (handler : MessageHandler σ)
    (st : NDJSONParser × σ × List (Bytes × JsonValue)) (doc : JsonValue) :
    NDJSONParser.onDoc handler (st.1, st.2.1) doc =
      (((NDJSONParser.onDoc handler.logged st doc).1.1,
        (NDJSONParser.onDoc handler.logged st doc).1.2.1),
        (NDJSONParser.onDoc handler.logged st doc).2) := by
  obtain ⟨p, s, calls⟩ := st
  simp only [NDJSONParser.onDoc, NDJSONParser.onDocLogged]
  rcases readEnvelope doc with e | ⟨typeStr, dataEl⟩
  · rfl
  · dsimp only
    split_ifs <;> rfl

theorem onDoc_logged_calls (handler : MessageHandler σ)
    (st : NDJSONParser × σ × List (Bytes × JsonValue)) (doc : JsonValue) :
    (NDJSONParser.onDoc handler.logged st doc).1.2.2 = st.2.2 ++ handledMessage doc := by
  obtain ⟨p, s, calls⟩ := st
  simp only [NDJSONParser.onDoc, NDJSONParser.onDocLogged, handledMessage]
  rcases readEnvelope doc with e | ⟨typeStr, dataEl⟩
  · simp
  · dsimp only
    split_ifs <;> simp_all [MessageHandler.logged]

/-- Recording the calls changes nothing else `ParseStream` does. -/
theorem parseStream_logged (p : NDJSONParser) (chunks : List Bytes) (final : GoError)
    (handler : MessageHandler σ) (s : σ) (calls : List (Bytes × JsonValue)) :
    p.parseStream chunks final handler s =
      (((p.parseStream chunks final handler.logged (s, calls)).1.1,
        (p.parseStream chunks final handler.logged (s, calls)).1.2.1),
        (p.parseStream chunks final handler.logged (s, calls)).2) :=
  rangeStreams_map (fun st : NDJSONParser × σ × List (Bytes × JsonValue) => (st.1, st.2.1))
    (fun st doc _ => onDoc_logged handler st doc) (p, s, calls)

/-- `ParseStream` calls its handler once per message of a type it does not handle itself, in
input order, with the message's type and data.  When every document is accepted it has done so
for all the documents of the parsed chunks, which leave out the read that met an error other
than `io.EOF`, and it returns how the stream ended; otherwise it stopped at one document, and made
no call after it. -/
theorem parseStream_calls (p : NDJSONParser) (chunks : List Bytes) (final : GoError)
    (handler : MessageHandler σ) (s : σ) :
    ((p.parseStream chunks final handler.logged (s, [])).1.2.2 =
          (chunkDocs (parsedChunks chunks final)).flatMap handledMessage ∧
        (p.parseStream chunks final handler.logged (s, [])).2 =
          if allParse (parsedChunks chunks final) then (if final = .eof then .ok else .err final)
          else .err errParsingInput) ∨
      ∃ pre doc post, chunkDocs (parsedChunks chunks final) = pre ++ doc :: post ∧
        (p.parseStream chunks final handler.logged (s, [])).2 ≠ .ok ∧
        (p.parseStream chunks final handler.logged (s, [])).1.2.2 =
          (pre ++ [doc]).flatMap handledMessage := by
  exact rangeStreams_log_cases (fun st => st.2.2) handledMessage (onDoc_logged_calls handler)
    (p, s, []) chunks final

end Bpfstream
