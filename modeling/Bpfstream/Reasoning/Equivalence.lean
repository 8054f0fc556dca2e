import Bpfstream.Reasoning.WireFormat

/-!
# The fast path against the JSON path

`pterm_writer.go` asks that `SimpleLineParser.ParseLines` and `NDJSONParser.ParseStream` behave
the same on every input in the documented wire format, and `cmd_vfs_raw.go` keeps two
implementations of the raw pipeline, `simpleParseThenAppend` and `jsonParseThenAppend`.  Both
pairs are compared here on the wire text of valid messages (`WireMsg.Valid`), the JSON side
reading it in any cut into chunks of whole lines: one lemma per message says that the two loop
bodies hand on the same thing and end the same way, and `loop_sim` lifts it to whole runs.

Outside the valid messages the paths part: a negative `lost_events` count is a `ParseUint` error
on the fast path and an accepted `int64` on the JSON path.
-/

namespace Bpfstream

/-! ## One message on either path -/

theorem handleAttachedProbes_of_iterInt {x : JsonValue} {w : Word} (hx : iterInt x = .ok w) :
    NDJSONParser.handleAttachedProbes (.obj [(ascii "probes", x)]) =
      if w.toInt ≤ 0 then .err errProbesNotAttached else .ok := by
  simp only [NDJSONParser.handleAttachedProbes, findElement_obj_cons, hx]

theorem handleLostEvents_of_iterInt {x : JsonValue} {w : Word} (hx : iterInt x = .ok w) :
    NDJSONParser.handleLostEvents (.obj [(ascii "events", x)]) = .ok := by
  simp only [NDJSONParser.handleLostEvents, findElement_obj_cons, hx]

/-- A count below `2^63` is rejected by both checks of `attached_probes` exactly when it is zero. -/
theorem checkProbesText_sameKind {n : Nat} (hn : n < 2 ^ 63) :
    (checkProbesText (formatUint n)).sameKind
      (NDJSONParser.handleAttachedProbes (.obj [(ascii "probes", .int n)])) = true := by
  have hint : (BitVec.ofNat 64 n).toInt = n := by
    rw [BitVec.toInt_eq_toNat_cond, BitVec.toNat_ofNat, Nat.mod_eq_of_lt (by omega), if_pos (by omega)]
  have hzero : BitVec.ofNat 64 n = 0 ↔ n = 0 := by
    rw [BitVec.toNat_eq, BitVec.toNat_ofNat, Nat.mod_eq_of_lt (by omega)]
    rfl
  rw [checkProbesText, parseUint_formatUint_of_lt (by omega),
    handleAttachedProbes_of_iterInt (iterInt_int hn), hint]
  dsimp only
  by_cases h0 : n = 0
  · rw [if_pos (hzero.2 h0), if_pos (by omega)]
    rfl
  · rw [if_neg (mt hzero.1 h0), if_neg (by omega)]
    rfl

theorem checkLostEventsText_formatUint {n : Nat} (hn : n < 2 ^ 64) :
    checkLostEventsText (formatUint n) = .ok := by
  rw [checkLostEventsText, parseUint_formatUint_of_lt hn]

theorem handleTime_clockText {h m s : Nat} (hh : h < 24) (hm : m < 60) (hs : s < 60) (t : GoTime) :
    (NDJSONParser.handleTime t (.str (clockText h m s ++ [10]))).2 = .ok := by
  unfold NDJSONParser.handleTime
  split
  · rfl
  · simp only [iterString, trimSpace_clockText (show h < 100 by omega), parseTimeOnly_clockText hh hm hs]

theorem ne_of_not_mem_rawTypes {t : Bytes} (h : t ∉ rawTypes) :
    t ≠ ascii "attached_probes" ∧ t ≠ ascii "time" ∧ t ≠ ascii "lost_events" ∧ t ≠ ascii "printf" := by
  simpa [rawTypes] using h

/-- The two paths hand a decoded record on in the same way; only the context put around an error
of `appendRow` differs. -/
theorem appendDecoded_sameKind (appendRow : AppendRowFn) (w w' : GoError → GoError)
    (rows : List VfsEvent) (ev : VfsEvent) :
    (appendDecoded appendRow w rows ev).1 = (appendDecoded appendRow w' rows ev).1 ∧
      (appendDecoded appendRow w rows ev).2.sameKind (appendDecoded appendRow w' rows ev).2 = true := by
  unfold appendDecoded
  split <;> exact ⟨rfl, rfl⟩

namespace WireMsg

/-- One valid message: the fast path's loop body on its line and `jsonParseThenAppend`'s callback
on its document hand on the same rows and end the same way. -/
theorem simpleParseThenAppendBody_sim (appendRow : AppendRowFn) {m : WireMsg} (hv : m.Valid)
    (rows : List VfsEvent) (t : GoTime) :
    (simpleParseThenAppendBody appendRow rows m.line).1 =
        (jsonParseThenAppendOnDoc appendRow (t, rows) m.doc).1.2 ∧
      (simpleParseThenAppendBody appendRow rows m.line).2.sameKind
        (jsonParseThenAppendOnDoc appendRow (t, rows) m.doc).2 = true := by
  cases m with
  | attachedProbes n =>
    simp only [simpleParseThenAppendBody, classifyLine_attachedProbes, jsonParseThenAppendOnDoc,
      readEnvelope_doc, typeName, data, if_true]
    exact ⟨trivial, checkProbesText_sameKind hv⟩
  | time h m s =>
    obtain ⟨hh, hm, hs⟩ := hv
    simp +decide only [simpleParseThenAppendBody, classifyLine_time, jsonParseThenAppendOnDoc,
      readEnvelope_doc, typeName, data, if_true, if_false, parseTimeOnly_clockText hh hm hs,
      handleTime_clockText hh hm hs]
  | printf s =>
    simp +decide only [simpleParseThenAppendBody, classifyLine_printf, jsonParseThenAppendOnDoc,
      readEnvelope_doc, typeName, data, if_true, if_false, jsonPrintf, iterString]
    rcases decodeVfsEvent s with p | ⟨ev, _ | e⟩
    · exact ⟨rfl, rfl⟩
    · exact appendDecoded_sameKind appendRow _ _ rows ev
    · exact ⟨rfl, rfl⟩
  | lostEvents n =>
    simp +decide only [simpleParseThenAppendBody, classifyLine_lostEvents, jsonParseThenAppendOnDoc,
      readEnvelope_doc, typeName, data, if_true, if_false,
      checkLostEventsText_formatUint (show n < 2 ^ 64 by unfold Valid at hv; omega),
      handleLostEvents_of_iterInt (iterInt_int hv)]
  | other t d v =>
    obtain ⟨h₁, h₂, h₃, h₄⟩ := ne_of_not_mem_rawTypes hv.2.1
    simp only [simpleParseThenAppendBody, classifyLine_other hv, jsonParseThenAppendOnDoc,
      readEnvelope_doc, typeName, data, if_neg h₁, if_neg h₂, if_neg h₃, if_neg h₄]
    exact ⟨trivial, rfl⟩

end WireMsg

/-- A `MessageHandler` for `ParseStream` that reads the data of a `printf` message as a string and
hands it to `handler`, keeping the strings handed on so far; it accepts every other type. -/
def printfPayloadHandler (handler : LineHandler) : MessageHandler (List Bytes) :=
  fun seen typeStr dataEl =>
    if typeStr = ascii "printf" then
      match iterString dataEl with
      | .ok s => (seen ++ [s], match handler seen s with | some e => .err e | none => .ok)
      | .error e => (seen, .err e)
    else (seen, .ok)

namespace WireMsg

/-- One valid message: `ParseLines`' loop body on its line and `ParseStream`'s callback on its
document hand on the same payloads and end the same way, whatever the two parsers' start times. -/
theorem parseLinesBody_sim (handler : LineHandler) {m : WireMsg} (hv : m.Valid)
    (p : SimpleLineParser) (p' : NDJSONParser) (seen : List Bytes) :
    (SimpleLineParser.parseLinesBody handler (p, seen) m.line).1.2 =
        (NDJSONParser.onDoc (printfPayloadHandler handler) (p', seen) m.doc).1.2 ∧
      (SimpleLineParser.parseLinesBody handler (p, seen) m.line).2.sameKind
        (NDJSONParser.onDoc (printfPayloadHandler handler) (p', seen) m.doc).2 = true := by
  cases m with
  | attachedProbes n =>
    simp only [SimpleLineParser.parseLinesBody, classifyLine_attachedProbes, NDJSONParser.onDoc, NDJSONParser.onDocLogged,
      readEnvelope_doc, typeName, data, if_true]
    exact ⟨trivial, checkProbesText_sameKind hv⟩
  | time h m s =>
    obtain ⟨hh, hm, hs⟩ := hv
    simp +decide only [SimpleLineParser.parseLinesBody, classifyLine_time, NDJSONParser.onDoc, NDJSONParser.onDocLogged,
      readEnvelope_doc, typeName, data, if_true, if_false, parseTimeOnly_clockText hh hm hs,
      handleTime_clockText hh hm hs]
  | printf s =>
    simp +decide only [SimpleLineParser.parseLinesBody, classifyLine_printf, NDJSONParser.onDoc, NDJSONParser.onDocLogged,
      readEnvelope_doc, typeName, data, if_true, if_false, printfPayloadHandler, iterString]
    cases handler seen s <;> exact ⟨rfl, rfl⟩
  | lostEvents n =>
    simp +decide only [SimpleLineParser.parseLinesBody, classifyLine_lostEvents, NDJSONParser.onDoc, NDJSONParser.onDocLogged,
      readEnvelope_doc, typeName, data, if_true, if_false,
      checkLostEventsText_formatUint (show n < 2 ^ 64 by unfold Valid at hv; omega),
      handleLostEvents_of_iterInt (iterInt_int hv)]
  | other t d v =>
    obtain ⟨h₁, h₂, h₃, h₄⟩ := ne_of_not_mem_rawTypes hv.2.1
    simp only [SimpleLineParser.parseLinesBody, classifyLine_other hv, NDJSONParser.onDoc, NDJSONParser.onDocLogged,
      readEnvelope_doc, typeName, data, if_neg h₁, if_neg h₂, if_neg h₃, printfPayloadHandler,
      if_neg h₄]
    exact ⟨trivial, rfl⟩

end WireMsg

/-! ## The two paths on whole inputs -/

section Runs

variable {ms : List WireMsg} (hv : ∀ m ∈ ms, m.Valid ∧ m.line.length < maxScanTokenSize)
  {groups : List (List WireMsg)} (hg : groups.flatten = ms)

include hv hg in
theorem chunkDocs_groups :
    chunkDocs (groups.map wireText) = ms.map WireMsg.doc ∧ allParse (groups.map wireText) = true := by
  subst hg
  exact chunkDocs_wireText fun g hg' m hm => (hv m (List.mem_flatten.2 ⟨g, hg', hm⟩)).1

include hv hg in
/-- `simpleParseThenAppend` on the wire text of valid messages and `jsonParseThenAppend` on the
same text cut into chunks of whole lines, from a reader that ends with `io.EOF`, hand the same
rows to `appendRow` and end the same way. -/
theorem simpleParseThenAppend_sim (appendRow : AppendRowFn) :
    (simpleParseThenAppend ⟨wireText ms, .eof⟩ appendRow).1 =
        (jsonParseThenAppend (groups.map wireText) .eof appendRow).1.2 ∧
      (simpleParseThenAppend ⟨wireText ms, .eof⟩ appendRow).2.sameKind
        (jsonParseThenAppend (groups.map wireText) .eof appendRow).2 = true := by
  obtain ⟨hdocs, hall⟩ := chunkDocs_groups hv hg
  rw [simpleParseThenAppend, scanLines_wire hv, jsonParseThenAppend,
    rangeStreams_parseNDStream_eof hall, hdocs]
  have hstep : ∀ m ∈ ms, ∀ (rows : List VfsEvent) (st : GoTime × List VfsEvent), rows = st.2 →
      (simpleParseThenAppendBody appendRow rows m.line).1 =
          (jsonParseThenAppendOnDoc appendRow st m.doc).1.2 ∧
        (simpleParseThenAppendBody appendRow rows m.line).2.sameKind
          (jsonParseThenAppendOnDoc appendRow st m.doc).2 = true := by
    rintro m hm _ ⟨t, _⟩ rfl
    exact WireMsg.simpleParseThenAppendBody_sim appendRow (hv m hm).1 _ t
  exact loop_sim _ _ _ _ _ hstep [] _ rfl

include hv hg in
/-- `ParseLines` on the wire text of valid messages and `ParseStream` on the same text cut into
chunks of whole lines, from a reader that ends with `io.EOF`, with a handler that reads the
`printf` data as a string, hand on the same payloads and end the same way. -/
theorem parseLines_sim (handler : LineHandler) :
    (SimpleLineParser.parseLines {} ⟨wireText ms, .eof⟩ handler).1.2 =
        (NDJSONParser.parseStream {} (groups.map wireText) .eof (printfPayloadHandler handler) []).1.2 ∧
      (SimpleLineParser.parseLines {} ⟨wireText ms, .eof⟩ handler).2.sameKind
        (NDJSONParser.parseStream {} (groups.map wireText) .eof (printfPayloadHandler handler) []).2 =
        true := by
  obtain ⟨hdocs, hall⟩ := chunkDocs_groups hv hg
  have hstep : ∀ m ∈ ms, ∀ (a : SimpleLineParser × List Bytes) (b : NDJSONParser × List Bytes),
      a.2 = b.2 → (SimpleLineParser.parseLinesBody handler a m.line).1.2 =
          (NDJSONParser.onDoc (printfPayloadHandler handler) b m.doc).1.2 ∧
        (SimpleLineParser.parseLinesBody handler a m.line).2.sameKind
          (NDJSONParser.onDoc (printfPayloadHandler handler) b m.doc).2 = true := by
    rintro m hm ⟨p, seen⟩ ⟨p', _⟩ rfl
    exact WireMsg.parseLinesBody_sim handler (hv m hm).1 p p' seen
  obtain ⟨hR, hk⟩ := loop_sim _ _ (fun a b => a.2 = b.2) _ _ hstep ({}, []) ({}, []) rfl
  rw [SimpleLineParser.parseLines, scanLines_wire hv, NDJSONParser.parseStream,
    rangeStreams_parseNDStream_eof hall, hdocs]
  generalize loop (SimpleLineParser.parseLinesBody handler) ({}, []) (ms.map WireMsg.line) = x at hR hk ⊢
  rcases x with ⟨a, _ | e | p⟩ <;> exact ⟨hR, hk⟩

end Runs

end Bpfstream
