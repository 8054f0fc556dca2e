import Bpfstream.VfsRaw
import Bpfstream.Reasoning.Streams

/-!
# Where the `vfs raw` paths can panic

Two slice expressions can go out of range.  The fast path cuts `line[len(keyword) :
len(line)-len(suffix)]` out of every line that starts with one of its four keywords, and
`vfsEvent.HandleLogfmt` cuts `v[1:len(v)-1]` out of every `path` value.  The first fails exactly
on a line shorter than its keyword and suffix together, the second exactly on a value shorter than
two bytes.  Nothing else panics: every run that panics reached one of these.
-/

namespace Bpfstream

/-- The four keywords of the fast path with the suffixes it cuts off after them. -/
def keywordCuts : List (Bytes × Bytes) :=
  [(attachedProbeKeyword, probesSuffix), (startTimeKeyword, startTimeSuffix),
    (printfKeyword, printfSuffix), (lostEventsKeyword, lostEventsSuffix)]

/-- A line that starts with one of the four keywords but is shorter than the keyword and its
suffix together. -/
def TruncatedLine (line : Bytes) : Prop :=
  ∃ kw suf, (kw, suf) ∈ keywordCuts ∧ kw <+: line ∧ line.length < kw.length + suf.length

/-- A `printf` payload whose logfmt scan hands `HandleLogfmt` a `path` value shorter than two
bytes. -/
def ShortPath (data : Bytes) : Prop :=
  ∃ v, LogfmtItem.pair (ascii "path") v ∈ scanLogfmt .garbage data ∧ v.length < 2

theorem cutLine_error {line kw suf : Bytes} {p : Panic} (h : cutLine line kw suf = .error p) :
    line.length < kw.length + suf.length := by
  have := slice_error_bounds h
  omega

theorem classifyLine_error {line : Bytes} {p : Panic} (h : classifyLine line = .error p) :
    TruncatedLine line := by
  unfold classifyLine at h
  have key : ∀ (kw suf : Bytes) (f : Bytes → LineKind), (kw, suf) ∈ keywordCuts →
      hasPrefix line kw = true → f <$> cutLine line kw suf = .error p → TruncatedLine line :=
    fun kw suf f hmem hpre hcut => by
      cases hc : cutLine line kw suf with
      | error q =>
        exact ⟨kw, suf, hmem, (hasPrefix_iff line kw).mp hpre, cutLine_error hc⟩
      | ok d => rw [hc] at hcut; cases hcut
  split_ifs at h with h1 h2 h3 h4
  · exact key _ _ _ (by simp [keywordCuts]) h1 h
  · exact key _ _ _ (by simp [keywordCuts]) h2 h
  · exact key _ _ _ (by simp [keywordCuts]) h3 h
  · exact key _ _ _ (by simp [keywordCuts]) h4 h

/-- `HandleLogfmt` panics only on a `path` value shorter than two bytes. -/
theorem VfsEvent.handleLogfmt_error {e : VfsEvent} {key val : Bytes} {p : Panic}
    (h : e.handleLogfmt key val = .error p) : key = ascii "path" ∧ val.length < 2 := by
  by_cases hpath : key = ascii "path"
  · subst hpath
    rw [VfsEvent.handleLogfmt_path] at h
    cases hs : slice val 1 (val.length - 1) with
    | ok t => rw [hs] at h; cases h
    | error q => exact ⟨rfl, by have := slice_error_bounds hs; omega⟩
  · simp only [VfsEvent.handleLogfmt, ite_eq_iff, hpath, false_and, false_or, reduceCtorEq,
      and_false, or_false] at h

theorem runLogfmt_error {handle : σ → Bytes → Bytes → Except Panic (σ × Option GoError)}
    {items : List LogfmtItem} {s : σ} {err : Option GoError} {p : Panic}
    (h : runLogfmt handle items s err = .error p) :
    ∃ k v, LogfmtItem.pair k v ∈ items ∧ ∃ s', handle s' k v = .error p := by
  induction items generalizing s err with
  | nil => cases h
  | cons item items ih =>
    cases item with
    | pair k v =>
      simp only [runLogfmt] at h
      cases hk : handle s k v with
      | error q =>
        rw [hk] at h; cases h
        exact ⟨k, v, List.mem_cons_self _ _, s, hk⟩
      | ok r =>
        rw [hk] at h
        obtain ⟨k', v', hmem, s', hs'⟩ := ih h
        exact ⟨k', v', List.mem_cons_of_mem _ hmem, s', hs'⟩
    | err e =>
      obtain ⟨k', v', hmem, s', hs'⟩ := ih h
      exact ⟨k', v', List.mem_cons_of_mem _ hmem, s', hs'⟩

theorem decodeVfsEvent_error {data : Bytes} {p : Panic} (h : decodeVfsEvent data = .error p) :
    ShortPath data := by
  obtain ⟨k, v, hmem, s', hs'⟩ := runLogfmt_error h
  obtain ⟨rfl, hlen⟩ := VfsEvent.handleLogfmt_error hs'
  exact ⟨v, hmem, hlen⟩

/-- A fast-path step panics on a truncated keyword line, or on a `printf` payload with a short
`path` value. -/
theorem simpleParseThenAppendBody_panic {appendRow : AppendRowFn} {rows : List VfsEvent}
    {line : Bytes} {p : Panic} (h : (simpleParseThenAppendBody appendRow rows line).2 = .panic p) :
    TruncatedLine line ∨ ∃ data, classifyLine line = .ok (.printf data) ∧ ShortPath data := by
  unfold simpleParseThenAppendBody at h
  rcases hc : classifyLine line with q | kind
  · exact .inl (classifyLine_error hc)
  · rw [hc] at h
    cases kind with
    | printf data =>
      right
      refine ⟨data, rfl, ?_⟩
      rcases hd : decodeVfsEvent data with q | ⟨ev, _ | e⟩
      · exact decodeVfsEvent_error hd
      · simp only [hd, appendDecoded] at h; split at h <;> cases h
      · simp only [hd] at h; cases h
    | attachedProbes data => simp only [checkProbesText] at h; split at h <;> (try split at h) <;> cases h
    | time data => simp only at h; split at h <;> cases h
    | lostEvents data => simp only [checkLostEventsText] at h; split at h <;> cases h
    | unknown => cases h

theorem parseLinesBody_panic {handler : LineHandler} {st : SimpleLineParser × List Bytes}
    {line : Bytes} {p : Panic}
    (h : (SimpleLineParser.parseLinesBody handler st line).2 = .panic p) : TruncatedLine line := by
  obtain ⟨parser, seen⟩ := st
  simp only [SimpleLineParser.parseLinesBody] at h
  rcases hc : classifyLine line with q | kind
  · exact classifyLine_error hc
  · rw [hc] at h
    cases kind with
    | printf data => simp only at h; split at h <;> cases h
    | attachedProbes data => simp only [checkProbesText] at h; split at h <;> (try split at h) <;> cases h
    | time data => simp only at h; split at h <;> cases h
    | lostEvents data => simp only [checkLostEventsText] at h; split at h <;> cases h
    | unknown => cases h

theorem streamEnd_ne_panic (ss : List Stream) (p : Panic) : streamEnd ss ≠ .panic p := by
  induction ss with
  | nil => simp [streamEnd]
  | cons st ss ih =>
    cases st with
    | value docs => exact ih
    | error e => unfold streamEnd; split <;> simp

/-- A `range res` loop panics only inside a callback. -/
theorem rangeStreams_panic {onDoc : σ → JsonValue → σ × Ret} {s : σ} {ss : List Stream}
    {p : Panic} (h : (rangeStreams onDoc s ss).2 = .panic p) :
    (loop onDoc s (streamDocs ss)).2 = .panic p := by
  rw [rangeStreams_eq] at h
  split at h
  · exact absurd h (streamEnd_ne_panic ss p)
  · exact h

theorem parseLines_panic {parser : SimpleLineParser} {r : Input} {handler : LineHandler}
    {p : Panic} (h : (parser.parseLines r handler).2 = .panic p) :
    (loop (SimpleLineParser.parseLinesBody handler) (parser, []) (scanLines r).1).2 = .panic p := by
  unfold SimpleLineParser.parseLines at h
  split at h
  · split at h <;> cases h
  · exact h

theorem jsonParseThenAppendOnDoc_panic {appendRow : AppendRowFn} {st : GoTime × List VfsEvent}
    {doc : JsonValue} {p : Panic} (h : (jsonParseThenAppendOnDoc appendRow st doc).2 = .panic p) :
    ∃ dataEl buf, readEnvelope doc = .ok (ascii "printf", dataEl) ∧ iterString dataEl = .ok buf ∧
      ShortPath buf := by
  obtain ⟨t, rows⟩ := st
  simp only [jsonParseThenAppendOnDoc] at h
  rcases he : readEnvelope doc with e | ⟨typeStr, dataEl⟩
  · rw [he] at h; cases h
  · rw [he] at h
    simp only at h
    split_ifs at h with h1 h2 h3 h4
    · simp only [NDJSONParser.handleAttachedProbes] at h; repeat' split at h
      all_goals cases h
    · simp only [NDJSONParser.handleTime] at h; repeat' split at h
      all_goals cases h
    · simp only [NDJSONParser.handleLostEvents] at h; repeat' split at h
      all_goals cases h
    · subst h4
      simp only [jsonPrintf] at h
      rcases hs : iterString dataEl with e | buf
      · rw [hs] at h; cases h
      · rw [hs] at h
        rcases hd : decodeVfsEvent buf with q | ⟨ev, _ | e⟩
        · exact ⟨dataEl, buf, rfl, hs, decodeVfsEvent_error hd⟩
        · simp only [hd, appendDecoded] at h; split at h <;> cases h
        · simp only [hd] at h; cases h

/-- Every run of the three `vfs raw` readers that panics reached a keyword line shorter than its
keyword and suffix together (fast path) or a `printf` payload with a `path` value shorter than
two bytes: on inputs with neither, each returns nil or an error. -/
theorem raw_paths_panic_only_on_short_slices :
    (∀ (r : Input) (appendRow : AppendRowFn) (p : Panic),
      (simpleParseThenAppend r appendRow).2 = .panic p →
      ∃ line ∈ (scanLines r).1, TruncatedLine line ∨
        ∃ data, classifyLine line = .ok (.printf data) ∧ ShortPath data) ∧
    (∀ (parser : SimpleLineParser) (r : Input) (handler : LineHandler) (p : Panic),
      (parser.parseLines r handler).2 = .panic p → ∃ line ∈ (scanLines r).1, TruncatedLine line) ∧
    (∀ (chunks : List Bytes) (final : GoError) (appendRow : AppendRowFn) (p : Panic),
      (jsonParseThenAppend chunks final appendRow).2 = .panic p →
      ∃ doc ∈ chunkDocs chunks, ∃ dataEl buf, readEnvelope doc = .ok (ascii "printf", dataEl) ∧
        iterString dataEl = .ok buf ∧ ShortPath buf) := by
  refine ⟨fun r appendRow p h => ?_, fun parser r handler p h => ?_,
    fun chunks final appendRow p h => ?_⟩
  · have hne : (loop (simpleParseThenAppendBody appendRow) [] (scanLines r).1).2 ≠ .ok := by
      change (simpleParseThenAppend r appendRow).2 ≠ .ok; rw [h]; simp
    obtain ⟨line, hline, t, ht⟩ := loop_stop_mem _ hne
    exact ⟨line, hline, simpleParseThenAppendBody_panic (ht.trans h)⟩
  · have hloop := parseLines_panic h
    obtain ⟨line, hline, t, ht⟩ := loop_stop_mem _ (by rw [hloop]; simp)
    exact ⟨line, hline, parseLinesBody_panic (ht.trans hloop)⟩
  · have hloop := rangeStreams_panic h
    obtain ⟨doc, hdoc, t, ht⟩ := loop_stop_mem _ (by rw [hloop]; simp)
    exact ⟨doc, (streamDocs_parseNDStream_isPrefix chunks final).subset hdoc,
      jsonParseThenAppendOnDoc_panic (ht.trans hloop)⟩

/-- A line that is the `printf` keyword alone panics both fast-path loops, and the payload
`path=x` panics `jsonParseThenAppend`. -/
theorem raw_paths_panic_on_truncated_line :
    (simpleParseThenAppend ⟨printfKeyword ++ ascii "\n", .eof⟩ (fun _ _ => none)).2 =
      .panic ⟨28, 26, 28⟩ ∧
    (SimpleLineParser.parseLines {} ⟨printfKeyword ++ ascii "\n", .eof⟩ (fun _ _ => none)).2 =
      .panic ⟨28, 26, 28⟩ ∧
    (jsonParseThenAppend [ascii "\x7b\"type\": \"printf\", \"data\": \"path=x\"\x7d\n"] .eof
      (fun _ _ => none)).2 = .panic ⟨1, 0, 1⟩ := by
  decide

end Bpfstream
