import Bpfstream.Parser

/-!
# The chunk structure of a simdjson stream

`range res` walks the documents chunk by chunk, but nothing a dispatcher does depends on where
one chunk ends and the next begins: the loop over the chunks is the loop over all their
documents, followed by the way the stream ends.  Every structured-path theorem goes through
`rangeStreams_eq`.
-/

namespace Bpfstream

/-- The documents `range res` reaches: those of the chunks before the stream's first error. -/
def streamDocs : List Stream → List JsonValue
  | [] => []
  | .error _ :: _ => []
  | .value docs :: rest => docs ++ streamDocs rest

/-- How the stream ends once all its documents are accepted: nil at `io.EOF` or when the channel
closes, the error otherwise. -/
def streamEnd : List Stream → Ret
  | [] => .ok
  | .error e :: _ => if e = .eof then .ok else .err e
  | .value _ :: rest => streamEnd rest

/-- The loop over the chunks is the loop over their documents, ended as the stream ends. -/
theorem rangeStreams_eq (onDoc : σ → JsonValue → σ × Ret) (s : σ) (ss : List Stream) :
    rangeStreams onDoc s ss =
      if (loop onDoc s (streamDocs ss)).2 = .ok then
        ((loop onDoc s (streamDocs ss)).1, streamEnd ss)
      else loop onDoc s (streamDocs ss) := by
  induction ss generalizing s with
  | nil => simp [rangeStreams, streamDocs, streamEnd]
  | cons st ss ih =>
    cases st with
    | error e => simp [rangeStreams, streamDocs, streamEnd]
    | value docs =>
      simp only [rangeStreams, streamDocs, streamEnd, loop_append]
      rcases h : loop onDoc s docs with ⟨s', r⟩
      cases r <;> simp [ih]

/-- A run ends normally exactly when the loop over the documents does and the stream ends
normally. -/
theorem rangeStreams_eq_ok_iff {onDoc : σ → JsonValue → σ × Ret} {s s' : σ} {ss : List Stream} :
    rangeStreams onDoc s ss = (s', .ok) ↔
      loop onDoc s (streamDocs ss) = (s', .ok) ∧ streamEnd ss = .ok := by
  rw [rangeStreams_eq]
  rcases loop onDoc s (streamDocs ss) with ⟨t, r⟩
  by_cases hr : r = .ok
  · subst hr; simp
  · simp [hr]

/-- Two callbacks related by `g` on the documents of the stream run alike. -/
theorem rangeStreams_map {τ : Type} (g : σ → τ) {onDoc : σ → JsonValue → σ × Ret}
    {onDoc' : τ → JsonValue → τ × Ret} {ss : List Stream}
    (h : ∀ s, ∀ doc ∈ streamDocs ss, onDoc' (g s) doc = (g (onDoc s doc).1, (onDoc s doc).2))
    (s : σ) : rangeStreams onDoc' (g s) ss =
      (g (rangeStreams onDoc s ss).1, (rangeStreams onDoc s ss).2) := by
  rw [rangeStreams_eq, rangeStreams_eq, loop_map onDoc g h]
  split <;> rfl

/-! ## The stream of `ParseNDStream` -/

/-- The documents of the chunks before the first chunk that does not parse. -/
def chunkDocs : List Bytes → List JsonValue
  | [] => []
  | c :: cs =>
    match parseNdjson c with
    | some docs => docs ++ chunkDocs cs
    | none => []

/-- Every chunk parses. -/
def allParse (chunks : List Bytes) : Bool := chunks.all fun c => (parseNdjson c).isSome

@[simp] theorem parsedChunks_eof (chunks : List Bytes) : parsedChunks chunks .eof = chunks :=
  if_pos rfl

theorem streamDocs_map_parseChunk (cs : List Bytes) (e : GoError) :
    streamDocs (cs.map parseChunk ++ [.error e]) = chunkDocs cs := by
  induction cs with
  | nil => rfl
  | cons c cs ih =>
    simp only [List.map_cons, List.cons_append, chunkDocs, parseChunk]
    split <;> simp_all [streamDocs]

theorem streamEnd_map_parseChunk (cs : List Bytes) (e : GoError) :
    streamEnd (cs.map parseChunk ++ [.error e]) =
      if allParse cs then (if e = .eof then .ok else .err e) else .err errParsingInput := by
  induction cs with
  | nil => simp [streamEnd, allParse]
  | cons c cs ih =>
    simp only [List.map_cons, List.cons_append, allParse, List.all_cons, parseChunk] at ih ⊢
    split
    · simp_all [streamEnd]
    · simp_all [streamEnd, errParsingInput]

/-- `range res` reaches the documents of the parsed chunks before the first that does not
parse. -/
theorem streamDocs_parseNDStream (chunks : List Bytes) (final : GoError) :
    streamDocs (parseNDStream chunks final) = chunkDocs (parsedChunks chunks final) :=
  streamDocs_map_parseChunk _ final

theorem streamEnd_parseNDStream (chunks : List Bytes) (final : GoError) :
    streamEnd (parseNDStream chunks final) =
      if allParse (parsedChunks chunks final) then (if final = .eof then .ok else .err final)
      else .err errParsingInput :=
  streamEnd_map_parseChunk _ final

/-- Dropping the last read keeps a prefix of the documents. -/
theorem chunkDocs_dropLast_isPrefix (cs : List Bytes) : chunkDocs cs.dropLast <+: chunkDocs cs := by
  match cs with
  | [] | [_] => exact List.nil_prefix
  | c :: c' :: cs =>
    rw [List.dropLast_cons₂, chunkDocs, chunkDocs]
    split
    · exact (List.prefix_append_right_inj _).2 (chunkDocs_dropLast_isPrefix (c' :: cs))
    · exact List.prefix_rfl

theorem chunkDocs_parsedChunks_isPrefix (chunks : List Bytes) (final : GoError) :
    chunkDocs (parsedChunks chunks final) <+: chunkDocs chunks := by
  unfold parsedChunks
  split
  · exact List.prefix_rfl
  · exact chunkDocs_dropLast_isPrefix chunks

/-- `range res` reaches a prefix of the documents of all the reads. -/
theorem streamDocs_parseNDStream_isPrefix (chunks : List Bytes) (final : GoError) :
    streamDocs (parseNDStream chunks final) <+: chunkDocs chunks :=
  streamDocs_parseNDStream chunks final ▸ chunkDocs_parsedChunks_isPrefix chunks final

/-- The stream of `ParseNDStream` ends normally when every chunk parses and the reader reached
`io.EOF`. -/
theorem streamEnd_parseNDStream_eq_ok (chunks : List Bytes) (final : GoError) :
    streamEnd (parseNDStream chunks final) = .ok ↔ allParse chunks ∧ final = .eof := by
  rw [streamEnd_parseNDStream]
  by_cases hf : final = .eof
  · subst hf; simp only [parsedChunks_eof, if_pos]; split <;> simp_all
  · split <;> simp [hf]

/-- A `range` over the stream of `ParseNDStream` ends normally exactly when the reader reached
`io.EOF`, every chunk parses and the loop over all their documents ends normally. -/
theorem rangeStreams_parseNDStream_eq_ok_iff {onDoc : σ → JsonValue → σ × Ret} {s s' : σ}
    {chunks : List Bytes} {final : GoError} :
    rangeStreams onDoc s (parseNDStream chunks final) = (s', .ok) ↔
      allParse chunks ∧ final = .eof ∧ loop onDoc s (chunkDocs chunks) = (s', .ok) := by
  rw [rangeStreams_eq_ok_iff, streamDocs_parseNDStream, streamEnd_parseNDStream_eq_ok]
  constructor
  · rintro ⟨h, hp, rfl⟩
    exact ⟨hp, rfl, h⟩
  · rintro ⟨hp, rfl, h⟩
    exact ⟨h, hp, rfl⟩

/-- A callback that adds `out doc` to a log for each document it reads: over the stream of
`ParseNDStream` the log holds the entries of all the parsed documents when the run accepts them
all, and the run then returns how the stream ended: nil at `io.EOF`, the reader's error at
another end, and the parse error when a read does not parse; otherwise it stopped at one
document, and the log ends with that document's entries. -/
theorem rangeStreams_log_cases {β : Type*} {onDoc : σ → JsonValue → σ × Ret} (log : σ → List β)
    (out : JsonValue → List β) (hlog : ∀ t doc, log (onDoc t doc).1 = log t ++ out doc) (s : σ)
    (chunks : List Bytes) (final : GoError) :
    (log (rangeStreams onDoc s (parseNDStream chunks final)).1 =
          log s ++ (chunkDocs (parsedChunks chunks final)).flatMap out ∧
        (rangeStreams onDoc s (parseNDStream chunks final)).2 =
          if allParse (parsedChunks chunks final) then (if final = .eof then .ok else .err final)
          else .err errParsingInput) ∨
      ∃ pre doc post, chunkDocs (parsedChunks chunks final) = pre ++ doc :: post ∧
        (rangeStreams onDoc s (parseNDStream chunks final)).2 ≠ .ok ∧
        log (rangeStreams onDoc s (parseNDStream chunks final)).1 =
          log s ++ (pre ++ [doc]).flatMap out := by
  rw [rangeStreams_eq, streamDocs_parseNDStream]
  rcases loop_log_cases onDoc log out hlog s (chunkDocs (parsedChunks chunks final)) with
    ⟨hok, hlogs⟩ | ⟨pre, doc, post, hsplit, hne, hlogs⟩
  · rw [if_pos hok]
    exact .inl ⟨hlogs, streamEnd_parseNDStream chunks final⟩
  · rw [if_neg hne]
    exact .inr ⟨pre, doc, post, hsplit, hne, hlogs⟩

/-- When every chunk parses and the reader reached `io.EOF`, the `range` over the streams is one
loop over all the documents. -/
theorem rangeStreams_parseNDStream_eof {chunks : List Bytes} (h : allParse chunks = true)
    (onDoc : σ → JsonValue → σ × Ret) (s : σ) :
    rangeStreams onDoc s (parseNDStream chunks .eof) = loop onDoc s (chunkDocs chunks) := by
  rw [rangeStreams_eq, streamDocs_parseNDStream, streamEnd_parseNDStream, parsedChunks_eof,
    if_pos h, if_pos rfl]
  split_ifs with hr
  · exact Prod.ext rfl hr.symm
  · rfl

end Bpfstream
