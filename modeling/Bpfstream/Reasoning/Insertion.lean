import Bpfstream.Reasoning.Dispatch

/-!
# Messages of a type nobody handles

Every dispatcher ends its `if` chain or its `switch` by skipping what it does not know: the fast
path logs a warning for a line without one of its four prefixes, and the structured loops fall
through on a type they have no case for.  So messages of such a type can be inserted anywhere in
a stream without changing the outcome.

On the fast path the inserted lines must also get through `bufio.Scanner`: a line of 64 KiB or
more ends the scan with `bufio.ErrTooLong`, which `simpleParseThenAppend` never reads, so every
later record is lost and the call returns nil.  On the structured path the insertion is stated
for a reader that ends with `io.EOF` and reads that all parse: the documents reached are then all
those of the input, wherever the reads are cut.  Otherwise the documents reached are those before
the failing read, and an inserted line moves where `ParseNDStream` cuts its 10 MiB reads.
-/

namespace Bpfstream

/-! ## Envelope lines on the fast path -/

/-- `{"type": "`, the bytes every envelope line starts with. -/
def typeKeyword : Bytes := ascii "\x7b\"type\": \""

/-- `{"type": "<t>", "data": <d>}` on one line: `t` the text of the type string between its
quotes, `d` the text of the data value. -/
def envelopeLine (t d : Bytes) : Bytes := typeKeyword ++ t ++ ascii "\", \"data\": " ++ d ++ [125]

/-- The types the raw pipelines handle. -/
def rawTypes : List Bytes :=
  [ascii "attached_probes", ascii "time", ascii "lost_events", ascii "printf"]

/-- The types the count pipelines handle. -/
def countTypes : List Bytes :=
  [ascii "attached_probes", ascii "time", ascii "lost_events", ascii "map"]

/-- Two texts without a quote, each followed by a quote: one can only start the other when they
are equal. -/
theorem eq_of_prefix_quote : ∀ {a b x y : Bytes}, 34 ∉ a → 34 ∉ b →
    (b ++ 34 :: x) <+: (a ++ 34 :: y) → b = a
  | [], [], _, _, _, _, _ => rfl
  | c :: a, [], _, _, ha, _, h => by
    obtain ⟨rfl, -⟩ := List.cons_prefix_cons.mp h
    exact absurd (List.mem_cons_self _ a) ha
  | [], c :: b, _, _, _, hb, h => by
    obtain ⟨rfl, -⟩ := List.cons_prefix_cons.mp h
    exact absurd (List.mem_cons_self _ b) hb
  | c :: a, d :: b, _, _, ha, hb, h => by
    obtain ⟨rfl, h'⟩ := List.cons_prefix_cons.mp h
    rw [eq_of_prefix_quote (fun h => ha (List.mem_cons_of_mem _ h))
      (fun h => hb (List.mem_cons_of_mem _ h)) h']

/-- An envelope line starts with the fast path's keyword for `name` only when its type is
`name`. -/
theorem eq_of_hasPrefix_envelopeLine {t d name rest : Bytes} (ht : 34 ∉ t) (hn : 34 ∉ name)
    (h : hasPrefix (envelopeLine t d) (typeKeyword ++ name ++ 34 :: rest)) : t = name := by
  rw [hasPrefix_iff, envelopeLine, show ascii "\", \"data\": " = 34 :: ascii ", \"data\": " from rfl,
    List.append_assoc, List.append_assoc, List.append_assoc, List.append_assoc,
    List.prefix_append_right_inj] at h
  exact (eq_of_prefix_quote ht hn h).symm

theorem attachedProbeKeyword_eq :
    attachedProbeKeyword = typeKeyword ++ ascii "attached_probes" ++
      34 :: ascii ", \"data\": \x7b\"probes\": " := rfl
theorem startTimeKeyword_eq :
    startTimeKeyword = typeKeyword ++ ascii "time" ++ 34 :: ascii ", \"data\": \"" := rfl
theorem printfKeyword_eq :
    printfKeyword = typeKeyword ++ ascii "printf" ++ 34 :: ascii ", \"data\": \"" := rfl
theorem lostEventsKeyword_eq :
    lostEventsKeyword = typeKeyword ++ ascii "lost_events" ++
      34 :: ascii ", \"data\": \x7b\"events\": " := rfl

/-- The fast path skips an envelope line whose type is none of the four it knows. -/
theorem classifyLine_envelopeLine {t : Bytes} (d : Bytes) (ht : 34 ∉ t) (hu : t ∉ rawTypes) :
    classifyLine (envelopeLine t d) = .ok .unknown := by
  have hne : ∀ name ∈ rawTypes, ∀ rest, 34 ∉ name →
      hasPrefix (envelopeLine t d) (typeKeyword ++ name ++ 34 :: rest) = false :=
    fun name hname rest hn => Bool.eq_false_iff.mpr fun h =>
      hu (eq_of_hasPrefix_envelopeLine ht hn h ▸ hname)
  unfold classifyLine
  rw [attachedProbeKeyword_eq, hne _ (by decide) _ (by decide), if_neg Bool.false_ne_true,
    startTimeKeyword_eq, hne _ (by decide) _ (by decide), if_neg Bool.false_ne_true,
    printfKeyword_eq, hne _ (by decide) _ (by decide), if_neg Bool.false_ne_true,
    lostEventsKeyword_eq, hne _ (by decide) _ (by decide), if_neg Bool.false_ne_true]

theorem length_envelopeLine (t d : Bytes) :
    (envelopeLine t d).length = typeKeyword.length + t.length + 11 + d.length + 1 := by
  simp only [envelopeLine, List.length_append, List.length_singleton]
  rfl

theorem dropCR_envelopeLine (t d : Bytes) : dropCR (envelopeLine t d) = envelopeLine t d := by
  rw [dropCR, envelopeLine, List.getLast?_concat]
  exact if_neg (by decide)

/-- Envelope lines of types the raw pipelines do not handle, each shorter than the scanner's
buffer, inserted at any line boundary: `simpleParseThenAppend` hands on the same rows and ends
the same way. -/
theorem simpleParseThenAppend_insert_envelopes (pre : List Bytes) (ins : List (Bytes × Bytes))
    (rest : Bytes) (final : GoError) (appendRow : AppendRowFn) (hpre : ∀ l ∈ pre, 10 ∉ l)
    (hins : ∀ x ∈ ins, 34 ∉ x.1 ∧ x.1 ∉ rawTypes ∧ 10 ∉ envelopeLine x.1 x.2 ∧
      (envelopeLine x.1 x.2).length < maxScanTokenSize) :
    simpleParseThenAppend
        ⟨joinLines pre ++ joinLines (ins.map fun x => envelopeLine x.1 x.2) ++ rest, final⟩ appendRow =
      simpleParseThenAppend ⟨joinLines pre ++ rest, final⟩ appendRow := by
  have hskip : ∀ rows, ∀ l ∈ (ins.map fun x => envelopeLine x.1 x.2).map dropCR,
      simpleParseThenAppendBody appendRow rows l = (rows, .ok) := by
    intro rows l hl
    simp only [List.map_map, List.mem_map, Function.comp_apply] at hl
    obtain ⟨x, hx, rfl⟩ := hl
    obtain ⟨ht, hu, -⟩ := hins x hx
    simp only [simpleParseThenAppendBody, dropCR_envelopeLine, classifyLine_envelopeLine _ ht hu]
  unfold simpleParseThenAppend scanLines
  have hshort : ∀ l ∈ ins.map fun x => envelopeLine x.1 x.2,
      10 ∉ l ∧ l.length < maxScanTokenSize := fun l hl => by
    obtain ⟨x, hx, rfl⟩ := List.mem_map.mp hl
    exact (hins x hx).2.2
  rcases scanLinesFrom_insert final pre _ rest hpre hshort with h | ⟨as, bs, e, h1, h2⟩
  · rw [h]
  · rw [h1, h2]
    exact loop_insert_skip _ _ _ _ _ hskip

/-- A first line that does not fit the scanner's buffer: nothing reaches `appendRow`, and the call
returns nil. -/
theorem simpleParseThenAppend_long_first_line {l : Bytes} (rest : Bytes) (final : GoError)
    (appendRow : AppendRowFn) (hl : 10 ∉ l) (hlen : maxScanTokenSize ≤ l.length) :
    simpleParseThenAppend ⟨l ++ rest, final⟩ appendRow = ([], .ok) := by
  simp only [simpleParseThenAppend, scanLines, scanLinesFrom_long _ _ _ hl hlen, loop_nil]

/-! ## Documents on the structured path -/

/-- A message whose type is not among `handled`. -/
def Unhandled (handled : List Bytes) (doc : JsonValue) : Prop :=
  ∃ t dataEl, readEnvelope doc = .ok (t, dataEl) ∧ t ∉ handled

/-- Documents that a callback passes over, inserted among those of a stream whose reads all
parse and which ends with `io.EOF`: the run is the same, whatever the reads. -/
theorem rangeStreams_insert_skip {onDoc : σ → JsonValue → σ × Ret} {cs cs' : List Bytes}
    {pre extra post : List JsonValue} (hp : allParse cs) (hp' : allParse cs')
    (hdocs : chunkDocs cs = pre ++ post) (hdocs' : chunkDocs cs' = pre ++ extra ++ post)
    (hskip : ∀ t, ∀ d ∈ extra, onDoc t d = (t, .ok)) (s : σ) :
    rangeStreams onDoc s (parseNDStream cs' .eof) = rangeStreams onDoc s (parseNDStream cs .eof) := by
  rw [rangeStreams_parseNDStream_eof hp', rangeStreams_parseNDStream_eof hp, hdocs, hdocs',
    loop_insert_skip onDoc s pre extra post hskip]

theorem jsonParseThenAppendOnDoc_unhandled (appendRow : AppendRowFn)
    (st : GoTime × List VfsEvent) {doc : JsonValue} (h : Unhandled rawTypes doc) :
    jsonParseThenAppendOnDoc appendRow st doc = (st, .ok) := by
  obtain ⟨t, dataEl, henv, hu⟩ := h
  simp only [rawTypes, List.mem_cons, List.mem_singleton, not_or] at hu
  obtain ⟨t0, rows⟩ := st
  simp [jsonParseThenAppendOnDoc, henv, hu]

theorem vfsCountOnDoc_unhandled (st : GoTime × Event × Nat) {doc : JsonValue}
    (h : Unhandled countTypes doc) : vfsCountOnDoc st doc = (st, .ok) := by
  obtain ⟨t, dataEl, henv, hu⟩ := h
  simp only [countTypes, List.mem_cons, List.mem_singleton, not_or] at hu
  obtain ⟨t0, total, n⟩ := st
  simp [vfsCountOnDoc, henv, hu]

theorem onDoc_countHandler_unhandled {C : Type} (fill : C → JsonValue → Except GoError C)
    (zero : C) (add : C → C → C) (st : NDJSONParser × C × Nat) {doc : JsonValue}
    (h : Unhandled countTypes doc) :
    NDJSONParser.onDoc (countHandler fill zero add) st doc = (st, .ok) := by
  obtain ⟨t, dataEl, henv, hu⟩ := h
  simp only [countTypes, List.mem_cons, List.mem_singleton, not_or] at hu
  obtain ⟨p, s⟩ := st
  simp [NDJSONParser.onDoc, NDJSONParser.onDocLogged, henv, hu, countHandler]

theorem countParseStream_insert_unhandled {C : Type} (fill : C → JsonValue → Except GoError C)
    (zero : C) (add : C → C → C) {cs cs' : List Bytes} {pre extra post : List JsonValue}
    (hp : allParse cs) (hp' : allParse cs') (hdocs : chunkDocs cs = pre ++ post)
    (hdocs' : chunkDocs cs' = pre ++ extra ++ post) (hx : ∀ d ∈ extra, Unhandled countTypes d) :
    countParseStream fill zero add cs' .eof = countParseStream fill zero add cs .eof := by
  simp only [countParseStream, NDJSONParser.parseStream,
    rangeStreams_insert_skip hp hp' hdocs hdocs'
      (fun t d hd => onDoc_countHandler_unhandled fill zero add t (hx d hd))]

end Bpfstream
