import Bpfstream.Reasoning.Insertion

/-!
# The wire format the tracer writes

bpftrace's `-f json` output, as `pterm_writer.go` documents it, is one envelope per line:
`{"type": "attached_probes", "data": {"probes": N}}`, `{"type": "time", "data": "HH:MM:SS\n"}`,
`{"type": "printf", "data": "S"}`, `{"type": "lost_events", "data": {"events": N}}`, or an envelope
of another type.  `WireMsg` is a message of that format and `WireMsg.line` its line in the
fast path's byte layout.  This module reads such lines both ways: the fast path's prefix tests
and fixed-offset cuts (`classifyLine`), and simdjson's parse of a chunk of whole lines
(`parseNdjson`).  `WireMsg.Valid` is what a message needs for both readings to succeed: counts
that are `int64` values, a clock time, `printf` text that needs no escape in a JSON string.
-/

namespace Bpfstream

/-! ## Data texts -/

theorem not_mem_of_all (c : UInt8) {p : UInt8 → Bool} {s : Bytes} (hs : s.all p) (hc : p c = false) :
    c ∉ s := fun h => by simp [List.all_eq_true.1 hs c h] at hc

/-- `d` is the text of the JSON value `v`: simdjson reads it, given enough fuel, up to the `}`
that closes the envelope. -/
def JsonText (d : Bytes) (v : JsonValue) : Prop :=
  ∀ n rest, d.length < n → parseValue n (d ++ 125 :: rest) = some (v, 125 :: rest)

def countText (key : Bytes) (n : Nat) : Bytes :=
  123 :: 34 :: (key ++ 34 :: 58 :: 32 :: (formatUint n ++ [125]))

theorem jsonText_countText {key : Bytes} (hk : key.all plainByte) (n : Nat) :
    JsonText (countText key n) (.obj [(key, .int n)]) := by
  intro k rest hlen
  obtain ⟨j, rfl⟩ : ∃ j, k = j + 1 + 1 + 1 := ⟨k - 3, by simp [countText] at hlen; omega⟩
  have hv : parseValue (j + 1) (32 :: (formatUint n ++ 125 :: 125 :: rest)) =
      some (.int n, 125 :: 125 :: rest) := by
    rw [parseValue_ws_cons (by decide), parseValue_formatUint n (by decide) (by decide) (by decide)
      (by decide)]
  simp only [countText, List.cons_append, List.append_assoc, List.singleton_append, List.nil_append]
  rw [parseValue_object, parseMembers_member_last hk [] hv]
  rfl

def clockText (h m s : Nat) : Bytes :=
  [digitByte (h / 10), digitByte (h % 10), 58, digitByte (m / 10), digitByte (m % 10), 58,
    digitByte (s / 10), digitByte (s % 10)]

def timeText (h m s : Nat) : Bytes := 34 :: (clockText h m s ++ [92, 110, 34])

/-- A property that every digit byte and the colon have holds of every byte of a clock text. -/
theorem clockText_all {p : UInt8 → Bool} (hd : ∀ d < 10, p (digitByte d)) (hc : p 58) {h m s : Nat}
    (hh : h < 100) (hm : m < 100) (hs : s < 100) : (clockText h m s).all p := by
  simp [clockText, hc, hd _ (show h / 10 < 10 by omega), hd _ (show h % 10 < 10 by omega),
    hd _ (show m / 10 < 10 by omega), hd _ (show m % 10 < 10 by omega),
    hd _ (show s / 10 < 10 by omega), hd _ (show s % 10 < 10 by omega)]

theorem plainByte_digitByte {d : Nat} (hd : d < 10) : plainByte (digitByte d) = true := by
  interval_cases d <;> decide

theorem clockText_plain {h m s : Nat} (hh : h < 100) (hm : m < 100) (hs : s < 100) :
    (clockText h m s).all plainByte :=
  clockText_all (fun _ => plainByte_digitByte) rfl hh hm hs

theorem jsonText_timeText {h m s : Nat} (hh : h < 100) (hm : m < 100) (hs : s < 100) :
    JsonText (timeText h m s) (.str (clockText h m s ++ [10])) := by
  intro k rest hlen
  obtain ⟨j, rfl⟩ : ∃ j, k = j + 1 := ⟨k - 1, by simp [timeText] at hlen; omega⟩
  simp only [timeText, List.cons_append, List.append_assoc]
  rw [parseValue_quote, parseStringBody_plain_append (clockText_plain hh hm hs)]
  rfl

def printfText (s : Bytes) : Bytes := 34 :: (s ++ [34])

theorem jsonText_printfText {s : Bytes} (hs : s.all plainByte) : JsonText (printfText s) (.str s) := by
  intro k rest hlen
  obtain ⟨j, rfl⟩ : ∃ j, k = j + 1 := ⟨k - 1, by simp [printfText] at hlen; omega⟩
  simp only [printfText, List.cons_append, List.append_assoc, List.singleton_append, List.nil_append]
  rw [parseValue_str hs]

/-! ## Wire messages -/

/-- A message of the documented wire format. -/
inductive WireMsg where
  | attachedProbes (n : Nat)
  | time (hour minute second : Nat)
  | printf (s : Bytes)
  | lostEvents (n : Nat)
  | other (t d : Bytes) (v : JsonValue)

namespace WireMsg

/-- The message's line without its line end, in the fast path's layout. -/
def line : WireMsg → Bytes
  | attachedProbes n => attachedProbeKeyword ++ formatUint n ++ probesSuffix
  | time h m s => startTimeKeyword ++ clockText h m s ++ startTimeSuffix
  | printf s => printfKeyword ++ s ++ printfSuffix
  | lostEvents n => lostEventsKeyword ++ formatUint n ++ lostEventsSuffix
  | other t d _ => envelopeLine t d

/-- The text of the `type` string. -/
def typeName : WireMsg → Bytes
  | attachedProbes _ => ascii "attached_probes"
  | time .. => ascii "time"
  | printf _ => ascii "printf"
  | lostEvents _ => ascii "lost_events"
  | other t .. => t

/-- The text of the `data` value. -/
def dataText : WireMsg → Bytes
  | attachedProbes n => countText (ascii "probes") n
  | time h m s => timeText h m s
  | printf s => printfText s
  | lostEvents n => countText (ascii "events") n
  | other _ d _ => d

/-- The `data` value simdjson reads from `dataText`. -/
def data : WireMsg → JsonValue
  | attachedProbes n => .obj [(ascii "probes", .int n)]
  | time h m s => .str (clockText h m s ++ [10])
  | printf s => .str s
  | lostEvents n => .obj [(ascii "events", .int n)]
  | other _ _ v => v

/-- The envelope document simdjson reads from the line. -/
def doc (m : WireMsg) : JsonValue := .obj [(ascii "type", .str m.typeName), (ascii "data", m.data)]

/-- Messages both parsers read as written: counts in `int64` range, a clock time, `printf` text of
plain bytes, and other types with a plain name none of the four, whose data text simdjson reads
and holds no line end. -/
def Valid : WireMsg → Prop
  | attachedProbes n => n < 2 ^ 63
  | time h m s => h < 24 ∧ m < 60 ∧ s < 60
  | printf s => s.all plainByte
  | lostEvents n => n < 2 ^ 63
  | other t d v => t.all plainByte ∧ t ∉ rawTypes ∧ JsonText d v ∧ 10 ∉ d

/-- Every line is an envelope line: the fast path's keywords are the envelope's first bytes. -/
theorem line_eq_envelopeLine (m : WireMsg) : m.line = envelopeLine m.typeName m.dataText := by
  cases m <;> simp only [line, typeName, dataText, envelopeLine, countText, timeText, printfText,
    List.append_assoc, List.cons_append, List.singleton_append, List.nil_append] <;> rfl

theorem plain_typeName {m : WireMsg} (hv : m.Valid) : m.typeName.all plainByte := by
  cases m with
  | other t d v => exact hv.1
  | _ => simp only [typeName]; decide

theorem jsonText_dataText {m : WireMsg} (hv : m.Valid) : JsonText m.dataText m.data := by
  cases m with
  | attachedProbes n => exact jsonText_countText (by decide) n
  | time h m s =>
    obtain ⟨hh, hm, hs⟩ := hv
    exact jsonText_timeText (by omega) (by omega) (by omega)
  | printf s => exact jsonText_printfText hv
  | lostEvents n => exact jsonText_countText (by decide) n
  | other t d v => exact hv.2.2.1

theorem readEnvelope_doc (m : WireMsg) : readEnvelope m.doc = .ok (m.typeName, m.data) := rfl

end WireMsg

/-! ## Clock texts -/

theorem getnum_digitBytes {a b : Nat} (ha : a < 10) (hb : b < 10) (fixed : Bool) (rest : Bytes) :
    getnum (digitByte a :: digitByte b :: rest) fixed = some (a * 10 + b, rest) := by
  simp [getnum, isDigit_digitByte ha, isDigit_digitByte hb, digitByte_toNat ha, digitByte_toNat hb]

/-- `time.Parse(time.TimeOnly, ...)` reads a clock text as its time of day. -/
theorem parseTimeOnly_clockText {h m s : Nat} (hh : h < 24) (hm : m < 60) (hs : s < 60) :
    parseTimeOnly (clockText h m s) = .ok ⟨0, 1, 1, h, m, s, 0⟩ := by
  simp only [parseTimeOnly, clockText, getnum_digitBytes (show h / 10 < 10 by omega)
    (Nat.mod_lt h (by decide)), getnum_digitBytes (show m / 10 < 10 by omega) (Nat.mod_lt m (by decide)),
    getnum_digitBytes (show s / 10 < 10 by omega) (Nat.mod_lt s (by decide)), Nat.div_add_mod',
    if_neg (show ¬ 24 ≤ h by omega), if_neg (show ¬ 60 ≤ m by omega), if_neg (show ¬ 60 ≤ s by omega)]
  rfl

/-- Runes that all start with a byte other than a digit are not dropped from a text that starts
with a digit. -/
theorem dropRunes_digit {runes : List Bytes} (hr : ∀ r ∈ runes, r ≠ [] ∧ r.head?.all (!isDigit ·))
    {c : UInt8} (hc : isDigit c = true) (n : Nat) (rest : Bytes) :
    dropRunes runes n (c :: rest) = c :: rest := by
  cases n with
  | zero => rfl
  | succ n =>
    rw [dropRunes, List.find?_eq_none.2]
    intro r hmem
    obtain ⟨hne, hhead⟩ := hr r hmem
    obtain ⟨b, rs, rfl⟩ := List.exists_cons_of_ne_nil hne
    have hb : b ≠ c := by rintro rfl; simp [hc] at hhead
    simp [List.isPrefixOf, hb]

theorem spaceRunes_heads : ∀ r ∈ spaceRunes, r ≠ [] ∧ r.head?.all (!isDigit ·) := by decide

theorem spaceRunes_reverse_heads :
    ∀ r ∈ spaceRunes.map List.reverse, r ≠ [] ∧ r.head?.all (!isDigit ·) := by decide

/-- `strings.TrimSpace` takes the line end off a clock text and leaves the digits. -/
theorem trimSpace_clockText {h : Nat} (hh : h < 100) (m s : Nat) :
    trimSpace (clockText h m s ++ [10]) = clockText h m s := by
  have hd : ∀ d, d < 10 → isDigit (digitByte d) = true := fun _ => isDigit_digitByte
  have hleft : dropRunes spaceRunes 9 (clockText h m s ++ [10]) = clockText h m s ++ [10] :=
    dropRunes_digit spaceRunes_heads (hd _ (by omega)) _ _
  have hright : dropRunes (spaceRunes.map List.reverse) 9 (10 :: (clockText h m s).reverse) =
      (clockText h m s).reverse := by
    rw [dropRunes]
    exact dropRunes_digit spaceRunes_reverse_heads (hd _ (Nat.mod_lt s (by decide))) _ _
  have hlen : (clockText h m s ++ [10]).length = 9 := rfl
  simp only [trimSpace, hlen, hleft, List.reverse_append, List.reverse_singleton,
    List.singleton_append, hright, List.reverse_reverse]

/-! ## The fast path on wire lines -/

theorem hasPrefix_keyword (kw mid suf : Bytes) : hasPrefix (kw ++ mid ++ suf) kw = true :=
  (hasPrefix_iff _ _).2 (List.append_assoc kw mid suf ▸ List.prefix_append kw _)

/-- A line that starts with one keyword does not start with another when neither keyword starts
the other. -/
theorem hasPrefix_other_keyword {kw kw' : Bytes} (h₁ : hasPrefix kw kw' = false)
    (h₂ : hasPrefix kw' kw = false) (mid suf : Bytes) : hasPrefix (kw ++ mid ++ suf) kw' = false := by
  refine Bool.eq_false_iff.mpr fun h => ?_
  rcases List.prefix_or_prefix_of_prefix ((hasPrefix_iff _ _).1 h)
      (List.append_assoc kw mid suf ▸ List.prefix_append kw _) with h' | h'
  · exact absurd ((hasPrefix_iff _ _).2 h') (by simp [h₁])
  · exact absurd ((hasPrefix_iff _ _).2 h') (by simp [h₂])

theorem cutLine_keyword (kw mid suf : Bytes) : cutLine (kw ++ mid ++ suf) kw suf = .ok mid :=
  slice_prefix_suffix kw mid suf

namespace WireMsg

/-- The fast path cuts the count out of an `attached_probes` line. -/
theorem classifyLine_attachedProbes (n : Nat) :
    classifyLine (attachedProbes n).line = .ok (.attachedProbes (formatUint n)) := by
  rw [line, classifyLine, if_pos (hasPrefix_keyword _ _ _), cutLine_keyword]
  rfl

theorem classifyLine_time (h m s : Nat) :
    classifyLine (time h m s).line = .ok (.time (clockText h m s)) := by
  rw [line, classifyLine, hasPrefix_other_keyword (by decide) (by decide), if_neg Bool.false_ne_true,
    if_pos (hasPrefix_keyword _ _ _), cutLine_keyword]
  rfl

theorem classifyLine_printf (s : Bytes) : classifyLine (printf s).line = .ok (.printf s) := by
  rw [line, classifyLine, hasPrefix_other_keyword (by decide) (by decide), if_neg Bool.false_ne_true,
    hasPrefix_other_keyword (by decide) (by decide), if_neg Bool.false_ne_true,
    if_pos (hasPrefix_keyword _ _ _), cutLine_keyword]
  rfl

theorem classifyLine_lostEvents (n : Nat) :
    classifyLine (lostEvents n).line = .ok (.lostEvents (formatUint n)) := by
  rw [line, classifyLine, hasPrefix_other_keyword (by decide) (by decide), if_neg Bool.false_ne_true,
    hasPrefix_other_keyword (by decide) (by decide), if_neg Bool.false_ne_true,
    hasPrefix_other_keyword (by decide) (by decide), if_neg Bool.false_ne_true,
    if_pos (hasPrefix_keyword _ _ _), cutLine_keyword]
  rfl

end WireMsg

namespace WireMsg

/-- The fast path skips a line of another type. -/
theorem classifyLine_other {t d : Bytes} {v : JsonValue} (hv : (other t d v).Valid) :
    classifyLine (other t d v).line = .ok .unknown :=
  classifyLine_envelopeLine d (not_mem_of_all 34 hv.1 rfl) hv.2.1

theorem newline_not_mem_dataText {m : WireMsg} (hv : m.Valid) : 10 ∉ m.dataText := by
  cases m with
  | attachedProbes n | lostEvents n =>
    simp only [dataText, countText, List.mem_cons, List.mem_append, not_or,
      not_mem_of_all 10 (List.all_eq_true.2 (formatUint_digits n)) rfl, not_false_eq_true, and_true]
    decide
  | time h m s =>
    obtain ⟨hh, hm, hs⟩ := hv
    simp only [dataText, timeText, List.mem_cons, List.mem_append, not_or,
      not_mem_of_all 10 (clockText_plain (show h < 100 by omega) (show m < 100 by omega)
        (show s < 100 by omega)) rfl, not_false_eq_true, and_true]
    decide
  | printf s =>
    simp only [dataText, printfText, List.mem_cons, List.mem_append, not_or,
      not_mem_of_all 10 hv rfl, not_false_eq_true, and_true]
    decide
  | other t d v => exact hv.2.2.2

/-- A valid message's line holds no line end, so the scanner yields it whole. -/
theorem newline_not_mem_line {m : WireMsg} (hv : m.Valid) : 10 ∉ m.line := by
  rw [line_eq_envelopeLine]
  simp only [envelopeLine, List.mem_append, not_or, not_mem_of_all 10 (plain_typeName hv) rfl,
    newline_not_mem_dataText hv, not_false_eq_true, and_true, true_and]
  decide

theorem dropCR_line (m : WireMsg) : dropCR m.line = m.line := by
  rw [line_eq_envelopeLine, dropCR_envelopeLine]

end WireMsg

/-- Wire lines, each ended by a line end: what the tracer writes for `ms`. -/
def wireText (ms : List WireMsg) : Bytes := joinLines (ms.map WireMsg.line)

theorem wireText_cons (m : WireMsg) (ms : List WireMsg) :
    wireText (m :: ms) = m.line ++ 10 :: wireText ms := by
  simpa using joinLines_cons m.line (ms.map WireMsg.line) []

/-- The lines the scanner yields for wire lines shorter than its buffer are those lines, whatever
error the reader ends with. -/
theorem scanLines_wire {ms : List WireMsg} (hv : ∀ m ∈ ms, m.Valid ∧ m.line.length < maxScanTokenSize)
    (final : GoError) :
    scanLines ⟨wireText ms, final⟩ = (ms.map WireMsg.line, scanErr final) := by
  have h := scanLinesFrom_joinLines final (ms.map WireMsg.line) [] fun l hl => by
    obtain ⟨m, hm, rfl⟩ := List.mem_map.1 hl
    exact ⟨WireMsg.newline_not_mem_line (hv m hm).1, (hv m hm).2⟩
  have h0 : scanLinesFrom final [] [] = ([], scanErr final) := rfl
  rw [List.append_nil, h0, List.append_nil, List.map_map] at h
  rw [scanLines, wireText, h]
  simp only [Function.comp_def, WireMsg.dropCR_line]

/-! ## The structured path on wire texts -/

theorem envelopeLine_append (t d rest : Bytes) :
    envelopeLine t d ++ rest =
      123 :: 34 :: (ascii "type" ++ 34 :: 58 :: 32 :: 34 :: (t ++ 34 :: 44 :: 32 :: 34 ::
        (ascii "data" ++ 34 :: 58 :: 32 :: (d ++ 125 :: rest)))) := by
  have h1 : typeKeyword = 123 :: 34 :: (ascii "type" ++ [34, 58, 32, 34]) := rfl
  have h2 : ascii "\", \"data\": " = 34 :: 44 :: 32 :: 34 :: (ascii "data" ++ [34, 58, 32]) := rfl
  simp only [envelopeLine, h1, h2, List.append_assoc, List.cons_append, List.singleton_append,
    List.nil_append]

/-- simdjson reads an envelope line of a plain type name and a data text as the envelope. -/
theorem parseValue_envelopeLine {t d : Bytes} {v : JsonValue} (ht : t.all plainByte)
    (hd : JsonText d v) {n : Nat} (hn : d.length + 3 < n) (rest : Bytes) :
    parseValue n (envelopeLine t d ++ rest) =
      some (.obj [(ascii "type", .str t), (ascii "data", v)], rest) := by
  obtain ⟨m, rfl⟩ : ∃ m, n = m + 1 + 1 + 1 + 1 := ⟨n - 4, by omega⟩
  have htype : ∀ X, parseValue (m + 1 + 1) (32 :: 34 :: (t ++ 34 :: 44 :: X)) = some (.str t, 44 :: X) :=
    fun X => by rw [parseValue_ws_cons (by decide), parseValue_str ht]
  have hdata : parseValue (m + 1) (32 :: (d ++ 125 :: rest)) = some (v, 125 :: rest) := by
    rw [parseValue_ws_cons (by decide), hd _ _ (by omega)]
  rw [envelopeLine_append, parseValue_object, parseMembers_member_comma (by decide) [] (htype _),
    parseMembers_ws_cons (by decide), parseMembers_member_last (by decide) _ hdata]
  rfl


theorem parseDocs_envelopeLine {t d : Bytes} {v : JsonValue} (ht : t.all plainByte)
    (hd : JsonText d v) (n : Nat) (rest : Bytes) :
    parseDocs (n + 1) (envelopeLine t d ++ 10 :: rest) =
      (parseDocs n rest).map (.obj [(ascii "type", .str t), (ascii "data", v)] :: ·) := by
  have hv := parseValue_envelopeLine ht hd
    (show d.length + 3 < 2 * (envelopeLine t d ++ 10 :: rest).length + 2 by
      simp only [List.length_append, length_envelopeLine]; omega) (10 :: rest)
  rw [envelopeLine_append] at hv ⊢
  rw [parseDocs.eq_2, skipWs_cons_of_not_ws (show isWs 123 = false from rfl)]
  simp only [true_or, if_true, hv, parseDocs_ws_cons (show isWs 10 = true from rfl)]

/-- The documents of a wire text, given fuel beyond its length, are the messages' envelopes. -/
theorem parseDocs_wireText {ms : List WireMsg} (hv : ∀ m ∈ ms, m.Valid) {n : Nat}
    (hn : (wireText ms).length < n) : parseDocs n (wireText ms) = some (ms.map WireMsg.doc) := by
  induction ms generalizing n with
  | nil =>
    obtain ⟨k, rfl⟩ : ∃ k, n = k + 1 := ⟨n - 1, by omega⟩
    rfl
  | cons m ms ih =>
    have hm := hv m (List.mem_cons_self m ms)
    obtain ⟨k, rfl⟩ : ∃ k, n = k + 1 := ⟨n - 1, by omega⟩
    rw [wireText_cons, List.length_append, List.length_cons] at hn
    rw [wireText_cons, WireMsg.line_eq_envelopeLine,
      parseDocs_envelopeLine (WireMsg.plain_typeName hm) (WireMsg.jsonText_dataText hm),
      ih (fun m' h' => hv m' (List.mem_cons_of_mem m h')) (by omega)]
    rfl

/-- simdjson reads the wire text of valid messages as their documents, in order. -/
theorem parseNdjson_wireText {ms : List WireMsg} (hv : ∀ m ∈ ms, m.Valid) :
    parseNdjson (wireText ms) = some (ms.map WireMsg.doc) := by
  rw [parseNdjson, parseDocs_wireText hv (Nat.lt_succ_self _)]

/-- Wire texts cut into chunks of whole lines all parse, and their documents are the messages'
envelopes in order. -/
theorem chunkDocs_wireText {groups : List (List WireMsg)} (hv : ∀ g ∈ groups, ∀ m ∈ g, m.Valid) :
    chunkDocs (groups.map wireText) = groups.flatten.map WireMsg.doc ∧
      allParse (groups.map wireText) = true := by
  induction groups with
  | nil => exact ⟨rfl, rfl⟩
  | cons g gs ih =>
    obtain ⟨ih₁, ih₂⟩ := ih fun g' h' => hv g' (List.mem_cons_of_mem g h')
    have hg := parseNdjson_wireText (hv g (List.mem_cons_self g gs))
    simp only [List.map_cons, chunkDocs, hg, ih₁, List.flatten_cons, List.map_append]
    simpa [allParse, hg] using ih₂

end Bpfstream
