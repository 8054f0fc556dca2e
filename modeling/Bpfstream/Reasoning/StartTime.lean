import Bpfstream.VfsRaw
import Bpfstream.Count
import Bpfstream.Reasoning.Streams

/-!
# The start time: the first `time` message wins

On the structured path each dispatcher keeps a start time that only `handleTime` (or its inlined
copy) writes, and `handleTime` returns at once when the start time is set.  A parsed `TimeOnly`
value lies in year 0, so it is never the zero time: once a `time` message has been parsed every
later one is ignored, and a run that returns nil ends with the start time of the first `time`
message of its stream.  The fast path has no such check.
-/

namespace Bpfstream

/-- The `data` element of a message whose `type` is `time`. -/
def timeData? (doc : JsonValue) : Option JsonValue :=
  match readEnvelope doc with
  | .ok (typeStr, dataEl) => if typeStr = ascii "time" then some dataEl else none
  | .error _ => none

/-- The start time the data of a `time` message gives: a string that `time.Parse` accepts once
trimmed. -/
def parsedTime? (dataEl : JsonValue) : Option GoTime :=
  match iterString dataEl with
  | .ok s => (parseTimeOnly (trimSpace s)).toOption
  | .error _ => none

/-- The start time of the first `time` message of `docs`; zero when there is none. -/
def firstStartTime (docs : List JsonValue) : GoTime :=
  ((docs.findSome? timeData?).bind parsedTime?).getD GoTime.zero

theorem handleTime_of_not_isZero {t : GoTime} (h : t.isZero = false) (d : JsonValue) :
    NDJSONParser.handleTime t d = (t, .ok) := by
  simp [NDJSONParser.handleTime, h]

/-- The first `time` message accepted sets a start time that is not zero. -/
theorem handleTime_zero_ok {d : JsonValue} {t : GoTime}
    (h : NDJSONParser.handleTime GoTime.zero d = (t, .ok)) :
    parsedTime? d = some t ∧ t.isZero = false := by
  have hz : GoTime.zero.isZero = true := rfl
  simp only [NDJSONParser.handleTime, hz, Bool.not_true, Bool.false_eq_true, ↓reduceIte] at h
  unfold parsedTime?
  cases hs : iterString d with
  | error e => simp [hs] at h
  | ok s =>
    cases hp : parseTimeOnly (trimSpace s) with
    | error e => simp [hs, hp] at h
    | ok t' =>
      simp only [hs, hp, Prod.mk.injEq, and_true] at h
      subst h
      exact ⟨show (parseTimeOnly (trimSpace s)).toOption = _ by rw [hp]; rfl,
        parseTimeOnly_not_isZero hp⟩

/-! ## Callbacks that keep a start time -/

section TimeStep

variable {σ : Type} (getT : σ → GoTime) (step : σ → JsonValue → σ × Ret)

/-- A callback whose start time (read by `getT`) only `time` messages change, as `handleTime`
does, and which returns what `handleTime` returns on them. -/
def TimeStep : Prop :=
  ∀ s doc, match timeData? doc with
    | some d => getT (step s doc).1 = (NDJSONParser.handleTime (getT s) d).1 ∧
        (step s doc).2 = (NDJSONParser.handleTime (getT s) d).2
    | none => getT (step s doc).1 = getT s

variable {getT step}

/-- Once the start time is set, no step changes it. -/
theorem TimeStep.getT_of_set (hs : TimeStep getT step) {s : σ} (hz : (getT s).isZero = false)
    (doc : JsonValue) : getT (step s doc).1 = getT s := by
  have h := hs s doc
  cases hd : timeData? doc with
  | none => simpa only [hd] using h
  | some d =>
    simp only [hd, handleTime_of_not_isZero hz] at h
    exact h.1

/-- Once the start time is set, a `time` message does not fail. -/
theorem TimeStep.ok_of_set (hs : TimeStep getT step) {s : σ} (hz : (getT s).isZero = false)
    {doc d : JsonValue} (hd : timeData? doc = some d) : (step s doc).2 = .ok := by
  have h := hs s doc
  simp only [hd, handleTime_of_not_isZero hz] at h
  exact h.2

/-- Once the start time is set, a run keeps it. -/
theorem TimeStep.loop_of_set (hs : TimeStep getT step) {s : σ} (hz : (getT s).isZero = false)
    (docs : List JsonValue) : getT (loop step s docs).1 = getT s := by
  induction docs generalizing s with
  | nil => rfl
  | cons doc docs ih =>
    have hkeep := hs.getT_of_set hz doc
    by_cases hr : (step s doc).2 = .ok
    · rw [loop_cons_ok step (Prod.ext rfl hr), ih (hkeep ▸ hz), hkeep]
    · rw [loop_cons_stop step hr, hkeep]

/-- A run from the zero time that returns nil ends with the start time of the first `time`
message. -/
theorem TimeStep.loop_ok_of_zero (hs : TimeStep getT step) {s s' : σ} {docs : List JsonValue}
    (hz : getT s = GoTime.zero) (h : loop step s docs = (s', .ok)) :
    getT s' = firstStartTime docs := by
  induction docs generalizing s with
  | nil =>
    simp only [loop_nil, Prod.mk.injEq, and_true] at h
    rw [← h, hz]; rfl
  | cons doc docs ih =>
    have hr : (step s doc).2 = .ok := by
      by_contra hr
      rw [loop_cons_stop step hr] at h
      exact hr (congrArg Prod.snd h)
    rw [loop_cons_ok step (Prod.ext rfl hr)] at h
    have hstep := hs s doc
    cases hd : timeData? doc with
    | none =>
      simp only [hd] at hstep
      rw [ih (hstep.trans hz) h]
      simp only [firstStartTime, List.findSome?_cons, hd]
    | some d =>
      simp only [hd, hz] at hstep
      obtain ⟨hp, hnz⟩ := handleTime_zero_ok (Prod.ext hstep.1.symm (hstep.2.symm.trans hr))
      have hend := hs.loop_of_set hnz docs
      rw [h] at hend
      rw [hend]
      simp [firstStartTime, List.findSome?_cons, hd, hp]

/-- The same for a whole `range res` loop over the chunks of a reader. -/
theorem TimeStep.rangeStreams_ok_of_zero (hs : TimeStep getT step) {s s' : σ}
    {chunks : List Bytes} {final : GoError} (hz : getT s = GoTime.zero)
    (h : rangeStreams step s (parseNDStream chunks final) = (s', .ok)) :
    getT s' = firstStartTime (chunkDocs chunks) := by
  exact hs.loop_ok_of_zero hz (rangeStreams_parseNDStream_eq_ok_iff.mp h).2.2

end TimeStep

/-! ## The three dispatchers of the structured path -/

theorem onDoc_timeStep {σ : Type} (handler : MessageHandler σ) :
    TimeStep (fun s : NDJSONParser × σ => s.1.startTime) (NDJSONParser.onDoc handler) := by
  rintro ⟨p, h⟩ doc
  simp only [NDJSONParser.onDoc, NDJSONParser.onDocLogged, timeData?]
  rcases readEnvelope doc with e | ⟨typeStr, dataEl⟩
  · rfl
  · by_cases ht : typeStr = ascii "time"
    · subst ht; simp [time_ne_attached_probes]
    · simp only [ht, if_false]
      split_ifs <;> rfl

theorem jsonParseThenAppendOnDoc_timeStep (appendRow : AppendRowFn) :
    TimeStep Prod.fst (jsonParseThenAppendOnDoc appendRow) := by
  rintro ⟨t, rows⟩ doc
  simp only [jsonParseThenAppendOnDoc, timeData?]
  rcases readEnvelope doc with e | ⟨typeStr, dataEl⟩
  · rfl
  · by_cases ht : typeStr = ascii "time"
    · subst ht; simp [time_ne_attached_probes]
    · simp only [ht, if_false]
      split_ifs <;> rfl

theorem vfsCountOnDoc_timeStep : TimeStep Prod.fst vfsCountOnDoc := by
  rintro ⟨t, total, n⟩ doc
  simp only [vfsCountOnDoc, timeData?]
  rcases readEnvelope doc with e | ⟨typeStr, dataEl⟩
  · rfl
  · by_cases ht : typeStr = ascii "time"
    · subst ht; simp [time_ne_attached_probes]
    · simp only [ht, if_false]
      split_ifs <;> rfl

/-- On the structured path the first `time` message sets the start time for good: once it is
set, a `time` message neither fails nor changes it, and a run that returns nil ends with the
start time of the first `time` message of its stream. -/
theorem structured_time_first_wins :
    (∀ {σ : Type} (handler : MessageHandler σ) (p : NDJSONParser) (h : σ) (doc d : JsonValue),
      timeData? doc = some d → p.startTime.isZero = false →
      (NDJSONParser.onDoc handler (p, h) doc).2 = .ok ∧
        (NDJSONParser.onDoc handler (p, h) doc).1.1.startTime = p.startTime) ∧
    (∀ {σ : Type} (handler : MessageHandler σ) (p p' : NDJSONParser) (s s' : σ) chunks final,
      p.startTime = GoTime.zero → NDJSONParser.parseStream p chunks final handler s = ((p', s'), .ok) →
      p'.startTime = firstStartTime (chunkDocs chunks)) ∧
    (∀ appendRow t rows doc d, timeData? doc = some d → t.isZero = false →
      (jsonParseThenAppendOnDoc appendRow (t, rows) doc).2 = .ok ∧
        (jsonParseThenAppendOnDoc appendRow (t, rows) doc).1.1 = t) ∧
    (∀ chunks final appendRow t rows, jsonParseThenAppend chunks final appendRow = ((t, rows), .ok) →
      t = firstStartTime (chunkDocs chunks)) ∧
    (∀ t st doc d, timeData? doc = some d → t.isZero = false →
      (vfsCountOnDoc (t, st) doc).2 = .ok ∧ (vfsCountOnDoc (t, st) doc).1.1 = t) ∧
    (∀ chunks final t st, vfsCountCmd chunks final = ((t, st), .ok) →
      t = firstStartTime (chunkDocs chunks)) :=
  ⟨fun handler p h _ _ hd hz => ⟨(onDoc_timeStep handler).ok_of_set (s := (p, h)) hz hd,
      (onDoc_timeStep handler).getT_of_set (s := (p, h)) hz _⟩,
    fun handler _ _ _ _ _ _ hz h => (onDoc_timeStep handler).rangeStreams_ok_of_zero hz h,
    fun appendRow t rows _ _ hd hz =>
      ⟨(jsonParseThenAppendOnDoc_timeStep appendRow).ok_of_set (s := (t, rows)) hz hd,
        (jsonParseThenAppendOnDoc_timeStep appendRow).getT_of_set (s := (t, rows)) hz _⟩,
    fun _ _ appendRow _ _ h => (jsonParseThenAppendOnDoc_timeStep appendRow).rangeStreams_ok_of_zero rfl h,
    fun t st _ _ hd hz => ⟨vfsCountOnDoc_timeStep.ok_of_set (s := (t, st)) hz hd,
      vfsCountOnDoc_timeStep.getT_of_set (s := (t, st)) hz _⟩,
    fun _ _ _ _ h => vfsCountOnDoc_timeStep.rangeStreams_ok_of_zero rfl h⟩

/-! ## The fast path -/

set_option maxRecDepth 20000 in
/-- On the fast path every `time` line is parsed again: a second one replaces the start time of
`SimpleLineParser`, and one that does not parse ends either fast-path loop with its error. -/
theorem fast_path_time_not_first_wins :
    (SimpleLineParser.parseLines {} ⟨ascii ("\x7b\"type\": \"time\", \"data\": \"12:34:56\\n\"\x7d\n" ++
      "\x7b\"type\": \"time\", \"data\": \"01:02:03\\n\"\x7d\n"), .eof⟩
      (fun _ _ => none)).1.1.startTime = ⟨0, 1, 1, 1, 2, 3, 0⟩ ∧
    (SimpleLineParser.parseLines {} ⟨ascii ("\x7b\"type\": \"time\", \"data\": \"12:34:56\\n\"\x7d\n" ++
      "\x7b\"type\": \"time\", \"data\": \"1:2:3\\n\"\x7d\n"), .eof⟩ (fun _ _ => none)).2 ≠ .ok ∧
    (simpleParseThenAppend ⟨ascii ("\x7b\"type\": \"time\", \"data\": \"12:34:56\\n\"\x7d\n" ++
      "\x7b\"type\": \"time\", \"data\": \"1:2:3\\n\"\x7d\n"), .eof⟩ (fun _ _ => none)).2 ≠ .ok := by
  decide

end Bpfstream
