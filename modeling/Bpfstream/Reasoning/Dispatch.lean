import Bpfstream.VfsRaw
import Bpfstream.Reasoning.Aggregate

/-!
# The inlined dispatch loops against `ParseStream`

`jsonParseThenAppend` and `vfsCountCmd` each carry a copy of `ParseStream`'s loop with the
domain handler inlined.  The copy in `jsonParseThenAppend` is exact: it runs step for step as
`ParseStream` with a handler that does its `printf` case.  The copy in `vfsCountCmd` has no
`lost_events` case, so it agrees with `ParseStream` and the `map` handler only on streams whose
`lost_events` messages carry an int64 `events` member.
-/

namespace Bpfstream

/-- A handler doing the `printf` case of `jsonParseThenAppend`: the data decoded into a
`vfsEvent` and handed to `appendRow`, every other type skipped with a warning. -/
def vfsRawHandler (appendRow : AppendRowFn) : MessageHandler (List VfsEvent) :=
  fun rows typeStr dataEl =>
    if typeStr = ascii "printf" then jsonPrintf appendRow rows dataEl else (rows, .ok)

/-- One document: `jsonParseThenAppend`'s callback is `ParseStream`'s with `vfsRawHandler`, the
parser seen through its start time. -/
theorem jsonParseThenAppendOnDoc_eq (appendRow : AppendRowFn) (p : NDJSONParser)
    (rows : List VfsEvent) (doc : JsonValue) :
    jsonParseThenAppendOnDoc appendRow (p.startTime, rows) doc =
      (((NDJSONParser.onDoc (vfsRawHandler appendRow) (p, rows) doc).1.1.startTime,
        (NDJSONParser.onDoc (vfsRawHandler appendRow) (p, rows) doc).1.2),
        (NDJSONParser.onDoc (vfsRawHandler appendRow) (p, rows) doc).2) := by
  simp only [jsonParseThenAppendOnDoc, NDJSONParser.onDoc, NDJSONParser.onDocLogged]
  rcases readEnvelope doc with e | ⟨typeStr, dataEl⟩
  · rfl
  · by_cases hp : typeStr = ascii "printf"
    · subst hp
      simp [printf_ne_attached_probes, printf_ne_time, printf_ne_lost_events, vfsRawHandler]
    · simp only [hp, if_false, vfsRawHandler]
      split_ifs <;> rfl

/-- `jsonParseThenAppend(r, appendRow)` is `ParseStream(r, h)` for the handler `h` that decodes
`printf` data and calls `appendRow`: the same rows, in the same order, the same start time and
the same error. -/
theorem jsonParseThenAppend_eq_parseStream (chunks : List Bytes) (final : GoError)
    (appendRow : AppendRowFn) :
    jsonParseThenAppend chunks final appendRow =
      (((NDJSONParser.parseStream {} chunks final (vfsRawHandler appendRow) []).1.1.startTime,
        (NDJSONParser.parseStream {} chunks final (vfsRawHandler appendRow) []).1.2),
        (NDJSONParser.parseStream {} chunks final (vfsRawHandler appendRow) []).2) :=
  rangeStreams_map (fun s : NDJSONParser × List VfsEvent => (s.1.startTime, s.2))
    (fun s doc _ => jsonParseThenAppendOnDoc_eq appendRow s.1 s.2 doc) ({}, [])

/-! ## `vfsCountCmd` -/

/-- The `data` element of a message whose `type` is `lost_events`. -/
def lostEventsData? (doc : JsonValue) : Option JsonValue :=
  match readEnvelope doc with
  | .ok (typeStr, dataEl) => if typeStr = ascii "lost_events" then some dataEl else none
  | .error _ => none

/-- One document that is not a malformed `lost_events` message: `vfsCountCmd`'s callback is
`ParseStream`'s with the `map` handler over `Event`, the parser seen through its start time. -/
theorem vfsCountOnDoc_eq {p : NDJSONParser} {st : Event × Nat} {doc : JsonValue}
    (hl : ∀ d, lostEventsData? doc = some d → NDJSONParser.handleLostEvents d = .ok) :
    vfsCountOnDoc (p.startTime, st) doc =
      (((NDJSONParser.onDoc (countHandler Event.fill Counts.zero Counts.add) (p, st) doc).1.1.startTime,
        (NDJSONParser.onDoc (countHandler Event.fill Counts.zero Counts.add) (p, st) doc).1.2),
        (NDJSONParser.onDoc (countHandler Event.fill Counts.zero Counts.add) (p, st) doc).2) := by
  obtain ⟨total, n⟩ := st
  simp only [vfsCountOnDoc, NDJSONParser.onDoc, NDJSONParser.onDocLogged]
  rcases henv : readEnvelope doc with e | ⟨typeStr, dataEl⟩
  · rfl
  · by_cases hle : typeStr = ascii "lost_events"
    · subst hle
      have hok := hl dataEl (by simp [lostEventsData?, henv])
      simp [lost_events_ne_attached_probes, lost_events_ne_time, map_ne_lost_events.symm, hok]
    · by_cases hm : typeStr = ascii "map"
      · subst hm
        simp [map_ne_attached_probes, map_ne_time, map_ne_lost_events, countHandler]
      · simp only [hle, hm, if_false, countHandler]
        split_ifs <;> rfl

/-- On a stream whose `lost_events` messages all carry an int64 `events` member, `vfsCountCmd`'s
loop ends as `ParseStream` with the `map` handler over `Event` does: the same `totalEvent`,
`intervalCount`, start time and error. -/
theorem vfsCountCmd_eq_parseStream (chunks : List Bytes) (final : GoError)
    (hl : ∀ doc ∈ chunkDocs chunks, ∀ d, lostEventsData? doc = some d →
      NDJSONParser.handleLostEvents d = .ok) :
    vfsCountCmd chunks final =
      (((NDJSONParser.parseStream {} chunks final (countHandler Event.fill Counts.zero Counts.add)
          (Counts.zero, 0)).1.1.startTime,
        (NDJSONParser.parseStream {} chunks final (countHandler Event.fill Counts.zero Counts.add)
          (Counts.zero, 0)).1.2),
        (NDJSONParser.parseStream {} chunks final (countHandler Event.fill Counts.zero Counts.add)
          (Counts.zero, 0)).2) :=
  rangeStreams_map (fun s : NDJSONParser × (Event × Nat) => (s.1.startTime, s.2))
    (fun _ doc hd => vfsCountOnDoc_eq (hl doc ((streamDocs_parseNDStream_isPrefix chunks final).subset hd)))
    ({}, (Counts.zero, 0))

theorem vfsCountCmd_eq_parseStream_lost_events :
    vfsCountCmd [ascii "\x7b\"type\": \"lost_events\", \"data\": \x7b\"events\": 5\x7d\x7d\n"] .eof =
      (((NDJSONParser.parseStream {} [ascii "\x7b\"type\": \"lost_events\", \"data\": \x7b\"events\": 5\x7d\x7d\n"]
          .eof (countHandler Event.fill Counts.zero Counts.add) (Counts.zero, 0)).1.1.startTime,
        (NDJSONParser.parseStream {} [ascii "\x7b\"type\": \"lost_events\", \"data\": \x7b\"events\": 5\x7d\x7d\n"]
          .eof (countHandler Event.fill Counts.zero Counts.add) (Counts.zero, 0)).1.2),
        (NDJSONParser.parseStream {} [ascii "\x7b\"type\": \"lost_events\", \"data\": \x7b\"events\": 5\x7d\x7d\n"]
          .eof (countHandler Event.fill Counts.zero Counts.add) (Counts.zero, 0)).2) :=
  vfsCountCmd_eq_parseStream _ _ fun doc hdoc d hd => by
    have hdocs : chunkDocs [ascii "\x7b\"type\": \"lost_events\", \"data\": \x7b\"events\": 5\x7d\x7d\n"] =
        [.obj [(ascii "type", .str (ascii "lost_events")), (ascii "data", .obj [(ascii "events", .int 5)])]] := by
      rfl
    rw [hdocs, List.mem_singleton] at hdoc
    subst hdoc
    cases hd
    rfl

set_option maxRecDepth 20000 in
/-- `{"type": "lost_events", "data": {}}`: `vfsCountCmd`'s loop skips it, while `ParseStream` with
the `map` handler fails on the missing `events` member. -/
theorem vfsCountCmd_skips_malformed_lost_events :
    vfsCountCmd [ascii "\x7b\"type\": \"lost_events\", \"data\": \x7b\x7d\x7d\n"] .eof =
      ((GoTime.zero, Counts.zero, 0), .ok) ∧
    (countParseStream Event.fill Counts.zero Counts.add
      [ascii "\x7b\"type\": \"lost_events\", \"data\": \x7b\x7d\x7d\n"] .eof).2 =
      .err (.wrap "failed to find 'events' element" errPathNotFound) := by
  decide

end Bpfstream
