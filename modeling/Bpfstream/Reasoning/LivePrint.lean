import Bpfstream.Action
import Bpfstream.Reasoning.Aggregate

/-!
# What the count commands print

The callback of an `Action` does what the callback of its parse does (`CountStep`); besides, it
writes the events it logs, and in live mode it prints each snapshot `Fill` reads, numbered by the
interval count (`LiveStep`).  Leaving the log lines aside (`printsOf`), a run that ends normally
has printed the live blocks of all the snapshots and then the summary of their sum; a run that
stops at a document has printed the live blocks of the snapshots before it and no total; a run
that accepts every document it reaches but whose stream ends with an error has printed the live
blocks of all of them and no total.  In every case it returns what the parse alone returns.
-/

namespace Bpfstream

variable {C : Type}

/-- The blocks live mode prints for the snapshots `snaps`, numbered from `k`. -/
def numberedBlocks : Nat → List C → List (CountPrint C)
  | _, [] => []
  | k, e :: es => .block e k :: numberedBlocks (k + 1) es

theorem numberedBlocks_append (k : Nat) (l : List C) (e : C) :
    numberedBlocks k (l ++ [e]) = numberedBlocks k l ++ [.block e (k + l.length)] := by
  induction l generalizing k with
  | nil => rfl
  | cons a l ih =>
    rw [List.cons_append, numberedBlocks, ih, numberedBlocks, List.length_cons, List.cons_append,
      Nat.add_assoc, Nat.add_comm 1]

/-- What live mode has printed for the snapshots `snaps`: one block per snapshot, numbered from 1,
and nothing without live mode. -/
def liveBlocks (live : Bool) (snaps : List C) : List (CountPrint C) :=
  if live then numberedBlocks 1 snaps else []

theorem liveBlocks_append (live : Bool) (l : List C) (e : C) :
    liveBlocks live (l ++ [e]) =
      liveBlocks live l ++ if live then [.block e (l.length + 1)] else [] := by
  cases live
  · rfl
  · simp only [liveBlocks, if_true, numberedBlocks_append, Nat.add_comm 1]

theorem snapshots_append_none {fill : C → JsonValue → Except GoError C} {zero : C}
    {doc : JsonValue} (h : mapData? doc = none) (pre : List JsonValue) :
    snapshots fill zero (pre ++ [doc]) = snapshots fill zero pre := by
  simp [snapshots, mapDatas, List.filterMap_append, h]

theorem snapshots_append_ok {fill : C → JsonValue → Except GoError C} {zero : C}
    {doc d : JsonValue} {ev : C} (h : mapData? doc = some d) (hf : fill zero d = .ok ev)
    (pre : List JsonValue) :
    snapshots fill zero (pre ++ [doc]) = snapshots fill zero pre ++ [ev] := by
  simp [snapshots, mapDatas, List.filterMap_append, h, hf, Except.toOption]

/-! ## Runs of an `Action`'s callback -/

theorem printsOf_printSummary (live : Bool) (total : C) (intervals : Nat) :
    printsOf (printSummary live total intervals) = printSummary live total intervals := by
  unfold printSummary
  split_ifs <;> rfl

section LiveStep

variable {τ : Type} (fill : C → JsonValue → Except GoError C) (fillLog : JsonValue → List LogEvent)
  (zero : C) (add : C → C → C) (live : Bool) (other : τ → JsonValue → τ × Ret)
  (otherLog : τ → JsonValue → List LogEvent)

/-- A callback of a count command's `Action`: a `map` message goes to `liveCountMap`, every other
message to `other`, which neither reads nor writes the counts or what has been written, while the
events `otherLog` gives are logged. -/
def LiveStep
    (step : τ × ((C × Nat) × List (CountPrint C)) → JsonValue →
      (τ × ((C × Nat) × List (CountPrint C))) × Ret) : Prop :=
  ∀ t st doc, step (t, st) doc =
    match mapData? doc with
    | some d => ((t, (liveCountMap fill fillLog zero add live st d).1),
        (liveCountMap fill fillLog zero add live st d).2)
    | none => (((other t doc).1, writeLogs st (otherLog t doc)), (other t doc).2)

/-- What a run has done after the documents `pre`: the total and the interval count are the sum
and the number of the snapshots, and live mode has printed each snapshot. -/
def Printed (pre : List JsonValue) (st : (C × Nat) × List (CountPrint C)) : Prop :=
  st.1.1 = (snapshots fill zero pre).foldl add zero ∧ st.1.2 = (snapshots fill zero pre).length ∧
    printsOf st.2 = liveBlocks live (snapshots fill zero pre)

/-- What an `Action` printed besides its log lines, `printsOf res.1`, for how it ended, `res.2`,
after its parse over `chunks` read by a reader that ended with `final`: on nil, the live blocks of
all the snapshots and then the summary of their sum and number; on an error, either the live
blocks of the snapshots before the document it stopped at, or, when it accepted every document it
reached and returns the error the stream itself ended with, the live blocks of all of them. -/
def PrintsRun (chunks : List Bytes) (final : GoError) (res : List (CountPrint C) × Ret) : Prop :=
  (res.2 = .ok → printsOf res.1 = liveBlocks live (snapshots fill zero (chunkDocs chunks)) ++
    printSummary live ((snapshots fill zero (chunkDocs chunks)).foldl add zero)
      (snapshots fill zero (chunkDocs chunks)).length) ∧
  (res.2 ≠ .ok →
    (∃ pre doc post, chunkDocs (parsedChunks chunks final) = pre ++ doc :: post ∧
      printsOf res.1 = liveBlocks live (snapshots fill zero pre)) ∨
    (printsOf res.1 = liveBlocks live (snapshots fill zero (chunkDocs (parsedChunks chunks final))) ∧
      res.2 = streamEnd (parseNDStream chunks final)))

variable {fill fillLog zero add live other otherLog}
variable {step : τ × ((C × Nat) × List (CountPrint C)) → JsonValue →
  (τ × ((C × Nat) × List (CountPrint C))) × Ret}

theorem LiveStep.printed_step (hs : LiveStep fill fillLog zero add live other otherLog step)
    {pre : List JsonValue} {t : τ} {st : (C × Nat) × List (CountPrint C)}
    (hp : Printed fill zero add live pre st) (doc : JsonValue) (hok : (step (t, st) doc).2 = .ok) :
    Printed fill zero add live (pre ++ [doc]) (step (t, st) doc).1.2 := by
  obtain ⟨htot, hn, hout⟩ := hp
  rw [hs] at hok ⊢
  unfold Printed
  cases hm : mapData? doc with
  | none =>
    simp only [hm, writeLogs, snapshots_append_none hm, printsOf_append, printsOf_map_log,
      List.append_nil]
    exact ⟨htot, hn, hout⟩
  | some d =>
    simp only [hm, liveCountMap] at hok ⊢
    cases hf : fill zero d with
    | error e => simp [hf] at hok
    | ok ev =>
      simp only [hf, snapshots_append_ok hm hf, List.foldl_append, List.foldl_cons,
        List.foldl_nil, List.length_append, List.length_singleton, liveBlocks_append]
      refine ⟨by rw [htot], by rw [hn], ?_⟩
      rw [← hout, hn]
      cases live <;> simp [printsOf, CountPrint.isLog, List.filter_map, Function.comp_def]

/-- A step that stops leaves the counts and what has been printed as they were. -/
theorem LiveStep.stop (hs : LiveStep fill fillLog zero add live other otherLog step) (t : τ)
    (st : (C × Nat) × List (CountPrint C)) (doc : JsonValue) (hne : (step (t, st) doc).2 ≠ .ok) :
    (step (t, st) doc).1.2.1 = st.1 ∧ printsOf (step (t, st) doc).1.2.2 = printsOf st.2 := by
  rw [hs] at hne ⊢
  cases hm : mapData? doc with
  | none => simp [writeLogs]
  | some d =>
    simp only [hm, liveCountMap] at hne ⊢
    cases hf : fill zero d with
    | error e => simp
    | ok ev => simp [hf] at hne

/-- Without what it writes, the callback of an `Action` is the callback of its parse. -/
theorem LiveStep.forget (hs : LiveStep fill fillLog zero add live other otherLog step)
    {step' : τ × (C × Nat) → JsonValue → (τ × (C × Nat)) × Ret}
    (hc : CountStep fill zero add other step') (t : τ) (st : (C × Nat) × List (CountPrint C))
    (doc : JsonValue) :
    step' (t, st.1) doc =
      (((step (t, st) doc).1.1, (step (t, st) doc).1.2.1), (step (t, st) doc).2) := by
  rw [hs, hc]
  cases mapData? doc with
  | none => rfl
  | some d =>
    simp only [liveCountMap, countMap]
    cases fill zero d <;> rfl

/-- A whole run of an `Action`'s callback from the zero counts: it ends as the run of its parse
does; when that is normally, the counts and the live blocks are those of all the snapshots; when
it stopped at a document, live mode has printed the blocks of the snapshots before it; and when it
accepted every document it reached, the blocks of all of them, and it returns the error the stream
ended with. -/
theorem LiveStep.run (hs : LiveStep fill fillLog zero add live other otherLog step)
    {step' : τ × (C × Nat) → JsonValue → (τ × (C × Nat)) × Ret}
    (hc : CountStep fill zero add other step') (chunks : List Bytes) (final : GoError) (t : τ) :
    (rangeStreams step (t, ((zero, 0), [])) (parseNDStream chunks final)).2 =
        (rangeStreams step' (t, (zero, 0)) (parseNDStream chunks final)).2 ∧
      ((rangeStreams step (t, ((zero, 0), [])) (parseNDStream chunks final)).2 = .ok →
        Printed fill zero add live (chunkDocs chunks)
          (rangeStreams step (t, ((zero, 0), [])) (parseNDStream chunks final)).1.2) ∧
      ((rangeStreams step (t, ((zero, 0), [])) (parseNDStream chunks final)).2 ≠ .ok →
        (∃ pre doc post, chunkDocs (parsedChunks chunks final) = pre ++ doc :: post ∧
          printsOf (rangeStreams step (t, ((zero, 0), [])) (parseNDStream chunks final)).1.2.2 =
            liveBlocks live (snapshots fill zero pre)) ∨
        (printsOf (rangeStreams step (t, ((zero, 0), [])) (parseNDStream chunks final)).1.2.2 =
            liveBlocks live (snapshots fill zero (chunkDocs (parsedChunks chunks final))) ∧
          (rangeStreams step (t, ((zero, 0), [])) (parseNDStream chunks final)).2 =
            streamEnd (parseNDStream chunks final))) := by
  have hsame : rangeStreams step' (t, (zero, 0)) (parseNDStream chunks final) =
      (((rangeStreams step (t, ((zero, 0), [])) (parseNDStream chunks final)).1.1,
        (rangeStreams step (t, ((zero, 0), [])) (parseNDStream chunks final)).1.2.1),
        (rangeStreams step (t, ((zero, 0), [])) (parseNDStream chunks final)).2) :=
    rangeStreams_map (fun s : τ × ((C × Nat) × List (CountPrint C)) => (s.1, s.2.1))
      (fun s doc _ => hs.forget hc s.1 s.2 doc) (t, ((zero, 0), []))
  have hinv := loop_inv step (P := fun pre s => Printed fill zero add live pre s.2)
    (s := (t, ((zero, 0), []))) ⟨rfl, rfl, by cases live <;> rfl⟩
    (fun pre doc s hp hok => hs.printed_step hp doc hok) (chunkDocs (parsedChunks chunks final))
  have hend := streamEnd_parseNDStream_eq_ok chunks final
  refine ⟨by rw [hsame], ?_⟩
  rw [rangeStreams_eq, streamDocs_parseNDStream]
  by_cases hok : (loop step (t, ((zero, 0), [])) (chunkDocs (parsedChunks chunks final))).2 = .ok
  · rw [if_pos hok]
    refine ⟨fun h => ?_, fun _ => .inr ⟨(hinv.1 hok).2.2, rfl⟩⟩
    obtain ⟨-, rfl⟩ := hend.1 h
    simpa using hinv.1 hok
  · rw [if_neg hok]
    refine ⟨fun h => absurd h hok, fun _ => .inl ?_⟩
    obtain ⟨pre, doc, post, s, hsplit, hp, hrun⟩ := hinv.2 hok
    refine ⟨pre, doc, post, hsplit, ?_⟩
    rw [hrun, (hs.stop s.1 s.2 doc (by rw [← hrun]; exact hok)).2]
    exact hp.2.2

/-- What a callback of an `Action` has written stays written. -/
theorem LiveStep.out_isPrefix (hs : LiveStep fill fillLog zero add live other otherLog step) (t : τ)
    (st : (C × Nat) × List (CountPrint C)) (doc : JsonValue) : st.2 <+: (step (t, st) doc).1.2.2 := by
  rw [hs]
  cases mapData? doc with
  | none => exact List.prefix_append _ _
  | some d =>
    simp only [liveCountMap]
    cases fill zero d with
    | error e => exact List.prefix_append _ _
    | ok ev => cases live <;> simp [List.append_assoc]

theorem LiveStep.loop_out_isPrefix (hs : LiveStep fill fillLog zero add live other otherLog step) :
    ∀ (docs : List JsonValue) (t : τ) (st : (C × Nat) × List (CountPrint C)),
      st.2 <+: (loop step (t, st) docs).1.2.2
  | [], _, _ => List.prefix_rfl
  | doc :: docs, t, st => by
    have hp := hs.out_isPrefix t st doc
    rcases h : step (t, st) doc with ⟨⟨t', st'⟩, r⟩
    rw [h] at hp
    cases r with
    | ok => simpa [loop, h] using hp.trans (hs.loop_out_isPrefix docs t' st')
    | err e => simpa [loop, h] using hp
    | panic q => simpa [loop, h] using hp

/-- A run whose first document goes to `other`, which accepts it, has written what `otherLog`
gives for it before anything else. -/
theorem LiveStep.first_logs (hs : LiveStep fill fillLog zero add live other otherLog step)
    {chunks : List Bytes} {final : GoError} {doc : JsonValue} {rest : List JsonValue}
    (hdocs : chunkDocs (parsedChunks chunks final) = doc :: rest) (hm : mapData? doc = none) (t : τ)
    (hok : (other t doc).2 = .ok) :
    (otherLog t doc).map .log <+:
      (rangeStreams step (t, ((zero, 0), [])) (parseNDStream chunks final)).1.2.2 := by
  have hstep : step (t, ((zero, 0), [])) doc =
      (((other t doc).1, writeLogs ((zero, 0), []) (otherLog t doc)), .ok) := by
    rw [hs, hm]
    exact Prod.ext rfl hok
  have hpre := hs.loop_out_isPrefix rest (other t doc).1 (writeLogs ((zero, 0), []) (otherLog t doc))
  rw [rangeStreams_eq, streamDocs_parseNDStream, hdocs, loop_cons_ok _ hstep]
  split <;> simpa [writeLogs] using hpre

theorem finishAction_snd (out : List (CountPrint C)) (st : C × Nat) (r : Ret) :
    (finishAction live out st r).2 = r := by
  cases r <;> rfl

/-- An `Action` prints and returns what its callback's run has done. -/
theorem LiveStep.prints (hs : LiveStep fill fillLog zero add live other otherLog step)
    {step' : τ × (C × Nat) → JsonValue → (τ × (C × Nat)) × Ret}
    (hc : CountStep fill zero add other step') (chunks : List Bytes) (final : GoError) (t : τ) :
    PrintsRun fill zero add live chunks final
        (finishAction live (rangeStreams step (t, ((zero, 0), [])) (parseNDStream chunks final)).1.2.2
          (rangeStreams step (t, ((zero, 0), [])) (parseNDStream chunks final)).1.2.1
          (rangeStreams step (t, ((zero, 0), [])) (parseNDStream chunks final)).2) ∧
      (rangeStreams step (t, ((zero, 0), [])) (parseNDStream chunks final)).2 =
        (rangeStreams step' (t, (zero, 0)) (parseNDStream chunks final)).2 := by
  obtain ⟨hsame, hok, hstop⟩ := hs.run hc chunks final t
  refine ⟨?_, hsame⟩
  revert hok hstop
  obtain ⟨⟨-, st, out⟩, r⟩ := rangeStreams step (t, ((zero, 0), [])) (parseNDStream chunks final)
  intro hok hstop
  cases r with
  | ok =>
    obtain ⟨htot, hn, hout⟩ := hok rfl
    refine ⟨fun _ => ?_, fun h => absurd rfl h⟩
    simp only [finishAction] at htot hn hout ⊢
    rw [printsOf_append, hout, htot, hn, printsOf_printSummary]
  | err e => exact ⟨fun h => (nomatch h), fun _ => hstop (by simp)⟩
  | panic q => exact ⟨fun h => (nomatch h), fun _ => hstop (by simp)⟩

end LiveStep

/-! ## The four `Action`s -/

/-- What the callback of a count command's `ParseStream` logs for a message that is not `map`: the
events of the parser's own cases, or the warning of the handler's `default` case. -/
def parseStreamOtherLog (logs : CountLogs) (p : NDJSONParser) (doc : JsonValue) : List LogEvent :=
  match readEnvelope doc with
  | .error _ => []
  | .ok (typeStr, dataEl) =>
    if typeStr = ascii "attached_probes" then NDJSONParser.attachedProbesLog dataEl
    else if typeStr = ascii "time" then NDJSONParser.timeLog p.startTime dataEl
    else if typeStr = ascii "lost_events" then NDJSONParser.lostEventsLog dataEl
    else [unknownTypeLog logs.file logs.unknownTypeLine typeStr]

/-- What `vfsCountCmd`'s callback logs for a message that is not `map`. -/
def vfsOtherLog (t : GoTime) (doc : JsonValue) : List LogEvent :=
  match readEnvelope doc with
  | .error _ => []
  | .ok (typeStr, dataEl) =>
    if typeStr = ascii "attached_probes" then []
    else if typeStr = ascii "time" then timeLogAt "cmd_vfs.go" 119 131 t dataEl
    else [unknownTypeLog "cmd_vfs.go" 146 typeStr]

theorem onDoc_liveStep (fill : C → JsonValue → Except GoError C) (logs : CountLogs) (zero : C)
    (add : C → C → C) (live : Bool) :
    LiveStep fill logs.fillLog zero add live parserStep (parseStreamOtherLog logs)
      (NDJSONParser.onDocLogged writeLogs (liveCountHandler fill logs zero add live)) := by
  rintro p st doc
  simp only [NDJSONParser.onDocLogged, NDJSONParser.onDoc, parserStep, mapData?,
    parseStreamOtherLog]
  rcases readEnvelope doc with e | ⟨typeStr, dataEl⟩
  · simp [writeLogs]
  · by_cases hm : typeStr = ascii "map"
    · subst hm
      simp [map_ne_attached_probes, map_ne_time, map_ne_lost_events, liveCountHandler]
    · simp only [hm, if_false, liveCountHandler, skipHandler]
      split_ifs <;> rfl

theorem vfsCountLiveOnDoc_liveStep (live : Bool) :
    LiveStep Event.fill Event.fillLog Counts.zero Counts.add live vfsOtherStep vfsOtherLog
      (vfsCountLiveOnDoc live) := by
  rintro t st doc
  simp only [vfsCountLiveOnDoc, vfsOtherStep, vfsCountOnDoc, mapData?, vfsOtherLog]
  rcases readEnvelope doc with e | ⟨typeStr, dataEl⟩
  · simp [writeLogs]
  · by_cases hm : typeStr = ascii "map"
    · subst hm
      simp [map_ne_attached_probes, map_ne_time]
    · simp only [hm, if_false]
      split_ifs <;> simp [writeLogs]

theorem countAction_prints (fill : C → JsonValue → Except GoError C) (logs : CountLogs) (zero : C)
    (add : C → C → C) {format : String} (hf : validateFormat format = none) (live : Bool)
    (chunks : List Bytes) (final : GoError) :
    PrintsRun fill zero add live chunks final
        (countAction fill logs zero add format live chunks final) ∧
      (countAction fill logs zero add format live chunks final).2 =
        (countParseStream fill zero add chunks final).2 := by
  have h := (onDoc_liveStep fill logs zero add live).prints (onDoc_countStep fill zero add) chunks
    final {}
  unfold countAction countParseStream NDJSONParser.parseStream
  rw [hf]
  revert h
  rcases rangeStreams _ _ _ with ⟨⟨p, st, out⟩, r⟩
  rcases rangeStreams _ _ _ with ⟨⟨p', st'⟩, r'⟩
  exact fun h => ⟨h.1, (finishAction_snd out st r).trans h.2⟩

theorem vfsCountAction_prints {format : String} (hf : validateFormat format = none) (live : Bool)
    (chunks : List Bytes) (final : GoError) :
    PrintsRun Event.fill Counts.zero Counts.add live chunks final
        (vfsCountAction format live chunks final) ∧
      (vfsCountAction format live chunks final).2 = (vfsCountCmd chunks final).2 := by
  have h := (vfsCountLiveOnDoc_liveStep live).prints vfsCountOnDoc_countStep chunks final
    GoTime.zero
  unfold vfsCountAction vfsCountCmd
  rw [hf]
  revert h
  rcases rangeStreams _ _ _ with ⟨⟨t, st, out⟩, r⟩
  exact fun h => ⟨h.1, (finishAction_snd out st r).trans h.2⟩

/-- Each count command's `Action`, for a valid format, leaving its log lines aside: on nil it has
printed the live blocks of every snapshot and then the summary; on an error, the live blocks of
the snapshots before the document it stopped at, or of all the documents it reached when the
stream itself ended with the error, and no total; and it returns what the parse alone returns. -/
theorem count_actions_print {format : String} (hf : validateFormat format = none) (live : Bool)
    (chunks : List Bytes) (final : GoError) :
    (PrintsRun ProcCountEvent.fill Counts.zero Counts.add live chunks final
        (procCountAction format live chunks final) ∧
      (procCountAction format live chunks final).2 = (procCountCmd chunks final).2) ∧
    (PrintsRun MemCountEvent.fill Counts.zero Counts.add live chunks final
        (memCountAction format live chunks final) ∧
      (memCountAction format live chunks final).2 = (memCountCmd chunks final).2) ∧
    (PrintsRun SyscallCountEvent.fill {} SyscallCountEvent.add live chunks final
        (syscallCountAction format live chunks final) ∧
      (syscallCountAction format live chunks final).2 = (syscallCountCmd chunks final).2) ∧
    (PrintsRun Event.fill Counts.zero Counts.add live chunks final
        (vfsCountAction format live chunks final) ∧
      (vfsCountAction format live chunks final).2 = (vfsCountCmd chunks final).2) :=
  ⟨countAction_prints _ _ _ _ hf live chunks final, countAction_prints _ _ _ _ hf live chunks final,
    countAction_prints _ _ _ _ hf live chunks final, vfsCountAction_prints hf live chunks final⟩

theorem count_actions_print_json :
    validateFormat "json" = none ∧
      (PrintsRun ProcCountEvent.fill Counts.zero Counts.add true [] .eof
          (procCountAction "json" true [] .eof) ∧
        (procCountAction "json" true [] .eof).2 = (procCountCmd [] .eof).2) ∧
      (PrintsRun MemCountEvent.fill Counts.zero Counts.add true [] .eof
          (memCountAction "json" true [] .eof) ∧
        (memCountAction "json" true [] .eof).2 = (memCountCmd [] .eof).2) ∧
      (PrintsRun SyscallCountEvent.fill {} SyscallCountEvent.add true [] .eof
          (syscallCountAction "json" true [] .eof) ∧
        (syscallCountAction "json" true [] .eof).2 = (syscallCountCmd [] .eof).2) ∧
      (PrintsRun Event.fill Counts.zero Counts.add true [] .eof
          (vfsCountAction "json" true [] .eof) ∧
        (vfsCountAction "json" true [] .eof).2 = (vfsCountCmd [] .eof).2) :=
  ⟨by decide, count_actions_print (by decide) true [] .eof⟩

end Bpfstream
