import Bpfstream.Count
import Bpfstream.Reasoning.Streams

/-!
# What a count pipeline adds up

The callback of every count pipeline sends a `map` message to `countMap`, which changes only the
locals `totalEvent` and `intervalCount`, and handles every other message without reading them
(`CountStep`).  A run therefore splits into the run of the other cases over the messages that are
not `map` and the fold of `Add` over the snapshots `Fill` reads from the `map` messages
(`loop_countStep_eq_ok_iff`).  The rest is arithmetic: `Add` is wrapping addition field by field
(key by key for `SyscallCountEvent`), so the total is a sum over the snapshots in any order.
-/

namespace Bpfstream

/-! ## Map messages -/

/-- The `data` element of a message whose `type` is `map`. -/
def mapData? (doc : JsonValue) : Option JsonValue :=
  match readEnvelope doc with
  | .ok (typeStr, dataEl) => if typeStr = ascii "map" then some dataEl else none
  | .error _ => none

/-- The message is a `map` message. -/
def isMap (doc : JsonValue) : Bool := (mapData? doc).isSome

/-- The data of the `map` messages, in stream order. -/
def mapDatas (docs : List JsonValue) : List JsonValue := docs.filterMap mapData?

/-- The snapshots `Fill` reads from the `map` messages into fresh events. -/
def snapshots (fill : C → JsonValue → Except GoError C) (zero : C) (docs : List JsonValue) :
    List C :=
  (mapDatas docs).filterMap fun d => (fill zero d).toOption

/-- `docs'` is `docs` with its `map` messages permuted: the other messages come in the same
order, and the `map` messages are the same ones, in any order and at any place. -/
def MapPermuted (docs docs' : List JsonValue) : Prop :=
  docs.filter (fun d => !isMap d) = docs'.filter (fun d => !isMap d) ∧
    (docs.filter isMap).Perm (docs'.filter isMap)

theorem mapDatas_filter_isMap (docs : List JsonValue) :
    mapDatas (docs.filter isMap) = mapDatas docs := by
  induction docs with
  | nil => rfl
  | cons d docs ih =>
    cases h : mapData? d <;> simp_all [mapDatas, isMap, List.filter_cons]

theorem MapPermuted.mapDatas_perm {docs docs' : List JsonValue} (h : MapPermuted docs docs') :
    (mapDatas docs).Perm (mapDatas docs') := by
  rw [← mapDatas_filter_isMap docs, ← mapDatas_filter_isMap docs']
  exact h.2.filterMap _

theorem MapPermuted.snapshots_perm {docs docs' : List JsonValue} (h : MapPermuted docs docs')
    (fill : C → JsonValue → Except GoError C) (zero : C) :
    (snapshots fill zero docs).Perm (snapshots fill zero docs') :=
  h.mapDatas_perm.filterMap _

/-- When `Fill` accepts every `map` message there is one snapshot per message. -/
theorem length_snapshots {fill : C → JsonValue → Except GoError C} {zero : C}
    {docs : List JsonValue} (h : ∀ d ∈ mapDatas docs, ∃ c, fill zero d = .ok c) :
    (snapshots fill zero docs).length = (mapDatas docs).length := by
  unfold snapshots
  generalize mapDatas docs = ds at h ⊢
  induction ds with
  | nil => rfl
  | cons d ds ih =>
    rw [List.forall_mem_cons] at h
    obtain ⟨c, hc⟩ := h.1
    rw [List.filterMap_cons_some (f := fun d => (fill zero d).toOption)
      (show (fill zero d).toOption = some c by rw [hc]; rfl), List.length_cons, ih h.2,
      List.length_cons]

/-! ## Runs of a count callback -/

section CountStep

variable {τ C : Type} (fill : C → JsonValue → Except GoError C) (zero : C) (add : C → C → C)
  (other : τ → JsonValue → τ × Ret)

/-- A callback of a count pipeline: a `map` message goes to `countMap`, every other message to
`other`, which neither reads nor writes the counts. -/
def CountStep (step : τ × (C × Nat) → JsonValue → (τ × (C × Nat)) × Ret) : Prop :=
  ∀ t st doc, step (t, st) doc =
    match mapData? doc with
    | some d => ((t, (countMap fill zero add st d).1), (countMap fill zero add st d).2)
    | none => (((other t doc).1, st), (other t doc).2)

variable {fill zero add other}
variable {step : τ × (C × Nat) → JsonValue → (τ × (C × Nat)) × Ret}

/-- A run of a count callback ends normally exactly when the other cases do on the messages that
are not `map`, and `Fill` accepts every `map` message; the counts are then the snapshots added to
the start, one interval each. -/
theorem loop_countStep_eq_ok_iff (hs : CountStep fill zero add other step)
    (docs : List JsonValue) (t t' : τ) (st st' : C × Nat) :
    loop step (t, st) docs = ((t', st'), .ok) ↔
      loop other t (docs.filter fun d => !isMap d) = (t', .ok) ∧
      (∀ d ∈ mapDatas docs, ∃ c, fill zero d = .ok c) ∧
      st' = ((snapshots fill zero docs).foldl add st.1, st.2 + (mapDatas docs).length) := by
  induction docs generalizing t st with
  | nil =>
    simp only [loop_nil, Prod.mk.injEq, List.filter_nil, and_true, mapDatas, snapshots,
      List.filterMap_nil, List.not_mem_nil, false_implies, implies_true, List.foldl_nil,
      List.length_nil, Nat.add_zero, true_and, Prod.mk.eta]
    exact and_congr_right fun _ => eq_comm
  | cons doc docs ih =>
    cases hm : mapData? doc with
    | some d =>
      have hmap : isMap doc = true := by simp [isMap, hm]
      have hmd : mapDatas (doc :: docs) = d :: mapDatas docs := by simp [mapDatas, hm]
      rw [hmd, List.forall_mem_cons]
      cases hf : fill zero d with
      | error e =>
        have hstop : (step (t, st) doc).2 ≠ .ok := by rw [hs, hm]; simp [countMap, hf]
        refine iff_of_false (fun h => hstop ?_) (by simp [hf])
        rw [loop_cons_stop _ hstop] at h; rw [h]
      | ok c =>
        have hok : step (t, st) doc = ((t, (add st.1 c, st.2 + 1)), .ok) := by
          rw [hs, hm]; simp [countMap, hf]
        have hsn : snapshots fill zero (doc :: docs) = c :: snapshots fill zero docs := by
          simp [snapshots, hmd, hf, Except.toOption]
        rw [loop_cons_ok _ hok, ih, List.filter_cons_of_neg (by simp [hmap]), hsn,
          List.foldl_cons, List.length_cons, ← Nat.add_assoc, Nat.add_right_comm]
        simp
    | none =>
      have hmap : isMap doc = false := by simp [isMap, hm]
      have hmd : mapDatas (doc :: docs) = mapDatas docs := by simp [mapDatas, hm]
      have hsn : snapshots fill zero (doc :: docs) = snapshots fill zero docs := by
        simp [snapshots, hmd]
      rw [List.filter_cons_of_pos (by simp [hmap]), hmd, hsn]
      rcases ho : other t doc with ⟨t₁, r⟩
      have hstep : step (t, st) doc = ((t₁, st), r) := by rw [hs, hm, ho]
      by_cases hr : r = .ok
      · subst hr
        rw [loop_cons_ok _ hstep, loop_cons_ok _ ho, ih]
      · rw [loop_cons_stop _ (by rw [hstep]; exact hr), loop_cons_stop _ (by rw [ho]; exact hr),
          hstep, ho]
        simp [hr]

/-- The same for a whole `range res` loop over the chunks of a reader. -/
theorem rangeStreams_countStep_eq_ok_iff (hs : CountStep fill zero add other step)
    (chunks : List Bytes) (final : GoError) (t t' : τ) (st st' : C × Nat) :
    rangeStreams step (t, st) (parseNDStream chunks final) = ((t', st'), .ok) ↔
      allParse chunks ∧ final = .eof ∧
      loop other t ((chunkDocs chunks).filter fun d => !isMap d) = (t', .ok) ∧
      (∀ d ∈ mapDatas (chunkDocs chunks), ∃ c, fill zero d = .ok c) ∧
      st' = ((snapshots fill zero (chunkDocs chunks)).foldl add st.1,
        st.2 + (mapDatas (chunkDocs chunks)).length) := by
  rw [rangeStreams_parseNDStream_eq_ok_iff, loop_countStep_eq_ok_iff hs]

/-- Permuting the `map` messages of a stream that ends normally gives a run that ends normally,
with the same other state, the same interval count and the permuted snapshots added. -/
theorem rangeStreams_countStep_mapPermuted (hs : CountStep fill zero add other step)
    {chunks chunks' : List Bytes} {final : GoError} {t t' : τ} {st st' : C × Nat}
    (h : rangeStreams step (t, st) (parseNDStream chunks final) = ((t', st'), .ok))
    (hp : allParse chunks') (hperm : MapPermuted (chunkDocs chunks) (chunkDocs chunks')) :
    rangeStreams step (t, st) (parseNDStream chunks' final) =
      ((t', ((snapshots fill zero (chunkDocs chunks')).foldl add st.1, st'.2)), .ok) := by
  obtain ⟨-, hfinal, hother, hfill, rfl⟩ := (rangeStreams_countStep_eq_ok_iff hs ..).mp h
  have hmd := hperm.mapDatas_perm
  refine (rangeStreams_countStep_eq_ok_iff hs ..).mpr ⟨hp, hfinal, hperm.1 ▸ hother, ?_, ?_⟩
  · exact fun d hd => hfill d (hmd.mem_iff.mpr hd)
  · simp [hmd.length_eq]

end CountStep

/-! ## The callbacks of the four pipelines -/

/-- A handler that skips every message, as the count handlers do with every type but `map`. -/
def skipHandler : MessageHandler Unit := fun _ _ _ => ((), .ok)

/-- `ParseStream`'s callback on a message its handler skips: the parser's own cases alone. -/
def parserStep (p : NDJSONParser) (doc : JsonValue) : NDJSONParser × Ret :=
  ((NDJSONParser.onDoc skipHandler (p, ()) doc).1.1, (NDJSONParser.onDoc skipHandler (p, ()) doc).2)

/-- `vfsCountCmd`'s callback on a message that is not `map`, on the local `startTime` alone. -/
def vfsOtherStep (t : GoTime) (doc : JsonValue) : GoTime × Ret :=
  ((vfsCountOnDoc (t, Counts.zero, 0) doc).1.1, (vfsCountOnDoc (t, Counts.zero, 0) doc).2)

theorem map_ne_attached_probes : ascii "map" ≠ ascii "attached_probes" := by decide
theorem map_ne_time : ascii "map" ≠ ascii "time" := by decide
theorem map_ne_lost_events : ascii "map" ≠ ascii "lost_events" := by decide

theorem onDoc_countStep (fill : C → JsonValue → Except GoError C) (zero : C) (add : C → C → C) :
    CountStep fill zero add parserStep (NDJSONParser.onDoc (countHandler fill zero add)) := by
  rintro p st doc
  simp only [NDJSONParser.onDoc, NDJSONParser.onDocLogged, parserStep, mapData?]
  rcases readEnvelope doc with e | ⟨typeStr, dataEl⟩
  · rfl
  · by_cases hm : typeStr = ascii "map"
    · subst hm
      simp [map_ne_attached_probes, map_ne_time, map_ne_lost_events, countHandler, skipHandler]
    · simp only [hm, if_false, countHandler, skipHandler]
      split_ifs <;> rfl

theorem vfsCountOnDoc_countStep :
    CountStep Event.fill Counts.zero Counts.add vfsOtherStep vfsCountOnDoc := by
  rintro t ⟨total, n⟩ doc
  simp only [vfsCountOnDoc, vfsOtherStep, mapData?]
  rcases readEnvelope doc with e | ⟨typeStr, dataEl⟩
  · rfl
  · by_cases hm : typeStr = ascii "map"
    · subst hm
      simp [map_ne_attached_probes, map_ne_time]
    · simp only [hm, if_false]
      split_ifs <;> rfl

/-! ## What the totals hold -/

/-- The locals `totalEvent` and `intervalCount` after a run over `docs` hold what its `map`
messages carried: one interval and one snapshot per message, every slot the wrapping sum of that
slot over the snapshots taken in any order, and `Total` the sum of the snapshots' totals. -/
def CountsAggregate (fill : Counts n → JsonValue → Except GoError (Counts n))
    (docs : List JsonValue) (st : Counts n × Nat) : Prop :=
  st.2 = (mapDatas docs).length ∧
  (snapshots fill Counts.zero docs).length = (mapDatas docs).length ∧
  (∀ l : List (Counts n), l.Perm (snapshots fill Counts.zero docs) → ∀ i,
    st.1 i = (l.map (· i)).sum) ∧
  Counts.total st.1 = ((snapshots fill Counts.zero docs).map Counts.total).sum

/-- The same for `SyscallCountEvent`: a key is present when some snapshot has it, and its count
is the sum of its counts over the snapshots taken in any order. -/
def SyscallAggregate (docs : List JsonValue) (st : SyscallCountEvent × Nat) : Prop :=
  st.2 = (mapDatas docs).length ∧
  (snapshots SyscallCountEvent.fill {} docs).length = (mapDatas docs).length ∧
  (∀ l : List SyscallCountEvent, l.Perm (snapshots SyscallCountEvent.fill {} docs) → ∀ k,
    ((st.1.counts.get? k).isSome ↔ ∃ s ∈ l, (s.counts.get? k).isSome) ∧
    st.1.counts.get k = (l.map (·.counts.get k)).sum) ∧
  st.1.total = ((snapshots SyscallCountEvent.fill {} docs).map SyscallCountEvent.total).sum

section Pipelines

variable {τ : Type} {other : τ → JsonValue → τ × Ret} {chunks chunks' : List Bytes}
  {final : GoError} {t t' : τ}

theorem Counts.foldl_add_zero_perm {l l' : List (Counts n)} (h : l.Perm l') :
    l.foldl Counts.add Counts.zero = l'.foldl Counts.add Counts.zero :=
  funext fun i => by rw [Counts.foldl_add_apply, Counts.foldl_add_apply, (h.map _).sum_eq]

theorem countsAggregate_of_run {fill : Counts n → JsonValue → Except GoError (Counts n)}
    {step : τ × (Counts n × Nat) → JsonValue → (τ × (Counts n × Nat)) × Ret}
    (hs : CountStep fill Counts.zero Counts.add other step) {st : Counts n × Nat}
    (h : rangeStreams step (t, (Counts.zero, 0)) (parseNDStream chunks final) = ((t', st), .ok)) :
    CountsAggregate fill (chunkDocs chunks) st := by
  obtain ⟨-, -, -, hfill, rfl⟩ := (rangeStreams_countStep_eq_ok_iff hs ..).mp h
  unfold CountsAggregate; dsimp only
  refine ⟨Nat.zero_add _, length_snapshots hfill, fun l hl i => ?_, ?_⟩
  · rw [Counts.foldl_add_apply, Counts.zero_apply, zero_add, (hl.map _).sum_eq]
  · rw [Counts.total_foldl_add, Counts.total_zero, zero_add]

theorem counts_run_mapPermuted {fill : Counts n → JsonValue → Except GoError (Counts n)}
    {step : τ × (Counts n × Nat) → JsonValue → (τ × (Counts n × Nat)) × Ret}
    (hs : CountStep fill Counts.zero Counts.add other step) {st : Counts n × Nat}
    (h : rangeStreams step (t, (Counts.zero, 0)) (parseNDStream chunks final) = ((t', st), .ok))
    (hp : allParse chunks') (hperm : MapPermuted (chunkDocs chunks) (chunkDocs chunks')) :
    rangeStreams step (t, (Counts.zero, 0)) (parseNDStream chunks' final) = ((t', st), .ok) := by
  rw [rangeStreams_countStep_mapPermuted hs h hp hperm]
  obtain ⟨-, -, -, -, rfl⟩ := (rangeStreams_countStep_eq_ok_iff hs ..).mp h
  rw [Counts.foldl_add_zero_perm (hperm.snapshots_perm fill Counts.zero).symm]

theorem syscallAggregate_of_run
    {step : τ × (SyscallCountEvent × Nat) → JsonValue → (τ × (SyscallCountEvent × Nat)) × Ret}
    (hs : CountStep SyscallCountEvent.fill {} SyscallCountEvent.add other step)
    {st : SyscallCountEvent × Nat}
    (h : rangeStreams step (t, ({}, 0)) (parseNDStream chunks final) = ((t', st), .ok)) :
    SyscallAggregate (chunkDocs chunks) st := by
  obtain ⟨-, -, -, hfill, rfl⟩ := (rangeStreams_countStep_eq_ok_iff hs ..).mp h
  unfold SyscallAggregate; dsimp only
  refine ⟨Nat.zero_add _, length_snapshots hfill, fun l hl k => ⟨?_, ?_⟩, ?_⟩
  · rw [SyscallCountEvent.isSome_get?_foldl_add]
    simp [hl.mem_iff]
  · rw [SyscallCountEvent.get_foldl_add, (hl.map _).sum_eq]
    simp [CountMap.get]
  · rw [SyscallCountEvent.total_foldl_add, SyscallCountEvent.total_empty, zero_add]

theorem syscall_run_mapPermuted
    {step : τ × (SyscallCountEvent × Nat) → JsonValue → (τ × (SyscallCountEvent × Nat)) × Ret}
    (hs : CountStep SyscallCountEvent.fill {} SyscallCountEvent.add other step)
    {st : SyscallCountEvent × Nat}
    (h : rangeStreams step (t, ({}, 0)) (parseNDStream chunks final) = ((t', st), .ok))
    (hp : allParse chunks') (hperm : MapPermuted (chunkDocs chunks) (chunkDocs chunks')) :
    ∃ e, rangeStreams step (t, ({}, 0)) (parseNDStream chunks' final) = ((t', (e, st.2)), .ok) ∧
      ∀ k, e.counts.get? k = st.1.counts.get? k := by
  refine ⟨_, rangeStreams_countStep_mapPermuted hs h hp hperm, fun k => ?_⟩
  have hagg := syscallAggregate_of_run hs h
  obtain ⟨-, -, -, -, rfl⟩ := (rangeStreams_countStep_eq_ok_iff hs ..).mp h
  have hsn := (hperm.snapshots_perm SyscallCountEvent.fill {}).symm
  refine CountMap.get?_eq_of_get ?_ ?_
  · rw [SyscallCountEvent.isSome_get?_foldl_add, SyscallCountEvent.isSome_get?_foldl_add]
    simp [hsn.mem_iff]
  · rw [SyscallCountEvent.get_foldl_add, SyscallCountEvent.get_foldl_add, (hsn.map _).sum_eq]

theorem countParseStream_eq_ok_iff {fill : C → JsonValue → Except GoError C} {zero : C}
    {add : C → C → C} {chunks : List Bytes} {final : GoError} {st : C × Nat} :
    countParseStream fill zero add chunks final = (st, .ok) ↔
      ∃ p, rangeStreams (NDJSONParser.onDoc (countHandler fill zero add)) ({}, (zero, 0))
        (parseNDStream chunks final) = ((p, st), .ok) := by
  unfold countParseStream NDJSONParser.parseStream
  rcases rangeStreams _ _ _ with ⟨⟨p, st'⟩, r⟩
  simp [and_comm, eq_comm]

/-- A count command built on `ParseStream` over int64 counter records. -/
theorem countParseStream_counts (fill : Counts n → JsonValue → Except GoError (Counts n))
    (chunks : List Bytes) (final : GoError) (st : Counts n × Nat)
    (h : countParseStream fill Counts.zero Counts.add chunks final = (st, .ok)) :
    CountsAggregate fill (chunkDocs chunks) st ∧
      ∀ chunks', allParse chunks' → MapPermuted (chunkDocs chunks) (chunkDocs chunks') →
        countParseStream fill Counts.zero Counts.add chunks' final = (st, .ok) := by
  obtain ⟨p, hp⟩ := countParseStream_eq_ok_iff.mp h
  exact ⟨countsAggregate_of_run (onDoc_countStep _ _ _) hp, fun _ ha hperm =>
    countParseStream_eq_ok_iff.mpr ⟨p, counts_run_mapPermuted (onDoc_countStep _ _ _) hp ha hperm⟩⟩

end Pipelines

/-- Every count pipeline that returns nil counted one interval per `map` message, holds in every
counter the wrapping sum of the snapshots `Fill` read, in any order, reports as `Total` the sum of
the snapshots' totals, and ends the same on every stream that permutes the `map` messages. -/
theorem count_pipelines_sum_snapshots :
    (∀ chunks final t st, vfsCountCmd chunks final = ((t, st), .ok) →
      CountsAggregate Event.fill (chunkDocs chunks) st ∧
      ∀ chunks', allParse chunks' → MapPermuted (chunkDocs chunks) (chunkDocs chunks') →
        vfsCountCmd chunks' final = ((t, st), .ok)) ∧
    (∀ chunks final st, procCountCmd chunks final = (st, .ok) →
      CountsAggregate ProcCountEvent.fill (chunkDocs chunks) st ∧
      ∀ chunks', allParse chunks' → MapPermuted (chunkDocs chunks) (chunkDocs chunks') →
        procCountCmd chunks' final = (st, .ok)) ∧
    (∀ chunks final st, memCountCmd chunks final = (st, .ok) →
      CountsAggregate MemCountEvent.fill (chunkDocs chunks) st ∧
      ∀ chunks', allParse chunks' → MapPermuted (chunkDocs chunks) (chunkDocs chunks') →
        memCountCmd chunks' final = (st, .ok)) ∧
    (∀ chunks final st, syscallCountCmd chunks final = (st, .ok) →
      SyscallAggregate (chunkDocs chunks) st ∧
      ∀ chunks', allParse chunks' → MapPermuted (chunkDocs chunks) (chunkDocs chunks') →
        ∃ e, syscallCountCmd chunks' final = ((e, st.2), .ok) ∧
          ∀ k, e.counts.get? k = st.1.counts.get? k) := by
  refine ⟨fun chunks final t st h => ⟨countsAggregate_of_run vfsCountOnDoc_countStep h,
      fun _ ha hperm => counts_run_mapPermuted vfsCountOnDoc_countStep h ha hperm⟩,
    countParseStream_counts _, countParseStream_counts _,
    fun chunks final st h => ?_⟩
  obtain ⟨p, hp⟩ := countParseStream_eq_ok_iff.mp h
  refine ⟨syscallAggregate_of_run (onDoc_countStep _ _ _) hp, fun _ ha hperm => ?_⟩
  obtain ⟨e, he, hk⟩ := syscall_run_mapPermuted (onDoc_countStep _ _ _) hp ha hperm
  exact ⟨e, countParseStream_eq_ok_iff.mpr ⟨p, he⟩, hk⟩

end Bpfstream
