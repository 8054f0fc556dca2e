import Bpfstream.Render

/-!
# What the `csv` format prints, read back

`csv.Writer` quotes a field that holds a separator, a quote or a line break (and a few others),
with its quotes doubled.  So the text it writes for records, none of them empty, reads back as
those records, as RFC 4180 reads records that end with a line feed.  The printers' `csv` blocks
are such texts: for `syscall`, the names read back exactly, whatever bytes they hold.
-/

namespace Bpfstream

/-! ## Reading CSV -/

/-- The rest of a quoted field after its opening quote: its bytes, each `""` read as one `"`, up
to the closing quote, and the bytes after it. -/
def readQuoted : Bytes → Option (Bytes × Bytes)
  | [] => none
  | 34 :: 34 :: rest => (readQuoted rest).map fun r => (34 :: r.1, r.2)
  | 34 :: rest => some ([], rest)
  | c :: rest => (readQuoted rest).map fun r => (c :: r.1, r.2)

/-- A byte of an unquoted field: neither the separator `,` nor a line feed. -/
def bareByte (c : UInt8) : Bool := c ≠ 44 && c ≠ 10

/-- The field at the front of a record: a quoted one when it starts with `"`, else the bytes up
to the next `,` or line feed. -/
def readField : Bytes → Option (Bytes × Bytes)
  | 34 :: rest => readQuoted rest
  | s => some (s.takeWhile bareByte, s.dropWhile bareByte)

/-- The fields of a record and the bytes after its line feed; `fuel` bounds the fields. -/
def readRecord : Nat → Bytes → Option (List Bytes × Bytes)
  | 0, _ => none
  | n + 1, s =>
    match readField s with
    | some (f, 44 :: rest) => (readRecord n rest).map fun r => (f :: r.1, r.2)
    | some (f, 10 :: rest) => some ([f], rest)
    | _ => none

/-- The records of a text, one after the other up to its end; `fuel` bounds the records. -/
def readRecords : Nat → Bytes → Option (List (List Bytes))
  | 0, _ => none
  | _ + 1, [] => some []
  | n + 1, c :: s =>
    match readRecord (s.length + 2) (c :: s) with
    | some (r, rest) => (readRecords n rest).map (r :: ·)
    | none => none

/-- The records RFC 4180 reads from a text whose records end with a line feed. -/
def parseCsv (s : Bytes) : Option (List (List Bytes)) := readRecords (s.length + 1) s

/-! ## One field -/

/-- What `csv.Writer` writes for one field. -/
theorem quoteField_append (f X : Bytes) :
    quoteField f ++ X = 34 :: (f.flatMap (fun c => if c = 34 then [34, 34] else [c]) ++ 34 :: X) := by
  simp [quoteField]

theorem readQuoted_cons_of_ne {c : UInt8} (hc : c ≠ 34) (rest : Bytes) :
    readQuoted (c :: rest) = (readQuoted rest).map fun r => (c :: r.1, r.2) :=
  readQuoted.eq_4 c rest (fun _ h => absurd h hc) hc

/-- A quoted field, its quotes doubled, reads back up to its closing quote. -/
theorem readQuoted_escaped (f : Bytes) {rest : Bytes} (hr : rest.head? ≠ some 34) :
    readQuoted (f.flatMap (fun c => if c = 34 then [34, 34] else [c]) ++ 34 :: rest) =
      some (f, rest) := by
  induction f with
  | nil =>
    cases rest with
    | nil => rfl
    | cons c r =>
      have hc : c ≠ 34 := fun h => hr (by rw [h]; rfl)
      simp [readQuoted, hc]
  | cons c f ih =>
    rw [List.flatMap_cons, List.append_assoc]
    by_cases hc : c = 34
    · subst hc
      simp only [if_true, List.cons_append, List.nil_append, List.append_eq, readQuoted, ih,
        Option.map_some']
    · simp only [if_neg hc, List.singleton_append, readQuoted_cons_of_ne hc, ih, Option.map_some']

/-- A field `csv.Writer` leaves unquoted holds no separator, line feed or quote. -/
theorem bare_of_not_fieldNeedsQuotes {f : Bytes} (h : fieldNeedsQuotes f = false) :
    ∀ c ∈ f, bareByte c = true ∧ c ≠ 34 := by
  intro c hc
  have hf : f ≠ [] := List.ne_nil_of_mem hc
  have hany : f.any (fun c => c = 10 || c = 13 || c = 34 || c = 44) = false := by
    unfold fieldNeedsQuotes at h
    rw [if_neg hf] at h
    split at h
    · cases h
    · exact (Bool.or_eq_false_iff.mp h).1
  have hc' := List.any_eq_false.mp hany c hc
  simp only [Bool.or_eq_true, decide_eq_true_eq, not_or] at hc'
  simp only [bareByte, Bool.and_eq_true, decide_eq_true_eq]
  exact ⟨⟨hc'.2, hc'.1.1.1⟩, hc'.1.2⟩

theorem readField_of_head {s : Bytes} (h : s.head? ≠ some 34) :
    readField s = some (s.takeWhile bareByte, s.dropWhile bareByte) := by
  unfold readField
  split
  · exact absurd rfl h
  · rfl

/-- A field as `csv.Writer` writes it reads back up to the separator or line feed after it. -/
theorem readField_writeField (f : Bytes) {c : UInt8} (hc : c = 44 ∨ c = 10) (rest : Bytes) :
    readField ((if fieldNeedsQuotes f then quoteField f else f) ++ c :: rest) =
      some (f, c :: rest) := by
  have hc34 : c ≠ 34 := by rcases hc with rfl | rfl <;> decide
  have hbc : bareByte c = false := by
    rcases hc with rfl | rfl <;> rfl
  split_ifs with hq
  · rw [quoteField_append]
    exact readQuoted_escaped f (by simpa using hc34)
  · have hb := bare_of_not_fieldNeedsQuotes (Bool.eq_false_iff.mpr hq)
    have hhead : (f ++ c :: rest).head? ≠ some 34 := by
      cases f with
      | nil => simpa using hc34
      | cons x f => simpa using (hb x (List.mem_cons_self x f)).2
    rw [readField_of_head hhead, List.takeWhile_append_of_pos fun x hx => (hb x hx).1,
      List.dropWhile_append_of_pos fun x hx => (hb x hx).1]
    simp [hbc]

/-! ## Records -/

theorem csvRecord_singleton (f : Bytes) :
    csvRecord [f] = (if fieldNeedsQuotes f then quoteField f else f) ++ [10] := by
  simp [csvRecord, List.intercalate]

theorem csvRecord_cons_cons (f g : Bytes) (gs : List Bytes) :
    csvRecord (f :: g :: gs) =
      (if fieldNeedsQuotes f then quoteField f else f) ++ 44 :: csvRecord (g :: gs) := by
  simp [csvRecord, List.intercalate, List.intersperse]

theorem length_le_csvRecord : ∀ (fs : List Bytes), fs.length ≤ (csvRecord fs).length
  | [] => Nat.zero_le _
  | [f] => by simp [csvRecord_singleton]
  | f :: g :: gs => by
    have := length_le_csvRecord (g :: gs)
    simp only [csvRecord_cons_cons, List.length_append, List.length_cons] at this ⊢
    omega

/-- A record `csv.Writer` writes reads back, given fuel for its fields. -/
theorem readRecord_csvRecord :
    ∀ (fs : List Bytes), fs ≠ [] → ∀ n, fs.length ≤ n → ∀ rest,
      readRecord n (csvRecord fs ++ rest) = some (fs, rest)
  | [], h, _, _, _ => absurd rfl h
  | [f], _, n + 1, _, rest => by
    rw [csvRecord_singleton, List.append_assoc, List.singleton_append, readRecord,
      readField_writeField f (.inr rfl)]
    rfl
  | f :: g :: gs, _, n + 1, hn, rest => by
    rw [csvRecord_cons_cons, List.append_assoc, List.cons_append, readRecord,
      readField_writeField f (.inl rfl)]
    simp only [readRecord_csvRecord (g :: gs) (List.cons_ne_nil g gs) n
      (by simp only [List.length_cons] at hn ⊢; omega) rest, Option.map_some']

theorem length_le_csvText : ∀ (records : List (List Bytes)),
    records.length ≤ (csvText records).length
  | [] => le_refl 0
  | r :: rs => by
    have h1 : 1 ≤ (csvRecord r).length := by simp [csvRecord]
    have h2 := length_le_csvText rs
    simp only [csvText, List.flatMap_cons, List.length_append, List.length_cons] at h2 ⊢
    omega

/-- The text `csv.Writer` writes for records, none of them empty, reads back as the records. -/
theorem readRecords_csvText {records : List (List Bytes)} (h : ∀ r ∈ records, r ≠ []) :
    ∀ n, records.length < n → readRecords n (csvText records) = some records := by
  induction records with
  | nil => intro n hn; obtain ⟨m, rfl⟩ : ∃ m, n = m + 1 := ⟨n - 1, by omega⟩; rfl
  | cons r rs ih =>
    intro n hn
    obtain ⟨m, rfl⟩ : ∃ m, n = m + 1 := ⟨n - 1, by omega⟩
    obtain ⟨c, s, hcs⟩ : ∃ c s, csvRecord r ++ csvText rs = c :: s := by
      cases hr : csvRecord r ++ csvText rs with
      | nil => simp [csvRecord] at hr
      | cons c s => exact ⟨c, s, rfl⟩
    have hfuel : r.length ≤ s.length + 2 := by
      have := length_le_csvRecord r
      have hl := congrArg List.length hcs
      simp only [List.length_append, List.length_cons] at hl
      omega
    have hrec := readRecord_csvRecord r (h r (List.mem_cons_self r rs)) _ hfuel (csvText rs)
    rw [hcs] at hrec
    have htext : csvText (r :: rs) = c :: s := by rw [← hcs]; simp [csvText]
    rw [htext, readRecords, hrec]
    simp only [ih (fun r' h' => h r' (List.mem_cons_of_mem r h')) m
      (by simp only [List.length_cons] at hn; omega), Option.map_some']

/-- `parseCsv` reads back the text of records, none of them empty. -/
theorem parseCsv_csvText {records : List (List Bytes)} (h : ∀ r ∈ records, r ≠ []) :
    parseCsv (csvText records) = some records :=
  readRecords_csvText h _ (Nat.lt_succ_of_le (length_le_csvText records))

/-! ## The printers' `csv` blocks -/

theorem countsCsv_ne_nil {n : Nat} (fields : List (Bytes × Fin n)) (e : Counts n) :
    ∀ r ∈ countsCsv fields e, r ≠ [] := by
  intro r hr
  simp only [countsCsv, List.mem_cons, List.mem_append, List.mem_map, List.not_mem_nil,
    or_false] at hr
  rcases hr with rfl | ⟨f, -, rfl⟩ | rfl <;> exact List.cons_ne_nil _ _

theorem printSyscallCsv_ne_nil (sort : SliceSort Bytes) (e : SyscallCountEvent) :
    ∀ r ∈ printSyscallCsv sort e, r ≠ [] := by
  intro r hr
  simp only [printSyscallCsv, List.mem_cons, List.mem_append, List.mem_map, List.not_mem_nil,
    or_false] at hr
  rcases hr with (rfl | ⟨name, -, rfl⟩) | rfl <;> exact List.cons_ne_nil _ _

/-- The `csv` block of every printer is text that reads back as the records the printer hands to
`csv.Writer`: the header, a row per counter, and the total; for `printSyscallEvent` a row per name
in the order of `SortedKeys`, the name exactly as it is, whatever bytes it holds. -/
theorem csv_blocks_read_back (k : Nat) :
    (∀ e : Event, ∃ t, printEvent e "csv" k = .text t ∧
      parseCsv t = some (countsCsv Event.fields e)) ∧
    (∀ e : ProcCountEvent, ∃ t, printProcEvent e "csv" k = .text t ∧
      parseCsv t = some (countsCsv ProcCountEvent.fields e)) ∧
    (∀ e : MemCountEvent, ∃ t, printMemEvent e "csv" k = .text t ∧
      parseCsv t = some (countsCsv MemCountEvent.fields e)) ∧
    (∀ (sort : SliceSort Bytes) (e : SyscallCountEvent), ∃ t,
      printSyscallEvent sort e "csv" k = .text t ∧ parseCsv t = some (printSyscallCsv sort e)) :=
  ⟨fun e => ⟨_, rfl, parseCsv_csvText (countsCsv_ne_nil _ e)⟩,
    fun e => ⟨_, rfl, parseCsv_csvText (countsCsv_ne_nil _ e)⟩,
    fun e => ⟨_, rfl, parseCsv_csvText (countsCsv_ne_nil _ e)⟩,
    fun sort e => ⟨_, rfl, parseCsv_csvText (printSyscallCsv_ne_nil sort e)⟩⟩

end Bpfstream
