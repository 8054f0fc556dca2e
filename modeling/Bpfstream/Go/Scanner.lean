import Bpfstream.Go.Basic

/-!
# `bufio.Scanner` with `bufio.ScanLines`

The scanner hands out the input line by line, without the `\n` and without one trailing `\r`.
Its buffer grows to `bufio.MaxScanTokenSize` bytes and no further: a line that does not fit ends
the scan with `bufio.ErrTooLong`.  When the reader fails, the scan ends after the data read
before the failure and `Err()` reports the reader's error; `io.EOF` is reported as nil.
-/

namespace Bpfstream

/-- `bufio.MaxScanTokenSize`. -/
def maxScanTokenSize : Nat := 64 * 1024

/-- `bufio.ErrTooLong`. -/
def errTooLong : GoError := .lib "bufio.Scanner: token too long"

/-- `dropCR`: one trailing `\r` removed. -/
def dropCR (s : Bytes) : Bytes := if s.getLast? = some 13 then s.dropLast else s

/-- What an `io.Reader` yields: its bytes, then the error it returns after them (`io.EOF` for a
reader that simply ends). -/
structure Input where
  data : Bytes
  final : GoError := .eof
deriving DecidableEq, Repr

/-- `scanner.Err()` once the reader has returned `final`. -/
def scanErr (final : GoError) : Option GoError := if final = .eof then none else some final

/-- The lines `scanner.Scan()` yields and `scanner.Err()` after the last one, `cur` the part of
the current line read so far. -/
def scanLinesFrom (final : GoError) : Bytes → Bytes → List Bytes × Option GoError
  | cur, [] =>
    if maxScanTokenSize ≤ cur.length then ([], some errTooLong)
    else if cur = [] then ([], scanErr final)
    else ([dropCR cur], scanErr final)
  | cur, b :: rest =>
    if maxScanTokenSize ≤ cur.length then ([], some errTooLong)
    else if b = 10 then
      let r := scanLinesFrom final [] rest
      (dropCR cur :: r.1, r.2)
    else scanLinesFrom final (cur ++ [b]) rest

/-- `for scanner.Scan() { ... }` over `bufio.NewScanner(r)`, and `scanner.Err()` after it. -/
def scanLines (r : Input) : List Bytes × Option GoError := scanLinesFrom r.final [] r.data

/-- Bytes without a line end only extend the current line. -/
theorem scanLinesFrom_append_of_short (final : GoError) (cur l rest : Bytes)
    (hl : 10 ∉ l) (hlen : cur.length + l.length < maxScanTokenSize) :
    scanLinesFrom final cur (l ++ rest) = scanLinesFrom final (cur ++ l) rest := by
  induction l generalizing cur with
  | nil => simp
  | cons b l ih =>
    have hb : b ≠ 10 := fun h => hl (h ▸ List.mem_cons_self _ _)
    rw [List.cons_append, scanLinesFrom, if_neg (by simp at hlen ⊢; omega), if_neg hb,
      ih (cur ++ [b]) (fun h => hl (List.mem_cons_of_mem _ h)) (by simp at hlen ⊢; omega)]
    simp

/-- A line shorter than the buffer, ended by `\n`, is handed out and the scan goes on. -/
theorem scanLinesFrom_line (final : GoError) (l rest : Bytes) (hl : 10 ∉ l)
    (hlen : l.length < maxScanTokenSize) :
    scanLinesFrom final [] (l ++ 10 :: rest) =
      (dropCR l :: (scanLinesFrom final [] rest).1, (scanLinesFrom final [] rest).2) := by
  rw [scanLinesFrom_append_of_short final [] l (10 :: rest) hl (by simpa using hlen),
    List.nil_append, scanLinesFrom, if_neg (by omega), if_pos rfl]

/-- A line that reaches the buffer size ends the scan with `bufio.ErrTooLong`. -/
theorem scanLinesFrom_long (final : GoError) (l rest : Bytes) (hl : 10 ∉ l)
    (hlen : maxScanTokenSize ≤ l.length) :
    scanLinesFrom final [] (l ++ rest) = ([], some errTooLong) := by
  have key : ∀ cur : Bytes, ∀ l : Bytes, 10 ∉ l → maxScanTokenSize ≤ cur.length + l.length →
      scanLinesFrom final cur (l ++ rest) = ([], some errTooLong) := by
    intro cur l
    induction l generalizing cur with
    | nil =>
      intro _ h
      cases rest <;> simp only [List.nil_append, scanLinesFrom, List.length_nil] at h ⊢ <;>
        rw [if_pos (by omega)]
    | cons b l ih =>
      intro hl h
      rw [List.cons_append, scanLinesFrom]
      split
      · rfl
      · have hb : b ≠ 10 := fun h => hl (h ▸ List.mem_cons_self _ _)
        rw [if_neg hb]
        exact ih _ (fun h => hl (List.mem_cons_of_mem _ h)) (by simp at h ⊢; omega)
  exact key [] l hl (by simpa using hlen)

/-- Lines, each ended by `\n`. -/
def joinLines (ls : List Bytes) : Bytes := ls.flatMap (· ++ [10])

theorem joinLines_cons (l : Bytes) (ls : List Bytes) (rest : Bytes) :
    joinLines (l :: ls) ++ rest = l ++ 10 :: (joinLines ls ++ rest) := by
  simp [joinLines]

/-- Short lines are handed out one by one. -/
theorem scanLinesFrom_joinLines (final : GoError) (ls : List Bytes) (rest : Bytes)
    (h : ∀ l ∈ ls, 10 ∉ l ∧ l.length < maxScanTokenSize) :
    scanLinesFrom final [] (joinLines ls ++ rest) =
      (ls.map dropCR ++ (scanLinesFrom final [] rest).1, (scanLinesFrom final [] rest).2) := by
  induction ls with
  | nil => rfl
  | cons l ls ih =>
    obtain ⟨hl, hlen⟩ := h l (List.mem_cons_self l ls)
    rw [joinLines_cons, scanLinesFrom_line final l _ hl hlen,
      ih fun l' hl' => h l' (List.mem_cons_of_mem l hl')]
    rfl

/-- Short lines inserted at a line boundary are inserted into the scan, unless the scan stopped
at a long line before the boundary, where they change nothing. -/
theorem scanLinesFrom_insert (final : GoError) (pre ins : List Bytes) (rest : Bytes)
    (hpre : ∀ l ∈ pre, 10 ∉ l) (hins : ∀ l ∈ ins, 10 ∉ l ∧ l.length < maxScanTokenSize) :
    scanLinesFrom final [] (joinLines pre ++ joinLines ins ++ rest) =
        scanLinesFrom final [] (joinLines pre ++ rest) ∨
      ∃ as bs e,
        scanLinesFrom final [] (joinLines pre ++ joinLines ins ++ rest) =
          (as ++ ins.map dropCR ++ bs, e) ∧
        scanLinesFrom final [] (joinLines pre ++ rest) = (as ++ bs, e) := by
  induction pre with
  | nil =>
    refine .inr ⟨[], _, _, ?_, rfl⟩
    rw [joinLines, List.flatMap_nil, List.nil_append, scanLinesFrom_joinLines final ins rest hins]
    rfl
  | cons l pre ih =>
    have hl := hpre l (List.mem_cons_self l pre)
    rw [List.append_assoc, joinLines_cons, joinLines_cons]
    by_cases hlen : l.length < maxScanTokenSize
    · rw [scanLinesFrom_line final l _ hl hlen, scanLinesFrom_line final l _ hl hlen,
        ← List.append_assoc]
      rcases ih fun l' hl' => hpre l' (List.mem_cons_of_mem l hl') with h | ⟨as, bs, e, h1, h2⟩
      · exact .inl (by rw [h])
      · exact .inr ⟨dropCR l :: as, bs, e, by rw [h1]; rfl, by rw [h2]; rfl⟩
    · rw [scanLinesFrom_long final l _ hl (by omega),
        scanLinesFrom_long final l _ hl (by omega)]
      exact .inl rfl

end Bpfstream
