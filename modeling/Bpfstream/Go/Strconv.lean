import Bpfstream.Go.Basic
import Mathlib.Data.Nat.Digits

/-!
# `strconv.ParseUint` and `strconv.ParseInt` in base 10

Both parsers return Go's pair `(value, err)`: on a range error the value is the bound of the
type, which `vfsEvent.HandleLogfmt` stores into the record before it reports the error.  The
digit loop stops at the first byte that is not a digit (a syntax error) or at the first digit
that overflows (a range error), whichever comes first.  Decimal rendering, `%d` of the tracer's
`printf`, is the inverse on every 64-bit value.
-/

namespace Bpfstream

/-- `1<<64 - 1`, the largest `uint64`. -/
def maxUint64 : Nat := 2 ^ 64 - 1

/-- `maxUint64/10 + 1`, the smallest `n` with `n*10 > maxUint64` (strconv's `cutoff`). -/
def uintCutoff : Nat := maxUint64 / 10 + 1

/-- A byte in `'0'..'9'`. -/
def isDigit (c : UInt8) : Bool := 48 ≤ c.toNat && c.toNat ≤ 57

/-- The digit loop of `strconv.ParseUint(s0, 10, 64)`, `n` the value of the digits read. -/
def parseUintDigits (s0 : Bytes) : Nat → Bytes → Word × Option GoError
  | n, [] => (BitVec.ofNat 64 n, none)
  | n, c :: cs =>
    if isDigit c then
      if uintCutoff ≤ n then (BitVec.ofNat 64 maxUint64, some (.numError "ParseUint" s0 .errRange))
      else
        let n1 := n * 10 + (c.toNat - 48)
        if maxUint64 < n1 then (BitVec.ofNat 64 maxUint64, some (.numError "ParseUint" s0 .errRange))
        else parseUintDigits s0 n1 cs
    else (0, some (.numError "ParseUint" s0 .errSyntax))

/-- `strconv.ParseUint(s, 10, 64)`. -/
def parseUint (s : Bytes) : Word × Option GoError :=
  if s = [] then (0, some (.numError "ParseUint" s .errSyntax)) else parseUintDigits s 0 s

/-- `strconv.ParseInt(s, 10, 64)`: a leading `+` or `-`, then `ParseUint` of the rest, then the
`int64` range check. -/
def parseInt : Bytes → Word × Option GoError
  | [] => (0, some (.numError "ParseInt" [] .errSyntax))
  | c :: t =>
    let neg := c = 45
    let body := if c = 43 ∨ c = 45 then t else c :: t
    match parseUint body with
    | (_, some (.numError _ _ .errSyntax)) => (0, some (.numError "ParseInt" (c :: t) .errSyntax))
    | (un, _) =>
      if !neg && 2 ^ 63 ≤ un.toNat then
        (BitVec.ofNat 64 (2 ^ 63 - 1), some (.numError "ParseInt" (c :: t) .errRange))
      else if neg && 2 ^ 63 < un.toNat then
        (BitVec.ofInt 64 (-2 ^ 63), some (.numError "ParseInt" (c :: t) .errRange))
      else ((if neg then -un else un), none)

/-! ## Base 0

`strconv.ParseUint(s, 0, 64)`, which the `mem` and `syscall` records use for addresses and
arguments: the prefix picks the base (`0b`, `0o`, `0x` in either case, a lone leading `0` for
octal, decimal otherwise), the digit loop is that of base 10 with the base's own cutoff, and
underscores may separate digits. -/

/-- `lower(c)`: `c | ('x' - 'X')`, which folds an ASCII capital onto its small letter. -/
def lower (c : UInt8) : UInt8 := c ||| 32

/-- The value the digit loop gives a byte: `'0'..'9'`, then `'a'..'z'` in either case from 10. -/
def digitValue (c : UInt8) : Option Nat :=
  if isDigit c then some (c.toNat - 48)
  else if 97 ≤ (lower c).toNat ∧ (lower c).toNat ≤ 122 then some ((lower c).toNat - 87)
  else none

/-- The digit loop of `strconv.ParseUint(s0, base, 64)` after the prefix, `n` the value read so
far: the value and whether an underscore was skipped, or the value and the error it returns at
once.  Underscores are skipped only in base 0. -/
def parseUintLoop (s0 : Bytes) (base : Nat) (base0 : Bool) :
    Nat → Bool → Bytes → Except (Word × GoError) (Nat × Bool)
  | n, und, [] => .ok (n, und)
  | n, und, c :: cs =>
    if c = 95 ∧ base0 = true then parseUintLoop s0 base base0 n true cs
    else
      match digitValue c with
      | none => .error (0, .numError "ParseUint" s0 .errSyntax)
      | some d =>
        if base ≤ d then .error (0, .numError "ParseUint" s0 .errSyntax)
        else if maxUint64 / base + 1 ≤ n then
          .error (BitVec.ofNat 64 maxUint64, .numError "ParseUint" s0 .errRange)
        else if maxUint64 < n * base + d then
          .error (BitVec.ofNat 64 maxUint64, .numError "ParseUint" s0 .errRange)
        else parseUintLoop s0 base base0 (n * base + d) und cs

/-- What `underscoreOK` saw last: the start, a digit or base prefix, an underscore, or another
byte. -/
inductive Saw where
  | start
  | digit
  | underscore
  | other
deriving DecidableEq, Repr

/-- The loop of `underscoreOK` over the number proper. -/
def underscoreScan (hex : Bool) : Saw → Bytes → Bool
  | saw, [] => saw ≠ .underscore
  | saw, c :: cs =>
    if isDigit c || (hex && 97 ≤ (lower c).toNat && (lower c).toNat ≤ 102) then
      underscoreScan hex .digit cs
    else if c = 95 then saw = .digit && underscoreScan hex .underscore cs
    else if saw = .underscore then false
    else underscoreScan hex .other cs

/-- `underscoreOK(s)`: an underscore stands only between digits, or between a base prefix and a
digit, after an optional sign. -/
def underscoreOK (s : Bytes) : Bool :=
  let s := match s with
    | c :: t => if c = 45 ∨ c = 43 then t else c :: t
    | [] => []
  match s with
  | 48 :: c1 :: rest =>
    if lower c1 = 98 ∨ lower c1 = 111 ∨ lower c1 = 120 then
      underscoreScan (lower c1 = 120) .digit rest
    else underscoreScan false .start s
  | _ => underscoreScan false .start s

/-- The base `ParseUint` takes from the prefix of `c :: t` in base 0, and the digits after it. -/
def basePrefix (c : UInt8) (t : Bytes) : Nat × Bytes :=
  if c = 48 then
    match t with
    | c1 :: r :: rs =>
      if lower c1 = 98 then (2, r :: rs)
      else if lower c1 = 111 then (8, r :: rs)
      else if lower c1 = 120 then (16, r :: rs)
      else (8, t)
    | _ => (8, t)
  else (10, c :: t)

/-- `strconv.ParseUint(s, 0, 64)`. -/
def parseUint0 (s : Bytes) : Word × Option GoError :=
  match s with
  | [] => (0, some (.numError "ParseUint" [] .errSyntax))
  | c :: t =>
    match parseUintLoop s (basePrefix c t).1 true 0 false (basePrefix c t).2 with
    | .error (v, e) => (v, some e)
    | .ok (n, und) =>
      if und && !underscoreOK s then (0, some (.numError "ParseUint" s .errSyntax))
      else (BitVec.ofNat 64 n, none)


/-! ## Decimal rendering -/

/-- The byte of the decimal digit `d`. -/
def digitByte (d : Nat) : UInt8 := (d + 48).toUInt8

/-- `%d` of an unsigned value: its decimal digits, most significant first. -/
def formatUint (n : Nat) : Bytes :=
  if n = 0 then [48] else ((Nat.digits 10 n).reverse).map digitByte

/-- `%d` of a signed value. -/
def formatInt (i : Int) : Bytes :=
  if i < 0 then 45 :: formatUint i.natAbs else formatUint i.toNat

theorem digitByte_toNat {d : Nat} (h : d < 10) : (digitByte d).toNat = d + 48 := by
  simp only [digitByte, Nat.toUInt8, UInt8.toNat, UInt8.ofNat, Fin.ofNat, UInt8.size]
  show (d + 48) % 256 = d + 48
  omega

theorem isDigit_digitByte {d : Nat} (h : d < 10) : isDigit (digitByte d) = true := by
  simp [isDigit, digitByte_toNat h]; omega

/-- The value the digit loop accumulates, without its range checks. -/
def decimalValue (n : Nat) (ds : Bytes) : Nat := ds.foldl (fun acc c => acc * 10 + (c.toNat - 48)) n

theorem le_decimalValue (n : Nat) (ds : Bytes) : n ≤ decimalValue n ds := by
  induction ds generalizing n with
  | nil => exact le_refl n
  | cons c ds ih => exact le_trans (by omega) (ih (n * 10 + (c.toNat - 48)))

/-- When every byte is a digit and the value fits a `uint64`, the loop never reports a range
error and returns the value. -/
theorem parseUintDigits_of_le (s0 : Bytes) (n : Nat) (ds : Bytes)
    (hd : ∀ c ∈ ds, isDigit c = true) (hle : decimalValue n ds ≤ maxUint64) :
    parseUintDigits s0 n ds = (BitVec.ofNat 64 (decimalValue n ds), none) := by
  induction ds generalizing n with
  | nil => rfl
  | cons c ds ih =>
    have hnext := le_decimalValue (n * 10 + (c.toNat - 48)) ds
    have hcut : ¬ uintCutoff ≤ n := by
      simp only [decimalValue, List.foldl_cons] at hle hnext
      simp only [uintCutoff, maxUint64] at hle ⊢; omega
    have hmax : ¬ maxUint64 < n * 10 + (c.toNat - 48) := by
      simp only [decimalValue, List.foldl_cons] at hle hnext; omega
    simp only [parseUintDigits, hd c (by simp), if_true, hcut, if_false, hmax]
    exact ih _ (fun c hc => hd c (by simp [hc])) hle

theorem decimalValue_reverse_digits (n : Nat) :
    decimalValue 0 (((Nat.digits 10 n).reverse).map digitByte) = n := by
  have key : ∀ L : List Nat, (∀ d ∈ L, d < 10) →
      decimalValue 0 ((L.reverse).map digitByte) = Nat.ofDigits 10 L := by
    intro L hL
    induction L with
    | nil => rfl
    | cons d L ih =>
      have hd : (digitByte d).toNat - 48 = d := by rw [digitByte_toNat (hL d (by simp))]; omega
      simp only [decimalValue, List.reverse_cons, List.map_append, List.foldl_append,
        List.map_cons, List.map_nil, List.foldl_cons, List.foldl_nil] at ih ⊢
      rw [ih (fun d hd => hL d (by simp [hd])), hd, Nat.ofDigits_cons]; ring
  rw [key _ (fun d hd => Nat.digits_lt_base (by norm_num) hd), Nat.ofDigits_digits]

theorem formatUint_digits (n : Nat) : ∀ c ∈ formatUint n, isDigit c = true := by
  unfold formatUint
  split
  · intro c hc; rw [List.mem_singleton.mp hc]; rfl
  · simp only [List.mem_map, List.mem_reverse]
    rintro c ⟨d, hd, rfl⟩
    exact isDigit_digitByte (Nat.digits_lt_base (by norm_num) hd)

theorem formatUint_ne_nil (n : Nat) : formatUint n ≠ [] := by
  unfold formatUint
  split
  · simp
  · simpa [Nat.digits_eq_nil_iff_eq_zero] using ‹¬n = 0›

theorem decimalValue_formatUint (n : Nat) : decimalValue 0 (formatUint n) = n := by
  unfold formatUint
  split
  · subst n; rfl
  · exact decimalValue_reverse_digits n

/-- Parsing the decimal rendering of a `uint64` gives it back. -/
theorem parseUint_formatUint (w : Word) : parseUint (formatUint w.toNat) = (w, none) := by
  have hlt := w.isLt
  rw [parseUint, if_neg (formatUint_ne_nil _), parseUintDigits_of_le _ _ _ (formatUint_digits _)
    (by rw [decimalValue_formatUint]; simp only [maxUint64]; omega), decimalValue_formatUint,
    BitVec.ofNat_toNat, BitVec.setWidth_eq]

theorem formatUint_head (n : Nat) : ∃ c t, formatUint n = c :: t ∧ isDigit c = true := by
  obtain ⟨c, t, h⟩ := List.exists_cons_of_ne_nil (formatUint_ne_nil n)
  exact ⟨c, t, h, formatUint_digits n c (by simp [h])⟩

theorem formatUint_head_ne_zero {n : Nat} (hn : n ≠ 0) : (formatUint n).head? ≠ some 48 := by
  have hne : Nat.digits 10 n ≠ [] := Nat.digits_ne_nil_iff_ne_zero.mpr hn
  rw [formatUint, if_neg hn, List.head?_map, List.head?_reverse, List.getLast?_eq_getLast _ hne]
  simp only [Option.map_some', ne_eq, Option.some.injEq]
  intro h
  have hd := digitByte_toNat (Nat.digits_lt_base (by norm_num) (List.getLast_mem hne))
  rw [h, show (48 : UInt8).toNat = 48 from rfl] at hd
  exact Nat.getLast_digit_ne_zero 10 hn (by omega)

theorem parseUint_formatUint_of_lt {n : Nat} (h : n < 2 ^ 64) :
    parseUint (formatUint n) = (BitVec.ofNat 64 n, none) := by
  have := parseUint_formatUint (BitVec.ofNat 64 n)
  rwa [BitVec.toNat_ofNat, Nat.mod_eq_of_lt h] at this

/-- Parsing the decimal rendering of an `int64` gives it back. -/
theorem parseInt_formatInt (w : Word) : parseInt (formatInt w.toInt) = (w, none) := by
  have hw := w.isLt
  rw [BitVec.toInt_eq_toNat_cond]
  split
  · -- a non-negative value: the rendering starts with a digit
    obtain ⟨c, t, hct, hc⟩ := formatUint_head w.toNat
    have h43 : c ≠ 43 := by rintro rfl; exact absurd hc (by decide)
    have h45 : c ≠ 45 := by rintro rfl; exact absurd hc (by decide)
    have hpu := parseUint_formatUint w
    rw [hct] at hpu
    have hfmt : formatInt (w.toNat : Int) = c :: t := by simp [formatInt, hct]
    simp [parseInt, hfmt, h43, h45, hpu]
    omega
  · -- a negative value: `-` and the digits of its magnitude `m`
    obtain ⟨m, hm⟩ : ∃ m, m = 2 ^ 64 - w.toNat := ⟨_, rfl⟩
    have hfmt : formatInt ((w.toNat : Int) - ((2 ^ 64 : Nat) : Int)) = 45 :: formatUint m := by
      rw [formatInt, if_pos (by omega)]; congr 2; omega
    have hpu := parseUint_formatUint_of_lt (n := m) (by omega)
    have hmv : (BitVec.ofNat 64 m).toNat = m := by rw [BitVec.toNat_ofNat]; omega
    rw [hfmt]
    simp [parseInt, hpu, hmv, show ¬ 9223372036854775808 < m by omega]
    apply BitVec.eq_of_toNat_eq
    rw [BitVec.toNat_neg, BitVec.toNat_ofNat]
    omega

/-! ## Base 0 against base 10 -/

theorem digitValue_of_isDigit {c : UInt8} (h : isDigit c = true) :
    digitValue c = some (c.toNat - 48) := by
  simp [digitValue, h]

theorem ten_le_of_digitValue {c : UInt8} {d : Nat} (h : isDigit c = false)
    (hd : digitValue c = some d) : 10 ≤ d := by
  simp only [digitValue, h, Bool.false_eq_true, if_false] at hd
  split at hd
  · cases hd; omega
  · cases hd

/-- Without underscores the loop in base 10 is the loop of `ParseUint(s, 10, 64)`. -/
theorem parseUintLoop_ten (s0 : Bytes) (b0 : Bool) (n : Nat) (ds : Bytes) (hu : 95 ∉ ds)
    (hn : n ≤ maxUint64) :
    parseUintLoop s0 10 b0 n false ds =
      match parseUintDigits s0 n ds with
      | (v, none) => .ok (v.toNat, false)
      | (v, some e) => .error (v, e) := by
  induction ds generalizing n with
  | nil =>
    simp only [parseUintLoop, parseUintDigits, BitVec.toNat_ofNat]
    rw [Nat.mod_eq_of_lt (by simp only [maxUint64] at hn; omega)]
  | cons c cs ih =>
    have hc : c ≠ 95 := fun h => hu (h ▸ List.mem_cons_self _ _)
    rw [parseUintLoop, if_neg (fun h => hc h.1), parseUintDigits]
    cases hd : isDigit c
    · -- not a digit: a syntax error in both
      rw [if_neg (by simp)]
      rcases hv : digitValue c with _ | d
      · rfl
      · exact if_pos (ten_le_of_digitValue hd hv)
    · have h57 : c.toNat - 48 < 10 := by
        simp only [isDigit, Bool.and_eq_true, decide_eq_true_eq] at hd
        omega
      rw [digitValue_of_isDigit hd, if_pos rfl]
      dsimp only
      rw [if_neg (show ¬ 10 ≤ c.toNat - 48 by omega), show maxUint64 / 10 + 1 = uintCutoff from rfl]
      split_ifs
      · rfl
      · rfl
      · exact ih _ (fun h => hu (List.mem_cons_of_mem _ h)) (by omega)

/-- Base 0 reads a text that neither starts with `0` nor holds an underscore as base 10 does:
the same value and the same error. -/
theorem parseUint0_eq_parseUint {s : Bytes} (h0 : s.head? ≠ some 48) (hu : 95 ∉ s) :
    parseUint0 s = parseUint s := by
  cases s with
  | nil => rfl
  | cons c t =>
    have hb : basePrefix c t = (10, c :: t) := if_neg fun h => h0 (by rw [h]; rfl)
    rw [parseUint0, hb, parseUintLoop_ten _ _ 0 _ hu (Nat.zero_le _), parseUint,
      if_neg (List.cons_ne_nil _ _)]
    rcases parseUintDigits (c :: t) 0 (c :: t) with ⟨v, _ | e⟩
    · simp [BitVec.ofNat_toNat, BitVec.setWidth_eq]
    · rfl

/-- Base 0 reads the decimal rendering of every `uint64`, `0` included. -/
theorem parseUint0_formatUint {n : Nat} (h : n < 2 ^ 64) :
    parseUint0 (formatUint n) = (BitVec.ofNat 64 n, none) := by
  by_cases hn : n = 0
  · subst hn; rfl
  · rw [parseUint0_eq_parseUint (formatUint_head_ne_zero hn)
      (fun hm => absurd (formatUint_digits n _ hm) (by decide)), parseUint_formatUint_of_lt h]

/-! ## Hexadecimal rendering -/

/-- The byte of the hexadecimal digit `d`, small letters from 10. -/
def hexDigitByte (d : Nat) : UInt8 := if d < 10 then (d + 48).toUInt8 else (d + 87).toUInt8

/-- `%x` of an unsigned value: its hexadecimal digits, most significant first. -/
def formatHex (n : Nat) : Bytes :=
  if n = 0 then [48] else ((Nat.digits 16 n).reverse).map hexDigitByte

theorem digitValue_hexDigitByte : ∀ d, d < 16 → digitValue (hexDigitByte d) = some d
  | 0, _ | 1, _ | 2, _ | 3, _ | 4, _ | 5, _ | 6, _ | 7, _ | 8, _ | 9, _ | 10, _ | 11, _ | 12, _
  | 13, _ | 14, _ | 15, _ => by decide
  | _ + 16, h => absurd h (by omega)

theorem formatHex_digits (n : Nat) : ∀ c ∈ formatHex n, ∃ d, digitValue c = some d ∧ d < 16 := by
  unfold formatHex
  split
  · intro c hc; rw [List.mem_singleton.mp hc]; exact ⟨0, rfl, by omega⟩
  · simp only [List.mem_map, List.mem_reverse]
    rintro c ⟨d, hd, rfl⟩
    have := Nat.digits_lt_base (by norm_num) hd
    exact ⟨d, digitValue_hexDigitByte d this, this⟩

/-- The value of the digits `ds` read on from `n` in base `b`, without the range checks. -/
def digitsValue (b n : Nat) (ds : Bytes) : Nat :=
  ds.foldl (fun acc c => acc * b + (digitValue c).getD 0) n

theorem le_digitsValue {b : Nat} (hb : 0 < b) (n : Nat) (ds : Bytes) : n ≤ digitsValue b n ds := by
  induction ds generalizing n with
  | nil => exact le_refl n
  | cons c ds ih =>
    exact le_trans (Nat.le_add_right_of_le (Nat.le_mul_of_pos_right n hb)) (ih _)

/-- When every byte is a digit of the base and the value fits a `uint64`, the loop returns the
value. -/
theorem parseUintLoop_of_le {b : Nat} (hb : 0 < b) (s0 : Bytes) (b0 und : Bool) (n : Nat)
    (ds : Bytes) (hd : ∀ c ∈ ds, ∃ d, digitValue c = some d ∧ d < b)
    (hle : digitsValue b n ds ≤ maxUint64) :
    parseUintLoop s0 b b0 n und ds = .ok (digitsValue b n ds, und) := by
  induction ds generalizing n with
  | nil => rfl
  | cons c cs ih =>
    obtain ⟨d, hv, hdb⟩ := hd c (List.mem_cons_self _ _)
    have hc : c ≠ 95 := by
      rintro rfl
      rw [show digitValue 95 = none by decide] at hv
      cases hv
    have hstep : n * b + d ≤ maxUint64 := by
      have := le_digitsValue hb (n * b + d) cs
      simp only [digitsValue, List.foldl_cons, hv, Option.getD_some] at hle this ⊢; omega
    have hcut : n ≤ maxUint64 / b := (Nat.le_div_iff_mul_le hb).mpr (by omega)
    rw [parseUintLoop, if_neg (fun h => hc h.1), hv]
    simp only [if_neg (show ¬ b ≤ d by omega), if_neg (show ¬ maxUint64 / b + 1 ≤ n by omega),
      if_neg (show ¬ maxUint64 < n * b + d by omega)]
    rw [ih _ (fun c hc => hd c (List.mem_cons_of_mem _ hc)) (by
      simpa only [digitsValue, List.foldl_cons, hv, Option.getD_some] using hle)]
    simp only [digitsValue, List.foldl_cons, hv, Option.getD_some]

theorem digitsValue_formatHex (n : Nat) : digitsValue 16 0 (formatHex n) = n := by
  unfold formatHex
  split
  · subst n; rfl
  · have key : ∀ L : List Nat, (∀ d ∈ L, d < 16) →
        digitsValue 16 0 ((L.reverse).map hexDigitByte) = Nat.ofDigits 16 L := by
      intro L hL
      induction L with
      | nil => rfl
      | cons d L ih =>
        simp only [digitsValue, List.reverse_cons, List.map_append, List.foldl_append,
          List.map_cons, List.map_nil, List.foldl_cons, List.foldl_nil] at ih ⊢
        rw [ih (fun d hd => hL d (List.mem_cons_of_mem _ hd)),
          digitValue_hexDigitByte d (hL d (List.mem_cons_self _ _)), Option.getD_some,
          Nat.ofDigits_cons]
        ring
    rw [key _ (fun d hd => Nat.digits_lt_base (by norm_num) hd), Nat.ofDigits_digits]

theorem formatHex_ne_nil (n : Nat) : formatHex n ≠ [] := by
  unfold formatHex
  split
  · simp
  · simpa [Nat.digits_eq_nil_iff_eq_zero] using ‹¬n = 0›

/-- Base 0 reads `0x` and the hexadecimal rendering of every `uint64`. -/
theorem parseUint0_hex {n : Nat} (h : n < 2 ^ 64) :
    parseUint0 (48 :: 120 :: formatHex n) = (BitVec.ofNat 64 n, none) := by
  obtain ⟨c, t, hct⟩ := List.exists_cons_of_ne_nil (formatHex_ne_nil n)
  have hb : basePrefix 48 (120 :: formatHex n) = (16, formatHex n) := by rw [hct]; rfl
  rw [parseUint0, hb, parseUintLoop_of_le (by norm_num) _ _ _ 0 _ (formatHex_digits n)
    (by rw [digitsValue_formatHex]; simp only [maxUint64]; omega), digitsValue_formatHex]
  rfl

end Bpfstream
