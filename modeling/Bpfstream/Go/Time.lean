import Bpfstream.Go.Strconv

/-!
# `time.Parse(time.TimeOnly, value)` and `strings.TrimSpace`

The layout `"15:04:05"` reads an hour of one or two digits, then two-digit minutes and seconds,
optionally followed by a fraction of a second (package `time` accepts one after the seconds even
though the layout has none).  The result is a clock time on January 1 of year 0, so it is never
the zero `time.Time`, whose year is 1: the first-wins rule for `time` messages rests on that.
-/

namespace Bpfstream

/-- A `time.Time` in UTC, by its civil fields. -/
structure GoTime where
  year : Int
  month : Nat
  day : Nat
  hour : Nat
  minute : Nat
  second : Nat
  nsec : Nat
deriving DecidableEq, Repr

/-- The zero `time.Time`: January 1, year 1, 00:00:00 UTC. -/
def GoTime.zero : GoTime := ⟨1, 1, 1, 0, 0, 0, 0⟩

/-- `t.IsZero()`. -/
def GoTime.isZero (t : GoTime) : Bool := t = GoTime.zero

/-- `getnum(s, fixed)` of package `time`: two leading digits, or one when `fixed` is false and
the second byte is not a digit. -/
def getnum (s : Bytes) (fixed : Bool) : Option (Nat × Bytes) :=
  match s with
  | c :: d :: rest =>
    if !isDigit c then none
    else if isDigit d then some ((c.toNat - 48) * 10 + (d.toNat - 48), rest)
    else if fixed then none else some (c.toNat - 48, d :: rest)
  | [c] => if isDigit c && !fixed then some (c.toNat - 48, []) else none
  | [] => none

/-- The nanoseconds of a fraction `.ddd...`: its first nine digits, scaled to nine. -/
def fracNanos (digits : Bytes) : Nat :=
  decimalValue 0 (digits.take 9) * 10 ^ (9 - (digits.take 9).length)

/-- `time.Parse(time.TimeOnly, value)`. -/
def parseTimeOnly (value : Bytes) : Except GoError GoTime :=
  let bad := fun (detail : String) => Except.error (GoError.timeParse value detail)
  match getnum value false with
  | none => bad "cannot parse as 15"
  | some (hour, v1) =>
    if 24 ≤ hour then bad "hour out of range" else
    match v1 with
    | 58 :: v2 =>
      match getnum v2 true with
      | none => bad "cannot parse as 04"
      | some (minute, v3) =>
        if 60 ≤ minute then bad "minute out of range" else
        match v3 with
        | 58 :: v4 =>
          match getnum v4 true with
          | none => bad "cannot parse as 05"
          | some (second, v5) =>
            if 60 ≤ second then bad "second out of range" else
            let (nsec, v6) : Nat × Bytes := match v5 with
              | c :: d :: rest =>
                if (c = 46 ∨ c = 44) ∧ isDigit d then
                  (fracNanos ((d :: rest).takeWhile isDigit), (d :: rest).dropWhile isDigit)
                else (0, v5)
              | _ => (0, v5)
            if v6 = [] then .ok ⟨0, 1, 1, hour, minute, second, nsec⟩ else bad "extra text"
        | _ => bad "cannot parse as :"
    | _ => bad "cannot parse as :"

/-- A parsed clock time lies in year 0, so it is never the zero `time.Time`. -/
theorem parseTimeOnly_year {value : Bytes} {t : GoTime} (h : parseTimeOnly value = .ok t) :
    t.year = 0 := by
  unfold parseTimeOnly at h
  repeat' (first | split at h | simp only [reduceCtorEq] at h)
  all_goals (injection h with h; subst h; rfl)

theorem parseTimeOnly_not_isZero {value : Bytes} {t : GoTime} (h : parseTimeOnly value = .ok t) :
    t.isZero = false := by
  have := parseTimeOnly_year h
  simp only [GoTime.isZero, decide_eq_false_iff_not]
  rintro rfl
  simp [GoTime.zero] at this

/-! ## `Time.Format` -/

/-- `appendInt(b, n, width)` of package `time` for `n ≥ 0`: the decimal digits of `n`, padded
with zeros to `width`. -/
def padDigits (width n : Nat) : Bytes :=
  List.replicate (width - (formatUint n).length) 48 ++ formatUint n

/-- `t.Format(time.TimeOnly)`: `15:04:05`. -/
def GoTime.formatTimeOnly (t : GoTime) : Bytes :=
  padDigits 2 t.hour ++ 58 :: padDigits 2 t.minute ++ 58 :: padDigits 2 t.second

/-- `t.Format(time.RFC3339)`, `2006-01-02T15:04:05Z07:00`, for the wall time `t` of a zone
`offset` minutes east of UTC. -/
def GoTime.formatRFC3339 (t : GoTime) (offset : Int) : Bytes :=
  (if t.year < 0 then [45] else []) ++ padDigits 4 t.year.natAbs ++ 45 :: padDigits 2 t.month ++
    45 :: padDigits 2 t.day ++ 84 :: t.formatTimeOnly ++
    if offset = 0 then [90]
    else (if offset < 0 then 45 else 43) :: padDigits 2 (offset.natAbs / 60) ++
      58 :: padDigits 2 (offset.natAbs % 60)

theorem padDigits_head (width n : Nat) : ∃ c rest, padDigits width n = c :: rest ∧ isDigit c = true := by
  obtain ⟨c, t, hc, hd⟩ := formatUint_head n
  unfold padDigits
  cases width - (formatUint n).length with
  | zero => exact ⟨c, t, by rw [hc]; rfl, hd⟩
  | succ k => exact ⟨48, _, rfl, rfl⟩

/-- An RFC 3339 time starts with a digit of its year, or with the sign of a negative year. -/
theorem formatRFC3339_head (t : GoTime) (offset : Int) :
    ∃ c rest, t.formatRFC3339 offset = c :: rest ∧ (c = 45 ∨ isDigit c = true) := by
  unfold GoTime.formatRFC3339
  split
  · exact ⟨45, _, rfl, .inl rfl⟩
  · obtain ⟨c, rest, hc, hd⟩ := padDigits_head 4 t.year.natAbs
    exact ⟨c, _, by simp only [List.nil_append, hc, List.cons_append]; rfl, .inr hd⟩

/-! ## `strings.TrimSpace` -/

/-- The UTF-8 encodings of the runes `unicode.IsSpace` accepts. -/
def spaceRunes : List Bytes :=
  [[9], [10], [11], [12], [13], [32], [0xC2, 0x85], [0xC2, 0xA0], [0xE1, 0x9A, 0x80]] ++
  (List.range 11).map (fun k => [0xE2, 0x80, (0x80 + k).toUInt8]) ++
  [[0xE2, 0x80, 0xA8], [0xE2, 0x80, 0xA9], [0xE2, 0x80, 0xAF], [0xE2, 0x81, 0x9F],
    [0xE3, 0x80, 0x80]]

/-- Drop leading runes of `runes`, one rune per unit of fuel. -/
def dropRunes (runes : List Bytes) : Nat → Bytes → Bytes
  | 0, s => s
  | n + 1, s =>
    match runes.find? (fun r => r.isPrefixOf s) with
    | some r => dropRunes runes n (s.drop r.length)
    | none => s

/-- `strings.TrimSpace(s)`: leading and trailing white space removed.  The trailing side reads
the reversed string against the reversed encodings. -/
def trimSpace (s : Bytes) : Bytes :=
  let left := dropRunes spaceRunes s.length s
  (dropRunes (spaceRunes.map List.reverse) left.length left.reverse).reverse

end Bpfstream
