import Bpfstream.Go.Json
import Bpfstream.Go.Time
import Bpfstream.Go.Sort

/-!
# `encoding/json` and `encoding/csv`, as the printers use them

`json.Marshal` of the printers' values, written compactly: an `int64` or an `int` in decimal, a
string through `appendString` with HTML escaping on, as `Marshal` has it, a struct's fields in
declaration order under their tags, and a `map[string]int64` with its keys in byte order.
`appendString` copies every valid UTF-8 sequence but U+2028 and U+2029, escapes the ASCII bytes
outside `htmlSafeSet`, and writes `\ufffd` for each byte that starts no valid sequence.

`csv.NewWriter(os.Stdout)` with its defaults, `Comma = ','` and `UseCRLF = false`: `Write` joins
a record's fields with commas, quotes a field that needs it with its quotes doubled, and ends the
record with `\n`.
-/

namespace Bpfstream

/-! ## `encoding/json` -/

/-- `htmlSafeSet[b]` for an ASCII byte `b`: printable, and none of `"`, `\`, `<`, `>`, `&`. -/
def htmlSafe (b : UInt8) : Bool :=
  32 ≤ b.toNat && b ≠ 34 && b ≠ 92 && b ≠ 60 && b ≠ 62 && b ≠ 38

/-- What `appendString` writes for an ASCII byte outside `htmlSafeSet`: a two-byte escape for
`\`, `"`, `\b`, `\f`, `\n`, `\r`, `\t`, and `\u00XX` in lower-case hexadecimal for the others. -/
def escapeAscii (b : UInt8) : Bytes :=
  if b = 92 ∨ b = 34 then [92, b]
  else if b = 8 then [92, 98]
  else if b = 12 then [92, 102]
  else if b = 10 then [92, 110]
  else if b = 13 then [92, 114]
  else if b = 9 then [92, 116]
  else [92, 117, 48, 48, hexDigitByte (b.toNat / 16), hexDigitByte (b.toNat % 16)]

/-- `\ufffd`, which `appendString` writes for a byte that starts no valid UTF-8 sequence. -/
def replacementEscape : Bytes := [92, 117, 102, 102, 102, 100]

/-- `utf8.DecodeRune` on the bytes from a lead byte `c` of `0x80` on: the continuation bytes of
the valid sequence `c` starts, with the bytes after them, or none where it returns
`(RuneError, 1)`. -/
def decodeRune (c : UInt8) (rest : Bytes) : Option (Bytes × Bytes) :=
  match utf8Width c, rest with
  | 2, b1 :: r => if utf8Cont b1 then some ([b1], r) else none
  | 3, b1 :: b2 :: r => if utf8Second3 c b1 && utf8Cont b2 then some ([b1, b2], r) else none
  | 4, b1 :: b2 :: b3 :: r =>
    if utf8Second4 c b1 && utf8Cont b2 && utf8Cont b3 then some ([b1, b2, b3], r) else none
  | _, _ => none

theorem decodeRune_length {c : UInt8} {rest cont r : Bytes} (h : decodeRune c rest = some (cont, r)) :
    r.length < rest.length := by
  unfold decodeRune at h
  split at h <;> (try split_ifs at h) <;> cases h <;> simp only [List.length_cons] <;> omega

/-- A decoded rune as `appendString` writes it: U+2028 and U+2029 (`E2 80 A8`, `E2 80 A9`) as
`\u2028` and `\u2029`, whose last digit is `hex[c & 0xF]`, and any other as it is. -/
def runeText (c : UInt8) (cont : Bytes) : Bytes :=
  if c = 0xE2 ∧ cont = [0x80, 0xA8] then [92, 117, 50, 48, 50, 56]
  else if c = 0xE2 ∧ cont = [0x80, 0xA9] then [92, 117, 50, 48, 50, 57]
  else c :: cont

/-- What `appendString(dst, s, true)` writes between the quotes: an ASCII byte as it is or
escaped, a valid sequence through `runeText`, and `\ufffd` for a byte that starts none, after
which the loop goes on at the next byte. -/
def appendStringBody : Bytes → Bytes
  | [] => []
  | c :: rest =>
    if c.toNat < 0x80 then (if htmlSafe c then [c] else escapeAscii c) ++ appendStringBody rest
    else
      match h : decodeRune c rest with
      | some (cont, r) =>
        have := decodeRune_length h
        runeText c cont ++ appendStringBody r
      | none => replacementEscape ++ appendStringBody rest
termination_by s => s.length

theorem appendStringBody_ascii {c : UInt8} (hc : c.toNat < 0x80) (rest : Bytes) :
    appendStringBody (c :: rest) = (if htmlSafe c then [c] else escapeAscii c) ++ appendStringBody rest := by
  rw [appendStringBody, if_pos hc]

theorem appendStringBody_rune {c : UInt8} {rest cont r : Bytes} (hc : ¬ c.toNat < 0x80)
    (hd : decodeRune c rest = some (cont, r)) :
    appendStringBody (c :: rest) = runeText c cont ++ appendStringBody r := by
  rw [appendStringBody, if_neg hc]
  split <;> simp_all

theorem appendStringBody_invalid {c : UInt8} {rest : Bytes} (hc : ¬ c.toNat < 0x80)
    (hd : decodeRune c rest = none) :
    appendStringBody (c :: rest) = replacementEscape ++ appendStringBody rest := by
  rw [appendStringBody, if_neg hc]
  split <;> simp_all

/-- `appendString(nil, s, true)`: `s` as a JSON string. -/
def jsonString (s : Bytes) : Bytes := 34 :: (appendStringBody s ++ [34])

/-- `json.Marshal` of an `int64` or an `int`: `strconv.AppendInt(b, i, 10)`. -/
def jsonInt (i : Int) : Bytes := formatInt i

/-- A member of an object: its key as a string, `:`, its value's text. -/
def jsonMember (m : Bytes × Bytes) : Bytes := jsonString m.1 ++ 58 :: m.2

/-- A compact object: `{`, the members with `,` before each but the first, `}`.  A struct's
encoder writes its fields so, under their tags, and a map's encoder its entries. -/
def jsonObject : List (Bytes × Bytes) → Bytes
  | [] => [123, 125]
  | m :: ms => 123 :: (jsonMember m ++ ms.flatMap (fun m => 44 :: jsonMember m) ++ [125])

/-- `strings.Compare(a, b) < 0`: the byte-wise order. -/
def bytesLess : Bytes → Bytes → Bool
  | [], [] => false
  | [], _ :: _ => true
  | _ :: _, [] => false
  | a :: as, b :: bs => if a = b then bytesLess as bs else a < b

/-- The map encoder's `slices.SortFunc` of the entries by `strings.Compare` of their keys.  The
keys of a map are distinct, so every sort gives the one order; insertion sort stands for it. -/
def sortByKey (entries : List (Bytes × Word)) : List (Bytes × Word) :=
  insertionSort (fun a b => bytesLess a.1 b.1) entries

/-- `json.Marshal` of a non-nil `map[string]int64`. -/
def jsonIntMap (entries : List (Bytes × Word)) : Bytes :=
  jsonObject ((sortByKey entries).map fun kv => (kv.1, jsonInt kv.2.toInt))

/-! ## `encoding/csv` -/

/-- `fieldNeedsQuotes(field)` with `Comma = ','`: never for the empty field, always for `\.`,
and otherwise when the field holds `\n`, `\r`, `"` or `,`, or starts with a rune that
`unicode.IsSpace` accepts. -/
def fieldNeedsQuotes (field : Bytes) : Bool :=
  if field = [] then false
  else if field = [92, 46] then true
  else field.any (fun c => c = 10 || c = 13 || c = 34 || c = 44) ||
    spaceRunes.any (·.isPrefixOf field)

/-- A quoted field: `"`, the field with each `"` doubled and `\r`, `\n` as they are (`UseCRLF`
is false), and `"`. -/
def quoteField (field : Bytes) : Bytes :=
  34 :: (field.flatMap (fun c => if c = 34 then [34, 34] else [c]) ++ [34])

/-- `w.Write(record)`: the fields, each quoted when it needs it, joined by `,`, then `\n`. -/
def csvRecord (record : List Bytes) : Bytes :=
  [44].intercalate (record.map fun f => if fieldNeedsQuotes f then quoteField f else f) ++ [10]

/-- The records written one after the other, as `w.Flush()` hands them on. -/
def csvText (records : List (List Bytes)) : Bytes := records.flatMap csvRecord

end Bpfstream
