import Bpfstream.Go.Strconv

/-!
# simdjson-go, as the program uses it

`simdjson.ParseNDStream` cuts its input into chunks of whole lines and parses each chunk as a
sequence of JSON documents; `ParsedJson.ForEach` then walks the documents of a chunk, and the
program reads them through `Iter.FindElement`, `Iter.String`, `Iter.Int` and `Iter.Object`.

The model parses RFC 8259 JSON by recursive descent.  simdjson-go does not check that a chunk is
UTF-8: a string's bytes are copied as they are.  Its first stage rejects a chunk in which a
document is not an object or an array.  Number literals keep simdjson's tags: an integer literal
is kept exactly, and `Iter.Int` reproduces what simdjson does with it (an `int64` is read back,
a literal that only fits `uint64`, or no 64-bit type, fails).  A literal with a fraction or an
exponent is stored as the `float64` nearest its value, which `Iter.Int` truncates.
-/

namespace Bpfstream

/-- A JSON value as simdjson's tape holds it. -/
inductive JsonValue where
  | null
  | bool (b : Bool)
  /-- A number literal without fraction or exponent, by its exact value. -/
  | int (v : Int)
  /-- A number literal with a fraction or an exponent, by its text. -/
  | float (lit : Bytes)
  /-- A string, escapes decoded, as UTF-8 bytes. -/
  | str (s : Bytes)
  | arr (items : List JsonValue)
  /-- An object's members in document order, duplicates kept. -/
  | obj (members : List (Bytes × JsonValue))
deriving Repr

/-! ## Lexical layer -/

/-- JSON white space: space, tab, line feed, carriage return. -/
def isWs (c : UInt8) : Bool := c = 32 || c = 9 || c = 10 || c = 13

/-- White space removed from the front. -/
def skipWs (s : Bytes) : Bytes := s.dropWhile isWs

/-- The value of a hexadecimal digit. -/
def hexVal (c : UInt8) : Option Nat :=
  if isDigit c then some (c.toNat - 48)
  else if 97 ≤ c.toNat ∧ c.toNat ≤ 102 then some (c.toNat - 87)
  else if 65 ≤ c.toNat ∧ c.toNat ≤ 70 then some (c.toNat - 55)
  else none

/-- The code unit of `\uXXXX`. -/
def hex4 (a b c d : UInt8) : Option Nat := do
  pure ((((← hexVal a) * 16 + (← hexVal b)) * 16 + (← hexVal c)) * 16 + (← hexVal d))

/-- The UTF-8 encoding of a code point. -/
def utf8Encode (cp : Nat) : Bytes :=
  if cp < 0x80 then [cp.toUInt8]
  else if cp < 0x800 then [(0xC0 + cp / 64).toUInt8, (0x80 + cp % 64).toUInt8]
  else if cp < 0x10000 then
    [(0xE0 + cp / 4096).toUInt8, (0x80 + cp / 64 % 64).toUInt8, (0x80 + cp % 64).toUInt8]
  else
    [(0xF0 + cp / 262144).toUInt8, (0x80 + cp / 4096 % 64).toUInt8,
      (0x80 + cp / 64 % 64).toUInt8, (0x80 + cp % 64).toUInt8]

/-- The byte a one-letter escape `\e` stands for. -/
def escapeByte (e : UInt8) : Option UInt8 :=
  if e = 34 ∨ e = 92 ∨ e = 47 then some e
  else if e = 98 then some 8
  else if e = 102 then some 12
  else if e = 110 then some 10
  else if e = 114 then some 13
  else if e = 116 then some 9
  else none

/-- `pre` put in front of the decoded part of a string body. -/
def consBody (pre : Bytes) (r : Option (Bytes × Bytes)) : Option (Bytes × Bytes) :=
  r.map fun (b, t) => (pre ++ b, t)

mutual
/-- A string literal after its opening quote: its decoded bytes and what follows the closing
quote.  Raw control bytes are rejected. -/
def parseStringBody : Bytes → Option (Bytes × Bytes)
  | [] => none
  | c :: rest =>
    if c = 34 then some ([], rest)
    else if c = 92 then parseEscape rest
    else if c < 0x20 then none
    else consBody [c] (parseStringBody rest)

/-- The rest of a string literal after a backslash; `\u` escapes of the surrogate range must
form a pair. -/
def parseEscape : Bytes → Option (Bytes × Bytes)
  | [] => none
  | e :: rest =>
    if e = 117 then
      match rest with
      | h1 :: h2 :: h3 :: h4 :: rest' =>
        match hex4 h1 h2 h3 h4 with
        | none => none
        | some cp =>
          if 0xD800 ≤ cp ∧ cp < 0xDC00 then
            match rest' with
            | 92 :: 117 :: g1 :: g2 :: g3 :: g4 :: rest'' =>
              match hex4 g1 g2 g3 g4 with
              | some lo =>
                if 0xDC00 ≤ lo ∧ lo < 0xE000 then
                  consBody (utf8Encode (0x10000 + (cp - 0xD800) * 0x400 + (lo - 0xDC00)))
                    (parseStringBody rest'')
                else none
              | none => none
            | _ => none
          else if 0xDC00 ≤ cp ∧ cp < 0xE000 then none
          else consBody (utf8Encode cp) (parseStringBody rest')
      | _ => none
    else
      match escapeByte e with
      | some b => consBody [b] (parseStringBody rest)
      | none => none
end

/-- An optional sign byte in front of `s`. -/
def takeSign (s : Bytes) (allowPlus : Bool) : Bytes × Bytes :=
  match s with
  | 45 :: t => ([45], t)
  | 43 :: t => if allowPlus then ([43], t) else ([], 43 :: t)
  | t => ([], t)

/-- The fraction part `. [0-9]+` of a number literal, if there is one. -/
def scanFrac : Bytes → Option (Bytes × Bytes)
  | 46 :: t =>
    let ds := t.takeWhile isDigit
    if ds = [] then none else some (46 :: ds, t.dropWhile isDigit)
  | t => some ([], t)

/-- The exponent part `[eE] [+-]? [0-9]+` of a number literal, if there is one. -/
def scanExp : Bytes → Option (Bytes × Bytes)
  | e :: t =>
    if e = 101 ∨ e = 69 then
      let (sg, t1) := takeSign t true
      let ds := t1.takeWhile isDigit
      if ds = [] then none else some (e :: sg ++ ds, t1.dropWhile isDigit)
    else some ([], e :: t)
  | [] => some ([], [])

/-- A number literal `-? (0 | [1-9][0-9]*) frac? exp?` at the front of `s`. -/
def parseNumber (s : Bytes) : Option (JsonValue × Bytes) :=
  let (sign, s1) := takeSign s false
  let intPart := s1.takeWhile isDigit
  if intPart = [] ∨ (intPart.head? = some 48 ∧ 1 < intPart.length) then none else
  match scanFrac (s1.dropWhile isDigit) with
  | none => none
  | some (frac, s3) =>
    match scanExp s3 with
    | none => none
    | some (exp, s4) =>
      if frac = [] ∧ exp = [] then
        let n : Int := decimalValue 0 intPart
        some (.int (if sign = [] then n else -n), s4)
      else some (.float (sign ++ intPart ++ frac ++ exp), s4)

/-! ## Values and documents -/

mutual
/-- A JSON value at the front of the input, after white space; `fuel` bounds the recursion. -/
def parseValue : Nat → Bytes → Option (JsonValue × Bytes)
  | 0, _ => none
  | n + 1, s =>
    match skipWs s with
    | 123 :: rest =>
      match skipWs rest with
      | 125 :: rest' => some (.obj [], rest')
      | rest' => parseMembers n [] rest'
    | 91 :: rest =>
      match skipWs rest with
      | 93 :: rest' => some (.arr [], rest')
      | rest' => parseItems n [] rest'
    | 34 :: rest => (parseStringBody rest).map fun (b, r) => (.str b, r)
    | 116 :: 114 :: 117 :: 101 :: rest => some (.bool true, rest)
    | 102 :: 97 :: 108 :: 115 :: 101 :: rest => some (.bool false, rest)
    | 110 :: 117 :: 108 :: 108 :: rest => some (.null, rest)
    | s' => parseNumber s'

/-- The members of an object from the first member on, `acc` those read, last first. -/
def parseMembers : Nat → List (Bytes × JsonValue) → Bytes → Option (JsonValue × Bytes)
  | 0, _, _ => none
  | n + 1, acc, s =>
    match skipWs s with
    | 34 :: rest =>
      match parseStringBody rest with
      | some (key, r1) =>
        match skipWs r1 with
        | 58 :: r2 =>
          match parseValue n r2 with
          | some (v, r3) =>
            match skipWs r3 with
            | 44 :: r4 => parseMembers n ((key, v) :: acc) r4
            | 125 :: r4 => some (.obj ((key, v) :: acc).reverse, r4)
            | _ => none
          | none => none
        | _ => none
      | none => none
    | _ => none

/-- The items of an array from the first item on, `acc` those read, last first. -/
def parseItems : Nat → List JsonValue → Bytes → Option (JsonValue × Bytes)
  | 0, _, _ => none
  | n + 1, acc, s =>
    match parseValue n s with
    | some (v, r) =>
      match skipWs r with
      | 44 :: r' => parseItems n (v :: acc) r'
      | 93 :: r' => some (.arr (v :: acc).reverse, r')
      | _ => none
    | none => none
end

/-- A UTF-8 continuation byte, `10xxxxxx`. -/
def utf8Cont (b : UInt8) : Bool := 0x80 ≤ b.toNat && b.toNat ≤ 0xBF

/-- The second byte of a three-byte sequence led by `c`: after `E0` it must be `A0..BF` (no
overlong form), after `ED` it must be `80..9F` (no surrogate). -/
def utf8Second3 (c b1 : UInt8) : Bool :=
  if c.toNat = 0xE0 then 0xA0 ≤ b1.toNat && b1.toNat ≤ 0xBF
  else if c.toNat = 0xED then 0x80 ≤ b1.toNat && b1.toNat ≤ 0x9F else utf8Cont b1

/-- The second byte of a four-byte sequence led by `c`: after `F0` it must be `90..BF`, after
`F4` it must be `80..8F` (nothing above U+10FFFF). -/
def utf8Second4 (c b1 : UInt8) : Bool :=
  if c.toNat = 0xF0 then 0x90 ≤ b1.toNat && b1.toNat ≤ 0xBF
  else if c.toNat = 0xF4 then 0x80 ≤ b1.toNat && b1.toNat ≤ 0x8F else utf8Cont b1

/-- The length of the sequence the lead byte `c` opens; `0` for a byte that opens none. -/
def utf8Width (c : UInt8) : Nat :=
  if c.toNat < 0x80 then 1
  else if 0xC2 ≤ c.toNat ∧ c.toNat ≤ 0xDF then 2
  else if 0xE0 ≤ c.toNat ∧ c.toNat ≤ 0xEF then 3
  else if 0xF0 ≤ c.toNat ∧ c.toNat ≤ 0xF4 then 4
  else 0

/-- `utf8.Valid`: the bytes are well-formed UTF-8 (shortest forms, no surrogates). -/
def validUtf8 : Bytes → Bool
  | [] => true
  | c :: rest =>
    match utf8Width c, rest with
    | 1, r => validUtf8 r
    | 2, b1 :: r => utf8Cont b1 && validUtf8 r
    | 3, b1 :: b2 :: r => utf8Second3 c b1 && utf8Cont b2 && validUtf8 r
    | 4, b1 :: b2 :: b3 :: r => utf8Second4 c b1 && utf8Cont b2 && utf8Cont b3 && validUtf8 r
    | _, _ => false

/-- The documents of a chunk, one value after another separated by white space.  Each must be an
object or an array: simdjson's first stage rejects a chunk with a scalar at the top. -/
def parseDocs : Nat → Bytes → Option (List JsonValue)
  | 0, _ => none
  | n + 1, s =>
    match skipWs s with
    | [] => some []
    | c :: rest =>
      if c = 123 ∨ c = 91 then
        match parseValue (2 * (c :: rest).length + 2) (c :: rest) with
        | some (v, rest') => (parseDocs n rest').map (v :: ·)
        | none => none
      else none

/-- `parseMessageNdjson`: a chunk's documents, or `none` when the chunk is not a sequence of JSON
objects and arrays. -/
def parseNdjson (chunk : Bytes) : Option (List JsonValue) := parseDocs (chunk.length + 1) chunk

/-! ## `Iter` -/

/-- simdjson's error when a key is missing. -/
def errPathNotFound : GoError := .lib "path not found"

/-- `Type.String()` of the tag a value has on the tape: an integer literal is tagged `int` in the
`int64` range, `uint` above it in the `uint64` range, and is stored as a float beyond. -/
def JsonValue.typeName : JsonValue → String
  | .null => "null"
  | .bool _ => "bool"
  | .int v =>
    if -2 ^ 63 ≤ v ∧ v < 2 ^ 63 then "int" else if 2 ^ 63 ≤ v ∧ v < 2 ^ 64 then "uint" else "float"
  | .float _ => "float"
  | .str _ => "string"
  | .arr _ => "array"
  | .obj _ => "object"

/-- `Iter.FindElement(dst, key)`: the value of the first member named `key`, or the type error of
a value that is not an object. -/
def findElement (v : JsonValue) (key : Bytes) : Except GoError JsonValue :=
  match v with
  | .obj ms =>
    match ms.find? (fun m => m.1 = key) with
    | some m => .ok m.2
    | none => .error errPathNotFound
  | v => .error (.lib ("type " ++ v.typeName ++ " is not object"))

/-- `Iter.String()` and `Iter.StringBytes()`. -/
def iterString : JsonValue → Except GoError Bytes
  | .str b => .ok b
  | _ => .error (.lib "value is not string")

/-- `Iter.Object(dst)` followed by `obj.Parse(nil)`: the members of an object, in order. -/
def objectElements : JsonValue → Except GoError (List (Bytes × JsonValue))
  | .obj ms => .ok ms
  | _ => .error (.lib "value is not object")

/-- The `float64` nearest `num / den`, ties to even, as a fraction, for `1/2 ≤ num / den < 2^64`:
`strconv.ParseFloat`'s rounding.  In that range every `float64` is normal, with the exponent
`⌊log₂ (num / den)⌋ - 52` and 53 bits of mantissa. -/
def roundFloat64 (num den : Nat) : Nat × Nat :=
  let e : Int := (if den ≤ num then (Nat.log2 (num / den) : Int) else -1) - 52
  let (n, d) := if 0 ≤ e then (num, den * 2 ^ e.toNat) else (num * 2 ^ (-e).toNat, den)
  let q := n / d
  let r := n % d
  let m := if d < 2 * r ∨ (2 * r = d ∧ q % 2 = 1) then q + 1 else q
  if 0 ≤ e then (m * 2 ^ e.toNat, 1) else (m, 2 ^ (-e).toNat)

/-- `Iter.Int()` on a literal with a fraction or an exponent: simdjson stores the `float64`
nearest the literal's value `m · 10^scale`, and `Int()` rejects it beyond `±2^63` and truncates
it otherwise (`int64(2^63)` is `MinInt64` on amd64).  The magnitude is reckoned as a fraction
where it decides the result: below `1/2` it truncates to `0`, and from `10^19` on it is beyond
`2^63`, which `(0, 1)` and `(2^64, 1)` stand for. -/
def floatLiteralToInt (lit : Bytes) : Except GoError Word :=
  let (sign, s1) := takeSign lit false
  let intPart := s1.takeWhile isDigit
  let (frac, s3) := match s1.dropWhile isDigit with
    | 46 :: t => (t.takeWhile isDigit, t.dropWhile isDigit)
    | t => ([], t)
  let (esign, e1) := match s3 with
    | _ :: t => takeSign t true
    | [] => ([], [])
  let e : Int := (if esign = [45] then -1 else 1) * decimalValue 0 (e1.takeWhile isDigit)
  let digits := (intPart ++ frac).dropWhile (· = 48)
  let m := decimalValue 0 digits
  let scale := e - frac.length
  let mag : Nat × Nat :=
    if digits = [] ∨ digits.length + scale ≤ -1 then (0, 1)
    else if 20 ≤ digits.length + scale then (2 ^ 64, 1)
    else
      let (num, den) :=
        if 0 ≤ scale then (m * 10 ^ scale.toNat, 1) else (m, 10 ^ (-scale).toNat)
      if 2 * num < den then (0, 1) else roundFloat64 num den
  if 2 ^ 63 * mag.2 < mag.1 then
    .error (.lib (if sign = [] then "float value overflows int64" else "float value underflows int64"))
  else
    let t : Int := mag.1 / mag.2
    .ok (BitVec.ofInt 64 (if sign = [] then t else -t))

/-- `Iter.Int()`.  An integer literal in `int64` range is read back; one that simdjson tagged
`uint64` fails; one beyond `uint64` was stored as a float, which fails above `int64` and, below
it, reads as `MinInt64` while it rounds to `-2^63`. -/
def iterInt : JsonValue → Except GoError Word
  | .int v =>
    if -2 ^ 63 ≤ v ∧ v < 2 ^ 63 then .ok (BitVec.ofInt 64 v)
    else if 2 ^ 63 ≤ v ∧ v < 2 ^ 64 then .error (.lib "unsigned integer value overflows int64")
    else if 2 ^ 64 ≤ v then .error (.lib "float value overflows int64")
    else if -2 ^ 63 - 1024 ≤ v then .ok (BitVec.ofInt 64 (-2 ^ 63))
    else .error (.lib "float value underflows int64")
  | .float lit => floatLiteralToInt lit
  | _ => .error (.lib "unable to convert type to int")

theorem findElement_obj_cons (k : Bytes) (v : JsonValue) (ms : List (Bytes × JsonValue)) :
    findElement (.obj ((k, v) :: ms)) k = .ok v := by
  simp [findElement]

theorem iterInt_int {n : Nat} (hn : n < 2 ^ 63) : iterInt (.int n) = .ok (BitVec.ofNat 64 n) := by
  rw [iterInt, if_pos ⟨by omega, by omega⟩, BitVec.ofInt_natCast]

/-! ## Reading texts of a known shape

What the parser does on the texts the tracer writes: plain strings, decimal literals and objects
of known keys, each followed by whatever comes after it. -/

/-- ASCII text is well-formed UTF-8. -/
theorem validUtf8_ascii {s : Bytes} (h : s.all fun c => c.toNat < 128) : validUtf8 s = true := by
  induction s with
  | nil => rfl
  | cons c s ih =>
    simp only [List.all_cons, Bool.and_eq_true, decide_eq_true_eq] at h
    rw [validUtf8.eq_2 _ _ (by rw [utf8Width, if_pos h.1]), ih h.2]

/-- Well-formed UTF-8 in front: checking the whole is checking the rest. -/
theorem validUtf8_append {a : Bytes} (h : validUtf8 a = true) (b : Bytes) :
    validUtf8 (a ++ b) = validUtf8 b := by
  induction a using validUtf8.induct with
  | case1 => rfl
  | case2 c r hw ih =>
    rw [validUtf8.eq_2 _ _ hw] at h
    rw [List.cons_append, validUtf8.eq_2 _ _ hw, ih h]
  | case3 c b1 r hw ih =>
    rw [validUtf8.eq_3 _ _ _ hw, Bool.and_eq_true] at h
    rw [List.cons_append, List.cons_append, validUtf8.eq_3 _ _ _ hw, h.1, ih h.2, Bool.true_and]
  | case4 c b1 b2 r hw ih =>
    rw [validUtf8.eq_4 _ _ _ _ hw, Bool.and_eq_true, Bool.and_eq_true] at h
    rw [List.cons_append, List.cons_append, List.cons_append, validUtf8.eq_4 _ _ _ _ hw, h.1.1,
      h.1.2, ih h.2, Bool.true_and, Bool.true_and]
  | case5 c b1 b2 b3 r hw ih =>
    rw [validUtf8.eq_5 _ _ _ _ _ hw, Bool.and_eq_true, Bool.and_eq_true, Bool.and_eq_true] at h
    rw [List.cons_append, List.cons_append, List.cons_append, List.cons_append,
      validUtf8.eq_5 _ _ _ _ _ hw, h.1.1.1, h.1.1.2, h.1.2, ih h.2, Bool.true_and, Bool.true_and,
      Bool.true_and]
  | case6 c rest h1 h2 h3 h4 =>
    rw [validUtf8.eq_6 _ _ h1 h2 h3 h4] at h
    cases h

/-- A byte that stands for itself inside a JSON string: no control byte, no quote, no
backslash. -/
def plainByte (c : UInt8) : Bool := !(c < 32) && c ≠ 34 && c ≠ 92

theorem parseStringBody_plain_append {s : Bytes} (hs : s.all plainByte) (r : Bytes) :
    parseStringBody (s ++ r) = consBody s (parseStringBody r) := by
  induction s with
  | nil => simp [consBody]
  | cons c s ih =>
    simp only [List.all_cons, Bool.and_eq_true, plainByte, Bool.not_eq_true', decide_eq_false_iff_not,
      decide_eq_true_eq] at hs
    obtain ⟨⟨⟨h32, h34⟩, h92⟩, hs⟩ := hs
    rw [List.cons_append, parseStringBody.eq_2, if_neg h34, if_neg h92, if_neg h32, ih hs]
    cases parseStringBody r <;> rfl

theorem parseStringBody_quote (r : Bytes) : parseStringBody (34 :: r) = some ([], r) := by
  rw [parseStringBody.eq_2, if_pos rfl]

theorem skipWs_cons_of_not_ws {c : UInt8} (hc : isWs c = false) (s : Bytes) :
    skipWs (c :: s) = c :: s := by
  simp [skipWs, hc]

theorem skipWs_ws_cons {c : UInt8} (hc : isWs c = true) (s : Bytes) : skipWs (c :: s) = skipWs s := by
  simp [skipWs, hc]

theorem parseValue_ws_cons {c : UInt8} (hc : isWs c = true) (n : Nat) (s : Bytes) :
    parseValue n (c :: s) = parseValue n s := by
  cases n with
  | zero => rfl
  | succ n => rw [parseValue.eq_2, parseValue.eq_2, skipWs_ws_cons hc]

theorem parseValue_quote (n : Nat) (X : Bytes) :
    parseValue (n + 1) (34 :: X) = (parseStringBody X).map fun (b, r) => (.str b, r) := by
  rw [parseValue.eq_2, skipWs_cons_of_not_ws (by decide)]
  rfl

theorem parseValue_brace (n : Nat) (X : Bytes) :
    parseValue (n + 1) (123 :: X) = match skipWs X with
      | 125 :: rest' => some (JsonValue.obj [], rest')
      | rest' => parseMembers n [] rest' := by
  rw [parseValue.eq_2, skipWs_cons_of_not_ws (by decide)]
  rfl

theorem parseValue_str {s : Bytes} (hs : s.all plainByte) (n : Nat) (rest : Bytes) :
    parseValue (n + 1) (34 :: (s ++ 34 :: rest)) = some (.str s, rest) := by
  rw [parseValue_quote, parseStringBody_plain_append hs, parseStringBody_quote]
  simp only [consBody, Option.map_some', List.append_nil]

/-- An object whose first member is a key: its members are read from the key on. -/
theorem parseValue_object (n : Nat) (X : Bytes) :
    parseValue (n + 1) (123 :: 34 :: X) = parseMembers n [] (34 :: X) := by
  rw [parseValue_brace, skipWs_cons_of_not_ws (by decide)]
  rfl

theorem parseMembers_member_last {key r2 r4 : Bytes} {v : JsonValue} (hk : key.all plainByte)
    {n : Nat} (acc : List (Bytes × JsonValue)) (hv : parseValue n r2 = some (v, 125 :: r4)) :
    parseMembers (n + 1) acc (34 :: (key ++ 34 :: 58 :: r2)) =
      some (.obj ((key, v) :: acc).reverse, r4) := by
  rw [parseMembers.eq_2, skipWs_cons_of_not_ws (by decide)]
  simp only [parseStringBody_plain_append hk, parseStringBody_quote, consBody, Option.map_some',
    List.append_nil, skipWs_cons_of_not_ws (show isWs 58 = false by decide), hv,
    skipWs_cons_of_not_ws (show isWs 125 = false by decide)]

theorem parseMembers_member_comma {key r2 r4 : Bytes} {v : JsonValue} (hk : key.all plainByte)
    {n : Nat} (acc : List (Bytes × JsonValue)) (hv : parseValue n r2 = some (v, 44 :: r4)) :
    parseMembers (n + 1) acc (34 :: (key ++ 34 :: 58 :: r2)) = parseMembers n ((key, v) :: acc) r4 := by
  rw [parseMembers.eq_2, skipWs_cons_of_not_ws (by decide)]
  simp only [parseStringBody_plain_append hk, parseStringBody_quote, consBody, Option.map_some',
    List.append_nil, skipWs_cons_of_not_ws (show isWs 58 = false by decide), hv,
    skipWs_cons_of_not_ws (show isWs 44 = false by decide)]

theorem takeWhile_formatUint_append (n : Nat) {c : UInt8} (hc : isDigit c = false) (rest : Bytes) :
    (formatUint n ++ c :: rest).takeWhile isDigit = formatUint n := by
  rw [List.takeWhile_append_of_pos (formatUint_digits n), List.takeWhile_cons_of_neg (by simp [hc]),
    List.append_nil]

theorem dropWhile_formatUint_append (n : Nat) {c : UInt8} (hc : isDigit c = false) (rest : Bytes) :
    (formatUint n ++ c :: rest).dropWhile isDigit = c :: rest := by
  rw [List.dropWhile_append_of_pos (formatUint_digits n), List.dropWhile_cons_of_neg (by simp [hc])]

theorem formatUint_no_leading_zero (n : Nat) :
    ¬ ((formatUint n).head? = some 48 ∧ 1 < (formatUint n).length) := by
  by_cases hn : n = 0
  · subst hn; decide
  · exact fun h => formatUint_head_ne_zero hn h.1

theorem takeSign_formatUint_append (n : Nat) (s : Bytes) :
    takeSign (formatUint n ++ s) false = ([], formatUint n ++ s) := by
  obtain ⟨c, t, hct, hc⟩ := formatUint_head n
  have h45 : c ≠ 45 := by rintro rfl; exact absurd hc (by decide)
  have h43 : c ≠ 43 := by rintro rfl; exact absurd hc (by decide)
  rw [hct, List.cons_append, takeSign.eq_3 _ _ (fun _ h => h45 (List.cons.inj h).1)
    (fun _ h => h43 (List.cons.inj h).1)]

/-- A decimal literal followed by a byte that cannot continue a number reads as that integer. -/
theorem parseNumber_formatUint (n : Nat) {c : UInt8} (hc : isDigit c = false) (h46 : c ≠ 46)
    (h101 : c ≠ 101) (h69 : c ≠ 69) (rest : Bytes) :
    parseNumber (formatUint n ++ c :: rest) = some (.int n, c :: rest) := by
  have hfrac : scanFrac (c :: rest) = some ([], c :: rest) :=
    scanFrac.eq_2 _ fun t h => h46 (List.cons.inj h).1
  have hexp : scanExp (c :: rest) = some ([], c :: rest) := by
    rw [scanExp, if_neg (by rintro (h | h) <;> contradiction)]
  simp only [parseNumber, takeSign_formatUint_append, takeWhile_formatUint_append n hc,
    dropWhile_formatUint_append n hc, hfrac, hexp, formatUint_ne_nil, formatUint_no_leading_zero,
    false_or, if_false, and_self, if_true, decimalValue_formatUint]

theorem parseMembers_ws_cons {c : UInt8} (hc : isWs c = true) (n : Nat)
    (acc : List (Bytes × JsonValue)) (s : Bytes) :
    parseMembers n acc (c :: s) = parseMembers n acc s := by
  cases n with
  | zero => rfl
  | succ n => rw [parseMembers.eq_2, parseMembers.eq_2, skipWs_ws_cons hc]

theorem parseDocs_ws_cons {c : UInt8} (hc : isWs c = true) (n : Nat) (s : Bytes) :
    parseDocs n (c :: s) = parseDocs n s := by
  cases n with
  | zero => rfl
  | succ n => rw [parseDocs.eq_2, parseDocs.eq_2, skipWs_ws_cons hc]

theorem isWs_of_isDigit {c : UInt8} (hc : isDigit c = true) : isWs c = false := by
  simp only [isDigit, Bool.and_eq_true, decide_eq_true_eq] at hc
  simp only [isWs, Bool.or_eq_false_iff, decide_eq_false_iff_not]
  refine ⟨⟨⟨?_, ?_⟩, ?_⟩, ?_⟩ <;> rintro rfl <;> exact absurd hc (by decide)

theorem parseValue_digit {c : UInt8} (hc : isDigit c = true) (n : Nat) (t : Bytes) :
    parseValue (n + 1) (c :: t) = parseNumber (c :: t) := by
  rw [parseValue.eq_2, skipWs_cons_of_not_ws (isWs_of_isDigit hc)]
  simp only [isDigit, Bool.and_eq_true, decide_eq_true_eq] at hc
  obtain ⟨⟨⟨k, hk⟩⟩⟩ := c
  have h1 : 48 ≤ k := hc.1
  have h2 : k ≤ 57 := hc.2
  interval_cases k <;> rfl

theorem parseValue_formatUint (n : Nat) {c : UInt8} (hc : isDigit c = false) (h46 : c ≠ 46)
    (h101 : c ≠ 101) (h69 : c ≠ 69) (k : Nat) (rest : Bytes) :
    parseValue (k + 1) (formatUint n ++ c :: rest) = some (.int n, c :: rest) := by
  obtain ⟨d, t, hdt, hd⟩ := formatUint_head n
  rw [hdt, List.cons_append, parseValue_digit hd, ← List.cons_append, ← hdt,
    parseNumber_formatUint n hc h46 h101 h69]

end Bpfstream
