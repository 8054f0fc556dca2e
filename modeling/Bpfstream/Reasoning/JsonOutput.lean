import Bpfstream.Render
import Bpfstream.Reasoning.LivePrint
import Bpfstream.Reasoning.WireFormat
import Bpfstream.Reasoning.Overflow

/-!
# What the `json` format prints, read back

The block a printer writes for `json` is one line that simdjson, as the program itself reads its
input, parses into one object: the event's fields under their tags, then `intervals` and `total`,
and for `syscall` the map under `counts` with its names in byte order.  `Iter.Int` reads every
count back to the word it was printed from.  A string reads back as `replaceInvalid` of the
bytes it was written from: itself when they are valid UTF-8.
-/

namespace Bpfstream

/-! ## Strings -/

/-- U+FFFD in UTF-8. -/
def runeErrorBytes : Bytes := [0xEF, 0xBF, 0xBD]

/-- What a JSON reader gets back from `appendString`: the bytes with each byte that starts no
valid UTF-8 sequence replaced by U+FFFD. -/
def replaceInvalid : Bytes → Bytes
  | [] => []
  | c :: rest =>
    if c.toNat < 0x80 then c :: replaceInvalid rest
    else
      match h : decodeRune c rest with
      | some (cont, r) =>
        have := decodeRune_length h
        c :: cont ++ replaceInvalid r
      | none => runeErrorBytes ++ replaceInvalid rest
termination_by s => s.length

theorem replaceInvalid_ascii {c : UInt8} (hc : c.toNat < 0x80) (rest : Bytes) :
    replaceInvalid (c :: rest) = c :: replaceInvalid rest := by
  rw [replaceInvalid, if_pos hc]

theorem replaceInvalid_rune {c : UInt8} {rest cont r : Bytes} (hc : ¬ c.toNat < 0x80)
    (hd : decodeRune c rest = some (cont, r)) :
    replaceInvalid (c :: rest) = c :: cont ++ replaceInvalid r := by
  rw [replaceInvalid, if_neg hc]
  split <;> simp_all

theorem replaceInvalid_invalid {c : UInt8} {rest : Bytes} (hc : ¬ c.toNat < 0x80)
    (hd : decodeRune c rest = none) :
    replaceInvalid (c :: rest) = runeErrorBytes ++ replaceInvalid rest := by
  rw [replaceInvalid, if_neg hc]
  split <;> simp_all

theorem byte_lt_iff {a b : UInt8} : a < b ↔ a.toNat < b.toNat := by
  rw [UInt8.lt_def, BitVec.lt_def]; rfl

theorem toUInt8_toNat (c : UInt8) : c.toNat.toUInt8 = c :=
  UInt8.toNat.inj (UInt8.toNat_ofNat_of_lt c.toBitVec.isLt)

theorem high_of_utf8Cont {b : UInt8} (h : utf8Cont b = true) : ¬ b.toNat < 0x80 := by
  simp only [utf8Cont, Bool.and_eq_true, decide_eq_true_eq] at h; omega

theorem high_of_utf8Second3 {c b : UInt8} (h : utf8Second3 c b = true) : ¬ b.toNat < 0x80 := by
  unfold utf8Second3 at h
  split_ifs at h
  all_goals first
    | exact high_of_utf8Cont h
    | (simp only [Bool.and_eq_true, decide_eq_true_eq] at h; omega)

theorem high_of_utf8Second4 {c b : UInt8} (h : utf8Second4 c b = true) : ¬ b.toNat < 0x80 := by
  unfold utf8Second4 at h
  split_ifs at h
  all_goals first
    | exact high_of_utf8Cont h
    | (simp only [Bool.and_eq_true, decide_eq_true_eq] at h; omega)

/-- What `DecodeRune` returns for a valid sequence: the bytes that follow, continuation bytes
from `0x80` on, which with the lead byte are well-formed UTF-8. -/
theorem decodeRune_some {c : UInt8} {rest cont r : Bytes} (h : decodeRune c rest = some (cont, r)) :
    rest = cont ++ r ∧ (∀ b ∈ cont, ¬ b.toNat < 0x80) ∧ validUtf8 (c :: cont) = true := by
  unfold decodeRune at h
  split at h <;> (try split_ifs at h with hb) <;> cases h
  · refine ⟨rfl, fun b hm => ?_, by rw [validUtf8.eq_3 _ _ _ ‹_›, hb]; rfl⟩
    obtain rfl := List.mem_singleton.mp hm
    exact high_of_utf8Cont hb
  · simp only [Bool.and_eq_true] at hb
    refine ⟨rfl, fun b hm => ?_, ?_⟩
    · simp only [List.mem_cons, List.mem_singleton, List.not_mem_nil, or_false] at hm
      rcases hm with rfl | rfl
      exacts [high_of_utf8Second3 hb.1, high_of_utf8Cont hb.2]
    rw [validUtf8.eq_4 _ _ _ _ ‹_›, hb.1, hb.2]; rfl
  · simp only [Bool.and_eq_true] at hb
    refine ⟨rfl, fun b hm => ?_, ?_⟩
    · simp only [List.mem_cons, List.mem_singleton, List.not_mem_nil, or_false] at hm
      rcases hm with rfl | rfl | rfl
      exacts [high_of_utf8Second4 hb.1.1, high_of_utf8Cont hb.1.2, high_of_utf8Cont hb.2]
    rw [validUtf8.eq_5 _ _ _ _ _ ‹_›, hb.1.1, hb.1.2, hb.2]; rfl

/-- A lead byte of well-formed UTF-8 from `0x80` on starts a sequence `DecodeRune` accepts. -/
theorem decodeRune_of_validUtf8 {c : UInt8} {rest : Bytes} (hc : ¬ c.toNat < 0x80)
    (h : validUtf8 (c :: rest) = true) :
    ∃ cont r, decodeRune c rest = some (cont, r) ∧ validUtf8 r = true := by
  unfold validUtf8 at h
  unfold decodeRune
  split at h
  · rename_i hw; exact absurd (by unfold utf8Width at hw; split_ifs at hw <;> omega) hc
  all_goals first
    | cases h
    | (rename_i hw
       simp only [Bool.and_eq_true] at h
       simp only [hw, h, Bool.and_self, if_true]
       exact ⟨_, _, rfl, by simp_all⟩)

theorem replaceInvalid_of_validUtf8 {s : Bytes} (h : validUtf8 s = true) : replaceInvalid s = s := by
  induction s using replaceInvalid.induct with
  | case1 => rw [replaceInvalid]
  | case2 c rest hc ih =>
    rw [validUtf8.eq_2 _ _ (if_pos hc)] at h
    rw [replaceInvalid_ascii hc, ih h]
  | case3 c rest hc cont r hd _ ih =>
    obtain ⟨rfl, -, hv⟩ := decodeRune_some hd
    rw [replaceInvalid_rune hc hd, ih (by rwa [← List.cons_append, validUtf8_append hv] at h)]
    rfl
  | case4 c rest hc hd _ =>
    obtain ⟨_, _, hd', -⟩ := decodeRune_of_validUtf8 hc h
    rw [hd] at hd'; cases hd'

theorem plainByte_of_high {c : UInt8} (hc : ¬ c.toNat < 0x80) : plainByte c = true := by
  have h32 : ¬ c < 32 := fun h => hc (by
    have := byte_lt_iff.mp h; simp only [show (32 : UInt8).toNat = 32 from rfl] at this; omega)
  have h34 : c ≠ 34 := by rintro rfl; exact hc (by decide)
  have h92 : c ≠ 92 := by rintro rfl; exact hc (by decide)
  simp [plainByte, h32, h34, h92]

theorem parseStringBody_plain_cons {c : UInt8} (hc : plainByte c = true) (X : Bytes) :
    parseStringBody (c :: X) = consBody [c] (parseStringBody X) :=
  parseStringBody_plain_append (s := [c]) (by simp [hc]) X

theorem hexVal_hexDigitByte : ∀ d, d < 16 → hexVal (hexDigitByte d) = some d := by decide

/-- A `\u` escape of a code point below the surrogates reads as that code point in UTF-8. -/
theorem parseEscape_u {h1 h2 h3 h4 : UInt8} {cp : Nat} (hv : hex4 h1 h2 h3 h4 = some cp)
    (hs : cp < 0xD800) (rest : Bytes) :
    parseEscape (117 :: h1 :: h2 :: h3 :: h4 :: rest) =
      consBody (utf8Encode cp) (parseStringBody rest) := by
  delta parseEscape parseStringBody
  simp only [hv, if_true, if_neg (show ¬ (0xD800 ≤ cp ∧ cp < 0xDC00) by omega),
    if_neg (show ¬ (0xDC00 ≤ cp ∧ cp < 0xE000) by omega)]

/-- An ASCII byte reads back from what `appendString` writes for it. -/
theorem parseStringBody_asciiText {c : UInt8} (hc : c.toNat < 0x80) (X : Bytes) :
    parseStringBody ((if htmlSafe c then [c] else escapeAscii c) ++ X) =
      consBody [c] (parseStringBody X) := by
  split
  · rename_i hs
    simp only [htmlSafe, Bool.and_eq_true, decide_eq_true_eq] at hs
    refine parseStringBody_plain_cons ?_ X
    have h32 : ¬ c < 32 := fun h => by
      have := byte_lt_iff.mp h; simp only [show (32 : UInt8).toNat = 32 from rfl] at this; omega
    simp [plainByte, h32, hs.1.1.1.1.2, hs.1.1.1.2]
  · unfold escapeAscii
    split_ifs with h1 h2 h3 h4 h5 h6
    · rcases h1 with rfl | rfl <;> rfl
    all_goals try (subst_vars; rfl)
    -- `\u00XX`, `XX` the two hexadecimal digits of `c`
    have hv : hex4 48 48 (hexDigitByte (c.toNat / 16)) (hexDigitByte (c.toNat % 16)) =
        some c.toNat := by
      simp only [hex4, hexVal_hexDigitByte _ (show c.toNat / 16 < 16 by omega),
        hexVal_hexDigitByte _ (show c.toNat % 16 < 16 by omega),
        show hexVal 48 = some 0 from rfl, Option.pure_def, Option.bind_eq_bind, Option.some_bind]
      congr 1; omega
    rw [List.cons_append, parseStringBody.eq_2, if_neg (by decide), if_pos rfl,
      List.cons_append, List.cons_append, List.cons_append, List.cons_append, List.cons_append,
      List.nil_append, parseEscape_u hv (by omega), utf8Encode, if_pos hc, toUInt8_toNat]

/-- A valid sequence reads back from what `appendString` writes for it. -/
theorem parseStringBody_runeText {c : UInt8} {cont : Bytes} (hc : ¬ c.toNat < 0x80)
    (hcont : ∀ b ∈ cont, ¬ b.toNat < 0x80) (X : Bytes) :
    parseStringBody (runeText c cont ++ X) = consBody (c :: cont) (parseStringBody X) := by
  unfold runeText
  split_ifs with h1 h2
  · obtain ⟨rfl, rfl⟩ := h1; rfl
  · obtain ⟨rfl, rfl⟩ := h2; rfl
  · refine parseStringBody_plain_append ?_ X
    simpa [plainByte_of_high hc] using fun b hb => plainByte_of_high (hcont b hb)

theorem parseStringBody_replacementEscape (X : Bytes) :
    parseStringBody (replacementEscape ++ X) = consBody runeErrorBytes (parseStringBody X) := rfl

/-- The string `appendString` writes reads back as the bytes it was written from, each byte that
starts no valid UTF-8 sequence replaced by U+FFFD. -/
theorem parseStringBody_appendStringBody (s rest : Bytes) :
    parseStringBody (appendStringBody s ++ 34 :: rest) = some (replaceInvalid s, rest) := by
  induction s using appendStringBody.induct with
  | case1 => rw [appendStringBody, replaceInvalid]; rfl
  | case2 c r hc ih =>
    rw [appendStringBody_ascii hc, List.append_assoc, parseStringBody_asciiText hc, ih,
      replaceInvalid_ascii hc]
    rfl
  | case3 c r hc cont r' hd _ ih =>
    rw [appendStringBody_rune hc hd, List.append_assoc,
      parseStringBody_runeText hc (decodeRune_some hd).2.1, ih, replaceInvalid_rune hc hd]
    rfl
  | case4 c r hc hd ih =>
    rw [appendStringBody_invalid hc hd, List.append_assoc, parseStringBody_replacementEscape, ih,
      replaceInvalid_invalid hc hd]
    rfl

/-! ## Values -/

/-- `d` is a text of the value `v`: simdjson reads it, given fuel above its length, up to a `,`,
a `}` or a line feed after it. -/
def JsonOut (d : Bytes) (v : JsonValue) : Prop :=
  ∀ n c rest, (c = 44 ∨ c = 125 ∨ c = 10) → d.length < n →
    parseValue n (d ++ c :: rest) = some (v, c :: rest)

theorem parseValue_minus (n : Nat) (t : Bytes) :
    parseValue (n + 1) (45 :: t) = parseNumber (45 :: t) := by
  rw [parseValue.eq_2, skipWs_cons_of_not_ws (by decide)]
  rfl

theorem parseNumber_neg_formatUint (m : Nat) {c : UInt8} (hc : isDigit c = false) (h46 : c ≠ 46)
    (h101 : c ≠ 101) (h69 : c ≠ 69) (rest : Bytes) :
    parseNumber (45 :: (formatUint m ++ c :: rest)) = some (.int (-m), c :: rest) := by
  have hfrac : scanFrac (c :: rest) = some ([], c :: rest) :=
    scanFrac.eq_2 _ fun t h => h46 (List.cons.inj h).1
  have hexp : scanExp (c :: rest) = some ([], c :: rest) := by
    rw [scanExp, if_neg (by rintro (h | h) <;> contradiction)]
  simp only [parseNumber, show takeSign (45 :: (formatUint m ++ c :: rest)) false =
      ([45], formatUint m ++ c :: rest) from rfl, takeWhile_formatUint_append m hc,
    dropWhile_formatUint_append m hc, hfrac, hexp, formatUint_ne_nil, formatUint_no_leading_zero,
    false_or, if_false, and_self, if_true, decimalValue_formatUint]
  rfl

theorem jsonOut_jsonInt (i : Int) : JsonOut (jsonInt i) (.int i) := by
  have hd : ∀ c : UInt8, (c = 44 ∨ c = 125 ∨ c = 10) →
      isDigit c = false ∧ c ≠ 46 ∧ c ≠ 101 ∧ c ≠ 69 := by
    rintro c (rfl | rfl | rfl) <;> decide
  intro n c rest hc hn
  obtain ⟨h1, h2, h3, h4⟩ := hd c hc
  obtain ⟨k, rfl⟩ : ∃ k, n = k + 1 := ⟨n - 1, by omega⟩
  unfold jsonInt formatInt
  split
  · rw [List.cons_append, parseValue_minus, parseNumber_neg_formatUint _ h1 h2 h3 h4]
    congr 3; omega
  · rw [parseValue_formatUint _ h1 h2 h3 h4]
    congr 3; omega

/-- `Iter.Int` reads back the word whose `int64` value was printed. -/
theorem iterInt_toInt (w : Word) : iterInt (.int w.toInt) = .ok w := by
  obtain ⟨h1, h2⟩ := toInt_mem_range w
  rw [iterInt, if_pos ⟨h1, h2⟩]
  congr 1
  apply BitVec.eq_of_toInt_eq
  rw [BitVec.toInt_ofInt, bmod_eq_self h1 h2]

/-! ## Objects -/

theorem parseMembers_key_comma {kt r2 r4 key : Bytes} {v : JsonValue}
    (hk : parseStringBody kt = some (key, 58 :: r2)) {n : Nat} (acc : List (Bytes × JsonValue))
    (hv : parseValue n r2 = some (v, 44 :: r4)) :
    parseMembers (n + 1) acc (34 :: kt) = parseMembers n ((key, v) :: acc) r4 := by
  rw [parseMembers.eq_2, skipWs_cons_of_not_ws (by decide)]
  simp only [hk, skipWs_cons_of_not_ws (show isWs 58 = false by decide), hv,
    skipWs_cons_of_not_ws (show isWs 44 = false by decide)]

theorem parseMembers_key_last {kt r2 r4 key : Bytes} {v : JsonValue}
    (hk : parseStringBody kt = some (key, 58 :: r2)) {n : Nat} (acc : List (Bytes × JsonValue))
    (hv : parseValue n r2 = some (v, 125 :: r4)) :
    parseMembers (n + 1) acc (34 :: kt) = some (.obj ((key, v) :: acc).reverse, r4) := by
  rw [parseMembers.eq_2, skipWs_cons_of_not_ws (by decide)]
  simp only [hk, skipWs_cons_of_not_ws (show isWs 58 = false by decide), hv,
    skipWs_cons_of_not_ws (show isWs 125 = false by decide)]

theorem jsonMember_append (k d X : Bytes) :
    jsonMember (k, d) ++ X = 34 :: (appendStringBody k ++ 34 :: 58 :: (d ++ X)) := by
  simp [jsonMember, jsonString]

theorem length_jsonMember (k d : Bytes) : d.length + 3 ≤ (jsonMember (k, d)).length := by
  simp [jsonMember, jsonString]

/-- The members of an object from the first on, each a key with a value text that reads as its
value, read after the members `acc` already read. -/
theorem parseMembers_jsonMembers (ms : List (Bytes × Bytes × JsonValue))
    (hms : ∀ x ∈ ms, JsonOut x.2.1 x.2.2) :
    ∀ (m : Bytes × Bytes × JsonValue), JsonOut m.2.1 m.2.2 → ∀ (acc : List (Bytes × JsonValue))
      (n : Nat) (rest : Bytes),
      (jsonMember (m.1, m.2.1) ++ ms.flatMap (fun x => 44 :: jsonMember (x.1, x.2.1))).length < n →
      parseMembers n acc
          (jsonMember (m.1, m.2.1) ++ ms.flatMap (fun x => 44 :: jsonMember (x.1, x.2.1)) ++ 125 :: rest) =
        some (.obj (acc.reverse ++ (m :: ms).map fun x => (replaceInvalid x.1, x.2.2)), rest) := by
  induction ms with
  | nil =>
    rintro ⟨k, d, v⟩ hm acc n rest hn
    obtain ⟨n, rfl⟩ : ∃ n', n = n' + 1 := ⟨n - 1, by omega⟩
    have hl := length_jsonMember k d
    simp only [List.flatMap_nil, List.append_nil] at hn hm ⊢
    rw [jsonMember_append, parseMembers_key_last (parseStringBody_appendStringBody k _) acc
      (hm n 125 rest (by simp) (by omega))]
    simp
  | cons x ms ih =>
    rintro ⟨k, d, v⟩ hm acc n rest hn
    obtain ⟨n, rfl⟩ : ∃ n', n = n' + 1 := ⟨n - 1, by omega⟩
    have hl := length_jsonMember k d
    simp only [List.flatMap_cons, List.length_append, List.length_cons] at hn hm
    have hrest := ih (fun y hy => hms y (List.mem_cons_of_mem _ hy)) x
      (hms x (List.mem_cons_self _ _)) ((replaceInvalid k, v) :: acc) n rest (by
        simp only [List.length_append]; omega)
    simp only [List.flatMap_cons, List.append_assoc, List.cons_append] at hrest ⊢
    rw [jsonMember_append, parseMembers_key_comma (parseStringBody_appendStringBody k _) acc
      (hm n 44 _ (by simp) (by omega)), hrest]
    simp

theorem parseValue_brace_member (n : Nat) (k d X : Bytes) :
    parseValue (n + 1) (123 :: (jsonMember (k, d) ++ X)) = parseMembers n [] (jsonMember (k, d) ++ X) := by
  rw [jsonMember_append, parseValue_object]

theorem jsonObject_cons_append (m : Bytes × Bytes × JsonValue) (ms : List (Bytes × Bytes × JsonValue))
    (X : Bytes) :
    jsonObject ((m :: ms).map fun x => (x.1, x.2.1)) ++ X =
      123 :: (jsonMember (m.1, m.2.1) ++ ms.flatMap (fun x => 44 :: jsonMember (x.1, x.2.1)) ++
        125 :: X) := by
  simp [jsonObject, List.flatMap_map]

/-- An object whose member values are texts of values is a text of the object, its keys read
back through `replaceInvalid`. -/
theorem jsonOut_jsonObject (ms : List (Bytes × Bytes × JsonValue))
    (h : ∀ x ∈ ms, JsonOut x.2.1 x.2.2) :
    JsonOut (jsonObject (ms.map fun x => (x.1, x.2.1)))
      (.obj (ms.map fun x => (replaceInvalid x.1, x.2.2))) := by
  cases ms with
  | nil =>
    intro n c rest _ hn
    obtain ⟨n, rfl⟩ : ∃ n', n = n' + 1 := ⟨n - 1, by simp [jsonObject] at hn; omega⟩
    show parseValue (n + 1) (123 :: 125 :: c :: rest) = _
    rw [parseValue_brace, skipWs_cons_of_not_ws (by decide)]
    rfl
  | cons m ms =>
    have hm := h m (List.mem_cons_self _ _)
    have hms : ∀ x ∈ ms, JsonOut x.2.1 x.2.2 := fun x hx => h x (List.mem_cons_of_mem _ hx)
    intro n c rest _ hn
    have hlen := congrArg List.length (jsonObject_cons_append m ms [])
    simp only [List.append_nil, List.length_cons, List.length_append] at hlen
    obtain ⟨n, rfl⟩ : ∃ n', n = n' + 1 := ⟨n - 1, by omega⟩
    rw [jsonObject_cons_append, List.append_assoc, parseValue_brace_member, ← List.append_assoc,
      parseMembers_jsonMembers ms hms m hm [] n (c :: rest) (by simp only [List.length_append]; omega)]
    rfl

/-- A printed line: a JSON object and `\n`.  simdjson reads it as one document. -/
theorem parseNdjson_line {d : Bytes} {v : JsonValue} (hj : JsonOut d v) (hd : d.head? = some 123) :
    parseNdjson (d ++ [10]) = some [v] := by
  obtain ⟨d', rfl⟩ : ∃ d', d = 123 :: d' := by
    cases d with
    | nil => cases hd
    | cons c d' => exact ⟨d', by cases hd; rfl⟩
  have hv := hj (2 * (123 :: d' ++ [10]).length + 2) 10 [] (by decide)
    (by simp only [List.length_append, List.length_cons, List.length_singleton]; omega)
  rw [parseNdjson, List.length_append, List.length_singleton, parseDocs.eq_2, List.cons_append,
    skipWs_cons_of_not_ws (by decide)]
  simp only [← List.cons_append, true_or, if_true, hv]
  rfl

theorem head_jsonObject (ms : List (Bytes × Bytes)) : (jsonObject ms).head? = some 123 := by
  cases ms <;> rfl

/-- A printed block that is one line: the text `d` of an object that simdjson reads as `v`, then
`\n`. -/
def JsonLine (out : PrintOut) (v : JsonValue) : Prop :=
  ∃ d, out = .text (d ++ [10]) ∧ JsonOut d v ∧ d.head? = some 123

theorem JsonLine.parseNdjson {out : PrintOut} {v : JsonValue} (h : JsonLine out v) :
    ∃ t, out = .text t ∧ Bpfstream.parseNdjson t = some [v] :=
  let ⟨_, hout, hj, hd⟩ := h
  ⟨_, hout, parseNdjson_line hj hd⟩

/-! ## Reading a document back -/

theorem findElement_of_nodup {ms : List (Bytes × JsonValue)} (hnd : (ms.map Prod.fst).Nodup)
    {k : Bytes} {v : JsonValue} (hm : (k, v) ∈ ms) : findElement (.obj ms) k = .ok v := by
  suffices h : ms.find? (fun m => m.1 = k) = some (k, v) by simp [findElement, h]
  induction ms with
  | nil => cases hm
  | cons m ms ih =>
    rw [List.map_cons, List.nodup_cons] at hnd
    rcases List.mem_cons.mp hm with rfl | hm
    · simp
    · have hne : m.1 ≠ k := fun h => hnd.1 (h ▸ List.mem_map_of_mem Prod.fst hm)
      simp [hne, ih hnd.2 hm]

/-! ## The `json` block of a record of counters -/

variable {n : Nat}

/-- The document simdjson reads from the `json` block of a record of counters: each field under
its tag, then `intervals` and `total`. -/
def countsDoc (fields : List (Bytes × Fin n)) (e : Counts n) (intervalCount : Nat) : JsonValue :=
  .obj (fields.map (fun f => (f.1, .int (e f.2).toInt)) ++
    [(ascii "intervals", .int intervalCount), (ascii "total", .int (Counts.total e).toInt)])

/-- The `json` block of a record of counters with well-formed tags is one line that simdjson reads
as `countsDoc`. -/
theorem printCounts_jsonLine (fields : List (Bytes × Fin n))
    (hf : ∀ f ∈ fields, validUtf8 f.1 = true) (e : Counts n) (intervalCount : Nat) :
    JsonLine (printCounts fields e "json" intervalCount) (countsDoc fields e intervalCount) := by
  let ms : List (Bytes × Bytes × JsonValue) :=
    fields.map (fun f => (f.1, jsonInt (e f.2).toInt, .int (e f.2).toInt)) ++
      [(ascii "intervals", jsonInt intervalCount, .int intervalCount),
        (ascii "total", jsonInt (Counts.total e).toInt, .int (Counts.total e).toInt)]
  have hout : JsonOut (jsonObject (ms.map fun x => (x.1, x.2.1)))
      (.obj (ms.map fun x => (replaceInvalid x.1, x.2.2))) := by
    refine jsonOut_jsonObject ms fun x hx => ?_
    simp only [ms, List.mem_append, List.mem_map, List.mem_cons, List.mem_singleton,
      List.not_mem_nil, or_false] at hx
    rcases hx with ⟨f, -, rfl⟩ | rfl | rfl <;> dsimp only <;> exact jsonOut_jsonInt _
  have hkeys : ms.map (fun x => (replaceInvalid x.1, x.2.2)) =
      fields.map (fun f => (f.1, .int (e f.2).toInt)) ++
        [(ascii "intervals", .int intervalCount), (ascii "total", .int (Counts.total e).toInt)] := by
    simp only [ms, List.map_append, List.map_map, List.map_cons, List.map_nil]
    congr 1
    · exact List.map_congr_left fun f hf' => by simp [replaceInvalid_of_validUtf8 (hf f hf')]
    · simp only [replaceInvalid_of_validUtf8 (show validUtf8 (ascii "intervals") = true by decide),
        replaceInvalid_of_validUtf8 (show validUtf8 (ascii "total") = true by decide)]
  have hprint : printCounts fields e "json" intervalCount =
      .text (jsonObject (ms.map fun x => (x.1, x.2.1)) ++ [10]) := by
    simp [printCounts, ms, List.map_append, List.map_map, Function.comp_def]
  exact ⟨_, hprint, by rwa [countsDoc, ← hkeys], head_jsonObject _⟩

/-- What a consumer reading the `json` block `out` with simdjson gets: one document, in which
`FindElement` and `Iter.Int` find every field's counter of `e`, its total, and the interval
count `k`. -/
def BlockReadsBack (fields : List (Bytes × Fin n)) (out : PrintOut) (e : Counts n) (k : Nat) :
    Prop :=
  ∃ t doc, out = .text t ∧ parseNdjson t = some [doc] ∧
    (∀ f ∈ fields, (findElement doc f.1).bind iterInt = .ok (e f.2)) ∧
    (findElement doc (ascii "total")).bind iterInt = .ok (Counts.total e) ∧
    findElement doc (ascii "intervals") = .ok (.int k)

theorem printCounts_readsBack (fields : List (Bytes × Fin n))
    (hf : ∀ f ∈ fields, validUtf8 f.1 = true)
    (hnd : (fields.map Prod.fst ++ [ascii "intervals", ascii "total"]).Nodup) (e : Counts n)
    (k : Nat) : BlockReadsBack fields (printCounts fields e "json" k) e k := by
  obtain ⟨t, ht, hp⟩ := (printCounts_jsonLine fields hf e k).parseNdjson
  have hkeys : ((fields.map (fun f : Bytes × Fin n => (f.1, JsonValue.int (e f.2).toInt)) ++
      [(ascii "intervals", JsonValue.int k), (ascii "total", JsonValue.int (Counts.total e).toInt)]).map
        Prod.fst).Nodup := by
    simpa [List.map_append, List.map_map, Function.comp_def] using hnd
  refine ⟨t, _, ht, hp, fun f hf' => ?_, ?_, ?_⟩
  · rw [countsDoc, findElement_of_nodup hkeys (List.mem_append_left _
      (List.mem_map_of_mem (fun f => (f.1, JsonValue.int (e f.2).toInt)) hf'))]
    exact iterInt_toInt _
  · rw [countsDoc, @findElement_of_nodup _ hkeys (ascii "total")
      (.int (Counts.total e).toInt) (by simp)]
    exact iterInt_toInt _
  · exact @findElement_of_nodup _ hkeys (ascii "intervals") (.int k) (by simp)

/-- The `json` blocks of `printEvent`, `printProcEvent` and `printMemEvent` read back, field by
field, as the event printed, with its total and the interval count. -/
theorem json_blocks_read_back (k : Nat) :
    (∀ e : Event, BlockReadsBack Event.fields (printEvent e "json" k) e k) ∧
    (∀ e : ProcCountEvent, BlockReadsBack ProcCountEvent.fields (printProcEvent e "json" k) e k) ∧
    (∀ e : MemCountEvent, BlockReadsBack MemCountEvent.fields (printMemEvent e "json" k) e k) :=
  ⟨fun e => printCounts_readsBack _ (by decide) (by decide) e k,
    fun e => printCounts_readsBack _ (by decide) (by decide) e k,
    fun e => printCounts_readsBack _ (by decide) (by decide) e k⟩

/-! ## The map of `printSyscallEvent` -/

theorem bytesLess_asymm : ∀ {a b : Bytes}, bytesLess a b = true → bytesLess b a = false
  | [], [], h => by simp [bytesLess] at h
  | [], _ :: _, _ => rfl
  | _ :: _, [], h => by simp [bytesLess] at h
  | x :: xs, y :: ys, h => by
    unfold bytesLess at h ⊢
    by_cases hxy : x = y
    · subst hxy
      simp only [if_true] at h ⊢
      exact bytesLess_asymm h
    · rw [if_neg hxy] at h
      rw [if_neg (Ne.symm hxy)]
      simp only [decide_eq_true_eq, decide_eq_false_iff_not] at h ⊢
      exact UInt8.lt_asymm h

theorem bytesLess_trans : ∀ {a b c : Bytes}, bytesLess a b = true → bytesLess b c = true →
    bytesLess a c = true
  | [], _ :: _, _ :: _, _, _ => rfl
  | [], [], _, h, _ | _ :: _, [], _, h, _ => by simp [bytesLess] at h
  | _, _ :: _, [], _, h => by simp [bytesLess] at h
  | x :: xs, y :: ys, z :: zs, h1, h2 => by
    unfold bytesLess at h1 h2 ⊢
    by_cases hxy : x = y <;> by_cases hyz : y = z
    · subst hxy hyz
      simp only [if_true] at h1 h2 ⊢
      exact bytesLess_trans h1 h2
    · subst hxy
      rwa [if_neg hyz] at h2 ⊢
    · subst hyz
      rwa [if_neg hxy] at h1 ⊢
    · rw [if_neg hxy] at h1
      rw [if_neg hyz] at h2
      simp only [decide_eq_true_eq] at h1 h2
      rw [if_neg (fun h => by subst h; exact UInt8.lt_asymm h1 h2)]
      exact decide_eq_true (UInt8.lt_trans h1 h2)

theorem bytesLess_total : ∀ {a b : Bytes}, a ≠ b → bytesLess a b = true ∨ bytesLess b a = true
  | [], [], h => absurd rfl h
  | [], _ :: _, _ => .inl rfl
  | _ :: _, [], _ => .inr rfl
  | x :: xs, y :: ys, h => by
    unfold bytesLess
    by_cases hxy : x = y
    · subst hxy
      simp only [if_true]
      exact bytesLess_total fun h' => h (h' ▸ rfl)
    · rw [if_neg hxy, if_neg (Ne.symm hxy)]
      simp only [decide_eq_true_eq, byte_lt_iff]
      have : x.toNat ≠ y.toNat := fun h => hxy (UInt8.toNat.inj h)
      omega

/-- The order the map encoder sorts its entries by is a strict weak order. -/
theorem keyLess_strictWeakOrder :
    StrictWeakOrder (fun a b : Bytes × Word => bytesLess a.1 b.1) where
  asymm _ _ h := bytesLess_asymm h
  not_less_trans a b c hab hbc := by
    by_contra hac
    simp only [Bool.not_eq_false] at hac
    by_cases h1 : a.1 = b.1
    · rw [h1] at hac; rw [hac] at hbc; cases hbc
    · have hba := (bytesLess_total h1).resolve_left (by simp [hab])
      by_cases h2 : b.1 = c.1
      · rw [← h2] at hac; rw [bytesLess_asymm hba] at hac; cases hac
      · have hcb := (bytesLess_total h2).resolve_left (by simp [hbc])
        rw [bytesLess_asymm (bytesLess_trans hcb hba)] at hac; cases hac

/-- The entries of a map as its encoder writes them: each once, in strictly increasing order of
their keys. -/
theorem sortByKey_spec (m : CountMap) :
    (sortByKey m.entries).Perm m.entries ∧
      ((sortByKey m.entries).map Prod.fst).Pairwise (fun a b => bytesLess a b = true) := by
  have hp := insertionSort_perm (fun a b : Bytes × Word => bytesLess a.1 b.1) m.entries
  refine ⟨hp, ?_⟩
  have hnd : ((sortByKey m.entries).map Prod.fst).Nodup := (hp.map Prod.fst).nodup_iff.mpr m.nodup
  have hs := insertionSort_pairwise keyLess_strictWeakOrder m.entries
  rw [List.pairwise_map]
  refine (hs.and (List.pairwise_map.mp hnd)).imp fun {a b} h => ?_
  exact (bytesLess_total h.2).resolve_right (by simp [h.1])

/-- The document simdjson reads from `printSyscallEvent`'s `json` block: the map's entries in
byte order of their names under `counts`, then `intervals` and `total`. -/
def syscallDoc (e : SyscallCountEvent) (k : Nat) : JsonValue :=
  .obj [(ascii "counts",
      .obj ((sortByKey e.counts.entries).map fun kv => (replaceInvalid kv.1, .int kv.2.toInt))),
    (ascii "intervals", .int k), (ascii "total", .int e.total.toInt)]

theorem jsonOut_jsonIntMap (entries : List (Bytes × Word)) :
    JsonOut (jsonIntMap entries)
      (.obj ((sortByKey entries).map fun kv => (replaceInvalid kv.1, .int kv.2.toInt))) := by
  have h := jsonOut_jsonObject ((sortByKey entries).map fun kv =>
    (kv.1, jsonInt kv.2.toInt, JsonValue.int kv.2.toInt)) (by
      intro x hx
      obtain ⟨kv, -, rfl⟩ := List.mem_map.mp hx
      exact jsonOut_jsonInt _)
  simpa [jsonIntMap, List.map_map, Function.comp_def] using h

/-- `printSyscallEvent`'s `json` block is one line that simdjson reads as `syscallDoc`, whatever
the names. -/
theorem printSyscallEvent_jsonLine (sort : SliceSort Bytes) (e : SyscallCountEvent) (k : Nat) :
    JsonLine (printSyscallEvent sort e "json" k) (syscallDoc e k) := by
  let ms : List (Bytes × Bytes × JsonValue) :=
    [(ascii "counts", jsonIntMap e.counts.entries,
        .obj ((sortByKey e.counts.entries).map fun kv => (replaceInvalid kv.1, .int kv.2.toInt))),
      (ascii "intervals", jsonInt k, .int k), (ascii "total", jsonInt e.total.toInt, .int e.total.toInt)]
  have hout := jsonOut_jsonObject ms (by
    simp only [ms, List.mem_cons, List.mem_singleton, List.not_mem_nil, or_false]
    rintro x (rfl | rfl | rfl) <;> dsimp only
    exacts [jsonOut_jsonIntMap _, jsonOut_jsonInt _, jsonOut_jsonInt _])
  refine ⟨_, rfl, ?_, rfl⟩
  convert hout using 1
  simp only [ms, List.map_cons, List.map_nil, syscallDoc,
    replaceInvalid_of_validUtf8 (show validUtf8 (ascii "counts") = true by decide),
    replaceInvalid_of_validUtf8 (show validUtf8 (ascii "intervals") = true by decide),
    replaceInvalid_of_validUtf8 (show validUtf8 (ascii "total") = true by decide)]

/-- What a consumer reading a `syscall` block gets: one document, whose `counts` is an object with
one member per entry of the map, in strictly increasing byte order of the names, each read back
by its name to its count, and whose `total` and `intervals` are the total and the interval
count. -/
def SyscallBlockReadsBack (p : PrintOut) (e : SyscallCountEvent) (k : Nat) : Prop :=
  ∃ t doc cs, p = .text t ∧ parseNdjson t = some [doc] ∧
    findElement doc (ascii "counts") = .ok (.obj cs) ∧
    (cs.map Prod.fst).Pairwise (fun a b => bytesLess a b = true) ∧
    cs.length = e.counts.entries.length ∧
    (∀ kv ∈ e.counts.entries, (findElement (.obj cs) kv.1).bind iterInt = .ok kv.2) ∧
    (findElement doc (ascii "total")).bind iterInt = .ok e.total ∧
    findElement doc (ascii "intervals") = .ok (.int k)

theorem printSyscallEvent_readsBack (sort : SliceSort Bytes) (e : SyscallCountEvent) (k : Nat)
    (hv : ∀ kv ∈ e.counts.entries, validUtf8 kv.1 = true) :
    SyscallBlockReadsBack (printSyscallEvent sort e "json" k) e k := by
  obtain ⟨t, ht, hp⟩ := (printSyscallEvent_jsonLine sort e k).parseNdjson
  obtain ⟨hperm, hsorted⟩ := sortByKey_spec e.counts
  have hcs : (sortByKey e.counts.entries).map (fun kv => (replaceInvalid kv.1, JsonValue.int kv.2.toInt)) =
      (sortByKey e.counts.entries).map (fun kv => (kv.1, JsonValue.int kv.2.toInt)) :=
    List.map_congr_left fun kv hkv => by
      rw [replaceInvalid_of_validUtf8 (hv kv (hperm.subset hkv))]
  have hnd : (((sortByKey e.counts.entries).map fun kv => (kv.1, JsonValue.int kv.2.toInt)).map
      Prod.fst).Nodup := by
    rw [List.map_map]
    exact (hperm.map Prod.fst).nodup_iff.mpr e.counts.nodup
  have hdoc : (syscallDoc e k) = .obj [(ascii "counts", .obj ((sortByKey e.counts.entries).map
      fun kv => (kv.1, .int kv.2.toInt))), (ascii "intervals", .int k), (ascii "total", .int e.total.toInt)] := by
    rw [syscallDoc, hcs]
  refine ⟨t, _, _, ht, hp, by rw [hdoc, findElement_obj_cons], ?_,
    by rw [List.length_map, hperm.length_eq], fun kv hkv => ?_, ?_, ?_⟩
  · simpa [List.map_map, Function.comp_def] using hsorted
  · rw [findElement_of_nodup hnd (List.mem_map_of_mem (fun kv => (kv.1, JsonValue.int kv.2.toInt))
      (hperm.mem_iff.mpr hkv))]
    exact iterInt_toInt _
  · rw [hdoc, findElement_of_nodup (v := .int e.total.toInt) (by simp only [List.map]; decide) (by simp)]
    exact iterInt_toInt _
  · rw [hdoc, findElement_of_nodup (v := .int k) (by simp only [List.map]; decide) (by simp)]

/-- `printSyscallEvent`'s `json` block is one line that simdjson reads as one document, whatever
the map holds.  What a consumer reading it gets when the names are well-formed UTF-8: under
`counts`, one member per entry of the map, in strictly increasing byte order of the names, each
read back by its name to its count; and the total and the interval count. -/
theorem syscall_json_block_reads_back (sort : SliceSort Bytes) (e : SyscallCountEvent) (k : Nat) :
    (∃ t, printSyscallEvent sort e "json" k = .text t ∧ parseNdjson t = some [syscallDoc e k]) ∧
    ((∀ kv ∈ e.counts.entries, validUtf8 kv.1 = true) →
      SyscallBlockReadsBack (printSyscallEvent sort e "json" k) e k) :=
  ⟨(printSyscallEvent_jsonLine sort e k).parseNdjson, printSyscallEvent_readsBack sort e k⟩

theorem syscall_json_block_reads_back_read_openat :
    (∀ kv ∈ ({ counts := ⟨[(ascii "read", 3), (ascii "openat", 1)], by decide⟩ } :
        SyscallCountEvent).counts.entries, validUtf8 kv.1 = true) ∧
    SyscallBlockReadsBack (printSyscallEvent (insertionSortSlice Bytes)
        { counts := ⟨[(ascii "read", 3), (ascii "openat", 1)], by decide⟩ } "json" 1)
      { counts := ⟨[(ascii "read", 3), (ascii "openat", 1)], by decide⟩ } 1 :=
  ⟨by decide, (syscall_json_block_reads_back _ _ 1).2 (by decide)⟩

end Bpfstream
