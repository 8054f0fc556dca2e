import Bpfstream.Reasoning.JsonOutput

/-!
# From well-formed UTF-8 input, simdjson hands the program only well-formed UTF-8

simdjson does not check a chunk's encoding, but a string's body is copied from the chunk, or
decoded from an escape: an ASCII byte, a code point of the Basic Multilingual Plane outside the
surrogates, or a surrogate pair.  So from a chunk that is well-formed UTF-8 every string of every
document, every key included, is well-formed UTF-8.  The names a `syscall` snapshot reads are such
keys, and so are the names of every total the count command adds up.
-/

namespace Bpfstream

/-! ## ASCII bytes in well-formed UTF-8 -/

theorem utf8Width_ascii {c : UInt8} (hc : c.toNat < 0x80) : utf8Width c = 1 := by
  rw [utf8Width, if_pos hc]

theorem utf8Cont_ascii {c : UInt8} (hc : c.toNat < 0x80) : utf8Cont c = false :=
  Bool.eq_false_iff.mpr fun h => high_of_utf8Cont h hc

/-- An ASCII byte of well-formed UTF-8 ends no sequence early: the bytes before it and the bytes
from it on are each well-formed. -/
theorem validUtf8_split_ascii {c : UInt8} (hc : c.toNat < 0x80) {p rest : Bytes}
    (h : validUtf8 (p ++ c :: rest) = true) :
    validUtf8 p = true ∧ validUtf8 (c :: rest) = true := by
  suffices H : ∀ s, validUtf8 s = true → ∀ p, s = p ++ c :: rest →
      validUtf8 p = true ∧ validUtf8 (c :: rest) = true from H _ h p rfl
  intro s
  induction s using validUtf8.induct with
  | case1 => intro _ p hs; cases p <;> cases hs
  | case2 x r hw ih =>
    intro hv p hs
    rw [validUtf8.eq_2 _ _ hw] at hv
    rcases p with _ | ⟨y, p⟩
    · obtain ⟨rfl, rfl⟩ := List.cons.inj hs
      exact ⟨rfl, by rwa [validUtf8.eq_2 _ _ hw]⟩
    · obtain ⟨rfl, rfl⟩ := List.cons.inj hs
      rw [validUtf8.eq_2 _ _ hw]
      exact ih hv p rfl
  | case3 x b1 r hw ih =>
    intro hv p hs
    rw [validUtf8.eq_3 _ _ _ hw, Bool.and_eq_true] at hv
    rcases p with _ | ⟨y, _ | ⟨z, p⟩⟩
    · cases (List.cons.inj hs).1; rw [utf8Width_ascii hc] at hw; cases hw
    · cases (List.cons.inj (List.cons.inj hs).2).1; rw [utf8Cont_ascii hc] at hv; cases hv.1
    · simp only [List.cons_append, List.cons.injEq] at hs
      obtain ⟨rfl, rfl, rfl⟩ := hs
      rw [validUtf8.eq_3 _ _ _ hw, hv.1, Bool.true_and]
      exact ih hv.2 p rfl
  | case4 x b1 b2 r hw ih =>
    intro hv p hs
    rw [validUtf8.eq_4 _ _ _ _ hw, Bool.and_eq_true, Bool.and_eq_true] at hv
    rcases p with _ | ⟨y, _ | ⟨z, _ | ⟨w, p⟩⟩⟩
    · cases (List.cons.inj hs).1; rw [utf8Width_ascii hc] at hw; cases hw
    · cases (List.cons.inj (List.cons.inj hs).2).1
      exact absurd hv.1.1 (fun h => high_of_utf8Second3 h hc)
    · cases (List.cons.inj (List.cons.inj (List.cons.inj hs).2).2).1
      rw [utf8Cont_ascii hc] at hv; cases hv.1.2
    · simp only [List.cons_append, List.cons.injEq] at hs
      obtain ⟨rfl, rfl, rfl, rfl⟩ := hs
      rw [validUtf8.eq_4 _ _ _ _ hw, hv.1.1, hv.1.2,
        Bool.true_and, Bool.true_and]
      exact ih hv.2 p rfl
  | case5 x b1 b2 b3 r hw ih =>
    intro hv p hs
    rw [validUtf8.eq_5 _ _ _ _ _ hw, Bool.and_eq_true, Bool.and_eq_true, Bool.and_eq_true] at hv
    rcases p with _ | ⟨y, _ | ⟨z, _ | ⟨w, _ | ⟨u, p⟩⟩⟩⟩
    · cases (List.cons.inj hs).1; rw [utf8Width_ascii hc] at hw; cases hw
    · cases (List.cons.inj (List.cons.inj hs).2).1
      exact absurd hv.1.1.1 (fun h => high_of_utf8Second4 h hc)
    · cases (List.cons.inj (List.cons.inj (List.cons.inj hs).2).2).1
      rw [utf8Cont_ascii hc] at hv; cases hv.1.1.2
    · cases (List.cons.inj (List.cons.inj (List.cons.inj (List.cons.inj hs).2).2).2).1
      rw [utf8Cont_ascii hc] at hv; cases hv.1.2
    · simp only [List.cons_append, List.cons.injEq] at hs
      obtain ⟨rfl, rfl, rfl, rfl, rfl⟩ := hs
      rw [validUtf8.eq_5 _ _ _ _ _ hw,
        hv.1.1.1, hv.1.1.2, hv.1.2, Bool.true_and, Bool.true_and, Bool.true_and]
      exact ih hv.2 p rfl
  | case6 x r h1 h2 h3 h4 =>
    intro hv
    rw [validUtf8.eq_6 _ _ h1 h2 h3 h4] at hv
    cases hv

/-- Bytes that are all ASCII, dropped from the front of well-formed UTF-8, leave well-formed
UTF-8. -/
theorem validUtf8_of_ascii_append {pre r : Bytes} (hp : pre.all fun c => c.toNat < 128)
    (h : validUtf8 (pre ++ r) = true) : validUtf8 r = true := by
  rwa [validUtf8_append (validUtf8_ascii hp)] at h

theorem validUtf8_dropWhile {p : UInt8 → Bool} (hp : ∀ c, p c = true → c.toNat < 128)
    {s : Bytes} (h : validUtf8 s = true) : validUtf8 (s.dropWhile p) = true :=
  validUtf8_of_ascii_append (List.all_eq_true.mpr fun c hc => decide_eq_true
    (hp c (List.mem_takeWhile_imp hc))) (by rwa [List.takeWhile_append_dropWhile])

theorem isWs_ascii {c : UInt8} (h : isWs c = true) : c.toNat < 128 := by
  simp only [isWs, Bool.or_eq_true, decide_eq_true_eq] at h
  rcases h with ((rfl | rfl) | rfl) | rfl <;> decide

theorem isDigit_ascii {c : UInt8} (h : isDigit c = true) : c.toNat < 128 := by
  simp only [isDigit, Bool.and_eq_true, decide_eq_true_eq] at h
  omega

theorem validUtf8_skipWs {s : Bytes} (h : validUtf8 s = true) : validUtf8 (skipWs s) = true :=
  validUtf8_dropWhile (fun _ => isWs_ascii) h

theorem validUtf8_cons_ascii {c : UInt8} (hc : c.toNat < 128) (X : Bytes) :
    validUtf8 (c :: X) = validUtf8 X :=
  validUtf8.eq_2 _ _ (if_pos hc)

theorem validUtf8_tail_ascii {c : UInt8} (hc : c.toNat < 128) {s : Bytes}
    (h : validUtf8 (c :: s) = true) : validUtf8 s = true := by
  rwa [validUtf8_cons_ascii hc] at h

/-! ## Encoded code points -/

theorem toNat_toUInt8 {n : Nat} (h : n < 256) : n.toUInt8.toNat = n :=
  UInt8.toNat_ofNat_of_lt h

/-- `utf8Encode` of a Unicode scalar value, a code point up to U+10FFFF outside the surrogates,
is well-formed UTF-8. -/
theorem validUtf8_utf8Encode {cp : Nat} (hmax : cp < 0x110000)
    (hs : ¬ (0xD800 ≤ cp ∧ cp < 0xE000)) : validUtf8 (utf8Encode cp) = true := by
  unfold utf8Encode
  split_ifs with h1 h2 h3
  · exact validUtf8_ascii (by simp [toNat_toUInt8 (show cp < 256 by omega), h1])
  · have hw : utf8Width (0xC0 + cp / 64).toUInt8 = 2 := by
      rw [utf8Width, toNat_toUInt8 (by omega)]; split_ifs <;> omega
    rw [validUtf8.eq_3 _ _ _ hw]
    simp only [utf8Cont, toNat_toUInt8 (show 0x80 + cp % 64 < 256 by omega), Bool.and_true,
      validUtf8.eq_1, Bool.and_eq_true, decide_eq_true_eq]
    omega
  · have hw : utf8Width (0xE0 + cp / 4096).toUInt8 = 3 := by
      rw [utf8Width, toNat_toUInt8 (by omega)]; split_ifs <;> omega
    rw [validUtf8.eq_4 _ _ _ _ hw]
    simp only [utf8Second3, utf8Cont, toNat_toUInt8 (show 0xE0 + cp / 4096 < 256 by omega),
      toNat_toUInt8 (show 0x80 + cp / 64 % 64 < 256 by omega),
      toNat_toUInt8 (show 0x80 + cp % 64 < 256 by omega), validUtf8.eq_1, Bool.and_true]
    split_ifs <;> simp only [Bool.and_eq_true, decide_eq_true_eq] <;> omega
  · have hw : utf8Width (0xF0 + cp / 262144).toUInt8 = 4 := by
      rw [utf8Width, toNat_toUInt8 (by omega)]; split_ifs <;> omega
    rw [validUtf8.eq_5 _ _ _ _ _ hw]
    simp only [utf8Second4, utf8Cont, toNat_toUInt8 (show 0xF0 + cp / 262144 < 256 by omega),
      toNat_toUInt8 (show 0x80 + cp / 4096 % 64 < 256 by omega),
      toNat_toUInt8 (show 0x80 + cp / 64 % 64 < 256 by omega),
      toNat_toUInt8 (show 0x80 + cp % 64 < 256 by omega), validUtf8.eq_1, Bool.and_true]
    split_ifs <;> simp only [Bool.and_eq_true, decide_eq_true_eq] <;> omega

/-! ## Escapes -/

theorem escapeByte_spec {e b : UInt8} (h : escapeByte e = some b) :
    e.toNat < 128 ∧ b.toNat < 128 := by
  unfold escapeByte at h
  split_ifs at h with h1 <;> cases h
  · rcases h1 with rfl | rfl | rfl <;> decide
  all_goals subst_vars; decide

theorem hexVal_spec {c : UInt8} {d : Nat} (h : hexVal c = some d) : c.toNat < 128 ∧ d < 16 := by
  unfold hexVal at h
  simp only [isDigit, Bool.and_eq_true, decide_eq_true_eq] at h
  split_ifs at h <;> cases h <;> omega

/-- The four digits of a `\u` escape are ASCII, and its code unit is below `0x10000`. -/
theorem hex4_spec {a b c d : UInt8} {cp : Nat} (h : hex4 a b c d = some cp) :
    [a, b, c, d].all (fun x => x.toNat < 128) ∧ cp < 0x10000 := by
  simp only [hex4, Option.pure_def, Option.bind_eq_bind, Option.bind_eq_some, Option.some.injEq] at h
  obtain ⟨x, hx, y, hy, z, hz, w, hw, rfl⟩ := h
  obtain ⟨ha, hx⟩ := hexVal_spec hx
  obtain ⟨hb, hy⟩ := hexVal_spec hy
  obtain ⟨hc, hz⟩ := hexVal_spec hz
  obtain ⟨hd, hw⟩ := hexVal_spec hw
  exact ⟨by simp [ha, hb, hc, hd], by omega⟩

theorem parseEscape_nil : parseEscape [] = none := rfl

theorem parseEscape_cons_of_ne {e : UInt8} (he : e ≠ 117) (rest : Bytes) :
    parseEscape (e :: rest) = match escapeByte e with
      | some b => consBody [b] (parseStringBody rest)
      | none => none := by
  have h : parseEscape (e :: rest) = if e = 117 then parseEscape (117 :: rest) else
      match escapeByte e with
      | some b => consBody [b] (parseStringBody rest)
      | none => none := rfl
  rw [h, if_neg he]

theorem parseEscape_short {rest : Bytes}
    (hr : ∀ h1 h2 h3 h4 rest', rest = h1 :: h2 :: h3 :: h4 :: rest' → False) :
    parseEscape (117 :: rest) = none := by
  delta parseEscape
  simp only [if_true]

theorem parseEscape_hex_none {h1 h2 h3 h4 : UInt8} (hv : hex4 h1 h2 h3 h4 = none) (rest : Bytes) :
    parseEscape (117 :: h1 :: h2 :: h3 :: h4 :: rest) = none := by
  delta parseEscape
  simp only [hv, if_true]

theorem parseEscape_low {h1 h2 h3 h4 : UInt8} {cp : Nat} (hv : hex4 h1 h2 h3 h4 = some cp)
    (hc : ¬ (0xD800 ≤ cp ∧ cp < 0xDC00)) (hl : 0xDC00 ≤ cp ∧ cp < 0xE000) (rest : Bytes) :
    parseEscape (117 :: h1 :: h2 :: h3 :: h4 :: rest) = none := by
  delta parseEscape
  simp only [hv, if_true, hc, hl, if_false, and_self]

theorem parseEscape_bmp {h1 h2 h3 h4 : UInt8} {cp : Nat} (hv : hex4 h1 h2 h3 h4 = some cp)
    (hc : ¬ (0xD800 ≤ cp ∧ cp < 0xDC00)) (hl : ¬ (0xDC00 ≤ cp ∧ cp < 0xE000)) (rest : Bytes) :
    parseEscape (117 :: h1 :: h2 :: h3 :: h4 :: rest) =
      consBody (utf8Encode cp) (parseStringBody rest) := by
  delta parseEscape parseStringBody
  simp only [hv, if_true, hc, hl, if_false]

theorem parseEscape_high_none {h1 h2 h3 h4 : UInt8} {cp : Nat} (hv : hex4 h1 h2 h3 h4 = some cp)
    (hc : 0xD800 ≤ cp ∧ cp < 0xDC00) {rest : Bytes}
    (hr : ∀ g1 g2 g3 g4 rest', rest = 92 :: 117 :: g1 :: g2 :: g3 :: g4 :: rest' → False) :
    parseEscape (117 :: h1 :: h2 :: h3 :: h4 :: rest) = none := by
  delta parseEscape
  simp only [hv, if_true, hc, and_self]

theorem parseEscape_pair_none {h1 h2 h3 h4 g1 g2 g3 g4 : UInt8} {cp : Nat}
    (hv : hex4 h1 h2 h3 h4 = some cp) (hc : 0xD800 ≤ cp ∧ cp < 0xDC00)
    (hg : ∀ lo, hex4 g1 g2 g3 g4 = some lo → ¬ (0xDC00 ≤ lo ∧ lo < 0xE000)) (rest : Bytes) :
    parseEscape (117 :: h1 :: h2 :: h3 :: h4 :: 92 :: 117 :: g1 :: g2 :: g3 :: g4 :: rest) =
      none := by
  delta parseEscape
  simp only [hv, if_true, hc, and_self]
  split
  · rename_i lo hlo; rw [if_neg (hg lo hlo)]
  · rfl

theorem parseEscape_pair {h1 h2 h3 h4 g1 g2 g3 g4 : UInt8} {cp lo : Nat}
    (hv : hex4 h1 h2 h3 h4 = some cp) (hc : 0xD800 ≤ cp ∧ cp < 0xDC00)
    (hg : hex4 g1 g2 g3 g4 = some lo) (hl : 0xDC00 ≤ lo ∧ lo < 0xE000) (rest : Bytes) :
    parseEscape (117 :: h1 :: h2 :: h3 :: h4 :: 92 :: 117 :: g1 :: g2 :: g3 :: g4 :: rest) =
      consBody (utf8Encode (0x10000 + (cp - 0xD800) * 0x400 + (lo - 0xDC00)))
        (parseStringBody rest) := by
  delta parseEscape parseStringBody
  simp only [hv, hg, if_true, hc, hl, and_self]

/-! ## String bodies -/

/-- The step of a string body past an escape: the escape's well-formed bytes `e` in front of the
rest of the body, read from well-formed UTF-8. -/
theorem validUtf8_consBody {e rest p b r : Bytes} (he : validUtf8 e = true)
    (hp : validUtf8 p = true) (hrest : validUtf8 rest = true)
    (ih : ∀ p b r : Bytes, validUtf8 (p ++ rest) = true → parseStringBody rest = some (b, r) →
      validUtf8 (p ++ b) = true ∧ validUtf8 r = true)
    (h : consBody e (parseStringBody rest) = some (b, r)) :
    validUtf8 (p ++ b) = true ∧ validUtf8 r = true := by
  obtain ⟨⟨b', r'⟩, hb, heq⟩ := Option.map_eq_some'.mp h
  simp only [Prod.mk.injEq] at heq
  obtain ⟨rfl, rfl⟩ := heq
  have hin : validUtf8 ((p ++ e) ++ rest) = true := by
    rw [List.append_assoc, validUtf8_append hp, validUtf8_append he, hrest]
  rw [← List.append_assoc]
  exact ih _ _ _ hin hb

theorem all_ascii_cons {c : UInt8} (hc : c.toNat < 128) {s : Bytes}
    (hs : s.all (fun c => c.toNat < 128)) : (c :: s).all (fun c => c.toNat < 128) := by
  simp only [List.all_cons, hs, Bool.and_true, decide_eq_true_eq, hc]

/-- A string body read from well-formed UTF-8, after bytes `p` already written, gives well-formed
UTF-8, and leaves well-formed UTF-8 after its closing quote.  A plain byte is copied on its own,
so `p` may end in a sequence not yet finished; an ASCII byte ends no sequence early, so at the
closing quote and at a backslash `p` is well-formed. -/
theorem validUtf8_parseStringBody (s : Bytes) :
    ∀ p b r : Bytes, validUtf8 (p ++ s) = true → parseStringBody s = some (b, r) →
      validUtf8 (p ++ b) = true ∧ validUtf8 r = true := by
  refine parseStringBody.induct
    (fun s => ∀ p b r : Bytes, validUtf8 (p ++ s) = true → parseStringBody s = some (b, r) →
      validUtf8 (p ++ b) = true ∧ validUtf8 r = true)
    (fun s => ∀ p b r : Bytes, validUtf8 p = true → validUtf8 s = true →
      parseEscape s = some (b, r) → validUtf8 (p ++ b) = true ∧ validUtf8 r = true)
    ?_ ?_ ?_ ?_ ?_ ?_ ?_ ?_ ?_ ?_ ?_ ?_ ?_ ?_ ?_ ?_ s
  -- the body: end of input, closing quote, escape, control byte, plain byte
  · intro p b r _ h; cases h
  · intro rest p b r hv h
    rw [parseStringBody.eq_2, if_pos rfl] at h
    cases h
    obtain ⟨hp, hr⟩ := validUtf8_split_ascii (by decide) hv
    exact ⟨by rwa [List.append_nil], validUtf8_tail_ascii (by decide) hr⟩
  · intro rest _ ih p b r hv h
    rw [parseStringBody.eq_2, if_neg (by decide), if_pos rfl] at h
    obtain ⟨hp, hr⟩ := validUtf8_split_ascii (by decide) hv
    exact ih p b r hp (validUtf8_tail_ascii (by decide) hr) h
  · intro c rest h34 h92 hlt p b r _ h
    rw [parseStringBody.eq_2, if_neg h34, if_neg h92, if_pos hlt] at h
    cases h
  · intro c rest h34 h92 hlt ih p b r hv h
    rw [parseStringBody.eq_2, if_neg h34, if_neg h92, if_neg hlt, consBody] at h
    obtain ⟨⟨b', r'⟩, hb, he⟩ := Option.map_eq_some'.mp h
    simp only [Prod.mk.injEq] at he
    obtain ⟨rfl, rfl⟩ := he
    have := ih (p ++ [c]) _ _ (by rwa [List.append_assoc]) hb
    rwa [List.append_assoc] at this
  -- the escapes: `\u` and its failures, a surrogate pair, a one-letter escape
  · intro p b r _ _ h; rw [parseEscape_nil] at h; cases h
  · intro h1 h2 h3 h4 rest hv p b r _ _ h
    rw [parseEscape_hex_none hv] at h
    cases h
  · intro h1 h2 h3 h4 cp hv hc g1 g2 g3 g4 rest lo hg hl ih p b r hp hs h
    have hcp := (hex4_spec hv).2
    have henc := validUtf8_utf8Encode
      (show 0x10000 + (cp - 0xD800) * 0x400 + (lo - 0xDC00) < 0x110000 by omega) (by omega)
    rw [parseEscape_pair hv hc hg hl] at h
    obtain ⟨hh, -⟩ := hex4_spec hv
    obtain ⟨hg', -⟩ := hex4_spec hg
    have hpre : [117, h1, h2, h3, h4, 92, 117, g1, g2, g3, g4].all (fun c => c.toNat < 128) :=
      all_ascii_cons (by decide) (by
        simp only [List.all_cons, List.all_nil, Bool.and_true, Bool.and_eq_true] at hh hg' ⊢
        exact ⟨hh.1, hh.2.1, hh.2.2.1, hh.2.2.2, by decide, by decide, hg'⟩)
    exact validUtf8_consBody henc hp (validUtf8_of_ascii_append hpre hs) ih h
  · intro h1 h2 h3 h4 cp hv hc g1 g2 g3 g4 rest lo hg hl p b r _ _ h
    rw [parseEscape_pair_none hv hc (fun lo' hlo' => by rw [hg] at hlo'; cases hlo'; exact hl)] at h
    cases h
  · intro h1 h2 h3 h4 cp hv hc g1 g2 g3 g4 rest hg p b r _ _ h
    rw [parseEscape_pair_none hv hc (fun lo' hlo' => by rw [hg] at hlo'; cases hlo')] at h
    cases h
  · intro h1 h2 h3 h4 rest cp hv hc hr p b r _ _ h
    rw [parseEscape_high_none hv hc hr] at h
    cases h
  · intro h1 h2 h3 h4 rest cp hv hc hl p b r _ _ h
    rw [parseEscape_low hv hc hl] at h
    cases h
  · intro h1 h2 h3 h4 rest cp hv hc hl ih p b r hp hs h
    have hcp := (hex4_spec hv).2
    rw [parseEscape_bmp hv hc hl] at h
    exact validUtf8_consBody (validUtf8_utf8Encode (by omega) (by omega)) hp
      (validUtf8_of_ascii_append (all_ascii_cons (by decide) (hex4_spec hv).1) hs) ih h
  · intro rest hr p b r _ _ h
    rw [parseEscape_short hr] at h
    cases h
  · intro e rest he b0 hb0 ih p b r hp hs h
    rw [parseEscape_cons_of_ne he, hb0] at h
    obtain ⟨hea, hba⟩ := escapeByte_spec hb0
    exact validUtf8_consBody (validUtf8_ascii (by simp [hba])) hp (validUtf8_tail_ascii hea hs)
      ih h
  · intro e rest he hb0 p b r _ _ h
    rw [parseEscape_cons_of_ne he, hb0] at h
    cases h

/-! ## Values -/

/-- Every string of a value, every key of its objects included, is well-formed UTF-8. -/
inductive ValidStrings : JsonValue → Prop
  | null : ValidStrings .null
  | bool (b : Bool) : ValidStrings (.bool b)
  | int (v : Int) : ValidStrings (.int v)
  | float (lit : Bytes) : ValidStrings (.float lit)
  | str {s : Bytes} : validUtf8 s = true → ValidStrings (.str s)
  | arr {items : List JsonValue} : (∀ v ∈ items, ValidStrings v) → ValidStrings (.arr items)
  | obj {ms : List (Bytes × JsonValue)} :
      (∀ m ∈ ms, validUtf8 m.1 = true) → (∀ m ∈ ms, ValidStrings m.2) → ValidStrings (.obj ms)

theorem validUtf8_takeSign {s : Bytes} (hs : validUtf8 s = true) (b : Bool) :
    validUtf8 (takeSign s b).2 = true := by
  unfold takeSign
  split
  · exact validUtf8_tail_ascii (by decide) hs
  · split
    · exact validUtf8_tail_ascii (by decide) hs
    · exact hs
  · exact hs

theorem validUtf8_scanFrac {s f t : Bytes} (hs : validUtf8 s = true)
    (h : scanFrac s = some (f, t)) : validUtf8 t = true := by
  unfold scanFrac at h
  split at h
  · dsimp only at h
    split_ifs at h
    cases h
    exact validUtf8_dropWhile (fun _ => isDigit_ascii) (validUtf8_tail_ascii (by decide) hs)
  · cases h
    exact hs

theorem validUtf8_scanExp {s f t : Bytes} (hs : validUtf8 s = true)
    (h : scanExp s = some (f, t)) : validUtf8 t = true := by
  unfold scanExp at h
  split at h
  · rename_i e t'
    split_ifs at h with he
    · have ht1 := validUtf8_takeSign (validUtf8_tail_ascii (by rcases he with rfl | rfl <;> decide) hs) true
      generalize takeSign t' true = st at h ht1
      obtain ⟨sg, t1⟩ := st
      dsimp only at h ht1
      split_ifs at h
      cases h
      exact validUtf8_dropWhile (fun _ => isDigit_ascii) ht1
    · cases h
      exact hs
  · cases h
    exact hs

/-- A number literal read from well-formed UTF-8 leaves well-formed UTF-8 after it. -/
theorem validUtf8_parseNumber {s r : Bytes} {v : JsonValue} (hs : validUtf8 s = true)
    (h : parseNumber s = some (v, r)) : ValidStrings v ∧ validUtf8 r = true := by
  unfold parseNumber at h
  have h1 := validUtf8_takeSign hs false
  generalize takeSign s false = st at h h1
  obtain ⟨sign, s1⟩ := st
  dsimp only at h h1
  split at h
  · cases h
  split at h
  · cases h
  · rename_i frac s3 hf
    split at h
    · cases h
    · rename_i exp s4 he
      have h4 := validUtf8_scanExp
        (validUtf8_scanFrac (validUtf8_dropWhile (fun _ => isDigit_ascii) h1) hf) he
      split at h <;> cases h <;> exact ⟨by constructor, h4⟩

/-! ## What `parseValue` reads from its first byte

`parseValue` looks at the first byte that is not white space, and for `t`, `f` and `n` at the
bytes of the word after it.  The lemmas below walk that match once, byte by byte: each byte of a
word either matches and the walk goes on, or hands the input to `parseNumber`, which reads
nothing from a letter. -/

theorem isWs_false_of_skipWs {s t : Bytes} {c : UInt8} (h : skipWs s = c :: t) : isWs c = false := by
  unfold skipWs at h
  have := List.head_dropWhile_not isWs s (by rw [h]; exact List.cons_ne_nil c t)
  simpa only [h, List.head_cons] using this

theorem skipWs_skipWs (s : Bytes) : skipWs (skipWs s) = skipWs s := by
  rcases h : skipWs s with _ | ⟨c, t⟩
  · rfl
  · exact skipWs_cons_of_not_ws (isWs_false_of_skipWs h) t

theorem parseValue_skipWs (n : Nat) (s : Bytes) : parseValue n (skipWs s) = parseValue n s := by
  cases n with
  | zero => rfl
  | succ n => rw [parseValue.eq_2, parseValue.eq_2, skipWs_skipWs]

theorem parseValue_bracket (n : Nat) (X : Bytes) :
    parseValue (n + 1) (91 :: X) = match skipWs X with
      | 93 :: rest' => some (JsonValue.arr [], rest')
      | rest' => parseItems n [] rest' := by
  rw [parseValue.eq_2, skipWs_cons_of_not_ws (by decide)]
  rfl

theorem parseNumber_letter {c : UInt8} (hd : isDigit c = false) (h45 : c ≠ 45) (h43 : c ≠ 43)
    (t : Bytes) : parseNumber (c :: t) = none := by
  simp only [parseNumber, takeSign.eq_3 _ _ (fun _ h => h45 (List.cons.inj h).1)
    (fun _ h => h43 (List.cons.inj h).1), List.takeWhile_cons, hd]
  rfl

/-- A byte that opens no object, array, string or word starts a number, or nothing. -/
theorem parseValue_number {c : UInt8} (hw : isWs c = false) (h123 : c ≠ 123) (h91 : c ≠ 91)
    (h34 : c ≠ 34) (h116 : c ≠ 116) (h102 : c ≠ 102) (h110 : c ≠ 110) (n : Nat) (t : Bytes) :
    parseValue (n + 1) (c :: t) = parseNumber (c :: t) := by
  rw [parseValue.eq_2, skipWs_cons_of_not_ws hw]
  delta parseValue.match_3
  dsimp only
  rw [dif_neg h123, dif_neg h91, dif_neg h34, dif_neg h116, dif_neg h102, dif_neg h110]

theorem parseValue_true {n : Nat} {t r : Bytes} {v : JsonValue}
    (h : parseValue (n + 1) (116 :: t) = some (v, r)) : v = .bool true ∧ t = [114, 117, 101] ++ r := by
  rw [parseValue.eq_2, skipWs_cons_of_not_ws (by decide)] at h
  delta parseValue.match_3 at h
  dsimp only at h
  rw [dif_neg (by decide : ¬ (116 : UInt8) = 123), dif_neg (by decide : ¬ (116 : UInt8) = 91),
    dif_neg (by decide : ¬ (116 : UInt8) = 34), dif_pos rfl] at h
  rcases t with _ | ⟨a, _ | ⟨b, _ | ⟨c, t⟩⟩⟩ <;> dsimp only at h <;> (try split_ifs at h) <;>
    subst_vars <;>
    simp only [eq_rec_constant, parseNumber_letter (show isDigit 116 = false by decide) (by decide)
      (by decide), reduceCtorEq, Option.some.injEq, Prod.mk.injEq] at h
  obtain ⟨rfl, rfl⟩ := h
  exact ⟨rfl, rfl⟩

theorem parseValue_false {n : Nat} {t r : Bytes} {v : JsonValue}
    (h : parseValue (n + 1) (102 :: t) = some (v, r)) :
    v = .bool false ∧ t = [97, 108, 115, 101] ++ r := by
  rw [parseValue.eq_2, skipWs_cons_of_not_ws (by decide)] at h
  delta parseValue.match_3 at h
  dsimp only at h
  rw [dif_neg (by decide : ¬ (102 : UInt8) = 123), dif_neg (by decide : ¬ (102 : UInt8) = 91),
    dif_neg (by decide : ¬ (102 : UInt8) = 34), dif_neg (by decide : ¬ (102 : UInt8) = 116),
    dif_pos rfl] at h
  rcases t with _ | ⟨a, _ | ⟨b, _ | ⟨c, _ | ⟨d, t⟩⟩⟩⟩ <;> dsimp only at h <;>
    (try split_ifs at h) <;> subst_vars <;>
    simp only [eq_rec_constant, parseNumber_letter (show isDigit 102 = false by decide) (by decide)
      (by decide), reduceCtorEq, Option.some.injEq, Prod.mk.injEq] at h
  obtain ⟨rfl, rfl⟩ := h
  exact ⟨rfl, rfl⟩

theorem parseValue_null {n : Nat} {t r : Bytes} {v : JsonValue}
    (h : parseValue (n + 1) (110 :: t) = some (v, r)) : v = .null ∧ t = [117, 108, 108] ++ r := by
  rw [parseValue.eq_2, skipWs_cons_of_not_ws (by decide)] at h
  delta parseValue.match_3 at h
  dsimp only at h
  rw [dif_neg (by decide : ¬ (110 : UInt8) = 123), dif_neg (by decide : ¬ (110 : UInt8) = 91),
    dif_neg (by decide : ¬ (110 : UInt8) = 34), dif_neg (by decide : ¬ (110 : UInt8) = 116),
    dif_neg (by decide : ¬ (110 : UInt8) = 102), dif_pos rfl] at h
  rcases t with _ | ⟨a, _ | ⟨b, _ | ⟨c, t⟩⟩⟩ <;> dsimp only at h <;> (try split_ifs at h) <;>
    subst_vars <;>
    simp only [eq_rec_constant, parseNumber_letter (show isDigit 110 = false by decide) (by decide)
      (by decide), reduceCtorEq, Option.some.injEq, Prod.mk.injEq] at h
  obtain ⟨rfl, rfl⟩ := h
  exact ⟨rfl, rfl⟩

/-- The invariant of the three readers of values: from well-formed UTF-8, what they read has only
well-formed strings, and what they leave is well-formed. -/
theorem validStrings_parse (n : Nat) :
    (∀ {s r : Bytes} {v : JsonValue}, validUtf8 s = true → parseValue n s = some (v, r) →
      ValidStrings v ∧ validUtf8 r = true) ∧
    (∀ {acc : List (Bytes × JsonValue)} {s r : Bytes} {v : JsonValue},
      (∀ m ∈ acc, validUtf8 m.1 = true) → (∀ m ∈ acc, ValidStrings m.2) → validUtf8 s = true →
      parseMembers n acc s = some (v, r) → ValidStrings v ∧ validUtf8 r = true) ∧
    (∀ {acc : List JsonValue} {s r : Bytes} {v : JsonValue}, (∀ x ∈ acc, ValidStrings x) →
      validUtf8 s = true → parseItems n acc s = some (v, r) →
      ValidStrings v ∧ validUtf8 r = true) := by
  induction n with
  | zero =>
    refine ⟨fun _ h => ?_, fun _ _ _ h => ?_, fun _ _ h => ?_⟩ <;>
      simp only [parseValue.eq_1, parseMembers.eq_1, parseItems.eq_1, reduceCtorEq] at h
  | succ n ih =>
    obtain ⟨ihv, ihm, ihi⟩ := ih
    refine ⟨fun {s r v} hs h => ?_, fun {acc s r v} hk hm hs h => ?_, fun {acc s r v} hx hs h => ?_⟩
    · -- a value, by its first byte
      have hw := validUtf8_skipWs hs
      rw [← parseValue_skipWs] at h
      rcases hks : skipWs s with _ | ⟨c, t⟩
      · rw [hks, parseValue.eq_2] at h
        rw [hks] at hw
        exact validUtf8_parseNumber hw h
      rw [hks] at h hw
      have hc := isWs_false_of_skipWs hks
      by_cases h123 : c = 123
      · subst h123
        rw [parseValue_brace] at h
        have hr := validUtf8_skipWs (validUtf8_tail_ascii (by decide) hw)
        split at h
        · rename_i rest' heq'
          cases h
          rw [heq'] at hr
          exact ⟨.obj (by simp) (by simp), validUtf8_tail_ascii (by decide) hr⟩
        · exact ihm (by simp) (by simp) hr h
      by_cases h91 : c = 91
      · subst h91
        rw [parseValue_bracket] at h
        have hr := validUtf8_skipWs (validUtf8_tail_ascii (by decide) hw)
        split at h
        · rename_i rest' heq'
          cases h
          rw [heq'] at hr
          exact ⟨.arr (by simp), validUtf8_tail_ascii (by decide) hr⟩
        · exact ihi (by simp) hr h
      by_cases h34 : c = 34
      · subst h34
        rw [parseValue_quote] at h
        obtain ⟨⟨b, r'⟩, hb, he⟩ := Option.map_eq_some'.mp h
        cases he
        obtain ⟨h1, h2⟩ := validUtf8_parseStringBody t [] b r
          (validUtf8_tail_ascii (by decide) hw) hb
        exact ⟨.str h1, h2⟩
      by_cases h116 : c = 116
      · subst h116
        obtain ⟨rfl, rfl⟩ := parseValue_true h
        exact ⟨.bool true, @validUtf8_of_ascii_append [116, 114, 117, 101] _ (by decide) hw⟩
      by_cases h102 : c = 102
      · subst h102
        obtain ⟨rfl, rfl⟩ := parseValue_false h
        exact ⟨.bool false, @validUtf8_of_ascii_append [102, 97, 108, 115, 101] _ (by decide) hw⟩
      by_cases h110 : c = 110
      · subst h110
        obtain ⟨rfl, rfl⟩ := parseValue_null h
        exact ⟨.null, @validUtf8_of_ascii_append [110, 117, 108, 108] _ (by decide) hw⟩
      rw [parseValue_number hc h123 h91 h34 h116 h102 h110] at h
      exact validUtf8_parseNumber hw h
    · -- a member: its key, `:`, its value, then `,` and the next member or `}`
      rw [parseMembers.eq_2] at h
      have hw := validUtf8_skipWs hs
      split at h
      · rename_i rest heq
        rw [heq] at hw
        split at h
        · rename_i key r1 hkey
          obtain ⟨h1, h2⟩ := validUtf8_parseStringBody rest [] key r1
            (validUtf8_tail_ascii (by decide) hw) hkey
          have hw1 := validUtf8_skipWs h2
          split at h
          · rename_i r2 heq2
            rw [heq2] at hw1
            split at h
            · rename_i v' r3 hv'
              obtain ⟨hv1, hr3⟩ := ihv (validUtf8_tail_ascii (by decide) hw1) hv'
              have hk' : ∀ m ∈ (key, v') :: acc, validUtf8 m.1 = true :=
                List.forall_mem_cons.mpr ⟨h1, hk⟩
              have hm' : ∀ m ∈ (key, v') :: acc, ValidStrings m.2 :=
                List.forall_mem_cons.mpr ⟨hv1, hm⟩
              have hw3 := validUtf8_skipWs hr3
              split at h
              · rename_i r4 heq4
                rw [heq4] at hw3
                exact ihm hk' hm' (validUtf8_tail_ascii (by decide) hw3) h
              · rename_i r4 heq4
                cases h
                rw [heq4] at hw3
                exact ⟨.obj (fun m hm => hk' m (List.mem_reverse.mp hm))
                  (fun m hm => hm' m (List.mem_reverse.mp hm)), validUtf8_tail_ascii (by decide) hw3⟩
              · cases h
            · cases h
          · cases h
        · cases h
      · cases h
    · -- an item, then `,` and the next item or `]`
      rw [parseItems.eq_2] at h
      split at h
      · rename_i v' r1 hv'
        obtain ⟨hv1, hr1⟩ := ihv hs hv'
        have hx' : ∀ x ∈ v' :: acc, ValidStrings x := List.forall_mem_cons.mpr ⟨hv1, hx⟩
        have hw1 := validUtf8_skipWs hr1
        split at h
        · rename_i r2 heq2
          rw [heq2] at hw1
          exact ihi hx' (validUtf8_tail_ascii (by decide) hw1) h
        · rename_i r2 heq2
          cases h
          rw [heq2] at hw1
          exact ⟨.arr fun x hx => hx' x (List.mem_reverse.mp hx), validUtf8_tail_ascii (by decide) hw1⟩
        · cases h
      · cases h

/-! ## Documents -/

theorem validStrings_parseDocs (n : Nat) {s : Bytes} {docs : List JsonValue}
    (hs : validUtf8 s = true) (h : parseDocs n s = some docs) : ∀ d ∈ docs, ValidStrings d := by
  induction n generalizing s docs with
  | zero => simp only [parseDocs.eq_1, reduceCtorEq] at h
  | succ n ih =>
    rw [parseDocs.eq_2] at h
    split at h
    · cases h
      exact fun _ => nofun
    · rename_i c rest hws
      split_ifs at h
      split at h
      · rename_i v rest' hv
        obtain ⟨ds, hds, rfl⟩ := Option.map_eq_some'.mp h
        obtain ⟨hv1, hr⟩ := (validStrings_parse _).1 (hws ▸ validUtf8_skipWs hs) hv
        exact List.forall_mem_cons.mpr ⟨hv1, ih hr hds⟩
      · cases h

theorem validStrings_parseNdjson {chunk : Bytes} {docs : List JsonValue}
    (hu : validUtf8 chunk = true) (h : parseNdjson chunk = some docs) : ∀ d ∈ docs, ValidStrings d :=
  validStrings_parseDocs _ hu h

/-- Every document of chunks of well-formed UTF-8 has only well-formed strings. -/
theorem validStrings_chunkDocs {chunks : List Bytes} (hu : ∀ c ∈ chunks, validUtf8 c = true) :
    ∀ d ∈ chunkDocs chunks, ValidStrings d := by
  induction chunks with
  | nil => exact fun _ => nofun
  | cons c cs ih =>
    obtain ⟨hc, hcs⟩ := List.forall_mem_cons.mp hu
    unfold chunkDocs
    split
    · exact fun d hd => (List.mem_append.mp hd).elim (validStrings_parseNdjson hc ‹_› d) (ih hcs d)
    · exact fun _ => nofun

/-! ## The names a `syscall` run counts -/

theorem mem_of_findElement {v w : JsonValue} {key : Bytes} (h : findElement v key = .ok w) :
    ∃ ms, v = .obj ms ∧ ∃ k, (k, w) ∈ ms := by
  unfold findElement at h
  split at h
  · split at h
    · rename_i m hm
      cases h
      exact ⟨_, rfl, m.1, List.mem_of_find?_eq_some hm⟩
    · cases h
  · cases h

theorem validStrings_findElement {v w : JsonValue} (hv : ValidStrings v) {key : Bytes}
    (h : findElement v key = .ok w) : ValidStrings w := by
  obtain ⟨ms, rfl, k, hk⟩ := mem_of_findElement h
  cases hv with
  | obj _ hm => exact hm _ hk

theorem findElement_of_readEnvelope {doc el : JsonValue} {t : Bytes}
    (h : readEnvelope doc = .ok (t, el)) : findElement doc (ascii "data") = .ok el := by
  unfold readEnvelope at h
  split at h
  · cases h
  split at h
  · cases h
  split at h
  · cases h
  · cases h
    assumption

theorem validStrings_mapData {doc el : JsonValue} (hd : ValidStrings doc)
    (h : mapData? doc = some el) : ValidStrings el := by
  unfold mapData? at h
  split at h
  · split at h
    · cases h
      exact validStrings_findElement hd (findElement_of_readEnvelope ‹_›)
    · cases h
  · cases h

/-- Every name of a map is well-formed UTF-8. -/
def CountMap.ValidKeys (m : CountMap) : Prop := ∀ kv ∈ m.entries, validUtf8 kv.1 = true

theorem CountMap.validKeys_empty : CountMap.empty.ValidKeys := fun _ => nofun

theorem CountMap.ValidKeys.insert {m : CountMap} (hm : m.ValidKeys) {k : Bytes}
    (hk : validUtf8 k = true) (v : Word) : (m.insert k v).ValidKeys := by
  intro kv hkv
  have h := List.mem_map_of_mem Prod.fst hkv
  rw [CountMap.insert, insertEntry_keys] at h
  have hold : kv.1 ∈ m.entries.map Prod.fst → validUtf8 kv.1 = true := fun h' => by
    obtain ⟨kv', hkv', he⟩ := List.mem_map.mp h'
    exact he ▸ hm kv' hkv'
  split at h
  · exact hold h
  · rcases List.mem_append.mp h with h | h
    · exact hold h
    · exact (List.mem_singleton.mp h) ▸ hk

theorem validKeys_fillMembers {ms : List (Bytes × JsonValue)} (hk : ∀ m ∈ ms, validUtf8 m.1 = true)
    {c : CountMap} (hc : c.ValidKeys) :
    (fillMembers (fun m name v => m.insert name v) c ms).ValidKeys := by
  induction ms generalizing c with
  | nil => exact hc
  | cons m ms ih =>
    obtain ⟨hm, hms⟩ := List.forall_mem_cons.mp hk
    refine ih hms ?_
    dsimp only
    split
    · exact hc.insert hm _
    · exact hc

theorem eq_ok_of_toOption {ε α : Type} {x : Except ε α} {a : α} (h : x.toOption = some a) :
    x = .ok a := by
  cases x with
  | error => cases h
  | ok => cases h; rfl

theorem validKeys_fill {e e' : SyscallCountEvent} {el : JsonValue} (hel : ValidStrings el)
    (he : e.counts.ValidKeys) (h : e.fill el = .ok e') : e'.counts.ValidKeys := by
  unfold SyscallCountEvent.fill fillFrom at h
  split at h
  · cases h
  · rename_i rootEl hroot
    split at h
    · cases h
    · rename_i ms hms
      cases h
      cases validStrings_findElement hel hroot with
      | obj hk _ =>
        cases hms
        exact validKeys_fillMembers hk he
      | _ => cases hms

theorem validKeys_foldl_insert (l : List (Bytes × Word)) (hl : ∀ kv ∈ l, validUtf8 kv.1 = true)
    {m : CountMap} (hm : m.ValidKeys) :
    (l.foldl (fun m kv => m.insert kv.1 (m.get kv.1 + kv.2)) m).ValidKeys := by
  induction l generalizing m with
  | nil => exact hm
  | cons kv l ih =>
    obtain ⟨hkv, hl⟩ := List.forall_mem_cons.mp hl
    exact ih hl (hm.insert hkv _)

theorem validKeys_foldl_add (l : List SyscallCountEvent) (hl : ∀ o ∈ l, o.counts.ValidKeys)
    {e : SyscallCountEvent} (he : e.counts.ValidKeys) : (l.foldl SyscallCountEvent.add e).counts.ValidKeys := by
  induction l generalizing e with
  | nil => exact he
  | cons o l ih =>
    obtain ⟨ho, hl⟩ := List.forall_mem_cons.mp hl
    exact ih hl (validKeys_foldl_insert _ ho he)

/-- Every name of the total of a `syscall` run over well-formed UTF-8 is a key of a document the
parser read, so it is well-formed UTF-8. -/
theorem validKeys_total {chunks : List Bytes} (hu : ∀ c ∈ chunks, validUtf8 c = true) :
    ((snapshots SyscallCountEvent.fill {} (chunkDocs chunks)).foldl SyscallCountEvent.add
      {}).counts.ValidKeys := by
  refine validKeys_foldl_add _ (fun o ho => ?_) CountMap.validKeys_empty
  obtain ⟨el, hel, hfill⟩ := List.mem_filterMap.mp ho
  obtain ⟨doc, hdoc, hmap⟩ := List.mem_filterMap.mp hel
  exact validKeys_fill (validStrings_mapData (validStrings_chunkDocs hu doc hdoc) hmap)
    CountMap.validKeys_empty (eq_ok_of_toOption hfill)

end Bpfstream
