import Bpfstream.VfsRaw

/-!
# The `printf` payload round trip

The probe writes each VFS call as one logfmt record,
`ts=<ts> fn=<probe> tid=<tid> rc=<rc> path='<path>' inode=<inode> offset=<offset> len=<len>`
(the layout of the recorded payloads in `cmd_vfs_raw_test.go`), and `vfsEvent.HandleLogfmt`
reads it back.  The single quotes around the path are not logfmt syntax: they are two more
bytes of a bare value, which `HandleLogfmt` drops by position.  So the record decodes to the
event it was written from when the scanner cuts it where the writer joined it, that is when the
probe and the path are made of bytes that may stand in a bare value (`identByte`).  A path with
a space is cut at the space, and what follows the space is read as a key of its own.
-/

namespace Bpfstream

/-- A logfmt record: `key=value` pairs joined by single spaces. -/
def logfmtRecord : List (Bytes × Bytes) → Bytes
  | [] => []
  | [(k, v)] => k ++ 61 :: v
  | (k, v) :: p :: ps => k ++ 61 :: v ++ 32 :: logfmtRecord (p :: ps)

/-- The pairs of the record the probe writes for `e`, the integers in decimal. -/
def VfsEvent.fields (e : VfsEvent) : List (Bytes × Bytes) :=
  [(ascii "ts", formatUint e.timestamp.toNat), (ascii "fn", e.probe),
    (ascii "tid", formatUint e.tid.toNat), (ascii "rc", formatInt e.returnValue.toInt),
    (ascii "path", 39 :: e.path ++ [39]), (ascii "inode", formatUint e.inode.toNat),
    (ascii "offset", formatUint e.offset.toNat), (ascii "len", formatUint e.length.toNat)]

/-- The `printf` payload of `e`. -/
def VfsEvent.render (e : VfsEvent) : Bytes := logfmtRecord e.fields

/-- Pairs the scanner reads back as written: non-empty keys, and keys and values of bytes that
may stand in a bare key or value. -/
def BarePairs (ps : List (Bytes × Bytes)) : Bool :=
  ps.all fun p => !p.1.isEmpty && p.1.all identByte && p.2.all identByte

/-! ## The scanner on bare pairs -/

section Scan

theorem scanLogfmt_key_append (k : Bytes) {s : Bytes} (hs : s.all identByte) (rest : Bytes) :
    scanLogfmt (.key k) (s ++ rest) = scanLogfmt (.key (k ++ s)) rest := by
  induction s generalizing k with
  | nil => simp
  | cons c s ih =>
    simp only [List.all_cons, Bool.and_eq_true] at hs
    rw [List.cons_append, scanLogfmt, if_pos hs.1, ih _ hs.2, List.append_assoc,
      List.singleton_append]

theorem scanLogfmt_ivalue_append (k v : Bytes) {s : Bytes} (hs : s.all identByte) (rest : Bytes) :
    scanLogfmt (.ivalue k v) (s ++ rest) = scanLogfmt (.ivalue k (v ++ s)) rest := by
  induction s generalizing v with
  | nil => simp
  | cons c s ih =>
    simp only [List.all_cons, Bool.and_eq_true] at hs
    rw [List.cons_append, scanLogfmt, if_pos hs.1, ih _ hs.2, List.append_assoc,
      List.singleton_append]

/-- A bare key followed by `=` is read whole. -/
theorem scanLogfmt_garbage_key {k : Bytes} (hk : k ≠ []) (hki : k.all identByte) (rest : Bytes) :
    scanLogfmt .garbage (k ++ 61 :: rest) = scanLogfmt (.equal k) rest := by
  obtain ⟨c, s, rfl⟩ := List.exists_cons_of_ne_nil hk
  simp only [List.all_cons, Bool.and_eq_true] at hki
  rw [List.cons_append, scanLogfmt, if_pos hki.1, scanLogfmt_key_append _ hki.2]
  simp [scanLogfmt, show identByte 61 = false from rfl]

/-- A bare value at the end of the record is one pair. -/
theorem scanLogfmt_equal_end (k : Bytes) {v : Bytes} (hv : v.all identByte) :
    scanLogfmt (.equal k) v = [.pair k v] := by
  cases v with
  | nil => rfl
  | cons c s =>
    simp only [List.all_cons, Bool.and_eq_true] at hv
    have h := scanLogfmt_ivalue_append k [c] hv.2 []
    rw [List.append_nil] at h
    rw [scanLogfmt, if_pos hv.1, h]
    rfl

/-- A bare value followed by a space is one pair, and the scan goes on after the space. -/
theorem scanLogfmt_equal_space (k : Bytes) {v : Bytes} (hv : v.all identByte) (rest : Bytes) :
    scanLogfmt (.equal k) (v ++ 32 :: rest) = .pair k v :: scanLogfmt .garbage rest := by
  cases v with
  | nil => simp [scanLogfmt, show identByte 32 = false from rfl]
  | cons c s =>
    simp only [List.all_cons, Bool.and_eq_true] at hv
    rw [List.cons_append, scanLogfmt, if_pos hv.1, scanLogfmt_ivalue_append _ _ hv.2]
    simp [scanLogfmt, show identByte 32 = false from rfl]

/-- A record of bare pairs scans to its pairs, in order. -/
theorem scanLogfmt_logfmtRecord : ∀ {ps : List (Bytes × Bytes)}, BarePairs ps →
    scanLogfmt .garbage (logfmtRecord ps) = ps.map fun p => .pair p.1 p.2
  | [], _ => rfl
  | [(k, v)], h => by
    simp only [BarePairs, List.all_cons, List.all_nil, Bool.and_true, Bool.and_eq_true,
      Bool.not_eq_true', List.isEmpty_eq_false] at h
    rw [logfmtRecord, scanLogfmt_garbage_key h.1.1 h.1.2, scanLogfmt_equal_end _ h.2]
    rfl
  | (k, v) :: p :: ps, h => by
    rw [BarePairs, List.all_cons, Bool.and_eq_true] at h
    obtain ⟨hkv, hps⟩ := h
    simp only [Bool.and_eq_true, Bool.not_eq_true', List.isEmpty_eq_false] at hkv
    rw [logfmtRecord, List.append_assoc, List.cons_append, scanLogfmt_garbage_key hkv.1.1 hkv.1.2,
      scanLogfmt_equal_space _ hkv.2, @scanLogfmt_logfmtRecord (p :: ps) hps]
    rfl

end Scan

/-! ## Decoding the rendered record -/

theorem identByte_of_isDigit {c : UInt8} (h : isDigit c = true) : identByte c = true := by
  simp only [isDigit, Bool.and_eq_true, decide_eq_true_eq] at h
  have h34 : c ≠ 34 := fun hc => by subst hc; exact absurd h.1 (by decide)
  have h61 : c ≠ 61 := fun hc => by subst hc; exact absurd h.2 (by decide)
  simp [identByte, h34, h61]
  omega

theorem formatUint_identBytes (n : Nat) : (formatUint n).all identByte := by
  simp only [List.all_eq_true]
  exact fun c hc => identByte_of_isDigit (formatUint_digits n c hc)

theorem formatInt_identBytes (i : Int) : (formatInt i).all identByte := by
  unfold formatInt
  split
  · simp only [List.all_cons, formatUint_identBytes, Bool.and_true]
    rfl
  · exact formatUint_identBytes _

/-- `HandleLogfmt`'s `v[1:len(v)-1]` takes the quotes off a quoted path. -/
theorem slice_quoted (q : UInt8) (p : Bytes) :
    slice (q :: p ++ [q]) 1 ((q :: p ++ [q]).length - 1) = .ok p := by
  simp [slice]

theorem VfsEvent.barePairs_fields {e : VfsEvent} (hp : e.probe.all identByte)
    (hpath : e.path.all identByte) : BarePairs e.fields := by
  simp only [BarePairs, VfsEvent.fields, List.all_cons, List.all_nil, List.cons_append,
    List.all_append, formatUint_identBytes, formatInt_identBytes, hp, hpath, Bool.and_true]
  rfl


/-- `HandleLogfmt`, run over the pairs of `e`'s record from a zero `vfsEvent`, rebuilds `e` and
reports no error. -/
theorem runLogfmt_fields (e : VfsEvent) :
    runLogfmt VfsEvent.handleLogfmt (e.fields.map fun p => .pair p.1 p.2) {} none = .ok (e, none) := by
  simp only [VfsEvent.fields, List.map_cons, List.map_nil, runLogfmt, VfsEvent.handleLogfmt_ts,
    VfsEvent.handleLogfmt_fn, VfsEvent.handleLogfmt_tid, VfsEvent.handleLogfmt_rc,
    VfsEvent.handleLogfmt_path, VfsEvent.handleLogfmt_inode, VfsEvent.handleLogfmt_offset,
    VfsEvent.handleLogfmt_len, parseUint_formatUint, parseInt_formatInt, slice_quoted]
  rfl

/-- The record the probe writes for `e` decodes to `e`, with no error, when the probe and the
path are made of bytes that may stand in a bare logfmt value.  The numeric fields are
arbitrary, the probe may be empty, and the path may hold single quotes. -/
theorem decodeVfsEvent_render (e : VfsEvent) (hp : e.probe.all identByte)
    (hpath : e.path.all identByte) : decodeVfsEvent e.render = .ok (e, none) := by
  rw [decodeVfsEvent, logfmtUnmarshal, VfsEvent.render,
    scanLogfmt_logfmtRecord (VfsEvent.barePairs_fields hp hpath), runLogfmt_fields]

/-- The payload of the recorded test data decodes to its event. -/
theorem decodeVfsEvent_render_test_txt :
    decodeVfsEvent (VfsEvent.render
        { timestamp := 1234567890, probe := ascii "vfs_read", tid := 1234, returnValue := 100,
          path := ascii "test.txt", inode := 12345, offset := 0, length := 100 }) =
      .ok ({ timestamp := 1234567890, probe := ascii "vfs_read", tid := 1234, returnValue := 100,
             path := ascii "test.txt", inode := 12345, offset := 0, length := 100 }, none) :=
  decodeVfsEvent_render _ (by decide) (by decide)

/-- A path with a space: the scanner ends the path value `'a` at the space, so the path decodes
empty, and `b'` arrives as a key of its own, which `HandleLogfmt` does not know. -/
theorem decodeVfsEvent_render_path_with_space :
    decodeVfsEvent (VfsEvent.render { probe := ascii "vfs_read", path := ascii "a b" }) =
      .ok ({ probe := ascii "vfs_read" }, some errUnknownField) := by
  decide

end Bpfstream
