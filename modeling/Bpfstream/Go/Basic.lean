import Mathlib.Data.List.Basic

/-!
# Go runtime values

Byte strings, 64-bit words, the `error` values the program builds and the three ways a Go call
can end.  Every parser of the program reads byte strings: Go indexes and slices a `string` by
byte, so a `string` is modelled as its bytes.
-/

namespace Bpfstream

/-- A Go `string` or `[]byte`. -/
abbrev Bytes := List UInt8

/-- The bytes of an ASCII literal of the source. -/
def ascii (s : String) : Bytes := s.toList.map fun c => c.toNat.toUInt8

/-- Go's `int64` and `uint64`: a 64-bit word, read in two's complement for `int64`. -/
abbrev Word := BitVec 64

/-- `strconv.ErrSyntax` and `strconv.ErrRange`. -/
inductive NumErr where
  | errSyntax
  | errRange
deriving DecidableEq, Repr

/-- The `error` values the modelled code returns. -/
inductive GoError where
  /-- `errors.New(text)`. -/
  | new (text : String)
  /-- `errors.Wrap(cause, context)` and `fmt.Errorf("context: %w", cause)`: both read
  `context + ": " + cause.Error()`. -/
  | wrap (context : String) (cause : GoError)
  /-- `*strconv.NumError{Func, Num, Err}`. -/
  | numError (func : String) (num : Bytes) (err : NumErr)
  /-- `*time.ParseError` for the value `value`. -/
  | timeParse (value : Bytes) (detail : String)
  /-- An error built by a library (simdjson, logfmt, bufio) from a fixed text. -/
  | lib (text : String)
  /-- `io.EOF`. -/
  | eof
  /-- An error the input reader returns. -/
  | read (text : String)
deriving DecidableEq, Repr

/-- A run-time panic.  The only one the modelled code can raise is
`runtime error: slice bounds out of range [lo:hi] with length len`. -/
structure Panic where
  lo : Int
  hi : Int
  len : Nat
deriving DecidableEq, Repr

/-- How a Go call ends: it returns a nil error, returns an error, or panics. -/
inductive Ret where
  | ok
  | err (e : GoError)
  | panic (p : Panic)
deriving DecidableEq, Repr

/-- Two calls end the same way: both normally, both with an error or both with a panic, whatever
the error or the panic. -/
def Ret.sameKind : Ret → Ret → Bool
  | .ok, .ok | .err _, .err _ | .panic _, .panic _ => true
  | _, _ => false

theorem Ret.eq_ok_iff_of_sameKind {r r' : Ret} (h : r.sameKind r' = true) : r = .ok ↔ r' = .ok := by
  cases r <;> cases r' <;> simp_all [Ret.sameKind]

/-- Results of fallible calls can be compared, so that a run can be evaluated and tested. -/
instance instDecidableEqExcept {ε α : Type} [DecidableEq ε] [DecidableEq α] :
    DecidableEq (Except ε α)
  | .ok a, .ok b => decidable_of_iff (a = b) (by simp)
  | .error a, .error b => decidable_of_iff (a = b) (by simp)
  | .ok _, .error _ => isFalse nofun
  | .error _, .ok _ => isFalse nofun

/-- Go's slice expression `s[lo:hi]` on a string: defined when `0 ≤ lo ≤ hi ≤ len(s)`, a panic
otherwise. -/
def slice (s : Bytes) (lo hi : Int) : Except Panic Bytes :=
  if 0 ≤ lo ∧ lo ≤ hi ∧ hi ≤ s.length then .ok ((s.drop lo.toNat).take (hi - lo).toNat)
  else .error ⟨lo, hi, s.length⟩

theorem slice_ok_iff (s : Bytes) (lo hi : Int) :
    (∃ t, slice s lo hi = .ok t) ↔ 0 ≤ lo ∧ lo ≤ hi ∧ hi ≤ s.length := by
  unfold slice
  split <;> simp_all

theorem slice_error_bounds {s : Bytes} {lo hi : Int} {p : Panic} (h : slice s lo hi = .error p) :
    ¬ (0 ≤ lo ∧ lo ≤ hi ∧ hi ≤ s.length) := fun hb => by
  obtain ⟨t, ht⟩ := (slice_ok_iff s lo hi).mpr hb
  rw [ht] at h; cases h

/-- Cutting a known prefix and a known suffix off `pre ++ mid ++ suf` by position. -/
theorem slice_prefix_suffix (pre mid suf : Bytes) :
    slice (pre ++ mid ++ suf) pre.length ((pre ++ mid ++ suf).length - suf.length) = .ok mid := by
  have hlen : (((pre ++ mid ++ suf).length : Int) - suf.length - pre.length).toNat = mid.length := by
    simp only [List.length_append]; omega
  unfold slice
  rw [if_pos (by simp only [List.length_append]; omega), hlen, Int.toNat_ofNat, List.append_assoc,
    List.drop_left, List.take_left]

/-- `strings.HasPrefix(s, prefix)`. -/
def hasPrefix (s pre : Bytes) : Bool := pre.isPrefixOf s

theorem hasPrefix_iff (s pre : Bytes) : hasPrefix s pre = true ↔ pre <+: s := by
  simp [hasPrefix, List.isPrefixOf_iff_prefix]

/-! ## Loops with an early `return` -/

/-- A Go `for ... range` loop whose body may `return`: run `body` over the elements in order and
stop at the first one after which it does not return `ok`. -/
def loop (body : σ → α → σ × Ret) : σ → List α → σ × Ret
  | s, [] => (s, .ok)
  | s, a :: as =>
    match body s a with
    | (s', .ok) => loop body s' as
    | r => r

section Loop

variable {σ α : Type*} (body : σ → α → σ × Ret)

@[simp] theorem loop_nil (s : σ) : loop body s [] = (s, .ok) := rfl

theorem loop_cons_ok {s s' : σ} {a : α} (h : body s a = (s', .ok)) (as : List α) :
    loop body s (a :: as) = loop body s' as := by
  simp [loop, h]

theorem loop_cons_stop {s : σ} {a : α} (h : (body s a).2 ≠ .ok) (as : List α) :
    loop body s (a :: as) = body s a := by
  rcases hb : body s a with ⟨s', r⟩
  rw [hb] at h
  cases r <;> simp_all [loop]

/-- Running over `xs ++ ys` runs over `xs` and, when that part ends normally, goes on with `ys`
from the state it left. -/
theorem loop_append (s : σ) (xs ys : List α) :
    loop body s (xs ++ ys) =
      if (loop body s xs).2 = .ok then loop body (loop body s xs).1 ys else loop body s xs := by
  induction xs generalizing s with
  | nil => simp
  | cons a xs ih =>
    by_cases h : (body s a).2 = .ok
    · rcases hb : body s a with ⟨s', r⟩
      rw [hb] at h; subst h
      rw [List.cons_append, loop_cons_ok body hb, loop_cons_ok body hb, ih]
    · rw [List.cons_append, loop_cons_stop body h, loop_cons_stop body h, if_neg h]

/-- A loop whose body always returns `ok` runs to the end. -/
theorem loop_ok_of_forall {s : σ} {xs : List α}
    (h : ∀ t a, a ∈ xs → (body t a).2 = .ok) : (loop body s xs).2 = .ok := by
  induction xs generalizing s with
  | nil => rfl
  | cons a xs ih =>
    rcases hb : body s a with ⟨s', r⟩
    have : r = .ok := by simpa [hb] using h s a (by simp)
    subst this
    rw [loop_cons_ok body hb]
    exact ih fun t b hb => h t b (by simp [hb])

/-- A loop that does not end normally was stopped by one of the elements. -/
theorem loop_stop_mem {s : σ} {xs : List α} (h : (loop body s xs).2 ≠ .ok) :
    ∃ a ∈ xs, ∃ t, (body t a).2 = (loop body s xs).2 := by
  induction xs generalizing s with
  | nil => exact absurd rfl h
  | cons a xs ih =>
    by_cases hr : (body s a).2 = .ok
    · rw [loop_cons_ok body (Prod.ext rfl hr)] at h ⊢
      obtain ⟨b, hb, t, ht⟩ := ih h
      exact ⟨b, List.mem_cons_of_mem a hb, t, ht⟩
    · rw [loop_cons_stop body hr]
      exact ⟨a, List.mem_cons_self a xs, s, rfl⟩

/-- A run either accepts every element, or stops at one element after accepting all those before
it; the elements after that one are never read. -/
theorem loop_cases (s : σ) (xs : List α) :
    (loop body s xs).2 = .ok ∨
      ∃ pre a post, xs = pre ++ a :: post ∧ (loop body s pre).2 = .ok ∧
        (body (loop body s pre).1 a).2 ≠ .ok ∧ loop body s xs = body (loop body s pre).1 a := by
  induction xs generalizing s with
  | nil => exact .inl rfl
  | cons a xs ih =>
    by_cases hr : (body s a).2 = .ok
    · rw [loop_cons_ok body (Prod.ext rfl hr)]
      refine (ih _).imp_right ?_
      rintro ⟨pre, b, post, rfl, hpre, hb, hrun⟩
      refine ⟨a :: pre, b, post, rfl, ?_⟩
      rw [loop_cons_ok body (Prod.ext rfl hr)]
      exact ⟨hpre, hb, hrun⟩
    · exact .inr ⟨[], a, xs, rfl, rfl, hr, loop_cons_stop body hr xs⟩

/-- A body that adds `out a` to a log kept in its state: a run that ends normally has added the
outputs of all the elements, in order. -/
theorem loop_log_of_ok {β : Type*} (log : σ → List β) (out : α → List β)
    (hlog : ∀ t a, log (body t a).1 = log t ++ out a) {s : σ} {xs : List α}
    (h : (loop body s xs).2 = .ok) : log (loop body s xs).1 = log s ++ xs.flatMap out := by
  induction xs generalizing s with
  | nil => simp
  | cons a xs ih =>
    by_cases hr : (body s a).2 = .ok
    · rw [loop_cons_ok body (Prod.ext rfl hr)] at h ⊢
      rw [ih h, hlog, List.flatMap_cons, List.append_assoc]
    · rw [loop_cons_stop body hr] at h
      exact absurd h hr

/-- What a run of a logging body has added: the outputs of all the elements when it ends
normally, and otherwise those of the elements up to and including the one it stopped at. -/
theorem loop_log_cases {β : Type*} (log : σ → List β) (out : α → List β)
    (hlog : ∀ t a, log (body t a).1 = log t ++ out a) (s : σ) (xs : List α) :
    ((loop body s xs).2 = .ok ∧ log (loop body s xs).1 = log s ++ xs.flatMap out) ∨
      ∃ pre a post, xs = pre ++ a :: post ∧ (loop body s xs).2 ≠ .ok ∧
        log (loop body s xs).1 = log s ++ (pre ++ [a]).flatMap out := by
  rcases loop_cases body s xs with h | ⟨pre, a, post, rfl, hpre, hb, hrun⟩
  · exact .inl ⟨h, loop_log_of_ok body log out hlog h⟩
  · refine .inr ⟨pre, a, post, rfl, hrun ▸ hb, ?_⟩
    rw [hrun, hlog, loop_log_of_ok body log out hlog hpre, List.flatMap_append, List.append_assoc,
      List.flatMap_singleton]

/-- An invariant of the states a run reaches, indexed by the elements read so far: it holds at
the end of a run that accepts every element, and, for a run that stops, of the state in which the
stopping element was read. -/
theorem loop_inv {P : List α → σ → Prop} {s : σ} (h0 : P [] s)
    (hstep : ∀ pre a t, P pre t → (body t a).2 = .ok → P (pre ++ [a]) (body t a).1)
    (xs : List α) :
    ((loop body s xs).2 = .ok → P xs (loop body s xs).1) ∧
      ((loop body s xs).2 ≠ .ok →
        ∃ pre a post t, xs = pre ++ a :: post ∧ P pre t ∧ loop body s xs = body t a) := by
  induction xs generalizing s P with
  | nil => exact ⟨fun _ => h0, fun h => absurd rfl h⟩
  | cons a xs ih =>
    by_cases hr : (body s a).2 = .ok
    · have hrun := ih (P := fun l t => P (a :: l) t) (hstep [] a s h0 hr)
        (fun pre b t hp hb => hstep (a :: pre) b t hp hb)
      rw [loop_cons_ok body (Prod.ext rfl hr)]
      refine ⟨hrun.1, fun hne => ?_⟩
      obtain ⟨pre, b, post, t, rfl, hp, hb⟩ := hrun.2 hne
      exact ⟨a :: pre, b, post, t, rfl, hp, hb⟩
    · rw [loop_cons_stop body hr]
      exact ⟨fun h => absurd h hr, fun _ => ⟨[], a, xs, s, rfl, h0, rfl⟩⟩

/-- Elements on which the body accepts and leaves the state alone are passed over. -/
theorem loop_skip {s : σ} {ys : List α} (h : ∀ t, ∀ y ∈ ys, body t y = (t, .ok)) :
    loop body s ys = (s, .ok) := by
  induction ys with
  | nil => rfl
  | cons y ys ih =>
    rw [loop_cons_ok body (h s y (List.mem_cons_self y ys))]
    exact ih fun t z hz => h t z (List.mem_cons_of_mem y hz)

/-- Inserting such elements anywhere leaves the run as it was. -/
theorem loop_insert_skip (s : σ) (xs ys zs : List α) (h : ∀ t, ∀ y ∈ ys, body t y = (t, .ok)) :
    loop body s (xs ++ ys ++ zs) = loop body s (xs ++ zs) := by
  rw [List.append_assoc, loop_append, loop_append body s xs zs, loop_append, loop_skip body h]
  simp

/-- Two loop bodies related by `g` on the elements of the list run alike. -/
theorem loop_map {τ : Type*} (g : σ → τ) {body' : τ → α → τ × Ret} {xs : List α}
    (h : ∀ s, ∀ a ∈ xs, body' (g s) a = (g (body s a).1, (body s a).2)) (s : σ) :
    loop body' (g s) xs = (g (loop body s xs).1, (loop body s xs).2) := by
  induction xs generalizing s with
  | nil => rfl
  | cons a xs ih =>
    have hstep := h s a (List.mem_cons_self a xs)
    have ih' := ih fun s b hb => h s b (List.mem_cons_of_mem a hb)
    by_cases hr : (body s a).2 = .ok
    · rw [loop_cons_ok body (Prod.ext rfl hr), loop_cons_ok body' (hstep.trans (Prod.ext rfl hr)), ih']
    · rw [loop_cons_stop body hr, loop_cons_stop body' (by rw [hstep]; exact hr), hstep]

/-- Two loops over the images of one list, whose bodies keep a relation between their states and
end each step the same way, keep the relation and end the same way. -/
theorem loop_sim {τ β μ : Type*} (body' : τ → β → τ × Ret) (R : σ → τ → Prop) (f : μ → α)
    (g : μ → β) {ms : List μ} (hstep : ∀ m ∈ ms, ∀ s t, R s t →
      R (body s (f m)).1 (body' t (g m)).1 ∧ (body s (f m)).2.sameKind (body' t (g m)).2 = true)
    (s : σ) (t : τ) (h0 : R s t) :
    R (loop body s (ms.map f)).1 (loop body' t (ms.map g)).1 ∧
      (loop body s (ms.map f)).2.sameKind (loop body' t (ms.map g)).2 = true := by
  induction ms generalizing s t with
  | nil => exact ⟨h0, rfl⟩
  | cons m ms ih =>
    obtain ⟨hR, hk⟩ := hstep m (List.mem_cons_self m ms) s t h0
    rw [List.map_cons, List.map_cons]
    by_cases hr : (body s (f m)).2 = .ok
    · rw [loop_cons_ok body (Prod.ext rfl hr),
        loop_cons_ok body' (Prod.ext rfl ((Ret.eq_ok_iff_of_sameKind hk).1 hr))]
      exact ih (fun m' h' => hstep m' (List.mem_cons_of_mem m h')) _ _ hR
    · rw [loop_cons_stop body hr, loop_cons_stop body' (mt (Ret.eq_ok_iff_of_sameKind hk).2 hr)]
      exact ⟨hR, hk⟩

end Loop

end Bpfstream
