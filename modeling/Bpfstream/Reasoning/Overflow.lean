import Bpfstream.Reasoning.Aggregate

/-!
# Overflow of the int64 counters

`Add` and `Total` are Go `int64` additions, which wrap modulo `2^64`, and the counts of a `map`
message are whatever `Iter.Int` accepts: any int64.  So a counter does overflow, on two messages
of large counts or on one message whose counts add past the range in `Total`.  What holds is the
arithmetic modulo `2^64`: every counter a pipeline reports, read as an int64, is the exact
integer sum of the counts `Fill` read reduced into the int64 range (`WrapsTo`), and so equals
that sum exactly when the sum lies in the int64 range (`WrapsTo.toInt_eq_iff`).
-/

namespace Bpfstream

/-! ## Wrapping sums -/

/-- `w`, read as an int64, is the integer `x` reduced modulo `2^64` into the int64 range: the word
Go's wrapping `int64` additions leave for an exact sum `x`. -/
def WrapsTo (w : Word) (x : Int) : Prop := w.toInt = x.bmod (2 ^ 64)

theorem toInt_mem_range (w : Word) : -2 ^ 63 ≤ w.toInt ∧ w.toInt < 2 ^ 63 := by
  have := w.isLt
  rw [BitVec.toInt_eq_toNat_cond]
  split <;> omega

theorem bmod_eq_self {x : Int} (h₁ : -2 ^ 63 ≤ x) (h₂ : x < 2 ^ 63) : x.bmod (2 ^ 64) = x := by
  have hm : ((2 ^ 64 : Nat) : Int) = 18446744073709551616 := rfl
  simp only [Int.bmod, hm]
  split <;> omega

theorem WrapsTo.self (w : Word) : WrapsTo w w.toInt :=
  (bmod_eq_self (toInt_mem_range w).1 (toInt_mem_range w).2).symm

/-- A wrapped sum is the exact sum exactly when the exact sum lies in the int64 range. -/
theorem WrapsTo.toInt_eq_iff {w : Word} {x : Int} (h : WrapsTo w x) :
    w.toInt = x ↔ -2 ^ 63 ≤ x ∧ x < 2 ^ 63 :=
  ⟨fun he => he ▸ toInt_mem_range w, fun ⟨h₁, h₂⟩ => h.trans (bmod_eq_self h₁ h₂)⟩

/-- Wrapping commutes with sums: words that wrap integers add up to a word that wraps their sum,
however far the partial sums stray out of range. -/
theorem WrapsTo.sum {α : Type*} {l : List α} {f : α → Word} {g : α → Int}
    (h : ∀ a ∈ l, WrapsTo (f a) (g a)) : WrapsTo (l.map f).sum (l.map g).sum := by
  induction l with
  | nil => rfl
  | cons a l ih =>
    rw [WrapsTo, List.map_cons, List.sum_cons, BitVec.toInt_add, h a (List.mem_cons_self a l),
      ih fun b hb => h b (List.mem_cons_of_mem a hb), List.map_cons, List.sum_cons, ← Int.add_bmod]

/-! ## The reported counters -/

theorem Counts.wrapsTo_total {n : Nat} (e : Counts n) :
    WrapsTo (Counts.total e) ((List.finRange n).map fun i => (e i).toInt).sum := by
  rw [Counts.total_eq_sum]
  exact WrapsTo.sum fun i _ => WrapsTo.self (e i)

theorem SyscallCountEvent.wrapsTo_total (e : SyscallCountEvent) :
    WrapsTo e.total (e.counts.entries.map fun kv => kv.2.toInt).sum := by
  rw [SyscallCountEvent.total_eq_sum, CountMap.sum]
  exact WrapsTo.sum fun kv _ => WrapsTo.self kv.2

/-- The counters `e` wrap the exact integer sums of the snapshots `snaps`: every slot the sum of
that slot, and `Total` the sum of every slot of every snapshot. -/
def CountsWrap {n : Nat} (snaps : List (Counts n)) (e : Counts n) : Prop :=
  (∀ i, WrapsTo (e i) (snaps.map fun s => (s i).toInt).sum) ∧
    WrapsTo (Counts.total e)
      (snaps.map fun s => ((List.finRange n).map fun i => (s i).toInt).sum).sum

/-- The same for `SyscallCountEvent`: every key's count and `Total`. -/
def SyscallWrap (snaps : List SyscallCountEvent) (e : SyscallCountEvent) : Prop :=
  (∀ k, WrapsTo (e.counts.get k) (snaps.map fun s => (s.counts.get k).toInt).sum) ∧
    WrapsTo e.total (snaps.map fun s => (s.counts.entries.map fun kv => kv.2.toInt).sum).sum

theorem CountsAggregate.countsWrap {n : Nat}
    {fill : Counts n → JsonValue → Except GoError (Counts n)} {docs : List JsonValue} {st : Counts n × Nat} (h : CountsAggregate fill docs st) :
    CountsWrap (snapshots fill Counts.zero docs) st.1 := by
  obtain ⟨-, -, hslot, htotal⟩ := h
  refine ⟨fun i => ?_, ?_⟩
  · rw [hslot _ (List.Perm.refl _) i]
    exact WrapsTo.sum fun s _ => WrapsTo.self (s i)
  · rw [htotal]
    exact WrapsTo.sum fun s _ => Counts.wrapsTo_total s

theorem SyscallAggregate.syscallWrap {docs : List JsonValue} {st : SyscallCountEvent × Nat}
    (h : SyscallAggregate docs st) :
    SyscallWrap (snapshots SyscallCountEvent.fill {} docs) st.1 := by
  obtain ⟨-, -, hkey, htotal⟩ := h
  refine ⟨fun k => ?_, ?_⟩
  · rw [(hkey _ (List.Perm.refl _) k).2]
    exact WrapsTo.sum fun s _ => WrapsTo.self (s.counts.get k)
  · rw [htotal]
    exact WrapsTo.sum fun s _ => SyscallCountEvent.wrapsTo_total s

/-- On every stream a count pipeline accepts, each counter and `Total` it reports, read as an
int64, is the exact integer sum of the counts `Fill` read from the `map` messages, wrapped into
the int64 range; it equals that sum exactly when the sum lies in the range. -/
theorem count_pipelines_wrap_exact_sums :
    (∀ chunks final t st, vfsCountCmd chunks final = ((t, st), .ok) →
      CountsWrap (snapshots Event.fill Counts.zero (chunkDocs chunks)) st.1) ∧
    (∀ chunks final st, procCountCmd chunks final = (st, .ok) →
      CountsWrap (snapshots ProcCountEvent.fill Counts.zero (chunkDocs chunks)) st.1) ∧
    (∀ chunks final st, memCountCmd chunks final = (st, .ok) →
      CountsWrap (snapshots MemCountEvent.fill Counts.zero (chunkDocs chunks)) st.1) ∧
    (∀ chunks final st, syscallCountCmd chunks final = (st, .ok) →
      SyscallWrap (snapshots SyscallCountEvent.fill {} (chunkDocs chunks)) st.1) ∧
    (∀ w x, WrapsTo w x → (w.toInt = x ↔ -2 ^ 63 ≤ x ∧ x < 2 ^ 63)) := by
  refine ⟨fun chunks final t st h => (countsAggregate_of_run vfsCountOnDoc_countStep h).countsWrap,
    fun chunks final st h => (countParseStream_counts _ chunks final st h).1.countsWrap,
    fun chunks final st h => (countParseStream_counts _ chunks final st h).1.countsWrap,
    fun chunks final st h => ?_, fun _ _ h => h.toInt_eq_iff⟩
  obtain ⟨p, hp⟩ := countParseStream_eq_ok_iff.mp h
  exact (syscallAggregate_of_run (onDoc_countStep _ _ _) hp).syscallWrap

/-- Two `map` messages of `vfs_read` count `2^63 - 1`: `vfsCountCmd` accepts them, and where the
exact sum of the counts it read is `2^64 - 2`, its `Read` counter and `Total` overflow to `-2`. -/
theorem vfsCountCmd_read_counter_overflows :
    let chunks := List.replicate 2 (ascii
      "\x7b\"type\": \"map\", \"data\": \x7b\"@\": \x7b\"vfs_read\": 9223372036854775807\x7d\x7d\x7d\n")
    ((snapshots Event.fill Counts.zero (chunkDocs chunks)).map fun s => (s 2).toInt).sum =
        2 ^ 64 - 2 ∧
      (vfsCountCmd chunks .eof).2 = .ok ∧
      ((vfsCountCmd chunks .eof).1.2.1 2).toInt = -2 ∧
      (Counts.total (vfsCountCmd chunks .eof).1.2.1).toInt = -2 := by
  decide

end Bpfstream
