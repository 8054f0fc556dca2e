import Bpfstream.Count
import Mathlib.Data.List.Sort

/-!
# What an order changes

Two orders reach the counters without meaning anything: the order of the members of the `@`
object, which `Fill` reads one after the other, and the order in which Go iterates a map, which
`SortedKeys` starts from.  A member order is harmless exactly when no two members set the same
counter; an iteration order is harmless for `SortedKeys` when no two keys have the same count,
since `sort.Slice` is not stable.
-/

namespace Bpfstream

/-! ## `Fill` and the order of the members -/

/-- No two of the names set the same slot. -/
def NoAliases (slotOf : Bytes → Option (Fin n)) (names : List Bytes) : Prop :=
  ∀ a ∈ names, ∀ b ∈ names, ∀ i, slotOf a = some i → slotOf b = some i → a = b

/-- A case table whose names and slots are all distinct sends distinct names to distinct
slots. -/
theorem noAliases_lookup {cases : List (Bytes × Fin n)} (hk : (cases.map Prod.fst).Nodup)
    (hv : (cases.map Prod.snd).Nodup) (names : List Bytes) : NoAliases cases.lookup names :=
  fun a _ b _ i ha hb => by
    rw [lookup_eq_some_iff_mem hk] at ha hb
    exact congrArg Prod.fst (List.inj_on_of_nodup_map hv ha hb rfl)

theorem Event.noAliases (names : List Bytes) : NoAliases Event.fillCases.lookup names :=
  noAliases_lookup (by decide) (by decide) names

theorem Counts.set_comm {slotOf : Bytes → Option (Fin n)} {a b : Bytes} (hab : a ≠ b)
    (hs : ∀ i, slotOf a = some i → slotOf b = some i → a = b) (e : Counts n) (v w : Word) :
    Counts.set slotOf (Counts.set slotOf e a v) b w = Counts.set slotOf (Counts.set slotOf e b w) a v := by
  unfold Counts.set
  cases ha : slotOf a with
  | none => rfl
  | some i =>
    cases hb : slotOf b with
    | none => rfl
    | some j =>
      show Function.update (Function.update e i v) j w = Function.update (Function.update e j w) i v
      refine Function.update_comm (fun hij : i = j => hab (hs i ha ?_)) v w e
      rw [hb, hij]

/-- Members with distinct names that set distinct slots can be read in any order. -/
theorem fillMembers_set_perm {slotOf : Bytes → Option (Fin n)} {ms ms' : List (Bytes × JsonValue)}
    (hp : ms.Perm ms') (hn : (ms.map Prod.fst).Nodup) (ha : NoAliases slotOf (ms.map Prod.fst))
    (c : Counts n) : fillMembers (Counts.set slotOf) c ms = fillMembers (Counts.set slotOf) c ms' := by
  refine hp.foldl_eq' (fun x hx y hy z => ?_) c
  by_cases hxy : x = y
  · rw [hxy]
  have hne : x.1 ≠ y.1 := fun h => hxy (List.inj_on_of_nodup_map hn hx hy h)
  have hs := ha _ (List.mem_map_of_mem _ hx) _ (List.mem_map_of_mem _ hy)
  cases iterInt x.2 <;> cases iterInt y.2 <;> simp only [Counts.set_comm hne hs]

/-- `Fill`'s reading of a `map` data element whose `@` object has the members `ms`. -/
theorem fillFrom_of_findElement {set : C → Bytes → Word → C} {el : JsonValue}
    {ms : List (Bytes × JsonValue)} (h : findElement el (ascii "@") = .ok (.obj ms)) (c : C) :
    fillFrom set c el = .ok (fillMembers set c ms) := by
  simp [fillFrom, h, objectElements]

/-- With distinct names, `Counts[k]` after `SyscallCountEvent.Fill` is the value of the member
named `k` when `Iter.Int` accepts it, and what it was before otherwise. -/
theorem get?_fillMembers_insert {ms : List (Bytes × JsonValue)} (hn : (ms.map Prod.fst).Nodup)
    (c : CountMap) (k : Bytes) :
    (fillMembers (fun m name v => m.insert name v) c ms).get? k =
      match ms.lookup k with
      | some j => match iterInt j with
        | .ok v => some v
        | .error _ => c.get? k
      | none => c.get? k := by
  induction ms generalizing c with
  | nil => rfl
  | cons p ms ih =>
    obtain ⟨k₀, j₀⟩ := p
    simp only [List.map_cons, List.nodup_cons] at hn
    rw [fillMembers, List.foldl_cons, ← fillMembers, ih hn.2, lookup_cons_ite]
    by_cases hk : k = k₀
    · subst hk
      have : ms.lookup k = none := by
        simp only [List.lookup_eq_none_iff, bne_iff_ne, ne_eq]
        exact fun p hp h => hn.1 (h ▸ List.mem_map_of_mem Prod.fst hp)
      cases hj : iterInt j₀ <;> simp [this, hj]
    · cases hj : iterInt j₀ <;> simp [hk, hj]

theorem syscall_fill_member_perm {el el' : JsonValue} {ms ms' : List (Bytes × JsonValue)}
    (h : findElement el (ascii "@") = .ok (.obj ms)) (h' : findElement el' (ascii "@") = .ok (.obj ms'))
    (hp : ms.Perm ms') (hn : (ms.map Prod.fst).Nodup) (e : SyscallCountEvent) (k : Bytes) :
    (e.fill el).map (·.counts.get? k) = (e.fill el').map (·.counts.get? k) := by
  have hn' := (hp.map Prod.fst).nodup_iff.mp hn
  simp only [SyscallCountEvent.fill, fillFrom_of_findElement h, fillFrom_of_findElement h',
    Except.map, get?_fillMembers_insert hn, get?_fillMembers_insert hn', lookup_eq_of_perm hp hn]

theorem counts_fill_member_perm {cases : List (Bytes × Fin n)} {el el' : JsonValue}
    {ms ms' : List (Bytes × JsonValue)}
    (h : findElement el (ascii "@") = .ok (.obj ms)) (h' : findElement el' (ascii "@") = .ok (.obj ms'))
    (hp : ms.Perm ms') (hn : (ms.map Prod.fst).Nodup) (ha : NoAliases cases.lookup (ms.map Prod.fst))
    (e : Counts n) :
    fillFrom (Counts.set cases.lookup) e el = fillFrom (Counts.set cases.lookup) e el' := by
  rw [fillFrom_of_findElement h, fillFrom_of_findElement h', fillMembers_set_perm hp hn ha]

/-- Reading the members of the `@` object in another order changes no snapshot when their names
are distinct and, for the records whose `switch` has two names for one field, no two of them set
the same field. -/
theorem fill_member_order_irrelevant (el el' : JsonValue) (ms ms' : List (Bytes × JsonValue))
    (h : findElement el (ascii "@") = .ok (.obj ms)) (h' : findElement el' (ascii "@") = .ok (.obj ms'))
    (hp : ms.Perm ms') (hn : (ms.map Prod.fst).Nodup) :
    (∀ e : Event, Event.fill e el = Event.fill e el') ∧
    (∀ (e : SyscallCountEvent) (k : Bytes),
      (e.fill el).map (·.counts.get? k) = (e.fill el').map (·.counts.get? k)) ∧
    (NoAliases ProcCountEvent.fillCases.lookup (ms.map Prod.fst) →
      ∀ e : ProcCountEvent, ProcCountEvent.fill e el = ProcCountEvent.fill e el') ∧
    (NoAliases MemCountEvent.fillCases.lookup (ms.map Prod.fst) →
      ∀ e : MemCountEvent, MemCountEvent.fill e el = MemCountEvent.fill e el') :=
  ⟨counts_fill_member_perm h h' hp hn (Event.noAliases _), syscall_fill_member_perm h h' hp hn,
    fun ha => counts_fill_member_perm h h' hp hn ha, fun ha => counts_fill_member_perm h h' hp hn ha⟩

theorem fill_member_order_irrelevant_vfs :
    Event.fill Counts.zero
        (.obj [(ascii "@", .obj [(ascii "vfs_read", .int 1), (ascii "vfs_write", .int 2)])]) =
      Event.fill Counts.zero
        (.obj [(ascii "@", .obj [(ascii "vfs_write", .int 2), (ascii "vfs_read", .int 1)])]) :=
  (fill_member_order_irrelevant
    (.obj [(ascii "@", .obj [(ascii "vfs_read", .int 1), (ascii "vfs_write", .int 2)])])
    (.obj [(ascii "@", .obj [(ascii "vfs_write", .int 2), (ascii "vfs_read", .int 1)])])
    _ _ rfl rfl (List.Perm.swap _ _ _) (by decide)).1 Counts.zero

/-- `{"@": {"mmap": 1, "do_mmap": 2}}` and the same object with its members swapped fill `Mmap`
with 2 and with 1: the last of two aliases wins. -/
theorem memCountEvent_fill_alias_order_matters :
    [(ascii "mmap", JsonValue.int 1), (ascii "do_mmap", .int 2)].Perm
        [(ascii "do_mmap", .int 2), (ascii "mmap", .int 1)] ∧
      [ascii "mmap", ascii "do_mmap"].Nodup ∧
      (MemCountEvent.fill Counts.zero
        (.obj [(ascii "@", .obj [(ascii "mmap", .int 1), (ascii "do_mmap", .int 2)])])).map (· 0) =
          .ok 2 ∧
      (MemCountEvent.fill Counts.zero
        (.obj [(ascii "@", .obj [(ascii "do_mmap", .int 2), (ascii "mmap", .int 1)])])).map (· 0) =
          .ok 1 :=
  ⟨List.Perm.swap _ _ _, by decide, by decide, by decide⟩

/-! ## `SortedKeys` and the iteration order of the map -/

namespace SyscallCountEvent

variable (sort : SliceSort Bytes) (e : SyscallCountEvent)

theorem countGreater_strictWeakOrder : StrictWeakOrder e.countGreater where
  asymm a b h := by
    simp only [countGreater, BitVec.slt, decide_eq_true_eq, decide_eq_false_iff_not, not_lt] at h ⊢
    omega
  not_less_trans a b c h₁ h₂ := by
    simp only [countGreater, BitVec.slt, decide_eq_false_iff_not, not_lt] at h₁ h₂ ⊢; omega

theorem sortedKeys_perm : (e.sortedKeys sort).Perm (e.counts.entries.map Prod.fst) :=
  sort.perm _ _

theorem sortedKeys_nodup : (e.sortedKeys sort).Nodup :=
  (sortedKeys_perm sort e).nodup_iff.mpr e.counts.nodup

theorem sortedKeys_pairwise :
    (e.sortedKeys sort).Pairwise fun a b => (e.counts.get b).toInt ≤ (e.counts.get a).toInt :=
  (sort.sorted _ _ e.countGreater_strictWeakOrder).imp fun h => by
    simpa [countGreater, BitVec.slt] using h

variable {e}

/-- With no two keys of the same count, the non-increasing order is strict. -/
theorem sortedKeys_pairwise_lt
    (hd : ∀ a ∈ e.counts.entries.map Prod.fst, ∀ b ∈ e.counts.entries.map Prod.fst,
      e.counts.get a = e.counts.get b → a = b) :
    (e.sortedKeys sort).Pairwise fun a b => (e.counts.get b).toInt < (e.counts.get a).toInt := by
  have hmem : ∀ x, x ∈ e.sortedKeys sort ↔ x ∈ e.counts.entries.map Prod.fst :=
    fun _ => (sortedKeys_perm sort e).mem_iff
  refine ((sortedKeys_pairwise sort e).and (sortedKeys_nodup sort e)).imp_of_mem
    fun ha hb ⟨hle, hne⟩ => lt_of_le_of_ne hle fun h => hne ?_
  exact (hd _ ((hmem _).mp hb) _ ((hmem _).mp ha) (BitVec.toInt_inj.mp h)).symm

theorem get_eq_of_perm {e' : SyscallCountEvent} (hp : e'.counts.entries.Perm e.counts.entries)
    (k : Bytes) : e'.counts.get k = e.counts.get k := by
  rw [CountMap.get, CountMap.get, CountMap.get?_eq_of_perm hp]

theorem total_eq_of_perm {e' : SyscallCountEvent} (hp : e'.counts.entries.Perm e.counts.entries) :
    e'.total = e.total := by
  rw [total_eq_sum, total_eq_sum, CountMap.sum, CountMap.sum, (hp.map _).sum_eq]

/-- With no two keys of the same count, every iteration order of the map gives the same
`SortedKeys`. -/
theorem sortedKeys_eq_of_perm {e' : SyscallCountEvent} (hp : e'.counts.entries.Perm e.counts.entries)
    (hd : ∀ a ∈ e.counts.entries.map Prod.fst, ∀ b ∈ e.counts.entries.map Prod.fst,
      e.counts.get a = e.counts.get b → a = b) :
    e'.sortedKeys sort = e.sortedKeys sort := by
  have hget := get_eq_of_perm hp
  have hless : e'.countGreater = e.countGreater := by
    funext a b; simp only [countGreater, hget]
  have hd' : ∀ a ∈ e'.counts.entries.map Prod.fst, ∀ b ∈ e'.counts.entries.map Prod.fst,
      e'.counts.get a = e'.counts.get b → a = b := by
    simpa only [hget, (hp.map Prod.fst).mem_iff] using hd
  let r : Bytes → Bytes → Prop := fun a b => (e.counts.get b).toInt < (e.counts.get a).toInt
  haveI : IsAntisymm Bytes r := ⟨fun _ _ h₁ h₂ => absurd (h₁.trans h₂) (lt_irrefl _)⟩
  refine List.eq_of_perm_of_sorted (r := r) ?_ ?_ (sortedKeys_pairwise_lt sort hd)
  · exact ((sortedKeys_perm sort e').trans (hp.map Prod.fst)).trans (sortedKeys_perm sort e).symm
  · simpa only [r, hget] using sortedKeys_pairwise_lt sort hd'

end SyscallCountEvent

/-- `SortedKeys` lists every key once, counts never increasing; when no two keys have the same
count, neither it nor the `csv` and table output of `printSyscallEvent` depends on the order Go
iterates the map in. -/
theorem sortedKeys_order_determined (sort : SliceSort Bytes) (e : SyscallCountEvent) :
    (e.sortedKeys sort).Perm (e.counts.entries.map Prod.fst) ∧ (e.sortedKeys sort).Nodup ∧
    (e.sortedKeys sort).Pairwise (fun a b => (e.counts.get b).toInt ≤ (e.counts.get a).toInt) ∧
    ∀ e' : SyscallCountEvent, e'.counts.entries.Perm e.counts.entries →
      (∀ a ∈ e.counts.entries.map Prod.fst, ∀ b ∈ e.counts.entries.map Prod.fst,
        e.counts.get a = e.counts.get b → a = b) →
      e'.sortedKeys sort = e.sortedKeys sort ∧ printSyscallCsv sort e' = printSyscallCsv sort e ∧
        ∀ n, printSyscallTable sort e' n = printSyscallTable sort e n := by
  refine ⟨SyscallCountEvent.sortedKeys_perm sort e, SyscallCountEvent.sortedKeys_nodup sort e,
    SyscallCountEvent.sortedKeys_pairwise sort e, fun e' hp hd => ?_⟩
  have hk := SyscallCountEvent.sortedKeys_eq_of_perm sort hp hd
  have hget := SyscallCountEvent.get_eq_of_perm hp
  have ht := SyscallCountEvent.total_eq_of_perm hp
  exact ⟨hk, by simp only [printSyscallCsv, hk, hget, ht], fun n => by
    simp only [printSyscallTable, hk, hget, ht]⟩

/-- The map `{"read": 1, "write": 1}` iterated as `read, write`. -/
def readWriteTied : SyscallCountEvent := ⟨⟨[(ascii "read", 1), (ascii "write", 1)], by decide⟩⟩

/-- The same map iterated as `write, read`. -/
def writeReadTied : SyscallCountEvent := ⟨⟨[(ascii "write", 1), (ascii "read", 1)], by decide⟩⟩

/-- Two keys with the same count come out of `SortedKeys` in the order the map was iterated:
`sort.Slice` sorts two keys by insertion sort, which keeps ties in place. -/
theorem sortedKeys_tie_follows_iteration :
    writeReadTied.counts.entries.Perm readWriteTied.counts.entries ∧
      readWriteTied.sortedKeys (insertionSortSlice Bytes) = [ascii "read", ascii "write"] ∧
      writeReadTied.sortedKeys (insertionSortSlice Bytes) = [ascii "write", ascii "read"] :=
  ⟨List.Perm.swap _ _ _, by decide, by decide⟩

end Bpfstream
