import Bpfstream.Parser
import Bpfstream.Go.Sort
import Mathlib.Data.BitVec
import Mathlib.Algebra.BigOperators.Group.List
import Mathlib.Tactic.Abel

/-!
# The count pipelines

A `map` message carries one interval's counters as `{"@": {name: count, ...}}`.  `Fill` reads
them into a snapshot, `Add` adds a snapshot into the running total field by field, and `Total`
sums a snapshot's fields.  All arithmetic is Go's wrapping `int64` arithmetic.

`Event` (vfs), `ProcCountEvent` and `MemCountEvent` are records of int64 counters: they are
modelled as one counter record indexed by slot, each with its own table from member names to
slots, copied from its `Fill`.  `SyscallCountEvent` keeps a `map[string]int64`.
-/

namespace Bpfstream

/-! ## Counter records -/

/-- A snapshot of a domain with `n` int64 counters, by slot. -/
abbrev Counts (n : Nat) := Fin n → Word

namespace Counts

variable {n : Nat}

/-- The zero value of the record. -/
def zero : Counts n := fun _ => 0

/-- `Add`: `e.F += other.F` for every field `F`. -/
def add (e other : Counts n) : Counts n := fun i => e i + other i

/-- `Total`: the fields added in declaration order. -/
def total (e : Counts n) : Word := (List.finRange n).foldl (fun acc i => acc + e i) 0

/-- One member of the `@` object: the slot its name selects takes the value, and an unknown
name is skipped. -/
def set (slotOf : Bytes → Option (Fin n)) (e : Counts n) (name : Bytes) (v : Word) : Counts n :=
  match slotOf name with
  | some i => Function.update e i v
  | none => e

@[simp] theorem zero_apply (i : Fin n) : (zero : Counts n) i = 0 := rfl

@[simp] theorem add_apply (e other : Counts n) (i : Fin n) : add e other i = e i + other i := rfl

theorem add_comm (a b : Counts n) : add a b = add b a := funext fun _ => BitVec.add_comm _ _

theorem add_assoc (a b c : Counts n) : add (add a b) c = add a (add b c) :=
  funext fun _ => BitVec.add_assoc _ _ _

/-- A left fold adding `f` of every element is the sum of the `f` values. -/
theorem foldl_add_eq_sum {β : Type*} (f : β → Word) (a : Word) (l : List β) :
    l.foldl (fun acc x => acc + f x) a = a + (l.map f).sum := by
  induction l generalizing a with
  | nil => simp
  | cons x l ih => rw [List.foldl_cons, ih, List.map_cons, List.sum_cons, ← BitVec.add_assoc]

theorem total_eq_sum (e : Counts n) : total e = ((List.finRange n).map e).sum := by
  rw [total, foldl_add_eq_sum, zero_add]

theorem total_add (a b : Counts n) : total (add a b) = total a + total b := by
  rw [total_eq_sum, total_eq_sum, total_eq_sum, show add a b = fun i => a i + b i from rfl,
    List.sum_map_add]

@[simp] theorem total_zero : total (zero : Counts n) = 0 := by
  simp [total_eq_sum, show (zero : Counts n) = fun _ => 0 from rfl]

/-- Adding snapshots one after the other adds, in every slot, the sum of their values. -/
theorem foldl_add_apply (l : List (Counts n)) (e : Counts n) (i : Fin n) :
    l.foldl add e i = e i + (l.map (· i)).sum := by
  induction l generalizing e with
  | nil => simp
  | cons a l ih =>
    rw [List.foldl_cons, ih, add_apply, List.map_cons, List.sum_cons, BitVec.add_assoc]

theorem total_foldl_add (l : List (Counts n)) (e : Counts n) :
    total (l.foldl add e) = total e + (l.map total).sum := by
  induction l generalizing e with
  | nil => simp
  | cons a l ih =>
    rw [List.foldl_cons, ih, total_add, List.map_cons, List.sum_cons, BitVec.add_assoc]

end Counts

/-- The member loop of every `Fill`: `Iter.Int` on each member in order, members it rejects
skipped, the others handed to `set`. -/
def fillMembers (set : C → Bytes → Word → C) (c : C) (ms : List (Bytes × JsonValue)) : C :=
  ms.foldl (fun c m => match iterInt m.2 with
    | .ok v => set c m.1 v
    | .error _ => c) c

/-- `Fill(el)`: the members of the object under `@`, read into `c`. -/
def fillFrom (set : C → Bytes → Word → C) (c : C) (el : JsonValue) : Except GoError C :=
  match findElement el (ascii "@") with
  | .error e => .error (.wrap "failed to find '@' element" e)
  | .ok rootEl =>
    match objectElements rootEl with
    | .error e => .error (.wrap "failed to get object from '@' element" e)
    | .ok ms => .ok (fillMembers set c ms)

/-- What the member loop of a `Fill` in `file` logs: at `warnLine` a warning with the error for
each member `Iter.Int` rejects, and, where `unknown` gives a line and the names the `switch`
reads, a debug event there for each other member with a name it does not read. -/
def fillMembersLog (file : String) (warnLine : Nat) (unknown : Option (Nat × (Bytes → Bool)))
    (ms : List (Bytes × JsonValue)) : List LogEvent :=
  ms.flatMap fun m =>
    match iterInt m.2 with
    | .error e => [{ level := .warn, msg := "Failed to parse field as int, skipping", file := file,
                     line := warnLine, fields := [("field", .str m.1)], err := some e }]
    | .ok value =>
      match unknown with
      | some (line, known) =>
        if known m.1 then []
        else [{ level := .debug, msg := "Unknown field in map data", file := file, line := line,
                fields := [("field", .str m.1), ("value", .num value.toInt)] }]
      | none => []

/-- What `Fill(el)` logs: nothing when it fails before its member loop. -/
def fillLogFrom (file : String) (warnLine : Nat) (unknown : Option (Nat × (Bytes → Bool)))
    (el : JsonValue) : List LogEvent :=
  match findElement el (ascii "@") with
  | .error _ => []
  | .ok rootEl =>
    match objectElements rootEl with
    | .error _ => []
    | .ok ms => fillMembersLog file warnLine unknown ms

/-- `Event` of `cmd_vfs.go`, slots `Create, Open, Read, ReadLink, ReadV, Write, WriteV, FSync`. -/
abbrev Event := Counts 8

/-- The cases of the `switch m.Name` of `Event.Fill`: each name with the slot it sets. -/
def Event.fillCases : List (Bytes × Fin 8) :=
  [(ascii "vfs_create", 0), (ascii "vfs_open", 1), (ascii "vfs_read", 2),
    (ascii "vfs_readlink", 3), (ascii "vfs_readv", 4), (ascii "vfs_write", 5),
    (ascii "vfs_writev", 6), (ascii "vfs_fsync", 7)]

/-- `Event.Fill`. -/
def Event.fill (e : Event) (el : JsonValue) : Except GoError Event :=
  fillFrom (Counts.set Event.fillCases.lookup) e el

/-- What `Event.Fill` logs. -/
def Event.fillLog (el : JsonValue) : List LogEvent :=
  fillLogFrom "cmd_vfs.go" 267 (some (288, fun name => (Event.fillCases.lookup name).isSome)) el

/-- `ProcCountEvent`, slots `Exec, Fork, Exit, Clone`. -/
abbrev ProcCountEvent := Counts 4

/-- The cases of the `switch m.Name` of `ProcCountEvent.Fill`: two names for every slot but
`Clone`. -/
def ProcCountEvent.fillCases : List (Bytes × Fin 4) :=
  [(ascii "exec", 0), (ascii "sched_process_exec", 0), (ascii "fork", 1),
    (ascii "sched_process_fork", 1), (ascii "exit", 2), (ascii "sched_process_exit", 2),
    (ascii "clone", 3)]

/-- `ProcCountEvent.Fill`. -/
def ProcCountEvent.fill (e : ProcCountEvent) (el : JsonValue) : Except GoError ProcCountEvent :=
  fillFrom (Counts.set ProcCountEvent.fillCases.lookup) e el

/-- What `ProcCountEvent.Fill` logs. -/
def ProcCountEvent.fillLog (el : JsonValue) : List LogEvent :=
  fillLogFrom "cmd_proc.go" 74 (some (87, fun name => (ProcCountEvent.fillCases.lookup name).isSome))
    el

/-- `MemCountEvent`, slots `Mmap, Munmap, Brk, PageFault`. -/
abbrev MemCountEvent := Counts 4

/-- The cases of the `switch m.Name` of `MemCountEvent.Fill`: two names for every slot. -/
def MemCountEvent.fillCases : List (Bytes × Fin 4) :=
  [(ascii "mmap", 0), (ascii "do_mmap", 0), (ascii "munmap", 1), (ascii "do_munmap", 1),
    (ascii "brk", 2), (ascii "do_brk", 2), (ascii "page_fault", 3), (ascii "handle_mm_fault", 3)]

/-- `MemCountEvent.Fill`. -/
def MemCountEvent.fill (e : MemCountEvent) (el : JsonValue) : Except GoError MemCountEvent :=
  fillFrom (Counts.set MemCountEvent.fillCases.lookup) e el

/-- What `MemCountEvent.Fill` logs. -/
def MemCountEvent.fillLog (el : JsonValue) : List LogEvent :=
  fillLogFrom "cmd_mem.go" 74 (some (87, fun name => (MemCountEvent.fillCases.lookup name).isSome)) el

/-! ## `map[string]int64` -/

/-- `m[k] = v` on the entries of a map: the entry of `k` replaced, or a new one added. -/
def insertEntry (k : Bytes) (v : Word) : List (Bytes × Word) → List (Bytes × Word)
  | [] => [(k, v)]
  | (k', v') :: rest => if k' = k then (k, v) :: rest else (k', v') :: insertEntry k v rest

theorem insertEntry_keys (k : Bytes) (v : Word) (l : List (Bytes × Word)) :
    (insertEntry k v l).map Prod.fst =
      if k ∈ l.map Prod.fst then l.map Prod.fst else l.map Prod.fst ++ [k] := by
  induction l with
  | nil => simp [insertEntry]
  | cons p l ih =>
    obtain ⟨k', v'⟩ := p
    by_cases h : k' = k
    · subst h; simp [insertEntry]
    · simp only [insertEntry, if_neg h, List.map_cons, ih, List.mem_cons]
      by_cases hk : k ∈ l.map Prod.fst
      · simp [hk]
      · simp [hk, Ne.symm h]

theorem lookup_cons_ite {β : Type} (a k : Bytes) (b : β) (es : List (Bytes × β)) :
    ((k, b) :: es).lookup a = if a = k then some b else es.lookup a := by
  rw [List.lookup_cons]; split <;> simp_all

/-- With distinct keys, `lookup` finds exactly the pairs of the list. -/
theorem lookup_eq_some_iff_mem {β : Type} {l : List (Bytes × β)} (hl : (l.map Prod.fst).Nodup)
    (k : Bytes) (v : β) : l.lookup k = some v ↔ (k, v) ∈ l := by
  induction l with
  | nil => simp
  | cons p l ih =>
    obtain ⟨k₀, v₀⟩ := p
    simp only [List.map_cons, List.nodup_cons] at hl
    rw [lookup_cons_ite, List.mem_cons, ← ih hl.2]
    by_cases hk : k = k₀
    · subst hk
      have : l.lookup k = none := by
        simp only [List.lookup_eq_none_iff, bne_iff_ne, ne_eq]
        exact fun p hp h => hl.1 (h ▸ List.mem_map_of_mem Prod.fst hp)
      simp [this, eq_comm]
    · simp [hk]

/-- With distinct keys, `lookup` does not depend on the order of the pairs. -/
theorem lookup_eq_of_perm {β : Type} {l l' : List (Bytes × β)} (hp : l.Perm l')
    (hl : (l.map Prod.fst).Nodup) (k : Bytes) : l.lookup k = l'.lookup k :=
  Option.ext fun v => by
    rw [Option.mem_def, Option.mem_def, lookup_eq_some_iff_mem hl,
      lookup_eq_some_iff_mem ((hp.map Prod.fst).nodup_iff.mp hl), hp.mem_iff]

/-- A Go `map[string]int64`: its entries in one iteration order, the keys distinct.  Go iterates
a map in an unspecified order: any permutation of the entries is the same map. -/
structure CountMap where
  entries : List (Bytes × Word)
  nodup : (entries.map Prod.fst).Nodup

namespace CountMap

/-- The empty map. -/
def empty : CountMap := ⟨[], List.nodup_nil⟩

/-- `v, ok := m[k]`. -/
def get? (m : CountMap) (k : Bytes) : Option Word := m.entries.lookup k

/-- `m[k]`, zero when absent. -/
def get (m : CountMap) (k : Bytes) : Word := (m.get? k).getD 0

@[simp] theorem get?_empty (k : Bytes) : empty.get? k = none := rfl

/-- Iterating the same map in another order finds the same values. -/
theorem get?_eq_of_perm {m m' : CountMap} (h : m.entries.Perm m'.entries) (k : Bytes) :
    m.get? k = m'.get? k :=
  lookup_eq_of_perm h m.nodup k

/-- A key's value and whether it is present say what `m[k]` returns with its `ok`. -/
theorem get?_eq_of_get {m m' : CountMap} {k : Bytes}
    (hs : (m.get? k).isSome ↔ (m'.get? k).isSome) (hv : m.get k = m'.get k) :
    m.get? k = m'.get? k := by
  unfold get at hv
  cases h : m.get? k <;> cases h' : m'.get? k <;> simp_all

/-- `m[k] = v`. -/
def insert (m : CountMap) (k : Bytes) (v : Word) : CountMap where
  entries := insertEntry k v m.entries
  nodup := by
    rw [insertEntry_keys]
    split
    · exact m.nodup
    · exact List.nodup_append.mpr ⟨m.nodup, List.nodup_singleton k, List.disjoint_singleton.mpr ‹_›⟩

/-- The sum of the values, the value `Total` computes in any iteration order. -/
def sum (m : CountMap) : Word := (m.entries.map Prod.snd).sum

theorem lookup_insertEntry (k k' : Bytes) (v : Word) (l : List (Bytes × Word)) :
    (insertEntry k v l).lookup k' = if k' = k then some v else l.lookup k' := by
  induction l with
  | nil => simp [insertEntry, lookup_cons_ite]
  | cons p l ih =>
    obtain ⟨k₀, v₀⟩ := p
    by_cases h0 : k₀ = k
    · subst h0; by_cases h : k' = k₀ <;> simp [insertEntry, lookup_cons_ite, h]
    · simp only [insertEntry, if_neg h0, lookup_cons_ite, ih]
      by_cases hk : k' = k
      · subst hk; simp [Ne.symm h0]
      · simp [hk]

@[simp] theorem get?_insert (m : CountMap) (k k' : Bytes) (v : Word) :
    (m.insert k v).get? k' = if k' = k then some v else m.get? k' :=
  lookup_insertEntry k k' v m.entries

theorem sum_insertEntry (k : Bytes) (v : Word) (l : List (Bytes × Word)) :
    ((insertEntry k ((l.lookup k).getD 0 + v) l).map Prod.snd).sum = (l.map Prod.snd).sum + v := by
  induction l with
  | nil => simp [insertEntry]
  | cons p l ih =>
    obtain ⟨k₀, v₀⟩ := p
    by_cases h0 : k₀ = k
    · subst h0; simp [insertEntry, lookup_cons_ite]; abel
    · rw [lookup_cons_ite, if_neg (Ne.symm h0)]
      simp only [insertEntry, if_neg h0, List.map_cons, List.sum_cons, ih]; abel

/-- `m[k] += v` adds `v` to the sum of the values. -/
theorem sum_insert_add (m : CountMap) (k : Bytes) (v : Word) :
    (m.insert k (m.get k + v)).sum = m.sum + v :=
  sum_insertEntry k v m.entries

end CountMap

/-- `SyscallCountEvent`. -/
structure SyscallCountEvent where
  counts : CountMap := CountMap.empty

namespace SyscallCountEvent

/-- `Add`: `e.Counts[k] += v` for every entry of `other.Counts`. -/
def add (e other : SyscallCountEvent) : SyscallCountEvent :=
  ⟨other.counts.entries.foldl (fun m kv => m.insert kv.1 (m.get kv.1 + kv.2)) e.counts⟩

/-- `Total`: the values added in iteration order. -/
def total (e : SyscallCountEvent) : Word := e.counts.entries.foldl (fun acc kv => acc + kv.2) 0

/-- `Fill`: `e.Counts[m.Name] = value` for every member `Iter.Int` accepts. -/
def fill (e : SyscallCountEvent) (el : JsonValue) : Except GoError SyscallCountEvent :=
  (fillFrom (fun m name v => m.insert name v) e.counts el).map (⟨·⟩)

/-- What `Fill` logs: its `switch` has no `default` case, so only members `Iter.Int` rejects. -/
def fillLog (el : JsonValue) : List LogEvent := fillLogFrom "cmd_syscall.go" 80 none el

/-- The fold of `Add` over entries with distinct keys: each key's value added once. -/
theorem get?_foldl_insert (l : List (Bytes × Word)) (hl : (l.map Prod.fst).Nodup)
    (m : CountMap) (k : Bytes) :
    (l.foldl (fun m kv => m.insert kv.1 (m.get kv.1 + kv.2)) m).get? k =
      match l.lookup k with
      | none => m.get? k
      | some v => some (m.get k + v) := by
  induction l generalizing m with
  | nil => rfl
  | cons p l ih =>
    obtain ⟨k₀, v₀⟩ := p
    simp only [List.map_cons, List.nodup_cons] at hl
    rw [List.foldl_cons, ih hl.2]
    by_cases hk : k = k₀
    · subst hk
      have : l.lookup k = none := by
        simp only [List.lookup_eq_none_iff, bne_iff_ne, ne_eq]
        exact fun p hp h => hl.1 (h ▸ List.mem_map_of_mem Prod.fst hp)
      simp [this, lookup_cons_ite, CountMap.get]
    · simp [lookup_cons_ite, hk, CountMap.get]

theorem get?_add (e o : SyscallCountEvent) (k : Bytes) :
    (e.add o).counts.get? k =
      match o.counts.get? k with
      | none => e.counts.get? k
      | some v => some (e.counts.get k + v) :=
  get?_foldl_insert o.counts.entries o.counts.nodup e.counts k

theorem get_add (e o : SyscallCountEvent) (k : Bytes) :
    (e.add o).counts.get k = e.counts.get k + o.counts.get k := by
  rw [CountMap.get, get?_add]
  cases h : o.counts.get? k <;> simp [CountMap.get, h]

theorem isSome_get?_add (e o : SyscallCountEvent) (k : Bytes) :
    ((e.add o).counts.get? k).isSome ↔ (e.counts.get? k).isSome ∨ (o.counts.get? k).isSome := by
  rw [get?_add]
  cases o.counts.get? k <;> simp

theorem get_foldl_add (l : List SyscallCountEvent) (e : SyscallCountEvent) (k : Bytes) :
    (l.foldl add e).counts.get k = e.counts.get k + (l.map (·.counts.get k)).sum := by
  induction l generalizing e with
  | nil => simp
  | cons a l ih =>
    rw [List.foldl_cons, ih, get_add, List.map_cons, List.sum_cons, BitVec.add_assoc]

theorem isSome_get?_foldl_add (l : List SyscallCountEvent) (e : SyscallCountEvent) (k : Bytes) :
    ((l.foldl add e).counts.get? k).isSome ↔
      (e.counts.get? k).isSome ∨ ∃ s ∈ l, (s.counts.get? k).isSome := by
  induction l generalizing e with
  | nil => simp
  | cons a l ih => simp [ih, isSome_get?_add, or_assoc]

theorem total_eq_sum (e : SyscallCountEvent) : e.total = e.counts.sum := by
  rw [total, CountMap.sum, Counts.foldl_add_eq_sum, zero_add]

theorem total_add (e o : SyscallCountEvent) : (e.add o).total = e.total + o.total := by
  have key : ∀ (l : List (Bytes × Word)) (m : CountMap),
      (l.foldl (fun m kv => m.insert kv.1 (m.get kv.1 + kv.2)) m).sum =
        m.sum + (l.map Prod.snd).sum := by
    intro l
    induction l with
    | nil => simp
    | cons p l ih =>
      intro m
      rw [List.foldl_cons, ih, CountMap.sum_insert_add, List.map_cons, List.sum_cons,
        BitVec.add_assoc]
  rw [total_eq_sum, total_eq_sum, total_eq_sum, add, key]; rfl

theorem total_foldl_add (l : List SyscallCountEvent) (e : SyscallCountEvent) :
    (l.foldl add e).total = e.total + (l.map total).sum := by
  induction l generalizing e with
  | nil => simp
  | cons a l ih =>
    rw [List.foldl_cons, ih, total_add, List.map_cons, List.sum_cons, BitVec.add_assoc]

@[simp] theorem total_empty : ({} : SyscallCountEvent).total = 0 := rfl

end SyscallCountEvent

/-! ## `SortedKeys` and `printSyscallEvent` -/

/-- The `less` of `SortedKeys`: `e.Counts[keys[i]] > e.Counts[keys[j]]` on int64. -/
def SyscallCountEvent.countGreater (e : SyscallCountEvent) (a b : Bytes) : Bool :=
  (e.counts.get b).slt (e.counts.get a)

/-- `SortedKeys()`: the keys in the map's iteration order, sorted by `sort.Slice` on their
counts, largest first. -/
def SyscallCountEvent.sortedKeys (sort : SliceSort Bytes) (e : SyscallCountEvent) : List Bytes :=
  sort.sort e.countGreater (e.counts.entries.map Prod.fst)

/-- The records `printSyscallEvent` hands to the `csv.Writer` for the `csv` format. -/
def printSyscallCsv (sort : SliceSort Bytes) (e : SyscallCountEvent) : List (List Bytes) :=
  [ascii "Syscall", ascii "Count"] ::
    (e.sortedKeys sort).map (fun name => [name, formatInt (e.counts.get name).toInt]) ++
    [[ascii "total", formatInt e.total.toInt]]

/-- The lines `printSyscallEvent` writes into the `tabwriter` for the table format. -/
def printSyscallTable (sort : SliceSort Bytes) (e : SyscallCountEvent) (intervalCount : Nat) :
    List Bytes :=
  [ascii "Syscall\tCount", ascii "-------\t-----"] ++
    (e.sortedKeys sort).map (fun name => name ++ ascii "\t" ++ formatInt (e.counts.get name).toInt) ++
    [ascii "-------\t-----", ascii "Total\t" ++ formatInt e.total.toInt,
      ascii "Intervals\t" ++ formatInt intervalCount]

/-! ## The pipelines -/

/-- The `map` case shared by the count handlers: fill a fresh event from the data, count the
interval and add the event to the total. -/
def countMap (fill : C → JsonValue → Except GoError C) (zero : C) (add : C → C → C)
    (st : C × Nat) (dataEl : JsonValue) : (C × Nat) × Ret :=
  match fill zero dataEl with
  | .error e => (st, .err (.wrap "failed to fill event from map data" e))
  | .ok ev => ((add st.1 ev, st.2 + 1), .ok)

/-- The handler of `procCountCmd`, `memCountCmd` and `syscallCountCmd`: `map` is counted, every
other type skipped with a warning. -/
def countHandler (fill : C → JsonValue → Except GoError C) (zero : C) (add : C → C → C) :
    MessageHandler (C × Nat) := fun st typeStr dataEl =>
  if typeStr = ascii "map" then countMap fill zero add st dataEl else (st, .ok)

/-- The `ParseStream` call of a count command's `Action`: a fresh parser and the handler over the
locals `totalEvent` and `intervalCount`; the two locals afterwards and the error returned. -/
def countParseStream (fill : C → JsonValue → Except GoError C) (zero : C) (add : C → C → C)
    (chunks : List Bytes) (final : GoError) : (C × Nat) × Ret :=
  let ((_, st), r) := NDJSONParser.parseStream {} chunks final (countHandler fill zero add) (zero, 0)
  (st, r)

/-- `procCountCmd`'s action from the parse on. -/
def procCountCmd (chunks : List Bytes) (final : GoError) : (ProcCountEvent × Nat) × Ret :=
  countParseStream ProcCountEvent.fill Counts.zero Counts.add chunks final

/-- `memCountCmd`'s action from the parse on. -/
def memCountCmd (chunks : List Bytes) (final : GoError) : (MemCountEvent × Nat) × Ret :=
  countParseStream MemCountEvent.fill Counts.zero Counts.add chunks final

/-- `syscallCountCmd`'s action from the parse on, `totalEvent` starting as
`NewSyscallCountEvent()`. -/
def syscallCountCmd (chunks : List Bytes) (final : GoError) : (SyscallCountEvent × Nat) × Ret :=
  countParseStream SyscallCountEvent.fill {} SyscallCountEvent.add chunks final

/-- The `ForEach` callback inlined in `vfsCountCmd`, on the local `startTime`, `totalEvent` and
`intervalCount`.  Its `switch` has no `lost_events` case. -/
def vfsCountOnDoc : GoTime × Event × Nat → JsonValue → (GoTime × Event × Nat) × Ret
  | (t, total, n), doc =>
    match readEnvelope doc with
    | .error e => ((t, total, n), .err e)
    | .ok (typeStr, dataEl) =>
      if typeStr = ascii "attached_probes" then
        ((t, total, n), NDJSONParser.handleAttachedProbes dataEl)
      else if typeStr = ascii "time" then
        let (t', r) := NDJSONParser.handleTime t dataEl
        ((t', total, n), r)
      else if typeStr = ascii "map" then
        let (st, r) := countMap Event.fill Counts.zero Counts.add (total, n) dataEl
        ((t, st), r)
      else ((t, total, n), .ok)

/-- `vfsCountCmd`'s action from the parse on: the locals `startTime`, `totalEvent` and
`intervalCount` after the `range res` loop, and the error it returns. -/
def vfsCountCmd (chunks : List Bytes) (final : GoError) : (GoTime × Event × Nat) × Ret :=
  rangeStreams vfsCountOnDoc (GoTime.zero, Counts.zero, 0) (parseNDStream chunks final)

end Bpfstream
