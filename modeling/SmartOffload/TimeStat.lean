import SmartOffload.Lib.SharedMemory

/-!
# `time_stat`: statistics of a sample array

`smto_utils.c`.  `time_stat` adds up the samples, has two threads heap-sort one half of the
array each, waits for both at a barrier, merges the halves in passes of doubling gap, and
reports figures by their index.

The array is a function of the index, so that an index out of bounds can be seen; the two
sorting threads share it, one read or write at a time (`TimeProgram`).  An `int` is an
integer, and every result of `int` arithmetic is shown; overflow of an `int` is undefined in C,
so the program is stuck after a result that is no `int` (`arith`).  Indices such as
`i + turn * block_length` are of type `long` in the source and stay exact.
The mutex of `heap_sort` is locked and unlocked around nothing, so it is left out, and with
it some orders of steps are ruled out that are considered here.
-/

namespace SmartOffload

/-- What a step of `time_stat` shows beside its accesses to the array. -/
inductive TimeObs where
  /-- The exact result of an `int` operation. -/
  | int (x : ℤ)
  /-- An access to the buffer of `merge`, which has so many elements. -/
  | buffer (k length : ℤ)
  deriving DecidableEq, Repr

/-- The array, at every index. -/
abbrev Samples := ℤ → UInt64

/-- A program over the array. -/
abbrev TimeProgram := MemProg ℤ UInt64 TimeObs

open MemProg (load store tell loop)

/-- The values of an `int`. -/
def IsInt (x : ℤ) : Prop := -2147483648 ≤ x ∧ x ≤ 2147483647

instance (x : ℤ) : Decidable (IsInt x) := inferInstanceAs (Decidable (_ ∧ _))

/-- An `int` operation with this exact result. -/
def arith (x : ℤ) : TimeProgram ℤ := do
  tell (.int x)
  -- nothing is defined after an overflow
  if IsInt x then pure x else .stuck

/-- `TURN`: the number of sorting threads. -/
def turnQuantity : ℤ := 2

/-! ### `adjust` and `heap_sort` -/

/-- `parent * 2 + 1` -/
def leftChild (parent : ℤ) : TimeProgram ℤ := do
  let doubled ← arith (parent * 2)
  arith (doubled + 1)

/-- The child of `adjust`: the left one, or the right one if there is one and it is greater. -/
def chooseChild (blockLength n turn child : ℤ) : TimeProgram ℤ := do
  let last ← arith (n - 1)
  if child ≠ last then
    let left ← load (child + turn * blockLength)
    let right ← load (child + turn * blockLength + 1)
    if left < right then arith (child + 1) else pure child
  else pure child

/-- One round of the loop of `adjust`. -/
def adjustStep (blockLength n turn : ℤ) (temp : UInt64) (parent : ℤ) :
    TimeProgram (ℤ ⊕ ℤ) := do
  let left ← leftChild parent
  let last ← arith (n - 1)
  if left ≤ last then
    let child ← leftChild parent
    let child ← chooseChild blockLength n turn child
    let value ← load (child + turn * blockLength)
    if temp ≥ value then pure (.inr parent)
    else
      let value ← load (child + turn * blockLength)
      store (parent + turn * blockLength) value
      pure (.inl child)
  else pure (.inr parent)

/-- `adjust` -/
def adjust (rounds : ℕ) (blockLength i n turn : ℤ) : TimeProgram Unit := do
  let temp ← load (i + turn * blockLength)
  let parent ← loop (adjustStep blockLength n turn temp) rounds i
  store (parent + turn * blockLength) temp

/-- One round of the first loop of `heap_sort`. -/
def buildStep (rounds : ℕ) (blockLength turn i : ℤ) : TimeProgram (ℤ ⊕ Unit) := do
  if i ≥ 0 then
    adjust rounds blockLength i blockLength turn
    let i ← arith (i - 1)
    pure (.inl i)
  else pure (.inr ())

/-- One round of the second loop of `heap_sort`. -/
def selectStep (rounds : ℕ) (blockLength turn j : ℤ) : TimeProgram (ℤ ⊕ Unit) := do
  if j > 0 then
    let temp ← load (0 + turn * blockLength)
    let last ← load (j + turn * blockLength)
    store (0 + turn * blockLength) last
    store (j + turn * blockLength) temp
    adjust rounds blockLength 0 j turn
    let j ← arith (j - 1)
    pure (.inl j)
  else pure (.inr ())

/-- `heap_sort`, the body of one thread. -/
def heapSort (rounds : ℕ) (blockLength turn : ℤ) : TimeProgram Unit := do
  let last ← arith (blockLength - 2)
  let i ← arith (last.tdiv 2)
  loop (buildStep rounds blockLength turn) rounds i
  let j ← arith (blockLength - 1)
  loop (selectStep rounds blockLength turn) rounds j

/-! ### `merge` -/

/-- The locals of `merge`: the buffer, and one index for it and for each run. -/
structure Merging where
  a : Samples
  k : ℤ
  i : ℤ
  j : ℤ

/-- `a[k] = nums[i]; k++; i++;` -/
def takeLeft (length : ℤ) (s : Merging) : TimeProgram Merging := do
  let value ← load s.i
  tell (.buffer s.k length)
  let k ← arith (s.k + 1)
  let i ← arith (s.i + 1)
  pure { s with a := Function.update s.a s.k value, k := k, i := i }

/-- `a[k] = nums[j]; k++; j++;` -/
def takeRight (length : ℤ) (s : Merging) : TimeProgram Merging := do
  let value ← load s.j
  tell (.buffer s.k length)
  let k ← arith (s.k + 1)
  let j ← arith (s.j + 1)
  pure { s with a := Function.update s.a s.k value, k := k, j := j }

/-- While both runs have elements. -/
def mergeStep (start2 stop length : ℤ) (s : Merging) : TimeProgram (Merging ⊕ Merging) := do
  let last ← arith (start2 - 1)
  if s.i ≤ last ∧ s.j ≤ stop then
    let left ← load s.i
    let right ← load s.j
    if left ≤ right then
      let s ← takeLeft length s
      pure (.inl s)
    else
      let s ← takeRight length s
      pure (.inl s)
  else pure (.inr s)

/-- The rest of the first run. -/
def leftStep (start2 length : ℤ) (s : Merging) : TimeProgram (Merging ⊕ Merging) := do
  let last ← arith (start2 - 1)
  if s.i ≤ last then
    let s ← takeLeft length s
    pure (.inl s)
  else pure (.inr s)

/-- The rest of the second run. -/
def rightStep (stop length : ℤ) (s : Merging) : TimeProgram (Merging ⊕ Merging) := do
  if s.j ≤ stop then
    let s ← takeRight length s
    pure (.inl s)
  else pure (.inr s)

/-- `for (i = start1, k = 0; i <= end; i++, k++) nums[i] = a[k];` -/
def copyStep (stop length : ℤ) (a : Samples) (ik : ℤ × ℤ) : TimeProgram ((ℤ × ℤ) ⊕ Unit) := do
  if ik.1 ≤ stop then
    tell (.buffer ik.2 length)
    store ik.1 (a ik.2)
    let i ← arith (ik.1 + 1)
    let k ← arith (ik.2 + 1)
    pure (.inl (i, k))
  else pure (.inr ())

/-- `merge`; its buffer is allocated zeroed. -/
def merge (rounds : ℕ) (start1 start2 stop : ℤ) : TimeProgram Unit := do
  let span ← arith (stop - start1)
  let length ← arith (span + 1)
  let s ← loop (mergeStep start2 stop length) rounds ⟨fun _ => 0, 0, start1, start2⟩
  let s ← loop (leftStep start2 length) rounds s
  let s ← loop (rightStep stop length) rounds s
  loop (copyStep stop length s.a) rounds (start1, 0)

/-! ### The passes of `time_stat` -/

/-- `i + gap * 2 - 1` -/
def pairEnd (gap i : ℤ) : TimeProgram ℤ := do
  let twice ← arith (gap * 2)
  let next ← arith (i + twice)
  arith (next - 1)

/-- One round of the inner loop: merge a pair of runs. -/
def pairStep (rounds : ℕ) (length gap i : ℤ) : TimeProgram (ℤ ⊕ ℤ) := do
  let stop ← pairEnd gap i
  if stop < length then
    let start2 ← arith (i + gap)
    let stop ← pairEnd gap i
    merge rounds i start2 stop
    let twice ← arith (gap * 2)
    let i ← arith (i + twice)
    pure (.inl i)
  else pure (.inr i)

/-- One pass: the pairs of runs, then a run that has only part of a partner. -/
def mergePass (rounds : ℕ) (length gap : ℤ) : TimeProgram Unit := do
  let i ← loop (pairStep rounds length gap) rounds 0
  let start2 ← arith (i + gap)
  if start2 < length then
    let start2 ← arith (i + gap)
    let stop ← arith (length - 1)
    merge rounds i start2 stop
  else pure ()

/-- One round of the outer loop: a pass, then the gap is doubled. -/
def gapStep (rounds : ℕ) (length gap : ℤ) : TimeProgram (ℤ ⊕ Unit) := do
  if gap < length ∧ gap ≠ 0 then
    mergePass rounds length gap
    let gap ← arith (gap * 2)
    pure (.inl gap)
  else pure (.inr ())

/-- The merge loop of `time_stat`. -/
def mergePasses (rounds : ℕ) (length : ℤ) : TimeProgram Unit := do
  let gap ← arith (length.tdiv turnQuantity)
  loop (gapStep rounds length) rounds gap

/-! ### The beginning and the end of `time_stat` -/

/-- One round of the loop that adds up the samples. -/
def sumStep (size : ℤ) (js : ℤ × UInt64) : TimeProgram ((ℤ × UInt64) ⊕ UInt64) := do
  if js.1 < size then
    let sample ← load js.1
    let j ← arith (js.1 + 1)
    pure (.inl (j, js.2 + sample))
  else pure (.inr js.2)

/-- Up to the creation of the threads: the sum, and `block_length`. -/
def prepare (rounds : ℕ) (size : ℤ) : TimeProgram (UInt64 × ℤ) := do
  let sum ← loop (sumStep size) rounds (0, 0)
  let blockLength ← arith (size.tdiv turnQuantity)
  pure (sum, blockLength)

/-- A `uint64_t` as `%ld` prints it. -/
def printLong (x : UInt64) : ℤ := x.toInt64.toInt

/-- The figures of the log message. -/
structure Figures where
  min : ℤ
  p50 : ℤ
  p90 : ℤ
  p99 : ℤ
  max : ℤ
  avg : ℤ
  deriving DecidableEq, Repr

/-- The log message of `time_stat`. -/
def report (size : ℤ) (sum : UInt64) : TimeProgram Figures := do
  let min ← load 0
  let half ← arith (size.tdiv 2)
  let p50 ← load half
  let product ← arith (size * 4)
  let index ← arith (product.tdiv 5)
  let p90 ← load index
  let product ← arith (size * 99)
  let index ← arith (product.tdiv 100)
  let p99 ← load index
  let last ← arith (size - 1)
  let max ← load last
  let avg := sum / UInt64.ofNat size.toNat
  pure ⟨printLong min, printLong p50, printLong p90, printLong p99, printLong max,
    printLong avg⟩

/-! ### The threads of `time_stat` -/

/-- Where `time_stat` is. -/
inductive Stage where
  /-- Before the threads are created. -/
  | preparing (p : TimeProgram (UInt64 × ℤ))
  /-- The threads run, and the caller waits at the barrier. -/
  | sorting (sum : UInt64) (threads : Fin 2 → TimeProgram Unit)
  /-- Past the barrier: the merge loop. -/
  | merging (sum : UInt64) (p : TimeProgram Unit)
  /-- After the merge loop. -/
  | reporting (p : TimeProgram Figures)

/-- Whose step it is. -/
inductive TimeEvent where
  | caller
  | sorter (turn : Fin 2)
  deriving DecidableEq, Repr

/-- The caller, running a program of its own. -/
def callerStep {α : Type} (p : TimeProgram α) (nums : Samples)
    (stage : TimeProgram α → Stage) :
    Option ((Stage × Samples) × List (MemObs ℤ TimeObs)) :=
  (p.step nums).map fun (p', nums', o) => ((stage p', nums'), [o])

/-- **One step of `time_stat`**, by the caller or by a sorting thread. -/
def timeStatStep (rounds : ℕ) (size : ℤ) :
    Stage × Samples → TimeEvent → Option ((Stage × Samples) × List (MemObs ℤ TimeObs))
  | (.preparing (.pure (sum, blockLength)), nums), .caller =>
      some ((.sorting sum fun turn => heapSort rounds blockLength turn.val, nums), [])
  | (.preparing p, nums), .caller => callerStep p nums .preparing
  | (.sorting sum threads, nums), .sorter turn =>
      (MemProg.stepThread threads nums turn).map fun (threads', nums', o) =>
        ((.sorting sum threads', nums'), [o])
  | (.sorting sum threads, nums), .caller =>
      -- the barrier opens when both threads have reached it
      match threads 0, threads 1 with
      | .pure _, .pure _ => some ((.merging sum (mergePasses rounds size), nums), [])
      | _, _ => none
  | (.merging sum (.pure _), nums), .caller => some ((.reporting (report size sum), nums), [])
  | (.merging sum p, nums), .caller => callerStep p nums (.merging sum)
  | (.reporting p, nums), .caller => callerStep p nums .reporting
  | _, _ => none

/-- **`time_stat`** on any array, where every loop has so many rounds to go. -/
def timeStatMachine (rounds : ℕ) (size : ℤ) :
    Machine (Stage × Samples) TimeEvent (MemObs ℤ TimeObs) where
  Init s := s.1 = .preparing (prepare rounds size)
  step := timeStatStep rounds size

end SmartOffload
