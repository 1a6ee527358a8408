import Mathlib.Data.List.Basic
import Mathlib.Data.List.Nodup
import Mathlib.Logic.Function.Basic

/-!
# Slim reader/writer locks

A lock is held by one writer or by any number of readers.  Acquisition is
partial: it is refused, so the thread stays blocked, while the lock is held in
a conflicting mode.
-/

namespace PahoClient.Sync

universe u

/-- The holders of a reader/writer lock. -/
structure RWLock (θ : Type u) where
  writer : Option θ
  readers : List θ
  deriving Repr

namespace RWLock

variable {θ : Type u}

/-- The lock nobody holds. -/
def free : RWLock θ :=
  ⟨none, []⟩

/-- Exclusive acquisition waits for the writer and for every reader. -/
def acquireExclusive (lock : RWLock θ) (thread : θ) : Option (RWLock θ) :=
  if lock.writer.isNone && lock.readers.isEmpty then
    some ⟨some thread, []⟩
  else
    none

/-- Shared acquisition waits for the writer only. -/
def acquireShared (lock : RWLock θ) (thread : θ) : Option (RWLock θ) :=
  if lock.writer.isNone then
    some ⟨none, thread :: lock.readers⟩
  else
    none

/-- While a thread holds the lock exclusively every acquisition is refused. -/
theorem acquire_of_writer {lock : RWLock θ} {holder : θ} (held : lock.writer = some holder)
    (thread : θ) : lock.acquireShared thread = none ∧ lock.acquireExclusive thread = none := by
  simp [acquireShared, acquireExclusive, held]

def releaseExclusive (lock : RWLock θ) : RWLock θ :=
  ⟨none, lock.readers⟩

def releaseShared [DecidableEq θ] (lock : RWLock θ) (thread : θ) : RWLock θ :=
  ⟨lock.writer, lock.readers.erase thread⟩

/-! ## Critical sections -/

/-- The holders of the lock are the threads inside the two kinds of critical
section that it guards. -/
structure Guards (lock : RWLock θ) (writes reads : θ → Bool) : Prop where
  writer : ∀ thread, lock.writer = some thread ↔ writes thread = true
  readers : ∀ thread, thread ∈ lock.readers ↔ reads thread = true
  nodup : lock.readers.Nodup

theorem guards_free : (free : RWLock θ).Guards (fun _ => false) (fun _ => false) where
  writer _ := by simp [free]
  readers _ := by simp [free]
  nodup := List.nodup_nil

/-- At most one thread is in an exclusive section. -/
theorem Guards.unique {lock : RWLock θ} {writes reads : θ → Bool}
    (guards : lock.Guards writes reads) {first second : θ} (firstWrites : writes first = true)
    (secondWrites : writes second = true) : first = second := by
  have firstHolds := (guards.writer first).mpr firstWrites
  have secondHolds := (guards.writer second).mpr secondWrites
  exact Option.some.inj (firstHolds.symm.trans secondHolds)

/-- A writer excludes the readers. -/
def Exclusive (lock : RWLock θ) : Prop :=
  lock.writer ≠ none → lock.readers = []

theorem exclusive_free : (free : RWLock θ).Exclusive :=
  fun held => absurd rfl held

/-- While a thread is in an exclusive section, no thread is in a shared one. -/
theorem Guards.apart {lock : RWLock θ} {writes reads : θ → Bool}
    (guards : lock.Guards writes reads) (exclusive : lock.Exclusive) {first second : θ}
    (firstWrites : writes first = true) : reads second = false := by
  have held : lock.writer ≠ Option.none := by
    rw [(guards.writer first).mpr firstWrites]
    simp
  rw [← Bool.not_eq_true, ← guards.readers second, exclusive held]
  exact List.not_mem_nil

section Sections

variable [DecidableEq θ] {lock lock' : RWLock θ} {writes reads : θ → Bool} {thread : θ}

theorem Guards.acquireExclusive (guards : lock.Guards writes reads)
    (acquired : lock.acquireExclusive thread = some lock') :
    lock'.Guards (Function.update writes thread true) reads := by
  unfold RWLock.acquireExclusive at acquired
  split at acquired
  · rename_i unlocked
    cases acquired
    obtain ⟨noWriter, noReaders⟩ : lock.writer = none ∧ lock.readers = [] := by
      simpa using unlocked
    constructor
    · intro other
      by_cases same : other = thread
      · simp [same]
      · have outside := guards.writer other
        rw [noWriter] at outside
        simpa [same, Ne.symm same] using outside
    · intro other
      rw [← guards.readers other, noReaders]
    · exact List.nodup_nil
  · cases acquired

theorem Guards.releaseExclusive (guards : lock.Guards writes reads)
    (inside : writes thread = true) :
    lock.releaseExclusive.Guards (Function.update writes thread false) reads where
  writer other := by
    by_cases same : other = thread
    · simp [same, RWLock.releaseExclusive]
    · have outside : writes other ≠ true := fun writesOther =>
        same (guards.unique writesOther inside)
      simp [same, RWLock.releaseExclusive, outside]
  readers := guards.readers
  nodup := guards.nodup

theorem Guards.acquireShared (guards : lock.Guards writes reads)
    (acquired : lock.acquireShared thread = some lock') (outside : reads thread = false) :
    lock'.Guards writes (Function.update reads thread true) := by
  unfold RWLock.acquireShared at acquired
  split at acquired
  · rename_i noWriter
    cases acquired
    constructor
    · intro other
      rw [← guards.writer other, Option.isNone_iff_eq_none.mp noWriter]
    · intro other
      by_cases same : other = thread
      · simp [same]
      · simpa [same] using guards.readers other
    · apply List.nodup_cons.mpr
      constructor
      · intro member
        rw [guards.readers thread, outside] at member
        cases member
      · exact guards.nodup
  · cases acquired

theorem Guards.releaseShared (guards : lock.Guards writes reads) :
    (lock.releaseShared thread).Guards writes (Function.update reads thread false) where
  writer := guards.writer
  readers other := by
    rw [RWLock.releaseShared, guards.nodup.mem_erase_iff, guards.readers other]
    by_cases same : other = thread <;> simp [same]
  nodup := guards.nodup.erase thread

/-- What one statement of a thread does to a lock, given whether the thread is
inside each kind of section before and after it. -/
inductive Use (thread : θ) (lock lock' : RWLock θ) :
    (writes writes' reads reads' : Bool) → Prop
  | none {writes reads : Bool} (same : lock' = lock) :
      Use thread lock lock' writes writes reads reads
  | acquireExclusive {writes reads : Bool}
      (acquired : lock.acquireExclusive thread = some lock') :
      Use thread lock lock' writes true reads reads
  | releaseExclusive {reads : Bool} (released : lock' = lock.releaseExclusive) :
      Use thread lock lock' true false reads reads
  | acquireShared {writes : Bool} (acquired : lock.acquireShared thread = some lock') :
      Use thread lock lock' writes writes false true
  | releaseShared {writes reads : Bool} (released : lock' = lock.releaseShared thread) :
      Use thread lock lock' writes writes reads false

/-- A statement that uses the lock keeps the sections guarded. -/
theorem Guards.use (guards : lock.Guards writes reads) {writes' reads' : Bool}
    (used : Use thread lock lock' (writes thread) writes' (reads thread) reads') :
    lock'.Guards (Function.update writes thread writes')
      (Function.update reads thread reads') := by
  generalize writesEq : writes thread = before at used
  generalize readsEq : reads thread = beforeReads at used
  cases used with
  | none same =>
      rw [same, ← writesEq, ← readsEq, Function.update_eq_self, Function.update_eq_self]
      exact guards
  | acquireExclusive acquired =>
      rw [← readsEq, Function.update_eq_self]
      exact guards.acquireExclusive acquired
  | releaseExclusive released =>
      rw [released, ← readsEq, Function.update_eq_self]
      exact guards.releaseExclusive writesEq
  | acquireShared acquired =>
      rw [← writesEq, Function.update_eq_self]
      exact guards.acquireShared acquired readsEq
  | releaseShared released =>
      rw [released, ← writesEq, Function.update_eq_self]
      exact guards.releaseShared

/-- Whatever a thread does with the lock, a writer excludes the readers. -/
theorem Exclusive.use (exclusive : lock.Exclusive) {before after beforeReads afterReads : Bool}
    (used : Use thread lock lock' before after beforeReads afterReads) : lock'.Exclusive := by
  cases used with
  | none same =>
      rw [same]
      exact exclusive
  | acquireExclusive acquired =>
      unfold RWLock.acquireExclusive at acquired
      split at acquired <;> cases acquired
      exact fun _ => rfl
  | releaseExclusive released =>
      rw [released]
      exact fun held => absurd rfl held
  | acquireShared acquired =>
      unfold RWLock.acquireShared at acquired
      split at acquired <;> cases acquired
      exact fun held => absurd rfl held
  | releaseShared released =>
      rw [released]
      intro held
      rw [RWLock.releaseShared, exclusive held]
      rfl

end Sections

end RWLock

end PahoClient.Sync
