import Hareflow.Foundations.Once
import Mathlib.Data.Nat.Notation

/-!
# The default `io_context`

Every connection and every task runs its handlers on the `io_context` that `IoContextHolder::get()`
returns, which is that of the one `DefaultIoContext` unless the user has set another. The first call of
`get()` or `initialize()` makes it, with a flag that is tested before and under a mutex.

`Shared` is what calls in any number of threads get from this, in any interleaving, with constructions
that fail and are tried again.
-/

namespace Hareflow.IoContext

open Foundations

/-- A `DefaultIoContext`: where it is, and how many threads run its `io_context`. -/
structure DefaultIoContext where
  address : ℕ
  ioThreads : ℕ
  deriving DecidableEq, Repr

/-- What the platform answers to a construction. -/
structure Platform where
  /-- What `new` returns; `none` if it throws. -/
  address : Option ℕ
  hardwareConcurrency : UInt32
  /-- How many threads can be started. -/
  granted : ℕ
  deriving DecidableEq, Repr

/-- The loop of the constructor, with what is left of it. -/
def startThreads (address granted ioThreads : ℕ) : ℕ → Outcome DefaultIoContext
  | 0 => .made ⟨address, ioThreads⟩
  | left + 1 =>
    if ioThreads < granted then startThreads address granted (ioThreads + 1) left
    -- the exception destroys `m_io_threads`, and a thread that is destroyed before it is joined
    -- terminates the process
    else if ioThreads = 0 then .threw else .aborted

/-- How many threads the constructor has to start. -/
def Platform.nbIoThreads (p : Platform) (nbIoThreads : UInt32) : UInt32 :=
  if nbIoThreads = 0 then max 1 p.hardwareConcurrency else nbIoThreads

/-- `DefaultIoContext(nb_io_threads)`. -/
def construct (nbIoThreads : UInt32) (p : Platform) : Outcome DefaultIoContext :=
  match p.address with
  | none => .threw
  | some address => startThreads address p.granted 0 (p.nbIoThreads nbIoThreads).toNat

inductive Call
  /-- `initialize(nb_io_threads)`. -/
  | initializeWith (nbIoThreads : UInt32)
  /-- `get()`, which calls `initialize()` first. -/
  | get
  deriving DecidableEq, Repr

/-- The argument of `initialize`, which is 0 by default. -/
def Call.nbIoThreads : Call → UInt32
  | initializeWith nbIoThreads => nbIoThreads
  | get => 0

/-- `initialize` and `get`, with `initialized`, `initialize_mutex` and `s_instance`. -/
def once : Once Call Platform DefaultIoContext where
  build k p := construct k.nbIoThreads p
  reads
    | .initializeWith _ => false
    | .get => true

theorem startThreads_made {address granted ioThreads left : ℕ} {c : DefaultIoContext}
    (h : startThreads address granted ioThreads left = .made c) : c = ⟨address, ioThreads + left⟩ := by
  induction left generalizing ioThreads with
  | zero =>
    cases h
    rfl
  | succ left ih =>
    simp only [startThreads] at h
    split at h
    · rw [ih h]
      congr 1
      omega
    · split at h <;> cases h

/-- A thread is destroyed if there are some and not all could be started. -/
theorem startThreads_aborted_iff {address granted ioThreads left : ℕ} (h : ioThreads ≤ granted) :
    startThreads address granted ioThreads left = .aborted ↔
      0 < granted ∧ granted < ioThreads + left := by
  induction left generalizing ioThreads with
  | zero =>
    simp only [startThreads, reduceCtorEq, false_iff]
    omega
  | succ left ih =>
    simp only [startThreads]
    split
    · rename_i hlt
      rw [ih hlt]
      omega
    · split
      · simp only [reduceCtorEq, false_iff]
        omega
      · simp only [true_iff]
        omega

theorem construct_made {nbIoThreads : UInt32} {p : Platform} {c : DefaultIoContext}
    (h : construct nbIoThreads p = .made c) :
    0 < c.ioThreads ∧ (nbIoThreads ≠ 0 → c.ioThreads = nbIoThreads.toNat) := by
  simp only [construct] at h
  split at h
  · cases h
  · rw [startThreads_made h]
    by_cases hzero : nbIoThreads = 0
    · refine ⟨?_, fun hne => absurd hzero hne⟩
      have hmax : max 1 p.hardwareConcurrency =
          if 1 ≤ p.hardwareConcurrency then p.hardwareConcurrency else 1 := rfl
      simp only [Platform.nbIoThreads, hzero, if_true, hmax, Nat.zero_add]
      split
      · rename_i hle
        exact UInt32.le_iff_toNat_le.1 hle
      · decide
    · have hpos : nbIoThreads.toNat ≠ 0 := fun h0 => hzero (UInt32.toNat_inj.1 h0)
      simp only [Platform.nbIoThreads, hzero, if_false, Nat.zero_add]
      exact ⟨Nat.pos_of_ne_zero hpos, fun _ => trivial⟩

theorem construct_aborted_iff {nbIoThreads : UInt32} {p : Platform} :
    construct nbIoThreads p = .aborted ↔
      p.address.isSome = true ∧ 0 < p.granted ∧ p.granted < (p.nbIoThreads nbIoThreads).toNat := by
  simp only [construct]
  split
  · rename_i hnone
    simp [hnone]
  · rename_i address hsome
    rw [startThreads_aborted_iff (Nat.zero_le _)]
    simp [hsome]

variable {τ : Type*} [DecidableEq τ]

/-- What the calls of `as` have come to in `s`. -/
structure Shared (as : List (Once.Act τ Call Platform)) (s : Once.State τ Call DefaultIoContext) :
    Prop where
  /-- Every `get()` has returned the `io_context` of the only instance that was ever made. -/
  same : ∀ c ∈ s.results, ∃ k, s.made = [(k, c)]
  atMostOnce : s.made.length ≤ 1
  /-- Its handlers are run, by as many threads as the call that made it has asked for. -/
  threads : ∀ k c, (k, c) ∈ s.made →
    0 < c.ioThreads ∧ (k.nbIoThreads ≠ 0 → c.ioThreads = k.nbIoThreads.toNat)
  /-- No `get()` has dereferenced a null `s_instance`. -/
  notNull : ∀ t, s.pc t ≠ .crashed
  /-- Nobody reads `s_instance` outside the mutex while another thread may assign it. -/
  raceFree : ∀ t t', (s.pc t).relies = true → (s.pc t').writes = false
  /-- The calls do not block each other. -/
  live : s.aborted = false → ∀ t p, s.pc t ≠ .idle →
    ∃ t', s.pc t' ≠ .idle ∧ (once.step s (.go t' p)).isSome = true
  /-- A call is over after seven steps of its own. -/
  bounded : ∀ t bs u, (Once.machine once).run s bs = some u →
    (∀ a ∈ bs, a.calls t = false) → bs.countP (Once.Act.goes t) ≤ 7
  /-- The process is terminated by the construction of an instance for which some of its threads were
  started and not all of them. -/
  aborts : s.aborted = true ↔ ∃ bs t p u k, as = bs ++ [Once.Act.go t p] ∧
    (Once.machine once).run {} bs = some u ∧ u.pc t = .making k ∧ p.address.isSome = true ∧
    0 < p.granted ∧ p.granted < (p.nbIoThreads k.nbIoThreads).toNat

/-- **All threads share one `io_context`**, whatever they interleave and whichever constructions
fail. -/
theorem io_context_shared {as : List (Once.Act τ Call Platform)}
    {s : Once.State τ Call DefaultIoContext} (hrun : (Once.machine once).run {} as = some s) :
    Shared as s := by
  have hinv := Once.Inv.run hrun
  refine ⟨fun c hc => hinv.made_of_mem hc, hinv.length_made, fun k c hc => ?_, hinv.crashed,
    fun t t' ht => hinv.race_free ht, fun habort t p ht => hinv.exists_step habort ht p,
    fun t bs u hbs hcalls => ?_, ?_⟩
  · obtain ⟨p, hp⟩ := hinv.built (k, c) hc
    exact construct_made hp
  · have hgoes := Once.goes_le hbs hcalls
    have hleft : s.left t ≤ 7 := by
      simp only [Once.State.left]
      split
      · omega
      · exact (s.pc t).left_le
    omega
  · rw [Once.aborted_iff hrun]
    simp only [once, construct_aborted_iff]

/-- Two threads find the flag not set. The first gets no thread started, and the second makes the
instance with two threads; then the first calls again. -/
def retried : List (Once.Act ℕ Call Platform) :=
  let p : Platform := ⟨some 4096, 8, 2⟩
  [.call 0 .get, .call 1 (.initializeWith 2), .go 0 p, .go 1 p, .go 0 p, .go 0 p,
    .go 0 ⟨some 4096, 8, 0⟩, .go 1 p, .go 1 p, .go 1 p, .call 0 .get, .go 0 p, .go 1 p, .go 1 p,
    .go 0 p, .go 0 p, .go 0 p, .go 1 p, .go 0 p]

theorem io_context_shared_retried :
    ∃ s : Once.State ℕ Call DefaultIoContext, (Once.machine once).run {} retried = some s ∧
      s.results = [⟨4096, 2⟩] ∧ s.made = [(.initializeWith 2, ⟨4096, 2⟩)] ∧ Shared retried s := by
  have hcheck : ((Once.machine once).run ({} : Once.State ℕ Call DefaultIoContext) retried).any
      (fun s => decide (s.results = [⟨4096, 2⟩] ∧ s.made = [(.initializeWith 2, ⟨4096, 2⟩)])) = true := by
    decide +kernel
  obtain ⟨s, hrun, hs⟩ := (Option.any_eq_true ..).1 hcheck
  obtain ⟨hresults, hmade⟩ := of_decide_eq_true hs
  exact ⟨s, hrun, hresults, hmade, io_context_shared hrun⟩

end Hareflow.IoContext
