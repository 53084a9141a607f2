import Mathlib.Algebra.Order.Ring.Int
import Mathlib.Tactic.Common

/-!
# Codes, results and the ways a call can fail to come back

The message codes of `globvar.h`, the results of `errors.h`, the conversion of a
64-bit number to `int`, and what stands for a call that does not return.
-/

namespace Rds

/-- A byte on the wire or in a file. -/
abbrev Byte := UInt8

/-- Message codes used on both sides. -/
inductive Code
  | generateId | sendSolv | sendYumConf | solvMoreFragment | solvNoMoreFragment
  | getDependency | getInstall | getUpdate | getErase | getUpdateAll
  | answerOk | answerWarning | answerError | answerNoDep
  deriving DecidableEq, Repr

/-- The number a code has in a message. -/
def Code.num : Code → ℤ
  | generateId => 1
  | sendSolv => 2
  | sendYumConf => 3
  | solvMoreFragment => 4
  | solvNoMoreFragment => 5
  | getDependency => 6
  | getInstall => 7
  | getUpdate => 8
  | getErase => 9
  | getUpdateAll => 10
  | answerOk => 11
  | answerWarning => 12
  | answerError => 13
  | answerNoDep => 14

/-- The code with a given number, as a `switch` finds it. -/
def Code.ofNum (n : ℤ) : Option Code :=
  [generateId, sendSolv, sendYumConf, solvMoreFragment, solvNoMoreFragment, getDependency,
    getInstall, getUpdate, getErase, getUpdateAll, answerOk, answerWarning, answerError,
    answerNoDep].find? fun c => c.num = n

theorem Code.num_of_ofNum {n : ℤ} {c : Code} (h : Code.ofNum n = some c) : c.num = n := by
  simpa using List.find?_some h

/-- The two files a client uploads: `@System.solv` and `yum.conf`. -/
inductive UploadFile
  | solv
  | yum
  deriving DecidableEq, Repr

/-- The code that announces an upload. -/
def UploadFile.code : UploadFile → Code
  | solv => .sendSolv
  | yum => .sendYumConf

/-- Results of the functions of both sides (`enum ERRORS`). -/
inductive Errors
  | ok | socketError | networkingError | internalError | fileError | paramsError | repoError
  | jsonError | downloadError | memoryError | rootError | rpmOrderError | installError
  | updateError | eraseError | actionError | exit
  deriving DecidableEq, Repr

/-- The number of a result. -/
def Errors.num : Errors → ℤ
  | ok => 0
  | socketError => 1
  | networkingError => 2
  | internalError => 3
  | fileError => 4
  | paramsError => 5
  | repoError => 6
  | jsonError => 7
  | downloadError => 8
  | memoryError => 9
  | rootError => 10
  | rpmOrderError => 11
  | installError => 12
  | updateError => 13
  | eraseError => 14
  | actionError => 15
  | exit => 16

/-- Conversion to `int`. -/
def toInt (n : ℤ) : ℤ := Int.bmod n (2 ^ 32)

theorem toInt_eq {n : ℤ} (h1 : -2 ^ 31 ≤ n) (h2 : n < 2 ^ 31) : toInt n = n := by
  unfold toInt
  rw [Int.bmod_eq_of_le] <;> omega

/-- Why a call has not come back: it waits for bytes nobody has sent, it touched
memory it does not own, it has not returned within the steps it was given, or the program was
ended in the middle of it, by a signal or by a call of `exit`. -/
inductive Halt
  | blocked
  | crash
  | fuel
  | killed
  deriving DecidableEq, Repr

/-- A pointer: `NULL`, to a value, or never set. -/
inductive Ptr (α : Type)
  | null
  | good (a : α)
  | wild
  deriving DecidableEq, Repr

/-- Handing a pointer to a library call that accepts `NULL` but follows anything else. -/
def Ptr.get {α : Type} : Ptr α → Except Halt (Option α)
  | null => .ok none
  | good a => .ok (some a)
  | wild => .error .crash

/-- A pointer that is `NULL` or good. -/
def Ptr.of {α : Type} : Option α → Ptr α
  | none => null
  | some a => good a

theorem Ptr.good_of_get {α : Type} {p : Ptr α} {a : α} (h : p.get = .ok (some a)) :
    p = .good a := by
  cases p <;> cases h
  rfl

@[simp] theorem Ptr.get_of {α : Type} (a : Option α) : (Ptr.of a).get = .ok a := by
  cases a <;> rfl

/-- From a computation that returned: its first part returned, and so did the rest. -/
theorem bind_eq_ok {ε α β : Type} {x : Except ε α} {f : α → Except ε β} {b : β} :
    (x >>= f) = .ok b ↔ ∃ a, x = .ok a ∧ f a = .ok b := by
  cases x with
  | error e => simp [bind, Except.bind]
  | ok a => simp [bind, Except.bind]

/-- From a computation that halted: its first part did, or the rest. -/
theorem bind_eq_error {ε α β : Type} {x : Except ε α} {f : α → Except ε β} {e : ε} :
    (x >>= f) = .error e ↔ x = .error e ∨ ∃ a, x = .ok a ∧ f a = .error e := by
  cases x with
  | error e' => simp [bind, Except.bind]
  | ok a => simp [bind, Except.bind]

/-- A first part that returned. -/
theorem bind_of_ok {ε α β : Type} {x : Except ε α} {a : α} {f : α → Except ε β}
    (h : x = .ok a) : (x >>= f) = f a := by
  rw [h]
  rfl

/-- A condition on the numbers from `k` on: on `k` and on those from the next one on. -/
theorem forall_offset_succ {P : ℕ → Prop} {k n : ℕ} :
    (∀ i < n + 1, P (k + i)) ↔ P k ∧ ∀ i < n, P (k + 1 + i) := by
  constructor
  · intro h
    refine ⟨h 0 (by omega), ?_⟩
    intro i hi
    have hnext := h (i + 1) (by omega)
    rwa [show k + (i + 1) = k + 1 + i by omega] at hnext
  · rintro ⟨h0, h⟩ i hi
    cases i with
    | zero => exact h0
    | succ i =>
      have hnext := h i (by omega)
      rwa [show k + 1 + i = k + (i + 1) by omega] at hnext

theorem exists_offset_succ {P : ℕ → Prop} {k n : ℕ} :
    (∃ i < n + 1, P (k + i)) ↔ P k ∨ ∃ i < n, P (k + 1 + i) := by
  constructor
  · rintro ⟨i, hi, h⟩
    cases i with
    | zero => exact Or.inl h
    | succ i => exact Or.inr ⟨i, by omega, by rwa [show k + 1 + i = k + (i + 1) by omega]⟩
  · rintro (h | ⟨i, hi, h⟩)
    · exact ⟨0, by omega, h⟩
    · exact ⟨i + 1, by omega, by rwa [show k + (i + 1) = k + 1 + i by omega]⟩

end Rds
