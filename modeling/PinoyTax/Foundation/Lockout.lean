import Mathlib.Order.Lattice
import Mathlib.Tactic.Common

/-! # Counters that lock

Wrong attempts are counted, and one that reaches the maximum locks for a time. What was
attempted is kept in a log, newest first, which tells how many wrong attempts there were
since the last one counted anew. The counter itself is cleared by a success, and not when
a lock runs out.
-/
namespace PinoyTax.Foundation.Lockout
variable {τ : Type} [LinearOrder τ]

/-- A wrong attempt, with the end of the lock that it sets, or what clears the counter. -/
inductive Event (τ : Type)
  | wrong (lockedUntil : Option τ)
  | cleared
deriving DecidableEq, Repr

/-- The wrong attempts since the counter was last cleared and since the end of the last lock. -/
def wrongSince (now : τ) : List (Event τ) → ℕ
  | [] => 0
  | .cleared :: _ => 0
  | .wrong none :: older => wrongSince now older + 1
  | .wrong (some lockedUntil) :: older => if lockedUntil ≤ now then 0 else wrongSince now older + 1

/-- The counter, and the end of the lock that it carries. -/
structure Counter (τ : Type) where
  failures : ℕ
  lock : Option τ
deriving DecidableEq, Repr

/-- A wrong attempt counts once the lock has run out, and locks from the maximum on. -/
inductive Moves (max : ℕ) (now : τ) (c : Counter τ) : Option (Event τ) → Counter τ → Prop
  | idle : Moves max now c none c
  | clear : Moves max now c (some .cleared) ⟨0,none⟩
  | count (hopen : ∀ t ∈ c.lock, t ≤ now) (hmax : c.failures + 1 < max) :
    Moves max now c (some (.wrong none)) ⟨c.failures + 1,c.lock⟩
  | lock (hopen : ∀ t ∈ c.lock, t ≤ now) (hmax : max ≤ c.failures + 1) (lockedUntil : τ) :
    Moves max now c (some (.wrong (some lockedUntil))) ⟨c.failures + 1,some lockedUntil⟩

/-- Without a lock the counter counts what the log counts; with one it has reached the maximum, and the
newest entry of the log is that lock. -/
inductive Tallied (max : ℕ) (c : Counter τ) (log : List (Event τ)) : Prop
  | unlocked (hlock : c.lock = none) (hmax : c.failures < max) (hcount : ∀ now, wrongSince now log = c.failures)
  | locked (lockedUntil : τ) (older : List (Event τ)) (hlock : c.lock = some lockedUntil) (hmax : max ≤ c.failures)
    (hlog : log = .wrong (some lockedUntil) :: older)

section
variable {max : ℕ} {now : τ} {c c' : Counter τ} {e : Option (Event τ)} {log : List (Event τ)}

theorem Tallied.step (hpos : 0 < max) (h : Tallied max c log) (hmove : Moves max now c e c') :
    Tallied max c' (e.toList ++ log) := by
  cases hmove with
  | idle => exact h
  | clear => exact .unlocked rfl hpos fun _ => rfl
  | lock hopen hmax lockedUntil => exact .locked lockedUntil log rfl hmax rfl
  | count hopen hmax =>
    cases h with
    | unlocked hlock _ hcount => exact .unlocked hlock hmax fun now => congrArg (· + 1) (hcount now)
    | locked _ _ _ hfull _ => exact absurd hmax (by omega)

/-- An attempt locks as its number in the log says, exactly when no lock is carried over or the maximum is one. -/
theorem Tallied.locks_iff (h : Tallied max c log) (hmove : Moves max now c e c') :
    ((∃ t, e = some (.wrong (some t))) ↔ (∃ l, e = some (.wrong l)) ∧ wrongSince now log + 1 = max) ↔
      ¬ ((∃ l, e = some (.wrong l)) ∧ c.lock.isSome = true ∧ max ≠ 1) := by
  cases hmove with
  | idle => simp
  | clear => simp
  | count hopen hmax =>
    cases h with
    | unlocked hlock _ hcount =>
      have hne : wrongSince now log + 1 ≠ max := by
        rw [hcount now]
        omega
      simp [hlock,hne]
    | locked _ _ _ hfull _ => exact absurd hmax (by omega)
  | lock hopen hmax lockedUntil =>
    cases h with
    | unlocked hlock hroom hcount =>
      have heq : wrongSince now log + 1 = max := by
        rw [hcount now]
        omega
      simp [hlock,heq]
    | locked t older hlock hfull hlog =>
      -- The lock that is carried over has run out, so that nothing counts any more.
      have hzero : wrongSince now log = 0 := by
        rw [hlog,wrongSince,if_pos (hopen t hlock)]
      simp [hlock,hzero,eq_comm]

end
end PinoyTax.Foundation.Lockout
