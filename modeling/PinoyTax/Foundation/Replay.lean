import Mathlib.Data.List.Induction
import Mathlib.Tactic.Common

/-! # Replaying a log of puts and drops

A log puts a value under a key, or drops every value that it covers. What a key holds
after the log is the value of its latest put that nothing after it put over or dropped.
-/
namespace PinoyTax.Foundation.Replay
variable {κ υ : Type}

inductive Entry (κ υ : Type) where
  | put (k : κ) (v : υ)
  | drop (covers : κ → υ → Prop)

/-- The entry decides what the key holds, whatever it held before. -/
def Entry.Touches : Entry κ υ → κ → υ → Prop
  | put k' _, k, _ => k' = k
  | drop covers, k, v => covers k v

/-- After the log the key holds `v`: its latest put, and nothing after it touches it. -/
def Holds (log : List (Entry κ υ)) (k : κ) (v : υ) : Prop :=
  ∃ log₁ log₂, log = log₁ ++ .put k v :: log₂ ∧ ∀ e ∈ log₂, ¬ e.Touches k v

theorem not_holds_nil (k : κ) (v : υ) : ¬ Holds [] k v := by
  rintro ⟨log₁,log₂,hlog,-⟩
  cases log₁ <;> cases hlog

/-- One more entry either puts the value or leaves it. -/
theorem holds_snoc {log : List (Entry κ υ)} {e : Entry κ υ} {k : κ} {v : υ} :
    Holds (log ++ [e]) k v ↔ e = .put k v ∨ Holds log k v ∧ ¬ e.Touches k v := by
  constructor
  · rintro ⟨log₁,log₂,hlog,hlast⟩
    rcases List.eq_nil_or_concat log₂ with rfl | ⟨init,last,rfl⟩
    · left
      exact (List.append_inj' hlog rfl).2 |> List.cons.inj |>.1
    · right
      rw [List.concat_eq_append,← List.cons_append,← List.append_assoc] at hlog
      obtain ⟨hinit,he⟩ := List.append_inj' hlog rfl
      obtain rfl : e = last := (List.cons.inj he).1
      refine ⟨⟨log₁,init,hinit,fun x hx => hlast x (by simp [hx])⟩,hlast e (by simp)⟩
  · rintro (rfl | ⟨⟨log₁,log₂,rfl,hlast⟩,he⟩)
    · exact ⟨log,[],rfl,by simp⟩
    · refine ⟨log₁,log₂ ++ [e],by simp,fun x hx => ?_⟩
      rcases List.mem_append.mp hx with hx | hx
      · exact hlast x hx
      · rwa [List.mem_singleton.mp hx]

theorem holds_put {log : List (Entry κ υ)} {k k' : κ} {v v' : υ} :
    Holds (log ++ [.put k' v']) k v ↔ k' = k ∧ v' = v ∨ Holds log k v ∧ k' ≠ k := by
  rw [holds_snoc]
  simp [Entry.Touches]

theorem holds_drop {log : List (Entry κ υ)} {covers : κ → υ → Prop} {k : κ} {v : υ} :
    Holds (log ++ [.drop covers]) k v ↔ Holds log k v ∧ ¬ covers k v := by
  rw [holds_snoc]
  simp [Entry.Touches]

/-- What was dropped does not come back unless it is put again. -/
theorem not_holds_of_drop {log log' : List (Entry κ υ)} {k : κ} {v : υ} (covers : κ → υ → Prop)
    (hcovers : covers k v) (hput : .put k v ∉ log') : ¬ Holds (log ++ .drop covers :: log') k v := by
  induction log' using List.reverseRecOn with
  | nil =>
    rw [holds_drop]
    exact fun h => h.2 hcovers
  | append_singleton log' e ih =>
    rw [← List.cons_append,← List.append_assoc,holds_snoc]
    rintro (rfl | ⟨hold,-⟩)
    · exact hput (by simp)
    · exact ih (fun hmem => hput (List.mem_append_left _ hmem)) hold

end PinoyTax.Foundation.Replay
