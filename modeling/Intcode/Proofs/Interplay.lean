import Intcode.Proofs.Step

/-!
# The interplay of a machine and another party

Between the steps of a machine another party may act on its port: supply values, or collect those
that were put out. The two take turns in any order, and a step that faults, is refused or finds the
machine stopped is a turn like any other.

What matters of a turn can be noted down, with the machine before it at hand. If each turn balances,
in that what leaves a line of values is noted on one side and what joins it on the other, then all
the turns together do.

## Main definitions

* `Turn`, `Turn.values` — a step of the machine, or an act of the other party with its values
* `Machine.play` — the machine after some turns
* `Machine.gather` — what was noted down in some turns

## Main results

* `Machine.gather_balance` — turns that each balance do so together
* `Machine.gather_growth` — the same for a line that nothing leaves
-/

namespace Intcode

/-- A turn: a step of the machine, or an act of the other party. -/
inductive Turn (α : Type) where
  | step
  | act (a : α)
  deriving DecidableEq, Repr

/-- The values that the acts among some turns come with. -/
def Turn.values {α β : Type} (given : α → List β) : List (Turn α) → List β
  | [] => []
  | .step :: turns => values given turns
  | .act a :: turns => given a ++ values given turns

namespace Machine

variable {σ α β : Type} [Port σ]

/-- The machine after a turn. What an act does to the port is given by `act`. -/
def turn (act : α → σ → σ) (m : Machine σ) : Turn α → Machine σ
  | .step => m.step.machine
  | .act a => { m with port := act a m.port }

/-- The machine after some turns. -/
def play (act : α → σ → σ) : Machine σ → List (Turn α) → Machine σ
  | m, [] => m
  | m, t :: turns => play act (m.turn act t) turns

/-- What was noted down in some turns, each with the machine before it. -/
def gather (act : α → σ → σ) (note : Machine σ → Turn α → List β) :
    Machine σ → List (Turn α) → List β
  | _, [] => []
  | m, t :: turns => note m t ++ gather act note (m.turn act t) turns

/-- The machine after a number of steps with no act between them. -/
theorem play_replicate_succ (act : α → σ → σ) (m : Machine σ) (n : Nat) :
    m.play act (List.replicate (n + 1) .step) =
      m.step.machine.play act (List.replicate n .step) := rfl

/-- If in each turn what leaves a line of values at its front is noted by `leaving`, and what joins
it at its end by `joining`, then nothing is lost, added or put out of order in any number of
turns. -/
theorem gather_balance {act : α → σ → σ} (line : Machine σ → List β)
    {leaving joining : Machine σ → Turn α → List β}
    (balance : ∀ m t, leaving m t ++ line (m.turn act t) = line m ++ joining m t)
    (m : Machine σ) (turns : List (Turn α)) :
    m.gather act leaving turns ++ line (m.play act turns) =
      line m ++ m.gather act joining turns := by
  induction turns generalizing m with
  | nil => simp [gather, play]
  | cons t turns ih =>
    calc
      leaving m t ++ (m.turn act t).gather act leaving turns ++
            line ((m.turn act t).play act turns)
          = leaving m t ++ (line (m.turn act t) ++ (m.turn act t).gather act joining turns) := by
        rw [List.append_assoc, ih]
      _ = line m ++ joining m t ++ (m.turn act t).gather act joining turns := by
        rw [← List.append_assoc, balance]
      _ = line m ++ m.gather act joining (t :: turns) := List.append_assoc ..

/-- A line that nothing leaves only grows. -/
theorem gather_growth {act : α → σ → σ} (line : Machine σ → List β)
    {joining : Machine σ → Turn α → List β}
    (growth : ∀ m t, line (m.turn act t) = line m ++ joining m t)
    (m : Machine σ) (turns : List (Turn α)) :
    line (m.play act turns) = line m ++ m.gather act joining turns := by
  have idle : m.gather act (fun _ _ => ([] : List β)) turns = [] := by
    induction turns generalizing m with
    | nil => rfl
    | cons t turns ih => exact ih _
  have balance := gather_balance line (fun m t => (List.nil_append _).trans (growth m t)) m turns
  rwa [idle, List.nil_append] at balance

/-- What the acts come with, noted down turn by turn. -/
theorem gather_values (act : α → σ → σ) (note : Machine σ → Turn α → List β)
    {given : α → List β} (steps : ∀ m, note m .step = []) (acts : ∀ m a, note m (.act a) = given a)
    (m : Machine σ) (turns : List (Turn α)) :
    m.gather act note turns = Turn.values given turns := by
  induction turns generalizing m with
  | nil => rfl
  | cons t turns ih =>
    cases t with
    | step => rw [gather, steps, List.nil_append, ih, Turn.values]
    | act a => rw [gather, acts, ih, Turn.values]

end Machine

end Intcode
