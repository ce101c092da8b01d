import Intcode.Proofs.Conservation
import Intcode.Proofs.Ports

/-!
# Feeding a port while a machine runs

It does not matter when the values that a machine takes in were supplied, as long as each is there
when it is asked for. A machine that is fed piece by piece between its steps does what it would have
done with all the values waiting from the start. Likewise it does not matter what waits behind the
values that are asked for, so values that are never asked for might as well be others.

Both come from one simulation. Two ports whose lines agree up to some point serve alike until a
request goes past that point, and a port that refuses to serve at all does so whatever its line is.

The bound is a request that finds the line empty. It makes the machine fault, and a value that comes
too late does not undo that.

## Main definitions

* `Port.Feed` — a port that can be fed while a machine runs on it
* `Port.Feed.Behind` — two ports whose lines differ only behind some values
* `Machine.Nourished` — no step of some turns asks for a value while none is pending

## Main results

* `Machine.step_behind` — what stands behind the values asked for makes no difference to a step
* `Machine.play_fed` — when values are supplied makes no difference to an interplay
* `Machine.play_unasked` — values never asked for make no difference to any number of steps
* `Machine.feeding_schedule_independent` — both, for scripted and queue ports
-/

namespace Intcode

namespace Port

/-- A port that can be fed while a machine runs on it. Values join its line at the end, and a
request is served from the front of the line or refused whatever the line is. -/
structure Feed (σ α : Type) [Port σ] extends Lines σ where
  /-- The port with another line of pending values. -/
  withPending : List Int → σ → σ
  /-- The port after an act of the other party. -/
  feed : α → σ → σ
  /-- The values that an act supplies. -/
  given : α → List Int
  pending_withPending : ∀ xs p, pending (withPending xs p) = xs
  withPending_pending : ∀ p, withPending (pending p) p = p
  withPending_withPending : ∀ xs ys p, withPending xs (withPending ys p) = withPending xs p
  request_withPending : ∀ p,
    (∀ value xs, Port.request (withPending (value :: xs) p) = .serve (withPending xs p) value) ∨
      ∃ why, ∀ xs, Port.request (withPending xs p) = .refuse (withPending xs p) why
  deliver_withPending : ∀ value xs p,
    Port.deliver value (withPending xs p) =
      { Port.deliver value p with port := withPending xs (Port.deliver value p).port }
  feed_eq : ∀ a p, feed a p = withPending (pending p ++ given a) p

/-- Feeding a scripted port, with any number of values at once. -/
def Scripted.feed : Feed Scripted (List Int) where
  toLines := Scripted.lines
  withPending xs p := { p with pending := xs }
  feed := Scripted.push
  given values := values
  pending_withPending _ _ := rfl
  withPending_pending _ := rfl
  withPending_withPending _ _ _ := rfl
  request_withPending _ := .inl fun _ _ => rfl
  deliver_withPending _ _ _ := rfl
  feed_eq _ _ := rfl

/-- Feeding a queue port, one value at a time. -/
def Queue.feed : Feed Queue Int where
  toLines := Queue.lines
  withPending xs p := { p with inbox := xs }
  feed := Queue.send
  given value := [value]
  pending_withPending _ _ := rfl
  withPending_pending _ := rfl
  withPending_withPending _ _ _ := rfl
  request_withPending p := by
    change (∀ value xs, Queue.request { p with inbox := value :: xs } = _) ∨
      ∃ why, ∀ xs, Queue.request { p with inbox := xs } = _
    unfold Queue.request
    rcases Queue.take_cases p.timeout with ⟨-, serves⟩ | ⟨why, refuses⟩
    · exact .inl fun value xs => by simp only [serves]
    · exact .inr ⟨why, fun xs => by simp only [refuses]⟩
  deliver_withPending _ _ _ := rfl
  feed_eq _ _ := rfl

namespace Feed

variable {σ α : Type} [Port σ] (feed : Feed σ α) {rest other : List Int} {p q : σ}

/-- Some values wait at both ports, with `rest` behind them at the one and `other` at the other. -/
def Behind (rest other : List Int) (p q : σ) : Prop :=
  ∃ front, feed.pending p = front ++ rest ∧ q = feed.withPending (front ++ other) p

theorem behind_withPending (front : List Int) (p : σ) :
    feed.Behind rest other (feed.withPending (front ++ rest) p)
      (feed.withPending (front ++ other) p) :=
  ⟨front, feed.pending_withPending .., (feed.withPending_withPending ..).symm⟩

theorem pending_deliver (value : Int) (p : σ) :
    feed.pending (Port.deliver value p).port = feed.pending p := by
  have same := feed.deliver_withPending value (feed.pending p) p
  rw [feed.withPending_pending] at same
  rw [same]
  exact feed.pending_withPending ..

/-- A port takes a value whatever its line is. -/
theorem deliver_behind (h : feed.Behind rest other p q) (value : Int) :
    (Port.deliver value p).Agree (feed.Behind rest other) (Port.deliver value q) := by
  obtain ⟨front, pending, rfl⟩ := h
  rw [feed.deliver_withPending]
  exact ⟨⟨front, (feed.pending_deliver value p).trans pending, rfl⟩, rfl, rfl⟩

/-- A port that serves a value from in front of `rest`, or none, answers whatever stands behind. -/
theorem request_behind (h : feed.Behind rest other p q)
    (spare : feed.pending p = rest →
      rest ≠ [] ∧ ∃ trouble, (Port.request p).answer = .error trouble) :
    (Port.request p).Agree (feed.Behind rest other) (Port.request q) := by
  have related := h
  obtain ⟨front, pending, rfl⟩ := h
  have self := feed.withPending_pending p
  rw [pending] at self
  rcases feed.request_withPending p with serves | ⟨why, refuses⟩
  · cases front with
    | cons value front =>
      have served := serves value (front ++ rest)
      rw [← List.cons_append, self] at served
      rw [served, List.cons_append, serves]
      exact ⟨feed.behind_withPending front p, rfl, rfl⟩
    | nil =>
      -- A port that serves would have served the first of `rest`.
      obtain ⟨waiting, trouble, refused⟩ := spare pending
      obtain ⟨value, rest, rfl⟩ := List.exists_cons_of_ne_nil waiting
      have served := serves value rest
      rw [List.nil_append] at self
      rw [self] at served
      rw [served] at refused
      cases refused
  · have refused := refuses (front ++ rest)
    rw [self] at refused
    rw [refused, refuses]
    exact ⟨related, rfl, rfl⟩

end Feed

end Port

namespace Machine

variable {σ α : Type} [Port σ] {m m' : Machine σ} {rest other : List Int}

/-! ### Steps on ports that differ behind some values -/

/-- What stands behind the values asked for makes no difference to a step. -/
theorem step_behind (feed : Port.Feed σ α) (alike : Alike (feed.Behind rest other) m m')
    (spare : m.asks → feed.pending m.port = rest →
      rest ≠ [] ∧ feed.pending m.step.machine.port = rest) :
    Alike (feed.Behind rest other) m.step.machine m'.step.machine := by
  refine (step_alike alike (fun asks => ?_) fun value _ => feed.deliver_behind alike.port value).1
  refine feed.request_behind alike.port fun pending => ?_
  obtain ⟨waiting, kept⟩ := spare asks pending
  refine ⟨waiting, ?_⟩
  cases answer : (Port.request m.port).answer with
  | error trouble => exact ⟨trouble, rfl⟩
  | ok value =>
    -- A value that was served is no longer pending.
    have shrunk := (feed.request answer).1
    rw [← port_of_asks asks answer, kept, pending] at shrunk
    exact absurd shrunk.symm (List.cons_ne_self value rest)

/-! ### Values supplied in time -/

/-- No step of some turns asks for a value while none is pending. -/
def Nourished (pending : σ → List Int) (act : α → σ → σ) : Machine σ → List (Turn α) → Prop
  | _, [] => True
  | m, .step :: turns =>
    (m.asks → pending m.port ≠ []) ∧ Nourished pending act m.step.machine turns
  | m, .act a :: turns => Nourished pending act { m with port := act a m.port } turns

instance decidableNourished (pending : σ → List Int) (act : α → σ → σ) :
    (m : Machine σ) → (turns : List (Turn α)) → Decidable (m.Nourished pending act turns)
  | _, [] => .isTrue trivial
  | m, .step :: turns =>
    have := decidableNourished pending act m.step.machine turns
    inferInstanceAs (Decidable ((m.asks → pending m.port ≠ []) ∧ _))
  | m, .act a :: turns => decidableNourished pending act { m with port := act a m.port } turns

theorem feed_behind (feed : Port.Feed σ α) {a : α} {late : List Int}
    (alike : Alike (feed.Behind [] (feed.given a ++ late)) m m') :
    Alike (feed.Behind [] late) { m with port := feed.feed a m.port } m' := by
  refine { alike with port := ?_ }
  obtain ⟨front, pending, whole⟩ := alike.port
  rw [List.append_nil] at pending
  refine ⟨front ++ feed.given a, ?_, ?_⟩
  · rw [feed.feed_eq, feed.pending_withPending, pending, List.append_nil]
  · rw [feed.feed_eq, feed.withPending_withPending, whole, List.append_assoc]

/-- A machine that is fed in time does what it does with all the values waiting from the start. -/
theorem play_fed [DecidableEq α] (feed : Port.Feed σ α) {turns : List (Turn α)} {late : List Int}
    (alike : Alike (feed.Behind [] (Turn.values feed.given turns ++ late)) m m')
    (nourished : m.Nourished feed.pending feed.feed turns) :
    Alike (feed.Behind [] late) (m.play feed.feed turns)
      (m'.play feed.feed (List.replicate (turns.count .step) .step)) := by
  -- Behind the values that wait at both ports, the second has all that the first is still to get.
  induction turns generalizing m m' with
  | nil => exact alike
  | cons t turns ih =>
    cases t with
    | step =>
      rw [List.count_cons_self]
      refine ih (step_behind feed alike fun asks pending => ?_) nourished.2
      exact absurd pending (nourished.1 asks)
    | act a =>
      rw [List.count_cons_of_ne (by simp)]
      rw [Turn.values, List.append_assoc] at alike
      exact ih (feed_behind feed alike) nourished

/-! ### Values never asked for -/

/-- The line of a port never grows by itself. -/
theorem suffix_pending_play (feed : Port.Feed σ α) (m : Machine σ) (n : Nat) :
    feed.pending (m.play feed.feed (List.replicate n .step)).port <:+ feed.pending m.port := by
  have supplied : Turn.values feed.given (List.replicate n .step) = [] := by
    induction n with
    | zero => rfl
    | succ n ih => exact ih
  have supplies (a : α) (p : σ) :
      feed.pending (feed.feed a p) = feed.pending p ++ feed.given a := by
    rw [feed.feed_eq, feed.pending_withPending]
  have balance := gather_stored feed.toLines supplies m (List.replicate n .step)
  rw [supplied, List.append_nil] at balance
  exact ⟨_, balance⟩

/-- Values that are still waiting after some steps might as well have been others. -/
theorem play_unasked (feed : Port.Feed σ α) (waiting : rest ≠ []) {n : Nat}
    (alike : Alike (feed.Behind rest other) m m')
    (left : feed.pending (m.play feed.feed (List.replicate n .step)).port = rest) :
    Alike (fun p q => q = feed.withPending other p) (m.play feed.feed (List.replicate n .step))
      (m'.play feed.feed (List.replicate n .step)) := by
  induction n generalizing m m' with
  | zero =>
    refine { alike with port := ?_ }
    obtain ⟨front, pending, whole⟩ := alike.port
    obtain rfl : front = [] := by simpa using pending.symm.trans left
    exact whole
  | succ n ih =>
    refine ih (step_behind feed alike fun _ pending => ⟨waiting, ?_⟩) left
    -- The line lies between what was pending before and what is left in the end.
    have later := suffix_pending_play feed m.step.machine n
    have sooner := suffix_pending_play feed m 1
    rw [play_replicate_succ] at left
    rw [left] at later
    rw [pending] at sooner
    exact (later.eq_of_length_le sooner.length_le).symm

/-! ### From the start of a program -/

variable {program : Array Int} {maxSteps : Option Int} {tracing : Bool} {p : σ}

theorem create_fed [DecidableEq α] (feed : Port.Feed σ α) {turns : List (Turn α)}
    (created : create program p maxSteps tracing = .ok m)
    (nourished : m.Nourished feed.pending feed.feed turns) (late : List Int) :
    ∃ whole, create program
        (feed.withPending (feed.pending p ++ (Turn.values feed.given turns ++ late)) p)
        maxSteps tracing = .ok whole ∧
      Alike (fun p q => q = feed.withPending (feed.pending p ++ late) p) (m.play feed.feed turns)
        (whole.play feed.feed (List.replicate (turns.count .step) .step)) := by
  obtain ⟨full, budget, rfl⟩ := create_eq_ok_iff.mp created
  refine ⟨_, create_eq_ok_iff.mpr ⟨full, budget, rfl⟩, ?_⟩
  have alike : Alike (feed.Behind [] (Turn.values feed.given turns ++ late))
      (start program p maxSteps tracing) (start program _ maxSteps tracing) :=
    alike_onPort ⟨feed.pending p, (List.append_nil _).symm, rfl⟩
  refine (play_fed feed alike nourished).mono ?_
  rintro p _ ⟨front, pending, rfl⟩
  rw [pending, List.append_nil]

theorem create_unasked (feed : Port.Feed σ α) {used : List Int} {n : Nat} (waiting : rest ≠ [])
    (opened : feed.pending p = used ++ rest)
    (created : create program p maxSteps tracing = .ok m)
    (left : feed.pending (m.play feed.feed (List.replicate n .step)).port = rest)
    (other : List Int) :
    ∃ m', create program (feed.withPending (used ++ other) p) maxSteps tracing = .ok m' ∧
      Alike (fun p q => q = feed.withPending other p) (m.play feed.feed (List.replicate n .step))
        (m'.play feed.feed (List.replicate n .step)) := by
  obtain ⟨full, budget, rfl⟩ := create_eq_ok_iff.mp created
  refine ⟨_, create_eq_ok_iff.mpr ⟨full, budget, rfl⟩, ?_⟩
  have alike : Alike (feed.Behind rest other)
      (start program p maxSteps tracing) (start program _ maxSteps tracing) :=
    alike_onPort ⟨used, opened, rfl⟩
  exact play_unasked feed waiting alike left

/-- When values are supplied makes no difference. If in an interplay of steps with pushes to a
scripted port, or with sends to a queue port, no step asks for a value while none is pending, then
the machine ends up as it does after the same number of steps with all the values waiting from the
start, and with the same values still waiting but for those that come late.

Values never asked for make no difference either. If after a number of steps some of the values that
waited from the start are left, then with any other values in their place, or none, the machine ends
up the same. -/
theorem feeding_schedule_independent (program : Array Int) (maxSteps : Option Int)
    (tracing : Bool) :
    (∀ (m : Machine Port.Scripted) (inputs late : List Int) (turns : List (Turn (List Int))),
      create program (Port.Scripted.ofInputs inputs) maxSteps tracing = .ok m →
      m.Nourished (·.pending) Port.Scripted.push turns →
      ∃ whole, create program (Port.Scripted.ofInputs (inputs ++ (Turn.values id turns ++ late)))
          maxSteps tracing = .ok whole ∧
        Alike (fun p q => q = p.push late) (m.play Port.Scripted.push turns)
          (whole.play Port.Scripted.push (List.replicate (turns.count .step) .step))) ∧
    (∀ (m : Machine Port.Queue) (timeout : Option Port.Timeout) (inputs late : List Int)
        (turns : List (Turn Int)),
      create program (Port.Queue.ofInputs timeout inputs) maxSteps tracing = .ok m →
      m.Nourished (·.inbox) Port.Queue.send turns →
      ∃ whole, create program
          (Port.Queue.ofInputs timeout (inputs ++ (Turn.values (fun value => [value]) turns ++ late)))
          maxSteps tracing = .ok whole ∧
        Alike (fun p q => q = { p with inbox := p.inbox ++ late }) (m.play Port.Queue.send turns)
          (whole.play Port.Queue.send (List.replicate (turns.count .step) .step))) ∧
    (∀ (m : Machine Port.Scripted) (used rest other : List Int) (n : Nat), rest ≠ [] →
      create program (Port.Scripted.ofInputs (used ++ rest)) maxSteps tracing = .ok m →
      (m.play Port.Scripted.push (List.replicate n .step)).port.pending = rest →
      ∃ m', create program (Port.Scripted.ofInputs (used ++ other)) maxSteps tracing = .ok m' ∧
        Alike (fun p q => q = { p with pending := other })
          (m.play Port.Scripted.push (List.replicate n .step))
          (m'.play Port.Scripted.push (List.replicate n .step))) ∧
    (∀ (m : Machine Port.Queue) (timeout : Option Port.Timeout) (used rest other : List Int)
        (n : Nat), rest ≠ [] →
      create program (Port.Queue.ofInputs timeout (used ++ rest)) maxSteps tracing = .ok m →
      (m.play Port.Queue.send (List.replicate n .step)).port.inbox = rest →
      ∃ m', create program (Port.Queue.ofInputs timeout (used ++ other)) maxSteps tracing = .ok m' ∧
        Alike (fun p q => q = { p with inbox := other })
          (m.play Port.Queue.send (List.replicate n .step))
          (m'.play Port.Queue.send (List.replicate n .step))) := by
  refine ⟨fun m inputs late turns created nourished => ?_,
    fun m timeout inputs late turns created nourished => ?_,
    fun m used rest other n waiting created left => ?_,
    fun m timeout used rest other n waiting created left => ?_⟩
  · exact create_fed Port.Scripted.feed created nourished late
  · exact create_fed Port.Queue.feed created nourished late
  · exact create_unasked Port.Scripted.feed waiting rfl created left other
  · exact create_unasked Port.Queue.feed waiting rfl created left other

/-- A program that puts out the sum of two inputs and halts. It is fed one of them before its first
step and the other, with one that it never asks for, before its second; then again on a queue, with
the unasked value left out. -/
theorem feeding_schedule_independent_sum :
    let program : Array Int := #[3, 9, 3, 10, 1, 9, 10, 9, 4, 9, 99]
    (let m : Machine Port.Scripted := start program ⟨[], #[]⟩ none false
      let whole : Machine Port.Scripted := start program ⟨[20, 22, 5, 6], #[]⟩ none false
      let turns : List (Turn (List Int)) :=
        [.act [20], .step, .act [22, 5], .step, .step, .step]
      m.Nourished (·.pending) Port.Scripted.push turns ∧
        Alike (fun p q => q = p.push [6]) (m.play Port.Scripted.push turns)
          (whole.play Port.Scripted.push (List.replicate 4 .step))) ∧
    (let m : Machine Port.Queue := start program ⟨none, [20, 22, 5], []⟩ none false
      let m' : Machine Port.Queue := start program ⟨none, [20, 22], []⟩ none false
      (m.play Port.Queue.send (List.replicate 4 .step)).port.inbox = [5] ∧
        Alike (fun p q => q = { p with inbox := [] })
          (m.play Port.Queue.send (List.replicate 4 .step))
          (m'.play Port.Queue.send (List.replicate 4 .step))) := by
  intro program
  have made {σ : Type} (port : σ) : create program port none false =
      .ok (start program port none false) :=
    create_eq_ok_iff.mpr ⟨by decide, nofun, rfl⟩
  obtain ⟨fed, -, -, unasked⟩ := feeding_schedule_independent program none false
  constructor
  · intro m whole turns
    have nourished : m.Nourished (·.pending) Port.Scripted.push turns := by decide +kernel
    obtain ⟨_, created, alike⟩ := fed m [] [6] turns (made _) nourished
    obtain ⟨-, -, rfl⟩ := create_eq_ok_iff.mp created
    exact ⟨nourished, alike⟩
  · intro m m'
    have left : (m.play Port.Queue.send (List.replicate 4 .step)).port.inbox = [5] := by
      decide +kernel
    obtain ⟨_, created, alike⟩ := unasked m none [20, 22] [5] [] 4 (by decide) (made _) left
    obtain ⟨-, -, rfl⟩ := create_eq_ok_iff.mp created
    exact ⟨left, alike⟩

end Machine

end Intcode
