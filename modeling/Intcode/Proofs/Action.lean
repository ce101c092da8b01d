import Intcode.Machine.Action
import Intcode.Proofs.Memory

/-!
# Instructions that fail

An instruction takes its actions one after the other, and what they did to the bench is not undone
when a later one fails. Still an instruction that fails has changed neither the memory nor the
outputs, because everything in it that may fail comes before the first change: all actions before
the last only look at the bench or talk to the port, and the last one that may fail changes nothing
when it does.

An input instruction is the critical one for the port. It takes a value from the port before it
stores it, and would lose the value if it could not be stored; but it has checked the address by
then.

## Main definitions

* `Action.Keeps` — an action after which a property of the bench still holds
* `Action.Reads` — an action that leaves a part of the bench alone
* `Action.Cautious` — an action that leaves it alone when it fails
* `Action.Certain` — an action that cannot fail

## Main results

* `Action.cautious_ofCommand` — an instruction that fails has changed neither memory nor outputs
* `Action.input_of_served` — an input that is served is stored
-/

namespace Intcode

/-- What a bench holds apart from the port and its notes. -/
def Bench.holdings {σ : Type} (bench : Bench σ) : Memory × Array Int :=
  (bench.memory, bench.outputs)

namespace Action

variable {σ α β γ : Type} {bench after : Bench σ} {stop : Stop}

/-! ### Single actions -/

section Single

variable {operand : Operand Int} {address value : Int}

theorem load_of_ok (bench : Bench σ) (h : bench.memory.load operand = .ok value) :
    load operand bench = .ok value bench := by
  rw [load, h]

theorem load_of_error (bench : Bench σ) (h : bench.memory.load operand = .error stop) :
    load operand bench = .error stop bench := by
  rw [load, h]

theorem store_of_ok (bench : Bench σ) {memory : Memory}
    (h : bench.memory.store operand value = .ok memory) :
    store operand value bench = .ok () { bench with memory } := by
  rw [store, h]

theorem store_of_error (bench : Bench σ) (h : bench.memory.store operand value = .error stop) :
    store operand value bench = .error stop bench := by
  rw [store, h]

theorem check_of_inBounds (bench : Bench σ) (h : bench.memory.inBounds address) :
    check address bench = .ok () bench := by
  rw [check, if_pos h]

theorem check_of_not_inBounds (bench : Bench σ) (h : ¬ bench.memory.inBounds address) :
    check address bench = .error (bench.memory.outOfBounds address) bench := by
  rw [check, if_neg h]

/-- The bench after the port has replied. -/
def replied (bench : Bench σ) (reply : Port.Reply σ α) : Bench σ :=
  { bench with port := reply.port, notes := bench.notes ++ reply.notes }

theorem ask_of_ok (bench : Bench σ) {service : σ → Port.Reply σ α} {x : α}
    (h : (service bench.port).answer = .ok x) :
    ask service bench = .ok x (replied bench (service bench.port)) := by
  rw [ask, h]
  rfl

theorem ask_of_error (bench : Bench σ) {service : σ → Port.Reply σ α} {trouble : Port.Trouble}
    (h : (service bench.port).answer = .error trouble) :
    ask service bench = .error trouble.stop (replied bench (service bench.port)) := by
  rw [ask, h]
  rfl

end Single

/-! ### One action after the other -/

section Sequence

variable {act : Action σ α} {f : α → Action σ β} {x : α}

theorem bind_of_ok (h : act bench = .ok x after) : (act >>= f) bench = f x after := by
  change EStateM.bind act f bench = _
  rw [EStateM.bind, h]

theorem bind_of_error (h : act bench = .error stop after) :
    (act >>= f) bench = .error stop after := by
  change EStateM.bind act f bench = _
  rw [EStateM.bind, h]

end Sequence

/-! ### What actions keep -/

section Keeps

variable {P : Bench σ → Prop}

/-- An action after which a property of the bench still holds, whether it fails or not. -/
def Keeps (P : Bench σ → Prop) (act : Action σ α) : Prop :=
  ∀ bench, P bench → (∃ x after, act bench = .ok x after ∧ P after) ∨
    ∃ stop after, act bench = .error stop after ∧ P after

theorem Keeps.bind {act : Action σ α} {f : α → Action σ β} (first : Keeps P act)
    (rest : ∀ x, Keeps P (f x)) : Keeps P (act >>= f) := by
  intro bench held
  rcases first bench held with ⟨x, middle, done, kept⟩ | ⟨stop, after, failed, kept⟩
  · rw [bind_of_ok done]
    exact rest x middle kept
  · exact .inr ⟨stop, after, bind_of_error failed, kept⟩

theorem keeps_pure (P : Bench σ → Prop) (x : α) : Keeps P (pure x) :=
  fun bench held => .inl ⟨x, bench, rfl, held⟩

theorem keeps_load (P : Bench σ → Prop) (operand : Operand Int) : Keeps P (load operand) := by
  intro bench held
  cases loaded : bench.memory.load operand with
  | ok value => exact .inl ⟨value, bench, load_of_ok _ loaded, held⟩
  | error stop => exact .inr ⟨stop, bench, load_of_error _ loaded, held⟩

theorem keeps_check (P : Bench σ → Prop) (address : Int) : Keeps P (check address) := by
  intro bench held
  by_cases inside : bench.memory.inBounds address
  · exact .inl ⟨(), bench, check_of_inBounds _ inside, held⟩
  · exact .inr ⟨_, bench, check_of_not_inBounds _ inside, held⟩

/-- What holds of the bench after each reply is kept by asking the port. -/
theorem keeps_ask {service : σ → Port.Reply σ α}
    (kept : ∀ bench, P bench → P (replied bench (service bench.port))) : Keeps P (ask service) := by
  intro bench held
  cases answer : (service bench.port).answer with
  | ok x => exact .inl ⟨x, _, ask_of_ok _ answer, kept bench held⟩
  | error trouble => exact .inr ⟨_, _, ask_of_error _ answer, kept bench held⟩

theorem keeps_store {operand : Operand Int} {value : Int}
    (kept : ∀ bench memory, P bench → P { bench with memory }) :
    Keeps P (store operand value) := by
  intro bench held
  cases stored : bench.memory.store operand value with
  | ok memory => exact .inl ⟨(), _, store_of_ok _ stored, kept bench memory held⟩
  | error stop => exact .inr ⟨stop, bench, store_of_error _ stored, held⟩

theorem keeps_putOut {value : Int}
    (kept : ∀ bench outputs, P bench → P { bench with outputs }) : Keeps P (putOut value) :=
  fun bench held => .inl ⟨(), _, rfl, kept bench _ held⟩

end Keeps

/-! ### Actions that leave a part of the bench alone -/

variable {view : Bench σ → γ}

/-- An action that leaves a part of the bench alone, whether it fails or not. -/
def Reads (view : Bench σ → γ) (act : Action σ α) : Prop :=
  ∀ seen, Keeps (fun bench => view bench = seen) act

/-- An action that leaves a part of the bench alone when it fails. -/
def Cautious (view : Bench σ → γ) (act : Action σ α) : Prop :=
  ∀ ⦃bench stop after⦄, act bench = .error stop after → view after = view bench

/-- An action that cannot fail. -/
def Certain (act : Action σ α) : Prop :=
  ∀ bench, ∃ x after, act bench = .ok x after

theorem certain_pure (x : α) : Certain (pure x : Action σ α) :=
  fun bench => ⟨x, bench, rfl⟩

theorem Certain.cautious {act : Action σ α} (h : Certain act) : Cautious view act := by
  intro bench stop after fails
  obtain ⟨x, after', done⟩ := h bench
  rw [done] at fails
  cases fails

/-- What fails only after an action that reads has changed nothing if it is cautious itself. -/
theorem Reads.bind {act : Action σ α} {f : α → Action σ β} (reads : Reads view act)
    (rest : ∀ x, Cautious view (f x)) : Cautious view (act >>= f) := by
  intro bench stop after fails
  rcases reads (view bench) bench rfl with ⟨x, middle, done, same⟩ | ⟨stop', middle, failed, same⟩
  · rw [bind_of_ok done] at fails
    exact (rest x fails).trans same
  · rw [bind_of_error failed] at fails
    cases fails
    exact same

/-- What cannot fail may come after a cautious action. -/
theorem Cautious.bind {act : Action σ α} {f : α → Action σ β} (cautious : Cautious view act)
    (rest : ∀ x, Certain (f x)) : Cautious view (act >>= f) := by
  intro bench stop after fails
  cases first : act bench with
  | ok x middle =>
    obtain ⟨y, after', done⟩ := rest x middle
    rw [bind_of_ok first, done] at fails
    cases fails
  | error stop' middle =>
    rw [bind_of_error first] at fails
    cases fails
    exact cautious first

theorem reads_load (view : Bench σ → γ) (operand : Operand Int) : Reads view (load operand) :=
  fun _ => keeps_load _ operand

theorem reads_check (view : Bench σ → γ) (address : Int) : Reads view (check address) :=
  fun _ => keeps_check _ address

/-- The port is asked without a change to what the bench holds. -/
theorem reads_ask (service : σ → Port.Reply σ α) : Reads Bench.holdings (ask service) :=
  fun _ => keeps_ask fun _ same => same

theorem cautious_store (view : Bench σ → γ) (operand : Operand Int) (value : Int) :
    Cautious view (store operand value) := by
  intro bench stop after h
  cases stored : bench.memory.store operand value with
  | ok memory =>
    rw [store_of_ok _ stored] at h
    cases h
  | error stop =>
    rw [store_of_error _ stored] at h
    cases h
    rfl

/-! ### Instructions that fail -/

theorem cautious_compute (op : Operation) (a b dest : Operand Int) (next : Int) :
    Cautious view (compute op a b dest next) := by
  -- Both values are read before anything is stored, and nothing can fail after that.
  refine (reads_load view a).bind fun x => (reads_load view b).bind fun y => ?_
  exact (cautious_store view dest (op.apply x y)).bind fun _ => certain_pure _

theorem cautious_jump (expected : Bool) (cond target : Operand Int) (next : Int) :
    Cautious view (jump expected cond target next) := by
  refine (reads_load view cond).bind fun x => ?_
  by_cases taken : ((x != 0) == expected) = true
  · rw [if_pos taken]
    exact (reads_load view target).bind fun goal => (certain_pure _).cautious
  · rw [if_neg taken]
    exact (certain_pure _).cautious

variable [Port σ]

theorem cautious_input (dest next : Int) :
    Cautious Bench.holdings (input dest next : Action σ (Option Int)) := by
  refine (reads_check _ dest).bind fun _ => (reads_ask Port.request).bind fun value => ?_
  exact (cautious_store _ (.position dest) value).bind fun _ => certain_pure _

theorem cautious_output (source next : Int) :
    Cautious Bench.holdings (output source next : Action σ (Option Int)) := by
  -- The value joins the outputs after the port has taken it, and this cannot fail.
  refine (reads_load _ (.position source)).bind fun value =>
    (reads_ask (Port.deliver value)).bind fun _ => ?_
  exact Certain.cautious fun bench => ⟨_, _, rfl⟩

/-- An instruction that fails has changed neither the memory nor the outputs. -/
theorem cautious_ofCommand (command : Command Int) (next : Int) :
    Cautious Bench.holdings (ofCommand command next : Action σ (Option Int)) := by
  cases command with
  | compute op a b dest => exact cautious_compute op a b dest next
  | jump expected cond target => exact cautious_jump expected cond target next
  | input dest => exact cautious_input dest next
  | output source => exact cautious_output source next
  | halt => exact (certain_pure _).cautious

/-! ### The ways of an instruction -/

omit [Port σ] in
theorem compute_of_stored (bench : Bench σ) {op : Operation} {a b dest : Operand Int} {x y : Int}
    {memory : Memory}
    (first : bench.memory.load a = .ok x) (second : bench.memory.load b = .ok y)
    (stored : bench.memory.store dest (op.apply x y) = .ok memory) (next : Int) :
    compute op a b dest next bench = .ok (some next) { bench with memory } := by
  rw [compute, bind_of_ok (load_of_ok _ first), bind_of_ok (load_of_ok _ second),
    bind_of_ok (store_of_ok _ stored)]
  rfl

omit [Port σ] in
theorem jump_of_taken (bench : Bench σ) {expected : Bool} {cond target : Operand Int} {x goal : Int}
    (tested : bench.memory.load cond = .ok x) (taken : ((x != 0) == expected) = true)
    (loaded : bench.memory.load target = .ok goal) (next : Int) :
    jump expected cond target next bench = .ok (some goal) bench := by
  rw [jump, bind_of_ok (load_of_ok _ tested), if_pos taken, bind_of_ok (load_of_ok _ loaded)]
  rfl

omit [Port σ] in
theorem jump_of_missed (bench : Bench σ) {expected : Bool} {cond target : Operand Int} {x : Int}
    (tested : bench.memory.load cond = .ok x) (missed : ¬ ((x != 0) == expected) = true)
    (next : Int) : jump expected cond target next bench = .ok (some next) bench := by
  rw [jump, bind_of_ok (load_of_ok _ tested), if_neg missed]
  rfl

/-- An input that is served is stored, since the address was checked before. -/
theorem input_of_served (bench : Bench σ) {dest value : Int} (inside : bench.memory.inBounds dest)
    (served : (Port.request bench.port).answer = .ok value) (next : Int) :
    input dest next bench = .ok (some next) { replied bench (Port.request bench.port) with
      memory := ⟨bench.memory.cells.setIfInBounds dest.toNat value⟩ } := by
  have stored : (replied bench (Port.request bench.port)).memory.store (.position dest) value =
      .ok ⟨bench.memory.cells.setIfInBounds dest.toNat value⟩ :=
    Memory.write_of_inBounds inside value
  rw [input, bind_of_ok (check_of_inBounds _ inside), bind_of_ok (ask_of_ok _ served),
    bind_of_ok (store_of_ok _ stored)]
  rfl

theorem input_of_outside (bench : Bench σ) {dest : Int} (outside : ¬ bench.memory.inBounds dest)
    (next : Int) : input dest next bench = .error (bench.memory.outOfBounds dest) bench :=
  bind_of_error (check_of_not_inBounds _ outside)

theorem input_of_unserved (bench : Bench σ) {dest : Int} {trouble : Port.Trouble}
    (inside : bench.memory.inBounds dest)
    (unserved : (Port.request bench.port).answer = .error trouble) (next : Int) :
    input dest next bench = .error trouble.stop (replied bench (Port.request bench.port)) := by
  rw [input, bind_of_ok (check_of_inBounds _ inside), bind_of_error (ask_of_error _ unserved)]

theorem output_of_unread (bench : Bench σ) {source : Int}
    (unread : bench.memory.read source = .error stop) (next : Int) :
    output source next bench = .error stop bench :=
  bind_of_error (load_of_error _ unread)

theorem output_of_untaken (bench : Bench σ) {source value : Int} {trouble : Port.Trouble}
    (read : bench.memory.read source = .ok value)
    (untaken : (Port.deliver value bench.port).answer = .error trouble) (next : Int) :
    output source next bench =
      .error trouble.stop (replied bench (Port.deliver value bench.port)) := by
  have loaded : bench.memory.load (.position source) = .ok value := read
  rw [output, bind_of_ok (load_of_ok _ loaded), bind_of_error (ask_of_error _ untaken)]

theorem output_of_taken (bench : Bench σ) {source value : Int}
    (read : bench.memory.read source = .ok value)
    (taken : (Port.deliver value bench.port).answer = .ok ()) (next : Int) :
    output source next bench = .ok (some next)
      { replied bench (Port.deliver value bench.port) with
        outputs := bench.outputs.push value } := by
  have loaded : bench.memory.load (.position source) = .ok value := read
  rw [output, bind_of_ok (load_of_ok _ loaded), bind_of_ok (ask_of_ok _ taken)]
  rfl

end Action

end Intcode
