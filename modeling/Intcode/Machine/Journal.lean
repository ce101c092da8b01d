import Intcode.Log.Record
import Intcode.Machine.Step

/-!
# The journal of a machine

The events that a machine reports, as records for a log: a trace line and a note of the port are
details, a halt is an ordinary event, and a fault is a warning.

An event that names a number with too many digits cannot be put into words and leaves no record.
Whoever listens at its level is then refused the whole report, although the machine has gone on.

## Main definitions

* `Event.record?` — the record of an event
* `Event.records` — the records of some events
* `Report.heardBy` — a report as a listener gets it
-/

namespace Intcode

/-- The level of an event. -/
def Event.level : Event → Int
  | traced _ | noted _ => Log.Level.debug
  | halted .. => Log.Level.info
  | faulted .. => Log.Level.warning

/-- The name of the logger of a machine. -/
def machineLogger : String := "intcode_vm.emu"

/-- The record of a fault, given in words. -/
def faultRecord (steps name message : String) : Log.Record :=
  { level := Log.Level.warning
    logger := machineLogger
    origin := "_fault"
    message := "Faulted after " ++ steps ++ " steps: " ++ name ++ ": " ++ message }

/-- The record of an event. -/
def Event.record? : Event → Option Log.Record
  | traced line => some ⟨Log.Level.debug, machineLogger, "_record_trace", line⟩
  | noted text => some ⟨Log.Level.debug, "intcode_vm.periph.io_port", "request_input", text⟩
  | halted pc steps finalValue outputs => do
    return { level := Log.Level.info
             logger := machineLogger
             origin := "_halt"
             message := "Halted at pc=" ++ (← Numeral.write? pc) ++ " after " ++
               (← Numeral.write? steps) ++ " steps, memory[0]=" ++
               (← Numeral.write? finalValue) ++ ", " ++ (← Numeral.write? outputs) ++
               " output(s)" }
  | faulted steps fault => do
    return faultRecord (← Numeral.write? steps) fault.cause.name (← fault.message?)

/-- The records of some events. -/
def Event.records (events : List Event) : List Log.Record :=
  events.filterMap Event.record?

/-- A report as a listener gets it who hears some levels: refused when an event that is heard cannot
be put into words. -/
def Report.heardBy {σ : Type} (hears : Int → Bool) (r : Report σ) : Report σ :=
  if r.events.any fun e => hears e.level && e.record?.isNone then
    { r with answer := .error .numberTooLong }
  else r

end Intcode
