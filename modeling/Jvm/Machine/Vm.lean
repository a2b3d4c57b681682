import Jvm.Machine.EntryPoint
import Jvm.Machine.Run

/-!
A virtual machine: a class, its settings, its sink and how the last execution ended. An execution
starts afresh, so nothing of an earlier one but what the sink has taken can be seen in it.
-/

set_option autoImplicit false

namespace Jvm

inductive VmState where
  | running
  | returned
  | faulted
  deriving DecidableEq

namespace VmState

def name : VmState -> Bytes
  | running => utf8 "running"
  | returned => utf8 "returned"
  | faulted => utf8 "faulted"

def nameOfNumber : Int -> Bytes
  | 0 => running.name
  | 1 => returned.name
  | 2 => faulted.name
  | _ => utf8 "unknown"

end VmState

inductive VmError where
  | entry (e : EntryError)
  | exec (e : ExecError)
  deriving DecidableEq

def VmError.message : VmError -> Bytes
  | .entry e => e.message
  | .exec e => e.message

structure Vm where
  classFile : ClassFile
  slots : Int
  maxSteps : Int
  sink : Sink
  state : VmState
  steps : Nat
  error : Option VmError
  deriving DecidableEq

def defaultSlots : Nat := 4

namespace Vm

def start (c : ClassFile) : Vm :=
  { classFile := c, slots := defaultSlots, maxSteps := 0, sink := .unlimited, state := .running,
    steps := 0, error := none }

/-- The number of local slots of an execution; a setting that is not positive means the default. -/
def slotCount (vm : Vm) : Nat := if vm.slots <= 0 then defaultSlots else vm.slots.toNat

/-- Find the entry point and run it for at most `rounds` rounds. The result is the machine afterwards
and the trace; none when the run has not ended by then. -/
def execute (rounds : Nat) (vm : Vm) : Option (Vm × List TraceEntry) :=
  match vm.classFile.entryPoint with
  | .error e => some ({ vm with state := .faulted, steps := 0, error := some (.entry e) }, [])
  | .ok code =>
    let machine := { frame := Frame.start vm.slotCount code, sink := vm.sink }
    match (Progress.start machine).run vm.classFile vm.maxSteps rounds with
    | none => none
    | some ended =>
      let p := ended.progress
      some
        ({ vm with
            sink := p.machine.sink
            steps := p.steps
            state := if ended.error.isSome then .faulted else .returned
            error := ended.error.map .exec },
          p.trace)

end Vm

end Jvm
