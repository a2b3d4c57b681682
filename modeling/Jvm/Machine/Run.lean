import Jvm.Machine.Instruction

/-!
The run loop: fetch, check, observe, execute, until the frame returns or a fault ends the run. A run
may go on for ever, so the loop takes the number of rounds it is allowed; a run that ends within them
ends the same way within more.
-/

set_option autoImplicit false

namespace Jvm

/-- What an observer sees just before an instruction executes: its byte and the frame. -/
structure TraceEntry where
  opcode : UInt8
  frame : Frame
  deriving DecidableEq

namespace TraceEntry

def pc (e : TraceEntry) : Int := e.frame.pc

def depth (e : TraceEntry) : Nat := e.frame.depth

end TraceEntry

/-- A run in progress: the machine, the number of instructions executed and what was observed of
them, latest first. -/
structure Progress where
  machine : Machine
  steps : Nat
  history : List TraceEntry
  deriving DecidableEq

namespace Progress

def start (m : Machine) : Progress := { machine := m, steps := 0, history := [] }

def trace (p : Progress) : List TraceEntry := p.history.reverse

end Progress

/-- A finished run. Without an error the frame has returned. -/
structure Ended where
  progress : Progress
  error : Option ExecError
  deriving DecidableEq

/-- The instruction at a position: it must lie in the code, be known and have all its operands. -/
def fetch (code : Bytes) (pc : Int) : Except ExecError Opcode :=
  match pc with
  | .negSucc _ => .error ⟨pc, 0, .noInstruction⟩
  | .ofNat i =>
    if i < codeStart then .error ⟨pc, 0, .noInstruction⟩
    else
      match code.drop i with
      | [] => .error ⟨pc, 0, .noInstruction⟩
      | b :: operands =>
        match Opcode.ofByte? b with
        | none => .error ⟨pc, b, .unsupportedOpcode⟩
        | some op =>
          if operands.length + 1 < op.width then .error ⟨pc, b, .operandsTruncated⟩ else .ok op

/-- Whether a step limit is used up; a limit that is not positive never is. -/
def limitReached (maxSteps : Int) (steps : Nat) : Bool := 0 < maxSteps && maxSteps <= steps

inductive Round where
  | ended (e : Ended)
  | next (p : Progress)
  deriving DecidableEq

def Progress.round (c : ClassFile) (maxSteps : Int) (p : Progress) : Round :=
  let frame := p.machine.frame
  match fetch frame.code frame.pc with
  | .error e => .ended ⟨p, some e⟩
  | .ok op =>
    if limitReached maxSteps p.steps then .ended ⟨p, some ⟨frame.pc, op.byte, .stepLimit⟩⟩
    else
      let history := ⟨op.byte, frame⟩ :: p.history
      let passed := { p.machine with frame := { frame with pc := frame.pc + 1 } }
      match Machine.execute c op passed with
      | .ok returned m =>
        let p := { machine := m, steps := p.steps + 1, history := history }
        if returned then .ended ⟨p, none⟩ else .next p
      | .error f m =>
        .ended ⟨{ machine := m, steps := p.steps + 1, history := history },
          some ⟨frame.pc, op.byte, f⟩⟩

/-- Run for at most `rounds` rounds; none when the run has not ended by then. -/
def Progress.run (c : ClassFile) (maxSteps : Int) (rounds : Nat) (p : Progress) : Option Ended :=
  match rounds with
  | 0 => none
  | rounds + 1 =>
    match p.round c maxSteps with
    | .ended e => some e
    | .next p => p.run c maxSteps rounds

end Jvm
