import Ndse.Processor

/-!
# Interrupt dispatch

Interrupts are signalled into one pending word and dispatched by polling.
`poll_process` takes the whole word with an atomic exchange and scans it bit by
bit against the enable register, running the guest's handler for each bit on a
fresh register bank.  The handler is guest code: it can write the enable
registers, and other threads fire interrupts at any time.  The scan is
therefore split into its iterations, so that every interleaving is a list of
labels.
-/

namespace Ndse

/-- Where the emulator's control is: in guest code, at the head of the scan loop
of `poll_process`, or in the handler that the scan invoked.  The scan holds the
word it took and the position of its one-bit mask; the handler's frame also
holds the context that `switch_and_invoke_old` saved. -/
inductive PollPhase
  | guest
  | scan (intr : BitVec 32) (bit : Nat)
  | handler (intr : BitVec 32) (bit : Nat) (backup : EmulationContext)
deriving DecidableEq

/-- The state `interrupt<T>` works on, with a log of the value that `IF` had at
each invocation of the handler. -/
structure InterruptState where
  signaled : BitVec 32
  inside : Bool
  ime : BitVec 32
  ie : BitVec 32
  iflag : BitVec 32
  dispstat : BitVec 32
  processor : Processor
  phase : PollPhase
  invocations : List (BitVec 32)

/-- What can happen next: a signal from any thread, a guest store to an enable
register, guest code that moves the processor on, the poll at a branch, one
iteration of the scan (which reads the handler's address from the working
stack), and the return of the handler. -/
inductive InterruptLabel
  | fire (interrupt : Fin 32)
  | writeIE (value : BitVec 32)
  | writeIME (value : BitVec 32)
  | compute (processor : Processor)
  | poll
  | scan (irqHandler : BitVec 32)
  | leave

namespace InterruptState

def boot : InterruptState where
  signaled := 0
  inside := false
  ime := 0
  ie := 0
  iflag := 0
  dispstat := 0
  processor := Processor.boot
  phase := .guest
  invocations := []

/-- `interrupt::fire`; interrupt 0 is the vertical blank. -/
def fire (state : InterruptState) (interrupt : Fin 32) : InterruptState :=
  { state with
    signaled := state.signaled ||| BitVec.twoPow 32 interrupt
    dispstat := if interrupt = 0 then state.dispstat ||| 1 else state.dispstat }

/-- The gates at the head of `poll_process`. -/
def pollEnters (state : InterruptState) : Prop :=
  state.inside = false ∧ state.ime &&& 1 ≠ 0

instance (state : InterruptState) : Decidable state.pollEnters :=
  inferInstanceAs (Decidable (_ ∧ _))

/-- The head of `poll_process`: take the pending word.  The second processor's
version filters it at once. -/
def poll (cpu : Cpu) (state : InterruptState) : InterruptState :=
  if state.pollEnters then
    { state with
      signaled := 0
      phase := .scan (match cpu with
        | .arm9 => state.signaled
        | .arm7 => state.signaled &&& state.ie) 0 }
  else state

/-- The first half of `switch_and_invoke_old`: switch to the interrupt bank and
enter the handler. -/
def enterHandler (state : InterruptState) (intr : BitVec 32) (bit : Nat)
    (irqHandler : BitVec 32) : InterruptState :=
  let switched := (loadcpsr state.processor 0x12 0x1F).1
  { state with
    processor := switched.writeReg 15 irqHandler
    inside := true
    phase := .handler intr bit state.processor.ctx
    invocations := state.invocations ++ [state.iflag] }

/-- One iteration of the scan loop, which ends when the mask is shifted out. -/
def scan (state : InterruptState) (intr : BitVec 32) (bit : Nat)
    (irqHandler : BitVec 32) : InterruptState :=
  let mask := BitVec.twoPow 32 bit
  if mask = 0 then { state with phase := .guest }
  else
    let itr := intr &&& mask &&& state.ie
    if itr ≠ 0 then
      { state with iflag := itr }.enterHandler intr bit irqHandler
    else { state with phase := .scan intr (bit + 1) }

/-- The second half of `switch_and_invoke_old`: restore the context. -/
def leave (state : InterruptState) (intr : BitVec 32) (bit : Nat)
    (backup : EmulationContext) : InterruptState :=
  let switched := (loadcpsr state.processor backup.cpsr 0x1F).1
  { state with
    processor := switched.setCtx backup
    inside := false
    phase := .scan intr (bit + 1) }

/-- The transition function.  Polls and guest computations come from guest code,
so they do nothing while the scan itself is running; an iteration or a return
does nothing outside its phase. -/
def step (cpu : Cpu) (state : InterruptState) : InterruptLabel → InterruptState
  | .fire interrupt => state.fire interrupt
  | .writeIE value => { state with ie := value }
  | .writeIME value => { state with ime := value }
  | .compute processor =>
      match state.phase with
      | .scan _ _ => state
      | _ => { state with processor := processor }
  | .poll =>
      match state.phase with
      | .scan _ _ => state
      | _ => state.poll cpu
  | .scan irqHandler =>
      match state.phase with
      | .scan intr bit => state.scan intr bit irqHandler
      | _ => state
  | .leave =>
      match state.phase with
      | .handler intr bit backup => state.leave intr bit backup
      | _ => state

end InterruptState

end Ndse
