import Ndse.IpcFifo

/-!
# The status bits of the queues

The control word at `0x184` shows whether the own queue and the queue of the
other processor are empty and full.  The copy of the other side starts out as
zero, although that queue starts out empty, and is right from the first word
the other processor sends.
-/

namespace Ndse

open LabelledRun

/-- The status bits of a control word, for the own queue and the other one. -/
structure ShowsStatus (value : BitVec 32) (own remote : Fifo) : Prop where
  ownEmpty : value.getLsbD 0 = own.empty
  ownFull : value.getLsbD 1 = own.full
  remoteEmpty : value.getLsbD 8 = remote.empty
  remoteFull : value.getLsbD 9 = remote.full

/-- A load of the control word shows the status of both queues. -/
def StatusMirrored (state : IoState) (cpu : Cpu) : Prop :=
  ∀ addr, addr4k addr = 0x184 →
    ShowsStatus (state.load32 cpu addr).2 (state.regs cpu).ipcFifo (state.regs cpu.remote).ipcFifo

/-- The bits that `flag_fifo` copies. -/
structure Copies (fifocnt : BitVec 32) (fifo : Fifo) : Prop where
  empty : fifocnt.getLsbD 8 = fifo.empty
  full : fifocnt.getLsbD 9 = fifo.full

namespace Fifo

@[simp]
theorem state_zero (fifo : Fifo) : fifo.state[0] = fifo.empty := by
  rw [Fifo.state]
  cases fifo.empty <;> cases fifo.full <;> rfl

@[simp]
theorem state_one (fifo : Fifo) : fifo.state[1] = fifo.full := by
  rw [Fifo.state]
  cases fifo.empty <;> cases fifo.full <;> rfl

end Fifo

theorem copies_flagged (fifocnt : BitVec 32) (fifo : Fifo) :
    Copies (flagged fifocnt fifo.state) fifo := by
  constructor <;> simp [flagged]

theorem getFifocnt_eq (regs : IoRegs) :
    regs.getFifocnt = (regs.ipcFifocnt &&& 0xFFFFFFFC) ||| regs.ipcFifo.state := rfl

theorem state_high (fifo : Fifo) (i : Nat) (high : 2 ≤ i) : fifo.state.getLsbD i = false := by
  have small : fifo.state.toNat < 2 ^ i := by
    have bounded : fifo.state.toNat < 2 ^ 2 := by
      rw [Fifo.state]
      cases fifo.empty <;> cases fifo.full <;> decide
    exact bounded.trans_le (Nat.pow_le_pow_right (by decide) high)
  exact Nat.testBit_lt_two_pow small

/-- The own bits are computed; those of the other queue are right when the
copy is. -/
theorem showsStatus_getFifocnt_iff (regs : IoRegs) (remote : Fifo) :
    ShowsStatus regs.getFifocnt regs.ipcFifo remote ↔ Copies regs.ipcFifocnt remote := by
  have copied (i : Nat) (high : 2 ≤ i) (inside : (0xFFFFFFFC : BitVec 32).getLsbD i = true) :
      regs.getFifocnt.getLsbD i = regs.ipcFifocnt.getLsbD i := by
    rw [getFifocnt_eq, BitVec.getLsbD_or, BitVec.getLsbD_and, inside, state_high _ i high,
      Bool.and_true, Bool.or_false]
  constructor
  · intro shows
    constructor
    · rw [← copied 8 (by decide) (by decide), shows.remoteEmpty]
    · rw [← copied 9 (by decide) (by decide), shows.remoteFull]
  · intro copies
    constructor
    · simp [getFifocnt_eq]
    · simp [getFifocnt_eq]
    · rw [copied 8 (by decide) (by decide), copies.empty]
    · rw [copied 9 (by decide) (by decide), copies.full]

/-! ### The copies along a run -/

/-- The access sends a word from a processor. -/
def IpcAccess.Sends (cpu : Cpu) : IpcAccess → Prop
  | .store sender .word addr _ => sender = cpu ∧ addr4k addr = 0x188
  | _ => False

namespace Channel

/-- Before the first word of the other processor its queue is empty and the
copy shows no bit; from then on the copy is right. -/
def CopyFollows (channel : Channel) (cpu : Cpu) : Prop :=
  if channel.sent cpu.remote = [] then
    (channel.io.channel cpu.remote).ipcFifo.empty = true ∧
      (channel.io.channel cpu).ipcFifocnt.getLsbD 8 = false
  else Copies (channel.io.channel cpu).ipcFifocnt (channel.io.channel cpu.remote).ipcFifo

/-- Both copies follow, the queues are accounted for and no callback changes
what is read. -/
structure Tracks (channel : Channel) : Prop where
  sound : channel.Sound
  follows : ∀ cpu, channel.CopyFollows cpu
  quiet : ∀ cpu, (channel.io.channel cpu).readcbs = []

theorem Tracks.silent {channel next : Channel} (tracks : channel.Tracks)
    (same : next.io.channel = channel.io.channel) (sent : next.sent = channel.sent)
    (received : next.received = channel.received) : next.Tracks where
  sound := tracks.sound.silent same sent received
  follows := by
    intro cpu
    rw [CopyFollows, same, sent]
    exact tracks.follows cpu
  quiet := by
    rw [same]
    exact tracks.quiet

theorem Tracks.send {channel : Channel} (tracks : channel.Tracks) (cpu : Cpu) {addr : BitVec 32}
    (value : BitVec 32) (sends : addr4k addr = 0x188)
    (room : (channel.io.regs cpu).ipcFifo.full = false) :
    (channel.step (.store cpu .word addr value)).Tracks := by
  have queues : (channel.step (.store cpu .word addr value)).io.channel = _ :=
    IoState.channel_send channel.io cpu value sends
  obtain ⟨own, other⟩ := IoState.channel_sendFifo channel.io cpu.remote_ne
    (channel.io.sentWord cpu addr value)
  have sent : (channel.step (.store cpu .word addr value)).sent = Function.update channel.sent cpu
      (channel.sent cpu ++ [channel.io.sentWord cpu addr value]) := if_pos sends
  refine ⟨tracks.sound.send cpu value sends room, ?_, ?_⟩
  · intro reader
    rw [CopyFollows, queues, sent]
    rcases cpu.eq_or_eq_remote reader with rfl | rfl
    · rw [own, other, Function.update_of_ne reader.remote_ne]
      exact tracks.follows reader
    · rw [Cpu.remote_remote, own, other, Function.update_self, if_neg (by simp)]
      exact copies_flagged _ _
  · intro reader
    rw [queues]
    rcases cpu.eq_or_eq_remote reader with rfl | rfl
    · rw [own]
      exact tracks.quiet _
    · rw [other]
      exact tracks.quiet _

theorem Tracks.receive {channel : Channel} (tracks : channel.Tracks) (cpu : Cpu)
    {addr : BitVec 32} (atStart : addr.setWidth 9 = (0 : BitVec 9))
    (filled : (channel.io.regs cpu.remote).ipcFifo.empty = false) :
    (channel.step (.receive cpu addr)).Tracks := by
  have queues : (channel.step (.receive cpu addr)).io.channel = _ :=
    congrArg (fun result => IoState.channel result.1) (channel.io.receive_eq cpu addr)
  obtain ⟨-, other, own⟩ := IoState.channel_receiveFifo channel.io cpu.remote_ne atStart filled
  have sentBefore : channel.sent cpu.remote ≠ [] := by
    intro nothing
    have follows := tracks.follows cpu
    rw [CopyFollows, if_pos nothing] at follows
    exact absurd (follows.1.symm.trans filled) (by decide)
  refine ⟨tracks.sound.receive cpu atStart filled, ?_, ?_⟩
  · intro reader
    rw [CopyFollows, queues]
    rcases cpu.eq_or_eq_remote reader with rfl | rfl
    · rw [own, other]
      exact (if_neg sentBefore).mpr (copies_flagged _ _)
    · rw [Cpu.remote_remote, own, other]
      have follows := tracks.follows cpu.remote
      rwa [CopyFollows, Cpu.remote_remote] at follows
  · intro reader
    rw [queues]
    rcases cpu.eq_or_eq_remote reader with rfl | rfl
    · rw [own]
      exact tracks.quiet _
    · rw [other]
      exact tracks.quiet _

theorem Tracks.step {channel : Channel} (tracks : channel.Tracks) {access : IpcAccess}
    (allowed : channel.Allowed access) : (channel.step access).Tracks := by
  cases access with
  | store cpu width addr value =>
      rcases allowed with silent | ⟨rfl, sends, room⟩
      · obtain ⟨same, sent⟩ := channel.step_silent cpu width value silent
        exact tracks.silent same sent rfl
      · exact tracks.send cpu value sends room
  | load cpu width addr =>
      exact tracks.silent (IoState.channel_load channel.io cpu width addr) rfl rfl
  | receive cpu addr => exact tracks.receive cpu allowed.1 allowed.2

theorem tracks_boot : (start .boot).Tracks where
  sound := sound_start fun _ => rfl
  follows := fun _ => (if_pos rfl).mpr ⟨rfl, BitVec.getLsbD_zero⟩
  quiet := fun _ => rfl

theorem step_sent_ne_nil (channel : Channel) (access : IpcAccess) (cpu : Cpu) :
    (channel.step access).sent cpu ≠ [] ↔ channel.sent cpu ≠ [] ∨ access.Sends cpu := by
  cases access with
  | store sender width addr value =>
      cases width with
      | word =>
          by_cases sends : addr4k addr = 0x188
          · have sent : (channel.step (.store sender .word addr value)).sent = _ := if_pos sends
            by_cases own : sender = cpu
            · subst own
              simp [sent, IpcAccess.Sends, sends]
            · simp [sent, IpcAccess.Sends, own, Function.update_of_ne (Ne.symm own)]
          · have sent : (channel.step (.store sender .word addr value)).sent = _ := if_neg sends
            have silent : ¬ (IpcAccess.store sender .word addr value).Sends cpu :=
              fun sent => sends sent.2
            rw [sent, or_iff_left silent]
      | half => simp [step, IpcAccess.Sends]
      | byte => simp [step, IpcAccess.Sends]
  | load _ _ _ => simp [step, IpcAccess.Sends]
  | receive _ _ => simp [step, IpcAccess.Sends]

theorem foldl_sent_ne_nil (channel : Channel) (accesses : List IpcAccess) (cpu : Cpu) :
    (accesses.foldl step channel).sent cpu ≠ [] ↔
      channel.sent cpu ≠ [] ∨ ∃ access ∈ accesses, access.Sends cpu := by
  induction accesses generalizing channel with
  | nil => simp
  | cons access accesses ih =>
      rw [List.foldl_cons, ih, step_sent_ne_nil, or_assoc]
      simp

theorem Tracks.copies_iff {channel : Channel} (tracks : channel.Tracks) (cpu : Cpu) :
    Copies (channel.io.regs cpu).ipcFifocnt (channel.io.regs cpu.remote).ipcFifo ↔
      channel.sent cpu.remote ≠ [] := by
  have follows := tracks.follows cpu
  rw [CopyFollows] at follows
  split at follows
  · next nothing =>
    refine ⟨fun copies => ?_, fun some => absurd nothing some⟩
    exact absurd (follows.2.symm.trans (copies.empty.trans follows.1)) (by decide)
  · next some => exact ⟨fun _ => some, fun _ => follows⟩

end Channel

theorem load32_control (state : IoState) (cpu : Cpu) {addr : BitVec 32}
    (control : addr4k addr = 0x184) (quiet : (state.channel cpu).readcbs = []) :
    (state.load32 cpu addr).2 = (state.regs cpu).getFifocnt := by
  have callbacks : (state.regs cpu).readcbs = [] := quiet
  cases cpu with
  | arm9 => simp [IoState.load32, Registers9.load32, IoRegs.readcb, control, callbacks]
  | arm7 => simp [IoState.load32, Registers7.load32, IoRegs.readcb, control, callbacks]

theorem statusMirrored_iff {state : IoState} {cpu : Cpu}
    (quiet : (state.channel cpu).readcbs = []) :
    StatusMirrored state cpu ↔
      Copies (state.regs cpu).ipcFifocnt (state.regs cpu.remote).ipcFifo := by
  constructor
  · intro mirrored
    have shows := mirrored 0x184 rfl
    rwa [load32_control state cpu rfl quiet, showsStatus_getFifocnt_iff] at shows
  · intro copies addr control
    rw [load32_control state cpu control quiet, showsStatus_getFifocnt_iff]
    exact copies

/-- After any run from construction the control word of a processor shows the
status of both queues exactly when the other processor has sent a word. -/
theorem statusMirrored_iff_sent (accesses : List IpcAccess) (cpu : Cpu)
    (allowed : EveryStep Channel.step Channel.Allowed (Channel.start .boot) accesses) :
    StatusMirrored (accesses.foldl Channel.step (Channel.start .boot)).io cpu ↔
      ∃ access ∈ accesses, access.Sends cpu.remote := by
  have tracks : (accesses.foldl Channel.step (Channel.start .boot)).Tracks :=
    invariant_foldl (fun _ _ tracks allowed => tracks.step allowed) Channel.tracks_boot allowed
  rw [statusMirrored_iff (tracks.quiet cpu), tracks.copies_iff, Channel.foldl_sent_ne_nil]
  simp [Channel.start]

theorem statusMirrored_iff_sent_exchange :
    StatusMirrored (exchange.foldl Channel.step (Channel.start .boot)).io .arm9 ↔
      ∃ access ∈ exchange, access.Sends .arm7 :=
  statusMirrored_iff_sent exchange .arm9 (by decide)

/-- As constructed no control word shows that the other queue is empty. -/
theorem statusMirrored_fails_at_boot :
    ¬ ∀ accesses cpu,
      EveryStep Channel.step Channel.Allowed (Channel.start .boot) accesses →
        StatusMirrored (accesses.foldl Channel.step (Channel.start .boot)).io cpu := by
  intro mirrored
  have shows := mirrored [] .arm9 trivial 0x184 rfl
  exact absurd shows.remoteEmpty (by decide)

end Ndse
