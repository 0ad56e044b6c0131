import Ndse.CompilerSizes
import Ndse.Library.FlatAssertions

/-!
# The stack of translated code

Translated code leaves the host stack as it found it.  How deep the stack is at
each instruction is known without running the code: most of the code does not
touch it, and where words are pushed they are taken off again before the code
ends or branches.
-/

namespace Ndse

open FlatCode

/-! ### Depths -/

/-- The most that an instruction has on the stack, in bytes. -/
def stackRoom : Nat := 80

namespace HostInstr

/-- Instructions that leave the stack pointer and go on with the next one, if
they go on at all. -/
def quiet : HostInstr → Bool
  | push _ | pushEbp | pushEsp | pop _ | popEax _ | addEsp _ | subEsp _ => false
  | jcc _ _ | jmp _ | jmpBranch => false
  | mov _ _ | alu _ _ _ | not _ | neg _ | inc _ | dec _ | mul _ | imul _ | cdq | movsxEaxAl
  | cmovaEcxEsi | shift _ _ | shiftCl _ | shlEcx | shrEsi _ | rcl _ | rcr _ | rorAl | cmc
  | setoAl | lahf | sahf | leaEbx | leaEax _ | movEbpEax | nop | call _ | iret => true

/-- How many bytes an instruction takes from the stack. -/
def popped : HostInstr → Nat
  | pop _ | popEax _ => 4
  | addEsp amount => amount.toNat
  | _ => 0

/-- The depth behind an instruction, if there is enough on the stack and enough
room; only an empty stack may be left by a branch. -/
def track (instr : HostInstr) (depth : Nat) : Option Nat :=
  match instr with
  | push _ | pushEbp | pushEsp => if depth + 4 ≤ stackRoom then some (depth + 4) else none
  | pop _ | popEax _ => if 4 ≤ depth then some (depth - 4) else none
  | addEsp amount => if amount.toNat ≤ depth then some (depth - amount.toNat) else none
  | subEsp amount =>
      if depth + amount.toNat ≤ stackRoom then some (depth + amount.toNat) else none
  | jmpBranch => if depth = 0 then some 0 else none
  | jcc _ _ | jmp _ => none
  | mov _ _ | alu _ _ _ | not _ | neg _ | inc _ | dec _ | mul _ | imul _ | cdq | movsxEaxAl
  | cmovaEcxEsi | shift _ _ | shiftCl _ | shlEcx | shrEsi _ | rcl _ | rcr _ | rorAl | cmc
  | setoAl | lahf | sahf | leaEbx | leaEax _ | movEbpEax | nop | call _ | iret => some depth

theorem track_of_quiet {instr : HostInstr} (quiet : instr.quiet = true) (depth : Nat) :
    instr.track depth = some depth := by
  cases instr
  case push | pushEbp | pushEsp | pop | popEax | addEsp | subEsp | jcc | jmp | jmpBranch =>
    exact absurd quiet Bool.false_ne_true
  all_goals rfl

end HostInstr

theorem HostInstr.popped_of_quiet {instr : HostInstr} (quiet : instr.quiet = true) :
    instr.popped = 0 := by
  cases instr
  case pop | popEax | addEsp => exact absurd quiet Bool.false_ne_true
  all_goals rfl

/-- All instructions of some code leave the stack alone. -/
def Quiet (code : List HostInstr) : Prop := ∀ instr ∈ code, instr.quiet = true

@[simp]
theorem quiet_nil : Quiet [] := by simp [Quiet]

@[simp]
theorem quiet_cons (instr : HostInstr) (code : List HostInstr) :
    Quiet (instr :: code) ↔ instr.quiet = true ∧ Quiet code := by
  simp [Quiet]

@[simp]
theorem quiet_append (first second : List HostInstr) :
    Quiet (first ++ second) ↔ Quiet first ∧ Quiet second := by
  simp [Quiet, or_imp, forall_and]

@[simp]
theorem quiet_ite {condition : Prop} [Decidable condition] {first second : List HostInstr} :
    Quiet (if condition then first else second) ↔
      (condition → Quiet first) ∧ (¬condition → Quiet second) := by
  split <;> simp_all

/-- The depth behind some code. -/
def track : List HostInstr → Nat → Option Nat
  | [], depth => some depth
  | instr :: code, depth => (instr.track depth).bind (track code)

@[simp]
theorem track_nil (depth : Nat) : track [] depth = some depth := rfl

@[simp]
theorem track_cons (instr : HostInstr) (code : List HostInstr) (depth : Nat) :
    track (instr :: code) depth = (instr.track depth).bind (track code) := rfl

@[simp]
theorem track_append (first second : List HostInstr) (depth : Nat) :
    track (first ++ second) depth = (track first depth).bind (track second) := by
  induction first generalizing depth with
  | nil => rfl
  | cons instr first ih =>
      rw [List.cons_append, track_cons, track_cons, Option.bind_assoc]
      exact congrArg _ (funext ih)

theorem track_of_quiet {code : List HostInstr} (quiet : Quiet code) (depth : Nat) :
    track code depth = some depth := by
  induction code with
  | nil => rfl
  | cons instr code ih =>
      obtain ⟨now, later⟩ := (quiet_cons instr code).mp quiet
      rw [track_cons, HostInstr.track_of_quiet now, Option.bind_some, ih later]

/-! ### What the host does -/

section Host

variable {World : Type} (env : HostEnv World)

namespace HostState

@[simp]
theorem write_esp (state : HostState World) (dst : Operand) (value : BitVec 32) :
    (state.write dst value).esp = state.esp := by
  cases dst <;> rfl

theorem poke_esp (state : HostState World) (pointer value : BitVec 32) :
    (state.poke env pointer value).esp = state.esp := by
  rw [poke]
  split <;> rfl

theorem pokeWords_esp (state : HostState World) (pointer : BitVec 32) (words : List (BitVec 32)) :
    (state.pokeWords env pointer words).esp = state.esp := by
  induction words generalizing state pointer with
  | nil => rfl
  | cons word words ih => rw [pokeWords, ih, poke_esp]

theorem call_esp (state : HostState World) (helper : Helper) :
    (state.call env helper).esp = state.esp := by
  have effect : (state.helperEffect env helper).1.esp = state.esp := by
    cases helper with
    | load32Array => exact pokeWords_esp env _ _ _
    | _ => rfl
  exact effect

end HostState

/-- The stack pointer is so many bytes below its entry value. -/
def Below (entry : BitVec 32) (depth : Nat) (state : HostState World) : Prop :=
  state.esp = entry - BitVec.ofNat 32 depth

/-- An instruction finds the stack deep enough, and a branch finds it empty. -/
def Permits (entry : BitVec 32) (instr : HostInstr) (state : HostState World) : Prop :=
  ∃ depth ≤ stackRoom, Below entry depth state ∧ instr.popped ≤ depth ∧
    (instr = .jmpBranch → depth = 0)

variable {env} {entry : BitVec 32} {depth after : Nat} {instr : HostInstr}
  {state next : HostState World} {displacement : Int}

theorem apply_esp (quiet : instr.quiet = true) : (instr.apply env state).esp = state.esp := by
  cases instr
  case push | pushEbp | pushEsp | pop | popEax | addEsp | subEsp | jcc | jmp | jmpBranch =>
    exact absurd quiet Bool.false_ne_true
  case call helper => exact HostState.call_esp env state helper
  case mov dst src | not dst => exact HostState.write_esp _ _ _
  case neg dst | dec dst => exact HostState.write_esp _ _ _
  case alu op dst src =>
    simp only [HostInstr.apply]
    split
    · exact HostState.write_esp _ _ _
    · rfl
  case cmovaEcxEsi =>
    simp only [HostInstr.apply]
    split <;> rfl
  all_goals rfl

/-- A trap does not go on at all. -/
theorem quiet_esp (quiet : instr.quiet = true)
    (executed : instr.exec env state = some (next, displacement)) :
    displacement = 0 ∧ next.esp = state.esp := by
  cases straight : instr.straight with
  | true =>
      rw [HostInstr.exec_of_straight env straight] at executed
      obtain ⟨rfl, rfl⟩ := Prod.mk.inj (Option.some.inj executed)
      exact ⟨rfl, apply_esp quiet⟩
  | false =>
      cases instr
      case jcc | jmp | jmpBranch => exact absurd quiet Bool.false_ne_true
      case iret => cases executed
      case movEbpEax =>
        obtain ⟨mode, _, same⟩ := Option.map_eq_some_iff.mp executed
        obtain ⟨rfl, rfl⟩ := Prod.mk.inj same
        exact ⟨rfl, rfl⟩
      all_goals exact absurd straight.symm Bool.false_ne_true

theorem eq_of_ite_some {condition : Prop} [Decidable condition] {value result : Nat}
    (chosen : (if condition then some value else none) = some result) :
    condition ∧ result = value := by
  split at chosen
  · next holds => exact ⟨holds, (Option.some.inj chosen).symm⟩
  · cases chosen

theorem popped_le (tracked : instr.track depth = some after) : instr.popped ≤ depth := by
  cases instr
  case pop | popEax | addEsp => exact (eq_of_ite_some tracked).1
  all_goals exact Nat.zero_le depth

theorem track_le (tracked : instr.track depth = some after) (room : depth ≤ stackRoom) :
    after ≤ stackRoom := by
  cases instr
  case push | pushEbp | pushEsp | subEsp =>
    obtain ⟨enough, rfl⟩ := eq_of_ite_some tracked
    exact enough
  case pop | popEax | addEsp =>
    obtain ⟨_, rfl⟩ := eq_of_ite_some tracked
    exact (Nat.sub_le _ _).trans room
  case jmpBranch =>
    obtain ⟨_, rfl⟩ := eq_of_ite_some tracked
    exact Nat.zero_le stackRoom
  case jcc | jmp => cases tracked
  all_goals exact Option.some.inj tracked ▸ room

theorem Below.grow (below : Below entry depth state) (amount : BitVec 32)
    (lower : next.esp = state.esp - amount) : Below entry (depth + amount.toNat) next := by
  rw [Below] at below ⊢
  rw [lower, below]
  bv_omega

theorem Below.shrink (below : Below entry depth state) (amount : BitVec 32)
    (enough : amount.toNat ≤ depth) (higher : next.esp = state.esp + amount) :
    Below entry (depth - amount.toNat) next := by
  rw [Below] at below ⊢
  rw [higher, below]
  bv_omega

/-- What is tracked is what happens. -/
theorem below_of_track (tracked : instr.track depth = some after) (below : Below entry depth state)
    (executed : instr.exec env state = some (next, displacement)) :
    displacement = 0 ∧ Below entry after next := by
  cases instr
  case push | pushEbp | pushEsp =>
    obtain ⟨_, rfl⟩ := eq_of_ite_some tracked
    obtain ⟨rfl, rfl⟩ := Prod.mk.inj (Option.some.inj executed)
    exact ⟨rfl, below.grow 4 rfl⟩
  case subEsp amount =>
    obtain ⟨_, rfl⟩ := eq_of_ite_some tracked
    obtain ⟨rfl, rfl⟩ := Prod.mk.inj (Option.some.inj executed)
    exact ⟨rfl, below.grow amount rfl⟩
  case pop =>
    obtain ⟨enough, rfl⟩ := eq_of_ite_some tracked
    obtain ⟨rfl, rfl⟩ := Prod.mk.inj (Option.some.inj executed)
    exact ⟨rfl, below.shrink 4 enough (HostState.write_esp _ _ _)⟩
  case popEax =>
    obtain ⟨enough, rfl⟩ := eq_of_ite_some tracked
    obtain ⟨rfl, rfl⟩ := Prod.mk.inj (Option.some.inj executed)
    exact ⟨rfl, below.shrink 4 enough (HostState.poke_esp env _ _ _)⟩
  case addEsp amount =>
    obtain ⟨enough, rfl⟩ := eq_of_ite_some tracked
    obtain ⟨rfl, rfl⟩ := Prod.mk.inj (Option.some.inj executed)
    exact ⟨rfl, below.shrink amount enough rfl⟩
  case jcc | jmp => cases tracked
  case jmpBranch => cases executed
  all_goals
    obtain rfl := Option.some.inj tracked
    obtain ⟨straight, esp⟩ := quiet_esp rfl executed
    exact ⟨straight, esp.trans below⟩

theorem asserts_of_track {code : List HostInstr} (tracked : track code depth = some after)
    (room : depth ≤ stackRoom) :
    Asserts (hostIsa env) (Permits entry) code (Below entry depth) (Below entry after) := by
  induction code generalizing depth with
  | nil =>
      obtain rfl := Option.some.inj tracked
      exact asserts_nil fun _ below => below
  | cons instr code ih =>
      obtain ⟨middle, now, later⟩ := Option.bind_eq_some_iff.mp tracked
      refine Asserts.cons (fun state below => ⟨⟨depth, room, below, popped_le now, ?_⟩,
        fun next displacement executed => below_of_track now below executed⟩)
        (ih later (track_le now room))
      rintro rfl
      exact (eq_of_ite_some now).1

/-! ### Code that leaves the stack as it finds it -/

variable (env) in
/-- On no path through some code is more taken from the stack than was pushed, and
nothing is left on it. -/
def Neutral (code : List HostInstr) : Prop :=
  ∀ entry, Asserts (hostIsa env) (Permits entry) code (Below entry 0) (Below entry 0)

variable {first second code : List HostInstr}

theorem neutral_of_track (tracked : track code 0 = some 0) : Neutral env code :=
  fun _ => asserts_of_track tracked (Nat.zero_le stackRoom)

theorem neutral_of_quiet (quiet : Quiet code) : Neutral env code :=
  neutral_of_track (track_of_quiet quiet 0)

theorem Neutral.append (one : Neutral env first) (other : Neutral env second) :
    Neutral env (first ++ second) := fun entry => (one entry).append (other entry)

theorem Neutral.cons (quiet : instr.quiet = true) (neutral : Neutral env code) :
    Neutral env (instr :: code) :=
  (neutral_of_quiet (by simpa using quiet) : Neutral env [instr]).append neutral

/-- A conditional jump over neutral code. -/
theorem Neutral.skip (neutral : Neutral env code) (cond : JumpCond) :
    Neutral env (.jcc cond (Compiler.bytes code) :: code) := by
  refine fun entry => Asserts.skip (fun state below => ⟨⟨0, Nat.zero_le _, below, Nat.le_refl 0,
    fun _ => rfl⟩, fun next displacement executed => ?_⟩) (neutral entry)
  obtain ⟨rfl, rfl⟩ := Prod.mk.inj (Option.some.inj executed)
  refine ⟨?_, below⟩
  split
  · exact .inr rfl
  · exact .inl rfl

theorem quiet_leadsTo {position : Nat} (found : fetch (hostIsa env) code position = some instr)
    (quiet : instr.quiet = true) (below : Below entry 0 state) :
    LeadsTo (hostIsa env) code (fun _ => Below entry 0) position instr state := by
  intro next displacement executed
  obtain ⟨rfl, esp⟩ := quiet_esp quiet executed
  exact ⟨_, (Int.add_zero _).symm, (fetch_split found).2, esp.trans below⟩

/-- A loop with a test at its start. -/
theorem Neutral.loop {test round : List HostInstr} (tests : Quiet test) (works : Quiet round)
    (cond : JumpCond) {exit back : Int} (out : exit = Compiler.bytes round + 2)
    (again : back = -(Compiler.bytes test + Compiler.bytes round + 4)) :
    Neutral env (test ++ .jcc cond exit :: (round ++ [.jmp back])) := by
  refine fun entry => asserts_invariant fun position instr found state below => ?_
  have permits (harmless : instr.popped = 0) : Permits entry instr state :=
    ⟨0, Nat.zero_le _, below, harmless.le, fun _ => rfl⟩
  obtain ⟨_, inside⟩ | ⟨behind, rfl, later⟩ := fetch_append found
  · have quiet := tests instr (fetch_split inside).1
    exact ⟨permits (HostInstr.popped_of_quiet quiet), quiet_leadsTo found quiet below⟩
  change fetch (hostIsa env) ([.jcc cond exit] ++ (round ++ [.jmp back])) behind = some instr
    at later
  obtain ⟨_, here⟩ | ⟨behind, rfl, rest⟩ := fetch_append later
  · obtain ⟨rfl, rfl⟩ := fetch_singleton here
    refine ⟨permits rfl, fun next displacement executed => ?_⟩
    obtain ⟨rfl, rfl⟩ := Prod.mk.inj (Option.some.inj executed)
    split
    · refine ⟨_, ?_, boundary_codeSize _, below⟩
      have size : codeSize (hostIsa env) (test ++ .jcc cond exit :: (round ++ [.jmp back])) =
          Compiler.bytes test + (2 + (Compiler.bytes round + 2)) := by
        rw [Compiler.codeSize_eq_bytes]
        simp [HostInstr.size]
      have jump : (hostIsa env).size (.jcc cond exit) = 2 := rfl
      rw [size, jump, Compiler.codeSize_eq_bytes]
      omega
    · exact ⟨_, (Int.add_zero _).symm, (fetch_split found).2, below⟩
  · obtain ⟨_, inside⟩ | ⟨behind, rfl, last⟩ := fetch_append rest
    · have quiet := works instr (fetch_split inside).1
      exact ⟨permits (HostInstr.popped_of_quiet quiet), quiet_leadsTo found quiet below⟩
    · obtain ⟨rfl, rfl⟩ := fetch_singleton last
      refine ⟨permits rfl, fun next displacement executed => ⟨0, ?_, boundary_zero _, ?_⟩⟩
      · obtain ⟨rfl, rfl⟩ := Prod.mk.inj (Option.some.inj executed)
        have front : codeSize (hostIsa env) [.jcc cond exit] = 2 := rfl
        have jump : (hostIsa env).size (.jmp back) = 2 := rfl
        rw [front, jump, Compiler.codeSize_eq_bytes, Compiler.codeSize_eq_bytes]
        omega
      · obtain ⟨rfl, rfl⟩ := Prod.mk.inj (Option.some.inj executed)
        exact below

end Host

namespace Compiler

variable (ctx : Context) (emitter : Emitter)

attribute [local simp] HostInstr.quiet

/-! ### Operands -/

@[simp]
theorem quiet_breakIfPc (reg : Fin 16) : Quiet (breakIfPc reg) := by
  simp [breakIfPc]

@[simp]
theorem quiet_storeCarry : Quiet storeCarry := by simp [storeCarry]

@[simp]
theorem quiet_loadCarry : Quiet loadCarry := by simp [loadCarry]

@[simp]
theorem quiet_storeFlags : Quiet (storeFlags emitter) := by simp [storeFlags]

@[simp]
theorem quiet_loadFlags : Quiet loadFlags := by simp [loadFlags]

@[simp]
theorem quiet_loadFlagsUnless (held : Bool) : Quiet (loadFlagsUnless held) := by
  simp [loadFlagsUnless]

@[simp]
theorem quiet_addEcx (imm : BitVec 32) : Quiet (addEcx imm) := by simp [addEcx]

@[simp]
theorem quiet_addEax (imm : BitVec 32) : Quiet (addEax imm) := by simp [addEax]

@[simp]
theorem quiet_loadEcxRegOrPc (reg : Fin 16) (offset : BitVec 32) :
    Quiet (loadEcxRegOrPc emitter reg offset) := by
  simp [loadEcxRegOrPc]

@[simp]
theorem quiet_loadEaxRegOrPc (reg : Fin 16) (offset : BitVec 32) :
    Quiet (loadEaxRegOrPc emitter reg offset) := by
  simp [loadEaxRegOrPc]

@[simp]
theorem quiet_loadEdxEcxOrReg (r1 r2 : Fin 16) : Quiet (loadEdxEcxOrReg r1 r2) := by
  simp [loadEdxEcxOrReg]

@[simp]
theorem quiet_loadEaxEcxOrReg (r1 r2 : Fin 16) : Quiet (loadEaxEcxOrReg emitter r1 r2) := by
  simp [loadEaxEcxOrReg]

@[simp]
theorem quiet_loadR15Ecx : Quiet loadR15Ecx := by simp [loadR15Ecx]

@[simp]
theorem quiet_shiftEaxImm : Quiet (shiftEaxImm ctx) := by
  rw [shiftEaxImm]
  cases ctx.shift <;> simp

@[simp]
theorem quiet_loadShifterImm : Quiet (loadShifterImm ctx emitter) := by simp [loadShifterImm]

/-! ### Loads and stores -/

@[simp]
theorem quiet_genericStore : Quiet (genericStore ctx emitter) := by simp [genericStore]

@[simp]
theorem quiet_genericLoadstorePostupdateImm : Quiet (genericLoadstorePostupdateImm ctx) := by
  simp [genericLoadstorePostupdateImm]

@[simp]
theorem quiet_genericStoreP : Quiet (genericStoreP ctx emitter) := by simp [genericStoreP]

@[simp]
theorem quiet_genericLoadstoreShift : Quiet (genericLoadstoreShift ctx) := by
  simp [genericLoadstoreShift]

@[simp]
theorem quiet_genericStoreR : Quiet (genericStoreR ctx emitter) := by simp [genericStoreR]

@[simp]
theorem quiet_genericLoad : Quiet (genericLoad ctx emitter) := by simp [genericLoad]

@[simp]
theorem quiet_genericLoadPost : Quiet (genericLoadPost ctx emitter) := by simp [genericLoadPost]

@[simp]
theorem quiet_genericLoadR : Quiet (genericLoadR ctx emitter) := by
  simp [genericLoadR]

@[simp]
theorem quiet_genericLoadRs (post wb : Bool) : Quiet (genericLoadRs ctx emitter post wb) := by
  simp [genericLoadRs]

@[simp]
theorem quiet_genericLoadX : Quiet (genericLoadX ctx) := by
  rw [genericLoadX]
  cases ctx.extendMode <;> simp

@[simp]
theorem quiet_genericStoreX : Quiet (genericStoreX ctx) := by
  rw [genericStoreX]
  cases ctx.extendMode <;> simp

@[simp]
theorem quiet_updateDest (size : Nat) : Quiet (updateDest ctx size) := by
  rw [updateDest]
  cases ctx.addressingMode <;> simp

@[simp]
theorem quiet_loadEcxSingle : Quiet (loadEcxSingle ctx) := by
  rw [loadEcxSingle]
  cases ctx.addressingMode <;> simp

/-! ### Arithmetic and status -/

@[simp]
theorem quiet_addEcxBpre : Quiet (addEcxBpre ctx) := by simp [addEcxBpre]

@[simp]
theorem quiet_logicalR (op : AluOp) : Quiet (logicalR ctx op) := by
  simp [logicalR]

@[simp]
theorem quiet_logicalI (op : AluOp) : Quiet (logicalI ctx op) := by
  simp [logicalI]

@[simp]
theorem quiet_addSubI (op : AluOp) (offset : BitVec 32) :
    Quiet (addSubI ctx emitter op offset) := by
  simp [addSubI]

@[simp]
theorem quiet_adcICode : Quiet (adcICode ctx emitter) := by simp [adcICode]

@[simp]
theorem quiet_mvnRCode : Quiet (mvnRCode ctx emitter) := by simp [mvnRCode]

theorem quiet_mulLong {multiply : HostInstr} (quiet : multiply.quiet = true) (accumulate : Bool) :
    Quiet (mulLong ctx multiply accumulate) := by
  rw [mulLong, quiet_append, quiet_cons, quiet_cons, quiet_cons]
  exact ⟨⟨rfl, rfl, quiet, quiet_nil⟩, by simp⟩

@[simp]
theorem quiet_mrcCode : Quiet (mrcCode ctx) := by simp [mrcCode]

@[simp]
theorem quiet_msrCode (spsr : Bool) (src : Operand) :
    Quiet (msrCode ctx spsr fun dst => .mov dst src) := by
  simp [msrCode]

/-! ### Code with pushes -/

variable {World : Type} {env : HostEnv World} {ctx emitter}

theorem neutral_flagging {code final : List HostInstr} (neutral : Neutral env code)
    (quiet : Quiet final) (setFlags : Bool) :
    Neutral env (flagging emitter setFlags code final).code := by
  rw [flagging]
  split
  · exact (neutral.append (neutral_of_quiet quiet)).append (neutral_of_quiet (by simp))
  · exact neutral

theorem neutral_storeRdEax : Neutral env (storeRdEax ctx) := by
  rw [storeRdEax]
  split <;> exact neutral_of_track rfl

/-- A register is kept on the stack over code that leaves it alone. -/
theorem track_kept {middle : List HostInstr} (quiet : Quiet middle) (src dst : Operand) :
    track (.push src :: middle ++ [.pop dst]) 0 = some 0 := by
  simp [track_of_quiet quiet, HostInstr.track, stackRoom]

theorem neutral_genericPostloadShift : Neutral env (genericPostloadShift ctx emitter) := by
  have shape : genericPostloadShift ctx emitter =
      .push eax :: (loadShifterImm ctx emitter ++ (if ctx.uBit then [] else [.neg eax]) ++
        [.alu .add (guest ctx.rn) eax]) ++ [.pop (guest ctx.rd)] := by
    simp [genericPostloadShift]
  rw [shape]
  exact neutral_of_track (track_kept (by simp) _ _)

theorem neutral_linkCode : Neutral env (linkCode emitter) := neutral_of_track rfl

theorem neutral_movR : Neutral env (movR ctx emitter).code := by
  rw [movR]
  split
  · split
    · exact neutral_of_quiet (by simp [plain, addNextInst])
    · exact neutral_of_quiet (by simp [plain])
  · refine neutral_flagging (.append (.append (neutral_of_quiet (by simp)) ?_)
      (neutral_of_quiet (by simp))) (by simp) _
    apply neutral_of_track
    split
    · split <;> rfl
    · rfl

theorem neutral_rsbI : Neutral env (rsbI ctx emitter).code := by
  rw [rsbI]
  split
  · apply neutral_flagging (neutral_of_quiet _) quiet_nil
    simp
  · split <;> exact neutral_of_quiet (by simp [plain])

/-- A shift by zero goes over the code that uses the stack. -/
theorem neutral_shiftopEaxEcx : Neutral env (shiftopEaxEcx ctx) := by
  have body : Neutral env (shiftopBody ctx) := by
    apply neutral_of_track
    rw [shiftopBody]
    cases ctx.shift <;> rfl
  have test : Quiet [.mov esi (.field .x86Flags), .shrEsi 8, .alu .or ecx ecx] := by
    simp
  exact (neutral_of_quiet test).append (body.skip .z)

theorem neutral_registerShift : Neutral env (registerShift ctx emitter) := by
  have loaded : Quiet (breakIfPc ctx.rd ++ loadEcxRegOrPc emitter ctx.rs 0 ++
      loadEaxEcxOrReg emitter ctx.rm ctx.rs) := by
    simp
  exact (neutral_of_quiet loaded).append neutral_shiftopEaxEcx

theorem neutral_mcrCode : Neutral env (mcrCode ctx emitter) := by
  rw [mcrCode]
  split_ifs
  · have zero : Quiet [.mov eax (.imm32 0)] := by simp
    have kept : Neutral env (.jcc .nz 5 :: [.mov eax (.imm32 0)]) :=
      (neutral_of_quiet zero).skip .nz
    have stored : Quiet [.mov eax (guest ctx.rd), .mov (.field .controlRegister) eax,
        .alu .or eax eax] := by
      simp
    exact (neutral_of_quiet stored).append kept
  all_goals exact neutral_of_quiet (by simp)

theorem neutral_clzCode : Neutral env (clzCode ctx) := by
  have start : Quiet (breakIfPc ctx.rm ++ breakIfPc ctx.rd ++
      [.mov ecx (.imm32 0xFFFFFFFF), .mov (guest ctx.rd) (.imm32 32)]) := by
    simp
  have test : Quiet [.mov eax ecx, .alu .and eax (guest ctx.rm)] := by simp
  have round : Quiet [.shlEcx, .dec (guest ctx.rd)] := by simp
  have loop : Neutral env ([.mov eax ecx, .alu .and eax (guest ctx.rm)] ++
      .jcc .z 7 :: ([.shlEcx, .dec (guest ctx.rd)] ++ [.jmp (-14)])) :=
    Neutral.loop test round .z rfl rfl
  have shape : clzCode ctx = breakIfPc ctx.rm ++ breakIfPc ctx.rd ++
      [.mov ecx (.imm32 0xFFFFFFFF), .mov (guest ctx.rd) (.imm32 32)] ++
      ([.mov eax ecx, .alu .and eax (guest ctx.rm)] ++
        .jcc .z 7 :: ([.shlEcx, .dec (guest ctx.rd)] ++ [.jmp (-14)])) := by
    simp [clzCode]
  rw [shape]
  exact (neutral_of_quiet start).append loop

/-! ### Multiple transfers -/

variable {depth : Nat}

theorem track_pushMultiple (num : Nat) (room : depth + 4 ≤ stackRoom) :
    track (pushMultiple ctx num) depth = some (depth + 4) := by
  rw [pushMultiple]
  cases ctx.addressingMode <;> simp [HostInstr.track, room]

theorem track_pushContext (lowest : Fin 16) (room : depth + 4 ≤ stackRoom) :
    track (pushContext lowest) depth = some (depth + 4) := by
  rw [pushContext]
  split <;> simp [HostInstr.track, room]

theorem track_pushes (list : List (Fin 16)) (room : depth + 4 * list.length ≤ stackRoom) :
    track (list.map fun i => .push (guest i)) depth = some (depth + 4 * list.length) := by
  induction list generalizing depth with
  | nil => rfl
  | cons index list ih =>
      rw [List.length_cons] at room ⊢
      have pushed : (HostInstr.push (guest index)).track depth = some (depth + 4) :=
        if_pos (by omega)
      rw [List.map_cons, track_cons, pushed, Option.bind_some, ih (by omega)]
      congr 1
      omega

/-- Two ways to take a register from the stack. -/
theorem track_pops {pop : Fin 16 → HostInstr}
    (pops : ∀ index depth, (pop index).track (depth + 4) = some depth) (list : List (Fin 16)) :
    track (list.map pop) (depth + 4 * list.length) = some depth := by
  induction list with
  | nil => rfl
  | cons index list ih =>
      rw [List.map_cons, track_cons, List.length_cons, Nat.mul_succ, ← Nat.add_assoc, pops,
        Option.bind_some, ih]

theorem track_pop (index : Fin 16) (depth : Nat) :
    (HostInstr.pop (guest index)).track (depth + 4) = some depth := by
  simp [HostInstr.track]

theorem track_popEax (index : Fin 16) (depth : Nat) :
    (HostInstr.popEax index).track (depth + 4) = some depth := by
  simp [HostInstr.track]

/-- The arguments of an array function are dropped behind the call. -/
theorem track_arrayCall (helper : Helper) :
    track [.call helper, .addEsp 12] (depth + 12) = some depth := by
  simp [HostInstr.track]

theorem track_region (lowest : Fin 16) (num : Nat) (helper : Helper)
    (room : depth + 12 ≤ stackRoom) :
    track (pushContext lowest ++ [.push (.imm8 (BitVec.ofNat 32 num))] ++ pushMultiple ctx num ++
      [.call helper, .addEsp 12]) depth = some depth := by
  have pushed : track [.push (.imm8 (BitVec.ofNat 32 num))] (depth + 4) = some (depth + 8) := by
    have enough : depth + 8 ≤ stackRoom := by omega
    simp [HostInstr.track, enough]
  rw [track_append, track_append, track_append, track_pushContext lowest (by omega),
    Option.bind_some, pushed, Option.bind_some, track_pushMultiple num (by omega),
    Option.bind_some, track_arrayCall]

theorem toNat_ofNat_of_le {amount : Nat} (room : amount ≤ stackRoom) :
    (BitVec.ofNat 32 amount).toNat = amount := by
  have short : stackRoom < 2 ^ 32 := by decide
  rw [BitVec.toNat_ofNat, Nat.mod_eq_of_lt (by omega)]

theorem track_staged (num : Nat) (room : depth + 12 ≤ stackRoom) :
    track [.pushEsp, .push (.imm8 (BitVec.ofNat 32 num))] depth = some (depth + 8) := by
  have one : depth + 4 ≤ stackRoom := by omega
  have two : depth + 8 ≤ stackRoom := by omega
  simp [HostInstr.track, one, two]

theorem track_ldmToStack (num : Nat) (room : depth + 4 * num + 12 ≤ stackRoom) :
    track (ldmToStack ctx num) depth = some (depth + 4 * num) := by
  have amount := @toNat_ofNat_of_le (4 * num) (by omega)
  have lower : (HostInstr.subEsp (BitVec.ofNat 32 (4 * num))).track depth =
      some (depth + 4 * num) := by
    have enough : depth + 4 * num ≤ stackRoom := by omega
    simp [HostInstr.track, amount, enough]
  rw [ldmToStack, track_append, track_append, track_cons, lower, Option.bind_some,
    track_staged num room, Option.bind_some, track_pushMultiple num (by omega), Option.bind_some,
    track_arrayCall]

theorem track_loadEcxSingle_append (code : List HostInstr) (quiet : Quiet code) :
    track (loadEcxSingle ctx ++ code) depth = some depth :=
  track_of_quiet ((quiet_append _ _).mpr ⟨quiet_loadEcxSingle ctx, quiet⟩) depth

/-- Every register of the list is pushed once, `r15` from `ecx`. -/
theorem length_pushes : (if ctx.imm.getLsbD 15 then 1 else 0) +
    ((transferList ctx).filter (· ≠ 15)).reverse.length = (transferList ctx).length := by
  have distinct : (transferList ctx).Nodup := (sorted_transferList ctx).imp ne_of_lt
  have pc : (transferList ctx).count 15 = if ctx.imm.getLsbD 15 then 1 else 0 := by
    rw [distinct.count]
    simp only [mem_transferList, show (15 : Fin 16).val = 15 from rfl]
  have parts := @List.length_eq_countP_add_countP _ (· == (15 : Fin 16)) (transferList ctx)
  rw [← List.count_eq_countP, pc, List.countP_eq_length_filter] at parts
  rw [List.length_reverse, parts]
  simp

theorem track_dropped (num : Nat) (room : 4 * num + 12 ≤ stackRoom) :
    track [.call .store32Array, .addEsp (BitVec.ofNat 32 (4 * (num + 3)))] (4 * num + 8 + 4) =
      some 0 := by
  have amount := toNat_ofNat_of_le room
  rw [show 4 * (num + 3) = 4 * num + 12 by omega]
  simp [HostInstr.track, amount]

theorem neutral_stmTransfer : Neutral env (stmTransfer ctx emitter) := by
  have short := length_transferList_le ctx
  apply neutral_of_track
  rw [stmTransfer]
  split
  · rfl
  · exact track_loadEcxSingle_append _ (by simp)
  · next lowest _ _ _ =>
    split
    · exact track_region lowest _ .store32Array (by decide)
    · have all := @length_pushes ctx
      have pc : track (if ctx.imm.getLsbD 15 then
          loadR15Ecx ++ [addNextInst emitter, .push ecx] else []) 0 =
          some (4 * if ctx.imm.getLsbD 15 then 1 else 0) := by
        split <;> rfl
      generalize ((transferList ctx).filter (· ≠ 15)).reverse = rest at all ⊢
      generalize (if ctx.imm.getLsbD 15 then 1 else 0) = first at pc all
      generalize (transferList ctx).length = num at short all ⊢
      have room : 4 * num + 12 ≤ stackRoom := by
        rw [stackRoom]
        omega
      have registers := @track_pushes (4 * first) rest (by omega)
      rw [← Nat.mul_add, all] at registers
      rw [track_append, track_append, track_append, track_append, pc, Option.bind_some, registers,
        Option.bind_some, track_staged num room, Option.bind_some,
        track_pushMultiple num (by omega), Option.bind_some, track_dropped num room]

theorem track_ldmTransfer (room : depth + 76 ≤ stackRoom) :
    track (ldmTransfer ctx) depth = some depth := by
  have short := length_transferList_le ctx
  rw [ldmTransfer]
  split
  · have switch (held : Nat) (room : held + 4 ≤ stackRoom) :
        track ldmSwitchuser held = some held := by
      simp [ldmSwitchuser, HostInstr.track, room]
    rw [track_append, track_append, track_append, track_ldmToStack _ (by omega),
      Option.bind_some, switch _ (by omega), Option.bind_some, track_pops track_popEax,
      Option.bind_some]
    rfl
  · split
    · rfl
    · exact track_loadEcxSingle_append _ (by simp)
    · next lowest _ _ _ =>
      split
      · exact track_region lowest _ .load32Array (by omega)
      · rw [track_append, track_ldmToStack _ (by omega), Option.bind_some, track_pops track_pop]

theorem neutral_ldmCode : Neutral env (ldmCode ctx) := by
  apply neutral_of_track
  have branch : track (if ctx.imm.getLsbD 15 then
      .mov ecx (guest 15) :: updateCallstack ++ [.jmpBranch] else []) 0 = some 0 := by
    split <;> rfl
  rw [ldmCode, track_append, track_append, track_append]
  cases keeps : ldmKeepsBase ctx with
  | true =>
      have updates := ldmUpdates_of_keepsBase keeps
      have kept : track [.push (guest ctx.rn)] 0 = some 4 := rfl
      have restored : track [.pop (guest ctx.rn)] 4 = some 0 := rfl
      rw [if_pos rfl, kept, Option.bind_some, track_ldmTransfer (by decide), Option.bind_some,
        if_pos updates, if_pos rfl, track_append, restored, Option.bind_some,
        track_of_quiet (quiet_updateDest ctx _), Option.bind_some, branch]
  | false =>
      have update : track (if ldmUpdates ctx then
          (if false = true then [.pop (guest ctx.rn)] else []) ++
            updateDest ctx (transferList ctx).length else []) 0 = some 0 :=
        track_of_quiet (by simp) 0
      rw [if_neg Bool.false_ne_true, track_nil, Option.bind_some, track_ldmTransfer (by decide),
        Option.bind_some, update, Option.bind_some, branch]

/-! ### Instructions -/

theorem neutral_compileBody (held : Bool) : Neutral env (compileBody ctx emitter held).code := by
  rw [compileBody]
  generalize ctx.instruction = instruction
  cases instruction
  all_goals dsimp only [plain]
  case movR => exact neutral_movR
  case rsbI => exact neutral_rsbI
  case ldm | ldmW => exact neutral_ldmCode
  case mcr => exact neutral_mcrCode
  case clz => exact neutral_clzCode
  case stm =>
    exact (neutral_of_quiet (by simp)).append neutral_stmTransfer
  case stmW =>
    exact ((neutral_of_quiet (by simp)).append neutral_stmTransfer).append
      (neutral_of_quiet (quiet_updateDest ctx _))
  case ldrIP =>
    have load : Quiet (genericLoad ctx emitter ++ [.call .load32]) := by simp
    have result : Neutral env (storeRdEax ctx) := neutral_storeRdEax
    have code := (neutral_of_quiet load).append result
    rwa [List.append_assoc] at code
  case ldrxIP | ldrIPW | ldrbIPW | ldrxIPW =>
    refine Neutral.append (neutral_of_quiet ?_) neutral_storeRdEax
    simp
  case ldrR =>
    have load : Quiet (loadEcxRegOrPc emitter ctx.rn 0 ++ [.call .load32]) := by
      simp
    have update : Neutral env (genericPostloadShift ctx emitter) := neutral_genericPostloadShift
    have code := (neutral_of_quiet load).append update
    rwa [List.append_assoc] at code
  case swp | swpb => exact neutral_of_track rfl
  case adcR =>
    have kept := track_kept quiet_loadFlags eax eax
    have code : Neutral env (loadShifterImm ctx emitter ++
        ((.push eax :: loadFlags ++ [.pop eax]) ++ logicalR ctx .adc)) :=
      (neutral_of_quiet (by simp)).append
        ((neutral_of_track kept).append (neutral_of_quiet (by simp)))
    refine neutral_flagging ?_ quiet_nil _
    simpa using code
  case movRR | orrRR =>
    refine neutral_flagging (neutral_registerShift.append (neutral_of_quiet ?_)) ?_ _ <;>
      simp
  case umull | umlal | smull | smlal =>
    exact neutral_flagging (neutral_of_quiet (quiet_mulLong ctx rfl _)) quiet_nil _
  case bl | blxI | b => exact neutral_of_track rfl
  case bx =>
    have target : Neutral env (loadEcxRegOrPc emitter ctx.rm 0) := neutral_of_quiet (by simp)
    have jump : track ((.mov (guest 15) ecx :: updateCallstack) ++ [.jmpBranch]) 0 = some 0 := rfl
    simpa using target.append (neutral_of_track jump)
  case blx =>
    have target : Neutral env (loadEcxRegOrPc emitter ctx.rm 0) := neutral_of_quiet (by simp)
    exact (neutral_linkCode.append target).append (neutral_of_track rfl)
  case movI | mvnR | orrI | andI | eorI | addI | addR | adcI | subI | subR | sbcI | sbcR | rsbR |
      orrR | rscR | mlaR | mulR | tstI | tstR | teqI | teqR | cmpI | cmnI | cmpR | cmnR | bicR |
      andR | eorR | bicI =>
    refine neutral_flagging (neutral_of_quiet ?_) ?_ _ <;> simp
  all_goals
    apply neutral_of_quiet
    simp

/-- The test of the condition goes over the body or into it. -/
theorem neutral_compileInstruction (flagsUpdated : Bool) :
    Neutral env (compileInstruction ctx emitter flagsUpdated).code := by
  have body : Neutral env (compileBody ctx emitter
      (flagsHeld emitter flagsUpdated || conditional ctx)).code := neutral_compileBody _
  have count : (countCycle emitter).quiet = true := by
    rw [countCycle]
    split <;> rfl
  rw [compileInstruction, preamble]
  split
  · have test : Quiet (countCycle emitter ::
        (loadFlagsUnless (flagsHeld emitter flagsUpdated) ++ (condJump ctx.cond).1)) := by
      refine (quiet_cons _ _).mpr ⟨count, ?_⟩
      cases ctx.cond <;> simp [condJump]
    have code := (neutral_of_quiet test).append (body.skip (condJump ctx.cond).2)
    simpa using code
  · exact body.cons count

/-! ### Every control path -/

variable (env) in
/-- Where a run of some code has come.  The stack pointer is no more than the room
below that of the entry, an instruction takes no more than has been pushed, and
behind the code and at a branch everything is taken off. -/
structure StackKept (code : List HostInstr) (entry : BitVec 32) (position : Nat)
    (state : HostState World) : Prop where
  inside : Boundary (hostIsa env) code position
  finish : position = bytes code → state.esp = entry
  instruction : ∀ instr, fetch (hostIsa env) code position = some instr →
    ∃ depth ≤ stackRoom, state.esp = entry - BitVec.ofNat 32 depth ∧ instr.popped ≤ depth
  branch : fetch (hostIsa env) code position = some .jmpBranch → state.esp = entry

variable (env) in
/-- All control paths through some code leave the stack as they found it. -/
def StackNeutral (code : List HostInstr) : Prop :=
  ∀ (state : HostState World) (position : Nat) (next : HostState World),
    Reaches (hostIsa env) code (0, state) (position, next) →
      StackKept env code state.esp position next

theorem stackNeutral_of_neutral {code : List HostInstr} (neutral : Neutral env code) :
    StackNeutral env code := by
  intro state position next run
  have start : Below state.esp 0 state := by simp [Below]
  obtain ⟨inside, finish, permitted⟩ := (neutral state.esp).reaches start run
  refine ⟨inside, fun ends => ?_, fun instr found => ?_, fun found => ?_⟩
  · simpa [Below] using finish ends
  · obtain ⟨depth, room, below, popped, _⟩ := permitted instr found
    exact ⟨depth, room, below, popped⟩
  · obtain ⟨depth, _, below, _, branch⟩ := permitted .jmpBranch found
    obtain rfl := branch rfl
    simpa [Below] using below

/-- Every word of the guest, after any words before it. -/
theorem stackNeutral_decoded (prior : Disassembler) (inst : Nat) (lookaheadS flagsUpdated : Bool) :
    (∀ word addr : BitVec 32,
      StackNeutral env (compileInstruction (prior.decode word addr).toContext
        ⟨2, inst, lookaheadS⟩ flagsUpdated).code) ∧
    ∀ (half : BitVec 16) (addr : BitVec 32),
      StackNeutral env (compileInstruction (prior.decodeThumb (half.setWidth 32) addr).toContext
        ⟨1, inst, lookaheadS⟩ flagsUpdated).code :=
  ⟨fun _ _ => stackNeutral_of_neutral (neutral_compileInstruction flagsUpdated),
    fun _ _ => stackNeutral_of_neutral (neutral_compileInstruction flagsUpdated)⟩

end Compiler

end Ndse
