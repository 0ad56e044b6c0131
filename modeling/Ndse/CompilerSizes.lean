import Ndse.CompilerTransfers
import Ndse.DisassemblerThumb

/-!
# Jump distances

Every emitting function has a bound for the host instructions and for the bytes
that it emits.  The body of an instruction is short enough for the jump over it.
The longest is that of a load of all registers for the user's bank that writes
back its base.
-/

namespace Ndse

open FlatCode

namespace Compiler

/-! ### Bytes -/

@[simp]
theorem bytes_nil : bytes [] = 0 := rfl

@[simp]
theorem bytes_cons (instr : HostInstr) (code : List HostInstr) :
    bytes (instr :: code) = instr.size + bytes code := by
  simp [bytes]

@[simp]
theorem bytes_append (first second : List HostInstr) :
    bytes (first ++ second) = bytes first + bytes second := by
  simp [bytes]

theorem codeSize_eq_bytes {World : Type} (env : HostEnv World) (code : List HostInstr) :
    codeSize (hostIsa env) code = bytes code := rfl

/-- Some code has at most so many instructions, and so many bytes. -/
structure Fits (code : List HostInstr) (count size : Nat) : Prop where
  count : code.length ≤ count
  size : bytes code ≤ size

theorem fits_self (code : List HostInstr) : Fits code code.length (bytes code) :=
  ⟨Nat.le_refl _, Nat.le_refl _⟩

namespace Fits

variable {first second code : List HostInstr} {count size count' size' : Nat} {instr : HostInstr}

theorem within (fits : Fits code count size) (more : count.ble count' = true)
    (larger : size.ble size' = true) : Fits code count' size' where
  count := fits.count.trans (Nat.le_of_ble_eq_true more)
  size := fits.size.trans (Nat.le_of_ble_eq_true larger)

theorem nil : Fits [] count size := ⟨Nat.zero_le count, Nat.zero_le size⟩

theorem cons_of_le (fits : Fits code count size) (small : instr.size ≤ size') :
    Fits (instr :: code) (count + 1) (size' + size) where
  count := Nat.succ_le_succ fits.count
  size := Nat.add_le_add small fits.size

theorem cons (fits : Fits code count size) : Fits (instr :: code) (count + 1) (instr.size + size) :=
  fits.cons_of_le (Nat.le_refl _)

theorem append (one : Fits first count size) (other : Fits second count' size') :
    Fits (first ++ second) (count + count') (size + size') where
  count := by
    rw [List.length_append]
    exact Nat.add_le_add one.count other.count
  size := by
    rw [bytes_append]
    exact Nat.add_le_add one.size other.size

theorem ite {condition : Prop} [Decidable condition] (one : Fits first count size)
    (other : Fits second count size) : Fits (if condition then first else second) count size := by
  split
  · exact one
  · exact other

end Fits

/-- Code without free choices, by evaluation. -/
theorem fits_of_ble {code : List HostInstr} {count size : Nat}
    (short : code.length.ble count = true) (small : (bytes code).ble size = true) :
    Fits code count size := (fits_self code).within short small

theorem fits_map {α : Type} {instr : α → HostInstr} {size : Nat}
    (same : ∀ item, (instr item).size = size) {list : List α} {count : Nat}
    (short : list.length ≤ count) : Fits (list.map instr) count (count * size) where
  count := (List.length_map instr).trans_le short
  size := by
    have all : bytes (list.map instr) = list.length * size := by
      clear short
      induction list with
      | nil => simp
      | cons item list ih =>
          rw [List.map_cons, bytes_cons, same, ih, List.length_cons, Nat.succ_mul, Nat.add_comm]
    rw [all]
    exact Nat.mul_le_mul_right size short

variable (ctx : Context) (emitter : Emitter)

/-! ### Operands -/

theorem fits_breakIfPc (reg : Fin 16) : Fits (breakIfPc reg) 1 1 := (fits_self _).ite .nil

theorem fits_storeFlags : Fits (storeFlags emitter) 3 7 := Fits.nil.ite (fits_self _)

theorem fits_addEcx (imm : BitVec 32) : Fits (addEcx imm) 1 6 := (fits_self _).ite .nil

theorem fits_addEax (imm : BitVec 32) : Fits (addEax imm) 1 5 := (fits_self _).ite .nil

theorem fits_loadEcxRegOrPc (reg : Fin 16) (offset : BitVec 32) :
    Fits (loadEcxRegOrPc emitter reg offset) 3 15 :=
  ((fits_addEcx _).cons.within rfl rfl).ite (fits_addEcx _).cons.cons

theorem fits_loadEaxRegOrPc (reg : Fin 16) (offset : BitVec 32) :
    Fits (loadEaxRegOrPc emitter reg offset) 3 13 :=
  ((fits_addEax _).cons.within rfl rfl).ite (fits_addEax _).cons.cons

theorem fits_loadEdxEcxOrReg (r1 r2 : Fin 16) : Fits (loadEdxEcxOrReg r1 r2) 1 3 :=
  (fits_of_ble rfl rfl).ite (fits_self _)

theorem fits_loadEaxEcxOrReg (r1 r2 : Fin 16) : Fits (loadEaxEcxOrReg emitter r1 r2) 3 13 :=
  (fits_of_ble rfl rfl).ite
    ((fits_loadEaxRegOrPc emitter _ _).ite (fits_loadEaxRegOrPc emitter _ _))

/-! ### The shifter -/

theorem fits_shiftEaxImm : Fits (shiftEaxImm ctx) 2 6 := by
  have one (op : ShiftOp) (amount : BitVec 32) : Fits [.shift op amount] 2 6 := fits_of_ble rfl rfl
  have two (op : ShiftOp) : Fits [.shift op 31, .shift op 1] 2 6 := fits_self _
  rw [shiftEaxImm]
  split
  · exact Fits.nil.ite ((two .shl).ite (one .shl _))
  · exact (two .shr).ite (one .shr _)
  · exact Fits.nil.ite ((two .sar).ite (one .sar _))
  · exact (one .ror _).ite .nil
  · exact fits_of_ble rfl rfl

theorem fits_loadShifterImm : Fits (loadShifterImm ctx emitter) 9 27 := by
  have flags : Fits (if ctx.shift = .rrx then loadFlags else []) 3 6 := (fits_self _).ite .nil
  exact ((flags.append (fits_loadEaxRegOrPc emitter ctx.rm 0)).append (fits_shiftEaxImm ctx)).append
    (fits_self _)

/-- The inner jump is over at most these. -/
theorem fits_shiftopBody : Fits (shiftopBody ctx) 8 16 := by
  rw [shiftopBody]
  cases ctx.shift <;> exact fits_of_ble rfl rfl

theorem fits_shiftopEaxEcx : Fits (shiftopEaxEcx ctx) 12 26 :=
  (fits_shiftopBody ctx).cons.cons.cons.cons

/-! ### Loads and stores -/

theorem fits_genericStore : Fits (genericStore ctx emitter) 5 19 :=
  ((fits_breakIfPc _).append (fits_loadEcxRegOrPc emitter _ _)).append (fits_loadEdxEcxOrReg _ _)

theorem fits_genericLoadstorePostupdateImm : Fits (genericLoadstorePostupdateImm ctx) 1 7 :=
  (fits_self _).ite .nil

theorem fits_genericStoreP : Fits (genericStoreP ctx emitter) 6 25 :=
  (fits_genericStore ctx emitter).append (fits_addEcx _)

theorem fits_genericLoadstoreShift : Fits (genericLoadstoreShift ctx) 5 13 :=
  (fits_of_ble rfl rfl).ite
    ((((fits_shiftEaxImm ctx).cons.append (fits_self _)).append (fits_self _)).within rfl rfl)

theorem fits_genericStoreR : Fits (genericStoreR ctx emitter) 10 32 :=
  (fits_genericStore ctx emitter).append (fits_genericLoadstoreShift ctx)

theorem fits_genericLoad : Fits (genericLoad ctx emitter) 3 15 := fits_loadEcxRegOrPc emitter _ _

theorem fits_genericLoadPost : Fits (genericLoadPost ctx emitter) 4 16 :=
  (fits_breakIfPc _).append (fits_loadEcxRegOrPc emitter _ _)

/-- The offset is subtracted by its negation. -/
theorem fits_negated {dst : Operand} (size : (HostInstr.neg dst).size = 2) :
    Fits (if ctx.uBit then [] else [.neg dst]) 1 2 :=
  Fits.nil.ite ⟨Nat.le_refl 1, size.le⟩

theorem fits_genericLoadR : Fits (genericLoadR ctx emitter) 10 31 :=
  (((fits_breakIfPc _).append (fits_loadEcxRegOrPc emitter _ _)).append
    (fits_negated ctx rfl)).append (fits_genericLoadstoreShift ctx)

theorem fits_genericLoadRs (post wb : Bool) : Fits (genericLoadRs ctx emitter post wb) 15 39 := by
  have rest : Fits (if post then
      [.alu .add eax (guest ctx.rn), .mov ecx eax] ++ if wb then [.mov (guest ctx.rn) eax] else []
    else
      .mov ecx (guest ctx.rn) :: if wb then [.alu .add (guest ctx.rn) eax] else []) 3 8 := by
    cases post <;> cases wb <;> exact fits_of_ble rfl rfl
  exact ((((fits_breakIfPc _).append (fits_breakIfPc _)).append
    (fits_loadShifterImm ctx emitter)).append (fits_negated ctx rfl)).append rest

theorem fits_genericPostloadShift : Fits (genericPostloadShift ctx emitter) 13 36 :=
  ((fits_loadShifterImm ctx emitter).cons.append (fits_negated ctx rfl)).append (fits_self _)

theorem fits_genericLoadX : Fits (genericLoadX ctx) 2 8 := by
  rw [genericLoadX]
  split <;> exact fits_of_ble rfl rfl

theorem fits_genericStoreX : Fits (genericStoreX ctx) 1 5 := by
  rw [genericStoreX]
  split <;> exact fits_of_ble rfl rfl

theorem fits_storeRdEax : Fits (storeRdEax ctx) 3 10 :=
  Fits.cons ((fits_self _).ite .nil)

/-! ### Multiple transfers -/

theorem length_transferList_le : (transferList ctx).length ≤ 16 :=
  (List.length_filter_le _ _).trans (List.length_finRange).le

theorem fits_updateDest (size : Nat) : Fits (updateDest ctx size) 1 4 := by
  rw [updateDest]
  cases ctx.addressingMode <;> exact fits_self _

theorem fits_loadEcxSingle : Fits (loadEcxSingle ctx) 2 6 := by
  rw [loadEcxSingle]
  cases ctx.addressingMode <;> exact fits_of_ble rfl rfl

theorem fits_pushMultiple (num : Nat) : Fits (pushMultiple ctx num) 3 7 := by
  rw [pushMultiple]
  cases ctx.addressingMode <;> exact fits_of_ble rfl rfl

theorem fits_pushContext (lowest : Fin 16) : Fits (pushContext lowest) 2 4 :=
  (fits_of_ble rfl rfl).ite (fits_self _)

theorem fits_ldmToStack (num : Nat) : Fits (ldmToStack ctx num) 8 21 :=
  ((fits_self _).append (fits_pushMultiple ctx num)).append (fits_self _)

/-- A list without gaps is transferred in place. -/
theorem fits_region (lowest : Fin 16) (num : Nat) (helper : Helper) :
    Fits (pushContext lowest ++ [.push (.imm8 (BitVec.ofNat 32 num))] ++ pushMultiple ctx num ++
      [.call helper, .addEsp 12]) 8 21 :=
  (((fits_pushContext lowest).append (fits_self _)).append (fits_pushMultiple ctx num)).append
    (fits_self _)

theorem fits_stmTransfer : Fits (stmTransfer ctx emitter) 27 82 := by
  rw [stmTransfer]
  split
  · exact fits_of_ble rfl rfl
  · exact ((fits_loadEcxSingle ctx).append (fits_self _)).within rfl rfl
  · next lowest _ _ _ =>
    have pc : Fits (if ctx.imm.getLsbD 15 then loadR15Ecx ++ [addNextInst emitter, .push ecx]
        else []) 4 16 :=
      (fits_self _).ite .nil
    have length : ((transferList ctx).filter (· ≠ 15)).reverse.length ≤ 16 := by
      rw [List.length_reverse]
      exact (List.length_filter_le _ _).trans (length_transferList_le ctx)
    have pushes := fits_map (fun i => show (HostInstr.push (guest i)).size = 3 from rfl) length
    exact ((fits_region ctx lowest _ _).within rfl rfl).ite
      ((((pc.append pushes).append (fits_self _)).append (fits_pushMultiple ctx _)).append
        (fits_self _))

theorem fits_ldmTransfer : Fits (ldmTransfer ctx) 31 98 := by
  have length := length_transferList_le ctx
  have pops := fits_map (fun i => show (HostInstr.pop (guest i)).size = 3 from rfl) length
  have popsEax := fits_map (fun i => show (HostInstr.popEax i).size = 3 from rfl) length
  rw [ldmTransfer]
  split
  · exact (((fits_ldmToStack ctx _).append (fits_self _)).append popsEax).append (fits_self _)
  · split
    · exact fits_of_ble rfl rfl
    · exact ((fits_loadEcxSingle ctx).append (fits_self _)).within rfl rfl
    · next lowest _ _ _ =>
      exact ((fits_region ctx lowest _ _).within rfl rfl).ite
        (((fits_ldmToStack ctx _).append pops).within rfl rfl)

variable {ctx} in
theorem ldmUpdates_of_keepsBase (keeps : ldmKeepsBase ctx = true) : ldmUpdates ctx = true := by
  rw [ldmUpdates, decide_eq_true_iff]
  exact ⟨(of_decide_eq_true keeps).1, .inr keeps⟩

/-- A load of registers is at most so much longer than its transfer. -/
theorem fits_ldmCode_of {count size : Nat} (transfer : Fits (ldmTransfer ctx) count size) :
    Fits (ldmCode ctx) (1 + count + 2 + 5) (3 + size + 7 + 15) := by
  have base : Fits (if ldmKeepsBase ctx then [.push (guest ctx.rn)] else []) 1 3 :=
    (fits_self _).ite .nil
  have update : Fits (if ldmUpdates ctx then
      (if ldmKeepsBase ctx then [.pop (guest ctx.rn)] else []) ++
        updateDest ctx (transferList ctx).length
      else []) 2 7 :=
    (((fits_self _).ite .nil).append (fits_updateDest ctx _)).ite .nil
  have branch : Fits (if ctx.imm.getLsbD 15 then
      .mov ecx (guest 15) :: updateCallstack ++ [.jmpBranch] else []) 5 15 :=
    (fits_self _).ite .nil
  exact ((base.append transfer).append update).append branch

/-- The longest code of all. -/
theorem fits_ldmCode : Fits (ldmCode ctx) 39 123 := fits_ldmCode_of ctx (fits_ldmTransfer ctx)

/-! ### Branches -/

theorem fits_linkCode : Fits (linkCode emitter) 7 25 := fits_self _

/-! ### Data processing -/

theorem fits_flagging {code final : List HostInstr} {count size count' size' : Nat}
    (first : Fits code count size) (last : Fits final count' size') (setFlags : Bool) :
    Fits (flagging emitter setFlags code final).code (count + count' + 3) (size + size' + 7) := by
  rw [flagging]
  split
  · exact (first.append last).append (fits_storeFlags emitter)
  · refine ⟨first.count.trans ?_, first.size.trans ?_⟩ <;> omega

theorem fits_logicalR (op : AluOp) : Fits (logicalR ctx op) 2 6 :=
  (fits_of_ble rfl rfl).ite (fits_self _)

theorem fits_logicalI (op : AluOp) : Fits (logicalI ctx op) 5 13 :=
  ((fits_breakIfPc _).append (fits_breakIfPc _)).append ((fits_of_ble rfl rfl).ite (fits_self _))

theorem fits_addSubI (op : AluOp) (offset : BitVec 32) :
    Fits (addSubI ctx emitter op offset) 5 19 := by
  have memory := (fits_breakIfPc ctx.rn).append
    (fits_self [.alu op (guest ctx.rn) (.imm32 ctx.imm)])
  exact (fits_breakIfPc _).append ((memory.within rfl rfl).ite
    ((fits_loadEcxRegOrPc emitter _ _).append (fits_self _)))

theorem fits_adcICode : Fits (adcICode ctx emitter) 9 28 := by
  have memory := ((fits_breakIfPc ctx.rn).append (fits_self loadFlags)).append
    (fits_self [.alu .adc (guest ctx.rn) (.imm32 ctx.imm)])
  exact (fits_breakIfPc _).append ((memory.within rfl rfl).ite
    (((fits_loadEcxRegOrPc emitter _ _).append (fits_self _)).append (fits_self _)))

/-- `Rd = Rn op value` in `edx`, or in the memory form. -/
theorem fits_minusR (op : AluOp) {source : Operand}
    (memory : (HostInstr.alu op (guest ctx.rn) source).size = 3)
    (register : (HostInstr.alu op edx source).size = 2) :
    Fits (if ctx.rn = ctx.rd then [.alu op (guest ctx.rn) source]
      else [.mov edx (guest ctx.rn), .alu op edx source, .mov (guest ctx.rd) edx]) 3 8 := by
  refine Fits.ite ⟨Nat.le_of_ble_eq_true rfl, ?_⟩ ⟨Nat.le_refl 3, ?_⟩
  · rw [bytes_cons, memory]
    exact Nat.le_of_ble_eq_true rfl
  · rw [bytes_cons, bytes_cons, register]
    exact Nat.le_refl 8

theorem fits_movRCode : Fits (movRCode ctx emitter) 16 46 := by
  have breaks : Fits (if ctx.sBit then [debugBreak] else []) 1 1 := (fits_self _).ite .nil
  exact ((fits_loadShifterImm ctx emitter).append
    ((breaks.append (fits_self _)).ite (fits_of_ble rfl rfl))).append (fits_self _)

theorem fits_movR : Fits (movR ctx emitter).code 20 56 := by
  rw [movR]
  split
  · split <;> exact fits_of_ble rfl rfl
  · exact fits_flagging emitter (fits_movRCode ctx emitter) ((fits_self _).ite .nil) _

theorem fits_mvnRCode : Fits (mvnRCode ctx emitter) 13 35 :=
  ((fits_breakIfPc _).append ((fits_of_ble rfl rfl).ite
    ((fits_loadShifterImm ctx emitter).append (fits_self _)))).append (fits_self _)

theorem fits_rsbI : Fits (rsbI ctx emitter).code 8 17 := by
  have breaks := (fits_breakIfPc ctx.rn).append (fits_breakIfPc ctx.rd)
  rw [rsbI]
  split
  · have negated : Fits (if ctx.rn = ctx.rd then [.neg (guest ctx.rn)]
        else [.mov eax (guest ctx.rn), .neg eax, .mov (guest ctx.rd) eax]) 3 8 :=
      (fits_of_ble rfl rfl).ite (fits_self _)
    exact fits_flagging emitter (breaks.append negated) (fits_self []) _
  · split
    · exact (breaks.append (fits_self _)).within rfl rfl
    · exact breaks.within rfl rfl

theorem fits_registerShift : Fits (registerShift ctx emitter) 19 55 :=
  (((fits_breakIfPc _).append (fits_loadEcxRegOrPc emitter _ _)).append
    (fits_loadEaxEcxOrReg emitter _ _)).append (fits_shiftopEaxEcx ctx)

theorem fits_loadFlagsUnless (held : Bool) : Fits (loadFlagsUnless held) 3 6 :=
  Fits.nil.ite (fits_self _)

/-! ### Other instructions -/

theorem fits_clzCode : Fits (clzCode ctx) 10 28 :=
  ((fits_breakIfPc _).append (fits_breakIfPc _)).append (fits_self _)

theorem fits_mulLong {multiply : HostInstr} (size : multiply.size = 3) (accumulate : Bool) :
    Fits (mulLong ctx multiply accumulate) 5 14 := by
  have front : Fits [.alu .xor edx edx, .mov eax (guest ctx.rm), multiply] 3 8 := by
    refine ⟨Nat.le_refl 3, ?_⟩
    rw [bytes_cons, bytes_cons, bytes_cons, size]
    exact Nat.le_refl 8
  have results : Fits (if accumulate then
        [HostInstr.alu .add (guest ctx.rd) eax, .alu .adc (guest ctx.rn) edx]
      else [.mov (guest ctx.rd) eax, .mov (guest ctx.rn) edx]) 2 6 :=
    (fits_self _).ite (fits_self _)
  exact front.append results

theorem fits_mrcCode : Fits (mrcCode ctx) 2 7 := by
  rw [mrcCode]
  split_ifs <;> exact fits_of_ble rfl rfl

theorem fits_mcrCode : Fits (mcrCode ctx emitter) 5 25 := by
  have remap := (fits_loadEcxRegOrPc emitter ctx.rd 0).append
    (fits_self [.mov edx (.imm32 (BitVec.ofNat 32 ctx.cpOp2.val)), .call .remapTcm])
  have one (instr : HostInstr) (small : instr.size = 1) : Fits [instr] 5 25 :=
    ⟨Nat.le_of_ble_eq_true rfl, by simp [small]⟩
  have other : Fits (if ctx.rn = 9 then
      if ctx.rm = 1 then loadEcxRegOrPc emitter ctx.rd 0 ++
          [.mov edx (.imm32 (BitVec.ofNat 32 ctx.cpOp2.val)), .call .remapTcm]
      else [.nop]
    else [debugBreak]) 5 25 :=
    ((remap.within rfl rfl).ite (one .nop rfl)).ite (one debugBreak rfl)
  rw [mcrCode]
  split
  · exact (fits_of_ble rfl rfl).ite ((fits_of_ble rfl rfl).ite ((one .nop rfl).ite other))
  · exact one debugBreak rfl

theorem fits_msrCode (spsr : Bool) {load : Operand → HostInstr}
    (size : ∀ register, (load (.reg register)).size ≤ 5) : Fits (msrCode ctx spsr load) 5 18 := by
  have mask : Fits (if ctx.rn ≠ 15 then [.alu .and eax (.imm32 (cpsrMask ctx.rn))] else []) 1 5 :=
    (fits_self _).ite .nil
  have toSpsr := (mask.cons_of_le (size .eax)).append (fits_self [.mov (.field .spsr) eax])
  have toCpsr := (fits_self [.mov edx (.imm32 (cpsrMask ctx.rn)), .call .loadcpsr,
    .movEbpEax]).cons_of_le (size .ecx)
  refine (fits_breakIfPc _).append ((fits_of_ble rfl rfl).ite (Fits.ite ?_ toCpsr))
  exact toSpsr.within rfl rfl

/-! ### The longest body -/

variable {ctx emitter} in
/-- The bounds that all instructions meet but the loads of many registers. -/
theorem fits_compileBody (held : Bool) (single : ctx.instruction ≠ .ldm ∧ ctx.instruction ≠ .ldmW) :
    Fits (compileBody ctx emitter held).code 29 123 := by
  have shifted := fits_loadShifterImm ctx emitter
  have breakRd := fits_breakIfPc ctx.rd
  have breakRn := fits_breakIfPc ctx.rn
  have breakRm := fits_breakIfPc ctx.rm
  have breakRs := fits_breakIfPc ctx.rs
  have store := fits_genericStore ctx emitter
  have storeP := fits_genericStoreP ctx emitter
  have storeR := fits_genericStoreR ctx emitter
  have storeX := fits_genericStoreX ctx
  have load := fits_genericLoad ctx emitter
  have loadPost := fits_genericLoadPost ctx emitter
  have loadR := fits_genericLoadR ctx emitter
  have loadRs := fits_genericLoadRs ctx emitter true
  have loadX := fits_genericLoadX ctx
  have post := fits_genericLoadstorePostupdateImm ctx
  have result := fits_storeRdEax ctx
  have link := fits_linkCode emitter
  have target := fits_loadEcxRegOrPc emitter ctx.rm 0
  have flagsFirst := fits_loadFlagsUnless held
  have carry := fits_self loadCarry
  have none := fits_self []
  have user : Fits (if ctx.sBit then [debugBreak] else []) 1 1 := (fits_self _).ite .nil
  rw [compileBody]
  generalize ctx.instruction = instruction at single ⊢
  cases instruction
  all_goals dsimp only [plain]
  case ldm => exact absurd rfl single.1
  case ldmW => exact absurd rfl single.2
  case movR => exact (fits_movR ctx emitter).within rfl rfl
  case rsbI => exact (fits_rsbI ctx emitter).within rfl rfl
  case mrc => exact (fits_mrcCode ctx).within rfl rfl
  case mcr => exact (fits_mcrCode ctx emitter).within rfl rfl
  case clz => exact (fits_clzCode ctx).within rfl rfl
  case msrCpsrI | msrSpsrI =>
    exact Fits.within (fits_msrCode ctx _ fun _ => Nat.le_refl 5) rfl rfl
  case msrCpsrR | msrSpsrR =>
    exact Fits.within (fits_msrCode ctx _ fun _ => show 3 ≤ 5 by decide) rfl rfl
  case stm => exact (user.append (fits_stmTransfer ctx emitter)).within rfl rfl
  case stmW =>
    exact ((user.append (fits_stmTransfer ctx emitter)).append (fits_updateDest ctx _)).within
      rfl rfl
  case strI | strbI => exact Fits.within ((store.append (fits_self _)).append post) rfl rfl
  case strIPW => exact Fits.within ((storeP.append (fits_self _)).append post) rfl rfl
  case strxI => exact ((store.append storeX).append post).within rfl rfl
  case strxIP => exact (storeP.append storeX).within rfl rfl
  case strxRP => exact (storeR.append storeX).within rfl rfl
  case strIP | strbIP => exact Fits.within (storeP.append (fits_self _)) rfl rfl
  case strRP | strbRP => exact Fits.within (storeR.append (fits_self _)) rfl rfl
  case ldrI | ldrbI => exact Fits.within ((loadPost.append post).append (fits_self _)) rfl rfl
  case ldrIP => exact (load.append result.cons).within rfl rfl
  case ldrxIP => exact ((load.append loadX).append result).within rfl rfl
  case ldrIPW | ldrbIPW =>
    exact Fits.within (((load.append (fits_self _)).append post).append result) rfl rfl
  case ldrxIPW => exact (((load.append loadX).append post).append result).within rfl rfl
  case ldrR =>
    exact ((fits_loadEcxRegOrPc emitter ctx.rn 0).append
      (fits_genericPostloadShift ctx emitter).cons).within rfl rfl
  case ldrRP | ldrRPW => exact Fits.within ((loadRs _).append (fits_self _)) rfl rfl
  case ldrbIP => exact Fits.within ((breakRd.append load).append (fits_self _)) rfl rfl
  case ldrbRP => exact Fits.within (loadR.append (fits_self _)) rfl rfl
  case ldrxRP => exact Fits.within ((loadR.append loadX).append (fits_self _)) rfl rfl
  case bl => exact Fits.within ((link.append (fits_self _)).append (fits_self _)) rfl rfl
  case blxI =>
    exact Fits.within (((link.append (fits_self _)).append (fits_self _)).append (fits_self _))
      rfl rfl
  case bx => exact Fits.within ((target.append (fits_self _)).append (fits_self _)) rfl rfl
  case blx => exact Fits.within ((link.append target).append (fits_self _)) rfl rfl
  case movRR =>
    exact Fits.within (fits_flagging emitter ((fits_registerShift ctx emitter).append (fits_self _))
      carry.cons _) rfl rfl
  case orrRR =>
    exact Fits.within (fits_flagging emitter ((fits_registerShift ctx emitter).append (fits_self _))
      carry _) rfl rfl
  case andI | eorI | orrI =>
    exact Fits.within (fits_flagging emitter (fits_logicalI ctx _) none _) rfl rfl
  case addI | subI =>
    exact Fits.within (fits_flagging emitter (fits_addSubI ctx emitter _ _) none _) rfl rfl
  case adcI =>
    exact Fits.within (fits_flagging emitter (fits_adcICode ctx emitter) none _) rfl rfl
  case mvnR =>
    exact Fits.within (fits_flagging emitter (fits_mvnRCode ctx emitter) none _) rfl rfl
  case umull | umlal | smull | smlal =>
    exact Fits.within (fits_flagging emitter (fits_mulLong ctx rfl _) none _) rfl rfl
  case movI =>
    exact Fits.within (fits_flagging emitter (breakRd.append (fits_self _)) (fits_self _) _) rfl rfl
  case addR =>
    exact (fits_flagging emitter (shifted.append (fits_logicalR ctx _)) none _).within rfl rfl
  case andR | eorR =>
    exact (fits_flagging emitter ((shifted.append (fits_logicalR ctx _)).append carry) none
      _).within rfl rfl
  case bicR =>
    exact (fits_flagging emitter ((shifted.append (fits_logicalR ctx _).cons).append carry) none
      _).within rfl rfl
  case adcR =>
    exact (fits_flagging emitter ((shifted.append (fits_self loadFlags).cons).append
      (fits_logicalR ctx _).cons) none _).within rfl rfl
  case subR =>
    exact (fits_flagging emitter (shifted.append (fits_minusR ctx .sub rfl rfl)) none _).within
      rfl rfl
  case sbcR =>
    exact Fits.within (fits_flagging emitter ((shifted.append flagsFirst.cons).append
      (fits_minusR ctx .sbb rfl rfl).cons) (fits_self _) _) rfl rfl
  case sbcI =>
    exact Fits.within (fits_flagging emitter (flagsFirst.append (fits_self _)) (fits_self _) _)
      rfl rfl
  case rscR =>
    exact Fits.within (fits_flagging emitter (((flagsFirst.append (fits_self _)).append
      shifted).append (fits_self _)) (fits_self _) _) rfl rfl
  case rsbR =>
    exact Fits.within (fits_flagging emitter (shifted.append (fits_self _)) none _) rfl rfl
  case orrR =>
    exact Fits.within (fits_flagging emitter ((shifted.append (fits_self _)).append carry) none _)
      rfl rfl
  case bicI =>
    exact Fits.within (fits_flagging emitter ((breakRn.append breakRd).append (fits_self _)) none
      _) rfl rfl
  case mlaR =>
    exact Fits.within (fits_flagging emitter ((((breakRm.append breakRs).append breakRd).append
      breakRn).append (fits_self _)) none _) rfl rfl
  case mulR =>
    exact Fits.within (fits_flagging emitter (((breakRm.append breakRs).append breakRd).append
      (fits_self _)) none _) rfl rfl
  case tstR | teqR | cmnR =>
    exact Fits.within (fits_flagging emitter ((breakRn.append shifted).append (fits_self _)) none
      _) rfl rfl
  case cmpR =>
    exact Fits.within (fits_flagging emitter ((breakRn.append shifted).append (fits_self _))
      (fits_self _) _) rfl rfl
  case tstI | teqI | cmpI | cmnI =>
    exact Fits.within (fits_flagging emitter (breakRn.append (fits_self _)) (fits_self _) _) rfl rfl
  case mvnI | mrsCpsr | mrsSpsr => exact Fits.within (breakRd.append (fits_self _)) rfl rfl
  all_goals exact fits_of_ble rfl rfl

variable {ctx} in
theorem compileBody_ldm (kind : ctx.instruction = .ldm ∨ ctx.instruction = .ldmW) (held : Bool) :
    (compileBody ctx emitter held).code = ldmCode ctx := by
  obtain ldm | ldmW := kind
  · rw [compileBody, ldm]
    rfl
  · rw [compileBody, ldmW]
    rfl

theorem bytes_compileBody_le (held : Bool) : bytes (compileBody ctx emitter held).code ≤ 123 := by
  by_cases kind : ctx.instruction = .ldm ∨ ctx.instruction = .ldmW
  · rw [compileBody_ldm emitter kind]
    exact (fits_ldmCode ctx).size
  · exact (fits_compileBody held (not_or.mp kind)).size

/-! ### Jumps -/

variable {World : Type} (env : HostEnv World)

/-- The jump at a byte position goes over so few bytes that its displacement byte
counts them, and it ends at the target whenever it is taken. -/
def SkipsTo (code : List HostInstr) (position : Nat) (cond : JumpCond) (target : Nat) : Prop :=
  ∃ distance : Nat, distance < 128 ∧ (BitVec.ofNat 8 distance).toInt = distance ∧
    fetch (hostIsa env) code position = some (.jcc cond distance) ∧
    ∀ state, cond.holds state.flags = true →
      step (hostIsa env) code (position, state) = some (target, state)

theorem toInt_ofNat_of_lt {distance : Nat} (short : distance < 128) :
    (BitVec.ofNat 8 distance).toInt = distance := by
  have same : (BitVec.ofNat 8 distance).toNat = distance := by
    rw [BitVec.toNat_ofNat, Nat.mod_eq_of_lt (by omega)]
  rw [BitVec.toInt_eq_toNat_of_lt (by omega), same]

/-- A jump over the code behind it, wherever this is placed. -/
theorem skipsTo_jcc (front body rest : List HostInstr) (cond : JumpCond)
    (short : bytes body < 128) :
    SkipsTo env (front ++ .jcc cond (bytes body) :: body ++ rest) (bytes front) cond
      (bytes (front ++ .jcc cond (bytes body) :: body)) := by
  have found : fetch (hostIsa env) (front ++ .jcc cond (bytes body) :: body ++ rest)
      (bytes front) = some (.jcc cond (bytes body)) := by
    rw [List.append_assoc, ← codeSize_eq_bytes env]
    exact fetch_append_right (hostIsa env) front _ 0
  refine ⟨bytes body, short, toInt_ofNat_of_lt short, found, fun state taken => ?_⟩
  have executed : (hostIsa env).exec (.jcc cond (bytes body)) state =
      some (state, (bytes body : Int)) := by
    simp [hostIsa, HostInstr.exec, taken]
  have size : (hostIsa env).size (.jcc cond (bytes body)) = 2 := rfl
  simp only [step, found, executed, size]
  rw [if_pos (by omega), bytes_append, bytes_cons]
  congr 2
  have same : (HostInstr.jcc cond (bytes body)).size = 2 := rfl
  omega

/-- What sets flags follows on the code. -/
theorem flagging_code (setFlags : Bool) (code final : List HostInstr) :
    ∃ rest, (flagging emitter setFlags code final).code = code ++ rest := by
  cases setFlags with
  | false => exact ⟨[], (List.append_nil code).symm⟩
  | true => exact ⟨final ++ storeFlags emitter, List.append_assoc _ _ _⟩

theorem shift_inside (kind : ctx.instruction = .movRR ∨ ctx.instruction = .orrRR)
    (flagsActual : Bool) :
    ∃ front rest, (compileBody ctx emitter flagsActual).code =
      front ++ shiftopEaxEcx ctx ++ rest := by
  have placed : ∃ rest final, (compileBody ctx emitter flagsActual).code =
      registerShift ctx emitter ++ rest ++ final := by
    obtain movRR | orrRR := kind
    · rw [compileBody, movRR]
      exact ⟨_, flagging_code emitter _ _ _⟩
    · rw [compileBody, orrRR]
      exact ⟨_, flagging_code emitter _ _ _⟩
  obtain ⟨rest, final, code⟩ := placed
  rw [code, registerShift]
  exact ⟨_, rest ++ final, List.append_assoc _ _ _⟩

/-- The jumps of an instruction that are patched end where they should. -/
structure SkipsFit (flagsUpdated : Bool) : Prop where
  /-- Over the instruction, to the first byte behind it. -/
  instruction : conditional ctx = true →
    SkipsTo env (compileInstruction ctx emitter flagsUpdated).code
      (bytes (testCode ctx emitter flagsUpdated)) (condJump ctx.cond).2
      (bytes (compileInstruction ctx emitter flagsUpdated).code)
  /-- Over a shift by zero, which only two instructions emit. -/
  shift : ctx.instruction = .movRR ∨ ctx.instruction = .orrRR →
    ∃ front rest,
      (compileInstruction ctx emitter flagsUpdated).code = front ++ shiftopEaxEcx ctx ++ rest ∧
        SkipsTo env (compileInstruction ctx emitter flagsUpdated).code (bytes front + 8) .z
          (bytes (front ++ shiftopEaxEcx ctx))

theorem skipsTo_shiftopEaxEcx (front rest : List HostInstr) :
    SkipsTo env (front ++ shiftopEaxEcx ctx ++ rest) (bytes front + 8) .z
      (bytes (front ++ shiftopEaxEcx ctx)) := by
  have short : bytes (shiftopBody ctx) < 128 := Nat.lt_of_le_of_lt (fits_shiftopBody ctx).size
    (show 16 < 128 by decide)
  have jump := skipsTo_jcc env
    (front ++ [.mov esi (.field .x86Flags), .shrEsi 8, .alu .or ecx ecx]) _ rest .z short
  have size : bytes [.mov esi (.field .x86Flags), .shrEsi 8, .alu .or ecx ecx] = 8 := rfl
  rw [bytes_append front, size] at jump
  simpa only [shiftopEaxEcx, List.append_assoc, List.cons_append, List.nil_append] using jump

theorem skipsFit (flagsUpdated : Bool) : SkipsFit ctx emitter env flagsUpdated where
  instruction tests := by
    have short := bytes_compileBody_le ctx emitter
      (flagsHeld emitter flagsUpdated || conditional ctx)
    have jump := skipsTo_jcc env (testCode ctx emitter flagsUpdated) _ [] (condJump ctx.cond).2
      (Nat.lt_of_le_of_lt short (show 123 < 128 by decide))
    have code : (compileInstruction ctx emitter flagsUpdated).code =
        testCode ctx emitter flagsUpdated ++ .jcc (condJump ctx.cond).2 (bytes (compileBody ctx
          emitter (flagsHeld emitter flagsUpdated || conditional ctx)).code) :: (compileBody ctx
            emitter (flagsHeld emitter flagsUpdated || conditional ctx)).code := by
      simp [compileInstruction, preamble, testCode, tests]
    rwa [List.append_nil, ← code] at jump
  shift kind := by
    obtain ⟨front, rest, body⟩ := shift_inside ctx emitter kind
      (flagsHeld emitter flagsUpdated || conditional ctx)
    have code : (compileInstruction ctx emitter flagsUpdated).code =
        preamble ctx emitter flagsUpdated (bytes (compileBody ctx emitter
          (flagsHeld emitter flagsUpdated || conditional ctx)).code) ++ front ++
            shiftopEaxEcx ctx ++ rest := by
      rw [compileInstruction, body, List.append_assoc, List.append_assoc, List.append_assoc]
    rw [code]
    exact ⟨_, rest, rfl, skipsTo_shiftopEaxEcx ctx env _ rest⟩

/-- Every word of the guest, after any words before it. -/
theorem skipsFit_decoded (prior : Disassembler) (inst : Nat) (lookaheadS flagsUpdated : Bool) :
    (∀ word addr : BitVec 32,
      SkipsFit (prior.decode word addr).toContext ⟨2, inst, lookaheadS⟩ env flagsUpdated) ∧
    ∀ (half : BitVec 16) (addr : BitVec 32),
      SkipsFit (prior.decodeThumb (half.setWidth 32) addr).toContext ⟨1, inst, lookaheadS⟩ env
        flagsUpdated :=
  ⟨fun _ _ => skipsFit _ _ env flagsUpdated, fun _ _ => skipsFit _ _ env flagsUpdated⟩

end Compiler

end Ndse
