import Ndse.CrashResolution

/-!
# Breaks inside of a guest instruction

A break can be set on every host instruction of a guest instruction, as far as
its `break_data` has lines for them.  The lines do not suffice for all loads that
go through the host stack.
-/

namespace Ndse

namespace Compiler

/-! ### The pieces of a block -/

/-- The code of an instruction up to the next one or to the end of the block. -/
def subCode (isa : InstructionSet) (ctx : Context) (inst : Nat) (lookaheadS flagsUpdated : Bool) :
    List HostInstr :=
  (compileInstruction ctx ⟨isa.instructionSizeLg2, inst, lookaheadS⟩ flagsUpdated).code ++
    if inst + 1 < isa.remaps then [] else epilogue

/-- The pieces of the rest of a page. -/
def subCodes (isa : InstructionSet) : (inst : Nat) → (flagsUpdated : Bool) → List Context →
    List (List HostInstr)
  | _, _, [] => []
  | inst, flagsUpdated, ctx :: page =>
      let lookaheadS := match page with
        | [] => false
        | next :: _ => lookahead next
      let emitted := compileInstruction ctx ⟨isa.instructionSizeLg2, inst, lookaheadS⟩ flagsUpdated
      subCode isa ctx inst lookaheadS flagsUpdated ::
        subCodes isa (inst + 1) emitted.flagsUpdated page

variable {isa : InstructionSet} {inst : Nat} {flagsUpdated : Bool} {page : List Context}

theorem length_subCodes : (subCodes isa inst flagsUpdated page).length = page.length := by
  induction page generalizing inst flagsUpdated with
  | nil => rfl
  | cons ctx page ih => exact congrArg (· + 1) ih

/-- The pieces make up the block. -/
theorem flatten_subCodes (whole : inst + page.length = isa.remaps) (some : page ≠ []) :
    (subCodes isa inst flagsUpdated page).flatten =
      compileLoop isa.instructionSizeLg2 inst flagsUpdated page ++ epilogue := by
  induction page generalizing inst flagsUpdated with
  | nil => exact absurd rfl some
  | cons ctx page ih =>
      rw [List.length_cons] at whole
      cases page with
      | nil =>
          have last : ¬inst + 1 < isa.remaps := by
            rw [← whole]
            exact Nat.lt_irrefl _
          simp [subCodes, subCode, compileLoop, last]
      | cons next page =>
          have more : inst + 1 < isa.remaps := by
            rw [← whole, List.length_cons]
            omega
          have rest := @ih (inst + 1) (compileInstruction ctx ⟨isa.instructionSizeLg2, inst,
            lookahead next⟩ flagsUpdated).flagsUpdated (by omega) (List.cons_ne_nil _ _)
          rw [subCodes, List.flatten_cons, compileLoop, List.append_assoc, ← rest, subCode,
            if_pos more, List.append_nil]

/-- The table has the places where the pieces start. -/
theorem remapLoop_subCodes (whole : inst + page.length = isa.remaps) {tellp i : Nat}
    (inside : i < page.length) :
    (remapLoop isa.instructionSizeLg2 inst flagsUpdated page tellp)[i]? =
      some (tellp + bytes ((subCodes isa inst flagsUpdated page).take i).flatten) := by
  induction page generalizing inst flagsUpdated tellp i with
  | nil => exact absurd inside (Nat.not_lt_zero i)
  | cons ctx page ih =>
      rw [List.length_cons] at whole inside
      cases i with
      | zero => simp [remapLoop]
      | succ i =>
          have more : inst + 1 < isa.remaps := by omega
          unfold remapLoop subCodes
          rw [List.getElem?_cons_succ, ih (by omega) (by omega), List.take_succ_cons,
            List.flatten_cons, bytes_append, subCode, if_pos more, List.append_nil]
          exact congrArg some (Nat.add_assoc _ _ _)

theorem remap_compile (d : Disassembler) (mem : PageBytes) (code : Nat) (behind : Nat → Nat)
    {i : Nat} (inside : i < isa.remaps) :
    (compile isa d mem code behind).remap i = code +
      bytes ((subCodes isa 0 false (isa.contexts d (isa.pageWords mem))).take i).flatten := by
  have length := length_page isa d mem
  have entry := @remapLoop_subCodes isa 0 false _ ((Nat.zero_add _).trans length) 0 i
    (length.symm ▸ inside)
  simp only [compile, entry, Nat.zero_add]

theorem codeSize_compile (d : Disassembler) (mem : PageBytes) (code : Nat) (behind : Nat → Nat) :
    (compile isa d mem code behind).codeSize =
      bytes (subCodes isa 0 false (isa.contexts d (isa.pageWords mem))).flatten := by
  have length := length_page isa d mem
  have some : isa.contexts d (isa.pageWords mem) ≠ [] := by
    intro none
    rw [none] at length
    exact (remaps_pos isa).ne length
  exact congrArg bytes (flatten_subCodes ((Nat.zero_add _).trans length) some).symm

/-- What is disassembled for an instruction of a block is its piece. -/
theorem piece_compile (d : Disassembler) (mem : PageBytes) (code : Nat) (behind : Nat → Nat)
    (addr : BitVec 32) :
    ∃ front piece rest,
      subCodes isa 0 false (isa.contexts d (isa.pageWords mem)) = front ++ piece :: rest ∧
      front.length = (addr.setWidth 9).toNat >>> isa.instructionSizeLg2 ∧
      Translations.piece isa (compile isa d mem code behind) addr =
        (code + bytes front.flatten, bytes piece) := by
  have length := length_page isa d mem
  have inside : (addr.setWidth 9).toNat >>> isa.instructionSizeLg2 < isa.remaps := by
    have offset := (addr.setWidth 9).isLt
    rw [InstructionSet.remaps, Nat.shiftRight_eq_div_pow]
    cases isa <;> simp only [InstructionSet.instructionSizeLg2] <;> omega
  rw [← @length_subCodes isa 0 false] at length
  have remap {i : Nat} := @remap_compile isa d mem code behind i
  have size := @codeSize_compile isa d mem code behind
  generalize subCodes isa 0 false (isa.contexts d (isa.pageWords mem)) = pieces at *
  rw [Translations.piece]
  generalize (addr.setWidth 9).toNat >>> isa.instructionSizeLg2 = i at *
  have here : i < pieces.length := length.symm ▸ inside
  have next : pieces.take (i + 1) = pieces.take i ++ [pieces[i]] :=
    List.take_succ_eq_append_getElem here
  refine ⟨pieces.take i, pieces[i], pieces.drop (i + 1), ?_, ?_, ?_⟩
  · rw [List.getElem_cons_drop, List.take_append_drop]
  · rw [List.length_take, Nat.min_eq_left here.le]
  · split
    · next last =>
      have all : pieces.flatten = (pieces.take i).flatten ++ pieces[i] := by
        rw [← List.flatten_concat, ← next, List.take_of_length_le (length.trans_le last)]
      have start : (compile isa d mem code behind).code = code := rfl
      rw [remap inside, size, all, start, bytes_append]
      simp only [Prod.mk.injEq, true_and]
      omega
    · next more =>
      rw [remap inside, remap (Nat.lt_of_not_le more), next, List.flatten_concat, bytes_append]
      simp only [Prod.mk.injEq, true_and]
      omega

/-! ### How many instructions there are -/

/-- A load goes through the host stack for the registers of the user's bank, and
for a list with gaps. -/
def StagesLoad (ctx : Context) : Prop :=
  (ctx.instruction = .ldm ∨ ctx.instruction = .ldmW) ∧
    (ctx.sBit = true ∨ transferList ctx ≠ [] ∧ isRegion ctx = false)

/-- The instructions of such a load besides those that take the registers from
the stack. -/
def stagingCount (ctx : Context) : Nat :=
  (if ctx.addressingMode = .ia then 6 else 8) + (if ctx.sBit then 7 else 0) +
    (if ldmKeepsBase ctx then 2 else 0) + (if ldmUpdates ctx then 1 else 0) +
    if ctx.imm.getLsbD 15 then 5 else 0

/-- The cycle counter and the test of the condition. -/
def testCount (ctx : Context) (held : Bool) : Nat :=
  if conditional ctx then
    (if held then 2 else 5) + if ctx.cond = .hi ∨ ctx.cond = .ls then 1 else 0
  else 1

/-- The epilogue behind the last instruction. -/
def endCount (isa : InstructionSet) (inst : Nat) : Nat := if inst + 1 < isa.remaps then 0 else 5

variable {ctx : Context} {emitter : Emitter}

theorem length_pushMultiple (num : Nat) :
    (pushMultiple ctx num).length = if ctx.addressingMode = .ia then 1 else 3 := by
  rw [pushMultiple]
  cases ctx.addressingMode <;> rfl

theorem length_updateDest (size : Nat) : (updateDest ctx size).length = 1 := by
  rw [updateDest]
  cases ctx.addressingMode <;> rfl

theorem length_ldmToStack (num : Nat) :
    (ldmToStack ctx num).length = if ctx.addressingMode = .ia then 6 else 8 := by
  rw [ldmToStack, List.length_append, List.length_append, length_pushMultiple]
  split <;> rfl

theorem length_ldmTransfer (stages : StagesLoad ctx) :
    (ldmTransfer ctx).length = (transferList ctx).length +
      ((if ctx.addressingMode = .ia then 6 else 8) + if ctx.sBit then 7 else 0) := by
  rw [ldmTransfer]
  cases user : ctx.sBit with
  | true =>
      have switches : ldmSwitchuser.length + ldmSwitchback.length = 7 := rfl
      rw [if_pos rfl, if_pos rfl, List.length_append, List.length_append, List.length_append,
        length_ldmToStack, List.length_map]
      omega
  | false =>
      obtain ⟨some, gap⟩ := stages.2.resolve_left (by rw [user]; exact Bool.false_ne_true)
      rw [if_neg Bool.false_ne_true, if_neg Bool.false_ne_true]
      rw [isRegion] at gap
      split
      · next empty => exact absurd empty some
      · next single =>
        rw [single] at gap
        simp at gap
      · rw [if_neg, List.length_append, length_ldmToStack, List.length_map, Nat.add_zero,
          Nat.add_comm]
        rw [isRegion, gap]
        exact Bool.false_ne_true

theorem length_ldmCode (stages : StagesLoad ctx) :
    (ldmCode ctx).length = (transferList ctx).length + stagingCount ctx := by
  have branch : (if ctx.imm.getLsbD 15 then
      .mov ecx (guest 15) :: updateCallstack ++ [.jmpBranch] else []).length =
      if ctx.imm.getLsbD 15 then 5 else 0 := by
    split <;> rfl
  rw [ldmCode, List.length_append, List.length_append, List.length_append,
    length_ldmTransfer stages, branch, stagingCount]
  cases keeps : ldmKeepsBase ctx with
  | true =>
      have updates : ldmUpdates ctx = true := ldmUpdates_of_keepsBase keeps
      simp [updates, length_updateDest]
      omega
  | false =>
      cases ldmUpdates ctx <;> simp [length_updateDest] <;> omega

theorem length_preamble_eq (skipped : Nat) :
    (preamble ctx emitter flagsUpdated skipped).length =
      testCount ctx (flagsHeld emitter flagsUpdated) := by
  rw [preamble, testCount]
  split
  · rw [loadFlagsUnless]
    cases flagsHeld emitter flagsUpdated <;> cases ctx.cond <;> rfl
  · rfl

theorem length_subCode (lookaheadS : Bool) :
    (subCode isa ctx inst lookaheadS flagsUpdated).length =
      testCount ctx (flagsHeld ⟨isa.instructionSizeLg2, inst, lookaheadS⟩ flagsUpdated) +
        (compileBody ctx ⟨isa.instructionSizeLg2, inst, lookaheadS⟩
          (flagsHeld ⟨isa.instructionSizeLg2, inst, lookaheadS⟩ flagsUpdated ||
            conditional ctx)).code.length + endCount isa inst := by
  rw [subCode, List.length_append, compileInstruction, List.length_append, length_preamble_eq,
    endCount]
  congr 1
  split <;> rfl

theorem testCount_le (held : Bool) : testCount ctx held ≤ 6 := by
  rw [testCount]
  split_ifs <;> decide

theorem endCount_le : endCount isa inst ≤ 5 := by
  rw [endCount]
  split <;> decide

/-- Other loads are short. -/
theorem fits_ldmTransfer_direct (direct : ¬(ctx.sBit = true ∨
    transferList ctx ≠ [] ∧ isRegion ctx = false)) : Fits (ldmTransfer ctx) 8 21 := by
  rw [ldmTransfer, if_neg (not_or.mp direct).1]
  split
  · exact fits_of_ble rfl rfl
  · exact ((fits_loadEcxSingle ctx).append (fits_self _)).within rfl rfl
  · next lowest rest _ registers =>
    have region : isRegion ctx = true := by
      by_contra gap
      exact direct (.inr ⟨by rw [registers]; exact List.cons_ne_nil _ _,
        Bool.eq_false_iff.mpr gap⟩)
    rw [if_pos region]
    exact fits_region ctx lowest _ _

theorem length_compileBody_le (direct : ¬StagesLoad ctx) (held : Bool) :
    (compileBody ctx emitter held).code.length ≤ 29 := by
  by_cases kind : ctx.instruction = .ldm ∨ ctx.instruction = .ldmW
  · rw [compileBody_ldm emitter kind]
    have transfer := fits_ldmTransfer_direct fun stages => direct ⟨kind, stages⟩
    exact (fits_ldmCode_of ctx transfer).count.trans (show 16 ≤ 29 by decide)
  · exact (fits_compileBody held (not_or.mp kind)).count

/-! ### The lines suffice -/

/-- The lines of a `break_data` suffice for the code of an instruction. -/
def FitsLines (isa : InstructionSet) (ctx : Context) (inst : Nat) (lookaheadS flagsUpdated : Bool) :
    Prop :=
  (subCode isa ctx inst lookaheadS flagsUpdated).length ≤ maxSubinstructions

/-- The registers that an instruction loads through the stack are few enough. -/
def FewRegisters (isa : InstructionSet) (ctx : Context) (inst : Nat)
    (lookaheadS flagsUpdated : Bool) : Prop :=
  StagesLoad ctx →
    (transferList ctx).length + stagingCount ctx + testCount ctx (flagsUpdated && !lookaheadS) +
      endCount isa inst ≤ maxSubinstructions

theorem fitsLines_iff (lookaheadS : Bool) :
    FitsLines isa ctx inst lookaheadS flagsUpdated ↔
      FewRegisters isa ctx inst lookaheadS flagsUpdated := by
  rw [FitsLines, FewRegisters, length_subCode]
  by_cases stages : StagesLoad ctx
  · have body : (compileBody ctx ⟨isa.instructionSizeLg2, inst, lookaheadS⟩
        (flagsHeld ⟨isa.instructionSizeLg2, inst, lookaheadS⟩ flagsUpdated ||
          conditional ctx)).code.length = (transferList ctx).length + stagingCount ctx := by
      rw [compileBody_ldm _ stages.1, length_ldmCode stages]
    rw [body, forall_prop_of_true stages, Nat.add_comm (testCount _ _)]
    exact Iff.rfl
  · have body := @length_compileBody_le ctx ⟨isa.instructionSizeLg2, inst, lookaheadS⟩ stages
      (flagsHeld ⟨isa.instructionSizeLg2, inst, lookaheadS⟩ flagsUpdated || conditional ctx)
    have test := @testCount_le ctx
      (flagsHeld ⟨isa.instructionSizeLg2, inst, lookaheadS⟩ flagsUpdated)
    have last := @endCount_le isa inst
    exact iff_of_true (by rw [maxSubinstructions]; omega) fun load => absurd load stages

/-- Every word of the guest, after any words before it. -/
theorem fitsLines_decoded_iff (prior : Disassembler) (inst : Nat) (lookaheadS flagsUpdated : Bool) :
    (∀ word addr : BitVec 32,
      FitsLines .arm (prior.decode word addr).toContext inst lookaheadS flagsUpdated ↔
        FewRegisters .arm (prior.decode word addr).toContext inst lookaheadS flagsUpdated) ∧
    ∀ (half : BitVec 16) (addr : BitVec 32),
      FitsLines .thumb (prior.decodeThumb (half.setWidth 32) addr).toContext inst lookaheadS
          flagsUpdated ↔
        FewRegisters .thumb (prior.decodeThumb (half.setWidth 32) addr).toContext inst lookaheadS
          flagsUpdated :=
  ⟨fun _ _ => fitsLines_iff lookaheadS, fun _ _ => fitsLines_iff lookaheadS⟩

/-- `ldmdbhi r0!, {r0-r15}^`, the first of its page. -/
theorem fitsLines_fails :
    ¬FitsLines .arm (Disassembler.fresh.decode 0x8970FFFF 0).toContext 0 false false := by
  rw [FitsLines]
  decide

end Compiler

end Ndse
