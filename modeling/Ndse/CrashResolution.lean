import Ndse.Breakpoint
import Ndse.CompilerSizes
import Ndse.DisassemblerThumb

/-!
# The guest instruction of a host address

Every block of translated code has a table of the places where the code of each
guest instruction starts.  When translated code crashes, the table is searched
for the instruction that the host was in.
-/

namespace Ndse

open Compiler

/-! ### The table of a block -/

namespace InstructionSet

/-- `disassembler::decode<U>`. -/
def decode (isa : InstructionSet) (d : Disassembler) (op : BitVec 32) : Disassembler :=
  match isa with
  | arm => d.decode op 0
  | thumb => d.decodeThumb op 0

/-- The words of a page. -/
def pageWords (isa : InstructionSet) (mem : PageBytes) : List (BitVec 32) :=
  (List.range isa.remaps).map fun inst =>
    peekWord mem (BitVec.ofNat 9 (inst <<< isa.instructionSizeLg2)) (1 <<< isa.instructionSizeLg2)

/-- The contexts of words that one decoder decodes. -/
def contexts (isa : InstructionSet) : Disassembler → List (BitVec 32) → List Context
  | _, [] => []
  | d, op :: ops => (isa.decode d op).toContext :: contexts isa (isa.decode d op) ops

end InstructionSet

namespace Compiler

/-- `remap` as the loop of `compile` fills it, relative to `code`. -/
def remapLoop (instBits : Nat) : (inst : Nat) → (flagsUpdated : Bool) → List Context → Nat →
    List Nat
  | _, _, [], _ => []
  | inst, flagsUpdated, ctx :: page, tellp =>
      let lookaheadS := match page with
        | [] => false
        | next :: _ => lookahead next
      let emitted := compileInstruction ctx ⟨instBits, inst, lookaheadS⟩ flagsUpdated
      tellp :: remapLoop instBits (inst + 1) emitted.flagsUpdated page (tellp + bytes emitted.code)

/-- `compile`: a page is translated, its code is placed at `code`, and the table
is relocated.  Behind the table lies something else. -/
def compile (isa : InstructionSet) (d : Disassembler) (mem : PageBytes) (code : Nat)
    (behind : Nat → Nat) : CodeLayout :=
  let page := isa.contexts d (isa.pageWords mem)
  { code := code
    codeSize := bytes (compilePage isa.instructionSizeLg2 page ++ epilogue)
    remap := fun inst =>
      match (remapLoop isa.instructionSizeLg2 0 false page 0)[inst]? with
      | some tellp => code + tellp
      | none => behind inst }

end Compiler

/-! ### The search -/

/-- The loop of `update_breakinfo` from `i` on: the indices at which `remap` is
read, and the instruction that is found. -/
def searchFrom (remap : Nat → Nat) (eip last i : Nat) : List Nat × Nat :=
  if remap (i + 1) ≤ eip ∧ i < last then
    ((i + 1) :: (searchFrom remap eip last (i + 1)).1, (searchFrom remap eip last (i + 1)).2)
  else ([i + 1], i)
termination_by last - i

/-- The search of `update_breakinfo`. -/
def updateBreakinfo (isa : InstructionSet) (block : CodeLayout) (eip : Nat) : List Nat × Nat :=
  searchFrom block.remap eip (isa.remaps - 1) 0

/-- The code of an instruction holds a host address. -/
structure HoldsEip (remap : Nat → Nat) (eip last i : Nat) : Prop where
  inside : i ≤ last
  start : remap i ≤ eip
  stop : i = last ∨ eip < remap (i + 1)

variable {remap : Nat → Nat} {eip last i : Nat}

theorem searchFrom_holds (inside : i ≤ last) (start : remap i ≤ eip) :
    HoldsEip remap eip last (searchFrom remap eip last i).2 := by
  induction i using searchFrom.induct remap eip last with
  | case1 i more ih =>
      rw [searchFrom, if_pos more]
      exact ih (by omega) more.1
  | case2 i done =>
      rw [searchFrom, if_neg done]
      refine ⟨inside, start, ?_⟩
      change i = last ∨ eip < remap (i + 1)
      omega

theorem le_searchFrom (remap : Nat → Nat) (eip last i : Nat) :
    i ≤ (searchFrom remap eip last i).2 := by
  induction i using searchFrom.induct remap eip last with
  | case1 i more ih =>
      rw [searchFrom, if_pos more]
      exact Nat.le_of_succ_le ih
  | case2 i done =>
      rw [searchFrom, if_neg done]

/-- The entry behind the one that is found is always read, and none behind that. -/
theorem searchFrom_reads (bound : Nat) :
    (∀ index ∈ (searchFrom remap eip last i).1, index ≤ bound) ↔
      (searchFrom remap eip last i).2 + 1 ≤ bound := by
  induction i using searchFrom.induct remap eip last with
  | case1 i more ih =>
      rw [searchFrom, if_pos more, List.forall_mem_cons, ih, and_iff_right_iff_imp]
      have after := le_searchFrom remap eip last (i + 1)
      intro within
      exact (Nat.le_succ_of_le after).trans within
  | case2 i done =>
      rw [searchFrom, if_neg done]
      exact List.forall_mem_singleton

/-- The table ascends as far as it goes. -/
def Ascends (remap : Nat → Nat) (last : Nat) : Prop :=
  ∀ i j, i < j → j ≤ last → remap i < remap j

theorem HoldsEip.unique (ascends : Ascends remap last) {j : Nat}
    (first : HoldsEip remap eip last i) (second : HoldsEip remap eip last j) : i = j := by
  have apart {i j : Nat} (first : HoldsEip remap eip last i) (second : HoldsEip remap eip last j) :
      ¬i < j := by
    intro less
    have inside := second.inside
    have start := second.start
    have beyond := first.stop.resolve_left (by omega)
    obtain same | later := Nat.eq_or_lt_of_le (show i + 1 ≤ j from less)
    · rw [← same] at start
      omega
    · have after := ascends (i + 1) j later inside
      omega
  have one := apart first second
  have other := apart second first
  omega

/-- The search stays inside the table unless it comes to the last instruction. -/
theorem searchFrom_inside_iff (ascends : Ascends remap last) (start : remap 0 ≤ eip) :
    (∀ index ∈ (searchFrom remap eip last 0).1, index ≤ last) ↔ eip < remap last := by
  have holds := searchFrom_holds (Nat.zero_le last) start
  have inside := holds.inside
  rw [searchFrom_reads]
  constructor
  · intro short
    have beyond := holds.stop.resolve_left (by omega)
    obtain same | later := Nat.eq_or_lt_of_le short
    · rwa [same] at beyond
    · exact beyond.trans (ascends _ last later (Nat.le_refl last))
  · intro before
    have other : (searchFrom remap eip last 0).2 ≠ last := by
      intro same
      have start := holds.start
      rw [same] at start
      omega
    omega

/-! ### The table ascends -/

namespace Compiler

theorem bytes_compileInstruction_pos (ctx : Context) (emitter : Emitter) (flagsUpdated : Bool) :
    0 < bytes (compileInstruction ctx emitter flagsUpdated).code := by
  rw [compileInstruction, preamble, List.cons_append, bytes_cons]
  exact Nat.add_pos_left (HostInstr.size_pos _) _

theorem length_remapLoop (instBits inst : Nat) (flagsUpdated : Bool) (page : List Context)
    (tellp : Nat) : (remapLoop instBits inst flagsUpdated page tellp).length = page.length := by
  induction page generalizing inst flagsUpdated tellp with
  | nil => rfl
  | cons ctx page ih => exact congrArg (· + 1) (ih _ _ _)

theorem le_of_mem_remapLoop {instBits inst : Nat} {flagsUpdated : Bool} {page : List Context}
    {tellp entry : Nat} (member : entry ∈ remapLoop instBits inst flagsUpdated page tellp) :
    tellp ≤ entry := by
  induction page generalizing inst flagsUpdated tellp with
  | nil => exact absurd member List.not_mem_nil
  | cons ctx page ih =>
      obtain rfl | later := List.mem_cons.mp member
      · exact Nat.le_refl _
      · exact (Nat.le_add_right _ _).trans (ih later)

theorem lt_of_mem_remapLoop {instBits inst : Nat} {flagsUpdated : Bool} {page : List Context}
    {tellp entry : Nat} (member : entry ∈ remapLoop instBits inst flagsUpdated page tellp) :
    entry < tellp + bytes (compileLoop instBits inst flagsUpdated page) := by
  induction page generalizing inst flagsUpdated tellp with
  | nil => exact absurd member List.not_mem_nil
  | cons ctx page ih =>
      unfold compileLoop
      rw [bytes_append]
      obtain rfl | later := List.mem_cons.mp member
      · exact Nat.lt_add_of_pos_right (Nat.add_pos_left (bytes_compileInstruction_pos _ _ _) _)
      · rw [← Nat.add_assoc]
        exact ih later

theorem remapLoop_ascends (instBits inst : Nat) (flagsUpdated : Bool) (page : List Context)
    (tellp : Nat) : (remapLoop instBits inst flagsUpdated page tellp).Pairwise (· < ·) := by
  induction page generalizing inst flagsUpdated tellp with
  | nil => exact List.Pairwise.nil
  | cons ctx page ih =>
      refine List.pairwise_cons.mpr ⟨fun entry member => ?_, ih _ _ _⟩
      exact (Nat.lt_add_of_pos_right (bytes_compileInstruction_pos _ _ _)).trans_le
        (le_of_mem_remapLoop member)

end Compiler

theorem InstructionSet.length_contexts (isa : InstructionSet) (d : Disassembler)
    (ops : List (BitVec 32)) : (isa.contexts d ops).length = ops.length := by
  induction ops generalizing d with
  | nil => rfl
  | cons op ops ih => exact congrArg (· + 1) (ih _)

section Compiled

variable (isa : InstructionSet) (d : Disassembler) (mem : PageBytes) (code : Nat)
  (behind : Nat → Nat)

theorem length_page : (isa.contexts d (isa.pageWords mem)).length = isa.remaps := by
  rw [isa.length_contexts, InstructionSet.pageWords, List.length_map, List.length_range]

theorem length_table : (remapLoop isa.instructionSizeLg2 0 false
    (isa.contexts d (isa.pageWords mem)) 0).length = isa.remaps := by
  rw [length_remapLoop, length_page]

theorem remaps_pos : 0 < isa.remaps := by
  cases isa <;> decide

theorem compile_ascends : Ascends (compile isa d mem code behind).remap (isa.remaps - 1) := by
  intro i j less inside
  have length := length_table isa d mem
  have positive := remaps_pos isa
  have first : i < (remapLoop isa.instructionSizeLg2 0 false
      (isa.contexts d (isa.pageWords mem)) 0).length := by omega
  have second : j < (remapLoop isa.instructionSizeLg2 0 false
      (isa.contexts d (isa.pageWords mem)) 0).length := by omega
  simp only [compile, List.getElem?_eq_getElem first, List.getElem?_eq_getElem second]
  exact Nat.add_lt_add_left
    (List.pairwise_iff_getElem.mp (remapLoop_ascends _ _ _ _ _) i j first second less) code

theorem compile_remap_zero : (compile isa d mem code behind).remap 0 = code := by
  have length := isa.length_contexts d (isa.pageWords mem)
  have positive := remaps_pos isa
  rw [InstructionSet.pageWords, List.length_map, List.length_range] at length
  simp only [compile]
  rw [InstructionSet.pageWords]
  cases page : isa.contexts d _ with
  | nil =>
      rw [page] at length
      exact absurd length positive.ne
  | cons ctx page => exact Nat.add_zero code

theorem compile_remap_lt {i : Nat} (inside : i < isa.remaps) :
    (compile isa d mem code behind).remap i <
      code + (compile isa d mem code behind).codeSize := by
  have entry : i < (remapLoop isa.instructionSizeLg2 0 false
      (isa.contexts d (isa.pageWords mem)) 0).length := (length_table isa d mem).symm ▸ inside
  have within := lt_of_mem_remapLoop (List.getElem_mem entry)
  rw [Nat.zero_add] at within
  simp only [compile, List.getElem?_eq_getElem entry, compilePage, bytes_append]
  omega

/-- What the resolution of a crash in a block is to do. -/
structure Resolves (isa : InstructionSet) (block : CodeLayout) (eip : Nat) : Prop where
  reads : ∀ index ∈ (updateBreakinfo isa block eip).1, index ≤ isa.remaps - 1
  finds : ∀ i, HoldsEip block.remap eip (isa.remaps - 1) i ↔ i = (updateBreakinfo isa block eip).2

/-- The right instruction is found, even if something behind the table was read. -/
theorem updateBreakinfo_finds (above : code ≤ eip) (i : Nat) :
    HoldsEip (compile isa d mem code behind).remap eip (isa.remaps - 1) i ↔
      i = (updateBreakinfo isa (compile isa d mem code behind) eip).2 := by
  have start := compile_remap_zero isa d mem code behind
  have holds : HoldsEip _ eip (isa.remaps - 1)
      (updateBreakinfo isa (compile isa d mem code behind) eip).2 :=
    searchFrom_holds (Nat.zero_le _) (start.trans_le above)
  constructor
  · intro other
    exact other.unique (compile_ascends isa d mem code behind) holds
  · rintro rfl
    exact holds

theorem resolves_compile_iff (above : code ≤ eip) :
    Resolves isa (compile isa d mem code behind) eip ↔
      eip < (compile isa d mem code behind).remap (isa.remaps - 1) := by
  have start := compile_remap_zero isa d mem code behind
  have inside : _ ↔ eip < (compile isa d mem code behind).remap (isa.remaps - 1) :=
    searchFrom_inside_iff (compile_ascends isa d mem code behind) (start.trans_le above)
  rw [← inside]
  exact ⟨fun resolves => resolves.reads,
    fun reads => ⟨reads, updateBreakinfo_finds isa d mem code behind above⟩⟩

/-- A crash is resolved in all of a block but the last instruction and the
epilogue behind it. -/
theorem updateBreakinfo_resolves_iff (eip : Nat)
    (inside : code ≤ eip ∧ eip < code + (compile isa d mem code behind).codeSize) :
    Resolves isa (compile isa d mem code behind) eip ↔
      eip < (compile isa d mem code behind).remap (isa.remaps - 1) :=
  resolves_compile_iff isa d mem code behind inside.1

end Compiled

/-- A decoder that has not decoded anything. -/
def Disassembler.fresh : Disassembler where
  instruction := .unknown
  cond := .al
  shift := .lsl
  addressingMode := .da
  extendMode := .invalid
  sBit := false
  uBit := false
  imm := 0
  rd := 0
  rn := 0
  rm := 0
  rs := 0
  cpNum := 0
  cpOp1 := 0
  cpOp2 := 0
  op := 0
  addr := 0
  sConsuming := false

/-- A page of zeros for the ARM, at `1000h`. -/
def zeroBlock : CodeLayout := compile .arm .fresh (fun _ => 0) 0x1000 fun _ => 0

theorem zeroBlock_zero : zeroBlock.remap 0 = 0x1000 :=
  compile_remap_zero .arm .fresh (fun _ => 0) 0x1000 fun _ => 0

theorem zeroBlock_ascends : Ascends zeroBlock.remap 127 :=
  compile_ascends .arm .fresh (fun _ => 0) 0x1000 fun _ => 0

theorem zeroBlock_lt {i : Nat} (inside : i < 128) :
    zeroBlock.remap i < 0x1000 + zeroBlock.codeSize := by
  rw [zeroBlock]
  exact compile_remap_lt .arm .fresh (fun _ => 0) 0x1000 (fun _ => 0) inside

/-- The last byte of the 65th instruction belongs to it. -/
theorem updateBreakinfo_resolves_middle :
    Resolves .arm zeroBlock (zeroBlock.remap 65 - 1) ∧
      (updateBreakinfo .arm zeroBlock (zeroBlock.remap 65 - 1)).2 = 64 := by
  have start := zeroBlock_zero
  have first := zeroBlock_ascends 0 64 (by decide) (by decide)
  have middle := zeroBlock_ascends 64 65 (by decide) (by decide)
  have last := zeroBlock_ascends 65 127 (by decide) (by decide)
  have within : zeroBlock.remap 65 < 0x1000 + zeroBlock.codeSize := zeroBlock_lt (by decide)
  have inside : 0x1000 ≤ zeroBlock.remap 65 - 1 ∧
      zeroBlock.remap 65 - 1 < 0x1000 + zeroBlock.codeSize := by omega
  have before : zeroBlock.remap 65 - 1 < zeroBlock.remap 127 := by omega
  have stop : zeroBlock.remap 65 - 1 < zeroBlock.remap 65 := by omega
  have holds : HoldsEip zeroBlock.remap (zeroBlock.remap 65 - 1) 127 64 :=
    ⟨by decide, by omega, .inr stop⟩
  rw [zeroBlock] at inside
  have resolves : Resolves .arm zeroBlock (zeroBlock.remap 65 - 1) :=
    (updateBreakinfo_resolves_iff .arm .fresh (fun _ => 0) 0x1000 (fun _ => 0) _ inside).mpr before
  exact ⟨resolves, ((resolves.finds 64).mp holds).symm⟩

/-- At the first byte of the last instruction the search reads behind the table. -/
theorem updateBreakinfo_last :
    (0x1000 ≤ zeroBlock.remap (InstructionSet.remaps .arm - 1) ∧
      zeroBlock.remap (InstructionSet.remaps .arm - 1) < 0x1000 + zeroBlock.codeSize) ∧
    ¬ Resolves .arm zeroBlock (zeroBlock.remap (InstructionSet.remaps .arm - 1)) := by
  have above : 0x1000 ≤ zeroBlock.remap 127 :=
    zeroBlock_zero ▸ (zeroBlock_ascends 0 127 (by decide) (Nat.le_refl _)).le
  refine ⟨⟨above, zeroBlock_lt (by decide)⟩, fun resolves => ?_⟩
  have before := (resolves_compile_iff .arm .fresh (fun _ => 0) 0x1000 (fun _ => 0) above).mp
    resolves
  exact absurd before (Nat.lt_irrefl _)

end Ndse
