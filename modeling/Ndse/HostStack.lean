import Ndse.CompilerBranches

/-!
# Words on the host stack

Some functions take their arguments from the stack and a pointer to words, which
are on the stack themselves or in the registers of a context.
-/

namespace Ndse

/-- The contexts do not overlap, and the stack has some words below its top that
are in none of them. -/
structure Layout {World : Type} (env : HostEnv World) (esp : BitVec 32) : Prop where
  contexts : ∀ (mode : CpuMode) (index : Fin 16),
    HostState.contextAt env (env.address mode + BitVec.ofNat 32 (4 * index.val)) =
      some (mode, index)
  stack : ∀ k < 32, HostState.contextAt env (esp - BitVec.ofNat 32 (4 * (k + 1))) = none

/-- Some words right below the top of the stack. -/
theorem Layout.below {World : Type} {env : HostEnv World} {esp : BitVec 32}
    (layout : Layout env esp) {num i : Nat} (inside : i < num) (short : num ≤ 32) :
    HostState.contextAt env (esp - BitVec.ofNat 32 (4 * num) + BitVec.ofNat 32 (4 * i)) = none := by
  have address : esp - BitVec.ofNat 32 (4 * num) + BitVec.ofNat 32 (4 * i) =
      esp - BitVec.ofNat 32 (4 * (num - i - 1 + 1)) := by
    bv_omega
  rw [address]
  exact layout.stack (num - i - 1) (by omega)

namespace Compiler

variable {World : Type} (env : HostEnv World)

/-- The registers of the current context become these, and nothing else of the
processor changes. -/
structure OnlyRegs (before after : HostState World) (regs : Fin 16 → BitVec 32) : Prop where
  ebp : after.ebp = before.ebp
  processor : after.processor =
    { before.processor with
      context := Function.update before.processor.context before.ebp
        { before.context with regs := regs } }

theorem OnlyRegs.context {before after : HostState World} {regs : Fin 16 → BitVec 32}
    (only : OnlyRegs before after regs) : after.context = { before.context with regs := regs } := by
  rw [HostState.context, only.processor, only.ebp]
  exact Function.update_self _ _ _

theorem OnlyRegs.trans {first second third : HostState World} {regs next : Fin 16 → BitVec 32}
    (one : OnlyRegs first second regs) (two : OnlyRegs second third next) :
    OnlyRegs first third next where
  ebp := two.ebp.trans one.ebp
  processor := by
    rw [two.processor, one.context, one.processor, one.ebp]
    dsimp only
    rw [Function.update_idem]

theorem KeepsContexts.onlyRegs {before after : HostState World}
    (keeps : KeepsContexts before after) : OnlyRegs before after before.context.regs where
  ebp := keeps.ebp
  processor := by
    rw [keeps.processor]
    exact congrArg (fun context => { before.processor with context := context })
      (Function.update_eq_self _ _).symm

theorem onlyRegs_write (state : HostState World) (index : Fin 16) (value : BitVec 32) :
    OnlyRegs state (state.write (guest index) value)
      (Function.update state.context.regs index value) := ⟨rfl, rfl⟩

/-! ### The stack -/

/-- Words pushed on the stack, the last one first. -/
structure Pushed (before after : HostState World) (words : List (BitVec 32)) : Prop extends
    KeepsContexts before after where
  world : after.world = before.world
  esp : after.esp = before.esp - BitVec.ofNat 32 (4 * words.length)
  top : ∀ k (inside : k < words.length),
    after.stack (after.esp + BitVec.ofNat 32 (4 * k)) = words[k]
  rest : ∀ address, (∀ k < words.length, address ≠ after.esp + BitVec.ofNat 32 (4 * k)) →
    after.stack address = before.stack address

theorem pushed_push (state : HostState World) (value : BitVec 32) :
    Pushed state (state.push value) [value] := by
  refine ⟨⟨rfl, rfl⟩, rfl, rfl, ?_, ?_⟩
  · intro k inside
    obtain rfl : k = 0 := by simpa using inside
    simp [HostState.push]
  · intro address apart
    have other := apart 0 (by simp)
    simp only [HostState.push, HostState.setStack_esp, HostState.setEsp_esp, Nat.mul_zero,
      BitVec.ofNat_eq_ofNat, BitVec.add_zero] at other
    simp [HostState.push, Function.update_of_ne other]

theorem Pushed.append {before middle after : HostState World} {words more : List (BitVec 32)}
    (one : Pushed before middle words) (two : Pushed middle after more)
    (short : (more ++ words).length < 2 ^ 20) : Pushed before after (more ++ words) where
  toKeepsContexts := one.toKeepsContexts.trans two.toKeepsContexts
  world := two.world.trans one.world
  esp := by
    rw [List.length_append] at short
    rw [two.esp, one.esp, List.length_append]
    bv_omega
  top := by
    intro k inside
    rw [List.length_append] at inside short
    by_cases first : k < more.length
    · rw [two.top k first, List.getElem_append_left first]
    · obtain ⟨j, rfl⟩ := Nat.exists_eq_add_of_le (Nat.le_of_not_lt first)
      have address : after.esp + BitVec.ofNat 32 (4 * (more.length + j)) =
          middle.esp + BitVec.ofNat 32 (4 * j) := by
        rw [two.esp]
        bv_omega
      rw [two.rest, address, one.top j (by omega), List.getElem_append_right (by omega)]
      · simp
      · intro i low
        bv_omega
  rest := by
    intro address apart
    rw [List.length_append] at apart short
    have lower : ∀ k < more.length, address ≠ after.esp + BitVec.ofNat 32 (4 * k) :=
      fun k inside => apart k (by omega)
    rw [two.rest address lower, one.rest]
    intro k inside equal
    apply apart (more.length + k) (by omega)
    rw [equal, two.esp]
    bv_omega

/-- Computations in front of a push. -/
theorem pushed_nil {before after : HostState World} (contexts : KeepsContexts before after)
    (around : KeepsSurroundings before after) : Pushed before after [] where
  toKeepsContexts := contexts
  world := around.world
  esp := by simp [around.esp]
  top := by simp
  rest := fun address _ => congrFun around.stack address

theorem Pushed.push {before after : HostState World} {words : List (BitVec 32)}
    (pushed : Pushed before after words) (short : words.length < 100) (src : Operand) :
    Pushed before ((HostInstr.push src).apply env after) (after.read src :: words) :=
  pushed.append (pushed_push after (after.read src)) (by simp; omega)

/-- Registers are pushed from the highest to the lowest. -/
theorem pushed_registers (list : List (Fin 16)) (short : list.length < 100)
    (state : HostState World) :
    Pushed state (applyAll env (list.reverse.map fun i => .push (guest i)) state)
      (list.map state.context.regs) := by
  induction list with
  | nil => exact pushed_nil ⟨rfl, rfl⟩ ⟨rfl, rfl, rfl⟩
  | cons index list ih =>
      rw [List.length_cons] at short
      have others := ih (by omega)
      have pushed := others.push env (by simp; omega) (guest index)
      rw [HostState.read_field, others.context] at pushed
      rw [List.reverse_cons, List.map_append, applyAll_append]
      exact pushed

/-! ### Calls with words on the stack -/

/-- What code for a store leaves. -/
structure Passed (before after : HostState World) (world : World) : Prop extends
    KeepsContexts before after where
  esp : after.esp = before.esp
  world : after.world = world

section Calls

variable {env}
variable {before state : HostState World} {addr num data : BitVec 32} {more : List (BitVec 32)}

theorem Pushed.args (pushed : Pushed before state (addr :: num :: data :: more)) :
    state.stack state.esp = addr ∧ state.stack (state.esp + 4) = num ∧
      state.stack (state.esp + 8) = data := by
  have first := pushed.top 0 (by simp)
  rw [Nat.mul_zero, BitVec.add_zero] at first
  exact ⟨first, pushed.top 1 (by simp), pushed.top 2 (by simp)⟩

/-- The words at a host address. -/
def WordsAt (env : HostEnv World) (state : HostState World) (data : BitVec 32)
    (words : List (BitVec 32)) : Prop :=
  ∀ i (inside : i < words.length),
    state.peek env (data + BitVec.ofNat 32 (4 * i)) = words[i]

/-- The first of the pushed words stay where they are under the later ones. -/
theorem wordsAt_pushed {args words : List (BitVec 32)}
    (pushed : Pushed before state (args ++ words)) (layout : Layout env before.esp)
    (short : words.length ≤ 32) :
    WordsAt env state (before.esp - BitVec.ofNat 32 (4 * words.length)) words := by
  intro i inside
  have place := layout.below inside short
  have top := pushed.top (args.length + i) (by
    rw [List.length_append]
    omega)
  have esp := pushed.esp
  have address : before.esp - BitVec.ofNat 32 (4 * words.length) + BitVec.ofNat 32 (4 * i) =
      state.esp + BitVec.ofNat 32 (4 * (args.length + i)) := by
    rw [esp, List.length_append]
    bv_omega
  rw [HostState.peek, place, address, top, List.getElem_append_right (Nat.le_add_right _ _)]
  simp

theorem effect_store32Array (pushed : Pushed before state (addr :: num :: data :: more))
    {words : List (BitVec 32)} (length : words.length = num.toNat)
    (read : WordsAt env state data words) :
    state.helperEffect env .store32Array =
      ({ state with world := env.store32Array state.world addr words }, none) := by
  obtain ⟨one, two, three⟩ := pushed.args
  have list : ((List.range num.toNat).map fun i =>
      state.peek env (data + BitVec.ofNat 32 (4 * i))) = words := by
    apply List.ext_getElem
    · simp [length]
    · intro i _ inside
      simpa using read i inside
  simp only [HostState.helperEffect, one, two, three, list]

/-- The loaded words are stored once the memory has been read. -/
theorem effect_load32Array (pushed : Pushed before state (addr :: num :: data :: more)) :
    ∃ outer, Passed state outer (env.load32Array state.world addr num.toNat).1 ∧
      (state.helperEffect env .load32Array).1 =
        outer.pokeWords env data (env.load32Array state.world addr num.toNat).2 := by
  obtain ⟨one, two, three⟩ := pushed.args
  refine ⟨{ state with world := (env.load32Array state.world addr num.toNat).1 },
    ⟨⟨rfl, rfl⟩, rfl, rfl⟩, ?_⟩
  simp only [HostState.helperEffect, one, two, three]

end Calls

/-- What a call and the release of its words leave. -/
structure Released (before after : HostState World) (amount : BitVec 32) : Prop where
  processor : after.processor = before.processor
  ebp : after.ebp = before.ebp
  esp : after.esp = before.esp + amount
  stack : after.stack = before.stack
  world : after.world = before.world

theorem released_call (helper : Helper) (amount : BitVec 32) (state : HostState World) :
    Released (state.helperEffect env helper).1
      (applyAll env [.call helper, .addEsp amount] state) amount :=
  ⟨rfl, rfl, rfl, rfl, rfl⟩

theorem passed_array {before middle : HostState World} {addr num data : BitVec 32}
    {more words : List (BitVec 32)} (pushed : Pushed before middle (addr :: num :: data :: more))
    (length : words.length = num.toNat) (read : WordsAt env middle data words) :
    Passed before
      (applyAll env [.call .store32Array, .addEsp (BitVec.ofNat 32 (4 * (more.length + 3)))] middle)
      (env.store32Array before.world addr words) := by
  have released := released_call env .store32Array (BitVec.ofNat 32 (4 * (more.length + 3))) middle
  rw [effect_store32Array pushed length read] at released
  refine ⟨⟨released.processor.trans pushed.processor, released.ebp.trans pushed.ebp⟩, ?_, ?_⟩
  · rw [released.esp, pushed.esp]
    exact BitVec.sub_add_cancel _ _
  · rw [released.world, pushed.world]

/-! ### Registers in the context -/

/-- The list names neighbouring registers. -/
def Neighbours (list : List (Fin 16)) : Prop :=
  list.IsChain fun index next => next.val = index.val + 1

theorem Neighbours.getElem {index : Fin 16} {list : List (Fin 16)}
    (neighbours : Neighbours (index :: list)) {k : Nat} (inside : k < (index :: list).length) :
    ((index :: list)[k]).val = index.val + k := by
  induction list generalizing index k with
  | nil =>
      obtain rfl : k = 0 := by simpa using inside
      rfl
  | cons next list ih =>
      rw [Neighbours, List.isChain_cons_cons] at neighbours
      cases k with
      | zero => rfl
      | succ k =>
          rw [List.length_cons] at inside
          rw [List.getElem_cons_succ, ih neighbours.2 (by omega), neighbours.1]
          omega

/-- Registers in ascending order are at most as many as from the first to the
last. -/
theorem length_le_span {index : Fin 16} {list : List (Fin 16)}
    (sorted : (index :: list).Pairwise (· < ·)) :
    (index :: list).length + index.val ≤
      ((index :: list).getLast (List.cons_ne_nil _ _)).val + 1 := by
  induction list generalizing index with
  | nil =>
      rw [List.length_singleton, List.getLast_singleton]
      omega
  | cons next list ih =>
      rw [List.pairwise_cons] at sorted
      have below : index.val < next.val := sorted.1 next List.mem_cons_self
      have rest := ih sorted.2
      rw [List.length_cons, List.getLast_cons (List.cons_ne_nil _ _)]
      omega

/-- Without a gap they are neighbours. -/
theorem neighbours_of_span {index : Fin 16} {list : List (Fin 16)}
    (sorted : (index :: list).Pairwise (· < ·))
    (span : ((index :: list).getLast (List.cons_ne_nil _ _)).val - index.val + 1 =
      (index :: list).length) : Neighbours (index :: list) := by
  induction list generalizing index with
  | nil => exact List.IsChain.singleton _
  | cons next list ih =>
      have whole := length_le_span sorted
      rw [List.pairwise_cons] at sorted
      have below : index.val < next.val := sorted.1 next List.mem_cons_self
      have rest := length_le_span sorted.2
      rw [List.getLast_cons (List.cons_ne_nil _ _)] at span whole
      rw [List.length_cons] at span whole
      have nonempty : 0 < (next :: list).length := Nat.succ_pos _
      have following : next.val = index.val + 1 := by omega
      exact List.isChain_cons_cons.mpr ⟨following, ih sorted.2 (by omega)⟩

/-- The context holds the registers next to each other. -/
theorem wordsAt_context {index : Fin 16} {list : List (Fin 16)}
    (neighbours : Neighbours (index :: list)) (layout : ∀ (mode : CpuMode) (index : Fin 16),
      HostState.contextAt env (env.address mode + BitVec.ofNat 32 (4 * index.val)) =
        some (mode, index)) (state : HostState World) :
    WordsAt env state (env.address state.ebp + BitVec.ofNat 32 (4 * index.val))
      ((index :: list).map state.context.regs) := by
  intro i inside
  rw [List.length_map] at inside
  have place := neighbours.getElem inside
  have address : env.address state.ebp + BitVec.ofNat 32 (4 * index.val) +
      BitVec.ofNat 32 (4 * i) =
        env.address state.ebp + BitVec.ofNat 32 (4 * ((index :: list)[i]).val) := by
    rw [place, Nat.mul_add, BitVec.ofNat_add, BitVec.add_assoc]
  rw [address, HostState.peek, layout, List.getElem_map]
  rfl

/-! ### Writing registers -/

/-- Registers after words have been written to them. -/
def assign : List (Fin 16) → List (BitVec 32) → (Fin 16 → BitVec 32) → Fin 16 → BitVec 32
  | index :: list, word :: words, regs => assign list words (Function.update regs index word)
  | _, _, regs => regs

theorem assign_of_notMem {index : Fin 16} {list : List (Fin 16)} (other : index ∉ list)
    (words : List (BitVec 32)) (regs : Fin 16 → BitVec 32) :
    assign list words regs index = regs index := by
  induction list generalizing words regs with
  | nil => rfl
  | cons head list ih =>
      rw [List.mem_cons, not_or] at other
      cases words with
      | nil => rfl
      | cons word words =>
          rw [assign, ih other.2, Function.update_of_ne other.1]

theorem assign_getElem {list : List (Fin 16)} (nodup : list.Nodup) {words : List (BitVec 32)}
    (length : words.length = list.length) (regs : Fin 16 → BitVec 32) {k : Nat}
    (inside : k < list.length) : assign list words regs list[k] = words[k] := by
  induction list generalizing words regs k with
  | nil => simp at inside
  | cons head list ih =>
      rw [List.nodup_cons] at nodup
      cases words with
      | nil => simp at length
      | cons word words =>
          rw [List.length_cons, List.length_cons, Nat.add_right_cancel_iff] at length
          rw [assign]
          cases k with
          | zero =>
              rw [List.getElem_cons_zero, assign_of_notMem nodup.1, Function.update_self]
              rfl
          | succ k =>
              simp only [List.getElem_cons_succ]
              exact ih nodup.2 length _ (Nat.lt_of_succ_lt_succ inside)

/-- Words stored through a pointer into the context. -/
theorem pokeWords_context (layout : ∀ (mode : CpuMode) (index : Fin 16),
      HostState.contextAt env (env.address mode + BitVec.ofNat 32 (4 * index.val)) =
        some (mode, index))
    {index : Fin 16} {list : List (Fin 16)} (neighbours : Neighbours (index :: list))
    {words : List (BitVec 32)} (length : words.length = (index :: list).length)
    (state : HostState World) :
    let after := state.pokeWords env
      (env.address state.ebp + BitVec.ofNat 32 (4 * index.val)) words
    OnlyRegs state after (assign (index :: list) words state.context.regs) ∧
      after.esp = state.esp ∧ after.world = state.world := by
  induction list generalizing index words state with
  | nil =>
      obtain ⟨word, rfl⟩ := List.length_eq_one_iff.mp length
      rw [HostState.pokeWords, HostState.poke, layout]
      exact ⟨⟨rfl, rfl⟩, rfl, rfl⟩
  | cons next list ih =>
      rw [Neighbours, List.isChain_cons_cons] at neighbours
      cases words with
      | nil => simp at length
      | cons word words =>
          rw [List.length_cons, List.length_cons, Nat.add_right_cancel_iff] at length
          have pointer : env.address state.ebp + BitVec.ofNat 32 (4 * index.val) + 4 =
              env.address state.ebp + BitVec.ofNat 32 (4 * next.val) := by
            rw [neighbours.1, Nat.mul_add, BitVec.ofNat_add, BitVec.add_assoc]
            rfl
          have written : OnlyRegs state
              (state.poke env (env.address state.ebp + BitVec.ofNat 32 (4 * index.val)) word)
              (Function.update state.context.regs index word) := by
            rw [HostState.poke, layout]
            exact ⟨rfl, rfl⟩
          have around : (state.poke env (env.address state.ebp +
                BitVec.ofNat 32 (4 * index.val)) word).esp = state.esp ∧
              (state.poke env (env.address state.ebp +
                BitVec.ofNat 32 (4 * index.val)) word).world = state.world := by
            rw [HostState.poke, layout]
            exact ⟨rfl, rfl⟩
          rw [HostState.pokeWords, pointer]
          generalize state.poke env (env.address state.ebp + BitVec.ofNat 32 (4 * index.val)) word =
            poked at *
          have others := ih neighbours.2 length poked
          rw [written.ebp, written.context] at others
          exact ⟨written.trans others.1, others.2.1.trans around.1, others.2.2.trans around.2⟩

/-- Words stored through a pointer into the stack. -/
structure Staged (before after : HostState World) (pointer : BitVec 32)
    (words : List (BitVec 32)) : Prop extends KeepsContexts before after where
  esp : after.esp = before.esp
  world : after.world = before.world
  staged : ∀ k (inside : k < words.length),
    after.stack (pointer + BitVec.ofNat 32 (4 * k)) = words[k]
  rest : ∀ address, (∀ k < words.length, address ≠ pointer + BitVec.ofNat 32 (4 * k)) →
    after.stack address = before.stack address

theorem staged_pokeWords {words : List (BitVec 32)} (short : words.length < 100)
    {pointer : BitVec 32}
    (outside : ∀ k < words.length,
      HostState.contextAt env (pointer + BitVec.ofNat 32 (4 * k)) = none)
    (state : HostState World) : Staged state (state.pokeWords env pointer words) pointer words := by
  induction words generalizing pointer state with
  | nil => exact ⟨⟨rfl, rfl⟩, rfl, rfl, by simp, fun _ _ => rfl⟩
  | cons word words ih =>
      rw [List.length_cons] at short
      have first := outside 0 (Nat.succ_pos _)
      rw [Nat.mul_zero, BitVec.add_zero] at first
      have moved (k : Nat) : pointer + 4 + BitVec.ofNat 32 (4 * k) =
          pointer + BitVec.ofNat 32 (4 * (k + 1)) := by
        bv_omega
      have behind (k : Nat) (inside : k < words.length) :
          HostState.contextAt env (pointer + 4 + BitVec.ofNat 32 (4 * k)) = none := by
        rw [moved]
        exact outside (k + 1) (Nat.succ_lt_succ inside)
      have others := ih (by omega) behind (state.setStack pointer word)
      have poked : state.poke env pointer word = state.setStack pointer word := by
        rw [HostState.poke, first]
      rw [HostState.pokeWords, poked]
      refine ⟨⟨others.processor, others.ebp⟩, others.esp, others.world, ?_, ?_⟩
      · intro k inside
        cases k with
        | zero =>
            rw [Nat.mul_zero, BitVec.add_zero, others.rest, HostState.setStack_stack,
              Function.update_self, List.getElem_cons_zero]
            intro k inside
            rw [moved]
            bv_omega
        | succ k =>
            rw [← moved]
            exact others.staged k (Nat.lt_of_succ_lt_succ inside)
      · intro address apart
        have other := apart 0 (Nat.succ_pos _)
        rw [Nat.mul_zero, BitVec.add_zero] at other
        rw [others.rest, HostState.setStack_stack, Function.update_of_ne other]
        intro k inside
        rw [moved]
        exact apart (k + 1) (Nat.succ_lt_succ inside)

/-- What code for a load leaves. -/
structure Loaded (before after : HostState World) (regs : Fin 16 → BitVec 32) (world : World) :
    Prop extends OnlyRegs before after regs where
  esp : after.esp = before.esp
  world : after.world = world

theorem Loaded.trans {first second third : HostState World} {regs next : Fin 16 → BitVec 32}
    {world other : World} (one : Loaded first second regs world)
    (two : Loaded second third next other) : Loaded first third next other where
  toOnlyRegs := one.toOnlyRegs.trans two.toOnlyRegs
  esp := two.esp.trans one.esp
  world := two.world

/-- Words popped into registers. -/
theorem onlyRegs_pops {list : List (Fin 16)} {words : List (BitVec 32)}
    (length : words.length = list.length) (state : HostState World)
    (stack : ∀ k (inside : k < words.length),
      state.stack (state.esp + BitVec.ofNat 32 (4 * k)) = words[k]) :
    let after := applyAll env (list.map fun i => .pop (guest i)) state
    OnlyRegs state after (assign list words state.context.regs) ∧
      after.esp = state.esp + BitVec.ofNat 32 (4 * list.length) ∧ after.world = state.world := by
  induction list generalizing words state with
  | nil => exact ⟨KeepsContexts.onlyRegs ⟨rfl, rfl⟩, by simp, rfl⟩
  | cons index list ih =>
      cases words with
      | nil => simp at length
      | cons word words =>
          have first := stack 0 (Nat.succ_pos _)
          rw [Nat.mul_zero, BitVec.add_zero, List.getElem_cons_zero] at first
          have moved (k : Nat) : state.esp + 4 + BitVec.ofNat 32 (4 * k) =
              state.esp + BitVec.ofNat 32 (4 * (k + 1)) := by
            bv_omega
          have popped : OnlyRegs state ((HostInstr.pop (guest index)).apply env state)
              (Function.update state.context.regs index word) := by
            rw [← first]
            exact ⟨rfl, rfl⟩
          have above (k : Nat) (inside : k < words.length) :
              state.stack (state.esp + 4 + BitVec.ofNat 32 (4 * k)) = words[k] := by
            rw [moved]
            exact stack (k + 1) (Nat.succ_lt_succ inside)
          have others := ih (Nat.add_right_cancel length)
            ((HostInstr.pop (guest index)).apply env state) above
          rw [popped.context] at others
          refine ⟨popped.trans others.1, ?_, others.2.2⟩
          rw [List.length_cons, ← moved]
          exact others.2.1

end Compiler

end Ndse
