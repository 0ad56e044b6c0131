import Ndse.CompilerResults

/-!
# Translated conditions

The code of an instruction with a condition loads the stored flags, unless the
host still holds them, and jumps over its body when the condition fails.  Two of
the conditions complement the carry first, and the body of an executed
instruction starts with the host flags of its test.
-/

namespace Ndse

open FlatCode

namespace Compiler

variable {World : Type} (env : HostEnv World)

/-- The stack and what is outside of the contexts are the same. -/
structure KeepsSurroundings {World : Type} (before after : HostState World) : Prop where
  world : after.world = before.world
  esp : after.esp = before.esp
  stack : after.stack = before.stack

/-- The code in front of the jump over an instruction. -/
def testCode (ctx : Context) (emitter : Emitter) (flagsUpdated : Bool) : List HostInstr :=
  countCycle emitter ::
    if conditional ctx then
      loadFlagsUnless (flagsHeld emitter flagsUpdated) ++ (condJump ctx.cond).1
    else []

/-- The instruction is not jumped over. -/
def Executed (ctx : Context) (emitter : Emitter) (flagsUpdated : Bool)
    (state : HostState World) : Prop :=
  conditional ctx = true →
    (condJump ctx.cond).2.holds
      (applyAll env (testCode ctx emitter flagsUpdated) state).flags = false

instance (ctx : Context) (emitter : Emitter) (flagsUpdated : Bool) (state : HostState World) :
    Decidable (Executed env ctx emitter flagsUpdated state) :=
  inferInstanceAs (Decidable (_ → _))

variable (ctx : Context) (emitter : Emitter) (flagsUpdated : Bool)

theorem straight_testCode : Straight (testCode ctx emitter flagsUpdated) := by
  have cmc : Straight (condJump ctx.cond).1 := by
    cases ctx.cond <;> simp [condJump, HostInstr.straight]
  rw [testCode, straight_cons, straight_ite, straight_append]
  exact ⟨straight_countCycle, fun _ => ⟨straight_loadFlagsUnless _, cmc⟩, by simp⟩

theorem keepsGuest_testCode (state : HostState World) :
    KeepsGuest state (applyAll env (testCode ctx emitter flagsUpdated) state) := by
  have counted := keepsGuest_countCycle env emitter state
  have inverted (state : HostState World) :
      KeepsGuest state (applyAll env (condJump ctx.cond).1 state) := by
    cases ctx.cond <;> exact ⟨⟨rfl, rfl⟩, rfl⟩
  rw [testCode, applyAll_cons]
  split
  · rw [applyAll_append]
    exact counted.trans ((keepsGuest_loadFlagsUnless env _ _).trans (inverted _))
  · exact counted

theorem keepsSurroundings_testCode (state : HostState World) :
    KeepsSurroundings state (applyAll env (testCode ctx emitter flagsUpdated) state) := by
  rw [testCode, countCycle]
  cases flagsHeld emitter flagsUpdated <;> cases conditional ctx <;> cases emitter.lookaheadS <;>
    cases ctx.cond <;> exact ⟨rfl, rfl, rfl⟩

/-- The body of an executed instruction follows on its test. -/
theorem split_executed {state : HostState World}
    (executed : Executed env ctx emitter flagsUpdated state) :
    ∃ test,
      (compileInstruction ctx emitter flagsUpdated).code =
          test ++
            (compileBody ctx emitter (flagsHeld emitter flagsUpdated || conditional ctx)).code ∧
        Finishes (hostIsa env) test state
          (applyAll env (testCode ctx emitter flagsUpdated) state) := by
  have tested := finishes_of_straight env (straight_testCode ctx emitter flagsUpdated) state
  cases tests : conditional ctx with
  | false =>
      refine ⟨testCode ctx emitter flagsUpdated, ?_, tested⟩
      simp [compileInstruction, preamble, testCode, tests]
  | true =>
      have stays := executed tests
      let skipped := bytes (compileBody ctx emitter (flagsHeld emitter flagsUpdated || true)).code
      refine ⟨testCode ctx emitter flagsUpdated ++ [.jcc (condJump ctx.cond).2 skipped], ?_,
        Finishes.append (hostIsa env) tested ?_⟩
      · simp [compileInstruction, preamble, testCode, tests, skipped]
      · refine Finishes.cons (hostIsa env) ?_ (finishes_nil _ _)
        simp [hostIsa, HostInstr.exec, stays]

variable {ctx emitter flagsUpdated}

/-- An executed instruction runs through as its body does. -/
theorem finishes_of_body {state after : HostState World}
    (executed : Executed env ctx emitter flagsUpdated state)
    (run : Finishes (hostIsa env)
      (compileBody ctx emitter (flagsHeld emitter flagsUpdated || conditional ctx)).code
      (applyAll env (testCode ctx emitter flagsUpdated) state) after) :
    Finishes (hostIsa env) (compileInstruction ctx emitter flagsUpdated).code state after := by
  obtain ⟨test, split, tested⟩ := split_executed env ctx emitter flagsUpdated executed
  rw [split]
  exact Finishes.append (hostIsa env) tested run

theorem finishes_executed {state : HostState World}
    (executed : Executed env ctx emitter flagsUpdated state)
    (straight : Straight
      (compileBody ctx emitter (flagsHeld emitter flagsUpdated || conditional ctx)).code) :
    Finishes (hostIsa env) (compileInstruction ctx emitter flagsUpdated).code state
      (applyAll env
        (compileBody ctx emitter (flagsHeld emitter flagsUpdated || conditional ctx)).code
        (applyAll env (testCode ctx emitter flagsUpdated) state)) :=
  finishes_of_body env executed (finishes_of_straight env straight _)

theorem executed_always (env : HostEnv World) {ctx : Context} (always : ctx.cond = .al)
    (emitter : Emitter) (flagsUpdated : Bool) (state : HostState World) :
    Executed env ctx emitter flagsUpdated state := by
  intro tests
  simp [conditional, always] at tests

/-! ### The flags of the test -/

/-- The flags a conditional instruction tests: those stored, or those the host
still holds. -/
def flagsTested (emitter : Emitter) (flagsUpdated : Bool) (state : HostState World) : HostFlags :=
  if flagsHeld emitter flagsUpdated then state.flags else loadedFlags state.context.x86Flags

/-- The flags in front of the body.  `HI` and `LS` complement the carry. -/
def flagsBehindTest (ctx : Context) (emitter : Emitter) (flagsUpdated : Bool)
    (state : HostState World) : HostFlags :=
  if conditional ctx then
    let tested := flagsTested emitter flagsUpdated state
    if ctx.cond = .hi ∨ ctx.cond = .ls then { tested with cf := !tested.cf } else tested
  else state.flags

/-- The state in front of the body, apart from the counter. -/
def behindTest (ctx : Context) (emitter : Emitter) (flagsUpdated : Bool)
    (state : HostState World) : HostState World :=
  state.setFlags (flagsBehindTest ctx emitter flagsUpdated state)

@[simp]
theorem behindTest_context (state : HostState World) :
    (behindTest ctx emitter flagsUpdated state).context = state.context := rfl

@[simp]
theorem behindTest_regs (state : HostState World) :
    (behindTest ctx emitter flagsUpdated state).regs = state.regs := rfl

@[simp]
theorem behindTest_flags (state : HostState World) :
    (behindTest ctx emitter flagsUpdated state).flags =
      flagsBehindTest ctx emitter flagsUpdated state := rfl

theorem condJump_flags (cond : Condition) (state : HostState World) :
    (applyAll env (condJump cond).1 state).flags =
      if cond = .hi ∨ cond = .ls then { state.flags with cf := !state.flags.cf }
      else state.flags := by
  cases cond <;> rfl

/-- The flags of a test do not depend on the counter. -/
theorem testCode_flags_of_conditional (tests : conditional ctx = true) (state : HostState World) :
    (applyAll env (testCode ctx emitter flagsUpdated) state).flags =
      flagsBehindTest ctx emitter flagsUpdated state := by
  have context : (counted env emitter state).context = state.context :=
    (keepsGuest_countCycle env emitter state).context
  have kept (held : flagsHeld emitter flagsUpdated = true) :
      (counted env emitter state).flags = state.flags := by
    have stores : emitter.lookaheadS = false := by
      simp only [flagsHeld, Bool.and_eq_true, Bool.not_eq_true'] at held
      exact held.2
    simp [counted, countCycle, stores, HostInstr.apply]
  rw [testCode, if_pos tests, applyAll_cons, applyAll_append, condJump_flags,
    loadFlagsUnless_flags, context, flagsBehindTest, if_pos tests, flagsTested]
  cases held : flagsHeld emitter flagsUpdated with
  | false => rfl
  | true =>
      rw [if_pos rfl, if_pos rfl, kept held]

theorem testCode_flags (stores : emitter.lookaheadS = false) (state : HostState World) :
    (applyAll env (testCode ctx emitter flagsUpdated) state).flags =
      flagsBehindTest ctx emitter flagsUpdated state := by
  cases tests : conditional ctx with
  | false => simp [testCode, flagsBehindTest, tests, countCycle, stores, HostInstr.apply]
  | true => exact testCode_flags_of_conditional env tests state

/-- Whichever counter is used, the carry stays. -/
theorem testCode_cf (state : HostState World) :
    (applyAll env (testCode ctx emitter flagsUpdated) state).flags.cf =
      (flagsBehindTest ctx emitter flagsUpdated state).cf := by
  cases tests : conditional ctx with
  | false =>
      simp only [testCode, flagsBehindTest, tests, Bool.false_eq_true, if_false, applyAll_cons,
        applyAll_nil, countCycle]
      split <;> simp [HostInstr.apply]
  | true => rw [testCode_flags_of_conditional env tests]

theorem testCode_esi (state : HostState World) :
    (applyAll env (testCode ctx emitter flagsUpdated) state).regs .esi = state.regs .esi := by
  rw [testCode, countCycle]
  cases flagsHeld emitter flagsUpdated <;> cases conditional ctx <;> cases emitter.lookaheadS <;>
    cases ctx.cond <;> rfl

end Compiler

end Ndse
