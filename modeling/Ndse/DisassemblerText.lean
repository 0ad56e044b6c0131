import Ndse.DisassemblerPaths

/-!
# The text of an instruction

`get_str` interprets a format string for the kind of the instruction.  Nothing
in it looks for the end of the string behind a directive that has another
letter, or for the end of the buffer.
-/

namespace Ndse

/-! ### The tables -/

/-- `INST::strings`. -/
def Inst.strings : List String :=
  ["ud", "%?debug", "unknown", "str%c %Rd,[%-%Rn],#0x%I", "ldr%c %Rd,[%-%Rn],#0x%I",
  "str%ct %Rd,[%-%Rn],#0x%I", "ldr%ct %Rd,[%-%Rn],#0x%I", "str%cb %Rd,[%-%Rn],#0x%I",
  "ldr%cb %Rd,[%-%Rn],#0x%I", "str%cbt [%Rd],%-%Rn,#0x%I", "ldr%cbt [%Rd],%-%Rn,#0x%I",
  "str%c %Rd,[%-%Rn,#0x%I]", "ldr%c %Rd,[%-%Rn,#0x%I]", "str%c %Rd,[%-%Rn,#0x%I]!",
  "ldr%c %Rd,[%-%Rn,#0x%I]!", "str%cb %Rd,[%-%Rn,#0x%I]", "ldr%cb %Rd,[%-%Rn,#0x%I]",
  "str%cb %Rd,[%-%Rn,#0x%I]!", "ldr%cb %Rd,[%-%Rn,#0x%I]!", "str%c %Rd,[%-%Rn],%Rm %S#0x%I",
  "ldr%c %Rd,[%-%Rn],%Rm %S#0x%I", "str%ct %Rd,[%-%Rn],%Rm %S#0x%I",
  "ldr%ct %Rd,[%-%Rn],%Rm %S#0x%I", "str%cb %Rd,[%-%Rn],%Rm %S#0x%I",
  "ldr%cb %Rd,[%-%Rn],%Rm %S#0x%I", "str%cbt %Rd,[%-%Rn],%Rm %S#0x%I",
  "ldr%cbt %Rd,[%-%Rn],%Rm %S#0x%I", "str%c %Rd,[%-%Rn,%Rm %S#0x%I]",
  "ldr%c %Rd,[%-%Rn,%Rm %S#0x%I]", "str%c %Rd,[%-%Rn,%Rm %S#0x%I]!",
  "ldr%c %Rd,[%-%Rn,%Rm %S#0x%I]!", "str%cb %Rd,[%-%Rn,%Rm %S#0x%I]",
  "ldr%cb %Rd,[%-%Rn,%Rm %S#0x%I]", "str%cb %Rd,[%-%Rn,%Rm %S#0x%I]!",
  "ldr%cb %Rd,[%-%Rn,%Rm %S#0x%I]!", "and%c%s %Rd,%Rn,#0x%I", "eor%c%s %Rd,%Rn,#0x%I",
  "sub%c%s %Rd,%Rn,#0x%I", "rsb%c%s %Rd,%Rn,#0x%I", "add%c%s %Rd,%Rn,#0x%I",
  "adc%c%s %Rd,%Rn,#0x%I", "sbc%c%s %Rd,%Rn,#0x%I", "rsc%c%s %Rd,%Rn,#0x%I", "tst%c %Rn,#0x%I",
  "teq%c %Rn,#0x%I", "cmp%c %Rn,#0x%I", "cmn%c %Rn,#0x%I", "orr%c%s %Rd,%Rn,#0x%I",
  "mov%c%s %Rd,#0x%I", "bic%c%s %Rd,%Rn,#0x%I", "mvn%c%s %Rd,#0x%I", "msr cpsr_%F,#0x%I",
  "msr spsr_%F,#0x%I", "and%c%s %Rd,%Rn,%Rm,%S#0x%I", "eor%c%s %Rd,%Rn,%Rm,%S#0x%I",
  "sub%c%s %Rd,%Rn,%Rm,%S#0x%I", "rsb%c%s %Rd,%Rn,%Rm,%S#0x%I", "add%c%s %Rd,%Rn,%Rm,%S#0x%I",
  "adc%c%s %Rd,%Rn,%Rm,%S#0x%I", "sbc%c%s %Rd,%Rn,%Rm,%S#0x%I", "rsc%c%s %Rd,%Rn,%Rm,%S#0x%I",
  "tst%c %Rn,%Rm,%S#0x%I", "teq%c %Rn,%Rm,%S#0x%I", "cmp%c %Rn,%Rm,%S#0x%I",
  "cmn%c %Rn,%Rm,%S#0x%I", "orr%c%s %Rd,%Rn,%Rm,%S#0x%I", "mov%c%s %Rd,%Rm,%S#0x%I",
  "bic%c%s %Rd,%Rn,%Rm,%S#0x%I", "mvn%c%s %Rd,%Rm,%S#0x%I", "and%c%s %Rd,%Rn,%Rm,%S %Rs",
  "eor%c%s %Rd,%Rn,%Rm,%S %Rs", "sub%c%s %Rd,%Rn,%Rm,%S %Rs", "rsb%c%s %Rd,%Rn,%Rm,%S %Rs",
  "add%c%s %Rd,%Rn,%Rm,%S %Rs", "adc%c%s %Rd,%Rn,%Rm,%S %Rs", "sbc%c%s %Rd,%Rn,%Rm,%S %Rs",
  "rsc%c%s %Rd,%Rn,%Rm,%S %Rs", "tst%c %Rn,%Rm,%S %Rs", "teq%c %Rn,%Rm,%S %Rs",
  "cmp%c %Rn,%Rm,%S %Rs", "cmn%c %Rn,%Rm,%S %Rs", "orr%c%s %Rd,%Rn,%Rm,%S %Rs",
  "mov%c%s %Rd,%Rm,%S %Rs", "%?bic%c%s %Rd,%Rn,%Rm,%S %Rs", "mvn%c%s %Rd,%Rm,%S %Rs",
  "msr%c cpsr_%F,%Rm", "msr%c spsr_%F,%Rm", "msr%c %Rd,cpsr", "mrs%c %Rd,spsr", "clz%c %Rd,%Rm",
  "bkpt #0x%I", "swi #0x%I", "bx%c %Rm", "blx%c %Rm", "b%c #0x%A", "bl%c #0x%A",
  "mrc%c %Cp,%C1,%Rd,%CRn,%CRm,%C2", "mcr%c %Cp,%C1,%Rd,%CRn,%CRm,%C2",
  "stm%c%M %Rn,\x7b%RL\x7d%^", "ldm%c%M %Rn,\x7b%RL\x7d%^", "stm%c%M %Rn!,\x7b%RL\x7d%^",
  "ldm%c%M %Rn!,\x7b%RL\x7d%^", "str%c%E %Rd,[%-%Rn],#0x%I", "ldr%c%E %Rd,[%-%Rn],#0x%I",
  "str%c%E %Rd,[%-%Rn],#0x%I!", "ldr%c%E %Rd,[%-%Rn],#0x%I!", "str%c%E %Rd,[%-%Rn,#0x%I]",
  "ldr%c%E %Rd,[%-%Rn,#0x%I]", "str%c%E %Rd,[%-%Rn,#0x%I]!", "ldr%c%E %Rd,[%-%Rn,#0x%I]!",
  "str%c%E %Rd,[%-%Rn],%Rm", "ldr%c%E %Rd,[%-%Rn],%Rm", "str%c%E %Rd,[%-%Rn],%Rm!",
  "ldr%c%E %Rd,[%-%Rn],%Rm!", "str%c%E %Rd,[%-%Rn,%Rm]", "ldr%c%E %Rd,[%-%Rn,%Rm]",
  "str%c%E %Rd,[%-%Rn,%Rm]!", "ldr%c%E %Rd,[%-%Rn,%Rm]!", "bpre #0x%A", "mul%c%s %Rd,%Rm,%Rs",
  "mla%c%s %Rd,%Rm,%Rs,%Rn", "umull%c%s %Rd,%Rn,%Rm,%Rs", "umlal%c%s %Rd,%Rn,%Rm,%R",
  "smull%c%s %Rd,%Rn,%Rm,%Rs", "smlal%c%s %Rd,%Rn,%Rm,%Rs", "swp%c %Rd,%Rm,[%Rn]",
  "swpb%c %Rd,%Rm,[%Rn]", "blx%c #0x%A", "? ldr%cd_R %Rd,[%-%Rn]", "? ldr%cd_RW %Rd,[%-%Rn]",
  "ldr%cd %Rd,[%Rn],%I", "? ldr%cd_RIW %Rd,[%-%Rn]", "? ldr%cd_RP %Rd,[%-%Rn]",
  "? ldr%cd_RPW %Rd,[%-%Rn]", "? ldr%cd_RIP %Rd,[%-%Rn]", "? ldr%cd_RIPW %Rd,[%-%Rn]",
  "pld [%Rn,#%-%I]", "? pld [%Rn]"]

/-- `SR_MASK::strings`. -/
def srMaskStrings : List String :=
  ["", "c", "x", "xc", "s", "sc", "sx", "sxc", "f", "fc", "fx", "fxc", "fs", "fsc", "fsx", "fsxc"]

/-- `CONDITION::strings`. -/
def Condition.strings : List String :=
  ["eq", "ne", "cs", "cc", "mi", "pl", "vc", "vc", "hi", "ls", "ge", "lt", "gt", "le", "", "nv"]

/-- `SHIFT::strings`. -/
def Shift.strings : List String := ["lsl", "lsr", "asr", "ror", "rrx"]

/-- `ADDRESSING_MODE::strings`. -/
def AddressingMode.strings : List String := ["da", "ia", "db", "ib"]

/-- `EXTEND_MODE::strings`. -/
def ExtendMode.strings : List String := ["", "h", "sb", "sh"]

/-- `nibbles`. -/
def nibbles : List String :=
  ["0", "1", "2", "3", "4", "5", "6", "7", "8", "9", "A", "B", "C", "D", "E", "F"]

/-- `ints`. -/
def ints : List String :=
  ["0", "1", "2", "3", "4", "5", "6", "7", "8", "9", "10", "11", "12", "13", "14", "15"]

/-! ### The printer -/

/-- How `get_str` can leave its format, its tables and its buffer. -/
inductive PrintFault
  | format | table | buffer
deriving DecidableEq, Repr

namespace Printer

/-- The bytes of the buffer. -/
def bufferSize : Nat := 256

/-- `*d++ = c`, where the text up to `d` is known. -/
def put (text : List Char) (c : Char) : Except PrintFault (List Char) :=
  if text.length < bufferSize then .ok (text ++ [c]) else .error .buffer

/-- `d--; *d = 0`. -/
def back (text : List Char) : Except PrintFault (List Char) :=
  if text = [] then .error .buffer else .ok text.dropLast

/-- `cat`. -/
def cat : List Char → List Char → Except PrintFault (List Char)
  | text, [] => .ok text
  | text, c :: string => put text c >>= fun text => cat text string

/-- `cat` of an entry of a table. -/
def catEntry (table : List String) (text : List Char) (index : Nat) :
    Except PrintFault (List Char) :=
  match table[index]? with
  | none => .error .table
  | some string => cat text string.toList

/-- `cat_i16`. -/
def catI16 (text : List Char) (i : Nat) : Except PrintFault (List Char) := catEntry ints text i

/-- `cat_nibble`. -/
def catNibble (text : List Char) (nibble : BitVec 32) : Except PrintFault (List Char) :=
  catEntry nibbles text (nibble &&& 0xF).toNat

/-- `cat_hex8`. -/
def catHex8 (text : List Char) (val : BitVec 32) : Except PrintFault (List Char) :=
  [28, 24, 20, 16, 12, 8, 4, 0].foldlM (fun text shift => catNibble text (val >>> shift)) text

theorem toNat_shift_lt {val : BitVec 32} (more : val >>> 4 ≠ 0) :
    (val >>> 4).toNat < val.toNat := by
  have some : 0 < (val >>> 4).toNat := by
    rw [Nat.pos_iff_ne_zero]
    exact fun zero => more (BitVec.eq_of_toNat_eq zero)
  rw [BitVec.toNat_ushiftRight, Nat.shiftRight_eq_div_pow] at some ⊢
  omega

/-- `cat_hex`. -/
def catHex (text : List Char) (val : BitVec 32) : Except PrintFault (List Char) :=
  if _more : val >>> 4 ≠ 0 then
    catHex text (val >>> 4) >>= fun text => catNibble text val
  else catNibble text val
termination_by val.toNat
decreasing_by exact toNat_shift_lt _more

/-- The loop of the register list. -/
def catRegisters (text : List Char) (imm : BitVec 32) : Except PrintFault (List Char) :=
  (List.range 16).foldlM (fun text i =>
    if imm.getLsbD i then
      put text 'r' >>= fun text => catI16 text i >>= fun text => put text ','
    else .ok text) text

/-- The `switch` behind `DecodeReg`, which is entered behind the prefix. -/
def decodeReg (ctx : Context) (text : List Char) (c : Char) : Except PrintFault (List Char) :=
  if c = 'd' then catI16 text ctx.rd.val
  else if c = 'n' then catI16 text ctx.rn.val
  else if c = 'm' then catI16 text ctx.rm.val
  else if c = 's' then catI16 text ctx.rs.val
  else if c = 'L' then
    -- the prefix is taken back, and so is the last comma
    back text >>= fun text =>
      if ctx.imm ≠ 0 then catRegisters text ctx.imm >>= back else .ok text
  else .ok text

/-- The `switch` behind `%C`, without its register. -/
def coprocessor (ctx : Context) (text : List Char) (c : Char) : Except PrintFault (List Char) :=
  if c = 'p' then put text 'p' >>= fun text => catI16 text ctx.cpNum.val
  else if c = '1' then catI16 text ctx.cpOp1.val
  else if c = '2' then catI16 text ctx.cpOp2.val
  else .ok text

/-- The `switch` of `get_str`, without the directives that take another letter. -/
def directive (ctx : Context) (text : List Char) (c : Char) : Except PrintFault (List Char) :=
  if c = '^' then if ctx.sBit then put text '^' else .ok text
  else if c = '-' then if !ctx.uBit then put text '-' else .ok text
  else if c = '?' then cat text ['?', '?', '?']
  else if c = 'c' then catEntry Condition.strings text ctx.cond.ctorIdx
  else if c = 's' then if ctx.sBit then put text 's' else .ok text
  else if c = 'F' then catEntry srMaskStrings text ctx.rn.val
  else if c = 'S' then catEntry Shift.strings text ctx.shift.ctorIdx
  else if c = 'M' then catEntry AddressingMode.strings text ctx.addressingMode.ctorIdx
  else if c = 'E' then catEntry ExtendMode.strings text ctx.extendMode.ctorIdx
  else if c = 'I' then catHex text ctx.imm
  else if c = 'A' then catHex8 text ctx.imm
  else put text c

/-- The loop of `get_str`.  A letter that a directive takes is missing when the
format ends there: the terminating NUL is taken for it. -/
def print (ctx : Context) : List Char → List Char → Except PrintFault (List Char)
  | [], text => if text.length < bufferSize then .ok text else .error .buffer
  | c :: p, text =>
      if c = '%' then
        match p with
        | [] => .error .format
        | c :: p =>
            if c = 'R' then
              match p with
              | [] => .error .format
              | c :: p => put text 'r' >>= fun text => decodeReg ctx text c >>= print ctx p
            else if c = 'C' then
              match p with
              | [] => .error .format
              | c :: p =>
                  if c = 'R' then
                    match p with
                    | [] => .error .format
                    | c :: p => put text 'c' >>= fun text => decodeReg ctx text c >>= print ctx p
                  else coprocessor ctx text c >>= print ctx p
            else directive ctx text c >>= print ctx p
      else put text c >>= print ctx p

/-! ### Directives -/

/-- What a format consists of: its characters, and directives of one letter, of a
register and of a coprocessor. -/
inductive Directive
  | char (c : Char)
  | letter (c : Char)
  | register (sign : Char) (c : Char)
  | coprocessor (c : Char)
deriving DecidableEq, Repr

/-- The directives of a format, if none is cut off by its end. -/
def directives : List Char → Option (List Directive)
  | [] => some []
  | c :: p =>
      if c = '%' then
        match p with
        | [] => none
        | c :: p =>
            if c = 'R' then
              match p with
              | [] => none
              | c :: p => (directives p).map (.register 'r' c :: ·)
            else if c = 'C' then
              match p with
              | [] => none
              | c :: p =>
                  if c = 'R' then
                    match p with
                    | [] => none
                    | c :: p => (directives p).map (.register 'c' c :: ·)
                  else (directives p).map (.coprocessor c :: ·)
            else (directives p).map (.letter c :: ·)
      else (directives p).map (.char c :: ·)

/-- What the loop does with a directive. -/
def emit (ctx : Context) (text : List Char) : Directive → Except PrintFault (List Char)
  | .char c => put text c
  | .letter c => directive ctx text c
  | .register sign c => put text sign >>= fun text => decodeReg ctx text c
  | .coprocessor c => coprocessor ctx text c

/-- What the loop does with the end of the format. -/
def finish (text : List Char) : Except PrintFault (List Char) :=
  if text.length < bufferSize then .ok text else .error .buffer

variable {ctx : Context}

theorem print_char {c : Char} (plain : c ≠ '%') (p text : List Char) :
    print ctx (c :: p) text = emit ctx text (.char c) >>= print ctx p := by
  rw [print.eq_def]
  exact if_neg plain

theorem print_letter {c : Char} (noRegister : c ≠ 'R') (noCoprocessor : c ≠ 'C')
    (p text : List Char) :
    print ctx ('%' :: c :: p) text = emit ctx text (.letter c) >>= print ctx p := by
  rw [print.eq_def]
  exact (if_neg noRegister).trans (if_neg noCoprocessor)

theorem print_register (c : Char) (p text : List Char) :
    print ctx ('%' :: 'R' :: c :: p) text = emit ctx text (.register 'r' c) >>= print ctx p := by
  rw [emit, bind_assoc, print.eq_def]
  rfl

theorem print_coprocessor {c : Char} (noRegister : c ≠ 'R') (p text : List Char) :
    print ctx ('%' :: 'C' :: c :: p) text = emit ctx text (.coprocessor c) >>= print ctx p := by
  rw [print.eq_def]
  exact if_neg noRegister

theorem print_coprocessorRegister (c : Char) (p text : List Char) :
    print ctx ('%' :: 'C' :: 'R' :: c :: p) text =
      emit ctx text (.register 'c' c) >>= print ctx p := by
  rw [emit, bind_assoc, print.eq_def]
  rfl

/-- The loop goes through the directives. -/
theorem print_of_directives {fmt : List Char} {ds : List Directive}
    (whole : directives fmt = some ds) (text : List Char) :
    print ctx fmt text = ds.foldlM (emit ctx) text >>= finish := by
  -- what is left to the loop behind a directive
  have behind {d : Directive} {p : List Char} {ds : List Directive}
      (split : (directives p).map (d :: ·) = some ds)
      (ih : ∀ {ds}, directives p = some ds → ∀ text,
        print ctx p text = ds.foldlM (emit ctx) text >>= finish) (text : List Char) :
      emit ctx text d >>= print ctx p = ds.foldlM (emit ctx) text >>= finish := by
    obtain ⟨rest, found, rfl⟩ := Option.map_eq_some_iff.mp split
    rw [List.foldlM_cons, bind_assoc]
    exact congrArg _ (funext (ih found))
  fun_induction directives fmt generalizing ds text with
  | case1 =>
      obtain rfl := Option.some.inj whole
      rfl
  | case2 | case3 | case5 | case6 => cases whole
  | case4 c p ih => rw [print_register, behind whole ih]
  | case7 c p _ ih => rw [print_coprocessorRegister, behind whole ih]
  | case8 c p other _ ih => rw [print_coprocessor other, behind whole ih]
  | case9 c p noRegister noCoprocessor ih =>
      rw [print_letter noRegister noCoprocessor, behind whole ih]
  | case10 c p plain ih => rw [print_char plain, behind whole ih]

/-- A format that cuts off a directive is not printed. -/
theorem print_of_none {fmt : List Char} (cut : directives fmt = none) (text result : List Char) :
    print ctx fmt text ≠ .ok result := by
  have behind {d : Directive} {p : List Char} (split : (directives p).map (d :: ·) = none)
      (ih : directives p = none → ∀ text, print ctx p text ≠ .ok result) (text : List Char) :
      emit ctx text d >>= print ctx p ≠ .ok result := by
    cases emit ctx text d with
    | error => exact fun same => nomatch same
    | ok text => exact ih (Option.map_eq_none_iff.mp split) text
  fun_induction directives fmt generalizing text with
  | case1 => cases cut
  | case2 | case3 | case5 | case6 => exact fun same => nomatch same
  | case4 c p ih => exact print_register c p text ▸ behind cut ih text
  | case7 c p _ ih => exact print_coprocessorRegister c p text ▸ behind cut ih text
  | case8 c p other _ ih => exact print_coprocessor other p text ▸ behind cut ih text
  | case9 c p noRegister noCoprocessor ih =>
      exact print_letter noRegister noCoprocessor p text ▸ behind cut ih text
  | case10 c p plain ih => exact print_char plain p text ▸ behind cut ih text

/-! ### What is printed -/

/-- A part of the printer appends a piece of text, if there is room for it. -/
def Prints (part : List Char → Except PrintFault (List Char)) (piece : List Char) : Prop :=
  ∀ text, text.length + piece.length ≤ bufferSize → part text = .ok (text ++ piece)

section Prints

variable {first second : List Char → Except PrintFault (List Char)} {one other : List Char}

theorem prints_nil : Prints .ok [] := fun text _ => congrArg _ (List.append_nil text).symm

theorem prints_put (c : Char) : Prints (put · c) [c] := fun _ room => if_pos room

theorem Prints.bind (prints : Prints first one) (prints' : Prints second other) :
    Prints (fun text => first text >>= second) (one ++ other) := by
  intro text room
  rw [List.length_append] at room
  have again : (text ++ one).length + other.length ≤ bufferSize := by
    rw [List.length_append]
    omega
  change first text >>= second = _
  rw [prints text (by omega), ← List.append_assoc]
  exact prints' _ again

theorem Prints.ite {condition : Prop} [Decidable condition] (prints : Prints first one)
    (prints' : Prints second other) :
    Prints (fun text => if condition then first text else second text)
      (if condition then one else other) := by
  split
  · exact prints
  · exact prints'

theorem prints_cat (string : List Char) : Prints (cat · string) string := by
  induction string with
  | nil => exact prints_nil
  | cons c string ih => exact (prints_put c).bind ih

theorem prints_foldlM {α : Type} {part : List Char → α → Except PrintFault (List Char)}
    {piece : α → List Char} {list : List α}
    (each : ∀ item ∈ list, Prints (part · item) (piece item)) :
    Prints (fun text => list.foldlM part text) (list.flatMap piece) := by
  induction list with
  | nil => exact prints_nil
  | cons item list ih =>
      rw [List.forall_mem_cons] at each
      exact each.1.bind (ih each.2)

end Prints

/-- An entry of a table. -/
def entry (table : List String) (index : Nat) : List Char := (table[index]?.getD "").toList

theorem prints_entry {table : List String} {index : Nat} (inside : index < table.length) :
    Prints (catEntry table · index) (entry table index) := by
  have found := List.getElem?_eq_getElem inside
  simp only [catEntry, entry, found]
  exact prints_cat _

theorem length_entry_le {table : List String} {bound : Nat}
    (short : table.all (·.toList.length ≤ bound)) (index : Nat) :
    (entry table index).length ≤ bound := by
  rw [entry]
  cases found : table[index]? with
  | none => exact Nat.zero_le bound
  | some string =>
      exact of_decide_eq_true (List.all_eq_true.mp short string (List.mem_of_getElem? found))

/-- The digits of a number without leading zeros. -/
def digits (val : BitVec 32) : List Char :=
  if _more : val >>> 4 ≠ 0 then digits (val >>> 4) ++ entry nibbles (val &&& 0xF).toNat
  else entry nibbles (val &&& 0xF).toNat
termination_by val.toNat
decreasing_by exact toNat_shift_lt _more

/-- All eight digits of a number. -/
def digits8 (val : BitVec 32) : List Char :=
  [28, 24, 20, 16, 12, 8, 4, 0].flatMap fun shift =>
    entry nibbles ((val >>> shift) &&& 0xF).toNat

theorem prints_nibble (nibble : BitVec 32) :
    Prints (catNibble · nibble) (entry nibbles (nibble &&& 0xF).toNat) := by
  apply prints_entry
  rw [BitVec.toNat_and]
  exact Nat.lt_of_le_of_lt Nat.and_le_right (by decide)

theorem prints_catHex (val : BitVec 32) : Prints (catHex · val) (digits val) := by
  induction val using digits.induct with
  | case1 val more ih =>
      have parts := ih.bind (prints_nibble val)
      intro text room
      rw [digits, dif_pos more] at room ⊢
      change catHex text val = _
      rw [catHex, dif_pos more]
      exact parts text room
  | case2 val last =>
      intro text room
      rw [digits, dif_neg last] at room ⊢
      change catHex text val = _
      rw [catHex, dif_neg last]
      exact prints_nibble val text room

theorem prints_catHex8 (val : BitVec 32) : Prints (catHex8 · val) (digits8 val) :=
  prints_foldlM fun shift _ => prints_nibble (val >>> shift)

/-- The registers of a list, each with a comma behind it. -/
def listed (imm : BitVec 32) : List Char :=
  (List.range 16).flatMap fun i => if imm.getLsbD i then 'r' :: (entry ints i ++ [',']) else []

theorem prints_catRegisters (imm : BitVec 32) : Prints (catRegisters · imm) (listed imm) := by
  refine prints_foldlM fun i inside => Prints.ite ?_ prints_nil
  have register : Prints (catI16 · i) (entry ints i) := prints_entry (List.mem_range.mp inside)
  exact (prints_put 'r').bind (register.bind (prints_put ','))

/-- What the directives of one letter print. -/
def letterPiece (ctx : Context) (c : Char) : List Char :=
  if c = '^' then if ctx.sBit then ['^'] else []
  else if c = '-' then if !ctx.uBit then ['-'] else []
  else if c = '?' then ['?', '?', '?']
  else if c = 'c' then entry Condition.strings ctx.cond.ctorIdx
  else if c = 's' then if ctx.sBit then ['s'] else []
  else if c = 'F' then entry srMaskStrings ctx.rn.val
  else if c = 'S' then entry Shift.strings ctx.shift.ctorIdx
  else if c = 'M' then entry AddressingMode.strings ctx.addressingMode.ctorIdx
  else if c = 'E' then entry ExtendMode.strings ctx.extendMode.ctorIdx
  else if c = 'I' then digits ctx.imm
  else if c = 'A' then digits8 ctx.imm
  else [c]

theorem prints_directive (c : Char) : Prints (directive ctx · c) (letterPiece ctx c) := by
  have cond : ctx.cond.ctorIdx < Condition.strings.length := by cases ctx.cond <;> decide
  have shift : ctx.shift.ctorIdx < Shift.strings.length := by cases ctx.shift <;> decide
  have mode : ctx.addressingMode.ctorIdx < AddressingMode.strings.length := by
    cases ctx.addressingMode <;> decide
  have extend : ctx.extendMode.ctorIdx < ExtendMode.strings.length := by
    cases ctx.extendMode <;> decide
  exact ((prints_put _).ite prints_nil).ite <| ((prints_put _).ite prints_nil).ite <|
    (prints_cat _).ite <| (prints_entry cond).ite <| ((prints_put _).ite prints_nil).ite <|
    (prints_entry ctx.rn.isLt).ite <| (prints_entry shift).ite <| (prints_entry mode).ite <|
    (prints_entry extend).ite <| (prints_catHex _).ite <| (prints_catHex8 _).ite (prints_put _)

/-- What is printed for a register behind its sign. -/
def registerPiece (ctx : Context) (c : Char) : List Char :=
  if c = 'd' then entry ints ctx.rd.val
  else if c = 'n' then entry ints ctx.rn.val
  else if c = 'm' then entry ints ctx.rm.val
  else if c = 's' then entry ints ctx.rs.val
  else []

theorem prints_register (sign : Char) {c : Char} (single : c ≠ 'L') :
    Prints (emit ctx · (.register sign c)) (sign :: registerPiece ctx c) := by
  have register : Prints (decodeReg ctx · c) (registerPiece ctx c) := by
    intro text room
    change decodeReg ctx text c = _
    rw [decodeReg, if_neg single]
    exact ((prints_entry ctx.rd.isLt).ite <| (prints_entry ctx.rn.isLt).ite <|
      (prints_entry ctx.rm.isLt).ite <| (prints_entry ctx.rs.isLt).ite prints_nil) text room
  exact (prints_put sign).bind register

/-- What the directives of a coprocessor print. -/
def coprocessorPiece (ctx : Context) (c : Char) : List Char :=
  if c = 'p' then 'p' :: entry ints ctx.cpNum.val
  else if c = '1' then entry ints ctx.cpOp1.val
  else if c = '2' then entry ints ctx.cpOp2.val
  else []

theorem prints_coprocessor (c : Char) :
    Prints (coprocessor ctx · c) (coprocessorPiece ctx c) := by
  have first := ctx.cpOp1.isLt.trans (show 8 < ints.length by decide)
  have second := ctx.cpOp2.isLt.trans (show 8 < ints.length by decide)
  exact ((prints_put 'p').bind (prints_entry ctx.cpNum.isLt)).ite <|
    (prints_entry first).ite <| (prints_entry second).ite prints_nil

/-- What a directive prints, other than a list of registers. -/
def piece (ctx : Context) : Directive → List Char
  | .char c => [c]
  | .letter c => letterPiece ctx c
  | .register sign c => sign :: registerPiece ctx c
  | .coprocessor c => coprocessorPiece ctx c

/-- The directive of a list of registers. -/
def Directive.lists : Directive → Bool
  | .register _ c => c = 'L'
  | _ => false

theorem prints_emit {d : Directive} (single : d.lists = false) :
    Prints (emit ctx · d) (piece ctx d) := by
  cases d with
  | char c => exact prints_put c
  | letter c => exact prints_directive c
  | register sign c => exact prints_register sign (of_decide_eq_false single)
  | coprocessor c => exact prints_coprocessor c

theorem back_append_singleton (text : List Char) (c : Char) : back (text ++ [c]) = .ok text := by
  rw [back, if_neg (List.append_ne_nil_of_right_ne_nil _ (List.cons_ne_nil c [])),
    List.dropLast_concat]

/-- The sign of a list of registers does not stay, and neither does its last
character. -/
theorem emit_list {text : List Char} (some : text ≠ []) (sign : Char)
    (room : text.length + (listed ctx.imm).length < bufferSize) :
    emit ctx text (.register sign 'L') =
      .ok (if ctx.imm ≠ 0 then (text ++ listed ctx.imm).dropLast else text) := by
  have signed : put text sign = .ok (text ++ [sign]) := if_pos (by omega)
  have registers : catRegisters text ctx.imm = .ok (text ++ listed ctx.imm) :=
    prints_catRegisters ctx.imm text room.le
  have last : back (text ++ listed ctx.imm) = .ok (text ++ listed ctx.imm).dropLast :=
    if_neg (List.append_ne_nil_of_left_ne_nil some _)
  have behind : decodeReg ctx (text ++ [sign]) 'L' = back (text ++ [sign]) >>= fun text =>
    if ctx.imm ≠ 0 then catRegisters text ctx.imm >>= back else .ok text := rfl
  change put text sign >>= (decodeReg ctx · 'L') = _
  rw [signed]
  change decodeReg ctx (text ++ [sign]) 'L' = _
  rw [behind, back_append_singleton]
  change (if ctx.imm ≠ 0 then catRegisters text ctx.imm >>= back else .ok text) = _
  rw [registers]
  split
  · exact last
  · rfl

/-- What a directive prints, also if it is the list of registers of an immediate
that has any. -/
def printed (ctx : Context) (d : Directive) : List Char :=
  if d.lists then (listed ctx.imm).dropLast else piece ctx d

/-! ### Room -/

/-- The most characters that a directive prints on the way. -/
def Directive.width : Directive → Nat
  | .char _ => 1
  | .letter c => if c = 'I' ∨ c = 'A' then 8 else 4
  | .register _ c => if c = 'L' then 65 else 3
  | .coprocessor _ => 3

theorem length_flatMap_le {α : Type} {part : α → List Char} {bound : Nat}
    (short : ∀ item, (part item).length ≤ bound) (list : List α) :
    (list.flatMap part).length ≤ list.length * bound := by
  induction list with
  | nil => exact Nat.zero_le _
  | cons item list ih =>
      have first := short item
      rw [List.flatMap_cons, List.length_append, List.length_cons, Nat.succ_mul]
      omega

theorem length_nibble_le (index : Nat) : (entry nibbles index).length ≤ 1 :=
  length_entry_le (by decide) index

theorem length_int_le (index : Nat) : (entry ints index).length ≤ 2 :=
  length_entry_le (by decide) index

theorem length_digits_le {val : BitVec 32} {count : Nat} (small : val.toNat < 16 ^ (count + 1)) :
    (digits val).length ≤ count + 1 := by
  have nibble := length_nibble_le (val &&& 0xF).toNat
  induction count generalizing val with
  | zero =>
      have last : ¬val >>> 4 ≠ 0 := by
        rw [not_not]
        apply BitVec.eq_of_toNat_eq
        rw [BitVec.toNat_ushiftRight, Nat.shiftRight_eq_div_pow]
        exact Nat.div_eq_of_lt small
      rwa [digits, dif_neg last]
  | succ count ih =>
      have rest : (val >>> 4).toNat < 16 ^ (count + 1) := by
        rw [BitVec.toNat_ushiftRight, Nat.shiftRight_eq_div_pow]
        exact Nat.div_lt_of_lt_mul (by rwa [Nat.pow_succ, Nat.mul_comm] at small)
      have others := ih rest (length_nibble_le _)
      rw [digits]
      split
      · rw [List.length_append]
        omega
      · omega

theorem length_digits8_le (val : BitVec 32) : (digits8 val).length ≤ 8 :=
  length_flatMap_le (fun _ => length_nibble_le _) _

theorem length_ite_le {condition : Prop} [Decidable condition] {one other : List Char} {bound : Nat}
    (first : condition → one.length ≤ bound) (second : ¬condition → other.length ≤ bound) :
    (if condition then one else other).length ≤ bound := by
  split
  · next holds => exact first holds
  · next fails => exact second fails

theorem length_letterPiece_le (c : Char) :
    (letterPiece ctx c).length ≤ (Directive.letter c).width := by
  have enough : 4 ≤ (Directive.letter c).width := by
    rw [Directive.width]
    split <;> decide
  have long (number : c = 'I' ∨ c = 'A') : (Directive.letter c).width = 8 := if_pos number
  have within {list : List Char} (short : list.length ≤ 4) := short.trans enough
  have table {table : List String} (short : table.all (·.toList.length ≤ 4)) (index : Nat) :=
    within (length_entry_le short index)
  have optional {condition : Prop} [Decidable condition] (sign : Char) :
      (if condition then [sign] else []).length ≤ (Directive.letter c).width :=
    length_ite_le (fun _ => within (show 1 ≤ 4 by decide)) fun _ => Nat.zero_le _
  exact length_ite_le (fun _ => optional '^') fun _ =>
    length_ite_le (fun _ => optional '-') fun _ =>
    length_ite_le (fun _ => within (show 3 ≤ 4 by decide)) fun _ =>
    length_ite_le (fun _ => table (by decide) _) fun _ =>
    length_ite_le (fun _ => optional 's') fun _ =>
    length_ite_le (fun _ => table (by decide) _) fun _ =>
    length_ite_le (fun _ => table (by decide) _) fun _ =>
    length_ite_le (fun _ => table (by decide) _) fun _ =>
    length_ite_le (fun _ => table (by decide) _) fun _ =>
    length_ite_le (fun hex => long (.inl hex) ▸ length_digits_le ctx.imm.isLt) fun _ =>
    length_ite_le (fun hex => long (.inr hex) ▸ length_digits8_le ctx.imm) fun _ =>
    within (show 1 ≤ 4 by decide)

theorem length_piece_le {d : Directive} (single : d.lists = false) :
    (piece ctx d).length ≤ d.width := by
  have int := length_int_le
  cases d with
  | char c => exact Nat.le_refl 1
  | letter c => exact length_letterPiece_le c
  | register sign c =>
      have width : (Directive.register sign c).width = 3 :=
        if_neg (of_decide_eq_false single)
      rw [width, piece, List.length_cons, registerPiece]
      apply Nat.succ_le_succ
      split_ifs
      · exact int _
      · exact int _
      · exact int _
      · exact int _
      · exact Nat.zero_le 2
  | coprocessor c =>
      have width : (Directive.coprocessor c).width = 3 := rfl
      rw [width, piece, coprocessorPiece]
      split_ifs
      · exact Nat.succ_le_succ (int _)
      · exact (int _).trans (Nat.le_succ 2)
      · exact (int _).trans (Nat.le_succ 2)
      · exact Nat.zero_le 3

theorem length_listed_le (imm : BitVec 32) : (listed imm).length ≤ 64 := by
  refine @length_flatMap_le _ _ 4 (fun i => ?_) (List.range 16)
  have int := length_int_le i
  split
  · rw [List.length_cons, List.length_append]
    exact Nat.succ_le_succ (Nat.succ_le_succ int)
  · exact Nat.zero_le 4

/-- The fewest characters that a directive prints. -/
def Directive.least : Directive → Nat
  | .char _ => 1
  | _ => 0

theorem least_le_length_piece (d : Directive) : d.least ≤ (piece ctx d).length := by
  cases d with
  | char c => exact Nat.le_refl 1
  | _ => exact Nat.zero_le _

/-- The directives have enough room behind a text whose length is known to lie
between two bounds, and a list of registers has something in front of it. -/
def room : List Directive → (least most : Nat) → Bool
  | [], _, most => most < bufferSize
  | d :: ds, least, most =>
      most + d.width ≤ bufferSize &&
        if d.lists then 0 < least && room ds (least - 1) (most + d.width)
        else room ds (least + d.least) (most + d.width)

theorem finishes_of_room {ds : List Directive} {least most : Nat}
    (enough : room ds least most = true) {text : List Char} (lower : least ≤ text.length)
    (upper : text.length ≤ most) :
    ∃ result, ds.foldlM (emit ctx) text >>= finish = .ok result ∧ result.length < bufferSize ∧
      ((∀ d ∈ ds, d.lists = true → ctx.imm ≠ 0 → listed ctx.imm ≠ []) →
        result = text ++ ds.flatMap (printed ctx)) := by
  induction ds generalizing least most text with
  | nil =>
      have short : text.length < bufferSize := upper.trans_lt (of_decide_eq_true enough)
      exact ⟨text, if_pos short, short, fun _ => (List.append_nil text).symm⟩
  | cons d ds ih =>
      rw [room, Bool.and_eq_true, decide_eq_true_iff] at enough
      obtain ⟨fits, behind⟩ := enough
      cases single : d.lists with
      | false =>
          rw [single, if_neg Bool.false_ne_true] at behind
          have short := @length_piece_le ctx d single
          have long := @least_le_length_piece ctx d
          have emitted : emit ctx text d = .ok (text ++ piece ctx d) :=
            prints_emit single text (by omega)
          have lower' : least + d.least ≤ (text ++ piece ctx d).length := by
            rw [List.length_append]
            omega
          have upper' : (text ++ piece ctx d).length ≤ most + d.width := by
            rw [List.length_append]
            omega
          obtain ⟨result, finished, within, whole⟩ := ih behind lower' upper'
          rw [List.foldlM_cons, emitted]
          refine ⟨result, finished, within, fun some => ?_⟩
          have this : printed ctx d = piece ctx d := by
            rw [printed, single, if_neg Bool.false_ne_true]
          rw [whole fun d' inside => some d' (List.mem_cons_of_mem d inside), List.flatMap_cons,
            this, List.append_assoc]
      | true =>
          rw [single, if_pos rfl, Bool.and_eq_true, decide_eq_true_iff] at behind
          obtain ⟨front, behind⟩ := behind
          obtain ⟨sign, rfl⟩ : ∃ sign, d = .register sign 'L' := by
            cases d with
            | register sign c => exact ⟨sign, by rw [of_decide_eq_true single]⟩
            | _ => cases single
          have short := length_listed_le ctx.imm
          have width : (Directive.register sign 'L').width = 65 := rfl
          rw [width] at fits behind
          have nonempty : text ≠ [] := List.ne_nil_of_length_pos (by omega)
          have emitted := @emit_list ctx text nonempty sign (by omega)
          set next := if ctx.imm ≠ 0 then (text ++ listed ctx.imm).dropLast else text with shape
          have length : next.length = text.length ∨
              next.length = text.length + (listed ctx.imm).length - 1 := by
            rw [shape]
            split
            · rw [List.length_dropLast, List.length_append]
              exact .inr rfl
            · exact .inl rfl
          obtain ⟨result, finished, within, whole⟩ :=
            ih behind (show least - 1 ≤ next.length by omega)
              (show next.length ≤ most + 65 by omega)
          rw [List.foldlM_cons, emitted]
          refine ⟨result, finished, within, fun some => ?_⟩
          have appended : next = text ++ printed ctx (.register sign 'L') := by
            rw [shape, printed, if_pos single]
            split
            · next registers =>
                exact List.dropLast_append_of_ne_nil
                  (some _ List.mem_cons_self single registers)
            · next zero =>
                have none : listed ctx.imm = [] := by rw [not_not.mp zero]; decide
                rw [none, List.dropLast_nil, List.append_nil]
          rw [whole fun d' inside => some d' (List.mem_cons_of_mem _ inside), List.flatMap_cons,
            appended, List.append_assoc]

end Printer

/-- `get_str`: the text up to the NUL at its end. -/
def Context.getStr (ctx : Context) : Except PrintFault (List Char) :=
  match Inst.strings[ctx.instruction.ctorIdx]? with
  | none => .error .table
  | some fmt => Printer.print ctx fmt.toList []

namespace Printer

variable {ctx : Context}

/-- The format of an instruction. -/
def format (kind : Inst) : List Char := entry Inst.strings kind.ctorIdx

theorem ctorIdx_lt_strings (kind : Inst) : kind.ctorIdx < Inst.strings.length := by
  have count : Inst.strings.length = 138 := rfl
  rw [count]
  cases kind <;> decide

theorem getStr_eq (ctx : Context) : ctx.getStr = print ctx (format ctx.instruction) [] := by
  have inside := ctorIdx_lt_strings ctx.instruction
  simp only [Context.getStr, format, entry, List.getElem?_eq_getElem inside, Option.getD_some]

/-- The characters of the formats, spelled out once: a check of all formats that
takes the strings apart itself is slow. -/
def formats : { formats : List (List Char) // Inst.strings.map String.toList = formats } := by
  refine ⟨?characters, ?same⟩
  case same =>
    unfold Inst.strings
    repeat (refine @congrArg₂ _ _ _ List.cons _ _ _ ?_ String.toList_ofList ?_; swap)
    exact rfl

theorem getElem?_formats (kind : Inst) : formats.val[kind.ctorIdx]? = some (format kind) := by
  rw [← formats.property, List.getElem?_map, format, entry,
    List.getElem?_eq_getElem (ctorIdx_lt_strings kind)]
  rfl

/-- The formats and the numbers of their instructions. -/
theorem mem_formats (kind : Inst) : (format kind, kind.ctorIdx) ∈ formats.val.zipIdx :=
  List.mem_zipIdx_iff_getElem?.mpr (getElem?_formats kind)

/-- Whether a format is whole and has enough room. -/
def suits (fmt : List Char) : Bool := (directives fmt).any (room · 0 0)

theorem ctorIdx_inj {one other : Inst} : one.ctorIdx = other.ctorIdx ↔ one = other := by
  constructor
  · intro same
    rw [← Inst.ofNat_ctorIdx one, ← Inst.ofNat_ctorIdx other, same]
  · exact congrArg Inst.ctorIdx

theorem suits_formats : formats.val.map suits =
    (List.range formats.val.length).map fun index => decide (index ≠ Inst.umlal.ctorIdx) := by
  decide +kernel

/-- One format is cut off, and all others have enough room. -/
theorem suits_format (kind : Inst) : suits (format kind) = decide (kind ≠ .umlal) := by
  have found := getElem?_formats kind
  have inside := (List.getElem?_eq_some_iff.mp found).1
  have row : (formats.val.map suits)[kind.ctorIdx]? = some (suits (format kind)) := by
    rw [List.getElem?_map, found, Option.map_some]
  rw [suits_formats, List.getElem?_map, List.getElem?_range inside, Option.map_some] at row
  rw [← Option.some.inj row]
  exact decide_eq_decide.mpr (not_congr ctorIdx_inj)

theorem directives_umlal : directives (format .umlal) = none := by decide +kernel

theorem ne_umlal_of_getStr {text : List Char} (prints : ctx.getStr = .ok text) :
    ctx.instruction ≠ .umlal := by
  intro cut
  rw [getStr_eq, cut] at prints
  exact print_of_none directives_umlal _ _ prints

theorem directives_format {kind : Inst} (whole : kind ≠ .umlal) :
    ∃ ds, directives (format kind) = some ds ∧ room ds 0 0 = true := by
  have enough := suits_format kind
  rw [decide_eq_true whole, suits, Option.any_eq_true] at enough
  exact enough

end Printer

/-- The printer comes to the end of its format within its tables and its buffer. -/
def Context.Printable (ctx : Context) : Prop :=
  ∃ text, ctx.getStr = .ok text ∧ text.length < Printer.bufferSize

namespace Disassembler

open Printer

theorem printable_iff (ctx : Context) : ctx.Printable ↔ ctx.instruction ≠ .umlal := by
  constructor
  · rintro ⟨text, prints, -⟩
    exact ne_umlal_of_getStr prints
  · intro known
    obtain ⟨ds, whole, enough⟩ := directives_format known
    obtain ⟨text, finished, within, -⟩ :=
      @finishes_of_room ctx _ _ _ enough [] (Nat.le_refl 0) (Nat.le_refl 0)
    refine ⟨text, ?_, within⟩
    rw [getStr_eq, print_of_directives whole, finished]

/-- Printing what the decoder has made of a word or of a halfword comes to its end,
unless the word is an `UMLAL`. -/
theorem printable_decoded_iff (prior : Disassembler) (word addr : BitVec 32) (half : BitVec 16) :
    ((prior.decode word addr).Printable ↔ ¬IsUmlal word) ∧
      (prior.decodeThumb (half.setWidth 32) addr).Printable := by
  constructor
  · rw [printable_iff, ← decode_umlal_iff prior word addr]
  · exact (printable_iff _).mpr (decodeThumb_ne_umlal prior _ addr)

/-- `UMLAL r0, r1, r2, r3` is not printed. -/
theorem not_printable_umlal :
    ¬∀ (prior : Disassembler) (word addr : BitVec 32), (prior.decode word addr).Printable := by
  intro printable
  have umlal : (blank.decode 0xE0A10392 0).instruction = .umlal := by decide
  exact (printable_iff _).mp (printable blank 0xE0A10392 0) umlal

end Disassembler

end Ndse
