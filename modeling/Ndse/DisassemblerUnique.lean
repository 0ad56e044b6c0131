import Ndse.DisassemblerConditions
import Ndse.DisassemblerText
import Ndse.Library.FinitePatterns

/-!
# What the text of an instruction tells

Without its digits and signs, the text of an instruction is one of the few words
that its format allows.  The formats allow different words, and so do the
conditions where a format has one, except for two that print alike.
-/

namespace Ndse

open FinitePatterns

namespace Printer

/-! ### Texts without their numbers -/

/-- What is left of a text: a digit or a sign does not stay. -/
def kept (c : Char) : Bool := !(c.isDigit || ('A' ≤ c && c ≤ 'F') || c = '-')

def erase (text : List Char) : List Char := text.filter kept

theorem erase_append (one other : List Char) :
    erase (one ++ other) = erase one ++ erase other := List.filter_append _ _

theorem erase_cons (c : Char) (text : List Char) : erase (c :: text) = erase [c] ++ erase text :=
  erase_append [c] text

theorem erase_flatMap {α : Type} (list : List α) (piece : α → List Char) :
    erase (list.flatMap piece) = list.flatMap fun item => erase (piece item) :=
  List.filter_flatMap

/-- The entries of a table, without their numbers. -/
def choices (table : List String) : List (List Char) := table.map fun string => erase string.toList

theorem erase_entry_mem {table : List String} {index : Nat} (inside : index < table.length) :
    erase (entry table index) ∈ choices table := by
  rw [entry, List.getElem?_eq_getElem inside, Option.getD_some]
  exact List.mem_map_of_mem (List.getElem_mem inside)

theorem erase_entry_numbers {table : List String} (numbers : choices table = table.map fun _ => [])
    (index : Nat) : erase (entry table index) = [] := by
  by_cases inside : index < table.length
  · have chosen := erase_entry_mem inside
    rw [numbers, List.mem_map] at chosen
    obtain ⟨_, _, empty⟩ := chosen
    exact empty.symm
  · rw [entry, List.getElem?_eq_none (not_lt.mp inside), Option.getD_none]
    rfl

theorem erase_int (index : Nat) : erase (entry ints index) = [] :=
  erase_entry_numbers (by decide) index

theorem erase_nibble (index : Nat) : erase (entry nibbles index) = [] :=
  erase_entry_numbers (by decide) index

theorem erase_digits (val : BitVec 32) : erase (digits val) = [] := by
  induction val using digits.induct with
  | case1 val more ih => rw [digits, dif_pos more, erase_append, ih, erase_nibble, List.append_nil]
  | case2 val last => rw [digits, dif_neg last, erase_nibble]

theorem erase_digits8 (val : BitVec 32) : erase (digits8 val) = [] := by
  rw [digits8, erase_flatMap, List.flatMap_eq_nil_iff]
  exact fun shift _ => erase_nibble _

/-! ### The patterns of the formats -/

/-- The words that a directive of one letter may print. -/
def letterWords (conditions : List (List Char)) (c : Char) : List (List Char) :=
  if c = '^' then [['^'], []]
  else if c = '-' then [[]]
  else if c = '?' then [['?', '?', '?']]
  else if c = 'c' then conditions
  else if c = 's' then [['s'], []]
  else if c = 'F' then choices srMaskStrings
  else if c = 'S' then choices Shift.strings
  else if c = 'M' then choices AddressingMode.strings
  else if c = 'E' then choices ExtendMode.strings.tail
  else if c = 'I' then [[]]
  else if c = 'A' then [[]]
  else [erase [c]]

/-- The words that a directive may print. -/
def item (conditions : List (List Char)) : Directive → Item Char
  | .char c => .oneOf [erase [c]]
  | .letter c => .oneOf (letterWords conditions c)
  | .register sign c => if c = 'L' then .anything else .oneOf [erase [sign]]
  | .coprocessor c => .oneOf [if c = 'p' then ['p'] else []]

section Items

variable {ctx : Context} {conditions : List (List Char)}

theorem erase_ite_mem {condition : Prop} [Decidable condition] {one other : List Char}
    {words others : List (List Char)} (yes : condition → erase one ∈ words)
    (no : ¬condition → erase other ∈ others) :
    erase (if condition then one else other) ∈ if condition then words else others := by
  split
  · next holds => exact yes holds
  · next fails => exact no fails

theorem erase_letterPiece_mem {c : Char}
    (condition : c = 'c' → erase (entry Condition.strings ctx.cond.ctorIdx) ∈ conditions)
    (extend : c = 'E' → ctx.extendMode ≠ .invalid) :
    erase (letterPiece ctx c) ∈ letterWords conditions c := by
  have number {text : List Char} (none : erase text = []) : erase text ∈ [[]] :=
    none ▸ List.mem_singleton_self _
  have optional {shown : Prop} [Decidable shown] {c : Char} (stays : kept c = true) :
      erase (if shown then [c] else []) ∈ [[c], []] := by
    split
    · rw [erase, List.filter_cons_of_pos stays]
      exact List.mem_cons_self
    · exact List.mem_cons_of_mem _ (List.mem_singleton_self _)
  have shift : ctx.shift.ctorIdx < Shift.strings.length := by cases ctx.shift <;> decide
  have mode : ctx.addressingMode.ctorIdx < AddressingMode.strings.length := by
    cases ctx.addressingMode <;> decide
  refine erase_ite_mem (fun _ => optional (by decide)) fun _ =>
    erase_ite_mem (fun _ => number ?_) fun _ =>
    erase_ite_mem (fun _ => List.mem_singleton_self _) fun _ =>
    erase_ite_mem condition fun _ =>
    erase_ite_mem (fun _ => optional (by decide)) fun _ =>
    erase_ite_mem (fun _ => erase_entry_mem ctx.rn.isLt) fun _ =>
    erase_ite_mem (fun _ => erase_entry_mem shift) fun _ =>
    erase_ite_mem (fun _ => erase_entry_mem mode) fun _ =>
    erase_ite_mem (fun letter => ?_) fun _ =>
    erase_ite_mem (fun _ => number (erase_digits _)) fun _ =>
    erase_ite_mem (fun _ => number (erase_digits8 _)) fun _ => List.mem_singleton_self _
  · split <;> rfl
  · have valid := extend letter
    generalize ctx.extendMode = mode at valid ⊢
    cases mode with
    | invalid => exact absurd rfl valid
    | h | sb | sh => decide

/-- A directive prints one of its words. -/
theorem matches_printed {d : Directive}
    (condition : d = .letter 'c' → erase (entry Condition.strings ctx.cond.ctorIdx) ∈ conditions)
    (extend : d = .letter 'E' → ctx.extendMode ≠ .invalid) :
    Matches [item conditions d] (erase (printed ctx d)) := by
  cases d with
  | char c => exact matches_oneOf (List.mem_singleton_self _)
  | letter c =>
      exact matches_oneOf (erase_letterPiece_mem (fun letter => condition (congrArg _ letter))
        fun letter => extend (congrArg _ letter))
  | register sign c =>
      by_cases list : c = 'L'
      · rw [item, if_pos list]
        exact matches_anything _
      · have single : (Directive.register sign c).lists = false := decide_eq_false list
        have number : erase (registerPiece ctx c) = [] := by
          rw [registerPiece]
          split_ifs
          · exact erase_int _
          · exact erase_int _
          · exact erase_int _
          · exact erase_int _
          · rfl
        have shape : erase (sign :: registerPiece ctx c) = erase [sign] :=
          (erase_cons sign _).trans (by rw [number, List.append_nil])
        rw [item, if_neg list, printed, single, if_neg Bool.false_ne_true, piece, shape]
        exact matches_oneOf (List.mem_singleton_self _)
  | coprocessor c =>
      have number : erase (coprocessorPiece ctx c) = if c = 'p' then ['p'] else [] := by
        rw [coprocessorPiece]
        split_ifs
        · rw [erase_cons, erase_int]
          rfl
        · exact erase_int _
        · exact erase_int _
        · rfl
      exact matches_oneOf (number ▸ List.mem_singleton_self _)

end Items

/-- The pattern of a format. -/
def pattern (conditions : List (List Char)) (fmt : List Char) : List (Item Char) :=
  ((directives fmt).getD []).map (item conditions)

/-- What a format asks of its instruction: extend modes and lists of registers
belong to some functions of the decoder. -/
def belongs (fmt : List Char) (kind : Inst) : Bool :=
  ((directives fmt).getD []).all fun d =>
    (d ≠ .letter 'E' || kind.path = some .strx) && (!d.lists || kind.path = some .multiple)

theorem belongs_formats :
    formats.val.zipIdx.all (fun row => belongs row.1 (Inst.ofNat row.2)) = true := by
  decide +kernel

theorem belongs_format (kind : Inst) : belongs (format kind) kind = true := by
  have belonging := List.all_eq_true.mp belongs_formats _ (mem_formats kind)
  rwa [Inst.ofNat_ctorIdx] at belonging

end Printer

/-- A context that was decoded from a word, as far as printing goes. -/
structure Context.Regular (ctx : Context) : Prop where
  extend : ctx.instruction.path = some .strx → ctx.extendMode ≠ .invalid
  list : ctx.instruction.path = some .multiple → ctx.imm ≠ 0 → Printer.listed ctx.imm ≠ []

namespace Printer

section Texts

variable {ctx : Context} {text : List Char}

theorem directive_belongs {kind : Inst} {ds : List Directive}
    (whole : directives (format kind) = some ds) {d : Directive} (inside : d ∈ ds) :
    (d = .letter 'E' → kind.path = some .strx) ∧ (d.lists = true → kind.path = some .multiple) := by
  have belonging := belongs_format kind
  rw [belongs, whole, Option.getD_some] at belonging
  have both := List.all_eq_true.mp belonging d inside
  rw [Bool.and_eq_true, Bool.or_eq_true, Bool.or_eq_true, decide_eq_true_iff, decide_eq_true_iff,
    decide_eq_true_iff, Bool.not_eq_true'] at both
  refine ⟨fun letter => both.1.resolve_left (· letter), fun list => both.2.resolve_left ?_⟩
  rw [list]
  exact nofun

/-- The text is what the directives print. -/
theorem text_eq (regular : ctx.Regular) (prints : ctx.getStr = .ok text) :
    ∃ ds, directives (format ctx.instruction) = some ds ∧ text = ds.flatMap (printed ctx) := by
  obtain ⟨ds, whole, enough⟩ := directives_format (ne_umlal_of_getStr prints)
  refine ⟨ds, whole, ?_⟩
  obtain ⟨result, finished, -, shape⟩ :=
    @finishes_of_room ctx _ _ _ enough [] (Nat.le_refl 0) (Nat.le_refl 0)
  rw [getStr_eq, print_of_directives whole, finished] at prints
  rw [← Except.ok.inj prints]
  exact shape fun d inside lists => regular.list ((directive_belongs whole inside).2 lists)

theorem matches_getStr (regular : ctx.Regular) (prints : ctx.getStr = .ok text)
    {conditions : List (List Char)}
    (condition : erase (entry Condition.strings ctx.cond.ctorIdx) ∈ conditions) :
    Matches (pattern conditions (format ctx.instruction)) (erase text) := by
  obtain ⟨ds, whole, rfl⟩ := text_eq regular prints
  rw [pattern, whole, Option.getD_some, erase_flatMap]
  exact matches_flatMap fun d inside => matches_printed (fun _ => condition)
    fun letter => regular.extend ((directive_belongs whole inside).1 letter)

theorem condition_mem (cond : Condition) :
    erase (entry Condition.strings cond.ctorIdx) ∈ choices Condition.strings :=
  erase_entry_mem (by cases cond <;> decide)

/-! ### Conditions -/

/-- A directive that prints the same for every context. -/
def literal : Directive → Bool
  | .char _ => true
  | .letter c => c = '?'
  | _ => false

theorem printed_literal {d : Directive} (fixed : literal d = true) (one other : Context) :
    printed one d = printed other d := by
  cases d with
  | char c => rfl
  | letter c =>
      obtain rfl := of_decide_eq_true fixed
      rfl
  | _ => cases fixed

/-- Whether the format of an instruction has its condition. -/
def hasCondition (fmt : List Char) : Bool := ((directives fmt).getD []).contains (.letter 'c')

/-- The names of the conditions other than the one without a name. -/
def named : List (List Char) := (choices Condition.strings).filter (· ≠ [])

/-- A format prints its condition behind its mnemonic, and what is behind the
condition does not look like it. -/
def tellsConditions (fmt : List Char) : Bool :=
  !hasCondition fmt || match ((directives fmt).getD []).dropWhile literal with
    | [] => false
    | d :: ds =>
        let behind := ds.map (item (choices Condition.strings))
        d = .letter 'c' && apart 50 [] behind [] (.oneOf named :: behind)

theorem tellsConditions_formats : formats.val.all tellsConditions = true := by decide +kernel

theorem entry_condition (cond : Condition) :
    entry Condition.strings cond.ctorIdx = [] ∨
      (entry Condition.strings cond.ctorIdx).length = 2 ∧
        erase (entry Condition.strings cond.ctorIdx) ∈ named := by
  cases cond <;> decide

/-- One name is given to two conditions. -/
theorem condition_eq_of_entry {one other : Condition}
    (same : entry Condition.strings one.ctorIdx = entry Condition.strings other.ctorIdx) :
    one = other ∨ (one = .vs ∨ one = .vc) ∧ (other = .vs ∨ other = .vc) := by
  have names : ∀ i < 16, ∀ j < 16, entry Condition.strings i = entry Condition.strings j →
      i = j ∨ (i = 6 ∨ i = 7) ∧ (j = 6 ∨ j = 7) := by decide +kernel
  have inside (cond : Condition) : cond.ctorIdx < 16 := by cases cond <;> decide
  have read {cond : Condition} {index : Nat} (place : cond.ctorIdx = index) :
      cond = .ofNat index := by
    rw [← place, Condition.ofNat_ctorIdx]
  obtain equal | ⟨first, second⟩ := names _ (inside one) _ (inside other) same
  · exact .inl ((read equal).trans (Condition.ofNat_ctorIdx other))
  · exact .inr ⟨first.imp read read, second.imp read read⟩

/-- What is printed from the condition on is not printed without a name. -/
theorem entry_eq_of_tells {ds : List Directive} {one other : Context}
    (parted : apart 50 [] (ds.map (item (choices Condition.strings))) []
      (.oneOf named :: ds.map (item (choices Condition.strings))) = true)
    (regular : ∀ d ∈ ds, d = .letter 'E' →
      one.extendMode ≠ .invalid ∧ other.extendMode ≠ .invalid)
    (same : entry Condition.strings one.cond.ctorIdx ++ ds.flatMap (printed one) =
      entry Condition.strings other.cond.ctorIdx ++ ds.flatMap (printed other)) :
    entry Condition.strings one.cond.ctorIdx = entry Condition.strings other.cond.ctorIdx := by
  have behind {ctx : Context} (extend : ∀ d ∈ ds, d = .letter 'E' → ctx.extendMode ≠ .invalid) :
      Matches (ds.map (item (choices Condition.strings))) (erase (ds.flatMap (printed ctx))) := by
    rw [erase_flatMap]
    exact matches_flatMap fun d inside =>
      matches_printed (fun _ => condition_mem _) (extend d inside)
  have first := behind fun d inside letter => (regular d inside letter).1
  have second := behind fun d inside letter => (regular d inside letter).2
  obtain none | ⟨two, name⟩ := entry_condition one.cond
  · obtain none' | ⟨-, name'⟩ := entry_condition other.cond
    · rw [none, none']
    · have alike := congrArg erase same
      rw [none, List.nil_append, erase_append] at alike
      exact absurd alike (ne_of_apart parted first (.oneOf name' second))
  · obtain none' | ⟨two', -⟩ := entry_condition other.cond
    · have alike := congrArg erase same
      rw [none', List.nil_append, erase_append] at alike
      exact absurd alike.symm (ne_of_apart parted second (.oneOf name first))
    · exact (List.append_inj same (two.trans two'.symm)).1

/-- Where two contexts of one instruction print alike, their conditions do. -/
theorem entry_eq_of_text {other : Context} (kind : ctx.instruction = other.instruction)
    (regular : ctx.Regular) (regular' : other.Regular) (prints : ctx.getStr = .ok text)
    (prints' : other.getStr = .ok text) (shown : hasCondition (format ctx.instruction) = true) :
    entry Condition.strings ctx.cond.ctorIdx = entry Condition.strings other.cond.ctorIdx := by
  obtain ⟨ds, whole, shape⟩ := text_eq regular prints
  obtain ⟨ds', whole', shape'⟩ := text_eq regular' prints'
  rw [← kind, whole] at whole'
  obtain rfl := Option.some.inj whole'
  have tells := List.all_eq_true.mp tellsConditions_formats _
    (List.mem_of_getElem? (getElem?_formats ctx.instruction))
  rw [tellsConditions, shown, Bool.not_true, Bool.false_or, whole, Option.getD_some] at tells
  have split := (List.takeWhile_append_dropWhile (p := literal) (l := ds)).symm
  cases rest : ds.dropWhile literal with
  | nil =>
      rw [rest] at tells
      cases tells
  | cons d behind =>
      rw [rest] at split tells
      dsimp only at tells
      rw [Bool.and_eq_true, decide_eq_true_iff] at tells
      obtain ⟨rfl, parted⟩ := tells
      have mnemonic : (ds.takeWhile literal).flatMap (printed ctx) =
          (ds.takeWhile literal).flatMap (printed other) :=
        List.flatMap_congr fun d inside =>
          printed_literal (List.all_eq_true.mp List.all_takeWhile d inside) ctx other
      have both := shape.symm.trans shape'
      rw [split, List.flatMap_append, List.flatMap_append, mnemonic, List.append_cancel_left_eq,
        List.flatMap_cons, List.flatMap_cons] at both
      refine entry_eq_of_tells parted (fun d inside letter => ?_) both
      have member : d ∈ ds := by
        rw [split]
        exact List.mem_append_right _ (List.mem_cons_of_mem _ inside)
      have path := (directive_belongs whole member).1 letter
      exact ⟨regular.extend path, regular'.extend (kind ▸ path)⟩

end Texts

end Printer

/-! ### Decoded words -/

namespace Disassembler

open Printer

theorem listed_ne_nil {word : BitVec 32} (registers : word &&& 0xFFFF ≠ 0) :
    listed (word &&& 0xFFFF) ≠ [] := by
  intro none
  apply registers
  apply BitVec.eq_of_getLsbD_eq
  intro index _
  rw [listed, List.flatMap_eq_nil_iff] at none
  by_cases low : index < 16
  · have absent := none index (List.mem_range.mpr low)
    split at absent
    · cases absent
    · next clear => exact (Bool.eq_false_iff.mpr clear).trans BitVec.getLsbD_zero.symm
  · have beyond : (0xFFFF : BitVec 32).getLsbD index = false := by
      have large : 65535 < 2 ^ index :=
        lt_of_lt_of_le (by decide : 65535 < 2 ^ 16)
          (Nat.pow_le_pow_right (by decide) (not_lt.mp low))
      rw [BitVec.ofNat_eq_ofNat, BitVec.getLsbD_ofNat, Nat.testBit_lt_two_pow large,
        Bool.and_false]
    rw [BitVec.getLsbD_and, beyond, Bool.and_false]
    exact BitVec.getLsbD_zero.symm

theorem regular_decode (d : Disassembler) (word addr : BitVec 32) :
    (d.decode word addr).Regular where
  extend := decode_extendMode
  list := fun multiple registers => by
    rw [decode_multiple_imm multiple] at registers ⊢
    exact listed_ne_nil registers

/-- The instructions with a condition whose text does not show it: `SWI`, and `MSR`
with an immediate. -/
def OmitsCondition (word : BitVec 32) : Prop :=
  word.extractLsb' 24 4 = 0b1111#4 ∨
    word.extractLsb' 25 3 = 0b001#3 ∧
      (word.extractLsb' 21 4 = 0b1001#4 ∨ word.extractLsb' 21 4 = 0b1011#4) ∧
        word.getLsbD 20 = false

instance : DecidablePred OmitsCondition := fun _ => inferInstanceAs (Decidable (_ ∨ _))

theorem extractLsb'_fifteen_iff (word : BitVec 32) :
    word.extractLsb' 24 4 = 0b1111#4 ↔
      word.extractLsb' 25 3 = 0b111#3 ∧ word.getLsbD 24 = true := by
  have bits : ∀ b27 b26 b25 b24 : Bool,
      BitVec.ofBool b27 ++ BitVec.ofBool b26 ++ (BitVec.ofBool b25 ++ BitVec.ofBool b24) =
          0b1111#4 ↔
        BitVec.ofBool b27 ++ (BitVec.ofBool b26 ++ BitVec.ofBool b25) = 0b111#3 ∧
          b24 = true := by decide
  rw [BitFields.extractLsb'_four, BitFields.extractLsb'_three, BitFields.extractLsb'_two,
    BitFields.extractLsb'_two, BitFields.extractLsb'_two]
  exact bits _ _ _ _

theorem decode001DataImm_msr_iff {d : Disassembler}
    (conditional : d.decode001DataImm.instruction.isConditional = true) :
    d.decode001DataImm.instruction = .msrCpsrI ∨ d.decode001DataImm.instruction = .msrSpsrI ↔
      (d.field 21 4 = 0b1001#4 ∨ d.field 21 4 = 0b1011#4) ∧ d.bit 20 = false := by
  by_cases teq : d.field 21 4 = 0b1001#4
  · rw [decode001DataImm_teq teq] at conditional ⊢
    cases test : d.bit 20 <;> by_cases ones : d.field 12 4 = 0b1111#4
    all_goals simp_all [Inst.isConditional]
  by_cases cmn : d.field 21 4 = 0b1011#4
  · rw [decode001DataImm_cmn cmn] at conditional ⊢
    cases test : d.bit 20 <;> by_cases zeros : d.field 12 4 = 0b0000#4
    all_goals simp_all [Inst.isConditional]
  · have other : d.decode001DataImm.instruction ≠ .msrCpsrI ∧
        d.decode001DataImm.instruction ≠ .msrSpsrI := by
      simp only [decode001DataImm]
      split
      case h_9 | h_11 => split <;> constructor <;> rintro ⟨⟩
      case h_10 code => exact absurd (BitVec.eq_of_toNat_eq code) teq
      case h_12 code => exact absurd (BitVec.eq_of_toNat_eq code) cmn
      all_goals constructor <;> rintro ⟨⟩
    exact iff_of_false (fun msr => msr.elim other.1 other.2) fun both => both.1.elim teq cmn

theorem decode111_swi_iff (d : Disassembler) :
    d.decode111.instruction = .swi ↔ d.bit 24 = true := by
  have swi : (.swi : Inst).path = some .swi := rfl
  rw [decode111]
  cases d.bit 24 with
  | true => exact iff_of_true rfl rfl
  | false =>
      have coproc : d.decodeCoproc.instruction.writtenBy (· ≠ .swi) = true :=
        writtenBy_ite (writtenBy_ite rfl rfl) rfl
      exact iff_of_false (Inst.ne_of_writtenBy coproc swi rfl) Bool.false_ne_true

theorem omitsCondition_iff {d : Disassembler} {word addr : BitVec 32}
    (conditional : (d.decode word addr).instruction.isConditional = true) :
    (d.decode word addr).instruction ∈ [Inst.swi, .msrCpsrI, .msrSpsrI] ↔ OmitsCondition word := by
  have valid := valid_of_conditional conditional
  have group {path : DecodePath} {group : BitVec 3}
      (written : (d.decode word addr).instruction.path = some path)
      (inside : path.group = some group) : word.extractLsb' 25 3 = group :=
    (group_of_path written inside).2
  have decoded := decode_group d valid addr
  have last (e : Disassembler) : e.decodeGroup 0b111#3 = e.decode111 := rfl
  have first (e : Disassembler) : e.decodeGroup 0b001#3 = e.decode001DataImm := rfl
  have swiTest := decode111_swi_iff (started d (.ofCode (word.extractLsb' 28 4)) word addr)
  have msrTest := @decode001DataImm_msr_iff
    (started d (.ofCode (word.extractLsb' 28 4)) word addr)
  rw [List.mem_cons, List.mem_pair]
  constructor
  · rintro (swi | msr)
    · have place := @group .swi 0b111#3 (swi ▸ rfl) rfl
      rw [decoded, place, last] at swi
      exact .inl ((extractLsb'_fifteen_iff word).mpr ⟨place, swiTest.mp swi⟩)
    · have place := @group .dataImm 0b001#3 (by obtain msr | msr := msr <;> rw [msr] <;> rfl) rfl
      rw [decoded, place, first] at msr conditional
      exact .inr ⟨place, (msrTest conditional).mp msr⟩
  · rintro (swi | ⟨place, msr⟩)
    · obtain ⟨place, coproc⟩ := (extractLsb'_fifteen_iff word).mp swi
      rw [decoded, place, last]
      exact .inl (swiTest.mpr coproc)
    · rw [decoded, place, first] at conditional ⊢
      exact .inr ((msrTest conditional).mpr msr)

/-- Of the instructions with a condition, these do not print it, and one is not
printed at all. -/
theorem hasCondition_formats :
    formats.val.zipIdx.all (fun row => hasCondition row.1 || !(Inst.ofNat row.2).isConditional ||
      (Inst.ofNat row.2 ∈ [Inst.umlal, .swi, .msrCpsrI, .msrSpsrI])) = true := by
  decide +kernel

theorem hasCondition_format {kind : Inst} (conditional : kind.isConditional = true)
    (shown : kind ∉ [Inst.umlal, .swi, .msrCpsrI, .msrSpsrI]) :
    hasCondition (format kind) = true := by
  have listed := List.all_eq_true.mp hasCondition_formats _ (mem_formats kind)
  rw [Inst.ofNat_ctorIdx, conditional, Bool.not_true, Bool.or_false, decide_eq_false shown,
    Bool.or_false] at listed
  exact listed

theorem not_hasCondition_format {kind : Inst} (omits : kind ∈ [Inst.swi, .msrCpsrI, .msrSpsrI]) :
    hasCondition (format kind) = false := by
  rw [List.mem_cons, List.mem_pair] at omits
  obtain rfl | rfl | rfl := omits <;> decide +kernel

/-! ### Operations -/

/-- The patterns of the formats that are whole, each with its instruction. -/
def patterns : List (Nat × List (Item Char)) :=
  (formats.val.zipIdx.filter fun row => row.2 ≠ Inst.umlal.ctorIdx).map fun row =>
    (row.2, pattern (choices Condition.strings) row.1)

theorem separate_patterns : separateByInitial patterns = true := by decide +kernel

/-- No two instructions print alike. -/
theorem instruction_eq_of_text {ctx other : Context} {text : List Char}
    (regular : ctx.Regular) (regular' : other.Regular) (prints : ctx.getStr = .ok text)
    (prints' : other.getStr = .ok text) : ctx.instruction = other.instruction := by
  have row {kind : Inst} (whole : kind ≠ .umlal) :
      (kind.ctorIdx, pattern (choices Condition.strings) (format kind)) ∈ patterns :=
    List.mem_map_of_mem
      (List.mem_filter.mpr ⟨mem_formats kind, decide_eq_true (mt ctorIdx_inj.mp whole)⟩)
  have same := eq_of_separateByInitial separate_patterns (row (ne_umlal_of_getStr prints))
    (row (ne_umlal_of_getStr prints')) (matches_getStr regular prints (condition_mem _))
    (matches_getStr regular' prints' (condition_mem _))
  exact ctorIdx_inj.mp (congrArg Prod.fst same)

/-! ### Texts under other conditions -/

theorem foldlM_emit_congr {one other : Context} {ds : List Directive}
    (each : ∀ d ∈ ds, ∀ text, emit one text d = emit other text d) (text : List Char) :
    ds.foldlM (emit one) text = ds.foldlM (emit other) text := by
  induction ds generalizing text with
  | nil => rfl
  | cons d ds ih =>
      rw [List.forall_mem_cons] at each
      rw [List.foldlM_cons, List.foldlM_cons, each.1]
      exact congrArg _ (funext (ih each.2))

/-- A condition shows in its name only, and only in formats that have it. -/
theorem getStr_condition {ctx : Context} {cond : Condition}
    (alike : hasCondition (format ctx.instruction) = true →
      Condition.strings[cond.ctorIdx]? = Condition.strings[ctx.cond.ctorIdx]?)
    (whole : ctx.instruction ≠ .umlal) : { ctx with cond := cond }.getStr = ctx.getStr := by
  obtain ⟨ds, parsed, -⟩ := directives_format whole
  have each : ∀ d ∈ ds, ∀ text, emit { ctx with cond := cond } text d = emit ctx text d := by
    intro d inside text
    cases d with
    | char | register | coprocessor => rfl
    | letter c =>
        by_cases condition : c = 'c'
        · subst condition
          have shown : hasCondition (format ctx.instruction) = true := by
            rw [hasCondition, parsed, Option.getD_some]
            exact List.contains_iff_mem.mpr inside
          have printed (ctx : Context) : emit ctx text (.letter 'c') =
              catEntry Condition.strings text ctx.cond.ctorIdx := rfl
          rw [printed, printed, catEntry, catEntry, alike shown]
        · simp only [emit, directive, if_neg condition]
  rw [getStr_eq, getStr_eq, print_of_directives parsed, print_of_directives parsed,
    foldlM_emit_congr each]

/-- No other instruction, and not the same one under another condition, is printed
as the context is. -/
def Tells (ctx : Context) (addr : BitVec 32) : Prop :=
  ∀ (prior : Disassembler) (word : BitVec 32),
    (prior.decode word addr).instruction.isConditional = true →
    ∀ text, ctx.getStr = .ok text → (prior.decode word addr).getStr = .ok text →
      ctx.instruction = (prior.decode word addr).instruction ∧
        ctx.cond = (prior.decode word addr).cond

theorem ofCode_injective : ∀ code code' : BitVec 4,
    Condition.ofCode code = Condition.ofCode code' → code = code' := by decide

/-- Under another condition with the same text, the word of an instruction shows
that its text does not tell it. -/
theorem not_tells_of_alike {d : Disassembler} {word addr : BitVec 32} {code : BitVec 4}
    (conditional : (d.decode word addr).instruction.isConditional = true)
    (whole : (d.decode word addr).instruction ≠ .umlal) (valid : code ≠ 0b1111#4)
    (other : code ≠ word.extractLsb' 28 4)
    (alike : hasCondition (format (d.decode word addr).instruction) = true →
      Condition.strings[(Condition.ofCode code).ctorIdx]? =
        Condition.strings[(d.decode word addr).cond.ctorIdx]?) :
    ¬Tells (d.decode word addr).toContext addr := by
  intro tells
  have decoded := decode_conditioned conditional valid
  obtain ⟨text, prints, -⟩ := (printable_iff (d.decode word addr).toContext).mpr whole
  have again : ((d.decode word addr).withCondition code).getStr = .ok text :=
    (getStr_condition alike whole).trans prints
  have alone := (tells d (conditioned code word) (decoded ▸ conditional) text prints
    (decoded ▸ again)).2
  rw [decoded, decode_cond conditional] at alone
  exact other (ofCode_injective _ _ alone).symm

/-- Whatever two words print alike, at whatever addresses and after whatever other
words, is the same operation, and under the same condition as far as it shows. -/
theorem decoded_of_text (d d' : Disassembler) (word word' addr addr' : BitVec 32)
    (text : List Char) (prints : (d.decode word addr).getStr = .ok text)
    (prints' : (d'.decode word' addr').getStr = .ok text) :
    (d.decode word addr).instruction = (d'.decode word' addr').instruction ∧
      ((d.decode word addr).instruction.isConditional = true → ¬OmitsCondition word →
        (d.decode word addr).cond = (d'.decode word' addr').cond ∨
          ((d.decode word addr).cond = .vs ∨ (d.decode word addr).cond = .vc) ∧
            ((d'.decode word' addr').cond = .vs ∨ (d'.decode word' addr').cond = .vc)) := by
  have regular := regular_decode d word addr
  have regular' := regular_decode d' word' addr'
  have kind := instruction_eq_of_text regular regular' prints prints'
  refine ⟨kind, fun conditional shows => ?_⟩
  rw [← omitsCondition_iff conditional] at shows
  have shown := hasCondition_format conditional
    (List.not_mem_cons_of_ne_of_not_mem (ne_umlal_of_getStr prints) shows)
  exact condition_eq_of_entry (entry_eq_of_text kind regular regular' prints prints' shown)

/-- `mov r0, r1` at two addresses. -/
theorem decoded_of_text_movAlways : ∃ text, (blank.decode 0xE1A00001 0).getStr = .ok text ∧
    (blank.decode 0xE1A00001 0).instruction = (blank.decode 0xE1A00001 4).instruction ∧
      ((blank.decode 0xE1A00001 0).instruction.isConditional = true →
        ¬OmitsCondition 0xE1A00001 →
        (blank.decode 0xE1A00001 0).cond = (blank.decode 0xE1A00001 4).cond ∨
          ((blank.decode 0xE1A00001 0).cond = .vs ∨ (blank.decode 0xE1A00001 0).cond = .vc) ∧
            ((blank.decode 0xE1A00001 4).cond = .vs ∨
              (blank.decode 0xE1A00001 4).cond = .vc)) := by
  have whole : (blank.decode 0xE1A00001 0).instruction ≠ .umlal := by decide
  obtain ⟨text, prints, -⟩ := (printable_iff (blank.decode 0xE1A00001 0).toContext).mpr whole
  have again : (blank.decode 0xE1A00001 4).toContext = (blank.decode 0xE1A00001 0).toContext := rfl
  exact ⟨text, prints,
    decoded_of_text blank blank 0xE1A00001 0xE1A00001 0 4 text prints (again ▸ prints)⟩

/-- The text of an instruction tells its operation and its condition, unless it omits
the condition, or prints it by the name that two of them have. -/
theorem tells_decoded_iff (d : Disassembler) {word addr : BitVec 32}
    (conditional : (d.decode word addr).instruction.isConditional = true) :
    Tells (d.decode word addr).toContext addr ↔
      IsUmlal word ∨ ¬OmitsCondition word ∧ word.extractLsb' 28 4 ≠ 0b0110#4 ∧
        word.extractLsb' 28 4 ≠ 0b0111#4 := by
  have cond := decode_cond conditional
  rw [← decode_umlal_iff d word addr, ← omitsCondition_iff conditional]
  by_cases cut : (d.decode word addr).instruction = .umlal
  · refine iff_of_true (fun _ _ _ text prints _ => ?_) (.inl cut)
    exact absurd cut (ne_umlal_of_getStr prints)
  rw [or_iff_right cut]
  constructor
  · intro tells
    refine ⟨fun omits => ?_, fun vs => ?_, fun vc => ?_⟩
    · have codes : ∀ code : BitVec 4, ∃ other, other ≠ 0b1111#4 ∧ other ≠ code := by decide
      obtain ⟨code, valid, other⟩ := codes (word.extractLsb' 28 4)
      refine not_tells_of_alike conditional cut valid other (fun shown => ?_) tells
      rw [not_hasCondition_format omits] at shown
      cases shown
    · exact @not_tells_of_alike d word addr 0b0111#4 conditional cut (by decide)
        (vs ▸ by decide) (fun _ => by rw [cond, vs]; rfl) tells
    · exact @not_tells_of_alike d word addr 0b0110#4 conditional cut (by decide)
        (vc ▸ by decide) (fun _ => by rw [cond, vc]; rfl) tells
  · rintro ⟨shows, notVs, notVc⟩ prior other conditional' text prints prints'
    have regular := regular_decode d word addr
    have regular' := regular_decode prior other addr
    have kind := instruction_eq_of_text regular regular' prints prints'
    refine ⟨kind, ?_⟩
    have shown := hasCondition_format conditional
      (List.not_mem_cons_of_ne_of_not_mem cut shows)
    obtain same | ⟨twice, -⟩ := condition_eq_of_entry
      (entry_eq_of_text kind regular regular' prints prints' shown)
    · exact same
    · have codes : ∀ code : BitVec 4, Condition.ofCode code = .vs ∨ Condition.ofCode code = .vc →
          code = 0b0110#4 ∨ code = 0b0111#4 := by decide
      exact ((codes _ (cond ▸ twice)).elim notVs notVc).elim

/-- The text of `mov r0, r1` is its own. -/
theorem tells_movAlways : Tells (blank.decode 0xE1A00001 0).toContext 0 :=
  (tells_decoded_iff blank (by decide)).mpr (.inr ⟨by decide, by decide, by decide⟩)

/-- `movvs r0, r1` is printed as `movvc r0, r1` is. -/
theorem not_tells_movOverflow :
    ¬∀ (d : Disassembler) (word addr : BitVec 32),
      (d.decode word addr).instruction.isConditional = true →
        Tells (d.decode word addr).toContext addr := by
  intro tells
  have conditional : (blank.decode 0x61A00001 0).instruction.isConditional = true := by decide
  exact @not_tells_of_alike blank 0x61A00001 0 0b0111#4 conditional (by decide) (by decide)
    (by decide) (fun _ => by decide) (tells blank 0x61A00001 0 conditional)

end Disassembler

end Ndse
