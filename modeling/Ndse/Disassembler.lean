import Ndse.Processor

/-!
# Decoded instructions

What the disassembler hands to the compiler for one instruction word.
-/

namespace Ndse

/-- `INST::CODE`. -/
inductive Inst
  | ud | debug | unknown
  | strI | ldrI | strIW | ldrIW | strbI | ldrbI | strbIW | ldrbIW
  | strIP | ldrIP | strIPW | ldrIPW | strbIP | ldrbIP | strbIPW | ldrbIPW
  | strR | ldrR | strRW | ldrRW | strbR | ldrbR | strbRW | ldrbRW
  | strRP | ldrRP | strRPW | ldrRPW | strbRP | ldrbRP | strbRPW | ldrbRPW
  | andI | eorI | subI | rsbI | addI | adcI | sbcI | rscI
  | tstI | teqI | cmpI | cmnI | orrI | movI | bicI | mvnI
  | msrCpsrI | msrSpsrI
  | andR | eorR | subR | rsbR | addR | adcR | sbcR | rscR
  | tstR | teqR | cmpR | cmnR | orrR | movR | bicR | mvnR
  | andRR | eorRR | subRR | rsbRR | addRR | adcRR | sbcRR | rscRR
  | tstRR | teqRR | cmpRR | cmnRR | orrRR | movRR | bicRR | mvnRR
  | msrCpsrR | msrSpsrR | mrsCpsr | mrsSpsr
  | clz | bkpt | swi
  | bx | blx | b | bl
  | mrc | mcr
  | stm | ldm | stmW | ldmW
  | strxI | ldrxI | strxIW | ldrxIW | strxIP | ldrxIP | strxIPW | ldrxIPW
  | strxR | ldrxR | strxRW | ldrxRW | strxRP | ldrxRP | strxRPW | ldrxRPW
  | bpre
  | mulR | mlaR | umull | umlal | smull | smlal
  | swp | swpb
  | blxI
  | ldrdR | ldrdRW | ldrdRI | ldrdRIW | ldrdRP | ldrdRPW | ldrdRIP | ldrdRIPW
  | pldI | pldR
deriving DecidableEq, Repr

/-- `CONDITION::CODE`. -/
inductive Condition
  | eq | ne | cs | cc | mi | pl | vs | vc | hi | ls | ge | lt | gt | le | al | nv
deriving DecidableEq, Repr

/-- `SHIFT::CODE`. -/
inductive Shift
  | lsl | lsr | asr | ror | rrx
deriving DecidableEq, Repr

/-- `EXTEND_MODE::CODE`. -/
inductive ExtendMode
  | invalid | h | sb | sh
deriving DecidableEq, Repr

/-- `ADDRESSING_MODE::CODE`. -/
inductive AddressingMode
  | da | ia | db | ib
deriving DecidableEq, Repr

/-- Coprocessor operations are literals below 8. -/
instance neZero_operations : NeZero 8 := ⟨by decide⟩

/-- `disassembler::context`, with the two bits of `flags` as fields of their
own. -/
structure Context where
  instruction : Inst
  cond : Condition
  shift : Shift
  addressingMode : AddressingMode
  extendMode : ExtendMode
  sBit : Bool
  uBit : Bool
  imm : BitVec 32
  rd : Fin 16
  rn : Fin 16
  rm : Fin 16
  rs : Fin 16
  cpNum : Fin 16
  cpOp1 : Fin 8
  cpOp2 : Fin 8
deriving DecidableEq, Repr

/-- The shift amounts `decode_shift` produces. -/
def Shift.Decoded (amount : Nat) : Shift → Prop
  | .lsl => amount < 32
  | .lsr => 0 < amount ∧ amount ≤ 32
  | .asr => 0 < amount ∧ amount ≤ 32
  | .ror => 0 < amount ∧ amount < 32
  | .rrx => amount = 0

instance (amount : Nat) : DecidablePred (Shift.Decoded amount)
  | .lsl => inferInstanceAs (Decidable (_ < _))
  | .lsr => inferInstanceAs (Decidable (_ ∧ _))
  | .asr => inferInstanceAs (Decidable (_ ∧ _))
  | .ror => inferInstanceAs (Decidable (_ ∧ _))
  | .rrx => inferInstanceAs (Decidable (_ = _))

end Ndse
