import Mathlib.Data.BitVec

/-!
# Streams of type 10h

A stream is a way to write down a byte string: a header, and then literals and
references to what is already there, their kinds told in advance by the bits of
flag bytes.
-/

namespace Ndse.Lz77

/-- A byte, or a number of bytes to repeat from `displacement + 1` back. -/
inductive Token
  | literal (value : BitVec 8)
  | copy (length displacement : Nat)
deriving DecidableEq, Repr

namespace Token

/-- The flag of a token. -/
def isCopy : Token → Bool
  | literal _ => false
  | copy .. => true

/-- What follows the flag: the byte, or four bits of length and twelve of
displacement. -/
def bytes : Token → List (BitVec 8)
  | literal value => [value]
  | copy length displacement =>
      let displacement := BitVec.ofNat 12 displacement
      [BitVec.ofNat 4 (length - 3) ++ displacement.extractLsb' 8 4, displacement.extractLsb' 0 8]

end Token

/-- Repeat bytes one by one: a reference may reach into its own result. -/
def repeatBytes (displacement : Nat) : (length : Nat) → List (BitVec 8) → List (BitVec 8)
  | 0, history => history
  | length + 1, history =>
      repeatBytes displacement length (history ++ [history.reverse.getD displacement 0])

/-- The tokens, after `history`, stand for all of `data`.  A reference has three
to eighteen bytes and stays within the last 4096 and within what there is. -/
inductive Expands : (history : List (BitVec 8)) → List Token → (data : List (BitVec 8)) → Prop
  | nil (history : List (BitVec 8)) : Expands history [] history
  | literal {history : List (BitVec 8)} {tokens : List Token} {data : List (BitVec 8)}
      (value : BitVec 8) (rest : Expands (history ++ [value]) tokens data) :
      Expands history (.literal value :: tokens) data
  | copy {history : List (BitVec 8)} {tokens : List Token} {data : List (BitVec 8)}
      {length displacement : Nat} (shortest : 3 ≤ length) (longest : length ≤ 18)
      (window : displacement + 1 ≤ 4096) (produced : displacement + 1 ≤ history.length)
      (rest : Expands (repeatBytes displacement length history) tokens data) :
      Expands history (.copy length displacement :: tokens) data

/-- The flags of a byte, most significant first. -/
def flagBits (flags : BitVec 8) : List Bool :=
  [flags.getLsbD 7, flags.getLsbD 6, flags.getLsbD 5, flags.getLsbD 4,
    flags.getLsbD 3, flags.getLsbD 2, flags.getLsbD 1, flags.getLsbD 0]

/-- The bytes of some tokens when `bits` are still to come from the last flag
byte: every eight tokens have a new one in front. -/
inductive Layout : (bits : List Bool) → List Token → (stream : List (BitVec 8)) → Prop
  | nil (bits : List Bool) : Layout bits [] []
  | token {bits : List Bool} {tokens : List Token} {stream : List (BitVec 8)}
      (token : Token) (rest : Layout bits tokens stream) :
      Layout (token.isCopy :: bits) (token :: tokens) (token.bytes ++ stream)
  | flags {bits : List Bool} {tokens : List Token} {stream : List (BitVec 8)}
      {flags : BitVec 8} {token : Token} (first : flagBits flags = token.isCopy :: bits)
      (rest : Layout bits tokens stream) :
      Layout [] (token :: tokens) (flags :: (token.bytes ++ stream))

/-- The type and the size of the data. -/
def header (size : Nat) : List (BitVec 8) :=
  let size := BitVec.ofNat 24 size
  [0x10, size.extractLsb' 0 8, size.extractLsb' 8 8, size.extractLsb' 16 8]

/-- `stream` is an encoding of `data`. -/
def Encodes (stream data : List (BitVec 8)) : Prop :=
  data.length < 2 ^ 24 ∧ ∃ tokens body,
    stream = header data.length ++ body ∧ Layout [] tokens body ∧ Expands [] tokens data

end Ndse.Lz77
