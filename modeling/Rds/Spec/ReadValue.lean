import Rds.Lib.Block
import Rds.Spec.CfgParsing

/-!
# The buffer of a value (`cfg_parsing.c`)

`file_read_value` byte by byte: the block it allocates and lets grow, and every store into it.
-/

namespace Rds

open Memory

/-- What is not in a block cannot be accessed. -/
def inBlock {α : Type} : Option α → Except Halt α
  | some a => .ok a
  | none => .error .crash

/-- `block[i] = b` -/
def storeByte (block : Block Byte) (i : ℤ) (b : Byte) : Except Halt (Block Byte) :=
  if 0 ≤ i then inBlock (block.store i.toNat b) else .error .crash

/-- `ssds_realloc(block, size)`, with memory enough. A negative `int` asks for more than there
is. -/
def reallocBlock (block : Block Byte) (size : ℤ) : Except Halt (Block Byte) :=
  if 0 ≤ size then .ok (block.resize size.toNat) else .error .crash

/-- `if (value_lenght == allocated_lenght) …`: five bytes more, and one for the terminator. -/
def growValue (value : Block Byte) (valueLength allocatedLength : ℤ) :
    Except Halt (Block Byte × ℤ) :=
  if valueLength = allocatedLength then do
    let value ← reallocBlock value (toInt (toInt (allocatedLength + 5) + 1))
    return (value, toInt (allocatedLength + 5))
  else return (value, allocatedLength)

/-- The loop of `file_read_value`: the block, `value_lenght`, and the rest of the file. -/
def fileReadValueLoop : List Byte → Block Byte → ℤ → ℤ → Except Halt (Block Byte × ℤ × List Byte)
  | [], value, valueLength, _ => .ok (value, valueLength, [])
  | b :: file, value, valueLength, allocatedLength =>
    if toChar b = none ∨ b = newline then .ok (value, valueLength, file)
    else do
      let (value, allocatedLength) ← growValue value valueLength allocatedLength
      let value ← storeByte value valueLength b
      fileReadValueLoop file value (toInt (valueLength + 1)) allocatedLength

/-- `file_read_value`, with the block it returns. -/
def fileReadValueBlock (file : List Byte) (maxLength : ℕ) : Except Halt (Block Byte × List Byte) := do
  let value ← reallocBlock [] 6
  let (value, valueLength, file) ← fileReadValueLoop file value 0 5
  let value ← storeByte value valueLength 0
  if maxLength ≤ valueLength ∧ maxLength ≠ 0 then
    let value ← storeByte value (maxLength - 1) 0
    let value ← reallocBlock value maxLength
    return (value, file)
  else return (value, file)

end Rds
