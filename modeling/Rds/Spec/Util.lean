import Rds.Spec.MetadataPath

/-!
# The release of the system (`util.c`)

`ssds_resolve_dependency_file_path`: the number before the last dot of the kernel's release, and
the path that is made with it. A pointer into a string is the number of the bytes before it, so
the place before the string is `-1`.
-/

namespace Rds

/-- A string in an array of `struct utsname`, which has 65 bytes. -/
structure UtsString where
  bytes : List Byte
  zero_notMem : 0 ∉ bytes
  length_le : bytes.length ≤ 64

/-- `struct utsname` -/
structure Utsname where
  release : UtsString
  machine : UtsString

def dotByte : Byte := 46

/-- `strrchr` -/
def strrchr (c : Byte) : List Byte → Option ℕ
  | [] => none
  | b :: s =>
    match strrchr c s with
    | some i => some (i + 1)
    | none => if b = c then some 0 else none

/-- `isdigit` -/
def isDigit (b : Byte) : Bool := 48 ≤ b ∧ b ≤ 57

/-- `while (i > machine->release && isdigit(i[0])) i--` -/
def scanDigits (release : List Byte) : ℕ → ℕ
  | 0 => 0
  | i + 1 => if release[i + 1]?.any isDigit then scanDigits release i else i + 1

/-- Where the scan from `end - 1` stops. -/
def scanStop (release : List Byte) : ℕ → ℤ
  | 0 => -1
  | stop + 1 => scanDigits release stop

/-- The block for the release: `length` bytes, the text behind `i`, and a terminator. -/
def copyRelease (release : List Byte) (i length : ℤ) (junk : Byte) : Except Halt (List Byte) := do
  let block ← mallocBlock junk length
  let i := i + 1
  let length := length - 1
  let block ← strncpy block (release.drop i.toNat) length.toNat
  memcpy (some block) length.toNat [0]

/-- Reading a string in a block. Without a `NUL` it is read behind the block. -/
def blockString (block : List Byte) : Except Halt (List Byte) :=
  if 0 ∈ block then .ok (cstr block) else .error .crash

/-- `snprintf(ret_val, 100, …)`: what is written before the `NUL`. -/
def systemSolvPath (machine release : List Byte) : List Byte :=
  (cBytes "/var/cache/dnf/" ++ machine ++ cBytes "/" ++ release ++ cBytes "/@System.solv").take 99

/-- What is handed back: the path, the architecture, and the block of the release. -/
structure ResolvedPath where
  path : List Byte
  arch : List Byte
  release : List Byte
  deriving DecidableEq, Repr

/-- `ssds_resolve_dependency_file_path`, by the answers it gets: whether there is memory for the
`utsname`, what `uname` says, and the bytes in the block for the release if there is one. With
nothing to hand back, the release is `NULL` and the rest is as it was. -/
def ssdsResolveDependencyFilePath (hasMemory : Bool) (uname : Option Utsname) (junk : Option Byte) :
    Except Halt (Option ResolvedPath) :=
  if hasMemory = false then .ok none
  else
    match uname with
    | none => .ok none
    | some machine =>
      match strrchr dotByte machine.release.bytes with
      | none => .ok none
      | some stop =>
        match junk with
        | none => .ok none
        | some junk => do
          let i := scanStop machine.release.bytes stop
          let release ← copyRelease machine.release.bytes i (toInt (stop - i)) junk
          let number ← blockString release
          return some {
            path := systemSolvPath machine.machine.bytes number
            arch := machine.machine.bytes
            release := release }

end Rds
