import Rds.Spec.NetworkUtil
import Rds.Spec.RepoMetadata

/-!
# The buffer of a metadata path (`repo_metadata.c`)

`full_path_to_metadata` byte by byte: the block it allocates, and the two copies into it.
-/

namespace Rds

/-- The bytes of a string, without the `NUL` behind them. -/
def cBytes (s : String) : List Byte := s.toByteArray.data.toList

/-- `strncpy(dst, src, n)` writes `n` bytes: the front of the string, and zeros up to `n`. -/
def strncpy (dst src : List Byte) (n : ℕ) : Except Halt (List Byte) :=
  memcpy (some dst) 0 (src.take n ++ List.replicate (n - src.length) 0)

/-- `strncat(dst, src, n)` writes from the `NUL` of `dst` on: the front of the string, and a `NUL`.
Without one it reads behind the block. -/
def strncat (dst src : List Byte) (n : ℕ) : Except Halt (List Byte) :=
  if 0 ∈ dst then memcpy (some dst) (cstr dst).length (src.take n ++ [0]) else .error .crash

/-- A block from `ssds_malloc(size)`, with bytes nobody set. A negative `int` asks for more than
there is. -/
def mallocBlock (junk : Byte) (size : ℤ) : Except Halt (List Byte) :=
  if 0 ≤ size then .ok (List.replicate size.toNat junk) else .error .crash

/-- `dest` -/
def metadataDest : List Byte := cBytes "/tmp/ssds/"

/-- `full_path_to_metadata` on the bytes of a name: what is in its block. -/
def fullPathToMetadataBlock (junk : Byte) (repoName : List Byte) : Except Halt (List Byte) := do
  let length := toInt (metadataDest.length + repoName.length)
  let fullPath ← mallocBlock junk (toInt (length + 1))
  let fullPath ← strncpy fullPath metadataDest (metadataDest.length + 1)
  strncat fullPath repoName repoName.length

end Rds
