import Rds.Spec.CfgParsing

/-!
# Missing repositories (`detect_missing_repos.c`)

Names are C strings, read up to their first NUL. A store into an array is checked against
what is allocated for it at the time. The names of the directory's entries are not copied: they
are read where `readdir` has put them.
-/

namespace Rds

/-- `REPO_NAME_MIN_LENGTH` -/
def repoNameMinLength : ℕ := 4

/-- `strlen` -/
def strlen (s : List Byte) : ℕ := (cstr s).length

/-- `strncmp(a, b, n) == 0` -/
def strncmpEq (a b : List Byte) (n : ℕ) : Bool := (cstr a).take n = (cstr b).take n

/-- `SEEK_CUR` of `stdio.h`. -/
def seekCur : ℤ := 1

/-- Where `fseek` counts from, on a file of `size` bytes read up to `pos`: `SEEK_SET`, `SEEK_CUR`
and `SEEK_END` are 0, 1 and 2, and nothing else is a `whence`. -/
def seekStart (size pos : ℕ) (whence : ℤ) : Option ℤ :=
  if whence = 0 then some 0
  else if whence = seekCur then some pos
  else if whence = 2 then some size
  else none

/-- `fseek`: the position after it. It stays where it was when the call fails. -/
def fseek (size pos : ℕ) (offset whence : ℤ) : ℕ :=
  match seekStart size pos whence with
  | none => pos
  | some start => if 0 ≤ start + offset then (start + offset).toNat else pos

/-- The capacity before a store behind `count` names: five more if it is used up. -/
def growNames (alloc count : ℕ) : ℕ := if alloc ≤ count then alloc + 5 else alloc

/-- The loop that loads the required names, within `n` turns: `pos` is the position in the file,
`reqRepos` the names counted so far. A name that is too short is overwritten by the next one. The
step back after the peek has its two numbers exchanged. -/
def loadLoop (file : List Byte) :
    ℕ → ℕ → List (List Byte) → ℕ → Except Halt (List (List Byte))
  | 0, _, _, _ => .error .fuel
  | n + 1, pos, reqRepos, alloc => do
    let alloc := growNames alloc reqRepos.length
    let (name, rest) ← fileReadValue (file.drop pos) 0
    if reqRepos.length < alloc then
      let reqRepos := if repoNameMinLength ≤ strlen name then reqRepos ++ [name] else reqRepos
      match fgetc rest with
      | (none, _) => return reqRepos
      | (some _, rest) =>
        loadLoop file n (fseek file.length (file.length - rest.length) seekCur (-1)) reqRepos alloc
    else .error .crash

/-- The names of the required repositories. Every turn but the last reads a character. -/
def loadReqRepos (file : List Byte) : Except Halt (List (List Byte)) :=
  loadLoop file (file.length + 1) 0 [] 10

/-- An entry of a directory: its name when `readdir` returns it, and what stands in its place once
`readdir` has returned `NULL`. A later call may have overwritten it. -/
structure Dirent where
  name : List Byte
  later : List Byte
  deriving DecidableEq, Repr

/-- The loop over the entries of the directory. What is stored is where their names stand. -/
def readDirLoop : List Dirent → List Dirent → ℕ → Except Halt (List Dirent)
  | [], localRepos, _ => .ok localRepos
  | entry :: dirs, localRepos, alloc =>
    let alloc := growNames alloc localRepos.length
    if localRepos.length < alloc then readDirLoop dirs (localRepos ++ [entry]) alloc
    else .error .crash

/-- The inner loop of the test, behind the last `readdir`: `found` after it. -/
def foundLoop (req : List Byte) : List Dirent → Bool → Bool
  | [], found => found
  | entry :: localRepos, found =>
    if strlen req = strlen entry.later ∧ strncmpEq req entry.later (strlen req) then true
    else foundLoop req localRepos found

/-- The outer loop: `found` is set before it, and never reset. -/
def missingLoop (localRepos : List Dirent) : List (List Byte) → Bool → ℕ → ℕ
  | [], _, missingRepos => missingRepos
  | req :: reqRepos, found, missingRepos =>
    let found := foundLoop req localRepos found
    missingLoop localRepos reqRepos found (if found then missingRepos else missingRepos + 1)

/-- `check_for_missing_repos`, on the list `fopen` finds and the directory `opendir` finds. -/
def checkForMissingRepos (list : Option (List Byte)) (dir : Option (List Dirent)) :
    Except Halt ℤ :=
  match list with
  | none => .ok (-1)
  | some file => do
    let reqRepos ← loadReqRepos file
    match dir with
    | none => .error .crash -- `readdir` of `NULL`
    | some dirs =>
      let localRepos ← readDirLoop dirs [] 10
      return missingLoop localRepos reqRepos false 0

end Rds
