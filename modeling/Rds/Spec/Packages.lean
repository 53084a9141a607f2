import Rds.Spec.Globvar

/-!
# The RPM transaction set (`packages.c`)

What rpmlib answers is taken by the number of the call: each package put forward takes
the next answer.
-/

namespace Rds

/-- How a package file enters the transaction set. -/
inductive SsdsAction
  | ssdsInstall
  | ssdsUpdate
  deriving DecidableEq, Repr

/-- How opening, reading and adding one package file goes: 0 is success for the last two. -/
structure PkgOutcome where
  opens : Bool
  read : ℤ
  add : ℤ
  deriving DecidableEq, Repr

/-- One installed package that matches a name: its offset in the database, and what adding
it for erasure returns. -/
structure EraseMatch where
  recOffset : ℤ
  add : ℤ
  deriving DecidableEq, Repr

/-- rpmlib: the outcome for the `k`-th package put forward and the value of `rpmtsRun`. -/
structure Rpm where
  file : ℕ → PkgOutcome
  found : ℕ → List EraseMatch
  run : ℤ

/-- A member of the transaction set: the answer that put it there, and what it is. -/
inductive RpmElement
  | install (k : ℕ) (path : Option String) (action : SsdsAction)
  | erase (k : ℕ) (name : Option String) (recOffset : ℤ)
  deriving DecidableEq, Repr

/-- `rpmts`, with the number of packages put forward so far. -/
structure Rpmts where
  elements : List RpmElement
  calls : ℕ
  deriving DecidableEq, Repr

/-- `rpmtsCreate` -/
def rpmtsCreate : Rpmts := { elements := [], calls := 0 }

/-- `ssds_add_to_transaction` -/
def ssdsAddToTransaction (rpm : Rpm) (ts : Rpmts) (pkg : Option String) (action : SsdsAction) :
    ℤ × Rpmts :=
  let o := rpm.file ts.calls
  let ts' := { ts with calls := ts.calls + 1 }
  if !o.opens then (1, ts')
  else if o.read ≠ 0 then (o.read, ts')
  else if o.add ≠ 0 then (o.add, ts')
  else (o.add, { ts' with elements := ts.elements ++ [.install ts.calls pkg action] })

/-- One turn of the loop of `ssds_add_to_erase`: `rc` is left alone by a match without an
offset. -/
def eraseMatch (k : ℕ) (pkg : Option String) (st : ℤ × List RpmElement) (m : EraseMatch) :
    ℤ × List RpmElement :=
  if m.recOffset ≠ 0 then
    (m.add, if m.add ≠ 0 then st.2 else st.2 ++ [.erase k pkg m.recOffset])
  else st

/-- `ssds_add_to_erase` -/
def ssdsAddToErase (rpm : Rpm) (ts : Rpmts) (pkg : Option String) : ℤ × Rpmts :=
  let r := (rpm.found ts.calls).foldl (eraseMatch ts.calls pkg) (Errors.ok.num, ts.elements)
  (r.1, { elements := r.2, calls := ts.calls + 1 })

end Rds
