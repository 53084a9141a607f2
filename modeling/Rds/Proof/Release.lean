import Rds.Proof.MetadataDirs
import Rds.Spec.Util
import Mathlib.Data.List.DropRight

/-!
# The release number

The scan goes back from the last dot as long as it finds digits, and stops at the first byte of the
release whether it is a digit or not. What is copied starts behind the place where it stopped.

* `scanDigits_eq`: where the scan stops.
* `resolve_eq`: what is handed back, and that it is written inside its block.
* `release_number_iff`: **when that is the number before the dot.**
-/

namespace Rds

variable {release u v : List Byte} {machine : Utsname} {i k : ℕ} {junk : Byte}

/-! ## Scanning -/

theorem strrchr_notMem {c : Byte} {s : List Byte} (h : c ∉ s) : strrchr c s = none := by
  induction s with
  | nil => rfl
  | cons b s ih =>
    rw [List.mem_cons, not_or] at h
    rw [strrchr, ih h.2]
    exact if_neg (Ne.symm h.1)

/-- `strrchr` finds the last one. -/
theorem strrchr_append {c : Byte} (h : c ∉ v) (u : List Byte) :
    strrchr c (u ++ c :: v) = some u.length := by
  induction u with
  | nil =>
    rw [List.nil_append, strrchr, strrchr_notMem h]
    exact if_pos rfl
  | cons b u ih =>
    rw [List.cons_append, strrchr, ih]
    rfl

/-- **Where the scan stops**: everything behind that place is a digit, and it is the first byte or
no digit. -/
theorem scanDigits_eq (hle : k ≤ i)
    (hdigits : ∀ j, k < j → j ≤ i → release[j]?.any isDigit = true)
    (hstop : k = 0 ∨ release[k]?.any isDigit = false) : scanDigits release i = k := by
  induction i with
  | zero => exact (Nat.le_zero.1 hle).symm
  | succ i ih =>
    unfold scanDigits
    by_cases hk : k = i + 1
    · have hno : ¬ release[i + 1]?.any isDigit = true := by
        rw [← hk, hstop.resolve_left (by omega)]
        exact Bool.false_ne_true
      rw [if_neg hno, hk]
    · have hlt : k < i + 1 := by omega
      rw [if_pos (hdigits (i + 1) hlt le_rfl)]
      refine ih (by omega) ?_
      intro j hj hji
      exact hdigits j hj (by omega)

/-- The number that ends a text. -/
def numberAtEnd (u : List Byte) : List Byte := u.rtakeWhile isDigit

/-- What is before it. -/
def beforeNumber (u : List Byte) : List Byte := u.rdropWhile isDigit

theorem beforeNumber_append (u : List Byte) : beforeNumber u ++ numberAtEnd u = u :=
  List.rdropWhile_append_rtakeWhile

theorem beforeNumber_eq_nil : beforeNumber u = [] ↔ ∀ b ∈ u, isDigit b = true :=
  List.rdropWhile_eq_nil_iff

theorem length_beforeNumber (u : List Byte) :
    (beforeNumber u).length + (numberAtEnd u).length = u.length := by
  rw [← List.length_append, beforeNumber_append]

/-- Behind it, every byte up to the dot is a digit. -/
theorem isDigit_behind (hlo : (beforeNumber u).length ≤ i) (hhi : i < u.length) (v : List Byte) :
    (u ++ v)[i]?.any isDigit = true := by
  have hlen := length_beforeNumber u
  have hget : (u ++ v)[i]? = (numberAtEnd u)[i - (beforeNumber u).length]? := by
    have hsplit : u[i]? = (beforeNumber u ++ numberAtEnd u)[i]? := by rw [beforeNumber_append]
    rw [List.getElem?_append_left hhi, hsplit]
    exact List.getElem?_append_right hlo
  have hlt : i - (beforeNumber u).length < (numberAtEnd u).length := by omega
  rw [hget, List.getElem?_eq_getElem hlt, Option.any_some]
  exact List.mem_rtakeWhile_imp (List.getElem_mem hlt)

/-- The byte before the number is none. -/
theorem not_isDigit_before (hne : beforeNumber u ≠ []) (v : List Byte) :
    (u ++ v)[(beforeNumber u).length - 1]?.any isDigit = false := by
  have hpos := List.length_pos_of_ne_nil hne
  have hlen := length_beforeNumber u
  have hget : (u ++ v)[(beforeNumber u).length - 1]? = some ((beforeNumber u).getLast hne) := by
    have hsplit : u[(beforeNumber u).length - 1]? =
        (beforeNumber u ++ numberAtEnd u)[(beforeNumber u).length - 1]? := by
      rw [beforeNumber_append]
    rw [List.getElem?_append_left (by omega), hsplit, List.getElem?_append_left (by omega),
      ← List.getLast?_eq_getElem?]
    exact List.getLast?_eq_some_getLast hne
  have hlast : ¬ isDigit ((beforeNumber u).getLast hne) = true := List.rdropWhile_last_not _ _ hne
  rw [hget, Option.any_some]
  exact eq_false_of_ne_true hlast

/-- The scan stops at the byte before the number, or at the first byte if it is a digit. -/
theorem scanStop_eq (hne : u ≠ []) (v : List Byte) :
    scanStop (u ++ v) u.length = ((beforeNumber u).length - 1 : ℕ) := by
  have hlen := length_beforeNumber u
  have hpos := List.length_pos_of_ne_nil hne
  obtain ⟨n, hn⟩ : ∃ n, u.length = n + 1 := ⟨u.length - 1, by omega⟩
  rw [hn, scanStop, scanDigits_eq (k := (beforeNumber u).length - 1) (by omega)]
  · intro j hlo hhi
    exact isDigit_behind (by omega) (by omega) v
  · -- without anything before the number, the scan stops at its first digit
    by_cases hnil : beforeNumber u = []
    · rw [hnil]
      exact Or.inl rfl
    · exact Or.inr (not_isDigit_before hnil v)

/-! ## Copying -/

/-- The text behind the place where the scan stopped. -/
def copiedNumber (u : List Byte) : List Byte := u.drop ((beforeNumber u).length - 1 + 1)

/-- It is the number, unless that starts the release. -/
theorem copiedNumber_eq (hne : beforeNumber u ≠ []) : copiedNumber u = numberAtEnd u := by
  have hpos := List.length_pos_of_ne_nil hne
  have hsplit : u.drop (beforeNumber u).length =
      (beforeNumber u ++ numberAtEnd u).drop (beforeNumber u).length := by
    rw [beforeNumber_append]
  unfold copiedNumber
  rw [Nat.sub_add_cancel hpos, hsplit]
  exact List.drop_left

theorem length_copiedNumber (u : List Byte) :
    (copiedNumber u).length = u.length - ((beforeNumber u).length - 1) - 1 := by
  unfold copiedNumber
  rw [List.length_drop]
  omega

/-- **The copy** is written inside the block, and fills it. -/
theorem copyRelease_eq (hne : u ≠ []) (hbound : u.length < 2 ^ 31) (v : List Byte) (junk : Byte) :
    copyRelease (u ++ v) ((beforeNumber u).length - 1 : ℕ)
        (toInt (u.length - ((beforeNumber u).length - 1 : ℕ))) junk =
      .ok (copiedNumber u ++ [0]) := by
  have hlen := length_copiedNumber u
  have hpos := List.length_pos_of_ne_nil hne
  have hsum := length_beforeNumber u
  have hlength : toInt (u.length - ((beforeNumber u).length - 1 : ℕ)) =
      ((copiedNumber u).length + 1 : ℕ) := by
    rw [toInt_eq (by omega) (by omega)]
    omega
  have hblock : mallocBlock junk ((copiedNumber u).length + 1 : ℕ) =
      .ok (List.replicate (copiedNumber u).length junk ++ [junk]) := by
    unfold mallocBlock
    rw [if_pos (Int.natCast_nonneg _), Int.toNat_natCast, List.replicate_succ']
  have hdrop : (u ++ v).drop (((beforeNumber u).length - 1 : ℕ) + 1 : ℤ).toNat =
      copiedNumber u ++ v := by
    have hindex : (((beforeNumber u).length - 1 : ℕ) + 1 : ℤ).toNat =
        (beforeNumber u).length - 1 + 1 := by omega
    rw [hindex]
    exact List.drop_append_of_le_length (by omega)
  have hcount : (((copiedNumber u).length + 1 : ℕ) - 1 : ℤ).toNat = (copiedNumber u).length := by
    omega
  have hcopy : strncpy (List.replicate (copiedNumber u).length junk ++ [junk])
      (copiedNumber u ++ v) (copiedNumber u).length = .ok (copiedNumber u ++ [junk]) := by
    have htake : (copiedNumber u ++ v).take (copiedNumber u).length ++
        List.replicate ((copiedNumber u).length - (copiedNumber u ++ v).length) 0 =
          copiedNumber u := by
      rw [List.take_left, List.length_append, Nat.sub_eq_zero_of_le (Nat.le_add_right _ _)]
      exact List.append_nil _
    unfold strncpy
    rw [htake, memcpy_front (by simp)]
  have hend : memcpy (some (copiedNumber u ++ [junk])) (copiedNumber u).length [0] =
      .ok (copiedNumber u ++ [0]) := memcpy_back rfl
  rw [copyRelease, hlength, bind_of_ok hblock]
  simp only [hdrop, hcount]
  rw [bind_of_ok hcopy, hend]

/-- **What is handed back.** -/
theorem resolve_eq (hrelease : machine.release.bytes = u ++ dotByte :: v) (hlast : dotByte ∉ v)
    (hne : u ≠ []) (junk : Byte) :
    ssdsResolveDependencyFilePath true (some machine) (some junk) = .ok (some {
      path := systemSolvPath machine.machine.bytes (copiedNumber u)
      arch := machine.machine.bytes
      release := copiedNumber u ++ [0] }) := by
  have hbound := machine.release.length_le
  have hzero := machine.release.zero_notMem
  rw [hrelease] at hzero hbound
  rw [List.length_append] at hbound
  have hcopy := copyRelease_eq hne (by omega) (dotByte :: v) junk
  have hread : blockString (copiedNumber u ++ [0]) = .ok (copiedNumber u) := by
    have hzero' : (0 : Byte) ∉ copiedNumber u :=
      fun h => hzero (List.mem_append_left _ (List.mem_of_mem_drop h))
    unfold blockString
    rw [if_pos (List.mem_append_right _ List.mem_cons_self), cstr_append_zero hzero']
  unfold ssdsResolveDependencyFilePath
  rw [if_neg (by decide)]
  simp only [hrelease, strrchr_append hlast, scanStop_eq hne]
  exact bind_eq_ok.2 ⟨_, hcopy, bind_eq_ok.2 ⟨_, hread, rfl⟩⟩

/-! ## The number -/

/-- **The release is extracted**: whatever was in the block before, the number and its terminator
have been written at its front. -/
def Extracted (machine : Utsname) (number : List Byte) : Prop :=
  ∀ junk, ∃ r, ssdsResolveDependencyFilePath true (some machine) (some junk) = .ok (some r) ∧
    number ++ [0] <+: r.release

/-- **When the number before the last dot is extracted**: something in front of the dot is no
digit. -/
theorem release_number_iff (hrelease : machine.release.bytes = u ++ dotByte :: v)
    (hlast : dotByte ∉ v) (hne : u ≠ []) :
    Extracted machine (numberAtEnd u) ↔ ∃ b ∈ u, isDigit b = false := by
  have hsome : (∃ b ∈ u, isDigit b = false) ↔ beforeNumber u ≠ [] := by
    rw [ne_eq, beforeNumber_eq_nil]
    simp
  rw [hsome]
  constructor
  · intro h hnil
    obtain ⟨r, hr, hfront⟩ := h 0
    rw [resolve_eq hrelease hlast hne, Except.ok.injEq, Option.some.injEq] at hr
    subst hr
    -- a digit is missing, so what was written is shorter than the number
    have hle := hfront.length_le
    have hcopied := length_copiedNumber u
    have hsum := length_beforeNumber u
    have hpos := List.length_pos_of_ne_nil hne
    rw [hnil, List.length_nil] at hsum hcopied
    rw [List.length_append, List.length_append, hcopied] at hle
    omega
  · intro hbefore junk
    refine ⟨_, resolve_eq hrelease hlast hne junk, ?_⟩
    have hsame : numberAtEnd u ++ [0] = copiedNumber u ++ [0] :=
      congrArg (· ++ [0]) (copiedNumber_eq hbefore).symm
    exact ⟨[], (List.append_nil _).trans hsame⟩

/-- A machine with this release. -/
def machineOf (release : List Byte) (hzero : 0 ∉ release) (hle : release.length ≤ 64) : Utsname where
  release := ⟨release, hzero, hle⟩
  machine := ⟨[], by simp, by simp⟩

/-- `3.fc21.x` -/
theorem release_number_iff_fedora :
    Extracted (machineOf [51, 46, 102, 99, 50, 49, 46, 120] (by decide) (by decide))
        (numberAtEnd [51, 46, 102, 99, 50, 49]) ↔
      ∃ b ∈ ([51, 46, 102, 99, 50, 49] : List Byte), isDigit b = false :=
  release_number_iff rfl (v := [120]) (by decide) (by decide)

/-- `21.x`: the first digit is lost. -/
theorem release_number_fails :
    ¬ Extracted (machineOf [50, 49, 46, 120] (by decide) (by decide)) (numberAtEnd [50, 49]) := by
  intro h
  obtain ⟨r, hr, hfront⟩ := h 0
  cases hr
  revert hfront
  decide

end Rds
