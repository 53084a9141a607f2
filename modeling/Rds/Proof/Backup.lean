import Rds.Spec.Client

/-!
# The backup of a file

The client keeps a copy of each file it has sent, and compares the two to see whether the file
has changed.

* `compareFiles_ok_iff`: the comparison sees what stands before the first byte 255.
* `compareExact_iff`: **when the comparison is exact**.
* `copySafe_iff`: **when a file is copied or its backup left alone**.
-/

namespace Rds

/-! ## Comparing -/

/-- What is seen of a file, read into a `char`: the byte 255 is its end. -/
def beforeEof (file : List Byte) : List Byte := file.takeWhile fun b => b ≠ 255

@[simp] theorem beforeEof_nil : beforeEof [] = [] := rfl

theorem beforeEof_cons (b : Byte) (file : List Byte) :
    beforeEof (b :: file) = if b = 255 then [] else b :: beforeEof file := by
  unfold beforeEof
  rw [List.takeWhile_cons]
  by_cases hb : b = 255 <;> simp [hb]

theorem compareLoop_cons (ch1 ch2 : Byte) (f1 f2 : List Byte) :
    compareLoop (ch1 :: f1) (ch2 :: f2) =
      if ch1 ≠ 255 ∧ ch2 ≠ 255 ∧ ch1 = ch2 then compareLoop f1 f2 else ch1 = ch2 := rfl

/-- The loop goes through what the two files have in common, and ends on equal characters if
that is all there is to see of them. -/
theorem compareLoop_iff (f1 : List Byte) :
    ∀ f2, compareLoop f1 f2 = true ↔ beforeEof f1 = beforeEof f2 := by
  induction f1 with
  | nil =>
    intro f2
    cases f2 with
    | nil => simp [compareLoop, fgetcChar]
    | cons ch2 f2 =>
      rw [beforeEof_cons]
      by_cases h2 : ch2 = 255 <;> simp [compareLoop, fgetcChar, h2]
  | cons ch1 f1 ih =>
    intro f2
    cases f2 with
    | nil =>
      rw [beforeEof_cons]
      by_cases h1 : ch1 = 255 <;> simp [compareLoop, fgetcChar, h1]
    | cons ch2 f2 =>
      rw [beforeEof_cons, beforeEof_cons, compareLoop_cons]
      by_cases h1 : ch1 = 255
      · by_cases h2 : ch2 = 255
        · simp [h1, h2]
        · simp [h1, h2, Ne.symm h2]
      · by_cases h2 : ch2 = 255
        · simp [h1, h2]
        · by_cases heq : ch1 = ch2
          · have hgo : ch1 ≠ 255 ∧ ch2 ≠ 255 ∧ ch1 = ch2 := ⟨h1, h2, heq⟩
            rw [if_pos hgo, if_neg h1, if_neg h2, List.cons.injEq, ih f2]
            exact ⟨fun h => ⟨heq, h⟩, And.right⟩
          · simp [h1, h2, heq]

/-- The comparison of two files that can be read. -/
theorem compareFiles_ok_iff (f1 f2 : List Byte) :
    compareFiles (some f1) (some f2) = .ok ↔ beforeEof f1 = beforeEof f2 := by
  rw [← compareLoop_iff]
  unfold compareFiles
  by_cases h : compareLoop f1 f2 = true <;> simp [h]

/-- **The comparison is exact**: it succeeds on files with the same bytes, and on no others. -/
def CompareExact (f1 f2 : List Byte) : Prop := compareFiles (some f1) (some f2) = .ok ↔ f1 = f2

/-- **When the comparison is exact**: on two copies of a file, and on files that differ before a
byte 255. -/
theorem compareExact_iff (f1 f2 : List Byte) :
    CompareExact f1 f2 ↔ f1 = f2 ∨ beforeEof f1 ≠ beforeEof f2 := by
  unfold CompareExact
  rw [compareFiles_ok_iff]
  constructor
  · intro h
    by_cases hseen : beforeEof f1 = beforeEof f2
    · exact Or.inl (h.1 hseen)
    · exact Or.inr hseen
  · rintro (heq | hne)
    · exact iff_of_true (by rw [heq]) heq
    · exact iff_of_false hne fun heq => hne (by rw [heq])

/-- **Two files that are taken for one**: what follows a byte 255 is not compared. -/
theorem compareExact_fails : ¬ CompareExact [1, 255, 2] [1] := by
  intro h
  have hok : compareFiles (some [1, 255, 2]) (some [1]) = .ok := by decide
  have heq := h.1 hok
  simp at heq

/-! ## Copying -/

/-- **A copy is made or nothing is changed**: the destination is the source where `copy_file`
returns `OK`, and what it was where it returns `FILE_ERROR`. -/
structure CopySafe (out : CopyOutcome) (source destination : Option (List Byte)) : Prop where
  copied : (copyFile out source destination).1 = .ok →
    (copyFile out source destination).2 = source
  kept : (copyFile out source destination).1 = .fileError →
    (copyFile out source destination).2 = destination

/-- The stored bytes are the file if all of them are. -/
theorem stored_eq_iff (stores : ℕ → Bool) (s : List Byte) :
    (s.zipIdx.filter fun b => stores b.2).map Prod.fst = s ↔ ∀ i < s.length, stores i := by
  constructor
  · intro h i hi
    have hlen := congrArg List.length h
    rw [List.length_map, ← List.length_zipIdx (l := s) (i := 0),
      List.length_filter_eq_length_iff] at hlen
    exact hlen (s[i], i) (List.mem_zipIdx_iff_getElem?.2 (List.getElem?_eq_getElem hi))
  · intro h
    have hall : ∀ b ∈ s.zipIdx, stores b.2 = true := by
      intro b hb
      obtain ⟨hlt, -⟩ := List.getElem?_eq_some_iff.1 (List.mem_zipIdx_iff_getElem?.1 hb)
      exact h b.2 hlt
    rw [List.filter_eq_self.2 hall, List.zipIdx_map_fst]

/-- What `copy_file` needs, once the destination is opened: a source it can read and a disk that
takes every byte, or a backup that has nothing to lose. -/
def CopyOutcome.Sound (out : CopyOutcome) (source destination : Option (List Byte)) : Prop :=
  match source with
  | none => destination = some []
  | some s => ∀ i < s.length, out.stores i

section
variable {out : CopyOutcome} {source destination : Option (List Byte)}

theorem copyFile_closed (hopen : out.opens = false) :
    copyFile out source destination = (.fileError, destination) := by
  unfold copyFile
  cases source <;> simp [hopen]

/-- The destination is emptied before the source is looked at. -/
theorem copyFile_absent (hopen : out.opens = true) :
    copyFile out none destination = (.fileError, some []) := by
  unfold copyFile
  simp [hopen]

/-- No write is checked. -/
theorem copyFile_copied (hopen : out.opens = true) (s : List Byte) :
    copyFile out (some s) destination =
      (.ok, some ((s.zipIdx.filter fun b => out.stores b.2).map Prod.fst)) := by
  unfold copyFile
  simp [hopen]

theorem copySafe_of_ok {copy : Option (List Byte)}
    (h : copyFile out source destination = (.ok, copy)) :
    CopySafe out source destination ↔ copy = source := by
  constructor
  · intro hsafe
    have hcopied := hsafe.copied (by rw [h])
    rwa [h] at hcopied
  · intro hcopy
    refine ⟨fun _ => by rw [h, hcopy], fun herr => ?_⟩
    rw [h] at herr
    cases herr

theorem copySafe_of_error {left : Option (List Byte)}
    (h : copyFile out source destination = (.fileError, left)) :
    CopySafe out source destination ↔ left = destination := by
  constructor
  · intro hsafe
    have hkept := hsafe.kept (by rw [h])
    rwa [h] at hkept
  · intro hleft
    refine ⟨fun hok => ?_, fun _ => by rw [h, hleft]⟩
    rw [h] at hok
    cases hok

end

/-- **When a file is copied or its backup left alone.** The destination is emptied before the
source is looked at, and no write is checked. -/
theorem copySafe_iff (out : CopyOutcome) (source destination : Option (List Byte)) :
    CopySafe out source destination ↔ (out.opens → out.Sound source destination) := by
  cases hopen : out.opens with
  | false =>
    rw [copySafe_of_error (copyFile_closed hopen)]
    simp
  | true =>
    unfold CopyOutcome.Sound
    cases source with
    | none =>
      rw [copySafe_of_error (copyFile_absent hopen)]
      simp [eq_comm]
    | some s =>
      rw [copySafe_of_ok (copyFile_copied hopen s), Option.some.injEq, stored_eq_iff]
      simp

/-- **A backup that is lost**: the source cannot be read, and the destination is emptied. -/
theorem copySafe_fails : ¬ CopySafe ⟨true, fun _ => true⟩ none (some [7]) := by
  intro h
  have hkept := h.kept (by decide)
  revert hkept
  decide

end Rds
