import Rds.Spec.DetectMissingRepos
import Rds.Proof.CfgLines
import Rds.Proof.Receive

/-!
# Required repositories

The names of the required repositories are loaded from a file, one a line, and each is looked up
in a directory.

* `loadReqRepos_eq`: the loading returns, and what it reads of each line. The character it looks
  at behind a line is lost.
* `loadsExactly_iff`: **when the lines are loaded as they are**.
* `missingLoop_eq`: the names before the first that is found are counted.
* `missingCounted_iff`: **when the missing names are counted**. A name is looked for where `readdir`
  has put the entries, and a later call may have overwritten them.
* `missingCounted_stay`: the same if none was.
-/

namespace Rds

variable {file s ending rest : List Byte} {lines : List (List Byte)}

/-! ## Loading the names -/

/-- A name that is kept. -/
def IsRepoName (line : List Byte) : Prop := repoNameMinLength ≤ line.length

instance : DecidablePred IsRepoName := fun line => inferInstanceAs (Decidable (_ ≤ line.length))

/-- What is read of some lines, the first of them from its first character on or, behind another
line, without it. An empty line has its newline to lose, and the line after it is read whole. -/
def linesRead : Bool → List (List Byte) → List (List Byte)
  | _, [] => []
  | true, line :: lines => line :: linesRead false lines
  | false, [] :: lines => linesRead true lines
  | false, (_ :: line) :: lines => line :: linesRead false lines

/-- Every line that is a name is read from its first character on: it is the first line, or the
empty line before it has lost its newline. -/
def ReadWhole : Bool → List (List Byte) → Prop
  | _, [] => True
  | true, _ :: lines => ReadWhole false lines
  | false, [] :: lines => ReadWhole true lines
  | false, (b :: line) :: lines => ¬ IsRepoName (b :: line) ∧ ReadWhole false lines

/-- The character that is looked at is lost. -/
theorem linesRead_peek (b : Byte) (rest : List Byte) :
    linesRead false (fileLines (b :: rest)) = linesRead true (fileLines rest) := by
  rw [fileLines_cons]
  by_cases hb : b = newline
  · rw [if_pos hb, linesRead]
  · rw [if_neg hb]
    cases h : fileLines rest with
    | nil => exact absurd h (fileLines_ne_nil rest)
    | cons line lines => rw [List.modifyHead_cons, linesRead, linesRead]

/-- **The step back fails**: there is no such `whence`. -/
theorem fseek_peek (size pos : ℕ) : fseek size pos seekCur (-1) = pos := rfl

theorem growNames_lt {alloc count : ℕ} (h : count ≤ alloc) : count < growNames alloc count := by
  unfold growNames
  split <;> omega

/-- The names after one more line. -/
def keepName (reqRepos : List (List Byte)) (line : List Byte) : List (List Byte) :=
  reqRepos ++ [line].filter fun line => IsRepoName line

theorem length_keepName_le (reqRepos : List (List Byte)) (line : List Byte) :
    (keepName reqRepos line).length ≤ reqRepos.length + 1 := by
  have hone := List.length_filter_le (fun line => decide (IsRepoName line)) [line]
  unfold keepName
  rw [List.length_append]
  simpa using hone

/-- One turn of the loop: a line is read, and one character behind it. -/
theorem loadLoop_turn {n pos alloc : ℕ} {reqRepos : List (List Byte)}
    (hpos : file.drop pos = s ++ ending) (hend : LineEnd ending rest) (hnew : newline ∉ s)
    (h0 : 0 ∉ s) (heof : 255 ∉ s) (hroom : reqRepos.length ≤ alloc) :
    loadLoop file (n + 1) pos reqRepos alloc =
      match fgetc rest with
      | (none, _) => .ok (keepName reqRepos s)
      | (some _, rest) => loadLoop file n (file.length - rest.length) (keepName reqRepos s)
          (growNames alloc reqRepos.length) := by
  have hkeep : (if repoNameMinLength ≤ strlen s then reqRepos ++ [s] else reqRepos) =
      keepName reqRepos s := by
    unfold keepName strlen IsRepoName
    rw [cstr_eq_self h0]
    by_cases hlong : repoNameMinLength ≤ s.length <;> simp [hlong]
  rw [loadLoop, hpos, fileReadValue_line hend hnew heof]
  simp only [bind, Except.bind, ne_eq, not_true_eq_false, and_false, if_false]
  rw [if_pos (growNames_lt hroom), hkeep]
  simp only [fseek_peek]
  rfl

/-- What is left of a file behind any part of it. -/
theorem drop_length_sub {before : List Byte} (h : file = before ++ rest) :
    file.drop (file.length - rest.length) = rest := by
  have hlen : file.length - rest.length = before.length := by
    rw [h, List.length_append]
    omega
  rw [hlen, h, List.drop_left]

/-- **The loading**, from a position on. Each turn reads two characters or the last line. -/
theorem loadLoop_eq (h0 : 0 ∉ file) (heof : 255 ∉ file) :
    ∀ {n pos alloc : ℕ} {reqRepos : List (List Byte)}, reqRepos.length ≤ alloc →
      (file.drop pos).length < n →
      loadLoop file n pos reqRepos alloc = .ok (reqRepos ++
        (linesRead true (fileLines (file.drop pos))).filter fun line => IsRepoName line) := by
  intro n
  induction n with
  | zero =>
    intro pos alloc reqRepos _ hn
    omega
  | succ n ih =>
    intro pos alloc reqRepos hroom hn
    obtain ⟨s, ending, rest, hpos, hend, hnew⟩ := exists_line (file.drop pos)
    have hsub : ∀ b ∈ s ++ ending, b ∈ file := fun b hb => List.mem_of_mem_drop (hpos ▸ hb)
    have h0' : 0 ∉ s := fun h => h0 (hsub 0 (List.mem_append_left _ h))
    have heof' : 255 ∉ s := fun h => heof (hsub 255 (List.mem_append_left _ h))
    rw [loadLoop_turn hpos hend hnew h0' heof' hroom, hpos]
    cases hend with
    | eof =>
      rw [List.append_nil, fileLines_last hnew]
      rfl
    | newline rest =>
      rw [fileLines_append hnew]
      cases rest with
      | nil => rfl
      | cons b rest =>
        -- `b` is looked at, and the next turn starts behind it
        have hb : b ≠ 255 := fun h => heof (hsub 255 (by simp [h]))
        have hfile : file = (file.take pos ++ s ++ [newline, b]) ++ rest := by
          rw [List.append_assoc, List.append_assoc, List.cons_append, List.cons_append,
            List.nil_append, ← hpos, List.take_append_drop]
        have hgrow : (keepName reqRepos s).length ≤ growNames alloc reqRepos.length := by
          have hkeep := length_keepName_le reqRepos s
          have hlt := growNames_lt hroom
          omega
        have hlt : rest.length < n := by
          rw [hpos] at hn
          simp only [List.length_append, List.length_cons] at hn
          omega
        have hdrop := drop_length_sub hfile
        simp only [fgetc, toChar_ne_none hb]
        rw [ih hgrow (by rwa [hdrop]), hdrop, ← linesRead_peek b rest, linesRead]
        unfold keepName
        rw [List.append_assoc, ← List.filter_append]
        rfl

/-- **The loading returns**, with the names among what it has read. -/
theorem loadReqRepos_eq (h0 : 0 ∉ file) (heof : 255 ∉ file) : loadReqRepos file =
    .ok ((linesRead true (fileLines file)).filter fun line => IsRepoName line) := by
  have hloop := @loadLoop_eq file h0 heof (file.length + 1) 0 10 [] (Nat.zero_le _)
    (Nat.lt_succ_self _)
  rwa [List.nil_append, List.drop_zero] at hloop

/-- How long the names among some lines are together. -/
def namesLength (lines : List (List Byte)) : ℕ :=
  ((lines.filter fun line => IsRepoName line).map List.length).sum

theorem namesLength_cons (line : List Byte) (lines : List (List Byte)) :
    namesLength (line :: lines) =
      (if IsRepoName line then line.length else 0) + namesLength lines := by
  unfold namesLength
  by_cases h : IsRepoName line <;> simp [h]

/-- Nothing longer is read than is there, and something shorter unless each name is read whole. -/
theorem namesLength_linesRead (whole : Bool) (lines : List (List Byte)) :
    namesLength (linesRead whole lines) ≤ namesLength lines ∧
      (namesLength (linesRead whole lines) = namesLength lines → ReadWhole whole lines) := by
  induction whole, lines using linesRead.induct with
  | case1 whole => exact ⟨by rw [linesRead], fun _ => by rw [ReadWhole]; trivial⟩
  | case2 line lines ih =>
    rw [linesRead, ReadWhole, namesLength_cons, namesLength_cons]
    exact ⟨by omega, fun h => ih.2 (by omega)⟩
  | case3 lines ih =>
    have hempty : ¬ IsRepoName [] := by decide
    rw [linesRead, ReadWhole, namesLength_cons, if_neg hempty, Nat.zero_add]
    exact ih
  | case4 b line lines ih =>
    rw [linesRead, ReadWhole, namesLength_cons, namesLength_cons]
    have hlen : (b :: line).length = line.length + 1 := rfl
    by_cases hname : IsRepoName (b :: line)
    · rw [if_pos hname]
      refine ⟨by split <;> omega, fun h => ?_⟩
      split at h <;> omega
    · have hshort : ¬ IsRepoName line := fun h => hname (Nat.le_succ_of_le h)
      rw [if_neg hname, if_neg hshort, Nat.zero_add, Nat.zero_add]
      exact ⟨ih.1, fun h => ⟨hname, ih.2 h⟩⟩

theorem linesRead_filter (whole : Bool) (lines : List (List Byte)) :
    ReadWhole whole lines → (linesRead whole lines).filter (fun line => IsRepoName line) =
      lines.filter fun line => IsRepoName line := by
  induction whole, lines using linesRead.induct with
  | case1 whole =>
    intro _
    rw [linesRead]
  | case2 line lines ih =>
    intro h
    rw [ReadWhole] at h
    rw [linesRead, List.filter_cons, List.filter_cons, ih h]
  | case3 lines ih =>
    intro h
    rw [ReadWhole] at h
    rw [linesRead, ih h]
    rfl
  | case4 b line lines ih =>
    intro h
    rw [ReadWhole] at h
    have hshort : ¬ IsRepoName line := fun hline => h.1 (Nat.le_succ_of_le hline)
    rw [linesRead, List.filter_cons_of_neg (by simpa using hshort),
      List.filter_cons_of_neg (by simpa using h.1), ih h.2]

/-- **The lines are loaded as they are**: those that are long enough, each whole and in order. -/
def LoadsExactly (file : List Byte) : Prop :=
  loadReqRepos file = .ok ((fileLines file).filter fun line => IsRepoName line)

variable {dirs : List Dirent} {reqRepos : List (List Byte)}

/-- A name is one of some names. -/
def Among (names : List (List Byte)) (req : List Byte) : Prop := ∃ name ∈ names, cstr name = cstr req

instance (names : List (List Byte)) : DecidablePred (Among names) :=
  fun _ => inferInstanceAs (Decidable (∃ name ∈ names, _))

/-- A name is that of an entry of the directory. -/
def Present (dirs : List Dirent) : List Byte → Prop := Among (dirs.map Dirent.name)

/-- A name is read where the name of an entry stood. -/
def Found (dirs : List Dirent) : List Byte → Prop := Among (dirs.map Dirent.later)

instance (dirs : List Dirent) : DecidablePred (Present dirs) :=
  inferInstanceAs (DecidablePred (Among _))

instance (dirs : List Dirent) : DecidablePred (Found dirs) := inferInstanceAs (DecidablePred (Among _))

/-- Names of one length that agree over it are the same. -/
theorem sameName_iff (req name : List Byte) :
    (strlen req = strlen name ∧ strncmpEq req name (strlen req) = true) ↔ cstr name = cstr req := by
  unfold strlen strncmpEq
  rw [decide_eq_true_iff, List.take_length]
  constructor
  · rintro ⟨hlen, heq⟩
    rw [heq, hlen, List.take_length]
  · intro h
    rw [h, List.take_length]
    exact ⟨rfl, rfl⟩

theorem foundLoop_iff (req : List Byte) (found : Bool) :
    foundLoop req dirs found = true ↔ found = true ∨ Found dirs req := by
  induction dirs with
  | nil => simp [foundLoop, Found, Among]
  | cons entry dirs ih =>
    rw [foundLoop]
    simp only [sameName_iff]
    by_cases h : cstr entry.later = cstr req
    · simp [h, Found, Among]
    · rw [if_neg h, ih]
      simp [Found, Among, h]

theorem readDirLoop_eq : ∀ {localRepos : List Dirent} {alloc : ℕ},
    localRepos.length ≤ alloc → readDirLoop dirs localRepos alloc = .ok (localRepos ++ dirs) := by
  induction dirs with
  | nil =>
    intro localRepos alloc _
    rw [readDirLoop, List.append_nil]
  | cons entry dirs ih =>
    intro localRepos alloc h
    have hlt := growNames_lt h
    rw [readDirLoop]
    rw [if_pos hlt, ih (by rw [List.length_append]; exact hlt), List.append_assoc]
    rfl

/-- The required names before the first that is found. -/
def beforeFound (dirs : List Dirent) (reqRepos : List (List Byte)) : List (List Byte) :=
  reqRepos.takeWhile fun req => ¬ Found dirs req

/-- That one, and those behind it. -/
def fromFound (dirs : List Dirent) (reqRepos : List (List Byte)) : List (List Byte) :=
  reqRepos.dropWhile fun req => ¬ Found dirs req

/-- **What is counted**: the names before the first that is found. -/
theorem missingLoop_eq (reqRepos : List (List Byte)) : ∀ (found : Bool) (missing : ℕ),
    missingLoop dirs reqRepos found missing = missing +
      if found = true then 0 else (beforeFound dirs reqRepos).length := by
  unfold beforeFound
  induction reqRepos with
  | nil =>
    intro found missing
    rw [missingLoop]
    cases found <;> rfl
  | cons req reqRepos ih =>
    intro found missing
    rw [missingLoop]
    rw [ih]
    simp only [foundLoop_iff]
    cases found with
    | true => simp
    | false =>
      by_cases h : Found dirs req
      · simp [h]
      · simp [h]
        omega

/-- The number that is returned. -/
theorem checkForMissingRepos_eq {file : List Byte} (hload : loadReqRepos file = .ok reqRepos) :
    checkForMissingRepos (some file) (some dirs) = .ok ((beforeFound dirs reqRepos).length : ℤ) := by
  unfold checkForMissingRepos
  simp only [hload, bind, Except.bind]
  rw [readDirLoop_eq (Nat.zero_le _), List.nil_append]
  simp only
  rw [missingLoop_eq, Nat.zero_add]
  rfl

/-- **The missing names are counted**: as many as there are required names without an entry. -/
def MissingCounted (file : List Byte) (dirs : List Dirent) (reqRepos : List (List Byte)) : Prop :=
  checkForMissingRepos (some file) (some dirs) =
    .ok ((reqRepos.filter fun req => ¬ Present dirs req).length : ℤ)

/-- **When the missing names are counted**: if as many names before the first that is found are
present all the same as are missing behind it. -/
theorem missingCounted_iff (file : List Byte) (dirs : List Dirent) (reqRepos : List (List Byte))
    (hload : loadReqRepos file = .ok reqRepos) : MissingCounted file dirs reqRepos ↔
      ((beforeFound dirs reqRepos).filter fun req => Present dirs req).length =
        ((fromFound dirs reqRepos).filter fun req => ¬ Present dirs req).length := by
  have hsplit : reqRepos = beforeFound dirs reqRepos ++ fromFound dirs reqRepos :=
    List.takeWhile_append_dropWhile.symm
  have hmissing := congrArg List.length
    (List.filter_append (p := fun req => decide (¬ Present dirs req)) (beforeFound dirs reqRepos)
      (fromFound dirs reqRepos))
  rw [← hsplit, List.length_append] at hmissing
  have hbefore := @List.length_eq_countP_add_countP _ (fun req => decide (Present dirs req))
    (beforeFound dirs reqRepos)
  simp only [List.countP_eq_length_filter, decide_eq_true_eq] at hbefore
  unfold MissingCounted
  rw [checkForMissingRepos_eq hload, Except.ok.injEq, Nat.cast_inj]
  omega

/-- Every entry still stands where it was returned. -/
def NamesStay (dirs : List Dirent) : Prop := ∀ entry ∈ dirs, entry.later = entry.name

/-- Names that were not overwritten are counted **if none that is missing comes after one that is
present**. -/
theorem missingCounted_stay (file : List Byte) {dirs : List Dirent} (hstay : NamesStay dirs)
    {reqRepos : List (List Byte)} (hload : loadReqRepos file = .ok reqRepos) :
    MissingCounted file dirs reqRepos ↔
      reqRepos.Pairwise fun req later => Present dirs req → Present dirs later := by
  have hsame : ∀ req, Found dirs req ↔ Present dirs req := by
    intro req
    unfold Found Present
    rw [List.map_congr_left hstay]
  rw [missingCounted_iff file dirs reqRepos hload]
  unfold beforeFound fromFound
  simp only [hsame]
  clear hload
  induction reqRepos with
  | nil => simp
  | cons req reqRepos ih =>
    rw [List.pairwise_cons]
    by_cases h : Present dirs req
    · rw [List.takeWhile_cons_of_neg (by simpa using h), List.dropWhile_cons_of_neg (by simpa using h),
        List.filter_cons_of_neg (by simpa using h), List.filter_nil, List.length_nil, eq_comm,
        List.length_eq_zero_iff, List.filter_eq_nil_iff]
      have hall : (∀ a ∈ reqRepos, ¬ decide (¬ Present dirs a) = true) ↔
          ∀ a ∈ reqRepos, Present dirs req → Present dirs a := by simp [h]
      rw [hall]
      refine ⟨fun hlater => ⟨hlater, ?_⟩, And.left⟩
      exact List.pairwise_of_forall_mem_list fun _ _ b hb _ => hlater b hb h
    · rw [List.takeWhile_cons_of_pos (by simpa using h), List.dropWhile_cons_of_pos (by simpa using h),
        List.filter_cons_of_neg (by simpa using h)]
      exact Iff.trans ih ⟨fun hlater => ⟨fun _ _ hreq => absurd hreq h, hlater⟩, And.right⟩

/-- Two required repositories: `abcd`, and `efgh` behind the character that is lost. -/
def twoRepos : List Byte := text ['a', 'b', 'c', 'd', '\n', '-', 'e', 'f', 'g', 'h', '\n']

/-- An entry that is not overwritten. -/
def keptEntry (name : List Byte) : Dirent := ⟨name, name⟩

/-- The first is missing. -/
theorem missingCounted_first : MissingCounted twoRepos [keptEntry (text ['e', 'f', 'g', 'h'])]
    [text ['a', 'b', 'c', 'd'], text ['e', 'f', 'g', 'h']] :=
  (missingCounted_iff twoRepos _ _ (by decide)).2 (by decide)

/-- **A missing name that is not counted**: the second, behind one that is present. -/
theorem missingCounted_fails : ¬ MissingCounted twoRepos [keptEntry (text ['a', 'b', 'c', 'd'])]
    [text ['a', 'b', 'c', 'd'], text ['e', 'f', 'g', 'h']] := by
  unfold MissingCounted
  decide

/-- A name that is present and counted: its entry was overwritten. -/
example : ¬ MissingCounted twoRepos [⟨text ['a', 'b', 'c', 'd'], []⟩, keptEntry (text ['e', 'f', 'g', 'h'])]
    [text ['a', 'b', 'c', 'd'], text ['e', 'f', 'g', 'h']] := by
  unfold MissingCounted
  decide

end Rds
