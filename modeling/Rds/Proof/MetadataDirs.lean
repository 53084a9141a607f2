import Rds.Proof.Receive
import Rds.Spec.MetadataPath

/-!
# The directory of a repository's metadata

Where the path goes that `full_path_to_metadata` makes of a name.

* `fullPathToMetadataBlock_eq`: the two copies fill the block, and no more than it.
* `metadataDir_ordinary`: an ordinary name has a directory of its own.
* `metadata_directories`: no other name has one.
-/

namespace Rds

variable {name : String} {junk : Byte}

/-! ## The block -/

theorem cBytes_append (s t : String) : cBytes (s ++ t) = cBytes s ++ cBytes t := by
  unfold cBytes
  rw [String.toByteArray_append, ByteArray.data_append, Array.toList_append]

/-- A copy to the front of a block. -/
theorem memcpy_front {front back src : List Byte} (h : front.length = src.length) :
    memcpy (some (front ++ back)) 0 src = .ok (src ++ back) := by
  have hle : 0 + src.length ≤ (front ++ back).length := by
    rw [List.length_append]
    omega
  unfold memcpy
  simp only
  rw [if_pos hle, Nat.zero_add, ← h, List.drop_left]
  rfl

/-- A copy to the end of a block. -/
theorem memcpy_back {front back src : List Byte} (h : back.length = src.length) :
    memcpy (some (front ++ back)) front.length src = .ok (front ++ src) := by
  have hle : front.length + src.length ≤ (front ++ back).length := by
    rw [List.length_append]
    omega
  have hdrop : (front ++ back).drop (front.length + src.length) = [] := by
    rw [List.drop_eq_nil_iff, List.length_append]
    omega
  unfold memcpy
  simp only
  rw [if_pos hle, hdrop, List.take_left, List.append_nil]

theorem cstr_append_zero {a : List Byte} (h : (0 : Byte) ∉ a) (rest : List Byte) :
    cstr (a ++ 0 :: rest) = a := by
  unfold cstr
  rw [List.takeWhile_append_of_pos]
  · simp
  · intro b hb
    have hne : b ≠ 0 := by
      rintro rfl
      exact h hb
    simpa using hne

theorem zero_not_mem_metadataDest : (0 : Byte) ∉ metadataDest := by decide

/-- **The copies fill the block**, if its size is an `int`. -/
theorem fullPathToMetadataBlock_eq (junk : Byte) {repoName : List Byte}
    (hsize : metadataDest.length + repoName.length + 1 < 2 ^ 31) :
    fullPathToMetadataBlock junk repoName = .ok (metadataDest ++ (repoName ++ [0])) := by
  have hzero := zero_not_mem_metadataDest
  unfold fullPathToMetadataBlock
  generalize metadataDest = dest at hsize hzero
  have hlength : toInt (dest.length + repoName.length : ℤ) =
      dest.length + repoName.length := toInt_eq (by omega) (by omega)
  have hsize' : toInt (dest.length + repoName.length + 1 : ℤ) =
      (dest.length + repoName.length + 1 : ℕ) := by
    rw [toInt_eq (by omega) (by omega)]
    omega
  have hblock : mallocBlock junk (toInt (toInt (dest.length + repoName.length) + 1)) =
      .ok (List.replicate (dest.length + 1) junk ++ List.replicate repoName.length junk) := by
    have hsum : dest.length + repoName.length + 1 =
        dest.length + 1 + repoName.length := by omega
    rw [hlength, hsize']
    unfold mallocBlock
    rw [if_pos (Int.natCast_nonneg _), Int.toNat_natCast, List.replicate_append_replicate, hsum]
  have hcopy : strncpy (List.replicate (dest.length + 1) junk ++
      List.replicate repoName.length junk) dest (dest.length + 1) =
        .ok (dest ++ 0 :: List.replicate repoName.length junk) := by
    have hsrc : dest.take (dest.length + 1) ++
        List.replicate (dest.length + 1 - dest.length) 0 = dest ++ [0] := by
      rw [List.take_of_length_le (by omega), Nat.add_sub_cancel_left]
      rfl
    unfold strncpy
    rw [hsrc, memcpy_front (by simp), List.append_assoc]
    rfl
  have hcat : strncat (dest ++ 0 :: List.replicate repoName.length junk) repoName
      repoName.length = .ok (dest ++ (repoName ++ [0])) := by
    unfold strncat
    rw [if_pos (List.mem_append_right _ List.mem_cons_self),
      cstr_append_zero hzero, List.take_length]
    exact memcpy_back (by simp)
  exact bind_eq_ok.2 ⟨_, hblock, bind_eq_ok.2 ⟨_, hcopy, hcat⟩⟩

/-- **A name a request can carry**: it has no `NUL`, and is no longer than a message that is
received. -/
def Carried (name : String) : Prop :=
  0 ∉ cBytes name ∧ ∃ s g x t, SockFrame s g x t ∧ g.length < recvLimit ∧
    (cBytes name).length ≤ (bytesOf g ++ x.bytes).length

/-- The size of the block is an `int`. -/
theorem Carried.size (h : Carried name) :
    metadataDest.length + (cBytes name).length + 1 < 2 ^ 31 := by
  obtain ⟨-, s, g, x, t, hf, hlimit, hle⟩ := h
  have hdest : metadataDest.length = 10 := by decide
  have hfull : (bytesOf g).length = maxInputLen * g.length :=
    bytesOf_full_length (Framing.Frame.long hf)
  have hlast : x.bytes.length ≤ maxInputLen := by
    cases x with
    | err => exact Nat.zero_le _
    | got bs le => exact le
  rw [List.length_append, hfull] at hle
  unfold maxInputLen at hle hlast
  unfold recvLimit at hlimit
  omega

/-! ## Directories -/

/-- The directory of a name, as its parts lead to it: no link is followed. -/
def metadataDir (name : String) : Dir := resolvePath (fullPathToMetadata name)

/-- `/tmp/ssds` -/
def metadataRoot : Dir := ["tmp".toList, "ssds".toList]

/-- A direct child of `/tmp/ssds`. -/
def IsChild (d : Dir) : Prop := ∃ part, d = metadataRoot ++ [part]

/-- A part of a path that is the name of an entry. -/
structure OrdinaryPart (part : List Char) : Prop where
  ne_nil : part ≠ []
  ne_dot : part ≠ ['.']
  ne_dots : part ≠ ['.', '.']
  no_slash : '/' ∉ part

/-- **An ordinary name** is one such part. -/
def OrdinaryName (name : String) : Prop := OrdinaryPart name.toList

/-- One part of a path, from a directory on. -/
def enterPart (d : Dir) (part : List Char) : Dir :=
  if part = [] ∨ part = ['.'] then d else if part = ['.', '.'] then d.dropLast else d ++ [part]

theorem OrdinaryPart.enter {part : List Char} (h : OrdinaryPart part) (d : Dir) :
    enterPart d part = d ++ [part] := by
  unfold enterPart
  rw [if_neg (by simp [h.ne_nil, h.ne_dot]), if_neg h.ne_dots]

theorem no_slash_of_mem_splitOn {path part : List Char} (h : part ∈ path.splitOn '/') :
    '/' ∉ part := by
  induction path generalizing part with
  | nil => simp_all
  | cons c path ih =>
    rw [List.splitOn_cons_eq_if_modifyHead] at h
    obtain ⟨first, rest, hsplit⟩ := List.exists_cons_of_ne_nil (List.splitOn_ne_nil '/' path)
    rw [hsplit] at h ih
    by_cases hc : c = '/'
    · rw [if_pos (by simpa using hc)] at h
      rcases List.mem_cons.1 h with rfl | hmem
      · simp
      · exact ih hmem
    · rw [if_neg (by simpa using hc), List.modifyHead_cons] at h
      rcases List.mem_cons.1 h with rfl | hmem
      · have hfirst := ih List.mem_cons_self
        simp [Ne.symm hc, hfirst]
      · exact ih (List.mem_cons_of_mem _ hmem)

/-- **A directory is left with ordinary parts only.** -/
theorem ordinary_of_mem_enter {parts : List (List Char)} (hparts : ∀ part ∈ parts, '/' ∉ part) :
    ∀ {d : Dir}, (∀ part ∈ d, OrdinaryPart part) →
      ∀ part ∈ parts.foldl enterPart d, OrdinaryPart part := by
  induction parts with
  | nil => exact fun hd => hd
  | cons p parts ih =>
    intro d hd
    refine ih (fun part hpart => hparts part (List.mem_cons_of_mem _ hpart)) ?_
    intro part hpart
    unfold enterPart at hpart
    split at hpart
    · exact hd part hpart
    · rename_i hne
      split at hpart
      · exact hd part (List.dropLast_subset d hpart)
      · rename_i hdots
        rcases List.mem_append.1 hpart with hold | hnew
        · exact hd part hold
        · obtain rfl := List.mem_singleton.1 hnew
          have hslash := hparts part List.mem_cons_self
          exact ⟨fun h => hne (Or.inl h), fun h => hne (Or.inr h), hdots, hslash⟩

/-- The name is followed from `/tmp/ssds` on. -/
theorem metadataDir_eq (name : String) :
    metadataDir name = (name.toList.splitOn '/').foldl enterPart metadataRoot := by
  have hpath : (fullPathToMetadata name).toList = "/tmp/ssds".toList ++ '/' :: name.toList := by
    have hdest : "/tmp/ssds/".toList = "/tmp/ssds".toList ++ ['/'] := by decide
    unfold fullPathToMetadata
    rw [String.toList_append, hdest, List.append_assoc]
    rfl
  have hroot : ("/tmp/ssds".toList.splitOn '/').foldl enterPart [] = metadataRoot := by decide
  have hfold : metadataDir name =
      ((fullPathToMetadata name).toList.splitOn '/').foldl enterPart [] := rfl
  rw [hfold, hpath, List.splitOn_append_cons_self, List.foldl_append, hroot]

/-- **An ordinary name** leads to the child of that name. -/
theorem metadataDir_ordinary (h : OrdinaryName name) :
    metadataDir name = metadataRoot ++ [name.toList] := by
  rw [metadataDir_eq, List.splitOn_eq_singleton h.no_slash]
  exact h.enter _

theorem ordinary_of_mem_metadataDir {part : List Char} (h : part ∈ metadataDir name) :
    OrdinaryPart part := by
  rw [metadataDir_eq] at h
  refine ordinary_of_mem_enter (fun _ => no_slash_of_mem_splitOn) ?_ part h
  intro p hp
  simp only [metadataRoot, List.mem_cons, List.not_mem_nil, or_false] at hp
  rcases hp with rfl | rfl
  · exact ⟨by decide, by decide, by decide, by decide⟩
  · exact ⟨by decide, by decide, by decide, by decide⟩

/-- **The metadata directories**: the path fills its block, an ordinary name leads to the child of
`/tmp/ssds` of that name, and the ordinary names are those with a child that no other ordinary name
leads to. -/
theorem metadata_directories (h : Carried name) (junk : Byte) :
    fullPathToMetadataBlock junk (cBytes name) = .ok (cBytes (fullPathToMetadata name) ++ [0]) ∧
      (OrdinaryName name → metadataDir name = metadataRoot ++ [name.toList]) ∧
      (OrdinaryName name ↔ IsChild (metadataDir name) ∧
        ∀ other, OrdinaryName other → metadataDir other = metadataDir name → other = name) := by
  refine ⟨?_, metadataDir_ordinary, ?_, ?_⟩
  · rw [fullPathToMetadataBlock_eq junk h.size]
    unfold fullPathToMetadata
    rw [cBytes_append, List.append_assoc]
    rfl
  · intro hname
    have hdir := metadataDir_ordinary hname
    refine ⟨⟨_, hdir⟩, ?_⟩
    intro other hother heq
    rw [hdir, metadataDir_ordinary hother, List.append_cancel_left_eq] at heq
    exact String.toList_inj.1 (List.singleton_inj.1 heq)
  · rintro ⟨⟨part, hdir⟩, hunique⟩
    -- the child itself is an ordinary name that leads there
    have hpart : OrdinaryPart part := by
      refine @ordinary_of_mem_metadataDir name part ?_
      rw [hdir]
      exact List.mem_append_right _ List.mem_cons_self
    have hlist : (String.ofList part).toList = part := String.toList_ofList
    have hother : OrdinaryName (String.ofList part) := by
      unfold OrdinaryName
      rwa [hlist]
    have hsame : metadataDir (String.ofList part) = metadataDir name := by
      rw [metadataDir_ordinary hother, hlist, hdir]
    rw [← hunique _ hother hsame]
    exact hother

/-- A message of 60 bytes. -/
def shortMessage : ReadRes := .got (List.replicate 60 1) (by decide)

theorem carried_of_short (h0 : 0 ∉ cBytes name) (hlen : (cBytes name).length ≤ 60) :
    Carried name := by
  have hshort : shortMessage.Short := ReadRes.short_got.2 (by decide)
  exact ⟨h0, _, [], shortMessage, _, SockFrame.of_reads (by simp) hshort [] false, by decide, hlen⟩

theorem metadata_directories_updates :
    Carried "updates" ∧
      fullPathToMetadataBlock 170 (cBytes "updates") =
        .ok (cBytes (fullPathToMetadata "updates") ++ [0]) ∧
      metadataDir "updates" = metadataRoot ++ ["updates".toList] := by
  have hcarried : Carried "updates" := carried_of_short (by decide) (by decide)
  have hname : OrdinaryName "updates" := ⟨by decide, by decide, by decide, by decide⟩
  obtain ⟨hblock, hdir, -⟩ := metadata_directories hcarried 170
  exact ⟨hcarried, hblock, hdir hname⟩

/-- **A name is followed like any path**: `..` leads out of `/tmp/ssds`, and `./a` to the directory
of `a`. -/
theorem metadata_directories_fail :
    Carried ".." ∧ metadataDir ".." = ["tmp".toList] ∧ ¬ IsChild (metadataDir "..") ∧
      Carried "a" ∧ Carried "./a" ∧ "./a" ≠ "a" ∧ metadataDir "./a" = metadataDir "a" := by
  have hup : metadataDir ".." = ["tmp".toList] := by decide
  refine ⟨carried_of_short (by decide) (by decide), hup, ?_, carried_of_short (by decide) (by decide),
    carried_of_short (by decide) (by decide), by decide, by decide⟩
  rintro ⟨part, hchild⟩
  rw [hup] at hchild
  cases hchild

end Rds
