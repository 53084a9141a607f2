import Rds.Proof.CfgScan
import Rds.Spec.ReadValue

/-!
# Reading a value

The block of `file_read_value` grows in steps of five, and always has one byte more than
`allocated_lenght`. The characters are kept in a `char`, so the byte 255 is the end of the file.

* `Grown.next`: a turn of the loop stores one byte more.
* `fileReadValueBlock_ok`: what is read, as long as the lengths are an `int`.
* `reads_line_iff`: **when that is the line.**
-/

namespace Rds

open Memory

variable {file s : List Byte} {block : Block Byte} {allocated maxLength : ℕ} {b : Byte}

/-! ## The block -/

/-- The last value of `allocated_lenght`: the next one is no `int`. -/
def valueLimit : ℕ := 2147483645

/-- **The block while a value is read**: it starts with what has been read, and there is room for
the terminator. -/
structure Grown (s : List Byte) (block : Block Byte) (allocated : ℕ) : Prop where
  front : block.StartsWith s
  length : block.length = allocated + 1
  room : s.length ≤ allocated
  fives : 5 ∣ allocated
  small : allocated ≤ valueLimit

theorem storeByte_front (h : block.StartsWith s) (hlt : s.length < block.length) (b : Byte) :
    ∃ block', storeByte block s.length b = .ok block' ∧ block'.length = block.length ∧
      block'.StartsWith (s ++ [b]) := by
  obtain ⟨block', hstore, hlength, hfront⟩ := h.store hlt b
  refine ⟨block', ?_, hlength, hfront⟩
  have hpos : (0 : ℤ) ≤ s.length := by omega
  unfold storeByte
  rw [if_pos hpos, Int.toNat_natCast, hstore]
  rfl

theorem reallocBlock_eq (block : Block Byte) (n : ℕ) :
    reallocBlock block n = .ok (block.resize n) := by
  have hpos : (0 : ℤ) ≤ n := by omega
  unfold reallocBlock
  rw [if_pos hpos, Int.toNat_natCast]

theorem toInt_eq_natCast {z : ℤ} {n : ℕ} (hz : z = n) (hn : n < 2 ^ 31) : toInt z = n := by
  rw [toInt_eq (by omega) (by omega), hz]

/-- **Room for one byte more**, as long as the limit is not reached. -/
theorem Grown.grow (h : Grown s block allocated) (hlt : s.length < valueLimit) :
    ∃ block' allocated', Grown s block' allocated' ∧ s.length < allocated' ∧
      growValue block s.length allocated = .ok (block', allocated') := by
  have hfives := h.fives
  have hsmall := h.small
  have hroom := h.room
  unfold growValue
  by_cases hfull : s.length = allocated
  · -- the block is full but for the terminator
    have hnext : allocated + 5 ≤ valueLimit := by
      unfold valueLimit at hlt hsmall ⊢
      omega
    have hfront : (block.resize (allocated + 5 + 1)).StartsWith s := h.front.resize (by omega)
    have halloc : toInt (allocated + 5) = (allocated + 5 : ℕ) := by
      unfold valueLimit at hnext
      exact toInt_eq_natCast (by omega) (by omega)
    have hsize : toInt ((allocated + 5 : ℕ) + 1) = (allocated + 5 + 1 : ℕ) := by
      unfold valueLimit at hnext
      exact toInt_eq_natCast (by omega) (by omega)
    refine ⟨block.resize (allocated + 5 + 1), allocated + 5,
      ⟨hfront, Block.length_resize _ _, by omega, by omega, hnext⟩, by omega, ?_⟩
    rw [if_pos (congrArg Nat.cast hfull), halloc, hsize, reallocBlock_eq]
    rfl
  · have hne : (s.length : ℤ) ≠ allocated := by omega
    refine ⟨block, allocated, h, by omega, ?_⟩
    rw [if_neg hne]
    rfl

/-- A turn of the loop stores one byte. -/
theorem Grown.next (h : Grown s block allocated) (hb : ¬ EndsLine b) (hlt : s.length < valueLimit)
    (file : List Byte) : ∃ block' allocated', Grown (s ++ [b]) block' allocated' ∧
      fileReadValueLoop (b :: file) block s.length allocated =
        fileReadValueLoop file block' (s ++ [b]).length allocated' := by
  have hgo : ¬ (toChar b = none ∨ b = newline) := hb
  obtain ⟨block₁, allocated', h₁, hroom, hgrow⟩ := h.grow hlt
  obtain ⟨block', hstore, hlength, hfront⟩ := storeByte_front h₁.front (by rw [h₁.length]; omega) b
  have hlen : (s ++ [b]).length = s.length + 1 := by simp
  have hcount : toInt (s.length + 1) = ((s ++ [b]).length : ℕ) := by
    unfold valueLimit at hlt
    exact toInt_eq_natCast (by omega) (by omega)
  refine ⟨block', allocated',
    ⟨hfront, hlength.trans h₁.length, by omega, h₁.fives, h₁.small⟩, ?_⟩
  rw [fileReadValueLoop, if_neg hgo, bind_of_ok hgrow, hcount]
  exact bind_of_ok hstore

/-- At the limit the lengths overflow. -/
theorem Grown.overflow (h : Grown s block allocated) (hb : ¬ EndsLine b)
    (hfull : s.length = valueLimit) (file : List Byte) :
    fileReadValueLoop (b :: file) block s.length allocated = .error .crash := by
  have hgo : ¬ (toChar b = none ∨ b = newline) := hb
  have hsmall := h.small
  have hroom := h.room
  have halloc : allocated = valueLimit := by omega
  have hsize : reallocBlock block (toInt (toInt ((valueLimit : ℕ) + 5) + 1)) = .error .crash := by
    unfold reallocBlock
    rw [if_neg (by decide)]
  rw [fileReadValueLoop, if_neg hgo, growValue, hfull, halloc, if_pos rfl, hsize]
  rfl

/-- **The loop** reads up to the byte that ends the value. -/
theorem fileReadValueLoop_ok (file : List Byte) : ∀ {s : List Byte} {block : Block Byte}
    {allocated : ℕ}, Grown s block allocated →
      s.length + (valueText file).length ≤ valueLimit →
      ∃ block' allocated', Grown (s ++ valueText file) block' allocated' ∧
        fileReadValueLoop file block s.length allocated =
          .ok (block', (s ++ valueText file).length, valueRest file) := by
  induction file with
  | nil =>
    intro s block allocated h _
    have htext : s ++ valueText [] = s := List.append_nil s
    refine ⟨block, allocated, ?_, ?_⟩
    · rwa [htext]
    · rw [htext]
      rfl
  | cons b file ih =>
    intro s block allocated h hle
    rw [valueText_cons] at hle ⊢
    rw [valueRest_cons]
    by_cases hb : EndsLine b
    · have hends : toChar b = none ∨ b = newline := hb
      rw [if_pos hb, if_pos hb, List.append_nil]
      exact ⟨block, allocated, h, by rw [fileReadValueLoop, if_pos hends]⟩
    · rw [if_neg hb] at hle ⊢
      rw [if_neg hb]
      rw [List.length_cons] at hle
      obtain ⟨block₁, allocated₁, h₁, hloop⟩ := h.next hb (by omega) file
      have hle₁ : (s ++ [b]).length + (valueText file).length ≤ valueLimit := by
        rw [List.length_append, List.length_singleton]
        omega
      obtain ⟨block₂, allocated₂, h₂, hrest⟩ := ih h₁ hle₁
      have hsplit : s ++ b :: valueText file = s ++ [b] ++ valueText file := by simp
      rw [hsplit, hloop]
      exact ⟨block₂, allocated₂, h₂, hrest⟩

/-- A value that is too long. -/
theorem fileReadValueLoop_crash (file : List Byte) : ∀ {s : List Byte} {block : Block Byte}
    {allocated : ℕ}, Grown s block allocated →
      valueLimit < s.length + (valueText file).length →
      fileReadValueLoop file block s.length allocated = .error .crash := by
  induction file with
  | nil =>
    intro s block allocated h hlt
    have hroom := h.room
    have hsmall := h.small
    have hnil : (valueText []).length = 0 := rfl
    omega
  | cons b file ih =>
    intro s block allocated h hlt
    have hroom := h.room
    have hsmall := h.small
    rw [valueText_cons] at hlt
    by_cases hb : EndsLine b
    · rw [if_pos hb, List.length_nil] at hlt
      omega
    · rw [if_neg hb, List.length_cons] at hlt
      by_cases hfull : s.length = valueLimit
      · exact h.overflow hb hfull file
      · obtain ⟨block₁, allocated₁, h₁, hloop⟩ := h.next hb (by omega) file
        rw [hloop]
        refine ih h₁ ?_
        rw [List.length_append, List.length_singleton]
        omega

/-- The empty buffer. -/
theorem grown_nil : Grown [] (Block.resize [] 6) 5 :=
  ⟨Block.StartsWith.nil _, Block.length_resize _ _, by simp, by omega, by decide⟩

/-- The cut: the terminator is stored once more, and the block ends with it. -/
theorem cutBlock_ok (hfront : block.StartsWith (s ++ [0])) (hle : maxLength ≤ s.length)
    (hpos : 0 < maxLength) : ∃ block', (do
      let value ← storeByte block ((maxLength : ℤ) - 1) 0
      reallocBlock value maxLength) = .ok block' ∧
      block'.StartsWith (s.take (maxLength - 1) ++ [0]) := by
  have htake : (s ++ [0]).take (maxLength - 1) = s.take (maxLength - 1) :=
    List.take_append_of_le_length (by omega)
  have hlen : (s.take (maxLength - 1)).length = maxLength - 1 := by
    rw [List.length_take]
    omega
  have hcut : block.StartsWith (s.take (maxLength - 1)) := by
    rw [← htake]
    exact hfront.take _
  have hroom := hfront.length_le
  rw [List.length_append, List.length_singleton] at hroom
  obtain ⟨block', hstore, -, hfront'⟩ := storeByte_front hcut (by omega) 0
  have hindex : ((maxLength : ℤ) - 1) = ((s.take (maxLength - 1)).length : ℕ) := by omega
  refine ⟨block'.resize maxLength, ?_, hfront'.resize ?_⟩
  · rw [hindex, hstore, ← reallocBlock_eq]
    rfl
  · rw [List.length_append, List.length_singleton]
    omega

/-- **The value in its block**, with its terminator. -/
theorem fileReadValueBlock_ok (hle : (valueText file).length ≤ valueLimit) (maxLength : ℕ) :
    ∃ block, fileReadValueBlock file maxLength = .ok (block, valueRest file) ∧
      block.StartsWith (cutValue maxLength (valueText file) ++ [0]) := by
  have hinit : reallocBlock [] 6 = .ok (Block.resize [] 6) := reallocBlock_eq [] 6
  obtain ⟨block₁, allocated₁, h₁, hloop⟩ := fileReadValueLoop_ok file grown_nil (by simpa using hle)
  rw [List.nil_append] at h₁ hloop
  obtain ⟨block₂, hstore, -, hfront⟩ :=
    storeByte_front h₁.front (by rw [h₁.length]; have := h₁.room; omega) 0
  unfold cutValue
  by_cases hcut : maxLength ≤ (valueText file).length ∧ maxLength ≠ 0
  · obtain ⟨block₃, hblock₃, hfront₃⟩ := cutBlock_ok hfront hcut.1 (by omega)
    obtain ⟨value, hvalue, hresize⟩ := bind_eq_ok.1 hblock₃
    have hcut' : (maxLength : ℤ) ≤ ((valueText file).length : ℕ) ∧ maxLength ≠ 0 := by omega
    refine ⟨block₃, ?_, by rwa [if_pos hcut]⟩
    refine bind_eq_ok.2 ⟨_, hinit, bind_eq_ok.2 ⟨_, hloop, bind_eq_ok.2 ⟨_, hstore, ?_⟩⟩⟩
    rw [if_pos hcut']
    exact bind_eq_ok.2 ⟨_, hvalue, bind_eq_ok.2 ⟨_, hresize, rfl⟩⟩
  · have hcut' : ¬ ((maxLength : ℤ) ≤ ((valueText file).length : ℕ) ∧ maxLength ≠ 0) := by omega
    refine ⟨block₂, ?_, by rwa [if_neg hcut]⟩
    refine bind_eq_ok.2 ⟨_, hinit, bind_eq_ok.2 ⟨_, hloop, bind_eq_ok.2 ⟨_, hstore, ?_⟩⟩⟩
    rw [if_neg hcut']
    rfl

theorem fileReadValueBlock_crash (hlt : valueLimit < (valueText file).length) (maxLength : ℕ) :
    fileReadValueBlock file maxLength = .error .crash := by
  have hinit : reallocBlock [] 6 = .ok (Block.resize [] 6) := reallocBlock_eq [] 6
  have hloop : fileReadValueLoop file (Block.resize [] 6) ((0 : ℕ) : ℤ) ((5 : ℕ) : ℤ) =
      .error .crash :=
    fileReadValueLoop_crash file grown_nil (by simpa using hlt)
  rw [fileReadValueBlock, bind_of_ok hinit]
  exact bind_eq_error.2 (Or.inl hloop)

/-- The block holds what the readers take as the value. -/
theorem fileReadValueBlock_refines {value rest : List Byte}
    (hle : (valueText file).length ≤ valueLimit)
    (h : fileReadValue file maxLength = .ok (value, rest)) :
    ∃ block, fileReadValueBlock file maxLength = .ok (block, rest) ∧
      block.StartsWith (value ++ [0]) := by
  obtain ⟨block, hblock, hfront⟩ := fileReadValueBlock_ok hle maxLength
  rw [fileReadValue_value] at h
  cases h
  exact ⟨block, hblock, hfront⟩

/-! ## The line -/

/-- What is behind the newline. -/
def lineRest (file : List Byte) : List Byte := (file.dropWhile fun b => b ≠ newline).tail

/-- **A call reads one line**: up to its newline, and the block has its bytes, cut as asked, and a
terminator. -/
def ReadsLine (file : List Byte) (maxLength : ℕ) : Prop :=
  ∃ block, fileReadValueBlock file maxLength = .ok (block, lineRest file) ∧
    block.StartsWith (cutValue maxLength (lineValue file) ++ [0])

theorem lineRest_line {ending rest : List Byte} (hend : LineEnd ending rest)
    (hnew : newline ∉ s) : lineRest (s ++ ending) = rest := by
  have hall : ∀ b ∈ s, decide (b ≠ newline) = true := by
    intro b hb
    exact decide_eq_true fun h => hnew (h ▸ hb)
  unfold lineRest
  rw [List.dropWhile_append_of_pos hall]
  cases hend <;> simp

/-- A byte 255 ends the value. -/
theorem value_eof (hnew : newline ∉ s) (heof : 255 ∉ s) (rest : List Byte) :
    valueText (s ++ 255 :: rest) = s ∧ valueRest (s ++ 255 :: rest) = rest := by
  induction s with
  | nil =>
    have hends : EndsLine 255 := Or.inl rfl
    rw [List.nil_append, valueText_cons, valueRest_cons, if_pos hends, if_pos hends]
    exact ⟨rfl, rfl⟩
  | cons b s ih =>
    rw [List.mem_cons, not_or] at hnew heof
    have hends : ¬ EndsLine b := not_endsLine (Ne.symm hnew.1) (Ne.symm heof.1)
    obtain ⟨htext, hrest⟩ := ih hnew.2 heof.2
    rw [List.cons_append, valueText_cons, valueRest_cons, if_neg hends, if_neg hends, htext, hrest]
    exact ⟨rfl, rfl⟩

/-- A line without a byte 255 is read, unless it is too long. -/
theorem readsLine_plain (heof : 255 ∉ lineValue file) :
    ReadsLine file maxLength ↔ (lineValue file).length ≤ valueLimit := by
  obtain ⟨s, ending, rest, rfl, hend, hnew⟩ := exists_line file
  rw [lineValue_line hend hnew] at heof ⊢
  obtain ⟨htext, hrest⟩ := value_line hend hnew heof
  unfold ReadsLine
  rw [lineValue_line hend hnew, lineRest_line hend hnew]
  constructor
  · intro ⟨block, hblock, _⟩
    by_contra hlt
    rw [fileReadValueBlock_crash (by rw [htext]; omega)] at hblock
    cases hblock
  · intro hle
    have htextLe : (valueText (s ++ ending)).length ≤ valueLimit := by rwa [htext]
    have hok := fileReadValueBlock_ok htextLe maxLength
    rwa [htext, hrest] at hok

/-- A cut that leaves no room for the last byte. -/
theorem cutValue_append_singleton (hpos : 0 < maxLength) (hle : maxLength ≤ s.length + 1)
    (b : Byte) : cutValue maxLength (s ++ [b]) = cutValue maxLength s := by
  have hall : maxLength ≤ (s ++ [b]).length ∧ maxLength ≠ 0 := by simp; omega
  unfold cutValue
  rw [if_pos hall, List.take_append_of_le_length (by omega)]
  split
  · rfl
  · exact List.take_of_length_le (by omega)

/-- Behind a byte 255 the line goes on, unless the file ends there. -/
theorem lineRest_eof (hnew : newline ∉ s) {rest : List Byte}
    (h : lineRest (s ++ 255 :: rest) = rest) : rest = [] := by
  obtain ⟨v, ending, rest', rfl, hend, hv⟩ := exists_line rest
  have hfile : s ++ 255 :: (v ++ ending) = (s ++ 255 :: v) ++ ending := by simp
  have hnew' : newline ∉ s ++ 255 :: v := by
    rw [List.mem_append, List.mem_cons]
    rintro (hs | h255 | hv')
    · exact hnew hs
    · exact absurd h255 (by decide)
    · exact hv hv'
  rw [hfile, lineRest_line hend hnew'] at h
  have hlen : rest'.length = v.length + ending.length := by rw [h, List.length_append]
  cases hend with
  | newline rest =>
    rw [List.length_cons] at hlen
    omega
  | eof => rw [← h]

/-- A file that is one line and the byte 255. -/
theorem line_eof (hnew : newline ∉ s) :
    lineValue (s ++ [255]) = s ++ [255] ∧ lineRest (s ++ [255]) = [] := by
  have hnew' : newline ∉ s ++ [255] := by
    rw [List.mem_append, List.mem_singleton]
    rintro (hs | h255)
    · exact hnew hs
    · exact absurd h255 (by decide)
  have hline := lineValue_line LineEnd.eof hnew'
  have hrest := lineRest_line LineEnd.eof hnew'
  rw [List.append_nil] at hline hrest
  exact ⟨hline, hrest⟩

/-- A terminator in the place of the byte 255. -/
theorem not_startsWith_eof (h : block.StartsWith (s ++ [0])) :
    ¬ block.StartsWith (s ++ [255] ++ [0]) := by
  intro h'
  have hzero := h.getElem? (i := s.length) (by simp)
  have heof := h'.getElem? (i := s.length) (by simp)
  rw [hzero] at heof
  simp at heof

/-- **A line of which only the last byte is 255** may be read, when it is at the end of the file
and that byte is cut off. -/
theorem readsLine_eof (hnew : newline ∉ s) (heof : 255 ∉ s) (rest : List Byte) :
    ReadsLine (s ++ 255 :: rest) maxLength ↔
      rest = [] ∧ s.length ≤ valueLimit ∧ 0 < maxLength ∧ maxLength ≤ s.length + 1 := by
  obtain ⟨htext, hrest⟩ := value_eof hnew heof rest
  obtain ⟨hline, hlineRest⟩ := line_eof hnew
  constructor
  · intro ⟨block, hblock, hfront⟩
    have hle : s.length ≤ valueLimit := by
      by_contra hlt
      rw [fileReadValueBlock_crash (by rw [htext]; omega)] at hblock
      cases hblock
    obtain ⟨block', hok, hfront'⟩ := fileReadValueBlock_ok (by rwa [htext]) maxLength
    rw [hok, hrest, Except.ok.injEq, Prod.mk.injEq] at hblock
    obtain ⟨rfl, hsame⟩ := hblock
    -- both leave the same behind only if there is nothing behind the byte 255
    obtain rfl := lineRest_eof hnew hsame.symm
    rw [hline] at hfront
    rw [htext] at hfront'
    refine ⟨rfl, hle, ?_⟩
    -- and if that byte is not cut off, the terminator is in its place
    by_contra hcut
    have hshort : ¬ (maxLength ≤ s.length ∧ maxLength ≠ 0) := by omega
    have hlong : ¬ (maxLength ≤ (s ++ [255]).length ∧ maxLength ≠ 0) := by
      rw [List.length_append, List.length_singleton]
      omega
    rw [cutValue, if_neg hlong] at hfront
    rw [cutValue, if_neg hshort] at hfront'
    exact not_startsWith_eof hfront' hfront
  · rintro ⟨rfl, hle, hpos, hcut⟩
    obtain ⟨block, hok, hfront⟩ := fileReadValueBlock_ok (by rwa [htext]) maxLength
    rw [hrest] at hok
    rw [htext] at hfront
    refine ⟨block, ?_, ?_⟩
    · rw [hok, hlineRest]
    · rwa [hline, cutValue_append_singleton hpos hcut]

/-- **When a line is read**: it is no longer than the lengths can count, and it has no byte 255,
unless that byte ends the file and is cut off. -/
theorem reads_line_iff (file : List Byte) (maxLength : ℕ) : ReadsLine file maxLength ↔
    255 ∉ lineValue file ∧ (lineValue file).length ≤ valueLimit ∨
      ∃ s, file = s ++ [255] ∧ 255 ∉ s ∧ newline ∉ s ∧ s.length ≤ valueLimit ∧
        0 < maxLength ∧ maxLength ≤ file.length := by
  by_cases hline : 255 ∈ lineValue file
  · obtain ⟨s, ending, rest, rfl, hend, hnew⟩ := exists_line file
    rw [lineValue_line hend hnew] at hline ⊢
    obtain ⟨u, v, rfl, hu⟩ := List.eq_append_cons_of_mem hline
    have hnewu : newline ∉ u := fun h => hnew (List.mem_append_left _ h)
    rw [List.append_assoc, List.cons_append, readsLine_eof hnewu hu]
    constructor
    · rintro ⟨hnil, hle, hpos, hcut⟩
      rw [hnil]
      exact Or.inr ⟨u, rfl, hu, hnewu, hle, hpos, by simpa using hcut⟩
    · rintro (⟨heof, -⟩ | ⟨s, hs, hsu, hnews, hle, hpos, hcut⟩)
      · exact absurd hline heof
      · -- the first byte 255 is the last one of the file
        have hu' : valueText (u ++ 255 :: (v ++ ending)) = u ∧
          valueRest (u ++ 255 :: (v ++ ending)) = v ++ ending := value_eof hnewu hu _
        rw [hs] at hcut
        rw [hs, (value_eof hnews hsu []).1, (value_eof hnews hsu []).2] at hu'
        obtain ⟨rfl, hnil⟩ := hu'
        exact ⟨hnil.symm, hle, hpos, by simpa using hcut⟩
  · rw [readsLine_plain hline]
    constructor
    · intro hle
      exact Or.inl ⟨hline, hle⟩
    · rintro (⟨-, hle⟩ | ⟨s, rfl, -, hnew, -⟩)
      · exact hle
      · rw [(line_eof hnew).1] at hline
        exact absurd (List.mem_append_right s (List.mem_singleton_self 255)) hline

/-- The line `aÿb`: the value ends at the second byte, and `b` is still to be read. -/
theorem reads_line_fails : ¬ ReadsLine [97, 255, 98, 10] 0 := by
  rintro ⟨block, hblock, -⟩
  have hle : (valueText [97, 255, 98, 10]).length ≤ valueLimit := by decide
  obtain ⟨block', hok, -⟩ := fileReadValueBlock_ok hle 0
  rw [hok] at hblock
  cases hblock

end Rds
