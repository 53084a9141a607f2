import Mathlib.Data.List.Induction
import Mathlib.Data.List.Nodup
import Mathlib.Data.List.Perm.Subperm
import Mathlib.Tactic.Common

/-!
# Doubly linked lists in a heap

Cells that hold a value and the addresses of their neighbours, in a heap that gives and takes
back addresses. `Represents` says which list a heap and its first address stand for.

* `Represents.push`, `Represents.remove`: a cell in front, and a cell taken out wherever it is,
  are `::` and deletion.
* `Represents.cell`: the neighbours of each cell.
* `Represents.length_le`: a walk from the first cell is over before it is longer than the heap.
* `Forward`: what such a walk comes past, also where the links back are not right.
-/

namespace DList

variable {A α : Type*}

/-- A cell: what it holds and its neighbours. -/
structure Cell (A α : Type*) where
  val : α
  next : Option A
  prev : Option A
  deriving DecidableEq, Repr

/-- The cells in use, each with its address. -/
abbrev Heap (A α : Type*) := List (A × Cell A α)

namespace Heap

variable [DecidableEq A]

/-- The cell at an address. -/
def get : Heap A α → A → Option (Cell A α)
  | [], _ => none
  | e :: h, a => if e.1 = a then some e.2 else get h a

/-- An address given back. -/
def free (h : Heap A α) (a : A) : Heap A α := h.filter (·.1 ≠ a)

/-- A cell stored, at a new address or over the one that was there. -/
def put (h : Heap A α) (a : A) (c : Cell A α) : Heap A α := (a, c) :: h.free a

/-- A new neighbour behind the cell at `p`. -/
def setNext (h : Heap A α) (p : A) (n : Option A) : Heap A α :=
  match h.get p with
  | some c => h.put p { c with next := n }
  | none => h

/-- A new neighbour before the cell at `p`. -/
def setPrev (h : Heap A α) (p : A) (n : Option A) : Heap A α :=
  match h.get p with
  | some c => h.put p { c with prev := n }
  | none => h

theorem get_free (h : Heap A α) (a b : A) :
    (h.free a).get b = if b = a then none else h.get b := by
  induction h with
  | nil => simp [free, get]
  | cons e h ih =>
    rw [free] at ih
    rw [free, List.filter_cons]
    by_cases hea : e.1 = a
    · rw [if_neg (by simpa using hea), ih, get]
      by_cases hb : b = a
      · rw [if_pos hb, if_pos hb]
      · rw [if_neg hb, if_neg hb, if_neg (by rw [hea]; exact Ne.symm hb)]
    · rw [if_pos (by simpa using hea), get, get, ih]
      by_cases hb : b = a
      · subst hb
        rw [if_neg hea, if_pos rfl, if_pos rfl]
      · rw [if_neg hb, if_neg hb]

theorem get_put (h : Heap A α) (a : A) (c : Cell A α) (b : A) :
    (h.put a c).get b = if b = a then some c else h.get b := by
  rw [put, get, get_free]
  by_cases hb : b = a
  · rw [if_pos hb.symm, if_pos hb]
  · rw [if_neg (Ne.symm hb), if_neg hb, if_neg hb]

/-- A cell that takes the place of the one at its address, if there is one. -/
theorem get_replace (h : Heap A α) (p : A) (f : Cell A α → Cell A α) (b : A) :
    ((h.get p).elim h fun c => h.put p (f c)).get b =
      if b = p then (h.get b).map f else h.get b := by
  cases hp : h.get p with
  | none =>
    by_cases hb : b = p
    · subst hb; simp [hp]
    · simp [hb]
  | some c =>
    simp only [Option.elim, get_put]
    by_cases hb : b = p
    · subst hb; simp [hp]
    · simp [hb]

theorem get_setNext (h : Heap A α) (p : A) (n : Option A) (b : A) :
    (h.setNext p n).get b =
      if b = p then (h.get b).map fun c => { c with next := n } else h.get b := by
  have hset : h.setNext p n = (h.get p).elim h fun c => h.put p { c with next := n } := by
    unfold setNext
    cases h.get p <;> rfl
  rw [hset, get_replace]

theorem get_setPrev (h : Heap A α) (p : A) (n : Option A) (b : A) :
    (h.setPrev p n).get b =
      if b = p then (h.get b).map fun c => { c with prev := n } else h.get b := by
  have hset : h.setPrev p n = (h.get p).elim h fun c => h.put p { c with prev := n } := by
    unfold setPrev
    cases h.get p <;> rfl
  rw [hset, get_replace]

/-- A new neighbour before a cell changes nothing for who walks on. -/
theorem forward_setPrev (h : Heap A α) (p : A) (n : Option A) (b : A) :
    ((h.setPrev p n).get b).map (fun c => (c.val, c.next)) =
      (h.get b).map fun c => (c.val, c.next) := by
  rw [get_setPrev]
  split
  · rw [Option.map_map]
    rfl
  · rfl

theorem forward_setNext (h : Heap A α) (p : A) (n : Option A) (b : A) :
    ((h.setNext p n).get b).map (fun c => (c.val, c.next)) =
      (h.get b).map fun c => (c.val, if b = p then n else c.next) := by
  rw [get_setNext]
  split
  · rw [Option.map_map]
    rfl
  · rfl

/-- What is there is at an address of the heap. -/
theorem mem_of_get {h : Heap A α} {a : A} (ha : (h.get a).isSome) : a ∈ h.map Prod.fst := by
  induction h with
  | nil => simp [get] at ha
  | cons e h ih =>
    rw [get] at ha
    by_cases hea : e.1 = a
    · exact hea ▸ List.mem_cons_self
    · rw [if_neg hea] at ha
      exact List.mem_cons_of_mem _ (ih ha)

end Heap

/-! ## Lists of cells -/

/-- The address of the first cell. -/
def headAddr (l : List (A × α)) : Option A := l.head?.map Prod.fst

/-- The address of the last cell. -/
def lastAddr (l : List (A × α)) : Option A := l.getLast?.map Prod.fst

@[simp] theorem headAddr_nil : headAddr ([] : List (A × α)) = none := rfl

@[simp] theorem headAddr_cons (x : A × α) (l : List (A × α)) : headAddr (x :: l) = some x.1 := rfl

@[simp] theorem lastAddr_nil : lastAddr ([] : List (A × α)) = none := rfl

@[simp] theorem lastAddr_concat (l : List (A × α)) (x : A × α) :
    lastAddr (l ++ [x]) = some x.1 := by simp [lastAddr]

theorem headAddr_append (l m : List (A × α)) : headAddr (l ++ m) = (headAddr l).or (headAddr m) := by
  cases l <;> simp [headAddr]

theorem lastAddr_cons (x : A × α) (l : List (A × α)) :
    lastAddr (x :: l) = (lastAddr l).or (some x.1) := by
  induction l using List.reverseRecOn with
  | nil => rfl
  | append_singleton l y _ => rw [← List.cons_append, lastAddr_concat, lastAddr_concat]; rfl

theorem headAddr_mem {l : List (A × α)} {a : A} (h : headAddr l = some a) : a ∈ l.map Prod.fst := by
  cases l with
  | nil => cases h
  | cons x l =>
    cases h
    exact List.mem_cons_self

theorem lastAddr_mem {l : List (A × α)} {a : A} (h : lastAddr l = some a) : a ∈ l.map Prod.fst := by
  induction l using List.reverseRecOn with
  | nil => cases h
  | append_singleton l x _ =>
    rw [lastAddr_concat] at h
    cases h
    simp

/-- The cells of `l` are linked in a row, with the neighbours `p` in front and `n` behind. -/
def Seg (h : A → Option (Cell A α)) : Option A → List (A × α) → Option A → Prop
  | _, [], _ => True
  | p, x :: l, n => h x.1 = some ⟨x.2, (headAddr l).or n, p⟩ ∧ Seg h (some x.1) l n

section Seg

variable {h g : A → Option (Cell A α)} {p n : Option A} {l m : List (A × α)}

theorem seg_append :
    Seg h p (l ++ m) n ↔ Seg h p l ((headAddr m).or n) ∧ Seg h ((lastAddr l).or p) m n := by
  induction l generalizing p with
  | nil => simp [Seg]
  | cons x l ih =>
    rw [List.cons_append, Seg, Seg, ih, headAddr_append, lastAddr_cons, Option.or_assoc,
      Option.or_assoc, and_assoc]
    rfl

theorem Seg.congr (hs : Seg h p l n) (hg : ∀ a ∈ l.map Prod.fst, g a = h a) : Seg g p l n := by
  induction l generalizing p with
  | nil => trivial
  | cons x l ih =>
    obtain ⟨hx, hs⟩ := hs
    refine ⟨?_, ih hs fun a ha => hg a (List.mem_cons_of_mem _ ha)⟩
    rw [hg x.1 List.mem_cons_self]
    exact hx

theorem Seg.isSome (hs : Seg h p l n) {a : A} (ha : a ∈ l.map Prod.fst) : (h a).isSome := by
  induction l generalizing p with
  | nil => cases ha
  | cons x l ih =>
    obtain ⟨hx, hs⟩ := hs
    rcases List.mem_cons.1 ha with rfl | ha
    · rw [hx]; rfl
    · exact ih hs ha

/-- Where a row of cells starts and ends decides the row. -/
theorem Seg.unique (hs : Seg h p l none) (ht : Seg h p m none) (hhead : headAddr l = headAddr m) :
    l = m := by
  induction l generalizing p m with
  | nil =>
    cases m with
    | nil => rfl
    | cons y m => cases hhead
  | cons x l ih =>
    cases m with
    | nil => cases hhead
    | cons y m =>
      obtain ⟨hx, hs⟩ := hs
      obtain ⟨hy, ht⟩ := ht
      have haddr : x.1 = y.1 := Option.some.inj hhead
      rw [← haddr, hx, Option.some.injEq, Cell.mk.injEq, Option.or_none, Option.or_none] at hy
      obtain ⟨hval, hnext, -⟩ := hy
      rw [ih hs (haddr ▸ ht) hnext, show x = y from Prod.ext haddr hval]

/-- A row of cells with another neighbour behind its last one. -/
theorem Seg.newNext {n' : Option A} (hs : Seg h p l n) (hnd : (l.map Prod.fst).Nodup)
    (hlast : ∀ a, lastAddr l = some a → g a = (h a).map fun c => { c with next := n' })
    (hg : ∀ a ∈ l.map Prod.fst, lastAddr l ≠ some a → g a = h a) : Seg g p l n' := by
  induction l using List.reverseRecOn with
  | nil => trivial
  | append_singleton l x _ =>
    rw [lastAddr_concat] at hlast hg
    obtain ⟨hs, hx, -⟩ := seg_append.1 hs
    rw [List.map_append, List.map_singleton] at hnd
    have hnot : x.1 ∉ l.map Prod.fst := by
      intro hmem
      exact (List.nodup_append.1 hnd).2.2 _ hmem _ (List.mem_singleton.2 rfl) rfl
    refine seg_append.2 ⟨hs.congr ?_, ?_, trivial⟩
    · intro a ha
      refine hg a (by rw [List.map_append]; exact List.mem_append_left _ ha) ?_
      intro heq
      exact hnot (Option.some.inj heq ▸ ha)
    · rw [hlast x.1 rfl, hx]
      rfl

/-- A row of cells with another neighbour before its first one. -/
theorem Seg.newPrev {p' : Option A} (hs : Seg h p l n) (hnd : (l.map Prod.fst).Nodup)
    (hfirst : ∀ a, headAddr l = some a → g a = (h a).map fun c => { c with prev := p' })
    (hg : ∀ a ∈ l.map Prod.fst, headAddr l ≠ some a → g a = h a) : Seg g p' l n := by
  cases l with
  | nil => trivial
  | cons x l =>
    obtain ⟨hx, hs⟩ := hs
    refine ⟨?_, hs.congr ?_⟩
    · rw [hfirst x.1 rfl, hx]
      rfl
    · intro a ha
      refine hg a (List.mem_cons_of_mem _ ha) ?_
      intro heq
      exact (List.nodup_cons.1 hnd).1 (Option.some.inj heq ▸ ha)

end Seg

/-! ## Lists in a heap -/

/-- **The heap stands for the list**, from its first cell on: the cells in use are those of the
list, each once, and they are linked in its order. -/
structure Represents [DecidableEq A] (h : Heap A α) (top : Option A) (l : List (A × α)) : Prop where
  top : top = headAddr l
  seg : Seg h.get none l none
  nodup : (l.map Prod.fst).Nodup
  alloc : ∀ a, (h.get a).isSome → a ∈ l.map Prod.fst

namespace Represents

variable [DecidableEq A] {h g : Heap A α} {top : Option A} {l m : List (A × α)} {a : A} {v : α}

theorem nil : Represents ([] : Heap A α) none [] where
  top := rfl
  seg := trivial
  nodup := List.nodup_nil
  alloc := fun a ha => by cases ha

/-- The cells in use are the cells of the list. -/
theorem get_isSome (hr : Represents h top l) (a : A) : (h.get a).isSome ↔ a ∈ l.map Prod.fst :=
  ⟨hr.alloc a, hr.seg.isSome⟩

/-- **The neighbours of a cell**: the last one of what is in front and the first one of what is
behind. -/
theorem cell (hr : Represents h top (l ++ (a, v) :: m)) :
    h.get a = some ⟨v, headAddr m, lastAddr l⟩ := by
  have hcell := (seg_append.1 hr.seg).2.1
  rwa [Option.or_none, Option.or_none] at hcell

/-- A heap stands for one list only. -/
theorem unique (hr : Represents h top l) (hr' : Represents h top m) : l = m :=
  hr.seg.unique hr'.seg (hr.top.symm.trans hr'.top)

theorem length_le (hr : Represents h top l) : l.length ≤ h.length := by
  have hsub : l.map Prod.fst ⊆ h.map Prod.fst := fun a ha =>
    Heap.mem_of_get ((hr.get_isSome a).2 ha)
  have hle := (List.subperm_of_subset hr.nodup hsub).length_le
  rwa [List.length_map, List.length_map] at hle

/-- **A new cell in front**: the old first one gets a neighbour before it. -/
theorem push (hr : Represents h top l) (ha : h.get a = none)
    (hg : ∀ b, g.get b = if b = a then some ⟨v, top, none⟩
      else if top = some b then (h.get b).map fun c => { c with prev := some a } else h.get b) :
    Represents g (some a) ((a, v) :: l) := by
  have hnot : a ∉ l.map Prod.fst := by
    intro hmem
    have hsome := (hr.get_isSome a).2 hmem
    rw [ha] at hsome
    cases hsome
  have hget : ∀ b ∈ l.map Prod.fst, g.get b =
      if top = some b then (h.get b).map fun c => { c with prev := some a } else h.get b := by
    intro b hb
    rw [hg, if_neg (fun hba : b = a => hnot (hba ▸ hb))]
  refine ⟨rfl, ⟨?_, ?_⟩, List.nodup_cons.2 ⟨hnot, hr.nodup⟩, ?_⟩
  · rw [hg, if_pos rfl, hr.top, Option.or_none]
  · refine hr.seg.newPrev hr.nodup ?_ ?_
    · intro b hb
      rw [hget b (headAddr_mem hb), if_pos (hr.top.trans hb)]
    · intro b hb hne
      rw [hget b hb, if_neg (fun htop => hne (hr.top ▸ htop))]
  · intro b hb
    rw [hg] at hb
    by_cases hba : b = a
    · exact hba ▸ List.mem_cons_self
    · rw [if_neg hba] at hb
      refine List.mem_cons_of_mem _ (hr.alloc b ?_)
      split at hb
      · rwa [Option.isSome_map] at hb
      · exact hb

/-- **A cell taken out**: its neighbours become neighbours of each other, and the address is
given back. -/
theorem remove (hr : Represents h top (l ++ (a, v) :: m))
    (hg : ∀ b, g.get b = if b = a then none
      else if lastAddr l = some b then (h.get b).map fun c => { c with next := headAddr m }
      else if headAddr m = some b then (h.get b).map fun c => { c with prev := lastAddr l }
      else h.get b) :
    Represents g (headAddr (l ++ m)) (l ++ m) := by
  have hnd := hr.nodup
  rw [List.map_append, List.map_cons, List.nodup_append] at hnd
  obtain ⟨hl, hm, hdisj⟩ := hnd
  obtain ⟨ham, hm⟩ := List.nodup_cons.1 hm
  have hal : a ∉ l.map Prod.fst := fun hmem => hdisj a hmem a List.mem_cons_self rfl
  have hlm : ∀ b ∈ l.map Prod.fst, b ∉ m.map Prod.fst := fun b hb hbm =>
    hdisj b hb b (List.mem_cons_of_mem _ hbm) rfl
  obtain ⟨hsl, -, hsm⟩ := seg_append.1 hr.seg
  refine ⟨rfl, seg_append.2 ⟨?_, ?_⟩, ?_, ?_⟩
  · -- in front: only the last cell has a new neighbour
    refine hsl.newNext hl ?_ ?_
    · intro b hb
      have hbl := lastAddr_mem hb
      rw [hg, if_neg (fun hba : b = a => hal (hba ▸ hbl)), if_pos hb, Option.or_none]
    · intro b hb hne
      rw [hg, if_neg (fun hba : b = a => hal (hba ▸ hb)), if_neg hne,
        if_neg (fun hbm => hlm b hb (headAddr_mem hbm))]
  · -- behind: only the first one
    refine hsm.newPrev hm ?_ ?_
    · intro b hb
      have hbm := headAddr_mem hb
      rw [hg, if_neg (fun hba : b = a => ham (hba ▸ hbm)),
        if_neg (fun hbl => hlm b (lastAddr_mem hbl) hbm), if_pos hb, Option.or_none]
    · intro b hb hne
      rw [hg, if_neg (fun hba : b = a => ham (hba ▸ hb)), if_neg (fun hbl => hlm b (lastAddr_mem hbl) hb),
        if_neg hne]
  · rw [List.map_append, List.nodup_append]
    exact ⟨hl, hm, fun x hx y hy hxy => hlm x hx (hxy ▸ hy)⟩
  · intro b hb
    rw [hg] at hb
    by_cases hba : b = a
    · rw [if_pos hba] at hb
      cases hb
    · rw [if_neg hba] at hb
      have hin : (h.get b).isSome := by
        split at hb
        · rwa [Option.isSome_map] at hb
        · split at hb
          · rwa [Option.isSome_map] at hb
          · exact hb
      have hmem := hr.alloc b hin
      rw [List.map_append, List.map_cons] at hmem
      rw [List.map_append]
      rcases List.mem_append.1 hmem with hmem | hmem
      · exact List.mem_append_left _ hmem
      · rcases List.mem_cons.1 hmem with hmem | hmem
        · exact absurd hmem hba
        · exact List.mem_append_right _ hmem

end Represents

/-! ## Walking on -/

/-- **A walk from `top` comes past the cells of `l`** and ends. It does not look back. -/
def Forward (h : A → Option (Cell A α)) : Option A → List (A × α) → Prop
  | top, [] => top = none
  | top, x :: l => top = some x.1 ∧ ∃ c, h x.1 = some c ∧ c.val = x.2 ∧ Forward h c.next l

section Forward

variable {h g : A → Option (Cell A α)} {top : Option A} {l : List (A × α)}

theorem Seg.forward {p : Option A} (hs : Seg h p l none) : Forward h (headAddr l) l := by
  induction l generalizing p with
  | nil => rfl
  | cons x l ih =>
    obtain ⟨hx, hs⟩ := hs
    rw [Option.or_none] at hx
    exact ⟨rfl, _, hx, rfl, ih hs⟩

theorem Represents.forward [DecidableEq A] {h : Heap A α} (hr : Represents h top l) :
    Forward h.get top l := by
  rw [hr.top]
  exact hr.seg.forward

/-- A walk depends on the cells it comes past, but for their links back. -/
theorem Forward.congr (hf : Forward h top l)
    (hg : ∀ a ∈ l.map Prod.fst,
      (g a).map (fun c => (c.val, c.next)) = (h a).map fun c => (c.val, c.next)) :
    Forward g top l := by
  induction l generalizing top with
  | nil => exact hf
  | cons x l ih =>
    obtain ⟨htop, c, hc, hval, hf⟩ := hf
    have hx := hg x.1 List.mem_cons_self
    rw [hc, Option.map_some] at hx
    obtain ⟨c', hc', heq⟩ := Option.map_eq_some_iff.1 hx
    obtain ⟨hval', hnext⟩ := Prod.mk.inj heq
    refine ⟨htop, c', hc', hval'.trans hval, ?_⟩
    rw [hnext]
    exact ih hf fun a ha => hg a (List.mem_cons_of_mem _ ha)

/-- Cells at different addresses are no more than the heap has. -/
theorem Forward.length_le [DecidableEq A] {h : Heap A α} (hf : Forward h.get top l)
    (hnd : (l.map Prod.fst).Nodup) : l.length ≤ h.length := by
  have hsub : l.map Prod.fst ⊆ h.map Prod.fst := by
    intro a ha
    refine Heap.mem_of_get ?_
    clear hnd
    induction l generalizing top with
    | nil => cases ha
    | cons x l ih =>
      obtain ⟨-, c, hc, -, hf⟩ := hf
      rcases List.mem_cons.1 ha with rfl | ha
      · rw [hc]
        rfl
      · exact ih hf ha
  have hle := (List.subperm_of_subset hnd hsub).length_le
  rwa [List.length_map, List.length_map] at hle

/-- A row of cells, and a walk from where it ends. -/
theorem Seg.forward_append {p : Option A} {m : List (A × α)} (hs : Seg h p l (headAddr m))
    (hf : Forward h (headAddr m) m) : Forward h (headAddr (l ++ m)) (l ++ m) := by
  induction l generalizing p with
  | nil => exact hf
  | cons x l ih =>
    obtain ⟨hx, hs⟩ := hs
    rw [← headAddr_append] at hx
    exact ⟨rfl, _, hx, rfl, ih hs⟩

/-- **A cell that is passed over**: from the moment the one in front of it points behind it, a
walk comes past the others, whatever becomes of the cell. -/
theorem Represents.forward_unlinked [DecidableEq A] {h : Heap A α} {a : A} {v : α}
    {m : List (A × α)} (hr : Represents h top (l ++ (a, v) :: m))
    (hg : ∀ b, b ≠ a → (g b).map (fun c => (c.val, c.next)) =
      (h.get b).map fun c => (c.val, if lastAddr l = some b then headAddr m else c.next)) :
    Forward g (headAddr (l ++ m)) (l ++ m) := by
  have hnd := hr.nodup
  rw [List.map_append, List.map_cons, List.nodup_append] at hnd
  obtain ⟨hl, hm, hdisj⟩ := hnd
  obtain ⟨ham, -⟩ := List.nodup_cons.1 hm
  obtain ⟨hsl, -, hsm⟩ := seg_append.1 hr.seg
  have hlast : ∀ b ∈ m.map Prod.fst, lastAddr l ≠ some b := by
    intro b hb hlb
    exact hdisj b (lastAddr_mem hlb) b (List.mem_cons_of_mem _ hb) rfl
  -- the cells as they would be if only the one in front were changed
  let g' : A → Option (Cell A α) := fun b =>
    if lastAddr l = some b then (h.get b).map fun c => { c with next := headAddr m } else h.get b
  have hfront : Seg g' none l (headAddr m) := by
    refine hsl.newNext hl ?_ ?_
    · intro b hb
      exact if_pos hb
    · intro b _ hb
      exact if_neg hb
  have hbehind : Forward g' (headAddr m) m := by
    refine hsm.forward.congr ?_
    intro b hb
    simp only [g', if_neg (hlast b hb)]
  refine (hfront.forward_append hbehind).congr ?_
  intro b hb
  have hba : b ≠ a := by
    rintro rfl
    rw [List.map_append] at hb
    rcases List.mem_append.1 hb with hb | hb
    · exact hdisj b hb b List.mem_cons_self rfl
    · exact ham hb
  rw [hg b hba]
  by_cases hb' : lastAddr l = some b
  · simp only [g', if_pos hb', Option.map_map, Function.comp_def]
  · simp only [g', if_neg hb']

end Forward

end DList
