import Rds.Lib.Invariant
import Rds.Spec.MemManagement

/-!
# The collector is a list

Seen from its first item on, the collector is a list of items: pushing is `::`, and removing
deletes what the search finds.

* `ssdsGcSearch_eq`: the search finds the first item that matches.
* `ssdsGcPush_view`, `ssdsGcRemove_view`: one operation.
* `ssdsGcCleanup_view`: a cleanup visits every item once.
* `gc_refines_list`: every run of the collector is a run of the list.
-/

namespace Rds

open DList

/-- Items as a list, the newest first, each with its address. -/
abbrev GcItems := List (Address × SsdsGcItem)

/-- What a cleanup of these items gives back. -/
def releases (l : GcItems) : List Release := l.flatMap fun x => x.2.release

/-- The operations that calls are made of. -/
inductive GcOp
  | push (data : AllocData) (type : AllocType) (block : ItemBlock)
  | remove (data : AllocData) (type : AllocType)
  deriving DecidableEq, Repr

/-- What one operation is for: an item more in front, or the first item that matches taken
out. Without a block for the item everything is given back. -/
def GcOp.onList (l : GcItems) : GcOp → Except (List Release) GcItems
  | .push _ _ none => .error (releases l)
  | .push data type (some (a, junk)) => .ok ((a, newItem data type junk) :: l)
  | .remove data type => .ok (l.eraseP fun x => x.2.matches data type)

/-- The operations of a call. -/
def GcCall.ops : GcCall → List GcOp
  | .malloc _ newPtr block => (newPtr.map fun p => GcOp.push (.ofPtr p) .ptr block).toList
  | .calloc _ _ newPtr block => (newPtr.map fun p => GcOp.push (.ofPtr p) .ptr block).toList
  | .realloc _ _ none _ => []
  | .realloc oldPtr _ (some newPtr) block =>
    if newPtr ≠ oldPtr then [.remove (.ofPtr oldPtr) .ptr, .push (.ofPtr newPtr) .ptr block] else []
  | .free ptr => [.remove (.ofPtr ptr) .ptr]
  | .socket newSocket block => (newSocket.map fun s => GcOp.push (.ofSocket s) .socket block).toList
  | .accept newSocket block => (newSocket.map fun s => GcOp.push (.ofSocket s) .socket block).toList
  | .close fd => [.remove (.ofSocket fd) .socket]
  | .push data type block => [.push data type block]
  | .remove data type => [.remove data type]

/-- A call on a list of items. -/
def GcCall.onList (l : GcItems) (call : GcCall) : Except (List Release) GcItems :=
  call.ops.foldlM GcOp.onList l

/-- A run on lists of items. -/
def listRun (calls : List GcCall) : Except (List Release) GcItems :=
  calls.foldlM GcCall.onList []

/-- **The collector holds these items**, in this order. -/
abbrev SsdsGc.Holds (gc : SsdsGc) (l : GcItems) : Prop := Represents gc.heap gc.top l

variable {gc : SsdsGc} {l : GcItems} {data : AllocData} {type : AllocType}

theorem derefItem_eq {heap : Heap Address SsdsGcItem} {a : Address} {c : Cell Address SsdsGcItem}
    (h : heap.get a = some c) : derefItem heap a = .ok c := by
  unfold derefItem
  rw [h]

theorem storeNext_eq {heap : Heap Address SsdsGcItem} {p : Address} (h : (heap.get p).isSome)
    (n : Option Address) : storeNext heap p n = .ok (heap.setNext p n) := by
  obtain ⟨c, hc⟩ := Option.isSome_iff_exists.1 h
  unfold storeNext
  rw [derefItem_eq hc]
  rfl

theorem storePrev_eq {heap : Heap Address SsdsGcItem} {p : Address} (h : (heap.get p).isSome)
    (n : Option Address) : storePrev heap p n = .ok (heap.setPrev p n) := by
  obtain ⟨c, hc⟩ := Option.isSome_iff_exists.1 h
  unfold storePrev
  rw [derefItem_eq hc]
  rfl

/-! ## Searching and cleaning up -/

theorem searchLoop_eq {heap : Heap Address SsdsGcItem} {p : Option Address} {n : ℕ}
    (hs : Seg heap.get p l none) (hn : l.length ≤ n) :
    searchLoop heap data type n (headAddr l) =
      .ok ((l.find? fun x => x.2.matches data type).map Prod.fst) := by
  induction l generalizing p n with
  | nil => cases n <;> rfl
  | cons x l ih =>
    obtain ⟨n, rfl⟩ : ∃ k, n = k + 1 := ⟨n - 1, by rw [List.length_cons] at hn; omega⟩
    obtain ⟨hx, hs⟩ := hs
    rw [Option.or_none] at hx
    rw [headAddr_cons, searchLoop, derefItem_eq hx, List.find?_cons]
    simp only [bind, Except.bind]
    cases hm : x.2.matches data type with
    | true => rfl
    | false => exact ih hs (by rw [List.length_cons] at hn; omega)

/-- **The search finds the first item that matches.** -/
theorem ssdsGcSearch_eq (hr : gc.Holds l) (data : AllocData) (type : AllocType) :
    ssdsGcSearch gc data type = .ok ((l.find? fun x => x.2.matches data type).map Prod.fst) := by
  unfold ssdsGcSearch
  rw [hr.top]
  exact searchLoop_eq hr.seg hr.length_le

theorem cleanupLoop_eq {heap : Heap Address SsdsGcItem} {p : Option Address} {n : ℕ}
    (hs : Seg heap.get p l none) (hnd : (l.map Prod.fst).Nodup) (hn : l.length ≤ n) :
    ∃ heap', cleanupLoop n heap (headAddr l) = .ok (releases l, heap') ∧
      ∀ b, heap'.get b = if b ∈ l.map Prod.fst then none else heap.get b := by
  induction l generalizing heap p n with
  | nil => exact ⟨heap, by cases n <;> rfl, fun b => rfl⟩
  | cons x l ih =>
    obtain ⟨n, rfl⟩ : ∃ k, n = k + 1 := ⟨n - 1, by rw [List.length_cons] at hn; omega⟩
    obtain ⟨hx, hs⟩ := hs
    rw [Option.or_none] at hx
    obtain ⟨hnot, hnd⟩ := List.nodup_cons.1 hnd
    -- the rest does not lie at the address that was freed
    have hrest : Seg (heap.free x.1).get (some x.1) l none := by
      refine hs.congr ?_
      intro a ha
      rw [Heap.get_free, if_neg (fun hax : a = x.1 => hnot (hax ▸ ha))]
    have hlen : l.length ≤ n := by rw [List.length_cons] at hn; omega
    obtain ⟨heap', hloop, hget⟩ := ih hrest hnd hlen
    refine ⟨heap', ?_, ?_⟩
    · rw [headAddr_cons, cleanupLoop, derefItem_eq hx]
      simp only [bind, Except.bind]
      rw [hloop]
      rfl
    · intro b
      rw [hget b, Heap.get_free, List.map_cons]
      by_cases hbx : b = x.1
      · rw [if_pos hbx, ite_self, if_pos]
        exact hbx ▸ List.mem_cons_self
      · by_cases hb : b ∈ l.map Prod.fst
        · rw [if_pos hb, if_pos (List.mem_cons_of_mem _ hb)]
        · rw [if_neg hb, if_neg hbx, if_neg]
          intro hmem
          rcases List.mem_cons.1 hmem with h | h
          · exact hbx h
          · exact hb h

/-- **A cleanup visits every item once**, in order, and no item is left. -/
theorem ssdsGcCleanup_view (hr : gc.Holds l) :
    ∃ heap', ssdsGcCleanup gc = .ok (releases l, heap') ∧ ∀ a, heap'.get a = none := by
  obtain ⟨heap', hloop, hget⟩ := cleanupLoop_eq hr.seg hr.nodup hr.length_le
  refine ⟨heap', ?_, ?_⟩
  · unfold ssdsGcCleanup
    rw [hr.top]
    exact hloop
  · intro a
    rw [hget a]
    split
    · rfl
    · rename_i hnot
      exact Option.not_isSome_iff_eq_none.1 fun hsome => hnot (hr.alloc a hsome)

/-! ## Pushing and removing -/

/-- What became of the collector agrees with what became of the list. -/
def Agrees : Except Halt GcState → Except (List Release) GcItems → Prop
  | .ok (.running gc), .ok l => gc.Holds l
  | .ok (.exited released), .error released' => released = released'
  | _, _ => False

/-- An item taken out, as the heap shows it. -/
theorem SsdsGc.Holds.unlink {gc' : SsdsGc} {l₁ l₂ : GcItems} {x : Address × SsdsGcItem}
    (hr : gc.Holds (l₁ ++ x :: l₂)) (htop : gc'.top = headAddr (l₁ ++ l₂))
    (hg : ∀ b, gc'.heap.get b = if b = x.1 then none
      else if lastAddr l₁ = some b then (gc.heap.get b).map fun c => { c with next := headAddr l₂ }
      else if headAddr l₂ = some b then (gc.heap.get b).map fun c => { c with prev := lastAddr l₁ }
      else gc.heap.get b) : gc'.Holds (l₁ ++ l₂) := by
  unfold Holds
  rw [htop]
  exact hr.remove hg

/-- The first item stays the first one when one behind it is taken out. -/
theorem headAddr_unlink {l₁ l₂ : GcItems} {p : Address} (x : Address × SsdsGcItem)
    (hp : lastAddr l₁ = some p) : headAddr (l₁ ++ x :: l₂) = headAddr (l₁ ++ l₂) := by
  cases l₁ with
  | nil => cases hp
  | cons y l₁ => rfl

/-- The first element that matches, and the list without it. -/
theorem find_eraseP {α : Type} (p : α → Bool) (l : List α) :
    (l.find? p = none ∧ l.eraseP p = l) ∨
      ∃ l₁ x l₂, l = l₁ ++ x :: l₂ ∧ l.find? p = some x ∧ l.eraseP p = l₁ ++ l₂ := by
  cases hfind : l.find? p with
  | none =>
    refine Or.inl ⟨rfl, List.eraseP_of_forall_not ?_⟩
    intro x hx
    simpa using List.find?_eq_none.1 hfind x hx
  | some x =>
    obtain ⟨hmatch, l₁, l₂, rfl, hfront⟩ := List.find?_eq_some_iff_append.1 hfind
    refine Or.inr ⟨l₁, x, l₂, rfl, rfl, ?_⟩
    rw [List.eraseP_append_right _ (by simpa using hfront), List.eraseP_cons, hmatch]
    rfl

/-- **Removing deletes the first item that matches** and nothing else. -/
theorem ssdsGcRemove_view (hr : gc.Holds l) (data : AllocData) (type : AllocType) :
    ∃ gc', ssdsGcRemove gc data type = .ok gc' ∧
      gc'.Holds (l.eraseP fun x => x.2.matches data type) := by
  unfold ssdsGcRemove
  rw [ssdsGcSearch_eq hr]
  simp only [bind, Except.bind]
  obtain ⟨hfind, herase⟩ | ⟨l₁, x, l₂, rfl, hfind, herase⟩ :=
    find_eraseP (fun x => x.2.matches data type) l
  · rw [hfind, herase]
    exact ⟨gc, rfl, hr⟩
  · rw [hfind, herase]
    have hcell : gc.heap.get x.1 = some ⟨x.2, headAddr l₂, lastAddr l₁⟩ := hr.cell
    have hnext : ∀ b, headAddr l₂ = some b → (gc.heap.get b).isSome := fun b hb =>
      (hr.get_isSome b).2 (by simpa using Or.inr (Or.inr (headAddr_mem hb)))
    have hprev : ∀ b, lastAddr l₁ = some b → (gc.heap.get b).isSome := fun b hb =>
      (hr.get_isSome b).2 (by simpa using Or.inl (lastAddr_mem hb))
    simp only [Option.map_some, derefItem_eq hcell]
    -- the four cases of the source: a neighbour behind the item or none, one before it or none
    cases hn : headAddr l₂ with
    | none =>
      have h₂ : l₂ = [] := by simpa [headAddr] using hn
      cases hp : lastAddr l₁ with
      | none =>
        have h₁ : l₁ = [] := by simpa [lastAddr] using hp
        subst h₁ h₂
        refine ⟨_, rfl, hr.unlink rfl ?_⟩
        intro b
        exact Heap.get_free _ _ _
      | some p =>
        simp only [storeNext_eq (hprev p hp)]
        refine ⟨_, rfl, hr.unlink (hr.top.trans (headAddr_unlink x hp)) ?_⟩
        intro b
        simp only [Heap.get_free, Heap.get_setNext, hn, hp, Option.some.injEq, eq_comm (a := b)]
        simp
    | some n =>
      cases hp : lastAddr l₁ with
      | none =>
        have h₁ : l₁ = [] := by simpa [lastAddr] using hp
        subst h₁
        simp only [storePrev_eq (hnext n hn)]
        refine ⟨_, rfl, hr.unlink hn.symm ?_⟩
        intro b
        simp only [Heap.get_free, Heap.get_setPrev, hn, hp, Option.some.injEq, eq_comm (a := b)]
        simp
      | some p =>
        have hpn : p ≠ n := by
          rintro rfl
          have hnd := hr.nodup
          rw [List.map_append, List.map_cons, List.nodup_append] at hnd
          exact hnd.2.2 p (lastAddr_mem hp) p (List.mem_cons_of_mem _ (headAddr_mem hn)) rfl
        simp only [storeNext_eq (hprev p hp)]
        rw [storePrev_eq]
        · refine ⟨_, rfl, hr.unlink (hr.top.trans (headAddr_unlink x hp)) ?_⟩
          intro b
          simp only [Heap.get_free, Heap.get_setPrev, Heap.get_setNext, hn, hp]
          by_cases hbp : b = p
          · subst hbp
            simp [hpn]
          · simp [hbp, Ne.symm hbp, eq_comm (a := b) (b := n)]
        · rw [Heap.get_setNext, if_neg (Ne.symm hpn)]
          exact hnext n hn

/-- A block for an item that is not in use. -/
def ItemBlock.Fresh (block : ItemBlock) (gc : SsdsGc) : Prop :=
  ∀ a junk, block = some (a, junk) → gc.heap.get a = none

/-- **Pushing is `::`**; without a block for the item, everything is given back. -/
theorem ssdsGcPush_view (hr : gc.Holds l) {block : ItemBlock} (hfresh : block.Fresh gc) :
    Agrees (ssdsGcPush gc data type block) (GcOp.onList l (.push data type block)) := by
  unfold ssdsGcPush GcOp.onList
  cases block with
  | none =>
    obtain ⟨heap', hclean, -⟩ := ssdsGcCleanup_view hr
    simp only [hclean, bind, Except.bind]
    rfl
  | some b =>
    obtain ⟨newAddr, junk⟩ := b
    have hnew : gc.heap.get newAddr = none := hfresh newAddr junk rfl
    cases htop : gc.top with
    | none =>
      refine hr.push hnew ?_
      intro b
      simp only [Heap.get_put, htop]
      rfl
    | some top =>
      have hne : top ≠ newAddr := by
        rintro rfl
        have hmem := (hr.get_isSome top).2 (headAddr_mem (hr.top.symm.trans htop))
        rw [hnew] at hmem
        cases hmem
      have hsome : (gc.heap.get top).isSome :=
        (hr.get_isSome top).2 (headAddr_mem (hr.top.symm.trans htop))
      simp only [bind, Except.bind]
      rw [storePrev_eq (by rw [Heap.get_put, if_neg hne]; exact hsome)]
      simp only
      rw [storeNext_eq]
      · refine hr.push hnew ?_
        intro b
        simp only [Heap.get_setNext, Heap.get_setPrev, Heap.get_put, htop, Option.some.injEq]
        by_cases hb : b = newAddr
        · subst hb
          simp [Ne.symm hne]
        · simp [hb, eq_comm (a := b)]
      · rw [Heap.get_setPrev, if_neg (Ne.symm hne), Heap.get_put, if_pos rfl]
        rfl

/-! ## Calls and runs -/

/-- The block for a new item is not in use when the call asks for it; `ssds_realloc` asks
after it has taken the old item out. -/
def GcCall.Fresh (gc : SsdsGc) : GcCall → Prop
  | .malloc _ _ block | .calloc _ _ _ block => block.Fresh gc
  | .socket _ block | .accept _ block | .push _ _ block => block.Fresh gc
  | .realloc oldPtr size newPtr block =>
    newPtr.isSome → newPtr ≠ some oldPtr →
      ∀ gc', ssdsGcRemovePtr (gc.sized size) oldPtr = .ok gc' → block.Fresh gc'
  | .free _ | .close _ | .remove _ _ => True

/-- A call of one operation. -/
theorem GcCall.onList_single {call : GcCall} {op : GcOp} (h : call.ops = [op]) (l : GcItems) :
    call.onList l = op.onList l := by
  unfold GcCall.onList
  rw [h, List.foldlM_cons]
  simp only [List.foldlM_nil, bind_pure]

/-- A block that stays where it is. -/
theorem GcCall.onList_stayed (l : GcItems) (ptr : Address) (size : ℤ) (block : ItemBlock) :
    (GcCall.realloc ptr size (some ptr) block).onList l = .ok l := by
  have hops : (GcCall.realloc ptr size (some ptr) block).ops = [] := if_neg (not_not_intro rfl)
  unfold GcCall.onList
  rw [hops]
  rfl

/-- A block that moves. -/
theorem GcCall.onList_moved {oldPtr p : Address} (hp : p ≠ oldPtr) (l : GcItems) (size : ℤ)
    (block : ItemBlock) : (GcCall.realloc oldPtr size (some p) block).onList l =
      GcOp.onList (l.eraseP fun x => x.2.matches (.ofPtr oldPtr) .ptr)
        (.push (.ofPtr p) .ptr block) := by
  have hops : (GcCall.realloc oldPtr size (some p) block).ops =
      [.remove (.ofPtr oldPtr) .ptr, .push (.ofPtr p) .ptr block] := if_pos hp
  have hremove : GcOp.onList l (.remove (.ofPtr oldPtr) .ptr) =
      .ok (l.eraseP fun x => x.2.matches (.ofPtr oldPtr) .ptr) := rfl
  unfold GcCall.onList
  rw [hops, List.foldlM_cons, bind_of_ok hremove, List.foldlM_cons]
  simp only [List.foldlM_nil, bind_pure]

theorem ssdsMalloc_view (hr : gc.Holds l) {block : ItemBlock} (hfresh : block.Fresh gc) (size : ℤ)
    (newPtr : Option Address) :
    Agrees (ssdsMalloc gc size newPtr block) (GcCall.onList l (.malloc size newPtr block)) := by
  cases newPtr with
  | none => exact hr
  | some p =>
    have hr' : ((gc.count 1).sized size).Holds l := hr
    rw [GcCall.onList_single rfl]
    exact ssdsGcPush_view hr' hfresh

theorem ssdsSocket_view (hr : gc.Holds l) {block : ItemBlock} (hfresh : block.Fresh gc)
    (newSocket : Option Fd) :
    Agrees (ssdsSocket gc newSocket block) (GcCall.onList l (.socket newSocket block)) := by
  cases newSocket with
  | none => exact hr
  | some fd =>
    have hr' : (gc.count 1).Holds l := hr
    rw [GcCall.onList_single rfl]
    exact ssdsGcPush_view hr' hfresh

/-- **A block that moves** is taken out and put on top. -/
theorem ssdsGcRealloc_view (hr : gc.Holds l) {oldPtr : Address} {size : ℤ}
    {newPtr : Option Address} {block : ItemBlock}
    (hfresh : (GcCall.realloc oldPtr size newPtr block).Fresh gc) :
    Agrees (ssdsGcRealloc gc oldPtr size newPtr block)
      (GcCall.onList l (.realloc oldPtr size newPtr block)) := by
  cases newPtr with
  | none => exact hr
  | some p =>
    by_cases hp : p = oldPtr
    · rw [hp, GcCall.onList_stayed]
      simp only [ssdsGcRealloc, ne_eq, not_true_eq_false, if_false]
      exact hr
    · have hr₁ : (gc.sized size).Holds l := hr
      obtain ⟨gc', hremove, hr'⟩ := ssdsGcRemove_view hr₁ (.ofPtr oldPtr) .ptr
      have hfresh' : block.Fresh gc' :=
        hfresh rfl (fun h => hp (Option.some.inj h)) gc' hremove
      have hrun : ssdsGcRealloc gc oldPtr size (some p) block = ssdsGcPushPtr gc' p block := by
        simp only [ssdsGcRealloc, ne_eq, hp, not_false_eq_true, if_true, ssdsGcRemovePtr, hremove,
          bind, Except.bind]
      rw [hrun, GcCall.onList_moved hp]
      exact ssdsGcPush_view hr' hfresh'

/-- **One call** does to the collector what its operations do to the list. -/
theorem GcCall.run_view (hr : gc.Holds l) {call : GcCall} (hfresh : call.Fresh gc) :
    Agrees (call.run gc) (call.onList l) := by
  cases call with
  | malloc size newPtr block => exact ssdsMalloc_view hr hfresh size newPtr
  | calloc nItems size newPtr block => exact ssdsMalloc_view hr hfresh (nItems * size) newPtr
  | realloc oldPtr size newPtr block => exact ssdsGcRealloc_view hr hfresh
  | socket newSocket block => exact ssdsSocket_view hr hfresh newSocket
  | accept newSocket block => exact ssdsSocket_view hr hfresh newSocket
  | free ptr =>
    have hr₁ : (gc.count (-1)).Holds l := hr
    obtain ⟨gc', hremove, hr'⟩ := ssdsGcRemove_view hr₁ (.ofPtr ptr) .ptr
    simp only [GcCall.run, ssdsFree, ssdsGcRemovePtr, hremove, bind, Except.bind]
    exact hr'
  | close fd =>
    have hr₁ : (gc.count (-1)).Holds l := hr
    obtain ⟨gc', hremove, hr'⟩ := ssdsGcRemove_view hr₁ (.ofSocket fd) .socket
    simp only [GcCall.run, ssdsClose, ssdsGcRemoveSocket, hremove, bind, Except.bind]
    exact hr'
  | push data type block =>
    rw [GcCall.onList_single rfl]
    exact ssdsGcPush_view hr hfresh
  | remove data type =>
    obtain ⟨gc', hremove, hr'⟩ := ssdsGcRemove_view hr data type
    simp only [GcCall.run, hremove, bind, Except.bind]
    exact hr'

/-- What malloc promises about a step of a run. -/
def FreshStep (st : Except Halt GcState) (call : GcCall) : Prop :=
  ∀ gc, st = .ok (.running gc) → call.Fresh gc

/-- **A run** of the collector does what the run of the list does. -/
theorem gcRun_view {calls : List GcCall} :
    ∀ {st : Except Halt GcState} {lst : Except (List Release) GcItems}, Agrees st lst →
      Invariant.Along gcStep FreshStep st calls →
      Agrees (calls.foldl gcStep st) (lst >>= fun l => calls.foldlM GcCall.onList l) := by
  induction calls with
  | nil =>
    intro st lst h _
    simpa only [List.foldl_nil, List.foldlM_nil, bind_pure] using h
  | cons call calls ih =>
    intro st lst h ⟨hfresh, hrest⟩
    rw [List.foldl_cons]
    match st, lst, h with
    | .ok (.running gc), .ok l, h =>
      have hstep : Agrees (gcStep (.ok (.running gc)) call) (call.onList l) :=
        GcCall.run_view h (hfresh gc rfl)
      have hrun := ih hstep hrest
      simpa only [bind, Except.bind, List.foldlM_cons] using hrun
    | .ok (.exited released), .error released', h =>
      have hrun := @ih (.ok (.exited released)) (.error released') h hrest
      exact hrun

/-- **The shape of the collector**: its items are those of the list, and every link is right. -/
structure SsdsGc.Shaped (gc : SsdsGc) (l : GcItems) : Prop where
  top : gc.top = headAddr l
  item : ∀ l₁ x l₂, l = l₁ ++ x :: l₂ → gc.heap.get x.1 = some ⟨x.2, headAddr l₂, lastAddr l₁⟩
  nodup : (l.map Prod.fst).Nodup
  inUse : ∀ a, (gc.heap.get a).isSome ↔ a ∈ l.map Prod.fst
  topPrev : ∀ a c, gc.top = some a → gc.heap.get a = some c → c.prev = none
  back : ∀ a c b, gc.heap.get a = some c → c.next = some b →
    ∃ c', gc.heap.get b = some c' ∧ c'.prev = some a

theorem SsdsGc.Holds.shaped (hr : gc.Holds l) : gc.Shaped l where
  top := hr.top
  item := by
    rintro l₁ x l₂ rfl
    exact hr.cell
  nodup := hr.nodup
  inUse := hr.get_isSome
  topPrev := by
    intro a c htop hc
    cases l with
    | nil => exact absurd (hr.top.symm.trans htop) (by simp)
    | cons x l =>
      obtain rfl : x.1 = a := Option.some.inj (hr.top.symm.trans htop)
      have hcell := hr.cell (l := []) (m := l) (a := x.1) (v := x.2)
      rw [hcell] at hc
      cases hc
      rfl
  back := by
    intro a c b hc hnext
    obtain ⟨x, hx, rfl⟩ := List.mem_map.1 (hr.alloc a (by rw [hc]; rfl))
    obtain ⟨l₁, l₂, rfl⟩ := List.append_of_mem hx
    have hcell := hr.cell (l := l₁) (m := l₂) (a := x.1) (v := x.2)
    rw [hcell] at hc
    cases hc
    cases l₂ with
    | nil => cases hnext
    | cons y l₂ =>
      cases hnext
      have hr' : gc.Holds ((l₁ ++ [x]) ++ y :: l₂) := by simpa using hr
      exact ⟨_, hr'.cell, lastAddr_concat l₁ x⟩

/-- **What the collector has in common with the list**: its shape, what a search finds and
removing deletes, and that a cleanup visits every item once. -/
structure SsdsGc.Refines (gc : SsdsGc) (l : GcItems) : Prop where
  shaped : gc.Shaped l
  search : ∀ data type,
    (ssdsGcSearch gc data type = .ok none ∧ l.eraseP (fun x => x.2.matches data type) = l) ∨
      ∃ l₁ x l₂, l = l₁ ++ x :: l₂ ∧ ssdsGcSearch gc data type = .ok (some x.1) ∧
        l.eraseP (fun x => x.2.matches data type) = l₁ ++ l₂
  cleanup : ∃ heap', ssdsGcCleanup gc = .ok (releases l, heap') ∧ ∀ a, heap'.get a = none

theorem SsdsGc.Holds.refines (hr : gc.Holds l) : gc.Refines l where
  shaped := hr.shaped
  search := by
    intro data type
    rw [ssdsGcSearch_eq hr]
    obtain ⟨hfind, herase⟩ | ⟨l₁, x, l₂, hl, hfind, herase⟩ :=
      find_eraseP (fun x : Address × SsdsGcItem => x.2.matches data type) l
    · exact Or.inl ⟨by rw [hfind]; rfl, herase⟩
    · exact Or.inr ⟨l₁, x, l₂, hl, by rw [hfind]; rfl, herase⟩
  cleanup := ssdsGcCleanup_view hr

/-- **The collector refines a list**: after every run of calls, whatever the system answers,
it is the list that the same pushes and removals make of the empty one. -/
theorem gc_refines_list (calls : List GcCall)
    (hfresh : Invariant.Along gcStep FreshStep (.ok (.running ssdsGcInit)) calls) :
    match gcRun calls, listRun calls with
    | .ok (.running gc), .ok l => gc.Refines l
    | .ok (.exited released), .error released' => released = released'
    | _, _ => False := by
  have hinit : Agrees (.ok (.running ssdsGcInit)) (.ok []) := Represents.nil
  have hrun : Agrees (gcRun calls) (listRun calls) := gcRun_view hinit hfresh
  match gcRun calls, listRun calls, hrun with
  | .ok (.running gc), .ok l, hrun => exact SsdsGc.Holds.refines hrun
  | .ok (.exited released), .error released', hrun => exact hrun

/-- Two blocks and a socket, and the block in the middle of the list given back. -/
theorem gc_refines_list_middle :
    let calls : List GcCall :=
      [.malloc 8 (some ⟨0x100, 0⟩) (some (⟨0x10, 0⟩, ⟨.null⟩)),
        .malloc 8 (some ⟨0x200, 0⟩) (some (⟨0x20, 0⟩, ⟨.null⟩)),
        .socket (some 5) (some (⟨0x30, 0⟩, ⟨.null⟩)), .free ⟨0x200, 0⟩]
    match gcRun calls, listRun calls with
    | .ok (.running gc), .ok l => gc.Refines l
    | .ok (.exited released), .error released' => released = released'
    | _, _ => False := by
  intro calls
  refine gc_refines_list calls (show Invariant.Along _ _ _ [_, _, _, _] from ⟨?_, ?_, ?_, ?_, trivial⟩)
  · intro gc h a junk hb
    cases h
    cases hb
    rfl
  · intro gc h a junk hb
    cases h
    cases hb
    rfl
  · intro gc h a junk hb
    cases h
    cases hb
    rfl
  · intro gc _
    trivial

end Rds
