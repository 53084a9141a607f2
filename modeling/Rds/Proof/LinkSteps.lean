import Rds.Proof.Handler

/-!
# Links, step by step

* `remove_passes`: an item is taken out; a walk comes past all items, or past all but this one.
* `push_passes`: an item is put in front; a walk does not come past it until it is the first.
-/

namespace Rds

open Interrupt DList

variable {p t : Process} {l : GcItems} {res : Resources}

/-! ## Stores -/

/-- A state on the way: only the items are another. -/
def Process.withGc (p : Process) (gc : SsdsGc) : Process := { p with gc }

section
variable {mid : Process → Prop} {a : Address} {n : Option Address}

theorem loadTop_bind {α : Type} {g : Option Address → Steps α} {post : α → Process → Prop}
    (hlive : p.header = .live) (hg : Passes (g p.gc.top) p mid post) :
    Passes (loadTop >>= g) p mid post := by
  refine look_bind ?_ hg
  rw [Process.follow_live hlive]
  rfl

theorem mallocItem_passes {c : Cell Address SsdsGcItem}
    (hmid : mid (p.setHeap (p.gc.heap.put a c))) :
    Passes (mallocItem a c) p mid fun _ t => t = p.setHeap (p.gc.heap.put a c) :=
  act_last rfl hmid rfl

theorem storeTop_passes (hlive : p.header = .live) (top : Option Address)
    (hmid : mid (p.withGc { p.gc with top })) :
    Passes (storeTop top) p mid fun _ t => t = p.withGc { p.gc with top } := by
  refine act_last ?_ hmid rfl
  rw [Process.follow_live hlive]
  rfl

theorem storeItemNext_passes (ha : (p.gc.heap.get a).isSome)
    (hmid : mid (p.setHeap (p.gc.heap.setNext a n))) : Passes (storeItemNext a n) p mid
      fun _ t => t = p.setHeap (p.gc.heap.setNext a n) := by
  refine act_last ?_ hmid rfl
  rw [storeNext_eq ha]
  rfl

theorem storeItemPrev_passes (ha : (p.gc.heap.get a).isSome)
    (hmid : mid (p.setHeap (p.gc.heap.setPrev a n))) : Passes (storeItemPrev a n) p mid
      fun _ t => t = p.setHeap (p.gc.heap.setPrev a n) := by
  refine act_last ?_ hmid rfl
  rw [storePrev_eq ha]
  rfl

theorem freeItem_passes (ha : (p.gc.heap.get a).isSome)
    (hmid : mid (p.setHeap (p.gc.heap.free a))) : Passes (freeItem a) p mid
      fun _ t => t = p.setHeap (p.gc.heap.free a) := by
  obtain ⟨c, hc⟩ := Option.isSome_iff_exists.1 ha
  refine act_last ?_ hmid rfl
  rw [derefItem_eq hc]
  rfl

end

/-! ## Taking an item out -/

/-- In a changed collector the item `x`, which lies between `l₁` and `l₂`, is passed over. -/
structure PassedOver (gc gc' : SsdsGc) (l₁ : GcItems) (x : Address × SsdsGcItem) (l₂ : GcItems) :
    Prop where
  top : gc'.top = headAddr (l₁ ++ l₂)
  cell : ∀ b, b ≠ x.1 → (gc'.heap.get b).map (fun c => (c.val, c.next)) =
    (gc.heap.get b).map fun c => (c.val, if lastAddr l₁ = some b then headAddr l₂ else c.next)

section
variable {gc gc' : SsdsGc} {l₁ l₂ : GcItems} {x : Address × SsdsGcItem}

theorem PassedOver.forward (h : PassedOver gc gc' l₁ x l₂) (hr : gc.Holds (l₁ ++ x :: l₂)) :
    Forward gc'.heap.get gc'.top (l₁ ++ l₂) := by
  rw [h.top]
  exact hr.forward_unlinked h.cell

/-- It can be freed then. -/
theorem PassedOver.free (h : PassedOver gc gc' l₁ x l₂) :
    PassedOver gc { gc' with heap := gc'.heap.free x.1 } l₁ x l₂ where
  top := h.top
  cell := by
    intro b hb
    rw [← h.cell b hb]
    simp only [Heap.get_free, if_neg hb]

/-- The links of the neighbours, step by step: until the item is passed over, a walk comes past
all items. -/
theorem unlink_passes (hlive : p.header = .live) (hr : p.gc.Holds (l₁ ++ x :: l₂))
    {mid : Process → Prop}
    (hbefore : ∀ gc, Forward gc.heap.get gc.top (l₁ ++ x :: l₂) → mid (p.withGc gc))
    (hover : ∀ gc, PassedOver p.gc gc l₁ x l₂ → mid (p.withGc gc)) :
    ∃ gc, Passes (unlinkSteps ⟨x.2, headAddr l₂, lastAddr l₁⟩) p mid (fun _ t => t = p.withGc gc) ∧
      PassedOver p.gc gc l₁ x l₂ ∧ (gc.heap.get x.1).isSome ∧
      ∀ data type, ssdsGcSearch p.gc data type = .ok (some x.1) →
        ssdsGcRemove p.gc data type = .ok { gc with heap := gc.heap.free x.1 } := by
  have hcell : p.gc.heap.get x.1 = some ⟨x.2, headAddr l₂, lastAddr l₁⟩ := hr.cell
  have hnext : ∀ b, headAddr l₂ = some b → (p.gc.heap.get b).isSome := fun b hb =>
    (hr.get_isSome b).2 (by simpa using Or.inr (Or.inr (headAddr_mem hb)))
  have hprev : ∀ b, lastAddr l₁ = some b → (p.gc.heap.get b).isSome := fun b hb =>
    (hr.get_isSome b).2 (by simpa using Or.inl (lastAddr_mem hb))
  cases hn : headAddr l₂ with
  | none =>
    have h₂ : l₂ = [] := by simpa [headAddr] using hn
    cases hp : lastAddr l₁ with
    | none =>
      have h₁ : l₁ = [] := by simpa [lastAddr] using hp
      have hpassed : PassedOver p.gc { p.gc with top := none } l₁ x l₂ := by
        refine ⟨by rw [h₁, h₂]; rfl, ?_⟩
        intro b _
        simp [hp]
      refine ⟨_, storeTop_passes hlive none (hover _ hpassed), hpassed, ?_, ?_⟩
      · rw [hcell]
        rfl
      · intro data type hsearch
        rw [hn, hp] at hcell
        unfold ssdsGcRemove
        rw [hsearch, bind_of_ok rfl]
        simp only [derefItem_eq hcell, bind, Except.bind]
        rfl
    | some q =>
      have hpassed : PassedOver p.gc { p.gc with heap := p.gc.heap.setNext q none } l₁ x l₂ := by
        refine ⟨hr.top.trans (headAddr_unlink x hp), ?_⟩
        intro b _
        simp only [Heap.forward_setNext, hn, hp, Option.some.injEq, eq_comm (a := b)]
      refine ⟨_, storeItemNext_passes (hprev q hp) (hover _ hpassed), hpassed, ?_, ?_⟩
      · rw [Heap.get_setNext]
        split <;> rw [hcell] <;> rfl
      · intro data type hsearch
        rw [hn, hp] at hcell
        unfold ssdsGcRemove
        rw [hsearch, bind_of_ok rfl]
        simp only [derefItem_eq hcell, storeNext_eq (hprev q hp), bind, Except.bind]
        rfl
  | some n =>
    cases hp : lastAddr l₁ with
    | none =>
      have h₁ : l₁ = [] := by simpa [lastAddr] using hp
      have hfirst : Forward (p.gc.heap.setPrev n none).get p.gc.top (l₁ ++ x :: l₂) :=
        hr.forward.congr fun b _ => Heap.forward_setPrev _ _ _ b
      have hpassed : PassedOver p.gc
          { p.gc with heap := p.gc.heap.setPrev n none, top := some n } l₁ x l₂ := by
        refine ⟨by rw [h₁]; exact hn.symm, ?_⟩
        intro b _
        simp only [Heap.forward_setPrev, hp, reduceCtorEq, if_false]
      refine ⟨_, ?_, hpassed, ?_, ?_⟩
      · have hstore := storeItemPrev_passes (hnext n hn) (hbefore _ hfirst)
        have hlive' : (p.setHeap (p.gc.heap.setPrev n none)).header = .live := hlive
        exact hstore.followed (storeTop_passes hlive' (some n) (hover _ hpassed))
      · rw [Heap.get_setPrev]
        split <;> rw [hcell] <;> rfl
      · intro data type hsearch
        rw [hn, hp] at hcell
        unfold ssdsGcRemove
        rw [hsearch, bind_of_ok rfl]
        simp only [derefItem_eq hcell, storePrev_eq (hnext n hn), bind, Except.bind]
        rfl
    | some q =>
      have hqn : q ≠ n := by
        rintro rfl
        have hnd := hr.nodup
        rw [List.map_append, List.map_cons, List.nodup_append] at hnd
        exact hnd.2.2 q (lastAddr_mem hp) q (List.mem_cons_of_mem _ (headAddr_mem hn)) rfl
      have hn' : ((p.gc.heap.setNext q (some n)).get n).isSome := by
        rw [Heap.get_setNext, if_neg (Ne.symm hqn)]
        exact hnext n hn
      have htop := hr.top.trans (headAddr_unlink x hp)
      have hfirst : PassedOver p.gc { p.gc with heap := p.gc.heap.setNext q (some n) } l₁ x l₂ := by
        refine ⟨htop, ?_⟩
        intro b _
        simp only [Heap.forward_setNext, hn, hp, Option.some.injEq, eq_comm (a := b)]
      have hpassed : PassedOver p.gc
          { p.gc with heap := (p.gc.heap.setNext q (some n)).setPrev n (some q) } l₁ x l₂ := by
        refine ⟨htop, ?_⟩
        intro b hb
        rw [← hfirst.cell b hb]
        exact Heap.forward_setPrev _ _ _ b
      refine ⟨_, ?_, hpassed, ?_, ?_⟩
      · have hstore := storeItemNext_passes (hprev q hp) (hover _ hfirst)
        exact hstore.followed (storeItemPrev_passes hn' (hover _ hpassed))
      · rw [Heap.get_setPrev, Heap.get_setNext]
        split <;> split <;> rw [hcell] <;> rfl
      · intro data type hsearch
        rw [hn, hp] at hcell
        unfold ssdsGcRemove
        rw [hsearch, bind_of_ok rfl]
        simp only [derefItem_eq hcell, storeNext_eq (hprev q hp), storePrev_eq hn', bind,
          Except.bind]
        rfl

end

/-- **The first item that matches, taken out step by step**: a walk comes past all items, or past
all but this one. -/
theorem remove_passes (mid : Process → Prop) (hlive : p.header = .live) (hr : p.gc.Holds l)
    (data : AllocData) (type : AllocType)
    (hmid : ∀ gc m, Forward gc.heap.get gc.top m →
      m = l ∨ m = l.eraseP (fun x => x.2.matches data type) → mid (p.withGc gc)) :
    ∃ gc, ssdsGcRemove p.gc data type = .ok gc ∧
      Passes (ssdsGcRemoveSteps data type) p mid fun _ t => t = p.withGc gc := by
  have hsearch := ssdsGcSearch_eq hr data type
  have hlook : (fun p : Process => do ssdsGcSearch (← p.follow) data type) p =
      .ok ((l.find? fun x => x.2.matches data type).map Prod.fst) := by
    rw [← hsearch]
    simp only [Process.follow_live hlive]
    rfl
  unfold ssdsGcRemoveSteps
  obtain ⟨hfind, herase⟩ | ⟨l₁, x, l₂, rfl, hfind, herase⟩ :=
    find_eraseP (fun x : Address × SsdsGcItem => x.2.matches data type) l
  · rw [hfind] at hlook hsearch
    refine ⟨p.gc, ?_, look_bind hlook (Passes.pure rfl)⟩
    unfold ssdsGcRemove
    rw [hsearch, bind_of_ok rfl]
    rfl
  · rw [hfind] at hlook hsearch
    rw [herase] at hmid
    obtain ⟨gc, hunlink, hpassed, hsome, hremove⟩ := unlink_passes hlive hr
      (fun gc hf => hmid gc _ hf (Or.inl rfl))
      (fun gc h => hmid gc _ (h.forward hr) (Or.inr rfl))
    refine ⟨_, hremove data type hsearch, look_bind hlook (look_bind (derefItem_eq hr.cell) ?_)⟩
    exact hunlink.followed
      (freeItem_passes hsome (hmid _ _ (hpassed.free.forward hr) (Or.inr rfl)))

/-! ## Putting an item in front -/

/-- **A new item, linked step by step**: a walk does not come past it until it is the first. -/
theorem push_passes (mid : Process → Prop) (hlive : p.header = .live) (hr : p.gc.Holds l)
    (data : AllocData) (type : AllocType) {a : Address} (junk : AllocData)
    (hfresh : p.gc.heap.get a = none)
    (hbefore : ∀ gc, Forward gc.heap.get gc.top l → mid (p.withGc gc))
    (hafter : ∀ gc, gc.Holds ((a, newItem data type junk) :: l) → mid (p.withGc gc)) :
    ∃ gc, ssdsGcPush p.gc data type (some (a, junk)) = .ok (.running gc) ∧
      gc.Holds ((a, newItem data type junk) :: l) ∧
      Passes (ssdsGcPushSteps data type (some (a, junk))) p mid fun _ t => t = p.withGc gc := by
  have hagrees : Agrees (ssdsGcPush p.gc data type (some (a, junk)))
      (.ok ((a, newItem data type junk) :: l)) := by
    refine ssdsGcPush_view hr ?_
    rintro b junk' hb
    cases hb
    exact hfresh
  have hnot : a ∉ l.map Prod.fst := by
    intro hmem
    have hsome := (hr.get_isSome a).2 hmem
    rw [hfresh] at hsome
    cases hsome
  let c : Cell Address SsdsGcItem := { val := newItem data type junk, next := none, prev := none }
  have hlive' : ∀ heap, (p.setHeap heap).header = .live := fun _ => hlive
  -- a walk past the others, while the new item is filled
  have hput : Forward (p.gc.heap.put a c).get p.gc.top l := by
    refine hr.forward.congr ?_
    intro b hb
    have hba : b ≠ a := by
      rintro rfl
      exact hnot hb
    rw [Heap.get_put, if_neg hba]
  have hfill : Passes (mallocItem a c) p mid fun _ t => t = p.setHeap (p.gc.heap.put a c) :=
    mallocItem_passes (hbefore _ hput)
  unfold ssdsGcPushSteps linkSteps
  cases htop : p.gc.top with
  | none =>
    have hpush : ssdsGcPush p.gc data type (some (a, junk)) =
        .ok (.running { p.gc with heap := p.gc.heap.put a c, top := some a }) := by
      unfold ssdsGcPush
      simp only [htop]
      rfl
    rw [hpush] at hagrees
    refine ⟨_, hpush, hagrees, hfill.followed (loadTop_bind (hlive' _) ?_)⟩
    rw [show (p.setHeap (p.gc.heap.put a c)).gc.top = none from htop]
    exact storeTop_passes (hlive' _) (some a) (hafter _ hagrees)
  | some top =>
    have hmem := headAddr_mem (hr.top.symm.trans htop)
    have hne : top ≠ a := by
      rintro rfl
      exact hnot hmem
    have hfirst : ((p.gc.heap.put a c).get top).isSome := by
      rw [Heap.get_put, if_neg hne]
      exact (hr.get_isSome top).2 hmem
    have hnew : (((p.gc.heap.put a c).setPrev top (some a)).get a).isSome := by
      rw [Heap.get_setPrev, if_neg (Ne.symm hne), Heap.get_put, if_pos rfl]
      rfl
    -- the links of the item that was first, and of the new one
    have hprev : Forward ((p.gc.heap.put a c).setPrev top (some a)).get p.gc.top l :=
      hput.congr fun b _ => Heap.forward_setPrev _ _ _ b
    have hnext : Forward (((p.gc.heap.put a c).setPrev top (some a)).setNext a (some top)).get
        p.gc.top l := by
      refine hprev.congr ?_
      intro b hb
      have hba : b ≠ a := by
        rintro rfl
        exact hnot hb
      rw [Heap.get_setNext, if_neg hba]
    have hpush : ssdsGcPush p.gc data type (some (a, junk)) = .ok (.running
        { p.gc with
          heap := ((p.gc.heap.put a c).setPrev top (some a)).setNext a (some top)
          top := some a }) := by
      unfold ssdsGcPush
      simp only [htop]
      rw [bind_of_ok (storePrev_eq hfirst _), bind_of_ok (storeNext_eq hnew _)]
      rfl
    rw [hpush] at hagrees
    refine ⟨_, hpush, hagrees, hfill.followed (loadTop_bind (hlive' _) ?_)⟩
    rw [show (p.setHeap (p.gc.heap.put a c)).gc.top = some top from htop]
    refine (storeItemPrev_passes (p := p.setHeap (p.gc.heap.put a c)) hfirst
      (hbefore _ hprev)).followed ?_
    refine (storeItemNext_passes (p := p.setHeap ((p.gc.heap.put a c).setPrev top (some a))) hnew
      (hbefore _ hnext)).followed ?_
    exact storeTop_passes (hlive' _) (some a) (hafter _ hagrees)

end Rds
