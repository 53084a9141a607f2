import Rds.Proof.Collector

/-!
# The counter of the collector

`num_items` is changed by the functions a program calls, and the list by the two that these call
in turn. Each does its part at a place of its own: a counter goes up before the system has
answered, and down before anything has been found.

* `ssdsGcPush_numItems`, `ssdsGcRemove_numItems`: the list changes without the counter.
* `counted_step_iff`: one call.
* `item_counter_iff`: **when the counter matches the list** all along a run.
-/

namespace Rds

open DList

variable {l : GcItems} {gc gc' : SsdsGc} {data : AllocData} {type : AllocType} {block : ItemBlock}
  {n : ℤ} {k : ℕ}

/-! ## The law -/

/-- **The counter matches the list**, and a cleanup gives back as many resources. A program that
has exited has cleaned up. -/
def Counted : Except Halt GcState → Prop
  | .ok (.running gc) => ∃ l, gc.Holds l ∧ toInt gc.numItems = l.length ∧
      ∃ released heap, ssdsGcCleanup gc = .ok (released, heap) ∧ toInt gc.numItems = released.length
  | .ok (.exited _) => True
  | .error _ => False

/-- A call of a program, as the system answers it: a pointer it gives is not `NULL`. -/
def GcCall.Answered : GcCall → Prop
  | .malloc _ newPtr _ | .calloc _ _ newPtr _ | .realloc _ _ newPtr _ => newPtr ≠ some .null
  | .free _ | .close _ | .socket _ _ | .accept _ _ => True
  | .push _ _ _ | .remove _ _ => False

/-- What the system promises about a step of a run. -/
def AnsweredStep (st : Except Halt GcState) (call : GcCall) : Prop :=
  FreshStep st call ∧ call.Answered

/-- The search finds an item. -/
def SsdsGc.Finds (gc : SsdsGc) (data : AllocData) (type : AllocType) : Prop :=
  ∃ item, ssdsGcSearch gc data type = .ok (some item)

/-- There is a number left for one more item. -/
def SsdsGc.Room (gc : SsdsGc) : Prop := toInt gc.numItems < 2 ^ 31 - 1

/-- **The condition on a call**: what is asked for is given, and what is given back or moved is in
the list. A call without a block for its item does not return. -/
def GcCall.Balanced (gc : SsdsGc) : GcCall → Prop
  | .malloc _ newPtr block | .calloc _ _ newPtr block =>
    newPtr.isSome ∧ (block.isSome → gc.Room)
  | .socket newSocket block | .accept newSocket block =>
    newSocket.isSome ∧ (block.isSome → gc.Room)
  | .realloc oldPtr _ newPtr block =>
    newPtr.isSome → newPtr ≠ some oldPtr → block.isSome → gc.Finds (.ofPtr oldPtr) .ptr
  | .free ptr => gc.Finds (.ofPtr ptr) .ptr
  | .close fd => gc.Finds (.ofSocket fd) .socket
  | .push _ _ _ | .remove _ _ => True

/-- The condition on a step of a run. -/
def BalancedStep (st : Except Halt GcState) (call : GcCall) : Prop :=
  ∀ gc, st = .ok (.running gc) → call.Balanced gc

/-! ## The counter -/

theorem toInt_lt (n : ℤ) : toInt n < 2 ^ 31 := by
  have hlt := @Int.bmod_lt n (2 ^ 32) (by decide)
  unfold toInt
  omega

theorem toInt_add (n d : ℤ) : toInt (n + d) = toInt (toInt n + d) := by
  unfold toInt
  rw [Int.bmod_add_bmod]

/-- One item more is counted as long as there is room. -/
theorem counter_up_iff (h : toInt n = k) :
    toInt (n + 1) = (k + 1 : ℕ) ↔ toInt n < 2 ^ 31 - 1 := by
  rw [toInt_add, h]
  constructor
  · intro heq
    have hlt := toInt_lt (k + 1)
    rw [heq] at hlt
    push_cast at hlt
    omega
  · intro hroom
    rw [toInt_eq (by omega) (by omega)]
    push_cast
    rfl

/-- A number that was counted in vain. -/
theorem counter_up_ne (h : toInt n = k) : toInt (n + 1) ≠ k := by
  intro heq
  have hlt := toInt_lt n
  rw [h] at hlt
  rw [toInt_add, h] at heq
  by_cases hroom : (k : ℤ) < 2 ^ 31 - 1
  · rw [toInt_eq (by omega) (by omega)] at heq
    omega
  · -- the largest number wraps to the smallest
    have hk : k = 2147483647 := by omega
    rw [hk] at heq
    revert heq
    decide

theorem counter_down (h : toInt n = (k + 1 : ℕ)) : toInt (n + -1) = k := by
  have hlt := toInt_lt n
  rw [h] at hlt
  rw [toInt_add, h, toInt_eq (by omega) (by omega)]
  omega

theorem counter_down_ne (h : toInt n = k) : toInt (n + -1) ≠ k := by
  have hlt := toInt_lt n
  rw [h] at hlt
  rw [toInt_add, h, toInt_eq (by omega) (by omega)]
  omega

/-! ## The operations -/

theorem ssdsGcRemove_numItems (h : ssdsGcRemove gc data type = .ok gc') :
    gc'.numItems = gc.numItems := by
  unfold ssdsGcRemove at h
  obtain ⟨found, -, h⟩ := bind_eq_ok.1 h
  cases found with
  | none =>
    cases h
    rfl
  | some item =>
    obtain ⟨c, -, h⟩ := bind_eq_ok.1 h
    obtain ⟨_, next, prev⟩ := c
    cases next with
    | none =>
      cases prev with
      | none =>
        cases h
        rfl
      | some p =>
        obtain ⟨heap, -, h⟩ := bind_eq_ok.1 h
        cases h
        rfl
    | some n =>
      cases prev with
      | none =>
        obtain ⟨heap, -, h⟩ := bind_eq_ok.1 h
        cases h
        rfl
      | some p =>
        obtain ⟨heap₁, -, h⟩ := bind_eq_ok.1 h
        obtain ⟨heap₂, -, h⟩ := bind_eq_ok.1 h
        cases h
        rfl

theorem ssdsGcPush_numItems (h : ssdsGcPush gc data type block = .ok (.running gc')) :
    gc'.numItems = gc.numItems := by
  unfold ssdsGcPush at h
  cases block with
  | none =>
    obtain ⟨r, -, h⟩ := bind_eq_ok.1 h
    cases h
  | some b =>
    simp only at h
    split at h
    · cases h
      rfl
    · obtain ⟨heap₁, -, h⟩ := bind_eq_ok.1 h
      obtain ⟨heap₂, -, h⟩ := bind_eq_ok.1 h
      cases h
      rfl

/-- What removing does to the list and to the counter. -/
theorem ssdsGcRemove_cases (hr : gc.Holds l) (data : AllocData) (type : AllocType) :
    ∃ gc' l', ssdsGcRemove gc data type = .ok gc' ∧ gc'.Holds l' ∧ l' ⊆ l ∧
      gc'.numItems = gc.numItems ∧
      (gc.Finds data type ∧ l.length = l'.length + 1 ∨
        ¬ gc.Finds data type ∧ l'.length = l.length) := by
  obtain ⟨gc', hremove, hr'⟩ := ssdsGcRemove_view hr data type
  refine ⟨gc', _, hremove, hr', List.eraseP_subset, ssdsGcRemove_numItems hremove, ?_⟩
  unfold SsdsGc.Finds
  rw [ssdsGcSearch_eq hr]
  obtain ⟨hfind, herase⟩ | ⟨l₁, x, l₂, hl, hfind, herase⟩ :=
    find_eraseP (fun x : Address × SsdsGcItem => x.2.matches data type) l
  · rw [hfind, herase]
    refine Or.inr ⟨?_, rfl⟩
    intro ⟨item, hitem⟩
    cases hitem
  · rw [hfind, herase]
    refine Or.inl ⟨⟨x.1, rfl⟩, ?_⟩
    rw [hl, List.length_append, List.length_append, List.length_cons]
    omega

/-- What pushing does to them. -/
theorem ssdsGcPush_cases (hr : gc.Holds l) (hfresh : block.Fresh gc) (data : AllocData)
    (type : AllocType) :
    (block = none ∧ ∃ released, ssdsGcPush gc data type block = .ok (.exited released)) ∨
      ∃ a junk gc', block = some (a, junk) ∧ ssdsGcPush gc data type block = .ok (.running gc') ∧
        gc'.Holds ((a, newItem data type junk) :: l) ∧ gc'.numItems = gc.numItems := by
  have hview : Agrees (ssdsGcPush gc data type block) (GcOp.onList l (.push data type block)) :=
    ssdsGcPush_view hr hfresh
  cases block with
  | none =>
    obtain ⟨heap', hclean, -⟩ := ssdsGcCleanup_view hr
    refine Or.inl ⟨rfl, releases l, ?_⟩
    unfold ssdsGcPush
    simp only [hclean, bind, Except.bind]
    rfl
  | some b =>
    obtain ⟨a, junk⟩ := b
    have hlist : GcOp.onList l (.push data type (some (a, junk))) =
        .ok ((a, newItem data type junk) :: l) := rfl
    rw [hlist] at hview
    cases hpush : ssdsGcPush gc data type (some (a, junk)) with
    | error e =>
      rw [hpush] at hview
      exact hview.elim
    | ok st =>
      rw [hpush] at hview
      cases st with
      | exited released => exact hview.elim
      | running gc' =>
        exact Or.inr ⟨a, junk, gc', rfl, rfl, hview, ssdsGcPush_numItems hpush⟩

/-! ## One call -/

/-- The pointers in the list are not `NULL`. -/
def Proper (l : GcItems) : Prop := ∀ x ∈ l, x.2.type = .ptr → x.2.data.ptr ≠ .null

theorem Proper.push (h : Proper l) (hdata : type = .ptr → data.ptr ≠ .null) (a : Address)
    (junk : AllocData) : Proper ((a, newItem data type junk) :: l) := by
  intro x hx hptr
  rcases List.mem_cons.1 hx with rfl | hmem
  · cases type with
    | socket => cases hptr
    | ptr => exact hdata rfl
  · exact h x hmem hptr

/-- A cleanup gives back one resource for each item. -/
theorem Proper.length_releases (h : Proper l) : (releases l).length = l.length := by
  unfold releases
  rw [List.length_flatMap]
  have hone : ∀ x ∈ l, x.2.release.length = 1 := by
    intro x hx
    unfold SsdsGcItem.release
    cases htype : x.2.type with
    | socket => rfl
    | ptr =>
      simp only
      rw [if_pos (h x hx htype)]
      rfl
  rw [List.map_congr_left hone]
  simp

/-- **What every call keeps.** -/
def GcKept (st : Except Halt GcState) : Prop :=
  match st with
  | .ok (.running gc) => ∃ l, gc.Holds l ∧ Proper l
  | .ok (.exited _) => True
  | .error _ => False

theorem counted_running (hr : gc.Holds l) (hp : Proper l) :
    Counted (.ok (.running gc)) ↔ toInt gc.numItems = l.length := by
  constructor
  · intro ⟨m, hm, hcount, _⟩
    rwa [hr.unique hm]
  · intro hcount
    obtain ⟨heap, hclean, -⟩ := ssdsGcCleanup_view hr
    refine ⟨l, hr, hcount, releases l, heap, hclean, ?_⟩
    rw [hp.length_releases]
    exact hcount

/-- **Something is got**: the counter has gone up, and the item is pushed. -/
theorem counted_push_iff (hr : gc'.Holds l) (hp : Proper l) (hcount : toInt gc.numItems = l.length)
    (hup : gc'.numItems = gc.numItems + 1) (hfresh : block.Fresh gc')
    (hdata : type = .ptr → data.ptr ≠ .null) :
    GcKept (ssdsGcPush gc' data type block) ∧
      (Counted (ssdsGcPush gc' data type block) ↔ (block.isSome → gc.Room)) := by
  obtain ⟨hnone, released, hpush⟩ | ⟨a, junk, gc₁, hsome, hpush, hr₁, hsame⟩ :=
    ssdsGcPush_cases hr hfresh data type
  · rw [hpush, hnone]
    refine ⟨trivial, fun _ => ?_, fun _ => trivial⟩
    intro hsome
    cases hsome
  · have hp₁ : Proper ((a, newItem data type junk) :: l) := hp.push hdata a junk
    rw [hpush, counted_running hr₁ hp₁, hsame, hup, List.length_cons, counter_up_iff hcount, hsome]
    exact ⟨⟨_, hr₁, hp₁⟩, ⟨fun h _ => h, fun h => h rfl⟩⟩

/-- **Nothing is got**, but the counter has gone up. -/
theorem counted_failed (hr : gc'.Holds l) (hp : Proper l) (hcount : toInt gc.numItems = l.length)
    (hup : gc'.numItems = gc.numItems + 1) :
    GcKept (.ok (.running gc')) ∧ ¬ Counted (.ok (.running gc')) := by
  rw [counted_running hr hp, hup]
  exact ⟨⟨l, hr, hp⟩, counter_up_ne hcount⟩

/-- **Something is given back**: the counter has gone down, and the item is removed if there is
one. -/
theorem counted_remove_iff (hr : gc'.Holds l) (hp : Proper l)
    (hcount : toInt gc.numItems = l.length) (hdown : gc'.numItems = gc.numItems + -1)
    (data : AllocData) (type : AllocType) :
    ∃ gc₁, ssdsGcRemove gc' data type = .ok gc₁ ∧ GcKept (.ok (.running gc₁)) ∧
      (Counted (.ok (.running gc₁)) ↔ gc'.Finds data type) := by
  obtain ⟨gc₁, l₁, hremove, hr₁, hsub, hsame, hcases⟩ := ssdsGcRemove_cases hr data type
  have hp₁ : Proper l₁ := fun x hx => hp x (hsub hx)
  refine ⟨gc₁, hremove, ⟨l₁, hr₁, hp₁⟩, ?_⟩
  rw [counted_running hr₁ hp₁, hsame, hdown]
  rcases hcases with ⟨hfinds, hlen⟩ | ⟨hnot, hlen⟩
  · rw [hlen] at hcount
    exact ⟨fun _ => hfinds, fun _ => counter_down hcount⟩
  · rw [hlen]
    exact ⟨fun h => absurd h (counter_down_ne hcount), fun h => absurd h hnot⟩

/-- **A block that moves** is removed and pushed without a change of the counter. -/
theorem counted_moved_iff (hr : gc'.Holds l) (hp : Proper l) (hcount : toInt gc.numItems = l.length)
    (hsame : gc'.numItems = gc.numItems) {oldPtr newPtr : Address} (hnull : newPtr ≠ .null)
    (hfresh : ∀ gc₁, ssdsGcRemovePtr gc' oldPtr = .ok gc₁ → block.Fresh gc₁) :
    GcKept (ssdsGcRemovePtr gc' oldPtr >>= fun gc => ssdsGcPushPtr gc newPtr block) ∧
      (Counted (ssdsGcRemovePtr gc' oldPtr >>= fun gc => ssdsGcPushPtr gc newPtr block) ↔
        (block.isSome → gc'.Finds (.ofPtr oldPtr) .ptr)) := by
  obtain ⟨gc₁, l₁, hremove, hr₁, hsub, hsame₁, hcases⟩ :=
    ssdsGcRemove_cases hr (.ofPtr oldPtr) .ptr
  have hp₁ : Proper l₁ := fun x hx => hp x (hsub hx)
  have hrun : (ssdsGcRemovePtr gc' oldPtr >>= fun gc => ssdsGcPushPtr gc newPtr block) =
      ssdsGcPushPtr gc₁ newPtr block := by
    unfold ssdsGcRemovePtr
    rw [hremove]
    rfl
  rw [hrun]
  unfold ssdsGcPushPtr
  obtain ⟨hnone, released, hpush⟩ | ⟨a, junk, gc₂, hsome, hpush, hr₂, hsame₂⟩ :=
    ssdsGcPush_cases hr₁ (hfresh gc₁ hremove) (.ofPtr newPtr) .ptr
  · rw [hpush, hnone]
    refine ⟨trivial, fun _ => ?_, fun _ => trivial⟩
    intro hsome
    cases hsome
  · have hp₂ : Proper ((a, newItem (.ofPtr newPtr) .ptr junk) :: l₁) := hp₁.push (fun _ => hnull) a junk
    rw [hpush, counted_running hr₂ hp₂, hsame₂, hsame₁, hsame, hcount, List.length_cons, hsome]
    refine ⟨⟨_, hr₂, hp₂⟩, ?_⟩
    rcases hcases with ⟨hfinds, hlen⟩ | ⟨hnot, hlen⟩
    · exact ⟨fun _ _ => hfinds, fun _ => congrArg _ hlen⟩
    · refine ⟨fun heq => ?_, fun h => absurd (h rfl) hnot⟩
      omega

/-- A call that counts first: what it gets, if it gets anything, is pushed. -/
def pushGot (gc : SsdsGc) (type : AllocType) (block : ItemBlock) :
    Option AllocData → Except Halt GcState
  | none => return .running gc
  | some data => ssdsGcPush gc data type block

theorem pushGot_counted_iff (hr : gc'.Holds l) (hp : Proper l)
    (hcount : toInt gc.numItems = l.length) (hup : gc'.numItems = gc.numItems + 1)
    (hfresh : block.Fresh gc') {got : Option AllocData}
    (hdata : ∀ data, got = some data → type = .ptr → data.ptr ≠ .null) :
    GcKept (pushGot gc' type block got) ∧
      (Counted (pushGot gc' type block got) ↔ got.isSome ∧ (block.isSome → gc.Room)) := by
  cases got with
  | none =>
    obtain ⟨hkept, hnot⟩ := counted_failed hr hp hcount hup
    refine ⟨hkept, fun h => absurd h hnot, fun h => ?_⟩
    cases h.1
  | some data =>
    obtain ⟨hkept, hiff⟩ := counted_push_iff hr hp hcount hup hfresh (hdata data rfl)
    exact ⟨hkept, fun h => ⟨rfl, hiff.1 h⟩, fun h => hiff.2 h.2⟩

theorem ssdsMalloc_counted_iff (hr : gc.Holds l) (hp : Proper l)
    (hcount : toInt gc.numItems = l.length) (hfresh : block.Fresh gc) (size : ℤ)
    {newPtr : Option Address} (hnull : newPtr ≠ some .null) :
    GcKept (ssdsMalloc gc size newPtr block) ∧
      (Counted (ssdsMalloc gc size newPtr block) ↔ newPtr.isSome ∧ (block.isSome → gc.Room)) := by
  have hr' : ((gc.count 1).sized size).Holds l := hr
  have hrun : ssdsMalloc gc size newPtr block =
      pushGot ((gc.count 1).sized size) .ptr block (newPtr.map .ofPtr) := by
    cases newPtr <;> rfl
  rw [hrun, ← Option.isSome_map (f := AllocData.ofPtr)]
  refine pushGot_counted_iff hr' hp hcount rfl hfresh ?_
  intro data hdata _ hptr
  obtain ⟨p, hsome, rfl⟩ := Option.map_eq_some_iff.1 hdata
  exact hnull (hsome.trans (congrArg some hptr))

theorem ssdsSocket_counted_iff (hr : gc.Holds l) (hp : Proper l)
    (hcount : toInt gc.numItems = l.length) (hfresh : block.Fresh gc) (newSocket : Option Fd) :
    GcKept (ssdsSocket gc newSocket block) ∧
      (Counted (ssdsSocket gc newSocket block) ↔
        newSocket.isSome ∧ (block.isSome → gc.Room)) := by
  have hr' : (gc.count 1).Holds l := hr
  have hrun : ssdsSocket gc newSocket block =
      pushGot (gc.count 1) .socket block (newSocket.map .ofSocket) := by
    cases newSocket <;> rfl
  rw [hrun, ← Option.isSome_map (f := AllocData.ofSocket)]
  refine pushGot_counted_iff hr' hp hcount rfl hfresh ?_
  intro data _ htype
  cases htype

theorem ssdsGcRealloc_counted_iff (hr : gc.Holds l) (hp : Proper l)
    (hcount : toInt gc.numItems = l.length) {oldPtr : Address} {size : ℤ} {newPtr : Option Address}
    (hfresh : (GcCall.realloc oldPtr size newPtr block).Fresh gc) (hnull : newPtr ≠ some .null) :
    GcKept (ssdsGcRealloc gc oldPtr size newPtr block) ∧
      (Counted (ssdsGcRealloc gc oldPtr size newPtr block) ↔
        (GcCall.realloc oldPtr size newPtr block).Balanced gc) := by
  have hr' : (gc.sized size).Holds l := hr
  have hstay : GcKept (.ok (.running (gc.sized size))) ∧ Counted (.ok (.running (gc.sized size))) :=
    ⟨⟨l, hr', hp⟩, (counted_running hr' hp).2 hcount⟩
  cases newPtr with
  | none =>
    refine ⟨hstay.1, fun _ h => ?_, fun _ => hstay.2⟩
    cases h
  | some p =>
    by_cases hpold : p = oldPtr
    · have hrun : ssdsGcRealloc gc oldPtr size (some p) block = .ok (.running (gc.sized size)) := by
        unfold ssdsGcRealloc
        simp only
        rw [if_neg (not_not_intro hpold)]
        rfl
      rw [hrun]
      exact ⟨hstay.1, fun _ _ hne => absurd (congrArg some hpold) hne, fun _ => hstay.2⟩
    · have hne : some p ≠ some oldPtr := fun h => hpold (Option.some.inj h)
      have hrun : ssdsGcRealloc gc oldPtr size (some p) block =
          (ssdsGcRemovePtr (gc.sized size) oldPtr >>= fun gc => ssdsGcPushPtr gc p block) := by
        unfold ssdsGcRealloc
        simp only
        rw [if_pos hpold]
      rw [hrun]
      obtain ⟨hkept, hiff⟩ := counted_moved_iff hr' hp hcount rfl
        (fun h => hnull (congrArg some h)) (hfresh rfl hne)
      exact ⟨hkept, fun h _ _ => hiff.1 h, fun h => hiff.2 (h rfl hne)⟩

/-- **One call**: it keeps the counter right exactly if it is balanced. -/
theorem GcCall.counted_iff (hr : gc.Holds l) (hp : Proper l) (hcount : toInt gc.numItems = l.length)
    {call : GcCall} (hfresh : call.Fresh gc) (hanswered : call.Answered) :
    GcKept (call.run gc) ∧ (Counted (call.run gc) ↔ call.Balanced gc) := by
  have hr' : (gc.count (-1)).Holds l := hr
  cases call with
  | malloc size newPtr block => exact ssdsMalloc_counted_iff hr hp hcount hfresh size hanswered
  | calloc nItems size newPtr block =>
    exact ssdsMalloc_counted_iff hr hp hcount hfresh (nItems * size) hanswered
  | realloc oldPtr size newPtr block => exact ssdsGcRealloc_counted_iff hr hp hcount hfresh hanswered
  | socket newSocket block => exact ssdsSocket_counted_iff hr hp hcount hfresh newSocket
  | accept newSocket block => exact ssdsSocket_counted_iff hr hp hcount hfresh newSocket
  | free ptr =>
    obtain ⟨gc₁, hremove, hkept, hiff⟩ := counted_remove_iff hr' hp hcount rfl (.ofPtr ptr) .ptr
    have hrun : GcCall.run gc (.free ptr) = .ok (.running gc₁) := bind_eq_ok.2 ⟨gc₁, hremove, rfl⟩
    rw [hrun]
    exact ⟨hkept, hiff⟩
  | close fd =>
    obtain ⟨gc₁, hremove, hkept, hiff⟩ := counted_remove_iff hr' hp hcount rfl (.ofSocket fd) .socket
    have hrun : GcCall.run gc (.close fd) = .ok (.running gc₁) := bind_eq_ok.2 ⟨gc₁, hremove, rfl⟩
    rw [hrun]
    exact ⟨hkept, hiff⟩
  | push data type block => exact hanswered.elim
  | remove data type => exact hanswered.elim

/-! ## Runs -/

/-- **One step.** -/
theorem counted_step_iff (st : Except Halt GcState) (call : GcCall) (hadm : AnsweredStep st call)
    (hkept : GcKept st) (hcounted : Counted st) :
    GcKept (gcStep st call) ∧ (Counted (gcStep st call) ↔ BalancedStep st call) := by
  match st, hkept with
  | .ok (.running gc), ⟨l, hr, hp⟩ =>
    obtain ⟨hfresh, hanswered⟩ := hadm
    have hcount := (counted_running hr hp).1 hcounted
    obtain ⟨hkept, hiff⟩ := GcCall.counted_iff hr hp hcount (hfresh gc rfl) hanswered
    refine ⟨hkept, hiff.trans ⟨fun h gc' hgc => ?_, fun h => h gc rfl⟩⟩
    cases hgc
    exact h
  | .ok (.exited released), _ =>
    refine ⟨trivial, fun _ gc hgc => ?_, fun _ => trivial⟩
    cases hgc

/-- **The item counter**: in a run of calls, whatever the system answers, it matches the list in
every state if and only if every call is balanced. -/
theorem item_counter_iff (calls : List GcCall)
    (hadm : Invariant.Along gcStep AnsweredStep (.ok (.running ssdsGcInit)) calls) :
    (∀ pre, pre <+: calls → Counted (gcRun pre)) ↔
      Invariant.Along gcStep BalancedStep (.ok (.running ssdsGcInit)) calls := by
  have hkept : GcKept (.ok (.running ssdsGcInit)) := by
    refine ⟨[], Represents.nil, ?_⟩
    intro x hx
    cases hx
  have hcounted : Counted (.ok (.running ssdsGcInit)) :=
    ⟨[], Represents.nil, rfl, [], [], rfl, rfl⟩
  exact Invariant.Along.forall_prefix_iff counted_step_iff hadm hkept hcounted

/-- A block is got and given back. -/
def balancedCalls : List GcCall :=
  [.malloc 8 (some ⟨0x100, 0⟩) (some (⟨0x10, 0⟩, ⟨.null⟩)), .free ⟨0x100, 0⟩]

theorem item_counter_iff_balanced :
    Invariant.Along gcStep AnsweredStep (.ok (.running ssdsGcInit)) balancedCalls ∧
      ((∀ pre, pre <+: balancedCalls → Counted (gcRun pre)) ↔
        Invariant.Along gcStep BalancedStep (.ok (.running ssdsGcInit)) balancedCalls) := by
  have hadm : Invariant.Along gcStep AnsweredStep (.ok (.running ssdsGcInit)) balancedCalls := by
    have hnull : (some ⟨0x100, 0⟩ : Option Address) ≠ some .null := by decide
    refine ⟨⟨?_, hnull⟩, ⟨?_, trivial⟩, trivial⟩
    · intro gc h a junk hb
      cases h
      cases hb
      rfl
    · intro gc _
      trivial
  exact ⟨hadm, item_counter_iff balancedCalls hadm⟩

/-- The first block comes from `ssds_realloc`. -/
def resizedCalls : List GcCall := [.realloc .null 8 (some ⟨0x100, 0⟩) (some (⟨0x10, 0⟩, ⟨.null⟩))]

/-- **`ssds_realloc` does not count** the block it gets for `NULL`. -/
theorem item_counter_fails :
    Invariant.Along gcStep AnsweredStep (.ok (.running ssdsGcInit)) resizedCalls ∧
      ¬ Counted (gcRun resizedCalls) := by
  have hnull : (some ⟨0x100, 0⟩ : Option Address) ≠ some .null := by decide
  refine ⟨⟨⟨?_, hnull⟩, trivial⟩, ?_⟩
  · intro gc h hsome hne gc' hremove a junk hb
    cases h
    cases hremove
    cases hb
    rfl
  · intro ⟨l, hr, hcount, released, heap, hclean, hreleased⟩
    cases hclean
    revert hreleased
    decide

end Rds
