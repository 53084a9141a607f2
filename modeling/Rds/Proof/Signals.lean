import Rds.Proof.LinkSteps

/-!
# A signal at any moment

* `call_passes`, `call_exits`: where the steps of a call end, and what a signal finds on the way.
* `signal_handled_iff`: **when a signal can come at any moment of a run**.
* `steps_refine`: undisturbed, the steps of a run do what the collector's functions do.
-/

namespace Rds

open Interrupt DList Invariant

variable {p t : Process} {l : GcItems} {res : Resources}

/-! ## Calls -/

/-- A walk past all items or past all but one, either of them exact. -/
theorem covered_of_taken (hlive : p.header = .live) (hnd : (l.map Prod.fst).Nodup)
    {f : Address × SsdsGcItem → Bool} {gc : SsdsGc} {m : GcItems} {res res' : Resources}
    (hf : Forward gc.heap.get gc.top m) (hm : m = l ∨ m = l.eraseP f) (hexact : Exact l res)
    (hhas : p.Has res) (hexact' : Exact (l.eraseP f) res') (hhas' : p.Has res') :
    (p.withGc gc).Covered := by
  rcases hm with rfl | rfl
  · exact covered_of_forward (p := p.withGc gc) hlive hf hnd hexact ⟨hhas.1, hhas.2⟩
  · have hnd' : ((l.eraseP f).map Prod.fst).Nodup := hnd.sublist (List.eraseP_sublist.map _)
    exact covered_of_forward (p := p.withGc gc) hlive hf hnd' hexact'
      ⟨hhas'.1, hhas'.2⟩

/-- **An item of what is given back**: a signal is handled while it is taken out. -/
theorem remove_covered (hlive : p.header = .live) (hr : p.gc.Holds l) (hexact : Exact l res)
    (hhas : p.Has res) {data : AllocData} {type : AllocType} {res' : Resources}
    (hexact' : Exact (l.eraseP fun x => x.2.matches data type) res') (hhas' : p.Has res') :
    ∃ gc, ssdsGcRemove p.gc data type = .ok gc ∧
      Passes (ssdsGcRemoveSteps data type) p Process.Covered fun _ t => t = p.withGc gc := by
  refine remove_passes _ hlive hr data type ?_
  intro gc m hf hm
  exact covered_of_taken hlive hr.nodup hf hm hexact hhas hexact' hhas'

/-- **An item of a new resource**: a signal is handled while it is linked. -/
theorem push_covered (hlive : p.header = .live) (hr : p.gc.Holds l) (hexact : Exact l res)
    (hhas : p.Has res) {data : AllocData} {type : AllocType} {a : Address} {junk : AllocData}
    (hfresh : p.gc.heap.get a = none) (hexact' : Exact ((a, newItem data type junk) :: l) p.res) :
    ∃ gc, ssdsGcPush p.gc data type (some (a, junk)) = .ok (.running gc) ∧
      Passes (ssdsGcPushSteps data type (some (a, junk))) p Process.Covered fun _ t => t = p.withGc gc := by
  have hpassed := push_passes Process.Covered hlive hr data type junk hfresh ?_ ?_
  · obtain ⟨gc, hpush, -, hpasses⟩ := hpassed
    exact ⟨gc, hpush, hpasses⟩
  · intro gc hf
    exact covered_of_forward (p := p.withGc gc) hlive hf hr.nodup hexact ⟨hhas.1, hhas.2⟩
  · intro gc hr'
    exact covered_of_holds (p := p.withGc gc) hlive hr' hexact' (p.withGc gc).has_res

/-- A call that gets a block, behind the counters. -/
theorem mallocSteps_covered (hlive : p.header = .live) (hr : p.gc.Holds l)
    (hexact : Exact l p.res) {newPtr : Option Address} {block : ItemBlock}
    (hnew : ∀ q, newPtr = some q → q ≠ .null ∧ q ∉ p.ptrs)
    (hgranted : newPtr.isSome → block.isSome) (hfresh : block.Fresh p.gc) {gc : SsdsGc} {size : ℤ}
    (hgc : p.gc = (gc.count 1).sized size) :
    Passes (mallocSteps newPtr block) p Process.Covered fun _ t => t.header = .live ∧
      t.track = (ssdsMalloc gc size newPtr block, p.res.gainPtr newPtr block) := by
  unfold ssdsMalloc
  rw [← hgc]
  cases newPtr with
  | none => exact Passes.pure ⟨hlive, rfl⟩
  | some q =>
    obtain ⟨⟨a, junk⟩, rfl⟩ := Option.isSome_iff_exists.1 (hgranted rfl)
    obtain ⟨hnull, hq⟩ := hnew q rfl
    let t : Process := { p with ptrs := insert q p.ptrs }
    have hhas : t.Has p.res := has_of_insert_ptr rfl rfl
    obtain ⟨gc', hpush, hpasses⟩ := push_covered (p := t) hlive hr hexact hhas (hfresh a junk rfl)
      (exact_push_ptr hexact hq hnull a junk)
    refine act_bind (t := t) rfl (covered_of_holds hlive hr hexact hhas) ?_
    refine hpasses.weaken (fun _ h => h) ?_
    rintro - u rfl
    exact ⟨hlive, Prod.ext hpush.symm rfl⟩

/-- A call that gets a socket, behind the counter. -/
theorem socketSteps_covered (hlive : p.header = .live) (hr : p.gc.Holds l)
    (hexact : Exact l p.res) {newSocket : Option Fd} {block : ItemBlock}
    (hnew : ∀ fd, newSocket = some fd → fd ∉ p.socks)
    (hgranted : newSocket.isSome → block.isSome) (hfresh : block.Fresh p.gc) {gc : SsdsGc}
    (hgc : p.gc = gc.count 1) :
    Passes (socketSteps newSocket block) p Process.Covered fun _ t => t.header = .live ∧
      t.track = (ssdsSocket gc newSocket block, p.res.gainSocket newSocket block) := by
  unfold ssdsSocket
  rw [← hgc]
  cases newSocket with
  | none => exact Passes.pure ⟨hlive, rfl⟩
  | some fd =>
    obtain ⟨⟨a, junk⟩, rfl⟩ := Option.isSome_iff_exists.1 (hgranted rfl)
    let t : Process := { p with socks := insert fd p.socks }
    have hhas : t.Has p.res := has_of_insert_socket rfl rfl
    obtain ⟨gc', hpush, hpasses⟩ := push_covered (p := t) hlive hr hexact hhas (hfresh a junk rfl)
      (exact_push_socket hexact (hnew fd rfl) a junk)
    refine act_bind (t := t) rfl (covered_of_holds hlive hr hexact hhas) ?_
    refine hpasses.weaken (fun _ h => h) ?_
    rintro - u rfl
    exact ⟨hlive, Prod.ext hpush.symm rfl⟩

/-- **A block that moves** has been given back while its item is still there: a signal is handled
on the way if there was none. -/
theorem moveSteps_passes (hlive : p.header = .live) (hr : p.gc.Holds l) (hexact : Exact l p.res)
    {oldPtr q : Address} {block : ItemBlock} (hold : oldPtr = .null ∨ oldPtr ∈ p.ptrs)
    (hne : q ≠ oldPtr) (hnull : q ≠ .null) (hq : q ∉ p.ptrs) (hblock : block.isSome)
    (hright : ∀ x, (l.find? fun x => x.2.matches (.ofPtr oldPtr) .ptr) = some x →
      x.2.type = .ptr)
    (hfresh : ∀ gc, ssdsGcRemovePtr p.gc oldPtr = .ok gc → block.Fresh gc) :
    ∃ gc, ssdsGcRemovePtr p.gc oldPtr = .ok gc ∧
      Passes (reallocSteps oldPtr (some q) block) p (fun t => oldPtr = .null → t.Covered)
        fun _ t => t.header = .live ∧ t.track = (ssdsGcPushPtr gc q block,
          { p.res with ptrs := p.res.ptrs.erase oldPtr }.gainPtr (some q) block) := by
  obtain ⟨⟨a, junk⟩, rfl⟩ := Option.isSome_iff_exists.1 hblock
  let t : Process := { p with ptrs := insert q (p.ptrs.erase oldPtr) }
  let res : Resources := { p.res with ptrs := p.res.ptrs.erase oldPtr }
  have hexact' : Exact (l.eraseP fun x => x.2.matches (.ofPtr oldPtr) .ptr) res :=
    (exact_remove_ptr_iff hexact oldPtr).2 hright
  have hhas : t.Has res := has_of_insert_ptr rfl rfl
  have hres : oldPtr = .null → p.res = res := by
    rintro rfl
    simp only [res, Finset.erase_eq_of_notMem hexact.null]
  -- with the item still in its place, a walk comes past the block that was given back
  have hmid : ∀ gc m, Forward gc.heap.get gc.top m →
      m = l ∨ m = l.eraseP (fun x => x.2.matches (.ofPtr oldPtr) .ptr) →
      oldPtr = .null → (t.withGc gc).Covered := by
    intro gc m hf hm h
    exact covered_of_taken (p := t) hlive hr.nodup hf hm (hres h ▸ hexact) hhas hexact' hhas
  obtain ⟨gc, hremove, hpasses⟩ := remove_passes (fun t => oldPtr = .null → t.Covered)
    (p := t) hlive hr (.ofPtr oldPtr) .ptr hmid
  obtain ⟨gc', hremove', hr'⟩ := ssdsGcRemove_view hr (.ofPtr oldPtr) .ptr
  obtain rfl : gc = gc' := Except.ok.inj (hremove.symm.trans hremove')
  have hq' : q ∉ res.ptrs := fun h => hq (Finset.mem_of_mem_erase h)
  obtain ⟨gc', hpush, hpasses'⟩ := push_covered (p := t.withGc gc) hlive hr' hexact'
    ⟨hhas.1, hhas.2⟩ (hfresh gc hremove a junk rfl)
    (exact_push_ptr hexact' hq' hnull a junk)
  refine ⟨gc, hremove, act_bind (t := t) (if_pos hold) ?_ ?_⟩
  · intro h
    exact covered_of_holds hlive hr hexact (hres h ▸ hhas)
  · rw [if_pos hne]
    refine hpasses.followed (hpasses'.weaken (fun _ h _ => h) ?_)
    rintro - u rfl
    exact ⟨hlive, Prod.ext hpush.symm rfl⟩

/-- A call that gives a block back, behind the counter. -/
theorem freeSteps_covered (hlive : p.header = .live) (hr : p.gc.Holds l) (hexact : Exact l p.res)
    {q : Address} (hold : q = .null ∨ q ∈ p.ptrs)
    (hright : ∀ x, (l.find? fun x => x.2.matches (.ofPtr q) .ptr) = some x → x.2.type = .ptr)
    {gc : SsdsGc} (hgc : p.gc = gc.count (-1)) :
    Passes (do ssdsGcRemoveSteps (.ofPtr q) .ptr; sysFree q) p Process.Covered fun _ t =>
      t.header = .live ∧ t.track = (ssdsFree gc q, { p.res with ptrs := p.res.ptrs.erase q }) := by
  have hexact' := (exact_remove_ptr_iff hexact q).2 hright
  obtain ⟨gc₁, hremove, hpasses⟩ := remove_covered hlive hr hexact p.has_res hexact'
    (has_erase_ptr p q)
  obtain ⟨gc₂, hremove', hr'⟩ := ssdsGcRemove_view hr (.ofPtr q) .ptr
  obtain rfl : gc₁ = gc₂ := Except.ok.inj (hremove.symm.trans hremove')
  let t : Process := { p.withGc gc₁ with ptrs := p.ptrs.erase q }
  have hfree : (if q = .null then .ok (p.withGc gc₁) else if q ∈ p.ptrs then .ok t
      else .error .crash) = Except.ok (ε := Halt) t := by
    rcases hold with rfl | hq
    · rw [if_pos rfl]
      simp only [t, Finset.erase_eq_of_notMem (show Address.null ∉ p.ptrs from hexact.null)]
      rfl
    · rw [if_pos hq]
      split
      · rename_i hnull
        exact absurd (hnull ▸ hq) hexact.null
      · rfl
  have hrun : ssdsFree gc q = .ok (.running gc₁) := by
    unfold ssdsFree
    rw [← hgc, show ssdsGcRemovePtr p.gc q = _ from hremove]
    rfl
  refine hpasses.followed (act_last hfree ?_ ⟨hlive, Prod.ext hrun.symm rfl⟩)
  exact covered_of_holds (p := t) hlive hr' hexact' t.has_res

/-- A call that gives a socket back, behind the counter. -/
theorem closeSteps_covered (hlive : p.header = .live) (hr : p.gc.Holds l) (hexact : Exact l p.res)
    {fd : Fd} (hright : ∀ x, (l.find? fun x => x.2.matches (.ofSocket fd) .socket) = some x →
      x.2.type = .socket) {gc : SsdsGc} (hgc : p.gc = gc.count (-1)) :
    Passes (do ssdsGcRemoveSteps (.ofSocket fd) .socket; sysClose fd) p Process.Covered fun _ t =>
      t.header = .live ∧
        t.track = (ssdsClose gc fd, { p.res with socks := p.res.socks.erase fd }) := by
  have hexact' := (exact_remove_socket_iff hexact fd).2 hright
  obtain ⟨gc₁, hremove, hpasses⟩ := remove_covered hlive hr hexact p.has_res hexact'
    (has_erase_socket p fd)
  obtain ⟨gc₂, hremove', hr'⟩ := ssdsGcRemove_view hr (.ofSocket fd) .socket
  obtain rfl : gc₁ = gc₂ := Except.ok.inj (hremove.symm.trans hremove')
  let t : Process := { p.withGc gc₁ with socks := p.socks.erase fd }
  have hrun : ssdsClose gc fd = .ok (.running gc₁) := by
    unfold ssdsClose
    rw [← hgc, show ssdsGcRemoveSocket p.gc fd = _ from hremove]
    rfl
  refine hpasses.followed (act_last (t := t) rfl ?_ ⟨hlive, Prod.ext hrun.symm rfl⟩)
  exact covered_of_holds (p := t) hlive hr' hexact' t.has_res

/-- A block that `realloc` moves away from an item. -/
def GcCall.Still : GcCall → Prop
  | .realloc oldPtr _ (some newPtr) _ => newPtr = oldPtr ∨ oldPtr = .null
  | _ => True

/-- **The steps of a call** that gets the block it needs end where the call does, and if no block
moves, a signal is handled on the way. -/
theorem call_passes (hlive : p.header = .live) (ht : Tracked p.track) {call : GcCall}
    (hadm : AdmittedStep p.track call) (hright : RightKind p.track call) (hgranted : call.Granted) :
    Passes call.steps p (fun t => call.Still → t.Covered) fun _ t =>
      t.header = .live ∧ t.track = trackStep p.track call := by
  obtain ⟨l, hr, hexact, -⟩ := ht
  have hcontract : call.Contract p.res := hadm.2 p.gc rfl
  have hfresh : call.Fresh p.gc := hadm.1 p.gc rfl
  rw [Process.track, rightKind_iff hr] at hright
  -- the counters are changed before anything else
  have hcount : ∀ gc : SsdsGc, gc.Holds l → call.Still → (p.withGc gc).Covered := by
    intro gc hr' _
    exact covered_of_holds (p := p.withGc gc) hlive hr' hexact (p.withGc gc).has_res
  cases call with
  | malloc size newPtr block =>
    let t := p.withGc ((p.gc.count 1).sized size)
    refine act_bind (t := p.withGc (p.gc.count 1)) rfl (hcount _ hr) ?_
    refine act_bind (t := t) rfl (hcount _ hr) ?_
    exact (mallocSteps_covered (p := t) hlive hr hexact hcontract hgranted hfresh rfl).weaken
      (fun _ h _ => h) fun _ _ h => h
  | calloc nItems size newPtr block =>
    let t := p.withGc ((p.gc.count 1).sized (nItems * size))
    refine act_bind (t := p.withGc (p.gc.count 1)) rfl (hcount _ hr) ?_
    refine act_bind (t := t) rfl (hcount _ hr) ?_
    exact (mallocSteps_covered (p := t) hlive hr hexact hcontract hgranted hfresh rfl).weaken
      (fun _ h _ => h) fun _ _ h => h
  | realloc oldPtr size newPtr block =>
    let t := p.withGc (p.gc.sized size)
    refine act_bind (t := t) rfl (hcount _ hr) ?_
    obtain ⟨-, hold, hnew⟩ := hcontract
    cases newPtr with
    | none => exact Passes.pure ⟨hlive, rfl⟩
    | some q =>
      obtain ⟨hnull, hq⟩ := hnew q rfl
      by_cases hne : q = oldPtr
      · subst hne
        have hsame : insert q (t.ptrs.erase q) = t.ptrs :=
          Finset.insert_erase (hold.resolve_left hnull)
        have hgive : { t with ptrs := insert q (t.ptrs.erase q) } = t := by rw [hsame]
        refine act_bind (t := t) ((if_pos hold).trans (congrArg _ hgive)) (hcount _ hr) ?_
        rw [if_neg (not_not_intro rfl)]
        refine Passes.pure ⟨hlive, Prod.ext ?_ ?_⟩
        · exact (if_neg (not_not_intro rfl)).symm
        · exact (if_neg (not_not_intro rfl)).symm
      · obtain ⟨gc, hremove, hpasses⟩ := moveSteps_passes (p := t) hlive hr hexact hold hne hnull
          (hq hne) (hgranted rfl fun h => hne (Option.some.inj h))
          (hright _ _ (if_pos hne)) (hfresh rfl fun h => hne (Option.some.inj h))
        refine hpasses.weaken (fun _ h hstill => h (hstill.resolve_left hne)) ?_
        have hrun : ssdsGcRealloc p.gc oldPtr size (some q) block = ssdsGcPushPtr gc q block :=
          (if_pos hne).trans (bind_of_ok hremove)
        rintro - u ⟨hlive', htrack⟩
        exact ⟨hlive', htrack.trans (Prod.ext hrun.symm (if_pos hne).symm)⟩
  | free ptr =>
    let t := p.withGc (p.gc.count (-1))
    refine act_bind (t := t) rfl (hcount _ hr) ?_
    exact (freeSteps_covered (p := t) hlive hr hexact hcontract (hright _ _ rfl) rfl).weaken
      (fun _ h _ => h) fun _ _ h => h
  | socket newSocket block =>
    let t := p.withGc (p.gc.count 1)
    refine act_bind (t := t) rfl (hcount _ hr) ?_
    exact (socketSteps_covered (p := t) hlive hr hexact hcontract hgranted hfresh rfl).weaken
      (fun _ h _ => h) fun _ _ h => h
  | accept newSocket block =>
    let t := p.withGc (p.gc.count 1)
    refine act_bind (t := t) rfl (hcount _ hr) ?_
    exact (socketSteps_covered (p := t) hlive hr hexact hcontract hgranted hfresh rfl).weaken
      (fun _ h _ => h) fun _ _ h => h
  | close fd =>
    let t := p.withGc (p.gc.count (-1))
    refine act_bind (t := t) rfl (hcount _ hr) ?_
    exact (closeSteps_covered (p := t) hlive hr hexact (hright _ _ rfl) rfl).weaken
      (fun _ h _ => h) fun _ _ h => h
  | push data type block => exact hcontract.elim
  | remove data type => exact hcontract.elim

/-! ## Calls that end the program -/

/-- The program exits, and on the way there is a moment where a signal is not handled. -/
structure Exits (x : Steps Unit) (p : Process) : Prop where
  run : x.run p = .error .exit
  seen : ∃ t ∈ x.seen p, ¬ Handled t

theorem Exits.after {α : Type} {x : Steps α} {f : α → Steps Unit} {a : α}
    (hx : x.run p = .ok (a, t)) (hf : Exits (f a) t) : Exits (x >>= f) p where
  run := (Prog.run_bind hx).trans hf.run
  seen := by
    obtain ⟨u, hu, hnot⟩ := hf.seen
    exact ⟨u, Prog.mem_seen_bind_right hx hu, hnot⟩

/-- Without a block for its item, what was got is left to the cleanup, and the collector is gone
before the program is. -/
theorem pushSteps_exits (hlive : p.header = .live) (hr : p.gc.Holds l) (hexact : Exact l res)
    (hhas : p.Has res) (data : AllocData) (type : AllocType) :
    Exits (ssdsGcPushSteps data type none) p := by
  obtain ⟨t, hrun, hheader, -⟩ := run_cleanupSteps hr.forward hr.nodup
    (hr.forward.length_le hr.nodup) (hexact.owned hhas.ptrs)
  have hlive' : t.header = .live := hheader.trans hlive
  have hfree : freeHeader.seen t = [{ t with header := .freed }] := by
    refine seen_act ?_
    rw [Process.follow_live hlive']
    rfl
  obtain ⟨u, hclean, -⟩ := (covered_of_holds hlive hr hexact hhas).handled
  refine ⟨(Prog.run_bind hclean).trans Prog.run_step, { t with header := .freed }, ?_, ?_⟩
  · refine Prog.mem_seen_bind_left ?_
    refine Prog.mem_seen_bind_right (run_loadTop hlive) ?_
    refine Prog.mem_seen_bind_right (run_turns p) ?_
    refine Prog.mem_seen_bind_right hrun (Prog.mem_seen_bind_left ?_)
    rw [hfree]
    exact List.mem_singleton_self _
  · exact not_handled_of_header (by simp)

theorem mallocSteps_exits (hlive : p.header = .live) (hr : p.gc.Holds l)
    (hexact : Exact l p.res) {newPtr : Option Address} {block : ItemBlock}
    (hgranted : ¬ (newPtr.isSome → block.isSome)) : Exits (mallocSteps newPtr block) p := by
  obtain ⟨q, rfl⟩ : ∃ q, newPtr = some q := Option.isSome_iff_exists.1 (by tauto)
  obtain rfl : block = none := by simpa using hgranted
  let t : Process := { p with ptrs := insert q p.ptrs }
  have hhas : t.Has p.res := has_of_insert_ptr rfl rfl
  exact Exits.after (t := t) (run_act rfl) (pushSteps_exits (p := t) hlive hr hexact hhas _ _)

theorem socketSteps_exits (hlive : p.header = .live) (hr : p.gc.Holds l)
    (hexact : Exact l p.res) {newSocket : Option Fd} {block : ItemBlock}
    (hgranted : ¬ (newSocket.isSome → block.isSome)) : Exits (socketSteps newSocket block) p := by
  obtain ⟨fd, rfl⟩ : ∃ fd, newSocket = some fd := Option.isSome_iff_exists.1 (by tauto)
  obtain rfl : block = none := by simpa using hgranted
  let t : Process := { p with socks := insert fd p.socks }
  have hhas : t.Has p.res := has_of_insert_socket rfl rfl
  exact Exits.after (t := t) (run_act rfl) (pushSteps_exits (p := t) hlive hr hexact hhas _ _)

/-- A block that moves, and none for its item. -/
theorem moveSteps_exits (hlive : p.header = .live) (hr : p.gc.Holds l) (hexact : Exact l p.res)
    {oldPtr q : Address} (hold : oldPtr = .null ∨ oldPtr ∈ p.ptrs) (hne : q ≠ oldPtr)
    (hright : ∀ x, (l.find? fun x => x.2.matches (.ofPtr oldPtr) .ptr) = some x →
      x.2.type = .ptr) :
    Exits (reallocSteps oldPtr (some q) none) p := by
  let t : Process := { p with ptrs := insert q (p.ptrs.erase oldPtr) }
  let res : Resources := { p.res with ptrs := p.res.ptrs.erase oldPtr }
  have hexact' : Exact (l.eraseP fun x => x.2.matches (.ofPtr oldPtr) .ptr) res :=
    (exact_remove_ptr_iff hexact oldPtr).2 hright
  have hhas : t.Has res := has_of_insert_ptr rfl rfl
  obtain ⟨gc, hremove, -, _, u, hrun, rfl⟩ := remove_passes (fun _ => True) (p := t) hlive hr
    (.ofPtr oldPtr) .ptr fun _ _ _ _ => trivial
  obtain ⟨gc', hremove', hr'⟩ := ssdsGcRemove_view hr (.ofPtr oldPtr) .ptr
  obtain rfl : gc = gc' := Except.ok.inj (hremove.symm.trans hremove')
  have hpush : Exits (ssdsGcPushSteps (.ofPtr q) .ptr none) (t.withGc gc) :=
    pushSteps_exits (p := t.withGc gc) hlive hr' hexact' ⟨hhas.1, hhas.2⟩ _ _
  refine Exits.after (t := t) (run_act (if_pos hold)) ?_
  rw [if_pos hne]
  exact Exits.after hrun hpush

/-- **A call that gets no block for its item** ends the program. -/
theorem call_exits (hlive : p.header = .live) (ht : Tracked p.track) {call : GcCall}
    (hadm : AdmittedStep p.track call) (hright : RightKind p.track call)
    (hgranted : ¬ call.Granted) : Exits call.steps p := by
  obtain ⟨l, hr, hexact, -⟩ := ht
  have hcontract : call.Contract p.res := hadm.2 p.gc rfl
  rw [Process.track, rightKind_iff hr] at hright
  cases call with
  | malloc size newPtr block =>
    let t := p.withGc ((p.gc.count 1).sized size)
    refine Exits.after (t := p.withGc (p.gc.count 1)) (run_act rfl) ?_
    exact Exits.after (t := t) (run_act rfl) (mallocSteps_exits (p := t) hlive hr hexact hgranted)
  | calloc nItems size newPtr block =>
    let t := p.withGc ((p.gc.count 1).sized (nItems * size))
    refine Exits.after (t := p.withGc (p.gc.count 1)) (run_act rfl) ?_
    exact Exits.after (t := t) (run_act rfl) (mallocSteps_exits (p := t) hlive hr hexact hgranted)
  | realloc oldPtr size newPtr block =>
    let t := p.withGc (p.gc.sized size)
    obtain ⟨q, rfl⟩ : ∃ q, newPtr = some q := by
      refine Option.isSome_iff_exists.1 ?_
      by_contra hnone
      exact hgranted fun h => absurd h hnone
    have hne : q ≠ oldPtr := by
      rintro rfl
      exact hgranted fun _ h => absurd rfl h
    obtain rfl : block = none := by
      by_contra hsome
      exact hgranted fun _ _ => Option.isSome_iff_ne_none.2 hsome
    exact Exits.after (t := t) (run_act rfl)
      (moveSteps_exits (p := t) hlive hr hexact hcontract.2.1 hne (hright _ _ (if_pos hne)))
  | free ptr => exact (hgranted trivial).elim
  | socket newSocket block =>
    let t := p.withGc (p.gc.count 1)
    exact Exits.after (t := t) (run_act rfl) (socketSteps_exits (p := t) hlive hr hexact hgranted)
  | accept newSocket block =>
    let t := p.withGc (p.gc.count 1)
    exact Exits.after (t := t) (run_act rfl) (socketSteps_exits (p := t) hlive hr hexact hgranted)
  | close fd => exact (hgranted trivial).elim
  | push data type block => exact hcontract.elim
  | remove data type => exact hcontract.elim

/-- **A block that has moved**: its item would free it again. -/
theorem moved_not_handled (hlive : p.header = .live) (ht : Tracked p.track) {call : GcCall}
    (hadm : AdmittedStep p.track call) (hstill : ¬ call.Still) :
    ∃ t ∈ call.steps.seen p, ¬ Handled t := by
  obtain ⟨l, hr, hexact, -⟩ := ht
  have hcontract : call.Contract p.res := hadm.2 p.gc rfl
  cases call with
  | realloc oldPtr size newPtr block =>
    cases newPtr with
    | none => exact (hstill trivial).elim
    | some q =>
      obtain ⟨hne, hnull⟩ := not_or.1 hstill
      have hold : oldPtr ∈ p.ptrs := hcontract.2.1.resolve_left hnull
      let t : Process :=
        { p.withGc (p.gc.sized size) with ptrs := insert q (p.ptrs.erase oldPtr) }
      refine ⟨t, Prog.mem_seen_bind_right (run_act rfl) (Prog.mem_seen_bind_left ?_), ?_⟩
      · have hseen : (sysRealloc oldPtr q).seen (p.withGc (p.gc.sized size)) = [t] :=
          seen_act (if_pos (Or.inr hold))
        have hmem : t ∈ (sysRealloc oldPtr q).seen (p.withGc (p.gc.sized size)) := by
          rw [hseen]
          exact List.mem_singleton_self t
        exact hmem
      · refine not_handled_of_dead (p := t) hlive hr.forward hr.nodup
          ((hexact.mem_heldPtrs oldPtr).2 hold) hnull ?_
        intro hmem
        rcases Finset.mem_insert.1 hmem with h | h
        · exact hne h.symm
        · exact Finset.notMem_erase _ _ h
  | _ => exact (hstill trivial).elim

theorem onList_push_none {call : GcCall} {data : AllocData} {type : AllocType}
    (h : call.ops = [.push data type none]) (l : GcItems) :
    ∃ released, call.onList l = .error released :=
  ⟨releases l, GcCall.onList_single h l⟩

theorem onList_of_not_granted {call : GcCall} (h : ¬ call.Granted) (l : GcItems) :
    ∃ released, call.onList l = .error released := by
  cases call with
  | malloc size newPtr block | calloc nItems size newPtr block =>
    obtain ⟨q, rfl⟩ : ∃ q, newPtr = some q := by
      refine Option.isSome_iff_exists.1 ?_
      by_contra hnone
      exact h fun hsome => absurd hsome hnone
    obtain rfl : block = none := by simpa [GcCall.Granted] using h
    exact onList_push_none rfl l
  | socket newSocket block | accept newSocket block =>
    obtain ⟨fd, rfl⟩ : ∃ fd, newSocket = some fd := by
      refine Option.isSome_iff_exists.1 ?_
      by_contra hnone
      exact h fun hsome => absurd hsome hnone
    obtain rfl : block = none := by simpa [GcCall.Granted] using h
    exact onList_push_none rfl l
  | realloc oldPtr size newPtr block =>
    simp only [GcCall.Granted, not_forall] at h
    obtain ⟨hsome, hne, hblock⟩ := h
    obtain ⟨q, rfl⟩ := Option.isSome_iff_exists.1 hsome
    obtain rfl : block = none := by simpa using hblock
    exact ⟨_, GcCall.onList_moved (fun h => hne (congrArg some h)) l size none⟩
  | push data type block =>
    obtain rfl : block = none := by simpa [GcCall.Granted] using h
    exact onList_push_none rfl l
  | free ptr => exact (h trivial).elim
  | close fd => exact (h trivial).elim
  | remove data type => exact (h trivial).elim

/-- The collector's own functions clean up and exit there. -/
theorem trackStep_exits (ht : Tracked p.track) {call : GcCall} (hadm : AdmittedStep p.track call)
    (hgranted : ¬ call.Granted) : ∃ released, (trackStep p.track call).1 = .ok (.exited released) := by
  obtain ⟨l, hr, -⟩ := ht
  obtain ⟨released, hlist⟩ := onList_of_not_granted hgranted l
  have hagrees := GcCall.run_view hr (hadm.1 p.gc rfl)
  rw [hlist] at hagrees
  have hrun : (trackStep p.track call).1 = call.run p.gc := rfl
  rw [hrun]
  cases h : call.run p.gc with
  | error e =>
    rw [h] at hagrees
    exact hagrees.elim
  | ok st =>
    rw [h] at hagrees
    cases st with
    | running gc => exact hagrees.elim
    | exited r => exact ⟨r, rfl⟩

/-! ## Runs -/

/-- Between two calls: the collector is there, and its tracking is exact. -/
def Process.Sound (p : Process) : Prop := p.header = .live ∧ Tracked p.track

theorem sound_init : Process.init.Sound := ⟨rfl, tracked_trackInit⟩

/-- What holds where a walk comes past everything, and only where a signal is handled. -/
theorem forall_points_iff {law : Process → Prop} (hcovered : ∀ p, p.Covered → law p)
    (hhandled : ∀ p, law p → Handled p) (calls : List GcCall)
    (hadm : Along trackStep AdmittedStep trackInit calls)
    (hright : Along trackStep RightKind trackInit calls) :
    (∀ p ∈ (calls.forM GcCall.steps).points Process.init, law p) ↔
      ∀ call ∈ calls, call.Granted ∧ call.Still := by
  have hinit : law Process.init :=
    hcovered _ (covered_of_holds rfl Represents.nil Exact.nil Process.init.has_res)
  have hok : ∀ (p : Process) (call : GcCall),
      AdmittedStep p.track call ∧ RightKind p.track call → p.Sound → call.Granted ∧ call.Still →
        Passes call.steps p law fun _ t => t.Sound ∧ t.track = trackStep p.track call := by
    rintro p call ⟨hadm, hright⟩ ⟨hlive, ht⟩ ⟨hgranted, hstill⟩
    refine (call_passes hlive ht hadm hright hgranted).weaken (fun t h => hcovered t (h hstill)) ?_
    rintro - t ⟨hlive', htrack⟩
    exact ⟨⟨hlive', htrack ▸ (tracked_step_iff _ call hadm ht).2 hright⟩, htrack⟩
  have hbad : ∀ (p : Process) (call : GcCall),
      AdmittedStep p.track call ∧ RightKind p.track call → p.Sound → ¬ (call.Granted ∧ call.Still) →
        ∃ t ∈ call.steps.seen p, ¬ law t := by
    rintro p call ⟨hadm, hright⟩ ⟨hlive, ht⟩ hnot
    have hseen : ∃ t ∈ call.steps.seen p, ¬ Handled t := by
      by_cases hgranted : call.Granted
      · exact moved_not_handled hlive ht hadm fun hstill => hnot ⟨hgranted, hstill⟩
      · exact (call_exits hlive ht hadm hright hgranted).seen
    obtain ⟨t, hmem, hlaw⟩ := hseen
    exact ⟨t, hmem, fun h => hlaw (hhandled t h)⟩
  have hrow := forall_seen_forM_iff Process.track
    (fun st call => AdmittedStep st call ∧ RightKind st call)
    (fun _ call => call.Granted ∧ call.Still) hok hbad (s := Process.init) (hadm.and hright)
    sound_init
  have hall : Along trackStep (fun _ call => call.Granted ∧ call.Still) trackInit calls ↔
      ∀ call ∈ calls, call.Granted ∧ call.Still := Along.forall_iff
  rw [← hall, Prog.points, List.forall_mem_cons]
  exact (and_iff_right hinit).trans hrow

/-- **A signal at any moment of a run**: the handler's cleanup ends well at each of them, with at
most one block or socket left over, if and only if every item gets its block and no block that
has an item moves. -/
theorem signal_handled_iff (calls : List GcCall)
    (hadm : Along trackStep AdmittedStep trackInit calls)
    (hright : Along trackStep RightKind trackInit calls) :
    (∀ p ∈ (calls.forM GcCall.steps).points Process.init, Handled p) ↔
      ∀ call ∈ calls, call.Granted ∧ call.Still :=
  forall_points_iff (fun _ h => h.handled) (fun _ h => h) calls hadm hright

/-- A block that is moved. -/
def movedCalls : List GcCall :=
  [.malloc 8 (some ⟨0x10, 0⟩) (some (⟨0x20, 0⟩, ⟨.null⟩)),
    .realloc ⟨0x10, 0⟩ 16 (some ⟨0x30, 0⟩) (some (⟨0x40, 0⟩, ⟨.null⟩))]

theorem movedCalls_admitted : Along trackStep AdmittedStep trackInit movedCalls := by
  refine ⟨⟨?_, ?_⟩, ⟨?_, ?_⟩, trivial⟩
  · intro gc h a junk hb
    cases h
    cases hb
    rfl
  · intro gc _ p hp
    cases hp
    exact ⟨by decide, Finset.notMem_empty _⟩
  · intro gc h _ _ gc' hgc' a junk hb
    cases h
    cases hgc'
    cases hb
    rfl
  · intro gc _
    refine ⟨by decide, Or.inr (by decide), ?_⟩
    intro p hp
    cases hp
    decide

theorem movedCalls_rightKind : Along trackStep RightKind trackInit movedCalls := by
  refine ⟨?_, ?_, trivial⟩
  · intro gc _ data type hn
    cases hn
  · intro gc h data type hn a c hsearch hc
    cases h
    cases hn
    cases hsearch
    cases hc
    rfl

/-- Behind `realloc`, a signal finds the old block in its item. -/
theorem signal_handled_moved :
    ¬ ∀ p ∈ (movedCalls.forM GcCall.steps).points Process.init, Handled p := by
  rw [signal_handled_iff movedCalls movedCalls_admitted movedCalls_rightKind]
  intro h
  obtain ⟨-, hmoved | hnull⟩ := h _ (List.mem_cons_of_mem _ List.mem_cons_self)
  · exact absurd hmoved (by decide)
  · exact absurd hnull (by decide)

/-- The end of a run, as the collector's own functions have it. -/
def EndsLike (r : Except Stop (Unit × Process)) : TrackState → Prop
  | (.ok (.running gc), res) => ∃ p, r = .ok ((), p) ∧ p.header = .live ∧ p.gc = gc ∧ p.res = res
  | (.ok (.exited _), _) => r = .error .exit
  | (.error _, _) => False

theorem endsLike_exited {st : TrackState} {released : List Release}
    (h : st.1 = .ok (.exited released)) : EndsLike (.error .exit) st := by
  obtain ⟨st, res⟩ := st
  cases h
  rfl

theorem foldl_exited {released : List Release} {calls : List GcCall} {st : TrackState}
    (h : st.1 = .ok (.exited released)) : (calls.foldl trackStep st).1 = .ok (.exited released) := by
  induction calls generalizing st with
  | nil => exact h
  | cons call calls ih =>
    refine ih ?_
    rw [trackStep, h]
    rfl

theorem steps_refine_from {calls : List GcCall} : ∀ {p : Process},
    Along trackStep AdmittedStep p.track calls → Along trackStep RightKind p.track calls →
      p.Sound → EndsLike ((calls.forM GcCall.steps).run p) (calls.foldl trackStep p.track) := by
  induction calls with
  | nil =>
    intro p _ _ hp
    exact ⟨p, rfl, hp.1, rfl, rfl⟩
  | cons call calls ih =>
    rintro p ⟨hadm, hadms⟩ ⟨hright, hrights⟩ ⟨hlive, ht⟩
    have hrow : (call :: calls).forM GcCall.steps =
        (call.steps >>= fun _ => calls.forM GcCall.steps) := rfl
    rw [hrow, List.foldl_cons]
    by_cases hgranted : call.Granted
    · obtain ⟨-, _, t, hrun, hlive', htrack⟩ := call_passes hlive ht hadm hright hgranted
      rw [← htrack] at hadms hrights ⊢
      rw [Prog.run_bind hrun]
      exact ih hadms hrights ⟨hlive', htrack ▸ (tracked_step_iff _ call hadm ht).2 hright⟩
    · obtain ⟨released, hexit⟩ := trackStep_exits ht hadm hgranted
      rw [Prog.run_bind_error (call_exits hlive ht hadm hright hgranted).run]
      exact endsLike_exited (foldl_exited hexit)

/-- **Undisturbed, the steps do what the functions do**: a run of calls ends with the collector
and the resources that the collector's own functions come to, or exits where they do. -/
theorem steps_refine (calls : List GcCall)
    (hadm : Along trackStep AdmittedStep trackInit calls)
    (hright : Along trackStep RightKind trackInit calls) :
    EndsLike ((calls.forM GcCall.steps).run Process.init) (calls.foldl trackStep trackInit) :=
  steps_refine_from hadm hright sound_init

/-- The steps of a run, for a block that moves. -/
theorem steps_refine_moved :
    EndsLike ((movedCalls.forM GcCall.steps).run Process.init)
      (movedCalls.foldl trackStep trackInit) :=
  steps_refine movedCalls movedCalls_admitted movedCalls_rightKind

end Rds
