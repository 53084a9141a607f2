import Rds.Proof.Signals

/-!
# A signal during the cleanup

The handler can be interrupted by a signal of another kind, whose handler then cleans up what is
left. `Cleans` says what a step of the cleanup can do; `second_signal_iff` is the result.
-/

namespace Rds

open Interrupt DList Invariant

variable {p t : Process} {l : GcItems} {res : Resources}

/-- What a step of the cleanup can do: the first item's address stays, nothing is put back, and
what has been freed stays freed. -/
structure Cleans (p t : Process) : Prop where
  top : t.gc.top = p.gc.top
  socks : t.socks ⊆ p.socks
  heap : ∀ a, p.gc.heap.get a = none → t.gc.heap.get a = none
  header : p.header ≠ .live → t.header ≠ .live

section
variable {inv : Process → Prop}

theorem act_maintains (hinv : ∀ p t, Cleans p t → inv p → inv t)
    {f : Process → Except Halt Process} (hf : ∀ p t, f p = .ok t → Cleans p t) :
    Maintains inv (act f) := by
  refine Maintains.step ?_
  intro p a t hp h
  cases hfp : f p with
  | error e =>
    rw [hfp] at h
    cases h
  | ok u =>
    rw [hfp] at h
    cases h
    exact hinv p _ (hf p _ hfp) hp

theorem sysClose_maintains (hinv : ∀ p t, Cleans p t → inv p → inv t) (fd : Fd) :
    Maintains inv (sysClose fd) := by
  refine act_maintains hinv ?_
  intro p t h
  cases h
  exact ⟨rfl, Finset.erase_subset _ _, fun _ h => h, fun h => h⟩

theorem sysFree_maintains (hinv : ∀ p t, Cleans p t → inv p → inv t) (q : Address) :
    Maintains inv (sysFree q) := by
  refine act_maintains hinv ?_
  intro p t h
  split at h
  · cases h
    exact ⟨rfl, Finset.Subset.refl _, fun _ h => h, fun h => h⟩
  · split at h
    · cases h
      exact ⟨rfl, Finset.Subset.refl _, fun _ h => h, fun h => h⟩
    · cases h

theorem freeItem_maintains (hinv : ∀ p t, Cleans p t → inv p → inv t) (a : Address) :
    Maintains inv (freeItem a) := by
  refine act_maintains hinv ?_
  intro p t h
  cases hc : derefItem p.gc.heap a with
  | error e =>
    rw [hc] at h
    cases h
  | ok c =>
    rw [hc] at h
    cases h
    refine ⟨rfl, Finset.Subset.refl _, ?_, fun h => h⟩
    intro b hb
    have hget : (p.gc.heap.free a).get b = if b = a then none else p.gc.heap.get b :=
      Heap.get_free _ _ _
    exact hget.trans (by rw [hb, ite_self])

theorem releaseSteps_maintains (hinv : ∀ p t, Cleans p t → inv p → inv t) (item : SsdsGcItem) :
    Maintains inv (releaseSteps item) := by
  unfold releaseSteps
  split
  · exact sysClose_maintains hinv _
  · split
    · exact sysFree_maintains hinv _
    · exact Maintains.pure ()

theorem cleanupSteps_maintains (hinv : ∀ p t, Cleans p t → inv p → inv t) (n : ℕ) :
    ∀ top, Maintains inv (cleanupSteps n top) := by
  induction n with
  | zero =>
    intro top
    cases top with
    | none => exact Maintains.pure ()
    | some a => exact Maintains.read _
  | succ n ih =>
    intro top
    cases top with
    | none => exact Maintains.pure ()
    | some a =>
      refine (Maintains.read _).bind fun c => ?_
      exact (releaseSteps_maintains hinv c.val).bind fun _ =>
        (freeItem_maintains hinv a).bind fun _ => ih c.next

/-- What follows the walk. -/
def lastSteps : Steps Unit := do
  freeHeader
  clearHeader
  clearCounters

theorem lastSteps_maintains (hinv : ∀ p t, Cleans p t → inv p → inv t) :
    Maintains inv lastSteps := by
  have hfree : Maintains inv freeHeader := by
    refine act_maintains hinv ?_
    intro p t h
    unfold Process.follow at h
    split at h
    · cases h
      exact ⟨rfl, Finset.Subset.refl _, fun _ h => h, fun _ => by simp⟩
    · cases h
  have hclear : Maintains inv clearHeader := by
    refine act_maintains hinv ?_
    intro p t h
    cases h
    exact ⟨rfl, Finset.Subset.refl _, fun _ h => h, fun _ => by simp⟩
  have hcounters : Maintains inv clearCounters := by
    refine act_maintains hinv ?_
    intro p t h
    cases h
    exact ⟨rfl, Finset.Subset.refl _, fun _ h => h, fun h => h⟩
  exact hfree.bind fun _ => hclear.bind fun _ => hcounters

theorem handler_maintains (hinv : ∀ p t, Cleans p t → inv p → inv t) :
    Maintains inv ssdsSignalHandler := by
  have htop : Maintains inv loadTop := Maintains.read _
  have hturns : Maintains inv turns := Maintains.read _
  refine htop.bind fun top => hturns.bind fun n => ?_
  exact (cleanupSteps_maintains hinv n top).bind fun _ => lastSteps_maintains hinv

end

/-- The first item has been freed, or the collector has. -/
def Gone (a : Address) (p : Process) : Prop :=
  p.header ≠ .live ∨ p.gc.top = some a ∧ p.gc.heap.get a = none

theorem Gone.kept {a : Address} (p t : Process) (h : Cleans p t) (hp : Gone a p) : Gone a t := by
  rcases hp with hp | ⟨htop, hget⟩
  · exact Or.inl (h.header hp)
  · exact Or.inr ⟨h.top.trans htop, h.heap a hget⟩

/-- A walk cannot even start there. -/
theorem Gone.not_handled {a : Address} (h : Gone a p) : ¬ Handled p := by
  by_cases hlive : p.header = .live
  · obtain ⟨htop, hget⟩ := h.resolve_left (not_not_intro hlive)
    rintro ⟨t, hrun, -⟩
    have hstop : ∃ e, (cleanupSteps p.gc.heap.length (some a)).run p = .error e := by
      cases p.gc.heap.length with
      | zero => exact ⟨_, run_look_error rfl⟩
      | succ n =>
        have hload : (loadItem a).run p = .error (.halt .crash) := by
          refine run_look_error ?_
          unfold derefItem
          rw [hget]
        exact ⟨_, Prog.run_bind_error hload⟩
    obtain ⟨e, hstop⟩ := hstop
    rw [run_handler hlive, htop, Prog.run_bind_error hstop] at hrun
    cases hrun
  · exact not_handled_of_header hlive

theorem lastSteps_seen (hlive : p.header = .live) (ht : t ∈ lastSteps.seen p) :
    t.header ≠ .live := by
  have hfree : freeHeader.seen p = [{ p with header := .freed }] := by
    refine seen_act ?_
    rw [Process.follow_live hlive]
    rfl
  have hclear : ∀ u : Process, clearHeader.seen u = [{ u with header := .null }] :=
    fun u => seen_act rfl
  have hcounters : ∀ u : Process,
      clearCounters.seen u = [{ u with gc := { u.gc with numItems := 0, allocated := 0 } }] :=
    fun u => seen_act rfl
  unfold lastSteps at ht
  rw [Prog.seen_bind (run_freeHeader hlive), Prog.seen_bind (run_clearHeader _), hfree, hclear,
    hcounters] at ht
  simp only [List.cons_append, List.nil_append, List.mem_cons, List.not_mem_nil, or_false] at ht
  rcases ht with rfl | rfl | rfl <;> simp

/-- The first item freed, and whatever comes behind it. -/
theorem gone_of_freeItem {a : Address} {f : Unit → Steps Unit} (htop : p.gc.top = some a)
    (hf : Maintains (Gone a) (f ())) (ht : t ∈ (freeItem a >>= f).seen p) : Gone a t := by
  have hgone : Gone a (p.setHeap (p.gc.heap.free a)) := by
    refine Or.inr ⟨htop, ?_⟩
    have hget : (p.gc.heap.free a).get a = if a = a then none else p.gc.heap.get a :=
      Heap.get_free _ _ _
    exact hget.trans (if_pos rfl)
  cases hc : p.gc.heap.get a with
  | none =>
    have hfail : (derefItem p.gc.heap a).map (fun _ => p.setHeap (p.gc.heap.free a)) =
        .error .crash := by
      unfold derefItem
      rw [hc]
      rfl
    have hnone : (freeItem a).seen p = [] := seen_act_error hfail
    have hrun : (freeItem a).run p = .error (.halt .crash) := run_act_error hfail
    rw [Prog.seen_bind_error hrun, hnone] at ht
    cases ht
  | some c =>
    rw [Prog.seen_bind (run_freeItem hc)] at ht
    rcases List.mem_append.1 ht with ht | ht
    · have hseen : (freeItem a).seen p = [p.setHeap (p.gc.heap.free a)] := by
        refine seen_act ?_
        rw [derefItem_eq hc]
        rfl
      rw [hseen] at ht
      rw [List.mem_singleton.1 ht]
      exact hgone
    · exact hf.seen hgone ht

/-- What the item that is released first leaves to a second cleanup: a socket can be closed
twice, a block cannot be freed twice. -/
theorem releaseSteps_seen {x : Address × SsdsGcItem} (hlive : p.header = .live)
    (hf : Forward p.gc.heap.get p.gc.top (x :: l)) (hnd : ((x :: l).map Prod.fst).Nodup)
    (hown : Owned (x :: l) p.ptrs) (ht : t ∈ (releaseSteps x.2).seen p) :
    ¬ Handled t ∨ t.gc.heap = p.gc.heap ∧ t.ptrs = p.ptrs ∧ t.header = p.header := by
  unfold releaseSteps at ht
  cases htype : x.2.type with
  | socket =>
    rw [htype] at ht
    have hseen : (sysClose x.2.data.sockFd).seen p =
        [{ p with socks := p.socks.erase x.2.data.sockFd }] := seen_act rfl
    rw [hseen] at ht
    rw [List.mem_singleton.1 ht]
    exact Or.inr ⟨rfl, rfl, rfl⟩
  | ptr =>
    have hmem : x.2.data.ptr ∈ heldPtrs (x :: l) := by
      rw [heldPtrs_cons_ptr htype]
      exact List.mem_cons_self
    obtain ⟨hnull, hin⟩ := hown.mem _ hmem
    have hseen : (sysFree x.2.data.ptr).seen p =
        [{ p with ptrs := p.ptrs.erase x.2.data.ptr }] := by
      refine seen_act ?_
      rw [if_neg hnull, if_pos hin]
    rw [htype] at ht
    simp only [ne_eq, hnull, not_false_eq_true, if_true, hseen, List.mem_singleton] at ht
    left
    rw [ht]
    exact not_handled_of_dead (p := { p with ptrs := p.ptrs.erase x.2.data.ptr }) hlive hf hnd hmem
      hnull (Finset.notMem_erase _ _)

/-- **A second signal**, at a moment where a first one is handled. -/
theorem Process.Covered.second_iff (h : p.Covered) (ht : t ∈ ssdsSignalHandler.points p) :
    Handled t ↔ t.gc.heap = p.gc.heap ∧ t.ptrs = p.ptrs ∧ t.header = p.header := by
  obtain ⟨hlive, l, res, hf, hnd, hexact, hhas⟩ := h
  have hkept : t.gc.top = p.gc.top ∧ t.socks ⊆ p.socks := by
    have hinv : ∀ u v : Process, Cleans u v → u.gc.top = p.gc.top ∧ u.socks ⊆ p.socks →
        v.gc.top = p.gc.top ∧ v.socks ⊆ p.socks :=
      fun u v huv hu => ⟨huv.top.trans hu.1, huv.socks.trans hu.2⟩
    rcases List.mem_cons.1 ht with rfl | ht
    · exact ⟨rfl, Finset.Subset.refl _⟩
    · exact (handler_maintains hinv).seen ⟨rfl, Finset.Subset.refl _⟩ ht
  constructor
  · intro hhandled
    rcases List.mem_cons.1 ht with rfl | ht
    · exact ⟨rfl, rfl, rfl⟩
    have hseen : t ∈ (cleanupSteps p.gc.heap.length p.gc.top >>= fun _ => lastSteps).seen p := by
      have hhandler : ssdsSignalHandler.seen p = loadTop.seen p ++ (turns.seen p ++
          (cleanupSteps p.gc.heap.length p.gc.top >>= fun _ => lastSteps).seen p) := by
        unfold ssdsSignalHandler ssdsGcCleanupSteps
        rw [Prog.seen_bind (run_loadTop hlive), Prog.seen_bind (run_turns p)]
        rfl
      rwa [hhandler, show loadTop.seen p = [] from Prog.seen_read _ _,
        show turns.seen p = [] from Prog.seen_read _ _] at ht
    cases l with
    | nil =>
      have hempty : ∀ n, cleanupSteps n none = pure () := by
        intro n
        cases n <;> rfl
      rw [show p.gc.top = none from hf, hempty, pure_bind] at hseen
      exact absurd hhandled (not_handled_of_header (lastSteps_seen hlive hseen))
    | cons x l =>
      have hlen := hf.length_le hnd
      obtain ⟨n, hn⟩ : ∃ n, p.gc.heap.length = n + 1 :=
        ⟨p.gc.heap.length - 1, by rw [List.length_cons] at hlen; omega⟩
      have hwalk := hf
      obtain ⟨htop, c, hc, hval, -⟩ := hf
      rw [hn, htop, cleanupSteps] at hseen
      simp only [bind_assoc] at hseen
      rw [Prog.seen_bind (run_loadItem hc), show (loadItem x.1).seen p = [] from Prog.seen_read _ _,
        List.nil_append, hval] at hseen
      rcases Prog.mem_seen_bind hseen with hseen | ⟨⟨⟩, u, hrun, hseen⟩
      · have hown := hexact.owned hhas.ptrs
        exact (releaseSteps_seen hlive hwalk hnd hown hseen).resolve_left (not_not_intro hhandled)
      · have hgone : Gone x.1 t := by
          refine gone_of_freeItem ?_ ?_ hseen
          · have hinv : ∀ u v : Process, Cleans u v → u.gc.top = p.gc.top → v.gc.top = p.gc.top :=
              fun u v huv hu => huv.top.trans hu
            exact ((releaseSteps_maintains hinv x.2 p rfl).2 () u hrun).trans htop
          · exact (cleanupSteps_maintains Gone.kept n c.next).bind fun _ =>
              lastSteps_maintains Gone.kept
        exact absurd hhandled hgone.not_handled
  · rintro ⟨hheap, hptrs, hheader⟩
    refine (covered_of_forward (hheader.trans hlive) ?_ hnd hexact ⟨hptrs ▸ hhas.ptrs, ?_⟩).handled
    · rw [hheap, hkept.1]
      exact hf
    · have hle := Finset.card_le_card (Finset.sdiff_subset_sdiff hkept.2 (Finset.Subset.refl res.socks))
      have hone := hhas.card
      rw [hptrs]
      omega

/-- **A second signal during the cleanup for a first one**, wherever that one finds a run of calls
that get their blocks and move none: it is handled only until the first block or item is freed. -/
theorem second_signal_iff (calls : List GcCall)
    (hadm : Along trackStep AdmittedStep trackInit calls)
    (hright : Along trackStep RightKind trackInit calls)
    (hcalls : ∀ call ∈ calls, call.Granted ∧ call.Still) (p t : Process)
    (hp : p ∈ (calls.forM GcCall.steps).points Process.init)
    (ht : t ∈ ssdsSignalHandler.points p) :
    Handled t ↔ t.gc.heap = p.gc.heap ∧ t.ptrs = p.ptrs ∧ t.header = p.header := by
  have hcovered : ∀ p ∈ (calls.forM GcCall.steps).points Process.init, p.Covered :=
    (forall_points_iff (fun _ h => h) (fun _ h => h.handled) calls hadm hright).2 hcalls
  exact (hcovered p hp).second_iff ht

/-- A socket and a block; the socket is closed. -/
def keptCalls : List GcCall :=
  [.socket (some 3) (some (⟨0x20, 0⟩, ⟨.null⟩)),
    .malloc 8 (some ⟨0x10, 0⟩) (some (⟨0x40, 0⟩, ⟨.null⟩)), .close 3]

theorem keptCalls_admitted : Along trackStep AdmittedStep trackInit keptCalls := by
  refine ⟨⟨?_, ?_⟩, ⟨?_, ?_⟩, ⟨?_, ?_⟩, trivial⟩
  · intro gc h a junk hb
    cases h
    cases hb
    rfl
  · intro gc _ fd _
    exact Finset.notMem_empty fd
  · intro gc h a junk hb
    cases h
    cases hb
    rfl
  · intro gc _ p hp
    cases hp
    exact ⟨by decide, Finset.notMem_empty _⟩
  · intro gc _
    trivial
  · intro gc _
    exact Finset.mem_insert_self _ _

theorem keptCalls_rightKind : Along trackStep RightKind trackInit keptCalls := by
  refine ⟨?_, ?_, ?_, trivial⟩
  · intro gc _ data type hn
    cases hn
  · intro gc _ data type hn
    cases hn
  · intro gc h data type hn a c hsearch hc
    cases h
    cases hn
    cases hsearch
    cases hc
    rfl

/-- Behind these calls, and behind a cleanup that comes then. -/
def keptProcess : Process :=
  ((keptCalls.forM GcCall.steps).points Process.init).getLast (List.cons_ne_nil _ _)

def cleanedProcess : Process :=
  (ssdsSignalHandler.points keptProcess).getLast (List.cons_ne_nil _ _)

/-- A second signal behind the cleanup. -/
theorem second_signal_kept :
    Handled cleanedProcess ↔ cleanedProcess.gc.heap = keptProcess.gc.heap ∧
      cleanedProcess.ptrs = keptProcess.ptrs ∧ cleanedProcess.header = keptProcess.header := by
  have hcalls : ∀ call ∈ keptCalls, call.Granted ∧ call.Still := by
    simp [keptCalls, GcCall.Granted, GcCall.Still]
  exact second_signal_iff keptCalls keptCalls_admitted keptCalls_rightKind hcalls keptProcess
    cleanedProcess (List.getLast_mem _) (List.getLast_mem _)

end Rds
