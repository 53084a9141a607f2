import Rds.Proof.Tracking
import Rds.Spec.SignalHandler
import Mathlib.Data.Finset.Card

/-!
# What the handler does

The handler's cleanup walks from the first item on. Between two steps of the program the links may
be half made; what the walk comes past then decides how it ends.

* `run_cleanupSteps`: a walk past what is in use gives all of it back.
* `Process.Covered.handled`: a signal where the walk comes past all resources but one.
* `not_handled_of_dead`, `not_handled_of_header`: one where it comes past a block that has been
  given back, and one where the collector is gone.
-/

namespace Rds

open Interrupt DList

/-- The blocks and sockets of the process. -/
def Process.res (p : Process) : Resources := { ptrs := p.ptrs, socks := p.socks }

/-- The process between two calls. -/
def Process.track (p : Process) : TrackState := (.ok (.running p.gc), p.res)

/-- **A signal is handled**: the cleanup comes to its end without giving a block back that is not
in use, and at most one block or socket is left to the system. -/
def Handled (p : Process) : Prop :=
  ∃ p', ssdsSignalHandler.run p = .ok ((), p') ∧ p'.ptrs.card + p'.socks.card ≤ 1

variable {p t : Process} {l : GcItems} {res : Resources}

/-! ## Steps that are known -/

section
variable {α β : Type} {mid : Process → Prop} {post : α → Process → Prop}
  {post' : Unit → Process → Prop}

theorem look_bind {f : Process → Except Halt β} {g : β → Steps α} {b : β} (h : f p = .ok b)
    (hg : Passes (g b) p mid post) : Passes (look f >>= g) p mid post := by
  refine Passes.read_bind ?_ hg
  rw [h]
  rfl

theorem act_bind {f : Process → Except Halt Process} {g : Unit → Steps α} (h : f p = .ok t)
    (hmid : mid t) (hg : Passes (g ()) t mid post) : Passes (act f >>= g) p mid post := by
  refine Passes.step_bind ?_ hmid hg
  rw [h]
  rfl

theorem act_last {f : Process → Except Halt Process} (h : f p = .ok t) (hmid : mid t)
    (hpost : post' () t) : Passes (act f) p mid post' := by
  refine Passes.step ?_ hmid hpost
  rw [h]
  rfl

theorem run_look {f : Process → Except Halt β} {b : β} (h : f p = .ok b) :
    (look f).run p = .ok (b, p) := by
  unfold look
  rw [Prog.run_read, h]
  rfl

theorem run_act {f : Process → Except Halt Process} (h : f p = .ok t) :
    (act f).run p = .ok ((), t) := by
  unfold act
  rw [Prog.run_step, h]
  rfl

theorem run_act_error {f : Process → Except Halt Process} {e : Halt} (h : f p = .error e) :
    (act f).run p = .error (.halt e) := by
  unfold act
  rw [Prog.run_step, h]
  rfl

theorem seen_act_error {f : Process → Except Halt Process} {e : Halt} (h : f p = .error e) :
    (act f).seen p = [] := by
  refine Prog.seen_step_error (e := .halt e) ?_
  rw [h]
  rfl

theorem seen_act {f : Process → Except Halt Process} (h : f p = .ok t) :
    (act f).seen p = [t] := by
  refine Prog.seen_step (a := ()) ?_
  rw [h]
  rfl

end

/-! ## The handler -/

theorem Process.follow_live (h : p.header = .live) : p.follow = .ok p.gc := if_pos h

theorem run_look_error {β : Type} {f : Process → Except Halt β} {e : Halt} (h : f p = .error e) :
    (look f).run p = .error (.halt e) := by
  unfold look
  rw [Prog.run_read, h]
  rfl

theorem run_loadItem {a : Address} {c : Cell Address SsdsGcItem} (h : p.gc.heap.get a = some c) :
    (loadItem a).run p = .ok (c, p) :=
  run_look (derefItem_eq h)

theorem run_freeItem {a : Address} {c : Cell Address SsdsGcItem} (h : p.gc.heap.get a = some c) :
    (freeItem a).run p = .ok ((), p.setHeap (p.gc.heap.free a)) := by
  refine run_act ?_
  rw [derefItem_eq h]
  rfl

theorem run_sysClose (p : Process) (fd : Fd) :
    (sysClose fd).run p = .ok ((), { p with socks := p.socks.erase fd }) :=
  run_act rfl

/-- A block that is in use can be given back. -/
theorem run_sysFree {q : Address} (hnull : q ≠ .null) (hq : q ∈ p.ptrs) :
    (sysFree q).run p = .ok ((), { p with ptrs := p.ptrs.erase q }) := by
  refine run_act ?_
  rw [if_neg hnull, if_pos hq]

theorem run_sysFree_dead {q : Address} (hnull : q ≠ .null) (hq : q ∉ p.ptrs) :
    (sysFree q).run p = .error (.halt .crash) := by
  refine run_act_error ?_
  rw [if_neg hnull, if_neg hq]

/-- What a walk comes past is in use, each block once. -/
structure Owned (l : GcItems) (ptrs : Finset Address) : Prop where
  nodup : (heldPtrs l).Nodup
  mem : ∀ q ∈ heldPtrs l, q ≠ .null ∧ q ∈ ptrs

/-- One item of a walk: what it holds is given back, and the rest of the walk is in use still. -/
theorem release_owned {x : Address × SsdsGcItem} (hown : Owned (x :: l) p.ptrs) :
    ∃ t, (releaseSteps x.2).run p = .ok ((), t) ∧ t.gc = p.gc ∧ t.header = p.header ∧
      Owned l t.ptrs ∧
      (∀ q, q ∈ t.ptrs ∧ q ∉ heldPtrs l ↔ q ∈ p.ptrs ∧ q ∉ heldPtrs (x :: l)) ∧
      ∀ fd, fd ∈ t.socks ∧ fd ∉ heldSocks l ↔ fd ∈ p.socks ∧ fd ∉ heldSocks (x :: l) := by
  obtain ⟨hnodup, hmem⟩ := hown
  unfold releaseSteps
  cases htype : x.2.type with
  | socket =>
    rw [heldPtrs_cons_socket htype] at hnodup hmem ⊢
    rw [heldSocks_cons_socket htype]
    refine ⟨_, run_sysClose p _, rfl, rfl, ⟨hnodup, hmem⟩, fun q => Iff.rfl, ?_⟩
    intro fd
    simp only [Finset.mem_erase, List.mem_cons, not_or]
    exact ⟨fun h => ⟨h.1.2, h.1.1, h.2⟩, fun h => ⟨⟨h.2.1, h.1⟩, h.2.2⟩⟩
  | ptr =>
    rw [heldPtrs_cons_ptr htype] at hnodup hmem ⊢
    rw [heldSocks_cons_ptr htype]
    obtain ⟨hnot, hnodup⟩ := List.nodup_cons.1 hnodup
    obtain ⟨hnull, hlive⟩ := hmem _ List.mem_cons_self
    simp only [ne_eq, hnull, not_false_eq_true, if_true]
    refine ⟨_, run_sysFree hnull hlive, rfl, rfl, ⟨hnodup, ?_⟩, ?_, fun fd => Iff.rfl⟩
    · intro q hq
      obtain ⟨hqnull, hqlive⟩ := hmem q (List.mem_cons_of_mem _ hq)
      refine ⟨hqnull, Finset.mem_erase.2 ⟨?_, hqlive⟩⟩
      rintro rfl
      exact hnot hq
    · intro q
      simp only [Finset.mem_erase, List.mem_cons, not_or]
      exact ⟨fun h => ⟨h.1.2, h.1.1, h.2⟩, fun h => ⟨⟨h.2.1, h.1⟩, h.2.2⟩⟩

/-- A walk past the first item goes on when that item has been freed. -/
theorem forward_freed {heap : Heap Address SsdsGcItem} {x : Address × SsdsGcItem}
    {next : Option Address} (hf : Forward heap.get next l)
    (hnd : ((x :: l).map Prod.fst).Nodup) : Forward (heap.free x.1).get next l := by
  refine hf.congr ?_
  intro a ha
  have hax : a ≠ x.1 := by
    rintro rfl
    exact (List.nodup_cons.1 hnd).1 ha
  rw [Heap.get_free, if_neg hax]

/-- **A walk past what is in use** gives all of it back. -/
theorem run_cleanupSteps {n : ℕ} {top : Option Address} (hf : Forward p.gc.heap.get top l)
    (hnd : (l.map Prod.fst).Nodup) (hn : l.length ≤ n) (hown : Owned l p.ptrs) :
    ∃ t, (cleanupSteps n top).run p = .ok ((), t) ∧ t.header = p.header ∧
      (∀ q, q ∈ t.ptrs ↔ q ∈ p.ptrs ∧ q ∉ heldPtrs l) ∧
      ∀ fd, fd ∈ t.socks ↔ fd ∈ p.socks ∧ fd ∉ heldSocks l := by
  induction l generalizing p n top with
  | nil =>
    obtain rfl : top = none := hf
    refine ⟨p, by cases n <;> rfl, rfl, ?_, ?_⟩
    · simp [heldPtrs]
    · simp [heldSocks]
  | cons x l ih =>
    obtain ⟨n, rfl⟩ : ∃ k, n = k + 1 := ⟨n - 1, by rw [List.length_cons] at hn; omega⟩
    obtain ⟨rfl, c, hc, hval, hf⟩ := hf
    obtain ⟨t, hrelease, hgc, hheader, hown', hptrs, hsocks⟩ := release_owned hown
    have hfree := run_freeItem (p := t) (hgc ▸ hc)
    have hlen : l.length ≤ n := by rw [List.length_cons] at hn; omega
    have hwalk : Forward (t.setHeap (t.gc.heap.free x.1)).gc.heap.get c.next l :=
      forward_freed (hgc ▸ hf) hnd
    obtain ⟨t', hrun, hheader', hptrs', hsocks'⟩ :=
      ih hwalk (List.nodup_cons.1 hnd).2 hlen hown'
    refine ⟨t', ?_, hheader'.trans hheader, ?_, ?_⟩
    · rw [cleanupSteps, Prog.run_bind (run_loadItem hc), hval, Prog.run_bind hrelease,
        Prog.run_bind hfree]
      exact hrun
    · intro q
      exact (hptrs' q).trans (hptrs q)
    · intro fd
      exact (hsocks' fd).trans (hsocks fd)

/-- **A walk past a block that has been given back** frees it again. -/
theorem run_cleanupSteps_dead {n : ℕ} {top : Option Address} (hf : Forward p.gc.heap.get top l)
    (hnd : (l.map Prod.fst).Nodup) (hn : l.length ≤ n) {q : Address} (hq : q ∈ heldPtrs l)
    (hnull : q ≠ .null) (hdead : q ∉ p.ptrs) :
    (cleanupSteps n top).run p = .error (.halt .crash) := by
  induction l generalizing p n top with
  | nil => cases hq
  | cons x l ih =>
    obtain ⟨n, rfl⟩ : ∃ k, n = k + 1 := ⟨n - 1, by rw [List.length_cons] at hn; omega⟩
    obtain ⟨rfl, c, hc, hval, hf⟩ := hf
    have hlen : l.length ≤ n := by rw [List.length_cons] at hn; omega
    -- what is left to do once the item's own block or socket is gone
    have hrest : ∀ t : Process, t.gc = p.gc → q ∈ heldPtrs l → q ∉ t.ptrs →
        (freeItem x.1 >>= fun _ => cleanupSteps n c.next).run t = .error (.halt .crash) := by
      intro t hgc hq hdead
      have hwalk : Forward (t.setHeap (t.gc.heap.free x.1)).gc.heap.get c.next l :=
        forward_freed (hgc ▸ hf) hnd
      rw [Prog.run_bind (run_freeItem (hgc ▸ hc))]
      exact ih hwalk (List.nodup_cons.1 hnd).2 hlen hq hdead
    rw [cleanupSteps, Prog.run_bind (run_loadItem hc), hval]
    unfold releaseSteps
    cases htype : x.2.type with
    | socket =>
      rw [heldPtrs_cons_socket htype] at hq
      simp only
      rw [Prog.run_bind (run_sysClose p _)]
      exact hrest _ rfl hq hdead
    | ptr =>
      rw [heldPtrs_cons_ptr htype, List.mem_cons] at hq
      by_cases hx : x.2.data.ptr = .null
      · have hne : q ≠ x.2.data.ptr := fun h => hnull (h.trans hx)
        simp only [hx, ne_eq, not_true_eq_false, if_false]
        rw [Prog.run_bind (Prog.run_pure () p)]
        exact hrest p rfl (hq.resolve_left hne) hdead
      · simp only [ne_eq, hx, not_false_eq_true, if_true]
        by_cases hlive : x.2.data.ptr ∈ p.ptrs
        · rw [Prog.run_bind (run_sysFree hx hlive)]
          have hne : q ≠ x.2.data.ptr := fun h => hdead (h ▸ hlive)
          exact hrest _ rfl (hq.resolve_left hne) fun h => hdead (Finset.mem_of_mem_erase h)
        · exact Prog.run_bind_error (run_sysFree_dead hx hlive)

theorem run_loadTop (hlive : p.header = .live) : loadTop.run p = .ok (p.gc.top, p) := by
  refine run_look ?_
  rw [Process.follow_live hlive]
  rfl

theorem run_turns (p : Process) : turns.run p = .ok (p.gc.heap.length, p) := run_look rfl

theorem run_freeHeader (hlive : p.header = .live) :
    freeHeader.run p = .ok ((), { p with header := .freed }) := by
  refine run_act ?_
  rw [Process.follow_live hlive]
  rfl

theorem run_clearHeader (p : Process) :
    clearHeader.run p = .ok ((), { p with header := .null }) :=
  run_act rfl

theorem run_clearCounters (p : Process) : clearCounters.run p =
    .ok ((), { p with gc := { p.gc with numItems := 0, allocated := 0 } }) :=
  run_act rfl

/-- The handler up to its walk. -/
theorem run_handler (hlive : p.header = .live) : ssdsSignalHandler.run p =
    (cleanupSteps p.gc.heap.length p.gc.top >>= fun _ => freeHeader >>= fun _ =>
      clearHeader >>= fun _ => clearCounters).run p := by
  unfold ssdsSignalHandler ssdsGcCleanupSteps
  rw [Prog.run_bind (run_loadTop hlive), Prog.run_bind (run_turns p)]

/-- Without a collector there is nothing to clean up. -/
theorem not_handled_of_header (h : p.header ≠ .live) : ¬ Handled p := by
  have htop : loadTop.run p = .error (.halt .crash) := by
    refine run_look_error ?_
    unfold Process.follow
    rw [if_neg h]
    rfl
  rintro ⟨t, hrun, -⟩
  unfold ssdsSignalHandler ssdsGcCleanupSteps at hrun
  rw [Prog.run_bind_error htop] at hrun
  cases hrun

/-- A block that has been given back and is still in an item is freed twice. -/
theorem not_handled_of_dead (hlive : p.header = .live) (hf : Forward p.gc.heap.get p.gc.top l)
    (hnd : (l.map Prod.fst).Nodup) {q : Address} (hq : q ∈ heldPtrs l) (hnull : q ≠ .null)
    (hdead : q ∉ p.ptrs) : ¬ Handled p := by
  have hcrash := run_cleanupSteps_dead hf hnd (hf.length_le hnd) hq hnull hdead
  rintro ⟨t, hrun, -⟩
  rw [run_handler hlive, Prog.run_bind_error hcrash] at hrun
  cases hrun

/-! ## Items and resources -/

theorem Exact.mem_heldPtrs (h : Exact l res) (q : Address) : q ∈ heldPtrs l ↔ q ∈ res.ptrs := by
  rw [← List.count_pos_iff, h.ptr]
  split <;> simp [*]

theorem Exact.mem_heldSocks (h : Exact l res) (fd : Fd) : fd ∈ heldSocks l ↔ fd ∈ res.socks := by
  rw [← List.count_pos_iff, h.sock]
  split <;> simp [*]

theorem Exact.owned (h : Exact l res) {ptrs : Finset Address} (hsub : res.ptrs ⊆ ptrs) :
    Owned l ptrs where
  nodup := by
    refine List.nodup_iff_count_le_one.2 ?_
    intro q
    rw [h.ptr]
    split <;> omega
  mem := by
    intro q hq
    rw [h.mem_heldPtrs] at hq
    refine ⟨?_, hsub hq⟩
    rintro rfl
    exact h.null hq

/-- The process has these blocks, and at most one block or socket beside what is tracked. -/
structure Process.Has (p : Process) (res : Resources) : Prop where
  ptrs : res.ptrs ⊆ p.ptrs
  card : (p.ptrs \ res.ptrs).card + (p.socks \ res.socks).card ≤ 1

/-- **A walk comes past all resources but one**, and past nothing else. -/
structure Process.Covered (p : Process) : Prop where
  live : p.header = .live
  walk : ∃ l res, Forward p.gc.heap.get p.gc.top l ∧ (l.map Prod.fst).Nodup ∧ Exact l res ∧ p.Has res

/-- A signal is handled then. -/
theorem Process.Covered.handled (h : p.Covered) : Handled p := by
  obtain ⟨hlive, l, res, hf, hnd, hexact, hhas⟩ := h
  obtain ⟨t, hrun, hheader, hleft, hleft'⟩ :=
    run_cleanupSteps hf hnd (hf.length_le hnd) (hexact.owned hhas.ptrs)
  have hlive' : t.header = .live := hheader.trans hlive
  have hptrs : t.ptrs = p.ptrs \ res.ptrs := by
    ext q
    rw [hleft, hexact.mem_heldPtrs, Finset.mem_sdiff]
  have hsocks : t.socks = p.socks \ res.socks := by
    ext fd
    rw [hleft', hexact.mem_heldSocks, Finset.mem_sdiff]
  have hend : ∃ u, ssdsSignalHandler.run p = .ok ((), u) ∧ u.ptrs = t.ptrs ∧ u.socks = t.socks := by
    rw [run_handler hlive, Prog.run_bind hrun, Prog.run_bind (run_freeHeader hlive'),
      Prog.run_bind (run_clearHeader _), run_clearCounters]
    exact ⟨_, rfl, rfl, rfl⟩
  obtain ⟨u, hu, huptrs, husocks⟩ := hend
  refine ⟨u, hu, ?_⟩
  rw [huptrs, husocks, hptrs, hsocks]
  exact hhas.card

theorem covered_of_forward (hlive : p.header = .live) (hf : Forward p.gc.heap.get p.gc.top l)
    (hnd : (l.map Prod.fst).Nodup) (hexact : Exact l res) (hhas : p.Has res) : p.Covered :=
  ⟨hlive, l, res, hf, hnd, hexact, hhas⟩

theorem covered_of_holds (hlive : p.header = .live) (hr : p.gc.Holds l) (hexact : Exact l res)
    (hhas : p.Has res) : p.Covered :=
  ⟨hlive, l, res, hr.forward, hr.nodup, hexact, hhas⟩

theorem Process.has_res (p : Process) : p.Has p.res where
  ptrs := Finset.Subset.refl _
  card := by simp [Process.res]

/-- All but one element of a set. -/
theorem card_sdiff_erase_le {α : Type} [DecidableEq α] (s : Finset α) (a : α) :
    (s \ s.erase a).card ≤ 1 := by
  have hsub : s \ s.erase a ⊆ {a} := by
    intro b hb
    simp only [Finset.mem_sdiff, Finset.mem_erase, not_and] at hb
    by_contra hne
    exact hb.2 (fun h => hne (Finset.mem_singleton.2 h)) hb.1
  exact (Finset.card_le_card hsub).trans (Finset.card_singleton a).le

theorem card_insert_sdiff_le {α : Type} [DecidableEq α] (s : Finset α) (a : α) :
    (insert a s \ s).card ≤ 1 := by
  have hsub : insert a s \ s ⊆ {a} := by
    intro b hb
    obtain ⟨hmem, hnot⟩ := Finset.mem_sdiff.1 hb
    exact Finset.mem_singleton.2 ((Finset.mem_insert.1 hmem).resolve_right hnot)
  exact (Finset.card_le_card hsub).trans (Finset.card_singleton a).le

theorem has_erase_ptr (p : Process) (q : Address) :
    p.Has { p.res with ptrs := p.res.ptrs.erase q } where
  ptrs := Finset.erase_subset _ _
  card := by
    simp only [Process.res, Finset.sdiff_self, Finset.card_empty, Nat.add_zero]
    exact card_sdiff_erase_le _ _

theorem has_erase_socket (p : Process) (fd : Fd) :
    p.Has { p.res with socks := p.res.socks.erase fd } where
  ptrs := Finset.Subset.refl _
  card := by
    simp only [Process.res, Finset.sdiff_self, Finset.card_empty, Nat.zero_add]
    exact card_sdiff_erase_le _ _

theorem has_of_insert_ptr {q : Address} (hptrs : p.ptrs = insert q res.ptrs)
    (hsocks : p.socks = res.socks) : p.Has res where
  ptrs := hptrs ▸ Finset.subset_insert _ _
  card := by
    rw [hptrs, hsocks, Finset.sdiff_self, Finset.card_empty, Nat.add_zero]
    exact card_insert_sdiff_le _ _

theorem has_of_insert_socket {fd : Fd} (hptrs : p.ptrs = res.ptrs)
    (hsocks : p.socks = insert fd res.socks) : p.Has res where
  ptrs := hptrs ▸ Finset.Subset.refl _
  card := by
    rw [hptrs, hsocks, Finset.sdiff_self, Finset.card_empty, Nat.zero_add]
    exact card_insert_sdiff_le _ _

end Rds
