import Mathlib.Data.Finset.Basic
import Rds.Proof.Collector

/-!
# What the collector keeps track of

The caller's resources are the pointers that are live and the sockets that are open. The
collector is exact if it has one item for each of them and no other.

* `exact_push_ptr`, `exact_push_socket`: a new resource.
* `exact_remove_ptr_iff`, `exact_remove_socket_iff`: a resource given back.
* `tracking_exact_iff`: the collector is exact in every state of a run exactly if every search
  finds an item of the kind it is for.
-/

namespace Rds

open DList

/-- The live pointers and the open sockets. -/
structure Resources where
  ptrs : Finset Address
  socks : Finset Fd
  deriving DecidableEq

/-- Nothing. -/
def Resources.none : Resources := { ptrs := ∅, socks := ∅ }

/-- The pointers in items of their kind. -/
def heldPtrs (l : GcItems) : List Address :=
  l.filterMap fun x => if x.2.type = .ptr then some x.2.data.ptr else Option.none

/-- The descriptors in items of their kind. -/
def heldSocks (l : GcItems) : List Fd :=
  l.filterMap fun x => if x.2.type = .socket then some x.2.data.sockFd else Option.none

/-- **Tracking is exact**: one item for every resource, and no other. -/
structure Exact (l : GcItems) (res : Resources) : Prop where
  ptr : ∀ p, (heldPtrs l).count p = if p ∈ res.ptrs then 1 else 0
  sock : ∀ fd, (heldSocks l).count fd = if fd ∈ res.socks then 1 else 0
  null : Address.null ∉ res.ptrs

/-- Every resource is given back once, and nothing else is. -/
structure ReleasesOnce (released : List Release) (res : Resources) : Prop where
  ptr : ∀ p, released.count (.free p) = if p ∈ res.ptrs then 1 else 0
  sock : ∀ fd, released.count (.close fd) = if fd ∈ res.socks then 1 else 0

variable {l : GcItems} {res : Resources} {gc : SsdsGc}

/-! ## Items of each kind -/

theorem heldPtrs_append (l m : GcItems) : heldPtrs (l ++ m) = heldPtrs l ++ heldPtrs m :=
  List.filterMap_append

theorem heldSocks_append (l m : GcItems) : heldSocks (l ++ m) = heldSocks l ++ heldSocks m :=
  List.filterMap_append

theorem heldPtrs_cons_ptr {x : Address × SsdsGcItem} (h : x.2.type = .ptr) (l : GcItems) :
    heldPtrs (x :: l) = x.2.data.ptr :: heldPtrs l := by simp [heldPtrs, h]

theorem heldSocks_cons_ptr {x : Address × SsdsGcItem} (h : x.2.type = .ptr) (l : GcItems) :
    heldSocks (x :: l) = heldSocks l := by simp [heldSocks, h]

theorem heldPtrs_cons_socket {x : Address × SsdsGcItem} (h : x.2.type = .socket) (l : GcItems) :
    heldPtrs (x :: l) = heldPtrs l := by simp [heldPtrs, h]

theorem heldSocks_cons_socket {x : Address × SsdsGcItem} (h : x.2.type = .socket) (l : GcItems) :
    heldSocks (x :: l) = x.2.data.sockFd :: heldSocks l := by simp [heldSocks, h]

theorem releases_cons (x : Address × SsdsGcItem) (l : GcItems) :
    releases (x :: l) = x.2.release ++ releases l := rfl

/-- What a cleanup frees: the pointers in the items, unless they are `NULL`. -/
theorem count_free_releases {p : Address} (hp : p ≠ .null) (l : GcItems) :
    (releases l).count (.free p) = (heldPtrs l).count p := by
  induction l with
  | nil => rfl
  | cons x l ih =>
    rw [releases_cons, List.count_append, ih]
    cases htype : x.2.type with
    | socket => rw [heldPtrs_cons_socket htype]; simp [SsdsGcItem.release, htype]
    | ptr =>
      rw [heldPtrs_cons_ptr htype, List.count_cons]
      by_cases hx : x.2.data.ptr = .null
      · have hne : x.2.data.ptr ≠ p := fun h => hp (h ▸ hx)
        simp [SsdsGcItem.release, htype, hx, Ne.symm hp]
      · simp [SsdsGcItem.release, htype, hx, List.count_cons]
        omega

theorem count_free_null (l : GcItems) : (releases l).count (.free .null) = 0 := by
  induction l with
  | nil => rfl
  | cons x l ih =>
    rw [releases_cons, List.count_append, ih]
    cases htype : x.2.type with
    | socket => simp [SsdsGcItem.release, htype]
    | ptr =>
      by_cases hx : x.2.data.ptr = .null
      · simp [SsdsGcItem.release, htype, hx]
      · simp [SsdsGcItem.release, htype, hx]

theorem count_close_releases (fd : Fd) (l : GcItems) :
    (releases l).count (.close fd) = (heldSocks l).count fd := by
  induction l with
  | nil => rfl
  | cons x l ih =>
    rw [releases_cons, List.count_append, ih]
    cases htype : x.2.type with
    | socket =>
      rw [heldSocks_cons_socket htype, List.count_cons]
      simp [SsdsGcItem.release, htype, List.count_cons]
      omega
    | ptr =>
      rw [heldSocks_cons_ptr htype]
      by_cases hx : x.2.data.ptr = .null <;> simp [SsdsGcItem.release, htype, hx]

/-- **A cleanup of exact items** gives every resource back once. -/
theorem Exact.releases (h : Exact l res) : ReleasesOnce (releases l) res where
  ptr := by
    intro p
    by_cases hp : p = .null
    · rw [hp, count_free_null, if_neg h.null]
    · rw [count_free_releases hp, h.ptr]
  sock := fun fd => (count_close_releases fd l).trans (h.sock fd)

/-! ## Operations -/

theorem matches_ptr_iff {item : SsdsGcItem} {p : Address} :
    item.matches (.ofPtr p) .ptr = true ↔ item.data.ptr = p :=
  decide_eq_true_iff

theorem matches_socket_iff {item : SsdsGcItem} {fd : Fd} :
    item.matches (.ofSocket fd) .socket = true ↔ item.data.sockFd = fd :=
  decide_eq_true_iff

theorem Exact.nil : Exact [] .none where
  ptr := fun _ => rfl
  sock := fun _ => rfl
  null := Finset.notMem_empty _

theorem exact_push_ptr (h : Exact l res) {p : Address} (hp : p ∉ res.ptrs) (hnull : p ≠ .null)
    (a : Address) (junk : AllocData) :
    Exact ((a, newItem (.ofPtr p) .ptr junk) :: l) { res with ptrs := insert p res.ptrs } where
  ptr := by
    intro q
    rw [heldPtrs_cons_ptr rfl, List.count_cons, h.ptr]
    simp only [Finset.mem_insert, newItem, AllocData.ofPtr, beq_iff_eq]
    by_cases hq : p = q
    · subst hq
      simp [hp]
    · simp [hq, Ne.symm hq]
  sock := by
    intro fd
    rw [heldSocks_cons_ptr rfl]
    exact h.sock fd
  null := by
    rw [Finset.mem_insert]
    rintro (hn | hn)
    · exact hnull hn.symm
    · exact h.null hn

theorem exact_push_socket (h : Exact l res) {fd : Fd} (hfd : fd ∉ res.socks) (a : Address)
    (junk : AllocData) :
    Exact ((a, newItem (.ofSocket fd) .socket junk) :: l)
      { res with socks := insert fd res.socks } where
  ptr := by
    intro p
    rw [heldPtrs_cons_socket rfl]
    exact h.ptr p
  sock := by
    intro q
    rw [heldSocks_cons_socket rfl, List.count_cons, h.sock]
    simp only [Finset.mem_insert, newItem, AllocData.ofSocket, AllocData.setSockFd,
      AllocData.sockFd, beq_iff_eq]
    by_cases hq : fd = q
    · subst hq
      simp [hfd]
    · simp [hq, Ne.symm hq]
  null := h.null

/-- A pointer without a match in the list is not in an item. -/
theorem count_heldPtrs_eq_zero {p : Address}
    (h : ∀ x ∈ l, ¬ x.2.matches (.ofPtr p) .ptr) : (heldPtrs l).count p = 0 := by
  rw [List.count_eq_zero]
  intro hmem
  obtain ⟨x, hx, hxp⟩ := List.mem_filterMap.1 hmem
  split at hxp
  · exact h x hx (matches_ptr_iff.2 (Option.some.inj hxp))
  · cases hxp

theorem count_heldSocks_eq_zero {fd : Fd}
    (h : ∀ x ∈ l, ¬ x.2.matches (.ofSocket fd) .socket) : (heldSocks l).count fd = 0 := by
  rw [List.count_eq_zero]
  intro hmem
  obtain ⟨x, hx, hxp⟩ := List.mem_filterMap.1 hmem
  split at hxp
  · exact h x hx (matches_socket_iff.2 (Option.some.inj hxp))
  · cases hxp

/-- An item of a socket is missed where it is taken out. -/
theorem socket_missed {l₁ l₂ : GcItems} {x : Address × SsdsGcItem}
    (h : Exact (l₁ ++ x :: l₂) res) (hx : x.2.type = .socket) :
    (heldSocks (l₁ ++ l₂)).count x.2.data.sockFd ≠
      if x.2.data.sockFd ∈ res.socks then 1 else 0 := by
  have hbefore := h.sock x.2.data.sockFd
  rw [heldSocks_append, heldSocks_cons_socket hx, List.count_append, List.count_cons_self]
    at hbefore
  rw [heldSocks_append, List.count_append]
  omega

/-- So is an item of a pointer. -/
theorem not_exact_of_ptr {l₁ l₂ : GcItems} {x : Address × SsdsGcItem} {socks : Finset Fd}
    (h : Exact (l₁ ++ x :: l₂) res) (hx : x.2.type = .ptr) :
    ¬ Exact (l₁ ++ l₂) { res with socks } := by
  intro h'
  have hbefore := h.ptr x.2.data.ptr
  have hafter := h'.ptr x.2.data.ptr
  rw [heldPtrs_append, heldPtrs_cons_ptr hx, List.count_append, List.count_cons_self] at hbefore
  rw [heldPtrs_append, List.count_append] at hafter
  simp only at hafter
  omega

/-- A list that counts a set still does without one of its elements. -/
theorem count_erase {α : Type} [DecidableEq α] {s : Finset α} {l₁ l₂ : List α} {p : α}
    (h : ∀ q, (l₁ ++ p :: l₂).count q = if q ∈ s then 1 else 0) (q : α) :
    (l₁ ++ l₂).count q = if q ∈ s.erase p then 1 else 0 := by
  have hq := h q
  rw [List.count_append, List.count_cons] at hq
  rw [List.count_append]
  simp only [Finset.mem_erase]
  by_cases hqp : p = q
  · subst hqp
    rw [if_neg (by simp)]
    simp only [beq_self_eq_true, if_true] at hq
    split at hq <;> omega
  · simpa [hqp, Ne.symm hqp] using hq

/-- **A pointer given back**: exact tracking is kept if the search finds no socket. -/
theorem exact_remove_ptr_iff (h : Exact l res) (p : Address) :
    Exact (l.eraseP fun x => x.2.matches (.ofPtr p) .ptr)
        { res with ptrs := res.ptrs.erase p } ↔
      ∀ x, (l.find? fun x => x.2.matches (.ofPtr p) .ptr) = some x → x.2.type = .ptr := by
  obtain ⟨hfind, herase⟩ | ⟨l₁, x, l₂, rfl, hfind, herase⟩ :=
    find_eraseP (fun x : Address × SsdsGcItem => x.2.matches (.ofPtr p) .ptr) l
  · rw [hfind, herase]
    have hcount := count_heldPtrs_eq_zero fun x hx => List.find?_eq_none.1 hfind x hx
    have hp : p ∉ res.ptrs := by
      intro hp
      rw [h.ptr, if_pos hp] at hcount
      cases hcount
    rw [Finset.erase_eq_of_notMem hp]
    exact ⟨fun _ x hx => (by cases hx), fun _ => h⟩
  · rw [hfind, herase]
    have hmatch := List.find?_some hfind
    have hxp : x.2.data.ptr = p := matches_ptr_iff.1 hmatch
    cases hx : x.2.type with
    | socket =>
      refine ⟨fun h' => (socket_missed h hx (h'.sock _)).elim, fun h' => ?_⟩
      rw [h' x rfl] at hx
      cases hx
    | ptr =>
      refine ⟨fun _ y hy => Option.some.inj hy ▸ hx, fun _ => ⟨?_, ?_, ?_⟩⟩
      · have hptrs := h.ptr
        rw [heldPtrs_append, heldPtrs_cons_ptr hx, hxp] at hptrs
        rw [heldPtrs_append]
        exact count_erase hptrs
      · intro fd
        have hfd := h.sock fd
        rwa [heldSocks_append, heldSocks_cons_ptr hx, ← heldSocks_append] at hfd
      · intro hmem
        exact h.null (Finset.mem_of_mem_erase hmem)

/-- **A socket given back**: exact tracking is kept if the search finds no pointer. -/
theorem exact_remove_socket_iff (h : Exact l res) (fd : Fd) :
    Exact (l.eraseP fun x => x.2.matches (.ofSocket fd) .socket)
        { res with socks := res.socks.erase fd } ↔
      ∀ x, (l.find? fun x => x.2.matches (.ofSocket fd) .socket) = some x →
        x.2.type = .socket := by
  obtain ⟨hfind, herase⟩ | ⟨l₁, x, l₂, rfl, hfind, herase⟩ :=
    find_eraseP (fun x : Address × SsdsGcItem => x.2.matches (.ofSocket fd) .socket) l
  · rw [hfind, herase]
    have hcount := count_heldSocks_eq_zero fun x hx => List.find?_eq_none.1 hfind x hx
    have hfd : fd ∉ res.socks := by
      intro hfd
      rw [h.sock, if_pos hfd] at hcount
      cases hcount
    rw [Finset.erase_eq_of_notMem hfd]
    exact ⟨fun _ x hx => (by cases hx), fun _ => h⟩
  · rw [hfind, herase]
    have hmatch := List.find?_some hfind
    have hxfd : x.2.data.sockFd = fd := matches_socket_iff.1 hmatch
    cases hx : x.2.type with
    | ptr =>
      refine ⟨fun h' => absurd h' (not_exact_of_ptr h hx), fun h' => ?_⟩
      rw [h' x rfl] at hx
      cases hx
    | socket =>
      refine ⟨fun _ y hy => Option.some.inj hy ▸ hx, fun _ => ⟨?_, ?_, h.null⟩⟩
      · intro p
        have hp := h.ptr p
        rwa [heldPtrs_append, heldPtrs_cons_socket hx, ← heldPtrs_append] at hp
      · have hsocks := h.sock
        rw [heldSocks_append, heldSocks_cons_socket hx, hxfd] at hsocks
        rw [heldSocks_append]
        exact count_erase hsocks

/-! ## Calls -/

/-- A block that the caller gets; without a block for its item the call does not return. -/
def Resources.gainPtr (res : Resources) : Option Address → ItemBlock → Resources
  | some p, some _ => { res with ptrs := insert p res.ptrs }
  | _, _ => res

/-- A socket that the caller gets. -/
def Resources.gainSocket (res : Resources) : Option Fd → ItemBlock → Resources
  | some fd, some _ => { res with socks := insert fd res.socks }
  | _, _ => res

/-- The caller's resources after a call. -/
def GcCall.resources (res : Resources) : GcCall → Resources
  | .malloc _ newPtr block | .calloc _ _ newPtr block => res.gainPtr newPtr block
  | .realloc _ _ none _ => res
  | .realloc oldPtr _ (some newPtr) block =>
    if newPtr ≠ oldPtr then
      { res with ptrs := res.ptrs.erase oldPtr }.gainPtr (some newPtr) block
    else res
  | .free ptr => { res with ptrs := res.ptrs.erase ptr }
  | .socket newSocket block | .accept newSocket block => res.gainSocket newSocket block
  | .close fd => { res with socks := res.socks.erase fd }
  | .push _ _ _ | .remove _ _ => res

/-- What callers and the system promise: live pointers or `NULL` are given back or resized,
open sockets are closed, and what the system gives is not in use. -/
def GcCall.Contract (res : Resources) : GcCall → Prop
  | .malloc _ newPtr _ | .calloc _ _ newPtr _ =>
    ∀ p, newPtr = some p → p ≠ .null ∧ p ∉ res.ptrs
  | .realloc oldPtr size newPtr _ =>
    0 < size ∧ (oldPtr = .null ∨ oldPtr ∈ res.ptrs) ∧
      ∀ p, newPtr = some p → p ≠ .null ∧ (p ≠ oldPtr → p ∉ res.ptrs)
  | .free ptr => ptr = .null ∨ ptr ∈ res.ptrs
  | .socket newSocket _ | .accept newSocket _ => ∀ fd, newSocket = some fd → fd ∉ res.socks
  | .close fd => fd ∈ res.socks
  | .push _ _ _ | .remove _ _ => False

/-- What the system alone promises: what it gives is not in use. -/
def GcCall.Given (res : Resources) : GcCall → Prop
  | .malloc _ newPtr _ | .calloc _ _ newPtr _ =>
    ∀ p, newPtr = some p → p ≠ .null ∧ p ∉ res.ptrs
  | .realloc oldPtr _ newPtr _ =>
    ∀ p, newPtr = some p → p ≠ .null ∧ (p ≠ oldPtr → p ∉ res.ptrs)
  | .socket newSocket _ | .accept newSocket _ => ∀ fd, newSocket = some fd → fd ∉ res.socks
  | .free _ | .close _ => True
  | .push _ _ _ | .remove _ _ => False

theorem GcCall.Contract.given {call : GcCall} (h : call.Contract res) : call.Given res := by
  cases call with
  | malloc => exact h
  | calloc => exact h
  | realloc => exact h.2.2
  | free => trivial
  | socket => exact h
  | accept => exact h
  | close => trivial
  | push => exact h
  | remove => exact h

/-- A call that needs a block for a new item gets one. -/
def GcCall.Granted : GcCall → Prop
  | .malloc _ newPtr block | .calloc _ _ newPtr block => newPtr.isSome → block.isSome
  | .realloc oldPtr _ newPtr block => newPtr.isSome → newPtr ≠ some oldPtr → block.isSome
  | .socket newSocket block | .accept newSocket block => newSocket.isSome → block.isSome
  | .push _ _ block => block.isSome
  | .free _ | .close _ | .remove _ _ => True

/-- What a call looks for in the list to take it out. -/
def GcCall.removal : GcCall → Option (AllocData × AllocType)
  | .realloc oldPtr _ (some newPtr) _ =>
    if newPtr ≠ oldPtr then some (.ofPtr oldPtr, .ptr) else none
  | .free ptr => some (.ofPtr ptr, .ptr)
  | .close fd => some (.ofSocket fd, .socket)
  | _ => none

/-- The items are exact, or what was given back is. -/
def TrackedList (res : Resources) : Except (List Release) GcItems → Prop
  | .ok l => Exact l res
  | .error released => ReleasesOnce released res

theorem tracked_push_ptr (h : Exact l res) {p : Address} (hp : p ∉ res.ptrs) (hnull : p ≠ .null)
    (block : ItemBlock) :
    TrackedList (res.gainPtr (some p) block) (GcOp.onList l (.push (.ofPtr p) .ptr block)) := by
  cases block with
  | none => exact h.releases
  | some b => exact exact_push_ptr h hp hnull b.1 b.2

theorem tracked_push_socket (h : Exact l res) {fd : Fd} (hfd : fd ∉ res.socks)
    (block : ItemBlock) :
    TrackedList (res.gainSocket (some fd) block)
      (GcOp.onList l (.push (.ofSocket fd) .socket block)) := by
  cases block with
  | none => exact h.releases
  | some b => exact exact_push_socket h hfd b.1 b.2

/-- A new pointer does not make up for a socket that is missed. -/
theorem tracked_sock {p : Address} {block : ItemBlock}
    (h : TrackedList (res.gainPtr (some p) block) (GcOp.onList l (.push (.ofPtr p) .ptr block)))
    (fd : Fd) : (heldSocks l).count fd = if fd ∈ res.socks then 1 else 0 := by
  cases block with
  | none => exact (count_close_releases fd l).symm.trans (h.sock fd)
  | some b =>
    have hfd := h.sock fd
    rwa [heldSocks_cons_ptr rfl] at hfd

/-- A call that gets a pointer keeps tracking exact. -/
theorem tracked_malloc (h : Exact l res) (size : ℤ) {newPtr : Option Address}
    (hnew : ∀ p, newPtr = some p → p ≠ .null ∧ p ∉ res.ptrs) (block : ItemBlock) :
    TrackedList (res.gainPtr newPtr block) (GcCall.onList l (.malloc size newPtr block)) := by
  cases newPtr with
  | none => exact h
  | some p =>
    rw [GcCall.onList_single rfl]
    exact tracked_push_ptr h (hnew p rfl).2 (hnew p rfl).1 block

/-- A call that gets a socket does, too. -/
theorem tracked_socket (h : Exact l res) {newSocket : Option Fd}
    (hnew : ∀ fd, newSocket = some fd → fd ∉ res.socks) (block : ItemBlock) :
    TrackedList (res.gainSocket newSocket block) (GcCall.onList l (.socket newSocket block)) := by
  cases newSocket with
  | none => exact h
  | some fd =>
    rw [GcCall.onList_single rfl]
    exact tracked_push_socket h (hnew fd rfl) block

/-- **A block that moves** stays tracked if its item is the one that is found: the item of a
socket would be missed. -/
theorem tracked_moved_iff (h : Exact l res) {oldPtr p : Address} (size : ℤ) (hp : p ≠ oldPtr)
    (hnull : p ≠ .null) (hfresh : p ∉ res.ptrs) (block : ItemBlock) :
    TrackedList ({ res with ptrs := res.ptrs.erase oldPtr }.gainPtr (some p) block)
        (GcCall.onList l (.realloc oldPtr size (some p) block)) ↔
      ∀ x, (l.find? fun x => x.2.matches (.ofPtr oldPtr) .ptr) = some x → x.2.type = .ptr := by
  rw [GcCall.onList_moved hp]
  constructor
  · intro htracked
    by_contra hwrong
    push Not at hwrong
    obtain ⟨x, hfind, hx⟩ := hwrong
    have hx : x.2.type = .socket := by
      cases htype : x.2.type with
      | socket => rfl
      | ptr => exact absurd htype hx
    obtain ⟨hnone, -⟩ | ⟨l₁, y, l₂, rfl, hfind', herase⟩ :=
      find_eraseP (fun x : Address × SsdsGcItem => x.2.matches (.ofPtr oldPtr) .ptr) l
    · rw [hnone] at hfind
      cases hfind
    · rw [hfind] at hfind'
      cases hfind'
      rw [herase] at htracked
      exact socket_missed h hx (tracked_sock htracked _)
  · intro hright
    have hexact := (exact_remove_ptr_iff h oldPtr).2 hright
    refine tracked_push_ptr hexact ?_ hnull block
    exact fun hmem => hfresh (Finset.mem_of_mem_erase hmem)

/-- A call that takes nothing out. -/
theorem forall_no_removal {P : AllocData → AllocType → Prop} :
    ∀ d t, (none : Option (AllocData × AllocType)) = some (d, t) → P d t := by
  intro d t heq
  cases heq

/-- A call that takes one item out. -/
theorem forall_removal_iff {data : AllocData} {type : AllocType}
    {P : AllocData → AllocType → Prop} :
    (∀ d t, some (data, type) = some (d, t) → P d t) ↔ P data type := by
  constructor
  · intro h
    exact h data type rfl
  · intro h d t heq
    cases heq
    exact h

/-- **One call** keeps tracking exact exactly if its search finds an item of its kind. -/
theorem GcCall.tracked_iff (h : Exact l res) {call : GcCall} (hc : call.Given res) :
    TrackedList (call.resources res) (call.onList l) ↔
      ∀ data type, call.removal = some (data, type) →
        ∀ x, (l.find? fun x => x.2.matches data type) = some x → x.2.type = type := by
  cases call with
  | malloc size newPtr block =>
    exact ⟨fun _ => forall_no_removal, fun _ => tracked_malloc h size hc block⟩
  | calloc nItems size newPtr block =>
    exact ⟨fun _ => forall_no_removal, fun _ => tracked_malloc h size hc block⟩
  | realloc oldPtr size newPtr block =>
    cases newPtr with
    | none => exact ⟨fun _ => forall_no_removal, fun _ => h⟩
    | some p =>
      obtain ⟨hnull, hfresh⟩ := hc p rfl
      by_cases hp : p = oldPtr
      · rw [hp, GcCall.onList_stayed]
        simp only [GcCall.resources, GcCall.removal, ne_eq, not_true_eq_false, if_false]
        exact ⟨fun _ => forall_no_removal, fun _ => h⟩
      · simp only [GcCall.resources, GcCall.removal, ne_eq, hp, not_false_eq_true, if_true]
        rw [forall_removal_iff]
        exact tracked_moved_iff h size hp hnull (hfresh hp) block
  | free ptr =>
    rw [GcCall.onList_single rfl]
    simp only [GcCall.resources, GcCall.removal]
    rw [forall_removal_iff]
    exact exact_remove_ptr_iff h ptr
  | socket newSocket block =>
    exact ⟨fun _ => forall_no_removal, fun _ => tracked_socket h hc block⟩
  | accept newSocket block =>
    exact ⟨fun _ => forall_no_removal, fun _ => tracked_socket h hc block⟩
  | close fd =>
    rw [GcCall.onList_single rfl]
    simp only [GcCall.resources, GcCall.removal]
    rw [forall_removal_iff]
    exact exact_remove_socket_iff h fd
  | push data type block => exact hc.elim
  | remove data type => exact hc.elim

/-! ## Runs -/

/-- The collector and the caller's resources. -/
abbrev TrackState := Except Halt GcState × Resources

/-- One call of a program. -/
def trackStep (st : TrackState) (call : GcCall) : TrackState :=
  (gcStep st.1 call,
    match st.1 with
    | .ok (.running _) => call.resources st.2
    | _ => st.2)

/-- A program that starts to use the collector. -/
def trackInit : TrackState := (.ok (.running ssdsGcInit), .none)

/-- What callers and the system promise about a step of a run. -/
def AdmittedStep (st : TrackState) (call : GcCall) : Prop :=
  FreshStep st.1 call ∧ ∀ gc, st.1 = .ok (.running gc) → call.Contract st.2

/-- **The search finds the right kind**: if the call takes an item out, the one that
`ssds_gc_search` finds is of the kind that is given back. -/
def RightKind (st : TrackState) (call : GcCall) : Prop :=
  ∀ gc, st.1 = .ok (.running gc) → ∀ data type, call.removal = some (data, type) →
    ∀ a c, ssdsGcSearch gc data type = .ok (some a) → gc.heap.get a = some c → c.val.type = type

/-- **Tracking is exact in a state**: one item for each resource and no other, so that a cleanup
gives each back once. A program that has exited has given each back once. -/
def Tracked (st : TrackState) : Prop :=
  match st.1 with
  | .ok (.running gc) => ∃ l, gc.Holds l ∧ Exact l st.2 ∧
      ∃ released heap, ssdsGcCleanup gc = .ok (released, heap) ∧ ReleasesOnce released st.2
  | .ok (.exited released) => ReleasesOnce released st.2
  | .error _ => False

theorem tracked_running (hr : gc.Holds l) (res : Resources) :
    Tracked (.ok (.running gc), res) ↔ Exact l res := by
  constructor
  · rintro ⟨m, hm, hexact, -⟩
    rwa [hr.unique hm]
  · intro hexact
    obtain ⟨heap, hclean, -⟩ := ssdsGcCleanup_view hr
    exact ⟨l, hr, hexact, _, heap, hclean, hexact.releases⟩

theorem Agrees.tracked_iff {st : Except Halt GcState} {lst : Except (List Release) GcItems}
    (h : Agrees st lst) (res : Resources) : Tracked (st, res) ↔ TrackedList res lst := by
  match st, lst, h with
  | .ok (.running gc), .ok l, h => exact tracked_running h res
  | .ok (.exited released), .error _, rfl => exact Iff.rfl

/-- The item that the search finds is the first one of the list that matches. -/
theorem rightKind_iff (hr : gc.Holds l) (res : Resources) (call : GcCall) :
    RightKind (.ok (.running gc), res) call ↔
      ∀ data type, call.removal = some (data, type) →
        ∀ x, (l.find? fun x => x.2.matches data type) = some x → x.2.type = type := by
  have hitem : ∀ data type x, (l.find? fun x => x.2.matches data type) = some x →
      ∃ c, gc.heap.get x.1 = some c ∧ c.val = x.2 := by
    intro data type x hx
    obtain ⟨l₁, l₂, rfl⟩ := List.append_of_mem (List.mem_of_find?_eq_some hx)
    exact ⟨_, hr.cell, rfl⟩
  constructor
  · intro h data type hn x hx
    obtain ⟨c, hc, hval⟩ := hitem data type x hx
    rw [← hval]
    refine h gc rfl data type hn x.1 c ?_ hc
    rw [ssdsGcSearch_eq hr, hx]
    rfl
  · intro h gc' hgc data type hn a c hsearch hc
    cases hgc
    rw [ssdsGcSearch_eq hr] at hsearch
    obtain ⟨x, hx, rfl⟩ := Option.map_eq_some_iff.1 (Except.ok.inj hsearch)
    obtain ⟨c', hc', hval⟩ := hitem data type x hx
    rw [hc] at hc'
    cases hc'
    rw [hval]
    exact h data type hn x hx

/-- **One step.** -/
theorem tracked_step_iff (st : TrackState) (call : GcCall) (hadm : AdmittedStep st call)
    (h : Tracked st) : Tracked (trackStep st call) ↔ RightKind st call := by
  obtain ⟨st, res⟩ := st
  match st, h with
  | .ok (.running gc), h =>
    obtain ⟨l, hr, hexact, -⟩ := h
    obtain ⟨hfresh, hc⟩ := hadm
    have hagrees : Agrees (gcStep (.ok (.running gc)) call) (call.onList l) :=
      GcCall.run_view hr (hfresh gc rfl)
    rw [rightKind_iff hr, ← GcCall.tracked_iff hexact (hc gc rfl).given]
    exact hagrees.tracked_iff _
  | .ok (.exited released), h => exact ⟨fun _ gc hgc => (nomatch hgc), fun _ => h⟩

theorem tracked_trackInit : Tracked trackInit :=
  (tracked_running Represents.nil .none).2 Exact.nil

/-- **The collector's tracking**: in a run of calls, whatever the system answers, it is exact in
every state if and only if every search finds an item of the kind that is given back. -/
theorem tracking_exact_iff (calls : List GcCall)
    (hadm : Invariant.Along trackStep AdmittedStep trackInit calls) :
    (∀ pre, pre <+: calls → Tracked (pre.foldl trackStep trackInit)) ↔
      Invariant.Along trackStep RightKind trackInit calls :=
  Invariant.Along.forall_prefix_iff
    (fun s call ha (_ : True) ht => ⟨trivial, tracked_step_iff s call ha ht⟩) hadm trivial
    tracked_trackInit

/-- A socket, then a block whose address has the descriptor as its lower half. -/
def collidingCalls : List GcCall :=
  [.socket (some 16) (some (⟨0x20, 0⟩, ⟨.null⟩)),
    .malloc 8 (some ⟨16, 1⟩) (some (⟨0x40, 0⟩, ⟨.null⟩)), .close 16]

theorem collidingCalls_admitted :
    Invariant.Along trackStep AdmittedStep trackInit collidingCalls := by
  refine ⟨⟨?_, ?_⟩, ⟨?_, ?_⟩, ⟨?_, ?_⟩, trivial⟩
  · intro gc h a junk hb
    cases h
    cases hb
    rfl
  · intro gc _ fd hfd
    exact Finset.notMem_empty fd
  · intro gc h a junk hb
    cases h
    cases hb
    rfl
  · intro gc _ p hp
    cases hp
    exact ⟨by decide, Finset.notMem_empty _⟩
  · intro gc _
    trivial
  · intro gc _
    exact Finset.mem_insert_self _ _

/-- The tracking of a run, for these calls. -/
theorem tracking_exact_iff_colliding :
    (∀ pre, pre <+: collidingCalls → Tracked (pre.foldl trackStep trackInit)) ↔
      Invariant.Along trackStep RightKind trackInit collidingCalls :=
  tracking_exact_iff collidingCalls collidingCalls_admitted

/-- **Closing the socket untracks the pointer**: the pointer is live and nothing will free it. -/
theorem pointer_untracked :
    Invariant.Along trackStep AdmittedStep trackInit collidingCalls ∧
      ¬ Tracked (collidingCalls.foldl trackStep trackInit) := by
  refine ⟨collidingCalls_admitted, ?_⟩
  rintro ⟨l, hr, hexact, released, heap, hclean, honce⟩
  cases hclean
  have hptr := honce.ptr ⟨16, 1⟩
  revert hptr
  decide

end Rds
