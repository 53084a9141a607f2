import Rds.Lib.Ancestors
import Rds.Proof.NewData

/-!
# What contains what in a message under construction

The nodes of the builder are made one by one, each below the node that was current, while what
contains what is in the heap.

* `Placed`: the chain of a node goes the way its container is reached from the data object.
* `upperLoop_nearest`: along such a chain the nearest container of a kind is found.
* `StoresAt`: what a store into one container changes.
* `Forest.store`, `Forest.grow`: the heap stays a forest.
-/

namespace Rds

open Relation Ancestors SsdsJsonCreate

/-! ## Containment -/

/-- What a container holds. -/
def Container.items : Container → List Item
  | obj ms => ms.map Prod.snd
  | arr es => es

/-- `a` holds `b` directly. -/
def Holds (heap : List Container) (a b : ℕ) : Prop :=
  ∃ c, heap[a]? = some c ∧ Item.ref b ∈ c.items

/-- There is a container of that kind. -/
def KindAt (heap : List Container) (kind : Container → Bool) (a : ℕ) : Prop :=
  ∃ c, heap[a]? = some c ∧ kind c = true

/-- **The heap is a forest**: references go to later containers, and no two to the same. -/
structure Forest (heap : List Container) : Prop where
  below : ∀ a b, Holds heap a b → a < b ∧ b < heap.length
  single : Relator.LeftUnique (Holds heap)

/-- **A node whose chain of parents is the way down to its container** from the data object. -/
inductive Placed (nodes : List JsNode) (heap : List Container) : ℕ → ℕ → Prop
  | top {i} : nodes[i]? = some ⟨1, none⟩ → Placed nodes heap i 1
  | child {i p a b} : nodes[i]? = some ⟨b, some p⟩ → Placed nodes heap p a → Holds heap a b →
      Placed nodes heap i b

/-- The container of the current node. -/
def currElement (json : SsdsJsonCreate) : Option ℕ := json.nodes[json.currNode]?.map JsNode.addr

variable {json json' : SsdsJsonCreate} {heap heap' : List Container} {nodes nodes' : List JsNode}
  {i x a b : ℕ} {kind : Container → Bool}

theorem Forest.le_of_above (h : Forest heap) (hab : ReflTransGen (Holds heap) a b) : a ≤ b := by
  induction hab with
  | refl => exact le_rfl
  | tail _ hbc ih =>
    have hlt := (h.below _ _ hbc).1
    omega

theorem Placed.node (h : Placed nodes heap i x) : ∃ parent, nodes[i]? = some ⟨x, parent⟩ := by
  cases h with
  | top hi => exact ⟨_, hi⟩
  | child hi _ _ => exact ⟨_, hi⟩

theorem Placed.currElement (h : Placed json.nodes json.heap json.currNode x) :
    currElement json = some x := by
  obtain ⟨parent, hnode⟩ := h.node
  unfold Rds.currElement
  rw [hnode]
  rfl

/-- **A chain stays** as long as the containers on it hold the next one. -/
theorem Placed.mono (h : Placed nodes heap i x)
    (hnodes : ∀ (j : ℕ) (n : JsNode), nodes[j]? = some n → nodes'[j]? = some n)
    (hholds : ∀ a b, Holds heap a b → ReflTransGen (Holds heap) b x → Holds heap' a b) :
    Placed nodes' heap' i x := by
  induction h with
  | top hi => exact .top (hnodes _ _ hi)
  | child hi _ hab ih =>
    refine .child (hnodes _ _ hi) (ih ?_) (hholds _ _ hab .refl)
    intro a' b' hab' hb'
    exact hholds a' b' hab' (hb'.tail hab)

/-! ## Going up -/

theorem nodeHolds_eq_some {kind : Container → Bool} {parent : Option ℕ}
    (hi : json.nodes[i]? = some ⟨x, parent⟩) (hx : KindAt json.heap kind x) :
    nodeHolds json kind i = some x := by
  obtain ⟨c, hc, hkind⟩ := hx
  simp [nodeHolds, hi, hc, hkind]

theorem nodeHolds_eq_none {parent : Option ℕ} (hi : json.nodes[i]? = some ⟨x, parent⟩)
    (hx : ¬ KindAt json.heap kind x) : nodeHolds json kind i = none := by
  unfold nodeHolds
  cases hc : json.heap[x]? with
  | none => simp [hi, hc]
  | some c =>
    have hkind : kind c ≠ true := fun hkind => hx ⟨c, hc, hkind⟩
    simp [hi, hc, hkind]

/-- **The loop finds the nearest container of the kind**, if there is one below the root. -/
theorem upperLoop_nearest (hforest : Forest json.heap) (hroot : Holds json.heap 0 1)
    (h : Placed json.nodes json.heap i x) :
    (∃ a ≠ 0, KindAt json.heap kind a ∧ TransGen (Holds json.heap) a x) →
      ∃ n p a, upperLoop json kind n (some i) = .ok (p, a) ∧
        Placed json.nodes json.heap p a ∧ Nearest (Holds json.heap) (KindAt json.heap kind) x a := by
  induction h with
  | top hi =>
    rintro ⟨a, ha0, -, ha⟩
    -- nothing but the root is above the data object
    rcases eq_or_above hforest.single hroot ha with rfl | ha
    · exact absurd rfl ha0
    · have hle := hforest.le_of_above ha.to_reflTransGen
      omega
  | @child i p a b hi hp hab ih =>
    rintro ⟨c, hc0, hkind, hcb⟩
    obtain ⟨parent, hnode⟩ := hp.node
    by_cases ha : KindAt json.heap kind a
    · refine ⟨1, p, a, ?_, hp, .of_above hforest.single hab ha⟩
      simp [upperLoop, hi, nodeHolds_eq_some hnode ha]
    · have hca : TransGen (Holds json.heap) c a := by
        rcases eq_or_above hforest.single hab hcb with rfl | hca
        · exact absurd hkind ha
        · exact hca
      obtain ⟨n, q, d, hloop, hq, hnearest⟩ := ih ⟨c, hc0, hkind, hca⟩
      refine ⟨n + 1, q, d, ?_, hq, hnearest.skip hforest.single hab ha⟩
      simpa [upperLoop, hi, nodeHolds_eq_none hnode ha] using hloop

/-- **From `NULL` the loop never comes back.** -/
theorem upperLoop_null (json : SsdsJsonCreate) (kind : Container → Bool) (n : ℕ) :
    upperLoop json kind n none = .error .fuel := by
  induction n with
  | zero => rfl
  | succ n ih => exact ih

/-- Wherever the loop stops, the chain goes on from there. -/
theorem upperLoop_placed (h : Placed json.nodes json.heap i x) :
    ∀ {n p a : ℕ}, upperLoop json kind n (some i) = .ok (p, a) →
      Placed json.nodes json.heap p a ∧ KindAt json.heap kind a := by
  induction h with
  | top hi =>
    intro n p a hloop
    cases n with
    | zero => cases hloop
    | succ n => simp [upperLoop, hi, upperLoop_null] at hloop
  | @child i q c b hi hq _ ih =>
    intro n p a hloop
    obtain ⟨parent, hnode⟩ := hq.node
    cases n with
    | zero => cases hloop
    | succ n =>
      by_cases hc : KindAt json.heap kind c
      · simp [upperLoop, hi, nodeHolds_eq_some hnode hc] at hloop
        obtain ⟨rfl, rfl⟩ := hloop
        exact ⟨hq, hc⟩
      · refine ih (n := n) ?_
        simpa [upperLoop, hi, nodeHolds_eq_none hnode hc] using hloop

/-! ## StoresAt -/

/-- **A store into one container**: it is given `v`, and `lost` goes. -/
structure StoresAt (heap heap' : List Container) (x : ℕ) (v : Item) (lost : Item → Prop) : Prop where
  length : heap'.length = heap.length
  kind : ∀ a : ℕ, heap'[a]?.map Container.isArr = heap[a]?.map Container.isArr
  other : ∀ a : ℕ, a ≠ x → heap'[a]? = heap[a]?
  given : ∀ c', heap'[x]? = some c' → ∃ c, heap[x]? = some c ∧
    ∀ w ∈ c'.items, w ∈ c.items ∨ w = v
  kept : ∀ c, heap[x]? = some c → ∃ c', heap'[x]? = some c' ∧
    ∀ w ∈ c.items, ¬ lost w → w ∈ c'.items

/-- The member of that name. -/
def OldMember (heap : List Container) (o : ℕ) (name : String) (w : Item) : Prop :=
  ∃ ms, heap[o]? = some (.obj ms) ∧ ms.lookup name = some w

/-- A member that is set replaces the one of its name only. -/
theorem mem_setMember_of_mem {ms : List (String × Item)} {name : String} {v w : Item}
    (hw : w ∈ ms.map Prod.snd) :
    w ∈ (Json.setMember ms name v).map Prod.snd ∨ ms.lookup name = some w := by
  induction ms with
  | nil => simp at hw
  | cons m ms ih =>
    rw [Json.setMember, Json.lookup_cons_eq]
    rw [List.map_cons, List.mem_cons] at hw
    by_cases hm : m.1 = name
    · rw [if_pos hm, if_pos hm.symm, List.map_cons, List.mem_cons]
      rcases hw with rfl | hw
      · exact Or.inr rfl
      · exact Or.inl (Or.inr hw)
    · rw [if_neg hm, if_neg fun h => hm h.symm, List.map_cons, List.mem_cons]
      rcases hw with rfl | hw
      · exact Or.inl (Or.inl rfl)
      · exact (ih hw).imp_left Or.inr

/-- What changes one container to one of its kind. -/
theorem storesAt_modify {f : Container → Container} {v : Item} {lost : Item → Prop}
    (hkind : ∀ c, (f c).isArr = c.isArr)
    (hgiven : ∀ c, heap[x]? = some c → ∀ w ∈ (f c).items, w ∈ c.items ∨ w = v)
    (hkept : ∀ c, heap[x]? = some c → ∀ w ∈ c.items, ¬ lost w → w ∈ (f c).items) :
    StoresAt heap (heap.modify x f) x v lost where
  length := List.length_modify ..
  kind a := by
    rw [List.getElem?_modify]
    cases heap[a]? with
    | none => rfl
    | some c => by_cases hx : x = a <;> simp [hx, hkind]
  other a ha := List.getElem?_modify_ne _ _ ha.symm
  given c' hc' := by
    rw [List.getElem?_modify] at hc'
    cases hc : heap[x]? with
    | none => simp [hc] at hc'
    | some c =>
      obtain rfl : f c = c' := by simpa [hc] using hc'
      exact ⟨c, rfl, hgiven c hc⟩
  kept c hc := by
    refine ⟨f c, ?_, hkept c hc⟩
    rw [List.getElem?_modify, hc]
    simp

theorem storesAt_setMember (heap : List Container) (o : ℕ) (name : String) (v : Item) :
    StoresAt heap (setMemberAt heap (some o) name v) o v (OldMember heap o name) := by
  refine storesAt_modify ?_ ?_ ?_
  · intro c
    cases c <;> rfl
  · intro c _ w hw
    cases c with
    | arr es => exact Or.inl hw
    | obj ms =>
      obtain ⟨m, hm, rfl⟩ := List.mem_map.1 hw
      rcases Json.mem_setMember hm with rfl | hm
      · exact Or.inr rfl
      · exact Or.inl (List.mem_map_of_mem hm)
  · intro c hc w hw hlost
    cases c with
    | arr es => exact hw
    | obj ms =>
      rcases mem_setMember_of_mem hw with hmem | hold
      · exact hmem
      · exact absurd ⟨ms, hc, hold⟩ hlost

theorem storesAt_addElement (heap : List Container) (a : ℕ) (v : Item) :
    StoresAt heap (addElementAt heap (some a) v) a v fun _ => False := by
  refine storesAt_modify ?_ ?_ ?_
  · intro c
    cases c <;> rfl
  · intro c _ w hw
    cases c with
    | obj ms => exact Or.inl hw
    | arr es => exact (List.mem_append.1 hw).imp_right List.mem_singleton.1
  · intro c _ w hw _
    cases c with
    | obj ms => exact hw
    | arr es => exact List.mem_append_left _ hw

namespace StoresAt

variable {v : Item} {lost : Item → Prop}

theorem holds_inv (h : StoresAt heap heap' x v lost) (hab : Holds heap' a b) :
    Holds heap a b ∨ a = x ∧ v = .ref b := by
  obtain ⟨c', hc', hb⟩ := hab
  by_cases ha : a = x
  · subst ha
    obtain ⟨c, hc, hitems⟩ := h.given c' hc'
    rcases hitems _ hb with hold | hnew
    · exact Or.inl ⟨c, hc, hold⟩
    · exact Or.inr ⟨rfl, hnew.symm⟩
  · rw [h.other a ha] at hc'
    exact Or.inl ⟨c', hc', hb⟩

theorem holds (h : StoresAt heap heap' x v lost) (hab : Holds heap a b)
    (hlost : a = x → ¬ lost (.ref b)) : Holds heap' a b := by
  obtain ⟨c, hc, hb⟩ := hab
  by_cases ha : a = x
  · subst ha
    obtain ⟨c', hc', hitems⟩ := h.kept c hc
    exact ⟨c', hc', hitems _ hb (hlost rfl)⟩
  · exact ⟨c, by rwa [h.other a ha], hb⟩

theorem isArr (h : StoresAt heap heap' x v lost) (ha : KindAt heap Container.isArr a) :
    KindAt heap' Container.isArr a := by
  obtain ⟨c, hc, harr⟩ := ha
  have hkind := h.kind a
  rw [hc, Option.map_some, harr] at hkind
  obtain ⟨c', hc', harr'⟩ := Option.map_eq_some_iff.1 hkind
  exact ⟨c', hc', harr'⟩

theorem isObj (h : StoresAt heap heap' x v lost) (ha : KindAt heap Container.isObj a) :
    KindAt heap' Container.isObj a := by
  obtain ⟨c, hc, hobj⟩ := ha
  have hkind := h.kind a
  have harr : c.isArr = false := by
    cases c with
    | obj ms => rfl
    | arr es => cases hobj
  rw [hc, Option.map_some, harr] at hkind
  obtain ⟨c', hc', harr'⟩ := Option.map_eq_some_iff.1 hkind
  refine ⟨c', hc', ?_⟩
  cases c' with
  | obj ms => rfl
  | arr es => cases harr'

end StoresAt

theorem KindAt.append (h : KindAt heap kind a) (post : List Container) :
    KindAt (heap ++ post) kind a := by
  obtain ⟨c, hc, hkind⟩ := h
  have hlt : a < heap.length := (List.getElem?_eq_some_iff.1 hc).1
  exact ⟨c, by rwa [List.getElem?_append_left hlt], hkind⟩

theorem KindAt.last {c : Container} (hc : kind c = true) : KindAt (heap ++ [c]) kind heap.length :=
  ⟨c, by simp, hc⟩

theorem Holds.append (h : Holds heap a b) (post : List Container) : Holds (heap ++ post) a b := by
  obtain ⟨c, hc, hb⟩ := h
  have hlt : a < heap.length := (List.getElem?_eq_some_iff.1 hc).1
  exact ⟨c, by rwa [List.getElem?_append_left hlt], hb⟩

/-- A new container holds nothing. -/
theorem Holds.of_append {c : Container} (hc : c.items = []) (h : Holds (heap ++ [c]) a b) :
    Holds heap a b := by
  obtain ⟨c', hc', hb⟩ := h
  rcases Nat.lt_or_ge a heap.length with hlt | hge
  · rw [List.getElem?_append_left hlt] at hc'
    exact ⟨c', hc', hb⟩
  · rw [List.getElem?_append_right hge, List.getElem?_singleton] at hc'
    split at hc'
    · cases hc'
      rw [hc] at hb
      cases hb
    · cases hc'

theorem Forest.store {v : Item} {lost : Item → Prop} (h : Forest heap)
    (hs : StoresAt heap heap' x v lost) (hv : ∀ b, v ≠ .ref b) : Forest heap' := by
  have hold : ∀ a b, Holds heap' a b → Holds heap a b := by
    intro a b hab
    rcases hs.holds_inv hab with hab | ⟨-, hb⟩
    · exact hab
    · exact absurd hb (hv b)
  refine ⟨?_, ?_⟩
  · intro a b hab
    rw [hs.length]
    exact h.below a b (hold a b hab)
  · intro a b c hac hbc
    exact h.single (hold a c hac) (hold b c hbc)

/-- **A new container** is held by the one it was put into. -/
theorem Forest.grow {lost : Item → Prop} (h : Forest heap)
    (hs : StoresAt heap heap' x (.ref heap.length) lost) (hx : x < heap.length) {c : Container}
    (hc : c.items = []) : Forest (heap' ++ [c]) := by
  have hold : ∀ a b, Holds (heap' ++ [c]) a b → Holds heap a b ∨ a = x ∧ b = heap.length := by
    intro a b hab
    rcases hs.holds_inv (hab.of_append hc) with hab | ⟨rfl, hb⟩
    · exact Or.inl hab
    · cases hb
      exact Or.inr ⟨rfl, rfl⟩
  refine ⟨?_, ?_⟩
  · intro a b hab
    rw [List.length_append, hs.length, List.length_singleton]
    rcases hold a b hab with hab | ⟨rfl, rfl⟩
    · have hlt := h.below a b hab
      omega
    · omega
  · intro a b d had hbd
    rcases hold a d had with had | ⟨rfl, rfl⟩ <;> rcases hold b _ hbd with hbd | ⟨rfl, hd⟩
    · exact h.single had hbd
    · have hlt := (h.below a d had).2
      omega
    · have hlt := (h.below b _ hbd).2
      omega
    · rfl

end Rds
