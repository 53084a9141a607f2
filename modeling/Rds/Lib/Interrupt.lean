import Rds.Lib.Invariant

/-!
# Programs that can be interrupted

A program is a row of steps that nothing can come between. From a state it comes to other states,
step by step, and to an end. An interrupt finds it in the state it started from or in one of those
it has come to.

* `Passes`: what holds in every state a program comes to, and where it returns.
* `Passes.bind`, `Passes.step`, `Passes.read_bind`: one rule for each way a program goes on.
* `Maintains`: what every step keeps, with a rule of its own for each way.
* `forall_seen_forM_iff`: **a row of programs**, where one condition decides each of them.
-/

namespace Interrupt

/-- A program: from a state, the states it comes to, the last one included, and its end. -/
def Prog (ε σ α : Type) : Type := σ → List σ × Except ε (α × σ)

variable {ε σ α β γ S E : Type}

namespace Prog

/-- The states a program comes to, the one it started from left out. -/
def seen (x : Prog ε σ α) (s : σ) : List σ := (x s).1

/-- What it returns if nothing comes between. -/
def run (x : Prog ε σ α) (s : σ) : Except ε (α × σ) := (x s).2

/-- Where an interrupt can find it. -/
def points (x : Prog ε σ α) (s : σ) : List σ := s :: x.seen s

instance : Monad (Prog ε σ) where
  pure a := fun s => ([], .ok (a, s))
  bind x f := fun s =>
    match x s with
    | (seen, .ok (a, s')) => (seen ++ (f a s').1, (f a s').2)
    | (seen, .error e) => (seen, .error e)

theorem bind_pure' (x : Prog ε σ α) : (x >>= fun a => pure a) = x := by
  funext s
  simp only [bind, pure]
  rcases x s with ⟨seen, _ | _⟩ <;> simp

theorem bind_assoc' (x : Prog ε σ α) (f : α → Prog ε σ β) (g : β → Prog ε σ γ) :
    ((x >>= f) >>= g) = (x >>= fun a => f a >>= g) := by
  funext s
  simp only [bind]
  rcases x s with ⟨seen, _ | ⟨a, s'⟩⟩
  · rfl
  · rcases hf : f a s' with ⟨seen', _ | ⟨b, s''⟩⟩ <;> simp [hf]

instance : LawfulMonad (Prog ε σ) :=
  LawfulMonad.mk' _ bind_pure' (fun _ _ => rfl) bind_assoc'

/-- One step. -/
def step (f : σ → Except ε (α × σ)) : Prog ε σ α := fun s =>
  match f s with
  | .ok (a, s') => ([s'], .ok (a, s'))
  | .error e => ([], .error e)

/-- What changes nothing: an interrupt before it and one behind it find the same. -/
def read (f : σ → Except ε α) : Prog ε σ α := fun s =>
  match f s with
  | .ok a => ([], .ok (a, s))
  | .error e => ([], .error e)

variable {x : Prog ε σ α} {f : α → Prog ε σ β} {s s' : σ} {a : α} {e : ε}

theorem seen_bind (h : x.run s = .ok (a, s')) :
    (x >>= f).seen s = x.seen s ++ (f a).seen s' := by
  unfold run at h
  simp only [seen, bind]
  cases hx : x s with
  | mk seen r =>
    rw [hx] at h
    obtain rfl : r = .ok (a, s') := h
    rfl

theorem run_bind (h : x.run s = .ok (a, s')) : (x >>= f).run s = (f a).run s' := by
  unfold run at h
  simp only [run, bind]
  cases hx : x s with
  | mk seen r =>
    rw [hx] at h
    obtain rfl : r = .ok (a, s') := h
    rfl

theorem run_bind_error (h : x.run s = .error e) : (x >>= f).run s = .error e := by
  unfold run at h
  simp only [run, bind]
  cases hx : x s with
  | mk seen r =>
    rw [hx] at h
    obtain rfl : r = .error e := h
    rfl

theorem seen_bind_error (h : x.run s = .error e) : (x >>= f).seen s = x.seen s := by
  unfold run at h
  simp only [seen, bind]
  cases hx : x s with
  | mk seen r =>
    rw [hx] at h
    obtain rfl : r = .error e := h
    rfl

/-- What the first part comes to, the whole comes to. -/
theorem mem_seen_bind_left {t : σ} (h : t ∈ x.seen s) : t ∈ (x >>= f).seen s := by
  unfold seen at h
  simp only [seen, bind]
  cases hx : x s with
  | mk seen r =>
    rw [hx] at h
    cases r with
    | ok r => exact List.mem_append_left _ h
    | error e => exact h

/-- It comes to nothing else. -/
theorem mem_seen_bind {t : σ} (h : t ∈ (x >>= f).seen s) :
    t ∈ x.seen s ∨ ∃ a s', x.run s = .ok (a, s') ∧ t ∈ (f a).seen s' := by
  cases hx : x.run s with
  | error e =>
    rw [seen_bind_error hx] at h
    exact Or.inl h
  | ok r =>
    rw [seen_bind hx] at h
    exact (List.mem_append.1 h).imp_right fun h => ⟨r.1, r.2, rfl, h⟩

theorem mem_seen_bind_right {t : σ} (h : x.run s = .ok (a, s')) (ht : t ∈ (f a).seen s') :
    t ∈ (x >>= f).seen s := by
  rw [seen_bind h]
  exact List.mem_append_right _ ht

@[simp] theorem run_pure (a : α) (s : σ) : (pure a : Prog ε σ α).run s = .ok (a, s) := rfl

@[simp] theorem seen_pure (a : α) (s : σ) : (pure a : Prog ε σ α).seen s = [] := rfl

theorem run_step {g : σ → Except ε (α × σ)} : (step g).run s = g s := by
  unfold run step
  cases g s <;> rfl

theorem seen_step {g : σ → Except ε (α × σ)} (h : g s = .ok (a, s')) :
    (step g).seen s = [s'] := by
  unfold seen step
  rw [h]

theorem seen_step_error {g : σ → Except ε (α × σ)} (h : g s = .error e) : (step g).seen s = [] := by
  unfold seen step
  rw [h]

theorem run_read {g : σ → Except ε α} : (read g).run s = (g s).map fun a => (a, s) := by
  unfold run read
  cases g s <;> rfl

theorem seen_read (g : σ → Except ε α) (s : σ) : (read g).seen s = [] := by
  unfold seen read
  cases g s <;> rfl

end Prog

/-! ## What holds on the way -/

/-- **On its way from `s`** the program comes only to states where `mid` holds, and it returns
where `post` does. -/
def Passes (x : Prog ε σ α) (s : σ) (mid : σ → Prop) (post : α → σ → Prop) : Prop :=
  (∀ t ∈ x.seen s, mid t) ∧ ∃ a s', x.run s = .ok (a, s') ∧ post a s'

section
variable {x : Prog ε σ α} {f : α → Prog ε σ β} {s s' : σ} {a : α} {mid : σ → Prop}
  {post : α → σ → Prop} {post' : β → σ → Prop}

theorem Passes.pure (h : post a s) : Passes (pure a : Prog ε σ α) s mid post :=
  ⟨fun _ ht => (by cases ht), a, s, rfl, h⟩

theorem Passes.bind (hx : Passes x s mid post)
    (hf : ∀ a s', post a s' → Passes (f a) s' mid post') : Passes (x >>= f) s mid post' := by
  obtain ⟨hseen, a, s', hrun, ha⟩ := hx
  obtain ⟨hseen', b, s'', hrun', hb⟩ := hf a s' ha
  refine ⟨?_, b, s'', (Prog.run_bind hrun).trans hrun', hb⟩
  rw [Prog.seen_bind hrun]
  intro t ht
  rcases List.mem_append.1 ht with ht | ht
  · exact hseen t ht
  · exact hseen' t ht

/-- A part that is known to return one value in one state. -/
theorem Passes.bind_value (hx : Passes x s mid fun b t => b = a ∧ t = s')
    (hf : Passes (f a) s' mid post') : Passes (x >>= f) s mid post' := by
  refine hx.bind ?_
  rintro b t ⟨rfl, rfl⟩
  exact hf

/-- A part that is known to end in one state. -/
theorem Passes.followed {x : Prog ε σ Unit} {f : Unit → Prog ε σ β}
    (hx : Passes x s mid fun _ t => t = s') (hf : Passes (f ()) s' mid post') :
    Passes (x >>= f) s mid post' := by
  refine hx.bind ?_
  rintro b t rfl
  exact hf

/-- A first step that is known. -/
theorem Passes.step_bind {g : σ → Except ε (α × σ)} (h : g s = .ok (a, s')) (hmid : mid s')
    (hf : Passes (f a) s' mid post') : Passes (Prog.step g >>= f) s mid post' := by
  have hrun : (Prog.step g).run s = .ok (a, s') := Prog.run_step.trans h
  refine Passes.bind_value ⟨?_, a, s', hrun, rfl, rfl⟩ hf
  rw [Prog.seen_step h]
  intro t ht
  rw [List.mem_singleton.1 ht]
  exact hmid

/-- A last step that is known. -/
theorem Passes.step {g : σ → Except ε (α × σ)} (h : g s = .ok (a, s')) (hmid : mid s')
    (hpost : post a s') : Passes (Prog.step g) s mid post := by
  refine ⟨?_, a, s', Prog.run_step.trans h, hpost⟩
  rw [Prog.seen_step h]
  intro t ht
  rw [List.mem_singleton.1 ht]
  exact hmid

/-- Something that is read first. -/
theorem Passes.read_bind {g : σ → Except ε α} (h : g s = .ok a)
    (hf : Passes (f a) s mid post') : Passes (Prog.read g >>= f) s mid post' := by
  have hrun : (Prog.read g).run s = .ok (a, s) := by rw [Prog.run_read, h]; rfl
  refine Passes.bind_value ⟨?_, a, s, hrun, rfl, rfl⟩ hf
  rw [Prog.seen_read]
  intro t ht
  cases ht

theorem Passes.weaken {mid₂ : σ → Prop} {post₂ : α → σ → Prop} (h : Passes x s mid post)
    (hmid : ∀ t, mid t → mid₂ t) (hpost : ∀ a t, post a t → post₂ a t) :
    Passes x s mid₂ post₂ := by
  obtain ⟨hseen, a, s', hrun, ha⟩ := h
  exact ⟨fun t ht => hmid t (hseen t ht), a, s', hrun, hpost a s' ha⟩

end

/-- **What every step keeps**: it holds wherever the program comes to, whether it returns or not. -/
def Maintains (inv : σ → Prop) (x : Prog ε σ α) : Prop :=
  ∀ s, inv s → (∀ t ∈ x.seen s, inv t) ∧ ∀ a s', x.run s = .ok (a, s') → inv s'

section
variable {inv : σ → Prop} {x : Prog ε σ α} {f : α → Prog ε σ β} {s t : σ}

theorem Maintains.pure (a : α) : Maintains inv (pure a : Prog ε σ α) := by
  intro s hs
  refine ⟨fun t ht => (by cases ht), ?_⟩
  intro a s' h
  cases h
  exact hs

theorem Maintains.bind (hx : Maintains inv x) (hf : ∀ a, Maintains inv (f a)) :
    Maintains inv (x >>= f) := by
  intro s hs
  obtain ⟨hseen, hend⟩ := hx s hs
  cases h : x.run s with
  | error e =>
    rw [Prog.run_bind_error h, Prog.seen_bind_error h]
    exact ⟨hseen, fun a s' h' => (by cases h')⟩
  | ok r =>
    obtain ⟨hseen', hend'⟩ := hf r.1 r.2 (hend r.1 r.2 h)
    rw [Prog.run_bind h, Prog.seen_bind h]
    refine ⟨?_, hend'⟩
    intro t ht
    rcases List.mem_append.1 ht with ht | ht
    · exact hseen t ht
    · exact hseen' t ht

theorem Maintains.step {g : σ → Except ε (α × σ)}
    (h : ∀ s a s', inv s → g s = .ok (a, s') → inv s') : Maintains inv (Prog.step g) := by
  intro s hs
  rw [Prog.run_step]
  refine ⟨?_, fun a s' hg => h s a s' hs hg⟩
  cases hg : g s with
  | error e =>
    rw [Prog.seen_step_error hg]
    intro t ht
    cases ht
  | ok r =>
    rw [Prog.seen_step hg]
    intro t ht
    rw [List.mem_singleton.1 ht]
    exact h s r.1 r.2 hs hg

theorem Maintains.read (g : σ → Except ε α) : Maintains inv (Prog.read g) := by
  intro s hs
  rw [Prog.seen_read, Prog.run_read]
  refine ⟨fun t ht => (by cases ht), ?_⟩
  intro a s' h
  cases hg : g s with
  | error e =>
    rw [hg] at h
    cases h
  | ok b =>
    rw [hg] at h
    cases h
    exact hs

theorem Maintains.seen (h : Maintains inv x) (hs : inv s) (ht : t ∈ x.seen s) : inv t :=
  (h s hs).1 t ht

end

/-! ## Rows of programs -/

open Invariant Prog

/-- **A row of programs** that take a machine's steps comes only to states under the law exactly
if each of them meets the condition that decides it; as long as they do, an invariant is kept. -/
theorem forall_seen_forM_iff {prog : E → Prog ε σ Unit} {machine : S → E → S}
    {inv law : σ → Prop} (abs : σ → S) (admitted ok : S → E → Prop)
    (hok : ∀ s e, admitted (abs s) e → inv s → ok (abs s) e →
      Passes (prog e) s law fun _ t => inv t ∧ abs t = machine (abs s) e)
    (hbad : ∀ s e, admitted (abs s) e → inv s → ¬ ok (abs s) e → ∃ t ∈ (prog e).seen s, ¬ law t)
    {es : List E} : ∀ {s : σ}, Along machine admitted (abs s) es → inv s →
      ((∀ t ∈ (es.forM prog).seen s, law t) ↔ Along machine ok (abs s) es) := by
  induction es with
  | nil =>
    intro s _ _
    refine ⟨fun _ => trivial, fun _ t ht => ?_⟩
    cases ht
  | cons e es ih =>
    intro s ⟨hadm, hes⟩ hs
    by_cases he : ok (abs s) e
    · obtain ⟨hseen, a, s', hrun, hs', habs⟩ := hok s e hadm hs he
      have hrow : ((e :: es).forM prog).seen s = (prog e).seen s ++ (es.forM prog).seen s' :=
        seen_bind hrun
      rw [← habs] at hes
      rw [hrow, Along, ← habs, ← ih hes hs']
      constructor
      · intro h
        exact ⟨he, fun t ht => h t (List.mem_append_right _ ht)⟩
      · rintro ⟨-, h⟩ t ht
        rcases List.mem_append.1 ht with ht | ht
        · exact hseen t ht
        · exact h t ht
    · refine iff_of_false ?_ (fun h => he h.1)
      intro h
      obtain ⟨t, ht, hlaw⟩ := hbad s e hadm hs he
      exact hlaw (h t (mem_seen_bind_left ht))

end Interrupt
