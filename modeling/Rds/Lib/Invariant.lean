import Mathlib.Tactic.Common

/-!
# Invariants of programs and of runs

A program here keeps a state and may halt, and then keeps the state it halted in. A triple says
what holds after it if something held before: one condition if it returns, one if it halts.

* `Triple.bind`, `Triple.modify_bind`, …: one rule for each way a program goes on.
* `Along`: a condition on each step of a run, by the state before it.
* `Along.invariant`: what such steps preserve holds after the run.
* `Along.forall_prefix_iff`: where one condition decides whether a step keeps a law, it decides
  whether the law holds all along a run.
-/

namespace Invariant

variable {ε σ α β : Type}

/-- **A triple**: started where `pre` holds, `x` returns where `post` holds or halts where
`halt` does. -/
def Triple (pre : σ → Prop) (x : ExceptT ε (StateM σ) α) (post : α → σ → Prop)
    (halt : σ → Prop) : Prop :=
  ∀ s, pre s → match x.run.run s with
    | (.ok a, s') => post a s'
    | (.error _, s') => halt s'

section
variable {pre : σ → Prop} {s : σ} {x : ExceptT ε (StateM σ) α} {a : α} {post : α → σ → Prop}
  {f : α → ExceptT ε (StateM σ) β} {post' : β → σ → Prop} {halt : σ → Prop}

/-- A triple is about each state on its own. -/
theorem Triple.of_forall (h : ∀ s, pre s → Triple (· = s) x post halt) : Triple pre x post halt :=
  fun s hs => h s hs s rfl

theorem Triple.from (h : Triple pre x post halt) (hs : pre s) : Triple (· = s) x post halt := by
  rintro t rfl
  exact h t hs

theorem Triple.weaken {post₂ : α → σ → Prop} {halt₂ : σ → Prop} (h : Triple pre x post halt)
    (hpost : ∀ a s, post a s → post₂ a s) (hhalt : ∀ s, halt s → halt₂ s) :
    Triple pre x post₂ halt₂ := by
  intro s hs
  have hx := h s hs
  cases hr : x.run.run s with
  | mk r s' =>
    rw [hr] at hx
    cases r with
    | ok a => exact hpost a s' hx
    | error e => exact hhalt s' hx

theorem Triple.pure (h : post a s) :
    Triple (· = s) (Pure.pure a : ExceptT ε (StateM σ) α) post halt := by
  rintro t rfl
  exact h

/-- A part with a triple of its own. -/
theorem Triple.bind (hx : Triple (· = s) x post halt)
    (hf : ∀ a s', post a s' → Triple (· = s') (f a) post' halt) :
    Triple (· = s) (x >>= f) post' halt := by
  rintro t rfl
  have h := hx t rfl
  rw [ExceptT.run_bind, StateT.run_bind]
  cases hr : x.run.run t with
  | mk r s' =>
    rw [hr] at h
    cases r with
    | ok a => exact hf a s' h s' rfl
    | error e => exact h

theorem Triple.get_bind {f : σ → ExceptT ε (StateM σ) β}
    (h : Triple (· = s) (f s) post' halt) :
    Triple (· = s) ((MonadState.get : ExceptT ε (StateM σ) σ) >>= f) post' halt := by
  rintro t rfl
  exact h t rfl

theorem Triple.set_bind {t : σ} {f : PUnit → ExceptT ε (StateM σ) β}
    (h : Triple (· = t) (f ⟨⟩) post' halt) :
    Triple (· = s) ((MonadStateOf.set t : ExceptT ε (StateM σ) PUnit) >>= f) post' halt := by
  rintro u rfl
  exact h t rfl

theorem Triple.modify_bind {g : σ → σ} {f : PUnit → ExceptT ε (StateM σ) β}
    (h : Triple (· = g s) (f ⟨⟩) post' halt) :
    Triple (· = s) ((modify g : ExceptT ε (StateM σ) PUnit) >>= f) post' halt := by
  rintro t rfl
  exact h (g t) rfl

/-- A result that was computed elsewhere. -/
theorem Triple.mk_bind {r : Except ε α} (hok : ∀ a, r = .ok a → Triple (· = s) (f a) post' halt)
    (herr : ∀ e, r = .error e → halt s) :
    Triple (· = s) ((ExceptT.mk (Pure.pure r) : ExceptT ε (StateM σ) α) >>= f) post' halt := by
  rintro t rfl
  cases hr : r with
  | ok a => exact hok a hr t rfl
  | error e => exact herr e hr

end

/-! ## Runs -/

variable {S E : Type}

/-- Every step of a run meets a condition on the state before it. -/
def Along (step : S → E → S) (ok : S → E → Prop) : S → List E → Prop
  | _, [] => True
  | s, e :: es => ok s e ∧ Along step ok (step s e) es

/-- **What the steps of a run preserve** holds after it. -/
theorem Along.invariant {step : S → E → S} {ok : S → E → Prop} {inv : S → Prop}
    (hstep : ∀ s e, ok s e → inv s → inv (step s e)) {es : List E} :
    ∀ {s : S}, Along step ok s es → inv s → inv (es.foldl step s) := by
  induction es with
  | nil => intro s _ hs; exact hs
  | cons e es ih =>
    intro s ⟨he, hes⟩ hs
    exact ih hes (hstep s e he hs)

theorem Along.concat_iff {step : S → E → S} {ok : S → E → Prop} {es : List E} {e : E} :
    ∀ {s : S}, Along step ok s (es ++ [e]) ↔ Along step ok s es ∧ ok (es.foldl step s) e := by
  induction es with
  | nil =>
    intro s
    simp only [List.nil_append, Along, List.foldl_nil, and_true, true_and]
  | cons e' es ih =>
    intro s
    rw [List.cons_append, Along, Along, List.foldl_cons, ih, and_assoc]

theorem Along.of_forall {step : S → E → S} {ok : S → E → Prop} (h : ∀ s e, ok s e) {es : List E} :
    ∀ s : S, Along step ok s es := by
  induction es with
  | nil => exact fun _ => trivial
  | cons e es ih => exact fun s => ⟨h s e, ih (step s e)⟩

theorem Along.and {step : S → E → S} {P Q : S → E → Prop} {es : List E} :
    ∀ {s : S}, Along step P s es → Along step Q s es →
      Along step (fun s e => P s e ∧ Q s e) s es := by
  induction es with
  | nil => exact fun _ _ => trivial
  | cons e es ih => exact fun hP hQ => ⟨⟨hP.1, hQ.1⟩, ih hP.2 hQ.2⟩

/-- A condition that does not look at the state. -/
theorem Along.forall_iff {step : S → E → S} {P : E → Prop} {es : List E} :
    ∀ {s : S}, Along step (fun _ => P) s es ↔ ∀ e ∈ es, P e := by
  induction es with
  | nil =>
    intro s
    simp only [Along, List.not_mem_nil, false_implies, implies_true]
  | cons e es ih =>
    intro s
    rw [Along, ih, List.forall_mem_cons]

/-- **A condition that decides a step decides a run**: the law holds in every state of a run of
admitted steps exactly if the steps meet the condition. As long as it holds, so does an
invariant. -/
theorem Along.forall_prefix_iff {step : S → E → S} {admitted ok : S → E → Prop}
    {inv law : S → Prop}
    (hstep : ∀ s e, admitted s e → inv s → law s →
      inv (step s e) ∧ (law (step s e) ↔ ok s e)) {es : List E} :
    ∀ {s : S}, Along step admitted s es → inv s → law s →
      ((∀ pre, pre <+: es → law (pre.foldl step s)) ↔ Along step ok s es) := by
  induction es with
  | nil =>
    intro s _ _ hs
    refine ⟨fun _ => trivial, fun _ pre hpre => ?_⟩
    rw [List.prefix_nil.1 hpre]
    exact hs
  | cons e es ih =>
    intro s ⟨hadm, hes⟩ hi hs
    obtain ⟨hinv, hiff⟩ := hstep s e hadm hi hs
    constructor
    · intro h
      have hlaw : law (step s e) := h [e] (by simp)
      refine ⟨hiff.1 hlaw, (ih hes hinv hlaw).1 ?_⟩
      intro pre hpre
      exact h (e :: pre) (List.cons_prefix_cons.2 ⟨rfl, hpre⟩)
    · rintro ⟨hok, hrest⟩ pre hpre
      cases pre with
      | nil => exact hs
      | cons e' pre =>
        obtain ⟨rfl, htail⟩ := List.cons_prefix_cons.1 hpre
        exact (ih hes hinv (hiff.2 hok)).2 hrest pre htail

end Invariant
