import Mathlib.Data.Nat.Notation
import Mathlib.Data.Int.Notation
import Mathlib.Tactic.Common

/-!
# JSON trees

Documents as trees, the member table of an object in document order, and the path
query that collects every member of one name below a node.

* `setMember_new`: a member set for the first time goes to the end.
* `lookup_setMember`, `mem_setMember`: what an object holds once a member is set.
* `descend_obj_flat`: below an object of scalar members the query finds its own
  member only.
* `head?_descendMembers`: where no other member holds the name below it, the query finds the
  object's own member first.
-/

/-- A JSON document. A number with a fraction is kept as its integer part, which is
all that an integer reader sees of it. -/
inductive Json
  | null
  | bool (b : Bool)
  | int (n : ℤ)
  | real (n : ℤ)
  | str (s : String)
  | arr (es : List Json)
  | obj (ms : List (String × Json))

namespace Json

/-! ## Comparing documents -/

mutual

def decEq : (a b : Json) → Decidable (a = b)
  | .null, b => match b with
    | .null => isTrue rfl
    | .bool _ | .int _ | .real _ | .str _ | .arr _ | .obj _ => isFalse nofun
  | .bool a, b => match b with
    | .bool b => decidable_of_iff (a = b) (by simp)
    | .null | .int _ | .real _ | .str _ | .arr _ | .obj _ => isFalse nofun
  | .int a, b => match b with
    | .int b => decidable_of_iff (a = b) (by simp)
    | .null | .bool _ | .real _ | .str _ | .arr _ | .obj _ => isFalse nofun
  | .real a, b => match b with
    | .real b => decidable_of_iff (a = b) (by simp)
    | .null | .bool _ | .int _ | .str _ | .arr _ | .obj _ => isFalse nofun
  | .str a, b => match b with
    | .str b => decidable_of_iff (a = b) (by simp)
    | .null | .bool _ | .int _ | .real _ | .arr _ | .obj _ => isFalse nofun
  | .arr as, b => match b with
    | .arr bs =>
      have := decEqElements as bs
      decidable_of_iff (as = bs) (by simp)
    | .null | .bool _ | .int _ | .real _ | .str _ | .obj _ => isFalse nofun
  | .obj ms, b => match b with
    | .obj ns =>
      have := decEqMembers ms ns
      decidable_of_iff (ms = ns) (by simp)
    | .null | .bool _ | .int _ | .real _ | .str _ | .arr _ => isFalse nofun

def decEqElements : (as bs : List Json) → Decidable (as = bs)
  | [], [] => isTrue rfl
  | [], _ :: _ => isFalse nofun
  | _ :: _, [] => isFalse nofun
  | a :: as, b :: bs =>
    have := decEq a b
    have := decEqElements as bs
    decidable_of_iff (a = b ∧ as = bs) (by simp)

def decEqMembers : (ms ns : List (String × Json)) → Decidable (ms = ns)
  | [], [] => isTrue rfl
  | [], _ :: _ => isFalse nofun
  | _ :: _, [] => isFalse nofun
  | m :: ms, n :: ns =>
    have := decEqMember m n
    have := decEqMembers ms ns
    decidable_of_iff (m = n ∧ ms = ns) (by simp)

def decEqMember : (m n : String × Json) → Decidable (m = n)
  | (name, a), (name', b) =>
    have := decEq a b
    decidable_of_iff (name = name' ∧ a = b) (by simp)

end

instance : DecidableEq Json := decEq

/-! ## Members -/

/-- Setting a member: in its place if the name is there, else at the end. -/
def setMember {α : Type} (ms : List (String × α)) (name : String) (v : α) : List (String × α) :=
  match ms with
  | [] => [(name, v)]
  | m :: ms => if m.1 = name then (name, v) :: ms else m :: setMember ms name v

/-- A name not there yet goes to the end. -/
theorem setMember_new {α : Type} {ms : List (String × α)} {name : String} (v : α)
    (h : ∀ m ∈ ms, m.1 ≠ name) : setMember ms name v = ms ++ [(name, v)] := by
  induction ms with
  | nil => rfl
  | cons m ms ih =>
    rw [setMember, if_neg (h m List.mem_cons_self), ih fun x hx => h x (List.mem_cons_of_mem _ hx)]
    rfl

theorem lookup_cons_eq {α : Type} (m : String × α) (ms : List (String × α)) (n : String) :
    (m :: ms).lookup n = if n = m.1 then some m.2 else ms.lookup n := by
  rw [List.lookup_cons]
  by_cases h : n = m.1
  · rw [if_pos h, beq_iff_eq.2 h]
  · rw [if_neg h, beq_eq_false_iff_ne.2 h]

/-- A member is found under its name once it is set. -/
theorem lookup_setMember {α : Type} (ms : List (String × α)) (name : String) (v : α)
    (n : String) : (setMember ms name v).lookup n = if n = name then some v else ms.lookup n := by
  induction ms with
  | nil => rw [setMember, lookup_cons_eq]
  | cons m ms ih =>
    rw [setMember, lookup_cons_eq m]
    by_cases hm : m.1 = name
    · rw [if_pos hm, lookup_cons_eq, hm]
      split <;> rfl
    · rw [if_neg hm, lookup_cons_eq, ih]
      by_cases hn : n = m.1
      · have hname : n ≠ name := by rwa [hn]
        rw [if_pos hn, if_neg hname, if_pos hn]
      · rw [if_neg hn, if_neg hn]

theorem mem_setMember {α : Type} {ms : List (String × α)} {name : String} {v : α}
    {m : String × α} (h : m ∈ setMember ms name v) : m = (name, v) ∨ m ∈ ms := by
  induction ms with
  | nil => exact Or.inl (List.mem_singleton.1 h)
  | cons x ms ih =>
    rw [setMember] at h
    split at h
    · rcases List.mem_cons.1 h with h | h
      · exact Or.inl h
      · exact Or.inr (List.mem_cons_of_mem _ h)
    · rcases List.mem_cons.1 h with h | h
      · exact Or.inr (List.mem_cons.2 (Or.inl h))
      · exact (ih h).imp_right (List.mem_cons_of_mem _)

/-- The members of an object that are changed each on its own. -/
theorem lookup_map {α β : Type} (f : α → β) (ms : List (String × α)) (n : String) :
    (ms.map fun m => (m.1, f m.2)).lookup n = (ms.lookup n).map f := by
  induction ms with
  | nil => rfl
  | cons m ms ih =>
    rw [List.map_cons, lookup_cons_eq, lookup_cons_eq, ih]
    split <;> rfl

/-- A scalar: neither an array nor an object. -/
def Scalar : Json → Prop
  | arr _ => False
  | obj _ => False
  | _ => True

/-! ## The path query `..name` -/

mutual

/-- Every member called `name` at or below the members of a node, in document order.
The query does not look inside what it finds. -/
def descend (name : String) : Json → List Json
  | .obj ms => descendMembers name ms
  | .arr es => descendElems name es
  | _ => []

def descendElems (name : String) : List Json → List Json
  | [] => []
  | e :: es => descend name e ++ descendElems name es

def descendMembers (name : String) : List (String × Json) → List Json
  | [] => []
  | m :: ms => descendMember name m ++ descendMembers name ms

def descendMember (name : String) : String × Json → List Json
  | (k, v) => if k = name then [v] else descend name v

end

theorem descend_scalar {name : String} {j : Json} (h : j.Scalar) : descend name j = [] := by
  cases j <;> simp_all [Scalar, descend]

theorem descendElems_eq_nil {name : String} {es : List Json} (h : ∀ e ∈ es, descend name e = []) :
    descendElems name es = [] := by
  induction es with
  | nil => simp [descendElems]
  | cons e es ih =>
    rw [descendElems, h e List.mem_cons_self, ih fun x hx => h x (List.mem_cons_of_mem _ hx)]
    rfl

/-- **Below an object of scalars** the query finds nothing but members of that name. -/
theorem descend_obj_flat {name : String} {ms : List (String × Json)}
    (hv : ∀ m ∈ ms, m.2.Scalar) (hn : ∀ m ∈ ms, m.1 ≠ name) : descend name (.obj ms) = [] := by
  rw [descend]
  induction ms with
  | nil => simp [descendMembers]
  | cons m ms ih =>
    obtain ⟨k, v⟩ := m
    rw [descendMembers, descendMember, if_neg (hn _ List.mem_cons_self),
      descend_scalar (hv _ List.mem_cons_self),
      ih (fun x hx => hv x (List.mem_cons_of_mem _ hx)) fun x hx => hn x (List.mem_cons_of_mem _ hx)]
    rfl

/-- **The first node the query finds** below an object is its own member of that name, where no
other member holds one. -/
theorem head?_descendMembers {name : String} {ms : List (String × Json)}
    (h : ∀ m ∈ ms, m.1 ≠ name → descend name m.2 = []) :
    (descendMembers name ms).head? = ms.lookup name := by
  induction ms with
  | nil => rfl
  | cons m ms ih =>
    obtain ⟨k, v⟩ := m
    rw [descendMembers, descendMember, lookup_cons_eq]
    by_cases hk : k = name
    · simp [hk]
    · have hv : descend name v = [] := h (k, v) List.mem_cons_self hk
      rw [if_neg hk, if_neg (Ne.symm hk), hv]
      exact ih fun m hm => h m (List.mem_cons_of_mem _ hm)

end Json
