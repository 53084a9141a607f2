import Mathlib.Data.Nat.Notation
import Mathlib.Data.Int.Notation
import Mathlib.Data.List.TakeWhile
import Mathlib.Tactic.Common

/-!
# Options of a command line

`getopt_long` as the GNU C library has it: the arguments are permuted while they are scanned, the
options come out one by one, and the operands are behind them in the end. The options here take no
argument. A table of long options has to end in an entry without a name. Looking for an entry
behind the end of a table is an error.

* `tokens`, `operands`: what is in a command line.
* `Scanning`: **the state in the middle of a scan**, by the options and operands to come.
* `Scanning.next`, `Scanning.done`: what a call returns.
* `Spelling.call`: what a call of `getopt`, which has no long options, returns.
-/

namespace Getopt

/-- An argument, without the `NUL` behind it. -/
abbrev Arg := List UInt8

def dash : UInt8 := 45

/-- `struct option`. The entry that ends a table has no name. An option with a flag is answered
with 0, and its value goes to that variable. -/
structure LongOption where
  name : Option Arg
  flag : Option ℕ
  val : ℤ
  deriving DecidableEq, Repr

/-- `argv` and `optind`, the static variables of the scan, and `*longind`. -/
structure State where
  argv : List Arg
  optind : ℕ
  firstNonopt : ℕ
  lastNonopt : ℕ
  nextchar : Arg
  longind : ℕ
  deriving DecidableEq, Repr

/-- Before the first call. -/
def State.initial (argv : List Arg) : State := ⟨argv, 1, 1, 1, [], 0⟩

/-- `NONOPTION_P` -/
def nonOption (arg : Arg) : Bool := arg.head? ≠ some dash ∨ arg.drop 1 = []

/-- `--` -/
def endOfOptions : Arg := [dash, dash]

/-! ## Long options -/

/-- The entry with this very name: its place, if there is one. -/
def findExact (name : Arg) : List LongOption → ℕ → Option (Option (ℕ × LongOption))
  | [], _ => none
  | p :: table, i =>
    match p.name with
    | none => some none
    | some s => if s = name then some (some (i, p)) else findExact name table (i + 1)

/-- The first entry whose name starts like this, and whether another one does that stands for
something else. -/
def findAbbreviated (name : Arg) : List LongOption → ℕ → Option (ℕ × LongOption) → Bool →
    Option (Option (ℕ × LongOption) × Bool)
  | [], _, _, _ => none
  | p :: table, i, found, ambiguous =>
    match p.name with
    | none => some (found, ambiguous)
    | some s =>
      if name <+: s then
        match found with
        | none => findAbbreviated name table (i + 1) (some (i, p)) ambiguous
        | some (j, q) =>
          findAbbreviated name table (i + 1) (some (j, q))
            (ambiguous || (q.flag ≠ p.flag ∨ q.val ≠ p.val))
      else findAbbreviated name table (i + 1) found ambiguous

/-- `?` -/
def wrong : ℤ := 63

/-- The answer for an entry that was found or not, and its place. -/
def answerOf (hasValue : Bool) : Option (ℕ × LongOption) → ℤ × Option ℕ
  | none => (wrong, none)
  | some (i, p) => if hasValue then (wrong, none) else (if p.flag.isSome then 0 else p.val, some i)

/-- The name of a long option ends at its `=`. -/
def longName (text : Arg) : Arg := text.takeWhile fun c => c ≠ 61

/-- `process_long_option`: what it returns, and the place it stores. -/
def longAnswer (table : List LongOption) (text : Arg) : Option (ℤ × Option ℕ) :=
  let name := longName text
  let hasValue : Bool := name.length < text.length
  match findExact name table 0 with
  | none => none
  | some (some p) => some (answerOf hasValue (some p))
  | some none =>
    match findAbbreviated name table 0 none false with
    | none => none
    | some (found, ambiguous) =>
      if ambiguous then some (wrong, none) else some (answerOf hasValue found)

def State.long (st : State) (table : List LongOption) (text : Arg) : Option (ℤ × State) :=
  (longAnswer table text).map fun (code, place) =>
    (code, { st with
      optind := st.optind + 1
      nextchar := []
      longind := place.getD st.longind })

/-! ## Short options -/

/-- A character that is an option. -/
def shortAnswer (shorts : Arg) (c : UInt8) : ℤ :=
  if c ∈ shorts ∧ c ≠ 58 ∧ c ≠ 59 then c.toNat else wrong

/-- The next character. The argument is done with when it is the last one. -/
def State.short (st : State) (shorts text : Arg) : ℤ × State :=
  (shortAnswer shorts (text.headD 0), { st with
    nextchar := text.tail
    optind := if text.tail = [] then st.optind + 1 else st.optind })

/-! ## The scan -/

/-- `exchange`: the operands that were skipped go behind the options that came after them. -/
def State.exchange (st : State) : State :=
  let skipped := (st.argv.drop st.firstNonopt).take (st.lastNonopt - st.firstNonopt)
  let recent := (st.argv.drop st.lastNonopt).take (st.optind - st.lastNonopt)
  { st with
    argv := st.argv.take st.firstNonopt ++ recent ++ skipped ++ st.argv.drop st.optind
    firstNonopt := st.firstNonopt + (st.optind - st.lastNonopt)
    lastNonopt := st.optind }

/-- The options that were processed join the front. -/
def State.gather (st : State) : State :=
  if st.firstNonopt ≠ st.lastNonopt ∧ st.lastNonopt ≠ st.optind then st.exchange
  else if st.lastNonopt ≠ st.optind then { st with firstNonopt := st.optind }
  else st

/-- Operands are skipped. -/
def State.skip (st : State) : State :=
  let optind := st.optind + ((st.argv.drop st.optind).takeWhile nonOption).length
  { st with
    optind := optind
    lastNonopt := optind }

/-- `--` is skipped as an option would be, and everything behind it as an operand. -/
def State.stop (st : State) : State :=
  let st := { st with optind := st.optind + 1 }
  let st :=
    if st.firstNonopt ≠ st.lastNonopt ∧ st.lastNonopt ≠ st.optind then st.exchange
    else if st.firstNonopt = st.lastNonopt then { st with firstNonopt := st.optind }
    else st
  { st with
    lastNonopt := st.argv.length
    optind := st.argv.length }

/-- At the end, `optind` is the first of the operands. -/
def State.finish (st : State) : ℤ × State :=
  (-1, if st.firstNonopt ≠ st.lastNonopt then { st with optind := st.firstNonopt } else st)

/-- `getopt_long` -/
def getoptLong (shorts : Arg) (table : List LongOption) (st : State) : Option (ℤ × State) :=
  if st.nextchar ≠ [] then some (st.short shorts st.nextchar)
  else
    let st := st.gather.skip
    match st.argv[st.optind]? with
    | none => some st.finish
    | some arg =>
      if arg = endOfOptions then some st.stop.finish
      else if arg[1]? = some dash then st.long table (arg.drop 2)
      else some (st.short shorts (arg.drop 1))

/-- `getopt`: an argument that starts with `--` is characters, too. -/
def getopt (shorts : Arg) (st : State) : ℤ × State :=
  if st.nextchar ≠ [] then st.short shorts st.nextchar
  else
    let st := st.gather.skip
    match st.argv[st.optind]? with
    | none => st.finish
    | some arg =>
      if arg = endOfOptions then st.stop.finish
      else st.short shorts (arg.drop 1)

/-! ## What is in a command line -/

/-- An option of a command line: a long one, or a character. -/
inductive Token
  | long (text : Arg)
  | short (c : UInt8)
  deriving DecidableEq, Repr

/-- The options in an argument. -/
def argTokens (arg : Arg) : List Token :=
  if arg[1]? = some dash then [.long (arg.drop 2)] else (arg.drop 1).map .short

/-- **The options of a command line**, up to a `--`. -/
def tokens : List Arg → List Token
  | [] => []
  | arg :: args =>
    if nonOption arg then tokens args
    else if arg = endOfOptions then []
    else argTokens arg ++ tokens args

/-- **The operands**: what is no option, and everything behind a `--`. -/
def operands : List Arg → List Arg
  | [] => []
  | arg :: args =>
    if nonOption arg then arg :: operands args
    else if arg = endOfOptions then args
    else operands args

/-- **The option characters**, for `getopt`. -/
def optionChars : List Arg → Arg
  | [] => []
  | arg :: args =>
    if nonOption arg then optionChars args
    else if arg = endOfOptions then []
    else arg.drop 1 ++ optionChars args

/-- What a call returns for an option. -/
def Token.answer (shorts : Arg) (table : List LongOption) : Token → Option (ℤ × Option ℕ)
  | long text => longAnswer table text
  | short c => some (shortAnswer shorts c, none)

variable {st : State} {shorts arg : Arg} {table : List LongOption} {toks : List Token} {t : Token}
  {front skipped recent rest args ops : List Arg}

theorem tokens_dropWhile (args : List Arg) : tokens (args.dropWhile nonOption) = tokens args := by
  induction args with
  | nil => rfl
  | cons arg args ih =>
    rw [List.dropWhile_cons]
    by_cases h : nonOption arg = true
    · rw [if_pos h, ih, tokens, if_pos h]
    · rw [if_neg h]

theorem operands_dropWhile (args : List Arg) :
    args.takeWhile nonOption ++ operands (args.dropWhile nonOption) = operands args := by
  induction args with
  | nil => rfl
  | cons arg args ih =>
    rw [List.dropWhile_cons, List.takeWhile_cons]
    by_cases h : nonOption arg = true
    · rw [if_pos h, if_pos h, List.cons_append, ih, operands, if_pos h]
    · rw [if_neg h, if_neg h, List.nil_append]

theorem optionChars_dropWhile (args : List Arg) :
    optionChars (args.dropWhile nonOption) = optionChars args := by
  induction args with
  | nil => rfl
  | cons arg args ih =>
    rw [List.dropWhile_cons]
    by_cases h : nonOption arg = true
    · rw [if_pos h, ih, optionChars, if_pos h]
    · rw [if_neg h]

/-! ## The parts of `argv` -/

/-- **`argv` in the middle of a scan**: what is done with, the operands that were skipped, the
options processed after them, and what is still to come. -/
structure State.Parts (st : State) (front skipped recent rest : List Arg) : Prop where
  argv : st.argv = front ++ (skipped ++ (recent ++ rest))
  first : st.firstNonopt = front.length
  last : st.lastNonopt = front.length + skipped.length
  optind : st.optind = front.length + skipped.length + recent.length

namespace State.Parts

theorem drop_optind (h : st.Parts front skipped recent rest) : st.argv.drop st.optind = rest := by
  have hfront : st.argv = (front ++ (skipped ++ recent)) ++ rest := by
    rw [h.argv]
    simp
  have hlen : st.optind = (front ++ (skipped ++ recent)).length := by
    rw [h.optind, List.length_append, List.length_append]
    omega
  rw [hfront, hlen, List.drop_left]

/-- Two neighbours change places. -/
theorem exchange (h : st.Parts front skipped recent rest) :
    st.exchange.Parts (front ++ recent) skipped [] rest := by
  have hfirst := h.first
  have hlast := h.last
  have hoptind := h.optind
  have htake : st.argv.take st.firstNonopt = front := by
    rw [h.argv, hfirst, List.take_left]
  have hskipped : (st.argv.drop st.firstNonopt).take (st.lastNonopt - st.firstNonopt) =
      skipped := by
    have hlen : st.lastNonopt - st.firstNonopt = skipped.length := by omega
    rw [h.argv, hfirst, List.drop_left, ← hfirst, hlen, List.take_left]
  have hrecent : (st.argv.drop st.lastNonopt).take (st.optind - st.lastNonopt) = recent := by
    have hlen : st.optind - st.lastNonopt = recent.length := by omega
    have hlast' : st.lastNonopt = (front ++ skipped).length := by
      rw [hlast, List.length_append]
    rw [h.argv, hlen, hlast', ← List.append_assoc, List.drop_left, List.take_left]
  have hsum : st.optind - st.lastNonopt = recent.length := by omega
  refine ⟨?_, ?_, ?_, ?_⟩
  · unfold State.exchange
    simp only
    rw [htake, hskipped, hrecent, h.drop_optind]
    simp
  · have hset : st.exchange.firstNonopt = st.firstNonopt + (st.optind - st.lastNonopt) := rfl
    rw [hset, List.length_append]
    omega
  · have hset : st.exchange.lastNonopt = st.optind := rfl
    rw [hset, List.length_append]
    omega
  · have hset : st.exchange.optind = st.optind := rfl
    rw [hset, List.length_append, List.length_nil]
    omega

/-- Operands that are skipped join those that were. -/
theorem skip (hargv : st.argv = front ++ (skipped ++ rest)) (hfirst : st.firstNonopt = front.length)
    (hoptind : st.optind = front.length + skipped.length) :
    st.skip.Parts front (skipped ++ rest.takeWhile nonOption) [] (rest.dropWhile nonOption) := by
  have hrest : st.argv.drop st.optind = rest := by
    rw [hargv, hoptind, ← List.length_append, ← List.append_assoc, List.drop_left]
  have hset : st.skip.optind = front.length + (skipped ++ rest.takeWhile nonOption).length := by
    unfold State.skip
    simp only
    rw [hrest, hoptind, List.length_append]
    omega
  refine ⟨?_, hfirst, hset, hset⟩
  have hsplit := List.takeWhile_append_dropWhile (p := nonOption) (l := rest)
  have hsame : st.skip.argv = st.argv := rfl
  rw [hsame, hargv, List.nil_append, List.append_assoc, hsplit]

/-- **Before the next option**: what was processed has joined the front, and the operands in
between were skipped. -/
theorem gather_skip (h : st.Parts front skipped recent rest) :
    st.gather.skip.Parts (front ++ recent) (skipped ++ rest.takeWhile nonOption) []
      (rest.dropWhile nonOption) := by
  have hfirst := h.first
  have hlast := h.last
  have hoptind := h.optind
  unfold State.gather
  by_cases hrecent : st.lastNonopt = st.optind
  · -- no option was processed: the front stays as it is
    have hnil : recent = [] := List.length_eq_zero_iff.1 (by omega)
    have hargv := h.argv
    rw [hnil, List.nil_append] at hargv
    rw [if_neg fun hboth => hboth.2 hrecent, if_neg (not_not_intro hrecent), hnil, List.append_nil]
    exact skip hargv hfirst (by omega)
  · by_cases hskipped : st.firstNonopt = st.lastNonopt
    · -- no operand in between: `lastNonopt` is out of date until the operands are skipped
      have hnil : skipped = [] := List.length_eq_zero_iff.1 (by omega)
      rw [if_neg fun hboth => hboth.1 hskipped, if_pos hrecent]
      refine skip ?_ ?_ ?_
      · have hargv := h.argv
        rw [hnil] at hargv ⊢
        rw [hargv]
        simp
      · rw [List.length_append]
        simp only
        omega
      · rw [List.length_append]
        simp only
        omega
    · have hex := h.exchange
      rw [if_pos ⟨hskipped, hrecent⟩]
      refine skip hex.argv hex.first ?_
      rw [hex.optind, List.length_nil, Nat.add_zero]

/-- The end, when there is nothing left. -/
theorem finish (h : st.Parts front skipped [] []) :
    ∃ st', st.finish = (-1, st') ∧ st'.argv.drop st'.optind = skipped := by
  have hfirst := h.first
  have hlast := h.last
  have hoptind := h.optind
  have hdrop := h.drop_optind
  refine ⟨_, rfl, ?_⟩
  by_cases hskipped : st.firstNonopt = st.lastNonopt
  · have hnil : skipped = [] := List.length_eq_zero_iff.1 (by omega)
    rw [if_neg (not_not_intro hskipped), hnil, hdrop]
  · have hargv := h.argv
    rw [List.append_nil, List.append_nil] at hargv
    rw [if_pos hskipped]
    simp only
    rw [hargv, hfirst, List.drop_left]

/-- An argument that has been processed. -/
theorem advance {nextchar : Arg} {longind : ℕ} (h : st.Parts front skipped [] (arg :: rest)) :
    { st with
      optind := st.optind + 1
      nextchar := nextchar
      longind := longind : State }.Parts front skipped [arg] rest := by
  refine ⟨h.argv, h.first, h.last, ?_⟩
  have hoptind := h.optind
  simp only [List.length_nil, List.length_singleton] at hoptind ⊢
  omega

/-- The rest are operands. -/
theorem skip_all (hargv : st.argv = front ++ (skipped ++ rest))
    (hfirst : st.firstNonopt = front.length) :
    { st with
      lastNonopt := st.argv.length
      optind := st.argv.length : State }.Parts front (skipped ++ rest) [] [] := by
  have hlen : st.argv.length = front.length + (skipped ++ rest).length := by
    rw [hargv, List.length_append]
  refine ⟨?_, hfirst, hlen, hlen⟩
  rw [List.append_nil, List.append_nil]
  exact hargv

/-- A `--`. -/
theorem stop (h : st.Parts front skipped [] (endOfOptions :: rest)) :
    st.stop.Parts (front ++ [endOfOptions]) (skipped ++ rest) [] [] := by
  have hpassed := @advance _ _ _ _ _ st.nextchar st.longind h
  have hfirst := h.first
  have hlast := h.last
  have hoptind := h.optind
  rw [List.length_nil] at hoptind
  unfold State.stop
  by_cases hskipped : st.firstNonopt = st.lastNonopt
  · have hnil : skipped = [] := List.length_eq_zero_iff.1 (by omega)
    have hargv := hpassed.argv
    rw [hnil] at hargv
    simp only
    rw [if_neg fun hboth => hboth.1 hskipped, if_pos hskipped]
    refine skip_all ?_ ?_
    · rw [hnil]
      simpa using hargv
    · simp only [List.length_append, List.length_singleton]
      omega
  · have hex := hpassed.exchange
    have hmoved : st.lastNonopt ≠ st.optind + 1 := by omega
    simp only
    rw [if_pos ⟨hskipped, hmoved⟩]
    exact skip_all hex.argv hex.first

end State.Parts

/-! ## Calls -/

/-- **The state in the middle of a scan**: the options still to come, and the operands there are
in the end. Between two arguments, or inside one of which some characters are left. -/
inductive Scanning : State → List Token → List Arg → Prop
  | between {st : State} {front skipped recent rest : List Arg}
      (parts : st.Parts front skipped recent rest) (hnext : st.nextchar = []) :
      Scanning st (tokens rest) (skipped ++ operands rest)
  | inside {st : State} {front skipped rest : List Arg} {arg : Arg}
      (parts : st.Parts front skipped [] (arg :: rest)) (hnext : st.nextchar ≠ []) :
      Scanning st (st.nextchar.map .short ++ tokens rest) (skipped ++ operands rest)

/-- The first call finds what is in the command line. -/
theorem Scanning.initial (name : Arg) (args : List Arg) :
    Scanning (.initial (name :: args)) (tokens args) (operands args) := by
  have parts : (State.initial (name :: args)).Parts [name] [] [] args := ⟨rfl, rfl, rfl, rfl⟩
  exact .between parts rfl

/-- **A call returns this answer**, and the scan goes on. -/
def Answers (call : Option (ℤ × State)) (toks : List Token) (ops : List Arg) :
    Option (ℤ × Option ℕ) → Prop
  | none => call = none
  | some (code, place) => ∃ st, call = some (code, st) ∧ (∀ i, place = some i → st.longind = i) ∧
      Scanning st toks ops

/-- A character of an argument. -/
theorem short_spec (h : st.Parts front skipped [] (arg :: rest)) (shorts : Arg) (c : UInt8)
    (cs : Arg) : Answers (some (st.short shorts (c :: cs))) (cs.map .short ++ tokens rest)
      (skipped ++ operands rest) (some (shortAnswer shorts c, none)) := by
  refine ⟨_, rfl, ?_, ?_⟩
  · intro i hi
    cases hi
  · -- behind the last character the scan is between two arguments
    by_cases hcs : cs = []
    · rw [hcs]
      exact .between h.advance rfl
    · have hsame : (if cs = [] then st.optind + 1 else st.optind) = st.optind := if_neg hcs
      exact .inside ⟨h.argv, h.first, h.last, hsame.trans h.optind⟩ hcs

/-- A long option. -/
theorem long_spec (h : st.Parts front skipped [] (arg :: rest)) (table : List LongOption)
    (text : Arg) : Answers (st.long table text) (tokens rest) (skipped ++ operands rest)
      (longAnswer table text) := by
  unfold State.long
  cases longAnswer table text with
  | none => rfl
  | some answer =>
    refine ⟨_, rfl, ?_, ?_⟩
    · intro i hi
      simp only [hi, Option.getD_some]
    · exact .between h.advance rfl

/-- What stops the skipping. -/
theorem nonOption_of_dropWhile (h : rest.dropWhile nonOption = arg :: args) :
    nonOption arg = false := by
  induction rest with
  | nil => cases h
  | cons first rest ih =>
    rw [List.dropWhile_cons] at h
    by_cases hfirst : nonOption first = true
    · rw [if_pos hfirst] at h
      exact ih h
    · rw [if_neg hfirst] at h
      cases h
      exact eq_false_of_ne_true hfirst

/-- An option has at least one character. -/
theorem drop_one_eq_cons (h : nonOption arg = false) : ∃ c cs, arg.drop 1 = c :: cs := by
  have hne : arg.drop 1 ≠ [] := by
    intro hnil
    simp [nonOption, hnil] at h
  exact List.exists_cons_of_ne_nil hne

/-- A call between two arguments, when the operands have been skipped. -/
theorem getoptLong_between (hnext : st.nextchar = [])
    (h : st.gather.skip.Parts front skipped [] rest) (shorts : Arg) (table : List LongOption) :
    getoptLong shorts table st =
      match rest.head? with
      | none => some st.gather.skip.finish
      | some arg =>
        if arg = endOfOptions then some st.gather.skip.stop.finish
        else if arg[1]? = some dash then st.gather.skip.long table (arg.drop 2)
        else some (st.gather.skip.short shorts (arg.drop 1)) := by
  have hhead : st.gather.skip.argv[st.gather.skip.optind]? = rest.head? := by
    rw [← h.drop_optind, List.head?_drop]
  rw [getoptLong, if_neg (not_not_intro hnext)]
  simp only
  rw [hhead]

/-- **A call between two arguments**: the options are at their end, or the next one is answered. -/
theorem getoptLong_cases (parts : st.Parts front skipped recent rest) (hnext : st.nextchar = [])
    (shorts : Arg) (table : List LongOption) :
    (tokens rest = [] ∧ ∃ st', getoptLong shorts table st = some (-1, st') ∧
      st'.argv.drop st'.optind = skipped ++ operands rest) ∨
    ∃ t toks, tokens rest = t :: toks ∧
      Answers (getoptLong shorts table st) toks (skipped ++ operands rest)
        (t.answer shorts table) := by
  have hparts := parts.gather_skip
  have hcall := getoptLong_between hnext hparts shorts table
  rw [← tokens_dropWhile, ← operands_dropWhile, ← List.append_assoc]
  cases hrest : rest.dropWhile nonOption with
  | nil =>
    rw [hrest] at hparts hcall
    obtain ⟨st', hfinish, hdrop⟩ := hparts.finish
    refine Or.inl ⟨rfl, st', ?_, ?_⟩
    · rw [hcall, List.head?_nil]
      simp only
      rw [hfinish]
    · rw [hdrop, operands, List.append_nil]
  | cons arg args =>
    have harg : ¬ nonOption arg = true := by
      rw [nonOption_of_dropWhile hrest]
      exact Bool.false_ne_true
    rw [hrest] at hparts hcall
    rw [hcall, tokens, operands, if_neg harg, if_neg harg, List.head?_cons]
    simp only
    by_cases hend : arg = endOfOptions
    · -- what is behind a `--` stays where it is
      rw [hend] at hparts
      obtain ⟨st', hfinish, hdrop⟩ := hparts.stop.finish
      rw [if_pos hend, if_pos hend, if_pos hend, hfinish]
      exact Or.inl ⟨rfl, st', rfl, hdrop⟩
    · rw [if_neg hend, if_neg hend, if_neg hend, argTokens]
      by_cases hlong : arg[1]? = some dash
      · rw [if_pos hlong, if_pos hlong]
        exact Or.inr ⟨_, _, rfl, long_spec hparts table (arg.drop 2)⟩
      · obtain ⟨c, cs, hchars⟩ := drop_one_eq_cons (nonOption_of_dropWhile hrest)
        rw [if_neg hlong, if_neg hlong, hchars]
        exact Or.inr ⟨_, _, rfl, short_spec hparts shorts c cs⟩

/-- **The next option.** -/
theorem Scanning.next (h : Scanning st (t :: toks) ops) (shorts : Arg) (table : List LongOption) :
    Answers (getoptLong shorts table st) toks ops (t.answer shorts table) := by
  generalize hall : t :: toks = all at h
  cases h with
  | inside parts hnext =>
    obtain ⟨c, cs, hchars⟩ := List.exists_cons_of_ne_nil hnext
    rw [hchars, List.map_cons, List.cons_append] at hall
    cases hall
    rw [getoptLong, if_pos hnext, hchars]
    exact short_spec parts shorts c cs
  | between parts hnext =>
    rcases getoptLong_cases parts hnext shorts table with ⟨hnil, -⟩ | ⟨t', toks', htoks, hcall⟩
    · rw [hnil] at hall
      cases hall
    · rw [htoks] at hall
      cases hall
      exact hcall

/-- **The end of the options.** -/
theorem Scanning.done (h : Scanning st [] ops) (shorts : Arg) (table : List LongOption) :
    ∃ st', getoptLong shorts table st = some (-1, st') ∧ st'.argv.drop st'.optind = ops := by
  generalize hall : [] = all at h
  cases h with
  | inside parts hnext =>
    obtain ⟨c, cs, hchars⟩ := List.exists_cons_of_ne_nil hnext
    rw [hchars] at hall
    cases hall
  | between parts hnext =>
    rcases getoptLong_cases parts hnext shorts table with ⟨-, hend⟩ | ⟨t, toks, htoks, -⟩
    · exact hend
    · rw [htoks] at hall
      cases hall

/-! ## Calls of `getopt` -/

/-- **The state in the middle of a scan for characters**, by the characters still to come. -/
inductive Spelling : State → Arg → Prop
  | between {st : State} {front skipped recent rest : List Arg}
      (parts : st.Parts front skipped recent rest) (hnext : st.nextchar = []) :
      Spelling st (optionChars rest)
  | inside {st : State} {front skipped rest : List Arg} {arg : Arg}
      (parts : st.Parts front skipped [] (arg :: rest)) (hnext : st.nextchar ≠ []) :
      Spelling st (st.nextchar ++ optionChars rest)

theorem Spelling.initial (name : Arg) (args : List Arg) :
    Spelling (.initial (name :: args)) (optionChars args) := by
  have parts : (State.initial (name :: args)).Parts [name] [] [] args := ⟨rfl, rfl, rfl, rfl⟩
  exact .between parts rfl

/-- A call returns the first of these characters, or that there is none. -/
def Spells (shorts : Arg) (call : ℤ × State) : Arg → Prop
  | [] => ∃ st, call = (-1, st)
  | c :: cs => ∃ st, call = (shortAnswer shorts c, st) ∧ Spelling st cs

/-- One character of an argument. -/
theorem spell_short (h : st.Parts front skipped [] (arg :: rest)) (shorts : Arg) (c : UInt8)
    (cs : Arg) : Spells shorts (st.short shorts (c :: cs)) (c :: (cs ++ optionChars rest)) := by
  refine ⟨_, rfl, ?_⟩
  by_cases hcs : cs = []
  · rw [hcs]
    exact .between h.advance rfl
  · have hsame : (if cs = [] then st.optind + 1 else st.optind) = st.optind := if_neg hcs
    exact .inside ⟨h.argv, h.first, h.last, hsame.trans h.optind⟩ hcs

/-- **A call**: the next character is answered, or there is none. -/
theorem Spelling.call {cs : Arg} (h : Spelling st cs) (shorts : Arg) :
    Spells shorts (getopt shorts st) cs := by
  cases h with
  | inside parts hnext =>
    obtain ⟨c, cs, hchars⟩ := List.exists_cons_of_ne_nil hnext
    rw [getopt, if_pos hnext, hchars]
    exact spell_short parts shorts c cs
  | @between front skipped recent rest parts hnext =>
    have hparts := parts.gather_skip
    have hhead : st.gather.skip.argv[st.gather.skip.optind]? =
        (rest.dropWhile nonOption).head? := by
      rw [← hparts.drop_optind, List.head?_drop]
    rw [← optionChars_dropWhile, getopt, if_neg (not_not_intro hnext)]
    simp only
    rw [hhead]
    cases hrest : rest.dropWhile nonOption with
    | nil => exact ⟨_, rfl⟩
    | cons arg args =>
      have harg : ¬ nonOption arg = true := by
        rw [nonOption_of_dropWhile hrest]
        exact Bool.false_ne_true
      rw [hrest] at hparts
      rw [optionChars, if_neg harg, List.head?_cons]
      simp only
      by_cases hend : arg = endOfOptions
      · rw [if_pos hend, if_pos hend]
        exact ⟨_, rfl⟩
      · obtain ⟨c, cs, hchars⟩ := drop_one_eq_cons (nonOption_of_dropWhile hrest)
        rw [if_neg hend, if_neg hend, hchars]
        exact spell_short hparts shorts c cs

/-- There are no more characters than the arguments have. -/
theorem length_optionChars (args : List Arg) :
    (optionChars args).length ≤ args.flatten.length := by
  induction args with
  | nil => exact Nat.zero_le _
  | cons arg args ih =>
    rw [optionChars, List.flatten_cons, List.length_append]
    split
    · omega
    · split
      · exact Nat.zero_le _
      · rw [List.length_append, List.length_drop]
        omega

/-- There are no more options than characters. -/
theorem length_tokens (args : List Arg) : (tokens args).length ≤ args.flatten.length := by
  induction args with
  | nil => exact Nat.zero_le _
  | cons arg args ih =>
    have harg : (argTokens arg).length ≤ arg.length := by
      unfold argTokens
      split
      · rename_i hlong
        obtain ⟨hlt, -⟩ := List.getElem?_eq_some_iff.1 hlong
        rw [List.length_singleton]
        omega
      · rw [List.length_map, List.length_drop]
        omega
    rw [tokens, List.flatten_cons, List.length_append]
    split
    · omega
    · split
      · exact Nat.zero_le _
      · rw [List.length_append]
        omega

/-! ## A table without an end -/

/-- Every entry has a name, the last one too. -/
def Endless (table : List LongOption) : Prop := ∀ p ∈ table, p.name ≠ none

/-- A name is found, or the search leaves the table. -/
theorem Endless.findExact (h : Endless table) (name : Arg) : ∀ i,
    (∀ p ∈ table, p.name ≠ some name) ∧ findExact name table i = none ∨
      ∃ j p, table[j]? = some p ∧ p.name = some name ∧
        findExact name table i = some (some (i + j, p)) := by
  induction table with
  | nil =>
    intro i
    refine Or.inl ⟨?_, rfl⟩
    intro p hp
    cases hp
  | cons q table ih =>
    intro i
    obtain ⟨s, hs⟩ := Option.ne_none_iff_exists'.1 (h q List.mem_cons_self)
    rw [Getopt.findExact, hs]
    simp only
    by_cases hname : s = name
    · rw [if_pos hname]
      exact Or.inr ⟨0, q, rfl, hs.trans (congrArg some hname), rfl⟩
    · rw [if_neg hname]
      have htable : Endless table := fun p hp => h p (List.mem_cons_of_mem q hp)
      rcases ih htable (i + 1) with ⟨hno, hnone⟩ | ⟨j, p, hget, hp, hfound⟩
      · refine Or.inl ⟨?_, hnone⟩
        intro p hp
        rcases List.mem_cons.1 hp with rfl | hp
        · rw [hs]
          exact fun heq => hname (Option.some.inj heq)
        · exact hno p hp
      · refine Or.inr ⟨j + 1, p, hget, hp, ?_⟩
        have hindex : i + 1 + j = i + (j + 1) := by omega
        rw [hfound, hindex]

/-- The name is shorter than the text if there is a `=`. -/
theorem longName_length (text : Arg) : (longName text).length < text.length ↔ 61 ∈ text := by
  unfold longName
  induction text with
  | nil => simp
  | cons c text ih =>
    by_cases hc : c = 61
    · simp [hc]
    · have hmem : 61 ∈ c :: text ↔ 61 ∈ text := by simp [Ne.symm hc]
      rw [List.takeWhile_cons, if_pos (decide_eq_true hc), List.length_cons, List.length_cons,
        Nat.succ_lt_succ_iff, ih, hmem]

/-- Without one it is the text. -/
theorem longName_eq_self {text : Arg} (h : 61 ∉ text) : longName text = text := by
  have hall : ∀ c ∈ text, decide (c ≠ 61) = true := by
    intro c hc
    exact decide_eq_true fun heq => h (heq ▸ hc)
  exact List.takeWhile_eq_self_iff.2 hall

/-- **A long option is answered if its name is in the table**, and else the table is left. -/
theorem Endless.longAnswer (h : Endless table) (text : Arg) :
    (∀ p ∈ table, p.name ≠ some (longName text)) ∧ longAnswer table text = none ∨
      ∃ i p, table[i]? = some p ∧ p.name = some (longName text) ∧
        longAnswer table text = some (answerOf (decide (61 ∈ text)) (some (i, p))) := by
  have hvalue : decide ((longName text).length < text.length) = decide (61 ∈ text) :=
    decide_eq_decide.2 (longName_length text)
  unfold Getopt.longAnswer
  simp only
  rw [hvalue]
  rcases h.findExact (longName text) 0 with ⟨hno, hnone⟩ | ⟨j, p, hget, hp, hfound⟩
  · rw [hnone]
    exact Or.inl ⟨hno, rfl⟩
  · rw [hfound, Nat.zero_add]
    exact Or.inr ⟨j, p, hget, hp, rfl⟩

end Getopt
