import Rds.Spec.Params

/-!
# The command line

What the options of a command line stand for, and what `parse_params_cl` does with them. The table
it searches has no end, so a long option that is not the full name of an entry is looked for behind
the table.

* `answer_full`: what `getopt_long` returns for an option with a full name.
* `parseLoop_run`: **the loop goes through the options** up to the first that ends it.
* `command_line_iff`: when a command line is parsed as it should be.
-/

namespace Rds

open Getopt

variable {args ops : List Arg} {t : Token} {toks : List Token} {st : ParseState}
  {fuel : ℕ}

/-! ## What options stand for -/

inductive Meaning
  | command (val : ℤ)
  | help
  | verbose
  | debug
  | unknown
  deriving DecidableEq, Repr

/-- The entry whose name starts like this, if it is the only one. -/
def named (name : Arg) : Option LongOption :=
  match longOptions.filter fun p => p.name.any fun s => name <+: s with
  | [p] => some p
  | _ => none

/-- **What an option stands for.** None takes a value. -/
def optionMeaning : Token → Meaning
  | .short c =>
    if c = 118 then .verbose
    else if c = 100 then .debug
    else if c = 104 then .help
    else .unknown
  | .long text =>
    if 61 ∈ text then .unknown
    else
      match named text with
      | none => .unknown
      | some p => if p.flag.isSome then .command p.val else .help

/-- The parsing ends with it. -/
def Meaning.final (m : Meaning) : Bool := m = .help ∨ m = .unknown

/-- The option is a character, or has the name of an entry in full. -/
def FullName : Token → Prop
  | .short _ => True
  | .long text => ∃ p ∈ longOptions, p.name = some (longName text)

/-- **Every long option that is looked for has a full name.** -/
def FullNames : List Token → Prop
  | [] => True
  | t :: toks => FullName t ∧ ((optionMeaning t).final = true ∨ FullNames toks)

theorem longOptions_endless : Endless longOptions := by
  unfold Endless
  decide

/-- A full name is the name of no other entry. -/
theorem named_full {p : LongOption} {name : Arg} (hp : p ∈ longOptions)
    (hname : p.name = some name) : named name = some p := by
  have hall : ∀ p ∈ longOptions, p.name.map named = some (some p) := by decide
  have h := hall p hp
  rw [hname] at h
  exact Option.some.inj h

/-- The only entry without a flag is the help. -/
theorem val_help {p : LongOption} (hp : p ∈ longOptions) (hflag : ¬ p.flag.isSome = true) :
    p.val = 104 := by
  have hall : ∀ p ∈ longOptions, ¬ p.flag.isSome = true → p.val = 104 := by decide
  exact hall p hp hflag

/-- What a call returns for an option, by what it stands for. -/
def Meaning.Answered (m : Meaning) (code : ℤ) (place : Option ℕ) : Prop :=
  match m with
  | command val => code = 0 ∧ ∃ i p, place = some i ∧ longOptions[i]? = some p ∧ p.val = val
  | help => code = 104
  | verbose => code = 118
  | debug => code = 100
  | unknown => code = wrong

/-- The answer for an entry of the table. -/
theorem answered_entry {p : LongOption} {i : ℕ} (hget : longOptions[i]? = some p) :
    (if p.flag.isSome then Meaning.command p.val else .help).Answered
      (answerOf false (some (i, p))).1 (answerOf false (some (i, p))).2 := by
  simp only [answerOf]
  by_cases hflag : p.flag.isSome = true
  · rw [if_pos hflag, if_pos hflag]
    exact ⟨rfl, i, p, rfl, hget, rfl⟩
  · have hval : p.val = 104 := val_help (List.mem_of_getElem? hget) hflag
    rw [if_neg hflag, if_neg hflag]
    exact hval

/-- A character. -/
theorem answered_short (c : UInt8) :
    (optionMeaning (.short c)).Answered (shortAnswer shortOptions c) none := by
  have hshorts : shortOptions = [118, 104, 100] := rfl
  rw [optionMeaning, shortAnswer, hshorts]
  by_cases hv : c = 118
  · rw [hv]
    rfl
  · by_cases hd : c = 100
    · rw [hd]
      rfl
    · by_cases hh : c = 104
      · rw [hh]
        rfl
      · have hno : ¬ (c ∈ [118, 104, 100] ∧ c ≠ 58 ∧ c ≠ 59) := by
          simp [hv, hd, hh]
        rw [if_neg hno, if_neg hv, if_neg hd, if_neg hh]
        rfl

/-- **An option with a full name** is answered with what it stands for. -/
theorem answer_full (h : FullName t) : ∃ code place,
    t.answer shortOptions longOptions = some (code, place) ∧ (optionMeaning t).Answered code place := by
  cases t with
  | short c => exact ⟨_, _, rfl, answered_short c⟩
  | long text =>
    obtain ⟨q, hq, hname⟩ := h
    rcases longOptions_endless.longAnswer text with ⟨hno, -⟩ | ⟨i, p, hget, hp, hanswer⟩
    · exact absurd hname (hno q hq)
    · rw [optionMeaning]
      by_cases hvalue : 61 ∈ text
      · rw [decide_eq_true hvalue] at hanswer
        rw [if_pos hvalue]
        exact ⟨wrong, none, hanswer, rfl⟩
      · rw [longName_eq_self hvalue] at hp
        rw [decide_eq_false hvalue] at hanswer
        rw [if_neg hvalue, named_full (List.mem_of_getElem? hget) hp]
        exact ⟨_, _, hanswer, answered_entry hget⟩

/-- **Any other one** is looked for behind the table. -/
theorem answer_short_name (h : ¬ FullName t) : t.answer shortOptions longOptions = none := by
  cases t with
  | short c => exact absurd trivial h
  | long text =>
    rcases longOptions_endless.longAnswer text with ⟨-, hnone⟩ | ⟨i, p, hget, hp, -⟩
    · exact hnone
    · exact absurd ⟨p, List.mem_of_getElem? hget, hp⟩ h

/-! ## The loop -/

/-- The commands among the options. -/
def commands (ms : List Meaning) : List ℤ :=
  ms.filterMap fun m => match m with
    | .command val => some val
    | _ => none

theorem commands_cons (m : Meaning) (ms : List Meaning) :
    commands (m :: ms) = commands [m] ++ commands ms := by
  unfold commands
  rw [← List.filterMap_append]
  rfl

/-- The last of the commands is stored. -/
def chooseLast (chosen : List ℤ) (params : ParamOptsCl) : ParamOptsCl :=
  { params with command := chosen.getLast?.getD params.command }

theorem chooseLast_append (first second : List ℤ) (params : ParamOptsCl) :
    chooseLast (first ++ second) params = chooseLast second (chooseLast first params) := by
  unfold chooseLast
  rw [List.getLast?_append, Option.getD_or]

/-- A turn of the loop, for an option with a full name. -/
theorem parseLoop_turn (h : Scanning st.getopt (t :: toks) ops) (hfull : FullName t) (fuel : ℕ) :
    ∃ g, Scanning g toks ops ∧ parseLoop (fuel + 1) st =
      match optionMeaning t with
      | .command val =>
        parseLoop fuel { st with
          getopt := g
          params := { st.params with command := val }
          seen := st.seen + 1 }
      | .help => .ok .exited
      | .verbose => parseLoop fuel { st with getopt := g, verbose := true }
      | .debug => parseLoop fuel { st with getopt := g, debug := true }
      | .unknown => .ok (.returned (-1) { st with getopt := g }) := by
  obtain ⟨code, place, hanswer, hmeaning⟩ := answer_full hfull
  have hnext := h.next shortOptions longOptions
  rw [hanswer] at hnext
  obtain ⟨g, hcall, hplace, hscan⟩ := hnext
  refine ⟨g, hscan, ?_⟩
  rw [parseLoop, hcall]
  cases hm : optionMeaning t with
  | command val =>
    rw [hm] at hmeaning
    obtain ⟨hcode, i, p, hi, hget, hval⟩ := hmeaning
    simp only
    rw [if_pos hcode, hplace i hi, hget, ← hval]
  | help =>
    rw [hm] at hmeaning
    rw [show code = 104 from hmeaning]
    rfl
  | verbose =>
    rw [hm] at hmeaning
    rw [show code = 118 from hmeaning]
    rfl
  | debug =>
    rw [hm] at hmeaning
    rw [show code = 100 from hmeaning]
    rfl
  | unknown =>
    rw [hm] at hmeaning
    rw [show code = wrong from hmeaning]
    rfl

/-- The last turn. -/
theorem parseLoop_last (h : Scanning st.getopt [] ops) (fuel : ℕ) :
    ∃ g : Getopt.State, g.argv.drop g.optind = ops ∧
      parseLoop (fuel + 1) st = .ok (endOfParsing { st with getopt := g }) := by
  obtain ⟨g, hcall, hdrop⟩ := h.done shortOptions longOptions
  refine ⟨g, hdrop, ?_⟩
  rw [parseLoop, hcall]
  rfl

/-- **A name that is not full** is read for behind the table. -/
theorem parseLoop_crash (h : Scanning st.getopt (t :: toks) ops) (hshort : ¬ FullName t)
    (fuel : ℕ) : parseLoop (fuel + 1) st = .error .crash := by
  have hnext := h.next shortOptions longOptions
  rw [answer_short_name hshort] at hnext
  have hcall : getoptLong shortOptions longOptions st.getopt = none := hnext
  rw [parseLoop, hcall]

/-- **What the loop ends with**: the help, a return, or the end of the options. -/
def LoopEnds (fuel : ℕ) (st : ParseState) (ms : List Meaning) (ops : List Arg) : Prop :=
  match ms.find? Meaning.final with
  | some .help => parseLoop fuel st = .ok .exited
  | some _ => ∃ st', parseLoop fuel st = .ok (.returned (-1) st')
  | none => ∃ st', parseLoop fuel st = .ok (endOfParsing st') ∧
      st'.getopt.argv.drop st'.getopt.optind = ops ∧
      st'.seen = st.seen + (commands ms).length ∧
      st'.params = chooseLast (commands ms) st.params

/-- An option that does not end the parsing. -/
theorem LoopEnds.next {st₁ : ParseState} {m : Meaning} {ms : List Meaning} (hm : m.final = false)
    (hturn : parseLoop (fuel + 1) st = parseLoop fuel st₁)
    (hseen : st₁.seen = st.seen + (commands [m]).length)
    (hparams : st₁.params = chooseLast (commands [m]) st.params)
    (h : LoopEnds fuel st₁ ms ops) : LoopEnds (fuel + 1) st (m :: ms) ops := by
  have hfinal : ¬ m.final = true := by
    rw [hm]
    exact Bool.false_ne_true
  unfold LoopEnds at h ⊢
  rw [List.find?_cons_of_neg hfinal, hturn]
  cases hfind : ms.find? Meaning.final with
  | some m' =>
    rw [hfind] at h
    cases m' <;> exact h
  | none =>
    rw [hfind] at h
    obtain ⟨st', hend, hdrop, hseen', hparams'⟩ := h
    refine ⟨st', hend, hdrop, ?_, ?_⟩
    · rw [hseen', hseen, commands_cons m ms, List.length_append]
      omega
    · rw [hparams', hparams, commands_cons m ms, chooseLast_append]

/-- **The loop goes through the options**, if all the names it looks for are full. -/
theorem parseLoop_run (hfull : FullNames toks) (h : Scanning st.getopt toks ops)
    (hfuel : toks.length < fuel) : LoopEnds fuel st (toks.map optionMeaning) ops := by
  induction toks generalizing st fuel with
  | nil =>
    obtain ⟨n, rfl⟩ := Nat.exists_eq_add_one.2 (Nat.zero_lt_of_lt hfuel)
    obtain ⟨g, hdrop, hlast⟩ := parseLoop_last h n
    exact ⟨_, hlast, hdrop, by simp [commands], rfl⟩
  | cons t toks ih =>
    obtain ⟨n, rfl⟩ := Nat.exists_eq_add_one.2 (Nat.zero_lt_of_lt hfuel)
    have hfuel' : toks.length < n := Nat.lt_of_succ_lt_succ hfuel
    obtain ⟨hname, hrest⟩ := hfull
    obtain ⟨g, hscan, hturn⟩ := parseLoop_turn h hname n
    rw [List.map_cons]
    cases hm : optionMeaning t with
    | command val =>
      rw [hm] at hturn hrest
      have hrest' := hrest.resolve_left Bool.false_ne_true
      exact .next rfl hturn rfl rfl (ih hrest' hscan hfuel')
    | help =>
      rw [hm] at hturn
      exact hturn
    | verbose =>
      rw [hm] at hturn hrest
      have hrest' := hrest.resolve_left Bool.false_ne_true
      exact .next rfl hturn (by simp [commands]) rfl (ih hrest' hscan hfuel')
    | debug =>
      rw [hm] at hturn hrest
      have hrest' := hrest.resolve_left Bool.false_ne_true
      exact .next rfl hturn (by simp [commands]) rfl (ih hrest' hscan hfuel')
    | unknown =>
      rw [hm] at hturn
      exact ⟨_, hturn⟩

/-- Else it reads behind the table. -/
theorem parseLoop_reads_behind (hshort : ¬ FullNames toks) (h : Scanning st.getopt toks ops)
    (hfuel : toks.length < fuel) : parseLoop fuel st = .error .crash := by
  induction toks generalizing st fuel with
  | nil => exact absurd trivial hshort
  | cons t toks ih =>
    obtain ⟨n, rfl⟩ := Nat.exists_eq_add_one.2 (Nat.zero_lt_of_lt hfuel)
    have hfuel' : toks.length < n := Nat.lt_of_succ_lt_succ hfuel
    by_cases hname : FullName t
    · have hgo : ¬ ((optionMeaning t).final = true ∨ FullNames toks) := fun hor => hshort ⟨hname, hor⟩
      obtain ⟨hfinal, hshort'⟩ := not_or.1 hgo
      obtain ⟨g, hscan, hturn⟩ := parseLoop_turn h hname n
      rw [hturn]
      cases hm : optionMeaning t with
      | command val => exact ih hshort' hscan hfuel'
      | help =>
        rw [hm] at hfinal
        exact absurd rfl hfinal
      | verbose => exact ih hshort' hscan hfuel'
      | debug => exact ih hshort' hscan hfuel'
      | unknown =>
        rw [hm] at hfinal
        exact absurd rfl hfinal
    · exact parseLoop_crash h hname n

/-! ## Command lines -/

/-- One command, once, and otherwise only the options of the log. -/
def OneCommand (ms : List Meaning) (val : ℤ) : Prop :=
  commands ms = [val] ∧ .help ∉ ms ∧ .unknown ∉ ms

/-- The help is asked for, before anything unknown. -/
def HelpRequested (ms : List Meaning) : Prop :=
  ∃ front rest, ms = front ++ .help :: rest ∧ .unknown ∉ front

/-- **The options are judged as they should be**: 0 is returned for exactly one command, and it is
stored with the operands; -1 is returned if an option is unknown. -/
def Judged (ms : List Meaning) (ops : List Arg) (parsed : ParseEnd) : Prop :=
  ∃ ret st, parsed = .returned ret st ∧ (ret = 0 ↔ ∃ val, OneCommand ms val) ∧
    (∀ val, ret = 0 → OneCommand ms val → st.params = ⟨val, ops.length, ops⟩) ∧
    (.unknown ∈ ms → ret = -1)

/-- **A command line is parsed as it should be**: nothing behind the table is read, and the options
are judged unless the help is asked for. -/
def ParsedRight (name : Arg) (args : List Arg) : Prop :=
  ∃ parsed, parseParamsCl (name :: args) initParamsCl = .ok parsed ∧
    (¬ HelpRequested ((tokens args).map optionMeaning) →
      Judged ((tokens args).map optionMeaning) (operands args) parsed)

/-- Something else is returned, and there is not one command. -/
theorem Judged.refused {ms : List Meaning} {ret : ℤ} (hret : ret ≠ 0)
    (hone : ∀ val, ¬ OneCommand ms val) (hunknown : .unknown ∈ ms → ret = -1) (ops : List Arg)
    (st : ParseState) : Judged ms ops (.returned ret st) := by
  refine ⟨ret, st, rfl, ?_, ?_, hunknown⟩
  · constructor
    · intro h
      exact absurd h hret
    · rintro ⟨val, h⟩
      exact absurd h (hone val)
  · intro val h
    exact absurd h hret

theorem appendPkgs_eq (args : List Arg) (params : ParamOptsCl) : appendPkgs args params =
    ⟨params.command, params.pkgCount + args.length, params.pkgs ++ args⟩ := by
  induction args generalizing params with
  | nil => simp [appendPkgs]
  | cons arg args ih =>
    rw [appendPkgs, ih]
    simp only [List.length_cons, List.append_assoc, List.singleton_append, Nat.cast_add,
      Nat.cast_one, ParamOptsCl.mk.injEq, true_and, and_true]
    omega

/-- There are calls enough for the options. -/
theorem length_tokens_lt (name : Arg) (args : List Arg) :
    (tokens args).length < parseSteps (name :: args) := by
  have hle := length_tokens args
  unfold parseSteps
  rw [List.flatten_cons, List.length_append]
  omega

/-- What is behind the loop, for a number of commands. -/
theorem endOfParsing_judged {ms : List Meaning} (hfinal : ms.find? Meaning.final = none)
    (hdrop : st.getopt.argv.drop st.getopt.optind = ops) (hseen : st.seen = (commands ms).length)
    (hparams : st.params = chooseLast (commands ms) initParamsCl) :
    Judged ms ops (endOfParsing st) := by
  have hnone := List.find?_eq_none.1 hfinal
  have hhelp : .help ∉ ms := fun h => hnone _ h rfl
  have hunknown : .unknown ∉ ms := fun h => hnone _ h rfl
  have hnotOne (h : st.seen ≠ 1) (val : ℤ) : ¬ OneCommand ms val := by
    rintro ⟨hone, -⟩
    rw [hone, List.length_singleton] at hseen
    omega
  unfold endOfParsing
  by_cases hmany : 1 < st.seen
  · rw [if_pos hmany]
    exact .refused (by decide) (hnotOne (by omega)) (fun h => absurd h hunknown) ops st
  · by_cases hzero : st.seen = 0
    · rw [if_neg hmany, if_pos hzero]
      exact .refused (by decide) (hnotOne (by omega)) (fun h => absurd h hunknown) ops st
    · have hlen : (commands ms).length = 1 := by omega
      obtain ⟨val, hone⟩ := List.length_eq_one_iff.1 hlen
      rw [if_neg hmany, if_neg hzero, hdrop]
      refine ⟨0, _, rfl, ?_, ?_, ?_⟩
      · constructor
        · intro _
          exact ⟨val, hone, hhelp, hunknown⟩
        · intro _
          rfl
      · rintro val' - ⟨hone', -⟩
        obtain rfl : val = val' := by
          rw [hone] at hone'
          exact List.head_eq_of_cons_eq hone'
        simp only
        rw [hparams, hone, appendPkgs_eq]
        simp [chooseLast, initParamsCl]
      · intro h
        exact absurd h hunknown

/-- What the loop ends with is judged, unless it is the help. -/
theorem LoopEnds.judged {ms : List Meaning} (h : LoopEnds fuel st ms ops) (hseen : st.seen = 0)
    (hparams : st.params = initParamsCl) :
    ∃ parsed, parseLoop fuel st = .ok parsed ∧ (¬ HelpRequested ms → Judged ms ops parsed) := by
  unfold LoopEnds at h
  cases hfind : ms.find? Meaning.final with
  | none =>
    rw [hfind] at h
    obtain ⟨st', hend, hdrop, hseen', hparams'⟩ := h
    rw [hseen, Int.zero_add] at hseen'
    rw [hparams] at hparams'
    exact ⟨_, hend, fun _ => endOfParsing_judged hfind hdrop hseen' hparams'⟩
  | some m =>
    rw [hfind] at h
    obtain ⟨hfinal, front, rest, hms, hfront⟩ := List.find?_eq_some_iff_append.1 hfind
    cases m with
    | command val => cases hfinal
    | verbose => cases hfinal
    | debug => cases hfinal
    | help =>
      -- what is in front of the help did not end the parsing, so none of it is unknown
      refine ⟨_, h, fun hno => absurd ⟨front, rest, hms, ?_⟩ hno⟩
      intro hunknown
      exact absurd (hfront _ hunknown) (by decide)
    | unknown =>
      obtain ⟨st', hend⟩ := h
      have hmem : Meaning.unknown ∈ ms := List.mem_of_find?_eq_some hfind
      refine ⟨_, hend, fun _ => .refused (by decide) ?_ (fun _ => rfl) ops st'⟩
      intro val hone
      exact hone.2.2 hmem

/-- **When a command line is parsed as it should be**: every long option that is looked for, up to
the first unknown one or the help, has the full name of an entry. -/
theorem command_line_iff (name : Arg) (args : List Arg) :
    ParsedRight name args ↔ FullNames (tokens args) := by
  have hscan := Scanning.initial name args
  have hfuel := length_tokens_lt name args
  cases args with
  | nil =>
    -- `argc == 1` is answered before anything is scanned
    have hone (val : ℤ) : ¬ OneCommand [] val := by
      rintro ⟨h, -⟩
      cases h
    have hjudged : Judged [] [] (.returned 2 ⟨.initial [name], initParamsCl, 0, false, false⟩) :=
      .refused (by decide) hone (fun h => absurd h List.not_mem_nil) [] _
    exact ⟨fun _ => trivial, fun _ => ⟨_, rfl, fun _ => hjudged⟩⟩
  | cons arg args =>
    have hargc : ¬ (name :: arg :: args).length = 1 := by
      rw [List.length_cons, List.length_cons]
      omega
    unfold ParsedRight parseParamsCl
    simp only
    rw [if_neg hargc]
    constructor
    · rintro ⟨parsed, hparsed, -⟩
      by_contra hshort
      rw [parseLoop_reads_behind hshort hscan hfuel] at hparsed
      cases hparsed
    · intro hfull
      exact (parseLoop_run hfull hscan hfuel).judged rfl rfl

/-- `rds --inst emacs`: the abbreviation is looked for behind the table. -/
theorem command_line_fails : ¬ ParsedRight (text ['r', 'd', 's'])
    [text ['-', '-', 'i', 'n', 's', 't'], text ['e', 'm', 'a', 'c', 's']] := by
  rintro ⟨parsed, hparsed, -⟩
  cases hparsed

end Rds
