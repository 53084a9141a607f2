import Rds.Proof.Answer
import Rds.Proof.Consent
import Rds.Proof.Reject

/-!
# The status of a request

`errors.h` has a result for each stage of a request that can fail. `course` says how far a request
gets, `Failed` which of its stages fail on the way, and `StatusNamed` that the status returned names
one of them, and is `OK` if there is none.

* `ssdsAnswerProcess_course`: what the client returns, by how far it gets.
* `status_named_iff`: when that is the right status. The client returns the code of the answer
  where it means `OK` or an error, and the value of `rpmtsRun` as it is.
-/

namespace Rds

/-! ## What an answer says -/

/-- The code of an answer, -1 without one. -/
def answerCode (root : Option Json) : ℤ :=
  if jsonObjectHasMember (jsonNodeGetObject root) "code" then
    toInt (jsonObjectGetIntMember (jsonNodeGetObject root) "code")
  else -1

/-- The number of packages in a list of an answer. -/
def answerCount (root : Option Json) (name : String) : ℕ :=
  jsonArrayGetLength (jsonArrayGetArrayElement (jsonPathMatchData name root) 0)

/-- The packages in a list of an answer. -/
def listedPkgs (root : Option Json) (name : String) : List SsdsJsonPkg :=
  (List.range (answerCount root name)).map (answerPkgAt (jsonObjectGetArrayMember
    (jsonNodeGetObject (jsonObjectGetMember (jsonNodeGetObject root) "data")) name))

/-- An answer with nothing in the lists that are counted. -/
def AnswerEmpty (root : Option Json) : Prop :=
  answerCount root "install" = 0 ∧ answerCount root "upgrade" = 0 ∧ answerCount root "erase" = 0 ∧
    answerCount root "obsolete" = 0

instance (root : Option Json) : Decidable (AnswerEmpty root) := inferInstanceAs (Decidable (_ ∧ _))

/-- Whether the question about an answer offers to download only. -/
def answerOffers (root : Option Json) : Bool :=
  !(answerCount root "install" = 0 ∧ answerCount root "upgrade" = 0 ∧ answerCount root "erase" ≠ 0)

/-- The codes with which the server turns a request down. -/
def turnsDown : List ℤ := [Code.answerWarning.num, Code.answerError.num, Code.answerNoDep.num]

theorem getCode_ofRoot (root : Option Json) :
    ssdsJsRdGetCode (.ofRoot root) = .ok (answerCode root) := by
  unfold ssdsJsRdGetCode SsdsJsonRead.ofRoot answerCode
  simp only [Ptr.get_of, bind, Except.bind, pure, Except.pure]
  split <;> rfl

theorem getMessage_ofRoot (root : Option Json) : ∃ m, ssdsJsRdGetMessage (.ofRoot root) = .ok m := by
  unfold ssdsJsRdGetMessage SsdsJsonRead.ofRoot
  simp only [Ptr.get_of, bind, Except.bind, pure, Except.pure]
  split <;> exact ⟨_, rfl⟩

theorem getCount_ofRoot (root : Option Json) (name : String) :
    ssdsJsRdGetCount (.ofRoot root) name = .ok (answerCount root name) := by
  unfold ssdsJsRdGetCount SsdsJsonRead.ofRoot
  simp only [Ptr.get_of, bind, Except.bind, pure, Except.pure]
  rfl

theorem parseAnswer_ofRoot (root : Option Json) (name : String) :
    ssdsJsRdParseAnswer name (.ofRoot root) = .ok (none :: (listedPkgs root name).map some) := by
  unfold ssdsJsRdParseAnswer
  rw [getCount_ofRoot]
  unfold SsdsJsonRead.ofRoot listedPkgs
  simp only [Ptr.get_of, bind, Except.bind, pure, Except.pure, List.map_map]
  rfl

/-! ## How far a request gets -/

/-- What the `k`-th download makes of some packages. -/
def fetchTargets (lr : Librepo) (k : ℕ) (pkgs : List SsdsJsonPkg) : List LrPackageTarget :=
  (lrDownloadPackages lr k (pkgs.map newTarget)).2

/-- **How far a request gets**: the answer is lost, is no message, turns the request down or has
nothing to do; the user has not answered yet or declines; a download fails, or was all the user
wanted; or it comes to a transaction. -/
inductive Course
  | lost
  | refused
  | turnedDown (code : ℤ)
  | nothing (code : ℤ)
  | waiting
  | declined (code : ℤ)
  | notDownloaded
  | downloaded
  | transaction (install update : List LrPackageTarget) (erase : List SsdsJsonPkg)

/-- The course of an answer to which the user agrees. -/
def agreedCourse (lr : Librepo) (root : Option Json) (ans : Answer) : Course :=
  if !(lr.succeeds 0 && lr.succeeds 1) then .notDownloaded
  else if ans = .download then .downloaded
  else .transaction (fetchTargets lr 0 (listedPkgs root "install")) (fetchTargets lr 1 (listedPkgs root "upgrade"))
    (listedPkgs root "erase")

/-- The course of an answer that asks for something. -/
def askedCourse (lr : Librepo) (stdin : List Char) (root : Option Json) : Course :=
  match ssdsQuestion (answerOffers root) stdin with
  | .error _ => .waiting
  | .ok (.no, _) => .declined (answerCode root)
  | .ok (ans, _) => agreedCourse lr root ans

/-- The course of a request, by what becomes of the answer. -/
def course (lr : Librepo) (stdin : List Char) : Delivery → Course
  | .lost => .lost
  | .refused => .refused
  | .document root =>
    if answerCode root ∈ turnsDown then .turnedDown (answerCode root)
    else if AnswerEmpty root then .nothing (answerCode root)
    else askedCourse lr stdin root

/-! ## What can fail -/

/-- The stages of a request. -/
inductive Stage
  | receive
  | parse
  | server
  | download
  | install
  | update
  | erase
  | transaction
  deriving DecidableEq, Repr

/-- The results that name a stage. -/
def Stage.results : Stage → List Errors
  | receive => [.networkingError, .socketError]
  | parse => [.jsonError]
  | server => [.repoError, .internalError]
  | download => [.downloadError]
  | install => [.installError]
  | update => [.updateError]
  | erase => [.eraseError]
  | transaction => [.actionError, .rpmOrderError]

/-- The name put forward as the `k`-th package is installed, and every package of that name can be
added for erasure. -/
def Rpm.Erases (rpm : Rpm) (k : ℕ) : Prop := rpm.found k ≠ [] ∧ ∀ m ∈ rpm.found k, m.Added

/-- The stages of a transaction that fail. -/
def TransactionFails (rpm : Rpm) (install update : List LrPackageTarget) (erase : List SsdsJsonPkg) :
    Stage → Prop
  | .install => (∃ t ∈ install, t.err ≠ none) ∨ ∃ k < install.length, ¬ rpm.Adds k
  | .update => (∃ t ∈ update, t.err ≠ none) ∨ ∃ k < update.length, ¬ rpm.Adds (install.length + k)
  | .erase => ∃ i < erase.length, ¬ rpm.Erases (install.length + update.length + i)
  | .transaction => ¬ Stops rpm install update erase ∧ rpm.run ≠ 0
  | _ => False

/-- **The stages that fail** in the course of a request. -/
def Course.Fails (rpm : Rpm) : Course → Stage → Prop
  | lost, s => s = .receive
  | refused, s => s = .parse
  | turnedDown _, s => s = .server
  | notDownloaded, s => s = .download
  | transaction install update erase, s => TransactionFails rpm install update erase s
  | _, _ => False

/-- A status that is the number of a result for this stage. -/
def Names (s : Stage) (rc : ℤ) : Prop := ∃ e ∈ s.results, rc = e.num

/-- **A status that says what happened**: `OK` if nothing failed, and otherwise the number of a
result for a stage that did. -/
def StatusFits (fails : Stage → Prop) (rc : ℤ) : Prop :=
  ((∀ s, ¬ fails s) → rc = Errors.ok.num) ∧ ((∃ s, fails s) → ∃ s, fails s ∧ Names s rc)

/-- **The status of a request says what happened**, whatever the memory for the reader held. A
client that waits for its user has not returned yet. -/
def StatusNamed (lr : Librepo) (rpm : Rpm) (stdin : List Char) (d : Delivery) : Prop :=
  ∀ fresh, ssdsAnswerProcess lr rpm stdin fresh d = .error .blocked ∨
    ∃ a, ssdsAnswerProcess lr rpm stdin fresh d = .ok a ∧ StatusFits ((course lr stdin d).Fails rpm) a.rc

/-! ## What is returned -/

variable {lr : Librepo} {rpm : Rpm} {stdin : List Char}

/-- What the client returns for a course. A refused text leaves a reader of zeros, and -1. -/
def Course.Returns (rpm : Rpm) : Course → ℤ → Prop
  | lost, rc => rc = Errors.networkingError.num
  | refused, rc => rc = -1
  | turnedDown code, rc => rc = code
  | nothing code, rc => rc = code
  | waiting, _ => False
  | declined code, rc => rc = code
  | notDownloaded, rc => rc = Errors.downloadError.num
  | downloaded, rc => rc = Errors.ok.num
  | transaction install update erase, rc =>
    ∃ r, ssdsRpmProcess rpm install update (none :: erase.map some) = .ok r ∧ rc = r.rc

/-- A question without an answer waits. -/
theorem ssdsQuestion_error {offer : Bool} {e : Halt} (h : ssdsQuestion offer stdin = .error e) :
    e = .blocked := by
  fun_induction ssdsQuestion offer stdin with
  | case1 => cases h; rfl
  | case2 => cases h
  | case3 => cases h
  | case4 => cases h
  | case5 => cases h; rfl
  | case6 _ _ _ _ _ _ ih => exact ih h

theorem ssdsRpmProcess_total (rpm : Rpm) (install update : List LrPackageTarget)
    (erase : List SsdsJsonPkg) :
    ∃ r, ssdsRpmProcess rpm install update (none :: erase.map some) = .ok r := by
  by_cases h : Stops rpm install update erase
  · obtain ⟨e, ts, -, hr⟩ := ssdsRpmProcess_stop h
    exact ⟨_, hr⟩
  · exact ⟨_, ssdsRpmProcess_run h⟩

/-- What `ssds_download` returns once the user agrees. -/
theorem ssdsDownload_returns (root : Option Json) (ans : Answer) :
    ∃ d, ssdsDownload lr rpm ans (none :: (listedPkgs root "install").map some)
        (none :: (listedPkgs root "upgrade").map some) (none :: (listedPkgs root "erase").map some) = .ok d ∧
      (agreedCourse lr root ans).Returns rpm d.rc := by
  have hfetch : ∀ k pkgs, lrDownloadPackages lr k (pkgs.map newTarget) =
      (lr.succeeds k, fetchTargets lr k pkgs) := fun _ _ => rfl
  obtain ⟨r, hr⟩ := ssdsRpmProcess_total rpm (fetchTargets lr 0 (listedPkgs root "install"))
    (fetchTargets lr 1 (listedPkgs root "upgrade")) (listedPkgs root "erase")
  unfold ssdsDownload agreedCourse
  simp only [downloadTargets_some, bind, Except.bind, hfetch, hr]
  cases lr.succeeds 0 with
  | false => exact ⟨_, rfl, rfl⟩
  | true =>
    cases lr.succeeds 1 with
    | false => exact ⟨_, rfl, rfl⟩
    | true =>
      by_cases hans : ans = .download
      · rw [if_pos hans, if_pos hans]
        exact ⟨_, rfl, rfl⟩
      · rw [if_neg hans, if_neg hans]
        exact ⟨_, rfl, r, hr, rfl⟩

/-- What the client returns for an answer that asks for something. -/
theorem answerPackages_returns {root : Option Json} (hne : ¬ AnswerEmpty root) :
    answerPackages lr rpm stdin (answerCode root) (.ofRoot root) = .error .blocked ∧
        askedCourse lr stdin root = .waiting ∨
      ∃ a, answerPackages lr rpm stdin (answerCode root) (.ofRoot root) = .ok a ∧
        (askedCourse lr stdin root).Returns rpm a.rc := by
  unfold AnswerEmpty at hne
  unfold answerPackages askedCourse
  simp only [getCount_ofRoot, parseAnswer_ofRoot, bind, Except.bind, if_neg hne]
  have hoffers : answerOffers root = !(answerCount root "install" = 0 ∧ answerCount root "upgrade" = 0 ∧
      answerCount root "erase" ≠ 0) := rfl
  rw [← hoffers]
  cases hq : ssdsQuestion (answerOffers root) stdin with
  | error e =>
    rw [ssdsQuestion_error hq]
    exact Or.inl ⟨rfl, rfl⟩
  | ok p =>
    obtain ⟨ans, rest⟩ := p
    obtain ⟨d, hd, hrc⟩ := @ssdsDownload_returns lr rpm root ans
    refine Or.inr ?_
    cases ans with
    | no => exact ⟨_, rfl, rfl⟩
    | yes =>
      simp only [hd, reduceCtorEq, if_false]
      exact ⟨_, rfl, hrc⟩
    | download =>
      simp only [hd, reduceCtorEq, if_false]
      exact ⟨_, rfl, hrc⟩

/-- **What the client returns**, by how far the request gets. -/
theorem ssdsAnswerProcess_returns (fresh : SsdsJsonRead) {d : Delivery} (hd : d ≠ .refused) :
    ssdsAnswerProcess lr rpm stdin fresh d = .error .blocked ∧ course lr stdin d = .waiting ∨
      ∃ a, ssdsAnswerProcess lr rpm stdin fresh d = .ok a ∧ (course lr stdin d).Returns rpm a.rc := by
  cases d with
  | lost => exact Or.inr ⟨_, rfl, rfl⟩
  | refused => exact absurd rfl hd
  | document root =>
    have hparse : (Delivery.parse (.document root) fresh).2 = .ofRoot root := rfl
    obtain ⟨m, hm⟩ := getMessage_ofRoot root
    have hreceived : Delivery.document root ≠ .lost := by simp
    rw [ssdsAnswerProcess_received hreceived, hparse, getCode_ofRoot]
    simp only [course, turnsDown, List.mem_cons, List.not_mem_nil, or_false, Except.bind, hm]
    by_cases hwarn : answerCode root = Code.answerWarning.num ∨ answerCode root = Code.answerError.num
    · have hdown : answerCode root = Code.answerWarning.num ∨ answerCode root = Code.answerError.num ∨
          answerCode root = Code.answerNoDep.num := by tauto
      rw [if_pos hwarn, if_pos hdown]
      exact Or.inr ⟨_, rfl, rfl⟩
    by_cases hdep : answerCode root = Code.answerNoDep.num
    · rw [if_neg hwarn, if_pos hdep, if_pos (Or.inr (Or.inr hdep))]
      exact Or.inr ⟨_, rfl, rfl⟩
    have hgood : ¬ (answerCode root = Code.answerWarning.num ∨ answerCode root = Code.answerError.num ∨
        answerCode root = Code.answerNoDep.num) := by tauto
    rw [if_neg hwarn, if_neg hdep, if_neg hgood]
    by_cases hempty : AnswerEmpty root
    · rw [if_pos hempty]
      unfold AnswerEmpty at hempty
      refine Or.inr ⟨⟨answerCode root, stdin, none⟩, ?_, rfl⟩
      unfold answerPackages
      simp only [getCount_ofRoot, bind, Except.bind, if_pos hempty]
      rfl
    · rw [if_neg hempty]
      exact answerPackages_returns hempty

/-! ## When it is the right status -/

theorem statusFits_none {fails : Stage → Prop} (h : ∀ s, ¬ fails s) (rc : ℤ) :
    StatusFits fails rc ↔ rc = Errors.ok.num := by
  constructor
  · intro hfits
    exact hfits.1 h
  · intro hrc
    refine ⟨fun _ => hrc, ?_⟩
    rintro ⟨s, hs⟩
    exact absurd hs (h s)

theorem statusFits_some {fails : Stage → Prop} (h : ∃ s, fails s) (rc : ℤ) :
    StatusFits fails rc ↔ ∃ s, fails s ∧ Names s rc := by
  constructor
  · intro hfits
    exact hfits.2 h
  · intro hnames
    obtain ⟨s, hs⟩ := h
    exact ⟨fun hnone => absurd hs (hnone s), fun _ => hnames⟩

theorem statusFits_only (s : Stage) (rc : ℤ) : StatusFits (· = s) rc ↔ Names s rc := by
  rw [@statusFits_some (· = s) ⟨s, rfl⟩ rc]
  constructor
  · rintro ⟨_, rfl, h⟩
    exact h
  · intro h
    exact ⟨s, rfl, h⟩

variable {install update : List LrPackageTarget} {erase : List SsdsJsonPkg}

/-- The error a call stops with names a stage that failed. -/
theorem StopsWith.names {e : Errors} (h : StopsWith rpm install update erase e) :
    ∃ s, TransactionFails rpm install update erase s ∧ Names s e.num := by
  cases h with
  | install h => exact ⟨.install, Or.inl h, .installError, by decide, rfl⟩
  | update h => exact ⟨.update, Or.inl h, .updateError, by decide, rfl⟩
  | erase h =>
    obtain ⟨i, hi, hne⟩ := h
    exact ⟨.erase, ⟨i, hi, fun herases => hne (Rpm.eraseRc_eq_zero herases.2)⟩, .eraseError,
      by decide, rfl⟩

/-- **Nothing fails in a transaction that is run** if everything was added to it and `rpmtsRun`
returns 0. -/
theorem transactionFails_none_iff (hrun : ¬ Stops rpm install update erase) :
    (∀ s, ¬ TransactionFails rpm install update erase s) ↔
      AllAddable rpm install update erase ∧ rpm.run = 0 := by
  constructor
  · intro h
    have hi := h .install
    have hu := h .update
    have he := h .erase
    have ht := h .transaction
    simp only [TransactionFails, not_or, not_exists, not_and, not_not] at hi hu he ht
    refine ⟨⟨?_, he⟩, ht hrun⟩
    intro k hk
    by_cases hlt : k < install.length
    · exact hi.2 k hlt
    · have hadds := hu.2 (k - install.length) (by omega)
      rwa [show install.length + (k - install.length) = k by omega] at hadds
  · rintro ⟨⟨hadds, herases⟩, hzero⟩ s hs
    -- a stage fails either before `rpmtsRun`, which is not so, or by a package that is not added
    cases s with
    | install =>
      rcases hs with h | ⟨k, hk, h⟩
      · exact hrun (Or.inl h)
      · exact h (hadds k (by omega))
    | update =>
      rcases hs with h | ⟨k, hk, h⟩
      · exact hrun (Or.inr (Or.inl h))
      · exact h (hadds _ (by omega))
    | erase =>
      obtain ⟨i, hi, h⟩ := hs
      exact h (herases i hi)
    | transaction => exact hs.2 hzero
    | receive => exact hs
    | parse => exact hs
    | server => exact hs
    | download => exact hs

/-- **A transaction whose status is right**: it stops with an error of its own; or everything is
added and `rpmtsRun` returns 0; or the value of `rpmtsRun` happens to be the number of a result for
a stage that failed. -/
def TransactionKept (rpm : Rpm) (install update : List LrPackageTarget) (erase : List SsdsJsonPkg) :
    Prop :=
  Stops rpm install update erase ∨ (AllAddable rpm install update erase ∧ rpm.run = 0) ∨
    ∃ s, TransactionFails rpm install update erase s ∧ Names s rpm.run

theorem transaction_fits_iff {r : RpmResult}
    (hr : ssdsRpmProcess rpm install update (none :: erase.map some) = .ok r) :
    StatusFits (TransactionFails rpm install update erase) r.rc ↔
      TransactionKept rpm install update erase := by
  by_cases hstop : Stops rpm install update erase
  · obtain ⟨e, ts, hwith, hr'⟩ := ssdsRpmProcess_stop hstop
    rw [hr] at hr'
    cases hr'
    obtain ⟨s, hs, hname⟩ := hwith.names
    rw [statusFits_some ⟨s, hs⟩]
    exact ⟨fun _ => Or.inl hstop, fun _ => ⟨s, hs, hname⟩⟩
  · rw [ssdsRpmProcess_run hstop] at hr
    cases hr
    have hnone := transactionFails_none_iff hstop
    unfold TransactionKept
    by_cases hfail : ∃ s, TransactionFails rpm install update erase s
    · have hsome : ¬ (AllAddable rpm install update erase ∧ rpm.run = 0) := by
        rw [← hnone]
        push Not
        exact hfail
      rw [statusFits_some hfail, or_iff_right hstop, or_iff_right hsome]
    · push Not at hfail
      rw [statusFits_none hfail]
      have hgood := hnone.1 hfail
      exact ⟨fun _ => Or.inr (Or.inl hgood), fun _ => hgood.2⟩

/-- **A course whose status is right.** The code of the answer is returned where nothing is done
and where the server turned the request down, and a refused text is not noticed. -/
def Course.StatusKept (rpm : Rpm) : Course → Prop
  | refused => False
  | turnedDown _ => False
  | nothing code => code = 0
  | declined code => code = 0
  | transaction install update erase => TransactionKept rpm install update erase
  | _ => True

/-- What is returned for a course fits it exactly if it is one of these. -/
theorem Course.fits_iff {c : Course} (hdown : ∀ code, c = turnedDown code → code ∈ turnsDown)
    {rc : ℤ} (h : c.Returns rpm rc) : StatusFits (c.Fails rpm) rc ↔ c.StatusKept rpm := by
  cases c with
  | lost =>
    rw [show rc = Errors.networkingError.num from h]
    exact (statusFits_only _ _).trans ⟨fun _ => trivial, fun _ => ⟨.networkingError, by decide, rfl⟩⟩
  | refused =>
    rw [show rc = -1 from h]
    exact (statusFits_only _ _).trans ⟨fun hname => absurd hname (by unfold Names; decide), fun h => h.elim⟩
  | turnedDown code =>
    have hcode := hdown code rfl
    rw [show rc = code from h]
    refine (statusFits_only _ _).trans ⟨?_, fun h => h.elim⟩
    -- the codes of the server are the numbers of errors, but not of its own
    intro hname
    simp only [turnsDown, List.mem_cons, List.not_mem_nil, or_false] at hcode
    rcases hcode with rfl | rfl | rfl <;> exact absurd hname (by unfold Names; decide)
  | nothing code =>
    rw [show rc = code from h]
    exact statusFits_none (fun _ => id) code
  | waiting => exact h.elim
  | declined code =>
    rw [show rc = code from h]
    exact statusFits_none (fun _ => id) code
  | notDownloaded =>
    rw [show rc = Errors.downloadError.num from h]
    exact (statusFits_only _ _).trans ⟨fun _ => trivial, fun _ => ⟨.downloadError, by decide, rfl⟩⟩
  | downloaded =>
    rw [show rc = Errors.ok.num from h]
    exact (statusFits_none (fun _ => id) _).trans ⟨fun _ => trivial, fun _ => rfl⟩
  | transaction install update erase =>
    obtain ⟨r, hr, rfl⟩ := h
    exact transaction_fits_iff hr

/-- Only an answer with one of these codes turns a request down. -/
theorem course_turnedDown {d : Delivery} {code : ℤ} (h : course lr stdin d = .turnedDown code) :
    code ∈ turnsDown := by
  cases d with
  | lost => cases h
  | refused => cases h
  | document root =>
    simp only [course] at h
    split at h
    · rename_i hdown
      cases h
      exact hdown
    · exfalso
      split at h
      · cases h
      · unfold askedCourse agreedCourse at h
        split at h
        · cases h
        · cases h
        · split at h
          · cases h
          · split at h <;> cases h

/-- **When the status of a request says what happened.** -/
theorem status_named_iff (lr : Librepo) (rpm : Rpm) (stdin : List Char) (d : Delivery) :
    StatusNamed lr rpm stdin d ↔ (course lr stdin d).StatusKept rpm := by
  by_cases hd : d = .refused
  · subst hd
    constructor
    -- the reader may have held zeros
    · intro h
      have hzeros := (@ssdsAnswerProcess_refused lr rpm stdin).1
      rcases h .zeroed with h | ⟨a, ha, hfits⟩
      · rw [hzeros] at h
        cases h
      · rw [hzeros] at ha
        cases ha
        exact (@Course.fits_iff rpm .refused (fun _ h => by cases h) (-1) rfl).1 hfits
    · intro h
      exact h.elim
  · have hreturns := fun fresh => @ssdsAnswerProcess_returns lr rpm stdin fresh d hd
    have hdown := fun code => @course_turnedDown lr stdin d code
    constructor
    · intro h
      rcases hreturns .zeroed with ⟨-, hwait⟩ | ⟨a, ha, hrc⟩
      · rw [hwait]
        trivial
      · rcases h .zeroed with h | ⟨a', ha', hfits⟩
        · rw [ha] at h
          cases h
        · rw [ha] at ha'
          cases ha'
          exact (Course.fits_iff hdown hrc).1 hfits
    · intro hkept fresh
      rcases hreturns fresh with ⟨hblocked, -⟩ | ⟨a, ha, hrc⟩
      · exact Or.inl hblocked
      · exact Or.inr ⟨a, ha, (Course.fits_iff hdown hrc).2 hkept⟩

/-- An answer with nothing to do: the client returns `ANSWER_OK`, which is `RPM_ORDER_ERROR`. -/
theorem status_fails :
    ¬ StatusNamed plainLibrepo plainRpm [] (.document (some (.obj [("code", .int Code.answerOk.num),
      ("data", .obj [])]))) := by
  intro h
  rcases h .zeroed with h | ⟨a, ha, hok, -⟩
  · cases h
  · cases ha
    have hnum := hok fun _ => id
    exact absurd hnum (by decide)

end Rds
