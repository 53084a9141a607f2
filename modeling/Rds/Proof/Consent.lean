import Rds.Proof.Session

/-!
# No transaction without consent

* `ssdsDownload_ran`: `ssds_rpm_process` is called only after both downloads.
* `answerPackages_ran`: the packages are asked about before that.
* `transaction_consented`: what has to be the case for a transaction to run.
-/

namespace Rds

variable {lr : Librepo} {rpm : Rpm} {stdin : List Char} {json : SsdsJsonRead}

/-- The lists of an answer that are counted. -/
def countedLists : List String := ["install", "upgrade", "erase", "obsolete"]

/-- `rpmtsRun` was called. -/
def AnswerResult.RanTransaction (a : AnswerResult) : Prop :=
  ∃ d r, a.download = some d ∧ d.rpm = some r ∧ r.ran = true

/-- What the counts and the question say before anything is downloaded. -/
structure Agreed (stdin : List Char) (json : SsdsJsonRead) (a : AnswerResult) : Prop where
  something : ∃ name ∈ countedLists, ∃ n, ssdsJsRdGetCount json name = .ok n ∧ n ≠ 0
  yes : ∃ offerDownload, ssdsQuestion offerDownload stdin = .ok (.yes, a.stdin)

/-- **Consent**: the answer is none of those that end the client, it holds something to do, the
user said yes, and both downloads succeeded. -/
structure Consented (lr : Librepo) (stdin : List Char) (json : SsdsJsonRead) (a : AnswerResult) :
    Prop where
  code : ∃ rc, ssdsJsRdGetCode json = .ok rc ∧
    rc ∉ [Code.answerWarning.num, Code.answerError.num, Code.answerNoDep.num]
  agreed : Agreed stdin json a
  install : lr.succeeds 0 = true
  update : lr.succeeds 1 = true

/-- **Both downloads** come before `ssds_rpm_process`, and so does an answer other than
download-only. -/
theorem ssdsDownload_ran {answer : Answer} {install update erase : List (Option SsdsJsonPkg)}
    {d : DownloadResult} {r : RpmResult} (h : ssdsDownload lr rpm answer install update erase = .ok d)
    (hr : d.rpm = some r) :
    answer ≠ .download ∧ lr.succeeds 0 = true ∧ lr.succeeds 1 = true := by
  unfold ssdsDownload at h
  obtain ⟨installList, -, h⟩ := bind_eq_ok.1 h
  obtain ⟨updateList, -, h⟩ := bind_eq_ok.1 h
  cases h0 : lr.succeeds 0 with
  | false =>
    simp only [lrDownloadPackages, h0, Bool.not_false, if_true] at h
    cases h
    cases hr
  | true =>
    cases h1 : lr.succeeds 1 with
    | false =>
      simp only [lrDownloadPackages, h0, h1, Bool.not_true, Bool.not_false, Bool.false_eq_true,
        if_false, if_true] at h
      cases h
      cases hr
    | true =>
      refine ⟨?_, rfl, rfl⟩
      rintro rfl
      simp only [lrDownloadPackages, h0, h1, Bool.not_true, Bool.false_eq_true, if_false,
        if_true] at h
      cases h
      cases hr

/-- **The user said yes**, to something. -/
theorem answerPackages_ran {rc : ℤ} {a : AnswerResult}
    (h : answerPackages lr rpm stdin rc json = .ok a) (hran : a.RanTransaction) :
    Agreed stdin json a ∧ lr.succeeds 0 = true ∧ lr.succeeds 1 = true := by
  obtain ⟨d, r, hd, hr, -⟩ := hran
  unfold answerPackages at h
  obtain ⟨numInstall, hinstall, h⟩ := bind_eq_ok.1 h
  obtain ⟨numUpdate, hupdate, h⟩ := bind_eq_ok.1 h
  obtain ⟨numErase, herase, h⟩ := bind_eq_ok.1 h
  obtain ⟨numObsolete, hobsolete, h⟩ := bind_eq_ok.1 h
  split at h
  · cases h
    cases hd
  · rename_i hnone
    obtain ⟨installPkgs, -, h⟩ := bind_eq_ok.1 h
    obtain ⟨updatePkgs, -, h⟩ := bind_eq_ok.1 h
    obtain ⟨erasePkgs, -, h⟩ := bind_eq_ok.1 h
    obtain ⟨⟨ans, rest⟩, hans, h⟩ := bind_eq_ok.1 h
    simp only at h
    split at h
    · cases h
      cases hd
    · rename_i hno
      obtain ⟨d', hdownload, h⟩ := bind_eq_ok.1 h
      cases h
      cases hd
      obtain ⟨hnd, h0, h1⟩ := ssdsDownload_ran hdownload hr
      refine ⟨⟨?_, ?_⟩, h0, h1⟩
      · by_contra hall
        push Not at hall
        refine hnone ⟨?_, ?_, ?_, ?_⟩
        · exact hall "install" (by simp [countedLists]) _ hinstall
        · exact hall "upgrade" (by simp [countedLists]) _ hupdate
        · exact hall "erase" (by simp [countedLists]) _ herase
        · exact hall "obsolete" (by simp [countedLists]) _ hobsolete
      · cases ans with
        | yes => exact ⟨_, hans⟩
        | no => exact absurd rfl hno
        | download => exact absurd rfl hnd

/-- A message that was received is examined, whatever its parse returned. -/
theorem ssdsAnswerProcess_received {fresh : SsdsJsonRead} {d : Delivery} (hd : d ≠ .lost) :
    ssdsAnswerProcess lr rpm stdin fresh d =
      (ssdsJsRdGetCode (d.parse fresh).2).bind fun rc =>
        if rc = Code.answerWarning.num ∨ rc = Code.answerError.num then
          (ssdsJsRdGetMessage (d.parse fresh).2).bind fun _ =>
            .ok { rc, stdin, download := none }
        else if rc = Code.answerNoDep.num then .ok { rc, stdin, download := none }
        else answerPackages lr rpm stdin rc (d.parse fresh).2 := by
  cases d with
  | lost => exact absurd rfl hd
  | refused => rfl
  | document root => rfl

/-- **No system change without consent and complete downloads**: whatever the answer, the
keyboard and the downloads, `rpmtsRun` is reached only with consent. -/
theorem transaction_consented (lr : Librepo) (rpm : Rpm) (stdin : List Char) (fresh : SsdsJsonRead)
    (d : Delivery) (a : AnswerResult) (h : ssdsAnswerProcess lr rpm stdin fresh d = .ok a)
    (hran : a.RanTransaction) : Consented lr stdin (d.parse fresh).2 a := by
  -- every way out but one leaves the downloads alone
  have hdownload : a.download ≠ none := by
    obtain ⟨dl, r, hdl, -⟩ := hran
    rw [hdl]
    exact Option.some_ne_none dl
  have hd : d ≠ .lost := by
    rintro rfl
    cases h
    exact hdownload rfl
  rw [ssdsAnswerProcess_received hd] at h
  obtain ⟨rc, hrc, h⟩ := bind_eq_ok.1 h
  split at h
  · obtain ⟨msg, -, h⟩ := bind_eq_ok.1 h
    cases h
    exact absurd rfl hdownload
  · rename_i hwarn
    split at h
    · cases h
      exact absurd rfl hdownload
    · rename_i hnodep
      obtain ⟨hagreed, h0, h1⟩ := answerPackages_ran h hran
      refine ⟨⟨rc, hrc, ?_⟩, hagreed, h0, h1⟩
      push Not at hwarn
      simp only [List.mem_cons, List.not_mem_nil, or_false, not_or]
      exact ⟨hwarn.1, hwarn.2, hnodep⟩

/-- An answer that installs one package. -/
def installOne : Delivery :=
  .document (some (.obj [("code", .int Code.answerOk.num),
    ("data", .obj [("install", .arr [.obj [("pkg_name", .str "a")]])])]))

/-- It is installed once the user has typed `y`. -/
theorem transaction_consented_yes :
    ∃ a, AnswerResult.RanTransaction a ∧
      Consented plainLibrepo ['y'] (installOne.parse ⟨.wild, .wild, .wild⟩).2 a := by
  have hran : ∃ a, ssdsAnswerProcess plainLibrepo plainRpm ['y'] ⟨.wild, .wild, .wild⟩ installOne
      = .ok a ∧ a.RanTransaction := ⟨_, rfl, _, _, rfl, rfl, rfl⟩
  obtain ⟨a, ha, har⟩ := hran
  exact ⟨a, har, transaction_consented _ _ _ _ _ a ha har⟩

end Rds
