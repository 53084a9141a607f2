import Rds.Proof.Session

/-!
# Messages that are not JSON

The fields of a new reader hold whatever its memory held. A function that takes a message
leaves them alone exactly if what it does is the same for any two contents of that
memory. For an accepted text all four do (`Rejects.of_accepted`). For a refused text
none does: the parse returns `EXIT_FAILURE`, which the callers take for success.
-/

namespace Rds

/-- **A refused message is rejected**: the parse says whether the text was accepted, and
none of the four functions that take a message does anything that depends on what the
reader's memory held. -/
structure Rejects (env : Env) (fuel : ℕ) (sv : Server) (lr : Librepo) (rpm : Rpm)
    (stdin : List Char) (b : List Byte) : Prop where
  parse : ∀ json, (ssdsJsRdParse env.load (some b) json).1 ≠ 0 ↔ env.load (cstr b) ≠ none
  serverProcess : ∀ r r', serverMessage env fuel (some b) r sv = serverMessage env fuel (some b) r' sv
  sendFile : ∀ r r', sendFileReply r (.ofBuffer env.load (some b)) =
    sendFileReply r' (.ofBuffer env.load (some b))
  checkRepo : ∀ r r', ssdsCheckRepo r (.ofBuffer env.load (some b)) =
    ssdsCheckRepo r' (.ofBuffer env.load (some b))
  answerProcess : ∀ r r', ssdsAnswerProcess lr rpm stdin r (.ofBuffer env.load (some b)) =
    ssdsAnswerProcess lr rpm stdin r' (.ofBuffer env.load (some b))

/-- A reader whose memory was zero. -/
def SsdsJsonRead.zeroed : SsdsJsonRead := ⟨.null, .null, .null⟩

/-- A reader whose memory was not. -/
def SsdsJsonRead.unset : SsdsJsonRead := ⟨.wild, .wild, .wild⟩

variable {env : Env} {fuel : ℕ} {sv : Server} {lr : Librepo} {rpm : Rpm} {stdin : List Char}
  {b : List Byte}

/-- What becomes of a buffer, by the parser's verdict. -/
theorem Delivery.ofBuffer_some {root : Option Json} (h : env.load (cstr b) = some root) :
    Delivery.ofBuffer env.load (some b) = .document root := by
  simp [ofBuffer, h]

theorem Delivery.ofBuffer_none (h : env.load (cstr b) = none) :
    Delivery.ofBuffer env.load (some b) = .refused := by
  simp [ofBuffer, h]

/-- **Accepted messages** are read from the document only. -/
theorem Rejects.of_accepted (h : env.load (cstr b) ≠ none) :
    Rejects env fuel sv lr rpm stdin b := by
  obtain ⟨root, hroot⟩ := Option.ne_none_iff_exists'.1 h
  refine ⟨fun json => ?_, fun r r' => ?_, fun r r' => ?_, fun r r' => ?_, fun r r' => ?_⟩
  · rw [ssdsJsRdParse_some hroot]
    simp [h]
  · rw [serverMessage_some, serverMessage_some, ssdsJsRdParse_some hroot, ssdsJsRdParse_some hroot]
  · rw [Delivery.ofBuffer_some hroot]; rfl
  · rw [Delivery.ofBuffer_some hroot]; rfl
  · rw [Delivery.ofBuffer_some hroot]; rfl

/-! ## Refused messages -/

/-- The server goes on with a refused message as with no code, or crashes. -/
theorem serverMessage_refused (h : env.load (cstr b) = none) :
    serverMessage env fuel (some b) .zeroed sv = .ok (.ok, sv) ∧
      serverMessage env fuel (some b) .unset sv = .error .crash := by
  rw [serverMessage_some, serverMessage_some, ssdsJsRdParse_none h, ssdsJsRdParse_none h]
  exact ⟨rfl, rfl⟩

theorem sendFileReply_refused :
    sendFileReply .zeroed .refused = .ok .networkingError ∧
      sendFileReply .unset .refused = .error .crash := ⟨rfl, rfl⟩

theorem ssdsCheckRepo_refused :
    ssdsCheckRepo .zeroed .refused = .ok (-1, none) ∧
      ssdsCheckRepo .unset .refused = .error .crash := ⟨rfl, rfl⟩

theorem ssdsAnswerProcess_refused :
    ssdsAnswerProcess lr rpm stdin .zeroed .refused = .ok ⟨-1, stdin, none⟩ ∧
      ssdsAnswerProcess lr rpm stdin .unset .refused = .error .crash := ⟨rfl, rfl⟩

/-- **Refused messages are examined** in every place that takes one, and the parse calls
them accepted. -/
theorem refused_examined (h : env.load (cstr b) = none) :
    (∀ json, (ssdsJsRdParse env.load (some b) json).1 ≠ 0) ∧
      serverMessage env fuel (some b) .zeroed sv ≠ serverMessage env fuel (some b) .unset sv ∧
      sendFileReply .zeroed (.ofBuffer env.load (some b)) ≠
        sendFileReply .unset (.ofBuffer env.load (some b)) ∧
      ssdsCheckRepo .zeroed (.ofBuffer env.load (some b)) ≠
        ssdsCheckRepo .unset (.ofBuffer env.load (some b)) ∧
      ssdsAnswerProcess lr rpm stdin .zeroed (.ofBuffer env.load (some b)) ≠
        ssdsAnswerProcess lr rpm stdin .unset (.ofBuffer env.load (some b)) := by
  have hserver := @serverMessage_refused env fuel sv b h
  have hanswer := @ssdsAnswerProcess_refused lr rpm stdin
  rw [Delivery.ofBuffer_none h]
  refine ⟨ssdsJsRdParse_ne_zero _ _, ?_, ?_, ?_, ?_⟩
  · rw [hserver.1, hserver.2]; simp
  · rw [sendFileReply_refused.1, sendFileReply_refused.2]; simp
  · rw [ssdsCheckRepo_refused.1, ssdsCheckRepo_refused.2]; simp
  · rw [hanswer.1, hanswer.2]; simp

/-- **When a message is rejected as it should be**: exactly when there is no reason to. For a
refused text no part of the rule holds. -/
theorem unparseable_rejected_iff (env : Env) (fuel : ℕ) (sv : Server) (lr : Librepo) (rpm : Rpm)
    (stdin : List Char) (b : List Byte) :
    Rejects env fuel sv lr rpm stdin b ↔ env.load (cstr b) ≠ none := by
  refine ⟨fun h hnone => ?_, Rejects.of_accepted⟩
  have hserver := (@refused_examined env fuel sv lr rpm stdin b hnone).2.1
  exact hserver (h.serverProcess _ _)

/-- **An unparseable message drives the switch**: the byte `{` alone. -/
theorem unparseable_examined :
    ¬ Rejects (plainEnv loadEmpty) 0 (plainServer ⟨[], false⟩) plainLibrepo plainRpm [] [123] := by
  intro h
  have hnone : (plainEnv loadEmpty).load (cstr [123]) = none := by decide
  have hserver := (@refused_examined _ 0 (plainServer ⟨[], false⟩) plainLibrepo plainRpm [] _ hnone).2.1
  exact hserver (h.serverProcess _ _)

end Rds
