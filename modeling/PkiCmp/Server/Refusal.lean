/-
What the peer is told when the handler returns an error (`errorToStatusInfo` of
`server/errors.go` and the four builders it feeds).

* `PKIBody.statuses`: the statuses that a response reports;
* `Follows.reported`: an error of the handler is reported in the response;
* `refusal_reported_iff`: an error is reported as a failure exactly when the
  `server.Error` in its chain, if there is one, does not itself carry the status
  of a success, or when the protection of the response has failed.
-/
import PkiCmp.Server.Delivery

namespace PkiCmp

open Der Interact

/-- The statuses that a response reports: of its `CertResponse`s, of its revocations,
or of the error. -/
def PKIBody.statuses : PKIBody → List PKIStatusInfo
  | .ip m | .cp m | .kup m => m.response.map CertResponse.status
  | .rp c => c.status
  | .error c => [c.pkiStatusInfo]
  | _ => []

lemma statuses_certRepBody (certReqID : ℤ) (si : PKIStatusInfo) (cert : Option Certificate)
    (caCerts : List Certificate) (reqType : RequestType) :
    (Server.certRepBody certReqID si cert caCerts reqType).statuses = [si] := by
  cases reqType <;> rfl

namespace Server

/-! ### Reports -/

/-- The two statuses of a success. -/
def Successful (status : PKIStatus) : Prop :=
  status = StatusAccepted ∨ status = StatusGrantedWithMods

lemma statuses_protectionUnavailable (m : PKIMessage) :
    (protectionUnavailable m).body.statuses =
      [{ status := StatusRejection, failInfo := FailSystemFailure,
         statusString := [str "response protection unavailable"] }] := rfl

section

variable {srv : Server} {q : PKIMessage} {s : SenderIdentity} {credID : Bytes} {tr : History}

/-- A status is reported as a failure when it is one, or when the response is replaced by the
error about its protection. -/
lemma Answers.failure_iff {m : PKIMessage} {body : PKIBody} {si : PKIStatusInfo}
    (h : srv.Answers s tr q body m) (hsi : body.statuses = [si]) :
    (∃ si', m.body.statuses = [si']) ∧ ((∀ si' ∈ m.body.statuses, si'.asError ≠ none) ↔
      ¬ Successful si.status ∨ srv.Unprotected s tr) := by
  by_cases hfailed : srv.Unprotected s tr
  · obtain ⟨m', rfl⟩ := h.replaced hfailed
    refine ⟨⟨_, statuses_protectionUnavailable m'⟩, fun _ => .inr hfailed, fun _ => ?_⟩
    rw [statuses_protectionUnavailable, List.forall_mem_singleton, ne_eq,
      PKIStatusInfo.asError_eq_none_iff]
    decide
  · have hone : m.body.statuses = [si] := by rw [h.body hfailed, hsi]
    refine ⟨⟨si, hone⟩, ?_⟩
    rw [hone, List.forall_mem_singleton, ne_eq, PKIStatusInfo.asError_eq_none_iff,
      or_iff_left hfailed]
    rfl

/-- **The handler's errors are told**: the response reports the error of the handler. -/
lemma Follows.reported {r : HandlerResult} {err : GoError} {resp : Option PKIMessage}
    (h : srv.Follows q s credID r tr resp) (herr : r.err = some err) :
    ∃ m body, resp = some m ∧ srv.Answers s tr q body m ∧
      body.statuses = [errorToStatusInfo err] := by
  have hnone : r.err ≠ none := by simp [herr]
  cases h with
  | asked _ hset =>
    cases hset with
    | refused he hbody _ ha =>
      obtain rfl := Option.some.inj (he.symm.trans herr)
      refine ⟨_, _, rfl, ha, ?_⟩
      obtain rfl | rfl := hbody
      · rfl
      · exact statuses_certRepBody _ _ _ _ _
    | dropped he => exact absurd he hnone
    | waiting he => exact absurd he hnone
    | bare he => exact absurd he hnone
    | implicit he => exact absurd he hnone
    | issued he => exact absurd he hnone
  | told _ hbody ha =>
    refine ⟨_, _, rfl, ha, ?_⟩
    obtain rfl | rfl := hbody err herr <;> rfl

end

/-- **A refusal is not a success**: whatever error the handler returns for a message,
the response has one status, and it is a failure exactly when the chain of the error
has no `server.Error` with the status of a success, or when the response had to be protected
and nothing was sealed after the call. -/
theorem refusal_reported_iff (srv : Server) (hh : srv.handler = .external) (msg : PKIMessage)
    (tr1 tr2 : History) (resp : Option PKIMessage) (ctx : Ctx) (req : PKIMessage)
    (sender : SenderIdentity) (r : HandlerResult) (err : GoError)
    (hs : Prog.Steps (srv.processMessage msg) (tr1 ++ ⟨.handleCMP ctx req sender, r⟩ :: tr2)
      (.ret resp)) (hr : r.err = some err) :
    ∃ m, resp = some m ∧ (∃ si, m.body.statuses = [si]) ∧
      ((∀ si ∈ m.body.statuses, si.asError ≠ none) ↔
        (∀ e, err.asServerError = some e → ¬ Successful e.status) ∨
          srv.Unprotected sender tr2) := by
  obtain ⟨-, credID, -, hfollows⟩ := follows_of_call hh hs
  obtain ⟨m, body, rfl, ha, hstatuses⟩ := hfollows.reported hr
  obtain ⟨hone, hiff⟩ := ha.failure_iff hstatuses
  refine ⟨m, rfl, hone, hiff.trans (or_congr_left ?_)⟩
  unfold errorToStatusInfo
  cases herr : err.asServerError with
  | none => simp [Successful, StatusRejection, StatusAccepted, StatusGrantedWithMods]
  | some e => simp

/-! ### Concrete runs -/

/-- The event is a call of the handler that returned the error. -/
def returned (err : GoError) : ServerEvent → Bool
  | ⟨.handleCMP .., r⟩ => r.err = some err
  | _ => false

lemma exists_call_of_returned {err : GoError} {tr : History}
    (h : tr.any (returned err)) :
    ∃ ctx req sender r, ⟨.handleCMP ctx req sender, r⟩ ∈ tr ∧ r.err = some err := by
  obtain ⟨⟨o, r⟩, he, hret⟩ := List.any_eq_true.mp h
  cases o with
  | handleCMP ctx req sender => exact ⟨ctx, req, sender, r, he, of_decide_eq_true hret⟩
  | _ => cases hret

/-- A revocation request. -/
def sampleRevocation : PKIMessage := sampleReceived (.rr [{ certDetails := {} }]) []

/-- The revocation request is processed by a server whose handler returns the error. -/
def refuse (err : GoError) : Option (History × Option PKIMessage) :=
  (sampleServer.processMessage sampleRevocation).play fun o =>
    (exec o { sampleOracle 1 with result := .refuse err } {}).map Prod.fst

/-- What the sample server answers when its handler returns the error. -/
lemma exists_steps_of_refuse (err : GoError) (statuses : List PKIStatusInfo)
    (h : (refuse err).any (fun (tr, resp) => tr.any (returned err) &&
      resp.any fun m => m.body.statuses = statuses) = true) :
    ∃ tr m ctx req sender r,
      Prog.Steps (sampleServer.processMessage sampleRevocation) tr (.ret (some m)) ∧
      ⟨.handleCMP ctx req sender, r⟩ ∈ tr ∧ r.err = some err ∧ m.body.statuses = statuses := by
  obtain ⟨⟨tr, resp⟩, hplay, h⟩ := (Option.any_eq_true _ _).mp h
  obtain ⟨hret, hresp⟩ := Bool.and_eq_true_iff.mp h
  obtain ⟨m, rfl, hm⟩ := (Option.any_eq_true _ _).mp hresp
  obtain ⟨ctx, req, sender, r, hcall, hr⟩ := exists_call_of_returned hret
  rw [refuse] at hplay
  exact ⟨tr, m, ctx, req, sender, r, Prog.steps_of_play hplay, hcall, hr, of_decide_eq_true hm⟩

/-- A `server.Error` without a status reports a revocation that was refused as
accepted. -/
theorem refusal_reported_as_accepted :
    ∃ tr m ctx req sender r,
      Prog.Steps (sampleServer.processMessage sampleRevocation) tr (.ret (some m)) ∧
      ⟨.handleCMP ctx req sender, r⟩ ∈ tr ∧ r.err = some (.server ⟨0, FailNotAuthorized, []⟩) ∧
      m.body.statuses = [{ status := StatusAccepted, failInfo := FailNotAuthorized }] :=
  exists_steps_of_refuse _ _ (by decide +kernel)

/-- An error of another kind is reported as a failure. -/
theorem refusal_reported_as_failure :
    ∃ tr m, Prog.Steps (sampleServer.processMessage sampleRevocation) tr (.ret (some m)) ∧
      ∀ si ∈ m.body.statuses, si.asError ≠ none := by
  obtain ⟨tr, m, ctx, req, sender, r, hs, hcall, hr, -⟩ := exists_steps_of_refuse
    (.wrapped (str "revoke") (.library (str "database is locked")))
    [{ status := StatusRejection, failInfo := FailSystemFailure }] (by decide +kernel)
  obtain ⟨tr1, tr2, rfl⟩ := List.append_of_mem hcall
  obtain ⟨_, ⟨⟩, -, hiff⟩ := refusal_reported_iff sampleServer rfl sampleRevocation tr1 tr2 _ ctx
    req sender r _ hs hr
  exact ⟨_, m, hs, hiff.mpr (.inl fun e he => absurd he (by simp [GoError.asServerError]))⟩

end Server

end PkiCmp
