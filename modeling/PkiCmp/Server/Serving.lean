/-
What a message does once it is handed over (`server/response.go`,
`server/confirm_poll.go`, the server's part of `server/revocation.go`).

* `CertAnswer`: a certificate response, with the generalInfo it is given;
* `Concludes`: what the server makes of the result of the handler for a certificate
  request or a poll;
* `Served`: everything a message that was handed over can do;
* `served_of_steps`: every trace of `dispatch` is one of these;
* `served_of_mem`: where the trace of a message ends with one of them.
-/
import PkiCmp.Server.Dispatch

namespace PkiCmp

open Der Interact

/-- The `CertResponse`s of an ip, cp or kup. -/
def PKIBody.certResponses : PKIBody → List CertResponse
  | .ip m | .cp m | .kup m => m.response
  | _ => []

/-- A certificate as a response carries it. -/
def Certificate.keyPair (cert : Certificate) : CertifiedKeyPair :=
  { certOrEncCert := .certificate { raw := cert.raw } }

namespace Server

/-! ### Certificate responses -/

lemma certResponses_certRepBody (certReqID : ℤ) (si : PKIStatusInfo) (cert : Option Certificate)
    (caCerts : List Certificate) (reqType : RequestType) :
    (certRepBody certReqID si cert caCerts reqType).certResponses =
      [{ certReqID, status := si,
         certifiedKeyPair :=
          (if si.status = StatusAccepted then cert else none).map Certificate.keyPair }] := by
  cases reqType <;> rfl

/-- The body delivers no certificate. -/
def WithoutCertificate (body : PKIBody) : Prop :=
  ∀ cr ∈ body.certResponses, cr.certifiedKeyPair = none

/-- The response, if there is one, delivers no certificate. -/
def EmptyHanded (resp : Option PKIMessage) : Prop := ∀ p, resp = some p → WithoutCertificate p.body

lemma withoutCertificate_certRepBody (certReqID : ℤ) (si : PKIStatusInfo)
    (caCerts : List Certificate) (reqType : RequestType) :
    WithoutCertificate (certRepBody certReqID si none caCerts reqType) := by
  rw [WithoutCertificate, certResponses_certRepBody, ite_self]
  exact List.forall_mem_singleton.mpr rfl

lemma IsRefusal.emptyHanded {resp : Option PKIMessage} (h : IsRefusal resp) : EmptyHanded resp := by
  obtain ⟨p, c, rfl, hbody⟩ := h
  rintro _ ⟨⟩
  rw [hbody]
  exact List.forall_mem_nil _

lemma isRefusal_protectionUnavailable (p : PKIMessage) :
    IsRefusal (some (protectionUnavailable p)) := ⟨_, _, rfl, rfl⟩

lemma Answers.emptyHanded {srv : Server} {s : Option SenderIdentity} {tr : History}
    {req p : PKIMessage} {body : PKIBody} (h : srv.Answers s tr req body p)
    (hbody : WithoutCertificate body) : EmptyHanded (some p) := by
  obtain hb | ⟨p', rfl⟩ := h.cases
  · rintro _ ⟨⟩
    rw [hb]
    exact hbody
  · exact (isRefusal_protectionUnavailable p').emptyHanded

/-- A certificate response to `req`, with the operations of building it. -/
structure CertAnswer (srv : Server) (sender : Option SenderIdentity) (req : PKIMessage)
    (certReqID : ℤ) (si : PKIStatusInfo) (cert : Option Certificate) (caCerts : List Certificate)
    (reqType : RequestType) (tr : History) (resp : PKIMessage) : Prop where
  within : Within Effect.Building tr
  answers : srv.Answers sender tr req (certRepBody certReqID si cert caCerts reqType) resp
  granted : srv.grants req → resp.header.generalInfo = [implicitConfirmInfoValue]
  deadline : ¬ srv.grants req → resp.header.generalInfo = [] ∨
    0 < srv.cfg.confirmWait ∧ si.status = StatusAccepted ∧ ∃ now, ⟨.now, now⟩ ∈ tr ∧
      resp.header.generalInfo = [confirmWaitTimeInfoValue now srv.cfg.confirmWait]

/-- The two ways to ask the client to wait. -/
def AsksToWait (certReqID : ℤ) (reqType : RequestType) (body : PKIBody) : Prop :=
  body = certRepBody certReqID { status := StatusWaiting } none [] reqType ∨
    ∃ item : PollRepItem, item.certReqID = certReqID ∧ body = .pollRep [item]

/-- The two ways to refuse what was asked for. -/
def Refuses (certReqID : ℤ) (reqType : RequestType) (err : GoError) (body : PKIBody) : Prop :=
  body = .error { pkiStatusInfo := errorToStatusInfo err } ∨
    body = certRepBody certReqID (errorToStatusInfo err) none [] reqType

/-- The answers to a revocation request that the handler was asked about. -/
def AnswersRevocation (r : HandlerResult) (body : PKIBody) : Prop :=
  (∃ err, r.err = some err ∧ body = .error { pkiStatusInfo := errorToStatusInfo err }) ∨
    ∃ si, (∀ err, r.err = some err → si = errorToStatusInfo err) ∧ body = .rp { status := [si] }

/-- The response built before the tracker was asked is sent when the tracker
agrees, and an error otherwise. -/
def Agreed (ok : Bool) (built : PKIMessage) (tr : History) (resp : Option PKIMessage) : Prop :=
  if ok then tr = [] ∧ resp = some built else Within Effect.Building tr ∧ IsRefusal resp

/-! ### After the handler -/

/-- What the server makes of the result of the handler, for a certificate request or
a poll. -/
inductive Concludes (srv : Server) (q : PKIMessage) (s : SenderIdentity) (credID : Bytes)
    (reqType : RequestType) (certReqID : ℤ) (txn : Option ℕ) (r : HandlerResult) :
    History → Option PKIMessage → Prop
  | refused {err : GoError} {body : PKIBody} {tr : History} {resp : PKIMessage}
      (herr : r.err = some err) (hbody : Refuses certReqID reqType err body)
      (htr : Within Effect.Building tr) (ha : srv.Answers s tr q body resp) :
      Concludes srv q s credID reqType certReqID txn r tr (some resp)
  | dropped (herr : r.err = none) (hr : r.response = none) :
      Concludes srv q s credID reqType certReqID txn r [] none
  | waiting {h : Response} {w : WaitingResponse} {body : PKIBody} {tr0 tr1 tr2 : History}
      {built : PKIMessage} {lastPollTime : Time} {ok : Bool} {resp : Option PKIMessage}
      (herr : r.err = none) (hr : r.response = some h) (hw : h.waiting = some w)
      (hbody : AsksToWait certReqID reqType body) (h0 : Within Effect.Building tr0)
      (ha : srv.Answers s tr0 q body built)
      (h1 : Prog.Steps (srv.tracker.setPending credID q.header.transactionID reqType w.pollRef
        built.header.senderNonce w.checkAfter lastPollTime) tr1 (.ret ok))
      (h2 : Agreed ok built tr2 resp) :
      Concludes srv q s credID reqType certReqID txn r (tr0 ++ (tr1 ++ tr2)) resp
  | bare {h : Response} {tr : History} {resp : PKIMessage}
      (herr : r.err = none) (hr : r.response = some h) (hw : h.waiting = none)
      (hc : h.certificate = none)
      (ha : srv.CertAnswer s q certReqID { status := StatusAccepted } none h.caCerts reqType tr
        resp) :
      Concludes srv q s credID reqType certReqID txn r tr (some resp)
  | implicit {h : Response} {cert : Certificate} {tr0 tr1 tr2 : History} {resp : PKIMessage}
      (herr : r.err = none) (hr : r.response = some h) (hw : h.waiting = none)
      (hc : h.certificate = some cert) (hgrants : srv.grants q)
      (ha : srv.CertAnswer s q certReqID { status := StatusAccepted } cert h.caCerts reqType tr0
        resp)
      (h1 : Prog.Steps (srv.tracker.setCompleted credID q.header.transactionID) tr1 (.ret ()))
      (h2 : if srv.cfg.confirmer then
          ∃ x, tr2 = [⟨.confirmCertificate cert .implicit h.issueRef txn, x⟩] else tr2 = []) :
      Concludes srv q s credID reqType certReqID txn r (tr0 ++ (tr1 ++ tr2)) (some resp)
  | issued {h : Response} {cert : Certificate} {tr0 tr1 tr2 : History} {built : PKIMessage}
      {ok : Bool} {resp : Option PKIMessage}
      (herr : r.err = none) (hr : r.response = some h) (hw : h.waiting = none)
      (hc : h.certificate = some cert) (hgrants : ¬ srv.grants q)
      (ha : srv.CertAnswer s q certReqID { status := StatusAccepted } cert h.caCerts reqType tr0
        built)
      (h1 : Prog.Steps (srv.tracker.setIssued credID q.header.transactionID reqType certReqID cert
        h.issueRef built.header.senderNonce q.header.senderNonce s.protectionParams
        q.header.protectionAlg) tr1 (.ret ok))
      (h2 : Agreed ok built tr2 resp) :
      Concludes srv q s credID reqType certReqID txn r (tr0 ++ (tr1 ++ tr2)) resp

/-- Everything that a message which was handed over can do. -/
inductive Served (srv : Server) (q : PKIMessage) (s : SenderIdentity) (credID : Bytes) :
    History → Option PKIMessage → Prop
  /-- a follow-up message that is refused -/
  | refused {tr : History} {resp : Option PKIMessage} (hq : ¬ isInitialRequest q.body.type)
      (htr : Within Effect.Looking tr) (hresp : IsRefusal resp) : Served srv q s credID tr resp
  /-- an error message -/
  | acknowledged {tr : History} {resp : PKIMessage} (hq : q.body.type = BodyTypeError)
      (htr : Within Effect.Building tr) (ha : srv.Answers s tr q .pkiConf resp) :
      Served srv q s credID tr (some resp)
  /-- a certificate request that finds its own transaction pending -/
  | busy {c : Cell} {tr : History} {resp : Option PKIMessage} (hq : isCertRequest q.body.type)
      (hc : c.entry.state = .pending) (htr : Within Effect.Building tr) (hresp : IsRefusal resp) :
      Served srv q s credID
        (⟨.load .getPending (srv.tracker.makeKey credID q.header.transactionID), some c⟩ :: tr) resp
  | request {found : Option Cell} {r : HandlerResult} {tr : History} {resp : Option PKIMessage}
      (hq : isCertRequest q.body.type) (hfound : ∀ c, found = some c → c.entry.state ≠ .pending)
      (h : srv.Concludes q s credID (requestTypeFromBody q.body.type) (srv.certReqIDFromRequest q)
        (found.map Cell.txn) r tr resp) :
      Served srv q s credID
        (⟨.load .getPending (srv.tracker.makeKey credID q.header.transactionID), found⟩ ::
          ⟨.handleCMP srv.baseCtx q s, r⟩ :: tr) resp
  | poll {pollReq : PollReqContent} {c : Cell} {r : HandlerResult} {tr0 tr : History}
      {resp : Option PKIMessage} (hq : q.body.type = BodyTypePollReq)
      (hget : q.body.getPollReq = .ok pollReq) (hc : c.entry.state = .pending)
      (hnonce : q.header.recipNonce ≠ [] ∧ q.header.recipNonce = c.entry.senderNonce)
      (h0 : Within Effect.Building tr0)
      (h : srv.Concludes q s credID c.entry.reqType (pollReq.head?.getD 0) (some c.txn) r tr resp) :
      Served srv q s credID
        (⟨.load .getPending (srv.tracker.makeKey credID q.header.transactionID), some c⟩ ::
          (tr0 ++ ⟨.handleCMP { srv.baseCtx with pollRef := some c.entry.pollRef } q s, r⟩ :: tr))
        resp
  /-- a certConf for an entry without a certificate -/
  | lost {c : Cell} (hq : q.body.type = BodyTypeCertConf) :
      Served srv q s credID
        [⟨.load .getIssued (srv.tracker.makeKey credID q.header.transactionID), some c⟩] none
  | confirm {c : Cell} {r : HandlerResult} {tr1 tr2 : History} {body : PKIBody} {resp : PKIMessage}
      (hq : q.body.type = BodyTypeCertConf) (hc : c.entry.state = .issued)
      (hnonce : q.header.recipNonce ≠ [] ∧ q.header.recipNonce = c.entry.issuedSenderNonce)
      (h1 : match r.err with
        | some err => tr1 = [] ∧ body = .error { pkiStatusInfo := errorToStatusInfo err }
        | none => body = .pkiConf ∧
            Prog.Steps (srv.tracker.delete credID q.header.transactionID c.ptr) tr1 (.ret ()))
      (h2 : Within Effect.Building tr2) (ha : srv.Answers s tr2 q body resp) :
      Served srv q s credID
        (⟨.load .getIssued (srv.tracker.makeKey credID q.header.transactionID), some c⟩ ::
          ⟨.handleCMP { srv.baseCtx with issued := some ⟨c.entry.cert, c.entry.issueRef, c.txn⟩ } q
            s, r⟩ :: (tr1 ++ tr2)) (some resp)
  | revoke {r : HandlerResult} {tr0 tr1 : History} {body : PKIBody} {resp : PKIMessage}
      (hq : q.body.type = BodyTypeRR) (h0 : Within Effect.Building tr0)
      (hbody : AnswersRevocation r body) (ha : srv.Answers s tr0 q body resp)
      (h1 : Prog.Steps (srv.tracker.setCompleted credID q.header.transactionID) tr1 (.ret ())) :
      Served srv q s credID (⟨.handleCMP srv.baseCtx q s, r⟩ :: (tr0 ++ tr1)) (some resp)

section

variable {srv : Server} {q : PKIMessage} {s : SenderIdentity} {credID : Bytes} {tr : History}
variable {resp : Option PKIMessage}

/-! ### Responses -/

lemma buildCertRep_steps {certReqID : ℤ} {si : PKIStatusInfo} {cert : Option Certificate}
    {caCerts : List Certificate} {sender : Option SenderIdentity} {reqType : RequestType}
    {params : Option MACCredentialOption} {built : PKIMessage}
    (hs : Prog.Steps (srv.buildCertRepResponseForType q certReqID si cert caCerts sender reqType
      params) tr (.ret built)) :
    srv.CertAnswer sender q certReqID si cert caCerts reqType tr built := by
  have hwithin := Within.of_only (srv.buildCertRep_only ..) hs
  have hanswers := answers_of_steps (srv.certRepInfo_only q si) hs
  obtain ⟨tr1, tr2, info, rfl, h1, h2⟩ := hs.of_bind
  have hinfo := (buildResponseInternal_steps h2).2
  unfold certRepInfo at h1
  split_ifs at h1 with hgrants hwait
  · obtain ⟨rfl, ⟨⟩⟩ := h1.of_ret
    exact ⟨hwithin, hanswers, fun _ => hinfo, fun hn => absurd hgrants hn⟩
  · obtain ⟨now, tr', rfl, hk⟩ := h1.of_call
    obtain ⟨rfl, ⟨⟩⟩ := hk.of_ret
    simp only [Bool.and_eq_true, decide_eq_true_eq] at hwait
    exact ⟨hwithin, hanswers, fun hg => absurd hg hgrants, fun _ =>
      .inr ⟨hwait.1, hwait.2, now, by simp, hinfo⟩⟩
  · obtain ⟨rfl, ⟨⟩⟩ := h1.of_ret
    exact ⟨hwithin, hanswers, fun hg => absurd hg hgrants, fun _ => .inl hinfo⟩

/-- What follows once the tracker was asked to replace the entry. -/
lemma agreed_of_steps {ok : Bool} {built : PKIMessage} {failInfo : PKIFailureInfo}
    (hs : Prog.Steps (if ok then pure (some built) else srv.reject q s failInfo []) tr
      (.ret resp)) :
    Agreed ok built tr resp := by
  cases ok with
  | true =>
    obtain ⟨rfl, ⟨⟩⟩ := hs.of_ret
    exact ⟨rfl, rfl⟩
  | false => exact reject_steps hs

/-- Operations on an entry seal nothing. -/
lemma not_sealed_of_onEntry (h : Within Effect.OnEntry tr) : ¬ Sealed tr := by
  rintro ⟨e, hmem, hsealed⟩
  obtain ⟨o, x⟩ := e
  have ho := h _ hmem
  cases o with
  | «seal» => exact ho
  | _ => cases hsealed

/-! ### After the handler -/

section Concludes

variable {reqType : RequestType} {certReqID : ℤ} {txn : Option ℕ} {r : HandlerResult}

lemma answerError_concludes {err : GoError} (herr : r.err = some err)
    (hs : Prog.Steps (srv.answerError q s (errorToStatusInfo err)) tr (.ret resp)) :
    srv.Concludes q s credID reqType certReqID txn r tr resp := by
  have hwithin := Within.of_only (srv.answerError_only ..) hs
  obtain ⟨tr1, tr2, built, rfl, h1, h2⟩ := hs.of_bind
  obtain ⟨rfl, ⟨⟩⟩ := h2.of_ret
  rw [List.append_nil] at hwithin ⊢
  exact .refused herr (.inl rfl) hwithin (buildResponseInternal_steps h1).1

lemma answerRefused_concludes {err : GoError} (herr : r.err = some err)
    (hs : Prog.Steps (srv.answerRefused q s certReqID reqType err) tr (.ret resp)) :
    srv.Concludes q s credID reqType certReqID txn r tr resp := by
  unfold answerRefused at hs
  simp only at hs
  split_ifs at hs
  · exact answerError_concludes herr hs
  · exact answerError_concludes herr hs
  · obtain ⟨tr1, tr2, built, rfl, h1, h2⟩ := hs.of_bind
    obtain ⟨rfl, ⟨⟩⟩ := h2.of_ret
    rw [List.append_nil]
    have ha := buildCertRep_steps h1
    exact .refused herr (.inr rfl) ha.within ha.answers

variable {h : Response} (herr : r.err = none) (hr : r.response = some h)
include herr hr

lemma answerWaiting_concludes {w : WaitingResponse} (hw : h.waiting = some w)
    (hs : Prog.Steps (srv.answerWaiting q s credID certReqID reqType w) tr (.ret resp)) :
    srv.Concludes q s credID reqType certReqID txn r tr resp := by
  obtain ⟨tr0, tr', built, rfl, h0, hs⟩ := hs.of_bind
  obtain ⟨tr1, tr2, ok, rfl, h1, h2⟩ := hs.of_bind
  have ha := buildCertRep_steps h0
  exact .waiting herr hr hw (.inl rfl) ha.within ha.answers h1 (agreed_of_steps h2)

lemma answerStillWaiting_concludes {w : WaitingResponse} (hw : h.waiting = some w)
    (hs : Prog.Steps (srv.answerStillWaiting q s credID certReqID reqType w) tr (.ret resp)) :
    srv.Concludes q s credID reqType certReqID txn r tr resp := by
  obtain ⟨tr0, tr', built, rfl, h0, hs⟩ := hs.of_bind
  obtain ⟨now, tr'', rfl, hk⟩ := hs.of_call
  obtain ⟨tr1, tr2, ok, rfl, h1, h2⟩ := hk.of_bind
  have hwithin := Within.of_only (srv.buildResponse_only ..) h0
  have ha : srv.Answers s (tr0 ++ [⟨.now, now⟩]) q _ built :=
    (buildResponseInternal_steps h0).1.congr (by simp [isSealed])
  have hconcludes : srv.Concludes q s credID reqType certReqID txn r
      ((tr0 ++ [⟨.now, now⟩]) ++ (tr1 ++ tr2)) resp :=
    .waiting herr hr hw (.inr ⟨_, rfl, rfl⟩) (hwithin.append (.cons trivial .nil)) ha h1
      (agreed_of_steps h2)
  rwa [List.append_assoc, List.singleton_append] at hconcludes

lemma settleIssued_concludes {built : PKIMessage} {tr0 : History} (hw : h.waiting = none)
    (ha : srv.CertAnswer s q certReqID { status := StatusAccepted } h.certificate h.caCerts reqType
      tr0 built)
    (hs : Prog.Steps (srv.settleIssued q s credID reqType certReqID h built txn) tr (.ret resp)) :
    srv.Concludes q s credID reqType certReqID txn r (tr0 ++ tr) resp := by
  unfold settleIssued at hs
  split at hs
  · next hc =>
    obtain ⟨rfl, ⟨⟩⟩ := hs.of_ret
    rw [List.append_nil]
    exact .bare herr hr hw hc (hc ▸ ha)
  · next cert hc =>
    rw [hc] at ha
    split_ifs at hs with hgrants hconfirmer
    · obtain ⟨tr1, tr2, ⟨⟩, rfl, h1, h2⟩ := hs.of_bind
      obtain ⟨x, tr', rfl, hk⟩ := h2.of_call
      obtain ⟨rfl, ⟨⟩⟩ := hk.of_ret
      exact .implicit herr hr hw hc hgrants ha h1 (by rw [if_pos hconfirmer]; exact ⟨x, rfl⟩)
    · obtain ⟨tr1, tr2, ⟨⟩, rfl, h1, h2⟩ := hs.of_bind
      obtain ⟨rfl, ⟨⟩⟩ := h2.of_ret
      exact .implicit herr hr hw hc hgrants ha h1 (by rw [if_neg hconfirmer])
    · obtain ⟨tr1, tr2, ok, rfl, h1, h2⟩ := hs.of_bind
      exact .issued herr hr hw hc hgrants ha h1 (agreed_of_steps h2)

end Concludes

lemma Agreed.serving {ok : Bool} {built : PKIMessage} (h : Agreed ok built tr resp) :
    Within Effect.Serving tr := by
  cases ok with
  | true =>
    obtain ⟨rfl, -⟩ := h
    exact .nil
  | false => exact h.1.mono fun _ => Effect.Building.serving

/-- After the handler only the entry of the transaction is touched. -/
lemma Concludes.serving {reqType : RequestType} {certReqID : ℤ} {txn : Option ℕ} {r : HandlerResult}
    (h : srv.Concludes q s credID reqType certReqID txn r tr resp) : Within Effect.Serving tr := by
  have hbuilding : ∀ {tr : History}, Within Effect.Building tr → Within Effect.Serving tr :=
    fun h => h.mono fun _ => Effect.Building.serving
  have hentry : ∀ {tr : History}, Within Effect.OnEntry tr → Within Effect.Serving tr :=
    fun h => h.mono fun _ => Effect.OnEntry.serving
  cases h with
  | refused _ _ htr _ => exact hbuilding htr
  | dropped _ _ => exact .nil
  | waiting _ _ _ _ h0 _ h1 h2 =>
    exact (hbuilding h0).append
      ((hentry (.of_only (TrackerConfig.setPending_only ..) h1)).append h2.serving)
  | bare _ _ _ _ ha => exact hbuilding ha.within
  | implicit _ _ _ _ _ ha h1 h2 =>
    refine (hbuilding ha.within).append
      ((hentry (.of_only (TrackerConfig.setCompleted_only ..) h1)).append ?_)
    split_ifs at h2
    · obtain ⟨x, rfl⟩ := h2
      exact .cons trivial .nil
    · rw [h2]
      exact .nil
  | issued _ _ _ _ _ ha h1 h2 =>
    exact (hbuilding ha.within).append
      ((hentry (.of_only (TrackerConfig.setIssued_only ..) h1)).append h2.serving)

lemma Concludes.no_call {reqType : RequestType} {certReqID : ℤ} {txn : Option ℕ}
    {r r' : HandlerResult} (h : srv.Concludes q s credID reqType certReqID txn r' tr resp)
    {ctx : Ctx} {q' : PKIMessage} {s' : SenderIdentity} : ⟨.handleCMP ctx q' s', r⟩ ∉ tr :=
  h.serving.no_call fun _ _ _ h => by rcases h with h | h <;> exact h

/-! ### Messages that were handed over -/

section Served

variable (hh : srv.handler = .external) (hcred : s.credentialID srv.crypto = .ok credID)
include hh hcred

lemma handleCertRequest_served (hq : isCertRequest q.body.type)
    (hs : Prog.Steps (srv.handleCertRequest srv.baseCtx q s) tr (.ret resp)) :
    srv.Served q s credID tr resp := by
  unfold handleCertRequest at hs
  rw [hcred, hh] at hs
  obtain ⟨found, tr', rfl, hk⟩ := hs.of_call
  split_ifs at hk with hfound
  · obtain ⟨hw, hresp⟩ := reject_steps hk
    obtain ⟨c, rfl, hc⟩ := (Option.any_eq_true _ _).mp hfound
    exact .busy hq (of_decide_eq_true hc) hw hresp
  · obtain ⟨r, tr'', rfl, hf⟩ := hk.of_call
    refine .request hq (fun c hc hst => hfound ?_) ?_
    · rw [hc]
      exact decide_eq_true hst
    · split at hf
      · next err herr => exact answerRefused_concludes herr hf
      · next herr hr =>
        obtain ⟨rfl, ⟨⟩⟩ := hf.of_ret
        exact .dropped herr hr
      · next h herr hr =>
        split at hf
        · next w hw => exact answerWaiting_concludes herr hr hw hf
        · next hw =>
          obtain ⟨tr0, tr1, built, rfl, h0, h1⟩ := hf.of_bind
          exact settleIssued_concludes herr hr hw (buildCertRep_steps h0) h1

omit hcred in
lemma resumePending_served {pollReq : PollReqContent} {c : Cell} {tr0 : History}
    (hq : q.body.type = BodyTypePollReq) (hget : q.body.getPollReq = .ok pollReq)
    (hc : c.entry.state = .pending)
    (hnonce : q.header.recipNonce ≠ [] ∧ q.header.recipNonce = c.entry.senderNonce)
    (h0 : Within Effect.Building tr0)
    (hs : Prog.Steps (srv.resumePending srv.baseCtx q s credID (pollReq.head?.getD 0) c) tr
      (.ret resp)) :
    srv.Served q s credID
      (⟨.load .getPending (srv.tracker.makeKey credID q.header.transactionID), some c⟩ ::
        (tr0 ++ tr)) resp := by
  unfold resumePending at hs
  rw [hh] at hs
  obtain ⟨r, tr', rfl, hf⟩ := hs.of_call
  refine .poll hq hget hc hnonce h0 ?_
  split at hf
  · next err herr => exact answerError_concludes herr hf
  · next herr hr =>
    obtain ⟨rfl, ⟨⟩⟩ := hf.of_ret
    exact .dropped herr hr
  · next h herr hr =>
    split at hf
    · next w hw => exact answerStillWaiting_concludes herr hr hw hf
    · next hw =>
      obtain ⟨tr0, tr1, built, rfl, h0, h1⟩ := hf.of_bind
      exact settleIssued_concludes herr hr hw (buildCertRep_steps h0) h1

omit hh hcred in
/-- The lookups find an entry in the state they ask for. -/
lemma getInState_steps {site : Site} {state : TxnState} {key : TransactionKey} {found : Option Cell}
    (hs : Prog.Steps (TrackerConfig.getInState site state key) tr (.ret found)) :
    ∃ c, tr = [⟨.load site key, c⟩] ∧ ∀ cell, found = some cell →
      c = some cell ∧ cell.entry.state = state := by
  unfold TrackerConfig.getInState at hs
  obtain ⟨c, tr', rfl, hk⟩ := hs.of_call
  cases c with
  | none =>
    simp only [Prog.pure_eq] at hk
    obtain ⟨rfl, ⟨⟩⟩ := hk.of_ret
    exact ⟨none, rfl, fun _ h => by cases h⟩
  | some c =>
    simp only [Prog.pure_eq] at hk
    split_ifs at hk with hst
    · obtain ⟨rfl, ⟨⟩⟩ := hk.of_ret
      exact ⟨some c, rfl, fun _ h => by cases h⟩
    · obtain ⟨rfl, ⟨⟩⟩ := hk.of_ret
      refine ⟨some c, rfl, fun cell hcell => ?_⟩
      cases hcell
      exact ⟨rfl, not_not.mp hst⟩

omit hh hcred in
/-- A follow-up message is refused after the lookups. -/
lemma reject_served (credID : Bytes) {tr0 : History} {failInfo : PKIFailureInfo}
    {text : PKIFreeText} (hq : ¬ isInitialRequest q.body.type) (h0 : Within Effect.Looking tr0)
    (hs : Prog.Steps (srv.reject q s failInfo text) tr (.ret resp)) :
    srv.Served q s credID (tr0 ++ tr) resp := by
  obtain ⟨hw, hresp⟩ := reject_steps hs
  exact .refused hq (h0.append (hw.mono fun _ => Effect.Building.looking)) hresp

lemma handlePollReq_served (hq : q.body.type = BodyTypePollReq)
    (hs : Prog.Steps (srv.handlePollReq srv.baseCtx q s) tr (.ret resp)) :
    srv.Served q s credID tr resp := by
  have hinitial : ¬ isInitialRequest q.body.type := by rw [hq]; decide
  unfold handlePollReq at hs
  rw [hcred] at hs
  split at hs
  · exact reject_served _ hinitial .nil hs
  · next h => cases h
  · next pollReq id hget h =>
    cases h
    obtain ⟨tr1, tr2, found, rfl, h1, h2⟩ := hs.of_bind
    obtain ⟨c, rfl, hfound⟩ := getInState_steps h1
    have hload : Within Effect.Looking
        [⟨.load .getPending (srv.tracker.makeKey credID q.header.transactionID), c⟩] :=
      .cons trivial .nil
    cases found with
    | none => exact reject_served _ hinitial hload h2
    | some cell =>
      obtain ⟨rfl, hst⟩ := hfound cell rfl
      simp only at h2
      split_ifs at h2 with hempty hne hzero
      · exact reject_served _ hinitial hload h2
      · exact reject_served _ hinitial hload h2
      · exact resumePending_served hh hq hget hst ⟨hempty, not_not.mp hne⟩ .nil h2
      · obtain ⟨now, tr', rfl, hk⟩ := h2.of_call
        have hnow : Within Effect.Building [⟨.now, now⟩] := .cons trivial .nil
        split_ifs at hk
        · have hserved := reject_served credID hinitial
            (hload.append (hnow.mono fun _ => Effect.Building.looking)) hk
          exact hserved
        · have hserved := resumePending_served hh hq hget hst ⟨hempty, not_not.mp hne⟩ hnow hk
          exact hserved

omit hh hcred in
/-- The checks of a certConf include the nonce. -/
lemma nonce_of_certConfError {conf : CertConfirmContent} {entry : TransactionEntry}
    (h : srv.certConfError q s conf entry = some none) :
    q.header.recipNonce ≠ [] ∧ q.header.recipNonce = entry.issuedSenderNonce := by
  unfold certConfError at h
  split at h
  · cases h
  · cases h
  · split_ifs at h with hempty hne hreused hsigned
    · cases h
    · cases h
    · cases h
    · cases h
    · exact ⟨hempty, not_not.mp hne⟩

lemma handleCertConf_served (hq : q.body.type = BodyTypeCertConf)
    (hs : Prog.Steps (srv.handleCertConf srv.baseCtx q s) tr (.ret resp)) :
    srv.Served q s credID tr resp := by
  have hinitial : ¬ isInitialRequest q.body.type := by rw [hq]; decide
  unfold handleCertConf at hs
  rw [hcred] at hs
  split at hs
  · exact reject_served _ hinitial .nil hs
  · next conf _ =>
    split_ifs at hs
    · exact reject_served _ hinitial .nil hs
    · obtain ⟨tr1, tr2, found, rfl, h1, h2⟩ := hs.of_bind
      obtain ⟨c, rfl, hfound⟩ := getInState_steps h1
      have hload : Within Effect.Looking
          [⟨.load .getIssued (srv.tracker.makeKey credID q.header.transactionID), c⟩] :=
        .cons trivial .nil
      cases found with
      | none => exact reject_served _ hinitial hload h2
      | some cell =>
        obtain ⟨rfl, hst⟩ := hfound cell rfl
        simp only at h2
        split at h2
        · obtain ⟨rfl, ⟨⟩⟩ := h2.of_ret
          exact .lost hq
        · exact reject_served _ hinitial hload h2
        · next hok =>
          unfold recordConfirmation at h2
          rw [hh] at h2
          obtain ⟨r, tr', rfl, hk⟩ := h2.of_call
          split at hk
          · next err herr =>
            obtain ⟨a, b, built, rfl, ha, hb⟩ := hk.of_bind
            obtain ⟨rfl, ⟨⟩⟩ := hb.of_ret
            rw [List.append_nil]
            rw [← List.nil_append a]
            refine .confirm hq hst (nonce_of_certConfError hok) ?_
              (.of_only (srv.buildEcho_only ..) ha)
              (buildResponseInternal_steps ha).1
            rw [herr]
            exact ⟨rfl, rfl⟩
          · next herr =>
            obtain ⟨a, tr'', ⟨⟩, rfl, ha, hecho⟩ := hk.of_bind
            obtain ⟨b, b', built, rfl, hb, hb'⟩ := hecho.of_bind
            obtain ⟨rfl, ⟨⟩⟩ := hb'.of_ret
            rw [List.append_nil]
            refine .confirm hq hst (nonce_of_certConfError hok) ?_
              (.of_only (srv.buildEcho_only ..) hb)
              (buildResponseInternal_steps hb).1
            rw [herr]
            exact ⟨rfl, ha⟩

omit hh hcred in
lemma answerRevocation_steps {r : HandlerResult} {built : PKIMessage}
    (hs : Prog.Steps (srv.answerRevocation q s r) tr (.ret built)) :
    ∃ body, AnswersRevocation r body ∧ srv.Answers s tr q body built := by
  unfold answerRevocation at hs
  split at hs
  · next err herr =>
    simp only at hs
    split_ifs at hs
    · exact ⟨_, .inl ⟨err, herr, rfl⟩, (buildResponseInternal_steps hs).1⟩
    · refine ⟨_, .inr ⟨_, fun e he => ?_, rfl⟩, (buildResponseInternal_steps hs).1⟩
      rw [Option.some.inj (herr.symm.trans he)]
  · next herr =>
    have hnone : ∀ (si : PKIStatusInfo) (err : GoError), r.err = some err →
        si = errorToStatusInfo err := by
      intro si err he
      rw [herr] at he
      cases he
    split_ifs at hs
    · exact ⟨_, .inr ⟨_, hnone _, rfl⟩, (buildResponseInternal_steps hs).1⟩
    · exact ⟨_, .inr ⟨_, hnone _, rfl⟩, (buildResponseInternal_steps hs).1⟩

lemma handleRevocation_served (hq : q.body.type = BodyTypeRR)
    (hs : Prog.Steps (srv.handleRevocation srv.baseCtx q s) tr (.ret resp)) :
    srv.Served q s credID tr resp := by
  unfold handleRevocation at hs
  rw [hcred, hh] at hs
  obtain ⟨r, tr', rfl, hk⟩ := hs.of_call
  obtain ⟨tr0, tr'', built, rfl, h0, hdone⟩ := hk.of_bind
  obtain ⟨tr1, tr2, ⟨⟩, rfl, h1, h2⟩ := hdone.of_bind
  obtain ⟨rfl, ⟨⟩⟩ := h2.of_ret
  rw [List.append_nil]
  obtain ⟨body, hbody, ha⟩ := answerRevocation_steps h0
  exact .revoke hq (.of_only (srv.answerRevocation_only ..) h0) hbody ha h1

/-- **What a message does once it is handed over**, whatever the answers it gets. -/
theorem served_of_steps (hs : Prog.Steps (srv.dispatch q s) tr (.ret resp)) :
    srv.Served q s credID tr resp := by
  unfold dispatch at hs
  simp only at hs
  split_ifs at hs with hreq hconf hpoll hrr herror
  · exact handleCertRequest_served hh hcred hreq hs
  · exact handleCertConf_served hh hcred hconf hs
  · exact handlePollReq_served hh hcred hpoll hs
  · exact handleRevocation_served hh hcred hrr hs
  · obtain ⟨tr1, tr2, built, rfl, h1, h2⟩ := hs.of_bind
    obtain ⟨rfl, ⟨⟩⟩ := h2.of_ret
    rw [List.append_nil]
    exact .acknowledged herror (.of_only (srv.buildResponse_only ..) h1)
      (buildResponseInternal_steps h1).1
  · refine reject_served _ ?_ .nil hs
    simp only [isCertRequest, Bool.or_eq_true, decide_eq_true_eq, not_or] at hreq
    simp only [isInitialRequest, Bool.or_eq_true, decide_eq_true_eq, not_or]
    exact ⟨hreq, hrr⟩

end Served

/-- What is not an operation of the checks comes from a message that was handed over. -/
lemma served_of_mem {msg : PKIMessage} (hh : srv.handler = .external)
    (hs : Prog.Steps (srv.processMessage msg) tr (.ret resp)) {e : ServerEvent}
    (he : e ∈ tr) (hout : ¬ e.op.Outer) :
    ∃ q s credID tr0 tr1, srv.Brings msg q ∧ s.credentialID srv.crypto = .ok credID ∧
      tr = tr0 ++ tr1 ∧ Within Effect.Outer tr0 ∧ srv.Served q s credID tr1 resp := by
  have haround : ∀ {tr : History}, Within Effect.Around tr → Within Effect.Outer tr :=
    fun h => h.mono fun _ => Effect.Around.outer
  have hstart : ∀ {cred tx : Bytes} {tr : History} {p : ServerProg (Except GoError Bool)},
      Prog.Steps (srv.tracker.startIfAbsent cred tx) tr p → Within Effect.Outer tr :=
    fun hs => .of_only (TrackerConfig.startIfAbsent_outer ..) hs
  cases course_of_steps hs with
  | refused htr _ => exact absurd (haround htr e he) hout
  | locked _ _ _ h0 h1 _ h2 _ =>
    exact absurd (((haround h0).append ((hstart h1).append (haround h2))) e he) hout
  | started hq _ hcred h0 h1 h2 =>
    exact ⟨_, _, _, _, _, hq, hcred, (List.append_assoc ..).symm, (haround h0).append (hstart h1),
      served_of_steps hh hcred h2⟩
  | followed hq _ hcred h0 h1 =>
    exact ⟨_, _, _, _, _, hq, hcred, rfl, haround h0, served_of_steps hh hcred h1⟩

end

end Server

end PkiCmp
