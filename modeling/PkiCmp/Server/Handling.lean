/-
How a message that was handed over is handled (`server/response.go`,
`server/confirm_poll.go`, the server's part of `server/revocation.go`).

The handlers are unfolded here once.  What is proved about every thread of the server goes by
induction on this description.

* `Point`: how far the handling of a message has come;
* `Says`, `Calls`: the responses that are built, and the calls of the handler, at each point;
* `Handles`: what is left to be done at a point, one operation after the other;
* `dispatch_handles`: **every message is handled in this way**;
* `Handles.serves`: an invariant up to the call of the handler, and one afterwards.
-/
import PkiCmp.Server.Process

namespace PkiCmp

open Der Interact

/-! ### Results of the handler -/

namespace HandlerResult

/-- The handler asks the client to wait. -/
def Waits (r : HandlerResult) (w : WaitingResponse) : Prop :=
  r.err = none ∧ ∃ h, r.response = some h ∧ h.waiting = some w

/-- The handler is done with the request. -/
def Decides (r : HandlerResult) (h : Response) : Prop :=
  r.err = none ∧ r.response = some h ∧ h.waiting = none

end HandlerResult

namespace Server

/-- The context of the handler calls of a server, before anything is put into it. -/
def baseCtx (srv : Server) : Ctx := { sha1Signatures := srv.cfg.allowSHA1Signatures }

/-- Implicit confirmation is granted: it is configured, and the message asks for it. -/
def grants (srv : Server) (msg : PKIMessage) : Bool :=
  srv.cfg.implicitConfirm && requestHasImplicitConfirm msg

/-- The status of a poll that comes too early. -/
def tooFrequent : PKIStatusInfo :=
  { status := StatusRejection, failInfo := FailBadRequest,
    statusString := [str "polling too frequently"] }

/-! ### The description -/

/-- How far the handling of a message has come. -/
inductive Point where
  /-- nothing was done -/
  | entered
  /-- the transaction was looked up -/
  | looked (site : Site) (found : Option Cell)
  /-- the clock was read for a poll -/
  | timed (cell : Cell) (now : Time)
  /-- the handler has returned for a certificate request or a poll -/
  | called (found : Option Cell) (r : HandlerResult)
  /-- the handler has returned for a certConf -/
  | judged (cell : Cell) (r : HandlerResult)
  /-- the handler has returned for a revocation request -/
  | revoked (r : HandlerResult)
  /-- a response was built, with the operations of building it -/
  | built (pt : Point) (body : PKIBody) (tr : History) (resp : PKIMessage)
  /-- the tracker was asked to replace the entry -/
  | kept (resp : PKIMessage) (ok : Bool)
  /-- the transaction was completed for an implicit confirmation -/
  | completed (found : Option Cell) (r : HandlerResult) (resp : PKIMessage)
  /-- the confirmed entry was deleted -/
  | deleted
  /-- the response is all that is left -/
  | done (resp : PKIMessage)

/-- The result of the handler, where it is looked at. -/
def Point.result : Point → Option HandlerResult
  | .called _ r | .judged _ r | .revoked r => some r
  | _ => none

/-- A message is refused at this point: before the handler is called, and a poll for another
reason than its time, or after the tracker has not agreed. -/
def Point.Refuses (failInfo : PKIFailureInfo) (text : PKIFreeText) : Point → Prop
  | .looked .getPending _ => failInfo ≠ FailBadRequest ∨ text ≠ [str "polling too frequently"]
  | .entered | .looked .. | .kept _ false => True
  | _ => False

/-- A nil pointer is dereferenced at this point. -/
def Point.Drops : Point → Prop
  | .looked .getIssued _ => True
  | .called _ r => r.response = none
  | _ => False

/-- No certificate has to be taken care of. -/
def Point.Bare : Point → Prop
  | .called _ r => ∀ h, r.Decides h → h.certificate = none
  | .built .. | .completed .. | .done .. => False
  | _ => True

lemma Point.Drops.bare {pt : Point} (h : pt.Drops) : pt.Bare := by
  cases pt with
  | called => exact fun _ hd => absurd (h.symm.trans hd.2.1) nofun
  | looked => trivial
  | _ => exact h.elim

/-- There is no response yet. -/
def Point.Open : Point → Prop
  | .built .. | .completed .. | .done .. | .kept _ true => False
  | _ => True

/-- The responses that are built at a point: their generalInfo and their body. -/
inductive Says (srv : Server) (msg : PKIMessage) :
    Point → ServerProg (List InfoTypeAndValue) → PKIBody → Prop
  | reject {pt : Point} {failInfo : PKIFailureInfo} {text : PKIFreeText}
      (hpt : pt.Refuses failInfo text) :
      Says srv msg pt (pure []) (.error { pkiStatusInfo :=
        { status := StatusRejection, failInfo, statusString := text } })
  /-- a poll that comes too early -/
  | early {cell : Cell} {now : Time} (hstate : cell.entry.state = .pending)
      (hpolled : ¬ cell.entry.lastPollTime.isZero)
      (h : now - cell.entry.lastPollTime < cell.entry.checkAfter) :
      Says srv msg (.timed cell now) (pure []) (.error { pkiStatusInfo := tooFrequent })
  /-- an error message -/
  | acknowledge (hq : msg.body.type = BodyTypeError) : Says srv msg .entered (pure []) .pkiConf
  /-- an error of the handler, as an error -/
  | failed {pt : Point} {r : HandlerResult} {err : GoError} (hpt : pt.result = some r)
      (herr : r.err = some err) :
      Says srv msg pt (pure []) (.error { pkiStatusInfo := errorToStatusInfo err })
  /-- an error of the handler, in a certificate response -/
  | refused {found : Option Cell} {r : HandlerResult} {err : GoError} (certReqID : ℤ)
      (reqType : RequestType) (herr : r.err = some err) :
      Says srv msg (.called found r) (srv.certRepInfo msg (errorToStatusInfo err))
        (certRepBody certReqID (errorToStatusInfo err) none [] reqType)
  /-- the first request to wait -/
  | wait {found : Option Cell} {r : HandlerResult} {w : WaitingResponse} (certReqID : ℤ)
      (reqType : RequestType) (hw : r.Waits w) :
      Says srv msg (.called found r) (srv.certRepInfo msg { status := StatusWaiting })
        (certRepBody certReqID { status := StatusWaiting } none [] reqType)
  /-- the request to go on waiting -/
  | poll {found : Option Cell} {r : HandlerResult} {w : WaitingResponse} {item : PollRepItem}
      (hw : r.Waits w) (hitem : item.checkAfter = max (w.checkAfter.tdiv Time.second) 1) :
      Says srv msg (.called found r) (pure []) (.pollRep [item])
  /-- the result of the request -/
  | issue {found : Option Cell} {r : HandlerResult} {h : Response} (certReqID : ℤ)
      (reqType : RequestType) (hd : r.Decides h) :
      Says srv msg (.called found r) (srv.certRepInfo msg { status := StatusAccepted })
        (certRepBody certReqID { status := StatusAccepted } h.certificate h.caCerts reqType)
  /-- a confirmation that was taken -/
  | confirm : Says srv msg .deleted (pure []) .pkiConf
  /-- the result of a revocation -/
  | revoke {r : HandlerResult} {si : PKIStatusInfo}
      (hsi : ∀ err, r.err = some err → si = errorToStatusInfo err) :
      Says srv msg (.revoked r) (pure []) (.rp { status := [si] })

/-- The calls of the handler at a point: their context, and what comes after them. -/
inductive Calls (srv : Server) (msg : PKIMessage) (sender : SenderIdentity) :
    Point → Ctx → (HandlerResult → Point) → Prop
  | request {found : Option Cell} (hq : isCertRequest msg.body.type) :
      Calls srv msg sender (.looked .getPending found) srv.baseCtx (.called found)
  | poll {pt : Point} {cell : Cell} (hq : msg.body.type = BodyTypePollReq)
      (hpt : pt = .looked .getPending (some cell) ∨ ∃ now, pt = .timed cell now) :
      Calls srv msg sender pt { srv.baseCtx with pollRef := some cell.entry.pollRef }
        (.called (some cell))
  | confirm {cell : Cell} {conf : CertConfirmContent} {credID : Bytes}
      (hq : msg.body.type = BodyTypeCertConf) (hconf : msg.body.getCertConf = .ok conf)
      (hcons : conf.any contradictory = false) (hcred : sender.credentialID srv.crypto = .ok credID)
      (hstate : cell.entry.state = .issued)
      (herr : srv.certConfError msg sender conf cell.entry = some none) :
      Calls srv msg sender (.looked .getIssued (some cell))
        { srv.baseCtx with issued := some ⟨cell.entry.cert, cell.entry.issueRef, cell.txn⟩ }
        (.judged cell)
  | revoke (hq : msg.body.type = BodyTypeRR) : Calls srv msg sender .entered srv.baseCtx .revoked

/-- A response is sent as it was built when nothing is left to be done. -/
inductive Sends (srv : Server) : Point → PKIMessage → Prop
  | built {pt : Point} {body : PKIBody} {tr : History} {resp : PKIMessage} (h : pt.Bare) :
      Sends srv (.built pt body tr resp) resp
  | kept {resp : PKIMessage} : Sends srv (.kept resp true) resp
  | completed {found : Option Cell} {r : HandlerResult} {resp : PKIMessage}
      (h : ¬ srv.cfg.confirmer) : Sends srv (.completed found r resp) resp
  | done {resp : PKIMessage} : Sends srv (.done resp) resp

/-- What is left to be done at a point. -/
inductive Handles (srv : Server) (msg : PKIMessage) (sender : SenderIdentity) :
    Point → ServerThread → Prop
  /-- a nil dereference -/
  | drop {pt : Point} (h : pt.Drops) : Handles srv msg sender pt (.ret none)
  | send {pt : Point} {resp : PKIMessage} (h : srv.Sends pt resp) :
      Handles srv msg sender pt (.ret (some resp))
  | look {site : Site} {credID : Bytes} {k : Option Cell → ServerThread}
      (hcred : sender.credentialID srv.crypto = .ok credID)
      (hsite : site = .getPending ∨ site = .getIssued)
      (hk : ∀ found, Handles srv msg sender (.looked site found) (k found)) :
      Handles srv msg sender .entered
        (perform (.load site (srv.tracker.makeKey credID msg.header.transactionID)) >>= k)
  | clock {cell : Cell} {k : Time → ServerThread}
      (hk : ∀ now, Handles srv msg sender (.timed cell now) (k now)) :
      Handles srv msg sender (.looked .getPending (some cell)) (perform .now >>= k)
  | call {pt : Point} {ctx : Ctx} {after : HandlerResult → Point}
      {k : HandlerResult → ServerThread} (h : srv.Calls msg sender pt ctx after)
      (hk : ∀ r, Handles srv msg sender (after r) (k r)) :
      Handles srv msg sender pt (srv.handler ctx msg sender >>= k)
  | build {pt : Point} {i : ServerProg (List InfoTypeAndValue)} {body : PKIBody}
      {params : Option MACCredentialOption} {k : PKIMessage → ServerThread}
      (h : srv.Says msg pt i body)
      (hk : ∀ tr resp, srv.Answers sender tr msg body resp →
        Handles srv msg sender (.built pt body tr resp) (k resp)) :
      Handles srv msg sender pt
        ((i >>= fun info => srv.buildResponseInternal msg body sender info params) >>= k)
  /-- the client has to wait -/
  | pend {found : Option Cell} {r : HandlerResult} {w : WaitingResponse} {body : PKIBody}
      {tr : History} {resp : PKIMessage} {credID : Bytes} {reqType : RequestType}
      {clock : ServerProg Time} {k : Bool → ServerThread}
      (hcred : sender.credentialID srv.crypto = .ok credID) (hw : r.Waits w)
      (hsaid : ∃ i, srv.Says msg (.called found r) i body)
      (ha : srv.Answers sender tr msg body resp) (hclock : clock = pure 0 ∨ clock = perform .now)
      (hk : ∀ ok, Handles srv msg sender (.kept resp ok) (k ok)) :
      Handles srv msg sender (.built (.called found r) body tr resp) (clock >>= fun last =>
        srv.tracker.setPending credID msg.header.transactionID reqType w.pollRef
          resp.header.senderNonce w.checkAfter last >>= k)
  /-- the certificate has to be confirmed -/
  | issue {found : Option Cell} {r : HandlerResult} {h : Response} {cert : Certificate}
      {tr : History} {resp : PKIMessage} {credID : Bytes} {reqType : RequestType} {certReqID : ℤ}
      {k : Bool → ServerThread}
      (hcred : sender.credentialID srv.crypto = .ok credID) (hd : r.Decides h)
      (hc : h.certificate = some cert)
      (ha : srv.Answers sender tr msg (certRepBody certReqID { status := StatusAccepted }
        (some cert) h.caCerts reqType) resp)
      (hk : ∀ ok, Handles srv msg sender (.kept resp ok) (k ok)) :
      Handles srv msg sender (.built (.called found r) (certRepBody certReqID
          { status := StatusAccepted } (some cert) h.caCerts reqType) tr resp)
        (srv.tracker.setIssued credID msg.header.transactionID reqType certReqID cert h.issueRef
          resp.header.senderNonce msg.header.senderNonce sender.protectionParams
          msg.header.protectionAlg >>= k)
  /-- the certificate is confirmed -/
  | complete {found : Option Cell} {r : HandlerResult} {body : PKIBody} {tr : History}
      {resp : PKIMessage} {credID : Bytes} {k : Unit → ServerThread}
      (hcred : sender.credentialID srv.crypto = .ok credID)
      (hk : Handles srv msg sender (.completed found r resp) (k ())) :
      Handles srv msg sender (.built (.called found r) body tr resp)
        (srv.tracker.setCompleted credID msg.header.transactionID >>= k)
  | tell {found : Option Cell} {r : HandlerResult} {h : Response} {cert : Certificate}
      {resp : PKIMessage} {k : Option GoError → ServerThread}
      (hd : r.Decides h) (hc : h.certificate = some cert)
      (hk : ∀ err, Handles srv msg sender (.done resp) (k err)) :
      Handles srv msg sender (.completed found r resp)
        (perform (.confirmCertificate cert .implicit h.issueRef (found.map Cell.txn)) >>= k)
  /-- the confirmation was taken -/
  | delete {cell : Cell} {r : HandlerResult} {credID : Bytes}
      {k : Unit → ServerThread}
      (hcred : sender.credentialID srv.crypto = .ok credID) (herr : r.err = none)
      (hk : Handles srv msg sender .deleted (k ())) :
      Handles srv msg sender (.judged cell r)
        (srv.tracker.delete credID msg.header.transactionID cell.ptr >>= k)
  /-- the revocation was decided -/
  | finish {r : HandlerResult} {body : PKIBody} {tr : History} {resp : PKIMessage} {credID : Bytes}
      {k : Unit → ServerThread}
      (hcred : sender.credentialID srv.crypto = .ok credID)
      (hk : Handles srv msg sender (.done resp) (k ())) :
      Handles srv msg sender (.built (.revoked r) body tr resp)
        (srv.tracker.setCompleted credID msg.header.transactionID >>= k)

/-! ### The handlers -/

namespace Handles

variable {srv : Server} {msg : PKIMessage} {sender : SenderIdentity} {pt : Point}

/-- A response that is sent as it was built. -/
lemma reply {i : ServerProg (List InfoTypeAndValue)} {body : PKIBody}
    {params : Option MACCredentialOption} (h : srv.Says msg pt i body) (hpt : pt.Bare) :
    srv.Handles msg sender pt (do
      let resp ← i >>= fun info => srv.buildResponseInternal msg body sender info params
      pure (some resp)) :=
  .build h fun _ _ _ => .send (.built hpt)

lemma reject {failInfo : PKIFailureInfo} {text : PKIFreeText} (hpt : pt.Refuses failInfo text) :
    srv.Handles msg sender pt (srv.reject msg sender failInfo text) := by
  refine reply (.reject hpt) ?_
  cases pt <;> trivial

/-- The end of a request that was kept, or not. -/
lemma agree {resp : PKIMessage} {failInfo : PKIFailureInfo} (ok : Bool) :
    srv.Handles msg sender (.kept resp ok)
      (if ok then pure (some resp) else srv.reject msg sender failInfo []) := by
  cases ok with
  | true => exact .send .kept
  | false => exact reject trivial

section

variable {found : Option Cell} {r : HandlerResult} {credID : Bytes}

lemma bare_of_err {err : GoError} (herr : r.err = some err) : (Point.called found r).Bare :=
  fun _ hd => absurd (hd.1.symm.trans herr) nofun

lemma failed {err : GoError} (herr : r.err = some err) :
    srv.Handles msg sender (.called found r)
      (srv.answerError msg sender (errorToStatusInfo err)) :=
  reply (.failed rfl herr) (bare_of_err herr)

lemma answerRefused {err : GoError} (herr : r.err = some err) (certReqID : ℤ)
    (reqType : RequestType) :
    srv.Handles msg sender (.called found r)
      (srv.answerRefused msg sender certReqID reqType err) := by
  unfold Server.answerRefused
  simp only
  split_ifs
  · exact failed herr
  · exact failed herr
  · exact reply (.refused certReqID reqType herr) (bare_of_err herr)

variable (hcred : sender.credentialID srv.crypto = .ok credID)
include hcred

lemma answerWaiting {w : WaitingResponse} (hw : r.Waits w) (certReqID : ℤ) (reqType : RequestType) :
    srv.Handles msg sender (.called found r)
      (srv.answerWaiting msg sender credID certReqID reqType w) :=
  .build (.wait certReqID reqType hw) fun _ _ ha =>
    .pend hcred hw ⟨_, .wait certReqID reqType hw⟩ ha (.inl rfl) agree

lemma answerStillWaiting {w : WaitingResponse} (hw : r.Waits w) (certReqID : ℤ)
    (reqType : RequestType) :
    srv.Handles msg sender (.called found r)
      (srv.answerStillWaiting msg sender credID certReqID reqType w) :=
  .build (.poll hw rfl) fun _ _ ha => .pend hcred hw ⟨_, .poll hw rfl⟩ ha (.inr rfl) agree

lemma settleIssued {h : Response} (hd : r.Decides h) (certReqID : ℤ) (reqType : RequestType)
    (params : Option MACCredentialOption) :
    srv.Handles msg sender (.called found r) (do
      let respMsg ← srv.buildCertRepResponseForType msg certReqID { status := StatusAccepted }
        h.certificate h.caCerts sender reqType params
      srv.settleIssued msg sender credID reqType certReqID h respMsg (found.map Cell.txn)) := by
  refine .build (.issue certReqID reqType hd) fun tr resp ha => ?_
  unfold Server.settleIssued
  cases hc : h.certificate with
  | none =>
    refine .send (.built fun h' hd' => ?_)
    rw [Option.some.inj (hd'.2.1.symm.trans hd.2.1), hc]
  | some cert =>
    rw [hc] at ha
    simp only
    split_ifs with hgrants hconfirmer
    · exact .complete hcred (.tell hd hc fun _ => .send .done)
    · exact .complete hcred (.send (.completed hconfirmer))
    · exact .issue hcred hd hc ha agree

end

lemma handleCertRequest (hq : isCertRequest msg.body.type) :
    srv.Handles msg sender .entered (srv.handleCertRequest srv.baseCtx msg sender) := by
  unfold Server.handleCertRequest
  split
  · exact reject trivial
  · next credID hcred =>
    refine .look hcred (.inl rfl) fun found => ?_
    split_ifs
    · exact reject (.inl (by decide))
    · refine .call (.request hq) fun r => ?_
      split
      · next err herr => exact answerRefused herr _ _
      · next herr hr => exact .drop hr
      · next h herr hr =>
        split
        · next w hw => exact answerWaiting hcred ⟨herr, h, hr, hw⟩ _ _
        · next hw => exact settleIssued hcred ⟨herr, hr, hw⟩ _ _ _

lemma resumePending {credID : Bytes} {cell : Cell}
    (hcred : sender.credentialID srv.crypto = .ok credID) (hq : msg.body.type = BodyTypePollReq)
    (hpt : pt = .looked .getPending (some cell) ∨ ∃ now, pt = .timed cell now) (certReqID : ℤ) :
    srv.Handles msg sender pt (srv.resumePending srv.baseCtx msg sender credID certReqID cell) := by
  refine .call (.poll hq hpt) fun r => ?_
  split
  · next err herr => exact failed herr
  · next herr hr => exact .drop hr
  · next h herr hr =>
    split
    · next w hw => exact answerStillWaiting hcred ⟨herr, h, hr, hw⟩ _ _
    · next hw => exact settleIssued hcred ⟨herr, hr, hw⟩ _ _ _

/-- The lookups of `handlePollReq` and `handleCertConf`. -/
lemma getInState {site : Site} {state : TxnState} {credID : Bytes} {failInfo : PKIFailureInfo}
    {text : PKIFreeText} {k : Cell → ServerThread}
    (hcred : sender.credentialID srv.crypto = .ok credID)
    (hsite : site = .getPending ∨ site = .getIssued)
    (hne : ∀ found, (Point.looked site found).Refuses failInfo text)
    (hk : ∀ cell, cell.entry.state = state →
      srv.Handles msg sender (.looked site (some cell)) (k cell)) :
    srv.Handles msg sender .entered (do
      let found ← TrackerConfig.getInState site state
        (srv.tracker.makeKey credID msg.header.transactionID)
      match found with
      | none => srv.reject msg sender failInfo text
      | some cell => k cell) := by
  refine .look hcred hsite fun found => ?_
  cases found with
  | none => exact reject (hne _)
  | some cell =>
    show srv.Handles msg sender _ ((if cell.entry.state ≠ state then pure none
      else pure (some cell)) >>= _)
    split_ifs with hstate
    · exact reject (hne _)
    · exact hk cell (not_not.mp hstate)

lemma handlePollReq (hq : msg.body.type = BodyTypePollReq) :
    srv.Handles msg sender .entered (srv.handlePollReq srv.baseCtx msg sender) := by
  unfold Server.handlePollReq
  split
  · exact reject trivial
  · exact reject trivial
  · next credID _ hcred =>
    refine getInState hcred (.inl rfl) (fun _ => .inr (by decide +kernel)) fun cell hstate => ?_
    simp only
    split_ifs with hempty hne hpolled
    · exact reject (.inl (by decide))
    · exact reject (.inl (by decide))
    · exact resumePending hcred hq (.inl rfl) _
    · refine .clock fun now => ?_
      split_ifs with hearly
      · exact reply (.early hstate hpolled hearly) trivial
      · exact resumePending hcred hq (.inr ⟨now, rfl⟩) _

lemma handleCertConf (hq : msg.body.type = BodyTypeCertConf) :
    srv.Handles msg sender .entered (srv.handleCertConf srv.baseCtx msg sender) := by
  unfold Server.handleCertConf
  split
  · exact reject trivial
  · next conf hconf =>
    split_ifs with hcons
    · exact reject trivial
    · split
      · exact reject trivial
      · next credID hcred =>
        refine getInState hcred (.inr rfl) (fun _ => trivial) fun cell hstate => ?_
        split
        · exact .drop trivial
        · exact reject trivial
        · next herr =>
          refine .call (.confirm hq hconf (by simpa using hcons) hcred hstate herr) fun r => ?_
          split
          · next err herr => exact reply (i := pure []) (.failed rfl herr) trivial
          · next herr => exact .delete hcred herr (reply (i := pure []) .confirm trivial)

lemma handleRevocation (hq : msg.body.type = BodyTypeRR) :
    srv.Handles msg sender .entered (srv.handleRevocation srv.baseCtx msg sender) := by
  unfold Server.handleRevocation
  split
  · exact reject trivial
  · next credID hcred =>
    refine .call (.revoke hq) fun r => ?_
    have hdone : ∀ {body : PKIBody}, srv.Says msg (.revoked r) (pure []) body →
        srv.Handles msg sender (.revoked r) (do
          let resp ← srv.buildResponse msg body sender
          srv.tracker.setCompleted credID msg.header.transactionID
          pure (some resp)) := fun h =>
      .build (i := pure []) h fun _ _ _ => .finish hcred (.send .done)
    unfold answerRevocation
    split
    · next err herr =>
      simp only
      split_ifs
      · exact hdone (.failed rfl herr)
      · exact hdone (.revoke fun _ h => by rw [Option.some.inj (herr.symm.trans h)])
    · next herr =>
      split_ifs
      · exact hdone (.revoke fun _ h => by cases herr.symm.trans h)
      · exact hdone (.revoke fun _ h => by cases herr.symm.trans h)

end Handles

/-- **Every message** that is handed over is handled in this way. -/
theorem dispatch_handles (srv : Server) (msg : PKIMessage) (sender : SenderIdentity) :
    srv.Handles msg sender .entered (srv.dispatch msg sender) := by
  unfold dispatch
  simp only
  split_ifs with hreq hconf hpoll hrr herror
  · exact .handleCertRequest hreq
  · exact .handleCertConf hconf
  · exact .handlePollReq hpoll
  · exact .handleRevocation hrr
  · exact .reply (i := pure []) (.acknowledge herror) trivial
  · exact .reject trivial

/-! ### Monitors -/

section

variable {srv : Server} {msg : PKIMessage} {sender : SenderIdentity} {pt : Point}
  {i : ServerProg (List InfoTypeAndValue)} {body : PKIBody} {params : Option MACCredentialOption}

lemma clock_only {clock : ServerProg Time} (h : clock = pure 0 ∨ clock = perform .now) :
    Prog.Only (· = .now) clock := by
  obtain rfl | rfl := h
  · trivial
  · exact Prog.Only.call_iff.mpr rfl

lemma Says.opened (h : srv.Says msg pt i body) : pt.Open := by
  cases h with
  | @reject pt _ _ hpt =>
    cases pt with
    | kept _ ok => cases ok <;> trivial
    | _ => trivial
  | @failed pt _ _ hpt => cases pt <;> trivial
  | _ => trivial

lemma Says.info_only (h : srv.Says msg pt i body) : Prog.Only (· = .now) i := by
  cases h <;> first | trivial | exact srv.certRepInfo_only ..

lemma Says.build_only (h : srv.Says msg pt i body) : Prog.Only Effect.Building
    (i >>= fun info => srv.buildResponseInternal msg body sender info params) :=
  (h.info_only.mono fun _ h => by rw [h]; trivial).bind fun _ => srv.buildResponseInternal_only ..

variable {G : Type} {M : Monitor Effect Effect.Res G} {Q : G → Option PKIMessage → Prop}
variable {I K : G → Prop}

/-- A monitor that ignores the clock stays where it is. -/
lemma clock_obeys {clock : ServerProg Time} (h : clock = pure 0 ∨ clock = perform .now) {g : G}
    (hM : M.allowed g .now ∧ ∀ x, M.next g .now x = g) {k : Time → ServerThread}
    (hk : ∀ last, Prog.Obeys M Q g (k last)) : Prog.Obeys M Q g (clock >>= k) := by
  refine Prog.Obeys.bind (.of_only (clock_only h) (g := g) fun o ho => ?_) ?_
  · rw [ho]
    exact hM
  · rintro _ last rfl
    exact hk last

/-- A response is built while an invariant is kept. -/
lemma Says.obeys (h : srv.Says msg pt i body) (hI : M.Keeps I Effect.Building) {g : G} (hg : I g)
    {k : PKIMessage → ServerThread}
    (hk : ∀ tr resp, srv.Answers sender tr msg body resp → (∀ e ∈ tr, e.op.Building) →
      I (M.after g tr) → Prog.Obeys M Q (M.after g tr) (k resp)) :
    Prog.Obeys M Q g
      ((i >>= fun info => srv.buildResponseInternal msg body sender info params) >>= k) := by
  refine Prog.Obeys.bind (Prog.Obeys.of_keeps hI h.build_only hg).traced ?_
  rintro _ resp ⟨hg', tr, hs, rfl⟩
  exact hk tr resp (answers_of_steps h.info_only hs) (fun _ he => h.build_only.mem_steps hs he) hg'

/-- A monitor that ignores the building of a response stays where it is. -/
lemma Says.obeys_idle (h : srv.Says msg pt i body) {g : G}
    (hM : ∀ o : Effect, o.Building → M.allowed g o ∧ ∀ x, M.next g o x = g)
    {k : PKIMessage → ServerThread}
    (hk : ∀ tr resp, srv.Answers sender tr msg body resp → Prog.Obeys M Q g (k resp)) :
    Prog.Obeys M Q g
      ((i >>= fun info => srv.buildResponseInternal msg body sender info params) >>= k) := by
  refine h.obeys (I := (· = g)) ?_ rfl fun tr resp ha _ hsame => ?_
  · rintro _ o rfl ho
    exact ⟨(hM o ho).1, fun x _ => (hM o ho).2 x⟩
  · rw [hsame]
    exact hk tr resp ha

/-- The handler has not been called yet. -/
def Point.early : Point → Bool
  | .entered | .looked .. | .timed .. => true
  | .built pt .. => pt.early
  | _ => false

/-- **One call of the handler**: a message that is handed over leads to at most one, and all
that happens before keeps `I`, all that happens afterwards keeps `K`. -/
lemma Handles.serves {p : ServerThread} (hI : M.Keeps I Effect.Looking)
    (hK : M.Keeps K Effect.Serving)
    (hh : ∀ ctx g, I g → Prog.Obeys M (fun g' _ => K g') g (srv.handler ctx msg sender))
    (hp : srv.Handles msg sender pt p) {g : G} (hg : if pt.early then I g else K g) :
    Prog.Obeys M (fun g' _ => I g' ∨ K g') g p := by
  have hentry : ∀ {α : Type} {q : ServerProg α} {g : G}, Prog.Only Effect.OnEntry q → K g →
      Prog.Obeys M (fun g' _ => K g') g q :=
    fun hq hg => .of_keeps (hK.mono fun _ => Effect.OnEntry.serving) hq hg
  induction hp generalizing g with
  | drop => split_ifs at hg <;> [exact .inl hg; exact .inr hg]
  | send => split_ifs at hg <;> [exact .inl hg; exact .inr hg]
  | look _ _ _ ih =>
    exact Prog.Obeys.bind (.of_keeps hI (Prog.Only.call_iff.mpr trivial) hg) fun g' found =>
      ih found
  | clock _ ih =>
    exact Prog.Obeys.bind (.of_keeps hI (Prog.Only.call_iff.mpr trivial) hg) fun g' now => ih now
  | call h _ ih =>
    have hearly : I g := by
      cases h with
      | poll _ hpt => obtain rfl | ⟨now, rfl⟩ := hpt <;> exact hg
      | _ => exact hg
    refine Prog.Obeys.bind (hh _ g hearly) fun g' r hg' => ih r ?_
    cases h <;> exact hg'
  | @build pt _ _ _ _ h _ ih =>
    refine h.obeys (I := fun g => if pt.early then I g else K g) ?_ hg
      fun tr resp ha _ => ih tr resp ha
    split_ifs
    · exact hI.mono fun _ => Effect.Building.looking
    · exact hK.mono fun _ => Effect.Building.serving
  | pend _ _ _ _ hclock _ ih =>
    have hnow := (clock_only hclock).mono (R := Effect.OnEntry) fun _ h => by rw [h]; trivial
    exact Prog.Obeys.bind (hentry hnow hg) fun g' last hg' =>
      Prog.Obeys.bind (hentry (TrackerConfig.setPending_only ..) hg') fun g'' ok => ih ok
  | issue _ _ _ _ _ ih =>
    exact Prog.Obeys.bind (hentry (TrackerConfig.setIssued_only ..) hg) fun g' ok => ih ok
  | complete _ _ ih =>
    exact Prog.Obeys.bind (hentry (TrackerConfig.setCompleted_only ..) hg) fun g' _ => ih
  | tell _ _ _ ih =>
    exact Prog.Obeys.bind (.of_keeps hK (Prog.Only.call_iff.mpr trivial) hg) fun g' err => ih err
  | delete _ _ _ ih =>
    exact Prog.Obeys.bind (hentry (TrackerConfig.delete_only ..) hg) fun g' _ => ih
  | finish _ _ ih =>
    exact Prog.Obeys.bind (hentry (TrackerConfig.setCompleted_only ..) hg) fun g' _ => ih

end

end Server

end PkiCmp
