/-
The server's configuration and its answers (`server/response.go`,
`server/confirm_poll.go`, the server's part of `server/revocation.go`, and
`protectResponseWithOptions` of `server/protection.go`).

A handler returns no message when the source dereferences a nil pointer: the
HTTP server then drops the connection and the state stays as it is.

* `Server.new`: defaults and the check of the signer;
* `buildResponseInternal`, `buildCertRepResponseForType`;
* `handleCertRequest`, `handlePollReq`, `handleCertConf`, `handleRevocation`.
-/
import PkiCmp.Server.CA

namespace PkiCmp

open Der Interact

/-! ### Configuration -/

/-- `serverConfig`, as the options set it.  What a lookup or an authorizer
answers comes from outside; here is whether one is configured. -/
structure ServerConfig where
  signerKey : Option Signer := none
  signerCert : Option Certificate := none
  signerChain : List Certificate := []
  secretLookup : Bool := false
  certificateLookup : Bool := false
  extraCerts : List Certificate := []
  sender : Name := {}
  confirmWait : Duration := 0
  implicitConfirm : Bool := false
  maxTransactions : ℤ := 0
  maxTransactionsPerCredential : ℤ := 0
  strictProfile : Bool := false
  allowSHA1Signatures : Bool := false
  messageTimeTolerance : Duration := 0
  raAuthorizer : Bool := false
  confirmer : Bool := false

/-- `Server`: the configuration, the credentials built from it, the handler and
the limits of the tracker. -/
structure Server where
  crypto : Crypto
  handler : Handler
  cfg : ServerConfig
  signerCreds : Option Credentials
  signerErr : Option GoError
  tracker : TrackerConfig

/-- `New`; `retries` bounds the loop of `setCompleted`. -/
def Server.new (cr : Crypto) (retries : ℕ) (handler : Handler) (cfg : ServerConfig) : Server :=
  let creds := newSignatureCredentials cr cfg.signerKey cfg.signerCert cfg.signerChain
  let configured := cfg.signerKey.isSome || cfg.signerCert.isSome
  { crypto := cr
    handler
    cfg := { cfg with confirmWait := if cfg.confirmWait = 0 then 10 * Time.second
      else cfg.confirmWait }
    signerCreds := if configured then creds.toOption else none
    signerErr := match creds with
      | .error e => if configured then some e else none
      | .ok _ => none
    tracker :=
      { sha256 := cr.hash .sha256
        maxTransactions := if cfg.maxTransactions = 0 then 10000 else cfg.maxTransactions
        maxTransactionsPerCredential :=
          if cfg.maxTransactionsPerCredential = 0 then 100 else cfg.maxTransactionsPerCredential
        retries } }

/-- `NewCAServer` with a policy in front of the CA. -/
def Server.newCA (cr : Crypto) (retries : ℕ) (ca : CAInterfaces) (wrapper : Handler → Handler)
    (cfg : ServerConfig) : Server :=
  .new cr retries (wrapper (caHandler cr ca))
    { cfg with confirmer := ca.certificateConfirmer || cfg.confirmer }

namespace Server

variable (srv : Server)

/-! ### Protection -/

/-- A shared secret draws a fresh salt. -/
def freshSalt : Credentials → ServerProg Bytes
  | .mac .. => do
      let salt : Random ← perform .random
      pure salt.1
  | .signature .. => pure []

/-- `Credentials.Protect`. -/
def protect (creds : Credentials) (m : PKIMessage) : ServerProg (PKIMessage × Option GoError) := do
  let salt ← freshSalt creds
  match creds.prepare srv.crypto salt m with
  | (m, .error e) => pure (m, some e)
  | (m, .ok (s, data)) => do
      let r : Except GoError Bytes ← perform (.seal s data)
      match r with
      | .error e => pure (m, some e)
      | .ok p => pure ({ m with protection := p }, none)

/-- `protectResponseWithOptions`. -/
def protectResponseWithOptions (resp : PKIMessage) (sender : Option SenderIdentity)
    (params : Option MACCredentialOption) : ServerProg (PKIMessage × Option GoError) :=
  match sender.filter fun s => s.macVerified && s.secret ≠ [] with
  | some s =>
    match newMACCredentials s.secret params.toList with
    | .error e => pure (resp, some e)
    | .ok creds => srv.protect creds resp
  | none =>
    match srv.signerErr, srv.signerCreds with
    | some e, _ => pure (resp, some e)
    | none, some creds => srv.protect creds resp
    | none, none => pure (resp, none)

/-! ### Responses -/

/-- The server's name is configured apart from its certificate. -/
def hasSenderName : Bool :=
  srv.cfg.sender.commonName ≠ [] || srv.cfg.sender.organization ≠ []

/-- The sender field of responses. -/
def senderName : GeneralName :=
  if srv.hasSenderName then newDirectoryName srv.cfg.sender
  else match srv.cfg.signerCert with
    | some cert => newDirectoryNameFromRawDER cert.rawSubject
    | none => {}

/-- The message before it is protected. -/
def responseMessage (req : PKIMessage) (body : PKIBody) (sender : Option SenderIdentity)
    (generalInfo : List InfoTypeAndValue) (senderNonce : Bytes) (now : Time) : PKIMessage where
  header :=
    { pvno := req.header.pvno
      sender := srv.senderName
      recipient := req.header.sender
      messageTime := now
      senderKID := match srv.cfg.signerCert, sender with
        | some cert, _ => cert.subjectKeyId
        | none, some s => if s.macVerified then s.senderKID else []
        | none, none => []
      transactionID := req.header.transactionID
      senderNonce
      recipNonce := req.header.senderNonce
      generalInfo }
  body
  protection := []
  extraCerts := srv.cfg.extraCerts.map fun c => { raw := c.raw }
  rawHeader := []
  rawBody := []

/-- The error a response is replaced by when it cannot be protected. -/
def protectionUnavailable (resp : PKIMessage) : PKIMessage :=
  { resp with
    body := .error { pkiStatusInfo :=
      { status := StatusRejection, failInfo := FailSystemFailure,
        statusString := [str "response protection unavailable"] } }
    header := { resp.header with protectionAlg := none }
    protection := [] }

/-- `buildResponseInternal`. -/
def buildResponseInternal (req : PKIMessage) (body : PKIBody) (sender : Option SenderIdentity)
    (generalInfo : List InfoTypeAndValue) (params : Option MACCredentialOption) :
    ServerProg PKIMessage := do
  let senderNonce : Random ← perform .random
  let now : Time ← perform .now
  let resp := srv.responseMessage req body sender generalInfo senderNonce.1 now
  let (resp, err) ← srv.protectResponseWithOptions resp sender
    (params.or (sender.bind SenderIdentity.protectionParams))
  match err with
  | none => pure resp
  | some _ => pure (protectionUnavailable resp)

/-- `buildResponse`. -/
def buildResponse (req : PKIMessage) (body : PKIBody) (sender : Option SenderIdentity) :
    ServerProg PKIMessage :=
  srv.buildResponseInternal req body sender [] none

/-- `buildResponseWithEchoProtection`. -/
def buildResponseWithEchoProtection (req : PKIMessage) (body : PKIBody)
    (sender : Option SenderIdentity) (params : Option MACCredentialOption) :
    ServerProg PKIMessage :=
  srv.buildResponseInternal req body sender [] params

/-- `buildErrorResponse`. -/
def buildErrorResponse (req : PKIMessage) (sender : Option SenderIdentity) (si : PKIStatusInfo) :
    ServerProg PKIMessage :=
  srv.buildResponse req (.error { pkiStatusInfo := si }) sender

/-- An error response as the result of a handler. -/
def answerError (req : PKIMessage) (sender : Option SenderIdentity) (si : PKIStatusInfo) :
    ServerThread := do
  let resp ← srv.buildErrorResponse req sender si
  pure (some resp)

/-- An error response with status rejection and the given texts. -/
def reject (req : PKIMessage) (sender : Option SenderIdentity) (failInfo : PKIFailureInfo)
    (text : PKIFreeText) : ServerThread :=
  srv.answerError req sender { status := StatusRejection, failInfo, statusString := text }

/-- `buildRevRepResponse`. -/
def buildRevRepResponse (req : PKIMessage) (si : PKIStatusInfo) (sender : Option SenderIdentity) :
    ServerProg PKIMessage :=
  srv.buildResponse req (.rp { status := [si] }) sender

/-- `requestHasImplicitConfirm`. -/
def requestHasImplicitConfirm (msg : PKIMessage) : Bool :=
  msg.header.generalInfo.any fun info => info.infoType = oidImplicitConfirm

/-- The body of a certificate response. -/
def certRepBody (certReqID : ℤ) (si : PKIStatusInfo) (cert : Option Certificate)
    (caCerts : List Certificate) (reqType : RequestType) : PKIBody :=
  let certResp : CertResponse :=
    { certReqID, status := si,
      certifiedKeyPair :=
        (if si.status = StatusAccepted then cert else none).map fun c =>
          { certOrEncCert := .certificate { raw := c.raw } } }
  let rep : CertRepMessage :=
    { response := [certResp], caPubs := caCerts.map fun c => { raw := c.raw } }
  match reqType with
  | .ir => .ip rep
  | .kur => .kup rep
  | _ => .cp rep

/-- The generalInfo of a certificate response: implicit confirmation when it is
granted, otherwise the time to confirm an accepted request. -/
def certRepInfo (req : PKIMessage) (si : PKIStatusInfo) : ServerProg (List InfoTypeAndValue) :=
  if srv.cfg.implicitConfirm && requestHasImplicitConfirm req then pure [implicitConfirmInfoValue]
  else if 0 < srv.cfg.confirmWait && si.status = StatusAccepted then do
    let now : Time ← perform .now
    pure [confirmWaitTimeInfoValue now srv.cfg.confirmWait]
  else pure []

/-- `buildCertRepResponseForType`. -/
def buildCertRepResponseForType (req : PKIMessage) (certReqID : ℤ) (si : PKIStatusInfo)
    (cert : Option Certificate) (caCerts : List Certificate) (sender : Option SenderIdentity)
    (reqType : RequestType) (params : Option MACCredentialOption) : ServerProg PKIMessage := do
  let generalInfo ← srv.certRepInfo req si
  srv.buildResponseInternal req (certRepBody certReqID si cert caCerts reqType) sender generalInfo
    params

/-! ### Certificate requests -/

/-- `certReqIDFromRequest`. -/
def certReqIDFromRequest (msg : PKIMessage) : ℤ :=
  if msg.body.type = BodyTypeP10CR then -1
  else match parseCRMFMsg srv.crypto msg with
    | .ok crmf => crmf.certReqID
    | .error _ => 0

/-- What follows when the handler returned a certificate: implicit confirmation,
or the entry that waits for the certConf.  `txn` is the transaction the handler
was called for. -/
def settleIssued (msg : PKIMessage) (sender : SenderIdentity) (credID : Bytes)
    (reqType : RequestType) (certReqID : ℤ) (resp : Response) (respMsg : PKIMessage)
    (txn : Option ℕ) : ServerThread :=
  match resp.certificate with
  | none => pure (some respMsg)
  | some cert =>
    if srv.cfg.implicitConfirm && requestHasImplicitConfirm msg then do
      srv.tracker.setCompleted credID msg.header.transactionID
      if srv.cfg.confirmer then do
        let _ ← perform (.confirmCertificate cert .implicit resp.issueRef txn)
        pure (some respMsg)
      else pure (some respMsg)
    else do
      let ok ← srv.tracker.setIssued credID msg.header.transactionID reqType certReqID cert
        resp.issueRef respMsg.header.senderNonce msg.header.senderNonce sender.protectionParams
        msg.header.protectionAlg
      if ok then pure (some respMsg)
      else srv.reject msg sender FailTransactionIdInUse []

/-- The answer to a certificate request the handler refused. -/
def answerRefused (msg : PKIMessage) (sender : SenderIdentity) (certReqID : ℤ)
    (reqType : RequestType) (err : GoError) : ServerThread := do
  let si := errorToStatusInfo err
  if si.failInfo &&& FailBadAlg ≠ 0 ∧ msg.body.type = BodyTypeP10CR then
    srv.answerError msg sender si
  else if si.failInfo &&& FailBadMessageCheck ≠ 0 then srv.answerError msg sender si
  else do
    let respMsg ← srv.buildCertRepResponseForType msg certReqID si none [] sender reqType none
    pure (some respMsg)

/-- The handler asks the client to wait. -/
def answerWaiting (msg : PKIMessage) (sender : SenderIdentity) (credID : Bytes)
    (certReqID : ℤ) (reqType : RequestType) (w : WaitingResponse) :
    ServerThread := do
  let respMsg ← srv.buildCertRepResponseForType msg certReqID { status := StatusWaiting } none []
    sender reqType none
  let ok ← srv.tracker.setPending credID msg.header.transactionID reqType w.pollRef
    respMsg.header.senderNonce w.checkAfter 0
  if ok then pure (some respMsg) else srv.reject msg sender FailSystemFailure []

/-- `handleCertRequest`. -/
def handleCertRequest (ctx : Ctx) (msg : PKIMessage) (sender : SenderIdentity) :
    ServerThread :=
  match sender.credentialID srv.crypto with
  | .error _ => srv.reject msg sender FailBadMessageCheck []
  | .ok credID => do
      -- `getPending`: an entry in another state is the transaction of this request
      let found : Option Cell ←
        perform (.load .getPending (srv.tracker.makeKey credID msg.header.transactionID))
      if found.any fun c => c.entry.state = .pending then
        srv.reject msg sender FailTransactionIdInUse []
      else do
        let certReqID := srv.certReqIDFromRequest msg
        let reqType := requestTypeFromBody msg.body.type
        let r ← srv.handler ctx msg sender
        match r.err, r.response with
        | some err, _ => srv.answerRefused msg sender certReqID reqType err
        | none, none => pure none
        | none, some resp =>
          match resp.waiting with
          | some w => srv.answerWaiting msg sender credID certReqID reqType w
          | none => do
              let respMsg ← srv.buildCertRepResponseForType msg certReqID
                { status := StatusAccepted } resp.certificate resp.caCerts sender reqType
                sender.protectionParams
              srv.settleIssued msg sender credID reqType certReqID resp respMsg
                (found.map Cell.txn)

/-! ### Polling -/

/-- The client has to poll again. -/
def answerStillWaiting (msg : PKIMessage) (sender : SenderIdentity) (credID : Bytes)
    (certReqID : ℤ) (reqType : RequestType) (w : WaitingResponse) :
    ServerThread := do
  let item : PollRepItem :=
    { certReqID, checkAfter := max (w.checkAfter.tdiv Time.second) 1,
      reason := if w.reason ≠ [] then [w.reason] else [] }
  let respMsg ← srv.buildResponse msg (.pollRep [item]) sender
  let now : Time ← perform .now
  let ok ← srv.tracker.setPending credID msg.header.transactionID reqType w.pollRef
    respMsg.header.senderNonce w.checkAfter now
  if ok then pure (some respMsg) else srv.reject msg sender FailSystemFailure []

/-- The rest of `handlePollReq`, for a poll that comes neither unknown nor too
early. -/
def resumePending (ctx : Ctx) (msg : PKIMessage) (sender : SenderIdentity) (credID : Bytes)
    (certReqID : ℤ) (cell : Cell) : ServerThread := do
  let pending := cell.entry
  let r ← srv.handler { ctx with pollRef := some pending.pollRef } msg sender
  match r.err, r.response with
  | some err, _ => srv.answerError msg sender (errorToStatusInfo err)
  | none, none => pure none
  | none, some resp =>
    match resp.waiting with
    | some w => srv.answerStillWaiting msg sender credID certReqID pending.reqType w
    | none => do
        let respMsg ← srv.buildCertRepResponseForType msg certReqID { status := StatusAccepted }
          resp.certificate resp.caCerts sender pending.reqType none
        srv.settleIssued msg sender credID pending.reqType certReqID resp respMsg (some cell.txn)

/-- `handlePollReq`. -/
def handlePollReq (ctx : Ctx) (msg : PKIMessage) (sender : SenderIdentity) :
    ServerThread :=
  match msg.body.getPollReq, sender.credentialID srv.crypto with
  | .error _, _ => srv.reject msg sender FailBadDataFormat []
  | .ok _, .error _ => srv.reject msg sender FailBadMessageCheck []
  | .ok pollReq, .ok credID => do
      let certReqID := pollReq.head?.getD 0
      let pending ← srv.tracker.getPending credID msg.header.transactionID
      match pending with
      | none => srv.reject msg sender FailBadRequest [str "no pending certificate"]
      | some cell =>
        let pending := cell.entry
        if msg.header.recipNonce = [] then
          srv.reject msg sender FailBadRecipientNonce [str "missing recipNonce"]
        else if msg.header.recipNonce ≠ pending.senderNonce then
          srv.reject msg sender FailBadRecipientNonce [str "recipNonce mismatch"]
        else if pending.lastPollTime.isZero then
          srv.resumePending ctx msg sender credID certReqID cell
        else do
          let now : Time ← perform .now
          if now - pending.lastPollTime < pending.checkAfter then
            srv.reject msg sender FailBadRequest [str "polling too frequently"]
          else srv.resumePending ctx msg sender credID certReqID cell

/-! ### Confirmation -/

/-- `certReqIDMatches`. -/
def certReqIDMatches (entry : TransactionEntry) (certReqID : ℤ) : Bool :=
  entry.certReqID = none || entry.certReqID = some certReqID ||
    (entry.reqType = .p10cr && (certReqID = 0 || certReqID = -1))

/-- The check of one `CertStatus` against the issued certificate and the first
one of the list. -/
def checkCertStatus (entry : TransactionEntry) (cert : Certificate) (first cs : CertStatus) :
    Option ServerError :=
  match cs.certificateHash srv.crypto cert with
  | .error _ => some ⟨StatusRejection, FailBadAlg, str "cannot compute certHash"⟩
  | .ok expectedHash =>
    if cs.certHash ≠ expectedHash then
      some ⟨StatusRejection, FailBadCertId, str "certHash mismatch"⟩
    else if !certReqIDMatches entry cs.certReqID then
      some ⟨StatusRejection, FailBadCertId,
        str "certReqId does not match the issued certificate"⟩
    else if certStatusRejects cs ≠ certStatusRejects first then
      some ⟨StatusRejection, FailBadRequest, str "CertStatus entries disagree"⟩
    else none

/-- `checkCertStatuses`; the outer `none` is the nil certificate of an entry
that has none. -/
def checkCertStatuses (statuses : CertConfirmContent) (entry : TransactionEntry) :
    Option (Option ServerError) :=
  if srv.cfg.strictProfile ∧ 1 < statuses.length then
    some (some ⟨StatusRejection, FailBadRequest, str "more than one CertStatus"⟩)
  else match statuses with
    | [] => some none
    | first :: _ => entry.cert.map fun cert =>
      statuses.findSome? (srv.checkCertStatus entry cert first)

/-- `publicKeysEqual`. -/
def publicKeysEqual (a b : Option PublicKey) : Bool :=
  match srv.crypto.marshalPKIXPublicKey a, srv.crypto.marshalPKIXPublicKey b with
  | .ok a, .ok b => a == b
  | _, _ => false

/-- The certConf is signed with the key of the certificate it confirms. -/
def signedWithIssued (sender : SenderIdentity) (entry : TransactionEntry) : Bool :=
  match sender.certificate, entry.cert with
  | some c, some e => srv.publicKeysEqual (certificatePublicKey srv.crypto c)
      (certificatePublicKey srv.crypto e)
  | _, _ => false

/-- A status is accepted and yet has failure bits. -/
def contradictory (cs : CertStatus) : Bool :=
  cs.statusInfo.any fun si => si.status = StatusAccepted && si.failInfo ≠ 0

/-- The checks of a certConf against its entry that lead to an error response;
the outer `none` is a nil dereference. -/
def certConfError (msg : PKIMessage) (sender : SenderIdentity) (conf : CertConfirmContent)
    (entry : TransactionEntry) : Option (Option (PKIFailureInfo × GoString)) :=
  match srv.checkCertStatuses conf entry with
  | none => none
  | some (some e) => some (some (e.failureInfo, e.statusText))
  | some none =>
    if msg.header.recipNonce = [] then
      some (some (FailBadRecipientNonce, str "missing recipNonce"))
    else if msg.header.recipNonce ≠ entry.issuedSenderNonce then
      some (some (FailBadRecipientNonce, str "recipNonce mismatch"))
    else if srv.cfg.strictProfile ∧ (msg.header.senderNonce = entry.issuedSenderNonce ∨
        (entry.clientSenderNonce ≠ [] ∧ msg.header.senderNonce = entry.clientSenderNonce)) then
      some (some (FailBadSenderNonce, str "senderNonce reused"))
    else if srv.signedWithIssued sender entry then
      some (some (FailBadMessageCheck, str "certConf signed with newly issued certificate"))
    else some none

/-- Tell the handler about a confirmation that passed the checks. -/
def recordConfirmation (ctx : Ctx) (msg : PKIMessage) (sender : SenderIdentity) (credID : Bytes)
    (cell : Cell) : ServerThread := do
  let issued : IssuedInfo := ⟨cell.entry.cert, cell.entry.issueRef, cell.txn⟩
  let r ← srv.handler { ctx with issued := some issued } msg sender
  match r.err with
  | some err => do
      let resp ← srv.buildResponseWithEchoProtection msg
        (.error { pkiStatusInfo := errorToStatusInfo err }) sender cell.entry.protectionParams
      pure (some resp)
  | none => do
      srv.tracker.delete credID msg.header.transactionID cell.ptr
      let resp ← srv.buildResponseWithEchoProtection msg .pkiConf sender cell.entry.protectionParams
      pure (some resp)

/-- `handleCertConf`. -/
def handleCertConf (ctx : Ctx) (msg : PKIMessage) (sender : SenderIdentity) :
    ServerThread :=
  match msg.body.getCertConf with
  | .error _ => srv.reject msg sender FailBadDataFormat []
  | .ok conf =>
    if conf.any contradictory then
      srv.reject msg sender FailBadRequest [str "accepted status with failInfo set"]
    else match sender.credentialID srv.crypto with
      | .error _ => srv.reject msg sender FailBadMessageCheck []
      | .ok credID => do
          let cell ← srv.tracker.getIssued credID msg.header.transactionID
          match cell with
          | none => srv.reject msg sender FailBadRequest [str "unknown transaction"]
          | some cell =>
            match srv.certConfError msg sender conf cell.entry with
            | none => pure none
            | some (some (failInfo, text)) => srv.reject msg sender failInfo [text]
            | some none => srv.recordConfirmation ctx msg sender credID cell

/-! ### Revocation -/

/-- The rp or error that answers what the handler decided. -/
def answerRevocation (msg : PKIMessage) (sender : SenderIdentity) (r : HandlerResult) :
    ServerProg PKIMessage :=
  match r.err with
  | some err =>
    let si := errorToStatusInfo err
    if si.failInfo &&& FailBadMessageCheck ≠ 0 then srv.buildErrorResponse msg sender si
    else srv.buildRevRepResponse msg si sender
  | none =>
    if (r.response.bind Response.waiting).isSome then
      srv.buildRevRepResponse msg { status := StatusRejection, failInfo := FailSystemFailure }
        sender
    else srv.buildRevRepResponse msg { status := StatusAccepted } sender

/-- `handleRevocation`; completing the transaction is deferred to its end. -/
def handleRevocation (ctx : Ctx) (msg : PKIMessage) (sender : SenderIdentity) :
    ServerThread :=
  match sender.credentialID srv.crypto with
  | .error _ => srv.reject msg sender FailBadMessageCheck []
  | .ok credID => do
      let r ← srv.handler ctx msg sender
      let resp ← srv.answerRevocation msg sender r
      srv.tracker.setCompleted credID msg.header.transactionID
      pure (some resp)

/-! ### What building an answer may do -/

lemma protect_only (creds : Credentials) (m : PKIMessage) :
    Prog.Only Effect.Building (srv.protect creds m) := by
  refine Prog.Only.bind ?_ fun salt => ?_
  · cases creds
    · exact ⟨trivial, fun _ => trivial⟩
    · trivial
  · split
    · trivial
    · refine ⟨trivial, fun r => ?_⟩
      cases r <;> trivial

lemma protectResponse_only (resp : PKIMessage) (sender : Option SenderIdentity)
    (params : Option MACCredentialOption) :
    Prog.Only Effect.Building (srv.protectResponseWithOptions resp sender params) := by
  unfold protectResponseWithOptions
  split
  · split
    · trivial
    · exact srv.protect_only _ _
  · split
    · trivial
    · exact srv.protect_only _ _
    · trivial

/-- `buildResponseInternal` looks at nothing but the clock and its random values. -/
lemma buildResponseInternal_only (req : PKIMessage) (body : PKIBody)
    (sender : Option SenderIdentity) (info : List InfoTypeAndValue)
    (params : Option MACCredentialOption) :
    Prog.Only Effect.Building (srv.buildResponseInternal req body sender info params) := by
  refine ⟨trivial, fun nonce => ⟨trivial, fun now => ?_⟩⟩
  refine (srv.protectResponse_only _ sender _).bind fun r => ?_
  obtain ⟨resp, err⟩ := r
  cases err <;> trivial

lemma buildResponse_only (req : PKIMessage) (body : PKIBody) (sender : Option SenderIdentity) :
    Prog.Only Effect.Building (srv.buildResponse req body sender) :=
  srv.buildResponseInternal_only ..

lemma buildEcho_only (req : PKIMessage) (body : PKIBody) (sender : Option SenderIdentity)
    (params : Option MACCredentialOption) :
    Prog.Only Effect.Building (srv.buildResponseWithEchoProtection req body sender params) :=
  srv.buildResponseInternal_only ..

lemma certRepInfo_only (req : PKIMessage) (si : PKIStatusInfo) :
    Prog.Only (· = .now) (srv.certRepInfo req si) := by
  unfold certRepInfo
  split_ifs
  · trivial
  · exact ⟨rfl, fun _ => trivial⟩
  · trivial

lemma buildCertRep_only (req : PKIMessage) (certReqID : ℤ) (si : PKIStatusInfo)
    (cert : Option Certificate) (caCerts : List Certificate) (sender : Option SenderIdentity)
    (reqType : RequestType) (params : Option MACCredentialOption) :
    Prog.Only Effect.Building
      (srv.buildCertRepResponseForType req certReqID si cert caCerts sender reqType params) :=
  ((srv.certRepInfo_only req si).mono fun _ h => by rw [h]; trivial).bind fun _ =>
    srv.buildResponseInternal_only ..

lemma answerError_only (req : PKIMessage) (sender : Option SenderIdentity) (si : PKIStatusInfo) :
    Prog.Only Effect.Building (srv.answerError req sender si) :=
  (srv.buildResponse_only ..).bind fun _ => trivial

lemma reject_only (req : PKIMessage) (sender : Option SenderIdentity) (failInfo : PKIFailureInfo)
    (text : PKIFreeText) : Prog.Only Effect.Building (srv.reject req sender failInfo text) :=
  srv.answerError_only ..

lemma answerRevocation_only (msg : PKIMessage) (sender : SenderIdentity) (r : HandlerResult) :
    Prog.Only Effect.Building (srv.answerRevocation msg sender r) := by
  unfold answerRevocation
  split
  · simp only
    split_ifs
    · exact srv.buildResponse_only ..
    · exact srv.buildResponse_only ..
  · split_ifs
    · exact srv.buildResponse_only ..
    · exact srv.buildResponse_only ..

/-! ### What serving a request may do -/

lemma serving_of_building {α : Type} {p : ServerProg α} (h : Prog.Only Effect.Building p) :
    Prog.Only Effect.Serving p := h.mono fun _ => Effect.Building.serving

/-! ### What an answer says -/

/-- The event is the computation of a MAC or signature that succeeded. -/
def isSealed : ServerEvent → Bool
  | ⟨.seal .., .ok _⟩ => true
  | _ => false

/-- A MAC or signature was computed. -/
def Sealed (tr : History) : Prop := ∃ e ∈ tr, isSealed e

instance (tr : History) : Decidable (Sealed tr) :=
  inferInstanceAs (Decidable (∃ e ∈ tr, isSealed e))

/-- Responses to the sender are protected: with its secret, or with the server's own
credentials. -/
def protects (sender : Option SenderIdentity) : Bool :=
  sender.any (fun s => s.macVerified && s.secret ≠ []) || srv.signerErr.isSome ||
    srv.signerCreds.isSome

/-- The protection of a response has failed: the response was to be protected, and no MAC or
signature was computed, because there are no credentials, because they could not be prepared,
or because the computation returned an error. -/
def Unprotected (sender : Option SenderIdentity) (tr : History) : Prop :=
  srv.protects sender ∧ ¬ Sealed tr

lemma protect_yields (creds : Credentials) (m : PKIMessage) :
    Prog.Yields (fun r => m.Protects r.1) (srv.protect creds m) := by
  refine (Prog.Yields.of_true _).bind fun salt _ => ?_
  have hprep := creds.prepare_protects srv.crypto salt m
  split
  · next m' e h =>
    rw [h] at hprep
    exact hprep
  · next m' s data h =>
    rw [h] at hprep
    intro r
    cases r with
    | error e => exact hprep
    | ok p => exact hprep.trans ⟨_, _, _, _, _, _, _, rfl⟩

lemma protectResponse_yields (resp : PKIMessage) (sender : Option SenderIdentity)
    (params : Option MACCredentialOption) :
    Prog.Yields (fun r => resp.Protects r.1)
      (srv.protectResponseWithOptions resp sender params) := by
  unfold protectResponseWithOptions
  split
  · split
    · exact .refl resp
    · exact srv.protect_yields _ _
  · split
    · exact .refl resp
    · exact srv.protect_yields _ _
    · exact .refl resp

section

variable {srv} {tr : History}

@[simp] lemma not_sealed_nil : ¬ Sealed [] := by simp [Sealed]

@[simp] lemma sealed_cons_iff {e : ServerEvent} :
    Sealed (e :: tr) ↔ isSealed e ∨ Sealed tr := by simp [Sealed]

@[simp] lemma sealed_append_iff {tr' : History} : Sealed (tr ++ tr') ↔ Sealed tr ∨ Sealed tr' := by
  simp [Sealed, or_and_right, exists_or]

/-- `Protect` returns without an error exactly when it has computed the protection. -/
lemma protect_sealed {creds : Credentials} {m : PKIMessage} {r : PKIMessage × Option GoError}
    (hs : Prog.Steps (srv.protect creds m) tr (.ret r)) : r.2 = none ↔ Sealed tr := by
  obtain ⟨tr1, tr2, salt, rfl, h1, h2⟩ := hs.of_bind
  -- the salt is drawn before, if at all
  have hsalt : ¬ Sealed tr1 := by
    have honly : Prog.Only (· = .random) (freshSalt creds) := by
      cases creds
      · exact ⟨rfl, fun _ => trivial⟩
      · trivial
    rintro ⟨⟨o, x⟩, hmem, h⟩
    obtain rfl : o = .random := honly.mem_steps h1 hmem
    cases h
  split at h2
  · obtain ⟨rfl, ⟨⟩⟩ := h2.of_ret
    simp [hsalt]
  · obtain ⟨x, tr', rfl, hk⟩ := h2.of_call
    cases x with
    | error e =>
      obtain ⟨rfl, ⟨⟩⟩ := hk.of_ret
      simp [hsalt, isSealed]
    | ok p =>
      obtain ⟨rfl, ⟨⟩⟩ := hk.of_ret
      simp [isSealed]

/-- Protecting a response ends with an error exactly when its protection has failed. -/
lemma protectResponse_sealed {resp : PKIMessage} {sender : Option SenderIdentity}
    {params : Option MACCredentialOption} {r : PKIMessage × Option GoError}
    (hs : Prog.Steps (srv.protectResponseWithOptions resp sender params) tr (.ret r)) :
    r.2 ≠ none ↔ srv.Unprotected sender tr := by
  have hfails : ∀ {e : GoError}, srv.protects sender →
      Prog.Steps (pure (resp, some e)) tr (.ret r) → (r.2 ≠ none ↔ srv.Unprotected sender tr) := by
    intro e hp hs
    obtain ⟨rfl, ⟨⟩⟩ := hs.of_ret
    simp [Unprotected, hp]
  have hcreds : ∀ {creds : Credentials}, srv.protects sender →
      Prog.Steps (srv.protect creds resp) tr (.ret r) →
        (r.2 ≠ none ↔ srv.Unprotected sender tr) := by
    intro creds hp hs
    rw [Unprotected, ne_eq, protect_sealed hs]
    simp [hp]
  unfold protectResponseWithOptions at hs
  split at hs
  · next s hsome =>
    obtain ⟨rfl, hs'⟩ := Option.filter_eq_some_iff.mp hsome
    have hp : srv.protects (some s) := by
      unfold protects
      rw [Option.any_some, hs']
      rfl
    split at hs
    · exact hfails hp hs
    · exact hcreds hp hs
  · next hnone =>
    split at hs
    · next e _ he => exact hfails (by simp [protects, he]) hs
    · next creds _ hc => exact hcreds (by simp [protects, hc]) hs
    · next he hc =>
      obtain ⟨rfl, ⟨⟩⟩ := hs.of_ret
      have hp : srv.protects sender = false := by
        cases sender with
        | none => simp [protects, he, hc]
        | some s =>
          rw [Option.filter_some] at hnone
          split_ifs at hnone with hs'
          rw [protects, Option.any_some, he, hc, eq_false_of_ne_true hs']
          rfl
      simp [Unprotected, hp]

end

/-- The response belongs to the request.  It has the body it was built with, unless its
protection has failed; then it is replaced by the error about it. -/
structure Answers (sender : Option SenderIdentity) (tr : History) (req : PKIMessage)
    (body : PKIBody) (resp : PKIMessage) : Prop where
  transactionID : resp.header.transactionID = req.header.transactionID
  recipNonce : resp.header.recipNonce = req.header.senderNonce
  senderNonce : resp.header.senderNonce.length = 16
  body : ¬ srv.Unprotected sender tr → resp.body = body
  replaced : srv.Unprotected sender tr → ∃ resp', resp = protectionUnavailable resp'

variable {srv} in
/-- A response has its body, or it is the error about the protection. -/
lemma Answers.cases {sender : Option SenderIdentity} {tr : History} {req resp : PKIMessage}
    {body : PKIBody} (h : srv.Answers sender tr req body resp) :
    resp.body = body ∨ ∃ resp', resp = protectionUnavailable resp' := by
  by_cases hu : srv.Unprotected sender tr
  · exact .inr (h.replaced hu)
  · exact .inl (h.body hu)

variable {srv} in
/-- Of the operations only the seals matter. -/
lemma Answers.congr {sender : Option SenderIdentity} {tr tr' : History} {req resp : PKIMessage}
    {body : PKIBody} (h : srv.Answers sender tr req body resp) (hiff : Sealed tr' ↔ Sealed tr) :
    srv.Answers sender tr' req body resp where
  transactionID := h.transactionID
  recipNonce := h.recipNonce
  senderNonce := h.senderNonce
  body := by
    intro hu
    rw [Unprotected, hiff] at hu
    exact h.body hu
  replaced := by
    intro hu
    rw [Unprotected, hiff] at hu
    exact h.replaced hu

section

variable {srv} {tr : History} {req resp : PKIMessage} {body : PKIBody}
  {sender : Option SenderIdentity} {params : Option MACCredentialOption}

lemma buildResponseInternal_steps {info : List InfoTypeAndValue}
    (hs : Prog.Steps (srv.buildResponseInternal req body sender info params) tr (.ret resp)) :
    srv.Answers sender tr req body resp ∧ resp.header.generalInfo = info := by
  unfold buildResponseInternal at hs
  obtain ⟨nonce, tr', rfl, hn⟩ := hs.of_call
  obtain ⟨now, tr'', rfl, hc⟩ := hn.of_call
  obtain ⟨tr1, tr2, ⟨m, err⟩, rfl, h1, h2⟩ := hc.of_bind
  obtain ⟨_, _, _, _, _, _, _, rfl⟩ := (srv.protectResponse_yields _ sender _).steps h1
  have hiff := protectResponse_sealed h1
  cases err with
  | none =>
    obtain ⟨rfl, ⟨⟩⟩ := h2.of_ret
    have hok : ¬ srv.Unprotected sender tr1 := by simpa using hiff
    refine ⟨⟨rfl, rfl, nonce.2, fun _ => rfl, fun h => absurd h ?_⟩, rfl⟩
    simpa [Unprotected, isSealed] using hok
  | some e =>
    obtain ⟨rfl, ⟨⟩⟩ := h2.of_ret
    have hfailed : srv.Unprotected sender tr1 := by simpa using hiff
    refine ⟨⟨rfl, rfl, nonce.2, fun h => absurd ?_ h, fun _ => ⟨_, rfl⟩⟩, rfl⟩
    simpa [Unprotected, isSealed] using hfailed

/-- A response whose generalInfo is read off the clock first. -/
lemma answers_of_steps {i : ServerProg (List InfoTypeAndValue)} (hi : Prog.Only (· = .now) i)
    (hs : Prog.Steps (i >>= fun info => srv.buildResponseInternal req body sender info params) tr
      (.ret resp)) : srv.Answers sender tr req body resp := by
  obtain ⟨tr1, tr2, info, rfl, h1, h2⟩ := hs.of_bind
  have hnone : ¬ Sealed tr1 := by
    rintro ⟨⟨o, x⟩, hmem, h⟩
    obtain rfl : o = .now := hi.mem_steps h1 hmem
    cases h
  exact (buildResponseInternal_steps h2).1.congr (by simp [hnone])

end

end Server

end PkiCmp
