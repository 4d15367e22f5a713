/-
The operations of the CMP client: enrollment, polling, confirmation and
revocation (`client/transport.go`, `client/crmf.go`, `client/p10cr.go`,
`client/rr.go`).

An operation that reads through a nil pointer returns nothing: the source
panics there.

* `Client.poll`: the polling loop;
* `Client.enroll`, `Client.sendCRMF`, `Client.sendP10CR`;
* `Client.sendRR`.
-/
import PkiCmp.Client.Transport

namespace PkiCmp

open Der Interact

namespace Client

variable (c : Client)

/-! ### Polling -/

/-- 64-bit wrap-around. -/
def wrap64 (v : ℤ) : ℤ := Int.bmod v (2 ^ 64)

/-- `clampCheckAfter`. -/
def clampCheckAfter (seconds : ℤ) : Duration :=
  if seconds ≤ 0 then c.minCheckAfter
  else if wrap64 (c.maxCheckAfter.tdiv Time.second + 1) ≤ seconds then c.maxCheckAfter
  else
    let wait := wrap64 (seconds * Time.second)
    if wait < c.minCheckAfter then c.minCheckAfter
    else if c.maxCheckAfter < wait then c.maxCheckAfter
    else wait

/-- The results of `poll`. -/
structure PollResult where
  reply : Option CmpHTTPResponse := none
  verified : Option VerifyResult := none
  err : Option GoError := none

/-- Wait before every poll but the first. -/
def pause (i : ℕ) (waitTime : Duration) : ClientProg (Option GoError) :=
  if i = 0 then pure none
  else do
    let done : Option GoError ← request (.wait waitTime)
    pure (done.map fun e =>
      .clientWrapped (str "waiting " ++ Time.durationString waitTime ++ str " before poll " ++
        decimal (i + 1)) e)

/-- What follows a verified reply to a poll: the end of the loop, or the time to
wait. -/
def pollReply (reply : CmpHTTPResponse) (vr : VerifyResult) : PollResult ⊕ Duration :=
  match checkVersion reply with
  | some e => .inl { err := some e }
  | none =>
    if reply.message.body.type = BodyTypeError then
      .inl { err := wrapError reply.statusCode (parseErrorResponse reply.message) }
    else if reply.message.body.type = BodyTypePollRep then
      match reply.message.body.getPollRep with
      | .error e => .inl { err := some e }
      | .ok items => .inr (c.clampCheckAfter ((items.head?.map PollRepItem.checkAfter).getD 0))
    else .inl { reply := some reply, verified := some vr }

/-- The loop of `poll`, with the number of polls that are left. -/
def pollLoop (first : PKIHeader) (creds : Credentials) (certReqID : ℤ) :
    ℕ → ℕ → PKIMessage → Duration → Option Certificate → ClientProg PollResult
  | 0, _, _, _, _ =>
    pure { err := some (.client (str "polling exceeded max retries (" ++ decimal c.maxPolls ++
      str ")")) }
  | left + 1, i, lastResp, waitTime, knownSigner => do
      let done ← pause i waitTime
      match done with
      | some e => pure { err := some e }
      | none => do
          let m ← c.followUp "protect poll request" first lastResp (.pollReq [certReqID]) creds
          match m with
          | .error e => pure { err := some e }
          | .ok pollMsg => do
              let r ← c.exchange
                { awaited := .poll, marshalOp := "marshal poll request",
                  parseOp := "parse polled response", verifyOp := "verify polled response" }
                pollMsg creds c.trustedCAs knownSigner fun resp =>
                  -- a pollRep may echo no nonce, another reply the one of the first request
                  if resp.body.type = BodyTypePollRep then some [] else some first.senderNonce
              match r with
              | .error e => pure { err := some e }
              | .ok (reply, vr) =>
                match c.pollReply reply vr with
                | .inl result => pure result
                | .inr waitTime =>
                  pollLoop first creds certReqID left (i + 1) reply.message waitTime
                    (vr.protectionCertificate.or knownSigner)

/-- `poll`. -/
def poll (first : PKIHeader) (lastResp : PKIMessage) (creds : Credentials) (certReqID : ℤ)
    (knownSigner : Option Certificate) : ClientProg PollResult :=
  c.pollLoop first creds certReqID c.maxPolls.toNat 0 lastResp 0 knownSigner

/-! ### The reply to a certificate request -/

/-- `answeringCertReqIDs`. -/
def answeringCertReqIDs (body : PKIBody) : Except GoError (List ℤ) :=
  if body.type = BodyTypeP10CR then .ok [-1, 0]
  else match body.getCertReqMessages with
    | .error e => .error (.clientWrapped (str "read certReqId from request") e)
    | .ok msgs => .ok (msgs.map fun m => m.certReq.certReqID)

/-- `checkCertReqID`. -/
def checkCertReqID (resp : CertResponse) (ids : List ℤ) : Option GoError :=
  if resp.certReqID ∈ ids then none
  else some (.client (str "response certReqId " ++ decimal resp.certReqID ++
    str " does not match the request"))

/-- The certificate response of the expected type. -/
def certRep (resp : PKIMessage) (expected : BodyType) : Except GoError CertRepMessage :=
  if expected = BodyTypeIP then resp.body.getIP
  else if expected = BodyTypeCP then resp.body.getCP
  else if expected = BodyTypeKUP then resp.body.getKUP
  else .error (.client (str "unsupported expected response type " ++ decimal expected.toNat))

/-- `extractCertRespAndRep`. -/
def extractCertRespAndRep (resp : PKIMessage) (expected : BodyType) :
    Except GoError (CertResponse × CertRepMessage) := do
  let rep ← certRep resp expected
  match rep.response with
  | [] => .error (.client (str "empty response"))
  | [r] => .ok (r, rep)
  | rs => .error (.client (str "response carries " ++ decimal rs.length ++
      str " CertResponse entries for one request"))

/-- `extractCertificate`. -/
def extractCertificate (resp : CertResponse) : Except GoError Certificate :=
  match resp.certifiedKeyPair with
  | none => .error (.client (str "missing certifiedKeyPair in response"))
  | some pair =>
    match pair.certOrEncCert with
    | .certificate cert => c.crypto.parseCertificate cert.raw
    | .encryptedCert _ => .error (.client (str "encrypted certificates not yet supported"))

/-- `parseCMPCertificates`. -/
def parseCMPCertificates (certs : List CMPCertificate) : List Certificate :=
  certs.filterMap fun k => (c.crypto.parseCertificate k.raw).toOption

/-- `enrollmentTrustPool`. -/
def enrollmentTrustPool (vr : Option VerifyResult) (caPubs : List Certificate) :
    Option (List Certificate) :=
  if vr.any VerifyResult.macVerified ∧ caPubs ≠ [] then some (c.trustedCAs.getD [] ++ caPubs)
  else c.trustedCAs

/-- `checkIssuedKey`. -/
def checkIssuedKey (cert : Certificate) (requested : Option PublicKey) : Option GoError :=
  match requested with
  | none => none
  | some requested =>
    let issued := match cert.publicKey with
      | some k => some k
      | none => (c.crypto.parsePKIXPublicKey cert.rawSubjectPublicKeyInfo).toOption
    match issued with
    | none => some (incomparable "<nil>")
    | some k =>
      -- a DSA key has no method to compare it
      if k.type = .other then some (incomparable "*dsa.PublicKey")
      else if k ≠ requested then
        some (.client (str "issued certificate does not certify the requested public key"))
      else none
where
  incomparable (type : String) : GoError :=
    .client (str ("cannot compare issued certificate public key of type " ++ type ++
      " with the requested key"))

/-! ### Confirmation -/

/-- `certConfirmation`. -/
structure CertConfirmation where
  req : PKIMessage
  resp : PKIMessage
  creds : Credentials
  trustPool : Option (List Certificate)
  knownSigner : Option Certificate

/-- What follows a verified reply to a certConf. -/
def certConfReply (reply : CmpHTTPResponse) : Option GoError :=
  if reply.message.body.type = BodyTypeError then
    wrapError reply.statusCode (parseErrorResponse reply.message)
  else if reply.message.body.type ≠ BodyTypePKIConf then
    some (addStatus reply.statusCode (.client (str "expected PKIConf but got body type " ++
      decimal reply.message.body.type.toNat)))
  else none

/-- `sendCertConf`. -/
def sendCertConf (conf : CertConfirmation) (status : CertStatus) :
    ClientProg (Option GoError) := do
  let m ← c.followUp "protect certConf" conf.req.header conf.resp (.certConf [status]) conf.creds
  match m with
  | .error e => pure (some e)
  | .ok confMsg => do
      let r ← c.exchange
        { awaited := .pkiConf status.statusInfo.isSome, marshalOp := "marshal certConf",
          parseOp := "parse PKIConf", verifyOp := "verify PKIConf",
          sendError := .clientWrapped (str "certConf exchange") }
        confMsg conf.creds conf.trustPool conf.knownSigner fun _ => none
      match r with
      | .error e => pure (some e)
      | .ok (reply, _) => pure (certConfReply reply)

/-- `rejectCertificate`: the reason, with what went wrong in reporting it. -/
def rejectCertificate (conf : CertConfirmation) (cert : Certificate) (certReqID : ℤ)
    (text : String) (reason : GoError) : ClientProg GoError := do
  let unconfirmed (e : GoError) : GoError :=
    .annotated reason (str " (rejection not confirmed by the CA: " ++ e.Error ++ str ")")
  match newCertStatus c.crypto cert certReqID with
  | .error e => pure (unconfirmed e)
  | .ok status => do
      let status : CertStatus :=
        { status with statusInfo := some { status := StatusRejection, statusString := [str text] } }
      let err ← c.sendCertConf conf status
      match err with
      | some e => pure (unconfirmed e)
      | none => pure reason

/-! ### Enrollment -/

/-- `EnrollResult`. -/
structure EnrollResult where
  certificate : Certificate
  caPubs : List Certificate
  extraCertificates : List Certificate
  deriving DecidableEq, Repr

/-- The results of an enrollment; nothing when it panics. -/
abbrev EnrollOutcome := Option (Option EnrollResult × Option GoError)

/-- An enrollment that ends with an error. -/
def EnrollOutcome.failed (e : GoError) : EnrollOutcome := some (none, some e)

/-- `verifyIssuedCertificate`, when there is a pool. -/
def verifyIssuedCertificate (cert : Certificate) (trustPool : Option (List Certificate))
    (candidates : List Certificate) : ClientProg (Option GoError) :=
  match trustPool with
  | none => pure none
  | some roots => do
      let now : Time ← request .now
      match c.crypto.verifyPath cert roots candidates now with
      | .ok _ => pure none
      | .error e => pure (some e)

/-- The first check that an issued certificate fails, with the text it is
rejected with. -/
def refusal (cert : Certificate) (certResp : CertResponse) (ids : List ℤ)
    (requestedKey : Option PublicKey) (trustPool : Option (List Certificate))
    (candidates : List Certificate) : ClientProg (Option (String × GoError)) :=
  match checkCertReqID certResp ids with
  | some e => pure (some ("certReqId does not match the request", e))
  | none => do
      let untrusted ← c.verifyIssuedCertificate cert trustPool candidates
      match untrusted with
      | some e =>
        pure (some ("certificate validation failed",
          .clientWrapped (str "verify certificate trust") e))
      | none =>
        pure ((c.checkIssuedKey cert requestedKey).map fun e =>
          ("certificate does not certify the requested public key", e))

/-- The end of `enroll`: a certificate was issued, or the status is an error. -/
def enrollIssued (msg : PKIMessage) (ids : List ℤ) (creds : Credentials)
    (requestedKey : Option PublicKey) (reply : CmpHTTPResponse) (vr : Option VerifyResult)
    (knownSigner : Option Certificate) (certResp : CertResponse) (rep : CertRepMessage) :
    ClientProg EnrollOutcome :=
  if certResp.status.status ≠ StatusAccepted ∧ certResp.status.status ≠ StatusGrantedWithMods then
    pure (some (none, wrapError reply.statusCode certResp.status.asError))
  else match c.extractCertificate certResp with
    | .error e => pure (.failed (addStatus reply.statusCode e))
    | .ok cert => do
        let caPubs := c.parseCMPCertificates rep.caPubs
        let extraCerts := c.parseCMPCertificates reply.message.extraCerts
        let trustPool := c.enrollmentTrustPool vr caPubs
        let conf : CertConfirmation :=
          { req := msg, resp := reply.message, creds, trustPool, knownSigner }
        let refused ← c.refusal cert certResp ids requestedKey trustPool (extraCerts ++ caPubs)
        match refused with
        | some (text, e) => do
            let reason ← c.rejectCertificate conf cert certResp.certReqID text
              (addStatus reply.statusCode e)
            pure (.failed reason)
        | none =>
          match newCertStatus c.crypto cert certResp.certReqID with
          | .error e =>
            pure (.failed (addStatus reply.statusCode
              (.clientWrapped (str "compute certHash") e)))
          | .ok status => do
              let err ← c.sendCertConf conf status
              match err with
              | some e => pure (.failed e)
              | none => pure (some (some ⟨cert, caPubs, extraCerts⟩, none))

/-- `enroll` after the first reply. -/
def enrollReply (msg : PKIMessage) (ids : List ℤ) (expected : BodyType) (creds : Credentials)
    (requestedKey : Option PublicKey) (reply : CmpHTTPResponse) (vr : VerifyResult) :
    ClientProg EnrollOutcome :=
  let resp := reply.message
  let failed (e : GoError) : ClientProg EnrollOutcome :=
    pure (.failed (addStatus reply.statusCode e))
  if resp.body.type = BodyTypeError then
    pure (some (none, wrapError reply.statusCode (parseErrorResponse resp)))
  else if resp.body.type ≠ expected then
    failed (.client (str "unexpected response body type: " ++ decimal resp.body.type.toNat))
  else match extractCertRespAndRep resp expected with
    | .error e => failed e
    | .ok (certResp, rep) =>
      if certResp.status.status ≠ StatusWaiting then
        c.enrollIssued msg ids creds requestedKey reply (some vr) vr.protectionCertificate
          certResp rep
      else match checkCertReqID certResp ids with
        | some e => failed e
        | none => do
            let polled ← c.poll msg.header resp creds certResp.certReqID vr.protectionCertificate
            match polled.err, polled.reply with
            | some e, _ => pure (.failed e)
            | none, none => pure none
            | none, some reply =>
              match extractCertRespAndRep reply.message expected with
              | .error e => pure (.failed (addStatus reply.statusCode e))
              | .ok (certResp, rep) =>
                c.enrollIssued msg ids creds requestedKey reply polled.verified
                  ((polled.verified.bind VerifyResult.protectionCertificate).or
                    vr.protectionCertificate)
                  certResp rep

/-- `enroll`. -/
def enroll (reqBody : PKIBody) (expected : BodyType) (creds : Option Credentials)
    (opts : RequestOptions) (requestedKey : Option PublicKey) : ClientProg EnrollOutcome :=
  match answeringCertReqIDs reqBody, creds with
  | .error e, _ => pure (.failed e)
  | .ok _, none => pure (.failed noCredentials)
  | .ok ids, some creds => do
      let m ← c.newRequest reqBody creds opts
      match m with
      | .error e => pure (.failed e)
      | .ok msg => do
          let r ← c.exchangeFirst msg creds
          match r with
          | .error e => pure (.failed e)
          | .ok (reply, vr) => c.enrollReply msg ids expected creds requestedKey reply vr

/-- The template of a CRMF request. -/
def crmfTemplate (pubDER : Bytes) (opts : RequestOptions) : Except GoError CertTemplate :=
  let tmpl : CertTemplate :=
    { publicKey := pubDER, subject := (opts.templateSubject.map newDirectoryName).getD {} }
  if opts.templateExts = [] then .ok tmpl
  else match marshalExtensions opts.templateExts with
    | .error e => .error (.clientWrapped (str "marshal extensions") e)
    | .ok extensions => .ok { tmpl with extensions }

/-- The controls of a CRMF request: a key update names the old certificate. -/
def crmfControls (expected : BodyType) (creds : Option Credentials) (opts : RequestOptions) :
    Except GoError (List Control) :=
  let old := opts.oldCertificate.or (match creds with
    | some (.signature _ cert _) => some cert
    | _ => none)
  match if expected = BodyTypeKUP then old else none with
  | none => .ok []
  | some cert =>
    match newOldCertIDControl cert with
    | .error e => .error (.clientWrapped (str "encode oldCertID") e)
    | .ok control => .ok [control]

/-- The body of a CRMF request. -/
def crmfBody (key : Signer) (creds : Option Credentials) (expected : BodyType)
    (opts : RequestOptions) : Except GoError PKIBody :=
  match c.crypto.marshalPKIXPublicKey (some key.pub) with
  | .error e => .error (.clientWrapped (str "marshal public key") e)
  | .ok pubDER => do
      let certTemplate ← crmfTemplate pubDER opts
      let controls ← crmfControls expected creds opts
      let certReq : CertRequest := { certReqID := 0, certTemplate, controls }
      match ({ certReq } : CertReqMsg).generatePOP c.crypto key with
      | .error e => .error (.clientWrapped (str "generate POP") e)
      | .ok m =>
        if expected = BodyTypeIP then .ok (.ir [m])
        else if expected = BodyTypeCP then .ok (.cr [m])
        else if expected = BodyTypeKUP then .ok (.kur [m])
        else .error (.client (str "unsupported CRMF expected response type " ++
          decimal expected.toNat))

/-- `sendCRMF`. -/
def sendCRMF (key : Signer) (creds : Option Credentials) (expected : BodyType)
    (opts : RequestOptions) : ClientProg EnrollOutcome :=
  match c.crmfBody key creds expected opts with
  | .error e => pure (.failed e)
  | .ok body => c.enroll body expected creds opts (some key.pub)

/-- `SendIR`. -/
def sendIR (key : Signer) (creds : Option Credentials) (opts : RequestOptions) :
    ClientProg EnrollOutcome :=
  c.sendCRMF key creds BodyTypeIP opts

/-- `SendCR`. -/
def sendCR (key : Signer) (creds : Option Credentials) (opts : RequestOptions) :
    ClientProg EnrollOutcome :=
  c.sendCRMF key creds BodyTypeCP opts

/-- `SendKUR`. -/
def sendKUR (key : Signer) (creds : Option Credentials) (opts : RequestOptions) :
    ClientProg EnrollOutcome :=
  c.sendCRMF key creds BodyTypeKUP opts

/-- `SendP10CR`. -/
def sendP10CR (csrDER : Bytes) (creds : Option Credentials) (opts : RequestOptions) :
    ClientProg EnrollOutcome :=
  match c.crypto.parseCertificateRequest csrDER with
  | .error e => pure (.failed e)
  | .ok csr =>
    match c.crypto.parsePKIXPublicKey csr.rawSubjectPublicKeyInfo with
    | .error e => pure (.failed e)
    | .ok key => c.enroll (.p10cr csr) BodyTypeCP creds opts (some key)

/-! ### Revocation -/

/-- What `SendRR` makes of the final reply. -/
def revocationReply (reply : CmpHTTPResponse) : Option GoError :=
  let resp := reply.message
  if resp.body.type ≠ BodyTypeRP then
    some (addStatus reply.statusCode
      (.client (str "unexpected response body type: " ++ bodyTypeName resp.body.type)))
  else match resp.body.getRP with
    | .error e =>
      some (addStatus reply.statusCode (.clientWrapped (str "parse revocation response") e))
    | .ok rep =>
      match rep.status with
      | [si] => si.asError.map (addStatus reply.statusCode)
      | sis => some (addStatus reply.statusCode (.client (str "revocation response carries " ++
          decimal sis.length ++ str " statuses for one request")))

/-- `SendRR` after the first reply; nothing when it panics. -/
def revocationFirst (msg : PKIMessage) (creds : Credentials) (reply : CmpHTTPResponse)
    (vr : VerifyResult) : ClientProg (Option (Option GoError)) :=
  let resp := reply.message
  if resp.body.type ≠ BodyTypeError then pure (some (revocationReply reply))
  else if !(parseErrorResponse resp).any GoError.isWaiting then
    pure (some (wrapError reply.statusCode (parseErrorResponse resp)))
  else do
    let polled ← c.poll msg.header resp creds (-1) vr.protectionCertificate
    match polled.err, polled.reply with
    | some e, _ => pure (some (some e))
    | none, none => pure none
    | none, some reply => pure (some (revocationReply reply))

/-- `SendRR`. -/
def sendRR (cert : Option Certificate) (reason : ℤ) (creds : Option Credentials)
    (opts : RequestOptions) : ClientProg (Option (Option GoError)) :=
  match newRevDetails cert reason, creds with
  | .error e, _ => pure (some (some (.clientWrapped (str "build revocation request") e)))
  | .ok _, none => pure (some (some noCredentials))
  | .ok details, some creds => do
      let m ← c.newRequest (.rr [details]) creds opts
      match m with
      | .error e => pure (some (some e))
      | .ok msg => do
          let r ← c.exchangeFirst msg creds
          match r with
          | .error e => pure (some (some e))
          | .ok (reply, vr) => c.revocationFirst msg creds reply vr

end Client

end PkiCmp
