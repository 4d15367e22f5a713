/-
From the HTTP request to the answer (`server/server.go`, `server/nested.go`,
`verifyProtection` of `server/protection.go`).

* `verifyRecipient`, `verifyProtection`, `validateHeader`: the checks, in the
  order `process` makes them;
* `process`, `handleNested`: mutually recursive in the source; here `process`
  takes a bound on the nesting, and one level is always enough
  (`processMessage`);
* `serveHTTP`, `cleanupExpired`: the entry points.
-/
import PkiCmp.Server.Response

namespace PkiCmp

open Der Interact

namespace Server

variable (srv : Server)

/-! ### Checks -/

/-- The name the server goes by, if it has one. -/
def identityName : Option Name :=
  if srv.hasSenderName then some srv.cfg.sender else srv.cfg.signerCert.map Certificate.subject

/-- `verifyRecipient`. -/
def verifyRecipient (msg : PKIMessage) : Except GoError Unit :=
  match srv.identityName with
  | none => .ok ()
  | some serverName =>
    if msg.header.recipient.directoryName = [] then .ok ()
    else if (Name.fillFromRDNSequence msg.header.recipient.directoryName).string
        ≠ serverName.string then
      .error (rejection FailBadRequest (str "recipient does not match server identity"))
    else .ok ()

/-- `isMACAlgorithm`. -/
def isMACAlgorithm (oid : OID) : Bool := oid = oidPasswordBasedMac || oid = oidPBMAC1

/-- `isUnsupportedAlgorithm`. -/
def isUnsupportedAlgorithm (err : GoError) : Bool :=
  err.asVerificationError = some .unsupportedAlgorithm

/-- A name from a header field; without a directory name it is empty. -/
def headerName (n : GeneralName) : Name :=
  if n.directoryName ≠ [] then Name.fillFromRDNSequence n.directoryName else {}

/-- The part of `verifyProtection` for a MAC. -/
def verifyMAC (v : Verifier) (msg : PKIMessage) : Except GoError SenderIdentity :=
  if !srv.cfg.secretLookup then
    .error (rejection FailBadMessageCheck (str "MAC protection not configured"))
  else
    let senderName := headerName msg.header.sender
    match v.lookupSecret senderName msg.header.senderKID with
    | .error _ => .error (rejection FailBadMessageCheck (str "unknown sender"))
    | .ok secret =>
      match msg.verify srv.crypto { sharedSecret := secret } v.now with
      | .error e =>
        if isUnsupportedAlgorithm e then
          .error (rejection FailBadAlg (str "unsupported protection algorithm"))
        else .error (rejection FailBadMessageCheck (str "MAC verification failed"))
      | .ok vr =>
        .ok { sender := senderName, senderKID := msg.header.senderKID, macVerified := true,
              secret, protectionParams := vr.protectionParams,
              headerSender := msg.header.sender }

/-- The part of `verifyProtection` for a signature. -/
def verifySigned (v : Verifier) (msg : PKIMessage) : Except GoError SenderIdentity :=
  if !srv.cfg.certificateLookup then
    .error (rejection FailSignerNotTrusted (str "signature protection not configured"))
  else
    let senderName := headerName msg.header.sender
    match v.lookupCertificate (headerName msg.header.recipient) senderName msg.header.senderKID with
    | .error _ => .error (rejection FailSignerNotTrusted (str "unknown sender"))
    | .ok signerCert =>
      let opts : VerifyOptions :=
        { trustedCert := some signerCert, allowSHA1Signatures := srv.cfg.allowSHA1Signatures }
      match msg.verify srv.crypto opts v.now with
      | .error e =>
        if e.asVerificationError = some .senderMismatch then
          .error (rejection FailBadMessageCheck
            (str "sender does not match the certificate that signed the message"))
        else if isUnsupportedAlgorithm e then
          .error (rejection FailBadAlg (str "unsupported protection algorithm"))
        else .error (rejection FailSignerNotTrusted (str "signature verification failed"))
      | .ok _ => .ok { certificate := some signerCert, sender := senderName }

/-- `verifyProtection`. -/
def verifyProtection (v : Verifier) (msg : PKIMessage) : Except GoError SenderIdentity :=
  match msg.header.protectionAlg with
  | none => .error (rejection FailBadMessageCheck (str "message not protected"))
  | some alg =>
    if msg.protection = [] then
      .error (rejection FailBadMessageCheck (str "message not protected"))
    else if isMACAlgorithm alg.algorithm then srv.verifyMAC v msg
    else srv.verifySigned v msg

/-- `validateProfileSender`. -/
def validateProfileSender (msg : PKIMessage) (sender : SenderIdentity) : Except GoError Unit :=
  if sender.macVerified ∧ msg.body.type ≠ BodyTypeNested ∧ msg.header.sender.directoryName = [] then
    .error (.text (str "MAC protection requires directoryName sender"))
  else .ok ()

/-- Each certificate is signed by the next one and the last one by itself. -/
def checkChain (certs : List Certificate) : Except GoError Unit :=
  match certs with
  | [] => .ok ()
  | [last] =>
    match srv.crypto.checkSignatureFrom last last with
    | .ok _ => .ok ()
    | .error _ => .error (.text (str "incomplete certificate chain in extraCerts"))
  | c :: parent :: rest =>
    match srv.crypto.checkSignatureFrom c parent with
    | .ok _ => checkChain (parent :: rest)
    | .error _ => .error (.text (str "extraCerts is not an ordered certificate chain"))

/-- `validateProfileExtraCerts`. -/
def validateProfileExtraCerts (msg : PKIMessage) (sender : SenderIdentity) : Except GoError Unit :=
  if sender.macVerified then .ok ()
  else if !isInitialRequest msg.body.type && msg.body.type ≠ BodyTypeNested then .ok ()
  else if msg.extraCerts = [] then
    .error (.text (str "signature protection without extraCerts"))
  else match msg.extraCerts.mapM fun c => (srv.crypto.parseCertificate c.raw).toOption with
    | none => .error (.text (str "undecodable certificate in extraCerts"))
    | some certs =>
      if sender.certificate.any fun c => certs.head?.any fun h => h.raw ≠ c.raw then
        .error (.text
          (str "first certificate in extraCerts is not the CMP protection certificate"))
      else srv.checkChain certs

/-- The profile rules, when they are enforced. -/
def validateProfile (msg : PKIMessage) (sender : SenderIdentity) : Except GoError Unit :=
  if srv.cfg.strictProfile then do
    validateProfileSender msg sender
    srv.validateProfileExtraCerts msg sender
  else .ok ()

/-- The profile's rules on the sender nonce. -/
def checkSenderNonce (msg : PKIMessage) : Except GoError Unit :=
  if srv.cfg.strictProfile then
    if msg.header.senderNonce = [] then
      .error (rejection FailBadSenderNonce (str "missing senderNonce"))
    else if msg.header.senderNonce.length < 16 then
      .error (rejection FailBadSenderNonce (str "senderNonce too short"))
    else .ok ()
  else .ok ()

/-- The check of the message time against the clock. -/
def checkMessageTime (msg : PKIMessage) : ServerProg (Except GoError Unit) :=
  if 0 < srv.cfg.messageTimeTolerance && msg.header.hasMessageTime then do
    let now : Time ← perform .now
    if msg.header.messageTime.before (now - srv.cfg.messageTimeTolerance) ||
        (now + srv.cfg.messageTimeTolerance).before msg.header.messageTime then
      pure (.error (rejection FailBadTime (str "messageTime outside allowed tolerance")))
    else pure (.ok ())
  else pure (.ok ())

/-- The lock on the transactionID, taken by an initial request. -/
def startTransaction (msg : PKIMessage) (sender : SenderIdentity) :
    ServerProg (Except GoError Unit) :=
  match sender.credentialID srv.crypto with
  | .error _ => pure (.error (rejection FailBadMessageCheck (str "invalid sender credentials")))
  | .ok credID =>
    if isInitialRequest msg.body.type then do
      let r ← srv.tracker.startIfAbsent credID msg.header.transactionID
      match r with
      | .error e => pure (.error (rejection FailSystemUnavail e.Error))
      | .ok true =>
        pure (.error (rejection FailTransactionIdInUse (str "transactionID already in use")))
      | .ok false => pure (.ok ())
    else pure (.ok ())

/-- The checks of `validateHeader` after the transactionID is known. -/
def validateFields (msg : PKIMessage) (sender : SenderIdentity) :
    ServerProg (Except GoError Unit) :=
  match srv.checkSenderNonce msg with
  | .error e => pure (.error e)
  | .ok _ => do
      let r ← srv.checkMessageTime msg
      match r with
      | .error e => pure (.error e)
      | .ok _ =>
        if isInitialRequest msg.body.type && msg.header.recipNonce ≠ [] then
          pure (.error (rejection FailBadRecipientNonce (str "recipNonce in first message")))
        else srv.startTransaction msg sender

/-- `validateHeader`; the message comes back with the transactionID it has from
then on. -/
def validateHeader (msg : PKIMessage) (sender : SenderIdentity) :
    ServerProg (PKIMessage × Except GoError Unit) :=
  if msg.header.transactionID = [] then
    if srv.cfg.strictProfile || !isInitialRequest msg.body.type then
      pure (msg, .error (rejection FailBadDataFormat (str "missing transactionID")))
    else do
      let id : Random ← perform .random
      let msg := { msg with header := { msg.header with transactionID := id.1 } }
      let r ← srv.validateFields msg sender
      pure (msg, r)
  else do
    let r ← srv.validateFields msg sender
    pure (msg, r)

/-! ### Processing -/

/-- `forwarding`. -/
structure Forwarding where
  msg : PKIMessage
  ra : SenderIdentity

/-- The branches of `process` by body type. -/
def dispatch (msg : PKIMessage) (sender : SenderIdentity) : ServerThread :=
  let ctx : Ctx := { sha1Signatures := srv.cfg.allowSHA1Signatures }
  if isCertRequest msg.body.type then srv.handleCertRequest ctx msg sender
  else if msg.body.type = BodyTypeCertConf then srv.handleCertConf ctx msg sender
  else if msg.body.type = BodyTypePollReq then srv.handlePollReq ctx msg sender
  else if msg.body.type = BodyTypeRR then srv.handleRevocation ctx msg sender
  else if msg.body.type = BodyTypeError then do
    let resp ← srv.buildResponse msg .pkiConf sender
    pure (some resp)
  else srv.reject msg sender FailBadRequest []

/-- The answer to a message with another version: it is protected with the
version of the request and then given the closest supported one. -/
def answerVersion (msg : PKIMessage) : ServerThread := do
  let resp ← srv.buildErrorResponse msg none
    { status := StatusRejection, failInfo := FailUnsupportedVersion }
  pure (some { resp with header := { resp.header with
    pvno := if PVNO3 < msg.header.pvno then PVNO3 else PVNO2 } })

/-- The status of a message whose protection did not verify. -/
def protectionStatus (err : GoError) : PKIStatusInfo :=
  { status := StatusRejection
    failInfo := if err.asServerError.any fun e => e.failureInfo = FailBadAlg then FailBadAlg
      else FailBadMessageCheck
    statusString := [err.Error] }

/-- The status of a message whose header is refused. -/
def headerStatus (err : GoError) : PKIStatusInfo :=
  match err.asServerError with
  | some e => { status := e.status, failInfo := e.failureInfo, statusString := [e.statusText] }
  | none => { status := StatusRejection, failInfo := FailBadDataFormat }

/-- The end of `process`: header fields, then the dispatch. -/
def processVerified (msg : PKIMessage) (sender : SenderIdentity) :
    ServerThread := do
  let (msg, r) ← srv.validateHeader msg sender
  match r with
  | .error e => srv.answerError msg sender (headerStatus e)
  | .ok _ => srv.dispatch msg sender

/-- A request an RA forwarded goes on once the authorizer accepts it. -/
def processForwarded (fwd : Option Forwarding) (msg : PKIMessage) (sender : SenderIdentity) :
    ServerThread :=
  match fwd with
  | none => srv.processVerified msg sender
  | some fwd => do
      let sender := { sender with ra := some fwd.ra }
      let refused : Option GoError ← perform (.authorizeRA fwd.ra msg sender)
      match refused with
      | some e => srv.answerError fwd.msg fwd.ra (errorToStatusInfo e)
      | none => srv.processVerified msg sender

/-- The single request a nested message forwards, or the failure and text it is
refused with. -/
def nestedRequest (msg : PKIMessage) : Except (PKIFailureInfo × GoString) PKIMessage :=
  if !srv.cfg.raAuthorizer then .error (FailBadRequest, str "nested messages not accepted")
  else match msg.body.getNested with
    | .error _ => .error (FailBadDataFormat, str "invalid nested message")
    | .ok [req] =>
      if req.body.type = BodyTypeNested then
        .error (FailBadRequest, str "nested message inside a nested message")
      else if msg.header.transactionID ≠ req.header.transactionID then
        .error (FailBadRequest, str "transactionID differs from the forwarded message")
      else if msg.header.senderNonce ≠ req.header.senderNonce then
        .error (FailBadSenderNonce, str "senderNonce differs from the forwarded message")
      else .ok req
    | .ok _ => .error (FailBadRequest, str "batched messages not supported")

/-- `handleNested`; `inner` processes the message it finds. -/
def handleNested (inner : PKIMessage → Forwarding → ServerThread)
    (msg : PKIMessage) (ra : SenderIdentity) : ServerThread :=
  match srv.nestedRequest msg with
  | .error (failInfo, text) => srv.reject msg ra failInfo [text]
  | .ok req => inner req ⟨msg, ra⟩

/-- `process` after the sender is authenticated. -/
def processAuthenticated
    (inner : PKIMessage → Forwarding → ServerThread)
    (fwd : Option Forwarding) (msg : PKIMessage) (sender : SenderIdentity) :
    ServerThread :=
  match srv.validateProfile msg sender with
  | .error e => srv.reject msg sender FailBadMessageCheck [e.Error]
  | .ok _ =>
    if msg.body.type = BodyTypeNested then srv.handleNested inner msg sender
    else srv.processForwarded fwd msg sender

/-- `process`, with a bound on the nesting. -/
def process : ℕ → PKIMessage → Option Forwarding → ServerThread
  | 0, _, _ => do
      let e : Empty ← perform .diverge
      nomatch e
  | depth + 1, msg, fwd =>
    if srv.signerErr.isSome then
      srv.reject msg none FailSystemFailure [str "server misconfigured"]
    else if msg.header.pvno < PVNO2 ∨ PVNO3 < msg.header.pvno then srv.answerVersion msg
    else match srv.verifyRecipient msg with
      | .error e => srv.reject msg none FailBadRequest [e.Error]
      | .ok _ => do
          let v : Verifier ← perform .verifier
          match srv.verifyProtection v msg with
          | .error e => srv.answerError msg none (protectionStatus e)
          | .ok sender =>
            srv.processAuthenticated (fun req fwd => process depth req (some fwd)) fwd msg
              sender

/-- `processMessage`. -/
def processMessage (msg : PKIMessage) : ServerThread := srv.process 2 msg none

/-! ### Entry points -/

/-- A request as `net/http` hands it over: the method, the media type if the
header has a valid one, and the body if it can be read. -/
structure HTTPRequest where
  method : GoString
  mediaType : Option GoString
  body : Option Bytes

/-- What is written: a status, and for status 200 the message. -/
structure HTTPResponse where
  status : ℕ
  body : Bytes
  deriving DecidableEq, Repr

/-- `MaxRequestBodySize`. -/
def maxRequestBodySize : ℕ := 2 ^ 20

/-- `ServeHTTP`; `none` when the connection is dropped. -/
def serveHTTP (r : HTTPRequest) : ServerProg (Option HTTPResponse) :=
  if r.method ≠ str "POST" then pure (some ⟨405, str "Method Not Allowed\n"⟩)
  else if r.mediaType ≠ some (str "application/pkixcmp") then
    pure (some ⟨415, str "Unsupported Media Type\n"⟩)
  else match r.body.map fun b => parsePKIMessage (b.take maxRequestBodySize) with
    | none | some (.error _) => pure (some ⟨400, str "Bad Request\n"⟩)
    | some (.ok msg) => do
        let resp ← srv.processMessage msg
        match resp.map PKIMessage.marshalBinary with
        | none => pure none
        | some (.error _) => pure (some ⟨500, str "Internal Server Error\n"⟩)
        | some (.ok der) => pure (some ⟨200, der⟩)

/-- The notifications of `CleanupExpired`. -/
def notifyExpired : List IssuedInfo → ServerProg Unit
  | [] => pure ()
  | e :: es => do
      match e.cert with
      | none => notifyExpired es
      | some cert => do
          let _ ← perform (.confirmCertificate cert .expired e.issueRef (some e.txn))
          notifyExpired es

/-- `CleanupExpired`. -/
def cleanupExpired : ServerProg Unit := do
  let expired ← TrackerConfig.cleanupExpired srv.cfg.confirmWait
  if srv.cfg.confirmer then notifyExpired expired else pure ()

/-- The goroutines of a server: one for each message, and those that clean up. -/
inductive Thread : ServerThread → Prop
  | message (msg : PKIMessage) : Thread (srv.processMessage msg)
  | cleanup : Thread (srv.cleanupExpired >>= fun _ => pure none)

/-- The threads that an action starts are threads of the server. -/
def Starts (a : ServerAction) : Prop :=
  ∀ p, a = .spawn p → srv.Thread p

lemma starts_spawn {p : ServerThread} (h : srv.Thread p) :
    srv.Starts (.spawn p) := by
  intro p' hp
  rw [← Action.spawn.inj hp]
  exact h

/-! ### What happens around the handlers -/

/-- The check of a time looks at the clock at most. -/
lemma checkMessageTime_of {P : Effect → Prop} (hnow : P .now) (msg : PKIMessage) :
    Prog.Only P (srv.checkMessageTime msg) := by
  unfold checkMessageTime
  split_ifs
  · simp only [perform, Prog.call_bind, Prog.Only.op_iff]
    refine ⟨hnow, fun now => ?_⟩
    split_ifs <;> trivial
  · trivial

lemma startTransaction_only (msg : PKIMessage) (sender : SenderIdentity) :
    Prog.Only Effect.Outer (srv.startTransaction msg sender) := by
  unfold startTransaction
  split
  · trivial
  · split_ifs
    · refine Prog.Only.bind (TrackerConfig.startIfAbsent_outer ..) fun r => ?_
      split <;> trivial
    · trivial

lemma validateFields_only (msg : PKIMessage) (sender : SenderIdentity) :
    Prog.Only Effect.Outer (srv.validateFields msg sender) := by
  unfold validateFields
  split
  · trivial
  · refine (srv.checkMessageTime_of trivial msg).bind fun r => ?_
    split
    · trivial
    · split_ifs
      · trivial
      · exact srv.startTransaction_only msg sender

/-- `validateHeader` touches the tracker only to start a transaction. -/
lemma validateHeader_only (msg : PKIMessage) (sender : SenderIdentity) :
    Prog.Only Effect.Outer (srv.validateHeader msg sender) := by
  unfold validateHeader
  split_ifs
  · trivial
  · exact ⟨trivial, fun id => (srv.validateFields_only ..).bind fun r => trivial⟩
  · exact (srv.validateFields_only ..).bind fun r => trivial

/-- A notification reports a certificate as expired. -/
lemma notifyExpired_of {P : Effect → Prop}
    (h : ∀ cert ref txn, P (.confirmCertificate cert .expired ref txn)) (infos : List IssuedInfo) :
    Prog.Only P (notifyExpired infos) := by
  induction infos with
  | nil => trivial
  | cons e es ih =>
    unfold notifyExpired
    split
    · exact ih
    · exact ⟨h _ _ _, fun _ => ih⟩

/-- `CleanupExpired` with its notifications. -/
lemma cleanupExpired_only : Prog.Only Effect.Expiring srv.cleanupExpired := by
  refine (TrackerConfig.cleanupExpired_only _).bind fun expired => ?_
  split_ifs
  · exact notifyExpired_of (fun _ _ _ => trivial) expired
  · trivial

/-- A monitor that ignores these reports is not moved by the notifications. -/
lemma notifyExpired_obeys {G : Type} {M : Monitor Effect Effect.Res G} {g : G}
    (h : ∀ cert ref txn, M.allowed g (.confirmCertificate cert .expired ref txn) ∧
      ∀ x, M.next g (.confirmCertificate cert .expired ref txn) x = g) (infos : List IssuedInfo) :
    Prog.Obeys M (fun g' _ => g' = g) g (notifyExpired infos) := by
  refine .of_only (notifyExpired_of (P := fun o => ∃ cert ref txn,
    o = .confirmCertificate cert .expired ref txn) (fun _ _ _ => ⟨_, _, _, rfl⟩) infos) ?_
  rintro _ ⟨cert, ref, txn, rfl⟩
  exact h cert ref txn

section Monitors

variable {G : Type} {M : Monitor Effect Effect.Res G} {Q : G → Option PKIMessage → Prop}
variable {I : G → Prop}

variable {srv} in
/-- What a nested message has to be to be accepted. -/
lemma nestedRequest_eq_ok {msg arrived : PKIMessage}
    (hreq : srv.nestedRequest msg = .ok arrived) :
    srv.cfg.raAuthorizer = true ∧ msg.body.getNested = .ok [arrived] ∧
      arrived.body.type ≠ BodyTypeNested ∧
      msg.header.transactionID = arrived.header.transactionID ∧
      msg.header.senderNonce = arrived.header.senderNonce := by
  unfold nestedRequest at hreq
  split_ifs at hreq with hra
  split at hreq
  · cases hreq
  · next req hget =>
    split_ifs at hreq with htype htx hnonce
    cases hreq
    exact ⟨by simpa using hra, hget, htype, not_not.mp htx, not_not.mp hnonce⟩
  · cases hreq

/-- The message `q` came as `msg` or inside it, and was verified for the credential of the sender
with one of the lookups. -/
structure Verified (lookups : Verifier → Prop) (msg q : PKIMessage) (sender : SenderIdentity) :
    Prop where
  arrived : q = msg ∨ srv.nestedRequest msg = .ok q
  checked : ∃ v s, lookups v ∧ srv.verifyProtection v q = .ok s ∧
    sender.credentialID srv.crypto = s.credentialID srv.crypto

/-- **Monitors of `process`**: when an invariant of the monitor is kept by what
happens before a message is verified, it is enough to look at verified messages. -/
lemma process_obeys_of_verified {msg : PKIMessage} (haround : M.Keeps I Effect.Around)
    (hdiverge : ∀ g, I g → M.allowed g .diverge) (hQ : ∀ g r, I g → Q g r)
    (hver : ∀ g q sender, srv.Verified (fun v => ∃ g, M.rely g .verifier v) msg q sender → I g →
      Prog.Obeys M Q g (srv.processVerified q sender)) (depth : ℕ) (fwd : Option Forwarding) {g : G}
    (hg : I g) : Prog.Obeys M Q g (srv.process depth msg fwd) := by
  have hbuild : ∀ {p : ServerThread} {g : G}, Prog.Only Effect.Building p →
      I g → Prog.Obeys M Q g p := fun hp hg =>
    (Prog.Obeys.of_keeps haround (hp.mono fun _ => Effect.Building.around) hg).mono hQ
  have hone : ∀ {o : Effect} {g : G}, o.Around → I g →
      Prog.Obeys M (fun g' x => I g' ∧ M.rely g o x) g (perform o) :=
    fun ho hg => ⟨(haround _ _ hg ho).1, fun x hx => ⟨(haround _ _ hg ho).2 x hx, hx⟩⟩
  have hfwd : ∀ (fwd : Option Forwarding) {q : PKIMessage} {v : Verifier} {s : SenderIdentity}
      {g : G}, (q = msg ∨ srv.nestedRequest msg = .ok q) → (∃ g, M.rely g .verifier v) →
      srv.verifyProtection v q = .ok s → I g → Prog.Obeys M Q g (srv.processForwarded fwd q s) := by
    intro fwd q v s g hq hv hs hg
    unfold processForwarded
    split
    · exact hver g q s ⟨hq, v, s, hv, hs, rfl⟩ hg
    · refine Prog.Obeys.bind (hone (by trivial) hg) fun g' refused hg' => ?_
      cases refused with
      | some e => exact hbuild (srv.answerError_only ..) hg'.1
      | none => exact hver g' q _ ⟨hq, v, s, hv, hs, rfl⟩ hg'.1
  have hall : ∀ (depth : ℕ) (q : PKIMessage) (fwd : Option Forwarding) {g : G},
      (q = msg ∨ srv.nestedRequest msg = .ok q) → I g →
      Prog.Obeys M Q g (srv.process depth q fwd) := by
    intro depth
    induction depth with
    | zero => exact fun q fwd g _ hg => ⟨hdiverge g hg, nofun⟩
    | succ depth ih =>
      intro q fwd g hq hg
      unfold process
      split_ifs
      · exact hbuild (srv.reject_only ..) hg
      · exact hbuild ((srv.buildResponse_only ..).bind fun _ => trivial) hg
      · split
        · exact hbuild (srv.reject_only ..) hg
        · refine Prog.Obeys.bind (hone (by trivial) hg) fun g' v hg' => ?_
          split
          · exact hbuild (srv.answerError_only ..) hg'.1
          · next s hs =>
            unfold processAuthenticated
            split
            · exact hbuild (srv.reject_only ..) hg'.1
            · split_ifs with htype
              · unfold handleNested
                split
                · exact hbuild (srv.reject_only ..) hg'.1
                · next req hreq =>
                  -- a nested message is not inside another one
                  obtain rfl | hq := hq
                  · exact ih _ _ (.inr hreq) hg'.1
                  · exact absurd htype (nestedRequest_eq_ok hq).2.2.1
              · exact hfwd _ hq ⟨g, hg'.2⟩ hs hg'.1
  exact hall depth msg fwd (.inl rfl) hg

/-- **Monitors of the handlers**: when a monitor ignores what happens around the
handlers, `process` obeys it as `dispatch` does. -/
lemma process_obeys_of_dispatch {g : G}
    (houter : ∀ o, o.Outer → M.allowed g o ∧ ∀ x, M.next g o x = g)
    (hdiverge : M.allowed g .diverge) (hQ : ∀ r, Q g r)
    (hdispatch : ∀ msg sender, Prog.Obeys M Q g (srv.dispatch msg sender)) (depth : ℕ)
    (msg : PKIMessage) (fwd : Option Forwarding) :
    Prog.Obeys M Q g (srv.process depth msg fwd) := by
  have hkeeps : M.Keeps (· = g) Effect.Outer := by
    rintro _ o rfl ho
    exact ⟨(houter o ho).1, fun x _ => (houter o ho).2 x⟩
  refine srv.process_obeys_of_verified (hkeeps.mono fun _ => Effect.Around.outer) ?_ ?_ ?_ depth fwd
    rfl
  · rintro _ rfl
    exact hdiverge
  · rintro _ r rfl
    exact hQ r
  · rintro _ m s - rfl
    refine Prog.Obeys.bind (Prog.Obeys.of_keeps hkeeps (srv.validateHeader_only m s) rfl) ?_
    rintro _ ⟨m', r⟩ rfl
    cases r with
    | error e =>
      exact (Prog.Obeys.of_keeps hkeeps ((srv.answerError_only ..).mono fun _ =>
        Effect.Building.outer) rfl).mono fun _ r h => h ▸ hQ r
    | ok _ => exact hdispatch _ _

end Monitors

/-! ### A server for concrete runs -/

/-- A CA that takes confirmations and answers polls, with no policy, for clients
that share a secret. -/
def sampleCA : Server :=
  .newCA .sample 0 ⟨true, true, false, false⟩ (policy fun _ _ _ => .ok ()) { secretLookup := true }

/-- A message of a transaction, protected with the secret and received. -/
def received (cr : Crypto) (body : PKIBody) (recipNonce : Bytes) (transactionID : Bytes := [1]) :
    PKIMessage :=
  let m : PKIMessage :=
    { header :=
        { pvno := PVNO2, sender := {}, recipient := {}, transactionID, recipNonce }
      body }
  match (Credentials.mac [1] {}).prepare cr (List.replicate 16 0) m with
  | (m, .error _) => m
  | (m, .ok (s, data)) =>
    match (s.compute cr data).bind fun p => { m with protection := p }.marshalBinary with
    | .error _ => m
    | .ok der => (parsePKIMessage der).toOption.getD m

/-- A message of the sample client. -/
def sampleReceived (body : PKIBody) (recipNonce : Bytes) : PKIMessage :=
  received .sample body recipNonce

/-- A certificate request, as a PKCS #10 structure. -/
def sampleRequest : PKIMessage := sampleReceived (.p10cr { raw := [0x30, 0x00] }) []

/-- The confirmation of the certificate. -/
def sampleConfirmation : PKIMessage :=
  sampleReceived (.certConf [{ certHash := [0x30, 0x00], certReqID := -1 }]) (List.replicate 16 0)

/-- A server with a handler that is not modelled. -/
def sampleServer : Server := .new .sample 0 .external { secretLookup := true }

/-- A thread of the server is started. -/
def sampleStart (msg : PKIMessage) : ServerAction :=
  .spawn (sampleCA.processMessage msg)

/-- The cleanup is started. -/
def sampleCleanup : ServerAction :=
  .spawn (sampleCA.cleanupExpired >>= fun _ => pure none)

/-- A number of steps of one thread at a given time. -/
def sampleSteps (i n : ℕ) (time : Time) :
    List ServerAction :=
  List.replicate n (.step i (sampleOracle time))

lemma starts_sampleStart (msg : PKIMessage) : sampleCA.Starts (sampleStart msg) :=
  sampleCA.starts_spawn (.message msg)

lemma starts_sampleCleanup : sampleCA.Starts sampleCleanup := sampleCA.starts_spawn .cleanup

lemma starts_sampleSteps (i n : ℕ) (time : Time) :
    ∀ a ∈ sampleSteps i n time, srv.Starts a := by
  intro a ha p hp
  rw [List.eq_of_mem_replicate ha] at hp
  cases hp

end Server

end PkiCmp
