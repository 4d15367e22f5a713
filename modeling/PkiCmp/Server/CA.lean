/-
The handler that delegates to a CA, and the default policy in front of it
(`server/ca.go`, `server/certrequest.go`, `server/revocation.go`,
`server/lwpolicy.go`).

* `parseCRMFMsg`, `enforceProofOfPossession`, `checkBasicConstraints`;
* `parseRevocationRequest`, `RevocationRequest.matchCert`;
* `caHandler`: a program over the calls of the CA, and `caHandler_only`: which of
  them a message can lead to;
* `policy`, `lightweightPolicy`: wrappers that refuse a request or pass it on.
-/
import PkiCmp.Server.Transaction

namespace PkiCmp

open Der Interact

/-- `Handler`. -/
abbrev Handler := Ctx → PKIMessage → SenderIdentity → ServerProg HandlerResult

/-- The handler that is not modelled: any answer may come back. -/
def Handler.external : Handler := fun ctx msg sender => perform (.handleCMP ctx msg sender)

section

variable (cr : Crypto)

/-! ### Certificate requests -/

/-- `parsedCRMF`. -/
structure ParsedCRMF where
  certReqID : ℤ
  subject : Name := {}
  publicKey : Option PublicKey := none
  extensions : List Extension := []
  signaturePOP : Bool := false
  deriving DecidableEq, Repr

/-- The requests of an ir, cr or kur body; `none` for other types. -/
def crmfMessages (msg : PKIMessage) : Option (Except GoError CertReqMessages) :=
  if msg.body.type = BodyTypeIR then some msg.body.getIR
  else if msg.body.type = BodyTypeCR then some msg.body.getCR
  else if msg.body.type = BodyTypeKUR then some msg.body.getKUR
  else none

/-- The subject of a template. -/
def crmfSubject (tmpl : CertTemplate) : Name :=
  if tmpl.subject.directoryName ≠ [] then Name.fillFromRDNSequence tmpl.subject.directoryName
  else {}

/-- The key of a template, when it has one. -/
def crmfPublicKey (tmpl : CertTemplate) : Except GoError (Option PublicKey) :=
  if tmpl.publicKey = [] then .ok none
  else match cr.parsePKIXPublicKey tmpl.publicKey with
    | .ok pub => .ok (some pub)
    | .error e => .error (rejection FailBadAlg e.Error)

/-- The extensions of a template. -/
def crmfExtensions (tmpl : CertTemplate) : Except GoError (List Extension) :=
  if tmpl.extensions = [] then .ok []
  else match unmarshalExtensions tmpl.extensions with
    | some (exts, _) => .ok exts
    | none => .error Asn1.error

/-- `parseCRMFMsg`. -/
def parseCRMFMsg (msg : PKIMessage) : Except GoError ParsedCRMF :=
  match crmfMessages msg with
  | none => .error (rejection FailBadRequest [])
  | some (.error e) => .error e
  | some (.ok []) => .error (rejection FailBadDataFormat (str "empty CertReqMessages"))
  | some (.ok (_ :: _ :: _)) =>
    .error (rejection FailBadRequest (str "multiple CertReqMsg not supported"))
  | some (.ok [reqMsg]) => do
      let tmpl := reqMsg.certReq.certTemplate
      let publicKey ← crmfPublicKey cr tmpl
      let extensions ← crmfExtensions tmpl
      .ok { certReqID := reqMsg.certReq.certReqID, subject := crmfSubject tmpl, publicKey,
            extensions, signaturePOP := reqMsg.popo.any fun p => p.signature.isSome }

/-- `verifyPOPMsg`. -/
def verifyPOPMsg (msg : PKIMessage) (allowSHA1 : Bool) : Except GoError Unit :=
  match crmfMessages msg with
  | none => .ok ()
  | some (.error e) => .error e
  | some (.ok []) => .ok ()
  | some (.ok (reqMsg :: _)) => verifyPOPWithOptions cr reqMsg allowSHA1

/-- The failure a proof that does not verify is reported with. -/
def popFailInfo (err : GoError) : PKIFailureInfo :=
  if err.asParseError = some (str "raVerified POP not supported") then FailNotAuthorized
  else if err.asVerificationError = some .unsupportedAlgorithm then FailBadAlg
  else FailBadPOP

/-- `enforceProofOfPossession`. -/
def enforceProofOfPossession (ctx : Ctx) (msg : PKIMessage) : Except GoError Unit :=
  if msg.body.type = BodyTypeP10CR then
    match msg.body.getP10CR cr with
    | .error _ => .error (rejection FailBadDataFormat [])
    | .ok csr =>
      match cr.checkCertificateRequestSignature csr with
      | .ok _ => .ok ()
      | .error e =>
        if e.isUnsupportedAlgorithm then
          .error (rejection FailBadAlg (str "unsupported signature algorithm"))
        else .error (rejection FailBadPOP e.Error)
  else if msg.body.type = BodyTypeIR ∨ msg.body.type = BodyTypeCR ∨ msg.body.type = BodyTypeKUR then
    do
      let crmf ← parseCRMFMsg cr msg
      match verifyPOPMsg cr msg ctx.sha1Signatures with
      | .error e => .error (rejection (popFailInfo e) e.Error)
      | .ok _ =>
        if crmf.publicKey = none then
          .error (rejection FailBadCertTemplate (str "public key required"))
        else if !crmf.signaturePOP then
          .error (rejection FailBadPOP (str "proof of possession by signature required"))
        else .ok ()
  else .ok ()

/-! ### Basic constraints -/

/-- The basicConstraints extension. -/
def oidBasicConstraints : OID := [2, 5, 29, 19]

/-- `basicConstraints`. -/
structure BasicConstraints where
  isCA : Bool
  maxPathLen : ℤ
  deriving DecidableEq, Repr

/-- The decoding of one extension value; absent fields are zero. -/
def unmarshalBasicConstraints (der : Bytes) : Option (BasicConstraints × Bytes) := do
  let (c, rest) ← Asn1.field 16 true der
  let (ca, c) ← Asn1.optField 1 false c
  let isCA ← match ca with
    | some b => Asn1.parseBool b
    | none => some false
  let (len, _) ← Asn1.optField 2 false c
  let maxPathLen ← match len with
    | some b => Asn1.parseInt64 b
    | none => some 0
  some (⟨isCA, maxPathLen⟩, rest)

/-- `decodeBasicConstraints`. -/
def decodeBasicConstraints (exts : List Extension) : Except GoError (List BasicConstraints) :=
  (exts.filter fun e => e.id = oidBasicConstraints).mapM fun e =>
    match unmarshalBasicConstraints e.value with
    | some (bc, []) => .ok bc
    | _ => .error (rejection FailBadCertTemplate (str "malformed BasicConstraints"))

/-- `checkBasicConstraints`. -/
def checkBasicConstraints (exts : List Extension) : Except GoError Unit := do
  let all ← decodeBasicConstraints exts
  if all.any fun bc => decide (bc.maxPathLen < 0) || (!bc.isCA && bc.maxPathLen ≠ 0) then
    .error (rejection FailBadCertTemplate (str "invalid path-length in BasicConstraints"))
  else if all.any BasicConstraints.isCA then
    .error (rejection FailNotAuthorized (str "CA certificates not allowed"))
  else .ok ()

/-! ### Revocation requests -/

/-- `asn1.Unmarshal` into an `asn1.Enumerated`. -/
def unmarshalEnumerated (der : Bytes) : Option (ℤ × Bytes) := do
  let (c, rest) ← Asn1.field 10 false der
  let v ← Asn1.parseInt64 c
  if -(2 ^ 31) ≤ v ∧ v < 2 ^ 31 then some (v, rest) else none

/-- The reason code among the extensions of a request. -/
def crlReason : List Extension → Option ℤ → Except GoError (Option ℤ)
  | [], r => .ok r
  | e :: es, r =>
    if e.id ≠ oidCRLReason then crlReason es r
    else if r.isSome then .error (rejection FailBadRequest (str "more than one reasonCode"))
    else match unmarshalEnumerated e.value with
      | some (v, []) =>
        if validCRLReason v then crlReason es (some v)
        else .error (rejection FailBadDataFormat (str "invalid reasonCode"))
      | _ => .error (rejection FailBadDataFormat (str "invalid reasonCode"))

/-- The issuer of a template. -/
def revocationIssuer (tmpl : CertTemplate) : Except GoError RDNSequence :=
  if tmpl.issuer = [] then .ok []
  else match unmarshalRDNSequence tmpl.issuer with
    | some (rdn, []) => .ok rdn
    | _ => .error (rejection FailBadDataFormat (str "malformed issuer"))

/-- `parseRevocationRequest`. -/
def parseRevocationRequest (msg : PKIMessage) : Except GoError RevocationRequest :=
  match msg.body.getRR with
  | .error _ => .error (rejection FailBadDataFormat (str "malformed revocation request"))
  | .ok [] => .error (rejection FailBadDataFormat (str "empty RevReqContent"))
  | .ok (_ :: _ :: _) => .error (rejection FailBadRequest (str "multiple RevDetails not supported"))
  | .ok [details] => do
      let tmpl := details.certDetails
      match tmpl.serialNumber with
      | none => .error (rejection FailAddInfoNotAvailable (str "serialNumber required"))
      | some serialNumber => do
          let issuer ← revocationIssuer tmpl
          if issuer = [] then .error (rejection FailAddInfoNotAvailable (str "issuer required"))
          else match details.crlEntryExtensions with
            | .error _ => .error (rejection FailBadDataFormat (str "malformed crlEntryDetails"))
            | .ok extensions => do
                let reason ← crlReason extensions none
                .ok { issuer := Name.fillFromRDNSequence issuer, rawIssuer := tmpl.issuer,
                      serialNumber, reason := reason.getD 0, extensions,
                      subject := tmpl.subject.directoryName, publicKey := tmpl.publicKey,
                      hasReason := reason.isSome }

/-- `equalNames`. -/
def equalNames (a b : Bytes) : Bool :=
  a == b || match unmarshalRDNSequence a, unmarshalRDNSequence b with
    | some (an, []), some (bn, []) => an == bn
    | _, _ => false

/-- `certificatePublicKey`. -/
def certificatePublicKey (cert : Certificate) : Option PublicKey :=
  match cert.publicKey with
  | some k => some k
  | none => (cr.parsePKIXPublicKey cert.rawSubjectPublicKeyInfo).toOption

/-- `identifies`. -/
def RevocationRequest.identifies (r : RevocationRequest) (cert : Certificate) : Bool :=
  cert.serialNumber == some r.serialNumber && equalNames r.rawIssuer cert.rawIssuer

/-- `Match`. -/
def RevocationRequest.matchCert (r : RevocationRequest) (cert : Certificate) :
    Except GoError Unit :=
  if !r.identifies cert then .error (rejection FailBadCertId (str "certificate not found"))
  else if r.subject ≠ [] ∧ unmarshalRDNSequence cert.rawSubject ≠ some (r.subject, []) then
    .error (rejection FailBadCertId (str "subject does not match the certificate"))
  else if r.publicKey ≠ [] ∧ r.publicKey ≠ cert.rawSubjectPublicKeyInfo ∧
      ¬ ((cr.parsePKIXPublicKey r.publicKey).toOption.isSome ∧
        (cr.parsePKIXPublicKey r.publicKey).toOption = certificatePublicKey cr cert) then
    .error (rejection FailBadCertId (str "public key does not match the certificate"))
  else .ok ()

/-! ### The handler -/

/-- The optional interfaces a CA implements. -/
structure CAInterfaces where
  certificateConfirmer : Bool
  pendingChecker : Bool
  revoker : Bool
  revocationAuthorizer : Bool
  deriving DecidableEq, Repr

/-- The subject, key and extensions of a request. -/
def requestParts (msg : PKIMessage) :
    Except GoError (Name × Option PublicKey × List Extension) :=
  if msg.body.type = BodyTypeP10CR then
    match msg.body.getP10CR cr with
    | .error _ => .error (rejection FailBadDataFormat [])
    | .ok csr =>
      match cr.parsePKIXPublicKey csr.rawSubjectPublicKeyInfo with
      | .error e => .error (rejection FailBadAlg e.Error)
      | .ok pub => .ok (csr.subject, some pub, csr.extensions)
  else do
    let crmf ← parseCRMFMsg cr msg
    .ok (crmf.subject, crmf.publicKey, crmf.extensions)

/-- The template of a request, with every check that precedes the CA. -/
def requestTemplate (ctx : Ctx) (msg : PKIMessage) : Except GoError Template := do
  enforceProofOfPossession cr ctx msg
  let (subject, publicKey, extensions) ← requestParts cr msg
  let _ ← decodeBasicConstraints extensions
  match cr.marshalPKIXPublicKey publicKey with
  | .error e => .error (rejection FailBadAlg e.Error)
  | .ok pubDER =>
    .ok { subject, publicKey, subjectKeyId := cr.hash .sha1 pubDER,
          extraExtensions := extensions }

/-- `caHandler.handleCertRequest`. -/
def caHandleCertRequest (ctx : Ctx) (msg : PKIMessage) (sender : SenderIdentity) :
    ServerProg HandlerResult :=
  match requestTemplate cr ctx msg with
  | .error e => pure (.refuse e)
  | .ok template =>
    perform (.issueCertificate (bodyTypeToRequestType msg.body.type) template sender)

/-- `certStatusRejects`. -/
def certStatusRejects (cs : CertStatus) : Bool :=
  cs.statusInfo.any fun si => si.status = StatusRejection

/-- `caHandler.handleCertConf`. -/
def caHandleCertConf (ca : CAInterfaces) (ctx : Ctx) (msg : PKIMessage) :
    ServerProg HandlerResult :=
  if !ca.certificateConfirmer then pure {}
  else match msg.body.getCertConf with
    | .error _ => pure (.refuse (rejection FailBadDataFormat []))
    | .ok conf =>
      match ctx.issued.bind IssuedInfo.cert with
      | none => pure (.refuse (rejection FailBadRequest (str "no issued certificate")))
      | some cert => do
          let status : ConfirmStatus := match conf with
            | [] => .rejected
            | cs :: _ => if certStatusRejects cs then .rejected else .accepted
          let err ← perform (.confirmCertificate cert status
            (ctx.issued.bind IssuedInfo.issueRef) (ctx.issued.map IssuedInfo.txn))
          pure { err }

/-- `caHandler.handlePollReq`. -/
def caHandlePollReq (ca : CAInterfaces) (ctx : Ctx) (sender : SenderIdentity) :
    ServerProg HandlerResult :=
  if !ca.pendingChecker then
    pure (.refuse (rejection FailBadRequest (str "polling not supported")))
  else match ctx.pollRef with
    | none => pure (.refuse (rejection FailBadRequest (str "no pending certificate")))
    | some pollRef => perform (.checkPending pollRef sender)

/-- Who may revoke: the holder of the certificate, or whom the CA approves. -/
def revocationRefusal (ca : CAInterfaces) (req : RevocationRequest) (sender : SenderIdentity) :
    ServerProg (Option GoError) :=
  match sender.certificate.filter req.identifies with
  | some cert =>
    match req.matchCert cr cert with
    | .error e => pure (some e)
    | .ok _ => pure none
  | none =>
    if !ca.revocationAuthorizer then
      pure (some (rejection FailNotAuthorized
        (str "revocation request must be signed with the certificate being revoked")))
    else perform (.authorizeRevocation req sender)

/-- `caHandler.handleRevocation`. -/
def caHandleRevocation (ca : CAInterfaces) (msg : PKIMessage) (sender : SenderIdentity) :
    ServerProg HandlerResult :=
  if !ca.revoker then pure (.refuse (rejection FailBadRequest (str "revocation not supported")))
  else match parseRevocationRequest msg with
    | .error e => pure (.refuse e)
    | .ok req => do
        let refused ← revocationRefusal cr ca req sender
        match refused with
        | some e => pure (.refuse e)
        | none => do
            let err ← perform (.revokeCertificate req sender)
            pure { err }

/-- `caHandler.HandleCMP`. -/
def caHandler (ca : CAInterfaces) : Handler := fun ctx msg sender =>
  if isCertRequest msg.body.type then caHandleCertRequest cr ctx msg sender
  else if msg.body.type = BodyTypeCertConf then caHandleCertConf ca ctx msg
  else if msg.body.type = BodyTypePollReq then caHandlePollReq ca ctx sender
  else if msg.body.type = BodyTypeRR then caHandleRevocation cr ca msg sender
  else pure (.refuse (rejection FailBadRequest []))

/-! ### The calls of the CA -/

/-- The verdict of a confirmation: its first entry decides, and an empty list
rejects. -/
def confirmationStatus : CertConfirmContent → ConfirmStatus
  | [] => .rejected
  | cs :: _ => if certStatusRejects cs then .rejected else .accepted

/-- What the handler asks of the CA, and for which messages. -/
def CACall (ca : CAInterfaces) (ctx : Ctx) (msg : PKIMessage) (sender : SenderIdentity) :
    Effect → Prop
  | .issueCertificate reqType template s =>
    isCertRequest msg.body.type ∧ requestTemplate cr ctx msg = .ok template ∧
      reqType = bodyTypeToRequestType msg.body.type ∧ s = sender
  | .confirmCertificate cert status issueRef txn =>
    msg.body.type = BodyTypeCertConf ∧ ca.certificateConfirmer ∧
      ∃ conf info, msg.body.getCertConf = .ok conf ∧ ctx.issued = some info ∧
        cert ∈ info.cert ∧ issueRef = info.issueRef ∧ txn = some info.txn ∧
        status = confirmationStatus conf
  | .checkPending pollRef s =>
    msg.body.type = BodyTypePollReq ∧ ca.pendingChecker ∧ ctx.pollRef = some pollRef ∧ s = sender
  | .authorizeRevocation req s | .revokeCertificate req s =>
    msg.body.type = BodyTypeRR ∧ ca.revoker ∧ parseRevocationRequest msg = .ok req ∧ s = sender
  | _ => False

section

variable {cr} {ca : CAInterfaces} {ctx : Ctx} {msg : PKIMessage} {sender : SenderIdentity}

lemma caHandleCertRequest_only (ht : isCertRequest msg.body.type) :
    (caHandleCertRequest cr ctx msg sender).Only (CACall cr ca ctx msg sender) := by
  unfold caHandleCertRequest
  split
  · trivial
  · next template h => exact ⟨⟨ht, h, rfl, rfl⟩, fun _ => trivial⟩

lemma caHandleCertConf_only (ht : msg.body.type = BodyTypeCertConf) :
    (caHandleCertConf ca ctx msg).Only (CACall cr ca ctx msg sender) := by
  unfold caHandleCertConf
  split_ifs with hca
  · trivial
  · split
    · trivial
    · next conf hconf =>
      split
      · trivial
      · next cert hcert =>
        obtain ⟨info, hinfo, hc⟩ := Option.bind_eq_some_iff.mp hcert
        refine ⟨⟨ht, by simpa using hca, conf, info, hconf, hinfo, hc, ?_, ?_, ?_⟩, fun _ =>
          trivial⟩
        · rw [hinfo, Option.bind_some]
        · rw [hinfo, Option.map_some]
        · cases conf <;> rfl

lemma caHandlePollReq_only (ht : msg.body.type = BodyTypePollReq) :
    (caHandlePollReq ca ctx sender).Only (CACall cr ca ctx msg sender) := by
  unfold caHandlePollReq
  split_ifs with hca
  · trivial
  · split
    · trivial
    · next ref h => exact ⟨⟨ht, by simpa using hca, h, rfl⟩, fun _ => trivial⟩

lemma caHandleRevocation_only (ht : msg.body.type = BodyTypeRR) :
    (caHandleRevocation cr ca msg sender).Only (CACall cr ca ctx msg sender) := by
  unfold caHandleRevocation
  split_ifs with hca
  · trivial
  · split
    · trivial
    · next req hreq =>
      have hcall : msg.body.type = BodyTypeRR ∧ ca.revoker ∧
          parseRevocationRequest msg = .ok req ∧ sender = sender :=
        ⟨ht, by simpa using hca, hreq, rfl⟩
      refine Prog.Only.bind ?_ fun refused => ?_
      · unfold revocationRefusal
        split
        · split <;> trivial
        · split_ifs
          · trivial
          · exact ⟨hcall, fun _ => trivial⟩
      · cases refused with
        | some e => trivial
        | none => exact ⟨hcall, fun _ => trivial⟩

/-- **The calls of the CA** that a message can lead to. -/
lemma caHandler_only : (caHandler cr ca ctx msg sender).Only (CACall cr ca ctx msg sender) := by
  unfold caHandler
  split_ifs with h1 h2 h3 h4
  · exact caHandleCertRequest_only h1
  · exact caHandleCertConf_only h2
  · exact caHandlePollReq_only h3
  · exact caHandleRevocation_only h4
  · trivial

end

/-! ### Policies -/

/-- A wrapper that refuses a request or passes it on. -/
def policy (check : Ctx → PKIMessage → SenderIdentity → Except GoError Unit) (next : Handler) :
    Handler := fun ctx msg sender =>
  match check ctx msg sender with
  | .error e => pure (.refuse e)
  | .ok _ => next ctx msg sender

/-- `validateP10CR`. -/
def validateP10CR (ctx : Ctx) (msg : PKIMessage) : Except GoError Unit :=
  match msg.body.getP10CR cr with
  | .error _ => .error (rejection FailBadDataFormat [])
  | .ok csr => do
      enforceProofOfPossession cr ctx msg
      if csr.subject.string = [] then
        .error (rejection FailBadCertTemplate (str "subject required"))
      else checkBasicConstraints csr.extensions

/-- `validateCRMF`. -/
def validateCRMF (ctx : Ctx) (msg : PKIMessage) : Except GoError Unit := do
  let crmf ← parseCRMFMsg cr msg
  if crmf.certReqID ≠ 0 then .error (rejection FailBadRequest (str "certReqId must be 0"))
  else do
    enforceProofOfPossession cr ctx msg
    if crmf.subject.string = [] then
      .error (rejection FailBadCertTemplate (str "subject required"))
    else checkBasicConstraints crmf.extensions

/-- `validateRR`. -/
def validateRR (msg : PKIMessage) (sender : SenderIdentity) : Except GoError Unit :=
  if sender.macVerified then
    .error (rejection FailWrongIntegrity (str "revocation requires signature protection"))
  else do
    let req ← parseRevocationRequest msg
    if !req.hasReason then .error (rejection FailBadRequest (str "reasonCode required"))
    else .ok ()

/-- The checks of `LightweightPolicy`. -/
def lightweightCheck (ctx : Ctx) (msg : PKIMessage) (sender : SenderIdentity) :
    Except GoError Unit :=
  if sender.macVerified ∧ msg.header.sender.directoryName = [] ∧ msg.header.senderKID = [] then
    .error (rejection FailBadMessageCheck
      (str "MAC protection requires a sender name or senderKID"))
  else if msg.body.type = BodyTypeRR then validateRR msg sender
  else if !isCertRequest msg.body.type then .ok ()
  else if msg.body.type = BodyTypeKUR ∧ sender.macVerified then
    .error (rejection FailWrongIntegrity (str "KUR requires signature protection"))
  else if msg.body.type = BodyTypeP10CR then validateP10CR cr ctx msg
  else validateCRMF cr ctx msg

/-- `LightweightPolicy`. -/
def lightweightPolicy : Handler → Handler := policy (lightweightCheck cr)

end

end PkiCmp
