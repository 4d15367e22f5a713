/-
Verification of message protection (`pkicmp/verify.go`).

* `PKIMessage.verify`: the mechanism is the one the header names, checked
  against the one the caller requires;
* `verifyPBM`, `verifyPBMAC1`: with a shared secret;
* `verifySignature`: with a certificate the caller trusts, or with the first
  candidate that has a path to the pool, belongs to the sender and verifies.
-/
import PkiCmp.Protect

namespace PkiCmp

open Der

/-- `ProtectionMechanism`. -/
inductive ProtectionMechanism where
  | any
  | mac
  | signature
  deriving DecidableEq, Repr

/-- `VerifyOptions`. -/
structure VerifyOptions where
  requiredProtection : ProtectionMechanism := .any
  sharedSecret : Bytes := []
  trustPool : Option (List Certificate) := none
  trustedCert : Option Certificate := none
  extraCerts : List CMPCertificate := []
  senderKID : Bytes := []
  requireDigitalSignatureKeyUsage : Bool := false
  allowSHA1Signatures : Bool := false

/-- `VerifyResult`. -/
structure VerifyResult where
  macVerified : Bool
  protectionParams : Option MACCredentialOption := none
  protectionCertificate : Option Certificate := none
  deriving DecidableEq, Repr

/-- A failure with a reason and a cause. -/
def unverified {α : Type} (reason : InvalidReason) (cause : Except GoError α) : Except GoError α :=
  match cause with
  | .ok a => .ok a
  | .error e => .error (.verificationWrapped reason e)

namespace PKIMessage

variable (cr : Crypto)

/-! ### Shared secrets -/

/-- `verifyPBM`: the key is derived from the secret by the parameters received. -/
def verifyPBM (m : PKIMessage) (alg : AlgorithmIdentifier) (o : VerifyOptions) :
    Except GoError VerifyResult := do
  if o.sharedSecret = [] then throw (.verification .missingSharedSecret)
  let (p, _) ← PbmParameter.unmarshal.run alg.parameters
  validatePBMIterationCount p.iterationCount
  let hash ← unverified .unsupportedAlgorithm (hashFromOID p.owf.algorithm)
  let macHash ← unverified .unsupportedAlgorithm (hmacHashFromOID p.mac.algorithm)
  let data ← m.protectedPart
  let k ← unverified .unsupportedAlgorithm
    (derivePBMKey cr o.sharedSecret p.salt p.iterationCount hash macHash)
  if cr.hmac macHash k data ≠ m.protection then throw (.verification .badMAC)
  pure { macVerified := true,
         protectionParams := some (.pbm p.iterationCount p.owf.algorithm p.mac.algorithm
           p.owf.parameters p.mac.parameters) }

/-- `verifyPBMAC1`: a key length of 0 is that of the hash. -/
def verifyPBMAC1 (m : PKIMessage) (alg : AlgorithmIdentifier) (o : VerifyOptions) :
    Except GoError VerifyResult := do
  if o.sharedSecret = [] then throw (.verification .missingSharedSecret)
  let (kdf, kdfParams, mac) ← parsePBMAC1Params alg.parameters
  if kdf ≠ oidPBKDF2 then
    throw (.verificationWrapped .unsupportedAlgorithm (.text (str "KDF OID " ++ oidString kdf)))
  let p ← parsePBKDF2Params kdfParams
  validatePBMIterationCount p.iterationCount
  let prfHash ← unverified .unsupportedAlgorithm (hmacHashFromOID p.prf)
  let macHash ← unverified .unsupportedAlgorithm (hmacHashFromOID mac)
  let keyLength := if p.keyLength = 0 then (macHash.size : ℤ) else p.keyLength
  validatePBKDF2KeyLength keyLength macHash
  let data ← m.protectedPart
  let k := cr.pbkdf2 prfHash o.sharedSecret p.salt p.iterationCount keyLength
  if cr.hmac macHash k data ≠ m.protection then throw (.verification .badMAC)
  pure { macVerified := true,
         protectionParams := some (.pbmac1 p.iterationCount keyLength p.prf mac) }

/-! ### Signatures -/

/-- `senderMatchesCertificate`: a sender without a directory name matches every
certificate; names are compared as strings. -/
def senderMatchesCertificate (sender : GeneralName) (cert : Certificate) : Bool :=
  if sender.directoryName = [] then true
  else match unmarshalRDNSequence cert.rawSubject with
    | some (subject, _) => sender.directoryName.string == subject.string
    | none => false

/-- `permittedToSign`: the key usage extension, when there is one, has the bit. -/
def permittedToSign (cert : Certificate) : Bool :=
  if cert.extensions.any fun e => e.id = oidExtensionKeyUsage then cert.keyUsageDigitalSignature
  else true

/-- `signatureChecker`. -/
def signatureChecker (alg : AlgorithmIdentifier) (allowSHA1 : Bool) :
    Except GoError (Certificate → Bytes → Bytes → Except GoError Unit) := do
  match ← compositeSignatureAlgorithm cr alg with
  | some composite =>
    pure fun cert data signature => do
      let key ← cr.parsePKIXPublicKey cert.rawSubjectPublicKeyInfo
      if key.composite? ≠ some composite then
        throw (.text (str "certificate key does not match the protection algorithm"))
      cr.compositeVerify key data signature
  | none => do
      let sigAlg ← signatureAlgorithm alg allowSHA1
      pure fun cert data signature => cr.checkSignature cert.publicKey sigAlg data signature

/-- What the search for the signer among the candidates has seen so far. -/
structure CandidateSearch where
  senderMismatch : Bool := false
  keyUsageRejected : Bool := false
  candidates : ℕ := 0

/-- The reason of a search that found no signer. -/
def CandidateSearch.reason (c : CandidateSearch) : InvalidReason :=
  if c.candidates = 0 then .noCandidateSigner
  else if c.senderMismatch then .senderMismatch
  else if c.keyUsageRejected then .keyUsageNotPermitted
  else .signatureFailed

/-- The loop over the candidates, which are already decoded. -/
def searchSigner (sender : GeneralName) (o : VerifyOptions) (pool : List Certificate)
    (intermediates : List Certificate) (now : Time) (check : Certificate → Except GoError Unit) :
    CandidateSearch → List Certificate → Except GoError VerifyResult
  | st, [] => .error (.verification st.reason)
  | st, cert :: rest =>
    let next := fun st => searchSigner sender o pool intermediates now check st rest
    if o.senderKID ≠ [] ∧ cert.subjectKeyId ≠ o.senderKID then next st
    else
      let st := { st with candidates := st.candidates + 1 }
      match cr.verifyPath cert pool intermediates now with
      | .error _ => next st
      | .ok _ =>
        if !senderMatchesCertificate sender cert then
          next { st with senderMismatch := true }
        else if o.requireDigitalSignatureKeyUsage && !permittedToSign cert then
          next { st with keyUsageRejected := true }
        else match check cert with
          | .ok _ => .ok { macVerified := false, protectionCertificate := some cert }
          | .error _ => next st

/-- `verifySignature`. -/
def verifySignature (m : PKIMessage) (alg : AlgorithmIdentifier) (o : VerifyOptions) (now : Time) :
    Except GoError VerifyResult := do
  let checkSignature ← signatureChecker cr alg o.allowSHA1Signatures
  let data ← m.protectedPart
  match o.trustedCert with
  | some cert =>
    if now.before cert.notBefore || cert.notAfter.before now then
      throw (.verification .certificateExpired)
    if !senderMatchesCertificate m.header.sender cert then
      throw (.verification .senderMismatch)
    if o.requireDigitalSignatureKeyUsage && !permittedToSign cert then
      throw (.verification .keyUsageNotPermitted)
    match checkSignature cert data m.protection with
    | .error _ => throw (.verification .signatureFailed)
    | .ok _ => pure { macVerified := false, protectionCertificate := some cert }
  | none =>
    match o.trustPool with
    | none => throw (.verification .missingTrustAnchors)
    | some pool =>
      let certs := o.extraCerts.filterMap fun c => (cr.parseCertificate c.raw).toOption
      searchSigner cr m.header.sender o pool certs now
        (fun cert => checkSignature cert data m.protection) {} certs

/-- `Verify`. -/
def verify (m : PKIMessage) (o : VerifyOptions) (now : Time) : Except GoError VerifyResult :=
  match m.header.protectionAlg with
  | none => parseError "message has no protection algorithm"
  | some alg =>
    if m.protection = [] then parseError "message is not protected"
    else if alg.algorithm = oidPasswordBasedMac ∨ alg.algorithm = oidPBMAC1 then
      if o.requiredProtection = .signature then
        .error (.verificationWrapped .unexpectedProtection
          (.text (str "message is MAC-protected but signature-based protection is required")))
      else if alg.algorithm = oidPasswordBasedMac then m.verifyPBM cr alg o
      else m.verifyPBMAC1 cr alg o
    else if (sigAlgFromOID alg.algorithm).isOk ∨ (sha1SigAlgFromOID alg.algorithm).isSome ∨
        (cr.compositeFromOID alg.algorithm).isSome then
      if o.requiredProtection = .mac then
        .error (.verificationWrapped .unexpectedProtection
          (.text (str "message is signature-protected but MAC-based protection is required")))
      else m.verifySignature cr alg o now
    else .error (.verificationWrapped .unsupportedAlgorithm
      (.text (str "OID " ++ oidString alg.algorithm)))

end PKIMessage

end PkiCmp
