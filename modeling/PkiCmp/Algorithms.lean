/-
Algorithm identifiers, certificate hashes and proof of possession
(`pkicmp/algorithms.go`, `pkicmp/pop.go`).

* `hashFromOID`, `hmacHashFromOID`, `signatureAlgorithm`: what an identifier means;
* `certHash`, `CertStatus.certificateHash`: the hash a certificate is confirmed by;
* `verifyPOPWithOptions`: the check of a signature proof, which accepts a
  request without one.
-/
import PkiCmp.Message

namespace PkiCmp

open Der

/-! ### Object identifiers -/

/-- Hashes. -/
def oidSHA1 : OID := [1, 3, 14, 3, 2, 26]
def oidSHA224 : OID := [2, 16, 840, 1, 101, 3, 4, 2, 4]
def oidSHA256 : OID := [2, 16, 840, 1, 101, 3, 4, 2, 1]
def oidSHA384 : OID := [2, 16, 840, 1, 101, 3, 4, 2, 2]
def oidSHA512 : OID := [2, 16, 840, 1, 101, 3, 4, 2, 3]

/-- Signatures with SHA-1. -/
def oidSHA1WithRSAEncryption : OID := [1, 2, 840, 113549, 1, 1, 5]
def oidECDSAWithSHA1 : OID := [1, 2, 840, 10045, 4, 1]

/-- Signatures. -/
def oidSHA256WithRSAEncryption : OID := [1, 2, 840, 113549, 1, 1, 11]
def oidSHA384WithRSAEncryption : OID := [1, 2, 840, 113549, 1, 1, 12]
def oidSHA512WithRSAEncryption : OID := [1, 2, 840, 113549, 1, 1, 13]
def oidECDSAWithSHA256 : OID := [1, 2, 840, 10045, 4, 3, 2]
def oidECDSAWithSHA384 : OID := [1, 2, 840, 10045, 4, 3, 3]
def oidECDSAWithSHA512 : OID := [1, 2, 840, 10045, 4, 3, 4]
def oidEd25519 : OID := [1, 3, 101, 112]
def oidMLDSA44 : OID := [2, 16, 840, 1, 101, 3, 4, 3, 17]
def oidMLDSA65 : OID := [2, 16, 840, 1, 101, 3, 4, 3, 18]
def oidMLDSA87 : OID := [2, 16, 840, 1, 101, 3, 4, 3, 19]

/-- Password-based MACs. -/
def oidPasswordBasedMac : OID := [1, 2, 840, 113533, 7, 66, 13]
def oidPBMMacHMACSHA1 : OID := [1, 3, 6, 1, 5, 5, 8, 1, 2]
def oidPBMAC1 : OID := [1, 2, 840, 113549, 1, 5, 14]
def oidPBKDF2 : OID := [1, 2, 840, 113549, 1, 5, 12]

/-- HMACs. -/
def oidHMACWithSHA1 : OID := [1, 2, 840, 113549, 2, 7]
def oidHMACWithSHA224 : OID := [1, 2, 840, 113549, 2, 8]
def oidHMACWithSHA256 : OID := [1, 2, 840, 113549, 2, 9]
def oidHMACWithSHA384 : OID := [1, 2, 840, 113549, 2, 10]
def oidHMACWithSHA512 : OID := [1, 2, 840, 113549, 2, 11]

/-- The keyUsage extension. -/
def oidExtensionKeyUsage : OID := [2, 5, 29, 15]

/-- Types of general information. -/
def oidConfirmWaitTime : OID := [1, 3, 6, 1, 5, 5, 7, 4, 14]
def oidImplicitConfirm : OID := [1, 3, 6, 1, 5, 5, 7, 4, 13]

/-! ### What an identifier means -/

/-- An error with a detail that ends in an identifier. -/
def unsupported {α : Type} (what : String) (oid : OID) : Except GoError α :=
  .error (.parse (str what ++ oidString oid))

/-- The hashes of the password-based MAC. -/
def hashFromOID (oid : OID) : Except GoError Hash :=
  if oid = oidSHA1 then .ok .sha1
  else if oid = oidSHA224 then .ok .sha224
  else if oid = oidSHA256 then .ok .sha256
  else if oid = oidSHA384 then .ok .sha384
  else if oid = oidSHA512 then .ok .sha512
  else unsupported "unsupported hash algorithm: " oid

/-- The hash of an HMAC; SHA-1 has two identifiers. -/
def hmacHashFromOID (oid : OID) : Except GoError Hash :=
  if oid = oidHMACWithSHA1 ∨ oid = oidPBMMacHMACSHA1 then .ok .sha1
  else if oid = oidHMACWithSHA224 then .ok .sha224
  else if oid = oidHMACWithSHA256 then .ok .sha256
  else if oid = oidHMACWithSHA384 then .ok .sha384
  else if oid = oidHMACWithSHA512 then .ok .sha512
  else unsupported "unsupported HMAC algorithm: " oid

/-- The signature algorithms that are always allowed. -/
def sigAlgFromOID (oid : OID) : Except GoError SignatureAlgorithm :=
  if oid = oidSHA256WithRSAEncryption then .ok .sha256WithRSA
  else if oid = oidSHA384WithRSAEncryption then .ok .sha384WithRSA
  else if oid = oidSHA512WithRSAEncryption then .ok .sha512WithRSA
  else if oid = oidECDSAWithSHA256 then .ok .ecdsaWithSHA256
  else if oid = oidECDSAWithSHA384 then .ok .ecdsaWithSHA384
  else if oid = oidECDSAWithSHA512 then .ok .ecdsaWithSHA512
  else if oid = oidEd25519 then .ok .pureEd25519
  else if oid = oidMLDSA44 then .ok .mldsa44
  else if oid = oidMLDSA65 then .ok .mldsa65
  else if oid = oidMLDSA87 then .ok .mldsa87
  else unsupported "unsupported signature algorithm: " oid

/-- The signature algorithms that use SHA-1. -/
def sha1SigAlgFromOID (oid : OID) : Option SignatureAlgorithm :=
  if oid = oidSHA1WithRSAEncryption then some .sha1WithRSA
  else if oid = oidECDSAWithSHA1 then some .ecdsaWithSHA1
  else none

/-- Parameters are checked before the identifier is resolved; SHA-1 only when
it is allowed. -/
def signatureAlgorithm (alg : AlgorithmIdentifier) (allowSHA1 : Bool) :
    Except GoError SignatureAlgorithm :=
  if (alg.algorithm = oidMLDSA44 ∨ alg.algorithm = oidMLDSA65 ∨ alg.algorithm = oidMLDSA87) ∧
      alg.parameters ≠ [] then
    parseError "ML-DSA parameters must be absent"
  else match sha1SigAlgFromOID alg.algorithm with
    | some sigAlg =>
      if allowSHA1 then .ok sigAlg
      else .error (.verificationWrapped .unsupportedAlgorithm
        (.text (str "SHA-1 signature algorithm " ++ oidString alg.algorithm ++
          str " is deprecated and not enabled")))
    | none => sigAlgFromOID alg.algorithm

/-- The composite algorithm an identifier names, if it names one. -/
def compositeSignatureAlgorithm (cr : Crypto) (alg : AlgorithmIdentifier) :
    Except GoError (Option ℕ) :=
  match cr.compositeFromOID alg.algorithm with
  | none => .ok none
  | some a =>
    if alg.parameters ≠ [] then parseError "composite ML-DSA parameters must be absent"
    else .ok (some a)

/-! ### Certificate hashes -/

/-- `hashFromSigAlg`; `none` is the zero hash. -/
def hashFromSigAlg : SignatureAlgorithm → Option Hash
  | .sha1WithRSA | .dsaWithSHA1 | .ecdsaWithSHA1 => some .sha1
  | .sha256WithRSA | .ecdsaWithSHA256 | .sha256WithRSAPSS => some .sha256
  | .sha384WithRSA | .ecdsaWithSHA384 | .sha384WithRSAPSS => some .sha384
  | .sha512WithRSA | .ecdsaWithSHA512 | .sha512WithRSAPSS => some .sha512
  | .pureEd25519 => some .sha512
  | _ => none

/-- The hash of the signature algorithm, or of the composite one. -/
def certHashFunc (cr : Crypto) (cert : Certificate) : Option Hash :=
  match hashFromSigAlg cert.signatureAlgorithm with
  | some h => some h
  | none => (cr.compositeSignatureAlgorithm cert.raw).map cr.compositePreHash

/-- `x509.SignatureAlgorithm.String`, for the algorithms without a hash. -/
def signatureAlgorithmName : SignatureAlgorithm → GoString
  | .mldsa44 => str "ML-DSA-44"
  | .mldsa65 => str "ML-DSA-65"
  | .mldsa87 => str "ML-DSA-87"
  | _ => str "0"

/-- `CertHash`. -/
def certHash (cr : Crypto) (cert : Certificate) : Except GoError Bytes :=
  match certHashFunc cr cert with
  | some h => .ok (cr.hash h cert.raw)
  | none =>
    .error (.parse (str "no certHash algorithm for signature algorithm " ++
      signatureAlgorithmName cert.signatureAlgorithm))

/-- `CertStatus.CertificateHash`: with the declared algorithm, or the
certificate's own. -/
def CertStatus.certificateHash (cr : Crypto) (s : CertStatus) (cert : Certificate) :
    Except GoError Bytes :=
  match s.hashAlg with
  | none => PkiCmp.certHash cr cert
  | some alg => do
      let hash ← hashFromOID alg.algorithm
      -- `hash < crypto.SHA256`
      if hash = .sha1 ∨ hash = .sha224 then parseError "unsupported confirmation hash"
      else if alg.parameters ≠ [] ∧ alg.parameters ≠ [5, 0] then
        parseError "invalid confirmation hash parameters"
      else .ok (cr.hash hash cert.raw)

/-- `hashOID`. -/
def hashOID : Hash → OID
  | .sha256 => oidSHA256
  | .sha384 => oidSHA384
  | _ => oidSHA512

/-- `NewCertStatus`. -/
def newCertStatus (cr : Crypto) (cert : Certificate) (certReqID : ℤ) :
    Except GoError CertStatus :=
  match cert.signatureAlgorithm with
  | .mldsa44 | .mldsa65 | .mldsa87 =>
    .ok { certHash := cr.hash .sha512 cert.raw, certReqID,
          hashAlg := some { algorithm := oidSHA512 } }
  | _ => do
      let hash ← certHash cr cert
      .ok { certHash := hash, certReqID,
            hashAlg := (cr.compositeSignatureAlgorithm cert.raw).map fun a =>
              { algorithm := hashOID (cr.compositePreHash a) } }

/-- A new status says nothing but the hash. -/
lemma newCertStatus_statusInfo {cr : Crypto} {cert : Certificate} {certReqID : ℤ} {s : CertStatus}
    (h : newCertStatus cr cert certReqID = .ok s) : s.statusInfo = none := by
  unfold newCertStatus at h
  split at h
  · cases h
    rfl
  · cases h
    rfl
  · cases h
    rfl
  · obtain ⟨hash, -, h⟩ := Except.bind_eq_ok.mp h
    cases h
    rfl

/-! ### Signing -/

/-- `signatureAlgorithmFromKey`: the identifier and the hash a key of this type
signs with; `none` is the zero hash. -/
def signatureAlgorithmFromKey (cr : Crypto) (pub : PublicKey) :
    Except GoError (OID × Option Hash) :=
  match pub.type with
  | .rsa bits =>
    if 4096 ≤ bits then .ok (oidSHA512WithRSAEncryption, some .sha512)
    else if 3072 ≤ bits then .ok (oidSHA384WithRSAEncryption, some .sha384)
    else .ok (oidSHA256WithRSAEncryption, some .sha256)
  | .ecdsa 256 => .ok (oidECDSAWithSHA256, some .sha256)
  | .ecdsa 384 => .ok (oidECDSAWithSHA384, some .sha384)
  | .ecdsa 521 => .ok (oidECDSAWithSHA512, some .sha512)
  | .ecdsa n => .error (.parse (str "unsupported ECDSA curve size: " ++ decimal n))
  | .ed25519 => .ok (oidEd25519, none)
  | .mldsa 44 => .ok (oidMLDSA44, none)
  | .mldsa 65 => .ok (oidMLDSA65, none)
  | .mldsa 87 => .ok (oidMLDSA87, none)
  | .mldsa _ => parseError "unsupported ML-DSA parameters"
  | .compositeMLDSA a => .ok (cr.compositeOID a, none)
  | .x25519 | .other => parseError "unsupported public key type"

/-! ### Header information values -/

/-- `ImplicitConfirmInfoValue`. -/
def implicitConfirmInfoValue : InfoTypeAndValue := { infoType := oidImplicitConfirm }

/-- `ConfirmWaitTimeInfoValue`: the deadline in whole seconds.  A time the
encoder cannot represent leaves the value empty. -/
def confirmWaitTimeInfoValue (now : Time) (d : Duration) : InfoTypeAndValue :=
  let deadline := now + (if d < 0 then 0 else d)
  let value : Except GoError Bytes :=
    addASN1GeneralizedTime (deadline / Time.second * Time.second)
  { infoType := oidConfirmWaitTime,
    infoValue := match value with
      | .ok v => v
      | .error _ => [] }

/-- `ParseConfirmWaitTime`. -/
def parseConfirmWaitTime (itav : InfoTypeAndValue) : Except GoError Time :=
  if itav.infoType ≠ oidConfirmWaitTime then parseError "not a confirmWaitTime info value"
  else match Asn1.unmarshalTime itav.infoValue with
    | none => .error (.parse (str "invalid confirmWaitTime: " ++ Asn1.error.Error))
    | some (deadline, rest) =>
      if rest ≠ [] then parseError "trailing data after confirmWaitTime" else .ok deadline

/-! ### Proof of possession -/

/-- The signature of a proof over the request as received, under the key of its
template. -/
def verifyPOPSignature (cr : Crypto) (certReqDER : Bytes) (pub : PublicKey) (sig : PopoSigningKey)
    (allowSHA1 : Bool) : Except GoError Unit :=
  if certReqDER = [] then parseError "no raw CertRequest DER available for POP verification"
  else do
    let composite ← compositeSignatureAlgorithm cr sig.algorithm
    if composite.isSome ∨ pub.composite?.isSome then
      -- a composite algorithm must be the one of the key
      if composite ≠ pub.composite? then
        .error (.text (str "pkicmp: POP algorithm does not match the requested public key"))
      else cr.compositeVerify pub certReqDER sig.signature
    else do
      let sigAlg ← signatureAlgorithm sig.algorithm allowSHA1
      cr.checkSignature (some pub) sigAlg certReqDER sig.signature

/-- `VerifyPOPWithOptions`. -/
def verifyPOPWithOptions (cr : Crypto) (reqMsg : CertReqMsg) (allowSHA1 : Bool) :
    Except GoError Unit :=
  match reqMsg.popo with
  | none => .ok ()
  | some popo =>
    if popo.raVerified then parseError "raVerified POP not supported"
    else match popo.signature with
      | none => .ok ()
      | some sig =>
        if reqMsg.certReq.certTemplate.publicKey = [] then
          parseError "no public key in template for POP verification"
        else match cr.parsePKIXPublicKey reqMsg.certReq.certTemplate.publicKey with
          | .error e => .error (.wrapped (str "pkicmp: parse public key for POP") e)
          | .ok pub => verifyPOPSignature cr reqMsg.certReq.raw pub sig allowSHA1

/-- The signature verifies under the key over the data: a composite one when the
key is composite, any other by its algorithm. -/
def PopoSigningKey.Verifies (cr : Crypto) (sig : PopoSigningKey) (K : PublicKey) (data : Bytes)
    (allowSHA1 : Bool) : Prop :=
  (∃ a, K.composite? = some a ∧ compositeSignatureAlgorithm cr sig.algorithm = .ok (some a) ∧
    cr.compositeVerify K data sig.signature = .ok ()) ∨
  ∃ alg, K.composite? = none ∧ signatureAlgorithm sig.algorithm allowSHA1 = .ok alg ∧
    cr.checkSignature (some K) alg data sig.signature = .ok ()

/-- What the check of a signature proof has found. -/
lemma verifyPOPSignature_ok {cr : Crypto} {data : Bytes} {K : PublicKey} {sig : PopoSigningKey}
    {allow : Bool}
    (h : verifyPOPSignature cr data K sig allow = .ok ()) : sig.Verifies cr K data allow := by
  unfold verifyPOPSignature at h
  split_ifs at h with hempty
  · cases h
  · obtain ⟨composite, hc, h⟩ := Except.bind_eq_ok.mp h
    split_ifs at h with hany hne
    · rw [not_not] at hne
      subst hne
      rw [or_self, Option.isSome_iff_exists] at hany
      obtain ⟨a, ha⟩ := hany
      exact .inl ⟨a, ha, ha ▸ hc, h⟩
    · obtain ⟨alg, halg, h⟩ := Except.bind_eq_ok.mp h
      exact .inr ⟨alg, by simpa using fun hk => hany (.inr hk), halg, h⟩

/-- A signature proof that passes was checked over the request as received. -/
lemma verifyPOPWithOptions_ok {cr : Crypto} {m : CertReqMsg} {popo : ProofOfPossession}
    {sig : PopoSigningKey} {allow : Bool} (h : verifyPOPWithOptions cr m allow = .ok ())
    (hp : m.popo = some popo) (hs : popo.signature = some sig) :
    ∃ K, popo.raVerified = false ∧
      cr.parsePKIXPublicKey m.certReq.certTemplate.publicKey = .ok K ∧
      sig.Verifies cr K m.certReq.raw allow := by
  simp only [verifyPOPWithOptions, hp, hs] at h
  split_ifs at h with hra
  · cases h
  · cases h
  · split at h
    · cases h
    · next K hK => exact ⟨K, by simpa using hra, hK, verifyPOPSignature_ok h⟩

end PkiCmp
