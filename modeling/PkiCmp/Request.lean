/-
What a client puts into its requests (`pkicmp/crmf.go`, `pkicmp/revocation.go`,
`NewPKIMessage`).

* `CertReqMsg.generatePOP`: the proof of possession by signature;
* `newOldCertIDControl`, `newRevDetails`: a certificate named by issuer and
  serial number.
-/
import PkiCmp.Verify

namespace PkiCmp

open Der

/-- `encoding/asn1` reports one error. -/
def asn1Marshal (f : Except GoError Bytes) : Except GoError Bytes :=
  f.mapError fun _ => Asn1.error

/-- `asn1.Marshal` of a list of extensions. -/
def marshalExtensions (exts : List Extension) : Except GoError Bytes :=
  asn1Marshal (addASN1 tagSequence (concat (exts.map fun e =>
    addASN1 tagSequence (concat [addASN1ObjectIdentifier e.id,
      optional e.critical (addASN1 tagBoolean (.ok [0xff])),
      addASN1OctetString e.value]))))

/-- `GeneratePOP`: sign the encoded request. -/
def CertReqMsg.generatePOP (cr : Crypto) (m : CertReqMsg) (key : Signer) :
    Except GoError CertReqMsg :=
  match m.certReq.marshal with
  | .error e => .error (.parseWrapped (str "marshal CertRequest for POP") e)
  | .ok certReqDER => do
      let (oid, hash) ← signatureAlgorithmFromKey cr key.pub
      let digest := match hash with
        | some h => cr.hash h certReqDER
        | none => certReqDER
      match key.sign digest hash with
      | .error e => .error (.parseWrapped (str "sign POP") e)
      | .ok sig =>
        let signature : PopoSigningKey := { algorithm := { algorithm := oid }, signature := sig }
        .ok { m with popo := some { signature := some signature } }

/-- The control that names the certificate to be updated. -/
def oidRegCtrlOldCertID : OID := [1, 3, 6, 1, 5, 5, 7, 5, 1, 5]

/-- `NewOldCertIDControl`. -/
def newOldCertIDControl (cert : Certificate) : Except GoError Control :=
  match cert.serialNumber with
  | none => .error (.text (str "pkicmp: oldCertID certificate serial number is nil"))
  | some serial =>
    match addASN1 tagSequence (concat
        [(newDirectoryNameFromRawDER cert.rawIssuer).marshal, addASN1Int serial]) with
    | .error e => .error (.wrapped (str "pkicmp: encode oldCertID") e)
    | .ok value => .ok ⟨oidRegCtrlOldCertID, value⟩

/-- `asn1.Marshal` of an `asn1.Enumerated`. -/
def marshalEnumerated (v : ℤ) : Except GoError Bytes := addASN1 10 (.ok (intOctets v))

/-- `NewRevDetails`. -/
def newRevDetails (cert : Option Certificate) (reason : ℤ) : Except GoError RevDetails :=
  match cert with
  | none => .error (.text (str "pkicmp: revocation certificate is nil"))
  | some cert =>
    match cert.serialNumber with
    | none => .error (.text (str "pkicmp: revocation certificate serial number is nil"))
    | some serial =>
      if !validCRLReason reason then
        .error (.text (str "pkicmp: invalid CRL reason " ++ decimal reason))
      else match marshalEnumerated reason with
        | .error e => .error (.wrapped (str "pkicmp: encode CRL reason") e)
        | .ok value =>
          match marshalExtensions [{ id := oidCRLReason, critical := false, value }] with
          | .error e => .error (.wrapped (str "pkicmp: encode crlEntryDetails") e)
          | .ok crlEntryDetails =>
            .ok { certDetails := { serialNumber := some serial, issuer := cert.rawIssuer }
                  crlEntryDetails }

/-- `CertReqMessages` of a body. -/
def PKIBody.getCertReqMessages (b : PKIBody) : Except GoError CertReqMessages :=
  if b.type = BodyTypeIR then b.getIR
  else if b.type = BodyTypeCR then b.getCR
  else if b.type = BodyTypeKUR then b.getKUR
  else .error (.parse (str "body type " ++ bodyTypeName b.type ++ str " is not a cert request"))

/-- `NewPKIMessage`, with the random values and the time it draws. -/
def newPKIMessage (body : PKIBody) (sender recipient : GeneralName) (recipNonce : Bytes)
    (transactionID senderNonce : Bytes) (now : Time) : PKIMessage where
  header :=
    { pvno := PVNO2, sender, recipient, messageTime := now, transactionID, senderNonce, recipNonce }
  body

end PkiCmp
