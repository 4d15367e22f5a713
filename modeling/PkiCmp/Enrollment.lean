/-
Certificate responses, confirmations and polling (`pkicmp/enrollment.go`), and
revocation (`pkicmp/revocation.go`).
-/
import PkiCmp.Crmf

namespace PkiCmp

open Der

/-! ### Certificate responses -/

/-- `CertOrEncCert`. -/
inductive CertOrEncCert where
  | certificate (c : CMPCertificate)
  | encryptedCert (k : EncryptedKey)
  deriving DecidableEq, Repr

namespace CertOrEncCert

/-- Only an encrypted certificate can need version 3. -/
def needsPVNO3 : CertOrEncCert → Bool
  | .certificate _ => false
  | .encryptedCert k => k.needsPVNO3

/-- [0] for a certificate, [1] for an encrypted one. -/
def marshal : CertOrEncCert → Except GoError Bytes
  | .certificate c => addASN1 (contextConstructed 0) c.marshal
  | .encryptedCert k => addASN1 (contextConstructed 1) k.marshal

/-- The tag chooses the variant; what follows it inside is ignored. -/
def unmarshal : Reader CertOrEncCert := do
  if ← Reader.empty then throw (.parse (str "missing CertOrEncCert"))
  else if ← Reader.peek (contextConstructed 0) then do
    let sub ← Reader.element "invalid certificate tag" (contextConstructed 0)
    let c ← Reader.within sub CMPCertificate.unmarshal
    pure (.certificate c)
  else if ← Reader.peek (contextConstructed 1) then do
    let sub ← Reader.element "invalid encryptedCert tag" (contextConstructed 1)
    let k ← Reader.within sub EncryptedKey.unmarshal
    pure (.encryptedCert k)
  else throw (.parse (str "unsupported CertOrEncCert variant"))

end CertOrEncCert

/-- `CertifiedKeyPair`. -/
structure CertifiedKeyPair where
  certOrEncCert : CertOrEncCert
  privateKey : Option EncryptedKey := none
  deriving DecidableEq, Repr

namespace CertifiedKeyPair

/-- The certificate or the private key needs version 3. -/
def needsPVNO3 (ckp : CertifiedKeyPair) : Bool :=
  ckp.certOrEncCert.needsPVNO3 || ckp.privateKey.any EncryptedKey.needsPVNO3

/-- The private key is under [0]. -/
def marshal (ckp : CertifiedKeyPair) : Except GoError Bytes :=
  addASN1 tagSequence (concat [ckp.certOrEncCert.marshal,
    match ckp.privateKey with
    | some k => addASN1 (contextConstructed 0) k.marshal
    | none => .ok []])

/-- Data after the private key is ignored. -/
def unmarshal : Reader CertifiedKeyPair := do
  let seq ← Reader.element "invalid CertifiedKeyPair sequence" tagSequence
  Reader.within seq do
    let c ← CertOrEncCert.unmarshal
    let k ← if ← Reader.peek (contextConstructed 0) then do
        let sub ← Reader.element "invalid privateKey tag" (contextConstructed 0)
        let k ← Reader.within sub EncryptedKey.unmarshal
        pure (some k)
      else pure none
    pure ⟨c, k⟩

end CertifiedKeyPair

/-- `CertResponse`. -/
structure CertResponse where
  certReqID : ℤ
  status : PKIStatusInfo
  certifiedKeyPair : Option CertifiedKeyPair := none
  rspInfo : Bytes := []
  deriving DecidableEq, Repr

namespace CertResponse

/-- Only the key pair can need version 3. -/
def needsPVNO3 (r : CertResponse) : Bool := r.certifiedKeyPair.any CertifiedKeyPair.needsPVNO3

/-- `certifiedKeyPair` and `rspInfo` are left out when absent. -/
def marshal (r : CertResponse) : Except GoError Bytes :=
  addASN1 tagSequence (concat [addASN1Int r.certReqID, r.status.marshal,
    (match r.certifiedKeyPair with
      | some ckp => ckp.marshal
      | none => .ok []),
    optional (r.rspInfo ≠ []) (addASN1 tagOctetString (.ok r.rspInfo))])

/-- The next octet is a SEQUENCE tag or a context-specific one. -/
def startsKeyPair : Bytes → Bool
  | [] => false
  | b :: _ => b == tagSequence || b ||| 0x80 == b

/-- A key pair is read when the next octet can start one. -/
def unmarshal : Reader CertResponse := do
  let seq ← Reader.element "invalid CertResponse sequence" tagSequence
  Reader.within seq do
    let id ← Reader.read "invalid certReqId" readASN1Int64
    let status ← PKIStatusInfo.unmarshal
    let ckp ← if startsKeyPair (← get) then do
        let ckp ← CertifiedKeyPair.unmarshal
        pure (some ckp)
      else pure none
    let info ← if ← Reader.peek tagOctetString then Reader.element "invalid rspInfo" tagOctetString
      else pure []
    pure ⟨id, status, ckp, info⟩

end CertResponse

/-- `CertRepMessage`. -/
structure CertRepMessage where
  caPubs : List CMPCertificate := []
  response : List CertResponse
  deriving DecidableEq, Repr

namespace CertRepMessage

/-- Some response needs version 3; `caPubs` never do. -/
def needsPVNO3 (m : CertRepMessage) : Bool := m.response.any CertResponse.needsPVNO3

/-- `caPubs` are under [1] and left out when there are none. -/
def marshal (m : CertRepMessage) : Except GoError Bytes :=
  addASN1 tagSequence (concat [
    optional (m.caPubs ≠ []) (addASN1 (contextConstructed 1)
      (addASN1 tagSequence (concat (m.caPubs.map CMPCertificate.marshal)))),
    addASN1 tagSequence (concat (m.response.map CertResponse.marshal))])

/-- Data after the responses is ignored. -/
def unmarshal : Reader CertRepMessage := do
  let seq ← Reader.element "invalid CertRepMessage sequence" tagSequence
  Reader.within seq do
    let caPubs ← if ← Reader.peek (contextConstructed 1) then do
        let sub ← Reader.element "invalid caPubs tag" (contextConstructed 1)
        Reader.within sub do
          let certs ← Reader.element "invalid caPubs sequence" tagSequence
          Reader.within certs (Reader.many CMPCertificate.unmarshal)
      else pure []
    let resp ← Reader.element "invalid response sequence" tagSequence
    let resp ← Reader.within resp (Reader.many CertResponse.unmarshal)
    pure ⟨caPubs, resp⟩

end CertRepMessage

/-! ### Confirmation -/

/-- `CertStatus`. -/
structure CertStatus where
  certHash : Bytes
  certReqID : ℤ
  statusInfo : Option PKIStatusInfo := none
  hashAlg : Option AlgorithmIdentifier := none
  deriving DecidableEq, Repr

/-- `CertConfirmContent`. -/
abbrev CertConfirmContent := List CertStatus

namespace CertStatus

/-- `hashAlg` needs version 3. -/
def needsPVNO3 (s : CertStatus) : Bool := s.hashAlg.isSome

/-- `hashAlg` is under [0]. -/
def marshal (s : CertStatus) : Except GoError Bytes :=
  addASN1 tagSequence (concat [addASN1 tagOctetString (.ok s.certHash), addASN1Int s.certReqID,
    (match s.statusInfo with
      | some si => si.marshal
      | none => .ok []),
    (match s.hashAlg with
      | some a => addASN1 (contextConstructed 0) a.marshal
      | none => .ok [])])

/-- The hash algorithm, with nothing after it on either level. -/
def unmarshalHashAlg (sub : Bytes) : Except GoError AlgorithmIdentifier :=
  match readASN1 tagSequence sub with
  | none => parseError "invalid hashAlg sequence"
  | some (e, rest) => do
      let (a, left) ← AlgorithmIdentifier.unmarshalInner.run e.content
      if rest.isEmpty && left.isEmpty then .ok a else parseError "trailing hashAlg data"

/-- Nothing may follow the last field. -/
def unmarshal : Reader CertStatus := do
  let seq ← Reader.element "invalid CertStatus sequence" tagSequence
  Reader.within seq do
    let hash ← Reader.element "invalid certHash" tagOctetString
    let id ← Reader.read "invalid certReqId" readASN1Int64
    let si ← if ← Reader.peek tagSequence then do
        let si ← PKIStatusInfo.unmarshal
        pure (some si)
      else pure none
    let alg ← if ← Reader.peek (contextConstructed 0) then do
        let sub ← Reader.element "invalid hashAlg tag" (contextConstructed 0)
        let a ← unmarshalHashAlg sub
        pure (some a)
      else pure none
    if ← Reader.empty then pure ⟨hash, id, si, alg⟩
    else throw (.parse (str "trailing CertStatus data"))

end CertStatus

namespace CertConfirmContent

/-- Some status names its hash algorithm. -/
def needsPVNO3 (c : CertConfirmContent) : Bool := c.any CertStatus.needsPVNO3

/-- The statuses in one SEQUENCE. -/
def marshal (c : CertConfirmContent) : Except GoError Bytes :=
  addASN1 tagSequence (concat (c.map CertStatus.marshal))

/-- The statuses up to the end of the SEQUENCE. -/
def unmarshal : Reader CertConfirmContent := do
  let seq ← Reader.element "invalid CertConfirmContent sequence" tagSequence
  Reader.within seq (Reader.many CertStatus.unmarshal)

end CertConfirmContent

/-- `PKIConfirmContent.marshal`. -/
def marshalPKIConfirm : Except GoError Bytes := addASN1 tagNull (.ok [])

/-- `PKIConfirmContent.unmarshal`: empty, or a NULL. -/
def unmarshalPKIConfirm : Reader Unit := do
  if ← Reader.empty then pure ()
  else do
    let _ ← Reader.element "invalid PKIConfirmContent (expected NULL)" tagNull
    pure ()

/-! ### Polling -/

/-- `PollReqContent`. -/
abbrev PollReqContent := List ℤ

namespace PollReqContent

/-- Each identifier in a SEQUENCE of its own. -/
def marshal (c : PollReqContent) : Except GoError Bytes :=
  addASN1 tagSequence (concat (c.map fun id => addASN1 tagSequence (addASN1Int id)))

/-- Data after an identifier is ignored. -/
def unmarshal : Reader PollReqContent := do
  let seq ← Reader.element "invalid PollReqContent sequence" tagSequence
  Reader.within seq (Reader.many do
    let sub ← Reader.element "invalid pollReq element" tagSequence
    Reader.within sub (Reader.read "invalid certReqId in pollReq" readASN1Int64))

end PollReqContent

/-- `PollRepItem`. -/
structure PollRepItem where
  certReqID : ℤ
  checkAfter : ℤ
  reason : PKIFreeText := []
  deriving DecidableEq, Repr

/-- `PollRepContent`. -/
abbrev PollRepContent := List PollRepItem

namespace PollRepContent

/-- A reason is left out when it is empty. -/
def marshal (c : PollRepContent) : Except GoError Bytes :=
  addASN1 tagSequence (concat (c.map fun item =>
    addASN1 tagSequence (concat [addASN1Int item.certReqID, addASN1Int item.checkAfter,
      optional (item.reason ≠ []) (PKIFreeText.marshal item.reason)])))

/-- Whatever follows `checkAfter` has to be the reason. -/
def unmarshal : Reader PollRepContent := do
  let seq ← Reader.element "invalid PollRepContent sequence" tagSequence
  Reader.within seq (Reader.many do
    let sub ← Reader.element "invalid pollRep element" tagSequence
    Reader.within sub do
      let id ← Reader.read "invalid certReqId in pollRep" readASN1Int64
      let after ← Reader.read "invalid checkAfter in pollRep" readASN1Int64
      let reason ← if ← Reader.empty then pure [] else PKIFreeText.unmarshal
      pure ⟨id, after, reason⟩)

end PollRepContent

/-! ### Revocation -/

/-- The reasonCode extension of a CRL entry. -/
def oidCRLReason : OID := [2, 5, 29, 21]

/-- `CRLReason.Valid`. -/
def validCRLReason (r : ℤ) : Bool := 0 ≤ r && r ≤ 10 && r ≠ 7

/-- `RevDetails`. -/
structure RevDetails where
  certDetails : CertTemplate
  crlEntryDetails : Bytes := []
  deriving DecidableEq, Repr

/-- `RevReqContent`. -/
abbrev RevReqContent := List RevDetails

namespace RevDetails

/-- `CRLEntryExtensions`. -/
def crlEntryExtensions (d : RevDetails) : Except GoError (List Extension) :=
  if d.crlEntryDetails = [] then .ok []
  else match unmarshalExtensions d.crlEntryDetails with
    | none => .error (.parseWrapped (str "invalid crlEntryDetails") Asn1.error)
    | some (exts, []) => .ok exts
    | some (_, _ :: _) => parseError "trailing data in crlEntryDetails"

/-- `crlEntryDetails` has to be one SEQUENCE. -/
def marshal (d : RevDetails) : Except GoError Bytes :=
  addASN1 tagSequence (concat [d.certDetails.marshal,
    if d.crlEntryDetails = [] then .ok []
    else if isSingleElement d.crlEntryDetails tagSequence then .ok d.crlEntryDetails
    else .error (.text (str "pkicmp: invalid crlEntryDetails DER"))])

/-- The extensions are kept as they are. -/
def unmarshal : Reader RevDetails := do
  let seq ← Reader.element "invalid RevDetails sequence" tagSequence
  Reader.within seq do
    let t ← CertTemplate.unmarshal
    let exts ← if ← Reader.empty then pure [] else do
      let e ← Reader.read "invalid crlEntryDetails sequence" (readASN1 tagSequence)
      pure e.raw
    if ← Reader.empty then pure ⟨t, exts⟩
    else throw (.parse (str "trailing data in RevDetails"))

end RevDetails

namespace RevReqContent

/-- The details in one SEQUENCE. -/
def marshal (c : RevReqContent) : Except GoError Bytes :=
  addASN1 tagSequence (concat (c.map RevDetails.marshal))

/-- The details up to the end of the SEQUENCE. -/
def unmarshal : Reader RevReqContent := do
  let seq ← Reader.element "invalid RevReqContent sequence" tagSequence
  Reader.within seq (Reader.many RevDetails.unmarshal)

end RevReqContent

/-- `CertID`. -/
structure CertID where
  issuer : GeneralName
  serialNumber : Option ℤ
  deriving DecidableEq, Repr

namespace CertID

/-- A missing serial number is refused. -/
def marshal (id : CertID) : Except GoError Bytes :=
  addASN1 tagSequence (match id.serialNumber with
    | none => .error (.text (str "pkicmp: CertId serial number is nil"))
    | some n => concat [id.issuer.marshal, addASN1Int n])

/-- Nothing may follow the serial number. -/
def unmarshal : Reader CertID := do
  let seq ← Reader.element "invalid CertId sequence" tagSequence
  Reader.within seq do
    let issuer ← GeneralName.unmarshal
    let n ← Reader.read "invalid CertId serialNumber" readASN1BigInt
    if ← Reader.empty then pure ⟨issuer, some n⟩
    else throw (.parse (str "trailing data in CertId"))

end CertID

/-- `RevRepContent`. -/
structure RevRepContent where
  status : List PKIStatusInfo
  revCerts : List CertID := []
  crls : List Bytes := []
  deriving DecidableEq, Repr

namespace RevRepContent

/-- `revCerts` and `crls` are left out when empty; a CRL has to be one SEQUENCE. -/
def marshal (c : RevRepContent) : Except GoError Bytes :=
  addASN1 tagSequence (concat [
    addASN1 tagSequence (concat (c.status.map PKIStatusInfo.marshal)),
    optional (c.revCerts ≠ []) (addASN1 (contextConstructed 0)
      (addASN1 tagSequence (concat (c.revCerts.map CertID.marshal)))),
    optional (c.crls ≠ []) (addASN1 (contextConstructed 1)
      (addASN1 tagSequence (concat (c.crls.map fun crl =>
        if isSingleElement crl tagSequence then .ok crl
        else .error (.text (str "pkicmp: invalid CertificateList DER"))))))])

/-- A tagged SEQUENCE that is all of the tagged content. -/
def tagged {α : Type} (tag : UInt8) (detail : String) (r : Reader (List α)) : Reader (List α) := do
  if ← Reader.peek tag then do
    let sub ← Reader.element detail tag
    match readASN1 tagSequence sub with
    | some (e, []) => Reader.within e.content r
    | _ => throw (.parse (str detail))
  else pure []

/-- Nothing may follow the last field. -/
def unmarshal : Reader RevRepContent := do
  let seq ← Reader.element "invalid RevRepContent sequence" tagSequence
  Reader.within seq do
    let statusSeq ← Reader.element "invalid RevRepContent status sequence" tagSequence
    let status ← Reader.within statusSeq (Reader.many PKIStatusInfo.unmarshal)
    let ids ← tagged (contextConstructed 0) "invalid revCerts" (Reader.many CertID.unmarshal)
    let crls ← tagged (contextConstructed 1) "invalid crls" (Reader.many do
      let e ← Reader.read "invalid CertificateList" (readASN1 tagSequence)
      pure e.raw)
    if ← Reader.empty then pure ⟨status, ids, crls⟩
    else throw (.parse (str "trailing data in RevRepContent"))

end RevRepContent

end PkiCmp
