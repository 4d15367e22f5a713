/-
Certificate requests (`pkicmp/crmf.go`): `CertReqMessages` down to the template
and the proof of possession.

A decoded `CertRequest` keeps the element it was decoded from in `raw`; the
proof of possession is checked over that.  Fields that a template repeats
overwrite each other, fields it does not know are skipped.
-/
import PkiCmp.Status

namespace PkiCmp

open Der

/-- The DER is one element with the tag and nothing else. -/
def isSingleElement (der : Bytes) (tag : UInt8) : Bool :=
  match readASN1 tag der with
  | some (_, rest) => rest.isEmpty
  | none => false

/-! ### Templates -/

/-- `CertTemplate`. -/
structure CertTemplate where
  serialNumber : Option ℤ := none
  issuer : Bytes := []
  subject : GeneralName := {}
  publicKey : Bytes := []
  extensions : Bytes := []
  deriving DecidableEq, Repr

namespace CertTemplate

/-- A field that carries the content of a SEQUENCE under an implicit tag. -/
def marshalStripped (tag : UInt8) (what : String) (der : Bytes) : Except GoError Bytes :=
  if der = [] then .ok []
  else match stripSequence der with
    | .ok c => addASN1 tag (.ok c)
    | .error e => .error (.wrapped (str what) e)

/-- An absent field is left out; an issuer has to be one SEQUENCE. -/
def marshal (t : CertTemplate) : Except GoError Bytes :=
  addASN1 tagSequence (concat [
    (match t.serialNumber with
      | some n => addASN1 (context 1) (.ok (intOctets n))
      | none => .ok []),
    (if t.issuer = [] then .ok []
      else if isSingleElement t.issuer tagSequence then
        addASN1 (contextConstructed 3) (.ok t.issuer)
      else .error (.text (str "pkicmp: invalid issuer DER"))),
    optional (t.subject.directoryName ≠ [])
      (addASN1 (contextConstructed 5) (marshalRDNSequence t.subject.directoryName)),
    marshalStripped (contextConstructed 6) "pkicmp: invalid publicKey DER" t.publicKey,
    marshalStripped (contextConstructed 9) "pkicmp: invalid extensions DER" t.extensions])

/-- `unmarshalImplicitBigInt`. -/
def unmarshalImplicitBigInt (content : Bytes) : Except GoError ℤ :=
  if checkASN1Integer content then .ok (intValue content) else parseError "invalid integer"

/-- One element of a template. -/
def field (t : CertTemplate) (e : Element) : Except GoError CertTemplate :=
  if e.tag = context 1 then do
    let n ← unmarshalImplicitBigInt e.content
    .ok { t with serialNumber := some n }
  else if e.tag = contextConstructed 3 then
    match readASN1 tagSequence e.content with
    | some (n, []) => .ok { t with issuer := n.raw }
    | _ => parseError "invalid issuer name"
  else if e.tag = contextConstructed 5 then do
    let (rdns, _) ← parseRDNSequence.run e.content
    .ok { t with subject := { t.subject with directoryName := rdns } }
  else if e.tag = contextConstructed 6 then
    .ok { t with publicKey := element tagSequence e.content }
  else if e.tag = contextConstructed 9 then
    .ok { t with extensions := element tagSequence e.content }
  else .ok t

/-- Fields in any order; elements with other tags are skipped. -/
def unmarshal : Reader CertTemplate := do
  let seq ← Reader.element "invalid CertTemplate sequence" tagSequence
  let es ← Reader.within seq (Reader.many (Reader.anyElement "invalid CertTemplate element"))
  match es.foldlM field {} with
  | .ok t => pure t
  | .error e => throw e

end CertTemplate

/-! ### Controls and requests -/

/-- `pkicmp.AttributeTypeAndValue`: a control. -/
structure Control where
  type : OID
  value : Bytes
  deriving DecidableEq, Repr

namespace Control

/-- A control without a value is refused. -/
def marshal (a : Control) : Except GoError Bytes :=
  addASN1 tagSequence (concat [addASN1ObjectIdentifier a.type,
    if a.value = [] then .error (.text (str "pkicmp: attribute type and value is empty"))
    else .ok a.value])

/-- Nothing may follow the value. -/
def unmarshal : Reader Control := do
  let seq ← Reader.element "invalid AttributeTypeAndValue sequence" tagSequence
  Reader.within seq do
    let oid ← Reader.read "invalid AttributeTypeAndValue OID" readASN1ObjectIdentifier
    let v ← Reader.anyElement "invalid AttributeTypeAndValue value"
    if ← Reader.empty then pure ⟨oid, v.raw⟩
    else throw (.parse (str "invalid AttributeTypeAndValue value"))

end Control

/-- `CertRequest`. -/
structure CertRequest where
  certReqID : ℤ
  certTemplate : CertTemplate
  controls : List Control := []
  raw : Bytes := []
  deriving DecidableEq, Repr

namespace CertRequest

/-- `controls` are left out when there are none. -/
def marshal (r : CertRequest) : Except GoError Bytes :=
  addASN1 tagSequence (concat [addASN1Int r.certReqID, r.certTemplate.marshal,
    optional (r.controls ≠ [])
      (addASN1 tagSequence (concat (r.controls.map Control.marshal)))])

/-- The element itself is kept in `raw`; empty controls are refused. -/
def unmarshal : Reader CertRequest := do
  let e ← Reader.read "invalid CertRequest sequence" (readASN1 tagSequence)
  Reader.within e.content do
    let id ← Reader.read "invalid certReqId" readASN1Int64
    let t ← CertTemplate.unmarshal
    if ← Reader.empty then pure ⟨id, t, [], e.raw⟩
    else do
      let seq ← Reader.element "invalid Controls sequence" tagSequence
      if seq = [] then throw (.parse (str "invalid Controls sequence"))
      let controls ← Reader.within seq (Reader.many Control.unmarshal)
      if ← Reader.empty then pure ⟨id, t, controls, e.raw⟩
      else throw (.parse (str "trailing data in CertRequest"))

/-- A decoded request keeps the element it was decoded from. -/
lemma unmarshal_raw {s s' : Bytes} {r : CertRequest}
    (h : unmarshal s = .ok (r, s')) :
    ∃ e, readASN1 tagSequence s = some (e, s') ∧ r.raw = e.raw := by
  obtain ⟨e, s1, he, h⟩ := Reader.bind_ok.mp h
  obtain ⟨rfl, rest, h⟩ := Reader.within_ok h
  refine ⟨e, Reader.read_ok.mp he, ?_⟩
  simp only [Reader.bind_ok] at h
  obtain ⟨id, s2, -, t, s3, -, done, s4, -, h⟩ := h
  cases done with
  | true => cases h; rfl
  | false =>
    simp only [Bool.false_eq_true, if_false, Reader.bind_ok] at h
    obtain ⟨seq, s5, -, h⟩ := h
    split_ifs at h
    · obtain ⟨_, _, h, -⟩ := Reader.bind_ok.mp h
      cases h
    · obtain ⟨controls, s6, -, h⟩ := Reader.bind_ok.mp h
      obtain ⟨done, s7, -, h⟩ := Reader.bind_ok.mp h
      cases done with
      | true => cases h; rfl
      | false => cases h

end CertRequest

/-! ### Proof of possession -/

/-- `popoSigningKeyInput`. -/
structure PopoSigningKeyInput where
  sender : Option GeneralName
  publicKey : Bytes
  deriving DecidableEq, Repr

/-- `popoSigningKey`. -/
structure PopoSigningKey where
  poposkInput : Option PopoSigningKeyInput := none
  algorithm : AlgorithmIdentifier
  signature : Bytes
  deriving DecidableEq, Repr

/-- `popoPrivKey`. -/
structure PopoPrivKey where
  subsequentMessage : Option ℤ := none
  encryptedKey : Option Bytes := none
  deriving DecidableEq, Repr

/-- `proofOfPossession`. -/
structure ProofOfPossession where
  raVerified : Bool := false
  signature : Option PopoSigningKey := none
  keyEncipherment : Option PopoPrivKey := none
  keyAgreement : Option PopoPrivKey := none
  deriving DecidableEq, Repr

namespace PopoSigningKeyInput

/-- The sender under [0], then the key as it is. -/
def marshalInner (p : PopoSigningKeyInput) : Except GoError Bytes :=
  concat [
    (match p.sender with
      | some s => addASN1 (contextConstructed 0) s.marshal
      | none => .ok []),
    .ok p.publicKey]

/-- The key is any element. -/
def unmarshalInner : Reader PopoSigningKeyInput := do
  let sender ← if ← Reader.peek (contextConstructed 0) then do
      let sub ← Reader.element "invalid sender tag" (contextConstructed 0)
      let s ← Reader.within sub GeneralName.unmarshal
      pure (some s)
    else pure none
  let pub ← Reader.anyElement "missing publicKey"
  pure ⟨sender, pub.raw⟩

end PopoSigningKeyInput

namespace PopoSigningKey

/-- The input under [0], the algorithm and the signature. -/
def marshalInner (p : PopoSigningKey) : Except GoError Bytes :=
  concat [
    (match p.poposkInput with
      | some i => addASN1 (contextConstructed 0) i.marshalInner
      | none => .ok []),
    p.algorithm.marshal,
    addASN1 tagBitString (.ok (0 :: p.signature))]

/-- The number of unused bits of the signature is dropped. -/
def unmarshalInner : Reader PopoSigningKey := do
  let input ← if ← Reader.peek (contextConstructed 0) then do
      let sub ← Reader.element "invalid poposkInput tag" (contextConstructed 0)
      let i ← Reader.within sub PopoSigningKeyInput.unmarshalInner
      pure (some i)
    else pure none
  let alg ← AlgorithmIdentifier.unmarshal
  let bits ← Reader.element "invalid signature BIT STRING" tagBitString
  match bits with
  | [] => throw (.parse (str "invalid signature unused bits"))
  | _ :: sig => pure ⟨input, alg, sig⟩

end PopoSigningKey

namespace PopoPrivKey

/-- The CMS container needs version 3. -/
def needsPVNO3 (p : PopoPrivKey) : Bool := p.subsequentMessage.isNone && p.encryptedKey.isSome

/-- `subsequentMessage` goes before `encryptedKey`. -/
def marshal (p : PopoPrivKey) : Except GoError Bytes :=
  match p.subsequentMessage, p.encryptedKey with
  | some v, _ => addASN1 (context 1) (.ok (intOctets v))
  | none, some raw => addASN1 (contextConstructed 4) (.ok (EncryptedKey.envelopedInner raw))
  | none, none => .ok []

/-- `subsequentMessage` is at most eight octets long. -/
def unmarshal : Reader PopoPrivKey := do
  let e ← Reader.anyElement "missing popoPrivKey"
  if e.tag = context 1 then
    if checkASN1Integer e.content && e.content.length ≤ 8 then
      pure { subsequentMessage := some (intValue e.content) }
    else throw (.parse (str "invalid integer"))
  else if e.tag = contextConstructed 4 then
    pure { encryptedKey := some (element tagSequence e.content) }
  else
    throw (.parse (str "unsupported popoPrivKey variant: " ++ decimal e.tag.toNat))

end PopoPrivKey

namespace ProofOfPossession

/-- The variant that is encoded is the first one present. -/
def needsPVNO3 (p : ProofOfPossession) : Bool :=
  match p.raVerified, p.signature, p.keyEncipherment, p.keyAgreement with
  | false, none, some k, _ => k.needsPVNO3
  | false, none, none, some k => k.needsPVNO3
  | _, _, _, _ => false

/-- The first variant present; nothing when there is none. -/
def marshal (p : ProofOfPossession) : Except GoError Bytes :=
  match p.raVerified, p.signature, p.keyEncipherment, p.keyAgreement with
  | true, _, _, _ => addASN1 (context 0) (.ok [])
  | false, some s, _, _ => addASN1 (contextConstructed 1) s.marshalInner
  | false, none, some k, _ => addASN1 (contextConstructed 2) k.marshal
  | false, none, none, some k => addASN1 (contextConstructed 3) k.marshal
  | false, none, none, none => .ok []

/-- The tag chooses the variant; what follows it inside is ignored. -/
def unmarshal : Reader ProofOfPossession := do
  let e ← Reader.anyElement "missing proofOfPossession"
  if e.tag = context 0 then pure { raVerified := true }
  else if e.tag = contextConstructed 1 then do
    let s ← Reader.within e.content PopoSigningKey.unmarshalInner
    pure { signature := some s }
  else if e.tag = contextConstructed 2 then do
    let k ← Reader.within e.content PopoPrivKey.unmarshal
    pure { keyEncipherment := some k }
  else if e.tag = contextConstructed 3 then do
    let k ← Reader.within e.content PopoPrivKey.unmarshal
    pure { keyAgreement := some k }
  else
    throw (.parse (str "unsupported proofOfPossession variant: " ++ decimal e.tag.toNat))

/-- A decoded signature proof is nothing else. -/
lemma eq_of_unmarshal {s s' : Bytes} {p : ProofOfPossession}
    {sig : PopoSigningKey} (h : unmarshal s = .ok (p, s'))
    (hsig : p.signature = some sig) : p = { signature := some sig } := by
  obtain ⟨e, s1, -, h⟩ := Reader.bind_ok.mp h
  split_ifs at h
  · cases h
    cases hsig
  · obtain ⟨x, s2, -, h⟩ := Reader.bind_ok.mp h
    cases h
    cases hsig
    rfl
  · obtain ⟨x, s2, -, h⟩ := Reader.bind_ok.mp h
    cases h
    cases hsig
  · obtain ⟨x, s2, -, h⟩ := Reader.bind_ok.mp h
    cases h
    cases hsig
  · cases h

end ProofOfPossession

/-! ### Messages -/

/-- `CertReqMsg`. -/
structure CertReqMsg where
  certReq : CertRequest
  popo : Option ProofOfPossession := none
  deriving DecidableEq, Repr

/-- `CertReqMessages`. -/
abbrev CertReqMessages := List CertReqMsg

namespace CertReqMsg

/-- Only the proof can need version 3. -/
def needsPVNO3 (m : CertReqMsg) : Bool := m.popo.any ProofOfPossession.needsPVNO3

/-- The request, then its proof when it has one. -/
def marshal (m : CertReqMsg) : Except GoError Bytes :=
  addASN1 tagSequence (concat [m.certReq.marshal,
    match m.popo with
    | some p => p.marshal
    | none => .ok []])

/-- The proof is absent when nothing or a SEQUENCE (registration info) follows
the request. -/
def unmarshal : Reader CertReqMsg := do
  let seq ← Reader.element "invalid CertReqMsg sequence" tagSequence
  Reader.within seq do
    let req ← CertRequest.unmarshal
    let done ← Reader.empty
    let regInfo ← Reader.peek tagSequence
    if done || regInfo then pure ⟨req, none⟩
    else do
      let p ← ProofOfPossession.unmarshal
      pure ⟨req, some p⟩

/-- What a decoded message was read from. -/
lemma unmarshal_ok {s s' : Bytes} {m : CertReqMsg}
    (h : unmarshal s = .ok (m, s')) :
    ∃ e rest, readASN1 tagSequence s = some (e, s') ∧
      CertRequest.unmarshal e.content = .ok (m.certReq, rest) ∧
      ∀ p, m.popo = some p → ∃ rest', ProofOfPossession.unmarshal rest = .ok (p, rest') := by
  obtain ⟨c, s1, hc, h⟩ := Reader.bind_ok.mp h
  obtain ⟨e, he, rfl⟩ := Reader.element_ok hc
  obtain ⟨rfl, rest', h⟩ := Reader.within_ok h
  obtain ⟨req, rest, hreq, h⟩ := Reader.bind_ok.mp h
  obtain ⟨done, s2, hdone, h⟩ := Reader.bind_ok.mp h
  obtain ⟨regInfo, s3, hreg, h⟩ := Reader.bind_ok.mp h
  cases hdone
  cases hreg
  refine ⟨e, rest, he, ?_⟩
  split_ifs at h
  · cases h
    exact ⟨hreq, by simp⟩
  · obtain ⟨p, s4, hp, h⟩ := Reader.bind_ok.mp h
    cases h
    refine ⟨hreq, ?_⟩
    rintro p' ⟨⟩
    exact ⟨_, hp⟩

end CertReqMsg

namespace CertReqMessages

/-- Some message needs version 3. -/
def needsPVNO3 (m : CertReqMessages) : Bool := m.any CertReqMsg.needsPVNO3

/-- The messages in one SEQUENCE. -/
def marshal (m : CertReqMessages) : Except GoError Bytes :=
  addASN1 tagSequence (concat (m.map CertReqMsg.marshal))

/-- The messages up to the end of the SEQUENCE. -/
def unmarshal : Reader CertReqMessages := do
  let seq ← Reader.element "invalid CertReqMessages sequence" tagSequence
  Reader.within seq (Reader.many CertReqMsg.unmarshal)

/-- The only message of a body. -/
lemma unmarshal_singleton {s s' : Bytes} {m : CertReqMsg}
    (h : unmarshal s = .ok ([m], s')) :
    ∃ e, readASN1 tagSequence s = some (e, s') ∧ CertReqMsg.unmarshal e.content = .ok (m, []) := by
  obtain ⟨c, s1, hc, h⟩ := Reader.bind_ok.mp h
  obtain ⟨e, he, rfl⟩ := Reader.element_ok hc
  obtain ⟨rfl, rest, h⟩ := Reader.within_ok h
  exact ⟨e, he, Reader.many_singleton h⟩

end CertReqMessages

end PkiCmp
