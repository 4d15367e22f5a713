/-
How long the encoding of a value is.

The builder refuses a content of more than 2^32 - 2 octets.  The size of an encoding is computed
here from the value, encoder by encoder: what is written has this size, and only a larger one than
the builder takes can make it refuse a content.

* `Sized`: an encoder whose octets have a given number;
* `Sized.addASN1`, `Sized.cons`, `Sized.map`: elements, sequences and lists;
* `PKIBody.sized`, `PKIMessage.sized`: **bodies and messages**;
* `Encodes.of_sized`: below 2^31 octets nothing is too long.
-/
import PkiCmp.Codec.Basic
import PkiCmp.Message

namespace PkiCmp

open Der

/-! ### The builder -/

/-- The octets of an element around a content of `n` octets. -/
def elementSize (n : ℕ) : ℕ := 1 + (lengthOctets n).length + n

/-- The octets of an element around these parts. -/
def partsSize (ns : List ℕ) : ℕ := elementSize ns.sum

/-- The octets of an element around the members of a list. -/
def listSize {α : Type} (s : α → ℕ) (l : List α) : ℕ := partsSize (l.map s)

/-- The octets of an optional part. -/
def optionalSize (c : Bool) (n : ℕ) : ℕ := if c then n else 0

/-- No `*PKIStatusError` is found in the chain of the error. -/
def GoError.Plain (e : GoError) : Prop := e.asStatusError = none

/-- What is written has `n` octets, is too long only if these are more than the builder takes, and
no error reports a status. -/
structure Sized (f : Except GoError Bytes) (n : ℕ) : Prop where
  length : ∀ b, f = .ok b → b.length = n
  long : f = .error tooLong → 0xfffffffe < n
  plain : ∀ e, f = .error e → e.Plain

variable {f : Except GoError Bytes}

/-- An element is refused for its tag, for its content or for its length. -/
lemma addASN1_error {t : UInt8} {e : GoError} (h : addASN1 t f = .error e) :
    e = BuildFailure.ofBuild (.highTag t) ∨ f = .error e ∨
      ∃ c, f = .ok c ∧ 0xfffffffe < c.length ∧ e = tooLong := by
  unfold addASN1 at h
  split_ifs at h
  · cases h
    exact .inl rfl
  · cases f with
    | error e' =>
      cases h
      exact .inr (.inl rfl)
    | ok c =>
      by_cases hlen : c.length > 0xfffffffe
      · simp only [bind, Except.bind, if_pos hlen] at h
        cases h
        exact .inr (.inr ⟨c, rfl, hlen, rfl⟩)
      · simp only [bind, Except.bind, if_neg hlen] at h
        cases h

lemma concat_cons_error {fs : List (Except GoError Bytes)} {e : GoError}
    (h : concat (f :: fs) = .error e) : f = .error e ∨ concat fs = .error e := by
  cases f with
  | error e' =>
    cases h
    exact .inl rfl
  | ok b =>
    refine .inr ?_
    cases hfs : concat fs with
    | error e' =>
      simp only [concat, hfs, bind, Except.bind] at h
      rw [h]
    | ok bs =>
      simp only [concat, hfs, bind, Except.bind] at h
      cases h

/-- **Below 2^31 octets** nothing is too long. -/
lemma Encodes.of_sized {n : ℕ} (h : Encodes f) (hsize : Sized f n) (hn : n < 2 ^ 31) :
    ∃ b, f = .ok b ∧ b.length = n := by
  obtain hlong | ⟨b, hb⟩ := h
  · have := hsize.long hlong
    omega
  · exact ⟨b, hb, hsize.length b hb⟩

namespace Sized

variable {α : Type} {f : Except GoError Bytes} {fs : List (Except GoError Bytes)} {n : ℕ}
  {ns : List ℕ} {t : UInt8}

lemma ok (b : Bytes) : Sized (.ok b) b.length where
  length := by
    rintro _ ⟨⟩
    rfl
  long := by
    intro h
    cases h
  plain := by
    intro e h
    cases h

/-- Any other failure is none of size. -/
lemma other {e : GoError} (he : e ≠ tooLong) (n : ℕ) (hplain : e.asStatusError = none) :
    Sized (.error e) n where
  length := by
    intro b h
    cases h
  long := by
    rintro ⟨⟩
    exact absurd rfl he
  plain := by
    rintro _ ⟨⟩
    exact hplain

lemma addASN1 (h : Sized f n) : Sized (Der.addASN1 t f) (elementSize n) where
  length := by
    intro b hb
    obtain ⟨-, c, hc, -, rfl⟩ := addASN1_eq_ok.mp hb
    rw [length_element, h.length c hc, elementSize]
  long := by
    intro hlong
    have hn : 0xfffffffe < n := by
      obtain ⟨⟨⟩⟩ | hf | ⟨c, hc, hlen, -⟩ := addASN1_error hlong
      · exact h.long hf
      · rwa [← h.length c hc]
    unfold elementSize
    omega
  plain := by
    intro e he
    obtain rfl | hf | ⟨-, -, -, rfl⟩ := addASN1_error he
    · rfl
    · exact h.plain e hf
    · rfl

lemma nil : Sized (concat []) ([] : List ℕ).sum := ok []

lemma cons (h : Sized f n) (hs : Sized (concat fs) ns.sum) :
    Sized (concat (f :: fs)) (n :: ns).sum where
  length := by
    intro b hb
    obtain ⟨c, cs, hc, hcs, rfl⟩ := concat_cons_eq_ok.mp hb
    rw [List.length_append, h.length c hc, hs.length cs hcs, List.sum_cons]
  long := by
    intro hlong
    rw [List.sum_cons]
    obtain hf | hfs := concat_cons_error hlong
    · exact Nat.lt_add_right _ (h.long hf)
    · exact Nat.lt_add_left _ (hs.long hfs)
  plain := by
    intro e he
    obtain hf | hfs := concat_cons_error he
    · exact h.plain e hf
    · exact hs.plain e hfs

lemma map {f : α → Except GoError Bytes} {s : α → ℕ} (h : ∀ x, Sized (f x) (s x)) (l : List α) :
    Sized (concat (l.map f)) (l.map s).sum := by
  induction l with
  | nil => exact nil
  | cons x l ih => exact cons (h x) ih

/-- A list in one element. -/
lemma list {f : α → Except GoError Bytes} {s : α → ℕ} (h : ∀ x, Sized (f x) (s x)) (l : List α) :
    Sized (Der.addASN1 t (concat (l.map f))) (listSize s l) :=
  addASN1 (map h l)

lemma optional (h : Sized f n) (c : Bool) : Sized (Der.optional c f) (optionalSize c n) := by
  cases c with
  | false => exact ok []
  | true => exact h

end Sized

/-! ### Algorithms, texts and names -/

/-- The size of an INTEGER. -/
def intSize (v : ℤ) : ℕ := elementSize (intOctets v).length

lemma sized_int (v : ℤ) : Sized (addASN1Int v) (intSize v) := .addASN1 (.ok _)

/-- The size of an OBJECT IDENTIFIER. -/
def oidSize (oid : OID) : ℕ := elementSize (oidOctets oid).length

lemma sized_oid (oid : OID) : Sized (addASN1ObjectIdentifier oid) (oidSize oid) := by
  refine .addASN1 ?_
  split_ifs
  · exact .ok _
  · exact .other (fun h => by cases h) _ rfl

/-- The size of an algorithm identifier. -/
def AlgorithmIdentifier.size (a : AlgorithmIdentifier) : ℕ :=
  partsSize [oidSize a.algorithm, a.parameters.length]

lemma AlgorithmIdentifier.sized (a : AlgorithmIdentifier) : Sized a.marshal a.size :=
  .addASN1 (.cons (sized_oid _) (.cons (.ok _) .nil))

/-- The size of an information. -/
def InfoTypeAndValue.size (itv : InfoTypeAndValue) : ℕ :=
  partsSize [oidSize itv.infoType, itv.infoValue.length]

lemma InfoTypeAndValue.sized (itv : InfoTypeAndValue) : Sized itv.marshal itv.size :=
  .addASN1 (.cons (sized_oid _) (.cons (.ok _) .nil))

/-- The size of a free text; an empty one is not written. -/
def PKIFreeText.size (ft : PKIFreeText) : ℕ :=
  if ft = [] then 0 else listSize (fun s => elementSize s.length) ft

lemma PKIFreeText.sized (ft : PKIFreeText) :
    Sized (PKIFreeText.marshal ft) (PKIFreeText.size ft) := by
  unfold PKIFreeText.marshal PKIFreeText.size
  split_ifs
  · exact .ok []
  · exact .list (fun s => .addASN1 (.ok s)) ft

/-- The size of the value of an attribute. -/
def valueSize : Asn1.AttrValue → ℕ
  | .string v => elementSize v.length
  | v => ((Asn1.marshal v).getD []).length

/-- The size of a Name. -/
def nameSize (rdns : RDNSequence) : ℕ :=
  listSize (listSize fun atv => partsSize [oidSize atv.type, valueSize atv.value]) rdns

lemma sized_name (rdns : RDNSequence) : Sized (marshalRDNSequence rdns) (nameSize rdns) := by
  refine .list (fun rset => .list (fun atv => .addASN1 (.cons (sized_oid _) (.cons ?_ .nil))) _) _
  cases atv.value with
  | string v => exact .addASN1 (.ok v)
  | _ => exact .ok _

/-- The size of a general name: the octets it was read from, if there are any. -/
def GeneralName.size (gn : GeneralName) : ℕ :=
  if gn.raw ≠ [] then gn.raw.length
  else if gn.rfc822Name ≠ [] then elementSize gn.rfc822Name.length
  else elementSize (nameSize gn.directoryName)

lemma GeneralName.sized (gn : GeneralName) : Sized gn.marshal gn.size := by
  unfold GeneralName.marshal GeneralName.size
  split_ifs
  · exact .ok _
  · exact .addASN1 (.ok _)
  · exact .addASN1 (sized_name _)

/-- The size of an encrypted key. -/
def EncryptedKey.size : EncryptedKey → ℕ
  | .envelopedData raw => elementSize (envelopedInner raw).length
  | .encryptedValue raw => raw.length

lemma EncryptedKey.sized (k : EncryptedKey) : Sized k.marshal k.size := by
  cases k with
  | envelopedData raw => exact .addASN1 (.ok _)
  | encryptedValue raw => exact .ok raw

/-! ### Certificate requests -/

/-- The size of a field of a template that carries the content of a SEQUENCE. -/
def strippedSize (der : Bytes) : ℕ :=
  (stripSequence der).toOption.elim 0 fun c => elementSize c.length

lemma sized_stripped (tag : UInt8) (what : String) (der : Bytes) :
    Sized (CertTemplate.marshalStripped tag what der) (strippedSize der) := by
  unfold CertTemplate.marshalStripped strippedSize
  split_ifs with hnil
  · subst hnil
    exact .ok []
  · unfold stripSequence
    cases readASN1 tagSequence der with
    | some e => exact .addASN1 (.ok _)
    | none => exact .other (fun h => by cases h) _ rfl

/-- The size of a template. -/
def CertTemplate.size (t : CertTemplate) : ℕ :=
  partsSize [t.serialNumber.elim 0 intSize,
    if t.issuer = [] then 0 else elementSize t.issuer.length,
    optionalSize (t.subject.directoryName ≠ []) (elementSize (nameSize t.subject.directoryName)),
    strippedSize t.publicKey, strippedSize t.extensions]

lemma CertTemplate.sized (t : CertTemplate) : Sized t.marshal t.size := by
  refine .addASN1 (.cons ?_ (.cons ?_ (.cons (.optional (.addASN1 (sized_name _)) _)
    (.cons (sized_stripped _ _ _) (.cons (sized_stripped _ _ _) .nil)))))
  · cases t.serialNumber with
    | none => exact .ok []
    | some n => exact .addASN1 (.ok _)
  · split_ifs
    · exact .ok []
    · exact .addASN1 (.ok _)
    · exact .other (fun h => by cases h) _ rfl

/-- The size of a control. -/
def Control.size (a : Control) : ℕ := partsSize [oidSize a.type, a.value.length]

lemma Control.sized (a : Control) : Sized a.marshal a.size := by
  refine .addASN1 (.cons (sized_oid _) (.cons ?_ .nil))
  split_ifs
  · exact .other (fun h => by cases h) _ rfl
  · exact .ok _

/-- The size of a request. -/
def CertRequest.size (r : CertRequest) : ℕ :=
  partsSize [intSize r.certReqID, r.certTemplate.size,
    optionalSize (r.controls ≠ []) (listSize Control.size r.controls)]

lemma CertRequest.sized (r : CertRequest) : Sized r.marshal r.size :=
  .addASN1 (.cons (sized_int _) (.cons r.certTemplate.sized
    (.cons (.optional (.list Control.sized _) _) .nil)))

/-- The size of the input of a signature. -/
def PopoSigningKeyInput.size (p : PopoSigningKeyInput) : ℕ :=
  [p.sender.elim 0 fun s => elementSize s.size, p.publicKey.length].sum

lemma PopoSigningKeyInput.sized (p : PopoSigningKeyInput) : Sized p.marshalInner p.size := by
  refine .cons ?_ (.cons (.ok _) .nil)
  cases p.sender with
  | none => exact .ok []
  | some s => exact .addASN1 s.sized

/-- The size of a signature with its input and algorithm. -/
def PopoSigningKey.size (p : PopoSigningKey) : ℕ :=
  [p.poposkInput.elim 0 fun i => elementSize i.size, p.algorithm.size,
    elementSize (0 :: p.signature).length].sum

lemma PopoSigningKey.sized (p : PopoSigningKey) : Sized p.marshalInner p.size := by
  refine .cons ?_ (.cons p.algorithm.sized (.cons (.addASN1 (.ok _)) .nil))
  cases p.poposkInput with
  | none => exact .ok []
  | some i => exact .addASN1 i.sized

/-- The size of a proof by other means than a signature. -/
def PopoPrivKey.size (p : PopoPrivKey) : ℕ :=
  match p.subsequentMessage, p.encryptedKey with
  | some v, _ => intSize v
  | none, some raw => elementSize (EncryptedKey.envelopedInner raw).length
  | none, none => 0

lemma PopoPrivKey.sized (p : PopoPrivKey) : Sized p.marshal p.size := by
  obtain ⟨_ | v, _ | raw⟩ := p
  · exact .ok []
  all_goals exact .addASN1 (.ok _)

/-- The size of a proof of possession. -/
def ProofOfPossession.size (p : ProofOfPossession) : ℕ :=
  match p.raVerified, p.signature, p.keyEncipherment, p.keyAgreement with
  | true, _, _, _ => elementSize 0
  | false, some s, _, _ => elementSize s.size
  | false, none, some k, _ => elementSize k.size
  | false, none, none, some k => elementSize k.size
  | false, none, none, none => 0

lemma ProofOfPossession.sized (p : ProofOfPossession) : Sized p.marshal p.size := by
  obtain ⟨_ | _, _ | s, _ | k, _ | k'⟩ := p
  · exact .ok []
  · exact .addASN1 k'.sized
  · exact .addASN1 k.sized
  · exact .addASN1 k.sized
  all_goals first | exact .addASN1 s.sized | exact .addASN1 (.ok [])

/-- The size of a certificate request message. -/
def CertReqMsg.size (m : CertReqMsg) : ℕ :=
  partsSize [m.certReq.size, m.popo.elim 0 ProofOfPossession.size]

lemma CertReqMsg.sized (m : CertReqMsg) : Sized m.marshal m.size := by
  refine .addASN1 (.cons m.certReq.sized (.cons ?_ .nil))
  cases m.popo with
  | none => exact .ok []
  | some p => exact p.sized

/-! ### Responses and confirmations -/

/-- The size of a status. -/
def PKIStatusInfo.size (si : PKIStatusInfo) : ℕ :=
  partsSize [intSize si.status,
    optionalSize (si.statusString ≠ []) (PKIFreeText.size si.statusString),
    optionalSize (si.failInfo ≠ 0) (elementSize (failInfoOctets si.failInfo).length)]

lemma PKIStatusInfo.sized (si : PKIStatusInfo) : Sized si.marshal si.size :=
  .addASN1 (.cons (sized_int _) (.cons (.optional (PKIFreeText.sized _) _)
    (.cons (.optional (.addASN1 (.ok _)) _) .nil)))

/-- The size of an error. -/
def ErrorMsgContent.size (e : ErrorMsgContent) : ℕ :=
  partsSize [e.pkiStatusInfo.size, optionalSize (e.errorCode ≠ 0) (intSize e.errorCode),
    optionalSize (e.errorDetails ≠ []) (PKIFreeText.size e.errorDetails)]

lemma ErrorMsgContent.sized (e : ErrorMsgContent) : Sized e.marshal e.size :=
  .addASN1 (.cons e.pkiStatusInfo.sized (.cons (.optional (sized_int _) _)
    (.cons (.optional (PKIFreeText.sized _) _) .nil)))

/-- The size of certificates one after the other in a SEQUENCE. -/
def certsSize (certs : List CMPCertificate) : ℕ := listSize (fun c => c.raw.length) certs

lemma sized_certs (certs : List CMPCertificate) :
    Sized (addASN1 tagSequence (concat (certs.map CMPCertificate.marshal))) (certsSize certs) :=
  .list (fun c => .ok c.raw) certs

/-- The size of a certificate, encrypted or not. -/
def CertOrEncCert.size : CertOrEncCert → ℕ
  | .certificate c => elementSize c.raw.length
  | .encryptedCert k => elementSize k.size

lemma CertOrEncCert.sized (c : CertOrEncCert) : Sized c.marshal c.size := by
  cases c with
  | certificate c => exact .addASN1 (.ok _)
  | encryptedCert k => exact .addASN1 k.sized

/-- The size of a certificate with its key. -/
def CertifiedKeyPair.size (ckp : CertifiedKeyPair) : ℕ :=
  partsSize [ckp.certOrEncCert.size, ckp.privateKey.elim 0 fun k => elementSize k.size]

lemma CertifiedKeyPair.sized (ckp : CertifiedKeyPair) : Sized ckp.marshal ckp.size := by
  refine .addASN1 (.cons ckp.certOrEncCert.sized (.cons ?_ .nil))
  cases ckp.privateKey with
  | none => exact .ok []
  | some k => exact .addASN1 k.sized

/-- The size of a response to one request. -/
def CertResponse.size (r : CertResponse) : ℕ :=
  partsSize [intSize r.certReqID, r.status.size, r.certifiedKeyPair.elim 0 CertifiedKeyPair.size,
    optionalSize (r.rspInfo ≠ []) (elementSize r.rspInfo.length)]

lemma CertResponse.sized (r : CertResponse) : Sized r.marshal r.size := by
  refine .addASN1 (.cons (sized_int _) (.cons r.status.sized (.cons ?_
    (.cons (.optional (.addASN1 (.ok _)) _) .nil))))
  cases r.certifiedKeyPair with
  | none => exact .ok []
  | some ckp => exact ckp.sized

/-- The size of a certificate response message. -/
def CertRepMessage.size (m : CertRepMessage) : ℕ :=
  partsSize [optionalSize (m.caPubs ≠ []) (elementSize (certsSize m.caPubs)),
    listSize CertResponse.size m.response]

lemma CertRepMessage.sized (m : CertRepMessage) : Sized m.marshal m.size :=
  .addASN1 (.cons (.optional (.addASN1 (sized_certs _)) _)
    (.cons (.list CertResponse.sized _) .nil))

/-- The size of one confirmation. -/
def CertStatus.size (s : CertStatus) : ℕ :=
  partsSize [elementSize s.certHash.length, intSize s.certReqID,
    s.statusInfo.elim 0 PKIStatusInfo.size, s.hashAlg.elim 0 fun a => elementSize a.size]

lemma CertStatus.sized (s : CertStatus) : Sized s.marshal s.size := by
  refine .addASN1 (.cons (.addASN1 (.ok _)) (.cons (sized_int _) (.cons ?_ (.cons ?_ .nil))))
  · cases s.statusInfo with
    | none => exact .ok []
    | some si => exact si.sized
  · cases s.hashAlg with
    | none => exact .ok []
    | some a => exact .addASN1 a.sized

/-- The size of one entry of a polling response. -/
def PollRepItem.size (item : PollRepItem) : ℕ :=
  partsSize [intSize item.certReqID, intSize item.checkAfter,
    optionalSize (item.reason ≠ []) (PKIFreeText.size item.reason)]

lemma sized_pollRep (c : PollRepContent) :
    Sized (PollRepContent.marshal c) (listSize PollRepItem.size c) :=
  .list (fun _ => .addASN1 (.cons (sized_int _) (.cons (sized_int _)
    (.cons (.optional (PKIFreeText.sized _) _) .nil)))) c

/-! ### Revocation -/

/-- The size of one revocation request. -/
def RevDetails.size (d : RevDetails) : ℕ :=
  partsSize [d.certDetails.size, d.crlEntryDetails.length]

lemma RevDetails.sized (d : RevDetails) : Sized d.marshal d.size := by
  refine .addASN1 (.cons d.certDetails.sized (.cons ?_ .nil))
  split_ifs with hnil
  · rw [hnil]
    exact .ok []
  · exact .ok _
  · exact .other (fun h => by cases h) _ rfl

/-- The size of the name of a certificate by issuer and serial number. -/
def CertID.size (id : CertID) : ℕ := partsSize [id.issuer.size, id.serialNumber.elim 0 intSize]

lemma CertID.sized (id : CertID) : Sized id.marshal id.size := by
  refine .addASN1 ?_
  obtain ⟨issuer, _ | n⟩ := id
  · exact .other (fun h => by cases h) _ rfl
  · exact .cons issuer.sized (.cons (sized_int n) .nil)

/-- The size of a revocation response. -/
def RevRepContent.size (c : RevRepContent) : ℕ :=
  partsSize [listSize PKIStatusInfo.size c.status,
    optionalSize (c.revCerts ≠ []) (elementSize (listSize CertID.size c.revCerts)),
    optionalSize (c.crls ≠ []) (elementSize (listSize List.length c.crls))]

lemma RevRepContent.sized (c : RevRepContent) : Sized c.marshal c.size := by
  refine .addASN1 (.cons (.list PKIStatusInfo.sized _) (.cons (.optional (.addASN1
    (.list CertID.sized _)) _) (.cons (.optional (.addASN1 (.list (fun crl => ?_) _)) _) .nil)))
  split_ifs
  · exact .ok crl
  · exact .other (fun h => by cases h) _ rfl

/-! ### Messages -/

/-- The size of an optional field of a header that is an octet string. -/
def octetsSize (b : Bytes) : ℕ := optionalSize (b ≠ []) (elementSize (elementSize b.length))

lemma sized_octets (n : UInt8) (b : Bytes) : Sized (PKIHeader.marshalOctets n b) (octetsSize b) :=
  .optional (.addASN1 (.addASN1 (.ok b))) _

/-- The size of a header. -/
def PKIHeader.size (h : PKIHeader) : ℕ :=
  partsSize [intSize h.pvno, [h.sender.size, h.recipient.size,
    optionalSize h.hasMessageTime (elementSize (elementSize h.messageTime.format.length)),
    h.protectionAlg.elim 0 fun a => elementSize a.size,
    octetsSize h.senderKID, octetsSize h.recipKID, octetsSize h.transactionID,
    octetsSize h.senderNonce, octetsSize h.recipNonce,
    optionalSize (h.freeText ≠ []) (elementSize (PKIFreeText.size h.freeText)),
    optionalSize (h.generalInfo ≠ [])
      (elementSize (listSize InfoTypeAndValue.size h.generalInfo))].sum]

lemma PKIHeader.sized (h : PKIHeader) : Sized h.marshal h.size := by
  refine .addASN1 (.cons (sized_int _) (.cons (.cons h.sender.sized (.cons h.recipient.sized
    (.cons (.optional (.addASN1 ?_) _) (.cons ?_
    (.cons (sized_octets 2 _) (.cons (sized_octets 3 _) (.cons (sized_octets 4 _)
    (.cons (sized_octets 5 _) (.cons (sized_octets 6 _)
    (.cons (.optional (.addASN1 (PKIFreeText.sized _)) _)
    (.cons (.optional (.addASN1 (.list InfoTypeAndValue.sized _)) _) .nil))))))))))) .nil))
  · unfold addASN1GeneralizedTime
    split_ifs
    · exact .other (fun h => by cases h) _ rfl
    · exact .addASN1 (.ok _)
  · cases h.protectionAlg with
    | none => exact .ok []
    | some a => exact .addASN1 a.sized

/-- The size of what follows the body. -/
def trailerSize (protection : Bytes) (extraCerts : List CMPCertificate) : ℕ :=
  [optionalSize (protection ≠ []) (elementSize (elementSize (0 :: protection).length)),
    optionalSize (extraCerts ≠ []) (elementSize (certsSize extraCerts))].sum

lemma PKIMessage.sized_trailer (m : PKIMessage) :
    Sized m.marshalTrailer (trailerSize m.protection m.extraCerts) :=
  .cons (.optional (.addASN1 (.addASN1 (.ok _))) _)
    (.cons (.optional (.addASN1 (sized_certs _)) _) .nil)

mutual

/-- The size of a body. -/
def PKIBody.size : PKIBody → ℕ
  | .received _ raw => raw.length
  | .ir m | .cr m | .kur m => elementSize (listSize CertReqMsg.size m)
  | .ip m | .cp m | .kup m => elementSize m.size
  | .p10cr csr => elementSize csr.raw.length
  | .rr c => elementSize (listSize RevDetails.size c)
  | .rp c => elementSize c.size
  | .certConf c => elementSize (listSize CertStatus.size c)
  | .pkiConf => elementSize (elementSize 0)
  | .pollReq c => elementSize (listSize (fun id => elementSize (intSize id)) c)
  | .pollRep c => elementSize (listSize PollRepItem.size c)
  | .error c => elementSize c.size
  | .nested msgs => elementSize (elementSize (nestedSize msgs))

/-- The size of the messages of a nested body. -/
def nestedSize : List PKIMessage → ℕ
  | [] => 0
  | m :: ms => [m.nestingSize, nestedSize ms].sum

/-- The size of a message in a nested body. -/
def PKIMessage.nestingSize : PKIMessage → ℕ
  | ⟨header, body, protection, extraCerts, rawHeader, rawBody⟩ =>
    if protection = [] ∨ rawHeader = [] ∨ rawBody = [] then
      partsSize [{ header with pvno := body.requiredPVNO header.pvno }.size, body.size,
        trailerSize protection extraCerts]
    else partsSize [rawHeader.length, rawBody.length, trailerSize protection extraCerts]

end

/-- The size of a message. -/
def PKIMessage.size (m : PKIMessage) : ℕ :=
  partsSize [m.updatePVNO.header.size, m.body.size, trailerSize m.protection m.extraCerts]

/-- A message whose body is encoded first. -/
lemma Sized.envelope {f body header trailer : Except GoError Bytes} {nb nh nt : ℕ}
    (hb : Sized body nb) (hh : Sized header nh) (ht : Sized trailer nt)
    (herror : ∀ e, body = .error e → f = .error e)
    (hok : ∀ b, body = .ok b → f = Der.addASN1 tagSequence (concat [header, .ok b, trailer])) :
    Sized f (partsSize [nh, nb, nt]) := by
  cases hbody : body with
  | error e =>
    rw [herror e hbody]
    refine ⟨fun b h => (by cases h), fun h => ?_, fun e' h => ?_⟩
    · cases h
      have := hb.long hbody
      simp only [partsSize, elementSize, List.sum_cons, List.sum_nil]
      omega
    · cases h
      exact hb.plain e hbody
  | ok b =>
    rw [hok b hbody, ← hb.length b hbody]
    exact .addASN1 (.cons hh (.cons (.ok b) (.cons ht .nil)))

mutual

lemma PKIBody.sized : ∀ b : PKIBody, Sized b.marshal b.size
  | .received t raw => by
    rw [PKIBody.marshal, PKIBody.size]
    exact .ok raw
  | .ir m | .cr m | .kur m => by
    rw [PKIBody.marshal, PKIBody.size]
    exact .addASN1 (.list CertReqMsg.sized m)
  | .ip m | .cp m | .kup m => by
    rw [PKIBody.marshal, PKIBody.size]
    exact .addASN1 m.sized
  | .p10cr csr => by
    rw [PKIBody.marshal, PKIBody.size]
    exact .addASN1 (.ok csr.raw)
  | .rr c => by
    rw [PKIBody.marshal, PKIBody.size]
    exact .addASN1 (.list RevDetails.sized c)
  | .rp c | .error c => by
    rw [PKIBody.marshal, PKIBody.size]
    exact .addASN1 c.sized
  | .certConf c => by
    rw [PKIBody.marshal, PKIBody.size]
    exact .addASN1 (.list CertStatus.sized c)
  | .pkiConf => by
    rw [PKIBody.marshal, PKIBody.size]
    exact .addASN1 (.addASN1 (.ok []))
  | .pollReq c => by
    rw [PKIBody.marshal, PKIBody.size]
    exact .addASN1 (.list (fun id => .addASN1 (sized_int id)) c)
  | .pollRep c => by
    rw [PKIBody.marshal, PKIBody.size]
    exact .addASN1 (sized_pollRep c)
  | .nested [] => by
    rw [PKIBody.marshal, PKIBody.size]
    exact .addASN1 (.other (fun h => by cases h) _ rfl)
  | .nested (m :: ms) => by
    rw [PKIBody.marshal, PKIBody.size]
    exact .addASN1 (.addASN1 (sized_nested (m :: ms)))

lemma sized_nested : ∀ ms : List PKIMessage, Sized (marshalNested ms) (nestedSize ms)
  | [] => by
    rw [marshalNested, nestedSize]
    exact .ok []
  | m :: ms => by
    rw [marshalNested, nestedSize]
    exact .cons m.sized_nesting (.cons (sized_nested ms) .nil)

lemma PKIMessage.sized_nesting : ∀ m : PKIMessage, Sized m.marshalForNesting m.nestingSize
  | ⟨header, body, protection, extraCerts, rawHeader, rawBody⟩ => by
    have htrailer := PKIMessage.sized_trailer
      ⟨header, body, protection, extraCerts, rawHeader, rawBody⟩
    rw [PKIMessage.marshalForNesting, PKIMessage.nestingSize]
    split_ifs
    · exact .envelope body.sized (PKIHeader.sized _) htrailer (fun e he => by rw [he])
        fun b hb => by rw [hb]
    · exact .addASN1 (.cons (.ok _) (.cons (.ok _) (.cons htrailer .nil)))

end

/-- **Messages** have the size computed from their fields. -/
lemma PKIMessage.sized (m : PKIMessage) : Sized m.marshalBinary m.size :=
  .envelope m.body.sized m.updatePVNO.header.sized m.sized_trailer
    (fun e he => by rw [PKIMessage.marshalBinary, he]; rfl)
    fun b hb => by rw [PKIMessage.marshalBinary, hb]; rfl

end PkiCmp
