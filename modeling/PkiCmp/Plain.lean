/-
Errors that report no status.

`HasFailure` looks for a `*PKIStatusError` in the whole chain of an error.  None is made by
encoding, decoding, protecting or verifying a message: the errors of these are plain
(`GoError.Plain`).

* `Plain`, `Reader.Plain`: computations and decoders all of whose errors are plain, found by
  instance search along their definitions;
* `parsePKIMessage`, `PKIMessage.marshalBinary`, `PKIMessage.verify` and the getters of a body
  are plain.
-/
import PkiCmp.Codec.Messages
import PkiCmp.Request

namespace PkiCmp

open Der

/-! ### Computations -/

/-- No error of the computation holds a `*PKIStatusError`. -/
class Plain {α : Type} (x : Except GoError α) : Prop where
  plain : ∀ e, x = .error e → e.Plain

namespace Plain

variable {α β : Type}

instance ok (a : α) : Plain (.ok a : Except GoError α) := ⟨nofun⟩

instance pure (a : α) : Plain (Pure.pure a : Except GoError α) := ⟨nofun⟩

lemma error {e : GoError} (h : e.Plain) : Plain (.error e : Except GoError α) := by
  refine ⟨?_⟩
  rintro _ ⟨⟩
  exact h

instance text (s : GoString) : Plain (.error (.text s) : Except GoError α) := error rfl

instance parse (s : GoString) : Plain (.error (.parse s) : Except GoError α) := error rfl

instance parseError (d : String) : Plain (PkiCmp.parseError d : Except GoError α) := error rfl

instance build (e : BuildError) :
    Plain (.error (BuildFailure.ofBuild e : GoError) : Except GoError α) := error rfl

instance protection (r : InvalidReason) :
    Plain (.error (.protection r) : Except GoError α) := error rfl

instance client (s : GoString) : Plain (.error (.client s) : Except GoError α) := error rfl

instance verification (r : InvalidReason) :
    Plain (.error (.verification r) : Except GoError α) := error rfl

instance verificationText (r : InvalidReason) (s : GoString) :
    Plain (.error (.verificationWrapped r (.text s)) : Except GoError α) := error rfl

instance throw {e : GoError} [Plain (.error e : Except GoError α)] :
    Plain (MonadExcept.throw e : Except GoError α) := ‹_›

instance bind {x : Except GoError α} {f : α → Except GoError β} [hx : Plain x]
    [hf : ∀ a, Plain (f a)] : Plain (x >>= f) := by
  cases x with
  | error e => exact error (hx.plain e rfl)
  | ok a => exact hf a

instance ite {c : Prop} [Decidable c] {x y : Except GoError α} [Plain x] [Plain y] :
    Plain (if c then x else y) := by
  split_ifs <;> infer_instance

variable {f : Except GoError Bytes}

instance addASN1 {t : UInt8} [Plain f] : Plain (Der.addASN1 t f) := by
  unfold Der.addASN1
  infer_instance

instance optional {c : Bool} [Plain f] : Plain (Der.optional c f) := by
  unfold Der.optional
  infer_instance

instance concat_nil : Plain (concat [] : Except GoError Bytes) := ok []

instance concat_cons {fs : List (Except GoError Bytes)} [Plain f] [Plain (concat fs)] :
    Plain (concat (f :: fs)) := by
  unfold Der.concat
  infer_instance

instance addASN1Int (n : ℤ) : Plain (Der.addASN1Int n : Except GoError Bytes) := addASN1

instance addASN1OctetString (b : Bytes) : Plain (Der.addASN1OctetString b : Except GoError Bytes) :=
  addASN1

instance addASN1ObjectIdentifier (oid : OID) :
    Plain (Der.addASN1ObjectIdentifier oid : Except GoError Bytes) := by
  unfold Der.addASN1ObjectIdentifier
  infer_instance

instance foldlM {γ : Type} {f : β → γ → Except GoError β} {b : β} {l : List γ}
    [hf : ∀ b a, Plain (f b a)] : Plain (l.foldlM f b) := by
  induction l generalizing b with
  | nil => exact ok b
  | cons a l ih =>
    rw [List.foldlM_cons]
    infer_instance

end Plain

/-! ### Decoders -/

/-- No error of the decoder holds a `*PKIStatusError`. -/
class Reader.Plain {α : Type} (r : Reader α) : Prop where
  plain : ∀ s, PkiCmp.Plain (r s)

namespace Reader.Plain

variable {α β : Type}

variable {r : Reader α}

instance run [h : r.Plain] (s : Bytes) : PkiCmp.Plain (StateT.run r s) := h.plain s

instance pure (a : α) : Plain (Pure.pure a : Reader α) := ⟨fun _ => .ok _⟩

instance throw {e : GoError} [PkiCmp.Plain (.error e : Except GoError (α × Bytes))] :
    Plain (MonadExcept.throw e : Reader α) := ⟨fun _ => ‹_›⟩

instance bind {k : α → Reader β} [hr : Plain r] [hk : ∀ a, Plain (k a)] :
    Plain (r >>= k) where
  plain s := by
    have h1 := hr.plain s
    have h2 : ∀ a : α × Bytes, PkiCmp.Plain (k a.1 a.2) := fun a => (hk a.1).plain a.2
    exact PkiCmp.Plain.bind

instance ite {c : Prop} [Decidable c] {x y : Reader α} [Plain x] [Plain y] :
    Plain (if c then x else y) := by
  split_ifs <;> infer_instance

instance lift {x : Except GoError α} [PkiCmp.Plain x] : Plain (liftM x : Reader α) where
  plain _ := PkiCmp.Plain.bind

instance read (d : String) (f : Bytes → Option (α × Bytes)) : Plain (Reader.read d f) where
  plain s := by
    unfold Reader.read
    split <;> infer_instance

instance element (d : String) (t : UInt8) : Plain (Reader.element d t) := by
  unfold Reader.element
  infer_instance

instance anyElement (d : String) : Plain (Reader.anyElement d) := read d _

instance peek (t : UInt8) : Plain (Reader.peek t) := ⟨fun _ => .ok _⟩

instance empty : Plain Reader.empty := ⟨fun _ => .ok _⟩

instance rest : Plain Reader.rest := ⟨fun _ => .ok _⟩

instance get : Plain (MonadState.get : Reader Bytes) := ⟨fun _ => .ok _⟩

instance set (b : Bytes) : Plain (MonadStateOf.set b : Reader PUnit) := ⟨fun _ => .ok _⟩

instance within {c : Bytes} [h : Plain r] : Plain (Reader.within c r) where
  plain s := by
    unfold Reader.within
    split
    · infer_instance
    · next e he => exact .error ((h.plain c).plain e he)

instance many [h : Plain r] : Plain (Reader.many r) where
  plain s := by
    unfold Reader.many
    generalize s.length = n
    induction n generalizing s with
    | zero => cases s <;> unfold manyAux <;> infer_instance
    | succ n ih =>
      cases s <;> unfold manyAux <;> infer_instance

instance optional {t : UInt8} {default : α} [Plain r] :
    Plain (Reader.optional t r default) := by
  unfold Reader.optional
  infer_instance

instance explicit {d : String} {t : UInt8} [Plain r] :
    Plain (Reader.explicit d t r) := by
  unfold Reader.explicit
  infer_instance

end Reader.Plain

/-! ### Encoding -/

instance (a : AlgorithmIdentifier) : Plain a.marshal := ⟨a.sized.plain⟩

instance (gn : GeneralName) : Plain gn.marshal := ⟨gn.sized.plain⟩

instance (r : CertRequest) : Plain r.marshal := ⟨r.sized.plain⟩

instance (h : PKIHeader) : Plain h.marshal := ⟨h.sized.plain⟩

instance (b : PKIBody) : Plain b.marshal := ⟨b.sized.plain⟩

instance (m : PKIMessage) : Plain m.marshalBinary := ⟨m.sized.plain⟩

instance (m : PKIMessage) : Plain m.protectedPart := by
  unfold PKIMessage.protectedPart
  infer_instance

/-! ### Decoding -/

section Decoding

-- the instances follow whole decoders
set_option synthInstance.maxSize 20000

instance : Reader.Plain AlgorithmIdentifier.unmarshalInner := by
  unfold AlgorithmIdentifier.unmarshalInner
  refine @Reader.Plain.bind _ _ _ _ inferInstance fun oid => ?_
  refine @Reader.Plain.bind _ _ _ _ inferInstance fun done => ?_
  refine @Reader.Plain.ite _ _ _ _ _ inferInstance ?_
  refine @Reader.Plain.bind _ _ _ _ inferInstance fun s => ?_
  cases readAnyASN1 s <;> infer_instance

instance : Reader.Plain AlgorithmIdentifier.unmarshal := by
  unfold AlgorithmIdentifier.unmarshal
  infer_instance

instance : Reader.Plain InfoTypeAndValue.unmarshal := by
  unfold InfoTypeAndValue.unmarshal
  infer_instance

instance : Reader.Plain PKIFreeText.unmarshal := by
  unfold PKIFreeText.unmarshal
  infer_instance

instance : Reader.Plain parseRDNSequence := by
  unfold parseRDNSequence
  refine @Reader.Plain.bind _ _ _ _ inferInstance fun e => ?_
  cases unmarshalRDNSequence e.raw with
  | some r => infer_instance
  | none => exact ⟨fun _ => .error rfl⟩

instance : Reader.Plain GeneralName.unmarshal := by
  unfold GeneralName.unmarshal
  infer_instance

instance : Reader.Plain CMPCertificate.unmarshal := by
  unfold CMPCertificate.unmarshal
  infer_instance

instance : Reader.Plain EncryptedKey.unmarshal := by
  unfold EncryptedKey.unmarshal
  infer_instance

instance : Reader.Plain PKIStatusInfo.unmarshal := by
  unfold PKIStatusInfo.unmarshal
  dsimp only
  have hbits :
      ∀ (status : PKIStatus) (text : PKIFreeText) (bits : Bytes), Reader.Plain (match bits with
      | [] => do
          let failInfo ← throw (GoError.parse (str "invalid failInfo unused bits"))
          pure ⟨status, text, failInfo⟩
      | _ :: b => do
          let failInfo ← pure (PKIStatusInfo.failInfoOf b)
          (pure ⟨status, text, failInfo⟩ : Reader PKIStatusInfo)) := by
    intro status text bits
    cases bits <;> infer_instance
  infer_instance

instance : Reader.Plain ErrorMsgContent.unmarshal := by
  unfold ErrorMsgContent.unmarshal
  dsimp only
  infer_instance

instance : Reader.Plain CertOrEncCert.unmarshal := by
  unfold CertOrEncCert.unmarshal
  infer_instance

instance : Reader.Plain CertifiedKeyPair.unmarshal := by
  unfold CertifiedKeyPair.unmarshal
  dsimp only
  infer_instance

instance : Reader.Plain CertResponse.unmarshal := by
  unfold CertResponse.unmarshal
  dsimp only
  infer_instance

instance : Reader.Plain CertRepMessage.unmarshal := by
  unfold CertRepMessage.unmarshal
  dsimp only
  infer_instance

instance : Reader.Plain PollRepContent.unmarshal := by
  unfold PollRepContent.unmarshal
  dsimp only
  infer_instance

instance (t : CertTemplate) (e : Element) : Plain (CertTemplate.field t e) := by
  have hissuer : Plain (match readASN1 tagSequence e.content with
      | some (n, []) => .ok { t with issuer := n.raw }
      | _ => (parseError "invalid issuer name" : Except GoError CertTemplate)) := by
    split <;> infer_instance
  unfold CertTemplate.field CertTemplate.unmarshalImplicitBigInt
  infer_instance

instance : Reader.Plain CertTemplate.unmarshal := by
  unfold CertTemplate.unmarshal
  refine @Reader.Plain.bind _ _ _ _ inferInstance fun seq => ?_
  refine @Reader.Plain.bind _ _ _ _ inferInstance fun es => ?_
  have hfold : Plain (es.foldlM CertTemplate.field {}) := inferInstance
  cases hes : es.foldlM CertTemplate.field {} with
  | ok t => infer_instance
  | error e => exact ⟨fun _ => .error (hfold.plain e hes)⟩

instance : Reader.Plain Control.unmarshal := by
  unfold Control.unmarshal
  infer_instance

instance : Reader.Plain CertRequest.unmarshal := by
  unfold CertRequest.unmarshal
  dsimp only
  infer_instance

instance : Reader.Plain PopoSigningKeyInput.unmarshalInner := by
  unfold PopoSigningKeyInput.unmarshalInner
  dsimp only
  infer_instance

instance : Reader.Plain PopoSigningKey.unmarshalInner := by
  have hbits : ∀ (input : Option PopoSigningKeyInput) (alg : AlgorithmIdentifier) (bits : Bytes),
      Reader.Plain (match bits with
      | [] => throw (GoError.parse (str "invalid signature unused bits"))
      | _ :: sig => (pure ⟨input, alg, sig⟩ : Reader PopoSigningKey)) := by
    intro input alg bits
    cases bits <;> infer_instance
  unfold PopoSigningKey.unmarshalInner
  dsimp only
  infer_instance

instance : Reader.Plain PopoPrivKey.unmarshal := by
  unfold PopoPrivKey.unmarshal
  infer_instance

instance : Reader.Plain ProofOfPossession.unmarshal := by
  unfold ProofOfPossession.unmarshal
  infer_instance

instance : Reader.Plain CertReqMsg.unmarshal := by
  unfold CertReqMsg.unmarshal
  infer_instance

instance : Reader.Plain CertReqMessages.unmarshal := by
  unfold CertReqMessages.unmarshal
  infer_instance

instance : Reader.Plain CertID.unmarshal := by
  unfold CertID.unmarshal
  infer_instance

instance {α : Type} {t : UInt8} {d : String} {r : Reader (List α)} [r.Plain] :
    Reader.Plain (RevRepContent.tagged t d r) := by
  have hsub : ∀ sub : Bytes, Reader.Plain (match readASN1 tagSequence sub with
      | some (e, []) => Reader.within e.content r
      | _ => throw (.parse (str d))) := by
    intro sub
    split <;> infer_instance
  unfold RevRepContent.tagged
  infer_instance

instance : Reader.Plain RevRepContent.unmarshal := by
  unfold RevRepContent.unmarshal
  infer_instance

instance {α : Type} {d : String} {r : Reader α} [h : r.Plain] :
    Reader.Plain (PKIHeader.wrapField d r) where
  plain s := by
    unfold PKIHeader.wrapField
    split
    · infer_instance
    · next e he => exact .error ((h.plain s).plain e he)

instance (n : UInt8) (name : String) :
    Reader.Plain (PKIHeader.readOptionalOctetString n name) := by
  unfold PKIHeader.readOptionalOctetString
  infer_instance

instance (pvno : ℤ) (sender recipient : GeneralName) :
    Reader.Plain (PKIHeader.readFields pvno sender recipient) := by
  unfold PKIHeader.readFields
  infer_instance

instance : Reader.Plain PKIHeader.unmarshal := by
  rw [PKIHeader.unmarshal_eq]
  infer_instance

instance (e : Element) : Plain (unmarshalBody e) := by
  unfold unmarshalBody
  infer_instance

instance : Reader.Plain unmarshalProtection := by
  have hbits : ∀ bits : Bytes, Reader.Plain (match bits with
      | [] => throw (GoError.parse (str "invalid protection unused bits"))
      | _ :: b => (pure b : Reader Bytes)) := by
    intro bits
    cases bits <;> infer_instance
  unfold unmarshalProtection
  infer_instance

instance : Reader.Plain unmarshalExtraCerts := by
  unfold unmarshalExtraCerts
  infer_instance

instance : Reader.Plain unmarshalMessage := by
  unfold unmarshalMessage
  infer_instance

instance (der : Bytes) : Plain (parsePKIMessage der) := by
  unfold parsePKIMessage
  cases readASN1 tagSequence der <;> infer_instance

end Decoding

/-! ### Bodies -/

section Bodies

open PKIBody

instance {α : Type} (b : PKIBody) (name : String) :
    Plain (b.notType name : Except GoError α) := .error rfl

instance {α : Type} (b : PKIBody) (t : BodyType) (name : String) (r : Reader α) [r.Plain] :
    Plain (b.decode t name r) := by
  unfold decode
  split_ifs
  · infer_instance
  · split
    · split <;> infer_instance
    · infer_instance

instance (b : PKIBody) : Plain b.getIR := by cases b <;> unfold getIR <;> infer_instance

instance (b : PKIBody) : Plain b.getCR := by cases b <;> unfold getCR <;> infer_instance

instance (b : PKIBody) : Plain b.getKUR := by cases b <;> unfold getKUR <;> infer_instance

instance (b : PKIBody) : Plain b.getIP := by cases b <;> unfold getIP <;> infer_instance

instance (b : PKIBody) : Plain b.getCP := by cases b <;> unfold getCP <;> infer_instance

instance (b : PKIBody) : Plain b.getKUP := by cases b <;> unfold getKUP <;> infer_instance

instance (b : PKIBody) : Plain b.getRP := by cases b <;> unfold getRP <;> infer_instance

instance (b : PKIBody) : Plain b.getPollRep := by cases b <;> unfold getPollRep <;> infer_instance

instance (b : PKIBody) : Plain b.getError := by cases b <;> unfold getError <;> infer_instance

instance (b : PKIBody) : Plain b.getCertReqMessages := by
  unfold getCertReqMessages
  infer_instance

end Bodies

/-! ### Protection -/

section Protection

instance {α : Type} (what : String) (oid : OID) :
    Plain (unsupported what oid : Except GoError α) := .error rfl

instance (oid : OID) : Plain (hashFromOID oid) := by
  unfold hashFromOID
  infer_instance

instance (oid : OID) : Plain (hmacHashFromOID oid) := by
  unfold hmacHashFromOID
  infer_instance

instance (cr : Crypto) (pub : PublicKey) : Plain (signatureAlgorithmFromKey cr pub) := by
  unfold signatureAlgorithmFromKey
  split <;> infer_instance

instance (n : ℤ) : Plain (validatePBMIterationCount n) := by
  unfold validatePBMIterationCount
  infer_instance

instance (n : ℤ) (h : Hash) : Plain (validatePBKDF2KeyLength n h) := by
  unfold validatePBKDF2KeyLength
  infer_instance

instance : Reader.Plain PbmParameter.unmarshal := by
  unfold PbmParameter.unmarshal
  infer_instance

instance (p : PbmParameter) : Plain p.marshal := by
  unfold PbmParameter.marshal
  infer_instance

instance (der : Bytes) : Plain (parsePBKDF2Params der) := by
  unfold parsePBKDF2Params
  split <;> infer_instance

instance (der : Bytes) : Plain (parsePBMAC1Params der) := by
  unfold parsePBMAC1Params
  dsimp only
  split <;> infer_instance

instance (salt : Bytes) (n len : ℤ) (prf mac : OID) :
    Plain (marshalPBMAC1Params salt n len prf mac) := by
  unfold marshalPBMAC1Params
  infer_instance

instance (cr : Crypto) (secret salt : Bytes) (n : ℤ) (hash macHash : Hash) :
    Plain (derivePBMKey cr secret salt n hash macHash) := by
  unfold derivePBMKey
  infer_instance

instance (o : MacOptions) (salt : Bytes) : Plain (o.resolve salt) := by
  unfold MacOptions.resolve
  infer_instance

instance (o : Pbmac1Options) (salt : Bytes) : Plain (o.resolve salt) := by
  unfold Pbmac1Options.resolve
  infer_instance

instance (secret : Bytes) (alg : AlgorithmIdentifier) (salt : Bytes) :
    Plain (resolveMACAlgorithm secret alg salt) := by
  unfold resolveMACAlgorithm
  infer_instance

instance (c : MacCredentialConfig) (secret salt : Bytes) : Plain (c.resolve secret salt) := by
  unfold MacCredentialConfig.resolve
  split <;> infer_instance

instance (m : PKIMessage) (s : Seal) : Plain (m.sealed s).2 := by
  have hpart : ∀ m : PKIMessage, Plain (match m.protectedPart with
      | .error e => (m, (.error e : Except GoError (Seal × Bytes)))
      | .ok data => (m, .ok (s, data))).2 := by
    intro m
    cases hdata : m.protectedPart with
    | error e => exact .error (Plain.plain e hdata)
    | ok data => infer_instance
  unfold PKIMessage.sealed PKIMessage.marshalForProtection
  cases hbody : m.body.marshal with
  | error e => exact .error (Plain.plain e hbody)
  | ok body =>
    dsimp only
    cases hheader : m.updatePVNO.header.marshal with
    | error e => exact .error (Plain.plain e hheader)
    | ok header => exact hpart _

instance (cr : Crypto) (salt : Bytes) (m : PKIMessage) (c : Credentials) :
    Plain (c.prepare cr salt m).2 := by
  cases c with
  | mac secret cfg =>
    simp only [Credentials.prepare]
    split
    · next e he => exact .error (Plain.plain e he)
    · infer_instance
  | signature key cert chain =>
    simp only [Credentials.prepare]
    split
    · next e he => exact .error (Plain.plain e he : e.Plain)
    · infer_instance

end Protection

/-! ### Verification -/

section Verification

set_option synthInstance.maxSize 20000

variable (cr : Crypto)

instance {α : Type} (reason : InvalidReason) (cause : Except GoError α) [h : Plain cause] :
    Plain (unverified reason cause) := by
  unfold unverified
  split
  · infer_instance
  · next e => exact .error (h.plain e rfl)

instance (oid : OID) : Plain (sigAlgFromOID oid) := by
  unfold sigAlgFromOID
  infer_instance

instance (alg : AlgorithmIdentifier) (allowSHA1 : Bool) :
    Plain (signatureAlgorithm alg allowSHA1) := by
  unfold signatureAlgorithm
  cases sha1SigAlgFromOID alg.algorithm <;> infer_instance

instance (alg : AlgorithmIdentifier) : Plain (compositeSignatureAlgorithm cr alg) := by
  unfold compositeSignatureAlgorithm
  split <;> infer_instance

namespace PKIMessage

instance (m : PKIMessage) (alg : AlgorithmIdentifier) (o : VerifyOptions) :
    Plain (m.verifyPBM cr alg o) := by
  unfold verifyPBM
  dsimp only
  infer_instance

instance (m : PKIMessage) (alg : AlgorithmIdentifier) (o : VerifyOptions) :
    Plain (m.verifyPBMAC1 cr alg o) := by
  unfold verifyPBMAC1
  dsimp only
  infer_instance

instance (alg : AlgorithmIdentifier) (allowSHA1 : Bool) :
    Plain (signatureChecker cr alg allowSHA1) := by
  unfold signatureChecker
  refine @Plain.bind _ _ _ _ inferInstance fun composite => ?_
  cases composite <;> infer_instance

instance (sender : GeneralName) (o : VerifyOptions) (pool intermediates : List Certificate)
    (now : Time) (check : Certificate → Except GoError Unit) (st : CandidateSearch)
    (certs : List Certificate) :
    Plain (searchSigner cr sender o pool intermediates now check st certs) := by
  induction certs generalizing st with
  | nil => exact .error rfl
  | cons cert certs ih =>
    unfold searchSigner
    dsimp only
    cases cr.verifyPath cert pool intermediates now with
    | error e => infer_instance
    | ok _ => cases check cert <;> infer_instance

instance (m : PKIMessage) (alg : AlgorithmIdentifier) (o : VerifyOptions) (now : Time) :
    Plain (m.verifySignature cr alg o now) := by
  unfold verifySignature
  refine @Plain.bind _ _ _ _ inferInstance fun check => ?_
  refine @Plain.bind _ _ _ _ inferInstance fun data => ?_
  cases o.trustedCert with
  | some cert =>
    dsimp only
    cases check cert data m.protection <;> infer_instance
  | none => cases o.trustPool <;> infer_instance

/-- **No status is reported by a failed verification.** -/
instance (m : PKIMessage) (o : VerifyOptions) (now : Time) : Plain (m.verify cr o now) := by
  unfold verify
  split <;> infer_instance

end PKIMessage

end Verification

/-! ### Requests and certificates -/

/-- The errors of the other libraries hold no `*PKIStatusError`. -/
class Crypto.Plain (cr : Crypto) : Prop where
  parseCertificate : ∀ der, PkiCmp.Plain (cr.parseCertificate der)
  parseCertificateRequest : ∀ der, PkiCmp.Plain (cr.parseCertificateRequest der)
  parsePKIXPublicKey : ∀ der, PkiCmp.Plain (cr.parsePKIXPublicKey der)
  marshalPKIXPublicKey : ∀ key, PkiCmp.Plain (cr.marshalPKIXPublicKey key)
  verifyPath : ∀ cert roots candidates now, PkiCmp.Plain (cr.verifyPath cert roots candidates now)

attribute [instance] Crypto.Plain.parseCertificate Crypto.Plain.parseCertificateRequest
  Crypto.Plain.parsePKIXPublicKey Crypto.Plain.marshalPKIXPublicKey Crypto.Plain.verifyPath

/-- The errors of the key hold no `*PKIStatusError`. -/
class Signer.Plain (key : Signer) : Prop where
  sign : ∀ digest hash, PkiCmp.Plain (key.sign digest hash)

attribute [instance] Signer.Plain.sign

section Requests

instance (cr : Crypto) (cert : Certificate) : Plain (certHash cr cert) := by
  unfold certHash
  split <;> infer_instance

instance (cr : Crypto) (cert : Certificate) (certReqID : ℤ) :
    Plain (newCertStatus cr cert certReqID) := by
  unfold newCertStatus
  split <;> infer_instance

instance (f : Except GoError Bytes) : Plain (asn1Marshal f) := by
  unfold asn1Marshal
  cases f with
  | error e => exact .error rfl
  | ok b => exact .ok b

instance (exts : List Extension) : Plain (marshalExtensions exts) := by
  unfold marshalExtensions
  infer_instance

instance (cr : Crypto) (m : CertReqMsg) (key : Signer) [key.Plain] :
    Plain (m.generatePOP cr key) := by
  unfold CertReqMsg.generatePOP
  split
  · next e he => exact .error (Plain.plain e he : e.Plain)
  · refine @Plain.bind _ _ _ _ inferInstance fun a => ?_
    dsimp only
    split
    · next e he => exact .error (Plain.plain e he : e.Plain)
    · infer_instance

instance (cert : Certificate) : Plain (newOldCertIDControl cert) := by
  unfold newOldCertIDControl
  split
  · infer_instance
  · split
    · next e he => exact .error (Plain.plain e he : e.Plain)
    · infer_instance

instance (v : ℤ) : Plain (marshalEnumerated v) := by
  unfold marshalEnumerated
  infer_instance

instance (cert : Option Certificate) (reason : ℤ) : Plain (newRevDetails cert reason) := by
  unfold newRevDetails
  split
  · infer_instance
  · split
    · infer_instance
    · split_ifs
      · infer_instance
      · split
        · next e he => exact .error (Plain.plain e he : e.Plain)
        · split
          · next e he => exact .error (Plain.plain e he : e.Plain)
          · infer_instance

end Requests

end PkiCmp
