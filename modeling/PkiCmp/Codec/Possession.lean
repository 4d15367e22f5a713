/-
A proof of possession survives transport (`pkicmp/crmf.go`, `pkicmp/pop.go`).

The requester signs one encoding of its request, sends another one, and the other side checks
the signature over the octets it has kept.  They agree because the encoder is a function of
the request and the decoder keeps exactly the element it reads.

* `Signer.Verifiable`: what a signer makes, its public key verifies;
* `possession_delivered`: **the proof verifies on the other side**, and no octet of the request
  can be replaced without replacing what it is checked over.
-/
import PkiCmp.Codec.Bodies
import PkiCmp.Lib.DerParts
import PkiCmp.Request

namespace PkiCmp

open Der

variable {cr : Crypto}

/-! ### Making a proof -/

/-- What is signed for data: its digest, or the data itself. -/
def signedDigest (cr : Crypto) (hash : Option Hash) (data : Bytes) : Bytes :=
  match hash with
  | some h => cr.hash h data
  | none => data

/-- What the key signs, its public key verifies under the algorithm that the code selects for
the key; and the composite library knows its own identifiers and no other. -/
structure Signer.Verifiable (cr : Crypto) (key : Signer) : Prop where
  plain : ∀ oid hash, key.pub.composite? = none →
    signatureAlgorithmFromKey cr key.pub = .ok (oid, hash) → cr.compositeFromOID oid = none ∧
      ∀ alg data sig, sigAlgFromOID oid = .ok alg →
        key.sign (signedDigest cr hash data) hash = .ok sig →
        cr.checkSignature (some key.pub) alg data sig = .ok ()
  composite : ∀ a, key.pub.composite? = some a →
    smallOID (cr.compositeOID a) = true ∧ cr.compositeFromOID (cr.compositeOID a) = some a ∧
      ∀ data sig, key.sign data none = .ok sig → cr.compositeVerify key.pub data sig = .ok ()

/-- The identifier of a key that is not composite is one of those that are read. -/
lemma signatureAlgorithmFromKey_plain {pub : PublicKey} {oid : OID} {hash : Option Hash}
    (hpub : pub.composite? = none) (h : signatureAlgorithmFromKey cr pub = .ok (oid, hash)) :
    smallOID oid = true ∧ ∃ alg, ∀ allow,
      signatureAlgorithm { algorithm := oid } allow = .ok alg ∧ sigAlgFromOID oid = .ok alg := by
  unfold signatureAlgorithmFromKey at h
  split at h
  · split_ifs at h <;> cases h
    · exact ⟨by decide, .sha512WithRSA, by decide⟩
    · exact ⟨by decide, .sha384WithRSA, by decide⟩
    · exact ⟨by decide, .sha256WithRSA, by decide⟩
  · cases h
    exact ⟨by decide, .ecdsaWithSHA256, by decide⟩
  · cases h
    exact ⟨by decide, .ecdsaWithSHA384, by decide⟩
  · cases h
    exact ⟨by decide, .ecdsaWithSHA512, by decide⟩
  · cases h
  · cases h
    exact ⟨by decide, .pureEd25519, by decide⟩
  · cases h
    exact ⟨by decide, .mldsa44, by decide⟩
  · cases h
    exact ⟨by decide, .mldsa65, by decide⟩
  · cases h
    exact ⟨by decide, .mldsa87, by decide⟩
  · cases h
  · next a ha => simp [PublicKey.composite?, ha] at hpub
  all_goals cases h

/-- The identifier of a composite key. -/
lemma signatureAlgorithmFromKey_composite {pub : PublicKey} {a : ℕ}
    (hpub : pub.composite? = some a) :
    signatureAlgorithmFromKey cr pub = .ok (cr.compositeOID a, none) := by
  obtain ⟨type, value⟩ := pub
  cases type <;> cases hpub
  rfl

/-- A signature as proof. -/
def signatureProof (oid : OID) (signature : Bytes) : ProofOfPossession :=
  { signature := some { algorithm := { algorithm := oid }, signature } }

/-- What `GeneratePOP` adds to a message. -/
lemma CertReqMsg.generatePOP_eq_ok {m m' : CertReqMsg} {key : Signer}
    (h : m.generatePOP cr key = .ok m') :
    ∃ der oid hash sig, m.certReq.marshal = .ok der ∧
      signatureAlgorithmFromKey cr key.pub = .ok (oid, hash) ∧
      key.sign (signedDigest cr hash der) hash = .ok sig ∧
      m' = { m with popo := some (signatureProof oid sig) } := by
  unfold generatePOP at h
  split at h
  · cases h
  · next der hder =>
    obtain ⟨⟨oid, hash⟩, hkey, h⟩ := Except.bind_eq_ok.mp h
    dsimp only at h
    split at h
    · cases h
    · next sig hsig =>
      cases h
      exact ⟨der, oid, hash, sig, hder, hkey, hsig, rfl⟩

/-- The signature of a proof is accepted over what was signed. -/
lemma verifyPOPSignature_of_sign {key : Signer} {oid : OID} {hash : Option Hash}
    {der signature : Bytes} (hkey : key.Verifiable cr) (hder : der ≠ [])
    (halg : signatureAlgorithmFromKey cr key.pub = .ok (oid, hash))
    (hsig : key.sign (signedDigest cr hash der) hash = .ok signature) :
    verifyPOPSignature cr der key.pub { algorithm := { algorithm := oid }, signature } false =
      .ok () := by
  rw [verifyPOPSignature, if_neg hder]
  cases hcomp : key.pub.composite? with
  | none =>
    obtain ⟨-, alg, hread⟩ := signatureAlgorithmFromKey_plain hcomp halg
    obtain ⟨hnot, hverify⟩ := hkey.plain oid hash hcomp halg
    simp only [compositeSignatureAlgorithm, hnot, Option.isSome_none, Bool.false_eq_true, or_self,
      if_false, (hread false).1, bind, Except.bind]
    exact hverify alg der signature (hread false).2 hsig
  | some a =>
    obtain ⟨-, hoid, hverify⟩ := hkey.composite a hcomp
    rw [signatureAlgorithmFromKey_composite hcomp] at halg
    cases halg
    simp only [compositeSignatureAlgorithm, hoid, ne_eq, not_true_eq_false, if_false, bind,
      Except.bind, Option.isSome_some, true_or, if_true]
    exact hverify der signature hsig

/-- The proof that is read back verifies. -/
lemma verifyPOP_of_readAs {m m' r : CertReqMsg} {key : Signer} (hkey : key.Verifiable cr)
    (hpub : m.certReq.certTemplate.publicKey ≠ [])
    (hparse : cr.parsePKIXPublicKey m.certReq.certTemplate.publicKey = .ok key.pub)
    (h : m.generatePOP cr key = .ok m') (hr : m'.ReadAs r) :
    verifyPOPWithOptions cr r false = .ok () := by
  obtain ⟨der, oid, hash, sig, hder, halg, hsig, rfl⟩ := CertReqMsg.generatePOP_eq_ok h
  obtain ⟨⟨hreq, hraw⟩, hpopo⟩ := hr
  obtain ⟨req, popo⟩ := r
  dsimp only at hreq hraw hpopo
  cases hpopo with
  | some hp =>
    next p =>
    obtain ⟨hra, hsignature, -, -⟩ := hp
    obtain ⟨ra, signature, ke, ka⟩ := p
    dsimp only at hra hsignature
    cases hsignature with
    | some hs =>
      next s =>
      obtain ⟨input, alg, bits⟩ := s
      obtain ⟨hinput, hid, hbits⟩ := hs
      dsimp only at hinput hid hbits
      subst hra hid hbits
      cases hinput
      have hkept : req.raw = der := Except.ok.inj (hraw.symm.trans hder)
      have hne : der ≠ [] := by
        obtain ⟨-, c, -, -, rfl⟩ := addASN1_eq_ok.mp hder
        simp [element]
      have htemplate : req.certTemplate = m.certReq.certTemplate := by rw [hreq]
      simp only [verifyPOPWithOptions, htemplate, if_neg hpub, hparse, hkept]
      exact verifyPOPSignature_of_sign hkey hne halg hsig

/-- A message with a proof can be sent. -/
lemma CertReqMsg.generatePOP_wf {m m' : CertReqMsg} {key : Signer} (hkey : key.Verifiable cr)
    (hreq : m.certReq.Wf) (h : m.generatePOP cr key = .ok m') : m'.Wf := by
  obtain ⟨der, oid, hash, sig, -, halg, -, rfl⟩ := generatePOP_eq_ok h
  refine ⟨hreq, ?_⟩
  rintro p ⟨⟩
  refine .inr (.inl ⟨_, rfl, by rintro i ⟨⟩, ?_, .inl rfl⟩)
  cases hcomp : key.pub.composite? with
  | none => exact (signatureAlgorithmFromKey_plain hcomp halg).1
  | some a =>
    rw [signatureAlgorithmFromKey_composite hcomp] at halg
    cases halg
    exact (hkey.composite a hcomp).1

/-! ### What a proof is checked over -/

/-- The content of the `k`-th message of a body of certificate requests. -/
def requestContent (t : BodyType) (k : ℕ) (raw : Bytes) : Option Bytes :=
  ((contentOf t raw).bind (contentOf tagSequence)).bind (nthContent tagSequence k)

/-- The `k`-th message that is read is the one at the `k`-th place. -/
lemma manyAux_nthContent {fuel : ℕ} {s left : Bytes} {ms : CertReqMessages}
    (h : Reader.manyAux CertReqMsg.unmarshal fuel s = .ok (ms, left)) (k : ℕ) :
    Option.Rel (fun c m => ∃ rest, CertRequest.unmarshal c = .ok (m.certReq, rest))
      (nthContent tagSequence k s) ms[k]? := by
  induction fuel generalizing s ms k with
  | zero =>
    cases s with
    | nil =>
      cases h
      cases k <;> exact .none
    | cons x s => cases h
  | succ fuel ih =>
    cases s with
    | nil =>
      cases h
      cases k <;> exact .none
    | cons x s =>
      obtain ⟨⟨m, s1⟩, hm, h⟩ := Except.bind_eq_ok.mp h
      obtain ⟨⟨ms', s2⟩, hms, h⟩ := Except.bind_eq_ok.mp h
      cases h
      obtain ⟨e, rest, he, hreq, -⟩ := CertReqMsg.unmarshal_ok hm
      cases k with
      | zero =>
        rw [nthContent, contentOf, he]
        exact .some ⟨rest, hreq⟩
      | succ k =>
        rw [nthContent, he]
        exact ih hms k

/-- Reading the messages of a body. -/
lemma getCertReqMessages_requestContent {t : BodyType} {raw : Bytes} {ms : CertReqMessages}
    (h : (PKIBody.received t raw).getCertReqMessages = .ok ms) (k : ℕ) :
    Option.Rel (fun c m => ∃ rest, CertRequest.unmarshal c = .ok (m.certReq, rest))
      (requestContent t k raw) ms[k]? := by
  have hdecode :
      ∃ name, (PKIBody.received t raw).decode t name CertReqMessages.unmarshal = .ok ms := by
    unfold PKIBody.getCertReqMessages at h
    split_ifs at h with hir hcr hkur
    · obtain rfl : t = BodyTypeIR := hir
      exact ⟨_, h⟩
    · obtain rfl : t = BodyTypeCR := hcr
      exact ⟨_, h⟩
    · obtain rfl : t = BodyTypeKUR := hkur
      exact ⟨_, h⟩
  obtain ⟨name, hdecode⟩ := hdecode
  obtain ⟨raw', e, rest, rest', hbody, he, hread⟩ := PKIBody.decode_ok hdecode
  cases hbody
  obtain ⟨c, s1, hc, hread⟩ := Reader.bind_ok.mp hread
  obtain ⟨e', he', rfl⟩ := Reader.element_ok hc
  obtain ⟨rfl, left, hmany⟩ := Reader.within_ok hread
  have hcontent : requestContent t k raw = nthContent tagSequence k e'.content := by
    simp only [requestContent, contentOf, he, he', Option.map_some, Option.bind_some]
  rw [hcontent]
  exact manyAux_nthContent hmany k

/-- The octets a proof is checked over stand in the body; other octets in their place are not
read as the same request. -/
lemma certReq_raw_replaced {t : BodyType} {raw : Bytes} {ms : CertReqMessages} {m : CertReqMsg}
    {k : ℕ} (h : (PKIBody.received t raw).getCertReqMessages = .ok ms) (hm : ms[k]? = some m) :
    ∃ pre post, raw = pre ++ m.certReq.raw ++ post ∧ ∀ raw' ms',
      raw'.length = m.certReq.raw.length → raw' ≠ m.certReq.raw →
      (PKIBody.received t (pre ++ raw' ++ post)).getCertReqMessages = .ok ms' →
      ∃ m', ms'[k]? = some m' ∧ m'.certReq.raw ≠ m.certReq.raw := by
  have hrel := getCertReqMessages_requestContent h k
  rw [hm] at hrel
  obtain ⟨c, hc⟩ : ∃ c, requestContent t k raw = some c := by
    cases hrc : requestContent t k raw with
    | none => rw [hrc] at hrel; cases hrel
    | some c => exact ⟨c, rfl⟩
  rw [hc] at hrel
  cases hrel with
  | some hreq =>
    obtain ⟨rest, hreq⟩ := hreq
    obtain ⟨e, he, hraw⟩ := CertRequest.unmarshal_raw hreq
    obtain rfl : c = m.certReq.raw ++ rest := by
      rw [hraw]
      exact readAnyASN1_append (readASN1_eq_some_iff.mp he).1
    have hloc : Located (requestContent t k) raw (m.certReq.raw ++ rest) := by
      obtain ⟨c1, hc1, hnth⟩ := Option.bind_eq_some_iff.mp hc
      obtain ⟨c0, hc0, hseq⟩ := Option.bind_eq_some_iff.mp hc1
      exact ((located_content hc0).comp (located_content hseq)).comp (located_nthContent hnth)
    obtain ⟨pre, post, hpre, hplace⟩ := hloc
    refine ⟨pre, rest ++ post, by rw [hpre]; simp only [List.append_assoc], ?_⟩
    intro raw' ms' hlen hne hread
    have hassoc : pre ++ raw' ++ (rest ++ post) = pre ++ (raw' ++ rest) ++ post := by
      simp only [List.append_assoc]
    rw [hassoc] at hread
    have hrel' := getCertReqMessages_requestContent hread k
    rw [hplace (raw' ++ rest) (by simp only [List.length_append, hlen])] at hrel'
    cases hget : ms'[k]? with
    | none => rw [hget] at hrel'; cases hrel'
    | some m' =>
      rw [hget] at hrel'
      cases hrel' with
      | some hreq' =>
        obtain ⟨rest', hreq'⟩ := hreq'
        obtain ⟨e', he', hraw'⟩ := CertRequest.unmarshal_raw hreq'
        have happ := readAnyASN1_append (readASN1_eq_some_iff.mp he').1
        refine ⟨m', rfl, fun hsame => hne ?_⟩
        -- both stand at the start of the same octets
        rw [← hraw', hsame] at happ
        exact (List.append_inj happ hlen).1

/-! ### Transport -/

/-- **A proof of possession survives transport**: it verifies on the other side, whichever of
the three bodies carries the message.  A signature is checked over the octets of the request as it
was read; and these stand in the body, where they cannot be replaced without replacing what is
read. -/
theorem possession_delivered (cr : Crypto) :
    (∀ (m m' : CertReqMsg) (key : Signer), m.certReq.Wf → key.Verifiable cr →
      m.certReq.certTemplate.publicKey ≠ [] →
      cr.parsePKIXPublicKey m.certReq.certTemplate.publicKey = .ok key.pub →
      m.generatePOP cr key = .ok m' →
      ∀ b, b = PKIBody.ir [m'] ∨ b = PKIBody.cr [m'] ∨ b = PKIBody.kur [m'] →
        b.Delivers PKIBody.getCertReqMessages
          (fun rs => ∃ r, rs = [r] ∧ verifyPOPWithOptions cr r false = .ok ())) ∧
    (∀ (m : CertReqMsg) (popo : ProofOfPossession) (sig : PopoSigningKey) (allowSHA1 : Bool),
      m.popo = some popo → popo.signature = some sig →
      verifyPOPWithOptions cr m allowSHA1 = .ok () →
      ∃ K, cr.parsePKIXPublicKey m.certReq.certTemplate.publicKey = .ok K ∧
        sig.Verifies cr K m.certReq.raw allowSHA1) ∧
    ∀ (t : BodyType) (raw : Bytes) (ms : CertReqMessages) (k : ℕ) (m : CertReqMsg),
      (PKIBody.received t raw).getCertReqMessages = .ok ms → ms[k]? = some m →
      ∃ pre post, raw = pre ++ m.certReq.raw ++ post ∧ ∀ raw' ms',
        raw'.length = m.certReq.raw.length → raw' ≠ m.certReq.raw →
        (PKIBody.received t (pre ++ raw' ++ post)).getCertReqMessages = .ok ms' →
        ∃ m', ms'[k]? = some m' ∧ m'.certReq.raw ≠ m.certReq.raw := by
  refine ⟨fun m m' key hreq hkey hpub hparse h b hb => ?_, fun m popo sig allow hp hs h => ?_,
    fun t raw ms k m h hm => certReq_raw_replaced h hm⟩
  rotate_left
  · obtain ⟨K, -, hK, hver⟩ := verifyPOPWithOptions_ok h hp hs
    exact ⟨K, hK, hver⟩
  have hwf : ∀ x ∈ [m'], x.Wf := fun x hx =>
    List.mem_singleton.mp hx ▸ CertReqMsg.generatePOP_wf hkey hreq h
  have hverify : ∀ rs, List.Forall₂ CertReqMsg.ReadAs [m'] rs →
      ∃ r, rs = [r] ∧ verifyPOPWithOptions cr r false = .ok () := by
    intro rs hrs
    cases hrs with
    | cons hr hnil =>
      cases hnil
      exact ⟨_, rfl, verifyPOP_of_readAs hkey hpub hparse h hr⟩
  have hconveys := (CertReqMessages.conveys (F := [none]) hwf).mono hverify
  obtain rfl | rfl | rfl := hb
  · exact PKIBody.delivers (t := BodyTypeIR) (d := "ir") (by decide) (by decide)
      (by rw [PKIBody.marshal]) (fun _ => rfl) hconveys
  · exact PKIBody.delivers (t := BodyTypeCR) (d := "cr") (by decide) (by decide)
      (by rw [PKIBody.marshal]) (fun _ => rfl) hconveys
  · exact PKIBody.delivers (t := BodyTypeKUR) (d := "kur") (by decide) (by decide)
      (by rw [PKIBody.marshal]) (fun _ => rfl) hconveys

/-- A signer whose signatures are what they are made for. -/
def sampleSigner : Signer := ⟨⟨.ed25519, [0x30, 0x00]⟩, fun data _ => .ok data⟩

lemma sampleSigner_verifiable : sampleSigner.Verifiable Crypto.sample where
  plain := by
    rintro oid hash - h
    cases h
    refine ⟨rfl, fun alg data sig _ hsig => ?_⟩
    obtain rfl : data = sig := Except.ok.inj hsig
    exact if_pos rfl
  composite := by
    intro a h
    cases h

/-- A request for the key of the signer. -/
def sampleKeyRequest (controls : List Control) : CertReqMsg where
  certReq := { certReqID := 0, certTemplate := { publicKey := [0x30, 0x00] }, controls }

lemma sampleKeyRequest_wf : (sampleKeyRequest []).certReq.Wf where
  certReqID := by unfold IsInt64; decide
  certTemplate :=
    { issuer := .inl rfl
      subject := rfl
      textual := by
        rintro rdn hrdn
        cases hrdn
      publicKey := .inr oneSequence_sample
      extensions := .inl rfl }
  controls := by
    intro c hc
    cases hc

/-- The octets of the request. -/
def sampleKeyOctets : Bytes :=
  element tagSequence (element tagInteger [0] ++
    element tagSequence (element (contextConstructed 6) []))

/-- The signature of the sample signer over them. -/
def sampleKeyProof : PopoSigningKey where
  algorithm := { algorithm := oidEd25519 }
  signature := sampleKeyOctets

/-- The octets of a body with one request. -/
def sampleKeyBody : Bytes :=
  [0xa0, 11, 0x30, 9, 0x30, 7, 0x30, 5, 0x02, 1, 0, 0x30, 0]

/-- A request with a proof is delivered, its signature verifies over the octets that are kept, and
the request of a body stands in the body. -/
theorem possession_delivered_sample :
    (∃ m', (sampleKeyRequest []).generatePOP Crypto.sample sampleSigner = .ok m' ∧
      (PKIBody.kur [m']).Delivered PKIBody.getCertReqMessages
        (fun rs => ∃ r, rs = [r] ∧ verifyPOPWithOptions Crypto.sample r false = .ok ())) ∧
    (∃ K, sampleKeyProof.Verifies Crypto.sample K sampleKeyOctets false) ∧
    ∃ pre post, sampleKeyBody = pre ++ [0x30, 5, 0x02, 1, 0, 0x30, 0] ++ post := by
  refine ⟨⟨_, rfl, (possession_delivered Crypto.sample).1 _ _ sampleSigner sampleKeyRequest_wf
    sampleSigner_verifiable (by decide) rfl rfl _ (.inr (.inr rfl)) ?_⟩, ?_, ?_⟩
  · rw [PKIBody.size]
    decide +kernel
  · obtain ⟨K, -, hver⟩ := (possession_delivered Crypto.sample).2.1
      { certReq := { (sampleKeyRequest []).certReq with raw := sampleKeyOctets }
        popo := some { signature := some sampleKeyProof } } _ _ false rfl rfl (by decide +kernel)
    exact ⟨K, hver⟩
  · obtain ⟨pre, post, h, -⟩ := (possession_delivered Crypto.sample).2.2 BodyTypeIR sampleKeyBody
      [{ certReq := { certReqID := 0, certTemplate := {}, raw := [0x30, 5, 0x02, 1, 0, 0x30, 0] } }]
      0 _ (by decide +kernel) rfl
    exact ⟨pre, post, h⟩

/-- A request with a control of a large identifier. -/
def largeArcOctets : Bytes :=
  element tagSequence (element tagInteger [0] ++
    element tagSequence (element (contextConstructed 6) []) ++
    element tagSequence (element tagSequence
      (element tagObjectIdentifier [0x88, 0x80, 0x80, 0x80, 0x4f] ++ [0x05, 0x00])))

/-- A request with a control whose identifier is written and not read: the proof is made and
the body is encoded, and the other side refuses it. -/
theorem possession_largeArc :
    sampleSigner.Verifiable Crypto.sample ∧ validOID [2, 2147483647] = true ∧
      (∀ n ∈ [2, 2147483647], n < 2 ^ 31) ∧ OneElement [0x05, 0x00] ∧
      ∃ m' raw, (sampleKeyRequest [⟨[2, 2147483647], [0x05, 0x00]⟩]).generatePOP Crypto.sample
          sampleSigner = .ok m' ∧ (PKIBody.ir [m']).marshal = .ok raw ∧
        (parseBody raw).bind PKIBody.getCertReqMessages =
          .error (.parse (str "invalid AttributeTypeAndValue OID")) := by
  refine ⟨sampleSigner_verifiable, by decide, by decide, ⟨⟨0x05, [0x05, 0x00], []⟩, by decide⟩,
    { sampleKeyRequest [⟨[2, 2147483647], [0x05, 0x00]⟩] with
      popo := some (signatureProof oidEd25519 largeArcOctets) },
    element BodyTypeIR (element tagSequence (element tagSequence (largeArcOctets ++
      element (contextConstructed 1) (element tagSequence (element tagObjectIdentifier
        (oidOctets oidEd25519)) ++ element tagBitString (0 :: largeArcOctets))))), ?_, ?_, ?_⟩
  · decide +kernel
  · rw [PKIBody.marshal]
    decide +kernel
  · decide +kernel

end PkiCmp
