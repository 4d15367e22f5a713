/-
What the verification of a message establishes (`pkicmp/verify.go`).

* `PKIMessage.Maced`: the protection is a MAC under a key that is derived from the shared
  secret;
* `PKIMessage.Signed`: the protection is a signature of a certificate that chains to the
  pool;
* `PKIMessage.verify_authentic`: **one of the two** holds for a message that verifies, and the
  result says which;
* `PKIMessage.verified_octets`: the same, over the octets that the message was read from.
-/
import PkiCmp.Candidates
import PkiCmp.Envelope

namespace PkiCmp

open Der

/-- A key that is derived from the secret, in one of the two formats. -/
inductive DerivedKey (cr : Crypto) (secret : Bytes) : Bytes → Prop
  | pbm {salt k : Bytes} {count : ℤ} {owf mac : Hash}
      (h : derivePBMKey cr secret salt count owf mac = .ok k) : DerivedKey cr secret k
  | pbmac1 (prf : Hash) (salt : Bytes) (count length : ℤ) :
      DerivedKey cr secret (cr.pbkdf2 prf secret salt count length)

namespace PKIMessage

variable {cr : Crypto} {m : PKIMessage} {alg : AlgorithmIdentifier} {o : VerifyOptions}
variable {now : Time} {vr : VerifyResult}

/-- The protection is a MAC with the shared secret. -/
def Maced (cr : Crypto) (secret : Bytes) (m : PKIMessage) : Prop :=
  secret ≠ [] ∧ ∃ hash k data, DerivedKey cr secret k ∧ m.protectedPart = .ok data ∧
    cr.hmac hash k data = m.protection

/-- The protection is a signature under the key of the certificate, which chains to the pool
and belongs to the sender. -/
structure Signed (cr : Crypto) (o : VerifyOptions) (now : Time) (m : PKIMessage)
    (cert : Certificate) : Prop where
  trusted : ∃ roots, o.trustPool = some roots ∧
    ∃ u, cr.verifyPath cert roots (parsedCandidates cr o.extraCerts) now = .ok u
  sender : senderMatchesCertificate m.header.sender cert = true
  signature : ∃ alg check data u, m.header.protectionAlg = some alg ∧
    signatureChecker cr alg o.allowSHA1Signatures = .ok check ∧ m.protectedPart = .ok data ∧
    check cert data m.protection = .ok u

lemma verifyPBM_ok (h : m.verifyPBM cr alg o = .ok vr) :
    Maced cr o.sharedSecret m ∧ vr.macVerified = true := by
  unfold verifyPBM at h
  by_cases hsecret : o.sharedSecret = []
  · rw [if_pos hsecret] at h
    cases h
  rw [if_neg hsecret] at h
  obtain ⟨⟨p, _⟩, -, h⟩ := Except.bind_eq_ok.mp h
  obtain ⟨-, -, h⟩ := Except.bind_eq_ok.mp h
  obtain ⟨hash, -, h⟩ := Except.bind_eq_ok.mp h
  obtain ⟨macHash, -, h⟩ := Except.bind_eq_ok.mp h
  obtain ⟨data, hdata, h⟩ := Except.bind_eq_ok.mp h
  obtain ⟨k, hk, h⟩ := Except.bind_eq_ok.mp h
  by_cases hmac : cr.hmac macHash k data = m.protection
  · rw [if_neg (not_not.mpr hmac)] at h
    cases h
    have hkey : DerivedKey cr o.sharedSecret k := by
      unfold unverified at hk
      split at hk
      · next hk' =>
        cases hk
        exact .pbm hk'
      · cases hk
    exact ⟨⟨hsecret, macHash, k, data, hkey, hdata, hmac⟩, rfl⟩
  · rw [if_pos hmac] at h
    cases h

lemma verifyPBMAC1_ok (h : m.verifyPBMAC1 cr alg o = .ok vr) :
    Maced cr o.sharedSecret m ∧ vr.macVerified = true := by
  unfold verifyPBMAC1 at h
  by_cases hsecret : o.sharedSecret = []
  · rw [if_pos hsecret] at h
    cases h
  rw [if_neg hsecret] at h
  obtain ⟨⟨kdf, kdfParams, mac⟩, -, h⟩ := Except.bind_eq_ok.mp h
  dsimp only at h
  by_cases hkdf : kdf ≠ oidPBKDF2
  · rw [if_pos hkdf] at h
    cases h
  rw [if_neg hkdf] at h
  obtain ⟨p, -, h⟩ := Except.bind_eq_ok.mp h
  obtain ⟨-, -, h⟩ := Except.bind_eq_ok.mp h
  obtain ⟨prfHash, -, h⟩ := Except.bind_eq_ok.mp h
  obtain ⟨macHash, -, h⟩ := Except.bind_eq_ok.mp h
  obtain ⟨-, -, h⟩ := Except.bind_eq_ok.mp h
  obtain ⟨data, hdata, h⟩ := Except.bind_eq_ok.mp h
  by_cases hmac : cr.hmac macHash (cr.pbkdf2 prfHash o.sharedSecret p.salt p.iterationCount
      (if p.keyLength = 0 then (macHash.size : ℤ) else p.keyLength)) data = m.protection
  · rw [if_neg (not_not.mpr hmac)] at h
    cases h
    exact ⟨⟨hsecret, macHash, _, data, .pbmac1 .., hdata, hmac⟩, rfl⟩
  · rw [if_pos hmac] at h
    cases h

/-- The certificate that the search accepts. -/
lemma searchSigner_ok {sender : GeneralName} {pool intermediates certs : List Certificate}
    {check : Certificate → Except GoError Unit}
    (h : searchSigner cr sender o pool intermediates now check {} certs = .ok vr) :
    ∃ cert, vr = { macVerified := false, protectionCertificate := some cert } ∧
      (∃ u, cr.verifyPath cert pool intermediates now = .ok u) ∧
      senderMatchesCertificate sender cert = true ∧ ∃ u, check cert = .ok u := by
  have hisOk : ∀ {x : Except GoError Unit}, x.isOk = true → ∃ u, x = .ok u := by
    intro x hx
    cases x with
    | ok u => exact ⟨u, rfl⟩
    | error e => cases hx
  rw [searchSigner_start] at h
  split at h
  · next cert hfind =>
    cases h
    have hq := List.find?_some hfind
    simp only [Judging.qualifies, Bool.and_eq_true] at hq
    obtain ⟨⟨⟨⟨-, hchain⟩, hsender⟩, -⟩, hver⟩ := hq
    exact ⟨cert, rfl, hisOk hchain, hsender, hisOk hver⟩
  · cases h

lemma verifySignature_ok (halg : m.header.protectionAlg = some alg)
    (htrusted : o.trustedCert = none) (h : m.verifySignature cr alg o now = .ok vr) :
    ∃ cert, vr = { macVerified := false, protectionCertificate := some cert } ∧
      Signed cr o now m cert := by
  unfold verifySignature at h
  obtain ⟨check, hcheck, h⟩ := Except.bind_eq_ok.mp h
  obtain ⟨data, hdata, h⟩ := Except.bind_eq_ok.mp h
  simp only [htrusted] at h
  split at h
  · cases h
  · next pool hpool =>
    obtain ⟨cert, rfl, hpath, hsender, u, hver⟩ := searchSigner_ok h
    exact ⟨cert, rfl, ⟨pool, hpool, hpath⟩, hsender, alg, check, data, u, halg, hcheck, hdata, hver⟩

/-- **What a message that verifies is protected with**: the shared secret, or the key of a
certificate that chains to the pool. -/
theorem verify_authentic (htrusted : o.trustedCert = none) (h : m.verify cr o now = .ok vr) :
    (vr.macVerified = true ∧ Maced cr o.sharedSecret m) ∨
      ∃ cert, vr = { macVerified := false, protectionCertificate := some cert } ∧
        Signed cr o now m cert := by
  unfold verify at h
  cases halg : m.header.protectionAlg with
  | none =>
    rw [halg] at h
    cases h
  | some alg =>
    simp only [halg] at h
    split_ifs at h
    · cases h
    · obtain ⟨hm, hvr⟩ := verifyPBM_ok h
      exact .inl ⟨hvr, hm⟩
    · obtain ⟨hm, hvr⟩ := verifyPBMAC1_ok h
      exact .inl ⟨hvr, hm⟩
    · exact .inr (verifySignature_ok halg htrusted h)

/-- **Octets that verify are authentic**: a message is read from octets and verifies.  The header
element and the body element of the octets are then what has the MAC or the signature, and this is
the protection that the octets show. -/
theorem verified_octets (cr : Crypto) (der : Bytes) (m : PKIMessage) (o : VerifyOptions)
    (now : Time) (vr : VerifyResult) (hparse : parsePKIMessage der = .ok m)
    (htrusted : o.trustedCert = none) (hverify : m.verify cr o now = .ok vr) :
    ∃ part, wireProtectedPart der = some part ∧ m.protectedPart = .ok part ∧
      wireProtection der = some m.protection ∧
      ((vr.macVerified = true ∧ Maced cr o.sharedSecret m) ∨
        ∃ cert, vr = { macVerified := false, protectionCertificate := some cert } ∧
          Signed cr o now m cert) := by
  have hne : m.protection ≠ [] := by
    intro hnil
    unfold verify at hverify
    split at hverify
    · cases hverify
    · rw [if_pos hnil] at hverify
      cases hverify
  obtain ⟨⟨part, hpart, hwire⟩, hshown⟩ := wire_of_parsed hparse
  exact ⟨part, hwire, hpart, hshown hne, verify_authentic htrusted hverify⟩

/-- The octets of a confirmation with a signature that the sample libraries take. -/
def signedConfirmationDER : Bytes :=
  let part := [0x30, 0x14, 0x02, 0x01, 0x02, 0xa4, 0x02, 0x30, 0x00, 0xa4, 0x02, 0x30, 0x00,
    0xa1, 0x07, 0x30, 0x05, 0x06, 0x03, 0x2b, 0x65, 0x70, 0xb3, 0x02, 0x05, 0x00]
  element tagSequence (part ++ element (contextConstructed 0)
    (element tagBitString (0 :: element tagSequence part)))

/-- The confirmation verifies with a certificate of the pool. -/
theorem verified_octets_confirmation :
    ∃ m vr, parsePKIMessage signedConfirmationDER = .ok m ∧
      m.verify .sample { trustPool := some [], extraCerts := [⟨[1]⟩] } 0 = .ok vr ∧
      wireProtection signedConfirmationDER = some m.protection := by
  have hok : (parsePKIMessage signedConfirmationDER >>= fun m => m.verify .sample
      { trustPool := some [], extraCerts := [⟨[1]⟩] } 0).isOk = true := by decide +kernel
  cases h : parsePKIMessage signedConfirmationDER >>= fun m => m.verify .sample
      { trustPool := some [], extraCerts := [⟨[1]⟩] } 0 with
  | error e =>
    rw [h] at hok
    cases hok
  | ok vr =>
    obtain ⟨m, hm, hv⟩ := Except.bind_eq_ok.mp h
    obtain ⟨-, -, -, hw, -⟩ := verified_octets _ _ m _ _ vr hm rfl hv
    exact ⟨m, vr, hm, hv, hw⟩

end PKIMessage

end PkiCmp
