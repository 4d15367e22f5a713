/-
The signer that a signature is attributed to.

`verifySignature` goes through the certificates of a message until one of them is accepted.
What it decides about a certificate does not depend on the ones before it, so whether a
signer is found, and the reason given when none is, depend on which certificates there are,
not on their order or number.

* `Judging`: what is asked about one certificate, and `searchSigner_eq`: the search in
  these terms;
* `signer_selected`: the first certificate that qualifies, or else the reason.
-/
import PkiCmp.Verify

namespace PkiCmp

open Der

/-- What the search asks about one certificate. -/
structure Judging where
  /-- its `SubjectKeyId` is the senderKID, if one is given -/
  isCandidate : Certificate → Bool
  chains : Certificate → Bool
  isSender : Certificate → Bool
  maySign : Certificate → Bool
  verifies : Certificate → Bool

namespace Judging

/-- The certificates that are accepted. -/
def qualifies (j : Judging) (cert : Certificate) : Bool :=
  j.isCandidate cert && j.chains cert && j.isSender cert && j.maySign cert && j.verifies cert

/-- A candidate with a path that belongs to somebody else. -/
def misnamed (j : Judging) (cert : Certificate) : Bool :=
  j.isCandidate cert && j.chains cert && !j.isSender cert

/-- A candidate with a path that belongs to the sender and may not sign. -/
def barred (j : Judging) (cert : Certificate) : Bool :=
  j.isCandidate cert && j.chains cert && j.isSender cert && !j.maySign cert

/-- The reason when no certificate qualifies. -/
def reason (j : Judging) (certs : List Certificate) : InvalidReason :=
  if !certs.any j.isCandidate then .noCandidateSigner
  else if certs.any j.misnamed then .senderMismatch
  else if certs.any j.barred then .keyUsageNotPermitted
  else .signatureFailed

end Judging

namespace PKIMessage

variable (cr : Crypto)

/-- The certificates of a list that can be decoded. -/
def parsedCandidates (l : List CMPCertificate) : List Certificate :=
  l.filterMap fun c => (cr.parseCertificate c.raw).toOption

/-- The questions of a search over a pool. -/
def judging (sender : GeneralName) (o : VerifyOptions) (pool intermediates : List Certificate)
    (now : Time) (check : Certificate → Except GoError Unit) : Judging where
  isCandidate cert := o.senderKID = [] ∨ cert.subjectKeyId = o.senderKID
  chains cert := (cr.verifyPath cert pool intermediates now).isOk
  isSender cert := senderMatchesCertificate sender cert
  maySign cert := !o.requireDigitalSignatureKeyUsage || permittedToSign cert
  verifies cert := (check cert).isOk

variable {cr}

lemma mem_parsedCandidates {l : List CMPCertificate} {cert : Certificate} :
    cert ∈ parsedCandidates cr l ↔ ∃ c ∈ l, cr.parseCertificate c.raw = .ok cert := by
  rw [parsedCandidates, List.mem_filterMap]
  refine exists_congr fun c => and_congr_right fun _ => ?_
  cases cr.parseCertificate c.raw <;> simp [Except.toOption]

/-! ### The search -/

section

variable {sender : GeneralName} {o : VerifyOptions} {pool intermediates : List Certificate}
  {now : Time} {check : Certificate → Except GoError Unit}

/-- **The search** is a search for the first certificate that qualifies; what it has seen on
the way only matters when there is none. -/
lemma searchSigner_eq (st : CandidateSearch) (certs : List Certificate) :
    searchSigner cr sender o pool intermediates now check st certs =
      match certs.find? (judging cr sender o pool intermediates now check).qualifies with
      | some cert => .ok { macVerified := false, protectionCertificate := some cert }
      | none => .error (.verification (CandidateSearch.reason
          { senderMismatch := st.senderMismatch ||
              certs.any (judging cr sender o pool intermediates now check).misnamed
            keyUsageRejected := st.keyUsageRejected ||
              certs.any (judging cr sender o pool intermediates now check).barred
            candidates := st.candidates +
              certs.countP (judging cr sender o pool intermediates now check).isCandidate })) := by
  induction certs generalizing st with
  | nil => simp [searchSigner]
  | cons cert certs ih =>
    rw [searchSigner]
    simp only [ih]
    set j := judging cr sender o pool intermediates now check with hj
    rw [List.find?_cons, List.any_cons, List.any_cons, List.countP_cons]
    by_cases hkid : o.senderKID ≠ [] ∧ cert.subjectKeyId ≠ o.senderKID
    · simp [hkid, Judging.qualifies, Judging.misnamed, Judging.barred, hj, judging]
    have hcand : j.isCandidate cert = true := by
      simp only [hj, judging, decide_eq_true_eq]
      tauto
    rw [if_neg hkid]
    cases hpath : cr.verifyPath cert pool intermediates now with
    | error e =>
      have hchain : j.chains cert = false := by
        simp [hj, judging, hpath, Except.isOk, Except.toBool]
      simp [hcand, hchain, Judging.qualifies, Judging.misnamed, Judging.barred, Nat.add_assoc,
        Nat.add_comm]
    | ok u =>
      have hchain : j.chains cert = true := by
        simp [hj, judging, hpath, Except.isOk, Except.toBool]
      by_cases hsender : senderMatchesCertificate sender cert = true
      · have hname : j.isSender cert = true :=
          hsender
        by_cases hsign : (o.requireDigitalSignatureKeyUsage && !permittedToSign cert) = true
        · have hbarred : j.maySign cert = false := by
            revert hsign
            simp only [hj, judging]
            cases o.requireDigitalSignatureKeyUsage <;> cases permittedToSign cert <;> decide
          simp [hcand, hchain, hname, hbarred, hsender, hsign, Judging.qualifies,
            Judging.misnamed, Judging.barred, Nat.add_assoc, Nat.add_comm]
        · have hmay : j.maySign cert = true := by
            revert hsign
            simp only [hj, judging]
            cases o.requireDigitalSignatureKeyUsage <;> cases permittedToSign cert <;> decide
          rw [if_neg hsign]
          cases hcheck : check cert with
          | ok u =>
            have hver : j.verifies cert = true := by
              simp [hj, judging, hcheck, Except.isOk, Except.toBool]
            simp [hcand, hchain, hname, hmay, hver, hsender, Judging.qualifies]
          | error e =>
            have hver : j.verifies cert = false := by
              simp [hj, judging, hcheck, Except.isOk, Except.toBool]
            simp [hcand, hchain, hname, hmay, hver, hsender, Judging.qualifies,
              Judging.misnamed, Judging.barred, Nat.add_assoc, Nat.add_comm]
      · have hname : j.isSender cert = false :=
          eq_false_of_ne_true hsender
        simp [hcand, hchain, hname, hsender, Judging.qualifies, Judging.misnamed,
          Judging.barred, Nat.add_assoc, Nat.add_comm]

end

/-- The whole search, from the reasons of the list. -/
lemma searchSigner_start {sender : GeneralName} {o : VerifyOptions}
    {pool intermediates : List Certificate} {now : Time}
    {check : Certificate → Except GoError Unit} (certs : List Certificate) :
    searchSigner cr sender o pool intermediates now check {} certs =
      match certs.find? (judging cr sender o pool intermediates now check).qualifies with
      | some cert => .ok { macVerified := false, protectionCertificate := some cert }
      | none => .error (.verification
          ((judging cr sender o pool intermediates now check).reason certs)) := by
  have hcount : ∀ p : Certificate → Bool, certs.countP p = 0 ↔ (!certs.any p) = true := by
    intro p
    rw [List.countP_eq_zero, Bool.not_eq_true', List.any_eq_false]
  rw [searchSigner_eq, Judging.reason]
  simp only [CandidateSearch.reason, Bool.false_or, Nat.zero_add, hcount]

/-- Some certificate of the list can be decoded and satisfies the condition. -/
def Offers (cr : Crypto) (l : List CMPCertificate) (p : Certificate → Bool) : Prop :=
  ∃ c ∈ l, ∃ cert, cr.parseCertificate c.raw = .ok cert ∧ p cert = true

lemma any_parsedCandidates {l : List CMPCertificate} {p : Certificate → Bool} :
    (parsedCandidates cr l).any p = true ↔ Offers cr l p := by
  simp only [List.any_eq_true, mem_parsedCandidates]
  exact ⟨fun ⟨cert, ⟨c, hc, hparse⟩, hp⟩ => ⟨c, hc, cert, hparse, hp⟩,
    fun ⟨c, hc, cert, hparse, hp⟩ => ⟨cert, ⟨c, hc, hparse⟩, hp⟩⟩

/-- The first decoded certificate that satisfies a condition, in the list it was decoded from. -/
lemma find?_parsedCandidates {l : List CMPCertificate} {p : Certificate → Bool}
    {cert : Certificate} :
    (parsedCandidates cr l).find? p = some cert ↔
      ∃ pre c post, l = pre ++ c :: post ∧ cr.parseCertificate c.raw = .ok cert ∧ p cert = true ∧
        ¬ Offers cr pre p := by
  have hparse : ∀ (c : CMPCertificate) cert', cr.parseCertificate c.raw = .ok cert' ↔
      (cr.parseCertificate c.raw).toOption = some cert' := by
    intro c cert'
    cases cr.parseCertificate c.raw <;> simp [Except.toOption]
  simp only [parsedCandidates, List.find?_filterMap, Option.bind_eq_some_iff,
    List.find?_eq_some_iff_append, Offers, hparse]
  constructor
  · rintro ⟨c, ⟨hp, pre, post, rfl, hpre⟩, hc⟩
    rw [hc] at hp
    refine ⟨pre, c, post, rfl, hc, hp, ?_⟩
    rintro ⟨c', hc', cert', h, hp'⟩
    have := hpre c' hc'
    rw [h, Option.any_some, hp'] at this
    cases this
  · rintro ⟨pre, c, post, rfl, hc, hp, hpre⟩
    refine ⟨c, ⟨by rw [hc]; exact hp, pre, post, rfl, fun c' hc' => ?_⟩, hc⟩
    rw [Bool.not_eq_true']
    refine eq_false_of_ne_true fun h => hpre ?_
    obtain ⟨cert', hcert', hp'⟩ := (Option.any_eq_true _ _).mp h
    exact ⟨c', hc', cert', hcert', hp'⟩

/-- The reason by what the list offers. -/
lemma reason_parsedCandidates (j : Judging) (l : List CMPCertificate) :
    (j.reason (parsedCandidates cr l) = .noCandidateSigner ↔ ¬ Offers cr l j.isCandidate) ∧
    (j.reason (parsedCandidates cr l) = .senderMismatch ↔
      Offers cr l j.isCandidate ∧ Offers cr l j.misnamed) ∧
    (j.reason (parsedCandidates cr l) = .keyUsageNotPermitted ↔
      Offers cr l j.isCandidate ∧ ¬ Offers cr l j.misnamed ∧ Offers cr l j.barred) ∧
    (j.reason (parsedCandidates cr l) = .signatureFailed ↔
      Offers cr l j.isCandidate ∧ ¬ Offers cr l j.misnamed ∧ ¬ Offers cr l j.barred) := by
  simp only [← any_parsedCandidates, Judging.reason]
  cases (parsedCandidates cr l).any j.isCandidate <;>
    cases (parsedCandidates cr l).any j.misnamed <;>
    cases (parsedCandidates cr l).any j.barred <;> decide

/-- Lists with the same members, on which two searches agree, give the same reason. -/
lemma Judging.reason_congr {j j' : Judging} {certs certs' : List Certificate}
    (hmem : ∀ cert, cert ∈ certs ↔ cert ∈ certs')
    (hcand : ∀ cert ∈ certs, j.isCandidate cert = j'.isCandidate cert)
    (hmis : ∀ cert ∈ certs, j.misnamed cert = j'.misnamed cert)
    (hbar : ∀ cert ∈ certs, j.barred cert = j'.barred cert) :
    j.reason certs = j'.reason certs' := by
  have hany : ∀ {p p' : Certificate → Bool}, (∀ cert ∈ certs, p cert = p' cert) →
      certs.any p = certs'.any p' := by
    intro p p' h
    rw [Bool.eq_iff_iff, List.any_eq_true, List.any_eq_true]
    constructor
    · rintro ⟨cert, hc, hp⟩
      exact ⟨cert, (hmem cert).mp hc, (h cert hc) ▸ hp⟩
    · rintro ⟨cert, hc, hp⟩
      have hc := (hmem cert).mpr hc
      exact ⟨cert, hc, (h cert hc).symm ▸ hp⟩
  rw [Judging.reason, Judging.reason, hany hcand, hany hmis, hany hbar]

/-! ### The signer -/

/-- **The signer** is the first certificate that qualifies.  Without one the reason is that
there was no candidate, or that a trusted candidate is not the sender, or that one may not
sign, or that no signature verified, in this order.  Another list with the same decoded
certificates, in which the same ones have a path, is judged the same way. -/
theorem signer_selected (cr : Crypto) (m : PKIMessage) (alg : AlgorithmIdentifier)
    (o : VerifyOptions) (now : Time) (pool : List Certificate) (data : Bytes)
    (check : Certificate → Bytes → Bytes → Except GoError Unit)
    (hcheck : signatureChecker cr alg o.allowSHA1Signatures = .ok check)
    (hdata : m.protectedPart = .ok data) (htrusted : o.trustedCert = none)
    (hpool : o.trustPool = some pool) :
    let j := fun l => judging cr m.header.sender o pool (parsedCandidates cr l) now
      fun cert => check cert data m.protection
    let verify := fun l => m.verifySignature cr alg { o with extraCerts := l } now
    -- acceptance, and the certificate that is returned
    (∀ l, (∃ r, verify l = .ok r) ↔ Offers cr l (j l).qualifies) ∧
    (∀ l r, verify l = .ok r ↔
      ∃ pre c post cert, l = pre ++ c :: post ∧ cr.parseCertificate c.raw = .ok cert ∧
        (j l).qualifies cert = true ∧ ¬ Offers cr pre (j l).qualifies ∧
        r = { macVerified := false, protectionCertificate := some cert }) ∧
    -- the reason
    (∀ l, ¬ Offers cr l (j l).qualifies → ∃ reason, verify l = .error (.verification reason) ∧
      (reason = .noCandidateSigner ↔ ¬ Offers cr l (j l).isCandidate) ∧
      (reason = .senderMismatch ↔ Offers cr l (j l).isCandidate ∧ Offers cr l (j l).misnamed) ∧
      (reason = .keyUsageNotPermitted ↔ Offers cr l (j l).isCandidate ∧
        ¬ Offers cr l (j l).misnamed ∧ Offers cr l (j l).barred) ∧
      (reason = .signatureFailed ↔ Offers cr l (j l).isCandidate ∧
        ¬ Offers cr l (j l).misnamed ∧ ¬ Offers cr l (j l).barred)) ∧
    -- order, repetitions and what cannot be decoded do not matter
    ∀ l l', (∀ cert, cert ∈ parsedCandidates cr l ↔ cert ∈ parsedCandidates cr l') →
      (∀ cert ∈ parsedCandidates cr l, (j l).chains cert = (j l').chains cert) →
      ((∃ r, verify l = .ok r) ↔ ∃ r, verify l' = .ok r) ∧
        ∀ e, verify l = .error e ↔ verify l' = .error e := by
  intro j verify
  have hverify : ∀ l, verify l =
      match (parsedCandidates cr l).find? (j l).qualifies with
      | some cert => .ok { macVerified := false, protectionCertificate := some cert }
      | none => .error (.verification ((j l).reason (parsedCandidates cr l))) := by
    intro l
    simp only [verify, verifySignature, hcheck, hdata, htrusted, hpool, bind, Except.bind]
    exact searchSigner_start (parsedCandidates cr l)
  have hok : ∀ l r, verify l = .ok r ↔ ∃ cert,
      (parsedCandidates cr l).find? (j l).qualifies = some cert ∧
        r = { macVerified := false, protectionCertificate := some cert } := by
    intro l r
    rw [hverify l]
    cases (parsedCandidates cr l).find? (j l).qualifies <;> simp [eq_comm]
  have herr : ∀ l e, verify l = .error e ↔ ¬ Offers cr l (j l).qualifies ∧
      e = .verification ((j l).reason (parsedCandidates cr l)) := by
    intro l e
    rw [hverify l, ← any_parsedCandidates, List.any_eq_true, ← List.find?_isSome]
    cases (parsedCandidates cr l).find? (j l).qualifies <;> simp [eq_comm]
  have haccept : ∀ l, (∃ r, verify l = .ok r) ↔ Offers cr l (j l).qualifies := by
    intro l
    rw [← any_parsedCandidates, List.any_eq_true, ← List.find?_isSome, Option.isSome_iff_exists]
    simp only [hok]
    exact ⟨fun ⟨_, cert, h, _⟩ => ⟨cert, h⟩, fun ⟨cert, h⟩ => ⟨_, cert, h, rfl⟩⟩
  refine ⟨haccept, fun l r => ?_, fun l hnone => ?_, fun l l' hmem hchains => ?_⟩
  · simp only [hok, find?_parsedCandidates]
    constructor
    · rintro ⟨cert, ⟨pre, c, post, hl, hparse, hq, hpre⟩, rfl⟩
      exact ⟨pre, c, post, cert, hl, hparse, hq, hpre, rfl⟩
    · rintro ⟨pre, c, post, cert, hl, hparse, hq, hpre, rfl⟩
      exact ⟨cert, ⟨pre, c, post, hl, hparse, hq, hpre⟩, rfl⟩
  · exact ⟨_, (herr l _).mpr ⟨hnone, rfl⟩, reason_parsedCandidates (j l) l⟩
  · have hq : ∀ cert ∈ parsedCandidates cr l, (j l).qualifies cert = (j l').qualifies cert := by
      intro cert hcert
      simp only [Judging.qualifies, hchains cert hcert]
      rfl
    have hsame : Offers cr l (j l).qualifies ↔ Offers cr l' (j l').qualifies := by
      rw [← any_parsedCandidates, ← any_parsedCandidates, List.any_eq_true, List.any_eq_true]
      refine exists_congr fun cert => ⟨fun ⟨hc, h⟩ => ?_, fun ⟨hc, h⟩ => ?_⟩
      · exact ⟨(hmem cert).mp hc, hq cert hc ▸ h⟩
      · exact ⟨(hmem cert).mpr hc, (hq cert ((hmem cert).mpr hc)).symm ▸ h⟩
    have hreason : (j l).reason (parsedCandidates cr l) =
        (j l').reason (parsedCandidates cr l') := by
      refine Judging.reason_congr hmem (fun _ _ => rfl) (fun cert hcert => ?_) fun cert hcert => ?_
      · simp only [Judging.misnamed, hchains cert hcert]
        rfl
      · simp only [Judging.barred, hchains cert hcert]
        rfl
    refine ⟨(haccept l).trans (hsame.trans (haccept l').symm), fun e => ?_⟩
    rw [herr, herr, hsame, hreason]

/-- Libraries in which no certificate is empty. -/
def sampleCrypto : Crypto :=
  { Crypto.sample with
    parseCertificate := fun b =>
      if b = [] then .error (.library (str "x509: malformed certificate")) else .ok { raw := b } }

/-- A message whose signature is the part it protects. -/
def sampleSigned : PKIMessage :=
  { header := { pvno := 2 }, body := .pkiConf
    protection := [0x30, 0x04, 0x30, 0x00, 0x05, 0x00]
    rawHeader := [0x30, 0x00], rawBody := [0x05, 0x00] }

/-- An entry that cannot be decoded is passed over, and the first of two signers is taken. -/
theorem signer_selected_second :
    sampleSigned.verifySignature sampleCrypto ⟨oidEd25519, []⟩
        { trustPool := some [], extraCerts := [⟨[]⟩, ⟨[1]⟩, ⟨[2]⟩] } 0 =
      .ok { macVerified := false, protectionCertificate := some { raw := [1] } } := by
  obtain ⟨-, hselect, -⟩ := signer_selected sampleCrypto sampleSigned ⟨oidEd25519, []⟩
    { trustPool := some [] } 0 [] [0x30, 0x04, 0x30, 0x00, 0x05, 0x00] _ rfl (by decide) rfl rfl
  refine (hselect _ _).mpr ⟨[⟨[]⟩], ⟨[1]⟩, [⟨[2]⟩], _, rfl, rfl, by decide, ?_, rfl⟩
  rintro ⟨c, hc, cert, hparse, -⟩
  rw [List.mem_singleton.mp hc] at hparse
  cases hparse

end PKIMessage

end PkiCmp
