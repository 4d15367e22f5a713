/-
The holder of a certificate has it revoked (`NewRevDetails` of `pkicmp/revocation.go`, and the
handler of `server/revocation.go`).

The client names its certificate by the serial number and the issuer as they are in the
certificate, and gives a reason.  The server finds the same values in the message, finds the
sender to be the holder, and has the certificate revoked.

* `holderDetails`: the request that `NewRevDetails` builds;
* `getRR_of_parsed`: revocation requests arrive in every message that is accepted;
* `caHandler_holder`: for the holder, the handler is one call of the CA;
* `holder_revokes`: **the holder of a certificate can always revoke it**.
-/
import PkiCmp.Codec.Fields
import PkiCmp.Codec.Messages
import PkiCmp.Request
import PkiCmp.Server.Refusal
import PkiCmp.Server.Revocation

namespace PkiCmp

open Der Interact

/-! ### The request of the holder -/

/-- The extension with a reason code. -/
def reasonEntry (r : ℤ) : Extension where
  id := oidCRLReason
  critical := false
  value := [0x0a, 0x01, UInt8.ofNat r.toNat]

/-- What is written for the extension. -/
def reasonDetails (r : ℤ) : Bytes :=
  element tagSequence (element tagSequence
    ([0x06, 0x03, 0x55, 0x1d, 0x15] ++ element tagOctetString (reasonEntry r).value))

lemma reason_cases {r : ℤ} (h : validCRLReason r = true) :
    r ∈ ([0, 1, 2, 3, 4, 5, 6, 8, 9, 10] : List ℤ) := by
  simp only [validCRLReason, Bool.and_eq_true, decide_eq_true_eq] at h
  simp only [List.mem_cons, List.not_mem_nil, or_false]
  omega

lemma marshalEnumerated_reason {r : ℤ} (h : validCRLReason r = true) :
    marshalEnumerated r = .ok (reasonEntry r).value := by
  have hall : ∀ r ∈ ([0, 1, 2, 3, 4, 5, 6, 8, 9, 10] : List ℤ),
      intOctets r = [UInt8.ofNat r.toNat] := by decide +kernel
  rw [marshalEnumerated, hall r (reason_cases h)]
  rfl

lemma unmarshalExtensions_reason {r : ℤ} (h : validCRLReason r = true) :
    unmarshalExtensions (reasonDetails r) = some ([reasonEntry r], []) := by
  have hall : ∀ r ∈ ([0, 1, 2, 3, 4, 5, 6, 8, 9, 10] : List ℤ),
      unmarshalExtensions (reasonDetails r) = some ([reasonEntry r], []) := by decide +kernel
  exact hall r (reason_cases h)

lemma unmarshalEnumerated_reason {r : ℤ} (h : validCRLReason r = true) :
    unmarshalEnumerated (reasonEntry r).value = some (r, []) := by
  have hall : ∀ r ∈ ([0, 1, 2, 3, 4, 5, 6, 8, 9, 10] : List ℤ),
      unmarshalEnumerated (reasonEntry r).value = some (r, []) := by decide +kernel
  exact hall r (reason_cases h)

/-- What `NewRevDetails` names a certificate by. -/
def holderDetails (c : Certificate) (n r : ℤ) : RevDetails where
  certDetails := { serialNumber := some n, issuer := c.rawIssuer }
  crlEntryDetails := reasonDetails r

variable {c : Certificate}

lemma newRevDetails_eq {n r : ℤ} (hserial : c.serialNumber = some n)
    (hr : validCRLReason r = true) :
    newRevDetails (some c) r = .ok (holderDetails c n r) := by
  have hexts : marshalExtensions [⟨oidCRLReason, false, (reasonEntry r).value⟩] =
      .ok (reasonDetails r) := rfl
  simp only [newRevDetails, hserial, hr, Bool.not_true, Bool.false_eq_true, if_false,
    marshalEnumerated_reason hr, hexts]
  rfl

lemma oneSequence_element {c : Bytes} (h : (element tagSequence c).length < 2 ^ 32) :
    OneSequence (element tagSequence c) := by
  have hread := readAnyASN1_element (c := c) [] (by decide : isHighTag tagSequence = false) h
  rw [List.append_nil] at hread
  exact ⟨_, readASN1_eq_some_iff.mpr ⟨hread, rfl⟩⟩

variable {rdn : RDNSequence}

/-- A name that `encoding/asn1` decodes is one SEQUENCE. -/
lemma oneSequence_of_name {b : Bytes} (h : unmarshalRDNSequence b = some (rdn, [])) :
    OneSequence b := by
  obtain ⟨⟨content, rest⟩, hfield, h⟩ := Option.bind_eq_some_iff.mp h
  obtain ⟨sets, -, h⟩ := Option.bind_eq_some_iff.mp h
  obtain ⟨rdns, -, h⟩ := Option.bind_eq_some_iff.mp h
  obtain ⟨-, rfl⟩ := Prod.mk.inj (Option.some.inj h)
  obtain ⟨hlen, rfl⟩ := (Asn1.field_eq_some_iff (u := tagSequence)
    ⟨by decide, by decide, by decide, by decide⟩).mp hfield
  rw [List.append_nil]
  refine oneSequence_element ?_
  exact lt_of_le_of_lt (length_element_le _ _) (by omega)

lemma holderDetails_wf (n r : ℤ) (h : unmarshalRDNSequence c.rawIssuer = some (rdn, [])) :
    (holderDetails c n r).Wf := by
  refine ⟨⟨.inr (oneSequence_of_name h), rfl, ?_, .inl rfl, .inl rfl⟩, .inr
    (oneSequence_element ?_)⟩
  · exact fun _ hmem => (List.not_mem_nil hmem).elim
  · exact (by decide : (14 : ℕ) < 2 ^ 32)

/-! ### The request on the wire -/

/-- **A revocation request** whose templates have no subject arrives in every message that is
accepted. -/
lemma getRR_of_parsed {m msg : PKIMessage} {ds : RevReqContent} {der : Bytes}
    (hbody : m.body = .rr ds) (h : ∀ d ∈ ds, d.Wf)
    (hnone : ∀ d ∈ ds, d.certDetails.subject.directoryName = [])
    (hder : m.marshalBinary = .ok der) (hparse : parsePKIMessage der = .ok msg) :
    msg.body.type = BodyTypeRR ∧ msg.body.getRR = .ok ds := by
  obtain ⟨hd, bd, tr, hhd, hbd, -, -, rfl⟩ := PKIMessage.marshalBinary_eq_ok hder
  obtain ⟨hraw, hlen⟩ := body_of_parsed (hbody ▸ .rr h) hhd hbd hparse
  rw [hbody, PKIBody.marshal] at hbd
  obtain ⟨ht, c, hc, -, rfl⟩ := addASN1_eq_ok.mp hbd
  have hshort := hlen
  rw [length_element] at hshort
  obtain ⟨_, hread, rfl⟩ :=
    (RevReqContent.conveys (N := 2 ^ 32) h fun d hd => .inl (hnone d hd)).of_ok
    hc (by omega) [] (List.mem_singleton.mpr (rfl : ([] : Bytes).head? = none))
  rw [List.append_nil] at hread
  rw [hraw, hbody]
  exact ⟨rfl, PKIBody.decode_element ht hlen hread⟩

/-- What the server makes of the request of the holder. -/
def holderRequest (c : Certificate) (rdn : RDNSequence) (n r : ℤ) : RevocationRequest where
  issuer := Name.fillFromRDNSequence rdn
  rawIssuer := c.rawIssuer
  serialNumber := n
  reason := r
  extensions := [reasonEntry r]
  subject := []
  publicKey := []
  hasReason := true

lemma parse_holderDetails {msg : PKIMessage} {n r : ℤ}
    (hget : msg.body.getRR = .ok [holderDetails c n r])
    (hissuer : unmarshalRDNSequence c.rawIssuer = some (rdn, [])) (hne : rdn ≠ [])
    (hr : validCRLReason r = true) :
    parseRevocationRequest msg = .ok (holderRequest c rdn n r) := by
  have hname : revocationIssuer (holderDetails c n r).certDetails = .ok rdn := by
    have hraw : c.rawIssuer ≠ [] := (oneSequence_of_name hissuer).ne_nil
    rw [revocationIssuer, holderDetails, if_neg hraw]
    simp only [hissuer]
  have hexts : (holderDetails c n r).crlEntryExtensions = .ok [reasonEntry r] := by
    rw [RevDetails.crlEntryExtensions, if_neg (by
      rw [holderDetails, reasonDetails, element]
      exact List.cons_ne_nil _ _)]
    simp only [holderDetails, unmarshalExtensions_reason hr]
  have hreason : crlReason [reasonEntry r] none = .ok (some r) := by
    have hid : ¬(reasonEntry r).id ≠ oidCRLReason := not_not.mpr rfl
    rw [crlReason, if_neg hid, if_neg (by decide)]
    simp only [unmarshalEnumerated_reason hr, hr, if_true, crlReason]
  simp only [parseRevocationRequest, hget]
  simp only [hname, hexts, hreason, bind, Except.bind, if_neg hne]
  rfl

/-- The holder is named by the request. -/
lemma holderRequest_names {cr : Crypto} {n r : ℤ} (hserial : c.serialNumber = some n) :
    (holderRequest c rdn n r).Names cr c where
  serialNumber := hserial
  issuer := .inl rfl
  subject := fun h => absurd rfl h
  publicKey := fun h => absurd rfl h

/-! ### The handler -/

section

variable {cr : Crypto} {ca : CAInterfaces} {ctx : Ctx} {msg : PKIMessage} {sender : SenderIdentity}
  {req : RevocationRequest} {c : Certificate}

/-- A signed request with a reason passes the policy. -/
lemma lightweightCheck_eq_ok (htype : msg.body.type = BodyTypeRR)
    (hmac : sender.macVerified = false) (hreq : parseRevocationRequest msg = .ok req)
    (hreason : req.hasReason = true) : lightweightCheck cr ctx msg sender = .ok () := by
  rw [lightweightCheck, if_neg (by simp [hmac]), if_pos htype, validateRR, hmac, hreq]
  simp only [bind, Except.bind, hreason, Bool.not_true, Bool.false_eq_true, if_false]

/-- For the holder, the handler is one call of the CA. -/
lemma caHandler_holder (hca : ca.revoker = true) (htype : msg.body.type = BodyTypeRR)
    (hreq : parseRevocationRequest msg = .ok req) (hcert : sender.certificate = some c)
    (hnames : req.Names cr c) :
    caHandler cr ca ctx msg sender =
      (perform (.revokeCertificate req sender) >>= fun err => pure { err }) := by
  have hrefusal : revocationRefusal cr ca req sender = pure none := by
    have hfilter : sender.certificate.filter req.identifies = some c := by
      rw [hcert, Option.filter_some, identifies_iff.mpr ⟨hnames.serialNumber, hnames.issuer⟩,
        if_pos rfl]
    simp only [revocationRefusal, hfilter, matchCert_eq_ok_iff.mpr hnames]
  have hhandler : caHandler cr ca ctx msg sender = caHandleRevocation cr ca msg sender := by
    unfold caHandler
    rw [htype]
    rfl
  rw [hhandler, caHandleRevocation, hca, if_neg (by decide)]
  simp only [hreq, hrefusal, pure_bind]

end

/-! ### The server -/

namespace Server

/-- The calls of the CA about revocations. -/
def asksRevocation : Effect → Bool
  | .authorizeRevocation .. | .revokeCertificate .. => true
  | _ => false

/-- What a run asks of the CA about revocations. -/
def revocationCalls (tr : History) : History := tr.filter fun e => asksRevocation e.op

lemma revocationCalls_eq_nil {α : Type} {P : Effect → Prop} {p q : ServerProg α} {tr : History}
    (hp : Prog.Only P p) (hP : ∀ o, P o → asksRevocation o = false) (hs : Prog.Steps p tr q) :
    revocationCalls tr = [] := by
  refine List.filter_eq_nil_iff.mpr fun e he => ?_
  rw [hP _ (hp.mem_steps hs he)]
  exact Bool.false_ne_true

/-- A server whose handler is one call of `RevokeCertificate` asks the CA nothing else, and
reports that it was accepted when it was. -/
lemma handleRevocation_once {srv : Server} {ctx : Ctx} {msg : PKIMessage} {sender : SenderIdentity}
    {req : RevocationRequest} {c : Certificate} (hcert : sender.certificate = some c)
    (hmac : sender.macVerified = false)
    (hh : srv.handler ctx msg sender =
      (perform (.revokeCertificate req sender) >>= fun err => pure { err }))
    {tr : History} {resp : Option PKIMessage}
    (hs : Prog.Steps (srv.handleRevocation ctx msg sender) tr (.ret resp)) :
    ∃ x, revocationCalls tr = [⟨.revokeCertificate req sender, x⟩] ∧
      (x = none → ∃ p, resp = some p ∧
        srv.Answers sender tr msg (.rp { status := [{ status := StatusAccepted }] }) p) := by
  have hcred : sender.credentialID srv.crypto = .ok (srv.crypto.hash .sha256 c.raw) := by
    simp only [SenderIdentity.credentialID, hmac, Bool.false_eq_true, if_false, hcert]
  simp only [handleRevocation, hcred, hh, bind_assoc, pure_bind] at hs
  obtain ⟨tr1, tr2, x, rfl, hcall, hs⟩ := hs.of_bind
  obtain ⟨tr3, tr4, p, rfl, hanswer, hs⟩ := hs.of_bind
  obtain ⟨tr5, tr6, u, rfl, hcomplete, hs⟩ := hs.of_bind
  obtain ⟨rfl, hresp⟩ := Prog.steps_ret_iff.mp hs
  have h1 : tr1 = [⟨.revokeCertificate req sender, x⟩] := by
    obtain ⟨-, hret⟩ | ⟨y, tr', rfl, hret⟩ := Prog.steps_op_iff.mp hcall
    · cases hret
    · obtain ⟨rfl, ⟨⟩⟩ := hret.of_ret
      rfl
  have h3 : revocationCalls tr3 = [] := revocationCalls_eq_nil (srv.answerRevocation_only ..)
    (fun o ho => by cases o <;> first | rfl | exact ho.elim) hanswer
  have h5 : revocationCalls tr5 = [] := revocationCalls_eq_nil (srv.tracker.setCompleted_only ..)
    (fun o ho => by cases o <;> first | rfl | exact ho.elim) hcomplete
  refine ⟨x, ?_, ?_⟩
  · simp only [revocationCalls, List.filter_append] at h3 h5 ⊢
    rw [h1, h3, h5]
    rfl
  · rintro rfl
    have ha : srv.Answers sender tr3 msg (.rp { status := [{ status := StatusAccepted }] }) p :=
      (buildResponseInternal_steps hanswer).1
    have hentry := not_sealed_of_onEntry (.of_only (srv.tracker.setCompleted_only ..) hcomplete)
    exact ⟨p, by simpa using hresp, ha.congr (by simp [h1, hentry, isSealed])⟩

/-- **The holder of a certificate can always revoke it.**  Whatever the serial number, the
encoding of the issuer and the reason, the request is built, can be written and read in a
message with a well formed header, and, in every message that is accepted from a sender
authenticated with the certificate, passes the lightweight policy and is one call of
`RevokeCertificate`.  When that succeeds the server answers with one status, accepted. -/
theorem holder_revokes (cr : Crypto) (ca : CAInterfaces) (retries : ℕ) (cfg : ServerConfig)
    (c : Certificate) (n : ℤ) (rdn : RDNSequence) (r : ℤ) (hserial : c.serialNumber = some n)
    (hissuer : unmarshalRDNSequence c.rawIssuer = some (rdn, [])) (hne : rdn ≠ [])
    (hr : validCRLReason r = true) (hca : ca.revoker = true) :
    ∃ d, newRevDetails (some c) r = .ok d ∧
      (∀ m : PKIMessage, m.body = .rr [d] → m.header.pvno ≤ 3 → m.header.Wf →
        (∀ e ∈ m.extraCerts, OneElement e.raw) → Encodes m.marshalBinary ∧
        (∀ der, m.marshalBinary = .ok der → der.length = m.size) ∧
        (m.size < 2 ^ 31 → ∃ der msg, m.marshalBinary = .ok der ∧ parsePKIMessage der = .ok msg)) ∧
      ∀ (m : PKIMessage) (der : Bytes) (msg : PKIMessage), m.body = .rr [d] →
        m.marshalBinary = .ok der → parsePKIMessage der = .ok msg →
        ∀ (ctx : Ctx) (sender : SenderIdentity), sender.certificate = some c →
          sender.macVerified = false →
          ∃ req : RevocationRequest, req.serialNumber = n ∧ req.rawIssuer = c.rawIssuer ∧
            req.reason = r ∧ req.hasReason = true ∧
            lightweightCheck cr ctx msg sender = .ok () ∧
            caHandler cr ca ctx msg sender =
              (perform (.revokeCertificate req sender) >>= fun err => pure { err }) ∧
            ∀ tr resp, Prog.Steps ((newCA cr retries ca (lightweightPolicy cr) cfg).handleRevocation
                ctx msg sender) tr (.ret resp) →
              ∃ x, revocationCalls tr = [⟨.revokeCertificate req sender, x⟩] ∧
                (x = none → ∃ p, resp = some p ∧
                  (newCA cr retries ca (lightweightPolicy cr) cfg).Answers sender tr msg
                    (.rp { status := [{ status := StatusAccepted }] }) p) := by
  have hwf : ∀ d ∈ [holderDetails c n r], d.Wf := by
    rintro _ hd
    rw [List.mem_singleton.mp hd]
    exact holderDetails_wf n r hissuer
  refine ⟨_, newRevDetails_eq hserial hr, ?_, ?_⟩
  · intro m hbody hpvno hheader hcerts
    have hm : m.Wf := ⟨hpvno, hheader, hbody ▸ .rr hwf, hcerts⟩
    refine ⟨hm.encodes, m.sized.length, fun hsize => ?_⟩
    obtain ⟨der, msg, hder, -, hparse, -⟩ := hm.delivered hsize
    exact ⟨der, msg, hder, hparse⟩
  · intro m der msg hbody hder hparse ctx sender hcert hmac
    obtain ⟨htype, hget⟩ := getRR_of_parsed hbody hwf
      (fun d hd => by rw [List.mem_singleton.mp hd]; rfl) hder hparse
    have hreq := parse_holderDetails hget hissuer hne hr
    have hcheck : lightweightCheck cr ctx msg sender = .ok () :=
      lightweightCheck_eq_ok htype hmac hreq rfl
    have hcall : caHandler cr ca ctx msg sender = _ :=
      caHandler_holder hca htype hreq hcert (holderRequest_names hserial)
    refine ⟨_, rfl, rfl, rfl, rfl, hcheck, hcall, fun tr resp hs => ?_⟩
    refine handleRevocation_once hcert hmac ?_ hs
    show policy (lightweightCheck cr) (caHandler cr ca) ctx msg sender = _
    rw [policy, hcheck]
    exact hcall

/-- A request to revoke the certificate of the sample holder, as it is written. -/
def sampleHolderMessage : PKIMessage where
  header := { pvno := PVNO2, sender := {}, recipient := {}, transactionID := [1] }
  body := .rr [holderDetails
    { sampleCertificate with serialNumber := some 5, rawIssuer := sampleIssuer } 5 1]

/-- The certificate with the number five is revoked by its holder. -/
theorem holder_revokes_sample : ∃ msg req,
    (sampleHolderMessage.marshalBinary >>= parsePKIMessage) = .ok msg ∧ req.serialNumber = 5 ∧
    caHandler .sample ⟨false, false, true, false⟩ {} msg sampleHolder =
      (perform (.revokeCertificate req sampleHolder) >>= fun err => pure { err }) := by
  have hparsed :
      (sampleHolderMessage.marshalBinary >>= parsePKIMessage).toOption.isSome = true := by
    decide +kernel
  have hissuer : unmarshalRDNSequence sampleIssuer =
      some ([[⟨[2, 5, 4, 3], .string [0x41]⟩]], []) := by decide +kernel
  cases hmsg : sampleHolderMessage.marshalBinary >>= parsePKIMessage with
  | error e =>
    rw [hmsg] at hparsed
    cases hparsed
  | ok msg =>
    obtain ⟨der, hder, hparse⟩ := Except.bind_eq_ok.mp hmsg
    obtain ⟨d, hd, -, h⟩ := holder_revokes .sample ⟨false, false, true, false⟩ 0 {}
      { sampleCertificate with serialNumber := some 5, rawIssuer := sampleIssuer } 5
      [[⟨[2, 5, 4, 3], .string [0x41]⟩]] 1 rfl hissuer (by decide) (by decide) rfl
    rw [newRevDetails_eq rfl (by decide)] at hd
    cases hd
    obtain ⟨req, hserial, -, -, -, -, hcall, -⟩ :=
      h sampleHolderMessage der msg rfl hder hparse {} sampleHolder rfl rfl
    exact ⟨msg, req, rfl, hserial, hcall⟩

end Server

end PkiCmp
