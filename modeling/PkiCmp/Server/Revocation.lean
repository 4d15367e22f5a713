/-
Who can have a certificate revoked.

The handler in front of a CA parses a revocation request, and the policy in front of the
handler parses it again.  A certificate is revoked only for a request that says one thing,
and only for the holder of the certificate it names or for whom the CA approves.

* `Requested`: what a request says, read off the message;
* `Names`: the certificate a request names, with the optional parts of its template;
* `revocation_authorized`.
-/
import PkiCmp.Server.Authentication

namespace PkiCmp

open Der Interact

/-! ### The request -/

/-- A request without a `reasonCode`, or with one valid `reasonCode`. -/
def ReasonOf (exts : List Extension) (req : RevocationRequest) : Prop :=
  (exts.filter (fun e => e.id = oidCRLReason) = [] ∧ req.hasReason = false ∧ req.reason = 0) ∨
  ∃ e, exts.filter (fun e => e.id = oidCRLReason) = [e] ∧ req.hasReason = true ∧
    unmarshalEnumerated e.value = some (req.reason, []) ∧ validCRLReason req.reason

/-- `req` is what the single `RevDetails` of an rr body says: the serial number and an
issuer that is not empty, the subject and the public key of the template if it has them,
the extensions and the reason. -/
structure Requested (msg : PKIMessage) (req : RevocationRequest) : Prop where
  type : msg.body.type = BodyTypeRR
  details : ∃ d issuer, msg.body.getRR = .ok [d] ∧
    d.certDetails.serialNumber = some req.serialNumber ∧
    d.certDetails.issuer = req.rawIssuer ∧
    unmarshalRDNSequence req.rawIssuer = some (issuer, []) ∧ issuer ≠ [] ∧
    req.issuer = Name.fillFromRDNSequence issuer ∧
    d.certDetails.subject.directoryName = req.subject ∧ d.certDetails.publicKey = req.publicKey ∧
    d.crlEntryExtensions = .ok req.extensions
  reason : ReasonOf req.extensions req

/-- `crlReason` finds at most one code, and only a valid one. -/
lemma crlReason_eq_ok {exts : List Extension} {r r' : Option ℤ} (h : crlReason exts r = .ok r') :
    (exts.filter (fun e => e.id = oidCRLReason) = [] ∧ r' = r) ∨
    r = none ∧ ∃ e v, exts.filter (fun e => e.id = oidCRLReason) = [e] ∧ r' = some v ∧
      unmarshalEnumerated e.value = some (v, []) ∧ validCRLReason v := by
  induction exts generalizing r with
  | nil =>
    cases h
    exact .inl ⟨rfl, rfl⟩
  | cons e es ih =>
    rw [crlReason] at h
    by_cases hid : e.id = oidCRLReason
    · rw [if_neg (not_not.mpr hid)] at h
      rw [List.filter_cons_of_pos (by simpa using hid)]
      cases r with
      | some v => cases h
      | none =>
        rw [if_neg (by simp)] at h
        split at h
        · next v hv =>
          split_ifs at h with hvalid
          -- a second code is an error, so none is left
          obtain ⟨hnone, rfl⟩ | ⟨hr, -⟩ := ih h
          · exact .inr ⟨rfl, e, v, by rw [hnone], rfl, hv, hvalid⟩
          · cases hr
        · cases h
    · rw [if_pos hid] at h
      rw [List.filter_cons_of_neg (by simpa using hid)]
      exact ih h

lemma revocationIssuer_eq_ok {tmpl : CertTemplate} {issuer : RDNSequence}
    (h : revocationIssuer tmpl = .ok issuer) (hne : issuer ≠ []) :
    unmarshalRDNSequence tmpl.issuer = some (issuer, []) := by
  unfold revocationIssuer at h
  split_ifs at h
  · cases h
    exact absurd rfl hne
  · split at h
    · next hu =>
      cases h
      exact hu
    · cases h

/-- **What is parsed** is what the message says. -/
lemma requested_of_parse {msg : PKIMessage} {req : RevocationRequest}
    (htype : msg.body.type = BodyTypeRR) (h : parseRevocationRequest msg = .ok req) :
    Requested msg req := by
  unfold parseRevocationRequest at h
  split at h
  iterate 3 cases h
  next d hget =>
  simp only at h
  split at h
  · cases h
  · next serialNumber hserial =>
    cases hissuer : revocationIssuer d.certDetails with
    | error e => simp [hissuer, bind, Except.bind] at h
    | ok issuer =>
      rw [hissuer] at h
      simp only [bind, Except.bind] at h
      by_cases hne : issuer = []
      · rw [if_pos hne] at h
        cases h
      · rw [if_neg hne] at h
        split at h
        · cases h
        · next extensions hexts =>
          cases hreason : crlReason extensions none with
          | error e => simp [hreason] at h
          | ok reason =>
            rw [hreason] at h
            cases h
            refine ⟨htype, ⟨d, issuer, hget, hserial, rfl, revocationIssuer_eq_ok hissuer hne,
              hne, rfl, rfl, rfl, hexts⟩, ?_⟩
            obtain ⟨hnone, rfl⟩ | ⟨-, e, v, he, rfl, hv, hvalid⟩ := crlReason_eq_ok hreason
            · exact .inl ⟨hnone, rfl, rfl⟩
            · exact .inr ⟨e, he, rfl, hv, hvalid⟩

/-! ### The certificate it names -/

section

variable (cr : Crypto)

/-- The certificate has the serial number and the issuer of the request: the same bytes, or
the same attributes in the same order.  It also has the subject and the key of the template,
where the template has them. -/
structure RevocationRequest.Names (req : RevocationRequest) (cert : Certificate) : Prop where
  serialNumber : cert.serialNumber = some req.serialNumber
  issuer : req.rawIssuer = cert.rawIssuer ∨ ∃ rdn,
    unmarshalRDNSequence req.rawIssuer = some (rdn, []) ∧
    unmarshalRDNSequence cert.rawIssuer = some (rdn, [])
  subject : req.subject ≠ [] → unmarshalRDNSequence cert.rawSubject = some (req.subject, [])
  publicKey : req.publicKey ≠ [] → req.publicKey = cert.rawSubjectPublicKeyInfo ∨
    ∃ key, cr.parsePKIXPublicKey req.publicKey = .ok key ∧
      certificatePublicKey cr cert = some key

variable {cr}

lemma equalNames_iff {a b : Bytes} : equalNames a b = true ↔
    a = b ∨ ∃ rdn, unmarshalRDNSequence a = some (rdn, []) ∧
      unmarshalRDNSequence b = some (rdn, []) := by
  unfold equalNames
  rw [Bool.or_eq_true, beq_iff_eq]
  refine or_congr_right ⟨fun h => ?_, ?_⟩
  · split at h
    · next an bn ha hb =>
      obtain rfl : an = bn := by simpa using h
      exact ⟨an, ha, hb⟩
    · cases h
  · rintro ⟨rdn, ha, hb⟩
    rw [ha, hb]
    exact beq_self_eq_true rdn

lemma identifies_iff {req : RevocationRequest} {cert : Certificate} :
    req.identifies cert = true ↔ cert.serialNumber = some req.serialNumber ∧
      (req.rawIssuer = cert.rawIssuer ∨ ∃ rdn,
        unmarshalRDNSequence req.rawIssuer = some (rdn, []) ∧
        unmarshalRDNSequence cert.rawIssuer = some (rdn, [])) := by
  rw [RevocationRequest.identifies, Bool.and_eq_true, beq_iff_eq, equalNames_iff]

/-- **`Match`** accepts exactly the certificates the request names. -/
lemma matchCert_eq_ok_iff {req : RevocationRequest} {cert : Certificate} :
    req.matchCert cr cert = .ok () ↔ req.Names cr cert := by
  have hkey : (cr.parsePKIXPublicKey req.publicKey).toOption.isSome ∧
      (cr.parsePKIXPublicKey req.publicKey).toOption = certificatePublicKey cr cert ↔
      ∃ key, cr.parsePKIXPublicKey req.publicKey = .ok key ∧
        certificatePublicKey cr cert = some key := by
    cases cr.parsePKIXPublicKey req.publicKey with
    | error e => simp [Except.toOption]
    | ok key => simp [Except.toOption, eq_comm]
  unfold RevocationRequest.matchCert
  split_ifs with hid hsubject hpub
  · refine iff_of_false nofun fun h => ?_
    rw [identifies_iff.mpr ⟨h.serialNumber, h.issuer⟩] at hid
    cases hid
  · exact iff_of_false nofun fun h => hsubject.2 (h.subject hsubject.1)
  · refine iff_of_false nofun fun h => ?_
    obtain heq | heq := h.publicKey hpub.1
    · exact hpub.2.1 heq
    · exact hpub.2.2 (hkey.mpr heq)
  · rw [Bool.not_eq_true', Bool.not_eq_false] at hid
    obtain ⟨hserial, hissuer⟩ := identifies_iff.mp hid
    refine iff_of_true rfl ⟨hserial, hissuer, fun hne => ?_, fun hne => ?_⟩
    · exact not_not.mp fun h => hsubject ⟨hne, h⟩
    · by_contra h
      rw [not_or] at h
      exact hpub ⟨hne, h.1, fun hk => h.2 (hkey.mp hk)⟩

end

/-! ### The authority -/

section

variable (cr : Crypto) (ca : CAInterfaces)

/-- The sender may have the certificate revoked: as its holder, or because the CA has
approved of this request by this sender. -/
def MayRevoke (h : History) (req : RevocationRequest) (sender : SenderIdentity) : Prop :=
  (∃ cert, sender.certificate = some cert ∧ req.Names cr cert) ∨
  ca.revocationAuthorizer ∧ ⟨.authorizeRevocation req sender, none⟩ ∈ h

/-- The calls of `RevokeCertificate`. -/
def isRevocation (e : ServerEvent) : Bool :=
  match e.op with
  | .revokeCertificate .. => true
  | _ => false

/-- A certificate is revoked once, at the request of the message, by who may revoke it. -/
def revocationMonitor (msg : PKIMessage) (sender : SenderIdentity) :
    Monitor Effect Effect.Res History :=
  .recording fun h o => match o with
    | .revokeCertificate req s =>
      (∀ e ∈ h, isRevocation e = false) ∧ s = sender ∧ ca.revoker ∧
        parseRevocationRequest msg = .ok req ∧ msg.body.type = BodyTypeRR ∧
        MayRevoke cr ca h req sender
    | _ => True

variable {cr ca} {ctx : Ctx} {msg : PKIMessage} {sender : SenderIdentity}

/-- The other calls of the CA are no revocations. -/
lemma revocation_keeps : (revocationMonitor cr ca msg sender).Keeps
    (fun h => ∀ e ∈ h, isRevocation e = false)
    fun o => CACall cr ca ctx msg sender o ∧ msg.body.type ≠ BodyTypeRR := by
  rintro h o hh ⟨ho, htype⟩
  have hsnoc : ∀ {x : o.Res}, isRevocation ⟨o, x⟩ = false →
      ∀ e ∈ h ++ [⟨o, x⟩], isRevocation e = false := by
    intro x hx e he
    obtain he | he := List.mem_append.mp he
    · exact hh e he
    · rw [List.mem_singleton.mp he, hx]
  cases o with
  | authorizeRevocation => exact absurd ho.1 htype
  | revokeCertificate => exact absurd ho.1 htype
  | _ => exact ⟨trivial, fun _ _ => hsnoc rfl⟩

/-- `caHandleRevocation` asks before it revokes. -/
lemma caHandleRevocation_obeys (htype : msg.body.type = BodyTypeRR) :
    Prog.Obeys (revocationMonitor cr ca msg sender) (fun _ _ => True) []
      (caHandleRevocation cr ca msg sender) := by
  unfold caHandleRevocation
  split_ifs with hca
  · trivial
  · split
    · trivial
    · next req hreq =>
      have hauthority : Prog.Obeys (revocationMonitor cr ca msg sender)
          (fun h refused => (∀ e ∈ h, isRevocation e = false) ∧
            (refused = none → MayRevoke cr ca h req sender)) []
          (revocationRefusal cr ca req sender) := by
        unfold revocationRefusal
        split
        · next cert hcert =>
          split
          · exact ⟨fun _ he => (List.not_mem_nil he).elim, fun h => by cases h⟩
          · next hmatch =>
            have hsender := (Option.filter_eq_some_iff.mp hcert).1
            exact ⟨fun _ he => (List.not_mem_nil he).elim,
              fun _ => .inl ⟨cert, hsender, matchCert_eq_ok_iff.mp hmatch⟩⟩
        · split_ifs with hauthorizer
          · exact ⟨fun _ he => (List.not_mem_nil he).elim, fun h => by cases h⟩
          · refine ⟨trivial, fun refused _ => ⟨fun e he => ?_, ?_⟩⟩
            · rw [List.mem_singleton.mp he]
              rfl
            · rintro rfl
              exact .inr ⟨by simpa using hauthorizer, List.mem_singleton.mpr rfl⟩
      refine Prog.Obeys.bind hauthority fun h refused hend => ?_
      obtain ⟨hquiet, hmay⟩ := hend
      cases refused with
      | some e => trivial
      | none =>
        exact ⟨⟨hquiet, rfl, by simpa using hca, hreq, htype, hmay rfl⟩, fun _ _ => trivial⟩

/-- The handler asks before it revokes. -/
lemma caHandler_obeys : Prog.Obeys (revocationMonitor cr ca msg sender) (fun _ _ => True) []
    (caHandler cr ca ctx msg sender) := by
  by_cases htype : msg.body.type = BodyTypeRR
  · have hrevocation : caHandler cr ca ctx msg sender = caHandleRevocation cr ca msg sender := by
      unfold caHandler
      rw [htype]
      rfl
    rw [hrevocation]
    exact caHandleRevocation_obeys htype
  · refine Prog.Obeys.mono (Prog.Obeys.of_keeps revocation_keeps
      (caHandler_only.mono fun o ho => ⟨ho, htype⟩) ?_) fun _ _ _ => trivial
    exact fun _ he => (List.not_mem_nil he).elim

/-! ### The result -/

variable (cr ca msg sender) in
/-- At most one certificate is revoked along a trace, and it is one that the message asks
for and that the sender may have revoked. -/
structure Revoking (tr : History) : Prop where
  once : tr.countP isRevocation ≤ 1
  authorized : ∀ {pre post : History} {req : RevocationRequest} {s : SenderIdentity}
    {r : Option GoError}, tr = pre ++ ⟨.revokeCertificate req s, r⟩ :: post →
    s = sender ∧ Requested msg req ∧ MayRevoke cr ca pre req sender

/-- What the monitor says of a trace. -/
lemma revoking_of_obeys {p q : ServerProg HandlerResult} {tr : History}
    (hp : Prog.Obeys (revocationMonitor cr ca msg sender) (fun _ _ => True) [] p)
    (hs : Prog.Steps p tr q) : Revoking cr ca msg sender tr where
  once := by
    refine countP_le_one fun pre e post hsplit hrevocation => ?_
    subst hsplit
    have hallowed := hp.recorded hs
    obtain ⟨o, x⟩ := e
    cases o with
    | revokeCertificate req s => exact hallowed.1
    | _ => cases hrevocation
  authorized := by
    rintro pre post req s r rfl
    obtain ⟨-, hsender, -, hreq, htype, hmay⟩ := hp.recorded hs
    exact ⟨hsender, requested_of_parse htype hreq, hmay⟩

/-- The policy lets a revocation request pass only when it is signed and gives a reason. -/
lemma lightweightCheck_revocation (htype : msg.body.type = BodyTypeRR)
    (h : lightweightCheck cr ctx msg sender = .ok ()) :
    sender.macVerified = false ∧
      ∃ req, parseRevocationRequest msg = .ok req ∧ req.hasReason = true := by
  unfold lightweightCheck at h
  rw [if_pos htype] at h
  split_ifs at h
  unfold validateRR at h
  split_ifs at h with hmac
  refine ⟨by simpa using hmac, ?_⟩
  cases hreq : parseRevocationRequest msg with
  | error e => simp [hreq, bind, Except.bind] at h
  | ok req =>
    refine ⟨req, rfl, ?_⟩
    by_contra hreason
    simp [hreq, bind, Except.bind, hreason] at h

/-- **Revocation is always authorized.**  For every message, sender and CA, the handler has
at most one certificate revoked: the one a single, well formed revocation request names, and
only if the sender holds it or the CA has approved.  Behind the lightweight policy the sender
was moreover not authenticated by a MAC, and the request gave a reason. -/
theorem revocation_authorized (cr : Crypto) (ca : CAInterfaces) (ctx : Ctx) (msg : PKIMessage)
    (sender : SenderIdentity) :
    (∀ tr q, Prog.Steps (caHandler cr ca ctx msg sender) tr q → Revoking cr ca msg sender tr) ∧
    ∀ tr q, Prog.Steps (lightweightPolicy cr (caHandler cr ca) ctx msg sender) tr q →
      Revoking cr ca msg sender tr ∧
      ∀ req s r, ⟨.revokeCertificate req s, r⟩ ∈ tr →
        sender.macVerified = false ∧ req.hasReason = true := by
  refine ⟨fun tr q hs => revoking_of_obeys caHandler_obeys hs, fun tr q hs => ?_⟩
  unfold lightweightPolicy policy at hs
  split at hs
  · obtain ⟨rfl, -⟩ := Prog.steps_ret_iff.mp hs
    exact ⟨⟨Nat.zero_le _, fun h => by simp at h⟩, fun _ _ _ h => (List.not_mem_nil h).elim⟩
  · next hcheck =>
    refine ⟨revoking_of_obeys caHandler_obeys hs, fun req s r hmem => ?_⟩
    obtain ⟨pre, post, rfl⟩ := List.append_of_mem hmem
    obtain ⟨-, -, -, hreq, htype, -⟩ := caHandler_obeys.recorded hs
    obtain ⟨hmac, req', hreq', hreason⟩ := lightweightCheck_revocation htype hcheck
    obtain rfl : req = req' := Except.ok.inj (hreq.symm.trans hreq')
    exact ⟨hmac, hreason⟩

end

/-! ### A request of the holder -/

namespace Server

/-- The name of an issuer with one attribute. -/
def sampleIssuer : Bytes :=
  [0x30, 0x0c, 0x31, 0x0a, 0x30, 0x08, 0x06, 0x03, 0x55, 0x04, 0x03, 0x13, 0x01, 0x41]

/-- The extensions of a request with a reason. -/
def sampleReason : Bytes :=
  [0x30, 0x0c, 0x30, 0x0a, 0x06, 0x03, 0x55, 0x1d, 0x15, 0x04, 0x03, 0x0a, 0x01, 0x01]

/-- A request to revoke the certificate with the number five, with a reason. -/
def sampleHolderRevocation : PKIMessage :=
  sampleReceived (.rr [{ certDetails := { serialNumber := some 5, issuer := sampleIssuer }
                         crlEntryDetails := sampleReason }]) []

/-- The holder of that certificate. -/
def sampleHolder : SenderIdentity :=
  { certificate :=
      some { sampleCertificate with serialNumber := some 5, rawIssuer := sampleIssuer } }

/-- The holder has the certificate revoked by a CA that authorizes nobody else. -/
theorem revocation_authorized_holder :
    ∃ tr q req r,
      Prog.Steps (lightweightPolicy .sample (caHandler .sample ⟨false, false, true, false⟩) {}
        sampleHolderRevocation sampleHolder) tr q ∧
      ⟨.revokeCertificate req sampleHolder, r⟩ ∈ tr ∧
      Revoking .sample ⟨false, false, true, false⟩ sampleHolderRevocation sampleHolder tr ∧
      req.hasReason = true := by
  have hplay : (Prog.play (fun o => (exec o (sampleOracle 1) {}).map Prod.fst)
      (lightweightPolicy .sample (caHandler .sample ⟨false, false, true, false⟩) {}
        sampleHolderRevocation sampleHolder)).any (fun r => r.1.any isRevocation) = true := by
    decide +kernel
  obtain ⟨⟨tr, a⟩, hrun, hany⟩ := (Option.any_eq_true _ _).mp hplay
  obtain ⟨⟨o, r⟩, hmem, hrevocation⟩ := List.any_eq_true.mp hany
  have hsteps := Prog.steps_of_play hrun
  obtain ⟨hrevoking, hlightweight⟩ := (revocation_authorized .sample ⟨false, false, true, false⟩ {}
    sampleHolderRevocation sampleHolder).2 tr _ hsteps
  cases o with
  | revokeCertificate req s =>
    obtain ⟨pre, post, hsplit⟩ := List.append_of_mem hmem
    obtain ⟨rfl, -, -⟩ := hrevoking.authorized hsplit
    exact ⟨tr, _, req, r, hsteps, hmem, hrevoking, (hlightweight req _ r hmem).2⟩
  | _ => cases hrevocation

/-- A request that names a subject as well, the empty one. -/
def emptySubjectRevocation : PKIMessage where
  header := { pvno := PVNO2 }
  body := .received BodyTypeRR (element BodyTypeRR (element tagSequence (element tagSequence
    (element tagSequence (element (context 1) [5] ++ element (contextConstructed 3) sampleIssuer ++
      element (contextConstructed 5) (element tagSequence [])) ++ sampleReason))))

/-- The holder of the certificate with the number five, whose subject is CN=Bob. -/
def sampleBob : Certificate :=
  { sampleCertificate with
    serialNumber := some 5
    rawIssuer := sampleIssuer
    rawSubject := [0x30, 0x0e, 0x31, 0x0c, 0x30, 0x0a, 0x06, 0x03, 0x55, 0x04, 0x03, 0x0c, 0x03,
      0x42, 0x6f, 0x62] }

/-- The event is a revocation without a subject to compare. -/
def revokesAnySubject (e : ServerEvent) : Bool :=
  match e.op with
  | .revokeCertificate req _ => req.subject = []
  | _ => false

/-- **An empty subject matches every certificate**: the one of CN=Bob is revoked for a request
whose template has another subject, and nobody has authorized it. -/
theorem revocation_subject_skipped :
    unmarshalRDNSequence sampleBob.rawSubject =
      some ([[⟨[2, 5, 4, 3], .string (str "Bob")⟩]], []) ∧
    ∃ tr q req r,
      Prog.Steps (caHandler .sample ⟨false, false, true, false⟩ {} emptySubjectRevocation
        { certificate := some sampleBob }) tr q ∧
      ⟨.revokeCertificate req { certificate := some sampleBob }, r⟩ ∈ tr ∧ req.subject = [] := by
  refine ⟨by decide +kernel, ?_⟩
  have hplay : (Prog.play (fun o => (exec o (sampleOracle 1) {}).map Prod.fst)
      (caHandler .sample ⟨false, false, true, false⟩ {} emptySubjectRevocation
        { certificate := some sampleBob })).any (fun r => r.1.any revokesAnySubject) = true := by
    decide +kernel
  obtain ⟨⟨tr, a⟩, hrun, hany⟩ := (Option.any_eq_true _ _).mp hplay
  obtain ⟨⟨o, r⟩, hmem, hrevocation⟩ := List.any_eq_true.mp hany
  have hsteps := Prog.steps_of_play hrun
  cases o with
  | revokeCertificate req s =>
    obtain ⟨-, -, -, rfl⟩ := caHandler_only.mem_steps hsteps hmem
    exact ⟨tr, _, req, r, hsteps, hmem, of_decide_eq_true hrevocation⟩
  | _ => cases hrevocation

end Server

end PkiCmp
