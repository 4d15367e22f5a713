/-
Proof of possession before issuance (`server/certrequest.go`, `server/ca.go`,
`pkicmp/pop.go`).

The checks are lenient one by one: `VerifyPOPWithOptions` passes a request
without a proof and a proof that is no signature, and the body is decoded once
for the check and once for the template.  Together they leave only requests whose
key has signed the request.

* `Wrapper`, `Wrapper.wrap`: any handler around a handler, as a program that may
  call it as often as it likes and with any arguments (`policy_eq_wrap`);
* `Delegates`: a call of the handler behind a stack of wrappers;
* `Possession`: what is known of a message whose template reaches the CA;
* `possession_of_issued`: **the CA is asked only after the proof**, behind any
  stack of wrappers.
-/
import PkiCmp.Server.CA

namespace PkiCmp

open Der Interact

/-! ### Wrappers -/

/-- The operation does not ask the CA for a certificate. -/
def Effect.NotIssuing : Effect → Prop
  | .issueCertificate .. => False
  | _ => True

/-- The operations of a wrapper: those of its own, and calls of the handler it is
put around. -/
inductive WrapperOp where
  | own (o : Effect) (h : o.NotIssuing)
  | next (ctx : Ctx) (msg : PKIMessage) (sender : SenderIdentity)

/-- The answers to a wrapper. -/
abbrev WrapperOp.Res : WrapperOp → Type
  | .own o _ => o.Res
  | .next .. => HandlerResult

/-- A handler that is put around another one. -/
abbrev Wrapper := Ctx → PKIMessage → SenderIdentity → Prog WrapperOp WrapperOp.Res HandlerResult

/-- What an operation of a wrapper does around `next`. -/
def WrapperOp.around (next : Handler) : (o : WrapperOp) → ServerProg o.Res
  | .own o _ => perform o
  | .next ctx msg sender => next ctx msg sender

/-- The wrapper around a handler. -/
def Wrapper.wrap (w : Wrapper) (next : Handler) : Handler := fun ctx msg sender =>
  (w ctx msg sender).interp (WrapperOp.around next)

/-- A check in front of the handler. -/
def Wrapper.policy (check : Ctx → PKIMessage → SenderIdentity → Except GoError Unit) : Wrapper :=
  fun ctx msg sender =>
    match check ctx msg sender with
    | .error e => pure (.refuse e)
    | .ok _ => Prog.call (WrapperOp.next ctx msg sender)

/-- The policies of the server are wrappers. -/
lemma policy_eq_wrap (check : Ctx → PKIMessage → SenderIdentity → Except GoError Unit)
    (next : Handler) : policy check next = (Wrapper.policy check).wrap next := by
  funext ctx msg sender
  unfold policy Wrapper.wrap Wrapper.policy
  cases check ctx msg sender with
  | error e => rfl
  | ok _ => exact (bind_pure (next ctx msg sender)).symm

/-- **A call of the handler behind a stack of wrappers**, in a run of the whole with trace `tr`:
each wrapper has come to a call of the next one, with these arguments, by operations that were
performed before in the run.  The last trace is the part of the run inside the call. -/
inductive Delegates (h : Handler) : List Wrapper → Ctx → PKIMessage → SenderIdentity → History →
    Ctx → PKIMessage → SenderIdentity → History → Prop
  /-- without a wrapper the handler is called with the message that was given to it -/
  | here {ctx : Ctx} {msg : PKIMessage} {sender : SenderIdentity} {tr : History} :
      Delegates h [] ctx msg sender tr ctx msg sender tr
  | through {w : Wrapper} {ws : List Wrapper} {ctx ctx1 ctx' : Ctx} {msg msg1 msg' : PKIMessage}
      {sender sender1 sender' : SenderIdentity} {ops : List (Event WrapperOp WrapperOp.Res)}
      {k : HandlerResult → Prog WrapperOp WrapperOp.Res HandlerResult} {tr1 mid tr2 mid' : History}
      (hw : Prog.Steps (w ctx msg sender) ops (.op (.next ctx1 msg1 sender1) k))
      (hops : Prog.Expands (WrapperOp.around (ws.foldr Wrapper.wrap h)) ops tr1)
      (hnext : Delegates h ws ctx1 msg1 sender1 mid ctx' msg' sender' mid') :
      Delegates h (w :: ws) ctx msg sender (tr1 ++ (mid ++ tr2)) ctx' msg' sender' mid'

/-- Every issuance behind a stack of wrappers happens in a call of the handler
they are put around. -/
lemma mem_steps_wrap {h : Handler} {ws : List Wrapper} {ctx : Ctx} {msg : PKIMessage}
    {sender : SenderIdentity} {tr : History} {q : ServerProg HandlerResult}
    {e : ServerEvent} (hs : Prog.Steps (ws.foldr Wrapper.wrap h ctx msg sender) tr q)
    (he : e ∈ tr) (hissue : ¬ e.op.NotIssuing) :
    ∃ ctx' msg' sender' mid r, Delegates h ws ctx msg sender tr ctx' msg' sender' mid ∧
      Prog.Steps (h ctx' msg' sender') mid r ∧ e ∈ mid := by
  induction ws generalizing ctx msg sender tr q with
  | nil => exact ⟨ctx, msg, sender, tr, q, .here, hs, he⟩
  | cons w ws ih =>
    obtain ⟨ops, o, k, tr1, mid, tr2, r, rfl, hw, hops, hr, he⟩ := Prog.mem_steps_interp hs he
    cases o with
    | own o hown =>
      -- the only event of an operation of its own is that operation
      obtain ⟨rfl, -⟩ | ⟨x, tr', rfl, h'⟩ := Prog.steps_op_iff.mp hr
      · cases he
      · obtain ⟨rfl, -⟩ := Prog.steps_ret_iff.mp h'
        rw [List.mem_singleton] at he
        subst he
        exact absurd hown hissue
    | next ctx1 msg1 sender1 =>
      obtain ⟨c, m, s, mid', r', hreach, h'⟩ := ih hr he
      exact ⟨c, m, s, mid', r', .through hw hops hreach, h'⟩

/-- Behind policies only, the handler is called with the message that was given to them. -/
lemma Delegates.eq_of_policies {h : Handler} {ws : List Wrapper} {ctx ctx' : Ctx}
    {msg msg' : PKIMessage} {sender sender' : SenderIdentity} {tr mid : History}
    (hreach : Delegates h ws ctx msg sender tr ctx' msg' sender' mid)
    (hws : ∀ w ∈ ws, ∃ check, w = Wrapper.policy check) :
    ctx' = ctx ∧ msg' = msg ∧ sender' = sender := by
  induction hreach with
  | here => exact ⟨rfl, rfl, rfl⟩
  | @through w _ ctx ctx1 _ msg _ _ sender _ _ _ _ _ _ _ _ hw _ _ ih =>
    rw [List.forall_mem_cons] at hws
    obtain ⟨⟨check, rfl⟩, hws⟩ := hws
    unfold Wrapper.policy at hw
    cases hc : check ctx msg sender with
    | error e =>
      rw [hc] at hw
      obtain ⟨-, ⟨⟩⟩ := Prog.steps_ret_iff.mp hw
    | ok _ =>
      rw [hc] at hw
      obtain ⟨-, heq⟩ | ⟨x, ops', -, hend⟩ := Prog.steps_op_iff.mp hw
      · cases heq
        exact ih hws
      · obtain ⟨-, ⟨⟩⟩ := Prog.steps_ret_iff.mp hend

/-! ### Possession -/

/-- The request is the only one of the received element, `raw` is exactly the
CertRequest element in it, and a signature is the only proof it may come with. -/
def CertReqMsg.ReadFrom (m : CertReqMsg) (t : BodyType) (raw : Bytes) : Prop :=
  ∃ body msgs msg req rest rest' rest'',
    readASN1 t raw = some (body, rest) ∧
    readASN1 tagSequence body.content = some (msgs, rest') ∧
    readASN1 tagSequence msgs.content = some (msg, []) ∧
    readASN1 tagSequence msg.content = some (req, rest'') ∧
    CertRequest.unmarshal msg.content = .ok (m.certReq, rest'') ∧ m.certReq.raw = req.raw ∧
    ∀ p sig, m.popo = some p → p.signature = some sig → p = { signature := some sig }

/-- **Possession**: the message proves possession of the key of the template. -/
inductive Possession (cr : Crypto) (ctx : Ctx) (msg : PKIMessage) (template : Template) : Prop
  | crmf (reqMsg : CertReqMsg) (popo : ProofOfPossession) (sig : PopoSigningKey) (K : PublicKey)
      (type : msg.body.type = BodyTypeIR ∨ msg.body.type = BodyTypeCR ∨
        msg.body.type = BodyTypeKUR)
      (one : crmfMessages msg = some (.ok [reqMsg]))
      (received : ∀ t raw, msg.body = .received t raw → reqMsg.ReadFrom t raw)
      (proof : reqMsg.popo = some popo) (notRA : popo.raVerified = false)
      (signature : popo.signature = some sig)
      (present : reqMsg.certReq.certTemplate.publicKey ≠ [])
      (key : cr.parsePKIXPublicKey reqMsg.certReq.certTemplate.publicKey = .ok K)
      (verifies : sig.Verifies cr K reqMsg.certReq.raw ctx.sha1Signatures)
      (handed : template.publicKey = some K)
  | p10cr (csr : CertificateRequest) (K : PublicKey)
      (type : msg.body.type = BodyTypeP10CR)
      (decoded : msg.body.getP10CR cr = .ok csr)
      (verifies : cr.checkCertificateRequestSignature csr = .ok ())
      (key : cr.parsePKIXPublicKey csr.rawSubjectPublicKeyInfo = .ok K)
      (handed : template.publicKey = some K)

section

variable {cr : Crypto} {ctx : Ctx} {msg : PKIMessage}

/-- The request a body was parsed into. -/
lemma parseCRMFMsg_ok {p : ParsedCRMF} (h : parseCRMFMsg cr msg = .ok p) :
    ∃ m, crmfMessages msg = some (.ok [m]) ∧
      crmfPublicKey cr m.certReq.certTemplate = .ok p.publicKey ∧
      p.signaturePOP = m.popo.any fun p => p.signature.isSome := by
  unfold parseCRMFMsg at h
  split at h
  · cases h
  · cases h
  · cases h
  · cases h
  · next m hm =>
    obtain ⟨K, hK, h⟩ := Except.bind_eq_ok.mp h
    obtain ⟨exts, -, h⟩ := Except.bind_eq_ok.mp h
    cases h
    exact ⟨m, hm, hK, rfl⟩

/-- The key of a template was decoded from it. -/
lemma crmfPublicKey_ok {tmpl : CertTemplate} {K : PublicKey}
    (h : crmfPublicKey cr tmpl = .ok (some K)) :
    tmpl.publicKey ≠ [] ∧ cr.parsePKIXPublicKey tmpl.publicKey = .ok K := by
  unfold crmfPublicKey at h
  split_ifs at h with hempty
  · cases h
  · split at h
    · next K' hK =>
      cases h
      exact ⟨hempty, hK⟩
    · cases h

/-- The requests of a received body were read off its element. -/
lemma crmfMessages_received {t : BodyType} {raw : Bytes} {m : CertReqMsg}
    (hb : msg.body = .received t raw) (h : crmfMessages msg = some (.ok [m])) :
    m.ReadFrom t raw := by
  have key : ∀ {t' : BodyType} {name : String},
      (PKIBody.received t raw).decode t' name CertReqMessages.unmarshal = .ok [m] →
      m.ReadFrom t raw := by
    intro t' name hdec
    obtain ⟨_, body, rest, rest', ⟨⟩, hread, hm⟩ := PKIBody.decode_ok hdec
    obtain ⟨msgs, hmsgs, hm⟩ := CertReqMessages.unmarshal_singleton hm
    obtain ⟨e, rest'', he, hreq, hpopo⟩ := CertReqMsg.unmarshal_ok hm
    obtain ⟨req, hread', hraw⟩ := CertRequest.unmarshal_raw hreq
    refine ⟨body, msgs, e, req, rest, rest', rest'', hread, hmsgs, he, hread', hreq, hraw, ?_⟩
    intro p sig hp hsig
    obtain ⟨_, hp⟩ := hpopo p hp
    exact ProofOfPossession.eq_of_unmarshal hp hsig
  unfold crmfMessages at h
  rw [hb] at h
  split_ifs at h
  · exact key (Option.some.inj h)
  · exact key (Option.some.inj h)
  · exact key (Option.some.inj h)

/-- A certificate request that passes `enforceProofOfPossession` proves possession
of the key it is decoded with. -/
lemma requestTemplate_possession {template : Template} (ht : isCertRequest msg.body.type)
    (h : requestTemplate cr ctx msg = .ok template) : Possession cr ctx msg template := by
  obtain ⟨_, hpop, h⟩ := Except.bind_eq_ok.mp h
  obtain ⟨⟨subject, publicKey, extensions⟩, hparts, h⟩ := Except.bind_eq_ok.mp h
  obtain ⟨_, -, h⟩ := Except.bind_eq_ok.mp h
  have hkey : template.publicKey = publicKey := by
    split at h <;> cases h
    rfl
  unfold requestParts at hparts
  unfold enforceProofOfPossession at hpop
  split_ifs at hparts hpop with hp10 hcrmf
  · -- PKCS #10: the self-signature is the proof
    split at hparts
    · cases hparts
    · next csr hcsr =>
      simp only [hcsr] at hpop
      split at hparts
      · cases hparts
      · next K hK =>
        cases hparts
        split at hpop
        · next u hsig => exact .p10cr csr K hp10 hcsr hsig hK hkey
        · split_ifs at hpop
  · obtain ⟨crmf, hparse, hparts⟩ := Except.bind_eq_ok.mp hparts
    cases hparts
    obtain ⟨crmf', hparse', hpop⟩ := Except.bind_eq_ok.mp hpop
    obtain rfl : crmf = crmf' := Except.ok.inj (hparse.symm.trans hparse')
    obtain ⟨m, hm, hK, hsigPOP⟩ := parseCRMFMsg_ok hparse
    split at hpop
    · cases hpop
    · next hverify =>
      split_ifs at hpop with hnone hnosig
      obtain ⟨K, hsome⟩ := Option.ne_none_iff_exists'.mp hnone
      rw [hsome] at hK hkey
      obtain ⟨hpresent, hparsed⟩ := crmfPublicKey_ok hK
      simp only [Bool.not_eq_false, hsigPOP, Option.any_eq_true,
        Option.isSome_iff_exists, Bool.not_eq_true'] at hnosig
      obtain ⟨popo, hpopo, sig, hsig⟩ := hnosig
      simp only [verifyPOPMsg, hm] at hverify
      obtain ⟨K', hra, hK', hver⟩ := verifyPOPWithOptions_ok hverify hpopo hsig
      cases hK'.symm.trans hparsed
      exact .crmf m popo sig K hcrmf hm (fun t raw hb => crmfMessages_received hb hm) hpopo hra
        hsig hpresent hparsed hver hkey
  · simp only [isCertRequest, Bool.or_eq_true, decide_eq_true_eq] at ht
    tauto

end

/-- **The CA is asked only after the proof.**  Behind any wrappers, every request for a
certificate is made in a call of the CA's handler that the wrappers have come to, and the message
of that call proves possession of the key the CA is handed.  Behind policies, or with nothing in
front of the CA, it is the message that was received. -/
theorem possession_of_issued (cr : Crypto) (ca : CAInterfaces) (ws : List Wrapper) {ctx : Ctx}
    {msg : PKIMessage} {sender s : SenderIdentity} {tr : History} {q : ServerProg HandlerResult}
    {reqType : RequestType} {template : Template} {r : HandlerResult}
    (hs : Prog.Steps (ws.foldr Wrapper.wrap (caHandler cr ca) ctx msg sender) tr q)
    (he : ⟨.issueCertificate reqType template s, r⟩ ∈ tr) :
    ((∀ w ∈ ws, ∃ check, w = Wrapper.policy check) → Possession cr ctx msg template) ∧
    ∃ ctx' msg' sender' mid p,
      Delegates (caHandler cr ca) ws ctx msg sender tr ctx' msg' sender' mid ∧
      Prog.Steps (caHandler cr ca ctx' msg' sender') mid p ∧
      ⟨.issueCertificate reqType template s, r⟩ ∈ mid ∧ Possession cr ctx' msg' template := by
  obtain ⟨ctx', msg', sender', mid, p, hreach, hp, he'⟩ :=
    mem_steps_wrap hs he (by simp [Effect.NotIssuing])
  obtain ⟨ht, htemplate, -⟩ := caHandler_only.mem_steps hp he'
  have hpossession := requestTemplate_possession ht htemplate
  refine ⟨fun hws => ?_, ctx', msg', sender', mid, p, hreach, hp, he', hpossession⟩
  obtain ⟨rfl, rfl, -⟩ := hreach.eq_of_policies hws
  exact hpossession

/-! A run with one policy in front of the CA. -/

/-- A request for a key, signed with it. -/
def sampleCertRequest : Bytes :=
  element tagSequence (element tagInteger [0] ++
    element tagSequence (element (contextConstructed 6) [1]))

/-- The ir with that request, as received. -/
def samplePossession : PKIMessage where
  header := { pvno := PVNO2 }
  body := .received BodyTypeIR (element BodyTypeIR (element tagSequence (element tagSequence
    (sampleCertRequest ++ element (contextConstructed 1)
      (element tagSequence (element tagObjectIdentifier (oidOctets oidEd25519)) ++
        element tagBitString (0 :: sampleCertRequest))))))

/-- The template of that request. -/
def sampleTemplate : Template where
  subject := {}
  publicKey := some ⟨.ed25519, element tagSequence [1]⟩
  subjectKeyId := element tagSequence [1]
  extraExtensions := []

lemma requestTemplate_samplePossession :
    requestTemplate Crypto.sample {} samplePossession = .ok sampleTemplate := by
  decide +kernel

/-- The request is issued behind a policy that lets everything pass. -/
theorem possession_of_issued_sample :
    ∃ tr q, Prog.Steps ([Wrapper.policy fun _ _ _ => .ok ()].foldr Wrapper.wrap
        (caHandler .sample ⟨true, true, true, true⟩) {} samplePossession {}) tr q ∧
      ⟨.issueCertificate .ir sampleTemplate {}, {}⟩ ∈ tr ∧
      Possession .sample {} samplePossession sampleTemplate := by
  have hprog : caHandler .sample ⟨true, true, true, true⟩ {} samplePossession {} =
      perform (.issueCertificate .ir sampleTemplate {}) := by
    show caHandleCertRequest .sample {} samplePossession {} = _
    rw [caHandleCertRequest, requestTemplate_samplePossession]
    rfl
  have hs : Prog.Steps ([Wrapper.policy fun _ _ _ => .ok ()].foldr Wrapper.wrap
      (caHandler .sample ⟨true, true, true, true⟩) {} samplePossession {})
      [⟨.issueCertificate .ir sampleTemplate {}, {}⟩] (.ret {}) := by
    rw [List.foldr_cons, List.foldr_nil, ← policy_eq_wrap]
    show Prog.Steps (caHandler .sample ⟨true, true, true, true⟩ {} samplePossession {}) _ _
    rw [hprog]
    exact .cons (.refl _)
  have hmem := List.mem_singleton_self
    (⟨.issueCertificate .ir sampleTemplate {}, {}⟩ : ServerEvent)
  exact ⟨_, _, hs, hmem, (possession_of_issued .sample _ _ hs hmem).1
    (List.forall_mem_singleton.mpr ⟨_, rfl⟩)⟩

end PkiCmp
