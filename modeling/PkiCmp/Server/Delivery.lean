/-
What a certificate response delivers (`handleCertRequest`, `handlePollReq` and
`buildCertRepResponseForType` of `server/response.go`).

* `follows_of_call`: what becomes of the result of a handler call;
* `meaningful_iff`: every result of the handler without an error leads to a response,
  and an accepted one carries the handler's certificate, exactly when the handler
  returned a certificate or asked to wait, or the protection of the response has failed;
* `implicit_confirmation_iff`: the CA is told of an implicit confirmation for a
  certificate that is not delivered exactly when the protection of the response has failed.
-/
import Mathlib.Data.List.Infix
import PkiCmp.Server.Sequence

namespace PkiCmp

open Der Interact

namespace Server

/-- The request types that lead to a certificate. -/
def AsksForCertificate (q : PKIMessage) : Prop :=
  isCertRequest q.body.type ∨ q.body.type = BodyTypePollReq

/-! ### Calls of the handler -/

/-- The certReqId that the answers to a message use. -/
def answeredID (srv : Server) (q : PKIMessage) : ℤ :=
  if q.body.type = BodyTypePollReq then
    match q.body.getPollReq with
    | .ok ids => ids.head?.getD 0
    | .error _ => 0
  else srv.certReqIDFromRequest q

/-- What follows a call of the handler. -/
inductive Follows (srv : Server) (q : PKIMessage) (s : SenderIdentity) (credID : Bytes)
    (r : HandlerResult) : History → Option PKIMessage → Prop
  /-- the handler was asked for a certificate -/
  | asked {reqType : RequestType} {txn : Option ℕ} {tr : History} {resp : Option PKIMessage}
      (hq : AsksForCertificate q)
      (h : srv.Concludes q s credID reqType (srv.answeredID q) txn r tr resp) :
      Follows srv q s credID r tr resp
  /-- a confirmation or a revocation: an error of the handler is reported -/
  | told {body : PKIBody} {tr : History} {resp : PKIMessage} (hq : ¬ AsksForCertificate q)
      (hbody : ∀ err, r.err = some err → body = .error { pkiStatusInfo := errorToStatusInfo err } ∨
        body = .rp { status := [errorToStatusInfo err] })
      (ha : srv.Answers s tr q body resp) : Follows srv q s credID r tr (some resp)

section

variable {srv : Server} {msg q : PKIMessage} {s : SenderIdentity} {credID : Bytes} {tr : History}
variable {resp : Option PKIMessage} {ctx : Ctx} {r : HandlerResult}

lemma not_asksForCertificate {t : BodyType} (hq : q.body.type = t)
    (ht : ¬ (isCertRequest t ∨ t = BodyTypePollReq)) : ¬ AsksForCertificate q := by
  rwa [AsksForCertificate, hq]

lemma Concludes.noCall {reqType : RequestType} {certReqID : ℤ} {txn : Option ℕ}
    (h : srv.Concludes q s credID reqType certReqID txn r tr resp) : NoCall tr :=
  fun _ _ _ _ => h.no_call

/-- A message that was handed over leads to one call of the handler with it. -/
lemma Served.follows {q' : PKIMessage} {s' : SenderIdentity}
    (h : srv.Served q' s' credID tr resp) (hcall : ⟨.handleCMP ctx q s, r⟩ ∈ tr) :
    q = q' ∧ s = s' ∧ ∃ tr1 tr2, tr = tr1 ++ ⟨.handleCMP ctx q s, r⟩ :: tr2 ∧
      NoCall tr1 ∧ NoCall tr2 ∧ srv.Follows q s credID r tr2 resp := by
  cases h with
  | refused _ htr _ => exact absurd hcall (htr.no_call fun _ _ _ h => h)
  | acknowledged _ htr _ => exact absurd hcall htr.building_no_call
  | busy _ _ htr _ =>
    exact absurd hcall ((noCall_load _ _ _).append (noCall_building htr) _ _ _ _)
  | request hq _ hset =>
    have h0 := noCall_load .getPending (srv.tracker.makeKey credID q'.header.transactionID)
    obtain ⟨rfl, rfl, rfl, rfl⟩ := call_eq (h0 _) hset.noCall hcall
    have hpoll : q.body.type ≠ BodyTypePollReq := by
      intro hp
      rw [hp] at hq
      exact absurd hq (by decide)
    have hid : srv.answeredID q = srv.certReqIDFromRequest q := if_neg hpoll
    rw [← hid] at hset
    exact ⟨rfl, rfl, [_], _, rfl, h0 _, hset.noCall, .asked (.inl hq) hset⟩
  | @poll pollReq c _ _ _ _ hq hget _ _ h0 hset =>
    rw [← List.cons_append] at hcall ⊢
    have h0 := (noCall_load .getPending (srv.tracker.makeKey credID q'.header.transactionID)
      (some c)).append (noCall_building h0)
    obtain ⟨rfl, rfl, rfl, rfl⟩ := call_eq h0 hset.noCall hcall
    have hid : srv.answeredID q = pollReq.head?.getD 0 := by
      rw [answeredID, if_pos hq, hget]
    rw [← hid] at hset
    exact ⟨rfl, rfl, _, _, rfl, h0, hset.noCall, .asked (.inr hq) hset⟩
  | lost _ => exact absurd hcall (noCall_load _ _ _ _ _ _ _)
  | @confirm c r' tr1 tr2 body p hq _ _ h1 h2 ha =>
    have hentry : Within Effect.OnEntry tr1 := by
      split at h1
      · obtain ⟨rfl, -⟩ := h1
        exact .nil
      · exact .of_only (TrackerConfig.delete_only ..) h1.2
    have h0 := noCall_load .getIssued (srv.tracker.makeKey credID q'.header.transactionID) (some c)
    have hafter := (noCall_onEntry hentry).append (noCall_building h2)
    obtain ⟨rfl, rfl, rfl, rfl⟩ := call_eq h0 hafter hcall
    refine ⟨rfl, rfl, [_], _, rfl, h0, hafter, .told (not_asksForCertificate hq (by decide))
      (fun err herr => ?_) (ha.congr (by simp [not_sealed_of_onEntry hentry]))⟩
    rw [herr] at h1
    exact .inl h1.2
  | revoke hq h0 hbody ha h1 =>
    have hentry := Within.of_only (TrackerConfig.setCompleted_only ..) h1
    have hafter := (noCall_building h0).append (noCall_onEntry hentry)
    have hnil : ∀ ctx q s (r : HandlerResult), ⟨.handleCMP ctx q s, r⟩ ∉ ([] : History) :=
      fun _ _ _ _ => List.not_mem_nil
    obtain ⟨rfl, rfl, rfl, rfl⟩ := call_eq hnil hafter hcall
    refine ⟨rfl, rfl, [], _, rfl, hnil, hafter,
      .told (not_asksForCertificate hq (by decide)) (fun err herr => ?_)
        (ha.congr (by simp [not_sealed_of_onEntry hentry]))⟩
    obtain ⟨e, he, rfl⟩ | ⟨si, hsi, rfl⟩ := hbody
    · rw [Option.some.inj (he.symm.trans herr)]
      exact .inl rfl
    · rw [hsi err herr]
      exact .inr rfl

/-- **A handler call** belongs to the message that was received, or to the one inside
it, and all that comes after it follows from its result. -/
lemma follows_of_call (hh : srv.handler = .external) {tr1 tr2 : History}
    (hs : Prog.Steps (srv.processMessage msg) (tr1 ++ ⟨.handleCMP ctx q s, r⟩ :: tr2) (.ret resp)) :
    srv.Brings msg q ∧ ∃ credID, s.credentialID srv.crypto = .ok credID ∧
      srv.Follows q s credID r tr2 resp := by
  obtain ⟨q', s', credID, tr0, tr', hbrings, hcred, htr, h0, hserved⟩ :=
    served_of_mem hh hs (List.mem_append_right _ List.mem_cons_self) id
  have houter : NoCall tr0 := .of_within h0 fun _ _ _ h => h
  have hcall : ⟨.handleCMP ctx q s, r⟩ ∈ tr' :=
    (List.mem_append.mp (htr ▸ List.mem_append_right _ List.mem_cons_self)).resolve_left
      (houter _ _ _ _)
  obtain ⟨rfl, rfl, a, b, rfl, ha, hb, hfollows⟩ := hserved.follows hcall
  -- there is no other call, so that the trace is split in one way only
  rw [← List.append_assoc] at htr
  obtain ⟨-, -, rfl⟩ := (List.append_cons_inj_of_notMem ((houter.append ha) _ _ _ _)
    (hb _ _ _ _)).mp htr.symm
  exact ⟨hbrings, credID, hcred, hfollows⟩

end

/-! ### Meaningful responses -/

/-- There is a response, and where it reports a success it carries the certificate that
the handler returned. -/
def Meaningful (r : HandlerResult) (resp : Option PKIMessage) : Prop :=
  ∃ p, resp = some p ∧ ∀ cr ∈ p.body.certResponses, cr.status.status = StatusAccepted →
    ∃ cert, r.response.bind Response.certificate = some cert ∧
      cr.certifiedKeyPair = some cert.keyPair

variable {r : HandlerResult} {resp : Option PKIMessage}

lemma Meaningful.of_refusal (h : IsRefusal resp) :
    Meaningful r resp := by
  obtain ⟨p, c, rfl, hbody⟩ := h
  refine ⟨p, rfl, ?_⟩
  rw [hbody]
  exact List.forall_mem_nil _

/-- A response means what its body says, or it is the error about the protection. -/
lemma Meaningful.of_answers {srv : Server} {s : SenderIdentity} {tr : History} {q p : PKIMessage}
    {body : PKIBody} (ha : srv.Answers s tr q body p)
    (hbody : ∀ cr ∈ body.certResponses, cr.status.status = StatusAccepted →
      ∃ cert, r.response.bind Response.certificate = some cert ∧
        cr.certifiedKeyPair = some cert.keyPair) : Meaningful r (some p) := by
  obtain hb | ⟨p', rfl⟩ := ha.cases
  · exact ⟨p, rfl, hb ▸ hbody⟩
  · exact .of_refusal (isRefusal_protectionUnavailable p')

lemma Meaningful.of_agreed {built : PKIMessage} {ok : Bool} {tr : History}
    (hbuilt : Meaningful r (some built)) (h : Agreed ok built tr resp) :
    Meaningful r resp := by
  cases ok with
  | true =>
    obtain ⟨-, rfl⟩ := h
    exact hbuilt
  | false => exact .of_refusal h.2

/-- The body of an accepted request carries the certificate. -/
lemma carries_certRepBody {h : Response} {cert : Certificate} (hr : r.response = some h)
    (hc : h.certificate = some cert) (certReqID : ℤ) (caCerts : List Certificate)
    (reqType : RequestType) :
    ∀ cr ∈ (certRepBody certReqID { status := StatusAccepted } cert caCerts reqType).certResponses,
      cr.status.status = StatusAccepted →
      ∃ cert, r.response.bind Response.certificate = some cert ∧
        cr.certifiedKeyPair = some cert.keyPair := by
  rw [certResponses_certRepBody]
  intro cr hcr _
  rw [List.mem_singleton.mp hcr, hr]
  exact ⟨cert, hc, rfl⟩

/-- No certificate is promised by a body that asks to wait. -/
lemma not_accepted_of_asksToWait {certReqID : ℤ} {reqType : RequestType} {body : PKIBody}
    (h : AsksToWait certReqID reqType body) :
    ∀ cr ∈ body.certResponses, cr.status.status ≠ StatusAccepted := by
  obtain rfl | ⟨item, -, rfl⟩ := h
  · rw [certResponses_certRepBody]
    intro cr hcr
    rw [List.mem_singleton.mp hcr]
    show StatusWaiting ≠ StatusAccepted
    decide
  · exact List.forall_mem_nil _

/-- **Every result of the handler** without an error leads to a response that means
what it says, exactly when the handler returned a certificate or asked to wait, or
the response had to be protected and nothing was sealed after the call. -/
theorem meaningful_iff (srv : Server) (hh : srv.handler = .external) (msg : PKIMessage)
    (tr1 tr2 : History) (resp : Option PKIMessage) (ctx : Ctx) (q : PKIMessage)
    (s : SenderIdentity) (r : HandlerResult)
    (hs : Prog.Steps (srv.processMessage msg) (tr1 ++ ⟨.handleCMP ctx q s, r⟩ :: tr2) (.ret resp))
    (hq : AsksForCertificate q) (hr : r.err = none) :
    Meaningful r resp ↔ ∃ h, r.response = some h ∧
      (h.waiting.isSome ∨ h.certificate.isSome ∨ srv.Unprotected s tr2) := by
  obtain ⟨-, credID, -, hfollows⟩ := follows_of_call hh hs
  obtain ⟨-, hset⟩ | ⟨hn, -, -⟩ := hfollows
  swap
  · exact absurd hq hn
  cases hset with
  | refused herr => exact absurd (hr.symm.trans herr) nofun
  | dropped _ hnone =>
    refine ⟨fun h => ?_, fun h => ?_⟩
    · obtain ⟨p, hp, -⟩ := h
      cases hp
    · obtain ⟨h, hsome, -⟩ := h
      exact absurd (hnone.symm.trans hsome) nofun
  | @waiting h w _ _ _ _ _ _ _ _ _ hsome hw hbody _ ha _ h2 =>
    refine ⟨fun _ => ⟨h, hsome, .inl (by rw [hw]; rfl)⟩, fun _ => ?_⟩
    refine Meaningful.of_agreed (.of_answers ha fun cr hcr hacc => ?_) h2
    exact absurd hacc (not_accepted_of_asksToWait hbody cr hcr)
  | @bare h _ p _ hsome hw hc ha =>
    refine ⟨fun hm => ⟨h, hsome, .inr (.inr ?_)⟩, fun hcond => ?_⟩
    · obtain ⟨_, ⟨⟩, hm⟩ := hm
      by_contra hprotected
      rw [ha.answers.body hprotected, certResponses_certRepBody, List.forall_mem_singleton] at hm
      obtain ⟨cert, hcert, -⟩ := hm rfl
      rw [hsome, Option.bind_some, hc] at hcert
      cases hcert
    · obtain ⟨h', hsome', hcond⟩ := hcond
      obtain rfl : h = h' := Option.some.inj (hsome.symm.trans hsome')
      rw [hw, hc] at hcond
      obtain hcond | hcond | hfailed := hcond
      · cases hcond
      · cases hcond
      · obtain ⟨p', rfl⟩ := ha.answers.replaced hfailed
        exact .of_refusal (isRefusal_protectionUnavailable p')
  | @implicit h cert _ _ _ p _ hsome _ hc _ ha _ _ =>
    exact ⟨fun _ => ⟨h, hsome, .inr (.inl (by rw [hc]; rfl))⟩, fun _ =>
      .of_answers ha.answers (carries_certRepBody hsome hc _ _ _)⟩
  | @issued h cert _ _ _ built _ _ _ hsome _ hc _ ha _ h2 =>
    exact ⟨fun _ => ⟨h, hsome, .inr (.inl (by rw [hc]; rfl))⟩, fun _ =>
      .of_agreed (.of_answers ha.answers (carries_certRepBody hsome hc _ _ _)) h2⟩

/-! ### Implicit confirmation -/

/-- The response delivers the certificate as accepted, and grants implicit confirmation. -/
def Grants (cert : Certificate) (resp : Option PKIMessage) : Prop :=
  ∃ p, resp = some p ∧ implicitConfirmInfoValue ∈ p.header.generalInfo ∧
    ∃ cr ∈ p.body.certResponses, cr.status.status = StatusAccepted ∧
      cr.certifiedKeyPair = some cert.keyPair

lemma EmptyHanded.not_grants (h : EmptyHanded resp) (cert : Certificate) : ¬ Grants cert resp := by
  rintro ⟨p, hp, -, cr, hcr, -, hpair⟩
  rw [h p hp cr hcr] at hpair
  cases hpair

lemma emptyHanded_of_asksToWait {srv : Server} {s : SenderIdentity} {tr : History}
    {q p : PKIMessage} {certReqID : ℤ} {reqType : RequestType} {body : PKIBody}
    (hbody : AsksToWait certReqID reqType body) (ha : srv.Answers s tr q body p) :
    EmptyHanded (some p) := by
  refine ha.emptyHanded ?_
  obtain rfl | ⟨item, -, rfl⟩ := hbody
  · exact withoutCertificate_certRepBody _ _ _ _
  · exact List.forall_mem_nil _

section

variable {srv : Server} {msg q : PKIMessage} {s : SenderIdentity} {credID : Bytes} {tr : History}
variable {resp : Option PKIMessage} {r : HandlerResult} {cert : Certificate}

variable {certReqID : ℤ} {reqType : RequestType}

/-- A certificate that is delivered with a grant is granted, unless the protection of the
response has failed. -/
lemma CertAnswer.grants_iff {caCerts : List Certificate} {p : PKIMessage} (hgrants : srv.grants q)
    (ha : srv.CertAnswer s q certReqID { status := StatusAccepted } cert caCerts reqType tr p) :
    Grants cert (some p) ↔ ¬ srv.Unprotected s tr := by
  constructor
  · intro hg hfailed
    obtain ⟨p', rfl⟩ := ha.answers.replaced hfailed
    exact (isRefusal_protectionUnavailable p').emptyHanded.not_grants cert hg
  · intro hprotected
    refine ⟨p, rfl, ?_, ?_⟩
    · rw [ha.granted hgrants]
      exact List.mem_singleton_self _
    · rw [ha.answers.body hprotected, certResponses_certRepBody]
      exact ⟨_, List.mem_singleton_self _, rfl, rfl⟩

/-- Without a grant the response says nothing about implicit confirmation. -/
lemma CertAnswer.not_grants {si : PKIStatusInfo} {c : Option Certificate}
    {caCerts : List Certificate} {p : PKIMessage} (hgrants : ¬ srv.grants q)
    (ha : srv.CertAnswer s q certReqID si c caCerts reqType tr p) :
    ¬ Grants cert (some p) := by
  rintro ⟨_, ⟨⟩, hinfo, -⟩
  obtain h | ⟨-, -, now, -, h⟩ := ha.deadline hgrants
  · rw [h] at hinfo
    cases hinfo
  · rw [h, List.mem_singleton] at hinfo
    exact absurd (congrArg InfoTypeAndValue.infoType hinfo) (by
      show oidImplicitConfirm ≠ oidConfirmWaitTime
      decide)

/-- The operations that report no implicit confirmation. -/
def Unconfirming (o : Effect) : Prop :=
  ∀ cert ref txn, o ≠ .confirmCertificate cert .implicit ref txn

lemma unconfirming_of {P : Effect → Prop} (hP : ∀ cert ref txn,
      ¬ P (.confirmCertificate cert .implicit ref txn)) (h : Within P tr) :
    Within Unconfirming tr := fun e he cert ref txn heq => hP cert ref txn (heq ▸ h e he)

lemma unconfirming_building (h : Within Effect.Building tr) : Within Unconfirming tr :=
  unconfirming_of (fun _ _ _ h => h) h

lemma unconfirming_onEntry (h : Within Effect.OnEntry tr) : Within Unconfirming tr :=
  unconfirming_of (fun _ _ _ h => h) h

lemma Agreed.unconfirming {ok : Bool} {built : PKIMessage} (h : Agreed ok built tr resp) :
    Within Unconfirming tr := by
  cases ok with
  | true =>
    obtain ⟨rfl, -⟩ := h
    exact .nil
  | false => exact unconfirming_building h.1

/-- The report of an implicit confirmation follows the response that grants it. -/
lemma Concludes.confirmed {txn : Option ℕ}
    (h : srv.Concludes q s credID reqType certReqID txn r tr resp) {ref : Option IssueRef}
    {t : Option ℕ} {x : Option GoError}
    (hmem : ⟨.confirmCertificate cert .implicit ref t, x⟩ ∈ tr) :
    (∃ h, r.response = some h ∧ h.certificate = some cert) ∧
      (Grants cert resp ↔ ¬ srv.Unprotected s tr) := by
  have hno : ∀ {tr : History}, Within Unconfirming tr →
      ⟨.confirmCertificate cert .implicit ref t, x⟩ ∉ tr := fun h hmem => h _ hmem _ _ _ rfl
  cases h with
  | refused _ _ htr _ => exact absurd hmem (hno (unconfirming_building htr))
  | dropped _ _ => cases hmem
  | waiting _ _ _ _ h0 _ h1 h2 =>
    exact absurd hmem (hno ((unconfirming_building h0).append
      ((unconfirming_onEntry (.of_only (TrackerConfig.setPending_only ..) h1)).append
        h2.unconfirming)))
  | bare _ _ _ _ ha => exact absurd hmem (hno (unconfirming_building ha.within))
  | implicit _ hr _ hc hgrants ha h1 h2 =>
    have hentry := Within.of_only (TrackerConfig.setCompleted_only ..) h1
    obtain hmem | hmem := List.mem_append.mp hmem
    · exact absurd hmem (hno (unconfirming_building ha.within))
    obtain hmem | hmem := List.mem_append.mp hmem
    · exact absurd hmem (hno (unconfirming_onEntry hentry))
    split_ifs at h2
    · obtain ⟨y, rfl⟩ := h2
      cases List.mem_singleton.mp hmem
      refine ⟨⟨_, hr, hc⟩, ?_⟩
      rw [ha.grants_iff hgrants]
      simp [Unprotected, not_sealed_of_onEntry hentry, isSealed]
    · rw [h2] at hmem
      cases hmem
  | issued _ _ _ _ _ ha h1 h2 =>
    exact absurd hmem (hno ((unconfirming_building ha.within).append
      ((unconfirming_onEntry (.of_only (TrackerConfig.setIssued_only ..) h1)).append
        h2.unconfirming)))

/-- An implicit confirmation is reported after the call of the handler that returned the
certificate. -/
lemma Served.confirmed (h : srv.Served q s credID tr resp) {ref : Option IssueRef}
    {t : Option ℕ} {x : Option GoError}
    (hmem : ⟨.confirmCertificate cert .implicit ref t, x⟩ ∈ tr) :
    ∃ ctx r tr1 tr2, tr = tr1 ++ ⟨.handleCMP ctx q s, r⟩ :: tr2 ∧
      (∃ h, r.response = some h ∧ h.certificate = some cert) ∧
      (Grants cert resp ↔ ¬ srv.Unprotected s tr2) := by
  have hno : ∀ {tr : History}, Within Unconfirming tr →
      ⟨.confirmCertificate cert .implicit ref t, x⟩ ∉ tr := fun h hmem => h _ hmem _ _ _ rfl
  have hload : ∀ site key (c : Option Cell), Within Unconfirming [⟨.load site key, c⟩] :=
    fun _ _ _ => .cons (fun _ _ _ h => by cases h) .nil
  have hcall : ∀ ctx q s (r : HandlerResult), Within Unconfirming [⟨.handleCMP ctx q s, r⟩] :=
    fun _ _ _ _ => .cons (fun _ _ _ h => by cases h) .nil
  -- what comes before the end of a request or a poll
  have hend : ∀ {tr1 tr2 : History} {ctx : Ctx} {r : HandlerResult}, Within Unconfirming tr1 →
      ⟨.confirmCertificate cert .implicit ref t, x⟩ ∈ tr1 ++ ⟨.handleCMP ctx q s, r⟩ :: tr2 →
      ⟨.confirmCertificate cert .implicit ref t, x⟩ ∈ tr2 := by
    intro tr1 tr2 ctx r h1 hmem
    rw [List.append_cons] at hmem
    exact (List.mem_append.mp hmem).resolve_left (hno (h1.append (hcall _ _ _ _)))
  cases h with
  | refused _ htr _ => exact absurd hmem (hno (unconfirming_of (fun _ _ _ h => h) htr))
  | acknowledged _ htr _ => exact absurd hmem (hno (unconfirming_building htr))
  | busy _ _ htr _ => exact absurd hmem (hno ((hload _ _ _).append (unconfirming_building htr)))
  | request _ _ hset =>
    exact ⟨_, _, [_], _, rfl, hset.confirmed (hend (hload _ _ _) hmem)⟩
  | poll _ _ _ _ h0 hset =>
    rw [← List.cons_append] at hmem ⊢
    exact ⟨_, _, _, _, rfl,
      hset.confirmed (hend ((hload _ _ _).append (unconfirming_building h0)) hmem)⟩
  | lost _ => exact absurd hmem (hno (hload _ _ _))
  | @confirm _ _ tr1 _ _ _ _ _ _ h1 h2 _ =>
    have h1 : Within Unconfirming tr1 := by
      split at h1
      · obtain ⟨rfl, -⟩ := h1
        exact .nil
      · exact unconfirming_onEntry (.of_only (TrackerConfig.delete_only ..) h1.2)
    exact absurd hmem (hno ((hload _ _ _).append ((hcall _ _ _ _).append
      (h1.append (unconfirming_building h2)))))
  | revoke _ h0 _ _ h1 =>
    exact absurd hmem (hno ((hcall _ _ _ _).append ((unconfirming_building h0).append
      (unconfirming_onEntry (.of_only (TrackerConfig.setCompleted_only ..) h1)))))

/-- A grant completes the transaction. -/
lemma Conclusion.completed {c : Cell} {m m' : Tracker}
    (h : srv.Conclusion q s credID c reqType certReqID r m tr resp m') (hg : Grants cert resp) :
    ∃ c', m'.cell (srv.tracker.makeKey credID q.header.transactionID) = some c' ∧
      c'.entry.state = .completed := by
  cases h with
  | unchanged hresp => exact absurd hg (hresp.not_grants cert)
  | waiting _ _ _ hbody ha => exact absurd hg ((emptyHanded_of_asksToWait hbody ha).not_grants cert)
  | implicit => exact ⟨_, by rw [Tracker.cell_publish, if_pos rfl], rfl⟩
  | issued _ _ _ _ hgrants ha => exact absurd hg (ha.not_grants hgrants)

end

/-- **Implicit confirmation**: when the server reports a certificate as implicitly
confirmed, its response delivers the certificate with a grant, unless the response had to be
protected and nothing was sealed after the handler returned that certificate; and a response that
grants implicit confirmation leaves a completed transaction. -/
theorem implicit_confirmation_iff (srv : Server) (hh : srv.handler = .external) (msg : PKIMessage)
    (tr : History) (resp : Option PKIMessage)
    (hs : Prog.Steps (srv.processMessage msg) tr (.ret resp)) :
    (∀ cert ref txn x, ⟨.confirmCertificate cert .implicit ref txn, x⟩ ∈ tr →
      ∃ (ctx : Ctx) (q : PKIMessage) (s : SenderIdentity) (r : HandlerResult) (tr1 tr2 : History),
        tr = tr1 ++ ⟨.handleCMP ctx q s, r⟩ :: tr2 ∧
          (∃ h, r.response = some h ∧ h.certificate = some cert) ∧
          (Grants cert resp ↔ ¬ srv.Unprotected s tr2)) ∧
    ∀ m m' cert, Does exec m tr m' → Grants cert resp →
      ∃ ctx q s r credID c, ⟨.handleCMP ctx q s, r⟩ ∈ tr ∧
        s.credentialID srv.crypto = .ok credID ∧
        m'.cell (srv.tracker.makeKey credID q.header.transactionID) = some c ∧
        c.entry.state = .completed := by
  refine ⟨fun cert ref txn x hmem => ?_, fun m m' cert hd hg => ?_⟩
  · obtain ⟨q, s, credID, tr0, tr', -, -, rfl, h0, hserved⟩ := served_of_mem hh hs hmem id
    have hmem' := (List.mem_append.mp hmem).resolve_left fun hmem => h0 _ hmem
    obtain ⟨ctx, r, tr1, tr2, rfl, hiff⟩ := hserved.confirmed hmem'
    exact ⟨ctx, q, s, r, tr0 ++ tr1, tr2, (List.append_assoc ..).symm, hiff⟩
  have hcalled : ∀ {tr0 tr1 : History} {e : ServerEvent}, e ∈ tr0 ++ e :: tr1 :=
    List.mem_append_right _ List.mem_cons_self
  cases processed_of_runs hh ⟨hs, hd⟩ with
  | idle hresp _ => exact absurd hg (hresp.not_grants cert)
  | request _ hcred _ _ _ _ hset =>
    obtain ⟨c, hc, hstate⟩ := hset.completed hg
    exact ⟨_, _, _, _, _, c, hcalled, hcred, hc, hstate⟩
  | poll _ hcred _ _ _ _ _ _ _ hset =>
    obtain ⟨c, hc, hstate⟩ := hset.completed hg
    exact ⟨_, _, _, _, _, c, hcalled, hcred, hc, hstate⟩
  | @confirm _ _ _ _ r _ _ _ _ _ _ _ _ _ _ _ _ _ hset ha =>
    refine absurd hg ((ha.emptyHanded ?_).not_grants cert)
    split at hset
    · rw [hset.2]
      exact List.forall_mem_nil _
    · rw [hset.1]
      exact List.forall_mem_nil _
  | revoke _ _ _ _ _ _ hresp => exact absurd hg (hresp.not_grants cert)

/-! ### Concrete runs -/

/-- The event is a call of the handler with a certificate request or a poll that
returned the result. -/
def returnedTo (result : HandlerResult) : ServerEvent → Bool
  | ⟨.handleCMP _ q _, r⟩ =>
    r = result && (isCertRequest q.body.type || q.body.type = BodyTypePollReq)
  | _ => false

lemma exists_call_of_returnedTo {result : HandlerResult} {tr : History}
    (h : tr.any (returnedTo result)) :
    ∃ ctx q s, ⟨.handleCMP ctx q s, result⟩ ∈ tr ∧ AsksForCertificate q := by
  obtain ⟨⟨o, r⟩, he, hret⟩ := List.any_eq_true.mp h
  cases o with
  | handleCMP ctx q s =>
    obtain ⟨hr, hq⟩ := Bool.and_eq_true_iff.mp hret
    obtain rfl : r = result := of_decide_eq_true hr
    refine ⟨ctx, q, s, he, ?_⟩
    obtain hq | hq := Bool.or_eq_true_iff.mp hq
    · exact .inl hq
    · exact .inr (of_decide_eq_true hq)
  | _ => cases hret

/-- A request is processed by a server whose handler returns the result. -/
def deliver (result : HandlerResult) : Option (History × Option PKIMessage × Tracker) :=
  (sampleServer.processMessage sampleRequest).record exec
    (fun _ => { sampleOracle 1 with result }) 0 {}

lemma exists_steps_of_deliver (result : HandlerResult) (f : Option PKIMessage → Bool)
    (h : (deliver result).any (fun (tr, resp, _) => tr.any (returnedTo result) && f resp) = true) :
    ∃ tr resp ctx q s, Prog.Steps (sampleServer.processMessage sampleRequest) tr (.ret resp) ∧
      ⟨.handleCMP ctx q s, result⟩ ∈ tr ∧ AsksForCertificate q ∧ f resp = true := by
  obtain ⟨⟨tr, resp, m'⟩, hrun, h⟩ := (Option.any_eq_true _ _).mp h
  obtain ⟨hret, hf⟩ := Bool.and_eq_true_iff.mp h
  obtain ⟨ctx, q, s, hcall, hq⟩ := exists_call_of_returnedTo hret
  exact ⟨tr, resp, ctx, q, s, (Prog.runs_of_record hrun).steps, hcall, hq, hf⟩

/-- A nil response without an error leads to no answer at all, and a response with
neither a certificate nor a wait to a request that is accepted without a certificate. -/
theorem accepted_without_certificate :
    (∃ tr ctx q s, Prog.Steps (sampleServer.processMessage sampleRequest) tr (.ret none) ∧
      ⟨.handleCMP ctx q s, {}⟩ ∈ tr ∧ AsksForCertificate q) ∧
    ∃ tr p ctx q s, Prog.Steps (sampleServer.processMessage sampleRequest) tr (.ret (some p)) ∧
      ⟨.handleCMP ctx q s, { response := some {} }⟩ ∈ tr ∧ AsksForCertificate q ∧
      p.body.certResponses = [{ certReqID := -1, status := { status := StatusAccepted } }] := by
  constructor
  · obtain ⟨tr, resp, ctx, q, s, hs, hcall, hq, hresp⟩ :=
      exists_steps_of_deliver {} Option.isNone (by decide +kernel)
    rw [Option.isNone_iff_eq_none] at hresp
    exact ⟨tr, ctx, q, s, hresp ▸ hs, hcall, hq⟩
  · obtain ⟨tr, resp, ctx, q, s, hs, hcall, hq, hresp⟩ := exists_steps_of_deliver
      { response := some {} } (fun resp => resp.any fun p => p.body.certResponses =
        [{ certReqID := -1, status := { status := StatusAccepted } }]) (by decide +kernel)
    obtain ⟨p, rfl, hp⟩ := (Option.any_eq_true _ _).mp hresp
    exact ⟨tr, p, ctx, q, s, hs, hcall, hq, of_decide_eq_true hp⟩

/-- A handler that returns a certificate. -/
theorem accepted_with_certificate :
    ∃ tr resp, Prog.Steps (sampleServer.processMessage sampleRequest) tr (.ret resp) ∧
      Meaningful { response := some { certificate := some sampleCertificate } } resp := by
  obtain ⟨tr, resp, ctx, q, s, hs, hcall, hq, -⟩ := exists_steps_of_deliver
    { response := some { certificate := some sampleCertificate } } (fun _ => true)
    (by decide +kernel)
  obtain ⟨tr1, tr2, rfl⟩ := List.append_of_mem hcall
  exact ⟨_, resp, hs, (meaningful_iff sampleServer rfl sampleRequest tr1 tr2 resp ctx q s _ hs hq
    rfl).mpr ⟨_, rfl, .inr (.inl rfl)⟩⟩

/-- A server that grants implicit confirmation, and tells the CA. -/
def implicitServer : Server :=
  .new .sample 0 .external { secretLookup := true, implicitConfirm := true, confirmer := true }

/-- A request for a certificate that asks for implicit confirmation. -/
def implicitRequest : PKIMessage :=
  let m : PKIMessage :=
    { header := { pvno := PVNO2, sender := {}, recipient := {}, transactionID := [1],
                  generalInfo := [implicitConfirmInfoValue] }
      body := .p10cr { raw := [0x30, 0x00] } }
  match (Credentials.mac [1] {}).prepare .sample (List.replicate 16 0) m with
  | (m, .error _) => m
  | (m, .ok (s, data)) =>
    match (s.compute .sample data).bind fun p => { m with protection := p }.marshalBinary with
    | .error _ => m
    | .ok der => (parsePKIMessage der).toOption.getD m

/-- The request is processed; the protection of the response comes from outside. -/
def implicitly (sealed : Except GoError Bytes) : Option (History × Option PKIMessage × Tracker) :=
  (implicitServer.processMessage implicitRequest).record exec
    (fun _ => { sampleOracle 1 with sealed }) 0 {}

/-- The event reports the sample certificate as implicitly confirmed. -/
def confirmsSample : ServerEvent → Bool
  | ⟨.confirmCertificate cert .implicit _ _, _⟩ => cert = sampleCertificate
  | _ => false

lemma exists_runs_of_implicitly (sealed : Except GoError Bytes)
    (f : History → Option PKIMessage → Bool)
    (h : (implicitly sealed).any (fun (tr, resp, _) => tr.any confirmsSample && f tr resp) = true) :
    ∃ tr resp m' ref txn x,
      (implicitServer.processMessage implicitRequest).Runs exec {} tr resp m' ∧
      ⟨.confirmCertificate sampleCertificate .implicit ref txn, x⟩ ∈ tr ∧ f tr resp = true := by
  obtain ⟨⟨tr, resp, m'⟩, hrun, h⟩ := (Option.any_eq_true _ _).mp h
  rw [implicitly] at hrun
  obtain ⟨hany, hf⟩ := Bool.and_eq_true_iff.mp h
  obtain ⟨⟨o, x⟩, he, hconf⟩ := List.any_eq_true.mp hany
  cases o with
  | confirmCertificate cert status ref txn =>
    cases status with
    | implicit =>
      obtain rfl : cert = sampleCertificate := of_decide_eq_true hconf
      exact ⟨tr, resp, m', ref, txn, x, Prog.runs_of_record hrun, he, hf⟩
    | _ => cases hconf
  | _ => cases hconf

/-- Something is sealed after a call of the handler that comes first. -/
def sealedAfterCall : History → Bool
  | ⟨.handleCMP .., _⟩ :: tr => tr.any isSealed
  | _ => true

/-- When the response cannot be protected, the CA is told of an implicit confirmation
although the client gets an error. -/
theorem implicit_confirmation_undelivered :
    ∃ tr p m' ref txn x,
      (implicitServer.processMessage implicitRequest).Runs exec {} tr (some p) m' ∧
      ⟨.confirmCertificate sampleCertificate .implicit ref txn, x⟩ ∈ tr ∧
      p.body.certResponses = [] := by
  obtain ⟨tr, resp, m', ref, txn, x, hruns, hmem, hresp⟩ := exists_runs_of_implicitly
    (.error (.library (str "no device")))
    (fun _ resp => resp.any fun p => p.body.certResponses = []) (by decide +kernel)
  obtain ⟨p, rfl, hp⟩ := (Option.any_eq_true _ _).mp hresp
  exact ⟨tr, p, m', ref, txn, x, hruns, hmem, of_decide_eq_true hp⟩

/-- A response that is protected delivers the certificate with the grant. -/
theorem implicit_confirmation_delivered :
    ∃ tr resp m', (implicitServer.processMessage implicitRequest).Runs exec {} tr resp m' ∧
      Grants sampleCertificate resp := by
  obtain ⟨tr, resp, m', ref, txn, x, hruns, hmem, hsealed⟩ := exists_runs_of_implicitly (.ok [0])
    (fun tr _ => tr.tails.all sealedAfterCall) (by decide +kernel)
  obtain ⟨ctx, q, s, r, tr1, tr2, rfl, -, hiff⟩ := (implicit_confirmation_iff implicitServer rfl
    implicitRequest tr resp hruns.steps).1 _ ref txn x hmem
  have hafter := List.all_eq_true.mp hsealed _ ((List.mem_tails _ _).mpr
    (List.suffix_append _ _))
  exact ⟨_, resp, m', hruns, hiff.mpr fun hfailed => hfailed.2 (List.any_eq_true.mp hafter)⟩

end Server

end PkiCmp
