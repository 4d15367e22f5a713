/-
The failures that a client reports (`client/errors.go`, `client/transport.go`).

The caller of an operation asks with `HasFailure` why it has failed.  What it finds is the
status of the reply that has ended the operation, which the client has verified: an
`UnverifiedStatusError` is no `*PKIStatusError`, and what the CA answers to a rejection is
only part of a text.

* `PlainAnswer`: what the outside reports holds no status;
* `Client.CarriesStatus`: the status in a reply;
* `Client.Blames`: a status in an error is the one of the last reply, which was accepted;
* `Client.failure_authenticated`: **the failures of an operation are authenticated.**
-/
import PkiCmp.Client.Rounds
import PkiCmp.Plain

namespace PkiCmp

open Der Interact

/-! ### Errors of the outside -/

/-- The failures that the outside reports hold no `*PKIStatusError`: those of the HTTP client, of
the key and of the context. -/
def PlainAnswer : Event ClientEffect ClientEffect.Res → Prop
  | ⟨.post _, .error f⟩ => f.error.Plain
  | ⟨.seal .., .error e⟩ => e.Plain
  | ⟨.wait _, some e⟩ => e.Plain
  | _ => True

/-- The key of an operation fails without a `*PKIStatusError`. -/
def Operation.Plain : Operation → Prop
  | .ir key | .cr key | .kur key => key.Plain
  | .p10cr _ | .rr .. => True

/-! ### Chains of errors -/

@[simp] lemma asStatusError_addStatus (code : ℕ) (e : GoError) :
    (addStatus code e).asStatusError = e.asStatusError := by
  unfold addStatus
  split_ifs <;> rfl

@[simp] lemma asStatusError_withUnverifiedStatus (m : PKIMessage) (e : GoError) :
    (withUnverifiedStatus m e).asStatusError = e.asStatusError := by
  unfold withUnverifiedStatus
  split_ifs
  · rfl
  · split <;> rfl

lemma GoError.Plain.addStatus {e : GoError} (h : e.Plain) (code : ℕ) :
    (PkiCmp.addStatus code e).Plain :=
  (asStatusError_addStatus code e).trans h

lemma wrapError_eq_some {code : ℕ} {err : Option GoError} {e : GoError}
    (h : wrapError code err = some e) : e.Plain ∨ ∃ e', err = some e' ∧ e = addStatus code e' := by
  cases err with
  | some e' =>
    cases h
    exact .inr ⟨e', rfl, rfl⟩
  | none =>
    unfold wrapError at h
    split_ifs at h
    cases h
    exact .inl rfl

namespace Client

variable {c : Client}

/-! ### Plain errors of the client -/

instance (http : HTTPReply) : Plain (c.receive http) := by
  unfold receive newHTTPStatusError
  infer_instance

variable {e : GoError}

lemma parse_plain {raw : RawHTTPResponse} {op : String} (h : raw.parse op = .error e) :
    e.Plain := by
  unfold RawHTTPResponse.parse at h
  split at h
  · next e' he =>
    cases h
    have hplain : (GoError.clientWrapped (str op) e').Plain := Plain.plain e' he
    exact hplain.addStatus _
  · cases h

lemma checkVersion_plain {reply : CmpHTTPResponse} (h : checkVersion reply = some e) : e.Plain := by
  unfold checkVersion at h
  dsimp only at h
  split_ifs at h
  cases h
  exact GoError.Plain.addStatus (e := .client _) rfl _

instance (m : PKIMessage) (expected : BodyType) : Plain (extractCertRespAndRep m expected) := by
  unfold extractCertRespAndRep certRep
  refine @Plain.bind _ _ _ _ inferInstance fun rep => ?_
  split <;> infer_instance

instance (certResp : CertResponse) [c.crypto.Plain] : Plain (c.extractCertificate certResp) := by
  unfold extractCertificate
  split
  · infer_instance
  · split <;> infer_instance

lemma answeringCertReqIDs_plain {body : PKIBody} (h : answeringCertReqIDs body = .error e) :
    e.Plain := by
  unfold answeringCertReqIDs at h
  split_ifs at h
  split at h
  · next e' he =>
    cases h
    exact (Plain.plain e' he : e'.Plain)
  · cases h

lemma checkIssuedKey_plain {cert : Certificate} {key : Option PublicKey}
    (h : c.checkIssuedKey cert key = some e) : e.Plain := by
  unfold checkIssuedKey at h
  cases key with
  | none => cases h
  | some key =>
    dsimp only at h
    split at h
    · cases h
      rfl
    · split_ifs at h
      · cases h
        rfl
      · cases h
        rfl

lemma verdict_plain [c.crypto.Plain] {cert : Certificate} {certResp : CertResponse} {ids : List ℤ}
    {key : Option PublicKey} {pool : Option (List Certificate)} {candidates : List Certificate}
    {now : Time} {text : String}
    (h : c.verdict cert certResp ids key pool candidates now = some (text, e)) : e.Plain := by
  unfold verdict checkCertReqID at h
  split_ifs at h with hid
  · cases pool with
    | none =>
      obtain ⟨e', he, heq⟩ := Option.map_eq_some_iff.mp h
      cases heq
      exact checkIssuedKey_plain he
    | some roots =>
      rw [Option.bind_some] at h
      cases hpath : c.crypto.verifyPath cert roots candidates now with
      | ok u =>
        rw [hpath] at h
        obtain ⟨e', he, heq⟩ := Option.map_eq_some_iff.mp h
        cases heq
        exact checkIssuedKey_plain he
      | error e' =>
        rw [hpath] at h
        cases h
        exact (Plain.plain e' hpath : e'.Plain)
  · cases h
    rfl

instance (pubDER : Bytes) (opts : RequestOptions) : Plain (crmfTemplate pubDER opts) := by
  unfold crmfTemplate
  dsimp only
  split_ifs
  · infer_instance
  · split
    · next e he => exact .error (Plain.plain e he : e.Plain)
    · infer_instance

instance (expected : BodyType) (creds : Option Credentials) (opts : RequestOptions) :
    Plain (crmfControls expected creds opts) := by
  unfold crmfControls
  dsimp only
  split
  · infer_instance
  · split
    · next e he => exact .error (Plain.plain e he : e.Plain)
    · infer_instance

instance (key : Signer) [key.Plain] [c.crypto.Plain] (creds : Option Credentials)
    (expected : BodyType) (opts : RequestOptions) : Plain (c.crmfBody key creds expected opts) := by
  unfold crmfBody
  split
  · next e he => exact .error (Plain.plain e he : e.Plain)
  · refine @Plain.bind _ _ _ _ inferInstance fun template => ?_
    refine @Plain.bind _ _ _ _ inferInstance fun controls => ?_
    dsimp only
    split
    · next e he => exact .error (Plain.plain e he : e.Plain)
    · infer_instance

/-! ### Plain errors of the steps -/

section

variable {creds : Credentials} {tr : ClientHistory} {e : GoError}

/-- A message that cannot be protected. -/
lemma protect_plain {m : PKIMessage} (hs : Prog.Steps (c.protect creds m) tr (.ret (.error e)))
    (hout : ∀ a ∈ tr, PlainAnswer a) : e.Plain := by
  obtain ⟨tr1, tr2, salt, rfl, -, hk⟩ := hs.of_bind
  split at hk
  · next m' e' he =>
    obtain ⟨-, ⟨⟩⟩ := hk.of_ret
    exact Plain.plain e (congrArg Prod.snd he)
  · obtain ⟨a, tr, rfl, hend⟩ := hk.of_call
    cases a with
    | error e' =>
      obtain ⟨rfl, ⟨⟩⟩ := hend.of_ret
      exact hout _ (List.mem_append_right _ List.mem_cons_self)
    | ok p =>
      obtain ⟨-, ⟨⟩⟩ := hend.of_ret

/-- A message that is made and cannot be protected, whatever the operation. -/
lemma protected_plain {p : ClientProg PKIMessage} {f : PKIMessage → PKIMessage} {op : GoString}
    {k : Except GoError PKIMessage → ClientProg (Except GoError PKIMessage)}
    (hs : Prog.Steps (p >>= fun msg => c.protect creds (f msg) >>= k) tr (.ret (.error e)))
    (herr : ∀ e, k (.error e) = pure (.error (.clientWrapped op e)))
    (hok : ∀ m, k (.ok m) = pure (.ok m)) (hout : ∀ a ∈ tr, PlainAnswer a) : e.Plain := by
  obtain ⟨tr1, tr2, msg, rfl, -, hk⟩ := hs.of_bind
  obtain ⟨tr2, tr3, r, rfl, h2, hk⟩ := hk.of_bind
  cases r with
  | error e' =>
    rw [herr] at hk
    obtain ⟨rfl, ⟨⟩⟩ := hk.of_ret
    have hplain : e'.Plain := protect_plain h2 fun a ha =>
      hout a (List.mem_append_right _ (List.mem_append_left _ ha))
    exact hplain
  | ok m =>
    rw [hok] at hk
    obtain ⟨-, ⟨⟩⟩ := hk.of_ret

lemma newRequest_plain {body : PKIBody} {opts : RequestOptions}
    (hs : Prog.Steps (c.newRequest body creds opts) tr (.ret (.error e)))
    (hout : ∀ a ∈ tr, PlainAnswer a) : e.Plain :=
  protected_plain hs (fun _ => rfl) (fun _ => rfl) hout

lemma followUp_plain {op : String} {first : PKIHeader} {lastResp : PKIMessage} {body : PKIBody}
    (hs : Prog.Steps (c.followUp op first lastResp body creds) tr (.ret (.error e)))
    (hout : ∀ a ∈ tr, PlainAnswer a) : e.Plain :=
  protected_plain hs (fun _ => rfl) (fun _ => rfl) hout

/-- **An exchange that fails** reports no status, also not one that came with the reply. -/
lemma Exchanges.plain {x : Exchange} {msg : PKIMessage} {trustedCAs : Option (List Certificate)}
    {knownSigner : Option Certificate} {alternative : PKIMessage → Option Bytes}
    (h : c.Exchanges x msg creds trustedCAs knownSigner alternative tr (.error e))
    (hx : ∀ e : GoError, e.Plain → (x.sendError e).Plain) (hout : ∀ a ∈ tr, PlainAnswer a) :
    e.Plain := by
  cases h with
  | @unencoded e' h =>
    have hplain : e'.Plain := Plain.plain e' h
    exact hplain
  | unsent => exact hx _ (hout _ List.mem_cons_self)
  | refused _ h => exact hx _ (Plain.plain _ h)
  | unparsed _ _ h => exact parse_plain h
  | mismatched =>
    unfold GoError.Plain
    rw [asStatusError_addStatus, asStatusError_withUnverifiedStatus]
    rfl
  | @unverified _ _ _ _ _ e1 e2 _ _ _ hv he =>
    have hplain : e1.Plain := Plain.plain e1 hv
    unfold GoError.Plain
    rw [asStatusError_addStatus, asStatusError_withUnverifiedStatus]
    obtain rfl | ⟨hint, rfl⟩ := he
    · exact hplain
    · exact hplain

end

/-! ### The reply that ends an operation -/

/-- The status in a reply: of an error message, of the certificate response, or of the
revocation response. -/
inductive CarriesStatus (m : PKIMessage) : PKIStatusInfo → Prop
  | error {content : ErrorMsgContent} (h : m.body.getError = .ok content) :
      CarriesStatus m content.pkiStatusInfo
  | certificate {expected : BodyType} {certResp : CertResponse} {rep : CertRepMessage}
      (h : extractCertRespAndRep m expected = .ok (certResp, rep)) :
      CarriesStatus m certResp.status
  | revocation {rep : RevRepContent} {si : PKIStatusInfo} (h : m.body.getRP = .ok rep)
      (hsi : rep.status = [si]) : CarriesStatus m si

variable (c) in
/-- The history ends with an exchange whose reply is accepted. -/
def ClosedBy (tr : ClientHistory) (awaited : Awaited) (reply : CmpHTTPResponse) : Prop :=
  ∃ tr0 der http o now vr,
    tr = tr0 ++ [⟨.post der, .ok http⟩, ⟨.verifyTime awaited reply o, now⟩] ∧
    reply.message.verify c.crypto o now = .ok vr

variable (c) in
/-- The history ends with a reply that carries the status, and that repeats a nonce.  It is not
the answer to a rejection. -/
def Reported (tr : ClientHistory) (si : PKIStatusInfo) : Prop :=
  ∃ awaited reply, c.ClosedBy tr awaited reply ∧ awaited ≠ .pkiConf true ∧
    ¬ Bare awaited reply.message ∧ CarriesStatus reply.message si

variable (c) in
/-- A status in the error is the one that the history ends with. -/
def Blames (tr : ClientHistory) (e : GoError) : Prop :=
  ∀ se, e.asStatusError = some se → ∃ si, c.Reported tr si ∧ si.asError = some (.pkiStatus se)

section

variable {creds : Credentials} {tr tr0 : ClientHistory} {e : GoError} {reply : CmpHTTPResponse}

variable {awaited : Awaited}

lemma ClosedBy.append (h : c.ClosedBy tr awaited reply) :
    c.ClosedBy (tr0 ++ tr) awaited reply := by
  obtain ⟨tr1, der, http, o, now, vr, rfl, hv⟩ := h
  exact ⟨tr0 ++ tr1, der, http, o, now, vr, (List.append_assoc ..).symm, hv⟩

lemma Exchanges.closedBy {x : Exchange} {msg : PKIMessage} {trustedCAs : Option (List Certificate)}
    {knownSigner : Option Certificate} {alternative : PKIMessage → Option Bytes} {vr : VerifyResult}
    (h : c.Exchanges x msg creds trustedCAs knownSigner alternative tr (.ok (reply, vr))) :
    c.ClosedBy tr x.awaited reply := by
  cases h with
  | accepted _ _ _ hv => exact ⟨[], _, _, _, _, _, rfl, hv.verified⟩

lemma Blames.of_plain (h : e.Plain) : c.Blames tr e := fun se hse => by
  rw [h] at hse
  cases hse

lemma Blames.append (h : c.Blames tr e) : c.Blames (tr0 ++ tr) e := by
  intro se hse
  obtain ⟨si, ⟨awaited, reply, hacc, hrest⟩, hsi⟩ := h se hse
  exact ⟨si, ⟨awaited, reply, hacc.append, hrest⟩, hsi⟩

/-- The error that a status of the last reply is. -/
lemma Reported.blames {si : PKIStatusInfo} {code : ℕ} (h : c.Reported tr si)
    (he : si.asError = some e) : c.Blames tr (addStatus code e) := by
  intro se hse
  refine ⟨si, h, ?_⟩
  rw [asStatusError_addStatus] at hse
  unfold PKIStatusInfo.asError at he ⊢
  split_ifs at he ⊢
  · cases he
    cases hse
  · cases he
    cases hse
    rfl

lemma parseErrorResponse_eq_some {m : PKIMessage} (h : parseErrorResponse m = some e) :
    e.Plain ∨ ∃ si, CarriesStatus m si ∧ si.asError = some e := by
  unfold parseErrorResponse at h
  split at h
  · next e' he =>
    cases h
    have hplain : e'.Plain := Plain.plain e' he
    exact .inl hplain
  · next content hc => exact .inr ⟨_, .error hc, h⟩

/-- The status that `wrapError` is given. -/
lemma blames_of_wrapError {code : ℕ} {err : Option GoError} (hacc : c.ClosedBy tr awaited reply)
    (ha : awaited ≠ .pkiConf true) (hbare : ¬ Bare awaited reply.message)
    (herr : ∀ e, err = some e →
      e.Plain ∨ ∃ si, CarriesStatus reply.message si ∧ si.asError = some e)
    (h : wrapError code err = some e) : c.Blames tr e := by
  obtain hplain | ⟨e', rfl, rfl⟩ := wrapError_eq_some h
  · exact .of_plain hplain
  · obtain hplain | ⟨si, hsi, he⟩ := herr e' rfl
    · exact .of_plain (hplain.addStatus _)
    · exact Reported.blames ⟨awaited, reply, hacc, ha, hbare, hsi⟩ he

/-- A reply of another type than pollRep is no bare one. -/
lemma not_bare {m : PKIMessage} (h : m.body.type ≠ BodyTypePollRep) :
    ¬ Bare awaited m := fun hb => h hb.2.1

lemma not_bare_of_error {m : PKIMessage} (h : m.body.type = BodyTypeError) :
    ¬ Bare awaited m := not_bare (by rw [h]; decide)

end

/-! ### The courses -/

section

variable {creds : Credentials} {tr : ClientHistory} {e : GoError}

variable {reply : CmpHTTPResponse}

/-- What ends the polling with an error. -/
lemma pollReply_blames {vr : VerifyResult} {r : PollResult} (h : c.pollReply reply vr = .inl r)
    (hacc : c.ClosedBy tr .poll reply) (he : r.err = some e) :
    c.Blames tr e := by
  unfold pollReply at h
  split at h
  · next e' hv =>
    cases h
    cases he
    exact .of_plain (checkVersion_plain hv)
  · split_ifs at h with herror hpoll
    · cases h
      exact blames_of_wrapError hacc nofun (not_bare_of_error herror)
        (fun _ => parseErrorResponse_eq_some) he
    · split at h
      · next e' hrep =>
        cases h
        cases he
        exact .of_plain (Plain.plain _ hrep)
      · cases h
    · cases h
      cases he

/-- A reply that ends the polling without an error is no pollRep. -/
lemma pollReply_reply {reply' : CmpHTTPResponse} {vr : VerifyResult} {r : PollResult}
    (h : c.pollReply reply vr = .inl r) (hr : r.reply = some reply') :
    reply' = reply ∧ reply.message.body.type ≠ BodyTypePollRep := by
  unfold pollReply at h
  split at h
  · cases h
    cases hr
  · split_ifs at h with herror hpoll
    · cases h
      cases hr
    · split at h
      · cases h
        cases hr
      · cases h
    · cases h
      cases hr
      exact ⟨rfl, hpoll⟩

variable {knownSigner : Option Certificate}

/-- **The polling loop**, by induction on the loop. -/
lemma Polls.blames {first : PKIHeader} {certReqID : ℤ} {left : ℕ} {lastResp : PKIMessage}
    {r : PollResult} (h : c.Polls first creds certReqID left lastResp knownSigner tr r)
    (hout : ∀ a ∈ tr, PlainAnswer a) (he : r.err = some e) : c.Blames tr e := by
  induction h with
  | exhausted =>
    cases he
    exact .of_plain rfl
  | cancelled =>
    cases he
    exact .of_plain (hout _ List.mem_cons_self)
  | unprotected h0 h1 =>
    cases he
    exact .of_plain (followUp_plain h1 fun a ha => hout a (List.mem_append_right _ ha))
  | failed h0 h1 h2 =>
    cases he
    refine .of_plain (h2.plain (fun _ h => h) fun a ha => ?_)
    exact hout a (List.mem_append_right _ (List.mem_append_right _ ha))
  | ended h0 h1 h2 h3 => exact .append (.append (pollReply_blames h3 h2.closedBy he))
  | again h0 h1 h2 h3 h4 ih =>
    refine .append (.append (.append (ih (fun a ha => hout a ?_) he)))
    exact List.mem_append_right _ (List.mem_append_right _ (List.mem_append_right _ ha))

/-- The reply that the polling ends with. -/
lemma Polls.closedBy {first : PKIHeader} {certReqID : ℤ} {left : ℕ} {lastResp : PKIMessage}
    {r : PollResult} (h : c.Polls first creds certReqID left lastResp knownSigner tr r)
    (hr : r.reply = some reply) :
    c.ClosedBy tr .poll reply ∧ reply.message.body.type ≠ BodyTypePollRep := by
  induction h with
  | exhausted | cancelled | unprotected | failed => cases hr
  | ended h0 h1 h2 h3 =>
    obtain ⟨rfl, htype⟩ := pollReply_reply h3 hr
    exact ⟨.append (.append h2.closedBy), htype⟩
  | again h0 h1 h2 h3 h4 ih =>
    obtain ⟨hacc, htype⟩ := ih hr
    exact ⟨.append (.append (.append hacc)), htype⟩

/-- A certConf that accepts the certificate. -/
lemma Confirms.blames {conf : CertConfirmation} {status : CertStatus} {err : Option GoError}
    (h : c.Confirms conf status tr err) (hstatus : status.statusInfo = none)
    (hout : ∀ a ∈ tr, PlainAnswer a) (he : err = some e) : c.Blames tr e := by
  cases h with
  | unprotected h =>
    cases he
    exact .of_plain (followUp_plain h hout)
  | failed h1 h2 =>
    cases he
    exact .of_plain (h2.plain (fun _ h => h) fun a ha => hout a (List.mem_append_right _ ha))
  | @answered _ _ _ reply _ h1 h2 =>
    rw [hstatus] at h2
    unfold certConfReply at he
    split_ifs at he with herror htype
    · exact .append (blames_of_wrapError h2.closedBy (by simp [certConfExchange])
        (not_bare_of_error herror) (fun _ => parseErrorResponse_eq_some) he)
    · cases he
      exact .of_plain (GoError.Plain.addStatus (e := .client _) rfl _)

/-- A rejection reports its reason: what the CA answers is only added as a text. -/
lemma Rejects.plain {conf : CertConfirmation} {cert : Certificate} {certReqID : ℤ} {text : String}
    {reason : GoError} (h : c.Rejects conf cert certReqID text reason tr e) (hr : reason.Plain) :
    e.Plain := by
  cases h with
  | unhashed => exact hr
  | sent _ _ he =>
    obtain rfl | ⟨note, rfl⟩ := he
    · exact hr
    · exact hr

variable {msg : PKIMessage}

/-- The end of an enrollment: the status of the reply is the error, or there is one of the
certConf. -/
lemma Concludes.blames [c.crypto.Plain] {ids : List ℤ} {requestedKey : Option PublicKey}
    {vr : Option VerifyResult} {certResp : CertResponse} {rep : CertRepMessage}
    {out : EnrollOutcome}
    (h : c.Concludes msg ids creds requestedKey reply vr knownSigner certResp rep tr out)
    (hout : ∀ a ∈ tr, PlainAnswer a) (he : out.map Prod.snd = some (some e)) :
    c.Blames tr e ∨ tr = [] ∧ wrapError reply.statusCode certResp.status.asError = some e := by
  cases h with
  | unsuccessful => exact .inr ⟨rfl, Option.some.inj he⟩
  | @unparsed e' _ h =>
    cases he
    have hplain : e'.Plain := Plain.plain e' h
    exact .inl (.of_plain (hplain.addStatus _))
  | refused _ _ _ _ hv h1 =>
    cases he
    exact .inl (.of_plain (h1.plain ((verdict_plain hv).addStatus _)))
  | @unhashed _ _ e' _ _ _ _ _ _ h =>
    cases he
    have hplain : (GoError.clientWrapped (str "compute certHash") e').Plain := Plain.plain e' h
    exact .inl (.of_plain (hplain.addStatus _))
  | @confirmed _ _ status err _ _ _ _ _ _ _ h h1 =>
    cases err with
    | none => cases he
    | some e' =>
      cases he
      refine .inl (.append (h1.blames (newCertStatus_statusInfo h) (fun a ha => ?_) rfl))
      exact hout a (List.mem_append_right _ ha)

/-- The reply that an enrollment is judged by. -/
lemma Replied.reported {ids : List ℤ} {expected : BodyType} {vr : VerifyResult}
    {certResp : CertResponse} {rep : CertRepMessage}
    (h : c.Replied msg ids expected creds tr reply vr knownSigner certResp rep) :
    c.Reported tr certResp.status := by
  cases h with
  | direct hopen hr =>
    exact ⟨.first, reply, hopen.1.closedBy, nofun, (fun hb => nomatch hb.1), .certificate hr⟩
  | polled hopen _ _ _ hpoll hr =>
    obtain ⟨hacc, htype⟩ := hpoll.closedBy rfl
    exact ⟨.poll, reply, .append hacc, nofun, not_bare htype, .certificate hr⟩

/-- An enrollment without a reply to judge it by. -/
lemma Ends.blames {ids : List ℤ} {expected : BodyType} {out : EnrollOutcome}
    (h : c.Ends msg ids expected creds tr out) (hout : ∀ a ∈ tr, PlainAnswer a)
    (he : out.map Prod.snd = some (some e)) : c.Blames tr e := by
  cases h with
  | failed h =>
    cases he
    exact .of_plain (h.plain (fun _ h => h) hout)
  | version _ hv =>
    cases he
    exact .of_plain (checkVersion_plain hv)
  | errored hopen ht =>
    exact blames_of_wrapError hopen.1.closedBy nofun (not_bare_of_error ht)
      (fun _ => parseErrorResponse_eq_some) (Option.some.inj he)
  | unexpected | unmatched =>
    cases he
    exact .of_plain (GoError.Plain.addStatus (e := .client _) rfl _)
  | @unextracted _ _ _ e' _ h =>
    cases he
    have hplain : e'.Plain := Plain.plain e' h
    exact .of_plain (hplain.addStatus _)
  | pollFailed _ _ _ _ hpoll herr =>
    cases he
    exact .append (hpoll.blames (fun a ha => hout a (List.mem_append_right _ ha)) herr)
  | panicked => cases he
  | @unextractedPolled _ _ _ _ _ _ _ _ e' _ _ _ _ _ h =>
    cases he
    have hplain : e'.Plain := Plain.plain e' h
    exact .of_plain (hplain.addStatus _)

/-- An enrollment. -/
lemma Enrolls.blames [c.crypto.Plain] {body : PKIBody} {expected : BodyType} {opts : RequestOptions}
    {key : Option PublicKey} {creds : Option Credentials} {out : EnrollOutcome}
    (h : c.Enrolls body expected opts key creds tr out) (hout : ∀ a ∈ tr, PlainAnswer a)
    (he : out.map Prod.snd = some (some e)) : c.Blames tr e := by
  cases h with
  | unread h =>
    cases he
    exact .of_plain (answeringCertReqIDs_plain h)
  | anonymous =>
    cases he
    exact .of_plain rfl
  | unprotected h =>
    cases he
    exact .of_plain (newRequest_plain h hout)
  | ended _ _ h1 => exact .append (h1.blames (fun a ha => hout a (List.mem_append_right _ ha)) he)
  | concluded _ _ h1 h2 =>
    have hout2 := fun a ha => hout a (List.mem_append_right _ (List.mem_append_right _ ha))
    obtain hblames | ⟨rfl, hwrap⟩ := h2.blames hout2 he
    · exact .append (.append hblames)
    · obtain ⟨awaited, reply', hacc, ha, hbare, hsi⟩ := h1.reported
      rw [List.append_nil]
      exact .append (blames_of_wrapError hacc ha hbare (fun e' he' => .inr ⟨_, hsi, he'⟩) hwrap)

/-- What `SendRR` makes of the last reply. -/
lemma revocationReply_blames {awaited : Awaited} (hacc : c.ClosedBy tr awaited reply)
    (ha : awaited ≠ .pkiConf true) (he : revocationReply reply = some e) : c.Blames tr e := by
  unfold revocationReply at he
  dsimp only at he
  split_ifs at he with htype
  · cases he
    exact .of_plain (GoError.Plain.addStatus (e := .client _) rfl _)
  · rw [not_not] at htype
    split at he
    · next e' hrep =>
      cases he
      have hplain : (GoError.clientWrapped (str "parse revocation response") e').Plain :=
        Plain.plain e' hrep
      exact .of_plain (hplain.addStatus _)
    · next rep hrep =>
      split at he
      · next si hsi =>
        obtain ⟨e', he', rfl⟩ := Option.map_eq_some_iff.mp he
        have hbare : ¬ Bare awaited reply.message := not_bare (by rw [htype]; decide)
        exact Reported.blames ⟨awaited, reply, hacc, ha, hbare, .revocation hrep hsi⟩ he'
      · cases he
        exact .of_plain (GoError.Plain.addStatus (e := .client _) rfl _)

/-- A revocation. -/
lemma Revokes.blames {out : Option (Option GoError)} (h : c.Revokes msg creds tr out)
    (hout : ∀ a ∈ tr, PlainAnswer a) (he : out = some (some e)) : c.Blames tr e := by
  cases h with
  | failed h =>
    cases he
    exact .of_plain (h.plain (fun _ h => h) hout)
  | version _ hv =>
    cases he
    exact .of_plain (checkVersion_plain hv)
  | answered hopen _ => exact revocationReply_blames hopen.1.closedBy nofun (Option.some.inj he)
  | errored hopen ht =>
    exact blames_of_wrapError hopen.1.closedBy nofun (not_bare_of_error ht)
      (fun _ => parseErrorResponse_eq_some) (Option.some.inj he)
  | pollFailed _ hpoll herr =>
    cases he
    exact .append (hpoll.blames (fun a ha => hout a (List.mem_append_right _ ha)) herr)
  | panicked => cases he
  | polled _ hpoll =>
    obtain ⟨hacc, -⟩ := hpoll.closedBy rfl
    exact .append (revocationReply_blames hacc nofun (Option.some.inj he))

/-- An operation that is given up. -/
lemma givesUp_plain [c.crypto.Plain] {op : Operation} {creds : Option Credentials}
    {opts : RequestOptions} (hop : op.Plain)
    (h : op.GivesUp c creds opts e) : e.Plain := by
  cases op with
  | ir key =>
    have : key.Plain := hop
    exact Plain.plain e h
  | cr key =>
    have : key.Plain := hop
    exact Plain.plain e h
  | kur key =>
    have : key.Plain := hop
    exact Plain.plain e h
  | p10cr csrDER =>
    obtain h | ⟨csr, h⟩ := h
    · exact Plain.plain e h
    · exact Plain.plain e h
  | rr cert reason =>
    obtain ⟨e', h, rfl⟩ := h
    have hplain : e'.Plain := Plain.plain e' h
    exact hplain

/-- **A status in the error of an operation** is the one that its last reply carries. -/
lemma blames_of_goes [c.crypto.Plain] {op : Operation} {creds : Option Credentials}
    {opts : RequestOptions} (hop : op.Plain)
    (h : op.Goes c creds opts tr (some (some e))) (hout : ∀ a ∈ tr, PlainAnswer a) :
    c.Blames tr e := by
  generalize hres : some (some e) = out at h
  cases h with
  | givenUp h =>
    cases hres
    exact .of_plain (givesUp_plain hop h)
  | enrolls h => exact h.blames hout hres.symm
  | anonymous =>
    cases hres
    exact .of_plain rfl
  | unprotected _ h =>
    cases hres
    exact .of_plain (newRequest_plain h hout)
  | revokes _ _ h1 =>
    exact .append (h1.blames (fun a ha => hout a (List.mem_append_right _ ha)) hres.symm)

end

/-! ### Authenticated failures -/

section

variable {tr : ClientHistory}

/-- The exchange that a history ends with is its last round. -/
lemma ClosedBy.rounds {awaited : Awaited} {reply : CmpHTTPResponse}
    (h : c.ClosedBy tr awaited reply) :
    ∃ rs r, c.rounds tr = rs ++ [r] ∧ r.accepted = some (awaited, reply) := by
  obtain ⟨tr0, der, http, o, now, vr, rfl, hv⟩ := h
  induction tr0 with
  | nil =>
    refine ⟨[], ⟨der, .ok http, some (awaited, reply)⟩, ?_, rfl⟩
    simp only [List.nil_append, Client.rounds, acceptedNext, hv]
  | cons a tr0 ih =>
    obtain ⟨rs, r, hrs, hr⟩ := ih
    obtain ⟨o, x⟩ := a
    cases o with
    | post der => exact ⟨_ :: rs, r, congrArg (_ :: ·) hrs, hr⟩
    | _ => exact ⟨rs, r, hrs, hr⟩

/-- The message of the last round. -/
lemma fits_last {k : Credentials} {first : PKIMessage} {msgs : List PKIMessage} {rs : List Round}
    {r : Round} (h : List.Forall₂ (c.Fits k first) msgs (rs ++ [r])) :
    ∃ ms m, msgs = ms ++ [m] ∧ c.Fits k first m r := by
  obtain ⟨m, _, hfit, hnil, hdrop⟩ :=
    List.forall₂_cons_right_iff.mp (List.forall₂_drop_append msgs rs [r] h)
  refine ⟨msgs.take rs.length, m, ?_, hfit⟩
  rw [List.forall₂_nil_right_iff.mp hnil] at hdrop
  rw [← hdrop, List.take_append_drop]

lemma failInfo_of_asError {si : PKIStatusInfo} {se : PKIStatusError}
    (h : si.asError = some (.pkiStatus se)) : si.failInfo = se.failInfo := by
  unfold PKIStatusInfo.asError at h
  split_ifs at h
  · cases h
  · cases h
    rfl

/-- **The failures that a caller sees are authenticated.**  When `HasFailure` finds a bit in the
error of an operation, then the last reply of the operation, whose protection was verified,
and which is of its transaction and repeats its nonce, carries the status with that bit; it is
not the answer to a certConf that rejects the certificate.

The errors of other libraries, of the keys and of the HTTP client are taken to hold no
`*PKIStatusError`. -/
theorem failure_authenticated [c.crypto.Plain] {op : Operation} {creds : Option Credentials}
    {opts : RequestOptions} {e : GoError} {se : PKIStatusError} (hop : op.Plain)
    (hs : Prog.Steps (op.run c creds opts) tr (.ret (some (some e))))
    (hout : ∀ a ∈ tr, PlainAnswer a) (hse : e.asStatusError = some se) :
    ∃ k msgs msg first rs r awaited reply si,
      creds = some k ∧ Sends tr (msgs ++ [msg]) ∧ (msgs ++ [msg]).head? = some first ∧
      c.rounds tr = rs ++ [r] ∧ r.accepted = some (awaited, reply) ∧ awaited ≠ .pkiConf true ∧
      (∃ pool signer now vr, reply.message.verify c.crypto
        (c.verifyOptions reply.message k pool signer) now = .ok vr) ∧
      Repeats first.header msg.header awaited reply.message ∧
      CarriesStatus reply.message si ∧ si.asError = some (.pkiStatus se) ∧
      ∀ bit, hasFailure e bit = true → si.failInfo &&& bit ≠ 0 := by
  have hgoes := Operation.run_steps hs
  obtain ⟨si, ⟨awaited, reply, hacc, ha, hbare, hsi⟩, hasError⟩ :=
    blames_of_goes hop hgoes hout se hse
  obtain ⟨rs, r, hrs, hr⟩ := hacc.rounds
  obtain hnil | ⟨k, first, hk, msgs, hp, hhead⟩ := begun_of_goes hgoes
  · rw [hnil] at hrs
    exact absurd hrs.symm (by simp)
  obtain ⟨ms, msg, rfl, hfit⟩ := fits_last (hrs ▸ hp.fits)
  refine ⟨k, ms, msg, first, rs, r, awaited, reply, si, hk, sends_of_fits hp.fits,
    hhead.resolve_left (by simp), hrs, hr, ha, hfit.verified awaited reply hr,
    (hfit.answers_iff awaited reply hr).mpr hbare, hsi, hasError, fun bit hbit => ?_⟩
  unfold hasFailure at hbit
  rw [hse] at hbit
  rw [failInfo_of_asError hasError]
  simpa using hbit

/-- A CA that refuses every request. -/
def refusingPeer : (o : ClientEffect) → Option o.Res
  | .random => some ⟨List.replicate 16 0, length_zeros⟩
  | .now => some 0
  | .seal s data => (s.compute .sample data).toOption.map .ok
  | .post _ =>
    (sampleReply (List.replicate 16 0) (.error { pkiStatusInfo :=
      { status := StatusRejection, failInfo := FailBadPOP } })).toOption.map fun body =>
        .ok ⟨200, [], some (str "application/pkixcmp"), body⟩
  | .wait _ => some none
  | .verifyTime .. => some 0

instance : pollingClient.crypto.Plain where
  parseCertificate _ := .ok _
  parseCertificateRequest _ := .ok _
  parsePKIXPublicKey _ := .ok _
  marshalPKIXPublicKey key := by
    cases key
    · exact .error rfl
    · exact .ok _
  verifyPath _ _ _ _ := .ok _

/-- An operation that is refused, and the failure that its caller sees. -/
theorem failure_authenticated_sample :
    ∃ tr e rs r awaited reply si,
      Prog.Steps ((Operation.p10cr [48, 0]).run pollingClient (some sampleCreds) {}) tr
        (.ret (some (some e))) ∧
      hasFailure e FailBadPOP = true ∧ pollingClient.rounds tr = rs ++ [r] ∧
      r.accepted = some (awaited, reply) ∧ CarriesStatus reply.message si ∧
      si.failInfo &&& FailBadPOP ≠ 0 := by
  obtain ⟨⟨tr, out⟩, hplay, hview⟩ : ∃ r, Prog.play refusingPeer
      ((Operation.p10cr [48, 0]).run pollingClient (some sampleCreds) {}) = some r ∧
      r.2 = some (some (.pkiStatus ⟨StatusRejection, [], FailBadPOP⟩)) :=
    Option.map_eq_some_iff.mp (by decide +kernel)
  obtain rfl : out = _ := hview
  have hsteps := Prog.steps_of_play hplay
  have hout : ∀ a ∈ tr, PlainAnswer a := by
    intro a ha
    have hanswer := Prog.answer_of_play hplay ha
    obtain ⟨o, x⟩ := a
    cases o with
    | post der =>
      simp only [refusingPeer] at hanswer
      obtain ⟨body, -, rfl⟩ := Option.map_eq_some_iff.mp hanswer
      trivial
    | «seal» s data =>
      obtain ⟨p, -, rfl⟩ := Option.map_eq_some_iff.mp hanswer
      trivial
    | wait d =>
      obtain rfl := Option.some.inj hanswer
      trivial
    | _ => trivial
  have hstatus : (GoError.pkiStatus ⟨StatusRejection, [], FailBadPOP⟩).asStatusError =
      some ⟨StatusRejection, [], FailBadPOP⟩ := by
    simp only [GoError.asStatusError]
  obtain ⟨_, _, _, _, rs, r, awaited, reply, si, -, -, -, hrs, hr, -, -, -, hsi, -, hbits⟩ :=
    failure_authenticated (show (Operation.p10cr [48, 0]).Plain from trivial) hsteps hout hstatus
  have hbit : hasFailure (.pkiStatus ⟨StatusRejection, [], FailBadPOP⟩) FailBadPOP = true := by
    decide +kernel
  exact ⟨tr, _, rs, r, awaited, reply, si, hsteps, hbit, hrs, hr, hsi, hbits _ hbit⟩

end

end Client

end PkiCmp
