/-
What a client reports, against the replies it verified.

* `Hollow`: a verified reply with an error body whose status is a success;
* `PollSound`, `EnrollSound`, `RevocationSound`: an operation reports success
  only on a genuine success reply, and never reads through a missing one;
* `outcome_sound_iff`: every operation is sound exactly when it meets no hollow
  reply.
-/
import PkiCmp.Client.Course

namespace PkiCmp

open Der Interact

/-! ### Verified replies -/

/-- A reply whose protection verified, with what it is the answer to. -/
structure VerifiedReply where
  awaited : Awaited
  reply : CmpHTTPResponse

/-- Keep the replies that verify. -/
def replyMonitor (cr : Crypto) : Monitor ClientEffect ClientEffect.Res (List VerifiedReply) where
  allowed _ _ := True
  rely _ _ _ := True
  next
    | g, .verifyTime awaited reply o, now =>
      match reply.message.verify cr o now with
      | .ok _ => g ++ [⟨awaited, reply⟩]
      | .error _ => g
    | g, _, _ => g

/-- The verified replies of a run, in order. -/
def verifiedReplies (cr : Crypto) (tr : List (Event ClientEffect ClientEffect.Res)) :
    List VerifiedReply :=
  (replyMonitor cr).after [] tr

/-- What happens without the peer verifies nothing. -/
lemma after_local {cr : Crypto} {tr : ClientHistory} (h : ∀ a ∈ tr, a.op.Local)
    (g : List VerifiedReply) : (replyMonitor cr).after g tr = g := by
  induction tr with
  | nil => rfl
  | cons a tr ih =>
    obtain ⟨ha, htr⟩ := List.forall_mem_cons.mp h
    have hnext : (replyMonitor cr).next g a.op a.res = g := by
      obtain ⟨o, x⟩ := a
      cases o <;> first | rfl | exact ha.elim
    rw [Monitor.after_cons, hnext, ih htr]

lemma after_skip {cr : Crypto} {tr : ClientHistory} (h : ∀ a ∈ tr, a.op.Local)
    (g : List VerifiedReply) (tr' : ClientHistory) :
    (replyMonitor cr).after g (tr ++ tr') = (replyMonitor cr).after g tr' := by
  rw [Monitor.after_append, after_local h]

/-! ### Error bodies that are no errors -/

/-- An error body, received with HTTP status 200, whose status is a success. -/
def SaysSuccess (reply : CmpHTTPResponse) : Prop :=
  reply.statusCode = 200 ∧ ∃ content, reply.message.body.getError = .ok content ∧
    (content.pkiStatusInfo.status = StatusAccepted ∨
      content.pkiStatusInfo.status = StatusGrantedWithMods)

variable {b : PKIBody}

/-- Only an error body has an error content. -/
lemma PKIBody.type_of_getError {content : ErrorMsgContent} (h : b.getError = .ok content) :
    b.type = BodyTypeError := by
  by_contra hne
  cases b <;> first | exact hne rfl | simp [getError, decode, hne, notType] at h

lemma PKIBody.type_of_getRP {content : RevRepContent} (h : b.getRP = .ok content) :
    b.type = BodyTypeRP := by
  by_contra hne
  cases b <;> first | exact hne rfl | simp [getRP, decode, hne, notType] at h

lemma PKIBody.type_of_getIP {rep : CertRepMessage} (h : b.getIP = .ok rep) :
    b.type = BodyTypeIP := by
  by_contra hne
  cases b <;> first | exact hne rfl | simp [getIP, decode, hne, notType] at h

lemma PKIBody.type_of_getCP {rep : CertRepMessage} (h : b.getCP = .ok rep) :
    b.type = BodyTypeCP := by
  by_contra hne
  cases b <;> first | exact hne rfl | simp [getCP, decode, hne, notType] at h

lemma PKIBody.type_of_getKUP {rep : CertRepMessage} (h : b.getKUP = .ok rep) :
    b.type = BodyTypeKUP := by
  by_contra hne
  cases b <;> first | exact hne rfl | simp [getKUP, decode, hne, notType] at h

/-- `parseErrorResponse` is nil exactly for the statuses that are successes. -/
lemma parseErrorResponse_eq_none_iff (msg : PKIMessage) :
    parseErrorResponse msg = none ↔ ∃ content, msg.body.getError = .ok content ∧
      (content.pkiStatusInfo.status = StatusAccepted ∨
        content.pkiStatusInfo.status = StatusGrantedWithMods) := by
  unfold parseErrorResponse
  cases h : msg.body.getError with
  | error e => simp
  | ok content => simp [PKIStatusInfo.asError_eq_none_iff]

/-- An error body is reported as no error exactly when it says success. -/
lemma wrapError_eq_none_iff (reply : CmpHTTPResponse) :
    wrapError reply.statusCode (parseErrorResponse reply.message) = none ↔ SaysSuccess reply := by
  unfold SaysSuccess
  rw [← parseErrorResponse_eq_none_iff]
  cases parseErrorResponse reply.message <;> simp [wrapError]

/-- A verified reply that is taken for a success although it is an error body.  A
version that is not supported is refused before, and the answer to a rejecting
certConf is only noted. -/
structure Hollow (r : VerifiedReply) : Prop where
  saysSuccess : SaysSuccess r.reply
  version : r.awaited = .first ∨ r.awaited = .poll → Client.checkVersion r.reply = none
  kept : r.awaited ≠ .pkiConf true

/-- No verified reply is hollow. -/
def Genuine (g : List VerifiedReply) : Prop := ∀ r ∈ g, ¬ Hollow r

lemma genuine_nil : Genuine [] := List.forall_mem_nil _

lemma genuine_append_iff {g : List VerifiedReply} (hg : Genuine g) (r : VerifiedReply) :
    Genuine (g ++ [r]) ↔ ¬ Hollow r := by
  constructor
  · exact fun h => h r (by simp)
  · intro hr r' hr'
    rcases List.mem_append.mp hr' with h | h
    · exact hg r' h
    · rw [List.mem_singleton.mp h]
      exact hr

/-- A reply that is no error body is not hollow. -/
lemma not_hollow_of_type {r : VerifiedReply} (h : r.reply.message.body.type ≠ BodyTypeError) :
    ¬ Hollow r := by
  rintro ⟨⟨-, content, hc, -⟩, -, -⟩
  exact h (PKIBody.type_of_getError hc)

namespace Client

variable {c : Client} {tr : ClientHistory} {g : List VerifiedReply}

/-- Only a certificate response of the expected type carries a certificate. -/
lemma type_of_extractCertRespAndRep {m : PKIMessage} {expected : BodyType} {certResp : CertResponse}
    {rep : CertRepMessage} (h : extractCertRespAndRep m expected = .ok (certResp, rep)) :
    m.body.type = expected ∧ expected ≠ BodyTypeError ∧ expected ≠ BodyTypePollRep := by
  obtain ⟨rep', hrep, -⟩ := Except.bind_eq_ok.mp h
  unfold certRep at hrep
  split_ifs at hrep with hip hcp hkup
  · subst hip
    exact ⟨PKIBody.type_of_getIP hrep, by decide, by decide⟩
  · subst hcp
    exact ⟨PKIBody.type_of_getCP hrep, by decide, by decide⟩
  · subst hkup
    exact ⟨PKIBody.type_of_getKUP hrep, by decide, by decide⟩

/-! ### Exchanges -/

section

variable {x : Exchange} {msg : PKIMessage} {creds : Credentials}
variable {trustedCAs : Option (List Certificate)} {knownSigner : Option Certificate}
variable {alternative : PKIMessage → Option Bytes}

/-- An exchange that fails has verified nothing. -/
lemma Exchanges.after_error {e : GoError}
    (h : c.Exchanges x msg creds trustedCAs knownSigner alternative tr (.error e)) :
    (replyMonitor c.crypto).after g tr = g := by
  cases h with
  | unverified _ _ _ hv => simp [replyMonitor, hv]
  | _ => rfl

/-- An exchange that succeeds has verified its reply. -/
lemma Exchanges.after_ok {reply : CmpHTTPResponse} {vr : VerifyResult}
    (h : c.Exchanges x msg creds trustedCAs knownSigner alternative tr (.ok (reply, vr))) :
    (replyMonitor c.crypto).after g tr = g ++ [⟨x.awaited, reply⟩] := by
  cases h with
  | accepted _ _ _ hv => simp [replyMonitor, hv.verified]

end

/-! ### Polling -/

/-- `poll` returns without an error only with a reply. -/
def PollSound (r : PollResult) : Prop := r.err = none → r.reply.isSome

/-- How a poll ends: it is sound when its replies are genuine, and what it
returns is its last reply. -/
structure PollEnd (g : List VerifiedReply) (r : PollResult) : Prop where
  sound_iff : PollSound r ↔ Genuine g
  last : r.err = none → ∀ reply, r.reply = some reply → g.getLast? = some ⟨.poll, reply⟩

lemma PollEnd.of_err (hg : Genuine g) (e : GoError) :
    PollEnd g { err := some e } :=
  ⟨iff_of_true nofun hg, nofun⟩

/-- The end of the loop at a verified reply. -/
lemma pollReply_end (hg : Genuine g) (reply : CmpHTTPResponse) (vr : VerifyResult) :
    match c.pollReply reply vr with
    | .inl r => PollEnd (g ++ [⟨.poll, reply⟩]) r
    | .inr _ => Genuine (g ++ [⟨.poll, reply⟩]) := by
  have hgen : ¬ Hollow ⟨.poll, reply⟩ → Genuine (g ++ [⟨.poll, reply⟩]) :=
    (genuine_append_iff hg _).mpr
  unfold pollReply
  cases hv : checkVersion reply with
  | some e =>
    exact .of_err (hgen fun h => by simpa [hv] using h.version (.inr rfl)) e
  | none =>
    simp only
    split_ifs with herr hrep
    · -- an error body: no error and no reply when it says success
      refine ⟨?_, nofun⟩
      rw [genuine_append_iff hg]
      simp only [PollSound, wrapError_eq_none_iff, Option.isSome_none, Bool.false_eq_true,
        imp_false]
      exact not_congr ⟨fun h => ⟨h, fun _ => hv, nofun⟩, fun h => h.saysSuccess⟩
    · cases reply.message.body.getPollRep with
      | error e => exact .of_err (hgen (not_hollow_of_type herr)) e
      | ok items => exact hgen (not_hollow_of_type herr)
    · refine ⟨iff_of_true (fun _ => rfl) (hgen (not_hollow_of_type herr)), ?_⟩
      rintro - _ ⟨⟩
      simp

/-- **The polling loop**, from genuine replies, by induction on what it does. -/
lemma Polls.ends {first : PKIHeader} {creds : Credentials} {certReqID : ℤ} {left : ℕ}
    {lastResp : PKIMessage} {knownSigner : Option Certificate} {r : PollResult}
    (h : c.Polls first creds certReqID left lastResp knownSigner tr r) (hg : Genuine g) :
    PollEnd ((replyMonitor c.crypto).after g tr) r := by
  induction h generalizing g with
  | exhausted => exact .of_err hg _
  | cancelled => exact .of_err hg _
  | unprotected h0 h1 =>
    rw [after_skip h0, after_local (local_of_followUp h1)]
    exact .of_err hg _
  | failed h0 h1 h2 =>
    rw [after_skip h0, after_skip (local_of_followUp h1), h2.after_error]
    exact .of_err hg _
  | @ended _ _ _ _ _ _ _ reply vr _ h0 h1 h2 h3 =>
    rw [after_skip h0, after_skip (local_of_followUp h1), h2.after_ok]
    have hend := c.pollReply_end hg reply vr
    rwa [h3] at hend
  | @again _ _ _ _ _ _ _ _ reply vr _ _ h0 h1 h2 h3 _ ih =>
    rw [after_skip h0, after_skip (local_of_followUp h1), Monitor.after_append, h2.after_ok]
    have hend := c.pollReply_end hg reply vr
    rw [h3] at hend
    exact ih hend

/-! ### Confirmation -/

/-- The last verified reply is the pkiConf for an accepting certConf. -/
def Confirmed (g : List VerifiedReply) : Prop :=
  ∃ reply, g.getLast? = some ⟨.pkiConf false, reply⟩ ∧
    reply.message.body.type = BodyTypePKIConf

/-- A certConf that accepts is reported as confirmed only by a pkiConf, if the
reply is genuine; for one that rejects the reply does not matter. -/
structure ConfEnd (rejecting : Bool) (g : List VerifiedReply) (err : Option GoError) : Prop where
  genuine : rejecting = true → Genuine g
  sound_iff : rejecting = false → ((err = none → Confirmed g) ↔ Genuine g)

lemma ConfEnd.of_err {rejecting : Bool} (hg : Genuine g) (e : GoError) :
    ConfEnd rejecting g (some e) :=
  ⟨fun _ => hg, fun _ => iff_of_true nofun hg⟩

/-- The end of a certConf at a verified reply. -/
lemma certConfReply_end (hg : Genuine g) (rejecting : Bool) (reply : CmpHTTPResponse) :
    ConfEnd rejecting (g ++ [⟨.pkiConf rejecting, reply⟩]) (certConfReply reply) := by
  refine ⟨?_, ?_⟩
  · rintro rfl
    exact (genuine_append_iff hg _).mpr fun h => h.kept rfl
  · rintro rfl
    rw [genuine_append_iff hg]
    have hconf : Confirmed (g ++ [⟨.pkiConf false, reply⟩]) ↔
        reply.message.body.type = BodyTypePKIConf := by
      simp [Confirmed]
    rw [hconf]
    unfold certConfReply
    split_ifs with herr hconf
    · rw [wrapError_eq_none_iff]
      constructor
      · intro h hol
        have := h hol.saysSuccess
        rw [herr] at this
        exact absurd this (by decide)
      · exact fun hn hs => absurd ⟨hs, nofun, nofun⟩ hn
    · exact iff_of_true nofun (not_hollow_of_type herr)
    · exact iff_of_true (fun _ => not_not.mp hconf) (not_hollow_of_type herr)

/-- `sendCertConf`. -/
lemma Confirms.ends {conf : CertConfirmation} {status : CertStatus} {err : Option GoError}
    (h : c.Confirms conf status tr err) (hg : Genuine g) :
    ConfEnd status.statusInfo.isSome ((replyMonitor c.crypto).after g tr) err := by
  cases h with
  | unprotected h =>
    rw [after_local (local_of_followUp h)]
    exact .of_err hg _
  | failed h1 h2 =>
    rw [after_skip (local_of_followUp h1), h2.after_error]
    exact .of_err hg _
  | answered h1 h2 =>
    rw [after_skip (local_of_followUp h1), h2.after_ok]
    exact certConfReply_end hg _ _

/-- `rejectCertificate` leaves genuine replies. -/
lemma Rejects.genuine {conf : CertConfirmation} {cert : Certificate} {certReqID : ℤ} {text : String}
    {reason e : GoError} (h : c.Rejects conf cert certReqID text reason tr e) (hg : Genuine g) :
    Genuine ((replyMonitor c.crypto).after g tr) := by
  cases h with
  | unhashed => exact hg
  | sent _ h1 => exact (h1.ends hg).genuine rfl

/-! ### Enrollment -/

/-- `enroll` ends, and without an error only with a result and after a verified
pkiConf. -/
def EnrollSound (g : List VerifiedReply) (out : EnrollOutcome) : Prop :=
  ∃ res err, out = some (res, err) ∧ (err = none → res.isSome ∧ Confirmed g)

/-- How an enrollment ends. -/
def EnrollEnd (g : List VerifiedReply) (out : EnrollOutcome) : Prop :=
  EnrollSound g out ↔ Genuine g

lemma EnrollEnd.failed (hg : Genuine g) (e : GoError) :
    EnrollEnd g (.failed e) :=
  iff_of_true ⟨none, some e, rfl, nofun⟩ hg

/-- The end of `enroll`, from genuine replies. -/
lemma Concludes.ends {msg : PKIMessage} {ids : List ℤ} {creds : Credentials}
    {requestedKey : Option PublicKey} {reply : CmpHTTPResponse} {vr : Option VerifyResult}
    {knownSigner : Option Certificate} {certResp : CertResponse} {rep : CertRepMessage}
    {out : EnrollOutcome}
    (h : c.Concludes msg ids creds requestedKey reply vr knownSigner certResp rep tr out)
    (hg : Genuine g) : EnrollEnd ((replyMonitor c.crypto).after g tr) out := by
  cases h with
  | unsuccessful h =>
    -- the status is an error, so there is one
    refine iff_of_true ⟨none, _, rfl, fun hnone => ?_⟩ hg
    cases he : certResp.status.asError with
    | none => exact absurd ((PKIStatusInfo.asError_eq_none_iff _).mp he) h
    | some e => simp [he, wrapError] at hnone
  | unparsed => exact .failed hg _
  | refused _ _ h0 _ _ h1 =>
    rw [after_skip h0]
    exact .failed (h1.genuine hg) _
  | unhashed _ _ h0 =>
    rw [after_local h0]
    exact .failed hg _
  | @confirmed _ _ _ err _ _ _ _ h0 _ _ hstatus h1 =>
    rw [after_skip h0]
    have hiff := (h1.ends hg).sound_iff (by rw [newCertStatus_statusInfo hstatus]; rfl)
    cases err with
    | some e => exact .failed (hiff.mp fun h => by cases h) e
    | none =>
      refine Iff.trans ?_ hiff
      constructor
      · rintro ⟨res, err, heq, hsound⟩ -
        cases heq
        exact (hsound rfl).2
      · exact fun hconf => ⟨_, none, rfl, fun _ => ⟨rfl, hconf rfl⟩⟩

section

variable {msg : PKIMessage} {creds : Credentials} {reply : CmpHTTPResponse} {vr : VerifyResult}

/-- The first reply is hollow when it is an error body that says success. -/
lemma Opens.genuine_iff (h : c.Opens msg creds tr reply vr) :
    Genuine ((replyMonitor c.crypto).after [] tr) ↔ ¬ SaysSuccess reply := by
  rw [h.1.after_ok, genuine_append_iff genuine_nil]
  exact not_congr ⟨fun hol => hol.saysSuccess, fun hs => ⟨hs, fun _ => h.2, nofun⟩⟩

lemma Opens.genuine (h : c.Opens msg creds tr reply vr)
    (ht : reply.message.body.type ≠ BodyTypeError) :
    Genuine ((replyMonitor c.crypto).after [] tr) := by
  refine h.genuine_iff.mpr ?_
  rintro ⟨-, content, hc, -⟩
  exact ht (PKIBody.type_of_getError hc)

/-- A first reply of another version is not looked at. -/
lemma genuine_of_version {e : GoError}
    (h : c.Exchanges firstExchange msg creds c.trustedCAs none (fun _ => none) tr (.ok (reply, vr)))
    (hv : checkVersion reply = some e) : Genuine ((replyMonitor c.crypto).after [] tr) := by
  rw [h.after_ok, genuine_append_iff genuine_nil]
  exact fun hol => by simpa [hv] using hol.version (.inl rfl)

variable {ids : List ℤ} {expected : BodyType} {certResp : CertResponse} {rep : CertRepMessage}

lemma Opens.genuine_of_extract (h : c.Opens msg creds tr reply vr)
    (hx : extractCertRespAndRep reply.message expected = .ok (certResp, rep)) :
    Genuine ((replyMonitor c.crypto).after [] tr) := by
  obtain ⟨rfl, herr, -⟩ := type_of_extractCertRespAndRep hx
  exact h.genuine herr

/-- The replies up to the one that the enrollment is judged by. -/
lemma Replied.genuine {knownSigner : Option Certificate}
    (h : c.Replied msg ids expected creds tr reply vr knownSigner certResp rep) :
    Genuine ((replyMonitor c.crypto).after [] tr) := by
  cases h with
  | direct hopen hr => exact hopen.genuine_of_extract hr
  | polled hopen hwait _ _ hpoll =>
    rw [Monitor.after_append]
    exact (hpoll.ends (hopen.genuine_of_extract hwait)).sound_iff.mp fun _ => rfl

/-- The enrollments that end before. -/
lemma Ends.ends {out : EnrollOutcome} (h : c.Ends msg ids expected creds tr out) :
    EnrollEnd ((replyMonitor c.crypto).after [] tr) out := by
  cases h with
  | failed h =>
    rw [h.after_error]
    exact .failed genuine_nil _
  | version h hv => exact .failed (genuine_of_version h hv) _
  | @errored _ reply _ hopen _ =>
    unfold EnrollEnd EnrollSound
    rw [hopen.genuine_iff, ← wrapError_eq_none_iff]
    constructor
    · rintro ⟨res, err, heq, hsound⟩ hnone
      cases heq
      exact absurd (hsound hnone).1 (by simp)
    · exact fun hn => ⟨none, _, rfl, fun h => absurd h hn⟩
  | unexpected hopen _ herr | unextracted hopen _ herr => exact .failed (hopen.genuine herr) _
  | unmatched hopen hx => exact .failed (hopen.genuine_of_extract hx) _
  | pollFailed hopen hx _ _ hpoll he =>
    rw [Monitor.after_append]
    refine .failed ((hpoll.ends (hopen.genuine_of_extract hx)).sound_iff.mp fun h => ?_) _
    cases he.symm.trans h
  | panicked hopen hx _ _ hpoll he hr =>
    -- the nil result of the poll is read
    rw [Monitor.after_append]
    have hiff := (hpoll.ends (hopen.genuine_of_extract hx)).sound_iff
    refine iff_of_false ?_ fun hgen => by simpa [hr] using hiff.mpr hgen he
    rintro ⟨_, _, heq, -⟩
    cases heq
  | unextractedPolled hopen hx _ _ hpoll =>
    rw [Monitor.after_append]
    exact .failed ((hpoll.ends (hopen.genuine_of_extract hx)).sound_iff.mp fun _ => rfl) _

end

/-- `enroll`. -/
lemma Enrolls.ends {reqBody : PKIBody} {expected : BodyType} {opts : RequestOptions}
    {requestedKey : Option PublicKey} {creds : Option Credentials} {out : EnrollOutcome}
    (h : c.Enrolls reqBody expected opts requestedKey creds tr out) :
    EnrollEnd (verifiedReplies c.crypto tr) out := by
  unfold verifiedReplies
  cases h with
  | unread | anonymous => exact .failed genuine_nil _
  | unprotected h =>
    rw [after_local (local_of_newRequest h)]
    exact .failed genuine_nil _
  | ended _ h0 h1 =>
    rw [after_skip (local_of_newRequest h0)]
    exact h1.ends
  | concluded _ h0 h1 h2 =>
    rw [after_skip (local_of_newRequest h0), Monitor.after_append]
    exact h2.ends h1.genuine

/-! ### Revocation -/

/-- `SendRR` ends, and without an error only after a verified rp with a single
status, which is a success. -/
def RevocationSound (g : List VerifiedReply) (out : Option (Option GoError)) : Prop :=
  ∃ err, out = some err ∧ (err = none → ∃ r rep si, g.getLast? = some r ∧
    r.reply.message.body.getRP = .ok rep ∧ rep.status = [si] ∧
    (si.status = StatusAccepted ∨ si.status = StatusGrantedWithMods))

/-- How a revocation ends. -/
def RevocationEnd (g : List VerifiedReply) (out : Option (Option GoError)) : Prop :=
  RevocationSound g out ↔ Genuine g

lemma RevocationEnd.failed (hg : Genuine g) (e : GoError) :
    RevocationEnd g (some (some e)) :=
  iff_of_true ⟨some e, rfl, nofun⟩ hg

/-- `revocationReply` is nil only for an rp with a single success. -/
lemma revocationReply_eq_none {reply : CmpHTTPResponse} (h : revocationReply reply = none) :
    ∃ rep si, reply.message.body.getRP = .ok rep ∧ rep.status = [si] ∧
      (si.status = StatusAccepted ∨ si.status = StatusGrantedWithMods) := by
  unfold revocationReply at h
  simp only at h
  split_ifs at h
  split at h
  · cases h
  · next rep hrep =>
    split at h
    · next si hsi =>
      exact ⟨rep, si, hrep, hsi, (PKIStatusInfo.asError_eq_none_iff si).mp
        (Option.map_eq_none_iff.mp h)⟩
    · cases h

/-- The final reply of a revocation, from genuine replies. -/
lemma RevocationEnd.of_reply (hg : Genuine g) {r : VerifiedReply} (hlast : g.getLast? = some r) :
    RevocationEnd g (some (revocationReply r.reply)) := by
  refine iff_of_true ⟨_, rfl, fun h => ?_⟩ hg
  obtain ⟨rep, si, hrep, hsi, hok⟩ := revocationReply_eq_none h
  exact ⟨r, rep, si, hlast, hrep, hsi, hok⟩

/-- `SendRR` after its request. -/
lemma Revokes.ends {msg : PKIMessage} {creds : Credentials} {out : Option (Option GoError)}
    (h : c.Revokes msg creds tr out) :
    RevocationEnd ((replyMonitor c.crypto).after [] tr) out := by
  -- status waiting is not a success
  have hgen : ∀ {tr reply vr}, c.Opens msg creds tr reply vr →
      parseErrorResponse reply.message ≠ none → Genuine ((replyMonitor c.crypto).after [] tr) :=
    fun hopen hne => hopen.genuine_iff.mpr fun hs =>
      hne ((parseErrorResponse_eq_none_iff _).mpr hs.2)
  cases h with
  | failed h =>
    rw [h.after_error]
    exact .failed genuine_nil _
  | version h hv => exact .failed (genuine_of_version h hv) _
  | answered hopen ht =>
    exact .of_reply (hopen.genuine ht) (by rw [hopen.1.after_ok]; rfl)
  | @errored _ reply _ hopen ht =>
    unfold RevocationEnd RevocationSound
    rw [hopen.genuine_iff, ← wrapError_eq_none_iff, hopen.1.after_ok]
    constructor
    · -- an rp is no error body
      rintro ⟨err, heq, hsound⟩ hnone
      cases heq
      obtain ⟨r, rep, si, hr, hrep, -, -⟩ := hsound hnone
      cases hr
      have htype : reply.message.body.type = BodyTypeRP := PKIBody.type_of_getRP hrep
      rw [ht] at htype
      exact absurd htype (by decide)
    · exact fun hn => ⟨_, rfl, fun h => absurd h hn⟩
  | pollFailed hopen hpoll he hwait =>
    rw [Monitor.after_append]
    refine .failed ((hpoll.ends (hgen hopen hwait)).sound_iff.mp fun h => ?_) _
    cases he.symm.trans h
  | panicked hopen hpoll he hr hwait =>
    rw [Monitor.after_append]
    have hiff := (hpoll.ends (hgen hopen hwait)).sound_iff
    refine iff_of_false ?_ fun hgen => by simpa [hr] using hiff.mpr hgen he
    rintro ⟨_, heq, -⟩
    cases heq
  | polled hopen hpoll hwait =>
    rw [Monitor.after_append]
    have hend := hpoll.ends (hgen hopen hwait)
    exact .of_reply (hend.sound_iff.mp fun _ => rfl) (hend.last rfl _ rfl)

/-- `SendRR`. -/
lemma sendRR_ends {cert : Option Certificate} {reason : ℤ} {creds : Option Credentials}
    {opts : RequestOptions} {out : Option (Option GoError)}
    (hs : Prog.Steps (c.sendRR cert reason creds opts) tr (.ret out)) :
    RevocationEnd (verifiedReplies c.crypto tr) out := by
  unfold verifiedReplies
  obtain ⟨e, -, rfl, rfl⟩ | ⟨-, rfl, rfl⟩ | ⟨details, k, -, -, h⟩ := sendRR_steps hs
  · exact .failed genuine_nil _
  · exact .failed genuine_nil _
  · obtain ⟨e, h, rfl⟩ | ⟨tr0, tr1, msg, rfl, h0, h1⟩ := h
    · rw [after_local (local_of_newRequest h)]
      exact .failed genuine_nil _
    · rw [after_skip (local_of_newRequest h0)]
      exact h1.ends

/-! ### Every operation -/

variable (c) in
/-- **A client reports success only on a genuine success reply**, and never reads
through a missing one, exactly when no verified reply is an error body with a
status of success. -/
theorem outcome_sound_iff :
    (∀ reqBody expected creds opts requestedKey tr out,
      Prog.Steps (c.enroll reqBody expected creds opts requestedKey) tr (.ret out) →
        (EnrollSound (verifiedReplies c.crypto tr) out ↔
          Genuine (verifiedReplies c.crypto tr))) ∧
    (∀ cert reason creds opts tr out,
      Prog.Steps (c.sendRR cert reason creds opts) tr (.ret out) →
        (RevocationSound (verifiedReplies c.crypto tr) out ↔
          Genuine (verifiedReplies c.crypto tr))) ∧
    (∀ first lastResp creds certReqID knownSigner tr out,
      Prog.Steps (c.poll first lastResp creds certReqID knownSigner) tr (.ret out) →
        (PollSound out ↔ Genuine (verifiedReplies c.crypto tr))) :=
  ⟨fun _ _ _ _ _ _ _ h => (enroll_steps h).ends, fun _ _ _ _ _ _ h => sendRR_ends h,
    fun _ _ _ _ _ _ _ h => ((pollLoop_steps h).ends genuine_nil).sound_iff⟩

/-! ### Concrete operations -/

/-- A shared secret. -/
def sampleCreds : Credentials := .mac [1] {}

/-- An error message with the given status, protected with the shared secret and
answering a request of zero nonces. -/
def sampleErrorMessage (status : PKIStatus) : Except GoError Bytes :=
  let m : PKIMessage :=
    { header :=
        { pvno := PVNO2, sender := {}, recipient := {}, transactionID := List.replicate 16 0
          recipNonce := List.replicate 16 0 }
      body := .error { pkiStatusInfo := { status } } }
  match sampleCreds.prepare .sample (List.replicate 16 0) m with
  | (_, .error e) => .error e
  | (m, .ok (s, data)) => do
      let protection ← s.compute .sample data
      { m with protection }.marshalBinary

/-- A peer that answers everything with this message. -/
def samplePeer (status : PKIStatus) : (o : ClientEffect) → Option o.Res
  | .random => some ⟨List.replicate 16 0, length_zeros⟩
  | .now => some 0
  | .seal s data => some (s.compute .sample data)
  | .post _ => (sampleErrorMessage status).toOption.map fun body =>
    .ok ⟨200, [], some (str "application/pkixcmp"), body⟩
  | .wait _ => some none
  | .verifyTime .. => some 0

/-- A client that asks for one certificate. -/
def sampleEnroll : ClientProg EnrollOutcome :=
  enroll { crypto := .sample } (.ir [{ certReq := { certReqID := 0, certTemplate := {} } }])
    BodyTypeIP (some sampleCreds) {} none

/-- An error message of status accepted makes `enroll` return neither a result nor
an error. -/
theorem enroll_nil_of_accepted_error :
    ∃ tr, Prog.Steps sampleEnroll tr (.ret (some (none, none))) ∧
      ¬ EnrollSound (verifiedReplies .sample tr) (some (none, none)) := by
  obtain ⟨tr, hsteps⟩ : ∃ tr, Prog.Steps sampleEnroll tr (.ret (some (none, none))) :=
    Prog.exists_steps_of_play
      (show (Prog.play (samplePeer StatusAccepted) sampleEnroll).map Prod.snd =
        some (some (none, none)) by decide +kernel)
  refine ⟨tr, hsteps, ?_⟩
  rintro ⟨_, _, heq, hsound⟩
  cases heq
  exact absurd (hsound rfl).1 (by simp)

/-- An error message of status rejection is reported as one. -/
theorem enroll_of_rejected_error :
    ∃ tr e, Prog.Steps sampleEnroll tr (.ret (some (none, some e))) ∧
      Genuine (verifiedReplies .sample tr) := by
  obtain ⟨tr, hsteps⟩ : ∃ tr, Prog.Steps sampleEnroll tr
      (.ret (some (none, some (.pkiStatus ⟨StatusRejection, [], 0⟩)))) :=
    Prog.exists_steps_of_play
      (show (Prog.play (samplePeer StatusRejection) sampleEnroll).map Prod.snd =
        some (some (none, some (.pkiStatus ⟨StatusRejection, [], 0⟩))) by decide +kernel)
  exact ⟨tr, _, hsteps, ((outcome_sound_iff { crypto := .sample }).1 _ _ _ _ _ tr _ hsteps).mp
    ⟨none, _, rfl, nofun⟩⟩

end Client

end PkiCmp
