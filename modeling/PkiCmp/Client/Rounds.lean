/-
The messages a client sends and the replies it acts on (`client/transport.go`).

* `Client.rounds`: what was posted, what came back, and the reply that was accepted;
* `Operation`: the operations of a client, with what they report;
* `Client.replies_answer_iff`: **every reply that is acted on answers the message it came
  for**, exactly when no pollRep without a recipNonce is met.
-/
import PkiCmp.Client.Issued

namespace PkiCmp

open Der Interact

/-! ### Rounds -/

/-- A message that was posted, what came back, and the reply in it that was accepted, with
what it answers. -/
structure Round where
  der : Bytes
  answer : Except HTTPFailure HTTPReply
  accepted : Option (Awaited × CmpHTTPResponse)

namespace Client

variable (c : Client)

/-- The reply that is accepted next. -/
def acceptedNext : ClientHistory → Option (Awaited × CmpHTTPResponse)
  | ⟨.verifyTime awaited reply o, now⟩ :: _ =>
    match reply.message.verify c.crypto o now with
    | .ok _ => some (awaited, reply)
    | .error _ => none
  | _ => none

/-- The rounds of a history. -/
def rounds : ClientHistory → List Round
  | [] => []
  | ⟨.post der, answer⟩ :: tr => ⟨der, answer, c.acceptedNext tr⟩ :: rounds tr
  | _ :: tr => rounds tr

section

variable {c} {tr tr' : ClientHistory}

lemma rounds_cons_local {a : Event ClientEffect ClientEffect.Res} (h : a.op.Local) :
    c.rounds (a :: tr) = c.rounds tr := by
  obtain ⟨o, x⟩ := a
  cases o <;> first | rfl | exact h.elim

/-- Operations without the peer add no round. -/
lemma rounds_local_append (h : ∀ a ∈ tr, a.op.Local) : c.rounds (tr ++ tr') = c.rounds tr' := by
  induction tr with
  | nil => rfl
  | cons a tr ih =>
    rw [List.cons_append, rounds_cons_local (h a List.mem_cons_self)]
    exact ih fun b hb => h b (List.mem_cons_of_mem a hb)

lemma rounds_of_local (h : ∀ a ∈ tr, a.op.Local) : c.rounds tr = [] := by
  rw [← List.append_nil tr, rounds_local_append h]
  rfl

/-- The rounds are what was posted. -/
lemma posts_eq_rounds (tr : ClientHistory) : posts tr = (c.rounds tr).map Round.der := by
  induction tr with
  | nil => rfl
  | cons a tr ih =>
    obtain ⟨o, x⟩ := a
    cases o with
    | post der => exact congrArg (der :: ·) ih
    | _ => exact ih

end

/-! ### Answers -/

/-- A pollRep that repeats no nonce. -/
def Bare (awaited : Awaited) (reply : PKIMessage) : Prop :=
  awaited = .poll ∧ reply.body.type = BodyTypePollRep ∧ reply.header.recipNonce = []

/-- The reply answers the message `msg` of the operation that `first` has begun: it is of the
same transaction and repeats the nonce of the message, or, when it ends the polling, the one of
the first message. -/
structure Repeats (first msg : PKIHeader) (awaited : Awaited) (reply : PKIMessage) : Prop where
  transactionID : reply.header.transactionID = first.transactionID
  nonempty : reply.header.recipNonce ≠ []
  recipNonce : reply.header.recipNonce = msg.senderNonce ∨
    awaited = .poll ∧ reply.body.type ≠ BodyTypePollRep ∧
      reply.header.recipNonce = first.senderNonce

/-- What a round with the message `msg` is, but for the nonces of pollReps. -/
structure Fits (creds : Credentials) (first msg : PKIMessage) (r : Round) : Prop where
  encoded : msg.marshalBinary = .ok r.der
  received : ∀ awaited reply, r.accepted = some (awaited, reply) →
    ∃ http raw op, r.answer = .ok http ∧ c.receive http = .ok raw ∧
      RawHTTPResponse.parse raw op = .ok reply
  verified : ∀ awaited reply, r.accepted = some (awaited, reply) →
    ∃ pool signer now vr, reply.message.verify c.crypto
      (c.verifyOptions reply.message creds pool signer) now = .ok vr
  answers_iff : ∀ awaited reply, r.accepted = some (awaited, reply) →
    (Repeats first.header msg.header awaited reply.message ↔ ¬ Bare awaited reply.message)

/-- The rounds of a history fit the messages; one without an accepted reply is the last, and
then the operation has failed. -/
structure Plays (creds : Credentials) (first : PKIMessage) (failed : Prop) (msgs : List PKIMessage)
    (tr : ClientHistory) : Prop where
  fits : List.Forall₂ (c.Fits creds first) msgs (c.rounds tr)
  last : ∀ pre r post, c.rounds tr = pre ++ r :: post → r.accepted = none → post = [] ∧ failed

/-- The rounds of a history fit some messages. -/
def Proper (creds : Credentials) (first : PKIMessage) (failed : Prop) (tr : ClientHistory) : Prop :=
  ∃ msgs, c.Plays creds first failed msgs tr

/-- The rounds of a history begin with the first message. -/
def Begun (creds : Credentials) (first : PKIMessage) (failed : Prop) (tr : ClientHistory) : Prop :=
  ∃ msgs, c.Plays creds first failed msgs tr ∧ (msgs = [] ∨ msgs.head? = some first)

section

variable {c} {creds : Credentials} {first msg : PKIMessage} {failed : Prop}
variable {tr tr' : ClientHistory}

lemma Plays.nil (h : c.rounds tr = []) : c.Plays creds first failed [] tr := by
  refine ⟨h ▸ .nil, fun pre r post heq => ?_⟩
  rw [h] at heq
  exact absurd heq.symm (by simp)

lemma Plays.local_append {msgs : List PKIMessage} (h : ∀ a ∈ tr, a.op.Local)
    (hp : c.Plays creds first failed msgs tr') : c.Plays creds first failed msgs (tr ++ tr') := by
  have hr : c.rounds (tr ++ tr') = c.rounds tr' := rounds_local_append h
  exact ⟨hr ▸ hp.fits, fun pre r post heq => hp.last pre r post (hr ▸ heq)⟩

variable {trustedCAs : Option (List Certificate)} {knownSigner : Option Certificate}
variable {alternative : PKIMessage → Option Bytes}

/-- An exchange that fails is the last round. -/
lemma Plays.of_error {x : Exchange} {e : GoError}
    (h : c.Exchanges x msg creds trustedCAs knownSigner alternative tr (.error e)) (hf : failed) :
    c.Plays creds first failed [] tr ∨ c.Plays creds first failed [msg] tr := by
  have hlast : ∀ {der : Bytes} {answer : Except HTTPFailure HTTPReply},
      msg.marshalBinary = .ok der → c.rounds tr = [⟨der, answer, none⟩] →
      c.Plays creds first failed [msg] tr := by
    intro der answer hder hr
    refine ⟨hr ▸ .cons ⟨hder, nofun, nofun, nofun⟩ .nil, fun pre r post heq _ => ?_⟩
    rw [hr] at heq
    have hlen := congrArg List.length heq
    simp only [List.length_cons, List.length_nil, List.length_append] at hlen
    exact ⟨List.eq_nil_of_length_eq_zero (by omega), hf⟩
  cases h with
  | unencoded => exact .inl (.nil rfl)
  | unsent hder | refused hder | unparsed hder | mismatched hder => exact .inr (hlast hder rfl)
  | @unverified der http _ reply now _ _ hder _ _ hv =>
    have hr : c.rounds [⟨.post der, .ok http⟩, ⟨.verifyTime x.awaited reply
        (c.verifyOptions reply.message creds trustedCAs knownSigner), now⟩] =
        [⟨der, .ok http, none⟩] := by
      simp only [rounds, acceptedNext, hv]
    exact .inr (hlast hder hr)

variable {reply : CmpHTTPResponse} {vr : VerifyResult}

/-- An exchange that succeeds is a round before the others. -/
lemma Plays.exchange_append {x : Exchange} {msgs : List PKIMessage}
    (h : c.Exchanges x msg creds trustedCAs knownSigner alternative tr (.ok (reply, vr)))
    (ha : Repeats first.header msg.header x.awaited reply.message ↔ ¬ Bare x.awaited reply.message)
    (hp : c.Plays creds first failed msgs tr') :
    c.Plays creds first failed (msg :: msgs) (tr ++ tr') := by
  cases h with
  | @accepted der http raw _ now _ hder hraw hparse hv =>
    have hr : c.rounds ([⟨.post der, .ok http⟩, ⟨.verifyTime x.awaited reply
        (c.verifyOptions reply.message creds trustedCAs knownSigner), now⟩] ++ tr') =
        ⟨der, .ok http, some (x.awaited, reply)⟩ :: c.rounds tr' := by
      simp only [List.cons_append, List.nil_append, rounds, acceptedNext, hv.verified]
    refine ⟨?_, fun pre r post heq hnone => ?_⟩
    · rw [hr]
      refine .cons ⟨hder, ?_, ?_, ?_⟩ hp.fits
      · rintro _ _ ⟨⟩
        exact ⟨http, raw, x.parseOp, rfl, hraw, hparse⟩
      · rintro _ _ ⟨⟩
        exact ⟨trustedCAs, knownSigner, now, vr, hv.verified⟩
      · rintro _ _ ⟨⟩
        exact ha
    · rw [hr] at heq
      cases pre with
      | nil =>
        cases heq
        cases hnone
      | cons r' pre =>
        rw [List.cons_append, List.cons.injEq] at heq
        exact hp.last pre r post heq.2 hnone

lemma Proper.nil (h : c.rounds tr = []) : c.Proper creds first failed tr := ⟨[], .nil h⟩

lemma Proper.local_append (h : ∀ a ∈ tr, a.op.Local) (hp : c.Proper creds first failed tr') :
    c.Proper creds first failed (tr ++ tr') :=
  hp.imp fun _ hp => hp.local_append h

lemma Proper.of_error {x : Exchange} {e : GoError}
    (h : c.Exchanges x msg creds trustedCAs knownSigner alternative tr (.error e)) (hf : failed) :
    c.Proper creds first failed tr :=
  (Plays.of_error h hf).elim (fun hp => ⟨_, hp⟩) fun hp => ⟨_, hp⟩

/-! ### The nonces -/

/-- A reply that repeats the nonce of its message. -/
lemma repeats_of_nonce {awaited : Awaited} {reply : PKIMessage}
    (htxn : reply.header.transactionID = first.header.transactionID)
    (hlen : msg.header.senderNonce.length = 16)
    (hnonce : reply.header.recipNonce = msg.header.senderNonce) :
    Repeats first.header msg.header awaited reply ↔ ¬ Bare awaited reply := by
  have hne : reply.header.recipNonce ≠ [] := by
    intro h
    rw [← hnonce, h] at hlen
    cases hlen
  exact iff_of_true ⟨htxn, hne, .inl hnonce⟩ fun h => hne h.2.2

/-- The reply to a poll: only a pollRep without a nonce is not an answer. -/
lemma repeats_of_poll {signer : Option Certificate} {now : Time}
    (hfirst : first.header.senderNonce.length = 16)
    (htxn : msg.header.transactionID = first.header.transactionID)
    (hlen : msg.header.senderNonce.length = 16)
    (hv : c.Verified msg creds c.trustedCAs signer (pollAlternative first.header reply.message)
      reply vr now) :
    Repeats first.header msg.header .poll reply.message ↔ ¬ Bare .poll reply.message := by
  have htxn' := hv.transactionID.trans htxn
  rcases hv.recipNonce with hnonce | halt
  · exact repeats_of_nonce htxn' hlen hnonce
  unfold pollAlternative at halt
  split_ifs at halt with htype
  · have hnil : reply.message.header.recipNonce = [] := (Option.some.inj halt).symm
    exact iff_of_false (fun h => h.nonempty hnil) (not_not.mpr ⟨rfl, htype, hnil⟩)
  · have hnonce : reply.message.header.recipNonce = first.header.senderNonce :=
      (Option.some.inj halt).symm
    have hne : reply.message.header.recipNonce ≠ [] := by
      intro h
      rw [← hnonce, h] at hfirst
      cases hfirst
    exact iff_of_true ⟨htxn', hne, .inr ⟨rfl, htype, hnonce⟩⟩ fun h => hne h.2.2

/-! ### The rounds of the operations -/

/-- A poll that is answered, before the history `tr'`. -/
lemma Proper.poll_append {certReqID : ℤ} {lastResp poll : PKIMessage} {tr0 tr1 tr2 : ClientHistory}
    (hfirst : first.header.senderNonce.length = 16) (h0 : ∀ a ∈ tr0, a.op.Local)
    (h1 : Prog.Steps (c.followUp "protect poll request" first.header lastResp
      (.pollReq [certReqID]) creds) tr1 (.ret (.ok poll)))
    (h2 : c.Exchanges pollExchange poll creds c.trustedCAs knownSigner
      (pollAlternative first.header) tr2 (.ok (reply, vr)))
    (hp : c.Proper creds first failed tr') :
    c.Proper creds first failed (tr0 ++ (tr1 ++ (tr2 ++ tr'))) := by
  have hpoll := followUp_ok h1
  obtain ⟨msgs, hp⟩ := hp
  refine .local_append h0 (.local_append (local_of_followUp h1) ⟨_, hp.exchange_append h2 ?_⟩)
  cases h2 with
  | accepted _ _ _ hv => exact repeats_of_poll hfirst hpoll.transactionID hpoll.senderNonce hv

/-- **The polling loop**, before the history `tr'`, by induction on the loop. -/
lemma Polls.proper {certReqID : ℤ} {left : ℕ} {lastResp : PKIMessage} {r : PollResult}
    (h : c.Polls first.header creds certReqID left lastResp knownSigner tr r)
    (hfirst : first.header.senderNonce.length = 16) (hend : r.err ≠ none → tr' = [] ∧ failed)
    (hp : c.Proper creds first failed tr') : c.Proper creds first failed (tr ++ tr') := by
  induction h with
  | exhausted => exact hp
  | cancelled => exact .local_append (by simp [ClientEffect.Local]) hp
  | unprotected h0 h1 =>
    rw [List.append_assoc]
    exact .local_append h0 (.local_append (local_of_followUp h1) hp)
  | failed h0 h1 h2 =>
    obtain ⟨rfl, hf⟩ := hend (Option.some_ne_none _)
    rw [List.append_nil]
    exact .local_append h0 (.local_append (local_of_followUp h1) (.of_error h2 hf))
  | ended h0 h1 h2 =>
    rw [List.append_assoc, List.append_assoc]
    exact .poll_append hfirst h0 h1 h2 hp
  | again h0 h1 h2 _ _ ih =>
    rw [List.append_assoc, List.append_assoc, List.append_assoc]
    exact .poll_append hfirst h0 h1 h2 (ih hend)

/-- A certConf that follows the first message. -/
lemma Confirms.proper {conf : CertConfirmation} {status : CertStatus} {err : Option GoError}
    (h : c.Confirms conf status tr err) (hreq : conf.req = first) (hcreds : conf.creds = creds)
    (hf : err ≠ none → failed) : c.Proper creds first failed tr := by
  subst hreq hcreds
  cases h with
  | unprotected h => exact .nil (rounds_of_local (local_of_followUp h))
  | failed h1 h2 =>
    exact .local_append (local_of_followUp h1) (.of_error h2 (hf (Option.some_ne_none _)))
  | answered h1 h2 =>
    have hconf := followUp_ok h1
    rw [← List.append_nil (_ ++ _), List.append_assoc]
    refine .local_append (local_of_followUp h1) ⟨_, Plays.exchange_append h2 ?_ (.nil rfl)⟩
    cases h2 with
    | accepted _ _ _ hv =>
      exact repeats_of_nonce (hv.transactionID.trans hconf.transactionID) hconf.senderNonce
        (hv.recipNonce.resolve_right nofun)

/-- The end of an enrollment. -/
lemma Concludes.proper {ids : List ℤ} {requestedKey : Option PublicKey} {vr : Option VerifyResult}
    {certResp : CertResponse} {rep : CertRepMessage} {out : EnrollOutcome}
    (h : c.Concludes first ids creds requestedKey reply vr knownSigner certResp rep tr out) :
    c.Proper creds first (∃ e, out = .failed e) tr := by
  cases h with
  | unsuccessful | unparsed => exact .nil rfl
  | unhashed _ _ h0 => exact .nil (rounds_of_local h0)
  | refused _ _ h0 _ _ h1 =>
    refine .local_append h0 ?_
    cases h1 with
    | unhashed => exact .nil rfl
    | sent _ hconf => exact hconf.proper rfl rfl fun _ => ⟨_, rfl⟩
  | @confirmed _ _ _ err _ _ _ _ h0 _ _ _ hconf =>
    refine .local_append h0 (hconf.proper rfl rfl fun hne => ?_)
    cases err with
    | none => exact absurd rfl hne
    | some e => exact ⟨e, rfl⟩

lemma Begun.of_error {e : GoError}
    (h : c.Exchanges firstExchange first creds c.trustedCAs none (fun _ => none) tr (.error e))
    (hf : failed) : c.Begun creds first failed tr :=
  (Plays.of_error h hf).elim (fun hp => ⟨_, hp, .inl rfl⟩) fun hp => ⟨_, hp, .inr rfl⟩

/-- The first exchange, before the history `tr'`. -/
lemma Begun.opens_append
    (h : c.Exchanges firstExchange first creds c.trustedCAs none (fun _ => none) tr
      (.ok (reply, vr)))
    (hfirst : first.header.senderNonce.length = 16) (hp : c.Proper creds first failed tr') :
    c.Begun creds first failed (tr ++ tr') := by
  obtain ⟨msgs, hp⟩ := hp
  refine ⟨_, hp.exchange_append h ?_, .inr rfl⟩
  cases h with
  | accepted _ _ _ hv =>
    exact repeats_of_nonce hv.transactionID hfirst (hv.recipNonce.resolve_right nofun)

lemma Begun.of_opens
    (h : c.Exchanges firstExchange first creds c.trustedCAs none (fun _ => none) tr
      (.ok (reply, vr)))
    (hfirst : first.header.senderNonce.length = 16) : c.Begun creds first failed tr := by
  rw [← List.append_nil tr]
  exact .opens_append h hfirst (.nil rfl)

lemma Polls.proper_last {certReqID : ℤ} {left : ℕ} {lastResp : PKIMessage} {r : PollResult}
    (h : c.Polls first.header creds certReqID left lastResp knownSigner tr r)
    (hfirst : first.header.senderNonce.length = 16) (hend : r.err ≠ none → failed) :
    c.Proper creds first failed tr := by
  rw [← List.append_nil tr]
  exact h.proper hfirst (fun he => ⟨rfl, hend he⟩) (.nil rfl)

/-- An enrollment without a reply to judge it by. -/
lemma Ends.begun {ids : List ℤ} {expected : BodyType} {out : EnrollOutcome}
    (h : c.Ends first ids expected creds tr out) (hfirst : first.header.senderNonce.length = 16) :
    c.Begun creds first (∃ e, out = .failed e) tr := by
  cases h with
  | failed hx => exact .of_error hx ⟨_, rfl⟩
  | version hx => exact .of_opens hx hfirst
  | errored hopen | unexpected hopen | unextracted hopen | unmatched hopen =>
    exact .of_opens hopen.1 hfirst
  | pollFailed hopen _ _ _ hpoll =>
    exact .opens_append hopen.1 hfirst (hpoll.proper_last hfirst fun _ => ⟨_, rfl⟩)
  | panicked hopen _ _ _ hpoll he =>
    exact .opens_append hopen.1 hfirst (hpoll.proper_last hfirst fun hne => absurd he hne)
  | unextractedPolled hopen _ _ _ hpoll =>
    exact .opens_append hopen.1 hfirst (hpoll.proper_last hfirst fun _ => ⟨_, rfl⟩)

/-- The reply that an enrollment is judged by, before the history `tr'`. -/
lemma Replied.begun_append {ids : List ℤ} {expected : BodyType} {certResp : CertResponse}
    {rep : CertRepMessage}
    (h : c.Replied first ids expected creds tr reply vr knownSigner certResp rep)
    (hfirst : first.header.senderNonce.length = 16) (hp : c.Proper creds first failed tr') :
    c.Begun creds first failed (tr ++ tr') := by
  cases h with
  | direct hopen => exact .opens_append hopen.1 hfirst hp
  | polled hopen _ _ _ hpoll =>
    rw [List.append_assoc]
    exact .opens_append hopen.1 hfirst (hpoll.proper hfirst (fun he => absurd rfl he) hp)

/-- A revocation. -/
lemma Revokes.begun {out : Option (Option GoError)} (h : c.Revokes first creds tr out)
    (hfirst : first.header.senderNonce.length = 16) :
    c.Begun creds first (∃ e, out = some (some e)) tr := by
  cases h with
  | failed hx => exact .of_error hx ⟨_, rfl⟩
  | version hx => exact .of_opens hx hfirst
  | answered hopen | errored hopen => exact .of_opens hopen.1 hfirst
  | pollFailed hopen hpoll =>
    exact .opens_append hopen.1 hfirst (hpoll.proper_last hfirst fun _ => ⟨_, rfl⟩)
  | panicked hopen hpoll he =>
    exact .opens_append hopen.1 hfirst (hpoll.proper_last hfirst fun hne => absurd he hne)
  | polled hopen hpoll =>
    exact .opens_append hopen.1 hfirst (hpoll.proper_last hfirst fun hne => absurd rfl hne)

end

end Client

/-! ### Operations -/

/-- The operations of a client. -/
inductive Operation where
  | ir (key : Signer)
  | cr (key : Signer)
  | kur (key : Signer)
  | p10cr (csrDER : Bytes)
  | rr (cert : Option Certificate) (reason : ℤ)

namespace Operation

open Client

variable (c : Client) (creds : Option Credentials) (opts : RequestOptions)

/-- The error that an operation returns; nothing when it panics. -/
def run : Operation → ClientProg (Option (Option GoError))
  | .ir key => do
      let out ← c.sendIR key creds opts
      pure (out.map Prod.snd)
  | .cr key => do
      let out ← c.sendCR key creds opts
      pure (out.map Prod.snd)
  | .kur key => do
      let out ← c.sendKUR key creds opts
      pure (out.map Prod.snd)
  | .p10cr csrDER => do
      let out ← c.sendP10CR csrDER creds opts
      pure (out.map Prod.snd)
  | .rr cert reason => c.sendRR cert reason creds opts

/-- The errors of an operation that is given up before there is a message. -/
def GivesUp : Operation → GoError → Prop
  | .ir key, e => c.crmfBody key creds BodyTypeIP opts = .error e
  | .cr key, e => c.crmfBody key creds BodyTypeCP opts = .error e
  | .kur key, e => c.crmfBody key creds BodyTypeKUP opts = .error e
  | .p10cr csrDER, e => c.crypto.parseCertificateRequest csrDER = .error e ∨
      ∃ csr, c.crypto.parsePKIXPublicKey (CertificateRequest.rawSubjectPublicKeyInfo csr) = .error e
  | .rr cert reason, e => ∃ e', newRevDetails cert reason = .error e' ∧
      e = .clientWrapped (str "build revocation request") e'

/-- How an operation goes: it is given up, it is an enrollment, or it is a revocation. -/
inductive Goes (op : Operation) : ClientHistory → Option (Option GoError) → Prop
  | givenUp {e : GoError} (h : op.GivesUp c creds opts e) : Goes op [] (some (some e))
  | enrolls {body : PKIBody} {expected : BodyType} {key : PublicKey} {tr : ClientHistory}
      {out : EnrollOutcome} (h : c.Enrolls body expected opts (some key) creds tr out) :
      Goes op tr (out.map Prod.snd)
  | anonymous (h : creds = none) : Goes op [] (some (some noCredentials))
  | unprotected {k : Credentials} {details : RevDetails} {tr : ClientHistory} {e : GoError}
      (hk : creds = some k)
      (h : Prog.Steps (c.newRequest (.rr [details]) k opts) tr (.ret (.error e))) :
      Goes op tr (some (some e))
  | revokes {k : Credentials} {details : RevDetails} {msg : PKIMessage} {tr0 tr1 : ClientHistory}
      {out : Option (Option GoError)} (hk : creds = some k)
      (h0 : Prog.Steps (c.newRequest (.rr [details]) k opts) tr0 (.ret (.ok msg)))
      (h1 : c.Revokes msg k tr1 out) : Goes op (tr0 ++ tr1) out

section

variable {c} {creds} {opts} {tr : ClientHistory}

lemma sendCRMF_steps {key : Signer} {expected : BodyType} {out : EnrollOutcome}
    (hs : Prog.Steps (c.sendCRMF key creds expected opts) tr (.ret out)) :
    (∃ e, c.crmfBody key creds expected opts = .error e ∧ tr = [] ∧ out = .failed e) ∨
      ∃ body, c.Enrolls body expected opts (some key.pub) creds tr out := by
  unfold sendCRMF at hs
  split at hs
  · next e he =>
    obtain ⟨rfl, ⟨⟩⟩ := hs.of_ret
    exact .inl ⟨e, he, rfl, rfl⟩
  · exact .inr ⟨_, enroll_steps hs⟩

/-- The result of a program is passed on. -/
lemma steps_snd {p : ClientProg EnrollOutcome} {out : Option (Option GoError)}
    (hs : Prog.Steps (p >>= fun out => pure (out.map Prod.snd)) tr (.ret out)) :
    ∃ out', Prog.Steps p tr (.ret out') ∧ out = out'.map Prod.snd := by
  obtain ⟨tr1, tr2, out', rfl, h, hk⟩ := hs.of_bind
  obtain ⟨rfl, ⟨⟩⟩ := hk.of_ret
  rw [List.append_nil]
  exact ⟨out', h, rfl⟩

lemma Goes.of_sendCRMF {op : Operation} {key : Signer} {expected : BodyType} {out : EnrollOutcome}
    (hop : ∀ e, c.crmfBody key creds expected opts = .error e → op.GivesUp c creds opts e)
    (hs : Prog.Steps (c.sendCRMF key creds expected opts) tr (.ret out)) :
    Goes c creds opts op tr (out.map Prod.snd) := by
  obtain ⟨e, he, rfl, rfl⟩ | ⟨body, h⟩ := sendCRMF_steps hs
  · exact .givenUp (hop e he)
  · exact .enrolls h

/-- **How an operation goes.** -/
theorem run_steps {op : Operation} {out : Option (Option GoError)}
    (hs : Prog.Steps (op.run c creds opts) tr (.ret out)) : Goes c creds opts op tr out := by
  cases op with
  | ir key =>
    obtain ⟨out', h, rfl⟩ := steps_snd hs
    exact .of_sendCRMF (fun _ he => he) h
  | cr key =>
    obtain ⟨out', h, rfl⟩ := steps_snd hs
    exact .of_sendCRMF (fun _ he => he) h
  | kur key =>
    obtain ⟨out', h, rfl⟩ := steps_snd hs
    exact .of_sendCRMF (fun _ he => he) h
  | p10cr csrDER =>
    obtain ⟨out', h, rfl⟩ := steps_snd hs
    unfold sendP10CR at h
    split at h
    · next e he =>
      obtain ⟨rfl, ⟨⟩⟩ := h.of_ret
      exact .givenUp (.inl he)
    · split at h
      · next e he =>
        obtain ⟨rfl, ⟨⟩⟩ := h.of_ret
        exact .givenUp (.inr ⟨_, he⟩)
      · exact .enrolls (enroll_steps h)
  | rr cert reason =>
    obtain ⟨e, he, rfl, rfl⟩ | ⟨hnone, rfl, rfl⟩ | ⟨details, k, -, hk, hgo⟩ :=
      sendRR_steps hs
    · exact .givenUp ⟨e, he, rfl⟩
    · exact .anonymous hnone
    · obtain ⟨e, h, rfl⟩ | ⟨tr0, tr1, msg, rfl, h0, h1⟩ := hgo
      · exact .unprotected hk h
      · exact .revokes hk h0 h1

end

end Operation

/-! ### Replies and the messages they come for -/

/-- Every reply that was accepted answers the message it came for. -/
def Repeated (first : PKIMessage) (msgs : List PKIMessage) (rs : List Round) : Prop :=
  List.Forall₂ (fun m r => ∀ awaited reply, r.accepted = some (awaited, reply) →
    Client.Repeats first.header m.header awaited reply.message) msgs rs

/-- No pollRep without a nonce was accepted. -/
def Bareless (rs : List Round) : Prop :=
  ∀ r ∈ rs, ∀ awaited reply, r.accepted = some (awaited, reply) →
    ¬ Client.Bare awaited reply.message

namespace Client

variable {c : Client} {creds : Option Credentials} {opts : RequestOptions} {tr : ClientHistory}

variable {k : Credentials} {first : PKIMessage}

lemma repeated_iff {msgs : List PKIMessage} {rs : List Round}
    (h : List.Forall₂ (c.Fits k first) msgs rs) : Repeated first msgs rs ↔ Bareless rs := by
  unfold Repeated Bareless
  induction h with
  | nil => simp
  | cons hfit _ ih =>
    rw [List.forall₂_cons, List.forall_mem_cons, ih]
    refine and_congr_left fun _ => forall₃_congr fun awaited reply hr => ?_
    exact hfit.answers_iff awaited reply hr

lemma sends_of_fits {msgs : List PKIMessage}
    (h : List.Forall₂ (c.Fits k first) msgs (c.rounds tr)) :
    Sends tr msgs := by
  rw [Sends, posts_eq_rounds (c := c), List.map_map]
  generalize c.rounds tr = rs at h
  induction h with
  | nil => rfl
  | cons hfit _ ih => rw [List.map_cons, List.map_cons, hfit.encoded, ih, Function.comp_apply]

lemma fits_of_mem {msgs : List PKIMessage} {rs : List Round}
    (h : List.Forall₂ (c.Fits k first) msgs rs) {r : Round} (hr : r ∈ rs) :
    ∃ m, c.Fits k first m r := by
  induction h with
  | nil => cases hr
  | cons hfit _ ih =>
    rcases List.mem_cons.mp hr with rfl | hr
    · exact ⟨_, hfit⟩
    · exact ih hr

lemma Begun.imp {failed failed' : Prop} (h : c.Begun k first failed tr) (hf : failed → failed') :
    c.Begun k first failed' tr := by
  obtain ⟨msgs, hp, hhead⟩ := h
  exact ⟨msgs, ⟨hp.fits, fun pre r post heq hr => (hp.last pre r post heq hr).imp_right hf⟩, hhead⟩

lemma Begun.local_append {failed : Prop} {tr' : ClientHistory} (h : ∀ a ∈ tr, a.op.Local)
    (hb : c.Begun k first failed tr') :
    c.Begun k first failed (tr ++ tr') := by
  obtain ⟨msgs, hp, hhead⟩ := hb
  exact ⟨msgs, hp.local_append h, hhead⟩

/-- The rounds of an enrollment. -/
lemma Enrolls.begun {body : PKIBody} {expected : BodyType} {key : Option PublicKey}
    {out : EnrollOutcome} (h : c.Enrolls body expected opts key creds tr out) :
    c.rounds tr = [] ∨
      ∃ k first, creds = some k ∧ c.Begun k first (∃ e, out = .failed e) tr := by
  cases h with
  | unread | anonymous => exact .inl rfl
  | unprotected h => exact .inl (rounds_of_local (local_of_newRequest h))
  | ended _ h0 hend =>
    exact .inr ⟨_, _, rfl, .local_append (local_of_newRequest h0)
      (hend.begun (newRequest_ok h0).senderNonce)⟩
  | concluded _ h0 hrep hcon =>
    exact .inr ⟨_, _, rfl, .local_append (local_of_newRequest h0)
      (hrep.begun_append (newRequest_ok h0).senderNonce hcon.proper)⟩

/-- The rounds of an operation. -/
lemma begun_of_goes {op : Operation} {out : Option (Option GoError)}
    (h : op.Goes c creds opts tr out) :
    c.rounds tr = [] ∨
      ∃ k first, creds = some k ∧ c.Begun k first (∃ e, out = some (some e)) tr := by
  cases h with
  | givenUp | anonymous => exact .inl rfl
  | unprotected _ h => exact .inl (rounds_of_local (local_of_newRequest h))
  | revokes hk h0 h1 =>
    exact .inr ⟨_, _, hk, .local_append (local_of_newRequest h0)
      (h1.begun (newRequest_ok h0).senderNonce)⟩
  | enrolls h =>
    rcases h.begun with hnil | ⟨k, first, hk, hb⟩
    · exact .inl hnil
    · refine .inr ⟨k, first, hk, hb.imp ?_⟩
      rintro ⟨e, rfl⟩
      exact ⟨e, rfl⟩

/-- **Every reply that the client acts on answers the message it came for**, exactly when it
meets no pollRep without a recipNonce.  A reply is received in answer to its message and
verified, and one that is not accepted ends the operation with an error. -/
theorem replies_answer_iff {op : Operation} {out : Option (Option GoError)}
    (hs : Prog.Steps (op.run c creds opts) tr (.ret out)) :
    ∃ msgs, Sends tr msgs ∧
      (∀ first, msgs.head? = some first →
        (Repeated first msgs (c.rounds tr) ↔ Bareless (c.rounds tr))) ∧
      (∀ r ∈ c.rounds tr, ∀ awaited reply, r.accepted = some (awaited, reply) →
        (∃ http raw text, r.answer = .ok http ∧ c.receive http = .ok raw ∧
          RawHTTPResponse.parse raw text = .ok reply) ∧
        ∃ k pool signer now vr, creds = some k ∧ reply.message.verify c.crypto
          (c.verifyOptions reply.message k pool signer) now = .ok vr) ∧
      ∀ pre r post, c.rounds tr = pre ++ r :: post → r.accepted = none →
        post = [] ∧ ∃ e, out = some (some e) := by
  rcases begun_of_goes (Operation.run_steps hs) with hnil | ⟨k, first, hk, msgs, hp, hhead⟩
  · refine ⟨[], ?_, nofun, ?_, ?_⟩
    · rw [Sends, posts_eq_rounds (c := c), hnil]
      rfl
    · rw [hnil]
      exact List.forall_mem_nil _
    · intro pre r post heq
      rw [hnil] at heq
      exact absurd heq.symm (by simp)
  · refine ⟨msgs, sends_of_fits hp.fits, fun first' hfirst => ?_, fun r hr awaited reply ha => ?_,
      hp.last⟩
    · rcases hhead with rfl | hhead
      · cases hfirst
      · cases hhead.symm.trans hfirst
        exact repeated_iff hp.fits
    · obtain ⟨m, hfit⟩ := fits_of_mem hp.fits hr
      obtain ⟨pool, signer, now, vr, hv⟩ := hfit.verified awaited reply ha
      exact ⟨hfit.received awaited reply ha, k, pool, signer, now, vr, hk, hv⟩

/-! ### Concrete operations -/

/-- A CA that defers the certificate, and answers a poll without repeating its nonce. -/
def deferringPeer : (o : ClientEffect) → Option o.Res
  | .random => some ⟨List.replicate 16 0, length_zeros⟩
  | .now => some 0
  | .seal s data => some (s.compute .sample data)
  | .post der =>
    let reply :=
      match parsePKIMessage der with
      | .ok m =>
        if m.body.type = BodyTypePollReq then sampleReply [] (.pollRep [⟨0, 5, []⟩])
        else sampleReply (List.replicate 16 0)
          (.cp { response := [{ certReqID := 0, status := { status := StatusWaiting } }] })
      | .error e => .error e
    reply.toOption.map fun body => .ok ⟨200, [], some (str "application/pkixcmp"), body⟩
  | .wait _ => some none
  | .verifyTime .. => some 0

/-- A client that polls twice at most. -/
def pollingClient : Client := { keyedClient .ed25519 with maxPolls := 2 }

/-- What is seen of a round. -/
def roundView (r : Round) : Option (Awaited × BodyType × Bytes) :=
  r.accepted.map fun (awaited, reply) =>
    (awaited, reply.message.body.type, reply.message.header.recipNonce)

lemma exists_steps_view (peer : (o : ClientEffect) → Option o.Res) (op : Operation)
    (views : List (Option (Awaited × BodyType × Bytes)))
    (h : (Prog.play peer (op.run pollingClient (some sampleCreds) {})).map
      (fun r => (pollingClient.rounds r.1).map roundView) = some views) :
    ∃ tr out, Prog.Steps (op.run pollingClient (some sampleCreds) {}) tr (.ret out) ∧
      (pollingClient.rounds tr).map roundView = views := by
  obtain ⟨⟨tr, out⟩, hplay, hview⟩ := Option.map_eq_some_iff.mp h
  exact ⟨tr, out, Prog.steps_of_play hplay, hview⟩

/-- **A pollRep without a recipNonce is acted on**: the client waits and polls again. -/
theorem bare_pollRep_accepted :
    ∃ tr out r r' post reply,
      Prog.Steps ((Operation.p10cr [48, 0]).run pollingClient (some sampleCreds) {}) tr (.ret out) ∧
      pollingClient.rounds tr = r :: r' :: post ∧ post ≠ [] ∧
      r'.accepted = some (.poll, reply) ∧ reply.message.body.type = BodyTypePollRep ∧
      reply.message.header.recipNonce = [] := by
  obtain ⟨tr, out, hsteps, hview⟩ := exists_steps_view deferringPeer (.p10cr [48, 0])
    [some (.first, BodyTypeCP, List.replicate 16 0), some (.poll, BodyTypePollRep, []),
      some (.poll, BodyTypePollRep, [])] (by decide +kernel)
  obtain ⟨r, r', r'', hr⟩ : ∃ r r' r'', pollingClient.rounds tr = [r, r', r''] :=
    List.length_eq_three.mp (by simpa using congrArg List.length hview)
  rw [hr] at hview
  obtain ⟨⟨awaited, reply⟩, haccepted, hreply⟩ : ∃ a, r'.accepted = some a ∧ _ :=
    Option.map_eq_some_iff.mp (List.cons.inj (List.cons.inj hview).2).1
  obtain ⟨rfl, htype, hnonce⟩ : awaited = .poll ∧ _ ∧ _ := by
    simpa only [Prod.mk.injEq] using hreply
  exact ⟨tr, out, r, r', [r''], reply, hsteps, hr, List.cons_ne_nil _ _, haccepted, htype, hnonce⟩

/-- An operation whose replies all answer. -/
theorem replies_answer_sample :
    ∃ tr out msgs first,
      Prog.Steps ((Operation.p10cr [48, 0]).run pollingClient (some sampleCreds) {}) tr (.ret out) ∧
      Sends tr (first :: msgs) ∧ Bareless (pollingClient.rounds tr) ∧
      Repeated first (first :: msgs) (pollingClient.rounds tr) := by
  obtain ⟨tr, out, hsteps, hview⟩ := exists_steps_view issuingPeer (.p10cr [48, 0])
    [some (.first, BodyTypeCP, List.replicate 16 0),
      some (.pkiConf false, BodyTypePKIConf, List.replicate 16 0)] (by decide +kernel)
  obtain ⟨msgs, hsent, hiff, -, -⟩ := replies_answer_iff hsteps
  have hbare : Bareless (pollingClient.rounds tr) := by
    rintro r hr awaited reply ha ⟨rfl, htype, -⟩
    have hmem : some (.poll, reply.message.body.type, reply.message.header.recipNonce) ∈
        (pollingClient.rounds tr).map roundView :=
      List.mem_map.mpr ⟨r, hr, by rw [roundView, ha]; rfl⟩
    rw [hview] at hmem
    simp at hmem
  cases msgs with
  | nil =>
    have hlen := congrArg List.length hsent
    rw [posts_eq_rounds (c := pollingClient)] at hlen
    have hview' := congrArg List.length hview
    simp only [List.length_map, List.length_nil, List.length_cons] at hlen hview'
    omega
  | cons first msgs =>
    exact ⟨tr, out, msgs, first, hsteps, hsent, hbare, (hiff first rfl).mpr hbare⟩

end Client

end PkiCmp
