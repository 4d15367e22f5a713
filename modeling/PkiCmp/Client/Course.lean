/-
The course of a client's operations (`client/transport.go`), by the operations that
were issued and their answers.

* `ClientEffect.Local`, `ClientEffect.Making`: operations that neither send nor verify
  anything, and those that a message is made with;
* `Client.Sends`: the messages that were posted, in order;
* `Client.Verified`, `Client.Exchanges`: one exchange with the peer, and the checks that
  an accepted reply has passed;
* `Client.Polls`: the polling loop;
* `Client.Replied`, `Client.Enrolls`: an enrollment, up to the reply that it is judged by.
-/
import PkiCmp.Client.Enroll

namespace PkiCmp

open Der Interact

/-- What a client has done so far, with the answers. -/
abbrev ClientHistory := List (Event ClientEffect ClientEffect.Res)

/-! ### Operations without the peer -/

/-- The operations that neither send nor verify anything. -/
def ClientEffect.Local : ClientEffect → Prop
  | .post .. | .verifyTime .. => False
  | _ => True

/-- The operations that a message is made with. -/
def ClientEffect.Making : ClientEffect → Prop
  | .random | .now | .seal .. => True
  | _ => False

lemma ClientEffect.Making.isLocal {o : ClientEffect} (h : o.Making) : o.Local := by
  cases o <;> trivial

namespace Client

variable (c : Client)

lemma freshSalt_making (creds : Credentials) :
    Prog.Only ClientEffect.Making (freshSalt creds) := by
  cases creds
  · exact ⟨trivial, fun _ => trivial⟩
  · trivial

lemma protect_making (creds : Credentials) (m : PKIMessage) :
    Prog.Only ClientEffect.Making (c.protect creds m) := by
  refine (freshSalt_making creds).bind fun salt => ?_
  split
  · trivial
  · refine ⟨trivial, fun r => ?_⟩
    cases r <;> trivial

lemma newMessage_making (body : PKIBody) (sender recipient : GeneralName) (recipNonce : Bytes) :
    Prog.Only ClientEffect.Making (newMessage body sender recipient recipNonce) :=
  ⟨trivial, fun _ => ⟨trivial, fun _ => ⟨trivial, fun _ => trivial⟩⟩⟩

lemma newRequest_making (reqBody : PKIBody) (creds : Credentials) (opts : RequestOptions) :
    Prog.Only ClientEffect.Making (c.newRequest reqBody creds opts) := by
  refine (newMessage_making ..).bind fun msg => (c.protect_making creds _).bind fun r => ?_
  cases r <;> trivial

lemma followUp_making (op : String) (first : PKIHeader) (lastResp : PKIMessage) (body : PKIBody)
    (creds : Credentials) :
    Prog.Only ClientEffect.Making (c.followUp op first lastResp body creds) := by
  refine (newMessage_making ..).bind fun msg => (c.protect_making creds _).bind fun r => ?_
  cases r <;> trivial

lemma newRequest_local (reqBody : PKIBody) (creds : Credentials) (opts : RequestOptions) :
    Prog.Only ClientEffect.Local (c.newRequest reqBody creds opts) :=
  (c.newRequest_making reqBody creds opts).mono fun _ => ClientEffect.Making.isLocal

lemma followUp_local (op : String) (first : PKIHeader) (lastResp : PKIMessage) (body : PKIBody)
    (creds : Credentials) :
    Prog.Only ClientEffect.Local (c.followUp op first lastResp body creds) :=
  (c.followUp_making op first lastResp body creds).mono fun _ => ClientEffect.Making.isLocal

lemma pause_local (i : ℕ) (waitTime : Duration) :
    Prog.Only ClientEffect.Local (pause i waitTime) := by
  unfold pause
  split
  · trivial
  · exact ⟨trivial, fun _ => trivial⟩

lemma verifyIssuedCertificate_local (cert : Certificate) (trustPool : Option (List Certificate))
    (candidates : List Certificate) :
    Prog.Only ClientEffect.Local (c.verifyIssuedCertificate cert trustPool candidates) := by
  cases trustPool with
  | none => trivial
  | some roots =>
    simp only [verifyIssuedCertificate, request, Prog.call_bind, Prog.Only.op_iff]
    refine ⟨trivial, fun now => ?_⟩
    split <;> trivial

lemma refusal_local (cert : Certificate) (certResp : CertResponse) (ids : List ℤ)
    (requestedKey : Option PublicKey) (trustPool : Option (List Certificate))
    (candidates : List Certificate) :
    Prog.Only ClientEffect.Local
      (c.refusal cert certResp ids requestedKey trustPool candidates) := by
  unfold refusal
  split
  · trivial
  · refine (c.verifyIssuedCertificate_local ..).bind fun untrusted => ?_
    cases untrusted <;> trivial

section

variable {c} {tr : ClientHistory}

variable {creds : Credentials}

lemma newRequest_ok {body : PKIBody} {opts : RequestOptions} {m : PKIMessage}
    (hs : Prog.Steps (c.newRequest body creds opts) tr (.ret (.ok m))) :
    c.Begins body creds opts m :=
  (c.newRequest_yields body creds opts).steps hs m rfl

lemma followUp_ok {op : String} {first : PKIHeader} {lastResp : PKIMessage} {body : PKIBody}
    {m : PKIMessage} (hs : Prog.Steps (c.followUp op first lastResp body creds) tr (.ret (.ok m))) :
    Follows first lastResp body creds m :=
  (c.followUp_yields op first lastResp body creds).steps hs m rfl

lemma local_of_newRequest {body : PKIBody} {opts : RequestOptions} {r : Except GoError PKIMessage}
    (hs : Prog.Steps (c.newRequest body creds opts) tr (.ret r)) :
    ∀ a ∈ tr, a.op.Local :=
  fun _ => (c.newRequest_local body creds opts).mem_steps hs

lemma local_of_followUp {op : String} {first : PKIHeader} {lastResp : PKIMessage} {body : PKIBody}
    {r : Except GoError PKIMessage}
    (hs : Prog.Steps (c.followUp op first lastResp body creds) tr (.ret r)) :
    ∀ a ∈ tr, a.op.Local :=
  fun _ => (c.followUp_local op first lastResp body creds).mem_steps hs

end

/-! ### What was sent -/

/-- The octets that were posted, in order. -/
def posts (tr : ClientHistory) : List Bytes :=
  tr.filterMap fun a => match a.op with
    | .post der => some der
    | _ => none

/-- The messages that were posted, in order. -/
def Sends (tr : ClientHistory) (msgs : List PKIMessage) : Prop :=
  msgs.map PKIMessage.marshalBinary = (posts tr).map .ok

lemma posts_of_local {tr : ClientHistory} (h : ∀ a ∈ tr, a.op.Local) : posts tr = [] := by
  rw [posts, List.filterMap_eq_nil_iff]
  intro a ha
  have hlocal := h a ha
  revert hlocal
  cases a.op <;> simp [ClientEffect.Local]

lemma Sends.of_local {tr : ClientHistory} (h : ∀ a ∈ tr, a.op.Local) : Sends tr [] := by
  rw [Sends, posts_of_local h]
  rfl

lemma Sends.append {tr tr' : ClientHistory} {msgs msgs' : List PKIMessage} (h : Sends tr msgs)
    (h' : Sends tr' msgs') : Sends (tr ++ tr') (msgs ++ msgs') := by
  rw [Sends, posts, List.filterMap_append, List.map_append, List.map_append, h, h']
  rfl

/-! ### One exchange -/

/-- The checks that a reply has passed: it is of the transaction of the message, it repeats
the nonce of the message or the one that is allowed instead, and its protection
verifies. -/
structure Verified (msg : PKIMessage) (creds : Credentials) (trustedCAs : Option (List Certificate))
    (knownSigner : Option Certificate) (alternative : Option Bytes) (reply : CmpHTTPResponse)
    (vr : VerifyResult) (now : Time) : Prop where
  transactionID : reply.message.header.transactionID = msg.header.transactionID
  recipNonce : reply.message.header.recipNonce = msg.header.senderNonce ∨
    alternative = some reply.message.header.recipNonce
  protectionAlg : reply.message.header.protectionAlg ≠ none
  verified : reply.message.verify c.crypto
    (c.verifyOptions reply.message creds trustedCAs knownSigner) now = .ok vr

/-- Everything that an exchange can do. -/
inductive Exchanges (x : Exchange) (msg : PKIMessage) (creds : Credentials)
    (trustedCAs : Option (List Certificate)) (knownSigner : Option Certificate)
    (alternative : PKIMessage → Option Bytes) :
    ClientHistory → Except GoError (CmpHTTPResponse × VerifyResult) → Prop
  | unencoded {e : GoError} (h : msg.marshalBinary = .error e) :
      Exchanges x msg creds trustedCAs knownSigner alternative []
        (.error (.clientWrapped (str x.marshalOp) e))
  | unsent {der : Bytes} {f : HTTPFailure} (hder : msg.marshalBinary = .ok der) :
      Exchanges x msg creds trustedCAs knownSigner alternative [⟨.post der, .error f⟩]
        (.error (x.sendError f.error))
  | refused {der : Bytes} {http : HTTPReply} {e : GoError} (hder : msg.marshalBinary = .ok der)
      (h : c.receive http = .error e) :
      Exchanges x msg creds trustedCAs knownSigner alternative [⟨.post der, .ok http⟩]
        (.error (x.sendError e))
  | unparsed {der : Bytes} {http : HTTPReply} {raw : RawHTTPResponse} {e : GoError}
      (hder : msg.marshalBinary = .ok der) (hraw : c.receive http = .ok raw)
      (h : raw.parse x.parseOp = .error e) :
      Exchanges x msg creds trustedCAs knownSigner alternative [⟨.post der, .ok http⟩] (.error e)
  | mismatched {der : Bytes} {http : HTTPReply} {raw : RawHTTPResponse} {reply : CmpHTTPResponse}
      {op : GoString} (hder : msg.marshalBinary = .ok der) (hraw : c.receive http = .ok raw)
      (hparse : raw.parse x.parseOp = .ok reply) :
      Exchanges x msg creds trustedCAs knownSigner alternative [⟨.post der, .ok http⟩]
        (.error (addStatus reply.statusCode (withUnverifiedStatus reply.message
          (.clientWrapped (str x.verifyOp) (.client op)))))
  | unverified {der : Bytes} {http : HTTPReply} {raw : RawHTTPResponse} {reply : CmpHTTPResponse}
      {now : Time} {e e' : GoError} (hder : msg.marshalBinary = .ok der)
      (hraw : c.receive http = .ok raw) (hparse : raw.parse x.parseOp = .ok reply)
      (hv : reply.message.verify c.crypto
        (c.verifyOptions reply.message creds trustedCAs knownSigner) now = .error e)
      (he : e' = e ∨ ∃ hint, e' = .annotated e hint) :
      Exchanges x msg creds trustedCAs knownSigner alternative
        [⟨.post der, .ok http⟩, ⟨.verifyTime x.awaited reply
          (c.verifyOptions reply.message creds trustedCAs knownSigner), now⟩]
        (.error (addStatus reply.statusCode (withUnverifiedStatus reply.message
          (.clientWrapped (str x.verifyOp) (.clientWrapped (str "verify protection") e')))))
  | accepted {der : Bytes} {http : HTTPReply} {raw : RawHTTPResponse} {reply : CmpHTTPResponse}
      {now : Time} {vr : VerifyResult} (hder : msg.marshalBinary = .ok der)
      (hraw : c.receive http = .ok raw) (hparse : raw.parse x.parseOp = .ok reply)
      (hv : c.Verified msg creds trustedCAs knownSigner (alternative reply.message) reply vr now) :
      Exchanges x msg creds trustedCAs knownSigner alternative
        [⟨.post der, .ok http⟩, ⟨.verifyTime x.awaited reply
          (c.verifyOptions reply.message creds trustedCAs knownSigner), now⟩] (.ok (reply, vr))

section

variable {c} {x : Exchange} {msg : PKIMessage} {creds : Credentials}
variable {trustedCAs : Option (List Certificate)} {knownSigner : Option Certificate}
variable {alternative : PKIMessage → Option Bytes} {tr : ClientHistory}

lemma sendHTTP_steps {der : Bytes} {r : Except GoError RawHTTPResponse}
    (hs : Prog.Steps (c.sendHTTP der) tr (.ret r)) :
    (∃ f, tr = [⟨.post der, .error f⟩] ∧ r = .error f.error) ∨
      ∃ http, tr = [⟨.post der, .ok http⟩] ∧ r = c.receive http := by
  unfold sendHTTP at hs
  obtain ⟨a, tr, rfl, hk⟩ := hs.of_call
  cases a with
  | error f =>
    obtain ⟨rfl, ⟨⟩⟩ := hk.of_ret
    exact .inl ⟨f, rfl, rfl⟩
  | ok http =>
    obtain ⟨rfl, ⟨⟩⟩ := hk.of_ret
    exact .inr ⟨http, rfl, rfl⟩

lemma verifyResponse_steps {awaited : Awaited} {reply : CmpHTTPResponse} {nonce : Option Bytes}
    {r : Except GoError VerifyResult}
    (hs : Prog.Steps (c.verifyResponse awaited msg reply creds trustedCAs knownSigner nonce) tr
      (.ret r)) :
    (∃ op, tr = [] ∧ r = .error (.client op)) ∨
    ∃ now, tr = [⟨.verifyTime awaited reply
        (c.verifyOptions reply.message creds trustedCAs knownSigner), now⟩] ∧
      ((∃ e e', reply.message.verify c.crypto
          (c.verifyOptions reply.message creds trustedCAs knownSigner) now = .error e ∧
          (e' = e ∨ ∃ hint, e' = .annotated e hint) ∧
          r = .error (.clientWrapped (str "verify protection") e')) ∨
        ∃ vr, c.Verified msg creds trustedCAs knownSigner nonce reply vr now ∧ r = .ok vr) := by
  unfold verifyResponse at hs
  dsimp only at hs
  split_ifs at hs with htxn hnonce halg
  · obtain ⟨rfl, ⟨⟩⟩ := hs.of_ret
    exact .inl ⟨_, rfl, rfl⟩
  · obtain ⟨rfl, ⟨⟩⟩ := hs.of_ret
    exact .inl ⟨_, rfl, rfl⟩
  · obtain ⟨rfl, ⟨⟩⟩ := hs.of_ret
    exact .inl ⟨_, rfl, rfl⟩
  · obtain ⟨now, tr, rfl, hk⟩ := hs.of_call
    refine .inr ⟨now, ?_⟩
    split at hk
    · next vr hv =>
      obtain ⟨rfl, ⟨⟩⟩ := hk.of_ret
      refine ⟨rfl, .inr ⟨vr, ⟨not_not.mp htxn, ?_, halg, hv⟩, rfl⟩⟩
      by_contra hne
      rw [not_or] at hne
      exact hnonce hne
    · next e hv =>
      obtain ⟨rfl, ⟨⟩⟩ := hk.of_ret
      refine ⟨rfl, .inl ⟨e, _, hv, ?_, rfl⟩⟩
      split_ifs
      · exact .inr ⟨_, rfl⟩
      · exact .inl rfl

/-- **One exchange.** -/
lemma exchange_steps {r : Except GoError (CmpHTTPResponse × VerifyResult)}
    (hs : Prog.Steps (c.exchange x msg creds trustedCAs knownSigner alternative) tr (.ret r)) :
    c.Exchanges x msg creds trustedCAs knownSigner alternative tr r := by
  unfold exchange at hs
  split at hs
  · next e hder =>
    obtain ⟨rfl, ⟨⟩⟩ := hs.of_ret
    exact .unencoded hder
  · next der hder =>
    obtain ⟨tr1, tr2, a, rfl, h1, h2⟩ := hs.of_bind
    obtain ⟨f, rfl, rfl⟩ | ⟨http, rfl, rfl⟩ := sendHTTP_steps h1
    · obtain ⟨rfl, ⟨⟩⟩ := h2.of_ret
      exact .unsent hder
    cases hraw : c.receive http with
    | error e =>
      rw [hraw] at h2
      obtain ⟨rfl, ⟨⟩⟩ := h2.of_ret
      exact .refused hder hraw
    | ok raw =>
      simp only [hraw] at h2
      split at h2
      · next e hparse =>
        obtain ⟨rfl, ⟨⟩⟩ := h2.of_ret
        exact .unparsed hder hraw hparse
      · next reply hparse =>
        obtain ⟨tr1, tr3, v, rfl, hv, h3⟩ := h2.of_bind
        obtain ⟨op, rfl, rfl⟩ | ⟨now, rfl, hend⟩ := verifyResponse_steps hv
        · obtain ⟨rfl, ⟨⟩⟩ := h3.of_ret
          exact .mismatched hder hraw hparse
        obtain ⟨e, e', herr, he, rfl⟩ | ⟨vr, hok, rfl⟩ := hend
        · obtain ⟨rfl, ⟨⟩⟩ := h3.of_ret
          exact .unverified hder hraw hparse herr he
        · obtain ⟨rfl, ⟨⟩⟩ := h3.of_ret
          exact .accepted hder hraw hparse hok

/-- An exchange posts its message, unless there is no encoding. -/
lemma Exchanges.sends {r : Except GoError (CmpHTTPResponse × VerifyResult)}
    (h : c.Exchanges x msg creds trustedCAs knownSigner alternative tr r) :
    (∃ e, msg.marshalBinary = .error e ∧ tr = []) ∨ Sends tr [msg] := by
  cases h with
  | unencoded h => exact .inl ⟨_, h, rfl⟩
  | unsent hder | refused hder | unparsed hder | mismatched hder | unverified hder
  | accepted hder =>
    exact .inr (congrArg (· :: []) hder)

end

/-! ### Polling -/

/-- The texts of a poll. -/
def pollExchange : Exchange :=
  { awaited := .poll, marshalOp := "marshal poll request", parseOp := "parse polled response",
    verifyOp := "verify polled response" }

/-- The other nonce that the reply to a poll may repeat: a pollRep none at all, another reply
the one of the first request. -/
def pollAlternative (first : PKIHeader) (resp : PKIMessage) : Option Bytes :=
  if resp.body.type = BodyTypePollRep then some [] else some first.senderNonce

/-- Everything that the polling loop can do, with the polls that are left. -/
inductive Polls (first : PKIHeader) (creds : Credentials) (certReqID : ℤ) :
    ℕ → PKIMessage → Option Certificate → ClientHistory → PollResult → Prop
  | exhausted {lastResp : PKIMessage} {knownSigner : Option Certificate} {op : GoString} :
      Polls first creds certReqID 0 lastResp knownSigner [] { err := some (.client op) }
  | cancelled {left : ℕ} {lastResp : PKIMessage} {knownSigner : Option Certificate} {d : Duration}
      {op : GoString} {e : GoError} :
      Polls first creds certReqID (left + 1) lastResp knownSigner [⟨.wait d, some e⟩]
        { err := some (.clientWrapped op e) }
  | unprotected {left : ℕ} {lastResp : PKIMessage} {knownSigner : Option Certificate}
      {tr0 tr1 : ClientHistory} {e : GoError} (h0 : ∀ a ∈ tr0, a.op.Local)
      (h1 : Prog.Steps (c.followUp "protect poll request" first lastResp (.pollReq [certReqID])
        creds) tr1 (.ret (.error e))) :
      Polls first creds certReqID (left + 1) lastResp knownSigner (tr0 ++ tr1) { err := some e }
  | failed {left : ℕ} {lastResp msg : PKIMessage} {knownSigner : Option Certificate}
      {tr0 tr1 tr2 : ClientHistory} {e : GoError} (h0 : ∀ a ∈ tr0, a.op.Local)
      (h1 : Prog.Steps (c.followUp "protect poll request" first lastResp (.pollReq [certReqID])
        creds) tr1 (.ret (.ok msg)))
      (h2 : c.Exchanges pollExchange msg creds c.trustedCAs knownSigner (pollAlternative first) tr2
        (.error e)) :
      Polls first creds certReqID (left + 1) lastResp knownSigner (tr0 ++ (tr1 ++ tr2))
        { err := some e }
  | ended {left : ℕ} {lastResp msg : PKIMessage} {knownSigner : Option Certificate}
      {tr0 tr1 tr2 : ClientHistory} {reply : CmpHTTPResponse} {vr : VerifyResult} {r : PollResult}
      (h0 : ∀ a ∈ tr0, a.op.Local)
      (h1 : Prog.Steps (c.followUp "protect poll request" first lastResp (.pollReq [certReqID])
        creds) tr1 (.ret (.ok msg)))
      (h2 : c.Exchanges pollExchange msg creds c.trustedCAs knownSigner (pollAlternative first) tr2
        (.ok (reply, vr)))
      (h3 : c.pollReply reply vr = .inl r) :
      Polls first creds certReqID (left + 1) lastResp knownSigner (tr0 ++ (tr1 ++ tr2)) r
  | again {left : ℕ} {lastResp msg : PKIMessage} {knownSigner : Option Certificate}
      {tr0 tr1 tr2 tr3 : ClientHistory} {reply : CmpHTTPResponse} {vr : VerifyResult} {d : Duration}
      {r : PollResult} (h0 : ∀ a ∈ tr0, a.op.Local)
      (h1 : Prog.Steps (c.followUp "protect poll request" first lastResp (.pollReq [certReqID])
        creds) tr1 (.ret (.ok msg)))
      (h2 : c.Exchanges pollExchange msg creds c.trustedCAs knownSigner (pollAlternative first) tr2
        (.ok (reply, vr)))
      (h3 : c.pollReply reply vr = .inr d)
      (h4 : Polls first creds certReqID left reply.message (vr.protectionCertificate.or knownSigner)
        tr3 r) :
      Polls first creds certReqID (left + 1) lastResp knownSigner (tr0 ++ (tr1 ++ (tr2 ++ tr3))) r

section

variable {c} {first : PKIHeader} {creds : Credentials} {certReqID : ℤ} {tr : ClientHistory}

lemma pause_steps {i : ℕ} {waitTime : Duration} {done : Option GoError}
    (hs : Prog.Steps (pause i waitTime) tr (.ret done)) :
    (done = none ∧ ∀ a ∈ tr, a.op.Local) ∨
      ∃ d op e, tr = [⟨.wait d, some e⟩] ∧ done = some (.clientWrapped op e) := by
  have hlocal := fun a ha => (pause_local i waitTime).mem_steps hs (e := a) ha
  unfold pause at hs
  split_ifs at hs
  · obtain ⟨rfl, ⟨⟩⟩ := hs.of_ret
    exact .inl ⟨rfl, List.forall_mem_nil _⟩
  · obtain ⟨a, tr, rfl, hk⟩ := hs.of_call
    obtain ⟨rfl, ⟨⟩⟩ := hk.of_ret
    cases a with
    | none => exact .inl ⟨rfl, hlocal⟩
    | some e => exact .inr ⟨_, _, e, rfl, rfl⟩

/-- **The polling loop**, by induction on the polls that are left. -/
lemma pollLoop_steps {left i : ℕ} {lastResp : PKIMessage} {waitTime : Duration}
    {knownSigner : Option Certificate} {r : PollResult}
    (hs : Prog.Steps (c.pollLoop first creds certReqID left i lastResp waitTime knownSigner) tr
      (.ret r)) : c.Polls first creds certReqID left lastResp knownSigner tr r := by
  induction left generalizing i lastResp waitTime knownSigner tr with
  | zero =>
    obtain ⟨rfl, ⟨⟩⟩ := hs.of_ret
    exact .exhausted
  | succ left ih =>
    obtain ⟨tr0, tr, done, rfl, h0, hk⟩ := hs.of_bind
    obtain ⟨rfl, hlocal⟩ | ⟨d, op, e, rfl, rfl⟩ := pause_steps h0
    · obtain ⟨tr1, tr, m, rfl, h1, hk⟩ := hk.of_bind
      cases m with
      | error e =>
        obtain ⟨rfl, ⟨⟩⟩ := hk.of_ret
        rw [List.append_nil]
        exact .unprotected hlocal h1
      | ok msg =>
        obtain ⟨tr2, tr3, a, rfl, h2, hk⟩ := hk.of_bind
        have hex := exchange_steps h2
        cases a with
        | error e =>
          obtain ⟨rfl, ⟨⟩⟩ := hk.of_ret
          rw [List.append_nil]
          exact .failed hlocal h1 hex
        | ok rv =>
          obtain ⟨reply, vr⟩ := rv
          dsimp only at hk
          split at hk
          · next result hend =>
            obtain ⟨rfl, ⟨⟩⟩ := hk.of_ret
            rw [List.append_nil]
            exact .ended hlocal h1 hex hend
          · next d hend => exact .again hlocal h1 hex hend (ih hk)
    · obtain ⟨rfl, ⟨⟩⟩ := hk.of_ret
      exact .cancelled

end

/-! ### Confirmation -/

/-- The texts of a certConf. -/
def certConfExchange (rejecting : Bool) : Exchange :=
  { awaited := .pkiConf rejecting, marshalOp := "marshal certConf", parseOp := "parse PKIConf",
    verifyOp := "verify PKIConf", sendError := .clientWrapped (str "certConf exchange") }

/-- Everything that `sendCertConf` can do. -/
inductive Confirms (conf : CertConfirmation) (status : CertStatus) :
    ClientHistory → Option GoError → Prop
  | unprotected {tr : ClientHistory} {e : GoError}
      (h : Prog.Steps (c.followUp "protect certConf" conf.req.header conf.resp (.certConf [status])
        conf.creds) tr (.ret (.error e))) : Confirms conf status tr (some e)
  | failed {tr1 tr2 : ClientHistory} {msg : PKIMessage} {e : GoError}
      (h1 : Prog.Steps (c.followUp "protect certConf" conf.req.header conf.resp (.certConf [status])
        conf.creds) tr1 (.ret (.ok msg)))
      (h2 : c.Exchanges (certConfExchange status.statusInfo.isSome) msg conf.creds conf.trustPool
        conf.knownSigner (fun _ => none) tr2 (.error e)) :
      Confirms conf status (tr1 ++ tr2) (some e)
  | answered {tr1 tr2 : ClientHistory} {msg : PKIMessage} {reply : CmpHTTPResponse}
      {vr : VerifyResult}
      (h1 : Prog.Steps (c.followUp "protect certConf" conf.req.header conf.resp (.certConf [status])
        conf.creds) tr1 (.ret (.ok msg)))
      (h2 : c.Exchanges (certConfExchange status.statusInfo.isSome) msg conf.creds conf.trustPool
        conf.knownSigner (fun _ => none) tr2 (.ok (reply, vr))) :
      Confirms conf status (tr1 ++ tr2) (certConfReply reply)

variable {c : Client} {tr : ClientHistory}

lemma sendCertConf_steps {conf : CertConfirmation} {status : CertStatus} {err : Option GoError}
    (hs : Prog.Steps (c.sendCertConf conf status) tr (.ret err)) :
    c.Confirms conf status tr err := by
  obtain ⟨tr1, tr2, m, rfl, h1, hk⟩ := hs.of_bind
  cases m with
  | error e =>
    obtain ⟨rfl, ⟨⟩⟩ := hk.of_ret
    rw [List.append_nil]
    exact .unprotected h1
  | ok msg =>
    obtain ⟨tr2, tr3, a, rfl, h2, hend⟩ := hk.of_bind
    have hex := exchange_steps h2
    cases a with
    | error e =>
      obtain ⟨rfl, ⟨⟩⟩ := hend.of_ret
      rw [List.append_nil]
      exact .failed h1 hex
    | ok rv =>
      obtain ⟨rfl, ⟨⟩⟩ := hend.of_ret
      rw [List.append_nil]
      exact .answered h1 hex

/-- The status of a certConf that refuses the certificate. -/
def rejecting (status : CertStatus) (text : String) : CertStatus :=
  { status with statusInfo := some { status := StatusRejection, statusString := [str text] } }

/-- Everything that `rejectCertificate` can do. -/
inductive Rejects (conf : CertConfirmation) (cert : Certificate) (certReqID : ℤ) (text : String)
    (reason : GoError) : ClientHistory → GoError → Prop
  | unhashed {e : GoError} {note : GoString}
      (h : newCertStatus c.crypto cert certReqID = .error e) :
      Rejects conf cert certReqID text reason [] (.annotated reason note)
  | sent {status : CertStatus} {tr : ClientHistory} {err : Option GoError} {e : GoError}
      (h : newCertStatus c.crypto cert certReqID = .ok status)
      (h1 : c.Confirms conf (rejecting status text) tr err)
      (he : e = reason ∨ ∃ note, e = .annotated reason note) :
      Rejects conf cert certReqID text reason tr e

lemma rejectCertificate_steps {conf : CertConfirmation} {cert : Certificate} {certReqID : ℤ}
    {text : String} {reason e : GoError}
    (hs : Prog.Steps (c.rejectCertificate conf cert certReqID text reason) tr (.ret e)) :
    c.Rejects conf cert certReqID text reason tr e := by
  unfold rejectCertificate at hs
  dsimp only at hs
  split at hs
  · next hstatus =>
    obtain ⟨rfl, ⟨⟩⟩ := hs.of_ret
    exact .unhashed hstatus
  · next status hstatus =>
    obtain ⟨tr1, tr2, err, rfl, h1, hk⟩ := hs.of_bind
    cases err with
    | some e' =>
      obtain ⟨rfl, ⟨⟩⟩ := hk.of_ret
      rw [List.append_nil]
      exact .sent hstatus (sendCertConf_steps h1) (.inr ⟨_, rfl⟩)
    | none =>
      obtain ⟨rfl, ⟨⟩⟩ := hk.of_ret
      rw [List.append_nil]
      exact .sent hstatus (sendCertConf_steps h1) (.inl rfl)

/-! ### The verdict on a certificate -/

/-- The first check that an issued certificate fails, at the given time. -/
def verdict (cert : Certificate) (certResp : CertResponse) (ids : List ℤ)
    (requestedKey : Option PublicKey) (trustPool : Option (List Certificate))
    (candidates : List Certificate) (now : Time) : Option (String × GoError) :=
  match checkCertReqID certResp ids with
  | some e => some ("certReqId does not match the request", e)
  | none =>
    match trustPool.bind fun roots =>
        match c.crypto.verifyPath cert roots candidates now with
        | .ok _ => none
        | .error e => some e with
    | some e =>
      some ("certificate validation failed", .clientWrapped (str "verify certificate trust") e)
    | none =>
      (c.checkIssuedKey cert requestedKey).map fun e =>
        ("certificate does not certify the requested public key", e)

/-- `refusal` reads the clock when there is a pool, and gives the verdict. -/
lemma refusal_steps {cert : Certificate} {certResp : CertResponse} {ids : List ℤ}
    {requestedKey : Option PublicKey} {trustPool : Option (List Certificate)}
    {candidates : List Certificate} {r : Option (String × GoError)}
    (hs : Prog.Steps (c.refusal cert certResp ids requestedKey trustPool candidates) tr (.ret r)) :
    ∃ now, (certResp.certReqID ∈ ids → trustPool ≠ none → ⟨.now, now⟩ ∈ tr) ∧
      r = c.verdict cert certResp ids requestedKey trustPool candidates now := by
  unfold refusal at hs
  unfold verdict
  by_cases hid : certResp.certReqID ∈ ids
  · have hcheck : checkCertReqID certResp ids = none := if_pos hid
    simp only [hcheck] at hs ⊢
    obtain ⟨tr1, tr2, untrusted, rfl, h1, hk⟩ := hs.of_bind
    cases trustPool with
    | none =>
      obtain ⟨rfl, ⟨⟩⟩ := h1.of_ret
      obtain ⟨rfl, ⟨⟩⟩ := hk.of_ret
      exact ⟨0, fun _ h => absurd rfl h, rfl⟩
    | some roots =>
      unfold verifyIssuedCertificate at h1
      obtain ⟨now, tr, rfl, hv⟩ := h1.of_call
      refine ⟨now, fun _ _ => List.mem_append_left _ List.mem_cons_self, ?_⟩
      rw [Option.bind_some]
      cases hpath : c.crypto.verifyPath cert roots candidates now with
      | ok =>
        rw [hpath] at hv
        obtain ⟨rfl, ⟨⟩⟩ := hv.of_ret
        obtain ⟨rfl, ⟨⟩⟩ := hk.of_ret
        rfl
      | error e =>
        rw [hpath] at hv
        obtain ⟨rfl, ⟨⟩⟩ := hv.of_ret
        obtain ⟨rfl, ⟨⟩⟩ := hk.of_ret
        rfl
  · have hcheck : ∃ e, checkCertReqID certResp ids = some e := ⟨_, if_neg hid⟩
    obtain ⟨e, hcheck⟩ := hcheck
    simp only [hcheck] at hs ⊢
    obtain ⟨rfl, ⟨⟩⟩ := hs.of_ret
    exact ⟨0, fun h => absurd h hid, rfl⟩

/-! ### The end of an enrollment -/

/-- The pool that a certificate of the reply has to chain to. -/
def poolFor (vr : Option VerifyResult) (rep : CertRepMessage) : Option (List Certificate) :=
  c.enrollmentTrustPool vr (c.parseCMPCertificates rep.caPubs)

/-- The certificates that the chain may go through. -/
def candidatesFor (reply : CmpHTTPResponse) (rep : CertRepMessage) : List Certificate :=
  c.parseCMPCertificates reply.message.extraCerts ++ c.parseCMPCertificates rep.caPubs

/-- What a certConf for the certificate of the reply needs. -/
def confirmationFor (msg : PKIMessage) (creds : Credentials) (reply : CmpHTTPResponse)
    (vr : Option VerifyResult) (knownSigner : Option Certificate) (rep : CertRepMessage) :
    CertConfirmation :=
  { req := msg, resp := reply.message, creds, trustPool := c.poolFor vr rep, knownSigner }

/-- The certificate response is a success. -/
def Succeeded (certResp : CertResponse) : Prop :=
  certResp.status.status = StatusAccepted ∨ certResp.status.status = StatusGrantedWithMods

/-- Everything that `enroll` can do with the reply it is judged by. -/
inductive Concludes (msg : PKIMessage) (ids : List ℤ) (creds : Credentials)
    (requestedKey : Option PublicKey) (reply : CmpHTTPResponse) (vr : Option VerifyResult)
    (knownSigner : Option Certificate) (certResp : CertResponse) (rep : CertRepMessage) :
    ClientHistory → EnrollOutcome → Prop
  | unsuccessful (h : ¬ Succeeded certResp) :
      Concludes msg ids creds requestedKey reply vr knownSigner certResp rep []
        (some (none, wrapError reply.statusCode certResp.status.asError))
  | unparsed {e : GoError} (hst : Succeeded certResp)
      (h : c.extractCertificate certResp = .error e) :
      Concludes msg ids creds requestedKey reply vr knownSigner certResp rep []
        (.failed (addStatus reply.statusCode e))
  | refused {cert : Certificate} {now : Time} {text : String} {e reason : GoError}
      {tr0 tr1 : ClientHistory} (hst : Succeeded certResp)
      (hcert : c.extractCertificate certResp = .ok cert) (h0 : ∀ a ∈ tr0, a.op.Local)
      (hnow : certResp.certReqID ∈ ids → c.poolFor vr rep ≠ none → ⟨.now, now⟩ ∈ tr0)
      (hv : c.verdict cert certResp ids requestedKey (c.poolFor vr rep) (c.candidatesFor reply rep)
        now = some (text, e))
      (h1 : c.Rejects (c.confirmationFor msg creds reply vr knownSigner rep) cert certResp.certReqID
        text (addStatus reply.statusCode e) tr1 reason) :
      Concludes msg ids creds requestedKey reply vr knownSigner certResp rep (tr0 ++ tr1)
        (.failed reason)
  | unhashed {cert : Certificate} {now : Time} {e : GoError} {tr0 : ClientHistory}
      (hst : Succeeded certResp) (hcert : c.extractCertificate certResp = .ok cert)
      (h0 : ∀ a ∈ tr0, a.op.Local)
      (hnow : certResp.certReqID ∈ ids → c.poolFor vr rep ≠ none → ⟨.now, now⟩ ∈ tr0)
      (hv : c.verdict cert certResp ids requestedKey (c.poolFor vr rep) (c.candidatesFor reply rep)
        now = none)
      (h : newCertStatus c.crypto cert certResp.certReqID = .error e) :
      Concludes msg ids creds requestedKey reply vr knownSigner certResp rep tr0
        (.failed (addStatus reply.statusCode (.clientWrapped (str "compute certHash") e)))
  | confirmed {cert : Certificate} {now : Time} {status : CertStatus} {err : Option GoError}
      {tr0 tr1 : ClientHistory} (hst : Succeeded certResp)
      (hcert : c.extractCertificate certResp = .ok cert) (h0 : ∀ a ∈ tr0, a.op.Local)
      (hnow : certResp.certReqID ∈ ids → c.poolFor vr rep ≠ none → ⟨.now, now⟩ ∈ tr0)
      (hv : c.verdict cert certResp ids requestedKey (c.poolFor vr rep) (c.candidatesFor reply rep)
        now = none)
      (h : newCertStatus c.crypto cert certResp.certReqID = .ok status)
      (h1 : c.Confirms (c.confirmationFor msg creds reply vr knownSigner rep) status tr1 err) :
      Concludes msg ids creds requestedKey reply vr knownSigner certResp rep (tr0 ++ tr1)
        (match err with
          | some e => .failed e
          | none => some (some ⟨cert, c.parseCMPCertificates rep.caPubs,
              c.parseCMPCertificates reply.message.extraCerts⟩, none))

lemma enrollIssued_steps {msg : PKIMessage} {ids : List ℤ} {creds : Credentials}
    {requestedKey : Option PublicKey} {reply : CmpHTTPResponse} {vr : Option VerifyResult}
    {knownSigner : Option Certificate} {certResp : CertResponse} {rep : CertRepMessage}
    {out : EnrollOutcome}
    (hs : Prog.Steps (c.enrollIssued msg ids creds requestedKey reply vr knownSigner certResp rep)
      tr (.ret out)) :
    c.Concludes msg ids creds requestedKey reply vr knownSigner certResp rep tr out := by
  unfold enrollIssued at hs
  split_ifs at hs with hst
  · obtain ⟨rfl, ⟨⟩⟩ := hs.of_ret
    refine .unsuccessful fun h => ?_
    rcases h with h | h
    · exact hst.1 h
    · exact hst.2 h
  · have hst : Succeeded certResp := by
      unfold Succeeded
      tauto
    split at hs
    · next e hcert =>
      obtain ⟨rfl, ⟨⟩⟩ := hs.of_ret
      exact .unparsed hst hcert
    · next cert hcert =>
      obtain ⟨tr0, tr, refused, rfl, h0, hk⟩ := hs.of_bind
      have hlocal : ∀ a ∈ tr0, a.op.Local := fun a ha => (c.refusal_local ..).mem_steps h0 ha
      obtain ⟨now, hnow, hv⟩ := refusal_steps h0
      cases refused with
      | some te =>
        obtain ⟨text, e⟩ := te
        obtain ⟨tr1, tr2, reason, rfl, h1, hend⟩ := hk.of_bind
        obtain ⟨rfl, ⟨⟩⟩ := hend.of_ret
        rw [List.append_nil]
        exact .refused hst hcert hlocal hnow hv.symm (rejectCertificate_steps h1)
      | none =>
        dsimp only at hk
        split at hk
        · next e hstatus =>
          obtain ⟨rfl, ⟨⟩⟩ := hk.of_ret
          rw [List.append_nil]
          exact .unhashed hst hcert hlocal hnow hv.symm hstatus
        · next status hstatus =>
          obtain ⟨tr1, tr2, err, rfl, h1, hend⟩ := hk.of_bind
          have hconf := Concludes.confirmed hst hcert hlocal hnow hv.symm hstatus
            (sendCertConf_steps h1)
          cases err with
          | some e =>
            obtain ⟨rfl, ⟨⟩⟩ := hend.of_ret
            rw [List.append_nil]
            exact hconf
          | none =>
            obtain ⟨rfl, ⟨⟩⟩ := hend.of_ret
            rw [List.append_nil]
            exact hconf

/-! ### Enrollment -/

/-- The texts of the first exchange. -/
def firstExchange : Exchange :=
  { awaited := .first, marshalOp := "marshal request", parseOp := "parse response",
    verifyOp := "verify response" }

/-- The first exchange was accepted, with a reply of a supported version. -/
def Opens (msg : PKIMessage) (creds : Credentials) (tr : ClientHistory) (reply : CmpHTTPResponse)
    (vr : VerifyResult) : Prop :=
  c.Exchanges firstExchange msg creds c.trustedCAs none (fun _ => none) tr (.ok (reply, vr)) ∧
    checkVersion reply = none

lemma exchangeFirst_steps {msg : PKIMessage} {creds : Credentials}
    {r : Except GoError (CmpHTTPResponse × VerifyResult)}
    (hs : Prog.Steps (c.exchangeFirst msg creds) tr (.ret r)) :
    (∃ e, c.Exchanges firstExchange msg creds c.trustedCAs none (fun _ => none) tr (.error e) ∧
      r = .error e) ∨
    (∃ reply vr e, c.Exchanges firstExchange msg creds c.trustedCAs none (fun _ => none) tr
      (.ok (reply, vr)) ∧ checkVersion reply = some e ∧ r = .error e) ∨
    ∃ reply vr, c.Opens msg creds tr reply vr ∧ r = .ok (reply, vr) := by
  obtain ⟨tr1, tr2, a, rfl, h1, hk⟩ := hs.of_bind
  have hex := exchange_steps h1
  cases a with
  | error e =>
    obtain ⟨rfl, ⟨⟩⟩ := hk.of_ret
    rw [List.append_nil]
    exact .inl ⟨e, hex, rfl⟩
  | ok rv =>
    obtain ⟨reply, vr⟩ := rv
    dsimp only at hk
    split at hk
    · next e hv =>
      obtain ⟨rfl, ⟨⟩⟩ := hk.of_ret
      rw [List.append_nil]
      exact .inr (.inl ⟨reply, vr, e, hex, hv, rfl⟩)
    · next hv =>
      obtain ⟨rfl, ⟨⟩⟩ := hk.of_ret
      rw [List.append_nil]
      exact .inr (.inr ⟨reply, vr, ⟨hex, hv⟩, rfl⟩)

/-- The reply that an enrollment is judged by: the first one, or when it says that the
certificate is not ready the one that ends the polling. -/
inductive Replied (msg : PKIMessage) (ids : List ℤ) (expected : BodyType) (creds : Credentials) :
    ClientHistory → CmpHTTPResponse → VerifyResult → Option Certificate → CertResponse →
      CertRepMessage → Prop
  | direct {tr : ClientHistory} {reply : CmpHTTPResponse} {vr : VerifyResult}
      {certResp : CertResponse} {rep : CertRepMessage} (hopen : c.Opens msg creds tr reply vr)
      (hr : extractCertRespAndRep reply.message expected = .ok (certResp, rep))
      (hst : certResp.status.status ≠ StatusWaiting) :
      Replied msg ids expected creds tr reply vr vr.protectionCertificate certResp rep
  | polled {tr1 tr2 : ClientHistory} {first reply : CmpHTTPResponse} {vr1 vr : VerifyResult}
      {waiting certResp : CertResponse} {rep1 rep : CertRepMessage}
      (hopen : c.Opens msg creds tr1 first vr1)
      (hwait : extractCertRespAndRep first.message expected = .ok (waiting, rep1))
      (hst : waiting.status.status = StatusWaiting) (hid : waiting.certReqID ∈ ids)
      (hpoll : c.Polls msg.header creds waiting.certReqID c.maxPolls.toNat first.message
        vr1.protectionCertificate tr2 { reply := some reply, verified := some vr })
      (hr : extractCertRespAndRep reply.message expected = .ok (certResp, rep)) :
      Replied msg ids expected creds (tr1 ++ tr2) reply vr
        (vr.protectionCertificate.or vr1.protectionCertificate) certResp rep

/-- The enrollments that end before there is such a reply. -/
inductive Ends (msg : PKIMessage) (ids : List ℤ) (expected : BodyType) (creds : Credentials) :
    ClientHistory → EnrollOutcome → Prop
  | failed {tr : ClientHistory} {e : GoError}
      (h : c.Exchanges firstExchange msg creds c.trustedCAs none (fun _ => none) tr (.error e)) :
      Ends msg ids expected creds tr (.failed e)
  | version {tr : ClientHistory} {reply : CmpHTTPResponse} {vr : VerifyResult} {e : GoError}
      (h : c.Exchanges firstExchange msg creds c.trustedCAs none (fun _ => none) tr
        (.ok (reply, vr))) (hv : checkVersion reply = some e) :
      Ends msg ids expected creds tr (.failed e)
  | errored {tr : ClientHistory} {reply : CmpHTTPResponse} {vr : VerifyResult}
      (hopen : c.Opens msg creds tr reply vr) (ht : reply.message.body.type = BodyTypeError) :
      Ends msg ids expected creds tr
        (some (none, wrapError reply.statusCode (parseErrorResponse reply.message)))
  | unexpected {tr : ClientHistory} {reply : CmpHTTPResponse} {vr : VerifyResult} {op : GoString}
      (hopen : c.Opens msg creds tr reply vr) (ht : reply.message.body.type ≠ expected)
      (herr : reply.message.body.type ≠ BodyTypeError) :
      Ends msg ids expected creds tr (.failed (addStatus reply.statusCode (.client op)))
  | unextracted {tr : ClientHistory} {reply : CmpHTTPResponse} {vr : VerifyResult} {e : GoError}
      (hopen : c.Opens msg creds tr reply vr)
      (h : extractCertRespAndRep reply.message expected = .error e)
      (herr : reply.message.body.type ≠ BodyTypeError) :
      Ends msg ids expected creds tr (.failed (addStatus reply.statusCode e))
  | unmatched {tr : ClientHistory} {reply : CmpHTTPResponse} {vr : VerifyResult}
      {waiting : CertResponse} {rep : CertRepMessage} {op : GoString}
      (hopen : c.Opens msg creds tr reply vr)
      (h : extractCertRespAndRep reply.message expected = .ok (waiting, rep))
      (hst : waiting.status.status = StatusWaiting) (hid : waiting.certReqID ∉ ids) :
      Ends msg ids expected creds tr (.failed (addStatus reply.statusCode (.client op)))
  | pollFailed {tr1 tr2 : ClientHistory} {reply : CmpHTTPResponse} {vr : VerifyResult}
      {waiting : CertResponse} {rep : CertRepMessage} {polled : PollResult} {e : GoError}
      (hopen : c.Opens msg creds tr1 reply vr)
      (h : extractCertRespAndRep reply.message expected = .ok (waiting, rep))
      (hst : waiting.status.status = StatusWaiting) (hid : waiting.certReqID ∈ ids)
      (hpoll : c.Polls msg.header creds waiting.certReqID c.maxPolls.toNat reply.message
        vr.protectionCertificate tr2 polled) (he : polled.err = some e) :
      Ends msg ids expected creds (tr1 ++ tr2) (.failed e)
  | panicked {tr1 tr2 : ClientHistory} {reply : CmpHTTPResponse} {vr : VerifyResult}
      {waiting : CertResponse} {rep : CertRepMessage} {polled : PollResult}
      (hopen : c.Opens msg creds tr1 reply vr)
      (h : extractCertRespAndRep reply.message expected = .ok (waiting, rep))
      (hst : waiting.status.status = StatusWaiting) (hid : waiting.certReqID ∈ ids)
      (hpoll : c.Polls msg.header creds waiting.certReqID c.maxPolls.toNat reply.message
        vr.protectionCertificate tr2 polled) (he : polled.err = none) (hr : polled.reply = none) :
      Ends msg ids expected creds (tr1 ++ tr2) none
  | unextractedPolled {tr1 tr2 : ClientHistory} {first reply : CmpHTTPResponse}
      {vr1 vr : VerifyResult} {waiting : CertResponse} {rep : CertRepMessage} {e : GoError}
      (hopen : c.Opens msg creds tr1 first vr1)
      (hwait : extractCertRespAndRep first.message expected = .ok (waiting, rep))
      (hst : waiting.status.status = StatusWaiting) (hid : waiting.certReqID ∈ ids)
      (hpoll : c.Polls msg.header creds waiting.certReqID c.maxPolls.toNat first.message
        vr1.protectionCertificate tr2 { reply := some reply, verified := some vr })
      (h : extractCertRespAndRep reply.message expected = .error e) :
      Ends msg ids expected creds (tr1 ++ tr2) (.failed (addStatus reply.statusCode e))

/-- Everything that `enroll` can do. -/
inductive Enrolls (reqBody : PKIBody) (expected : BodyType) (opts : RequestOptions)
    (requestedKey : Option PublicKey) :
    Option Credentials → ClientHistory → EnrollOutcome → Prop
  | unread {creds : Option Credentials} {e : GoError} (h : answeringCertReqIDs reqBody = .error e) :
      Enrolls reqBody expected opts requestedKey creds [] (.failed e)
  | anonymous : Enrolls reqBody expected opts requestedKey none [] (.failed noCredentials)
  | unprotected {creds : Credentials} {tr : ClientHistory} {e : GoError}
      (h : Prog.Steps (c.newRequest reqBody creds opts) tr (.ret (.error e))) :
      Enrolls reqBody expected opts requestedKey (some creds) tr (.failed e)
  | ended {creds : Credentials} {ids : List ℤ} {msg : PKIMessage} {tr0 tr1 : ClientHistory}
      {out : EnrollOutcome} (hids : answeringCertReqIDs reqBody = .ok ids)
      (h0 : Prog.Steps (c.newRequest reqBody creds opts) tr0 (.ret (.ok msg)))
      (h1 : c.Ends msg ids expected creds tr1 out) :
      Enrolls reqBody expected opts requestedKey (some creds) (tr0 ++ tr1) out
  | concluded {creds : Credentials} {ids : List ℤ} {msg : PKIMessage}
      {tr0 tr1 tr2 : ClientHistory} {reply : CmpHTTPResponse} {vr : VerifyResult}
      {knownSigner : Option Certificate} {certResp : CertResponse} {rep : CertRepMessage}
      {out : EnrollOutcome} (hids : answeringCertReqIDs reqBody = .ok ids)
      (h0 : Prog.Steps (c.newRequest reqBody creds opts) tr0 (.ret (.ok msg)))
      (h1 : c.Replied msg ids expected creds tr1 reply vr knownSigner certResp rep)
      (h2 : c.Concludes msg ids creds requestedKey reply (some vr) knownSigner certResp rep tr2
        out) :
      Enrolls reqBody expected opts requestedKey (some creds) (tr0 ++ (tr1 ++ tr2)) out

/-- A poll that ends without an error returns the reply it has verified. -/
lemma Polls.eq_of_reply {first : PKIHeader} {creds : Credentials} {certReqID : ℤ} {left : ℕ}
    {lastResp : PKIMessage} {knownSigner : Option Certificate} {r : PollResult}
    (h : c.Polls first creds certReqID left lastResp knownSigner tr r) (he : r.err = none)
    {reply : CmpHTTPResponse} (hr : r.reply = some reply) :
    ∃ vr, r = { reply := some reply, verified := some vr } := by
  induction h with
  | exhausted | cancelled | unprotected | failed => cases he
  | again _ _ _ _ _ ih => exact ih he hr
  | ended _ _ _ h3 =>
    unfold pollReply at h3
    split at h3
    · cases h3
      cases he
    · split_ifs at h3
      · cases h3
        cases hr
      · split at h3
        · cases h3
          cases he
        · cases h3
      · cases h3
        cases hr
        exact ⟨_, rfl⟩

section

variable {c : Client} {msg : PKIMessage} {ids : List ℤ} {expected : BodyType} {creds : Credentials}
variable {requestedKey : Option PublicKey}

/-- After the first reply the enrollment ends, or there is a reply to judge it by. -/
lemma enrollReply_steps {reply : CmpHTTPResponse} {vr : VerifyResult} {tr1 tr : ClientHistory}
    {out : EnrollOutcome} (hopen : c.Opens msg creds tr1 reply vr)
    (hs : Prog.Steps (c.enrollReply msg ids expected creds requestedKey reply vr) tr (.ret out)) :
    c.Ends msg ids expected creds (tr1 ++ tr) out ∨
    ∃ trᵣ trₑ reply vr knownSigner certResp rep, tr1 ++ tr = trᵣ ++ trₑ ∧
      c.Replied msg ids expected creds trᵣ reply vr knownSigner certResp rep ∧
      c.Concludes msg ids creds requestedKey reply (some vr) knownSigner certResp rep trₑ out := by
  unfold enrollReply at hs
  dsimp only at hs
  split_ifs at hs with herr hexp
  · obtain ⟨rfl, ⟨⟩⟩ := hs.of_ret
    rw [List.append_nil]
    exact .inl (.errored hopen herr)
  · obtain ⟨rfl, ⟨⟩⟩ := hs.of_ret
    rw [List.append_nil]
    exact .inl (.unexpected hopen hexp herr)
  split at hs
  · next e hx =>
    obtain ⟨rfl, ⟨⟩⟩ := hs.of_ret
    rw [List.append_nil]
    exact .inl (.unextracted hopen hx herr)
  next certResp rep hx =>
  by_cases hst : certResp.status.status = StatusWaiting
  · rw [if_neg (not_not.mpr hst)] at hs
    by_cases hid : certResp.certReqID ∈ ids
    · have hcheck : checkCertReqID certResp ids = none := if_pos hid
      rw [hcheck] at hs
      obtain ⟨tr2, tr3, polled, rfl, h2, hk⟩ := hs.of_bind
      have hpoll := pollLoop_steps h2
      split at hk
      · next e he =>
        obtain ⟨rfl, ⟨⟩⟩ := hk.of_ret
        rw [List.append_nil]
        exact .inl (.pollFailed hopen hx hst hid hpoll he)
      · next he hnone =>
        obtain ⟨rfl, ⟨⟩⟩ := hk.of_ret
        rw [List.append_nil]
        exact .inl (.panicked hopen hx hst hid hpoll he hnone)
      · next reply' he hsome =>
        obtain ⟨vr', rfl⟩ := hpoll.eq_of_reply he hsome
        split at hk
        · next e hx' =>
          obtain ⟨rfl, ⟨⟩⟩ := hk.of_ret
          rw [List.append_nil]
          exact .inl (.unextractedPolled hopen hx hst hid hpoll hx')
        · next certResp' rep' hx' =>
          rw [← List.append_assoc]
          exact .inr ⟨_, _, reply', vr', _, certResp', rep', rfl,
            .polled hopen hx hst hid hpoll hx', enrollIssued_steps hk⟩
    · have hcheck : checkCertReqID certResp ids = some (.client (str "response certReqId " ++
          decimal certResp.certReqID ++ str " does not match the request")) := if_neg hid
      rw [hcheck] at hs
      obtain ⟨rfl, ⟨⟩⟩ := hs.of_ret
      rw [List.append_nil]
      exact .inl (.unmatched hopen hx hst hid)
  · rw [if_pos hst] at hs
    exact .inr ⟨tr1, tr, reply, vr, _, certResp, rep, rfl, .direct hopen hx hst,
      enrollIssued_steps hs⟩

end

/-- **The course of an enrollment.** -/
theorem enroll_steps {c : Client} {reqBody : PKIBody} {expected : BodyType}
    {creds : Option Credentials} {opts : RequestOptions} {requestedKey : Option PublicKey}
    {tr : ClientHistory} {out : EnrollOutcome}
    (hs : Prog.Steps (c.enroll reqBody expected creds opts requestedKey) tr (.ret out)) :
    c.Enrolls reqBody expected opts requestedKey creds tr out := by
  unfold enroll at hs
  split at hs
  · next e hids =>
    obtain ⟨rfl, ⟨⟩⟩ := hs.of_ret
    exact .unread hids
  · obtain ⟨rfl, ⟨⟩⟩ := hs.of_ret
    exact .anonymous
  next ids creds hids =>
  obtain ⟨tr0, tr, m, rfl, h0, hk⟩ := hs.of_bind
  cases m with
  | error e =>
    obtain ⟨rfl, ⟨⟩⟩ := hk.of_ret
    rw [List.append_nil]
    exact .unprotected h0
  | ok msg =>
    obtain ⟨tr1, tr2, r, rfl, h1, hk⟩ := hk.of_bind
    obtain ⟨e, hex, rfl⟩ | ⟨reply, vr, e, hex, hv, rfl⟩ | ⟨reply, vr, hopen, rfl⟩ :=
      exchangeFirst_steps h1
    · obtain ⟨rfl, ⟨⟩⟩ := hk.of_ret
      rw [List.append_nil]
      exact .ended hids h0 (.failed hex)
    · obtain ⟨rfl, ⟨⟩⟩ := hk.of_ret
      rw [List.append_nil]
      exact .ended hids h0 (.version hex hv)
    · obtain hend | ⟨trᵣ, trₑ, reply', vr', signer, certResp, rep, heq, hrep, hcon⟩ :=
        enrollReply_steps hopen hk
      · exact .ended hids h0 hend
      · rw [heq]
        exact .concluded hids h0 hrep hcon

/-! ### Revocation -/

/-- Everything that `SendRR` can do once it has its first message. -/
inductive Revokes (msg : PKIMessage) (creds : Credentials) :
    ClientHistory → Option (Option GoError) → Prop
  | failed {tr : ClientHistory} {e : GoError}
      (h : c.Exchanges firstExchange msg creds c.trustedCAs none (fun _ => none) tr (.error e)) :
      Revokes msg creds tr (some (some e))
  | version {tr : ClientHistory} {reply : CmpHTTPResponse} {vr : VerifyResult} {e : GoError}
      (h : c.Exchanges firstExchange msg creds c.trustedCAs none (fun _ => none) tr
        (.ok (reply, vr))) (hv : checkVersion reply = some e) :
      Revokes msg creds tr (some (some e))
  | answered {tr : ClientHistory} {reply : CmpHTTPResponse} {vr : VerifyResult}
      (hopen : c.Opens msg creds tr reply vr) (ht : reply.message.body.type ≠ BodyTypeError) :
      Revokes msg creds tr (some (revocationReply reply))
  | errored {tr : ClientHistory} {reply : CmpHTTPResponse} {vr : VerifyResult}
      (hopen : c.Opens msg creds tr reply vr) (ht : reply.message.body.type = BodyTypeError) :
      Revokes msg creds tr (some (wrapError reply.statusCode (parseErrorResponse reply.message)))
  | pollFailed {tr1 tr2 : ClientHistory} {reply : CmpHTTPResponse} {vr : VerifyResult}
      {polled : PollResult} {e : GoError} (hopen : c.Opens msg creds tr1 reply vr)
      (hpoll : c.Polls msg.header creds (-1) c.maxPolls.toNat reply.message
        vr.protectionCertificate tr2 polled) (he : polled.err = some e)
      (hwait : parseErrorResponse reply.message ≠ none) :
      Revokes msg creds (tr1 ++ tr2) (some (some e))
  | panicked {tr1 tr2 : ClientHistory} {reply : CmpHTTPResponse} {vr : VerifyResult}
      {polled : PollResult} (hopen : c.Opens msg creds tr1 reply vr)
      (hpoll : c.Polls msg.header creds (-1) c.maxPolls.toNat reply.message
        vr.protectionCertificate tr2 polled) (he : polled.err = none) (hr : polled.reply = none)
      (hwait : parseErrorResponse reply.message ≠ none) : Revokes msg creds (tr1 ++ tr2) none
  | polled {tr1 tr2 : ClientHistory} {first reply : CmpHTTPResponse} {vr1 vr : VerifyResult}
      (hopen : c.Opens msg creds tr1 first vr1)
      (hpoll : c.Polls msg.header creds (-1) c.maxPolls.toNat first.message
        vr1.protectionCertificate tr2 { reply := some reply, verified := some vr })
      (hwait : parseErrorResponse first.message ≠ none) :
      Revokes msg creds (tr1 ++ tr2) (some (revocationReply reply))

lemma revocationFirst_steps {c : Client} {msg : PKIMessage} {creds : Credentials}
    {reply : CmpHTTPResponse} {vr : VerifyResult} {tr1 tr : ClientHistory}
    {out : Option (Option GoError)} (hopen : c.Opens msg creds tr1 reply vr)
    (hs : Prog.Steps (c.revocationFirst msg creds reply vr) tr (.ret out)) :
    c.Revokes msg creds (tr1 ++ tr) out := by
  unfold revocationFirst at hs
  dsimp only at hs
  split_ifs at hs with ht hwait
  · obtain ⟨rfl, ⟨⟩⟩ := hs.of_ret
    rw [List.append_nil]
    exact .answered hopen ht
  · obtain ⟨rfl, ⟨⟩⟩ := hs.of_ret
    rw [List.append_nil]
    exact .errored hopen (not_not.mp ht)
  · have hne : parseErrorResponse reply.message ≠ none := fun hnone => by simp [hnone] at hwait
    obtain ⟨tr2, tr3, polled, rfl, h2, hk⟩ := hs.of_bind
    have hpoll := pollLoop_steps h2
    split at hk
    · next e he =>
      obtain ⟨rfl, ⟨⟩⟩ := hk.of_ret
      rw [List.append_nil]
      exact .pollFailed hopen hpoll he hne
    · next he hnone =>
      obtain ⟨rfl, ⟨⟩⟩ := hk.of_ret
      rw [List.append_nil]
      exact .panicked hopen hpoll he hnone hne
    · next reply' he hsome =>
      obtain ⟨vr', rfl⟩ := hpoll.eq_of_reply he hsome
      obtain ⟨rfl, ⟨⟩⟩ := hk.of_ret
      rw [List.append_nil]
      exact .polled hopen hpoll hne

/-- **The course of a revocation**: it fails before anything is sent, or follows
`Revokes`. -/
theorem sendRR_steps {c : Client} {cert : Option Certificate} {reason : ℤ}
    {creds : Option Credentials} {opts : RequestOptions} {tr : ClientHistory}
    {out : Option (Option GoError)}
    (hs : Prog.Steps (c.sendRR cert reason creds opts) tr (.ret out)) :
    (∃ e, newRevDetails cert reason = .error e ∧ tr = [] ∧
      out = some (some (.clientWrapped (str "build revocation request") e))) ∨
    (creds = none ∧ tr = [] ∧ out = some (some noCredentials)) ∨
    ∃ details k, newRevDetails cert reason = .ok details ∧ creds = some k ∧
      ((∃ e, Prog.Steps (c.newRequest (.rr [details]) k opts) tr (.ret (.error e)) ∧
          out = some (some e)) ∨
        ∃ tr0 tr1 msg, tr = tr0 ++ tr1 ∧
          Prog.Steps (c.newRequest (.rr [details]) k opts) tr0 (.ret (.ok msg)) ∧
          c.Revokes msg k tr1 out) := by
  unfold sendRR at hs
  split at hs
  · next e hdetails =>
    obtain ⟨rfl, ⟨⟩⟩ := hs.of_ret
    exact .inl ⟨e, hdetails, rfl, rfl⟩
  · obtain ⟨rfl, ⟨⟩⟩ := hs.of_ret
    exact .inr (.inl ⟨rfl, rfl, rfl⟩)
  next details k hdetails =>
  obtain ⟨tr0, tr, m, rfl, h0, hk⟩ := hs.of_bind
  refine .inr (.inr ⟨details, k, hdetails, rfl, ?_⟩)
  cases m with
  | error e =>
    obtain ⟨rfl, ⟨⟩⟩ := hk.of_ret
    rw [List.append_nil]
    exact .inl ⟨e, h0, rfl⟩
  | ok msg =>
    obtain ⟨tr1, tr2, r, rfl, h1, hk⟩ := hk.of_bind
    refine .inr ⟨tr0, _, msg, rfl, h0, ?_⟩
    obtain ⟨e, hex, rfl⟩ | ⟨reply, vr, e, hex, hv, rfl⟩ | ⟨reply, vr, hopen, rfl⟩ :=
      exchangeFirst_steps h1
    · obtain ⟨rfl, ⟨⟩⟩ := hk.of_ret
      rw [List.append_nil]
      exact .failed hex
    · obtain ⟨rfl, ⟨⟩⟩ := hk.of_ret
      rw [List.append_nil]
      exact .version hex hv
    · exact revocationFirst_steps hopen hk

end Client

end PkiCmp
