/-
The certReqId of a request in the answers of its transaction (`certReqIDFromRequest`
and `handlePollReq` of `server/response.go`, `parseCRMFMsg` of
`server/certrequest.go`).

* `PKIBody.certReqIDs`: the certReqIds that a response carries;
* `Exchange`: a message with its answer and all that happened in between;
* `certReqIDs_of_call`: what the answers to a request or a poll carry;
* `certReqID_kept_iff`: the certReqId is kept in a transaction exactly when the
  request can be parsed and every poll repeats it, errors apart.
-/
import PkiCmp.Server.Delivery

namespace PkiCmp

open Der Interact

/-- The certReqIds of an ip, cp, kup or pollRep. -/
def PKIBody.certReqIDs : PKIBody → List ℤ
  | .ip m | .cp m | .kup m => m.response.map CertResponse.certReqID
  | .pollRep items => items.map PollRepItem.certReqID
  | _ => []

namespace Server

lemma certReqIDs_certRepBody (certReqID : ℤ) (si : PKIStatusInfo) (cert : Option Certificate)
    (caCerts : List Certificate) (reqType : RequestType) :
    (certRepBody certReqID si cert caCerts reqType).certReqIDs = [certReqID] := by
  cases reqType <;> rfl

/-- The certReqIds that a response carries, if there is one. -/
def idsOf (resp : Option PKIMessage) : List ℤ := (resp.map fun p => p.body.certReqIDs).getD []

lemma IsRefusal.idsOf {resp : Option PKIMessage} (h : IsRefusal resp) : idsOf resp = [] := by
  obtain ⟨p, c, rfl, hbody⟩ := h
  simp [Server.idsOf, hbody, PKIBody.certReqIDs]

/-- A response carries the certReqIds it was built with, or it is the error about the
protection. -/
lemma Answers.idsOf {srv : Server} {s : Option SenderIdentity} {tr : History}
    {req p : PKIMessage} {body : PKIBody} (h : srv.Answers s tr req body p) :
    idsOf (some p) = [] ∨ idsOf (some p) = body.certReqIDs := by
  obtain hb | ⟨p', rfl⟩ := h.cases
  · right
    rw [← hb]
    rfl
  · exact .inl rfl

lemma Agreed.idsOf {ok : Bool} {built : PKIMessage} {tr : History} {resp : Option PKIMessage}
    (h : Agreed ok built tr resp) : idsOf resp = [] ∨ idsOf resp = idsOf (some built) := by
  cases ok with
  | true =>
    obtain ⟨-, rfl⟩ := h
    exact .inr rfl
  | false => exact .inl h.2.idsOf

/-! ### One message -/

section

variable {srv : Server} {msg q : PKIMessage} {s : SenderIdentity} {credID : Bytes} {tr : History}
variable {resp : Option PKIMessage} {ctx : Ctx} {r : HandlerResult}

/-- The answer carries no certReqId but the given one. -/
lemma Concludes.idsOf {reqType : RequestType} {certReqID : ℤ} {txn : Option ℕ}
    (h : srv.Concludes q s credID reqType certReqID txn r tr resp) :
    idsOf resp = [] ∨ idsOf resp = [certReqID] := by
  have hrep : ∀ {si : PKIStatusInfo} {cert : Option Certificate} {caCerts : List Certificate}
      {tr : History} {p : PKIMessage},
      srv.Answers s tr q (certRepBody certReqID si cert caCerts reqType) p →
      Server.idsOf (some p) = [] ∨ Server.idsOf (some p) = [certReqID] := by
    intro si cert caCerts tr p ha
    rw [← certReqIDs_certRepBody certReqID si cert caCerts reqType]
    exact ha.idsOf
  have hagreed : ∀ {ok : Bool} {built : PKIMessage} {tr : History} {resp : Option PKIMessage},
      (Server.idsOf (some built) = [] ∨ Server.idsOf (some built) = [certReqID]) →
      Agreed ok built tr resp → Server.idsOf resp = [] ∨ Server.idsOf resp = [certReqID] := by
    intro ok built tr resp hbuilt h
    obtain h | h := h.idsOf
    · exact .inl h
    · rw [h]
      exact hbuilt
  cases h with
  | refused _ hbody _ ha =>
    obtain rfl | rfl := hbody
    · exact .inl (ha.idsOf.elim id id)
    · exact hrep ha
  | dropped _ _ => exact .inl rfl
  | waiting _ _ _ hbody _ ha _ h2 =>
    refine hagreed ?_ h2
    obtain rfl | ⟨item, rfl, rfl⟩ := hbody
    · exact hrep ha
    · exact ha.idsOf
  | bare _ _ _ _ ha => exact hrep ha.answers
  | implicit _ _ _ _ _ ha _ _ => exact hrep ha.answers
  | issued _ _ _ _ _ ha _ h2 => exact hagreed (hrep ha.answers) h2

/-- Without a call of the handler for a certificate, the answer carries no certReqId. -/
lemma Served.idsOf (h : srv.Served q s credID tr resp) :
    idsOf resp = [] ∨ ∃ ctx r, ⟨.handleCMP ctx q s, r⟩ ∈ tr ∧ AsksForCertificate q := by
  cases h with
  | refused _ _ hresp => exact .inl hresp.idsOf
  | acknowledged _ _ ha => exact .inl (ha.idsOf.elim id id)
  | busy _ _ _ hresp => exact .inl hresp.idsOf
  | request hq _ _ =>
    exact .inr ⟨_, _, List.mem_cons_of_mem _ List.mem_cons_self, .inl hq⟩
  | poll hq _ _ _ _ _ =>
    exact .inr ⟨_, _, List.mem_cons_of_mem _ (List.mem_append_right _ List.mem_cons_self), .inr hq⟩
  | lost _ => exact .inl rfl
  | confirm _ _ _ h1 _ ha =>
    refine .inl ?_
    split at h1
    · rw [h1.2] at ha
      exact ha.idsOf.elim id id
    · rw [h1.1] at ha
      exact ha.idsOf.elim id id
  | revoke _ _ hbody ha _ =>
    obtain ⟨_, _, rfl⟩ | ⟨_, _, rfl⟩ := hbody
    · exact .inl (ha.idsOf.elim id id)
    · exact .inl (ha.idsOf.elim id id)

/-- **The certReqId of an answer** to a request or a poll, if it carries one. -/
lemma idsOf_of_call (hh : srv.handler = .external)
    (hs : Prog.Steps (srv.processMessage msg) tr (.ret resp))
    (hcall : ⟨.handleCMP ctx q s, r⟩ ∈ tr) (hq : AsksForCertificate q) :
    idsOf resp = [] ∨ idsOf resp = [srv.answeredID q] := by
  obtain ⟨tr1, tr2, rfl⟩ := List.append_of_mem hcall
  obtain ⟨-, _, -, ⟨-, hset⟩ | ⟨hn, -, -⟩⟩ := follows_of_call hh hs
  · exact hset.idsOf
  · exact absurd hq hn

/-- An answer that carries a certReqId was given after the handler was called. -/
lemma call_of_idsOf (hh : srv.handler = .external)
    (hs : Prog.Steps (srv.processMessage msg) tr (.ret resp)) :
    idsOf resp = [] ∨ ∃ ctx q s r, ⟨.handleCMP ctx q s, r⟩ ∈ tr ∧ AsksForCertificate q := by
  cases course_of_steps hs with
  | refused _ hresp => exact .inl hresp.idsOf
  | locked _ _ _ _ _ _ _ hresp => exact .inl hresp.idsOf
  | started _ _ hcred _ _ h2 =>
    obtain h | ⟨ctx, r, hcall, hq⟩ := (served_of_steps hh hcred h2).idsOf
    · exact .inl h
    · exact .inr ⟨ctx, _, _, r, List.mem_append_right _ (List.mem_append_right _ hcall), hq⟩
  | followed _ _ hcred _ h1 =>
    obtain h | ⟨ctx, r, hcall, hq⟩ := (served_of_steps hh hcred h1).idsOf
    · exact .inl h
    · exact .inr ⟨ctx, _, _, r, List.mem_append_right _ hcall, hq⟩

end

/-! ### The certReqId of a request -/

/-- The certReqIds that the answers to a certificate request may carry: the one of its
only `CertReqMsg`; a PKCS #10 request has none, and stands for -1 or 0. -/
def Declares (q : PKIMessage) (ids : Set ℤ) : Prop :=
  (q.body.type = BodyTypeP10CR ∧ ids = {-1, 0}) ∨
    ∃ req, crmfMessages q = some (.ok [req]) ∧ ids = {req.certReq.certReqID}

lemma parseCRMFMsg_certReqID {cr : Crypto} {q : PKIMessage} {req : CertReqMsg} {crmf : ParsedCRMF}
    (hreq : crmfMessages q = some (.ok [req])) (h : parseCRMFMsg cr q = .ok crmf) :
    crmf.certReqID = req.certReq.certReqID := by
  rw [parseCRMFMsg, hreq] at h
  obtain ⟨publicKey, -, h⟩ := Except.bind_eq_ok.mp h
  obtain ⟨extensions, -, h⟩ := Except.bind_eq_ok.mp h
  cases h
  rfl

/-- The server finds the certReqId of a request when it can parse all of it; otherwise
it takes 0. -/
lemma certReqIDFromRequest_mem_iff (srv : Server) {q : PKIMessage} {ids : Set ℤ}
    (hids : Declares q ids) :
    srv.certReqIDFromRequest q ∈ ids ↔ q.body.type = BodyTypeP10CR ∨
      (∃ crmf, parseCRMFMsg srv.crypto q = .ok crmf) ∨ 0 ∈ ids := by
  unfold certReqIDFromRequest
  obtain ⟨htype, rfl⟩ | ⟨req, hreq, rfl⟩ := hids
  · simp [htype]
  · have htype : q.body.type ≠ BodyTypeP10CR := by
      intro h
      rw [crmfMessages, h, if_neg (by decide), if_neg (by decide), if_neg (by decide)] at hreq
      cases hreq
    rw [if_neg htype]
    cases hparse : parseCRMFMsg srv.crypto q with
    | ok crmf => simp [parseCRMFMsg_certReqID hreq hparse]
    | error e => simp [htype]

/-! ### Transactions -/

/-- A message with its answer, and all that happened in between. -/
structure Exchange (srv : Server) where
  msg : PKIMessage
  trace : History
  response : Option PKIMessage
  steps : Prog.Steps (srv.processMessage msg) trace (.ret response)

/-- The message has found an entry of the transaction under its key. -/
def Exchange.OfTransaction {srv : Server} (e : srv.Exchange) (txn : ℕ) : Prop :=
  ∃ site key c, ⟨.load site key, some c⟩ ∈ e.trace ∧ c.txn = txn

/-- What the answer carries is allowed exactly when what the message asks for is. -/
lemma Exchange.ids_allowed_iff {srv : Server} (hh : srv.handler = .external) (e : srv.Exchange)
    (ids : Set ℤ) :
    (∀ id ∈ idsOf e.response, id ∈ ids) ↔ idsOf e.response = [] ∨
      ∀ ctx q s r, ⟨.handleCMP ctx q s, r⟩ ∈ e.trace → AsksForCertificate q →
        srv.answeredID q ∈ ids := by
  constructor
  · intro hall
    by_cases hnil : idsOf e.response = []
    · exact .inl hnil
    · refine .inr fun ctx q s r hcall hq => ?_
      obtain h | h := idsOf_of_call hh e.steps hcall hq
      · exact absurd h hnil
      · rw [h] at hall
        exact hall _ (List.mem_singleton_self _)
  · rintro (hnil | hall)
    · rw [hnil]
      exact List.forall_mem_nil _
    · obtain hnil | ⟨ctx, q, s, r, hcall, hq⟩ := call_of_idsOf hh e.steps
      · rw [hnil]
        exact List.forall_mem_nil _
      · obtain h | h := idsOf_of_call hh e.steps hcall hq
        · rw [h]
          exact List.forall_mem_nil _
        · rw [h]
          exact List.forall_mem_singleton.mpr (hall ctx q s r hcall hq)

/-- **The certReqId of a request** is kept in all answers of its transaction exactly when
the request is answered by an error or can be parsed completely, and every later message
of the transaction is answered by an error or repeats the certReqId. -/
theorem certReqID_kept_iff (srv : Server) (hh : srv.handler = .external) (first : srv.Exchange)
    (rest : List srv.Exchange) (txn : ℕ) (hfirst : first.OfTransaction txn) (ctx : Ctx)
    (q : PKIMessage) (s : SenderIdentity) (r : HandlerResult)
    (hcall : ⟨.handleCMP ctx q s, r⟩ ∈ first.trace) (hq : isCertRequest q.body.type) (ids : Set ℤ)
    (hids : Declares q ids) :
    (∀ e ∈ first :: rest, e.OfTransaction txn → ∀ id ∈ idsOf e.response, id ∈ ids) ↔
      (idsOf first.response = [] ∨ q.body.type = BodyTypeP10CR ∨
        (∃ crmf, parseCRMFMsg srv.crypto q = .ok crmf) ∨ 0 ∈ ids) ∧
      ∀ e ∈ rest, e.OfTransaction txn → idsOf e.response = [] ∨
        ∀ ctx q s r, ⟨.handleCMP ctx q s, r⟩ ∈ e.trace → AsksForCertificate q →
          srv.answeredID q ∈ ids := by
  have hanswered : srv.answeredID q = srv.certReqIDFromRequest q := by
    refine if_neg fun hpoll => ?_
    rw [hpoll] at hq
    exact absurd hq (by decide)
  have hone : (∀ id ∈ idsOf first.response, id ∈ ids) ↔ idsOf first.response = [] ∨
      srv.certReqIDFromRequest q ∈ ids := by
    obtain h | h := idsOf_of_call hh first.steps hcall (.inl hq)
    · simp [h]
    · simp [h, hanswered]
  rw [List.forall_mem_cons, ← certReqIDFromRequest_mem_iff srv hids, ← hone]
  refine and_congr ⟨fun h => h hfirst, fun h _ => h⟩ (forall₂_congr fun e _ => ?_)
  exact imp_congr_right fun _ => e.ids_allowed_iff hh ids

/-! ### Concrete runs -/

/-- A request with certReqId 7. -/
def requestSeven (tmpl : CertTemplate) : PKIMessage :=
  sampleReceived (.cr [{ certReq := { certReqID := 7, certTemplate := tmpl } }]) []

/-- A handler that asks to wait. -/
def askToWait : HandlerResult := { response := some { waiting := some ⟨0, [], [1]⟩ } }

/-- The request is processed with the given result of the handler, and then the poll with
the certificate as the result. -/
def pollAfter (tmpl : CertTemplate) (result : HandlerResult) (ids : List ℤ) :
    Option (List ServerTurn × Tracker) :=
  recordTurns exec
    [(sampleServer.processMessage (requestSeven tmpl), fun _ => { sampleOracle 1 with result }),
     (sampleServer.processMessage (sampleReceived (.pollReq ids) (List.replicate 16 0)),
      fun _ => sampleOracle 2)] {}

/-- The event finds an entry of the first transaction. -/
def loadsFirst : ServerEvent → Bool
  | ⟨.load _ _, c⟩ => Option.any (fun c : Cell => c.txn = 0) c
  | _ => false

/-- The event is a call of the handler with a request for the certReqId 7. -/
def callsSeven : ServerEvent → Bool
  | ⟨.handleCMP _ q _, _⟩ => isCertRequest q.body.type &&
      match crmfMessages q with
      | some (.ok [req]) => req.certReq.certReqID = 7
      | _ => false
  | _ => false

lemma declares_of_callsSeven {tr : History} (h : tr.any callsSeven) :
    ∃ ctx q s r, ⟨.handleCMP ctx q s, r⟩ ∈ tr ∧ isCertRequest q.body.type ∧ Declares q {7} := by
  obtain ⟨⟨o, r⟩, he, hcall⟩ := List.any_eq_true.mp h
  cases o with
  | handleCMP ctx q s =>
    obtain ⟨hq, hreq⟩ := Bool.and_eq_true_iff.mp hcall
    refine ⟨ctx, q, s, r, he, hq, .inr ?_⟩
    split at hreq
    · next req hmsgs => exact ⟨req, hmsgs, by rw [of_decide_eq_true hreq]⟩
    · cases hreq
  | _ => cases hcall

lemma ofTransaction_of_loadsFirst {srv : Server} {e : srv.Exchange} (h : e.trace.any loadsFirst) :
    e.OfTransaction 0 := by
  obtain ⟨⟨o, x⟩, he, hload⟩ := List.any_eq_true.mp h
  cases o with
  | load site key =>
    obtain ⟨c, rfl, hc⟩ := (Option.any_eq_true _ _).mp hload
    exact ⟨site, key, c, he, of_decide_eq_true hc⟩
  | _ => cases hload

/-- Two exchanges of one transaction that starts with a request for certReqId 7. -/
lemma exists_exchanges_of_pollAfter (tmpl : CertTemplate) (result : HandlerResult) (ids : List ℤ)
    (f : List ℤ → List ℤ → Bool)
    (h : (pollAfter tmpl result ids).any (fun (ts, _) => match ts with
      | [t, t'] => t.trace.any loadsFirst && t.trace.any callsSeven && t'.trace.any loadsFirst &&
          f (idsOf t.result) (idsOf t'.result)
      | _ => false) = true) :
    ∃ first second : sampleServer.Exchange, first.OfTransaction 0 ∧ second.OfTransaction 0 ∧
      (∃ ctx q s r, ⟨.handleCMP ctx q s, r⟩ ∈ first.trace ∧ isCertRequest q.body.type ∧
        Declares q {7}) ∧
      f (idsOf first.response) (idsOf second.response) = true := by
  obtain ⟨⟨ts, m'⟩, hrun, h⟩ := (Option.any_eq_true _ _).mp h
  obtain ⟨hturns, hprogs⟩ := turns_of_recordTurns hrun
  dsimp only at h
  split at h
  · next t t' =>
    simp only [Bool.and_eq_true] at h
    obtain ⟨⟨⟨hload, hseven⟩, hload'⟩, hf⟩ := h
    obtain ⟨hp, hp'⟩ : t.prog = sampleServer.processMessage (requestSeven tmpl) ∧ t'.prog =
        sampleServer.processMessage (sampleReceived (.pollReq ids) (List.replicate 16 0)) := by
      simpa using hprogs
    cases hturns with
    | cons ht hturns =>
      cases hturns with
      | cons ht' _ =>
        exact ⟨⟨_, t.trace, t.result, hp ▸ ht.steps⟩, ⟨_, t'.trace, t'.result, hp' ▸ ht'.steps⟩,
          ofTransaction_of_loadsFirst hload, ofTransaction_of_loadsFirst hload',
          declares_of_callsSeven hseven, hf⟩
  · cases h

/-- A request for certReqId 7 is answered with 7, and the certificate after a poll with an
empty list comes with 0; a request for certReqId 7 with extensions that cannot be parsed is
refused with 0. -/
theorem certReqID_lost :
    (∃ first second : sampleServer.Exchange, first.OfTransaction 0 ∧ second.OfTransaction 0 ∧
      (∃ ctx q s r, ⟨.handleCMP ctx q s, r⟩ ∈ first.trace ∧ isCertRequest q.body.type ∧
        Declares q {7}) ∧
      idsOf first.response = [7] ∧ idsOf second.response = [0]) ∧
    ∃ first : sampleServer.Exchange, first.OfTransaction 0 ∧
      (∃ ctx q s r, ⟨.handleCMP ctx q s, r⟩ ∈ first.trace ∧ isCertRequest q.body.type ∧
        Declares q {7}) ∧ idsOf first.response = [0] := by
  constructor
  · obtain ⟨first, second, h1, h2, h3, hids⟩ := exists_exchanges_of_pollAfter {} askToWait []
      (fun ids ids' => ids = [7] && ids' = [0]) (by decide +kernel)
    obtain ⟨hfirst, hsecond⟩ := Bool.and_eq_true_iff.mp hids
    exact ⟨first, second, h1, h2, h3, of_decide_eq_true hfirst, of_decide_eq_true hsecond⟩
  · obtain ⟨first, -, h1, -, h3, hids⟩ := exists_exchanges_of_pollAfter
      { extensions := [0x30, 0x03, 0x02, 0x01, 0x00] }
      (.refuse (rejection FailBadCertTemplate [])) [] (fun ids _ => ids = [0]) (by decide +kernel)
    exact ⟨first, h1, h3, of_decide_eq_true hids⟩

/-- A poll that repeats the certReqId keeps it. -/
theorem certReqID_kept_by_poll :
    ∃ first second : sampleServer.Exchange, first.OfTransaction 0 ∧ second.OfTransaction 0 ∧
      idsOf second.response = [7] ∧
      ∀ ctx q s r, ⟨.handleCMP ctx q s, r⟩ ∈ second.trace → AsksForCertificate q →
        sampleServer.answeredID q ∈ ({7} : Set ℤ) := by
  obtain ⟨first, second, h1, h2, ⟨ctx, q, s, r, hcall, hq, hids⟩, h⟩ :=
    exists_exchanges_of_pollAfter {} askToWait [7] (fun ids ids' => ids = [7] && ids' = [7])
      (by decide +kernel)
  obtain ⟨hfirst, hsecond⟩ := Bool.and_eq_true_iff.mp h
  have hsecond : idsOf second.response = [7] := of_decide_eq_true hsecond
  have hkept :
      ∀ e ∈ [first, second], e.OfTransaction 0 → ∀ id ∈ idsOf e.response, id ∈ ({7} : Set ℤ) := by
    simp [of_decide_eq_true hfirst, hsecond]
  obtain ⟨-, hpolls⟩ := (certReqID_kept_iff sampleServer rfl first [second] 0 h1 ctx q s r hcall hq
    {7} hids).mp hkept
  obtain hnil | hpolls := hpolls second (List.mem_singleton_self _) h2
  · rw [hsecond] at hnil
    cases hnil
  · exact ⟨first, second, h1, h2, hsecond, hpolls⟩

end Server

end PkiCmp
