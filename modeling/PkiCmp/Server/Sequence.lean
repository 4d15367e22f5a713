/-
Messages processed one after the other: what one message does to the tracker.

* `Tracker.start`, `Tracker.charge`: a transaction is started or given up;
* `Conclusion`: what the result of the handler makes of the entry of its transaction;
* `Processed`: everything one message can do to the tracker when no other thread gets
  in its way;
* `processed_of_runs`: every message processed alone is one of these;
* `refused_without_trace`: a message that the handler does not see, or that it refuses,
  leaves no more behind than the transaction it was entitled to start.
-/
import PkiCmp.Server.Serving
import PkiCmp.Server.Memory

namespace PkiCmp

open Der Interact

namespace Tracker

/-- Both counters of a credential's transactions change. -/
def charge (t : Tracker) (ck : CredentialKey) (delta : ℤ) : Tracker :=
  { t with count := t.count + delta }.addCredCount ck delta

/-- The entry that a transaction starts with. -/
def activeEntry (ck : CredentialKey) (now : Time) : TransactionEntry :=
  { state := .active, lastActivity := now, credentialKey := ck }

/-- A transaction is started under a key. -/
def start (t : Tracker) (key : TransactionKey) (ck : CredentialKey) (now : Time) : Tracker :=
  (t.charge ck 1).publish key (activeEntry ck now) t.nextPtr

@[simp] lemma cell_charge (t : Tracker) (ck : CredentialKey) (delta : ℤ) (key : TransactionKey) :
    (t.charge ck delta).cell key = t.cell key := rfl

/-- What is charged can be given back. -/
lemma charge_charge_neg (t : Tracker) (ck : CredentialKey) :
    (t.charge ck 1).charge ck (-1) = t := by
  obtain ⟨transactions, count, credentialCounts, nextPtr⟩ := t
  simp [charge, addCredCount]

lemma cell_start (t : Tracker) (key key' : TransactionKey) (ck : CredentialKey) (now : Time) :
    (t.start key ck now).cell key' =
      if key' = key then some ⟨t.nextPtr, t.nextPtr, activeEntry ck now⟩ else t.cell key' :=
  cell_publish _ _ _ _ _

end Tracker

/-! ### Operations that leave the tracker alone -/

/-- The operations that touch neither the map nor a counter. -/
def Effect.Still : Effect → Prop
  | .random | .now | .seal .. | .verifier | .authorizeRA .. | .load .. | .handleCMP ..
  | .confirmCertificate .. | .range => True
  | _ => False

lemma Effect.Around.still {o : Effect} (h : o.Around) : o.Still := by
  cases o <;> trivial

lemma Effect.Building.still {o : Effect} (h : o.Building) : o.Still := h.around.still

lemma Effect.Looking.still {o : Effect} (h : o.Looking) : o.Still := by
  cases o <;> trivial

lemma eq_of_still {tr : History} {m m' : Tracker} (hd : Does exec m tr m')
    (h : Within Effect.Still tr) : m' = m := by
  refine hd.eq_of_forall (fun o c m x m' ho hx => ?_) h
  cases o <;> first | exact ho.elim | (cases hx; rfl)

lemma eq_of_around {tr : History} {m m' : Tracker} (hd : Does exec m tr m')
    (h : Within Effect.Around tr) : m' = m := eq_of_still hd (h.mono fun _ => Effect.Around.still)

lemma eq_of_building {tr : History} {m m' : Tracker} (hd : Does exec m tr m')
    (h : Within Effect.Building tr) : m' = m :=
  eq_of_still hd (h.mono fun _ => Effect.Building.still)

/-! ### The methods of the tracker -/

namespace TrackerConfig

variable {t : TrackerConfig} {tr : History} {m m' : Tracker}

/-- A refused start gives its units back. -/
lemma giveBack_runs {ck : CredentialKey} {a r : Except GoError Bool}
    (h : Prog.Runs exec (.op (.credCountAdd ck (-1)) fun _ => .op (.countAdd (-1)) fun _ => .ret a)
      (m.charge ck 1) tr r m') : r = a ∧ m' = m := by
  obtain ⟨n, tr, _, m1, rfl, hx, h⟩ := Prog.runs_op_iff.mp h
  cases hx
  obtain ⟨n, tr, _, m1, rfl, hx, h⟩ := Prog.runs_op_iff.mp h
  cases hx
  obtain ⟨-, rfl, rfl⟩ := Prog.runs_ret_iff.mp h
  exact ⟨rfl, m.charge_charge_neg ck⟩

/-- `startIfAbsent` starts a transaction where there is none, or changes nothing. -/
lemma startIfAbsent_runs {credID txID : Bytes} {r : Except GoError Bool}
    (h : (t.startIfAbsent credID txID).Runs exec m tr r m') :
    (r ≠ .ok false ∧ m' = m) ∨ (r = .ok false ∧ m.cell (t.makeKey credID txID) = none ∧
      ∃ now, ⟨.now, now⟩ ∈ tr ∧
        m' = m.start (t.makeKey credID txID) (t.makeCredentialKey credID) now) := by
  simp only [startIfAbsent, perform, Prog.call_bind] at h
  obtain ⟨n, tr, c, m1, rfl, hx, h⟩ := Prog.runs_op_iff.mp h
  cases hx
  split_ifs at h
  · obtain ⟨n', tr, c', m2, rfl, hx, h⟩ := Prog.runs_op_iff.mp h
    cases hx
    obtain ⟨rfl, rfl, rfl⟩ := Prog.runs_ret_iff.mp h
    refine .inl ⟨(fun h => by cases h), ?_⟩
    cases m
    simp
  · obtain ⟨u, tr, c', m2, rfl, hx, h⟩ := Prog.runs_op_iff.mp h
    cases hx
    obtain ⟨n', tr, c', m2, rfl, hx, h⟩ := Prog.runs_op_iff.mp h
    cases hx
    split_ifs at h
    · obtain ⟨rfl, rfl⟩ := giveBack_runs h
      exact .inl ⟨(fun h => by cases h), rfl⟩
    · obtain ⟨now, tr, clock, m2, rfl, hx, h⟩ := Prog.runs_op_iff.mp h
      cases hx
      obtain ⟨loaded, tr, c', m2, rfl, hx, h⟩ := Prog.runs_op_iff.mp h
      simp only [exec] at hx
      split_ifs at hx with hsome
      · cases hx
        obtain ⟨rfl, rfl⟩ := giveBack_runs h
        exact .inl ⟨(fun h => by cases h), rfl⟩
      · cases hx
        obtain ⟨rfl, rfl, rfl⟩ := Prog.runs_ret_iff.mp h
        refine .inr ⟨rfl, Option.not_isSome_iff_eq_none.mp hsome, clock.time, by simp, rfl⟩

/-- `setPending` and `setIssued` replace an open entry. -/
lemma replaceOpen_runs {site : Site} {key : TransactionKey} {entry : Time → TransactionEntry}
    {ok : Bool} (h : (replaceOpen site key entry).Runs exec m tr ok m') {c : Cell}
    (hc : m.cell key = some c) (hopen : c.entry.isOpen) :
    ok = true ∧ ∃ now, ⟨.now, now⟩ ∈ tr ∧ m' = m.publish key (entry now) c.txn := by
  simp only [replaceOpen, perform, Prog.call_bind] at h
  obtain ⟨old, tr, _, m1, rfl, hx, h⟩ := Prog.runs_op_iff.mp h
  cases hx
  rw [hc] at h
  have hstate : ¬ (c.entry.state ≠ .active ∧ c.entry.state ≠ .pending) := by
    simp only [TransactionEntry.isOpen, Bool.or_eq_true, decide_eq_true_eq] at hopen
    tauto
  simp only [if_neg hstate] at h
  obtain ⟨now, tr, clock, m1, rfl, hx, h⟩ := Prog.runs_op_iff.mp h
  cases hx
  obtain ⟨swapped, tr, _, m1, rfl, hx, h⟩ := Prog.runs_op_iff.mp h
  simp only [exec, hc, if_true] at hx
  cases hx
  obtain ⟨rfl, rfl, rfl⟩ := Prog.runs_ret_iff.mp h
  exact ⟨rfl, clock.time, by simp, rfl⟩

/-- `setCompleted` succeeds at its first attempt. -/
lemma complete_runs {key : TransactionKey} {retries : ℕ}
    (h : (complete key (retries + 1)).Runs exec m tr () m') {c : Cell}
    (hc : m.cell key = some c) :
    ∃ now, m' = m.publish key { c.entry with state := .completed, lastActivity := now } c.txn := by
  simp only [complete, perform, Prog.call_bind] at h
  obtain ⟨old, tr, _, m1, rfl, hx, h⟩ := Prog.runs_op_iff.mp h
  cases hx
  rw [hc] at h
  obtain ⟨now, tr, clock, m1, rfl, hx, h⟩ := Prog.runs_op_iff.mp h
  cases hx
  obtain ⟨swapped, tr, _, m1, rfl, hx, h⟩ := Prog.runs_op_iff.mp h
  simp only [exec, hc, if_true] at hx
  cases hx
  obtain ⟨rfl, -, rfl⟩ := Prog.runs_ret_iff.mp h
  exact ⟨clock.time, rfl⟩

/-- A release gives the units of an entry back. -/
lemma release_runs {ck : CredentialKey} (h : (release ck).Runs exec m tr () m') :
    m' = m.charge ck (-1) := by
  simp only [release, perform, Prog.call_bind] at h
  obtain ⟨n, tr, _, m1, rfl, hx, h⟩ := Prog.runs_op_iff.mp h
  cases hx
  obtain ⟨u, tr, _, m1, rfl, hx, h⟩ := Prog.runs_op_iff.mp h
  cases hx
  obtain ⟨n', tr, _, m1, rfl, hx, h⟩ := Prog.runs_op_iff.mp h
  cases hx
  obtain ⟨rfl, -, rfl⟩ := Prog.runs_ret_iff.mp h
  rfl

/-- `delete` takes the entry out and gives its units back. -/
lemma delete_runs {credID txID : Bytes} {judged : ℕ}
    (h : (t.delete credID txID judged).Runs exec m tr () m') {c : Cell}
    (hc : m.cell (t.makeKey credID txID) = some c) :
    m' = (m.remove (t.makeKey credID txID)).charge c.entry.credentialKey (-1) := by
  simp only [delete, perform, Prog.call_bind] at h
  obtain ⟨v, tr, _, m1, rfl, hx, h⟩ := Prog.runs_op_iff.mp h
  cases hx
  rw [hc] at h
  exact release_runs h

/-- The entry that `setPending` stores. -/
def pendingEntry (t : TrackerConfig) (credID : Bytes) (reqType : RequestType) (w : WaitingResponse)
    (senderNonce : Bytes) (lastPollTime now : Time) : TransactionEntry :=
  { state := .pending, lastActivity := now, credentialKey := t.makeCredentialKey credID, reqType,
    pollRef := w.pollRef, senderNonce, lastPollTime, checkAfter := w.checkAfter }

/-- The entry that `setIssued` stores. -/
def issuedEntry (t : TrackerConfig) (credID : Bytes) (reqType : RequestType) (certReqID : ℤ)
    (cert : Certificate) (issueRef : Option IssueRef) (senderNonce : Bytes) (q : PKIMessage)
    (s : SenderIdentity) (now : Time) : TransactionEntry :=
  { state := .issued, lastActivity := now, credentialKey := t.makeCredentialKey credID, reqType,
    certReqID := some certReqID, cert := some cert, issueRef, issuedSenderNonce := senderNonce,
    clientSenderNonce := q.header.senderNonce, protectionParams := s.protectionParams,
    protectionAlgorithm := q.header.protectionAlg }

end TrackerConfig

namespace Server

/-! ### The entry of a transaction after the handler -/

/-- What the result of the handler makes of the entry `c` of its transaction. -/
inductive Conclusion (srv : Server) (q : PKIMessage) (s : SenderIdentity) (credID : Bytes)
    (c : Cell) (reqType : RequestType) (certReqID : ℤ) (r : HandlerResult) (m : Tracker) :
    History → Option PKIMessage → Tracker → Prop
  /-- an error, no response, or one with neither a certificate nor a wait -/
  | unchanged {tr : History} {resp : Option PKIMessage} (hresp : EmptyHanded resp)
      (hr : r.err = none → ∀ h, r.response = some h → h.waiting = none ∧ h.certificate = none) :
      Conclusion srv q s credID c reqType certReqID r m tr resp m
  | waiting {h : Response} {w : WaitingResponse} {body : PKIBody} {tr0 tr1 : History}
      {built : PKIMessage} {lastPollTime now : Time}
      (herr : r.err = none) (hr : r.response = some h) (hw : h.waiting = some w)
      (hbody : AsksToWait certReqID reqType body) (ha : srv.Answers s tr0 q body built) :
      Conclusion srv q s credID c reqType certReqID r m (tr0 ++ tr1) (some built)
        (m.publish (srv.tracker.makeKey credID q.header.transactionID)
          (srv.tracker.pendingEntry credID reqType w built.header.senderNonce lastPollTime now)
            c.txn)
  | implicit {h : Response} {cert : Certificate} {tr0 tr1 : History} {p : PKIMessage} {now : Time}
      (herr : r.err = none) (hr : r.response = some h) (hw : h.waiting = none)
      (hc : h.certificate = some cert) (hgrants : srv.grants q)
      (ha : srv.CertAnswer s q certReqID { status := StatusAccepted } cert h.caCerts reqType tr0
        p) :
      Conclusion srv q s credID c reqType certReqID r m (tr0 ++ tr1) (some p)
        (m.publish (srv.tracker.makeKey credID q.header.transactionID)
          { c.entry with state := .completed, lastActivity := now } c.txn)
  | issued {h : Response} {cert : Certificate} {tr0 tr1 : History} {built : PKIMessage} {now : Time}
      (herr : r.err = none) (hr : r.response = some h) (hw : h.waiting = none)
      (hc : h.certificate = some cert) (hgrants : ¬ srv.grants q)
      (ha : srv.CertAnswer s q certReqID { status := StatusAccepted } cert h.caCerts reqType tr0
        built)
      (hnow : ⟨.now, now⟩ ∈ tr1) :
      Conclusion srv q s credID c reqType certReqID r m (tr0 ++ tr1) (some built)
        (m.publish (srv.tracker.makeKey credID q.header.transactionID)
          (srv.tracker.issuedEntry credID reqType certReqID cert h.issueRef built.header.senderNonce
            q s now) c.txn)

section

variable {srv : Server} {msg q : PKIMessage} {s : SenderIdentity} {credID : Bytes} {tr : History}
variable {resp : Option PKIMessage} {m m' : Tracker}

/-- When the tracker agrees, the response that was built is sent. -/
lemma Agreed.eq_of_ok {built : PKIMessage} (h : Agreed true built tr resp) :
    tr = [] ∧ resp = some built := h

/-- **The handler's result on the tracker**, when the entry is still open. -/
lemma Concludes.conclusion {reqType : RequestType} {certReqID : ℤ} {txn : Option ℕ}
    {r : HandlerResult} (h : srv.Concludes q s credID reqType certReqID txn r tr resp)
    (hd : Does exec m tr m') {c : Cell}
    (hc : m.cell (srv.tracker.makeKey credID q.header.transactionID) = some c)
    (hopen : c.entry.isOpen) :
    srv.Conclusion q s credID c reqType certReqID r m tr resp m' := by
  cases h with
  | refused herr hbody htr ha =>
    rw [eq_of_building hd htr]
    refine .unchanged (ha.emptyHanded ?_) fun hnone => absurd (herr.symm.trans hnone) nofun
    obtain rfl | rfl := hbody
    · exact List.forall_mem_nil _
    · exact withoutCertificate_certRepBody _ _ _ _
  | dropped _ hr =>
    rw [does_nil_iff.mp hd]
    exact .unchanged nofun fun _ h hsome => absurd (hr.symm.trans hsome) nofun
  | waiting herr hr hw hbody h0 ha h1 h2 =>
    obtain ⟨m0, hd0, hd⟩ := does_append_iff.mp hd
    obtain ⟨m1, hd1, hd2⟩ := does_append_iff.mp hd
    obtain rfl := eq_of_building hd0 h0
    obtain ⟨rfl, now, -, rfl⟩ := TrackerConfig.replaceOpen_runs ⟨h1, hd1⟩ hc hopen
    obtain ⟨rfl, rfl⟩ := h2.eq_of_ok
    rw [does_nil_iff.mp hd2]
    exact .waiting herr hr hw hbody ha
  | bare _ hr hw hcert ha =>
    rw [eq_of_building hd ha.within]
    refine .unchanged (ha.answers.emptyHanded (withoutCertificate_certRepBody _ _ _ _))
      fun _ h hsome => ?_
    obtain rfl := Option.some.inj (hr.symm.trans hsome)
    exact ⟨hw, hcert⟩
  | @implicit _ _ _ _ tr2 _ herr hr hw hcert hgrants ha h1 h2 =>
    obtain ⟨m0, hd0, hd⟩ := does_append_iff.mp hd
    obtain ⟨m1, hd1, hd2⟩ := does_append_iff.mp hd
    obtain rfl := eq_of_building hd0 ha.within
    obtain ⟨now, rfl⟩ := TrackerConfig.complete_runs ⟨h1, hd1⟩ hc
    have hstill : Within Effect.Still tr2 := by
      split_ifs at h2
      · obtain ⟨x, rfl⟩ := h2
        exact .cons trivial .nil
      · subst h2
        exact .nil
    rw [eq_of_still hd2 hstill]
    exact .implicit herr hr hw hcert hgrants ha
  | issued herr hr hw hcert hgrants ha h1 h2 =>
    obtain ⟨m0, hd0, hd⟩ := does_append_iff.mp hd
    obtain ⟨m1, hd1, hd2⟩ := does_append_iff.mp hd
    obtain rfl := eq_of_building hd0 ha.within
    obtain ⟨rfl, now, hnow, rfl⟩ := TrackerConfig.replaceOpen_runs ⟨h1, hd1⟩ hc hopen
    obtain ⟨rfl, rfl⟩ := h2.eq_of_ok
    rw [does_nil_iff.mp hd2, List.append_nil]
    exact .issued herr hr hw hcert hgrants ha hnow

end

/-! ### One message -/

/-- The handler is not called. -/
def NoCall (tr : History) : Prop := ∀ ctx q s r, ⟨.handleCMP ctx q s, r⟩ ∉ tr

/-- Everything that one message can do, when no other thread gets in its way: nothing
at all, unless the handler is called. -/
inductive Processed (srv : Server) (msg : PKIMessage) (m : Tracker) :
    History → Option PKIMessage → Tracker → Prop
  | idle {tr : History} {resp : Option PKIMessage} (hresp : EmptyHanded resp) (htr : NoCall tr) :
      Processed srv msg m tr resp m
  | request {q : PKIMessage} {s : SenderIdentity} {credID : Bytes} {now : Time} {r : HandlerResult}
      {tr0 tr1 : History} {resp : Option PKIMessage} {m' : Tracker} (hbrings : srv.Brings msg q)
      (hcred : s.credentialID srv.crypto = .ok credID) (hq : isCertRequest q.body.type)
      (hfree : m.cell (srv.tracker.makeKey credID q.header.transactionID) = none)
      (h0 : NoCall tr0) (h1 : NoCall tr1)
      (hset : srv.Conclusion q s credID
        ⟨m.nextPtr, m.nextPtr, Tracker.activeEntry (srv.tracker.makeCredentialKey credID) now⟩
        (requestTypeFromBody q.body.type) (srv.certReqIDFromRequest q) r
        (m.start (srv.tracker.makeKey credID q.header.transactionID)
          (srv.tracker.makeCredentialKey credID) now) tr1 resp m') :
      Processed srv msg m (tr0 ++ ⟨.handleCMP srv.baseCtx q s, r⟩ :: tr1) resp m'
  | poll {q : PKIMessage} {s : SenderIdentity} {credID : Bytes} {pollReq : PollReqContent}
    {c : Cell} {r : HandlerResult} {tr0 tr1 : History} {resp : Option PKIMessage} {m' : Tracker}
      (hbrings : srv.Brings msg q) (hcred : s.credentialID srv.crypto = .ok credID)
      (hq : q.body.type = BodyTypePollReq) (hget : q.body.getPollReq = .ok pollReq)
      (hc : m.cell (srv.tracker.makeKey credID q.header.transactionID) = some c)
      (hstate : c.entry.state = .pending)
      (hnonce : q.header.recipNonce ≠ [] ∧ q.header.recipNonce = c.entry.senderNonce)
      (h0 : NoCall tr0) (h1 : NoCall tr1)
      (hset : srv.Conclusion q s credID c c.entry.reqType (pollReq.head?.getD 0) r m tr1 resp m') :
      Processed srv msg m
        (tr0 ++ ⟨.handleCMP { srv.baseCtx with pollRef := some c.entry.pollRef } q s, r⟩ :: tr1)
          resp
        m'
  | confirm {q : PKIMessage} {s : SenderIdentity} {credID : Bytes} {c : Cell} {r : HandlerResult}
      {tr0 tr1 : History} {body : PKIBody} {p : PKIMessage} {m' : Tracker}
      (hbrings : srv.Brings msg q) (hcred : s.credentialID srv.crypto = .ok credID)
      (hq : q.body.type = BodyTypeCertConf)
      (hc : m.cell (srv.tracker.makeKey credID q.header.transactionID) = some c)
      (hstate : c.entry.state = .issued)
      (hnonce : q.header.recipNonce ≠ [] ∧ q.header.recipNonce = c.entry.issuedSenderNonce)
      (h0 : NoCall tr0) (h1 : NoCall tr1)
      (hset : match r.err with
        | some err => m' = m ∧ body = .error { pkiStatusInfo := errorToStatusInfo err }
        | none => body = .pkiConf ∧
            m' = (m.remove (srv.tracker.makeKey credID q.header.transactionID)).charge
              c.entry.credentialKey (-1))
      (ha : srv.Answers s tr1 q body p) :
      Processed srv msg m
        (tr0 ++ ⟨.handleCMP { srv.baseCtx with
          issued := some ⟨c.entry.cert, c.entry.issueRef, c.txn⟩ } q s, r⟩ :: tr1) (some p) m'
  | revoke {q : PKIMessage} {s : SenderIdentity} {credID : Bytes} {now now' : Time}
      {r : HandlerResult} {tr0 tr1 : History} {resp : Option PKIMessage}
      (hbrings : srv.Brings msg q) (hcred : s.credentialID srv.crypto = .ok credID)
      (hq : q.body.type = BodyTypeRR)
      (hfree : m.cell (srv.tracker.makeKey credID q.header.transactionID) = none)
      (h0 : NoCall tr0) (h1 : NoCall tr1) (hresp : EmptyHanded resp) :
      Processed srv msg m (tr0 ++ ⟨.handleCMP srv.baseCtx q s, r⟩ :: tr1) resp
        ((m.start (srv.tracker.makeKey credID q.header.transactionID)
            (srv.tracker.makeCredentialKey credID) now).publish
          (srv.tracker.makeKey credID q.header.transactionID)
          { Tracker.activeEntry (srv.tracker.makeCredentialKey credID) now with
            state := .completed, lastActivity := now' } m.nextPtr)

section

variable {srv : Server} {msg : PKIMessage} {tr : History} {resp : Option PKIMessage}
variable {m m' : Tracker}

lemma NoCall.append {tr' : History} (h : NoCall tr) (h' : NoCall tr') : NoCall (tr ++ tr') :=
  fun ctx q s r hmem => (List.mem_append.mp hmem).elim (h ctx q s r) (h' ctx q s r)

lemma NoCall.of_within {P : Effect → Prop} (h : Within P tr)
    (hP : ∀ ctx q s, ¬ P (.handleCMP ctx q s)) : NoCall tr := fun _ _ _ _ => h.no_call hP

lemma noCall_around (h : Within Effect.Around tr) : NoCall tr := .of_within h fun _ _ _ h => h

lemma noCall_building (h : Within Effect.Building tr) : NoCall tr := .of_within h fun _ _ _ h => h

lemma noCall_onEntry (h : Within Effect.OnEntry tr) : NoCall tr := .of_within h fun _ _ _ h => h

lemma noCall_load (site : Site) (key : TransactionKey) (c : Option Cell) :
    NoCall [⟨.load site key, c⟩] :=
  .of_within (P := Effect.Looking) (.cons trivial .nil) fun _ _ _ h => h

lemma noCall_startIfAbsent {t : TrackerConfig} {credID txID : Bytes}
    {p : ServerProg (Except GoError Bool)}
    (h : Prog.Steps (t.startIfAbsent credID txID) tr p) : NoCall tr :=
  .of_within (.of_only (TrackerConfig.startIfAbsent_outer ..) h) fun _ _ _ h => h

/-- An initial request, once its transaction was started. -/
lemma processed_started {q : PKIMessage} {s : SenderIdentity} {credID : Bytes} {now : Time}
    {tr0 : History} (hbrings : srv.Brings msg q) (hinitial : isInitialRequest q.body.type)
    (hcred : s.credentialID srv.crypto = .ok credID)
    (hfree : m.cell (srv.tracker.makeKey credID q.header.transactionID) = none)
    (h0 : NoCall tr0) (hserved : srv.Served q s credID tr resp)
    (hd : Does exec (m.start (srv.tracker.makeKey credID q.header.transactionID)
      (srv.tracker.makeCredentialKey credID) now) tr m') :
    srv.Processed msg m (tr0 ++ tr) resp m' := by
  have hcell : (m.start (srv.tracker.makeKey credID q.header.transactionID)
      (srv.tracker.makeCredentialKey credID) now).cell
        (srv.tracker.makeKey credID q.header.transactionID) =
      some ⟨m.nextPtr, m.nextPtr, Tracker.activeEntry (srv.tracker.makeCredentialKey credID)
        now⟩ := by
    rw [Tracker.cell_start, if_pos rfl]
  have hother : ∀ t, q.body.type = t → ¬ isInitialRequest t →
      srv.Processed msg m (tr0 ++ tr) resp m' := fun t ht hn => absurd (ht ▸ hinitial) hn
  cases hserved with
  | refused hq _ _ => exact absurd hinitial hq
  | acknowledged hq _ _ => exact hother _ hq (by decide)
  | busy _ hstate _ _ =>
    obtain ⟨c', m1, hx, -⟩ := does_cons_iff.mp hd
    obtain ⟨hload, -⟩ := (exec_mapStep hx).loaded
    rw [hcell] at hload
    rw [← Option.some.inj hload] at hstate
    cases hstate
  | request hq hfound hset =>
    obtain ⟨_, m1, hx, hd⟩ := does_cons_iff.mp hd
    obtain ⟨-, rfl⟩ := (exec_mapStep hx).loaded
    obtain ⟨_, m1, hx, hd⟩ := does_cons_iff.mp hd
    cases hx
    rw [List.append_cons tr0]
    exact .request hbrings hcred hq hfree (h0.append (noCall_load _ _ _))
      (fun _ _ _ _ => hset.no_call) (hset.conclusion hd hcell (by rfl))
  | poll hq => exact hother _ hq (by decide)
  | lost hq => exact hother _ hq (by decide)
  | confirm hq => exact hother _ hq (by decide)
  | revoke hq h1 hbody ha h2 =>
    obtain ⟨_, m1, hx, hd⟩ := does_cons_iff.mp hd
    cases hx
    obtain ⟨m1, hd1, hd2⟩ := does_append_iff.mp hd
    obtain rfl := eq_of_building hd1 h1
    obtain ⟨now', rfl⟩ := TrackerConfig.complete_runs ⟨h2, hd2⟩ hcell
    exact .revoke hbrings hcred hq hfree h0 ((noCall_building h1).append
      (noCall_onEntry (.of_only (TrackerConfig.setCompleted_only ..) h2)))
      (ha.emptyHanded (by
        obtain ⟨_, _, rfl⟩ | ⟨_, _, rfl⟩ := hbody <;> exact List.forall_mem_nil _))

/-- A message of a transaction that has to be there. -/
lemma processed_followed {q : PKIMessage} {s : SenderIdentity} {credID : Bytes} {tr0 : History}
    (hbrings : srv.Brings msg q) (hinitial : ¬ isInitialRequest q.body.type)
    (hcred : s.credentialID srv.crypto = .ok credID) (h0 : NoCall tr0)
    (hserved : srv.Served q s credID tr resp) (hd : Does exec m tr m') :
    srv.Processed msg m (tr0 ++ tr) resp m' := by
  have hcert : ¬ isCertRequest q.body.type := by
    intro h
    refine hinitial ?_
    rw [isInitialRequest, Bool.or_eq_true]
    exact .inl h
  cases hserved with
  | refused _ htr hresp =>
    rw [eq_of_still hd (htr.mono fun _ => Effect.Looking.still)]
    exact .idle hresp.emptyHanded (h0.append (.of_within htr fun _ _ _ h => h))
  | acknowledged _ htr ha =>
    rw [eq_of_building hd htr]
    exact .idle (ha.emptyHanded (List.forall_mem_nil _)) (h0.append (noCall_building htr))
  | busy hq => exact absurd hq hcert
  | request hq => exact absurd hq hcert
  | poll hq hget hstate hnonce htr hset =>
    obtain ⟨_, m1, hx, hd'⟩ := does_cons_iff.mp hd
    obtain ⟨hc, rfl⟩ := (exec_mapStep hx).loaded
    obtain ⟨m1, hd1, hd2⟩ := does_append_iff.mp hd'
    obtain rfl := eq_of_building hd1 htr
    obtain ⟨_, m2, hx, hd⟩ := does_cons_iff.mp hd2
    cases hx
    have hopen : ∀ {e : TransactionEntry}, e.state = .pending → e.isOpen := by
      intro e he
      simp [TransactionEntry.isOpen, he]
    rw [List.append_cons tr0, ← List.append_assoc]
    exact .poll hbrings hcred hq hget hc hstate hnonce
      ((h0.append (noCall_load _ _ _)).append (noCall_building htr)) (fun _ _ _ _ => hset.no_call)
      (hset.conclusion hd hc (hopen hstate))
  | lost hq =>
    obtain ⟨_, m1, hx, hd'⟩ := does_cons_iff.mp hd
    obtain ⟨-, rfl⟩ := (exec_mapStep hx).loaded
    rw [does_nil_iff.mp hd']
    exact .idle (fun _ h => by cases h) (h0.append (noCall_load _ _ _))
  | @confirm c r tr1 tr2 body p hq hstate hnonce h1 h2 ha =>
    obtain ⟨_, m1, hx, hd'⟩ := does_cons_iff.mp hd
    obtain ⟨hc, rfl⟩ := (exec_mapStep hx).loaded
    obtain ⟨oracle, m2, hx, hd''⟩ := does_cons_iff.mp hd'
    obtain ⟨-, rfl⟩ : oracle.result = r ∧ m1 = m2 := by simpa [exec] using hx
    obtain ⟨m2, hd1, hd2⟩ := does_append_iff.mp hd''
    obtain rfl := eq_of_building hd2 h2
    -- the entry is deleted only when the handler took the confirmation
    have hset : Within Effect.OnEntry tr1 ∧ match r.err with
        | some err => m' = m1 ∧ body = .error { pkiStatusInfo := errorToStatusInfo err }
        | none => body = .pkiConf ∧
            m' = (m1.remove (srv.tracker.makeKey credID q.header.transactionID)).charge
              c.entry.credentialKey (-1) := by
      cases herr : r.err with
      | some err =>
        rw [herr] at h1
        obtain ⟨rfl, hbody⟩ := h1
        exact ⟨.nil, does_nil_iff.mp hd1, hbody⟩
      | none =>
        rw [herr] at h1
        exact ⟨.of_only (TrackerConfig.delete_only ..) h1.2, h1.1,
          TrackerConfig.delete_runs ⟨h1.2, hd1⟩ hc⟩
    rw [List.append_cons tr0]
    exact .confirm hbrings hcred hq hc hstate hnonce (h0.append (noCall_load _ _ _))
      ((noCall_onEntry hset.1).append (noCall_building h2)) hset.2
      (ha.congr (by simp [not_sealed_of_onEntry hset.1]))
  | revoke hq => exact absurd (by rw [hq]; decide) hinitial

/-- **One message at a time**: everything a message can do to the tracker when no other
thread gets in its way. -/
theorem processed_of_runs (hh : srv.handler = .external)
    (h : (srv.processMessage msg).Runs exec m tr resp m') : srv.Processed msg m tr resp m' := by
  obtain ⟨hs, hd⟩ := h
  cases course_of_steps hs with
  | refused htr hresp =>
    rw [eq_of_around hd htr]
    exact .idle hresp.emptyHanded (noCall_around htr)
  | locked _ _ _ h0 h1 hr h2 hresp =>
    obtain ⟨m1, hd0, hd⟩ := does_append_iff.mp hd
    obtain ⟨m2, hd1, hd2⟩ := does_append_iff.mp hd
    obtain rfl := eq_of_around hd0 h0
    obtain rfl := eq_of_around hd2 h2
    obtain ⟨-, rfl⟩ | ⟨hok, -⟩ := TrackerConfig.startIfAbsent_runs ⟨h1, hd1⟩
    · exact .idle hresp.emptyHanded
        ((noCall_around h0).append ((noCall_startIfAbsent h1).append (noCall_around h2)))
    · exact absurd hok hr
  | started hbrings hinitial hcred h0 h1 h2 =>
    obtain ⟨m1, hd0, hd⟩ := does_append_iff.mp hd
    obtain ⟨m2, hd1, hd2⟩ := does_append_iff.mp hd
    obtain rfl := eq_of_around hd0 h0
    obtain ⟨hne, -⟩ | ⟨-, hfree, now, -, rfl⟩ := TrackerConfig.startIfAbsent_runs ⟨h1, hd1⟩
    · exact absurd rfl hne
    · rw [← List.append_assoc]
      exact processed_started hbrings hinitial hcred hfree
        ((noCall_around h0).append (noCall_startIfAbsent h1)) (served_of_steps hh hcred h2) hd2
  | followed hbrings hinitial hcred h0 h1 =>
    obtain ⟨m1, hd0, hd1⟩ := does_append_iff.mp hd
    obtain rfl := eq_of_around hd0 h0
    exact processed_followed hbrings hinitial hcred (noCall_around h0)
      (served_of_steps hh hcred h1) hd1

/-! ### Refused messages -/

/-- A transaction was started under a key that was free, and nothing else changed: there
is one entry more, and both counters of the credential are one higher. -/
structure StartedOnly (m : Tracker) (key : TransactionKey) (ck : CredentialKey) (m' : Tracker) :
    Prop where
  free : m.cell key = none
  entry : ∃ c, m'.cell key = some c ∧ c.entry.credentialKey = ck
  others : ∀ key', key' ≠ key → m'.cell key' = m.cell key'
  count : m'.count = m.count + 1
  credentialCount : m'.credentialCounts ck = m.credentialCounts ck + 1
  otherCounts : ∀ ck', ck' ≠ ck → m'.credentialCounts ck' = m.credentialCounts ck'

lemma startedOnly_start {key : TransactionKey} (ck : CredentialKey) (now : Time)
    (hfree : m.cell key = none) : StartedOnly m key ck (m.start key ck now) where
  free := hfree
  entry := ⟨_, by rw [Tracker.cell_start, if_pos rfl], rfl⟩
  others key' hne := by rw [Tracker.cell_start, if_neg hne]
  count := rfl
  credentialCount := Function.update_self ..
  otherCounts _ hne := Function.update_of_ne hne ..

/-- The entry of the transaction is replaced. -/
lemma StartedOnly.publish {key : TransactionKey} {ck : CredentialKey}
    (h : StartedOnly m key ck m') {entry : TransactionEntry} (hentry : entry.credentialKey = ck)
    (txn : ℕ) : StartedOnly m key ck (m'.publish key entry txn) where
  free := h.free
  entry := ⟨_, by rw [Tracker.cell_publish, if_pos rfl], hentry⟩
  others key' hne := by rw [Tracker.cell_publish, if_neg hne, h.others key' hne]
  count := h.count
  credentialCount := h.credentialCount
  otherCounts := h.otherCounts

/-- The handler is called once, so the call that is found is the one that is known. -/
lemma call_eq {tr0 tr1 : History} {ctx ctx' : Ctx} {q q' : PKIMessage} {s s' : SenderIdentity}
    {r r' : HandlerResult} (h0 : NoCall tr0) (h1 : NoCall tr1)
    (h : ⟨.handleCMP ctx' q' s', r'⟩ ∈ tr0 ++ ⟨.handleCMP ctx q s, r⟩ :: tr1) :
    ctx' = ctx ∧ q' = q ∧ s' = s ∧ r' = r := by
  obtain h | h := List.mem_append.mp h
  · exact absurd h (h0 _ _ _ _)
  · obtain h | h := List.mem_cons.mp h
    · cases h
      exact ⟨rfl, rfl, rfl, rfl⟩
    · exact absurd h (h1 _ _ _ _)

/-- What the handler refused leaves the entry as it is. -/
lemma Conclusion.eq_of_err {q : PKIMessage} {s : SenderIdentity} {credID : Bytes} {c : Cell}
    {reqType : RequestType} {certReqID : ℤ} {r : HandlerResult} {err : GoError}
    (h : srv.Conclusion q s credID c reqType certReqID r m tr resp m') (hr : r.err = some err) :
    m' = m := by
  cases h with
  | unchanged => rfl
  | waiting herr => exact absurd (hr.symm.trans herr) nofun
  | implicit herr => exact absurd (hr.symm.trans herr) nofun
  | issued herr => exact absurd (hr.symm.trans herr) nofun

/-- **Refused requests leave no trace**: a message that is answered without a call of
the handler leaves the tracker as it was.  When the handler is called and returns an
error, a certConf or pollReq leaves the tracker as it was too, and an initial request
leaves the one transaction that was started for it. -/
theorem refused_without_trace (srv : Server) (hh : srv.handler = .external) (msg : PKIMessage)
    (m m' : Tracker) (tr : History) (resp : Option PKIMessage)
    (h : (srv.processMessage msg).Runs exec m tr resp m') :
    (NoCall tr → m' = m) ∧
    ∀ ctx q s r err, ⟨.handleCMP ctx q s, r⟩ ∈ tr → r.err = some err →
      (¬ isInitialRequest q.body.type → m' = m) ∧
      (isInitialRequest q.body.type → ∃ credID, s.credentialID srv.crypto = .ok credID ∧
        StartedOnly m (srv.tracker.makeKey credID q.header.transactionID)
          (srv.tracker.makeCredentialKey credID) m') := by
  have hcalled : ∀ {ctx : Ctx} {q : PKIMessage} {s : SenderIdentity} {r : HandlerResult}
      {tr0 tr1 : History}, NoCall (tr0 ++ ⟨.handleCMP ctx q s, r⟩ :: tr1) → m' = m :=
    fun hno => absurd (List.mem_append_right _ List.mem_cons_self) (hno _ _ _ _)
  have hinitial : ∀ {t : BodyType}, isCertRequest t → isInitialRequest t := by
    intro t ht
    rw [isInitialRequest, Bool.or_eq_true]
    exact .inl ht
  cases processed_of_runs hh h with
  | idle _ htr => exact ⟨fun _ => rfl, fun _ _ _ _ _ hcall => absurd hcall (htr _ _ _ _)⟩
  | request _ hcred hq hfree h0 h1 hset =>
    refine ⟨hcalled, fun ctx q s r err hcall herr => ?_⟩
    obtain ⟨-, rfl, rfl, rfl⟩ := call_eq h0 h1 hcall
    rw [hset.eq_of_err herr]
    exact ⟨fun hn => absurd (hinitial hq) hn, fun _ => ⟨_, hcred, startedOnly_start _ _ hfree⟩⟩
  | poll _ _ hq _ _ _ _ h0 h1 hset =>
    refine ⟨hcalled, fun ctx q s r err hcall herr => ?_⟩
    obtain ⟨-, rfl, rfl, rfl⟩ := call_eq h0 h1 hcall
    refine ⟨fun _ => hset.eq_of_err herr, fun hi => ?_⟩
    rw [hq] at hi
    exact absurd hi (by decide)
  | confirm _ _ hq _ _ _ h0 h1 hset _ =>
    refine ⟨hcalled, fun ctx q s r err hcall herr => ?_⟩
    obtain ⟨-, rfl, rfl, rfl⟩ := call_eq h0 h1 hcall
    rw [herr] at hset
    refine ⟨fun _ => hset.1, fun hi => ?_⟩
    rw [hq] at hi
    exact absurd hi (by decide)
  | revoke _ hcred hq hfree h0 h1 _ =>
    refine ⟨hcalled, fun ctx q s r err hcall herr => ?_⟩
    obtain ⟨-, rfl, rfl, rfl⟩ := call_eq h0 h1 hcall
    refine ⟨fun hn => absurd (by rw [hq]; decide) hn, fun _ => ⟨_, hcred, ?_⟩⟩
    refine StartedOnly.publish (startedOnly_start _ _ hfree) ?_ _
    rfl

end

/-- The event is a call of the handler with a first request, which it refuses. -/
def refusesFirst : ServerEvent → Bool
  | ⟨.handleCMP _ q _, r⟩ => r.err = some (.text []) && isInitialRequest q.body.type
  | _ => false

/-- The event is no call of the handler. -/
def callsNothing : ServerEvent → Bool
  | ⟨.handleCMP .., _⟩ => false
  | _ => true

/-- A request whose handler fails leaves one transaction, and the poll that nobody has
asked for leaves nothing. -/
theorem refused_without_trace_sample :
    (∃ tr resp m', (sampleServer.processMessage sampleRequest).Runs exec {} tr resp m' ∧
      m'.count = 1) ∧
    ∃ tr resp m', (sampleServer.processMessage (sampleReceived (.pollReq [0]) [1])).Runs exec {} tr
      resp m' ∧ m' = {} := by
  constructor
  · have hrun : ((sampleServer.processMessage sampleRequest).record exec (fun _ =>
        { sampleOracle 1 with result := .refuse (.text []) }) 0 {}).any (fun r =>
          r.1.any refusesFirst) = true := by decide +kernel
    obtain ⟨⟨tr, resp, m'⟩, hrec, hany⟩ := (Option.any_eq_true _ _).mp hrun
    obtain ⟨⟨o, r⟩, he, hcall⟩ := List.any_eq_true.mp hany
    have hruns := Prog.runs_of_record hrec
    cases o with
    | handleCMP ctx q s =>
      obtain ⟨herr, hq⟩ := Bool.and_eq_true_iff.mp hcall
      obtain ⟨credID, -, hstarted⟩ := ((refused_without_trace sampleServer rfl sampleRequest {} m'
        tr resp hruns).2 ctx q s r _ he (of_decide_eq_true herr)).2 hq
      exact ⟨tr, resp, m', hruns, hstarted.count⟩
    | _ => cases hcall
  · have hrun : ((sampleServer.processMessage (sampleReceived (.pollReq [0]) [1])).record exec
        (fun _ => sampleOracle 1) 0 {}).any (fun r => r.1.all callsNothing) = true := by
      decide +kernel
    obtain ⟨⟨tr, resp, m'⟩, hrec, hall⟩ := (Option.any_eq_true _ _).mp hrun
    have hruns := Prog.runs_of_record hrec
    refine ⟨tr, resp, m', hruns, (refused_without_trace sampleServer rfl _ {} m' tr resp hruns).1
      ?_⟩
    intro ctx q s r hmem
    exact absurd (List.all_eq_true.mp hall _ hmem) (by simp [callsNothing])

end Server

end PkiCmp
