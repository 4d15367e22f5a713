/-
Confirmations that reach the CA (`handleCertConf` and `checkCertStatuses` of
`server/confirm_poll.go`, `handleCertConf` of `server/ca.go`).

The threads are those of the server, together with any number of recoveries from
a snapshot.  A monitor remembers which entries a thread has looked up for a
certConf and which entry it has stored with a certificate; a thread that has
stored one does nothing more than return its response.

* `Bound`: what a certConf has passed when the handler is called;
* `Delivers`: the response of the request that stored an entry with a certificate;
* `Recorded`: the invariant of runs, which ties every such entry to its response;
* `certConf_bound`: **the CA receives a verdict only on a bound certConf**.
-/
import PkiCmp.Server.Handling
import PkiCmp.Server.Memory

namespace PkiCmp

open Der Interact

/-- The operations that store no certificate and tell the handler of none. -/
def Effect.Issueless : Effect → Prop
  | .handleCMP _ msg _ => msg.body.type ≠ BodyTypeCertConf
  | .compareAndSwap site _ _ new => site ≠ .setIssued ∧ new.state ≠ .issued
  | .loadOrStore _ entry => entry.state ≠ .issued
  | _ => True

lemma Effect.Outer.issueless {o : Effect} (h : o.Outer) : o.Issueless := by
  cases o with
  | loadOrStore key entry => simp [Effect.Issueless, show entry.state = .active from h]
  | handleCMP => exact h.elim
  | compareAndSwap => exact h.elim
  | _ => trivial

lemma Effect.Building.issueless {o : Effect} (h : o.Building) : o.Issueless := h.outer.issueless

/-- `setCompleted` stores no certificate. -/
lemma TrackerConfig.complete_issueless (key : TransactionKey) (retries : ℕ) :
    Prog.Only Effect.Issueless (complete key retries) :=
  complete_of trivial trivial trivial (fun _ _ h => ⟨by decide, by rw [h]; decide⟩) retries

/-! ### What the handler may rely on -/

namespace Server

variable (srv : Server)

/-- The certConf `msg` is bound to the entry in `cell`, which was looked up under
the credential of its sender. -/
structure Bound (conf : CertConfirmContent) (credID : Bytes) (cell : Cell) (ctx : Ctx)
    (msg : PKIMessage) (sender : SenderIdentity) : Prop where
  decoded : msg.body.getCertConf = .ok conf
  credential : sender.credentialID srv.crypto = .ok credID
  state : cell.entry.state = .issued
  context : ctx.issued = some ⟨cell.entry.cert, cell.entry.issueRef, cell.txn⟩
  present : msg.header.recipNonce ≠ []
  nonce : msg.header.recipNonce = cell.entry.issuedSenderNonce
  consistent : ∀ cs ∈ conf, contradictory cs = false
  named : ∀ cs ∈ conf, ∃ cert, cell.entry.cert = some cert ∧
    cs.certificateHash srv.crypto cert = .ok cs.certHash ∧
    certReqIDMatches cell.entry cs.certReqID = true
  agree : ∀ cs ∈ conf, ∀ cs' ∈ conf, certStatusRejects cs = certStatusRejects cs'

/-- The thread has called the handler for the sender, and has sealed nothing since. -/
def Unsealed (log : ServerLog) (j : ℕ) (s : SenderIdentity) : Prop :=
  ∃ l1 l2 ctx q r, log = l1 ++ (j, ⟨.handleCMP ctx q s, r⟩) :: l2 ∧
    ∀ e ∈ l2, e.1 = j → isSealed e.2 = false

/-- The response of the thread that stored a certificate: the entry has its senderNonce, and it
carries the certificate unless protection was due and nothing could be sealed. -/
structure Delivers (log : ServerLog) (j : ℕ) (resp : PKIMessage) (entry : TransactionEntry) :
    Prop where
  nonce : resp.header.senderNonce = entry.issuedSenderNonce
  cert : ∃ cert certReqID caCerts reqType, entry.cert = some cert ∧
    (resp.body = certRepBody certReqID { status := StatusAccepted } (some cert) caCerts reqType ∨
      (∃ resp', resp = protectionUnavailable resp') ∧
        ∃ s, srv.protects (some s) ∧ Unsealed log j s)

/-- What one status has passed. -/
lemma checkCertStatus_eq_none {entry : TransactionEntry} {cert : Certificate}
    {first cs : CertStatus} (h : srv.checkCertStatus entry cert first cs = none) :
    cs.certificateHash srv.crypto cert = .ok cs.certHash ∧
      certReqIDMatches entry cs.certReqID = true ∧
      certStatusRejects cs = certStatusRejects first := by
  unfold checkCertStatus at h
  split at h
  · cases h
  · next hash hh =>
    split_ifs at h with h1 h2 h3
    rw [not_not] at h1 h3
    exact ⟨h1 ▸ hh, by simpa using h2, h3⟩

/-- What the statuses of a certConf have passed. -/
lemma checkCertStatuses_eq_none {conf : CertConfirmContent} {entry : TransactionEntry}
    (h : srv.checkCertStatuses conf entry = some none) :
    (∀ cs ∈ conf, ∃ cert, entry.cert = some cert ∧
        cs.certificateHash srv.crypto cert = .ok cs.certHash ∧
        certReqIDMatches entry cs.certReqID = true) ∧
      ∀ cs ∈ conf, ∀ cs' ∈ conf, certStatusRejects cs = certStatusRejects cs' := by
  unfold checkCertStatuses at h
  split_ifs at h
  · cases h
  · split at h
    · simp
    · next first rest =>
      obtain ⟨cert, hcert, h⟩ := Option.map_eq_some_iff.mp h
      rw [List.findSome?_eq_none_iff] at h
      have hall := fun cs hcs => srv.checkCertStatus_eq_none (h cs hcs)
      refine ⟨fun cs hcs => ⟨cert, hcert, (hall cs hcs).1, (hall cs hcs).2.1⟩, ?_⟩
      intro cs hcs cs' hcs'
      rw [(hall cs hcs).2.2, (hall cs' hcs').2.2]

/-- A certConf that passes all checks is bound to its entry. -/
lemma bound_of_checks (ctx : Ctx) {msg : PKIMessage} {sender : SenderIdentity}
    {conf : CertConfirmContent} {credID : Bytes} {cell : Cell}
    (hconf : msg.body.getCertConf = .ok conf) (hcons : conf.any contradictory = false)
    (hcred : sender.credentialID srv.crypto = .ok credID) (hstate : cell.entry.state = .issued)
    (h : srv.certConfError msg sender conf cell.entry = some none) :
    srv.Bound conf credID cell
      { ctx with issued := some ⟨cell.entry.cert, cell.entry.issueRef, cell.txn⟩ } msg sender := by
  unfold certConfError at h
  split at h
  · cases h
  · cases h
  · next hstatuses =>
    obtain ⟨hnamed, hagree⟩ := srv.checkCertStatuses_eq_none hstatuses
    split_ifs at h with h1 h2 <;> cases h
    exact
      { decoded := hconf
        credential := hcred
        state := hstate
        context := rfl
        present := h1
        nonce := not_not.mp h2
        consistent := by simpa using hcons
        named := hnamed
        agree := hagree }

/-! ### The monitor -/

/-- What a thread has looked up for a certConf, the sender it has called the handler for and not
sealed anything since, and the entry with a certificate it has stored. -/
structure Conduct where
  seen : List (TransactionKey × Cell) := []
  unsealed : Option SenderIdentity := none
  delivered : Option TransactionEntry := none

/-- The operation may be done by a thread that has not stored a certificate. -/
def ConductAllowed (g : Conduct) : Effect → Prop
  | .handleCMP ctx msg sender => msg.body.type = BodyTypeCertConf →
      ∃ conf credID cell, srv.Bound conf credID cell ctx msg sender ∧
        (srv.tracker.makeKey credID msg.header.transactionID, cell) ∈ g.seen
  | .compareAndSwap .setIssued _ _ new =>
    new.state = .issued ∧ new.cert.isSome ∧ new.certReqID.isSome
  | .compareAndSwap _ _ _ new => new.state ≠ .issued
  | .loadOrStore _ entry => entry.state ≠ .issued
  | _ => True

/-- A thread calls the handler only with a certConf that is bound to an entry it has
looked up, and returns once it has stored a certificate. -/
def conductMonitor : Monitor Effect Effect.Res Conduct where
  allowed g o := g.delivered = none ∧ srv.ConductAllowed g o
  rely _ _ _ := True
  next
    | g, .load .getIssued key, some cell => { g with seen := (key, cell) :: g.seen }
    | g, .handleCMP _ _ s, _ => { g with unsealed := some s }
    | g, .seal .., .ok _ => { g with unsealed := none }
    | g, .compareAndSwap .setIssued _ _ new, true => { g with delivered := some new }
    | g, _, _ => g

/-- A thread that has stored a certificate returns the response that delivers it. -/
def HandsOver (g : Conduct) (r : Option PKIMessage) : Prop :=
  ∀ new, g.delivered = some new → ∃ resp, r = some resp ∧
    resp.header.senderNonce = new.issuedSenderNonce ∧
    ∃ cert certReqID caCerts reqType, new.cert = some cert ∧
      (resp.body = certRepBody certReqID { status := StatusAccepted } (some cert) caCerts reqType ∨
        (∃ resp', resp = protectionUnavailable resp') ∧
          ∃ s, srv.protects (some s) ∧ g.unsealed = some s)

/-- These operations leave the thread without a certificate. -/
lemma conduct_issueless :
    srv.conductMonitor.Keeps (fun g => g.delivered = none) Effect.Issueless := by
  intro g o hg ho
  cases o with
  | load site key =>
    refine ⟨⟨hg, trivial⟩, fun x _ => ?_⟩
    cases site <;> cases x <;> exact hg
  | compareAndSwap site key old new =>
    obtain ⟨hsite, hnew⟩ := ho
    cases site <;> first | exact absurd rfl hsite | exact ⟨⟨hg, hnew⟩, fun x _ => hg⟩
  | loadOrStore key entry => exact ⟨⟨hg, ho⟩, fun x _ => hg⟩
  | handleCMP ctx msg sender => exact ⟨⟨hg, fun h => absurd h ho⟩, fun x _ => hg⟩
  | «seal» => exact ⟨⟨hg, trivial⟩, fun x _ => by cases x <;> exact hg⟩
  | _ => exact ⟨⟨hg, trivial⟩, fun x _ => hg⟩

variable {srv} {g : Conduct}

lemma handsOver_of_none (hg : g.delivered = none) (r : Option PKIMessage) : srv.HandsOver g r := by
  intro new h
  rw [hg] at h
  cases h

/-- A part of a request that stores no certificate. -/
lemma issueless_conduct {α : Type} {p : ServerProg α} (hp : Prog.Only Effect.Issueless p)
    (hg : g.delivered = none) :
    Prog.Obeys srv.conductMonitor (fun g' _ => g'.delivered = none) g p :=
  .of_keeps srv.conduct_issueless hp hg

/-- A request that stores no certificate to its end. -/
lemma issueless_handsOver {p : ServerThread} (hp : Prog.Only Effect.Issueless p)
    (hg : g.delivered = none) : Prog.Obeys srv.conductMonitor srv.HandsOver g p :=
  (issueless_conduct hp hg).mono fun _ r h => handsOver_of_none h r

lemma plain_of_building {α : Type} {p : ServerProg α} (hp : Prog.Only Effect.Building p) :
    Prog.Only Effect.Issueless p := hp.mono fun _ => Effect.Building.issueless

/-! ### The handlers under the monitor -/

/-- `setIssued` stores the certificate with the nonce of its response, or nothing. -/
lemma setIssued_conduct {t : TrackerConfig} {credID transactionID : Bytes} {reqType : RequestType}
    {certReqID : ℤ} {cert : Certificate} {issueRef : Option IssueRef}
    {senderNonce clientSenderNonce : Bytes} {params : Option MACCredentialOption}
    {alg : Option AlgorithmIdentifier} (hg : g.delivered = none) :
    Prog.Obeys srv.conductMonitor
      (fun g' ok => if ok then ∃ new, g'.delivered = some new ∧ new.cert = some cert ∧
          new.issuedSenderNonce = senderNonce ∧ g'.unsealed = g.unsealed
        else g'.delivered = none) g
      (t.setIssued credID transactionID reqType certReqID cert issueRef senderNonce
        clientSenderNonce params alg) := by
  simp only [TrackerConfig.setIssued, TrackerConfig.replaceOpen, perform, Prog.call_bind,
    Prog.Obeys.op_iff]
  refine ⟨⟨hg, trivial⟩, fun old _ => ?_⟩
  cases old with
  | none => exact hg
  | some old =>
    simp only
    split_ifs
    · exact hg
    · refine ⟨⟨hg, trivial⟩, fun now _ => ⟨⟨hg, rfl, rfl, rfl⟩, fun ok _ => ?_⟩⟩
      cases ok with
      | false => exact hg
      | true => exact ⟨_, rfl, rfl, rfl, rfl⟩

/-- Nothing is sealed where the protection of a response fails. -/
lemma unsealed_after {tr : History} (htr : ∀ e ∈ tr, e.op.Building) (hs : ¬ Sealed tr) :
    (srv.conductMonitor.after g tr).unsealed = g.unsealed := by
  induction tr generalizing g with
  | nil => rfl
  | cons e tr ih =>
    rw [sealed_cons_iff, not_or] at hs
    have hnext : (srv.conductMonitor.next g e.op e.res).unsealed = g.unsealed := by
      obtain ⟨o, x⟩ := e
      have ho := htr _ List.mem_cons_self
      cases o with
      | «seal» =>
        cases x with
        | ok => exact absurd rfl hs.1
        | error => rfl
      | _ => first | rfl | exact ho.elim
    exact (ih (fun e he => htr e (List.mem_cons_of_mem _ he)) hs.2).trans hnext

variable (srv) in
/-- What a thread has looked up, called and stored at each point. -/
def ConductAt (msg : PKIMessage) (sender : SenderIdentity) : Point → Conduct → Prop
  | .looked .getIssued found, g => g.delivered = none ∧ ∀ cell credID, found = some cell →
      sender.credentialID srv.crypto = .ok credID →
      (srv.tracker.makeKey credID msg.header.transactionID, cell) ∈ g.seen
  | .called .., g => g.delivered = none ∧ g.unsealed = some sender
  | .built (.called ..) _ tr _, g => g.delivered = none ∧ (¬ Sealed tr → g.unsealed = some sender)
  | .kept resp true, g => srv.HandsOver g (some resp)
  | _, g => g.delivered = none

section

variable {msg : PKIMessage} {sender : SenderIdentity} {pt : Point}

lemma ConductAt.none (h : pt.Open) (hg : srv.ConductAt msg sender pt g) : g.delivered = none := by
  cases pt with
  | looked site =>
    cases site with
    | getIssued => exact hg.1
    | _ => exact hg
  | called => exact hg.1
  | kept _ ok =>
    cases ok with
    | false => exact hg
    | true => exact h.elim
  | built => exact h.elim
  | _ => exact hg

lemma ConductAt.handsOver {resp : PKIMessage} (h : srv.Sends pt resp)
    (hg : srv.ConductAt msg sender pt g) : srv.HandsOver g (some resp) := by
  cases h with
  | @built pt =>
    cases pt with
    | called => exact handsOver_of_none hg.1 _
    | _ => exact handsOver_of_none hg _
  | kept => exact hg
  | _ => exact handsOver_of_none hg _

/-- **The handlers** call the handler with a bound certConf only, and store a certificate at
their end. -/
lemma Handles.conduct (hh : srv.handler = .external) {p : ServerThread}
    (hp : srv.Handles msg sender pt p) (hg : srv.ConductAt msg sender pt g) :
    Prog.Obeys srv.conductMonitor srv.HandsOver g p := by
  have hcall :
      ∀ {ctx : Ctx} {g : Conduct}, srv.conductMonitor.allowed g (.handleCMP ctx msg sender) →
      Prog.Obeys srv.conductMonitor (fun g' _ => g' = { g with unsealed := some sender }) g
        (srv.handler ctx msg sender) := by
    intro ctx g ha
    rw [hh]
    exact ⟨ha, fun _ _ => rfl⟩
  induction hp generalizing g with
  | @drop pt h =>
    refine handsOver_of_none (hg.none ?_) _
    cases pt <;> trivial
  | send h => exact hg.handsOver h
  | @look site credID _ hcred hsite _ ih =>
    refine ⟨⟨hg, trivial⟩, fun found _ => ih found ?_⟩
    obtain rfl | rfl := hsite
    · exact hg
    · cases found with
      | none => exact ⟨hg, fun _ _ h => by cases h⟩
      | some cell =>
        refine ⟨hg, fun cell' credID' hcell hcred' => ?_⟩
        cases hcell
        cases hcred.symm.trans hcred'
        exact List.mem_cons_self
  | clock _ ih => exact ⟨⟨hg, trivial⟩, fun now _ => ih now hg⟩
  | call h _ ih =>
    cases h with
    | request hq =>
      refine Prog.Obeys.bind (hcall ⟨hg, fun h => ?_⟩) ?_
      · rw [h] at hq
        exact absurd hq (by decide)
      · rintro _ r rfl
        exact ih r ⟨hg, rfl⟩
    | poll hq hpt =>
      have hnone : g.delivered = none := by obtain rfl | ⟨now, rfl⟩ := hpt <;> exact hg
      refine Prog.Obeys.bind (hcall ⟨hnone, fun h => absurd (hq.symm.trans h) (by decide)⟩) ?_
      rintro _ r rfl
      exact ih r ⟨hnone, rfl⟩
    | confirm hq hconf hcons hcred hstate herr =>
      refine Prog.Obeys.bind (hcall ⟨hg.1, fun _ => ⟨_, _, _, srv.bound_of_checks _ hconf hcons
        hcred hstate herr, hg.2 _ _ rfl hcred⟩⟩) ?_
      rintro _ r rfl
      exact ih r hg.1
    | revoke hq =>
      refine Prog.Obeys.bind (hcall ⟨hg, fun h => absurd (hq.symm.trans h) (by decide)⟩) ?_
      rintro _ r rfl
      exact ih r hg
  | @build pt _ _ _ _ h _ ih =>
    refine h.obeys (srv.conduct_issueless.mono fun _ => Effect.Building.issueless)
      (hg.none h.opened) fun tr resp ha htr hnone => ih tr resp ha ?_
    cases pt with
    | called => exact ⟨hnone, fun hs => (unsealed_after htr hs).trans hg.2⟩
    | _ => exact hnone
  | pend _ _ _ _ hclock _ ih =>
    have hnow := (clock_only hclock).mono (R := Effect.Issueless) fun _ h => by rw [h]; trivial
    refine Prog.Obeys.bind (issueless_conduct hnow hg.1) fun g1 last hg1 => ?_
    refine Prog.Obeys.bind (issueless_conduct (TrackerConfig.replaceOpen_of trivial trivial
      fun _ _ => ⟨by decide, by simp⟩) hg1) fun g2 ok hg2 => ih ok ?_
    cases ok with
    | false => exact hg2
    | true => exact handsOver_of_none hg2 _
  | @issue _ _ h cert tr resp _ reqType certReqID _ _ _ hc ha _ ih =>
    refine Prog.Obeys.bind (setIssued_conduct hg.1) fun g' ok hok => ih ok ?_
    cases ok with
    | false => exact hok
    | true =>
      obtain ⟨new, hnew, hcert, hnonce, hsame⟩ := hok
      intro new' hnew'
      obtain rfl : new = new' := Option.some.inj (hnew.symm.trans hnew')
      refine ⟨resp, rfl, hnonce.symm, cert, certReqID, h.caCerts, reqType, hcert, ?_⟩
      by_cases hun : srv.Unprotected sender tr
      · exact .inr ⟨ha.replaced hun, sender, hun.1, hsame.trans (hg.2 hun.2)⟩
      · exact .inl (ha.body hun)
  | complete _ _ ih =>
    exact Prog.Obeys.bind (issueless_conduct (TrackerConfig.complete_issueless _ _) hg.1)
      fun g' _ hg' => ih hg'
  | tell _ _ _ ih => exact ⟨⟨hg, trivial⟩, fun err _ => ih err hg⟩
  | delete _ _ _ ih =>
    exact Prog.Obeys.bind (issueless_conduct (TrackerConfig.delete_of _ trivial trivial fun _ =>
      ⟨trivial, trivial⟩) hg) fun g' _ hg' => ih hg'
  | finish _ _ ih =>
    exact Prog.Obeys.bind (issueless_conduct (TrackerConfig.complete_issueless _ _) hg)
      fun g' _ hg' => ih hg'

end

/-- Every thread of the server keeps to the monitor. -/
lemma thread_conduct (hh : srv.handler = .external) {p : ServerThread}
    (hp : srv.Thread p) : Prog.Obeys srv.conductMonitor srv.HandsOver {} p := by
  have houter : srv.conductMonitor.Keeps (fun g => g.delivered = none) Effect.Outer :=
    fun g o hg ho => srv.conduct_issueless g o hg ho.issueless
  cases hp with
  | message msg =>
    refine srv.process_obeys_of_verified (houter.mono fun _ => Effect.Around.outer)
      (fun g hg => ⟨hg, trivial⟩) (fun g r hg => handsOver_of_none hg r)
      (fun g m sender _ hg => ?_) 2 none rfl
    refine Prog.Obeys.bind (Prog.Obeys.of_keeps houter (srv.validateHeader_only m sender) hg) ?_
    rintro g' ⟨m', r⟩ hg'
    cases r with
    | error e => exact issueless_handsOver (plain_of_building (srv.answerError_only ..)) hg'
    | ok _ => exact (srv.dispatch_handles m' sender).conduct hh hg'
  | cleanup =>
    have hplain := srv.cleanupExpired_only.mono (R := Effect.Issueless) fun o ho => by
      cases o <;> first | exact ho.elim | trivial
    exact issueless_handsOver (hplain.bind fun _ => trivial) rfl

/-! ### Recovery -/

/-- The threads of a server over its lifetime: those that serve, and recoveries from
a snapshot. -/
inductive Lifetime : ServerThread → Prop
  | serve {p : ServerThread} (hp : srv.Thread p) : Lifetime p
  | recover (maxTransactions maxPerCredential : ℤ) (ids : Bool) :
      Lifetime (perform (.restart maxTransactions maxPerCredential ids) >>= fun _ => pure none)

/-- The threads that an action starts are threads of the server's lifetime. -/
def Lives (a : ServerAction) : Prop :=
  ∀ p, a = .spawn p → srv.Lifetime p

lemma lifetime_conduct (hh : srv.handler = .external) {p : ServerThread}
    (hp : srv.Lifetime p) : Prog.Obeys srv.conductMonitor srv.HandsOver {} p := by
  cases hp with
  | serve hp => exact thread_conduct hh hp
  | recover a b ids => exact issueless_handsOver ⟨trivial, fun _ => trivial⟩ rfl

/-- The entry `e` is `new` as it was stored, or as it came back from snapshots; only
one without `certReqId`s loses that of the entry. -/
structure Kept (log : ServerLog) (new e : TransactionEntry) : Prop where
  nonce : e.issuedSenderNonce = new.issuedSenderNonce
  cert : e.cert.map Certificate.raw = new.cert.map Certificate.raw
  reqType : e.reqType = new.reqType
  certReqID : e.certReqID = new.certReqID ∨
    e.certReqID = none ∧ ∃ j a b, (j, ⟨.restart a b false, true⟩) ∈ log

lemma Kept.refl (log : ServerLog) (e : TransactionEntry) : Kept log e e := ⟨rfl, rfl, rfl, .inl rfl⟩

lemma Kept.mono {log log' : ServerLog} {new e : TransactionEntry} (h : Kept log new e)
    (hlog : log ⊆ log') : Kept log' new e := by
  refine ⟨h.nonce, h.cert, h.reqType, ?_⟩
  obtain hid | ⟨hid, j, a, b, hmem⟩ := h.certReqID
  · exact .inl hid
  · exact .inr ⟨hid, j, a, b, hlog hmem⟩

/-- An issued entry that is restored is still the one that was stored. -/
lemma Kept.restored {log : ServerLog} {new e e' : TransactionEntry} {ids : Bool}
    (h : Kept log new e) (hr : Recovers e e') (hi : e'.state = .issued)
    (hids : ids = false → ∃ j a b, (j, ⟨.restart a b false, true⟩) ∈ log) :
    Kept log new (if ids then e' else { e' with certReqID := none }) := by
  have hnonce := hr.issuedSenderNonce.trans h.nonce
  have hcert := (hr.cert_of_issued hi).trans h.cert
  have hreq := hr.reqType.trans h.reqType
  cases ids with
  | false => exact ⟨hnonce, hcert, hreq, .inr ⟨rfl, hids rfl⟩⟩
  | true =>
    refine ⟨hnonce, hcert, hreq, ?_⟩
    rw [if_pos rfl, hr.certReqID]
    exact h.certReqID

/-! ### The invariant -/

/-- The entry under the key was stored by a thread that has done nothing else since. -/
def Origin (log : ServerLog) (gs : List Conduct) (key : TransactionKey) (e : TransactionEntry) :
    Prop :=
  ∃ j old new g, (j, ⟨.compareAndSwap .setIssued key old new, true⟩) ∈ log ∧
    new.certReqID.isSome ∧ gs[j]? = some g ∧ g.delivered = some new ∧ Kept log new e

/-- What a run has recorded: lookups are in the log, and every entry with a
certificate, stored or looked up, has its origin. -/
structure Recorded (s : ServerSys) (gs : List Conduct) : Prop where
  seen : ∀ i g key cell, gs[i]? = some g → (key, cell) ∈ g.seen →
    (i, ⟨.load .getIssued key, some cell⟩) ∈ s.log
  stored : ∀ key cell, s.mem.cell key = some cell → cell.entry.state = .issued →
    Origin s.log gs key cell.entry
  looked : ∀ i key cell, (i, ⟨.load .getIssued key, some cell⟩) ∈ s.log →
    cell.entry.state = .issued → Origin s.log gs key cell.entry
  unsealed : ∀ i g sender, gs[i]? = some g → g.unsealed = some sender → Unsealed s.log i sender

lemma Recorded.init : Recorded (.init {}) [] where
  seen i g key cell hg := by simp at hg
  stored key cell hc := by cases hc
  looked i key cell hev := by cases hev
  unsealed i g sender hg := by simp at hg

lemma Origin.mono {log log' : ServerLog} {gs gs' : List Conduct} {key : TransactionKey}
    {e : TransactionEntry} (h : Origin log gs key e) (hlog : log ⊆ log')
    (hgs : ∀ (j : ℕ) (g : Conduct) (new : TransactionEntry), gs[j]? = some g →
      g.delivered = some new → ∃ g' : Conduct, gs'[j]? = some g' ∧ g'.delivered = some new) :
    Origin log' gs' key e := by
  obtain ⟨j, old, new, g, hev, hid, hg, hd, hk⟩ := h
  obtain ⟨g', hg', hd'⟩ := hgs j g new hg hd
  exact ⟨j, old, new, g', hlog hev, hid, hg', hd', hk.mono hlog⟩

lemma Recorded.start {s : ServerSys} {gs : List Conduct} (h : Recorded s gs)
    (p : ServerThread) : Recorded (s.start p) (gs ++ [({} : Conduct)]) := by
  have hgs : ∀ (j : ℕ) (g : Conduct) (new : TransactionEntry), gs[j]? = some g →
      g.delivered = some new →
      ∃ g' : Conduct, (gs ++ [({} : Conduct)])[j]? = some g' ∧ g'.delivered = some new := by
    intro j g new hg hd
    have hj : j < gs.length := (List.getElem?_eq_some_iff.mp hg).1
    exact ⟨g, by rw [List.getElem?_append_left hj, hg], hd⟩
  have hnew : ∀ {i : ℕ} {g : Conduct}, (gs ++ [({} : Conduct)])[i]? = some g →
      gs[i]? = some g ∨ g = {} := by
    intro i g hg
    by_cases hi : i < gs.length
    · rw [List.getElem?_append_left hi] at hg
      exact .inl hg
    · rw [List.getElem?_append_right (not_lt.mp hi), List.getElem?_singleton] at hg
      split_ifs at hg
      cases hg
      exact .inr rfl
  refine ⟨fun i g key cell hg hmem => ?_, fun key cell hc hi => ?_, fun i key cell hev hi => ?_,
    fun i g sender hg hsender => ?_⟩
  · obtain hg | rfl := hnew hg
    · exact h.seen i g key cell hg hmem
    · cases hmem
  · exact (h.stored key cell hc hi).mono (fun _ he => he) hgs
  · exact (h.looked i key cell hev hi).mono (fun _ he => he) hgs
  · obtain hg | rfl := hnew hg
    · exact h.unsealed i g sender hg hsender
    · cases hsender

section Step

variable {s : ServerSys} {gs : List Conduct} {i : ℕ} {o : Effect} {x : o.Res} {m : Tracker}

/-- What a thread has stored stays with it when a thread without a certificate does a
step. -/
lemma delivered_set (hi : gs[i]? = some g) (hnone : g.delivered = none) (g1 : Conduct) (j : ℕ)
    (g0 : Conduct) (new : TransactionEntry) (hg : gs[j]? = some g0)
    (hd : g0.delivered = some new) :
    ∃ g' : Conduct, (gs.set i g1)[j]? = some g' ∧ g'.delivered = some new := by
  have hij : i ≠ j := by
    rintro rfl
    obtain rfl : g = g0 := Option.some.inj (hi.symm.trans hg)
    rw [hnone] at hd
    cases hd
  exact ⟨g0, by rw [List.getElem?_set_ne hij, hg], hd⟩

/-- A lookup is seen when it is in the log. -/
lemma seen_next {key : TransactionKey} {cell : Cell}
    (h : (key, cell) ∈ (srv.conductMonitor.next g o x).seen) :
    (key, cell) ∈ g.seen ∨
      (⟨o, x⟩ : ServerEvent) = ⟨.load .getIssued key, some cell⟩ := by
  cases o with
  | load site key' =>
    cases site <;> cases x <;> first
      | exact .inl h
      | (obtain heq | h := List.mem_cons.mp h
         · cases heq
           exact .inr rfl
         · exact .inl h)
  | compareAndSwap site key' old new => cases site <;> cases x <;> exact .inl h
  | «seal» => cases x <;> exact .inl h
  | _ => exact .inl h

/-- The call stays the last one with nothing sealed after it. -/
lemma Unsealed.snoc {log : ServerLog} {j : ℕ} {sender : SenderIdentity} (h : Unsealed log j sender)
    {e : ℕ × ServerEvent} (he : e.1 = j → isSealed e.2 = false) :
    Unsealed (log ++ [e]) j sender := by
  obtain ⟨l1, l2, ctx, q, r, rfl, hl⟩ := h
  refine ⟨l1, l2 ++ [e], ctx, q, r, by simp, fun e' he' => ?_⟩
  obtain he' | he' := List.mem_append.mp he'
  · exact hl e' he'
  · rw [List.mem_singleton.mp he']
    exact he

/-- Where a thread stands after a step: it has called the handler, or sealed nothing. -/
lemma unsealed_next {sender : SenderIdentity}
    (h : (srv.conductMonitor.next g o x).unsealed = some sender) :
    (∃ ctx q, o = .handleCMP ctx q sender) ∨
      g.unsealed = some sender ∧ isSealed (⟨o, x⟩ : ServerEvent) = false := by
  cases o with
  | handleCMP ctx q s =>
    cases h
    exact .inl ⟨ctx, q, rfl⟩
  | «seal» =>
    cases x with
    | ok => cases h
    | error => exact .inr ⟨h, rfl⟩
  | load site => cases site <;> cases x <;> exact .inr ⟨h, rfl⟩
  | compareAndSwap site => cases site <;> cases x <;> exact .inr ⟨h, rfl⟩
  | _ => exact .inr ⟨h, rfl⟩

/-- **One step**: every entry with a certificate in the map has its origin. -/
lemma Recorded.stored_after (h : Recorded s gs) (hi : gs[i]? = some g)
    (hnone : g.delivered = none) (ha : srv.ConductAllowed g o) (hx : MapStep s.mem o x m)
    {key : TransactionKey} {cell : Cell} (hc : m.cell key = some cell)
    (hst : cell.entry.state = .issued) :
    Origin (s.log ++ [(i, ⟨o, x⟩)]) (gs.set i (srv.conductMonitor.next g o x)) key cell.entry := by
  have hold : ∀ {key cell}, s.mem.cell key = some cell → cell.entry.state = .issued →
      Origin (s.log ++ [(i, ⟨o, x⟩)]) (gs.set i (srv.conductMonitor.next g o x)) key cell.entry :=
    fun hc hst => (h.stored _ _ hc hst).mono (List.subset_append_left _ _)
      (delivered_set hi hnone _)
  cases hx with
  | store key' entry hnew =>
    rw [Tracker.cell_publish] at hc
    split_ifs at hc with hk
    · cases hc
      exact absurd hst ha
    · exact hold hc hst
  | swap site key' cell' new hcell =>
    rw [Tracker.cell_publish] at hc
    split_ifs at hc with hk
    · cases hc
      subst hk
      cases site with
      | setIssued =>
        exact ⟨i, cell'.ptr, new, { g with delivered := some new }, by simp, ha.2.2,
          by rw [List.getElem?_set_self' , hi]; rfl, rfl, .refl _ _⟩
      | _ => exact absurd hst ha
    · exact hold hc hst
  | delete site key' judged =>
    rw [Tracker.cell_remove] at hc
    split_ifs at hc
    exact hold hc hst
  | restart r a b ids t' hr =>
    -- what is restored is what was stored before
    revert key cell
    refine Tracker.restart_induction (P := fun t => ∀ {key : TransactionKey} {cell : Cell},
      t.cell key = some cell → cell.entry.state = .issued → Origin _ _ key cell.entry) hr
      (fun hc => by cases hc) ?_
    intro t1 key' c e' ih hcell hrec _ key cell hc hst
    rw [Tracker.cell_restored, Tracker.cell_publish] at hc
    by_cases hk : key = key'
    · rw [if_pos hk] at hc
      cases hc
      subst hk
      have hst' : e'.state = .issued := by cases ids <;> exact hst
      obtain ⟨j, old, new, g', hev, hid, hg', hd, hkept⟩ := hold hcell (hrec.state ▸ hst')
      refine ⟨j, old, new, g', hev, hid, hg', hd, hkept.restored hrec hst' ?_⟩
      rintro rfl
      exact ⟨i, a, b, by simp⟩
    · rw [if_neg hk] at hc
      exact ih hc hst
  | other x t' ho hcells hn =>
    refine hold ?_ hst
    unfold Tracker.cell at hc ⊢
    rw [← hcells, hc]
  | _ => exact hold hc hst

/-- **One step** keeps the record. -/
lemma Recorded.after (h : Recorded s gs) (hi : gs[i]? = some g)
    (ha : srv.conductMonitor.allowed g o) (hx : MapStep s.mem o x m)
    (k : o.Res → ServerThread) :
    Recorded (s.after i o k x m) (gs.set i (srv.conductMonitor.next g o x)) := by
  obtain ⟨hnone, ha⟩ := ha
  refine ⟨fun j g' key cell hg' hmem => ?_, fun key cell hc hst =>
    h.stored_after hi hnone ha hx hc hst, fun j key cell hev hst => ?_, fun j g' sender hg' hs =>
      ?_⟩
  · obtain ⟨rfl, rfl⟩ | ⟨-, hg'⟩ := eq_or_getElem?_of_set hg'
    · obtain hmem | hev := seen_next hmem
      · exact List.mem_append_left _ (h.seen j g key cell hi hmem)
      · exact List.mem_append_right _ (by rw [hev]; simp)
    · exact List.mem_append_left _ (h.seen j g' key cell hg' hmem)
  · obtain hev | hev := List.mem_append.mp hev
    · exact (h.looked j key cell hev hst).mono (List.subset_append_left _ _)
        (delivered_set hi hnone _)
    · -- the entry was just looked up
      have hev := (Prod.mk.inj (List.mem_singleton.mp hev)).2
      cases hev
      obtain ⟨hcell, -⟩ := hx.loaded
      exact (h.stored key cell hcell hst).mono (List.subset_append_left _ _)
        (delivered_set hi hnone _)
  · obtain ⟨rfl, rfl⟩ | ⟨hne, hg'⟩ := eq_or_getElem?_of_set hg'
    · obtain ⟨ctx, q, rfl⟩ | ⟨hs, hevent⟩ := unsealed_next hs
      · exact ⟨s.log, [], ctx, q, x, rfl, fun e he => by cases he⟩
      · exact (h.unsealed j g sender hi hs).snoc fun _ => hevent
    · exact (h.unsealed j g' sender hg' hs).snoc fun heq => absurd heq.symm hne

end Step

/-- The record is an invariant of runs. -/
lemma recorded_inductive (hh : srv.handler = .external) :
    Sys.Inductive exec srv.conductMonitor srv.HandsOver Recorded fun _ a => srv.Lives a where
  spawn _ _ p hw hc := ⟨{}, lifetime_conduct hh (hc p rfl), hw.2.start p⟩
  step _ _ _ _ _ _ k _ _ hw hi _ ha hx _ := ⟨trivial, hw.2.after hi ha (exec_mapStep hx) k⟩

/-! ### The verdict -/

/-- A thread that has stored a certificate has returned the response that delivers it. -/
lemma returned_of_delivered {s : ServerSys} {gs : List Conduct}
    (hw : Sys.Watched srv.conductMonitor srv.HandsOver Recorded s gs) {j : ℕ}
    (hj : gs[j]? = some g) {new : TransactionEntry} (hd : g.delivered = some new) :
    ∃ resp, s.threads[j]? = some (.ret (some resp)) ∧ srv.Delivers s.log j resp new := by
  obtain ⟨p, hp, hobey⟩ := exists_getElem?_of_forall₂ hw.1.flip hj
  cases p with
  | op o k =>
    have hnone := hobey.1.1
    rw [hd] at hnone
    cases hnone
  | ret r =>
    obtain ⟨resp, rfl, hnonce, cert, certReqID, caCerts, reqType, hcert, hbody⟩ := hobey new hd
    refine ⟨resp, hp, hnonce, cert, certReqID, caCerts, reqType, hcert, hbody.imp_right ?_⟩
    rintro ⟨hresp, sender, hprotects, hs⟩
    exact ⟨hresp, sender, hprotects, hw.2.unsealed j g sender hj hs⟩

/-- With all entries in agreement the first one decides for any of them. -/
lemma confirmationStatus_eq {conf : CertConfirmContent}
    (hagree : ∀ cs ∈ conf, ∀ cs' ∈ conf, certStatusRejects cs = certStatusRejects cs') :
    confirmationStatus conf =
      if conf = [] ∨ ∃ cs ∈ conf, certStatusRejects cs then .rejected else .accepted := by
  cases conf with
  | nil => rfl
  | cons cs conf =>
    have hiff : (∃ cs' ∈ cs :: conf, certStatusRejects cs' = true) ↔
        certStatusRejects cs = true := by
      constructor
      · rintro ⟨cs', hcs', hr⟩
        rwa [hagree cs List.mem_cons_self cs' hcs']
      · exact fun hr => ⟨cs, List.mem_cons_self, hr⟩
    simp only [confirmationStatus, reduceCtorEq, false_or, hiff]

/-- What `caHandler` makes of a bound certConf: one call of the CA. -/
lemma Bound.caHandler_eq {conf : CertConfirmContent} {credID : Bytes} {cell : Cell}
    {ctx : Ctx} {msg : PKIMessage} {sender : SenderIdentity}
    (h : srv.Bound conf credID cell ctx msg sender) (htype : msg.body.type = BodyTypeCertConf)
    {cert : Certificate} (hcert : cell.entry.cert = some cert) (cr : Crypto) {ca : CAInterfaces}
    (hca : ca.certificateConfirmer) :
    caHandler cr ca ctx msg sender = perform (.confirmCertificate cert (confirmationStatus conf)
      cell.entry.issueRef (some cell.txn)) >>= fun err => pure { err } := by
  have hreq : isCertRequest BodyTypeCertConf = false := by decide
  obtain ⟨pollRef, issued, sha1⟩ := ctx
  obtain rfl : issued = some ⟨cell.entry.cert, cell.entry.issueRef, cell.txn⟩ := h.context
  simp only [caHandler, htype, hreq, caHandleCertConf, hca, h.decoded, hcert,
    Bool.false_eq_true, if_false, if_true, Bool.not_true, Option.bind_some, Option.map_some]
  rfl

/-- **The CA receives a verdict only on a bound certConf.**  Whatever the server has
served and recovered before, a certConf for which the handler is called is bound to
the entry looked up under the credential of its sender and its transactionID; that
entry was stored by a request that has returned the response with its nonce; and a
`caHandler` tells its CA once, of a rejection whenever the list is empty or any entry
rejects. -/
theorem certConf_bound (srv : Server) (hh : srv.handler = .external)
    (actions : List ServerAction) (s : ServerSys)
    (hlives : ∀ a ∈ actions, srv.Lives a) (hrun : Sys.run exec (.init {}) actions = some s)
    (i : ℕ) (ctx : Ctx) (msg : PKIMessage) (sender : SenderIdentity)
    (hnext : s.nextOp i = some (.handleCMP ctx msg sender))
    (htype : msg.body.type = BodyTypeCertConf) :
    ∃ conf credID cell j old new resp,
      srv.Bound conf credID cell ctx msg sender ∧
      (i, ⟨.load .getIssued (srv.tracker.makeKey credID msg.header.transactionID), some cell⟩) ∈
        s.log ∧
      (j, ⟨.compareAndSwap .setIssued (srv.tracker.makeKey credID msg.header.transactionID) old
        new, true⟩) ∈ s.log ∧
      s.threads[j]? = some (.ret (some resp)) ∧ srv.Delivers s.log j resp new ∧
      msg.header.recipNonce = resp.header.senderNonce ∧
      Kept s.log new cell.entry ∧ new.certReqID.isSome ∧
      ∀ (cr : Crypto) (ca : CAInterfaces), ca.certificateConfirmer →
        ∃ cert, cell.entry.cert = some cert ∧
          caHandler cr ca ctx msg sender = perform (.confirmCertificate cert
            (if conf = [] ∨ ∃ cs ∈ conf, certStatusRejects cs then .rejected else .accepted)
            cell.entry.issueRef (some cell.txn)) >>= fun err => pure { err } := by
  obtain ⟨gs, hw⟩ := Sys.invariant (recorded_inductive hh) ⟨.nil, .init⟩
    (.of_forall hlives _) hrun
  -- the monitor has let the thread come this far
  obtain ⟨k, hi⟩ : ∃ k, s.threads[i]? = some (.op (.handleCMP ctx msg sender) k) := by
    unfold Sys.nextOp at hnext
    split at hnext
    · next o k hi =>
      cases hnext
      exact ⟨k, hi⟩
    · cases hnext
  obtain ⟨g, hg, hobey⟩ := exists_getElem?_of_forall₂ hw.1 hi
  obtain ⟨conf, credID, cell, hbound, hseen⟩ := hobey.1.2 htype
  have hload := hw.2.seen i g _ cell hg hseen
  obtain ⟨j, old, new, g', hev, hid, hg', hd, hkept⟩ := hw.2.looked i _ cell hload hbound.state
  obtain ⟨resp, hret, hdel⟩ := returned_of_delivered hw hg' hd
  refine ⟨conf, credID, cell, j, old, new, resp, hbound, hload, hev, hret, hdel, ?_, hkept, hid, ?_⟩
  · rw [hbound.nonce, hkept.nonce, hdel.nonce]
  · intro cr ca hca
    obtain ⟨c, -, -, -, hc, -⟩ := hdel.cert
    have hraw := hkept.cert
    rw [hc] at hraw
    obtain ⟨cert, hcert, -⟩ := Option.map_eq_some_iff.mp hraw
    refine ⟨cert, hcert, ?_⟩
    rw [← confirmationStatus_eq hbound.agree]
    exact hbound.caHandler_eq htype hcert cr hca

/-- A request, a recovery from a snapshot without `certReqId`s, and the confirmation,
up to the call of the handler. -/
def sampleConfirming : List ServerAction :=
  .spawn (sampleServer.processMessage sampleRequest) :: sampleSteps 0 16 1 ++
    .spawn (perform (.restart 10 10 false) >>= fun _ => pure none) :: sampleSteps 1 1 1 ++
    .spawn (sampleServer.processMessage sampleConfirmation) :: sampleSteps 2 2 2

lemma lives_of_sampleConfirming : ∀ a ∈ sampleConfirming, sampleServer.Lives a := by
  have hstarts : ∀ {a}, sampleServer.Starts a → sampleServer.Lives a :=
    fun h p hp => .serve (h p hp)
  have hsteps : ∀ i n time, ∀ a ∈ sampleSteps i n time, sampleServer.Lives a :=
    fun i n time a ha => hstarts (starts_sampleSteps _ i n time a ha)
  simp only [sampleConfirming, List.cons_append, List.append_assoc, List.forall_mem_cons,
    List.forall_mem_append]
  refine ⟨hstarts (sampleServer.starts_spawn (.message _)), hsteps _ _ _, fun p hp => ?_,
    hsteps _ _ _, hstarts (sampleServer.starts_spawn (.message _)), hsteps _ _ _⟩
  cases hp
  exact .recover 10 10 false

/-- The operation tells the handler of a certConf. -/
def tellsOfCertConf : Effect → Bool
  | .handleCMP _ msg _ => msg.body.type = BodyTypeCertConf
  | _ => false

/-- The confirmation after the recovery reaches the handler, bound to the response of
the first thread. -/
theorem certConf_bound_recovered :
    ∃ (s : ServerSys) (ctx : Ctx) (msg : PKIMessage) (sender : SenderIdentity),
      Sys.run exec (.init {}) sampleConfirming = some s ∧
      s.nextOp 2 = some (.handleCMP ctx msg sender) ∧
      ∃ (conf : CertConfirmContent) (credID : Bytes) (cell : Cell) (j : ℕ) (resp : PKIMessage),
        sampleServer.Bound conf credID cell ctx msg sender ∧
        s.threads[j]? = some (.ret (some resp)) ∧
        msg.header.recipNonce = resp.header.senderNonce := by
  have hrun : (Sys.run exec (.init {}) sampleConfirming).any (fun s =>
      (s.nextOp 2).any tellsOfCertConf) = true := by decide +kernel
  obtain ⟨s, hs, h⟩ := (Option.any_eq_true _ _).mp hrun
  obtain ⟨o, ho, hcall⟩ := (Option.any_eq_true _ _).mp h
  cases o with
  | handleCMP ctx msg sender =>
    obtain ⟨conf, credID, cell, j, old, new, resp, hbound, -, -, hret, -, hnonce, -⟩ :=
      certConf_bound sampleServer rfl sampleConfirming s lives_of_sampleConfirming hs 2 ctx msg
        sender ho (of_decide_eq_true hcall)
    exact ⟨s, ctx, msg, sender, hs, ho, conf, credID, cell, j, resp, hbound, hret, hnonce⟩
  | _ => cases hcall

end Server

end PkiCmp
