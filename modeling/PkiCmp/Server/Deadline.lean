/-
The deadline for the confirmation of a certificate (`ConfirmWaitTimeInfoValue`,
`setIssued` and `CleanupExpired`).

* `parseConfirmWaitTime_eq_ok`: the deadline that the client reads;
* `Processed.issues`: the entry that is stored with a certificate that was delivered
  together with a deadline;
* `Fate`: what can become of the entry, `Fate.turn`, `fate_of_turns`;
* `deadline_kept`;
* `capacity_returned`: what a cleanup leaves of the entries and of the counters.
-/
import PkiCmp.Codec.Names
import PkiCmp.Codec.Times
import PkiCmp.Server.Cleanup
import PkiCmp.Server.Delivery
import PkiCmp.Server.Recovery

namespace PkiCmp

open Der Interact

/-! ### What the client reads -/

/-- The last whole second of the time for the confirmation. -/
def deadlineOf (now : Time) (d : Duration) : Time := (now + d) / Time.second * Time.second

lemma year_deadlineOf (now : Time) (d : Duration) :
    (deadlineOf now d).year = Time.year (now + d) := by
  have hsec : Time.seconds (deadlineOf now d) = Time.seconds (now + d) :=
    Int.mul_ediv_cancel _ (by decide)
  unfold Time.year
  rw [hsec]

lemma deadlineOf_le (now : Time) (d : Duration) : deadlineOf now d ≤ now + d :=
  Int.ediv_mul_le _ (by decide)

lemma Time.format_ends (t : Time) : t.format.drop 14 = [90] ∧ t.format.length = 15 := by
  rcases hciv : Time.civil (t.seconds / 86400 + Time.epochShift) with ⟨y, m, d⟩
  simp only [Time.format, hciv]
  exact ⟨rfl, rfl⟩

/-- A time that was written with one library is read with the other. -/
lemma Asn1.unmarshalTime_element {t : Time} (h : t.Writable) :
    Asn1.unmarshalTime (element tagGeneralizedTime t.format) = some (t, []) := by
  obtain ⟨hdrop, hlen⟩ := t.format_ends
  have hread := Asn1.readTLV_element (t := tagGeneralizedTime) (c := t.format) [] (by decide)
    (by omega)
  have hparse : Asn1.parseGeneralizedTime t.format = some t := by
    rw [Asn1.parseGeneralizedTime, hdrop]
    exact Time.parse_format h.1 h.2.1 h.2.2
  rw [List.append_nil] at hread
  simp only [Asn1.unmarshalTime, hread, Option.bind_eq_bind, Option.bind_some]
  rw [if_neg (by decide), if_neg (by decide), if_pos (by decide), hparse]
  rfl

/-- The client reads the deadline when it can be written. -/
lemma parseConfirmWaitTime_ok {now : Time} {d : Duration} (hd : 0 < d)
    (h0 : 0 ≤ Time.year (now + d)) (h1 : Time.year (now + d) ≤ 9999) :
    parseConfirmWaitTime (confirmWaitTimeInfoValue now d) = .ok (deadlineOf now d) := by
  have hyear := year_deadlineOf now d
  have hwrite : Time.Writable (deadlineOf now d) :=
    ⟨Int.mul_emod_left _ _, by rwa [hyear], by rwa [hyear]⟩
  have hvalue : (addASN1GeneralizedTime (deadlineOf now d) : Except GoError Bytes) =
      .ok (element tagGeneralizedTime (deadlineOf now d).format) := by
    rw [addASN1GeneralizedTime, if_neg (by rw [hyear]; omega)]
    refine addASN1_eq_ok.mpr ⟨by decide, _, rfl, ?_, rfl⟩
    rw [(deadlineOf now d).format_ends.2]
    decide
  unfold parseConfirmWaitTime confirmWaitTimeInfoValue
  rw [if_neg (by simp)]
  simp only [if_neg (not_lt.mpr hd.le)]
  rw [show (now + d) / Time.second * Time.second = deadlineOf now d from rfl, hvalue]
  simp only [Asn1.unmarshalTime_element hwrite, ne_eq, not_true_eq_false, if_false]

/-- What the client reads is the deadline. -/
lemma eq_of_parseConfirmWaitTime {now D : Time} {d : Duration} (hd : 0 < d)
    (h : parseConfirmWaitTime (confirmWaitTimeInfoValue now d) = .ok D) : D = deadlineOf now d := by
  by_cases hyear : 0 ≤ Time.year (now + d) ∧ Time.year (now + d) ≤ 9999
  · rw [parseConfirmWaitTime_ok hd hyear.1 hyear.2] at h
    exact (Except.ok.inj h).symm
  · -- a time that cannot be written leaves the value empty
    have hvalue : (addASN1GeneralizedTime (deadlineOf now d) : Except GoError Bytes) =
        .error (BuildFailure.ofBuild .invalidTime) := by
      rw [addASN1GeneralizedTime, if_pos (by rw [year_deadlineOf]; omega)]
    unfold parseConfirmWaitTime confirmWaitTimeInfoValue at h
    rw [if_neg (by simp)] at h
    simp only [if_neg (not_lt.mpr hd.le)] at h
    rw [show (now + d) / Time.second * Time.second = deadlineOf now d from rfl, hvalue] at h
    cases h

namespace Server

/-! ### The entry of the certificate -/

/-- The clock as it was read along a trace. -/
def clock (tr : History) : List Time := tr.filterMap clockOf

lemma clock_append (tr tr' : History) : clock (tr ++ tr') = clock tr ++ clock tr' :=
  List.filterMap_append

lemma mem_clock_of_now {tr : History} {now : Time} (h : ⟨.now, now⟩ ∈ tr) : now ∈ clock tr :=
  List.mem_filterMap.mpr ⟨_, h, rfl⟩

/-- The message delivers a certificate together with the time until which it has to be
confirmed. -/
structure DeliveredBy (resp : Option PKIMessage) (pair : CertifiedKeyPair)
    (itav : InfoTypeAndValue) :
    Prop where
  certificate : ∃ p, resp = some p ∧ itav ∈ p.header.generalInfo ∧
    ∃ cr ∈ p.body.certResponses, cr.certifiedKeyPair = some pair
  confirmWaitTime : itav.infoType = oidConfirmWaitTime

lemma EmptyHanded.not_deliveredBy {resp : Option PKIMessage} (h : EmptyHanded resp)
    {pair : CertifiedKeyPair} {itav : InfoTypeAndValue} : ¬ DeliveredBy resp pair itav := by
  rintro ⟨⟨p, hp, -, cr, hcr, hpair⟩, -⟩
  rw [h p hp cr hcr] at hpair
  cases hpair

/-- The certificate is stored under the key; `told` is the time that the deadline was
computed from. -/
structure Deposited (srv : Server) (tr : History) (m' : Tracker) (pair : CertifiedKeyPair)
    (itav : InfoTypeAndValue) (key : TransactionKey) (c : Cell) (cert : Certificate) (told : Time) :
    Prop where
  cell : m'.cell key = some c
  state : c.entry.state = .issued
  holds : c.entry.cert = some cert
  delivered : pair = cert.keyPair
  computed : ⟨.now, told⟩ ∈ tr
  stored : ⟨.now, c.entry.lastActivity⟩ ∈ tr
  value : itav = confirmWaitTimeInfoValue told srv.cfg.confirmWait
  order : (clock tr).Pairwise (· ≤ ·) → told ≤ c.entry.lastActivity

section

variable {srv : Server} {msg q : PKIMessage} {s : SenderIdentity} {credID : Bytes} {tr : History}
variable {resp : Option PKIMessage} {m m' : Tracker} {r : HandlerResult}
variable {pair : CertifiedKeyPair} {itav : InfoTypeAndValue}

lemma Deposited.prepend {key : TransactionKey} {c : Cell} {cert : Certificate} {told : Time}
    (h : srv.Deposited tr m' pair itav key c cert told) (tr0 : History) :
    srv.Deposited (tr0 ++ tr) m' pair itav key c cert told where
  __ := h
  computed := List.mem_append_right _ h.computed
  stored := List.mem_append_right _ h.stored
  order hclock := by
    rw [clock_append] at hclock
    exact h.order (List.pairwise_append.mp hclock).2.1

/-- A certificate that is delivered with a deadline is stored before it is sent. -/
lemma Conclusion.deposited {reqType : RequestType} {certReqID : ℤ} {c : Cell}
    (h : srv.Conclusion q s credID c reqType certReqID r m tr resp m')
    (hdel : DeliveredBy resp pair itav) :
    ∃ c' cert told, srv.Deposited tr m' pair itav
      (srv.tracker.makeKey credID q.header.transactionID) c' cert told := by
  cases h with
  | unchanged hresp _ => exact absurd hdel hresp.not_deliveredBy
  | waiting _ _ _ hbody ha => exact absurd hdel (emptyHanded_of_asksToWait hbody ha).not_deliveredBy
  | implicit _ _ _ _ hgrants ha =>
    -- the answer grants implicit confirmation instead
    obtain ⟨⟨p, hp, hmem, -⟩, hoid⟩ := hdel
    cases hp
    rw [ha.granted hgrants, List.mem_singleton] at hmem
    rw [hmem] at hoid
    exact absurd hoid (by decide)
  | issued _ _ _ _ hgrants ha hnow =>
    obtain ⟨⟨p, hp, hmem, cr, hcr, hpair⟩, -⟩ := hdel
    cases hp
    obtain hnone | ⟨-, -, told, htold, hinfo⟩ := ha.deadline hgrants
    · rw [hnone] at hmem
      cases hmem
    rw [hinfo, List.mem_singleton] at hmem
    obtain hb | ⟨p', rfl⟩ := ha.answers.cases
    · rw [hb, certResponses_certRepBody, List.mem_singleton] at hcr
      rw [hcr] at hpair
      refine ⟨_, _, told, (Tracker.cell_publish ..).trans (if_pos rfl), rfl, rfl,
        (Option.some.inj hpair).symm, List.mem_append_left _ htold, List.mem_append_right _ hnow,
        hmem, fun hclock => ?_⟩
      rw [clock_append] at hclock
      exact (List.pairwise_append.mp hclock).2.2 _ (mem_clock_of_now htold) _
        (mem_clock_of_now hnow)
    · cases hcr

/-- The key of the transaction that the handler was called for. -/
def KeyOf (srv : Server) (tr : History) (key : TransactionKey) : Prop :=
  ∃ ctx q s r credID, ⟨.handleCMP ctx q s, r⟩ ∈ tr ∧ s.credentialID srv.crypto = .ok credID ∧
    key = srv.tracker.makeKey credID q.header.transactionID

/-- **The certificate is stored** by every message that delivers one with a deadline. -/
lemma Processed.deposited (h : srv.Processed msg m tr resp m') (hdel : DeliveredBy resp pair itav) :
    ∃ key c cert told, srv.KeyOf tr key ∧ srv.Deposited tr m' pair itav key c cert told := by
  cases h with
  | idle hresp _ => exact absurd hdel hresp.not_deliveredBy
  | @request q s credID _ r _ _ _ _ _ hcred _ _ _ _ hset =>
    obtain ⟨c, cert, told, h⟩ := hset.deposited hdel
    refine ⟨_, c, cert, told, ⟨_, q, s, r, credID, List.mem_append_right _ List.mem_cons_self,
      hcred, rfl⟩, ?_⟩
    rw [List.append_cons]
    exact h.prepend _
  | @poll q s credID _ _ r _ _ _ _ _ hcred _ _ _ _ _ _ _ hset =>
    obtain ⟨c, cert, told, h⟩ := hset.deposited hdel
    refine ⟨_, c, cert, told, ⟨_, q, s, r, credID, List.mem_append_right _ List.mem_cons_self,
      hcred, rfl⟩, ?_⟩
    rw [List.append_cons]
    exact h.prepend _
  | confirm _ _ _ _ _ _ _ _ hset ha =>
    refine absurd hdel (ha.emptyHanded ?_).not_deliveredBy
    split at hset
    · rw [hset.2]
      exact List.forall_mem_nil _
    · rw [hset.1]
      exact List.forall_mem_nil _
  | revoke _ _ _ _ _ _ hresp => exact absurd hdel hresp.not_deliveredBy

lemma deposited_of_thread (hh : srv.handler = .external) {p : ServerThread}
    (hp : srv.Thread p) (h : p.Runs exec m tr resp m') (hdel : DeliveredBy resp pair itav) :
    ∃ key c cert told, srv.KeyOf tr key ∧ srv.Deposited tr m' pair itav key c cert told := by
  cases hp with
  | message msg => exact (processed_of_runs hh h).deposited hdel
  | cleanup =>
    obtain ⟨_, _, _, _, rfl, -, hret⟩ := Prog.runs_bind_iff.mp h
    obtain ⟨-, rfl, -⟩ := Prog.runs_ret_iff.mp hret
    obtain ⟨⟨p, hp, -⟩, -⟩ := hdel
    cases hp

/-! ### What becomes of the entry -/

/-- A certConf for the certificate of the entry was accepted. -/
def ConfirmedBy (c : Cell) (tr : History) : Prop :=
  ∃ ctx q s r, ⟨.handleCMP ctx q s, r⟩ ∈ tr ∧ q.body.type = BodyTypeCertConf ∧
    ctx.issued = some ⟨c.entry.cert, c.entry.issueRef, c.txn⟩ ∧ r.err = none

/-- The result of a handler touches the entry of its own transaction only. -/
lemma Conclusion.cell_of_ne {reqType : RequestType} {certReqID : ℤ} {c : Cell}
    (h : srv.Conclusion q s credID c reqType certReqID r m tr resp m') {key : TransactionKey}
    (hne : key ≠ srv.tracker.makeKey credID q.header.transactionID) : m'.cell key = m.cell key := by
  cases h with
  | unchanged => rfl
  | waiting => rw [Tracker.cell_publish, if_neg hne]
  | implicit => rw [Tracker.cell_publish, if_neg hne]
  | issued => rw [Tracker.cell_publish, if_neg hne]

/-- **A message leaves the entry alone**, unless it is a certConf that is accepted. -/
lemma Processed.issued_kept (h : srv.Processed msg m tr resp m') {key : TransactionKey} {c : Cell}
    (hc : m.cell key = some c) (hstate : c.entry.state = .issued) :
    m'.cell key = some c ∨ ConfirmedBy c tr ∧
      ∀ {key' c'}, m'.cell key' = some c' → key' ≠ key ∧ m.cell key' = some c' := by
  have hfree : ∀ {key'}, m.cell key' = none → key ≠ key' := by
    rintro _ hnone rfl
    rw [hc] at hnone
    cases hnone
  cases h with
  | idle => exact .inl hc
  | request _ _ _ hnone _ _ hset =>
    rw [hset.cell_of_ne (hfree hnone), Tracker.cell_start, if_neg (hfree hnone)]
    exact .inl hc
  | poll _ _ _ _ hc' hstate' _ _ _ hset =>
    rw [hset.cell_of_ne]
    · exact .inl hc
    · rintro rfl
      obtain rfl := Option.some.inj (hc.symm.trans hc')
      rw [hstate] at hstate'
      cases hstate'
  | @confirm q _ credID _ _ _ _ _ _ _ _ _ hq hc' _ _ _ _ hset _ =>
    split at hset
    · rw [hset.1]
      exact .inl hc
    · next herr =>
      rw [hset.2]
      by_cases hkey : key = srv.tracker.makeKey credID q.header.transactionID
      · subst hkey
        obtain rfl := Option.some.inj (hc.symm.trans hc')
        refine .inr ⟨⟨_, _, _, _, List.mem_append_right _ List.mem_cons_self, hq, rfl, herr⟩, ?_⟩
        intro key' c' h
        rw [Tracker.cell_charge, Tracker.cell_remove] at h
        split_ifs at h with hne
        exact ⟨hne, h⟩
      · rw [Tracker.cell_charge, Tracker.cell_remove, if_neg hkey]
        exact .inl hc
  | revoke _ _ _ hnone _ _ _ =>
    rw [Tracker.cell_publish, if_neg (hfree hnone), Tracker.cell_start, if_neg (hfree hnone)]
    exact .inl hc

end

/-! ### Runs -/

/-- All that happened in the turns, one after the other. -/
def traceOf (ts : List ServerTurn) : History :=
  ts.flatMap Turn.trace

lemma traceOf_append (ts us : List ServerTurn) :
    traceOf (ts ++ us) = traceOf ts ++ traceOf us := List.flatMap_append

lemma traceOf_singleton (t : ServerTurn) :
    traceOf [t] = t.trace := List.flatMap_singleton ..

/-- The turn is a cleanup. -/
def IsCleanup (srv : Server) (t : ServerTurn) : Prop :=
  t.prog = srv.cleanupExpired >>= fun _ => pure none

/-- The reports of a run are about transactions that are over. -/
structure Accounted (past : List ServerTurn) (m : Tracker) :
    Prop where
  wf : m.Wf
  gone : ∀ {txn}, expiries txn (traceOf past) ≠ [] → m.Gone txn

/-- What became of the entry after the given turns: it is still there, or a certConf was
accepted, or a cleanup came too late for it. -/
inductive Fate (srv : Server) (key : TransactionKey) (c : Cell) (cert : Certificate)
    (past : List ServerTurn) (m : Tracker) : Prop
  | kept (hc : m.cell key = some c) (hexp : expiries c.txn (traceOf past) = [])
      (hclean : ∀ t ∈ past, srv.IsCleanup t → ∀ now ∈ clock t.trace,
        now ≤ c.entry.lastActivity + srv.cfg.confirmWait)
  | confirmed (hconf : ∃ t ∈ past, ConfirmedBy c t.trace) (hgone : m.Gone c.txn)
      (hexp : expiries c.txn (traceOf past) = [])
  | expired (hlate : ∃ t ∈ past, srv.IsCleanup t ∧ ∃ now ∈ clock t.trace,
        c.entry.lastActivity + srv.cfg.confirmWait < now) (hgone : m.Gone c.txn)
      (hexp : expiries c.txn (traceOf past) =
        if srv.cfg.confirmer then [(cert, c.entry.issueRef)] else [])

section

variable {srv : Server} {past ts : List ServerTurn}
variable {t : ServerTurn} {m m' : Tracker} {key : TransactionKey}
variable {c : Cell} {cert : Certificate}

lemma expiries_traceOf (txn : ℕ) :
    expiries txn (traceOf (past ++ [t])) = expiries txn (traceOf past) ++ expiries txn t.trace := by
  rw [traceOf_append, traceOf_singleton, expiries_append]

lemma Accounted.turn (h : Accounted past m) (hh : srv.handler = .external)
    (hd : 0 < srv.cfg.confirmWait) (ht : srv.Thread t.prog)
    (hrun : t.prog.Runs exec m t.trace t.result m') : Accounted (past ++ [t]) m' := by
  refine ⟨wf_of_does hrun.does h.wf, fun {txn} hne => ?_⟩
  by_cases hpast : expiries txn (traceOf past) = []
  · rw [expiries_traceOf, hpast, List.nil_append] at hne
    exact (expiries_of_thread hh hd ht hrun h.wf txn).2 hne
  · exact gone_of_does hrun.does (h.gone hpast)

/-- A cleanup leaves the entry alone or comes too late for it. -/
lemma Fate.swept (hd : 0 < srv.cfg.confirmWait) (hw : m.Wf) (hstate : c.entry.state = .issued)
    (hcert : c.entry.cert = some cert) (hclean : srv.IsCleanup t)
    (hrun : t.prog.Runs exec m t.trace t.result m') (hc : m.cell key = some c) :
    (m'.cell key = some c ∧ expiries c.txn t.trace = [] ∧
      ∀ now ∈ clock t.trace, now ≤ c.entry.lastActivity + srv.cfg.confirmWait) ∨
    (m'.Gone c.txn ∧ expiries c.txn t.trace =
      (if srv.cfg.confirmer then [(cert, c.entry.issueRef)] else []) ∧
      ∃ now ∈ clock t.trace, c.entry.lastActivity + srv.cfg.confirmWait < now) := by
  rw [hclean] at hrun
  obtain ⟨now, keys, hswept⟩ := swept_of_runs hd hrun
  have hclock : clock t.trace = [now] := hswept.clock
  cases hold : c.entry.lastActivity.before (now - srv.cfg.confirmWait) with
  | false =>
    refine .inl ⟨hswept.cell_of_young hc hold, hswept.expiries_of_young hw hc hold, ?_⟩
    rw [hclock, List.forall_mem_singleton]
    have hnot : ¬ c.entry.lastActivity < now - srv.cfg.confirmWait := of_decide_eq_false hold
    linarith
  | true =>
    refine .inr ⟨hswept.gone hw (nextPtr_le_of_does hrun.does) hc hold, ?_, ?_⟩
    · rw [hswept.expiries_of_cell hw hc]
      simp [TrackerConfig.report, hold, hstate, hcert, expiryOfInfo]
    · rw [hclock]
      refine ⟨now, List.mem_singleton_self _, ?_⟩
      have hlt : c.entry.lastActivity < now - srv.cfg.confirmWait := of_decide_eq_true hold
      linarith

/-- **One more turn.** -/
lemma Fate.turn (h : srv.Fate key c cert past m) (hw : m.Wf) (hh : srv.handler = .external)
    (hd : 0 < srv.cfg.confirmWait) (hstate : c.entry.state = .issued)
    (hcert : c.entry.cert = some cert) (ht : srv.Thread t.prog)
    (hrun : t.prog.Runs exec m t.trace t.result m') : srv.Fate key c cert (past ++ [t]) m' := by
  have hmem : t ∈ past ++ [t] := List.mem_append_right _ (List.mem_singleton_self t)
  have hold : ∀ {P : ServerTurn → Prop}, (∃ v ∈ past, P v) →
      ∃ v ∈ past ++ [t], P v := fun ⟨v, hv, hP⟩ => ⟨v, List.mem_append_left _ hv, hP⟩
  -- once the transaction is over, nothing is reported about it
  have hover : m.Gone c.txn → m'.Gone c.txn ∧ expiries c.txn t.trace = [] := fun hg =>
    ⟨gone_of_does hrun.does hg, (expiries_of_thread hh hd ht hrun hw c.txn).1 hg⟩
  cases h with
  | confirmed hconf hgone hexp =>
    refine .confirmed (hold hconf) (hover hgone).1 ?_
    rw [expiries_traceOf, hexp, (hover hgone).2, List.append_nil]
  | expired hlate hgone hexp =>
    refine .expired (hold hlate) (hover hgone).1 ?_
    rw [expiries_traceOf, hexp, (hover hgone).2, List.append_nil]
  | kept hc hexp hclean =>
    by_cases hcleanup : srv.IsCleanup t
    · obtain ⟨hc', hexp', hnow⟩ | ⟨hgone, hexp', hnow⟩ :=
        Fate.swept hd hw hstate hcert hcleanup hrun hc
      · refine .kept hc' ?_ fun v hv hv' => ?_
        · rw [expiries_traceOf, hexp, hexp', List.append_nil]
        · obtain hv | hv := List.mem_append.mp hv
          · exact hclean v hv hv'
          · rw [List.mem_singleton.mp hv]
            exact hnow
      · refine .expired ⟨t, hmem, hcleanup, hnow⟩ hgone ?_
        rw [expiries_traceOf, hexp, hexp', List.nil_append]
    · obtain ⟨msg, hmsg⟩ : ∃ msg, t.prog = srv.processMessage msg := by
        generalize hp : t.prog = p at ht
        cases ht with
        | message msg => exact ⟨msg, rfl⟩
        | cleanup => exact absurd hp hcleanup
      rw [hmsg] at hrun
      have hexp' := expiries_of_ordinary (ordinary_of_steps hh hrun.steps) c.txn
      obtain hc' | ⟨hconfirmed, hcells⟩ := (processed_of_runs hh hrun).issued_kept hc hstate
      · refine .kept hc' ?_ fun v hv hv' => ?_
        · rw [expiries_traceOf, hexp, hexp', List.append_nil]
        · obtain hv | hv := List.mem_append.mp hv
          · exact hclean v hv hv'
          · rw [List.mem_singleton.mp hv] at hv'
            exact absurd hv' hcleanup
      · refine .confirmed ⟨t, hmem, hconfirmed⟩ (hw.gone hc (nextPtr_le_of_does hrun.does) hcells)
          ?_
        rw [expiries_traceOf, hexp, hexp', List.append_nil]

lemma accounted_of_turns (hh : srv.handler = .external) (hd : 0 < srv.cfg.confirmWait)
    (h : Turns exec {} ts m) (hthreads : ∀ v ∈ ts, srv.Thread v.prog) : Accounted ts m :=
  h.invariant (J := Accounted) ⟨.empty 0, fun hne => absurd rfl hne⟩
    fun _ _ _ _ ht hJ hrun => hJ.turn hh hd (hthreads _ ht) hrun

/-- What becomes of an entry in a run. -/
lemma fate_of_turns (hh : srv.handler = .external) (hd : 0 < srv.cfg.confirmWait)
    (h : Turns exec m ts m') (hw : m.Wf) (hthreads : ∀ v ∈ ts, srv.Thread v.prog)
    (hc : m.cell key = some c) (hstate : c.entry.state = .issued)
    (hcert : c.entry.cert = some cert) : srv.Fate key c cert ts m' := by
  have hinv := h.invariant
    (J := fun past m => m.Wf ∧ srv.Fate key c cert past m) ⟨hw, .kept hc rfl (by simp)⟩
    fun past t m m' ht hJ hrun => ⟨wf_of_does hrun.does hJ.1,
      hJ.2.turn hJ.1 hh hd hstate hcert (hthreads t ht) hrun⟩
  exact hinv.2

end

/-- **The deadline is kept**: messages and cleanups come one after the other, and the clock
does not go back.  When a response delivers a certificate together with a confirmWaitTime,
the certificate is stored under the key of its transaction.  The client can read the
deadline, if it is before the year 10000.  As long as the clock has not passed the
deadline, nothing is reported about the certificate, and the entry is there unless a
certConf was accepted.  After a cleanup that runs later than the confirmation time after
the entry was stored, the entry is gone, and the certificate was reported as expired once
in the whole run, unless a certConf was accepted. -/
theorem deadline_kept (srv : Server) (hh : srv.handler = .external)
    (hd : 0 < srv.cfg.confirmWait) (pre post : List ServerTurn)
    (t : ServerTurn) (m m1 m' : Tracker)
    (hpre : Turns exec {} pre m) (ht : t.prog.Runs exec m t.trace t.result m1)
    (hpost : Turns exec m1 post m') (hthreads : ∀ v ∈ pre ++ t :: post, srv.Thread v.prog)
    (hclock : (clock (traceOf (pre ++ t :: post))).Pairwise (· ≤ ·))
    (pair : CertifiedKeyPair) (itav : InfoTypeAndValue) (hdel : DeliveredBy t.result pair itav) :
    ∃ key c cert, srv.KeyOf t.trace key ∧ m1.cell key = some c ∧ c.entry.state = .issued ∧
      c.entry.cert = some cert ∧ pair = cert.keyPair ∧
      ⟨.now, c.entry.lastActivity⟩ ∈ t.trace ∧
      ((∀ now, ⟨.now, now⟩ ∈ t.trace → 0 ≤ Time.year (now + srv.cfg.confirmWait) ∧
        Time.year (now + srv.cfg.confirmWait) ≤ 9999) → ∃ D, parseConfirmWaitTime itav = .ok D) ∧
      (∀ D, parseConfirmWaitTime itav = .ok D → (∀ now ∈ clock (traceOf post), now ≤ D) →
        expiries c.txn (traceOf post) = [] ∧
        (m'.cell key = some c ∨ ∃ v ∈ post, ConfirmedBy c v.trace)) ∧
      ((∃ v ∈ post, srv.IsCleanup v ∧ ∃ now ∈ clock v.trace,
          c.entry.lastActivity + srv.cfg.confirmWait < now) →
        m'.Gone c.txn ∧
        ((∃ v ∈ post, ConfirmedBy c v.trace) ∧ expiries c.txn (traceOf (pre ++ t :: post)) = [] ∨
          (srv.cfg.confirmer →
            expiries c.txn (traceOf (pre ++ t :: post)) = [(cert, c.entry.issueRef)]))) := by
  have hacc := accounted_of_turns hh hd hpre fun v hv => hthreads v (List.mem_append_left _ hv)
  have hacc1 : Accounted (pre ++ [t]) m1 := hacc.turn hh hd (hthreads t (by simp)) ht
  obtain ⟨key, c, cert, told, hkey, hdep⟩ := deposited_of_thread hh (hthreads t (by simp)) ht hdel
  have hfate := fate_of_turns hh hd hpost hacc1.wf (fun v hv => hthreads v (by simp [hv]))
    hdep.cell hdep.state hdep.holds
  have htold : told ≤ c.entry.lastActivity := by
    refine hdep.order ?_
    rw [List.append_cons, traceOf_append, traceOf_append, traceOf_singleton, clock_append,
      clock_append] at hclock
    exact (List.pairwise_append.mp (List.pairwise_append.mp hclock).1).2.1
  -- the certificate was not reported before it was stored
  have hpast : expiries c.txn (traceOf (pre ++ [t])) = [] := by
    by_contra hne
    exact (hacc1.gone hne).absent hdep.cell rfl
  have hwhole : expiries c.txn (traceOf (pre ++ t :: post)) = expiries c.txn (traceOf post) := by
    rw [List.append_cons, traceOf_append, expiries_append, hpast, List.nil_append]
  refine ⟨key, c, cert, hkey, hdep.cell, hdep.state, hdep.holds, hdep.delivered, hdep.stored,
    fun hyear => ?_, fun D hD hbefore => ?_, fun hlate => ?_⟩
  · obtain ⟨h0, h1⟩ := hyear told hdep.computed
    exact ⟨_, hdep.value ▸ parseConfirmWaitTime_ok hd h0 h1⟩
  · cases hfate with
    | kept hc hexp _ => exact ⟨hexp, .inl hc⟩
    | confirmed hconf _ hexp => exact ⟨hexp, .inr hconf⟩
    | expired hlate _ _ =>
      -- a cleanup that comes too late comes after the deadline
      obtain ⟨v, hv, -, now, hnow, hlt⟩ := hlate
      have hmem : now ∈ clock (traceOf post) := by
        obtain ⟨e, he, hclk⟩ := List.mem_filterMap.mp hnow
        exact List.mem_filterMap.mpr ⟨e, List.mem_flatMap.mpr ⟨v, hv, he⟩, hclk⟩
      rw [hdep.value] at hD
      have hDle := deadlineOf_le told srv.cfg.confirmWait
      rw [← eq_of_parseConfirmWaitTime hd hD] at hDle
      have hnowD := hbefore now hmem
      linarith
  · cases hfate with
    | kept _ _ hclean =>
      obtain ⟨v, hv, hcleanup, now, hnow, hlt⟩ := hlate
      exact absurd (hclean v hv hcleanup now hnow) (not_le.mpr hlt)
    | confirmed hconf hgone hexp => exact ⟨hgone, .inl ⟨hconf, hwhole.trans hexp⟩⟩
    | expired _ hgone hexp =>
      refine ⟨hgone, .inr fun hconfirmer => ?_⟩
      rw [hwhole, hexp, if_pos hconfirmer]

/-- A server that waits ten seconds for the confirmation. -/
def confirmingServer : Server :=
  .new .sample 0 .external
    { secretLookup := true, confirmWait := 10 * Time.second, confirmer := true }

/-- A request at time 1, and a cleanup eleven seconds later. -/
def expiringRun : Option (List ServerTurn × Tracker) :=
  recordTurns exec
    [(confirmingServer.processMessage sampleRequest, fun _ => sampleOracle 1),
     (confirmingServer.cleanupExpired >>= fun _ => pure none,
      fun _ => sampleOracle (1 + 11 * Time.second))] {}

/-- The answer delivers a certificate with a deadline. -/
def deliversWithDeadline (resp : Option PKIMessage) : Bool :=
  resp.any fun p => p.header.generalInfo.any (fun itav => itav.infoType = oidConfirmWaitTime) &&
    p.body.certResponses.any fun cr => cr.certifiedKeyPair.isSome

lemma deliveredBy_of_deliversWithDeadline {resp : Option PKIMessage}
    (h : deliversWithDeadline resp) :
    ∃ pair itav, DeliveredBy resp pair itav := by
  obtain ⟨p, rfl, hp⟩ := (Option.any_eq_true _ _).mp h
  obtain ⟨hinfo, hcert⟩ := Bool.and_eq_true_iff.mp hp
  obtain ⟨itav, hitav, hoid⟩ := List.any_eq_true.mp hinfo
  obtain ⟨cr, hcr, hsome⟩ := List.any_eq_true.mp hcert
  obtain ⟨pair, hpair⟩ := Option.isSome_iff_exists.mp hsome
  exact ⟨pair, itav, ⟨p, rfl, hitav, cr, hcr, hpair⟩, of_decide_eq_true hoid⟩

/-- The first turn delivers with a deadline at time 1, and the second one comes eleven seconds
later. -/
def expiresLate : List ServerTurn × Tracker → Bool
  | ([t, u], _) => deliversWithDeadline t.result &&
      decide ((clock (traceOf [t, u])).Pairwise (· ≤ ·)) &&
      (clock t.trace).all (· = 1) && clock u.trace = [1 + 11 * Time.second]
  | _ => false

/-- The certificate of the request is reported once. -/
theorem deadline_kept_sample :
    ∃ (t u : ServerTurn) (m' : Tracker) (c : Cell)
      (cert : Certificate), Turns exec {} [t, u] m' ∧ m'.Gone c.txn ∧
      deliversWithDeadline t.result ∧ c.entry.cert = some cert ∧
      expiries c.txn (traceOf [t, u]) = [(cert, c.entry.issueRef)] := by
  have hrun : expiringRun.any expiresLate = true := by decide +kernel
  obtain ⟨⟨ts, m'⟩, hrec, hts⟩ := (Option.any_eq_true _ _).mp hrun
  obtain ⟨hturns, hprogs⟩ := turns_of_recordTurns hrec
  unfold expiresLate at hts
  split at hts
  · next t u _ heq =>
    cases heq
    simp only [Bool.and_eq_true, decide_eq_true_eq] at hts
    obtain ⟨⟨⟨hwith, hclock⟩, hone⟩, hlate⟩ := hts
    obtain ⟨hp, hp'⟩ : t.prog = confirmingServer.processMessage sampleRequest ∧
        u.prog = confirmingServer.cleanupExpired >>= fun _ => pure none := by simpa using hprogs
    obtain ⟨m1, ht, hu⟩ := turns_cons_iff.mp hturns
    obtain ⟨pair, itav, hdel⟩ := deliveredBy_of_deliversWithDeadline hwith
    have hthreads : ∀ v ∈ [t, u], confirmingServer.Thread v.prog := by
      intro v hv
      simp only [List.mem_cons, List.not_mem_nil, or_false] at hv
      rcases hv with rfl | rfl
      · exact hp ▸ .message _
      · exact hp' ▸ .cleanup
    obtain ⟨key, c, cert, -, -, -, hcert, -, hstored, -, -, hafter⟩ := deadline_kept
      confirmingServer rfl (by decide) [] [u] t {} m1 m' (.nil _) ht hu hthreads hclock pair itav
        hdel
    have hlast : c.entry.lastActivity = 1 :=
      of_decide_eq_true (List.all_eq_true.mp hone _ (mem_clock_of_now hstored))
    obtain ⟨hgone, ⟨⟨v, hv, ctx, q, s, r, hcall, -⟩, -⟩ | honce⟩ :=
      hafter ⟨u, List.mem_singleton_self u, hp', 1 + 11 * Time.second, by simp [hlate], by
        rw [hlast]; decide⟩
    · -- the cleanup calls no handler
      rw [List.mem_singleton.mp hv] at hcall
      obtain ⟨m2, hrun, -⟩ := turns_cons_iff.mp hu
      exact ((within_of_cleanup (hp' ▸ hrun.steps)).no_call (fun _ _ _ h => h) hcall).elim
    · exact ⟨t, u, m', c, cert, hturns, hgone, hwith, hcert, honce rfl⟩
  · cases hts

/-! ### What a cleanup gives back -/

/-- A cleanup that runs alone leaves a server at rest. -/
lemma Reachable.cleaned {srv : Server} {P : Bytes → Bytes → Prop} {m m' : Tracker}
    (hm : srv.Reachable P m) {tr : History} {resp : Option PKIMessage}
    (h : (srv.cleanupExpired >>= fun _ => pure none).Runs exec m tr resp m') :
    srv.Reachable P m' := by
  obtain ⟨cs, s, rfl, hq, hrun⟩ := h.exists_run []
  refine @serve srv P m [] (.spawn (srv.cleanupExpired >>= fun _ => pure none) ::
    cs.map (.step 0)) s hm ?_ (fun c x hpair => ?_) hrun hq
  · rw [List.forall_mem_cons, List.forall_mem_map]
    refine ⟨fun p hp => ?_, fun c _ p h => by cases h⟩
    cases hp
    exact .inr rfl
  · obtain ⟨msg, hmsg, -⟩ := hpair
    cases hmsg

/-- **A cleanup gives back what is over**: whenever a server is at rest, a cleanup that runs alone
keeps the entries that are not older than the confirmation time as they are, and no others.  The
counters are then the numbers of these entries, and a credential all of whose entries are older
has its whole share again. -/
theorem capacity_returned (srv : Server) (P : Bytes → Bytes → Prop) (hd : srv.Digests P)
    (hh : srv.handler = .external) (hwait : 0 < srv.cfg.confirmWait) (m m' : Tracker)
    (hm : srv.Reachable P m) (tr : History) (resp : Option PKIMessage)
    (hclean : (srv.cleanupExpired >>= fun _ => pure none).Runs exec m tr resp m') :
    ∃ now, clock tr = [now] ∧
      (∀ key c, m'.cell key = some c ↔
        m.cell key = some c ∧ now ≤ c.entry.lastActivity + srv.cfg.confirmWait) ∧
      ∀ sc : TrackerConfig.Scope, sc.counter m' = m'.countIf sc.has ∧
        ((∀ key c, m.cell key = some c → sc.has c.entry →
          c.entry.lastActivity + srv.cfg.confirmWait < now) → sc.counter m' = 0) := by
  obtain ⟨now, keys, hswept⟩ := swept_of_runs hwait hclean
  have hcells : ∀ key c, m'.cell key = some c ↔
      m.cell key = some c ∧ now ≤ c.entry.lastActivity + srv.cfg.confirmWait := by
    intro key c
    rw [hswept.cells, Option.filter_eq_some_iff]
    simp [Time.before]
  have hcount := ((hm.cleaned hclean).inOrder hd hh).counters
  refine ⟨now, hswept.clock, hcells, fun sc => ⟨hcount sc, fun hold => ?_⟩⟩
  rw [hcount sc, Nat.cast_eq_zero, Tracker.countIf, List.countP_eq_zero]
  rintro ⟨key, c⟩ hmem hhas
  obtain ⟨hc, hyoung⟩ := (hcells key c).mp (AList.mem_lookup_iff.mpr hmem)
  exact absurd hyoung (not_le.mpr (hold key c hc hhas))

/-- The run of a request leaves one transaction, and a cleanup eleven seconds later leaves none. -/
def tailExpires (resp : Response) (steps : ℕ) : Bool :=
  (Sys.run exec (.init {}) (tailRun resp steps)).any fun s =>
    s.Quiescent && s.mem.count = 1 &&
      ((tailServer.cleanupExpired >>= fun _ => pure (none : Option PKIMessage)).record exec
        (fun _ => sampleOracle (1 + 11 * Time.second)) 0 s.mem).any fun q => q.2.2.count = 0

/-- The transaction of a request is given back eleven seconds later. -/
theorem capacity_returned_expired :
    ∃ (P : Bytes → Bytes → Prop) (m m' : Tracker) (now : Time), tailServer.Digests P ∧
      tailServer.Reachable P m ∧ m.count = 1 ∧ m'.count = 0 ∧
      ∀ key c, m'.cell key = some c ↔
        m.cell key = some c ∧ now ≤ c.entry.lastActivity + tailServer.cfg.confirmWait := by
  have hrun : tailExpires { certificate := some sampleCertificate } 16 = true := by decide +kernel
  obtain ⟨s, hs, h⟩ := (Option.any_eq_true _ _).mp hrun
  simp only [Bool.and_eq_true, decide_eq_true_eq] at h
  obtain ⟨⟨hq, hone⟩, h⟩ := h
  obtain ⟨⟨tr, resp, m'⟩, hclean, hnone⟩ := (Option.any_eq_true _ _).mp h
  have hd := tailServer_digests { certificate := some sampleCertificate } 16
  have hreach : tailServer.Reachable _ s.mem :=
    .serve (.fresh 0) (fun a ha => (serves_of_tailRun (by simp [sampleCertificate]) 16 a ha).1)
      (fun _ _ h => h) hs hq
  obtain ⟨now, -, hcells, -⟩ := capacity_returned tailServer _ hd rfl (by decide) s.mem m' hreach tr
    resp (Prog.runs_of_record hclean)
  exact ⟨_, s.mem, m', now, hd, hreach, hone, of_decide_eq_true hnone, hcells⟩

end Server

end PkiCmp
