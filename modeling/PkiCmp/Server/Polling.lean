/-
Polling, as one thread sees it (`handlePollReq` of `server/response.go`,
`setPending` and `cleanupExpired` of `server/transaction.go`).

A pollRep advertises whole seconds; what the server enforces is the duration the
handler returned, and what the cleanup looks at is the window for confirmations.

* `advertised`, `le_advertised_iff`: for which durations the interval that is
  enforced is at most the one that is advertised;
* `pollMonitor`: what a thread does before it stores a pending entry or removes
  one;
* `Truthful`, `thread_truthful`: what it has answered when it stored a pending entry,
  and what it has seen when it refuses a poll as too frequent.
-/
import PkiCmp.Server.Authentication
import PkiCmp.Server.Memory

namespace PkiCmp

open Der Interact

/-! ### Intervals -/

/-- The seconds that a pollRep tells the client to wait. -/
def advertised (d : Duration) : ℤ := max (d.tdiv Time.second) 1

/-- **What is enforced is what is advertised** for whole seconds, and for durations of
at most one second, whatever their sign. -/
lemma le_advertised_iff (d : Duration) :
    d ≤ advertised d * Time.second ↔ d ≤ Time.second ∨ Time.second ∣ d := by
  have hint : ∀ d : ℤ, d ≤ max (d.tdiv 1000000000) 1 * 1000000000 ↔
      d ≤ 1000000000 ∨ (1000000000 : ℤ) ∣ d := by
    intro d
    rcases le_or_gt d 0 with hneg | hpos
    · omega
    · rw [Int.tdiv_eq_ediv_of_nonneg hpos.le]
      omega
  exact hint d

/-! ### Threads -/

/-- The operations that are neither a call of the handler, nor a look at a pending entry,
nor the storing or the expiry of one. -/
def Effect.Aside : Effect → Prop
  | .load .getPending _ | .handleCMP .. | .restart .. | .loadAndDelete .cleanupExpired _ _ => False
  | .loadOrStore _ e => e.state ≠ .pending
  | .compareAndSwap site _ _ e => site ≠ .setPending ∧ e.state ≠ .pending
  | _ => True

lemma Effect.Outer.aside {o : Effect} (h : o.Outer) : o.Aside := by
  cases o with
  | loadOrStore key entry => simp [Effect.Aside, show entry.state = .active from h]
  | _ => trivial

lemma Effect.Building.aside {o : Effect} (h : o.Building) : o.Aside := h.outer.aside

namespace TrackerConfig

/-- `setCompleted` stores no pending entry. -/
lemma complete_aside (key : TransactionKey) (retries : ℕ) :
    Prog.Only Effect.Aside (complete key retries) :=
  complete_of trivial trivial trivial (fun _ _ h => ⟨by decide, by rw [h]; decide⟩) retries

end TrackerConfig

namespace Server

/-- The handler asked for the wait. -/
def Heard (w : WaitingResponse) (h : History) : Prop :=
  ∃ ctx q s r, ⟨.handleCMP ctx q s, r⟩ ∈ h ∧ r.response.bind Response.waiting = some w

/-- What has happened before a pending entry is stored: the handler asked for its wait,
and its times were read off the clock. -/
structure Prepared (h : History) (e : TransactionEntry) : Prop where
  heard : ∃ w, Heard w h ∧ w.checkAfter = e.checkAfter
  lastActivity : ⟨.now, e.lastActivity⟩ ∈ h
  lastPollTime : e.lastPollTime = 0 ∨ ⟨.now, e.lastPollTime⟩ ∈ h

/-- What has happened before the cleanup removes an entry: it was judged, by a time read
off the clock. -/
def Judged (maxAge : Duration) (h : History) (key : TransactionKey) (judged : ℕ) : Prop :=
  ∃ cell t, ⟨.load .cleanupExpired key, some cell⟩ ∈ h ∧ cell.ptr = judged ∧ ⟨.now, t⟩ ∈ h ∧
    0 < maxAge ∧ cell.entry.lastActivity + maxAge < t

/-- The monitor of a thread; its state is the history. -/
def pollMonitor (maxAge : Duration) : Monitor Effect Effect.Res History :=
  .recording fun h o => match o with
    | .compareAndSwap site _ _ e =>
      (site = .setPending ∧ Prepared h e) ∨ (site ≠ .setPending ∧ e.state ≠ .pending)
    | .loadOrStore _ e => e.state ≠ .pending
    | .loadAndDelete .cleanupExpired key judged => Judged maxAge h key judged
    | .restart .. => False
    | _ => True

/-- A thread that has stored a pending entry answers with its nonce and, if with a
pollRep, advertises its interval.  A thread that has looked at a pending entry and refuses
the poll as too frequent, without a call of the handler, has seen from the clock that the
interval of the entry is not over. -/
structure Truthful (h : History) (resp : Option PKIMessage) : Prop where
  renewal : ∀ key old e, ⟨.compareAndSwap .setPending key old e, true⟩ ∈ h → ∀ m, resp = some m →
    m.header.senderNonce = e.senderNonce ∧
      ∀ item, m.body = .pollRep [item] → item.checkAfter = advertised e.checkAfter
  refusal : ∀ key cell, ⟨.load .getPending key, some cell⟩ ∈ h → (∀ e ∈ h, isCall e = false) →
    ∀ m, resp = some m → m.body = .error { pkiStatusInfo := tooFrequent } →
    ∃ t, ⟨.now, t⟩ ∈ h ∧ cell.entry.state = .pending ∧ cell.entry.lastPollTime ≠ 0 ∧
      t - cell.entry.lastPollTime < cell.entry.checkAfter

/-- No pending entry has been stored. -/
def Unrenewed (h : History) : Prop :=
  ∀ key old e, ⟨.compareAndSwap .setPending key old e, true⟩ ∉ h

/-- Up to the call of the handler, with what was found by the look at a pending entry. -/
structure Before (found : Option Cell) (h : History) : Prop where
  unrenewed : Unrenewed h
  looked : ∀ key cell, ⟨.load .getPending key, some cell⟩ ∈ h → found = some cell

/-- After the call of the handler. -/
structure After (h : History) : Prop where
  unrenewed : Unrenewed h
  called : ∃ e ∈ h, isCall e

variable {h : History}

lemma After.truthful (ha : After h) (resp : Option PKIMessage) : Truthful h resp where
  renewal key old e he := absurd he (ha.unrenewed key old e)
  refusal key cell _ hcall := by
    obtain ⟨e, he, hc⟩ := ha.called
    rw [hcall e he] at hc
    cases hc

/-- Without a look at a pending entry there is nothing to say about a refusal. -/
lemma Before.truthful {found : Option Cell} (hb : Before found h) {resp : Option PKIMessage}
    (hresp : ∀ cell, found = some cell → ∀ m, resp = some m →
      m.body ≠ .error { pkiStatusInfo := tooFrequent }) : Truthful h resp where
  renewal key old e he := absurd he (hb.unrenewed key old e)
  refusal key cell hl _ m hm hbody := absurd hbody (hresp cell (hb.looked key cell hl) m hm)

lemma Before.truthful_none (hb : Before none h) (resp : Option PKIMessage) :
    Truthful h resp := hb.truthful fun cell hcell => by cases hcell

lemma Unrenewed.snoc (hu : Unrenewed h) {e : ServerEvent}
    (he : e.op.Aside ∨ e.op.Looking ∨ isCall e) : Unrenewed (h ++ [e]) := by
  intro key old entry hmem
  rcases List.mem_append.mp hmem with hmem | hmem
  · exact hu key old entry hmem
  · obtain rfl := List.mem_singleton.mp hmem
    rcases he with he | he | he
    · exact he.1 rfl
    · exact he
    · cases he

lemma Before.snoc {f : Option Cell} (hb : Before f h) {e : ServerEvent} (he : e.op.Aside) :
    Before f (h ++ [e]) where
  unrenewed := hb.unrenewed.snoc (.inl he)
  looked key cell hmem := by
    rcases List.mem_append.mp hmem with hmem | hmem
    · exact hb.looked key cell hmem
    · obtain rfl := List.mem_singleton.mp hmem
      exact he.elim

/-- The look at a pending entry. -/
lemma Before.looking (hb : Before none h) (key : TransactionKey) (found : Option Cell) :
    Before found (h ++ [⟨.load .getPending key, found⟩]) where
  unrenewed := hb.unrenewed.snoc (.inr (.inl trivial))
  looked key' cell hmem := by
    rcases List.mem_append.mp hmem with hmem | hmem
    · cases hb.looked key' cell hmem
    · cases List.mem_singleton.mp hmem
      rfl

lemma After.snoc (ha : After h) {e : ServerEvent} (he : e.op.Aside) :
    After (h ++ [e]) where
  unrenewed := ha.unrenewed.snoc (.inl he)
  called := by
    obtain ⟨c, hc, hcall⟩ := ha.called
    exact ⟨c, List.mem_append_left _ hc, hcall⟩

lemma Heard.snoc {w : WaitingResponse} (hw : Heard w h) (e : ServerEvent) : Heard w (h ++ [e]) := by
  obtain ⟨ctx, q, s, r, hmem, hr⟩ := hw
  exact ⟨ctx, q, s, r, List.mem_append_left _ hmem, hr⟩

section

variable {maxAge : Duration}

/-- What an operation that stands aside keeps. -/
lemma poll_keeps {I : History → Prop} (hI : ∀ h e, I h → e.op.Aside → I (h ++ [e])) :
    (pollMonitor maxAge).Keeps I Effect.Aside := by
  intro h o hh ho
  refine ⟨?_, fun x _ => hI h ⟨o, x⟩ hh ho⟩
  cases o with
  | loadOrStore key e => exact ho
  | compareAndSwap site key old e => exact .inr ho
  | loadAndDelete site key judged =>
    cases site with
    | cleanupExpired => exact ho.elim
    | _ => trivial
  | restart => exact ho.elim
  | _ => trivial

lemma before_keeps (found : Option Cell) :
    (pollMonitor maxAge).Keeps (Before found) Effect.Aside := poll_keeps fun _ _ h he => h.snoc he

lemma after_keeps : (pollMonitor maxAge).Keeps After Effect.Aside :=
  poll_keeps fun _ _ h he => h.snoc he

/-! ### The handlers -/

/-- The pending entry with the given nonce and interval has been stored. -/
structure Stored (senderNonce : Bytes) (checkAfter : Duration) (h : History) : Prop where
  entry : ∀ key old e, ⟨.compareAndSwap .setPending key old e, true⟩ ∈ h →
    e.senderNonce = senderNonce ∧ e.checkAfter = checkAfter
  called : ∃ e ∈ h, isCall e

/-- The message about an entry that was stored. -/
lemma Stored.truthful {h : History} {senderNonce : Bytes} {checkAfter : Duration}
    (hs : Stored senderNonce checkAfter h) {m : PKIMessage}
    (hnonce : m.header.senderNonce = senderNonce)
    (hbody : ∀ item, m.body = .pollRep [item] → item.checkAfter = advertised checkAfter) :
    Truthful h (some m) where
  renewal key old e he m' hm' := by
    cases hm'
    obtain ⟨hn, hd⟩ := hs.entry key old e he
    rw [hn, hd]
    exact ⟨hnonce, hbody⟩
  refusal key cell _ hcall := by
    obtain ⟨e, he, hc⟩ := hs.called
    rw [hcall e he] at hc
    cases hc

/-- `setPending`, after the handler has asked for the wait. -/
lemma setPending_stored (t : TrackerConfig) {credID txID : Bytes} {reqType : RequestType}
    {pollRef : GoString} {senderNonce : Bytes} {w : WaitingResponse} {lastPollTime : Time}
    {h : History} (ha : After h) (hw : Heard w h)
    (ht : lastPollTime = 0 ∨ ⟨.now, lastPollTime⟩ ∈ h) :
    Prog.Obeys (pollMonitor maxAge)
      (fun h' ok => if ok then Stored senderNonce w.checkAfter h' else After h') h
      (t.setPending credID txID reqType pollRef senderNonce w.checkAfter lastPollTime) := by
  simp only [TrackerConfig.setPending, TrackerConfig.replaceOpen, perform, Prog.call_bind,
    Prog.Obeys.op_iff]
  refine ⟨trivial, fun old _ => ?_⟩
  have ha1 := ha.snoc (e := ⟨.load .setPending (t.makeKey credID txID), old⟩) trivial
  cases old with
  | none => exact ha1
  | some old =>
    simp only
    split_ifs
    · exact ha1
    · refine ⟨trivial, fun now _ => ⟨.inl ⟨rfl, ?_⟩, fun swapped _ => ?_⟩⟩
      · refine ⟨⟨w, (hw.snoc _).snoc _, rfl⟩, ?_, ht.imp_right fun ht => ?_⟩
        · exact List.mem_append_right _ (List.mem_singleton.mpr rfl)
        · exact List.mem_append_left _ (List.mem_append_left _ ht)
      · have ha2 := ha1.snoc (e := ⟨.now, now⟩) trivial
        obtain ⟨c, hc, hcall⟩ := ha2.called
        cases swapped with
        | true =>
          refine ⟨fun key' old' e' he' => ?_, c, List.mem_append_left _ hc, hcall⟩
          rcases List.mem_append.mp he' with he' | he'
          · exact absurd he' (ha2.unrenewed key' old' e')
          · cases List.mem_singleton.mp he'
            exact ⟨rfl, rfl⟩
        | false =>
          refine ⟨fun key' old' e' he' => ?_, c, List.mem_append_left _ hc, hcall⟩
          rcases List.mem_append.mp he' with he' | he'
          · exact ha2.unrenewed key' old' e' he'
          · cases List.mem_singleton.mp he'

/-- Another refusal than the one of a poll that comes too early. -/
lemma Answers.not_tooFrequent {srv : Server} {sender : SenderIdentity} {tr : History}
    {msg m : PKIMessage} {failInfo : PKIFailureInfo} {text : PKIFreeText}
    (ha : srv.Answers sender tr msg (.error { pkiStatusInfo :=
      { status := StatusRejection, failInfo, statusString := text } }) m)
    (hne : failInfo ≠ FailBadRequest ∨ text ≠ [str "polling too frequently"]) :
    m.body ≠ .error { pkiStatusInfo := tooFrequent } := by
  intro hbody
  have hother : ∀ {f : PKIFailureInfo} {text : PKIFreeText},
      (f ≠ FailBadRequest ∨ text ≠ [str "polling too frequently"]) →
      m.body ≠ .error { pkiStatusInfo :=
        { status := StatusRejection, failInfo := f, statusString := text } } := by
    intro f text hne heq
    rw [hbody] at heq
    have hsi := congrArg ErrorMsgContent.pkiStatusInfo (PKIBody.error.inj heq)
    rcases hne with hne | hne
    · exact hne (congrArg PKIStatusInfo.failInfo hsi).symm
    · exact hne (congrArg PKIStatusInfo.statusString hsi).symm
  rcases ha.cases with h | ⟨m', rfl⟩
  · exact hother hne h
  · exact hother (.inl (by decide)) rfl

/-- What a thread has done when the handling of its message has come to a point. -/
def PollAt : Point → History → Prop
  | .entered, h => Before none h
  | .looked .getPending found, h => Before found h
  | .looked .., h => Before none h
  | .timed cell now, h => Before (some cell) h ∧ ⟨.now, now⟩ ∈ h
  | .called _ r, h | .built (.called _ r) .., h => After h ∧ ∀ w, r.Waits w → Heard w h
  | .built (.revoked _) .., h => After h
  | .built _ _ _ resp, h | .kept resp true, h => Truthful h (some resp)
  | .judged .., h | .revoked _, h | .kept _ false, h | .completed .., h => After h
  | .deleted, h | .done _, h => After h

lemma PollAt.snoc {pt : Point} (hopen : pt.Open) {h : History} (hp : PollAt pt h)
    {e : ServerEvent} (he : e.op.Aside) : PollAt pt (h ++ [e]) := by
  cases pt with
  | entered => exact Before.snoc hp he
  | looked site found =>
    cases site with
    | getPending => exact Before.snoc hp he
    | _ => exact Before.snoc (f := none) hp he
  | timed cell now => exact ⟨hp.1.snoc he, List.mem_append_left _ hp.2⟩
  | called found r => exact ⟨hp.1.snoc he, fun w hw => (hp.2 w hw).snoc e⟩
  | kept resp ok =>
    cases ok with
    | true => exact hopen.elim
    | false => exact After.snoc hp he
  | judged | revoked | deleted => exact After.snoc hp he
  | built | completed | done => exact hopen.elim

section

variable {srv : Server} {msg : PKIMessage} {sender : SenderIdentity} {pt : Point}

/-- What a response says is true when it was built. -/
lemma Says.truthful {i : ServerProg (List InfoTypeAndValue)} {body : PKIBody} {tr h : History}
    {resp : PKIMessage} (hsaid : srv.Says msg pt i body)
    (ha : srv.Answers sender tr msg body resp) (hp : PollAt pt h) :
    PollAt (.built pt body tr resp) h := by
  cases hsaid with
  | @reject pt failInfo text hpt =>
    cases pt with
    | entered => exact Before.truthful_none hp _
    | looked site found =>
      cases site with
      | getPending =>
        refine Before.truthful hp fun cell _ m hm => ?_
        cases hm
        exact ha.not_tooFrequent hpt
      | _ => exact Before.truthful_none hp _
    | kept _ ok =>
      cases ok with
      | true => exact hpt.elim
      | false => exact After.truthful hp _
    | _ => exact hpt.elim
  | early hstate hpolled hearly =>
    refine ⟨fun key old e he => absurd he (hp.1.unrenewed key old e), ?_⟩
    intro key cell hl _ m _ _
    cases hp.1.looked key cell hl
    exact ⟨_, hp.2, hstate, by simpa [Time.isZero] using hpolled, hearly⟩
  | acknowledge => exact Before.truthful_none hp _
  | @failed pt _ _ hpt =>
    cases pt with
    | called | revoked => exact hp
    | judged => exact After.truthful hp _
    | _ => cases hpt
  | refused | wait | poll | issue | revoke => exact hp
  | confirm => exact After.truthful hp _

/-- The interval that is advertised is the one of the handler. -/
lemma Says.advertised {found : Option Cell} {r : HandlerResult} {w : WaitingResponse}
    {i : ServerProg (List InfoTypeAndValue)} {body : PKIBody} {tr : History} {resp : PKIMessage}
    (hsaid : srv.Says msg (.called found r) i body) (hw : r.Waits w)
    (ha : srv.Answers sender tr msg body resp) {item : PollRepItem}
    (hitem : resp.body = .pollRep [item]) : item.checkAfter = advertised w.checkAfter := by
  obtain hbody | ⟨m', rfl⟩ := ha.cases
  · rw [hbody] at hitem
    cases hsaid with
    | poll hw' hafter =>
      cases hitem
      obtain ⟨-, h1, hr1, hw1⟩ := hw
      obtain ⟨-, h2, hr2, hw2⟩ := hw'
      obtain rfl := Option.some.inj (hr1.symm.trans hr2)
      obtain rfl := Option.some.inj (hw1.symm.trans hw2)
      exact hafter
    | wait certReqID reqType => cases reqType <;> cases hitem
    | refused certReqID reqType => cases reqType <;> cases hitem
    | issue certReqID reqType => cases reqType <;> cases hitem
    | failed => cases hitem
    | reject hpt => exact hpt.elim
  · cases hitem

/-- **A message** is answered truthfully. -/
lemma Handles.truthful (hh : srv.handler = .external) {p : ServerThread}
    (hp : srv.Handles msg sender pt p) {h : History} (hpt : PollAt pt h) :
    Prog.Obeys (pollMonitor maxAge) Truthful h p := by
  have hafter : ∀ {α : Type} {q : ServerProg α} {h : History}, Prog.Only Effect.Aside q → After h →
      Prog.Obeys (pollMonitor maxAge) (fun h' _ => After h') h q :=
    fun hq ha => .of_keeps after_keeps hq ha
  induction hp generalizing h with
  | @drop pt hdrops =>
    cases pt with
    | looked site found =>
      cases site with
      | getIssued => exact Before.truthful_none hpt none
      | _ => exact hdrops.elim
    | called => exact hpt.1.truthful none
    | _ => exact hdrops.elim
  | send hsends =>
    cases hsends with
    | @built pt _ _ resp hbare =>
      cases pt with
      | called => exact hpt.1.truthful _
      | revoked => exact After.truthful hpt _
      | _ => exact hpt
    | kept => exact hpt
    | completed => exact After.truthful hpt _
    | done => exact After.truthful hpt _
  | look _ hsite _ ih =>
    refine ⟨trivial, fun found _ => ih found ?_⟩
    obtain rfl | rfl := hsite
    · exact Before.looking hpt _ found
    · exact Before.snoc (f := none) hpt trivial
  | clock _ ih =>
    refine ⟨trivial, fun now _ => ih now ⟨Before.snoc (e := ⟨.now, now⟩) hpt trivial, ?_⟩⟩
    exact List.mem_append_right _ (List.mem_singleton.mpr rfl)
  | @call _ ctx after _ hcalls _ ih =>
    rw [hh]
    have hcalled : ∀ (r : HandlerResult), Unrenewed h → PollAt (after r)
        (h ++ [⟨.handleCMP ctx msg sender, r⟩]) := by
      intro r hu
      have ha : After (h ++ [⟨.handleCMP ctx msg sender, r⟩]) :=
        ⟨hu.snoc (.inr (.inr rfl)), _, List.mem_append_right _ (List.mem_singleton.mpr rfl), rfl⟩
      have hheard : ∀ w, r.Waits w → Heard w (h ++ [⟨.handleCMP ctx msg sender, r⟩]) := by
        rintro w ⟨-, h', hr, hw⟩
        exact ⟨ctx, msg, sender, r, List.mem_append_right _ (List.mem_singleton.mpr rfl),
          by rw [hr, Option.bind_some, hw]⟩
      cases hcalls with
      | request | poll => exact ⟨ha, hheard⟩
      | confirm | revoke => exact ha
    refine ⟨trivial, fun r _ => ih r (hcalled r ?_)⟩
    cases hcalls with
    | poll _ hpoint =>
      obtain rfl | ⟨now, rfl⟩ := hpoint
      · exact Before.unrenewed hpt
      · exact hpt.1.unrenewed
    | request | confirm | revoke => exact Before.unrenewed hpt
  | @build pt _ _ _ _ hsaid _ ih =>
    have hkeeps : (pollMonitor maxAge).Keeps (PollAt pt) Effect.Aside :=
      poll_keeps fun _ _ hp he => hp.snoc hsaid.opened he
    exact hsaid.obeys (hkeeps.mono fun _ => Effect.Building.aside) hpt fun tr resp ha _ hp =>
      ih tr resp ha (hsaid.truthful ha hp)
  | @pend _ _ w _ _ resp _ _ clock _ _ hw hsaid ha hclock _ ih =>
    have hread : Prog.Obeys (pollMonitor maxAge)
        (fun h' last => After h' ∧ Heard w h' ∧ (last = 0 ∨ ⟨.now, last⟩ ∈ h')) h clock := by
      obtain rfl | rfl := hclock
      · exact ⟨hpt.1, hpt.2 w hw, .inl rfl⟩
      · exact ⟨trivial, fun now _ => ⟨hpt.1.snoc (e := ⟨.now, now⟩) trivial, (hpt.2 w hw).snoc _,
          .inr (List.mem_append_right _ (List.mem_singleton.mpr rfl))⟩⟩
    refine hread.bind ?_
    rintro h1 last ⟨ha1, hw1, hlast⟩
    refine (setPending_stored srv.tracker ha1 hw1 hlast).bind fun h2 ok hok => ih ok ?_
    cases ok with
    | true =>
      obtain ⟨i, hsaid⟩ := hsaid
      exact Stored.truthful hok rfl fun item hitem => hsaid.advertised hw ha hitem
    | false => exact hok
  | issue _ _ _ _ _ ih =>
    refine Prog.Obeys.bind (hafter (TrackerConfig.replaceOpen_of trivial trivial fun _ _ =>
      ⟨by decide, by simp⟩) hpt.1) fun h' ok ha => ih ok ?_
    cases ok with
    | true => exact ha.truthful _
    | false => exact ha
  | complete _ _ ih =>
    exact Prog.Obeys.bind (hafter (TrackerConfig.complete_aside _ _) hpt.1) fun _ _ ha => ih ha
  | tell _ _ _ ih =>
    exact Prog.Obeys.bind (hafter (Prog.Only.call_iff.mpr trivial) hpt) fun _ err ha => ih err ha
  | delete _ _ _ ih =>
    exact Prog.Obeys.bind (hafter (TrackerConfig.delete_of _ trivial trivial fun _ =>
      ⟨trivial, trivial⟩) hpt) fun _ _ ha => ih ha
  | finish _ _ ih =>
    exact Prog.Obeys.bind (hafter (TrackerConfig.complete_aside _ _) hpt) fun _ _ ha => ih ha

end

/-! ### The cleanup -/

/-- One visit removes an entry only after it was judged. -/
lemma expire_judged {t : Time} {key : TransactionKey} {h : History} (hpos : 0 < maxAge)
    (ht : ⟨.now, t⟩ ∈ h) :
    Prog.Obeys (pollMonitor maxAge) (fun h' _ => ⟨.now, t⟩ ∈ h') h
      (TrackerConfig.expire (t - maxAge) key) := by
  have hkeeps : (pollMonitor maxAge).Keeps (fun h' => ⟨.now, t⟩ ∈ h') Effect.Aside :=
    poll_keeps fun _ _ h' _ => List.mem_append_left _ h'
  simp only [TrackerConfig.expire, perform, Prog.call_bind, Prog.Obeys.op_iff]
  refine ⟨trivial, fun value _ => ?_⟩
  have ht1 : ⟨.now, t⟩ ∈ h ++ [⟨.load .cleanupExpired key, value⟩] := List.mem_append_left _ ht
  cases value with
  | none => exact ht1
  | some c =>
    by_cases hold : c.entry.lastActivity.before (t - maxAge)
    · simp only [if_pos hold, Prog.Obeys.op_iff]
      refine ⟨⟨c, t, List.mem_append_right _ (List.mem_singleton.mpr rfl), rfl, ht1, hpos, ?_⟩,
        fun removed _ => ?_⟩
      · exact lt_sub_iff_add_lt.mp (of_decide_eq_true hold)
      · have ht2 := List.mem_append_left [⟨.loadAndDelete .cleanupExpired key c.ptr, removed⟩] ht1
        cases removed with
        | none => exact ht2
        | some _ =>
          refine Prog.Obeys.of_keeps hkeeps (Prog.Only.bind (P := Effect.Aside)
            ⟨trivial, fun _ => ⟨trivial, fun _ => ⟨trivial, fun _ => trivial⟩⟩⟩ fun _ => ?_) ht2
          split_ifs <;> trivial
    · simp only [if_neg hold]
      exact ht1

lemma expireAll_judged {t : Time} (hpos : 0 < maxAge) (keys : List TransactionKey) {h : History}
    (ht : ⟨.now, t⟩ ∈ h) :
    Prog.Obeys (pollMonitor maxAge) (fun h' _ => ⟨.now, t⟩ ∈ h') h
      (TrackerConfig.expireAll (t - maxAge) keys) := by
  induction keys generalizing h with
  | nil => exact ht
  | cons key keys ih =>
    exact (expire_judged hpos ht).bind fun _ _ h1 => (ih h1).bind fun _ _ h2 => h2

/-- The cleanup removes nothing it has not judged. -/
lemma cleanupExpired_truthful (srv : Server) (h : History) :
    Prog.Obeys (pollMonitor srv.cfg.confirmWait) Truthful h
      (srv.cleanupExpired >>= fun _ => pure none) := by
  have hend : ∀ h, Truthful h none := fun h =>
    ⟨fun _ _ _ _ m hm => (by cases hm), fun _ _ _ _ m hm => (by cases hm)⟩
  have hcleanup : Prog.Obeys (pollMonitor srv.cfg.confirmWait) (fun _ _ => True) h
      (TrackerConfig.cleanupExpired srv.cfg.confirmWait) := by
    unfold TrackerConfig.cleanupExpired
    split_ifs with hpos
    · trivial
    · simp only [perform, Prog.call_bind, Prog.Obeys.op_iff]
      refine ⟨trivial, fun now _ => ⟨trivial, fun keys _ => ?_⟩⟩
      refine (expireAll_judged (not_le.mp hpos) keys ?_).mono fun _ _ _ => trivial
      exact List.mem_append_left _ (List.mem_append_right _ (List.mem_singleton.mpr rfl))
  refine Prog.Obeys.bind (R := fun _ _ => True) ?_ fun h' _ _ => hend h'
  refine hcleanup.bind fun h1 expired _ => ?_
  have hkeeps : (pollMonitor srv.cfg.confirmWait).Keeps (fun _ => True) Effect.Aside :=
    poll_keeps fun _ _ _ _ => trivial
  split_ifs
  · exact Prog.Obeys.of_keeps hkeeps (notifyExpired_of (fun _ _ _ => trivial) expired) trivial
  · trivial

end

/-- **Threads**: every thread of the server is truthful. -/
lemma thread_truthful {srv : Server} (hh : srv.handler = .external)
    {p : ServerThread} (hp : srv.Thread p) :
    Prog.Obeys (pollMonitor srv.cfg.confirmWait) Truthful [] p := by
  cases hp with
  | message msg =>
    refine srv.process_obeys_of_verified (I := Before none)
      ((before_keeps none).mono fun _ ho => ho.outer.aside) (fun _ _ => trivial)
      (fun _ r hb => hb.truthful_none r) (fun _ q sender _ hb => ?_) 2 none
      ⟨fun _ _ _ hmem => (by cases hmem), fun _ _ hmem => (by cases hmem)⟩
    refine Prog.Obeys.bind (Prog.Obeys.of_keeps (before_keeps none)
      ((srv.validateHeader_only q sender).mono fun _ => Effect.Outer.aside) hb) ?_
    rintro h ⟨m, r⟩ hb'
    cases r with
    | error e =>
      exact (Prog.Obeys.of_keeps (before_keeps none) ((srv.answerError_only ..).mono fun _ =>
        Effect.Building.aside) hb').mono fun _ r hb => hb.truthful_none r
    | ok _ => exact (srv.dispatch_handles m sender).truthful hh hb'
  | cleanup => exact srv.cleanupExpired_truthful []

end Server

end PkiCmp
