/-
What reaches the handler (`process` of `server/server.go`, `handleNested` of
`server/nested.go`).

* `Addressed`, `Arrived`, `Authentic`: what is known about a message and a sender
  that the handler is called with;
* `callMonitor`: a handler call is the first one of its message, and authentic;
* `process_add_two`: one level of nesting is enough;
* `handler_authenticated`: processing a message ends, and calls the handler at most
  once, with an authenticated message.
-/
import PkiCmp.Server.Handling

namespace PkiCmp

open Der Interact

namespace Server

variable (srv : Server)

/-! ### Authentic messages -/

/-- The message has a supported version and is meant for this server: its recipient
holds no directory name, or the server's name when the server has one. -/
structure Addressed (msg : PKIMessage) : Prop where
  version : PVNO2 ≤ msg.header.pvno ∧ msg.header.pvno ≤ PVNO3
  recipient : ∀ name ∈ srv.identityName, msg.header.recipient.directoryName = [] ∨
    (Name.fillFromRDNSequence msg.header.recipient.directoryName).string = name.string

/-- The message `q` is `arrived` as it was received; the server has chosen its
transactionID when it came without one. -/
def Arrived (arrived q : PKIMessage) : Prop :=
  q = arrived ∨ arrived.header.transactionID = [] ∧
    ∃ id : Random, q = { arrived with header := { arrived.header with transactionID := id.1 } }

/-- The message was received by itself, and its protection shows the sender. -/
structure Direct (h : History) (msg : PKIMessage) (s : SenderIdentity) : Prop where
  verified : ∃ v, ⟨.verifier, v⟩ ∈ h ∧ srv.verifyProtection v msg = .ok s
  ra : s.ra = none

/-- The message `arrived` was the only one inside the received nested message `msg`.
The protection of both was verified, and the authorizer accepted what the RA
forwarded. -/
structure Forwarded (h : History) (msg arrived : PKIMessage) (ra s : SenderIdentity) : Prop where
  verifiedNested : ∃ v, ⟨.verifier, v⟩ ∈ h ∧ srv.verifyProtection v msg = .ok ra
  nested : msg.body.type = BodyTypeNested ∧ msg.body.getNested = .ok [arrived]
  transactionID : msg.header.transactionID = arrived.header.transactionID
  senderNonce : msg.header.senderNonce = arrived.header.senderNonce
  plain : arrived.body.type ≠ BodyTypeNested
  verified : ∃ v s0, ⟨.verifier, v⟩ ∈ h ∧ srv.verifyProtection v arrived = .ok s0 ∧
    s = { s0 with ra := some ra }
  configured : srv.cfg.raAuthorizer = true
  authorized : ⟨.authorizeRA ra arrived s, none⟩ ∈ h

/-- What holds when the handler is called with `q` and `s` for the received message
`msg`. -/
def Authentic (h : History) (msg q : PKIMessage) (s : SenderIdentity) : Prop :=
  srv.signerErr = none ∧ ∃ arrived, srv.Addressed arrived ∧ Arrived arrived q ∧
    (arrived = msg ∧ srv.Direct h msg s ∨ ∃ ra, srv.Forwarded h msg arrived ra s)

/-- A call of the handler. -/
def isCall : ServerEvent → Bool
  | ⟨.handleCMP .., _⟩ => true
  | _ => false

/-- The monitor of one message: the handler is called once at most, and only with an
authentic message.  Its state is the history. -/
def callMonitor (msg : PKIMessage) : Monitor Effect Effect.Res History :=
  .recording fun h o => match o with
    | .handleCMP _ q s => (∀ e ∈ h, isCall e = false) ∧ srv.Authentic h msg q s
    | _ => True

variable {srv} {msg : PKIMessage} {h h' : History}

variable {s : SenderIdentity}

lemma Direct.mono (hd : srv.Direct h msg s) (hh : h ⊆ h') :
    srv.Direct h' msg s := by
  obtain ⟨v, hv, hverified⟩ := hd.verified
  exact ⟨⟨v, hh hv, hverified⟩, hd.ra⟩

lemma Forwarded.mono {arrived : PKIMessage} {ra : SenderIdentity}
    (hf : srv.Forwarded h msg arrived ra s) (hh : h ⊆ h') : srv.Forwarded h' msg arrived ra s := by
  obtain ⟨v, hv, hn⟩ := hf.verifiedNested
  obtain ⟨w, s0, hw, hs⟩ := hf.verified
  exact { hf with
    verifiedNested := ⟨v, hh hv, hn⟩
    verified := ⟨w, s0, hh hw, hs⟩
    authorized := hh hf.authorized }

lemma Authentic.mono {q : PKIMessage} (ha : srv.Authentic h msg q s) (hh : h ⊆ h') :
    srv.Authentic h' msg q s := by
  obtain ⟨hsigner, arrived, haddr, harr, ⟨rfl, hd⟩ | ⟨ra, hf⟩⟩ := ha
  · exact ⟨hsigner, arrived, haddr, harr, .inl ⟨rfl, hd.mono hh⟩⟩
  · exact ⟨hsigner, arrived, haddr, harr, .inr ⟨ra, hf.mono hh⟩⟩

/-- The verified sender has no RA yet. -/
lemma ra_of_verifyProtection {v : Verifier} (hs : srv.verifyProtection v msg = .ok s) :
    s.ra = none := by
  unfold verifyProtection verifyMAC verifySigned at hs
  split at hs
  · cases hs
  -- a MAC and a signature build the identity in the same way
  split_ifs at hs
  all_goals
    simp only at hs
    split at hs
    · cases hs
    · split at hs
      · split_ifs at hs
      · cases hs
        rfl

lemma addressed_of_checks (hv : ¬ (msg.header.pvno < PVNO2 ∨ PVNO3 < msg.header.pvno))
    (hr : srv.verifyRecipient msg = .ok ()) : srv.Addressed msg := by
  obtain ⟨hlo, hhi⟩ := not_or.mp hv
  refine ⟨⟨not_lt.mp hlo, not_lt.mp hhi⟩, fun name hname => ?_⟩
  rw [verifyRecipient, hname] at hr
  simp only at hr
  split_ifs at hr with hempty hstring
  · exact .inl hempty
  · exact .inr (not_not.mp hstring)

/-! ### One message under the monitor -/

/-- The history goes on, and the handler has not been called yet. -/
structure Quiet (h0 h : History) : Prop where
  subset : h0 ⊆ h
  quiet : ∀ e ∈ h, isCall e = false

lemma Quiet.refl (hq : ∀ e ∈ h, isCall e = false) : Quiet h h := ⟨fun _ he => he, hq⟩

/-- An operation other than a call of the handler. -/
lemma Quiet.snoc {h0 : History} (hq : Quiet h0 h) {e : ServerEvent}
    (he : isCall e = false) : Quiet h0 (h ++ [e]) := by
  refine ⟨fun e' he' => List.mem_append_left _ (hq.subset he'), fun e' he' => ?_⟩
  obtain he' | he' := List.mem_append.mp he'
  · exact hq.quiet e' he'
  · rw [List.mem_singleton.mp he', he]

lemma quiet_outer (h0 : History) : (srv.callMonitor msg).Keeps (Quiet h0) Effect.Outer := by
  intro h o hq ho
  cases o <;> first | exact ho.elim | exact ⟨trivial, fun _ _ => hq.snoc rfl⟩

lemma quiet_looking (h0 : History) : (srv.callMonitor msg).Keeps (Quiet h0) Effect.Looking := by
  intro h o hq ho
  cases o <;> first | exact ho.elim | exact ⟨trivial, fun _ _ => hq.snoc rfl⟩

/-- After the handler nothing has to be shown any more. -/
lemma call_serving : (srv.callMonitor msg).Keeps (fun _ => True) Effect.Serving := by
  intro h o _ ho
  cases o <;> first | exact (ho.elim id id).elim | exact ⟨trivial, fun _ _ => trivial⟩

/-- An answer without a call of the handler. -/
lemma call_answer {p : ServerThread} (hp : Prog.Only Effect.Building p)
    (h : History) : Prog.Obeys (srv.callMonitor msg) (fun _ _ => True) h p :=
  (Prog.Obeys.of_keeps call_serving (serving_of_building hp) trivial).mono fun _ _ _ => trivial

/-- `validateHeader` leaves the message as it arrived, up to the transactionID. -/
lemma validateHeader_arrived (m : PKIMessage) (s : SenderIdentity) {h0 : History}
    (hq : Quiet h0 h) :
    Prog.Obeys (srv.callMonitor msg) (fun h' mr => Quiet h0 h' ∧ Arrived m mr.1) h
      (srv.validateHeader m s) := by
  have hfields : ∀ (m : PKIMessage) {h : History}, Quiet h0 h →
      Prog.Obeys (srv.callMonitor msg) (fun h' _ => Quiet h0 h') h (srv.validateFields m s) :=
    fun m h hq => .of_keeps (quiet_outer h0) (srv.validateFields_only m s) hq
  unfold validateHeader
  split_ifs with hid
  · exact ⟨hq, .inl rfl⟩
  · simp only [perform, Prog.call_bind, Prog.Obeys.op_iff]
    refine ⟨trivial, fun id _ => ?_⟩
    exact Prog.Obeys.bind (hfields _ (hq.snoc rfl)) fun h' r hq' => ⟨hq', .inr ⟨hid, id, rfl⟩⟩
  · exact Prog.Obeys.bind (hfields _ hq) fun h' r hq' => ⟨hq', .inl rfl⟩

/-- A verified message reaches the handler at most once, as it arrived. -/
lemma processVerified_call (hh : srv.handler = .external) {arrived : PKIMessage}
    (hq : ∀ e ∈ h, isCall e = false) (ha : ∀ q, Arrived arrived q → srv.Authentic h msg q s) :
    Prog.Obeys (srv.callMonitor msg) (fun _ _ => True) h (srv.processVerified arrived s) := by
  refine Prog.Obeys.bind (validateHeader_arrived arrived s (.refl hq)) fun h1 ⟨q, r⟩ h1' => ?_
  obtain ⟨hq1, harr⟩ := h1'
  cases r with
  | error e => exact call_answer (srv.answerError_only ..) h1
  | ok _ =>
    refine ((srv.dispatch_handles q s).serves (quiet_looking h) call_serving
      (fun ctx h2 hq2 => ?_) hq1).mono fun _ _ _ => trivial
    rw [hh]
    exact ⟨⟨hq2.quiet, (ha q harr).mono hq2.subset⟩, fun _ _ => trivial⟩

/-- The checks up to the protection are the same for every message. -/
lemma process_checked {fwd : Option Forwarding} {m : PKIMessage} {depth : ℕ}
    (hver : ∀ v s, srv.signerErr = none → srv.Addressed m → srv.verifyProtection v m = .ok s →
      Prog.Obeys (srv.callMonitor msg) (fun _ _ => True) (h ++ [⟨.verifier, v⟩])
        (srv.processAuthenticated (fun req fwd => srv.process depth req (some fwd)) fwd m s)) :
    Prog.Obeys (srv.callMonitor msg) (fun _ _ => True) h (srv.process (depth + 1) m fwd) := by
  unfold process
  split_ifs with hsigner hpvno
  · exact call_answer (srv.reject_only ..) h
  · exact call_answer ((srv.buildResponse_only ..).bind fun _ => by trivial) h
  · split
    · exact call_answer (srv.reject_only ..) h
    · next hrecipient =>
      simp only [perform, Prog.call_bind, Prog.Obeys.op_iff]
      refine ⟨trivial, fun v _ => ?_⟩
      split
      · exact call_answer (srv.answerError_only ..) _
      · next s hs =>
        exact hver v s (by simpa using hsigner) (addressed_of_checks hpvno hrecipient) hs

/-- The message inside a nested one. -/
lemma process_forwarded_call (hh : srv.handler = .external) {arrived : PKIMessage}
    {ra : SenderIdentity} {depth : ℕ} (hq : ∀ e ∈ h, isCall e = false)
    (hn : ∃ v, ⟨.verifier, v⟩ ∈ h ∧ srv.verifyProtection v msg = .ok ra)
    (hreq : srv.nestedRequest msg = .ok arrived) (htype : msg.body.type = BodyTypeNested) :
    Prog.Obeys (srv.callMonitor msg) (fun _ _ => True) h
      (srv.process (depth + 1) arrived (some ⟨msg, ra⟩)) := by
  obtain ⟨hra, hget, hplain, htx, hnonce⟩ := nestedRequest_eq_ok hreq
  refine process_checked fun v s0 hsigner haddr hs0 => ?_
  unfold processAuthenticated
  split
  · exact call_answer (srv.reject_only ..) _
  · rw [if_neg hplain]
    simp only [processForwarded, perform, Prog.call_bind, Prog.Obeys.op_iff]
    refine ⟨trivial, fun refused _ => ?_⟩
    cases refused with
    | some e => exact call_answer (srv.answerError_only ..) _
    | none =>
      refine processVerified_call hh (((Quiet.refl hq).snoc rfl).snoc rfl).quiet
        fun q harr => ⟨hsigner, arrived, haddr, harr, .inr ⟨ra, ?_⟩⟩
      obtain ⟨w, hw, hver⟩ := hn
      exact
        { verifiedNested := ⟨w, by simp [callMonitor, Monitor.recording, hw], hver⟩
          nested := ⟨htype, hget⟩
          transactionID := htx
          senderNonce := hnonce
          plain := hplain
          verified := ⟨v, s0, by simp [callMonitor, Monitor.recording], hs0, rfl⟩
          configured := hra
          authorized := by simp [callMonitor, Monitor.recording] }

/-- **One message** calls the handler at most once, and only when it is authentic. -/
lemma processMessage_call (hh : srv.handler = .external) (msg : PKIMessage) :
    Prog.Obeys (srv.callMonitor msg) (fun _ _ => True) [] (srv.processMessage msg) := by
  refine process_checked fun v s hsigner haddr hs => ?_
  unfold processAuthenticated
  split
  · exact call_answer (srv.reject_only ..) _
  · split_ifs with htype
    · unfold handleNested
      split
      · exact call_answer (srv.reject_only ..) _
      · next req hreq =>
        exact process_forwarded_call hh (by simp [isCall]) ⟨v, by simp, hs⟩ hreq htype
    · exact processVerified_call hh (by simp [isCall]) fun q harr =>
        ⟨hsigner, msg, haddr, harr, .inl ⟨rfl, ⟨v, by simp, hs⟩, ra_of_verifyProtection hs⟩⟩

/-! ### Termination -/

/-- A message that is not nested needs no further level. -/
lemma process_of_plain {m : PKIMessage} (hm : m.body.type ≠ BodyTypeNested)
    (fwd : Option Forwarding)
    (depth : ℕ) : srv.process (depth + 1) m fwd = srv.process 1 m fwd := by
  unfold process processAuthenticated
  simp only [if_neg hm]

/-- **Nesting**: one level is enough, whatever the bound. -/
lemma process_add_two (msg : PKIMessage) (depth : ℕ) :
    srv.process (depth + 2) msg none = srv.processMessage msg := by
  have hnested : ∀ (s : SenderIdentity),
      srv.handleNested (fun req fwd => srv.process (depth + 1) req (some fwd)) msg s =
        srv.handleNested (fun req fwd => srv.process 1 req (some fwd)) msg s := by
    intro s
    unfold handleNested
    split
    · rfl
    · next req hreq => exact process_of_plain (nestedRequest_eq_ok hreq).2.2.1 _ _
  rw [processMessage, process, process]
  simp only [processAuthenticated, hnested]

section Returns

lemma exec_isSome {o : Effect} (ho : o ≠ .diverge) (c : Oracle) (m : Tracker) :
    (exec o c m).isSome := by
  cases o with
  | diverge => exact absurd rfl ho
  | loadOrStore =>
    simp only [exec]
    split_ifs <;> rfl
  | compareAndSwap =>
    simp only [exec]
    split
    · split_ifs <;> rfl
    · rfl
  | restart =>
    simp only [exec]
    split <;> rfl
  | _ => rfl

/-- Everything but a bound of the model that is used up. -/
lemma returns_of_only {α : Type} {P : Effect → Prop} (hP : ¬ P .diverge) {p : ServerProg α}
    (hp : Prog.Only P p) : Prog.Returns exec p :=
  .of_only (fun _ ho => exec_isSome fun hd => hP (hd ▸ ho)) hp

lemma returns_of_building {α : Type} {p : ServerProg α} (hp : Prog.Only Effect.Building p) :
    Prog.Returns exec p := returns_of_only not_false hp

lemma returns_perform {α : Type} {o : Effect} (ho : o ≠ .diverge) {k : o.Res → ServerProg α}
    (hk : ∀ x, Prog.Returns exec (k x)) : Prog.Returns exec (.op o k) :=
  .op (exec_isSome ho) hk

lemma replaceOpen_returns (site : Site) (key : TransactionKey) (entry : Time → TransactionEntry) :
    Prog.Returns exec (TrackerConfig.replaceOpen site key entry) := by
  simp only [TrackerConfig.replaceOpen, perform, Prog.call_bind]
  refine returns_perform (by simp) fun old => ?_
  cases old with
  | none => exact .ret _
  | some old =>
    simp only
    split_ifs
    · exact .ret _
    · exact returns_perform (by simp) fun now => returns_perform (by simp) fun _ => .ret _

/-- `setCompleted` succeeds when no other thread gets in its way. -/
lemma complete_returns (key : TransactionKey) (retries : ℕ) :
    Prog.Returns exec (TrackerConfig.complete key (retries + 1)) := by
  intro cs m
  cases hcell : m.cell key with
  | none => exact ⟨1, (), m, by simp [TrackerConfig.complete, Prog.run, exec, hcell, perform]⟩
  | some cell =>
    refine ⟨3, (), m.publish key
      { cell.entry with state := .completed, lastActivity := (cs 1).time }
      cell.txn, ?_⟩
    simp [TrackerConfig.complete, Prog.run, exec, hcell, perform, List.range_succ]

lemma delete_returns (t : TrackerConfig) (credID txID : Bytes) (judged : ℕ) :
    Prog.Returns exec (t.delete credID txID judged) := by
  simp only [TrackerConfig.delete, perform, Prog.call_bind]
  refine returns_perform (by simp) fun v => ?_
  cases v with
  | none => exact .ret _
  | some c =>
    exact returns_perform (by simp) fun _ => returns_perform (by simp) fun _ =>
      returns_perform (by simp) fun _ => .ret _

section Handler

variable (hh : ∀ ctx m s, Prog.Returns exec (srv.handler ctx m s))
include hh

lemma Handles.returns {m : PKIMessage} {s : SenderIdentity} {pt : Point}
    {p : ServerThread} (hp : srv.Handles m s pt p) : Prog.Returns exec p := by
  induction hp with
  | drop => exact .ret _
  | send => exact .ret _
  | look _ _ _ ih => exact returns_perform (by simp) ih
  | clock _ ih => exact returns_perform (by simp) ih
  | call _ _ ih => exact (hh _ _ _).bind fun _ r _ => ih r
  | build h _ ih =>
    exact (returns_of_building h.build_only).bind fun tr resp hs =>
      ih tr resp (answers_of_steps h.info_only hs)
  | pend _ _ _ _ hclock _ ih =>
    exact (returns_of_only (by simp) (clock_only hclock)).bind fun _ last _ =>
      (replaceOpen_returns _ _ _).bind fun _ ok _ => ih ok
  | issue _ _ _ _ _ ih => exact (replaceOpen_returns _ _ _).bind fun _ ok _ => ih ok
  | complete _ _ ih => exact (complete_returns _ _).bind fun _ _ _ => ih
  | tell _ _ _ ih => exact returns_perform (by simp) ih
  | delete _ _ _ ih => exact (delete_returns _ _ _ _).bind fun _ _ _ => ih
  | finish _ _ ih => exact (complete_returns _ _).bind fun _ _ _ => ih

lemma processVerified_returns (m : PKIMessage) (s : SenderIdentity) :
    Prog.Returns exec (srv.processVerified m s) := by
  refine (returns_of_only not_false (srv.validateHeader_only m s)).bind fun _ ⟨m', r⟩ _ => ?_
  cases r with
  | error e => exact returns_of_building (srv.answerError_only ..)
  | ok _ => exact (srv.dispatch_handles m' s).returns hh

/-- Processing ends when what is inside a nested message is processed to its end. -/
lemma process_returns {depth : ℕ} {m : PKIMessage} {fwd : Option Forwarding}
    (hinner : ∀ req fwd, srv.nestedRequest m = .ok req → m.body.type = BodyTypeNested →
      Prog.Returns exec (srv.process depth req (some fwd))) :
    Prog.Returns exec (srv.process (depth + 1) m fwd) := by
  unfold process
  split_ifs
  · exact returns_of_building (srv.reject_only ..)
  · exact (returns_of_building (srv.buildResponse_only ..)).bind fun _ _ _ => .ret _
  · split
    · exact returns_of_building (srv.reject_only ..)
    · simp only [perform, Prog.call_bind]
      refine returns_perform (by simp) fun v => ?_
      split
      · exact returns_of_building (srv.answerError_only ..)
      · unfold processAuthenticated
        split
        · exact returns_of_building (srv.reject_only ..)
        · split_ifs with htype
          · unfold handleNested
            split
            · exact returns_of_building (srv.reject_only ..)
            · next req hreq => exact hinner req _ hreq htype
          · unfold processForwarded
            split
            · exact processVerified_returns hh _ _
            · simp only [perform, Prog.call_bind]
              refine returns_perform (by simp) fun refused => ?_
              cases refused with
              | some e => exact returns_of_building (srv.answerError_only ..)
              | none => exact processVerified_returns hh _ _

/-- **Processing a message ends** when no other thread gets in its way. -/
lemma processMessage_returns (msg : PKIMessage) : Prog.Returns exec (srv.processMessage msg) := by
  refine process_returns hh fun req fwd hreq _ => process_returns hh fun _ _ _ htype => ?_
  exact absurd htype (nestedRequest_eq_ok hreq).2.2.1

end Handler

end Returns

/-! ### The result -/

/-- **Nothing unauthenticated reaches the handler.**  For every message and every
configuration: processing needs no more than one level of nesting and ends; it calls
the handler at most once; and a call is made with an authentic message and sender. -/
theorem handler_authenticated (cr : Crypto) (retries : ℕ) (cfg : ServerConfig) (msg : PKIMessage) :
    (∀ depth, (Server.new cr retries .external cfg).process (depth + 2) msg none =
      (Server.new cr retries .external cfg).processMessage msg) ∧
    Prog.Returns exec ((Server.new cr retries .external cfg).processMessage msg) ∧
    ∀ tr p, Prog.Steps ((Server.new cr retries .external cfg).processMessage msg) tr p →
      tr.countP isCall ≤ 1 ∧
      ∀ ctx q s r, ⟨.handleCMP ctx q s, r⟩ ∈ tr →
        (Server.new cr retries .external cfg).Authentic tr msg q s := by
  refine ⟨process_add_two msg, processMessage_returns (fun _ _ _ => ?_) msg, fun tr p hsteps => ?_⟩
  · exact returns_perform (by simp) fun _ => .ret _
  · -- a call comes after no other one, and what happened before makes it authentic
    have hallowed : ∀ {pre post : History} {e : ServerEvent}, tr = pre ++ e :: post →
        ((Server.new cr retries .external cfg).callMonitor msg).allowed pre e.op := by
      rintro pre post e rfl
      exact (processMessage_call rfl msg).recorded hsteps
    constructor
    · refine countP_le_one fun pre e post hsplit hcall => ?_
      obtain ⟨o, x⟩ := e
      cases o with
      | handleCMP ctx q s => exact (hallowed hsplit).1
      | _ => cases hcall
    · intro ctx q s r hmem
      obtain ⟨pre, post, rfl⟩ := List.append_of_mem hmem
      exact (hallowed rfl).2.mono (List.subset_append_left ..)

/-- A request that is protected with a shared secret reaches the handler. -/
theorem handler_authenticated_sampleRequest :
    ∃ tr p ctx q s r,
      Prog.Steps ((Server.new .sample 0 .external { secretLookup := true }).processMessage
        sampleRequest) tr p ∧
      ⟨.handleCMP ctx q s, r⟩ ∈ tr ∧ tr.countP isCall ≤ 1 ∧
      (Server.new .sample 0 .external { secretLookup := true }).Authentic tr sampleRequest q s := by
  have hplay : (Prog.play (fun o => (exec o (sampleOracle 1) {}).map Prod.fst)
      ((Server.new .sample 0 .external { secretLookup := true }).processMessage
        sampleRequest)).any (fun r => r.1.any isCall) = true := by decide +kernel
  obtain ⟨⟨tr, a⟩, hrun, hany⟩ := (Option.any_eq_true _ _).mp hplay
  obtain ⟨⟨o, r⟩, hmem, hcall⟩ := List.any_eq_true.mp hany
  have hsteps := Prog.steps_of_play hrun
  have h := (handler_authenticated .sample 0 { secretLookup := true } sampleRequest).2.2 tr _ hsteps
  cases o with
  | handleCMP ctx q s => exact ⟨tr, _, ctx, q, s, r, hsteps, hmem, h.1, h.2 ctx q s r hmem⟩
  | _ => cases hcall

end Server

end PkiCmp
