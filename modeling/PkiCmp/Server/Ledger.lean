/-
What a serving server keeps of its tracker.

Runs start from any tracker that is in order, with any number of concurrent
requests and cleanups, and the handler returns whatever the outside allows.

* `Outside`, `Outside.Fit`: what the outside may contribute, and an entry made of it;
* `Digests`, `Pairs`: no collision among the keys of a run;
* `ledgerMonitor`: what a thread has reserved and not given back, entry by entry;
* `Lawful`: programs that give back what they take and store entries that fit;
* `InOrder`: a tracker whose counters are exact and within the limits and whose
  entries fit;
* `inOrder_of_run`: **serving keeps the tracker in order**.
-/
import PkiCmp.Server.Accounting
import PkiCmp.Server.Handling

namespace PkiCmp

open Der Interact

/-! ### Entries -/

/-- What the outside may contribute to a run: times, certificates and references, and all that
one step may find. -/
structure Outside where
  time : Time → Prop
  cert : Certificate → Prop
  ref : IssueRef → Prop
  oracle : Oracle → Prop := fun _ => True

namespace Outside

variable (W : Outside)

/-- A handler returns allowed certificates and references. -/
structure Result (r : HandlerResult) : Prop where
  cert : ∀ resp c, r.response = some resp → resp.certificate = some c → W.cert c
  ref : ∀ resp ref, r.response = some resp → resp.issueRef = some ref → W.ref ref

/-- What one step finds outside is allowed. -/
structure Brings (c : Oracle) : Prop where
  time : W.time c.time
  result : W.Result c.result
  oracle : W.oracle c

/-- An entry is made of what is allowed, and complete for its state. -/
structure Fit (e : TransactionEntry) : Prop where
  lastActivity : W.time e.lastActivity
  cert : ∀ c, e.cert = some c → W.cert c
  ref : ∀ ref, e.issueRef = some ref → W.ref ref
  pending : e.state = .pending → 16 ≤ e.senderNonce.length
  issued : e.state = .issued → e.cert.isSome ∧ 16 ≤ e.issuedSenderNonce.length

variable {W}

/-- The entry a transaction starts with. -/
lemma Fit.active {now : Time} (hnow : W.time now) (ck : CredentialKey) :
    W.Fit { state := .active, lastActivity := now, credentialKey := ck } where
  lastActivity := hnow
  cert := by simp
  ref := by simp
  pending := by simp
  issued := by simp

/-- The entry a transaction ends with. -/
lemma Fit.completed {e : TransactionEntry} (h : W.Fit e) {now : Time} (hnow : W.time now) :
    W.Fit { e with state := .completed, lastActivity := now } where
  lastActivity := hnow
  cert := h.cert
  ref := h.ref
  pending := by simp
  issued := by simp

variable (W)

/-- The entries that are stored fit, given that the entries that are read do. -/
def fitMonitor : Monitor Effect Effect.Res Unit where
  allowed _ o := match o with
    | .loadOrStore _ entry | .compareAndSwap _ _ _ entry => W.Fit entry
    | .restart .. => False
    | _ => True
  rely
    | _, .now, t => W.time t
    | _, .load _ _, x => ∀ cell, x = some cell → W.Fit cell.entry
    | _, .handleCMP .., r => W.Result r
    | _, .random, id => ∃ c, W.oracle c ∧ c.random = id
    | _, .verifier, v => ∃ c, W.oracle c ∧ c.verifier = v
    | _, _, _ => True
  next _ _ _ := ()

end Outside

open Outside

section Fit

variable {W : Outside}

lemma startIfAbsent_fit (t : TrackerConfig) (credID txID : Bytes) :
    Prog.Obeys W.fitMonitor (fun _ _ => True) () (t.startIfAbsent credID txID) := by
  simp only [TrackerConfig.startIfAbsent, perform, Prog.call_bind, Prog.Obeys.op_iff]
  refine ⟨trivial, fun newCount _ => ?_⟩
  split_ifs
  · exact ⟨trivial, fun _ _ => trivial⟩
  · simp only [Prog.Obeys.op_iff]
    refine ⟨trivial, fun _ _ => ⟨trivial, fun newCredCount _ => ?_⟩⟩
    split_ifs
    · exact ⟨trivial, fun _ _ => ⟨trivial, fun _ _ => trivial⟩⟩
    · simp only [Prog.Obeys.op_iff]
      refine ⟨trivial, fun now hnow => ⟨.active hnow _, fun loaded _ => ?_⟩⟩
      cases loaded with
      | true => exact ⟨trivial, fun _ _ => ⟨trivial, fun _ _ => trivial⟩⟩
      | false => trivial

lemma replaceOpen_fit {site : Site} {key : TransactionKey} {entry : Time → TransactionEntry}
    (h : ∀ now, W.time now → W.Fit (entry now)) :
    Prog.Obeys W.fitMonitor (fun _ _ => True) () (TrackerConfig.replaceOpen site key entry) := by
  simp only [TrackerConfig.replaceOpen, perform, Prog.call_bind, Prog.Obeys.op_iff]
  refine ⟨trivial, fun old _ => ?_⟩
  cases old with
  | none => trivial
  | some old =>
    simp only
    split_ifs
    · trivial
    · exact ⟨trivial, fun now hnow => ⟨h now hnow, fun _ _ => trivial⟩⟩

lemma complete_fit (key : TransactionKey) (retries : ℕ) :
    Prog.Obeys W.fitMonitor (fun _ _ => True) () (TrackerConfig.complete key retries) := by
  induction retries with
  | zero => exact ⟨trivial, nofun⟩
  | succ retries ih =>
    simp only [TrackerConfig.complete, perform, Prog.call_bind, Prog.Obeys.op_iff]
    refine ⟨trivial, fun old hold => ?_⟩
    cases old with
    | none => trivial
    | some old =>
      refine ⟨trivial, fun now hnow => ⟨(hold old rfl).completed hnow, fun swapped _ => ?_⟩⟩
      cases swapped with
      | true => trivial
      | false => exact ih

/-- The operations that store nothing. -/
def Effect.Storeless : Effect → Prop
  | .loadOrStore .. | .compareAndSwap .. | .restart .. => False
  | _ => True

lemma storeless_fit {α : Type} {p : ServerProg α} (hp : Prog.Only Effect.Storeless p) :
    Prog.Obeys W.fitMonitor (fun _ _ => True) () p := by
  refine Prog.Obeys.of_keeps (I := fun _ => True) (fun g o _ ho => ?_) hp trivial
  cases o <;> first | exact ho.elim | exact ⟨trivial, fun _ _ => trivial⟩

end Fit

/-! ### Units -/

/-- The operations that leave the counters and the map alone. -/
def Effect.Idle : Effect → Prop
  | .countAdd .. | .credCountAdd .. | .loadOrStore .. | .compareAndSwap .. | .loadAndDelete ..
  | .restart .. => False
  | _ => True

namespace Server

open TrackerConfig (Hold Scope Separates Owned)

variable (srv : Server) (W : Outside) (P : Bytes → Bytes → Prop)

/-- No two transactions collide: digests have 32 octets, and those of different transactions,
among the given pairs of credentialID and transactionID, are different. -/
structure Digests : Prop where
  length : ∀ b, (srv.crypto.hash .sha256 b).length = 32
  collisionFree : ∀ {c x c' x' : Bytes}, P c x → P c' x' →
    srv.tracker.makeKey c x = srv.tracker.makeKey c' x' →
    lengthPrefixed c ++ lengthPrefixed x = lengthPrefixed c' ++ lengthPrefixed x'

/-- An entry under the key belongs to the credential with this counter, for one of the pairs. -/
def Among (key : TransactionKey) (ck : CredentialKey) : Prop :=
  ∃ credID txID : Bytes, P credID txID ∧ credID.length = 32 ∧
    key = srv.tracker.makeKey credID txID ∧ ck = srv.tracker.makeCredentialKey credID

variable {srv P} in
lemma Digests.separates (hd : srv.Digests P) : Separates (srv.Among P) := by
  rintro key ck ck' ⟨c, x, hp, hlen, rfl, rfl⟩ ⟨c', x', hp', hlen', hkey, rfl⟩
  have hshort : ∀ {b : Bytes}, b.length = 32 → b.length < 2 ^ 32 := fun h => by rw [h]; decide
  obtain ⟨rfl, -⟩ := TrackerConfig.lengthPrefixed_append_inj (hshort hlen) (hshort hlen')
    (hd.collisionFree hp hp' hkey)
  rfl

/-- The monitor of a thread: that of a call, which starts anew with each entry it has
stored. -/
def ledgerMonitor : Monitor Effect Effect.Res Hold where
  allowed g o := (srv.tracker.holdMonitor (srv.Among P)).allowed g o
  rely g o x := (srv.tracker.holdMonitor (srv.Among P)).rely g o x
  next g o x := { (srv.tracker.holdMonitor (srv.Among P)).next g o x with stored := none }

/-- A call of the tracker is a part of a thread. -/
lemma ledger_of_hold {α : Type} {Q : Hold → α → Prop} {p : ServerProg α} {g : Hold}
    (hg : g.stored = none) (hp : Prog.Obeys (srv.tracker.holdMonitor (srv.Among P)) Q g p) :
    Prog.Obeys (srv.ledgerMonitor P)
      (fun g' a => ∃ g0, Q g0 a ∧ g' = { g0 with stored := none }) g p := by
  have heta : ∀ g : Hold, g.stored = none → g = { g with stored := none } := by
    rintro ⟨counted, cred, granted, credGranted, stored⟩ rfl
    rfl
  induction p generalizing g with
  | ret a => exact ⟨g, hp, heta g hg⟩
  | op o k ih =>
    refine ⟨hp.1, fun x hx => ?_⟩
    have hk := hp.2 x hx
    by_cases hnext : ((srv.tracker.holdMonitor (srv.Among P)).next g o x).stored = none
    · have := ih x hnext hk
      rwa [heta _ hnext] at this
    · -- the call has stored its entry and returns
      cases hkx : k x with
      | ret a =>
        rw [hkx] at hk
        exact ⟨_, hk, rfl⟩
      | op o' k' =>
        rw [hkx] at hk
        exact absurd hk.1.1 hnext

lemma idle_ledger {α : Type} {p : ServerProg α} (hp : Prog.Only Effect.Idle p) :
    Prog.Obeys (srv.ledgerMonitor P) (fun g _ => g = {}) {} p := by
  refine Prog.Obeys.of_keeps (I := fun g : Hold => g = {}) (fun g o hg ho => ?_) hp rfl
  subst hg
  cases o <;> first | exact ho.elim | exact ⟨⟨rfl, trivial⟩, fun _ _ => rfl⟩

/-- The monitor of a thread that stores entries that fit. -/
def lawMonitor : Monitor Effect Effect.Res (Hold × Unit) :=
  (srv.ledgerMonitor P).prod W.fitMonitor

/-- The program gives back what it takes, stores entries that fit, and returns what
satisfies `R`. -/
def Lawful {α : Type} (p : ServerProg α) (R : α → Prop) : Prop :=
  Prog.Obeys (srv.lawMonitor W P) (fun g a => g = ({}, ()) ∧ R a) ({}, ()) p

lemma lawMonitor_around : (srv.lawMonitor W P).Keeps (· = ({}, ())) Effect.Around := by
  rintro _ o rfl ho
  cases o <;> first
    | exact ho.elim
    | exact ⟨⟨⟨rfl, trivial⟩, trivial⟩, fun _ _ => rfl⟩

namespace Lawful

variable {srv W P} {α β : Type} {R : α → Prop} {S : β → Prop}

lemma ret {a : α} (h : R a) : srv.Lawful W P (.ret a) R := ⟨rfl, h⟩

lemma bind {p : ServerProg α} {f : α → ServerProg β} (hp : srv.Lawful W P p R)
    (hf : ∀ a, R a → srv.Lawful W P (f a) S) : srv.Lawful W P (p >>= f) S :=
  Prog.Obeys.bind hp fun g a h => by
    obtain ⟨rfl, ha⟩ := h
    exact hf a ha

/-- A call of the tracker. -/
lemma of_hold {p : ServerProg α}
    (hp : Prog.Obeys (srv.tracker.holdMonitor (srv.Among P)) (fun g _ => g = {}) {} p)
    (hf : Prog.Obeys W.fitMonitor (fun _ _ => True) () p) :
    srv.Lawful W P p fun _ => True := by
  refine ((srv.ledger_of_hold P rfl hp).prod hf).mono ?_
  rintro ⟨g, u⟩ a ⟨⟨g0, rfl, rfl⟩, -⟩
  exact ⟨rfl, trivial⟩

lemma of_answer {p : ServerProg α} (hp : Prog.Only Effect.Building p) :
    srv.Lawful W P p fun _ => True :=
  (Prog.Obeys.of_keeps (srv.lawMonitor_around W P) (hp.mono fun _ => Effect.Building.around)
    rfl).mono fun _ _ h => ⟨h, trivial⟩

/-- An operation that does not concern the tracker. -/
lemma perform {o : Effect} (ho : o.Idle) (hs : o.Storeless) :
    srv.Lawful W P (perform o) fun x => W.fitMonitor.rely () o x := by
  refine ⟨⟨(srv.idle_ledger P (Prog.Only.call_iff.mpr ho)).1,
    (storeless_fit (Prog.Only.call_iff.mpr hs)).1⟩, fun x hx => ⟨?_, hx.2⟩⟩
  exact Prod.ext ((srv.idle_ledger P (Prog.Only.call_iff.mpr ho)).2 x hx.1) rfl

end Lawful

/-! ### The handlers -/

/-- What the handler has returned is allowed. -/
def Point.Allowed : Point → Prop
  | .called _ r | .built (.called _ r) .. => W.Result r
  | _ => True

/-- The credential and the transactionID of the message are one of the pairs. -/
def InPairs (msg : PKIMessage) (sender : SenderIdentity) : Prop :=
  ∀ credID, sender.credentialID srv.crypto = .ok credID → P credID msg.header.transactionID

variable {srv W P} (hd : srv.Digests P) (hh : srv.handler = .external)
variable {msg : PKIMessage} {sender : SenderIdentity}

include hd in
lemma among_of_credential (hP : srv.InPairs P msg sender) {credID : Bytes}
    (hcred : sender.credentialID srv.crypto = .ok credID) :
    srv.Among P (srv.tracker.makeKey credID msg.header.transactionID)
      (srv.tracker.makeCredentialKey credID) := by
  refine ⟨credID, _, hP credID hcred, ?_, rfl, rfl⟩
  unfold SenderIdentity.credentialID at hcred
  split_ifs at hcred
  · cases hcred
    exact hd.length _
  · split at hcred
    · cases hcred
      exact hd.length _
    · cases hcred

lemma setCompleted_lawful (credID txID : Bytes) :
    srv.Lawful W P (srv.tracker.setCompleted credID txID) fun _ => True :=
  .of_hold (TrackerConfig.complete_hold _ _) (complete_fit _ _)

lemma delete_lawful (credID txID : Bytes) (judged : ℕ) :
    srv.Lawful W P (srv.tracker.delete credID txID judged) fun _ => True := by
  refine .of_hold (TrackerConfig.delete_hold _ _ _) (storeless_fit ⟨trivial, fun v => ?_⟩)
  cases v with
  | none => trivial
  | some c => exact ⟨trivial, fun _ => ⟨trivial, fun _ => ⟨trivial, fun _ => trivial⟩⟩⟩

/-- An open entry is replaced by one of the same credential that fits. -/
lemma replaceOpen_lawful {site : Site} {key : TransactionKey} {entry : Time → TransactionEntry}
    (h : ∀ now, srv.Among P key (entry now).credentialKey)
    (hfit : ∀ now, W.time now → W.Fit (entry now)) :
    srv.Lawful W P (TrackerConfig.replaceOpen site key entry) fun _ => True :=
  .of_hold (TrackerConfig.replaceOpen_hold h) (replaceOpen_fit hfit)

include hd hh

/-- **The handlers** give back what they take, and store entries that fit. -/
lemma Handles.lawful (hP : srv.InPairs P msg sender) {pt : Point}
    {p : ServerThread} (hp : srv.Handles msg sender pt p) (hpt : pt.Allowed W) :
    srv.Lawful W P p fun _ => True := by
  have hcall : ∀ ctx, srv.Lawful W P (srv.handler ctx msg sender) W.Result := by
    intro ctx
    rw [hh]
    exact Lawful.perform (o := .handleCMP ctx msg sender) trivial trivial
  have hbuild : (srv.lawMonitor W P).Keeps (· = ({}, ())) Effect.Building :=
    (srv.lawMonitor_around W P).mono fun _ => Effect.Building.around
  induction hp with
  | drop => exact .ret trivial
  | send => exact .ret trivial
  | look _ _ _ ih =>
    exact (Lawful.perform (by trivial) (by trivial)).bind fun found _ => ih found trivial
  | clock _ ih => exact (Lawful.perform (by trivial) (by trivial)).bind fun now _ => ih now trivial
  | call h _ ih =>
    refine (hcall _).bind fun r hr => ih r ?_
    cases h with
    | request => exact hr
    | poll => exact hr
    | _ => trivial
  | @build pt _ _ _ _ h _ ih =>
    refine h.obeys hbuild rfl fun tr resp ha _ hsame => ?_
    rw [hsame]
    refine ih tr resp ha ?_
    cases pt <;> first | exact hpt | trivial
  | pend hcred _ _ ha hclock _ ih =>
    have hnow := (clock_only hclock).mono (R := Effect.Building) fun _ h => by rw [h]; trivial
    refine (Lawful.of_answer hnow).bind fun last _ => ?_
    refine (replaceOpen_lawful (fun _ => among_of_credential hd hP hcred) fun _ hnow =>
      { lastActivity := hnow
        cert := by simp
        ref := by simp
        pending := fun _ => ha.senderNonce.ge
        issued := by simp }).bind fun ok _ => ih ok trivial
  | issue hcred hdec hc ha _ ih =>
    refine (replaceOpen_lawful (fun _ => among_of_credential hd hP hcred) fun _ hnow =>
      { lastActivity := hnow
        cert := by simpa using hpt.cert _ _ hdec.2.1 hc
        ref := fun ref => hpt.ref _ ref hdec.2.1
        pending := by simp
        issued := fun _ => ⟨rfl, ha.senderNonce.ge⟩ }).bind fun ok _ => ih ok trivial
  | complete _ _ ih => exact (setCompleted_lawful _ _).bind fun _ _ => ih trivial
  | tell _ _ _ ih =>
    exact (Lawful.perform (by trivial) (by trivial)).bind fun err _ => ih err trivial
  | delete _ _ _ ih => exact (delete_lawful _ _ _).bind fun _ _ => ih trivial
  | finish _ _ ih => exact (setCompleted_lawful _ _).bind fun _ _ => ih trivial

omit hh in
lemma startTransaction_lawful (hP : srv.InPairs P msg sender) :
    srv.Lawful W P (srv.startTransaction msg sender) fun _ => True := by
  unfold startTransaction
  split
  · exact .ret trivial
  · next credID hcred =>
    split_ifs
    · have hstart : srv.Lawful W P (srv.tracker.startIfAbsent credID msg.header.transactionID)
          fun _ => True := by
        have hhold := TrackerConfig.startIfAbsent_hold (t := srv.tracker)
          (among_of_credential hd hP hcred)
        refine ((srv.ledger_of_hold P rfl hhold).prod (startIfAbsent_fit _ _ _)).mono ?_
        rintro ⟨g, u⟩ r ⟨⟨g0, rfl, rfl⟩, -⟩
        exact ⟨rfl, trivial⟩
      refine hstart.bind fun r _ => ?_
      split <;> exact .ret trivial
    · exact .ret trivial

omit hh in
lemma validateHeader_lawful (hP : srv.InPairs P msg sender)
    (hrandom : msg.header.transactionID = [] → ∀ c, W.oracle c → ∀ credID,
      sender.credentialID srv.crypto = .ok credID → P credID c.random.1) :
    srv.Lawful W P (srv.validateHeader msg sender) fun r => srv.InPairs P r.1 sender := by
  have hfields : ∀ {m : PKIMessage}, srv.InPairs P m sender →
      srv.Lawful W P (srv.validateFields m sender) fun _ => True := by
    intro m hm
    unfold validateFields
    split
    · exact .ret trivial
    · have htime : srv.Lawful W P (srv.checkMessageTime m) fun _ => True := by
        unfold checkMessageTime
        split_ifs
        · refine Lawful.bind (Lawful.perform (by trivial) (by trivial)) fun now _ => ?_
          split_ifs <;> exact .ret trivial
        · exact .ret trivial
      refine htime.bind fun r _ => ?_
      split
      · exact .ret trivial
      · split_ifs
        · exact .ret trivial
        · exact startTransaction_lawful hd hm
  unfold validateHeader
  split_ifs with hid
  · exact .ret hP
  · refine Lawful.bind (Lawful.perform (by trivial) (by trivial)) fun id hrely => ?_
    have hm : srv.InPairs P { msg with header := { msg.header with transactionID := id.1 } }
        sender := by
      intro credID hcred
      obtain ⟨c, hc, rfl⟩ := hrely
      exact hrandom hid c hc credID hcred
    exact (hfields hm).bind fun r _ => .ret hm
  · exact (hfields hP).bind fun r _ => .ret hP

omit hd hh in
variable (srv W P) in
/-- The pairs that a message brings: the credential that it is verified for, with its
transactionID or the one that it is given. -/
def Covers (msg : PKIMessage) : Prop :=
  ∀ q sender, srv.Verified (fun v => ∃ c, W.oracle c ∧ c.verifier = v) msg q sender →
    srv.InPairs P q sender ∧ (q.header.transactionID = [] → ∀ c, W.oracle c → ∀ credID,
      sender.credentialID srv.crypto = .ok credID → P credID c.random.1)

lemma processMessage_lawful (hcovers : srv.Covers W P msg) :
    srv.Lawful W P (srv.processMessage msg) fun _ => True := by
  refine srv.process_obeys_of_verified (srv.lawMonitor_around W P) ?_ ?_ ?_ 2 none rfl
  · rintro _ rfl
    exact ⟨⟨rfl, trivial⟩, trivial⟩
  · rintro _ r rfl
    exact ⟨rfl, trivial⟩
  · rintro _ m s ⟨harrived, v, s', ⟨_, hv⟩, hs⟩ rfl
    obtain ⟨hP, hrandom⟩ := hcovers m s ⟨harrived, v, s', hv.2, hs⟩
    refine Lawful.bind (validateHeader_lawful hd hP hrandom) fun r hr => ?_
    obtain ⟨m', r⟩ := r
    cases r with
    | error e => exact .of_answer (srv.answerError_only ..)
    | ok _ => exact (srv.dispatch_handles m' s).lawful hd hh hr trivial

omit hh in
lemma cleanup_lawful : srv.Lawful W P
    (srv.cleanupExpired >>= fun _ => pure (none : Option PKIMessage)) fun _ => True := by
  have hfit := srv.cleanupExpired_only.mono (R := Effect.Storeless) fun o ho => by
    cases o <;> first | exact ho.elim | trivial
  refine Lawful.bind (.of_hold ?_ (storeless_fit hfit)) fun _ _ => .ret trivial
  refine Prog.Obeys.bind (TrackerConfig.cleanupExpired_hold hd.separates _) ?_
  rintro _ expired rfl
  split_ifs
  · refine notifyExpired_obeys (fun _ _ _ => ?_) expired
    exact ⟨⟨rfl, trivial⟩, fun _ => rfl⟩
  · rfl

omit hd hh

/-! ### Runs -/

/-- A tracker in order, while nothing is served: every entry belongs to the credential
of its key and fits, the counters are the numbers of entries, and these are within the
limits. -/
structure InOrder (srv : Server) (W : Outside) (P : Bytes → Bytes → Prop) (m : Tracker) : Prop where
  owned : Owned (srv.Among P) m
  fit : ∀ key cell, m.cell key = some cell → W.Fit cell.entry
  counters : ∀ sc : Scope, sc.counter m = m.countIf sc.has
  limits : ∀ sc : Scope, (m.countIf sc.has : ℤ) ≤ max 0 (sc.limit srv.tracker)

/-- The same while threads hold units. -/
structure Balanced (srv : Server) (W : Outside) (P : Bytes → Bytes → Prop) (s : ServerSys)
    (gs : List (Hold × Unit)) : Prop where
  owned : Owned (srv.Among P) s.mem
  fit : ∀ key cell, s.mem.cell key = some cell → W.Fit cell.entry
  counters : ∀ sc : Scope,
    sc.counter s.mem = s.mem.countIf sc.has + gs.countP fun g => sc.held g.1
  limits : ∀ sc : Scope, (s.mem.countIf sc.has + gs.countP fun g => sc.granted g.1 : ℤ) ≤
    max 0 (sc.limit srv.tracker)

lemma InOrder.empty (n : ℕ) : srv.InOrder W P { nextPtr := n } where
  owned h := by cases h
  fit key cell h := by cases h
  counters sc := by cases sc <;> rfl
  limits sc := by simp [Tracker.countIf]

/-- The empty pool over a tracker in order. -/
lemma InOrder.init {m : Tracker} (h : srv.InOrder W P m) : srv.Balanced W P (.init m) [] where
  owned := h.owned
  fit := h.fit
  counters sc := by simpa [Sys.init] using h.counters sc
  limits sc := by simpa [Sys.init] using h.limits sc

lemma Balanced.start {s : ServerSys} {gs : List (Hold × Unit)} (h : srv.Balanced W P s gs)
    (p : ServerThread) :
    srv.Balanced W P (s.start p) (gs ++ [(({} : Hold), ())]) where
  owned := h.owned
  fit := h.fit
  counters sc := by
    rw [List.countP_append]
    have hnew : [(({} : Hold), ())].countP (fun g => sc.held g.1) = 0 := by cases sc <;> rfl
    rw [hnew]
    exact h.counters sc
  limits sc := by
    rw [List.countP_append]
    have hnew : [(({} : Hold), ())].countP (fun g => sc.granted g.1) = 0 := by cases sc <;> rfl
    rw [hnew]
    exact h.limits sc

/-- An operation that is allowed stores entries that fit. -/
lemma fit_step {o : Effect} {x : o.Res} {m m' : Tracker}
    (h : ∀ key cell, m.cell key = some cell → W.Fit cell.entry)
    (ha : W.fitMonitor.allowed () o) (hx : MapStep m o x m') :
    ∀ key cell, m'.cell key = some cell → W.Fit cell.entry := by
  intro key cell hcell
  cases hx with
  | store key' entry _ =>
    rw [Tracker.cell_publish] at hcell
    split_ifs at hcell
    · cases hcell
      exact ha
    · exact h key cell hcell
  | swap site key' cell' new _ =>
    rw [Tracker.cell_publish] at hcell
    split_ifs at hcell
    · cases hcell
      exact ha
    · exact h key cell hcell
  | delete site key' judged =>
    rw [Tracker.cell_remove] at hcell
    split_ifs at hcell
    exact h key cell hcell
  | restart => exact ha.elim
  | other x m' ho hc hn => exact h key cell (by simpa only [Tracker.cell, hc] using hcell)
  | _ => exact h key cell hcell

/-- What is read fits, and what comes from outside is allowed. -/
lemma fit_rely {o : Effect} {x : o.Res} {c : Oracle} {m m' : Tracker}
    (h : ∀ key cell, m.cell key = some cell → W.Fit cell.entry) (hc : W.Brings c)
    (hx : exec o c m = some (x, m')) : W.fitMonitor.rely () o x := by
  cases o with
  | now =>
    cases hx
    exact hc.time
  | load site key =>
    rintro cell rfl
    exact h key cell (exec_mapStep hx).loaded.1
  | handleCMP =>
    cases hx
    exact hc.result
  | random =>
    cases hx
    exact ⟨c, hc.oracle, rfl⟩
  | verifier =>
    cases hx
    exact ⟨c, hc.oracle, rfl⟩
  | _ => trivial

/-- **One step** of a thread keeps the balance. -/
lemma Balanced.after {s : ServerSys} {gs : List (Hold × Unit)} (hsep : Separates (srv.Among P))
    (h : srv.Balanced W P s gs) {i : ℕ} {g : Hold × Unit} {o : Effect} {x : o.Res} {c : Oracle}
    {m : Tracker} (hi : gs[i]? = some g)
    (ha : (srv.lawMonitor W P).allowed g o) (hx : exec o c s.mem = some (x, m))
    (k : o.Res → ServerThread) :
    srv.Balanced W P (s.after i o k x m)
      (gs.set i ((srv.lawMonitor W P).next g o x)) where
  owned := TrackerConfig.owned_step (t := srv.tracker) h.owned ha.1 hx
  fit := fit_step h.fit ha.2 (exec_mapStep hx)
  counters sc := TrackerConfig.counter_set sc Prod.fst hsep h.owned hi ha.1 hx
    (by cases sc <;> rfl) (h.counters sc)
  limits sc := TrackerConfig.limit_set sc Prod.fst hsep h.owned hi ha.1 hx
    (by cases sc <;> rfl) (by cases sc <;> rfl) (h.counters sc) (h.limits sc)

/-- What an action starts: one of the messages, or a cleanup. -/
def StartsOne (srv : Server) (msgs : List PKIMessage)
    (a : ServerAction) : Prop :=
  ∀ p, a = .spawn p →
    (∃ msg ∈ msgs, p = srv.processMessage msg) ∨ p = srv.cleanupExpired >>= fun _ => pure none

/-- The messages and cleanups of the server are started, and what the outside contributes is
allowed. -/
def Serves (srv : Server) (W : Outside) (msgs : List PKIMessage)
    (a : ServerAction) : Prop :=
  srv.StartsOne msgs a ∧ ∀ i c, a = .step i c → W.Brings c

/-- The pairs of a run: a credential that one of the messages, or the one inside it, is verified
for with lookups of the run, and the transactionID of this message or, when it has none, one that
is drawn in the run. -/
def Pairs (srv : Server) (msgs : List PKIMessage)
    (actions : List ServerAction) (credID txID : Bytes) :
    Prop :=
  ∃ msg ∈ msgs, ∃ q sender,
    srv.Verified (fun v => ∃ i c, .step i c ∈ actions ∧ c.verifier = v) msg q sender ∧
    sender.credentialID srv.crypto = .ok credID ∧
    (txID = q.header.transactionID ∨
      q.header.transactionID = [] ∧ ∃ i c, .step i c ∈ actions ∧ txID = c.random.1)

include hd hh

lemma balanced_inductive {msgs : List PKIMessage} (hcovers : ∀ msg ∈ msgs, srv.Covers W P msg) :
    Sys.Inductive exec (srv.lawMonitor W P) (fun g _ => g = ({}, ()) ∧ True)
      (srv.Balanced W P) fun _ a => srv.Serves W msgs a where
  spawn _ _ p hw hp := by
    refine ⟨({}, ()), ?_, hw.2.start p⟩
    obtain ⟨msg, hmsg, rfl⟩ | rfl := hp.1 p rfl
    · exact processMessage_lawful hd hh (hcovers msg hmsg)
    · exact cleanup_lawful hd
  step _ _ i c _ _ k _ _ hw hi _ ha hx hc :=
    ⟨⟨TrackerConfig.holds_rely (t := srv.tracker) hw.2.owned hx,
      fit_rely hw.2.fit (hc.2 i c rfl) hx⟩, hw.2.after hd.separates hi ha hx k⟩

/-- **Serving keeps the tracker in order**: from a tracker in order, any run that comes
to rest leaves one in order. -/
theorem inOrder_of_run {m : Tracker} (hm : srv.InOrder W P m) {msgs : List PKIMessage}
    {actions : List ServerAction} {s : ServerSys}
    (hserves : ∀ a ∈ actions, srv.Serves W msgs a)
    (hpairs : ∀ c x, srv.Pairs msgs actions c x → P c x)
    (hrun : Sys.run exec (.init m) actions = some s) (hq : s.Quiescent) :
    srv.InOrder W P s.mem := by
  -- the outside of this run: what its steps have found
  let W' : Outside := { W with oracle := fun c => W.oracle c ∧ ∃ i, .step i c ∈ actions }
  have hfit : ∀ {e : TransactionEntry}, W'.Fit e ↔ W.Fit e := fun {e} =>
    ⟨fun h => ⟨h.lastActivity, h.cert, h.ref, h.pending, h.issued⟩,
      fun h => ⟨h.lastActivity, h.cert, h.ref, h.pending, h.issued⟩⟩
  have hm' : srv.InOrder W' P m :=
    ⟨hm.owned, fun key cell h => hfit.mpr (hm.fit key cell h), hm.counters, hm.limits⟩
  have hactions : ∀ a ∈ actions, srv.Serves W' msgs a := by
    refine fun a ha => ⟨(hserves a ha).1, fun i c h => ?_⟩
    obtain ⟨htime, hresult, horacle⟩ := (hserves a ha).2 i c h
    exact ⟨htime, ⟨hresult.cert, hresult.ref⟩, horacle, i, h ▸ ha⟩
  have hcovers : ∀ msg ∈ msgs, srv.Covers W' P msg := by
    rintro msg hmsg q sender ⟨harrived, v, s, ⟨c, ⟨-, i, hstep⟩, hv⟩, hs, hcred⟩
    have hver : srv.Verified (fun v => ∃ i c, .step i c ∈ actions ∧ c.verifier = v) msg q
        sender := ⟨harrived, v, s, ⟨i, c, hstep, hv⟩, hs, hcred⟩
    refine ⟨fun credID h => hpairs _ _ ⟨msg, hmsg, q, sender, hver, h, .inl rfl⟩, ?_⟩
    rintro hid c ⟨-, i, hc⟩ credID h
    exact hpairs _ _ ⟨msg, hmsg, q, sender, hver, h, .inr ⟨hid, i, c, hc, rfl⟩⟩
  obtain ⟨gs, hw⟩ := Sys.invariant (balanced_inductive (W := W') hd hh hcovers) ⟨.nil, hm'.init⟩
    (.of_forall hactions _) hrun
  -- at rest no thread holds anything
  have hrest : ∀ p : Hold → Bool, p {} = false → gs.countP (fun g => p g.1) = 0 := by
    intro p hp
    refine List.countP_eq_zero.mpr fun g hg => ?_
    obtain ⟨_, rfl, -⟩ := hw.quiescent hq g hg
    simp [hp]
  have h := hw.2
  refine ⟨h.owned, fun key cell hc => hfit.mp (h.fit key cell hc), fun sc => ?_, fun sc => ?_⟩
  · rw [h.counters sc, hrest sc.held (by cases sc <;> rfl)]
    simp
  · have := h.limits sc
    rw [hrest sc.granted (by cases sc <;> rfl)] at this
    simpa using this

end Server

end PkiCmp
