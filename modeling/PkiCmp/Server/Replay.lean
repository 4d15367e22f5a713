/-
Replays of initial requests.

The entry of a transaction is the lock on its transactionID: an initial request
reaches the handler only after it has stored the entry, so a second one for the
same credential and transactionID has to wait until the entry is removed.

* `Reaches`: an initial request reaches the handler;
* `Concluded`, `Expired`: the two ways in which an entry is removed;
* `lockMonitor`, `Locked`: the lock, and the invariant of a sequential run;
* `replay_locked`: a replay reaches the handler only after the entry expired, or
  after a certConf removed it.
-/
import PkiCmp.Server.Memory
import PkiCmp.Server.Handling

namespace PkiCmp

open Der Interact

/-! ### What happens to a transactionID -/

/-- An initial request of the credential with the transactionID reaches the
handler. -/
def Reaches (cr : Crypto) (credID txID : Bytes) (e : ℕ × ServerEvent) : Prop :=
  ∃ ctx req sender r, e.2 = ⟨.handleCMP ctx req sender, r⟩ ∧ isInitialRequest req.body.type ∧
    sender.credentialID cr = .ok credID ∧ req.header.transactionID = txID

/-- The entry under the key is removed at the end of `handleCertConf`. -/
def Concluded (key : TransactionKey) (log : ServerLog) : Prop :=
  ∃ i judged cell, (i, ⟨.loadAndDelete .delete key judged, some cell⟩) ∈ log

/-- The entry under the key is removed by a cleanup that has read the clock, when
its last activity is longer ago than the given time. -/
def Expired (wait : Duration) (key : TransactionKey) (log : ServerLog) : Prop :=
  ∃ i now cell, (i, ⟨.now, now⟩) ∈ log ∧
    (i, ⟨.loadAndDelete .cleanupExpired key cell.ptr, some cell⟩) ∈ log ∧
    cell.entry.lastActivity.before (now - wait)

/-- The entry under the key is removed. -/
def Removed (wait : Duration) (key : TransactionKey) (log : ServerLog) : Prop :=
  Concluded key log ∨ Expired wait key log

lemma Removed.append {wait : Duration} {key : TransactionKey} {log : ServerLog}
    (h : Removed wait key log) (e : ℕ × ServerEvent) : Removed wait key (log ++ [e]) := by
  obtain ⟨i, judged, cell, h⟩ | ⟨i, now, cell, hnow, h, hbefore⟩ := h
  · exact .inl ⟨i, judged, cell, List.mem_append_left _ h⟩
  · exact .inr ⟨i, now, cell, List.mem_append_left _ hnow, List.mem_append_left _ h, hbefore⟩

/-! ### The lock -/

/-- What a thread knows: the key it has stored an entry under, the time it has read
last, and the entry it has read last. -/
structure Lock where
  started : Option TransactionKey := none
  clock : Option Time := none
  read : Option (TransactionKey × Cell) := none

namespace Server

variable (srv : Server)

/-- The monitor of a thread: an initial request has stored its entry before it
reaches the handler, and the cleanup removes only what it has judged. -/
def lockMonitor : Monitor Effect Effect.Res Lock where
  allowed
    | g, .handleCMP _ req sender => isInitialRequest req.body.type →
        ∀ credID, sender.credentialID srv.crypto = .ok credID →
          g.started = some (srv.tracker.makeKey credID req.header.transactionID)
    | _, .loadAndDelete .delete _ _ => True
    | g, .loadAndDelete .cleanupExpired key judged =>
      ∃ cell now, g.read = some (key, cell) ∧ cell.ptr = judged ∧ g.clock = some now ∧
        cell.entry.lastActivity.before (now - srv.cfg.confirmWait)
    | _, .loadAndDelete .. => False
    | _, .restart .. => False
    | _, _ => True
  rely _ _ _ := True
  next
    | g, .now, now => { g with clock := some now }
    | g, .load _ key, c => { g with read := c.map fun c => (key, c) }
    | g, .loadOrStore key _, loaded =>
      if loaded then g else { g with started := some key, read := none }
    | g, .compareAndSwap .., _ => { g with read := none }
    | g, .loadAndDelete .., _ => { g with started := none, read := none }
    | _, .handleCMP .., _ => {}
    | g, _, _ => g

/-- The event is a request that reaches the handler with the key. -/
def ReachesKey (key : TransactionKey) (e : ℕ × ServerEvent) : Prop :=
  ∃ credID txID, Reaches srv.crypto credID txID e ∧ srv.tracker.makeKey credID txID = key

/-- The invariant of a sequential run.  A key that has reached the handler is held
by an entry or was removed since; a thread that has stored an entry found the key
free; and what the running thread has read is still so. -/
structure Locked (s : ServerSys) (gs : List Lock) : Prop where
  single : ∀ {i j : ℕ}, (s.nextOp i).isSome → (s.nextOp j).isSome → i = j
  held : ∀ key, Since (srv.ReachesKey key) s.log fun post =>
    (s.mem.cell key).isSome ∨ Removed srv.cfg.confirmWait key post
  between : ∀ key, Since (srv.ReachesKey key) s.log fun rest =>
    ∀ mid e post, rest = mid ++ e :: post → srv.ReachesKey key e →
      Removed srv.cfg.confirmWait key mid
  fresh : ∀ {i : ℕ} {g : Lock} {key : TransactionKey}, gs[i]? = some g → (s.nextOp i).isSome →
    g.started = some key → Since (srv.ReachesKey key) s.log (Removed srv.cfg.confirmWait key)
  present : ∀ {i : ℕ} {g : Lock} {key : TransactionKey}, gs[i]? = some g → (s.nextOp i).isSome →
    g.started = some key → (s.mem.cell key).isSome
  clock : ∀ {i : ℕ} {g : Lock} {now : Time}, gs[i]? = some g → (s.nextOp i).isSome →
    g.clock = some now →
    ∀ key, Since (srv.ReachesKey key) s.log fun post => (i, ⟨.now, now⟩) ∈ post
  read : ∀ {i : ℕ} {g : Lock} {key : TransactionKey} {cell : Cell}, gs[i]? = some g →
    (s.nextOp i).isSome → g.read = some (key, cell) → s.mem.cell key = some cell

variable {srv}

/-! ### One step -/

section Step

variable {g : Lock} {i : ℕ} {o : Effect} {x : o.Res} {key : TransactionKey} {t t' : Tracker}

/-- What reaches the handler is a call of it, by a thread that has stored the
entry. -/
lemma ReachesKey.started (h : srv.ReachesKey key (i, ⟨o, x⟩)) (ha : srv.lockMonitor.allowed g o) :
    g.started = some key := by
  obtain ⟨credID, txID, ⟨ctx, req, sender, r, he, hinit, hcred, rfl⟩, rfl⟩ := h
  obtain ⟨rfl, -⟩ := Event.mk.inj he
  exact ha hinit credID hcred

/-- A call of the handler leaves nothing behind. -/
lemma ReachesKey.next (h : srv.ReachesKey key (i, ⟨o, x⟩)) : srv.lockMonitor.next g o x = {} := by
  obtain ⟨credID, txID, ⟨ctx, req, sender, r, he, -⟩, -⟩ := h
  obtain ⟨rfl, -⟩ := Event.mk.inj he
  rfl

/-- A call of the handler leaves the map as it is. -/
lemma ReachesKey.cell (h : srv.ReachesKey key (i, ⟨o, x⟩)) (hstep : MapStep t o x t') :
    t'.cell key = t.cell key := by
  obtain ⟨credID, txID, ⟨ctx, req, sender, r, he, -⟩, -⟩ := h
  obtain ⟨rfl, -⟩ := Event.mk.inj he
  cases hstep with
  | other x t' ho hc hn => simp only [Tracker.cell, hc]

/-- An entry stays under its key, or is removed in a way that the log shows. -/
lemma cell_kept (hstep : MapStep t o x t') (ha : srv.lockMonitor.allowed g o)
    (h : (t.cell key).isSome) :
    (t'.cell key).isSome ∨ ∃ site judged cell, t.cell key = some cell ∧
      (⟨o, x⟩ : ServerEvent) = ⟨.loadAndDelete site key judged, some cell⟩ := by
  cases hstep with
  | store key' entry hnone =>
    refine .inl ?_
    rw [Tracker.cell_publish]
    split_ifs
    · rfl
    · exact h
  | swap site key' cell new hcell =>
    refine .inl ?_
    rw [Tracker.cell_publish]
    split_ifs
    · rfl
    · exact h
  | delete site key' judged =>
    rw [Tracker.cell_remove]
    split_ifs with hk
    · subst hk
      obtain ⟨cell, hcell⟩ := Option.isSome_iff_exists.mp h
      exact .inr ⟨site, judged, cell, hcell, by rw [hcell]⟩
    · exact .inl h
  | restart => exact ha.elim
  | other x t' ho hc hn => exact .inl (by simpa only [Tracker.cell, hc] using h)
  | _ => exact .inl h

/-- The entry that a thread stores is there as long as the thread relies on it. -/
lemma started_present (hstep : MapStep t o x t') (ha : srv.lockMonitor.allowed g o)
    (h : ∀ key, g.started = some key → (t.cell key).isSome)
    (hs : (srv.lockMonitor.next g o x).started = some key) : (t'.cell key).isSome := by
  cases hstep with
  | load site key' => exact h key hs
  | present key' entry hsome => exact h key hs
  | store key' entry hnone =>
    obtain rfl : key' = key := Option.some.inj hs
    rw [Tracker.cell_publish, if_pos rfl]
    rfl
  | swap site key' cell new hcell =>
    rw [Tracker.cell_publish]
    split_ifs
    · rfl
    · exact h key hs
  | lost site key' old new hne => exact h key hs
  | delete site key' judged => cases hs
  | restart => exact ha.elim
  | refused => exact ha.elim
  | other x t' ho hc hn =>
    have hs' : g.started = some key := by
      cases o <;> first | exact hs | exact absurd trivial ho | cases hs
    simpa only [Tracker.cell, hc] using h key hs'

/-- What a thread has read is there as long as the thread relies on it. -/
lemma read_current {cell : Cell} (hstep : MapStep t o x t') (ha : srv.lockMonitor.allowed g o)
    (h : ∀ key cell, g.read = some (key, cell) → t.cell key = some cell)
    (hr : (srv.lockMonitor.next g o x).read = some (key, cell)) : t'.cell key = some cell := by
  cases hstep with
  | load site key' =>
    obtain ⟨c, hc, heq⟩ := Option.map_eq_some_iff.mp hr
    cases heq
    exact hc
  | present key' entry hsome => exact h key cell hr
  | store key' entry hnone => cases hr
  | swap site key' cell' new hcell => cases hr
  | lost site key' old new hne => cases hr
  | delete site key' judged => cases hr
  | restart => exact ha.elim
  | refused => exact ha.elim
  | other x t' ho hc hn =>
    have hr' : g.read = some (key, cell) := by
      cases o <;> first | exact hr | exact absurd trivial ho | cases hr
    simpa only [Tracker.cell, hc] using h key cell hr'

/-- A key is stored when it was free. -/
lemma started_before (hstep : MapStep t o x t')
    (hs : (srv.lockMonitor.next g o x).started = some key) :
    g.started = some key ∨ t.cell key = none := by
  cases hstep with
  | load site key' => exact .inl hs
  | present key' entry hsome => exact .inl hs
  | store key' entry hnone =>
    obtain rfl : key' = key := Option.some.inj hs
    exact .inr hnone
  | swap site key' cell' new hcell => exact .inl hs
  | lost site key' old new hne => exact .inl hs
  | delete site key' judged => cases hs
  | restart => exact .inl hs
  | refused => exact .inl hs
  | other x t' ho hc hn =>
    refine .inl ?_
    cases o <;> first | exact hs | exact absurd trivial ho | cases hs

/-- The clock was read before, or in this step. -/
lemma clock_before {now : Time} (hc : (srv.lockMonitor.next g o x).clock = some now) :
    g.clock = some now ∨ (⟨o, x⟩ : ServerEvent) = ⟨.now, now⟩ := by
  cases o with
  | now =>
    cases hc
    exact .inr rfl
  | loadOrStore key entry =>
    obtain rfl | rfl := Bool.eq_false_or_eq_true x
    · exact .inl hc
    · exact .inl hc
  | handleCMP => cases hc
  | _ => exact .inl hc

end Step

namespace Locked

variable {s : ServerSys} {gs : List Lock} {i : ℕ} {g : Lock} {o : Effect} {x : o.Res} {t : Tracker}
variable (h : srv.Locked s gs) (hi : gs[i]? = some g) (hop : (s.nextOp i).isSome)
variable (ha : srv.lockMonitor.allowed g o) (hstep : MapStep s.mem o x t)
include h hi hop ha hstep

lemma held_after (key : TransactionKey) :
    Since (srv.ReachesKey key) (s.log ++ [(i, ⟨o, x⟩)]) fun post =>
      (t.cell key).isSome ∨ Removed srv.cfg.confirmWait key post := by
  refine Since.snoc (fun pre b post hl hb => ?_) fun hr => .inl ?_
  · obtain hcell | hrem := h.held key pre b post hl hb
    · refine (cell_kept hstep ha hcell).imp id ?_
      rintro ⟨site, judged, cell, hc, he⟩
      obtain ⟨rfl, hx⟩ := Event.mk.inj he
      cases site with
      | delete => exact .inl ⟨i, judged, cell, by rw [he]; simp⟩
      | cleanupExpired =>
        obtain ⟨cell', now, hread, rfl, hclock, hbefore⟩ := ha
        obtain rfl : cell = cell' := Option.some.inj (hc.symm.trans (h.read hi hop hread))
        exact .inr ⟨i, now, cell, List.mem_append_left _
          (h.clock hi hop hclock key pre b post hl hb),
          by rw [he]; simp, hbefore⟩
      | _ => exact ha.elim
    · exact .inr (hrem.append _)
  · rw [hr.cell hstep]
    exact h.present hi hop (hr.started ha)

omit hstep in
lemma between_after (key : TransactionKey) :
    Since (srv.ReachesKey key) (s.log ++ [(i, ⟨o, x⟩)]) fun rest =>
      ∀ mid e post, rest = mid ++ e :: post → srv.ReachesKey key e →
        Removed srv.cfg.confirmWait key mid := by
  refine Since.snoc (fun pre b rest hl hb => ?_) fun _ mid e post hrest => by simp at hrest
  intro mid e post hrest he
  obtain rfl | ⟨post, y, rfl⟩ := List.eq_nil_or_concat post
  · -- the new event is the second request
    obtain ⟨rfl, hxe⟩ := List.append_inj' hrest rfl
    obtain rfl := (List.cons.inj hxe).1
    exact h.fresh hi hop (he.started ha) pre b rest hl hb
  · rw [List.concat_eq_append, ← List.cons_append, ← List.append_assoc] at hrest
    obtain ⟨rfl, -⟩ := List.append_inj' hrest rfl
    exact h.between key pre b _ hl hb mid e post rfl he

omit ha in
lemma fresh_after {key : TransactionKey}
    (hs : (srv.lockMonitor.next g o x).started = some key) :
    Since (srv.ReachesKey key) (s.log ++ [(i, ⟨o, x⟩)]) (Removed srv.cfg.confirmWait key) := by
  have hold : Since (srv.ReachesKey key) s.log (Removed srv.cfg.confirmWait key) := by
    obtain hs | hnone := started_before hstep hs
    · exact h.fresh hi hop hs
    · refine (h.held key).mono fun post hpost => hpost.resolve_left ?_
      simp [hnone]
  refine Since.snoc (hold.mono fun post hpost => hpost.append _) fun hr => ?_
  rw [hr.next] at hs
  cases hs

omit ha hstep in
lemma clock_after {now : Time} (hc : (srv.lockMonitor.next g o x).clock = some now)
    (key : TransactionKey) : Since (srv.ReachesKey key) (s.log ++ [(i, ⟨o, x⟩)]) fun post =>
      (i, ⟨.now, now⟩) ∈ post := by
  refine Since.snoc (fun pre b post hl hb => ?_) fun hr => ?_
  · obtain hc | he := clock_before hc
    · exact List.mem_append_left _ (h.clock hi hop hc key pre b post hl hb)
    · rw [he]
      simp
  · rw [hr.next] at hc
    cases hc

/-- **One step** of the running thread keeps the invariant. -/
lemma after (k : o.Res → ServerThread) :
    srv.Locked (s.after i o k x t) (gs.set i (srv.lockMonitor.next g o x)) := by
  -- no other thread is running
  have hrunning : ∀ {j : ℕ}, ((s.after i o k x t).nextOp j).isSome → j = i := by
    intro j hj
    by_contra hne
    rw [Sys.nextOp_after_ne hne] at hj
    exact hne (h.single hj hop)
  have hmine : ∀ {j : ℕ} {g' : Lock}, (gs.set i (srv.lockMonitor.next g o x))[j]? = some g' →
      ((s.after i o k x t).nextOp j).isSome → j = i ∧ g' = srv.lockMonitor.next g o x := by
    intro j g' hj hop'
    obtain hj | ⟨hne, -⟩ := eq_or_getElem?_of_set hj
    · exact hj
    · exact absurd (hrunning hop') hne
  constructor
  case single =>
    intro j1 j2 h1 h2
    rw [hrunning h1, hrunning h2]
  case held => exact h.held_after hi hop ha hstep
  case between => exact h.between_after hi hop ha
  case fresh =>
    intro j g' key hj hop' hs
    obtain ⟨rfl, rfl⟩ := hmine hj hop'
    exact h.fresh_after hi hop hstep hs
  case present =>
    intro j g' key hj hop' hs
    obtain ⟨rfl, rfl⟩ := hmine hj hop'
    exact started_present hstep ha (fun _ => h.present hi hop) hs
  case clock =>
    intro j g' now hj hop' hc
    obtain ⟨rfl, rfl⟩ := hmine hj hop'
    exact h.clock_after hi hop hc
  case read =>
    intro j g' key cell hj hop' hr
    obtain ⟨rfl, rfl⟩ := hmine hj hop'
    exact read_current hstep ha (fun _ _ => h.read hi hop) hr

omit h hi hop ha hstep

lemma init : srv.Locked (.init {}) [] where
  single h := by simp [Sys.init, Sys.nextOp] at h
  held _ := .nil
  between _ := .nil
  fresh h := by simp at h
  present h := by simp at h
  clock h := by simp at h
  read h := by simp at h

/-- A thread is started when no other one is running. -/
lemma start (h : srv.Locked s gs) (hq : s.Quiescent) (hlen : gs.length = s.threads.length)
    (p : ServerThread) : srv.Locked (s.start p) (gs ++ [({} : Lock)]) := by
  have hrunning : ∀ {j : ℕ}, ((s.start p).nextOp j).isSome → j = s.threads.length := by
    intro j hj
    obtain hlt | rfl | hgt := lt_trichotomy j s.threads.length
    · have hnone := hq.nextOp j
      simp only [Sys.nextOp, Sys.start, List.getElem?_append_left hlt] at hj hnone
      simp [hnone] at hj
    · rfl
    · simp [Sys.nextOp, Sys.start, List.getElem?_eq_none (l := s.threads ++ [p]) (i := j)
        (by simp; omega)] at hj
  have hnew : ∀ {j : ℕ} {g : Lock}, (gs ++ [({} : Lock)])[j]? = some g →
      ((s.start p).nextOp j).isSome → g = {} := by
    intro j g hj hop
    rw [hrunning hop, ← hlen, List.getElem?_concat_length] at hj
    exact (Option.some.inj hj).symm
  constructor
  case single =>
    intro j1 j2 h1 h2
    rw [hrunning h1, hrunning h2]
  case held => exact h.held
  case between => exact h.between
  case fresh =>
    intro j g key hj hop hs
    rw [hnew hj hop] at hs
    cases hs
  case present =>
    intro j g key hj hop hs
    rw [hnew hj hop] at hs
    cases hs
  case clock =>
    intro j g now hj hop hc
    rw [hnew hj hop] at hc
    cases hc
  case read =>
    intro j g key cell hj hop hr
    rw [hnew hj hop] at hr
    cases hr

end Locked

/-! ### Threads -/

/-- The initial request has stored its entry. -/
def Ready (srv : Server) (msg : PKIMessage) (sender : SenderIdentity) (g : Lock) : Prop :=
  isInitialRequest msg.body.type → ∀ credID, sender.credentialID srv.crypto = .ok credID →
    g.started = some (srv.tracker.makeKey credID msg.header.transactionID)

/-- What happens around the handlers is allowed. -/
lemma lock_keeps_outer : srv.lockMonitor.Keeps (fun _ => True) Effect.Outer := by
  intro g o _ ho
  cases o <;> first | exact ho.elim | exact ⟨trivial, fun _ _ => trivial⟩

/-- What happens after the handler is allowed. -/
lemma lock_keeps_serving : srv.lockMonitor.Keeps (fun _ => True) Effect.Serving := by
  intro g o _ ho
  cases o with
  | loadAndDelete site key judged =>
    cases site with
    | delete => exact ⟨trivial, fun _ _ => trivial⟩
    | _ => exact (ho.elim id id).elim
  | handleCMP => exact (ho.elim id id).elim
  | restart => exact (ho.elim id id).elim
  | _ => exact ⟨trivial, fun _ _ => trivial⟩

/-- What happens before the handler leaves the entry that was stored. -/
lemma lock_keeps_looking (msg : PKIMessage) (sender : SenderIdentity) :
    srv.lockMonitor.Keeps (srv.Ready msg sender) Effect.Looking := by
  intro g o hg ho
  cases o <;> first | exact ho.elim | exact ⟨trivial, fun _ _ => hg⟩

/-- `startIfAbsent` says whether it has stored the entry. -/
lemma startIfAbsent_lock (credID txID : Bytes) (g : Lock) :
    Prog.Obeys srv.lockMonitor
      (fun g' r => r = .ok false → g'.started = some (srv.tracker.makeKey credID txID)) g
      (srv.tracker.startIfAbsent credID txID) := by
  simp only [TrackerConfig.startIfAbsent, perform, Prog.call_bind, Prog.Obeys.op_iff]
  refine ⟨trivial, fun newCount _ => ?_⟩
  split_ifs
  · exact ⟨trivial, fun _ _ h => by cases h⟩
  · simp only [Prog.Obeys.op_iff]
    refine ⟨trivial, fun _ _ => ⟨trivial, fun newCredCount _ => ?_⟩⟩
    split_ifs
    · exact ⟨trivial, fun _ _ => ⟨trivial, fun _ _ h => by cases h⟩⟩
    · simp only [Prog.Obeys.op_iff]
      refine ⟨trivial, fun now _ => ⟨trivial, fun loaded _ => ?_⟩⟩
      split_ifs with hloaded
      · exact ⟨trivial, fun _ _ => ⟨trivial, fun _ _ h => by cases h⟩⟩
      · intro _
        simp [lockMonitor, hloaded]

lemma startTransaction_lock (msg : PKIMessage) (sender : SenderIdentity) (g : Lock) :
    Prog.Obeys srv.lockMonitor (fun g' r => r = .ok () → srv.Ready msg sender g') g
      (srv.startTransaction msg sender) := by
  unfold startTransaction
  split
  · exact fun h => by cases h
  · next credID hcred =>
    split_ifs with hinit
    · refine Prog.Obeys.bind (startIfAbsent_lock credID _ g) fun g' r hr => ?_
      split
      · exact fun h => by cases h
      · exact fun h => by cases h
      · intro _ _ credID' hcred'
        obtain rfl : credID = credID' := Except.ok.inj (hcred.symm.trans hcred')
        exact hr rfl
    · exact fun _ h => absurd h hinit

/-- A header that is accepted has taken the lock. -/
lemma validateHeader_lock (msg : PKIMessage) (sender : SenderIdentity) (g : Lock) :
    Prog.Obeys srv.lockMonitor (fun g' mr => mr.2 = .ok () → srv.Ready mr.1 sender g') g
      (srv.validateHeader msg sender) := by
  have hfields : ∀ (m : PKIMessage) (g : Lock),
      Prog.Obeys srv.lockMonitor (fun g' r => r = .ok () → srv.Ready m sender g') g
        (srv.validateFields m sender) := by
    intro m g
    unfold validateFields
    split
    · exact fun h => by cases h
    · refine Prog.Obeys.bind (Prog.Obeys.of_keeps lock_keeps_outer
        (srv.checkMessageTime_of trivial m) trivial) fun g' r _ => ?_
      split
      · exact fun h => by cases h
      · split_ifs
        · exact fun h => by cases h
        · exact startTransaction_lock m sender g'
  unfold validateHeader
  split_ifs
  · exact fun h => by cases h
  · simp only [perform, Prog.call_bind, Prog.Obeys.op_iff]
    exact ⟨trivial, fun id _ => Prog.Obeys.bind (hfields _ _) fun g' r hr => hr⟩
  · exact Prog.Obeys.bind (hfields _ _) fun g' r hr => hr

/-- The loop of the cleanup removes what it has judged by the clock it has read. -/
lemma expireAll_lock {now : Time} (keys : List TransactionKey) {g : Lock}
    (hg : g.clock = some now) :
    Prog.Obeys srv.lockMonitor (fun g' _ => g'.clock = some now) g
      (TrackerConfig.expireAll (now - srv.cfg.confirmWait) keys) := by
  have hrelease : ∀ (ck : CredentialKey) {g : Lock}, g.clock = some now →
      Prog.Obeys srv.lockMonitor (fun g' _ => g'.clock = some now) g (TrackerConfig.release ck) :=
    fun ck g hg => ⟨trivial, fun _ _ => ⟨trivial, fun _ _ => ⟨trivial, fun _ _ => hg⟩⟩⟩
  have hone : ∀ (key : TransactionKey) {g : Lock}, g.clock = some now →
      Prog.Obeys srv.lockMonitor (fun g' _ => g'.clock = some now) g
        (TrackerConfig.expire (now - srv.cfg.confirmWait) key) := by
    intro key g hg
    simp only [TrackerConfig.expire, perform, Prog.call_bind, Prog.Obeys.op_iff]
    refine ⟨trivial, fun value _ => ?_⟩
    cases value with
    | none => exact hg
    | some c =>
      by_cases hbefore : c.entry.lastActivity.before (now - srv.cfg.confirmWait)
      · simp only [if_pos hbefore, Prog.Obeys.op_iff]
        refine ⟨⟨c, now, rfl, rfl, hg, hbefore⟩, fun removed _ => ?_⟩
        cases removed with
        | none => exact hg
        | some c' =>
          refine Prog.Obeys.bind (hrelease c.entry.credentialKey hg) fun g' _ hg' => ?_
          split_ifs
          · exact hg'
          · exact hg'
      · simp only [if_neg hbefore]
        exact hg
  induction keys generalizing g with
  | nil => exact hg
  | cons key keys ih =>
    exact Prog.Obeys.bind (hone key hg) fun g' e hg' =>
      Prog.Obeys.bind (ih hg') fun g'' es hg'' => hg''

lemma cleanupExpired_lock (g : Lock) :
    Prog.Obeys srv.lockMonitor (fun _ _ => True) g srv.cleanupExpired := by
  have hexpire : Prog.Obeys srv.lockMonitor (fun _ _ => True) g
      (TrackerConfig.cleanupExpired srv.cfg.confirmWait) := by
    unfold TrackerConfig.cleanupExpired
    split_ifs
    · trivial
    · exact ⟨trivial, fun now _ => ⟨trivial, fun keys _ =>
        (expireAll_lock keys rfl).mono fun _ _ _ => trivial⟩⟩
  refine Prog.Obeys.bind hexpire fun g' expired _ => ?_
  split_ifs
  · exact (notifyExpired_obeys (fun _ _ _ => ⟨trivial, fun _ => rfl⟩) expired).mono
      fun _ _ _ => trivial
  · trivial

/-- **Every thread** of a server keeps to the lock, whatever the handler does. -/
lemma thread_lock (hh : srv.handler = .external) {p : ServerThread}
    (hp : srv.Thread p) : Prog.Obeys srv.lockMonitor (fun _ _ => True) {} p := by
  cases hp with
  | message msg =>
    refine srv.process_obeys_of_verified (I := fun _ => True)
      (lock_keeps_outer.mono fun _ => Effect.Around.outer)
      (fun _ _ => trivial) (fun _ _ _ => trivial) (fun g msg sender _ _ => ?_) 2 none trivial
    refine Prog.Obeys.bind (validateHeader_lock msg sender g) fun g' ⟨msg', r⟩ hr => ?_
    cases r with
    | error e =>
      exact (Prog.Obeys.of_keeps lock_keeps_outer ((srv.answerError_only ..).mono fun _ =>
        Effect.Building.outer) trivial).mono fun _ _ _ => trivial
    | ok _ =>
      refine ((srv.dispatch_handles msg' sender).serves (lock_keeps_looking msg' sender)
        lock_keeps_serving ?_ (hr rfl)).mono fun _ _ _ => trivial
      intro ctx g1 hg1
      rw [hh]
      exact ⟨hg1, fun _ _ => trivial⟩
  | cleanup => exact Prog.Obeys.bind (cleanupExpired_lock _) fun _ _ _ => trivial

/-! ### Runs -/

lemma locked_inductive (hh : srv.handler = .external) :
    Sys.Inductive exec srv.lockMonitor (fun _ _ => True) srv.Locked
      fun s a => srv.Starts a ∧ s.Sequential a where
  spawn s gs p hw hp := by
    refine ⟨{}, thread_lock hh (hp.1 p rfl), ?_⟩
    exact hw.2.start hp.2 hw.1.length_eq p
  step s gs i c g o k x t hw hi hth ha hx _ := by
    refine ⟨trivial, hw.2.after hi ?_ ha (exec_mapStep hx) k⟩
    simp [Sys.nextOp, hth]

/-- **Replays** in a sequential run: when two initial requests of one credential
with one transactionID reach the handler, and no certConf has removed the entry in
between, then the cleanup has, `confirmWait` after its last activity. -/
theorem replay_locked (cr : Crypto) (retries : ℕ) (cfg : ServerConfig)
    (actions : List ServerAction) (s : ServerSys)
    (hstarts : ∀ a ∈ actions, (Server.new cr retries .external cfg).Starts a)
    (hseq : Sys.Along exec Sys.Sequential (.init {}) actions)
    (hrun : Sys.run exec (.init {}) actions = some s)
    (credID txID : Bytes) (pre mid post : ServerLog) (e1 e2 : ℕ × ServerEvent)
    (hlog : s.log = pre ++ e1 :: (mid ++ e2 :: post)) (h1 : Reaches cr credID txID e1)
    (h2 : Reaches cr credID txID e2)
    (hconf : ¬ Concluded ((Server.new cr retries .external cfg).tracker.makeKey credID txID) mid) :
    Expired (Server.new cr retries .external cfg).cfg.confirmWait
      ((Server.new cr retries .external cfg).tracker.makeKey credID txID) mid := by
  have hI : Sys.Inductive exec (Server.new cr retries .external cfg).lockMonitor _ _ _ :=
    locked_inductive rfl
  obtain ⟨gs, -, h⟩ := Sys.invariant hI ⟨.nil, .init⟩ (hseq.and_forall hstarts) hrun
  exact (h.between _ pre e1 _ hlog ⟨credID, txID, h1, rfl⟩ mid e2 post rfl
    ⟨credID, txID, h2, rfl⟩).resolve_left hconf

/-! ### Concrete runs -/

/-- The function that an operation removes an entry for. -/
def removalSite : Effect → Option Site
  | .loadAndDelete site _ _ => some site
  | _ => none

instance (cr : Crypto) (credID txID : Bytes) (e : ℕ × ServerEvent) :
    Decidable (Reaches cr credID txID e) :=
  match e with
  | (_, ⟨.handleCMP _ req sender, _⟩) =>
    decidable_of_iff (isInitialRequest req.body.type ∧ sender.credentialID cr = .ok credID ∧
        req.header.transactionID = txID)
      ⟨fun h => ⟨_, _, _, _, rfl, h⟩, by
        rintro ⟨ctx, req', sender', r, he, h⟩
        cases he
        exact h⟩
  | (_, ⟨.now, _⟩) | (_, ⟨.random, _⟩) | (_, ⟨.seal .., _⟩) | (_, ⟨.verifier, _⟩)
  | (_, ⟨.load .., _⟩) | (_, ⟨.loadOrStore .., _⟩) | (_, ⟨.compareAndSwap .., _⟩)
  | (_, ⟨.loadAndDelete .., _⟩) | (_, ⟨.range, _⟩) | (_, ⟨.countAdd _, _⟩)
  | (_, ⟨.getOrCreateCredCount _, _⟩) | (_, ⟨.credCountAdd .., _⟩) | (_, ⟨.authorizeRA .., _⟩)
  | (_, ⟨.issueCertificate .., _⟩) | (_, ⟨.checkPending .., _⟩) | (_, ⟨.confirmCertificate .., _⟩)
  | (_, ⟨.authorizeRevocation .., _⟩) | (_, ⟨.revokeCertificate .., _⟩) | (_, ⟨.restart .., _⟩)
  | (_, ⟨.diverge, _⟩) => isFalse (by rintro ⟨_, _, _, _, he, _⟩; cases he)

/-- A request of one transaction, then the steps of another thread, then the same
request again. -/
def sampleAgain (p : ServerThread) (n : ℕ) (time : Time) :
    List ServerAction :=
  .spawn (sampleServer.processMessage sampleRequest) :: sampleSteps 0 16 1 ++
    .spawn p :: sampleSteps 1 n time ++
    .spawn (sampleServer.processMessage sampleRequest) :: sampleSteps 2 16 time

/-- The credential of the sample messages. -/
def sampleCredential : Bytes := str "cmp-mac" ++ [0, 0, 0, 0, 0, 0, 0, 4, 164, 2, 48, 0]

lemma starts_of_sampleAgain {p : ServerThread} (hp : sampleServer.Thread p)
    (n : ℕ) (time : Time) : ∀ a ∈ sampleAgain p n time, sampleServer.Starts a := by
  simp only [sampleAgain, List.cons_append, List.append_assoc, List.forall_mem_cons,
    List.forall_mem_append]
  exact ⟨sampleServer.starts_spawn (.message _), starts_sampleSteps _ _ _ _,
    sampleServer.starts_spawn hp, starts_sampleSteps _ _ _ _,
    sampleServer.starts_spawn (.message _), starts_sampleSteps _ _ _ _⟩

/-- A request in the first part of the log and one in the second. -/
lemma exists_split {log : ServerLog} {n : ℕ} {P : ℕ × ServerEvent → Prop}
    (h1 : ∃ e ∈ log.take n, P e) (h2 : ∃ e ∈ log.drop n, P e) :
    ∃ pre e1 mid e2 post, log = pre ++ e1 :: (mid ++ e2 :: post) ∧ P e1 ∧ P e2 ∧ mid ⊆ log := by
  obtain ⟨e1, hmem1, he1⟩ := h1
  obtain ⟨e2, hmem2, he2⟩ := h2
  obtain ⟨a1, b1, hsplit1⟩ := List.append_of_mem hmem1
  obtain ⟨a2, b2, hsplit2⟩ := List.append_of_mem hmem2
  have hlog : log = a1 ++ e1 :: (b1 ++ a2 ++ e2 :: b2) := by
    calc log = log.take n ++ log.drop n := (List.take_append_drop n log).symm
      _ = _ := by rw [hsplit1, hsplit2]; simp
  refine ⟨a1, e1, b1 ++ a2, e2, b2, hlog, he1, he2, fun e he => ?_⟩
  rw [hlog]
  exact List.mem_append_right _ (List.mem_cons_of_mem _ (List.mem_append_left _ he))

/-- **A replay after the certConf** reaches the handler, although the entry has
never expired. -/
theorem replay_after_certConf :
    ∃ actions s, (∀ a ∈ actions, sampleServer.Starts a) ∧
      Sys.Along exec Sys.Sequential (.init {}) actions ∧
      Sys.run exec (.init {}) actions = some s ∧
      ∃ pre e1 mid e2 post, s.log = pre ++ e1 :: (mid ++ e2 :: post) ∧
        Reaches .sample sampleCredential [1] e1 ∧ Reaches .sample sampleCredential [1] e2 ∧
        ¬ Expired sampleServer.cfg.confirmWait
          (sampleServer.tracker.makeKey sampleCredential [1]) mid := by
  have hrun : (Sys.run exec (.init {})
      (sampleAgain (sampleServer.processMessage sampleConfirmation) 11 2)).any (fun s =>
        decide ((∃ e ∈ s.log.take 16, Reaches .sample sampleCredential [1] e) ∧
          (∃ e ∈ s.log.drop 16, Reaches .sample sampleCredential [1] e) ∧
          ∀ e ∈ s.log, removalSite e.2.op ≠ some .cleanupExpired)) = true := by decide +kernel
  obtain ⟨s, hs, h⟩ := (Option.any_eq_true _ _).mp hrun
  obtain ⟨h1, h2, hno⟩ := of_decide_eq_true h
  obtain ⟨pre, e1, mid, e2, post, hlog, he1, he2, hsub⟩ := exists_split h1 h2
  refine ⟨_, s, starts_of_sampleAgain (.message _) 11 2, by decide +kernel, hs,
    pre, e1, mid, e2, post, hlog, he1, he2, ?_⟩
  rintro ⟨i, now, cell, -, hmem, -⟩
  exact hno _ (hsub hmem) rfl

/-- The same request after the cleanup reaches the handler again. -/
theorem replay_after_cleanup :
    ∃ s, Sys.run exec (.init {}) (sampleAgain (sampleServer.cleanupExpired >>= fun _ => pure none)
        7 (11 * Time.second)) = some s ∧
      ∃ pre e1 mid e2 post, s.log = pre ++ e1 :: (mid ++ e2 :: post) ∧
        Reaches .sample sampleCredential [1] e1 ∧ Reaches .sample sampleCredential [1] e2 ∧
        Expired sampleServer.cfg.confirmWait
          (sampleServer.tracker.makeKey sampleCredential [1]) mid := by
  have hrun : (Sys.run exec (.init {})
      (sampleAgain (sampleServer.cleanupExpired >>= fun _ => pure none) 7 (11 * Time.second))).any
        (fun s => decide ((∃ e ∈ s.log.take 16, Reaches .sample sampleCredential [1] e) ∧
          (∃ e ∈ s.log.drop 16, Reaches .sample sampleCredential [1] e) ∧
          ∀ e ∈ s.log, removalSite e.2.op ≠ some .delete)) = true := by decide +kernel
  obtain ⟨s, hs, h⟩ := (Option.any_eq_true _ _).mp hrun
  obtain ⟨h1, h2, hno⟩ := of_decide_eq_true h
  obtain ⟨pre, e1, mid, e2, post, hlog, he1, he2, hsub⟩ := exists_split h1 h2
  refine ⟨s, hs, pre, e1, mid, e2, post, hlog, he1, he2, replay_locked .sample 0
    { secretLookup := true } _ s (starts_of_sampleAgain .cleanup 7 (11 * Time.second))
    (by decide +kernel) hs _ _ pre mid post e1 e2 hlog he1 he2 ?_⟩
  rintro ⟨i, judged, cell, hmem⟩
  exact hno _ (hsub hmem) rfl

end Server

end PkiCmp
