/-
Waiting for a certificate, over whole runs of the server.

* `Tended`: along every run, a pending entry was stored by a thread that read its
  times off the clock, and what the cleanup removes has been judged;
* `refused_poll_early`: when the handler asks for whole seconds, or for at most
  one, a poll that is refused as too frequent came before the advertised time;
* `removed_pending_late`: when the waits fit the window for confirmations, a pending
  entry is removed after the advertised time only.
-/
import PkiCmp.Server.Polling

namespace PkiCmp

open Der Interact

namespace Server

/-! ### Runs -/

/-- The pending entry was stored by thread `i`. -/
def StoredBy (log : ServerLog) (i : ℕ) (key : TransactionKey) (e : TransactionEntry) : Prop :=
  ∃ old, (i, ⟨.compareAndSwap .setPending key old e, true⟩) ∈ log

/-- The waits that the handler asks for satisfy `D`. -/
def Waits (D : Duration → Prop) (a : ServerAction) : Prop :=
  ∀ i c, a = .step i c → ∀ w, c.result.response.bind Response.waiting = some w → D w.checkAfter

/-- What holds of the pending entries along a run. -/
structure Tended (maxAge : Duration) (D : Duration → Prop) (s : ServerSys) (hs : List History) :
    Prop where
  wf : s.mem.Wf
  histories : Sys.Histories s.log hs
  waits : ∀ h ∈ hs, ∀ w, Heard w h → D w.checkAfter
  prepared : ∀ i key e, StoredBy s.log i key e → ∃ h : History, hs[i]? = some h ∧ Prepared h e
  stored : ∀ key cell, s.mem.cell key = some cell → cell.entry.state = .pending →
    ∃ i, StoredBy s.log i key cell.entry
  loaded : ∀ i site key cell, (i, ⟨.load site key, some cell⟩) ∈ s.log →
    s.mem.Knows cell ∧ (cell.entry.state = .pending → ∃ i, StoredBy s.log i key cell.entry)
  removed : ∀ pre j key cell post,
    s.log = pre ++ (j, ⟨.loadAndDelete .cleanupExpired key cell.ptr, some cell⟩) :: post →
    (cell.entry.state = .pending → ∃ i, StoredBy s.log i key cell.entry) ∧
      ∃ t, (j, ⟨.now, t⟩) ∈ pre ∧ 0 < maxAge ∧ cell.entry.lastActivity + maxAge < t

lemma StoredBy.snoc {log : ServerLog} {i : ℕ} {key : TransactionKey} {e : TransactionEntry}
    (h : StoredBy log i key e) (x : ℕ × ServerEvent) :
    StoredBy (log ++ [x]) i key e := by
  obtain ⟨old, h⟩ := h
  exact ⟨old, List.mem_append_left _ h⟩

lemma Prepared.snoc {h : History} {e : TransactionEntry} (hp : Prepared h e)
    (x : ServerEvent) : Prepared (h ++ [x]) e where
  heard := by
    obtain ⟨w, hw, hd⟩ := hp.heard
    exact ⟨w, hw.snoc x, hd⟩
  lastActivity := List.mem_append_left _ hp.lastActivity
  lastPollTime := hp.lastPollTime.imp_right (List.mem_append_left _)

/-- What the handler has asked for comes from outside. -/
lemma Heard.of_snoc {h : History} {w : WaitingResponse} {o : Effect} {c : Oracle} {t t' : Tracker}
    {x : o.Res} (hw : Heard w (h ++ [⟨o, x⟩])) (hx : exec o c t = some (x, t')) :
    Heard w h ∨ c.result.response.bind Response.waiting = some w := by
  obtain ⟨ctx, q, s, r, hmem, hr⟩ := hw
  rcases List.mem_append.mp hmem with hmem | hmem
  · exact .inl ⟨ctx, q, s, r, hmem, hr⟩
  · cases List.mem_singleton.mp hmem
    cases hx
    exact .inr hr

namespace Tended

variable {maxAge : Duration} {D : Duration → Prop} {s : ServerSys} {hs : List History}

lemma init : Tended maxAge D (.init {}) [] where
  wf := .empty 0
  histories := .nil
  waits := by simp
  prepared i key e h := by
    obtain ⟨old, h⟩ := h
    cases h
  stored key cell h := by cases h
  loaded i site key cell h := by cases h
  removed pre j key cell post h := by simp [Sys.init] at h

lemma start (ht : Tended maxAge D s hs) (p : ServerThread) :
    Tended maxAge D (s.start p) (hs ++ [[]]) where
  wf := ht.wf
  histories := ht.histories.spawn
  waits h hh w hw := by
    rcases List.mem_append.mp hh with hh | hh
    · exact ht.waits h hh w hw
    · obtain rfl := List.mem_singleton.mp hh
      obtain ⟨ctx, q, s, r, hmem, -⟩ := hw
      cases hmem
  prepared i key e he := by
    obtain ⟨h, hi, hp⟩ := ht.prepared i key e he
    exact ⟨h, by rw [List.getElem?_append_left (List.getElem?_eq_some_iff.mp hi).1, hi], hp⟩
  stored := ht.stored
  loaded := ht.loaded
  removed := ht.removed

section

variable {i : ℕ} {h : History} {o : Effect} {c : Oracle} {x : o.Res} {m : Tracker}
variable (ht : Tended maxAge D s hs) (hi : hs[i]? = some h)
variable (ha : (pollMonitor maxAge).allowed h o) (hx : exec o c s.mem = some (x, m))
include ht ha hx

/-- What is stored as pending is stored by this step, or was there before. -/
lemma stored_after {key : TransactionKey} {cell : Cell} (hcell : m.cell key = some cell)
    (hstate : cell.entry.state = .pending) :
    ∃ j, StoredBy (s.log ++ [(i, ⟨o, x⟩)]) j key cell.entry := by
  have hold :
      s.mem.cell key = some cell → ∃ j, StoredBy (s.log ++ [(i, ⟨o, x⟩)]) j key cell.entry := by
    intro hc
    obtain ⟨j, hj⟩ := ht.stored key cell hc hstate
    exact ⟨j, hj.snoc _⟩
  cases exec_mapStep hx with
  | store key' entry hnone =>
    rw [Tracker.cell_publish] at hcell
    split_ifs at hcell with hk
    · cases hcell
      exact absurd hstate ha
    · exact hold hcell
  | swap site key' cell' new hc =>
    rw [Tracker.cell_publish] at hcell
    split_ifs at hcell with hk
    · cases hcell
      subst hk
      rcases ha with ⟨rfl, -⟩ | ⟨-, hne⟩
      · exact ⟨i, _, List.mem_append_right _ (List.mem_singleton.mpr rfl)⟩
      · exact absurd hstate hne
    · exact hold hcell
  | delete site key' judged =>
    rw [Tracker.cell_remove] at hcell
    split_ifs at hcell
    exact hold hcell
  | restart => exact ha.elim
  | refused => exact ha.elim
  | other x t' ho hc hn =>
    refine hold ?_
    unfold Tracker.cell at hcell ⊢
    rwa [← hc]
  | _ => exact hold hcell

include hi

/-- What the cleanup removes was judged. -/
lemma removed_after {key : TransactionKey} {cell : Cell}
    (he : (⟨o, x⟩ : ServerEvent) =
      ⟨.loadAndDelete .cleanupExpired key cell.ptr, some cell⟩) :
    (cell.entry.state = .pending → ∃ j, StoredBy s.log j key cell.entry) ∧
      ∃ t, (i, ⟨.now, t⟩) ∈ s.log ∧ 0 < maxAge ∧ cell.entry.lastActivity + maxAge < t := by
  cases he
  obtain ⟨hcell, -⟩ := (exec_mapStep hx).removed
  obtain ⟨cell0, t, hload, hptr, hnow, hpos, hlt⟩ := ha
  have hknows := (ht.loaded i _ _ _ ((ht.histories.mem_iff hi _).mp hload)).1
  obtain rfl := hknows.names hcell hptr.symm
  exact ⟨ht.stored key _ hcell, t, (ht.histories.mem_iff hi _).mp hnow, hpos, hlt⟩

/-- One step. -/
lemma after (hw : Waits D (.step i c)) (k : o.Res → ServerThread) :
    Tended maxAge D (s.after i o k x m) (hs.set i (h ++ [⟨o, x⟩])) where
  wf := (exec_mapStep hx).wf ht.wf
  histories := ht.histories.step hi ⟨o, x⟩
  waits h' hh' w hheard := by
    rcases List.mem_or_eq_of_mem_set hh' with hh' | rfl
    · exact ht.waits h' hh' w hheard
    · rcases hheard.of_snoc hx with hheard | hout
      · exact ht.waits h (List.mem_of_getElem? hi) w hheard
      · exact hw i c rfl w hout
  prepared j key e he := by
    have hnew : ∀ {h0 : History}, hs[j]? = some h0 → Prepared h0 e →
        ∃ h' : History, (hs.set i (h ++ [⟨o, x⟩]))[j]? = some h' ∧ Prepared h' e := by
      intro h0 hj hp
      by_cases hij : i = j
      · subst hij
        obtain rfl : h = h0 := Option.some.inj (hi.symm.trans hj)
        exact ⟨_, List.getElem?_set_self (List.getElem?_eq_some_iff.mp hi).1, hp.snoc _⟩
      · exact ⟨h0, by rw [List.getElem?_set_ne hij, hj], hp⟩
    obtain ⟨old, he⟩ := he
    rcases List.mem_append.mp he with he | he
    · obtain ⟨h0, hj, hp⟩ := ht.prepared j key e ⟨old, he⟩
      exact hnew hj hp
    · cases List.mem_singleton.mp he
      rcases ha with ⟨-, hp⟩ | ⟨hne, -⟩
      · exact hnew hi hp
      · exact absurd rfl hne
  stored key cell hcell hstate := ht.stored_after ha hx hcell hstate
  loaded j site key cell hl := by
    have hstep := exec_mapStep hx
    rcases List.mem_append.mp hl with hl | hl
    · obtain ⟨hknows, hst⟩ := ht.loaded j site key cell hl
      refine ⟨hstep.knows hknows, fun hpend => ?_⟩
      obtain ⟨j', hj'⟩ := hst hpend
      exact ⟨j', hj'.snoc _⟩
    · cases List.mem_singleton.mp hl
      obtain ⟨hcell, rfl⟩ := hstep.loaded
      refine ⟨ht.wf.knows hcell, fun hpend => ?_⟩
      obtain ⟨j', hj'⟩ := ht.stored key cell hcell hpend
      exact ⟨j', hj'.snoc _⟩
  removed pre j key cell post hlog := by
    have hsnoc : (cell.entry.state = .pending → ∃ j, StoredBy s.log j key cell.entry) →
        cell.entry.state = .pending →
        ∃ j, StoredBy (s.log ++ [(i, ⟨o, x⟩)]) j key cell.entry := by
      intro hst hpend
      obtain ⟨j', hj'⟩ := hst hpend
      exact ⟨j', hj'.snoc _⟩
    obtain ⟨rfl, he, -⟩ | ⟨post', -, hlog⟩ := split_of_snoc_eq hlog
    · obtain ⟨rfl, hevent⟩ := Prod.mk.inj he
      obtain ⟨hst, hj⟩ := ht.removed_after hi ha hx hevent.symm
      exact ⟨hsnoc hst, hj⟩
    · obtain ⟨hst, hj⟩ := ht.removed pre j key cell post' hlog
      exact ⟨hsnoc hst, hj⟩

end

end Tended

/-- What a run has to meet: its threads are those of the server, and the handler asks for
waits that satisfy `D`. -/
lemma tended_inductive {srv : Server} (hh : srv.handler = .external) (D : Duration → Prop) :
    Sys.Inductive exec (pollMonitor srv.cfg.confirmWait) Truthful (Tended srv.cfg.confirmWait D)
      fun _ a => srv.Starts a ∧ Waits D a where
  spawn _ _ p hw hp := ⟨[], thread_truthful hh (hp.1 p rfl), hw.2.start p⟩
  step _ _ _ _ _ _ k _ _ hw hi _ ha hx hc := ⟨trivial, hw.2.after hi ha hx hc.2 k⟩

/-! ### Results -/

section

variable (srv : Server) (hh : srv.handler = .external)
variable (actions : List ServerAction) (s : ServerSys)
variable (hstarts : ∀ a ∈ actions, srv.Starts a) (hrun : Sys.run exec (.init {}) actions = some s)
include hh hstarts hrun

lemma tended_of_run {D : Duration → Prop} (hwaits : ∀ a ∈ actions, Waits D a) :
    ∃ hs, Sys.Watched (pollMonitor srv.cfg.confirmWait) Truthful (Tended srv.cfg.confirmWait D) s
      hs :=
  Sys.invariant (tended_inductive hh D) ⟨.nil, .init⟩
    (.of_forall (fun a ha => ⟨hstarts a ha, hwaits a ha⟩) _) hrun

omit hh hstarts hrun in
/-- What a thread has answered that stored a pending entry. -/
lemma answered_of_storedBy {srv : Server} {s : ServerSys} {D : Duration → Prop} {hs : List History}
    (hw : Sys.Watched (pollMonitor srv.cfg.confirmWait) Truthful (Tended srv.cfg.confirmWait D) s
      hs) {i : ℕ} {key : TransactionKey} {e : TransactionEntry} (hst : StoredBy s.log i key e)
    {m : PKIMessage} (hi : s.threads[i]? = some (.ret (some m))) :
    m.header.senderNonce = e.senderNonce ∧
      ∀ item, m.body = .pollRep [item] → item.checkAfter = advertised e.checkAfter := by
  obtain ⟨old, hlog⟩ := hst
  obtain ⟨h, hh, hobeys⟩ := exists_getElem?_of_forall₂ hw.1 hi
  exact hobeys.renewal key old e ((hw.2.histories.mem_iff hh _).mpr hlog) m rfl

/-- **A refused poll came early.**  Along every run in which the handler asks for waits
of whole seconds, or of at most one second: when thread `j` found a pending entry and
answered its poll as too frequent by itself, then the entry was stored by a thread `i`
that read the clock at `lastPollTime`, and `j` read the clock before the seconds that the
pollRep of `i` told the client to wait were over.  The nonce of the pollRep is the one of
the entry. -/
theorem refused_poll_early
    (hwaits : ∀ a ∈ actions, Waits (fun d => d ≤ Time.second ∨ Time.second ∣ d) a)
    (j : ℕ) (m : PKIMessage) (key : TransactionKey) (cell : Cell)
    (hret : s.threads[j]? = some (.ret (some m)))
    (hbody : m.body = .error { pkiStatusInfo := tooFrequent })
    (hload : (j, ⟨.load .getPending key, some cell⟩) ∈ s.log)
    (hcall : ∀ e, (j, e) ∈ s.log → isCall e = false) :
    ∃ t, (j, ⟨.now, t⟩) ∈ s.log ∧ ∃ i, StoredBy s.log i key cell.entry ∧
      (i, ⟨.now, cell.entry.lastPollTime⟩) ∈ s.log ∧
      ∀ m1, s.threads[i]? = some (.ret (some m1)) →
        m1.header.senderNonce = cell.entry.senderNonce ∧
        ∀ item, m1.body = .pollRep [item] →
          t < cell.entry.lastPollTime + item.checkAfter * Time.second := by
  obtain ⟨hs, hw⟩ := tended_of_run srv hh actions s hstarts hrun hwaits
  obtain ⟨h, hj, hobeys⟩ := exists_getElem?_of_forall₂ hw.1 hret
  have hmem := hw.2.histories.mem_iff hj
  obtain ⟨t, hnow, hpend, hzero, hlt⟩ := hobeys.refusal key cell ((hmem _).mpr hload)
    (fun e he => hcall e ((hmem e).mp he)) m rfl hbody
  obtain ⟨i, hst⟩ := (hw.2.loaded j _ key cell hload).2 hpend
  obtain ⟨h', hi, hprep⟩ := hw.2.prepared i key cell.entry hst
  refine ⟨t, (hmem _).mp hnow, i, hst, ?_, fun m1 hm1 => ?_⟩
  · exact (hw.2.histories.mem_iff hi _).mp (hprep.lastPollTime.resolve_left hzero)
  · obtain ⟨hnonce, hitem⟩ := answered_of_storedBy hw hst hm1
    refine ⟨hnonce, fun item hit => ?_⟩
    obtain ⟨w, hheard, hd⟩ := hprep.heard
    have hle := (le_advertised_iff _).mpr (hw.2.waits h' (List.mem_of_getElem? hi) w hheard)
    rw [hitem item hit]
    rw [hd] at hle
    exact sub_lt_iff_lt_add'.mp (lt_of_lt_of_le hlt hle)

/-- **A removed entry was kept as long as advertised.**  Along every run in which the
waits that the handler asks for fit the window for confirmations: when the cleanup of
thread `j` takes out the pending entry it has judged, then the entry was stored by a
thread `i` that read the clock at `lastActivity`, and `j` had read the clock when the
seconds that the pollRep of `i` told the client to wait were over. -/
theorem removed_pending_late
    (hwaits : ∀ a ∈ actions, Waits (fun d => 0 < srv.cfg.confirmWait →
      advertised d * Time.second ≤ srv.cfg.confirmWait + 1) a)
    (pre post : ServerLog) (j : ℕ) (key : TransactionKey) (cell : Cell)
    (hlog : s.log = pre ++ (j, ⟨.loadAndDelete .cleanupExpired key cell.ptr, some cell⟩) :: post)
    (hpend : cell.entry.state = .pending) :
    ∃ t, (j, ⟨.now, t⟩) ∈ pre ∧ ∃ i, StoredBy s.log i key cell.entry ∧
      (i, ⟨.now, cell.entry.lastActivity⟩) ∈ s.log ∧
      ∀ m1 item, s.threads[i]? = some (.ret (some m1)) → m1.body = .pollRep [item] →
        cell.entry.lastActivity + item.checkAfter * Time.second ≤ t := by
  obtain ⟨hs, hw⟩ := tended_of_run srv hh actions s hstarts hrun hwaits
  obtain ⟨hst, t, hnow, hpos, hlt⟩ := hw.2.removed pre j key cell post hlog
  obtain ⟨i, hst⟩ := hst hpend
  obtain ⟨h', hi, hprep⟩ := hw.2.prepared i key cell.entry hst
  refine ⟨t, hnow, i, hst, (hw.2.histories.mem_iff hi _).mp hprep.lastActivity, ?_⟩
  intro m1 item hm1 hit
  obtain ⟨w, hheard, hd⟩ := hprep.heard
  have hle := hw.2.waits h' (List.mem_of_getElem? hi) w hheard hpos
  rw [(answered_of_storedBy hw hst hm1).2 item hit]
  rw [hd] at hle
  calc cell.entry.lastActivity + advertised cell.entry.checkAfter * Time.second
      ≤ cell.entry.lastActivity + (srv.cfg.confirmWait + 1) := by gcongr
    _ = cell.entry.lastActivity + srv.cfg.confirmWait + 1 := (add_assoc _ _ _).symm
    _ ≤ t := hlt

end

/-! ### Concrete runs -/

/-- A handler that lets the client wait. -/
def waitingOracle (d : Duration) (time : Time) : Oracle :=
  { sampleOracle time with
    result := { response := some { waiting := some { checkAfter := d, pollRef := [1] } } } }

/-- The poll of the sample client. -/
def samplePoll : PKIMessage := sampleReceived (.pollReq [-1]) (List.replicate 16 0)

/-- A request in the first second, a poll in the second one, and a third thread later. -/
def pollRun (d : Duration) (last : ServerThread) (time : Time) :
    List ServerAction :=
  .spawn (sampleServer.processMessage sampleRequest) ::
    List.replicate 15 (.step 0 (waitingOracle d Time.second)) ++
  .spawn (sampleServer.processMessage samplePoll) ::
    List.replicate 11 (.step 1 (waitingOracle d (2 * Time.second))) ++
  .spawn last :: List.replicate 7 (.step 2 (waitingOracle d time))

lemma forall_mem_pollRun {P : ServerAction → Prop}
    {d : Duration} {last : ServerThread} (hlast : sampleServer.Thread last)
    (hspawn : ∀ p, sampleServer.Thread p → P (.spawn p))
    (hstep : ∀ i time, P (.step i (waitingOracle d time))) (time : Time) :
    ∀ a ∈ pollRun d last time, P a := by
  intro a ha
  simp only [pollRun, List.mem_append, List.mem_cons, List.mem_replicate] at ha
  rcases ha with ((rfl | ⟨-, rfl⟩) | rfl | ⟨-, rfl⟩) | rfl | ⟨-, rfl⟩
  · exact hspawn _ (.message _)
  · exact hstep _ _
  · exact hspawn _ (.message _)
  · exact hstep _ _
  · exact hspawn _ hlast
  · exact hstep _ _

lemma starts_of_pollRun {d : Duration} {last : ServerThread}
    (hlast : sampleServer.Thread last) (time : Time) :
    ∀ a ∈ pollRun d last time, sampleServer.Starts a :=
  forall_mem_pollRun hlast (fun _ hp => sampleServer.starts_spawn hp)
    (fun _ _ p hp => (by cases hp)) time

lemma waits_of_pollRun {D : Duration → Prop} {d : Duration} (hd : D d)
    {last : ServerThread} (hlast : sampleServer.Thread last) (time : Time) :
    ∀ a ∈ pollRun d last time, Waits D a := by
  refine forall_mem_pollRun hlast (fun _ _ _ _ h => (by cases h)) (fun i t i' c h w hw => ?_) time
  cases h
  cases hw
  exact hd

/-- The thread has answered with such a body. -/
def repliesWith (f : PKIBody → Bool) : ServerThread → Bool
  | .ret (some m) => f m.body
  | _ => false

lemma exists_of_repliesWith {f : PKIBody → Bool} {p : ServerThread}
    (h : repliesWith f p) : ∃ m, p = .ret (some m) ∧ f m.body := by
  unfold repliesWith at h
  split at h
  · exact ⟨_, rfl, h⟩
  · cases h

/-- The body asks to poll again after `n` seconds. -/
def isPollRep (n : ℤ) : PKIBody → Bool
  | .pollRep [item] => item.checkAfter = n
  | _ => false

lemma exists_of_isPollRep {n : ℤ} {b : PKIBody} (h : isPollRep n b) :
    ∃ item, b = .pollRep [item] ∧ item.checkAfter = n := by
  unfold isPollRep at h
  split at h
  · exact ⟨_, rfl, of_decide_eq_true h⟩
  · cases h

/-- The body refuses a poll that comes too early. -/
def isTooFrequent : PKIBody → Bool
  | .error c => c = { pkiStatusInfo := tooFrequent }
  | _ => false

lemma eq_of_isTooFrequent {b : PKIBody} (h : isTooFrequent b) :
    b = .error { pkiStatusInfo := tooFrequent } := by
  unfold isTooFrequent at h
  split at h
  · rw [of_decide_eq_true h]
  · cases h

/-- Every time that the thread has read off the clock. -/
def allTimes (log : ServerLog) (i : ℕ) (f : Time → Bool) : Bool :=
  log.all fun
    | (j, ⟨.now, t⟩) => j ≠ i || f t
    | _ => true

variable {log : ServerLog}

lemma of_allTimes {i : ℕ} {f : Time → Bool} (h : allTimes log i f) {t : Time}
    (ht : (i, ⟨.now, t⟩) ∈ log) : f t := by
  simpa using List.all_eq_true.mp h _ ht

/-- The threads that have stored the pending entry. -/
def storers (log : ServerLog) (key : TransactionKey) (e : TransactionEntry) : List ℕ :=
  log.filterMap fun
    | (i, ⟨.compareAndSwap .setPending key' _ e', true⟩) =>
      if key' = key ∧ e' = e then some i else none
    | _ => none

lemma mem_storers {key : TransactionKey} {e : TransactionEntry} {i : ℕ} :
    i ∈ storers log key e ↔ StoredBy log i key e := by
  rw [storers, List.mem_filterMap]
  constructor
  · rintro ⟨x, hx, h⟩
    split at h
    · split_ifs at h with heq
      obtain ⟨rfl, rfl⟩ := heq
      cases h
      exact ⟨_, hx⟩
    · cases h
  · rintro ⟨old, hold⟩
    exact ⟨_, hold, if_pos ⟨rfl, rfl⟩⟩

/-- The thread has found a pending entry that only the first poll has stored. -/
def isLookOf (log : ServerLog) (i : ℕ) : ℕ × ServerEvent → Bool
  | (j, ⟨.load .getPending key, some cell⟩) => j = i && storers log key cell.entry = [1]
  | _ => false

lemma exists_of_isLookOf {i : ℕ} (h : log.any (isLookOf log i)) :
    ∃ key cell, (i, ⟨.load .getPending key, some cell⟩) ∈ log ∧
      storers log key cell.entry = [1] := by
  obtain ⟨e, he, h⟩ := List.any_eq_true.mp h
  unfold isLookOf at h
  split at h
  · simp only [Bool.and_eq_true, decide_eq_true_eq] at h
    obtain ⟨rfl, hstore⟩ := h
    exact ⟨_, _, he, hstore⟩
  · cases h

/-- The first poll of the run was told to wait for `n` seconds. -/
lemma exists_pollRep {n : ℤ} {s : ServerSys}
    (h : s.threads[1]?.any (repliesWith (isPollRep n))) :
    ∃ m1 item, s.threads[1]? = some (.ret (some m1)) ∧ m1.body = .pollRep [item] ∧
      item.checkAfter = n := by
  obtain ⟨p, hp, h⟩ := (Option.any_eq_true _ _).mp h
  obtain ⟨m1, rfl, h⟩ := exists_of_repliesWith h
  obtain ⟨item, hitem, hn⟩ := exists_of_isPollRep h
  exact ⟨m1, item, hp, hitem, hn⟩

/-- The second poll of the run is refused by the server as too frequent, and the first one
was told to wait for `n` seconds. -/
def refusedAfter (n : ℤ) (s : ServerSys) : Bool :=
  (s.threads[1]?.any (repliesWith (isPollRep n))) &&
  ((s.threads[2]?.any (repliesWith isTooFrequent)) &&
  (s.log.any (isLookOf s.log 2) && s.log.all fun (j, e) => j ≠ 2 || !isCall e))

lemma of_refusedAfter {n : ℤ} {s : ServerSys} (h : refusedAfter n s) :
    ∃ m1 item m key cell, (s.threads[1]? = some (.ret (some m1)) ∧ m1.body = .pollRep [item] ∧
      item.checkAfter = n) ∧ s.threads[2]? = some (.ret (some m)) ∧
      m.body = .error { pkiStatusInfo := tooFrequent } ∧
      (2, ⟨.load .getPending key, some cell⟩) ∈ s.log ∧ storers s.log key cell.entry = [1] ∧
      ∀ e, (2, e) ∈ s.log → isCall e = false := by
  simp only [refusedAfter, Bool.and_eq_true] at h
  obtain ⟨h1, h2, h3, h4⟩ := h
  obtain ⟨m1, item, hfirst⟩ := exists_pollRep h1
  obtain ⟨p2, hp2, h2⟩ := (Option.any_eq_true _ _).mp h2
  obtain ⟨m, rfl, h2⟩ := exists_of_repliesWith h2
  obtain ⟨key, cell, hlook, hstore⟩ := exists_of_isLookOf h3
  refine ⟨m1, item, m, key, cell, hfirst, hp2, eq_of_isTooFrequent h2, hlook, hstore, ?_⟩
  intro e he
  simpa using List.all_eq_true.mp h4 _ he

/-- An obedient client is refused: the handler asks for a second and a half, the pollRep
says one second, and the next poll comes 1.2 seconds after it. -/
theorem obedient_poll_refused :
    ∃ actions s m1 item m, (∀ a ∈ actions, sampleServer.Starts a) ∧
      Sys.run exec (.init {}) actions = some s ∧
      s.threads[1]? = some (.ret (some m1)) ∧ m1.body = .pollRep [item] ∧
      s.threads[2]? = some (.ret (some m)) ∧ m.body = .error { pkiStatusInfo := tooFrequent } ∧
      (∀ e, (2, e) ∈ s.log → isCall e = false) ∧
      ∀ t1 t2, (1, ⟨.now, t1⟩) ∈ s.log → (2, ⟨.now, t2⟩) ∈ s.log →
        t1 + item.checkAfter * Time.second ≤ t2 := by
  have hpoll : sampleServer.Thread (sampleServer.processMessage samplePoll) := .message _
  obtain ⟨s, hs, h⟩ := (Option.any_eq_true
    (fun s => refusedAfter 1 s && (allTimes s.log 1 (fun t => decide (t = 2 * Time.second)) &&
      allTimes s.log 2 (fun t => decide (t = 3200000000))))
    (Sys.run exec (.init {}) (pollRun 1500000000 (sampleServer.processMessage samplePoll)
      3200000000))).mp (by decide +kernel)
  simp only [Bool.and_eq_true] at h
  obtain ⟨h, ht1, ht2⟩ := h
  obtain ⟨m1, item, m, key, cell, ⟨hm1, hitem, hn⟩, hm, hbody, -, -, hcall⟩ := of_refusedAfter h
  refine ⟨_, s, m1, item, m, starts_of_pollRun hpoll _, hs, hm1, hitem, hm, hbody, hcall, ?_⟩
  intro t1 t2 h1 h2
  rw [hn, of_decide_eq_true (of_allTimes ht1 h1), of_decide_eq_true (of_allTimes ht2 h2)]
  decide

/-- A client that polls again after 1.2 of 2 seconds is refused. -/
theorem refused_poll_early_two_seconds :
    ∃ (s : ServerSys) (t : Time) (key : TransactionKey) (cell : Cell) (m1 : PKIMessage)
      (item : PollRepItem), (2, ⟨.now, t⟩) ∈ s.log ∧ StoredBy s.log 1 key cell.entry ∧
      s.threads[1]? = some (.ret (some m1)) ∧ m1.body = .pollRep [item] ∧ item.checkAfter = 2 ∧
      t < cell.entry.lastPollTime + item.checkAfter * Time.second := by
  have hpoll : sampleServer.Thread (sampleServer.processMessage samplePoll) := .message _
  obtain ⟨s, hs, h⟩ := (Option.any_eq_true (refusedAfter 2) (Sys.run exec (.init {})
    (pollRun (2 * Time.second) (sampleServer.processMessage samplePoll) 3200000000))).mp
    (by decide +kernel)
  obtain ⟨m1, item, m, key, cell, ⟨hm1, hitem, hn⟩, hm, hbody, hlook, hstore, hcall⟩ :=
    of_refusedAfter h
  obtain ⟨t, ht, i, hst, -, hearly⟩ := refused_poll_early sampleServer rfl _ s
    (starts_of_pollRun hpoll _) hs (waits_of_pollRun (.inr (by decide)) hpoll _) 2 m key cell hm
    hbody hlook hcall
  obtain rfl : i = 1 := by simpa [hstore] using mem_storers.mpr hst
  exact ⟨s, t, key, cell, m1, item, ht, hst, hm1, hitem, hn, (hearly m1 hm1).2 item hitem⟩

/-- The thread has removed a pending entry that it judged. -/
def isRemovalOf (i : ℕ) (f : TransactionKey → TransactionEntry → Bool) :
    ℕ × ServerEvent → Bool
  | (j, ⟨.loadAndDelete .cleanupExpired key judged, some cell⟩) =>
    (j = i && judged = cell.ptr) && (cell.entry.state = .pending && f key cell.entry)
  | _ => false

lemma exists_of_isRemovalOf {i : ℕ} {f : TransactionKey → TransactionEntry → Bool}
    (h : log.any (isRemovalOf i f)) :
    ∃ pre key cell post,
      log = pre ++ (i, ⟨.loadAndDelete .cleanupExpired key cell.ptr, some cell⟩) :: post ∧
      cell.entry.state = .pending ∧ f key cell.entry := by
  obtain ⟨e, he, h⟩ := List.any_eq_true.mp h
  unfold isRemovalOf at h
  split at h
  · simp only [Bool.and_eq_true, decide_eq_true_eq] at h
    obtain ⟨⟨rfl, rfl⟩, hstate, hf⟩ := h
    obtain ⟨pre, post, hlog⟩ := List.append_of_mem he
    exact ⟨pre, _, _, post, hlog, hstate, hf⟩
  · cases h

/-- The poll was told to wait for `n` seconds, and the cleanup has removed its entry. -/
def removedAfter (n : ℤ) (s : ServerSys) : Bool :=
  (s.threads[1]?.any (repliesWith (isPollRep n))) &&
  s.log.any (isRemovalOf 2 fun key e =>
    e.lastActivity = 2 * Time.second ∧ storers s.log key e = [1])

lemma of_removedAfter {n : ℤ} {s : ServerSys} (h : removedAfter n s) :
    ∃ m1 item pre key cell post, (s.threads[1]? = some (.ret (some m1)) ∧
      m1.body = .pollRep [item] ∧ item.checkAfter = n) ∧
      s.log = pre ++ (2, ⟨.loadAndDelete .cleanupExpired key cell.ptr, some cell⟩) :: post ∧
      cell.entry.state = .pending ∧ cell.entry.lastActivity = 2 * Time.second ∧
      storers s.log key cell.entry = [1] := by
  obtain ⟨h1, h2⟩ := Bool.and_eq_true_iff.mp h
  obtain ⟨m1, item, hfirst⟩ := exists_pollRep h1
  obtain ⟨pre, key, cell, post, hlog, hstate, h3⟩ := exists_of_isRemovalOf h2
  exact ⟨m1, item, pre, key, cell, post, hfirst, hlog, hstate, of_decide_eq_true h3⟩

/-- A client that was told to wait for 20 seconds has lost its request after 13, because
the server keeps unconfirmed transactions for 10 seconds. -/
theorem pending_removed_early :
    ∃ actions s m1 item pre key cell post, (∀ a ∈ actions, sampleServer.Starts a) ∧
      Sys.run exec (.init {}) actions = some s ∧
      s.threads[1]? = some (.ret (some m1)) ∧ m1.body = .pollRep [item] ∧
      s.log = pre ++ (2, ⟨.loadAndDelete .cleanupExpired key cell.ptr, some cell⟩) :: post ∧
      cell.entry.state = .pending ∧ StoredBy s.log 1 key cell.entry ∧
      ∀ t, (2, ⟨.now, t⟩) ∈ s.log →
        t < cell.entry.lastActivity + item.checkAfter * Time.second := by
  have hcleanup : sampleServer.Thread (sampleServer.cleanupExpired >>= fun _ => pure none) :=
    .cleanup
  obtain ⟨s, hs, h⟩ := (Option.any_eq_true
    (fun s => removedAfter 20 s && allTimes s.log 2 (fun t => decide (t = 15 * Time.second)))
    (Sys.run exec (.init {}) (pollRun (20 * Time.second)
      (sampleServer.cleanupExpired >>= fun _ => pure none) (15 * Time.second)))).mp
    (by decide +kernel)
  obtain ⟨h, ht⟩ := Bool.and_eq_true_iff.mp h
  obtain ⟨m1, item, pre, key, cell, post, ⟨hm1, hitem, hn⟩, hlog, hstate, hlast, hstore⟩ :=
    of_removedAfter h
  refine ⟨_, s, m1, item, pre, key, cell, post, starts_of_pollRun hcleanup _, hs, hm1, hitem, hlog,
    hstate, mem_storers.mp (by simp [hstore]), fun t h2 => ?_⟩
  rw [hlast, hn, of_decide_eq_true (of_allTimes ht h2)]
  decide

/-- A client that was told to wait for 5 seconds keeps its request for more than 5
seconds. -/
theorem removed_pending_late_five_seconds :
    ∃ (s : ServerSys) (t : Time) (key : TransactionKey) (cell : Cell) (m1 : PKIMessage)
      (item : PollRepItem), (2, ⟨.now, t⟩) ∈ s.log ∧ StoredBy s.log 1 key cell.entry ∧
      s.threads[1]? = some (.ret (some m1)) ∧ m1.body = .pollRep [item] ∧ item.checkAfter = 5 ∧
      cell.entry.lastActivity + item.checkAfter * Time.second ≤ t := by
  have hcleanup : sampleServer.Thread (sampleServer.cleanupExpired >>= fun _ => pure none) :=
    .cleanup
  obtain ⟨s, hs, h⟩ := (Option.any_eq_true (removedAfter 5) (Sys.run exec (.init {})
    (pollRun (5 * Time.second) (sampleServer.cleanupExpired >>= fun _ => pure none)
      (15 * Time.second)))).mp (by decide +kernel)
  obtain ⟨m1, item, pre, key, cell, post, ⟨hm1, hitem, hn⟩, hlog, hstate, -, hstore⟩ :=
    of_removedAfter h
  obtain ⟨t, ht, i, hst, -, hlate⟩ := removed_pending_late sampleServer rfl _ s
    (starts_of_pollRun hcleanup _) hs (waits_of_pollRun (fun _ => by decide) hcleanup _) pre post 2
    key
    cell hlog hstate
  obtain rfl : i = 1 := by simpa [hstore] using mem_storers.mpr hst
  refine ⟨s, t, key, cell, m1, item, ?_, hst, hm1, hitem, hn, hlate m1 item hm1 hitem⟩
  rw [hlog]
  exact List.mem_append_left _ ht

end Server

end PkiCmp
