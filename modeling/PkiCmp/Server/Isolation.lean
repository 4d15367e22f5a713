/-
Transactions of different credentials (`server/transaction.go`).

A run is a list of calls of the tracker, each at its own time.  Two runs that
contain the same calls of one credential, and the same cleanups, look the same to
that credential, whatever else they contain.

* `Op`, `runOps`: calls and runs, with what one credential observes;
* `Balanced`: what holds between two calls;
* `SameFor`: two trackers that a credential cannot tell apart;
* `runs_indistinguishable`.
-/
import PkiCmp.Server.Accounting

namespace PkiCmp

open Der Interact

namespace TrackerConfig

variable (t : TrackerConfig)

/-! ### Runs of calls -/

/-- The transaction a call is about; a cleanup is about all of them. -/
def Call.target : Call → Option (CredentialID × Bytes)
  | .startIfAbsent c x | .setPending c x .. | .getPending c x | .setIssued c x .. | .getIssued c x
  | .setCompleted c x | .delete c x => some (c, x)
  | .cleanupExpired _ => none

/-- A call, with the time it is made at and the order in which `Range` visits the
map. -/
structure Op where
  call : Call
  oracle : Oracle

/-- The call is about a transaction of the credential, or about all of them. -/
def Op.Concerns (b : CredentialID) (op : Op) : Prop :=
  ∀ target ∈ op.call.target, target.1 = b

instance (b : CredentialID) : DecidablePred (Op.Concerns b) := fun op =>
  inferInstanceAs (Decidable (∀ target ∈ op.call.target, _))

/-- What a credential observes of a call: the answer, or which of its own entries a
cleanup reports, with the certificate and the reference that are reported. -/
inductive Observation where
  | answer (a : Answer)
  | reported (entries : Set (Bytes × Option Certificate × Option IssueRef))

/-- The observation of an answer to a call that was made in a state. -/
def observe (b : CredentialID) (m : Tracker) : Answer → Observation
  | .expired infos => .reported { r | ∃ cell, m.cell (t.makeKey b.1 r.1) = some cell ∧
      ⟨r.2.1, r.2.2, cell.txn⟩ ∈ infos }
  | a => .answer a

/-- A run of calls, with the observations of a credential. -/
def runOps (b : CredentialID) : List Op → Tracker → Option (List Observation × Tracker)
  | [], m => some ([], m)
  | op :: ops, m =>
    match (t.call op.call).runAt exec op.oracle m with
    | none => none
    | some (a, m') => (runOps b ops m').map fun (os, m'') =>
      (if op.Concerns b then t.observe b m a :: os else os, m'')

/-- No call of `startIfAbsent` in the run reaches the limit of all transactions. -/
def BelowLimit : List Op → Tracker → Prop
  | [], _ => True
  | op :: ops, m =>
    (∀ c x, op.call = .startIfAbsent c x → m.count < t.maxTransactions) ∧
    ∀ a m', (t.call op.call).runAt exec op.oracle m = some (a, m') → BelowLimit ops m'

/-! ### Between two calls -/

/-- What holds between two calls: pointers are unique, entries are under the keys of
their credentials, and the counters are exact. -/
structure Balanced (m : Tracker) : Prop where
  wf : m.Wf
  owned : Owned t.Bound m
  counters : ∀ sc : Scope, sc.counter m = m.countIf sc.has

/-- The same in the middle of a call. -/
structure Balancing (g : Hold) (m : Tracker) : Prop where
  wf : m.Wf
  owned : Owned t.Bound m
  counters : ∀ sc : Scope, sc.counter m = m.countIf sc.has + if sc.held g then 1 else 0

variable {t}

lemma Balanced.empty : t.Balanced {} where
  wf := .empty 0
  owned := nofun
  counters sc := by cases sc <;> rfl

/-- Every call keeps the tracker balanced. -/
lemma Balanced.call (hsha : Function.Injective t.sha256) {m m' : Tracker} (h : t.Balanced m)
    {call : Call} {c : Oracle} {a : Answer}
    (hrun : (t.call call).runAt exec c m = some (a, m')) : t.Balanced m' := by
  have hstep : ∀ g o x (m m' : Tracker), t.Balancing g m → (t.holdMonitor t.Bound).allowed g o →
      exec o c m = some (x, m') → (t.holdMonitor t.Bound).rely g o x ∧
        t.Balancing ((t.holdMonitor t.Bound).next g o x) m' := by
    intro g o x m m' hb ha hx
    refine ⟨holds_rely hb.owned hx, (exec_mapStep hx).wf hb.wf, owned_step hb.owned ha hx,
      fun sc => ?_⟩
    have := counter_step sc (separates_of_injective hsha) hb.owned ha hx
    have := hb.counters sc
    omega
  obtain ⟨g, hg, hb⟩ := (call_hold (separates_of_injective hsha) call).runAt hstep
    ⟨h.wf, h.owned, fun sc => by rw [h.counters sc]; cases sc <;> simp [Scope.held]⟩ hrun
  refine ⟨hb.wf, hb.owned, fun sc => ?_⟩
  rw [hb.counters sc]
  cases sc <;> simp [Scope.held, hg.counted, hg.cred]

/-! ### One transaction -/

/-- The entry is older than the cleanup allows. -/
def isExpired (maxAge : Duration) (now : Time) (e : TransactionEntry) : Bool :=
  0 < maxAge && e.lastActivity.before (now - maxAge)

/-- A transaction by itself: what a call answers and what it leaves of the entry.
`room` says whether the credential may start another transaction. -/
def transition (t : TrackerConfig) (room : Bool) (now : Time) :
    Call → Option TransactionEntry → Answer × Option TransactionEntry
  | .startIfAbsent c x, e =>
    if !room then
      (.started (t.makeKey c.1 x) (.error (.text (str "per-credential transaction limit reached"))),
        e)
    else match e with
      | some e => (.started (t.makeKey c.1 x) (.ok true), some e)
      | none => (.started (t.makeKey c.1 x) (.ok false),
          some { state := .active, lastActivity := now,
                 credentialKey := t.makeCredentialKey c.1 })
  | .setPending c _ reqType pollRef senderNonce checkAfter lastPollTime, e =>
    if e.any TransactionEntry.isOpen then (.replaced true,
      some { state := .pending, lastActivity := now, credentialKey := t.makeCredentialKey c.1,
             reqType, pollRef, senderNonce, lastPollTime, checkAfter })
    else (.replaced false, e)
  | .getPending _ _, e => (.found (e.filter fun e => e.state = .pending), e)
  | .setIssued c _ reqType certReqID cert issueRef senderNonce clientSenderNonce params algorithm,
      e =>
      if e.any TransactionEntry.isOpen then (.replaced true,
        some { state := .issued, lastActivity := now, credentialKey := t.makeCredentialKey c.1,
               reqType, certReqID := some certReqID, cert := some cert, issueRef,
               issuedSenderNonce := senderNonce, clientSenderNonce, protectionParams := params,
               protectionAlgorithm := algorithm })
      else (.replaced false, e)
  | .getIssued _ _, e => (.found (e.filter fun e => e.state = .issued), e)
  | .setCompleted _ _, e => (.done, e.map fun e =>
    { e with state := .completed, lastActivity := now })
  | .delete _ _, _ => (.done, none)
  | .cleanupExpired maxAge, e => (.expired [], e.filter fun e => !isExpired maxAge now e)

section Refinement

variable {c : Oracle} {m : Tracker}

/-- The entry under a key. -/
def entryOf (m : Tracker) (key : TransactionKey) : Option TransactionEntry :=
  (m.cell key).map Cell.entry

lemma entryOf_of_cell {key : TransactionKey} {cell : Option Cell} (h : m.cell key = cell) :
    entryOf m key = cell.map Cell.entry := congrArg _ h

lemma entryOf_publish (key : TransactionKey) (entry : TransactionEntry) (txn : ℕ) :
    entryOf (m.publish key entry txn) = Function.update (entryOf m) key (some entry) := by
  funext key'
  simp only [entryOf, Tracker.cell_publish, Function.update_apply]
  split_ifs <;> rfl

lemma entryOf_remove (key : TransactionKey) :
    entryOf (m.remove key) = Function.update (entryOf m) key none := by
  funext key'
  simp only [entryOf, Tracker.cell_remove, Function.update_apply]
  split_ifs <;> rfl

lemma startIfAbsent_runAt (b : CredentialID) (x : Bytes) (hroom : m.count < t.maxTransactions) :
    ∃ r m', (t.startIfAbsent b.1 x).runAt exec c m = some (r, m') ∧
      (.started (t.makeKey b.1 x) r, entryOf m' (t.makeKey b.1 x)) = t.transition
        (m.credentialCounts (t.makeCredentialKey b.1) + 1 ≤ t.maxTransactionsPerCredential) c.time
        (.startIfAbsent b x) (entryOf m (t.makeKey b.1 x)) ∧
      ∀ key ≠ t.makeKey b.1 x, entryOf m' key = entryOf m key := by
  have hmax : ¬ t.maxTransactions < m.count + 1 := by omega
  simp only [startIfAbsent, perform, Prog.call_bind]
  rw [Prog.runAt_op rfl]
  simp only [if_neg hmax]
  rw [Prog.runAt_op rfl, Prog.runAt_op rfl]
  by_cases hcred : t.maxTransactionsPerCredential < m.credentialCounts (t.makeCredentialKey b.1) + 1
  · simp only [if_pos hcred]
    rw [Prog.runAt_op rfl, Prog.runAt_op rfl]
    refine ⟨_, _, rfl, ?_, fun _ _ => rfl⟩
    simp only [transition, not_le.mpr hcred]
    rfl
  · simp only [if_neg hcred]
    rw [Prog.runAt_op rfl]
    have hroomy : decide (m.credentialCounts (t.makeCredentialKey b.1) + 1 ≤
        t.maxTransactionsPerCredential) = true := decide_eq_true (not_lt.mp hcred)
    rw [hroomy]
    cases hcell : m.cell (t.makeKey b.1 x) with
    | none =>
      -- the entry is new
      have hentry : entryOf m (t.makeKey b.1 x) = none := entryOf_of_cell hcell
      rw [Prog.runAt_op (if_neg (Option.not_isSome_iff_eq_none.mpr hcell))]
      refine ⟨_, _, rfl, ?_, fun key hkey => ?_⟩
      · rw [entryOf_publish, Function.update_self, hentry]
        rfl
      · rw [entryOf_publish, Function.update_of_ne hkey]
        rfl
    | some cell =>
      have hentry : entryOf m (t.makeKey b.1 x) = some cell.entry := entryOf_of_cell hcell
      rw [Prog.runAt_op (if_pos (Option.isSome_iff_exists.mpr ⟨cell, hcell⟩))]
      simp only [if_true]
      rw [Prog.runAt_op rfl, Prog.runAt_op rfl]
      refine ⟨_, _, rfl, ?_, fun _ _ => rfl⟩
      rw [hentry]
      exact congrArg (Prod.mk _) hentry

/-- `setPending` and `setIssued` replace an open entry. -/
lemma replaceOpen_runAt (site : Site) (key : TransactionKey) (entry : Time → TransactionEntry) :
    ∃ m', (replaceOpen site key entry).runAt exec c m =
        some ((entryOf m key).any TransactionEntry.isOpen, m') ∧
      entryOf m' key = (if (entryOf m key).any TransactionEntry.isOpen then some (entry c.time)
        else entryOf m key) ∧
      ∀ key' ≠ key, entryOf m' key' = entryOf m key' := by
  simp only [replaceOpen, perform, Prog.call_bind]
  rw [Prog.runAt_op rfl]
  cases hcell : m.cell key with
  | none =>
    have hentry : entryOf m key = none := entryOf_of_cell hcell
    rw [hentry]
    exact ⟨m, rfl, hentry, fun _ _ => rfl⟩
  | some cell =>
    have hentry : entryOf m key = some cell.entry := entryOf_of_cell hcell
    rw [hentry]
    by_cases hopen : cell.entry.isOpen
    · have hstate : ¬ (cell.entry.state ≠ .active ∧ cell.entry.state ≠ .pending) := by
        simp only [TransactionEntry.isOpen, Bool.or_eq_true, decide_eq_true_eq] at hopen
        tauto
      simp only [if_neg hstate, Option.any_some, hopen, if_true]
      rw [Prog.runAt_op rfl]
      refine ⟨m.publish key (entry c.time) cell.txn, ?_, ?_, fun key' hkey => ?_⟩
      · have hswap : exec (.compareAndSwap site key cell.ptr (entry c.time)) c m =
            some (true, m.publish key (entry c.time) cell.txn) := by
          simp only [exec, hcell, if_true]
        exact Prog.runAt_op hswap _
      · rw [entryOf_publish, Function.update_self]
      · rw [entryOf_publish, Function.update_of_ne hkey]
    · have hstate : cell.entry.state ≠ .active ∧ cell.entry.state ≠ .pending := by
        simp only [TransactionEntry.isOpen, Bool.or_eq_true, decide_eq_true_eq] at hopen
        tauto
      simp only [if_pos hstate, Option.any_some, hopen]
      exact ⟨m, rfl, hentry, fun _ _ => rfl⟩

lemma getInState_runAt (site : Site) (state : TxnState) (key : TransactionKey) :
    (getInState site state key).runAt exec c m =
      some ((m.cell key).filter fun cell => cell.entry.state = state, m) := by
  simp only [getInState, perform, Prog.call_bind]
  rw [Prog.runAt_op rfl]
  cases m.cell key with
  | none => rfl
  | some cell =>
    by_cases hstate : cell.entry.state = state <;> simp [hstate, Option.filter]

/-- `setCompleted` succeeds at its first attempt. -/
lemma complete_runAt (key : TransactionKey) (retries : ℕ) :
    ∃ m', (complete key (retries + 1)).runAt exec c m = some ((), m') ∧
      entryOf m' key = ((entryOf m key).map fun e =>
        { e with state := .completed, lastActivity := c.time }) ∧
      ∀ key' ≠ key, entryOf m' key' = entryOf m key' := by
  simp only [complete, perform, Prog.call_bind]
  rw [Prog.runAt_op rfl]
  cases hcell : m.cell key with
  | none =>
    have hentry : entryOf m key = none := entryOf_of_cell hcell
    rw [hentry]
    exact ⟨m, rfl, hentry, fun _ _ => rfl⟩
  | some cell =>
    have hentry : entryOf m key = some cell.entry := entryOf_of_cell hcell
    have hswap : ∀ new, exec (.compareAndSwap .setCompleted key cell.ptr new) c m =
        some (true, m.publish key new cell.txn) := by
      intro new
      simp only [exec, hcell, if_true]
    rw [hentry]
    simp only
    rw [Prog.runAt_op rfl, Prog.runAt_op (hswap _)]
    refine ⟨_, rfl, ?_, fun key' hkey => ?_⟩
    · rw [entryOf_publish, Function.update_self]
      rfl
    · rw [entryOf_publish, Function.update_of_ne hkey]

lemma release_runAt (ck : CredentialKey) :
    ∃ m', (release ck).runAt exec c m = some ((), m') ∧ m'.cell = m.cell := ⟨_, rfl, rfl⟩

lemma delete_runAt (b : CredentialID) (x : Bytes) (judged : ℕ) :
    ∃ m', (t.delete b.1 x judged).runAt exec c m = some ((), m') ∧
      entryOf m' = Function.update (entryOf m) (t.makeKey b.1 x) none := by
  simp only [delete, perform, Prog.call_bind]
  rw [Prog.runAt_op rfl]
  cases m.cell (t.makeKey b.1 x) with
  | none => exact ⟨_, rfl, entryOf_remove _⟩
  | some cell =>
    obtain ⟨m', hrun, hcell⟩ := release_runAt (c := c) (m := m.remove (t.makeKey b.1 x))
      cell.entry.credentialKey
    refine ⟨m', hrun, ?_⟩
    rw [← entryOf_remove]
    funext key
    rw [entryOf, hcell, entryOf]

/-- What a cleanup reports of an entry that it removes. -/
def Reported (cutoff : Time) (cell : Cell) (info : IssuedInfo) : Prop :=
  cell.entry.lastActivity.before cutoff ∧ cell.entry.state = .issued ∧ cell.entry.cert.isSome ∧
    info = ⟨cell.entry.cert, cell.entry.issueRef, cell.txn⟩

/-- What a cleanup reports when it visits a key. -/
def report (cutoff : Time) : Option Cell → List IssuedInfo
  | none => []
  | some cell =>
    if cell.entry.lastActivity.before cutoff ∧ cell.entry.state = .issued ∧
        cell.entry.cert.isSome then
      [⟨cell.entry.cert, cell.entry.issueRef, cell.txn⟩]
    else []

lemma mem_report {cutoff : Time} {cell : Option Cell} {info : IssuedInfo} :
    info ∈ report cutoff cell ↔ ∃ c, cell = some c ∧ Reported cutoff c info := by
  cases cell with
  | none => simp [report]
  | some c =>
    simp only [report]
    split_ifs with h
    · simp [Reported, h]
    · simp only [List.not_mem_nil, Option.some.injEq, false_iff]
      rintro ⟨c', rfl, hbefore, hstate, hcert, -⟩
      exact h ⟨hbefore, hstate, hcert⟩

/-- One visit of a cleanup. -/
lemma expire_runAt (cutoff : Time) (key : TransactionKey) :
    ∃ m', (expire cutoff key).runAt exec c m = some (report cutoff (m.cell key), m') ∧
      m'.cell = Function.update m.cell key
        ((m.cell key).filter fun cell => !cell.entry.lastActivity.before cutoff) := by
  have hsame : Function.update m.cell key (m.cell key) = m.cell := Function.update_eq_self ..
  simp only [expire, perform, Prog.call_bind]
  rw [Prog.runAt_op rfl]
  cases hcell : m.cell key with
  | none => exact ⟨m, rfl, by rw [← hsame, hcell]; simp⟩
  | some cell =>
    by_cases hbefore : cell.entry.lastActivity.before cutoff
    · simp only [if_pos hbefore]
      obtain ⟨m', hrelease, hm'⟩ := release_runAt (c := c) (m := m.remove key)
        cell.entry.credentialKey
      have hremove : m'.cell = Function.update m.cell key none := by
        rw [hm']
        funext key'
        rw [Tracker.cell_remove, Function.update_apply]
      have hexec : exec (.loadAndDelete .cleanupExpired key cell.ptr) c m =
          some (some cell, m.remove key) := by rw [← hcell]; rfl
      rw [Prog.runAt_op hexec]
      simp only [Option.isSome_some, if_true]
      rw [Prog.runAt_bind hrelease]
      refine ⟨m', ?_, by simpa [Option.filter, hbefore] using hremove⟩
      by_cases hissued : cell.entry.state = .issued ∧ cell.entry.cert.isSome
      · simp only [report, hbefore, true_and, if_pos hissued]
        rfl
      · simp only [report, hbefore, true_and, if_neg hissued]
        rfl
    · simp only [if_neg hbefore]
      refine ⟨m, by simp [report, hbefore], ?_⟩
      rw [← hsame, hcell]
      simp [Option.filter, hbefore]

/-- The visits of a cleanup: each entry that is old enough is removed, and reported
when it waits for its confirmation. -/
lemma expireAll_runAt (cutoff : Time) {keys : List TransactionKey} (hkeys : keys.Nodup) :
    ∃ m', (expireAll cutoff keys).runAt exec c m =
        some (keys.flatMap fun key => report cutoff (m.cell key), m') ∧
      ∀ key, m'.cell key = if key ∈ keys then
        (m.cell key).filter fun cell => !cell.entry.lastActivity.before cutoff else m.cell key := by
  induction keys generalizing m with
  | nil => exact ⟨m, rfl, by simp⟩
  | cons key keys ih =>
    obtain ⟨hnew, hkeys⟩ := List.nodup_cons.mp hkeys
    obtain ⟨m1, hrun1, hcell1⟩ := expire_runAt (c := c) (m := m) cutoff key
    obtain ⟨m2, hrun2, hcell2⟩ := ih (m := m1) hkeys
    -- the other keys are visited as they were
    have hothers : (keys.flatMap fun key' => report cutoff (m1.cell key')) =
        keys.flatMap fun key' => report cutoff (m.cell key') := by
      refine List.flatMap_congr fun key' hmem => ?_
      rw [hcell1, Function.update_of_ne]
      rintro rfl
      exact hnew hmem
    refine ⟨m2, ?_, fun key' => ?_⟩
    · rw [expireAll, Prog.runAt_bind hrun1, Prog.runAt_bind hrun2, hothers]
      rfl
    · rw [hcell2, hcell1]
      by_cases hk : key' = key
      · subst hk
        rw [Function.update_self]
        simp
      · rw [Function.update_of_ne hk]
        simp [hk]

/-- `Range` visits every entry. -/
lemma mem_rangeKeys {keys : List TransactionKey} {key : TransactionKey} {cell : Cell}
    (h : m.cell key = some cell) : key ∈ m.rangeKeys keys := by
  have hmem : key ∈ m.transactions.keys :=
    AList.lookup_isSome.mp (Option.isSome_iff_exists.mpr ⟨cell, h⟩)
  unfold Tracker.rangeKeys
  split_ifs with hkeys
  · exact hkeys.2 key hmem
  · exact hmem

lemma nodup_rangeKeys (m : Tracker) (keys : List TransactionKey) : (m.rangeKeys keys).Nodup := by
  unfold Tracker.rangeKeys
  split_ifs with hkeys
  · exact hkeys.1
  · exact m.transactions.nodupKeys

/-- What a cleanup reports, in the order of its visits. -/
def expiredInfos (maxAge : Duration) (c : Oracle) (m : Tracker) : List IssuedInfo :=
  if 0 < maxAge then
    (m.rangeKeys c.keys).flatMap fun key => report (c.time - maxAge) (m.cell key)
  else []

lemma mem_expiredInfos {maxAge : Duration} {info : IssuedInfo} :
    info ∈ expiredInfos maxAge c m ↔ 0 < maxAge ∧ ∃ key cell, m.cell key = some cell ∧
      Reported (c.time - maxAge) cell info := by
  unfold expiredInfos
  split_ifs with hpos
  · simp only [List.mem_flatMap, mem_report, hpos, true_and]
    constructor
    · rintro ⟨key, -, cell, h⟩
      exact ⟨key, cell, h⟩
    · rintro ⟨key, cell, hcell, h⟩
      exact ⟨key, mem_rangeKeys hcell, cell, hcell, h⟩
  · simp [hpos]

/-- `cleanupExpired` does to each transaction what it does to it by itself. -/
lemma cleanupExpired_runAt (maxAge : Duration) :
    ∃ m', (cleanupExpired maxAge).runAt exec c m = some (expiredInfos maxAge c m, m') ∧
      ∀ key, m'.cell key = (m.cell key).filter fun cell => !isExpired maxAge c.time cell.entry := by
  unfold cleanupExpired expiredInfos
  by_cases hage : maxAge ≤ 0
  · simp only [if_pos hage, if_neg (not_lt.mpr hage)]
    refine ⟨m, rfl, fun key => ?_⟩
    cases m.cell key <;> simp [isExpired, not_lt.mpr hage, Option.filter]
  · have hpos := not_le.mp hage
    obtain ⟨m', hrun, hcell⟩ := expireAll_runAt (c := c) (m := m) (c.time - maxAge)
      (nodup_rangeKeys m c.keys)
    simp only [if_neg hage, if_pos hpos, perform, Prog.call_bind]
    refine ⟨m', ?_, fun key => ?_⟩
    · rw [Prog.runAt_op rfl, Prog.runAt_op rfl]
      exact hrun
    · rw [hcell]
      simp only [isExpired, hpos, decide_true, Bool.true_and]
      split_ifs with hmem
      · rfl
      · have hnone : m.cell key = none := by
          by_contra hne
          obtain ⟨cell, h⟩ := Option.ne_none_iff_exists'.mp hne
          exact hmem (mem_rangeKeys h)
        rw [hnone]
        rfl

/-- **Refinement**: the tracker runs each transaction by itself. -/
lemma call_refines {call : Call} {b : CredentialID} {x : Bytes}
    (htarget : call.target = some (b, x))
    (hroom : ∀ c x, call = .startIfAbsent c x → m.count < t.maxTransactions) :
    ∃ a m', (t.call call).runAt exec c m = some (a, m') ∧
      (a, entryOf m' (t.makeKey b.1 x)) = t.transition
        (m.credentialCounts (t.makeCredentialKey b.1) + 1 ≤ t.maxTransactionsPerCredential) c.time
        call (entryOf m (t.makeKey b.1 x)) ∧
      ∀ key ≠ t.makeKey b.1 x, entryOf m' key = entryOf m key := by
  have hreplace : ∀ (site : Site) (entry : Time → TransactionEntry), ∃ m',
      (replaceOpen site (t.makeKey b.1 x) entry >>= fun ok => pure (Answer.replaced ok)).runAt exec
        c m =
        some (Answer.replaced ((entryOf m (t.makeKey b.1 x)).any TransactionEntry.isOpen), m') ∧
      entryOf m' (t.makeKey b.1 x) = (if (entryOf m (t.makeKey b.1 x)).any TransactionEntry.isOpen
        then some (entry c.time) else entryOf m (t.makeKey b.1 x)) ∧
      ∀ key' ≠ t.makeKey b.1 x, entryOf m' key' = entryOf m key' := by
    intro site entry
    obtain ⟨m', hrun, hentry, hother⟩ := replaceOpen_runAt (c := c) (m := m) site _ entry
    exact ⟨m', by rw [Prog.runAt_bind hrun]; rfl, hentry, hother⟩
  have hget : ∀ (site : Site) (state : TxnState),
      (getInState site state (t.makeKey b.1 x) >>= fun cell =>
          pure (Answer.found (cell.map Cell.entry))).runAt exec c m =
        some (Answer.found ((entryOf m (t.makeKey b.1 x)).filter fun e => e.state = state), m) := by
    intro site state
    rw [Prog.runAt_bind (getInState_runAt site state _)]
    cases hcell : m.cell (t.makeKey b.1 x) with
    | none => simp [entryOf, hcell, Option.filter]
    | some cell =>
      by_cases hstate : cell.entry.state = state <;>
        simp [entryOf, hcell, Option.filter, hstate]
  cases call with
  | startIfAbsent c' x' =>
    cases htarget
    obtain ⟨r, m', hrun, h⟩ := startIfAbsent_runAt (c := c) b x (hroom _ _ rfl)
    exact ⟨_, m', by rw [call, Prog.runAt_bind hrun]; rfl, h⟩
  | setPending c' x' reqType pollRef senderNonce checkAfter lastPollTime =>
    cases htarget
    obtain ⟨m', hrun, hentry, hother⟩ := hreplace .setPending _
    refine ⟨_, m', hrun, ?_, hother⟩
    rw [hentry, transition]
    split_ifs with hopen
    · rw [hopen]
    · rw [Bool.not_eq_true _ |>.mp hopen]
  | getPending c' x' =>
    cases htarget
    exact ⟨_, m, hget _ _, rfl, fun _ _ => rfl⟩
  | setIssued c' x' reqType certReqID cert issueRef senderNonce clientSenderNonce params alg =>
    cases htarget
    obtain ⟨m', hrun, hentry, hother⟩ := hreplace .setIssued _
    refine ⟨_, m', hrun, ?_, hother⟩
    rw [hentry, transition]
    split_ifs with hopen
    · rw [hopen]
    · rw [Bool.not_eq_true _ |>.mp hopen]
  | getIssued c' x' =>
    cases htarget
    exact ⟨_, m, hget _ _, rfl, fun _ _ => rfl⟩
  | setCompleted c' x' =>
    cases htarget
    obtain ⟨m', hrun, hentry, hother⟩ :=
      complete_runAt (c := c) (m := m) (t.makeKey b.1 x) t.retries
    exact ⟨_, m', by rw [call, setCompleted, Prog.runAt_bind hrun]; rfl, by rw [hentry]; rfl,
      hother⟩
  | delete c' x' =>
    cases htarget
    obtain ⟨m', hrun, hentry⟩ := delete_runAt (t := t) (c := c) (m := m) b x 0
    refine ⟨_, m', by rw [call, Prog.runAt_bind hrun]; rfl, ?_, fun key hkey => ?_⟩
    · rw [hentry, Function.update_self]
      rfl
    · rw [hentry, Function.update_of_ne hkey]
  | cleanupExpired maxAge => cases htarget

end Refinement

/-! ### Two runs -/

section TwoRuns

variable {b : CredentialID} {m m1 m2 : Tracker} (hsha : Function.Injective t.sha256)

/-- The keys of the entries that count for a credential. -/
def ownKeys (t : TrackerConfig) (b : CredentialID) (m : Tracker) : List TransactionKey :=
  (m.transactions.entries.filter fun e =>
    Scope.has (some (t.makeCredentialKey b.1)) e.2.entry).map Sigma.fst

lemma nodup_ownKeys (t : TrackerConfig) (b : CredentialID) (m : Tracker) :
    (t.ownKeys b m).Nodup :=
  (List.filter_sublist.map Sigma.fst).nodup m.transactions.nodupKeys

include hsha

/-- They are the keys of its transactions. -/
lemma mem_ownKeys (hm : Owned t.Bound m) {key : TransactionKey} :
    key ∈ t.ownKeys b m ↔ ∃ x, key = t.makeKey b.1 x ∧ (entryOf m key).isSome := by
  have hlookup : ∀ {cell : Cell}, ⟨key, cell⟩ ∈ m.transactions.entries ↔ m.cell key = some cell :=
    (List.mem_dlookup_iff m.transactions.nodupKeys).symm
  constructor
  · intro h
    obtain ⟨⟨key', cell⟩, he, rfl⟩ := List.mem_map.mp h
    obtain ⟨hmem, hhas⟩ := List.mem_filter.mp he
    have hcell := hlookup.mp hmem
    obtain ⟨b', ⟨x, hkey⟩, hck⟩ := hm hcell
    rw [Scope.has, hck, decide_eq_true_eq] at hhas
    obtain rfl : b' = b := Subtype.ext (hsha hhas)
    exact ⟨x, hkey, by simp [entryOf, hcell]⟩
  · rintro ⟨x, rfl, hsome⟩
    obtain ⟨cell, hcell⟩ : ∃ cell, m.cell (t.makeKey b.1 x) = some cell := by
      simpa [entryOf, Option.isSome_iff_exists] using hsome
    refine List.mem_map.mpr ⟨⟨_, cell⟩, List.mem_filter.mpr ⟨hlookup.mpr hcell, ?_⟩, rfl⟩
    have hck := separates_of_injective hsha _ _ _ (hm hcell) ⟨b, ⟨x, rfl⟩, rfl⟩
    simp [Scope.has, hck]

/-- The trackers hold the same entries for the credential. -/
structure SameFor (t : TrackerConfig) (b : CredentialID) (m1 m2 : Tracker) : Prop where
  left : t.Balanced m1
  right : t.Balanced m2
  entries : ∀ x, entryOf m1 (t.makeKey b.1 x) = entryOf m2 (t.makeKey b.1 x)

/-- Then its counter is the same. -/
lemma SameFor.credentialCounts (h : t.SameFor b m1 m2) :
    m1.credentialCounts (t.makeCredentialKey b.1) =
      m2.credentialCounts (t.makeCredentialKey b.1) := by
  have hperm : (t.ownKeys b m1).Perm (t.ownKeys b m2) := by
    refine (List.perm_ext_iff_of_nodup (nodup_ownKeys ..) (nodup_ownKeys ..)).mpr fun key => ?_
    rw [mem_ownKeys hsha h.left.owned, mem_ownKeys hsha h.right.owned]
    constructor
    · rintro ⟨x, rfl, hx⟩
      exact ⟨x, rfl, h.entries x ▸ hx⟩
    · rintro ⟨x, rfl, hx⟩
      exact ⟨x, rfl, (h.entries x).symm ▸ hx⟩
  have hsize : ∀ m, m.countIf (Scope.has (some (t.makeCredentialKey b.1))) =
      (t.ownKeys b m).length := fun m => by
    rw [Tracker.countIf, List.countP_eq_length_filter, ownKeys, List.length_map]
  have h1 := h.left.counters (some (t.makeCredentialKey b.1))
  have h2 := h.right.counters (some (t.makeCredentialKey b.1))
  rw [hsize, hperm.length_eq, ← hsize] at h1
  exact h1.trans h2.symm

/-- Keys of two credentials differ. -/
lemma makeKey_ne {b b' : CredentialID} (hne : b' ≠ b) (x x' : Bytes) :
    t.makeKey b.1 x ≠ t.makeKey b'.1 x' :=
  fun h => hne (KeyOf.unique hsha ⟨x', h⟩ ⟨x, rfl⟩)

/-- A call about another credential is not seen. -/
lemma other_call {op : Op} (hop : ¬ op.Concerns b)
    (hroom : ∀ c x, op.call = .startIfAbsent c x → m.count < t.maxTransactions) :
    ∃ a m', (t.call op.call).runAt exec op.oracle m = some (a, m') ∧
      ∀ x, entryOf m' (t.makeKey b.1 x) = entryOf m (t.makeKey b.1 x) := by
  obtain ⟨⟨b', x'⟩, htarget, hne⟩ : ∃ target, op.call.target = some target ∧ target.1 ≠ b := by
    simpa [Op.Concerns] using hop
  obtain ⟨a, m', hrun, -, hother⟩ := call_refines (c := op.oracle) htarget hroom
  exact ⟨a, m', hrun, fun x => hother _ (makeKey_ne hsha hne x x')⟩

omit hsha in
/-- Which entries of a credential a cleanup reports depends on these entries alone. -/
lemma observe_cleanup (hw : m.Wf) {infos : List IssuedInfo} {maxAge : Duration} {now : Time}
    (hinfos : ∀ info, info ∈ infos ↔ 0 < maxAge ∧ ∃ key cell, m.cell key = some cell ∧
      Reported (now - maxAge) cell info) :
    t.observe b m (.expired infos) = .reported { r | 0 < maxAge ∧
      ∃ e, entryOf m (t.makeKey b.1 r.1) = some e ∧ e.lastActivity.before (now - maxAge) ∧
        e.state = .issued ∧ e.cert.isSome ∧ r.2 = (e.cert, e.issueRef) } := by
  refine congrArg Observation.reported (Set.ext fun ⟨x, cert, ref⟩ => ?_)
  simp only [Set.mem_ofPred_eq, hinfos]
  constructor
  · rintro ⟨cell, hcell, hpos, key, cell', hcell', hbefore, hstate, hcert, hinfo⟩
    -- the transaction that is reported is the one under the key
    obtain ⟨rfl, rfl, htxn⟩ := IssuedInfo.mk.inj hinfo
    obtain rfl := hw.single hcell hcell' htxn
    obtain rfl : cell = cell' := Option.some.inj (hcell.symm.trans hcell')
    exact ⟨hpos, cell.entry, by rw [entryOf, hcell]; rfl, hbefore, hstate, hcert, rfl⟩
  · rintro ⟨hpos, e, he, hbefore, hstate, hcert, hr⟩
    obtain ⟨cell, hcell, rfl⟩ := Option.map_eq_some_iff.mp he
    obtain ⟨rfl, rfl⟩ := Prod.mk.inj hr
    exact ⟨cell, hcell, hpos, _, cell, hcell, hbefore, hstate, hcert, rfl⟩

omit hsha in
/-- A call about one transaction reports no expired ones. -/
lemma observe_transition {call : Call} {target : CredentialID × Bytes}
    (htarget : call.target = some target) (room : Bool) (now : Time) (e : Option TransactionEntry) :
    t.observe b m1 (t.transition room now call e).1 =
      t.observe b m2 (t.transition room now call e).1 := by
  cases call with
  | cleanupExpired => cases htarget
  | startIfAbsent => cases room <;> cases e <;> rfl
  | setPending =>
    rw [transition]
    split_ifs <;> rfl
  | setIssued =>
    rw [transition]
    split_ifs <;> rfl
  | _ => rfl

/-- A call that concerns the credential looks the same to it in both, and leaves
both the same. -/
lemma same_call (h : t.SameFor b m1 m2) {call : Call} {c1 c2 : Oracle}
    (hcall : ∀ target ∈ call.target, target.1 = b) (htime : c1.time = c2.time)
    (hroom1 : ∀ c x, call = .startIfAbsent c x → m1.count < t.maxTransactions)
    (hroom2 : ∀ c x, call = .startIfAbsent c x → m2.count < t.maxTransactions) :
    ∃ a1 m1' a2 m2', (t.call call).runAt exec c1 m1 = some (a1, m1') ∧
      (t.call call).runAt exec c2 m2 = some (a2, m2') ∧
      t.observe b m1 a1 = t.observe b m2 a2 ∧
      ∀ x, entryOf m1' (t.makeKey b.1 x) = entryOf m2' (t.makeKey b.1 x) := by
  cases htarget : call.target with
  | none =>
    obtain ⟨maxAge, rfl⟩ : ∃ maxAge, call = .cleanupExpired maxAge := by
      cases call <;> first | exact ⟨_, rfl⟩ | cases htarget
    obtain ⟨m1', hrun1, hcell1⟩ := cleanupExpired_runAt (c := c1) (m := m1) maxAge
    obtain ⟨m2', hrun2, hcell2⟩ := cleanupExpired_runAt (c := c2) (m := m2) maxAge
    refine ⟨_, m1', _, m2', Prog.runAt_bind hrun1, Prog.runAt_bind hrun2, ?_, fun x => ?_⟩
    · rw [observe_cleanup h.left.wf fun _ => mem_expiredInfos,
        observe_cleanup h.right.wf fun _ => mem_expiredInfos]
      simp only [h.entries, htime]
    · have hfilter : ∀ (o : Option Cell) (now : Time),
          (o.filter fun cell => !isExpired maxAge now cell.entry).map Cell.entry =
            (o.map Cell.entry).filter fun e => !isExpired maxAge now e := by
        intro o now
        cases o with
        | none => rfl
        | some cell => cases hexp : isExpired maxAge now cell.entry <;> simp [Option.filter, hexp]
      rw [entryOf, entryOf, hcell1, hcell2, hfilter, hfilter, htime]
      exact congrArg _ (h.entries x)
  | some target =>
    obtain ⟨b', x⟩ := target
    obtain rfl : b' = b := hcall _ htarget
    obtain ⟨a1, m1', hrun1, hstep1, hother1⟩ := call_refines (c := c1) htarget hroom1
    obtain ⟨a2, m2', hrun2, hstep2, hother2⟩ := call_refines (c := c2) htarget hroom2
    rw [h.credentialCounts hsha, h.entries, htime] at hstep1
    obtain ⟨rfl, hentry⟩ := Prod.mk.inj (hstep1.trans hstep2.symm)
    refine ⟨a1, m1', a1, m2', hrun1, hrun2, ?_, fun y => ?_⟩
    · rw [(Prod.mk.inj hstep1).1]
      exact observe_transition htarget ..
    · by_cases hy : t.makeKey b'.1 y = t.makeKey b'.1 x
      · rw [hy]
        exact hentry
      · rw [hother1 _ hy, hother2 _ hy, h.entries]

/-- Two runs from trackers that are the same for a credential. -/
lemma runOps_same {ops1 ops2 : List Op} (h : t.SameFor b m1 m2)
    (hops : List.Forall₂ (fun op1 op2 => op1.call = op2.call ∧ op1.oracle.time = op2.oracle.time)
      (ops1.filter (Op.Concerns b)) (ops2.filter (Op.Concerns b)))
    (h1 : t.BelowLimit ops1 m1) (h2 : t.BelowLimit ops2 m2) :
    ∃ os m1' m2', t.runOps b ops1 m1 = some (os, m1') ∧ t.runOps b ops2 m2 = some (os, m2') := by
  -- by induction on both runs; a call about another credential is a step of one of them
  induction ops1 generalizing ops2 m1 m2 with
  | nil =>
    induction ops2 generalizing m2 with
    | nil => exact ⟨[], m1, m2, rfl, rfl⟩
    | cons op2 ops2 ih =>
      have hop : ¬ op2.Concerns b := fun hop => by simp [hop] at hops
      obtain ⟨a, m', hrun, hsame⟩ := other_call hsha hop h2.1
      rw [List.filter_cons_of_neg (by simpa using hop)] at hops
      obtain ⟨os, m1', m2', hr1, hr2⟩ := ih ⟨h.left, h.right.call hsha hrun,
        fun x => (h.entries x).trans (hsame x).symm⟩ hops (h2.2 a m' hrun)
      exact ⟨os, m1', m2', hr1, by simp [runOps, hrun, hr2, hop]⟩
  | cons op1 ops1 ih =>
    by_cases hop1 : op1.Concerns b
    · induction ops2 generalizing m2 with
      | nil => simp [hop1] at hops
      | cons op2 ops2 ih2 =>
        by_cases hop2 : op2.Concerns b
        · rw [List.filter_cons_of_pos (by simpa using hop1),
            List.filter_cons_of_pos (by simpa using hop2), List.forall₂_cons] at hops
          obtain ⟨⟨hcall, htime⟩, hops⟩ := hops
          obtain ⟨a1, m1', a2, m2', hrun1, hrun2, hobs, hsame⟩ :=
            same_call hsha h hop1 htime h1.1 (hcall ▸ h2.1)
          rw [hcall] at hrun2
          obtain ⟨os, n1, n2, hr1, hr2⟩ := ih
            ⟨h.left.call hsha hrun1, h.right.call hsha hrun2, hsame⟩ hops
            (h1.2 a1 m1' hrun1) (h2.2 a2 m2' hrun2)
          exact ⟨t.observe b m1 a1 :: os, n1, n2, by simp [runOps, hrun1, hr1, hop1],
            by simp [runOps, hrun2, hr2, hop2, hobs]⟩
        · obtain ⟨a, m', hrun, hsame⟩ := other_call hsha hop2 h2.1
          rw [List.filter_cons_of_neg (a := op2) (by simpa using hop2)] at hops
          obtain ⟨os, n1, n2, hr1, hr2⟩ := ih2 ⟨h.left, h.right.call hsha hrun,
            fun x => (h.entries x).trans (hsame x).symm⟩ hops (h2.2 a m' hrun)
          exact ⟨os, n1, n2, hr1, by simp [runOps, hrun, hr2, hop2]⟩
    · obtain ⟨a, m', hrun, hsame⟩ := other_call hsha hop1 h1.1
      rw [List.filter_cons_of_neg (by simpa using hop1)] at hops
      obtain ⟨os, n1, n2, hr1, hr2⟩ := ih ⟨h.left.call hsha hrun, h.right,
        fun x => (hsame x).trans (h.entries x)⟩ hops (h1.2 a m' hrun) h2
      exact ⟨os, n1, n2, by simp [runOps, hrun, hr1, hop1], hr2⟩

end TwoRuns

/-- **Isolation**: two runs that contain the same calls of a credential and the same
cleanups, in the same order and at the same times, are the same to that credential,
whatever the other credentials do, as long as neither reaches the limit of all
transactions. -/
theorem runs_indistinguishable (t : TrackerConfig) (hsha : Function.Injective t.sha256)
    (b : CredentialID) (ops1 ops2 : List Op)
    (hops : List.Forall₂ (fun op1 op2 => op1.call = op2.call ∧ op1.oracle.time = op2.oracle.time)
      (ops1.filter (Op.Concerns b)) (ops2.filter (Op.Concerns b)))
    (h1 : t.BelowLimit ops1 {}) (h2 : t.BelowLimit ops2 {}) :
    ∃ os m1 m2, t.runOps b ops1 {} = some (os, m1) ∧ t.runOps b ops2 {} = some (os, m2) :=
  runOps_same hsha ⟨.empty, .empty, fun _ => rfl⟩ hops h1 h2

instance decidableBelowLimit (t : TrackerConfig) :
    (ops : List Op) → (m : Tracker) → Decidable (t.BelowLimit ops m)
  | [], _ => isTrue trivial
  | op :: ops, m =>
    have : Decidable (∀ c x, op.call = .startIfAbsent c x → m.count < t.maxTransactions) :=
      match op.call with
      | .startIfAbsent c x => decidable_of_iff (m.count < t.maxTransactions)
          ⟨fun h _ _ _ => h, fun h => h c x rfl⟩
      | .setPending .. | .getPending .. | .setIssued .. | .getIssued .. | .setCompleted ..
      | .delete .. | .cleanupExpired _ => isTrue nofun
    match h : (t.call op.call).runAt exec op.oracle m with
    | none => decidable_of_iff _ ⟨fun hc => ⟨hc, by simp [h]⟩, And.left⟩
    | some (a, m') =>
      have : Decidable (t.BelowLimit ops m') := decidableBelowLimit t ops m'
      decidable_of_iff ((∀ c x, op.call = .startIfAbsent c x → m.count < t.maxTransactions) ∧
        t.BelowLimit ops m') (by simp [BelowLimit, h])

/-- A credential with an identifier of one octet. -/
def sampleID (b : UInt8) : CredentialID := ⟨[b], by simp⟩

/-- A client that starts a transaction, is told to wait and asks again, with other calls in the
meantime. -/
def sampleOps (others : List Op) : List Op :=
  ⟨.startIfAbsent (sampleID 1) [2], Server.sampleOracle 1⟩ :: others ++
    [⟨.setPending (sampleID 1) [2] .ir [7] [8] 5 0, Server.sampleOracle 3⟩,
      ⟨.getPending (sampleID 1) [2], Server.sampleOracle 4⟩]

/-- Another client that uses the same transactionID in the meantime is not noticed. -/
theorem runs_indistinguishable_sample :
    ∃ os m1 m2, sampleTracker.runOps (sampleID 1) (sampleOps []) {} = some (os, m1) ∧
      sampleTracker.runOps (sampleID 1)
        (sampleOps [⟨.startIfAbsent (sampleID 3) [2], Server.sampleOracle 2⟩]) {} =
          some (os, m2) :=
  runs_indistinguishable sampleTracker Function.injective_id (sampleID 1) _ _
    (.cons ⟨rfl, rfl⟩ (.cons ⟨rfl, rfl⟩ (.cons ⟨rfl, rfl⟩ .nil))) (by decide +kernel)
    (by decide +kernel)

end TrackerConfig

end PkiCmp
