/-
Recovery from a snapshot (`server/snapshot.go`).

The trackers are those of a server over its lifetime: it starts empty, serves any
number of concurrent requests and cleanups until it comes to rest, and may be
restored from its own snapshot and serve again.

* `Reachable`: the trackers of a lifetime;
* `Restores`: the tracker that comes back for another one, and what it answers;
* `snapshot_faithful`: **a snapshot that is restored is faithful**;
* `restore_iff`: **when a snapshot can be restored**.
-/
import PkiCmp.Server.Isolation
import PkiCmp.Server.Ledger

namespace PkiCmp

open Der Interact
open TrackerConfig (Scope)

/-! ### What is restored -/

section

variable {r : Recovery} {signer : Bytes} {maxTransactions maxPerCredential : ℤ} {t t' : Tracker}
  {snapshot : TransactionSnapshot}

/-- The tracker holds the saved transactions, and its counters count them. -/
structure Loads (r : Recovery) (saved : List SavedTransaction) (t : Tracker) : Prop where
  found : ∀ s ∈ saved, ∃ c, t.cell s.key = some c ∧ restoreEntry r s = .ok c.entry
  only : ∀ key c, t.cell key = some c → ∃ s ∈ saved, s.key = key
  count : t.count = saved.length
  credentials : ∀ ck, t.credentialCounts ck = saved.countP fun s => s.credential = ck
  counters : ∀ sc : Scope, sc.counter t = t.countIf sc.has

lemma Loads.empty (n : ℕ) : Loads r [] { nextPtr := n } where
  found s h := by cases h
  only key c h := by cases h
  count := rfl
  credentials ck := rfl
  counters sc := by cases sc <;> rfl

/-- **One turn** of the loop of `RestoreTransactions`. -/
lemma Loads.turn {saved : List SavedTransaction} {s : SavedTransaction} (h : Loads r saved t)
    (hone : t.restoreOne r maxPerCredential s = .ok t') : Loads r (saved ++ [s]) t' := by
  obtain ⟨entry, hentry, hnone, -, rfl⟩ := Tracker.restoreOne_eq_ok.mp hone
  obtain ⟨-, cert, ref, -, -, rfl⟩ := restoreEntry_eq_ok.mp hentry
  refine ⟨fun s' hs' => ?_, fun key c hc => ?_, ?_, fun ck => ?_, fun sc => ?_⟩
  · rw [Tracker.cell_restored, Tracker.cell_publish]
    obtain hs' | hs' := List.mem_append.mp hs'
    · obtain ⟨c, hc, he⟩ := h.found s' hs'
      have hne : s'.key ≠ s.key := by
        intro heq
        rw [heq, hnone] at hc
        cases hc
      exact ⟨c, by rw [if_neg hne, hc], he⟩
    · obtain rfl := List.mem_singleton.mp hs'
      exact ⟨_, if_pos rfl, hentry⟩
  · rw [Tracker.cell_restored, Tracker.cell_publish] at hc
    split_ifs at hc with hk
    · exact ⟨s, by simp, hk.symm⟩
    · obtain ⟨s', hs', hkey⟩ := h.only key c hc
      exact ⟨s', List.mem_append_left _ hs', hkey⟩
  · rw [List.length_append, List.length_singleton, Tracker.count_restored, h.count]
    push_cast
    rfl
  · rw [Tracker.credentialCounts_restored, h.credentials ck, List.countP_append,
      List.countP_singleton]
    push_cast
    simp only [decide_eq_true_eq]
    rfl
  · have hsize : (t.restored s.key (restoredEntry s cert ref)).countIf sc.has =
        t.countIf sc.has + if sc.has (restoredEntry s cert ref) then 1 else 0 := by
      rw [← Tracker.countIf_remove_none t hnone]
      exact Tracker.countIf_publish ..
    have hold := h.counters sc
    rw [hsize]
    push_cast
    rw [← hold]
    cases sc with
    | none => rfl
    | some ck =>
      simp only [Scope.has, decide_eq_true_eq]
      exact Tracker.credentialCounts_restored ..

/-- What `RestoreTransactions` builds. -/
lemma loads_of_nextTracker
    (h : nextTracker r signer maxTransactions maxPerCredential t snapshot = .ok t') :
    Loads r snapshot.entries t' := by
  have hloop := (nextTracker_eq_ok.mp h).2.2.2.2.2.2
  exact Fallible.foldlM_ok_induction (P := Loads r) hloop (.empty _) fun _ _ _ _ _ hl hone =>
    hl.turn hone

/-- The tracker `t'` came back for `m`: the same keys, the entries as they were, and the
same counters. -/
structure Restores (m t' : Tracker) : Prop where
  entries : ∀ key, Option.Rel (fun c c' : Cell => Recovers c.entry c'.entry) (m.cell key)
    (t'.cell key)
  count : t'.count = m.count
  credentials : t'.credentialCounts = m.credentialCounts

lemma SavedAs.key {e : (_ : TransactionKey) × Cell} {s : SavedTransaction} (h : SavedAs r e s) :
    s.key = e.1 := by
  obtain ⟨ref, -, rfl⟩ := h.eq
  rfl

lemma SavedAs.credential {e : (_ : TransactionKey) × Cell} {s : SavedTransaction}
    (h : SavedAs r e s) : s.credential = e.2.entry.credentialKey := by
  obtain ⟨ref, -, rfl⟩ := h.eq
  rfl

/-- **Faithfulness** of a snapshot that is restored, for a tracker with exact counters. -/
lemma restores_of_nextTracker {m : Tracker} (hm : ∀ sc : Scope, sc.counter m = m.countIf sc.has)
    (hsnap : snapshotTransactions r signer m = .ok snapshot)
    (hnext : nextTracker r signer maxTransactions maxPerCredential t snapshot = .ok t') :
    Restores m t' := by
  obtain ⟨-, -, -, es, hperm, hes⟩ := snapshotTransactions_eq_ok hsnap
  have hload := loads_of_nextTracker hnext
  have hlookup : ∀ {key c}, (⟨key, c⟩ : (_ : TransactionKey) × Cell) ∈ es ↔ m.cell key = some c :=
    fun {key c} => hperm.mem_iff.trans AList.mem_lookup_iff.symm
  refine ⟨fun key => ?_, ?_, funext fun ck => ?_⟩
  · cases hcell : m.cell key with
    | none =>
      -- nothing else is restored
      cases hcell' : t'.cell key with
      | none => exact .none
      | some c' =>
        obtain ⟨s, hs, rfl⟩ := hload.only key c' hcell'
        obtain ⟨e, he, hsaved⟩ := Fallible.exists_of_forall₂ hes hs
        rw [hsaved.key, hlookup.mp he] at hcell
        cases hcell
    | some c =>
      -- the entry was saved, and what was saved is restored
      obtain ⟨s, hs, hsaved⟩ := Fallible.exists_of_forall₂ hes.flip (hlookup.mpr hcell)
      obtain ⟨c', hc', hentry⟩ := hload.found s hs
      replace hsaved : SavedAs r ⟨key, c⟩ s := hsaved
      obtain ⟨hkey, hrec⟩ := hsaved.recovers hentry
      rw [show key = s.key from hkey.symm, hc']
      exact .some hrec
  · have hcount : m.count = m.transactions.entries.length := by
      rw [show m.count = Scope.counter none m from rfl, hm none]
      simp [Tracker.countIf, Scope.has]
    rw [hload.count, hcount, ← hes.length_eq, hperm.length_eq]
  · have hcount : es.countP (fun e => Scope.has (some ck) e.2.entry) =
        snapshot.entries.countP fun s => s.credential = ck :=
      countP_eq_of_forall₂ (fun e s h => by simp only [Scope.has, h.credential]) hes
    rw [hload.credentials, ← hcount, hperm.countP_eq]
    exact (hm (some ck)).symm

end

/-! ### Answers -/

section Answers

variable {m t' : Tracker} (cfg : TrackerConfig) (c : Oracle)

/-- What `startIfAbsent` returns. -/
def startResult (m : Tracker) (credID txID : Bytes) : Except GoError Bool :=
  if cfg.maxTransactions < m.count + 1 then
    .error (.text (str "maximum transaction limit reached"))
  else if cfg.maxTransactionsPerCredential < m.credentialCounts (cfg.makeCredentialKey credID) + 1
  then .error (.text (str "per-credential transaction limit reached"))
  else .ok (m.cell (cfg.makeKey credID txID)).isSome

lemma startIfAbsent_result (m : Tracker) (credID txID : Bytes) :
    ∃ m', (cfg.startIfAbsent credID txID).runAt exec c m =
      some (startResult cfg m credID txID, m') := by
  simp only [TrackerConfig.startIfAbsent, perform, Prog.call_bind, startResult]
  rw [Prog.runAt_op rfl]
  by_cases hmax : cfg.maxTransactions < m.count + 1
  · simp only [if_pos hmax]
    exact ⟨_, rfl⟩
  · simp only [if_neg hmax]
    rw [Prog.runAt_op rfl, Prog.runAt_op rfl]
    by_cases hcred : cfg.maxTransactionsPerCredential <
        m.credentialCounts (cfg.makeCredentialKey credID) + 1
    · simp only [if_pos hcred]
      exact ⟨_, rfl⟩
    · simp only [if_neg hcred]
      rw [Prog.runAt_op rfl]
      cases hcell : m.cell (cfg.makeKey credID txID) with
      | none =>
        rw [Prog.runAt_op (if_neg (Option.not_isSome_iff_eq_none.mpr hcell))]
        exact ⟨_, rfl⟩
      | some cell =>
        rw [Prog.runAt_op (if_pos (Option.isSome_iff_exists.mpr ⟨cell, hcell⟩))]
        exact ⟨_, rfl⟩

/-- Two trackers answer alike: lookups with entries that are restored, new transactions
with the same result, and cleanups with the same certificates, up to the order of the
visits, and with the same entries left. -/
structure AnswersAlike (m t' : Tracker) : Prop where
  getPending : ∀ (c : Oracle) (credID txID : Bytes), ∃ x x',
    (cfg.getPending credID txID).runAt exec c m = some (x, m) ∧
    (cfg.getPending credID txID).runAt exec c t' = some (x', t') ∧
    Option.Rel (fun c c' : Cell => Recovers c.entry c'.entry) x x'
  getIssued : ∀ (c : Oracle) (credID txID : Bytes), ∃ x x',
    (cfg.getIssued credID txID).runAt exec c m = some (x, m) ∧
    (cfg.getIssued credID txID).runAt exec c t' = some (x', t') ∧
    Option.Rel (fun c c' : Cell => Recovers c.entry c'.entry) x x'
  startIfAbsent : ∀ (c : Oracle) (credID txID : Bytes), ∃ r m1 t1,
    (cfg.startIfAbsent credID txID).runAt exec c m = some (r, m1) ∧
    (cfg.startIfAbsent credID txID).runAt exec c t' = some (r, t1)
  cleanupExpired : ∀ (c : Oracle) (maxAge : Duration), ∃ infos m1 infos' t1,
    (TrackerConfig.cleanupExpired maxAge).runAt exec c m = some (infos, m1) ∧
    (TrackerConfig.cleanupExpired maxAge).runAt exec c t' = some (infos', t1) ∧
    (infos.map fun i => i.cert.map Certificate.raw).Perm
      (infos'.map fun i => i.cert.map Certificate.raw) ∧
    ∀ key, Option.Rel (fun c c' : Cell => Recovers c.entry c'.entry) (m1.cell key) (t1.cell key)

/-- Visits in different orders, of all the keys that matter. -/
lemma flatMap_perm {α β : Type} [DecidableEq β] {l l' : List α} (hl : l.Nodup) (hl' : l'.Nodup)
    {f : α → List β} (hf : ∀ a, f a ≠ [] → a ∈ l ∧ a ∈ l') :
    (l.flatMap f).Perm (l'.flatMap f) := by
  have hfilter : ∀ l : List α, l.flatMap f = (l.filter fun a => f a ≠ []).flatMap f := by
    intro l
    induction l with
    | nil => rfl
    | cons a l ih =>
      by_cases ha : f a = []
      · simp [ha, ih]
      · simp [ha, ih]
  rw [hfilter l, hfilter l']
  refine List.Perm.flatMap_right f
    ((List.perm_ext_iff_of_nodup (hl.filter _) (hl'.filter _)).mpr ?_)
  intro a
  simp only [List.mem_filter, decide_eq_true_eq]
  exact ⟨fun h => ⟨(hf a h.2).2, h.2⟩, fun h => ⟨(hf a h.2).1, h.2⟩⟩

/-- The same certificates are reported of an entry and of the one restored for it. -/
lemma report_of_rel {cutoff : Time} {o o' : Option Cell}
    (h : Option.Rel (fun c c' : Cell => Recovers c.entry c'.entry) o o') :
    (TrackerConfig.report cutoff o).map (fun i => i.cert.map Certificate.raw) =
      (TrackerConfig.report cutoff o').map fun i => i.cert.map Certificate.raw := by
  cases h with
  | none => rfl
  | @some c c' h =>
    simp only [TrackerConfig.report, h.lastActivity, h.state]
    by_cases hst : c.entry.state = .issued
    · have hraw := h.cert_of_issued (h.state.trans hst)
      have hsome : c'.entry.cert.isSome = c.entry.cert.isSome := by
        simpa using congrArg Option.isSome hraw
      rw [hsome]
      split_ifs
      · simp [hraw]
      · rfl
    · simp [hst]

/-- A filter that looks at what is restored. -/
lemma rel_filter {o o' : Option Cell} {p : TransactionEntry → Bool}
    (hp : ∀ e e', Recovers e e' → p e' = p e)
    (h : Option.Rel (fun c c' : Cell => Recovers c.entry c'.entry) o o') :
    Option.Rel (fun c c' : Cell => Recovers c.entry c'.entry) (o.filter fun c => p c.entry)
      (o'.filter fun c => p c.entry) := by
  cases h with
  | none => exact .none
  | @some c c' h =>
    have heq := hp _ _ h
    cases hpc : p c.entry with
    | false =>
      rw [hpc] at heq
      simp only [Option.filter, hpc, heq]
      exact .none
    | true =>
      rw [hpc] at heq
      simp only [Option.filter, hpc, heq]
      exact .some h

lemma Restores.isSome (h : Restores m t') (key : TransactionKey) :
    (t'.cell key).isSome = (m.cell key).isSome := by
  have hrel := h.entries key
  revert hrel
  cases m.cell key <;> cases t'.cell key <;> intro hrel <;> first | rfl | cases hrel

/-- **The same answers** before and after. -/
lemma Restores.answers (h : Restores m t') : AnswersAlike cfg m t' := by
  have hget : ∀ (site : Site) (state : TxnState) (c : Oracle) (key : TransactionKey), ∃ x x',
      (TrackerConfig.getInState site state key).runAt exec c m = some (x, m) ∧
      (TrackerConfig.getInState site state key).runAt exec c t' = some (x', t') ∧
      Option.Rel (fun c c' : Cell => Recovers c.entry c'.entry) x x' := by
    intro site state c key
    refine ⟨_, _, TrackerConfig.getInState_runAt site state key,
      TrackerConfig.getInState_runAt site state key, ?_⟩
    exact rel_filter (p := fun e => e.state = state) (fun e e' he => by rw [he.state])
      (h.entries key)
  refine ⟨fun c credID txID => hget _ _ c _, fun c credID txID => hget _ _ c _,
    fun c credID txID => ?_, fun c maxAge => ?_⟩
  · obtain ⟨m1, hm1⟩ := startIfAbsent_result cfg c m credID txID
    obtain ⟨t1, ht1⟩ := startIfAbsent_result cfg c t' credID txID
    refine ⟨_, m1, t1, hm1, ?_⟩
    rw [ht1]
    simp only [startResult, h.count, h.credentials, h.isSome]
  · obtain ⟨m1, hm1, hcell⟩ := TrackerConfig.cleanupExpired_runAt (c := c) (m := m) maxAge
    obtain ⟨t1, ht1, hcell'⟩ := TrackerConfig.cleanupExpired_runAt (c := c) (m := t') maxAge
    refine ⟨_, m1, _, t1, hm1, ht1, ?_, fun key => ?_⟩
    · unfold TrackerConfig.expiredInfos
      split_ifs
      · rw [List.map_flatMap, List.map_flatMap]
        simp only [← report_of_rel (h.entries _)]
        refine flatMap_perm (TrackerConfig.nodup_rangeKeys _ _) (TrackerConfig.nodup_rangeKeys _ _)
          fun key hkey => ?_
        -- only keys with an entry report anything, and both visit all of those
        cases hm : m.cell key with
        | none =>
          rw [hm] at hkey
          exact absurd rfl hkey
        | some cell =>
          have hsome := h.isSome key
          rw [hm] at hsome
          obtain ⟨cell', ht'⟩ := Option.isSome_iff_exists.mp hsome
          exact ⟨TrackerConfig.mem_rangeKeys hm, TrackerConfig.mem_rangeKeys ht'⟩
      · exact .refl _
    · rw [hcell, hcell']
      refine rel_filter (p := fun e => !TrackerConfig.isExpired maxAge c.time e) (fun e e' he => ?_)
        (h.entries key)
      simp only [TrackerConfig.isExpired, he.lastActivity]

end Answers

/-! ### The lifetime of a server -/

namespace Server

variable (srv : Server)

/-- `snapshotSigner`. -/
def snapshotSigner : Bytes :=
  match srv.cfg.signerCert with
  | none => []
  | some cert => srv.crypto.hash .sha256 cert.raw

/-- `Server.SnapshotTransactions`. -/
def snapshotTransactions (r : Recovery) (m : Tracker) : Except GoError TransactionSnapshot :=
  PkiCmp.snapshotTransactions r srv.snapshotSigner m

/-- `Server.RestoreTransactions`. -/
def restoreTransactions (r : Recovery) (m : Tracker) (snapshot : TransactionSnapshot) :
    Option GoError × Tracker :=
  PkiCmp.restoreTransactions r srv.snapshotSigner srv.tracker.maxTransactions
    srv.tracker.maxTransactionsPerCredential m snapshot

/-- The trackers of a server that is at rest, over a lifetime whose pairs of credentialID and
transactionID are among `P`. -/
inductive Reachable (P : Bytes → Bytes → Prop) : Tracker → Prop
  | fresh (n : ℕ) : Reachable P { nextPtr := n }
  | serve {m : Tracker} {msgs : List PKIMessage}
      {actions : List ServerAction} {s : ServerSys}
      (hm : Reachable P m) (hstarts : ∀ a ∈ actions, srv.StartsOne msgs a)
      (hpairs : ∀ c x, srv.Pairs msgs actions c x → P c x)
      (hrun : Sys.run exec (.init m) actions = some s) (hq : s.Quiescent) : Reachable P s.mem
  | restore {m t' : Tracker} {n : ℕ} {r : Recovery} {snapshot : TransactionSnapshot}
      (hm : Reachable P m) (hsnap : srv.snapshotTransactions r m = .ok snapshot)
      (hrestore : srv.restoreTransactions r { nextPtr := n } snapshot = (none, t')) :
      Reachable P t'

variable {srv} {P : Bytes → Bytes → Prop}

lemma restoreTransactions_eq_none {r : Recovery} {m t' : Tracker} {snapshot : TransactionSnapshot} :
    srv.restoreTransactions r m snapshot = (none, t') ↔
      nextTracker r srv.snapshotSigner srv.tracker.maxTransactions
        srv.tracker.maxTransactionsPerCredential m snapshot = .ok t' := by
  unfold restoreTransactions PkiCmp.restoreTransactions
  split
  · next e h => simp [h]
  · next next h => simp [h]

/-- An outside that may contribute anything. -/
def anything : Outside where
  time _ := True
  cert _ := True
  ref _ := True

/-- What is restored is in order. -/
lemma InOrder.restored {m t' : Tracker} (h : srv.InOrder anything P m)
    (hr : Restores m t') (hl : ∀ sc : Scope, sc.counter t' = t'.countIf sc.has) :
    srv.InOrder anything P t' := by
  have hfrom : ∀ {key c'}, t'.cell key = some c' →
      ∃ c, m.cell key = some c ∧ Recovers c.entry c'.entry := by
    intro key c' hc'
    have hrel := hr.entries key
    rw [hc'] at hrel
    cases hc : m.cell key with
    | none =>
      rw [hc] at hrel
      cases hrel
    | some c =>
      rw [hc] at hrel
      cases hrel with
      | some hrec => exact ⟨c, rfl, hrec⟩
  have hcounter : ∀ sc : Scope, sc.counter t' = sc.counter m := by
    intro sc
    cases sc with
    | none => exact hr.count
    | some ck => exact congrFun hr.credentials ck
  refine ⟨fun {key c'} hc' => ?_, fun key c' hc' => ?_, hl, fun sc => ?_⟩
  · obtain ⟨c, hc, hrec⟩ := hfrom hc'
    rw [hrec.credentialKey]
    exact h.owned hc
  · obtain ⟨c, hc, hrec⟩ := hfrom hc'
    have hfit := h.fit key c hc
    refine ⟨trivial, fun _ _ => trivial, fun _ _ => trivial, fun hp => ?_, fun hi => ?_⟩
    · rw [hrec.senderNonce]
      exact hfit.pending (hrec.state ▸ hp)
    · obtain ⟨cert, hcert, -⟩ := hrec.issued hi
      rw [hrec.issuedSenderNonce, hcert]
      exact ⟨rfl, (hfit.issued (hrec.state ▸ hi)).2⟩
  · rw [← hl sc, hcounter sc, h.counters sc]
    exact h.limits sc

/-- **Over its whole lifetime** a server that is at rest has a tracker in order. -/
lemma Reachable.inOrder (hd : srv.Digests P) (hh : srv.handler = .external) {m : Tracker}
    (h : srv.Reachable P m) : srv.InOrder anything P m := by
  induction h with
  | fresh n => exact .empty n
  | serve _ hstarts hpairs hrun hq ih =>
    refine inOrder_of_run hd hh ih (fun a ha => ⟨hstarts a ha, fun i c _ => ?_⟩) hpairs hrun hq
    exact ⟨trivial, ⟨fun _ _ _ _ => trivial, fun _ _ _ _ => trivial⟩, trivial⟩
  | restore _ hsnap hrestore ih =>
    have hnext := restoreTransactions_eq_none.mp hrestore
    exact ih.restored (restores_of_nextTracker ih.counters hsnap hnext)
      (loads_of_nextTracker hnext).counters

/-- **Snapshot then restore is faithful.**  Whatever is restored from the snapshot of a
server at rest has the same transactions, with the same entries and counters, and
answers as before, as long as no two transactions of its lifetime collide.  A restore that
fails, of whatever document and into whatever tracker, leaves the tracker as it was. -/
theorem snapshot_faithful (srv : Server) (P : Bytes → Bytes → Prop) (hd : srv.Digests P)
    (hh : srv.handler = .external) (r : Recovery) :
    (∀ (m t' : Tracker) (n : ℕ) (snapshot : TransactionSnapshot), srv.Reachable P m →
      srv.snapshotTransactions r m = .ok snapshot →
      srv.restoreTransactions r { nextPtr := n } snapshot = (none, t') →
      Restores m t' ∧ AnswersAlike srv.tracker m t') ∧
    ∀ (t t' : Tracker) (snapshot : TransactionSnapshot) (e : GoError),
      srv.restoreTransactions r t snapshot = (some e, t') → t' = t := by
  refine ⟨fun m t' n snapshot hm hsnap hrestore => ?_, fun t t' snapshot e h => ?_⟩
  · have hr := restores_of_nextTracker (hm.inOrder hd hh).counters hsnap
      (restoreTransactions_eq_none.mp hrestore)
    exact ⟨hr, hr.answers srv.tracker⟩
  · unfold restoreTransactions PkiCmp.restoreTransactions at h
    split at h
    · exact (Prod.mk.inj h).2.symm
    · cases (Prod.mk.inj h).1

/-! ### When a snapshot can be restored -/

/-- What a server may meet before a recovery: a clock that is set and not ahead of the
one of the recovery, certificates that can be parsed, and any references. -/
def beforehand (r : Recovery) : Outside where
  time t := t ≠ 0 ∧ ∀ key, t ≤ r.now key
  cert c := c.raw ≠ [] ∧ ∃ x, r.parseCertificate c.raw = .ok x
  ref _ := True

/-- What the checks of `RestoreTransactions` demand of an entry beyond what serving
ensures. -/
structure Recoverable (r : Recovery) (e : TransactionEntry) : Prop where
  pending : e.state = .pending → e.pollRef ≠ [] ∧ 0 ≤ e.checkAfter
  issueRef : ∀ raw, saveIssueRef r e.issueRef = .ok raw →
    3 + raw.nesting r ≤ maxNestingDepth ∧ ∃ ref, r.unmarshalIssueRef raw = .ok ref

section

variable {r : Recovery} {e : (_ : TransactionKey) × Cell} {saved : SavedTransaction}

/-- An entry that is restored was recoverable. -/
lemma recoverable_of_restoreEntry (hs : SavedAs r e saved)
    (hdeep : 3 + saved.issueRef.nesting r ≤ maxNestingDepth) {entry : TransactionEntry}
    (h : restoreEntry r saved = .ok entry) : Recoverable r e.2.entry := by
  obtain ⟨ref, href, rfl⟩ := hs.eq
  obtain ⟨hr, cert, issueRef, -, hdecode, -⟩ := restoreEntry_eq_ok.mp h
  refine ⟨fun hp => ?_, fun raw hraw => ?_⟩
  · obtain ⟨hpoll, -, hafter⟩ := hr.pending hp
    exact ⟨fun hnil => hpoll (jsonString_eq_nil.mpr hnil), hafter⟩
  · obtain rfl : ref = raw := Except.ok.inj (href.symm.trans hraw)
    exact ⟨hdeep, issueRef, hdecode⟩

/-- A certificate that can be parsed comes back. -/
lemma exists_restoreCertificate {raw : Bytes} (hraw : saved.certificate = raw) (hne : raw ≠ [])
    {x : { c : Certificate // c.raw = raw }} (hx : r.parseCertificate raw = .ok x) :
    ∃ cert, restoreCertificate r saved = .ok cert := by
  subst hraw
  refine ⟨some x.1, ?_⟩
  rw [restoreCertificate, if_neg hne, hx]
  rfl

/-- An entry that serving has left and that is recoverable is restored. -/
lemma restoreEntry_of_recoverable (hs : SavedAs r e saved) (hfit : (beforehand r).Fit e.2.entry)
    (h : Recoverable r e.2.entry) : ∃ entry, restoreEntry r saved = .ok entry := by
  obtain ⟨ref, href, rfl⟩ := hs.eq
  obtain ⟨-, issueRef, hdecode⟩ := h.issueRef ref href
  have hcert : ∃ cert, restoreCertificate r { savedTransaction e.1 e.2.entry ref with
      pollRef := jsonString e.2.entry.pollRef } = .ok cert := by
    cases hc : e.2.entry.cert with
    | none => exact ⟨none, by simp [restoreCertificate, savedTransaction, hc]⟩
    | some c =>
      obtain ⟨hne, x, hx⟩ := hfit.cert c hc
      exact exists_restoreCertificate (by simp [savedTransaction, hc]) hne hx
  obtain ⟨cert, hcert⟩ := hcert
  refine ⟨_, restoreEntry_eq_ok.mpr ⟨⟨hfit.lastActivity.1, ?_, fun hi => ?_, fun hp => ?_⟩, cert,
    issueRef, hcert, hdecode, rfl⟩⟩
  · have hminute : (0 : ℤ) ≤ 60 * Time.second := by decide
    exact le_trans (hfit.lastActivity.2 e.1) (le_add_of_nonneg_right hminute)
  · obtain ⟨hsome, hnonce⟩ := hfit.issued hi
    obtain ⟨c, hc⟩ := Option.isSome_iff_exists.mp hsome
    refine ⟨?_, hnonce⟩
    simpa [savedTransaction, hc] using (hfit.cert c hc).1
  · obtain ⟨hpoll, hafter⟩ := h.pending hp
    exact ⟨fun hnil => hpoll (jsonString_eq_nil.mp hnil), hfit.pending hp, hafter⟩

end

lemma map_eq_of_forall₂ {α β γ : Type} {R : α → β → Prop} {f : α → γ} {g : β → γ}
    (hR : ∀ a b, R a b → f a = g b) {l : List α} {l' : List β} (h : List.Forall₂ R l l') :
    l.map f = l'.map g := by
  induction h with
  | nil => rfl
  | cons hab _ ih => rw [List.map_cons, List.map_cons, hR _ _ hab, ih]

/-- The counter of a credential has room for another of its entries. -/
lemma room_of_countP {l done rest : List SavedTransaction} {s : SavedTransaction} {limit : ℤ}
    (hl : l = done ++ s :: rest)
    (hlimit : (l.countP (fun s' => s'.credential = s.credential) : ℤ) ≤ max 0 limit) :
    (done.countP (fun s' => s'.credential = s.credential) : ℤ) + 1 ≤ limit := by
  rw [hl, List.countP_append, List.countP_cons] at hlimit
  simp only [decide_true, if_true] at hlimit
  push_cast at hlimit
  omega

/-- **When a snapshot can be restored**: with the same signer and limits, a clock that is
not behind and no decoder of its own, `RestoreTransactions` takes the snapshot of a
server that has come to rest, and in whose run no two transactions have collided, exactly when
the limit is not negative and every entry is recoverable. -/
theorem restore_iff (srv : Server) (hh : srv.handler = .external) (r : Recovery)
    (actions : List ServerAction) (s : ServerSys)
    (msgs : List PKIMessage) (hd : srv.Digests (srv.Pairs msgs actions))
    (hserves : ∀ a ∈ actions, srv.Serves (beforehand r) msgs a)
    (hrun : Sys.run exec (.init {}) actions = some s) (hq : s.Quiescent)
    (snapshot : TransactionSnapshot) (hsnap : srv.snapshotTransactions r s.mem = .ok snapshot)
    (n : ℕ) :
    (srv.restoreTransactions r { nextPtr := n } snapshot).1 = none ↔
      0 ≤ srv.tracker.maxTransactions ∧
        ∀ key cell, s.mem.cell key = some cell → Recoverable r cell.entry := by
  have hord := inOrder_of_run hd hh (.empty 0) hserves (fun _ _ h => h) hrun hq
  obtain ⟨hversion, hsigner, hlen, es, hperm, hes⟩ := snapshotTransactions_eq_ok hsnap
  have hlookup : ∀ {key c}, (⟨key, c⟩ : (_ : TransactionKey) × Cell) ∈ es ↔
      s.mem.cell key = some c := fun {key c} => hperm.mem_iff.trans AList.mem_lookup_iff.symm
  have hnone : (srv.restoreTransactions r { nextPtr := n } snapshot).1 = none ↔
      ∃ t', nextTracker r srv.snapshotSigner srv.tracker.maxTransactions
        srv.tracker.maxTransactionsPerCredential { nextPtr := n } snapshot = .ok t' := by
    simp only [← restoreTransactions_eq_none]
    exact ⟨fun h => ⟨_, Prod.ext h rfl⟩, fun ⟨t', h⟩ => by rw [h]⟩
  rw [hnone]
  constructor
  · rintro ⟨t', ht'⟩
    have hload := loads_of_nextTracker ht'
    obtain ⟨-, -, hdeep, -, -, hmax, -⟩ := nextTracker_eq_ok.mp ht'
    refine ⟨by omega, fun key cell hcell => ?_⟩
    obtain ⟨saved, hsaved, hs⟩ := Fallible.exists_of_forall₂ hes.flip (hlookup.mpr hcell)
    obtain ⟨c', -, hentry⟩ := hload.found saved hsaved
    exact recoverable_of_restoreEntry (e := ⟨key, cell⟩) hs (hdeep saved hsaved) hentry
  · rintro ⟨hpos, hall⟩
    have hentry : ∀ saved ∈ snapshot.entries, ∃ entry, restoreEntry r saved = .ok entry := by
      intro saved hsaved
      obtain ⟨e, he, hs⟩ := Fallible.exists_of_forall₂ hes hsaved
      have hcell := hlookup.mp he
      exact restoreEntry_of_recoverable hs (hord.fit _ _ hcell) (hall _ _ hcell)
    have hdeep : ∀ saved ∈ snapshot.entries, 3 + saved.issueRef.nesting r ≤ maxNestingDepth := by
      intro saved hsaved
      obtain ⟨e, he, hs⟩ := Fallible.exists_of_forall₂ hes hsaved
      obtain ⟨ref, href, rfl⟩ := hs.eq
      exact ((hall _ _ (hlookup.mp he)).issueRef ref href).1
    -- keys are distinct, and what is counted is what was there
    have hkeys : (snapshot.entries.map SavedTransaction.key).Nodup := by
      have hmap : es.map Sigma.fst = snapshot.entries.map SavedTransaction.key :=
        map_eq_of_forall₂ (f := Sigma.fst) (g := SavedTransaction.key)
          (fun e saved h => (SavedAs.key h).symm) hes
      rw [← hmap]
      exact (hperm.map Sigma.fst).nodup_iff.mpr s.mem.transactions.nodupKeys
    have hcreds : ∀ ck, (snapshot.entries.countP (fun saved => saved.credential = ck) : ℤ) ≤
        max 0 srv.tracker.maxTransactionsPerCredential := by
      intro ck
      have hcount : es.countP (fun e => Scope.has (some ck) e.2.entry) =
          snapshot.entries.countP fun saved => saved.credential = ck :=
        countP_eq_of_forall₂ (fun e saved h => by simp only [Scope.has, SavedAs.credential h]) hes
      rw [← hcount, hperm.countP_eq]
      exact hord.limits (some ck)
    have hsize : (snapshot.entries.length : ℤ) ≤ srv.tracker.maxTransactions := by
      have hlimit := hord.limits none
      simp only [Tracker.countIf, Scope.has, List.countP_true, Scope.limit, max_eq_right hpos]
        at hlimit
      rwa [← hes.length_eq, hperm.length_eq]
    have hloop : ∃ t', snapshot.entries.foldlM
        (Tracker.restoreOne r srv.tracker.maxTransactionsPerCredential) { nextPtr := n } =
          .ok t' := by
      refine Fallible.exists_foldlM_ok (P := Loads r) (.empty n) fun done saved rest t1 hl hload =>
        ?_
      obtain ⟨entry, he⟩ := hentry saved (by simp [hl])
      -- the key is not among those before it
      have hfree : t1.cell saved.key = none := by
        cases hcell : t1.cell saved.key with
        | none => rfl
        | some c =>
          obtain ⟨saved', hmem, hkey⟩ := hload.only _ c hcell
          rw [hl, List.map_append, List.map_cons] at hkeys
          exact absurd hkey (List.nodup_append.mp hkeys |>.2.2 _ (List.mem_map_of_mem hmem) _
            List.mem_cons_self)
      have hroom : t1.credentialCounts saved.credential + 1 ≤
          srv.tracker.maxTransactionsPerCredential := by
        rw [hload.credentials]
        exact room_of_countP hl (hcreds saved.credential)
      have hone := Tracker.restoreOne_eq_ok.mpr ⟨entry, he, hfree, hroom, rfl⟩
      exact ⟨_, hone, hload.turn hone⟩
    obtain ⟨t', ht'⟩ := hloop
    exact ⟨t', nextTracker_eq_ok.mpr ⟨rfl, hlen, hdeep, hversion, hsigner, hsize, ht'⟩⟩

/-! ### Concrete runs -/

/-- Libraries whose digests are the last 32 octets of the input. -/
def tailCrypto : Crypto :=
  { Crypto.sample with hash := fun _ b => ((b.reverse ++ List.replicate 32 0).take 32).reverse }

/-- A server over them. -/
def tailServer : Server := .new tailCrypto 0 .external { secretLookup := true }

/-- A certificate request, and a poll for another transaction. -/
def tailRequests : List PKIMessage :=
  [received tailCrypto (.p10cr { raw := [0x30, 0x00] }) [],
    received tailCrypto (.pollReq [-1]) (List.replicate 16 0) [2]]

/-- The handler answers the request, and the poll finds nothing. -/
def tailRun (resp : Response) (steps : ℕ) :
    List ServerAction :=
  tailRequests.map (fun msg => .spawn (tailServer.processMessage msg)) ++
    List.replicate steps (.step 0 { sampleOracle 1 with result := { response := some resp } }) ++
    List.replicate 6 (.step 1 { sampleOracle 1 with result := { response := some resp } })

lemma mem_tailRun {resp : Response} {steps : ℕ}
    {a : ServerAction} (h : a ∈ tailRun resp steps) :
    (∃ msg ∈ tailRequests, a = .spawn (tailServer.processMessage msg)) ∨
      ∃ i, a = .step i { sampleOracle 1 with result := { response := some resp } } := by
  obtain h | h := List.mem_append.mp h
  · obtain h | h := List.mem_append.mp h
    · obtain ⟨msg, hmsg, rfl⟩ := List.mem_map.mp h
      exact .inl ⟨msg, hmsg, rfl⟩
    · exact .inr ⟨0, List.eq_of_mem_replicate h⟩
  · exact .inr ⟨1, List.eq_of_mem_replicate h⟩

lemma serves_of_tailRun {resp : Response} (hcert : ∀ c, resp.certificate = some c → c.raw ≠ [])
    (steps : ℕ) :
    ∀ a ∈ tailRun resp steps, tailServer.Serves (beforehand (.sample 1)) tailRequests a := by
  intro a ha
  obtain ⟨msg, hmsg, rfl⟩ | ⟨i, rfl⟩ := mem_tailRun ha
  · refine ⟨fun p h => ?_, fun i c h => by cases h⟩
    cases h
    exact .inl ⟨msg, hmsg, rfl⟩
  · refine ⟨fun p h => (by cases h), fun i c h => ?_⟩
    cases h
    refine ⟨⟨one_ne_zero, fun _ => le_rfl⟩, ⟨fun resp' c hresp hc => ?_, fun _ _ _ _ => trivial⟩,
      trivial⟩
    cases hresp
    exact ⟨hcert c hc, _, rfl⟩

/-- The credential of the messages. -/
def tailCredential : Bytes :=
  tailCrypto.hash .sha256
    (str "cmp-mac" ++ lengthPrefixed [] ++ lengthPrefixed [0xa4, 0x02, 0x30, 0x00])

/-- The run names two transactions of one credential. -/
lemma eq_of_tailPairs {resp : Response} {steps : ℕ} {c x : Bytes}
    (h : tailServer.Pairs tailRequests (tailRun resp steps) c x) :
    c = tailCredential ∧ (x = [1] ∨ x = [2]) := by
  have hrequests : ∀ msg ∈ tailRequests,
      ((tailServer.verifyProtection (sampleOracle 1).verifier msg).toOption.bind fun s =>
        (s.credentialID tailCrypto).toOption) = some tailCredential ∧
      (msg.header.transactionID = [1] ∨ msg.header.transactionID = [2]) := by
    decide +kernel
  obtain ⟨msg, hmsg, q, sender, ⟨harrived, v, s, ⟨i, c', hstep, rfl⟩, hs, hsender⟩, hcred, hx⟩ := h
  obtain rfl : q = msg := harrived.resolve_right fun h => by cases h
  obtain ⟨hcredential, htx⟩ := hrequests q hmsg
  obtain ⟨_, _, h⟩ | ⟨j, h⟩ := mem_tailRun hstep
  · cases h
  · cases h
    have hverified : tailServer.verifyProtection (sampleOracle 1).verifier q = .ok s := hs
    rw [hverified] at hcredential
    rw [hsender] at hcred
    have hok : s.credentialID tailCrypto = .ok c := hcred
    simp only [Except.toOption, Option.bind_some, hok] at hcredential
    refine ⟨Option.some.inj hcredential, hx.elim (fun h => h ▸ htx) fun h => ?_⟩
    rw [h.1] at htx
    simp at htx

lemma tailServer_digests (resp : Response) (steps : ℕ) :
    tailServer.Digests (tailServer.Pairs tailRequests (tailRun resp steps)) where
  length b := by simp [tailServer, Server.new, tailCrypto]
  collisionFree := by
    intro c x c' x' h h' hkey
    obtain ⟨rfl, hx⟩ := eq_of_tailPairs h
    obtain ⟨rfl, hx'⟩ := eq_of_tailPairs h'
    have hne : tailServer.tracker.makeKey tailCredential [1] ≠
        tailServer.tracker.makeKey tailCredential [2] := by decide +kernel
    obtain rfl | rfl := hx
    · obtain rfl | rfl := hx'
      · rfl
      · exact absurd hkey hne
    · obtain rfl | rfl := hx'
      · exact absurd hkey.symm hne
      · rfl

/-- The run comes to rest with one transaction, and its snapshot can be taken; whether it can be
restored. -/
def tailOutcome (resp : Response) (steps : ℕ) : Option Bool :=
  match Sys.run exec (.init {}) (tailRun resp steps) with
  | none => none
  | some s =>
    if s.Quiescent ∧ s.mem.count = 1 then
      match tailServer.snapshotTransactions (.sample 1) s.mem with
      | .error _ => none
      | .ok snapshot => some (tailServer.restoreTransactions (.sample 1) {} snapshot).1.isNone
    else none

lemma tailOutcome_eq_some (resp : Response) (steps : ℕ) (b : Bool)
    (h : tailOutcome resp steps = some b) :
    ∃ s snapshot, Sys.run exec (.init {}) (tailRun resp steps) = some s ∧ s.Quiescent ∧
      s.mem.count = 1 ∧ tailServer.snapshotTransactions (.sample 1) s.mem = .ok snapshot ∧
      (tailServer.restoreTransactions (.sample 1) {} snapshot).1.isNone = b := by
  unfold tailOutcome at h
  split at h
  · cases h
  · next s hs =>
    split_ifs at h with hq
    split at h
    · cases h
    · next snapshot hsnap => exact ⟨s, snapshot, hs, hq.1, hq.2, hsnap, Option.some.inj h⟩

/-- The transaction of an issued certificate comes back. -/
theorem snapshot_faithful_issued :
    ∃ P m t' snapshot, tailServer.Reachable P m ∧ m.count = 1 ∧
      tailServer.snapshotTransactions (.sample 1) m = .ok snapshot ∧
      tailServer.restoreTransactions (.sample 1) {} snapshot = (none, t') ∧ Restores m t' := by
  obtain ⟨s, snapshot, hs, hq, hone, hsnap, hnone⟩ := tailOutcome_eq_some
    { certificate := some sampleCertificate } 16 true
    (by decide +kernel)
  have hreach : tailServer.Reachable (tailServer.Pairs tailRequests
      (tailRun { certificate := some sampleCertificate } 16)) s.mem :=
    .serve (.fresh 0) (fun a ha => (serves_of_tailRun (by simp [sampleCertificate]) 16 a ha).1)
      (fun _ _ h => h) hs hq
  have hrestore : tailServer.restoreTransactions (.sample 1) {} snapshot =
      (none, (tailServer.restoreTransactions (.sample 1) {} snapshot).2) :=
    Prod.ext (Option.isNone_iff_eq_none.mp hnone) rfl
  exact ⟨_, s.mem, _, snapshot, hreach, hone, hsnap, hrestore,
    ((snapshot_faithful tailServer _ (tailServer_digests _ _) rfl (.sample 1)).1 s.mem _ 0 snapshot
      hreach hsnap hrestore).1⟩

/-- A handler that lets the client wait without a `PollRef` of its own leaves a snapshot
that cannot be restored. -/
theorem snapshot_not_restorable :
    ∃ actions s snapshot,
      (∀ a ∈ actions, tailServer.Serves (beforehand (.sample 1)) tailRequests a) ∧
      tailServer.Digests (tailServer.Pairs tailRequests actions) ∧
      Sys.run exec (.init {}) actions = some s ∧ s.Quiescent ∧
      tailServer.snapshotTransactions (.sample 1) s.mem = .ok snapshot ∧
      (tailServer.restoreTransactions (.sample 1) {} snapshot).1 ≠ none := by
  obtain ⟨s, snapshot, hs, hq, -, hsnap, hsome⟩ := tailOutcome_eq_some
    { waiting := some { checkAfter := 5, pollRef := [] } } 15 false
    (by decide +kernel)
  refine ⟨_, s, snapshot, serves_of_tailRun (by simp) 15, tailServer_digests _ _, hs, hq, hsnap,
    fun h => ?_⟩
  rw [h] at hsome
  cases hsome

/-- With a certificate the same server leaves one that can, and its entry is
recoverable. -/
theorem restore_iff_issued :
    ∃ s snapshot, Sys.run exec (.init {})
        (tailRun { certificate := some sampleCertificate } 16) = some s ∧ s.mem.count = 1 ∧
      (tailServer.restoreTransactions (.sample 1) {} snapshot).1 = none ∧
      ∀ key cell, s.mem.cell key = some cell → Recoverable (.sample 1) cell.entry := by
  obtain ⟨s, snapshot, hs, hq, hone, hsnap, hnone⟩ := tailOutcome_eq_some
    { certificate := some sampleCertificate } 16 true
    (by decide +kernel)
  have hnone := Option.isNone_iff_eq_none.mp hnone
  exact ⟨s, snapshot, hs, hone, hnone, ((restore_iff tailServer rfl (.sample 1) _ s tailRequests
    (tailServer_digests _ _) (serves_of_tailRun (by simp [sampleCertificate]) 16) hs hq snapshot
    hsnap 0).mp hnone).2⟩

end Server

end PkiCmp
