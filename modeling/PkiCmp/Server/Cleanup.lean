/-
The cleanup of a server that does one thing at a time (`CleanupExpired`), and the numbers
of its transactions.

* `clockOf`, `expiryOf`: what an operation says about the clock and about certificates
  that are reported as expired;
* `Swept`, `swept_of_runs`: **one cleanup** removes the entries that are older than the
  confirmation time, and reports those that wait for their confirmation;
* `Tracker.Gone`: the transaction has no entry any more, and gets none;
* `expiries_of_thread`: nothing is reported about it, and what is reported is over.
-/
import PkiCmp.Server.Isolation
import PkiCmp.Server.Sequence

namespace PkiCmp

open Der Interact

/-- The operations that belong to a running server and report nothing as expired. -/
def Effect.Ordinary : Effect → Prop
  | .restart .. | .confirmCertificate _ .expired _ _ => False
  | _ => True

/-- The operations on the entries of a cleanup. -/
def Effect.Sweeping : Effect → Prop
  | .load .. | .loadAndDelete .. | .countAdd .. | .getOrCreateCredCount .. | .credCountAdd .. =>
    True
  | _ => False

lemma Effect.Sweeping.ordinary {o : Effect} (h : o.Sweeping) : o.Ordinary := by
  cases o <;> first | exact h.elim | trivial

namespace Server

/-! ### What a trace tells -/

/-- The clock, as an operation has read it. -/
def clockOf : ServerEvent → Option Time
  | ⟨.now, t⟩ => some t
  | ⟨.verifier, v⟩ => some (Verifier.now v)
  | _ => none

/-- The certificate of the transaction that an operation reports as expired. -/
def expiryOf (txn : ℕ) : ServerEvent → Option (Certificate × Option IssueRef)
  | ⟨.confirmCertificate cert .expired issueRef (some n), _⟩ =>
    if n = txn then some (cert, issueRef) else none
  | _ => none

/-- The reports about the transaction. -/
def expiries (txn : ℕ) (tr : History) : List (Certificate × Option IssueRef) :=
  tr.filterMap (expiryOf txn)

lemma expiries_append (txn : ℕ) (tr tr' : History) :
    expiries txn (tr ++ tr') = expiries txn tr ++ expiries txn tr' := List.filterMap_append

lemma expiries_of_ordinary {tr : History} (h : Within Effect.Ordinary tr) (txn : ℕ) :
    expiries txn tr = [] := by
  refine List.filterMap_eq_nil_iff.mpr fun e he => ?_
  have ho := h e he
  obtain ⟨o, x⟩ := e
  cases o with
  | confirmCertificate cert status issueRef n =>
    cases status with
    | expired => exact ho.elim
    | _ => rfl
  | _ => rfl

lemma clock_of_sweeping {tr : History} (h : Within Effect.Sweeping tr) :
    tr.filterMap clockOf = [] := by
  refine List.filterMap_eq_nil_iff.mpr fun e he => ?_
  have ho := h e he
  obtain ⟨o, x⟩ := e
  cases o <;> first | exact ho.elim | rfl

/-! ### One cleanup -/

section

variable {m m' : Tracker} {tr : History}

lemma release_sweeping {ck : CredentialKey} (h : (TrackerConfig.release ck).Runs exec m tr () m') :
    Within Effect.Sweeping tr ∧ m'.cell = m.cell := by
  have hp : Prog.Only Effect.Sweeping (TrackerConfig.release ck) :=
    ⟨trivial, fun _ => ⟨trivial, fun _ => ⟨trivial, fun _ => trivial⟩⟩⟩
  rw [TrackerConfig.release_runs h]
  exact ⟨.of_only hp h.steps, rfl⟩

variable {infos : List IssuedInfo}

/-- One visit of a cleanup. -/
lemma expire_runs {cutoff : Time} {key : TransactionKey}
    (h : (TrackerConfig.expire cutoff key).Runs exec m tr infos m') :
    Within Effect.Sweeping tr ∧ infos = TrackerConfig.report cutoff (m.cell key) ∧
      m'.cell = Function.update m.cell key
        ((m.cell key).filter fun cell => !cell.entry.lastActivity.before cutoff) := by
  simp only [TrackerConfig.expire, perform, Prog.call_bind] at h
  obtain ⟨value, tr, _, m1, rfl, hx, hvisit⟩ := Prog.runs_op_iff.mp h
  obtain ⟨hload, rfl⟩ := (exec_mapStep hx).loaded
  rw [hload]
  cases value with
  | none =>
    obtain ⟨rfl, rfl, rfl⟩ := Prog.runs_ret_iff.mp hvisit
    refine ⟨.cons trivial .nil, rfl, ?_⟩
    rw [Option.filter_none, ← hload, Function.update_eq_self]
  | some c =>
    dsimp only at hvisit
    by_cases hold : c.entry.lastActivity.before cutoff
    · rw [if_pos hold] at hvisit
      obtain ⟨removed, tr, _, m1, rfl, hx, htake⟩ := Prog.runs_op_iff.mp hvisit
      obtain ⟨hremoved, rfl⟩ := (exec_mapStep hx).removed
      rw [← hremoved, hload, Option.isSome_some, if_pos rfl] at htake
      obtain ⟨tr1, tr2, ⟨⟩, m2, rfl, h1, h2⟩ := Prog.runs_bind_iff.mp htake
      obtain ⟨hsweep, hcell⟩ := release_sweeping h1
      have hret : tr2 = [] ∧ infos = TrackerConfig.report cutoff (some c) ∧ m' = m2 := by
        simp only [TrackerConfig.report, hold, true_and]
        split_ifs at h2 with hissued
        · rw [if_pos hissued]
          exact Prog.runs_ret_iff.mp h2
        · rw [if_neg hissued]
          exact Prog.runs_ret_iff.mp h2
      obtain ⟨rfl, rfl, rfl⟩ := hret
      refine ⟨.cons trivial (.cons trivial (hsweep.append .nil)), rfl, ?_⟩
      rw [hcell, Option.filter_some, hold]
      funext key'
      rw [Tracker.cell_remove, Function.update_apply]
      rfl
    · rw [if_neg hold] at hvisit
      obtain ⟨rfl, rfl, rfl⟩ := Prog.runs_ret_iff.mp hvisit
      refine ⟨.cons trivial .nil, ?_, ?_⟩
      · simp [TrackerConfig.report, hold]
      · rw [Option.filter_some, Bool.eq_false_iff.mpr hold, Bool.not_false, if_pos rfl, ← hload,
          Function.update_eq_self]

/-- All visits of a cleanup. -/
lemma expireAll_runs {cutoff : Time} {keys : List TransactionKey} (hkeys : keys.Nodup)
    (h : (TrackerConfig.expireAll cutoff keys).Runs exec m tr infos m') :
    Within Effect.Sweeping tr ∧
      infos = keys.flatMap (fun key => TrackerConfig.report cutoff (m.cell key)) ∧
      ∀ key, m'.cell key = if key ∈ keys then
        (m.cell key).filter fun cell => !cell.entry.lastActivity.before cutoff else m.cell key := by
  induction keys generalizing m tr infos with
  | nil =>
    obtain ⟨rfl, rfl, rfl⟩ := Prog.runs_ret_iff.mp h
    exact ⟨.nil, rfl, by simp⟩
  | cons key keys ih =>
    obtain ⟨hnew, hkeys⟩ := List.nodup_cons.mp hkeys
    obtain ⟨tr1, _, e, m1, rfl, h1, hrest⟩ := Prog.runs_bind_iff.mp h
    obtain ⟨tr2, tr3, es, m2, rfl, h2, h3⟩ := Prog.runs_bind_iff.mp hrest
    obtain ⟨rfl, rfl, rfl⟩ := Prog.runs_ret_iff.mp h3
    obtain ⟨hsweep1, rfl, hcell1⟩ := expire_runs h1
    obtain ⟨hsweep2, rfl, hcell2⟩ := ih hkeys h2
    -- the other keys are visited as they were
    have hothers : (keys.flatMap fun key' => TrackerConfig.report cutoff (m1.cell key')) =
        keys.flatMap fun key' => TrackerConfig.report cutoff (m.cell key') := by
      refine List.flatMap_congr fun key' hmem => ?_
      rw [hcell1, Function.update_of_ne]
      rintro rfl
      exact hnew hmem
    refine ⟨hsweep1.append (hsweep2.append .nil), ?_, fun key' => ?_⟩
    · rw [List.flatMap_cons, hothers]
    · rw [hcell2, hcell1]
      by_cases hk : key' = key
      · subst hk
        rw [Function.update_self]
        simp
      · rw [Function.update_of_ne hk]
        simp [hk]

/-- The report that the entry of a transaction leads to. -/
def expiryOfInfo (txn : ℕ) (info : IssuedInfo) : Option (Certificate × Option IssueRef) :=
  if info.txn = txn then info.cert.map fun cert => (cert, info.issueRef) else none

lemma notifyExpired_runs (h : (notifyExpired infos).Runs exec m tr () m') :
    m' = m ∧ tr.filterMap clockOf = [] ∧
      ∀ txn, expiries txn tr = infos.filterMap (expiryOfInfo txn) := by
  induction infos generalizing m tr with
  | nil =>
    obtain ⟨rfl, -, rfl⟩ := Prog.runs_ret_iff.mp h
    exact ⟨rfl, rfl, fun _ => rfl⟩
  | cons info infos ih =>
    rw [notifyExpired] at h
    cases hcert : info.cert with
    | none =>
      rw [hcert] at h
      obtain ⟨rfl, hclock, hexp⟩ := ih h
      refine ⟨rfl, hclock, fun txn => ?_⟩
      rw [hexp, List.filterMap_cons, expiryOfInfo, hcert, Option.map_none, ite_self]
    | some cert =>
      rw [hcert] at h
      obtain ⟨x, tr, _, m1, rfl, hx, hrest⟩ := Prog.runs_op_iff.mp h
      cases hx
      obtain ⟨rfl, hclock, hexp⟩ := ih hrest
      refine ⟨rfl, hclock, fun txn => ?_⟩
      have hcons : ∀ e, expiries txn (e :: tr) = (expiryOf txn e).toList ++ expiries txn tr := by
        intro e
        rw [expiries, List.filterMap_cons]
        cases expiryOf txn e <;> rfl
      rw [hcons, hexp, List.filterMap_cons, expiryOfInfo, hcert, Option.map_some, expiryOf]
      split_ifs <;> rfl

/-- The reports of a cleanup, if there is a confirmer. -/
lemma notify_runs {confirmer : Bool}
    (h : (if confirmer then notifyExpired infos else pure ()).Runs exec m tr () m') :
    m' = m ∧ tr.filterMap clockOf = [] ∧ ∀ txn, expiries txn tr =
      if confirmer then infos.filterMap (expiryOfInfo txn) else [] := by
  cases confirmer with
  | true => exact notifyExpired_runs h
  | false =>
    obtain ⟨rfl, -, rfl⟩ := Prog.runs_ret_iff.mp h
    exact ⟨rfl, rfl, fun _ => rfl⟩

lemma within_of_cleanup {srv : Server} {p : ServerThread}
    (h : Prog.Steps (srv.cleanupExpired >>= fun _ => pure none) tr p) :
    Within Effect.Expiring tr :=
  .of_only (srv.cleanupExpired_only.bind (f := fun _ => pure none) fun _ => trivial) h

/-- Everything that one cleanup does: it reads the clock once, visits all keys, removes
the entries that are too old, and reports those that wait for their confirmation. -/
structure Swept (srv : Server) (m : Tracker) (tr : History) (m' : Tracker) (now : Time)
    (keys : List TransactionKey) : Prop where
  clock : tr.filterMap clockOf = [now]
  nodup : keys.Nodup
  all : ∀ {key c}, m.cell key = some c → key ∈ keys
  cells : ∀ key, m'.cell key =
    (m.cell key).filter fun c => !c.entry.lastActivity.before (now - srv.cfg.confirmWait)
  reports : ∀ txn, expiries txn tr = if srv.cfg.confirmer then
      (keys.flatMap fun key =>
        TrackerConfig.report (now - srv.cfg.confirmWait) (m.cell key)).filterMap
        (expiryOfInfo txn)
    else []

/-- **One cleanup.** -/
lemma swept_of_runs {srv : Server} {resp : Option PKIMessage} (hd : 0 < srv.cfg.confirmWait)
    (h : (srv.cleanupExpired >>= fun _ => pure none).Runs exec m tr resp m') :
    ∃ now keys, srv.Swept m tr m' now keys := by
  obtain ⟨tr0, _, ⟨⟩, m0, rfl, hclean, hret⟩ := Prog.runs_bind_iff.mp h
  obtain ⟨rfl, -, rfl⟩ := Prog.runs_ret_iff.mp hret
  rw [List.append_nil]
  obtain ⟨tr1, tr2, infos, m1, rfl, hexpire, hnotify⟩ := Prog.runs_bind_iff.mp hclean
  rw [TrackerConfig.cleanupExpired, if_neg (not_le.mpr hd)] at hexpire
  simp only [perform, Prog.call_bind] at hexpire
  obtain ⟨now, tr3, clock, m2, rfl, hx, hexpire'⟩ := Prog.runs_op_iff.mp hexpire
  cases hx
  obtain ⟨keys, tr4, order, m3, rfl, hx, hall⟩ := Prog.runs_op_iff.mp hexpire'
  cases hx
  obtain ⟨hsweep, rfl, hcells⟩ := expireAll_runs (TrackerConfig.nodup_rangeKeys m _) hall
  obtain ⟨rfl, hclock, hexp⟩ := notify_runs hnotify
  refine ⟨clock.time, m.rangeKeys order.keys, ?_, TrackerConfig.nodup_rangeKeys m _,
    TrackerConfig.mem_rangeKeys, fun key => ?_, fun txn => ?_⟩
  · show clock.time :: (tr4 ++ tr2).filterMap clockOf = [clock.time]
    rw [List.filterMap_append, clock_of_sweeping hsweep, hclock, List.nil_append]
  · rw [hcells]
    split_ifs with hkey
    · rfl
    · cases hcell : m.cell key with
      | none => rfl
      | some c => exact absurd (TrackerConfig.mem_rangeKeys hcell) hkey
  · rw [expiries_append, hexp]
    have hquiet : Within Effect.Ordinary
        (⟨.now, clock.time⟩ :: ⟨.range, m.rangeKeys order.keys⟩ :: tr4) :=
      .cons trivial (.cons trivial (hsweep.mono fun _ => Effect.Sweeping.ordinary))
    rw [expiries_of_ordinary hquiet, List.nil_append]

end

end Server

/-! ### Transactions that are over -/

/-- The transaction was started and has no entry any more. -/
structure Tracker.Gone (m : Tracker) (txn : ℕ) : Prop where
  past : txn < m.nextPtr
  absent : ∀ {key c}, m.cell key = some c → c.txn ≠ txn

lemma Tracker.Gone.of_publish {m : Tracker} {n txn : ℕ} (h : m.Gone n) (key : TransactionKey)
    (entry : TransactionEntry) (htxn : txn ≠ n) : (m.publish key entry txn).Gone n := by
  refine ⟨Nat.lt_succ_of_lt h.past, fun {key' c} hc => ?_⟩
  rw [cell_publish] at hc
  split_ifs at hc
  · cases hc
    exact htxn
  · exact h.absent hc

/-- The entry of a transaction was taken out, and nothing was stored. -/
lemma Tracker.Wf.gone {m m' : Tracker} (hw : m.Wf) {key : TransactionKey} {c : Cell}
    (hc : m.cell key = some c) (hnext : m.nextPtr ≤ m'.nextPtr)
    (hcells : ∀ {key' c'}, m'.cell key' = some c' → key' ≠ key ∧ m.cell key' = some c') :
    m'.Gone c.txn := by
  refine ⟨(hw.started hc).trans_le hnext, fun {key' c'} hc' heq => ?_⟩
  obtain ⟨hne, hold⟩ := hcells hc'
  exact hne (hw.single hold hc heq)

/-- A transaction that is over gets no entry again. -/
lemma MapStep.gone {t t' : Tracker} {o : Effect} {x : o.Res} {n : ℕ} (h : MapStep t o x t')
    (hg : t.Gone n) : t'.Gone n := by
  cases h with
  | store key entry h => exact hg.of_publish key entry hg.past.ne'
  | swap site key cell new h => exact hg.of_publish key new (hg.absent h)
  | delete site key judged =>
    refine ⟨hg.past, fun {key' c} hc => ?_⟩
    rw [Tracker.cell_remove] at hc
    split_ifs at hc
    exact hg.absent hc
  | restart r a b w t' h =>
    refine Tracker.restart_induction (P := fun t => t.Gone n) h ⟨hg.past, nofun⟩ ?_
    intro t1 key _ e' h1 _ _ _
    have h2 := h1.of_publish key (if w then e' else { e' with certReqID := none }) h1.past.ne'
    exact ⟨h2.past, h2.absent⟩
  | other x t' ho hc hn =>
    refine ⟨hn ▸ hg.past, fun {key c} h => @hg.absent key c ?_⟩
    unfold Tracker.cell at h ⊢
    rw [← hc]
    exact h
  | _ => exact hg

/-- Numbers are not given out twice. -/
lemma MapStep.nextPtr_le {t t' : Tracker} {o : Effect} {x : o.Res} (h : MapStep t o x t') :
    t.nextPtr ≤ t'.nextPtr := by
  cases h with
  | store key entry h => exact Nat.le_succ _
  | swap site key cell new h => exact Nat.le_succ _
  | restart r a b w t' h =>
    exact Tracker.restart_induction (P := fun t1 => t.nextPtr ≤ t1.nextPtr) h le_rfl
      fun t1 key c e' h1 _ _ _ => Nat.le_succ_of_le h1
  | other x t' ho hc hn => exact hn.ge
  | _ => exact le_rfl

namespace Server

section

variable {m m' : Tracker} {tr : History}

lemma nextPtr_le_of_does (hd : Does exec m tr m') : m.nextPtr ≤ m'.nextPtr := by
  induction hd with
  | nil m => exact le_rfl
  | cons hx _ ih => exact (exec_mapStep hx).nextPtr_le.trans ih

lemma wf_of_does (hd : Does exec m tr m') (hw : m.Wf) : m'.Wf := by
  induction hd with
  | nil m => exact hw
  | cons hx _ ih => exact ih ((exec_mapStep hx).wf hw)

lemma gone_of_does {txn : ℕ} (hd : Does exec m tr m') (hg : m.Gone txn) : m'.Gone txn := by
  induction hd with
  | nil m => exact hg
  | cons hx _ ih => exact ih ((exec_mapStep hx).gone hg)

end

/-! ### Reports -/

section

variable {srv : Server} {m m' : Tracker} {tr : History} {now : Time} {keys : List TransactionKey}

lemma report_of_ne {cutoff : Time} {c : Cell} {txn : ℕ} (h : c.txn ≠ txn) :
    (TrackerConfig.report cutoff (some c)).filterMap (expiryOfInfo txn) = [] := by
  rw [TrackerConfig.report]
  split_ifs
  · simp [expiryOfInfo, h]
  · rfl

/-- Nothing is reported about a transaction without an entry. -/
lemma Swept.expiries_of_absent (h : srv.Swept m tr m' now keys) {txn : ℕ}
    (habsent : ∀ {key c}, m.cell key = some c → c.txn ≠ txn) : expiries txn tr = [] := by
  rw [h.reports]
  split_ifs
  · rw [List.filterMap_flatMap, List.flatMap_eq_nil_iff]
    intro key _
    cases hc : m.cell key with
    | none => rfl
    | some c => exact report_of_ne (habsent hc)
  · rfl

variable {key : TransactionKey}

/-- What is reported about a transaction that has an entry: the certificate, if the entry
waits for its confirmation and is too old. -/
lemma Swept.expiries_of_cell (h : srv.Swept m tr m' now keys) (hw : m.Wf) {c : Cell}
    (hc : m.cell key = some c) :
    expiries c.txn tr = if srv.cfg.confirmer then
        (TrackerConfig.report (now - srv.cfg.confirmWait) (some c)).filterMap (expiryOfInfo c.txn)
      else [] := by
  rw [h.reports]
  split_ifs
  · rw [List.filterMap_flatMap]
    obtain ⟨before, after, rfl⟩ := List.append_of_mem (h.all hc)
    -- the other keys belong to other transactions
    have hothers : ∀ key' ≠ key, (TrackerConfig.report (now - srv.cfg.confirmWait)
        (m.cell key')).filterMap (expiryOfInfo c.txn) = [] := by
      intro key' hne
      cases hc' : m.cell key' with
      | none => rfl
      | some c' => exact report_of_ne fun heq => hne (hw.single hc' hc heq)
    have hnodup := List.nodup_middle.mp h.nodup
    obtain ⟨hnew, -⟩ := List.nodup_cons.mp hnodup
    rw [List.flatMap_append, List.flatMap_cons, hc, List.flatMap_eq_nil_iff.mpr fun key' hmem =>
        hothers key' fun heq => hnew (List.mem_append_left _ (heq ▸ hmem)),
      List.flatMap_eq_nil_iff.mpr fun key' hmem =>
        hothers key' fun heq => hnew (List.mem_append_right _ (heq ▸ hmem)),
      List.append_nil, List.nil_append]
  · rfl

/-- An entry that is too old is taken out. -/
lemma Swept.gone (h : srv.Swept m tr m' now keys) (hw : m.Wf) (hnext : m.nextPtr ≤ m'.nextPtr)
    {c : Cell} (hc : m.cell key = some c)
    (hold : c.entry.lastActivity.before (now - srv.cfg.confirmWait)) : m'.Gone c.txn := by
  refine hw.gone hc hnext fun {key' c'} hc' => ?_
  obtain ⟨hcell, hyoung⟩ := Option.filter_eq_some_iff.mp ((h.cells key').symm.trans hc')
  refine ⟨?_, hcell⟩
  rintro rfl
  obtain rfl := Option.some.inj (hcell.symm.trans hc)
  rw [hold] at hyoung
  cases hyoung

/-- An entry that is not too old is left alone. -/
lemma Swept.cell_of_young (h : srv.Swept m tr m' now keys) {c : Cell} (hc : m.cell key = some c)
    (hyoung : c.entry.lastActivity.before (now - srv.cfg.confirmWait) = false) :
    m'.cell key = some c := by
  rw [h.cells, hc]
  simp [hyoung]

/-- Nothing is reported about an entry that is not too old. -/
lemma Swept.expiries_of_young (h : srv.Swept m tr m' now keys) (hw : m.Wf) {c : Cell}
    (hc : m.cell key = some c)
    (hyoung : c.entry.lastActivity.before (now - srv.cfg.confirmWait) = false) :
    expiries c.txn tr = [] := by
  rw [h.expiries_of_cell hw hc]
  simp [TrackerConfig.report, hyoung]

end

/-! ### Messages -/

section

variable {srv : Server} {msg q : PKIMessage} {s : SenderIdentity} {credID : Bytes} {tr : History}
variable {resp : Option PKIMessage}

lemma Within.ordinary {P : Effect → Prop} (h : Within P tr)
    (hP : ∀ o, P o → o.Outer ∨ o.Looking ∨ o.OnEntry) : Within Effect.Ordinary tr := by
  refine h.mono fun o ho => ?_
  rcases hP o ho with ho | ho | ho <;> cases o <;> first | exact ho.elim | trivial

lemma ordinary_of_around (h : Within Effect.Around tr) : Within Effect.Ordinary tr :=
  Within.ordinary h fun _ ho => .inl ho.outer

lemma ordinary_of_building (h : Within Effect.Building tr) : Within Effect.Ordinary tr :=
  Within.ordinary h fun _ ho => .inl ho.outer

lemma ordinary_of_onEntry (h : Within Effect.OnEntry tr) : Within Effect.Ordinary tr :=
  Within.ordinary h fun _ ho => .inr (.inr ho)

lemma Concludes.ordinary {reqType : RequestType} {certReqID : ℤ} {txn : Option ℕ}
    {r : HandlerResult}
    (h : srv.Concludes q s credID reqType certReqID txn r tr resp) : Within Effect.Ordinary tr := by
  refine h.serving.mono fun o ho => ?_
  cases o with
  | confirmCertificate cert status issueRef n =>
    cases status with
    | expired => simp [Effect.Serving, Effect.Building, Effect.OnEntry] at ho
    | _ => trivial
  | restart => simp [Effect.Serving, Effect.Building, Effect.OnEntry] at ho
  | _ => trivial

lemma Served.ordinary (h : srv.Served q s credID tr resp) : Within Effect.Ordinary tr := by
  cases h with
  | refused _ htr _ => exact Within.ordinary htr fun _ ho => .inr (.inl ho)
  | acknowledged _ htr _ => exact ordinary_of_building htr
  | busy _ _ htr _ => exact .cons trivial (ordinary_of_building htr)
  | request _ _ hset => exact .cons trivial (.cons trivial hset.ordinary)
  | poll _ _ _ _ h0 hset =>
    exact .cons trivial ((ordinary_of_building h0).append (.cons trivial hset.ordinary))
  | lost _ => exact .cons trivial .nil
  | confirm _ _ _ h1 h2 _ =>
    refine .cons trivial (.cons trivial (Within.append ?_ (ordinary_of_building h2)))
    split at h1
    · rw [h1.1]
      exact .nil
    · exact ordinary_of_onEntry (.of_only (TrackerConfig.delete_only ..) h1.2)
  | revoke _ h0 _ _ h1 =>
    exact .cons trivial ((ordinary_of_building h0).append
      (ordinary_of_onEntry (.of_only (TrackerConfig.setCompleted_only ..) h1)))

/-- A message reports nothing as expired. -/
lemma ordinary_of_steps (hh : srv.handler = .external)
    (hs : Prog.Steps (srv.processMessage msg) tr (.ret resp)) : Within Effect.Ordinary tr := by
  have hstart : ∀ {credID txID : Bytes} {tr : History} {p : ServerProg (Except GoError Bool)},
      Prog.Steps (srv.tracker.startIfAbsent credID txID) tr p → Within Effect.Ordinary tr :=
    fun h => Within.ordinary (.of_only (TrackerConfig.startIfAbsent_outer ..) h) fun _ ho => .inl ho
  cases course_of_steps hs with
  | refused htr _ => exact ordinary_of_around htr
  | locked _ _ _ h0 h1 _ h2 _ =>
    exact (ordinary_of_around h0).append ((hstart h1).append (ordinary_of_around h2))
  | started _ _ hcred h0 h1 h2 =>
    exact (ordinary_of_around h0).append
      ((hstart h1).append (served_of_steps hh hcred h2).ordinary)
  | followed _ _ hcred h0 h1 =>
    exact (ordinary_of_around h0).append (served_of_steps hh hcred h1).ordinary

/-- The reports of a thread about one transaction: none when it is over, and when there
is one, it is over. -/
lemma expiries_of_thread (hh : srv.handler = .external) (hd : 0 < srv.cfg.confirmWait)
    {p : ServerThread} {m m' : Tracker} (hp : srv.Thread p)
    (h : p.Runs exec m tr resp m') (hw : m.Wf) (txn : ℕ) :
    (m.Gone txn → expiries txn tr = []) ∧ (expiries txn tr ≠ [] → m'.Gone txn) := by
  cases hp with
  | message msg =>
    have hnone := expiries_of_ordinary (ordinary_of_steps hh h.steps) txn
    exact ⟨fun _ => hnone, fun hne => absurd hnone hne⟩
  | cleanup =>
    obtain ⟨now, keys, hswept⟩ := swept_of_runs hd h
    refine ⟨fun hg => hswept.expiries_of_absent hg.absent, fun hne => ?_⟩
    obtain ⟨key, c, hc, rfl⟩ : ∃ key c, m.cell key = some c ∧ c.txn = txn := by
      by_contra hnone
      exact hne (hswept.expiries_of_absent fun {key c} hc heq => hnone ⟨key, c, hc, heq⟩)
    -- the entry was too old, so it is not there any more
    have hold : c.entry.lastActivity.before (now - srv.cfg.confirmWait) := by
      by_contra hyoung
      refine hne ?_
      exact hswept.expiries_of_young hw hc (Bool.not_eq_true _ ▸ hyoung)
    exact hswept.gone hw (nextPtr_le_of_does h.does) hc hold

end

end Server

end PkiCmp
