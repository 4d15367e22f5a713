/-
The right to report on a transaction.

A transaction is closed when its certificate is issued or it is completed; from
then on at most one thread may report on it, and the report uses the right up.

* `verdictOn`, `verdicts`: successful reports to the CA, by transaction;
* `mandateMonitor`: the transactions a thread may report on;
* `Exclusive`: the steps in which no other thread is busy with the same entry;
* `Closed`: a transaction that cannot be issued any more;
* `Mandated`, `Mandated.after`: the invariant of a pool of threads, kept by every
  exclusive step.
-/
import PkiCmp.Server.Issuance

namespace PkiCmp

open Der Interact

/-! ### Verdicts -/

/-- The transaction that a successful report to the CA is about. -/
def verdictOn : ServerEvent → Option (Option ℕ)
  | ⟨.confirmCertificate _ _ _ txn, none⟩ => some txn
  | _ => none

/-- The number of verdicts on a transaction. -/
def verdicts (log : ServerLog) (txn : ℕ) : ℕ :=
  log.countP fun e => verdictOn e.2 = some (some txn)

/-! ### The right to report -/

/-- What a thread may report on: the entry it read last, what it found under the
key of its request, the issued entry it is confirming, the transactions it may
report on, and whether it has reported the entry it has still to delete. -/
structure Mandate where
  loaded : Option Cell := none
  found : Option (Option Cell) := none
  claim : Option (TransactionKey × Cell) := none
  may : List ℕ := []
  spent : Bool := false

/-- The right that goes with an entry: one that is completed or taken out. -/
def rightOver (c : Option Cell) (p : TransactionEntry → Bool) : List ℕ :=
  (c.filter fun c => p c.entry).toList.map Cell.txn

/-- The monitor of a thread. -/
def mandateMonitor : Monitor Effect Effect.Res Mandate where
  allowed
    | g, .load .getIssued _ => g.claim = none ∧ g.may = [] ∧ g.spent = false
    | g, .compareAndSwap .setPending _ old _ | g, .compareAndSwap .setIssued _ old _ =>
      ∃ c, g.loaded = some c ∧ c.ptr = old ∧ c.entry.isOpen
    | g, .compareAndSwap .setCompleted _ old new =>
      (∃ c, g.loaded = some c ∧ c.ptr = old) ∧ new.state = .completed
    | _, .compareAndSwap .. => False
    | g, .loadAndDelete .delete key _ => ∃ c, g.claim = some (key, c)
    | g, .loadAndDelete .cleanupExpired _ judged =>
      (∃ c, g.loaded = some c ∧ c.ptr = judged) ∧ g.claim = none
    | _, .loadAndDelete .. => False
    | g, .confirmCertificate _ _ _ txn => ∃ r ∈ g.may, txn = some r
    | _, .handleCMP .. => False
    | _, .restart .. => False
    | _, _ => True
  rely
    | g, .load .setCompleted _, c =>
      ∀ found, g.found = some found →
        ∃ cell, c = some cell ∧ cell.entry.isOpen ∧ found.map Cell.txn = some cell.txn
    | g, .loadAndDelete .cleanupExpired _ _, removed =>
      ∀ cell, removed = some cell → g.loaded = some cell
    | _, _, _ => True
  next
    | g, .load .getIssued key, c =>
      { g with loaded := c
               claim := (c.filter fun c => c.entry.state = .issued).map fun c => (key, c)
               may := g.may ++ rightOver c fun e => e.state = .issued }
    | g, .load .getPending _, c => { g with loaded := c, found := some c }
    | g, .load _ _, c => { g with loaded := c }
    | g, .compareAndSwap .setCompleted _ _ _, true =>
      { g with may := g.may ++ rightOver g.loaded TransactionEntry.isOpen }
    | g, .loadAndDelete .cleanupExpired _ _, removed =>
      { g with may := g.may ++ rightOver removed fun e => e.state = .issued }
    | g, .loadAndDelete .delete _ _, _ => { g with claim := none, spent := false }
    | g, .confirmCertificate _ _ _ txn, err =>
      { g with may := txn.elim g.may g.may.erase
               spent := g.spent || (err.isNone && g.claim.isSome) }
    | g, _, _ => g

namespace mandateMonitor

variable (g : Mandate) (key : TransactionKey)

@[simp] lemma next_now (now : Time) : mandateMonitor.next g .now now = g := rfl

@[simp] lemma next_getPending (c : Option Cell) :
    mandateMonitor.next g (.load .getPending key) c = { g with loaded := c, found := some c } := rfl

@[simp] lemma next_getIssued (c : Option Cell) :
    mandateMonitor.next g (.load .getIssued key) c =
      { g with loaded := c
               claim := (c.filter fun c => c.entry.state = .issued).map fun c => (key, c)
               may := g.may ++ rightOver c fun e => e.state = .issued } := rfl

@[simp] lemma next_setPending (c : Option Cell) :
    mandateMonitor.next g (.load .setPending key) c = { g with loaded := c } := rfl

@[simp] lemma next_setIssued (c : Option Cell) :
    mandateMonitor.next g (.load .setIssued key) c = { g with loaded := c } := rfl

@[simp] lemma next_setCompleted (c : Option Cell) :
    mandateMonitor.next g (.load .setCompleted key) c = { g with loaded := c } := rfl

@[simp] lemma next_cleanup (c : Option Cell) :
    mandateMonitor.next g (.load .cleanupExpired key) c = { g with loaded := c } := rfl

@[simp] lemma next_expired (judged : ℕ) (removed : Option Cell) :
    mandateMonitor.next g (.loadAndDelete .cleanupExpired key judged) removed =
      { g with may := g.may ++ rightOver removed fun e => e.state = .issued } := rfl

@[simp] lemma next_completed (old : ℕ) (new : TransactionEntry) :
    mandateMonitor.next g (.compareAndSwap .setCompleted key old new) true =
      { g with may := g.may ++ rightOver g.loaded TransactionEntry.isOpen } := rfl

@[simp] lemma next_confirm (cert : Certificate) (status : ConfirmStatus) (ref : Option IssueRef)
    (txn : Option ℕ) (err : Option GoError) :
    mandateMonitor.next g (.confirmCertificate cert status ref txn) err =
      { g with may := txn.elim g.may g.may.erase
               spent := g.spent || (err.isNone && g.claim.isSome) } := rfl

end mandateMonitor

/-- The rights that an operation gives. -/
def gains (g : Mandate) : (o : Effect) → o.Res → List ℕ
  | .load .getIssued _, c => rightOver c fun e => e.state = .issued
  | .compareAndSwap .setCompleted _ _ _, true => rightOver g.loaded TransactionEntry.isOpen
  | .loadAndDelete .cleanupExpired _ _, removed => rightOver removed fun e => e.state = .issued
  | _, _ => []

/-! ### Exclusive steps -/

/-- The issued entry that an event reads for a certConf. -/
def readIssued : ServerEvent → Option Cell
  | ⟨.load .getIssued _, c⟩ => Option.filter (fun c : Cell => c.entry.state = .issued) c
  | _ => none

/-- What an event finds under the key of a request. -/
def foundPending : ServerEvent → Option (Option Cell)
  | ⟨.load .getPending _, c⟩ => some c
  | _ => none

/-- Another thread that is not finished has read the issued entry. -/
def Busy (s : ServerSys) (i ptr : ℕ) : Prop :=
  ∃ e ∈ s.log, e.1 ≠ i ∧ (s.nextOp e.1).isSome ∧ (readIssued e.2).map Cell.ptr = some ptr

/-- No other thread gets in the way of the operation: an issued entry is read for
a certConf, or taken out by the cleanup that judged it, while no other thread is
busy with it, and an implicit confirmation finds its transaction open. -/
def Exclusive (s : ServerSys) (i : ℕ) : Effect → Prop
  | .load .getIssued key =>
    ∀ c ∈ s.mem.cell key, c.entry.state = .issued → ¬ Busy s i c.ptr
  | .loadAndDelete .cleanupExpired key judged =>
    ∀ c ∈ s.mem.cell key, c.ptr = judged ∧ ¬ Busy s i c.ptr
  | .load .setCompleted key =>
    ∀ e ∈ s.log, e.1 = i → ∀ found ∈ foundPending e.2,
      ∃ c ∈ s.mem.cell key, c.entry.isOpen ∧ found.map Cell.txn = some c.txn
  | _ => True

instance (s : ServerSys) (i ptr : ℕ) : Decidable (Busy s i ptr) :=
  inferInstanceAs (Decidable (∃ e ∈ s.log, e.1 ≠ i ∧ (s.nextOp e.1).isSome ∧
    (readIssued e.2).map Cell.ptr = some ptr))

instance (s : ServerSys) (i : ℕ) : DecidablePred (Exclusive s i) := fun o => by
  unfold Exclusive
  split <;> infer_instance

/-! ### Closed transactions -/

/-- The transaction cannot be issued any more: its entry is the given one, which
is issued, or a completed one, or gone. -/
structure Closed (t : Tracker) (txn : ℕ) (last : Option (TransactionKey × Cell)) : Prop where
  given : txn < t.nextPtr
  closed : ∀ {key c}, t.cell key = some c → c.txn = txn →
    last = some (key, c) ∨ c.entry.state = .completed

/-- The entry that a claim names is issued. -/
def ClaimIssued (last : Option (TransactionKey × Cell)) : Prop :=
  ∀ key c, last = some (key, c) → c.entry.state = .issued

lemma not_isOpen_of_issued {e : TransactionEntry} (h : e.state = .issued) : ¬ e.isOpen := by
  simp [TransactionEntry.isOpen, h]

namespace Closed

variable {t t' : Tracker} {txn : ℕ} {last : Option (TransactionKey × Cell)}

lemma not_isOpen (h : Closed t txn last) (hl : ClaimIssued last) {key : TransactionKey} {c : Cell}
    (hc : t.cell key = some c) (ht : c.txn = txn) : ¬ c.entry.isOpen := by
  obtain hlast | hst := h.closed hc ht
  · exact not_isOpen_of_issued (hl key c hlast)
  · simp [TransactionEntry.isOpen, hst]

/-- What is completed or gone needs no claim. -/
lemma mono (h : Closed t txn none) : Closed t txn last :=
  ⟨h.given, fun hc ht => (h.closed hc ht).elim nofun .inr⟩

/-- Fewer entries are closed as well. -/
lemma of_remove (h : Closed t txn last) (key : TransactionKey) :
    Closed (t.remove key) txn last := by
  refine ⟨h.given, fun {key' c} hc ht => ?_⟩
  rw [Tracker.cell_remove] at hc
  split_ifs at hc
  exact h.closed hc ht

/-- When the entry of the claim is taken out, nothing is left to claim. -/
lemma of_remove_claim {key : TransactionKey} {c : Cell} (h : Closed t txn (some (key, c))) :
    Closed (t.remove key) txn none := by
  refine ⟨h.given, fun {key' c'} hc ht => ?_⟩
  rw [Tracker.cell_remove] at hc
  split_ifs at hc with hk
  obtain hlast | hst := h.closed hc ht
  · exact absurd (Prod.ext_iff.mp (Option.some.inj hlast)).1.symm hk
  · exact .inr hst

/-- **A closed transaction stays closed**: no thread replaces an entry that is
issued or completed but by a completed one. -/
lemma step {g : Mandate} {o : Effect} {x : o.Res} (h : Closed t txn last)
    (hl : ClaimIssued last) (hstep : MapStep t o x t')
    (hg : ∀ c, g.loaded = some c → t.Knows c) (ha : mandateMonitor.allowed g o) :
    Closed t' txn last := by
  cases hstep with
  | store key entry hnone =>
    refine ⟨Nat.lt_succ_of_lt h.given, fun {key' c} hc ht => ?_⟩
    rw [Tracker.cell_publish] at hc
    split_ifs at hc
    · cases hc
      exact absurd ht h.given.ne'
    · exact h.closed hc ht
  | swap site key cell new hcell =>
    refine ⟨Nat.lt_succ_of_lt h.given, fun {key' c} hc ht => ?_⟩
    rw [Tracker.cell_publish] at hc
    split_ifs at hc
    · cases hc
      -- the entry that is replaced belongs to the transaction, so it is not open
      have hread : ∀ c, g.loaded = some c ∧ c.ptr = cell.ptr ∧ c.entry.isOpen → False := by
        rintro c ⟨hc, hptr, hopen⟩
        obtain rfl := (hg c hc).names hcell hptr.symm
        exact h.not_isOpen hl hcell ht hopen
      cases site with
      | setCompleted => exact .inr ha.2
      | setPending =>
        obtain ⟨c, hc⟩ := ha
        exact (hread c hc).elim
      | setIssued =>
        obtain ⟨c, hc⟩ := ha
        exact (hread c hc).elim
      | _ => exact ha.elim
    · exact h.closed hc ht
  | delete site key judged => exact h.of_remove key
  | restart r a b w t' hr => exact ha.elim
  | other x t' ho hc hn =>
    refine ⟨hn ▸ h.given, fun {key c} hcell ht => h.closed ?_ ht⟩
    unfold Tracker.cell at hcell ⊢
    rw [← hc, hcell]
  | _ => exact h

/-- The only entry of a transaction is the one that a claim names. -/
lemma of_cell (hw : t.Wf) {key : TransactionKey} {c : Cell} (hc : t.cell key = some c) :
    Closed t c.txn (some (key, c)) := by
  refine ⟨hw.started hc, fun {key' c'} hc' ht => .inl ?_⟩
  obtain rfl := hw.single hc hc' ht.symm
  rw [Option.some.inj (hc.symm.trans hc')]

/-- A transaction is closed when its entry is replaced by a completed one. -/
lemma of_complete (hw : t.Wf) {key : TransactionKey} {c : Cell} (hc : t.cell key = some c)
    {new : TransactionEntry} (hnew : new.state = .completed) :
    Closed (t.publish key new c.txn) c.txn none := by
  refine ⟨Nat.lt_succ_of_lt (hw.started hc), fun {key' c'} hc' ht => .inr ?_⟩
  rw [Tracker.cell_publish] at hc'
  split_ifs at hc' with hk
  · cases hc'
    exact hnew
  · exact absurd (hw.single hc' hc ht) hk

end Closed

/-! ### Rights -/

/-- A right that a thread has got in a step: the entry of the transaction was open,
or issued with nobody else busy with it, and now it is closed. -/
structure Gained (s : ServerSys) (i : ℕ) (g g' : Mandate) (t' : Tracker) (txn : ℕ)
    (key : TransactionKey) (c : Cell) : Prop where
  cell : s.mem.cell key = some c
  txn_eq : c.txn = txn
  closed : Closed t' txn g'.claim
  exclusive : c.entry.isOpen ∨ (c.entry.state = .issued ∧ g.claim = none ∧ ¬ Busy s i c.ptr)

lemma mem_rightOver {c : Option Cell} {p : TransactionEntry → Bool} {txn : ℕ}
    (h : txn ∈ rightOver c p) : ∃ cell, c = some cell ∧ p cell.entry ∧ cell.txn = txn := by
  obtain ⟨cell, hcell, rfl⟩ := List.mem_map.mp h
  obtain ⟨rfl, hp⟩ := Option.filter_eq_some_iff.mp (Option.mem_toList.mp hcell)
  exact ⟨cell, rfl, hp, rfl⟩

lemma rightOver_nodup (c : Option Cell) (p : TransactionEntry → Bool) : (rightOver c p).Nodup := by
  unfold rightOver
  cases c.filter fun c => p c.entry <;> simp

/-- **Where rights come from.** -/
lemma gained_of_mem_gains {s : ServerSys} {i : ℕ} {g : Mandate} {o : Effect} {x : o.Res}
    {t' : Tracker} {txn : ℕ} (hw : s.mem.Wf) (hstep : MapStep s.mem o x t')
    (hg : ∀ c, g.loaded = some c → s.mem.Knows c) (ha : mandateMonitor.allowed g o)
    (hx : Exclusive s i o) (h : txn ∈ gains g o x) :
    ∃ key c, Gained s i g (mandateMonitor.next g o x) t' txn key c := by
  cases o with
  | load site key =>
    cases site with
    | getIssued =>
      obtain ⟨c, hcell, hst, rfl⟩ := mem_rightOver (p := fun e => e.state = .issued) h
      subst hcell
      obtain ⟨hc, rfl⟩ := hstep.loaded
      have hst : c.entry.state = .issued := by simpa using hst
      refine ⟨key, c, hc, rfl, ?_, .inr ⟨hst, ha.1, hx c hc hst⟩⟩
      simpa [mandateMonitor, hst, Option.filter_some] using Closed.of_cell hw hc
    | _ => cases h
  | compareAndSwap site key old new =>
    cases x with
    | false => cases site <;> cases h
    | true =>
      cases site with
      | setCompleted =>
        obtain ⟨c, hl, hopen, rfl⟩ := mem_rightOver h
        obtain ⟨cell, hcell, hptr, rfl⟩ := hstep.swapped
        obtain ⟨⟨c', hl', hptr'⟩, hnew⟩ := ha
        obtain rfl : c = c' := Option.some.inj (hl.symm.trans hl')
        obtain rfl := (hg c hl).names hcell (hptr.trans hptr'.symm)
        exact ⟨key, cell, hcell, rfl, (Closed.of_complete hw hcell hnew).mono, .inl hopen⟩
      | _ => cases h
  | loadAndDelete site key judged =>
    cases site with
    | cleanupExpired =>
      obtain ⟨c, hcell, hst, rfl⟩ := mem_rightOver (p := fun e => e.state = .issued) h
      subst hcell
      obtain ⟨hc, rfl⟩ := hstep.removed
      have hst : c.entry.state = .issued := by simpa using hst
      exact ⟨key, c, hc, rfl, (Closed.of_cell hw hc).of_remove_claim.mono,
        .inr ⟨hst, ha.2, (hx c hc).2⟩⟩
    | _ => cases h
  | _ => cases h

section

variable {g : Mandate} {o : Effect} {x : o.Res} {t t' : Tracker} {txn : ℕ}

variable (g o x) in
/-- How the rights change: new ones are added, or one is used up. -/
lemma may_next : (mandateMonitor.next g o x).may = g.may ∨
    (mandateMonitor.next g o x).may = g.may ++ gains g o x ∨
    ∃ r, (mandateMonitor.next g o x).may = g.may.erase r := by
  cases o with
  | load site key => cases site <;> first | exact .inl rfl | exact .inr (.inl rfl)
  | compareAndSwap site key old new =>
    cases x <;> cases site <;> first | exact .inl rfl | exact .inr (.inl rfl)
  | loadAndDelete site key judged => cases site <;> first | exact .inl rfl | exact .inr (.inl rfl)
  | confirmCertificate cert status ref txn =>
    cases txn with
    | none => exact .inl rfl
    | some r => exact .inr (.inr ⟨r, rfl⟩)
  | _ => exact .inl rfl

lemma may_step (h : txn ∈ (mandateMonitor.next g o x).may) : txn ∈ g.may ∨ txn ∈ gains g o x := by
  obtain heq | heq | ⟨r, heq⟩ := may_next g o x <;> rw [heq] at h
  · exact .inl h
  · exact List.mem_append.mp h
  · exact .inl (List.mem_of_mem_erase h)

lemma gains_nodup : (gains g o x).Nodup := by
  unfold gains
  split
  all_goals first | exact rightOver_nodup _ _ | exact List.nodup_nil

lemma may_nodup_step (h : g.may.Nodup) (hnew : ∀ r ∈ gains g o x, r ∉ g.may) :
    (mandateMonitor.next g o x).may.Nodup := by
  obtain heq | heq | ⟨r, heq⟩ := may_next g o x <;> rw [heq]
  · exact h
  · exact h.append gains_nodup fun r hr hr' => hnew r hr' hr
  · exact h.erase r

/-- A closed transaction stays so for the claim that the thread then has. -/
lemma closed_claim_step (hstep : MapStep t o x t') (hg : ∀ c, g.loaded = some c → t.Knows c)
    (ha : mandateMonitor.allowed g o) (hl : ClaimIssued g.claim) (h : Closed t txn g.claim) :
    Closed t' txn (mandateMonitor.next g o x).claim := by
  have hkeep : Closed t' txn g.claim := h.step hl hstep hg ha
  cases o with
  | load site key =>
    cases site with
    | getIssued =>
      rw [ha.1] at hkeep
      exact hkeep.mono
    | _ => exact hkeep
  | compareAndSwap site key old new => cases x <;> cases site <;> exact hkeep
  | loadAndDelete site key judged =>
    cases site with
    | delete =>
      obtain ⟨c, hc⟩ := ha
      obtain ⟨-, rfl⟩ := hstep.removed
      rw [hc] at h
      exact h.of_remove_claim
    | _ => exact hkeep
  | _ => exact hkeep

/-- A thread that has reported its entry goes on to delete it. -/
lemma spent_step (ha : mandateMonitor.allowed g o) (h : g.spent = true) :
    (mandateMonitor.next g o x).spent = true ∨ (mandateMonitor.next g o x).claim = none := by
  cases o with
  | load site key =>
    cases site with
    | getIssued =>
      rw [ha.2.2] at h
      cases h
    | _ => exact .inl h
  | compareAndSwap site key old new => cases x <;> cases site <;> exact .inl h
  | loadAndDelete site key judged =>
    cases site with
    | delete => exact .inr rfl
    | _ => exact .inl h
  | confirmCertificate cert status ref txn => exact .inl (by simp [mandateMonitor, h])
  | _ => exact .inl h

/-- **A verdict uses a right up.** -/
lemma verdict_step {v : Option ℕ} (hn : g.may.Nodup) (ha : mandateMonitor.allowed g o)
    (h : verdictOn ⟨o, x⟩ = some v) :
    ∃ r ∈ g.may, v = some r ∧ r ∉ (mandateMonitor.next g o x).may ∧
      ((mandateMonitor.next g o x).spent = true ∨ (mandateMonitor.next g o x).claim = none) := by
  cases o with
  | confirmCertificate cert status ref txn =>
    obtain ⟨r, hr, rfl⟩ := ha
    cases x with
    | some e => cases h
    | none =>
      cases h
      refine ⟨r, hr, rfl, hn.not_mem_erase, ?_⟩
      cases hc : g.claim with
      | none => exact .inr hc
      | some c => exact .inl (by simp [mandateMonitor, hc])
  | _ => cases h

lemma claim_step {key : TransactionKey} {c : Cell}
    (h : (mandateMonitor.next g o x).claim = some (key, c)) :
    g.claim = some (key, c) ∨ readIssued ⟨o, x⟩ = some c := by
  cases o with
  | load site key =>
    cases site with
    | getIssued =>
      obtain ⟨c', hc', heq⟩ := Option.map_eq_some_iff.mp h
      cases heq
      exact .inr hc'
    | _ => exact .inl h
  | compareAndSwap site key old new => cases x <;> cases site <;> exact .inl h
  | loadAndDelete site key judged =>
    cases site with
    | delete => cases h
    | _ => exact .inl h
  | _ => exact .inl h

lemma found_step {found : Option Cell} (h : (mandateMonitor.next g o x).found = some found) :
    g.found = some found ∨ foundPending ⟨o, x⟩ = some found := by
  cases o with
  | load site key =>
    cases site with
    | getPending => exact .inr h
    | _ => exact .inl h
  | compareAndSwap site key old new => cases x <;> cases site <;> exact .inl h
  | loadAndDelete site key judged => cases site <;> exact .inl h
  | _ => exact .inl h

lemma mandate_loaded_step (hstep : MapStep t o x t') (hw : t.Wf)
    (hg : ∀ c, g.loaded = some c → t.Knows c) :
    ∀ c, (mandateMonitor.next g o x).loaded = some c → t'.Knows c := by
  have hkeep : ∀ c, g.loaded = some c → t'.Knows c := fun c hc => hstep.knows (hg c hc)
  cases o with
  | load site key =>
    have hload : ∀ c, x = some c → t'.Knows c := by
      rintro c rfl
      exact hstep.loaded_knows hw
    cases site <;> exact hload
  | compareAndSwap site key old new => cases x <;> cases site <;> exact hkeep
  | loadAndDelete site key judged => cases site <;> exact hkeep
  | _ => exact hkeep

end

lemma issued_of_readIssued {e : ServerEvent} {c : Cell} (h : readIssued e = some c) :
    c.entry.state = .issued := by
  unfold readIssued at h
  split at h
  · simpa using (Option.filter_eq_some_iff.mp h).2
  · cases h

lemma verdicts_append (log : ServerLog) (e : ℕ × ServerEvent) (txn : ℕ) :
    verdicts (log ++ [e]) txn =
      verdicts log txn + if verdictOn e.2 = some (some txn) then 1 else 0 := by
  simp [verdicts, List.countP_append, List.countP_cons]

/-! ### The invariant -/

/-- The invariant.  Rights concern closed transactions, threads that are not
finished share none, and a transaction with a verdict has no right left; its entry
is completed, gone, or about to be deleted by the thread that reported it. -/
structure Mandated (s : ServerSys) (gs : List Mandate) : Prop where
  wf : s.mem.Wf
  knows : ∀ {i : ℕ} {g : Mandate}, gs[i]? = some g → ∀ c, g.loaded = some c → s.mem.Knows c
  found : ∀ {i : ℕ} {g : Mandate} {f : Option Cell}, gs[i]? = some g → g.found = some f →
    ∃ e ∈ s.log, e.1 = i ∧ foundPending e.2 = some f
  claim : ∀ {i : ℕ} {g : Mandate} {key : TransactionKey} {c : Cell}, gs[i]? = some g →
    g.claim = some (key, c) → ∃ e ∈ s.log, e.1 = i ∧ readIssued e.2 = some c
  rights : ∀ {i : ℕ} {g : Mandate} {txn : ℕ}, gs[i]? = some g → txn ∈ g.may →
    Closed s.mem txn g.claim
  nodup : ∀ {i : ℕ} {g : Mandate}, gs[i]? = some g → g.may.Nodup
  alone : ∀ {i j : ℕ} {g g' : Mandate} {txn : ℕ}, gs[i]? = some g → gs[j]? = some g' → i ≠ j →
    (s.nextOp i).isSome → (s.nextOp j).isSome → txn ∈ g.may → txn ∉ g'.may
  attributed : ∀ e ∈ s.log, verdictOn e.2 ≠ some none
  once : ∀ txn, verdicts s.log txn ≤ 1
  used : ∀ {i : ℕ} {g : Mandate} {txn : ℕ}, 0 < verdicts s.log txn → gs[i]? = some g →
    (s.nextOp i).isSome → txn ∉ g.may
  reported : ∀ {txn : ℕ}, 0 < verdicts s.log txn → Closed s.mem txn none ∨
    ∃ (i : ℕ) (g : Mandate), gs[i]? = some g ∧ g.spent = true ∧ Closed s.mem txn g.claim

namespace Mandated

variable {s : ServerSys} {gs : List Mandate}

lemma claimIssued (h : Mandated s gs) {i : ℕ} {g : Mandate} (hi : gs[i]? = some g) :
    ClaimIssued g.claim := by
  intro key c hc
  obtain ⟨e, -, -, he⟩ := h.claim hi hc
  exact issued_of_readIssued he

/-- A thread with a claim is busy with its entry. -/
lemma busy (h : Mandated s gs) {i j : ℕ} {g : Mandate} {key : TransactionKey} {c : Cell}
    (hj : gs[j]? = some g) (hne : j ≠ i) (hop : (s.nextOp j).isSome)
    (hc : g.claim = some (key, c)) : Busy s i c.ptr := by
  obtain ⟨e, he, rfl, hread⟩ := h.claim hj hc
  exact ⟨e, he, hne, hop, by rw [hread, Option.map_some]⟩

/-- **A right that is gained is new**: no other thread has it, and there is no
verdict yet. -/
lemma of_gained (h : Mandated s gs)
    (hopen : ∀ {j : ℕ} {g : Mandate}, gs[j]? = some g → g.spent = true → (s.nextOp j).isSome)
    {i txn : ℕ} {g g' : Mandate} {t' : Tracker} {key : TransactionKey} {c : Cell}
    (hi : gs[i]? = some g) (hgain : Gained s i g g' t' txn key c) :
    (∀ {j : ℕ} {g'' : Mandate}, gs[j]? = some g'' → (s.nextOp j).isSome → txn ∉ g''.may) ∧
      verdicts s.log txn = 0 := by
  -- whoever holds the transaction closed has claimed this very entry
  have hlast : ∀ {last}, ClaimIssued last → Closed s.mem txn last →
      last = some (key, c) ∧ g.claim = none ∧ ¬ Busy s i c.ptr := by
    intro last hl hs
    obtain hst | ⟨hst, hnone, hbusy⟩ := hgain.exclusive
    · exact absurd hst (hs.not_isOpen hl hgain.cell hgain.txn_eq)
    · obtain hlast | hcomp := hs.closed hgain.cell hgain.txn_eq
      · exact ⟨hlast, hnone, hbusy⟩
      · rw [hst] at hcomp
        cases hcomp
  have hclash : ∀ {j : ℕ} {g'' : Mandate}, gs[j]? = some g'' → (s.nextOp j).isSome →
      ¬ Closed s.mem txn g''.claim := by
    intro j g'' hj hop hs
    obtain ⟨hclaim, hnone, hbusy⟩ := hlast (h.claimIssued hj) hs
    by_cases hij : j = i
    · subst hij
      obtain rfl : g = g'' := Option.some.inj (hi.symm.trans hj)
      rw [hnone] at hclaim
      cases hclaim
    · exact hbusy (h.busy hj hij hop hclaim)
  constructor
  · intro j g'' hj hop hmay
    exact hclash hj hop (h.rights hj hmay)
  · by_contra hpos
    obtain hs | ⟨j, gj, hj, hspent, hs⟩ := h.reported (Nat.pos_of_ne_zero hpos)
    · obtain ⟨hnone, -⟩ := hlast (fun _ _ h => by cases h) hs
      cases hnone
    · exact hclash hj (hopen hj hspent) hs

/-- One step of a thread keeps the invariant. -/
lemma after (h : Mandated s gs)
    (hopen : ∀ {j : ℕ} {g : Mandate}, gs[j]? = some g → g.spent = true → (s.nextOp j).isSome)
    {i : ℕ} {c : Oracle} {g : Mandate} {o : Effect} {k : o.Res → ServerThread}
    {x : o.Res} {t : Tracker} (hi : gs[i]? = some g) (hth : s.threads[i]? = some (.op o k))
    (ha : mandateMonitor.allowed g o) (hexec : exec o c s.mem = some (x, t))
    (hx : Exclusive s i o) :
    Mandated (s.after i o k x t) (gs.set i (mandateMonitor.next g o x)) := by
  have hstep := exec_mapStep hexec
  have hop : (s.nextOp i).isSome := by simp [Sys.nextOp, hth]
  have hset : (gs.set i (mandateMonitor.next g o x))[i]? = some (mandateMonitor.next g o x) :=
    List.getElem?_set_self (List.getElem?_eq_some_iff.mp hi).1
  have hother : ∀ {j : ℕ} {g' : Mandate}, gs[j]? = some g' → j ≠ i →
      (gs.set i (mandateMonitor.next g o x))[j]? = some g' :=
    fun hj hne => (List.getElem?_set_ne hne.symm).trans hj
  -- the rights of the thread that takes the step are old ones or new ones
  have hfresh : ∀ {txn : ℕ}, txn ∈ gains g o x →
      (∀ {j : ℕ} {g' : Mandate}, gs[j]? = some g' → (s.nextOp j).isSome → txn ∉ g'.may) ∧
        verdicts s.log txn = 0 := by
    intro txn hmem
    obtain ⟨key, c, hgained⟩ := gained_of_mem_gains h.wf hstep (h.knows hi) ha hx hmem
    exact h.of_gained hopen hi hgained
  have hlog : ∀ {e : ℕ × ServerEvent}, e ∈ s.log → e ∈ (s.after i o k x t).log :=
    fun he => List.mem_append_left _ he
  have hnew : (i, ⟨o, x⟩) ∈ (s.after i o k x t).log := List.mem_append_right _ List.mem_cons_self
  have hcount : ∀ txn, verdicts (s.after i o k x t).log txn =
      verdicts s.log txn + if verdictOn ⟨o, x⟩ = some (some txn) then 1 else 0 :=
    fun txn => verdicts_append s.log (i, ⟨o, x⟩) txn
  constructor
  case wf => exact hstep.wf h.wf
  case knows =>
    intro j g' hj
    obtain ⟨rfl, rfl⟩ | ⟨-, hj⟩ := eq_or_getElem?_of_set hj
    · exact mandate_loaded_step hstep h.wf (h.knows hi)
    · exact fun c hc => hstep.knows (h.knows hj c hc)
  case found =>
    intro j g' f hj hf
    obtain ⟨rfl, rfl⟩ | ⟨-, hj⟩ := eq_or_getElem?_of_set hj
    · obtain hf | hf := found_step hf
      · obtain ⟨e, he, h⟩ := h.found hi hf
        exact ⟨e, hlog he, h⟩
      · exact ⟨_, hnew, rfl, hf⟩
    · obtain ⟨e, he, h⟩ := h.found hj hf
      exact ⟨e, hlog he, h⟩
  case claim =>
    intro j g' key c hj hc
    obtain ⟨rfl, rfl⟩ | ⟨-, hj⟩ := eq_or_getElem?_of_set hj
    · obtain hc | hc := claim_step hc
      · obtain ⟨e, he, h⟩ := h.claim hi hc
        exact ⟨e, hlog he, h⟩
      · exact ⟨_, hnew, rfl, hc⟩
    · obtain ⟨e, he, h⟩ := h.claim hj hc
      exact ⟨e, hlog he, h⟩
  case rights =>
    intro j g' txn hj hmay
    obtain ⟨rfl, rfl⟩ | ⟨-, hj⟩ := eq_or_getElem?_of_set hj
    · obtain hmay | hmem := may_step hmay
      · exact closed_claim_step hstep (h.knows hi) ha (h.claimIssued hi) (h.rights hi hmay)
      · obtain ⟨key, c, hgained⟩ := gained_of_mem_gains h.wf hstep (h.knows hi) ha hx hmem
        exact hgained.closed
    · exact (h.rights hj hmay).step (h.claimIssued hj) hstep (h.knows hi) ha
  case nodup =>
    intro j g' hj
    obtain ⟨rfl, rfl⟩ | ⟨-, hj⟩ := eq_or_getElem?_of_set hj
    · exact may_nodup_step (h.nodup hi) fun r hr => (hfresh hr).1 hi hop
    · exact h.nodup hj
  case alone =>
    intro j1 j2 g1 g2 txn h1 h2 hne hop1 hop2 hmay1 hmay2
    obtain ⟨rfl, rfl⟩ | ⟨hne1, hj1⟩ := eq_or_getElem?_of_set h1 <;>
      obtain ⟨rfl, rfl⟩ | ⟨hne2, hj2⟩ := eq_or_getElem?_of_set h2
    · exact hne rfl
    · rw [Sys.nextOp_after_ne hne2] at hop2
      obtain hmay1 | hmem := may_step hmay1
      · exact h.alone hi hj2 hne hop hop2 hmay1 hmay2
      · exact (hfresh hmem).1 hj2 hop2 hmay2
    · rw [Sys.nextOp_after_ne hne1] at hop1
      obtain hmay2 | hmem := may_step hmay2
      · exact h.alone hj1 hi hne hop1 hop hmay1 hmay2
      · exact (hfresh hmem).1 hj1 hop1 hmay1
    · rw [Sys.nextOp_after_ne hne1] at hop1
      rw [Sys.nextOp_after_ne hne2] at hop2
      exact h.alone hj1 hj2 hne hop1 hop2 hmay1 hmay2
  case attributed =>
    intro e he hv
    obtain he | he := List.mem_append.mp he
    · exact h.attributed e he hv
    · obtain rfl := List.mem_singleton.mp he
      obtain ⟨r, -, hr, -⟩ := verdict_step (h.nodup hi) ha hv
      cases hr
  case once =>
    intro txn
    rw [hcount]
    split_ifs with hv
    · -- the right that is used up excludes an earlier verdict
      obtain ⟨r, hr, heq, -⟩ := verdict_step (h.nodup hi) ha hv
      cases heq
      have hzero : ¬ 0 < verdicts s.log txn := fun hpos => h.used hpos hi hop hr
      omega
    · exact h.once txn
  case used =>
    intro j g' txn hpos hj hop' hmay
    rw [hcount] at hpos
    by_cases hbefore : 0 < verdicts s.log txn
    · obtain ⟨rfl, rfl⟩ | ⟨hne, hj⟩ := eq_or_getElem?_of_set hj
      · obtain hmay | hmem := may_step hmay
        · exact h.used hbefore hi hop hmay
        · exact hbefore.ne' (hfresh hmem).2
      · rw [Sys.nextOp_after_ne hne] at hop'
        exact h.used hbefore hj hop' hmay
    · have hv : verdictOn ⟨o, x⟩ = some (some txn) := by
        by_contra hv
        rw [if_neg hv] at hpos
        omega
      obtain ⟨r, hr, heq, hout, -⟩ := verdict_step (h.nodup hi) ha hv
      cases heq
      obtain ⟨rfl, rfl⟩ | ⟨hne, hj⟩ := eq_or_getElem?_of_set hj
      · exact hout hmay
      · rw [Sys.nextOp_after_ne hne] at hop'
        exact h.alone hi hj hne.symm hop hop' hr hmay
  case reported =>
    intro txn hpos
    rw [hcount] at hpos
    have hmine :
        (mandateMonitor.next g o x).spent = true ∨ (mandateMonitor.next g o x).claim = none →
        Closed t txn (mandateMonitor.next g o x).claim →
        Closed t txn none ∨ ∃ (j : ℕ) (g' : Mandate),
          (gs.set i (mandateMonitor.next g o x))[j]? = some g' ∧ g'.spent = true ∧
            Closed t txn g'.claim := by
      rintro (hspent | hnone) hs
      · exact .inr ⟨i, _, hset, hspent, hs⟩
      · rw [hnone] at hs
        exact .inl hs
    have hclaim : Closed s.mem txn g.claim → Closed t txn (mandateMonitor.next g o x).claim :=
      closed_claim_step hstep (h.knows hi) ha (h.claimIssued hi)
    by_cases hbefore : 0 < verdicts s.log txn
    · obtain hs | ⟨j, g', hj, hspent, hs⟩ := h.reported hbefore
      · exact .inl (hs.step (fun _ _ h => by cases h) hstep (h.knows hi) ha)
      · by_cases hij : j = i
        · subst hij
          obtain rfl : g = g' := Option.some.inj (hi.symm.trans hj)
          exact hmine (spent_step ha hspent) (hclaim hs)
        · exact .inr ⟨j, g', hother hj hij, hspent,
            hs.step (h.claimIssued hj) hstep (h.knows hi) ha⟩
    · have hv : verdictOn ⟨o, x⟩ = some (some txn) := by
        by_contra hv
        rw [if_neg hv] at hpos
        omega
      obtain ⟨r, hr, heq, -, hend⟩ := verdict_step (h.nodup hi) ha hv
      cases heq
      exact hmine hend (hclaim (h.rights hi hr))

lemma init : Mandated (.init {}) [] where
  wf := .empty 0
  knows := by simp
  found := by simp
  claim := by simp
  rights := by simp
  nodup := by simp
  alone := by simp
  attributed := by simp [Sys.init]
  once := by simp [Sys.init, verdicts]
  used := by simp
  reported := by simp [Sys.init, verdicts]

/-- A thread that is started has no rights. -/
lemma start (h : Mandated s gs) (hlen : gs.length = s.threads.length)
    (p : ServerThread) : Mandated (s.start p) (gs ++ [({} : Mandate)]) := by
  have hold : ∀ {j : ℕ} {g : Mandate}, (gs ++ [({} : Mandate)])[j]? = some g →
      g = {} ∨ (gs[j]? = some g ∧ (s.start p).nextOp j = s.nextOp j) := by
    intro j g hj
    rw [List.getElem?_append] at hj
    split_ifs at hj with hlt
    · refine .inr ⟨hj, ?_⟩
      simp only [Sys.nextOp, Sys.start, List.getElem?_append_left (hlen ▸ hlt)]
    · obtain rfl := List.mem_singleton.mp (List.mem_of_getElem? hj)
      exact .inl rfl
  constructor
  case wf => exact h.wf
  case knows =>
    intro j g hj c hc
    obtain rfl | ⟨hj, -⟩ := hold hj
    · cases hc
    · exact h.knows hj c hc
  case found =>
    intro j g f hj hf
    obtain rfl | ⟨hj, -⟩ := hold hj
    · cases hf
    · exact h.found hj hf
  case claim =>
    intro j g key c hj hc
    obtain rfl | ⟨hj, -⟩ := hold hj
    · cases hc
    · exact h.claim hj hc
  case rights =>
    intro j g txn hj hmay
    obtain rfl | ⟨hj, -⟩ := hold hj
    · cases hmay
    · exact h.rights hj hmay
  case nodup =>
    intro j g hj
    obtain rfl | ⟨hj, -⟩ := hold hj
    · exact List.nodup_nil
    · exact h.nodup hj
  case alone =>
    intro j1 j2 g1 g2 txn h1 h2 hne hop1 hop2 hmay1 hmay2
    obtain rfl | ⟨hj1, hn1⟩ := hold h1
    · cases hmay1
    · obtain rfl | ⟨hj2, hn2⟩ := hold h2
      · cases hmay2
      · exact h.alone hj1 hj2 hne (hn1 ▸ hop1) (hn2 ▸ hop2) hmay1 hmay2
  case attributed => exact h.attributed
  case once => exact h.once
  case used =>
    intro j g txn hpos hj hop hmay
    obtain rfl | ⟨hj, hn⟩ := hold hj
    · cases hmay
    · exact h.used hpos hj (hn ▸ hop) hmay
  case reported =>
    intro txn hpos
    obtain hs | ⟨j, g, hj, hspent, hs⟩ := h.reported hpos
    · exact .inl hs
    · refine .inr ⟨j, g, ?_, hspent, hs⟩
      rw [List.getElem?_append_left (List.getElem?_eq_some_iff.mp hj).1, hj]

/-- The answers a thread counts on are the ones it gets in an exclusive step. -/
lemma rely (h : Mandated s gs) {i : ℕ} {g : Mandate} {o : Effect} {x : o.Res} {t : Tracker}
    (hi : gs[i]? = some g) (hstep : MapStep s.mem o x t) (ha : mandateMonitor.allowed g o)
    (hx : Exclusive s i o) : mandateMonitor.rely g o x := by
  cases o with
  | load site key =>
    cases site with
    | setCompleted =>
      intro found hfound
      obtain ⟨e, he, hei, hf⟩ := h.found hi hfound
      obtain ⟨c, hc, hopen, htxn⟩ := hx e he hei found hf
      exact ⟨c, hstep.loaded.1.symm.trans hc, hopen, htxn⟩
    | _ => trivial
  | loadAndDelete site key judged =>
    cases site with
    | cleanupExpired =>
      rintro cell rfl
      have hcell := hstep.removed.1
      obtain ⟨c, hc, hptr⟩ := ha.1
      obtain rfl := (h.knows hi c hc).names hcell ((hx cell hcell).1.trans hptr.symm)
      exact hc
    | _ => trivial
  | compareAndSwap site key old new => cases site <;> trivial
  | _ => trivial

end Mandated

end PkiCmp
