/-
The custody of issued certificates.

From the moment the CA returns a certificate some thread is in charge of it,
until it is stored in an issued entry or reported to the CA.

* `custodyMonitor`: what a thread has in its charge;
* `Undisturbed`: the steps in which no other thread gets in the way;
* `certificates_accounted`: in a run of undisturbed steps no certificate is lost.
-/
import PkiCmp.Server.Memory
import PkiCmp.Server.Handling

namespace PkiCmp

open Der Interact

/-! ### Certificates in the charge of a thread -/

/-- A certificate with the CA's reference to it. -/
abbrev Issued := Certificate × Option IssueRef

/-- The certificate of a result: without an error and without waiting. -/
def HandlerResult.issued (r : HandlerResult) : Option Issued :=
  match r.err, r.response with
  | none, some resp =>
    if resp.waiting.isSome then none else resp.certificate.map fun cert => (cert, resp.issueRef)
  | _, _ => none

/-- The certificate of an entry that waits for its confirmation. -/
def TransactionEntry.issued (e : TransactionEntry) : Option Issued :=
  if e.state = .issued then e.cert.map fun cert => (cert, e.issueRef) else none

lemma TransactionEntry.issued_eq_some {e : TransactionEntry} {p : Issued}
    (h : e.issued = some p) : e.state = .issued ∧ e.cert = some p.1 ∧ e.issueRef = p.2 := by
  unfold issued at h
  split_ifs at h with hs
  obtain ⟨cert, hc, rfl⟩ := Option.map_eq_some_iff.mp h
  exact ⟨hs, hc, rfl⟩

/-- What a thread is in charge of: the entry it read last, the certificates it
has to store or report, and those it has reported. -/
structure Custody where
  loaded : Option Cell := none
  due : List Issued := []
  reported : List Issued := []

/-- The monitor of a thread.  An entry is replaced only by the entry that was
computed from it, and an entry is deleted only after one was read. -/
def custodyMonitor : Monitor Effect Effect.Res Custody where
  allowed
    | _, .compareAndSwap .setCompleted _ _ new => new.issued = none
    | g, .compareAndSwap .setPending _ old _ | g, .compareAndSwap .setIssued _ old _ =>
      ∃ c, g.loaded = some c ∧ c.ptr = old ∧ c.entry.issued = none
    | _, .compareAndSwap .. => False
    | g, .loadAndDelete _ _ judged => ∃ c, g.loaded = some c ∧ c.ptr = judged
    | _, .handleCMP .. => False
    | _, .restart .. => False
    | _, _ => True
  rely
    | _, .load .setIssued _, c =>
      ∃ cell, c = some cell ∧ (cell.entry.state = .active ∨ cell.entry.state = .pending)
    | _, .compareAndSwap .setIssued _ _ _, swapped => swapped = true
    | g, .loadAndDelete _ _ _, removed =>
      ∀ cell, removed = some cell → cell.entry.issued ≠ none → g.loaded = some cell
    | _, _, _ => True
  next
    | g, .load _ _, c => { g with loaded := c }
    | g, .issueCertificate .., r => { g with due := g.due ++ r.issued.toList }
    | g, .checkPending .., r => { g with due := g.due ++ r.issued.toList }
    | g, .confirmCertificate cert _ ref _, _ =>
      { g with due := g.due.filter (· ≠ (cert, ref)), reported := (cert, ref) :: g.reported }
    | g, .compareAndSwap _ _ _ new, true =>
      { g with due := g.due.filter fun p => new.issued ≠ some p }
    | g, .loadAndDelete .., some cell =>
      { g with due := g.due ++ cell.entry.issued.toList.filter (· ∉ g.reported) }
    | g, _, _ => g

namespace custodyMonitor

variable (g : Custody) (site : Site) (key : TransactionKey)

@[simp] lemma next_now (now : Time) : custodyMonitor.next g .now now = g := rfl

@[simp] lemma next_load (c : Option Cell) :
    custodyMonitor.next g (.load site key) c = { g with loaded := c } := rfl

@[simp] lemma next_swapped (old : ℕ) (new : TransactionEntry) :
    custodyMonitor.next g (.compareAndSwap site key old new) true =
      { g with due := g.due.filter fun p => new.issued ≠ some p } := rfl

@[simp] lemma next_lost (old : ℕ) (new : TransactionEntry) :
    custodyMonitor.next g (.compareAndSwap site key old new) false = g := rfl

@[simp] lemma next_removed (judged : ℕ) (cell : Cell) :
    custodyMonitor.next g (.loadAndDelete site key judged) (some cell) =
      { g with due := g.due ++ cell.entry.issued.toList.filter (· ∉ g.reported) } := rfl

@[simp] lemma next_absent (judged : ℕ) :
    custodyMonitor.next g (.loadAndDelete site key judged) none = g := rfl

end custodyMonitor

/-! ### Undisturbed steps -/

/-- The operation meets the state its thread counts on: an issuance finds the
transaction open and as it was read, a completion replaces no issued entry, and
an issued entry is deleted only by the thread that judged it. -/
def Undisturbed (t : Tracker) : Effect → Prop
  | .load .setIssued key =>
    ∃ cell, t.cell key = some cell ∧ (cell.entry.state = .active ∨ cell.entry.state = .pending)
  | .compareAndSwap .setIssued key old _ => ∃ cell, t.cell key = some cell ∧ cell.ptr = old
  | .compareAndSwap .setCompleted key old _ =>
    ∀ cell, t.cell key = some cell → cell.ptr = old → cell.entry.state ≠ .issued
  | .loadAndDelete _ key judged =>
    ∀ cell, t.cell key = some cell → cell.entry.state = .issued → cell.ptr = judged
  | _ => True

instance (t : Tracker) : DecidablePred (Undisturbed t) := fun o => by
  unfold Undisturbed
  split
  · exact inferInstanceAs (Decidable (∃ cell ∈ t.cell _, _))
  · exact inferInstanceAs (Decidable (∃ cell ∈ t.cell _, _))
  · exact inferInstanceAs (Decidable (∀ cell ∈ t.cell _, _))
  · exact inferInstanceAs (Decidable (∀ cell ∈ t.cell _, _))
  · exact isTrue trivial

/-! ### Where certificates are -/

/-- The certificate that the CA returns with an event. -/
def returnedBy : ServerEvent → Option Issued
  | ⟨.issueCertificate .., r⟩ => HandlerResult.issued r
  | ⟨.checkPending .., r⟩ => HandlerResult.issued r
  | _ => none

/-- The CA returned the certificate. -/
def Returned (log : ServerLog) (p : Issued) : Prop := ∃ e ∈ log, returnedBy e.2 = some p

/-- The certificate that is reported to the CA with an event. -/
def reportedBy : ServerEvent → Option Issued
  | ⟨.confirmCertificate cert _ ref _, _⟩ => some (cert, ref)
  | _ => none

/-- The certificate was reported to the CA. -/
def Reported (log : ServerLog) (p : Issued) : Prop := ∃ e ∈ log, reportedBy e.2 = some p

/-- An issued entry holds the certificate. -/
def Stored (t : Tracker) (p : Issued) : Prop :=
  ∃ key cell, t.cell key = some cell ∧ cell.entry.issued = some p

instance (log : ServerLog) (p : Issued) : Decidable (Returned log p) :=
  inferInstanceAs (Decidable (∃ e ∈ log, returnedBy e.2 = some p))

instance (log : ServerLog) (p : Issued) : Decidable (Reported log p) :=
  inferInstanceAs (Decidable (∃ e ∈ log, reportedBy e.2 = some p))

instance (t : Tracker) (p : Issued) : Decidable (Stored t p) :=
  decidable_of_iff (∃ e ∈ t.transactions.entries, e.2.entry.issued = some p)
    ⟨fun ⟨e, he, h⟩ => ⟨e.1, e.2, AList.mem_lookup_iff.mpr he, h⟩,
      fun ⟨key, cell, hc, h⟩ => ⟨⟨key, cell⟩, AList.mem_lookup_iff.mp hc, h⟩⟩

/-- The invariant: pointers are unique, every thread knows what it read, reports
are on the log, and every certificate is stored, reported or in the charge of a
thread. -/
structure Accounted (s : ServerSys) (gs : List Custody) : Prop where
  wf : s.mem.Wf
  knows : ∀ g ∈ gs, ∀ c, g.loaded = some c → s.mem.Knows c
  reports : ∀ g ∈ gs, ∀ p ∈ g.reported, Reported s.log p
  custody : ∀ p, Returned s.log p → Stored s.mem p ∨ Reported s.log p ∨ ∃ g ∈ gs, p ∈ g.due

lemma Returned.append_iff {log : ServerLog} {e : ℕ × ServerEvent} {p : Issued} :
    Returned (log ++ [e]) p ↔ Returned log p ∨ returnedBy e.2 = some p := by
  simp [Returned, or_and_right, exists_or]

lemma Reported.append {log : ServerLog} {p : Issued} (h : Reported log p)
    (e : ℕ × ServerEvent) : Reported (log ++ [e]) p := by
  obtain ⟨e', hmem, he'⟩ := h
  exact ⟨e', List.mem_append_left _ hmem, he'⟩

/-- What the thread that takes a step is in charge of afterwards, reported or
stored. -/
lemma custody_step {g : Custody} {o : Effect} {x : o.Res} {t t' : Tracker} {p : Issued}
    (hstep : MapStep t o x t') (hp : p ∈ g.due) (log : ServerLog) (i : ℕ) :
    Stored t' p ∨ Reported (log ++ [(i, ⟨o, x⟩)]) p ∨ p ∈ (custodyMonitor.next g o x).due := by
  cases o with
  | issueCertificate a b c => exact .inr (.inr (List.mem_append_left _ hp))
  | checkPending a b => exact .inr (.inr (List.mem_append_left _ hp))
  | confirmCertificate cert status ref entry =>
    by_cases h : p = (cert, ref)
    · subst h
      exact .inr (.inl ⟨_, List.mem_append_right _ List.mem_cons_self, rfl⟩)
    · exact .inr (.inr (List.mem_filter.mpr ⟨hp, by simpa using h⟩))
  | compareAndSwap site key old new =>
    cases x with
    | false => exact .inr (.inr hp)
    | true =>
      by_cases h : new.issued = some p
      · -- the certificate is stored by this very operation
        obtain ⟨cell, -, -, rfl⟩ := hstep.swapped
        exact .inl ⟨key, ⟨t.nextPtr, cell.txn, new⟩, by rw [Tracker.cell_publish, if_pos rfl], h⟩
      · exact .inr (.inr (List.mem_filter.mpr ⟨hp, by simpa using h⟩))
  | loadAndDelete site key judged =>
    cases x with
    | none => exact .inr (.inr hp)
    | some cell => exact .inr (.inr (List.mem_append_left _ hp))
  | _ => exact .inr (.inr hp)

/-- A stored certificate stays stored, or the thread that takes it out is in charge
of it or has reported it. -/
lemma stored_step {g : Custody} {o : Effect} {x : o.Res} {t t' : Tracker} {p : Issued}
    (hstep : MapStep t o x t') (hg : ∀ c, g.loaded = some c → t.Knows c)
    (ha : custodyMonitor.allowed g o) (hu : Undisturbed t o) (hp : Stored t p) :
    Stored t' p ∨ p ∈ g.reported ∨ p ∈ (custodyMonitor.next g o x).due := by
  obtain ⟨key', cell', hcell', hp⟩ := hp
  have hstored : ∀ {t1 : Tracker}, t1.cell key' = some cell' → Stored t1 p :=
    fun h => ⟨key', cell', h, hp⟩
  cases hstep with
  | store key entry h =>
    refine .inl (hstored ?_)
    rw [Tracker.cell_publish, if_neg, hcell']
    rintro rfl
    rw [h] at hcell'
    cases hcell'
  | swap site key cell new h =>
    refine .inl (hstored ?_)
    rw [Tracker.cell_publish, if_neg, hcell']
    rintro rfl
    -- the entry that is replaced is not an issued one
    obtain rfl : cell = cell' := Option.some.inj (h.symm.trans hcell')
    have hread : ∀ c, g.loaded = some c ∧ c.ptr = cell.ptr ∧ c.entry.issued = none → False := by
      rintro c ⟨hc, hptr, hnone⟩
      obtain rfl := (hg c hc).names h hptr.symm
      rw [hp] at hnone
      cases hnone
    cases site with
    | setCompleted => exact hu cell h rfl (TransactionEntry.issued_eq_some hp).1
    | setPending =>
      obtain ⟨c, hc⟩ := ha
      exact hread c hc
    | setIssued =>
      obtain ⟨c, hc⟩ := ha
      exact hread c hc
    | _ => exact ha
  | delete site key judged =>
    by_cases hk : key' = key
    · subst hk
      by_cases hr : p ∈ g.reported
      · exact .inr (.inl hr)
      · refine .inr (.inr ?_)
        rw [hcell']
        simp [custodyMonitor, hp, hr]
    · refine .inl (hstored ?_)
      rw [Tracker.cell_remove, if_neg hk, hcell']
  | restart r a b w t' h => exact ha.elim
  | other x t' ho hc hn =>
    refine .inl (hstored ?_)
    unfold Tracker.cell at hcell' ⊢
    rw [hc, hcell']
  | _ => exact .inl (hstored hcell')

/-- The answers a thread counts on are the ones it gets in an undisturbed step. -/
lemma rely_of_undisturbed {g : Custody} {o : Effect} {x : o.Res} {t t' : Tracker}
    (hstep : MapStep t o x t') (hg : ∀ c, g.loaded = some c → t.Knows c)
    (ha : custodyMonitor.allowed g o) (hu : Undisturbed t o) : custodyMonitor.rely g o x := by
  cases hstep with
  | load site key => cases site <;> trivial
  | swap site key cell new h => cases site <;> trivial
  | lost site key old new h =>
    cases site <;> try trivial
    obtain ⟨cell, hcell, hptr⟩ := hu
    exact absurd hptr (h cell hcell)
  | delete site key judged =>
    intro cell hcell hne
    obtain ⟨c, hc, hptr⟩ := ha
    have hst : cell.entry.state = .issued := by
      by_contra hst
      exact hne (by simp [TransactionEntry.issued, hst])
    obtain rfl := (hg c hc).names hcell ((hu cell hcell hst).trans hptr.symm)
    exact hc
  | other x t' ho hc hn => cases o <;> first | trivial | exact absurd trivial ho
  | _ => trivial

/-! ### The threads -/

/-- What a thread has read is known after the step. -/
lemma loaded_step {g : Custody} {o : Effect} {x : o.Res} {t t' : Tracker}
    (hstep : MapStep t o x t') (hw : t.Wf) (hg : ∀ c, g.loaded = some c → t.Knows c) :
    ∀ c, (custodyMonitor.next g o x).loaded = some c → t'.Knows c := by
  have hkeep : ∀ c, g.loaded = some c → t'.Knows c := fun c hc => hstep.knows (hg c hc)
  cases o with
  | load site key =>
    rintro c rfl
    exact hstep.loaded_knows hw
  | compareAndSwap site key old new => cases x <;> exact hkeep
  | loadAndDelete site key judged => cases x <;> exact hkeep
  | _ => exact hkeep

/-- The reports of a thread are on the log after the step. -/
lemma reported_step {g : Custody} {o : Effect} {x : o.Res} {log : ServerLog} (i : ℕ)
    (hg : ∀ p ∈ g.reported, Reported log p) :
    ∀ p ∈ (custodyMonitor.next g o x).reported, Reported (log ++ [(i, ⟨o, x⟩)]) p := by
  have hkeep : ∀ p ∈ g.reported, Reported (log ++ [(i, ⟨o, x⟩)]) p :=
    fun p hp => (hg p hp).append _
  cases o with
  | confirmCertificate cert status ref entry =>
    intro p hp
    obtain rfl | hp := List.mem_cons.mp hp
    · exact ⟨_, List.mem_append_right _ List.mem_cons_self, rfl⟩
    · exact hkeep p hp
  | compareAndSwap site key old new => cases x <;> exact hkeep
  | loadAndDelete site key judged => cases x <;> exact hkeep
  | _ => exact hkeep

/-- A certificate that is returned is in the charge of the thread that asked. -/
lemma returned_step {g : Custody} {o : Effect} {x : o.Res} {p : Issued}
    (h : returnedBy ⟨o, x⟩ = some p) : p ∈ (custodyMonitor.next g o x).due := by
  cases o with
  | issueCertificate a b c =>
    have h : HandlerResult.issued x = some p := h
    simp [custodyMonitor, h]
  | checkPending a b =>
    have h : HandlerResult.issued x = some p := h
    simp [custodyMonitor, h]
  | _ => cases h

/-! ### Programs under the monitor -/

namespace TrackerConfig

variable (t : TrackerConfig)

/-- An open entry holds no certificate. -/
lemma issued_of_open {e : TransactionEntry} (h : ¬ (e.state ≠ .active ∧ e.state ≠ .pending)) :
    e.issued = none := by
  have hs : e.state ≠ .issued := fun hs => h (by simp [hs])
  simp [TransactionEntry.issued, hs]

/-- `setPending` leaves the thread in charge of what it was. -/
lemma setPending_custody (credID txID : Bytes) (reqType : RequestType) (pollRef : GoString)
    (nonce : Bytes) (checkAfter : Duration) (last : Time) (g : Custody) :
    Prog.Obeys custodyMonitor (fun g' _ => g'.due = g.due) g
      (t.setPending credID txID reqType pollRef nonce checkAfter last) := by
  simp only [setPending, replaceOpen, perform, Prog.call_bind, Prog.Obeys.op_iff,
    custodyMonitor.next_load]
  refine ⟨by trivial, fun old _ => ?_⟩
  cases old with
  | none => rfl
  | some old =>
    simp only
    split_ifs with h
    · rfl
    · refine ⟨by trivial, fun now _ => ⟨⟨old, rfl, rfl, issued_of_open h⟩, fun ok _ => ?_⟩⟩
      cases ok <;> simp [TransactionEntry.issued]

/-- `setIssued` takes the certificate over from the thread. -/
lemma setIssued_custody (credID txID : Bytes) (reqType : RequestType) (certReqID : ℤ)
    (cert : Certificate) (ref : Option IssueRef) (nonce clientNonce : Bytes)
    (params : Option MACCredentialOption) (alg : Option AlgorithmIdentifier) {g : Custody}
    (hg : g.due = [(cert, ref)]) :
    Prog.Obeys custodyMonitor (fun g' ok => ok = true ∧ g'.due = []) g
      (t.setIssued credID txID reqType certReqID cert ref nonce clientNonce params alg) := by
  simp only [setIssued, replaceOpen, perform, Prog.call_bind, Prog.Obeys.op_iff,
    custodyMonitor.next_load]
  refine ⟨by trivial, fun old hold => ?_⟩
  obtain ⟨cell, rfl, hst⟩ := hold
  have hopen : ¬ (cell.entry.state ≠ .active ∧ cell.entry.state ≠ .pending) := by tauto
  simp only [if_neg hopen]
  refine ⟨by trivial, fun now _ => ⟨⟨cell, rfl, rfl, issued_of_open hopen⟩, fun ok hok => ?_⟩⟩
  obtain rfl : ok = true := hok
  simp [hg, TransactionEntry.issued]

lemma complete_custody (key : TransactionKey) (retries : ℕ) (g : Custody) :
    Prog.Obeys custodyMonitor (fun g' _ => g'.due = g.due) g (complete key retries) := by
  induction retries generalizing g with
  | zero => exact ⟨by trivial, nofun⟩
  | succ retries ih =>
    simp only [complete, perform, Prog.call_bind, Prog.Obeys.op_iff, custodyMonitor.next_load]
    refine ⟨by trivial, fun old _ => ?_⟩
    cases old with
    | none => rfl
    | some old =>
      simp only [Prog.Obeys.op_iff, custodyMonitor.next_now]
      refine ⟨by trivial, fun now _ => ⟨by simp [custodyMonitor, TransactionEntry.issued], ?_⟩⟩
      intro swapped _
      cases swapped with
      | true => simp [TransactionEntry.issued]
      | false => simpa using ih { g with loaded := some old }

lemma release_custody (ck : CredentialKey) (g : Custody) :
    Prog.Obeys custodyMonitor (fun g' _ => g' = g) g (release ck) :=
  ⟨by trivial, fun _ _ => ⟨by trivial, fun _ _ => ⟨by trivial, fun _ _ => rfl⟩⟩⟩

/-- `delete` after the certificate of the entry was reported. -/
lemma delete_custody (credID txID : Bytes) {cell : Cell} {g : Custody}
    (hl : g.loaded = some cell) (hr : ∀ p, cell.entry.issued = some p → p ∈ g.reported) :
    Prog.Obeys custodyMonitor (fun g' _ => g'.due = g.due) g (t.delete credID txID cell.ptr) := by
  simp only [delete, perform, Prog.call_bind, Prog.Obeys.op_iff]
  refine ⟨⟨cell, hl, rfl⟩, fun removed hrely => ?_⟩
  cases removed with
  | none => rfl
  | some c =>
    have hnone : c.entry.issued.toList.filter (· ∉ g.reported) = [] := by
      cases hp : c.entry.issued with
      | none => rfl
      | some p =>
        obtain rfl : cell = c := Option.some.inj (hl.symm.trans (hrely c rfl (by simp [hp])))
        simp [hr p hp]
    refine (release_custody c.entry.credentialKey _).mono fun g' _ h => ?_
    rw [h, custodyMonitor.next_removed, hnone, List.append_nil]

/-- What is due is among what is to be notified. -/
def Listed (due : List Issued) (infos : List IssuedInfo) : Prop :=
  ∀ p ∈ due, ∃ e ∈ infos, e.cert = some p.1 ∧ e.issueRef = p.2

/-- One visit of the cleanup: a certificate that is taken out is listed. -/
lemma expire_custody (cutoff : Time) (key : TransactionKey) {g : Custody}
    {infos : List IssuedInfo} (hg : Listed g.due infos) :
    Prog.Obeys custodyMonitor (fun g' es => Listed g'.due (infos ++ es)) g (expire cutoff key) := by
  simp only [expire, perform, Prog.call_bind, Prog.Obeys.op_iff, custodyMonitor.next_load]
  refine ⟨by trivial, fun value _ => ?_⟩
  cases value with
  | none => simpa using hg
  | some c =>
    simp only
    by_cases hbefore : c.entry.lastActivity.before cutoff
    · simp only [hbefore, if_true, Prog.Obeys.op_iff]
      refine ⟨⟨c, rfl, rfl⟩, fun removed hrely => ?_⟩
      cases removed with
      | none => simpa using hg
      | some cell =>
        simp only [Option.isSome_some, if_true]
        refine Prog.Obeys.bind (release_custody c.entry.credentialKey _) ?_
        rintro _ _ rfl
        suffices h : Listed (g.due ++ cell.entry.issued.toList) (infos ++
            if c.entry.state = .issued ∧ c.entry.cert.isSome then
              [⟨c.entry.cert, c.entry.issueRef, c.txn⟩] else []) by
          have hsub : ∀ p ∈ (g.due ++ cell.entry.issued.toList.filter (· ∉ g.reported)),
              p ∈ g.due ++ cell.entry.issued.toList :=
            fun p hp => (List.mem_append.mp hp).elim (List.mem_append_left _)
              fun hp => List.mem_append_right _ (List.mem_filter.mp hp).1
          split_ifs at h ⊢ <;> exact fun p hp => h p (hsub p hp)
        intro p hp
        obtain hp | hp := List.mem_append.mp hp
        · obtain ⟨e, he, h⟩ := hg p hp
          exact ⟨e, List.mem_append_left _ he, h⟩
        · -- the entry that was taken out is the one that was judged
          have hp : cell.entry.issued = some p := by simpa using hp
          obtain rfl : c = cell := Option.some.inj (hrely cell rfl (by simp [hp]))
          obtain ⟨hst, hcert, href⟩ := TransactionEntry.issued_eq_some hp
          exact ⟨⟨c.entry.cert, c.entry.issueRef, c.txn⟩, by simp [hst, hcert], hcert, href⟩
    · simpa [hbefore] using hg

lemma expireAll_custody (cutoff : Time) (keys : List TransactionKey) {g : Custody}
    {infos : List IssuedInfo} (hg : Listed g.due infos) :
    Prog.Obeys custodyMonitor (fun g' es => Listed g'.due (infos ++ es)) g
      (expireAll cutoff keys) := by
  induction keys generalizing g infos with
  | nil => simpa [expireAll] using hg
  | cons key keys ih =>
    refine Prog.Obeys.bind (expire_custody cutoff key hg) fun g1 e h1 => ?_
    refine Prog.Obeys.bind (ih h1) fun g2 es h2 => ?_
    simpa using h2

end TrackerConfig

/-! ### The handler of a CA -/

/-- What a call of a handler does for a thread that is in charge of nothing: the
thread has to take care of the certificate that is returned, and after a certConf
without an error the certificate of the context is reported. -/
structure Handled (ctx : Ctx) (msg : PKIMessage) (g g' : Custody) (r : HandlerResult) : Prop where
  loaded : g'.loaded = g.loaded
  due : g'.due = r.issued.toList
  silent : msg.body.type = BodyTypeCertConf ∨ msg.body.type = BodyTypeRR → r.issued = none
  confirmed : msg.body.type = BodyTypeCertConf → r.err = none →
    ∀ info cert, ctx.issued = some info → info.cert = some cert →
      (cert, info.issueRef) ∈ g'.reported

/-- Every call of the handler is of this kind. -/
def Handler.KeepsCustody (h : Handler) : Prop :=
  ∀ ctx msg sender g, g.due = [] →
    Prog.Obeys custodyMonitor (Handled ctx msg g) g (h ctx msg sender)

section

variable {cr : Crypto} {ca : CAInterfaces} {ctx : Ctx} {msg : PKIMessage} {g : Custody}

lemma handled_refuse (hg : g.due = []) (e : GoError) : Handled ctx msg g g (.refuse e) :=
  ⟨rfl, hg, fun _ => rfl, fun _ h => by cases h⟩

lemma caHandleCertRequest_custody (hg : g.due = []) (hm : isCertRequest msg.body.type)
    (sender : SenderIdentity) :
    Prog.Obeys custodyMonitor (Handled ctx msg g) g (caHandleCertRequest cr ctx msg sender) := by
  have hne : ¬ (msg.body.type = BodyTypeCertConf ∨ msg.body.type = BodyTypeRR) := by
    rintro (h | h) <;> rw [h] at hm <;> exact absurd hm (by decide)
  unfold caHandleCertRequest
  split
  · exact handled_refuse hg _
  · refine ⟨by trivial, fun r _ => ⟨rfl, ?_, fun h => absurd h hne, fun h => absurd (.inl h) hne⟩⟩
    simp [custodyMonitor, hg]

lemma caHandleCertConf_custody (hg : g.due = []) (hca : ca.certificateConfirmer) :
    Prog.Obeys custodyMonitor (Handled ctx msg g) g (caHandleCertConf ca ctx msg) := by
  unfold caHandleCertConf
  rw [if_neg (by simp [hca])]
  split
  · exact handled_refuse hg _
  · split
    · exact handled_refuse hg _
    · next cert hcert =>
      obtain ⟨info, hinfo, hc⟩ := Option.bind_eq_some_iff.mp hcert
      refine ⟨by trivial, fun err _ => ⟨rfl, ?_, fun _ => ?_, ?_⟩⟩
      · cases err <;> simp [custodyMonitor, hg, HandlerResult.issued]
      · cases err <;> rfl
      · rintro _ _ info' cert' hinfo' hc'
        obtain rfl : info = info' := Option.some.inj (hinfo.symm.trans hinfo')
        obtain rfl : cert = cert' := Option.some.inj (hc.symm.trans hc')
        simp [custodyMonitor, hinfo]

lemma caHandlePollReq_custody (hg : g.due = []) (hm : msg.body.type = BodyTypePollReq)
    (sender : SenderIdentity) :
    Prog.Obeys custodyMonitor (Handled ctx msg g) g (caHandlePollReq ca ctx sender) := by
  have hne : ¬ (msg.body.type = BodyTypeCertConf ∨ msg.body.type = BodyTypeRR) := by
    rw [hm]
    decide
  unfold caHandlePollReq
  split_ifs
  · exact handled_refuse hg _
  · split
    · exact handled_refuse hg _
    · refine ⟨by trivial, fun r _ => ⟨rfl, ?_, fun h => absurd h hne, fun h => absurd (.inl h) hne⟩⟩
      simp [custodyMonitor, hg]

lemma caHandleRevocation_custody (hg : g.due = []) (hm : msg.body.type = BodyTypeRR)
    (sender : SenderIdentity) :
    Prog.Obeys custodyMonitor (Handled ctx msg g) g (caHandleRevocation cr ca msg sender) := by
  have hne : msg.body.type ≠ BodyTypeCertConf := by
    rw [hm]
    decide
  unfold caHandleRevocation
  split_ifs
  · exact handled_refuse hg _
  · split
    · exact handled_refuse hg _
    · next req _ =>
      have hrefusal : Prog.Obeys custodyMonitor (fun g' _ => g' = g) g
          (revocationRefusal cr ca req sender) := by
        unfold revocationRefusal
        split
        · split <;> rfl
        · split_ifs
          · rfl
          · exact ⟨by trivial, fun _ _ => rfl⟩
      refine Prog.Obeys.bind hrefusal ?_
      rintro _ refused rfl
      cases refused with
      | some e => exact handled_refuse hg e
      | none =>
        refine ⟨by trivial, fun err _ => ?_⟩
        cases err <;> exact ⟨rfl, hg, fun _ => rfl, fun h => absurd h hne⟩

/-- **A CA that takes confirmations**, behind a policy, keeps custody. -/
lemma policy_keepsCustody (check : Ctx → PKIMessage → SenderIdentity → Except GoError Unit)
    (hca : ca.certificateConfirmer) : (policy check (caHandler cr ca)).KeepsCustody := by
  intro ctx msg sender g hg
  unfold policy
  split
  · exact handled_refuse hg _
  · unfold caHandler
    split_ifs with h1 h2 h3 h4
    · exact caHandleCertRequest_custody hg h1 sender
    · exact caHandleCertConf_custody hg hca
    · exact caHandlePollReq_custody hg h3 sender
    · exact caHandleRevocation_custody hg h4 sender
    · exact handled_refuse hg _

end

namespace Server

/-- The notifications report everything that is due. -/
lemma notifyExpired_custody (infos : List IssuedInfo) {g : Custody}
    (hg : TrackerConfig.Listed g.due infos) :
    Prog.Obeys custodyMonitor (fun g' _ => g'.due = []) g (notifyExpired infos) := by
  induction infos generalizing g with
  | nil =>
    refine List.eq_nil_iff_forall_not_mem.mpr fun p hp => ?_
    obtain ⟨e, he, -⟩ := hg p hp
    cases he
  | cons e es ih =>
    unfold notifyExpired
    split
    · next hcert =>
      refine ih fun p hp => ?_
      obtain ⟨e', he', h, hr⟩ := hg p hp
      obtain rfl | he' := List.mem_cons.mp he'
      · rw [hcert] at h
        cases h
      · exact ⟨e', he', h, hr⟩
    · next cert hcert =>
      refine ⟨by trivial, fun _ _ => ih fun p hp => ?_⟩
      obtain ⟨hp, hne⟩ := List.mem_filter.mp hp
      obtain ⟨e', he', h, hr⟩ := hg p hp
      obtain rfl | he' := List.mem_cons.mp he'
      · -- this is the certificate that is being reported
        obtain rfl : cert = p.1 := Option.some.inj (hcert.symm.trans h)
        simp [hr] at hne
      · exact ⟨e', he', h, hr⟩

variable {srv : Server}

/-- The cleanup stores or reports what it takes out. -/
lemma cleanupExpired_custody (hc : srv.cfg.confirmer) {g : Custody} (hg : g.due = []) :
    Prog.Obeys custodyMonitor (fun g' _ => g'.due = []) g srv.cleanupExpired := by
  have hlisted : ∀ infos, TrackerConfig.Listed g.due infos := fun infos => by
    simp [TrackerConfig.Listed, hg]
  refine Prog.Obeys.bind (R := fun g' es => TrackerConfig.Listed g'.due es) ?_ fun g' es h => ?_
  · unfold TrackerConfig.cleanupExpired
    split_ifs
    · exact hlisted []
    · refine ⟨by trivial, fun now _ => ⟨by trivial, fun keys _ => ?_⟩⟩
      exact TrackerConfig.expireAll_custody (now - srv.cfg.confirmWait) keys (hlisted [])
  · rw [if_pos hc]
    exact notifyExpired_custody es h

/-- What a thread is in charge of at each point. -/
def InCharge : Point → Custody → Prop
  | .looked _ found, g => g.due = [] ∧ g.loaded = found
  | .called _ r, g | .built (.called _ r) .., g | .completed _ r _, g => g.due = r.issued.toList
  | .judged cell r, g => g.due = [] ∧ (r.err = none →
      g.loaded = some cell ∧ ∀ p, cell.entry.issued = some p → p ∈ g.reported)
  | _, g => g.due = []

section

variable {msg : PKIMessage} {sender : SenderIdentity} {pt : Point} {r : HandlerResult} {g : Custody}

lemma issued_of_bare {found : Option Cell} (h : (Point.called found r).Bare) : r.issued = none := by
  unfold HandlerResult.issued
  split
  · next resp herr hr =>
    split_ifs with hw
    · rfl
    · rw [h resp ⟨herr, hr, Option.not_isSome_iff_eq_none.mp hw⟩]
      rfl
  · rfl

lemma issued_of_waits {w : WaitingResponse} (h : r.Waits w) : r.issued = none := by
  obtain ⟨herr, resp, hr, hw⟩ := h
  simp [HandlerResult.issued, herr, hr, hw]

lemma issued_of_decides {h : Response} {cert : Certificate} (hd : r.Decides h)
    (hc : h.certificate = some cert) : r.issued = some (cert, h.issueRef) := by
  obtain ⟨herr, hr, hw⟩ := hd
  simp [HandlerResult.issued, herr, hr, hw, hc]

/-- Building a response changes nothing. -/
lemma InCharge.built (h : pt.Open) (hg : InCharge pt g) (body : PKIBody) (tr : History)
    (resp : PKIMessage) : InCharge (.built pt body tr resp) g := by
  cases pt with
  | looked => exact hg.1
  | judged => exact hg.1
  | built => exact h.elim
  | completed => exact h.elim
  | _ => exact hg

lemma InCharge.due_of_bare (h : pt.Bare) (hg : InCharge pt g) : g.due = [] := by
  cases pt with
  | looked => exact hg.1
  | judged => exact hg.1
  | called => exact hg.trans (by rw [issued_of_bare h]; rfl)
  | built => exact h.elim
  | completed => exact h.elim
  | _ => exact hg

lemma InCharge.due_of_sends {resp : PKIMessage} (hc : srv.cfg.confirmer)
    (h : srv.Sends pt resp) (hg : InCharge pt g) : g.due = [] := by
  cases h with
  | @built pt _ _ _ h =>
    cases pt with
    | called => exact hg.trans (by rw [issued_of_bare h]; rfl)
    | _ => exact hg
  | completed h => exact absurd hc h
  | _ => exact hg

end

variable (hh : srv.handler.KeepsCustody) (hc : srv.cfg.confirmer)
include hh hc

/-- **The handlers** store or report the certificate they are given. -/
lemma Handles.custody {msg : PKIMessage} {sender : SenderIdentity} {pt : Point}
    {p : ServerThread} (hp : srv.Handles msg sender pt p) {g : Custody}
    (hg : InCharge pt g) : Prog.Obeys custodyMonitor (fun g' _ => g'.due = []) g p := by
  induction hp generalizing g with
  | drop h => exact hg.due_of_bare h.bare
  | send h => exact hg.due_of_sends hc h
  | look _ hsite _ ih =>
    refine ⟨?_, fun found _ => ih found ⟨hg, rfl⟩⟩
    obtain rfl | rfl := hsite <;> trivial
  | clock _ ih => exact ⟨trivial, fun now _ => ih now hg.1⟩
  | call h _ ih =>
    cases h with
    | request => exact Prog.Obeys.bind (hh _ _ _ g hg.1) fun g' r hr => ih r hr.due
    | poll _ hpt =>
      have hdue : g.due = [] := by
        obtain rfl | ⟨now, rfl⟩ := hpt
        · exact hg.1
        · exact hg
      exact Prog.Obeys.bind (hh _ _ _ g hdue) fun g' r hr => ih r hr.due
    | confirm hq =>
      refine Prog.Obeys.bind (hh _ _ _ g hg.1) fun g' r hr => ih r ⟨?_, fun herr => ?_⟩
      · rw [hr.due, hr.silent (.inl hq)]
        rfl
      · refine ⟨hr.loaded.trans hg.2, fun p hp => ?_⟩
        obtain ⟨-, hcert, href⟩ := TransactionEntry.issued_eq_some hp
        rw [← Prod.mk.eta (p := p), ← href]
        exact hr.confirmed hq herr _ _ rfl hcert
    | revoke hq =>
      refine Prog.Obeys.bind (hh _ _ _ g hg) fun g' r hr => ih r ?_
      show g'.due = []
      rw [hr.due, hr.silent (.inr hq)]
      rfl
  | build h _ ih =>
    refine h.obeys_idle (fun o ho => ?_) fun tr resp ha =>
      ih tr resp ha (hg.built h.opened _ tr resp)
    cases o <;> first | exact ho.elim | exact ⟨trivial, fun _ => rfl⟩
  | pend _ hw _ _ hclock _ ih =>
    refine clock_obeys hclock ⟨trivial, fun _ => rfl⟩ fun last => ?_
    refine Prog.Obeys.bind (srv.tracker.setPending_custody ..) fun g' ok hg' => ih ok ?_
    exact hg'.trans (hg.trans (by rw [issued_of_waits hw]; rfl))
  | issue _ hd hcert _ _ ih =>
    refine Prog.Obeys.bind (srv.tracker.setIssued_custody _ _ _ _ _ _ _ _ _ _ ?_)
      fun g' ok hok => ih ok hok.2
    exact hg.trans (by rw [issued_of_decides hd hcert]; rfl)
  | complete _ _ ih =>
    exact Prog.Obeys.bind (TrackerConfig.complete_custody _ _ g) fun g' _ hg' =>
      ih (hg'.trans hg)
  | @tell _ r h cert _ _ hd hcert _ ih =>
    refine ⟨trivial, fun err _ => ih err ?_⟩
    have hdue : g.due = r.issued.toList := hg
    show g.due.filter (· ≠ (cert, h.issueRef)) = []
    simp [hdue, issued_of_decides hd hcert]
  | delete _ herr _ ih =>
    obtain ⟨hl, hr⟩ := hg.2 herr
    exact Prog.Obeys.bind (srv.tracker.delete_custody _ _ hl hr) fun g' _ hg' =>
      ih (hg'.trans hg.1)
  | finish _ _ ih =>
    exact Prog.Obeys.bind (TrackerConfig.complete_custody _ _ g) fun g' _ hg' =>
      ih (hg'.trans hg)

/-- **Every thread** of the server takes care of what it is in charge of. -/
lemma thread_custody {p : ServerThread} (hp : srv.Thread p) :
    Prog.Obeys custodyMonitor (fun g' _ => g'.due = []) {} p := by
  cases hp with
  | message msg =>
    refine srv.process_obeys_of_dispatch (fun o ho => ?_) (by trivial) (fun _ => rfl)
      (fun msg sender => (srv.dispatch_handles msg sender).custody hh hc (g := {}) rfl) 2 msg none
    cases o <;> first | exact ho.elim | exact ⟨trivial, fun _ => rfl⟩
  | cleanup => exact Prog.Obeys.bind (cleanupExpired_custody hc rfl) fun g' _ h => h

end Server

/-! ### Runs -/

/-- One step of a thread keeps every certificate accounted for. -/
lemma Accounted.after {s : ServerSys} {gs : List Custody} {i : ℕ} {c : Oracle} {g : Custody}
    {o : Effect} {k : o.Res → ServerThread} {x : o.Res} {t : Tracker}
    (h : Accounted s gs) (hi : gs[i]? = some g) (ha : custodyMonitor.allowed g o)
    (hx : exec o c s.mem = some (x, t)) (hu : Undisturbed s.mem o) :
    Accounted (s.after i o k x t) (gs.set i (custodyMonitor.next g o x)) := by
  have hstep := exec_mapStep hx
  have hg : g ∈ gs := List.mem_of_getElem? hi
  have hmem : custodyMonitor.next g o x ∈ gs.set i (custodyMonitor.next g o x) :=
    mem_set_of_getElem? hi _
  refine ⟨hstep.wf h.wf, fun g' hg' => ?_, fun g' hg' => ?_, fun p hp => ?_⟩
  · obtain hg' | rfl := List.mem_or_eq_of_mem_set hg'
    · exact fun c hc => hstep.knows (h.knows g' hg' c hc)
    · exact loaded_step hstep h.wf (h.knows g hg)
  · obtain hg' | rfl := List.mem_or_eq_of_mem_set hg'
    · exact fun p hp => (h.reports g' hg' p hp).append _
    · exact reported_step i (h.reports g hg)
  · -- a certificate of before the step, or the one this step returned
    obtain hp | hp := Returned.append_iff.mp hp
    · obtain hst | hrep | ⟨g', hg', hdue⟩ := h.custody p hp
      · obtain hst | hrep | hdue := stored_step hstep (h.knows g hg) ha hu hst
        · exact .inl hst
        · exact .inr (.inl ((h.reports g hg p hrep).append _))
        · exact .inr (.inr ⟨_, hmem, hdue⟩)
      · exact .inr (.inl (hrep.append _))
      · obtain rfl | hg' := eq_or_mem_set hi (custodyMonitor.next g o x) hg'
        · obtain hst | hrep | hdue := custody_step hstep hdue s.log i
          · exact .inl hst
          · exact .inr (.inl hrep)
          · exact .inr (.inr ⟨_, hmem, hdue⟩)
        · exact .inr (.inr ⟨g', hg', hdue⟩)
    · exact .inr (.inr ⟨_, hmem, returned_step hp⟩)

namespace Server

lemma accounted_inductive {srv : Server} (hh : srv.handler.KeepsCustody)
    (hc : srv.cfg.confirmer) :
    Sys.Inductive exec custodyMonitor (fun g _ => g.due = []) Accounted
      fun s a => srv.Starts a ∧ s.OnStep (fun s _ => Undisturbed s.mem) a where
  spawn s gs p hw hp := by
    obtain ⟨-, h⟩ := hw
    refine ⟨{}, thread_custody hh hc (hp.1 p rfl), h.wf, fun g hg => ?_, fun g hg => ?_,
      fun q hq => ?_⟩
    · obtain hg | hg := List.mem_append.mp hg
      · exact h.knows g hg
      · obtain rfl := List.mem_singleton.mp hg
        exact fun c hc => by cases hc
    · obtain hg | hg := List.mem_append.mp hg
      · exact h.reports g hg
      · obtain rfl := List.mem_singleton.mp hg
        exact fun p hp => by cases hp
    · obtain hst | hrep | ⟨g, hg, hdue⟩ := h.custody q hq
      · exact .inl hst
      · exact .inr (.inl hrep)
      · exact .inr (.inr ⟨g, List.mem_append_left _ hg, hdue⟩)
  step s gs i c g o k x t hw hi hth ha hx hc := by
    have hu : Undisturbed s.mem o := hc.2.of_op hth
    have hknows := hw.2.knows g (List.mem_of_getElem? hi)
    exact ⟨rely_of_undisturbed (exec_mapStep hx) hknows ha hu, hw.2.after hi ha hx hu⟩

/-- **No issued certificate is lost** in a run of undisturbed steps: when no
request is in progress, every certificate that the CA returned is in an issued
entry or was reported to the CA. -/
theorem certificates_accounted (cr : Crypto) (retries : ℕ) (ca : CAInterfaces)
    (check : Ctx → PKIMessage → SenderIdentity → Except GoError Unit) (cfg : ServerConfig)
    (hca : ca.certificateConfirmer)
    (actions : List ServerAction) (s : ServerSys)
    (hstarts : ∀ a ∈ actions, (newCA cr retries ca (policy check) cfg).Starts a)
    (hundisturbed : Sys.Along exec (Sys.OnStep fun s _ => Undisturbed s.mem) (.init {}) actions)
    (hrun : Sys.run exec (.init {}) actions = some s) (hq : s.Quiescent) :
    ∀ p, Returned s.log p → Stored s.mem p ∨ Reported s.log p := by
  have hh : (newCA cr retries ca (policy check) cfg).handler.KeepsCustody :=
    policy_keepsCustody check hca
  have hI := accounted_inductive hh (by simp [newCA, new, hca])
  have hinit : Accounted (.init {}) [] :=
    ⟨Tracker.Wf.empty 0, by simp, by simp, fun p ⟨e, he, _⟩ => by cases he⟩
  obtain ⟨gs, hw⟩ := Sys.invariant hI ⟨.nil, hinit⟩ (hundisturbed.and_forall hstarts) hrun
  intro p hp
  obtain hst | hrep | ⟨g, hg, hdue⟩ := hw.2.custody p hp
  · exact .inl hst
  · exact .inr hrep
  · -- no thread is in charge of anything any more
    obtain ⟨_, hnil⟩ := hw.quiescent hq g hg
    rw [hnil] at hdue
    cases hdue

/-! ### Concrete runs -/

/-- The certificate of the sample CA. -/
def sampleIssued : Issued := (sampleCertificate, none)

/-- Some steps of a request, a cleanup a minute later, and the rest of the
request. -/
def sampleExpiry (before cleanup rest : ℕ) :
    List ServerAction :=
  sampleStart sampleRequest :: sampleSteps 0 before 1 ++ sampleCleanup ::
    sampleSteps 1 cleanup (60 * Time.second) ++ sampleSteps 0 rest (60 * Time.second)

lemma starts_of_sampleExpiry (before cleanup rest : ℕ) :
    ∀ a ∈ sampleExpiry before cleanup rest, sampleCA.Starts a := by
  simp only [sampleExpiry, List.cons_append, List.append_assoc, List.forall_mem_cons,
    List.forall_mem_append]
  exact ⟨starts_sampleStart _, starts_sampleSteps _ _ _ _, starts_sampleCleanup,
    starts_sampleSteps _ _ _ _, starts_sampleSteps _ _ _ _⟩

/-- The entry expires while the CA issues the certificate, and the certificate is
neither stored nor reported. -/
theorem certificate_lost_to_cleanup :
    ∃ actions s p, (∀ a ∈ actions, sampleCA.Starts a) ∧
      Sys.run exec (.init {}) actions = some s ∧ s.Quiescent ∧
      Returned s.log p ∧ ¬ Stored s.mem p ∧ ¬ Reported s.log p := by
  have hlost : (Sys.run exec (.init {}) (sampleExpiry 8 7 10)).any (fun s =>
      decide (s.Quiescent ∧ Returned s.log sampleIssued ∧ ¬ Stored s.mem sampleIssued ∧
        ¬ Reported s.log sampleIssued)) = true := by decide +kernel
  obtain ⟨s, hrun, h⟩ := (Option.any_eq_true _ _).mp hlost
  exact ⟨_, s, sampleIssued, starts_of_sampleExpiry 8 7 10, hrun, of_decide_eq_true h⟩

/-- The entry expires after the certificate was stored, and the certificate is
reported. -/
theorem certificate_of_expired_entry :
    ∃ s, Sys.run exec (.init {}) (sampleExpiry 16 8 0) = some s ∧ s.Quiescent ∧
      Returned s.log sampleIssued ∧ (Stored s.mem sampleIssued ∨ Reported s.log sampleIssued) := by
  have hquiet : (Sys.run exec (.init {}) (sampleExpiry 16 8 0)).any (fun s =>
      decide (s.Quiescent ∧ Returned s.log sampleIssued)) = true := by decide +kernel
  obtain ⟨s, hrun, h⟩ := (Option.any_eq_true _ _).mp hquiet
  obtain ⟨hq, hreturned⟩ := of_decide_eq_true h
  exact ⟨s, hrun, hq, hreturned, certificates_accounted .sample 0 ⟨true, true, false, false⟩
    (fun _ _ _ => .ok ()) { secretLookup := true } rfl (sampleExpiry 16 8 0) s
    (starts_of_sampleExpiry 16 8 0) (by decide +kernel) hrun hq sampleIssued hreturned⟩

end Server

end PkiCmp
