/-
Verdicts on issued certificates.

* `Handler.KeepsMandate`: a handler reports only on the transaction it is called
  for, which `caHandler` behind a policy does (`policy_keepsMandate`);
* `thread_mandate`: every thread of the server keeps to its mandate;
* `verdict_at_most_once`: in a run of exclusive steps no transaction gets two
  verdicts.
-/
import PkiCmp.Server.Mandate

namespace PkiCmp

open Der Interact

/-! ### Programs under the monitor -/

namespace TrackerConfig

variable (t : TrackerConfig)

/-- `setPending` and `setIssued` replace an open entry. -/
lemma replaceOpen_mandate {site : Site} (hsite : site = .setPending ∨ site = .setIssued)
    (key : TransactionKey) (entry : Time → TransactionEntry) {g : Mandate}
    (hg : g.spent = false) :
    Prog.Obeys mandateMonitor (fun g' _ => g'.spent = false) g (replaceOpen site key entry) := by
  have hopen : ∀ {e : TransactionEntry}, ¬ (e.state ≠ .active ∧ e.state ≠ .pending) → e.isOpen := by
    intro e h
    simpa [TransactionEntry.isOpen, or_iff_not_imp_left] using h
  obtain rfl | rfl := hsite
  all_goals
    simp only [replaceOpen, perform, Prog.call_bind, Prog.Obeys.op_iff,
      mandateMonitor.next_setPending, mandateMonitor.next_setIssued]
    refine ⟨by trivial, fun old _ => ?_⟩
    cases old with
    | none => exact hg
    | some old =>
      simp only
      split_ifs with h
      · exact hg
      · exact ⟨by trivial, fun now _ =>
          ⟨⟨old, rfl, rfl, hopen h⟩, fun ok _ => by cases ok <;> exact hg⟩⟩

/-- What `setCompleted` gives the thread. -/
structure Completed (g g' : Mandate) : Prop where
  claim : g'.claim = g.claim
  spent : g'.spent = g.spent
  right : ∀ found, g.found = some found → ∃ r ∈ g'.may, found.map Cell.txn = some r

/-- The thread that completes an open transaction may report on it. -/
lemma complete_mandate (key : TransactionKey) (retries : ℕ) (g : Mandate) :
    Prog.Obeys mandateMonitor (fun g' _ => Completed g g') g (complete key retries) := by
  induction retries generalizing g with
  | zero => exact ⟨by trivial, nofun⟩
  | succ retries ih =>
    simp only [complete, perform, Prog.call_bind, Prog.Obeys.op_iff,
      mandateMonitor.next_setCompleted]
    refine ⟨by trivial, fun old hold => ?_⟩
    cases old with
    | none =>
      refine ⟨rfl, rfl, fun found hf => ?_⟩
      obtain ⟨cell, hcell, -⟩ := hold found hf
      cases hcell
    | some old =>
      simp only [Prog.Obeys.op_iff, mandateMonitor.next_now]
      refine ⟨by trivial, fun now _ => ⟨⟨⟨old, rfl, rfl⟩, rfl⟩, fun swapped _ => ?_⟩⟩
      cases swapped with
      | true =>
        refine ⟨rfl, rfl, fun found hf => ?_⟩
        obtain ⟨cell, hcell, hopen, htxn⟩ := hold found hf
        cases hcell
        exact ⟨old.txn, by simp [rightOver, hopen, Option.filter_some], htxn⟩
      | false =>
        refine (ih { g with loaded := some old }).mono fun g' _ h => ?_
        exact ⟨h.claim, h.spent, h.right⟩

lemma release_mandate (ck : CredentialKey) (g : Mandate) :
    Prog.Obeys mandateMonitor (fun g' _ => g' = g) g (release ck) :=
  ⟨by trivial, fun _ _ => ⟨by trivial, fun _ _ => ⟨by trivial, fun _ _ => rfl⟩⟩⟩

/-- `delete` of the entry that was confirmed. -/
lemma delete_mandate (credID txID : Bytes) (judged : ℕ) {c : Cell} {g : Mandate}
    (hg : g.claim = some (t.makeKey credID txID, c)) :
    Prog.Obeys mandateMonitor (fun g' _ => g'.spent = false) g (t.delete credID txID judged) := by
  simp only [delete, perform, Prog.call_bind, Prog.Obeys.op_iff]
  refine ⟨⟨c, hg⟩, fun removed _ => ?_⟩
  cases removed with
  | none => rfl
  | some cell =>
    refine (release_mandate cell.entry.credentialKey _).mono fun g' _ h => ?_
    rw [h]
    rfl

/-- The cleanup may report on everything it has listed. -/
structure Notices (infos : List IssuedInfo) (g : Mandate) : Prop where
  claim : g.claim = none
  spent : g.spent = false
  may : (infos.map IssuedInfo.txn).Sublist g.may

lemma expire_mandate (cutoff : Time) (key : TransactionKey) {g : Mandate}
    {infos : List IssuedInfo} (hg : Notices infos g) :
    Prog.Obeys mandateMonitor (fun g' es => Notices (infos ++ es) g') g (expire cutoff key) := by
  have hnothing : ∀ (l : Option Cell) (more : List ℕ),
      Notices (infos ++ []) { g with loaded := l, may := g.may ++ more } := fun l more =>
    ⟨hg.claim, hg.spent, by simpa using hg.may.trans (List.sublist_append_left _ _)⟩
  simp only [expire, perform, Prog.call_bind, Prog.Obeys.op_iff, mandateMonitor.next_cleanup]
  refine ⟨by trivial, fun value _ => ?_⟩
  cases value with
  | none => simpa using hnothing none []
  | some c =>
    simp only
    by_cases hbefore : c.entry.lastActivity.before cutoff
    · simp only [hbefore, if_true, Prog.Obeys.op_iff, mandateMonitor.next_expired]
      refine ⟨⟨⟨c, rfl, rfl⟩, hg.claim⟩, fun removed hrely => ?_⟩
      cases removed with
      | none => exact hnothing _ _
      | some cell =>
        -- what was taken out is the entry that was judged
        obtain rfl : c = cell := Option.some.inj (hrely cell rfl)
        simp only [Option.isSome_some, if_true]
        refine Prog.Obeys.bind (release_mandate c.entry.credentialKey _) ?_
        rintro _ _ rfl
        split_ifs with hissued
        · refine ⟨hg.claim, hg.spent, ?_⟩
          simpa [rightOver, hissued.1, Option.filter_some] using
            hg.may.append (List.Sublist.refl [c.txn])
        · exact hnothing _ _
    · simpa [hbefore] using hnothing (some c) []

lemma expireAll_mandate (cutoff : Time) (keys : List TransactionKey) {g : Mandate}
    {infos : List IssuedInfo} (hg : Notices infos g) :
    Prog.Obeys mandateMonitor (fun g' es => Notices (infos ++ es) g') g
      (expireAll cutoff keys) := by
  induction keys generalizing g infos with
  | nil => simpa [expireAll] using hg
  | cons key keys ih =>
    refine Prog.Obeys.bind (expire_mandate cutoff key hg) fun g1 e h1 => ?_
    refine Prog.Obeys.bind (ih h1) fun g2 es h2 => ?_
    simpa using h2

end TrackerConfig

/-! ### The handler of a CA -/

/-- What a call of a handler does to the mandate of a thread. -/
structure Confirmed (msg : PKIMessage) (g g' : Mandate) (r : HandlerResult) : Prop where
  claim : g'.claim = g.claim
  failed : r.err ≠ none → g'.spent = false
  quiet : msg.body.type ≠ BodyTypeCertConf → g' = g

/-- The handler reports only on the transaction of its context. -/
def Handler.KeepsMandate (h : Handler) : Prop :=
  ∀ ctx msg sender g, g.spent = false → (∀ info, ctx.issued = some info → info.txn ∈ g.may) →
    Prog.Obeys mandateMonitor (Confirmed msg g) g (h ctx msg sender)

lemma confirmed_same {msg : PKIMessage} {g : Mandate} (hg : g.spent = false) (r : HandlerResult) :
    Confirmed msg g g r := ⟨rfl, fun _ => hg, fun _ => rfl⟩

lemma caHandleCertConf_mandate {ca : CAInterfaces} {ctx : Ctx} {msg : PKIMessage} {g : Mandate}
    (hm : msg.body.type = BodyTypeCertConf) (hg : g.spent = false)
    (hctx : ∀ info, ctx.issued = some info → info.txn ∈ g.may) :
    Prog.Obeys mandateMonitor (Confirmed msg g) g (caHandleCertConf ca ctx msg) := by
  unfold caHandleCertConf
  split_ifs
  · exact confirmed_same hg _
  · split
    · exact confirmed_same hg _
    · split
      · exact confirmed_same hg _
      · next cert hcert =>
        obtain ⟨info, hinfo, -⟩ := Option.bind_eq_some_iff.mp hcert
        refine ⟨⟨info.txn, hctx info hinfo, by rw [hinfo, Option.map_some]⟩, fun err _ => ?_⟩
        refine ⟨rfl, fun herr => ?_, fun h => absurd hm h⟩
        cases err with
        | none => exact absurd rfl herr
        | some e => simp [mandateMonitor, hg]

lemma policy_keepsMandate (cr : Crypto) (ca : CAInterfaces)
    (check : Ctx → PKIMessage → SenderIdentity → Except GoError Unit) :
    (policy check (caHandler cr ca)).KeepsMandate := by
  intro ctx msg sender g hg hctx
  have hsame : ∀ r, Confirmed msg g g r := confirmed_same hg
  unfold policy
  split
  · exact hsame _
  · unfold caHandler
    split_ifs with h1 h2 h3 h4
    · unfold caHandleCertRequest
      split
      · exact hsame _
      · exact ⟨by trivial, fun r _ => hsame r⟩
    · exact caHandleCertConf_mandate h2 hg hctx
    · unfold caHandlePollReq
      split_ifs
      · exact hsame _
      · split
        · exact hsame _
        · exact ⟨by trivial, fun r _ => hsame r⟩
    · unfold caHandleRevocation
      split_ifs
      · exact hsame _
      · split
        · exact hsame _
        · refine Prog.Obeys.bind (R := fun g' _ => g' = g) ?_ ?_
          · unfold revocationRefusal
            split
            · split <;> rfl
            · split_ifs
              · rfl
              · exact ⟨by trivial, fun _ _ => rfl⟩
          · rintro _ refused rfl
            cases refused with
            | some e => exact hsame _
            | none => exact ⟨by trivial, fun _ _ => hsame _⟩
    · exact hsame _

namespace Server

lemma notifyExpired_mandate (infos : List IssuedInfo) {g : Mandate}
    (hg : TrackerConfig.Notices infos g) :
    Prog.Obeys mandateMonitor (fun g' _ => g'.spent = false) g (notifyExpired infos) := by
  induction infos generalizing g with
  | nil => exact hg.spent
  | cons e es ih =>
    unfold notifyExpired
    split
    · exact ih ⟨hg.claim, hg.spent, (List.sublist_cons_self _ _).trans hg.may⟩
    · next cert _ =>
      refine ⟨⟨e.txn, hg.may.subset List.mem_cons_self, rfl⟩, fun err _ => ih ⟨hg.claim, ?_, ?_⟩⟩
      · rw [mandateMonitor.next_confirm]
        simp [hg.spent, hg.claim]
      · rw [mandateMonitor.next_confirm]
        simpa using hg.may.erase e.txn

variable {srv : Server}

lemma cleanupExpired_mandate :
    Prog.Obeys mandateMonitor (fun g' _ => g'.spent = false) {} srv.cleanupExpired := by
  have hnone : TrackerConfig.Notices [] {} := ⟨rfl, rfl, .slnil⟩
  refine Prog.Obeys.bind (R := fun g' es => TrackerConfig.Notices es g') ?_ fun g' es h => ?_
  · unfold TrackerConfig.cleanupExpired
    split_ifs
    · exact hnone
    · exact ⟨by trivial, fun now _ => ⟨by trivial, fun keys _ =>
        TrackerConfig.expireAll_mandate (now - srv.cfg.confirmWait) keys hnone⟩⟩
  · split_ifs
    · exact notifyExpired_mandate es h
    · exact h.spent

/-- Nothing was reported, and no entry is being confirmed. -/
def Unclaimed (g : Mandate) : Prop :=
  g.spent = false ∧ g.claim = none

/-- The entry is being confirmed, under the key of the message. -/
def Claims (srv : Server) (msg : PKIMessage) (sender : SenderIdentity) (g : Mandate) (cell : Cell) :
    Prop :=
  ∀ credID, sender.credentialID srv.crypto = .ok credID →
    g.claim = some (srv.tracker.makeKey credID msg.header.transactionID, cell)

/-- What a thread may report on at each point: the entry of a certConf, or the transaction that
an implicit confirmation has completed. -/
def Entitled (srv : Server) (msg : PKIMessage) (sender : SenderIdentity) : Point → Mandate → Prop
  | .entered, g => g = {}
  | .looked .getIssued found, g => g.spent = false ∧ ∀ cell, found = some cell →
      cell.entry.state = .issued → cell.txn ∈ g.may ∧ srv.Claims msg sender g cell
  | .looked _ found, g => Unclaimed g ∧ g.found = some found
  | .timed cell _, g => Unclaimed g ∧ g.found = some (some cell)
  | .called found _, g | .built (.called found _) .., g => Unclaimed g ∧ g.found = some found
  | .judged cell r, g => (r.err ≠ none → g.spent = false) ∧ srv.Claims msg sender g cell
  | .completed found _ _, g => Unclaimed g ∧ ∃ txn ∈ g.may, found.map Cell.txn = some txn
  | _, g => g.spent = false

section

variable {msg : PKIMessage} {sender : SenderIdentity} {pt : Point} {g : Mandate}

/-- Nothing was reported where a response is built. -/
lemma Entitled.built {i : ServerProg (List InfoTypeAndValue)} {body : PKIBody}
    (h : srv.Says msg pt i body) (hg : srv.Entitled msg sender pt g) (tr : History)
    (resp : PKIMessage) : srv.Entitled msg sender (.built pt body tr resp) g := by
  have hopen := h.opened
  cases pt with
  | entered => exact hg ▸ rfl
  | looked site =>
    cases site with
    | getIssued => exact hg.1
    | _ => exact hg.1.1
  | timed => exact hg.1.1
  | judged =>
    cases h with
    | reject hpt => exact hpt.elim
    | failed hpt herr =>
      cases hpt
      exact hg.1 (by simp [herr])
  | built => exact hopen.elim
  | completed => exact hopen.elim
  | _ => exact hg

lemma Entitled.unspent_of_drops (h : pt.Drops) (hg : srv.Entitled msg sender pt g) :
    g.spent = false := by
  cases pt with
  | looked site =>
    cases site with
    | getIssued => exact hg.1
    | _ => exact h.elim
  | called => exact hg.1.1
  | _ => exact h.elim

lemma Entitled.unspent_of_sends {resp : PKIMessage} (h : srv.Sends pt resp)
    (hg : srv.Entitled msg sender pt g) : g.spent = false := by
  cases h with
  | @built pt =>
    cases pt with
    | called => exact hg.1.1
    | _ => exact hg
  | completed => exact hg.1.1
  | _ => exact hg

variable (hh : srv.handler.KeepsMandate)
include hh

/-- **The handlers** report only on what they may. -/
lemma Handles.mandate {p : ServerThread} (hp : srv.Handles msg sender pt p)
    (hg : srv.Entitled msg sender pt g) :
    Prog.Obeys mandateMonitor (fun g' _ => g'.spent = false) g p := by
  have hquiet : ∀ {g : Mandate}, g.spent = false → ∀ {ctx}, ctx.issued = none →
      msg.body.type ≠ BodyTypeCertConf →
      Prog.Obeys mandateMonitor (fun g' _ => g' = g) g (srv.handler ctx msg sender) :=
    fun hg ctx hctx hm => (hh ctx msg sender _ hg (by simp [hctx])).mono fun _ _ h => h.quiet hm
  induction hp generalizing g with
  | drop h => exact hg.unspent_of_drops h
  | send h => exact hg.unspent_of_sends h
  | @look site credID _ hcred hsite _ ih =>
    obtain rfl : g = {} := hg
    obtain rfl | rfl := hsite
    · exact ⟨trivial, fun found _ => ih found ⟨⟨rfl, rfl⟩, rfl⟩⟩
    · refine ⟨⟨rfl, rfl, rfl⟩, fun found _ => ih found ⟨rfl, ?_⟩⟩
      rintro cell rfl hstate
      refine ⟨by simp [rightOver, Option.filter_some, hstate], fun credID' hcred' => ?_⟩
      cases hcred.symm.trans hcred'
      simp [Option.filter_some, hstate]
  | clock _ ih => exact ⟨trivial, fun now _ => ih now hg⟩
  | call h _ ih =>
    cases h with
    | request hq =>
      refine Prog.Obeys.bind (hquiet hg.1.1 rfl fun h => ?_) ?_
      · rw [h] at hq
        exact absurd hq (by decide)
      · rintro _ r rfl
        exact ih r hg
    | @poll _ cell hq hpt =>
      have hg' : Unclaimed g ∧ g.found = some (some cell) := by
        obtain rfl | ⟨now, rfl⟩ := hpt <;> exact hg
      refine Prog.Obeys.bind (hquiet hg'.1.1 rfl (hq ▸ by decide)) ?_
      rintro _ r rfl
      exact ih r hg'
    | confirm _ _ _ _ hstate =>
      obtain ⟨hmay, hclaim⟩ := hg.2 _ rfl hstate
      refine Prog.Obeys.bind (hh _ _ _ g hg.1 ?_) fun g' r h => ih r ⟨h.failed, ?_⟩
      · rintro info ⟨⟩
        exact hmay
      · exact fun credID hcred => h.claim.trans (hclaim credID hcred)
    | revoke hq =>
      obtain rfl : g = {} := hg
      refine Prog.Obeys.bind (hquiet rfl rfl (hq ▸ by decide)) ?_
      rintro _ r rfl
      exact ih r rfl
  | build h _ ih =>
    refine h.obeys_idle (fun o ho => ?_) fun tr resp ha => ih tr resp ha (hg.built h tr resp)
    cases o <;> first | exact ho.elim | exact ⟨trivial, fun _ => rfl⟩
  | pend _ _ _ _ hclock _ ih =>
    refine clock_obeys hclock ⟨trivial, fun _ => rfl⟩ fun last => ?_
    exact Prog.Obeys.bind (TrackerConfig.replaceOpen_mandate (.inl rfl) _ _ hg.1.1) fun g' ok =>
      ih ok
  | issue _ _ _ _ _ ih =>
    exact Prog.Obeys.bind (TrackerConfig.replaceOpen_mandate (.inr rfl) _ _ hg.1.1) fun g' ok =>
      ih ok
  | complete _ _ ih =>
    exact Prog.Obeys.bind (TrackerConfig.complete_mandate _ _ g) fun g' _ h =>
      ih ⟨⟨h.spent.trans hg.1.1, h.claim.trans hg.1.2⟩, h.right _ hg.2⟩
  | tell _ _ _ ih =>
    refine ⟨hg.2, fun err _ => ih err ?_⟩
    show (g.spent || (err.isNone && g.claim.isSome)) = false
    simp [hg.1.1, hg.1.2]
  | delete hcred _ _ ih =>
    exact Prog.Obeys.bind (srv.tracker.delete_mandate _ _ _ (hg.2 _ hcred)) fun g' _ => ih
  | finish _ _ ih =>
    exact Prog.Obeys.bind (TrackerConfig.complete_mandate _ _ g) fun g' _ h =>
      ih (h.spent.trans hg)

/-- **Every thread** of the server reports only on what it may. -/
lemma thread_mandate {p : ServerThread} (hp : srv.Thread p) :
    Prog.Obeys mandateMonitor (fun g' _ => g'.spent = false) {} p := by
  cases hp with
  | message msg =>
    refine srv.process_obeys_of_dispatch (fun o ho => ?_) (by trivial) (fun _ => rfl)
      (fun msg sender => (srv.dispatch_handles msg sender).mandate hh (g := {}) rfl) 2 msg none
    cases o <;> first | exact ho.elim | exact ⟨trivial, fun _ => rfl⟩
  | cleanup => exact Prog.Obeys.bind cleanupExpired_mandate fun g' _ h => h

/-! ### Runs -/

lemma mandated_inductive :
    Sys.Inductive exec mandateMonitor (fun g _ => g.spent = false) Mandated
      fun s a => srv.Starts a ∧ s.OnStep Exclusive a where
  spawn s gs p hw hp := by
    obtain ⟨hlen, h⟩ := hw
    refine ⟨{}, thread_mandate hh (hp.1 p rfl), ?_⟩
    exact h.start hlen.length_eq p
  step s gs i c g o k x t hw hi hth ha hx hc := by
    have hex : Exclusive s i o := hc.2.of_op hth
    refine ⟨hw.2.rely hi (exec_mapStep hx) ha hex, hw.2.after ?_ hi hth ha hx hex⟩
    -- a thread that has still to delete its entry is not finished
    intro j g' hj hspent
    obtain ⟨p, hp, hobey⟩ := exists_getElem?_of_forall₂ hw.1.flip hj
    cases p with
    | ret a =>
      rw [show g'.spent = false from hobey] at hspent
      cases hspent
    | op o k => simp [Sys.nextOp, hp]

end

/-- **No duplicated verdict** in a run of exclusive steps: every successful
confirmation concerns a transaction, and no transaction has two. -/
theorem verdict_at_most_once (cr : Crypto) (retries : ℕ) (ca : CAInterfaces)
    (check : Ctx → PKIMessage → SenderIdentity → Except GoError Unit) (cfg : ServerConfig)
    (actions : List ServerAction) (s : ServerSys)
    (hstarts : ∀ a ∈ actions, (newCA cr retries ca (policy check) cfg).Starts a)
    (hexclusive : Sys.Along exec (Sys.OnStep Exclusive) (.init {}) actions)
    (hrun : Sys.run exec (.init {}) actions = some s) :
    (∀ e ∈ s.log, verdictOn e.2 ≠ some none) ∧ ∀ txn, verdicts s.log txn ≤ 1 := by
  have hh : (newCA cr retries ca (policy check) cfg).handler.KeepsMandate :=
    policy_keepsMandate cr ca check
  have hI := mandated_inductive hh
  obtain ⟨gs, -, h⟩ := Sys.invariant hI ⟨.nil, .init⟩ (hexclusive.and_forall hstarts) hrun
  exact ⟨h.attributed, h.once⟩

/-! ### Concrete runs -/

/-- A request, then some steps of a certConf and of a copy of it. -/
def sampleReplay (first copy : ℕ) : List ServerAction :=
  sampleStart sampleRequest :: sampleSteps 0 16 1 ++ sampleStart sampleConfirmation ::
    sampleStart sampleConfirmation :: sampleSteps 1 first 2 ++ sampleSteps 2 copy 2

lemma starts_of_sampleReplay (first copy : ℕ) :
    ∀ a ∈ sampleReplay first copy, sampleCA.Starts a := by
  simp only [sampleReplay, List.cons_append, List.append_assoc, List.forall_mem_cons,
    List.forall_mem_append]
  exact ⟨starts_sampleStart _, starts_sampleSteps _ _ _ _, starts_sampleStart _, starts_sampleStart
    _, starts_sampleSteps _ _ _ _, starts_sampleSteps _ _ _ _⟩

/-- Two copies of a certConf read the issued entry before either deletes it, and the
CA is told twice. -/
theorem verdict_twice_for_copies :
    ∃ actions s, (∀ a ∈ actions, sampleCA.Starts a) ∧
      Sys.run exec (.init {}) actions = some s ∧ verdicts s.log 0 = 2 := by
  have htwice : (Sys.run exec (.init {}) (sampleReplay 3 3)).any (fun s =>
      decide (verdicts s.log 0 = 2)) = true := by decide +kernel
  obtain ⟨s, hrun, h⟩ := (Option.any_eq_true _ _).mp htwice
  exact ⟨_, s, starts_of_sampleReplay 3 3, hrun, of_decide_eq_true h⟩

/-- The copy comes after the first certConf is done, and the CA is told once. -/
theorem verdict_once_for_copies :
    ∃ s, Sys.run exec (.init {}) (sampleReplay 11 6) = some s ∧ s.Quiescent ∧
      verdicts s.log 0 = 1 ∧ ∀ txn, verdicts s.log txn ≤ 1 := by
  have honce : (Sys.run exec (.init {}) (sampleReplay 11 6)).any (fun s =>
      decide (s.Quiescent ∧ verdicts s.log 0 = 1)) = true := by decide +kernel
  obtain ⟨s, hrun, h⟩ := (Option.any_eq_true _ _).mp honce
  obtain ⟨hq, hone⟩ := of_decide_eq_true h
  exact ⟨s, hrun, hq, hone, (verdict_at_most_once .sample 0 ⟨true, true, false, false⟩
    (fun _ _ _ => .ok ()) { secretLookup := true } (sampleReplay 11 6) s
    (starts_of_sampleReplay 11 6) (by decide +kernel) hrun).2⟩

end Server

end PkiCmp
