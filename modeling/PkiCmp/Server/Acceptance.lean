/-
Verdicts of a certConf (`handleCertConf` of `server/confirm_poll.go` and `server/ca.go`, `AsError`
of `pkicmp/status.go`).

The server asks of each status only whether it is a rejection, whereas `AsError` asks whether it is
a success; the statuses in between are no rejection and no success.

* `CertStatus.Accepts`: the statuses that accept, by `AsError`;
* `Server.Rules`: a certConf leads to the verdict of its statuses and to no other;
* `accepted_iff`: **a certificate is accepted by accepting statuses only** exactly when some status
  rejects it or all of them accept it.
-/
import PkiCmp.Server.Confirmation

namespace PkiCmp

open Der Interact

/-- The status accepts the certificate: it has no statusInfo, or one that is no error. -/
def CertStatus.Accepts (cs : CertStatus) : Prop := ∀ si ∈ cs.statusInfo, si.asError = none

instance (cs : CertStatus) : Decidable cs.Accepts := by unfold CertStatus.Accepts; infer_instance

namespace Server

/-- The operation reports no other verdict than that of the statuses, and only when they agree
whether they reject. -/
def Rules (conf : CertConfirmContent) : Effect → Prop
  | .confirmCertificate _ status _ _ => status = confirmationStatus conf ∧
      ∀ cs ∈ conf, ∀ cs' ∈ conf, certStatusRejects cs = certStatusRejects cs'
  | _ => True

lemma rules_of_building {conf : CertConfirmContent} {o : Effect} (h : o.Building) :
    Rules conf o := by
  cases o <;> first | exact h.elim | trivial

lemma building_rules {α : Type} {p : ServerProg α} (hp : Prog.Only Effect.Building p)
    (conf : CertConfirmContent) : Prog.Only (Rules conf) p :=
  hp.mono fun _ => rules_of_building

section

variable {cr : Crypto} {ca : CAInterfaces} {srv : Server}
  {check : Ctx → PKIMessage → SenderIdentity → Except GoError Unit}

/-- On a bound certConf the CA hears the verdict of its statuses. -/
lemma handler_rules {conf : CertConfirmContent} {credID : Bytes} {cell : Cell} {ctx : Ctx}
    {msg : PKIMessage} {sender : SenderIdentity} (h : srv.Bound conf credID cell ctx msg sender) :
    Prog.Only (Rules conf) (policy check (caHandler cr ca) ctx msg sender) := by
  unfold policy
  split
  · trivial
  · refine caHandler_only.mono fun o ho => ?_
    cases o with
    | confirmCertificate cert status issueRef txn =>
      obtain ⟨-, -, conf', info, hconf, -, -, -, -, rfl⟩ := ho
      rw [h.decoded] at hconf
      cases hconf
      exact ⟨rfl, h.agree⟩
    | _ => trivial

/-- **`handleCertConf`** reports no other verdict than that of the statuses. -/
lemma handleCertConf_rules (hh : srv.handler = policy check (caHandler cr ca)) {ctx : Ctx}
    {msg : PKIMessage} {sender : SenderIdentity} {conf : CertConfirmContent}
    (hconf : msg.body.getCertConf = .ok conf) :
    Prog.Only (Rules conf) (srv.handleCertConf ctx msg sender) := by
  unfold handleCertConf
  rw [hconf]
  simp only
  split_ifs with hcons
  · exact building_rules (srv.reject_only ..) conf
  · split
    · exact building_rules (srv.reject_only ..) conf
    · next credID hcred =>
      simp only [TrackerConfig.getIssued, TrackerConfig.getInState, perform, Prog.call_bind,
        Prog.op_bind, Prog.Only.op_iff]
      refine ⟨trivial, fun found => ?_⟩
      cases found with
      | none => exact building_rules (srv.reject_only ..) conf
      | some cell =>
        simp only
        split_ifs with hstate
        · exact building_rules (srv.reject_only ..) conf
        · simp only [Prog.pure_eq, Prog.ret_bind]
          split
          · trivial
          · exact building_rules (srv.reject_only ..) conf
          · next herr =>
            have hbound := srv.bound_of_checks ctx hconf (by simpa using hcons) hcred
              (not_not.mp hstate) herr
            unfold recordConfirmation
            rw [hh]
            refine (handler_rules hbound).bind fun r => ?_
            split
            · exact (building_rules (srv.buildEcho_only ..) conf).bind fun _ => trivial
            · refine (TrackerConfig.delete_of _ trivial trivial fun _ =>
                ⟨trivial, trivial⟩).bind fun _ => ?_
              exact (building_rules (srv.buildEcho_only ..) conf).bind fun _ => trivial

end

/-- **Only accepting statuses accept** a certificate, of a certConf on which the CA gets a verdict,
exactly when some status rejects it or all of them accept it. -/
theorem accepted_iff (cr : Crypto) (retries : ℕ) (ca : CAInterfaces)
    (check : Ctx → PKIMessage → SenderIdentity → Except GoError Unit) (cfg : ServerConfig)
    {ctx : Ctx} {msg : PKIMessage} {sender : SenderIdentity}
    {tr : List ServerEvent} {q : ServerThread}
    (hs : Prog.Steps ((newCA cr retries ca (policy check) cfg).handleCertConf ctx msg sender) tr q)
    {conf : CertConfirmContent} (hconf : msg.body.getCertConf = .ok conf)
    {cert : Certificate} {status : ConfirmStatus} {ref : Option IssueRef} {txn : Option ℕ}
    {err : Option GoError} (he : ⟨.confirmCertificate cert status ref txn, err⟩ ∈ tr) :
    (status = .accepted → ∀ cs ∈ conf, cs.Accepts) ↔
      (∃ cs ∈ conf, certStatusRejects cs) ∨ ∀ cs ∈ conf, cs.Accepts := by
  obtain ⟨rfl, hagree⟩ : Rules conf (.confirmCertificate cert status ref txn) :=
    (handleCertConf_rules rfl hconf).mem_steps hs he
  rw [confirmationStatus_eq hagree]
  constructor
  · intro h
    by_cases hrej : ∃ cs ∈ conf, certStatusRejects cs
    · exact .inl hrej
    · by_cases hnil : conf = []
      · rw [hnil]
        exact .inr (List.forall_mem_nil _)
      · exact .inr (h (if_neg (not_or.mpr ⟨hnil, hrej⟩)))
  · rintro (hrej | hacc) h
    · rw [if_pos (.inr hrej)] at h
      cases h
    · exact hacc

/-- The given status, on the certificate of the sample request. -/
def statusList (status : PKIStatus) : CertConfirmContent :=
  [⟨[0x30, 0x00], -1, some { status }, none⟩]

/-- A certConf with that status alone. -/
def statusConfirmation (status : PKIStatus) : PKIMessage :=
  sampleReceived (.certConf (statusList status)) (List.replicate 16 0)

/-- The event reports that the certificate is accepted. -/
def isAcceptance (e : ServerEvent) : Bool :=
  match e.op with
  | .confirmCertificate _ status _ _ => status = .accepted
  | _ => false

/-- The entry of the sample request, once its certificate is issued. -/
def issuedCell : Cell where
  ptr := 1
  txn := 0
  entry :=
    { state := .issued
      lastActivity := 1
      credentialKey := []
      cert := some sampleCertificate
      issuedSenderNonce := List.replicate 16 0 }

/-- Who requested it. -/
def issuedSender : SenderIdentity := { senderKID := [1], macVerified := true }

/-- What the operations return to a certConf for the entry. -/
def issuedAnswer : (o : Effect) → Option o.Res
  | .load .. => some (some issuedCell)
  | o => (exec o (sampleOracle 2) {}).map Prod.fst

/-- An accepting status is reported to the CA as such. -/
theorem accepted_of_granted :
    ∃ tr q cert ref txn err,
      Prog.Steps (sampleCA.handleCertConf {} (statusConfirmation StatusGrantedWithMods)
        issuedSender)
        tr q ∧
      ⟨.confirmCertificate cert .accepted ref txn, err⟩ ∈ tr ∧
      ∀ cs ∈ statusList StatusGrantedWithMods, cs.Accepts := by
  have hplay : (Prog.play issuedAnswer (sampleCA.handleCertConf {}
      (statusConfirmation StatusGrantedWithMods) issuedSender)).any (fun r =>
        r.1.any isAcceptance) = true := by decide +kernel
  obtain ⟨⟨tr, a⟩, hrun, hany⟩ := (Option.any_eq_true _ _).mp hplay
  obtain ⟨⟨o, r⟩, hmem, hacc⟩ := List.any_eq_true.mp hany
  have hsteps := Prog.steps_of_play hrun
  have hall : ∀ cs ∈ statusList StatusGrantedWithMods, cs.Accepts := by decide
  have hconf : (statusConfirmation StatusGrantedWithMods).body.getCertConf =
      .ok (statusList StatusGrantedWithMods) := by decide +kernel
  cases o with
  | confirmCertificate cert status ref txn =>
    obtain rfl : status = .accepted := of_decide_eq_true hacc
    refine ⟨tr, _, cert, ref, txn, r, hsteps, hmem, ?_⟩
    exact (accepted_iff .sample 0 ⟨true, true, false, false⟩ (fun _ _ _ => .ok ())
      { secretLookup := true } hsteps hconf hmem).mpr (.inr hall) rfl
  | _ => cases hacc

/-- The request and the certConf, served one after the other. -/
def statusRun (status : PKIStatus) : List ServerAction :=
  sampleStart sampleRequest :: sampleSteps 0 16 1 ++
    sampleStart (statusConfirmation status) :: sampleSteps 1 11 2

/-- The verdicts on certConfs in a log. -/
def confirmed (log : ServerLog) : List (ℕ × ConfirmStatus) :=
  log.filterMap fun e => match e.2.op with
    | .confirmCertificate _ status _ _ => some (e.1, status)
    | _ => none

/-- The status is no success, and yet the certificate is accepted in a run of the server. -/
def AcceptedAnyway (status : PKIStatus) : Prop :=
  ({ status } : PKIStatusInfo).asError ≠ none ∧ (∀ a ∈ statusRun status, sampleCA.Starts a) ∧
    ∃ s, Sys.run exec (.init {}) (statusRun status) = some s ∧ confirmed s.log = [(1, .accepted)]

lemma acceptedAnyway_of_run {status : PKIStatus}
    (herr : ({ status } : PKIStatusInfo).asError ≠ none)
    (hrun : (Sys.run exec (.init {}) (statusRun status)).any (fun s =>
      decide (confirmed s.log = [(1, .accepted)])) = true) : AcceptedAnyway status := by
  refine ⟨herr, ?_, ?_⟩
  · simp only [statusRun, List.cons_append, List.forall_mem_cons, List.forall_mem_append]
    exact ⟨starts_sampleStart _, starts_sampleSteps _ _ _ _, starts_sampleStart _,
      starts_sampleSteps _ _ _ _⟩
  · obtain ⟨s, hs, h⟩ := (Option.any_eq_true _ _).mp hrun
    exact ⟨s, hs, of_decide_eq_true h⟩

/-- **A certificate whose certConf says that it is waiting is accepted**, as are one with a
warning and one with a status that is not defined. -/
theorem accepted_while_waiting :
    AcceptedAnyway StatusWaiting ∧ AcceptedAnyway StatusRevocationWarning ∧ AcceptedAnyway 99 :=
  ⟨acceptedAnyway_of_run (by decide) (by decide +kernel),
    acceptedAnyway_of_run (by decide) (by decide +kernel),
    acceptedAnyway_of_run (by decide) (by decide +kernel)⟩

end Server

end PkiCmp
