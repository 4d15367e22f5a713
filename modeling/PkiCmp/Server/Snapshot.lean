/-
Saving and restoring the transactions (`server/snapshot.go`).

A snapshot is the document that comes out of its own JSON text: numbers, octet
strings and arrays survive as they are, an instant survives when its year has
four digits, and the octets of a string that are not UTF-8 become `U+FFFD`.

* `SavedTransaction`, `TransactionSnapshot`: the document;
* `snapshotTransactions`, `restoreTransactions`;
* `Tracker.restart`: one after the other, in a new process.
-/
import PkiCmp.Server.Tracker

namespace PkiCmp

open Der

/-! ### The document -/

/-- `json.RawMessage`, for a reference: null, or the text of a value that only a
decoder reads. -/
inductive RawMessage where
  | null
  | value (text : ℕ)
  deriving DecidableEq, Repr

/-- `savedTransaction`. -/
structure SavedTransaction where
  key : TransactionKey
  credential : CredentialKey
  state : TxnState
  lastActivity : Time
  requestType : RequestType
  pollRef : GoString
  senderNonce : Bytes
  lastPollTime : Time
  checkAfter : Duration
  certificate : Bytes
  issueRef : RawMessage
  issuedSenderNonce : Bytes
  clientSenderNonce : Bytes
  protectionAlgorithm : Option AlgorithmIdentifier
  certReqID : Option ℤ
  deriving DecidableEq, Repr

/-- `transactionSnapshot`. -/
structure TransactionSnapshot where
  version : ℤ
  signer : Bytes
  entries : List SavedTransaction
  deriving DecidableEq, Repr

/-- What saving and restoring find outside: the JSON of references, how deep the text
of one is nested, the length of a whole text, the clock when the entry of a key is
looked at, and the decoders of certificates and of references. -/
structure Recovery where
  marshalIssueRef : IssueRef → Except GoError RawMessage
  nesting : ℕ → ℕ
  textLength : TransactionSnapshot → ℕ
  now : TransactionKey → Time
  parseCertificate : (raw : Bytes) → Except GoError { c : Certificate // c.raw = raw }
  unmarshalIssueRef : RawMessage → Except GoError (Option IssueRef)

/-- An outside for concrete runs, at a given time. -/
def Recovery.sample (time : Time) : Recovery where
  marshalIssueRef ref := .ok (.value ref)
  nesting _ := 0
  textLength _ := 0
  now _ := time
  parseCertificate raw := .ok ⟨{ raw, signatureAlgorithm := .ecdsaWithSHA256 }, rfl⟩
  unmarshalIssueRef
    | .null => .ok none
    | .value ref => .ok (some ref)

/-- A string after `json.Marshal` and `json.Unmarshal`. -/
def jsonString (s : GoString) : GoString := (runes s).flatMap Prod.snd

/-- An instant after `Time.MarshalJSON` and `Time.UnmarshalJSON`. -/
def jsonTime (t : Time) : Except GoError Time :=
  if t.year < 0 ∨ 9999 < t.year then
    .error (.library (str "Time.MarshalJSON: year outside of range [0,9999]"))
  else .ok t

/-- How deep the text of a reference is nested. -/
def RawMessage.nesting (r : Recovery) : RawMessage → ℕ
  | .null => 0
  | .value text => r.nesting text

/-- The depth `encoding/json` reads. -/
def maxNestingDepth : ℕ := 10000

/-- What `encoding/json` says of a text that is nested deeper. -/
def errMaxDepth : GoError := .library (str "exceeded max depth")

/-- A saved transaction that `json.Marshal` wrote and `json.Unmarshal` read. -/
def SavedTransaction.json (r : Recovery) (s : SavedTransaction) :
    Except GoError SavedTransaction := do
  let lastActivity ← jsonTime s.lastActivity
  let lastPollTime ← jsonTime s.lastPollTime
  if maxNestingDepth < s.issueRef.nesting r then .error errMaxDepth
  else .ok { s with lastActivity, lastPollTime, pollRef := jsonString s.pollRef }

/-- 64 MiB. -/
def maxSnapshotSize : ℕ := 64 * 2 ^ 20

/-! ### Saving -/

section

variable (r : Recovery)

/-- The saved form of an entry, with the text of its reference. -/
def savedTransaction (key : TransactionKey) (entry : TransactionEntry) (issueRef : RawMessage) :
    SavedTransaction where
  key := key
  credential := entry.credentialKey
  state := entry.state
  lastActivity := entry.lastActivity
  requestType := entry.reqType
  pollRef := entry.pollRef
  senderNonce := entry.senderNonce
  lastPollTime := entry.lastPollTime
  checkAfter := entry.checkAfter
  certificate := (entry.cert.map Certificate.raw).getD []
  issueRef := issueRef
  issuedSenderNonce := entry.issuedSenderNonce
  clientSenderNonce := entry.clientSenderNonce
  protectionAlgorithm := entry.protectionAlgorithm
  certReqID := entry.certReqID

/-- The text of the reference of an entry. -/
def saveIssueRef (ref : Option IssueRef) : Except GoError RawMessage :=
  match ref with
  | none => .ok .null
  | some ref => r.marshalIssueRef ref

/-- The visit of one entry by `SnapshotTransactions`. -/
def saveTransaction (key : TransactionKey) (entry : TransactionEntry) :
    Except GoError SavedTransaction := do
  let issueRef ← saveIssueRef r entry.issueRef
  if entry.protectionParams.isSome ∧ entry.protectionAlgorithm = none then
    .error (.text (str "transaction has no serializable protection parameters"))
  else .ok (savedTransaction key entry issueRef)

/-- `SnapshotTransactions`, for a server whose signer has the given digest. -/
def snapshotTransactions (signer : Bytes) (t : Tracker) : Except GoError TransactionSnapshot := do
  let saved ← t.transactions.entries.mapM fun e => saveTransaction r e.1 e.2.entry
  let sorted := saved.mergeSort fun a b => decide (a.key ≤ b.key)
  let entries ← sorted.mapM (SavedTransaction.json r)
  let snapshot : TransactionSnapshot := { version := 1, signer, entries }
  if maxSnapshotSize < r.textLength snapshot then
    .error (.text (str "transaction snapshot exceeds 64 MiB"))
  else .ok snapshot

/-! ### Restoring -/

/-- The certificate of a saved transaction, if it has one. -/
def restoreCertificate (saved : SavedTransaction) : Except GoError (Option Certificate) :=
  if saved.certificate = [] then .ok none
  else do
    let cert ← r.parseCertificate saved.certificate
    .ok (some cert.1)

/-- The entry of a saved transaction, with its certificate and its reference. -/
def restoredEntry (saved : SavedTransaction) (cert : Option Certificate)
    (issueRef : Option IssueRef) : TransactionEntry where
  state := saved.state
  credentialKey := saved.credential
  lastActivity := saved.lastActivity
  reqType := saved.requestType
  pollRef := saved.pollRef
  senderNonce := saved.senderNonce
  lastPollTime := saved.lastPollTime
  checkAfter := saved.checkAfter
  issuedSenderNonce := saved.issuedSenderNonce
  clientSenderNonce := saved.clientSenderNonce
  protectionAlgorithm := saved.protectionAlgorithm
  certReqID := saved.certReqID
  cert := cert
  issueRef := issueRef
  protectionParams := saved.protectionAlgorithm.map fun alg => .protectionAlgorithm (some alg)

/-- What `RestoreTransactions` does with an entry before it looks at the reference. -/
def checkSaved (saved : SavedTransaction) : Except GoError (Option Certificate) :=
  if saved.lastActivity.isZero ∨
      (r.now saved.key + 60 * Time.second).before saved.lastActivity then
    .error (.text (str "invalid saved transaction state or timestamp"))
  else do
    let cert ← restoreCertificate r saved
    if saved.state = .issued ∧ (cert = none ∨ saved.issuedSenderNonce.length < 16) then
      .error (.text (str "issued transaction is incomplete"))
    else if saved.state = .pending ∧
        (saved.pollRef = [] ∨ saved.senderNonce.length < 16 ∨ saved.checkAfter < 0) then
      .error (.text (str "pending transaction is incomplete"))
    else .ok cert

/-- The entry that `RestoreTransactions` makes of a saved transaction. -/
def restoreEntry (saved : SavedTransaction) : Except GoError TransactionEntry := do
  let cert ← checkSaved r saved
  let issueRef ← r.unmarshalIssueRef saved.issueRef
  .ok (restoredEntry saved cert issueRef)

/-- What `RestoreTransactions` does with the entry afterwards. -/
def Tracker.place (maxPerCredential : ℤ) (next : Tracker) (saved : SavedTransaction)
    (entry : TransactionEntry) : Except GoError Tracker :=
  if (next.cell saved.key).isSome then .error (.text (str "duplicate saved transaction"))
  else
    let next := (next.publish saved.key entry next.nextPtr).addCredCount saved.credential 1
    if maxPerCredential < next.credentialCounts saved.credential then
      .error (.text (str "saved credential exceeds transaction capacity"))
    else .ok { next with count := next.count + 1 }

/-- One turn of the loop of `RestoreTransactions`. -/
def Tracker.restoreOne (maxPerCredential : ℤ) (next : Tracker) (saved : SavedTransaction) :
    Except GoError Tracker :=
  restoreEntry r saved >>= next.place maxPerCredential saved

/-- What `RestoreTransactions` checks first, for a server with the given signer, limit and
tracker. -/
def checkSnapshot (signer : Bytes) (maxTransactions : ℤ) (t : Tracker)
    (snapshot : TransactionSnapshot) : Except GoError Unit :=
  if t.count ≠ 0 then .error (.text (str "restore requires an empty transaction tracker"))
  else if maxSnapshotSize < r.textLength snapshot then
    .error (.text (str "transaction snapshot exceeds 64 MiB"))
  -- in the document a reference stands three levels deep
  else if snapshot.entries.any fun e => maxNestingDepth < 3 + e.issueRef.nesting r then
    .error errMaxDepth
  else if snapshot.version ≠ 1 ∨ snapshot.signer ≠ signer then
    .error (.text (str "transaction snapshot version or signer does not match"))
  else if maxTransactions < snapshot.entries.length then
    .error (.text (str "transaction snapshot exceeds capacity"))
  else .ok ()

/-- The tracker that `RestoreTransactions` builds. -/
def nextTracker (signer : Bytes) (maxTransactions maxPerCredential : ℤ) (t : Tracker)
    (snapshot : TransactionSnapshot) : Except GoError Tracker := do
  checkSnapshot r signer maxTransactions t snapshot
  snapshot.entries.foldlM (Tracker.restoreOne r maxPerCredential) { nextPtr := t.nextPtr }

/-- `RestoreTransactions`: the error, and the tracker of the server afterwards. -/
def restoreTransactions (signer : Bytes) (maxTransactions maxPerCredential : ℤ) (t : Tracker)
    (snapshot : TransactionSnapshot) : Option GoError × Tracker :=
  match nextTracker r signer maxTransactions maxPerCredential t snapshot with
  | .error e => (some e, t)
  | .ok next => (none, next)

/-- A snapshot from before the `certReqId`s were recorded. -/
def TransactionSnapshot.withoutCertReqIDs (s : TransactionSnapshot) : TransactionSnapshot :=
  { s with entries := s.entries.map fun e => { e with certReqID := none } }

/-- `SnapshotTransactions`, then `RestoreTransactions` in a new process with the same
signer; `none` when one of them fails. -/
def Tracker.restart (maxTransactions maxPerCredential : ℤ) (withCertReqIDs : Bool) (t : Tracker) :
    Option Tracker :=
  match snapshotTransactions r [] t with
  | .error _ => none
  | .ok snapshot =>
    (nextTracker r [] maxTransactions maxPerCredential { nextPtr := t.nextPtr }
      (if withCertReqIDs then snapshot else snapshot.withoutCertReqIDs)).toOption

end

/-! ### What comes back -/

section

variable {r : Recovery}

/-- A string that is there has a text that is not empty. -/
lemma jsonString_eq_nil {s : GoString} : jsonString s = [] ↔ s = [] := by
  refine ⟨fun h => ?_, fun h => by rw [h]; rfl⟩
  cases s with
  | nil => rfl
  | cons b s =>
    exfalso
    simp only [jsonString, runes, List.length_cons, runesAux] at h
    split at h
    · next n hn =>
      have hpos := runeWidth_pos hn
      cases n with
      | zero => omega
      | succ n => simp at h
    · simp at h

lemma jsonTime_eq_ok {t t' : Time} : jsonTime t = .ok t' ↔ 0 ≤ t.year ∧ t.year ≤ 9999 ∧ t' = t := by
  unfold jsonTime
  split_ifs with h
  · simp only [false_iff]
    omega
  · simp only [Except.ok.injEq]
    constructor
    · rintro rfl
      exact ⟨by omega, by omega, rfl⟩
    · rintro ⟨-, -, rfl⟩
      rfl

/-- A saved transaction that survives its text changes in its `PollRef` only. -/
lemma SavedTransaction.json_eq_ok {s s' : SavedTransaction} (h : s.json r = .ok s') :
    s' = { s with pollRef := jsonString s.pollRef } := by
  simp only [SavedTransaction.json, Except.bind_eq_ok, jsonTime_eq_ok] at h
  obtain ⟨_, ⟨-, -, rfl⟩, _, ⟨-, -, rfl⟩, h⟩ := h
  split_ifs at h
  exact (Except.ok.inj h).symm

variable {saved : SavedTransaction}

lemma saveTransaction_eq_ok {key : TransactionKey} {entry : TransactionEntry} :
    saveTransaction r key entry = .ok saved ↔ ∃ ref, saveIssueRef r entry.issueRef = .ok ref ∧
      (entry.protectionParams.isSome → entry.protectionAlgorithm ≠ none) ∧
      saved = savedTransaction key entry ref := by
  simp only [saveTransaction, Except.bind_eq_ok]
  refine exists_congr fun ref => and_congr_right fun _ => ?_
  split_ifs with h
  · simp [h]
  · rw [Except.ok.injEq, eq_comm]
    exact ⟨fun heq => ⟨fun hp halg => h ⟨hp, halg⟩, heq⟩, fun h => h.2⟩

/-- The entry under a key and the form in which a snapshot holds it. -/
def SavedAs (r : Recovery) (e : (_ : TransactionKey) × Cell) (s : SavedTransaction) : Prop :=
  ∃ s0, saveTransaction r e.1 e.2.entry = .ok s0 ∧ s0.json r = .ok s

/-- A snapshot holds every entry once, in some order. -/
lemma snapshotTransactions_eq_ok {signer : Bytes} {t : Tracker} {snapshot : TransactionSnapshot}
    (h : snapshotTransactions r signer t = .ok snapshot) :
    snapshot.version = 1 ∧ snapshot.signer = signer ∧ r.textLength snapshot ≤ maxSnapshotSize ∧
      ∃ es, es.Perm t.transactions.entries ∧ List.Forall₂ (SavedAs r) es snapshot.entries := by
  simp only [snapshotTransactions, Except.bind_eq_ok, Fallible.mapM_eq_ok_iff] at h
  obtain ⟨saved, hsaved, entries, hentries, h⟩ := h
  split_ifs at h with hlen
  cases h
  refine ⟨rfl, rfl, not_lt.mp hlen, ?_⟩
  -- sorting the saved transactions sorts the entries they were made of
  obtain ⟨es, hperm, hes⟩ := Fallible.forall₂_perm hsaved (List.mergeSort_perm saved _)
  exact ⟨es, hperm, Fallible.forall₂_comp hes hentries⟩

/-- The certificate of a saved transaction has the saved octets. -/
lemma restoreCertificate_eq_ok {cert : Option Certificate}
    (h : restoreCertificate r saved = .ok cert) :
    (cert.map Certificate.raw).getD [] = saved.certificate ∧
      (cert = none ↔ saved.certificate = []) := by
  unfold restoreCertificate at h
  split_ifs at h with hempty
  · cases h
    simp [hempty]
  · obtain ⟨⟨c, hraw⟩, -, h⟩ := Except.bind_eq_ok.mp h
    cases h
    simp [hraw, hempty]

/-- What is checked of a saved transaction, apart from its certificate and its
reference. -/
structure SavedTransaction.Restorable (r : Recovery) (s : SavedTransaction) : Prop where
  dated : s.lastActivity ≠ 0
  past : s.lastActivity ≤ r.now s.key + 60 * Time.second
  issued : s.state = .issued → s.certificate ≠ [] ∧ 16 ≤ s.issuedSenderNonce.length
  pending : s.state = .pending → s.pollRef ≠ [] ∧ 16 ≤ s.senderNonce.length ∧ 0 ≤ s.checkAfter

lemma checkSaved_eq_ok {cert : Option Certificate} :
    checkSaved r saved = .ok cert ↔ saved.Restorable r ∧ restoreCertificate r saved = .ok cert := by
  unfold checkSaved
  by_cases hdate : saved.lastActivity.isZero ∨
      (r.now saved.key + 60 * Time.second).before saved.lastActivity
  · rw [if_pos hdate]
    simp only [reduceCtorEq, false_iff]
    rintro ⟨hs, -⟩
    obtain hz | hf := hdate
    · exact hs.dated (by simpa [Time.isZero] using hz)
    · exact absurd hs.past (not_le.mpr (by simpa [Time.before] using hf))
  · rw [if_neg hdate, Except.bind_eq_ok]
    have hdated : saved.lastActivity ≠ 0 := fun h => hdate (.inl (by simpa [Time.isZero] using h))
    have hpast : saved.lastActivity ≤ r.now saved.key + 60 * Time.second :=
      not_lt.mp fun h => hdate (.inr (by simpa [Time.before] using h))
    constructor
    · rintro ⟨cert, hcert, h⟩
      obtain ⟨-, hnone⟩ := restoreCertificate_eq_ok hcert
      split_ifs at h with hi hp
      cases h
      refine ⟨⟨hdated, hpast, fun hs => ?_, fun hs => ?_⟩, hcert⟩
      · rw [Ne, ← hnone]
        exact ⟨fun hc => hi ⟨hs, .inl hc⟩, not_lt.mp fun hl => hi ⟨hs, .inr hl⟩⟩
      · exact ⟨fun hc => hp ⟨hs, .inl hc⟩, not_lt.mp fun hl => hp ⟨hs, .inr (.inl hl)⟩,
          not_lt.mp fun hl => hp ⟨hs, .inr (.inr hl)⟩⟩
    · rintro ⟨hs, hcert⟩
      obtain ⟨-, hnone⟩ := restoreCertificate_eq_ok hcert
      refine ⟨cert, hcert, ?_⟩
      rw [if_neg, if_neg]
      · rintro ⟨hst, hp⟩
        obtain ⟨hp1, hp2, hp3⟩ := hs.pending hst
        exact hp.elim hp1 (fun hp => hp.elim (not_lt.mpr hp2) (not_lt.mpr hp3))
      · rintro ⟨hst, hi⟩
        obtain ⟨hi1, hi2⟩ := hs.issued hst
        exact hi.elim (fun hc => hi1 (hnone.mp hc)) (not_lt.mpr hi2)

lemma restoreEntry_eq_ok {entry : TransactionEntry} :
    restoreEntry r saved = .ok entry ↔ saved.Restorable r ∧
      ∃ cert issueRef, restoreCertificate r saved = .ok cert ∧
        r.unmarshalIssueRef saved.issueRef = .ok issueRef ∧
        entry = restoredEntry saved cert issueRef := by
  simp only [restoreEntry, Except.bind_eq_ok, checkSaved_eq_ok, Except.ok.injEq]
  constructor
  · rintro ⟨cert, ⟨hs, hcert⟩, issueRef, href, rfl⟩
    exact ⟨hs, cert, issueRef, hcert, href, rfl⟩
  · rintro ⟨hs, cert, issueRef, hcert, href, rfl⟩
    exact ⟨cert, ⟨hs, hcert⟩, issueRef, href, rfl⟩

/-- An entry and the one that comes back for it: all but the references is as it was,
certificates by their octets, and the protection parameters are made of the algorithm. -/
structure Recovers (e e' : TransactionEntry) : Prop where
  state : e'.state = e.state
  lastActivity : e'.lastActivity = e.lastActivity
  credentialKey : e'.credentialKey = e.credentialKey
  reqType : e'.reqType = e.reqType
  senderNonce : e'.senderNonce = e.senderNonce
  lastPollTime : e'.lastPollTime = e.lastPollTime
  checkAfter : e'.checkAfter = e.checkAfter
  certReqID : e'.certReqID = e.certReqID
  cert : (e'.cert.map Certificate.raw).getD [] = (e.cert.map Certificate.raw).getD []
  issued : e'.state = .issued → ∃ c, e'.cert = some c ∧ c.raw ≠ []
  issuedSenderNonce : e'.issuedSenderNonce = e.issuedSenderNonce
  clientSenderNonce : e'.clientSenderNonce = e.clientSenderNonce
  protectionAlgorithm : e'.protectionAlgorithm = e.protectionAlgorithm

/-- What a saved transaction is, for the entry under a key. -/
lemma SavedAs.eq {e : (_ : TransactionKey) × Cell} {s : SavedTransaction} (hs : SavedAs r e s) :
    ∃ ref, saveIssueRef r e.2.entry.issueRef = .ok ref ∧
      s = { savedTransaction e.1 e.2.entry ref with pollRef := jsonString e.2.entry.pollRef } := by
  obtain ⟨s0, hsave, hjson⟩ := hs
  obtain ⟨ref, href, -, rfl⟩ := saveTransaction_eq_ok.mp hsave
  exact ⟨ref, href, SavedTransaction.json_eq_ok hjson⟩

/-- What a restored entry is restored from. -/
lemma SavedAs.recovers {e : (_ : TransactionKey) × Cell} {s : SavedTransaction}
    {e' : TransactionEntry} (hs : SavedAs r e s) (h : restoreEntry r s = .ok e') :
    s.key = e.1 ∧ Recovers e.2.entry e' := by
  obtain ⟨ref, -, rfl⟩ := hs.eq
  obtain ⟨hr, cert, issueRef, hcert, -, rfl⟩ := restoreEntry_eq_ok.mp h
  obtain ⟨hraw, hnone⟩ := restoreCertificate_eq_ok hcert
  refine ⟨rfl, rfl, rfl, rfl, rfl, rfl, rfl, rfl, rfl, hraw, fun hst => ?_, rfl, rfl, rfl⟩
  have hne := (hr.issued hst).1
  cases cert with
  | none => exact absurd (hnone.mp rfl) hne
  | some c => exact ⟨c, rfl, fun hc => hne (hraw.symm.trans hc)⟩

/-- An issued entry comes back with its certificate. -/
lemma Recovers.cert_of_issued {e e' : TransactionEntry} (h : Recovers e e')
    (hi : e'.state = .issued) : e'.cert.map Certificate.raw = e.cert.map Certificate.raw := by
  obtain ⟨c', hc', hne⟩ := h.issued hi
  have hcert := h.cert
  rw [hc'] at hcert
  cases hc : e.cert with
  | none =>
    rw [hc] at hcert
    exact absurd hcert hne
  | some c =>
    rw [hc] at hcert
    rw [hc', Option.map_some, Option.map_some]
    exact congrArg some hcert

namespace Tracker

variable {t t' : Tracker} {maxTransactions maxPerCredential : ℤ}

/-- The tracker with one more entry, counted. -/
def restored (t : Tracker) (key : TransactionKey) (entry : TransactionEntry) : Tracker :=
  { (t.publish key entry t.nextPtr).addCredCount entry.credentialKey 1 with count := t.count + 1 }

@[simp] lemma cell_restored (t : Tracker) (key key' : TransactionKey) (entry : TransactionEntry) :
    (t.restored key entry).cell key' = (t.publish key entry t.nextPtr).cell key' := rfl

@[simp] lemma count_restored (t : Tracker) (key : TransactionKey) (entry : TransactionEntry) :
    (t.restored key entry).count = t.count + 1 := rfl

lemma credentialCounts_restored (t : Tracker) (key : TransactionKey) (entry : TransactionEntry)
    (ck : CredentialKey) : (t.restored key entry).credentialCounts ck =
      t.credentialCounts ck + if entry.credentialKey = ck then 1 else 0 := by
  have hupdate : (t.restored key entry).credentialCounts = Function.update t.credentialCounts
      entry.credentialKey (t.credentialCounts entry.credentialKey + 1) := rfl
  rw [hupdate, Function.update_apply]
  by_cases hck : ck = entry.credentialKey
  · rw [if_pos hck, if_pos hck.symm, hck]
  · rw [if_neg hck, if_neg fun h => hck h.symm, add_zero]

/-- What one turn of the loop of `RestoreTransactions` does. -/
lemma restoreOne_eq_ok {saved : SavedTransaction} :
    t.restoreOne r maxPerCredential saved = .ok t' ↔
      ∃ entry, restoreEntry r saved = .ok entry ∧ t.cell saved.key = none ∧
        t.credentialCounts saved.credential + 1 ≤ maxPerCredential ∧
        t' = t.restored saved.key entry := by
  simp only [restoreOne, place, Except.bind_eq_ok]
  refine exists_congr fun entry => and_congr_right fun hentry => ?_
  obtain ⟨-, cert, issueRef, -, -, rfl⟩ := restoreEntry_eq_ok.mp hentry
  cases hcell : t.cell saved.key with
  | some c => simp
  | none =>
    simp only [Option.isSome_none, Bool.false_eq_true, if_false, true_and]
    have hcount : ((t.publish saved.key (restoredEntry saved cert issueRef) t.nextPtr).addCredCount
        saved.credential 1).credentialCounts saved.credential =
        t.credentialCounts saved.credential + 1 := by
      simp [addCredCount, publish]
    rw [hcount]
    split_ifs with hmax
    · simp [not_le.mpr hmax]
    · rw [Except.ok.injEq, eq_comm]
      exact ⟨fun h => ⟨not_lt.mp hmax, h⟩, fun h => h.2⟩

end Tracker

/-- When `RestoreTransactions` succeeds. -/
lemma nextTracker_eq_ok {signer : Bytes} {maxTransactions maxPerCredential : ℤ}
    {t t' : Tracker} {snapshot : TransactionSnapshot} :
    nextTracker r signer maxTransactions maxPerCredential t snapshot = .ok t' ↔
      t.count = 0 ∧ r.textLength snapshot ≤ maxSnapshotSize ∧
      (∀ e ∈ snapshot.entries, 3 + e.issueRef.nesting r ≤ maxNestingDepth) ∧
      snapshot.version = 1 ∧ snapshot.signer = signer ∧
      (snapshot.entries.length : ℤ) ≤ maxTransactions ∧
      snapshot.entries.foldlM (Tracker.restoreOne r maxPerCredential) { nextPtr := t.nextPtr } =
        .ok t' := by
  have hcheck : checkSnapshot r signer maxTransactions t snapshot = .ok () ↔ t.count = 0 ∧
      r.textLength snapshot ≤ maxSnapshotSize ∧
      (∀ e ∈ snapshot.entries, 3 + e.issueRef.nesting r ≤ maxNestingDepth) ∧
      (snapshot.version = 1 ∧ snapshot.signer = signer) ∧
      (snapshot.entries.length : ℤ) ≤ maxTransactions := by
    unfold checkSnapshot
    split_ifs with h1 h2 h3 h4 h5
    · simp [h1]
    · simp [not_le.mpr h2]
    · simp only [false_iff]
      rintro ⟨-, -, hn, -⟩
      obtain ⟨e, he, hdeep⟩ := List.any_eq_true.mp h3
      exact absurd (hn e he) (not_le.mpr (of_decide_eq_true hdeep))
    · simp only [false_iff]
      rintro ⟨-, -, -, ⟨hv, hs⟩, -⟩
      exact h4.elim (fun h => h hv) (fun h => h hs)
    · simp [not_le.mpr h5]
    · push Not at h4
      have hn : ∀ e ∈ snapshot.entries, 3 + e.issueRef.nesting r ≤ maxNestingDepth := by
        simpa using h3
      exact iff_of_true rfl ⟨not_not.mp h1, not_lt.mp h2, hn, h4, not_lt.mp h5⟩
  simp only [nextTracker, Except.bind_eq_ok, hcheck]
  constructor
  · rintro ⟨-, ⟨h1, h2, h3, h4, h5⟩, h⟩
    exact ⟨h1, h2, h3, h4.1, h4.2, h5, h⟩
  · rintro ⟨h1, h2, h3, hv, hs, h5, h⟩
    exact ⟨(), ⟨h1, h2, h3, ⟨hv, hs⟩, h5⟩, h⟩

/-- Without its `certReqId` a saved transaction is restored to the same entry without. -/
lemma restoreEntry_withoutCertReqID {saved : SavedTransaction} {entry : TransactionEntry}
    (h : restoreEntry r { saved with certReqID := none } = .ok entry) :
    ∃ e', restoreEntry r saved = .ok e' ∧ entry = { e' with certReqID := none } := by
  obtain ⟨⟨h1, h2, h3, h4⟩, cert, issueRef, hcert, href, rfl⟩ := restoreEntry_eq_ok.mp h
  exact ⟨restoredEntry saved cert issueRef,
    restoreEntry_eq_ok.mpr ⟨⟨h1, h2, h3, h4⟩, cert, issueRef, hcert, href, rfl⟩, rfl⟩

/-- **Recovery**: what holds of an empty map and is kept by each entry that is
restored holds after a restart. -/
lemma Tracker.restart_induction {t t' : Tracker} {maxTransactions maxPerCredential : ℤ}
    {ids : Bool} {P : Tracker → Prop}
    (h : t.restart r maxTransactions maxPerCredential ids = some t')
    (hstart : P { nextPtr := t.nextPtr })
    (hkeep : ∀ (t1 : Tracker) (key : TransactionKey) (c : Cell) (e' : TransactionEntry), P t1 →
      t.cell key = some c → Recovers c.entry e' → t1.cell key = none →
      P (t1.restored key (if ids then e' else { e' with certReqID := none }))) : P t' := by
  unfold restart at h
  split at h
  · cases h
  next snapshot hsnap =>
  obtain ⟨-, -, -, es, hperm, hes⟩ := snapshotTransactions_eq_ok hsnap
  -- what the snapshot holds, entry by entry
  have hfrom : ∀ s ∈ snapshot.entries, ∀ e', restoreEntry r s = .ok e' →
      ∃ c, t.cell s.key = some c ∧ Recovers c.entry e' := by
    intro s hs e' he'
    obtain ⟨e, he, hsaved⟩ := Fallible.exists_of_forall₂ hes hs
    obtain ⟨hkey, hrec⟩ := hsaved.recovers he'
    exact ⟨e.2, hkey ▸ AList.mem_lookup_iff.mpr (hperm.subset he), hrec⟩
  have hok : nextTracker r [] maxTransactions maxPerCredential { nextPtr := t.nextPtr }
      (if ids then snapshot else snapshot.withoutCertReqIDs) = .ok t' := by
    cases hres : nextTracker r [] maxTransactions maxPerCredential
        { nextPtr := t.nextPtr } (if ids then snapshot else snapshot.withoutCertReqIDs) with
    | error e => rw [hres] at h; cases h
    | ok t'' => rw [hres] at h; cases h; rfl
  have hloop := (nextTracker_eq_ok.mp hok).2.2.2.2.2.2
  refine Fallible.foldlM_ok_induction (P := fun _ => P) hloop hstart
    fun done s t1 t2 hs hP hone => ?_
  obtain ⟨entry, hentry, hnone, -, rfl⟩ := restoreOne_eq_ok.mp hone
  cases ids with
  | true =>
    obtain ⟨c, hc, hrec⟩ := hfrom s hs entry hentry
    exact hkeep t1 s.key c entry hP hc hrec hnone
  | false =>
    obtain ⟨s0, hs0, rfl⟩ := List.mem_map.mp hs
    obtain ⟨e', he', rfl⟩ := restoreEntry_withoutCertReqID hentry
    obtain ⟨c, hc, hrec⟩ := hfrom s0 hs0 e' he'
    exact hkeep t1 s0.key c e' hP hc hrec hnone

end

end PkiCmp
