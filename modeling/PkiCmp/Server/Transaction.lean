/-
The transaction tracker (`server/transaction.go`): its methods as programs over
the operations on the map and the counters, in the order of the source.

* `makeKey`, `makeCredentialKey`;
* `startIfAbsent`, `setPending`, `getPending`, `setIssued`, `getIssued`,
  `setCompleted`, `delete`, `cleanupExpired`.
-/
import PkiCmp.Server.Effect

namespace PkiCmp

open Der Interact

/-- `transactionTracker`, the constant part: the limits, the hash of the keys,
and a bound on how often `setCompleted` retries, which the source does not
have. -/
structure TrackerConfig where
  sha256 : Bytes → Bytes
  maxTransactions : ℤ
  maxTransactionsPerCredential : ℤ
  retries : ℕ

namespace TrackerConfig

variable (t : TrackerConfig)

/-- `makeKey`. -/
def makeKey (credentialID transactionID : Bytes) : TransactionKey :=
  t.sha256 (lengthPrefixed credentialID ++ lengthPrefixed transactionID)

/-- `makeCredentialKey`. -/
def makeCredentialKey (credentialID : Bytes) : CredentialKey := t.sha256 credentialID

/-- `startIfAbsent`: whether the transaction already existed. -/
def startIfAbsent (credentialID transactionID : Bytes) : ServerProg (Except GoError Bool) := do
  let key := t.makeKey credentialID transactionID
  let ck := t.makeCredentialKey credentialID
  let newCount : ℤ ← perform (.countAdd 1)
  if t.maxTransactions < newCount then do
    let _ ← perform (.countAdd (-1))
    pure (.error (.text (str "maximum transaction limit reached")))
  else do
    perform (.getOrCreateCredCount ck)
    let newCredCount : ℤ ← perform (.credCountAdd ck 1)
    if t.maxTransactionsPerCredential < newCredCount then do
      let _ ← perform (.credCountAdd ck (-1))
      let _ ← perform (.countAdd (-1))
      pure (.error (.text (str "per-credential transaction limit reached")))
    else do
      let now ← perform .now
      let entry : TransactionEntry :=
        { state := .active, lastActivity := now, credentialKey := ck }
      let loaded : Bool ← perform (.loadOrStore key entry)
      if loaded then do
        let _ ← perform (.credCountAdd ck (-1))
        let _ ← perform (.countAdd (-1))
        pure (.ok true)
      else pure (.ok false)

/-- `Load` an entry and, when it is active or pending, replace it: what
`setPending` and `setIssued` have in common. -/
def replaceOpen (site : Site) (key : TransactionKey) (entry : Time → TransactionEntry) :
    ServerProg Bool := do
  let old : Option Cell ← perform (.load site key)
  match old with
  | none => pure false
  | some old =>
    if old.entry.state ≠ .active ∧ old.entry.state ≠ .pending then pure false
    else do
      let now ← perform .now
      perform (.compareAndSwap site key old.ptr (entry now))

/-- `setPending`. -/
def setPending (credentialID transactionID : Bytes) (reqType : RequestType) (pollRef : GoString)
    (senderNonce : Bytes) (checkAfter : Duration) (lastPollTime : Time) : ServerProg Bool :=
  replaceOpen .setPending (t.makeKey credentialID transactionID) fun now =>
    { state := .pending, lastActivity := now, credentialKey := t.makeCredentialKey credentialID,
      reqType, pollRef, senderNonce, lastPollTime, checkAfter }

/-- `setIssued`. -/
def setIssued (credentialID transactionID : Bytes) (reqType : RequestType) (certReqID : ℤ)
    (cert : Certificate) (issueRef : Option IssueRef) (senderNonce clientSenderNonce : Bytes)
    (protectionParams : Option MACCredentialOption) (algorithm : Option AlgorithmIdentifier) :
    ServerProg Bool :=
  replaceOpen .setIssued (t.makeKey credentialID transactionID) fun now =>
    { state := .issued, lastActivity := now, credentialKey := t.makeCredentialKey credentialID,
      reqType, certReqID := some certReqID, cert := some cert, issueRef,
      issuedSenderNonce := senderNonce, clientSenderNonce, protectionParams,
      protectionAlgorithm := algorithm }

/-- The entry under a key when it is in the given state. -/
def getInState (site : Site) (state : TxnState) (key : TransactionKey) :
    ServerProg (Option Cell) := do
  let v : Option Cell ← perform (.load site key)
  match v with
  | none => pure none
  | some c => if c.entry.state ≠ state then pure none else pure (some c)

/-- `getPending`. -/
def getPending (credentialID transactionID : Bytes) : ServerProg (Option Cell) :=
  getInState .getPending .pending (t.makeKey credentialID transactionID)

/-- `getIssued`. -/
def getIssued (credentialID transactionID : Bytes) : ServerProg (Option Cell) :=
  getInState .getIssued .issued (t.makeKey credentialID transactionID)

/-- The loop of `setCompleted`. -/
def complete (key : TransactionKey) : ℕ → ServerProg Unit
  | 0 => do
      let e : Empty ← perform .diverge
      nomatch e
  | retries + 1 => do
      let old : Option Cell ← perform (.load .setCompleted key)
      match old with
      | none => pure ()
      | some old => do
          let now : Time ← perform .now
          let newEntry := { old.entry with state := .completed, lastActivity := now }
          let swapped : Bool ← perform (.compareAndSwap .setCompleted key old.ptr newEntry)
          if swapped then pure () else complete key retries

/-- `setCompleted`. -/
def setCompleted (credentialID transactionID : Bytes) : ServerProg Unit :=
  complete (t.makeKey credentialID transactionID) (t.retries + 1)

/-- What both ways of removal do for an entry they took out. -/
def release (ck : CredentialKey) : ServerProg Unit := do
  let _ ← perform (.countAdd (-1))
  perform (.getOrCreateCredCount ck)
  let _ ← perform (.credCountAdd ck (-1))

/-- `delete`, called for the entry `judged`. -/
def delete (credentialID transactionID : Bytes) (judged : ℕ) : ServerProg Unit := do
  let v : Option Cell ←
    perform (.loadAndDelete .delete (t.makeKey credentialID transactionID) judged)
  match v with
  | some c => release c.entry.credentialKey
  | none => pure ()

/-- One visit of the `Range` in `cleanupExpired`: the entry is judged as it was
loaded, and whatever is stored under the key by then is removed. -/
def expire (cutoff : Time) (key : TransactionKey) : ServerProg (List IssuedInfo) := do
  let value : Option Cell ← perform (.load .cleanupExpired key)
  match value with
  | none => pure []
  | some c =>
    if c.entry.lastActivity.before cutoff then do
      let removed : Option Cell ← perform (.loadAndDelete .cleanupExpired key c.ptr)
      if removed.isSome then do
        release c.entry.credentialKey
        if c.entry.state = .issued ∧ c.entry.cert.isSome then
          pure [⟨c.entry.cert, c.entry.issueRef, c.txn⟩]
        else pure []
      else pure []
    else pure []

/-- The visits, one key after the other. -/
def expireAll (cutoff : Time) : List TransactionKey → ServerProg (List IssuedInfo)
  | [] => pure []
  | key :: keys => do
      let e ← expire cutoff key
      let es ← expireAll cutoff keys
      pure (e ++ es)

/-- `cleanupExpired`. -/
def cleanupExpired (maxAge : Duration) : ServerProg (List IssuedInfo) :=
  if maxAge ≤ 0 then pure []
  else do
    let now : Time ← perform .now
    let keys : List TransactionKey ← perform .range
    expireAll (now - maxAge) keys

/-! ### Calls -/

/-- A `credentialID`: a digest, far shorter than a length prefix can say. -/
abbrev CredentialID := { b : Bytes // b.length < 2 ^ 32 }

/-- A call of a method. -/
inductive Call where
  | startIfAbsent (credentialID : CredentialID) (transactionID : Bytes)
  | setPending (credentialID : CredentialID) (transactionID : Bytes) (reqType : RequestType)
      (pollRef : GoString) (senderNonce : Bytes) (checkAfter : Duration) (lastPollTime : Time)
  | getPending (credentialID : CredentialID) (transactionID : Bytes)
  | setIssued (credentialID : CredentialID) (transactionID : Bytes) (reqType : RequestType)
      (certReqID : ℤ) (cert : Certificate) (issueRef : Option IssueRef)
      (senderNonce clientSenderNonce : Bytes) (protectionParams : Option MACCredentialOption)
      (algorithm : Option AlgorithmIdentifier)
  | getIssued (credentialID : CredentialID) (transactionID : Bytes)
  | setCompleted (credentialID : CredentialID) (transactionID : Bytes)
  | delete (credentialID : CredentialID) (transactionID : Bytes)
  | cleanupExpired (maxAge : Duration)

/-- What a call returns.  The key of `startIfAbsent` stands beside its result. -/
inductive Answer where
  | started (key : TransactionKey) (r : Except GoError Bool)
  | replaced (ok : Bool)
  | found (entry : Option TransactionEntry)
  | done
  | expired (infos : List IssuedInfo)

/-- The program of a call. -/
def call : Call → ServerProg Answer
  | .startIfAbsent c x => do
      let r ← t.startIfAbsent c.1 x
      pure (.started (t.makeKey c.1 x) r)
  | .setPending c x reqType pollRef senderNonce checkAfter lastPollTime => do
      let ok ← t.setPending c.1 x reqType pollRef senderNonce checkAfter lastPollTime
      pure (.replaced ok)
  | .getPending c x => do
      let cell ← t.getPending c.1 x
      pure (.found (cell.map Cell.entry))
  | .setIssued c x reqType certReqID cert issueRef senderNonce clientSenderNonce params alg => do
      let ok ← t.setIssued c.1 x reqType certReqID cert issueRef senderNonce clientSenderNonce
        params alg
      pure (.replaced ok)
  | .getIssued c x => do
      let cell ← t.getIssued c.1 x
      pure (.found (cell.map Cell.entry))
  | .setCompleted c x => do
      t.setCompleted c.1 x
      pure .done
  | .delete c x => do
      t.delete c.1 x 0
      pure .done
  | .cleanupExpired maxAge => do
      let infos ← cleanupExpired maxAge
      pure (.expired infos)

/-! ### Keys -/

/-- The length in front says where a value ends. -/
lemma lengthPrefixed_append_inj {a a' : Bytes} (ha : a.length < 2 ^ 32) (ha' : a'.length < 2 ^ 32)
    {b b' : Bytes} (h : lengthPrefixed a ++ b = lengthPrefixed a' ++ b') : a = a' ∧ b = b' := by
  simp only [lengthPrefixed, List.append_assoc] at h
  obtain ⟨hlen, h⟩ := List.append_inj h (by rw [length_beOctets, length_beOctets])
  have hnat := congrArg beNat hlen
  rw [beNat_beOctets, beNat_beOctets, Nat.mod_eq_of_lt (by norm_num; exact ha),
    Nat.mod_eq_of_lt (by norm_num; exact ha')] at hnat
  exact List.append_inj h hnat

/-- The key is one of the credential. -/
def KeyOf (credentialID : CredentialID) (key : TransactionKey) : Prop :=
  ∃ transactionID, key = t.makeKey credentialID.1 transactionID

/-- Credentials have separate keys. -/
lemma KeyOf.unique {t : TrackerConfig} (hsha : Function.Injective t.sha256)
    {c c' : CredentialID} {key : TransactionKey} (h : t.KeyOf c key) (h' : t.KeyOf c' key) :
    c = c' := by
  obtain ⟨x, rfl⟩ := h
  obtain ⟨x', h'⟩ := h'
  exact Subtype.ext (lengthPrefixed_append_inj c.2 c'.2 (hsha h')).1

/-! ### What the methods may do -/

/-- `startIfAbsent` is done before any handler is called. -/
lemma startIfAbsent_outer (credentialID transactionID : Bytes) :
    Prog.Only Effect.Outer (t.startIfAbsent credentialID transactionID) := by
  simp only [startIfAbsent, perform, Prog.call_bind, Prog.Only.op_iff, Effect.Outer, true_and]
  intro newCount
  split_ifs
  · simp [Effect.Outer]
  · simp only [Prog.Only.op_iff, Effect.Outer, true_and]
    intro _ newCredCount
    split_ifs
    · simp [Effect.Outer]
    · simp only [Prog.Only.op_iff, Effect.Outer, true_and]
      intro now loaded
      split_ifs <;> simp [Effect.Outer]

section

variable {P : Effect → Prop} {key : TransactionKey}

/-- Replacing an open entry takes a load, the time and a swap. -/
lemma replaceOpen_of {site : Site} {entry : Time → TransactionEntry} (hload : P (.load site key))
    (hnow : P .now) (hswap : ∀ ptr now, P (.compareAndSwap site key ptr (entry now))) :
    Prog.Only P (replaceOpen site key entry) := by
  simp only [replaceOpen, perform, Prog.call_bind, Prog.Only.op_iff]
  refine ⟨hload, fun old => ?_⟩
  cases old with
  | none => trivial
  | some old =>
    simp only
    split_ifs
    · trivial
    · exact ⟨hnow, fun now => Prog.Only.call_iff.mpr (hswap _ now)⟩

/-- A lookup is a single load. -/
lemma getInState_load (site : Site) (state : TxnState) (key : TransactionKey)
    (h : P (.load site key)) : Prog.Only P (getInState site state key) := by
  simp only [getInState, perform, Prog.call_bind, Prog.Only.op_iff]
  refine ⟨h, fun v => ?_⟩
  cases v with
  | none => trivial
  | some c =>
    simp only
    split_ifs <;> trivial

/-- Completing an entry takes loads, times and swaps for completed entries. -/
lemma complete_of (hdiverge : P .diverge) (hload : P (.load .setCompleted key)) (hnow : P .now)
    (hswap : ∀ ptr e, e.state = .completed → P (.compareAndSwap .setCompleted key ptr e))
    (retries : ℕ) : Prog.Only P (complete key retries) := by
  induction retries with
  | zero => exact ⟨hdiverge, fun e => e.elim⟩
  | succ retries ih =>
    simp only [complete, perform, Prog.call_bind, Prog.Only.op_iff]
    refine ⟨hload, fun old => ?_⟩
    cases old with
    | none => trivial
    | some old =>
      refine ⟨hnow, fun now => ⟨hswap _ _ rfl, fun swapped => ?_⟩⟩
      cases swapped with
      | true => trivial
      | false => exact ih

/-- A removal takes the entry out and releases its units. -/
lemma delete_of {credentialID transactionID : Bytes} {judged : ℕ}
    (hdelete : P (.loadAndDelete .delete (t.makeKey credentialID transactionID) judged))
    (hcount : P (.countAdd (-1)))
    (hcredit : ∀ ck, P (.getOrCreateCredCount ck) ∧ P (.credCountAdd ck (-1))) :
    Prog.Only P (t.delete credentialID transactionID judged) := by
  refine ⟨hdelete, fun v => ?_⟩
  cases v with
  | none => trivial
  | some c =>
    obtain ⟨hget, hadd⟩ := hcredit c.entry.credentialKey
    exact ⟨hcount, fun _ => ⟨hget, fun _ => ⟨hadd, fun _ => trivial⟩⟩⟩

end

lemma setPending_only (credentialID transactionID : Bytes) (reqType : RequestType)
    (pollRef : GoString) (senderNonce : Bytes) (checkAfter : Duration) (lastPollTime : Time) :
    Prog.Only Effect.OnEntry (t.setPending credentialID transactionID reqType pollRef senderNonce
      checkAfter lastPollTime) :=
  replaceOpen_of trivial trivial fun _ _ => trivial

lemma setIssued_only (credentialID transactionID : Bytes) (reqType : RequestType) (certReqID : ℤ)
    (cert : Certificate) (issueRef : Option IssueRef) (senderNonce clientSenderNonce : Bytes)
    (params : Option MACCredentialOption) (algorithm : Option AlgorithmIdentifier) :
    Prog.Only Effect.OnEntry (t.setIssued credentialID transactionID reqType certReqID cert
      issueRef senderNonce clientSenderNonce params algorithm) :=
  replaceOpen_of trivial trivial fun _ _ => trivial

/-- `setCompleted` works on the entry alone. -/
lemma setCompleted_only (credentialID transactionID : Bytes) :
    Prog.Only Effect.OnEntry (t.setCompleted credentialID transactionID) :=
  complete_of trivial trivial trivial (fun _ _ _ => trivial) _

/-- `delete` works on the entry alone. -/
lemma delete_only (credentialID transactionID : Bytes) (judged : ℕ) :
    Prog.Only Effect.OnEntry (t.delete credentialID transactionID judged) :=
  t.delete_of trivial trivial fun _ => ⟨trivial, trivial⟩

/-- `cleanupExpired` looks at entries, removes them and releases their units. -/
lemma cleanupExpired_only (maxAge : Duration) :
    Prog.Only Effect.Expiring (cleanupExpired maxAge) := by
  have hone : ∀ cutoff key, Prog.Only Effect.Expiring (expire cutoff key) := by
    intro cutoff key
    simp only [expire, perform, Prog.call_bind, Prog.Only.op_iff]
    refine ⟨trivial, fun value => ?_⟩
    cases value with
    | none => trivial
    | some c =>
      by_cases hold : c.entry.lastActivity.before cutoff
      · simp only [if_pos hold, Prog.Only.op_iff]
        refine ⟨trivial, fun removed => ?_⟩
        cases removed with
        | none => trivial
        | some _ =>
          refine Prog.Only.bind ⟨trivial, fun _ => ⟨trivial, fun _ => ⟨trivial, fun _ => trivial⟩⟩⟩
            fun _ => ?_
          split_ifs <;> trivial
      · simp only [if_neg hold]
        trivial
  have hall : ∀ cutoff keys, Prog.Only Effect.Expiring (expireAll cutoff keys) := by
    intro cutoff keys
    induction keys with
    | nil => trivial
    | cons key keys ih => exact (hone cutoff key).bind fun e => ih.bind fun es => trivial
  unfold cleanupExpired
  split_ifs
  · trivial
  · exact ⟨trivial, fun now => ⟨trivial, fun keys => hall _ keys⟩⟩

end TrackerConfig

end PkiCmp
