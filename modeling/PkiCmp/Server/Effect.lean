/-
The operations of the server and what they do to its state.

The code of the server is written as programs over `Effect`: each operation on a
`sync.Map` or an atomic counter, each call of the handler, of the CA or of the
authorizer, and each look at the clock or at the random source is one operation.
`exec` says what an operation does to the shared state; what comes from outside
is in the `Oracle` of the step.

* `Effect`, `Effect.Res`, `exec`.
-/
import PkiCmp.Lib.Interleaving
import PkiCmp.Server.Snapshot

namespace PkiCmp

open Der Interact

/-- The function of the tracker that an operation on the map is issued by. -/
inductive Site where
  | getPending
  | setPending
  | getIssued
  | setIssued
  | setCompleted
  | delete
  | cleanupExpired
  deriving DecidableEq, Repr

/-! ### Operations -/

/-- What the verification of a message finds outside: the clock and the
databases of secrets and certificates at that moment. -/
structure Verifier where
  now : Time
  lookupSecret : Name → Bytes → Except GoError Bytes
  lookupCertificate : Name → Name → Bytes → Except GoError Certificate

/-- A random value of 16 octets: nonces, transaction identifiers and salts. -/
abbrev Random := { b : Bytes // b.length = 16 }

/-- The operations. -/
inductive Effect where
  /-- `time.Now` -/
  | now
  /-- `rand.Read` into 16 octets -/
  | random
  /-- a MAC or signature over a protected part -/
  | seal (s : Seal) (data : Bytes)
  /-- the outside world as `verifyProtection` finds it -/
  | verifier
  /-- `transactions.Load` -/
  | load (site : Site) (key : TransactionKey)
  /-- `transactions.LoadOrStore` -/
  | loadOrStore (key : TransactionKey) (entry : TransactionEntry)
  /-- `transactions.CompareAndSwap` of the pointer that was loaded -/
  | compareAndSwap (site : Site) (key : TransactionKey) (old : ℕ) (new : TransactionEntry)
  /-- `transactions.LoadAndDelete`; `judged` is the identity of the entry the
  caller has seen under the key, which the operation does not look at -/
  | loadAndDelete (site : Site) (key : TransactionKey) (judged : ℕ)
  /-- `transactions.Range`: the keys it will visit -/
  | range
  /-- `count.Add` -/
  | countAdd (delta : ℤ)
  /-- `credentialCounts.LoadOrStore` -/
  | getOrCreateCredCount (ck : CredentialKey)
  /-- `Add` on the counter of a credential -/
  | credCountAdd (ck : CredentialKey) (delta : ℤ)
  /-- `RAAuthorizer.AuthorizeRA` -/
  | authorizeRA (ra : SenderIdentity) (req : PKIMessage) (sender : SenderIdentity)
  /-- `Handler.HandleCMP` of a handler that is not modelled -/
  | handleCMP (ctx : Ctx) (req : PKIMessage) (sender : SenderIdentity)
  /-- `CA.IssueCertificate` -/
  | issueCertificate (reqType : RequestType) (template : Template) (sender : SenderIdentity)
  /-- `PendingChecker.CheckPending` -/
  | checkPending (pollRef : GoString) (sender : SenderIdentity)
  /-- `CertificateConfirmer.ConfirmCertificate`; `txn` is the transaction the
  server has seen the certificate in, if any, which the CA does not see -/
  | confirmCertificate (cert : Certificate) (status : ConfirmStatus) (issueRef : Option IssueRef)
      (txn : Option ℕ)
  /-- `RevocationAuthorizer.AuthorizeRevocation` -/
  | authorizeRevocation (req : RevocationRequest) (sender : SenderIdentity)
  /-- `Revoker.RevokeCertificate` -/
  | revokeCertificate (req : RevocationRequest) (sender : SenderIdentity)
  /-- `SnapshotTransactions`, then `RestoreTransactions` in a new process with the
  given limits; an old snapshot lacks the `certReqId`s -/
  | restart (maxTransactions maxPerCredential : ℤ) (withCertReqIDs : Bool)
  /-- a bound of the model on a loop or recursion of the source is used up -/
  | diverge

/-- The answers. -/
abbrev Effect.Res : Effect → Type
  | .now => Time
  | .random => Random
  | .seal .. => Except GoError Bytes
  | .verifier => Verifier
  | .load .. => Option Cell
  | .loadOrStore .. => Bool
  | .compareAndSwap .. => Bool
  | .loadAndDelete .. => Option Cell
  | .range => List TransactionKey
  | .countAdd .. => ℤ
  | .getOrCreateCredCount .. => Unit
  | .credCountAdd .. => ℤ
  | .authorizeRA .. => Option GoError
  | .handleCMP .. => HandlerResult
  | .issueCertificate .. => HandlerResult
  | .checkPending .. => HandlerResult
  | .confirmCertificate .. => Option GoError
  | .authorizeRevocation .. => Option GoError
  | .revokeCertificate .. => Option GoError
  | .restart .. => Bool
  | .diverge => Empty

/-- The operations of the tracker. -/
def Effect.OnTracker : Effect → Prop
  | .now | .load .. | .loadOrStore .. | .compareAndSwap .. | .loadAndDelete .. | .range
  | .countAdd .. | .getOrCreateCredCount .. | .credCountAdd .. | .diverge => True
  | _ => False

/-- The operations of a request on the entry of its own transaction. -/
def Effect.OnEntry : Effect → Prop
  | .now | .load .. | .compareAndSwap .. | .loadAndDelete .delete _ _ | .countAdd ..
  | .getOrCreateCredCount .. | .credCountAdd .. | .diverge => True
  | _ => False

variable {o : Effect}

lemma Effect.OnEntry.onTracker (h : o.OnEntry) : o.OnTracker := by
  cases o <;> trivial

/-- The operations of an answer: random values, the clock and the protection. -/
def Effect.Building : Effect → Prop
  | .random | .now | .seal .. => True
  | _ => False

/-- The operations of `process` until a message is verified. -/
def Effect.Around : Effect → Prop
  | .random | .now | .seal .. | .verifier | .authorizeRA .. => True
  | _ => False

lemma Effect.Building.around (h : o.Building) : o.Around := by
  cases o <;> trivial

/-- The operations of `process` around the handlers; the transactions it starts
are active. -/
def Effect.Outer : Effect → Prop
  | .random | .now | .seal .. | .verifier | .countAdd ..
  | .getOrCreateCredCount .. | .credCountAdd .. | .authorizeRA .. => True
  | .loadOrStore _ entry => entry.state = .active
  | _ => False

lemma Effect.Around.outer (h : o.Around) : o.Outer := by
  cases o <;> trivial

lemma Effect.Building.outer (h : o.Building) : o.Outer := by
  cases o <;> trivial

/-- The operations of a request up to the call of the handler. -/
def Effect.Looking : Effect → Prop
  | .random | .now | .seal .. | .load .. => True
  | _ => False

lemma Effect.Building.looking (h : o.Building) : o.Looking := by
  cases o <;> trivial

/-- The operations of a request that was accepted, apart from the handler. -/
def Effect.Serving : Effect → Prop
  | .confirmCertificate _ .implicit _ _ => True
  | o => o.Building ∨ o.OnEntry

lemma Effect.Building.serving (h : o.Building) : o.Serving := by
  cases o <;> first | exact h.elim | exact .inl h

lemma Effect.OnEntry.serving (h : o.OnEntry) : o.Serving := by
  cases o <;> first | exact h.elim | exact .inr h

/-- The operations of the cleanup. -/
def Effect.Expiring : Effect → Prop
  | .now | .range | .load .cleanupExpired _ | .loadAndDelete .cleanupExpired _ _ | .countAdd ..
  | .getOrCreateCredCount .. | .credCountAdd .. | .confirmCertificate _ .expired _ _ => True
  | _ => False

/-- Programs of the server. -/
abbrev ServerProg := Prog Effect Effect.Res

/-- What handles a message, or runs beside that; nothing is returned after a nil dereference. -/
abbrev ServerThread := ServerProg (Option PKIMessage)

/-- One operation of the server with its answer. -/
abbrev ServerEvent := Event Effect Effect.Res

/-- The operations that one message has led to, with their answers. -/
abbrev History := List ServerEvent

/-- Issue an operation. -/
abbrev perform (o : Effect) : ServerProg o.Res := Prog.call o

/-! ### Execution -/

/-- What comes from outside in one step; an operation uses the field it needs. -/
structure Oracle where
  time : Time
  random : Random
  sealed : Except GoError Bytes
  verifier : Verifier
  keys : List TransactionKey
  err : Option GoError
  result : HandlerResult
  recovery : Recovery

/-- `Range` visits no key twice and every key that is there. -/
def Tracker.rangeKeys (t : Tracker) (keys : List TransactionKey) : List TransactionKey :=
  if keys.Nodup ∧ ∀ k ∈ t.transactions.keys, k ∈ keys then keys else t.transactions.keys

/-- One operation on the shared state. -/
def exec (o : Effect) (c : Oracle) (t : Tracker) : Option (o.Res × Tracker) :=
  match o with
  | .now => some (c.time, t)
  | .random => some (c.random, t)
  | .seal .. => some (c.sealed, t)
  | .verifier => some (c.verifier, t)
  | .load _ key => some (t.cell key, t)
  | .loadOrStore key entry =>
    if (t.cell key).isSome then some (true, t) else some (false, t.publish key entry t.nextPtr)
  | .compareAndSwap _ key old new =>
    match t.cell key with
    | some cell =>
      if cell.ptr = old then some (true, t.publish key new cell.txn) else some (false, t)
    | none => some (false, t)
  | .loadAndDelete _ key _ => some (t.cell key, t.remove key)
  | .range => some (t.rangeKeys c.keys, t)
  | .countAdd delta => some (t.count + delta, { t with count := t.count + delta })
  | .getOrCreateCredCount _ => some ((), t)
  | .credCountAdd ck delta => some (t.credentialCounts ck + delta, t.addCredCount ck delta)
  | .authorizeRA .. => some (c.err, t)
  | .handleCMP .. => some (c.result, t)
  | .issueCertificate .. => some (c.result, t)
  | .checkPending .. => some (c.result, t)
  | .confirmCertificate .. => some (c.err, t)
  | .authorizeRevocation .. => some (c.err, t)
  | .revokeCertificate .. => some (c.err, t)
  | .restart maxTransactions maxPerCredential withCertReqIDs =>
    match t.restart c.recovery maxTransactions maxPerCredential withCertReqIDs with
    | some t' => some (true, t')
    | none => some (false, t)
  | .diverge => none

/-- A pool of threads of the server. -/
abbrev ServerSys := Sys Effect Effect.Res (Option PKIMessage) Tracker

/-- The start of a thread, or one step of it. -/
abbrev ServerAction := Action Effect Effect.Res (Option PKIMessage) Oracle

/-- The log of a pool of threads. -/
abbrev ServerLog := List (ℕ × ServerEvent)

/-! ### An outside for concrete runs -/

namespace Server

/-- The certificate that the CA returns. -/
def sampleCertificate : Certificate :=
  { raw := [0x30, 0x00], signatureAlgorithm := .ecdsaWithSHA256 }

/-- The outside at a given time: zero nonces, the secret of the client, and a CA
that returns a certificate and accepts what it is told. -/
def sampleOracle (time : Time) : Oracle where
  time
  random := ⟨List.replicate 16 0, length_zeros⟩
  sealed := .ok [0]
  verifier :=
    { now := time
      lookupSecret := fun _ _ => .ok [1]
      lookupCertificate := fun _ _ _ => .error (.text (str "not found")) }
  keys := []
  err := none
  result := { response := some { certificate := some sampleCertificate } }
  recovery := .sample time

end Server

end PkiCmp
