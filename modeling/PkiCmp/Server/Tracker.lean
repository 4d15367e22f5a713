/-
The transactions of the server (`server/transaction.go`, the types).

* `TransactionEntry`, `Cell`: an entry, and the pointer to it that the map holds;
* `Tracker`: the map and the counters, with the updates that operations on them
  are made of.
-/
import Mathlib.Data.List.AList
import PkiCmp.Server.Handler

namespace PkiCmp

open Der

/-! ### Entries -/

/-- `transactionKey`. -/
abbrev TransactionKey := Bytes

/-- `credentialKey`. -/
abbrev CredentialKey := Bytes

/-- `txnState`. -/
inductive TxnState where
  | active
  | pending
  | issued
  | completed
  deriving DecidableEq, Repr

/-- `transactionEntry`. -/
structure TransactionEntry where
  state : TxnState
  lastActivity : Time
  credentialKey : CredentialKey
  reqType : RequestType := .ir
  pollRef : GoString := []
  senderNonce : Bytes := []
  lastPollTime : Time := 0
  checkAfter : Duration := 0
  certReqID : Option ℤ := none
  cert : Option Certificate := none
  issueRef : Option IssueRef := none
  issuedSenderNonce : Bytes := []
  clientSenderNonce : Bytes := []
  protectionAlgorithm : Option AlgorithmIdentifier := none
  protectionParams : Option MACCredentialOption := none
  deriving DecidableEq, Repr

/-- The transaction still waits for its certificate. -/
def TransactionEntry.isOpen (e : TransactionEntry) : Bool :=
  e.state = .active || e.state = .pending

/-- What the map holds under a key: the pointer to an entry.  Every entry that is
published gets a pointer of its own; `txn` is the pointer of the entry its
transaction was started with, which nothing in the source reads. -/
structure Cell where
  ptr : ℕ
  txn : ℕ
  entry : TransactionEntry
  deriving DecidableEq, Repr

/-- `transactionTracker`, the mutable part.  Counters of credentials are created
at zero and never removed, so one that is not there yet reads as zero. -/
structure Tracker where
  transactions : AList fun _ : TransactionKey => Cell := ∅
  count : ℤ := 0
  credentialCounts : CredentialKey → ℤ := fun _ => 0
  nextPtr : ℕ := 0

/-! ### The state -/

namespace Tracker

/-- The pointer under a key. -/
def cell (t : Tracker) (key : TransactionKey) : Option Cell := t.transactions.lookup key

/-- Store a new entry of a transaction under a key. -/
def publish (t : Tracker) (key : TransactionKey) (entry : TransactionEntry) (txn : ℕ) : Tracker :=
  { t with transactions := t.transactions.insert key ⟨t.nextPtr, txn, entry⟩,
           nextPtr := t.nextPtr + 1 }

/-- Take out what is stored under a key. -/
def remove (t : Tracker) (key : TransactionKey) : Tracker :=
  { t with transactions := t.transactions.erase key }

/-- Change the counter of a credential. -/
def addCredCount (t : Tracker) (ck : CredentialKey) (delta : ℤ) : Tracker :=
  { t with credentialCounts :=
    Function.update t.credentialCounts ck (t.credentialCounts ck + delta) }

end Tracker

end PkiCmp
