/-
What a handler sees and returns (`server/handler.go`, the types of
`server/ca.go` and `server/revocation.go`).

* `SenderIdentity`, `SenderIdentity.credentialID`: the authenticated sender and
  the digest its transactions are kept under;
* `Ctx`: the values the server passes to a handler through the context;
* `Response`, `WaitingResponse`: what comes back.
-/
import PkiCmp.Verify

namespace PkiCmp

open Der

/-! ### Senders -/

/-- `SenderIdentity`. -/
structure SenderIdentity where
  certificate : Option Certificate := none
  sender : Name := {}
  senderKID : Bytes := []
  macVerified : Bool := false
  ra : Option SenderIdentity := none
  secret : Bytes := []
  protectionParams : Option MACCredentialOption := none
  headerSender : GeneralName := {}

/-- `senderNameKey`. -/
def senderNameKey (name : GeneralName) : Bytes :=
  if name.directoryName ≠ [] then str "dn:" ++ name.directoryName.string else name.raw

/-- `writeLengthPrefixed`: four octets of length, then the value. -/
def lengthPrefixed (b : Bytes) : Bytes := beOctets 4 b.length ++ b

/-- `credentialID`. -/
def SenderIdentity.credentialID (cr : Crypto) (s : SenderIdentity) : Except GoError Bytes :=
  if s.macVerified then
    .ok (cr.hash .sha256
      (str "cmp-mac" ++ lengthPrefixed s.senderKID ++
        lengthPrefixed (senderNameKey s.headerSender)))
  else match s.certificate with
    | some cert => .ok (cr.hash .sha256 cert.raw)
    | none => .error (.text (str "no credentials in SenderIdentity"))

/-! ### Requests and responses -/

/-- `RequestType`; a body type without a constant keeps its number. -/
inductive RequestType where
  | ir
  | cr
  | p10cr
  | kur
  | other (n : ℕ)
  deriving DecidableEq, Repr

/-- `bodyTypeToRequestType`. -/
def bodyTypeToRequestType (t : BodyType) : RequestType :=
  if t = BodyTypeIR then .ir
  else if t = BodyTypeCR then .cr
  else if t = BodyTypeKUR then .kur
  else if t = BodyTypeP10CR then .p10cr
  else .ir

/-- `requestTypeFromBody`. -/
def requestTypeFromBody (t : BodyType) : RequestType :=
  if t = BodyTypeIR then .ir
  else if t = BodyTypeCR then .cr
  else if t = BodyTypeKUR then .kur
  else if t = BodyTypeP10CR then .p10cr
  else .other (t &&& 0x1f).toNat

/-- `isInitialRequest`. -/
def isInitialRequest (t : BodyType) : Bool :=
  t = BodyTypeIR || t = BodyTypeCR || t = BodyTypeKUR || t = BodyTypeP10CR || t = BodyTypeRR

/-- `isCertRequest`. -/
def isCertRequest (t : BodyType) : Bool :=
  t = BodyTypeIR || t = BodyTypeCR || t = BodyTypeKUR || t = BodyTypeP10CR

/-- The reference a CA gives an issuance, opaque to the server. -/
abbrev IssueRef := ℕ

/-- `WaitingResponse`. -/
structure WaitingResponse where
  checkAfter : Duration
  reason : GoString := []
  pollRef : GoString
  deriving DecidableEq, Repr

/-- `Response`. -/
structure Response where
  certificate : Option Certificate := none
  caCerts : List Certificate := []
  waiting : Option WaitingResponse := none
  issueRef : Option IssueRef := none
  deriving DecidableEq, Repr

/-- The results of `HandleCMP`. -/
structure HandlerResult where
  response : Option Response := none
  err : Option GoError := none
  deriving DecidableEq, Repr

/-- A refusal by the handler. -/
def HandlerResult.refuse (e : GoError) : HandlerResult := { err := some e }

/-- `ConfirmStatus`. -/
inductive ConfirmStatus where
  | accepted
  | rejected
  | implicit
  | expired
  deriving DecidableEq, Repr

/-- `issuedInfo`.  `txn` is the transaction both were read from; no handler sees
it. -/
structure IssuedInfo where
  cert : Option Certificate
  issueRef : Option IssueRef
  txn : ℕ
  deriving DecidableEq, Repr

/-- The context of a handler call, as far as the server sets it. -/
structure Ctx where
  pollRef : Option GoString := none
  issued : Option IssuedInfo := none
  sha1Signatures : Bool := false
  deriving DecidableEq, Repr

/-- The template handed to a CA: an `x509.Certificate` with the fields that come
from the request. -/
structure Template where
  subject : Name
  publicKey : Option PublicKey
  subjectKeyId : Bytes
  extraExtensions : List Extension
  deriving DecidableEq, Repr

/-- `RevocationRequest`. -/
structure RevocationRequest where
  issuer : Name
  rawIssuer : Bytes
  serialNumber : ℤ
  reason : ℤ := 0
  extensions : List Extension := []
  subject : RDNSequence
  publicKey : Bytes
  hasReason : Bool := false
  deriving DecidableEq, Repr

/-- `errorToStatusInfo`, for an error that is there. -/
def errorToStatusInfo (err : GoError) : PKIStatusInfo :=
  match err.asServerError with
  | some se =>
    { status := se.status, failInfo := se.failureInfo,
      statusString := if se.statusText ≠ [] then [se.statusText] else [] }
  | none => { status := StatusRejection, failInfo := FailSystemFailure }

end PkiCmp
