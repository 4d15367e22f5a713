/-
Errors of `pkicmp/errors.go`, `pkicmp/status.go` and `server/errors.go`.

* `PKIStatus`, `PKIFailureInfo`: the status integer and the failure bits, with
  their names;
* `GoError`: the error values the modelled code makes, each with what it wraps;
  `GoError.Error` is its text;
* `GoError.asServerError`, `asVerificationError`, `asParseError`,
  `asStatusError`: `errors.As`, the first error of a kind along the chain.
-/
import PkiCmp.Go.Text

namespace PkiCmp

open Der

/-! ### Status and failure bits -/

/-- `PKIStatus`: any integer may arrive. -/
abbrev PKIStatus := ℤ

/-- The statuses. -/
def StatusAccepted : PKIStatus := 0
def StatusGrantedWithMods : PKIStatus := 1
def StatusRejection : PKIStatus := 2
def StatusWaiting : PKIStatus := 3
def StatusRevocationWarning : PKIStatus := 4
def StatusRevocationNotification : PKIStatus := 5
def StatusKeyUpdateWarning : PKIStatus := 6

/-- `PKIStatus.String`. -/
def statusName (s : PKIStatus) : GoString :=
  if s = StatusAccepted then str "accepted"
  else if s = StatusGrantedWithMods then str "grantedWithMods"
  else if s = StatusRejection then str "rejection"
  else if s = StatusWaiting then str "waiting"
  else if s = StatusRevocationWarning then str "revocationWarning"
  else if s = StatusRevocationNotification then str "revocationNotification"
  else if s = StatusKeyUpdateWarning then str "keyUpdateWarning"
  else str "unknown(" ++ decimal s ++ str ")"

/-- `PKIFailureInfo`: a set of bits, bit 0 of the named list being the most
significant. -/
abbrev PKIFailureInfo := UInt32

/-- The failure bit of number `i`. -/
def failBit (i : UInt32) : PKIFailureInfo := 1 <<< (31 - i)

/-- The failure bits that are used. -/
def FailBadAlg : PKIFailureInfo := failBit 0
def FailBadMessageCheck : PKIFailureInfo := failBit 1
def FailBadRequest : PKIFailureInfo := failBit 2
def FailBadTime : PKIFailureInfo := failBit 3
def FailBadCertId : PKIFailureInfo := failBit 4
def FailBadDataFormat : PKIFailureInfo := failBit 5
def FailBadPOP : PKIFailureInfo := failBit 9
def FailWrongIntegrity : PKIFailureInfo := failBit 12
def FailBadRecipientNonce : PKIFailureInfo := failBit 13
def FailAddInfoNotAvailable : PKIFailureInfo := failBit 17
def FailBadSenderNonce : PKIFailureInfo := failBit 18
def FailBadCertTemplate : PKIFailureInfo := failBit 19
def FailSignerNotTrusted : PKIFailureInfo := failBit 20
def FailTransactionIdInUse : PKIFailureInfo := failBit 21
def FailUnsupportedVersion : PKIFailureInfo := failBit 22
def FailNotAuthorized : PKIFailureInfo := failBit 23
def FailSystemUnavail : PKIFailureInfo := failBit 24
def FailSystemFailure : PKIFailureInfo := failBit 25

/-- `failureInfoNames`, in the order of the bits. -/
def failureInfoNames : List String :=
  ["badAlg", "badMessageCheck", "badRequest", "badTime", "badCertId", "badDataFormat",
    "wrongAuthority", "incorrectData", "missingTimeStamp", "badPOP", "certRevoked",
    "certConfirmed", "wrongIntegrity", "badRecipientNonce", "timeNotAvailable",
    "unacceptedPolicy", "unacceptedExtension", "addInfoNotAvailable", "badSenderNonce",
    "badCertTemplate", "signerNotTrusted", "transactionIdInUse", "unsupportedVersion",
    "notAuthorized", "systemUnavail", "systemFailure", "duplicateCertReq"]

/-- `PKIFailureInfo.String`. -/
def failureName (f : PKIFailureInfo) : GoString :=
  joinStrings (str ", ")
    (failureInfoNames.zipIdx.filterMap fun (name, i) =>
      if f &&& failBit (UInt32.ofNat i) != 0 then some (str name) else none)

/-! ### Reasons -/

/-- `InvalidReason`. -/
inductive InvalidReason where
  | unknown
  | unsupportedAlgorithm
  | missingSharedSecret
  | missingSigner
  | badMAC
  | signatureFailed
  | missingTrustAnchors
  | unexpectedProtection
  | senderMismatch
  | keyUsageNotPermitted
  | certificateExpired
  | noCandidateSigner
  deriving DecidableEq, Repr

/-- `InvalidReason.String`. -/
def InvalidReason.name : InvalidReason → GoString
  | .unknown => str "unknown"
  | .unsupportedAlgorithm => str "unsupported algorithm"
  | .missingSharedSecret => str "missing shared secret"
  | .missingSigner => str "missing signer"
  | .badMAC => str "MAC verification failed"
  | .signatureFailed => str "signature verification failed"
  | .missingTrustAnchors => str "missing trust anchors"
  | .unexpectedProtection => str "unexpected protection mechanism"
  | .senderMismatch => str "sender does not match protection certificate subject"
  | .keyUsageNotPermitted => str "protection certificate is not permitted to sign"
  | .certificateExpired => str "protection certificate is outside its validity period"
  | .noCandidateSigner => str "no candidate signer certificate"

/-! ### Error values -/

/-- `server.Error`. -/
structure ServerError where
  status : PKIStatus
  failureInfo : PKIFailureInfo
  statusText : GoString
  deriving DecidableEq, Repr

/-- `PKIStatusError`. -/
structure PKIStatusError where
  status : PKIStatus
  statusString : GoString
  failInfo : PKIFailureInfo
  deriving DecidableEq, Repr

/-- Error values.  An error with an `Err` field comes in two forms, without and
with a wrapped error. -/
inductive GoError where
  /-- `errors.New` and `fmt.Errorf` without a wrapped error -/
  | text (s : GoString)
  /-- `fmt.Errorf("…: %w", err)` -/
  | wrapped (s : GoString) (err : GoError)
  | parse (detail : GoString)
  | parseWrapped (detail : GoString) (err : GoError)
  | verification (reason : InvalidReason)
  | verificationWrapped (reason : InvalidReason) (err : GoError)
  | protection (reason : InvalidReason)
  | protectionWrapped (reason : InvalidReason) (err : GoError)
  | pkiStatus (e : PKIStatusError)
  /-- `pkicmp.ErrWaiting` -/
  | waiting
  | server (e : ServerError)
  /-- `client.Error` -/
  | client (op : GoString)
  | clientWrapped (op : GoString) (err : GoError)
  /-- `client.UnverifiedStatusError` -/
  | unverifiedStatus (status : PKIStatus) (statusString : GoString) (failInfo : PKIFailureInfo)
      (err : GoError)
  /-- `fmt.Errorf("%w…", err)` -/
  | annotated (err : GoError) (s : GoString)
  /-- `x509.ErrUnsupportedAlgorithm` -/
  | x509UnsupportedAlgorithm
  /-- an error of `cryptobyte.Builder` -/
  | build (e : BuildError)
  /-- an error of another library, with its text -/
  | library (s : GoString)
  deriving DecidableEq, Repr

instance : BuildFailure GoError := ⟨.build⟩

/-- The text of a builder's error, without the formatted values. -/
def buildErrorText : BuildError → GoString
  | .highTag _ => str "cryptobyte: high-tag number identifier octects not supported"
  | .childTooLong => str "pending ASN.1 child too long"
  | .invalidOID _ => str "cryptobyte: invalid OID"
  | .invalidTime => str "cryptobyte: cannot represent the time as a GeneralizedTime"

/-- `PKIStatusError.Error`. -/
def PKIStatusError.text (e : PKIStatusError) : GoString :=
  str "pkicmp: status " ++ statusName e.status ++
    (if e.failInfo ≠ 0 then str ", failInfo: " ++ failureName e.failInfo else []) ++
    (if e.statusString ≠ [] then str ", details: " ++ e.statusString else [])

/-- `server.Error.Error`. -/
def ServerError.text (e : ServerError) : GoString :=
  str "server: status " ++ statusName e.status ++
    (if e.failureInfo ≠ 0 then str ", failInfo: " ++ failureName e.failureInfo else []) ++
    (if e.statusText ≠ [] then str ": " ++ e.statusText else [])

namespace GoError

/-- `err.Error()`. -/
def Error : GoError → GoString
  | .text s => s
  | .wrapped s err => s ++ str ": " ++ err.Error
  | .parse d => str "pkicmp: " ++ d
  | .parseWrapped d err => str "pkicmp: " ++ d ++ str ": " ++ err.Error
  | .verification r => str "pkicmp: verification failed: " ++ r.name
  | .verificationWrapped r err =>
    str "pkicmp: verification failed: " ++ r.name ++ str ": " ++ err.Error
  | .protection r => str "pkicmp: protection failed: " ++ r.name
  | .protectionWrapped r err =>
    str "pkicmp: protection failed: " ++ r.name ++ str ": " ++ err.Error
  | .pkiStatus e => e.text
  | .waiting => str "pkicmp: waiting"
  | .server e => e.text
  | .client op => str "cmp: " ++ op
  | .clientWrapped op err => str "cmp: " ++ op ++ str ": " ++ err.Error
  | .unverifiedStatus status _ failInfo err =>
    str "cmp: unverified status " ++ statusName status ++
      (if failInfo ≠ 0 then str ", failInfo: " ++ failureName failInfo else []) ++
      str ": " ++ err.Error
  | .annotated err s => err.Error ++ s
  | .x509UnsupportedAlgorithm =>
    str "x509: cannot verify signature: algorithm unimplemented"
  | .build e => buildErrorText e
  | .library s => s

/-- `errors.As` for `*server.Error`. -/
def asServerError : GoError → Option ServerError
  | .server e => some e
  | .wrapped _ err | .parseWrapped _ err | .verificationWrapped _ err
  | .protectionWrapped _ err | .clientWrapped _ err | .unverifiedStatus _ _ _ err
  | .annotated err _ => err.asServerError
  | _ => none

/-- `errors.As` for `*pkicmp.VerificationError`, as far as its reason is read. -/
def asVerificationError : GoError → Option InvalidReason
  | .verification r | .verificationWrapped r _ => some r
  | .wrapped _ err | .parseWrapped _ err | .protectionWrapped _ err | .clientWrapped _ err
  | .unverifiedStatus _ _ _ err | .annotated err _ => err.asVerificationError
  | _ => none

/-- `errors.As` for `*pkicmp.ParseError`, as far as its detail is read. -/
def asParseError : GoError → Option GoString
  | .parse d | .parseWrapped d _ => some d
  | .wrapped _ err | .verificationWrapped _ err | .protectionWrapped _ err | .clientWrapped _ err
  | .unverifiedStatus _ _ _ err | .annotated err _ => err.asParseError
  | _ => none

/-- `errors.As` for `*pkicmp.PKIStatusError`. -/
def asStatusError : GoError → Option PKIStatusError
  | .pkiStatus e => some e
  | .wrapped _ err | .parseWrapped _ err | .verificationWrapped _ err
  | .protectionWrapped _ err | .clientWrapped _ err | .unverifiedStatus _ _ _ err
  | .annotated err _ => err.asStatusError
  | _ => none

/-- `errors.Is(err, pkicmp.ErrWaiting)`. -/
def isWaiting : GoError → Bool
  | .waiting => true
  | .wrapped _ err | .parseWrapped _ err | .verificationWrapped _ err
  | .protectionWrapped _ err | .clientWrapped _ err | .unverifiedStatus _ _ _ err
  | .annotated err _ => err.isWaiting
  | _ => false

/-- `errors.Is(err, x509.ErrUnsupportedAlgorithm)`. -/
def isUnsupportedAlgorithm : GoError → Bool
  | .x509UnsupportedAlgorithm => true
  | .wrapped _ err | .parseWrapped _ err | .verificationWrapped _ err
  | .protectionWrapped _ err | .clientWrapped _ err | .unverifiedStatus _ _ _ err
  | .annotated err _ => err.isUnsupportedAlgorithm
  | _ => false

end GoError

/-- `rejection`. -/
def rejection (failInfo : PKIFailureInfo) (text : GoString) : GoError :=
  .server ⟨StatusRejection, failInfo, text⟩

/-- `HasFailure`. -/
def hasFailure (err : GoError) (info : PKIFailureInfo) : Bool :=
  match err.asStatusError with
  | some e => e.failInfo &&& info != 0
  | none => false

end PkiCmp
