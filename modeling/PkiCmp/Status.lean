/-
Status information (`pkicmp/status.go`): `PKIStatusInfo` and the error body.

* `PKIStatusInfo.asError`: which statuses are errors.  `accepted` and
  `grantedWithMods` are not, wherever they stand;
* `asError_eq_none_iff`: exactly those two.
-/
import PkiCmp.Types

namespace PkiCmp

open Der

/-- `PKIStatusInfo`. -/
structure PKIStatusInfo where
  status : PKIStatus
  statusString : PKIFreeText := []
  failInfo : PKIFailureInfo := 0
  deriving DecidableEq, Repr

/-- `ErrorMsgContent`. -/
structure ErrorMsgContent where
  pkiStatusInfo : PKIStatusInfo
  errorCode : ℤ := 0
  errorDetails : PKIFreeText := []
  deriving DecidableEq, Repr

namespace PKIStatusInfo

/-- `AsError`: nil, `ErrWaiting` or a `*PKIStatusError`. -/
def asError (si : PKIStatusInfo) : Option GoError :=
  if si.status = StatusAccepted ∨ si.status = StatusGrantedWithMods then none
  else if si.status = StatusWaiting then some .waiting
  else some (.pkiStatus ⟨si.status, joinStrings (str "; ") si.statusString, si.failInfo⟩)

/-- A status is no error exactly when it is one of the two successes. -/
lemma asError_eq_none_iff (si : PKIStatusInfo) :
    si.asError = none ↔ si.status = StatusAccepted ∨ si.status = StatusGrantedWithMods := by
  unfold asError
  split_ifs with h1 h2 <;> simp [h1]

/-- The number of trailing zero bits of a nonzero word, with a bound. -/
def trailingZeros : ℕ → ℕ → ℕ
  | 0, _ => 0
  | k + 1, n => if n % 2 = 1 then 0 else 1 + trailingZeros k (n / 2)

/-- The octets of a named bit list: unused bits, then the octets up to the last
bit that is set. -/
def failInfoOctets (f : PKIFailureInfo) : Bytes :=
  let trailing := trailingZeros 32 f.toNat
  UInt8.ofNat (trailing % 8) :: (beOctets 4 f.toNat).take (4 - trailing / 8)

/-- An empty text and no failure bits are left out. -/
def marshal (si : PKIStatusInfo) : Except GoError Bytes :=
  addASN1 tagSequence (concat [addASN1Int si.status,
    optional (si.statusString ≠ []) (PKIFreeText.marshal si.statusString),
    optional (si.failInfo ≠ 0) (addASN1 tagBitString (.ok (failInfoOctets si.failInfo)))])

/-- Up to four octets, left-aligned in a word. -/
def failInfoOf (b : Bytes) : PKIFailureInfo :=
  UInt32.ofNat (beNat ((b ++ [0, 0, 0, 0]).take 4))

/-- Data after the last field is ignored. -/
def unmarshal : Reader PKIStatusInfo := do
  let seq ← Reader.element "invalid PKIStatusInfo sequence" tagSequence
  Reader.within seq do
    let status ← Reader.read "invalid PKIStatus" readASN1Int64
    let text ← if ← Reader.peek tagSequence then PKIFreeText.unmarshal else pure []
    let failInfo ← if ← Reader.peek tagBitString then do
        let bits ← Reader.element "invalid failInfo BIT STRING" tagBitString
        match bits with
        | [] => throw (.parse (str "invalid failInfo unused bits"))
        | _ :: b => pure (failInfoOf b)
      else pure 0
    pure ⟨status, text, failInfo⟩

end PKIStatusInfo

namespace ErrorMsgContent

/-- An error code 0 and empty details are left out. -/
def marshal (e : ErrorMsgContent) : Except GoError Bytes :=
  addASN1 tagSequence (concat [e.pkiStatusInfo.marshal,
    optional (e.errorCode ≠ 0) (addASN1Int e.errorCode),
    optional (e.errorDetails ≠ []) (PKIFreeText.marshal e.errorDetails)])

/-- Data after the last field is ignored. -/
def unmarshal : Reader ErrorMsgContent := do
  let seq ← Reader.element "invalid ErrorMsgContent sequence" tagSequence
  Reader.within seq do
    let si ← PKIStatusInfo.unmarshal
    let code ← if ← Reader.peek tagInteger then Reader.read "invalid errorCode" readASN1Int64
      else pure 0
    let details ← if ← Reader.peek tagSequence then PKIFreeText.unmarshal else pure []
    pure ⟨si, code, details⟩

end ErrorMsgContent

example : PKIStatusInfo.failInfoOctets FailBadPOP = [6, 0, 0x40] := by decide

end PkiCmp
