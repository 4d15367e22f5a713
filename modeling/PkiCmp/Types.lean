/-
The ASN.1 types shared by CMP messages (`pkicmp/types.go`).

Encoders are functions into `Except GoError Bytes`, decoders are functions on
the rest of the input.  The marshalling context of the source only collects
whether a part needs version 3; the functions `needsPVNO3` compute that.

* `Reader`: a decoder, with `Reader.element`, `Reader.many` and `Reader.within`
  for the idioms of the source;
* `AlgorithmIdentifier`, `InfoTypeAndValue`, `PKIFreeText`, `GeneralName`,
  `CMPCertificate`, `EncryptedKey` with `marshal` and `unmarshal`.
-/
import PkiCmp.Go.X509

namespace PkiCmp

open Der

/-! ### Decoders -/

/-- A decoder: it takes what it reads off the front of the input. -/
abbrev Reader (α : Type) := StateT Bytes (Except GoError) α

/-- A `ParseError` without a cause. -/
def parseError {α : Type} (detail : String) : Except GoError α := .error (.parse (str detail))

namespace Reader

variable {α : Type}

/-- Read with a `cryptobyte` function; its failure is a `ParseError`. -/
def read (detail : String) (f : Bytes → Option (α × Bytes)) : Reader α := fun s =>
  match f s with
  | some r => .ok r
  | none => parseError detail

/-- Read an element with a tag and return its content. -/
def element (detail : String) (tag : UInt8) : Reader Bytes := do
  let e ← read detail (readASN1 tag)
  pure e.content

/-- Read any element and return it. -/
def anyElement (detail : String) : Reader Element := read detail readAnyASN1

/-- The next element has the tag. -/
def peek (tag : UInt8) : Reader Bool := fun s => .ok (peekASN1Tag tag s, s)

/-- Nothing is left. -/
def empty : Reader Bool := fun s => .ok (s.isEmpty, s)

/-- All that is left. -/
def rest : Reader Bytes := fun s => .ok (s, [])

/-- Decode a content; what the decoder leaves of it is ignored. -/
def within (content : Bytes) (r : Reader α) : Reader α := fun s =>
  match r.run content with
  | .ok (a, _) => .ok (a, s)
  | .error e => .error e

/-- The recursion of `many`. -/
def manyAux (r : Reader α) : ℕ → Bytes → Except GoError (List α × Bytes)
  | _, [] => .ok ([], [])
  | 0, _ :: _ => .error (.text (str "input not consumed"))
  | fuel + 1, s => do
      let (a, s) ← r.run s
      let (as, s) ← manyAux r fuel s
      .ok (a :: as, s)

/-- `for !s.Empty()`: read one value after the other to the end of the input.
Every value takes at least one octet. -/
def many (r : Reader α) : Reader (List α) := fun s => manyAux r s.length s

/-! What a decoder that succeeded has read. -/

variable {β : Type}

/-- Two decoders in a row. -/
lemma bind_ok {r : Reader α} {f : α → Reader β} {s s' : Bytes} {b : β} :
    (r >>= f) s = .ok (b, s') ↔ ∃ a s1, r s = .ok (a, s1) ∧ f a s1 = .ok (b, s') := by
  show (r s >>= fun x => f x.1 x.2) = _ ↔ _
  rw [Except.bind_eq_ok]
  simp

lemma read_ok {d : String} {f : Bytes → Option (α × Bytes)} {s : Bytes} {r : α × Bytes} :
    read d f s = .ok r ↔ f s = some r := by
  unfold read
  cases f s <;> simp [parseError]

lemma element_ok {d : String} {tag : UInt8} {s s' c : Bytes}
    (h : element d tag s = .ok (c, s')) : ∃ e, readASN1 tag s = some (e, s') ∧ e.content = c := by
  obtain ⟨e, s1, he, hc⟩ := bind_ok.mp h
  cases hc
  exact ⟨e, read_ok.mp he, rfl⟩

/-- Decoding a content leaves the input where it was. -/
lemma within_ok {content : Bytes} {r : Reader α} {s s' : Bytes} {a : α}
    (h : within content r s = .ok (a, s')) : s' = s ∧ ∃ rest, r content = .ok (a, rest) := by
  unfold within at h
  split at h
  · next b rest hr =>
    cases h
    exact ⟨rfl, rest, hr⟩
  · cases h

/-- Every value of a list was read somewhere. -/
lemma many_mem {r : Reader α} {s s' : Bytes} {as : List α} (h : many r s = .ok (as, s')) {a : α}
    (ha : a ∈ as) : ∃ s1 s2, r s1 = .ok (a, s2) := by
  unfold many at h
  generalize s.length = fuel at h
  induction fuel generalizing s as with
  | zero =>
    cases s <;> cases h
    cases ha
  | succ fuel ih =>
    cases s with
    | nil =>
      cases h
      cases ha
    | cons x s =>
      obtain ⟨⟨a', s1⟩, hr, h⟩ := Except.bind_eq_ok.mp h
      obtain ⟨⟨as', s2⟩, has, h⟩ := Except.bind_eq_ok.mp h
      cases h
      obtain rfl | ha := List.mem_cons.mp ha
      · exact ⟨_, _, hr⟩
      · exact ih ha has

/-- One value was read, and nothing was left after it. -/
lemma many_singleton {r : Reader α} {s s' : Bytes} {a : α} (h : many r s = .ok ([a], s')) :
    r s = .ok (a, []) := by
  unfold many at h
  cases s with
  | nil => cases h
  | cons b s =>
    obtain ⟨⟨x, rest⟩, hr, h⟩ := Except.bind_eq_ok.mp h
    obtain ⟨⟨xs, rest'⟩, hs, h⟩ := Except.bind_eq_ok.mp h
    cases h
    -- a further value would have been returned
    cases rest with
    | nil => exact hr
    | cons c cs =>
      exfalso
      cases hfuel : (List.length s) with
      | zero => rw [hfuel] at hs; cases hs
      | succ fuel =>
        rw [hfuel] at hs
        obtain ⟨⟨y, _⟩, -, hs⟩ := Except.bind_eq_ok.mp hs
        obtain ⟨⟨ys, _⟩, -, hs⟩ := Except.bind_eq_ok.mp hs
        cases hs

end Reader

/-! ### Algorithm identifiers and typed values -/

/-- `AlgorithmIdentifier`. -/
structure AlgorithmIdentifier where
  algorithm : OID
  parameters : Bytes := []
  deriving DecidableEq, Repr

namespace AlgorithmIdentifier

/-- The identifier, then the parameters as they are. -/
def marshalInner (a : AlgorithmIdentifier) : Except GoError Bytes :=
  concat [addASN1ObjectIdentifier a.algorithm, .ok a.parameters]

/-- `marshalInner` in a SEQUENCE. -/
def marshal (a : AlgorithmIdentifier) : Except GoError Bytes :=
  addASN1 tagSequence a.marshalInner

/-- Parameters are the next element, or all that is left when that is none. -/
def unmarshalInner : Reader AlgorithmIdentifier := do
  let oid ← Reader.read "invalid AlgorithmIdentifier OID" readASN1ObjectIdentifier
  if ← Reader.empty then pure ⟨oid, []⟩
  else do
    let s ← get
    match readAnyASN1 s with
    | some (e, rest) =>
      set rest
      pure ⟨oid, e.raw⟩
    | none =>
      set ([] : Bytes)
      pure ⟨oid, s⟩

/-- Data after the parameters is ignored. -/
def unmarshal : Reader AlgorithmIdentifier := do
  let seq ← Reader.element "invalid AlgorithmIdentifier sequence" tagSequence
  Reader.within seq unmarshalInner

end AlgorithmIdentifier

/-- `InfoTypeAndValue`. -/
structure InfoTypeAndValue where
  infoType : OID
  infoValue : Bytes := []
  deriving DecidableEq, Repr

namespace InfoTypeAndValue

/-- The type, then the value as it is. -/
def marshal (itv : InfoTypeAndValue) : Except GoError Bytes :=
  addASN1 tagSequence (concat [addASN1ObjectIdentifier itv.infoType, .ok itv.infoValue])

/-- The value is all that is left. -/
def unmarshal : Reader InfoTypeAndValue := do
  let seq ← Reader.element "invalid InfoTypeAndValue sequence" tagSequence
  Reader.within seq do
    let oid ← Reader.read "invalid InfoTypeAndValue OID" readASN1ObjectIdentifier
    let v ← Reader.rest
    pure ⟨oid, v⟩

end InfoTypeAndValue

/-- `PKIFreeText`. -/
abbrev PKIFreeText := List GoString

namespace PKIFreeText

/-- Empty text is written as nothing. -/
def marshal (ft : PKIFreeText) : Except GoError Bytes :=
  if ft = [] then .ok []
  else addASN1 tagSequence (concat (ft.map fun s => addASN1 tagUTF8String (.ok s)))

/-- The strings up to the end of the SEQUENCE. -/
def unmarshal : Reader PKIFreeText := do
  let seq ← Reader.element "invalid PKIFreeText sequence" tagSequence
  Reader.within seq (Reader.many (Reader.element "invalid PKIFreeText element" tagUTF8String))

end PKIFreeText

/-! ### Names -/

/-- `GeneralName`. -/
structure GeneralName where
  directoryName : RDNSequence := []
  rfc822Name : GoString := []
  raw : Bytes := []
  deriving DecidableEq, Repr

/-- `marshalRDNSequence`: strings become UTF8String, a value that cannot be
encoded is left out. -/
def marshalRDNSequence (rdn : RDNSequence) : Except GoError Bytes :=
  addASN1 tagSequence (concat (rdn.map fun rset =>
    addASN1 tagSet (concat (rset.map fun atv =>
      addASN1 tagSequence (concat [addASN1ObjectIdentifier atv.type,
        match atv.value with
        | .string v => addASN1 tagUTF8String (.ok v)
        | v => .ok ((Asn1.marshal v).getD [])])))))

/-- `parseRDNSequence`. -/
def parseRDNSequence : Reader RDNSequence := do
  let e ← Reader.anyElement "invalid Name element"
  match unmarshalRDNSequence e.raw with
  | some (rdns, _) => pure rdns
  | none => throw Asn1.error

/-- `NewDirectoryName`. -/
def newDirectoryName (name : Name) : GeneralName := { directoryName := name.toFullRDNSequence }

/-- `NewDirectoryNameFromRawDER`; the encoding error is ignored. -/
def newDirectoryNameFromRawDER (rawName : Bytes) : GeneralName :=
  match (addASN1 (contextConstructed 4) (.ok rawName) : Except GoError Bytes) with
  | .ok raw => { raw := raw }
  | .error _ => {}

namespace GeneralName

/-- `raw` goes before `rfc822Name`, and that before `directoryName`. -/
def marshal (gn : GeneralName) : Except GoError Bytes :=
  if gn.raw ≠ [] then .ok gn.raw
  else if gn.rfc822Name ≠ [] then addASN1 (context 1) (.ok gn.rfc822Name)
  else addASN1 (contextConstructed 4) (marshalRDNSequence gn.directoryName)

/-- Names of other kinds are kept in `raw` only. -/
def unmarshal : Reader GeneralName := do
  let e ← Reader.anyElement "missing GeneralName"
  if e.tag = contextConstructed 4 then do
    let rdns ← Reader.within e.content parseRDNSequence
    pure { directoryName := rdns, raw := e.raw }
  else if e.tag = context 1 then pure { rfc822Name := e.content, raw := e.raw }
  else pure { raw := e.raw }

end GeneralName

/-! ### Certificates and encrypted keys -/

/-- `CMPCertificate`. -/
structure CMPCertificate where
  raw : Bytes
  deriving DecidableEq, Repr

/-- The certificate as it is. -/
def CMPCertificate.marshal (c : CMPCertificate) : Except GoError Bytes := .ok c.raw

/-- Any element is a certificate. -/
def CMPCertificate.unmarshal : Reader CMPCertificate := do
  let e ← Reader.anyElement "invalid CMPCertificate element"
  pure ⟨e.raw⟩

/-- `stripSequence`. -/
def stripSequence (der : Bytes) : Except GoError Bytes :=
  match readASN1 tagSequence der with
  | some (e, _) => .ok e.content
  | none => parseError "not a sequence"

/-- `encryptedKey`: the CMS container under [0], or the older one as it is. -/
inductive EncryptedKey where
  | encryptedValue (raw : Bytes)
  | envelopedData (raw : Bytes)
  deriving DecidableEq, Repr

namespace EncryptedKey

/-- The CMS container needs version 3. -/
def needsPVNO3 : EncryptedKey → Bool
  | .envelopedData _ => true
  | .encryptedValue _ => false

/-- The content of the container when it is a SEQUENCE, else all of it. -/
def envelopedInner (raw : Bytes) : Bytes :=
  match stripSequence raw with
  | .ok c => c
  | .error _ => raw

/-- `envelopedData` is under [0], the older container as it is. -/
def marshal : EncryptedKey → Except GoError Bytes
  | .envelopedData raw => addASN1 (contextConstructed 0) (.ok (envelopedInner raw))
  | .encryptedValue raw => .ok raw

/-- The content under [0] is wrapped in a SEQUENCE again. -/
def unmarshal : Reader EncryptedKey := do
  if ← Reader.empty then throw (.parse (str "missing encryptedKey"))
  else if ← Reader.peek (contextConstructed 0) then do
    let sub ← Reader.element "invalid envelopedData tag" (contextConstructed 0)
    pure (.envelopedData (Der.element tagSequence sub))
  else do
    let e ← Reader.anyElement "invalid encryptedValue element"
    pure (.encryptedValue e.raw)

end EncryptedKey

end PkiCmp
