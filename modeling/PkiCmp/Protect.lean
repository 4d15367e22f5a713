/-
Protection of messages (`pkicmp/protect.go`, `pkicmp/credentials.go`).

Protecting a message sets header fields, encodes header and body, and then
computes a MAC or a signature over the protected part.  The two parts are apart
here: `Credentials.prepare` does all but the computation, and its result says
what is computed (`Seal`) over which octets; `Credentials.protect` is the whole.

* `PKIMessage.marshalForProtection`: header and body elements, the body first;
* `protectWithMACOptions`, `protectWithPBMAC1Options`, `protectWithMACAlgorithm`,
  `protectWithSignature`;
* `Credentials.prepare_ok`: the protected part is the encoding of the message
  that is returned, as `MarshalBinary` would write it.
-/
import PkiCmp.Algorithms

namespace PkiCmp

open Der

/-! ### Limits of the parameters -/

/-- What is used when nothing is configured. -/
def defaultPBMIterationCount : ℤ := 10000
def defaultPBMOWF : OID := oidSHA256
def defaultPBMMAC : OID := oidHMACWithSHA256
/-- What is accepted. -/
def defaultPBMMinIterationCount : ℤ := 1
def defaultPBMMaxIterationCount : ℤ := 500000
def defaultPBKDF2MinKeyLength : ℤ := 16

/-- The bounds are inclusive. -/
def validatePBMIterationCount (n : ℤ) : Except GoError Unit :=
  if n < defaultPBMMinIterationCount then
    .error (.parse (str "PBM iterationCount too small: " ++ decimal n))
  else if defaultPBMMaxIterationCount < n then
    .error (.parse (str "PBM iterationCount too large: " ++ decimal n))
  else .ok ()

/-- From sixteen octets up to the block of the MAC. -/
def validatePBKDF2KeyLength (keyLength : ℤ) (macHash : Hash) : Except GoError Unit :=
  if keyLength < defaultPBKDF2MinKeyLength then
    .error (.parse (str "PBKDF2 keyLength too small: " ++ decimal keyLength ++ str " (minimum " ++
      decimal defaultPBKDF2MinKeyLength ++ str ")"))
  else if (macHash.blockSize : ℤ) < keyLength then
    .error (.parse (str "PBKDF2 keyLength too large: " ++ decimal keyLength ++ str " (maximum " ++
      decimal macHash.blockSize ++ str " for this MAC)"))
  else .ok ()

/-! ### Parameters -/

/-- `pbmParameter`. -/
structure PbmParameter where
  salt : Bytes
  owf : AlgorithmIdentifier
  iterationCount : ℤ
  mac : AlgorithmIdentifier
  deriving DecidableEq, Repr

namespace PbmParameter

/-- The iteration count is checked before the MAC is read. -/
def unmarshal : Reader PbmParameter := do
  let seq ← Reader.element "invalid PBMParameter sequence" tagSequence
  Reader.within seq do
    let salt ← Reader.element "invalid salt" tagOctetString
    let owf ← AlgorithmIdentifier.unmarshal
    let iterationCount ← Reader.read "invalid iterationCount" readASN1Int64
    validatePBMIterationCount iterationCount
    let mac ← AlgorithmIdentifier.unmarshal
    pure { salt, owf, iterationCount, mac }

/-- Salt, one-way function, iteration count and MAC. -/
def marshal (p : PbmParameter) : Except GoError Bytes :=
  addASN1 tagSequence
    (concat [addASN1OctetString p.salt, p.owf.marshal, addASN1Int p.iterationCount, p.mac.marshal])

end PbmParameter

/-- `algorithmIdentifierASN1`, decoded: the identifier and the element of the
parameters, if any. -/
def parseAlgorithmIdentifierASN1 (c : Bytes) : Option (OID × Bytes) := do
  let (oid, rest) ← Asn1.field 6 false c
  let arcs ← Asn1.parseObjectIdentifier oid
  if rest = [] then some (arcs, [])
  else do
    let (t, _) ← Asn1.readTLV rest
    some (arcs, t.full)

/-- `pbkdf2ParamsASN1`. -/
structure Pbkdf2Params where
  salt : Bytes
  iterationCount : ℤ
  keyLength : ℤ
  prf : OID
  deriving DecidableEq, Repr

/-- The decoding of PBKDF2-params; an absent prf is HMAC-SHA-1. -/
def unmarshalPBKDF2Params (der : Bytes) : Option Pbkdf2Params := do
  let (c, _) ← Asn1.field 16 true der
  let (salt, c) ← Asn1.field 4 false c
  let (count, c) ← Asn1.field 2 false c
  let iterationCount ← Asn1.parseInt64 count
  let (keyLen, c) ← Asn1.optField 2 false c
  let keyLength ← match keyLen with
    | some k => Asn1.parseInt64 k
    | none => some 0
  let (prf, _) ← Asn1.optField 16 true c
  let prf ← match prf with
    | some a => (parseAlgorithmIdentifierASN1 a).map Prod.fst
    | none => some oidHMACWithSHA1
  some { salt, iterationCount, keyLength, prf }

/-- `parsePBKDF2Params`: a decoding error is put into the text. -/
def parsePBKDF2Params (der : Bytes) : Except GoError Pbkdf2Params :=
  match unmarshalPBKDF2Params der with
  | some p => .ok p
  | none => .error (.parse (str "invalid PBKDF2-params: " ++ Asn1.error.Error))

/-- The decoding of PBMAC1-params: the key derivation function with its
parameters, and the message authentication scheme. -/
def parsePBMAC1Params (der : Bytes) : Except GoError (OID × Bytes × OID) :=
  let r : Option (OID × Bytes × OID) := do
    let (c, _) ← Asn1.field 16 true der
    let (kdf, c) ← Asn1.field 16 true c
    let (kdfOID, kdfParams) ← parseAlgorithmIdentifierASN1 kdf
    let (mac, _) ← Asn1.field 16 true c
    let (macOID, _) ← parseAlgorithmIdentifierASN1 mac
    some (kdfOID, kdfParams, macOID)
  match r with
  | some r => .ok r
  | none => .error (.parse (str "invalid PBMAC1-params: " ++ Asn1.error.Error))

/-- `marshalPBMAC1Params`; a prf that is the default is left out. -/
def marshalPBMAC1Params (salt : Bytes) (iterCount keyLen : ℤ) (prf mac : OID) :
    Except GoError Bytes :=
  let alg (oid : OID) (params : Except GoError Bytes) :=
    addASN1 tagSequence (concat [addASN1ObjectIdentifier oid, params])
  let pbkdf2 := addASN1 tagSequence (concat [addASN1OctetString salt, addASN1Int iterCount,
    optional (keyLen ≠ 0) (addASN1Int keyLen),
    optional (prf ≠ oidHMACWithSHA1) (alg prf (.ok []))])
  addASN1 tagSequence (concat [alg oidPBKDF2 pbkdf2, alg mac (.ok [])])

/-! ### What is computed over the protected part -/

/-- The key of a Password-Based MAC: the salted secret, hashed as often as the
iteration count says. -/
def derivePBMKey (cr : Crypto) (secret salt : Bytes) (iterationCount : ℤ) (hash macHash : Hash) :
    Except GoError Bytes :=
  if hash.size < macHash.size then
    .error (.text (str "MAC key size (" ++ decimal macHash.size ++
      str ") exceeds OWF output size (" ++ decimal hash.size ++
      str "): key expansion not supported"))
  else .ok ((cr.hash hash)^[(iterationCount - 1).toNat] (cr.hash hash (secret ++ salt)))

/-- A MAC with a derived key, or a signature. -/
inductive Seal where
  | pbm (secret salt : Bytes) (iterationCount : ℤ) (hash macHash : Hash)
  | pbmac1 (secret salt : Bytes) (iterationCount keyLength : ℤ) (prfHash macHash : Hash)
  | signature (key : Signer) (hash : Option Hash)

/-- The protection of the given octets. -/
def Seal.compute (cr : Crypto) (data : Bytes) : Seal → Except GoError Bytes
  | .pbm secret salt n hash macHash => do
      let k ← derivePBMKey cr secret salt n hash macHash
      .ok (cr.hmac macHash k data)
  | .pbmac1 secret salt n len prfHash macHash =>
    .ok (cr.hmac macHash (cr.pbkdf2 prfHash secret salt n len) data)
  | .signature key (some h) => key.sign (cr.hash h data) (some h)
  | .signature key none => key.sign data none

/-! ### Encoding for protection -/

namespace PKIMessage

/-- `marshalForProtection`: the message with its body element, its version and
its header element, each set as far as the encoding got. -/
def marshalForProtection (m : PKIMessage) : PKIMessage × Option GoError :=
  match m.body.marshal with
  | .error e => ({ m with rawBody := [] }, some e)
  | .ok body =>
    let m := { m.updatePVNO with rawBody := body }
    match m.header.marshal with
    | .error e => ({ m with rawHeader := [] }, some e)
    | .ok header => ({ m with rawHeader := header }, none)

/-- Encode header and body: what is left to do is to compute the seal over the
protected part. -/
def sealed (m : PKIMessage) (s : Seal) : PKIMessage × Except GoError (Seal × Bytes) :=
  match m.marshalForProtection with
  | (m, some e) => (m, .error e)
  | (m, none) =>
    match m.protectedPart with
    | .error e => (m, .error e)
    | .ok data => (m, .ok (s, data))

end PKIMessage

/-! ### MAC protection -/

/-- `macOptions`; an absent field takes its default. -/
structure MacOptions where
  secret : Bytes
  algorithm : OID
  iterationCount : ℤ := 0
  owf : Option OID := none
  mac : Option OID := none
  owfParameters : Bytes := []
  macParameters : Bytes := []

/-- The checks of `protectWithMACOptions`, and what they lead to. -/
def MacOptions.resolve (o : MacOptions) (salt : Bytes) :
    Except GoError (AlgorithmIdentifier × Seal) := do
  if o.secret = [] then throw (.protection .missingSharedSecret)
  let iterCount := if o.iterationCount = 0 then defaultPBMIterationCount else o.iterationCount
  let owf := o.owf.getD defaultPBMOWF
  let mac := o.mac.getD defaultPBMMAC
  validatePBMIterationCount iterCount
  let hash ← hashFromOID owf
  let macHash ← hmacHashFromOID mac
  let p : PbmParameter :=
    { salt, iterationCount := iterCount, owf := ⟨owf, o.owfParameters⟩,
      mac := ⟨mac, o.macParameters⟩ }
  let params ← p.marshal
  pure (⟨o.algorithm, params⟩, .pbm o.secret salt iterCount hash macHash)

/-- `pbmac1Options`; an absent field takes its default. -/
structure Pbmac1Options where
  secret : Bytes
  iterationCount : ℤ := 0
  keyLength : ℤ := 0
  prf : Option OID := none
  mac : Option OID := none

/-- The checks of `protectWithPBMAC1Options`, and what they lead to. -/
def Pbmac1Options.resolve (o : Pbmac1Options) (salt : Bytes) :
    Except GoError (AlgorithmIdentifier × Seal) := do
  if o.secret = [] then throw (.protection .missingSharedSecret)
  let iterCount := if o.iterationCount = 0 then defaultPBMIterationCount else o.iterationCount
  let prf := o.prf.getD oidHMACWithSHA256
  let mac := o.mac.getD oidHMACWithSHA256
  validatePBMIterationCount iterCount
  let macHash ← hmacHashFromOID mac
  let prfHash ← hmacHashFromOID prf
  let keyLen := if o.keyLength = 0 then (macHash.size : ℤ) else o.keyLength
  validatePBKDF2KeyLength keyLen macHash
  let params ← marshalPBMAC1Params salt iterCount keyLen prf mac
  pure (⟨oidPBMAC1, params⟩, .pbmac1 o.secret salt iterCount keyLen prfHash macHash)

/-- The parameters of a received message, resolved for a response
(`protectWithMACAlgorithm`). -/
def resolveMACAlgorithm (secret : Bytes) (alg : AlgorithmIdentifier) (salt : Bytes) :
    Except GoError (AlgorithmIdentifier × Seal) :=
  if alg.algorithm = oidPBMAC1 then do
    let (kdf, kdfParams, mac) ← parsePBMAC1Params alg.parameters
    if kdf ≠ oidPBKDF2 then unsupported "unsupported KDF: " kdf
    else do
      let p ← parsePBKDF2Params kdfParams
      let o : Pbmac1Options :=
        { secret, iterationCount := p.iterationCount, keyLength := p.keyLength,
          prf := some p.prf, mac := some mac }
      o.resolve salt
  else if alg.algorithm = oidPasswordBasedMac then do
    let (p, _) ← PbmParameter.unmarshal.run alg.parameters
    let o : MacOptions :=
      { secret, algorithm := alg.algorithm, iterationCount := p.iterationCount,
        owf := some p.owf.algorithm, mac := some p.mac.algorithm,
        owfParameters := p.owf.parameters, macParameters := p.mac.parameters }
    o.resolve salt
  else unsupported "unsupported MAC algorithm: " alg.algorithm

/-! ### Credentials -/

/-- `MACCredentialOption`, the options that carry the parameters of a received
message: those a verification decoded, or the algorithm identifier itself. -/
inductive MACCredentialOption where
  | pbm (iterationCount : ℤ) (owf mac : OID) (owfParameters macParameters : Bytes)
  | pbmac1 (iterationCount keyLength : ℤ) (owf mac : OID)
  | protectionAlgorithm (alg : Option AlgorithmIdentifier)
  deriving DecidableEq, Repr

/-- `macCredentialConfig`. -/
structure MacCredentialConfig where
  algorithm : Option OID := none
  iterationCount : ℤ := 0
  keyLength : ℤ := 0
  owf : Option OID := none
  mac : Option OID := none
  owfParameters : Bytes := []
  macParameters : Bytes := []
  protectionAlg : Option AlgorithmIdentifier := none
  deriving DecidableEq, Repr

/-- An option sets its fields. -/
def MACCredentialOption.apply (c : MacCredentialConfig) : MACCredentialOption → MacCredentialConfig
  | .pbm n owf mac owfParameters macParameters =>
    { c with algorithm := some oidPasswordBasedMac, iterationCount := n, owf := some owf,
             mac := some mac, owfParameters, macParameters }
  | .pbmac1 n keyLength owf mac =>
    { c with algorithm := some oidPBMAC1, iterationCount := n, keyLength, owf := some owf,
             mac := some mac }
  | .protectionAlgorithm (some alg) => { c with protectionAlg := some alg }
  | .protectionAlgorithm none => c

/-- `Credentials`: a shared secret, or a key with its certificate and chain. -/
inductive Credentials where
  | mac (secret : Bytes) (cfg : MacCredentialConfig)
  | signature (key : Signer) (cert : Certificate) (chain : List Certificate)

/-- `NewMACCredentials`. -/
def newMACCredentials (secret : Bytes) (opts : List MACCredentialOption) :
    Except GoError Credentials :=
  if secret = [] then .error (.protection .missingSharedSecret)
  else .ok (.mac secret (opts.foldl MACCredentialOption.apply {}))

/-- `NewSignatureCredentials`; nil arguments are refused. -/
def newSignatureCredentials (cr : Crypto) (key : Option Signer) (cert : Option Certificate)
    (chain : List Certificate) : Except GoError Credentials :=
  match key, cert with
  | none, _ => .error (.protection .missingSigner)
  | some _, none =>
    .error (.protectionWrapped .missingSigner (.text (str "certificate is nil")))
  | some key, some cert =>
    let certPub := match cert.publicKey with
      | some k => some k
      | none => (cr.parsePKIXPublicKey cert.rawSubjectPublicKeyInfo).toOption
    match cr.marshalPKIXPublicKey (some key.pub), cr.marshalPKIXPublicKey certPub with
    | .ok a, .ok b =>
      if a = b then .ok (.signature key cert chain)
      else mismatch
    | _, _ => mismatch
where
  mismatch := .error (.protectionWrapped .missingSigner
    (.text (str "private key does not match certificate public key")))

/-- The parameters a secret protects with. -/
def MacCredentialConfig.resolve (c : MacCredentialConfig) (secret salt : Bytes) :
    Except GoError (AlgorithmIdentifier × Seal) :=
  match c.protectionAlg with
  | some alg => resolveMACAlgorithm secret alg salt
  | none =>
    let alg := c.algorithm.getD oidPBMAC1
    if alg = oidPBMAC1 then
      let o : Pbmac1Options :=
        { secret, iterationCount := c.iterationCount, keyLength := c.keyLength,
          prf := c.owf, mac := c.mac }
      o.resolve salt
    else
      let o : MacOptions :=
        { secret, algorithm := alg, iterationCount := c.iterationCount, owf := c.owf,
          mac := c.mac, owfParameters := c.owfParameters, macParameters := c.macParameters }
      o.resolve salt

/-- `dedupeCertificates`: the first occurrence of each certificate. -/
def dedupeCertificates : List Bytes → List CMPCertificate → List CMPCertificate
  | _, [] => []
  | seen, c :: cs =>
    if c.raw ∈ seen then dedupeCertificates seen cs
    else c :: dedupeCertificates (c.raw :: seen) cs

/-- `Protect` up to the computation: the message as it then is, and what is to
be computed over its protected part. -/
def Credentials.prepare (cr : Crypto) (salt : Bytes) (m : PKIMessage) :
    Credentials → PKIMessage × Except GoError (Seal × Bytes)
  | .mac secret cfg =>
    match cfg.resolve secret salt with
    | .error e => (m, .error e)
    | .ok (alg, s) => { m with header.protectionAlg := some alg }.sealed s
  | .signature key cert chain =>
    match signatureAlgorithmFromKey cr key.pub with
    | .error e => (m, .error (.protectionWrapped .unsupportedAlgorithm e))
    | .ok (oid, hash) =>
      let ordered : List CMPCertificate :=
        { raw := cert.raw } :: chain.map (fun c => { raw := c.raw }) ++ m.extraCerts
      let header : PKIHeader :=
        { m.header with
          protectionAlg := some { algorithm := oid }
          senderKID := if cert.subjectKeyId ≠ [] then cert.subjectKeyId
            else m.header.senderKID }
      { m with header, extraCerts := dedupeCertificates [] ordered }.sealed
        (.signature key hash)

/-! ### What is sealed -/

/-- The message is encoded as this header element and this body element, and
encoding does not change its version any more. -/
structure PKIMessage.EncodesTo (m : PKIMessage) (header body : Bytes) : Prop where
  header : m.header.marshal = .ok header
  body : m.body.marshal = .ok body
  version : m.body.requiredPVNO m.header.pvno = m.header.pvno

/-- Such a message is not changed by encoding it again. -/
lemma PKIMessage.EncodesTo.updatePVNO {m : PKIMessage} {header body : Bytes}
    (h : m.EncodesTo header body) : m.updatePVNO = m := by
  have hv := h.version
  cases m
  simp only [PKIMessage.updatePVNO] at hv ⊢
  rw [hv]

/-- What `sealed` leaves of a message, and the part it hands out. -/
lemma PKIMessage.sealed_ok {m m' : PKIMessage} {s s' : Seal} {data : Bytes}
    (h : m.sealed s = (m', .ok (s', data))) :
    (∃ hd bd, m'.EncodesTo hd bd ∧ data = element tagSequence (hd ++ bd)) ∧
      m'.header.pvno = m.body.requiredPVNO m.header.pvno := by
  unfold sealed marshalForProtection at h
  cases hb : m.body.marshal with
  | error e => simp [hb] at h
  | ok body =>
    simp only [hb] at h
    cases hh : m.updatePVNO.header.marshal with
    | error e => simp [hh] at h
    | ok header =>
      simp only [hh] at h
      split at h
      · simp at h
      · next data' hd =>
        obtain ⟨rfl, -, rfl⟩ : _ ∧ s = s' ∧ data' = data := by simpa using h
        refine ⟨⟨header, body, ⟨hh, hb, ?_⟩, protectedPart_eq_ok hd⟩, rfl⟩
        exact PKIBody.requiredPVNO_idem _ _

/-- `sealed` keeps the body and the protection. -/
lemma PKIMessage.sealed_fst (m : PKIMessage) (s : Seal) :
    (m.sealed s).1.body = m.body ∧ (m.sealed s).1.protection = m.protection := by
  unfold sealed marshalForProtection
  cases m.body.marshal with
  | error e => exact ⟨rfl, rfl⟩
  | ok body =>
    cases hh : m.updatePVNO.header.marshal with
    | error e =>
      simp only [hh]
      exact ⟨rfl, rfl⟩
    | ok header =>
      simp only [hh]
      split <;> exact ⟨rfl, rfl⟩

/-- **What is sealed** is the encoding of the message that comes back. -/
lemma Credentials.prepare_ok {cr : Crypto} {salt : Bytes} {m m' : PKIMessage} {c : Credentials}
    {s : Seal} {data : Bytes} (h : c.prepare cr salt m = (m', .ok (s, data))) :
    (∃ hd bd, m'.EncodesTo hd bd ∧ data = element tagSequence (hd ++ bd)) ∧
      m'.header.pvno = m.body.requiredPVNO m.header.pvno := by
  cases c with
  | mac secret cfg =>
    simp only [prepare] at h
    split at h
    · simp at h
    · obtain ⟨henc, hpvno⟩ := PKIMessage.sealed_ok h
      exact ⟨henc, hpvno⟩
  | signature key cert chain =>
    simp only [prepare] at h
    split at h
    · simp at h
    · obtain ⟨henc, hpvno⟩ := PKIMessage.sealed_ok h
      exact ⟨henc, hpvno⟩

/-- Preparing keeps the body and the protection. -/
lemma Credentials.prepare_fst (cr : Crypto) (salt : Bytes) (m : PKIMessage) (c : Credentials) :
    (c.prepare cr salt m).1.body = m.body ∧ (c.prepare cr salt m).1.protection = m.protection := by
  cases c with
  | mac secret cfg =>
    simp only [prepare]
    split
    · exact ⟨rfl, rfl⟩
    · exact PKIMessage.sealed_fst _ _
  | signature key cert chain =>
    simp only [prepare]
    split
    · exact ⟨rfl, rfl⟩
    · exact PKIMessage.sealed_fst _ _

/-- `m'` is `m` up to the fields that protecting a message sets. -/
def PKIMessage.Protects (m m' : PKIMessage) : Prop :=
  ∃ pvno alg kid p certs rawHeader rawBody, m' =
    { m with header := { m.header with pvno, protectionAlg := alg, senderKID := kid },
             protection := p, extraCerts := certs, rawHeader, rawBody }

lemma PKIMessage.Protects.refl (m : PKIMessage) : m.Protects m := by
  cases m
  exact ⟨_, _, _, _, _, _, _, rfl⟩

lemma PKIMessage.Protects.trans {m m' m'' : PKIMessage} (h : m.Protects m') (h' : m'.Protects m'') :
    m.Protects m'' := by
  obtain ⟨_, _, _, _, _, _, _, rfl⟩ := h
  obtain ⟨_, _, _, _, _, _, _, rfl⟩ := h'
  exact ⟨_, _, _, _, _, _, _, rfl⟩

lemma PKIMessage.sealed_protects (m : PKIMessage) (s : Seal) : m.Protects (m.sealed s).1 := by
  unfold sealed marshalForProtection
  cases m.body.marshal with
  | error e => exact ⟨_, _, _, _, _, _, _, rfl⟩
  | ok body =>
    cases hh : m.updatePVNO.header.marshal with
    | error e =>
      simp only [hh]
      exact ⟨_, _, _, _, _, _, _, rfl⟩
    | ok header =>
      simp only [hh]
      split <;> exact ⟨_, _, _, _, _, _, _, rfl⟩

/-- Preparing sets nothing but what protecting sets. -/
lemma Credentials.prepare_protects (cr : Crypto) (salt : Bytes) (m : PKIMessage) (c : Credentials) :
    m.Protects (c.prepare cr salt m).1 := by
  cases c with
  | mac secret cfg =>
    simp only [prepare]
    split
    · exact .refl m
    · exact .trans ⟨_, _, _, _, _, _, _, rfl⟩ (PKIMessage.sealed_protects _ _)
  | signature key cert chain =>
    simp only [prepare]
    split
    · exact .refl m
    · exact .trans ⟨_, _, _, _, _, _, _, rfl⟩ (PKIMessage.sealed_protects _ _)

/-- The senderKID of a message that had `kid`, once it is protected. -/
def Credentials.senderKID (kid : Bytes) : Credentials → Bytes
  | .mac .. => kid
  | .signature _ cert _ => if cert.subjectKeyId ≠ [] then cert.subjectKeyId else kid

lemma Credentials.senderKID_idem (kid : Bytes) (c : Credentials) :
    c.senderKID (c.senderKID kid) = c.senderKID kid := by
  cases c with
  | mac secret cfg => rfl
  | signature key cert chain =>
    simp only [senderKID]
    split_ifs <;> rfl

lemma PKIMessage.sealed_senderKID (m : PKIMessage) (s : Seal) :
    (m.sealed s).1.header.senderKID = m.header.senderKID := by
  unfold sealed marshalForProtection
  cases m.body.marshal with
  | error e => rfl
  | ok body =>
    cases hh : m.updatePVNO.header.marshal with
    | error e =>
      simp only [hh]
      rfl
    | ok header =>
      simp only [hh]
      split <;> rfl

lemma Credentials.prepare_senderKID {cr : Crypto} {salt : Bytes} {m m' : PKIMessage}
    {c : Credentials} {r : Seal × Bytes} (h : c.prepare cr salt m = (m', .ok r)) :
    m'.header.senderKID = c.senderKID m.header.senderKID := by
  cases c with
  | mac secret cfg =>
    simp only [prepare] at h
    split at h
    · cases h
    · obtain rfl := congrArg Prod.fst h
      exact PKIMessage.sealed_senderKID _ _
  | signature key cert chain =>
    simp only [prepare] at h
    split at h
    · cases h
    · obtain rfl := congrArg Prod.fst h
      exact PKIMessage.sealed_senderKID _ _

end PkiCmp
