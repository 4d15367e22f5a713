/-
Certificates, keys and signatures as the CMP code sees them.

`crypto/x509`, the hash functions and the composite ML-DSA library are outside
the model: what they compute is the record `Crypto`, over which every result
quantifies.  The certificate fields are those some modelled function reads.
-/
import PkiCmp.Go.Pkix

namespace PkiCmp

open Der

/-- `crypto.Hash`, the functions the code knows by an identifier; all of them
are linked in, so `Available` holds. -/
inductive Hash where
  | sha1 | sha224 | sha256 | sha384 | sha512
  deriving DecidableEq, Repr

/-- `crypto.Hash.Size`. -/
def Hash.size : Hash → ℕ
  | .sha1 => 20 | .sha224 => 28 | .sha256 => 32 | .sha384 => 48 | .sha512 => 64

/-- `hash.Hash.BlockSize`. -/
def Hash.blockSize : Hash → ℕ
  | .sha1 | .sha224 | .sha256 => 64
  | .sha384 | .sha512 => 128

/-- `x509.SignatureAlgorithm`. -/
inductive SignatureAlgorithm where
  | unknown
  | sha1WithRSA | dsaWithSHA1 | ecdsaWithSHA1
  | sha256WithRSA | sha384WithRSA | sha512WithRSA
  | sha256WithRSAPSS | sha384WithRSAPSS | sha512WithRSAPSS
  | ecdsaWithSHA256 | ecdsaWithSHA384 | ecdsaWithSHA512
  | pureEd25519
  | mldsa44 | mldsa65 | mldsa87
  deriving DecidableEq, Repr

/-- The type of a public key, with the parameter that selects a signature
algorithm. -/
inductive KeyType where
  | rsa (bitLen : ℕ)
  | ecdsa (bitSize : ℕ)
  | ed25519
  | mldsa (parameters : ℕ)
  | compositeMLDSA (algorithm : ℕ)
  | x25519
  /-- DSA, the one type whose keys have no method to compare them -/
  | other
  deriving DecidableEq, Repr

/-- `crypto.PublicKey`. -/
structure PublicKey where
  type : KeyType
  value : Bytes
  deriving DecidableEq, Repr

/-- The algorithm of a composite key. -/
def PublicKey.composite? (k : PublicKey) : Option ℕ :=
  match k.type with
  | .compositeMLDSA a => some a
  | _ => none

/-- `x509.Certificate`. -/
structure Certificate where
  raw : Bytes
  rawSubject : Bytes := []
  rawIssuer : Bytes := []
  rawSubjectPublicKeyInfo : Bytes := []
  subject : Name := {}
  publicKey : Option PublicKey := none
  subjectKeyId : Bytes := []
  signatureAlgorithm : SignatureAlgorithm := .unknown
  serialNumber : Option ℤ := none
  notBefore : Time := 0
  notAfter : Time := 0
  extensions : List Extension := []
  keyUsageDigitalSignature : Bool := false
  deriving DecidableEq, Repr

/-- `x509.CertificateRequest`. -/
structure CertificateRequest where
  raw : Bytes
  rawSubjectPublicKeyInfo : Bytes := []
  subject : Name := {}
  extensions : List Extension := []
  deriving DecidableEq, Repr

/-- `crypto.Signer`: a signature is a function of what is signed. -/
structure Signer where
  pub : PublicKey
  sign : Bytes → Option Hash → Except GoError Bytes

/-- The libraries outside the model. -/
structure Crypto where
  /-- a hash function -/
  hash : Hash → Bytes → Bytes
  /-- `hmac.New(h, key)` over the data -/
  hmac : Hash → Bytes → Bytes → Bytes
  /-- `pbkdf2.Key` with secret, salt, iteration count and key length -/
  pbkdf2 : Hash → Bytes → Bytes → ℤ → ℤ → Bytes
  /-- `x509.ParseCertificate` -/
  parseCertificate : Bytes → Except GoError Certificate
  /-- `x509.ParseCertificateRequest` -/
  parseCertificateRequest : Bytes → Except GoError CertificateRequest
  /-- `compositex509.ParsePKIXPublicKey` -/
  parsePKIXPublicKey : Bytes → Except GoError PublicKey
  /-- `compositex509.MarshalPKIXPublicKey`, which also meets nil keys -/
  marshalPKIXPublicKey : Option PublicKey → Except GoError Bytes
  /-- `x509.Certificate.CheckSignature` under the certificate's key -/
  checkSignature : Option PublicKey → SignatureAlgorithm → Bytes → Bytes → Except GoError Unit
  /-- `compositemldsa.Verify` -/
  compositeVerify : PublicKey → Bytes → Bytes → Except GoError Unit
  /-- `compositemldsa.AlgorithmFromOID` -/
  compositeFromOID : OID → Option ℕ
  /-- `compositemldsa.Algorithm.OID` -/
  compositeOID : ℕ → OID
  /-- `compositemldsa.Algorithm.PreHash` -/
  compositePreHash : ℕ → Hash
  /-- `compositex509.SignatureAlgorithm` of a certificate's DER, when it is one
  of the composite algorithms -/
  compositeSignatureAlgorithm : Bytes → Option ℕ
  /-- `compositex509.CheckSignatureFrom` of a child and a parent -/
  checkSignatureFrom : Certificate → Certificate → Except GoError Unit
  /-- `compositex509.CheckCertificateRequestSignature` -/
  checkCertificateRequestSignature : CertificateRequest → Except GoError Unit
  /-- `certpath.Verify` of a certificate against a pool, candidates and a time -/
  verifyPath : Certificate → List Certificate → List Certificate → Time → Except GoError Unit

/-- The random value of concrete runs has the length of all random values. -/
lemma length_zeros : (List.replicate 16 (0 : UInt8)).length = 16 := rfl

/-- Libraries for concrete runs: digests, MACs and signatures are the octets they
are computed from, and so are certificates and keys. -/
def Crypto.sample : Crypto where
  hash _ b := b
  hmac _ key b := key ++ b
  pbkdf2 _ secret salt _ _ := secret ++ salt
  parseCertificate b := .ok { raw := b }
  parseCertificateRequest b := .ok { raw := b, rawSubjectPublicKeyInfo := b }
  parsePKIXPublicKey b := .ok ⟨.ed25519, b⟩
  marshalPKIXPublicKey
    | some k => .ok k.value
    | none => .error (.library (str "x509: unsupported public key type"))
  checkSignature _ _ signed signature :=
    if signature = signed then .ok () else .error (.library (str "x509: invalid signature"))
  compositeVerify _ _ _ := .error (.library (str "invalid signature"))
  compositeFromOID _ := none
  compositeOID _ := []
  compositePreHash _ := .sha256
  compositeSignatureAlgorithm _ := none
  checkSignatureFrom _ _ := .ok ()
  checkCertificateRequestSignature _ := .ok ()
  verifyPath _ _ _ _ := .ok ()

end PkiCmp
