/-
Go's `crypto/x509/pkix`: distinguished names and certificate extensions.

* `RDNSequence`, `Name`: the two forms of a name;
* `Name.fillFromRDNSequence`, `Name.toRDNSequence`: between them, losing the
  order and the attributes without a typed field;
* `RDNSequence.string`, `Name.string`: the text that names are compared by;
* `parseRDNSequence`, `parseExtensions`: decoding with `encoding/asn1`.
-/
import PkiCmp.Go.Asn1

namespace PkiCmp

open Der

/-- An object identifier. -/
abbrev OID := List ℕ

/-- `pkix.AttributeTypeAndValue`. -/
structure AttributeTypeAndValue where
  type : OID
  value : Asn1.AttrValue
  deriving DecidableEq, Repr

/-- `pkix.RDNSequence`: a sequence of sets of attributes. -/
abbrev RDNSequence := List (List AttributeTypeAndValue)

/-- `pkix.Extension`. -/
structure Extension where
  id : OID
  critical : Bool
  value : Bytes
  deriving DecidableEq, Repr

/-- `pkix.Name`.  A nil `ExtraNames` is not the same as an empty one. -/
structure Name where
  country : List GoString := []
  organization : List GoString := []
  organizationalUnit : List GoString := []
  locality : List GoString := []
  province : List GoString := []
  streetAddress : List GoString := []
  postalCode : List GoString := []
  serialNumber : GoString := []
  commonName : GoString := []
  names : List AttributeTypeAndValue := []
  extraNames : Option (List AttributeTypeAndValue) := none
  deriving DecidableEq, Repr

/-- The attribute numbers under 2.5.4 with a typed field in `pkix.Name`. -/
def typedAttribute (n : ℕ) : Bool :=
  n == 3 || n == 5 || n == 6 || n == 7 || n == 8 || n == 9 || n == 10 || n == 11 || n == 17

/-- An attribute type that `ToRDNSequence` emits from a typed field. -/
def isTypedNameAttribute : OID → Bool
  | [2, 5, 4, n] => typedAttribute n
  | _ => false

namespace Name

/-- One attribute read into the name. -/
def fillAttribute (n : Name) (atv : AttributeTypeAndValue) : Name :=
  let n := { n with names := n.names ++ [atv] }
  match atv.value, atv.type with
  | .string v, [2, 5, 4, t] =>
    if t = 3 then { n with commonName := v }
    else if t = 5 then { n with serialNumber := v }
    else if t = 6 then { n with country := n.country ++ [v] }
    else if t = 7 then { n with locality := n.locality ++ [v] }
    else if t = 8 then { n with province := n.province ++ [v] }
    else if t = 9 then { n with streetAddress := n.streetAddress ++ [v] }
    else if t = 10 then { n with organization := n.organization ++ [v] }
    else if t = 11 then { n with organizationalUnit := n.organizationalUnit ++ [v] }
    else if t = 17 then { n with postalCode := n.postalCode ++ [v] }
    else n
  | _, _ => n

/-- `Name.FillFromRDNSequence` on a zero name. -/
def fillFromRDNSequence (rdns : RDNSequence) : Name :=
  rdns.flatten.foldl fillAttribute {}

/-- `Name.appendRDNs`: one set of all the values of a type, unless there are
none or `ExtraNames` names the type. -/
def appendRDNs (n : Name) (values : List GoString) (t : ℕ) : RDNSequence :=
  if values = [] ∨ ((n.extraNames.getD []).any fun a => a.type == [2, 5, 4, t]) then []
  else [values.map fun v => ⟨[2, 5, 4, t], .string v⟩]

/-- `Name.ToRDNSequence`. -/
def toRDNSequence (n : Name) : RDNSequence :=
  n.appendRDNs n.country 6 ++ n.appendRDNs n.province 8 ++ n.appendRDNs n.locality 7 ++
  n.appendRDNs n.streetAddress 9 ++ n.appendRDNs n.postalCode 17 ++
  n.appendRDNs n.organization 10 ++ n.appendRDNs n.organizationalUnit 11 ++
  (if n.commonName ≠ [] then n.appendRDNs [n.commonName] 3 else []) ++
  (if n.serialNumber ≠ [] then n.appendRDNs [n.serialNumber] 5 else []) ++
  (n.extraNames.getD []).map fun a => [a]

/-- The attributes that only `Names` holds, ahead of the typed ones. -/
def toFullRDNSequence (n : Name) : RDNSequence :=
  (if n.extraNames.isNone then
    (n.names.filter fun a => !isTypedNameAttribute a.type).map fun a => [a]
  else []) ++ n.toRDNSequence

end Name

/-! ### Text form -/

/-- `attributeTypeNames`. -/
def attributeTypeName : OID → Option GoString
  | [2, 5, 4, 6] => some (str "C")
  | [2, 5, 4, 10] => some (str "O")
  | [2, 5, 4, 11] => some (str "OU")
  | [2, 5, 4, 3] => some (str "CN")
  | [2, 5, 4, 5] => some (str "SERIALNUMBER")
  | [2, 5, 4, 7] => some (str "L")
  | [2, 5, 4, 8] => some (str "ST")
  | [2, 5, 4, 9] => some (str "STREET")
  | [2, 5, 4, 17] => some (str "POSTALCODE")
  | _ => none

/-- A value with its special characters escaped. -/
def escapeValue (s : GoString) : GoString :=
  (runes s).flatMap fun (k, c) =>
    let special := c == [44] || c == [43] || c == [34] || c == [92] || c == [60] || c == [62] ||
      c == [59]
    let space := c == [32] && (k == 0 || k + 1 == s.length)
    let hash := c == [35] && k == 0
    if special || space || hash then 92 :: c else c

/-- One attribute in text form: a value that is no string is written in hexadecimal under a type
without a short name. -/
def attributeString (a : AttributeTypeAndValue) : GoString :=
  match attributeTypeName a.type, a.value, Asn1.marshal a.value with
  | some name, _, _ => name ++ str "=" ++ escapeValue (Asn1.sprint a.value)
  | none, .string v, _ => oidString a.type ++ str "=" ++ escapeValue v
  | none, _, some der => oidString a.type ++ str "=#" ++ hexString der
  | none, _, none => oidString a.type ++ str "=" ++ escapeValue (Asn1.sprint a.value)

/-- `RDNSequence.String`: the last set first. -/
def RDNSequence.string (r : RDNSequence) : GoString :=
  joinStrings (str ",") (r.reverse.map fun rdn => joinStrings (str "+") (rdn.map attributeString))

/-- `Name.String`. -/
def Name.string (n : Name) : GoString := RDNSequence.string n.toFullRDNSequence

/-! ### Decoding -/

/-- One attribute of a set; elements after the value are ignored. -/
def parseAttribute (content : Bytes) : Option AttributeTypeAndValue := do
  let (oid, rest) ← Asn1.field 6 false content
  let type ← Asn1.parseObjectIdentifier oid
  let (t, _) ← Asn1.readTLV rest
  let value ← Asn1.parseAny t
  some ⟨type, value⟩

/-- `asn1.Unmarshal` into a `pkix.RDNSequence`, with what follows the element. -/
def unmarshalRDNSequence (der : Bytes) : Option (RDNSequence × Bytes) := do
  let (content, rest) ← Asn1.field 16 true der
  let sets ← Asn1.elementsOf 17 true content.length content
  let rdns ← sets.mapM fun set => do
    let atvs ← Asn1.elementsOf 16 true set.length set
    atvs.mapM parseAttribute
  some (rdns, rest)

/-- One extension; elements after the value are ignored. -/
def parseExtension (content : Bytes) : Option Extension := do
  let (oid, rest) ← Asn1.field 6 false content
  let id ← Asn1.parseObjectIdentifier oid
  let (critical, rest) ← Asn1.optField 1 false rest
  let critical ← match critical with
    | some c => Asn1.parseBool c
    | none => some false
  let (value, _) ← Asn1.field 4 false rest
  some ⟨id, critical, value⟩

/-- `asn1.Unmarshal` into a `[]pkix.Extension`, with what follows the element. -/
def unmarshalExtensions (der : Bytes) : Option (List Extension × Bytes) := do
  let (content, rest) ← Asn1.field 16 true der
  let exts ← Asn1.elementsOf 16 true content.length content
  let exts ← exts.mapM parseExtension
  some (exts, rest)

-- SEQUENCE { SET { SEQUENCE { 2.5.4.3, UTF8String "A" } } }
example : unmarshalRDNSequence [0x30, 12, 0x31, 10, 0x30, 8, 6, 3, 0x55, 4, 3, 12, 1, 65] =
    some ([[⟨[2, 5, 4, 3], .string [65]⟩]], []) := by decide

end PkiCmp
