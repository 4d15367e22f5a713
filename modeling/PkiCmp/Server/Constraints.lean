/-
Basic constraints in requests (`server/certrequest.go`, `server/lwpolicy.go`).

The value of the extension is decoded into a structure with two optional fields.  The decoder goes
no further than these, and the extension travels on as it came.

* `BasicConstraints.Encodes`: the values that hold the two fields and nothing else;
* `BasicConstraints.unread`: what the decoder leaves in the SEQUENCE;
* `grammatical_iff`: a value that was decoded holds nothing else exactly when nothing is unread;
* `constraints_iff`: **no undecoded value reaches the CA** exactly when nothing is unread, behind
  any wrappers, and behind `LightweightPolicy` it asks for no CA certificate.
-/
import PkiCmp.Codec.Fields
import PkiCmp.Server.Possession

namespace PkiCmp

open Der Interact

namespace BasicConstraints

/-! ### The grammar -/

/-- The content of a BOOLEAN. -/
def boolOctets (b : Bool) : Bytes := if b then [0xff] else [0x00]

/-- The content of the SEQUENCE: cA and pathLenConstraint, where they are present. -/
def fieldOctets (cA : Option Bool) (pathLen : Option Bytes) : Bytes :=
  (cA.map fun b => element tagBoolean (boolOctets b)).getD [] ++
    (pathLen.map (element tagInteger)).getD []

/-- The value is one SEQUENCE with the fields and nothing else; `pathLen` is the content of an
INTEGER. -/
def Encodes (cA : Option Bool) (pathLen : Option Bytes) (der : Bytes) : Prop :=
  (∀ c ∈ pathLen, checkASN1Integer c = true) ∧ der = element tagSequence (fieldOctets cA pathLen)

/-- The value is a BasicConstraints value. -/
def Grammatical (der : Bytes) : Prop := ∃ cA pathLen, Encodes cA pathLen der

/-- The value asks for no CA certificate, and for no path length but 0. -/
def EndEntity (der : Bytes) : Prop :=
  ∃ cA pathLen, Encodes cA pathLen der ∧ cA ≠ some true ∧ ∀ c ∈ pathLen, intValue c = 0

/-- What is left in the SEQUENCE after the two fields. -/
def unread (der : Bytes) : Bytes :=
  (do let (c, _) ← Asn1.field 16 true der
      let (_, c) ← Asn1.optField 1 false c
      let (_, c) ← Asn1.optField 2 false c
      some c).getD []

lemma parseBool_eq_some_iff {c : Bytes} {b : Bool} :
    Asn1.parseBool c = some b ↔ c = boolOctets b := by
  constructor
  · intro h
    unfold Asn1.parseBool at h
    split at h <;> cases h <;> rfl
  · rintro rfl
    cases b <;> rfl

/-- The decoding, one field after the other. -/
lemma unmarshal_eq (der : Bytes) :
    unmarshalBasicConstraints der = (Asn1.field 16 true der).bind fun s =>
      (Asn1.optField 1 false s.1).bind fun ca =>
        (ca.1.elim (some false) Asn1.parseBool).bind fun isCA =>
          (Asn1.optField 2 false ca.2).bind fun len =>
            (len.1.elim (some 0) Asn1.parseInt64).bind fun n => some (⟨isCA, n⟩, s.2) := by
  unfold unmarshalBasicConstraints
  refine congrArg (Option.bind _) (funext fun s => ?_)
  obtain ⟨c, rest⟩ := s
  refine congrArg (Option.bind _) (funext fun ca => ?_)
  obtain ⟨ca, c1⟩ := ca
  cases ca with
  | none =>
    refine congrArg (Option.bind (Asn1.optField 2 false c1)) (funext fun len => ?_)
    obtain ⟨len, c2⟩ := len
    cases len <;> rfl
  | some b =>
    refine congrArg (Option.bind _) (funext fun isCA => ?_)
    refine congrArg (Option.bind _) (funext fun len => ?_)
    obtain ⟨len, c2⟩ := len
    cases len <;> rfl

/-- **What was decoded**: the fields, and what is left unread. -/
lemma unmarshal_eq_some {der rest : Bytes} {bc : BasicConstraints}
    (h : unmarshalBasicConstraints der = some (bc, rest)) :
    ∃ cA pathLen, (∀ c ∈ pathLen, checkASN1Integer c = true) ∧
      der = element tagSequence (fieldOctets cA pathLen ++ unread der) ++ rest ∧
      (fieldOctets cA pathLen ++ unread der).length < 2 ^ 31 ∧
      bc.isCA = cA.getD false ∧ bc.maxPathLen = (pathLen.map intValue).getD 0 := by
  rw [unmarshal_eq] at h
  obtain ⟨⟨c, rest'⟩, hseq, h⟩ := Option.bind_eq_some_iff.mp h
  obtain ⟨⟨ca, c1⟩, hca, h⟩ := Option.bind_eq_some_iff.mp h
  obtain ⟨isCA, hbool, h⟩ := Option.bind_eq_some_iff.mp h
  obtain ⟨⟨len, c2⟩, hlen, h⟩ := Option.bind_eq_some_iff.mp h
  obtain ⟨maxPathLen, hint, h⟩ := Option.bind_eq_some_iff.mp h
  cases h
  have hunread : unread der = c2 := by
    simp only [unread, hseq, hca, hlen, Option.bind_eq_bind, Option.bind_some, Option.getD_some]
  obtain ⟨hfit, rfl⟩ := (Asn1.field_eq_some_iff (u := tagSequence) (by decide)).mp hseq
  obtain ⟨-, rfl⟩ := Asn1.optField_eq_some (u := tagBoolean) (by decide) hca
  obtain ⟨-, rfl⟩ := Asn1.optField_eq_some (u := tagInteger) (by decide) hlen
  obtain ⟨cA, rfl, rfl⟩ : ∃ cA : Option Bool, ca = cA.map boolOctets ∧ isCA = cA.getD false := by
    cases ca with
    | none =>
      cases hbool
      exact ⟨none, rfl, rfl⟩
    | some b =>
      cases parseBool_eq_some_iff.mp hbool
      exact ⟨some isCA, rfl, rfl⟩
  have hpath : (∀ c ∈ len, checkASN1Integer c = true) ∧ maxPathLen = (len.map intValue).getD 0 := by
    cases len with
    | none =>
      cases hint
      exact ⟨nofun, rfl⟩
    | some b =>
      simp only [Option.elim_some, Asn1.parseInt64] at hint
      split_ifs at hint with hmin
      cases hint
      refine ⟨fun c hc => ?_, rfl⟩
      cases hc
      exact hmin.1
  rw [hunread]
  simp only [Option.map_map] at hfit ⊢
  rw [← List.append_assoc] at hfit ⊢
  exact ⟨cA, len, hpath.1, rfl, hfit, rfl, hpath.2⟩

/-- Nothing is left of a value that holds the two fields and nothing else. -/
lemma unread_of_encodes {cA : Option Bool} {pathLen : Option Bytes}
    (hfit : (fieldOctets cA pathLen).length < 2 ^ 31) :
    unread (element tagSequence (fieldOctets cA pathLen)) = [] := by
  have hseq := Asn1.field_element (t := tagSequence) (n := 16) (b := true) (by decide) [] hfit
  rw [List.append_nil] at hseq
  have hbool : ∀ {b : Bool}, (boolOctets b).length < 2 ^ 31 := by
    intro b
    cases b <;> decide
  have hca : Asn1.optField 1 false (fieldOctets cA pathLen) =
      some (cA.map boolOctets, (pathLen.map (element tagInteger)).getD []) := by
    cases cA with
    | some b => exact Asn1.optField_element (u := tagBoolean) (by decide) _ hbool
    | none =>
      cases pathLen with
      | none => rfl
      | some c =>
        have hc : c.length < 2 ^ 31 := by
          simp only [fieldOctets, Option.map_none, Option.getD_none, List.nil_append,
            Option.map_some, Option.getD_some, length_element] at hfit
          omega
        have hint : Asn1.IsUniversal tagInteger 2 false := by decide
        have hother := Asn1.optField_other (n := 1) (b := false) hint (by decide) [] hc
        rw [List.append_nil] at hother
        exact hother
  have hlen : Asn1.optField 2 false ((pathLen.map (element tagInteger)).getD []) =
      some (pathLen, []) := by
    cases pathLen with
    | none => rfl
    | some c =>
      have hc : c.length < 2 ^ 31 := by
        simp only [fieldOctets, Option.map_some, Option.getD_some, List.length_append,
          length_element] at hfit
        omega
      have helem := Asn1.optField_element (u := tagInteger) (n := 2) (b := false) (by decide) [] hc
      rw [List.append_nil] at helem
      exact helem
  simp only [unread, hseq, hca, hlen, Option.bind_eq_bind, Option.bind_some, Option.getD_some]

section

variable {der : Bytes} {bc : BasicConstraints} (h : unmarshalBasicConstraints der = some (bc, []))

include h

/-- **A value that was decoded** holds the two fields and nothing else exactly when nothing is
left unread. -/
lemma grammatical_iff : Grammatical der ↔ unread der = [] := by
  obtain ⟨cA, pathLen, hmin, hder, hfit, -, -⟩ := unmarshal_eq_some h
  rw [List.append_nil] at hder
  constructor
  · rintro ⟨cA', pathLen', -, hder'⟩
    have hcontent := (element_inj (hder'.symm.trans hder)).2
    rw [hder']
    exact unread_of_encodes (by rw [hcontent]; exact hfit)
  · intro hnil
    rw [hnil, List.append_nil] at hder
    exact ⟨cA, pathLen, hmin, hder⟩

/-- The same for a value that was decoded to one of an end entity. -/
lemma endEntity_iff (hca : bc.isCA = false) (hlen : bc.maxPathLen = 0) :
    EndEntity der ↔ unread der = [] := by
  constructor
  · rintro ⟨cA, pathLen, henc, -, -⟩
    exact (grammatical_iff h).mp ⟨cA, pathLen, henc⟩
  · intro hnil
    obtain ⟨cA, pathLen, hmin, hder, -, hisCA, hmax⟩ := unmarshal_eq_some h
    rw [List.append_nil, hnil, List.append_nil] at hder
    refine ⟨cA, pathLen, ⟨hmin, hder⟩, ?_, fun c hc => ?_⟩
    · rintro rfl
      rw [hca] at hisCA
      cases hisCA
    · cases hc
      exact hmax.symm.trans hlen

end

end BasicConstraints

/-! ### What reaches the CA -/

/-- The values of the BasicConstraints extensions. -/
def constraintValues (exts : List Extension) : List Bytes :=
  (exts.filter fun e => e.id = oidBasicConstraints).map Extension.value

/-- Every value was decoded. -/
lemma decoded_of_decodeBasicConstraints {exts : List Extension} {all : List BasicConstraints}
    (h : decodeBasicConstraints exts = .ok all) :
    ∀ der ∈ constraintValues exts, ∃ bc ∈ all, unmarshalBasicConstraints der = some (bc, []) := by
  intro der hder
  obtain ⟨e, he, rfl⟩ := List.mem_map.mp hder
  obtain ⟨bc, hbc, hread⟩ := Fallible.exists_of_forall₂ (Fallible.mapM_eq_ok_iff.mp h).flip he
  refine ⟨bc, hbc, ?_⟩
  split at hread
  · next heq =>
    cases hread
    exact heq
  · cases hread

/-- Behind the check every one of them is that of an end entity. -/
lemma endEntity_of_checkBasicConstraints {exts : List Extension}
    (h : checkBasicConstraints exts = .ok ()) :
    ∀ der ∈ constraintValues exts, ∃ bc : BasicConstraints,
      unmarshalBasicConstraints der = some (bc, []) ∧ bc.isCA = false ∧ bc.maxPathLen = 0 := by
  obtain ⟨all, hall, h⟩ := Except.bind_eq_ok.mp h
  split_ifs at h with hlen hca
  simp only [List.any_eq_true, Bool.or_eq_true, Bool.and_eq_true, decide_eq_true_eq,
    Bool.not_eq_true', not_exists, not_and, not_or] at hlen hca
  intro der hder
  obtain ⟨bc, hbc, hread⟩ := decoded_of_decodeBasicConstraints hall der hder
  have hfalse : bc.isCA = false := by simpa using hca bc hbc
  exact ⟨bc, hread, hfalse, by simpa using (hlen bc hbc).2 hfalse⟩

/-- The extensions of a template were decoded. -/
lemma decoded_of_requestTemplate {cr : Crypto} {ctx : Ctx} {msg : PKIMessage} {template : Template}
    (h : requestTemplate cr ctx msg = .ok template) :
    ∃ subject publicKey all,
      requestParts cr msg = .ok (subject, publicKey, template.extraExtensions) ∧
      decodeBasicConstraints template.extraExtensions = .ok all := by
  obtain ⟨-, -, h⟩ := Except.bind_eq_ok.mp h
  obtain ⟨⟨subject, publicKey, exts⟩, hparts, h⟩ := Except.bind_eq_ok.mp h
  obtain ⟨all, hall, h⟩ := Except.bind_eq_ok.mp h
  split at h
  · cases h
  · cases h
    exact ⟨subject, publicKey, all, hparts, hall⟩

/-- `LightweightPolicy` checks the extensions that the template is made of. -/
lemma check_of_lightweight {cr : Crypto} {ctx : Ctx} {msg : PKIMessage} {sender : SenderIdentity}
    (ht : isCertRequest msg.body.type) (h : lightweightCheck cr ctx msg sender = .ok ())
    {subject : Name} {publicKey : Option PublicKey} {exts : List Extension}
    (hparts : requestParts cr msg = .ok (subject, publicKey, exts)) :
    checkBasicConstraints exts = .ok () := by
  unfold lightweightCheck at h
  unfold requestParts at hparts
  split_ifs at h with h1 h2 h3 h4 h5
  · rw [h2] at ht
    exact absurd ht (by decide)
  · rw [ht] at h3
    cases h3
  · rw [if_pos h5] at hparts
    unfold validateP10CR at h
    split at h
    · cases h
    · next csr hcsr =>
      rw [hcsr] at hparts
      obtain ⟨-, -, h⟩ := Except.bind_eq_ok.mp h
      split_ifs at h
      simp only at hparts
      split at hparts
      · cases hparts
      · cases hparts
        exact h
  · rw [if_neg h5] at hparts
    obtain ⟨crmf, hcrmf, hparts⟩ := Except.bind_eq_ok.mp hparts
    cases hparts
    obtain ⟨crmf', hcrmf', h⟩ := Except.bind_eq_ok.mp h
    rw [hcrmf] at hcrmf'
    cases hcrmf'
    split_ifs at h
    · obtain ⟨-, -, h⟩ := Except.bind_eq_ok.mp h
      cases h
    · obtain ⟨-, -, h⟩ := Except.bind_eq_ok.mp h
      exact h

section

variable (cr : Crypto) (ca : CAInterfaces) (ws : List Wrapper) {ctx : Ctx} {msg : PKIMessage}
  {sender s : SenderIdentity} {tr : List ServerEvent} {q : ServerProg HandlerResult}
  {reqType : RequestType} {template : Template} {r : HandlerResult}

/-- **No undecoded BasicConstraints reaches the CA**, behind any wrappers, exactly when the decoder
leaves nothing unread. -/
theorem constraints_iff
    (he : ⟨.issueCertificate reqType template s, r⟩ ∈ tr) :
    (Prog.Steps (ws.foldr Wrapper.wrap (caHandler cr ca) ctx msg sender) tr q →
      ((∀ der ∈ constraintValues template.extraExtensions, BasicConstraints.Grammatical der) ↔
        ∀ der ∈ constraintValues template.extraExtensions, BasicConstraints.unread der = [])) ∧
    (Prog.Steps (ws.foldr Wrapper.wrap (lightweightPolicy cr (caHandler cr ca)) ctx msg sender)
      tr q → ((∀ der ∈ constraintValues template.extraExtensions, BasicConstraints.EndEntity der) ↔
        ∀ der ∈ constraintValues template.extraExtensions, BasicConstraints.unread der = [])) := by
  constructor
  · intro hs
    obtain ⟨ctx', msg', sender', mid, p, -, hp, he'⟩ :=
      mem_steps_wrap hs he (by simp [Effect.NotIssuing])
    obtain ⟨-, htemplate, -⟩ := caHandler_only.mem_steps hp he'
    obtain ⟨-, -, all, -, hall⟩ := decoded_of_requestTemplate htemplate
    refine forall₂_congr fun der hder => ?_
    obtain ⟨bc, -, hread⟩ := decoded_of_decodeBasicConstraints hall der hder
    exact BasicConstraints.grammatical_iff hread
  · intro hs
    obtain ⟨ctx', msg', sender', mid, p, -, hp, he'⟩ :=
      mem_steps_wrap hs he (by simp [Effect.NotIssuing])
    unfold lightweightPolicy policy at hp
    split at hp
    · obtain ⟨rfl, -⟩ := Prog.steps_ret_iff.mp hp
      cases he'
    · next hcheck =>
      obtain ⟨ht, htemplate, -⟩ := caHandler_only.mem_steps hp he'
      obtain ⟨subject, publicKey, -, hparts, -⟩ := decoded_of_requestTemplate htemplate
      refine forall₂_congr fun der hder => ?_
      obtain ⟨bc, hread, hca, hlen⟩ :=
        endEntity_of_checkBasicConstraints (check_of_lightweight ht hcheck hparts) der hder
      exact BasicConstraints.endEntity_iff hread hca hlen

end

/-- A request for a key and a name with one BasicConstraints extension. -/
def constrainedRequest (value : Bytes) : Bytes :=
  element tagSequence (element tagInteger [0] ++ element tagSequence
    (element (contextConstructed 5) (element tagSequence (element tagSet (element tagSequence
      (element tagObjectIdentifier [0x55, 0x04, 0x03] ++ element tagUTF8String [97])))) ++
    element (contextConstructed 6) [1] ++
    element (contextConstructed 9) (element tagSequence
      (element tagObjectIdentifier [0x55, 0x1d, 0x13] ++ element tagOctetString value))))

/-- The ir with that request, signed with the key. -/
def constrainedMessage (value : Bytes) : PKIMessage where
  header := { pvno := PVNO2 }
  body := .received BodyTypeIR (element BodyTypeIR (element tagSequence (element tagSequence
    (constrainedRequest value ++ element (contextConstructed 1)
      (element tagSequence (element tagObjectIdentifier (oidOctets oidEd25519)) ++
        element tagBitString (0 :: constrainedRequest value))))))

/-- The event asks for a certificate with this value alone. -/
def asksFor (value : Bytes) (e : ServerEvent) : Bool :=
  match e.op with
  | .issueCertificate _ template _ => constraintValues template.extraExtensions = [value]
  | _ => false

/-- The handler that the requests below are given to. -/
def constrainedHandler (value : Bytes) : ServerProg HandlerResult :=
  lightweightPolicy .sample (caHandler .sample ⟨true, true, true, true⟩) {}
    (constrainedMessage value) {}

/-- The CA is asked for the certificate. -/
lemma exists_steps_of_constrained {v : Bytes}
    (h : (Prog.play (fun o => (exec o (Server.sampleOracle 1) {}).map Prod.fst)
      (constrainedHandler v)).any (fun r => r.1.any (asksFor v)) = true) :
    ∃ tr q reqType template s r, Prog.Steps (constrainedHandler v) tr q ∧
      ⟨.issueCertificate reqType template s, r⟩ ∈ tr ∧
      constraintValues template.extraExtensions = [v] := by
  obtain ⟨⟨tr, a⟩, hrun, hany⟩ := (Option.any_eq_true _ _).mp h
  obtain ⟨⟨o, r⟩, hmem, hasks⟩ := List.any_eq_true.mp hany
  cases o with
  | issueCertificate reqType template s =>
    exact ⟨tr, _, reqType, template, s, r, Prog.steps_of_play hrun, hmem, of_decide_eq_true hasks⟩
  | _ => cases hasks

/-- A value with a cA that is false and a path length of 0 is one of an end entity. -/
theorem constraints_iff_both_fields :
    ∃ tr q reqType template s r,
      Prog.Steps (constrainedHandler [0x30, 0x06, 0x01, 0x01, 0x00, 0x02, 0x01, 0x00]) tr q ∧
      ⟨.issueCertificate reqType template s, r⟩ ∈ tr ∧
      constraintValues template.extraExtensions =
        [[0x30, 0x06, 0x01, 0x01, 0x00, 0x02, 0x01, 0x00]] ∧
      ∀ der ∈ constraintValues template.extraExtensions, BasicConstraints.EndEntity der := by
  obtain ⟨tr, q, reqType, template, s, r, hs, he, hvalues⟩ := exists_steps_of_constrained
    (v := [0x30, 0x06, 0x01, 0x01, 0x00, 0x02, 0x01, 0x00]) (by decide +kernel)
  refine ⟨tr, q, reqType, template, s, r, hs, he, hvalues, ?_⟩
  refine ((constraints_iff .sample ⟨true, true, true, true⟩ [] he).2 hs).mpr ?_
  rw [hvalues]
  decide

/-- **A cA after the path length** is not read by the decoder: the request passes
`LightweightPolicy`, and the CA gets a value that is none of the grammar. -/
theorem constraints_undecoded :
    ∃ tr q reqType template s r,
      Prog.Steps (constrainedHandler [0x30, 0x06, 0x02, 0x01, 0x00, 0x01, 0x01, 0xff]) tr q ∧
      ⟨.issueCertificate reqType template s, r⟩ ∈ tr ∧
      constraintValues template.extraExtensions =
        [[0x30, 0x06, 0x02, 0x01, 0x00, 0x01, 0x01, 0xff]] ∧
      ¬ BasicConstraints.Grammatical [0x30, 0x06, 0x02, 0x01, 0x00, 0x01, 0x01, 0xff] := by
  obtain ⟨tr, q, reqType, template, s, r, hs, he, hvalues⟩ := exists_steps_of_constrained
    (v := [0x30, 0x06, 0x02, 0x01, 0x00, 0x01, 0x01, 0xff]) (by decide +kernel)
  have hread : unmarshalBasicConstraints [0x30, 0x06, 0x02, 0x01, 0x00, 0x01, 0x01, 0xff] =
      some (⟨false, 0⟩, []) := by decide
  refine ⟨tr, q, reqType, template, s, r, hs, he, hvalues, ?_⟩
  rw [BasicConstraints.grammatical_iff hread]
  decide

end PkiCmp
