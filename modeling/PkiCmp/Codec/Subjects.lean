/-
Names with any attributes, through a template and back.

* `Asn1.AttrValue.Exact`: the values that an encoding keeps: times in whole seconds, and bit
  strings with as many octets as their length says;
* `unmarshalRDNSequence_iff`: a name that is read back is the same exactly when its values are
  exact;
* `GeneralName.attributes`: the attributes that a name stands for;
* `subject_kept_iff`: **the subject of a template** is kept exactly when it is given by its decoded
  attributes, and these are exact.
-/
import PkiCmp.Codec.Requests
import PkiCmp.Codec.Times

namespace PkiCmp

open Der

namespace Asn1

/-! ### Lengths and numbers that the decoder refuses -/

lemma parseLength_large {n : ℕ} (h : 2 ^ 31 ≤ n) (h' : n < 2 ^ 32) (bs : Bytes) :
    parseLength 4 0 (beOctets 4 n ++ bs) = none := by
  have h3 : n / 256 ^ 3 % 256 ≠ 0 := by norm_num; omega
  simp only [beOctets, List.cons_append, parseLength, toNat_octet]
  rw [if_neg (by norm_num), if_neg (by omega), if_neg (by norm_num; omega), if_neg (by omega),
    if_neg (by norm_num; omega), if_neg (by omega), if_pos (by norm_num; omega)]

/-- A field that was read has a length below `2 ^ 31`. -/
lemma length_of_field {t : UInt8} {n : ℕ} {b : Bool} {c rest : Bytes} {x : Bytes × Bytes}
    (hc : c.length < 2 ^ 32) (h : field n b (element t c ++ rest) = some x)
    (ht : isHighTag t = false) : c.length < 2 ^ 31 := by
  by_contra hlong
  have hlow : ¬ (t &&& 0x1f).toNat = 0x1f := by
    intro h
    rw [isHighTag, beq_eq_false_iff_ne] at ht
    exact ht (UInt8.toNat_inj.mp h)
  have hoctets : lengthOctets c.length = 0x84 :: beOctets 4 c.length := by
    unfold lengthOctets
    rw [if_neg (by omega), if_neg (by omega), if_neg (by omega), if_neg (by omega)]
  have hnone : parseTagAndLength (element t c ++ rest) = none := by
    have hlen := parseLength_large (not_lt.mp hlong) hc (c ++ rest)
    simp only [element, hoctets, List.cons_append, List.append_assoc, parseTagAndLength, if_neg
      hlow, Option.bind_eq_bind, Option.bind_some]
    rw [show ((0x84 : UInt8) &&& 0x7f).toNat = 4 from rfl, hlen]
    rfl
  simp [field, readTLV, hnone] at h

/-- The number written by groups of seven bits. -/
def groupsValue (ret : ℕ) (bs : Bytes) : ℕ :=
  bs.foldl (fun acc b => acc * 128 + (b &&& 0x7f).toNat) ret

/-- What is read is what the groups write, and it is below `2 ^ 31`. -/
lemma parseBase128Int_groups {gs : Bytes} (hgs : ∀ b ∈ gs, (b &&& 0x80 == 0) = false) {l : UInt8}
    (hl : (l &&& 0x80 == 0) = true) {shifted ret v : ℕ} {bs rest : Bytes}
    (h : parseBase128Int shifted ret (gs ++ l :: bs) = some (v, rest)) :
    v = groupsValue ret (gs ++ [l]) ∧ v < 2 ^ 31 := by
  induction gs generalizing shifted ret with
  | nil =>
    simp only [List.nil_append, parseBase128Int, hl, if_true] at h
    split_ifs at h with h1 h2
    cases h
    exact ⟨rfl, by omega⟩
  | cons g gs ih =>
    rw [List.cons_append, parseBase128Int] at h
    split_ifs at h with h1 h2
    · rw [hgs g List.mem_cons_self] at h2
      cases h2
    · exact ih (fun b hb => hgs b (List.mem_cons_of_mem _ hb)) h

lemma groupsValue_base128High (k : ℕ) {m : ℕ} (h : m ≤ k) :
    groupsValue 0 (base128High k m) = m := by
  induction k generalizing m with
  | zero =>
    obtain rfl : m = 0 := by omega
    rfl
  | succ k ih =>
    rw [base128High]
    split_ifs with hm
    · exact hm.symm
    · obtain ⟨hv, -⟩ := groupOctets (m % 128) (Nat.mod_lt _ (by norm_num))
      have hrec := ih (m := m / 128) (by omega)
      rw [groupsValue] at hrec
      rw [groupsValue, List.foldl_append, hrec, List.foldl_cons, List.foldl_nil, hv]
      omega

lemma base128High_marked (k m : ℕ) : ∀ b ∈ base128High k m, (b &&& 0x80 == 0) = false := by
  induction k generalizing m with
  | zero => exact List.forall_mem_nil _
  | succ k ih =>
    rw [base128High]
    split_ifs with hm
    · exact List.forall_mem_nil _
    · intro b hb
      rcases List.mem_append.mp hb with hb | hb
      · exact ih _ b hb
      · rw [List.mem_singleton.mp hb]
        exact (groupOctets (m % 128) (Nat.mod_lt _ (by norm_num))).2.1

/-- A number that was read is small. -/
lemma lt_of_parseBase128Int {n : ℕ} {bs : Bytes} {x : ℕ × Bytes}
    (h : parseBase128Int 0 0 (base128 n ++ bs) = some x) : n < 2 ^ 31 := by
  obtain ⟨v, rest⟩ := x
  obtain ⟨-, -, -, hval, hlast, -⟩ := groupOctets (n % 128) (Nat.mod_lt _ (by norm_num))
  rw [base128, List.append_assoc, List.singleton_append] at h
  obtain ⟨hv, hlt⟩ := parseBase128Int_groups (base128High_marked _ _) hlast h
  have hhigh := groupsValue_base128High n (m := n / 128) (by omega)
  rw [groupsValue] at hhigh
  rw [groupsValue, List.foldl_append, hhigh, List.foldl_cons, List.foldl_nil, hval] at hv
  omega

/-- An identifier that was read is small. -/
lemma small_of_parseArcs {arcs : List ℕ} {fuel : ℕ} {l : List ℕ}
    (h : parseArcs fuel (arcs.flatMap base128) = some l) : ∀ n ∈ arcs, n < 2 ^ 31 := by
  induction arcs generalizing fuel l with
  | nil => exact List.forall_mem_nil _
  | cons n arcs ih =>
    rw [List.flatMap_cons] at h
    have hne : base128 n ++ arcs.flatMap base128 ≠ [] := by simp [base128_ne_nil]
    cases fuel with
    | zero =>
      obtain ⟨x, s, hs⟩ := List.exists_cons_of_ne_nil hne
      rw [hs] at h
      cases h
    | succ fuel =>
      rw [parseArcs] at h
      swap
      · exact hne
      obtain ⟨⟨v, rest⟩, hv, h⟩ := Option.bind_eq_some_iff.mp h
      obtain ⟨vs, hvs, -⟩ := Option.bind_eq_some_iff.mp h
      have hn := lt_of_parseBase128Int hv
      rw [parseBase128Int_base128 hn] at hv
      cases hv
      exact List.forall_mem_cons.mpr ⟨hn, ih hvs⟩

lemma eq_of_parseObjectIdentifier {oid oid' : OID} (hvalid : validOID oid = true)
    (h : parseObjectIdentifier (oidOctets oid) = some oid') : oid' = oid := by
  match oid with
  | [] => cases hvalid
  | [_] => cases hvalid
  | a :: b :: arcs =>
    obtain ⟨⟨v, rest⟩, hv, hrest⟩ := Option.bind_eq_some_iff.mp h
    obtain ⟨l, hl, -⟩ := Option.bind_eq_some_iff.mp hrest
    have hfirst := lt_of_parseBase128Int hv
    rw [oidOctets, parseBase128Int_base128 hfirst] at hv
    cases hv
    have hsmall : smallOID (a :: b :: arcs) = true := by
      simp only [smallOID, hvalid, Bool.true_and, Bool.and_eq_true, decide_eq_true_eq,
        List.all_eq_true]
      exact ⟨hfirst, small_of_parseArcs hl⟩
    exact Option.some.inj (h.symm.trans (parseObjectIdentifier_oidOctets hsmall))

/-! ### Times -/

/-- An instant in whole seconds. -/
def wholeSeconds (t : Time) : Time := t.seconds * Time.second

lemma wholeSeconds_eq_iff {t : Time} : wholeSeconds t = t ↔ t % Time.second = 0 := by
  rw [wholeSeconds, Time.seconds]
  have h := Int.ediv_mul_add_emod t Time.second
  constructor
  · intro heq
    linarith
  · intro hzero
    linarith

lemma seconds_wholeSeconds (t : Time) : (wholeSeconds t).seconds = t.seconds :=
  Int.mul_ediv_cancel _ (by decide)

lemma format_wholeSeconds (t : Time) : (wholeSeconds t).format = t.format := by
  rw [Time.format, Time.format, seconds_wholeSeconds]

/-- The fraction of a second is not written. -/
lemma parse_format_wholeSeconds {t : Time} (h0 : 0 ≤ t.year) (h1 : t.year ≤ 9999) :
    Time.parse t.format = some (wholeSeconds t) := by
  have hyear : (wholeSeconds t).year = t.year := by
    rw [Time.year, Time.year, seconds_wholeSeconds]
  rw [← format_wholeSeconds]
  exact Time.parse_format (Int.mul_emod_left _ _) (by rwa [hyear]) (by rwa [hyear])

/-- The digits of the year, and what follows them. -/
lemma format_eq (t : Time) : ∃ m d hh mm ss : ℤ, t.format = Time.digits 4 t.year ++
    (Time.digits 2 m ++ Time.digits 2 d ++ Time.digits 2 hh ++ Time.digits 2 mm) ++
      Time.digits 2 ss ++ [90] := by
  obtain ⟨y, m, d, hciv, -⟩ := Time.civil_spec (t.seconds / 86400 + Time.epochShift)
  refine ⟨m, d, t.seconds % 86400 / 3600, t.seconds % 86400 / 60 % 60, t.seconds % 86400 % 60, ?_⟩
  simp only [Time.format, Time.year, hciv, List.append_assoc]

lemma parseGeneralizedTime_format {t : Time} (h0 : 0 ≤ t.year) (h1 : t.year ≤ 9999) :
    parseGeneralizedTime t.format = some (wholeSeconds t) := by
  have hdrop : t.format.drop 14 = [90] := by
    obtain ⟨m, d, hh, mm, ss, heq⟩ := format_eq t
    rw [heq]
    rfl
  rw [parseGeneralizedTime, hdrop]
  exact parse_format_wholeSeconds h0 h1

/-- Without a zone there is no time. -/
lemma parse_eq_none {bs : Bytes} (h : Time.zone (bs.drop 14) = none) : Time.parse bs = none := by
  simp [Time.parse, h]

lemma zone_seconds (a b : UInt8) : Time.zone [a, b, 90] = none := by
  simp [Time.zone]

/-- A decimal digit. -/
def digit (n : ℤ) : UInt8 := UInt8.ofNat (48 + (n % 10).toNat)

lemma digits_four (y : ℤ) :
    Time.digits 4 y = [digit (y / 10 / 10 / 10), digit (y / 10 / 10), digit (y / 10), digit y] :=
  rfl

/-- The two octets of the century, and whether the third one says it. -/
lemma century_digits {y : ℤ} (h0 : 1950 ≤ y) (h1 : y < 2050) :
    (if 53 ≤ digit (y / 10) then [49, 57] else [50, 48]) =
      [digit (y / 10 / 10 / 10), digit (y / 10 / 10)] := by
  have htens : ∀ k : ℕ, k < 10 → (53 ≤ UInt8.ofNat (48 + k) ↔ 5 ≤ k) := by decide
  have hdigit := htens (y / 10 % 10).toNat (by omega)
  rw [← digit] at hdigit
  rcases lt_or_ge y 2000 with hy | hy
  · rw [if_pos (hdigit.mpr (by omega)), digit, digit, show y / 10 / 10 / 10 % 10 = 1 by omega,
      show y / 10 / 10 % 10 = 9 by omega]
    rfl
  · rw [if_neg (mt hdigit.mp (by omega)), digit, digit, show y / 10 / 10 / 10 % 10 = 2 by omega,
      show y / 10 / 10 % 10 = 0 by omega]
    rfl

lemma parseUTCTime_format {t : Time} (h0 : 1950 ≤ t.year) (h1 : t.year < 2050) :
    parseUTCTime (t.format.drop 2) = some (wholeSeconds t) := by
  have hparse := parse_format_wholeSeconds (t := t) (by omega) (by omega)
  obtain ⟨m, d, hh, mm, ss, heq⟩ := format_eq t
  rw [heq, digits_four] at hparse ⊢
  have hcentury := century_digits h0 h1
  obtain ⟨c, hc⟩ : ∃ c, c = [digit (t.year / 10), digit t.year] ++
    (Time.digits 2 m ++ Time.digits 2 d ++ Time.digits 2 hh ++ Time.digits 2 mm) ++
      Time.digits 2 ss ++ [90] := ⟨_, rfl⟩
  -- the layout without seconds takes the seconds for a zone
  have hshort :
      Time.parse ([digit (t.year / 10 / 10 / 10), digit (t.year / 10 / 10)] ++ c.take 10 ++
      [48, 48] ++ c.drop 10) = none := by
    rw [hc]
    exact parse_eq_none (zone_seconds (digit (ss / 10)) (digit ss))
  have hhead : c.headD 0 = digit (t.year / 10) := by
    rw [hc]
    rfl
  have hlong : Time.parse ([digit (t.year / 10 / 10 / 10), digit (t.year / 10 / 10)] ++ c) =
      some (wholeSeconds t) := by
    rw [hc]
    exact hparse
  have hdrop : ∀ (x y z w : UInt8) (l l' l'' : Bytes), ([x, y, z, w] ++ l ++ l' ++ l'').drop 2 =
      [z, w] ++ l ++ l' ++ l'' := fun _ _ _ _ _ _ _ => rfl
  rw [hdrop, ← hc]
  simp only [parseUTCTime, hhead, hcentury, hshort, hlong]

/-! ### Values -/

/-- What is written for the value of an attribute. -/
def valueOctets : AttrValue → Bytes
  | .string s => element tagUTF8String s
  | v => (marshal v).getD []

/-- The encoding keeps the value. -/
def AttrValue.Exact : AttrValue → Prop
  | .bitString b n => n = b.length * 8 - (8 - n % 8) % 8
  | .time t => t % Time.second = 0
  | _ => True

/-- A value with a primitive universal tag is read off its element. -/
lemma read_element {u : UInt8} {n : ℕ} (htag : IsUniversal u n false) {c : Bytes} {t : TLV}
    {rest : Bytes} (hlen : (element u c).length < 2 ^ 31)
    (h : readTLV (element u c) = some (t, rest)) : t = ⟨0, false, n, element u c, c⟩ := by
  obtain ⟨hhigh, hcls, rfl, hprim⟩ := htag
  rw [length_element] at hlen
  have hread := readTLV_element [] hhigh (c := c) (by omega)
  rw [List.append_nil, h, hcls, hprim] at hread
  cases hread
  rfl

/-- **A value that is read back** is the same exactly when the encoding keeps it. -/
lemma parseAny_valueOctets {v v' : AttrValue} {t : TLV} {rest : Bytes}
    (hlen : (valueOctets v).length < 2 ^ 31) (hread : readTLV (valueOctets v) = some (t, rest))
    (hany : parseAny t = some v') : v' = v ↔ v.Exact := by
  cases v with
  | string s =>
    obtain rfl := read_element (n := 12) (by decide) hlen hread
    have hs : (parseString 12 s).map _ = some v' := hany
    rw [parseString] at hs
    split_ifs at hs
    · cases hs
      exact iff_of_true rfl trivial
    · cases hs
  | int n =>
    obtain rfl := read_element (u := tagInteger) (n := 2) (by decide) hlen hread
    have hi : (parseInt64 (intOctets n)).map AttrValue.int = some v' := hany
    rw [parseInt64] at hi
    split_ifs at hi
    · cases hi
      exact iff_of_true (congrArg _ (intValue_intOctets n)) trivial
    · cases hi
  | bitString bs n =>
    obtain rfl := read_element (u := tagBitString) (n := 3) (by decide) hlen hread
    have hb : parseBitString (UInt8.ofNat ((8 - n % 8) % 8) :: bs) = some v' := hany
    have hpad : (UInt8.ofNat ((8 - n % 8) % 8)).toNat = (8 - n % 8) % 8 :=
      UInt8.toNat_ofNat_of_lt' (by show _ < 256; omega)
    rw [parseBitString] at hb
    split_ifs at hb
    cases hb
    rw [hpad, AttrValue.Exact, AttrValue.bitString.injEq]
    exact ⟨fun h => h.2.symm, fun h => ⟨rfl, h.symm⟩⟩
  | oid arcs =>
    by_cases hvalid : validOID arcs = true
    · have hoctets : valueOctets (.oid arcs) = element tagObjectIdentifier (oidOctets arcs) := by
        rw [valueOctets, marshal, if_pos hvalid]
        · rfl
        · intro s h
          cases h
      rw [hoctets] at hlen hread
      obtain rfl := read_element (n := 6) (by decide) hlen hread
      have ho : (parseObjectIdentifier (oidOctets arcs)).map AttrValue.oid = some v' := hany
      obtain ⟨arcs', harcs, rfl⟩ := Option.map_eq_some_iff.mp ho
      exact iff_of_true (congrArg _ (eq_of_parseObjectIdentifier hvalid harcs)) trivial
    · have hoctets : valueOctets (.oid arcs) = [] := by
        rw [valueOctets, marshal, if_neg hvalid]
        · rfl
        · intro s h
          cases h
      rw [hoctets] at hread
      cases hread
  | octets bs =>
    obtain rfl := read_element (u := tagOctetString) (n := 4) (by decide) hlen hread
    cases hany
    exact iff_of_true rfl trivial
  | time t =>
    have hwhole : AttrValue.time (wholeSeconds t) = .time t ↔ (AttrValue.time t).Exact := by
      rw [AttrValue.time.injEq, wholeSeconds_eq_iff, AttrValue.Exact]
    have hoctets : valueOctets (.time t) = (marshalTime t).getD [] := rfl
    rw [hoctets, marshalTime] at hlen hread
    split_ifs at hlen hread with hutc hgen
    · obtain rfl := read_element (u := tagUTCTime) (n := 23) (by decide) hlen hread
      have ht : (parseUTCTime (t.format.drop 2)).map AttrValue.time = some v' := hany
      rw [parseUTCTime_format hutc.1 hutc.2] at ht
      cases ht
      exact hwhole
    · obtain rfl := read_element (u := tagGeneralizedTime) (n := 24) (by decide) hlen hread
      have ht : (parseGeneralizedTime t.format).map AttrValue.time = some v' := hany
      rw [parseGeneralizedTime_format hgen.1 hgen.2] at ht
      cases ht
      exact hwhole
    · cases hread
  | null => cases hread

end Asn1

/-! ### Names -/

/-- What is written for an attribute. -/
def attributeContent (a : AttributeTypeAndValue) : Bytes :=
  element tagObjectIdentifier (oidOctets a.type) ++ Asn1.valueOctets a.value

/-- What is written for a set of attributes. -/
def setContent (rdn : List AttributeTypeAndValue) : Bytes :=
  (rdn.map attributeContent).flatMap (element tagSequence)

/-- What is written for a name. -/
def nameContent (rdns : RDNSequence) : Bytes := (rdns.map setContent).flatMap (element tagSet)

/-- A list that was written, member by member. -/
lemma concat_map_ok {α : Type} {f : α → Except GoError Bytes} {g : α → Bytes} {P : α → Prop}
    {l : List α} {b : Bytes} (h : concat (l.map f) = .ok b)
    (hf : ∀ x ∈ l, ∀ c, f x = .ok c → P x ∧ c = g x) : (∀ x ∈ l, P x) ∧ b = l.flatMap g := by
  induction l generalizing b with
  | nil =>
    cases h
    exact ⟨List.forall_mem_nil _, rfl⟩
  | cons x l ih =>
    obtain ⟨c, c', hc, hc', rfl⟩ := concat_cons_eq_ok.mp h
    obtain ⟨hx, rfl⟩ := hf x List.mem_cons_self c hc
    obtain ⟨hl, rfl⟩ := ih hc' fun y hy => hf y (List.mem_cons_of_mem _ hy)
    exact ⟨List.forall_mem_cons.mpr ⟨hx, hl⟩, rfl⟩

/-- One attribute, as `marshalRDNSequence` writes it. -/
def marshalAttribute (a : AttributeTypeAndValue) : Except GoError Bytes :=
  addASN1 tagSequence (concat [addASN1ObjectIdentifier a.type,
    match a.value with
    | .string v => addASN1 tagUTF8String (.ok v)
    | v => .ok ((Asn1.marshal v).getD [])])

lemma marshalRDNSequence_eq (rdns : RDNSequence) :
    marshalRDNSequence rdns = addASN1 tagSequence (concat (rdns.map fun rset =>
      addASN1 tagSet (concat (rset.map marshalAttribute)))) := rfl

lemma marshalAttribute_ok {a : AttributeTypeAndValue} {b : Bytes} (h : marshalAttribute a = .ok b) :
    validOID a.type = true ∧ b = element tagSequence (attributeContent a) := by
  obtain ⟨-, c, hc, -, rfl⟩ := addASN1_eq_ok.mp h
  obtain ⟨b1, b2, hoid, hrest, rfl⟩ := concat_cons_eq_ok.mp hc
  obtain ⟨b3, b4, hvalue, hnil, rfl⟩ := concat_cons_eq_ok.mp hrest
  cases hnil
  obtain ⟨-, o, ho, -, rfl⟩ := addASN1_eq_ok.mp hoid
  split_ifs at ho with hvalid
  cases ho
  refine ⟨hvalid, ?_⟩
  rw [attributeContent, List.append_nil]
  congr 2
  obtain ⟨type, value⟩ := a
  cases value with
  | string v =>
    obtain ⟨-, v', hv', -, rfl⟩ := addASN1_eq_ok.mp hvalue
    cases hv'
    rfl
  | _ =>
    cases hvalue
    rfl

lemma marshalSet_ok {rdn : List AttributeTypeAndValue} {b : Bytes}
    (h : addASN1 tagSet (concat (rdn.map marshalAttribute)) = .ok b) :
    (∀ a ∈ rdn, validOID a.type = true) ∧ b = element tagSet (setContent rdn) := by
  obtain ⟨-, c, hc, -, rfl⟩ := addASN1_eq_ok.mp h
  obtain ⟨hvalid, rfl⟩ := concat_map_ok hc fun a _ _ ha => marshalAttribute_ok ha
  rw [setContent, List.flatMap_map]
  exact ⟨hvalid, rfl⟩

/-- The octets of a name that could be written. -/
lemma marshalRDNSequence_ok {rdns : RDNSequence} {b : Bytes} (h : marshalRDNSequence rdns = .ok b) :
    (∀ rdn ∈ rdns, ∀ a ∈ rdn, validOID a.type = true) ∧ b = element tagSequence (nameContent rdns) ∧
      (nameContent rdns).length ≤ 0xfffffffe := by
  rw [marshalRDNSequence_eq] at h
  obtain ⟨-, c, hc, hlen, rfl⟩ := addASN1_eq_ok.mp h
  obtain ⟨hvalid, rfl⟩ := concat_map_ok hc fun rdn _ _ hrdn => marshalSet_ok hrdn
  rw [nameContent, List.flatMap_map]
  exact ⟨hvalid, rfl, hlen⟩

/-- **An attribute that is read back** has its type, and its value when the encoding keeps it. -/
lemma parseAttribute_content {a a' : AttributeTypeAndValue} (hvalid : validOID a.type = true)
    (hlen : (attributeContent a).length < 2 ^ 31)
    (h : parseAttribute (attributeContent a) = some a') :
    a'.type = a.type ∧ (a'.value = a.value ↔ a.value.Exact) := by
  rw [attributeContent, List.length_append, length_element] at hlen
  rw [attributeContent, parseAttribute, Asn1.field_element (t := tagObjectIdentifier) (n := 6)
    (b := false) (by decide) _ (by omega), Option.bind_eq_bind, Option.bind_some] at h
  obtain ⟨type, htype, h⟩ := Option.bind_eq_some_iff.mp h
  obtain ⟨⟨t, rest⟩, ht, h⟩ := Option.bind_eq_some_iff.mp h
  obtain ⟨v, hv, h⟩ := Option.bind_eq_some_iff.mp h
  cases h
  exact ⟨Asn1.eq_of_parseObjectIdentifier hvalid htype,
    Asn1.parseAny_valueOctets (by omega) ht hv⟩

/-- A list is kept exactly when its members are. -/
lemma forall₂_eq_iff {α : Type} {R : α → α → Prop} {P : α → Prop} {l l' : List α}
    (h : List.Forall₂ R l l') (hR : ∀ x ∈ l, ∀ y, R x y → (y = x ↔ P x)) :
    l' = l ↔ ∀ x ∈ l, P x := by
  induction h with
  | nil => simp
  | cons hx _ ih =>
    rw [List.cons.injEq, hR _ List.mem_cons_self _ hx,
      ih fun x hx => hR x (List.mem_cons_of_mem _ hx), List.forall_mem_cons]

/-- A list that was decoded, member by member. -/
lemma forall₂_of_mapM {β γ : Type} {f : β → Option γ} {g : γ → β} {l l' : List γ}
    (h : (l.map g).mapM f = some l') : List.Forall₂ (fun x y => f (g x) = some y) l l' := by
  induction l generalizing l' with
  | nil =>
    cases h
    exact .nil
  | cons x l ih =>
    rw [List.map_cons, List.mapM_cons] at h
    obtain ⟨y, hy, h⟩ := Option.bind_eq_some_iff.mp h
    obtain ⟨ys, hys, h⟩ := Option.bind_eq_some_iff.mp h
    cases h
    exact .cons hy (ih hys)

/-- A set of attributes that is read back. -/
lemma parseSet_iff {rdn rdn' : List AttributeTypeAndValue}
    (hvalid : ∀ a ∈ rdn, validOID a.type = true) (hlen : (setContent rdn).length < 2 ^ 31)
    (h : ((Asn1.elementsOf 16 true (setContent rdn).length (setContent rdn)).bind fun atvs =>
      atvs.mapM parseAttribute) = some rdn') : rdn' = rdn ↔ ∀ a ∈ rdn, a.value.Exact := by
  rw [setContent] at hlen h
  rw [Asn1.elementsOf_flatMap (t := tagSequence) (by decide) _ _ hlen le_rfl, Option.bind_some] at h
  refine forall₂_eq_iff (forall₂_of_mapM h) fun a ha a' hattr => ?_
  have hle := length_flatMap_element_le (t := tagSequence)
    (List.mem_map_of_mem (f := attributeContent) ha)
  obtain ⟨htype, hvalue⟩ := parseAttribute_content (hvalid a ha) (by omega) hattr
  rw [← hvalue]
  exact ⟨fun h => congrArg _ h, fun h => by cases a; cases a'; cases htype; cases h; rfl⟩

/-- Every value of the name is kept by its encoding. -/
def ExactName (rdns : RDNSequence) : Prop := ∀ rdn ∈ rdns, ∀ a ∈ rdn, a.value.Exact

/-- **A name that is read back** is the same exactly when its values are kept. -/
lemma unmarshalRDNSequence_iff {rdns rdns' : RDNSequence} {left : Bytes}
    (hvalid : ∀ rdn ∈ rdns, ∀ a ∈ rdn, validOID a.type = true)
    (hlen : (nameContent rdns).length < 2 ^ 32)
    (h : unmarshalRDNSequence (element tagSequence (nameContent rdns)) = some (rdns', left)) :
    rdns' = rdns ↔ ExactName rdns := by
  obtain ⟨⟨content, rest⟩, hfield, h⟩ := Option.bind_eq_some_iff.mp h
  rw [← List.append_nil (element tagSequence (nameContent rdns))] at hfield
  have hshort := Asn1.length_of_field hlen hfield (by decide)
  rw [Asn1.field_element (t := tagSequence) (by decide) [] hshort] at hfield
  cases hfield
  rw [nameContent] at hshort
  obtain ⟨sets, hsets, h⟩ := Option.bind_eq_some_iff.mp h
  have hall := Asn1.elementsOf_flatMap (t := tagSet) (n := 17) (b := true) (by decide)
    (rdns.map setContent) _ hshort le_rfl
  rw [nameContent, hall] at hsets
  cases hsets
  obtain ⟨rdns'', hmap, h⟩ := Option.bind_eq_some_iff.mp h
  cases h
  refine forall₂_eq_iff (forall₂_of_mapM hmap) fun rdn hrdn rdn' hset => ?_
  have hle := length_flatMap_element_le (t := tagSet) (List.mem_map_of_mem (f := setContent) hrdn)
  exact parseSet_iff (hvalid rdn hrdn) (by omega) hset

/-! ### Templates -/

namespace CertTemplate

/-- Only the element [5] is taken for the subject. -/
lemma subject_of_field {u v : CertTemplate} {e : Element} (h : field u e = .ok v)
    (he : e.tag ≠ contextConstructed 5) : v.subject = u.subject := by
  unfold field at h
  split_ifs at h
  · obtain ⟨n, -, h⟩ := Except.bind_eq_ok.mp h
    cases h
    rfl
  · split at h
    · cases h
      rfl
    · cases h
  · cases h
    rfl
  · cases h
    rfl
  · cases h
    rfl

lemma subject_of_foldlM {es : List Element} {u v : CertTemplate} (h : es.foldlM field u = .ok v)
    (hes : ∀ e ∈ es, e.tag ≠ contextConstructed 5) : v.subject = u.subject := by
  induction es generalizing u with
  | nil =>
    cases h
    rfl
  | cons e es ih =>
    rw [List.foldlM_cons] at h
    obtain ⟨w, hw, h⟩ := Except.bind_eq_ok.mp h
    rw [ih h fun e he => hes e (List.mem_cons_of_mem _ he),
      subject_of_field hw (hes e List.mem_cons_self)]

/-- Fields other than the subject. -/
def Other (l : List (UInt8 × Bytes)) : Prop :=
  ∀ p ∈ l, p.1 ≠ contextConstructed 5 ∧ isHighTag p.1 = false

lemma Other.single {t : UInt8} (ht : t ≠ contextConstructed 5) (hlow : isHighTag t = false)
    (c : Bytes) : Other [(t, c)] := by
  intro p hp
  rw [List.mem_singleton.mp hp]
  exact ⟨ht, hlow⟩

lemma Other.nil : Other [] := List.forall_mem_nil _

lemma Other.append {l l' : List (UInt8 × Bytes)} (h : Other l) (h' : Other l') : Other (l ++ l') :=
  List.forall_mem_append.mpr ⟨h, h'⟩

lemma marshalStripped_ok {tag : UInt8} {what : String} {der b : Bytes}
    (ht : tag ≠ contextConstructed 5) (h : marshalStripped tag what der = .ok b) :
    ∃ l, Other l ∧ b = fieldOctets l := by
  unfold marshalStripped at h
  split_ifs at h
  · cases h
    exact ⟨[], .nil, rfl⟩
  · split at h
    · obtain ⟨hlow, c, hc, -, rfl⟩ := addASN1_eq_ok.mp h
      exact ⟨[(tag, c)], .single ht hlow c, (List.append_nil _).symm⟩
    · cases h

/-- The field of the subject. -/
def SubjectField (dn : RDNSequence) (l : List (UInt8 × Bytes)) : Prop :=
  (dn = [] ∧ l = []) ∨
    ∃ c, dn ≠ [] ∧ marshalRDNSequence dn = .ok c ∧ l = [(contextConstructed 5, c)]

/-- The fields of a template that could be written. -/
lemma marshal_ok {t : CertTemplate} {b : Bytes} (h : t.marshal = .ok b) :
    ∃ before name after, b = element tagSequence (fieldOctets (before ++ (name ++ after))) ∧
      (fieldOctets (before ++ (name ++ after))).length ≤ 0xfffffffe ∧ Other before ∧ Other after ∧
      SubjectField t.subject.directoryName name := by
  obtain ⟨-, c, hc, hlen, rfl⟩ := addASN1_eq_ok.mp h
  obtain ⟨b1, c1, h1, hc1, rfl⟩ := concat_cons_eq_ok.mp hc
  obtain ⟨b2, c2, h2, hc2, rfl⟩ := concat_cons_eq_ok.mp hc1
  obtain ⟨b3, c3, h3, hc3, rfl⟩ := concat_cons_eq_ok.mp hc2
  obtain ⟨b4, c4, h4, hc4, rfl⟩ := concat_cons_eq_ok.mp hc3
  obtain ⟨b5, c5, h5, hc5, rfl⟩ := concat_cons_eq_ok.mp hc4
  cases hc5
  have hserial : ∃ l, Other l ∧ b1 = fieldOctets l := by
    split at h1
    · obtain ⟨hlow, c, -, -, rfl⟩ := addASN1_eq_ok.mp h1
      exact ⟨[(context 1, c)], .single (by decide) hlow c, (List.append_nil _).symm⟩
    · cases h1
      exact ⟨[], .nil, rfl⟩
  have hissuer : ∃ l, Other l ∧ b2 = fieldOctets l := by
    split_ifs at h2
    · cases h2
      exact ⟨[], .nil, rfl⟩
    · obtain ⟨hlow, c, -, -, rfl⟩ := addASN1_eq_ok.mp h2
      exact ⟨[(contextConstructed 3, c)], .single (by decide) hlow c, (List.append_nil _).symm⟩
  have hsubject : ∃ l, SubjectField t.subject.directoryName l ∧ b3 = fieldOctets l := by
    obtain ⟨hne, h3⟩ | ⟨hnil, rfl⟩ := optional_eq_ok.mp h3
    · obtain ⟨-, c, hname, -, rfl⟩ := addASN1_eq_ok.mp h3
      exact ⟨[(contextConstructed 5, c)], .inr ⟨c, of_decide_eq_true hne, hname, rfl⟩,
        (List.append_nil _).symm⟩
    · exact ⟨[], .inl ⟨not_not.mp (of_decide_eq_false hnil), rfl⟩, rfl⟩
  obtain ⟨l1, ho1, rfl⟩ := hserial
  obtain ⟨l2, ho2, rfl⟩ := hissuer
  obtain ⟨name, hname, rfl⟩ := hsubject
  obtain ⟨l4, ho4, rfl⟩ := marshalStripped_ok (by decide) h4
  obtain ⟨l5, ho5, rfl⟩ := marshalStripped_ok (by decide) h5
  have hoctets :
      fieldOctets (l1 ++ l2 ++ (name ++ (l4 ++ l5))) = fieldOctets l1 ++ (fieldOctets l2 ++
      (fieldOctets name ++ (fieldOctets l4 ++ (fieldOctets l5 ++ [])))) := by
    simp only [fieldOctets, List.flatMap_append, List.append_assoc, List.append_nil]
  refine ⟨l1 ++ l2, name, l4 ++ l5, by rw [hoctets], ?_, ho1.append ho2, ho4.append ho5, hname⟩
  rw [hoctets]
  exact hlen

/-- The name that is read off the element [5]. -/
lemma subject_of_name {u v : CertTemplate} {raw c : Bytes}
    (h : field u ⟨contextConstructed 5, raw, c⟩ = .ok v) :
    ∃ left, parseRDNSequence c = .ok (v.subject.directoryName, left) := by
  rw [field, if_neg (by decide : contextConstructed 5 ≠ context 1),
    if_neg (by decide : contextConstructed 5 ≠ contextConstructed 3), if_pos rfl] at h
  obtain ⟨⟨rdns, left⟩, hparse, h⟩ := Except.bind_eq_ok.mp h
  cases h
  exact ⟨left, hparse⟩

/-- A name that was written and read. -/
lemma name_iff {dn rdns : RDNSequence} {c left : Bytes} (hm : marshalRDNSequence dn = .ok c)
    (hp : parseRDNSequence c = .ok (rdns, left)) : rdns = dn ↔ ExactName dn := by
  obtain ⟨hvalid, rfl, hlen⟩ := marshalRDNSequence_ok hm
  obtain ⟨e, s1, he, hp⟩ := Reader.bind_ok.mp hp
  obtain ⟨hshort, rfl, rfl⟩ := readAnyASN1_element_inv (by decide) hlen (Reader.read_ok.mp he)
  cases hname : unmarshalRDNSequence (element tagSequence (nameContent dn)) with
  | none =>
    simp only [hname] at hp
    cases hp
  | some x =>
    simp only [hname] at hp
    cases hp
    exact unmarshalRDNSequence_iff hvalid (by omega) hname

/-- The elements that a template is read from. -/
lemma unmarshal_fields {l : List (UInt8 × Bytes)} {t : CertTemplate} {rest : Bytes}
    (hl : ∀ p ∈ l, isHighTag p.1 = false) (hlen : (fieldOctets l).length ≤ 0xfffffffe)
    (h : unmarshal (element tagSequence (fieldOctets l)) = .ok (t, rest)) :
    (fieldElements l).foldlM field {} = .ok t := by
  obtain ⟨c, s1, hc, h⟩ := Reader.bind_ok.mp h
  obtain ⟨e, he, rfl⟩ := Reader.element_ok hc
  obtain ⟨hany, -⟩ := readASN1_eq_some_iff.mp he
  obtain ⟨hshort, rfl, rfl⟩ := readAnyASN1_element_inv (by decide) hlen hany
  obtain ⟨es, s2, hes, h⟩ := Reader.bind_ok.mp h
  rw [Reader.within_eq_ok (many_fieldOctets hl (by omega)) []] at hes
  cases hes
  cases hfold : (fieldElements l).foldlM field {} with
  | error e =>
    simp only [hfold] at h
    cases h
  | ok t' =>
    simp only [hfold] at h
    cases h
    rfl

/-- What is read for the subject. -/
lemma subject_of_unmarshal {t t' : CertTemplate} {b rest : Bytes} (hm : t.marshal = .ok b)
    (hu : unmarshal b = .ok (t', rest)) :
    (t.subject.directoryName = [] ∧ t'.subject.directoryName = []) ∨
      t.subject.directoryName ≠ [] ∧
        (t'.subject.directoryName = t.subject.directoryName ↔
          ExactName t.subject.directoryName) := by
  obtain ⟨before, name, after, rfl, hlen, hbefore, hafter, hname⟩ := marshal_ok hm
  have hothers : ∀ {l : List (UInt8 × Bytes)}, Other l →
      ∀ e ∈ fieldElements l, e.tag ≠ contextConstructed 5 := by
    intro l hl e he
    obtain ⟨p, hp, rfl⟩ := List.mem_map.mp he
    exact (hl p hp).1
  have hlow : ∀ p ∈ before ++ (name ++ after), isHighTag p.1 = false := by
    refine List.forall_mem_append.mpr ⟨fun p hp => (hbefore p hp).2,
      List.forall_mem_append.mpr ⟨fun p hp => ?_, fun p hp => (hafter p hp).2⟩⟩
    obtain ⟨-, rfl⟩ | ⟨c, -, -, rfl⟩ := hname
    · cases hp
    · rw [List.mem_singleton.mp hp]
      exact (by decide : isHighTag (contextConstructed 5) = false)
  have hfold := unmarshal_fields hlow hlen hu
  rw [fieldElements, List.map_append, List.map_append, List.foldlM_append] at hfold
  obtain ⟨u, hu1, hrest⟩ := Except.bind_eq_ok.mp hfold
  rw [List.foldlM_append] at hrest
  obtain ⟨v, hv, hw⟩ := Except.bind_eq_ok.mp hrest
  have hstart := subject_of_foldlM hu1 (hothers hbefore)
  have hend := subject_of_foldlM hw (hothers hafter)
  obtain ⟨hnil, rfl⟩ | ⟨c, hne, hc, rfl⟩ := hname
  · cases hv
    rw [hend, hstart]
    exact .inl ⟨hnil, rfl⟩
  · rw [List.map_singleton, List.foldlM_cons] at hv
    obtain ⟨w, hw1, hv⟩ := Except.bind_eq_ok.mp hv
    cases hv
    obtain ⟨left, hparse⟩ := subject_of_name hw1
    rw [hend]
    exact .inr ⟨hne, name_iff hc hparse⟩

end CertTemplate

/-- The attributes of a directory name: the decoded ones, or where only the encoding is there,
those that it holds. -/
def GeneralName.attributes (g : GeneralName) : RDNSequence :=
  if g.directoryName ≠ [] then g.directoryName
  else match GeneralName.unmarshal g.raw with
    | .ok (g', _) => g'.directoryName
    | .error _ => []

/-- **A requested subject is kept** by a template that was written and read exactly when the name
has its attributes decoded and every value survives its encoding. -/
theorem CertTemplate.subject_kept_iff {t t' : CertTemplate} {b rest : Bytes}
    (hne : t.subject.attributes ≠ []) (hm : t.marshal = .ok b)
    (hu : CertTemplate.unmarshal b = .ok (t', rest)) :
    t'.subject.directoryName = t.subject.attributes ↔
      t.subject.directoryName ≠ [] ∧ ExactName t.subject.directoryName := by
  obtain ⟨hnil, hread⟩ | ⟨hdir, hiff⟩ := subject_of_unmarshal hm hu
  · rw [hread]
    exact ⟨fun h => absurd h.symm hne, fun h => absurd hnil h.1⟩
  · rw [GeneralName.attributes, if_pos hdir]
    exact ⟨fun h => ⟨hdir, hiff.mp h⟩, fun h => hiff.mpr h.2⟩

/-- The template of a request for one common name. -/
def commonNameTemplate : CertTemplate :=
  { subject := newDirectoryName { commonName := [97] } }

/-- The same request, with the name taken over from its encoding. -/
def encodedNameTemplate : CertTemplate :=
  { subject := newDirectoryNameFromRawDER
      [0x30, 0x0c, 0x31, 0x0a, 0x30, 0x08, 0x06, 0x03, 0x55, 0x04, 0x03, 0x0c, 0x01, 0x61] }

/-- The octets of the first. -/
def commonNameOctets : Bytes :=
  [0x30, 0x10, 0xa5, 0x0e, 0x30, 0x0c, 0x31, 0x0a, 0x30, 0x08, 0x06, 0x03, 0x55, 0x04, 0x03, 0x0c,
    0x01, 0x61]

/-- A common name that is requested comes back. -/
theorem CertTemplate.subject_kept_sample :
    commonNameTemplate.subject.attributes ≠ [] ∧ commonNameTemplate.marshal = .ok commonNameOctets ∧
      ∃ t', CertTemplate.unmarshal commonNameOctets = .ok (t', []) ∧
        t'.subject.directoryName = commonNameTemplate.subject.attributes := by
  have hne : commonNameTemplate.subject.attributes ≠ [] := by decide
  have hm : commonNameTemplate.marshal = .ok commonNameOctets := by decide
  have hu : CertTemplate.unmarshal commonNameOctets =
      .ok ({ subject := { directoryName := [[⟨[2, 5, 4, 3], .string [97]⟩]] } }, []) := by decide
  refine ⟨hne, hm, _, hu, (subject_kept_iff hne hm hu).mpr ⟨by decide, ?_⟩⟩
  intro rdn hrdn a ha
  cases List.mem_singleton.mp hrdn
  cases List.mem_singleton.mp ha
  trivial

/-- **A name that is there as its encoding only** is left out of the template: it is written
without a subject, and read as one that asks for none. -/
theorem CertTemplate.encoded_subject_dropped :
    encodedNameTemplate.subject.attributes = [[⟨[2, 5, 4, 3], .string [97]⟩]] ∧
      encodedNameTemplate.marshal = .ok [0x30, 0x00] ∧
      CertTemplate.unmarshal [0x30, 0x00] = .ok ({}, []) := by
  refine ⟨by decide, by decide, by decide⟩

end PkiCmp
