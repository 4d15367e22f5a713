/-
Names that are written with `cryptobyte` and read with `encoding/asn1`.

* `Asn1.readTLV_element`: the second decoder reads the elements of the first encoder, as long
  as they stay below `2 ^ 31` octets;
* `Textual`: the names whose attributes are UTF-8 strings;
* `parseRDNSequence_conveys`: **names** are read back.
-/
import PkiCmp.Codec.Basic

namespace PkiCmp

open Der

namespace Asn1

/-! ### Elements -/

/-- Length octets, from the value of the ones before them. -/
lemma parseLength_beOctets (j n acc : ℕ) (bs : Bytes) (hfit : acc * 256 ^ j + n % 256 ^ j < 2 ^ 31)
    (hmin : 128 ≤ acc * 256 ^ j + n % 256 ^ j)
    (htop : acc ≠ 0 ∨ 256 ^ (j - 1) ≤ n % 256 ^ j) :
    parseLength j acc (beOctets j n ++ bs) = some (acc * 256 ^ j + n % 256 ^ j, bs) := by
  induction j generalizing acc with
  | zero =>
    rw [pow_zero, mul_one, Nat.mod_one, Nat.add_zero] at hmin ⊢
    rw [beOctets, List.nil_append, parseLength, if_neg (by omega)]
  | succ j ih =>
    have hval : acc * 256 ^ (j + 1) + n % 256 ^ (j + 1) =
        (acc * 256 + n / 256 ^ j % 256) * 256 ^ j + n % 256 ^ j := by
      rw [Nat.mod_pow_succ, pow_succ]
      ring
    have hp : 0 < 256 ^ j := by positivity
    have hne : acc * 256 + n / 256 ^ j % 256 ≠ 0 := by
      rw [Nat.add_sub_cancel, Nat.mod_pow_succ] at htop
      intro hzero
      have h1 : acc = 0 := by omega
      have h2 : n / 256 ^ j % 256 = 0 := by omega
      rw [h2, Nat.mul_zero, Nat.add_zero] at htop
      have h3 := Nat.mod_lt n hp
      omega
    rw [hval] at hfit hmin ⊢
    have hacc : acc < 2 ^ 23 := by
      by_contra h
      have : 2 ^ 31 ≤ (acc * 256 + n / 256 ^ j % 256) * 256 ^ j :=
        le_trans (by omega) (Nat.le_mul_of_pos_right _ hp)
      omega
    rw [beOctets, List.cons_append, parseLength, if_neg (by omega), toNat_octet, if_neg hne]
    exact ih _ hfit hmin (.inl hne)

/-- The reader finds the tag and the length of an element. -/
lemma parseTagAndLength_element {t : UInt8} {c : Bytes} (rest : Bytes)
    (ht : isHighTag t = false) (hlen : c.length < 2 ^ 31) :
    parseTagAndLength (element t c ++ rest) =
      some (t.toNat / 64, t &&& 0x20 == 0x20, (t &&& 0x1f).toNat, c.length, c ++ rest) := by
  have hlow : ¬ (t &&& 0x1f).toNat = 0x1f := by
    intro h
    rw [isHighTag, beq_eq_false_iff_ne] at ht
    exact ht (UInt8.toNat_inj.mp h)
  have hmany : ∀ {k : ℕ} {l : UInt8}, (l &&& 0x80 == 0) = false → (l &&& 0x7f).toNat = k → k ≠ 0 →
      256 ^ (k - 1) ≤ c.length → c.length < 256 ^ k → 128 ≤ c.length →
      parseTagAndLength (t :: l :: (beOctets k c.length ++ (c ++ rest))) =
        some (t.toNat / 64, t &&& 0x20 == 0x20, (t &&& 0x1f).toNat, c.length, c ++ rest) := by
    intro k l hbit hk h0 htop hfit hmin
    have hl := parseLength_beOctets k c.length 0 (c ++ rest) (by rw [Nat.mod_eq_of_lt hfit]; omega)
      (by rw [Nat.mod_eq_of_lt hfit]; omega) (.inr (by rwa [Nat.mod_eq_of_lt hfit]))
    rw [Nat.mod_eq_of_lt hfit, Nat.zero_mul, Nat.zero_add] at hl
    simp only [parseTagAndLength, if_neg hlow, Option.bind_eq_bind, Option.bind_some, hbit,
      Bool.false_eq_true, if_false, hk, if_neg h0, hl]
  simp only [element, List.cons_append, List.append_assoc]
  -- one case for each number of length octets
  unfold lengthOctets
  split_ifs with h1 h2 h3 h4
  · have hshort : ∀ m < 128, (UInt8.ofNat m &&& 0x80 == 0) = true ∧
        (UInt8.ofNat m &&& 0x7f).toNat = m := by decide +kernel
    obtain ⟨hbit, hval⟩ := hshort c.length (by omega)
    simp only [List.cons_append, List.nil_append, parseTagAndLength, if_neg hlow,
      Option.bind_eq_bind, Option.bind_some, hbit, if_true, hval]
  all_goals
    simp only [List.cons_append]
    exact hmany (by decide) (by decide) (by decide) (by norm_num; omega) (by norm_num; omega)
      (by omega)

/-- **One element** is read back. -/
lemma readTLV_element {t : UInt8} {c : Bytes} (rest : Bytes) (ht : isHighTag t = false)
    (hlen : c.length < 2 ^ 31) :
    readTLV (element t c ++ rest) = some (⟨t.toNat / 64, t &&& 0x20 == 0x20,
      (t &&& 0x1f).toNat, element t c, c⟩, rest) := by
  have hfull : (element t c ++ rest).length - (c ++ rest).length + c.length =
      (element t c).length := by
    rw [List.length_append, List.length_append, length_element]
    omega
  simp only [readTLV, parseTagAndLength_element rest ht hlen, Option.bind_eq_bind,
    Option.bind_some]
  rw [if_neg (by rw [List.length_append]; omega), hfull, List.take_left, List.take_left,
    List.drop_left]

/-- A universal tag as the two decoders see it. -/
def IsUniversal (t : UInt8) (n : ℕ) (b : Bool) : Prop :=
  isHighTag t = false ∧ t.toNat / 64 = 0 ∧ (t &&& 0x1f).toNat = n ∧
    (t &&& 0x20 == 0x20) = b

instance (t : UInt8) (n : ℕ) (b : Bool) : Decidable (IsUniversal t n b) :=
  inferInstanceAs (Decidable (_ ∧ _ ∧ _ ∧ _))

/-- A field is read back. -/
lemma field_element {t : UInt8} {n : ℕ} {b : Bool} (ht : IsUniversal t n b)
    {c : Bytes} (rest : Bytes) (hlen : c.length < 2 ^ 31) :
    field n b (element t c ++ rest) = some (c, rest) := by
  obtain ⟨hhigh, hcls, htag, hcomp⟩ := ht
  simp only [field, readTLV_element rest hhigh hlen, Option.bind_eq_bind, Option.bind_some, hcls,
    htag, hcomp, and_self, if_true]

/-- The elements of a list are read back when there is fuel for each octet. -/
lemma elementsOf_flatMap {t : UInt8} {n : ℕ} {b : Bool} (ht : IsUniversal t n b)
    (cs : List Bytes) (fuel : ℕ) (hlen : (cs.flatMap (element t)).length < 2 ^ 31)
    (hfuel : (cs.flatMap (element t)).length ≤ fuel) :
    elementsOf n b fuel (cs.flatMap (element t)) = some cs := by
  induction cs generalizing fuel with
  | nil => cases fuel <;> rfl
  | cons c cs ih =>
    rw [List.flatMap_cons, List.length_append, length_element] at hlen hfuel
    obtain ⟨fuel, rfl⟩ : ∃ n, fuel = n + 1 := ⟨fuel - 1, by omega⟩
    have hfield := field_element ht (cs.flatMap (element t)) (c := c) (by omega)
    rw [List.flatMap_cons]
    rw [element, List.cons_append] at hfield ⊢
    simp only [elementsOf, hfield, Option.bind_eq_bind, Option.bind_some,
      ih fuel (by omega) (by omega)]

/-! ### Object identifiers -/

lemma parseBase128Int_base128 {n : ℕ} (hn : n < 2 ^ 31) (bs : Bytes) :
    parseBase128Int 0 0 (base128 n ++ bs) = some (n, bs) := by
  refine read_base128 (fun i ret d bs hi hret hd h0 => ?_) (fun i ret d bs hi hret hd => ?_) hn bs
  · obtain ⟨hv, hb, hne, -⟩ := groupOctets d hd
    rw [parseBase128Int, if_neg, hv, hb]
    · rfl
    · rintro (h | ⟨hzero, h⟩)
      · omega
      · exact hne (h0 hzero) h
  · obtain ⟨-, -, -, hv, hb, hne⟩ := groupOctets d hd
    rw [parseBase128Int, if_neg, hv, hb]
    · simp only [if_true]
      rw [if_pos (by omega)]
    · rintro (h | ⟨-, h⟩)
      · omega
      · exact hne h

lemma parseObjectIdentifier_oidOctets {oid : OID} (h : smallOID oid = true) :
    parseObjectIdentifier (oidOctets oid) = some oid :=
  read_oid (a := parseArcs) (fun _ bs hn => parseBase128Int_base128 hn bs)
    (fun k => by cases k <;> rfl) (fun _ _ _ => rfl) h

end Asn1

/-! ### Names -/

/-- An attribute with a UTF-8 string and a type that can be written. -/
def AttributeTypeAndValue.Textual (a : AttributeTypeAndValue) : Prop :=
  smallOID a.type = true ∧ ∃ v, a.value = .string v ∧ utf8Valid v = true

/-- A name of such attributes. -/
def Textual (rdns : RDNSequence) : Prop := ∀ rdn ∈ rdns, ∀ a ∈ rdn, a.Textual

/-- The content of an attribute. -/
def attributeOctets (a : AttributeTypeAndValue) : Bytes :=
  element tagObjectIdentifier (oidOctets a.type) ++ element tagUTF8String (match a.value with
    | .string v => v
    | _ => [])

/-- The content of a set of attributes. -/
def rdnOctets (rdn : List AttributeTypeAndValue) : Bytes :=
  (rdn.map attributeOctets).flatMap (element tagSequence)

/-- The octets of a name. -/
def nameOctets (rdns : RDNSequence) : Bytes :=
  element tagSequence ((rdns.map rdnOctets).flatMap (element tagSet))

lemma parseAttribute_octets {a : AttributeTypeAndValue} (ha : a.Textual)
    (hlen : (attributeOctets a).length < 2 ^ 31) : parseAttribute (attributeOctets a) = some a := by
  obtain ⟨type, value⟩ := a
  obtain ⟨hoid, v, rfl, hv⟩ := ha
  simp only [attributeOctets, List.length_append, length_element] at hlen
  have hvalue := Asn1.readTLV_element (t := tagUTF8String) (c := v) [] (by decide) (by omega)
  rw [List.append_nil] at hvalue
  have hfield := Asn1.field_element (t := tagObjectIdentifier) (n := 6) (b := false)
    (by decide) (element tagUTF8String v) (c := oidOctets type) (by omega)
  have hany : ∀ full, Asn1.parseAny ⟨tagUTF8String.toNat / 64, tagUTF8String &&& 0x20 == 0x20,
      (tagUTF8String &&& 0x1f).toNat, full, v⟩ = some (.string v) := by
    intro full
    have hprim : ¬ ((tagUTF8String &&& 0x20 == 0x20) = true ∨ tagUTF8String.toNat / 64 ≠ 0) := by
      decide
    rw [Asn1.parseAny, if_neg hprim]
    show (Asn1.parseString 12 v).map _ = _
    rw [Asn1.parseString, if_pos hv]
    rfl
  simp only [parseAttribute, attributeOctets, hfield, Asn1.parseObjectIdentifier_oidOctets hoid,
    hvalue, hany, Option.bind_eq_bind, Option.bind_some]

lemma length_flatMap_element_le {t : UInt8} {cs : List Bytes} {c : Bytes} (hc : c ∈ cs) :
    c.length ≤ (cs.flatMap (element t)).length := by
  induction cs with
  | nil => cases hc
  | cons c' cs ih =>
    rw [List.flatMap_cons, List.length_append, length_element]
    obtain rfl | hc := List.mem_cons.mp hc
    · omega
    · have := ih hc
      omega

/-- A list decoded member by member. -/
lemma mapM_eq_some {β γ : Type} {f : β → Option γ} {g : γ → β} {l : List γ}
    (h : ∀ x ∈ l, f (g x) = some x) : (l.map g).mapM f = some l := by
  induction l with
  | nil => rfl
  | cons x l ih =>
    rw [List.map_cons, List.mapM_cons, h x List.mem_cons_self,
      ih fun y hy => h y (List.mem_cons_of_mem _ hy)]
    rfl

variable {rdns : RDNSequence}

/-- **A name** is decoded from its octets. -/
lemma unmarshalRDNSequence_nameOctets (h : Textual rdns) (rest : Bytes)
    (hlen : (nameOctets rdns).length < 2 ^ 31) :
    unmarshalRDNSequence (nameOctets rdns ++ rest) = some (rdns, rest) := by
  rw [nameOctets, length_element] at hlen
  have hsets := Asn1.elementsOf_flatMap (t := tagSet) (n := 17) (b := true) (by decide)
    (rdns.map rdnOctets) _ (by omega) le_rfl
  have hset : ∀ rdn ∈ rdns, ((Asn1.elementsOf 16 true (rdnOctets rdn).length (rdnOctets rdn)).bind
      fun atvs => atvs.mapM parseAttribute) = some rdn := by
    intro rdn hrdn
    have hle := length_flatMap_element_le (t := tagSet) (List.mem_map_of_mem (f := rdnOctets) hrdn)
    rw [rdnOctets] at hle ⊢
    rw [Asn1.elementsOf_flatMap (t := tagSequence) (by decide) _ _ (by omega) le_rfl]
    refine mapM_eq_some fun a ha => parseAttribute_octets (h rdn hrdn a ha) ?_
    have hle' := length_flatMap_element_le (t := tagSequence) (List.mem_map_of_mem
      (f := attributeOctets) ha)
    omega
  have hall := mapM_eq_some (g := rdnOctets) (f := fun set =>
    (Asn1.elementsOf 16 true set.length set).bind fun atvs => atvs.mapM parseAttribute) hset
  simp only [unmarshalRDNSequence, nameOctets]
  rw [Asn1.field_element (t := tagSequence) (by decide) rest (by omega)]
  simp only [Option.bind_eq_bind, Option.bind_some, hsets, hall]

/-- The octets that are written for a name. -/
lemma marshalRDNSequence_writes (h : Textual rdns) :
    Writes (marshalRDNSequence rdns) (nameOctets rdns) := by
  rw [nameOctets, List.flatMap_map]
  refine .addASN1 (by decide) (.flatMap fun rdn hrdn => .addASN1 (by decide) ?_)
  rw [rdnOctets, List.flatMap_map]
  refine .flatMap fun a ha => .addASN1 (by decide) ?_
  obtain ⟨hoid, v, hv, -⟩ := h rdn hrdn a ha
  have hnil : Writes (concat []) [] := .inr rfl
  rw [attributeOctets, hv, ← List.append_nil (element tagUTF8String v)]
  refine .cons (.addASN1 (by decide) (.inr ?_)) (.cons (.addASN1 (by decide) (.inr rfl)) hnil)
  rw [if_pos (smallOID_valid hoid)]

/-- **A name** is read off the input. -/
lemma parseRDNSequence_nameOctets (h : Textual rdns) (rest : Bytes)
    (hlen : (nameOctets rdns).length < 2 ^ 31) :
    parseRDNSequence (nameOctets rdns ++ rest) = .ok (rdns, rest) := by
  have hread : readAnyASN1 (nameOctets rdns ++ rest) =
      some (⟨tagSequence, nameOctets rdns, (rdns.map rdnOctets).flatMap (element tagSet)⟩, rest) :=
    readAnyASN1_element rest (by decide) (lt_trans hlen (by norm_num))
  have hname := unmarshalRDNSequence_nameOctets h [] hlen
  rw [List.append_nil] at hname
  refine Reader.bind_ok.mpr ⟨_, rest, Reader.read_ok.mpr hread, ?_⟩
  simp only [hname]
  rfl

lemma parseRDNSequence_conveys {F : List (Option UInt8)} (h : Textual rdns) :
    Conveys (2 ^ 31) [some tagSequence] F (marshalRDNSequence rdns) parseRDNSequence
      (· = rdns) := by
  obtain hlong | hok := marshalRDNSequence_writes h
  · exact .inl hlong
  · exact .inr ⟨_, hok, List.mem_singleton.mpr rfl, ⟨_, rfl⟩,
      fun hlen rest _ => ⟨rdns, parseRDNSequence_nameOctets h rest hlen, rfl⟩⟩

end PkiCmp
