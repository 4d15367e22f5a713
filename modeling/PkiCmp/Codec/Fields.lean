/-
What `encoding/asn1` accepts of elements with low tag numbers.

The decoder insists on minimal lengths, so an element that it reads is the one that the builder
writes for its content; a structure is another matter, since it may go on after its last field.

* `readTLV_eq_some`: **an element** that is read is one that could have been written;
* `field_eq_some_iff`: the same for a field of a structure;
* `optField_eq_some`, `optField_element`, `optField_other`: optional fields.
-/
import PkiCmp.Codec.Names

namespace PkiCmp

open Der

namespace Asn1

/-- A length that is accepted is the number of its octets, the first of which is not zero. -/
lemma parseLength_eq_some {n acc len : ℕ} {bs rest : Bytes}
    (h : parseLength n acc bs = some (len, rest)) :
    ∃ ls : Bytes, ls.length = n ∧ bs = ls ++ rest ∧ len = acc * 256 ^ n + beNat ls ∧ 128 ≤ len ∧
      (acc ≠ 0 ∨ n = 0 ∨ 256 ^ (n - 1) ≤ beNat ls) ∧ (n = 0 ∨ len < 2 ^ 31) := by
  induction n generalizing acc bs with
  | zero =>
    rw [parseLength] at h
    split_ifs at h with hmin
    cases h
    exact ⟨[], rfl, rfl, by simp [beNat], not_lt.mp hmin, .inr (.inl rfl), .inl rfl⟩
  | succ n ih =>
    cases bs with
    | nil => cases h
    | cons b bs =>
      simp only [parseLength] at h
      split_ifs at h with hbig hzero
      have hb := b.toNat_lt
      obtain ⟨ls, rfl, rfl, hlen, hmin, -, hfit⟩ := ih h
      refine ⟨b :: ls, rfl, rfl, ?_, hmin, ?_, .inr ?_⟩
      · rw [hlen, beNat_cons, pow_succ]
        ring
      · by_cases hacc : acc = 0
        · refine .inr (.inr ?_)
          rw [beNat_cons, Nat.add_sub_cancel]
          exact le_trans (Nat.le_mul_of_pos_left _ (by omega)) (Nat.le_add_right _ _)
        · exact .inl hacc
      · obtain hnil | hfit := hfit
        · rw [List.length_eq_zero_iff.mp hnil] at hlen
          simp only [beNat, List.foldl_nil, List.length_nil, pow_zero] at hlen
          omega
        · exact hfit

variable {b : Bool}

/-- The octets before the content of an element with a low tag number. -/
lemma parseTagAndLength_eq_some {s rest : Bytes} {cls tag len : ℕ}
    (h : parseTagAndLength s = some (cls, b, tag, len, rest)) (htag : tag < 31) :
    ∃ t : UInt8, isHighTag t = false ∧ t.toNat / 64 = cls ∧ (t &&& 0x1f).toNat = tag ∧
      (t &&& 0x20 == 0x20) = b ∧ len < 2 ^ 31 ∧ s = t :: (lengthOctets len ++ rest) := by
  cases s with
  | nil => cases h
  | cons t s =>
    simp only [parseTagAndLength, Option.bind_eq_bind, Option.bind_some, Option.bind_none] at h
    split_ifs at h with hhigh
    · -- a high tag number is at least 31
      split at h
      · next t' bs _ =>
        split_ifs at h with h31
        split at h
        · cases h
        · split_ifs at h
          · cases h
            omega
          · obtain ⟨⟨n, bs⟩, -, h⟩ := Option.bind_eq_some_iff.mp h
            cases h
            omega
      · cases h
    · have hht : isHighTag t = false := by
        rw [isHighTag, beq_eq_false_iff_ne]
        intro heq
        exact hhigh (by rw [heq]; rfl)
      cases s with
      | nil => cases h
      | cons l s =>
        simp only at h
        split_ifs at h with hshort hn
        · cases h
          have hbyte : ∀ n < 256, (UInt8.ofNat n &&& 0x80 == 0) = true → n ≤ 0x7f ∧
            (UInt8.ofNat n &&& 0x7f).toNat = n := by decide +kernel
          have hl := hbyte _ l.toNat_lt
          rw [UInt8.ofNat_toNat] at hl
          obtain ⟨hle, hval⟩ := hl hshort
          refine ⟨t, hht, rfl, rfl, rfl, by omega, ?_⟩
          rw [hval, lengthOctets, if_pos hle, UInt8.ofNat_toNat]
          rfl
        · obtain ⟨⟨n, bs⟩, hlen, h⟩ := Option.bind_eq_some_iff.mp h
          cases h
          obtain ⟨ls, hls, rfl, rfl, hmin, htop, hfit⟩ := parseLength_eq_some hlen
          rw [Nat.zero_mul, Nat.zero_add] at hmin hfit ⊢
          have hlt := hfit.resolve_left hn
          have htop := (htop.resolve_left (by simp)).resolve_left hn
          have hfour : ls.length ≤ 4 := by
            by_contra hgt
            have : 256 ^ 4 ≤ 256 ^ ((l &&& 0x7f).toNat - 1) :=
              Nat.pow_le_pow_right (by norm_num) (by omega)
            omega
          have hoct := lengthOctets_beNat (by simpa using hshort) hls.symm (by omega) hfour hmin (by
            rw [hls]
            exact Nat.pos_iff_ne_zero.mp (Nat.div_pos htop (by positivity)))
          exact ⟨t, hht, rfl, rfl, rfl, hlt, by rw [hoct]; rfl⟩

/-- **One element** with a low tag number is one that the builder writes. -/
lemma readTLV_eq_some {s rest : Bytes} {v : TLV} (h : readTLV s = some (v, rest))
    (htag : v.tag < 31) :
    ∃ t : UInt8, isHighTag t = false ∧ t.toNat / 64 = v.cls ∧ (t &&& 0x1f).toNat = v.tag ∧
      (t &&& 0x20 == 0x20) = v.compound ∧ v.content.length < 2 ^ 31 ∧
      s = element t v.content ++ rest := by
  obtain ⟨⟨cls, b, tag, len, bs⟩, hhead, h⟩ := Option.bind_eq_some_iff.mp h
  simp only at h
  split_ifs at h with hlen
  cases h
  obtain ⟨t, hhigh, hcls, hnum, hcomp, hfit, rfl⟩ := parseTagAndLength_eq_some hhead htag
  have htake : (bs.take len).length = len := List.length_take_of_le (not_lt.mp hlen)
  refine ⟨t, hhigh, hcls, hnum, hcomp, by rw [htake]; exact hfit, ?_⟩
  rw [element, htake, List.cons_append, List.append_assoc, List.take_append_drop]

/-- A universal tag has one octet. -/
lemma IsUniversal.eq {t u : UInt8} {n : ℕ} (ht : IsUniversal t n b) (hu : IsUniversal u n b) :
    t = u := by
  have hval : ∀ m < 256, m = 64 * (m / 64) + (if UInt8.ofNat m &&& 0x20 == 0x20 then 32 else 0) +
      (UInt8.ofNat m &&& 0x1f).toNat := by decide +kernel
  have h1 := hval _ t.toNat_lt
  have h2 := hval _ u.toNat_lt
  rw [UInt8.ofNat_toNat] at h1 h2
  obtain ⟨-, ht1, ht2, ht3⟩ := ht
  obtain ⟨-, hu1, hu2, hu3⟩ := hu
  rw [ht1, ht2, ht3] at h1
  rw [hu1, hu2, hu3] at h2
  exact UInt8.toNat_inj.mp (h1.trans h2.symm)

lemma IsUniversal.lt {u : UInt8} {n : ℕ} (hu : IsUniversal u n b) : n < 31 := by
  obtain ⟨hhigh, -, rfl, -⟩ := hu
  have hlow :
      ∀ m < 256, isHighTag (UInt8.ofNat m) = false → (UInt8.ofNat m &&& 0x1f).toNat < 31 := by
    decide +kernel
  have h := hlow _ u.toNat_lt
  rw [UInt8.ofNat_toNat] at h
  exact h hhigh

/-- **A field** is read exactly where the builder could have written it. -/
lemma field_eq_some_iff {u : UInt8} {n : ℕ} (hu : IsUniversal u n b) {s c rest : Bytes} :
    field n b s = some (c, rest) ↔ c.length < 2 ^ 31 ∧ s = element u c ++ rest := by
  constructor
  · intro h
    obtain ⟨⟨v, bs⟩, hv, h⟩ := Option.bind_eq_some_iff.mp h
    simp only at h
    split_ifs at h with htag
    cases h
    obtain ⟨hcls, hnum, hcomp⟩ := htag
    obtain ⟨t, hhigh, htc, htn, htb, hlen, rfl⟩ := readTLV_eq_some hv (by rw [hnum]; exact hu.lt)
    have ht : IsUniversal t n b := ⟨hhigh, htc.trans hcls, htn.trans hnum, htb.trans hcomp⟩
    rw [ht.eq hu]
    exact ⟨hlen, rfl⟩
  · rintro ⟨hlen, rfl⟩
    exact field_element hu rest hlen

/-- An optional field is an element in front, or it is absent and nothing is read. -/
lemma optField_eq_some {u : UInt8} {n : ℕ} (hu : IsUniversal u n b) {s rest : Bytes}
    {r : Option Bytes} (h : optField n b s = some (r, rest)) :
    (∀ c ∈ r, c.length < 2 ^ 31) ∧ s = (r.map (element u)).getD [] ++ rest := by
  unfold optField at h
  split_ifs at h with hnil
  · cases h
    exact ⟨nofun, hnil⟩
  · obtain ⟨⟨cls, comp, tag, len, bs⟩, hhead, h⟩ := Option.bind_eq_some_iff.mp h
    simp only at h
    split_ifs at h with htag
    · obtain ⟨⟨v, bs'⟩, hv, h⟩ := Option.bind_eq_some_iff.mp h
      cases h
      have hfield : field n b s = some (v.content, bs') := by
        have hread := hv
        unfold readTLV at hread
        rw [hhead, Option.bind_eq_bind, Option.bind_some] at hread
        simp only at hread
        split_ifs at hread
        cases hread
        simp only [field, hv, Option.bind_eq_bind, Option.bind_some, if_pos htag]
      obtain ⟨hlen, rfl⟩ := (field_eq_some_iff hu).mp hfield
      refine ⟨fun c hc => ?_, rfl⟩
      cases hc
      exact hlen
    · cases h
      exact ⟨nofun, rfl⟩

/-- An optional field that is there is read. -/
lemma optField_element {u : UInt8} {n : ℕ} (hu : IsUniversal u n b) {c : Bytes} (rest : Bytes)
    (hlen : c.length < 2 ^ 31) :
    optField n b (element u c ++ rest) = some (some c, rest) := by
  obtain ⟨hhigh, hcls, htag, hcomp⟩ := hu
  rw [optField, if_neg (by rw [element]; exact List.cons_ne_nil _ _)]
  simp only [parseTagAndLength_element rest hhigh hlen, readTLV_element rest hhigh hlen,
    Option.bind_eq_bind, Option.bind_some, hcls, htag, hcomp, and_self, if_true]

/-- An optional field is absent in front of an element with another tag. -/
lemma optField_other {u : UInt8} {n m : ℕ} {b' : Bool} (hu : IsUniversal u m b') (hne : m ≠ n)
    {c : Bytes} (rest : Bytes) (hlen : c.length < 2 ^ 31) :
    optField n b (element u c ++ rest) = some (none, element u c ++ rest) := by
  obtain ⟨hhigh, hcls, htag, hcomp⟩ := hu
  rw [optField, if_neg (by rw [element]; exact List.cons_ne_nil _ _)]
  simp only [parseTagAndLength_element rest hhigh hlen, Option.bind_eq_bind, Option.bind_some, htag,
    hne, false_and, and_false, if_false]

end Asn1

end PkiCmp
