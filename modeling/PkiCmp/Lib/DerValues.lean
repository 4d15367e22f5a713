/-
Integers and object identifiers read back.

* `checkASN1Integer_intOctets`, `length_intOctets_le`: what the builder writes for an integer
  is minimal, and short for an integer of 64 bits;
* `read_base128`, `read_arcs`, `read_oid`: numbers in base 128 and identifiers, for any reader of
  them;
* `parseOID_oidOctets`: **identifiers** with small arcs.
-/
import PkiCmp.Lib.Der

namespace Der

/-! ### Integers -/

lemma intOctetsAux_of_small {k : ℕ} {v : ℤ} (h0 : -128 ≤ v) (h1 : v < 128) :
    intOctetsAux k v = [lowOctet v] := by
  cases k with
  | zero => rfl
  | succ k => rw [intOctetsAux, if_pos ⟨h0, h1⟩]

/-- The octets of an integer are minimal. -/
lemma checkASN1Integer_intOctetsAux (k : ℕ) {v : ℤ} (h : v.natAbs ≤ k + 127) :
    checkASN1Integer (intOctetsAux k v) = true := by
  induction k generalizing v with
  | zero => rfl
  | succ k ih =>
    rw [intOctetsAux]
    split_ifs with hv
    · rfl
    · have ih := ih (v := v / 256) (by omega)
      by_cases hsmall : -128 ≤ v / 256 ∧ v / 256 < 128
      · -- two octets, and one would not have been enough
        rw [intOctetsAux_of_small hsmall.1 hsmall.2, List.singleton_append, checkASN1Integer]
        have hlow := toNat_lowOctet v
        have hhigh := toNat_lowOctet (v / 256)
        have hbit : ∀ n < 256, ((UInt8.ofNat n &&& 0x80 == 0) = decide (n < 128)) ∧
            ((UInt8.ofNat n &&& 0x80 == 0x80) = decide (128 ≤ n)) := by decide +kernel
        obtain ⟨hb0, hb1⟩ := hbit _ (lowOctet v).toNat_lt
        rw [UInt8.ofNat_toNat] at hb0 hb1
        rw [hb0, hb1]
        simp only [Bool.not_eq_true', Bool.or_eq_false_iff, Bool.and_eq_false_iff,
          decide_eq_false_iff_not, beq_eq_false_iff_ne, ne_eq, UInt8.ext_iff,
          UInt8.reduceToNat]
        omega
      · cases hk : intOctetsAux k (v / 256) with
        | nil => exact absurd hk (intOctetsAux_ne_nil _ _)
        | cons a as =>
          cases as with
          | nil =>
            -- a single octet is an integer between -128 and 127
            exfalso
            have hval := intValue_intOctetsAux k (v := v / 256) (by omega)
            rw [hk] at hval
            have ha := a.toNat_lt
            simp only [intValue, beNat, List.foldl_cons, List.foldl_nil, Nat.zero_mul,
              Nat.zero_add, List.length_singleton, UInt8.lt_iff_toNat_lt,
              UInt8.reduceToNat] at hval
            norm_num at hval
            split_ifs at hval <;> omega
          | cons b bs =>
            rw [hk] at ih
            exact ih

lemma checkASN1Integer_intOctets (v : ℤ) : checkASN1Integer (intOctets v) = true :=
  checkASN1Integer_intOctetsAux _ (by omega)

lemma length_intOctetsAux_le (k j : ℕ) {v : ℤ} (h0 : -(128 * 256 ^ j) ≤ v)
    (h1 : v < 128 * 256 ^ j) : (intOctetsAux k v).length ≤ j + 1 := by
  induction k generalizing v j with
  | zero => simp [intOctetsAux]
  | succ k ih =>
    rw [intOctetsAux]
    split_ifs with hv
    · simp
    · cases j with
      | zero =>
        simp only [pow_zero, mul_one] at h0 h1
        exact absurd ⟨h0, h1⟩ hv
      | succ j =>
        have hlen := ih j (v := v / 256) (by rw [pow_succ] at h0; omega)
          (by rw [pow_succ] at h1; omega)
        rw [List.length_append, List.length_singleton]
        omega

/-- An integer of 64 bits has at most eight octets. -/
lemma length_intOctets_le {v : ℤ} (h0 : -2 ^ 63 ≤ v) (h1 : v < 2 ^ 63) :
    (intOctets v).length ≤ 8 :=
  length_intOctetsAux_le _ 7 (by norm_num at *; omega) (by norm_num at *; omega)

/-! ### Object identifiers -/

section Base128

-- a reader of numbers in base 128, from the number of groups and the value so far
variable {r : ℕ → ℕ → Bytes → Option (ℕ × Bytes)}
  (hmore : ∀ i ret d bs, i < 5 → ret < 2 ^ 24 → d < 128 → (i = 0 → d ≠ 0) →
    r i ret (UInt8.ofNat (d + 128) :: bs) = r (i + 1) (ret * 128 + d) bs)
  (hlast : ∀ i ret d bs, i < 5 → ret < 2 ^ 24 → d < 128 →
    r i ret (UInt8.ofNat d :: bs) = some (ret * 128 + d, bs))

lemma length_base128High_le (k j : ℕ) {m : ℕ} (h : m < 128 ^ j) :
    (base128High k m).length ≤ j := by
  induction k generalizing m j with
  | zero => simp [base128High]
  | succ k ih =>
    rw [base128High]
    split_ifs with hm
    · simp
    · cases j with
      | zero => simp at h; exact absurd h hm
      | succ j =>
        have hlen := ih j (m := m / 128) (by rw [pow_succ] at h; omega)
        rw [List.length_append, List.length_singleton]
        omega

include hmore in
/-- The groups above the last one. -/
lemma read_base128High (k : ℕ) {m : ℕ} (hk : m ≤ k) (hm : m < 2 ^ 24) (bs : Bytes) :
    r 0 0 (base128High k m ++ bs) = r (base128High k m).length m bs := by
  induction k generalizing m bs with
  | zero =>
    obtain rfl : m = 0 := by omega
    rfl
  | succ k ih =>
    rw [base128High]
    split_ifs with h0
    · subst h0
      rfl
    · have hlen : (base128High k (m / 128)).length ≤ 3 :=
        length_base128High_le k 3 (by norm_num at *; omega)
      rw [List.append_assoc, ih (by omega) (by omega), List.singleton_append,
        hmore _ _ _ _ (by omega) (by omega) (by omega), List.length_append,
        List.length_singleton, Nat.div_add_mod']
      -- the first group of a number is not zero
      intro hzero
      have hdiv : m / 128 = 0 := by
        by_contra hdiv
        cases k with
        | zero => omega
        | succ k =>
          rw [base128High, if_neg hdiv] at hzero
          simp at hzero
      omega

include hmore hlast in
/-- A number below `2 ^ 31` is read back. -/
lemma read_base128 {n : ℕ} (hn : n < 2 ^ 31) (bs : Bytes) :
    r 0 0 (base128 n ++ bs) = some (n, bs) := by
  have hlen : (base128High n (n / 128)).length ≤ 4 :=
    length_base128High_le n 4 (by norm_num at *; omega)
  rw [base128, List.append_assoc, read_base128High hmore n (by omega) (by omega),
    List.singleton_append, hlast _ _ _ _ (by omega) (by omega) (by omega), Nat.div_add_mod']

end Base128

/-- The octets of a group of seven bits, marked and not marked. -/
lemma groupOctets : ∀ d < 128, (UInt8.ofNat (d + 128) &&& 0x7f).toNat = d ∧
    (UInt8.ofNat (d + 128) &&& 0x80 == 0) = false ∧ (d ≠ 0 → UInt8.ofNat (d + 128) ≠ 0x80) ∧
    (UInt8.ofNat d &&& 0x7f).toNat = d ∧ (UInt8.ofNat d &&& 0x80 == 0) = true ∧
    UInt8.ofNat d ≠ 0x80 := by decide +kernel

lemma readBase128Int_base128 {n : ℕ} (hn : n < 2 ^ 31) (bs : Bytes) :
    readBase128Int 0 0 (base128 n ++ bs) = some (n, bs) := by
  refine read_base128 (fun i ret d bs hi hret hd h0 => ?_) (fun i ret d bs hi hret hd => ?_) hn bs
  · obtain ⟨hv, hb, hne, -⟩ := groupOctets d hd
    rw [readBase128Int, if_neg, hv, hb]
    · rfl
    · rintro (h | h | ⟨hzero, h⟩)
      · omega
      · omega
      · exact hne (h0 hzero) h
  · obtain ⟨-, -, -, hv, hb, hne⟩ := groupOctets d hd
    rw [readBase128Int, if_neg, hv, hb]
    · rfl
    · rintro (h | h | ⟨-, h⟩)
      · omega
      · omega
      · exact hne h

/-- An identifier whose numbers on the wire stay below `2 ^ 31`. -/
def smallOID : List ℕ → Bool
  | a :: b :: arcs => validOID (a :: b :: arcs) && a * 40 + b < 2 ^ 31 && arcs.all (· < 2 ^ 31)
  | _ => false

section Arcs

-- readers of one number and of a list of numbers
variable {r : Bytes → Option (ℕ × Bytes)} {a : ℕ → Bytes → Option (List ℕ)}
  (hread : ∀ n bs, n < 2 ^ 31 → r (base128 n ++ bs) = some (n, bs))
  (hnil : ∀ k, a k [] = some [])
  (hcons : ∀ k x s, a (k + 1) (x :: s) = do
    let (v, rest) ← r (x :: s)
    let vs ← a k rest
    some (v :: vs))

lemma base128_ne_nil (n : ℕ) : base128 n ≠ [] := by
  simp [base128]

include hread hnil hcons in
/-- A list of numbers is read back when there is fuel for each of its octets. -/
lemma read_arcs (l : List ℕ) (hl : ∀ n ∈ l, n < 2 ^ 31) (k : ℕ)
    (hk : (l.flatMap base128).length ≤ k) : a k (l.flatMap base128) = some l := by
  induction l generalizing k with
  | nil => exact hnil k
  | cons n l ih =>
    have hpos := List.length_pos_of_ne_nil (base128_ne_nil n)
    rw [List.flatMap_cons] at hk ⊢
    rw [List.length_append] at hk
    obtain ⟨k, rfl⟩ : ∃ k', k = k' + 1 := ⟨k - 1, by omega⟩
    have hn := hread n (l.flatMap base128) (hl n List.mem_cons_self)
    obtain ⟨x, s, hs⟩ := List.exists_cons_of_ne_nil
      (List.append_ne_nil_of_left_ne_nil (base128_ne_nil n) (l.flatMap base128))
    rw [hs] at hn ⊢
    rw [hcons, hn]
    simp only [Option.bind_eq_bind, Option.bind_some]
    rw [ih (fun m hm => hl m (List.mem_cons_of_mem _ hm)) k (by omega)]
    rfl

/-- The first number on the wire stands for the first two arcs. -/
lemma firstArcs {a b : ℕ} {arcs : List ℕ} (h : validOID (a :: b :: arcs) = true) :
    (if a * 40 + b < 80 then (a * 40 + b) / 40 :: (a * 40 + b) % 40 :: arcs
      else 2 :: (a * 40 + b - 80) :: arcs) = a :: b :: arcs := by
  simp only [validOID, Bool.and_eq_true, Bool.or_eq_true, decide_eq_true_eq] at h
  split_ifs with hlt
  · rw [show (a * 40 + b) / 40 = a by omega, show (a * 40 + b) % 40 = b by omega]
  · rw [show a * 40 + b - 80 = b by omega, show a = 2 by omega]

include hread hnil hcons in
/-- An identifier is read back. -/
lemma read_oid {oid : List ℕ} (h : smallOID oid = true) : (do
    let (v, rest) ← r (oidOctets oid)
    let arcs ← a rest.length rest
    some (if v < 80 then v / 40 :: v % 40 :: arcs else 2 :: (v - 80) :: arcs)) = some oid := by
  match oid with
  | [] => cases h
  | [_] => cases h
  | a :: b :: arcs =>
    simp only [smallOID, Bool.and_eq_true, decide_eq_true_eq, List.all_eq_true] at h
    obtain ⟨⟨hvalid, hfirst⟩, hrest⟩ := h
    simp only [oidOctets, hread _ _ hfirst, read_arcs hread hnil hcons arcs hrest _ le_rfl,
      Option.bind_eq_bind, Option.bind_some, firstArcs hvalid]

end Arcs

lemma parseOID_oidOctets {oid : List ℕ} (h : smallOID oid = true) :
    parseOID (oidOctets oid) = some oid :=
  read_oid (a := readArcs) (fun _ bs hn => readBase128Int_base128 hn bs)
    (fun k => by cases k <;> rfl) (fun _ _ _ => rfl) h

lemma smallOID_valid {oid : List ℕ} (h : smallOID oid = true) : validOID oid = true := by
  match oid with
  | [] => cases h
  | [_] => cases h
  | a :: b :: arcs =>
    simp only [smallOID, Bool.and_eq_true] at h
    exact h.1.1

end Der
