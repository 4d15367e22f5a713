/-
Distinguished encoding of tagged elements: the builder and the reader.

* `addASN1`: elements written with minimal length octets, failing on a
  high tag number or on content that does not fit four length octets;
* `readAnyASN1`: the matching reader, which refuses non-minimal lengths;
* `readAnyASN1_element`: **what the builder writes the reader reads back**, as
  long as the whole element stays below `2 ^ 32` octets;
* `readAnyASN1_append`: the reader splits its input and never rebuilds it;
* `readAnyASN1_eq_some_iff`: **what the reader accepts the builder could have written**;
* `intOctets`, `intValue_intOctets`: minimal two's complement integers;
* `base128`, `oidOctets`: object identifiers.
-/
import Mathlib.Data.List.Basic
import Mathlib.Tactic.Common
import Mathlib.Tactic.Linarith
import Mathlib.Tactic.Ring
import PkiCmp.Lib.Fallible

namespace Der

/-- Octet strings. -/
abbrev Bytes := List UInt8

instance lawfulBEq_bytes : LawfulBEq Bytes := inferInstance

instance lawfulBEq_head : LawfulBEq (Option UInt8) := inferInstance

/-! ### Tags -/

/-- Universal tags in use. -/
def tagBoolean : UInt8 := 0x01
def tagInteger : UInt8 := 0x02
def tagBitString : UInt8 := 0x03
def tagOctetString : UInt8 := 0x04
def tagNull : UInt8 := 0x05
def tagObjectIdentifier : UInt8 := 0x06
def tagUTF8String : UInt8 := 0x0c
def tagUTCTime : UInt8 := 0x17
def tagGeneralizedTime : UInt8 := 0x18
def tagSequence : UInt8 := 0x30
def tagSet : UInt8 := 0x31

/-- The context-specific primitive tag of number `n`. -/
def context (n : UInt8) : UInt8 := n ||| 0x80

/-- The context-specific constructed tag of number `n`. -/
def contextConstructed (n : UInt8) : UInt8 := n ||| 0x80 ||| 0x20

/-- A tag whose number announces further identifier octets. -/
def isHighTag (t : UInt8) : Bool := t &&& 0x1f == 0x1f

/-! ### Length octets -/

/-- The number written in big-endian base 256 by a list of octets. -/
def beNat (bs : Bytes) : ℕ := bs.foldl (fun acc b => acc * 256 + b.toNat) 0

/-- The octet of weight `256 ^ i` of a number. -/
def octet (n i : ℕ) : UInt8 := UInt8.ofNat (n / 256 ^ i % 256)

/-- The `k` low octets of a number, most significant first. -/
def beOctets : ℕ → ℕ → Bytes
  | 0, _ => []
  | k + 1, n => octet n k :: beOctets k n

/-- Minimal length octets of a content of `n` octets. -/
def lengthOctets (n : ℕ) : Bytes :=
  if n ≤ 0x7f then [UInt8.ofNat n]
  else if n ≤ 0xff then 0x81 :: beOctets 1 n
  else if n ≤ 0xffff then 0x82 :: beOctets 2 n
  else if n ≤ 0xffffff then 0x83 :: beOctets 3 n
  else 0x84 :: beOctets 4 n

/-- The element with a tag and a content. -/
def element (tag : UInt8) (content : Bytes) : Bytes :=
  tag :: (lengthOctets content.length ++ content)

/-! ### The builder -/

/-- What makes a builder fail by itself. -/
inductive BuildError where
  | highTag (tag : UInt8)
  | childTooLong
  | invalidOID (oid : List ℕ)
  | invalidTime
  deriving DecidableEq, Repr

/-- Error types that can carry a builder's own failures. -/
class BuildFailure (ε : Type) where
  ofBuild : BuildError → ε

instance : BuildFailure BuildError := ⟨id⟩

section Builder

variable {ε : Type} [BuildFailure ε]

/-- Add an element whose content is built by `f`. -/
def addASN1 (tag : UInt8) (f : Except ε Bytes) : Except ε Bytes :=
  if isHighTag tag then .error (BuildFailure.ofBuild (.highTag tag))
  else do
    let content ← f
    if content.length > 0xfffffffe then .error (BuildFailure.ofBuild .childTooLong)
    else pure (element tag content)

/-- Build one part after the other; the first failure is the result. -/
def concat : List (Except ε Bytes) → Except ε Bytes
  | [] => .ok []
  | f :: fs => do
      let b ← f
      let bs ← concat fs
      pure (b ++ bs)

/-- Build the part only when the condition holds. -/
def optional (c : Bool) (f : Except ε Bytes) : Except ε Bytes := if c then f else .ok []

end Builder

/-! ### The reader -/

/-- One element as the reader finds it: its octets as received, and its content. -/
structure Element where
  tag : UInt8
  raw : Bytes
  content : Bytes
  deriving DecidableEq, Repr

/-- Identifier and length octets: the tag, how many octets they take and the
length of the content. -/
def readHeader : Bytes → Option (UInt8 × ℕ × ℕ)
  | tag :: lenByte :: rest =>
    if isHighTag tag then none
    else if lenByte &&& 0x80 == 0 then some (tag, 2, lenByte.toNat)
    else
      let lenLen := (lenByte &&& 0x7f).toNat
      if lenLen = 0 ∨ 4 < lenLen ∨ rest.length < lenLen then none
      else
        let len32 := beNat (rest.take lenLen)
        if len32 < 128 then none
        else if len32 / 256 ^ (lenLen - 1) = 0 then none
        else if 2 ^ 32 ≤ 2 + lenLen + len32 then none
        else some (tag, 2 + lenLen, len32)
  | _ => none

/-- Read the first element of the input. -/
def readAnyASN1 (s : Bytes) : Option (Element × Bytes) :=
  match readHeader s with
  | none => none
  | some (tag, headerLen, len) =>
    if s.length < headerLen + len then none
    else some (⟨tag, s.take (headerLen + len), (s.take (headerLen + len)).drop headerLen⟩,
      s.drop (headerLen + len))

/-- Read the first element when it has the given tag. -/
def readASN1 (tag : UInt8) (s : Bytes) : Option (Element × Bytes) :=
  match readAnyASN1 s with
  | some (e, rest) => if e.tag = tag then some (e, rest) else none
  | none => none

/-- The next octet is the given tag. -/
def peekASN1Tag (tag : UInt8) : Bytes → Bool
  | [] => false
  | b :: _ => b == tag

/-! ### Reading back what was built -/

lemma toNat_octet (n i : ℕ) : (octet n i).toNat = n / 256 ^ i % 256 := by
  simp [octet]

lemma length_beOctets (k n : ℕ) : (beOctets k n).length = k := by
  induction k with
  | zero => rfl
  | succ k ih => rw [beOctets, List.length_cons, ih]

/-- The accumulator form of `beNat_beOctets`. -/
lemma foldl_beOctets (k n acc : ℕ) :
    (beOctets k n).foldl (fun acc b => acc * 256 + b.toNat) acc
      = acc * 256 ^ k + n % 256 ^ k := by
  induction k generalizing acc with
  | zero => simp [beOctets, Nat.mod_one]
  | succ k ih =>
    rw [beOctets, List.foldl_cons, ih, toNat_octet, Nat.mod_pow_succ]
    ring

/-- The `k` low octets of a number write it modulo `256 ^ k`. -/
lemma beNat_beOctets (k n : ℕ) : beNat (beOctets k n) = n % 256 ^ k := by
  rw [beNat, foldl_beOctets]
  omega

lemma length_element (tag : UInt8) (c : Bytes) :
    (element tag c).length = 1 + (lengthOctets c.length).length + c.length := by
  simp [element]
  omega

variable {tag : UInt8}

/-- A longer content makes a longer element. -/
lemma length_element_mono {c c' : Bytes} (h : c.length ≤ c'.length) :
    (element tag c).length ≤ (element tag c').length := by
  rw [length_element, length_element]
  unfold lengthOctets
  split_ifs <;> simp only [List.length_cons, length_beOctets, List.length_nil] <;> omega

/-- The tag and the length take at most six octets. -/
lemma length_element_le (tag : UInt8) (c : Bytes) : (element tag c).length ≤ c.length + 6 := by
  rw [length_element]
  unfold lengthOctets
  split_ifs <;> simp only [List.length_cons, length_beOctets, List.length_nil] <;> omega

/-- A long form is accepted when it is minimal and does not overflow. -/
lemma readHeader_long {lenByte : UInt8} {k n : ℕ} (rest : Bytes) (ht : isHighTag tag = false)
    (hbit : (lenByte &&& 0x80 == 0) = false) (hnum : (lenByte &&& 0x7f).toNat = k) (hlo : 1 ≤ k)
    (hhi : k ≤ 4) (hmin : 128 ≤ n) (htop : 256 ^ (k - 1) ≤ n) (hfit : n < 256 ^ k)
    (hover : 2 + k + n < 2 ^ 32) :
    readHeader (tag :: lenByte :: (beOctets k n ++ rest)) = some (tag, 2 + k, n) := by
  have htake : (beOctets k n ++ rest).take k = beOctets k n := List.take_left' (length_beOctets k n)
  have hdiv : n / 256 ^ (k - 1) ≠ 0 := (Nat.div_pos htop (by positivity)).ne'
  have hlen : ¬(k = 0 ∨ 4 < k ∨ (beOctets k n ++ rest).length < k) := by
    rw [List.length_append, length_beOctets]
    omega
  simp only [readHeader, ht, hbit, hnum, htake, beNat_beOctets, Nat.mod_eq_of_lt hfit,
    Bool.false_eq_true, if_false]
  rw [if_neg hlen, if_neg (by omega), if_neg hdiv, if_neg (by omega)]

/-- The reader finds the tag and the length the builder wrote. -/
lemma readHeader_element {c : Bytes} (rest : Bytes) (ht : isHighTag tag = false)
    (hlen : (element tag c).length < 2 ^ 32) :
    readHeader (element tag c ++ rest) =
      some (tag, 1 + (lengthOctets c.length).length, c.length) := by
  rw [length_element] at hlen
  generalize hn : c.length = n at hlen
  simp only [element, hn]
  -- one case for each number of length octets
  unfold lengthOctets at hlen ⊢
  split_ifs at hlen ⊢ with h1 h2 h3 h4
  · have hshort : ∀ m < 128, (UInt8.ofNat m &&& 0x80 == 0) = true ∧ (UInt8.ofNat m).toNat = m := by
      decide
    obtain ⟨hbit, hval⟩ := hshort n (by omega)
    simp only [List.cons_append, List.nil_append, readHeader, ht, hbit, hval,
      Bool.false_eq_true, if_false, if_true, List.length_singleton]
  all_goals
    simp only [List.length_cons, length_beOctets] at hlen
    simp only [List.cons_append, List.append_assoc, List.length_cons, length_beOctets]
    exact readHeader_long _ ht (by decide) (by decide) (by decide) (by decide) (by omega)
      (by norm_num; omega) (by omega) (by omega)

/-- **Reading back**: the reader takes the element the builder wrote off the
front of its input. -/
theorem readAnyASN1_element {c : Bytes} (rest : Bytes) (ht : isHighTag tag = false)
    (hlen : (element tag c).length < 2 ^ 32) :
    readAnyASN1 (element tag c ++ rest) = some (⟨tag, element tag c, c⟩, rest) := by
  have hhead : (tag :: lengthOctets c.length).length = 1 + (lengthOctets c.length).length := by
    rw [List.length_cons, Nat.add_comm]
  have hlen' : (element tag c ++ rest).length
      = 1 + (lengthOctets c.length).length + c.length + rest.length := by
    rw [List.length_append, length_element]
  simp only [readAnyASN1, readHeader_element rest ht hlen]
  rw [if_neg (by omega), ← length_element, List.take_left, List.drop_left]
  have hdrop : (element tag c).drop (1 + (lengthOctets c.length).length) = c :=
    List.drop_left' hhead
  rw [hdrop]

/-- A length that does not fit is refused. -/
lemma readHeader_overflow (tag : UInt8) {n : ℕ} (rest : Bytes) (hn : n < 2 ^ 32)
    (hover : 2 ^ 32 ≤ 6 + n) : readHeader (tag :: 0x84 :: (beOctets 4 n ++ rest)) = none := by
  have htake : (beOctets 4 n ++ rest).take 4 = beOctets 4 n := List.take_left' (length_beOctets 4 n)
  have hnum : ((0x84 : UInt8) &&& 0x7f).toNat = 4 := by decide
  have hbit : ((0x84 : UInt8) &&& 0x80 == 0) = false := by decide
  simp only [readHeader, hnum, hbit, htake, beNat_beOctets, Bool.false_eq_true, if_false]
  rw [Nat.mod_eq_of_lt (by omega)]
  split_ifs <;> rfl

/-- What the reader accepts is shorter than `2 ^ 32`. -/
lemma length_lt_of_readAnyASN1 {c : Bytes} (hc : c.length ≤ 0xfffffffe)
    (h : readAnyASN1 (element tag c) ≠ none) : (element tag c).length < 2 ^ 32 := by
  by_contra hlen
  rw [length_element] at hlen
  have hl : lengthOctets c.length = 0x84 :: beOctets 4 c.length := by
    unfold lengthOctets at hlen ⊢
    split_ifs at hlen ⊢ <;>
      simp only [List.length_cons, length_beOctets, List.length_nil] at hlen <;>
      first | rfl | omega
  rw [hl, List.length_cons, length_beOctets] at hlen
  apply h
  rw [readAnyASN1, element, hl, List.cons_append, readHeader_overflow _ _ (by omega) (by omega)]

/-- What is read from one element, when it can be read at all, is this element. -/
lemma readAnyASN1_element_inv (ht : isHighTag tag = false) {c rest : Bytes} {e : Element}
    (hc : c.length ≤ 0xfffffffe) (h : readAnyASN1 (element tag c) = some (e, rest)) :
    (element tag c).length < 2 ^ 32 ∧ e = ⟨tag, element tag c, c⟩ ∧ rest = [] := by
  have hshort := length_lt_of_readAnyASN1 hc (by rw [h]; nofun)
  have hread := readAnyASN1_element [] ht hshort
  rw [List.append_nil, h] at hread
  cases hread
  exact ⟨hshort, rfl, rfl⟩

/-- The reader splits its input. -/
theorem readAnyASN1_append {s rest : Bytes} {e : Element} (h : readAnyASN1 s = some (e, rest)) :
    s = e.raw ++ rest := by
  unfold readAnyASN1 at h
  split at h
  · cases h
  · split_ifs at h
    cases h
    exact (List.take_append_drop _ _).symm

/-! ### What the reader accepts -/

lemma foldl_beNat (bs : Bytes) (acc : ℕ) :
    bs.foldl (fun acc b => acc * 256 + b.toNat) acc = acc * 256 ^ bs.length + beNat bs := by
  induction bs generalizing acc with
  | nil => simp [beNat]
  | cons b bs ih =>
    rw [beNat, List.foldl_cons, List.foldl_cons, ih, ih, List.length_cons, pow_succ]
    ring

lemma beNat_cons (b : UInt8) (bs : Bytes) :
    beNat (b :: bs) = b.toNat * 256 ^ bs.length + beNat bs := by
  rw [beNat, List.foldl_cons, foldl_beNat]
  simp

lemma beNat_lt (bs : Bytes) : beNat bs < 256 ^ bs.length := by
  induction bs with
  | nil => simp [beNat]
  | cons b bs ih =>
    have hb := b.toNat_lt
    rw [beNat_cons, List.length_cons, pow_succ]
    nlinarith

/-- A number is written by the octets it was read from. -/
lemma beOctets_beNat (bs : Bytes) : beOctets bs.length (beNat bs) = bs := by
  have hlow : ∀ (k n m : ℕ), beOctets k (m * 256 ^ k + n) = beOctets k n := by
    intro k
    induction k with
    | zero => intros; rfl
    | succ k ih =>
      intro n m
      have hp : 0 < 256 ^ k := by positivity
      rw [beOctets, beOctets, pow_succ, show m * (256 ^ k * 256) = (m * 256) * 256 ^ k by ring, ih,
        octet, octet, Nat.add_comm, Nat.add_mul_div_right _ _ hp, Nat.add_mul_mod_self_right]
  induction bs with
  | nil => rfl
  | cons b bs ih =>
    have hp : 0 < 256 ^ bs.length := by positivity
    rw [beNat_cons, List.length_cons, beOctets, hlow, ih, octet, Nat.add_comm,
      Nat.add_mul_div_right _ _ hp, Nat.div_eq_of_lt (beNat_lt bs), Nat.zero_add,
      Nat.mod_eq_of_lt b.toNat_lt, UInt8.ofNat_toNat]

/-- The length octets that are accepted are the minimal ones. -/
lemma lengthOctets_beNat {lenByte : UInt8} {ls : Bytes} (hbit : (lenByte &&& 0x80 == 0) = false)
    (hnum : (lenByte &&& 0x7f).toNat = ls.length) (hlo : ls.length ≠ 0) (hhi : ls.length ≤ 4)
    (hmin : 128 ≤ beNat ls) (htop : beNat ls / 256 ^ (ls.length - 1) ≠ 0) :
    lengthOctets (beNat ls) = lenByte :: ls := by
  have hbyte : ∀ n < 256, (UInt8.ofNat n &&& 0x80 == 0) = false →
      UInt8.ofNat n = 0x80 + (UInt8.ofNat n &&& 0x7f) := by decide +kernel
  have hlen : lenByte = 0x80 + UInt8.ofNat ls.length := by
    have h := hbyte _ lenByte.toNat_lt
    rw [UInt8.ofNat_toNat] at h
    rw [← hnum, UInt8.ofNat_toNat]
    exact h hbit
  have hoct := beOctets_beNat ls
  have hlt := beNat_lt ls
  have htop' : 256 ^ (ls.length - 1) ≤ beNat ls := by
    by_contra h
    exact htop (Nat.div_eq_of_lt (by omega))
  unfold lengthOctets
  obtain h | h | h | h : ls.length = 1 ∨ ls.length = 2 ∨ ls.length = 3 ∨ ls.length = 4 := by omega
  all_goals
    rw [h] at hlen hlt htop' hoct
    norm_num at hlt htop'
    split_ifs <;> first | omega | (rw [hoct, hlen]; rfl)

/-- What `readHeader` accepts is a minimal header. -/
lemma readHeader_eq_some {s : Bytes} {headerLen n : ℕ}
    (h : readHeader s = some (tag, headerLen, n)) :
    isHighTag tag = false ∧ headerLen = 1 + (lengthOctets n).length ∧ headerLen + n < 2 ^ 32 ∧
      ∃ rest, s = tag :: (lengthOctets n ++ rest) := by
  unfold readHeader at h
  split at h
  · next tag' lenByte rest =>
    dsimp only at h
    split_ifs at h with ht hshort hlen hmin htop hover
    · cases h
      have hl : lenByte.toNat ≤ 0x7f := by
        have hbyte : ∀ n < 256, (UInt8.ofNat n &&& 0x80 == 0) = true → n ≤ 0x7f := by decide +kernel
        have h := hbyte _ lenByte.toNat_lt
        rw [UInt8.ofNat_toNat] at h
        exact h hshort
      refine ⟨by simpa using ht, ?_, by omega, rest, ?_⟩
      · rw [lengthOctets, if_pos hl]
        rfl
      · rw [lengthOctets, if_pos hl, UInt8.ofNat_toNat]
        rfl
    · cases h
      push Not at hlen hmin hover
      have hlenls : (rest.take (lenByte &&& 0x7f).toNat).length = (lenByte &&& 0x7f).toNat :=
        List.length_take_of_le hlen.2.2
      have hoct := lengthOctets_beNat (by simpa using hshort) hlenls.symm (by omega) (by omega)
        hmin (by rwa [hlenls])
      refine ⟨by simpa using ht, ?_, by omega, rest.drop (lenByte &&& 0x7f).toNat, ?_⟩
      · rw [hoct, List.length_cons, hlenls]
        omega
      · rw [hoct, List.cons_append, List.take_append_drop]
  · cases h

/-- **The reader** takes an element off the front of its input exactly when the builder
could have written it there. -/
theorem readAnyASN1_eq_some_iff {s rest : Bytes} {e : Element} :
    readAnyASN1 s = some (e, rest) ↔
      isHighTag e.tag = false ∧ e.raw = element e.tag e.content ∧ e.raw.length < 2 ^ 32 ∧
        s = e.raw ++ rest := by
  constructor
  · intro h
    have happ := readAnyASN1_append h
    unfold readAnyASN1 at h
    split at h
    · cases h
    · next tag headerLen n hh =>
      obtain ⟨ht, hl, hfit, tail, rfl⟩ := readHeader_eq_some hh
      split_ifs at h with hlen
      cases h
      simp only [List.length_cons, List.length_append] at hlen
      have htail : (tail.take n).length = n := List.length_take_of_le (by omega)
      have hraw : (tag :: (lengthOctets n ++ tail)).take (headerLen + n) =
          tag :: (lengthOctets n ++ tail.take n) := by
        rw [hl, show 1 + (lengthOctets n).length + n = (lengthOctets n).length + n + 1 by omega,
          List.take_succ_cons, List.take_length_add_append]
      have hcontent : (tag :: (lengthOctets n ++ tail.take n)).drop headerLen = tail.take n := by
        rw [hl, Nat.add_comm, List.drop_succ_cons, List.drop_left]
      refine ⟨ht, ?_, ?_, happ⟩
      · simp only [hraw, hcontent]
        rw [element, htail]
      · simp only [hraw, List.length_cons, List.length_append, htail]
        omega
  · rintro ⟨ht, hraw, hlen, rfl⟩
    rw [hraw] at hlen ⊢
    rw [readAnyASN1_element rest ht hlen, ← hraw]

/-- Reading an element needs no more than its octets. -/
lemma readAnyASN1_raw {s rest : Bytes} {e : Element} (h : readAnyASN1 s = some (e, rest))
    (rest' : Bytes) : readAnyASN1 (e.raw ++ rest') = some (e, rest') := by
  obtain ⟨ht, hraw, hlen, -⟩ := readAnyASN1_eq_some_iff.mp h
  exact readAnyASN1_eq_some_iff.mpr ⟨ht, hraw, hlen, rfl⟩

lemma readASN1_eq_some_iff {s rest : Bytes} {e : Element} :
    readASN1 tag s = some (e, rest) ↔ readAnyASN1 s = some (e, rest) ∧ e.tag = tag := by
  unfold readASN1
  cases readAnyASN1 s with
  | none => simp
  | some r =>
    obtain ⟨e', rest'⟩ := r
    simp only [Option.some.injEq, Prod.mk.injEq]
    split_ifs with ht
    · simp only [Option.some.injEq, Prod.mk.injEq]
      constructor
      · rintro ⟨rfl, rfl⟩
        exact ⟨⟨rfl, rfl⟩, ht⟩
      · exact fun h => h.1
    · constructor
      · rintro ⟨⟩
      · rintro ⟨⟨rfl, rfl⟩, h⟩
        exact absurd h ht

/-- An element determines its tag and its content. -/
lemma element_inj {t t' : UInt8} {c c' : Bytes} (h : element t c = element t' c') :
    t = t' ∧ c = c' := by
  have hlen : c.length = c'.length := by
    have h := congrArg List.length h
    rw [length_element, length_element] at h
    unfold lengthOctets at h
    split_ifs at h <;> simp only [List.length_cons, length_beOctets, List.length_nil] at h <;> omega
  obtain ⟨rfl, htail⟩ := List.cons.inj h
  rw [hlen] at htail
  exact ⟨rfl, List.append_cancel_left htail⟩

section Builder

variable {ε : Type} [BuildFailure ε]

/-- What a successful `addASN1` built. -/
lemma addASN1_eq_ok {tag : UInt8} {f : Except ε Bytes} {b : Bytes} :
    addASN1 tag f = .ok b ↔
      isHighTag tag = false ∧ ∃ c, f = .ok c ∧ c.length ≤ 0xfffffffe ∧ b = element tag c := by
  unfold addASN1
  cases f with
  | error e => cases isHighTag tag <;> simp [bind, Except.bind]
  | ok c =>
    cases isHighTag tag <;> simp only [bind, Except.bind, Bool.false_eq_true, if_false, if_true]
    · split_ifs with h
      · simp
        omega
      · simp [pure, Except.pure, eq_comm]
        omega
    · simp

omit [BuildFailure ε] in
/-- What a successful `concat` built. -/
lemma concat_cons_eq_ok {f : Except ε Bytes} {fs : List (Except ε Bytes)} {b : Bytes} :
    concat (f :: fs) = .ok b ↔ ∃ b1 b2, f = .ok b1 ∧ concat fs = .ok b2 ∧ b = b1 ++ b2 := by
  cases f <;> cases h : concat fs <;>
    simp [concat, h, bind, Except.bind, pure, Except.pure, eq_comm]

omit [BuildFailure ε] in
/-- What a successful `optional` built. -/
lemma optional_eq_ok {c : Bool} {f : Except ε Bytes} {b : Bytes} :
    Der.optional c f = .ok b ↔ (c = true ∧ f = .ok b) ∨ (c = false ∧ b = []) := by
  cases c <;> simp [Der.optional, eq_comm]

end Builder

/-! ### Integers -/

/-- The low octet of an integer. -/
def lowOctet (v : ℤ) : UInt8 := UInt8.ofNat (v % 256).toNat

/-- Minimal two's complement octets, with a bound on their number. -/
def intOctetsAux : ℕ → ℤ → Bytes
  | 0, v => [lowOctet v]
  | k + 1, v =>
    if -128 ≤ v ∧ v < 128 then [lowOctet v] else intOctetsAux k (v / 256) ++ [lowOctet v]

/-- Minimal two's complement octets of an integer. -/
def intOctets (v : ℤ) : Bytes := intOctetsAux v.natAbs v

/-- The integer that two's complement octets write. -/
def intValue (bs : Bytes) : ℤ :=
  match bs with
  | [] => 0
  | b :: _ => if b < 0x80 then beNat bs else beNat bs - 256 ^ bs.length

/-- The octets of an integer are minimal: the first nine bits are not all equal. -/
def checkASN1Integer : Bytes → Bool
  | [] => false
  | [_] => true
  | b0 :: b1 :: _ =>
    !((b0 == 0 && b1 &&& 0x80 == 0) || (b0 == 0xff && b1 &&& 0x80 == 0x80))

/-- Read an INTEGER of any size. -/
def readASN1BigInt (s : Bytes) : Option (ℤ × Bytes) :=
  match readASN1 tagInteger s with
  | some (e, rest) => if checkASN1Integer e.content then some (intValue e.content, rest) else none
  | none => none

/-- Read an INTEGER that fits 64 bits. -/
def readASN1Int64 (s : Bytes) : Option (ℤ × Bytes) :=
  match readASN1 tagInteger s with
  | some (e, rest) =>
    if checkASN1Integer e.content && e.content.length ≤ 8 then some (intValue e.content, rest)
    else none
  | none => none

lemma toNat_lowOctet (v : ℤ) : ((lowOctet v).toNat : ℤ) = v % 256 := by
  have h0 := Int.emod_nonneg v (by norm_num : (256 : ℤ) ≠ 0)
  have h1 := Int.emod_lt_of_pos v (by norm_num : (0 : ℤ) < 256)
  rw [lowOctet, UInt8.toNat_ofNat', Nat.mod_eq_of_lt (by omega), Int.toNat_of_nonneg h0]

lemma beNat_concat (bs : Bytes) (b : UInt8) : beNat (bs ++ [b]) = beNat bs * 256 + b.toNat := by
  simp [beNat]

lemma intValue_concat {bs : Bytes} (h : bs ≠ []) (b : UInt8) :
    intValue (bs ++ [b]) = intValue bs * 256 + b.toNat := by
  obtain ⟨a, as, rfl⟩ := List.exists_cons_of_ne_nil h
  have hbe := beNat_concat (a :: as) b
  simp only [List.cons_append] at hbe
  simp only [List.cons_append, intValue, hbe, List.length_cons, List.length_append,
    List.length_nil]
  split_ifs
  · push_cast
    ring
  · push_cast
    ring

/-- A single octet writes the integers from `-128` to `127`. -/
lemma intValue_singleton_lowOctet {v : ℤ} (h0 : -128 ≤ v) (h1 : v < 128) :
    intValue [lowOctet v] = v := by
  have hv := toNat_lowOctet v
  simp only [intValue, beNat, List.foldl_cons, List.foldl_nil, Nat.zero_mul, Nat.zero_add,
    List.length_singleton, UInt8.lt_iff_toNat_lt]
  split_ifs with h <;> simp at h <;> omega

lemma intOctetsAux_ne_nil (k : ℕ) (v : ℤ) : intOctetsAux k v ≠ [] := by
  cases k with
  | zero => simp [intOctetsAux]
  | succ k =>
    rw [intOctetsAux]
    split_ifs <;> simp

lemma intValue_intOctetsAux (k : ℕ) {v : ℤ} (h : v.natAbs ≤ k + 127) :
    intValue (intOctetsAux k v) = v := by
  induction k generalizing v with
  | zero => exact intValue_singleton_lowOctet (by omega) (by omega)
  | succ k ih =>
    rw [intOctetsAux]
    split_ifs with hv
    · exact intValue_singleton_lowOctet hv.1 hv.2
    · rw [intValue_concat (intOctetsAux_ne_nil _ _), ih (by omega), toNat_lowOctet]
      omega

/-- The octets of an integer write that integer. -/
lemma intValue_intOctets (v : ℤ) : intValue (intOctets v) = v :=
  intValue_intOctetsAux _ (by omega)

/-- Different integers have different octets. -/
lemma intOctets_injective : Function.Injective intOctets :=
  Function.LeftInverse.injective intValue_intOctets

/-! ### Object identifiers -/

/-- The seven-bit groups above the last one, with a bound on their number. -/
def base128High : ℕ → ℕ → Bytes
  | 0, _ => []
  | k + 1, n =>
    if n = 0 then [] else base128High k (n / 128) ++ [UInt8.ofNat (n % 128 + 128)]

/-- A number in base 128, every octet but the last marked. -/
def base128 (n : ℕ) : Bytes := base128High n (n / 128) ++ [UInt8.ofNat (n % 128)]

/-- The arcs can be encoded: at least two, the first two in range. -/
def validOID : List ℕ → Bool
  | a :: b :: _ => a ≤ 2 && (1 < a || b < 40)
  | _ => false

/-- The content octets of an object identifier. -/
def oidOctets : List ℕ → Bytes
  | a :: b :: arcs => base128 (a * 40 + b) ++ arcs.flatMap base128
  | _ => []

/-- Read one base 128 number below `2 ^ 31`. -/
def readBase128Int (i ret : ℕ) : Bytes → Option (ℕ × Bytes)
  | [] => none
  | b :: bs =>
    if i = 5 ∨ 2 ^ 24 ≤ ret ∨ (i = 0 ∧ b = 0x80) then none
    else
      let ret' := ret * 128 + (b &&& 0x7f).toNat
      if b &&& 0x80 == 0 then some (ret', bs) else readBase128Int (i + 1) ret' bs

/-- The arcs after the first two. -/
def readArcs : ℕ → Bytes → Option (List ℕ)
  | _, [] => some []
  | 0, _ :: _ => none
  | fuel + 1, s => do
      let (v, rest) ← readBase128Int 0 0 s
      let vs ← readArcs fuel rest
      pure (v :: vs)

/-- Decode the content octets of an object identifier. -/
def parseOID (content : Bytes) : Option (List ℕ) := do
  let (v, rest) ← readBase128Int 0 0 content
  let arcs ← readArcs rest.length rest
  pure (if v < 80 then v / 40 :: v % 40 :: arcs else 2 :: (v - 80) :: arcs)

/-- Read an OBJECT IDENTIFIER. -/
def readASN1ObjectIdentifier (s : Bytes) : Option (List ℕ × Bytes) := do
  let (e, rest) ← readASN1 tagObjectIdentifier s
  let oid ← parseOID e.content
  pure (oid, rest)

section Builder

variable {ε : Type} [BuildFailure ε]

/-- Add an INTEGER. -/
def addASN1Int (v : ℤ) : Except ε Bytes := addASN1 tagInteger (.ok (intOctets v))

/-- Add an OBJECT IDENTIFIER. -/
def addASN1ObjectIdentifier (oid : List ℕ) : Except ε Bytes :=
  addASN1 tagObjectIdentifier
    (if validOID oid then .ok (oidOctets oid) else .error (BuildFailure.ofBuild (.invalidOID oid)))

/-- Add an OCTET STRING. -/
def addASN1OctetString (b : Bytes) : Except ε Bytes := addASN1 tagOctetString (.ok b)

end Builder

example : oidOctets [1, 2, 840, 113549] = [0x2a, 0x86, 0x48, 0x86, 0xf7, 0x0d] := by decide

example : parseOID [0x2a, 0x86, 0x48, 0x86, 0xf7, 0x0d] = some [1, 2, 840, 113549] := by decide

end Der
