/-
Round trips: what an encoder writes a decoder reads back.

Encoders and decoders are written separately, part by part.  `Conveys` relates the two for one
part: whatever may follow the part on the wire, the decoder takes exactly the octets of the
encoder off its input and returns the value that was meant.  Which octets a part can start
with, and which ones can follow it, is in the statement, since optional parts are told apart
by the first octet only.

* `Conveys`: an encoder and a decoder of one value;
* `Conveys.cons`, `Conveys.within`, `Conveys.many`: sequences, tagged contents and lists;
* `Conveys.present`, `Conveys.absent`: optional parts.
-/
import PkiCmp.Lib.DerValues
import PkiCmp.Types

namespace PkiCmp

open Der

/-! ### First octets -/

/-- The first octets of a part followed by another one; `none` is the first octet of nothing. -/
def seqHeads (H K : List (Option UInt8)) : List (Option UInt8) :=
  H.filter Option.isSome ++ if none ∈ H then K else []

lemma head_append_mem {H K : List (Option UInt8)} {b b' : Bytes} (hb : b.head? ∈ H)
    (hb' : b'.head? ∈ K) : (b ++ b').head? ∈ seqHeads H K := by
  cases b with
  | nil =>
    refine List.mem_append_right _ ?_
    rw [if_pos (show none ∈ H from hb)]
    exact hb'
  | cons x b => exact List.mem_append_left _ (List.mem_filter.mpr ⟨hb, rfl⟩)

lemma peekASN1Tag_eq_false {F : List (Option UInt8)} {b : Bytes} {tag : UInt8} (hb : b.head? ∈ F)
    (hF : some tag ∉ F) : peekASN1Tag tag b = false := by
  cases b with
  | nil => rfl
  | cons x b =>
    refine beq_eq_false_iff_ne.mpr ?_
    rintro rfl
    exact hF hb

/-! ### Optional parts of a decoder -/

/-- A part that is there when the next octet is its tag, else the default. -/
def Reader.optional {α : Type} (tag : UInt8) (r : Reader α) (default : α) : Reader α := do
  if ← Reader.peek tag then r else pure default

/-- An optional part inside an element of its own. -/
def Reader.explicit {α : Type} (d : String) (tag : UInt8) (r : Reader α) : Reader (Option α) :=
  Reader.optional tag ((do let c ← Reader.element d tag; Reader.within c r) >>= fun a =>
    pure (some a)) none

/-- A part that is there unless nothing is left. -/
def Reader.unlessEmpty {α : Type} (r : Reader α) (default : α) : Reader α := do
  if ← Reader.empty then pure default else r

lemma Reader.within_eq_ok {α : Type} {c left : Bytes} {r : Reader α} {a : α}
    (h : r c = .ok (a, left)) (s : Bytes) : Reader.within c r s = .ok (a, s) := by
  simp [Reader.within, StateT.run, h]

/-- One more value of a list. -/
lemma Reader.manyAux_cons {α : Type} {r : Reader α} {b rest left : Bytes} {a : α} {as : List α}
    {fuel : ℕ} (hb : b ≠ []) (ha : r b = .ok (a, rest))
    (has : Reader.manyAux r fuel rest = .ok (as, left)) :
    Reader.manyAux r (fuel + 1) b = .ok (a :: as, left) := by
  obtain ⟨x, b, rfl⟩ := List.exists_cons_of_ne_nil hb
  simp [Reader.manyAux, StateT.run, ha, has, bind, Except.bind]

/-- What follows an alternative follows each of its branches. -/
lemma Reader.ite_bind {α β : Type} {c : Prop} [Decidable c] (r r' : Reader α) (k : α → Reader β) :
    ((if c then r else r') >>= k) = if c then r >>= k else r' >>= k := by
  split_ifs <;> rfl

/-! ### The relation -/

/-- A content too long for the builder. -/
def tooLong : GoError := BuildFailure.ofBuild BuildError.childTooLong

/-- The encoder writes these octets, unless they are too long. -/
def Writes (f : Except GoError Bytes) (b : Bytes) : Prop := f = .error tooLong ∨ f = .ok b

namespace Writes

lemma addASN1 {t : UInt8} {f : Except GoError Bytes} {c : Bytes} (ht : isHighTag t = false)
    (h : Writes f c) : Writes (addASN1 t f) (element t c) := by
  obtain rfl | rfl := h
  · refine .inl ?_
    simp [Der.addASN1, ht, bind, Except.bind]
  · by_cases hlen : c.length > 0xfffffffe
    · refine .inl ?_
      simp [Der.addASN1, ht, bind, Except.bind, hlen, tooLong]
    · exact .inr (addASN1_eq_ok.mpr ⟨ht, c, rfl, by omega, rfl⟩)

lemma cons {f : Except GoError Bytes} {fs : List (Except GoError Bytes)} {b b' : Bytes}
    (h : Writes f b) (h' : Writes (concat fs) b') : Writes (concat (f :: fs)) (b ++ b') := by
  obtain rfl | rfl := h
  · exact .inl rfl
  obtain h' | h' := h'
  · refine .inl ?_
    simp [concat, h', bind, Except.bind]
  · exact .inr (concat_cons_eq_ok.mpr ⟨b, b', rfl, h', rfl⟩)

lemma flatMap {α : Type} {f : α → Except GoError Bytes} {g : α → Bytes} {l : List α}
    (h : ∀ x ∈ l, Writes (f x) (g x)) : Writes (concat (l.map f)) (l.flatMap g) := by
  induction l with
  | nil => exact .inr rfl
  | cons x l ih =>
    rw [List.map_cons, List.flatMap_cons]
    exact cons (h x List.mem_cons_self) (ih fun y hy => h y (List.mem_cons_of_mem _ hy))

end Writes

/-- Only a content that is too long can make the encoder fail. -/
def Encodes (f : Except GoError Bytes) : Prop := f = .error tooLong ∨ ∃ b, f = .ok b

namespace Encodes

lemma ok (b : Bytes) : Encodes (.ok b) := .inr ⟨b, rfl⟩

lemma addASN1 {t : UInt8} {f : Except GoError Bytes} (ht : isHighTag t = false) (h : Encodes f) :
    Encodes (addASN1 t f) := by
  obtain h | ⟨b, h⟩ := h
  · exact (Writes.addASN1 (c := []) ht (.inl h)).imp_right fun h => ⟨_, h⟩
  · exact (Writes.addASN1 ht (.inr h)).imp_right fun h => ⟨_, h⟩

lemma concat {fs : List (Except GoError Bytes)} (h : ∀ f ∈ fs, Encodes f) :
    Encodes (Der.concat fs) := by
  induction fs with
  | nil => exact ok []
  | cons f fs ih =>
    obtain hf | ⟨b, hf⟩ := h f List.mem_cons_self
    · refine .inl ?_
      simp [Der.concat, hf, bind, Except.bind]
    obtain hfs | ⟨b', hfs⟩ := ih fun g hg => h g (List.mem_cons_of_mem _ hg)
    · refine .inl ?_
      simp [Der.concat, hf, hfs, bind, Except.bind]
    · exact .inr ⟨b ++ b', concat_cons_eq_ok.mpr ⟨b, b', hf, hfs, rfl⟩⟩

lemma optional {c : Bool} {f : Except GoError Bytes} (h : Encodes f) :
    Encodes (Der.optional c f) := by
  cases c with
  | false => exact ok []
  | true => exact h

end Encodes

/-- What `f` writes, if it is shorter than `N`, `r` reads as a value with `S`, where the octets
start with one of `H` and one of `F` follows.  Only a content that is too long can make `f`
fail. -/
def Conveys {α : Type} (N : ℕ) (H F : List (Option UInt8)) (f : Except GoError Bytes) (r : Reader α)
    (S : α → Prop) : Prop :=
  f = .error tooLong ∨ ∃ b, f = .ok b ∧ b.head? ∈ H ∧ (∃ a, S a) ∧
    (b.length < N → ∀ rest, rest.head? ∈ F → ∃ a, r (b ++ rest) = .ok (a, rest) ∧ S a)

instance fact_half_le : Fact (2 ^ 31 ≤ 2 ^ 32) := ⟨by norm_num⟩

instance fact_le_self : Fact (2 ^ 32 ≤ 2 ^ 32) := ⟨le_rfl⟩

namespace Conveys

variable {α β : Type} {N : ℕ} {H K F : List (Option UInt8)} {f : Except GoError Bytes}
  {fs : List (Except GoError Bytes)} {r : Reader α} {S : α → Prop}

lemma encodes (h : Conveys N H F f r S) : Encodes f := by
  obtain h | ⟨b, hf, -⟩ := h
  · exact .inl h
  · exact .inr ⟨b, hf⟩

/-- What was written is read. -/
lemma of_ok {b : Bytes} (h : Conveys N H F f r S) (hf : f = .ok b) (hlen : b.length < N)
    (rest : Bytes) (hrest : rest.head? ∈ F) : ∃ a, r (b ++ rest) = .ok (a, rest) ∧ S a := by
  obtain h | ⟨b', hf', -, -, h⟩ := h
  · rw [hf] at h
    cases h
  · obtain rfl := Except.ok.inj (hf.symm.trans hf')
    exact h hlen rest hrest

/-- What is read may be described more weakly. -/
lemma mono {T : α → Prop} (h : Conveys N H F f r S) (hS : ∀ a, S a → T a) :
    Conveys N H F f r T := by
  obtain h | ⟨b, hf, hb, ⟨a, ha⟩, h⟩ := h
  · exact .inl h
  · refine .inr ⟨b, hf, hb, ⟨a, hS a ha⟩, fun hlen rest hrest => ?_⟩
    obtain ⟨a, ha, hS'⟩ := h hlen rest hrest
    exact ⟨a, ha, hS a hS'⟩

/-- The result is looked at. -/
lemma andThen {T : β → Prop} {k : α → Reader β} (h : Conveys N H F f r S)
    (hk : ∀ a, S a → ∃ b, k a = Pure.pure b ∧ T b) : Conveys N H F f (r >>= k) T := by
  obtain h | ⟨b, hf, hb, ⟨a, ha⟩, h⟩ := h
  · exact .inl h
  · obtain ⟨c, -, hc⟩ := hk a ha
    refine .inr ⟨b, hf, hb, ⟨c, hc⟩, fun hlen rest hrest => ?_⟩
    obtain ⟨a, ha, hS⟩ := h hlen rest hrest
    obtain ⟨c, hk, hc⟩ := hk a hS
    exact ⟨c, Reader.bind_ok.mpr ⟨a, rest, ha, by rw [hk]; rfl⟩, hc⟩

/-- The result is changed. -/
lemma map {T : β → Prop} {g : α → β} (h : Conveys N H F f r S) (hg : ∀ a, S a → T (g a)) :
    Conveys N H F f (r >>= fun a => Pure.pure (g a)) T :=
  h.andThen fun a ha => ⟨g a, rfl, hg a ha⟩

/-- Nothing is written, and nothing is read. -/
lemma pure {a : α} (ha : S a) : Conveys N [none] F (.ok []) (Pure.pure a) S :=
  .inr ⟨[], rfl, List.mem_singleton.mpr rfl, ⟨a, ha⟩, fun _ _ _ => ⟨a, rfl, ha⟩⟩

/-- Octets that are written as they are. -/
lemma raw {b : Bytes} {a : α} (hb : b.head? ∈ H)
    (h : ∀ rest, rest.head? ∈ F → r (b ++ rest) = .ok (a, rest)) :
    Conveys N H F (.ok b) r (· = a) :=
  .inr ⟨b, rfl, hb, ⟨a, rfl⟩, fun _ rest hrest => ⟨a, h rest hrest, rfl⟩⟩

/-- All that is left. -/
lemma rest (c : Bytes) : Conveys N [c.head?] [none] (.ok c) Reader.rest (· = c) :=
  raw (List.mem_singleton.mpr rfl) fun rest hrest => by
    obtain rfl := List.head?_eq_none_iff.mp (List.mem_singleton.mp hrest)
    rw [List.append_nil]
    rfl

/-- **One part after the other.** -/
lemma cons {T : β → Prop} {k : α → Reader β} (h : Conveys N H (seqHeads K F) f r S)
    (hk : ∀ a, S a → Conveys N K F (concat fs) (k a) T) :
    Conveys N (seqHeads H K) F (concat (f :: fs)) (r >>= k) T := by
  obtain rfl | ⟨b, rfl, hb, ⟨a0, ha0⟩, h⟩ := h
  · exact .inl rfl
  obtain hlong | ⟨b', hfs, hb', hT, -⟩ := hk a0 ha0
  · refine .inl ?_
    simp [concat, hlong, bind, Except.bind]
  · refine .inr ⟨b ++ b', concat_cons_eq_ok.mpr ⟨b, b', rfl, hfs, rfl⟩, head_append_mem hb hb', hT,
      fun hlen rest hrest => ?_⟩
    rw [List.length_append] at hlen
    obtain ⟨a, ha, hS⟩ := h (by omega) (b' ++ rest) (head_append_mem hb' hrest)
    obtain hlong | ⟨c, hok, -, -, h'⟩ := hk a hS
    · rw [hfs] at hlong
      cases hlong
    · obtain rfl := Except.ok.inj (hfs.symm.trans hok)
      obtain ⟨x, hx, hT⟩ := h' (by omega) rest hrest
      refine ⟨x, Reader.bind_ok.mpr ⟨a, b' ++ rest, ?_, hx⟩, hT⟩
      rwa [List.append_assoc]

/-- The last part. -/
lemma last (h : Conveys N H F f r S) : Conveys N H F (concat [f]) r S := by
  obtain rfl | ⟨b, rfl, hb, hS, h⟩ := h
  · exact .inl rfl
  · exact .inr ⟨b, concat_cons_eq_ok.mpr ⟨b, [], rfl, rfl, (List.append_nil b).symm⟩, hb, hS, h⟩

/-! ### Elements -/

section Elements

-- no reader takes an element of 2^32 octets
variable [hN : Fact (N ≤ 2 ^ 32)]

variable {d : String} {t : UInt8}

/-- An element is read with its tag and its content. -/
lemma read_element {c : Bytes} (ht : isHighTag t = false) :
    Conveys N [some t] F (addASN1 t (.ok c)) (Reader.read d (readASN1 t))
      (· = ⟨t, Der.element t c, c⟩) := by
  obtain hlong | hok := Writes.addASN1 ht (.inr (rfl : (.ok c : Except GoError Bytes) = .ok c))
  · exact .inl hlong
  · refine .inr ⟨_, hok, List.mem_singleton.mpr rfl, ⟨_, rfl⟩,
      fun hlen rest _ => ⟨_, Reader.read_ok.mpr ?_, rfl⟩⟩
    exact readASN1_eq_some_iff.mpr ⟨readAnyASN1_element rest ht (lt_of_lt_of_le hlen hN.out), rfl⟩

/-- The readers of one element. -/
def OfElement (t : UInt8) (rd : Reader Element) : Prop :=
  ∀ c rest, (Der.element t c).length < 2 ^ 32 →
    rd (Der.element t c ++ rest) = .ok (⟨t, Der.element t c, c⟩, rest)

lemma ofElement_read (ht : isHighTag t = false) :
    OfElement t (Reader.read d (readASN1 t)) := fun _ rest hlen =>
  Reader.read_ok.mpr (readASN1_eq_some_iff.mpr ⟨readAnyASN1_element rest ht hlen, rfl⟩)

lemma ofElement_any (ht : isHighTag t = false) :
    OfElement t (Reader.anyElement d) := fun _ rest hlen =>
  Reader.read_ok.mpr (readAnyASN1_element rest ht hlen)

/-- **An element is opened**: what is written inside it is there for the decoder. -/
lemma opened {rd : Reader Element} {k : Element → Reader β} {T : β → Prop}
    (ht : isHighTag t = false) (hrd : OfElement t rd) (h : Conveys N H [none] f r S)
    (hT : ∀ c, f = .ok c → addASN1 t f = .ok (Der.element t c) → (∃ a, S a) → (∃ b, T b) ∧
      ∀ a, S a → r c = .ok (a, []) → ∀ rest, rest.head? ∈ F → ∃ b,
        k ⟨t, Der.element t c, c⟩ rest = .ok (b, rest) ∧ T b) :
    Conveys N [some t] F (addASN1 t f) (rd >>= k) T := by
  obtain rfl | ⟨c, rfl, hc, hS, h⟩ := h
  · refine .inl ?_
    simp [addASN1, ht, bind, Except.bind]
  obtain hlong | hok := Writes.addASN1 ht (.inr (rfl : (.ok c : Except GoError Bytes) = .ok c))
  · exact .inl hlong
  obtain ⟨hne, hk⟩ := hT c rfl hok hS
  refine .inr ⟨_, hok, List.mem_singleton.mpr rfl, hne, fun hlen rest hrest => ?_⟩
  have hread := hrd c rest (lt_of_lt_of_le hlen hN.out)
  rw [length_element] at hlen
  obtain ⟨a, ha, hSa⟩ := h (by omega) [] (List.mem_singleton.mpr rfl)
  rw [List.append_nil] at ha
  obtain ⟨b, hb, hTb⟩ := hk a hSa ha rest hrest
  exact ⟨b, Reader.bind_ok.mpr ⟨_, rest, hread, hb⟩, hTb⟩

/-- The content of an element is decoded further. -/
lemma content {k : Bytes → Reader β} {T : β → Prop} (ht : isHighTag t = false)
    (h : Conveys N H [none] f r S)
    (hT : ∀ c, f = .ok c → (∃ a, S a) → (∃ b, T b) ∧
      ∀ a, S a → r c = .ok (a, []) → ∀ rest, rest.head? ∈ F → ∃ b, k c rest = .ok (b, rest) ∧ T b) :
    Conveys N [some t] F (addASN1 t f) (Reader.element d t >>= k) T := by
  have hbind :
      (Reader.element d t >>= k) = Reader.read d (readASN1 t) >>= fun e => k e.content := by
    simp only [Reader.element, bind_assoc, pure_bind]
  rw [hbind]
  exact opened ht (ofElement_read ht) h fun c hc _ hS => hT c hc hS

/-- What is written inside an element is read inside it. -/
lemma within (ht : isHighTag t = false) (h : Conveys N H [none] f r S) :
    Conveys N [some t] F (addASN1 t f) (Reader.element d t >>= fun c => Reader.within c r) S :=
  content ht h fun _ _ hS => ⟨hS, fun a hSa ha rest _ => ⟨a, Reader.within_eq_ok ha rest, hSa⟩⟩

/-- A value that is read off the content of an element. -/
lemma read {c : Bytes} {f : Bytes → Option (α × Bytes)} {a : α} (ht : isHighTag t = false)
    (hf : ∀ e rest, readASN1 t (element t c ++ rest) = some (e, rest) → e.content = c →
      f (element t c ++ rest) = some (a, rest)) :
    Conveys N [some t] F (addASN1 t (.ok c)) (Reader.read d f) (· = a) := by
  obtain hlong | ⟨b, hb, hhead, -, hread⟩ := read_element (N := N) (F := F) (d := d) (c := c) ht
  · exact .inl hlong
  · refine .inr ⟨b, hb, hhead, ⟨a, rfl⟩, fun hlen rest hrest => ⟨a, Reader.read_ok.mpr ?_, rfl⟩⟩
    obtain ⟨e, he, rfl⟩ := hread hlen rest hrest
    obtain ⟨-, c', hc', -, rfl⟩ := addASN1_eq_ok.mp hb
    cases hc'
    exact hf _ rest (Reader.read_ok.mp he) rfl

lemma bigInt (v : ℤ) :
    Conveys N [some tagInteger] F (addASN1Int v) (Reader.read d readASN1BigInt) (· = v) := by
  refine read (by decide) fun e rest he hc => ?_
  simp only [readASN1BigInt, he, hc, checkASN1Integer_intOctets, if_true, intValue_intOctets]

lemma int64 {v : ℤ} (h0 : -2 ^ 63 ≤ v) (h1 : v < 2 ^ 63) :
    Conveys N [some tagInteger] F (addASN1Int v) (Reader.read d readASN1Int64) (· = v) := by
  refine read (by decide) fun e rest he hc => ?_
  simp only [readASN1Int64, he, hc, checkASN1Integer_intOctets, length_intOctets_le h0 h1,
    decide_true, Bool.and_self, if_true, intValue_intOctets]

lemma objectIdentifier {oid : List ℕ} (h : smallOID oid = true) :
    Conveys N [some tagObjectIdentifier] F (addASN1ObjectIdentifier oid)
      (Reader.read d readASN1ObjectIdentifier) (· = oid) := by
  rw [addASN1ObjectIdentifier, if_pos (smallOID_valid h)]
  refine read (by decide) fun e rest he hc => ?_
  simp only [readASN1ObjectIdentifier, he, hc, parseOID_oidOctets h, Option.bind_eq_bind,
    Option.bind_some]
  rfl

/-- The content of an element. -/
lemma element {c : Bytes} (ht : isHighTag t = false) :
    Conveys N [some t] F (addASN1 t (.ok c)) (Reader.element d t) (· = c) :=
  (read_element ht).map fun _ he => he ▸ rfl

end Elements

/-- One element that is given as it is. -/
lemma anyElement {d : String} {b : Bytes} {e : Element} (he : readAnyASN1 b = some (e, [])) :
    Conveys N [some e.tag] F (.ok b) (Reader.anyElement d) (· = e) := by
  obtain ⟨ht, hraw, -, hb⟩ := readAnyASN1_eq_some_iff.mp he
  rw [List.append_nil] at hb
  refine .inr ⟨b, rfl, ?_, ⟨_, rfl⟩, fun _ rest _ => ⟨e, Reader.read_ok.mpr ?_, rfl⟩⟩
  · rw [hb, hraw]
    exact List.mem_singleton.mpr rfl
  · rw [hb]
    exact readAnyASN1_raw he rest

/-! ### Optional parts -/

/-- The first octets may be described more weakly. -/
lemma heads (h : Conveys N H F f r S) (hK : H ⊆ K) : Conveys N K F f r S := by
  obtain h | ⟨b, hf, hb, hS, h⟩ := h
  · exact .inl h
  · exact .inr ⟨b, hf, hK hb, hS, h⟩

variable {g : Bool → Reader α}

/-- A look ahead whose answer is known. -/
lemma look {q : Reader Bool} {x : Bool}
    (hq : ∀ b rest : Bytes, b.head? ∈ H → rest.head? ∈ F → q (b ++ rest) = .ok (x, b ++ rest))
    (h : Conveys N H F f (g x) S) : Conveys N H F f (q >>= g) S := by
  obtain h | ⟨b, hf, hb, hS, h⟩ := h
  · exact .inl h
  · refine .inr ⟨b, hf, hb, hS, fun hlen rest hrest => ?_⟩
    obtain ⟨a, ha, hS⟩ := h hlen rest hrest
    exact ⟨a, Reader.bind_ok.mpr ⟨x, b ++ rest, hq b rest hb hrest, ha⟩, hS⟩

variable {t : UInt8}

/-- The next octet is the tag. -/
lemma peek_true (h : Conveys N [some t] F f (g true) S) :
    Conveys N [some t] F f (Reader.peek t >>= g) S := by
  refine look (fun b rest hb _ => ?_) h
  cases b with
  | nil => cases List.mem_singleton.mp hb
  | cons x b =>
    obtain rfl := Option.some.inj (List.mem_singleton.mp hb)
    simp [Reader.peek, peekASN1Tag]

/-- The next octet is not the tag. -/
lemma peek_false (htag : some t ∉ seqHeads H F) (h : Conveys N H F f (g false) S) :
    Conveys N H F f (Reader.peek t >>= g) S := by
  refine look (fun b rest hb hrest => ?_) h
  rw [Reader.peek, peekASN1Tag_eq_false (head_append_mem hb hrest) htag]

/-- Something is left. -/
lemma notEmpty (hH : none ∉ H) (h : Conveys N H F f (g false) S) :
    Conveys N H F f (Reader.empty >>= g) S := by
  refine look (fun b rest hb _ => ?_) h
  cases b with
  | nil => exact absurd hb hH
  | cons x b => rfl

/-- Nothing is left. -/
lemma atEnd (h : Conveys N [none] [none] f (g true) S) :
    Conveys N [none] [none] f (Reader.empty >>= g) S := by
  refine look (fun b rest hb hrest => ?_) h
  obtain rfl := List.head?_eq_none_iff.mp (List.mem_singleton.mp hb)
  obtain rfl := List.head?_eq_none_iff.mp (List.mem_singleton.mp hrest)
  rfl

/-- An optional part at the end. -/
lemma unlessEmpty {b : Bool} {a : α} (hH : none ∉ H) (hnone : b = false → S a)
    (hsome : b = true → Conveys N H [none] f r S) :
    Conveys N (H ++ [none]) [none] (Der.optional b f) (Reader.unlessEmpty r a) S := by
  cases b with
  | false => exact heads (atEnd (pure (hnone rfl))) (by simp)
  | true => exact heads (notEmpty hH (hsome rfl)) (by simp)

/-- A part that is there. -/
lemma present {a : α} (h : Conveys N [some t] F f r S) :
    Conveys N [some t, none] F f (Reader.optional t r a) S :=
  heads (peek_true h) (by simp)

/-- A part that is not there, where nothing with its tag can follow. -/
lemma absent {a : α} (hF : some t ∉ F) (ha : S a) :
    Conveys N [some t, none] F (.ok []) (Reader.optional t r a) S :=
  heads (peek_false (by simpa [seqHeads] using hF) (pure ha)) (by simp)

/-- A part that is written unless it has its default. -/
lemma unlessDefault {x a : α} [Decidable (x ≠ a)] (hF : some t ∉ F)
    (h : x ≠ a → Conveys N [some t] F f r (· = x)) :
    Conveys N [some t, none] F (Der.optional (x ≠ a) f) (Reader.optional t r a) (· = x) := by
  by_cases hx : x = a
  · rw [Der.optional, decide_eq_false (not_not.mpr hx)]
    exact absent hF hx.symm
  · rw [Der.optional, decide_eq_true hx]
    exact present (h hx)

/-- A part that is there if the value is. -/
lemma ifSome {o : Option α} (hF : some t ∉ F) (hnone : o = none → f = .ok [])
    (hsome : ∀ x, o = some x → Conveys N [some t] F f r (· = x)) :
    Conveys N [some t, none] F f (Reader.optional t (r >>= fun a => Pure.pure (some a)) none)
      (· = o) := by
  cases o with
  | none =>
    rw [hnone rfl]
    exact absent hF rfl
  | some x => exact present ((hsome x rfl).map fun _ ha => congrArg some ha)

/-- An optional part inside an element of its own. -/
lemma explicit {γ : Type} [Fact (N ≤ 2 ^ 32)] {d : String} {R : γ → α → Prop} {o : Option γ}
    (ht : isHighTag t = false) (hF : some t ∉ F) (hnone : o = none → f = .ok [])
    (hsome : ∀ x, o = some x → ∃ H f', f = addASN1 t f' ∧ Conveys N H [none] f' r (R x)) :
    Conveys N [some t, none] F f (Reader.explicit d t r) (fun a => Option.Rel R o a) := by
  cases o with
  | none =>
    rw [hnone rfl]
    exact absent hF .none
  | some x =>
    obtain ⟨H, f', rfl, hx⟩ := hsome x rfl
    exact present ((within ht hx).map fun a ha => .some ha)

/-- An optional part inside an element of its own that is read as it is. -/
lemma explicit_eq [Fact (N ≤ 2 ^ 32)] {d : String} {o : Option α} (ht : isHighTag t = false)
    (hF : some t ∉ F) (hnone : o = none → f = .ok [])
    (hsome : ∀ x, o = some x → ∃ H f', f = addASN1 t f' ∧ Conveys N H [none] f' r (· = x)) :
    Conveys N [some t, none] F f (Reader.explicit d t r) (· = o) := by
  refine ifSome hF hnone fun x hx => ?_
  obtain ⟨H, f', rfl, h⟩ := hsome x hx
  exact within ht h

/-- An element that is kept beside what is read inside it. -/
lemma kept [Fact (N ≤ 2 ^ 32)] {d : String} {r : Bytes → Reader α} {S : Bytes → α → Prop}
    (ht : isHighTag t = false) (h : ∀ raw, Conveys N H [none] f (r raw) (S raw)) :
    Conveys N [some t] F (addASN1 t f)
      (Reader.read d (readASN1 t) >>= fun e => Reader.within e.content (r e.raw))
      (fun a => ∃ raw, addASN1 t f = .ok raw ∧ S raw a) := by
  obtain rfl | ⟨c, rfl, -⟩ := h []
  · refine .inl ?_
    simp [addASN1, ht, bind, Except.bind]
  refine opened ht (ofElement_read ht) (h (Der.element t c)) fun c' hc' hok ⟨a, ha⟩ => ?_
  cases hc'
  exact ⟨⟨a, _, hok, ha⟩, fun a hS hread rest _ =>
    ⟨a, Reader.within_eq_ok hread rest, _, hok, hS⟩⟩

/-! ### Lists -/

variable {γ : Type} {g : γ → Except GoError Bytes} {R : γ → α → Prop} {l : List γ}

/-- The recursion of `Reader.many`. -/
lemma manyAux (hH : none ∉ H) (h : ∀ x ∈ l, Conveys N H (none :: H) (g x) r (R x)) :
    concat (l.map g) = .error tooLong ∨ ∃ b, concat (l.map g) = .ok b ∧ b.head? ∈ none :: H ∧
      (∃ as, List.Forall₂ R l as) ∧ (b.length < N → ∀ fuel, b.length ≤ fuel →
        ∃ as, Reader.manyAux r fuel b = .ok (as, []) ∧ List.Forall₂ R l as) := by
  induction l with
  | nil =>
    refine .inr ⟨[], rfl, List.mem_cons_self, ⟨[], .nil⟩, fun _ fuel _ => ⟨[], ?_, .nil⟩⟩
    cases fuel <;> rfl
  | cons x l ih =>
    obtain hlong | ⟨b, hg, hb, ⟨a, ha⟩, hread⟩ := h x List.mem_cons_self
    · refine .inl ?_
      simp [concat, hlong, bind, Except.bind]
    obtain hlong | ⟨b', hgs, hb', ⟨as, has⟩, hmany⟩ := ih fun y hy =>
      h y (List.mem_cons_of_mem _ hy)
    · refine .inl ?_
      simp [concat, hg, hlong, bind, Except.bind]
    obtain ⟨y, b, rfl⟩ : ∃ y c, b = y :: c := by
      cases b with
      | nil => exact absurd hb hH
      | cons y c => exact ⟨y, c, rfl⟩
    refine .inr ⟨y :: b ++ b', concat_cons_eq_ok.mpr ⟨_, b', hg, hgs, rfl⟩,
      List.mem_cons_of_mem _ hb, ⟨a :: as, .cons ha has⟩, fun hlen fuel hfuel => ?_⟩
    rw [List.length_append, List.length_cons] at hlen hfuel
    obtain ⟨fuel, rfl⟩ : ∃ n, fuel = n + 1 := ⟨fuel - 1, by omega⟩
    obtain ⟨a, ha, hRa⟩ := hread (by rw [List.length_cons]; omega) b' hb'
    obtain ⟨as, has, hRas⟩ := hmany (by omega) fuel (by omega)
    exact ⟨a :: as, Reader.manyAux_cons (by simp) ha has, .cons hRa hRas⟩

/-- **Lists**: one member after the other, to the end. -/
lemma many (hH : none ∉ H) (h : ∀ x ∈ l, Conveys N H (none :: H) (g x) r (R x)) :
    Conveys N (none :: H) [none] (concat (l.map g)) (Reader.many r)
      (fun as => List.Forall₂ R l as) := by
  obtain hlong | ⟨b, hf, hb, hS, hread⟩ := manyAux hH h
  · exact .inl hlong
  · refine .inr ⟨b, hf, hb, hS, fun hlen rest hrest => ?_⟩
    obtain ⟨as, has, hS⟩ := hread hlen b.length le_rfl
    cases rest with
    | nil =>
      rw [List.append_nil]
      exact ⟨as, has, hS⟩
    | cons x rest => cases List.mem_singleton.mp hrest

/-- A list whose members are read as they are. -/
lemma many_eq {l : List α} {g : α → Except GoError Bytes} (hH : none ∉ H)
    (h : ∀ x ∈ l, Conveys N H (none :: H) (g x) r (· = x)) :
    Conveys N (none :: H) [none] (concat (l.map g)) (Reader.many r) (· = l) :=
  (many (R := fun x a => a = x) hH h).mono fun _ has =>
    (List.forall₂_eq_eq_eq ▸ has.imp fun _ _ => Eq.symm : l = _).symm

end Conveys

end PkiCmp
