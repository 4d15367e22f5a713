/-
Where in an encoding a part of it stands.

A decoder that opens one element after the other finds the part it is after at some place of
its input.  Other octets of the same number at that place are what it finds instead, since
the elements around them keep their lengths.

* `Located`: a part and its place;
* `Located.comp`, `located_content`, `located_nthContent`: parts of parts, contents of
  elements and the members of a list.
-/
import PkiCmp.Lib.Der

namespace Der

/-- The decoder finds `c` in `s`, and what stands in its place if it is replaced. -/
def Located (f : Bytes → Option Bytes) (s c : Bytes) : Prop :=
  ∃ pre post, s = pre ++ c ++ post ∧
    ∀ c', c'.length = c.length → f (pre ++ c' ++ post) = some c'

/-- A part of a part. -/
lemma Located.comp {f g : Bytes → Option Bytes} {s c d : Bytes} (hf : Located f s c)
    (hg : Located g c d) : Located (fun s => (f s).bind g) s d := by
  obtain ⟨pre, post, rfl, hf⟩ := hf
  obtain ⟨pre', post', rfl, hg⟩ := hg
  refine ⟨pre ++ pre', post' ++ post, by simp only [List.append_assoc], fun d' hd => ?_⟩
  have hassoc : pre ++ pre' ++ d' ++ (post' ++ post) = pre ++ (pre' ++ d' ++ post') ++ post := by
    simp only [List.append_assoc]
  have hc := hf (pre' ++ d' ++ post') (by simp only [List.length_append, hd])
  simp only [hassoc, hc, Option.bind_some, hg d' hd]

/-- The content of an element. -/
def contentOf (t : UInt8) (s : Bytes) : Option Bytes := (readASN1 t s).map fun p => p.1.content

lemma readASN1_replace {t : UInt8} {s rest : Bytes} {e : Element}
    (h : readASN1 t s = some (e, rest)) :
    s = (t :: lengthOctets e.content.length) ++ e.content ++ rest ∧
      ∀ c rest', c.length = e.content.length →
        readASN1 t ((t :: lengthOctets e.content.length) ++ c ++ rest') =
          some (⟨t, element t c, c⟩, rest') := by
  obtain ⟨hread, htag⟩ := readASN1_eq_some_iff.mp h
  obtain ⟨ht, hraw, hlen, hs⟩ := readAnyASN1_eq_some_iff.mp hread
  rw [htag] at ht hraw
  refine ⟨by rw [hs, hraw]; simp [element], fun c rest' hc => ?_⟩
  have helem : (t :: lengthOctets e.content.length) ++ c = element t c := by
    rw [element, hc, List.cons_append]
  rw [helem]
  refine readASN1_eq_some_iff.mpr ⟨readAnyASN1_element rest' ht ?_, rfl⟩
  rw [length_element, hc, ← length_element, ← hraw]
  exact hlen

lemma located_content {t : UInt8} {s c : Bytes} (h : contentOf t s = some c) :
    Located (contentOf t) s c := by
  obtain ⟨⟨e, rest⟩, he, rfl⟩ := Option.map_eq_some_iff.mp h
  obtain ⟨hs, hread⟩ := readASN1_replace he
  refine ⟨_, rest, hs, fun c' hc' => ?_⟩
  rw [contentOf, hread c' rest hc']
  rfl

/-- The content of the `k`-th of a row of elements. -/
def nthContent (t : UInt8) : ℕ → Bytes → Option Bytes
  | 0, s => contentOf t s
  | k + 1, s => (readASN1 t s).bind fun p => nthContent t k p.2

lemma located_nthContent {t : UInt8} {k : ℕ} {s c : Bytes} (h : nthContent t k s = some c) :
    Located (nthContent t k) s c := by
  induction k generalizing s with
  | zero => exact located_content h
  | succ k ih =>
    obtain ⟨⟨e, rest⟩, he, hk⟩ := Option.bind_eq_some_iff.mp h
    obtain ⟨pre, post, hrest, hloc⟩ := ih hk
    replace hrest : rest = pre ++ c ++ post := hrest
    obtain ⟨hs, hread⟩ := readASN1_replace he
    refine ⟨(t :: lengthOctets e.content.length) ++ e.content ++ pre, post, ?_, fun c' hc' => ?_⟩
    · rw [hs, hrest]
      simp only [List.append_assoc]
    · rw [List.append_assoc, List.append_assoc, nthContent, hread _ _ rfl, Option.bind_some,
        ← List.append_assoc, hloc c' hc']

end Der
