/-
Round trips of the types shared by all messages.

* `OneElement`, `OneSequence`: octets that are one element, as raw fields have to be;
* `conveys` of algorithm identifiers, typed values, free texts, names, certificates and
  encrypted keys.
-/
import PkiCmp.Codec.Names

namespace PkiCmp

open Der

variable {F : List (Option UInt8)}

/-- The octets are one element. -/
def OneElement (b : Bytes) : Prop := ∃ e, readAnyASN1 b = some (e, [])

/-- The octets are one SEQUENCE. -/
def OneSequence (b : Bytes) : Prop := ∃ e, readASN1 tagSequence b = some (e, [])

lemma OneElement.ne_nil {b : Bytes} (h : OneElement b) : b ≠ [] := by
  rintro rfl
  obtain ⟨e, he⟩ := h
  simp [readAnyASN1, readHeader] at he

lemma OneSequence.ne_nil {b : Bytes} (h : OneSequence b) : b ≠ [] := by
  rintro rfl
  obtain ⟨e, he⟩ := h
  cases he

lemma OneSequence.oneElement {b : Bytes} (h : OneSequence b) : OneElement b := by
  obtain ⟨e, he⟩ := h
  exact ⟨e, (readASN1_eq_some_iff.mp he).1⟩

/-- A SEQUENCE is wrapped around its content. -/
lemma OneSequence.eq_element {b : Bytes} (h : OneSequence b) :
    ∃ c, b = element tagSequence c ∧ stripSequence b = .ok c ∧
      (element tagSequence c).length < 2 ^ 32 := by
  obtain ⟨e, he⟩ := h
  obtain ⟨hread, htag⟩ := readASN1_eq_some_iff.mp he
  obtain ⟨-, hraw, hlen, hb⟩ := readAnyASN1_eq_some_iff.mp hread
  rw [List.append_nil] at hb
  rw [htag] at hraw
  refine ⟨e.content, hb.trans hraw, ?_, hraw ▸ hlen⟩
  rw [stripSequence, he]

/-- A SEQUENCE that is given as it is. -/
lemma OneSequence.conveys {N : ℕ} {d : String} {b : Bytes} (h : OneSequence b) :
    Conveys N [some tagSequence] F (.ok b)
      (Reader.read d (readASN1 tagSequence) >>= fun e => pure e.raw) (· = b) := by
  obtain ⟨e, he⟩ := h
  obtain ⟨hread, htag⟩ := readASN1_eq_some_iff.mp he
  obtain ⟨-, hraw, -, hb⟩ := readAnyASN1_eq_some_iff.mp hread
  rw [List.append_nil] at hb
  refine Conveys.raw ?_ fun rest _ =>
    Reader.bind_ok.mpr ⟨e, rest, Reader.read_ok.mpr ?_, by rw [hb]; rfl⟩
  · rw [hb, hraw, htag]
    exact List.mem_singleton.mpr rfl
  · rw [hb]
    exact readASN1_eq_some_iff.mpr ⟨readAnyASN1_raw hread rest, htag⟩

/-! ### Algorithm identifiers and typed values -/

/-- The algorithm can be written, and the parameters are absent or one element. -/
def AlgorithmIdentifier.Wf (a : AlgorithmIdentifier) : Prop :=
  smallOID a.algorithm = true ∧ (a.parameters = [] ∨ OneElement a.parameters)

lemma AlgorithmIdentifier.conveysInner {a : AlgorithmIdentifier} (ha : a.Wf) :
    Conveys (2 ^ 31) [some tagObjectIdentifier] [none] a.marshalInner unmarshalInner (· = a) := by
  obtain ⟨oid, parameters⟩ := a
  obtain ⟨hoid, hparams⟩ := ha
  refine Conveys.cons (K := [parameters.head?]) (Conveys.objectIdentifier hoid) ?_
  rintro _ rfl
  refine Conveys.last ?_
  obtain hnil | hone := hparams
  · obtain rfl : parameters = [] := hnil
    exact Conveys.atEnd (Conveys.pure rfl)
  · obtain ⟨x, b, rfl⟩ := List.exists_cons_of_ne_nil hone.ne_nil
    obtain ⟨e, he⟩ := hone
    refine Conveys.notEmpty (by simp)
      (Conveys.raw (List.mem_singleton.mpr rfl) fun rest hrest => ?_)
    obtain rfl := List.head?_eq_none_iff.mp (List.mem_singleton.mp hrest)
    have hraw := readAnyASN1_append he
    rw [List.append_nil] at hraw ⊢
    refine Reader.bind_ok.mpr ⟨x :: b, x :: b, rfl, ?_⟩
    simp only [he, ← hraw]
    rfl

lemma AlgorithmIdentifier.conveys {a : AlgorithmIdentifier} (ha : a.Wf) :
    Conveys (2 ^ 31) [some tagSequence] F a.marshal unmarshal (· = a) :=
  Conveys.within (by decide) (conveysInner ha)

lemma InfoTypeAndValue.conveys {itv : InfoTypeAndValue} (h : smallOID itv.infoType = true) :
    Conveys (2 ^ 31) [some tagSequence] F itv.marshal unmarshal (· = itv) := by
  obtain ⟨oid, v⟩ := itv
  refine Conveys.within (H := [some tagObjectIdentifier]) (by decide)
    (Conveys.cons (K := [v.head?]) (Conveys.objectIdentifier h) ?_)
  rintro _ rfl
  exact Conveys.last ((Conveys.rest v).map fun _ hv => hv ▸ rfl)

lemma PKIFreeText.conveys {ft : PKIFreeText} (h : ft ≠ []) :
    Conveys (2 ^ 31) [some tagSequence] F (marshal ft) unmarshal (· = ft) := by
  rw [PKIFreeText.marshal, if_neg h]
  exact Conveys.within (by decide) (Conveys.many_eq (H := [some tagUTF8String]) (by decide)
    fun _ _ => Conveys.element (by decide))

/-! ### Names -/

namespace GeneralName

/-- One name that is given as it is, an address, or a directory name of UTF-8 strings. -/
def Wf (gn : GeneralName) : Prop :=
  if gn.raw ≠ [] then ∃ g, unmarshal gn.raw = .ok (g, [])
  else gn.rfc822Name = [] → Textual gn.directoryName

/-- What a name is read as: it has the same encoding, and the same address or directory name. -/
structure ReadAs (gn g : GeneralName) : Prop where
  encoding : g.marshal = gn.marshal
  raw : gn.marshal = .ok g.raw
  names : gn.raw = [] → g.rfc822Name = gn.rfc822Name ∧
    (gn.rfc822Name = [] → g.directoryName = gn.directoryName)

/-- A name that is read keeps its octets. -/
lemma unmarshal_eq_ok {s s' : Bytes} {g : GeneralName} (h : unmarshal s = .ok (g, s')) :
    ∃ e, readAnyASN1 s = some (e, s') ∧ g.raw = e.raw ∧
      ∀ rest, unmarshal (e.raw ++ rest) = .ok (g, rest) := by
  obtain ⟨e, s1, he, h⟩ := Reader.bind_ok.mp h
  have he := Reader.read_ok.mp he
  have hread : ∀ rest, Reader.anyElement "missing GeneralName" (e.raw ++ rest) = .ok (e, rest) :=
    fun rest => Reader.read_ok.mpr (readAnyASN1_raw he rest)
  split_ifs at h with h4 h1
  · obtain ⟨rdns, s2, hrdns, h⟩ := Reader.bind_ok.mp h
    cases h
    obtain ⟨rfl, left, hleft⟩ := Reader.within_ok hrdns
    refine ⟨e, he, rfl, fun rest => Reader.bind_ok.mpr ⟨e, rest, hread rest, ?_⟩⟩
    rw [if_pos h4]
    exact Reader.bind_ok.mpr ⟨rdns, rest, Reader.within_eq_ok hleft rest, rfl⟩
  · cases h
    refine ⟨e, he, rfl, fun rest => Reader.bind_ok.mpr ⟨e, rest, hread rest, ?_⟩⟩
    rw [if_neg h4, if_pos h1]
    rfl
  · cases h
    refine ⟨e, he, rfl, fun rest => Reader.bind_ok.mpr ⟨e, rest, hread rest, ?_⟩⟩
    rw [if_neg h4, if_neg h1]
    rfl

variable {gn : GeneralName}

lemma marshal_of_raw (h : gn.raw ≠ []) : gn.marshal = .ok gn.raw := by
  rw [marshal, if_pos h]

/-- A directory name. -/
lemma conveys_directoryName (hraw : gn.raw = []) (haddr : gn.rfc822Name = [])
    (h : Textual gn.directoryName) :
    Conveys (2 ^ 31) [some (contextConstructed 4)] F gn.marshal unmarshal gn.ReadAs := by
  have hmarshal :
      gn.marshal = addASN1 (contextConstructed 4) (marshalRDNSequence gn.directoryName) := by
    rw [marshal, if_neg (not_not.mpr hraw), if_neg (not_not.mpr haddr)]
  rw [hmarshal]
  refine Conveys.opened (by decide) (Conveys.ofElement_any (by decide))
    (parseRDNSequence_conveys h) fun c hc hok _ => ?_
  have hread : gn.ReadAs { directoryName := gn.directoryName
                           raw := element (contextConstructed 4) c } :=
    { encoding := (marshal_of_raw (by simp [element])).trans (hmarshal.trans hok).symm
      raw := hmarshal.trans hok
      names := fun _ => ⟨haddr.symm, fun _ => rfl⟩ }
  refine ⟨⟨_, hread⟩, ?_⟩
  rintro _ rfl hparse rest -
  refine ⟨_, ?_, hread⟩
  rw [if_pos rfl]
  exact Reader.bind_ok.mpr ⟨gn.directoryName, rest, Reader.within_eq_ok hparse rest, rfl⟩

/-- An address. -/
lemma conveys_rfc822Name (hraw : gn.raw = []) (haddr : gn.rfc822Name ≠ []) :
    Conveys (2 ^ 31) [some (context 1)] F gn.marshal unmarshal gn.ReadAs := by
  have hmarshal : gn.marshal = addASN1 (context 1) (.ok gn.rfc822Name) := by
    rw [marshal, if_neg (not_not.mpr hraw), if_pos haddr]
  rw [hmarshal]
  refine Conveys.opened (by decide) (Conveys.ofElement_any (by decide))
    (Conveys.rest gn.rfc822Name) fun c hc hok _ => ?_
  cases hc
  have hread : gn.ReadAs { rfc822Name := gn.rfc822Name
                           raw := element (context 1) gn.rfc822Name } :=
    { encoding := (marshal_of_raw (by simp [element])).trans (hmarshal.trans hok).symm
      raw := hmarshal.trans hok
      names := fun _ => ⟨rfl, fun h => absurd h haddr⟩ }
  exact ⟨⟨_, hread⟩, fun _ _ _ rest _ => ⟨_, rfl, hread⟩⟩

/-- **Names** keep their encoding. -/
lemma conveys (h : gn.Wf) :
    ∃ t, ∀ F, Conveys (2 ^ 31) [some t] F gn.marshal unmarshal gn.ReadAs := by
  by_cases hraw : gn.raw = []
  · rw [Wf, if_neg (not_not.mpr hraw)] at h
    by_cases haddr : gn.rfc822Name = []
    · exact ⟨_, fun F => conveys_directoryName hraw haddr (h haddr)⟩
    · exact ⟨_, fun F => conveys_rfc822Name hraw haddr⟩
  · rw [Wf, if_pos hraw] at h
    obtain ⟨g, hg⟩ := h
    obtain ⟨e, he, hgraw, hread⟩ := unmarshal_eq_ok hg
    obtain ⟨-, helem, -, happ⟩ := readAnyASN1_eq_some_iff.mp he
    rw [List.append_nil] at happ
    refine ⟨e.tag, fun F => ?_⟩
    have hmarshal := marshal_of_raw hraw
    rw [hmarshal]
    refine (Conveys.raw (a := g) ?_ fun rest _ => ?_).mono ?_
    · rw [happ, helem]
      exact List.mem_singleton.mpr rfl
    · rw [happ]
      exact hread rest
    · intro g' hg'
      rw [hg']
      have hsame : g.raw = gn.raw := hgraw.trans happ.symm
      exact
        { encoding := by rw [hmarshal, marshal_of_raw (hsame ▸ hraw), hsame]
          raw := by rw [hmarshal, hsame]
          names := fun h => absurd h hraw }

end GeneralName

/-! ### Certificates and encrypted keys -/

lemma CMPCertificate.conveys {N : ℕ} {c : CMPCertificate} (h : OneElement c.raw) :
    Conveys N [c.raw.head?] F c.marshal unmarshal (· = c) := by
  obtain ⟨e, he⟩ := h
  obtain ⟨-, helem, -, happ⟩ := readAnyASN1_eq_some_iff.mp he
  rw [List.append_nil] at happ
  have hhead : c.raw.head? = some e.tag := by rw [happ, helem]; rfl
  rw [hhead]
  refine (Conveys.anyElement he).map ?_
  rintro _ rfl
  rw [← happ]

/-- Certificates one after the other. -/
lemma CMPCertificate.conveys_many {N : ℕ} {cs : List CMPCertificate}
    (h : ∀ c ∈ cs, OneElement c.raw) :
    Conveys N (none :: cs.map fun c => c.raw.head?) [none]
      (concat (cs.map CMPCertificate.marshal)) (Reader.many unmarshal) (· = cs) := by
  refine Conveys.many_eq ?_ fun c hc => Conveys.heads (conveys (h c hc)) ?_
  · intro hmem
    obtain ⟨c, hc, hnil⟩ := List.mem_map.mp hmem
    exact (h c hc).ne_nil (List.head?_eq_none_iff.mp hnil)
  · rintro _ hx
    rw [List.mem_singleton.mp hx]
    exact List.mem_map_of_mem (f := fun c : CMPCertificate => c.raw.head?) hc

namespace EncryptedKey

/-- Both containers are one SEQUENCE. -/
def Wf : EncryptedKey → Prop
  | .encryptedValue raw | .envelopedData raw => OneSequence raw

lemma conveys {k : EncryptedKey} (h : k.Wf) :
    Conveys (2 ^ 31) [some tagSequence, some (contextConstructed 0)] F k.marshal unmarshal
      (· = k) := by
  cases k with
  | encryptedValue raw =>
    obtain ⟨e, he⟩ := h
    obtain ⟨hread, htag⟩ := readASN1_eq_some_iff.mp he
    have happ := readAnyASN1_append hread
    rw [List.append_nil] at happ
    refine Conveys.heads (H := [some e.tag]) (Conveys.notEmpty (by simp)
      (Conveys.peek_false ?_ ((Conveys.anyElement hread).map ?_))) (by simp [htag])
    · rw [htag]
      show some (contextConstructed 0) ∉ [some tagSequence]
      decide
    · rintro _ rfl
      rw [← happ]
  | envelopedData raw =>
    obtain ⟨c, rfl, hstrip, -⟩ := h.eq_element
    refine Conveys.heads (H := [some (contextConstructed 0)]) (Conveys.notEmpty (by decide)
      (Conveys.peek_true ?_)) (by simp)
    rw [marshal, envelopedInner, hstrip]
    exact (Conveys.element (by decide)).map fun _ hc => hc ▸ rfl

end EncryptedKey

end PkiCmp
