/-
Names as the source normalises and compares them.

A name that goes through `pkix.Name` comes back with its attributes sorted by type, and names
are compared as texts.

* `attributeString_inj`, `RDNSequence.string_inj`: **the text** determines the name;
* `canonical`: the order in which `NewDirectoryName` writes the attributes of a decoded name,
  and `canonical_idem`: **a second pass** changes nothing.
-/
import PkiCmp.Codec.Names
import PkiCmp.Lib.Delimited

namespace PkiCmp

open Der Delimited

/-! ### Texts -/

lemma joinStrings_eq (sep : GoString) (l : List GoString) :
    joinStrings sep l = List.intercalate sep l := by
  induction l with
  | nil => rfl
  | cons s l ih =>
    cases l with
    | nil => simp [joinStrings]
    | cons t l => rw [joinStrings, ih, List.intercalate_cons_cons]; simp

/-- The octets of a rune: one below `0x80`, or several above. -/
lemma runeWidth_spec {s : Bytes} {n : ℕ} (h : runeWidth s = some n) :
    (∃ b t, s = b :: t ∧ n = 1 ∧ b < 0x80) ∨ (n ≤ s.length ∧ ∀ b ∈ s.take n, 0x80 ≤ b) := by
  revert h
  have hcont : ∀ {b : UInt8}, isContinuation b = true → 0x80 ≤ b := by
    intro b hb
    exact of_decide_eq_true (Bool.and_eq_true_iff.mp hb).1
  have hlead : ∀ {b : UInt8}, ¬ b < 0x80 → 0x80 ≤ b := UInt8.not_lt.mp
  fun_cases runeWidth s with
  | case1 => simp
  | case2 b t hb =>
    rintro ⟨⟩
    exact .inl ⟨b, t, rfl, rfl, hb⟩
  | case3 b0 hb b1 t h2 =>
    rintro ⟨⟩
    simp only [Bool.and_eq_true] at h2
    refine .inr ⟨by simp, ?_⟩
    simp [hlead hb, hcont h2.2]
  | case4 b0 hb b1 h2 b2 t h3 =>
    rintro ⟨⟩
    simp only [Bool.and_eq_true, Bool.or_eq_true, decide_eq_true_eq] at h3
    have h1 : 0x80 ≤ b1 := by
      obtain ⟨(⟨⟨-, h⟩, -⟩ | ⟨⟨-, h⟩, -⟩) | ⟨-, h⟩, -⟩ := h3
      · exact UInt8.le_trans (by decide) h
      · exact h
      · exact hcont h
    refine .inr ⟨by simp, ?_⟩
    simp [hlead hb, h1, hcont h3.2]
  | case5 b0 hb b1 h2 b2 h3 b3 t h4 =>
    rintro ⟨⟩
    simp only [Bool.and_eq_true, Bool.or_eq_true, decide_eq_true_eq] at h4
    have h1 : 0x80 ≤ b1 := by
      obtain ⟨⟨(⟨⟨-, h⟩, -⟩ | ⟨⟨-, h⟩, -⟩) | ⟨-, h⟩, -⟩, -⟩ := h4
      · exact UInt8.le_trans (by decide) h
      · exact h
      · exact hcont h
    refine .inr ⟨by simp, ?_⟩
    simp [hlead hb, h1, hcont h4.1.2, hcont h4.2]
  | _ => simp

/-- An octet of a value, with a backslash where it needs one. -/
def escapeRune (len k : ℕ) (c : Bytes) : Bytes :=
  let special := c == [44] || c == [43] || c == [34] || c == [92] || c == [60] || c == [62] ||
    c == [59]
  let space := c == [32] && (k == 0 || k + 1 == len)
  let hash := c == [35] && k == 0
  if special || space || hash then 92 :: c else c

/-- The separators of the text form. -/
def Separator (b : UInt8) : Prop := b = 44 ∨ b = 43

/-- A rune is escaped when it has to be. -/
lemma escapeRune_ascii (len k : ℕ) (b : UInt8) :
    escapeRune len k [b] = [92, b] ∨
      escapeRune len k [b] = [b] ∧ b ≠ 92 ∧ ¬ Separator b := by
  unfold escapeRune
  by_cases h : b = 44 ∨ b = 43 ∨ b = 92
  · left
    rcases h with rfl | rfl | rfl <;> rfl
  · push Not at h
    simp only
    split_ifs
    · exact .inl rfl
    · exact .inr ⟨rfl, h.2.2, fun hs => hs.elim h.1 h.2.1⟩

lemma escapeRune_wide {len k : ℕ} {c : Bytes} (h : ∀ b ∈ c, 0x80 ≤ b) : escapeRune len k c = c := by
  have hne : ∀ b : UInt8, b < 0x80 → (c == [b]) = false := by
    intro b hb
    rw [beq_eq_false_iff_ne]
    rintro rfl
    have := h b (List.mem_singleton.mpr rfl)
    exact absurd hb (by simpa using this)
  simp [escapeRune, hne]

/-- Escaping a valid string can be undone, and leaves no separator bare. -/
lemma escape_runes {len : ℕ} (fuel k : ℕ) (s : Bytes) (hfuel : s.length ≤ fuel)
    (h : utf8ValidAux fuel s = true) :
    unescape 92 ((runesAux fuel k s).flatMap fun p => escapeRune len p.1 p.2) = s ∧
      Closed 92 Separator ((runesAux fuel k s).flatMap fun p => escapeRune len p.1 p.2) := by
  induction fuel generalizing k s with
  | zero =>
    obtain rfl := List.length_eq_zero_iff.mp (Nat.le_zero.mp hfuel)
    exact ⟨rfl, .nil⟩
  | succ fuel ih =>
    cases s with
    | nil => exact ⟨rfl, .nil⟩
    | cons b s =>
      rw [utf8ValidAux] at h
      · split at h
        · next n hn =>
          have hpos := runeWidth_pos hn
          obtain ⟨hun, hclosed⟩ := ih (k + n) ((b :: s).drop n)
            (by rw [List.length_drop]; omega) h
          rw [runesAux]
          · simp only [hn, List.flatMap_cons]
            obtain ⟨b', t, heq, rfl, hb⟩ | ⟨-, hwide⟩ := runeWidth_spec hn
            · obtain ⟨rfl, rfl⟩ := List.cons.inj heq
              rw [List.drop_one, List.tail_cons] at hun hclosed
              simp only [List.take_succ_cons, List.take_zero, List.drop_succ_cons,
                List.drop_zero]
              obtain he | ⟨he, hesc, hsep⟩ := escapeRune_ascii len k b
              · rw [he]
                exact ⟨by rw [List.cons_append, List.cons_append, List.nil_append,
                  unescape_escaped, hun], .escaped b hclosed⟩
              · rw [he]
                exact ⟨by rw [List.cons_append, List.nil_append, unescape_plain hesc, hun],
                  .plain hesc hsep hclosed⟩
            · rw [escapeRune_wide hwide]
              have hplain : ∀ c ∈ (b :: s).take n, c ≠ 92 ∧ ¬ Separator c := by
                intro c hc
                have hc := hwide c hc
                refine ⟨?_, ?_⟩
                · rintro rfl
                  exact absurd hc (by decide)
                · rintro (rfl | rfl) <;> exact absurd hc (by decide)
              refine ⟨?_, (Closed.of_forall hplain).append hclosed⟩
              rw [unescape_append fun c hc => (hplain c hc).1, hun, List.take_append_drop]
          · simp
        · cases h
      · simp

lemma unescape_escapeValue {s : GoString} (h : utf8Valid s = true) :
    unescape 92 (escapeValue s) = s :=
  (escape_runes s.length 0 s le_rfl h).1

lemma closed_escapeValue {s : GoString} (h : utf8Valid s = true) :
    Closed 92 Separator (escapeValue s) :=
  (escape_runes s.length 0 s le_rfl h).2

/-- The number that decimal digits stand for. -/
def ofDecimal (s : GoString) : ℕ := s.foldl (fun n d => n * 10 + (d.toNat - 48)) 0

lemma ofDecimal_decimalAux {k n : ℕ} (h : n ≤ k) : ofDecimal (decimalAux k n) = n := by
  have hdigit : ∀ d < 10, (UInt8.ofNat (48 + d)).toNat - 48 = d := by decide
  induction k generalizing n with
  | zero =>
    obtain rfl := Nat.le_zero.mp h
    rfl
  | succ k ih =>
    rw [decimalAux]
    split_ifs with hn
    · rw [ofDecimal, List.foldl_cons, List.foldl_nil, hdigit n hn]
      omega
    · have hprev : ofDecimal (decimalAux k (n / 10)) = n / 10 := ih (by omega)
      rw [ofDecimal] at hprev ⊢
      rw [List.foldl_append, hprev, List.foldl_cons, List.foldl_nil, hdigit _ (by omega)]
      omega

lemma mem_decimalAux {k n : ℕ} {c : UInt8} (h : c ∈ decimalAux k n) : 48 ≤ c ∧ c ≤ 57 := by
  have hdigit : ∀ d < 10, 48 ≤ UInt8.ofNat (48 + d) ∧ UInt8.ofNat (48 + d) ≤ 57 := by decide
  induction k generalizing n with
  | zero =>
    rw [List.mem_singleton.mp h]
    exact hdigit _ (by omega)
  | succ k ih =>
    rw [decimalAux] at h
    split_ifs at h with hn
    · rw [List.mem_singleton.mp h]
      exact hdigit n hn
    · obtain h | h := List.mem_append.mp h
      · exact ih h
      · rw [List.mem_singleton.mp h]
        exact hdigit _ (by omega)

lemma decimal_inj {m n : ℕ} (h : decimal m = decimal n) : m = n := by
  have hval : ∀ n : ℕ, ofDecimal (decimal n) = n := by
    intro n
    rw [decimal, if_neg (by omega), Int.natAbs_natCast, ofDecimal_decimalAux le_rfl]
  rw [← hval m, ← hval n, h]

lemma mem_decimal {n : ℕ} {c : UInt8} (h : c ∈ decimal n) : 48 ≤ c ∧ c ≤ 57 := by
  rw [decimal, if_neg (by omega)] at h
  exact mem_decimalAux h

lemma oidString_eq (o : OID) :
    oidString o = List.intercalate [46] (o.map fun n : ℕ => decimal n) := by
  rw [oidString, joinStrings_eq]
  congr 1
  induction o with
  | nil => rfl
  | cons n o ih => simpa using ih

/-- Object identifiers are told apart by their text. -/
lemma oidString_inj {o o' : OID} (ho : o ≠ []) (ho' : o' ≠ []) (h : oidString o = oidString o') :
    o = o' := by
  have hclosed : ∀ (o : OID), ∀ s ∈ o.map fun n : ℕ => decimal n,
      Closed 0 (· ∈ ({46} : Set UInt8)) s := by
    intro o s hs
    obtain ⟨n, -, rfl⟩ := List.mem_map.mp hs
    refine .of_forall fun c hc => ?_
    obtain ⟨hlow, -⟩ := mem_decimal hc
    refine ⟨?_, ?_⟩ <;> rintro rfl <;> exact absurd hlow (by decide)
  rw [oidString_eq, oidString_eq] at h
  have hmap := intercalate_inj (by decide) (Set.mem_singleton (46 : UInt8))
    (List.map_eq_nil_iff.not.mpr ho) (List.map_eq_nil_iff.not.mpr ho') (hclosed o) (hclosed o') h
  exact List.map_injective_iff.mpr (fun m n h => decimal_inj h) hmap

/-- A digit or a dot. -/
lemma mem_oidString {o : OID} {c : UInt8} (h : c ∈ oidString o) : c = 46 ∨ 48 ≤ c ∧ c ≤ 57 := by
  rw [oidString_eq] at h
  induction o with
  | nil => cases h
  | cons n o ih =>
    cases o with
    | nil =>
      rw [List.map_cons, List.map_nil, List.intercalate_singleton] at h
      exact .inr (mem_decimal h)
    | cons m o =>
      rw [List.map_cons, List.map_cons, List.intercalate_cons_cons, List.mem_append,
        List.mem_append, List.mem_singleton] at h
      obtain (h | h) | h := h
      · exact .inr (mem_decimal h)
      · exact .inl h
      · exact ih h

/-! ### Attributes -/

/-- The short name of a type has capital letters only. -/
lemma attributeTypeName_spec {o : OID} {name : GoString} (h : attributeTypeName o = some name) :
    name ≠ [] ∧ ∀ c ∈ name, 65 ≤ c ∧ c ≤ 90 := by
  unfold attributeTypeName at h
  split at h <;> cases h <;> decide +kernel

/-- Types with a short name are told apart by it. -/
lemma attributeTypeName_inj {o o' : OID} {name : GoString} (h : attributeTypeName o = some name)
    (h' : attributeTypeName o' = some name) : o = o' := by
  unfold attributeTypeName at h h'
  split at h <;> cases h <;> split at h' <;> first | rfl | exact absurd h' (by decide)

/-- The type of an attribute in its text. -/
def typeString (o : OID) : GoString := (attributeTypeName o).getD (oidString o)

/-- A type is told apart by its text, which has capital letters, or digits and dots, only. -/
lemma mem_typeString {o : OID} {c : UInt8} (h : c ∈ typeString o) :
    c ≠ 92 ∧ ¬ Separator c ∧ c ≠ 61 := by
  have hrange : 65 ≤ c ∧ c ≤ 90 ∨ c = 46 ∨ 48 ≤ c ∧ c ≤ 57 := by
    unfold typeString at h
    cases hname : attributeTypeName o with
    | some name =>
      rw [hname] at h
      exact .inl ((attributeTypeName_spec hname).2 c h)
    | none =>
      rw [hname] at h
      exact .inr (mem_oidString h)
  refine ⟨?_, ?_, ?_⟩
  · rintro rfl
    revert hrange
    decide
  · rintro (rfl | rfl) <;> revert hrange <;> decide
  · rintro rfl
    revert hrange
    decide

variable {a : AttributeTypeAndValue}

/-- The text of an attribute: its type, and its value without bare separators. -/
lemma attributeString_eq {v : GoString} (hv : a.value = .string v) :
    attributeString a = typeString a.type ++ 61 :: escapeValue v := by
  unfold attributeString typeString
  rw [hv]
  cases attributeTypeName a.type with
  | some name =>
    show (name ++ str "=") ++ escapeValue v = _
    rw [List.append_assoc]
    rfl
  | none =>
    show (oidString a.type ++ str "=") ++ escapeValue v = _
    rw [List.append_assoc]
    rfl

lemma closed_attributeString (ha : a.Textual) :
    Closed 92 Separator (attributeString a) := by
  obtain ⟨-, v, hv, hutf⟩ := ha
  rw [attributeString_eq hv]
  exact (Closed.of_forall fun c hc => ⟨(mem_typeString hc).1, (mem_typeString hc).2.1⟩).append
    (.plain (by decide) (by rintro (h | h) <;> exact absurd h (by decide))
      (closed_escapeValue hutf))

lemma attributeString_ne_nil (ha : a.Textual) :
    attributeString a ≠ [] := by
  obtain ⟨-, v, hv, -⟩ := ha
  rw [attributeString_eq hv]
  simp

/-- A short name is no object identifier. -/
lemma oidString_ne_typeName {o o' : OID} (h : attributeTypeName o = some (oidString o')) :
    False := by
  obtain ⟨hne, hletters⟩ := attributeTypeName_spec h
  obtain ⟨c, s, hs⟩ := List.exists_cons_of_ne_nil hne
  have hc : c ∈ oidString o' := hs ▸ List.mem_cons_self
  obtain rfl | ⟨-, hhigh⟩ := mem_oidString hc
  · exact absurd (hletters _ hc).1 (by decide)
  · exact absurd (UInt8.le_trans (hletters _ hc).1 hhigh) (by decide)

/-- Types are told apart by their texts. -/
lemma typeString_inj {o o' : OID} (ho : o ≠ []) (ho' : o' ≠ []) (h : typeString o = typeString o') :
    o = o' := by
  unfold typeString at h
  cases hname : attributeTypeName o with
  | some name =>
    cases hname' : attributeTypeName o' with
    | some name' =>
      rw [hname, hname', Option.getD_some, Option.getD_some] at h
      exact attributeTypeName_inj hname (h ▸ hname')
    | none =>
      rw [hname, hname', Option.getD_some, Option.getD_none] at h
      exact (oidString_ne_typeName (h ▸ hname)).elim
  | none =>
    cases hname' : attributeTypeName o' with
    | some name' =>
      rw [hname, hname', Option.getD_some, Option.getD_none] at h
      exact (oidString_ne_typeName (h ▸ hname')).elim
    | none =>
      rw [hname, hname'] at h
      exact oidString_inj ho ho' h

/-- **Attributes** are told apart by their text. -/
lemma attributeString_inj {a' : AttributeTypeAndValue} (ha : a.Textual) (ha' : a'.Textual)
    (h : attributeString a = attributeString a') : a = a' := by
  obtain ⟨hoid, v, hv, hutf⟩ := ha
  obtain ⟨hoid', v', hv', hutf'⟩ := ha'
  obtain ⟨type, value⟩ := a
  obtain ⟨type', value'⟩ := a'
  cases hv
  cases hv'
  -- the type ends at the first equals sign
  rw [attributeString_eq rfl, attributeString_eq rfl] at h
  obtain ⟨htype, hvalue⟩ := split_of_notMem (fun hc => (mem_typeString hc).2.2 rfl)
    (fun hc => (mem_typeString hc).2.2 rfl) h
  have hne : ∀ {o : OID}, smallOID o = true → o ≠ [] := by
    rintro _ h rfl
    cases h
  obtain rfl := typeString_inj (hne hoid) (hne hoid') htype
  rw [← unescape_escapeValue hutf, hvalue, unescape_escapeValue hutf']

/-! ### Names -/

/-- The text of a set of attributes. -/
def rdnString (rdn : List AttributeTypeAndValue) : GoString :=
  List.intercalate [43] (rdn.map attributeString)

lemma RDNSequence.string_eq (r : RDNSequence) :
    r.string = List.intercalate [44] (r.reverse.map rdnString) := by
  rw [RDNSequence.string, joinStrings_eq]
  congr 2
  funext rdn
  exact joinStrings_eq _ _

variable {rdn : List AttributeTypeAndValue}

lemma rdnString_ne_nil (h : ∀ a ∈ rdn, a.Textual) (hne : rdn ≠ []) : rdnString rdn ≠ [] := by
  obtain ⟨a, rdn, rfl⟩ := List.exists_cons_of_ne_nil hne
  have ha := attributeString_ne_nil (h a List.mem_cons_self)
  rw [rdnString, List.map_cons]
  cases rdn with
  | nil => simpa using ha
  | cons b rdn =>
    rw [List.map_cons, List.intercalate_cons_cons]
    simp

lemma closed_rdnString (h : ∀ a ∈ rdn, a.Textual) :
    Closed 92 (· ∈ ({44} : Set UInt8)) (rdnString rdn) := by
  refine .intercalate (by decide) (by decide) fun s hs => ?_
  obtain ⟨a, ha, rfl⟩ := List.mem_map.mp hs
  exact (closed_attributeString (h a ha)).mono fun c hc => .inl hc

/-- A list of texts that are told apart. -/
lemma map_inj_of_mem {β γ : Type} {f : β → γ} {P : β → Prop}
    (hf : ∀ {x y}, P x → P y → f x = f y → x = y) {l l' : List β} (hl : ∀ x ∈ l, P x)
    (hl' : ∀ x ∈ l', P x) (h : l.map f = l'.map f) : l = l' := by
  induction l generalizing l' with
  | nil => exact (List.map_eq_nil_iff.mp h.symm).symm
  | cons x l ih =>
    obtain ⟨y, l', rfl⟩ : ∃ y k, l' = y :: k := by
      cases l' with
      | nil => cases h
      | cons y k => exact ⟨y, k, rfl⟩
    obtain ⟨hx, hl⟩ := List.forall_mem_cons.mp hl
    obtain ⟨hy, hl'⟩ := List.forall_mem_cons.mp hl'
    obtain ⟨hxy, htail⟩ := List.cons.inj h
    rw [hf hx hy hxy, ih hl hl' htail]

lemma rdnString_inj {rdn' : List AttributeTypeAndValue} (h : ∀ a ∈ rdn, a.Textual)
    (h' : ∀ a ∈ rdn', a.Textual) (heq : rdnString rdn = rdnString rdn') : rdn = rdn' := by
  by_cases hne : rdn = []
  · subst hne
    by_contra hne'
    exact rdnString_ne_nil h' (Ne.symm hne') heq.symm
  by_cases hne' : rdn' = []
  · subst hne'
    exact absurd heq (rdnString_ne_nil h hne)
  have hclosed : ∀ {r : List AttributeTypeAndValue}, (∀ a ∈ r, a.Textual) →
      ∀ s ∈ r.map attributeString, Closed 92 Separator s := by
    intro r hr s hs
    obtain ⟨a, ha, rfl⟩ := List.mem_map.mp hs
    exact closed_attributeString (hr a ha)
  refine map_inj_of_mem attributeString_inj h h' ?_
  exact intercalate_inj (by rintro (h | h) <;> exact absurd h (by decide)) (.inr rfl)
    (List.map_eq_nil_iff.not.mpr hne) (List.map_eq_nil_iff.not.mpr hne') (hclosed h) (hclosed h')
    heq

/-- **Names** are told apart by their text, up to empty sets. -/
lemma RDNSequence.string_inj {r r' : RDNSequence} (h : Textual r) (h' : Textual r') (hr : r ≠ [])
    (hsets : ∀ rdn ∈ r, rdn ≠ []) (heq : r.string = r'.string) : r = r' := by
  rw [string_eq, string_eq] at heq
  have hclosed : ∀ {r : RDNSequence}, Textual r → ∀ s ∈ r.reverse.map rdnString,
      Closed 92 (· ∈ ({44} : Set UInt8)) s := by
    intro r hr s hs
    obtain ⟨rdn, hrdn, rfl⟩ := List.mem_map.mp hs
    exact closed_rdnString (hr rdn (List.mem_reverse.mp hrdn))
  have hr' : r' ≠ [] := by
    rintro rfl
    -- the last set comes first in the text, and it is not empty
    obtain ⟨rdn, rs, hrs⟩ := List.exists_cons_of_ne_nil (List.reverse_ne_nil_iff.mpr hr)
    have hmem : rdn ∈ r := List.mem_reverse.mp (hrs ▸ List.mem_cons_self)
    have hne := rdnString_ne_nil (h rdn hmem) (hsets rdn hmem)
    rw [hrs, List.map_cons] at heq
    cases rs with
    | nil => exact hne (by simpa using heq)
    | cons t rs => simp [List.intercalate_cons_cons] at heq
  have hmap : r.reverse.map rdnString = r'.reverse.map rdnString :=
    intercalate_inj (by decide) (Set.mem_singleton (44 : UInt8)) (by simpa using hr)
      (by simpa using hr') (hclosed h) (hclosed h') heq
  have hrev : r.reverse = r'.reverse :=
    map_inj_of_mem rdnString_inj (fun rdn hrdn => h rdn (List.mem_reverse.mp hrdn))
      (fun rdn hrdn => h' rdn (List.mem_reverse.mp hrdn)) hmap
  exact List.reverse_injective hrev

/-! ### The order of attributes -/

/-- The strings of one type under `2.5.4`. -/
def valuesOf (t : ℕ) (l : List AttributeTypeAndValue) : List GoString :=
  l.filterMap fun a =>
    match a.value, a.type with
    | .string v, [2, 5, 4, t'] => if t' = t then some v else none
    | _, _ => none

/-- An attribute that has a field in `pkix.Name`. -/
def typedValue (t : ℕ) (v : GoString) : AttributeTypeAndValue := ⟨[2, 5, 4, t], .string v⟩

/-- One set of all the values of a type. -/
def groupOf (l : List AttributeTypeAndValue) (t : ℕ) : RDNSequence :=
  if valuesOf t l = [] then [] else [(valuesOf t l).map (typedValue t)]

/-- The last value of a type, unless it is empty. -/
def lastOf (l : List AttributeTypeAndValue) (t : ℕ) : RDNSequence :=
  if (valuesOf t l).getLast?.getD [] = [] then []
  else [[typedValue t ((valuesOf t l).getLast?.getD [])]]

/-- **The canonical form** of a name: the attributes without a field first, one in each set,
then the countries, provinces, localities, streets, postal codes, organizations and units, each
kind in one set, then the last common name and the last serial number. -/
def canonical (r : RDNSequence) : RDNSequence :=
  (r.flatten.filter fun a => !isTypedNameAttribute a.type).map (fun a => [a]) ++
    [6, 8, 7, 9, 17, 10, 11].flatMap (groupOf r.flatten) ++ [3, 5].flatMap (lastOf r.flatten)

lemma valuesOf_cons (t : ℕ) (a : AttributeTypeAndValue) (l : List AttributeTypeAndValue) :
    valuesOf t (a :: l) = valuesOf t [a] ++ valuesOf t l := by
  rw [valuesOf, ← List.singleton_append, List.filterMap_append]
  rfl

lemma valuesOf_append (t : ℕ) (l l' : List AttributeTypeAndValue) :
    valuesOf t (l ++ l') = valuesOf t l ++ valuesOf t l' := List.filterMap_append

/-- One attribute read into a name. -/
lemma fillAttribute_eq (n : Name) (a : AttributeTypeAndValue) :
    n.fillAttribute a =
      { country := n.country ++ valuesOf 6 [a]
        organization := n.organization ++ valuesOf 10 [a]
        organizationalUnit := n.organizationalUnit ++ valuesOf 11 [a]
        locality := n.locality ++ valuesOf 7 [a]
        province := n.province ++ valuesOf 8 [a]
        streetAddress := n.streetAddress ++ valuesOf 9 [a]
        postalCode := n.postalCode ++ valuesOf 17 [a]
        serialNumber := (valuesOf 5 [a]).getLast?.getD n.serialNumber
        commonName := (valuesOf 3 [a]).getLast?.getD n.commonName
        names := n.names ++ [a]
        extraNames := n.extraNames } := by
  obtain ⟨type, value⟩ := a
  have hother : (∀ v t, ¬ (value = .string v ∧ type = [2, 5, 4, t])) →
      ∀ t, valuesOf t [⟨type, value⟩] = [] := by
    intro h t
    rw [valuesOf, List.filterMap_cons_none, List.filterMap_nil]
    split
    · next v t' hv ht => exact absurd ⟨hv, ht⟩ (h v t')
    · rfl
  by_cases h : ∃ v t, value = .string v ∧ type = [2, 5, 4, t]
  · obtain ⟨v, t, rfl, rfl⟩ := h
    have hval : ∀ k, valuesOf k [⟨[2, 5, 4, t], .string v⟩] = if t = k then [v] else [] := by
      intro k
      simp only [valuesOf, List.filterMap_cons, List.filterMap_nil]
      split_ifs <;> rfl
    simp only [Name.fillAttribute, hval]
    split_ifs <;> first | omega | simp
  · push Not at h
    have hnone := hother fun v t hvt => h v t hvt.1 hvt.2
    simp only [hnone, List.append_nil, List.getLast?_nil, Option.getD_none]
    unfold Name.fillAttribute
    split
    · next v t hv ht => exact absurd ht (h v t hv)
    · rfl

lemma foldl_fillAttribute (l : List AttributeTypeAndValue) (n : Name) :
    l.foldl Name.fillAttribute n =
      { country := n.country ++ valuesOf 6 l
        organization := n.organization ++ valuesOf 10 l
        organizationalUnit := n.organizationalUnit ++ valuesOf 11 l
        locality := n.locality ++ valuesOf 7 l
        province := n.province ++ valuesOf 8 l
        streetAddress := n.streetAddress ++ valuesOf 9 l
        postalCode := n.postalCode ++ valuesOf 17 l
        serialNumber := (valuesOf 5 l).getLast?.getD n.serialNumber
        commonName := (valuesOf 3 l).getLast?.getD n.commonName
        names := n.names ++ l
        extraNames := n.extraNames } := by
  have hlast : ∀ (s s' : List GoString) (d : GoString),
      (s ++ s').getLast?.getD d = s'.getLast?.getD (s.getLast?.getD d) := by
    intro s s' d
    rw [List.getLast?_append]
    cases s'.getLast? <;> rfl
  induction l generalizing n with
  | nil => simp [valuesOf]
  | cons a l ih =>
    rw [List.foldl_cons, ih, fillAttribute_eq]
    simp only [valuesOf_cons _ a l, List.append_assoc, List.singleton_append, hlast]

/-- **The name that is written** for a decoded name is in canonical form. -/
lemma toFullRDNSequence_fill (r : RDNSequence) :
    (Name.fillFromRDNSequence r).toFullRDNSequence = canonical r := by
  have happend : ∀ (n : Name) (vs : List GoString) t, n.extraNames = none →
      n.appendRDNs vs t = if vs = [] then [] else [vs.map (typedValue t)] := by
    intro n vs t hn
    simp only [Name.appendRDNs, hn, Option.getD_none, List.any_nil, Bool.false_eq_true, or_false]
    rfl
  rw [Name.fillFromRDNSequence, foldl_fillAttribute]
  simp only [Name.toFullRDNSequence, Name.toRDNSequence, happend, Option.isNone_none, if_true,
    List.nil_append, Option.getD_none, List.map_nil, List.append_nil]
  simp only [canonical, List.flatMap_cons, List.flatMap_nil, List.append_nil, List.append_assoc,
    groupOf, lastOf]
  congr 9 <;> split_ifs <;> simp_all

/-- The values come from attributes. -/
lemma mem_valuesOf {t : ℕ} {l : List AttributeTypeAndValue} {v : GoString} :
    v ∈ valuesOf t l ↔ typedValue t v ∈ l := by
  rw [valuesOf, List.mem_filterMap]
  constructor
  · rintro ⟨⟨type, value⟩, ha, h⟩
    simp only at h
    split at h
    · split_ifs at h with ht
      cases h
      subst ht
      exact ha
    · cases h
  · intro h
    exact ⟨_, h, by simp [typedValue]⟩

lemma getLast_mem_of_ne_nil {l : List GoString} (h : l.getLast?.getD [] ≠ []) :
    l.getLast?.getD [] ∈ l := by
  cases hl : l.getLast? with
  | none => simp [hl] at h
  | some v => exact List.mem_of_getLast? hl

/-- The attributes of the canonical form are attributes of the name. -/
lemma mem_of_mem_canonical {r : RDNSequence} (hrdn : rdn ∈ canonical r) (ha : a ∈ rdn) :
    a ∈ r.flatten := by
  simp only [canonical, List.mem_append, List.mem_map, List.mem_filter, List.mem_flatMap] at hrdn
  obtain (⟨b, ⟨hb, -⟩, rfl⟩ | ⟨t, -, ht⟩) | ⟨t, -, ht⟩ := hrdn
  · rwa [List.mem_singleton.mp ha]
  · rw [groupOf] at ht
    split_ifs at ht
    · cases ht
    · rw [List.mem_singleton.mp ht] at ha
      obtain ⟨v, hv, rfl⟩ := List.mem_map.mp ha
      exact mem_valuesOf.mp hv
  · rw [lastOf] at ht
    split_ifs at ht with hlast
    · cases ht
    · rw [List.mem_singleton.mp ht] at ha
      rw [List.mem_singleton.mp ha]
      exact mem_valuesOf.mp (getLast_mem_of_ne_nil hlast)

lemma Textual.canonical {r : RDNSequence} (h : Textual r) : Textual (canonical r) := by
  intro rdn hrdn a ha
  obtain ⟨rdn', hrdn', ha'⟩ := List.mem_flatten.mp (mem_of_mem_canonical hrdn ha)
  exact h rdn' hrdn' a ha'

lemma ne_nil_of_mem_canonical {r : RDNSequence} (hrdn : rdn ∈ canonical r) : rdn ≠ [] := by
  simp only [canonical, List.mem_append, List.mem_map, List.mem_flatMap] at hrdn
  obtain (⟨b, -, rfl⟩ | ⟨t, -, ht⟩) | ⟨t, -, ht⟩ := hrdn
  · simp
  · rw [groupOf] at ht
    split_ifs at ht with hne
    · cases ht
    · rw [List.mem_singleton.mp ht]
      exact List.map_eq_nil_iff.not.mpr hne
  · rw [lastOf] at ht
    split_ifs at ht
    · cases ht
    · rw [List.mem_singleton.mp ht]
      simp

/-! What the canonical form is made of again. -/

lemma flatten_groupOf (l : List AttributeTypeAndValue) (t : ℕ) :
    (groupOf l t).flatten = (valuesOf t l).map (typedValue t) := by
  rw [groupOf]
  split_ifs with h
  · simp [h]
  · simp

lemma valuesOf_typedValue (k t : ℕ) (vs : List GoString) :
    valuesOf k (vs.map (typedValue t)) = if t = k then vs else [] := by
  induction vs with
  | nil => simp [valuesOf]
  | cons v vs ih =>
    have hone : valuesOf k [typedValue t v] = if t = k then [v] else [] := by
      simp only [valuesOf, typedValue, List.filterMap_cons, List.filterMap_nil]
      split_ifs <;> rfl
    rw [List.map_cons, valuesOf_cons, hone, ih]
    split_ifs <;> rfl

lemma valuesOf_lastOf (k t : ℕ) (l : List AttributeTypeAndValue) :
    valuesOf k (lastOf l t).flatten = if t = k then
      (if (valuesOf t l).getLast?.getD [] = [] then [] else [(valuesOf t l).getLast?.getD []])
      else [] := by
  rw [lastOf]
  split_ifs with h ht ht
  · rfl
  · rfl
  · simp only [List.flatten_cons, List.flatten_nil, List.append_nil]
    exact (valuesOf_typedValue k t [_]).trans (if_pos ht)
  · simp only [List.flatten_cons, List.flatten_nil, List.append_nil]
    exact (valuesOf_typedValue k t [_]).trans (if_neg ht)

/-- The attributes without a field have no values of a type with one. -/
lemma valuesOf_untyped {k : ℕ} (hk : typedAttribute k = true) (l : List AttributeTypeAndValue) :
    valuesOf k (l.filter fun a => !isTypedNameAttribute a.type) = [] := by
  rw [List.eq_nil_iff_forall_not_mem]
  intro v hv
  obtain ⟨-, h⟩ := List.mem_filter.mp (mem_valuesOf.mp hv)
  simp [typedValue, isTypedNameAttribute, hk] at h

/-- The attributes with a field are no others. -/
lemma filter_typedValue {t : ℕ} (ht : typedAttribute t = true) (vs : List GoString) :
    (vs.map (typedValue t)).filter (fun a => !isTypedNameAttribute a.type) = [] := by
  rw [List.filter_eq_nil_iff]
  intro a ha
  obtain ⟨v, -, rfl⟩ := List.mem_map.mp ha
  simp [typedValue, isTypedNameAttribute, ht]

lemma flatten_canonical (r : RDNSequence) :
    (canonical r).flatten = r.flatten.filter (fun a => !isTypedNameAttribute a.type) ++
      ([6, 8, 7, 9, 17, 10, 11].flatMap (fun t => (valuesOf t r.flatten).map (typedValue t)) ++
        [3, 5].flatMap fun t => (lastOf r.flatten t).flatten) := by
  have hone : ∀ l : List AttributeTypeAndValue, (l.map fun a => [a]).flatten = l := by
    intro l
    induction l with
    | nil => rfl
    | cons a l ih => rw [List.map_cons, List.flatten_cons, ih]; rfl
  rw [canonical, List.flatten_append, List.flatten_append, hone, List.append_assoc]
  simp only [List.flatMap_cons, List.flatMap_nil, List.append_nil, List.flatten_append,
    flatten_groupOf]

/-- **A second pass** changes nothing. -/
lemma canonical_idem (r : RDNSequence) : canonical (canonical r) = canonical r := by
  have hgroup : ∀ t ∈ [6, 8, 7, 9, 17, 10, 11],
      valuesOf t (canonical r).flatten = valuesOf t r.flatten := by
    intro t ht
    have htyped : typedAttribute t = true := by
      revert t
      decide
    rw [flatten_canonical, valuesOf_append, valuesOf_untyped htyped, List.nil_append]
    simp only [List.mem_cons, List.not_mem_nil, or_false] at ht
    rcases ht with rfl | rfl | rfl | rfl | rfl | rfl | rfl <;>
      simp [valuesOf_append, valuesOf_typedValue, valuesOf_lastOf]
  have hlast : ∀ t ∈ [3, 5], (valuesOf t (canonical r).flatten).getLast?.getD [] =
      (valuesOf t r.flatten).getLast?.getD [] := by
    intro t ht
    have htyped : typedAttribute t = true := by
      revert t
      decide
    rw [flatten_canonical, valuesOf_append, valuesOf_untyped htyped, List.nil_append]
    simp only [List.mem_cons, List.not_mem_nil, or_false] at ht
    rcases ht with rfl | rfl <;>
      simp only [valuesOf_append, valuesOf_typedValue, valuesOf_lastOf, List.flatMap_cons,
        List.flatMap_nil, List.append_nil, List.nil_append, if_true, reduceIte,
        Nat.reduceEqDiff] <;>
      split_ifs with h <;> simp [h]
  have huntyped : (canonical r).flatten.filter (fun a => !isTypedNameAttribute a.type) =
      r.flatten.filter fun a => !isTypedNameAttribute a.type := by
    have hsingle : ∀ t, typedAttribute t = true →
        (lastOf r.flatten t).flatten.filter (fun a => !isTypedNameAttribute a.type) = [] := by
      intro t ht
      rw [lastOf]
      split_ifs
      · rfl
      · exact filter_typedValue ht [_]
    rw [flatten_canonical, List.filter_append, List.filter_filter]
    simp [filter_typedValue, hsingle, show typedAttribute 6 = true from rfl,
      show typedAttribute 10 = true from rfl, show typedAttribute 11 = true from rfl,
      show typedAttribute 7 = true from rfl, show typedAttribute 8 = true from rfl,
      show typedAttribute 9 = true from rfl, show typedAttribute 17 = true from rfl,
      show typedAttribute 3 = true from rfl, show typedAttribute 5 = true from rfl]
  have hgroups : [6, 8, 7, 9, 17, 10, 11].flatMap (groupOf (canonical r).flatten) =
      [6, 8, 7, 9, 17, 10, 11].flatMap (groupOf r.flatten) :=
    List.flatMap_congr fun t ht => by rw [groupOf, groupOf, hgroup t ht]
  have hlasts : [3, 5].flatMap (lastOf (canonical r).flatten) =
      [3, 5].flatMap (lastOf r.flatten) :=
    List.flatMap_congr fun t ht => by rw [lastOf, lastOf, hlast t ht]
  rw [canonical, huntyped, hgroups, hlasts, ← canonical]

end PkiCmp
