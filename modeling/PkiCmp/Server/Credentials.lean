/-
What the digests of senders and transactions are computed over (`server/handler.go`,
`server/transaction.go`).

* `SenderIdentity.macOctets`, `keyOctets`: the octets that `credentialID` and `makeKey` hash;
* `hashed_unambiguous`: **they determine their parts**, and those of a shared secret are not
  those of a certificate;
* `GeneralName.Foreign`: a sender with the tag [APPLICATION 4], which no GeneralName has;
* `senderNameKey_same_iff`: senders with one key are the same, but for such a tag.
-/
import PkiCmp.Codec.Types
import PkiCmp.Server.Transaction

namespace PkiCmp

open Der

/-! ### Length prefixes -/

lemma lengthPrefixed_inj {a a' : Bytes} (h : lengthPrefixed a = lengthPrefixed a') : a = a' :=
  (List.append_inj h (by rw [length_beOctets, length_beOctets])).2

/-- The octets that `makeKey` hashes. -/
def keyOctets (credentialID transactionID : Bytes) : Bytes :=
  lengthPrefixed credentialID ++ lengthPrefixed transactionID

lemma keyOctets_inj {c c' x x' : Bytes} (hc : c.length < 2 ^ 32) (hc' : c'.length < 2 ^ 32)
    (h : keyOctets c x = keyOctets c' x') : c = c' ∧ x = x' := by
  obtain ⟨hcred, htxn⟩ := TrackerConfig.lengthPrefixed_append_inj hc hc' h
  exact ⟨hcred, lengthPrefixed_inj htxn⟩

namespace SenderIdentity

/-- The octets that `credentialID` hashes for a shared secret. -/
def macOctets (s : SenderIdentity) : Bytes :=
  str "cmp-mac" ++ lengthPrefixed s.senderKID ++ lengthPrefixed (senderNameKey s.headerSender)

lemma macOctets_inj {s s' : SenderIdentity} (hs : s.senderKID.length < 2 ^ 32)
    (hs' : s'.senderKID.length < 2 ^ 32) (h : s.macOctets = s'.macOctets) :
    s.senderKID = s'.senderKID ∧
      senderNameKey s.headerSender = senderNameKey s'.headerSender := by
  simp only [macOctets, List.append_assoc] at h
  obtain ⟨hkid, hname⟩ :=
    TrackerConfig.lengthPrefixed_append_inj hs hs' (List.append_cancel_left h)
  exact ⟨hkid, lengthPrefixed_inj hname⟩

lemma head?_macOctets (s : SenderIdentity) : s.macOctets.head? = some 99 := rfl

/-- A certificate starts with the tag of a SEQUENCE. -/
lemma macOctets_ne {s : SenderIdentity} {cert : Certificate}
    (h : cert.raw.head? = some tagSequence) : s.macOctets ≠ cert.raw := by
  intro heq
  rw [← heq, head?_macOctets] at h
  cases h

lemma credentialID_of_mac (cr : Crypto) {s : SenderIdentity} (h : s.macVerified = true) :
    s.credentialID cr = .ok (cr.hash .sha256 s.macOctets) := by
  rw [credentialID, if_pos h, macOctets]

lemma credentialID_of_certificate (cr : Crypto) {s : SenderIdentity} {cert : Certificate}
    (h : s.macVerified = false) (hcert : s.certificate = some cert) :
    s.credentialID cr = .ok (cr.hash .sha256 cert.raw) := by
  rw [credentialID, if_neg (by simp [h]), hcert]

end SenderIdentity

/-- **The hashed octets are unambiguous.**  What `makeKey` hashes determines the credential and the
transaction, what `credentialID` hashes for a shared secret determines the key identifier and the
name key, and it is never a certificate: a shared secret and a certificate have one credential
only if SHA-256 has one digest for the two. -/
theorem hashed_unambiguous :
    (∀ (t : TrackerConfig) (c x : Bytes), t.makeKey c x = t.sha256 (keyOctets c x)) ∧
    (∀ c x c' x' : Bytes, c.length < 2 ^ 32 → x.length < 2 ^ 32 → c'.length < 2 ^ 32 →
      x'.length < 2 ^ 32 → keyOctets c x = keyOctets c' x' → c = c' ∧ x = x') ∧
    (∀ (cr : Crypto) (s : SenderIdentity), s.macVerified = true →
      s.credentialID cr = .ok (cr.hash .sha256 s.macOctets)) ∧
    (∀ s s' : SenderIdentity, s.senderKID.length < 2 ^ 32 → s'.senderKID.length < 2 ^ 32 →
      (senderNameKey s.headerSender).length < 2 ^ 32 →
      (senderNameKey s'.headerSender).length < 2 ^ 32 → s.macOctets = s'.macOctets →
      s.senderKID = s'.senderKID ∧ senderNameKey s.headerSender = senderNameKey s'.headerSender) ∧
    (∀ (s : SenderIdentity) (cert : Certificate), cert.raw.head? = some tagSequence →
      s.macOctets ≠ cert.raw) ∧
    ∀ (cr : Crypto) (s s' : SenderIdentity) (cert : Certificate),
      s.macVerified = true → s'.macVerified = false → s'.certificate = some cert →
      cert.raw.head? = some tagSequence →
      (cr.hash .sha256 s.macOctets = cr.hash .sha256 cert.raw → s.macOctets = cert.raw) →
      s.credentialID cr ≠ s'.credentialID cr := by
  refine ⟨fun _ _ _ => rfl, fun c x c' x' hc _ hc' _ h => keyOctets_inj hc hc' h,
    fun cr s h => SenderIdentity.credentialID_of_mac cr h,
    fun s s' hs hs' _ _ h => SenderIdentity.macOctets_inj hs hs' h,
    fun s cert h => SenderIdentity.macOctets_ne h, ?_⟩
  intro cr s s' cert hs hs' hcert hhead hsha
  rw [SenderIdentity.credentialID_of_mac cr hs,
    SenderIdentity.credentialID_of_certificate cr hs' hcert]
  exact fun h => SenderIdentity.macOctets_ne hhead (hsha (Except.ok.inj h))

/-- Moving an octet over a boundary gives other octets, and a shared secret has not the credential
of a certificate. -/
theorem hashed_unambiguous_sample :
    keyOctets [1] [2, 3] ≠ keyOctets [1, 2] [3] ∧
    (SenderIdentity.mk none {} [1] true none [] none {}).macOctets ≠
      (SenderIdentity.mk none {} [] true none [] none { raw := [1] }).macOctets ∧
    (SenderIdentity.mk none {} [1] true none [] none {}).credentialID .sample ≠
      (SenderIdentity.mk (some { raw := [48, 0] }) {} [] false none [] none {}).credentialID
        .sample := by
  obtain ⟨-, hkey, -, hmac, -, hshared⟩ := hashed_unambiguous
  refine ⟨fun h => ?_, fun h => ?_, ?_⟩
  · have heq := (hkey _ _ _ _ (by decide) (by decide) (by decide) (by decide) h).1
    exact absurd heq (by decide)
  · have heq := (hmac _ _ (by decide) (by decide) (by decide) (by decide) h).1
    exact absurd heq (by decide)
  · exact hshared _ _ _ _ rfl rfl rfl rfl id

/-! ### Names -/

namespace GeneralName

/-- The tag is [APPLICATION 4], which is the letter `d`. -/
def Foreign (g : GeneralName) : Prop := g.raw.head? = some 0x64

/-- One sender: directory names with one text, or other names with one encoding. -/
def Same (g g' : GeneralName) : Prop :=
  (g.directoryName ≠ [] ∧ g'.directoryName ≠ [] ∧
      g.directoryName.string = g'.directoryName.string) ∨
    (g.directoryName = [] ∧ g'.directoryName = [] ∧ g.raw = g'.raw)

/-- Only the tag of a directory name has a directory name. -/
lemma head?_of_directoryName {s s' : Bytes} {g : GeneralName} (h : unmarshal s = .ok (g, s'))
    (hg : g.directoryName ≠ []) : g.raw.head? = some (contextConstructed 4) := by
  obtain ⟨e, s1, he, h⟩ := Reader.bind_ok.mp h
  obtain ⟨-, helem, -, -⟩ := readAnyASN1_eq_some_iff.mp (Reader.read_ok.mp he)
  split_ifs at h with h4 h1
  · obtain ⟨rdns, s2, -, h⟩ := Reader.bind_ok.mp h
    cases h
    rw [helem, h4]
    rfl
  · cases h
    exact absurd rfl hg
  · cases h
    exact absurd rfl hg

lemma not_foreign_of_directoryName {s s' : Bytes} {g : GeneralName}
    (h : unmarshal s = .ok (g, s')) (hg : g.directoryName ≠ []) : ¬ g.Foreign := by
  rw [Foreign, head?_of_directoryName h hg]
  decide

/-- The key of a directory name starts like the encoding of a foreign name. -/
lemma foreign_of_key {g g' : GeneralName} (hg : g.directoryName ≠ []) (hg' : g'.directoryName = [])
    (h : senderNameKey g = senderNameKey g') : g'.Foreign := by
  rw [senderNameKey, senderNameKey, if_pos hg, if_neg (not_not.mpr hg')] at h
  rw [Foreign, ← h]
  rfl

end GeneralName

/-- **Names with one key are the same sender**, exactly when both or neither of them have the tag
[APPLICATION 4]. -/
theorem senderNameKey_same_iff {s s' t t' : Bytes} {g g' : GeneralName}
    (hg : GeneralName.unmarshal s = .ok (g, t)) (hg' : GeneralName.unmarshal s' = .ok (g', t'))
    (hkey : senderNameKey g = senderNameKey g') : g.Same g' ↔ (g.Foreign ↔ g'.Foreign) := by
  by_cases hd : g.directoryName = [] <;> by_cases hd' : g'.directoryName = []
  · have hraw : g.raw = g'.raw := by
      rwa [senderNameKey, senderNameKey, if_neg (not_not.mpr hd), if_neg (not_not.mpr hd')] at hkey
    refine iff_of_true (.inr ⟨hd, hd', hraw⟩) ?_
    rw [GeneralName.Foreign, GeneralName.Foreign, hraw]
  · have hforeign := GeneralName.foreign_of_key hd' hd hkey.symm
    have hnot := GeneralName.not_foreign_of_directoryName hg' hd'
    simp [GeneralName.Same, hd, hd', hforeign, hnot]
  · have hforeign := GeneralName.foreign_of_key hd hd' hkey
    have hnot := GeneralName.not_foreign_of_directoryName hg hd
    simp [GeneralName.Same, hd, hd', hforeign, hnot]
  · have htext : g.directoryName.string = g'.directoryName.string := by
      rw [senderNameKey, senderNameKey, if_pos hd, if_pos hd'] at hkey
      exact List.append_cancel_left hkey
    exact iff_of_true (.inl ⟨hd, hd', htext⟩)
      (iff_of_false (GeneralName.not_foreign_of_directoryName hg hd)
        (GeneralName.not_foreign_of_directoryName hg' hd'))

/-- The directory name with the common name `text`, as a string of some type. -/
def commonNameSender (tag : UInt8) (text : GoString) : Bytes :=
  element (contextConstructed 4) (element tagSequence (element tagSet (element tagSequence
    ([6, 3, 85, 4, 3] ++ element tag text))))

/-- An element with the tag [APPLICATION 4]; with a content of 110 octets it starts with the
octets of `dn:`. -/
def foreignSender (text : GoString) : Bytes := element 0x64 (str ":CN=" ++ text)

/-- **A directory name and another name with one key**, and so with one credential. -/
theorem senderNameKey_shared :
    ∃ g g',
      GeneralName.unmarshal (commonNameSender tagUTF8String (List.replicate 106 97)) = .ok (g, []) ∧
      GeneralName.unmarshal (foreignSender (List.replicate 106 97)) = .ok (g', []) ∧
      senderNameKey g = senderNameKey g' ∧ g.directoryName ≠ [] ∧ g'.directoryName = [] ∧
      ∀ cr senderKID, ({ senderKID, macVerified := true, headerSender := g } :
          SenderIdentity).credentialID cr =
        ({ senderKID, macVerified := true, headerSender := g' } : SenderIdentity).credentialID
          cr := by
  have hkey : senderNameKey
      { directoryName := [[⟨[2, 5, 4, 3], .string (List.replicate 106 97)⟩]]
        raw := commonNameSender tagUTF8String (List.replicate 106 97) } =
      senderNameKey { raw := foreignSender (List.replicate 106 97) } := by
    decide +kernel
  refine ⟨_, _, ?_, ?_, hkey, by decide, rfl, fun cr senderKID => ?_⟩
  · decide +kernel
  · decide +kernel
  · simp only [SenderIdentity.credentialID, hkey]

/-- Two encodings of one directory name. -/
theorem senderNameKey_same_sample :
    ∃ g g', GeneralName.unmarshal (commonNameSender tagUTF8String [97]) = .ok (g, []) ∧
      GeneralName.unmarshal (commonNameSender 19 [97]) = .ok (g', []) ∧ g.raw ≠ g'.raw ∧
      g.Same g' ∧ ¬ g.Foreign := by
  have hread : ∀ tag, tag = tagUTF8String ∨ tag = 19 →
      GeneralName.unmarshal (commonNameSender tag [97]) =
        .ok (⟨[[⟨[2, 5, 4, 3], .string [97]⟩]], [], commonNameSender tag [97]⟩, []) := by
    rintro tag (rfl | rfl) <;> decide +kernel
  have hg := hread _ (.inl rfl)
  have hg' := hread _ (.inr rfl)
  have hnot := GeneralName.not_foreign_of_directoryName hg (List.cons_ne_nil _ _)
  have hnot' := GeneralName.not_foreign_of_directoryName hg' (List.cons_ne_nil _ _)
  exact ⟨_, _, hg, hg', by decide,
    (senderNameKey_same_iff hg hg' rfl).mpr (iff_of_false hnot hnot'), hnot⟩

end PkiCmp
