/-
Certification paths with composite signatures (`internal/certpath/certpath.go`).

`crypto/x509` cannot check composite signatures, so a path that has them is searched for below
the chains that `crypto/x509` can build: depth first, over candidates that a peer may have
chosen, with a bound on the depth and on the signatures that are checked.

* `trusted`, `verify`: the search, with its state;
* `CompositePath`: the paths it is to find;
* `verify_exact`: **the search is exact** as long as its checks last.
-/
import PkiCmp.Go.X509

namespace PkiCmp

open Der

/-- An `x509.Certificate` with the fields that only path checks read. -/
structure PathCertificate extends Certificate where
  basicConstraintsValid : Bool := false
  maxPathLen : ℤ := 0
  maxPathLenZero : Bool := false
  unhandledCriticalExtensions : List OID := []
  deriving DecidableEq, Repr

namespace Certpath

/-- `x509.VerifyOptions`; any key usage is accepted. -/
structure VerifyOptions where
  roots : List PathCertificate
  intermediates : List PathCertificate
  currentTime : Time

/-- The libraries of a search: `x509.Certificate.Verify`, which returns chains and an error, and
`compositex509.CheckSignatureFrom`.  A certificate is read from its encoding, so two with the
same encoding have the same chains. -/
structure Libraries where
  chains : VerifyOptions → PathCertificate → List (List PathCertificate) × Option GoError
  checkSignatureFrom : PathCertificate → PathCertificate → Except GoError Unit
  chains_raw : ∀ opts c c', c.raw = c'.raw → chains opts c = chains opts c'

/-! ### The search -/

/-- `maxDepth`. -/
def maxDepth : ℕ := 8

/-- `maxSignatureChecks`. -/
def maxSignatureChecks : ℕ := 100

/-- The nameConstraints extension. -/
def oidNameConstraints : OID := [2, 5, 29, 30]

/-- `errUntrusted`. -/
def errUntrusted : GoError := .text (str "certificate does not chain to a trusted certificate")

/-- `allowsFollowing`. -/
def allowsFollowing (issuer : PathCertificate) (intermediates : ℕ) : Bool :=
  if !issuer.basicConstraintsValid || issuer.maxPathLen < 0 ||
      (issuer.maxPathLen = 0 && !issuer.maxPathLenZero) then true
  else (intermediates : ℤ) ≤ issuer.maxPathLen

/-- `validAt`. -/
def validAt (cert : PathCertificate) (now : Time) : Bool :=
  !(now < cert.notBefore) && !(cert.notAfter < now) && cert.unhandledCriticalExtensions.isEmpty

/-- `hasNameConstraints`. -/
def hasNameConstraints (cert : PathCertificate) : Bool :=
  cert.extensions.any fun ext => ext.id = oidNameConstraints

/-- The mutable part of `search`: the checks that are left, the chains that were built and the
certificates on the current path, by their encodings.  `made` records the composite checks. -/
structure Search where
  checksLeft : ℕ
  upper : Bytes → Option (List (List PathCertificate)) := fun _ => none
  onPath : Bytes → Bool := fun _ => false
  made : List (PathCertificate × PathCertificate) := []

/-- One chain of `acceptsLowerPath`, from its `i`-th certificate on. -/
def acceptsChain (depth : ℕ) : ℕ → List PathCertificate → Bool
  | _, [] => true
  | i, ancestor :: chain =>
    if hasNameConstraints ancestor || (0 < i && !allowsFollowing ancestor (depth + i - 1)) then
      false
    else acceptsChain depth (i + 1) chain

/-- `acceptsLowerPath`. -/
def acceptsLowerPath (chains : List (List PathCertificate)) (depth : ℕ) : Bool :=
  chains.any (acceptsChain depth 0)

section

variable (lib : Libraries) (candidates : List PathCertificate) (opts : VerifyOptions)

/-- `upperChains`. -/
def upperChains (cert : PathCertificate) (s : Search) : List (List PathCertificate) × Search :=
  match s.upper cert.raw with
  | some chains => (chains, s)
  | none =>
    let chains := (lib.chains opts cert).1
    (chains, { s with upper := Function.update s.upper cert.raw (some chains) })

/-- The loop of `trusted` over the candidates; `next` continues the search above a parent. -/
def tryParents (next : PathCertificate → Search → Bool × Search) (cert : PathCertificate)
    (depth : ℕ) : List PathCertificate → Search → Bool × Search
  | [], s => (false, s)
  | parent :: parents, s =>
    if s.onPath parent.raw || parent.rawSubject ≠ cert.rawIssuer then
      tryParents next cert depth parents s
    else if hasNameConstraints parent || !allowsFollowing parent depth then
      tryParents next cert depth parents s
    else if s.checksLeft = 0 then (false, s)
    else
      let s := { s with checksLeft := s.checksLeft - 1, made := s.made ++ [(cert, parent)] }
      match lib.checkSignatureFrom cert parent with
      | .error _ => tryParents next cert depth parents s
      | .ok _ =>
        match next parent s with
        | (true, s) => (true, s)
        | (false, s) => tryParents next cert depth parents s

/-- Whether a certificate above others is trusted without further composite links. -/
def acceptsHere (cert : PathCertificate) (depth : ℕ) (s : Search) : Bool × Search :=
  if 0 < depth then
    let (chains, s) := upperChains lib opts cert s
    (acceptsLowerPath chains depth, s)
  else (false, s)

/-- `trusted`; the deferred deletion is made on the way out. -/
def trusted (cert : PathCertificate) (depth : ℕ) (s : Search) : Bool × Search :=
  match acceptsHere lib opts cert depth s with
  | (true, s) => (true, s)
  | (false, s) =>
    if maxDepth ≤ depth ∨ validAt cert opts.currentTime = false then (false, s)
    else
      let r := tryParents lib (fun parent s => trusted parent (depth + 1) s) cert depth candidates
        { s with onPath := Function.update s.onPath cert.raw true }
      (r.1, { r.2 with onPath := Function.update r.2.onPath cert.raw false })
termination_by maxDepth - depth

/-- `Verify`, with the composite checks it made; the joined errors are listed. -/
def verify (cert : PathCertificate) (roots candidates : List PathCertificate) (now : Time) :
    Except (List GoError) Unit × List (PathCertificate × PathCertificate) :=
  let opts : VerifyOptions := { roots, intermediates := candidates, currentTime := now }
  match (lib.chains opts cert).2 with
  | none => (.ok (), [])
  | some err =>
    match trusted lib candidates opts cert 0 { checksLeft := maxSignatureChecks } with
    | (true, s) => (.ok (), s.made)
    | (false, s) => (.error [errUntrusted, err], s.made)

end

/-! ### Paths -/

section

variable (lib : Libraries) (candidates : List PathCertificate) (opts : VerifyOptions)

/-- `parent` may stand above `cert`, which has `depth` certificates below it. -/
structure Follows (depth : ℕ) (cert parent : PathCertificate) : Prop where
  candidate : parent ∈ candidates
  name : parent.rawSubject = cert.rawIssuer
  signature : (lib.checkSignatureFrom cert parent).isOk = true
  unconstrained : hasNameConstraints parent = false
  following : allowsFollowing parent depth = true
  valid : validAt cert opts.currentTime = true

/-- `crypto/x509` builds a chain from the certificate, without name constraints, that permits the
`depth` certificates below it. -/
def Anchored (depth : ℕ) (cert : PathCertificate) : Prop :=
  ∃ chain ∈ (lib.chains opts cert).1, (∀ a ∈ chain, hasNameConstraints a = false) ∧
    ∀ j a, 0 < j → chain[j]? = some a → allowsFollowing a (depth + j - 1) = true

/-- **The paths** that a search is for: one to eight candidates above the leaf, each the issuer
of the one before it by a composite signature, no two certificates being the same, and above
the last of them a chain of `crypto/x509`. -/
structure CompositePath (leaf : PathCertificate) (cs : List PathCertificate) : Prop where
  nonempty : 1 ≤ cs.length
  bounded : cs.length ≤ 8
  distinct : ((leaf :: cs).map fun c => c.raw).Nodup
  follows : ∀ i c p, (leaf :: cs)[i]? = some c → cs[i]? = some p → Follows lib candidates opts i c p
  anchored : Anchored lib opts cs.length (cs.getLastD leaf)

/-- The part of a path above a certificate that has `depth` certificates below it. -/
structure PathFrom (depth : ℕ) (cert : PathCertificate) (cs : List PathCertificate) : Prop where
  nonempty : 0 < depth + cs.length
  bounded : depth + cs.length ≤ maxDepth
  distinct : ((cert :: cs).map fun c => c.raw).Nodup
  follows : ∀ i c p, (cert :: cs)[i]? = some c → cs[i]? = some p →
    Follows lib candidates opts (depth + i) c p
  anchored : Anchored lib opts (depth + cs.length) (cs.getLastD cert)

/-- The rest of a path can be completed without the certificates that are used. -/
def Completes (used : Bytes → Bool) (depth : ℕ) (cert : PathCertificate) : Prop :=
  ∃ cs, PathFrom lib candidates opts depth cert cs ∧ ∀ c ∈ cert :: cs, used c.raw = false

variable {lib candidates opts} {depth : ℕ} {cert parent : PathCertificate}
  {cs : List PathCertificate} {used : Bytes → Bool}

lemma pathFrom_zero_iff {leaf : PathCertificate} :
    PathFrom lib candidates opts 0 leaf cs ↔ CompositePath lib candidates opts leaf cs := by
  constructor
  · rintro ⟨h1, h2, h3, h4, h5⟩
    simp only [Nat.zero_add] at h1 h2 h4 h5
    exact ⟨h1, h2, h3, h4, h5⟩
  · rintro ⟨h1, h2, h3, h4, h5⟩
    refine ⟨?_, ?_, h3, ?_, ?_⟩ <;> simp only [Nat.zero_add] <;> assumption

/-- A path that ends where it starts. -/
lemma pathFrom_nil_iff : PathFrom lib candidates opts depth cert [] ↔
    0 < depth ∧ depth ≤ maxDepth ∧ Anchored lib opts depth cert := by
  constructor
  · rintro ⟨h1, h2, -, -, h5⟩
    exact ⟨h1, h2, h5⟩
  · rintro ⟨h1, h2, h5⟩
    exact ⟨h1, h2, by simp, fun i c p _ hp => by simp at hp, h5⟩

/-- A path with a first link. -/
lemma pathFrom_cons_iff : PathFrom lib candidates opts depth cert (parent :: cs) ↔
    depth < maxDepth ∧ cert.raw ∉ (parent :: cs).map (fun c => c.raw) ∧
    Follows lib candidates opts depth cert parent ∧
    PathFrom lib candidates opts (depth + 1) parent cs := by
  have hlen : depth + (parent :: cs).length = depth + 1 + cs.length := by
    rw [List.length_cons]
    omega
  constructor
  · rintro ⟨h1, h2, h3, h4, h5⟩
    rw [hlen] at h2 h5
    rw [List.getLastD_cons] at h5
    obtain ⟨hnot, hnodup⟩ := List.nodup_cons.mp h3
    refine ⟨by omega, hnot, h4 0 _ _ rfl rfl, by omega, h2, hnodup, fun i c p hc hp => ?_, h5⟩
    rw [Nat.add_right_comm]
    exact h4 (i + 1) c p hc hp
  · rintro ⟨hlt, hnot, hlink, -, h2, h3, h4, h5⟩
    refine ⟨by omega, by rwa [hlen], List.nodup_cons.mpr ⟨hnot, h3⟩, fun i c p hc hp => ?_, ?_⟩
    · cases i with
      | zero =>
        cases hc
        cases hp
        exact hlink
      | succ i =>
        rw [← Nat.add_assoc, Nat.add_right_comm]
        exact h4 i c p hc hp
    · rw [hlen, List.getLastD_cons]
      exact h5

/-- **One step of a path.** -/
lemma completes_iff (hdepth : depth ≤ maxDepth) (hcert : used cert.raw = false) :
    Completes lib candidates opts used depth cert ↔
      (0 < depth ∧ Anchored lib opts depth cert) ∨
      depth < maxDepth ∧ ∃ parent, Follows lib candidates opts depth cert parent ∧
        Completes lib candidates opts (Function.update used cert.raw true) (depth + 1) parent := by
  have hfree : ∀ {c : PathCertificate}, Function.update used cert.raw true c.raw = false ↔
      c.raw ≠ cert.raw ∧ used c.raw = false := by
    intro c
    by_cases h : c.raw = cert.raw <;> simp [h]
  constructor
  · rintro ⟨cs, hpath, hused⟩
    cases cs with
    | nil =>
      obtain ⟨h1, -, h5⟩ := pathFrom_nil_iff.mp hpath
      exact .inl ⟨h1, h5⟩
    | cons parent cs =>
      obtain ⟨hlt, hnot, hlink, hrest⟩ := pathFrom_cons_iff.mp hpath
      refine .inr ⟨hlt, parent, hlink, cs, hrest, fun c hc => hfree.mpr ⟨fun heq => ?_, ?_⟩⟩
      · exact hnot (heq ▸ List.mem_map_of_mem hc)
      · exact hused c (List.mem_cons_of_mem _ hc)
  · rintro (⟨h1, h5⟩ | ⟨hlt, parent, hlink, cs, hrest, hused⟩)
    · exact ⟨[], pathFrom_nil_iff.mpr ⟨h1, hdepth, h5⟩, by simpa using hcert⟩
    · refine ⟨parent :: cs, pathFrom_cons_iff.mpr ⟨hlt, fun hmem => ?_, hlink, hrest⟩, ?_⟩
      · obtain ⟨c, hc, heq⟩ := List.mem_map.mp hmem
        exact (hfree.mp (hused c hc)).1 heq
      · rintro c (_ | ⟨_, hc⟩)
        · exact hcert
        · exact (hfree.mp (hused c hc)).2

/-- `acceptsLowerPath` of the chains above a certificate. -/
lemma acceptsLowerPath_iff : acceptsLowerPath (lib.chains opts cert).1 depth = true ↔
    Anchored lib opts depth cert := by
  have hchain : ∀ (chain : List PathCertificate) (i : ℕ), acceptsChain depth i chain = true ↔
      (∀ a ∈ chain, hasNameConstraints a = false) ∧
        ∀ j a, 0 < i + j → chain[j]? = some a → allowsFollowing a (depth + (i + j) - 1) = true := by
    intro chain
    induction chain with
    | nil => simp [acceptsChain]
    | cons a chain ih =>
      intro i
      rw [acceptsChain]
      simp only [List.forall_mem_cons]
      split_ifs with h
      · refine iff_of_false id ?_
        rintro ⟨⟨ha, -⟩, hall⟩
        rw [ha, Bool.false_or, Bool.and_eq_true, decide_eq_true_eq, Bool.not_eq_true'] at h
        have hzero := hall 0 a h.1 rfl
        rw [Nat.add_zero, h.2] at hzero
        cases hzero
      · rw [Bool.or_eq_true, not_or, Bool.not_eq_true, Bool.and_eq_true, not_and,
          decide_eq_true_eq, Bool.not_eq_true', Bool.not_eq_false] at h
        rw [ih (i + 1)]
        refine ⟨fun ⟨hnc, hall⟩ => ⟨⟨h.1, hnc⟩, fun j b hj hb => ?_⟩,
          fun ⟨hnc, hall⟩ => ⟨hnc.2, fun j b hj hb => ?_⟩⟩
        · cases j with
          | zero =>
            cases hb
            exact h.2 hj
          | succ j =>
            rw [show i + (j + 1) = i + 1 + j by omega]
            exact hall j b (by omega) hb
        · rw [show i + 1 + j = i + (j + 1) by omega]
          exact hall (j + 1) b (by omega) hb
  rw [acceptsLowerPath, List.any_eq_true]
  refine exists_congr fun chain => and_congr_right fun _ => ?_
  rw [hchain chain 0]
  simp only [Nat.zero_add]

/-! ### What a search finds -/

/-- The chains that were kept are those that would be built. -/
def Remembers (lib : Libraries) (opts : VerifyOptions) (s : Search) : Prop :=
  ∀ (c : PathCertificate) chains, s.upper c.raw = some chains → chains = (lib.chains opts c).1

/-- What is left of a search when it returns: the path as it was, correct chains, and a check
taken off for each one that was made. -/
structure Leaves (lib : Libraries) (opts : VerifyOptions) (s s' : Search) : Prop where
  remembers : Remembers lib opts s'
  onPath : s'.onPath = s.onPath
  checksLeft : s'.checksLeft ≤ s.checksLeft
  made : s'.checksLeft + s'.made.length = s.checksLeft + s.made.length

lemma Leaves.refl {s : Search} (h : Remembers lib opts s) : Leaves lib opts s s :=
  ⟨h, rfl, le_rfl, rfl⟩

lemma Leaves.trans {s s' s'' : Search} (h : Leaves lib opts s s') (h' : Leaves lib opts s' s'') :
    Leaves lib opts s s'' :=
  ⟨h'.remembers, h'.onPath.trans h.onPath, h'.checksLeft.trans h.checksLeft, h'.made.trans h.made⟩

/-- **The result of a search.**  It is right, unless no check was left. -/
structure Finds (lib : Libraries) (opts : VerifyOptions) (s : Search) (P : Prop)
    (r : Bool × Search) : Prop where
  leaves : Leaves lib opts s r.2
  sound : r.1 = true → P
  complete : P → 0 < r.2.checksLeft → r.1 = true

namespace Finds

variable {s s' : Search} {P Q : Prop} {r : Bool × Search}

lemma congr (h : Finds lib opts s P r) (hPQ : P ↔ Q) : Finds lib opts s Q r :=
  ⟨h.leaves, fun hr => hPQ.mp (h.sound hr), fun hQ => h.complete (hPQ.mpr hQ)⟩

/-- A search may be preceded by steps that find nothing. -/
lemma after (h : Finds lib opts s' P r) (hs : Leaves lib opts s s') : Finds lib opts s P r :=
  ⟨hs.trans h.leaves, h.sound, h.complete⟩

/-- A search that follows another one that found nothing. -/
lemma orElse {s1 : Search} (h : Finds lib opts s P (false, s1)) (h' : Finds lib opts s1 Q r) :
    Finds lib opts s (P ∨ Q) r := by
  refine ⟨h.leaves.trans h'.leaves, fun hr => .inr (h'.sound hr), ?_⟩
  rintro (hP | hQ) hleft
  · exact (Bool.false_ne_true (h.complete hP (lt_of_lt_of_le hleft h'.leaves.checksLeft))).elim
  · exact h'.complete hQ hleft

end Finds

lemma upperChains_leaves (cert : PathCertificate) {s : Search} (hs : Remembers lib opts s) :
    (upperChains lib opts cert s).1 = (lib.chains opts cert).1 ∧
      Leaves lib opts s (upperChains lib opts cert s).2 := by
  unfold upperChains
  cases hupper : s.upper cert.raw with
  | some chains => exact ⟨hs cert chains hupper, .refl hs⟩
  | none =>
    refine ⟨rfl, ⟨fun c chains hc => ?_, rfl, le_rfl, rfl⟩⟩
    simp only [Function.update_apply] at hc
    split_ifs at hc with heq
    · cases hc
      rw [lib.chains_raw opts c cert heq]
    · exact hs c chains hc

/-- A certificate above others is trusted when `crypto/x509` trusts it. -/
lemma acceptsHere_finds (cert : PathCertificate) (depth : ℕ) {s : Search}
    (hs : Remembers lib opts s) :
    Leaves lib opts s (acceptsHere lib opts cert depth s).2 ∧
      ((acceptsHere lib opts cert depth s).1 = true ↔ 0 < depth ∧
        Anchored lib opts depth cert) := by
  unfold acceptsHere
  split_ifs with hdepth
  · obtain ⟨hchains, hleaves⟩ := upperChains_leaves cert hs
    refine ⟨hleaves, ?_⟩
    simp only [hchains, acceptsLowerPath_iff, hdepth, true_and]
  · exact ⟨.refl hs, by simp [hdepth]⟩

/-- **The loop** finds a parent from which a search succeeds. -/
lemma tryParents_finds {next : PathCertificate → Search → Bool × Search}
    (hnext : ∀ parent s, Remembers lib opts s → s.onPath parent.raw = false →
      Finds lib opts s (Completes lib candidates opts s.onPath (depth + 1) parent) (next parent s))
    (hvalid : validAt cert opts.currentTime = true)
    {parents : List PathCertificate} (hsub : parents ⊆ candidates) {s : Search}
    (hs : Remembers lib opts s) :
    Finds lib opts s (∃ parent ∈ parents, Follows lib candidates opts depth cert parent ∧
        Completes lib candidates opts s.onPath (depth + 1) parent)
      (tryParents lib next cert depth parents s) := by
  induction parents generalizing s with
  | nil =>
    refine ⟨.refl hs, fun h => (Bool.false_ne_true h).elim, ?_⟩
    rintro ⟨_, hmem, -⟩
    cases hmem
  | cons parent parents ih =>
    have hrest : ∀ {s' : Search}, Leaves lib opts s s' →
        Finds lib opts s' (∃ parent ∈ parents, Follows lib candidates opts depth cert parent ∧
          Completes lib candidates opts s.onPath (depth + 1) parent)
          (tryParents lib next cert depth parents s') := by
      intro s' hs'
      rw [← hs'.onPath]
      exact ih (fun c hc => hsub (List.mem_cons_of_mem _ hc)) hs'.remembers
    -- a parent that cannot be used is passed over
    have hskip : ∀ {s' : Search}, Leaves lib opts s s' →
        ¬(Follows lib candidates opts depth cert parent ∧
          Completes lib candidates opts s.onPath (depth + 1) parent) →
        Finds lib opts s (∃ p ∈ parent :: parents, Follows lib candidates opts depth cert p ∧
          Completes lib candidates opts s.onPath (depth + 1) p)
          (tryParents lib next cert depth parents s') := by
      intro s' hs' hnot
      refine ((hrest hs').after hs').congr ?_
      simp only [List.exists_mem_cons_iff, hnot, false_or]
    rw [tryParents]
    split_ifs with hused hbarred hleft
    · refine hskip (.refl hs) fun ⟨hfollows, cs, _, hfree⟩ => ?_
      rw [hfree parent List.mem_cons_self, Bool.false_or, decide_eq_true_eq] at hused
      exact hused hfollows.name
    · refine hskip (.refl hs) fun ⟨hfollows, _⟩ => ?_
      rw [hfollows.unconstrained, hfollows.following] at hbarred
      cases hbarred
    · exact ⟨.refl hs, fun h => (Bool.false_ne_true h).elim, fun _ h => absurd hleft h.ne'⟩
    · have hcheck : Leaves lib opts s { s with
          checksLeft := s.checksLeft - 1
          made := s.made ++ [(cert, parent)] } := by
        refine ⟨hs, rfl, Nat.sub_le _ _, ?_⟩
        show s.checksLeft - 1 + (s.made ++ [(cert, parent)]).length = _
        rw [List.length_append, List.length_singleton]
        omega
      simp only
      cases hsig : lib.checkSignatureFrom cert parent with
      | error e =>
        refine hskip hcheck fun ⟨hfollows, _⟩ => ?_
        have := hfollows.signature
        rw [hsig] at this
        cases this
      | ok _ =>
        rw [Bool.or_eq_true, not_or, decide_eq_true_eq, not_not] at hused
        rw [Bool.or_eq_true, not_or, Bool.not_eq_true, Bool.not_eq_true', Bool.not_eq_false]
          at hbarred
        have hfollows : Follows lib candidates opts depth cert parent :=
          ⟨hsub List.mem_cons_self, hused.2, by rw [hsig]; rfl, hbarred.1, hbarred.2, hvalid⟩
        have hfound := (hnext parent _ hcheck.remembers (by simpa using hused.1)).after hcheck
        simp only [List.exists_mem_cons_iff, hfollows, true_and]
        split
        · next s' hr =>
          rw [hr] at hfound
          exact ⟨hfound.leaves, fun _ => .inl (hfound.sound rfl), fun _ _ => rfl⟩
        · next s' hr =>
          rw [hr] at hfound
          exact hfound.orElse (hrest hfound.leaves)

/-- **A search** from a certificate that is not on the path finds whether a path can be completed
from there. -/
lemma trusted_finds {s : Search} (hdepth : depth ≤ maxDepth) (hs : Remembers lib opts s)
    (hcert : s.onPath cert.raw = false) :
    Finds lib opts s (Completes lib candidates opts s.onPath depth cert)
      (trusted lib candidates opts cert depth s) := by
  -- by induction on the links that may still be followed
  induction hleft : maxDepth - depth using Nat.strong_induction_on generalizing depth cert s with
  | _ left ih =>
    obtain ⟨hleaves, haccept⟩ := acceptsHere_finds cert depth hs
    rw [trusted]
    refine Finds.congr ?_ (completes_iff hdepth hcert).symm
    cases hhere : acceptsHere lib opts cert depth s with
    | mk accepted s1 =>
    rw [hhere] at hleaves haccept
    cases accepted with
    | true => exact ⟨hleaves, fun _ => .inl (haccept.mp rfl), fun _ _ => rfl⟩
    | false =>
      have hnot := mt haccept.mpr Bool.false_ne_true
      simp only [hnot, false_or]
      split_ifs with hstop
      · refine ⟨hleaves, fun h => (Bool.false_ne_true h).elim, ?_⟩
        rintro ⟨hlt, parent, hfollows, -⟩
        rw [hfollows.valid] at hstop
        obtain hstop | hstop := hstop
        · omega
        · cases hstop
      · rw [not_or, not_le, Bool.not_eq_false] at hstop
        have hfree : s1.onPath cert.raw = false := by rw [hleaves.onPath, hcert]
        have hnext : ∀ parent s, Remembers lib opts s → s.onPath parent.raw = false →
            Finds lib opts s (Completes lib candidates opts s.onPath (depth + 1) parent)
              (trusted lib candidates opts parent (depth + 1) s) :=
          fun parent s hs hfree => ih _ (by omega) (by omega) hs hfree rfl
        have hloop := tryParents_finds hnext hstop.2 (List.Subset.refl candidates)
          (s := { s1 with onPath := Function.update s1.onPath cert.raw true }) hleaves.remembers
        refine ⟨hleaves.trans ⟨hloop.leaves.remembers, ?_, hloop.leaves.checksLeft,
          hloop.leaves.made⟩, fun hr => ?_, ?_⟩
        · simp only [hloop.leaves.onPath, Function.update_idem]
          rw [← hfree, Function.update_eq_self]
        · obtain ⟨parent, -, hfollows, hcompletes⟩ := hloop.sound hr
          rw [← hleaves.onPath]
          exact ⟨hstop.1, parent, hfollows, hcompletes⟩
        · rintro ⟨-, parent, hfollows, hcompletes⟩ hpos
          rw [← hleaves.onPath] at hcompletes
          exact hloop.complete ⟨parent, hfollows.candidate, hfollows, hcompletes⟩ hpos

/-- **The search is exact.**  For a leaf that `crypto/x509` does not accept by itself, `Verify`
returns, makes at most a hundred composite checks, returns nil only if there is a path with
composite links, and returns nil if there is one and the checks were not used up. -/
theorem verify_exact (lib : Libraries) (leaf : PathCertificate)
    (roots candidates : List PathCertificate) (now : Time)
    (hplain : (lib.chains ⟨roots, candidates, now⟩ leaf).2.isSome = true) :
    (verify lib leaf roots candidates now).2.length ≤ 100 ∧
    ((verify lib leaf roots candidates now).1 = .ok () →
      ∃ cs, CompositePath lib candidates ⟨roots, candidates, now⟩ leaf cs) ∧
    ((∃ cs, CompositePath lib candidates ⟨roots, candidates, now⟩ leaf cs) →
      (verify lib leaf roots candidates now).2.length < 100 →
      (verify lib leaf roots candidates now).1 = .ok ()) := by
  obtain ⟨err, herr⟩ := Option.isSome_iff_exists.mp hplain
  have hfinds : Finds lib ⟨roots, candidates, now⟩ { checksLeft := maxSignatureChecks }
      (Completes lib candidates ⟨roots, candidates, now⟩ (fun _ => false) 0 leaf)
      (trusted lib candidates ⟨roots, candidates, now⟩ leaf 0
        { checksLeft := maxSignatureChecks }) :=
    trusted_finds (Nat.zero_le _) (fun _ _ h => by cases h) rfl
  have hpaths : Completes lib candidates ⟨roots, candidates, now⟩ (fun _ => false) 0 leaf ↔
      ∃ cs, CompositePath lib candidates ⟨roots, candidates, now⟩ leaf cs :=
    exists_congr fun cs => ⟨fun h => pathFrom_zero_iff.mp h.1,
      fun h => ⟨pathFrom_zero_iff.mpr h, fun _ _ => rfl⟩⟩
  replace hfinds := hfinds.congr hpaths
  have hmade : _ = 100 + 0 := hfinds.leaves.made
  simp only [verify, herr]
  generalize trusted lib candidates ⟨roots, candidates, now⟩ leaf 0
    { checksLeft := maxSignatureChecks } = r at hfinds hmade
  obtain ⟨found, s⟩ := r
  simp only at hmade
  have hle : s.made.length ≤ 100 := by omega
  cases found with
  | true => exact ⟨hle, fun _ => hfinds.sound rfl, fun _ _ => rfl⟩
  | false =>
    refine ⟨hle, fun h => (by cases h), fun h (hlt : s.made.length < 100) => ?_⟩
    have hleft : 0 < s.checksLeft := by omega
    exact (Bool.false_ne_true (hfinds.complete h hleft)).elim

/-- A certificate that only its issuer's composite signature can vouch for. -/
def sampleLeaf : PathCertificate := { raw := [1], rawSubject := [1], rawIssuer := [2] }

/-- Its issuer. -/
def sampleIssuing : PathCertificate := { raw := [2], rawSubject := [2], rawIssuer := [3] }

/-- `crypto/x509` trusts the issuer alone. -/
def sampleLibraries : Libraries where
  chains _ c := if c.raw = [2] then ([[sampleIssuing]], none) else ([], some errUntrusted)
  checkSignatureFrom _ _ := .ok ()
  chains_raw opts c c' h := by simp only [h]

/-- The leaf is accepted by way of its issuer. -/
theorem verify_exact_sample :
    (verify sampleLibraries sampleLeaf [] [sampleIssuing] 0).1 = .ok () := by
  refine (verify_exact sampleLibraries sampleLeaf [] [sampleIssuing] 0 rfl).2.2
    ⟨[sampleIssuing], ⟨le_rfl, by decide, by decide, fun i c p hc hp => ?_,
      ⟨[sampleIssuing], by decide, by decide, fun j a hj ha => ?_⟩⟩⟩ (by decide +kernel)
  · cases i with
    | zero =>
      cases hc
      cases hp
      exact ⟨by decide, rfl, rfl, rfl, rfl, by decide⟩
    | succ i => cases hp
  · cases j with
    | zero => cases hj
    | succ j => cases ha

end

end Certpath

end PkiCmp
