/-
Fallible computations: `Except`, and the loops written with it.

* `Except.bind_eq_ok`: a composition succeeds when both steps do;
* `mapM_eq_ok_iff`: a list computed member by member;
* `forall₂_comp`, `forall₂_perm`: two such computations in a row, and one after the
  results were reordered;
* `foldlM_ok_induction`: **the loop rule**, for what a loop has done so far.
-/
import Mathlib.Data.List.Perm.Basic
import Mathlib.Tactic.Common

/-- A composition of fallible steps succeeds when both steps do. -/
lemma Except.bind_eq_ok {ε α β : Type} {x : Except ε α} {f : α → Except ε β} {b : β} :
    (x >>= f) = .ok b ↔ ∃ a, x = .ok a ∧ f a = .ok b := by
  cases x <;> simp [bind, Except.bind]

namespace Fallible

variable {ε α β γ σ : Type}

variable {l : List α}

/-- A list is computed when each of its members is. -/
lemma mapM_eq_ok_iff {f : α → Except ε β} {l' : List β} :
    l.mapM f = .ok l' ↔ List.Forall₂ (fun a b => f a = .ok b) l l' := by
  induction l generalizing l' with
  | nil =>
    rw [List.mapM_nil, List.forall₂_nil_left_iff]
    exact ⟨fun h => (Except.ok.inj h).symm, fun h => h ▸ rfl⟩
  | cons a l ih =>
    simp only [List.mapM_cons, Except.bind_eq_ok, List.forall₂_cons_left_iff, ← ih]
    constructor
    · rintro ⟨b, hb, bs, hbs, h⟩
      exact ⟨b, bs, hb, hbs, (Except.ok.inj h).symm⟩
    · rintro ⟨b, bs, hb, hbs, rfl⟩
      exact ⟨b, hb, bs, hbs, rfl⟩

/-- Lists related member by member to a third one are related to each other. -/
lemma forall₂_comp {R : α → β → Prop} {S : β → γ → Prop} {m : List β} {n : List γ}
    (hR : List.Forall₂ R l m) (hS : List.Forall₂ S m n) :
    List.Forall₂ (fun a c => ∃ b, R a b ∧ S b c) l n := by
  induction hR generalizing n with
  | nil =>
    cases hS
    exact .nil
  | cons hab _ ih =>
    cases hS with
    | cons hbc hS => exact .cons ⟨_, hab, hbc⟩ (ih hS)

/-- Reordering the results reorders what they were computed from. -/
lemma forall₂_perm {R : α → β → Prop} {m m' : List β} (hR : List.Forall₂ R l m) (hm : m'.Perm m) :
    ∃ l', l'.Perm l ∧ List.Forall₂ R l' m' := by
  obtain ⟨l', hl', hperm⟩ := List.perm_comp_forall₂ hm (List.Forall₂.flip hR)
  exact ⟨l', hperm, hl'.flip⟩

/-- Every result was computed from a member. -/
lemma exists_of_forall₂ {R : α → β → Prop} {m : List β} (hR : List.Forall₂ R l m) {b : β}
    (hb : b ∈ m) : ∃ a ∈ l, R a b := by
  induction hR with
  | nil => cases hb
  | cons hab _ ih =>
    obtain rfl | hb := List.mem_cons.mp hb
    · exact ⟨_, List.mem_cons_self, hab⟩
    · obtain ⟨a, ha, hab⟩ := ih hb
      exact ⟨a, List.mem_cons_of_mem _ ha, hab⟩

/-- **The loop rule**: what holds before a loop, and with each turn of one more member,
holds of all the members after it. -/
lemma foldlM_ok_induction {f : σ → α → Except ε σ} {P : List α → σ → Prop} {s s' : σ}
    (h : l.foldlM f s = .ok s') (hstart : P [] s)
    (hturn : ∀ done a s1 s2, a ∈ l → P done s1 → f s1 a = .ok s2 → P (done ++ [a]) s2) :
    P l s' := by
  -- by induction on what is still to be done
  suffices hloop : ∀ (rest done : List α) (s1 : σ), done ++ rest = l → P done s1 →
      rest.foldlM f s1 = .ok s' → P l s' from hloop l [] s rfl hstart h
  intro rest
  induction rest with
  | nil =>
    rintro done s1 hl hP h
    cases h
    rwa [← hl, List.append_nil]
  | cons a rest ih =>
    rintro done s1 hl hP h
    rw [List.foldlM_cons, Except.bind_eq_ok] at h
    obtain ⟨s2, hone, h⟩ := h
    have ha : a ∈ l := by simp [← hl]
    exact ih (done ++ [a]) s2 (by simpa using hl) (hturn done a s1 s2 ha hP hone) h

/-- A loop succeeds when each of its turns does. -/
lemma exists_foldlM_ok {f : σ → α → Except ε σ} {P : List α → σ → Prop} {s : σ} (hstart : P [] s)
    (hturn : ∀ done a rest s1, l = done ++ a :: rest → P done s1 →
      ∃ s2, f s1 a = .ok s2 ∧ P (done ++ [a]) s2) :
    ∃ s', l.foldlM f s = .ok s' := by
  suffices hloop : ∀ (rest done : List α) (s1 : σ), l = done ++ rest → P done s1 →
      ∃ s', rest.foldlM f s1 = .ok s' from hloop l [] s rfl hstart
  intro rest
  induction rest with
  | nil => exact fun done s1 _ _ => ⟨s1, rfl⟩
  | cons a rest ih =>
    intro done s1 hl hP
    obtain ⟨s2, hone, hP2⟩ := hturn done a rest s1 hl hP
    obtain ⟨s', h⟩ := ih (done ++ [a]) s2 (by simpa using hl) hP2
    exact ⟨s', by rw [List.foldlM_cons, hone]; exact h⟩

end Fallible
