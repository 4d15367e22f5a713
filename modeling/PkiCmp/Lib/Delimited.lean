/-
Texts with separators and an escape character.

* `Closed`: no separator stands in a text unless it is escaped;
* `Closed.split`: the first separator after a closed text is found again, and
  `intercalate_inj`: **closed texts** that were joined by separators are found again;
* `unescape`: the text without its escapes.
-/
import Mathlib.Data.List.Basic
import Mathlib.Tactic.Common

namespace Delimited

variable {α : Type*} {esc c : α} {sep : α → Prop} {s s' t t' : List α}

/-- No separator stands unescaped, and the text does not end in the middle of an escape. -/
inductive Closed (esc : α) (sep : α → Prop) : List α → Prop
  | nil : Closed esc sep []
  | escaped (c : α) {s : List α} (h : Closed esc sep s) : Closed esc sep (esc :: c :: s)
  | plain {c : α} {s : List α} (hesc : c ≠ esc) (hsep : ¬ sep c) (h : Closed esc sep s) :
      Closed esc sep (c :: s)

namespace Closed

lemma append (h : Closed esc sep s) (h' : Closed esc sep t) : Closed esc sep (s ++ t) := by
  induction h with
  | nil => exact h'
  | escaped c _ ih => exact .escaped c ih
  | plain hesc hsep _ ih => exact .plain hesc hsep ih

/-- A text without the special characters. -/
lemma of_forall (h : ∀ c ∈ s, c ≠ esc ∧ ¬ sep c) : Closed esc sep s := by
  induction s with
  | nil => exact .nil
  | cons c s ih =>
    obtain ⟨hc, hs⟩ := List.forall_mem_cons.mp h
    exact .plain hc.1 hc.2 (ih hs)

/-- With fewer separators. -/
lemma mono {sep' : α → Prop} (h : Closed esc sep s) (hsep : ∀ c, sep' c → sep c) :
    Closed esc sep' s := by
  induction h with
  | nil => exact .nil
  | escaped c _ ih => exact .escaped c ih
  | plain hesc hc _ ih => exact .plain hesc (fun h => hc (hsep _ h)) ih

/-- A closed text ends where its first separator stands. -/
lemma split (hesc : ¬ sep esc) (h : Closed esc sep s) (h' : Closed esc sep s') (hc : sep c)
    (heq : s ++ c :: t = s' ++ c :: t') : s = s' ∧ t = t' := by
  induction h generalizing s' with
  | nil =>
    cases h' with
    | nil => exact ⟨rfl, (List.cons.inj heq).2⟩
    | escaped d _ =>
      obtain ⟨rfl, -⟩ := List.cons.inj heq
      exact absurd hc hesc
    | plain _ hsep _ =>
      obtain ⟨rfl, -⟩ := List.cons.inj heq
      exact absurd hc hsep
  | escaped d _ ih =>
    cases h' with
    | nil =>
      obtain ⟨rfl, -⟩ := List.cons.inj heq
      exact absurd hc hesc
    | escaped d' h' =>
      obtain ⟨rfl, htail⟩ := List.cons.inj (List.cons.inj heq).2
      obtain ⟨rfl, rfl⟩ := ih h' htail
      exact ⟨rfl, rfl⟩
    | plain hne _ _ => exact absurd (List.cons.inj heq).1.symm hne
  | plain hne hsep _ ih =>
    cases h' with
    | nil =>
      obtain ⟨rfl, -⟩ := List.cons.inj heq
      exact absurd hc hsep
    | escaped d' _ => exact absurd (List.cons.inj heq).1 hne
    | plain _ _ h' =>
      obtain ⟨rfl, htail⟩ := List.cons.inj heq
      obtain ⟨rfl, rfl⟩ := ih h' htail
      exact ⟨rfl, rfl⟩

/-- There is no separator in a closed text. -/
lemma append_cons_ne (hesc : ¬ sep esc) (h : Closed esc sep s) (h' : Closed esc sep s')
    (hc : sep c) : s ++ c :: t ≠ s' := by
  intro heq
  -- a text that is closed may be followed by one more separator
  have hlast : s ++ c :: (t ++ [c]) = s' ++ c :: [] := by rw [← heq]; simp
  obtain ⟨-, hnil⟩ := split hesc h h' hc hlast
  simp at hnil

end Closed

/-- A text ends at the first character that does not stand in it. -/
lemma split_of_notMem (hs : c ∉ s) (hs' : c ∉ s') (heq : s ++ c :: t = s' ++ c :: t') :
    s = s' ∧ t = t' := by
  induction s generalizing s' with
  | nil =>
    cases s' with
    | nil => exact ⟨rfl, (List.cons.inj heq).2⟩
    | cons d s' => exact absurd ((List.cons.inj heq).1 ▸ List.mem_cons_self) hs'
  | cons d s ih =>
    cases s' with
    | nil => exact absurd ((List.cons.inj heq).1 ▸ List.mem_cons_self) hs
    | cons d' s' =>
      obtain ⟨rfl, htail⟩ := List.cons.inj heq
      obtain ⟨rfl, rfl⟩ := ih (fun h => hs (List.mem_cons_of_mem _ h))
        (fun h => hs' (List.mem_cons_of_mem _ h)) htail
      exact ⟨rfl, rfl⟩

/-- **Closed texts** that were joined by a separator are found again. -/
lemma intercalate_inj {l l' : List (List α)} (hesc : ¬ sep esc) (hc : sep c) (hl : l ≠ [])
    (hl' : l' ≠ []) (h : ∀ s ∈ l, Closed esc sep s) (h' : ∀ s ∈ l', Closed esc sep s)
    (heq : List.intercalate [c] l = List.intercalate [c] l') : l = l' := by
  induction l generalizing l' with
  | nil => exact absurd rfl hl
  | cons s l ih =>
    obtain ⟨s', l', rfl⟩ := List.exists_cons_of_ne_nil hl'
    obtain ⟨hs, hl⟩ := List.forall_mem_cons.mp h
    obtain ⟨hs', hrest'⟩ := List.forall_mem_cons.mp h'
    cases l with
    | nil =>
      cases l' with
      | nil => simpa using heq
      | cons t' l' =>
        rw [List.intercalate_singleton, List.intercalate_cons_cons, List.append_assoc] at heq
        exact absurd heq.symm (hs'.append_cons_ne hesc hs hc)
    | cons t l =>
      cases l' with
      | nil =>
        rw [List.intercalate_singleton, List.intercalate_cons_cons, List.append_assoc] at heq
        exact absurd heq (hs.append_cons_ne hesc hs' hc)
      | cons t' l' =>
        rw [List.intercalate_cons_cons, List.intercalate_cons_cons, List.append_assoc,
          List.append_assoc] at heq
        obtain ⟨rfl, htail⟩ := hs.split hesc hs' hc heq
        rw [ih (List.cons_ne_nil _ _) (List.cons_ne_nil _ _) hl hrest' htail]

/-- What is closed stays so when it is joined by a character that no longer separates. -/
lemma Closed.intercalate {l : List (List α)} (hc : c ≠ esc) (hsep : ¬ sep c)
    (h : ∀ s ∈ l, Closed esc sep s) : Closed esc sep (List.intercalate [c] l) := by
  induction l with
  | nil => exact .nil
  | cons s l ih =>
    obtain ⟨hs, hl⟩ := List.forall_mem_cons.mp h
    cases l with
    | nil => simpa using hs
    | cons t l =>
      rw [List.intercalate_cons_cons, List.append_assoc]
      exact hs.append (.plain hc hsep (ih hl))

/-- The text without its escapes. -/
def unescape [DecidableEq α] (esc : α) : List α → List α
  | [] => []
  | [c] => [c]
  | c :: d :: s => if c = esc then d :: unescape esc s else c :: unescape esc (d :: s)

lemma unescape_escaped [DecidableEq α] (esc c : α) (s : List α) :
    unescape esc (esc :: c :: s) = c :: unescape esc s := by
  rw [unescape, if_pos rfl]

lemma unescape_plain [DecidableEq α] (hc : c ≠ esc) (s : List α) :
    unescape esc (c :: s) = c :: unescape esc s := by
  cases s with
  | nil => rfl
  | cons d s => rw [unescape, if_neg hc]

lemma unescape_append [DecidableEq α] (h : ∀ c ∈ s, c ≠ esc) (t : List α) :
    unescape esc (s ++ t) = s ++ unescape esc t := by
  induction s with
  | nil => rfl
  | cons c s ih =>
    obtain ⟨hc, hs⟩ := List.forall_mem_cons.mp h
    rw [List.cons_append, unescape_plain hc, ih hs, List.cons_append]

end Delimited
