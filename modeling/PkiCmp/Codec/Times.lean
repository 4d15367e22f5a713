/-
Round trips of times: GeneralizedTime as it is written is read as the same instant.

* `Time.civil_spec`: **the calendar**, from days to dates and back;
* `Time.parse_format`: **instants** in whole seconds of the years 0 to 9999.
-/
import Mathlib.Tactic.IntervalCases
import Mathlib.Tactic.Ring
import PkiCmp.Codec.Basic

namespace PkiCmp

open Der

namespace Time

/-! ### The calendar -/

/-- The year and the day of the year within a period of 400 years: the centuries, groups of four
years and years before it. -/
lemma yearOfEra_spec (doe : ℤ) {yoe : ℤ} (h0 : 0 ≤ doe) (h1 : doe < 146097)
    (hyoe : yoe = (doe - doe / 1460 + doe / 36524 - doe / 146096) / 365) :
    ∃ c q y doy, 0 ≤ c ∧ c ≤ 3 ∧ 0 ≤ q ∧ q ≤ 24 ∧ 0 ≤ y ∧ y ≤ 3 ∧ yoe = 100 * c + 4 * q + y ∧
      0 ≤ doy ∧ doy ≤ 365 ∧ doe = 36524 * c + 1461 * q + 365 * y + doy ∧
      (doy = 365 → y = 3 ∧ (q = 24 → c = 3)) := by
  by_cases hlast : doe = 146096
  · subst hlast
    exact ⟨3, 24, 3, 365, by omega⟩
  obtain ⟨c, r, hc0, hc1, hr0, hr1, rfl⟩ : ∃ c r, 0 ≤ c ∧ c ≤ 3 ∧ 0 ≤ r ∧ r < 36524 ∧
      doe = 36524 * c + r := ⟨doe / 36524, doe % 36524, by omega⟩
  obtain ⟨q, s, hq0, hq1, hs0, hs1, rfl⟩ : ∃ q s, 0 ≤ q ∧ q ≤ 24 ∧ 0 ≤ s ∧ s < 1461 ∧
      r = 1461 * q + s := ⟨r / 1461, r % 1461, by omega⟩
  have hcent : (36524 * c + (1461 * q + s)) / 36524 = c := by omega
  have hera : (36524 * c + (1461 * q + s)) / 146096 = 0 := by omega
  rw [hcent, hera] at hyoe
  by_cases hs : s = 1460
  · exact ⟨c, q, 3, 365, by omega⟩
  · refine ⟨c, q, s / 365, s % 365, by omega⟩

/-- Month and day of a day of the year that starts in March. -/
lemma monthDay_spec {doy mp d : ℤ} (h0 : 0 ≤ doy) (h1 : doy ≤ 365) (hmp : mp = (5 * doy + 2) / 153)
    (hd : d = doy - (153 * mp + 2) / 5 + 1) :
    0 ≤ mp ∧ mp ≤ 11 ∧ 1 ≤ d ∧ d ≤ 31 ∧ (mp = 1 ∨ mp = 3 ∨ mp = 6 ∨ mp = 8 → d ≤ 30) ∧
      (mp = 11 → d ≤ 29 ∧ (doy ≤ 364 → d ≤ 28)) := by
  have hlo : 0 ≤ mp := by omega
  have hhi : mp ≤ 11 := by omega
  interval_cases mp <;> omega

/-- A period of 400 years, and the year, month and day within it. -/
lemma civil_eq (z : ℤ) : ∃ era c q y doy mp, 0 ≤ c ∧ c ≤ 3 ∧ 0 ≤ q ∧ q ≤ 24 ∧ 0 ≤ y ∧ y ≤ 3 ∧
    0 ≤ doy ∧ doy ≤ 365 ∧ z = 146097 * era + 36524 * c + 1461 * q + 365 * y + doy ∧
    (doy = 365 → y = 3 ∧ (q = 24 → c = 3)) ∧ mp = (5 * doy + 2) / 153 ∧
    civil z = (400 * era + 100 * c + 4 * q + y + (if mp < 10 then 0 else 1),
      (if mp < 10 then mp + 3 else mp - 9), doy - (153 * mp + 2) / 5 + 1) := by
  obtain ⟨c, q, y, doy, hc0, hc1, hq0, hq1, hy0, hy1, hyoe, hdoy0, hdoy1, hdoe, hleap⟩ :=
    yearOfEra_spec (z % 146097) (by omega) (by omega) rfl
  have hfour : (100 * c + 4 * q + y) / 4 = 25 * c + q := by omega
  have hcent : (100 * c + 4 * q + y) / 100 = c := by omega
  have hday : z % 146097 - (365 * (100 * c + 4 * q + y) + (100 * c + 4 * q + y) / 4 -
      (100 * c + 4 * q + y) / 100) = doy := by
    rw [hfour, hcent, hdoe]
    ring
  have hz : z = 146097 * (z / 146097) + 36524 * c + 1461 * q + 365 * y + doy := by
    rw [add_assoc, add_assoc, add_assoc, ← add_assoc (36524 * c), ← add_assoc (36524 * c + _), ←
      hdoe]
    exact (Int.mul_ediv_add_emod z 146097).symm
  refine ⟨z / 146097, c, q, y, doy, (5 * doy + 2) / 153, hc0, hc1, hq0, hq1, hy0, hy1, hdoy0, hdoy1,
    hz, hleap, rfl, ?_⟩
  simp only [civil, hyoe, hday, Prod.mk.injEq, and_true]
  clear hyoe hday hdoe hz hleap hfour hcent
  generalize z / 146097 = era
  have hmp : (5 * doy + 2) / 153 ≤ 11 := by omega
  split_ifs <;> omega

/-- **The calendar**: the date of a day is a date, and its day is the given one. -/
lemma civil_spec (z : ℤ) : ∃ y m d, civil z = (y, m, d) ∧ 1 ≤ m ∧ m ≤ 12 ∧ 1 ≤ d ∧
    d ≤ daysIn y m ∧ daysOf y m d = z := by
  obtain ⟨era, c, q, y, doy, mp, hc0, hc1, hq0, hq1, hy0, hy1, hdoy0, hdoy1, rfl, hleap, hmp,
    hciv⟩ :=
    civil_eq z
  obtain ⟨hm0, hm1, hd0, hd1, hshort, hfeb⟩ := monthDay_spec hdoy0 hdoy1 hmp rfl
  refine ⟨_, _, _, hciv, by split_ifs <;> omega, by split_ifs <;> omega, hd0, ?_, ?_⟩
  · generalize doy - (153 * mp + 2) / 5 + 1 = d at *
    unfold daysIn
    interval_cases mp <;> simp <;> omega
  · have hera : (400 * era + 100 * c + 4 * q + y) / 400 = era := by omega
    have hyoe : (400 * era + 100 * c + 4 * q + y) % 400 = 100 * c + 4 * q + y := by omega
    have hfour : (100 * c + 4 * q + y) / 4 = 25 * c + q := by omega
    have hcent : (100 * c + 4 * q + y) / 100 = c := by omega
    by_cases h10 : mp < 10
    · have hy' : ¬ mp + 3 ≤ 2 := by omega
      have hm' : 2 < mp + 3 := by omega
      simp only [daysOf, if_pos h10, if_neg hy', if_pos hm', add_zero, hera, hyoe, hfour, hcent,
        add_sub_cancel_right]
      ring
    · have hy' : mp - 9 ≤ 2 := by omega
      have hm' : ¬ 2 < mp - 9 := by omega
      simp only [daysOf, if_neg h10, if_pos hy', if_neg hm', add_sub_cancel_right, hera, hyoe,
        hfour, hcent, sub_add_cancel]
      ring

/-! ### Digits -/

/-- Decimal digits are read as the number they were written for. -/
lemma number_digits (k : ℕ) {n : ℤ} (h0 : 0 ≤ n) (h1 : n < 10 ^ k) :
    number (digits k n) = some n := by
  suffices h : (digits k n).all (fun b => 48 ≤ b && b ≤ 57) = true ∧
      (digits k n).foldl (fun acc b => acc * 10 + ((b.toNat : ℤ) - 48)) 0 = n by
    rw [number, if_pos h.1, h.2]
  induction k generalizing n with
  | zero => exact ⟨rfl, by simp at h1; simp [digits]; omega⟩
  | succ k ih =>
    obtain ⟨hall, hsum⟩ := ih (n := n / 10) (by omega) (by rw [pow_succ] at h1; omega)
    have hdigit : (UInt8.ofNat (48 + (n % 10).toNat)).toNat = 48 + (n % 10).toNat :=
      UInt8.toNat_ofNat_of_lt' (by show _ < 256; omega)
    constructor
    · rw [digits, List.all_append, hall, Bool.true_and]
      simp only [List.all_cons, List.all_nil, Bool.and_true, Bool.and_eq_true, decide_eq_true_eq,
        UInt8.le_iff_toNat_le, hdigit]
      constructor
      · show 48 ≤ _
        omega
      · show _ ≤ 57
        omega
    · rw [digits, List.foldl_append, hsum, List.foldl_cons, List.foldl_nil, hdigit]
      omega

/-- **Instants are read back**: whole seconds in the years 0 to 9999. -/
theorem parse_format {t : Time} (hsec : t % second = 0) (h0 : 0 ≤ t.year) (h1 : t.year ≤ 9999) :
    parse t.format = some t := by
  obtain ⟨y, m, d, hciv, hm0, hm1, hd0, hd1, hdays⟩ := civil_spec (t.seconds / 86400 + epochShift)
  rw [year, hciv] at h0 h1
  have hformat : t.format = digits 4 y ++ digits 2 m ++ digits 2 d ++
      digits 2 (t.seconds % 86400 / 3600) ++ digits 2 (t.seconds % 86400 / 60 % 60) ++
      digits 2 (t.seconds % 86400 % 60) ++ [90] := by
    simp only [format, hciv]
  have hd31 : daysIn y m ≤ 31 := by
    unfold daysIn
    split_ifs <;> omega
  -- each part is read by the number of its digits
  have hy : number (t.format.take 4) = some y := by
    rw [hformat]
    exact number_digits 4 h0 (by omega)
  have hm : number ((t.format.drop 4).take 2) = some m := by
    rw [hformat]
    exact number_digits 2 (by omega) (by omega)
  have hd : number ((t.format.drop 6).take 2) = some d := by
    rw [hformat]
    exact number_digits 2 (by omega) (by omega)
  have hhour : number ((t.format.drop 8).take 2) = some (t.seconds % 86400 / 3600) := by
    rw [hformat]
    exact number_digits 2 (by omega) (by omega)
  have hminute : number ((t.format.drop 10).take 2) = some (t.seconds % 86400 / 60 % 60) := by
    rw [hformat]
    exact number_digits 2 (by omega) (by omega)
  have hsecond : number ((t.format.drop 12).take 2) = some (t.seconds % 86400 % 60) := by
    rw [hformat]
    exact number_digits 2 (by omega) (by omega)
  have hzone : zone (t.format.drop 14) = some 0 := by
    rw [hformat]
    rfl
  have hvalid : ¬ (m < 1 ∨ 12 < m ∨ d < 1 ∨ daysIn y m < d ∨ 24 ≤ t.seconds % 86400 / 3600 ∨
      60 ≤ t.seconds % 86400 / 60 % 60 ∨ 60 ≤ t.seconds % 86400 % 60) := by omega
  simp only [parse, hy, hm, hd, hhour, hminute, hsecond, hzone, Option.bind_eq_bind,
    Option.bind_some, if_neg hvalid, hdays, Option.some.injEq]
  have hsplit : (t.seconds / 86400 + epochShift - epochShift) * 86400 +
      t.seconds % 86400 / 3600 * 3600 + t.seconds % 86400 / 60 % 60 * 60 +
      t.seconds % 86400 % 60 - 0 = t.seconds := by omega
  rw [hsplit, seconds]
  exact Int.ediv_mul_cancel_of_emod_eq_zero hsec

end Time

/-- The time is in whole seconds of the years that can be written. -/
def Time.Writable (t : Time) : Prop := t % Time.second = 0 ∧ 0 ≤ t.year ∧ t.year ≤ 9999

lemma Conveys.generalizedTime {F : List (Option UInt8)} {d : String} {t : Time} (h : t.Writable) :
    Conveys (2 ^ 31) [some tagGeneralizedTime] F (addASN1GeneralizedTime t)
      (Reader.read d readASN1GeneralizedTime) (· = t) := by
  rw [addASN1GeneralizedTime, if_neg (by rw [not_or]; exact ⟨not_lt.mpr h.2.1, not_lt.mpr h.2.2⟩)]
  refine Conveys.read (by decide) fun e rest he hc => ?_
  simp only [readASN1GeneralizedTime, he, hc, Time.parse_format h.1 h.2.1 h.2.2,
    Option.bind_eq_bind, Option.bind_some]
  rfl

end PkiCmp
