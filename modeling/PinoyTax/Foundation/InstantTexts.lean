import PinoyTax.Foundation.Calendar
import Mathlib.Data.List.Basic

/-! # The text of an instant

Every part of the text but the year has a fixed length, and each is the decimal text of
a number with zeros in front. So different instants have different texts.
-/
namespace PinoyTax.Foundation.Calendar

/-! ## Padded numbers -/

theorem toList_pad (width : ℕ) (n : ℤ) :
    (pad width n).toList = List.replicate (width - (toString n.toNat).length) '0' ++ Nat.toDigits 10 n.toNat := by
  simp only [pad,String.toList_append,String.toList_ofList,Nat.toString_eq_repr,Nat.toList_repr]

theorem ofDigitChars_pad (width : ℕ) (n : ℤ) : Nat.ofDigitChars 10 (pad width n).toList 0 = n.toNat := by
  rw [toList_pad,Nat.ofDigitChars_append,Nat.ofDigitChars_replicate_zero,Nat.mul_zero,Nat.ofDigitChars_ten_toDigits]

theorem pad_inj {v w : ℕ} {m n : ℤ} (hm : 0 ≤ m) (hn : 0 ≤ n) (h : pad v m = pad w n) : m = n := by
  have hdigits := ofDigitChars_pad v m
  rw [h,ofDigitChars_pad] at hdigits
  omega

theorem length_pad {width : ℕ} {n : ℤ} (hwidth : 0 < width) (hn : n.toNat < 10 ^ width) :
    (pad width n).length = width := by
  have hlen : (toString n.toNat).length ≤ width := by
    rw [Nat.toString_eq_repr]
    exact (Nat.length_repr_le_iff hwidth).mpr hn
  rw [pad,String.length_append,String.length_ofList,List.length_replicate]
  omega

theorem notMem_pad (width : ℕ) (n : ℤ) {c : Char} (hc : c.isDigit = false) : c ∉ (pad width n).toList := by
  intro h
  rw [toList_pad,List.mem_append] at h
  rcases h with hzero | hdigit
  · rw [List.eq_of_mem_replicate hzero] at hc
    cases hc
  · rw [Nat.isDigit_of_mem_toDigits (by decide) (by decide) hdigit] at hc
    cases hc

/-- Texts that end in parts of one length agree part by part. -/
theorem append_inj {s s' t t' : String} (hlen : t.length = t'.length) (h : s ++ t = s' ++ t') : s = s' ∧ t = t' := by
  have hlist := congrArg String.toList h
  rw [String.toList_append,String.toList_append] at hlist
  obtain ⟨hs,ht⟩ := List.append_inj' hlist (by rw [String.length_toList,String.length_toList,hlen])
  exact ⟨String.toList_injective hs,String.toList_injective ht⟩

/-! ## Years and days -/

theorem pad_ne_signed {sign : Char} (hsign : sign.isDigit = false) (v w : ℕ) (m n : ℤ) :
    pad v m ≠ String.singleton sign ++ pad w n := by
  intro h
  apply notMem_pad v m hsign
  rw [h,String.toList_append,String.toList_singleton]
  exact List.mem_cons_self

theorem isoYear_inj {y z : ℤ} (h : isoYear y = isoYear z) : y = z := by
  have hminus : ("-" : String) = String.singleton '-' := rfl
  have hplus : ("+" : String) = String.singleton '+' := rfl
  have hcancel {a b : Char} {v w : ℕ} {m n : ℤ} (h : String.singleton a ++ pad v m = String.singleton b ++ pad w n) :
      a = b ∧ pad v m = pad w n := by
    have hlist := congrArg String.toList h
    simp only [String.toList_append,String.toList_singleton,List.singleton_append,List.cons.injEq] at hlist
    exact ⟨hlist.1,String.toList_injective hlist.2⟩
  unfold isoYear at h
  rw [hminus,hplus] at h
  by_cases hy : 0 ≤ y ∧ y ≤ 9999
  · by_cases hz : 0 ≤ z ∧ z ≤ 9999
    · rw [if_pos hy,if_pos hz] at h
      exact pad_inj hy.1 hz.1 h
    · rw [if_pos hy,if_neg hz] at h
      split at h
      · exact absurd h (pad_ne_signed rfl _ _ _ _)
      · exact absurd h (pad_ne_signed rfl _ _ _ _)
  · by_cases hz : 0 ≤ z ∧ z ≤ 9999
    · rw [if_neg hy,if_pos hz] at h
      split at h
      · exact absurd h.symm (pad_ne_signed rfl _ _ _ _)
      · exact absurd h.symm (pad_ne_signed rfl _ _ _ _)
    · rw [if_neg hy,if_neg hz] at h
      have hsame : (if y < 0 then '-' else '+') = (if z < 0 then '-' else '+') ∧ pad 6 y.natAbs = pad 6 z.natAbs := by
        apply hcancel
        rw [apply_ite String.singleton,apply_ite String.singleton]
        exact h
      have habs : (y.natAbs : ℤ) = z.natAbs := pad_inj (by omega) (by omega) hsame.2
      have hsign := hsame.1
      split at hsign
      · split at hsign
        · omega
        · cases hsign
      · split at hsign
        · cases hsign
        · omega

theorem date_civilOfDays (days : ℤ) : 1 ≤ (civilOfDays days).date ∧ (civilOfDays days).date ≤ 31 := by
  obtain ⟨-,-,-,hd0,hd1⟩ := splitEra_spec ((days + 719468) % 146097) (by omega) (by omega)
  unfold civilOfDays civilOfEra daysToMonth
  dsimp only
  omega

theorem civilOfDays_inj {i j : ℤ} (h : civilOfDays i = civilOfDays j) : i = j := by
  rw [← (civilOfDays_spec i).1,h,(civilOfDays_spec j).1]

/-! ## Instants -/

/-- The fields of the text, the last one first. -/
theorem fields_of_toISOString {t u : ℤ} (h : toISOString t = toISOString u) :
    civilOfDays (t / millisPerDay) = civilOfDays (u / millisPerDay) ∧ t % millisPerDay = u % millisPerDay := by
  have hday (t : ℤ) := date_civilOfDays (t / millisPerDay)
  have hmonth (t : ℤ) := (civilOfDays_spec (t / millisPerDay)).2
  have hms (t : ℤ) : 0 ≤ t % millisPerDay ∧ t % millisPerDay < 86400000 := by
    unfold millisPerDay
    omega
  obtain ⟨⟨ht,ht'⟩,hu,hu'⟩ := And.intro (hms t) (hms u)
  obtain ⟨⟨hd,hd'⟩,he,he'⟩ := And.intro (hday t) (hday u)
  obtain ⟨⟨hm,hm'⟩,hn,hn'⟩ := And.intro (hmonth t) (hmonth u)
  unfold toISOString at h
  dsimp only at h
  generalize civilOfDays (t / millisPerDay) = c at *
  generalize civilOfDays (u / millisPerDay) = c' at *
  generalize t % millisPerDay = ms at *
  generalize u % millisPerDay = ms' at *
  obtain ⟨h,-⟩ := append_inj rfl h
  obtain ⟨h,hmillis⟩ := append_inj (by rw [length_pad (by omega) (by omega),length_pad (by omega) (by omega)]) h
  obtain ⟨h,-⟩ := append_inj rfl h
  obtain ⟨h,hsecond⟩ := append_inj (by rw [length_pad (by omega) (by omega),length_pad (by omega) (by omega)]) h
  obtain ⟨h,-⟩ := append_inj rfl h
  obtain ⟨h,hminute⟩ := append_inj (by rw [length_pad (by omega) (by omega),length_pad (by omega) (by omega)]) h
  obtain ⟨h,-⟩ := append_inj rfl h
  obtain ⟨h,hhour⟩ := append_inj (by rw [length_pad (by omega) (by omega),length_pad (by omega) (by omega)]) h
  obtain ⟨h,-⟩ := append_inj rfl h
  obtain ⟨h,hdate⟩ := append_inj (by rw [length_pad (by omega) (by omega),length_pad (by omega) (by omega)]) h
  obtain ⟨h,-⟩ := append_inj rfl h
  obtain ⟨h,hmonth⟩ := append_inj (by rw [length_pad (by omega) (by omega),length_pad (by omega) (by omega)]) h
  obtain ⟨hyear,-⟩ := append_inj rfl h
  have hmillis := pad_inj (by omega) (by omega) hmillis
  have hsecond := pad_inj (by omega) (by omega) hsecond
  have hminute := pad_inj (by omega) (by omega) hminute
  have hhour := pad_inj (by omega) (by omega) hhour
  have hdate := pad_inj (by omega) (by omega) hdate
  have hmonth := pad_inj (by omega) (by omega) hmonth
  have hyear := isoYear_inj hyear
  refine ⟨?_,by omega⟩
  obtain ⟨year,month,date⟩ := c
  obtain ⟨year',month',date'⟩ := c'
  dsimp only at *
  have hmonth : month = month' := by omega
  rw [hyear,hdate,hmonth]

theorem toISOString_inj {t u : ℤ} (h : toISOString t = toISOString u) : t = u := by
  obtain ⟨hcivil,hms⟩ := fields_of_toISOString h
  have hdays := civilOfDays_inj hcivil
  unfold millisPerDay at hdays hms
  omega

theorem underscore_notMem_toISOString (t : ℤ) : '_' ∉ (toISOString t).toList := by
  have hpad (width : ℕ) (n : ℤ) : '_' ∉ (pad width n).toList := notMem_pad width n rfl
  have hyear (year : ℤ) : '_' ∉ (isoYear year).toList := by
    unfold isoYear
    split
    · exact hpad _ _
    · split
      · simp [hpad]
      · simp [hpad]
  simp [toISOString,hpad,hyear]

/-- Two texts with an underscore between them can be told apart. -/
theorem toISOString_pair_inj {t u t' u' : ℤ}
    (h : toISOString t ++ "_" ++ toISOString u = toISOString t' ++ "_" ++ toISOString u') : t = t' ∧ u = u' := by
  have hlist := congrArg String.toList h
  simp only [String.toList_append,List.append_assoc] at hlist
  obtain ⟨ht,-,hu⟩ := (List.append_cons_inj_of_notMem (underscore_notMem_toISOString t')
    (underscore_notMem_toISOString u')).mp hlist.symm
  exact ⟨toISOString_inj (String.toList_injective ht.symm),toISOString_inj (String.toList_injective hu.symm)⟩

end PinoyTax.Foundation.Calendar
