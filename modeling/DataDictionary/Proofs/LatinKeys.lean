import DataDictionary.Assembly
import DataDictionary.Proofs.Trimming

/-!
# Words that only their own spellings fold to

Objects are looked up under the full lower-case mapping of Unicode, but whether a dictionary has an
object for free comments is decided by the letters `A` to `Z` alone. The two agree on this word.
Apart from the capitals `A` to `Z` themselves, the Kelvin sign is the only character that becomes a
small letter of the Latin alphabet, and it becomes a `k`: the table of small forms shows it. The
dotted `İ` becomes an `i`, but never without its dot. So a text whose small form is a word of Latin
letters without `k` is that word already, up to the case of `A` to `Z`.
-/

namespace DataDictionary.Text

/-- A small letter of the Latin alphabet that no sign outside the alphabet stands for. -/
def IsPlainLetter (c : Char) : Prop := 97 ≤ c.toNat ∧ c.toNat ≤ 122 ∧ c ≠ 'k'

instance (c : Char) : Decidable (IsPlainLetter c) := inferInstanceAs (Decidable (_ ∧ _ ∧ _))

/-- The small form of a code point is the code point itself or comes from one of the rows. -/
theorem smallFormIn_cases (rows : List (Nat × Nat × Nat × Nat)) (n : Nat) :
    smallFormIn rows n = n ∨
      ∃ row ∈ rows, row.1 ≤ n ∧ n ≤ row.2.1 ∧ (n - row.1) % row.2.2.1 = 0 ∧
        smallFormIn rows n = row.2.2.2 + (n - row.1) := by
  induction rows with
  | nil => exact .inl rfl
  | cons row rest ih =>
    obtain ⟨first, last, step, small⟩ := row
    rw [smallFormIn]
    split
    · exact .inl rfl
    · next hfirst =>
      split
      · next hin =>
        simp only [Bool.and_eq_true, decide_eq_true_eq, beq_iff_eq] at hin
        exact .inr ⟨(first, last, step, small), by simp, Nat.not_lt.mp hfirst, hin.1, hin.2, rfl⟩
      · rcases ih with h | ⟨row, hmem, hrow⟩
        · exact .inl h
        · exact .inr ⟨row, List.mem_cons_of_mem _ hmem, hrow⟩

/-- Only two rows reach down to the Latin alphabet: its own, and that of the Kelvin sign. -/
theorem latin_rows : ∀ row ∈ smallForms,
    row = (65, 90, 1, 97) ∨ row = (8490, 8490, 1, 107) ∨ 122 < row.2.2.2 := by
  decide +kernel

theorem eq_toNat_of_ofNat {n : Nat} {c : Char} (h : Char.ofNat n = c) (hc : c.toNat ≠ 0) :
    n = c.toNat := by
  by_cases hvalid : n.isValidChar
  · rw [← h, Char.ofNat, dif_pos hvalid]
    rfl
  · rw [Char.ofNat, dif_neg hvalid] at h
    rw [← h] at hc
    exact absurd rfl hc

theorem toLower_capital : ∀ n < 26, (Char.ofNat (65 + n)).toLower = Char.ofNat (97 + n) := by
  decide

theorem toLower_small : ∀ n < 26, (Char.ofNat (97 + n)).toLower = Char.ofNat (97 + n) := by
  decide

/-- What becomes a plain letter is that letter or its capital. -/
theorem toLower_of_smallForm {c : Char} (h : IsPlainLetter (smallForm c)) :
    c.toLower = smallForm c := by
  obtain ⟨hlow, hhigh, hk⟩ := h
  have hn : smallFormIn smallForms c.toNat = (smallForm c).toNat := eq_toNat_of_ofNat rfl (by omega)
  rcases smallFormIn_cases smallForms c.toNat with
    hself | ⟨row, hmem, hfirst, hlast, -, hrow⟩
  · -- a small letter already
    have hc : smallForm c = c := Char.toNat_inj.mp (by rw [← hn, hself])
    rw [hc] at hlow hhigh ⊢
    have hsmall := toLower_small (c.toNat - 97) (by omega)
    rwa [show 97 + (c.toNat - 97) = c.toNat by omega, Char.ofNat_toNat] at hsmall
  · rcases latin_rows row hmem with rfl | rfl | hbig
    · -- a capital, which lies as far from its small letter as all of them do
      dsimp only at hfirst hlast hrow
      have hcapital := toLower_capital (c.toNat - 65) (by omega)
      rw [show 65 + (c.toNat - 65) = c.toNat by omega, Char.ofNat_toNat] at hcapital
      rw [hcapital, ← hrow]
      rfl
    · -- the Kelvin sign becomes the one letter that is not plain
      have hkelvin : smallForm c = 'k' := by
        apply Char.toNat_inj.mp
        rw [← hn, hrow]
        dsimp only at hfirst hlast ⊢
        rw [show c.toNat - 8490 = 0 by omega]
        rfl
      exact absurd hkelvin hk
    · omega

/-- **A text that becomes a word of plain letters differs from it only in case.** -/
theorem map_toLower_of_lowercaseFrom {inWord : Bool} {cs : List Char}
    (h : ∀ c ∈ lowercaseFrom inWord cs, IsPlainLetter c) :
    cs.map Char.toLower = lowercaseFrom inWord cs := by
  induction cs generalizing inWord with
  | nil => rfl
  | cons c cs ih =>
    rw [lowercaseFrom] at h ⊢
    by_cases hsigma : c = 'Σ'
    · -- neither small sigma is a Latin letter
      rw [if_pos hsigma] at h
      have hhead := h _ List.mem_cons_self
      split at hhead
      · exact absurd hhead (by decide)
      · exact absurd hhead (by decide)
    · rw [if_neg hsigma] at h ⊢
      by_cases hdotted : c = 'İ'
      · -- the dot that `İ` leaves behind is no letter
        rw [small, if_pos hdotted] at h
        exact absurd (h '\u0307' (by simp)) (by decide)
      · rw [small, if_neg hdotted] at h ⊢
        rw [List.map_cons, toLower_of_smallForm (h _ (by simp)),
          ih fun d hd => h d (List.mem_append_right _ hd)]
        rfl

end DataDictionary.Text

namespace DataDictionary

open Text

/-- A trimmed name has the key of the object for free comments only if it is that name in another
case. -/
theorem sameWord_commentOnly_of_key {name : String} (htrim : IsTrimmed name)
    (hkey : lookupKey name = lookupKey commentOnlyName) : sameWord name commentOnlyName = true := by
  have hsmall : lowercase name.toList = "commentonly".toList := by
    have h : lowercase (trim name.toList) = lowercase (trim commentOnlyName.toList) :=
      String.ofList_injective hkey
    rw [htrim] at h
    exact h.trans (by decide +kernel)
  have hletters : "commentonly".toList.all (decide <| IsPlainLetter ·) = true := by decide +kernel
  have hplain : ∀ c ∈ lowercaseFrom false name.toList, IsPlainLetter c := by
    intro c hc
    rw [show lowercaseFrom false name.toList = "commentonly".toList from hsmall] at hc
    exact of_decide_eq_true (List.all_eq_true.mp hletters c hc)
  rw [sameWord_iff, map_toLower_of_lowercaseFrom hplain]
  exact hsmall.trans (by decide +kernel)

end DataDictionary
