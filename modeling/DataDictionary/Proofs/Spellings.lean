import DataDictionary.Directive.Table
import DataDictionary.Proofs.LatinKeys

/-!
# Words in any case

The letters of a keyword can be written in more than one way. Whichever way a pattern allows, the
letters that it has taken fold to those of the keyword, so the folded text begins with the folded
word (`Spelling.letters_isPrefix`). That is all one needs to know of two keywords to tell whether
some text could be taken for both.

Folding lets two characters stand for letters that `Char.toLower` leaves as they are, the long s
and the Kelvin sign. So a word without a `k` that was found by folding is found by `Char.toLower`
too, unless it was written with a long s (`map_toLower_eq_iff`).
-/

namespace DataDictionary

namespace Text

/-- A character is its own small form or one of the capitals `A` to `Z`. -/
theorem toLower_cases (c : Char) : c.toLower = c ∨ ∃ n < 26, c = Char.ofNat (65 + n) := by
  by_cases h : 'A'.val ≤ c.val ∧ c.val ≤ 'Z'.val
  · right
    have hlow : 65 ≤ c.toNat := h.1
    have hhigh : c.toNat ≤ 90 := h.2
    refine ⟨c.toNat - 65, by omega, ?_⟩
    rw [show 65 + (c.toNat - 65) = c.toNat by omega, Char.ofNat_toNat]
  · exact .inl (dif_neg h)

theorem toLower_toLower (c : Char) : c.toLower.toLower = c.toLower := by
  rcases toLower_cases c with h | ⟨n, hn, rfl⟩
  · rw [h, h]
  · rw [toLower_capital n hn, toLower_small n hn]

/-- What is no small letter is the small form of nothing but itself. -/
theorem eq_of_toLower_eq {c d : Char} (h : c.toLower = d) (hd : d.isLower = false) : c = d := by
  rcases toLower_cases c with hself | ⟨n, hn, rfl⟩
  · exact hself.symm.trans h
  · have hsmall : ∀ n < 26, (Char.ofNat (97 + n)).isLower = true := by decide
    rw [← h, toLower_capital n hn, hsmall n hn] at hd
    cases hd

theorem foldLatin_toLower (c : Char) : foldLatin c.toLower = foldLatin c := by
  by_cases hs : c = 'ſ'
  · rw [hs]
    decide
  · by_cases hk : c = '\u212A'
    · rw [hk]
      decide
    · have hs' : c.toLower ≠ 'ſ' := fun h => hs (eq_of_toLower_eq h (by decide))
      have hk' : c.toLower ≠ '\u212A' := fun h => hk (eq_of_toLower_eq h (by decide))
      rw [foldLatin, if_neg hs', if_neg hk', toLower_toLower, foldLatin, if_neg hs, if_neg hk]

/-- Nothing folds to a long s. -/
theorem foldLatin_ne_longS (c : Char) : foldLatin c ≠ 'ſ' := by
  unfold foldLatin
  split
  · decide
  · next hs =>
    split
    · decide
    · exact fun h => hs (eq_of_toLower_eq h (by decide))

theorem foldLatin_eq_toLower {c : Char} (hs : c ≠ 'ſ') (hk : foldLatin c ≠ 'k') :
    foldLatin c = c.toLower := by
  have hkelvin : c ≠ '\u212A' := by
    rintro rfl
    exact hk (by decide)
  rw [foldLatin, if_neg hs, if_neg hkelvin]

/-- **A word that folding has found is the same to `Char.toLower`, unless it has a long s.** -/
theorem map_toLower_eq_iff {found word : List Char} (h : found.map foldLatin = word)
    (hk : 'k' ∉ word) : found.map Char.toLower = word ↔ 'ſ' ∉ found := by
  subst h
  constructor
  · intro hlower hs
    have hmem : Char.toLower 'ſ' ∈ found.map Char.toLower := List.mem_map_of_mem hs
    rw [hlower, show Char.toLower 'ſ' = 'ſ' by decide] at hmem
    obtain ⟨c, -, hc⟩ := List.mem_map.mp hmem
    exact foldLatin_ne_longS c hc
  · intro hs
    refine List.map_congr_left fun c hc => ?_
    have hne : c ≠ 'ſ' := fun h => hs (h ▸ hc)
    have hck : foldLatin c ≠ 'k' := fun h => hk (h ▸ List.mem_map_of_mem hc)
    exact (foldLatin_eq_toLower hne hck).symm

/-- **A word is found at the front exactly if the text begins with a spelling of it.** -/
theorem afterWord?_eq_some_iff {word cs rest : List Char} :
    afterWord? word cs = some rest ↔ ∃ found, cs = found ++ rest ∧ found.map foldLatin = word := by
  induction word generalizing cs with
  | nil =>
    simp only [afterWord?, Option.some.injEq, List.map_eq_nil_iff]
    constructor
    · rintro rfl
      exact ⟨[], rfl, rfl⟩
    · rintro ⟨found, hcs, rfl⟩
      exact hcs
  | cons w word ih =>
    cases cs with
    | nil =>
      simp only [afterWord?, reduceCtorEq, false_iff]
      rintro ⟨found, hcs, hfound⟩
      rw [(List.append_eq_nil_iff.mp hcs.symm).1] at hfound
      cases hfound
    | cons c cs =>
      simp only [afterWord?, Option.ite_none_right_eq_some, ih]
      constructor
      · rintro ⟨hc, found, rfl, hfound⟩
        exact ⟨c :: found, rfl, by rw [List.map_cons, hc, hfound]⟩
      · rintro ⟨found, hcs, hfound⟩
        obtain ⟨d, found', rfl, hd, hfound'⟩ := List.map_eq_cons_iff.mp hfound
        obtain ⟨rfl, hcs'⟩ := List.cons_eq_cons.mp hcs
        exact ⟨hd, found', hcs', hfound'⟩

/-- Where two words stand at the front of one text, one of them is the beginning of the other. -/
theorem isPrefix_or_isPrefix_of_spelled {found found' rest rest' word word' : List Char}
    (htext : found ++ rest = found' ++ rest') (h : found.map foldLatin = word)
    (h' : found'.map foldLatin = word') : word <+: word' ∨ word' <+: word := by
  have hfront : word <+: (found ++ rest).map foldLatin := by
    rw [List.map_append, h]
    exact List.prefix_append _ _
  have hfront' : word' <+: (found ++ rest).map foldLatin := by
    rw [htext, List.map_append, h']
    exact List.prefix_append _ _
  exact List.prefix_or_prefix_of_prefix hfront hfront'

end Text

open Text

/-- What a keyword with some capitals has taken folds to its letters. -/
theorem afterCapitals?_isPrefix {word cs rest : List Char}
    (h : afterCapitals? word cs = some rest) : word.map foldLatin <+: cs.map foldLatin := by
  induction word generalizing cs with
  | nil => exact List.nil_prefix
  | cons w word ih =>
    cases cs with
    | nil => cases h
    | cons c cs =>
      rw [afterCapitals?, Option.ite_none_right_eq_some] at h
      have hfold : foldLatin w = foldLatin c := by
        rcases h.1 with rfl | rfl
        · rfl
        · exact (foldLatin_toLower w).symm
      rw [List.map_cons, List.map_cons, hfold]
      exact (List.cons_prefix_cons).mpr ⟨rfl, ih h.2⟩

/-- The letters of a keyword, folded. -/
def Spelling.letters : Spelling → List Char
  | .capitals word => word.toList.map foldLatin
  | .anyCase word => word.toList

/-- **A text that begins with a keyword begins with its letters, once it is folded.** -/
theorem Spelling.letters_isPrefix {spelling : Spelling} {cs rest : List Char}
    (h : spelling.after? cs = some rest) : spelling.letters <+: cs.map foldLatin := by
  cases spelling with
  | capitals word => exact afterCapitals?_isPrefix h
  | anyCase word =>
    obtain ⟨found, rfl, hfound⟩ := afterWord?_eq_some_iff.mp h
    rw [letters, ← hfound, List.map_append]
    exact List.prefix_append _ _

end DataDictionary
