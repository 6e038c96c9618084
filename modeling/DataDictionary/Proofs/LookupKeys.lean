import DataDictionary.Proofs.LatinKeys
import DataDictionary.Proofs.NameIndex

/-!
# Lookup keys are normal forms

A name and its lookup key have the same lookup key (`Text.lookupKey_idem`). No small form is a
capital again, which is a matter of the rows of the table: what one row makes is out of reach of
every other one (`Text.rows_apart`). A text in small letters is therefore left as it is, sigmas
included, since both small sigmas are small wherever they stand. Nor does a letter become a blank,
so a text without blanks at its ends has none there in small letters either.

A look-up by name is thus a search for the key, and it makes no difference whether it is given a
name or a key (`Dictionary.lookups_exact`).
-/

namespace DataDictionary

namespace Text

/-! ## Small forms are small -/

/-- Whether the code points that one row of the table makes lie apart from those that another row
changes: in front of them, behind them, or in the gaps between them. -/
def isApart (row other : Nat × Nat × Nat × Nat) : Bool :=
  Nat.blt (row.2.2.2 + (row.2.1 - row.1)) other.1 || Nat.blt other.2.1 row.2.2.2 ||
    ((Nat.beq row.2.2.1 2 || Nat.beq row.1 row.2.1) && Nat.beq other.2.2.1 2 &&
      Nat.beq ((row.2.2.2 + other.1) % 2) 1)

theorem all_isApart : smallForms.all (fun row => smallForms.all (isApart row)) = true := by
  decide +kernel

theorem rows_apart {row other : Nat × Nat × Nat × Nat} (h : row ∈ smallForms)
    (h' : other ∈ smallForms) :
    row.2.2.2 + (row.2.1 - row.1) < other.1 ∨ other.2.1 < row.2.2.2 ∨
      ((row.2.2.1 = 2 ∨ row.1 = row.2.1) ∧ other.2.2.1 = 2) ∧
        (row.2.2.2 + other.1) % 2 = 1 := by
  have hapart := List.all_eq_true.mp (List.all_eq_true.mp all_isApart row h) other h'
  simpa only [isApart, Bool.or_eq_true, Bool.and_eq_true, Nat.blt_eq, Nat.beq_eq, or_assoc]
    using hapart

/-- What the rows make also lies apart from the stretches in which all blanks are, and from the
dotted `İ`. -/
theorem rows_clear : ∀ row ∈ smallForms,
    ∀ stretch ∈ [(9, 32), (0x85, 0xA0), (0x130, 0x130), (0x1680, 0x1680), (0x2000, 0x205F),
      (0x3000, 0x3000)],
    row.2.2.2 + (row.2.1 - row.1) < stretch.1 ∨ stretch.2 < row.2.2.2 := by
  decide +kernel

theorem smallFormIn_idem (n : Nat) :
    smallFormIn smallForms (smallFormIn smallForms n) = smallFormIn smallForms n := by
  rcases smallFormIn_cases smallForms n with hself | ⟨row, hmem, hfirst, hlast, hstep, hrow⟩
  · rw [hself, hself]
  · rcases smallFormIn_cases smallForms (smallFormIn smallForms n) with
      hself | ⟨other, hmem', hfirst', hlast', hstep', -⟩
    · exact hself
    · -- the small form would be a capital of another row
      rcases rows_apart hmem hmem' with hfront | hbehind | ⟨⟨hsingle, htwo⟩, hodd⟩
      · omega
      · omega
      · have heven : (n - row.1) % 2 = 0 := by
          rcases hsingle with htwo | hsame
          · rwa [htwo] at hstep
          · omega
        rw [htwo] at hstep'
        omega

/-- A character that making letters small leaves alone, wherever it stands. -/
def IsSmall (c : Char) : Prop := c ≠ 'Σ' ∧ small c = [c]

instance (c : Char) : Decidable (IsSmall c) := inferInstanceAs (Decidable (_ ∧ _))

/-- A small form has the code point that the table gives, or that is none of a character. -/
theorem toNat_smallForm_cases (c : Char) :
    (smallForm c).toNat = smallFormIn smallForms c.toNat ∨ smallForm c = '\x00' := by
  by_cases hzero : (smallForm c).toNat = 0
  · exact .inr (Char.toNat_inj.mp hzero)
  · exact .inl (eq_toNat_of_ofNat rfl hzero).symm

theorem smallForm_idem (c : Char) : smallForm (smallForm c) = smallForm c := by
  rcases toNat_smallForm_cases c with hform | hzero
  · rw [smallForm, hform, smallFormIn_idem]
    rfl
  · rw [hzero]
    decide +kernel

/-- A small form is the character itself, or what one row of the table makes, or none at all. -/
theorem smallForm_cases (c : Char) :
    smallForm c = c ∨ smallForm c = '\x00' ∨
      ∃ row ∈ smallForms, row.2.2.2 ≤ (smallForm c).toNat ∧
        (smallForm c).toNat ≤ row.2.2.2 + (row.2.1 - row.1) := by
  rcases toNat_smallForm_cases c with hform | hzero
  · rcases smallFormIn_cases smallForms c.toNat with hsame | ⟨row, hmem, _, hlast, -, hrow⟩
    · exact .inl (Char.toNat_inj.mp (hform.trans hsame))
    · exact .inr (.inr ⟨row, hmem, by omega, by omega⟩)
  · exact .inr (.inl hzero)

theorem isSmall_smallForm {c : Char} (hdotted : c ≠ 'İ') : IsSmall (smallForm c) := by
  have hself := smallForm_idem c
  refine ⟨fun hsigma => ?_, ?_⟩
  · -- a capital sigma has a small form of its own
    rw [hsigma] at hself
    exact absurd hself (by decide +kernel)
  · rw [small, if_neg, hself]
    intro heq
    rcases smallForm_cases c with hsame | hzero | ⟨row, hmem, hfrom, hto⟩
    · exact hdotted (hsame.symm.trans heq)
    · exact absurd (hzero.symm.trans heq) (by decide)
    · rw [heq, show 'İ'.toNat = 0x130 from rfl] at hfrom hto
      rcases rows_clear row hmem (0x130, 0x130) (by simp) with h | h <;> dsimp only at h <;> omega

/-- All blanks lie in a few stretches without a letter. -/
theorem stretch_of_isBlank {c : Char} (h : isBlank c = true) :
    (9 ≤ c.toNat ∧ c.toNat ≤ 32) ∨ (0x85 ≤ c.toNat ∧ c.toNat ≤ 0xA0) ∨ c.toNat = 0x1680 ∨
      (0x2000 ≤ c.toNat ∧ c.toNat ≤ 0x205F) ∨ c.toNat = 0x3000 := by
  simp only [isBlank, Bool.or_eq_true, Bool.and_eq_true, beq_iff_eq, decide_eq_true_eq] at h
  omega

/-- No letter becomes a blank. -/
theorem isBlank_smallForm {c : Char} (h : isBlank c = false) : isBlank (smallForm c) = false := by
  rcases smallForm_cases c with hsame | hzero | ⟨row, hmem, hfrom, hto⟩
  · rwa [hsame]
  · rw [hzero]
    decide
  · rw [Bool.eq_false_iff]
    intro hblank
    have hclear := rows_clear row hmem
    simp only [List.forall_mem_cons, List.not_mem_nil, false_imp_iff, implies_true, and_true]
      at hclear
    have hstretch := stretch_of_isBlank hblank
    omega

/-- What one character of a text becomes: some small characters, and no blanks unless it is one. -/
theorem exists_lowercaseFrom_cons (inWord : Bool) (c : Char) (cs : List Char) :
    ∃ front inWord', lowercaseFrom inWord (c :: cs) = front ++ lowercaseFrom inWord' cs ∧
      front ≠ [] ∧ (∀ d ∈ front, IsSmall d) ∧
      (isBlank c = false → ∀ d ∈ front, isBlank d = false) := by
  rw [lowercaseFrom]
  by_cases hsigma : c = 'Σ'
  · rw [if_pos hsigma]
    refine ⟨[if inWord && !continuesWord cs then 'ς' else 'σ'], _, rfl, List.cons_ne_nil _ _, ?_⟩
    simp only [List.forall_mem_singleton]
    split
    · exact ⟨by decide +kernel, fun _ => by decide⟩
    · exact ⟨by decide +kernel, fun _ => by decide⟩
  · rw [if_neg hsigma]
    refine ⟨small c, _, rfl, ?_⟩
    by_cases hdotted : c = 'İ'
    · rw [small, if_pos hdotted]
      simp only [List.forall_mem_cons, List.not_mem_nil, false_imp_iff, implies_true, and_true]
      exact ⟨List.cons_ne_nil _ _, by decide +kernel, fun _ => by decide⟩
    · rw [small, if_neg hdotted]
      exact ⟨List.cons_ne_nil _ _, List.forall_mem_singleton.mpr (isSmall_smallForm hdotted),
        fun hblank => List.forall_mem_singleton.mpr (isBlank_smallForm hblank)⟩

/-! ## Texts in small letters -/

theorem isSmall_of_mem_lowercaseFrom {inWord : Bool} {cs : List Char} {d : Char}
    (h : d ∈ lowercaseFrom inWord cs) : IsSmall d := by
  induction cs generalizing inWord with
  | nil => cases h
  | cons c cs ih =>
    obtain ⟨front, inWord', heq, -, hsmall, -⟩ := exists_lowercaseFrom_cons inWord c cs
    rw [heq] at h
    exact (List.mem_append.mp h).elim (hsmall d) ih

theorem lowercaseFrom_eq_self {inWord : Bool} {cs : List Char} (h : ∀ c ∈ cs, IsSmall c) :
    lowercaseFrom inWord cs = cs := by
  induction cs generalizing inWord with
  | nil => rfl
  | cons c cs ih =>
    obtain ⟨hsigma, hsmall⟩ := h c List.mem_cons_self
    rw [lowercaseFrom, if_neg hsigma, hsmall, ih fun d hd => h d (List.mem_cons_of_mem c hd)]
    rfl

/-- **A text in small letters has no other small form.** -/
theorem lowercase_idem (cs : List Char) : lowercase (lowercase cs) = lowercase cs :=
  lowercaseFrom_eq_self fun _ => isSmall_of_mem_lowercaseFrom

/-! ## Trimmed texts in small letters -/

theorem head?_lowercaseFrom {inWord : Bool} {cs : List Char}
    (h : ∀ c, cs.head? = some c → isBlank c = false) :
    ∀ d, (lowercaseFrom inWord cs).head? = some d → isBlank d = false := by
  intro d hd
  cases cs with
  | nil => cases hd
  | cons c cs =>
    obtain ⟨front, inWord', heq, hne, -, hblank⟩ := exists_lowercaseFrom_cons inWord c cs
    rw [heq, List.head?_append_of_ne_nil front hne] at hd
    exact hblank (h c rfl) d (List.mem_of_mem_head? hd)

theorem getLast?_lowercaseFrom {inWord : Bool} {cs : List Char}
    (h : ∀ c, cs.getLast? = some c → isBlank c = false) :
    ∀ d, (lowercaseFrom inWord cs).getLast? = some d → isBlank d = false := by
  induction cs generalizing inWord with
  | nil => exact fun d hd => by cases hd
  | cons c cs ih =>
    intro d hd
    obtain ⟨front, inWord', heq, hne, -, hblank⟩ := exists_lowercaseFrom_cons inWord c cs
    rw [heq] at hd
    cases hcs : cs with
    | nil =>
      rw [hcs, lowercaseFrom, List.append_nil] at hd
      exact hblank (h c (by rw [hcs]; rfl)) d (List.mem_of_getLast? hd)
    | cons c' cs' =>
      -- the last character comes from the rest of the text
      obtain ⟨front', inWord'', heq', hne', -⟩ := exists_lowercaseFrom_cons inWord' c' cs'
      have hrest : lowercaseFrom inWord' cs ≠ [] := by
        rw [hcs, heq']
        exact List.append_ne_nil_of_left_ne_nil hne' _
      rw [List.getLast?_append_of_ne_nil front hrest] at hd
      refine ih (fun e he => h e ?_) d hd
      rw [hcs] at he ⊢
      rwa [List.getLast?_cons_cons]

/-- Small letters leave the ends of a trimmed text free of blanks. -/
theorem trim_lowercase_trim (cs : List Char) :
    trim (lowercase (trim cs)) = lowercase (trim cs) := by
  obtain ⟨hhead, hlast⟩ := trim_eq_self_iff.mp (trim_idem cs)
  exact trim_eq_self_iff.mpr ⟨head?_lowercaseFrom hhead, getLast?_lowercaseFrom hlast⟩

/-- **The key of a key is the key itself.** -/
theorem lookupKey_idem (name : String) : lookupKey (lookupKey name) = lookupKey name := by
  simp only [lookupKey, String.toList_ofList]
  rw [trim_lowercase_trim, lowercase_idem]

end Text

open Text

namespace Dictionary

/-- A name is in the index if some object has its key. -/
theorem contains_iff {d : Dictionary} {name : String} :
    d.contains name = true ↔ ∃ o ∈ d.objects, lookupKey o.name = lookupKey name := by
  rw [contains, Std.HashMap.contains_eq_isSome_getElem?, d.index_eq, NameIndex.ofObjects,
    NameIndex.getElem?_addObjects]
  simp [List.findIdx?_isSome]

/-- **A look-up is a search from the front.** It gives the first object that has the key of the
name, whatever other objects have it as well, and none if no object has it; and the key of the name
is as good as the name. -/
theorem lookups_exact (d : Dictionary) (name : String) :
    (∀ o, d.object? name = some o ↔
      ∃ before after, d.objects = before ++ o :: after ∧ lookupKey o.name = lookupKey name ∧
        ∀ p ∈ before, lookupKey p.name ≠ lookupKey name) ∧
    (d.object? name = none ↔ ∀ p ∈ d.objects, lookupKey p.name ≠ lookupKey name) ∧
    (d.contains name = true ↔ ∃ p ∈ d.objects, lookupKey p.name = lookupKey name) ∧
    lookupKey (lookupKey name) = lookupKey name ∧
    d.object? (lookupKey name) = d.object? name ∧
    d.contains (lookupKey name) = d.contains name := by
  have hidem := lookupKey_idem name
  refine ⟨fun o => ?_, ?_, contains_iff, hidem, ?_, ?_⟩
  · rw [object?_eq_find?, List.find?_eq_some_iff_append]
    simp only [beq_iff_eq, Bool.not_eq_true', beq_eq_false_iff_ne]
    exact ⟨fun ⟨hkey, before, after, heq, hother⟩ => ⟨before, after, heq, hkey, hother⟩,
      fun ⟨before, after, heq, hkey, hother⟩ => ⟨hkey, before, after, heq, hother⟩⟩
  · simp [object?_eq_find?]
  · rw [object?_eq_find?, object?_eq_find?, hidem]
  · rw [contains, contains, hidem]

end Dictionary

end DataDictionary
