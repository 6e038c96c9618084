import DataDictionary.Token
import DataDictionary.Directive.Table
import Mathlib.Data.List.DropRight

/-!
# Texts without outer blanks

Whatever a source says reaches its objects through a token, and every token was trimmed when it
was cut from its line. So were the arguments of directives. A trimmed text is its own trimmed form,
which is why names and keys can later be compared without looking at blanks again.
-/

namespace DataDictionary

namespace Text

theorem trimEnd_idem (cs : List Char) : trimEnd (trimEnd cs) = trimEnd cs :=
  List.rdropWhile_idempotent isBlank cs

theorem isBlank_of_isDigit {c : Char} (h : c.isDigit = true) : isBlank c = false := by
  rw [Bool.eq_false_iff]
  intro hblank
  simp only [isBlank, Bool.or_eq_true, Bool.and_eq_true, beq_iff_eq, decide_eq_true_eq] at hblank
  have hrange : 48 ≤ c.toNat ∧ c.toNat ≤ 57 := by
    simp only [Char.isDigit, Bool.and_eq_true, decide_eq_true_eq] at h
    exact h
  omega

theorem trimStart_eq_self {c : Char} {cs : List Char} (h : isBlank c = false) :
    trimStart (c :: cs) = c :: cs := by
  rw [trimStart_cons, if_neg (by simp [h])]

/-- What is left of the front blanks starts with a character that is none. -/
theorem not_isBlank_of_trimStart {c : Char} {cs ds : List Char} (h : trimStart cs = c :: ds) :
    isBlank c = false := by
  have hhead := List.head_dropWhile_not isBlank (l := cs) (by
    rw [show cs.dropWhile isBlank = c :: ds from h]; simp)
  simpa [show cs.dropWhile isBlank = c :: ds from h] using hhead

/-- Trimming takes blanks off the front and then off the end. -/
theorem trim_isPrefix (cs : List Char) : trim cs <+: trimStart cs :=
  List.rdropWhile_prefix isBlank (trimStart cs)

/-- It takes nothing off the front of a text that begins with no blank. -/
theorem exists_trim_cons {c : Char} (h : isBlank c = false) (cs : List Char) :
    ∃ rest, trim (c :: cs) = c :: rest := by
  have hprefix := trim_isPrefix (c :: cs)
  rw [trimStart_eq_self h] at hprefix
  cases ht : trim (c :: cs) with
  | nil =>
    have hblank := List.rdropWhile_eq_nil_iff.mp ht c (by rw [trimStart_eq_self h]; simp)
    rw [h] at hblank
    cases hblank
  | cons d ds =>
    rw [ht, List.cons_prefix_cons] at hprefix
    exact ⟨ds, hprefix.1 ▸ rfl⟩

/-- Dropping blanks at the end does not bring any to the front. -/
theorem trimStart_trim (cs : List Char) : trimStart (trim cs) = trim cs := by
  have hprefix := trim_isPrefix cs
  cases ht : trim cs with
  | nil => rfl
  | cons d ds =>
    obtain ⟨rest, hrest⟩ := hprefix
    rw [ht, List.cons_append] at hrest
    exact trimStart_eq_self (not_isBlank_of_trimStart hrest.symm)

theorem mem_of_mem_trim {c : Char} {cs : List Char} (h : c ∈ trim cs) : c ∈ cs :=
  (List.dropWhile_suffix isBlank).subset ((trim_isPrefix cs).subset h)

theorem trim_idem (cs : List Char) : trim (trim cs) = trim cs := by
  rw [trim, trimStart_trim]
  exact trimEnd_idem (trimStart cs)

/-- There is nothing to trim from a text if neither its first nor its last character is a blank. -/
theorem trim_eq_self_iff {cs : List Char} :
    trim cs = cs ↔
      (∀ c, cs.head? = some c → isBlank c = false) ∧
        ∀ c, cs.getLast? = some c → isBlank c = false := by
  constructor
  · intro h
    have hstart : trimStart cs = cs := by
      have htrim := trimStart_trim cs
      rwa [h] at htrim
    have hend : trimEnd cs = cs := by rwa [trim, hstart] at h
    refine ⟨fun c hc => ?_, fun c hc => ?_⟩
    · obtain ⟨rest, rfl⟩ := List.head?_eq_some_iff.mp hc
      exact not_isBlank_of_trimStart hstart
    · obtain ⟨front, rfl⟩ := List.getLast?_eq_some_iff.mp hc
      have hlast := List.rdropWhile_eq_self_iff.mp hend (by simp)
      rw [List.getLast_append_singleton] at hlast
      exact Bool.eq_false_iff.mpr hlast
  · rintro ⟨hhead, hlast⟩
    have hstart : trimStart cs = cs := by
      cases cs with
      | nil => rfl
      | cons c cs => exact trimStart_eq_self (hhead c rfl)
    rw [trim, hstart]
    refine List.rdropWhile_eq_self_iff.mpr fun hne hblank => ?_
    rw [hlast _ (List.getLast?_eq_some_getLast hne)] at hblank
    cases hblank

theorem trim_eq_self {cs : List Char} (h : ∀ c ∈ cs, isBlank c = false) : trim cs = cs :=
  trim_eq_self_iff.mpr
    ⟨fun c hc => h c (List.mem_of_mem_head? hc), fun c hc => h c (List.mem_of_getLast? hc)⟩

/-- A text that has no blanks at its ends. -/
def IsTrimmed (s : String) : Prop := trim s.toList = s.toList

theorem isTrimmed_ofList_trim (cs : List Char) : IsTrimmed (String.ofList (trim cs)) := by
  unfold IsTrimmed
  rw [String.toList_ofList, trim_idem]

theorem IsTrimmed.strip_eq {s : String} (h : IsTrimmed s) : strip s = s := by
  unfold strip
  rw [h, String.ofList_toList]

end Text

open Text

/-! ## Arguments of directives -/

theorem Pattern.isTrimmed_of_match? {p : Pattern} {cs : List Char} {argument : String}
    (h : p.match? cs = some argument) : IsTrimmed argument := by
  simp only [Pattern.match?, Option.bind_eq_bind, Option.bind_eq_some_iff, Option.some.injEq] at h
  obtain ⟨_, -, _, -, rfl⟩ := h
  exact isTrimmed_ofList_trim _

/-- The argument of a directive is trimmed. -/
theorem Directive.isTrimmed_argument {scope : Scope} {text : String} {d : Directive}
    (h : Directive.classify? scope text = some d) : IsTrimmed d.argument := by
  obtain ⟨rule, -, hrule⟩ := List.exists_of_findSome?_eq_some h
  obtain ⟨argument, hargument, rfl⟩ := Option.map_eq_some_iff.mp hrule
  exact Pattern.isTrimmed_of_match? hargument

end DataDictionary
