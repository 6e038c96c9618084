import DataDictionary.Outcome
import DataDictionary.Bindings.Source
import DataDictionary.Proofs.Identifiers

/-!
# Which identifiers are valid

An identifier is made of letters, digits and underscores, does not begin with a digit and is more
than an underscore. Every identifier in bindings has this form, whatever the names in a dictionary
are (`isIdentifier_of_mem_objectIdents?`, `isIdentifier_fieldIdent`).

It must not be a keyword either. The identifiers of fields never are: they begin with a capital, and
the one keyword that does, `Self`, is looked out for. The identifiers of objects keep the letters of
the names as they are, and here too nothing but `Self` is looked out for. So a keyword is among them
if it is the name of an object, up to what is no letter and no digit at its end
(`idents_valid_unless_keyword`). Numbers do not come into it, because no keyword has an underscore.
-/

namespace DataDictionary

namespace Bindings

open Text

/-- The words that are reserved in the language of bindings, those for future use included. -/
def keywords : List String :=
  ["as", "async", "await", "break", "const", "continue", "crate", "dyn", "else", "enum", "extern",
   "false", "fn", "for", "if", "impl", "in", "let", "loop", "match", "mod", "move", "mut", "pub",
   "ref", "return", "self", "Self", "static", "struct", "super", "trait", "true", "type", "unsafe",
   "use", "where", "while",
   "abstract", "become", "box", "do", "final", "gen", "macro", "override", "priv", "try", "typeof",
   "unsized", "virtual", "yield"]

/-- A character that may stand in an identifier. -/
def IsIdentChar (c : Char) : Prop := isWordChar c = true ∨ c = '_'

/-- A word of the form that identifiers have, reserved or not. -/
structure IsIdentifier (s : String) : Prop where
  /-- It is not empty and does not begin with a digit. -/
  start : ∃ c cs, s.toList = c :: cs ∧ c.isDigit = false
  chars : ∀ c ∈ s.toList, IsIdentChar c
  ne_underscore : s ≠ "_"

/-- A word may be continued, and even an underscore becomes an identifier that way. -/
theorem isIdentifier_append {a b : String} (hstart : ∃ c cs, a.toList = c :: cs ∧ c.isDigit = false)
    (ha : ∀ c ∈ a.toList, IsIdentChar c) (hb : ∀ c ∈ b.toList, IsIdentChar c) (hne : b ≠ "") :
    IsIdentifier (a ++ b) := by
  obtain ⟨c, cs, hcs, hdigit⟩ := hstart
  refine ⟨⟨c, cs ++ b.toList, ?_, hdigit⟩, fun x hx => ?_, fun h => ?_⟩
  · rw [String.toList_append, hcs, List.cons_append]
  · rw [String.toList_append] at hx
    exact (List.mem_append.mp hx).elim (ha x) (hb x)
  · have hlist := congrArg String.toList h
    rw [String.toList_append, hcs, List.cons_append] at hlist
    have hnil : b.toList = [] := (List.append_eq_nil_iff.mp (List.cons.inj hlist).2).2
    exact hne (String.toList_eq_nil_iff.mp hnil)

theorem isIdentChar_of_isDigit {c : Char} (h : c.isDigit = true) : IsIdentChar c := by
  refine .inl ?_
  rw [isWordChar, Char.isAlphanum, h, Bool.or_true]

theorem isIdentChar_of_all {s : String}
    (h : s.toList.all (fun c => isWordChar c || c == '_') = true) :
    ∀ c ∈ s.toList, IsIdentChar c := by
  intro c hc
  simpa [IsIdentChar] using List.all_eq_true.mp h c hc

/-! ## The form of an identifier -/

/-- **What is repaired is an identifier.** -/
theorem isIdentifier_repair {digitGuard s : String}
    (hguard : ∃ c cs, digitGuard.toList = c :: cs ∧ c.isDigit = false)
    (hguardChars : ∀ c ∈ digitGuard.toList, IsIdentChar c) (hchars : ∀ c ∈ s.toList, IsIdentChar c)
    (hne : s ≠ "_") : IsIdentifier (repair digitGuard s) := by
  unfold repair
  split
  · exact ⟨⟨'U', "nnamed".toList, rfl, rfl⟩, isIdentChar_of_all (by decide +kernel), by decide⟩
  · next c cs hcs =>
    have hs : s ≠ "" := by
      rintro rfl
      cases hcs
    split
    · exact isIdentifier_append hguard hguardChars hchars hs
    · next hdigit =>
      split
      · exact ⟨⟨'S', "elf_".toList, rfl, rfl⟩, isIdentChar_of_all (by decide +kernel), by decide⟩
      · exact ⟨⟨c, cs, hcs, Bool.eq_false_iff.mpr hdigit⟩, hchars, hne⟩

theorem isIdentChar_of_mem_underscored {pending : Bool} {cs : List Char} {c : Char}
    (h : c ∈ underscored pending cs) : IsIdentChar c := by
  induction cs generalizing pending with
  | nil => cases h
  | cons d cs ih =>
    unfold underscored at h
    split at h
    · next hword =>
      rcases List.mem_cons.mp h with rfl | h
      · exact .inl hword
      · exact ih h
    · split at h
      · exact ih h
      · rcases List.mem_cons.mp h with rfl | h
        · exact .inr rfl
        · exact ih h

/-- A text that underscores are dropped from either keeps its first character or was nothing but
underscores. -/
theorem dropUnderscores_cons (c : Char) (cs : List Char) :
    dropUnderscores (c :: cs) =
      if c = '_' ∧ dropUnderscores cs = [] then [] else c :: dropUnderscores cs := by
  unfold dropUnderscores
  rw [List.reverse_cons, List.dropWhile_append]
  by_cases hrest : cs.reverse.dropWhile (· = '_') = []
  · by_cases hc : c = '_' <;> simp [hrest, hc]
  · simp [hrest]

theorem dropUnderscores_subset (cs : List Char) : dropUnderscores cs ⊆ cs := by
  intro c hc
  have hc := (List.dropWhile_sublist _).subset (List.mem_reverse.mp hc)
  exact List.mem_reverse.mp hc

theorem dropUnderscores_ne_underscore (cs : List Char) : dropUnderscores cs ≠ ['_'] := by
  cases cs with
  | nil => decide
  | cons c cs =>
    rw [dropUnderscores_cons]
    split
    · decide
    · next h => exact fun heq => h ⟨(List.cons.inj heq).1, (List.cons.inj heq).2⟩

theorem isIdentifier_objectIdent (name : String) : IsIdentifier (objectIdent name) := by
  refine isIdentifier_repair ⟨'_', [], rfl, rfl⟩ (isIdentChar_of_all (by decide)) (fun c hc => ?_)
    fun h => ?_
  · rw [String.toList_ofList] at hc
    exact isIdentChar_of_mem_underscored (dropUnderscores_subset _ hc)
  · exact dropUnderscores_ne_underscore _ (String.ofList_injective h)

/-- An identifier with a number added to it is one again. -/
theorem IsIdentifier.withNumber {base : String} (h : IsIdentifier base) (n : Nat) :
    IsIdentifier (withNumber base n) := by
  rw [Bindings.withNumber, String.append_assoc]
  refine isIdentifier_append h.start h.chars (fun c hc => ?_) fun hnil => ?_
  · rw [String.toList_append] at hc
    rcases List.mem_append.mp hc with hc | hc
    · exact .inr (List.mem_singleton.mp hc)
    · rw [decimal, String.toList_ofList] at hc
      exact isIdentChar_of_isDigit (isDigit_of_mem_digits hc)
  · have hlist := congrArg String.toList hnil
    rw [String.toList_append] at hlist
    cases hlist

theorem IsIdentifier.candidate {base : String} (h : IsIdentifier base) (k : Nat) :
    IsIdentifier (candidate base k) := by
  cases k with
  | zero => exact h
  | succ k => exact h.withNumber (k + 2)

theorem isIdentifier_of_mem_freshAll? {used bases idents : List String} {ident : String}
    (h : ∀ base ∈ bases, IsIdentifier base) (hidents : freshAll? used bases = some idents)
    (hident : ident ∈ idents) : IsIdentifier ident := by
  induction bases generalizing used idents with
  | nil =>
    rw [← Option.some.inj hidents] at hident
    cases hident
  | cons base rest ih =>
    obtain ⟨hbase, hrest⟩ := List.forall_mem_cons.mp h
    obtain ⟨first, given, hfirst, hgiven, rfl⟩ := freshAll?_cons_eq_some_iff.mp hidents
    rcases List.mem_cons.mp hident with rfl | hident
    · obtain ⟨k, -, rfl, -⟩ := fresh?_eq_some_iff.mp hfirst
      exact hbase.candidate k
    · exact ih hrest hgiven hident

/-- **The identifiers of objects have the form of identifiers.** -/
theorem isIdentifier_of_mem_objectIdents? {d : Dictionary} {idents : List String} {ident : String}
    (h : objectIdents? d = some idents) (hident : ident ∈ idents) : IsIdentifier ident := by
  refine isIdentifier_of_mem_freshAll? (fun base hbase => ?_) h hident
  obtain ⟨o, -, rfl⟩ := List.mem_map.mp hbase
  exact isIdentifier_objectIdent o.name

/-! ## Identifiers of fields -/

theorem isLower_iff {c : Char} : c.isLower = true ↔ 97 ≤ c.toNat ∧ c.toNat ≤ 122 :=
  Bool.and_eq_true_iff.trans (and_congr decide_eq_true_iff decide_eq_true_iff)

theorem isWordChar_iff {c : Char} :
    isWordChar c = true ↔ (c.isUpper = true ∨ c.isLower = true) ∨ c.isDigit = true :=
  Bool.or_eq_true_iff.trans (or_congr_left Bool.or_eq_true_iff)

theorem isUpper_toUpper_small : ∀ n < 26, (Char.ofNat (97 + n)).toUpper.isUpper = true := by
  decide

theorem toUpper_eq_self {c : Char} (h : ¬c.isLower = true) : c.toUpper = c :=
  dif_neg (mt isLower_iff.mpr h)

/-- What a word begins with becomes a capital or is a digit. -/
theorem toUpper_of_isWordChar {c : Char} (h : isWordChar c = true) :
    c.toUpper.isUpper = true ∨ c.toUpper.isDigit = true := by
  by_cases hlower : c.isLower = true
  · left
    have hrange := isLower_iff.mp hlower
    have hcapital := isUpper_toUpper_small (c.toNat - 97) (by omega)
    rwa [show 97 + (c.toNat - 97) = c.toNat by omega, Char.ofNat_toNat] at hcapital
  · rw [toUpper_eq_self hlower]
    exact (isWordChar_iff.mp h).imp_left fun hletter => hletter.resolve_right hlower

theorem isWordChar_toUpper {c : Char} (h : isWordChar c = true) : isWordChar c.toUpper = true :=
  isWordChar_iff.mpr ((toUpper_of_isWordChar h).imp_left .inl)

theorem isWordChar_of_mem_capitalized {atWord : Bool} {cs : List Char} {c : Char}
    (h : c ∈ capitalized atWord cs) : isWordChar c = true := by
  induction cs generalizing atWord with
  | nil => cases h
  | cons d cs ih =>
    unfold capitalized at h
    split at h
    · next hword =>
      rcases List.mem_cons.mp h with rfl | h
      · split
        · exact isWordChar_toUpper hword
        · exact hword
      · exact ih h
    · exact ih h

/-- A name that is run together begins with a capital or a digit. -/
theorem head_capitalized {cs ds : List Char} {c : Char} (h : capitalized true cs = c :: ds) :
    c.isUpper = true ∨ c.isDigit = true := by
  induction cs with
  | nil => cases h
  | cons d cs ih =>
    unfold capitalized at h
    split at h
    · next hword =>
      rw [if_pos rfl] at h
      exact (List.cons.inj h).1 ▸ toUpper_of_isWordChar hword
    · exact ih h

/-- `Self` is the only keyword that begins with a capital. -/
theorem notMem_keywords {s : String} {c : Char} {cs : List Char} (hs : s.toList = c :: cs)
    (hupper : c.isUpper = true) (hne : s ≠ "Self") : s ∉ keywords := by
  have hcapital :
      keywords.all (fun k => k = "Self" || !(k.toList.head?.any Char.isUpper)) = true := by
    decide +kernel
  intro hmem
  have hk := List.all_eq_true.mp hcapital s hmem
  simp [hne, hs, hupper] at hk

theorem isIdentifier_render (id : FieldId) : IsIdentifier id.render ∧ id.render ∉ keywords := by
  have hlist : id.render.toList = id.track.letter :: digits id.number.toNat := by
    rw [FieldId.render, String.toList_ofList]
  have hletter : id.track.letter.isUpper = true ∧ IsIdentChar id.track.letter ∧
      id.track.letter.isDigit = false ∧ id.track.letter ≠ 'S' ∧ id.track.letter ≠ '_' := by
    cases id.track with
    | alpha => exact ⟨rfl, .inl rfl, rfl, by decide, by decide⟩
    | numeric => exact ⟨rfl, .inl rfl, rfl, by decide, by decide⟩
  obtain ⟨hupper, hchar, hdigit, hs, hbar⟩ := hletter
  refine ⟨⟨⟨_, _, hlist, hdigit⟩, fun c hc => ?_, fun h => ?_⟩,
    notMem_keywords hlist hupper fun h => ?_⟩
  · rw [hlist] at hc
    rcases List.mem_cons.mp hc with rfl | hc
    · exact hchar
    · exact isIdentChar_of_isDigit (isDigit_of_mem_digits hc)
  · rw [h] at hlist
    exact hbar (List.cons.inj hlist).1.symm
  · rw [h] at hlist
    exact hs (List.cons.inj hlist).1.symm

/-- **The identifiers of fields have the form of identifiers and are not reserved.** -/
theorem isIdentifier_fieldIdent (f : Field) :
    IsIdentifier (fieldIdent f) ∧ fieldIdent f ∉ keywords := by
  unfold fieldIdent
  dsimp only
  split
  · exact isIdentifier_render f.id
  · next hname =>
    let words := capitalized true f.name.toList
    have hwords : (String.ofList words).toList = words := String.toList_ofList
    have hchars : ∀ c ∈ (String.ofList words).toList, isWordChar c = true := by
      intro c hc
      rw [hwords] at hc
      exact isWordChar_of_mem_capitalized hc
    constructor
    · refine isIdentifier_repair ⟨'F', "ield".toList, rfl, rfl⟩
        (isIdentChar_of_all (by decide +kernel)) (fun c hc => .inl (hchars c hc)) fun h => ?_
      exact absurd (hchars '_' (h ▸ List.mem_singleton_self _)) (by decide)
    · -- behind a digit stands the guard, and any other beginning is a capital
      unfold repair
      split
      · exact notMem_keywords rfl rfl (by decide)
      · next c cs hcs =>
        split
        · have hfield :
              ("Field" ++ String.ofList words).toList = 'F' :: ("ield".toList ++ c :: cs) := by
            rw [String.toList_append, hcs]
            rfl
          refine notMem_keywords hfield rfl fun h => ?_
          rw [h] at hfield
          cases hfield
        · next hdigit =>
          split
          · exact notMem_keywords rfl rfl (by decide)
          · next hself =>
            have hupper := (head_capitalized (hwords.symm.trans hcs)).resolve_right hdigit
            exact notMem_keywords hcs hupper hself

/-! ## Keywords among the identifiers of objects -/

/-- A word without an underscore is not made by adding a number. -/
theorem withNumber_ne_of_notMem {k : String} (hk : '_' ∉ k.toList) (base : String) (n : Nat) :
    withNumber base n ≠ k := by
  rintro rfl
  refine hk ?_
  rw [withNumber, String.toList_append, String.toList_append]
  exact List.mem_append_left _ (List.mem_append_right _ (List.mem_singleton_self _))

/-- Such a word is among new identifiers if and only if it is wanted. -/
theorem mem_freshAll?_iff {used bases idents : List String} {k : String} (hk : '_' ∉ k.toList)
    (hused : k ∉ used) (h : freshAll? used bases = some idents) : k ∈ idents ↔ k ∈ bases := by
  induction bases generalizing used idents with
  | nil => rw [← Option.some.inj h]
  | cons base rest ih =>
    obtain ⟨first, given, hfirst, hgiven, rfl⟩ := freshAll?_cons_eq_some_iff.mp h
    by_cases hbase : k = base
    · -- nobody has asked for it before
      subst hbase
      obtain rfl := Option.some.inj (hfirst.symm.trans (fresh?_of_notMem hused))
      exact iff_of_true List.mem_cons_self List.mem_cons_self
    · have hne : k ≠ first := by
        obtain ⟨j, -, rfl, -⟩ := fresh?_eq_some_iff.mp hfirst
        cases j with
        | zero => exact hbase
        | succ j => exact (withNumber_ne_of_notMem hk base _).symm
      have hrest := ih (fun hmem => (List.mem_cons.mp hmem).elim hne hused) hgiven
      rw [List.mem_cons, List.mem_cons, hrest]
      exact or_congr (iff_of_false hne hbase) Iff.rfl

theorem dropUnderscores_underscored_eq_nil_iff (pending : Bool) (cs : List Char) :
    dropUnderscores (underscored pending cs) = [] ↔ ∀ c ∈ cs, isWordChar c = false := by
  induction cs generalizing pending with
  | nil => simp [underscored, dropUnderscores]
  | cons c cs ih =>
    rw [List.forall_mem_cons]
    cases hword : isWordChar c with
    | true =>
      have hbar : c ≠ '_' := by
        rintro rfl
        cases hword
      simp [underscored, hword, dropUnderscores_cons, hbar]
    | false =>
      cases pending with
      | true => simp [underscored, hword, ih]
      | false => simp [underscored, hword, dropUnderscores_cons, ih]

/-- A word of letters and digits is what remains of a text if and only if the text begins with it
and goes on with other characters. -/
theorem dropUnderscores_underscored_eq_iff {k : List Char}
    (hk : ∀ c ∈ k, isWordChar c = true) (cs : List Char) :
    dropUnderscores (underscored false cs) = k ↔
      ∃ rest, cs = k ++ rest ∧ ∀ c ∈ rest, isWordChar c = false := by
  induction k generalizing cs with
  | nil => simp [dropUnderscores_underscored_eq_nil_iff]
  | cons d k ih =>
    obtain ⟨hd, hk⟩ := List.forall_mem_cons.mp hk
    have hbar : d ≠ '_' := by
      rintro rfl
      cases hd
    cases cs with
    | nil => simp [underscored, dropUnderscores]
    | cons c cs =>
      cases hword : isWordChar c with
      | true =>
        have hc : c ≠ '_' := by
          rintro rfl
          cases hword
        simp [underscored, hword, dropUnderscores_cons, hc, ih hk, and_assoc]
      | false =>
        have hcd : c ≠ d := by
          rintro rfl
          rw [hd] at hword
          cases hword
        have hleft : dropUnderscores (underscored false (c :: cs)) ≠ d :: k := by
          simp only [underscored, hword, Bool.false_eq_true, if_false, dropUnderscores_cons]
          split
          · exact fun h => (by cases h)
          · exact fun h => hbar (List.cons.inj h).1.symm
        refine iff_of_false hleft ?_
        rintro ⟨rest, hrest, -⟩
        exact hcd (List.cons.inj hrest).1

/-- A keyword consists of letters. -/
theorem letters_of_mem_keywords {k : String} (hk : k ∈ keywords) :
    (∀ c ∈ k.toList, isWordChar c = true) ∧ '_' ∉ k.toList ∧
      ∃ c cs, k.toList = c :: cs ∧ c.isDigit = false := by
  have hall : keywords.all (fun k => k.toList.all Char.isAlpha &&
      k.toList.head?.any (!·.isDigit)) = true := by
    decide +kernel
  obtain ⟨halpha, hhead⟩ := Bool.and_eq_true_iff.mp (List.all_eq_true.mp hall k hk)
  have halpha : ∀ c ∈ k.toList, c.isAlpha = true := List.all_eq_true.mp halpha
  refine ⟨fun c hc => isWordChar_iff.mpr (.inl (Bool.or_eq_true_iff.mp (halpha c hc))),
    fun hbar => absurd (halpha '_' hbar) (by decide), ?_⟩
  obtain ⟨c, hc, hdigit⟩ := (Option.any_eq_true _ _).mp hhead
  obtain ⟨cs, hcs⟩ := List.head?_eq_some_iff.mp hc
  exact ⟨c, cs, hcs, by simpa using hdigit⟩

/-- Repairing an identifier makes no keyword and takes away only one. -/
theorem repair_eq_keyword_iff {k s : String} (hk : k ∈ keywords) :
    repair "_" s = k ↔ s = k ∧ k ≠ "Self" := by
  obtain ⟨-, hbar, d, ds, hds, hdigit⟩ := letters_of_mem_keywords hk
  unfold repair
  split
  · next hnil =>
    have hunnamed : "Unnamed" ∉ keywords := by decide
    refine iff_of_false (fun h => hunnamed (h ▸ hk)) fun h => ?_
    rw [h.1, hds] at hnil
    cases hnil
  · next c cs hcs =>
    split
    · next hc =>
      refine iff_of_false (fun h => hbar ?_) fun h => ?_
      · rw [← h, String.toList_append]
        exact List.mem_append_left _ (List.mem_singleton_self _)
      · rw [h.1, hds] at hcs
        rw [← (List.cons.inj hcs).1, hdigit] at hc
        cases hc
    · split
      · next hself =>
        refine iff_of_false (fun h => hbar (h ▸ ?_)) fun h => h.2 (h.1.symm.trans hself)
        decide
      · next hself => exact ⟨fun h => ⟨h, h ▸ hself⟩, fun h => h.1⟩

/-- Whether a text is a word and, behind it, only characters that are no letters and no digits. -/
def Spells (name k : String) : Prop :=
  ∃ rest, trim name.toList = k.toList ++ rest ∧ ∀ c ∈ rest, isWordChar c = false

theorem objectIdent_eq_keyword_iff {k name : String} (hk : k ∈ keywords) :
    objectIdent name = k ↔ Spells name k ∧ k ≠ "Self" := by
  have hword := (letters_of_mem_keywords hk).1
  rw [objectIdent, repair_eq_keyword_iff hk, Spells,
    ← dropUnderscores_underscored_eq_iff hword (trim name.toList)]
  refine and_congr_left fun _ => ⟨fun h => ?_, fun h => ?_⟩
  · rw [← h, String.toList_ofList]
  · rw [h, String.ofList_toList]

/-- **Which identifiers in bindings are valid.** All of them have the form of identifiers. Those of
fields are never reserved. A keyword is among those of the objects if and only if an object has a
name that spells it, `Self` apart. -/
theorem idents_valid_unless_keyword (d : Dictionary) :
    (∀ idents ∈ objectIdents? d,
      (∀ ident ∈ idents, IsIdentifier ident) ∧
      ∀ k ∈ keywords, k ∈ idents ↔ k ≠ "Self" ∧ ∃ o ∈ d.objects, Spells o.name k) ∧
    ∀ f : Field, IsIdentifier (fieldIdent f) ∧ fieldIdent f ∉ keywords := by
  refine ⟨fun idents hidents => ⟨fun ident => isIdentifier_of_mem_objectIdents? hidents,
    fun k hk => ?_⟩, isIdentifier_fieldIdent⟩
  obtain ⟨-, hbar, -⟩ := letters_of_mem_keywords hk
  rw [mem_freshAll?_iff hbar List.not_mem_nil hidents, List.mem_map]
  constructor
  · rintro ⟨o, ho, hident⟩
    obtain ⟨hspells, hself⟩ := (objectIdent_eq_keyword_iff hk).mp hident
    exact ⟨hself, o, ho, hspells⟩
  · rintro ⟨hself, o, ho, hspells⟩
    exact ⟨o, ho, (objectIdent_eq_keyword_iff hk).mpr ⟨hspells, hself⟩⟩

/-- Nothing is found wrong with an object that is called `type`, and that is also the identifier it
gets. -/
theorem type_kept_as_identifier :
    let outcome := Outcome.ofText {} none "type;\n"
    outcome.diagnostics = [] ∧ (render? {} outcome.dictionary).isSome = true ∧
      objectIdents? outcome.dictionary = some ["type"] ∧
      ¬ ∀ idents ∈ objectIdents? outcome.dictionary, ∀ ident ∈ idents, ident ∉ keywords := by
  decide +kernel

end Bindings

end DataDictionary
