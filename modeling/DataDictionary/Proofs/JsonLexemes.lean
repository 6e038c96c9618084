import DataDictionary.Json.Printer
import DataDictionary.Json.Reader
import DataDictionary.Proofs.Decimals

/-!
# Reading written numbers and strings

A number that is well formed is read back as it was written, and so is a text. Each reader stops
exactly where its writer stopped, whatever comes next, except that a number must not be followed by
something that could go on with it. A character that is written as a number of its own is none of
the surrogates, so it stands for itself whatever is next to it.
-/

namespace DataDictionary

namespace Json

open Text

/-! ## Numbers -/

/-- Whether a character could go on with a number. -/
def continuesNumber (c : Char) : Bool := c.isDigit || c == '.' || c == 'e' || c == 'E'

/-- What may stand behind a number. -/
def EndsNumber (rest : List Char) : Prop := ∀ c ∈ rest.head?, continuesNumber c = false

theorem endsNumber_nil : EndsNumber [] := by
  intro c h
  cases h

theorem endsNumber_cons {c : Char} (h : continuesNumber c = false) (rest : List Char) :
    EndsNumber (c :: rest) := by
  intro d hd
  cases hd
  exact h

/-- A run of digits ends where something else begins. -/
theorem span_digits {ds rest : List Char} (hds : ∀ c ∈ ds, c.isDigit = true)
    (hrest : ∀ c ∈ rest.head?, c.isDigit = false) :
    (ds ++ rest).takeWhile Char.isDigit = ds ∧ (ds ++ rest).dropWhile Char.isDigit = rest := by
  have hnone : rest.takeWhile Char.isDigit = [] ∧ rest.dropWhile Char.isDigit = rest := by
    cases rest with
    | nil => exact ⟨rfl, rfl⟩
    | cons c rest =>
      have hc : ¬ c.isDigit = true := by simp [hrest c rfl]
      exact ⟨List.takeWhile_cons_of_neg hc, List.dropWhile_cons_of_neg hc⟩
  rw [List.takeWhile_append_of_pos hds, List.dropWhile_append_of_pos hds, hnone.1, hnone.2]
  exact ⟨List.append_nil ds, rfl⟩

theorem readWhole?_append {ds rest : List Char} (h : IsWhole ds)
    (hrest : ∀ c ∈ rest.head?, c.isDigit = false) : readWhole? (ds ++ rest) = some (ds, rest) := by
  rcases h with rfl | ⟨⟨c, cs, rfl, hc⟩, hds⟩
  · have hany : rest.head?.any Char.isDigit = false := by
      cases hhead : rest.head? with
      | none => rfl
      | some c => exact hrest c hhead
    rw [List.singleton_append, readWhole?, hany]
    rfl
  · obtain ⟨htake, hdrop⟩ := span_digits hds hrest
    rw [List.cons_append] at htake hdrop ⊢
    rw [readWhole?, htake, hdrop]
    simpa using hc

/-- A point and the digits behind it, if there are any. -/
def fractionText (ds : List Char) : List Char := if ds = [] then [] else '.' :: ds

theorem readFraction?_append {ds rest : List Char} (hds : ∀ c ∈ ds, c.isDigit = true)
    (hrest : ∀ c ∈ rest.head?, c.isDigit = false ∧ c ≠ '.') :
    readFraction? (fractionText ds ++ rest) = some (ds, rest) := by
  cases ds with
  | nil =>
    cases rest with
    | nil => rfl
    | cons c rest =>
      have hc : c ≠ '.' := (hrest c rfl).2
      show readFraction? (c :: rest) = _
      rw [readFraction?]
      simpa using hc
  | cons d ds =>
    obtain ⟨htake, hdrop⟩ := span_digits hds fun c hc => (hrest c hc).1
    show readFraction? ('.' :: (d :: ds ++ rest)) = _
    rw [readFraction?, htake, hdrop]

theorem readExponentDigits?_append (negative : Bool) (n : Nat) {rest : List Char}
    (hrest : ∀ c ∈ rest.head?, c.isDigit = false) :
    readExponentDigits? negative (digits n ++ rest) =
      some (some (if negative then -(n : Int) else n), rest) := by
  obtain ⟨htake, hdrop⟩ := span_digits (fun _ => isDigit_of_mem_digits (n := n)) hrest
  unfold readExponentDigits?
  rw [htake, hdrop]
  split
  · next hnil => exact absurd hnil (isWhole_digits n).ne_nil
  · rw [numeral_digits]

/-- An exponent, if there is one. -/
def exponentText (e : Option Int) : List Char := (e.map Numeral.renderExponent).getD []

theorem readExponent?_append (e : Option Int) {rest : List Char} (h : EndsNumber rest) :
    readExponent? (exponentText e ++ rest) = some (e, rest) := by
  cases e with
  | none =>
    cases rest with
    | nil => rfl
    | cons c rest =>
      have hc := h c rfl
      have hletter : ¬ (c = 'e' ∨ c = 'E') := by
        rintro (rfl | rfl) <;> exact absurd hc (by decide)
      show readExponent? (c :: rest) = _
      unfold readExponent?
      exact if_neg hletter
  | some e =>
    have hdigit : ∀ c ∈ rest.head?, c.isDigit = false := fun c hc => by
      have hcont := h c hc
      simp only [continuesNumber, Bool.or_eq_false_iff] at hcont
      exact hcont.1.1.1
    show readExponent? ('e' :: (if e < 0 then '-' else '+') :: (digits e.natAbs ++ rest)) = _
    unfold readExponent?
    dsimp only
    rw [if_pos (.inl rfl)]
    by_cases hneg : e < 0
    · have habs : -(e.natAbs : Int) = e := by omega
      rw [if_pos hneg]
      show readExponentDigits? true (digits e.natAbs ++ rest) = _
      rw [readExponentDigits?_append true _ hdigit, if_pos rfl, habs]
    · have habs : (e.natAbs : Int) = e := by omega
      rw [if_neg hneg]
      show readExponentDigits? false (digits e.natAbs ++ rest) = _
      rw [readExponentDigits?_append false _ hdigit, if_neg Bool.false_ne_true, habs]

theorem render_eq (n : Numeral) :
    n.render = (if n.negative then ['-'] else []) ++
      (n.whole ++ (fractionText n.fraction ++ exponentText n.exponent)) := by
  simp only [Numeral.render, fractionText, exponentText, List.append_assoc]

theorem readUnsigned?_append {n : Numeral} (h : n.IsProper) {rest : List Char}
    (hrest : EndsNumber rest) :
    readUnsigned? n.negative
      (n.whole ++ (fractionText n.fraction ++ (exponentText n.exponent ++ rest))) =
      some (n, rest) := by
  have hcont : ∀ c, continuesNumber c = false → c.isDigit = false ∧ c ≠ '.' := by
    intro c hc
    simp only [continuesNumber, Bool.or_eq_false_iff, beq_eq_false_iff_ne] at hc
    exact ⟨hc.1.1.1, hc.1.1.2⟩
  -- what comes behind the digits of the fraction, and behind those in front of the point
  have hexponent : ∀ c ∈ (exponentText n.exponent ++ rest).head?, c.isDigit = false ∧ c ≠ '.' := by
    intro c hc
    cases he : n.exponent with
    | none =>
      rw [he] at hc
      exact hcont c (hrest c hc)
    | some e =>
      rw [he] at hc
      cases hc
      exact ⟨rfl, by decide⟩
  have hfraction : ∀ c ∈ (fractionText n.fraction ++ (exponentText n.exponent ++ rest)).head?,
      c.isDigit = false := by
    intro c hc
    cases hf : n.fraction with
    | nil =>
      rw [hf] at hc
      exact (hexponent c hc).1
    | cons d ds =>
      rw [hf] at hc
      cases hc
      rfl
  unfold readUnsigned?
  rw [readWhole?_append h.whole hfraction]
  simp only [Option.bind_eq_bind, Option.bind_some]
  rw [readFraction?_append h.fraction hexponent]
  simp only [Option.bind_some]
  rw [readExponent?_append n.exponent hrest]
  rfl

/-- **A well-formed numeral is read back.** -/
theorem readNumber?_render {n : Numeral} (h : n.IsProper) {rest : List Char}
    (hrest : EndsNumber rest) : readNumber? (n.render ++ rest) = some (n, rest) := by
  have hunsigned := readUnsigned?_append h hrest
  obtain ⟨c, cs, hwhole, hc⟩ := h.whole.head_isDigit
  rw [render_eq]
  simp only [List.append_assoc]
  cases hneg : n.negative with
  | true =>
    rw [hneg] at hunsigned
    exact hunsigned
  | false =>
    -- without a sign the number begins with a digit
    have hsign : c ≠ '-' := by
      rintro rfl
      cases hc
    rw [hneg, hwhole] at hunsigned
    rw [hwhole, if_neg Bool.false_ne_true, List.nil_append]
    unfold readNumber?
    split
    · next heq => cases heq; exact absurd rfl hsign
    · exact hunsigned

/-! ## Strings -/

theorem hexValue4?_fourHex {n : Nat} (h : n < 32) :
    hexValue4? '0' '0' (hexDigit (n / 16)) (hexDigit (n % 16)) = some n := by
  revert n
  decide

theorem readParts?_short {e c : Char} (h : shortEscape? e = some c) (rest : List Char) :
    readParts? ('\\' :: e :: rest) = (readParts? rest).map fun r => (.char c :: r.1, r.2) := by
  have hu : e ≠ 'u' := by
    rintro rfl
    cases h
  rw [readParts?]
  · rw [h]
    cases readParts? rest <;> rfl
  · rintro _ _ _ _ _ rfl
    exact fun _ => absurd rfl hu

theorem readParts?_plain {c : Char} (hquote : c ≠ '"') (hslash : c ≠ '\\')
    (hcontrol : ¬ c.toNat < 32) (rest : List Char) :
    readParts? (c :: rest) = (readParts? rest).map fun r => (.char c :: r.1, r.2) := by
  have hplain : ¬ (c = '\\' ∨ c.toNat < 32) := by simp [hslash, hcontrol]
  rw [readParts?, if_neg hplain]
  · cases readParts? rest <;> rfl
  · exact hquote
  · exact fun _ _ _ _ _ h _ => hslash h
  · exact fun _ _ h _ => hslash h

theorem joinParts?_unit {n : Nat} (h : n < 32) (parts : List StringPart) :
    joinParts? (.unit n :: parts) = (joinParts? parts).map (Char.ofNat n :: ·) := by
  have hleading : isLeading n = false := by
    simp only [isLeading, Bool.and_eq_false_iff, decide_eq_false_iff_not]
    omega
  have htrailing : isTrailing n = false := by
    simp only [isTrailing, Bool.and_eq_false_iff, decide_eq_false_iff_not]
    omega
  cases parts with
  | nil => simp [joinParts?, hleading, htrailing]
  | cons part parts => cases part <;> simp [joinParts?, hleading, htrailing]

/-- A part that is read where `written` stands, and stands for `c`. -/
def IsRead (written : List Char) (c : Char) (part : StringPart) : Prop :=
  (∀ rest, readParts? (written ++ rest) = (readParts? rest).map fun r => (part :: r.1, r.2)) ∧
    ∀ parts, joinParts? (part :: parts) = (joinParts? parts).map (c :: ·)

theorem isRead_short {e c : Char} (h : shortEscape? e = some c) : IsRead ['\\', e] c (.char c) :=
  ⟨readParts?_short h, fun _ => rfl⟩

theorem isRead_numbered {c : Char} (h : c.toNat < 32) :
    IsRead ('\\' :: 'u' :: fourHex c.toNat) c (.unit c.toNat) := by
  refine ⟨fun rest => ?_, fun parts => ?_⟩
  · show readParts? ('\\' :: 'u' :: '0' :: '0' :: hexDigit (c.toNat / 16) ::
      hexDigit (c.toNat % 16) :: rest) = _
    rw [readParts?, hexValue4?_fourHex h]
    cases readParts? rest <;> rfl
  · rw [joinParts?_unit h, Char.ofNat_toNat]

/-- **A character that is written is read back.** -/
theorem exists_isRead (c : Char) : ∃ part, IsRead (escape c) c part := by
  unfold escape
  -- seven characters have a short escape; the rest have a number or stand for themselves
  split
  · next h => exact ⟨_, isRead_short (by rw [h]; rfl)⟩
  split
  · next h => exact ⟨_, isRead_short (by rw [h]; rfl)⟩
  split
  · next h => exact ⟨_, isRead_short (by rw [h]; rfl)⟩
  split
  · next h => exact ⟨_, isRead_short (by rw [h]; rfl)⟩
  split
  · next h => exact ⟨_, isRead_short (by rw [h]; rfl)⟩
  split
  · next h => exact ⟨_, isRead_short (by rw [h]; rfl)⟩
  split
  · next h => exact ⟨_, isRead_short (by rw [h]; rfl)⟩
  split
  · next h => exact ⟨_, isRead_numbered h⟩
  · next hquote hslash _ _ _ _ _ hcontrol =>
    exact ⟨.char c, readParts?_plain hquote hslash hcontrol, fun _ => rfl⟩

theorem readParts?_append (cs rest : List Char) :
    ∃ parts, readParts? (cs.flatMap escape ++ '"' :: rest) = some (parts, rest) ∧
      joinParts? parts = some cs := by
  induction cs with
  | nil => exact ⟨[], by rw [List.flatMap_nil, List.nil_append, readParts?], rfl⟩
  | cons c cs ih =>
    obtain ⟨parts, hparts, hjoin⟩ := ih
    obtain ⟨part, hread, hstands⟩ := exists_isRead c
    refine ⟨part :: parts, ?_, ?_⟩
    · rw [List.flatMap_cons, List.append_assoc, hread, hparts]
      rfl
    · rw [hstands, hjoin]
      rfl

/-- **A text is read back up to its closing quote.** -/
theorem readString?_append (s : String) (rest : List Char) :
    readString? (s.toList.flatMap escape ++ '"' :: rest) = some (some s, rest) := by
  obtain ⟨parts, hparts, hjoin⟩ := readParts?_append s.toList rest
  rw [readString?, hparts, Option.map_some]
  dsimp only
  rw [hjoin, Option.map_some, String.ofList_toList]

end Json

end DataDictionary
