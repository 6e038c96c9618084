import DataDictionary.Proofs.Below

/-!
# A group begins afresh

A `\group` ends the object before it and whatever inclusion was still taking removals. Of all that
was read before, the reader keeps nothing but the items and the lookup keys of the objects among
them. It is then where it would be at the top of a source, below those items; and from there on it
reads as it would have read by itself.
-/

namespace DataDictionary

/-- The name of the group that a token begins, if it is such a directive. -/
def Token.group? (t : Token) : Option String :=
  match t.body with
  | .directive text _ =>
    match Directive.classify? .file text with
    | some ⟨.file .group, name⟩ => some name
    | _ => none
  | _ => none

/-- **What a group does wherever it stands.** -/
theorem State.step_group {t : Token} {name : String} (h : t.group? = some name) (s : State) :
    s.step t =
      ({ s.endObject.1 with
         group := some name
         items := s.endObject.1.items ++ [.group name]
         includeOpen := false }, s.endObject.2) := by
  unfold Token.group? at h
  split at h
  · next text ending hbody =>
    split at h
    · next hc =>
      cases h
      rw [step_of_directive hbody, onDirective_of_file (Directive.classify?_of_file hc s.scope)]
      have hnone : (s.onFileDirective .group name t.line).1.current = none := endObject_current s
      rw [closeIf_of_none hnone]
      rfl
    · cases h
  · cases h

namespace State

variable {ts us : List Token} {t : Token} {name : String} {n : Nat}

/-- Whatever came before a group, below it there is a reader that has read the group alone. -/
theorem step_group_below (h : t.group? = some name) (s : State) :
    s.step (t.shift n) = (below s.endObject.1 n (step {} t).1, s.endObject.2) := by
  have hshift : (t.shift n).group? = some name := h
  have hbelow : below s.endObject.1 n
      { group := some name, items := [.group name], includeOpen := false } =
      { s.endObject.1 with
        group := some name
        items := s.endObject.1.items ++ [.group name]
        includeOpen := false } := by
    simp [below, Item.shift]
  rw [step_group hshift, step_group h, endObject_of_none (s := {}) rfl]
  dsimp only
  rw [← hbelow]
  rfl

/-- **Reading on at a group.** -/
theorem run_append_group (h : t.group? = some name)
    (hfresh : FreshTo (run {} ts).1.endObject.1 (run {} (t :: us)).1) :
    run {} (ts ++ (t :: us).map (Token.shift n)) =
      (below (run {} ts).1.endObject.1 n (run {} (t :: us)).1,
       (run {} ts).2 ++ (run {} ts).1.endObject.2 ++
         (run {} (t :: us)).2.map (Finding.shift n)) := by
  have hfound : (step {} t).2 = [] := by rw [step_group h]; rfl
  have hitems : (step {} t).1.items ≠ [] := by rw [step_group h]; exact List.cons_ne_nil _ _
  rw [run_append, List.map_cons, run_cons, step_group_below h]
  dsimp only
  rw [run_below hitems hfresh, carry, run_cons {} t, hfound]
  simp

end State

open State

/-- What is read from a group on, whatever tokens stand above it. -/
theorem readTokens_append_group {ts us : List Token} {t : Token} {name : String} {n : Nat}
    (h : t.group? = some name)
    (hfresh : FreshTo (run {} ts).1.endObject.1 (run {} (t :: us)).1.endObject.1) :
    readTokens (ts ++ (t :: us).map (Token.shift n)) =
      ((readTokens ts).1 ++ (readTokens (t :: us)).1.map (Item.shift n),
       (readTokens ts).2 ++ (readTokens (t :: us)).2.map (Finding.shift n)) := by
  have hrun : FreshTo (run {} ts).1.endObject.1 (run {} (t :: us)).1 :=
    hfresh.of_subset (Move.finish (t := t) _).keys_subset
  unfold readTokens
  rw [run_append_group h hrun]
  dsimp only
  rw [endObject_below hfresh, carry, List.map_append, List.append_assoc]
  rfl

/-- The lookup keys at the end of a source are those of its objects. -/
theorem keys_endObject_run (text : String) :
    (run {} (Token.seen (Token.ofText text))).1.endObject.1.keys =
      (Source.ofText text).objects.map fun o => Text.lookupKey o.name := by
  rw [run_seen]
  exact (registered_run (Token.ofText text)).endObject.keys_eq

/-- **Reading starts afresh at a group.** Below any text, a text whose first token is a `\group` is
read as it is by itself, with all lines further down, unless an object of the one has the name of an
object of the other. -/
theorem Source.ofText_append_group {a b : String} {t : Token} {name : String}
    (hfirst : (Token.ofText b).find? (!·.isComment) = some t) (hgroup : t.group? = some name)
    (hnames : ∀ o ∈ (ofText a).objects, ∀ p ∈ (ofText b).objects,
      Text.lookupKey o.name ≠ Text.lookupKey p.name) :
    let n := 1 + a.toList.count '\n'
    (ofText (a ++ "\n" ++ b)).items = (ofText a).items ++ (ofText b).items.map (Item.shift n) ∧
    (ofText (a ++ "\n" ++ b)).findings =
      (ofText a).findings ++ (ofText b).findings.map (Finding.shift n) := by
  intro n
  -- the group is what the reader sees first of the lower text
  obtain ⟨us, hus⟩ : ∃ us, Token.seen (Token.ofText b) = { t with comment := none } :: us := by
    rw [← List.head?_filter] at hfirst
    obtain ⟨rest, hrest⟩ := List.head?_eq_some_iff.mp hfirst
    exact ⟨_, by rw [Token.seen, hrest]; rfl⟩
  have hfresh : FreshTo (run {} (Token.seen (Token.ofText a))).1.endObject.1
      (run {} (Token.seen (Token.ofText b))).1.endObject.1 := by
    intro key hb ha
    rw [keys_endObject_run] at ha hb
    obtain ⟨o, ho, rfl⟩ := List.mem_map.mp ha
    obtain ⟨p, hp, hkey⟩ := List.mem_map.mp hb
    exact hnames o ho p hp hkey.symm
  have hread : readTokens (Token.ofText (a ++ "\n" ++ b)) =
      ((readTokens (Token.ofText a)).1 ++ (readTokens (Token.ofText b)).1.map (Item.shift n),
       (readTokens (Token.ofText a)).2 ++
         (readTokens (Token.ofText b)).2.map (Finding.shift n)) := by
    rw [← readTokens_seen, ← readTokens_seen (Token.ofText a),
      ← readTokens_seen (Token.ofText b), Token.seen_ofText_append]
    rw [hus] at hfresh ⊢
    exact readTokens_append_group hgroup hfresh
  exact ⟨congrArg Prod.fst hread, congrArg Prod.snd hread⟩

/-- Neither the open object above the group nor the inclusion reaches below it. -/
theorem Source.walls_below_zone :
    let a := "Roof;\n\\include-file lib.idd\nZone, A1, \\minimum 1\r"
    let b := "! walls\n\\group Walls\nWall;\n\\remove-object Zone"
    (ofText (a ++ "\n" ++ b)).items =
      [.object { name := "Roof" } 1, .inclusion { source := "lib.idd", line := 2 },
       .group "Walls", .object { name := "Wall", group := some "Walls" } 6] ∧
    (ofText (a ++ "\n" ++ b)).findings =
      [⟨3, .unterminated "Zone"⟩, ⟨7, .looseRemoval "Zone"⟩] := by
  intro a b
  have hfirst : (Token.ofText b).find? (!·.isComment) =
      some ⟨.directive "group Walls" none, 2, none⟩ := by decide +kernel
  have hgroup : Token.group? ⟨.directive "group Walls" none, 2, none⟩ = some "Walls" := by
    decide +kernel
  have hnames : ∀ o ∈ (ofText a).objects, ∀ p ∈ (ofText b).objects,
      Text.lookupKey o.name ≠ Text.lookupKey p.name := by decide +kernel
  obtain ⟨hitems, hfindings⟩ := ofText_append_group (a := a) hfirst hgroup hnames
  rw [hitems, hfindings]
  decide +kernel

end DataDictionary
