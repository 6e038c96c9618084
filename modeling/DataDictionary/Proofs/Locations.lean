import DataDictionary.Proofs.Contributions
import DataDictionary.Proofs.Landmarks
import DataDictionary.Proofs.Outcomes

/-!
# Where diagnostics point to

A diagnostic may be raised long after its line was read: what is wrong with a field is found out
when the field is finished, what is wrong with an object when the object ends or when the dictionary
is assembled, and what is wrong with an inclusion when it is merged in. All of them go by lines that
were noted down earlier, so the lines that are noted down have to be watched: those of the object
and of the field that are open, those of the items, and those of the findings (`State.Placed`).
Every one of them is the line of the token in hand when it is noted down, and a token that makes a
difference is no comment.

The source of a diagnostic is the label of the source in hand. While an included source is read, and
while its objects are checked later, that is the name it was loaded by. That name is never the label
of the outermost source, since this would have been a cycle; so a diagnostic always tells which text
its line belongs to (`Outcome.diagnostics_located`).
-/

namespace DataDictionary

open Text

/-- Whether a line of a text, counted from one, carries content or a directive. -/
def HasCodeOn (text : String) (line : Nat) : Prop :=
  ∃ l, 0 < line ∧ (lines text.toList)[line - 1]? = some l ∧
    ∃ t ∈ Token.ofLine l line, t.isComment = false

namespace Token

/-- A token knows the number of its line. -/
theorem line_of_mem_ofLine {l : List Char} {n : Nat} {t : Token} (h : t ∈ ofLine l n) :
    t.line = n :=
  (ofLine_mem_cases h).1

theorem exists_line_of_mem_ofLines {n : Nat} {ls : List (List Char)} {t : Token}
    (h : t ∈ ofLines n ls) : ∃ i l, ls[i]? = some l ∧ t.line = n + i ∧ t ∈ ofLine l t.line := by
  induction ls generalizing n with
  | nil => cases h
  | cons l ls ih =>
    rw [ofLines] at h
    rcases List.mem_append.mp h with h | h
    · have hline := line_of_mem_ofLine h
      rw [← hline] at h
      exact ⟨0, l, rfl, hline, h⟩
    · obtain ⟨i, l', hl', hline, hmem⟩ := ih h
      exact ⟨i + 1, l', hl', by omega, hmem⟩

theorem hasCodeOn_of_mem {text : String} {t : Token} (h : t ∈ ofText text)
    (hcode : t.isComment = false) : HasCodeOn text t.line := by
  obtain ⟨i, l, hl, hline, hmem⟩ := exists_line_of_mem_ofLines h
  have hindex : t.line - 1 = i := by omega
  exact ⟨l, by omega, hindex ▸ hl, t, hmem, hcode⟩

end Token

/-! ## Lines that the reader notes down -/

/-- The line that an item was declared on. Groups are not reported on and have none. -/
def Item.line? : Item → Option Nat
  | .object _ line => some line
  | .inclusion d => some d.line
  | .group _ => none

/-- The lines of an open object are of the kind `P`. -/
structure OpenObject.Placed (P : Nat → Prop) (o : OpenObject) : Prop where
  line : P o.line
  field : ∀ f, o.field = some f → P f.line

/-- The lines that a reader has noted down are of the kind `P`. -/
structure State.Placed (P : Nat → Prop) (s : State) : Prop where
  current : ∀ o, s.current = some o → o.Placed P
  items : ∀ item ∈ s.items, ∀ line ∈ item.line?, P line

variable {P : Nat → Prop} {t : Token}

/-- No directive moves a field. -/
theorem OpenField.line_of_apply {f f' : OpenField} {k : FieldKeyword} {argument : String}
    {problems : List Problem} (h : f.apply k argument = .ok (f', problems)) : f'.line = f.line := by
  have hset : ∀ {side form}, f.setBound side form argument = .ok (f', problems) →
      f'.line = f.line := by
    intro side form hset
    unfold setBound at hset
    split at hset
    · cases hset
    · dsimp only at hset
      split at hset
      · cases hset
        cases side <;> rfl
      · cases hset
        cases side <;> rfl
  cases k with
  | minimumExclusive | minimumInclusive | maximumExclusive | maximumInclusive => exact hset h
  | key =>
    cases hkey : f.field.hasKey argument with
    | true =>
      simp only [apply, addKey, hkey, if_true] at h
      cases h
      rfl
    | false =>
      simp only [apply, addKey, hkey, Bool.false_eq_true, if_false] at h
      cases h
      rfl
  | _ =>
    cases h
    rfl

namespace OpenObject

variable {o o' : OpenObject} {found : List Finding}

/-- What is found when a field is finished is reported at its marker. -/
theorem Placed.finishField (h : o.Placed P) :
    o.finishField.1.Placed P ∧ ∀ f ∈ o.finishField.2, P f.line := by
  cases hfield : o.field with
  | none =>
    rw [OpenObject.finishField, hfield]
    exact ⟨h, fun f hf => absurd hf List.not_mem_nil⟩
  | some f =>
    rw [OpenObject.finishField, hfield]
    refine ⟨⟨h.line, fun g hg => (by cases hg)⟩, fun x hx => ?_⟩
    obtain ⟨p, -, rfl⟩ := List.mem_map.mp hx
    exact h.field f hfield

/-- **An edit notes down and reports the line of its token, or lines that were noted down.** -/
theorem Placed.edit (h : o.Placed P) (ht : P t.line) (hedit : o.Edit t o' found) :
    o'.Placed P ∧ ∀ f ∈ found, P f.line := by
  have hhere : ∀ problems : List Problem, ∀ f ∈ problems.map (Finding.mk t.line), P f.line := by
    intro problems f hf
    obtain ⟨p, -, rfl⟩ := List.mem_map.mp hf
    exact ht
  cases hedit with
  | close _ ending => exact ⟨⟨h.line, h.field⟩, fun f hf => absurd hf List.not_mem_nil⟩
  | openField _ _ _ =>
    obtain ⟨hfinished, hfound⟩ := h.finishField
    refine ⟨⟨hfinished.line, fun f hf => ?_⟩, hfound⟩
    cases hf
    exact ht
  | header _ _ _ _ =>
    obtain ⟨-, -, hline, hfield, -, -⟩ := o.apply_frame _ _
    refine ⟨⟨hline ▸ h.line, fun f hf => h.field f (hfield ▸ hf)⟩, hhere _⟩
  | @field _ argument _ k f _ _ hsome _ =>
    unfold applyToField
    cases happly : f.apply k argument with
    | error p => exact ⟨⟨h.line, h.field⟩, hhere [p]⟩
    | ok out =>
      refine ⟨⟨h.line, fun g hg => ?_⟩, hhere out.2⟩
      cases hg
      rw [OpenField.line_of_apply happly]
      exact h.field f hsome

end OpenObject

namespace State

variable {s s' : State} {found : List Finding}

theorem placed_init : ({} : State).Placed P where
  current := by intro o h; cases h
  items := by intro item h; cases h

/-- An item that is declared on a line of the kind `P` may be added. -/
theorem Placed.items_concat {item : Item} (h : s.Placed P) (hitem : ∀ line ∈ item.line?, P line) :
    ∀ other ∈ s.items ++ [item], ∀ line ∈ other.line?, P line := by
  intro other hother line hline
  rcases List.mem_append.mp hother with hother | hother
  · exact h.items other hother line hline
  · rw [List.mem_singleton.mp hother] at hline
    exact hitem line hline

/-- An object is kept on its line, and if it is not kept it is reported there. -/
theorem Placed.keep {o : OpenObject} (h : s.Placed P) (ho : P o.line) :
    (s.keep o).1.Placed P ∧ ∀ f ∈ (s.keep o).2, P f.line := by
  have hreport : ∀ p, ∀ f ∈ [(⟨o.line, p⟩ : Finding)], P f.line := by
    intro p f hf
    rw [List.mem_singleton.mp hf]
    exact ho
  rcases keep_cases s o with ⟨-, hk⟩ | ⟨-, -, hk⟩ | ⟨-, -, -, hk⟩ | ⟨-, -, -, hk⟩
  · rw [hk]
    exact ⟨h, hreport _⟩
  · rw [hk]
    exact ⟨h, fun f hf => absurd hf List.not_mem_nil⟩
  · rw [hk]
    exact ⟨h, hreport _⟩
  · rw [hk]
    refine ⟨⟨h.current, h.items_concat fun line hline => ?_⟩, fun f hf => absurd hf List.not_mem_nil⟩
    cases hline
    exact ho

theorem Placed.endObject (h : s.Placed P) :
    s.endObject.1.Placed P ∧ ∀ f ∈ s.endObject.2, P f.line := by
  cases hcur : s.current with
  | none =>
    rw [endObject_of_none hcur]
    exact ⟨h, fun f hf => absurd hf List.not_mem_nil⟩
  | some o =>
    obtain ⟨hfinished, hfound⟩ := (h.current o hcur).finishField
    have hrest : ({ s with current := none } : State).Placed P :=
      ⟨fun o ho => (by cases ho), h.items⟩
    obtain ⟨hkept, hreported⟩ := hrest.keep hfinished.line
    rw [endObject_of_some hcur]
    exact ⟨hkept, fun f hf => (List.mem_append.mp hf).elim (hfound f) (hreported f)⟩

/-- **Every move keeps the lines of a reader, and what it finds is on one of them.** -/
theorem Placed.move (h : s.Placed P) (ht : P t.line) (hm : Move t s s' found) :
    s'.Placed P ∧ ∀ f ∈ found, P f.line := by
  cases hm with
  | remark _ _ =>
    refine ⟨h, fun f hf => ?_⟩
    rw [List.mem_singleton.mp hf]
    exact ht
  | start _ _ _ _ _ =>
    refine ⟨⟨fun o ho => ?_, h.items⟩, fun f hf => absurd hf List.not_mem_nil⟩
    cases ho
    exact ⟨ht, fun f hf => (by cases hf)⟩
  | finish _ => exact h.endObject
  | edit _ hcur hedit =>
    obtain ⟨hplaced, hfound⟩ := (h.current _ hcur).edit ht hedit
    refine ⟨⟨fun o ho => ?_, h.items⟩, hfound⟩
    cases ho
    exact hplaced
  | group _ name _ =>
    refine ⟨⟨h.current, h.items_concat fun line hline => ?_⟩, fun f hf => absurd hf List.not_mem_nil⟩
    cases hline
  | inclusion _ name _ =>
    refine ⟨⟨h.current, h.items_concat fun line hline => ?_⟩, fun f hf => absurd hf List.not_mem_nil⟩
    cases hline
    exact ht
  | removal _ name _ _ hitems =>
    -- the inclusion that takes the removal stays on its line
    refine ⟨⟨h.current, fun item hitem line hline => ?_⟩, fun f hf => absurd hf List.not_mem_nil⟩
    obtain ⟨before, d, hbefore, rfl⟩ := removeFromLast_eq_some hitems
    rcases List.mem_append.mp hitem with hitem | hitem
    · exact h.items item (hbefore ▸ List.mem_append_left _ hitem) line hline
    · rw [List.mem_singleton.mp hitem] at hline
      exact h.items (.inclusion d) (hbefore ▸ List.mem_append_right _ List.mem_cons_self) line hline

theorem Placed.moves (h : s.Placed P) (ht : P t.line) (hm : Moves t s s' found) :
    s'.Placed P ∧ ∀ f ∈ found, P f.line := by
  induction hm with
  | rest s => exact ⟨h, fun f hf => absurd hf List.not_mem_nil⟩
  | cons hfirst _ ih =>
    obtain ⟨hplaced, hfound⟩ := h.move ht hfirst
    obtain ⟨hlast, hmore⟩ := ih hplaced
    exact ⟨hlast, fun f hf => (List.mem_append.mp hf).elim (hfound f) (hmore f)⟩

/-- **A reader reports on lines of the tokens that it has read.** -/
theorem Placed.run {ts : List Token} (h : s.Placed P) (hts : ∀ t ∈ ts, P t.line) :
    (s.run ts).1.Placed P ∧ ∀ f ∈ (s.run ts).2, P f.line := by
  induction ts generalizing s with
  | nil => exact ⟨h, fun f hf => absurd hf List.not_mem_nil⟩
  | cons t ts ih =>
    obtain ⟨hplaced, hfound⟩ := h.moves (hts t List.mem_cons_self) (moves_step t s)
    obtain ⟨hlast, hmore⟩ := ih hplaced fun u hu => hts u (List.mem_cons_of_mem _ hu)
    rw [run_cons]
    exact ⟨hlast, fun f hf => (List.mem_append.mp hf).elim (hfound f) (hmore f)⟩

end State

/-- **Items and findings of a source are on lines with code.** -/
theorem Source.placed (text : String) :
    (∀ item ∈ (ofText text).items, ∀ line ∈ item.line?, HasCodeOn text line) ∧
      ∀ f ∈ (ofText text).findings, HasCodeOn text f.line := by
  let ts := (Token.ofText text).filter (!·.isComment)
  have hcode : ∀ t ∈ ts, HasCodeOn text t.line := by
    intro t ht
    obtain ⟨hmem, hcomment⟩ := List.mem_filter.mp ht
    exact Token.hasCodeOn_of_mem hmem (by simpa using hcomment)
  obtain ⟨hrun, hfound⟩ := State.placed_init.run hcode
  obtain ⟨hend, hlast⟩ := hrun.endObject
  -- comments say nothing, so the reader gets as far without them
  have hsame : State.run {} (Token.ofText text) = State.run {} ts :=
    (State.run_filter_comments {} (Token.ofText text)).symm
  rw [← hsame] at hfound hend hlast
  exact ⟨hend.items, fun f hf => (List.mem_append.mp hf).elim (hfound f) (hlast f)⟩

/-! ## Sources and their names -/

namespace Resolver

/-- The sources that are read in reading a text at the end of a chain, by the names under which they
are included: those that the text includes itself, and those that are included there. -/
inductive Includes (r : Resolver) : (chain : List String) → (text name origin : String) → Prop where
  | directly {chain : List String} {text origin : String} {d : Inclusion} :
      .inclusion d ∈ Landmark.ofText text → r.Follows chain d origin →
      Includes r chain text d.source origin
  | through {chain : List String} {text inner name origin : String} {d : Inclusion} :
      .inclusion d ∈ Landmark.ofText text → r.Follows chain d inner →
      Includes r (chain ++ [d.source]) inner name origin → Includes r chain text name origin

variable {r : Resolver} {chain : List String} {text name origin : String} {label : Option String}
  {loc : Location}

/-- Names that sources are included under are new to the chain, and the sources were loaded. -/
theorem Includes.loads (h : r.Includes chain text name origin) :
    name ∉ chain ∧ ∃ load, r.loader = some load ∧ load name = .ok origin := by
  induction h with
  | directly _ hfollows => exact ⟨hfollows.fresh, hfollows.loads⟩
  | through _ _ _ ih =>
    obtain ⟨hfresh, hloads⟩ := ih
    exact ⟨fun hmem => hfresh (List.mem_append_left _ hmem), hloads⟩

/-- A place in a text that goes by a label, or in a source that is read on account of it: its source
and a line there that carries code. -/
def IsPlace (r : Resolver) (label : Option String) (chain : List String) (text : String)
    (loc : Location) : Prop :=
  (loc.source = label ∧ HasCodeOn text loc.line) ∨
    ∃ name origin, r.Includes chain text name origin ∧ loc.source = some name ∧
      HasCodeOn origin loc.line

/-- A place in an included source is a place. -/
theorem IsPlace.of_followed {d : Inclusion} {inner : String}
    (h : r.IsPlace (some d.source) (chain ++ [d.source]) inner loc)
    (hd : .inclusion d ∈ Landmark.ofText text) (hfollows : r.Follows chain d inner) :
    r.IsPlace label chain text loc := by
  rcases h with ⟨hsource, hline⟩ | ⟨name, origin, hincludes, hsource, hline⟩
  · exact .inr ⟨d.source, inner, .directly hd hfollows, hsource, hline⟩
  · exact .inr ⟨name, origin, .through hd hfollows hincludes, hsource, hline⟩

/-- Definitions that are merged from a text, and what is reported in doing so, are at places. -/
structure HasPlaces (r : Resolver) (label : Option String) (chain : List String) (text : String)
    (definitions : List Definition) (diagnostics : Diagnostics) : Prop where
  defined : ∀ d ∈ definitions, r.IsPlace label chain text d.location
  reported : ∀ x ∈ diagnostics, r.IsPlace label chain text x.location

/-- **What an item contributes has its places.** The item reports at its own line or passes on what
was reported in an included source. -/
theorem HasPlaces.of_contributes {own taken : List String} {item : Item} {part : Contribution}
    (hcontributes : r.Contributes label chain own taken item part)
    (hline : ∀ line ∈ item.line?, HasCodeOn text line)
    (hlandmark : ∀ d, item = .inclusion d →
      .inclusion { d with removed := [] } ∈ Landmark.ofText text)
    (ih : ∀ d inner, r.Follows chain d inner →
      r.HasPlaces (some d.source) (chain ++ [d.source]) inner
        (r.included chain d inner).1.definitions (r.included chain d inner).2) :
    r.HasPlaces label chain text part.definitions part.diagnostics := by
  cases hcontributes with
  | object o line =>
    refine ⟨fun d hd => ?_, fun x hx => absurd hx List.not_mem_nil⟩
    rw [List.mem_singleton.mp hd]
    exact .inl ⟨rfl, hline line rfl⟩
  | group name =>
    exact ⟨fun d hd => absurd hd List.not_mem_nil, fun x hx => absurd hx List.not_mem_nil⟩
  | @refused d p hrefuses =>
    refine ⟨fun d hd => absurd hd List.not_mem_nil, fun x hx => ?_⟩
    rw [List.mem_singleton.mp hx]
    exact .inl ⟨rfl, hline d.line rfl⟩
  | @followed d inner hfollows =>
    -- among the landmarks the inclusion stands without what it removes
    let d' : Inclusion := { d with removed := [] }
    have hd : r.Follows chain d' inner :=
      ⟨hfollows.enabled, hfollows.fresh, hfollows.short, hfollows.loads⟩
    have hinner : ∀ {loc : Location},
        r.IsPlace (some d.source) (chain ++ [d.source]) inner loc → r.IsPlace label chain text loc :=
      fun hloc => IsPlace.of_followed (d := d') hloc (hlandmark d rfl) hd
    obtain ⟨hdefined, hreported⟩ := ih d inner hfollows
    refine ⟨fun e he => hinner (hdefined e (List.mem_filter.mp he).1), fun x hx => ?_⟩
    rcases List.mem_append.mp hx with hx | hx
    · exact hinner (hreported x hx)
    · obtain ⟨p, -, rfl⟩ := List.mem_map.mp hx
      exact .inl ⟨rfl, hline d.line rfl⟩

/-- **What is reported in merging a source, and what its definitions are known by, are places.** -/
theorem places_expand (r : Resolver) (label : Option String) (chain : List String)
    (text : String) :
    r.HasPlaces label chain text (r.expand label chain (.ofText text)).1.definitions
      (r.expand label chain (.ofText text)).2 := by
  refine expand_induction r
    (C := fun label chain text => r.HasPlaces label chain text
      (r.expand label chain (.ofText text)).1.definitions (r.expand label chain (.ofText text)).2)
    (fun label chain text ih => ?_) label chain text
  obtain ⟨hitems, hfindings⟩ := Source.placed text
  obtain ⟨parts, hparts, hdefinitions, hdiagnostics⟩ :=
    r.expand_contributions label chain (.ofText text)
  have hpart : ∀ part ∈ parts,
      r.HasPlaces label chain text part.definitions part.diagnostics := by
    intro part hmem
    obtain ⟨item, hitem, taken, hcontributes⟩ := hparts.exists_of_mem hmem
    refine HasPlaces.of_contributes hcontributes (hitems item hitem) (fun d hd => ?_) ih
    rw [← Source.landmarks_items]
    exact List.mem_filterMap.mpr ⟨item, hitem, hd ▸ rfl⟩
  refine ⟨fun d hd => ?_, fun x hx => ?_⟩
  · rw [hdefinitions] at hd
    obtain ⟨part, hmem, hd⟩ := List.mem_flatMap.mp hd
    exact (hpart part hmem).defined d hd
  · rw [hdiagnostics] at hx
    rcases List.mem_append.mp hx with hx | hx
    · obtain ⟨f, hf, rfl⟩ := List.mem_map.mp hx
      exact .inl ⟨rfl, hfindings f hf⟩
    · obtain ⟨part, hmem, hx⟩ := List.mem_flatMap.mp hx
      exact (hpart part hmem).reported x hx

end Resolver

namespace Outcome

/-- **Every diagnostic points at a real place.** It is on a line with content or a directive, either
of the text itself, under its label, or of a source that was loaded as it was included, under its
name, which is not that label. -/
theorem diagnostics_located (settings : Settings) (loader : Option Loader) (text : String) :
    let r : Resolver := ⟨loader, settings⟩
    let chain := [settings.sourceName.getD anonymous]
    ∀ x ∈ (ofText settings loader text).diagnostics,
      (x.location.source = settings.sourceName ∧ HasCodeOn text x.location.line) ∨
      ∃ name origin load, r.Includes chain text name origin ∧
        loader = some load ∧ load name = .ok origin ∧
        x.location.source = some name ∧ settings.sourceName ≠ some name ∧
        HasCodeOn origin x.location.line := by
  intro r chain x hx
  obtain ⟨hdefined, hreported⟩ := r.places_expand settings.sourceName chain text
  have hplace : r.IsPlace settings.sourceName chain text x.location := by
    rw [diagnostics_ofText] at hx
    rcases List.mem_append.mp hx with hx | hx
    · exact hreported x hx
    · obtain ⟨numbered, hnumbered, hx⟩ := List.mem_flatMap.mp hx
      obtain ⟨d, hd, rfl⟩ := List.mem_map.mp hnumbered
      obtain ⟨p, hp, rfl⟩ := List.mem_map.mp hx
      rcases settings.mem_complete hd with rfl | hd
      · -- nothing is wrong with the object for free comments
        cases hp
      · exact hdefined d hd
  rcases hplace with hroot | ⟨name, origin, hincludes, hsource, hline⟩
  · exact .inl hroot
  · obtain ⟨hfresh, load, hloader, htext⟩ := hincludes.loads
    refine .inr ⟨name, origin, load, hincludes, hloader, htext, hsource, fun hlabel => ?_, hline⟩
    exact hfresh (by simp [chain, hlabel])

/-- A source whose last object is left open. -/
def wallLoader : Loader
  | "lib.idd" => .ok "! walls\nWall,\n  A1, \\field Name\n"
  | name => .error (.notFound name)

/-- An object that is left open in an included source is reported where it begins there. -/
theorem unterminated_wall_located :
    let settings : Settings := { sourceName := some "main.idd" }
    let text := "Zone;\n\\include-file lib.idd\n"
    ∃ x ∈ (ofText settings wallLoader text).diagnostics,
      x.kind = .unterminatedObject ∧ x.location = ⟨some "lib.idd", 2⟩ ∧
      ∃ name origin load,
        Resolver.Includes ⟨some wallLoader, settings⟩ ["main.idd"] text name origin ∧
        some wallLoader = some load ∧ load name = .ok origin ∧
        x.location.source = some name ∧ settings.sourceName ≠ some name ∧
        HasCodeOn origin x.location.line := by
  intro settings text
  have hfound : (ofText settings wallLoader text).diagnostics.map
      (fun x => (x.kind, x.location)) = [(.unterminatedObject, ⟨some "lib.idd", 2⟩)] := by
    decide +kernel
  obtain ⟨x, hx, hplace⟩ : ∃ x ∈ (ofText settings wallLoader text).diagnostics,
      (x.kind, x.location) = (.unterminatedObject, ⟨some "lib.idd", 2⟩) :=
    List.mem_map.mp (hfound ▸ List.mem_singleton.mpr rfl)
  obtain ⟨hkind, hlocation⟩ := Prod.mk.inj hplace
  rcases diagnostics_located settings wallLoader text x hx with ⟨hsource, -⟩ | hincluded
  · rw [hlocation] at hsource
    exact absurd hsource (by decide)
  · exact ⟨x, hx, hkind, hlocation, hincluded⟩

end Outcome

end DataDictionary
