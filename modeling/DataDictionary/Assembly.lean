import DataDictionary.Inclusion
import DataDictionary.Dictionary

/-!
# Assembly

Once all inclusions are merged in, the fields of every object get their final numbers, and what can
only be judged of a whole object is checked: whether it has as many fields as it demands, and
whether its repeating group fits.
-/

namespace DataDictionary

/-- The name of the object for free comments. -/
def commentOnlyName : String := "CommentOnly"

/-- The text that stands for the declaration of the object for free comments. -/
def commentOnlyText : String := "CommentOnly; ! Autogenerated comment only object."

/-- The object for free comments, which no source declares. It is always the same, so that its text
need not be read. -/
def commentOnly : Definition := ⟨{ name := commentOnlyName }, none, 1⟩

/-- The object for free comments is what its text declares, and all that it declares. -/
theorem items_commentOnlyText :
    (Source.ofText commentOnlyText).items = [.object commentOnly.object commentOnly.line] ∧
      (Source.ofText commentOnlyText).findings = [] := by
  decide +kernel

/-- Adds the object for free comments in front, unless there is one. -/
def withCommentOnly (definitions : List Definition) : List Definition :=
  if definitions.any fun d => Text.sameWord d.object.name commentOnlyName then definitions
  else commentOnly :: definitions

namespace Object

/-- The fields with their positions, the last one marked. -/
def numberedFields (fields : List Field) : List Field :=
  fields.mapIdx fun i f => { f with index := i, isLast := i + 1 = fields.length }

/-- The object with its fields numbered. -/
def numbered (o : Object) : Object := { o with fields := numberedFields o.fields }

/-- An object must have as many fields as it demands of its instances. -/
def countProblems (o : Object) : List Problem :=
  match o.minFields with
  | some least =>
    if o.fields.length < least then [.tooFewFields o.name least o.fields.length] else []
  | none => []

/-- A repeating group must fit into the object, and the fields from the mark on must make up whole
groups. A mark without a group makes no sense. -/
def groupProblems (o : Object) : List Problem :=
  let count := o.fields.length
  match o.extensible, o.groupMark? with
  | some size, mark =>
    if count < size then [.groupTooLarge o.name size count]
    else
      match mark with
      | some start =>
        let rest := count - start
        if rest % size ≠ 0 ∨ rest < size then [.groupUneven o.name rest size] else []
      | none => []
  | none, some _ => [.groupUndeclared o.name]
  | none, none => []

/-- What is wrong with a whole object. -/
def problems (o : Object) : List Problem := o.countProblems ++ o.groupProblems

end Object

/-- The definition with its fields numbered. -/
def Definition.numbered (d : Definition) : Definition := { d with object := d.object.numbered }

/-- What is wrong with the object of a definition, reported at its declaration. -/
def Definition.check (d : Definition) : Diagnostics :=
  d.object.problems.map (·.report d.location)

/-- Makes a dictionary of what a source and its inclusions say. -/
def assemble (settings : Settings) (header : Header) (merged : Merged) :
    Dictionary × Diagnostics :=
  let all :=
    if settings.insertCommentOnlyObject then withCommentOnly merged.definitions
    else merged.definitions
  let definitions := all.map Definition.numbered
  ({ version := header.version
     build := header.build
     header := header.text
     groups := merged.groups
     objects := definitions.map (·.object) },
   definitions.flatMap Definition.check)

end DataDictionary
