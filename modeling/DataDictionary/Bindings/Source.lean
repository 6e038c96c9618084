import DataDictionary.Bindings.Identifier
import DataDictionary.Text.Quoted

/-!
# Bindings

Bindings make a dictionary available to programs as a module of Rust code: an enumeration of the
object types with their names, and for every object enumerations of its fields that give each field
its index. The fields that never repeat are numbered from the start of the object, those of a
repeating group from the start of the group.

The code is made line by line, and every line ends with a line feed.
-/

namespace DataDictionary

namespace Bindings

/-- What is generated, and how it is called. -/
structure Options where
  objectTypes : Bool := true
  fieldEnums : Bool := true
  objectTypeName : String := "IddObjectType"
  visibility : String := "pub"

/-- The lines in front of everything else. -/
def opening (d : Dictionary) : List String :=
  ["//! Generated IDD " ++ d.version.getD "unversioned" ++ " definitions.",
   "//!",
   "//! This file was automatically generated. Do not edit.",
   ""]

/-- The lines of the enumeration of object types. -/
def objectTypeLines (options : Options) (d : Dictionary) (idents : List String) : List String :=
  let vis := options.visibility
  let name := options.objectTypeName
  let objects := d.objects.zip idents
  ["/// Object types defined by the dictionary.",
   "#[allow(non_camel_case_types)]",
   "#[derive(Debug, Clone, Copy, PartialEq, Eq, Hash)]",
   vis ++ " enum " ++ name ++ " \x7b"] ++
  objects.flatMap (fun (o, ident) => ["    /// `" ++ o.name ++ "`", "    " ++ ident ++ ","]) ++
  ["\x7d",
   "",
   "impl " ++ name ++ " \x7b",
   "    /// All object types in dictionary order.",
   "    " ++ vis ++ " const ALL: &'static [" ++ name ++ "] = &["] ++
  idents.map (fun ident => "        " ++ name ++ "::" ++ ident ++ ",") ++
  ["    ];",
   "",
   "    /// Returns the dictionary name of the object type.",
   "    #[must_use]",
   "    " ++ vis ++ " const fn name(&self) -> &'static str \x7b",
   "        match *self \x7b"] ++
  objects.map (fun (o, ident) =>
    "            Self::" ++ ident ++ " => " ++ Text.quote o.name ++ ",") ++
  ["        \x7d",
   "    \x7d",
   "",
   "    /// Looks up an object type by dictionary name, ignoring case.",
   "    #[must_use]",
   "    " ++ vis ++ " fn from_name(name: &str) -> Option<Self> \x7b",
   "        let name = name.trim();",
   "        Self::ALL.iter().copied().find(|t| t.name().eq_ignore_ascii_case(name))",
   "    \x7d",
   "\x7d",
   ""]

/-- The lines of one field in an enumeration whose first field has the index `base`. There are none
if the field has a smaller index than that. -/
def fieldLines? (base : Nat) (f : Field) (ident : String) : Option (List String) :=
  if base ≤ f.index then
    some ((if f.name = "" then [] else ["    /// " ++ f.id.render ++ " `" ++ f.name ++ "`"]) ++
      ["    " ++ ident ++ " = " ++ Text.decimal (f.index - base) ++ ","])
  else none

/-- The lines of an enumeration of fields. -/
def fieldEnumLines? (options : Options) (title name : String) (base : Nat) (fields : List Field) :
    Option (List String) := do
  let members ← (fields.zip (fieldIdents fields)).mapM fun (f, ident) => fieldLines? base f ident
  some (["/// " ++ title,
    "#[allow(non_camel_case_types)]",
    "#[derive(Debug, Clone, Copy, PartialEq, Eq, Hash)]",
    "#[repr(usize)]",
    options.visibility ++ " enum " ++ name ++ " \x7b"] ++ members.flatten ++ ["\x7d", ""])

/-- The lines for the fields of an object that never repeat. -/
def fixedFieldLines? (options : Options) (o : Object) (ident : String) : Option (List String) :=
  if o.fixedFields = [] then some []
  else
    fieldEnumLines? options ("Field indices of `" ++ o.name ++ "`.") (ident ++ "Fields") 0
      o.fixedFields

/-- The lines for the repeating group of an object. -/
def groupFieldLines? (options : Options) (o : Object) (ident : String) : Option (List String) :=
  if o.isExtensible then do
    let group ← o.group?
    match group with
    | [] => some []
    | first :: _ =>
      fieldEnumLines? options
        ("Field offsets within one extensible group of `" ++ o.name ++ "`.")
        (ident ++ "ExtensibleFields") first.index group
  else some []

/-- The lines for the fields of an object. -/
def objectFieldLines? (options : Options) (o : Object) (ident : String) :
    Option (List String) := do
  let fixed ← fixedFieldLines? options o ident
  let group ← groupFieldLines? options o ident
  some (fixed ++ group)

/-- The lines of the bindings of a dictionary. There are none if the numbers run out that tell its
objects apart, or if the fields of some object cannot be numbered, because its repeating group would
end beyond the largest count or is not in order. -/
def lines? (options : Options) (d : Dictionary) : Option (List String) := do
  let idents ← objectIdents? d
  let types := if options.objectTypes then objectTypeLines options d idents else []
  let fields ←
    if options.fieldEnums then
      (d.objects.zip idents).mapM fun (o, ident) => objectFieldLines? options o ident
    else some []
  some (opening d ++ types ++ fields.flatten)

/-- The bindings of a dictionary. -/
def render? (options : Options) (d : Dictionary) : Option String :=
  (lines? options d).map fun lines => String.join (lines.map (· ++ "\n"))

end Bindings

end DataDictionary
