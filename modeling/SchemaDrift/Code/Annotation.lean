import SchemaDrift.Code.Parser
import SchemaDrift.Settings.Keys
import SchemaDrift.Text.Blank
/-!
Annotations: the attributes of structs and fields that say how tables are made of them.
-/

set_option autoImplicit false

namespace SchemaDrift.Code

inductive AnnotationFault where
  | settingsForm (ddl : String)
  | emptyTableName
  | emptyPrimaryKey
  | unknownSetting
  | missingSetting
  | literalSetting
  | strangeSetting
  | missingName (atEnd : Bool)
  | missingEqual
  | missingComma
  | missingText (atEnd : Bool)
  | columnForm (column : String)
  | keyForm (primaryKey : String)
  | definitionForm (ddl : String)
  | unnamedFields
  | excludedKey
  | unknownType (type ddl : String)
  | constraintInColumn (ddl : String)
  | keyTwice (primaryKey : String)
  | unknownKeyField (field : String)
  | indexElsewhere (index target table : String)
  | duplicateIndex (index : String)
  | invalidDefinition (text message : String)
deriving DecidableEq, Repr

def AnnotationFault.message : AnnotationFault → String
  | settingsForm ddl => s!"expected #[{ddl}(...)] on a struct"
  | emptyTableName => "table name is empty"
  | emptyPrimaryKey => "primary_key names no fields"
  | unknownSetting => "unknown key; expected `table`, `primary_key`, `index` or `constraint`"
  | missingSetting => "unexpected end of input, expected nested attribute"
  | literalSetting => "unexpected literal in nested attribute, expected ident"
  | strangeSetting => "unexpected token in nested attribute, expected ident"
  | missingName atEnd => ended atEnd "expected ident"
  | missingEqual => "expected `=`"
  | missingComma => "expected `,`"
  | missingText atEnd => ended atEnd "expected string literal"
  | columnForm column => s!"expected #[{column} = \"name\"] or #[{column}(\"name\")]"
  | keyForm key => s!"expected #[{key}], #[{key} = true] or #[{key} = false]"
  | definitionForm ddl => s!"expected #[{ddl} = \"<column definition>\"]"
  | unnamedFields => "table declarations need named fields"
  | excludedKey => "an excluded field cannot be part of the primary key"
  | unknownType type ddl =>
    s!"cannot map type `{type}` to a column type; add a #[{ddl} = \"...\"] override"
  | constraintInColumn ddl =>
    s!"column overrides cannot declare constraints; use #[{ddl}(constraint = \"...\")] on the struct"
  | keyTwice key => s!"primary key is declared both by `primary_key` and by #[{key}] fields"
  | unknownKeyField field => s!"primary key field `{field}` does not exist"
  | indexElsewhere index target table => s!"index `{index}` is on table `{target}`, not `{table}`"
  | duplicateIndex index => s!"duplicate index `{index}`"
  | invalidDefinition text message => s!"invalid DDL `{text}`: {message}"
where
  ended (atEnd : Bool) (message : String) : String :=
    if atEnd then "unexpected end of input, " ++ message else message

structure Problem where
  position : Nat
  fault : AnnotationFault
deriving DecidableEq, Repr

/-! ### Structs -/

structure TableSettings where
  table : Option String := none
  primaryKey : Option (List String) := none
  indexes : List Quoted := []
  constraints : List Quoted := []

namespace TableSettings

-- Where the first of the trees is; `finish` if there is none.
def place (finish : Nat) (trees : List TokenTree) : Nat :=
  (trees.head?.map TokenTree.start).getD finish

def dropSegments (finish : Nat) : Nat → List TokenTree → Except Problem (Bool × List TokenTree)
  | 0, trees => .ok (false, trees)
  | count + 1, trees => match Look.dropMarks? "::".toList trees with
    | none => .ok (false, trees)
    | some (.token _ (.word _) :: rest) => do
      let (_, rest) ← dropSegments finish count rest
      .ok (true, rest)
    | some rest => .error ⟨place finish rest, .missingName rest.isEmpty⟩

-- The path in front of an equal sign: where it starts, its name if it is a single one, and what
-- follows.
def key (finish : Nat) (trees : List TokenTree) :
    Except Problem (Nat × Option String × List TokenTree) := do
  let (rooted, trees) := match Look.dropMarks? "::".toList trees with
    | some rest => (true, rest)
    | none => (false, trees)
  match trees with
  | [] => .error ⟨finish, .missingSetting⟩
  | .token start (.word name) :: rest =>
    let (longer, rest) ← dropSegments finish rest.length rest
    .ok (start, if rooted || longer then none else some name, rest)
  | tree :: _ =>
    .error ⟨tree.start, if Look.literal trees then .literalSetting else .strangeSetting⟩

def text (finish : Nat) (trees : List TokenTree) : Except Problem (Quoted × List TokenTree) :=
  match Look.dropMarks? ['='] trees with
  | none => .error ⟨place finish trees, .missingEqual⟩
  | some (.token start (.literal (.text value) _) :: rest) => .ok ({ start, value }, rest)
  | some rest => .error ⟨place finish rest, .missingText rest.isEmpty⟩

def fieldNames (value : String) : List String :=
  (Text.fields (· = ',') value.toList).filterMap fun part =>
    let name := Text.trim part
    if name.isEmpty then none else some (String.ofList name)

def add (settings : TableSettings) (start : Nat) (key : Option String)
    (value : Except Problem (Quoted × List TokenTree)) :
    Except Problem (TableSettings × List TokenTree) := do
  match key with
  | some "table" =>
    let (name, rest) ← value
    if name.value = "" then .error ⟨name.start, .emptyTableName⟩
    else .ok ({ settings with table := some name.value }, rest)
  | some "primary_key" =>
    let (names, rest) ← value
    let fields := fieldNames names.value
    if fields.isEmpty then .error ⟨names.start, .emptyPrimaryKey⟩
    else .ok ({ settings with primaryKey := some fields }, rest)
  | some "index" =>
    let (statement, rest) ← value
    .ok ({ settings with indexes := settings.indexes ++ [statement] }, rest)
  | some "constraint" =>
    let (fragment, rest) ← value
    .ok ({ settings with constraints := settings.constraints ++ [fragment] }, rest)
  | _ => .error ⟨start, .unknownSetting⟩

def addEntries (finish : Nat) : Nat → TableSettings → List TokenTree → Except Problem TableSettings
  | 0, settings, _ => .ok settings
  | _, settings, [] => .ok settings
  | count + 1, settings, trees => do
    let (start, name, rest) ← key finish trees
    let (settings, rest) ← settings.add start name (text finish rest)
    match rest with
    | [] => .ok settings
    | tree :: _ => match Look.dropMarks? [','] rest with
      | some rest => addEntries finish count settings rest
      | none => .error ⟨tree.start, .missingComma⟩

def addAttribute (keys : AnnotationKeys) (settings : Option TableSettings) (found : Attribute) :
    Except Problem (Option TableSettings) :=
  if found.name? = some keys.ddl then
    match found.body with
    | .list finish inner =>
      (addEntries finish inner.length (settings.getD {}) inner).map Option.some
    | _ => .error ⟨found.start, .settingsForm keys.ddl⟩
  else .ok settings

def ofAttributes (keys : AnnotationKeys) (attributes : List Attribute) :
    Except Problem (Option TableSettings) :=
  attributes.foldlM (addAttribute keys) none

end TableSettings

/-! ### Fields -/

structure FieldAnnotations where
  column : Option String := none
  excluded : Bool := false
  inPrimaryKey : Bool := false
  definition : Option Quoted := none
  -- The texts of the annotations by their keys, sorted.
  texts : List (String × String) := []
  annotated : Bool := false

namespace FieldAnnotations

def insertText (key text : String) : List (String × String) → List (String × String)
  | [] => [(key, text)]
  | (k, t) :: texts =>
    if k = key then (key, text) :: texts
    else if key < k then (key, text) :: (k, t) :: texts
    else (k, t) :: insertText key text texts

def columnName? : AttributeBody → Option String
  | .text name => if name.value = "" then none else some name.value
  | .list _ [.token _ (.literal (.text name) _)] => if name = "" then none else some name
  | _ => none

def flag? : AttributeBody → Option Bool
  | .none => some true
  | .flag value => some value
  | .text value =>
    if value.value = "true" then some true
    else if value.value = "false" then some false
    else none
  | _ => none

def addColumn (annotations : FieldAnnotations) (key name : String) : FieldAnnotations :=
  let texts := insertText key name annotations.texts
  if name = "-" then { annotations with excluded := true, texts, annotated := true }
  else { annotations with column := some name, texts, annotated := true }

def addKey (annotations : FieldAnnotations) (key : String) (value : Bool) : FieldAnnotations :=
  { annotations with
    inPrimaryKey := value
    texts := insertText key (if value then "true" else "false") annotations.texts
    annotated := true }

def addDefinition (annotations : FieldAnnotations) (key : String) (definition : Quoted) :
    FieldAnnotations :=
  { annotations with
    definition := some definition
    texts := insertText key definition.value annotations.texts
    annotated := true }

def addAttribute (keys : AnnotationKeys) (annotations : FieldAnnotations) (found : Attribute) :
    Except Problem FieldAnnotations :=
  if found.name? = some keys.column then
    match columnName? found.body with
    | some name => .ok (annotations.addColumn keys.column name)
    | none => .error ⟨found.start, .columnForm keys.column⟩
  else if found.name? = some keys.primaryKey then
    match flag? found.body with
    | some value => .ok (annotations.addKey keys.primaryKey value)
    | none => .error ⟨found.start, .keyForm keys.primaryKey⟩
  else if found.name? = some keys.ddl then
    match found.body with
    | .text definition => .ok (annotations.addDefinition keys.ddl definition)
    | _ => .error ⟨found.start, .definitionForm keys.ddl⟩
  else .ok annotations

def ofAttributes (keys : AnnotationKeys) (attributes : List Attribute) :
    Except Problem FieldAnnotations :=
  attributes.foldlM (addAttribute keys) {}

end FieldAnnotations

end SchemaDrift.Code
